import Postit.Data.Schema
import Postit.Framework.Results

/-!
# Grants and connected accounts

The tables `account_grants` and `connected_accounts` with the statements that change their states.
Each operation is a transaction of its own and one step; one that fails changes nothing.  What a
refresh read before its call to the provider is left open, so what it writes may come at any time.

Names, scopes, tokens of single accounts, audit events and notices are left out.  Sealed
credentials are of any type.
-/

namespace Postit.Accounts

open Postit.Data (UserId PlatformId AccountId)
open Postit.Framework

abbrev GrantId := ℕ

/-- How a grant was obtained. -/
inductive GrantKind
  | oauth
  | credentials
  deriving DecidableEq, Repr

/-- Whether a grant can still be used. -/
inductive GrantStatus
  | active
  | needsReconnect
  | revoked
  deriving DecidableEq, Repr

/-- Whether a connected account can be used. -/
inductive AccountStatus
  | active
  | needsReconnect
  | revoked
  | disconnected
  deriving DecidableEq, Repr

def GrantStatus.toAccount : GrantStatus → AccountStatus
  | .active => .active
  | .needsReconnect => .needsReconnect
  | .revoked => .revoked

/-- A row of `account_grants`. -/
structure Grant (κ : Type) where
  ownerId : UserId
  platform : PlatformId
  kind : GrantKind
  remoteUserId : Option String
  credential : Option κ
  expiresAt : Option Time
  status : GrantStatus := .active
  deriving DecidableEq

/-- A row of `connected_accounts`. -/
structure Account where
  ownerId : UserId
  grantId : Option GrantId
  platform : PlatformId
  remoteAccountId : String
  status : AccountStatus := .active
  deriving DecidableEq

/-- Both tables, and the IDs given out. -/
structure Db (κ : Type) where
  grants : Table GrantId (Grant κ) := ∅
  accounts : Table AccountId Account := ∅
  nextGrant : GrantId := 0
  nextAccount : AccountId := 0

inductive DataError
  | notFound
  | accountConnectedElsewhere
  | sendingMethodExists
  deriving DecidableEq, Repr

variable {κ : Type}

/-- The grants that satisfy the condition, changed. -/
def Db.updateGrants (db : Db κ) (p : GrantId → Grant κ → Bool) (f : Grant κ → Grant κ) : Db κ :=
  { db with grants := db.grants.updateWhere p f }

/-- The accounts that satisfy the condition, changed. -/
def Db.updateAccounts (db : Db κ) (p : AccountId → Account → Bool) (f : Account → Account) :
    Db κ :=
  { db with accounts := db.accounts.updateWhere p f }

/-! ## Grants -/

namespace GrantRepo

/-- Stores a new grant with status `active`. -/
def insert (db : Db κ) (grant : Grant κ) : Db κ × GrantId :=
  ({ db with grants := db.grants.insert db.nextGrant grant, nextGrant := db.nextGrant + 1 },
    db.nextGrant)

/-- Sets the grant's status and the status of every account on it that is not `disconnected`, and
returns the grant's status before the change. -/
def setStatus (db : Db κ) (owner : UserId) (id : GrantId) (status : GrantStatus) :
    Except DataError (Db κ × GrantStatus) :=
  match db.grants.lookup id with
  | none => .error .notFound
  | some grant =>
    if grant.ownerId = owner then
      let db := db.updateGrants (fun k _ => k = id) ({ · with status })
      let db := db.updateAccounts
        (fun _ a => a.ownerId = owner ∧ a.grantId = some id ∧ a.status ≠ .disconnected)
        ({ · with status := status.toAccount })
      .ok (db, grant.status)
    else .error .notFound

/-- Deletes the grant when no account uses it. -/
def deleteIfUnused (db : Db κ) (owner : UserId) (id : GrantId) : Db κ :=
  match db.grants.lookup id with
  | none => db
  | some grant =>
    if grant.ownerId = owner ∧ ¬ db.accounts.exists? (fun _ a => a.grantId = some id) then
      { db with grants := db.grants.erase id }
    else db

/-- Replaces the credential and its expiry after a refresh.  A revoked grant is never written
to. -/
def storeTokens (db : Db κ) (id : GrantId) (credential : κ) (expiresAt : Option Time) :
    Except DataError (Db κ) :=
  match db.grants.lookup id with
  | none => .error .notFound
  | some grant =>
    if grant.status ≠ .revoked then
      .ok (db.updateGrants (fun k _ => k = id)
        ({ · with credential := some credential, expiresAt }))
    else .error .notFound

/-- Sets the grant and its accounts that are not `disconnected` or `revoked` to
`needs_reconnect`.  A revoked grant is left alone. -/
def markNeedsReconnect (db : Db κ) (id : GrantId) : Db κ :=
  match db.grants.lookup id with
  | none => db
  | some grant =>
    if grant.status ≠ .revoked then
      let db := db.updateGrants (fun k _ => k = id) ({ · with status := .needsReconnect })
      db.updateAccounts
        (fun _ a => a.grantId = some id ∧ a.status ≠ .disconnected ∧ a.status ≠ .revoked)
        ({ · with status := .needsReconnect })
    else db

/-- Revokes the grants, clears their credentials, and revokes their accounts that are not
`disconnected`. -/
def revokeAll (db : Db κ) (grants : List GrantId) : Db κ :=
  let db := db.updateGrants (fun k _ => k ∈ grants)
    ({ · with status := .revoked, credential := none })
  db.updateAccounts
    (fun _ a => a.grantId.any (· ∈ grants) ∧ a.status ≠ .disconnected ∧ a.status ≠ .revoked)
    ({ · with status := .revoked })

/-- Revokes every grant of the platform that the remote user authorized, whoever owns it. -/
def revokeByRemoteUser (db : Db κ) (platform : PlatformId) (remoteUserId : String) : Db κ :=
  let grants := db.grants.select fun _ g =>
    g.platform = platform ∧ g.remoteUserId = some remoteUserId
  revokeAll db (grants.map Prod.fst)

def setRevoked (db : Db κ) (id : GrantId) : Db κ := revokeAll db [id]

end GrantRepo

/-! ## Accounts -/

/-- What a connect made of one account. -/
inductive AccountUpsert
  | created (account : AccountId)
  | reactivated (account : AccountId)
  | moved (account : AccountId) (previousGrant : GrantId)
  deriving DecidableEq, Repr

/-- The account of an upsert. -/
def AccountUpsert.account : AccountUpsert → AccountId
  | .created account | .reactivated account | .moved account _ => account

def AccountUpsert.previousGrant : AccountUpsert → Option GrantId
  | .moved _ previous => some previous
  | .created _ | .reactivated _ => none

namespace AccountRepo

/-- The unique index that refuses the connected row under its key, if there is one. -/
def refused (db : Db κ) (key : AccountId) (row : Account) : Option DataError :=
  let others := fun (p : Account → Bool) =>
    db.accounts.exists? fun k a => k ≠ key ∧ a.status ≠ .disconnected ∧ p a
  if others fun a => a.platform = row.platform ∧ a.remoteAccountId = row.remoteAccountId then
    some .accountConnectedElsewhere
  else if row.platform = "email" ∧ others fun a => a.platform = "email" ∧ a.ownerId = row.ownerId
  then some .sendingMethodExists
  else none

/-- Stores the connected row under its key, unless a unique index refuses it. -/
def store (db : Db κ) (key : AccountId) (row : Account) : Except DataError (Db κ) :=
  match refused db key row with
  | some error => .error error
  | none => .ok { db with accounts := db.accounts.insert key row }

/-- Connects an account.  The owner's own row for the same remote account is reused, of which
there is one at most. -/
def insertOrReactivate (db : Db κ) (owner : UserId) (grant : GrantId) (platform : PlatformId)
    (remoteAccountId : String) : Except DataError (Db κ × AccountUpsert) :=
  match db.accounts.find? fun _ a =>
      a.ownerId = owner ∧ a.platform = platform ∧ a.remoteAccountId = remoteAccountId with
  | some (key, existing) => do
    let db ← store db key { existing with grantId := some grant, status := .active }
    match existing.grantId.filter fun g => existing.status ≠ .disconnected ∧ g ≠ grant with
    | some previous => .ok (db, .moved key previous)
    | none => .ok (db, .reactivated key)
  | none => do
    let key := db.nextAccount
    let db ← store { db with nextAccount := key + 1 } key
      { ownerId := owner, grantId := some grant, platform, remoteAccountId }
    .ok (db, .created key)

/-- Moves one `active` account to `needs_reconnect`. -/
def markNeedsReconnect (db : Db κ) (owner : UserId) (id : AccountId) : Db κ :=
  db.updateAccounts (fun k a => k = id ∧ a.ownerId = owner ∧ a.status = .active)
    ({ · with status := .needsReconnect })

/-- Moves one `needs_reconnect` account back to `active`, only while its grant is `active`. -/
def markActive (db : Db κ) (owner : UserId) (id : AccountId) : Db κ :=
  db.updateAccounts
    (fun k a => k = id ∧ a.ownerId = owner ∧ a.status = .needsReconnect ∧
      db.grants.exists? fun g grant =>
        a.grantId = some g ∧ grant.ownerId = a.ownerId ∧ grant.status = .active)
    ({ · with status := .active })

/-- Disconnects an account: it becomes `disconnected` with no grant. -/
def disconnect (db : Db κ) (owner : UserId) (id : AccountId) : Except DataError (Db κ) :=
  match db.accounts.lookup id with
  | none => .error .notFound
  | some account =>
    if account.ownerId = owner then
      .ok (db.updateAccounts (fun k _ => k = id)
        ({ · with status := .disconnected, grantId := none }))
    else .error .notFound

end AccountRepo

/-! ## The service -/

/-- A credential to connect, with the accounts it reaches. -/
structure ConnectInput (κ : Type) where
  platform : PlatformId
  kind : GrantKind
  remoteUserId : Option String
  credential : κ
  expiresAt : Option Time
  accounts : List String

/-- The grant of a credential to connect. -/
def ConnectInput.newGrant (input : ConnectInput κ) (owner : UserId) : Grant κ where
  ownerId := owner
  platform := input.platform
  kind := input.kind
  remoteUserId := input.remoteUserId
  credential := some input.credential
  expiresAt := input.expiresAt

/-- Connects one account to the grant, unless another owner has it. -/
def connectOne (owner : UserId) (grant : GrantId) (platform : PlatformId)
    (done : Db κ × List AccountUpsert) (remoteAccountId : String) :
    Except DataError (Db κ × List AccountUpsert) :=
  match AccountRepo.insertOrReactivate done.1 owner grant platform remoteAccountId with
  | .ok (db, upsert) => .ok (db, done.2 ++ [upsert])
  | .error .accountConnectedElsewhere => .ok done
  | .error error => .error error

/-- Stores the credential as a grant, connects each account to it, and deletes the grants left
unused. -/
def connectInTx (db : Db κ) (owner : UserId) (input : ConnectInput κ) :
    Except DataError (Db κ × List AccountUpsert) := do
  let (db, grant) := GrantRepo.insert db (input.newGrant owner)
  let (db, connected) ← input.accounts.foldlM (connectOne owner grant input.platform) (db, [])
  let previousGrants := (connected.filterMap AccountUpsert.previousGrant).dedup
  let db := previousGrants.foldl (GrantRepo.deleteIfUnused · owner) db
  let db := if connected.isEmpty then GrantRepo.deleteIfUnused db owner grant else db
  .ok (db, connected)

/-- Moves a grant and every account on it to `needs_reconnect`: for the worker, and for a check, of
a grant whose credential the platform rejects. -/
def markNeedsReconnectIn (db : Db κ) (owner : UserId) (grant : GrantId) :
    Except DataError (Db κ) := do
  let (db, _) ← GrantRepo.setStatus db owner grant .needsReconnect
  .ok db

/-- What happens to grants and accounts. -/
inductive Action (κ : Type)
  | connect (owner : UserId) (input : ConnectInput κ)
  /-- a refresh the provider answered with tokens -/
  | refreshed (grant : GrantId) (credential : κ) (expiresAt : Option Time)
  /-- a refresh the provider refused, or a `reconnect_by` that has passed -/
  | refused (grant : GrantId)
  | markNeedsReconnect (owner : UserId) (grant : GrantId)
  | markAccountNeedsReconnect (owner : UserId) (account : AccountId)
  | markActive (owner : UserId) (account : AccountId)
  | deauthorize (platform : PlatformId) (remoteUserId : String)
  | setRevoked (grant : GrantId)
  | disconnect (owner : UserId) (account : AccountId)
  | deleteUnused (owner : UserId) (grant : GrantId)

/-- What an action makes of the tables. -/
def Db.perform (db : Db κ) : Action κ → Except DataError (Db κ)
  | .connect owner input => (connectInTx db owner input).map Prod.fst
  | .refreshed grant credential expiresAt => GrantRepo.storeTokens db grant credential expiresAt
  | .refused grant => .ok (GrantRepo.markNeedsReconnect db grant)
  | .markNeedsReconnect owner grant => markNeedsReconnectIn db owner grant
  | .markAccountNeedsReconnect owner account =>
    .ok (AccountRepo.markNeedsReconnect db owner account)
  | .markActive owner account => .ok (AccountRepo.markActive db owner account)
  | .deauthorize platform remoteUserId =>
    .ok (GrantRepo.revokeByRemoteUser db platform remoteUserId)
  | .setRevoked grant => .ok (GrantRepo.setRevoked db grant)
  | .disconnect owner account => AccountRepo.disconnect db owner account
  | .deleteUnused owner grant => .ok (GrantRepo.deleteIfUnused db owner grant)

/-- One operation that succeeds. -/
def Db.Step (s : Db κ) (a : Action κ) (t : Db κ) : Prop := s.perform a = .ok t

end Postit.Accounts
