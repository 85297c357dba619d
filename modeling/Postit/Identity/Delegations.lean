import Postit.Accounts.Grants
import Postit.Data.Audit
import Postit.Data.Scope
import Postit.Identity.Users

/-!
# Delegations

The tables `delegations` and `delegation_accounts`, with what reads them (`DelegationRepo.resolve`,
`DelegationRepo.liveGrantCovers`, `workspaces`) and what writes them (`grant`, `change`, `revoke`,
`leave`, the disconnect of an account and the expiry job).  Each operation is one transaction, which
holds the lock on its grant to its end; one that fails changes nothing.  It is given the reading of
the clock it works by.

The account limit of a grant is absent when it reaches every account, as in `Access`.  `OwnerScope`
does not keep the grant it is under, so `resolve` gives the grant beside the scope.  Request
contexts, and the columns about who wrote a row and when, are left out.
-/

namespace Postit.Delegations

open Postit.Audit (AuditEventKind)
open Postit.Data (UserId AccountId Level Access OwnerScope ScopeError)
open Postit.Framework
open Postit.Identity (UserRecord UserStatus)

abbrev DelegationId := ℕ

/-! ## The tables -/

/-- Why a grant ended. -/
inductive EndedReason
  | revoked
  | left
  | expired
  deriving DecidableEq, Repr

/-- The kind of the event of an ended grant. -/
def EndedReason.kind : EndedReason → AuditEventKind
  | .revoked => .delegationRevoked
  | .left => .delegationLeft
  | .expired => .delegationExpired

/-- When and why a grant was ended, and by whom when it was revoked. -/
structure Ended where
  endedAt : Time
  reason : EndedReason
  revokedBy : Option UserId
  deriving DecidableEq

/-- A row of `delegations`.  The columns about its end are set together or not at all. -/
structure DelegationRow where
  ownerId : UserId
  delegateId : UserId
  level : Level
  allAccounts : Bool
  expiresAt : Option Time
  ended : Option Ended := none
  createdAt : Time
  deriving DecidableEq

/-- Which accounts a grant reaches, every one or these. -/
abbrev AccountLimit := Option (List AccountId)

/-- A limit to the accounts, sorted and deduplicated. -/
def AccountLimit.only (ids : List AccountId) : AccountLimit :=
  some (ids.insertionSort (· ≤ ·)).dedup

/-- A grant as it is read. -/
structure Delegation where
  id : DelegationId
  ownerId : UserId
  delegateId : UserId
  level : Level
  accounts : AccountLimit
  expiresAt : Option Time
  ended : Option Ended
  createdAt : Time
  deriving DecidableEq

/-- Whether the grant works at `now`: not ended, and not past its expiry. -/
def Delegation.isLive (d : Delegation) (now : Time) : Bool :=
  d.ended.isNone && d.expiresAt.all (now < ·)

/-- The audited state of a grant. -/
structure GrantState where
  level : Level
  allAccounts : Bool
  accountIds : List AccountId
  expiresAt : Option Time
  deriving DecidableEq

def Delegation.state (d : Delegation) : GrantState where
  level := d.level
  allAccounts := d.accounts.isNone
  accountIds := d.accounts.getD []
  expiresAt := d.expiresAt

inductive Details
  | state (state : GrantState)
  | changed (before after : GrantState)
  deriving DecidableEq

/-- An audit event about a grant. -/
structure AuditEvent where
  kind : AuditEventKind
  actor : Option UserId
  owner : UserId
  subject : UserId
  delegationId : DelegationId
  details : Details
  deriving DecidableEq

/-- What a notice says happened. -/
inductive DelegationEvent
  | granted
  | changed
  | revoked
  | left
  | expired
  deriving DecidableEq, Repr

/-- A `delegation_changed` notice, for `user` in the workspace of `owner`. -/
structure DelegationNotice where
  user : UserId
  owner : UserId
  delegationId : DelegationId
  event : DelegationEvent
  partyName : String
  deriving DecidableEq

/-- The tables; a row of `delegation_accounts` has the grant and the account as its key, and the
owner of both. -/
structure Db (κ : Type) where
  users : Table UserId UserRecord := ∅
  accounts : Accounts.Db κ := {}
  delegations : Table DelegationId DelegationRow := ∅
  links : Table (DelegationId × AccountId) UserId := ∅
  audit : List AuditEvent := []
  notices : List DelegationNotice := []

variable {κ : Type}

/-- The constraints the tables are declared with. -/
structure Db.Constraints (db : Db κ) : Prop where
  notSelf : ∀ id d, db.delegations.lookup id = some d → d.ownerId ≠ d.delegateId
  livePair : ∀ id id' d d',
    db.delegations.lookup id = some d → db.delegations.lookup id' = some d' →
    d.ended = none → d'.ended = none → d.ownerId = d'.ownerId → d.delegateId = d'.delegateId →
      id = id'
  parties : ∀ id d, db.delegations.lookup id = some d →
    (db.users.lookup d.ownerId).isSome ∧ (db.users.lookup d.delegateId).isSome
  linked : ∀ id account owner, db.links.lookup (id, account) = some owner →
    (∃ d, db.delegations.lookup id = some d ∧ d.ownerId = owner) ∧
      ∃ a, db.accounts.accounts.lookup account = some a ∧ a.ownerId = owner

/-- The accounts in the limit of a grant, in order. -/
def Db.linkedAccounts (db : Db κ) (id : DelegationId) : List AccountId :=
  ((db.links.select fun key _ => key.1 = id).map (·.1.2)).insertionSort (· ≤ ·)

/-- The grant of a row. -/
def Db.delegation (db : Db κ) (id : DelegationId) (row : DelegationRow) : Delegation where
  id := id
  ownerId := row.ownerId
  delegateId := row.delegateId
  level := row.level
  accounts := if row.allAccounts then none else AccountLimit.only (db.linkedAccounts id)
  expiresAt := row.expiresAt
  ended := row.ended
  createdAt := row.createdAt

/-- Whether the user is there and `active`. -/
def Db.isActive (db : Db κ) (user : UserId) : Bool :=
  (db.users.lookup user).any (·.status = .active)

/-! ## Errors -/

inductive DataError
  | notFound
  | scope (error : ScopeError)
  | conflict (code : String)
  | sql
  deriving DecidableEq, Repr

/-- Why a delegation operation failed. -/
inductive DelegationError
  | notFound
  | alreadyExists
  | invalid (field : String)
  | scope (error : ScopeError)
  | data (error : DataError)
  deriving DecidableEq, Repr

def DelegationError.ofData : DataError → DelegationError
  | .notFound => .notFound
  | .scope error => .scope error
  | .conflict code =>
    if code = "account_unavailable" then .invalid "account_ids"
    else if code = "delegation_exists" then .alreadyExists
    else if code = "self_delegation" then .invalid "delegate_id"
    else .data (.conflict code)
  | .sql => .data .sql

/-- A statement of the repository, with its error as the service reports it. -/
def repo {α : Type} (x : Except DataError α) : Except DelegationError α :=
  x.mapError DelegationError.ofData

/-- Refuses with the error when the condition holds. -/
def refuseIf {ε : Type} (condition : Bool) (error : ε) : Except ε Unit :=
  if condition then .error error else .ok ()

/-- What only the owner may do. -/
def requireOwner (scope : OwnerScope) : Except DataError Unit :=
  (scope.permits .ownerOnly).mapError .scope

/-! ## The statements -/

/-- A grant to create in the scope owner's workspace. -/
structure NewDelegation where
  id : DelegationId
  delegateId : UserId
  level : Level
  accounts : AccountLimit
  expiresAt : Option Time

/-- Changes to a grant; what is absent stays, and an expiry of nothing clears it. -/
structure DelegationChange where
  level : Option Level := none
  accounts : Option AccountLimit := none
  expiresAt : Option (Option Time) := none

/-- The account IDs a limit names, sorted and deduplicated. -/
def limitIds (accounts : AccountLimit) : Option (List AccountId) :=
  accounts.map fun ids => (ids.insertionSort (· ≤ ·)).dedup

namespace DelegationRepo

/-- Checks that each of the accounts is the owner's and connected. -/
def lockAccounts (db : Db κ) (owner : UserId) (ids : List AccountId) : Except DataError Unit :=
  let available := db.accounts.accounts.select fun id a =>
    a.ownerId = owner && ids.contains id && a.status ≠ .disconnected
  refuseIf (available.length ≠ ids.length) (.conflict "account_unavailable")

/-- Records the accounts as the limit of the grant. -/
def insertLinks (db : Db κ) (owner : UserId) (id : DelegationId) (ids : List AccountId) :
    Except DataError (Db κ) := do
  refuseIf (ids.any fun a => (db.links.lookup (id, a)).isSome)
    (.conflict "delegation_accounts_pkey")
  .ok { db with links := db.links.insertAll (ids.map fun a => ((id, a), owner)) }

/-- The owner's grant, ended or not. -/
def fetch (db : Db κ) (owner : UserId) (id : DelegationId) : Except DataError Delegation :=
  match (db.delegations.lookup id).filter (·.ownerId = owner) with
  | some row => .ok (db.delegation id row)
  | none => .error .notFound

/-- The pair's grant that has not been ended, expired or not. -/
def lockLiveForPair (db : Db κ) (scope : OwnerScope) (delegate : UserId) :
    Except DataError (Option Delegation) := do
  requireOwner scope
  .ok ((db.delegations.find? fun _ d =>
    d.ownerId = scope.owner && d.delegateId = delegate && d.ended.isNone).map
      fun (id, row) => db.delegation id row)

/-- One of the owner's grants, ended or not. -/
def lock (db : Db κ) (scope : OwnerScope) (id : DelegationId) : Except DataError Delegation := do
  requireOwner scope
  fetch db scope.owner id

/-- A grant the delegate holds, ended or not. -/
def lockReceived (db : Db κ) (delegate : UserId) (id : DelegationId) :
    Except DataError Delegation :=
  match (db.delegations.lookup id).filter (·.delegateId = delegate) with
  | some row => .ok (db.delegation id row)
  | none => .error .notFound

/-- The constraint of `delegations` that refuses the new row. -/
def violated (db : Db κ) (id : DelegationId) (row : DelegationRow) : Option DataError :=
  if row.ownerId = row.delegateId then some (.conflict "self_delegation")
  else if (db.delegations.lookup id).isSome then some (.conflict "delegations_pkey")
  else if db.delegations.exists? fun _ d =>
      d.ended.isNone && d.ownerId = row.ownerId && d.delegateId = row.delegateId then
    some (.conflict "delegation_exists")
  else if (db.users.lookup row.ownerId).isNone || (db.users.lookup row.delegateId).isNone then
    some .sql
  else none

/-- Stores a new row, unless a constraint refuses it. -/
def insertRow (db : Db κ) (id : DelegationId) (row : DelegationRow) : Except DataError (Db κ) :=
  match violated db id row with
  | some error => .error error
  | none => .ok { db with delegations := db.delegations.insert id row }

/-- Records the limit of a grant, when it has one. -/
def limitTo (db : Db κ) (owner : UserId) (id : DelegationId) :
    Option (List AccountId) → Except DataError (Db κ)
  | none => .ok db
  | some ids => do
    lockAccounts db owner ids
    insertLinks db owner id ids

/-- Creates a grant in the scope owner's workspace, with its account rows; `createdAt` is the time
of the database. -/
def insert (db : Db κ) (scope : OwnerScope) (new : NewDelegation) (createdAt : Time) :
    Except DataError (Db κ × Delegation) := do
  requireOwner scope
  let ids := limitIds new.accounts
  let db ← insertRow db new.id
    { ownerId := scope.owner
      delegateId := new.delegateId
      level := new.level
      allAccounts := ids.isNone
      expiresAt := new.expiresAt
      createdAt }
  let db ← limitTo db scope.owner new.id ids
  let delegation ← fetch db scope.owner new.id
  .ok (db, delegation)

/-- The row with the present fields of the change. -/
def changed (change : DelegationChange) (row : DelegationRow) : DelegationRow :=
  { row with
    level := change.level.getD row.level
    allAccounts := (change.accounts.map Option.isNone).getD row.allAccounts
    expiresAt := change.expiresAt.getD row.expiresAt }

/-- Replaces the limit of a grant; the accounts are locked before their links are deleted. -/
def replaceLinks (db : Db κ) (owner : UserId) (id : DelegationId) (accounts : AccountLimit) :
    Except DataError (Db κ) := do
  let ids := limitIds accounts
  (ids.elim (.ok ()) (lockAccounts db owner))
  let db := { db with links := db.links.deleteWhere fun key o => o = owner && key.1 = id }
  ids.elim (.ok db) (insertLinks db owner id)

/-- Applies the change to one of the owner's grants that has not been ended. -/
def update (db : Db κ) (scope : OwnerScope) (id : DelegationId) (change : DelegationChange) :
    Except DataError (Db κ × Delegation) := do
  requireOwner scope
  let found := fun k (d : DelegationRow) => d.ownerId = scope.owner && k = id && d.ended.isNone
  refuseIf (!db.delegations.exists? found) .notFound
  let db := { db with delegations := db.delegations.updateWhere found (changed change) }
  let db ← change.accounts.elim (.ok db) (replaceLinks db scope.owner id)
  let delegation ← fetch db scope.owner id
  .ok (db, delegation)

/-- Ends a grant; an ended or missing one is left as it is. -/
def end_ (db : Db κ) (id : DelegationId) (reason : EndedReason) (revokedBy : Option UserId)
    (now : Time) : Db κ :=
  { db with
    delegations := db.delegations.updateWhere (fun k d => k = id && d.ended.isNone)
      ({ · with ended := some ⟨now, reason, revokedBy⟩ }) }

/-- The accounts of the rows that `delegation_accounts` gives the grant in a `LEFT JOIN`. -/
def leftJoined (db : Db κ) (id : DelegationId) : List (Option AccountId) :=
  match db.links.select fun key _ => key.1 = id with
  | [] => [none]
  | rows => rows.map fun row => some row.1.2

/-- The scope `actor` gets in the workspace of `owner` at `now`, with its grant. -/
def resolve (db : Db κ) (actor owner : UserId) (now : Time) : Option (DelegationId × OwnerScope) :=
  if actor = owner then none
  else
    (db.delegations.find? fun _ d =>
      db.isActive d.ownerId && db.isActive d.delegateId && d.ownerId = owner &&
        d.delegateId = actor && d.ended.isNone &&
        (d.expiresAt.isNone || d.expiresAt.any (now < ·))).map fun (id, row) =>
      let accountIds := (leftJoined db id).reduceOption.insertionSort (· ≤ ·)
      let accounts := if row.allAccounts then none else AccountLimit.only accountIds
      (id, { actor, owner, access := .delegated row.level accounts })

/-- Whether `delegate` holds a live grant on the workspace of `owner` at `now`, which reaches the
account if one is given. -/
def liveGrantCovers (db : Db κ) (owner delegate : UserId) (account : Option AccountId)
    (now : Time) : Bool :=
  db.delegations.exists? fun id d =>
    db.isActive d.ownerId && db.isActive d.delegateId && d.ownerId = owner &&
      d.delegateId = delegate && d.ended.isNone &&
      (d.expiresAt.isNone || d.expiresAt.any (now < ·)) &&
      (account.all fun a => d.allAccounts || (db.links.lookup (id, a)).isSome)

/-- The first `limit` of the grants that are not ended and expired at `now`, oldest expiry first,
less those another transaction has locked; they are ended as expired. -/
def takeExpired (db : Db κ) (now : Time) (limit : ℕ) (locked : DelegationId → Bool) :
    Db κ × List Delegation :=
  let oldest := fun (a b : DelegationId × DelegationRow) =>
    a.2.expiresAt.getD 0 < b.2.expiresAt.getD 0 ||
      a.2.expiresAt.getD 0 = b.2.expiresAt.getD 0 && a.1 ≤ b.1
  let rows := db.delegations.selectFirst
    (fun id d => !locked id && d.ended.isNone && d.expiresAt.any (· ≤ now)) oldest limit
  let expire := fun d : DelegationRow => { d with ended := some ⟨now, .expired, none⟩ }
  let db :=
    { db with
      delegations := db.delegations.updateWhere
        (fun k d => d.ended.isNone && (rows.map Prod.fst).contains k) expire }
  (db, rows.map fun (id, row) => db.delegation id (expire row))

/-- A grant with the display name and the status of its owner. -/
structure DelegationView where
  delegation : Delegation
  otherDisplayName : String
  otherStatus : UserStatus

/-- Every grant the delegate holds that has neither ended nor expired at `now`, newest first. -/
def listAllReceived (db : Db κ) (delegate : UserId) (now : Time) : List DelegationView :=
  let rows := db.delegations.select fun _ d =>
    d.delegateId = delegate && d.ended.isNone &&
      (d.expiresAt.isNone || d.expiresAt.any (now < ·))
  let views := rows.filterMap fun (id, row) =>
    (db.users.lookup row.ownerId).map fun owner =>
      (⟨db.delegation id row, owner.displayName, owner.status⟩ : DelegationView)
  let newest := fun a b : DelegationView =>
    b.delegation.createdAt < a.delegation.createdAt ∨
      b.delegation.createdAt = a.delegation.createdAt ∧ b.delegation.id ≤ a.delegation.id
  views.insertionSort newest

end DelegationRepo

/-! ## The service -/

/-- A new grant in the caller's workspace, with the accounts as asked for. -/
structure GrantRequest where
  delegateId : UserId
  level : Level
  accounts : Option (List AccountId)
  expiresAt : Option Time

/-- Changes to a grant, with the accounts as asked for. -/
structure ChangeRequest where
  level : Option Level := none
  accounts : Option (Option (List AccountId)) := none
  expiresAt : Option (Option Time) := none

/-- The limit of the accounts asked for. -/
def toLimit (accounts : Option (List AccountId)) : AccountLimit :=
  accounts.elim none AccountLimit.only

/-- A workspace a user can act in; under no grant in their own. -/
structure Workspace where
  ownerId : UserId
  ownerDisplayName : String
  access : Option (DelegationId × Level × AccountLimit)
  deriving DecidableEq

/-- A grant with both parties. -/
structure DelegationDetail where
  delegation : Delegation
  owner : UserRecord
  delegate : UserRecord

/-- The names a caller already read. -/
structure KnownNames where
  owner : Option String := none
  delegate : Option String := none

inductive Side
  | owner
  | delegate

namespace DelegationService

/-- Writes an audit event, unless a user it refers to is gone. -/
def record (db : Db κ) (event : AuditEvent) : Except DelegationError (Db κ) := do
  refuseIf ((event.actor.toList ++ [event.owner, event.subject]).any fun user =>
    (db.users.lookup user).isNone) (.data (.conflict "audit references a deleted user"))
  .ok { db with audit := db.audit ++ [event] }

/-- The event of the kind about the grant, with its state. -/
def withState (kind : AuditEventKind) (actor : Option UserId) (d : Delegation) : AuditEvent where
  kind := kind
  actor := actor
  owner := d.ownerId
  subject := d.delegateId
  delegationId := d.id
  details := .state d.state

/-- The name already read, or else the user's. -/
def partyName (db : Db κ) (known : Option String) (user : UserId) :
    Except DelegationError String :=
  match known.or ((db.users.lookup user).map (·.displayName)) with
  | some name => .ok name
  | none => .error .notFound

/-- Records a notice about the grant for one side, naming the other party. -/
def notify (db : Db κ) (d : Delegation) (event : DelegationEvent) (side : Side)
    (partyName : String) : Db κ :=
  let user := match side with
    | .owner => d.ownerId
    | .delegate => d.delegateId
  { db with notices := db.notices ++ [⟨user, d.ownerId, d.id, event, partyName⟩] }

/-- Tells both parties of an expired grant. -/
def notifyExpired (db : Db κ) (d : Delegation) (names : KnownNames) :
    Except DelegationError (Db κ) := do
  let owner ← partyName db names.owner d.ownerId
  let delegate ← partyName db names.delegate d.delegateId
  let db := notify db d .expired .delegate owner
  .ok (notify db d .expired .owner delegate)

/-- The notices about an ended grant. -/
def notifyEnded (db : Db κ) (d : Delegation) (names : KnownNames) :
    EndedReason → Except DelegationError (Db κ)
  | .revoked => do
    let name ← partyName db names.owner d.ownerId
    .ok (notify db d .revoked .delegate name)
  | .left => do
    let name ← partyName db names.delegate d.delegateId
    .ok (notify db d .left .owner name)
  | .expired => notifyExpired db d names

/-- Ends the grant and records the matching event and notices. -/
def end_ (db : Db κ) (d : Delegation) (reason : EndedReason) (actor : Option UserId) (now : Time)
    (names : KnownNames) : Except DelegationError (Db κ) := do
  let revokedBy := match reason with
    | .revoked => actor
    | .left | .expired => none
  let db := DelegationRepo.end_ db d.id reason revokedBy now
  let db ← record db (withState reason.kind actor d)
  notifyEnded db d names reason

/-- Ends a locked grant for the reason on behalf of `actor`: nothing for an ended grant, `expired`
with no actor for one past its expiry. -/
def finish (db : Db κ) (d : Delegation) (reason : EndedReason) (actor : UserId) (now : Time) :
    Except DelegationError (Db κ) :=
  if d.ended.isSome then .ok db
  else if d.isLive now then end_ db d reason (some actor) now {}
  else end_ db d .expired none now {}

/-- Ends the pair's grant as expired, or refuses when it is live. -/
def makeRoom (db : Db κ) (existing : Option Delegation) (now : Time) (names : KnownNames) :
    Except DelegationError (Db κ) :=
  match existing with
  | none => .ok db
  | some d => if d.isLive now then .error .alreadyExists else end_ db d .expired none now names

/-- The user, when there is one and the condition holds of them. -/
def require (db : Db κ) (user : UserId) (p : UserRecord → Bool) (error : DelegationError) :
    Except DelegationError UserRecord :=
  match (db.users.lookup user).filter p with
  | some record => .ok record
  | none => .error error

/-- Grants a user access to the scope owner's workspace, under the new ID. -/
def grant (db : Db κ) (now createdAt : Time) (scope : OwnerScope) (id : DelegationId)
    (req : GrantRequest) : Except DelegationError (Db κ × DelegationDetail) := do
  repo (requireOwner scope)
  refuseIf (req.delegateId = scope.owner) (.invalid "delegate_id")
  refuseIf (req.expiresAt.any (· ≤ now)) (.invalid "expires_at")
  let delegate ← require db req.delegateId (·.status = .active) (.invalid "delegate_id")
  let owner ← require db scope.owner (fun _ => true) .notFound
  let existing ← repo (DelegationRepo.lockLiveForPair db scope req.delegateId)
  let db ← makeRoom db existing now
    { owner := some owner.displayName, delegate := some delegate.displayName }
  let (db, delegation) ← repo (DelegationRepo.insert db scope
    { id
      delegateId := req.delegateId
      level := req.level
      accounts := toLimit req.accounts
      expiresAt := req.expiresAt } createdAt)
  let db ← record db (withState .delegationGranted (some scope.actor) delegation)
  .ok (notify db delegation .granted .delegate owner.displayName, ⟨delegation, owner, delegate⟩)

/-- The grant with both parties. -/
def detail (db : Db κ) (d : Delegation) : Except DelegationError DelegationDetail := do
  let owner ← require db d.ownerId (fun _ => true) .notFound
  let delegate ← require db d.delegateId (fun _ => true) .notFound
  .ok ⟨d, owner, delegate⟩

/-- Writes the change of a live grant, with its event and notice. -/
def applyChange (db : Db κ) (scope : OwnerScope) (before : Delegation) (req : ChangeRequest) :
    Except DelegationError (Db κ × DelegationDetail) := do
  let (db, after) ← repo (DelegationRepo.update db scope before.id
    { level := req.level
      accounts := req.accounts.map toLimit
      expiresAt := req.expiresAt })
  let db ← record db
    { kind := .delegationChanged
      actor := some scope.actor
      owner := after.ownerId
      subject := after.delegateId
      delegationId := after.id
      details := .changed before.state after.state }
  let detail ← detail db after
  .ok (notify db after .changed .delegate detail.owner.displayName, detail)

/-- Changes one of the scope owner's live grants; a request that changes nothing writes nothing. -/
def change (db : Db κ) (now : Time) (scope : OwnerScope) (id : DelegationId)
    (req : ChangeRequest) : Except DelegationError (Db κ × DelegationDetail) := do
  repo (requireOwner scope)
  let before ← repo (DelegationRepo.lock db scope id)
  refuseIf (!before.isLive now) .notFound
  refuseIf (req.expiresAt.join.any (· ≤ now)) (.invalid "expires_at")
  if req.level.isNone && req.accounts.isNone && req.expiresAt.isNone then
    (detail db before).map fun detail => (db, detail)
  else applyChange db scope before req

/-- Revokes one of the scope owner's grants. -/
def revoke (db : Db κ) (now : Time) (scope : OwnerScope) (id : DelegationId) :
    Except DelegationError (Db κ) := do
  repo (requireOwner scope)
  let delegation ← repo (DelegationRepo.lock db scope id)
  finish db delegation .revoked scope.actor now

/-- The delegate leaves a grant they hold. -/
def leave (db : Db κ) (now : Time) (delegate : UserId) (id : DelegationId) :
    Except DelegationError (Db κ) := do
  let delegation ← repo (DelegationRepo.lockReceived db delegate id)
  finish db delegation .left delegate now

/-- The workspaces the user can act in: their own first, then each received grant that has not
ended or expired and whose owner is active, newest grant first. -/
def workspaces (db : Db κ) (user : UserId) (now : Time) :
    Except DelegationError (List Workspace) := do
  let own ← require db user (fun _ => true) .notFound
  let received := (DelegationRepo.listAllReceived db user now).filter fun v =>
    v.otherStatus = .active && v.delegation.isLive now
  .ok (⟨user, own.displayName, none⟩ :: received.map fun v =>
    { ownerId := v.delegation.ownerId
      ownerDisplayName := v.otherDisplayName
      access := some (v.delegation.id, v.delegation.level, v.delegation.accounts) })

/-- How many expired grants the job ends in one transaction. -/
def expiryBatch : ℕ := 200

/-- Records the event and the notices of a grant the job ended. -/
def reportExpired (db : Db κ) (d : Delegation) : Except DelegationError (Db κ) := do
  let db ← record db (withState .delegationExpired none d)
  notifyExpired db d {}

/-- One batch of the expiry job, and how many grants it ended.  The job goes on while a batch is
full. -/
def expireDelegations (db : Db κ) (now : Time) (locked : DelegationId → Bool) :
    Except DelegationError (Db κ × ℕ) := do
  let (db, batch) := DelegationRepo.takeExpired db now expiryBatch locked
  let db ← batch.foldlM reportExpired db
  .ok (db, batch.length)

end DelegationService

/-- Disconnects an account, which also leaves the limits of its owner's grants; the grants live at
`now` that it leaves with none, each with its delegate. -/
def AccountRepo.disconnect (db : Db κ) (scope : OwnerScope) (account : AccountId) (now : Time) :
    Except DataError (Db κ × List (DelegationId × UserId)) := do
  requireOwner scope
  let accounts ← (Accounts.AccountRepo.disconnect db.accounts scope.owner account).mapError
    fun _ => .notFound
  let gone := fun (key : DelegationId × AccountId) owner => owner = scope.owner && key.2 = account
  let touched := (db.links.select gone).map (·.1.1)
  let db := { db with accounts, links := db.links.deleteWhere gone }
  let emptied := db.delegations.select fun id d =>
    d.ownerId = scope.owner && touched.contains id && !d.allAccounts && d.ended.isNone &&
      (d.expiresAt.isNone || d.expiresAt.any (now < ·)) && (db.linkedAccounts id).isEmpty
  .ok (db, (emptied.map fun (id, d) => (id, d.delegateId)).insertionSort fun a b => a.1 ≤ b.1)

/-! ## Steps -/

/-- What happens: an operation, by the reading of the clock it is given. -/
inductive Action (κ : Type)
  | grant (now createdAt : Time) (scope : OwnerScope) (id : DelegationId) (req : GrantRequest)
  | change (now : Time) (scope : OwnerScope) (id : DelegationId) (req : ChangeRequest)
  | revoke (now : Time) (scope : OwnerScope) (id : DelegationId)
  | leave (now : Time) (delegate : UserId) (id : DelegationId)
  | disconnect (now : Time) (scope : OwnerScope) (account : AccountId)
  /-- a batch of the expiry job, which skips the locked grants -/
  | expire (now : Time) (locked : DelegationId → Bool)
  /-- users and accounts change elsewhere -/
  | elsewhere (now : Time) (users : Table UserId UserRecord) (accounts : Accounts.Db κ)

/-- The reading of the clock the operation works by. -/
def Action.now : Action κ → Time
  | .grant now .. | .change now .. | .revoke now .. | .leave now .. | .disconnect now ..
  | .expire now .. | .elsewhere now .. => now

/-- What an operation makes of the tables. -/
def Db.perform (db : Db κ) : Action κ → Except DelegationError (Db κ)
  | .grant now createdAt scope id req =>
    (DelegationService.grant db now createdAt scope id req).map Prod.fst
  | .change now scope id req => (DelegationService.change db now scope id req).map Prod.fst
  | .revoke now scope id => DelegationService.revoke db now scope id
  | .leave now delegate id => DelegationService.leave db now delegate id
  | .disconnect now scope account =>
    repo ((AccountRepo.disconnect db scope account now).map Prod.fst)
  | .expire now locked => (DelegationService.expireDelegations db now locked).map Prod.fst
  | .elsewhere _ users accounts => .ok { db with users, accounts }

/-- The tables and the clock. -/
structure World (κ : Type) where
  db : Db κ
  clock : Time

inductive Event (κ : Type)
  | tick (time : Time)
  | act (action : Action κ)

/-- One step.  The clock does not go back, and an operation works by a reading of it that may be
an earlier one, as it is made before the operation waits for its grant; what is elsewhere keeps the
constraints. -/
inductive World.Step : World κ → Event κ → World κ → Prop
  | tick {s : World κ} {time : Time} (h : s.clock ≤ time) :
    Step s (.tick time) { s with clock := time }
  | act {s : World κ} {a : Action κ} {db : Db κ} (hnow : a.now ≤ s.clock)
      (hdb : s.db.perform a = .ok db)
      (helsewhere : ∀ now users accounts, a = .elsewhere now users accounts → db.Constraints) :
    Step s (.act a) { s with db }

end Postit.Delegations
