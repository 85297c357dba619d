import Postit.Accounts.Grants
import Postit.Framework.Bytes

/-!
# Refreshing a grant's tokens

The calls at work on one OAuth grant.  A refresh and a `store_refreshed` hold the grant's lock from
their read to their write, and a refresh sends its request to the provider in between; everything
else takes no lock, so it may change the tables meanwhile.  A call that is dropped gives the lock
back.

A sealed credential is what it opens to, if it does.  The clock counts nanoseconds, from the
database's epoch; the database keeps microseconds.  The provider issues no access token twice, and
tokens an agent stores are newly issued.
-/

namespace Postit.Accounts

open Postit.Data (UserId)
open Postit.Framework

/-- An instant, in nanoseconds. -/
abbrev Nanos := Int

/-- What the database keeps of an instant. -/
def Nanos.toDb (t : Nanos) : Time := t.tdiv 1000

/-- The instant the database keeps. -/
def Nanos.ofDb (t : Time) : Nanos := t * 1000

/-- A token, by its bytes. -/
abbrev Secret := Bytes

/-- What is sealed in an OAuth grant's credential. -/
structure OAuthGrantCredential where
  accessToken : Secret
  refreshToken : Option Secret
  deriving DecidableEq

/-- A sealed credential, by what it opens to. -/
abbrev Sealed := Option OAuthGrantCredential

structure OAuthTokens where
  accessToken : Secret
  refreshToken : Option Secret
  expiresAt : Option Nanos
  deriving DecidableEq

/-- How long before its access token expires a grant is refreshed by the cron. -/
def refreshWindow : Nanos := 15 * 60 * 1000000000

/-- What tells two sets of tokens apart. -/
def fingerprint (sha256 : Bytes → Bytes) (tokens : OAuthTokens) : Option Nanos × Bytes :=
  (tokens.expiresAt, sha256 tokens.accessToken)

/-- An OAuth grant's tokens: the sealed credential opened, with the expiry of its row. -/
def openOauthGrant (grant : Grant Sealed) : Option OAuthTokens :=
  match grant.credential with
  | some (some opened) =>
    some
      { accessToken := opened.accessToken
        refreshToken := opened.refreshToken
        expiresAt := grant.expiresAt.map Nanos.ofDb }
  | some none | none => none

/-- Stores the tokens in the grant. -/
def writeGrantTokens (db : Db Sealed) (id : GrantId) (tokens : OAuthTokens) :
    Except DataError (Db Sealed) :=
  GrantRepo.storeTokens db id
    (some { accessToken := tokens.accessToken, refreshToken := tokens.refreshToken })
    (tokens.expiresAt.map Nanos.toDb)

/-- What the provider answers to a token request. -/
inductive Reply
  /-- new tokens, with their lifetime in seconds if it is known -/
  | tokens (accessToken : Secret) (refreshToken : Option Secret) (expiresIn : Option ℕ)
  | invalidGrant
  | otherError

/-- A call, by what it does next or what it came to. -/
inductive Call
  /-- a refresh that waits for the lock -/
  | waiting (owner : Option UserId) (stale : Option OAuthTokens)
  /-- a refresh that has sent its request -/
  | asking (stale : Option OAuthTokens) (current : OAuthTokens) (refreshToken : Secret)
      (now : Nanos)
  /-- a `store_refreshed` with what it stores -/
  | storing (tokens : OAuthTokens)
  | refreshed (stale : Option OAuthTokens) (fresh : OAuthTokens)
  /-- a call that returned what is stored -/
  | returned (current : OAuthTokens)
  | stored
  | failed
  deriving DecidableEq

/-- The tables, who holds the grant's lock, the calls, the access tokens issued so far, and the
tokens that calls got. -/
structure Refreshing where
  db : Db Sealed
  holder : Option ℕ := none
  calls : List Call := []
  issued : List Secret := []
  got : List OAuthTokens := []

inductive RefreshAction
  /-- whatever else happens to grants and accounts -/
  | elsewhere (action : Action Sealed)
  | credentials (owner : UserId) (now : Nanos)
  | refresh (owner : Option UserId) (stale : Option OAuthTokens)
  | lockForRefresh (i : ℕ) (now : Nanos) (resolves : Bool)
  | answer (i : ℕ) (reply : Reply)
  | storeRefreshed (owner : UserId) (tokens : OAuthTokens)
  | store (i : ℕ)
  | drop (i : ℕ)

namespace Refreshing

/-- A call starts. -/
def spawn (s : Refreshing) (call : Call) : Refreshing := { s with calls := s.calls ++ [call] }

/-- A call goes on to what it does next. -/
def become (s : Refreshing) (i : ℕ) (call : Call) : Refreshing :=
  { s with calls := s.calls.set i call }

/-- A call gets these tokens. -/
def give (s : Refreshing) (tokens : OAuthTokens) : Refreshing :=
  { s with got := tokens :: s.got }

/-- An active OAuth grant of the owner, if one is given, whose credential opens. -/
def usable (db : Db Sealed) (id : GrantId) (owner : Option UserId) : Option OAuthTokens :=
  match db.grants.lookup id with
  | none => none
  | some grant =>
    if owner.any (· ≠ grant.ownerId) ∨ grant.kind ≠ .oauth ∨ grant.status ≠ .active then none
    else openOauthGrant grant

/-- Whether a refresh returns what is stored: another caller refreshed, or the cron finds the
grant not about to expire. -/
def settled (sha256 : Bytes → Bytes) (stale : Option OAuthTokens) (current : OAuthTokens)
    (now : Nanos) : Bool :=
  match stale with
  | some stale => fingerprint sha256 stale ≠ fingerprint sha256 current
  | none => current.expiresAt.all (now + refreshWindow ≤ ·)

/-- A refresh that has the lock. -/
def refreshGrantOf (sha256 : Bytes → Bytes) (s : Refreshing) (id : GrantId) (i : ℕ)
    (owner : Option UserId) (stale : Option OAuthTokens) (now : Nanos) (resolves : Bool) :
    Refreshing :=
  match usable s.db id owner with
  | none => s.become i .failed
  | some current =>
    if settled sha256 stale current now then (s.give current).become i (.returned current)
    else
      match current.refreshToken with
      | none =>
        if current.expiresAt.all (now < ·) then (s.give current).become i (.returned current)
        else { s with db := GrantRepo.markNeedsReconnect s.db id }.become i .failed
      | some refreshToken =>
        if resolves then
          { s with holder := some i }.become i (.asking stale current refreshToken now)
        else s.become i .failed

/-- The refreshed tokens: a provider that does not rotate sends no refresh token, and the old one
stays valid. -/
def fresh (accessToken : Secret) (newToken : Option Secret) (expiresIn : Option ℕ)
    (oldToken : Secret) (now : Nanos) : OAuthTokens where
  accessToken := accessToken
  refreshToken := newToken.or (some oldToken)
  expiresAt := expiresIn.map fun seconds => now + seconds * 1000000000

/-- What an action makes of the calls and the tables, when it can happen. -/
def perform (sha256 : Bytes → Bytes) (id : GrantId) (s : Refreshing) :
    RefreshAction → Option Refreshing
  | .elsewhere action => (s.db.perform action).toOption.map fun db => { s with db }
  | .credentials owner now =>
    match usable s.db id (some owner) with
    | none => some (s.spawn .failed)
    | some tokens =>
      if tokens.expiresAt.any (· ≤ now) then
        some ((s.give tokens).spawn (.waiting (some owner) (some tokens)))
      else some ((s.give tokens).spawn (.returned tokens))
  | .refresh owner stale => some (s.spawn (.waiting owner stale))
  | .lockForRefresh i now resolves =>
    match s.calls[i]?, s.holder with
    | some (.waiting owner stale), none =>
      some (s.refreshGrantOf sha256 id i owner stale now resolves)
    | _, _ => none
  | .answer i reply =>
    match s.calls[i]? with
    | some (.asking stale _ refreshToken now) =>
      let s := { s with holder := none }
      match reply with
      | .tokens accessToken newToken expiresIn =>
        let s := { s with issued := accessToken :: s.issued }
        let tokens := fresh accessToken newToken expiresIn refreshToken now
        match writeGrantTokens s.db id tokens with
        | .ok db => some (({ s with db }.give tokens).become i (.refreshed stale tokens))
        | .error _ => some (s.become i .failed)
      | .invalidGrant =>
        some ({ s with db := GrantRepo.markNeedsReconnect s.db id }.become i .failed)
      | .otherError => some (s.become i .failed)
    | _ => none
  | .storeRefreshed owner tokens =>
    match s.holder with
    | none =>
      match usable s.db id (some owner) with
      | none => some (s.spawn .failed)
      | some current =>
        some ({ s with holder := some s.calls.length }.spawn (.storing
          { tokens with refreshToken := tokens.refreshToken.or current.refreshToken }))
    | some _ => none
  | .store i =>
    match s.calls[i]? with
    | some (.storing tokens) =>
      let s := { s with holder := none, issued := tokens.accessToken :: s.issued }
      match writeGrantTokens s.db id tokens with
      | .ok db => some ({ s with db }.become i .stored)
      | .error _ => some (s.become i .failed)
    | _ => none
  | .drop i =>
    match s.calls[i]? with
    | some (.waiting _ _) => some (s.become i .failed)
    | some (.asking _ _ _ _) | some (.storing _) =>
      some ({ s with holder := none }.become i .failed)
    | _ => none

/-- What an action may be: calls are given tokens that others got, nobody but the calls writes
the grant's tokens, and what is issued is new. -/
def Allowed (id : GrantId) (s : Refreshing) : RefreshAction → Prop
  | .elsewhere action => ∀ credential expiresAt, action ≠ .refreshed id credential expiresAt
  | .refresh _ stale => ∀ tokens, stale = some tokens → tokens ∈ s.got
  | .answer _ (.tokens accessToken _ _) => accessToken ∉ s.issued
  | .store i => ∀ tokens, s.calls[i]? = some (.storing tokens) → tokens.accessToken ∉ s.issued
  | _ => True

/-- One step of the calls at work on the grant. -/
def Step (sha256 : Bytes → Bytes) (id : GrantId) (s : Refreshing) (a : RefreshAction)
    (t : Refreshing) : Prop :=
  s.Allowed id a ∧ s.perform sha256 id a = some t

end Refreshing

end Postit.Accounts
