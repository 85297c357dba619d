import Mathlib.Data.Option.Basic
import Postit.Data.Schema
import Postit.Framework.Bytes

/-!
# OAuth states

The row of one authorization: the `state` the browser is sent away with, and later the pending
result its callback stored.  Each statement is given the row as it finds it, which may be none,
and is atomic.  What is sealed in the row is taken as it is, `τ` being the type of token sets;
whether it opens is asked where it is read.
-/

namespace Postit.OAuth

open Postit.Data (UserId PlatformId)
open Postit.Framework

/-- A row of `oauth_states`. -/
structure OAuthState (τ : Type) where
  user : UserId
  platform : PlatformId
  expiresAt : Time
  consumedAt : Option Time := none
  connectIdHash : Option Bytes := none
  grantTokens : Option τ := none
  discovered : Option (List String) := none
  remoteUserId : Option String := none

namespace OAuthStateRepo

variable {τ : Type}

/-- Marks the state consumed and returns it, once.  An expired state is still returned. -/
def consumeState (row : Option (OAuthState τ)) (now : Time) : Option (OAuthState τ) :=
  match row with
  | none => none
  | some r => if r.consumedAt.isNone then some { r with consumedAt := some now } else none

/-- Moves the expiry to `until_` unless it is already later. -/
def extendExpiry (row : Option (OAuthState τ)) (until_ : Time) : Option (OAuthState τ) :=
  row.map fun r => { r with expiresAt := max r.expiresAt until_ }

/-- Stores the pending result of a successful callback. -/
def storeResult (row : Option (OAuthState τ)) (connectIdHash : Bytes) (grantTokens : τ)
    (discovered : List String) (remoteUserId : Option String) : Option (OAuthState τ) :=
  row.map fun r =>
    { r with
      connectIdHash := some connectIdHash
      grantTokens := some grantTokens
      discovered := some discovered
      remoteUserId }

/-- Stores the tokens of an exchange whose callback then failed, already discarded. -/
def storeDiscarded (row : Option (OAuthState τ)) (grantTokens : τ)
    (remoteUserId : Option String) (now : Time) : Option (OAuthState τ) :=
  row.map fun r =>
    { r with
      connectIdHash := none
      grantTokens := some grantTokens
      remoteUserId
      expiresAt := now }

/-- The pending result with this `connect_id` hash, whoever started it and whether or not it has
expired. -/
def findResult (row : Option (OAuthState τ)) (connectIdHash : Bytes) : Option (OAuthState τ) :=
  row.filter fun r => r.connectIdHash == some connectIdHash

/-- Discards a pending result, with its tokens kept for the purge to revoke. -/
def discard (row : Option (OAuthState τ)) (now : Time) : Option (OAuthState τ) :=
  row.map fun r => { r with connectIdHash := none, expiresAt := min r.expiresAt now }

/-- Discards a result of the provider's user that can still be confirmed. -/
def discardResultsOfRemoteUser (row : Option (OAuthState τ)) (platform : PlatformId)
    (remoteUserId : String) (now : Time) : Option (OAuthState τ) :=
  row.map fun r =>
    if r.platform = platform ∧ r.remoteUserId = some remoteUserId ∧ r.grantTokens.isSome ∧
        r.connectIdHash.isSome then
      { r with connectIdHash := none, expiresAt := min r.expiresAt now }
    else r

/-- The expired row with tokens that is deleted and returned. -/
def takeExpiredResult (row : Option (OAuthState τ)) (now : Time) : Option (OAuthState τ) :=
  row.filter fun r => decide (r.expiresAt ≤ now) && r.grantTokens.isSome

/-- The row with tokens of the user that is deleted and returned. -/
def takeResultsOf (row : Option (OAuthState τ)) (user : UserId) : Option (OAuthState τ) :=
  row.filter fun r => decide (r.user = user) && r.grantTokens.isSome

/-- What is left of the row when the user's states that no callback has consumed are deleted. -/
def deleteUnconsumedOf (row : Option (OAuthState τ)) (user : UserId) : Option (OAuthState τ) :=
  row.filter fun r => !(decide (r.user = user) && r.consumedAt.isNone && r.grantTokens.isNone)

/-- What is left of the row when the expired states without tokens are deleted. -/
def purgeExpired (row : Option (OAuthState τ)) (now : Time) : Option (OAuthState τ) :=
  row.filter fun r => !(decide (r.expiresAt ≤ now) && r.grantTokens.isNone)

end OAuthStateRepo

end Postit.OAuth
