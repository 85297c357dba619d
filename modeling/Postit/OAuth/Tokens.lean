import Postit.Core.Json
import Postit.Framework.Durations

/-!
# Token responses

What the engine makes of the object a provider answers a token request with.  A duration out of
chrono's range is a panic, so reading a response has an outcome beside its result: `none` is the
panic.
-/

namespace Postit.OAuth

open Postit.Framework

/-- Why a token request failed. -/
inductive TokenError
  | invalidGrant
  | invalidClient
  | provider (code : String)
  | transport
  deriving DecidableEq, Repr

/-- What of a provider's spec a response is read with.  A lifetime is in nanoseconds. -/
structure OAuthProviderSpec where
  scopeSeparator : String := " "
  defaultAccessTtl : Option ℕ := none

structure OAuthTokens where
  accessToken : String
  refreshToken : Option String
  expiresAt : Option Instant
  scopes : List String

/-- A finished code exchange, as the engine parsed it. -/
structure TokenExchange where
  tokens : OAuthTokens
  raw : Members

section Response

variable (spec : OAuthProviderSpec) (map : Members) (now : Instant)

/-- A member that is a string and not empty. -/
def string (name : String) : Option String :=
  (Members.get? map name).bind fun
    | .string value => if value = "" then none else some value
    | _ => none

/-- `expires_in` as a number or a numeric string. -/
def expiresIn : Option ℕ :=
  (Members.get? map "expires_in").bind fun
    | .number (.posInt n) => some n
    | .string text => parseU64 (trim text)
    | _ => none

/-- The scopes in a text. -/
def splitScopes (text : String) : List String :=
  ((text.splitOn " ").flatMap fun part =>
    if spec.scopeSeparator = "" ∨ spec.scopeSeparator = " " then [part]
    else part.splitOn spec.scopeSeparator).filter (· ≠ "")

/-- The granted scopes: a string split on spaces or the spec's separator, or a list. -/
def scopes : Option Json → List String
  | some (.string text) => splitScopes spec text
  | some (.array items) => items.flatMap fun
    | .string text => splitScopes spec text
    | _ => []
  | _ => []

/-- The lifetime the response states, when it has one of 64 bits. -/
def statedTtl : Option (Option TimeDelta) :=
  match expiresIn map with
  | some seconds =>
    if (seconds : ℤ) ≤ maxI64 then (TimeDelta.seconds seconds).map some else some none
  | none => some none

/-- When the access token expires: from the lifetime stated, or from the spec's. -/
def expiresAt : Option (Option Instant) :=
  (statedTtl map).map fun stated =>
    (stated.or (spec.defaultAccessTtl.bind TimeDelta.fromStd)).bind now.checkedAddSigned

/-- Parses a successful token response. -/
def parseTokens : Option (Except TokenError TokenExchange) :=
  match string map "access_token" with
  | none => some (.error (.provider "invalid_response"))
  | some accessToken =>
    (expiresAt spec map now).map fun expiresAt =>
      .ok
        { tokens :=
            { accessToken
              refreshToken := string map "refresh_token"
              expiresAt
              scopes := scopes spec (Members.get? map "scope") }
          raw := map }

end Response

end Postit.OAuth
