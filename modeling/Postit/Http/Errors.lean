import Postit.Framework.Bytes
import Postit.Framework.Durations

/-!
# HTTP failures

A failed send or an answer that is no success, classified for the decision whether to retry.  What
the client library knows of a failed send, the text it is shown by once redacted, and the parser of
dates are outside.
-/

namespace Postit.Http

open Postit.Framework

/-! ## Headers -/

/-- The headers of an answer: names in lower case, each with a value. -/
abbrev HeaderMap := List (String × Bytes)

/-- The first value of a header. -/
def HeaderMap.get (map : HeaderMap) (name : String) : Option Bytes :=
  (map.find? fun entry => entry.1 = name).map Prod.snd

/-- `HeaderValue::to_str`: a value of visible ASCII characters, spaces and tabs. -/
def headerText (value : Bytes) : Option String :=
  if value.all fun b => (32 ≤ b && b < 127) || b == 9 then
    some (String.ofList (value.map fun b => Char.ofNat b.toNat))
  else none

/-- The text of the first value of a header, without white space around it. -/
def HeaderMap.text (map : HeaderMap) (name : String) : Option String :=
  (map.get name).bind fun value => (headerText value).map trim

/-! ## Failures -/

/-- A `reqwest::Error`, by what is asked of it. -/
structure TransportError where
  /-- The host in the marker the address policy left in its chain of sources, if any. -/
  rejectedHost : Option String := none
  isBuilder : Bool := false
  isRedirect : Bool := false
  isRequest : Bool := false
  isConnect : Bool := false
  isBody : Bool := false
  isTimeout : Bool := false
  status : Option ℕ := none
  /-- Its redacted text. -/
  text : String
  deriving DecidableEq

/-- A failure or an answer that is no success, classified for retry decisions. -/
inductive HttpError
  | transient (text : String)
  | rateLimited (retryAfter : Option Duration)
  | permanent (text : String)
  | outcomeUnknown (text : String)
  | addressRejected (host : String)
  | status (status : ℕ) (retryAfter : Option Duration) (bodyExcerpt : Option String)
  deriving DecidableEq

/-- Whether retrying the request could succeed. -/
def HttpError.isRetryable : HttpError → Bool
  | .transient _ | .rateLimited _ => true
  | .status code _ _ => code = 429 || 500 ≤ code
  | .permanent _ | .outcomeUnknown _ | .addressRejected _ => false

/-- `From<reqwest::Error>` -/
def HttpError.ofTransport (err : TransportError) : HttpError :=
  match err.rejectedHost with
  | some host => .addressRejected host
  | none =>
    if err.isTimeout || err.isConnect then .transient err.text
    else if err.status = some 429 then .rateLimited none
    else if err.status.any fun status => 500 ≤ status && status < 600 then .transient err.text
    else .permanent err.text

/-- An answer: its status, its headers, and the redacted excerpt that reading its body gives. -/
structure Response where
  status : ℕ
  headers : HeaderMap := []
  bodyExcerpt : Option String := none
  deriving DecidableEq

def Response.isSuccess (response : Response) : Bool :=
  200 ≤ response.status && response.status < 300

def Response.isRedirection (response : Response) : Bool :=
  300 ≤ response.status && response.status < 400

section Dates

variable (parseFromRfc2822 : String → Option Instant)

/-- A `Retry-After` header, either seconds or a date, relative to `now`.  A date in the past gives
zero. -/
def retryAfterAt (headers : HeaderMap) (now : Instant) : Option Duration :=
  (headers.text "retry-after").bind fun value =>
    match parseU64 value with
    | some seconds => some (.fromSecs seconds)
    | none =>
      (parseFromRfc2822 value).map fun date =>
        (Duration.ofTimeDelta (date.signedDurationSince now)).getD .zero

/-- The error of an answer that is no success. -/
def statusError (response : Response) (now : Instant) : HttpError :=
  .status response.status (retryAfterAt parseFromRfc2822 response.headers now) response.bodyExcerpt

end Dates

end Postit.Http
