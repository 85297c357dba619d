import Postit.Http.Errors
import Postit.Http.Policy

/-!
# Retries inside one outbound call

Full-jitter exponential backoff, a sleep budget and the reset headers of a server, with the rules
that keep a non-idempotent request from being sent twice when it may already have taken effect.

The answers of the server, the clock and the random source are outside: an `Attempt` holds what the
attempt of its number meets, and an `Rng` draws a number from a range.
-/

namespace Postit.Http

open Postit.Framework

/-- Whether sending a request twice is safe. -/
inductive Idempotency
  | idempotent
  | nonIdempotent
  deriving DecidableEq, Repr

/-- How hard one call retries. -/
structure RetryPolicy where
  /-- Total attempts, the first one included. -/
  maxAttempts : UInt32
  /-- The backoff ceiling for the first retry; doubles per attempt. -/
  baseDelay : Duration
  /-- The largest backoff ceiling. -/
  maxDelay : Duration
  /-- The longest server-requested wait honored in place. -/
  maxRetryAfter : Duration
  /-- The cap on total time spent sleeping between attempts of one call. -/
  budget : Duration
  deriving DecidableEq

/-- One place a server can say when to try again. -/
inductive ResetHeader
  | retryAfter
  | deltaSeconds (name : String)
  | epochSeconds (name : String)
  | epochMillis (name : String)
  deriving DecidableEq, Repr

/-- The reset headers of a platform; the first one present with a parsable value wins. -/
abbrev RateLimitHeaders := List ResetHeader

/-! ## Jitter -/

/-- A random source: a pick in `0..=n`, and the source after it. -/
structure Rng (σ : Type) where
  randomRange : (n : ℕ) → σ → Fin (n + 1) × σ

section Jitter

variable {σ : Type} (rng : Rng σ)

/-- Full-jitter backoff for the retry after `attempt`: a pick in
`0..=min(max_delay, base_delay * 2^(attempt - 1))`. -/
def backoff (jitter : σ) (attempt : ℕ) (policy : RetryPolicy) : Duration × σ :=
  let exponent := min (attempt - 1) 31
  let ceiling := min (policy.baseDelay.saturatingMul (2 ^ exponent)).nanos policy.maxDelay.nanos
  let pick := rng.randomRange (min ceiling (UInt64.size - 1)) jitter
  (.fromNanos pick.1, pick.2)

/-- `base` plus a random extra of less than 10%. -/
def spread (jitter : σ) (base : Duration) : Duration × σ :=
  let tenth := min (base.nanos / 10) (UInt64.size - 1)
  if tenth = 0 then (base, jitter)
  else
    let pick := rng.randomRange (tenth - 1) jitter
    (base.saturatingAdd (.fromNanos pick.1), pick.2)

end Jitter

/-! ## Reset headers -/

def headerU64 (map : HeaderMap) (name : String) : Option ℕ := (map.text name).bind parseU64

/-- Time from `now` until an epoch-milliseconds instant; zero when it has passed. -/
def untilEpochMillis (epochMillis : ℕ) (now : Instant) : Duration :=
  .fromMillis (epochMillis - (now.nanos / 10 ^ 6).toNat)

section Dates

variable (parseFromRfc2822 : String → Option Instant)

/-- The wait named by a reset header, if it is present and parsable. -/
def ResetHeader.delay (map : HeaderMap) (now : Instant) : ResetHeader → Option Duration
  | .retryAfter => retryAfterAt parseFromRfc2822 map now
  | .deltaSeconds name => (headerU64 map name).map .fromSecs
  | .epochSeconds name =>
    (headerU64 map name).map fun secs => untilEpochMillis (min (secs * 1000) (UInt64.size - 1)) now
  | .epochMillis name => (headerU64 map name).map fun millis => untilEpochMillis millis now

/-- The wait named by the first configured reset header that is present and parsable. -/
def resetDelay (headers : RateLimitHeaders) (map : HeaderMap) (now : Instant) : Option Duration :=
  headers.findSome? (ResetHeader.delay parseFromRfc2822 map now)

end Dates

/-- `error` with its `retry_after` set from the platform's reset header, when one was parsed. -/
def withReset : HttpError → Option Duration → HttpError
  | .status code _ excerpt, some wait => .status code (some wait) excerpt
  | error, _ => error

/-! ## Requests -/

/-- The host of a URL: an address, with the text it is shown by, or a name. -/
inductive Host
  | ip (ip : IpAddr) (text : String)
  | domain (name : String)
  deriving DecidableEq

/-- A request, by the host it goes to. -/
structure Request where
  host : Option Host
  deriving DecidableEq

/-- The client to send with. -/
inductive ClientRef
  | trusted
  | publicHosts (policy : AddressPolicy)
  deriving DecidableEq, Repr

/-- Refuses a request whose host is an address that `policy` forbids. -/
def checkLiteral (request : Request) (policy : AddressPolicy) : Except HttpError Unit :=
  match request.host with
  | some (.ip ip text) => if isAllowed ip policy then .ok () else .error (.addressRejected text)
  | some (.domain _) | none => .ok ()

def ClientRef.checked (client : ClientRef) (request : Request) : Except HttpError Unit :=
  match client with
  | .trusted => .ok ()
  | .publicHosts policy => checkLiteral request policy

/-- A set of named token buckets.  How long a permit takes is outside. -/
structure RateLimiters where
  buckets : List String
  deriving DecidableEq, Repr

/-- Waits until the bucket admits a request. -/
def RateLimiters.acquire (limiters : RateLimiters) (bucket : String) : Except HttpError Unit :=
  if bucket ∈ limiters.buckets then .ok ()
  else .error (.permanent ("unknown rate-limit bucket " ++ bucket))

/-- What `sendWithRetry` needs besides the request builder and the jitter source. -/
structure RetryRequest where
  client : ClientRef
  policy : RetryPolicy
  idempotency : Idempotency
  headers : RateLimitHeaders
  limiter : Option (RateLimiters × String)
  deriving DecidableEq

/-- What an attempt meets: what the request builder gives, what sending that brings, and the time at
which an answer is looked at. -/
structure Attempt where
  make : Except HttpError Request
  answer : Except TransportError Response
  now : Instant

/-- Waits for a permit, when there is a limiter. -/
def RetryRequest.permit (req : RetryRequest) : Except HttpError Unit :=
  match req.limiter with
  | some (limiters, bucket) => limiters.acquire bucket
  | none => .ok ()

/-- What stands before the send: a permit, a fresh request, and the check of its host. -/
def RetryRequest.prepare (req : RetryRequest) (attempt : Attempt) : Except HttpError Unit := do
  req.permit
  let request ← attempt.make
  req.client.checked request

/-! ## What to do after an attempt -/

/-- What to do after a failed attempt. -/
inductive Decision
  | stop (error : HttpError)
  | retry (error : HttpError) (delay : Duration)
  deriving DecidableEq

/-- Whether an answer of this status, with the wait its reset headers name, may be retried. -/
def RetryRequest.retryable (req : RetryRequest) (code : ℕ) (reset : Option Duration) : Bool :=
  match req.idempotency with
  | .idempotent => (code = 429 && req.policy.maxRetryAfter ≠ .zero) || 500 ≤ code
  | .nonIdempotent => (code = 429 || code = 503) && reset.isSome

section Sending

variable {σ : Type} (parseFromRfc2822 : String → Option Instant) (rng : Rng σ)

def decideStatus (req : RetryRequest) (response : Response) (now : Instant) (jitter : σ)
    (attempt : ℕ) : Decision × σ :=
  let code := response.status
  let reset := resetDelay parseFromRfc2822 req.headers response.headers now
  let error := withReset (statusError parseFromRfc2822 response now) reset
  if !req.retryable code reset then
    if req.idempotency = .nonIdempotent ∧ 500 ≤ code then
      (.stop (.outcomeUnknown ("server error: " ++ toString code)), jitter)
    else (.stop error, jitter)
  else
    match reset with
    | some wait =>
      if req.policy.maxRetryAfter < wait then (.stop (.rateLimited (some wait)), jitter)
      else
        let delay := spread rng jitter wait
        (.retry error delay.1, delay.2)
    | none =>
      let delay := backoff rng jitter attempt req.policy
      (.retry error delay.1, delay.2)

def decideTransport (req : RetryRequest) (err : TransportError) (jitter : σ) (attempt : ℕ) :
    Decision × σ :=
  match err.rejectedHost with
  | some host => (.stop (.addressRejected host), jitter)
  | none =>
    -- a connect failure means the request never left
    if err.isConnect then
      let delay := backoff rng jitter attempt req.policy
      (.retry (.ofTransport err) delay.1, delay.2)
    else if req.idempotency = .nonIdempotent then (.stop (.outcomeUnknown err.text), jitter)
    else if !err.isBuilder && !err.isRedirect && (err.isRequest || err.isBody || err.isTimeout) then
      let delay := backoff rng jitter attempt req.policy
      (.retry (.transient err.text) delay.1, delay.2)
    else (.stop (.ofTransport err), jitter)

/-- What follows an answer: it is returned, or decided upon. -/
inductive Verdict
  | accept (response : Response)
  | decide (decision : Decision)
  deriving DecidableEq

/-- What follows the answer to an attempt. -/
def verdict (req : RetryRequest) (attempt : Attempt) (jitter : σ) (number : ℕ) : Verdict × σ :=
  match attempt.answer with
  | .ok response =>
    if response.isSuccess || response.isRedirection then (.accept response, jitter)
    else (decideStatus parseFromRfc2822 rng req response attempt.now jitter number).map .decide id
  | .error err => (decideTransport rng req err jitter number).map .decide id

/-! ## The call -/

/-- What a call did: how often it sent, how long it slept each time, and what it returned. -/
structure Sent (σ : Type) where
  sends : ℕ
  sleeps : List Duration
  result : Except HttpError Response
  jitter : σ

/-- An attempt that was sent, a sleep, and what followed. -/
def Sent.again (delay : Duration) (rest : Sent σ) : Sent σ :=
  { rest with sends := rest.sends + 1, sleeps := delay :: rest.sleeps }

/-- The attempts from some number on, after `slept` in all. -/
def sendFrom (req : RetryRequest) (attempts : ℕ → Attempt) (done : ℕ) (slept : Duration)
    (jitter : σ) : Sent σ :=
  let maxAttempts := max req.policy.maxAttempts.toNat 1
  let attempt := min (done + 1) (UInt32.size - 1)
  match req.prepare (attempts done) with
  | .error error => ⟨0, [], .error error, jitter⟩
  | .ok () =>
    match verdict parseFromRfc2822 rng req (attempts done) jitter attempt with
    | (.accept response, jitter) => ⟨1, [], .ok response, jitter⟩
    | (.decide (.stop error), jitter) => ⟨1, [], .error error, jitter⟩
    | (.decide (.retry error delay), jitter) =>
      let total := slept.saturatingAdd delay
      if maxAttempts ≤ attempt ∨ req.policy.budget < total then ⟨1, [], .error error, jitter⟩
      else .again delay (sendFrom req attempts attempt total jitter)
termination_by max req.policy.maxAttempts.toNat 1 - done
decreasing_by
  rename_i h
  have hbound := req.policy.maxAttempts.toNat_lt
  simp only [not_or, attempt, maxAttempts, UInt32.size] at h
  simp only [UInt32.size]
  omega

/-- Sends a request, retrying under `req.policy`. -/
def sendWithRetry (req : RetryRequest) (jitter : σ) (attempts : ℕ → Attempt) : Sent σ :=
  sendFrom parseFromRfc2822 rng req attempts 0 .zero jitter

end Sending

end Postit.Http
