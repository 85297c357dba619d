import Postit.Http.Retries

/-!
# Requests that may have taken effect

A non-idempotent request is sent again only when its last attempt never reached the server or was
told by it to wait.  An attempt that may have taken effect ends the call, with an outcome that is
not to be retried.
-/

namespace Postit.Http

open Postit.Framework

/-- The request never left. -/
def Attempt.Unconnected (attempt : Attempt) : Prop :=
  ∃ err, attempt.answer = .error err ∧ err.isConnect = true

/-- The request left, and no answer came. -/
def Attempt.Unanswered (attempt : Attempt) : Prop :=
  ∃ err, attempt.answer = .error err ∧ err.isConnect = false

/-- The answer has this status. -/
def Attempt.Answered (attempt : Attempt) (code : ℕ) : Prop :=
  ∃ response, attempt.answer = .ok response ∧ response.status = code

section Claim

variable {σ : Type} (parseFromRfc2822 : String → Option Instant) (rng : Rng σ)

/-- The server turned the request away and named a wait of at most this. -/
def Attempt.Postponed (headers : RateLimitHeaders) (most : Duration) (attempt : Attempt) : Prop :=
  (attempt.Answered 429 ∨ attempt.Answered 503) ∧
    ∃ wait, attempt.reset parseFromRfc2822 headers = some wait ∧ wait ≤ most

/-- The request may have taken effect: no answer came, or the error of a server that named no
wait. -/
def Attempt.Ambiguous (headers : RateLimitHeaders) (attempt : Attempt) : Prop :=
  attempt.Unanswered ∨ ∃ code, 500 ≤ code ∧ attempt.Answered code ∧
    ¬ (code = 503 ∧ ∃ wait, attempt.reset parseFromRfc2822 headers = some wait)

/-- What a call returns that does not know what the request did, or whose host was refused. -/
def OutcomeUnknown (attempt : Attempt) (result : Except HttpError Response) : Prop :=
  (∃ text, result = .error (.outcomeUnknown text)) ∨
    ∃ err host, attempt.answer = .error err ∧ err.rejectedHost = some host ∧
      result = .error (.addressRejected host)

variable {parseFromRfc2822 rng} {req : RetryRequest} {attempt : Attempt}

lemma OutcomeUnknown.not_retryable {result : Except HttpError Response}
    (h : OutcomeUnknown attempt result) :
    ∃ error, result = .error error ∧ error.isRetryable = false := by
  obtain ⟨text, rfl⟩ | ⟨err, host, _, _, rfl⟩ := h
  · exact ⟨_, rfl, rfl⟩
  · exact ⟨_, rfl, rfl⟩

/-- An error is no answer to return. -/
lemma Response.not_good (response : Response) (h : 400 ≤ response.status) :
    (response.isSuccess || response.isRedirection) = false := by
  simp only [Response.isSuccess, Response.isRedirection, Bool.or_eq_false_iff,
    Bool.and_eq_false_iff, decide_eq_false_iff_not]
  omega

/-- A non-idempotent request is repeated when it never left or was postponed. -/
lemma repeated_of_verdict {jitter jitter' : σ} {number : ℕ} {error : HttpError} {delay : Duration}
    (hid : req.idempotency = .nonIdempotent)
    (h : verdict parseFromRfc2822 rng req attempt jitter number =
      (.decide (.retry error delay), jitter')) :
    attempt.Unconnected ∨
      attempt.Postponed parseFromRfc2822 req.headers req.policy.maxRetryAfter := by
  obtain ⟨err, hanswer, hconnect | hidempotent⟩ | ⟨response, hanswer, hretryable, hshort⟩ :=
    verdict_retry h
  · exact .inl ⟨err, hanswer, hconnect⟩
  · rw [hid] at hidempotent
    cases hidempotent
  · simp only [RetryRequest.retryable, hid, Bool.and_eq_true, Bool.or_eq_true,
      decide_eq_true_eq] at hretryable
    obtain ⟨wait, hwait⟩ := Option.isSome_iff_exists.mp hretryable.2
    refine .inr ⟨?_, wait, hwait, hshort wait hwait⟩
    exact hretryable.1.imp (fun h => ⟨response, hanswer, h⟩) fun h => ⟨response, hanswer, h⟩

/-- Neither an ambiguous attempt is repeated, nor is its outcome told otherwise. -/
lemma verdict_ambiguous {jitter jitter' : σ} {number : ℕ} {v : Verdict}
    (hid : req.idempotency = .nonIdempotent)
    (hambiguous : attempt.Ambiguous parseFromRfc2822 req.headers)
    (h : verdict parseFromRfc2822 rng req attempt jitter number = (v, jitter')) :
    ∃ error, v = .decide (.stop error) ∧ OutcomeUnknown attempt v.result := by
  obtain ⟨err, hanswer, hconnect⟩ | ⟨code, hcode, ⟨response, hanswer, rfl⟩, hwait⟩ := hambiguous
  · cases hhost : err.rejectedHost with
    | some host =>
      simp only [verdict, decideTransport, hanswer, hhost, Prod.map, Prod.mk.injEq] at h
      obtain ⟨rfl, _⟩ := h
      exact ⟨_, rfl, .inr ⟨err, host, hanswer, hhost, rfl⟩⟩
    | none =>
      simp only [verdict, decideTransport, hanswer, hhost, hconnect, hid, Prod.map,
        Bool.false_eq_true, if_false, if_true, Prod.mk.injEq] at h
      obtain ⟨rfl, _⟩ := h
      exact ⟨_, rfl, .inl ⟨err.text, rfl⟩⟩
  · have hretryable : req.retryable response.status
        (resetDelay parseFromRfc2822 req.headers response.headers attempt.now) = false := by
      simp only [Attempt.reset, hanswer] at hwait
      simp only [RetryRequest.retryable, hid, Bool.and_eq_false_iff, Bool.or_eq_false_iff,
        decide_eq_false_iff_not]
      by_cases h503 : response.status = 503
      · right
        simpa [h503, Option.eq_none_iff_forall_ne_some] using hwait
      · left
        omega
    simp only [verdict, decideStatus, hanswer, response.not_good (by omega), hretryable, hid, hcode,
      Prod.map, Bool.not_false, Bool.false_eq_true, and_self, if_false, if_true, Prod.mk.injEq] at h
    obtain ⟨rfl, _⟩ := h
    exact ⟨_, rfl, .inl ⟨_, rfl⟩⟩

/-- A server that names too long a wait ends the call with it. -/
lemma verdict_overlong {jitter jitter' : σ} {number : ℕ} {v : Verdict} {wait : Duration}
    (hid : req.idempotency = .nonIdempotent) (hcode : attempt.Answered 503)
    (hwait : attempt.reset parseFromRfc2822 req.headers = some wait)
    (hlong : req.policy.maxRetryAfter < wait)
    (h : verdict parseFromRfc2822 rng req attempt jitter number = (v, jitter')) :
    v = .decide (.stop (.rateLimited (some wait))) := by
  obtain ⟨response, hanswer, hstatus⟩ := hcode
  simp only [Attempt.reset, hanswer] at hwait
  have hretryable : req.retryable response.status (some wait) = true := by
    simp [RetryRequest.retryable, hid, hstatus]
  have hdecide := decideStatus_rateLimited rng jitter number hwait hretryable hlong
  simp only [verdict, hanswer, hdecide, response.not_good (by omega), Bool.false_eq_true, if_false,
    Prod.map, id_eq, Prod.mk.injEq] at h
  exact h.1.symm

variable (parseFromRfc2822 rng req) in
/-- In every call, a non-idempotent request is sent again only after an attempt that never left or
was postponed, an ambiguous attempt is the last and leaves the outcome unknown, and the policy's
attempts are not exceeded. -/
theorem nonIdempotent_sent_again (hid : req.idempotency = .nonIdempotent) (jitter : σ)
    (attempts : ℕ → Attempt) :
    let call := sendWithRetry parseFromRfc2822 rng req jitter attempts
    (∀ n, n + 1 < call.sends → (attempts n).Unconnected ∨
      (attempts n).Postponed parseFromRfc2822 req.headers req.policy.maxRetryAfter) ∧
    (∀ n, call.sends = n + 1 → (attempts n).Ambiguous parseFromRfc2822 req.headers →
      OutcomeUnknown (attempts n) call.result ∧
        ∃ error, call.result = .error error ∧ error.isRetryable = false) ∧
    (∀ n wait, call.sends = n + 1 → (attempts n).Answered 503 →
      (attempts n).reset parseFromRfc2822 req.headers = some wait →
      req.policy.maxRetryAfter < wait → call.result = .error (.rateLimited (some wait))) ∧
    call.sends ≤ max 1 req.policy.maxAttempts.toNat := by
  intro call
  refine ⟨fun n hn => ?_, fun n hn hambiguous => ?_, fun n wait hn hcode hwait hlong => ?_, ?_⟩
  · obtain ⟨_, _, _, _, _, hverdict⟩ := verdict_of_sends hn
    exact repeated_of_verdict hid hverdict
  · obtain ⟨_, _, _, v, hverdict, hresult⟩ :=
      result_of_last (Nat.zero_le n) ((Nat.zero_add _).trans hn)
    obtain ⟨error, rfl, hunknown⟩ := verdict_ambiguous hid hambiguous hverdict
    obtain hresult | ⟨_, _, hretry⟩ := hresult
    · have : OutcomeUnknown (attempts n) call.result := hresult ▸ hunknown
      exact ⟨this, this.not_retryable⟩
    · cases hretry
  · obtain ⟨_, _, _, v, hverdict, hresult⟩ :=
      result_of_last (Nat.zero_le n) ((Nat.zero_add _).trans hn)
    obtain rfl := verdict_overlong hid hcode hwait hlong hverdict
    obtain hresult | ⟨_, _, hretry⟩ := hresult
    · exact hresult
    · cases hretry
  · rw [max_comm, ← Nat.zero_add call.sends]
    exact sends_sendFrom_le (by omega)

end Claim

/-! ## A call -/

/-- A random source that always draws zero. -/
def Rng.least : Rng Unit := ⟨fun _ _ => (0, ())⟩

/-- A request that is not idempotent, under a policy that waits for a minute at most. -/
def RetryRequest.sample : RetryRequest where
  client := .trusted
  policy :=
    { maxAttempts := 3
      baseDelay := .fromMillis 500
      maxDelay := .fromSecs 30
      maxRetryAfter := .fromSecs 60
      budget := .fromSecs 60 }
  idempotency := .nonIdempotent
  headers := [.retryAfter]
  limiter := none

/-- An answer of this status, whose `Retry-After` header is this text. -/
def Attempt.told (code : ℕ) (retryAfter : String) : Attempt where
  make := .ok ⟨none⟩
  answer := .ok { status := code, headers := [("retry-after", retryAfter.toUTF8.toList)] }
  now := ⟨0, by decide, by decide⟩

/-- The `503` of the first attempt names seven seconds, and the second attempt fails. -/
theorem nonIdempotent_sent_again_sample :
    let attempts n : Attempt := if n = 0 then .told 503 "7" else .told 500 "7"
    let call := sendWithRetry (fun _ => none) .least .sample () attempts
    call.sends = 2 ∧
      ((attempts 0).Unconnected ∨
        (attempts 0).Postponed (fun _ => none) [.retryAfter] (.fromSecs 60)) ∧
      OutcomeUnknown (attempts 1) call.result := by
  intro attempts call
  have hsends : call.sends = 2 := by decide +kernel
  have hcall := nonIdempotent_sent_again (fun _ => none) .least .sample rfl () attempts
  have hambiguous : (attempts 1).Ambiguous (fun _ => none) [.retryAfter] :=
    .inr ⟨500, by decide, ⟨_, rfl, rfl⟩, fun h => absurd h.1 (by decide)⟩
  exact ⟨hsends, hcall.1 0 (by rw [hsends]; decide), (hcall.2.1 1 hsends hambiguous).1⟩

/-- A `503` that names an hour is the error of a server, and is told as a rate limit, which may be
retried. -/
theorem not_always_outcomeUnknown :
    let attempt : Attempt := .told 503 "3600"
    let call := sendWithRetry (fun _ => none) .least .sample () fun _ => attempt
    call.sends = 1 ∧ attempt.Answered 503 ∧
      ¬ attempt.Postponed (fun _ => none) [.retryAfter] (.fromSecs 60) ∧
      ¬ OutcomeUnknown attempt call.result ∧
      ∃ error, call.result = .error error ∧ error.isRetryable = true := by
  intro attempt call
  have hresult : call.result = .error (.rateLimited (some (.fromSecs 3600))) := by decide +kernel
  have hreset : attempt.reset (fun _ => none) [.retryAfter] = some (.fromSecs 3600) := by
    decide +kernel
  refine ⟨by decide +kernel, ⟨_, rfl, rfl⟩, ?_, ?_, ⟨_, hresult, rfl⟩⟩
  · rintro ⟨_, wait, hwait, hle⟩
    rw [hreset] at hwait
    cases hwait
    exact absurd hle (by decide)
  · rw [hresult]
    rintro (⟨text, h⟩ | ⟨err, host, hanswer, _⟩)
    · cases h
    · cases hanswer

end Postit.Http
