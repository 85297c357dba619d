import Postit.Http.Retry

/-!
# The runs of a call with retries

An attempt is either not sent, or sent and the last, or followed by another one; `sendFrom_rule` is
the induction over a call that has one case for each.  The lemmas before it tell when an answer is
followed by another attempt.
-/

namespace Postit.Http

open Postit.Framework

variable {σ : Type} {parseFromRfc2822 : String → Option Instant} {rng : Rng σ}

/-- What a call returns whose last attempt is followed by this. -/
def Verdict.result : Verdict → Except HttpError Response
  | .accept response => .ok response
  | .decide (.stop error) => .error error
  | .decide (.retry error _) => .error error

/-! ## Decisions -/

/-- An answer that is retried may be, and what its reset headers ask for is not too long. -/
lemma decideStatus_retry {req : RetryRequest} {response : Response} {now : Instant}
    {jitter jitter' : σ} {number : ℕ} {error : HttpError} {delay : Duration}
    (h : decideStatus parseFromRfc2822 rng req response now jitter number =
      (.retry error delay, jitter')) :
    req.retryable response.status
      (resetDelay parseFromRfc2822 req.headers response.headers now) = true ∧
    ∀ wait, resetDelay parseFromRfc2822 req.headers response.headers now = some wait →
      wait ≤ req.policy.maxRetryAfter := by
  simp only [decideStatus] at h
  split_ifs at h with hretryable hserver
  · cases h
  · cases h
  · refine ⟨by simpa using hretryable, fun wait hwait => ?_⟩
    simp only [hwait] at h
    split_ifs at h with hlong
    · cases h
    · exact Nat.not_lt.mp hlong

variable (rng) in
/-- An answer that may be retried and asks for too long a wait ends the call with that wait. -/
lemma decideStatus_rateLimited {req : RetryRequest} {response : Response} {now : Instant}
    {wait : Duration} (jitter : σ) (number : ℕ)
    (hreset : resetDelay parseFromRfc2822 req.headers response.headers now = some wait)
    (hretryable : req.retryable response.status (some wait) = true)
    (hlong : req.policy.maxRetryAfter < wait) :
    decideStatus parseFromRfc2822 rng req response now jitter number =
      (.stop (.rateLimited (some wait)), jitter) := by
  simp [decideStatus, hreset, hretryable, hlong]

/-- Without a connection there is one way to go on, and with one only what is idempotent does. -/
lemma decideTransport_retry {req : RetryRequest} {err : TransportError} {jitter jitter' : σ}
    {number : ℕ} {error : HttpError} {delay : Duration}
    (h : decideTransport rng req err jitter number = (.retry error delay, jitter')) :
    err.isConnect = true ∨ req.idempotency = .idempotent := by
  unfold decideTransport at h
  by_cases hconnect : err.isConnect = true
  · exact .inl hconnect
  · cases hcase : req.idempotency with
    | idempotent => exact .inr rfl
    | nonIdempotent =>
      -- neither a refused host nor what else may fail is tried again
      cases hhost : err.rejectedHost with
      | some host => simp [hhost] at h
      | none => simp [hhost, hconnect, hcase] at h

/-- The wait the reset headers of the answer name. -/
def Attempt.reset (parseFromRfc2822 : String → Option Instant) (headers : RateLimitHeaders)
    (attempt : Attempt) : Option Duration :=
  match attempt.answer with
  | .ok response => resetDelay parseFromRfc2822 headers response.headers attempt.now
  | .error _ => none

/-- What is followed by another attempt: a failed send that never left or may be repeated, or an
answer that may be retried and asks for no wait that is too long. -/
lemma verdict_retry {req : RetryRequest} {attempt : Attempt} {jitter jitter' : σ} {number : ℕ}
    {error : HttpError} {delay : Duration}
    (h : verdict parseFromRfc2822 rng req attempt jitter number =
      (.decide (.retry error delay), jitter')) :
    (∃ err, attempt.answer = .error err ∧ (err.isConnect = true ∨ req.idempotency = .idempotent)) ∨
    ∃ response, attempt.answer = .ok response ∧
      req.retryable response.status (attempt.reset parseFromRfc2822 req.headers) = true ∧
      ∀ wait, attempt.reset parseFromRfc2822 req.headers = some wait →
        wait ≤ req.policy.maxRetryAfter := by
  cases hanswer : attempt.answer with
  | error err =>
    simp only [verdict, hanswer, Prod.map, id_eq, Prod.mk.injEq, Verdict.decide.injEq] at h
    exact .inl ⟨err, rfl, decideTransport_retry (Prod.ext h.1 h.2)⟩
  | ok response =>
    simp only [verdict, hanswer] at h
    split_ifs at h with hgood
    · cases h
    · simp only [Prod.map, id_eq, Prod.mk.injEq, Verdict.decide.injEq] at h
      have hretry := decideStatus_retry (Prod.ext h.1 h.2)
      simp only [Attempt.reset, hanswer]
      exact .inr ⟨response, rfl, hretry⟩

/-! ## Runs -/

/-- The induction over a call. -/
theorem sendFrom_rule {req : RetryRequest} {attempts : ℕ → Attempt}
    {P : ℕ → Duration → σ → Sent σ → Prop}
    (unsent : ∀ done slept jitter error, req.prepare (attempts done) = .error error →
      P done slept jitter ⟨0, [], .error error, jitter⟩)
    (last : ∀ done slept jitter jitter' number v, req.prepare (attempts done) = .ok () →
      verdict parseFromRfc2822 rng req (attempts done) jitter number = (v, jitter') →
      P done slept jitter ⟨1, [], v.result, jitter'⟩)
    (again : ∀ done slept jitter jitter' number error delay rest,
      req.prepare (attempts done) = .ok () →
      verdict parseFromRfc2822 rng req (attempts done) jitter number =
        (.decide (.retry error delay), jitter') →
      done + 1 < max req.policy.maxAttempts.toNat 1 →
      slept.saturatingAdd delay ≤ req.policy.budget →
      P (done + 1) (slept.saturatingAdd delay) jitter' rest →
      P done slept jitter (.again delay rest))
    (done : ℕ) (slept : Duration) (jitter : σ) :
    P done slept jitter (sendFrom parseFromRfc2822 rng req attempts done slept jitter) := by
  fun_induction sendFrom with
  | case1 done slept jitter error hprepare => exact unsent _ _ _ _ hprepare
  | case2 done slept jitter number hprepare response jitter' hverdict =>
    exact last _ _ _ _ _ _ hprepare hverdict
  | case3 done slept jitter number hprepare error jitter' hverdict =>
    exact last _ _ _ _ _ _ hprepare hverdict
  | case4 done slept jitter most number hprepare error delay jitter' hverdict total hstop =>
    exact last _ _ _ _ _ _ hprepare hverdict
  | case5 done slept jitter most number hprepare error delay jitter' hverdict total hgo ih =>
    -- the count of attempts has not reached its cap
    have hnumber : number = done + 1 := by
      have hbound := req.policy.maxAttempts.toNat_lt
      simp only [not_or, most, number, UInt32.size] at hgo ⊢
      omega
    rw [not_or, hnumber, Nat.not_le] at hgo
    rw [hnumber] at ih ⊢
    exact again _ _ _ _ _ _ _ _ hprepare hverdict hgo.1 (Nat.not_lt.mp hgo.2) ih

section Facts

variable {req : RetryRequest} {attempts : ℕ → Attempt} {done : ℕ} {slept : Duration} {jitter : σ}

/-- The attempts of a policy are not exceeded. -/
lemma sends_sendFrom_le (hdone : done < max req.policy.maxAttempts.toNat 1) :
    done + (sendFrom parseFromRfc2822 rng req attempts done slept jitter).sends ≤
      max req.policy.maxAttempts.toNat 1 := by
  revert hdone
  apply sendFrom_rule (P := fun done _ _ call =>
    done < max req.policy.maxAttempts.toNat 1 →
      done + call.sends ≤ max req.policy.maxAttempts.toNat 1)
  case unsent =>
    intro done slept jitter error _ hdone
    exact Nat.le_of_lt hdone
  case last =>
    intro done slept jitter jitter' number v _ _ hdone
    exact hdone
  case again =>
    intro done slept jitter jitter' number error delay rest _ _ hmore _ ih _
    have := ih hmore
    simp only [Sent.again]
    omega

/-- Between two sends lies a sleep. -/
lemma sends_sendFrom_le_length :
    (sendFrom parseFromRfc2822 rng req attempts done slept jitter).sends ≤
      (sendFrom parseFromRfc2822 rng req attempts done slept jitter).sleeps.length + 1 := by
  apply sendFrom_rule (P := fun _ _ _ call => call.sends ≤ call.sleeps.length + 1)
  case unsent => simp
  case last => simp
  case again =>
    intro done slept jitter jitter' number error delay rest _ _ _ _ ih
    simp only [Sent.again, List.length_cons]
    omega

/-- A sleep is what the attempt before it was decided to be followed by. -/
lemma verdict_of_sleeps {n : ℕ} {delay : Duration}
    (h : (sendFrom parseFromRfc2822 rng req attempts done slept jitter).sleeps[n]? = some delay) :
    ∃ jitter jitter' number error, verdict parseFromRfc2822 rng req (attempts (done + n)) jitter
      number = (.decide (.retry error delay), jitter') := by
  revert n
  apply sendFrom_rule (P := fun done _ _ call => ∀ {n : ℕ}, call.sleeps[n]? = some delay →
    ∃ jitter jitter' number error, verdict parseFromRfc2822 rng req (attempts (done + n)) jitter
      number = (.decide (.retry error delay), jitter'))
  case unsent => simp
  case last => simp
  case again =>
    intro done slept jitter jitter' number error delay' rest _ hverdict _ _ ih n hn
    cases n with
    | zero =>
      cases hn
      exact ⟨jitter, jitter', number, error, hverdict⟩
    | succ n =>
      rw [show done + (n + 1) = done + 1 + n by omega]
      exact ih hn

/-- An attempt that another one follows was decided to be. -/
lemma verdict_of_sends {n : ℕ}
    (h : n + 1 < (sendWithRetry parseFromRfc2822 rng req jitter attempts).sends) :
    ∃ jitter jitter' number error delay, verdict parseFromRfc2822 rng req (attempts n) jitter
      number = (.decide (.retry error delay), jitter') := by
  have hlength : n < (sendWithRetry parseFromRfc2822 rng req jitter attempts).sleeps.length := by
    have hle : (sendWithRetry parseFromRfc2822 rng req jitter attempts).sends ≤
        (sendWithRetry parseFromRfc2822 rng req jitter attempts).sleeps.length + 1 :=
      sends_sendFrom_le_length
    omega
  obtain ⟨jitter', jitter'', number, error, hverdict⟩ :=
    verdict_of_sleeps (List.getElem?_eq_getElem hlength)
  rw [Nat.zero_add] at hverdict
  exact ⟨jitter', jitter'', number, error, _, hverdict⟩

/-- The last answer gives the result, unless another attempt was to follow it. -/
lemma result_of_last {n : ℕ} (hn : done ≤ n)
    (h : done + (sendFrom parseFromRfc2822 rng req attempts done slept jitter).sends = n + 1) :
    ∃ jitter' jitter'' number v,
      verdict parseFromRfc2822 rng req (attempts n) jitter' number = (v, jitter'') ∧
      ((sendFrom parseFromRfc2822 rng req attempts done slept jitter).result = v.result ∨
        ∃ error delay, v = .decide (.retry error delay)) := by
  revert hn h
  apply sendFrom_rule (P := fun done _ _ call => done ≤ n → done + call.sends = n + 1 →
    ∃ jitter' jitter'' number v,
      verdict parseFromRfc2822 rng req (attempts n) jitter' number = (v, jitter'') ∧
      (call.result = v.result ∨ ∃ error delay, v = .decide (.retry error delay)))
  case unsent =>
    intro done slept jitter error _ hn h
    simp only [Nat.add_zero] at h
    omega
  case last =>
    intro done slept jitter jitter' number v _ hverdict hn h
    obtain rfl : done = n := by simpa using h
    exact ⟨jitter, jitter', number, v, hverdict, .inl rfl⟩
  case again =>
    intro done slept jitter jitter' number error delay rest _ hverdict _ _ ih hn h
    simp only [Sent.again] at h ⊢
    by_cases hlast : done = n
    · subst hlast
      exact ⟨jitter, jitter', number, _, hverdict, .inr ⟨error, delay, rfl⟩⟩
    · exact ih (by omega) (by omega)

/-- An attempt that is made is sent. -/
lemma sends_sendFrom_pos (hprepare : req.prepare (attempts done) = .ok ()) :
    0 < (sendFrom parseFromRfc2822 rng req attempts done slept jitter).sends := by
  revert hprepare
  apply sendFrom_rule (P := fun done _ _ call =>
    req.prepare (attempts done) = .ok () → 0 < call.sends)
  case unsent =>
    intro done slept jitter error herror hprepare
    rw [hprepare] at herror
    cases herror
  case last => simp
  case again => simp [Sent.again]

/-- An answer that always stops the call ends it. -/
lemma result_of_stop {n : ℕ} {error : HttpError}
    (hn : n < (sendWithRetry parseFromRfc2822 rng req jitter attempts).sends)
    (hstop : ∀ jitter number, (verdict parseFromRfc2822 rng req (attempts n) jitter number).1 =
      .decide (.stop error)) :
    (sendWithRetry parseFromRfc2822 rng req jitter attempts).result = .error error := by
  set call := sendWithRetry parseFromRfc2822 rng req jitter attempts with hcall
  by_cases hlast : call.sends = n + 1
  · obtain ⟨jitter', jitter'', number, v, hverdict, hresult⟩ :=
      result_of_last (Nat.zero_le n) ((Nat.zero_add _).trans hlast)
    have hv := hstop jitter' number
    rw [hverdict] at hv
    obtain hresult | ⟨_, _, hretry⟩ := hresult
    · exact hresult.trans (congrArg Verdict.result hv)
    · rw [hretry] at hv
      cases hv
  · obtain ⟨jitter', _, number, _, _, hverdict⟩ :=
      verdict_of_sends (show n + 1 < call.sends by omega)
    have hv := hstop jitter' number
    rw [hverdict] at hv
    cases hv

end Facts

end Postit.Http
