import Postit.Http.Retries
import Postit.Properties.RetriedRequests

/-!
# Calls within their retry policy

A call sleeps no longer than its budget and no longer than it may for a reset header, and returns
the wait that is too long.  A policy that waits out no rate limit is kept but for two kinds of
answers (`Stray`), and by every call where none of them can come.
-/

namespace Postit.Http

open Postit.Framework

/-- How long a call slept. -/
def slept (sleeps : List Duration) : ℕ := (sleeps.map Duration.nanos).sum

/-- The answers a call of this idempotency may retry, by the documentation. -/
def Idempotency.Retries : Idempotency → ℕ → Prop
  | .idempotent, code => code = 429 ∨ 500 ≤ code
  | .nonIdempotent, code => code = 429 ∨ code = 503

section Claim

variable {σ : Type} (parseFromRfc2822 : String → Option Instant) (rng : Rng σ)

/-- A call that keeps to its policy. -/
structure Kept (req : RetryRequest) (attempts : ℕ → Attempt) (call : Sent σ) : Prop where
  budget : slept call.sleeps ≤ req.policy.budget.nanos
  waits : ∀ n < call.sleeps.length, ∀ wait,
    (attempts n).reset parseFromRfc2822 req.headers = some wait → wait ≤ req.policy.maxRetryAfter
  told : ∀ n < call.sends, ∀ code wait, req.idempotency.Retries code → (attempts n).Answered code →
    (attempts n).reset parseFromRfc2822 req.headers = some wait → req.policy.maxRetryAfter < wait →
      call.result = .error (.rateLimited (some wait))
  atOnce : req.policy.maxRetryAfter = .zero → ∀ n, (attempts n).Answered 429 → call.sends ≤ n + 1

/-- A rate limit under a policy that waits out none, whose reset header names some wait where the
request is idempotent, and none where it is not. -/
def Stray (req : RetryRequest) (attempt : Attempt) : Prop :=
  req.policy.maxRetryAfter = .zero ∧ attempt.Answered 429 ∧
    ∃ wait, attempt.reset parseFromRfc2822 req.headers = some wait ∧
      match req.idempotency with
      | .idempotent => wait ≠ .zero
      | .nonIdempotent => wait = .zero

/-- Calls that meet no stray answer, or cannot go wrong by one. -/
def RetryRequest.Settled (req : RetryRequest) : Prop :=
  req.policy.maxRetryAfter ≠ .zero ∨ req.headers = [] ∨
    (req.idempotency = .nonIdempotent ∧ req.policy.maxAttempts.toNat ≤ 1) ∨ req.permit ≠ .ok ()

variable {parseFromRfc2822 rng} {req : RetryRequest} {attempts : ℕ → Attempt} {jitter : σ}

/-! ## The parts of it -/

/-- The budget bounds the time slept before and from some attempt on. -/
lemma slept_sendFrom_le (hbudget : req.policy.budget < Duration.max) {done : ℕ} {before : Duration}
    (hbefore : before ≤ req.policy.budget) :
    before.nanos +
        slept (sendFrom parseFromRfc2822 rng req attempts done before jitter).sleeps ≤
      req.policy.budget.nanos := by
  revert hbefore
  apply sendFrom_rule (P := fun _ before _ call => before ≤ req.policy.budget →
    before.nanos + slept call.sleeps ≤ req.policy.budget.nanos)
  case unsent =>
    intro done before jitter error _ hbefore
    exact hbefore
  case last =>
    intro done before jitter jitter' number v _ _ hbefore
    exact hbefore
  case again =>
    intro done before jitter jitter' number error delay rest _ _ _ htotal ih _
    have hexact : (before.saturatingAdd delay).nanos = before.nanos + delay.nanos :=
      Duration.nanos_of_saturatingAdd_lt (Nat.lt_of_le_of_lt htotal hbudget)
    have hrest := ih htotal
    simp only [Sent.again, slept, List.map_cons, List.sum_cons] at hrest ⊢
    omega

/-- What a sleep follows named no longer wait than allowed. -/
lemma wait_le_of_sleeps {n : ℕ} {wait : Duration}
    (hn : n < (sendWithRetry parseFromRfc2822 rng req jitter attempts).sleeps.length)
    (hwait : (attempts n).reset parseFromRfc2822 req.headers = some wait) :
    wait ≤ req.policy.maxRetryAfter := by
  obtain ⟨_, _, _, _, hverdict⟩ := verdict_of_sleeps (List.getElem?_eq_getElem hn)
  rw [Nat.zero_add] at hverdict
  obtain ⟨err, hanswer, _⟩ | ⟨_, _, _, hshort⟩ := verdict_retry hverdict
  · simp [Attempt.reset, hanswer] at hwait
  · exact hshort wait hwait

/-- What a call may retry by the documentation it may, but for a rate limit that an idempotent one
does not wait out. -/
lemma retryable_of_retries {code : ℕ} {wait : Duration} (hretries : req.idempotency.Retries code)
    (hzero : req.idempotency = .idempotent → code = 429 → req.policy.maxRetryAfter ≠ .zero) :
    req.retryable code (some wait) = true := by
  unfold RetryRequest.retryable
  cases hid : req.idempotency with
  | idempotent =>
    simp only [hid, Idempotency.Retries] at hretries
    obtain rfl | hserver := hretries
    · simp [hzero hid rfl]
    · simp [hserver]
  | nonIdempotent =>
    simp only [hid, Idempotency.Retries] at hretries
    simp [hretries]

/-- The wait that is too long is what the call returns. -/
lemma result_of_long {n code : ℕ} {wait : Duration}
    (hn : n < (sendWithRetry parseFromRfc2822 rng req jitter attempts).sends)
    (hretries : req.idempotency.Retries code) (hcode : (attempts n).Answered code)
    (hwait : (attempts n).reset parseFromRfc2822 req.headers = some wait)
    (hlong : req.policy.maxRetryAfter < wait)
    (hzero : req.idempotency = .idempotent → code = 429 → req.policy.maxRetryAfter ≠ .zero) :
    (sendWithRetry parseFromRfc2822 rng req jitter attempts).result =
      .error (.rateLimited (some wait)) := by
  have hretryable : req.retryable code (some wait) = true := retryable_of_retries hretries hzero
  obtain ⟨response, hanswer, rfl⟩ := hcode
  have hbad : 400 ≤ response.status := by
    cases hid : req.idempotency with
    | idempotent =>
      simp only [hid, Idempotency.Retries] at hretries
      omega
    | nonIdempotent =>
      simp only [hid, Idempotency.Retries] at hretries
      omega
  simp only [Attempt.reset, hanswer] at hwait
  refine result_of_stop hn fun jitter number => ?_
  simp [verdict, hanswer, response.not_good hbad,
    decideStatus_rateLimited rng jitter number hwait hretryable hlong]

/-- Where no rate limit is waited out, one ends the call. -/
lemma sends_le_of_zero {n : ℕ} (hzero : req.policy.maxRetryAfter = .zero)
    (hcode : (attempts n).Answered 429) (hstray : ¬ Stray parseFromRfc2822 req (attempts n)) :
    (sendWithRetry parseFromRfc2822 rng req jitter attempts).sends ≤ n + 1 := by
  by_contra hmore
  obtain ⟨_, _, _, _, _, hverdict⟩ := verdict_of_sends (Nat.lt_of_not_le hmore)
  obtain ⟨response, hanswer, hstatus⟩ := hcode
  obtain ⟨err, herr, _⟩ | ⟨response', hanswer', hretryable, hshort⟩ := verdict_retry hverdict
  · rw [hanswer] at herr
    cases herr
  · obtain rfl : response = response' := Except.ok.inj (hanswer.symm.trans hanswer')
    cases hid : req.idempotency with
    | idempotent => simp [RetryRequest.retryable, hid, hstatus, hzero] at hretryable
    | nonIdempotent =>
      simp only [RetryRequest.retryable, hid, Bool.and_eq_true] at hretryable
      obtain ⟨wait, hwait⟩ := Option.isSome_iff_exists.mp hretryable.2
      have hnone : wait = .zero := by
        have hle := hshort wait hwait
        rw [hzero] at hle
        exact Duration.ext (Nat.le_zero.mp hle)
      refine hstray ⟨hzero, ⟨response, hanswer, hstatus⟩, wait, hwait, ?_⟩
      simpa only [hid] using hnone

/-- A call sleeps within its budget. -/
lemma slept_le (hbudget : req.policy.budget < Duration.max) :
    slept (sendWithRetry parseFromRfc2822 rng req jitter attempts).sleeps ≤
      req.policy.budget.nanos := by
  have hslept : Duration.zero.nanos +
      slept (sendWithRetry parseFromRfc2822 rng req jitter attempts).sleeps ≤ _ :=
    slept_sendFrom_le hbudget (Duration.zero_le _)
  rwa [Duration.nanos_zero, Nat.zero_add] at hslept

/-- A call that meets no stray answer keeps to its policy. -/
lemma kept_of_not_stray (hbudget : req.policy.budget < Duration.max)
    (hstray : ∀ n, ¬ Stray parseFromRfc2822 req (attempts n)) :
    Kept parseFromRfc2822 req attempts
      (sendWithRetry parseFromRfc2822 rng req jitter attempts) where
  budget := slept_le hbudget
  waits n hn wait hwait := wait_le_of_sleeps hn hwait
  told n hn code wait hretries hcode hwait hlong := by
    refine result_of_long hn hretries hcode hwait hlong fun hid h429 hzero => hstray n
      ⟨hzero, h429 ▸ hcode, wait, hwait, ?_⟩
    simp only [hid]
    rintro rfl
    exact absurd hlong (Nat.not_lt_zero _)
  atOnce hzero n hcode := sends_le_of_zero hzero hcode (hstray n)

/-- A single attempt that is not idempotent keeps to its policy, whatever it meets. -/
lemma kept_of_single (hbudget : req.policy.budget < Duration.max)
    (hid : req.idempotency = .nonIdempotent) (hone : req.policy.maxAttempts.toNat ≤ 1) :
    Kept parseFromRfc2822 req attempts
      (sendWithRetry parseFromRfc2822 rng req jitter attempts) where
  budget := slept_le hbudget
  waits n hn wait hwait := wait_le_of_sleeps hn hwait
  told n hn code wait hretries hcode hwait hlong :=
    result_of_long hn hretries hcode hwait hlong fun h => by cases hid.symm.trans h
  atOnce _ n _ := by
    have hsends : 0 + (sendWithRetry parseFromRfc2822 rng req jitter attempts).sends ≤ _ :=
      sends_sendFrom_le (show 0 < max req.policy.maxAttempts.toNat 1 by omega)
    omega

/-- A call that gets no permit does nothing. -/
lemma kept_of_refused {error : HttpError} (hpermit : req.permit = .error error) :
    Kept parseFromRfc2822 req attempts
      (sendWithRetry parseFromRfc2822 rng req jitter attempts) := by
  have hprepare : req.prepare (attempts 0) = .error error := by
    simp only [RetryRequest.prepare, hpermit, bind, Except.bind]
  have hcall : sendWithRetry parseFromRfc2822 rng req jitter attempts =
      ⟨0, [], .error error, jitter⟩ := by
    rw [sendWithRetry, sendFrom, hprepare]
  rw [hcall]
  exact
    { budget := Nat.zero_le _
      waits := fun n hn => absurd hn (Nat.not_lt_zero n)
      told := fun n hn => absurd hn (Nat.not_lt_zero n)
      atOnce := fun _ n _ => Nat.zero_le _ }

/-! ## Calls that meet a stray answer -/

/-- The name of the header. -/
def ResetHeader.name : ResetHeader → String
  | .retryAfter => "retry-after"
  | .deltaSeconds name | .epochSeconds name | .epochMillis name => name

/-- The start of 1970. -/
def Instant.epoch : Instant := ⟨0, Instant.minUtc_le_zero, Instant.zero_le_maxUtc⟩

/-- The wait a number in the header names at the start of 1970. -/
def ResetHeader.wait : ResetHeader → ℕ → Duration
  | .retryAfter, n | .deltaSeconds _, n => .fromSecs n
  | .epochSeconds _, n => untilEpochMillis (min (n * 1000) (UInt64.size - 1)) Instant.epoch
  | .epochMillis _, n => untilEpochMillis n Instant.epoch

/-- A rate limit at the start of 1970, with one header. -/
def Attempt.limited (name : String) (value : Bytes) : Attempt where
  make := .ok ⟨none⟩
  answer := .ok { status := 429, headers := [(name, value)] }
  now := Instant.epoch

lemma reset_limited (header : ResetHeader) (headers : RateLimitHeaders) {value : Bytes}
    (text : String) (n : ℕ) (htext : (headerText value).map trim = some text)
    (hparse : parseU64 text = some n) :
    (Attempt.limited header.name value).reset parseFromRfc2822 (header :: headers) =
      some (header.wait n) := by
  have hmap : HeaderMap.text [(header.name, value)] header.name = some text := by
    simpa [HeaderMap.text, HeaderMap.get] using htext
  simp only [Attempt.reset, Attempt.limited, resetDelay, List.findSome?_cons]
  cases header with
  | retryAfter =>
    simp only [ResetHeader.delay, retryAfterAt, ResetHeader.name] at hmap ⊢
    rw [hmap, Option.bind_some, hparse]
    rfl
  | deltaSeconds name | epochSeconds name | epochMillis name =>
    simp only [ResetHeader.delay, headerU64, ResetHeader.name] at hmap ⊢
    rw [hmap, Option.bind_some, hparse]
    rfl

variable (parseFromRfc2822) in
/-- A header that says zero asks for no wait. -/
lemma reset_zero (header : ResetHeader) (headers : RateLimitHeaders) :
    (Attempt.limited header.name [48]).reset parseFromRfc2822 (header :: headers) =
      some .zero := by
  have hwait : header.wait 0 = .zero := by
    cases header with
    | retryAfter | deltaSeconds name =>
      show Duration.fromSecs 0 = .zero
      rfl
    | epochSeconds name | epochMillis name =>
      show untilEpochMillis 0 Instant.epoch = .zero
      simp [untilEpochMillis, Duration.fromMillis, Duration.ext_iff]
  rw [reset_limited header headers "0" 0 (by decide) (by decide), hwait]

variable (parseFromRfc2822) in
/-- A header that says seven asks for some wait. -/
lemma reset_seven (header : ResetHeader) (headers : RateLimitHeaders) :
    ∃ wait, (Attempt.limited header.name [55]).reset parseFromRfc2822 (header :: headers) =
      some wait ∧ Duration.zero < wait := by
  refine ⟨header.wait 7, reset_limited header headers "7" 7 (by decide)
    (by decide), ?_⟩
  cases header with
  | retryAfter | deltaSeconds name =>
    show Duration.zero < Duration.fromSecs 7
    decide
  | epochSeconds name =>
    show Duration.zero < untilEpochMillis 7000 Instant.epoch
    decide
  | epochMillis name =>
    show Duration.zero < untilEpochMillis 7 Instant.epoch
    decide

lemma prepare_limited (hpermit : req.permit = .ok ()) (name : String) (value : Bytes) :
    req.prepare (.limited name value) = .ok () := by
  simp only [RetryRequest.prepare, hpermit, Attempt.limited, bind, Except.bind]
  cases req.client <;> rfl

/-- An idempotent call does not return the wait of a rate limit it does not wait out. -/
lemma not_kept_idempotent (hid : req.idempotency = .idempotent)
    (hzero : req.policy.maxRetryAfter = .zero) (hpermit : req.permit = .ok ())
    (hheaders : req.headers ≠ []) : ∃ attempts, ¬ Kept parseFromRfc2822 req attempts
      (sendWithRetry parseFromRfc2822 rng req jitter attempts) := by
  obtain ⟨header, headers, hcons⟩ := List.exists_cons_of_ne_nil hheaders
  obtain ⟨wait, hwait, hpos⟩ := reset_seven parseFromRfc2822 header headers
  rw [← hcons] at hwait
  refine ⟨fun _ => .limited header.name [55], fun hkept => ?_⟩
  have hsends : 0 < (sendWithRetry parseFromRfc2822 rng req jitter fun _ =>
      Attempt.limited header.name [55]).sends :=
    sends_sendFrom_pos (prepare_limited hpermit _ _)
  have htold := hkept.told 0 hsends 429 wait (by simp [hid, Idempotency.Retries]) ⟨_, rfl, rfl⟩
    hwait (hzero ▸ hpos)
  have hstop : ∃ error, (∀ w, error ≠ HttpError.rateLimited w) ∧ ∀ jitter number,
      (verdict parseFromRfc2822 rng req (.limited header.name [55]) jitter number).1 =
        .decide (.stop error) := by
    refine ⟨.status 429 (some wait) none, by simp, fun jitter number => ?_⟩
    simp only [Attempt.reset, Attempt.limited] at hwait
    simp [verdict, Attempt.limited, Response.isSuccess, Response.isRedirection, decideStatus, hwait,
      RetryRequest.retryable, hid, hzero, statusError, withReset]
  obtain ⟨error, hother, hstop⟩ := hstop
  have hresult := result_of_stop hsends hstop
  rw [htold] at hresult
  cases hresult
  exact hother _ rfl

/-- A call that is not idempotent is sent again after a rate limit it does not wait out. -/
lemma not_kept_nonIdempotent (hid : req.idempotency = .nonIdempotent)
    (hzero : req.policy.maxRetryAfter = .zero) (hpermit : req.permit = .ok ())
    (hheaders : req.headers ≠ []) (hmany : 1 < req.policy.maxAttempts.toNat) :
    ∃ attempts, ¬ Kept parseFromRfc2822 req attempts
      (sendWithRetry parseFromRfc2822 rng req jitter attempts) := by
  obtain ⟨header, headers, hcons⟩ := List.exists_cons_of_ne_nil hheaders
  have hwait := reset_zero parseFromRfc2822 header headers
  rw [← hcons] at hwait
  refine ⟨fun _ => .limited header.name [48], fun hkept => ?_⟩
  have hprepare : req.prepare (.limited header.name [48]) = .ok () := prepare_limited hpermit _ _
  have hverdict : ∃ error, verdict parseFromRfc2822 rng req (.limited header.name [48]) jitter 1 =
      (.decide (.retry error .zero), jitter) := by
    simp only [Attempt.reset, Attempt.limited] at hwait
    simp [verdict, Attempt.limited, Response.isSuccess, Response.isRedirection, decideStatus, hwait,
      RetryRequest.retryable, hid, hzero, spread, Duration.lt_iff]
  obtain ⟨error, hverdict⟩ := hverdict
  have hagain : 1 < (sendWithRetry parseFromRfc2822 rng req jitter fun _ =>
      Attempt.limited header.name [48]).sends := by
    have hgo : ¬ (max req.policy.maxAttempts.toNat 1 ≤ 1 ∨
        req.policy.budget < Duration.zero.saturatingAdd .zero) := by
      rw [not_or, Duration.lt_iff]
      exact ⟨by omega, Nat.not_lt_zero _⟩
    rw [sendWithRetry, sendFrom, hprepare]
    simp only [Nat.zero_add, show min 1 (UInt32.size - 1) = 1 from rfl, hverdict, hgo, if_false]
    exact Nat.succ_lt_succ (sends_sendFrom_pos hprepare)
  have := hkept.atOnce hzero 0 ⟨_, rfl, rfl⟩
  omega

variable (parseFromRfc2822 rng req jitter) in
/-- A call keeps to its policy if it meets no stray answer, and every call does exactly where none
can come or make a difference. -/
theorem retries_kept (hbudget : req.policy.budget < Duration.max) :
    (∀ attempts : ℕ → Attempt, (∀ n, ¬ Stray parseFromRfc2822 req (attempts n)) →
      Kept parseFromRfc2822 req attempts
        (sendWithRetry parseFromRfc2822 rng req jitter attempts)) ∧
    ((∀ attempts : ℕ → Attempt, Kept parseFromRfc2822 req attempts
        (sendWithRetry parseFromRfc2822 rng req jitter attempts)) ↔ req.Settled) := by
  refine ⟨fun attempts => kept_of_not_stray hbudget, fun hkept => ?_, fun hsettled attempts => ?_⟩
  · by_contra hnot
    simp only [RetryRequest.Settled, not_or, not_not, not_and] at hnot
    obtain ⟨hzero, hheaders, hmany, hpermit⟩ := hnot
    cases hid : req.idempotency with
    | idempotent =>
      obtain ⟨attempts, hbad⟩ := not_kept_idempotent hid hzero hpermit hheaders
      exact hbad (hkept attempts)
    | nonIdempotent =>
      obtain ⟨attempts, hbad⟩ := not_kept_nonIdempotent hid hzero hpermit hheaders
        (Nat.lt_of_not_le (hmany hid))
      exact hbad (hkept attempts)
  · obtain hpositive | hheaders | ⟨hid, hone⟩ | hrefused := hsettled
    · exact kept_of_not_stray hbudget fun n h => hpositive h.1
    · refine kept_of_not_stray hbudget fun n ⟨_, _, wait, hwait, _⟩ => ?_
      rw [hheaders] at hwait
      unfold Attempt.reset at hwait
      split at hwait <;> cases hwait
    · exact kept_of_single hbudget hid hone
    · cases hpermit : req.permit with
      | ok => exact absurd hpermit hrefused
      | error error => exact kept_of_refused hpermit

end Claim

/-! ## A policy that waits out no rate limit -/

/-- The sample request, for a platform that says when to try again where only its agent can read
it. -/
def RetryRequest.unwaiting : RetryRequest :=
  { RetryRequest.sample with
    policy := { RetryRequest.sample.policy with maxRetryAfter := .zero } }

/-- A rate limit that names seven seconds ends the call. -/
theorem retries_kept_sample :
    Kept (fun _ => none) .unwaiting (fun _ => .told 429 "7")
      (sendWithRetry (fun _ => none) .least .unwaiting () fun _ => .told 429 "7") := by
  refine (retries_kept (fun _ => none) .least .unwaiting () (by decide)).1 _ ?_
  rintro n ⟨_, _, wait, hwait, rfl⟩
  have hseven : (Attempt.told 429 "7").reset (fun _ => none) [.retryAfter] =
      some (.fromSecs 7) := by decide +kernel
  have : some Duration.zero = some (.fromSecs 7) := hwait.symm.trans hseven
  exact absurd this (by decide)

/-- With `Retry-After: 0` in each answer, the request is sent as often as the policy has attempts,
and none of the times is waited. -/
theorem not_retries_kept :
    let call := sendWithRetry (fun _ => none) .least .unwaiting () fun _ => .told 429 "0"
    RetryRequest.unwaiting.policy.maxRetryAfter = .zero ∧ call.sends = 3 ∧
      call.sleeps = [.zero, .zero] ∧
      ¬ Kept (fun _ => none) .unwaiting (fun _ => .told 429 "0") call := by
  intro call
  have hsends : call.sends = 3 := by decide +kernel
  refine ⟨rfl, hsends, by decide +kernel, fun hkept => ?_⟩
  have := hkept.atOnce rfl 0 ⟨_, rfl, rfl⟩
  omega

end Postit.Http
