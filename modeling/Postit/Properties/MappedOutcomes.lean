import Postit.Publishing.Outcome

/-!
# A platform's answer always fits

Whatever a publish call answers, the event it is mapped to is one the delivery's state takes, and
the work that follows is the work of the state it moves to.
-/

namespace Postit.Publishing

open Postit.Data

variable {error : AgentError} {attemptCount maxAttempts pick : ℕ} {now delay : Time}

/-- The longest the engine's own backoff delays a retry. -/
def retryMax : Time := 30 * 60 * second

lemma le_later (hnow : now ≤ maxUtc) (hdelay : 0 ≤ delay) : now ≤ later now delay := by
  have hsum : now ≤ now + delay := Int.le_add_of_nonneg_right hdelay
  exact le_min hsum hnow

lemma later_le {cap : Time} (hdelay : delay ≤ cap) : later now delay ≤ now + cap :=
  (min_le_left _ _).trans (Int.add_le_add_left hdelay now)

lemma retryCeiling_ge (attempt : ℕ) : 1000 ≤ retryCeiling attempt := by
  have hpow : (1 : ℤ) ≤ 2 ^ min attempt 31 := Int.pow_pos (by decide)
  refine le_min ?_ (by decide)
  calc (1000 : ℤ) ≤ 30 * 1000000 * 1 := by decide
    _ ≤ 30 * 1000000 * 2 ^ min attempt 31 := Int.mul_le_mul_of_nonneg_left hpow (by decide)

/-- A pick of whole milliseconds from a range of at least one. -/
lemma pick_bounds (c p : ℤ) (hc : 1000 ≤ c) :
    0 ≤ 1000 * (1 + p % (c / 1000)) ∧ 1000 * (1 + p % (c / 1000)) ≤ c := by
  have hwhole : 0 < c / 1000 := by omega
  have hlow := Int.emod_nonneg p hwhole.ne'
  have hhigh := Int.emod_lt_of_pos p hwhole
  omega

/-- The engine's own delay is not negative, and no longer than its cap. -/
lemma retryDelay_bounds (pick attempt : ℕ) :
    0 ≤ retryDelay pick attempt ∧ retryDelay pick attempt ≤ retryMax := by
  obtain ⟨hlow, hhigh⟩ := pick_bounds (retryCeiling attempt) pick (retryCeiling_ge attempt)
  exact ⟨hlow, hhigh.trans (min_le_right _ _)⟩

/-- What is right about a result that is mapped. -/
structure Mapped.Fits (m : Mapped) (now : Time) (s : DeliveryState) : Prop where
  accepted : transition .inFlight m.event = .ok s
  redispatch : m.followUp = .redispatch ↔ s = .pending
  poll : (∃ at_, m.followUp = .poll at_) ↔ s = .processing
  reconcile : m.followUp = .reconcile ↔ s = .outcomeUnknown
  retried : m.event = .retryableFailure → ∃ at_, m.data.nextAttemptAt = some at_
  notBefore : ∀ at_, m.data.nextAttemptAt = some at_ → now ≤ at_
  notAfter : ∀ at_, m.data.nextAttemptAt = some at_ → at_ ≤ now + max retryMax maxRetryAfter
  parked : m.event = .park .quotaExceeded → ∃ until_, m.data.parkedUntil = some until_

/-- A failure that is tried again, or was the last one. -/
lemma fits_retry (hnow : now ≤ maxUtc) (hlow : 0 ≤ delay)
    (hhigh : delay ≤ max retryMax maxRetryAfter) :
    ∃ s, (retry error attemptCount maxAttempts now delay).Fits now s := by
  unfold retry
  split_ifs
  · exact ⟨.deadLetter, rfl, by simp, by simp, by simp, by simp, by simp [failed], by simp [failed],
      by simp⟩
  · refine ⟨.pending, rfl, by simp, by simp, by simp, by simp, ?_, ?_, by simp⟩
    · rintro _ ⟨⟩
      exact le_later hnow hlow
    · rintro _ ⟨⟩
      exact later_le hhigh

/-- Only a rate limit says when to come back. -/
lemma rateLimited_of_retryAfter {after : Time} (h : error.retryClass = .retryAfter after) :
    error = .rateLimited (some after) := by
  cases error with
  | rateLimited retryAfter =>
    cases retryAfter with
    | none => cases h
    | some found => rw [RetryClass.retryAfter.inj h]
  | remote status =>
    cases status with
    | none => cases h
    | some code =>
      simp only [AgentError.retryClass] at h
      split_ifs at h
  | _ => cases h

/-- An error, by its class. -/
lemma fits_error (attemptCount maxAttempts : ℕ) (cancel : CancelCause)
    (descriptor : AgentDescriptor) (pick : ℕ) (hnow : now ≤ maxUtc)
    (hafter : ∀ after, error.retryClass = .retryAfter after → 0 ≤ after) :
    (map (.error error) attemptCount maxAttempts now cancel descriptor pick = none ∧
        error.retryClass = .cancelled ∧ cancel = .leaseLost) ∨
      (¬ (error.retryClass = .cancelled ∧ cancel = .leaseLost) ∧
        ∃ m, map (.error error) attemptCount maxAttempts now cancel descriptor pick = some m ∧
          ∃ s, m.Fits now s) := by
  obtain ⟨hlow, hhigh⟩ := retryDelay_bounds pick attemptCount
  have hown : ∃ s, (retry error attemptCount maxAttempts now
      (retryDelay pick attemptCount)).Fits now s :=
    fits_retry hnow hlow (hhigh.trans (le_max_left _ _))
  simp only [map]
  cases hclass : error.retryClass with
  | retryable => exact .inr ⟨by simp, _, rfl, hown⟩
  | retryAfter after =>
    refine .inr ⟨by simp, _, rfl, fits_retry hnow ?_ ?_⟩
    · exact le_min (hafter after hclass) (by decide)
    · exact (min_le_right _ _).trans (le_max_right _ _)
  | permanent =>
    exact .inr ⟨by simp, _, rfl, .failed, rfl, by simp, by simp, by simp, by simp,
      by simp [failed], by simp [failed], by simp⟩
  | needsReconnect =>
    refine .inr ⟨by simp, _, rfl, .parked .accountNeedsReconnect, rfl, ?_, ?_, ?_, by simp,
      by simp [failed], by simp [failed], by simp⟩
    · dsimp only
      split_ifs <;> simp
    · dsimp only
      split_ifs <;> simp
    · dsimp only
      split_ifs <;> simp
  | quotaExceeded =>
    exact .inr ⟨by simp, _, rfl, .parked .quotaExceeded, rfl, by simp, by simp, by simp, by simp,
      by simp [failed], by simp [failed], fun _ => ⟨_, rfl⟩⟩
  | ambiguous =>
    exact .inr ⟨by simp, _, rfl, .outcomeUnknown, rfl, by simp, by simp, by simp, by simp,
      by simp [failed], by simp [failed], by simp⟩
  | cancelled =>
    cases cancel with
    | leaseLost => exact .inl ⟨rfl, rfl, rfl⟩
    | user =>
      exact .inr ⟨by simp, _, rfl, .cancelled, rfl, by simp, by simp, by simp, by simp, by simp,
        by simp, by simp⟩
    | shutdown =>
      exact .inr ⟨by simp, _, rfl, .pending, rfl, by simp, by simp, by simp, by simp, by simp,
        by simp, by simp⟩
    | none => exact .inr ⟨by simp, _, rfl, hown⟩

end Postit.Publishing
