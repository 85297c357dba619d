import Postit.Framework.Results
import Postit.Validation.Engine

/-!
# Schedule checks that return

A native schedule is compared with the platform's window, whose leads are made durations first.
Descriptors bound a lead by nothing but 64 bits, and a duration ends a thousand times earlier.
-/

namespace Postit.Validation

open Postit.Framework

/-- The longest lead that is a duration, in seconds. -/
def longestLead : ℤ := maxI64 / 1000

lemma leadDuration_eq_none_iff (secs : ℕ) : leadDuration secs = none ↔ longestLead < secs := by
  rw [leadDuration, TimeDelta.seconds_eq_none_iff, longestLead]
  simp only [maxI64]
  omega

/-- A window is compared with the lead unless one of its own leads is no duration. -/
lemma checkWindow_eq_none_iff (window : NativeScheduleWindow) (lead : TimeDelta) :
    checkWindow window lead = none ↔
      longestLead < window.minLeadSecs ∨ longestLead < window.maxLeadSecs := by
  rw [← leadDuration_eq_none_iff, ← leadDuration_eq_none_iff]
  unfold checkWindow
  cases hmin : leadDuration window.minLeadSecs with
  | none => simp
  | some shortest =>
    cases hmax : leadDuration window.maxLeadSecs with
    | none => simp
    | some longest => simp

/-! ## What a valid descriptor promises -/

section Valid

variable {d : AgentDescriptor} {graphemeLen : String → ℕ} {isRfc3339 : String → Bool}

lemma checkNativeSchedule_of_validate (h : d.validate graphemeLen isRfc3339 = .ok ()) :
    d.checkNativeSchedule = .ok () := by
  unfold AgentDescriptor.validate at h
  split at h
  · cases h
  obtain ⟨⟨⟩, -, h⟩ := bind_eq_ok h
  split at h
  · cases h
  split at h
  · cases h
  split at h
  · cases h
  obtain ⟨⟨⟩, hnative, -⟩ := bind_eq_ok h
  exact hnative

/-- A window comes with the capability, and its shortest lead is not above its longest. -/
lemma window_of_validate (h : d.validate graphemeLen isRfc3339 = .ok ())
    {window : NativeScheduleWindow} (hwindow : d.nativeSchedule = some window) :
    d.supportsNativeSchedule ∧ window.minLeadSecs ≤ window.maxLeadSecs := by
  have hnative := checkNativeSchedule_of_validate h
  unfold AgentDescriptor.checkNativeSchedule at hnative
  split at hnative
  · cases hnative
  · next hcapable =>
    rw [hwindow] at hnative hcapable
    have hcapable : Capability.nativeScheduler ∈ d.capabilities := by simpa using hcapable
    constructor
    · simp [AgentDescriptor.supportsNativeSchedule, hwindow, hcapable]
    · by_contra hlt
      simp only [if_pos (Nat.lt_of_not_le hlt)] at hnative
      cases hnative

end Valid

/-! ## The check -/

/-- The time asked for is too far in the past. -/
def ValidationInput.IsPast (input : ValidationInput) (time : Instant) : Prop :=
  (time.signedDurationSince input.now).nanos < -(scheduleGraceSecs * 10 ^ 9)

/-- Where the platform is to hold the post itself, the longest lead it declares is a duration. -/
def ValidationInput.InRange (input : ValidationInput) : Prop :=
  ∀ time window, input.schedule = .at_ time true → ¬ input.IsPast time →
    input.descriptor.nativeSchedule = some window → window.maxLeadSecs ≤ longestLead

/-- A schedule's check panics only where the window is compared with the lead. -/
lemma checkSchedule_eq_none_iff (input : ValidationInput) :
    checkSchedule input = none ↔
      ∃ time window, input.schedule = .at_ time true ∧ ¬ input.IsPast time ∧
        input.descriptor.supportsNativeSchedule ∧ input.descriptor.nativeSchedule = some window ∧
        checkWindow window (time.signedDurationSince input.now) = none := by
  unfold checkSchedule
  cases input.schedule with
  | now => simp
  | at_ time native =>
    by_cases hpast : input.IsPast time
    · have hlead : (time.signedDurationSince input.now).nanos < -(scheduleGraceSecs * 10 ^ 9) :=
        hpast
      simp only [if_pos hlead, reduceCtorEq, false_iff, Schedule.at_.injEq]
      rintro ⟨_, _, ⟨rfl, -⟩, hnot, -⟩
      exact hnot hpast
    · have hlead : ¬ (time.signedDurationSince input.now).nanos < -(scheduleGraceSecs * 10 ^ 9) :=
        hpast
      simp only [if_neg hlead]
      cases native <;> cases input.descriptor.supportsNativeSchedule <;>
        cases input.descriptor.nativeSchedule <;> simp [hpast]

/-- Validating a target returns where checking its schedule does. -/
lemma validateTarget_eq_none_iff (lib : Library) (input : ValidationInput) :
    validateTarget lib input = none ↔ checkSchedule input = none := by
  unfold validateTarget
  cases checkSchedule input <;> simp

/-- For a valid descriptor, checking a schedule returns exactly where no lead too long to be a
duration is compared with, and so does validating the target. -/
theorem checkSchedule_returns (lib : Library) (graphemeLen : String → ℕ)
    (isRfc3339 : String → Bool) (input : ValidationInput)
    (hvalid : input.descriptor.validate graphemeLen isRfc3339 = .ok ()) :
    (checkSchedule input ≠ none ↔ input.InRange) ∧
      (validateTarget lib input ≠ none ↔ input.InRange) := by
  rw [ne_eq, ne_eq, validateTarget_eq_none_iff, and_self, checkSchedule_eq_none_iff]
  constructor
  · intro h time window hschedule hpast hwindow
    by_contra hlong
    refine h ⟨time, window, hschedule, hpast, (window_of_validate hvalid hwindow).1, hwindow, ?_⟩
    exact (checkWindow_eq_none_iff _ _).mpr (.inr (not_le.mp hlong))
  · rintro h ⟨time, window, hschedule, hpast, -, hwindow, hnone⟩
    have hmax := h time window hschedule hpast hwindow
    have hmin := (window_of_validate hvalid hwindow).2
    rcases (checkWindow_eq_none_iff _ _).mp hnone with hlong | hlong <;> omega

/-- A platform that holds a post for up to a number of seconds. -/
def holding (maxLeadSecs : ℕ) : AgentDescriptor where
  platform := "demo"
  iconPng := [1]
  brandColor := "#112233"
  kind := .broadcast
  formats := [{
    id := .text
    text := { measure := .graphemes, max := 500, required := false }
    media := {} }]
  capabilities := [.nativeScheduler]
  nativeSchedule := some ⟨0, maxLeadSecs⟩
  optionsSchema := ⟨[]⟩

/-- A text that the platform is to publish in an hour. -/
def inAnHour (maxLeadSecs : ℕ) : ValidationInput where
  descriptor := holding maxLeadSecs
  optionsSchema := ⟨[]⟩
  variant := {
    target := { platform := "demo", account := 1, remoteId := "remote" }
    kind := .post
    text := "hello".toList
    link := none
    tags := []
    media := []
    discloseAiGenerated := false
    replyTo := none
    email := none
    options := [] }
  media := []
  schedule := .at_ ⟨3600 * 10 ^ 9, by decide, by decide⟩ true
  now := ⟨0, Instant.minUtc_le_zero, Instant.zero_le_maxUtc⟩

theorem checkSchedule_returns_sample :
    (inAnHour 86400).descriptor.validate (fun _ => 0) (fun _ => false) = .ok () ∧
      (checkSchedule (inAnHour 86400) ≠ none ↔ (inAnHour 86400).InRange) :=
  ⟨rfl, (checkSchedule_returns asciiLibrary (fun _ => 0) (fun _ => false) (inAnHour 86400) rfl).1⟩

/-- A lead of `2 ^ 63` seconds, which validation accepts, panics the check of any native
schedule. -/
theorem not_checkSchedule_returns :
    ¬ ∀ (graphemeLen : String → ℕ) (isRfc3339 : String → Bool) (input : ValidationInput),
      input.descriptor.validate graphemeLen isRfc3339 = .ok () → checkSchedule input ≠ none := by
  intro h
  exact h (fun _ => 0) (fun _ => false) (inAnHour (2 ^ 63)) rfl (by decide)

end Postit.Validation
