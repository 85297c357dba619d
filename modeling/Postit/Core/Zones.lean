import Postit.Core.Calendar
import Postit.Framework.Durations

/-!
# Dates and time zones

A local time is a number of nanoseconds since 1970, by the clock of some place.  Of a time zone it
is assumed that a local time is shown at no instant, at one or at two.  The calendar has a first and
a last day: what leaves it is `none`, which is a panic where the code does not ask first.
-/

namespace Postit.Chrono

open Postit.Framework

/-- The nanoseconds of a day. -/
def dayNanos : ℤ := 86400 * 10 ^ 9

/-- The nanoseconds of an hour. -/
def hourNanos : ℤ := 3600 * 10 ^ 9

/-! ## Dates -/

/-- The first day of the calendar: the first of the year `-262143`. -/
def NaiveDate.minDay : ℤ := -96465292

/-- The last day of the calendar: the last of the year `262142`. -/
def NaiveDate.maxDay : ℤ := 95026236

/-- `chrono::NaiveDate` -/
structure NaiveDate where
  day : ℤ
  le_day : NaiveDate.minDay ≤ day
  day_le : day ≤ NaiveDate.maxDay

namespace NaiveDate

/-- The date of a day, if it is in the calendar. -/
def ofDay (day : ℤ) : Option NaiveDate :=
  if h : minDay ≤ day ∧ day ≤ maxDay then some ⟨day, h.1, h.2⟩ else none

def checkedAddDays (date : NaiveDate) (days : ℕ) : Option NaiveDate := ofDay (date.day + days)

/-- The date of another day of the month, if there is one. -/
def withDay (date : NaiveDate) (n : ℕ) : Option NaiveDate :=
  if 1 ≤ n ∧ n ≤ monthLength (monthOf date.day) then ofDay (monthStart (monthOf date.day) + n - 1)
  else none

/-- The same day of a later month, or the last when that is shorter. -/
def checkedAddMonths (date : NaiveDate) (months : ℕ) : Option NaiveDate :=
  let month := monthOf date.day + months
  ofDay (monthStart month +
    min (date.day - monthStart (monthOf date.day)) ((monthLength month : ℤ) - 1))

/-- The local time of a whole hour, counted from midnight. -/
def atHour (date : NaiveDate) (hour : ℕ) : ℤ := date.day * dayNanos + hour * hourNanos

/-- Midnight, in UTC. -/
def andUtc (date : NaiveDate) : Instant where
  nanos := date.atHour 0
  le_nanos := by
    have := date.le_day
    simp only [minDay, atHour, dayNanos, Instant.minUtc] at *
    omega
  nanos_le := by
    have := date.day_le
    simp only [maxDay, atHour, dayNanos, Instant.maxUtc] at *
    omega

@[ext] lemma ext {date date' : NaiveDate} (h : date.day = date'.day) : date = date' := by
  cases date
  cases date'
  simpa using h

lemma ofDay_eq_some {day : ℤ} {date : NaiveDate} : ofDay day = some date ↔ date.day = day := by
  unfold ofDay
  split
  · simp only [Option.some.injEq]
    exact ⟨fun h => h ▸ rfl, fun h => NaiveDate.ext h.symm⟩
  · next hout =>
    simp only [reduceCtorEq, false_iff]
    rintro rfl
    exact hout ⟨date.le_day, date.day_le⟩

end NaiveDate

/-! ## Time zones -/

/-- The instants that show a local time. -/
inductive LocalResult
  | none
  | single (at_ : Instant)
  | ambiguous (earliest latest : Instant)

/-- The instant is one of them. -/
def LocalResult.Has : LocalResult → Instant → Prop
  | .none, _ => False
  | .single at_, t => t = at_
  | .ambiguous earliest latest, t => t = earliest ∨ t = latest

/-- The first of them. -/
def LocalResult.earliest : LocalResult → Option Instant
  | .none => Option.none
  | .single at_ => some at_
  | .ambiguous earliest _ => some earliest

/-- A time zone: the local time at each instant, and the instants of each local time. -/
structure Zone where
  toLocal : Instant → ℤ
  fromLocal : ℤ → LocalResult
  has_fromLocal : ∀ l t, (fromLocal l).Has t ↔ toLocal t = l
  ordered : ∀ l earliest latest, fromLocal l = .ambiguous earliest latest →
    earliest.nanos < latest.nanos

namespace Zone

/-- The local day at an instant. -/
def day (zone : Zone) (t : Instant) : ℤ := zone.toLocal t / dayNanos

/-- The local date at an instant, if it is in the calendar. -/
def dateNaive (zone : Zone) (t : Instant) : Option NaiveDate := NaiveDate.ofDay (zone.day t)

lemma earliest_eq_none {zone : Zone} {l : ℤ} :
    (zone.fromLocal l).earliest = none ↔ ∀ t, zone.toLocal t ≠ l := by
  have hhas := zone.has_fromLocal l
  cases hl : zone.fromLocal l with
  | none => simpa [hl, LocalResult.earliest, LocalResult.Has] using hhas
  | single at_ | ambiguous at_ _ =>
    simp only [LocalResult.earliest, reduceCtorEq, false_iff, not_forall, not_not]
    exact ⟨at_, (hhas at_).mp (by simp [hl, LocalResult.Has])⟩

/-- The earliest instant of a local time is the first that shows it. -/
lemma earliest_eq_some {zone : Zone} {l : ℤ} {t : Instant} :
    (zone.fromLocal l).earliest = some t ↔
      zone.toLocal t = l ∧ ∀ t', zone.toLocal t' = l → t.nanos ≤ t'.nanos := by
  have hhas := zone.has_fromLocal l
  have hordered := zone.ordered l
  cases hl : zone.fromLocal l with
  | none =>
    simp only [hl, LocalResult.Has, false_iff] at hhas
    simp [LocalResult.earliest, hhas]
  | single at_ =>
    simp only [hl, LocalResult.Has] at hhas
    simp only [LocalResult.earliest, Option.some.injEq, ← hhas]
    constructor
    · rintro rfl
      exact ⟨rfl, fun t' h => le_of_eq (congrArg _ h.symm)⟩
    · exact fun h => h.1.symm
  | ambiguous earliest latest =>
    have hlt := hordered _ _ hl
    simp only [hl, LocalResult.Has] at hhas
    simp only [LocalResult.earliest, Option.some.injEq, ← hhas]
    constructor
    · rintro rfl
      refine ⟨.inl rfl, ?_⟩
      rintro t' (rfl | rfl)
      · exact le_rfl
      · exact hlt.le
    · rintro ⟨rfl | rfl, hfirst⟩
      · rfl
      · exact absurd (hfirst _ (.inl rfl)) (not_le.mpr hlt)

/-- UTC, whose clock shows the instant itself. -/
def utc : Zone where
  toLocal t := t.nanos
  fromLocal l :=
    if h : Instant.minUtc ≤ l ∧ l ≤ Instant.maxUtc then .single ⟨l, h.1, h.2⟩ else .none
  has_fromLocal l t := by
    split
    · simp only [LocalResult.Has]
      exact ⟨fun h => h ▸ rfl, fun h => by cases t; cases h; rfl⟩
    · next hout =>
      simp only [LocalResult.Has, false_iff]
      rintro rfl
      exact hout ⟨t.le_nanos, t.nanos_le⟩
  ordered l earliest latest h := by
    split at h <;> cases h

end Zone

end Postit.Chrono
