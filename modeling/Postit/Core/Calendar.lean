import Mathlib.Algebra.BigOperators.Intervals
import Mathlib.Data.Int.ConditionallyCompleteOrder
import Mathlib.Data.Nat.Find
import Mathlib.Order.GaloisConnection.Defs
import Mathlib.Order.Monotone.Basic
import Postit.Core.Chrono

/-!
# Days, months and years

Days are counted from 1 January 1970, months from January of the year `0`, both without bounds.
`monthStart` and `monthOf` are adjoint, which is all that the periods of a month rest on.
-/

namespace Postit.Chrono

/-! ## Years -/

/-- The day a year starts on. -/
def yearStart (year : ℤ) : ℤ :=
  365 * (year - 1970) + ((year - 1) / 4 - (year - 1) / 100 + (year - 1) / 400) - 477

/-- The number of days in a year. -/
def daysInYear (year : ℤ) : ℕ := if isLeapYear year then 366 else 365

lemma yearStart_succ (year : ℤ) : yearStart (year + 1) = yearStart year + daysInYear year := by
  unfold yearStart daysInYear isLeapYear
  split_ifs with h
  · simp only [Bool.and_eq_true, Bool.or_eq_true, decide_eq_true_eq, bne_iff_ne] at h
    omega
  · simp only [Bool.and_eq_true, Bool.or_eq_true, decide_eq_true_eq, bne_iff_ne, not_and_or,
      not_or] at h
    omega

/-- The year of a day, one off at most. -/
def yearGuess (day : ℤ) : ℤ := 400 * day / 146097 + 1970

/-- The year of a day. -/
def yearOf (day : ℤ) : ℤ :=
  if day < yearStart (yearGuess day) then yearGuess day - 1
  else if yearStart (yearGuess day + 1) ≤ day then yearGuess day + 1
  else yearGuess day

lemma yearStart_yearOf (day : ℤ) :
    yearStart (yearOf day) ≤ day ∧ day < yearStart (yearOf day + 1) := by
  unfold yearOf
  split_ifs with h h'
  · refine ⟨?_, by rwa [sub_add_cancel]⟩
    unfold yearGuess yearStart at *
    omega
  · refine ⟨h', ?_⟩
    unfold yearGuess yearStart at *
    omega
  · omega

/-! ## Months -/

/-- The number of days in a month, counted from January of the year `0`. -/
def monthLength (month : ℤ) : ℕ := daysInMonth (month / 12) ((month % 12).toNat + 1)

/-- The days of a year before one of its months, January the month `0`. -/
def daysBefore (year : ℤ) (month : ℕ) : ℕ := ∑ m ∈ Finset.range month, daysInMonth year (m + 1)

/-- The day a month starts on. -/
def monthStart (month : ℤ) : ℤ :=
  yearStart (month / 12) + daysBefore (month / 12) (month % 12).toNat

lemma daysBefore_twelve (year : ℤ) : daysBefore year 12 = daysInYear year := by
  unfold daysBefore daysInYear
  simp only [Finset.sum_range_succ, Finset.sum_range_zero, daysInMonth]
  split_ifs <;> rfl

lemma monthStart_succ (month : ℤ) :
    monthStart (month + 1) = monthStart month + monthLength month := by
  unfold monthStart monthLength
  by_cases hlast : month % 12 = 11
  · have hyear : (month + 1) / 12 = month / 12 + 1 := by omega
    have hmonth : (month + 1) % 12 = 0 := by omega
    rw [hyear, hmonth, hlast, yearStart_succ, ← daysBefore_twelve]
    simp [daysBefore, Finset.sum_range_succ]
    omega
  · have hyear : (month + 1) / 12 = month / 12 := by omega
    have hmonth : ((month + 1) % 12).toNat = (month % 12).toNat + 1 := by omega
    rw [hyear, hmonth, daysBefore, Finset.sum_range_succ, daysBefore]
    omega

lemma monthLength_pos (month : ℤ) : 0 < monthLength month := by
  unfold monthLength daysInMonth
  split <;> first | split_ifs | skip
  all_goals omega

lemma monthStart_strictMono : StrictMono monthStart := by
  refine strictMono_int_of_lt_succ fun month => ?_
  have := monthLength_pos month
  rw [monthStart_succ]
  omega

/-- The month of a day. -/
def monthOf (day : ℤ) : ℤ :=
  12 * yearOf day +
    Nat.findGreatest (fun m => yearStart (yearOf day) + daysBefore (yearOf day) m ≤ day) 11

lemma monthStart_of_lt {year : ℤ} {m : ℕ} (h : m < 12) :
    monthStart (12 * year + m) = yearStart year + daysBefore year m := by
  have hyear : (12 * year + m) / 12 = year := by omega
  have hmonth : ((12 * year + m) % 12).toNat = m := by omega
  rw [monthStart, hyear, hmonth]

lemma monthStart_monthOf (day : ℤ) :
    monthStart (monthOf day) ≤ day ∧ day < monthStart (monthOf day + 1) := by
  obtain ⟨hstart, hend⟩ := yearStart_yearOf day
  unfold monthOf
  set year := yearOf day
  set P := fun m => yearStart year + daysBefore year m ≤ day with hP
  set m := Nat.findGreatest P 11 with hm
  have hle : m ≤ 11 := Nat.findGreatest_le 11
  have hfirst : P 0 := by simpa [hP, daysBefore] using hstart
  have hspec : P m := Nat.findGreatest_spec (Nat.zero_le 11) hfirst
  refine ⟨by rw [monthStart_of_lt (by omega)]; exact hspec, ?_⟩
  by_cases hlast : m = 11
  · have hnext : 12 * year + (m : ℤ) + 1 = 12 * (year + 1) + (0 : ℕ) := by omega
    rw [hnext, monthStart_of_lt (by omega)]
    simpa [daysBefore] using hend
  · have hnext : 12 * year + (m : ℤ) + 1 = 12 * year + (m + 1 : ℕ) := by omega
    have hnot : ¬ P (m + 1) := Nat.findGreatest_is_greatest (Nat.lt_succ_self m) (by omega)
    rw [hnext, monthStart_of_lt (by omega)]
    exact not_le.mp hnot

/-- A month has started by a day exactly when it is not after the day's month. -/
lemma gc_monthStart_monthOf : GaloisConnection monthStart monthOf := by
  intro month day
  obtain ⟨hstart, hend⟩ := monthStart_monthOf day
  constructor
  · intro h
    have hlt := monthStart_strictMono.lt_iff_lt.mp (h.trans_lt hend)
    omega
  · intro h
    exact (monthStart_strictMono.monotone h).trans hstart

lemma monthOf_monthStart (month : ℤ) : monthOf (monthStart month) = month := by
  have hle := (gc_monthStart_monthOf month _).mp le_rfl
  have hge := monthStart_strictMono.le_iff_le.mp (monthStart_monthOf (monthStart month)).1
  omega

end Postit.Chrono
