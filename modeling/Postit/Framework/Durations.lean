import Postit.Core.Text

/-!
# Durations and instants

Both count nanoseconds and have a range.  A duration of seconds that is out of range cannot be made,
which is a panic; an instant moved out of its range is no instant, which is `none`.  The durations
without a sign are a type of their own, whose arithmetic stops at the longest one.
-/

namespace Postit.Framework

/-! ## Durations -/

/-- The longest duration: the largest signed 64-bit count of milliseconds. -/
def TimeDelta.limit : ℤ := maxI64 * 10 ^ 6

/-- `chrono::TimeDelta` -/
structure TimeDelta where
  nanos : ℤ
  le_nanos : -TimeDelta.limit ≤ nanos
  nanos_le : nanos ≤ TimeDelta.limit

namespace TimeDelta

/-- A duration of so many nanoseconds, if it is in range. -/
def ofNanos (n : ℤ) : Option TimeDelta :=
  if h : -limit ≤ n ∧ n ≤ limit then some ⟨n, h.1, h.2⟩ else none

/-- `chrono::Duration::seconds`, with `none` for its panic. -/
def seconds (s : ℤ) : Option TimeDelta := ofNanos (s * 10 ^ 9)

/-- `chrono::Duration::from_std`, of nanoseconds without a sign. -/
def fromStd (n : ℕ) : Option TimeDelta := ofNanos n

lemma nanos_of_ofNanos {n : ℤ} {d : TimeDelta} (h : ofNanos n = some d) : d.nanos = n := by
  unfold ofNanos at h
  split at h
  · cases h
    rfl
  · cases h

lemma ofNanos_eq_none_iff {n : ℤ} : ofNanos n = none ↔ n < -limit ∨ limit < n := by
  unfold ofNanos
  split
  · next h =>
    simp only [reduceCtorEq, false_iff]
    omega
  · next h =>
    simp only [true_iff]
    omega

/-- The seconds that are no duration. -/
lemma seconds_eq_none_iff {s : ℤ} :
    seconds s = none ↔ s < -(maxI64 / 1000) ∨ maxI64 / 1000 < s := by
  rw [seconds, ofNanos_eq_none_iff]
  simp only [limit, maxI64]
  omega

end TimeDelta

/-! ## Instants -/

/-- The first instant, in nanoseconds from 1970: the start of the year `-262143`. -/
def Instant.minUtc : ℤ := -8334601228800 * 10 ^ 9

/-- The last instant: the end of the year `262142`. -/
def Instant.maxUtc : ℤ := 8210266876800 * 10 ^ 9 - 1

/-- `chrono::DateTime<Utc>` -/
@[ext] structure Instant where
  nanos : ℤ
  le_nanos : Instant.minUtc ≤ nanos
  nanos_le : nanos ≤ Instant.maxUtc

namespace Instant

lemma minUtc_le_zero : minUtc ≤ 0 := by decide

lemma zero_le_maxUtc : 0 ≤ maxUtc := by decide

/-- `t - u`, which is always in range. -/
def signedDurationSince (t u : Instant) : TimeDelta where
  nanos := t.nanos - u.nanos
  le_nanos := by
    have ht := t.le_nanos
    have hu := u.nanos_le
    simp only [minUtc, maxUtc, TimeDelta.limit, maxI64] at *
    omega
  nanos_le := by
    have ht := t.nanos_le
    have hu := u.le_nanos
    simp only [minUtc, maxUtc, TimeDelta.limit, maxI64] at *
    omega

def checkedAddSigned (t : Instant) (d : TimeDelta) : Option Instant :=
  if h : minUtc ≤ t.nanos + d.nanos ∧ t.nanos + d.nanos ≤ maxUtc then
    some ⟨t.nanos + d.nanos, h.1, h.2⟩
  else none

lemma nanos_of_checkedAddSigned {t u : Instant} {d : TimeDelta}
    (h : t.checkedAddSigned d = some u) : u.nanos = t.nanos + d.nanos := by
  unfold checkedAddSigned at h
  split at h
  · cases h
    rfl
  · cases h

/-- A duration that is not negative leads out of the range at its end only. -/
lemma checkedAddSigned_eq_none_iff {t : Instant} {d : TimeDelta} (hd : 0 ≤ d.nanos) :
    t.checkedAddSigned d = none ↔ maxUtc < t.nanos + d.nanos := by
  have := t.le_nanos
  unfold checkedAddSigned
  split
  · next h =>
    simp only [reduceCtorEq, false_iff]
    omega
  · next h =>
    simp only [true_iff]
    omega

end Instant

/-! ## Durations without a sign -/

/-- The longest of them. -/
def Duration.limit : ℕ := (2 ^ 64 - 1) * 10 ^ 9 + 999999999

/-- `std::time::Duration` -/
@[ext] structure Duration where
  nanos : ℕ
  nanos_le : nanos ≤ Duration.limit
  deriving DecidableEq

namespace Duration

/-- So many nanoseconds, or the longest duration. -/
def capped (n : ℕ) : Duration := ⟨min n limit, Nat.min_le_right n limit⟩

def zero : Duration := ⟨0, Nat.zero_le limit⟩

/-- `Duration::MAX` -/
def max : Duration := ⟨limit, Nat.le_refl limit⟩

/-- `Duration::from_nanos`, of a `u64`. -/
def fromNanos (n : ℕ) : Duration := capped n

/-- `Duration::from_millis`, of a `u64`. -/
def fromMillis (n : ℕ) : Duration := capped (n * 10 ^ 6)

/-- `Duration::from_secs`, of a `u64`. -/
def fromSecs (n : ℕ) : Duration := capped (n * 10 ^ 9)

instance : LE Duration := ⟨fun a b => a.nanos ≤ b.nanos⟩

instance : LT Duration := ⟨fun a b => a.nanos < b.nanos⟩

instance (a b : Duration) : Decidable (a ≤ b) := inferInstanceAs (Decidable (a.nanos ≤ b.nanos))

instance (a b : Duration) : Decidable (a < b) := inferInstanceAs (Decidable (a.nanos < b.nanos))

lemma le_iff {a b : Duration} : a ≤ b ↔ a.nanos ≤ b.nanos := Iff.rfl

lemma lt_iff {a b : Duration} : a < b ↔ a.nanos < b.nanos := Iff.rfl

lemma zero_le (a : Duration) : zero ≤ a := Nat.zero_le a.nanos

def saturatingAdd (a b : Duration) : Duration := capped (a.nanos + b.nanos)

def saturatingMul (a : Duration) (n : ℕ) : Duration := capped (a.nanos * n)

/-- `TimeDelta::to_std`, with `none` for its error. -/
def ofTimeDelta (d : TimeDelta) : Option Duration :=
  if 0 ≤ d.nanos then some (capped d.nanos.toNat) else none

@[simp] lemma nanos_capped (n : ℕ) : (capped n).nanos = min n limit := rfl

@[simp] lemma nanos_zero : zero.nanos = 0 := rfl

@[simp] lemma nanos_max : max.nanos = limit := rfl

@[simp] lemma nanos_saturatingAdd (a b : Duration) :
    (a.saturatingAdd b).nanos = min (a.nanos + b.nanos) limit := rfl

lemma le_saturatingAdd (a b : Duration) : a ≤ a.saturatingAdd b := by
  have := a.nanos_le
  rw [le_iff, nanos_saturatingAdd]
  omega

/-- A total below the longest duration is the exact sum. -/
lemma nanos_of_saturatingAdd_lt {a b : Duration} (h : a.saturatingAdd b < max) :
    (a.saturatingAdd b).nanos = a.nanos + b.nanos := by
  rw [lt_iff, nanos_max, nanos_saturatingAdd] at h
  rw [nanos_saturatingAdd]
  omega

end Duration

end Postit.Framework
