import Mathlib.Data.Fintype.Powerset
import Mathlib.Data.List.TakeWhile
import Mathlib.Data.Nat.Digits.Defs
import Mathlib.Tactic.Ring
import Postit.Core.Recurrence
import Postit.Framework.Results

/-!
# The canonical form of a recurrence rule

Every accepted rule whose `UNTIL` has no negative year prints as a rule that is accepted and reads
back as itself, whatever the order of the pairs it was read from.  A negative year takes a sign, and
with it one character more than an `UNTIL` may have.
-/

namespace Postit.Chrono

/-! ## Reading numbers -/

lemma digit?_digitChar (n : ℕ) : digit? (digitChar n) = some (n % 10) := by
  have hall : ∀ m < 10, digit? (Char.ofNat (48 + m)) = some m := by decide
  exact hall (n % 10) (Nat.mod_lt n (by omega))

lemma isDigit_digitChar (n : ℕ) : (digitChar n).isDigit = true := by
  have hall : ∀ m < 10, (Char.ofNat (48 + m)).isDigit = true := by decide
  exact hall (n % 10) (Nat.mod_lt n (by omega))

/-- A digit is neither white space nor a sign. -/
lemma of_isDigit {c : Char} (h : c.isDigit = true) :
    isWhiteSpace c = false ∧ c ≠ '-' ∧ c ≠ '+' := by
  have hrange : 48 ≤ c.toNat ∧ c.toNat ≤ 57 := by
    simpa [Char.isDigit, UInt32.le_iff_toNat_le] using h
  refine ⟨?_, ?_, ?_⟩
  · simp only [isWhiteSpace, Bool.or_eq_false_iff, Bool.and_eq_false_iff, decide_eq_false_iff_not]
    omega
  · rintro rfl
    exact absurd hrange.1 (by decide)
  · rintro rfl
    exact absurd hrange.1 (by decide)

lemma digitsFrom_append (m : ℕ) (cs cs' : List Char) :
    digitsFrom m (cs ++ cs') = (digitsFrom m cs).bind fun n => digitsFrom n cs' := by
  induction cs generalizing m with
  | nil => rfl
  | cons c cs ih =>
    rw [List.cons_append, digitsFrom, digitsFrom]
    cases digit? c with
    | none => rfl
    | some d => exact ih _

lemma padded_succ (k n : ℕ) : padded (k + 1) n = padded k (n / 10) ++ [digitChar n] := by
  by_cases h0 : n = 0
  · subst h0
    simp [padded, digitChar, List.replicate_succ']
  · rw [padded, padded, Nat.digits_def' (by omega) (Nat.pos_of_ne_zero h0)]
    simp [digitChar]

/-- A number printed in as many digits as it may have. -/
lemma padded_spec {k n : ℕ} (h : n < 10 ^ k) :
    (padded k n).length = k ∧ (∀ c ∈ padded k n, c.isDigit = true) ∧
      ∀ m, digitsFrom m (padded k n) = some (10 ^ k * m + n) := by
  induction k generalizing n with
  | zero =>
    obtain rfl : n = 0 := by simpa using h
    simp [padded, digitsFrom]
  | succ k ih =>
    have hdiv : n / 10 < 10 ^ k := by
      rw [pow_succ] at h
      omega
    obtain ⟨hlength, hdigits, hvalue⟩ := ih hdiv
    rw [padded_succ]
    refine ⟨by simp [hlength], fun c hc => ?_, fun m => ?_⟩
    · rcases List.mem_append.mp hc with hc | hc
      · exact hdigits c hc
      · rw [List.mem_singleton.mp hc]
        exact isDigit_digitChar n
    · rw [digitsFrom_append, hvalue, Option.bind_some, digitsFrom, digit?_digitChar,
        Option.bind_some, digitsFrom, Option.some.injEq, pow_succ]
      have := Nat.div_add_mod n 10
      ring_nf
      omega

lemma digits?_padded {k n : ℕ} (hk : 0 < k) (h : n < 10 ^ k) : digits? (padded k n) = some n := by
  obtain ⟨hlength, -, hvalue⟩ := padded_spec h
  have hne : (padded k n).isEmpty = false := by
    rw [List.isEmpty_eq_false_iff, ← List.length_pos_iff]
    omega
  rw [digits?, hne, hvalue]
  simp

/-- A number printed without padding is one printed in as many digits as it has. -/
lemma exists_padded_one (n : ℕ) : ∃ k, 0 < k ∧ n < 10 ^ k ∧ padded 1 n = padded k n := by
  induction n using Nat.strongRecOn with
  | ind n ih =>
    by_cases hn : n < 10
    · exact ⟨1, by omega, by omega, rfl⟩
    · obtain ⟨k, hk, hlt, heq⟩ := ih (n / 10) (by omega)
      refine ⟨k + 1, by omega, by rw [pow_succ]; omega, ?_⟩
      have hzero : padded 0 (n / 10) = padded 1 (n / 10) := by
        rw [padded, padded, Nat.digits_def' (by omega) (by omega)]
        simp
      rw [padded_succ, padded_succ, hzero, heq]

/-- A printed number is read back, whatever comes after it. -/
lemma number_padded {k n : ℕ} (hk : 0 < k) (h : n < 10 ^ k) (hrange : (n : ℤ) ≤ maxI64)
    (rest : List Char) : number (some k) (padded k n ++ rest) = some (n, rest) := by
  obtain ⟨hlength, hdigits, -⟩ := padded_spec h
  have htake : (padded k n ++ rest).take k = padded k n := List.take_left' hlength
  have hspelled : (padded k n).takeWhile Char.isDigit = padded k n :=
    List.takeWhile_eq_self_iff.mpr hdigits
  rw [number, Option.elim_some, htake, hspelled, digits?_padded hk h]
  simp [hrange]

/-- White space is not skipped before a digit. -/
lemma dropWhile_padded {k n : ℕ} (hk : 0 < k) (h : n < 10 ^ k) (rest : List Char) :
    ∃ c cs, c.isDigit = true ∧ padded k n ++ rest = c :: cs ∧
      (padded k n ++ rest).dropWhile isWhiteSpace = padded k n ++ rest := by
  obtain ⟨hlength, hdigits, -⟩ := padded_spec h
  cases hcs : padded k n with
  | nil =>
    rw [hcs] at hlength
    simp at hlength
    omega
  | cons c cs =>
    have hc : c.isDigit = true := hdigits c (by simp [hcs])
    exact ⟨c, cs ++ rest, hc, rfl, by simp [(of_isDigit hc).1]⟩

lemma field_padded {n : ℕ} (h : n < 100) (rest : List Char) :
    field (padded 2 n ++ rest) = some (n, rest) := by
  obtain ⟨-, -, -, -, hdrop⟩ := dropWhile_padded (k := 2) (by omega) h rest
  rw [field, hdrop]
  exact number_padded (by omega) (by omega) (by simp only [maxI64]; omega) rest

lemma yearField_padded {n : ℕ} (h : n < 10000) (rest : List Char) :
    yearField (padded 4 n ++ rest) = some ((n : ℤ), rest) := by
  obtain ⟨c, cs, hc, hcons, hdrop⟩ := dropWhile_padded (k := 4) (by omega) h rest
  have hnumber : number (some 4) (padded 4 n ++ rest) = some (n, rest) :=
    number_padded (by omega) (by omega) (by simp only [maxI64]; omega) rest
  obtain ⟨-, hminus, hplus⟩ := of_isDigit hc
  rw [yearField, hdrop, hcons]
  split
  · next heq => exact absurd (List.cons.inj heq).1 hminus
  · next heq => exact absurd (List.cons.inj heq).1 hplus
  · rw [← hcons, hnumber]
    rfl

lemma daysInMonth_le (year : ℤ) (month : ℕ) : daysInMonth year month ≤ 31 := by
  unfold daysInMonth
  split <;> (try split) <;> omega

/-- A date and time with a year of four digits is read back as it is printed. -/
lemma parseFromStr_format {t : NaiveDateTime} (h : t.Exists) (hyear : 0 ≤ t.year)
    (hfour : t.year < 10000) : parseFromStr (format t) = some t := by
  obtain ⟨-, hmonth, hday, hhour, hminute, hsecond⟩ := id h
  have hdays := daysInMonth_le t.year t.month
  have hprinted : printedYear t.year = padded 4 t.year.toNat := by
    rw [printedYear, if_pos ⟨hyear, hfour⟩]
  have htoNat : ((t.year.toNat : ℕ) : ℤ) = t.year := Int.toNat_of_nonneg hyear
  rw [format, hprinted]
  simp only [List.append_assoc]
  rw [parseFromStr, yearField_padded (by omega)]
  simp only [Option.bind_eq_bind, Option.bind_some]
  rw [field_padded (by omega)]
  simp only [Option.bind_some]
  rw [field_padded (by omega)]
  simp only [Option.bind_some, List.cons_append, List.nil_append, literal, if_true]
  rw [field_padded (by omega)]
  simp only [Option.bind_some]
  rw [field_padded (by omega)]
  simp only [Option.bind_some]
  rw [field_padded (by omega)]
  simp only [Option.bind_some, if_true, htoNat, List.isEmpty_nil, true_and]
  rw [if_pos h]

/-! ## How long a text that is read is -/

/-- The text starts with a digit. -/
def startsDigit (cs : List Char) : Bool := cs.head?.any Char.isDigit

/-- The character a number needs before its digits, if the text does not start with one. -/
def gap (cs : List Char) : ℕ := if startsDigit cs then 0 else 1

lemma gap_dropWhile_digits (cs : List Char) : gap (cs.dropWhile Char.isDigit) = 1 := by
  have hhead := List.head?_dropWhile_not Char.isDigit cs
  unfold gap startsDigit
  cases hcs : (cs.dropWhile Char.isDigit).head? with
  | none => rfl
  | some c =>
    rw [hcs] at hhead
    simp_all

/-- Some digits, and the rest of the text. -/
structure Spelled (cs spelled rest : List Char) (n : ℕ) : Prop where
  digits : ∀ c ∈ spelled, c.isDigit = true
  text : cs = spelled ++ rest
  value : digits? spelled = some n

lemma Spelled.length_pos {cs spelled rest : List Char} {n : ℕ} (h : Spelled cs spelled rest n) :
    0 < spelled.length := by
  cases spelled with
  | nil => exact absurd h.value (by simp [digits?])
  | cons c cs => simp

lemma of_number {width : Option ℕ} {cs rest : List Char} {n : ℕ}
    (h : number width cs = some (n, rest)) :
    Spelled cs ((width.elim cs cs.take).takeWhile Char.isDigit) rest n := by
  unfold number at h
  dsimp only at h
  set spelled := (width.elim cs cs.take).takeWhile Char.isDigit with hspelled
  obtain ⟨m, hm, h⟩ := Option.bind_eq_some_iff.mp h
  split at h
  case isFalse => cases h
  obtain ⟨rfl, rfl⟩ := Prod.mk.inj (Option.some.inj h)
  refine ⟨fun c hc => List.mem_takeWhile_imp hc, ?_, hm⟩
  have hprefix : spelled <+: cs := by
    cases width with
    | none => exact List.takeWhile_prefix _
    | some w => exact (List.takeWhile_prefix _).trans (List.take_prefix w cs)
  exact (List.prefix_iff_eq_append.mp hprefix).symm

/-- With no width, all the digits are read. -/
lemma of_number_none {cs rest : List Char} {n : ℕ} (h : number none cs = some (n, rest)) :
    Spelled cs (cs.takeWhile Char.isDigit) rest n ∧ gap rest = 1 := by
  have hspelled : Spelled cs (cs.takeWhile Char.isDigit) rest n := of_number h
  have hrest : rest = cs.dropWhile Char.isDigit := by
    have hsplit : cs.takeWhile Char.isDigit ++ rest =
        cs.takeWhile Char.isDigit ++ cs.dropWhile Char.isDigit := by
      rw [← hspelled.text, List.takeWhile_append_dropWhile]
    exact List.append_cancel_left hsplit
  exact ⟨hspelled, hrest ▸ gap_dropWhile_digits cs⟩

/-- With a width, no more digits than it are read, and fewer only if there are no more. -/
lemma of_number_some {w : ℕ} {cs rest : List Char} {n : ℕ}
    (h : number (some w) cs = some (n, rest)) :
    ∃ spelled, Spelled cs spelled rest n ∧ spelled.length ≤ w ∧
      (spelled.length < w → gap rest = 1) := by
  have hspelled : Spelled cs ((cs.take w).takeWhile Char.isDigit) rest n := of_number h
  have htake : (cs.take w).takeWhile Char.isDigit = (cs.takeWhile Char.isDigit).take w :=
    List.take_takeWhile.symm
  rw [htake] at hspelled
  refine ⟨_, hspelled, by simp, fun hshort => ?_⟩
  have hall : (cs.takeWhile Char.isDigit).take w = cs.takeWhile Char.isDigit := by
    rw [List.length_take] at hshort
    exact List.take_of_length_le (by omega)
  have hsplit : cs.takeWhile Char.isDigit ++ rest =
      cs.takeWhile Char.isDigit ++ cs.dropWhile Char.isDigit := by
    rw [hall] at hspelled
    rw [← hspelled.text, List.takeWhile_append_dropWhile]
  rw [List.append_cancel_left hsplit]
  exact gap_dropWhile_digits cs

/-- A number needs its first digit, and, if there is not a second one, a gap before the next
number. -/
lemma length_of_field {cs rest : List Char} {n : ℕ} (h : field cs = some (n, rest)) :
    rest.length + 2 + gap cs ≤ cs.length + gap rest := by
  obtain ⟨spelled, hspelled, hle, hgap⟩ := of_number_some h
  have hpos := hspelled.length_pos
  have htext := congrArg List.length hspelled.text
  have hlength := congrArg List.length
    (List.takeWhile_append_dropWhile (p := isWhiteSpace) (l := cs))
  rw [List.length_append] at htext hlength
  have hspace : gap cs ≤ (cs.takeWhile isWhiteSpace).length := by
    cases cs with
    | nil => simp at htext; omega
    | cons c cs =>
      by_cases hc : isWhiteSpace c = true
      · rw [List.takeWhile_cons_of_pos hc, List.length_cons]
        unfold gap
        split <;> omega
      · have hdrop : (c :: cs).dropWhile isWhiteSpace = c :: cs := by simp [hc]
        have hstart : startsDigit (c :: cs) = true := by
          have hhead := hspelled.text
          rw [hdrop] at hhead
          cases spelled with
          | nil => simp at hpos
          | cons d ds =>
            have hcd : c = d := by simpa using congrArg List.head? hhead
            simpa [startsDigit, hcd] using hspelled.digits d List.mem_cons_self
        simp [gap, hstart]
  omega

/-! ## Years -/

lemma of_digit? {c : Char} {d : ℕ} (h : digit? c = some d) : d < 10 ∧ (d = 0 ↔ c = '0') := by
  unfold digit? at h
  split at h
  case isFalse => cases h
  next hc =>
  obtain rfl := Option.some.inj h
  have hrange : 48 ≤ c.toNat ∧ c.toNat ≤ 57 := by
    simpa [Char.isDigit, UInt32.le_iff_toNat_le] using hc
  have hzero : '0'.toNat = 48 := rfl
  refine ⟨by omega, fun h0 => ?_, fun h0 => by rw [h0]; rfl⟩
  have hval : c.toNat = '0'.toNat := by omega
  exact Char.toNat_inj.mp hval

lemma of_digitsFrom {m n : ℕ} {cs : List Char} (h : digitsFrom m cs = some n) :
    n < (m + 1) * 10 ^ cs.length ∧ (n = 0 ↔ m = 0 ∧ ∀ c ∈ cs, c = '0') := by
  induction cs generalizing m with
  | nil =>
    obtain rfl := Option.some.inj h
    simp
  | cons c cs ih =>
    obtain ⟨d, hd, h⟩ := Option.bind_eq_some_iff.mp h
    obtain ⟨hlt, hzero⟩ := of_digit? hd
    obtain ⟨hbound, hiff⟩ := ih h
    refine ⟨hbound.trans_le ?_, ?_⟩
    · rw [List.length_cons, pow_succ]
      calc (10 * m + d + 1) * 10 ^ cs.length ≤ (10 * (m + 1)) * 10 ^ cs.length :=
            Nat.mul_le_mul_right _ (by omega)
        _ = (m + 1) * (10 ^ cs.length * 10) := by ring
    · rw [hiff, List.forall_mem_cons, ← hzero]
      constructor
      · rintro ⟨hsum, hall⟩
        exact ⟨by omega, by omega, hall⟩
      · rintro ⟨hm, hd0, hall⟩
        exact ⟨by omega, hall⟩

lemma of_digits? {n : ℕ} {cs : List Char} (h : digits? cs = some n) :
    n < 10 ^ cs.length ∧ (n = 0 ↔ ∀ c ∈ cs, c = '0') := by
  unfold digits? at h
  split at h
  · cases h
  · simpa using of_digitsFrom h

/-- The text spells a negative year: a minus sign, after any white space, before a number other
than zero. -/
def negativeYear (cs : List Char) : Bool :=
  match cs.dropWhile isWhiteSpace with
  | '-' :: cs => (cs.takeWhile Char.isDigit).any (· ≠ '0')
  | _ => false

/-- A year is as long as its digits; only one with a sign may be longer than four. -/
lemma of_yearField {cs rest : List Char} {year : ℤ} (h : yearField cs = some (year, rest)) :
    (year < 0 ↔ negativeYear cs = true) ∧ ∃ k, year.natAbs < 10 ^ k ∧
      (k ≤ 4 ∨ (k + 1 + rest.length ≤ cs.length ∧ gap rest = 1)) := by
  have hlength := (List.dropWhile_suffix isWhiteSpace (l := cs)).length_le
  unfold yearField at h
  unfold negativeYear
  split at h
  · next ds hds =>
    obtain ⟨⟨n, rest'⟩, hn, heq⟩ := Option.map_eq_some_iff.mp h
    obtain ⟨rfl, rfl⟩ := Prod.mk.inj heq
    obtain ⟨hspelled, hgap⟩ := of_number_none hn
    obtain ⟨hbound, hzero⟩ := of_digits? hspelled.value
    have htext := congrArg List.length hspelled.text
    rw [List.length_append] at htext
    rw [hds, List.length_cons] at hlength
    refine ⟨?_, _, by simpa using hbound, .inr ⟨by omega, hgap⟩⟩
    have hneg : -(n : ℤ) < 0 ↔ ¬ n = 0 := by omega
    rw [hneg, hzero, hds]
    simp
  · next ds hds =>
    obtain ⟨⟨n, rest'⟩, hn, heq⟩ := Option.map_eq_some_iff.mp h
    obtain ⟨rfl, rfl⟩ := Prod.mk.inj heq
    obtain ⟨hspelled, hgap⟩ := of_number_none hn
    obtain ⟨hbound, -⟩ := of_digits? hspelled.value
    have htext := congrArg List.length hspelled.text
    rw [List.length_append] at htext
    rw [hds, List.length_cons] at hlength
    refine ⟨?_, _, by simpa using hbound, .inr ⟨by omega, hgap⟩⟩
    rw [hds]
    simp
  · next hminus hplus =>
    obtain ⟨⟨n, rest'⟩, hn, heq⟩ := Option.map_eq_some_iff.mp h
    obtain ⟨rfl, rfl⟩ := Prod.mk.inj heq
    obtain ⟨spelled, hspelled, hle, -⟩ := of_number_some hn
    obtain ⟨hbound, -⟩ := of_digits? hspelled.value
    refine ⟨?_, _, by simpa using hbound, .inl hle⟩
    split
    · next ds hds => exact absurd hds (hminus ds)
    · simp

lemma of_literal {c : Char} {cs rest : List Char} (h : literal c cs = some rest) :
    cs = c :: rest := by
  cases cs with
  | nil => cases h
  | cons c' cs =>
    rw [literal] at h
    split at h
    · next hc => rw [hc, Option.some.inj h]
    · cases h

/-- A text of sixteen characters that is read spells a year of four digits, which is negative
exactly when the text says so. -/
lemma of_parseFromStr {cs : List Char} {t : NaiveDateTime} (h : parseFromStr cs = some t)
    (hlength : cs.length ≤ 16) :
    t.Exists ∧ t.year.natAbs < 10000 ∧ (t.year < 0 ↔ negativeYear cs = true) := by
  unfold parseFromStr at h
  obtain ⟨⟨year, c1⟩, hyear, h⟩ := Option.bind_eq_some_iff.mp h
  obtain ⟨⟨month, c2⟩, hmonth, h⟩ := Option.bind_eq_some_iff.mp h
  obtain ⟨⟨day, c3⟩, hday, h⟩ := Option.bind_eq_some_iff.mp h
  obtain ⟨c4, hT, h⟩ := Option.bind_eq_some_iff.mp h
  obtain ⟨⟨hour, c5⟩, hhour, h⟩ := Option.bind_eq_some_iff.mp h
  obtain ⟨⟨minute, c6⟩, hminute, h⟩ := Option.bind_eq_some_iff.mp h
  obtain ⟨⟨second, c7⟩, hsecond, h⟩ := Option.bind_eq_some_iff.mp h
  obtain ⟨c8, hZ, h⟩ := Option.bind_eq_some_iff.mp h
  dsimp only at *
  split at h
  case isFalse => cases h
  next hok =>
  obtain rfl := Option.some.inj h
  obtain ⟨hneg, k, hk, hshort⟩ := of_yearField hyear
  refine ⟨hok.2, hk.trans_le ?_, hneg⟩
  have hk4 : k ≤ 4 := by
    rcases hshort with hk4 | ⟨hlen, hgap⟩
    · exact hk4
    obtain rfl := of_literal hT
    obtain rfl := of_literal hZ
    have hlm := length_of_field hmonth
    have hld := length_of_field hday
    have hlh := length_of_field hhour
    have hlmin := length_of_field hminute
    have hls := length_of_field hsecond
    have hgT : gap ('T' :: c4) = 1 := rfl
    have hgZ : gap ('Z' :: c8) = 1 := rfl
    simp only [List.length_cons] at hld hls
    omega
  exact Nat.pow_le_pow_right (by omega) hk4

end Postit.Chrono

namespace Postit.Recurrence

open Postit.Chrono Postit.Framework

/-! ## Printed values -/

lemma digits?_decimal (n : ℕ) : digits? (decimal n) = some n := by
  obtain ⟨k, hk, hlt, heq⟩ := exists_padded_one n
  rw [decimal, heq, digits?_padded hk hlt]

lemma parseDays_printDays {days : Finset Weekday} (h : days.Nonempty) :
    parseDays (printDays days) = .ok days := by
  have hall : ∀ days : Finset Weekday, days.Nonempty →
      (parseDays (printDays days)).toOption = some days := by decide +kernel
  have hok := hall days h
  cases hparse : parseDays (printDays days) with
  | error e => rw [hparse] at hok; cases hok
  | ok days' => rw [hparse] at hok; rw [Option.some.inj hok]

/-- The characters that printed values are made of. -/
def plain (c : Char) : Bool := c.isDigit || c.isUpper || c = ',' || c = '-' || c = '+'

lemma plain_of_isDigit {c : Char} (h : c.isDigit = true) : plain c = true := by
  simp [plain, h]

lemma plain_padded {k n : ℕ} (h : n < 10 ^ k) : ∀ c ∈ padded k n, plain c = true :=
  fun c hc => plain_of_isDigit ((padded_spec h).2.1 c hc)

lemma plain_decimal (n : ℕ) : ∀ c ∈ decimal n, plain c = true := by
  obtain ⟨k, hk, hlt, heq⟩ := exists_padded_one n
  rw [decimal, heq]
  exact plain_padded hlt

lemma plain_printDays (days : Finset Weekday) : ∀ c ∈ printDays days, plain c = true := by
  have hall : ∀ days : Finset Weekday, (printDays days).all plain = true := by decide +kernel
  exact List.all_eq_true.mp (hall days)

lemma plain_name (name : FrequencyName) : ∀ c ∈ name.asStr, plain c = true := by
  rw [← List.all_eq_true]
  cases name <;> decide

/-- The printed numbers of a date and time, each within its width. -/
lemma padded_bounds {t : NaiveDateTime} (h : t.Exists) :
    t.month < 10 ^ 2 ∧ t.day < 10 ^ 2 ∧ t.hour < 10 ^ 2 ∧ t.minute < 10 ^ 2 ∧ t.second < 10 ^ 2 := by
  obtain ⟨-, hmonth, hday, hhour, hminute, hsecond⟩ := h
  have hdays := daysInMonth_le t.year t.month
  omega

lemma format_spec {t : NaiveDateTime} (h : t.Exists) (hyear : t.year.natAbs < 10 ^ 4) :
    (∀ c ∈ format t, plain c = true) ∧
      (format t).length = if t.year < 0 then 17 else 16 := by
  obtain ⟨hmonth, hday, hhour, hminute, hsecond⟩ := padded_bounds h
  have hprinted : (∀ c ∈ printedYear t.year, plain c = true) ∧
      (printedYear t.year).length = if t.year < 0 then 5 else 4 := by
    unfold printedYear
    by_cases hneg : t.year < 0
    · rw [if_neg (by omega), if_pos hneg, if_pos hneg]
      refine ⟨?_, by simp [(padded_spec hyear).1]⟩
      exact List.forall_mem_cons.mpr ⟨by decide, plain_padded hyear⟩
    · have hnat : t.year.toNat < 10 ^ 4 := by omega
      rw [if_pos (by omega), if_neg hneg]
      exact ⟨plain_padded hnat, (padded_spec hnat).1⟩
  refine ⟨?_, ?_⟩
  · simp only [format, List.forall_mem_append, List.forall_mem_singleton]
    exact ⟨⟨⟨⟨⟨⟨⟨hprinted.1, plain_padded hmonth⟩, plain_padded hday⟩, by decide⟩,
      plain_padded hhour⟩, plain_padded hminute⟩, plain_padded hsecond⟩, by decide⟩
  · simp only [format, List.length_append, hprinted.2, (padded_spec hmonth).1,
      (padded_spec hday).1, (padded_spec hhour).1, (padded_spec hminute).1,
      (padded_spec hsecond).1, List.length_singleton]
    split <;> rfl

lemma len_of_plain {value : List Char} (h : ∀ c ∈ value, plain c = true) :
    len value = value.length := by
  have hone : ∀ c, plain c = true → c.utf8Size = 1 := by
    intro c hc
    rw [Char.utf8Size_eq_one_iff, UInt32.le_iff_toNat_le]
    have hdigit (h : c.isDigit = true) : c.val ≤ '9'.val :=
      of_decide_eq_true (Bool.and_eq_true_iff.mp h).2
    have hupper (h : c.isUpper = true) : c.val ≤ 'Z'.val := (of_decide_eq_true h).2
    simp only [plain, Bool.or_eq_true, decide_eq_true_eq] at hc
    rcases hc with (((hc | hc) | rfl) | rfl) | rfl
    · exact (UInt32.le_iff_toNat_le.mp (hdigit hc)).trans (by decide)
    · exact (UInt32.le_iff_toNat_le.mp (hupper hc)).trans (by decide)
    · decide
    · decide
    · decide
  induction value with
  | nil => rfl
  | cons c cs ih =>
    obtain ⟨hc, hcs⟩ := List.forall_mem_cons.mp h
    have := ih hcs
    simp only [len, List.map_cons, List.sum_cons, List.length_cons, hone c hc] at this ⊢
    omega

lemma length_le_len (value : List Char) : value.length ≤ len value := by
  induction value with
  | nil => simp
  | cons c cs ih =>
    have := c.utf8Size_pos
    simp only [len, List.map_cons, List.sum_cons, List.length_cons] at ih ⊢
    omega

/-- A time that was read prints as a value that is read back exactly when its year is not
negative. -/
lemma parseUntil_format {t : NaiveDateTime} (h : t.Exists) (hyear : t.year.natAbs < 10 ^ 4) :
    parseUntil (format t) = .ok t ↔ 0 ≤ t.year := by
  obtain ⟨hplain, hlength⟩ := format_spec h hyear
  unfold parseUntil
  rw [len_of_plain hplain, hlength]
  by_cases hneg : t.year < 0
  · rw [if_pos hneg, if_pos (by decide)]
    simpa using hneg
  · rw [if_neg hneg, if_neg (by decide), parseFromStr_format h (by omega) (by omega)]
    simp [orError]
    omega

lemma of_parseUntil {value : List Char} {t : NaiveDateTime} (h : parseUntil value = .ok t) :
    t.Exists ∧ t.year.natAbs < 10 ^ 4 ∧ (t.year < 0 ↔ negativeYear value = true) := by
  unfold parseUntil at h
  split at h
  · cases h
  next hlen =>
  have hparse : parseFromStr value = some t := by
    cases hp : parseFromStr value with
    | none => rw [hp] at h; cases h
    | some t' => rw [hp] at h; cases h; rfl
  have hlength := length_le_len value
  simp only [ne_eq, not_not, untilLen] at hlen
  exact of_parseFromStr hparse (by omega)

/-! ## Segments -/

/-- A pair, as it is written. -/
def segment (key : Key) (value : List Char) : List Char := key.asStr ++ '=' :: value

lemma splitOnce_segment (key : Key) (value : List Char) :
    splitOnce (segment key value) = some (key.asStr, value) := by
  have hkey : ∀ c ∈ key.asStr, decide (c ≠ '=') = true := by
    rw [← List.all_eq_true]
    cases key <;> decide
  unfold splitOnce segment
  rw [if_pos (by simp), List.takeWhile_append_of_pos hkey, List.dropWhile_append_of_pos hkey]
  simp

lemma readSegment_segment (key : Key) {value : List Char} (h : value ≠ []) :
    readSegment (segment key value) = key.read value := by
  have hkey : Key.parse key.asStr = some key := by
    cases key <;> decide
  have hne : key.asStr ≠ [] := by
    cases key <;> decide
  rw [readSegment, splitOnce_segment, Option.filter_some_pos (by simp [hne, h])]
  show Except.bind (.ok (key.asStr, value)) _ = _
  dsimp only [Except.bind]
  rw [hkey]

/-- A segment that is read is a pair. -/
lemma orError_eq_ok {α : Type} {o : Option α} {e : RecurrenceError} {a : α}
    (h : orError o e = .ok a) : o = some a := by
  cases o with
  | none => cases h
  | some b => exact congrArg some (Except.ok.inj h)

lemma of_readSegment {seg : List Char} {x : Setting} (h : readSegment seg = .ok x) :
    ∃ key value, seg = segment key value ∧ value ≠ [] ∧ key.read value = .ok x := by
  obtain ⟨⟨name, value⟩, hsplit, h⟩ := bind_eq_ok h
  obtain ⟨honce, hne⟩ := Option.filter_eq_some_iff.mp (orError_eq_ok hsplit)
  have hseg : seg = name ++ '=' :: value := by
    unfold splitOnce at honce
    split at honce
    case isFalse => cases honce
    next hmem =>
    obtain ⟨rfl, rfl⟩ := Prod.mk.inj (Option.some.inj honce)
    have hdrop : seg.dropWhile (· ≠ '=') ≠ [] := by
      rw [ne_eq, List.dropWhile_eq_nil_iff]
      intro hall
      simpa using hall '=' hmem
    obtain ⟨c, cs, hcs⟩ := List.exists_cons_of_ne_nil hdrop
    have hc : c = '=' := by
      have hhead := List.head?_dropWhile_not (fun c => decide (c ≠ '=')) seg
      rw [hcs] at hhead
      simpa using hhead
    conv_lhs => rw [← List.takeWhile_append_dropWhile (p := (· ≠ '=')) (l := seg)]
    rw [hcs, hc, List.tail_cons]
  dsimp only at h
  split at h
  · cases h
  · next key hkey =>
    refine ⟨key, value, ?_, by simpa using (Bool.and_eq_true_iff.mp hne).2, h⟩
    have hname := List.find?_some hkey
    rw [hseg, segment, of_decide_eq_true hname]

/-! ## Settings -/

/-- A setting that some value of its key has. -/
def Setting.Valid : Setting → Prop
  | .freq _ => True
  | .interval n => 1 ≤ n ∧ n ≤ maxInterval
  | .days on => on.Nonempty
  | .monthDay day => 1 ≤ day ∧ day ≤ 31
  | .count n => 1 ≤ n ∧ n ≤ maxCount
  | .until_ t => t.Exists ∧ t.year.natAbs < 10 ^ 4

/-- The parts have the setting. -/
def Parts.Has (p : Parts) : Setting → Prop
  | .freq name => p.freq = some name
  | .interval n => p.interval = some n
  | .days days => p.days = some days
  | .monthDay day => p.monthDay = some day
  | .count n => p.count = some n
  | .until_ t => p.until_ = some t

lemma set_eq_ok {α : Type} {slot slot' : Option α} {key : Key} {value : α} :
    set slot key value = .ok slot' ↔ slot = none ∧ slot' = some value := by
  cases slot <;> simp [set, eq_comm]

/-- Storing a setting adds it, where there was none of its key. -/
lemma has_store {p p' : Parts} {x : Setting} (h : p.store x = .ok p') (y : Setting) :
    p'.Has y ↔ p.Has y ∨ y = x := by
  cases x <;>
    (obtain ⟨slot, hslot, rfl⟩ := map_eq_ok h
     obtain ⟨hnone, rfl⟩ := set_eq_ok.1 hslot
     cases y <;> simp [Parts.Has, hnone, eq_comm])

lemma has_kept {segs : List (List Char)} {p p' : Parts} (h : segs.foldlM Parts.add p = .ok p')
    (x : Setting) (hx : p.Has x) : p'.Has x := by
  induction segs generalizing p with
  | nil =>
    rw [List.foldlM_nil] at h
    cases h
    exact hx
  | cons seg segs ih =>
    rw [List.foldlM_cons] at h
    obtain ⟨mid, hmid, h⟩ := bind_eq_ok h
    obtain ⟨y, -, hstore⟩ := bind_eq_ok hmid
    exact ih h ((has_store hstore x).mpr (.inl hx))

/-- After a loop that succeeds, every segment was read and the parts have just what they set. -/
lemma has_foldlM {segs : List (List Char)} {p p' : Parts} (h : segs.foldlM Parts.add p = .ok p') :
    (∀ seg ∈ segs, ∃ x, readSegment seg = .ok x ∧ p'.Has x) ∧
      ∀ x, p'.Has x → p.Has x ∨ ∃ seg ∈ segs, readSegment seg = .ok x := by
  induction segs generalizing p with
  | nil =>
    rw [List.foldlM_nil] at h
    cases h
    exact ⟨nofun, fun x hx => .inl hx⟩
  | cons seg segs ih =>
    rw [List.foldlM_cons] at h
    obtain ⟨mid, hmid, h⟩ := bind_eq_ok h
    obtain ⟨x, hx, hstore⟩ := bind_eq_ok hmid
    obtain ⟨hread, hfrom⟩ := ih h
    refine ⟨List.forall_mem_cons.mpr ⟨⟨x, hx, has_kept h x ((has_store hstore x).mpr (.inr rfl))⟩,
      hread⟩, fun y hy => ?_⟩
    rcases hfrom y hy with hy | ⟨seg', hseg', hy⟩
    · rcases (has_store hstore y).mp hy with hy | rfl
      · exact .inl hy
      · exact .inr ⟨seg, List.mem_cons_self, hx⟩
    · exact .inr ⟨seg', List.mem_cons_of_mem _ hseg', hy⟩

lemma parseDays_nonempty {value : List Char} {days : Finset Weekday}
    (h : parseDays value = .ok days) : days.Nonempty := by
  have hfold : ∀ (step : Finset Weekday → List Char → Except RecurrenceError (Finset Weekday)),
      (∀ days part days', step days part = .ok days' → days'.Nonempty) →
      ∀ (parts : List (List Char)) (days days' : Finset Weekday),
        parts.foldlM step days = .ok days' → (parts ≠ [] ∨ days.Nonempty) → days'.Nonempty := by
    intro step hstep parts
    induction parts with
    | nil =>
      intro days days' hparts hne
      rw [List.foldlM_nil] at hparts
      cases hparts
      exact hne.resolve_left fun hnil => hnil rfl
    | cons part parts ih =>
      intro days days' hparts _
      rw [List.foldlM_cons] at hparts
      obtain ⟨mid, hmid, hparts⟩ := bind_eq_ok hparts
      exact ih _ _ hparts (.inr (hstep _ _ _ hmid))
  refine hfold _ (fun days part days' hstep => ?_) _ _ _ h (.inl (List.splitOn_ne_nil _ _))
  split at hstep
  · cases hstep
  split at hstep
  · cases hstep
  · cases hstep
    exact Finset.insert_nonempty _ _

/-- What is read is valid. -/
lemma read_valid {key : Key} {value : List Char} {x : Setting} (h : key.read value = .ok x) :
    x.Valid := by
  cases key with
  | freq =>
    obtain ⟨name, -, rfl⟩ := map_eq_ok h
    trivial
  | interval =>
    obtain ⟨n, hn, rfl⟩ := map_eq_ok h
    simpa [Setting.Valid] using (Option.filter_eq_some_iff.mp (orError_eq_ok hn)).2
  | byDay =>
    obtain ⟨days, hdays, rfl⟩ := map_eq_ok h
    exact parseDays_nonempty hdays
  | byMonthDay =>
    obtain ⟨day, hday, rfl⟩ := map_eq_ok h
    simpa [Setting.Valid] using (Option.filter_eq_some_iff.mp (orError_eq_ok hday)).2
  | count =>
    obtain ⟨n, hn, rfl⟩ := map_eq_ok h
    have hrange := (Option.filter_eq_some_iff.mp (orError_eq_ok hn)).2
    simp only [Bool.and_eq_true, decide_eq_true_eq] at hrange
    exact ⟨by omega, hrange.1⟩
  | until_ =>
    obtain ⟨t, ht, rfl⟩ := map_eq_ok h
    obtain ⟨hexists, hyear, -⟩ := of_parseUntil ht
    exact ⟨hexists, hyear⟩

/-! ## Rules -/

/-- The setting that says how often, if there is one. -/
def frequencySettings : Frequency → List Setting
  | .daily => []
  | .weekly days => [.days days]
  | .monthly day => [.monthDay day]

/-- The setting that says until when, if there is one. -/
def endSettings : RecurrenceEnd → List Setting
  | .never => []
  | .count n => [.count n]
  | .until_ t => [.until_ t]

/-- The settings a rule is printed with. -/
def settings (rule : RecurrenceRule) : List Setting :=
  .freq rule.frequency.name :: ((if 1 < rule.interval then [.interval rule.interval] else []) ++
    (frequencySettings rule.frequency ++ endSettings rule.end_))

/-- A setting, as it is printed. -/
def Setting.print : Setting → List Char
  | .freq name => segment .freq name.asStr
  | .interval n => segment .interval (decimal n)
  | .days on => segment .byDay (printDays on)
  | .monthDay day => segment .byMonthDay (decimal day)
  | .count n => segment .count (decimal n)
  | .until_ t => segment .until_ (format t)

/-- A separator, and the pair after it. -/
def Setting.next (x : Setting) : List Char := ';' :: x.print

lemma intercalate_cons (x : Setting) (xs : List Setting) :
    [';'].intercalate ((x :: xs).map Setting.print) = x.print ++ xs.flatMap Setting.next := by
  induction xs generalizing x with
  | nil => simp [List.intercalate]
  | cons y ys ih =>
    have hy := ih y
    simp only [List.map_cons, List.intercalate, List.intersperse_cons_cons, List.flatten_cons] at hy ⊢
    rw [hy]
    simp [Setting.next]

lemma displayInterval_eq (n : ℕ) :
    (if 1 < n then ";INTERVAL=".toList ++ decimal n else []) =
      (if 1 < n then [Setting.interval n] else []).flatMap Setting.next := by
  have hkey : ";INTERVAL=".toList = ';' :: (Key.interval.asStr ++ ['=']) := by decide
  rw [hkey]
  split <;> simp [Setting.next, Setting.print, segment]

lemma displayFrequency_eq (frequency : Frequency) :
    displayFrequency frequency = (frequencySettings frequency).flatMap Setting.next := by
  have hdays : ";BYDAY=".toList = ';' :: (Key.byDay.asStr ++ ['=']) := by decide
  have hday : ";BYMONTHDAY=".toList = ';' :: (Key.byMonthDay.asStr ++ ['=']) := by decide
  unfold displayFrequency frequencySettings
  rw [hdays, hday]
  cases frequency <;> simp [Setting.next, Setting.print, segment]

lemma displayEnd_eq (end_ : RecurrenceEnd) :
    displayEnd end_ = (endSettings end_).flatMap Setting.next := by
  have hcount : ";COUNT=".toList = ';' :: (Key.count.asStr ++ ['=']) := by decide
  have huntil : ";UNTIL=".toList = ';' :: (Key.until_.asStr ++ ['=']) := by decide
  unfold displayEnd endSettings
  rw [hcount, huntil]
  cases end_ <;> simp [Setting.next, Setting.print, segment]

/-- A rule is printed as the pairs of its settings. -/
lemma display_eq (rule : RecurrenceRule) :
    display rule = [';'].intercalate ((settings rule).map Setting.print) := by
  have hfreq : "FREQ=".toList = Key.freq.asStr ++ ['='] := by decide
  rw [settings, intercalate_cons, List.flatMap_append, List.flatMap_append, ← displayInterval_eq,
    ← displayFrequency_eq, ← displayEnd_eq]
  unfold display
  simp only [hfreq, List.append_assoc, Setting.print, segment, List.cons_append, List.nil_append]

/-- The parts a rule has. -/
def partsOf (rule : RecurrenceRule) : Parts where
  freq := some rule.frequency.name
  interval := if 1 < rule.interval then some rule.interval else none
  days := match rule.frequency with
    | .weekly days => some days
    | _ => none
  monthDay := match rule.frequency with
    | .monthly day => some day
    | _ => none
  count := match rule.end_ with
    | .count n => some n
    | _ => none
  until_ := match rule.end_ with
    | .until_ t => some t
    | _ => none

lemma foldlM_store_settings (rule : RecurrenceRule) :
    (settings rule).foldlM Parts.store {} = .ok (partsOf rule) := by
  obtain ⟨frequency, interval, end_⟩ := rule
  let first : Parts := { freq := some frequency.name }
  let second : Parts := { first with interval := if 1 < interval then some interval else none }
  let third : Parts :=
    { second with
      days := (partsOf ⟨frequency, interval, end_⟩).days
      monthDay := (partsOf ⟨frequency, interval, end_⟩).monthDay }
  have hfirst : Parts.store {} (.freq frequency.name) = .ok first := rfl
  have hsecond : (if 1 < interval then [Setting.interval interval] else []).foldlM Parts.store
      first = .ok second := by
    by_cases hinterval : 1 < interval
    · simp only [second, if_pos hinterval]
      rfl
    · simp only [second, if_neg hinterval]
      rfl
  have hthird : (frequencySettings frequency).foldlM Parts.store second = .ok third := by
    cases frequency <;> rfl
  have hend : (endSettings end_).foldlM Parts.store third =
      .ok (partsOf ⟨frequency, interval, end_⟩) := by
    cases end_ <;> rfl
  rw [settings, List.foldlM_cons, hfirst]
  show List.foldlM _ first _ = _
  rw [List.foldlM_append, hsecond]
  show List.foldlM _ second _ = _
  rw [List.foldlM_append, hthird]
  exact hend

lemma fromParts_partsOf {rule : RecurrenceRule} (h : 1 ≤ rule.interval) :
    fromParts (partsOf rule) = .ok rule := by
  obtain ⟨frequency, interval, end_⟩ := rule
  have hinterval : (if 1 < interval then some interval else none).getD 1 = interval := by
    dsimp only at h
    split
    · rfl
    · rw [Option.getD_none]
      omega
  cases frequency <;> cases end_ <;>
    simp [fromParts, partsOf, orError, frequencyOf, onlyFor, endOf, Frequency.name, bind,
      Except.bind, pure, Except.pure, Except.map, hinterval]

/-- Every setting of the rule is one its key's values have. -/
def RecurrenceRule.Valid (rule : RecurrenceRule) : Prop :=
  (1 ≤ rule.interval ∧ rule.interval ≤ maxInterval) ∧ ∀ x ∈ settings rule, x.Valid

/-- A printed setting is read back, a time only when its year is not negative. -/
lemma readSegment_print {x : Setting} (h : x.Valid) :
    readSegment x.print = .ok x ↔ ∀ t, x = .until_ t → 0 ≤ t.year := by
  have hdecimal : ∀ n, decimal n ≠ [] := fun n hnil => by
    have := digits?_decimal n
    rw [hnil] at this
    cases this
  cases x with
  | freq name => cases name <;> simp <;> decide
  | interval n =>
    obtain ⟨hlow, hhigh⟩ := h
    have hdigits : digits (2 ^ 16) (decimal n) = some n := by
      simp only [maxInterval] at hhigh
      simp [digits, digits?_decimal, Option.filter]
      omega
    rw [Setting.print, readSegment_segment _ (hdecimal n), Key.read, hdigits]
    simp [orError, Option.filter, hlow, hhigh, Except.map]
  | days on =>
    have hne : printDays on ≠ [] := by
      have hall : ∀ days : Finset Weekday, days.Nonempty → printDays days ≠ [] := by
        decide +kernel
      exact hall on h
    rw [Setting.print, readSegment_segment _ hne, Key.read, parseDays_printDays h]
    simp [Except.map]
  | monthDay day =>
    obtain ⟨hlow, hhigh⟩ := h
    have hdigits : digits (2 ^ 8) (decimal day) = some day := by
      simp [digits, digits?_decimal, Option.filter]
      omega
    rw [Setting.print, readSegment_segment _ (hdecimal day), Key.read, hdigits]
    simp [orError, Option.filter, hlow, hhigh, Except.map]
  | count n =>
    obtain ⟨hlow, hhigh⟩ := h
    have hdigits : digits (2 ^ 32) (decimal n) = some n := by
      simp only [maxCount] at hhigh
      simp [digits, digits?_decimal, Option.filter]
      omega
    have hne : n ≠ 0 := by omega
    rw [Setting.print, readSegment_segment _ (hdecimal n), Key.read, hdigits]
    simp [orError, Option.filter, hhigh, hne, Except.map]
  | until_ t =>
    have hne : format t ≠ [] := by
      intro hnil
      have hlength := (format_spec h.1 h.2).2
      rw [hnil] at hlength
      split at hlength <;> cases hlength
    rw [Setting.print, readSegment_segment _ hne, Key.read]
    have hparse := parseUntil_format h.1 h.2
    constructor
    · rintro hread t' ⟨⟩
      obtain ⟨t', ht', heq⟩ := map_eq_ok hread
      cases heq
      exact hparse.mp ht'
    · intro hyear
      rw [hparse.mpr (hyear t rfl)]
      rfl

lemma notMem_print {x : Setting} (h : x.Valid) : ';' ∉ x.print := by
  have hvalue : ∀ key value, (∀ c ∈ value, plain c = true) → ';' ∉ segment key value := by
    intro key value hplain hmem
    rcases List.mem_append.mp hmem with hkey | hmem
    · revert hkey
      cases key <;> decide
    · rcases List.mem_cons.mp hmem with hmem | hmem
      · revert hmem
        decide
      · exact absurd (hplain _ hmem) (by decide)
  cases x with
  | freq name => exact hvalue _ _ (plain_name name)
  | interval n => exact hvalue _ _ (plain_decimal n)
  | days on => exact hvalue _ _ (plain_printDays on)
  | monthDay day => exact hvalue _ _ (plain_decimal day)
  | count n => exact hvalue _ _ (plain_decimal n)
  | until_ t => exact hvalue _ _ (format_spec h.1 h.2).1

lemma foldlM_print {xs : List Setting} (h : ∀ x ∈ xs, readSegment x.print = .ok x) (p : Parts) :
    (xs.map Setting.print).foldlM Parts.add p = xs.foldlM Parts.store p := by
  induction xs generalizing p with
  | nil => rfl
  | cons x xs ih =>
    obtain ⟨hx, hxs⟩ := List.forall_mem_cons.mp h
    have hadd : p.add x.print = p.store x := by
      rw [Parts.add, hx]
      rfl
    rw [List.map_cons, List.foldlM_cons, List.foldlM_cons, hadd]
    cases p.store x with
    | error e => rfl
    | ok p' => exact ih hxs p'

lemma splitOn_display {rule : RecurrenceRule} (h : rule.Valid) :
    (display rule).splitOn ';' = (settings rule).map Setting.print := by
  rw [display_eq]
  refine List.splitOn_intercalate ';' (fun seg hseg => ?_) (by simp [settings])
  obtain ⟨x, hx, rfl⟩ := List.mem_map.mp hseg
  exact notMem_print (h.2 x hx)

lemma display_ne_nil (rule : RecurrenceRule) : (display rule).isEmpty = false := by
  have hmem : '=' ∈ display rule := by
    rw [display_eq, settings, intercalate_cons]
    simp [Setting.print, segment]
  rw [List.isEmpty_eq_false_iff]
  exact List.ne_nil_of_mem hmem

lemma mem_settings_until {rule : RecurrenceRule} {t : NaiveDateTime} :
    .until_ t ∈ settings rule ↔ rule.end_ = .until_ t := by
  have hfrequency : Setting.until_ t ∉ frequencySettings rule.frequency := by
    unfold frequencySettings
    split <;> simp
  have hend : Setting.until_ t ∈ endSettings rule.end_ ↔ rule.end_ = .until_ t := by
    cases rule.end_ <;> simp [endSettings, eq_comm]
  rw [← hend, settings, List.mem_cons, List.mem_append, List.mem_append]
  by_cases hinterval : 1 < rule.interval <;> simp [hinterval, hfrequency]

/-- **The round trip.**  A valid rule reads back from its printed form exactly when its end has no
negative year. -/
lemma fromStr_display {rule : RecurrenceRule} (h : rule.Valid) :
    fromStr (display rule) = .ok rule ↔ ∀ t, rule.end_ = .until_ t → 0 ≤ t.year := by
  unfold fromStr
  rw [display_ne_nil, splitOn_display h]
  constructor
  · intro hread t ht
    obtain ⟨p, hfold, -⟩ := bind_eq_ok hread
    have hmem := mem_settings_until.2 ht
    obtain ⟨x, hx, -⟩ := (has_foldlM hfold).1 _ (List.mem_map_of_mem hmem)
    obtain ⟨hexists, hyear⟩ := h.2 _ hmem
    obtain ⟨hplain, hlength⟩ := format_spec hexists hyear
    by_contra hneg
    rw [if_pos (by omega)] at hlength
    have hne : format t ≠ [] := by
      intro hnil
      rw [hnil] at hlength
      cases hlength
    rw [Setting.print, readSegment_segment _ hne] at hx
    obtain ⟨t', ht', -⟩ := map_eq_ok hx
    rw [parseUntil, len_of_plain hplain, hlength, if_pos (by decide)] at ht'
    cases ht'
  · intro hyear
    have hread : ∀ x ∈ settings rule, readSegment x.print = .ok x := by
      intro x hx
      rw [readSegment_print (h.2 x hx)]
      rintro t rfl
      exact hyear t (mem_settings_until.1 hx)
    rw [foldlM_print hread, foldlM_store_settings]
    exact fromParts_partsOf h.1.1

/-- What the checks across keys make of the parts. -/
lemma of_fromParts {p : Parts} {rule : RecurrenceRule} (h : fromParts p = .ok rule) :
    rule.interval = p.interval.getD 1 ∧ (∀ x ∈ settings rule, p.Has x) ∧
      ∀ t, p.until_ = some t ↔ rule.end_ = .until_ t := by
  obtain ⟨name, hname, h⟩ := bind_eq_ok h
  have hfreq := orError_eq_ok hname
  obtain ⟨frequency, hfrequency, h⟩ := bind_eq_ok h
  have hsettings : frequency.name = name ∧ ∀ x ∈ frequencySettings frequency, p.Has x := by
    cases name with
    | daily =>
      cases hfrequency
      exact ⟨rfl, nofun⟩
    | weekly =>
      obtain ⟨days, hdays, rfl⟩ := map_eq_ok hfrequency
      exact ⟨rfl, by simpa [frequencySettings, Parts.Has] using orError_eq_ok hdays⟩
    | monthly =>
      obtain ⟨day, hday, rfl⟩ := map_eq_ok hfrequency
      exact ⟨rfl, by simpa [frequencySettings, Parts.Has] using orError_eq_ok hday⟩
  obtain ⟨-, -, h⟩ := bind_eq_ok h
  obtain ⟨-, -, h⟩ := bind_eq_ok h
  obtain ⟨end_, hend, h⟩ := bind_eq_ok h
  cases h
  have hends : (∀ x ∈ endSettings end_, p.Has x) ∧ ∀ t, p.until_ = some t ↔ end_ = .until_ t := by
    unfold endOf at hend
    split at hend <;> cases hend <;> simp_all [endSettings, Parts.Has]
  refine ⟨rfl, ?_, hends.2⟩
  simp only [settings, List.forall_mem_cons, List.forall_mem_append]
  refine ⟨by rw [hsettings.1]; exact hfreq, ?_, hsettings.2, hends.1⟩
  cases hinterval : p.interval with
  | none => simp
  | some n =>
    intro x hx
    simp only [Option.getD_some] at hx
    split at hx
    · rw [List.mem_singleton.mp hx]
      exact hinterval
    · cases hx

/-! ## The order of the pairs -/

/-- The parts have no setting of the same key. -/
def Parts.Free (p : Parts) : Setting → Prop
  | .freq _ => p.freq = none
  | .interval _ => p.interval = none
  | .days _ => p.days = none
  | .monthDay _ => p.monthDay = none
  | .count _ => p.count = none
  | .until_ _ => p.until_ = none

/-- The parts with the setting. -/
def Parts.put (p : Parts) : Setting → Parts
  | .freq name => { p with freq := some name }
  | .interval n => { p with interval := some n }
  | .days days => { p with days := some days }
  | .monthDay day => { p with monthDay := some day }
  | .count n => { p with count := some n }
  | .until_ t => { p with until_ := some t }

lemma toOption_store {p p' : Parts} {x : Setting} :
    (p.store x).toOption = some p' ↔ p.Free x ∧ p.put x = p' := by
  constructor
  · intro h
    have hok := ok_of_toOption h
    cases x <;>
      (obtain ⟨slot, hslot, rfl⟩ := map_eq_ok hok
       obtain ⟨hnone, rfl⟩ := set_eq_ok.1 hslot
       exact ⟨hnone, rfl⟩)
  · rintro ⟨hfree, rfl⟩
    cases x <;> (simp only [Parts.Free] at hfree; simp only [Parts.store, hfree]; rfl)

lemma free_put_comm (p : Parts) (x y : Setting) :
    (p.Free x ∧ (p.put x).Free y) ↔ (p.Free y ∧ (p.put y).Free x) := by
  cases x <;> cases y <;> simp [Parts.Free, Parts.put, and_comm]

lemma put_comm {p : Parts} {x y : Setting} (h : p.Free x ∧ (p.put x).Free y) :
    (p.put x).put y = (p.put y).put x := by
  cases x <;> cases y <;> first | rfl | exact absurd h.2 (by simp [Parts.Free, Parts.put])

/-- Two settings may be stored in either order. -/
lemma store_comm (p : Parts) (x y : Setting) :
    ((p.store x).toOption.bind fun p' => (p'.store y).toOption) =
      (p.store y).toOption.bind fun p' => (p'.store x).toOption := by
  apply Option.ext
  intro q
  simp only [Option.bind_eq_some_iff, toOption_store]
  constructor
  · rintro ⟨_, ⟨hx, rfl⟩, hy, rfl⟩
    obtain ⟨hy', hx'⟩ := (free_put_comm p x y).mp ⟨hx, hy⟩
    exact ⟨_, ⟨hy', rfl⟩, hx', (put_comm ⟨hx, hy⟩).symm⟩
  · rintro ⟨_, ⟨hy, rfl⟩, hx, rfl⟩
    obtain ⟨hx', hy'⟩ := (free_put_comm p y x).mp ⟨hy, hx⟩
    exact ⟨_, ⟨hx', rfl⟩, hy', (put_comm ⟨hy, hx⟩).symm⟩

lemma add_comm (p : Parts) (a b : List Char) :
    ((p.add a).toOption.bind fun p' => (p'.add b).toOption) =
      (p.add b).toOption.bind fun p' => (p'.add a).toOption := by
  unfold Parts.add
  cases readSegment a with
  | error e =>
    cases readSegment b with
    | error e' => rfl
    | ok y =>
      show none = ((p.store y).toOption.bind fun _ => none)
      simp
  | ok x =>
    cases readSegment b with
    | error e' =>
      show ((p.store x).toOption.bind fun _ => none) = none
      simp
    | ok y => exact store_comm p x y

lemma toOption_fromStr (s : List Char) :
    (fromStr s).toOption =
      ((s.splitOn ';').foldlM Parts.add {}).toOption.bind fun p => (fromParts p).toOption := by
  unfold fromStr
  cases s with
  | nil => rfl
  | cons c s =>
    show (((c :: s).splitOn ';').foldlM Parts.add {} >>= fun p => fromParts p).toOption = _
    cases ((c :: s).splitOn ';').foldlM Parts.add {} <;> rfl

/-- Every setting of the parts was read from some pair. -/
def Parts.Read (p : Parts) : Prop := ∀ x, p.Has x → ∃ seg, readSegment seg = .ok x

lemma valid_of_fromParts {p : Parts} (hp : p.Read) {rule : RecurrenceRule}
    (h : fromParts p = .ok rule) : rule.Valid := by
  obtain ⟨hinterval, hsettings, -⟩ := of_fromParts h
  have hvalid : ∀ x, p.Has x → x.Valid := by
    intro x hx
    obtain ⟨seg, hseg⟩ := hp x hx
    obtain ⟨key, value, -, -, hread⟩ := of_readSegment hseg
    exact read_valid hread
  refine ⟨?_, fun x hx => hvalid x (hsettings x hx)⟩
  rw [hinterval]
  cases hn : p.interval with
  | none => decide
  | some n => exact hvalid (.interval n) hn

lemma read_foldlM {segs : List (List Char)} {p : Parts} (h : segs.foldlM Parts.add {} = .ok p) :
    p.Read := by
  intro x hx
  rcases (has_foldlM h).2 x hx with hnone | ⟨seg, -, hseg⟩
  · cases x <;> cases hnone
  · exact ⟨seg, hseg⟩

lemma segment_inj {key key' : Key} {value value' : List Char}
    (h : segment key value = segment key' value') : key = key' ∧ value = value' := by
  have hsplit := splitOnce_segment key value
  rw [h, splitOnce_segment, Option.some.injEq, Prod.mk.injEq] at hsplit
  refine ⟨?_, hsplit.2.symm⟩
  have hname := hsplit.1
  revert hname
  cases key <;> cases key' <;> decide

/-- A time is read from an `UNTIL`, and only a time is. -/
lemma readSegment_until {seg : List Char} {x : Setting} (h : readSegment seg = .ok x) :
    (∀ value, seg = segment .until_ value → ∃ t, x = .until_ t ∧ parseUntil value = .ok t) ∧
      ∀ t, x = .until_ t → ∃ value, seg = segment .until_ value ∧ parseUntil value = .ok t := by
  obtain ⟨key, value, rfl, -, hread⟩ := of_readSegment h
  constructor
  · intro value' heq
    obtain ⟨rfl, rfl⟩ := segment_inj heq
    obtain ⟨t, ht, rfl⟩ := map_eq_ok hread
    exact ⟨t, rfl, ht⟩
  · rintro t rfl
    cases key with
    | until_ =>
      obtain ⟨t', ht', heq⟩ := map_eq_ok hread
      cases heq
      exact ⟨value, rfl, ht'⟩
    | freq => obtain ⟨_, -, heq⟩ := map_eq_ok hread; cases heq
    | interval => obtain ⟨_, -, heq⟩ := map_eq_ok hread; cases heq
    | byDay => obtain ⟨_, -, heq⟩ := map_eq_ok hread; cases heq
    | byMonthDay => obtain ⟨_, -, heq⟩ := map_eq_ok hread; cases heq
    | count => obtain ⟨_, -, heq⟩ := map_eq_ok hread; cases heq

/-- **The canonical form.**  An accepted rule's printed form is accepted and reads back as the same
rule exactly when no `UNTIL` of the text it was read from spells a negative year; a rule made of
parts that were read on their own does exactly when the parts' time has no negative year; and the
order of the pairs does not matter. -/
theorem canonical_form_iff (s s' : List Char) (p : Parts) (rule : RecurrenceRule) :
    (fromStr s = .ok rule →
      (fromStr (display rule) = .ok rule ↔
        ∀ value, Key.until_.asStr ++ '=' :: value ∈ s.splitOn ';' → negativeYear value = false)) ∧
    (p.Read → fromParts p = .ok rule →
      (fromStr (display rule) = .ok rule ↔ ∀ t, p.until_ = some t → 0 ≤ t.year)) ∧
    ((s'.splitOn ';').Perm (s.splitOn ';') →
      (fromStr s').toOption = (fromStr s).toOption) := by
  refine ⟨fun h => ?_, fun hp h => ?_, fun hperm => ?_⟩
  · have hok : (fromStr s).toOption = some rule := by rw [h]; rfl
    rw [toOption_fromStr] at hok
    obtain ⟨p, hfold, hparts⟩ := Option.bind_eq_some_iff.mp hok
    have hfold := ok_of_toOption hfold
    have hparts := ok_of_toOption hparts
    obtain ⟨-, -, huntil⟩ := of_fromParts hparts
    rw [fromStr_display (valid_of_fromParts (read_foldlM hfold) hparts)]
    obtain ⟨hread, hfrom⟩ := has_foldlM hfold
    constructor
    · intro hyear value hmem
      obtain ⟨x, hx, hhas⟩ := hread _ hmem
      obtain ⟨t, rfl, ht⟩ := (readSegment_until hx).1 value rfl
      have hnonneg := hyear t ((huntil t).mp hhas)
      rw [← Bool.not_eq_true, ← (of_parseUntil ht).2.2]
      omega
    · intro hvalues t ht
      have hhas : p.Has (.until_ t) := (huntil t).mpr ht
      rcases hfrom _ hhas with hnone | ⟨seg, hmem, hseg⟩
      · cases hnone
      · obtain ⟨value, rfl, hvalue⟩ := (readSegment_until hseg).2 t rfl
        have hneg := hvalues value hmem
        rw [← Bool.not_eq_true, ← (of_parseUntil hvalue).2.2] at hneg
        omega
  · rw [fromStr_display (valid_of_fromParts hp h)]
    obtain ⟨-, -, huntil⟩ := of_fromParts h
    simp only [huntil]
  · rw [toOption_fromStr, toOption_fromStr, toOption_foldlM_perm add_comm hperm]

theorem canonical_form_iff_until :
    fromStr "UNTIL=20271231T235959Z;FREQ=DAILY".toList =
        .ok ⟨.daily, 1, .until_ ⟨2027, 12, 31, 23, 59, 59⟩⟩ ∧
      fromStr (display ⟨.daily, 1, .until_ ⟨2027, 12, 31, 23, 59, 59⟩⟩) =
        .ok ⟨.daily, 1, .until_ ⟨2027, 12, 31, 23, 59, 59⟩⟩ := by
  have hread : fromStr "UNTIL=20271231T235959Z;FREQ=DAILY".toList =
      .ok ⟨.daily, 1, .until_ ⟨2027, 12, 31, 23, 59, 59⟩⟩ :=
    ok_of_toOption (by decide)
  refine ⟨hread, ((canonical_form_iff _ [] {} _).1 hread).mpr fun value hmem => ?_⟩
  have hsegs : "UNTIL=20271231T235959Z;FREQ=DAILY".toList.splitOn ';' =
      [segment .until_ "20271231T235959Z".toList, segment .freq "DAILY".toList] := by
    decide
  rw [hsegs, List.mem_cons, List.mem_singleton] at hmem
  rcases hmem with hmem | hmem
  · rw [(segment_inj hmem).2]
    decide
  · cases (segment_inj hmem).1

/-- A minus sign, a month after a space and a second of one digit make an `UNTIL` of sixteen
characters; it prints with seventeen, and is not accepted. -/
theorem canonical_form_negative_year :
    ¬ ∀ s rule, fromStr s = .ok rule → fromStr (display rule) = .ok rule := by
  intro h
  have hread : fromStr "FREQ=DAILY;UNTIL=-2026 101T10101Z".toList =
      .ok ⟨.daily, 1, .until_ ⟨-2026, 10, 1, 10, 10, 1⟩⟩ :=
    ok_of_toOption (by decide)
  have hback := congrArg Except.toOption (h _ _ hread)
  revert hback
  decide

end Postit.Recurrence
