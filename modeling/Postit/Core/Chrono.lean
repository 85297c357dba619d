import Mathlib.Data.List.Basic
import Mathlib.Data.Nat.Digits.Defs
import Postit.Core.Text

/-!
# Dates and times in the form `%Y%m%dT%H%M%SZ`

What chrono's parser and printer do with this format, as their documentation has it.  The parser is
greedy and does not mind padding: before each number there may be any white space, and a number may
be shorter than its width.  A year with a sign may have any number of digits.  The printer pads
every number with zeros to its width, and writes a sign before a year outside `0` to `9999`.
-/

namespace Postit.Chrono

/-- A date and a time of day.  Second `60` is a leap second. -/
structure NaiveDateTime where
  year : ℤ
  month : ℕ
  day : ℕ
  hour : ℕ
  minute : ℕ
  second : ℕ
  deriving DecidableEq, Repr

/-! ## The calendar -/

/-- Whether the year has a 29 February, in the proleptic Gregorian calendar. -/
def isLeapYear (year : ℤ) : Bool := year % 4 = 0 && (year % 100 != 0 || year % 400 = 0)

/-- The number of days in a month. -/
def daysInMonth (year : ℤ) : ℕ → ℕ
  | 2 => if isLeapYear year then 29 else 28
  | 4 | 6 | 9 | 11 => 30
  | _ => 31

/-- The date and the time of day exist. -/
def NaiveDateTime.Exists (t : NaiveDateTime) : Prop :=
  (-262143 ≤ t.year ∧ t.year ≤ 262142) ∧ (1 ≤ t.month ∧ t.month ≤ 12) ∧
    (1 ≤ t.day ∧ t.day ≤ daysInMonth t.year t.month) ∧ t.hour ≤ 23 ∧ t.minute ≤ 59 ∧ t.second ≤ 60

instance (t : NaiveDateTime) : Decidable t.Exists :=
  inferInstanceAs (Decidable (_ ∧ _ ∧ _ ∧ _ ∧ _ ∧ _))

/-! ## Parsing -/

/-- The number at the start of the text: as many of its digits as the width allows, at least one. -/
def number (width : Option ℕ) (cs : List Char) : Option (ℕ × List Char) :=
  let spelled := (width.elim cs cs.take).takeWhile Char.isDigit
  (digits? spelled).bind fun n =>
    if (n : ℤ) ≤ maxI64 then some (n, cs.drop spelled.length) else none

/-- An unsigned number of two digits at most, after any white space. -/
def field (cs : List Char) : Option (ℕ × List Char) := number (some 2) (cs.dropWhile isWhiteSpace)

/-- A year, after any white space: four digits at most unless it has a sign. -/
def yearField (cs : List Char) : Option (ℤ × List Char) :=
  match cs.dropWhile isWhiteSpace with
  | '-' :: cs => (number none cs).map fun (n, rest) => (-(n : ℤ), rest)
  | '+' :: cs => (number none cs).map fun (n, rest) => ((n : ℤ), rest)
  | cs => (number (some 4) cs).map fun (n, rest) => ((n : ℤ), rest)

/-- A character of the format that stands for itself. -/
def literal (c : Char) : List Char → Option (List Char)
  | c' :: cs => if c' = c then some cs else none
  | [] => none

/-- The date and time the whole text spells, if it exists. -/
def parseFromStr (cs : List Char) : Option NaiveDateTime := do
  let (year, cs) ← yearField cs
  let (month, cs) ← field cs
  let (day, cs) ← field cs
  let cs ← literal 'T' cs
  let (hour, cs) ← field cs
  let (minute, cs) ← field cs
  let (second, cs) ← field cs
  let cs ← literal 'Z' cs
  let t : NaiveDateTime := ⟨year, month, day, hour, minute, second⟩
  if cs.isEmpty ∧ t.Exists then some t else none

/-! ## Printing -/

/-- The digit of a number below ten. -/
def digitChar (n : ℕ) : Char := Char.ofNat (48 + n % 10)

/-- The number, in as many digits as the width, at least. -/
def padded (width n : ℕ) : List Char :=
  let spelled := (Nat.digits 10 n).reverse.map digitChar
  List.replicate (width - spelled.length) '0' ++ spelled

/-- The year in four digits, with a sign when it is outside `0` to `9999`. -/
def printedYear (year : ℤ) : List Char :=
  if 0 ≤ year ∧ year < 10000 then padded 4 year.toNat
  else (if year < 0 then '-' else '+') :: padded 4 year.natAbs

/-- The date and time in the format. -/
def format (t : NaiveDateTime) : List Char :=
  printedYear t.year ++ padded 2 t.month ++ padded 2 t.day ++ ['T'] ++ padded 2 t.hour ++
    padded 2 t.minute ++ padded 2 t.second ++ ['Z']

end Postit.Chrono
