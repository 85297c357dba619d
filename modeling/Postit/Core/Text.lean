import Mathlib.Algebra.Group.Int.Defs
import Mathlib.Algebra.GroupWithZero.Nat
import Mathlib.Data.String.Basic

/-!
# Text

What the standard library does with text where the code relies on it: trimming, and reading
decimal numbers.
-/

namespace Postit

/-- The characters with the Unicode property `White_Space`. -/
def isWhiteSpace (c : Char) : Bool :=
  let n := c.toNat
  (9 ≤ n && n ≤ 13) || n = 0x20 || n = 0x85 || n = 0xA0 || n = 0x1680 ||
    (0x2000 ≤ n && n ≤ 0x200A) || n = 0x2028 || n = 0x2029 || n = 0x202F || n = 0x205F ||
    n = 0x3000

/-- The text without the white space at both ends. -/
def trim (s : String) : String :=
  String.ofList (((s.toList.dropWhile isWhiteSpace).reverse.dropWhile isWhiteSpace).reverse)

/-- The value of a digit. -/
def digit? (c : Char) : Option ℕ := if c.isDigit then some (c.toNat - '0'.toNat) else none

/-- The number the digits spell, from what the digits before them spell. -/
def digitsFrom : ℕ → List Char → Option ℕ
  | n, [] => some n
  | n, c :: cs => (digit? c).bind fun d => digitsFrom (10 * n + d) cs

/-- The number the text spells in digits alone. -/
def digits? (cs : List Char) : Option ℕ := if cs.isEmpty then none else digitsFrom 0 cs

/-- The largest signed 64-bit integer. -/
def maxI64 : ℤ := 2 ^ 63 - 1

/-- `str::parse::<i64>`: digits with an optional sign, in range. -/
def parseI64 (s : String) : Option ℤ :=
  let n : Option ℤ :=
    match s.toList with
    | '-' :: cs => (digits? cs).map fun n => -(n : ℤ)
    | '+' :: cs => (digits? cs).map fun n => (n : ℤ)
    | cs => (digits? cs).map fun n => (n : ℤ)
  n.filter fun n => -maxI64 - 1 ≤ n && n ≤ maxI64

/-- `str::parse::<u64>` -/
def parseU64 (s : String) : Option ℕ :=
  let n : Option ℕ :=
    match s.toList with
    | '+' :: cs => digits? cs
    | cs => digits? cs
  n.filter (· < 2 ^ 64)

example : parseI64 (trim " -12\n") = some (-12) := by decide

/-- `str::eq_ignore_ascii_case` -/
def eqIgnoreAsciiCase (s t : String) : Bool :=
  s.toList.map Char.toLower = t.toList.map Char.toLower

end Postit
