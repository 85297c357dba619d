import Mathlib.Data.List.Flatten
import Postit.Framework.Bytes
import Postit.Framework.Strs

/-!
# Objects of strings as JSON

The text a JSON writer gives an object whose members are strings.  What it makes of a character
stands alone, so the length of a quoted text is a sum over its parts (`escapedLen_append`).
-/

namespace Postit.Framework

/-- The UTF-8 of a text. -/
def Str.toUtf8 (s : Str) : Bytes := s.flatMap String.utf8EncodeChar

@[simp] lemma Str.length_toUtf8 (s : Str) : s.toUtf8.length = s.utf8Len := by
  induction s with
  | nil => rfl
  | cons c s ih =>
    rw [Str.utf8Len_cons, ← ih]
    simp [Str.toUtf8]

namespace JsonStrings

/-- A digit of a control character's escape. -/
def hexDigit (n : ℕ) : Char := if n < 10 then Char.ofNat (48 + n) else Char.ofNat (87 + n)

/-- A character within quotes. -/
def escapeChar (c : Char) : Str :=
  if c = '\x22' then ['\\', '\x22']
  else if c = '\\' then ['\\', '\\']
  else if c = '\x08' then ['\\', 'b']
  else if c = '\t' then ['\\', 't']
  else if c = '\n' then ['\\', 'n']
  else if c = '\x0c' then ['\\', 'f']
  else if c = '\r' then ['\\', 'r']
  else if c.toNat < 32 then ['\\', 'u', '0', '0', hexDigit (c.toNat / 16), hexDigit (c.toNat % 16)]
  else [c]

/-- A text within quotes. -/
def escape (s : Str) : Str := s.flatMap escapeChar

/-- A text as a JSON string. -/
def quoted (s : Str) : Str := '\x22' :: escape s ++ ['\x22']

/-- Members one after the other. -/
def members : List (Str × Str) → Str
  | [] => []
  | [(key, value)] => quoted key ++ ':' :: quoted value
  | (key, value) :: rest => quoted key ++ ':' :: quoted value ++ ',' :: members rest

/-- An object of strings. -/
def object (fields : List (Str × Str)) : Str := '{' :: members fields ++ ['}']

/-! ## Lengths -/

/-- The bytes of a text within quotes. -/
@[irreducible]
def escapedLen (s : Str) : ℕ := (escape s).utf8Len

@[simp] lemma escapedLen_nil : escapedLen [] = 0 := by simp [escapedLen, escape]

@[simp] lemma escapedLen_append (s t : Str) : escapedLen (s ++ t) = escapedLen s + escapedLen t := by
  simp [escapedLen, escape]

/-- A text is not shorter within quotes. -/
lemma length_le_escapedLen (s : Str) : s.length ≤ escapedLen s := by
  have hchar : ∀ c, 0 < (escapeChar c).utf8Len := by
    intro c
    unfold escapeChar
    split_ifs <;> simp [Char.utf8Size_pos]
  induction s with
  | nil => exact Nat.zero_le _
  | cons c s ih =>
    have := hchar c
    rw [← List.singleton_append, escapedLen_append, List.length_append, List.length_singleton]
    have hone : escapedLen [c] = (escapeChar c).utf8Len := by simp [escapedLen, escape]
    omega

/-- Characters that stand for themselves, one byte each. -/
lemma escapedLen_of_plain {s : Str} (h : ∀ c ∈ s, escapeChar c = [c] ∧ c.utf8Size = 1) :
    escapedLen s = s.length := by
  induction s with
  | nil => exact escapedLen_nil
  | cons c s ih =>
    obtain ⟨hescape, hsize⟩ := h c List.mem_cons_self
    have hone : escapedLen [c] = 1 := by simp [escapedLen, escape, hescape, hsize]
    rw [← List.singleton_append, escapedLen_append, hone,
      ih fun c hc => h c (List.mem_cons_of_mem _ hc), List.length_append, List.length_singleton]

@[simp] lemma utf8Len_quoted (s : Str) : (quoted s).utf8Len = escapedLen s + 2 := by
  simp [quoted, escapedLen, show Char.utf8Size '\x22' = 1 from rfl]
  omega

end JsonStrings

end Postit.Framework
