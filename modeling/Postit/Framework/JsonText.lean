import Mathlib.Data.List.Basic
import Postit.Framework.Strs

/-!
# JSON texts

A reader of JSON, character by character: the arrays and objects it is inside of, and what it
expects next.  It keeps no values.  Since it looks at one character at a time, an object it has read is read
the same whatever follows (`scan_append`).
-/

namespace Postit.Framework.JsonText

/-- What a value stands in. -/
inductive Frame
  | array
  | object
  deriving DecidableEq, Repr

/-- What comes next. -/
inductive Mode
  | value
  | valueOrEnd
  | key
  | keyOrEnd
  | colon
  | after
  | str (key : Bool)
  | escape (key : Bool)
  | hex (key : Bool) (more : ℕ)
  | minus
  | zero
  | int
  | point
  | frac
  | exp
  | expSign
  | expDigits
  | literal (rest : List Char)
  deriving DecidableEq, Repr

/-- A reader amid a text. -/
structure Reader where
  stack : List Frame
  mode : Mode
  deriving DecidableEq, Repr

/-- The reader in front of a value. -/
def start : Reader := { stack := [], mode := .value }

/-- JSON's white space. -/
def isSpace (c : Char) : Bool := c = ' ' || c = '\n' || c = '\t' || c = '\r'

/-- The first character of a value. -/
def startValue (stack : List Frame) (c : Char) : Option Reader :=
  if c = '\x22' then some { stack := stack, mode := .str false }
  else if c = '{' then some { stack := .object :: stack, mode := .keyOrEnd }
  else if c = '[' then some { stack := .array :: stack, mode := .valueOrEnd }
  else if c = '-' then some { stack := stack, mode := .minus }
  else if c = '0' then some { stack := stack, mode := .zero }
  else if c.isDigit then some { stack := stack, mode := .int }
  else if c = 't' then some { stack := stack, mode := .literal ['r', 'u', 'e'] }
  else if c = 'f' then some { stack := stack, mode := .literal ['a', 'l', 's', 'e'] }
  else if c = 'n' then some { stack := stack, mode := .literal ['u', 'l', 'l'] }
  else none

/-- A character behind a value. -/
def afterValue (stack : List Frame) (c : Char) : Option Reader :=
  if isSpace c then some { stack := stack, mode := .after }
  else
    match stack with
    | [] => none
    | .array :: rest =>
      if c = ',' then some { stack := stack, mode := .value }
      else if c = ']' then some { stack := rest, mode := .after }
      else none
    | .object :: rest =>
      if c = ',' then some { stack := stack, mode := .key }
      else if c = '}' then some { stack := rest, mode := .after }
      else none

/-- Reads a character. -/
def step (r : Reader) (c : Char) : Option Reader :=
  match r.mode with
  | .value => if isSpace c then some r else startValue r.stack c
  | .valueOrEnd =>
    if isSpace c then some r
    else if c = ']' then some { stack := r.stack.tail, mode := .after }
    else startValue r.stack c
  | .key =>
    if isSpace c then some r
    else if c = '\x22' then some { r with mode := .str true }
    else none
  | .keyOrEnd =>
    if isSpace c then some r
    else if c = '}' then some { stack := r.stack.tail, mode := .after }
    else if c = '\x22' then some { r with mode := .str true }
    else none
  | .colon =>
    if isSpace c then some r
    else if c = ':' then some { r with mode := .value }
    else none
  | .after => afterValue r.stack c
  | .str key =>
    if c = '\x22' then some { r with mode := if key then .colon else .after }
    else if c = '\\' then some { r with mode := .escape key }
    else if c.toNat < 0x20 then none
    else some r
  | .escape key =>
    if c ∈ ['\x22', '\\', '/', 'b', 'f', 'n', 'r', 't'] then some { r with mode := .str key }
    else if c = 'u' then some { r with mode := .hex key 3 }
    else none
  | .hex key more =>
    if c.isDigit || ('a' ≤ c && c ≤ 'f') || ('A' ≤ c && c ≤ 'F') then
      match more with
      | 0 => some { r with mode := .str key }
      | more + 1 => some { r with mode := .hex key more }
    else none
  | .minus =>
    if c = '0' then some { r with mode := .zero }
    else if c.isDigit then some { r with mode := .int }
    else none
  | .zero =>
    if c = '.' then some { r with mode := .point }
    else if c = 'e' || c = 'E' then some { r with mode := .exp }
    else afterValue r.stack c
  | .int =>
    if c.isDigit then some r
    else if c = '.' then some { r with mode := .point }
    else if c = 'e' || c = 'E' then some { r with mode := .exp }
    else afterValue r.stack c
  | .point => if c.isDigit then some { r with mode := .frac } else none
  | .frac =>
    if c.isDigit then some r
    else if c = 'e' || c = 'E' then some { r with mode := .exp }
    else afterValue r.stack c
  | .exp =>
    if c = '+' || c = '-' then some { r with mode := .expSign }
    else if c.isDigit then some { r with mode := .expDigits }
    else none
  | .expSign => if c.isDigit then some { r with mode := .expDigits } else none
  | .expDigits => if c.isDigit then some r else afterValue r.stack c
  | .literal [] => afterValue r.stack c
  | .literal [d] => if c = d then some { r with mode := .after } else none
  | .literal (d :: ds) => if c = d then some { r with mode := .literal ds } else none

/-- Nothing is open and the last value is whole. -/
def Reader.whole (r : Reader) : Bool :=
  r.stack.isEmpty && r.mode ∈ [.after, .zero, .int, .frac, .expDigits]

/-- The text is one JSON value, with white space around it at most. -/
def isJson (s : Str) : Bool := (s.foldlM step start).any Reader.whole

/-- Nothing is open and no further character belongs to the value. -/
def Reader.done (r : Reader) : Bool := r.stack.isEmpty && r.mode = .after

/-- Reads on to the end of the value, and no further; the characters read, and what is left. -/
def scan (r : Reader) : Str → Option (Str × Str)
  | [] => if r.done then some ([], []) else none
  | c :: s =>
    if r.done then some ([], c :: s)
    else (step r c).bind fun r => (scan r s).map fun (read, left) => (c :: read, left)

/-- The text of a JSON object. -/
def IsObject (j : Str) : Prop := j.head? = some '{' ∧ scan start j = some (j, [])

instance (j : Str) : Decidable (IsObject j) := inferInstanceAs (Decidable (_ ∧ _))

example : IsObject "\x7b\x22a\x22: [1.5e3, \x22\\u00e9]\x22]\x7d".toList := by decide

/-! ## What is read -/

lemma scan_of_done {r : Reader} (h : r.done = true) (s : Str) : scan r s = some ([], s) := by
  cases s <;> simp [scan, h]

/-- The characters read are the front of the text, they lead to the end of the value, and they are
read the same whatever follows. -/
lemma scan_append {r : Reader} {s read left : Str} (h : scan r s = some (read, left)) :
    s = read ++ left ∧ (∃ r', read.foldlM step r = some r' ∧ r'.done = true) ∧
      ∀ more, scan r (read ++ more) = some (read, more) := by
  induction s generalizing r read with
  | nil =>
    rw [scan] at h
    split at h
    · next hdone =>
      cases h
      exact ⟨rfl, ⟨r, rfl, hdone⟩, scan_of_done hdone⟩
    · cases h
  | cons c s ih =>
    rw [scan] at h
    split at h
    · next hdone =>
      cases h
      exact ⟨rfl, ⟨r, rfl, hdone⟩, scan_of_done hdone⟩
    · next hdone =>
      obtain ⟨r₁, hstep, h⟩ := Option.bind_eq_some_iff.mp h
      obtain ⟨⟨read', left'⟩, hscan, heq⟩ := Option.map_eq_some_iff.mp h
      cases heq
      obtain ⟨rfl, ⟨r', hfold, hdone'⟩, hmore⟩ := ih hscan
      refine ⟨rfl, ⟨r', ?_, hdone'⟩, fun more => ?_⟩
      · simp [List.foldlM_cons, hstep, hfold]
      · simp [scan, hdone, hstep, hmore more]

/-- What is read in front of a text is JSON. -/
lemma isJson_of_scan {s read left : Str} (h : scan start s = some (read, left)) :
    isJson read = true := by
  obtain ⟨-, ⟨r, hfold, hdone⟩, -⟩ := scan_append h
  rw [isJson, hfold, Option.any_some]
  simp only [Reader.done, Bool.and_eq_true, decide_eq_true_eq] at hdone
  simp [Reader.whole, hdone.1, hdone.2]

lemma stack_of_startValue {stack : List Frame} {c : Char} {r : Reader}
    (h : startValue stack c = some r) : stack <:+ r.stack := by
  unfold startValue at h
  split_ifs at h <;> cases h <;> simp

lemma stack_of_afterValue {stack : List Frame} {c : Char} {r : Reader}
    (h : afterValue stack c = some r) :
    stack <:+ r.stack ∨ r.mode = .after ∧ (c = '}' ∨ c = ']') := by
  unfold afterValue at h
  split at h
  · cases h
    exact Or.inl List.suffix_rfl
  · split at h
    · cases h
    · split at h
      · cases h
        exact Or.inl List.suffix_rfl
      · split at h <;> cases h
        next hc => exact Or.inr ⟨rfl, Or.inr hc⟩
    · split at h
      · cases h
        exact Or.inl List.suffix_rfl
      · split at h <;> cases h
        next hc => exact Or.inr ⟨rfl, Or.inl hc⟩

/-- An array or an object is closed only by a bracket or a brace, and then a value is whole. -/
lemma stack_of_step {r r' : Reader} {c : Char} (h : step r c = some r') :
    r.stack <:+ r'.stack ∨ r'.mode = .after ∧ (c = '}' ∨ c = ']') := by
  unfold step at h
  split at h
  case h_2 =>
    split at h
    · cases h
      exact Or.inl List.suffix_rfl
    · split at h
      · next hc =>
        cases h
        exact Or.inr ⟨rfl, Or.inr hc⟩
      · exact Or.inl (stack_of_startValue h)
  case h_4 =>
    split at h
    · cases h
      exact Or.inl List.suffix_rfl
    · split at h
      · next hc =>
        cases h
        exact Or.inr ⟨rfl, Or.inl hc⟩
      · split at h <;> cases h
        exact Or.inl List.suffix_rfl
  case h_9 =>
    split at h
    · split at h <;> cases h <;> exact Or.inl List.suffix_rfl
    · cases h
  -- the rest opens at most, or stands behind a value
  all_goals
    repeat' split at h
    all_goals first
      | exact Or.inl (stack_of_startValue h)
      | exact stack_of_afterValue h
      | (cases h; exact Or.inl List.suffix_rfl)
      | cases h

/-- What is read of an object ends with a bracket or a brace. -/
lemma closing_of_scan {r : Reader} {s read left : Str} (h : scan r s = some (read, left))
    (hopen : r.stack ≠ []) : ∃ front c, read = front ++ [c] ∧ (c = '}' ∨ c = ']') := by
  induction s generalizing r read with
  | nil =>
    rw [scan] at h
    split at h
    · next hdone => simp [Reader.done, hopen] at hdone
    · cases h
  | cons c s ih =>
    rw [scan] at h
    split at h
    · next hdone => simp [Reader.done, hopen] at hdone
    · obtain ⟨r₁, hstep, h⟩ := Option.bind_eq_some_iff.mp h
      obtain ⟨⟨read', left'⟩, hscan, heq⟩ := Option.map_eq_some_iff.mp h
      cases heq
      by_cases hstack : r₁.stack = []
      · rcases stack_of_step hstep with hsuffix | ⟨hmode, hc⟩
        · rw [hstack, List.suffix_nil] at hsuffix
          exact absurd hsuffix hopen
        · have hdone : r₁.done = true := by simp [Reader.done, hstack, hmode]
          rw [scan_of_done hdone] at hscan
          cases hscan
          exact ⟨[], c, rfl, hc⟩
      · obtain ⟨front, c', rfl, hc'⟩ := ih hscan hstack
        exact ⟨c :: front, c', rfl, hc'⟩

end Postit.Framework.JsonText
