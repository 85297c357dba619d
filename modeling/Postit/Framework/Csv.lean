import Postit.Framework.Words

/-!
# CSV records

How a record of two cells or more is written with the usual settings: the cells between commas, a
cell in quotes when it holds a comma, a quote or a line break, and its own quotes doubled.
-/

namespace Postit.Framework

open Str

/-- Whether a cell cannot stand without quotes. -/
def needsQuotes (cell : Str) : Bool :=
  cell.any fun c => c = ',' || c = '\x22' || c = '\r' || c = '\n'

/-- The quotes of a cell, doubled. -/
def doubleQuotes (cell : Str) : Str :=
  cell.flatMap fun c => if c = '\x22' then ['\x22', '\x22'] else [c]

def csvCell (cell : Str) : Str :=
  if needsQuotes cell then '\x22' :: (doubleQuotes cell ++ ['\x22']) else cell

/-- The line of a record. -/
def csvRecord (cells : List String) : Str :=
  [','].intercalate (cells.map fun cell => csvCell cell.toList) ++ ['\n']

/-- A text to the end of its first line. -/
def firstLine (s : Str) : Str := s.takeWhile (· ≠ '\n') ++ if '\n' ∈ s then ['\n'] else []

/-- Text without a line feed in front belongs to the first line. -/
lemma firstLine_append {s : Str} (h : '\n' ∉ s) (t : Str) :
    firstLine (s ++ t) = s ++ firstLine t := by
  have hall : ∀ c ∈ s, decide (c ≠ '\n') = true := by
    intro c hc
    exact decide_eq_true fun heq => h (heq ▸ hc)
  rw [firstLine, firstLine, List.takeWhile_append_of_pos hall, List.append_assoc]
  simp [h]

/-- A first line ends at its line feed. -/
lemma firstLine_cons_newline (t : Str) : firstLine ('\n' :: t) = ['\n'] := by
  simp [firstLine]

lemma mem_doubleQuotes {c : Char} {cell : Str} : c ∈ doubleQuotes cell ↔ c ∈ cell := by
  rw [doubleQuotes, List.mem_flatMap]
  constructor
  · rintro ⟨a, ha, hc⟩
    split at hc
    · next heq =>
      simp only [List.mem_cons, List.not_mem_nil, or_false, or_self] at hc
      rw [hc, ← heq]
      exact ha
    · rw [List.mem_singleton.mp hc]
      exact ha
  · intro hc
    refine ⟨c, hc, ?_⟩
    split
    · next heq => simp [heq]
    · simp

lemma mem_csvCell {cell : Str} : '\n' ∈ csvCell cell ↔ '\n' ∈ cell := by
  rw [csvCell]
  split
  · have hne : ('\n' : Char) ≠ '\x22' := by decide
    simp [mem_doubleQuotes, hne]
  · rfl

lemma csvRecord_singleton (cell : String) :
    csvRecord [cell] = csvCell cell.toList ++ ['\n'] := by
  simp [csvRecord, List.intercalate]

lemma csvRecord_cons_cons (cell cell' : String) (cells : List String) :
    csvRecord (cell :: cell' :: cells) =
      csvCell cell.toList ++ ',' :: csvRecord (cell' :: cells) := by
  rw [csvRecord, List.map_cons, List.map_cons, intercalate_cons_cons, csvRecord, List.map_cons]
  simp

/-! ## Reading a record back -/

/-- Where a reader is in a cell. -/
inductive CsvState
  | start
  | plain
  | quoted
  -- behind a quote in a quoted cell
  | closing
  deriving DecidableEq, Repr

/-- The cells of the first record of a text. -/
def readCells (delimiter : Char) : CsvState → Str → Str → List Str
  | _, cell, [] => [cell]
  | state, cell, c :: s =>
    if state = .quoted then
      if c = '\x22' then readCells delimiter .closing cell s
      else readCells delimiter .quoted (cell ++ [c]) s
    else if c = '\x22' ∧ state = .closing then readCells delimiter .quoted (cell ++ [c]) s
    else if c = '\x22' ∧ state = .start then readCells delimiter .quoted cell s
    else if c = delimiter then cell :: readCells delimiter .start [] s
    else if c = '\n' ∨ c = '\r' then [cell]
    else readCells delimiter .plain (cell ++ [c]) s

lemma readCells_doubleQuotes (cell rest t : Str) :
    readCells ',' .quoted cell (doubleQuotes rest ++ '\x22' :: t) =
      readCells ',' .closing (cell ++ rest) t := by
  induction rest generalizing cell with
  | nil => simp [doubleQuotes, readCells]
  | cons c rest ih =>
    have hstep : readCells ',' .quoted cell (doubleQuotes (c :: rest) ++ '\x22' :: t) =
        readCells ',' .quoted (cell ++ [c]) (doubleQuotes rest ++ '\x22' :: t) := by
      rw [doubleQuotes, List.flatMap_cons, ← doubleQuotes]
      by_cases hc : c = '\x22' <;> simp [hc, readCells]
    rw [hstep, ih]
    simp

lemma readCells_plain {rest : Str} (h : needsQuotes rest = false) (cell t : Str) :
    readCells ',' .plain cell (rest ++ t) = readCells ',' .plain (cell ++ rest) t := by
  induction rest generalizing cell with
  | nil => simp
  | cons c rest ih =>
    rw [needsQuotes, List.any_cons, Bool.or_eq_false_iff, ← needsQuotes] at h
    have hc := h.1
    simp only [Bool.or_eq_false_iff, decide_eq_false_iff_not] at hc
    have hstep : readCells ',' .plain cell (c :: rest ++ t) =
        readCells ',' .plain (cell ++ [c]) (rest ++ t) := by
      simp [readCells, hc]
    rw [hstep, ih h.2]
    simp

/-- Reading a cell up to what ends it. -/
lemma readCells_csvCell (cell t : Str) {c : Char} (hc : c = ',' ∨ c = '\n') :
    readCells ',' .start [] (csvCell cell ++ c :: t) =
      if c = ',' then cell :: readCells ',' .start [] t else [cell] := by
  have hend : ∀ state cell, state ≠ .quoted → readCells ',' state cell (c :: t) =
      if c = ',' then cell :: readCells ',' .start [] t else [cell] := by
    intro state cell hstate
    rcases hc with rfl | rfl <;> simp [readCells, hstate]
  rw [csvCell]
  split
  · have hopen : readCells ',' .start [] ('\x22' :: (doubleQuotes cell ++ ['\x22']) ++ c :: t) =
        readCells ',' .quoted [] (doubleQuotes cell ++ '\x22' :: c :: t) := by
      simp [readCells]
    rw [hopen, readCells_doubleQuotes]
    exact hend _ _ (by decide)
  · next hplain =>
    have hplain := Bool.eq_false_of_not_eq_true hplain
    cases cell with
    | nil => exact hend _ _ (by decide)
    | cons a cell =>
      rw [needsQuotes, List.any_cons, Bool.or_eq_false_iff, ← needsQuotes] at hplain
      have ha := hplain.1
      simp only [Bool.or_eq_false_iff, decide_eq_false_iff_not] at ha
      have hstep : readCells ',' .start [] (a :: cell ++ c :: t) =
          readCells ',' .plain [a] (cell ++ c :: t) := by
        simp [readCells, ha]
      rw [hstep, readCells_plain hplain.2]
      exact hend _ _ (by decide)

/-- Reading undoes writing. -/
lemma readCells_csvRecord {cells : List String} (h : cells ≠ []) :
    (readCells ',' .start [] (csvRecord cells)).map String.ofList = cells := by
  induction cells with
  | nil => exact absurd rfl h
  | cons cell cells ih =>
    cases cells with
    | nil =>
      rw [csvRecord_singleton, readCells_csvCell _ _ (.inr rfl)]
      simp
    | cons cell' cells =>
      rw [csvRecord_cons_cons, readCells_csvCell _ _ (.inl rfl), if_pos rfl, List.map_cons,
        ih (List.cons_ne_nil _ _), String.ofList_toList]

end Postit.Framework
