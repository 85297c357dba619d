import Mathlib.Data.List.Sort
import Mathlib.Data.String.Basic
import Postit.Contacts.Columns
import Postit.Framework.Splits

/-!
# An exported header maps back

The header of an export is read with commas, and each of its columns found again, unless the names
of custom fields hold more semicolons than there are columns or read the same as another.
-/

namespace Postit.Contacts

open Postit.Framework

/-! ## What is claimed -/

/-- The header is read with commas, and resolving it with the map from its own names finds every
column at its position. -/
structure MapsBack (csv : CsvLibrary) (fieldKeys : List String) : Prop where
  comma : sniffDelimiter (firstLine (csv.write (header fieldKeys))) = ','
  columns : ∃ map : ColumnMap, map.Identity fieldKeys ∧ ∃ columns : Columns,
    Columns.resolve (csv.read ',' (csv.write (header fieldKeys))) map = some columns ∧
      columns.Exported fieldKeys

/-- What the library documents: how a record is written, and that reading undoes it. -/
structure CsvLibrary.Standard (csv : CsvLibrary) : Prop where
  write_eq : ∀ cells, 2 ≤ cells.length → csv.write cells = csvRecord cells
  read_write : ∀ cells, 2 ≤ cells.length → csv.read ',' (csv.write cells) = cells

/-- The semicolons that a name shows outside quotes. -/
def shownSemicolons (name : Str) : ℕ := if needsQuotes name then 0 else name.count ';'

/-- The keys in front of the first one with a line feed, which ends the first line. -/
def firstKeys (fieldKeys : List String) : List String :=
  fieldKeys.takeWhile fun key => '\n' ∉ key.toList

/-- The keys of the first line show no more semicolons than there are commas in it. -/
def FewSemicolons (fieldKeys : List String) : Prop :=
  ((firstKeys fieldKeys).map fun key => shownSemicolons key.toList).sum ≤
    min (8 + (firstKeys fieldKeys).length) (7 + fieldKeys.length)

instance (fieldKeys : List String) : Decidable (FewSemicolons fieldKeys) :=
  inferInstanceAs (Decidable (_ ≤ _))

/-- What the name of a custom field is read as: white space at its ends is lost, but in front of a
formula only behind it, and a quote in front of a formula too. -/
def readName (key : String) : String :=
  let name := fieldHeader key
  if needsNeutralizing name.toList then
    let ended := Str.trimEnd name.toList
    String.ofList (if needsNeutralizing ended then ended else quote :: ended)
  else unescape (trim name)

/-! ## The delimiter -/

lemma Sniffed.next_quoted (a b : ℕ) {c : Char} (hc : c ≠ '\x22') :
    Sniffed.next ⟨a, b, true⟩ c = ⟨a, b, true⟩ := by
  simp [next, hc]

lemma Sniffed.next_plain (a b : ℕ) {c : Char} (hc : c ≠ '\x22') (hcomma : c ≠ ',') :
    Sniffed.next ⟨a, b, false⟩ c = ⟨a, b + if c = ';' then 1 else 0, false⟩ := by
  by_cases hsemi : c = ';' <;> simp [next, hc, hcomma, hsemi]

/-- In quotes nothing is counted, and doubled quotes do not end them. -/
lemma foldl_doubleQuotes (a b : ℕ) (cell : Str) :
    (doubleQuotes cell).foldl Sniffed.next ⟨a, b, true⟩ = ⟨a, b, true⟩ := by
  induction cell with
  | nil => rfl
  | cons c cell ih =>
    rw [doubleQuotes, List.flatMap_cons, List.foldl_append, ← doubleQuotes]
    split
    · exact ih
    · next hc => rw [List.foldl_cons, List.foldl_nil, Sniffed.next_quoted a b hc, ih]

/-- A cell shows its semicolons, when it is not in quotes. -/
lemma foldl_csvCell (a b : ℕ) (cell : Str) :
    (csvCell cell).foldl Sniffed.next ⟨a, b, false⟩ = ⟨a, b + shownSemicolons cell, false⟩ := by
  rw [csvCell, shownSemicolons]
  split
  · have hopen : Sniffed.next ⟨a, b, false⟩ '\x22' = ⟨a, b, true⟩ := rfl
    rw [List.foldl_cons, List.foldl_append, hopen, foldl_doubleQuotes]
    rfl
  · next hplain =>
    rw [needsQuotes, Bool.not_eq_true, List.any_eq_false] at hplain
    induction cell generalizing b with
    | nil => rfl
    | cons c cell ih =>
      have hc := hplain c List.mem_cons_self
      simp only [Bool.or_eq_true, decide_eq_true_eq, not_or] at hc
      obtain ⟨⟨⟨hcomma, hquote⟩, -⟩, -⟩ := hc
      rw [List.foldl_cons, Sniffed.next_plain a b hquote hcomma,
        ih _ fun a ha => hplain a (List.mem_cons_of_mem _ ha), List.count_cons]
      simp only [beq_iff_eq, Sniffed.mk.injEq, true_and, and_true]
      omega

/-- The first line ends inside a cell with a line feed, which stands in quotes. -/
lemma foldl_firstLine_csvCell (a b : ℕ) {cell : Str} (hcell : '\n' ∈ cell) (t : Str) :
    (firstLine (csvCell cell ++ t)).foldl Sniffed.next ⟨a, b, false⟩ = ⟨a, b, true⟩ := by
  obtain ⟨front, back, rfl, hfront⟩ := List.eq_append_cons_of_mem hcell
  have hquotes : needsQuotes (front ++ '\n' :: back) = true := by simp [needsQuotes]
  have hnot : '\n' ∉ '\x22' :: doubleQuotes front := by
    have hne : ('\n' : Char) ≠ '\x22' := by decide
    simp [mem_doubleQuotes, hne, hfront]
  have hsplit : csvCell (front ++ '\n' :: back) ++ t =
      '\x22' :: doubleQuotes front ++ '\n' :: (doubleQuotes back ++ ['\x22'] ++ t) := by
    rw [csvCell, if_pos hquotes]
    simp [doubleQuotes]
  have hopen : Sniffed.next ⟨a, b, false⟩ '\x22' = ⟨a, b, true⟩ := rfl
  have hfront : ('\x22' :: doubleQuotes front).foldl Sniffed.next ⟨a, b, false⟩ =
      ⟨a, b, true⟩ := by
    rw [List.foldl_cons, hopen, foldl_doubleQuotes]
  rw [hsplit, firstLine_append hnot, firstLine_cons_newline, List.foldl_append, hfront]
  rfl

/-- The cells in front of the first one with a line feed. -/
def firstCells (cells : List String) : List String :=
  cells.takeWhile fun cell => '\n' ∉ cell.toList

/-- What is counted in the first line of a record: the commas behind its first cells, of which the
last of the record has none, and what these show. -/
lemma foldl_firstLine (a b : ℕ) {cells : List String} (hne : cells ≠ []) :
    ∃ quoted, (firstLine (csvRecord cells)).foldl Sniffed.next ⟨a, b, false⟩ =
      ⟨a + min (firstCells cells).length (cells.length - 1),
        b + ((firstCells cells).map fun cell => shownSemicolons cell.toList).sum, quoted⟩ := by
  induction cells generalizing a b with
  | nil => exact absurd rfl hne
  | cons cell cells ih =>
    by_cases hline : '\n' ∈ cell.toList
    · have hfirst : firstCells (cell :: cells) = [] := by simp [firstCells, hline]
      obtain ⟨t, ht⟩ : ∃ t, csvRecord (cell :: cells) = csvCell cell.toList ++ t := by
        cases cells with
        | nil => exact ⟨_, csvRecord_singleton cell⟩
        | cons cell' cells => exact ⟨_, csvRecord_cons_cons cell cell' cells⟩
      rw [ht, foldl_firstLine_csvCell a b hline, hfirst]
      exact ⟨true, by simp⟩
    · have hfirst : firstCells (cell :: cells) = cell :: firstCells cells := by
        simp [firstCells, hline]
      have hcell : '\n' ∉ csvCell cell.toList := fun h => hline (mem_csvCell.1 h)
      cases cells with
      | nil =>
        rw [csvRecord_singleton, firstLine_append hcell, firstLine_cons_newline, List.foldl_append,
          foldl_csvCell, hfirst]
        exact ⟨false, by simp [firstCells, Sniffed.next]⟩
      | cons cell' cells =>
        obtain ⟨quoted, hrest⟩ := ih (a + 1) (b + shownSemicolons cell.toList)
          (List.cons_ne_nil _ _)
        have hcomma : firstLine (',' :: csvRecord (cell' :: cells)) =
            ',' :: firstLine (csvRecord (cell' :: cells)) :=
          firstLine_append (s := [',']) (by decide) _
        have hnext : Sniffed.next ⟨a, b + shownSemicolons cell.toList, false⟩ ',' =
            ⟨a + 1, b + shownSemicolons cell.toList, false⟩ := rfl
        refine ⟨quoted, ?_⟩
        rw [csvRecord_cons_cons, firstLine_append hcell, List.foldl_append, foldl_csvCell, hcomma,
          List.foldl_cons, hnext, hrest, hfirst]
        simp only [List.length_cons, List.map_cons, List.sum_cons, Sniffed.mk.injEq, and_true]
        omega

/-- The header of a key holds what the key does, behind characters that show nothing. -/
lemma exists_toList_header (key : String) : ∃ front : Str,
    (neutralize (fieldHeader key)).toList = front ++ key.toList ∧
      '\n' ∉ front ∧ needsQuotes front = false ∧ front.count ';' = 0 := by
  have hfield : ∃ front : Str, (fieldHeader key).toList = front ++ key.toList ∧
      '\n' ∉ front ∧ needsQuotes front = false ∧ front.count ';' = 0 := by
    rw [fieldHeader]
    split
    · exact ⟨"field_".toList, String.toList_append, by decide, by decide, by decide⟩
    · exact ⟨[], rfl, by decide, by decide, by decide⟩
  obtain ⟨front, heq, hline, hquotes, hsemi⟩ := hfield
  rw [neutralize]
  split
  · refine ⟨quote :: front, by simp [heq], ?_, ?_, ?_⟩
    · have hne : ('\n' : Char) ≠ quote := by decide
      simp [hline, hne]
    · rw [needsQuotes, List.any_cons, ← needsQuotes, hquotes]
      decide
    · rw [List.count_cons, hsemi]
      decide
  · exact ⟨front, heq, hline, hquotes, hsemi⟩

lemma newline_mem_header {key : String} :
    '\n' ∈ (neutralize (fieldHeader key)).toList ↔ '\n' ∈ key.toList := by
  obtain ⟨front, heq, hline, -⟩ := exists_toList_header key
  rw [heq, List.mem_append, or_iff_right hline]

lemma shownSemicolons_header (key : String) :
    shownSemicolons (neutralize (fieldHeader key)).toList = shownSemicolons key.toList := by
  obtain ⟨front, heq, -, hquotes, hsemi⟩ := exists_toList_header key
  have hsame : needsQuotes (front ++ key.toList) = needsQuotes key.toList := by
    rw [needsQuotes, List.any_append, ← needsQuotes, hquotes, Bool.false_or, ← needsQuotes]
  rw [heq, shownSemicolons, hsame, List.count_append, hsemi, Nat.zero_add, ← shownSemicolons]

lemma header_eq (fieldKeys : List String) : header fieldKeys =
    standardColumns ++ fieldKeys.map fun key => neutralize (fieldHeader key) := by
  rw [header, List.map_append, List.map_map]
  rfl

/-- The first cells of an exported header. -/
lemma firstCells_header (fieldKeys : List String) : firstCells (header fieldKeys) =
    standardColumns ++ (firstKeys fieldKeys).map fun key => neutralize (fieldHeader key) := by
  have hstandard : ∀ cell ∈ standardColumns, decide ('\n' ∉ cell.toList) = true :=
    of_decide_eq_true (@id (@decide _ (List.decidableBAll _ _) = true) rfl)
  rw [firstCells, header_eq, List.takeWhile_append_of_pos hstandard, List.takeWhile_map, firstKeys]
  congr 2
  refine congrArg (List.takeWhile · fieldKeys) (funext fun key => ?_)
  simp only [Function.comp_apply, newline_mem_header]

/-- The comma is picked when few semicolons are shown. -/
lemma sniffDelimiter_header_iff (fieldKeys : List String) :
    sniffDelimiter (firstLine (csvRecord (header fieldKeys))) = ',' ↔ FewSemicolons fieldKeys := by
  have hne : header fieldKeys ≠ [] := by
    rw [header_eq]
    exact List.cons_ne_nil _ _
  obtain ⟨quoted, hcounts⟩ := foldl_firstLine 0 0 hne
  have hstandard : (standardColumns.map fun cell => shownSemicolons cell.toList).sum = 0 := by
    decide
  have hsum : ((firstCells (header fieldKeys)).map fun cell => shownSemicolons cell.toList).sum =
      ((firstKeys fieldKeys).map fun key => shownSemicolons key.toList).sum := by
    rw [firstCells_header, List.map_append, List.sum_append, hstandard, Nat.zero_add, List.map_map]
    simp only [Function.comp_def, shownSemicolons_header]
  have hfirst : (firstCells (header fieldKeys)).length = 8 + (firstKeys fieldKeys).length := by
    rw [firstCells_header, List.length_append, List.length_map]
    rfl
  have hlength : (header fieldKeys).length - 1 = 7 + fieldKeys.length := by
    rw [header_eq, List.length_append, List.length_map]
    have hcolumns : standardColumns.length = 8 := rfl
    omega
  rw [hsum, hfirst, hlength] at hcounts
  rw [sniffDelimiter, hcounts, FewSemicolons]
  simp only [Nat.zero_add]
  split
  · next h => exact iff_of_false (by decide) (Nat.not_le_of_lt h)
  · next h => exact iff_of_true rfl (Nat.le_of_not_lt h)

/-! ## The names -/

/-- A header is compared by the name it is read as. -/
lemma comparedName_header (key : String) :
    comparedName (neutralize (fieldHeader key)) = readName key := by
  have hquote : isWhiteSpace quote = false := by decide
  simp only [comparedName, readName, neutralize]
  split
  · have htrim : trim (String.ofList (quote :: (fieldHeader key).toList)) =
        String.ofList (quote :: Str.trimEnd (fieldHeader key).toList) := by
      rw [← String.toList_inj, Str.toList_trim, String.toList_ofList, String.toList_ofList,
        Str.trim, Str.trimStart, List.dropWhile_cons, hquote]
      exact Str.trimEnd_append (s := []) hquote
    rw [htrim, unescape, String.toList_ofList]
    simp only [true_and]
    split <;> rfl
  · rfl

lemma unescape_eq_self {cell : String} (h : needsNeutralizing cell.toList = false) :
    unescape cell = cell := by
  unfold unescape
  split
  · next c rest heq =>
    refine if_neg ?_
    rintro ⟨rfl, hrest⟩
    rw [heq, needsNeutralizing_cons_quote, hrest] at h
    cases h
  · rfl

/-- A key without white space at its ends is read as its header. -/
lemma readName_of_trimmed {key : String} (h : trim key = key) :
    readName key = fieldHeader key := by
  have htrim : trim (fieldHeader key) = fieldHeader key := by
    by_cases hstandard : key ∈ standardColumns
    · have hall : ∀ key ∈ standardColumns, trim (fieldHeader key) = fieldHeader key :=
        of_decide_eq_true (@id (@decide _ (List.decidableBAll _ _) = true) rfl)
      exact hall key hstandard
    · rw [fieldHeader, if_neg hstandard, h]
  have hended : Str.trimEnd (fieldHeader key).toList = (fieldHeader key).toList :=
    Str.trimEnd_of_last (Str.string_trim_eq_self_iff.mp htrim).2
  simp only [readName, hended, htrim]
  split
  · exact String.ofList_toList
  · next hplain => exact unescape_eq_self (Bool.eq_false_of_not_eq_true hplain)

/-- The headers as they are compared. -/
lemma map_comparedName_header (fieldKeys : List String) :
    (header fieldKeys).map comparedName = standardColumns ++ fieldKeys.map readName := by
  have hstandard : standardColumns.map comparedName = standardColumns := by decide
  rw [header_eq, List.map_append, hstandard, List.map_map]
  simp only [Function.comp_def, comparedName_header]

/-! ## The positions -/

/-- A name that no other header has is found at its position. -/
lemma findColumn_of_nodup {headers : List String} (h : (headers.map comparedName).Nodup) {i : ℕ}
    {name : String} (hget : headers[i]? = some name) : findColumn headers name = some i := by
  refine findColumn_eq_some_iff.2 fun j => ?_
  rw [mem_positions]
  constructor
  · rintro ⟨other, hother, hname⟩
    obtain ⟨hi, rfl⟩ := List.getElem?_eq_some_iff.mp hget
    obtain ⟨hj, rfl⟩ := List.getElem?_eq_some_iff.mp hother
    have hi' : i < (headers.map comparedName).length := by simpa using hi
    have hj' : j < (headers.map comparedName).length := by simpa using hj
    have hsame : (headers.map comparedName)[j] = (headers.map comparedName)[i] := by
      simpa using hname
    exact (List.Nodup.getElem_inj_iff h).mp hsame
  · rintro rfl
    exact ⟨name, hget, rfl⟩

/-- What is found has no other position. -/
lemma eq_of_findColumn {headers : List String} {name : String} {k : ℕ}
    (h : findColumn headers name = some k) {i j : ℕ} {a b : String} (ha : headers[i]? = some a)
    (hb : headers[j]? = some b) (hname : comparedName a = comparedName name)
    (hname' : comparedName b = comparedName name) : i = j := by
  have hall := findColumn_eq_some_iff.1 h
  have hi := (hall i).mp (mem_positions.2 ⟨a, ha, hname⟩)
  have hj := (hall j).mp (mem_positions.2 ⟨b, hb, hname'⟩)
  rw [hi, hj]

lemma exists_of_mapM_eq_some {α β : Type*} {f : α → Option β} {l : List α} {r : List β}
    (h : l.mapM f = some r) {a : α} (ha : a ∈ l) : ∃ b, f a = some b := by
  induction l generalizing r with
  | nil => cases ha
  | cons x l ih =>
    rw [List.mapM_cons, Option.bind_eq_bind, Option.bind_eq_some_iff] at h
    obtain ⟨b, hb, h⟩ := h
    rcases List.mem_cons.mp ha with rfl | ha
    · exact ⟨b, hb⟩
    · rw [Option.bind_eq_bind, Option.bind_eq_some_iff] at h
      obtain ⟨bs, hbs, -⟩ := h
      exact ih hbs ha

lemma mapM_eq_some_map {α β : Type*} {f : α → Option β} {g : α → β} {l : List α}
    (h : ∀ a ∈ l, f a = some (g a)) : l.mapM f = some (l.map g) := by
  induction l with
  | nil => rfl
  | cons a l ih =>
    rw [List.mapM_cons, h a List.mem_cons_self, ih fun b hb => h b (List.mem_cons_of_mem _ hb)]
    rfl

/-- Resolving finds every custom field. -/
lemma exists_findColumn_of_resolve {headers : List String} {map : ColumnMap} {columns : Columns}
    (h : Columns.resolve headers map = some columns) {f : String × String} (hf : f ∈ map.fields) :
    ∃ i, findColumn headers f.1 = some i := by
  simp only [Columns.resolve, Option.bind_eq_bind, Option.bind_eq_some_iff] at h
  obtain ⟨-, -, -, -, -, -, -, -, -, -, -, -, -, -, fields, hfields, -⟩ := h
  obtain ⟨b, hb⟩ := exists_of_mapM_eq_some hfields hf
  obtain ⟨i, hi, -⟩ := Option.map_eq_some_iff.mp hb
  exact ⟨i, hi⟩

variable {csv : CsvLibrary} {fieldKeys : List String}

lemma getElem?_header_standard {i : ℕ} (hi : i < standardColumns.length) :
    (header fieldKeys)[i]? = standardColumns[i]? := by
  rw [header_eq, List.getElem?_append_left hi]

lemma getElem?_header_field (i : ℕ) : (header fieldKeys)[standardColumns.length + i]? =
    fieldKeys[i]?.map fun key => neutralize (fieldHeader key) := by
  rw [header_eq, List.getElem?_append_right (Nat.le_add_right _ _), Nat.add_sub_cancel_left,
    List.getElem?_map]

/-- Headers that map back are all different. -/
lemma MapsBack.nodup (hcsv : csv.Standard) (h : MapsBack csv fieldKeys) :
    (standardColumns ++ fieldKeys.map readName).Nodup := by
  obtain ⟨map, hmap, columns, hresolve, -⟩ := h.columns
  have hlength : 2 ≤ (header fieldKeys).length := by
    rw [header_eq, List.length_append]
    exact Nat.le_add_right_of_le (by decide)
  rw [hcsv.read_write _ hlength] at hresolve
  -- nothing else is read like a custom field
  have hunique : ∀ i j a key, (header fieldKeys)[i]? = some a → fieldKeys[j]? = some key →
      comparedName a = readName key → i = standardColumns.length + j := by
    intro i j a key ha hkey hname
    have hfield : (neutralize (fieldHeader key), key) ∈ map.fields :=
      hmap.fields.mem_iff.mpr (List.mem_map.mpr ⟨key, List.mem_of_getElem? hkey, rfl⟩)
    obtain ⟨k, hk⟩ := exists_findColumn_of_resolve hresolve hfield
    rw [← comparedName_header] at hname
    refine eq_of_findColumn hk ha ?_ hname rfl
    rw [getElem?_header_field, hkey]
    rfl
  have hstandard : standardColumns.Nodup := by decide
  refine List.nodup_append.mpr ⟨hstandard, ?_, ?_⟩
  · refine List.nodup_iff_getElem?_ne_getElem?.mpr fun i j hlt hj heq => ?_
    rw [List.length_map] at hj
    rw [List.getElem?_map, List.getElem?_map, List.getElem?_eq_getElem hj,
      List.getElem?_eq_getElem (hlt.trans hj)] at heq
    have hname : readName fieldKeys[i] = readName fieldKeys[j] := Option.some.inj heq
    have hsame := hunique (standardColumns.length + i) j _ _
      (by rw [getElem?_header_field, List.getElem?_eq_getElem (hlt.trans hj)]; rfl)
      (List.getElem?_eq_getElem hj) ((comparedName_header _).trans hname)
    omega
  · rintro a ha b hb rfl
    obtain ⟨i, hi, rfl⟩ := List.getElem_of_mem ha
    obtain ⟨key, hkey, hname⟩ := List.mem_map.mp hb
    obtain ⟨j, hj, rfl⟩ := List.getElem_of_mem hkey
    have hcompared : ∀ name ∈ standardColumns, comparedName name = name :=
      of_decide_eq_true (@id (@decide _ (List.decidableBAll _ _) = true) rfl)
    have hsame := hunique i j _ _
      ((getElem?_header_standard hi).trans (List.getElem?_eq_getElem hi))
      (List.getElem?_eq_getElem hj) ((hcompared _ ha).trans hname.symm)
    omega

/-- The map from the headers to what they hold, when they are all different. -/
lemma exists_identity (h : (fieldKeys.map readName).Nodup) :
    ∃ map : ColumnMap, map.Identity fieldKeys := by
  have hheaders : ((fieldKeys.map fun key => (neutralize (fieldHeader key), key)).map
      Prod.fst).Nodup := by
    refine List.Nodup.of_map comparedName ?_
    rw [List.map_map, List.map_map]
    simpa only [Function.comp_def, comparedName_header] using h
  set fields := fieldKeys.map fun key => (neutralize (fieldHeader key), key)
  set sorted := fields.mergeSort fun a b => decide (a.1 ≤ b.1) with hsorted
  have hperm : sorted.Perm fields := List.mergeSort_perm _ _
  have hle : sorted.Pairwise fun a b => a.1 ≤ b.1 := by
    have h : sorted.Pairwise fun a b => decide (a.1 ≤ b.1) = true :=
      List.pairwise_mergeSort
        (fun a b c hab hbc =>
          decide_eq_true ((of_decide_eq_true hab).trans (of_decide_eq_true hbc)))
        (fun a b => by simpa using le_total a.1 b.1) fields
    exact h.imp fun hab => of_decide_eq_true hab
  have hne : sorted.Pairwise fun a b => a.1 ≠ b.1 :=
    List.pairwise_map.mp ((hperm.map Prod.fst).nodup_iff.mpr hheaders)
  exact ⟨⟨"email", "consent_source", some "consent_at", some "first_name", some "last_name",
    some "tags", some "locale", sorted, (hle.and hne).imp fun h => lt_of_le_of_ne h.1 h.2⟩,
    ⟨rfl, rfl, rfl, rfl, rfl, rfl, rfl, hperm⟩⟩

/-- Different headers are resolved to the columns of the export. -/
lemma exists_resolve (h : (standardColumns ++ fieldKeys.map readName).Nodup) {map : ColumnMap}
    (hmap : map.Identity fieldKeys) : ∃ columns : Columns,
      Columns.resolve (header fieldKeys) map = some columns ∧ columns.Exported fieldKeys := by
  have hnames : ((header fieldKeys).map comparedName).Nodup := by
    rwa [map_comparedName_header]
  have hkeys : fieldKeys.Nodup := List.Nodup.of_map readName (List.nodup_append.mp h).2.1
  have hstandard : ∀ i name, standardColumns[i]? = some name →
      findColumn (header fieldKeys) name = some i := by
    intro i name hget
    obtain ⟨hi, -⟩ := List.getElem?_eq_some_iff.mp hget
    exact findColumn_of_nodup hnames ((getElem?_header_standard hi).trans hget)
  have hfields : (map.fields.mapM fun f =>
      (findColumn (header fieldKeys) f.1).map fun index => (index, f.2)) =
      some (map.fields.map fun f => (standardColumns.length + fieldKeys.idxOf f.2, f.2)) := by
    refine mapM_eq_some_map fun f hf => ?_
    obtain ⟨key, hkey, rfl⟩ := List.mem_map.mp (hmap.fields.mem_iff.mp hf)
    have hget : (header fieldKeys)[standardColumns.length + fieldKeys.idxOf key]? =
        some (neutralize (fieldHeader key)) := by
      rw [getElem?_header_field, List.getElem?_idxOf hkey]
      rfl
    rw [findColumn_of_nodup hnames hget]
    rfl
  have hwidth : (header fieldKeys).length = standardColumns.length + fieldKeys.length := by
    rw [header_eq, List.length_append, List.length_map]
  have hperm : (map.fields.map fun f =>
      (standardColumns.length + fieldKeys.idxOf f.2, f.2)).Perm
        ((fieldKeys.zipIdx standardColumns.length).map Prod.swap) := by
    refine (hmap.fields.map _).trans (List.Perm.of_eq ?_)
    rw [List.map_map]
    refine List.ext_getElem (by simp) fun i hi hi' => ?_
    have hi : i < fieldKeys.length := by simpa using hi
    simp [hkeys.idxOf_getElem]
  refine ⟨{
    width := (header fieldKeys).length
    email := 0
    consentSource := 5
    consentAt := some 6
    firstName := some 1
    lastName := some 2
    tags := some 3
    locale := some 4
    fields := map.fields.map fun f => (standardColumns.length + fieldKeys.idxOf f.2, f.2) }, ?_,
    hwidth, rfl, rfl, rfl, rfl, rfl, rfl, rfl, hperm⟩
  simp only [Columns.resolve, hmap.email, hmap.consentSource, hmap.consentAt, hmap.firstName,
    hmap.lastName, hmap.tags, hmap.locale, findColumn?, hstandard 0 "email" rfl,
    hstandard 1 "first_name" rfl, hstandard 2 "last_name" rfl, hstandard 3 "tags" rfl,
    hstandard 4 "locale" rfl, hstandard 5 "consent_source" rfl, hstandard 6 "consent_at" rfl,
    hfields]
  rfl

/-- **When an export maps back.** -/
theorem mapsBack_iff (hcsv : csv.Standard) (fieldKeys : List String) :
    MapsBack csv fieldKeys ↔
      FewSemicolons fieldKeys ∧ (standardColumns ++ fieldKeys.map readName).Nodup := by
  have hlength : 2 ≤ (header fieldKeys).length := by
    rw [header_eq, List.length_append]
    exact Nat.le_add_right_of_le (by decide)
  have hcomma : sniffDelimiter (firstLine (csv.write (header fieldKeys))) = ',' ↔
      FewSemicolons fieldKeys := by
    rw [hcsv.write_eq _ hlength]
    exact sniffDelimiter_header_iff fieldKeys
  constructor
  · intro h
    exact ⟨hcomma.mp h.comma, h.nodup hcsv⟩
  · rintro ⟨hfew, hnodup⟩
    obtain ⟨map, hmap⟩ := exists_identity (List.nodup_append.mp hnodup).2.1
    obtain ⟨columns, hresolve, hexported⟩ := exists_resolve hnodup hmap
    refine ⟨hcomma.mpr hfew, map, hmap, columns, ?_, hexported⟩
    rw [hcsv.read_write _ hlength]
    exact hresolve

/-! ## Headers that map back, and that do not -/

section Samples

/-- A library that writes and reads records. -/
def sampleCsv : CsvLibrary where
  write := csvRecord
  read delimiter s := (readCells delimiter .start [] s).map String.ofList

lemma sampleCsv_standard : sampleCsv.Standard where
  write_eq _ _ := rfl
  read_write _ h := readCells_csvRecord (List.ne_nil_of_length_pos (Nat.zero_lt_of_lt h))

theorem mapsBack_iff_formula : MapsBack sampleCsv ["=city", "a;b", "plan, since"] :=
  (mapsBack_iff sampleCsv_standard ["=city", "a;b", "plan, since"]).mpr ⟨by decide, by decide⟩

/-- **Exports that do not map back.**  Two fields have one header, and a name with semicolons makes
the semicolon the delimiter. -/
theorem not_mapsBack :
    ["email", "field_email"].Nodup ∧ ¬MapsBack sampleCsv ["email", "field_email"] ∧
      ¬MapsBack sampleCsv [";;;;;;;;;"] := by
  refine ⟨by decide, fun h => ?_, fun h => ?_⟩
  · exact absurd (h.nodup sampleCsv_standard) (by decide)
  · exact absurd ((sniffDelimiter_header_iff _).mp h.comma) (by decide)

end Samples

end Postit.Contacts
