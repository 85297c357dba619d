import Postit.Contacts.Export
import Postit.Core.Documents
import Postit.Framework.Splits

/-!
# An exported contact reads back

The row that an export writes of a contact stages the same contact, when its texts are trimmed and
not blank, its tags hold no separator, its custom fields are strings and its consent is from a year
of four digits.
-/

namespace Postit.Contacts

open Postit.Data Postit.Framework

/-! ## What is exported -/

/-- A text that is there, with no white space at its ends and no NUL in it. -/
def Plain (text : String) : Prop := text ≠ "" ∧ trim text = text ∧ hasNul text = false

instance (text : String) : Decidable (Plain text) := inferInstanceAs (Decidable (_ ∧ _ ∧ _))

/-- A year from `0` to `9999`, by the microseconds from 1970. -/
def FourDigitYear (t : Time) : Prop :=
  (-62167219200000000 : ℤ) ≤ t ∧ (t : ℤ) < 253402300800000000

/-- What the standard library and chrono do: trimming; lowercasing a trimmed address leaves it
trimmed, and lowercasing again changes nothing; and a printed time of a year of four digits is a
plain text, starts with a digit, and reads back as the time. -/
structure CellKeys.Standard (keys : CellKeys) (print : CellPrinters) : Prop where
  trim_eq : keys.trim = trim
  trim_normalizeEmail : ∀ raw, trim (keys.normalizeEmail raw) = keys.normalizeEmail raw
  toLowercase_idem : ∀ s, keys.toLowercase (keys.toLowercase s) = keys.toLowercase s
  plain_time : ∀ t, FourDigitYear t → Plain (print.time t)
  parse_time : ∀ t, FourDigitYear t → keys.parseRfc3339 (print.time t) = some t

/-- A contact whose row reads back.  Its address is one that was accepted, and its fields are a map
of the database. -/
structure Contact.Exportable (keys : CellKeys) (fieldKeys : List String) (c : Contact) : Prop where
  address : ∃ raw, keys.parseAddress raw = some c.email
  address_noNul : hasNul c.email = false
  firstName : ∀ text ∈ c.firstName, Plain text
  lastName : ∀ text ∈ c.lastName, Plain text
  tags : ∀ tag ∈ c.tags, Plain tag ∧ '|' ∉ tag.toList
  locale : ∀ text ∈ c.locale, Plain text
  consentAt : ∀ t ∈ c.consentAt, FourDigitYear t
  fields : ∀ key v, c.fields.get? key = some v →
    key ∈ fieldKeys ∧ ∃ text, v = .string text ∧ Plain text
  sorted : c.fields.Sorted

/-- The contact as a staged row: what is empty is left out. -/
def Contact.staged (c : Contact) (consentSource : String) : StagedContact where
  email := c.email
  consentSource := consentSource
  consentAt := c.consentAt
  firstName := c.firstName
  lastName := c.lastName
  tags := if c.tags = [] then none else some c.tags
  locale := c.locale
  fields := if c.fields.isEmpty then none else some c.fields

/-! ## One cell -/

variable {keys : CellKeys} {print : CellPrinters}

lemma isWhiteSpace_quote : isWhiteSpace quote = false := by decide

/-- A trimmed cell is trimmed when it is neutralized. -/
lemma trim_neutralize {cell : String} (h : trim cell = cell) :
    trim (neutralize cell) = neutralize cell := by
  unfold neutralize
  split
  · rw [Str.string_trim_eq_self_iff, String.toList_ofList]
    exact (Str.string_trim_eq_self_iff.mp h).cons isWhiteSpace_quote
  · exact h

/-- What a neutralized cell is read as. -/
lemma cell_neutralize (hkeys : keys.trim = trim) {record : List String} {index : ℕ} {cell : String}
    (hcell : record[index]? = some (neutralize cell)) (htrim : trim cell = cell) :
    keys.cell record index = if cell = "" then none else some cell := by
  rw [CellKeys.cell, hcell, Option.map_some, Option.bind_some, hkeys, trim_neutralize htrim,
    unescape_neutralize]
  simp only [neutralize_eq_empty_iff]

/-- An optional text. -/
lemma cell_getD (hkeys : keys.trim = trim) {record : List String} {index : ℕ}
    {text : Option String} (hcell : record[index]? = some (neutralize (text.getD "")))
    (hplain : ∀ t ∈ text, Plain t) : keys.cell record index = text := by
  cases text with
  | none => exact cell_neutralize hkeys hcell rfl
  | some t =>
    obtain ⟨hne, htrim, -⟩ := hplain t rfl
    rw [cell_neutralize hkeys hcell htrim]
    exact if_neg hne

lemma hasNul_neutralize (cell : String) : hasNul (neutralize cell) = hasNul cell := by
  unfold neutralize
  split
  · have hquote : (Char.ofNat 0 == quote) = false := by decide
    simp only [hasNul, String.toList_ofList, List.contains_cons, hquote, Bool.false_or]
  · rfl

/-! ## The tags -/

lemma toList_intercalate_tags (tags : List String) :
    ("|".intercalate tags).toList = ['|'].intercalate (tags.map String.toList) := by
  rw [String.toList_intercalate]
  rfl

lemma trim_intercalate_tags {tags : List String} (h : ∀ tag ∈ tags, Plain tag) :
    trim ("|".intercalate tags) = "|".intercalate tags := by
  rw [Str.string_trim_eq_self_iff, toList_intercalate_tags]
  refine Str.Trimmed.intercalate fun s hs => ?_
  obtain ⟨tag, htag, rfl⟩ := List.mem_map.mp hs
  obtain ⟨hne, htrim, -⟩ := h tag htag
  exact ⟨Str.string_trim_eq_self_iff.mp htrim, by simpa using hne⟩

lemma intercalate_tags_eq_empty_iff {tags : List String} (h : ∀ tag ∈ tags, Plain tag) :
    "|".intercalate tags = "" ↔ tags = [] := by
  rw [← String.toList_eq_nil_iff, toList_intercalate_tags]
  cases tags with
  | nil => simp
  | cons tag tags =>
    have hne := (h tag List.mem_cons_self).1
    cases tags <;> simp [List.intercalate, hne]

/-- Splitting the joined tags gives the tags. -/
lemma read_tags {tags : List String} (hne : tags ≠ [])
    (h : ∀ tag ∈ tags, Plain tag ∧ '|' ∉ tag.toList) :
    ((("|".intercalate tags).splitOn "|").map trim).filter (· ≠ "") = tags := by
  have hsplit : ("|".intercalate tags).splitOn "|" = tags :=
    splitOn_intercalate (c := '|') hne fun tag htag => (h tag htag).2
  have htrim : tags.map trim = tags := by
    conv_rhs => rw [← List.map_id tags]
    exact List.map_congr_left fun tag htag => (h tag htag).1.2.1
  rw [hsplit, htrim, List.filter_eq_self]
  exact fun tag htag => decide_eq_true (h tag htag).1.1

lemma hasNul_intercalate_tags {tags : List String} (h : ∀ tag ∈ tags, Plain tag) :
    hasNul ("|".intercalate tags) = false := by
  rw [hasNul, toList_intercalate_tags]
  induction tags with
  | nil => rfl
  | cons tag tags ih =>
    have ih := ih fun t ht => h t (List.mem_cons_of_mem _ ht)
    have htag : (tag.toList.contains (Char.ofNat 0)) = false := (h tag List.mem_cons_self).2.2
    cases tags with
    | nil => simpa [List.intercalate] using htag
    | cons t tags =>
      have heq : ['|'].intercalate ((tag :: t :: tags).map String.toList) =
          tag.toList ++ '|' :: ['|'].intercalate ((t :: tags).map String.toList) := by
        simp [List.intercalate]
      have hbar : (Char.ofNat 0 == '|') = false := by decide
      rw [heq, List.contains_append, htag, List.contains_cons, hbar, ih]
      rfl

/-! ## The custom fields -/

/-- The fields that are read, as members put together. -/
lemma foldl_fields (cell : ℕ → Option String) (fs : List (ℕ × String)) (acc : Members) :
    fs.foldl (fun acc f =>
      match cell f.1 with
      | some value => Members.insert acc f.2 (.string value)
      | none => acc) acc =
    acc.extend (fs.filterMap fun f => (cell f.1).map fun value => (f.2, Json.string value)) := by
  induction fs generalizing acc with
  | nil => rfl
  | cons f fs ih =>
    rw [List.foldl_cons, ih]
    cases hcell : cell f.1 with
    | none => simp [hcell]
    | some value => simp [hcell, Members.extend]

section Row

variable {c : Contact} {fieldKeys : List String}

/-- The cell of a custom field. -/
lemma getElem?_row_field {i : ℕ} {key : String}
    (h : (i, key) ∈ (fieldKeys.zipIdx standardColumns.length).map Prod.swap) :
    (row print c fieldKeys)[i]? = some (neutralize (fieldCell print (c.fields.get? key))) := by
  obtain ⟨⟨key', i'⟩, hmem, heq⟩ := List.mem_map.mp h
  obtain ⟨rfl, rfl⟩ : i' = i ∧ key' = key := by simpa using heq
  obtain ⟨hle, hget⟩ := List.mk_mem_zipIdx_iff_le_and_getElem?_sub.mp hmem
  have hlast : (plainRow print c fieldKeys)[i']? = (fieldKeys.map fun key =>
      fieldCell print (c.fields.get? key))[i' - standardColumns.length]? :=
    List.getElem?_append_right hle
  rw [row, List.getElem?_map, hlast, List.getElem?_map, hget]
  rfl

/-- What is read of it: the field's text, if it has one. -/
lemma cell_row_field (hkeys : keys.trim = trim) (hc : c.Exportable keys fieldKeys) {i : ℕ}
    {key : String} (h : (i, key) ∈ (fieldKeys.zipIdx standardColumns.length).map Prod.swap) :
    (keys.cell (row print c fieldKeys) i).map Json.string = c.fields.get? key := by
  have hcell : (row print c fieldKeys)[i]? =
      some (neutralize (fieldCell print (c.fields.get? key))) := getElem?_row_field h
  cases hget : c.fields.get? key with
  | none =>
    rw [hget] at hcell
    rw [cell_neutralize hkeys hcell rfl]
    rfl
  | some v =>
    obtain ⟨-, text, rfl, hne, htrim, -⟩ := hc.fields key v hget
    rw [hget] at hcell
    rw [cell_neutralize hkeys hcell htrim]
    exact congrArg (Option.map Json.string) (if_neg hne)

/-- The fields that are read are the contact's. -/
lemma read_fields (hkeys : keys.trim = trim) (hnodup : fieldKeys.Nodup)
    (hc : c.Exportable keys fieldKeys) {fs : List (ℕ × String)}
    (hfs : fs.Perm ((fieldKeys.zipIdx standardColumns.length).map Prod.swap)) :
    Members.extend [] (fs.filterMap fun f =>
      (keys.cell (row print c fieldKeys) f.1).map fun value => (f.2, Json.string value)) =
      c.fields := by
  set read := fs.filterMap fun f =>
    (keys.cell (row print c fieldKeys) f.1).map fun value => (f.2, Json.string value) with hread
  have hcell : ∀ f ∈ fs, (keys.cell (row print c fieldKeys) f.1).map Json.string =
      c.fields.get? f.2 := fun f hf => cell_row_field hkeys hc (hfs.mem_iff.mp hf)
  have hmem : ∀ m ∈ read, c.fields.get? m.1 = some m.2 := by
    intro m hm
    obtain ⟨f, hf, hm⟩ := List.mem_filterMap.mp hm
    obtain ⟨value, hvalue, rfl⟩ := Option.map_eq_some_iff.mp hm
    rw [← hcell f hf, hvalue]
    rfl
  have hkeysNodup : (fs.map Prod.snd).Nodup := by
    have hperm := hfs.map Prod.snd
    rw [List.map_map] at hperm
    refine hperm.nodup_iff.mpr ?_
    have hfst : Prod.snd ∘ Prod.swap = (Prod.fst : String × ℕ → String) := rfl
    rw [hfst, List.zipIdx_map_fst]
    exact hnodup
  have hreadNodup : (read.map Prod.fst).Nodup := by
    refine List.Sublist.nodup (Members.sublist_filterMap (fun f m hm => ?_) fs) hkeysNodup
    obtain ⟨value, -, rfl⟩ := Option.map_eq_some_iff.mp hm
    rfl
  have hsorted : Members.Sorted (Members.extend [] read) := Members.Sorted.extend .nil read
  refine hsorted.ext hc.sorted fun key => ?_
  cases hget : c.fields.get? key with
  | none =>
    refine (Members.get?_extend_of_not_mem ?_).trans rfl
    intro hkey
    obtain ⟨m, hm, rfl⟩ := List.mem_map.mp hkey
    rw [hmem m hm] at hget
    cases hget
  | some v =>
    obtain ⟨hkey, text, rfl, -⟩ := hc.fields key v hget
    refine Members.get?_extend hreadNodup ?_
    obtain ⟨i, hi⟩ : ∃ i, (i, key) ∈ fs := by
      obtain ⟨j, hj, rfl⟩ := List.getElem_of_mem hkey
      refine ⟨standardColumns.length + j, hfs.mem_iff.mpr (List.mem_map.mpr ?_)⟩
      refine ⟨(fieldKeys[j], standardColumns.length + j), ?_, rfl⟩
      exact List.mk_add_mem_zipIdx_iff_getElem?.mpr (List.getElem?_eq_getElem hj)
    have hvalue := hcell _ hi
    rw [hget] at hvalue
    obtain ⟨value, hvalue, heq⟩ := Option.map_eq_some_iff.mp hvalue
    cases heq
    exact List.mem_filterMap.mpr ⟨_, hi, by rw [hvalue]; rfl⟩

/-! ## The row -/

/-- The address is read as it is. -/
lemma Contact.Exportable.parseAddress (h : c.Exportable keys fieldKeys)
    (hkeys : keys.Standard print) : keys.parseAddress c.email = some c.email := by
  obtain ⟨raw, hraw⟩ := h.address
  have hnormal := keys.parseAddress_eq_some hraw
  have htrim : keys.trim c.email = c.email := by
    rw [hkeys.trim_eq, hnormal]
    exact hkeys.trim_normalizeEmail raw
  have hagain : keys.normalizeEmail c.email = keys.normalizeEmail raw := by
    calc keys.normalizeEmail c.email
        = keys.toLowercase c.email := congrArg keys.toLowercase htrim
      _ = keys.toLowercase (keys.normalizeEmail raw) := congrArg keys.toLowercase hnormal
      _ = keys.normalizeEmail raw := hkeys.toLowercase_idem _
  unfold CellKeys.parseAddress
  rw [hagain]
  exact hraw

/-- An accepted address is plain text. -/
lemma Contact.Exportable.plain_email (h : c.Exportable keys fieldKeys)
    (hkeys : keys.Standard print) : Plain c.email := by
  obtain ⟨raw, hraw⟩ := h.address
  have hnormal := keys.parseAddress_eq_some hraw
  refine ⟨fun hempty => ?_, ?_, h.address_noNul⟩
  · simp only [CellKeys.parseAddress, ← hnormal, hempty, true_or, if_true] at hraw
    cases hraw
  · rw [hnormal]
    exact hkeys.trim_normalizeEmail raw

lemma hasNul_getD {text : Option String} (h : ∀ t ∈ text, Plain t) :
    hasNul (text.getD "") = false := by
  cases text with
  | none => rfl
  | some t => exact (h t rfl).2.2

/-- No cell of the row holds a NUL. -/
lemma Contact.Exportable.hasNul_row (h : c.Exportable keys fieldKeys) (hkeys : keys.Standard print)
    (hsource : ∀ source ∈ c.consentSource, Plain source) :
    (row print c fieldKeys).any hasNul = false := by
  rw [row, List.any_map, List.any_eq_false]
  intro cell hcell hnul
  rw [Function.comp_apply, hasNul_neutralize] at hnul
  refine absurd hnul (Bool.eq_false_iff.mp ?_)
  rcases List.mem_append.mp hcell with hcell | hcell
  · have htime : hasNul ((c.consentAt.map print.time).getD "") = false := by
      refine hasNul_getD fun t ht => ?_
      obtain ⟨time, htime, rfl⟩ := Option.mem_map.mp ht
      exact hkeys.plain_time time (h.consentAt time htime)
    simp only [List.mem_cons, List.not_mem_nil, or_false] at hcell
    rcases hcell with rfl | rfl | rfl | rfl | rfl | rfl | rfl | rfl
    · exact h.address_noNul
    · exact hasNul_getD h.firstName
    · exact hasNul_getD h.lastName
    · exact hasNul_intercalate_tags fun tag htag => (h.tags tag htag).1
    · exact hasNul_getD h.locale
    · exact hasNul_getD hsource
    · exact htime
    · cases c.status <;> decide
  · obtain ⟨key, -, rfl⟩ := List.mem_map.mp hcell
    cases hget : c.fields.get? key with
    | none => rfl
    | some v =>
      obtain ⟨-, text, rfl, -, -, hnul⟩ := h.fields key v hget
      exact hnul

/-- The tags are read as they are. -/
lemma Contact.Exportable.read_tags_row (h : c.Exportable keys fieldKeys)
    (hkeys : keys.trim = trim) :
    (((keys.cell (row print c fieldKeys) 3).map fun cell =>
      ((cell.splitOn "|").map keys.trim).filter (· ≠ "")).filter (· ≠ [])) =
      if c.tags = [] then none else some c.tags := by
  have hplain : ∀ tag ∈ c.tags, Plain tag := fun tag htag => (h.tags tag htag).1
  have hcell : (row print c fieldKeys)[3]? = some (neutralize ("|".intercalate c.tags)) := rfl
  rw [cell_neutralize hkeys hcell (trim_intercalate_tags hplain)]
  by_cases hnil : c.tags = []
  · rw [if_pos hnil, if_pos ((intercalate_tags_eq_empty_iff hplain).mpr hnil)]
    rfl
  · rw [if_neg hnil, if_neg (mt (intercalate_tags_eq_empty_iff hplain).mp hnil), Option.map_some,
      hkeys, read_tags hnil h.tags]
    exact Option.filter_some_pos (decide_eq_true hnil)

/-- The time of consent is read as it is. -/
lemma Contact.Exportable.consentTime (h : c.Exportable keys fieldKeys)
    (hkeys : keys.Standard print) :
    keys.consentTime (keys.cell (row print c fieldKeys) 6) = .ok c.consentAt := by
  have hcell : keys.cell (row print c fieldKeys) 6 = c.consentAt.map print.time := by
    refine cell_getD hkeys.trim_eq rfl fun t ht => ?_
    obtain ⟨time, htime, rfl⟩ := Option.mem_map.mp ht
    exact hkeys.plain_time time (h.consentAt time htime)
  rw [hcell]
  cases htime : c.consentAt with
  | none => rfl
  | some time =>
    have hparse := hkeys.parse_time time (h.consentAt time htime)
    simp only [Option.map_some, CellKeys.consentTime, CellKeys.parseTime, hparse]
    rfl

/-- A contact's row, read with the columns of the export, stages the contact; and removing the
escape undoes neutralizing in every text. -/
theorem parseRow_row {columns : Columns} {source : String} {seen : List EmailHash}
    (hkeys : keys.Standard print) (hnodup : fieldKeys.Nodup) (hc : c.Exportable keys fieldKeys)
    (hsource : c.consentSource = some source) (hplain : Plain source)
    (hcolumns : columns.Exported fieldKeys) (hnew : keys.emailHash c.email ∉ seen) :
    keys.parseRow columns (row print c fieldKeys) seen =
        .ok (c.staged source, keys.emailHash c.email :: seen) ∧
      ∀ cell, unescape (neutralize cell) = cell := by
  refine ⟨?_, unescape_neutralize⟩
  have hsources : ∀ text ∈ c.consentSource, Plain text := by
    intro text htext
    rw [hsource] at htext
    exact Option.some.inj htext ▸ hplain
  have hlength : (row print c fieldKeys).length = columns.width := by
    simp only [row, plainRow, List.length_map, List.length_append, hcolumns.width, standardColumns,
      List.length_cons]
  have hgood : ¬ ((row print c fieldKeys).length ≠ columns.width ∨
      (row print c fieldKeys).any hasNul = true) := by
    simp [hlength, hc.hasNul_row hkeys hsources]
  have hemail : keys.cell (row print c fieldKeys) columns.email = some c.email := by
    obtain ⟨hne, htrim, -⟩ := hc.plain_email hkeys
    rw [hcolumns.email, cell_neutralize hkeys.trim_eq rfl htrim]
    exact if_neg hne
  have hconsent : keys.cell (row print c fieldKeys) columns.consentSource = some source := by
    rw [hcolumns.consentSource, ← hsource]
    exact cell_getD hkeys.trim_eq rfl hsources
  have hfirst : keys.cell (row print c fieldKeys) 1 = c.firstName :=
    cell_getD hkeys.trim_eq rfl hc.firstName
  have hlast : keys.cell (row print c fieldKeys) 2 = c.lastName :=
    cell_getD hkeys.trim_eq rfl hc.lastName
  have hlocale : keys.cell (row print c fieldKeys) 4 = c.locale :=
    cell_getD hkeys.trim_eq rfl hc.locale
  have hfields := (foldl_fields (keys.cell (row print c fieldKeys)) columns.fields []).trans
    (read_fields hkeys.trim_eq hnodup hc hcolumns.fields)
  unfold CellKeys.parseRow
  rw [if_neg hgood]
  simp only [hemail, Option.bind_some, hc.parseAddress hkeys, hconsent, hcolumns.consentAt,
    hcolumns.firstName, hcolumns.lastName, hcolumns.tags, hcolumns.locale, hc.consentTime hkeys,
    hfirst, hlast, hlocale, hc.read_tags_row hkeys.trim_eq]
  rw [show (Except.ok c.consentAt : Except String (Option Time)) = pure c.consentAt from rfl,
    pure_bind, if_neg hnew]
  exact congrArg (fun fields : Members => Except.ok
    (({ c.staged source with fields := if fields.isEmpty then none else some fields } :
      StagedContact), keys.emailHash c.email :: seen)) hfields

end Row

/-! ## A run -/

section Samples

def sampleTime : String := "1970-01-01T00:00:00Z"

/-- How far the year `0` is from 1970. -/
def beforeEpoch : ℤ := 62167219200000000

/-- A printer that is chrono's at the epoch. -/
def samplePrinters : CellPrinters where
  time t := if t = (0 : ℤ) then sampleTime
    else String.ofList ('x' :: List.replicate ((t : ℤ) + beforeEpoch).toNat 'x')
  json _ := "{}"

def sampleCellKeys : CellKeys where
  trim := trim
  toLowercase raw := raw
  hmac raw := raw.length
  isAddress raw := raw.toList.contains '@'
  parseRfc3339 text :=
    if text = sampleTime then some (0 : ℤ) else some ((text.length : ℤ) - 1 - beforeEpoch)
  parseDate _ := none

lemma trimmed_replicate (n : ℕ) : Str.Trimmed ('x' :: List.replicate n 'x') := by
  have hx : ∀ c ∈ 'x' :: List.replicate n 'x', isWhiteSpace c = false := by
    intro c hc
    obtain rfl : c = 'x' := by
      rcases List.mem_cons.mp hc with rfl | hc
      · rfl
      · exact List.eq_of_mem_replicate hc
    decide
  exact ⟨fun c hc => hx c (List.mem_of_mem_head? hc), fun c hc => hx c (List.mem_of_getLast? hc)⟩

lemma sampleCellKeys_standard : sampleCellKeys.Standard samplePrinters where
  trim_eq := rfl
  trim_normalizeEmail raw := by
    refine Str.string_trim_eq_self_iff.mpr ?_
    have h := Str.trimmed_trim raw.toList
    rwa [← Str.toList_trim] at h
  toLowercase_idem _ := rfl
  plain_time t _ := by
    simp only [samplePrinters]
    split
    · exact ⟨by decide, by decide, by decide⟩
    · refine ⟨?_, ?_, ?_⟩
      · simp
      · rw [Str.string_trim_eq_self_iff, String.toList_ofList]
        exact trimmed_replicate _
      · simp [hasNul]
  parse_time t ht := by
    simp only [samplePrinters, sampleCellKeys]
    split
    · next h => simp [h]
    · have hne : String.ofList ('x' :: List.replicate ((t : ℤ) + beforeEpoch).toNat 'x') ≠
          sampleTime := by
        intro h
        have hhead := congrArg (fun s => s.toList.head?) h
        rw [String.toList_ofList] at hhead
        exact absurd (Option.some.inj hhead) (by decide)
      rw [if_neg hne, String.length_ofList, List.length_cons, List.length_replicate]
      have hle : (0 : ℤ) ≤ (t : ℤ) + beforeEpoch := by
        have hlow := ht.1
        simp only [beforeEpoch]
        omega
      push_cast [Int.toNat_of_nonneg hle]
      exact congrArg some (by rw [Int.add_sub_cancel, Int.add_sub_cancel])

def sampleContact : Contact where
  ownerId := 1
  email := "ada@example.org"
  emailHash := 15
  firstName := some "'=Ada"
  lastName := none
  fields := [("plan", .string "-pro")]
  tags := ["=news", "vip"]
  locale := some "en"
  consentSource := some "form"
  consentAt := some (0 : ℤ)
  status := .subscribed
  statusChangedAt := (0 : ℤ)
  createdAt := (0 : ℤ)
  updatedAt := (0 : ℤ)
  createdBy := 1
  updatedBy := 1

/-- The columns of an export with two custom fields. -/
def sampleColumns : Columns where
  width := 10
  email := 0
  consentSource := 5
  consentAt := some 6
  firstName := some 1
  lastName := some 2
  tags := some 3
  locale := some 4
  fields := [(9, "plan"), (8, "city")]

lemma sampleContact_exportable :
    sampleContact.Exportable sampleCellKeys ["city", "plan"] where
  address := ⟨"ada@example.org", rfl⟩
  address_noNul := by decide
  firstName text h := Option.some.inj h ▸ by decide
  lastName _ h := nomatch h
  tags tag h := by
    have hall : ∀ tag ∈ sampleContact.tags, Plain tag ∧ '|' ∉ tag.toList :=
      of_decide_eq_true (@id (@decide _ (List.decidableBAll _ _) = true) rfl)
    exact hall tag h
  locale text h := Option.some.inj h ▸ by decide
  consentAt t h := Option.some.inj h ▸ ⟨by decide, by decide⟩
  fields key v h := by
    have hmem := Members.mem_of_get? h
    obtain ⟨rfl, rfl⟩ := Prod.mk.inj (List.mem_singleton.mp hmem)
    exact ⟨by decide, "-pro", rfl, by decide⟩
  sorted := List.pairwise_singleton _ _

theorem parseRow_row_sample :
    sampleCellKeys.parseRow sampleColumns (row samplePrinters sampleContact ["city", "plan"]) [] =
        .ok (sampleContact.staged "form", [15]) ∧
      ∀ cell, unescape (neutralize cell) = cell :=
  parseRow_row sampleCellKeys_standard (by decide) sampleContact_exportable rfl
    ⟨by decide, by decide, by decide⟩
    ⟨rfl, rfl, rfl, rfl, rfl, rfl, rfl, rfl, by decide⟩ (by decide)

end Samples

end Postit.Contacts
