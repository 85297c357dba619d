import Postit.Contacts.Export
import Postit.Framework.Csv

/-!
# Resolving the columns of an import

The delimiter of a file is guessed from its first line, and the mapped columns are found by their
headers.  Reading and writing records is the CSV library's.
-/

namespace Postit.Contacts

open Postit.Framework

/-! ## The delimiter -/

/-- What was counted in a header line.  What is counted has one byte. -/
structure Sniffed where
  commas : ℕ := 0
  semicolons : ℕ := 0
  quoted : Bool := false

def Sniffed.next (s : Sniffed) (c : Char) : Sniffed :=
  if c = '\x22' then { s with quoted := !s.quoted }
  else if c = ',' ∧ s.quoted = false then { s with commas := s.commas + 1 }
  else if c = ';' ∧ s.quoted = false then { s with semicolons := s.semicolons + 1 }
  else s

/-- A semicolon when the header line has more semicolons than commas outside quotes. -/
def sniffDelimiter (header : Str) : Char :=
  let s := header.foldl Sniffed.next {}
  if s.commas < s.semicolons then ';' else ','

/-! ## The columns -/

/-- Which header holds each field.  The custom fields are a map, from headers to field names. -/
structure ColumnMap where
  email : String
  consentSource : String
  consentAt : Option String := none
  firstName : Option String := none
  lastName : Option String := none
  tags : Option String := none
  locale : Option String := none
  fields : List (String × String)
  sorted : fields.Pairwise fun a b => a.1 < b.1

/-- A header as it is compared. -/
def comparedName (name : String) : String := unescape (trim name)

/-- Where the headers have a name. -/
def positions (headers : List String) (name : String) : List ℕ :=
  (headers.zipIdx.filter fun h => comparedName h.1 = comparedName name).map Prod.snd

/-- The position of a header, unless it is missing or there twice. -/
def findColumn (headers : List String) (name : String) : Option ℕ :=
  match positions headers name with
  | [index] => some index
  | _ => none

def findColumn? (headers : List String) : Option String → Option (Option ℕ)
  | none => some none
  | some name => (findColumn headers name).map some

/-- Finds every mapped header, or the file is unusable. -/
def Columns.resolve (headers : List String) (map : ColumnMap) : Option Columns := do
  let email ← findColumn headers map.email
  let consentSource ← findColumn headers map.consentSource
  let consentAt ← findColumn? headers map.consentAt
  let firstName ← findColumn? headers map.firstName
  let lastName ← findColumn? headers map.lastName
  let tags ← findColumn? headers map.tags
  let locale ← findColumn? headers map.locale
  let fields ← map.fields.mapM fun f => (findColumn headers f.1).map fun index => (index, f.2)
  pure
    { width := headers.length
      email
      consentSource
      consentAt
      firstName
      lastName
      tags
      locale
      fields }

/-- The CSV library: how a record is written, and the first record read with a delimiter. -/
structure CsvLibrary where
  write : List String → Str
  read : Char → Str → List String

/-- The map from each header of an export to what it holds. -/
structure ColumnMap.Identity (map : ColumnMap) (fieldKeys : List String) : Prop where
  email : map.email = "email"
  consentSource : map.consentSource = "consent_source"
  consentAt : map.consentAt = some "consent_at"
  firstName : map.firstName = some "first_name"
  lastName : map.lastName = some "last_name"
  tags : map.tags = some "tags"
  locale : map.locale = some "locale"
  fields : map.fields.Perm (fieldKeys.map fun key => (neutralize (fieldHeader key), key))

/-! ## Positions -/

lemma mem_positions {headers : List String} {name : String} {i : ℕ} :
    i ∈ positions headers name ↔
      ∃ header, headers[i]? = some header ∧ comparedName header = comparedName name := by
  rw [positions, List.mem_map]
  constructor
  · rintro ⟨⟨header, j⟩, hmem, rfl⟩
    obtain ⟨hmem, hname⟩ := List.mem_filter.mp hmem
    exact ⟨header, by simpa using List.mem_zipIdx_iff_getElem?.mp hmem, by simpa using hname⟩
  · rintro ⟨header, hget, hname⟩
    refine ⟨(header, i), List.mem_filter.mpr ⟨?_, by simpa using hname⟩, rfl⟩
    exact List.mem_zipIdx_iff_getElem?.mpr (by simpa using hget)

lemma nodup_positions (headers : List String) (name : String) :
    (positions headers name).Nodup := by
  have hsub : (positions headers name).Sublist (headers.zipIdx.map Prod.snd) :=
    List.filter_sublist.map Prod.snd
  refine hsub.nodup ?_
  rw [List.zipIdx_map_snd]
  exact List.nodup_range'

/-- A column is found where its name is, and nowhere else. -/
lemma findColumn_eq_some_iff {headers : List String} {name : String} {i : ℕ} :
    findColumn headers name = some i ↔ ∀ j, j ∈ positions headers name ↔ j = i := by
  rw [findColumn]
  constructor
  · intro h
    split at h
    · next index heq =>
      cases h
      simp [heq]
    · cases h
  · intro h
    have hone : positions headers name = [i] := by
      refine List.perm_singleton.mp ?_
      refine (List.perm_ext_iff_of_nodup (nodup_positions _ _) (List.nodup_singleton i)).mpr ?_
      simpa using h
    rw [hone]

end Postit.Contacts
