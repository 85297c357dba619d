import Postit.Contacts.Import

/-!
# Exporting contacts

The header and the rows of a CSV export.  A cell that a spreadsheet could run as a formula is
neutralized with a leading quote, which the importer removes.  How a time is printed is chrono's,
and how a value that is no text is, the JSON library's.
-/

namespace Postit.Contacts

open Postit.Data

/-- The columns every export starts with, in order. -/
def standardColumns : List String :=
  ["email", "first_name", "last_name", "tags", "locale", "consent_source", "consent_at", "status"]

def neutralize (cell : String) : String :=
  if needsNeutralizing cell.toList then String.ofList (quote :: cell.toList) else cell

/-- What cells are written with. -/
structure CellPrinters where
  /-- `to_rfc3339_opts(AutoSi, true)` -/
  time : Time → String
  /-- a JSON value as a text -/
  json : Json → String

/-- A custom field's cell: strings as they are, `null` empty, anything else as JSON text. -/
def fieldCell (print : CellPrinters) : Option Json → String
  | none | some .null => ""
  | some (.string text) => text
  | some other => print.json other

/-- The header of a custom field.  A key that would repeat a standard column gets another. -/
def fieldHeader (key : String) : String :=
  if key ∈ standardColumns then "field_" ++ key else key

def ContactStatus.asStr : ContactStatus → String
  | .subscribed => "subscribed"
  | .unsubscribed => "unsubscribed"
  | .bounced => "bounced"
  | .complained => "complained"

/-- The cells of a contact, as they are. -/
def plainRow (print : CellPrinters) (c : Contact) (fieldKeys : List String) : List String :=
  [c.email, c.firstName.getD "", c.lastName.getD "", "|".intercalate c.tags, c.locale.getD "",
    c.consentSource.getD "", (c.consentAt.map print.time).getD "", c.status.asStr] ++
  fieldKeys.map fun key => fieldCell print (c.fields.get? key)

/-- The row of a contact. -/
def row (print : CellPrinters) (c : Contact) (fieldKeys : List String) : List String :=
  (plainRow print c fieldKeys).map neutralize

/-- The header row, for the keys of the custom fields. -/
def header (fieldKeys : List String) : List String :=
  (standardColumns ++ fieldKeys.map fieldHeader).map neutralize

/-- The columns are those an export writes: the standard ones but the status, then one for each
key. -/
structure Columns.Exported (columns : Columns) (fieldKeys : List String) : Prop where
  width : columns.width = standardColumns.length + fieldKeys.length
  email : columns.email = 0
  firstName : columns.firstName = some 1
  lastName : columns.lastName = some 2
  tags : columns.tags = some 3
  locale : columns.locale = some 4
  consentSource : columns.consentSource = 5
  consentAt : columns.consentAt = some 6
  fields : columns.fields.Perm ((fieldKeys.zipIdx standardColumns.length).map Prod.swap)

/-! ## Neutralizing -/

lemma needsNeutralizing_cons_quote (cell : List Char) :
    needsNeutralizing (quote :: cell) = needsNeutralizing cell := by
  rw [needsNeutralizing, List.dropWhile_cons_of_pos (by simp)]
  rfl

/-- Removing the quote undoes neutralizing, however many quotes the cell starts with. -/
lemma unescape_neutralize (cell : String) : unescape (neutralize cell) = cell := by
  unfold neutralize
  split
  · next hneeds =>
    simp [unescape, hneeds]
  · next hneeds =>
    unfold unescape
    split
    · next c rest heq =>
      refine if_neg ?_
      rintro ⟨rfl, hrest⟩
      rw [heq, needsNeutralizing_cons_quote] at hneeds
      exact hneeds hrest
    · rfl

lemma neutralize_eq_empty_iff {cell : String} : neutralize cell = "" ↔ cell = "" := by
  unfold neutralize
  split
  · next hneeds =>
    constructor
    · intro h
      simpa using congrArg String.toList h
    · rintro rfl
      exact absurd hneeds (by decide)
  · rfl

end Postit.Contacts
