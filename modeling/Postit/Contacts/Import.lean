import Mathlib.Algebra.Order.Group.Multiset
import Mathlib.Data.List.Dedup
import Postit.Contacts.Book
import Postit.Framework.Results

/-!
# Importing contacts

A CSV upload is read row by row.  A row the file itself condemns goes to the import's report, every
other one is staged in `contact_import_rows`; the rows read are written a chunk at a time.  The
`contact_import` job then takes the staged rows, a chunk in a transaction, and makes contacts of
them.

What is modelled is one import: its row of `contact_imports`, its staged rows, and the contacts and
lists of its owner.  A staged row is kept as it is read back.  Times, and who attested consent, are
left out.
-/

namespace Postit.Contacts

open Postit.Data Postit.Framework

/-- `i32::MAX`. -/
def i32Max : ℕ := 2 ^ 31 - 1

/-- How many rows a transaction stages, and how many staged rows a transaction applies. -/
def chunk : ℕ := 1000

/-- How many rejected rows a report lists. -/
def reportEntriesMax : ℕ := 1000

/-! ## Reading a row -/

/-- What cells are read with: addresses, and the two forms of a time. -/
structure CellKeys extends MailKeys where
  -- whether `lettre` takes the text as an address
  isAddress : String → Bool
  parseRfc3339 : String → Option Time
  -- midnight of a `%Y-%m-%d` date
  parseDate : String → Option Time

/-- The file positions of the mapped columns. -/
structure Columns where
  width : ℕ
  email : ℕ
  consentSource : ℕ
  consentAt : Option ℕ := none
  firstName : Option ℕ := none
  lastName : Option ℕ := none
  tags : Option ℕ := none
  locale : Option ℕ := none
  fields : List (ℕ × String) := []

/-- One staged row, as the job reads it back. -/
structure StagedContact where
  email : String
  consentSource : String
  consentAt : Option Time
  firstName : Option String
  lastName : Option String
  tags : Option (List String)
  locale : Option String
  fields : Option Members

/-- What starts a cell a spreadsheet may run as a formula. -/
def formulaStarts : List Char := ['=', '+', '-', '@', '\t', '\r']

/-- The character that neutralizes a cell. -/
def quote : Char := Char.ofNat 39

/-- Whether a cell must be neutralized. -/
def needsNeutralizing (cell : List Char) : Bool :=
  match cell.dropWhile (· = quote) with
  | c :: _ => c ∈ formulaStarts
  | [] => false

/-- Undoes the export's neutralizing. -/
def unescape (cell : String) : String :=
  match cell.toList with
  | c :: rest => if c = quote ∧ needsNeutralizing rest then String.ofList rest else cell
  | [] => cell

def hasNul (text : String) : Bool := text.toList.contains (Char.ofNat 0)

namespace CellKeys

variable (keys : CellKeys)

/-- The longest address. -/
def maxAddressLen : ℕ := 254

/-- An email address, normalized. -/
def parseAddress (raw : String) : Option String :=
  let normalized := keys.normalizeEmail raw
  if normalized = "" ∨ maxAddressLen < normalized.utf8ByteSize then none
  else if keys.isAddress normalized then some normalized
  else none

lemma parseAddress_eq_some {raw email : String} (h : keys.parseAddress raw = some email) :
    email = keys.normalizeEmail raw := by
  simp only [parseAddress] at h
  split at h
  · cases h
  · split at h
    · exact (Option.some.inj h).symm
    · cases h

def parseTime (text : String) : Option Time := keys.parseRfc3339 text <|> keys.parseDate text

/-- When consent was given, as the cell says. -/
def consentTime : Option String → Except String (Option Time)
  | none => pure none
  | some text =>
    match keys.parseTime text with
    | some time => pure (some time)
    | none => throw "consent_at_invalid"

/-- A cell of the row, trimmed and with the export's escape undone; a blank one is `none`. -/
def cell (record : List String) (index : ℕ) : Option String :=
  (record[index]?.map keys.trim).bind fun raw => if raw = "" then none else some (unescape raw)

/-- Maps one data row to its staged form and the addresses seen with it, or to the reason it is
rejected.  `seen` holds the address hashes of the file's accepted rows. -/
def parseRow (columns : Columns) (record : List String) (seen : List EmailHash) :
    Except String (StagedContact × List EmailHash) := do
  if record.length ≠ columns.width ∨ record.any hasNul then throw "row_malformed"
  let cell := keys.cell record
  let optional (index : Option ℕ) := index.bind cell
  let some email := (cell columns.email).bind keys.parseAddress | throw "email_invalid"
  let some consentSource := cell columns.consentSource | throw "consent_missing"
  let consentAt ← keys.consentTime (optional columns.consentAt)
  if keys.emailHash email ∈ seen then throw "duplicate_in_file"
  let tags := ((optional columns.tags).map fun cell =>
    ((cell.splitOn "|").map keys.trim).filter (· ≠ "")).filter (· ≠ [])
  let fields := columns.fields.foldl (fun acc f =>
    match cell f.1 with
    | some value => Members.insert acc f.2 (.string value)
    | none => acc) ([] : Members)
  let staged : StagedContact :=
    { email
      consentSource
      consentAt
      firstName := optional columns.firstName
      lastName := optional columns.lastName
      tags
      locale := optional columns.locale
      fields := if fields.isEmpty then none else some fields }
  pure (staged, keys.emailHash email :: seen)

/-- An accepted row is the first with its address. -/
lemma parseRow_ok {columns : Columns} {record : List String} {seen : List EmailHash}
    {result : StagedContact × List EmailHash} (h : keys.parseRow columns record seen = .ok result) :
    result.2 = keys.emailHash result.1.email :: seen ∧ keys.emailHash result.1.email ∉ seen := by
  unfold parseRow at h
  by_cases hbad : record.length ≠ columns.width ∨ record.any hasNul = true
  · rw [if_pos hbad] at h
    cases h
  rw [if_neg hbad] at h
  cases hemail : (keys.cell record columns.email).bind keys.parseAddress with
  | none =>
    simp only [hemail] at h
    cases h
  | some email =>
    cases hconsent : keys.cell record columns.consentSource with
    | none =>
      simp only [hemail, hconsent] at h
      cases h
    | some consentSource =>
      simp only [hemail, hconsent] at h
      obtain ⟨consentAt, -, h⟩ := bind_eq_ok h
      by_cases hseen : keys.emailHash email ∈ seen
      · rw [if_pos hseen] at h
        cases h
      · rw [if_neg hseen] at h
        obtain rfl := Except.ok.inj h
        exact ⟨rfl, hseen⟩

end CellKeys

/-! ## The tables -/

inductive ImportStatus
  | processing
  | completed
  | failed
  deriving DecidableEq, Repr

/-- One file row waiting for the import job. -/
structure StagedRow where
  rowNo : ℕ
  data : StagedContact

/-- A row an import did not turn into a contact. -/
structure ImportRejection where
  rowNo : ℕ
  code : String
  deriving DecidableEq, Repr

/-- The first rejected rows, and how many rows were rejected for each reason. -/
structure ImportReport where
  entries : List ImportRejection := []
  totals : Table String ℕ := ∅

/-- One rejected row is listed, while there is room, and counted. -/
def ImportReport.add (report : ImportReport) (reject : ImportRejection) : ImportReport where
  entries :=
    if report.entries.length < reportEntriesMax then report.entries ++ [reject]
    else report.entries
  totals := report.totals.insert reject.code ((report.totals.lookup reject.code).getD 0 + 1)

def ImportReport.addAll (report : ImportReport) (rejects : List ImportRejection) : ImportReport :=
  rejects.foldl ImportReport.add report

/-- How many rows the report's totals count. -/
def ImportReport.sum (report : ImportReport) : ℕ := (report.totals.entries.map Sigma.snd).sum

/-- A row of `contact_imports`. -/
structure ContactImport where
  status : ImportStatus := .processing
  rowsTotal : ℕ := 0
  rowsOk : ℕ := 0
  rowsRejected : ℕ := 0
  report : ImportReport := {}
  listId : Option ContactListId := none

/-- The row of the import, and its rows of `contact_import_rows` by their number. -/
structure ImportDb where
  row : Option ContactImport
  staged : Table ℕ StagedContact

/-- The staged rows. -/
def ImportDb.stagedRows (db : ImportDb) : List StagedRow :=
  db.staged.entries.map fun e => ⟨e.1, e.2⟩

/-- The row after a change of it. -/
def ImportDb.change (db : ImportDb) (f : ContactImport → ContactImport) : ImportDb :=
  { db with row := db.row.map f }

/-- The staged rows without those with the numbers. -/
def ImportDb.drop (db : ImportDb) (numbers : List ℕ) : ImportDb :=
  { db with staged := db.staged.deleteWhere fun n _ => n ∈ numbers }

/-- The rows are inserted, unless one of their numbers is taken. -/
def insertNew? (staged : Table ℕ StagedContact) (rows : List StagedRow) :
    Option (Table ℕ StagedContact) :=
  rows.foldlM (fun staged r => if r.rowNo ∈ staged then none
    else some (staged.insert r.rowNo r.data)) staged

namespace ContactImportRepo

variable (scope : OwnerScope) (db : ImportDb)

def get : Except DataError ContactImport := do
  required scope .ownerOnly
  let some r := db.row | throw .notFound
  pure r

/-- Records the start of an import. -/
def create (rowsTotal : ℕ) (list : Option ContactListId) : ImportDb :=
  ⟨some { rowsTotal, listId := list }, ∅⟩

/-- Stages parsed file rows for the import job. -/
def stageRows (rows : List StagedRow) : Except DataError ImportDb := do
  required scope .ownerOnly
  let r ← get scope db
  if r.status ≠ .processing then throw (.conflict "import_finished")
  let some staged := insertNew? db.staged rows | throw .sql
  pure { db with staged }

/-- Sets how many rows the file had. -/
def setTotal (rowsTotal : ℕ) : Except DataError ImportDb := do
  required scope .ownerOnly
  if db.row.isNone then throw .notFound
  pure (db.change fun r => { r with rowsTotal })

/-- The staged rows with the lowest numbers, of those that nobody has locked. -/
def takeChunk (locked : List ℕ) (limit : ℕ) : List StagedRow :=
  (db.staged.selectFirst (fun n _ => n ∉ locked) (fun a b => a.1 ≤ b.1) limit).map
    fun r => ⟨r.1, r.2⟩

/-- Adds to an import's counts and report.  The counts are columns of 32 bits. -/
def progress (okDelta : ℕ) (rejects : List ImportRejection) : Except DataError ImportDb := do
  let some r := db.row | throw .notFound
  let rowsOk := r.rowsOk + okDelta
  let rowsRejected := r.rowsRejected + min rejects.length i32Max
  if i32Max < rowsOk ∨ i32Max < rowsRejected then throw .sql
  pure (db.change fun r => { r with rowsOk, rowsRejected, report := r.report.addAll rejects })

/-- Closes an import as completed. -/
def complete : Except DataError ImportDb :=
  match db.row with
  | none => throw .notFound
  | some r =>
    if r.status = .processing then pure (db.change fun r => { r with status := .completed })
    else throw (.conflict "import_finished")

end ContactImportRepo

/-! ## Staging -/

/-- What a staging run has read but not yet written. -/
structure Pending where
  rows : List StagedRow := []
  rejects : List ImportRejection := []

def Pending.len (p : Pending) : ℕ := p.rows.length + p.rejects.length

def Pending.pushRow (p : Pending) (row : StagedRow) : Pending := ⟨p.rows ++ [row], p.rejects⟩

def Pending.pushReject (p : Pending) (reject : ImportRejection) : Pending :=
  ⟨p.rows, p.rejects ++ [reject]⟩

@[simp] lemma Pending.len_pushRow (p : Pending) (row : StagedRow) :
    (p.pushRow row).len = p.len + 1 := by
  simp only [len, pushRow, List.length_append, List.length_singleton]
  omega

@[simp] lemma Pending.len_pushReject (p : Pending) (reject : ImportRejection) :
    (p.pushReject reject).len = p.len + 1 := by
  simp only [len, pushReject, List.length_append, List.length_singleton]
  omega

def Pending.stage (p : Pending) (scope : OwnerScope) (db : ImportDb) :
    Except DataError ImportDb :=
  if p.rows.isEmpty then pure db else ContactImportRepo.stageRows scope db p.rows

/-- Stages the rows and counts the rejects. -/
def Pending.write (p : Pending) (scope : OwnerScope) (db : ImportDb) :
    Except DataError ImportDb := do
  let db ← p.stage scope db
  if p.rejects.isEmpty then pure db else ContactImportRepo.progress db 0 p.rejects

/-- The number of a data row by the count of rows read; the header is row 1. -/
def rowNo (rows : UInt32) : ℕ := min (rows.toNat + 1) i32Max

/-- A running upload: what is left of the file, the count of rows read, the addresses of the rows
accepted, and what is not yet written. -/
structure Upload where
  rest : List (List String)
  rows : UInt32 := 0
  seen : List EmailHash := []
  pending : Pending := {}

/-- The next row is parsed. -/
def Upload.next (keys : CellKeys) (columns : Columns) (u : Upload) (record : List String)
    (rest : List (List String)) : Upload :=
  let rows := u.rows + 1
  match keys.parseRow columns record u.seen with
  | .ok (data, seen) => ⟨rest, rows, seen, u.pending.pushRow ⟨rowNo rows, data⟩⟩
  | .error code => ⟨rest, rows, u.seen, u.pending.pushReject ⟨rowNo rows, code⟩⟩

/-- The last transaction: what is left is written, and the total is set. -/
def Upload.finish (u : Upload) (scope : OwnerScope) (db : ImportDb) :
    Except DataError ImportDb := do
  let db ← u.pending.write scope db
  ContactImportRepo.setTotal scope db (min u.rows.toNat i32Max)

/-! ## Applying -/

/-- A contact list and its members. -/
structure ContactList where
  ownerId : UserId
  members : List ContactId

/-- The contacts, the lists, and how many contacts the owner may have; 0 is no limit. -/
structure Owned where
  book : Book
  lists : Table ContactListId ContactList
  cap : ℕ

def ContactRepo.count (book : Book) (owner : UserId) : ℕ :=
  (book.contacts.rows.select fun _ c => c.ownerId = owner).length

/-- Whether the owner has a contact with this address hash. -/
def ContactRepo.exists? (book : Book) (owner : UserId) (hash : EmailHash) : Bool :=
  book.contacts.rows.exists? fun _ c => c.Of owner hash

/-- Adds contacts to a list. -/
def ContactListRepo.addMembers (scope : OwnerScope) (owned : Owned) (list : ContactListId)
    (contacts : List ContactId) : Except DataError Owned := do
  required scope .edit
  let some l := (owned.lists.lookup list).filter fun l => l.ownerId = scope.owner
    | throw .notFound
  if contacts.any fun id => (owned.book.contactOf scope.owner id).isNone then throw .notFound
  let members := l.members ++ contacts.dedup.filter (· ∉ l.members)
  pure { owned with lists := owned.lists.insert list { l with members } }

/-- The contacts of a chunk join the import's list; a list deleted since the import started adds no
members. -/
def Owned.join (scope : OwnerScope) (owned : Owned) (list : Option ContactListId)
    (members : List ContactId) : Except DataError Owned :=
  match list with
  | some list =>
    if members.isEmpty then pure owned
    else
      match ContactListRepo.addMembers scope owned list members with
      | .error .notFound => pure owned
      | result => result
  | none => pure owned

/-- The loop of `apply_chunk`, between two rows. -/
structure Applied where
  book : Book
  count : ℕ
  ok : ℕ := 0
  rejects : List ImportRejection := []
  members : List ContactId := []

section Apply

variable (mail : MailKeys) (scope : OwnerScope) (now : Time) (cap : ℕ) (fresh : ℕ → ContactId)

/-- One staged row becomes a contact, or is rejected at the cap.  `fresh` is the id generated for
it. -/
def applyRow (a : Applied) (row : StagedRow) : Except DataError Applied :=
  if 0 < cap ∧ cap ≤ a.count ∧
      ContactRepo.exists? a.book scope.owner (mail.emailHash row.data.email) = false then
    pure { a with rejects := a.rejects ++ [⟨row.rowNo, "contact_limit_exceeded"⟩] }
  else do
    let (upsert, book) ← ContactRepo.upsert mail scope now a.book
      { id := fresh row.rowNo
        email := row.data.email
        firstName := row.data.firstName
        lastName := row.data.lastName
        fields := row.data.fields
        tags := row.data.tags
        locale := row.data.locale
        consentSource := some row.data.consentSource
        consentAt := row.data.consentAt }
    match upsert with
    | .created id _ =>
      pure { a with book, count := a.count + 1, members := a.members ++ [id], ok := a.ok + 1 }
    | .updated id _ => pure { a with book, members := a.members ++ [id], ok := a.ok + 1 }

/-- Applies a chunk of staged rows. -/
def applyChunk (owned : Owned) (db : ImportDb) (rows : List StagedRow) :
    Except DataError (ImportDb × Owned × Applied) := do
  let db := db.drop (rows.map StagedRow.rowNo)
  let r ← ContactImportRepo.get scope db
  let a ← rows.foldlM (applyRow mail scope now owned.cap fresh)
    { book := owned.book, count := ContactRepo.count owned.book scope.owner }
  let owned ← Owned.join scope { owned with book := a.book } r.listId a.members
  let db ← ContactImportRepo.progress db a.ok a.rejects
  pure (db, owned, a)

end Apply

/-! ## What a call that succeeds did -/

section Specs

variable {scope : OwnerScope} {db db' : ImportDb} {rows : List StagedRow}

lemma nodup_stagedRows (db : ImportDb) : (db.stagedRows.map StagedRow.rowNo).Nodup := by
  rw [ImportDb.stagedRows, List.map_map]
  exact db.staged.nodupKeys

lemma eq_of_rowNo_eq {x y : StagedRow} (hx : x ∈ db.stagedRows) (hy : y ∈ db.stagedRows)
    (h : x.rowNo = y.rowNo) : x = y :=
  List.inj_on_of_nodup_map (nodup_stagedRows db) hx hy h

@[simp] lemma stagedRows_change (f : ContactImport → ContactImport) :
    (db.change f).stagedRows = db.stagedRows := rfl

lemma stagedRows_drop (numbers : List ℕ) :
    (db.drop numbers).stagedRows = db.stagedRows.filter fun r => r.rowNo ∉ numbers := by
  unfold ImportDb.stagedRows ImportDb.drop Table.deleteWhere
  rw [List.filter_map]
  congr 1
  refine List.filter_congr fun e _ => ?_
  simp

/-- Rows taken leave exactly the others. -/
lemma stagedRows_eq_add_drop (hsub : rows ⊆ db.stagedRows)
    (hnodup : (rows.map StagedRow.rowNo).Nodup) :
    (db.stagedRows : Multiset StagedRow) =
      rows + ((db.drop (rows.map StagedRow.rowNo)).stagedRows : Multiset StagedRow) := by
  rw [stagedRows_drop]
  have hstaged : db.stagedRows.Nodup := (nodup_stagedRows db).of_map _
  have hdisjoint : List.Disjoint rows
      (db.stagedRows.filter fun r => r.rowNo ∉ rows.map StagedRow.rowNo) := by
    intro x hx hrest
    have hout := of_decide_eq_true (List.mem_filter.mp hrest).2
    exact hout (List.mem_map_of_mem hx)
  rw [Multiset.coe_add, Multiset.coe_eq_coe, List.perm_ext_iff_of_nodup hstaged
    ((hnodup.of_map _).append (hstaged.filter _) hdisjoint)]
  intro x
  rw [List.mem_append, List.mem_filter]
  constructor
  · intro hx
    by_cases hin : x.rowNo ∈ rows.map StagedRow.rowNo
    · obtain ⟨y, hy, hxy⟩ := List.mem_map.mp hin
      exact .inl (eq_of_rowNo_eq (hsub hy) hx hxy ▸ hy)
    · exact .inr ⟨hx, decide_eq_true hin⟩
  · rintro (hx | ⟨hx, -⟩)
    · exact hsub hx
    · exact hx

lemma stagedRows_insertNew? {staged : Table ℕ StagedContact}
    (h : insertNew? db.staged rows = some staged) :
    ({ db with staged } : ImportDb).stagedRows.Perm (rows ++ db.stagedRows) := by
  induction rows generalizing db with
  | nil =>
    obtain rfl := Option.some.inj h
    exact .refl _
  | cons r rows ih =>
    rw [insertNew?, List.foldlM_cons] at h
    by_cases htaken : r.rowNo ∈ db.staged
    · rw [if_pos htaken] at h
      cases h
    · rw [if_neg htaken] at h
      change insertNew? (db.staged.insert r.rowNo r.data) rows = some staged at h
      have hfirst : (⟨db.row, db.staged.insert r.rowNo r.data⟩ : ImportDb).stagedRows =
          r :: db.stagedRows := by
        unfold ImportDb.stagedRows
        rw [AList.entries_insert_of_notMem htaken, List.map_cons]
      have hrest := @ih ⟨db.row, db.staged.insert r.rowNo r.data⟩ h
      rw [hfirst] at hrest
      exact hrest.trans List.perm_middle

lemma mem_takeChunk {locked : List ℕ} {limit : ℕ} {x : StagedRow}
    (h : x ∈ ContactImportRepo.takeChunk db locked limit) :
    x ∈ db.stagedRows ∧ x.rowNo ∉ locked := by
  obtain ⟨⟨n, data⟩, hmem, rfl⟩ := List.mem_map.mp h
  obtain ⟨hlookup, hfree⟩ := Table.mem_of_mem_selectFirst hmem
  exact ⟨List.mem_map.mpr ⟨⟨n, data⟩, AList.mem_lookup_iff.mp hlookup, rfl⟩,
    of_decide_eq_true hfree⟩

lemma nodup_takeChunk (db : ImportDb) (locked : List ℕ) (limit : ℕ) :
    ((ContactImportRepo.takeChunk db locked limit).map StagedRow.rowNo).Nodup := by
  rw [ContactImportRepo.takeChunk, List.map_map]
  exact db.staged.nodup_selectFirst _ _ _

lemma length_takeChunk_le (db : ImportDb) (locked : List ℕ) (limit : ℕ) :
    (ContactImportRepo.takeChunk db locked limit).length ≤ limit := by
  rw [ContactImportRepo.takeChunk, List.length_map]
  exact List.length_take_le _ _

/-- Nothing is taken only when every staged row is locked. -/
lemma locked_of_takeChunk_eq_nil {locked : List ℕ} {limit : ℕ} (hlimit : 0 < limit)
    (h : ContactImportRepo.takeChunk db locked limit = []) :
    ∀ x ∈ db.stagedRows, x.rowNo ∈ locked := by
  intro x hx
  obtain ⟨⟨n, data⟩, he, rfl⟩ := List.mem_map.mp hx
  have hnone := Table.not_of_selectFirst_eq_nil (List.map_eq_nil_iff.mp h) hlimit
    (AList.mem_lookup_iff.mpr he)
  exact Decidable.of_not_not (of_decide_eq_false hnone)

/-! ### The report -/

private lemma sum_kerase (l : List (Sigma fun _ : String => ℕ)) (code : String) :
    ((l.kerase code).map Sigma.snd).sum + (l.dlookup code).getD 0 = (l.map Sigma.snd).sum := by
  induction l with
  | nil => rfl
  | cons e l ih =>
    obtain ⟨c, n⟩ := e
    by_cases hc : code = c
    · subst hc
      simp [Nat.add_comm]
    · have hlookup : (⟨c, n⟩ :: l : List (Sigma fun _ : String => ℕ)).dlookup code =
          l.dlookup code := List.dlookup_cons_ne (β := fun _ => ℕ) l ⟨c, n⟩ hc
      rw [List.kerase_cons_ne hc, hlookup, List.map_cons, List.map_cons, List.sum_cons,
        List.sum_cons, Nat.add_assoc, ih]

lemma ImportReport.sum_add (report : ImportReport) (reject : ImportRejection) :
    (report.add reject).sum = report.sum + 1 := by
  have hrest := sum_kerase report.totals.entries reject.code
  unfold ImportReport.sum ImportReport.add
  rw [AList.entries_insert, List.map_cons, List.sum_cons]
  show (report.totals.entries.dlookup reject.code).getD 0 + 1 + _ = _
  omega

lemma ImportReport.sum_addAll (report : ImportReport) (rejects : List ImportRejection) :
    (report.addAll rejects).sum = report.sum + rejects.length := by
  induction rejects generalizing report with
  | nil => rfl
  | cons reject rejects ih =>
    show ((report.add reject).addAll rejects).sum = _
    rw [ih, sum_add, List.length_cons]
    omega

/-- The entries are the first rejected rows. -/
lemma ImportReport.entries_addAll {report : ImportReport} {before : List ImportRejection}
    (h : report.entries = before.take reportEntriesMax) (rejects : List ImportRejection) :
    (report.addAll rejects).entries = (before ++ rejects).take reportEntriesMax := by
  induction rejects generalizing report before with
  | nil => rw [List.append_nil]; exact h
  | cons reject rejects ih =>
    have hnext : (report.add reject).entries = (before ++ [reject]).take reportEntriesMax := by
      unfold ImportReport.add
      dsimp only
      rw [h, List.length_take]
      by_cases hroom : before.length < reportEntriesMax
      · rw [if_pos (by omega), List.take_of_length_le (by omega),
          List.take_of_length_le (by rw [List.length_append, List.length_singleton]; omega)]
      · rw [if_neg (by omega), List.take_append_of_le_length (by omega)]
    have hrest := ih hnext
    rwa [List.append_assoc] at hrest

/-! ### The calls -/

lemma ContactImportRepo.progress_ok {okDelta : ℕ} {rejects : List ImportRejection}
    (h : ContactImportRepo.progress db okDelta rejects = .ok db') :
    ∃ r, db.row = some r ∧ r.rowsOk + okDelta ≤ i32Max ∧
      r.rowsRejected + min rejects.length i32Max ≤ i32Max ∧
      db' = { db with
        row := some { r with
          rowsOk := r.rowsOk + okDelta
          rowsRejected := r.rowsRejected + min rejects.length i32Max
          report := r.report.addAll rejects } } := by
  unfold ContactImportRepo.progress at h
  cases hrow : db.row with
  | none =>
    rw [hrow] at h
    cases h
  | some r =>
    simp only [hrow] at h
    by_cases hmax : i32Max < r.rowsOk + okDelta ∨
        i32Max < r.rowsRejected + min rejects.length i32Max
    · rw [if_pos hmax] at h
      cases h
    · rw [if_neg hmax] at h
      obtain rfl := Except.ok.inj h
      refine ⟨r, rfl, by omega, by omega, ?_⟩
      rw [ImportDb.change, hrow]
      rfl

lemma ContactImportRepo.get_ok {r : ContactImport} (h : ContactImportRepo.get scope db = .ok r) :
    db.row = some r := by
  obtain ⟨-, h⟩ := required_bind_ok h
  cases hrow : db.row with
  | none =>
    rw [hrow] at h
    cases h
  | some r' =>
    rw [hrow] at h
    rw [Except.ok.inj h]

lemma ContactImportRepo.stageRows_ok (h : ContactImportRepo.stageRows scope db rows = .ok db') :
    (∃ r, db.row = some r ∧ r.status = .processing) ∧
      ∃ staged, insertNew? db.staged rows = some staged ∧ db' = { db with staged } := by
  obtain ⟨-, h⟩ := required_bind_ok h
  obtain ⟨r, hget, h⟩ := bind_eq_ok h
  by_cases hstatus : r.status = .processing
  · rw [if_neg (not_not.mpr hstatus)] at h
    refine ⟨⟨r, get_ok hget, hstatus⟩, ?_⟩
    cases hinsert : insertNew? db.staged rows with
    | none =>
      simp only [hinsert] at h
      cases h
    | some staged =>
      simp only [hinsert] at h
      exact ⟨staged, rfl, (Except.ok.inj h).symm⟩
  · rw [if_pos hstatus] at h
    cases h

lemma ContactImportRepo.complete_ok (h : ContactImportRepo.complete db = .ok db') :
    ∃ r, db.row = some r ∧ r.status = .processing ∧
      db' = { db with row := some { r with status := .completed } } := by
  unfold ContactImportRepo.complete at h
  cases hrow : db.row with
  | none =>
    rw [hrow] at h
    cases h
  | some r =>
    simp only [hrow] at h
    by_cases hstatus : r.status = .processing
    · rw [if_pos hstatus] at h
      refine ⟨r, rfl, hstatus, ?_⟩
      rw [← Except.ok.inj h, ImportDb.change, hrow]
      rfl
    · rw [if_neg hstatus] at h
      cases h

/-- A staging chunk stages its rows and counts its rejects. -/
lemma Pending.write_ok {p : Pending} (hlen : p.rejects.length ≤ i32Max)
    (h : p.write scope db = .ok db') :
    db'.stagedRows.Perm (p.rows ++ db.stagedRows) ∧
      (p.rows ≠ [] → ∃ r, db.row = some r ∧ r.status = .processing) ∧
      (db' = { db with staged := db'.staged } ∧ p.rejects = [] ∨
        ∃ r, db.row = some r ∧ r.rowsRejected + p.rejects.length ≤ i32Max ∧
          db'.row = some { r with
            rowsRejected := r.rowsRejected + p.rejects.length
            report := r.report.addAll p.rejects }) := by
  obtain ⟨mid, hstage, h⟩ := bind_eq_ok h
  unfold Pending.stage at hstage
  have hmid : mid.row = db.row ∧ mid.stagedRows.Perm (p.rows ++ db.stagedRows) ∧
      (p.rows ≠ [] → ∃ r, db.row = some r ∧ r.status = .processing) := by
    by_cases hrows : p.rows = []
    · rw [hrows] at hstage ⊢
      obtain rfl := Except.ok.inj hstage
      exact ⟨rfl, .refl _, fun hne => absurd rfl hne⟩
    · rw [if_neg (by simpa using hrows)] at hstage
      obtain ⟨hrow, staged, hinsert, rfl⟩ := ContactImportRepo.stageRows_ok hstage
      exact ⟨rfl, stagedRows_insertNew? hinsert, fun _ => hrow⟩
  obtain ⟨hrow, hperm, hprocessing⟩ := hmid
  by_cases hrejects : p.rejects = []
  · rw [if_pos (by simpa using hrejects)] at h
    obtain rfl := Except.ok.inj h
    exact ⟨hperm, hprocessing, .inl ⟨by rw [← hrow], hrejects⟩⟩
  · rw [if_neg (by simpa using hrejects)] at h
    obtain ⟨r, hr, -, hmax, rfl⟩ := ContactImportRepo.progress_ok h
    rw [min_eq_left hlen] at hmax ⊢
    exact ⟨hperm, hprocessing, .inr ⟨r, hrow ▸ hr, hmax, rfl⟩⟩

lemma Upload.finish_ok {u : Upload} (h : u.finish scope db = .ok db') :
    ∃ mid, u.pending.write scope db = .ok mid ∧
      db' = mid.change fun r => { r with rowsTotal := min u.rows.toNat i32Max } := by
  obtain ⟨mid, hwrite, h⟩ := bind_eq_ok h
  obtain ⟨-, h⟩ := required_bind_ok h
  refine ⟨mid, hwrite, ?_⟩
  cases hrow : mid.row with
  | none =>
    rw [hrow] at h
    cases h
  | some r =>
    rw [hrow] at h
    exact (Except.ok.inj h).symm

section Apply

variable {mail : MailKeys} {now : Time} {cap : ℕ} {fresh : ℕ → ContactId}

lemma applyRow_ok {a b : Applied} {row : StagedRow}
    (h : applyRow mail scope now cap fresh a row = .ok b) :
    (b.ok = a.ok ∧ ∃ code, b.rejects = a.rejects ++ [⟨row.rowNo, code⟩]) ∨
      (b.ok = a.ok + 1 ∧ b.rejects = a.rejects) := by
  unfold applyRow at h
  split at h
  · obtain rfl := Except.ok.inj h
    exact .inl ⟨rfl, _, rfl⟩
  · obtain ⟨⟨upsert, book⟩, -, h⟩ := bind_eq_ok h
    cases upsert with
    | created id _ =>
      obtain rfl := Except.ok.inj h
      exact .inr ⟨rfl, rfl⟩
    | updated id _ =>
      obtain rfl := Except.ok.inj h
      exact .inr ⟨rfl, rfl⟩

/-- Each row of a chunk is applied or rejected. -/
lemma applyRows_ok {a b : Applied}
    (h : rows.foldlM (applyRow mail scope now cap fresh) a = .ok b) :
    b.ok + b.rejects.length = a.ok + a.rejects.length + rows.length ∧
      ∃ rejected, b.rejects = a.rejects ++ rejected ∧
        (rejected.map ImportRejection.rowNo).Sublist (rows.map StagedRow.rowNo) := by
  induction rows generalizing a with
  | nil =>
    obtain rfl := Except.ok.inj h
    exact ⟨rfl, [], (List.append_nil _).symm, .refl _⟩
  | cons row rows ih =>
    rw [List.foldlM_cons] at h
    obtain ⟨c, hrow, h⟩ := bind_eq_ok h
    obtain ⟨hcount, rejected, heq, hsub⟩ := ih h
    rcases applyRow_ok hrow with ⟨hok, code, hrejects⟩ | ⟨hok, hrejects⟩
    · refine ⟨?_, ⟨row.rowNo, code⟩ :: rejected, ?_, hsub.cons_cons _⟩
      · rw [hcount, hok, hrejects, List.length_append, List.length_singleton, List.length_cons]
        omega
      · rw [heq, hrejects, List.append_assoc, List.singleton_append]
    · refine ⟨?_, rejected, by rw [heq, hrejects], hsub.cons _⟩
      rw [hcount, hok, hrejects, List.length_cons]
      omega

/-- A chunk leaves the other staged rows, and counts each of its own once. -/
lemma applyChunk_ok {owned owned' : Owned} {a : Applied}
    (hlen : rows.length ≤ i32Max)
    (h : applyChunk mail scope now fresh owned db rows = .ok (db', owned', a)) :
    a.ok + a.rejects.length = rows.length ∧
      (a.rejects.map ImportRejection.rowNo).Sublist (rows.map StagedRow.rowNo) ∧
      db'.staged = (db.drop (rows.map StagedRow.rowNo)).staged ∧
      ∃ r, db.row = some r ∧ r.rowsOk + a.ok ≤ i32Max ∧
        r.rowsRejected + a.rejects.length ≤ i32Max ∧
        db'.row = some { r with
          rowsOk := r.rowsOk + a.ok
          rowsRejected := r.rowsRejected + a.rejects.length
          report := r.report.addAll a.rejects } := by
  obtain ⟨r, -, h⟩ := bind_eq_ok h
  obtain ⟨b, hrows, h⟩ := bind_eq_ok h
  obtain ⟨_, -, h⟩ := bind_eq_ok h
  obtain ⟨_, hprogress, h⟩ := bind_eq_ok h
  obtain ⟨rfl, -, rfl⟩ : _ = db' ∧ _ = owned' ∧ b = a := by
    simpa only [Prod.mk.injEq] using Except.ok.inj h
  obtain ⟨hcount, rejected, heq, hsub⟩ := applyRows_ok hrows
  simp only [List.nil_append, List.length_nil, Nat.zero_add] at heq hcount
  subst heq
  obtain ⟨r, hr, hok, hrejected, rfl⟩ := ContactImportRepo.progress_ok hprogress
  rw [min_eq_left (by omega)] at hrejected ⊢
  exact ⟨hcount, hsub, rfl, r, hr, hok, hrejected, rfl⟩

end Apply

end Specs

end Postit.Contacts
