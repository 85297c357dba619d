import Postit.Accounts.Grants
import Postit.Core.Schema
import Postit.Framework.Buffered

/-!
# Importing credential accounts from a CSV file

The rows are verified with the platform several at a time, then classified and committed one at a
time in file order.  A check reports every row and connects nothing.

The CSV library, the agent's schema and its answers, and the audit event at the end are outside: a
file is the records the library makes of it, and `Platform` has the rest.  No other writer is at
work, and statements fail only for the unique indexes.
-/

namespace Postit.Accounts

open Postit.Data (UserId PlatformId AccountId)
open Postit.Framework

/-! ## Reports -/

/-- How one CSV row ended. -/
inductive ImportStatus
  | ok
  | invalidFields
  | invalidCredentials
  | alreadyConnected
  | connectedElsewhere
  | nothingFound
  | platformError
  deriving DecidableEq, Repr

/-- The report line for one data row. -/
structure ImportRow where
  row : ℕ
  status : ImportStatus
  violations : List String := []
  field : Option String := none
  accountIds : List AccountId := []
  displayNameIgnored : Bool := false
  deriving DecidableEq, Repr

/-- The result of an import, in file order. -/
structure ImportReport where
  commit : Bool
  rows : List ImportRow
  counts : ImportStatus → ℕ
  truncated : Bool

inductive ImportError
  | csvInvalid (reason : String)
  | data (error : DataError)
  deriving DecidableEq, Repr

/-! ## What is outside -/

/-- An account a credential reaches. -/
abbrev DiscoveredAccount := String

/-- A violation of the schema, as far as the report shows it. -/
structure Violation where
  code : String
  path : Option String

/-- Why the platform did not answer a credential with accounts. -/
inductive AgentError
  | invalidCredentials (field : Option String)
  | authentication
  | authorization
  | other

/-- An agent's credentials schema, how it reads the values of a row, and what the platform answers
to the credential of each row. -/
structure Platform (κ : Type) where
  id : PlatformId
  schema : OptionsSchema
  parseCredentials : List (String × Json) → Except (List Violation) κ
  verifyCredentials : ℕ → κ → Except AgentError (List DiscoveredAccount)

/-- What the CSV library makes of a data row. -/
inductive Record
  | cells (cells : List String)
  | malformed
  | unreadable

/-- A CSV file: its header row, if it could be read, and its data rows. -/
structure CsvFile where
  headers : Option (List String)
  records : List Record

/-! ## The header row -/

/-- The byte order mark. -/
def byteOrderMark : Char := Char.ofNat 0xFEFF

/-- The column names as they are compared. -/
def columnNames : List String → List String
  | [] => []
  | first :: rest =>
    trim (String.ofList (first.toList.dropWhile (· = byteOrderMark))) :: rest.map trim

/-- The optional column that names the account. -/
def displayNameColumn : String := "display_name"

/-- Refuses a column that is unknown, or that comes a second time. -/
def checkColumns (schema : OptionsSchema) : List String → List String → Except ImportError Unit
  | _, [] => .ok ()
  | known, name :: rest =>
    if name ≠ displayNameColumn ∧ ¬ schema.fields.any (fun f => f.name = name) then
      .error (.csvInvalid s!"unknown column \x60{name}\x60")
    else if name ∈ known then .error (.csvInvalid s!"duplicate column \x60{name}\x60")
    else checkColumns schema (name :: known) rest

/-- Refuses a header row without a required column. -/
def checkRequired (headers : List String) : List SchemaField → Except ImportError Unit
  | [] => .ok ()
  | field :: rest =>
    if field.required ∧ field.name ∉ headers then
      .error (.csvInvalid s!"missing column \x60{field.name}\x60")
    else checkRequired headers rest

def readHeaders (schema : OptionsSchema) (headers : Option (List String)) :
    Except ImportError (List String) :=
  match headers with
  | none => .error (.csvInvalid "the header row is unreadable")
  | some headers => do
    let headers := columnNames headers
    checkColumns schema [] headers
    checkRequired headers schema.fields
    .ok headers

/-! ## Checking a row -/

/-- The longest display name an account may be given. -/
def displayNameMax : ℕ := 100

/-- The value a CSV cell stands for in a field. -/
def cellValue (schema : OptionsSchema) (name cell : String) : Json :=
  let text := Json.string cell
  match (schema.fields.find? fun f => f.name = name).map SchemaField.kind with
  | some (.integer ..) => ((parseI64 cell).map jsonInt).getD text
  | some (.boolean _) =>
    if cell.map Char.toLower = "true" then .bool true
    else if cell.map Char.toLower = "false" then .bool false
    else text
  | _ => text

/-- A credential with the accounts it reaches. -/
structure Verified (κ : Type) where
  fields : κ
  discovered : List DiscoveredAccount
  displayName : Option String

/-- A row after verification. -/
structure Checked (κ : Type) where
  row : ℕ
  outcome : Except ImportRow (Verified κ)

/-- A row the CSV reader could not parse. -/
def malformedRow (row : ℕ) : ImportRow :=
  { row := row, status := .invalidFields, violations := ["malformed_row"] }

/-- The field a violation is about. -/
def fieldOf (violation : Violation) : Option String :=
  violation.path.map fun path =>
    if "options.".toList.isPrefixOf path.toList then String.ofList (path.toList.drop 8) else path

/-- The report of a row the platform did not answer with accounts. -/
def failureReport (row : ℕ) : AgentError → ImportRow
  | .invalidCredentials field => { row := row, status := .invalidCredentials, field := field }
  | .authentication | .authorization => { row := row, status := .invalidCredentials }
  | .other => { row := row, status := .platformError }

/-- The cells that are not empty, under their columns. -/
def namedCells (headers cells : List String) : List (String × String) :=
  ((headers.zip cells).map fun (name, cell) => (name, trim cell)).filter fun (_, cell) => cell ≠ ""

section Checking

variable {κ : Type} (platform : Platform κ)

/-- What the platform says of the credential of a row. -/
def verifyRow (row : ℕ) (fields : κ) (displayName : Option String) :
    Except ImportRow (Verified κ) :=
  match platform.verifyCredentials row fields with
  | .ok [] => .error { row := row, status := .nothingFound }
  | .ok discovered =>
    .ok { fields := fields, discovered := discovered, displayName := displayName }
  | .error error => .error (failureReport row error)

/-- Parses one row and asks the platform about it. -/
def checkRow (headers cells : List String) (row : ℕ) : Checked κ :=
  let named := namedCells headers cells
  let displayName :=
    ((named.filter fun (name, _) => name = displayNameColumn).getLast?).map Prod.snd
  let values := (named.filter fun (name, _) => name ≠ displayNameColumn).map fun (name, cell) =>
    (name, cellValue platform.schema name cell)
  let outcome :=
    if displayName.any fun name => displayNameMax < name.length then
      .error
        { row := row
          status := .invalidFields
          violations := ["option_too_long"]
          field := some displayNameColumn }
    else
      match platform.parseCredentials values with
      | .error violations =>
        .error
          { row := row
            status := .invalidFields
            violations := violations.map Violation.code
            field := violations.head?.bind fieldOf }
      | .ok fields => verifyRow platform row fields displayName
  { row := row, outcome := outcome }

/-- What the row stream yields. -/
inductive Item (κ : Type)
  | row (checked : Checked κ)
  | truncated
  | unreadable

/-- The largest unsigned 32-bit integer. -/
def maxU32 : ℕ := 2 ^ 32 - 1

/-- The number of the row at an index. -/
def rowNumber (index : ℕ) : ℕ := min (index + 1) maxU32

/-- What the stream yields for a record. -/
def itemOf (headers : List String) (maxRows index : ℕ) (record : Record) : Item κ :=
  let row := rowNumber index
  if maxRows < row then .truncated
  else
    match record with
    | .cells cells => .row (checkRow platform headers cells row)
    | .unreadable => .unreadable
    | .malformed => .row { row := row, outcome := .error (malformedRow row) }

/-- The items of the stream, in file order. -/
def items (headers : List String) (maxRows : ℕ) (records : List Record) : List (Item κ) :=
  records.zipIdx.map fun (record, index) => itemOf platform headers maxRows index record

end Checking

/-! ## Settling a row -/

/-- Who has a remote account. -/
inductive RemoteAccount
  | own (account : AccountId) (active : Bool)
  | elsewhere
  | free
  deriving DecidableEq, Repr

section Settling

variable {κ : Type}

/-- Who has a remote account: the owner, someone else, or nobody. -/
def remoteAccount (db : Db κ) (owner : UserId) (platform : PlatformId) (remoteId : String) :
    RemoteAccount :=
  match db.accounts.find? fun _ a =>
      a.ownerId = owner ∧ a.platform = platform ∧ a.remoteAccountId = remoteId with
  | some (key, own) => .own key (own.status ≠ .disconnected)
  | none =>
    if db.accounts.exists? fun _ a =>
        a.ownerId ≠ owner ∧ a.platform = platform ∧ a.remoteAccountId = remoteId ∧
          a.status ≠ .disconnected then
      .elsewhere
    else .free

/-- Whether a remote account counts as someone else's. -/
def RemoteAccount.isElsewhere : RemoteAccount → Bool
  | .elsewhere => true
  | _ => false

/-- Whether a remote account counts as the owner's: it is connected, or an earlier row reached
it. -/
def RemoteAccount.isOwn (seen : Bool) : RemoteAccount → Bool
  | .elsewhere => false
  | .own _ true => true
  | .own _ false | .free => seen

/-- Where an import stands: the tables and the remote accounts the rows reached. -/
structure Settling (κ : Type) where
  db : Db κ
  seen : List String := []

variable (owner : UserId) (platform : PlatformId)

/-- The row before anything is connected. -/
def classify (s : Settling κ) (row : ℕ) (verified : Verified κ) : ImportRow :=
  let found := verified.discovered.map fun id => (id, remoteAccount s.db owner platform id)
  let elsewhere := found.countP fun (_, remote) => remote.isElsewhere
  let own := found.countP fun (id, remote) => remote.isOwn (id ∈ s.seen)
  let total := verified.discovered.length
  if elsewhere = total then { row := row, status := .connectedElsewhere }
  else
    { row := row
      status := if own + elsewhere = total ∧ 0 < own then .alreadyConnected else .ok
      displayNameIgnored := verified.displayName.isSome && total ≠ 1 }

/-- The grant of a credential in a row. -/
def Verified.input (verified : Verified κ) : ConnectInput κ where
  platform := platform
  kind := .credentials
  remoteUserId := none
  credential := verified.fields
  expiresAt := none
  accounts := verified.discovered

/-- Classifies a verified row against the database and, when committing, connects it. -/
def settleRow (commit : Bool) (s : Settling κ) (checked : Checked κ) :
    Except ImportError (Settling κ × ImportRow) :=
  match checked.outcome with
  | .error report => .ok (s, report)
  | .ok verified =>
    let report := classify owner platform s checked.row verified
    if report.status = .connectedElsewhere then .ok (s, report)
    else
      let s := { s with seen := s.seen ++ verified.discovered }
      if !commit then .ok (s, report)
      else
        match connectInTx s.db owner (verified.input platform) with
        | .ok (db, connected) =>
          let accountIds := connected.map AccountUpsert.account
          .ok ({ s with db := db }, { report with accountIds := accountIds })
        -- the row cannot be connected; the rest of the file still can
        | .error .sendingMethodExists => .ok (s, { report with status := .alreadyConnected })
        | .error error => .error (.data error)

/-- The loop over the items, up to the end of the file or the first row past the limit. -/
def settleRows (commit : Bool) :
    Settling κ → List (Item κ) → Except ImportError (Settling κ × List ImportRow × Bool)
  | s, [] => .ok (s, [], false)
  | s, .truncated :: _ => .ok (s, [], true)
  | _, .unreadable :: _ => .error (.csvInvalid "the file could not be read")
  | s, .row checked :: rest => do
    let (s, row) ← settleRow owner platform commit s checked
    let (s, rows, truncated) ← settleRows commit s rest
    .ok (s, row :: rows, truncated)

end Settling

/-! ## The import -/

/-- Checks every row of a file and, with `commit`, connects the accounts each valid row reaches: the
tables afterwards, and the report. -/
def importCsv {κ : Type} (platform : Platform κ) (maxRows : ℕ) (owner : UserId) (commit : Bool)
    (db : Db κ) (file : CsvFile) : Except ImportError (Db κ × ImportReport) := do
  let headers ← readHeaders platform.schema file.headers
  let (s, rows, truncated) ←
    settleRows owner platform.id commit { db := db } (items platform headers maxRows file.records)
  let counts := fun status => rows.countP fun row => row.status = status
  .ok (s.db, { commit := commit, rows := rows, counts := counts, truncated := truncated })

end Postit.Accounts
