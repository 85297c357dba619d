import Postit.Vault.Envelope

/-!
# Moving stored values to the newest key

The re-seal run goes through the sealed columns batch by batch.  It reads a batch, re-wraps each
value and writes it back only if the stored bytes are still those it read.  Each read and each
write is one statement; whatever the application writes in between is in `cells`.
-/

namespace Postit.Sealing

open Postit.Framework

/-- A column that holds sealed values. -/
structure SealedColumn where
  table : String
  column : String
  idColumn : String
  deriving DecidableEq, Repr

/-- Every sealed column in the schema. -/
def sealedColumns : List SealedColumn :=
  [⟨"account_grants", "credential", "id"⟩, ⟨"account_tokens", "access_token", "id"⟩,
    ⟨"oauth_states", "pkce_verifier", "id"⟩, ⟨"oauth_states", "grant_tokens", "id"⟩,
    ⟨"pending_connections", "credential", "id"⟩, ⟨"ai_providers", "api_key", "id"⟩,
    ⟨"push_endpoints", "endpoint", "id"⟩, ⟨"push_endpoints", "p256dh", "id"⟩,
    ⟨"push_endpoints", "auth", "id"⟩]

/-- The stored bytes, by column and row.  A null is a cell that is not there. -/
abbrev Cells := Table (SealedColumn × Uuid) Bytes

/-- The place a row of the column is sealed for. -/
def SealedColumn.context (column : SealedColumn) (row : Uuid) : SealContext where
  table := column.table
  column := column.column
  row := row

/-- Why a re-seal run ended early. -/
inductive ResealError
  | rotationInProgress
  | vaultKeyBehind (configured stored : UInt32)
  | vault (error : VaultError)
  deriving DecidableEq, Repr

/-- What a run did with a column: the values read, those moved to the newest key version, and those
left as they were. -/
structure ColumnReport where
  column : String
  scanned : ℕ := 0
  resealed : ℕ := 0
  skipped : ℕ := 0
  deriving DecidableEq, Repr

/-- A re-seal run: the columns still to do, the last row read of the first of them, and the values
that were read and not yet written back. -/
structure Reseal where
  vault : Vault
  batchSize : ℕ
  columns : List SealedColumn
  cursor : Option Uuid := none
  rows : List (Uuid × Bytes) := []
  done : ColumnReport := { column := "" }
  report : List ColumnReport := []

/-- Where a run is after a statement. -/
inductive Progress
  | running (run : Reseal)
  | finished (report : List ColumnReport)
  | failed (error : ResealError)

/-- Starts a run, unless another one holds the lock or the database has seen a newer key than the
vault holds. -/
def Reseal.start (vault : Vault) (locked : Bool) (newestKeyVersion : Option ℤ)
    (columns : List SealedColumn) (batchSize : ℕ) : Except ResealError Reseal :=
  if locked then .error .rotationInProgress
  else
    let run : Reseal := { vault := vault, batchSize := batchSize, columns := columns }
    match newestKeyVersion with
    | none => .ok run
    | some stored =>
      if 0 ≤ stored ∧ (vault.newest.toNat : ℤ) < stored then
        .error (.vaultKeyBehind vault.newest (UInt32.ofNat stored.toNat))
      else .ok run

/-- The next batch of sealed values after the cursor, in row order. -/
def readBatch (cells : Cells) (column : SealedColumn) (cursor : Option Uuid) (batchSize : ℕ) :
    List (Uuid × Bytes) :=
  (cells.selectFirst (fun cell _ => cell.1 = column ∧ cursor.all (·.1 < cell.2.1))
    (fun a b => a.1.2.1 ≤ b.1.2.1) (max batchSize 1)).map fun cell => (cell.1.2, cell.2)

/-- Writes a cell only if it still holds the old bytes, and says whether it did. -/
def compareAndSwap (cells : Cells) (cell : SealedColumn × Uuid) (old new : Bytes) : Bool × Cells :=
  if cells.lookup cell = some old then (true, cells.insert cell new) else (false, cells)

/-- Re-wraps one value that was read and writes it back, and says whether it did. -/
def writeRow (c : Cipher) (vault : Vault) (column : SealedColumn) (id : Uuid) (old : Bytes)
    (wrapNonce : Nonce) (cells : Cells) : Except VaultError (Bool × Cells) := do
  let s ← Sealed.fromBytes old
  match ← vault.rewrap c s (column.context id) wrapNonce with
  | none => return (false, cells)
  | some new => return compareAndSwap cells (column, id) old new.bytes

/-- The next statement of a run. -/
def Reseal.step (c : Cipher) (run : Reseal) (wrapNonce : Nonce) (cells : Cells) :
    Progress × Cells :=
  match run.columns with
  | [] => (.finished run.report, cells)
  | column :: columns =>
    match run.rows with
    | (id, old) :: rows =>
      match writeRow c run.vault column id old wrapNonce cells with
      | .error e => (.failed (.vault e), cells)
      | .ok (resealed, cells) =>
        (.running { run with
          rows := rows
          done := { run.done with
            scanned := run.done.scanned + 1
            resealed := run.done.resealed + if resealed then 1 else 0
            skipped := run.done.skipped + if resealed then 0 else 1 } }, cells)
    | [] =>
      match (readBatch cells column run.cursor run.batchSize).getLast? with
      | none =>
        let done := { run.done with column := column.table ++ "." ++ column.column }
        (.running { run with
          columns := columns
          cursor := none
          done := { column := "" }
          report := run.report ++ [done] }, cells)
      | some last =>
        (.running { run with
          cursor := some last.1
          rows := readBatch cells column run.cursor run.batchSize }, cells)

end Postit.Sealing
