import Mathlib.Data.Multiset.Range
import Mathlib.Order.Interval.Finset.Nat
import Postit.Contacts.Import
import Postit.Framework.Pool
import Postit.Framework.Trace

/-!
# Every row of an import, once

An import from its creation on: the upload that stages the file, any number of runs of the job, and
abandonments, by the upload that failed or by the stale sweep.  A staging chunk is one step, and so
is the end of the import, since their first statement locks the import's row.  A chunk of the job
takes its rows in one step, under the owner's lock, and commits or is undone in another; so is an
abandonment, one statement that locks the import's row and then row after row.  Contacts, lists and
the cap may change between any two steps.

A world also keeps what a table does not: how many rows of the file the committed chunks have
written, and the numbers of the rows applied and rejected.
-/

namespace Postit.Contacts.Imports

open Postit.Data Postit.Framework

/-- Where a run of the job is. -/
inductive Phase
  | looping
  -- in the transaction of a chunk, with the rows it took
  | chunk (rows : List StagedRow)
  -- nothing was left to take
  | finishing
  | ended

/-- Whether the run has the owner's lock from one step to the next. -/
def Phase.Working : Phase → Prop
  | .chunk _ => True
  | _ => False

structure World where
  db : ImportDb
  owned : Owned
  upload : Option Upload
  enqueued : Bool := false
  runs : List Phase := []
  -- the numbers of the rows that an abandonment has locked
  abandoning : Option (List ℕ) := none
  -- the audit events
  imported : List ContactImport := []
  written : ℕ := 0
  applied : Multiset ℕ := 0
  rejected : List ImportRejection := []

/-- What an import is made with. -/
structure Setup where
  keys : CellKeys
  columns : Columns
  csvMaxRows : UInt32
  owner : UserId
  list : Option ContactListId := none

def Setup.scope (x : Setup) : OwnerScope := .own x.owner

/-- The import as it is created, the file not yet read. -/
def World.create (x : Setup) (file : List (List String)) (owned : Owned) : World where
  db := ContactImportRepo.create 0 x.list
  owned := owned
  upload := some { rest := file }

inductive Event
  | read
  | write
  | finish
  | stop
  | hold (held : List ℕ)
  | fail
  | release
  | start
  | take (i : ℕ)
  | commit (i : ℕ)
  | complete (i : ℕ)
  | crash (i : ℕ)
  | outside (owned : Owned)
  | delete

/-- The import's row is there and processing. -/
def World.Processing (w : World) : Prop := ∃ r, w.db.row = some r ∧ r.status = .processing

/-- Nobody has the owner's lock. -/
def World.Unlocked (w : World) : Prop := ∀ (i : ℕ) p, w.runs[i]? = some p → ¬ p.Working

/-- The rows found, or that there are none. -/
def afterTake : List StagedRow → Phase
  | [] => .finishing
  | rows => .chunk rows

/-- A list that was deleted is no longer the import's. -/
def unlist (owned : Owned) (r : ContactImport) : ContactImport :=
  { r with listId := r.listId.filter fun list => list ∈ owned.lists }

inductive Step (x : Setup) : World → Event → World → Prop
  | read {w : World} {u : Upload} {record : List String} {rest : List (List String)}
      (hu : w.upload = some u) (hrest : u.rest = record :: rest)
      (hroom : u.pending.len < chunk) (hmax : ¬ x.csvMaxRows < u.rows + 1) :
      Step x w .read { w with upload := some (u.next x.keys x.columns record rest) }
  | write {w : World} {u : Upload} {db : ImportDb} (hu : w.upload = some u)
      (hfull : chunk ≤ u.pending.len) (hfree : w.abandoning = none)
      (hwrite : u.pending.write x.scope w.db = .ok db) :
      Step x w .write { w with
        db := db
        upload := some { u with pending := {} }
        written := w.written + u.pending.len
        rejected := w.rejected ++ u.pending.rejects }
  -- the last transaction of the upload, which also enqueues the job
  | finish {w : World} {u : Upload} {db : ImportDb} (hu : w.upload = some u)
      (hrest : u.rest = []) (hroom : u.pending.len < chunk) (hfree : w.abandoning = none)
      (hwrite : u.finish x.scope w.db = .ok db) :
      Step x w .finish { w with
        db := db
        upload := none
        enqueued := true
        written := w.written + u.pending.len
        rejected := w.rejected ++ u.pending.rejects }
  -- the upload fails, at any point, or its process ends
  | stop {w : World} : Step x w .stop { w with upload := none }
  -- an abandonment has the import's row and these staged rows, and maybe not yet all
  | hold {w : World} {held : List ℕ} (hprocessing : w.Processing)
      (hmore : ∀ old, w.abandoning = some old → old ⊆ held)
      (hfree : ∀ (i : ℕ) rows, w.runs[i]? = some (.chunk rows) → ∀ r ∈ rows, r.rowNo ∉ held) :
      Step x w (.hold held) { w with abandoning := some held }
  | fail {w : World} {held : List ℕ} (hheld : w.abandoning = some held) :
      Step x w .fail { w with
        db := (w.db.drop held).change fun r => { r with status := .failed }
        abandoning := none }
  -- the abandonment's statement fails, and is undone
  | release {w : World} {held : List ℕ} (hheld : w.abandoning = some held) :
      Step x w .release { w with abandoning := none }
  | start {w : World} (henqueued : w.enqueued = true) (hprocessing : w.Processing) :
      Step x w .start { w with runs := w.runs ++ [.looping] }
  | take {w : World} {i : ℕ} (hrun : w.runs[i]? = some .looping) (hlock : w.Unlocked) :
      Step x w (.take i) { w with
        runs := w.runs.set i
          (afterTake (ContactImportRepo.takeChunk w.db (w.abandoning.getD []) chunk)) }
  | commit {w : World} {i : ℕ} {rows : List StagedRow} {now : Time} {fresh : ℕ → ContactId}
      {db : ImportDb} {owned : Owned} {a : Applied} (hrun : w.runs[i]? = some (.chunk rows))
      (hfree : w.abandoning = none)
      (happly : applyChunk x.keys.toMailKeys x.scope now fresh w.owned w.db rows =
        .ok (db, owned, a)) :
      Step x w (.commit i) { w with
        db := db
        owned := owned
        runs := w.runs.set i .looping
        applied := w.applied + ((rows.map StagedRow.rowNo : Multiset ℕ) -
          (a.rejects.map ImportRejection.rowNo : Multiset ℕ))
        rejected := w.rejected ++ a.rejects }
  | complete {w : World} {i : ℕ} {db : ImportDb} (hrun : w.runs[i]? = some .finishing)
      (hlock : w.Unlocked) (hfree : w.abandoning = none)
      (hcomplete : ContactImportRepo.complete w.db = .ok db) :
      Step x w (.complete i) { w with
        db := db
        runs := w.runs.set i .ended
        imported := w.imported ++ db.row.toList }
  -- the run ends, at any point, and what it has not committed is undone
  | crash {w : World} {i : ℕ} : Step x w (.crash i) { w with runs := w.runs.set i .ended }
  | outside {w : World} (owned : Owned) :
      Step x w (.outside owned) { w with owned := owned, db := w.db.change (unlist owned) }
  -- a finished import is purged, or its owner is deleted
  | delete {w : World} : Step x w .delete { w with db := ⟨none, ∅⟩ }

/-! ## The numbers of rows -/

/-- The row numbers of the first rows of a file. -/
def numbers (k : ℕ) : Multiset ℕ :=
  (Multiset.range k).map fun i => rowNo (UInt32.ofNat (i + 1))

lemma numbers_succ (k : ℕ) : numbers (k + 1) = rowNo (UInt32.ofNat (k + 1)) ::ₘ numbers k := by
  rw [numbers, Multiset.range_succ, Multiset.map_cons]
  rfl

@[simp] lemma card_numbers (k : ℕ) : (numbers k).card = k := by
  rw [numbers, Multiset.card_map, Multiset.card_range]

lemma numbers_mono {k l : ℕ} (h : k ≤ l) : numbers k ≤ numbers l :=
  Multiset.map_le_map (Multiset.range_le.mpr h)

lemma mem_numbers {k n : ℕ} (h : n ∈ numbers k) : 1 ≤ n ∧ n ≤ i32Max := by
  obtain ⟨i, -, rfl⟩ := Multiset.mem_map.mp h
  unfold rowNo
  have hmax : 1 ≤ i32Max := by decide
  omega

/-- What is read and not yet written, by row numbers. -/
def pendingNumbers (p : Pending) : Multiset ℕ :=
  (p.rows.map StagedRow.rowNo : Multiset ℕ) + (p.rejects.map ImportRejection.rowNo : Multiset ℕ)

namespace World

/-- The numbers of the rows applied or rejected. -/
def settled (w : World) : Multiset ℕ :=
  w.applied + (w.rejected.map ImportRejection.rowNo : Multiset ℕ)

/-- The numbers of the staged rows. -/
def left (w : World) : Multiset ℕ := (w.db.stagedRows.map StagedRow.rowNo : Multiset ℕ)

end World

/-- The address hashes of the rows. -/
def hashes (keys : CellKeys) (rows : List StagedRow) : List EmailHash :=
  rows.map fun r => keys.emailHash r.data.email

/-! ## The invariant -/

section Invariant

variable {x : Setup} {file : List (List String)} {w w' : World} {e : Event}

/-- What an upload has read is written or pending, and its addresses have been seen. -/
structure Reads (x : Setup) (file : List (List String)) (w : World) (u : Upload) : Prop where
  rest : w.written + u.pending.len + u.rest.length = file.length
  rows : u.rows = UInt32.ofNat (w.written + u.pending.len)
  room : u.pending.len ≤ chunk
  covers : numbers (w.written + u.pending.len) = numbers w.written + pendingNumbers u.pending
  nodup : u.seen.Nodup
  seen : (hashes x.keys (u.pending.rows ++ w.db.stagedRows) : Multiset EmailHash) ≤ u.seen

structure Inv (x : Setup) (file : List (List String)) (w : World) : Prop where
  counts : ∀ r, w.db.row = some r → r.rowsOk = w.applied.card ∧
    r.rowsRejected = w.rejected.length ∧ r.rowsRejected ≤ i32Max ∧
    r.report = ImportReport.addAll {} w.rejected
  whole : ∀ r, w.db.row = some r → r.status ≠ .failed → w.settled + w.left = numbers w.written
  once : w.settled + w.left ≤ numbers w.written
  within : w.written ≤ file.length
  small : w.rejected.length ≤ i32Max ∧ w.written ≤ i32Max + w.rejected.length
  upload : ∀ u, w.upload = some u → Reads x file w u
  hashes : (hashes x.keys w.db.stagedRows).Nodup
  early : w.enqueued = false → w.runs = [] ∧ w.applied = 0 ∧
    ∀ r, w.db.row = some r → r.status ≠ .completed
  late : w.enqueued = true → w.upload = none ∧ ∀ r, w.db.row = some r → r.status ≠ .failed →
    r.rowsTotal = min w.written i32Max
  alone : Alone Phase.Working w.runs
  taken : ∀ (i : ℕ) rows, w.runs[i]? = some (.chunk rows) → rows.length ≤ chunk ∧
    (rows.map StagedRow.rowNo).Nodup ∧ (w.db.row.isSome → rows ⊆ w.db.stagedRows) ∧
    ∀ held, w.abandoning = some held → ∀ r ∈ rows, r.rowNo ∉ held

lemma Inv.create (x : Setup) (file : List (List String)) (owned : Owned) :
    Inv x file (World.create x file owned) where
  counts := by
    rintro r ⟨⟩
    exact ⟨rfl, rfl, Nat.zero_le _, rfl⟩
  whole := fun _ _ _ => rfl
  once := le_rfl
  within := Nat.zero_le _
  small := ⟨Nat.zero_le _, Nat.zero_le _⟩
  upload := by
    rintro u ⟨⟩
    exact ⟨by simp [World.create, Pending.len], rfl, Nat.zero_le _, rfl, List.nodup_nil, le_rfl⟩
  hashes := List.nodup_nil
  early := fun _ => ⟨rfl, rfl, by rintro r ⟨⟩ h; cases h⟩
  late := fun h => by cases h
  alone := fun _ _ _ _ h => by simp [World.create] at h
  taken := fun _ _ h => by simp [World.create] at h

/-! ### The upload -/

/-- One more row is pending, under its number. -/
lemma Reads.push {u : Upload} (h : Reads x file w u) {record : List String}
    {rest : List (List String)} (hrest : u.rest = record :: rest) (hroom : u.pending.len < chunk)
    {seen : List EmailHash} {pending : Pending} (hlen : pending.len = u.pending.len + 1)
    (hnumbers : pendingNumbers pending = rowNo (u.rows + 1) ::ₘ pendingNumbers u.pending)
    (hnodup : seen.Nodup)
    (hseen : (hashes x.keys (pending.rows ++ w.db.stagedRows) : Multiset EmailHash) ≤ seen) :
    Reads x file w ⟨rest, u.rows + 1, seen, pending⟩ := by
  have hcount : u.rows + 1 = UInt32.ofNat (w.written + u.pending.len + 1) := by
    rw [h.rows, UInt32.ofNat_add (w.written + u.pending.len) 1]
    rfl
  have hall := h.rest
  rw [hrest, List.length_cons] at hall
  refine ⟨?_, ?_, ?_, ?_, hnodup, hseen⟩
  · show w.written + pending.len + rest.length = file.length
    omega
  · show u.rows + 1 = UInt32.ofNat (w.written + pending.len)
    rw [hlen, hcount, Nat.add_assoc]
  · show pending.len ≤ chunk
    omega
  · show numbers (w.written + pending.len) = numbers w.written + pendingNumbers pending
    rw [hlen, ← Nat.add_assoc, numbers_succ, h.covers, ← hcount, hnumbers, Multiset.add_cons]

lemma pendingNumbers_pushRow (p : Pending) (row : StagedRow) :
    pendingNumbers (p.pushRow row) = row.rowNo ::ₘ pendingNumbers p := by
  simp only [pendingNumbers, Pending.pushRow, List.map_append, List.map_cons, List.map_nil,
    ← Multiset.coe_add, ← Multiset.singleton_add, Multiset.coe_singleton]
  abel

lemma pendingNumbers_pushReject (p : Pending) (reject : ImportRejection) :
    pendingNumbers (p.pushReject reject) = reject.rowNo ::ₘ pendingNumbers p := by
  simp only [pendingNumbers, Pending.pushReject, List.map_append, List.map_cons, List.map_nil,
    ← Multiset.coe_add, ← Multiset.singleton_add, Multiset.coe_singleton]
  abel

/-- A row that is read goes to the rows or to the rejects. -/
lemma Reads.next {u : Upload} (h : Reads x file w u) {record : List String}
    {rest : List (List String)} (hrest : u.rest = record :: rest) (hroom : u.pending.len < chunk) :
    Reads x file w (u.next x.keys x.columns record rest) := by
  unfold Upload.next
  cases hparse : x.keys.parseRow x.columns record u.seen with
  | error code =>
    exact h.push hrest hroom (Pending.len_pushReject _ _) (pendingNumbers_pushReject _ _) h.nodup
      h.seen
  | ok result =>
    obtain ⟨hseen, hnew⟩ := CellKeys.parseRow_ok _ hparse
    refine h.push hrest hroom (Pending.len_pushRow _ _) (pendingNumbers_pushRow _ _) ?_ ?_
    · rw [hseen]
      exact List.nodup_cons.mpr ⟨hnew, h.nodup⟩
    · rw [hseen]
      refine le_of_eq_of_le ?_ (Multiset.cons_le_cons _ h.seen)
      simp only [Imports.hashes, Pending.pushRow, List.map_append, List.map_cons, List.map_nil,
        ← Multiset.coe_add, ← Multiset.singleton_add, Multiset.coe_singleton]
      abel

/-- What writing a chunk of the upload leaves: all it has read is written. -/
structure Wrote (x : Setup) (w : World) (u : Upload) (db : ImportDb) : Prop where
  staged : db.stagedRows.Perm (u.pending.rows ++ w.db.stagedRows)
  processing : u.pending.rows ≠ [] → ∃ r', db.row = some r' ∧ r'.status = .processing
  rejects : u.pending.rejects = [] ∨ db.row.isSome
  row : ∀ r', db.row = some r' → ∃ r, w.db.row = some r ∧ r'.status = r.status ∧
    r'.rowsOk = r.rowsOk ∧ r'.rowsRejected = r.rowsRejected + u.pending.rejects.length ∧
    r'.rowsRejected ≤ i32Max ∧ r'.report = r.report.addAll u.pending.rejects

lemma Inv.wrote (h : Inv x file w) {u : Upload} {db : ImportDb} (hu : w.upload = some u)
    (hwrite : u.pending.write x.scope w.db = .ok db) : Wrote x w u db := by
  have hroom := (h.upload u hu).room
  have hlen : u.pending.rejects.length ≤ i32Max := by
    have hmax : chunk ≤ i32Max := by decide
    unfold Pending.len at hroom
    omega
  obtain ⟨hperm, hprocessing, ⟨hdb, hnone⟩ | ⟨r, hr, hmax, hrow⟩⟩ := Pending.write_ok hlen hwrite
  · refine ⟨hperm, fun hne => ?_, .inl hnone, fun r' hr' => ?_⟩
    · rw [hdb]
      exact hprocessing hne
    · rw [hdb] at hr'
      obtain ⟨-, -, hmax, -⟩ := h.counts r' hr'
      rw [hnone]
      exact ⟨r', hr', rfl, rfl, rfl, hmax, rfl⟩
  · refine ⟨hperm, fun hne => ?_, .inr (by rw [hrow]; rfl), fun r' hr' => ?_⟩
    · obtain ⟨r₀, hr₀, hstatus⟩ := hprocessing hne
      obtain rfl := Option.some.inj (hr₀.symm.trans hr)
      exact ⟨_, hrow, hstatus⟩
    · obtain rfl := Option.some.inj (hrow.symm.trans hr')
      exact ⟨r, hr, rfl, rfl, rfl, hmax, rfl⟩

/-- The row numbers of a world whose upload has just written. -/
lemma Wrote.numbers {u : Upload} {db : ImportDb} (h : Wrote x w u db) :
    (w.applied + ((w.rejected ++ u.pending.rejects).map ImportRejection.rowNo : Multiset ℕ)) +
      (db.stagedRows.map StagedRow.rowNo : Multiset ℕ) =
        w.settled + w.left + pendingNumbers u.pending := by
  have hstaged : (db.stagedRows.map StagedRow.rowNo : Multiset ℕ) =
      ((u.pending.rows ++ w.db.stagedRows).map StagedRow.rowNo : List ℕ) :=
    Multiset.coe_eq_coe.mpr (h.staged.map _)
  rw [hstaged]
  simp only [World.settled, World.left, pendingNumbers, List.map_append, ← Multiset.coe_add]
  abel

lemma Wrote.hashes {u : Upload} {db : ImportDb} (h : Wrote x w u db) (hreads : Reads x file w u) :
    (hashes x.keys db.stagedRows : Multiset EmailHash) ≤ u.seen := by
  rw [show (Imports.hashes x.keys db.stagedRows : Multiset EmailHash) =
    Imports.hashes x.keys (u.pending.rows ++ w.db.stagedRows) from
      Multiset.coe_eq_coe.mpr (h.staged.map _)]
  exact hreads.seen

/-- The counts of a world whose upload has just written. -/
lemma Inv.counts_wrote (h : Inv x file w) {u : Upload} {db : ImportDb} (hwrote : Wrote x w u db)
    {r' : ContactImport} (hr' : db.row = some r') :
    r'.rowsOk = w.applied.card ∧ r'.rowsRejected = (w.rejected ++ u.pending.rejects).length ∧
      r'.rowsRejected ≤ i32Max ∧
      r'.report = ImportReport.addAll {} (w.rejected ++ u.pending.rejects) := by
  obtain ⟨r, hr, -, hok, hrejected, hmax, hreport⟩ := hwrote.row r' hr'
  obtain ⟨hok₀, hrejected₀, -, hreport₀⟩ := h.counts r hr
  refine ⟨hok.trans hok₀, ?_, hmax, ?_⟩
  · rw [hrejected, hrejected₀, List.length_append]
  · rw [hreport, hreport₀, ImportReport.addAll, ImportReport.addAll, ImportReport.addAll,
      List.foldl_append]

/-- A file's numbers hold no more staged rows than there are numbers. -/
lemma length_stagedRows_le {db : ImportDb} {settled : Multiset ℕ} {k : ℕ}
    (h : settled + (db.stagedRows.map StagedRow.rowNo : Multiset ℕ) ≤ numbers k) :
    db.stagedRows.length ≤ i32Max := by
  have hsub : (db.stagedRows.map StagedRow.rowNo).toFinset ⊆ Finset.Icc 1 i32Max := by
    intro n hn
    have hleft : n ∈ (db.stagedRows.map StagedRow.rowNo : Multiset ℕ) := List.mem_toFinset.mp hn
    exact Finset.mem_Icc.mpr
      (mem_numbers (Multiset.mem_of_le h (Multiset.mem_add.mpr (.inr hleft))))
  have hcard := Finset.card_le_card hsub
  rwa [List.toFinset_card_of_nodup (nodup_stagedRows _), List.length_map, Nat.card_Icc,
    Nat.add_sub_cancel] at hcard

lemma Inv.write (h : Inv x file w) {u : Upload} {db : ImportDb} (hu : w.upload = some u)
    (hwrite : u.pending.write x.scope w.db = .ok db) :
    Inv x file { w with
      db := db
      upload := some { u with pending := {} }
      written := w.written + u.pending.len
      rejected := w.rejected ++ u.pending.rejects } := by
  have hreads := h.upload u hu
  have hwrote := h.wrote hu hwrite
  have hearly : w.enqueued = false := by
    by_contra hne
    rw [(h.late (Bool.eq_true_of_not_eq_false hne)).1] at hu
    cases hu
  obtain ⟨hruns, happlied, hstatus⟩ := h.early hearly
  have hseen := hwrote.hashes hreads
  have hwhole : ∀ r', db.row = some r' → r'.status ≠ .failed →
      (w.applied + ((w.rejected ++ u.pending.rejects).map ImportRejection.rowNo : Multiset ℕ)) +
        (db.stagedRows.map StagedRow.rowNo : Multiset ℕ) = numbers (w.written + u.pending.len) := by
    intro r' hr' hfailed
    obtain ⟨r, hr, hsame, -⟩ := hwrote.row r' hr'
    have hwhole := h.whole r hr (hsame ▸ hfailed)
    exact (hwrote.numbers.trans (by rw [hwhole])).trans hreads.covers.symm
  have honce : (w.applied + ((w.rejected ++ u.pending.rejects).map ImportRejection.rowNo :
      Multiset ℕ)) + (db.stagedRows.map StagedRow.rowNo : Multiset ℕ) ≤
        numbers (w.written + u.pending.len) := by
    rw [hreads.covers]
    exact hwrote.numbers.le.trans (add_le_add_left h.once _)
  refine ⟨fun r hr => h.counts_wrote hwrote hr, hwhole, honce, ?_, ⟨?_, ?_⟩, ?_, ?_, ?_, ?_,
    h.alone, ?_⟩
  · show w.written + u.pending.len ≤ file.length
    have := hreads.rest
    omega
  · show (w.rejected ++ u.pending.rejects).length ≤ i32Max
    rcases hwrote.rejects with hnone | hsome
    · rw [hnone, List.append_nil]
      exact h.small.1
    · obtain ⟨r', hr'⟩ := Option.isSome_iff_exists.mp hsome
      obtain ⟨-, hrejected, hmax, -⟩ := h.counts_wrote hwrote hr'
      exact hrejected ▸ hmax
  · show w.written + u.pending.len ≤ i32Max + (w.rejected ++ u.pending.rejects).length
    by_cases hrows : u.pending.rows = []
    · have hsmall := h.small.2
      rw [Pending.len, hrows, List.length_nil, List.length_append]
      omega
    · obtain ⟨r', hr', hstatus⟩ := hwrote.processing hrows
      have hcard := congrArg Multiset.card (hwhole r' hr' (by rw [hstatus]; decide))
      have hstaged := length_stagedRows_le honce
      simp only [happlied, Multiset.card_add, Multiset.coe_card, List.length_map, card_numbers,
        Multiset.card_zero] at hcard
      omega
  · rintro v ⟨⟩
    exact ⟨hreads.rest, hreads.rows, Nat.zero_le _, by simp [pendingNumbers, Pending.len],
      hreads.nodup, hseen⟩
  · exact Multiset.coe_nodup.mp (Multiset.nodup_of_le hseen (Multiset.coe_nodup.mpr hreads.nodup))
  · refine fun _ => ⟨hruns, happlied, fun r' hr' => ?_⟩
    obtain ⟨r, hr, hsame, -⟩ := hwrote.row r' hr'
    exact hsame ▸ hstatus r hr
  · intro henqueued
    rw [show w.enqueued = true from henqueued] at hearly
    cases hearly
  · intro i rows hi
    simp [show w.runs = [] from hruns] at hi

/-- The total that the last transaction sets is the count of all rows, up to the column's
maximum: a count that wrapped round is not committed. -/
lemma Inv.finish (h : Inv x file w) {u : Upload} {db : ImportDb} (hu : w.upload = some u)
    (hfinish : u.finish x.scope w.db = .ok db) :
    Inv x file { w with
      db := db
      upload := none
      enqueued := true
      written := w.written + u.pending.len
      rejected := w.rejected ++ u.pending.rejects } := by
  obtain ⟨mid, hwrite, rfl⟩ := Upload.finish_ok hfinish
  have hall := h.write hu hwrite
  have hreads := h.upload u hu
  obtain ⟨hruns, -, -⟩ := hall.early (by
    by_contra hne
    rw [(h.late (Bool.eq_true_of_not_eq_false hne)).1] at hu
    cases hu)
  have hrow : ∀ r', (mid.change fun r => { r with
      rowsTotal := min u.rows.toNat i32Max }).row = some r' →
      ∃ r, mid.row = some r ∧ { r with rowsTotal := min u.rows.toNat i32Max } = r' :=
    fun r' hr' => Option.map_eq_some_iff.mp hr'
  refine ⟨?_, ?_, hall.once, hall.within, hall.small, nofun, hall.hashes, nofun, ?_, hall.alone,
    ?_⟩
  · intro r' hr'
    obtain ⟨r, hr, rfl⟩ := hrow r' hr'
    exact hall.counts r hr
  · intro r' hr' hfailed
    obtain ⟨r, hr, rfl⟩ := hrow r' hr'
    exact hall.whole r hr hfailed
  · refine fun _ => ⟨rfl, fun r' hr' hfailed => ?_⟩
    obtain ⟨r, hr, rfl⟩ := hrow r' hr'
    have hlt : w.written + u.pending.len < 2 ^ 32 := by
      have htwice : i32Max + i32Max < 2 ^ 32 := by decide
      exact (hall.small.2.trans (Nat.add_le_add_left hall.small.1 _)).trans_lt htwice
    show min u.rows.toNat i32Max = min (w.written + u.pending.len) i32Max
    rw [hreads.rows, UInt32.toNat_ofNat_of_lt' hlt]
  · intro i rows hi
    simp [show w.runs = [] from hruns] at hi

/-! ### The job -/

/-- No run has the owner's lock, and one may take it. -/
lemma alone_of_unlocked (h : w.Unlocked) (i : ℕ) (p : Phase) :
    Alone Phase.Working (w.runs.set i p) := by
  have hat : ∀ {l : ℕ} {q : Phase}, (w.runs.set i p)[l]? = some q → q.Working → l = i := by
    intro l q hl hq
    rcases of_getElem?_set hl with ⟨hli, -⟩ | ⟨-, hold⟩
    · exact hli
    · exact absurd hq (h l q hold)
  intro j k p q hj hk hp hq
  rw [hat hj hp, hat hk hq]

lemma of_afterTake {rows rows' : List StagedRow} (h : afterTake rows = .chunk rows') :
    rows = rows' := by
  cases rows with
  | nil => cases h
  | cons => exact Phase.chunk.inj h

lemma Inv.take (h : Inv x file w) {i : ℕ} (hrun : w.runs[i]? = some .looping)
    (hlock : w.Unlocked) :
    Inv x file { w with
      runs := w.runs.set i
        (afterTake (ContactImportRepo.takeChunk w.db (w.abandoning.getD []) chunk)) } := by
  have hearly : w.enqueued ≠ false := fun hearly => by
    simp [(h.early hearly).1] at hrun
  refine { h with
    upload := fun u hu => ?_
    early := fun hf => absurd hf hearly
    alone := alone_of_unlocked hlock i _
    taken := ?_ }
  · exact absurd ((h.late (Bool.eq_true_of_not_eq_false hearly)).1.symm.trans hu) nofun
  · intro j rows hj
    rcases of_getElem?_set hj with ⟨-, heq⟩ | ⟨-, hold⟩
    · rw [← of_afterTake heq.symm]
      refine ⟨length_takeChunk_le _ _ _, nodup_takeChunk _ _ _,
        fun _ r hr => (mem_takeChunk hr).1, fun held hheld r hr => ?_⟩
      have hfree := (mem_takeChunk hr).2
      rwa [show w.abandoning = some held from hheld] at hfree
    · exact absurd trivial (hlock j _ hold)

/-- A chunk of the job moves its rows from the staged ones to the applied and the rejected. -/
lemma Inv.commit (h : Inv x file w) {i : ℕ} {rows : List StagedRow} {now : Time}
    {fresh : ℕ → ContactId} {db : ImportDb} {owned : Owned} {a : Applied}
    (hrun : w.runs[i]? = some (.chunk rows))
    (happly : applyChunk x.keys.toMailKeys x.scope now fresh w.owned w.db rows =
      .ok (db, owned, a)) :
    Inv x file { w with
      db := db
      owned := owned
      runs := w.runs.set i .looping
      applied := w.applied + ((rows.map StagedRow.rowNo : Multiset ℕ) -
        (a.rejects.map ImportRejection.rowNo : Multiset ℕ))
      rejected := w.rejected ++ a.rejects } := by
  obtain ⟨hlen, hnodup, hsub, -⟩ := h.taken i rows hrun
  have hmax : rows.length ≤ i32Max := hlen.trans (by decide)
  obtain ⟨hcount, hrejects, hstaged, r, hr, -, hrejected, hrow⟩ := applyChunk_ok hmax happly
  have hsub := hsub (by rw [hr]; rfl)
  have hearly : w.enqueued ≠ false := fun hearly => by
    simp [(h.early hearly).1] at hrun
  have hlate := h.late (Bool.eq_true_of_not_eq_false hearly)
  have hle : (a.rejects.map ImportRejection.rowNo : Multiset ℕ) ≤
      (rows.map StagedRow.rowNo : Multiset ℕ) := Multiset.coe_le.mpr hrejects.subperm
  have hrest : db.stagedRows = (w.db.drop (rows.map StagedRow.rowNo)).stagedRows := by
    unfold ImportDb.stagedRows
    rw [hstaged]
  have hleft : w.left = (rows.map StagedRow.rowNo : Multiset ℕ) +
      (db.stagedRows.map StagedRow.rowNo : Multiset ℕ) := by
    have hall := congrArg (Multiset.map StagedRow.rowNo) (stagedRows_eq_add_drop hsub hnodup)
    rwa [Multiset.map_add, Multiset.map_coe, Multiset.map_coe, Multiset.map_coe, ← hrest] at hall
  -- what the rows were counted as before, they are counted as now
  have hsame : (w.applied + ((rows.map StagedRow.rowNo : Multiset ℕ) -
      (a.rejects.map ImportRejection.rowNo : Multiset ℕ))) +
      ((w.rejected ++ a.rejects).map ImportRejection.rowNo : Multiset ℕ) +
      (db.stagedRows.map StagedRow.rowNo : Multiset ℕ) = w.settled + w.left := by
    have hback := tsub_add_cancel_of_le hle
    generalize (rows.map StagedRow.rowNo : Multiset ℕ) -
      (a.rejects.map ImportRejection.rowNo : Multiset ℕ) = moved at hback ⊢
    rw [hleft, ← hback, World.settled, List.map_append, ← Multiset.coe_add]
    abel
  obtain ⟨hok, hrejected₀, -, hreport⟩ := h.counts r hr
  have hmore : (w.rejected ++ a.rejects).length = r.rowsRejected + a.rejects.length := by
    rw [List.length_append, hrejected₀]
  refine ⟨?_, ?_, ?_, h.within, ⟨hmore.trans_le hrejected, ?_⟩, ?_, ?_,
    fun hf => absurd hf hearly, ?_, ?_, ?_⟩
  · intro r' hr'
    obtain rfl := Option.some.inj (hrow.symm.trans hr')
    refine ⟨?_, ?_, hrejected, ?_⟩
    · show r.rowsOk + a.ok = (_ + _ : Multiset ℕ).card
      rw [Multiset.card_add, Multiset.card_sub hle, Multiset.coe_card, Multiset.coe_card,
        List.length_map, List.length_map, hok]
      omega
    · exact hmore.symm
    · show r.report.addAll a.rejects = _
      rw [hreport, ImportReport.addAll, ImportReport.addAll, ImportReport.addAll,
        List.foldl_append]
  · intro r' hr' hfailed
    obtain rfl := Option.some.inj (hrow.symm.trans hr')
    exact hsame.trans (h.whole r hr hfailed)
  · exact hsame.le.trans h.once
  · show w.written ≤ i32Max + (w.rejected ++ a.rejects).length
    have hsmall := h.small.2
    rw [List.length_append]
    omega
  · intro u hu
    exact absurd (hlate.1.symm.trans hu) nofun
  · show (Imports.hashes x.keys db.stagedRows).Nodup
    rw [hrest, stagedRows_drop]
    exact h.hashes.sublist (List.filter_sublist.map _)
  · refine fun _ => ⟨hlate.1, fun r' hr' hfailed => ?_⟩
    obtain rfl := Option.some.inj (hrow.symm.trans hr')
    exact hlate.2 r hr hfailed
  · exact h.alone.set hrun trivial _
  · intro j rows' hj
    rcases of_getElem?_set hj with ⟨-, heq⟩ | ⟨hne, hold⟩
    · cases heq
    · exact absurd trivial (h.alone.others hrun trivial hne hold)

/-- An import is closed; its rows and counts stay. -/
lemma Inv.complete (h : Inv x file w) {i : ℕ} {db : ImportDb}
    (hrun : w.runs[i]? = some .finishing) (hlock : w.Unlocked)
    (hcomplete : ContactImportRepo.complete w.db = .ok db) :
    Inv x file { w with
      db := db
      runs := w.runs.set i .ended
      imported := w.imported ++ db.row.toList } := by
  obtain ⟨r, hr, hstatus, rfl⟩ := ContactImportRepo.complete_ok hcomplete
  have hopen : r.status ≠ .failed := by rw [hstatus]; nofun
  have hearly : w.enqueued ≠ false := fun hearly => by
    simp [(h.early hearly).1] at hrun
  have hlate := h.late (Bool.eq_true_of_not_eq_false hearly)
  refine { h with
    counts := ?_
    whole := ?_
    upload := fun u hu => absurd (hlate.1.symm.trans hu) nofun
    early := fun hf => absurd hf hearly
    late := fun _ => ⟨hlate.1, ?_⟩
    alone := alone_of_unlocked hlock i _
    taken := ?_ }
  · rintro r' ⟨⟩
    exact h.counts r hr
  · rintro r' ⟨⟩ -
    exact h.whole r hr hopen
  · rintro r' ⟨⟩ -
    exact hlate.2 r hr hopen
  · intro j rows hj
    rcases of_getElem?_set hj with ⟨-, heq⟩ | ⟨-, hold⟩
    · cases heq
    · exact absurd trivial (hlock j _ hold)

/-! ### The end of an import -/

/-- A failed import loses the rows that were locked, and none that a run has taken. -/
lemma Inv.fail (h : Inv x file w) {held : List ℕ} (hheld : w.abandoning = some held) :
    Inv x file { w with
      db := (w.db.drop held).change fun r => { r with status := .failed }
      abandoning := none } := by
  have hsub : ((w.db.drop held).change fun r => { r with status := .failed }).stagedRows.Sublist
      w.db.stagedRows := by
    rw [stagedRows_change, stagedRows_drop]
    exact List.filter_sublist
  have hrow : ∀ r', ((w.db.drop held).change fun r => { r with status := .failed }).row = some r' →
      ∃ r, w.db.row = some r ∧ { r with status := .failed } = r' :=
    fun r' hr' => Option.map_eq_some_iff.mp hr'
  refine ⟨?_, ?_, ?_, h.within, h.small, ?_, h.hashes.sublist (hsub.map _), ?_, ?_, h.alone, ?_⟩
  · intro r' hr'
    obtain ⟨r, hr, rfl⟩ := hrow r' hr'
    exact h.counts r hr
  · intro r' hr' hfailed
    obtain ⟨r, -, rfl⟩ := hrow r' hr'
    exact absurd rfl hfailed
  · refine le_trans (add_le_add_right ?_ _) h.once
    exact Multiset.coe_le.mpr (hsub.map _).subperm
  · intro u hu
    have hreads := h.upload u hu
    refine { hreads with seen := le_trans ?_ hreads.seen }
    exact Multiset.coe_le.mpr (((List.Sublist.refl _).append hsub).map _).subperm
  · intro hf
    obtain ⟨hruns, happlied, -⟩ := h.early hf
    refine ⟨hruns, happlied, fun r' hr' => ?_⟩
    obtain ⟨r, -, rfl⟩ := hrow r' hr'
    nofun
  · refine fun henqueued => ⟨(h.late henqueued).1, fun r' hr' hfailed => ?_⟩
    obtain ⟨r, -, rfl⟩ := hrow r' hr'
    exact absurd rfl hfailed
  · intro i rows hi
    obtain ⟨hlen, hnodup, hin, hfree⟩ := h.taken i rows hi
    refine ⟨hlen, hnodup, fun hsome y hy => ?_, nofun⟩
    rw [stagedRows_change, stagedRows_drop, List.mem_filter]
    refine ⟨hin ?_ hy, decide_eq_true (hfree held hheld y hy)⟩
    rwa [ImportDb.change, Option.isSome_map] at hsome

lemma Inv.delete (h : Inv x file w) : Inv x file { w with db := ⟨none, ∅⟩ } := by
  refine ⟨nofun, nofun, ?_, h.within, h.small, ?_, List.nodup_nil, ?_, ?_, h.alone, ?_⟩
  · refine le_trans (add_le_add_right ?_ _) h.once
    exact Multiset.zero_le _
  · intro u hu
    have hreads := h.upload u hu
    refine { hreads with seen := le_trans ?_ hreads.seen }
    exact Multiset.coe_le.mpr
      (((List.Sublist.refl _).append (List.nil_sublist _)).map _).subperm
  · exact fun hf => ⟨(h.early hf).1, (h.early hf).2.1, nofun⟩
  · exact fun ht => ⟨(h.late ht).1, nofun⟩
  · intro i rows hi
    obtain ⟨hlen, hnodup, -, hfree⟩ := h.taken i rows hi
    exact ⟨hlen, hnodup, nofun, hfree⟩

/-- Nothing that the counts of the import depend on. -/
lemma Inv.outside (h : Inv x file w) (owned : Owned) :
    Inv x file { w with owned := owned, db := w.db.change (unlist owned) } := by
  have hrow : ∀ r', (w.db.change (unlist owned)).row = some r' →
      ∃ r, w.db.row = some r ∧ unlist owned r = r' :=
    fun r' hr' => Option.map_eq_some_iff.mp hr'
  refine ⟨?_, ?_, h.once, h.within, h.small, fun u hu => { h.upload u hu with }, h.hashes, ?_, ?_,
    h.alone, ?_⟩
  · intro r' hr'
    obtain ⟨r, hr, rfl⟩ := hrow r' hr'
    exact h.counts r hr
  · intro r' hr' hfailed
    obtain ⟨r, hr, rfl⟩ := hrow r' hr'
    exact h.whole r hr hfailed
  · intro hf
    obtain ⟨hruns, happlied, hopen⟩ := h.early hf
    refine ⟨hruns, happlied, fun r' hr' => ?_⟩
    obtain ⟨r, hr, rfl⟩ := hrow r' hr'
    exact hopen r hr
  · refine fun henqueued => ⟨(h.late henqueued).1, fun r' hr' hfailed => ?_⟩
    obtain ⟨r, hr, rfl⟩ := hrow r' hr'
    exact (h.late henqueued).2 r hr hfailed
  · intro i rows hi
    obtain ⟨hlen, hnodup, hin, hfree⟩ := h.taken i rows hi
    refine ⟨hlen, hnodup, fun hsome => hin ?_, hfree⟩
    rwa [ImportDb.change, Option.isSome_map] at hsome

/-! ### Every step -/

/-- A run goes on to a phase without the lock. -/
lemma Inv.setIdle (h : Inv x file w) (i : ℕ) {p : Phase} (hidle : ¬ p.Working) :
    Inv x file { w with runs := w.runs.set i p } := by
  have hpool : ∀ (j : ℕ) q, (w.runs.set i p)[j]? = some q → q = p ∨ w.runs[j]? = some q := by
    intro j q hj
    rcases of_getElem?_set hj with ⟨-, heq⟩ | ⟨-, hold⟩
    · exact .inl heq
    · exact .inr hold
  refine { h with
    upload := fun u hu => { h.upload u hu with }
    early := fun hf => ?_
    alone := h.alone.of_idle hidle hpool
    taken := ?_ }
  · obtain ⟨hruns, hrest⟩ := h.early hf
    exact ⟨by rw [hruns]; rfl, hrest⟩
  · intro j rows hj
    rcases hpool j _ hj with rfl | hold
    · exact absurd trivial hidle
    · exact h.taken j rows hold

lemma Inv.step (hstep : Step x w e w') (h : Inv x file w) : Inv x file w' := by
  cases hstep with
  | read hu hrest hroom hmax =>
    refine { h with
      upload := ?_
      late := fun ht => absurd ((h.late ht).1.symm.trans hu) nofun }
    rintro v ⟨⟩
    exact { (h.upload _ hu).next hrest hroom with }
  | write hu hfull hfree hwrite => exact h.write hu hwrite
  | finish hu hrest hroom hfree hwrite => exact h.finish hu hwrite
  | stop => exact { h with upload := nofun, late := fun ht => ⟨rfl, (h.late ht).2⟩ }
  | hold hprocessing hmore hfree =>
    refine { h with
      upload := fun u hu => { h.upload u hu with }
      taken := fun i rows hi => ?_ }
    obtain ⟨hlen, hnodup, hin, -⟩ := h.taken i rows hi
    refine ⟨hlen, hnodup, hin, ?_⟩
    rintro held ⟨⟩
    exact hfree i rows hi
  | fail hheld => exact h.fail hheld
  | release hheld =>
    refine { h with
      upload := fun u hu => { h.upload u hu with }
      taken := fun i rows hi => ?_ }
    obtain ⟨hlen, hnodup, hin, -⟩ := h.taken i rows hi
    exact ⟨hlen, hnodup, hin, nofun⟩
  | start henqueued hprocessing =>
    refine { h with
      upload := fun u hu => { h.upload u hu with }
      early := fun hf => absurd (hf.symm.trans henqueued) nofun
      alone := h.alone.of_idle (show ¬ Phase.looping.Working from not_false) fun j p hj => ?_
      taken := fun j rows hj => ?_ }
    · rcases of_getElem?_concat hj with ⟨-, heq⟩ | hold
      · exact .inl heq
      · exact .inr hold
    · rcases of_getElem?_concat hj with ⟨-, heq⟩ | hold
      · cases heq
      · exact h.taken j rows hold
  | take hrun hlock => exact h.take hrun hlock
  | commit hrun hfree happly => exact h.commit hrun happly
  | complete hrun hlock hfree hcomplete => exact h.complete hrun hlock hcomplete
  | crash => exact h.setIdle _ not_false
  | outside owned => exact h.outside owned
  | delete => exact h.delete

end Invariant

/-! ## Completion -/

section Completion

variable {x : Setup} {file : List (List String)} {w w' : World} {e : Event}

/-- An abandonment is undone while a run that found all rows left locked is about to complete the
import. -/
def Spoils (w : World) (e : Event) : Prop :=
  e = .release ∧ w.db.stagedRows ≠ [] ∧ ∃ i : ℕ, w.runs[i]? = some .finishing

/-- A step that undoes no abandonment of rows a run has skipped. -/
def SteadyStep (x : Setup) (w : World) (e : Event) (w' : World) : Prop :=
  Step x w e w' ∧ ¬ Spoils w e

/-- Rows a finishing run has not seen are locked by an abandonment. -/
structure Done (w : World) : Prop where
  finishing : ∀ i : ℕ, w.runs[i]? = some .finishing → w.Processing → w.db.stagedRows = [] ∨
    ∃ held, w.abandoning = some held ∧ ∀ r ∈ w.db.stagedRows, r.rowNo ∈ held
  completed : ∀ r, w.db.row = some r → r.status = .completed → w.db.stagedRows = []

lemma Done.create (x : Setup) (file : List (List String)) (owned : Owned) :
    Done (World.create x file owned) where
  finishing := fun _ h => by simp [World.create] at h
  completed := fun _ _ _ => rfl

/-- While the upload runs, no run is finishing and nothing is completed. -/
lemma Done.of_early (hearly : w.runs = [])
    (hopen : ∀ r, w.db.row = some r → r.status ≠ .completed) : Done w where
  finishing := fun _ hi => by simp [hearly] at hi
  completed := fun r hr hstatus => absurd hstatus (hopen r hr)

/-- A run goes on to a phase that is not the last but one. -/
lemma Done.setOther (h : Done w) (i : ℕ) {p : Phase} (hp : p ≠ .finishing) :
    Done { w with runs := w.runs.set i p } where
  finishing := fun j hj => by
    rcases of_getElem?_set hj with ⟨-, heq⟩ | ⟨-, hold⟩
    · exact absurd heq.symm hp
    · exact h.finishing j hold
  completed := h.completed

lemma Done.take (h : Done w) {i : ℕ} : Done { w with
    runs := w.runs.set i
      (afterTake (ContactImportRepo.takeChunk w.db (w.abandoning.getD []) chunk)) } where
  finishing := fun j hj hprocessing => by
    rcases of_getElem?_set hj with ⟨-, heq⟩ | ⟨-, hold⟩
    · cases hrows : ContactImportRepo.takeChunk w.db (w.abandoning.getD []) chunk with
      | cons r rows =>
        rw [hrows] at heq
        cases heq
      | nil =>
        have hlocked := locked_of_takeChunk_eq_nil (by decide) hrows
        cases hheld : w.abandoning with
        | some held => exact .inr ⟨held, rfl, by rwa [hheld] at hlocked⟩
        | none =>
          rw [hheld] at hlocked
          exact .inl (List.eq_nil_iff_forall_not_mem.mpr fun r hr => by simpa using hlocked r hr)
    · exact h.finishing j hold hprocessing
  completed := h.completed

lemma Done.commit (h : Done w) {i : ℕ} {rows : List StagedRow} {now : Time}
    {fresh : ℕ → ContactId} {db : ImportDb} {owned : Owned} {a : Applied}
    {settled : Multiset ℕ} {rejected : List ImportRejection} (hlen : rows.length ≤ i32Max)
    (hfree : w.abandoning = none)
    (happly : applyChunk x.keys.toMailKeys x.scope now fresh w.owned w.db rows =
      .ok (db, owned, a)) :
    Done { w with
      db := db
      owned := owned
      runs := w.runs.set i .looping
      applied := settled
      rejected := rejected } := by
  obtain ⟨-, -, hstaged, r, hr, -, -, hrow⟩ := applyChunk_ok hlen happly
  have hempty : w.db.stagedRows = [] → db.stagedRows = [] := by
    intro hnil
    have hrest : db.stagedRows = (w.db.drop (rows.map StagedRow.rowNo)).stagedRows := by
      unfold ImportDb.stagedRows
      rw [hstaged]
    rw [hrest, stagedRows_drop, hnil, List.filter_nil]
  refine ⟨fun j hj hprocessing => .inl (hempty ?_), fun r' hr' hstatus => hempty ?_⟩
  · rcases of_getElem?_set hj with ⟨-, heq⟩ | ⟨-, hold⟩
    · cases heq
    · obtain ⟨r', hr', hstatus⟩ := hprocessing
      obtain rfl := Option.some.inj (hrow.symm.trans hr')
      rcases h.finishing j hold ⟨r, hr, hstatus⟩ with hnil | ⟨held, hheld, -⟩
      · exact hnil
      · exact absurd (hfree.symm.trans hheld) nofun
  · obtain rfl := Option.some.inj (hrow.symm.trans hr')
    exact h.completed r hr hstatus

/-- The import is completed by a run that has found nothing left. -/
lemma Done.complete (h : Done w) {i : ℕ} {db : ImportDb} {imported : List ContactImport}
    (hrun : w.runs[i]? = some .finishing) (hfree : w.abandoning = none)
    (hcomplete : ContactImportRepo.complete w.db = .ok db) :
    Done { w with db := db, runs := w.runs.set i .ended, imported := imported } := by
  obtain ⟨r, hr, hstatus, rfl⟩ := ContactImportRepo.complete_ok hcomplete
  have hnil : w.db.stagedRows = [] := by
    rcases h.finishing i hrun ⟨r, hr, hstatus⟩ with hnil | ⟨held, hheld, -⟩
    · exact hnil
    · exact absurd (hfree.symm.trans hheld) nofun
  exact ⟨fun _ _ _ => .inl hnil, fun _ _ _ => hnil⟩

lemma Done.step (hstep : SteadyStep x w e w') (h : Inv x file w) (hdone : Done w) : Done w' := by
  obtain ⟨hstep, hsteady⟩ := hstep
  have hnext := h.step hstep
  cases hstep with
  | read hu hrest hroom hmax => exact ⟨hdone.finishing, hdone.completed⟩
  | write hu hfull hfree hwrite =>
    have hearly : w.enqueued = false := by
      by_contra hne
      exact absurd ((h.late (Bool.eq_true_of_not_eq_false hne)).1.symm.trans hu) nofun
    obtain ⟨hruns, -, hopen⟩ := hnext.early hearly
    exact .of_early hruns hopen
  | finish hu hrest hroom hfree hwrite =>
    have hearly : w.enqueued = false := by
      by_contra hne
      exact absurd ((h.late (Bool.eq_true_of_not_eq_false hne)).1.symm.trans hu) nofun
    obtain ⟨hruns, -, hopen⟩ := h.early hearly
    obtain ⟨mid, hmid, rfl⟩ := Upload.finish_ok hwrite
    refine .of_early hruns fun r' hr' => ?_
    obtain ⟨r, hr, rfl⟩ := Option.map_eq_some_iff.mp hr'
    obtain ⟨r₀, hr₀, hsame, -⟩ := (h.wrote hu hmid).row r hr
    exact hsame ▸ hopen r₀ hr₀
  | stop => exact ⟨hdone.finishing, hdone.completed⟩
  | hold hprocessing hmore hfree =>
    refine ⟨fun i hi hp => ?_, hdone.completed⟩
    rcases hdone.finishing i hi hp with hnil | ⟨old, hold, hlocked⟩
    · exact .inl hnil
    · exact .inr ⟨_, rfl, fun r hr => hmore old hold (hlocked r hr)⟩
  | fail hheld =>
    refine ⟨fun _ _ hp => ?_, fun r' hr' hstatus => ?_⟩
    · obtain ⟨r', hr', hstatus⟩ := hp
      obtain ⟨r, -, rfl⟩ := Option.map_eq_some_iff.mp hr'
      cases hstatus
    · obtain ⟨r, -, rfl⟩ := Option.map_eq_some_iff.mp hr'
      cases hstatus
  | release hheld =>
    refine ⟨fun i hi hp => .inl ?_, hdone.completed⟩
    by_contra hne
    exact hsteady ⟨rfl, hne, i, hi⟩
  | start henqueued hprocessing =>
    refine ⟨fun i hi => ?_, hdone.completed⟩
    rcases of_getElem?_concat hi with ⟨-, heq⟩ | hold
    · cases heq
    · exact hdone.finishing i hold
  | take hrun hlock => exact hdone.take
  | commit hrun hfree happly =>
    exact hdone.commit (((h.taken _ _ hrun).1).trans (by decide)) hfree happly
  | complete hrun hlock hfree hcomplete => exact hdone.complete hrun hfree hcomplete
  | crash => exact hdone.setOther _ nofun
  | outside owned =>
    refine ⟨fun i hi hp => ?_, fun r' hr' hstatus => ?_⟩
    · obtain ⟨r', hr', hstatus⟩ := hp
      obtain ⟨r, hr, rfl⟩ := Option.map_eq_some_iff.mp hr'
      exact hdone.finishing i hi ⟨r, hr, hstatus⟩
    · obtain ⟨r, hr, rfl⟩ := Option.map_eq_some_iff.mp hr'
      exact hdone.completed r hr hstatus
  | delete => exact ⟨fun _ _ _ => .inl rfl, nofun⟩

end Completion

/-! ## The accounts -/

/-- What an import says of the rows of its file. -/
structure Accounted (x : Setup) (file : List (List String)) (w : World) : Prop where
  -- no row is applied, rejected or staged more often than the file has it
  once : w.settled + w.left ≤ numbers file.length
  -- and the file has each number below the column's maximum once
  single : ∀ n < i32Max, w.settled.count n ≤ 1
  read : ∀ u, w.upload = some u → w.written + u.pending.len + u.rest.length = file.length
  processing : ∀ r, w.db.row = some r → r.status = .processing →
    r.rowsOk + r.rowsRejected + w.db.stagedRows.length = w.written
  report : ∀ r, w.db.row = some r → r.report.sum = r.rowsRejected ∧
    r.rowsRejected = w.rejected.length ∧ r.report.entries = w.rejected.take reportEntriesMax
  hashes : (hashes x.keys w.db.stagedRows).Nodup

/-- A number below the maximum is the number of one row, unless the count of rows wraps round. -/
lemma count_numbers_le {k n : ℕ} (hk : k < 2 ^ 32) (hn : n < i32Max) :
    (numbers k).count n ≤ 1 := by
  induction k with
  | zero => exact Nat.zero_le _
  | succ k ih =>
    have hrow : ∀ i < 2 ^ 32, rowNo (UInt32.ofNat i) = min (i + 1) i32Max := by
      intro i hi
      rw [rowNo, UInt32.toNat_ofNat_of_lt' hi]
    rw [numbers_succ, Multiset.count_cons, hrow _ hk]
    by_cases heq : n = min (k + 1 + 1) i32Max
    · have hnone : (numbers k).count n = 0 := by
        refine Multiset.count_eq_zero_of_notMem fun hmem => ?_
        obtain ⟨i, hi, hin⟩ := Multiset.mem_map.mp hmem
        rw [Multiset.mem_range] at hi
        rw [hrow _ (by omega)] at hin
        omega
      rw [hnone, if_pos heq]
    · rw [if_neg heq]
      exact ih (by omega)

/-- **Every row of an import is accounted for.**  In every run the rows of the chunks written are
the rows applied, rejected and left, each once; and unless an abandonment is undone of rows that a
run has skipped, a completed import has no row left and all of them in its total, up to the
column's maximum. -/
theorem imports_account (x : Setup) (file : List (List String)) (owned : Owned) {es : List Event}
    {w : World} (h : Run (Step x) (World.create x file owned) es w) :
    Accounted x file w ∧
      (Run (SteadyStep x) (World.create x file owned) es w →
        ∀ r, w.db.row = some r → r.status = .completed → w.db.stagedRows = [] ∧
          r.rowsTotal = min (r.rowsOk + r.rowsRejected) i32Max) := by
  have hinv : Inv x file w := h.invariant (I := Inv x file) Inv.step (.create x file owned)
  have hsum : ∀ r, w.db.row = some r → r.status ≠ .failed →
      r.rowsOk + r.rowsRejected + w.db.stagedRows.length = w.written := by
    intro r hr hfailed
    have hcard := congrArg Multiset.card (hinv.whole r hr hfailed)
    obtain ⟨hok, hrejected, -⟩ := hinv.counts r hr
    simp only [World.settled, World.left, Multiset.card_add, Multiset.coe_card, List.length_map,
      card_numbers] at hcard
    omega
  refine ⟨⟨hinv.once.trans (numbers_mono hinv.within), fun n hn => ?_,
    fun u hu => (hinv.upload u hu).rest, fun r hr hstatus => hsum r hr (by rw [hstatus]; nofun),
    fun r hr => ?_, hinv.hashes⟩, fun hrun r hr hstatus => ?_⟩
  · have hsmall : w.written < 2 ^ 32 := by
      have htwice : i32Max + i32Max < 2 ^ 32 := by decide
      exact (hinv.small.2.trans (Nat.add_le_add_left hinv.small.1 _)).trans_lt htwice
    have hle := (Multiset.le_add_right w.settled w.left).trans hinv.once
    exact (Multiset.count_le_of_le n hle).trans (count_numbers_le hsmall hn)
  · obtain ⟨-, hrejected, -, hreport⟩ := hinv.counts r hr
    have hentries := @ImportReport.entries_addAll {} [] List.take_nil.symm w.rejected
    rw [List.nil_append] at hentries
    refine ⟨?_, hrejected, by rw [hreport, hentries]⟩
    rw [hreport, ImportReport.sum_addAll, hrejected]
    exact Nat.zero_add _
  · have hsteady : Inv x file w ∧ Done w :=
      hrun.invariant (I := fun w => Inv x file w ∧ Done w)
        (fun hstep h => ⟨h.1.step hstep.1, h.2.step hstep h.1⟩)
        ⟨.create x file owned, .create x file owned⟩
    have hnil := hsteady.2.completed r hr hstatus
    have hopen : r.status ≠ .failed := by rw [hstatus]; nofun
    have hall := hsum r hr hopen
    have henqueued : w.enqueued = true := by
      by_contra hne
      exact (hinv.early (Bool.eq_false_of_not_eq_true hne)).2.2 r hr hstatus
    rw [hnil, List.length_nil, Nat.add_zero] at hall
    exact ⟨hnil, by rw [(hinv.late henqueued).2 r hr hopen, hall]⟩

/-! ## Imports that complete, and one that leaves a row -/

section Samples

def sampleKeys : CellKeys where
  trim := id
  toLowercase := id
  hmac := fun s => s.toList.foldl (fun n c => 256 * n + c.toNat) 0
  isAddress := fun s => s.toList.contains '@'
  parseRfc3339 := fun _ => none
  parseDate := fun _ => none

/-- A file with an address and the source of its consent. -/
def sample : Setup where
  keys := sampleKeys
  columns := { width := 2, email := 0, consentSource := 1 }
  csvMaxRows := 200000
  owner := 1

def sampleRow : List String := ["ada@example.org", "form"]

def sampleOwned : Owned := ⟨.empty, ∅, 0⟩

lemma exists_parsed : ∃ result, sampleKeys.parseRow sample.columns sampleRow [] = .ok result := by
  have hsome : (sampleKeys.parseRow sample.columns sampleRow []).toOption.isSome = true := by
    decide
  obtain ⟨result, hresult⟩ := Option.isSome_iff_exists.mp hsome
  exact ⟨result, ok_of_toOption hresult⟩

/-- The row is staged, and the job is enqueued. -/
def sampleStaged (data : StagedContact) : World where
  db := ⟨some { rowsTotal := 1 }, (∅ : Table ℕ StagedContact).insert 2 data⟩
  owned := sampleOwned
  upload := none
  enqueued := true
  runs := [.looping]
  written := 1

lemma run_staged : ∃ es data,
    Run (SteadyStep sample) (World.create sample [sampleRow] sampleOwned) es (sampleStaged data) := by
  obtain ⟨⟨data, seen⟩, hparse⟩ := exists_parsed
  have hnext : Upload.next sample.keys sample.columns { rest := [sampleRow] } sampleRow [] =
      ⟨[], 1, seen, { rows := [⟨2, data⟩] }⟩ := by
    unfold Upload.next
    rw [show sample.keys.parseRow sample.columns sampleRow [] = _ from hparse]
    rfl
  have hread := Step.read (x := sample) (w := World.create sample [sampleRow] sampleOwned) rfl rfl
    (by decide) (by decide)
  rw [hnext] at hread
  have hfinish := Step.finish (x := sample) (w := { World.create sample [sampleRow] sampleOwned with
    upload := some ⟨[], 1, seen, { rows := [⟨2, data⟩] }⟩ }) rfl rfl (show 1 < chunk by decide) rfl
    rfl
  have hstart := Step.start (x := sample) (w := { sampleStaged data with runs := [] }) rfl
    ⟨_, rfl, rfl⟩
  exact ⟨_, data, ((Run.single ⟨hread, nofun⟩).snoc ⟨hfinish, nofun⟩).snoc ⟨hstart, nofun⟩⟩

lemma unlocked_of_idle {w : World} {p : Phase} (hruns : w.runs = [p]) (hidle : ¬ p.Working) :
    w.Unlocked := by
  intro i q hi
  rw [hruns] at hi
  cases i with
  | zero => exact Option.some.inj hi ▸ hidle
  | succ i => simp at hi

/-- The row becomes a contact, and the import completes. -/
theorem imports_account_completed : ∃ es w r,
    Run (SteadyStep sample) (World.create sample [sampleRow] sampleOwned) es w ∧
      w.db.row = some r ∧ r.status = .completed ∧ r.rowsOk = 1 ∧ w.applied = {2} ∧
      Accounted sample [sampleRow] w ∧ w.db.stagedRows = [] ∧
      r.rowsTotal = min (r.rowsOk + r.rowsRejected) i32Max := by
  obtain ⟨es, data, hrun⟩ := run_staged
  have htake : Step sample (sampleStaged data) (.take 0)
      { sampleStaged data with runs := [.chunk [⟨2, data⟩]] } :=
    .take rfl (unlocked_of_idle rfl not_false)
  have hcommit := @Step.commit sample { sampleStaged data with runs := [.chunk [⟨2, data⟩]] } 0
    [⟨2, data⟩] 0 id _ _ _ rfl rfl rfl
  have htwo := (hrun.snoc ⟨htake, nofun⟩).snoc ⟨hcommit, nofun⟩
  have hthree := htwo.snoc ⟨@Step.take sample _ 0 rfl
    (unlocked_of_idle (p := .looping) rfl not_false), nofun⟩
  have hall := hthree.snoc ⟨@Step.complete sample _ 0 _ rfl
    (unlocked_of_idle (p := .finishing) rfl not_false) rfl rfl, nofun⟩
  have haccount := imports_account sample [sampleRow] sampleOwned (hall.mono fun h => h.1)
  obtain ⟨hnil, htotal⟩ := haccount.2 hall _ rfl rfl
  have happlied : (0 : Multiset ℕ) + ((([2] : List ℕ) : Multiset ℕ) -
      (([] : List ℕ) : Multiset ℕ)) = {2} := by
    decide
  exact ⟨_, _, _, hall, rfl, rfl, rfl, happlied, haccount.1, hnil, htotal⟩

/-- **What an import does not promise.**  Rows that are read are counted when their chunk is
written; and when an abandonment is undone after a run has skipped the rows it had locked, the run
completes the import and leaves them staged. -/
theorem imports_leave_rows :
    (∃ es w u r, Run (Step sample) (World.create sample [sampleRow] sampleOwned) es w ∧
      w.upload = some u ∧ u.rows = 1 ∧ w.db.row = some r ∧ r.status = .processing ∧
      r.rowsOk + r.rowsRejected + w.db.stagedRows.length = 0) ∧
    ∃ es w r, Run (Step sample) (World.create sample [sampleRow] sampleOwned) es w ∧
      w.db.row = some r ∧ r.status = .completed ∧ w.db.stagedRows.length = 1 ∧
      r.rowsTotal = 1 ∧ r.rowsOk = 0 ∧ r.rowsRejected = 0 := by
  constructor
  · obtain ⟨⟨data, seen⟩, hparse⟩ := exists_parsed
    have hread := Step.read (x := sample) (w := World.create sample [sampleRow] sampleOwned) rfl rfl
      (by decide) (by decide)
    refine ⟨_, _, _, _, .single hread, rfl, ?_, rfl, rfl, rfl⟩
    unfold Upload.next
    rw [show sample.keys.parseRow sample.columns sampleRow [] = _ from hparse]
    rfl
  · obtain ⟨es, data, hrun⟩ := run_staged
    have hrun := hrun.mono fun h => h.1
    have hhold : Step sample (sampleStaged data) (.hold [2]) _ :=
      .hold ⟨_, rfl, rfl⟩ nofun fun i rows hi => by
        cases i with
        | zero => cases hi
        | succ i => simp [sampleStaged] at hi
    have htake : Step sample { sampleStaged data with abandoning := some [2] } (.take 0)
        { sampleStaged data with abandoning := some [2], runs := [.finishing] } :=
      .take rfl (unlocked_of_idle rfl not_false)
    have hrelease : Step sample
        { sampleStaged data with abandoning := some [2], runs := [.finishing] } .release
        { sampleStaged data with runs := [.finishing] } := .release rfl
    have hend : Step sample { sampleStaged data with runs := [.finishing] } (.complete 0) _ :=
      .complete rfl (unlocked_of_idle rfl not_false) rfl rfl
    exact ⟨_, _, _, ((hrun.snoc hhold).snoc htake).snoc hrelease |>.snoc hend, rfl, rfl, rfl, rfl,
      rfl, rfl⟩

end Samples

end Postit.Contacts.Imports
