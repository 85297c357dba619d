import Postit.Data.Effects
import Postit.Data.Operations
import Postit.Framework.Transactions

/-!
# Operations side by side

The operations as transactions that run next to each other, each statement one atomic step
(`Postit.Framework.Transactions`).  A caller that names a delivery in a fence has read it before, so
an operation starts only when its fence's delivery is there.
-/

namespace Postit.Data

open Postit.Framework

/-- The database and its statements. -/
def statements : Store Sql DataError Db RowRef Write where
  exec := fun free db s => s.exec free db
  put := Db.store
  ref := Write.ref

/-- A transaction's writes and locks. -/
abbrev Mine := Local RowRef Write

/-- The database as the transaction sees it. -/
abbrev Mine.view (l : Mine) (db : Db) : Db := statements.view l db

/-- The transaction holds the row alone. -/
abbrev Mine.Holds (l : Mine) (r : RowRef) : Prop := (r, LockMode.update) ∈ l.held

/-- What else changes the database: the rest of the system, and users that write posts. -/
inductive Elsewhere (db : Db) : Db → Prop
  | outside (o : Outside) : Elsewhere db (db.withOutside o)
  | wrotePost (id : PostId) (owner : UserId) (absent : db.posts.lookup id = none) :
      Elsewhere db
        { db with posts := db.posts.insert id { ownerId := owner, version := 1, status := .draft } }

/-- The delivery a caller names in the fence of a write of its own. -/
def Op.named {β : Type} : Op β → Option DeliveryId
  | .apply fence .. => some fence.id
  | _ => none

/-- The program is an operation a caller may start on the database. -/
def Starts (db : Db) {α : Type} (p : Tx α) : Prop :=
  ∃ op : Op α, p = op.tx ∧ ∀ id, op.named = some id → (db.deliveries.lookup id).isSome = true

/-- One step of operations that run side by side. -/
abbrev SideBySide := WorldStep statements (fun db {_} p => Starts db p) Elsewhere

/-- An operation that succeeds alone is a run of the side-by-side system. -/
lemma SideBySide.alone {β : Type} {op : Op β} {db db' : Db} {b : β}
    (hnamed : ∀ id, op.named = some id → (db.deliveries.lookup id).isSome = true)
    (h : op.tx.run db = .ok (b, db')) : ∃ ms, Run SideBySide ⟨db, fun _ => none⟩ ms
      ⟨db', fun _ => none⟩ := by
  let w : World Sql DataError Db RowRef Write :=
    ⟨db, Function.update (fun _ => none) 0 (some ⟨op.tx, {}⟩)⟩
  have hstart : SideBySide ⟨db, fun _ => none⟩ (.started 0) w := .started rfl ⟨op, rfl, hnamed⟩
  have hthere : w.sessions 0 = some ⟨op.tx, {}⟩ := by simp [w]
  have hothers (j : ℕ) (hj : j ≠ 0) : w.sessions j = none := by simp [w, hj]
  have halone : Prog.run statements.alone op.tx (statements.view {} w.committed) = .ok (b, db') :=
    h
  have hrest : ∃ ms, Run SideBySide w ms ⟨db', Function.update w.sessions 0 none⟩ :=
    statements.runs_alone op.tx hothers hthere halone
  obtain ⟨ms, hrun⟩ := hrest
  rw [Function.update_idem, Function.update_eq_self_iff.mpr rfl] at hrun
  exact ⟨_, (Run.single hstart).append hrun⟩

/-- Performing one operation, whether it succeeds or not, is a run of the side-by-side system. -/
lemma SideBySide.perform {β : Type} (db : Db) (op : Op β)
    (hnamed : ∀ id, op.named = some id → (db.deliveries.lookup id).isSome = true) :
    ∃ ms, Run SideBySide ⟨db, fun _ => none⟩ ms ⟨db.perform op, fun _ => none⟩ := by
  unfold Db.perform
  split
  · rename_i r hrun
    exact SideBySide.alone hnamed hrun
  · exact ⟨_, .nil⟩

namespace Mine

variable (l : Mine) (db : Db)

lemma view_eq : l.view db = db.storeAll l.writes := rfl

/-- A transaction loses no delivery. -/
lemma exists_delivery {id : DeliveryId} {d : Delivery} (hd : db.deliveries.lookup id = some d) :
    ∃ d', (l.view db).deliveries.lookup id = some d' := by
  rcases db.storeAll_delivery l.writes id with ⟨row, -, hlook⟩ | ⟨-, hlook⟩
  · exact ⟨row, hlook⟩
  · exact ⟨d, hlook.trans hd⟩

/-- A transaction loses no job. -/
lemma exists_job {job : PublishJobId} {j : PublishJob} (hj : db.jobs.lookup job = some j) :
    ∃ j', (l.view db).jobs.lookup job = some j' := by
  rcases db.storeAll_job l.writes job with ⟨row, -, hlook⟩ | ⟨-, hlook⟩
  · exact ⟨row, hlook⟩
  · exact ⟨j, hlook.trans hj⟩

/-- A row the transaction did not write is the committed one. -/
lemma view_delivery_of_not_written {id : DeliveryId} (h : ∀ row, .delivery id row ∉ l.writes) :
    (l.view db).deliveries.lookup id = db.deliveries.lookup id := by
  rcases db.storeAll_delivery l.writes id with ⟨row, hmem, -⟩ | ⟨-, hlook⟩
  · exact absurd hmem (h row)
  · exact hlook

lemma view_job_of_not_written {job : PublishJobId} (h : ∀ row, .job job row ∉ l.writes) :
    (l.view db).jobs.lookup job = db.jobs.lookup job := by
  rcases db.storeAll_job l.writes job with ⟨row, hmem, -⟩ | ⟨-, hlook⟩
  · exact absurd hmem (h row)
  · exact hlook

variable {db} {db' : Db}

/-- The transaction sees the same row over databases that agree on it. -/
lemma view_delivery_congr {id : DeliveryId}
    (h : db'.deliveries.lookup id = db.deliveries.lookup id) :
    (l.view db').deliveries.lookup id = (l.view db).deliveries.lookup id :=
  Db.lookup_storeAll_congr (·.deliveries) Write.delivery? Db.store_deliveries id l.writes db db' h

lemma view_job_congr {job : PublishJobId} (h : db'.jobs.lookup job = db.jobs.lookup job) :
    (l.view db').jobs.lookup job = (l.view db).jobs.lookup job :=
  Db.lookup_storeAll_congr (·.jobs) Write.job? Db.store_jobs job l.writes db db' h

end Mine

lemma mem_held_after {l : Mine} {β : Type} {e : Effect β} {r : RowRef × LockMode}
    (h : r ∈ l.held) : r ∈ (statements.after l e).held :=
  List.mem_append_left _ h

lemma holds_of_write {l : Mine} {β : Type} {e : Effect β} {w : Write} (h : w ∈ e.writes) :
    Mine.Holds (statements.after l e) w.ref :=
  List.mem_append_right _ (List.mem_append_right _ (List.mem_map_of_mem h))

lemma view_after (l : Mine) {β : Type} (e : Effect β) (db : Db) :
    Mine.view (statements.after l e) db = (l.view db).storeAll e.writes :=
  statements.view_after l e db

end Postit.Data
