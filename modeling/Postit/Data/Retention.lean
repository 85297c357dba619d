import Postit.Data.Operations

/-!
# Retention of recipient rows

The retention job deletes recipient rows that are no longer `queued` some time after they were
created, while campaigns run, end and are sent through again.  A run of both is a `Run AgedStep`.
-/

namespace Postit.Data

open Postit.Framework

/-- The database, and when its recipient rows were created. -/
structure Aged where
  db : Db
  createdAt : DirectSendId → Time := fun _ => 0

/-- What a run does: an operation, or one round of the purge, which deletes at most the rows
`picked`. -/
inductive AgedEvent
  | op (now : Time) (e : Event)
  | purge (cutoff : Time) (picked : List DirectSendId)

namespace Aged

/-- Whether the purge deletes the row. -/
def isPurged (s : Aged) (cutoff : Time) (picked : List DirectSendId) (id : DirectSendId)
    (row : DirectSend) : Bool :=
  row.state ≠ .queued ∧ s.createdAt id < cutoff ∧ id ∈ picked

/-- One statement of `purge_direct_sends`. -/
def purgeDirectSends (s : Aged) (cutoff : Time) (picked : List DirectSendId) : Aged :=
  { s with db := { s.db with sends := s.db.sends.deleteWhere (s.isPurged cutoff picked) } }

/-- The database an operation leaves, its new rows created `now`. -/
def after (s : Aged) (now : Time) (db : Db) : Aged where
  db
  createdAt := fun id => if (s.db.sends.lookup id).isSome then s.createdAt id else now

end Aged

/-- One step of a run. -/
inductive AgedStep (s : Aged) : AgedEvent → Aged → Prop
  | op {now : Time} {e : Event} {db : Db} (h : OpStep s.db e db) :
      AgedStep s (.op now e) (s.after now db)
  | purge {cutoff : Time} {picked : List DirectSendId} :
      AgedStep s (.purge cutoff picked) (s.purgeDirectSends cutoff picked)

end Postit.Data
