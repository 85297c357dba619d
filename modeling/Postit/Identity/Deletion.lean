import Postit.Data.Audit

/-!
# Deleting a user

The `delete_user` job in its transactions, among those of all services and jobs that create users,
change their statuses and record audit events.  The row locks serialize the transactions, so each is
one step.  A job may be delivered several times and crash after any of its steps.

The steps other crates add run between the job's own transactions and are among the others' here.
-/

namespace Postit.Audit

open Postit.Framework
open Postit.Identity (UserStatus)

variable {uuids : Uuids}

/-! ## Transactions -/

/-- What a transaction does to users and audit events. -/
inductive Op (uuids : Uuids)
  | insertUser (id : Uuid) (status : UserStatus)
  | setStatus (id : Uuid) (status : UserStatus)
  | record (now : Time) (id : ℕ) (event : AuditEvent uuids)

/-- An operation on the tables.  IDs of users are generated: of version 7, and each new.  A status is
set after a look at the row, and `deleting` stays. -/
def Db.op (db : Db) : Op uuids → Except DataError Db
  | .insertUser id status =>
    if id.version = 7 ∧ id ∉ db.issued then
      .ok { db with users := db.users.insert id status, issued := id :: db.issued }
    else .error (.conflict "user ID")
  | .setStatus id status =>
    match db.users.lookup id with
    | none => .error .notFound
    | some .deleting => .error .userDeleting
    | some _ => .ok { db with users := db.users.insert id status }
  | .record now id event => AuditLog.record db now id event

/-- A transaction: all of its operations, or none. -/
def Db.transact (db : Db) (ops : List (Op uuids)) : Except DataError Db := ops.foldlM Db.op db

/-- Sets the user to `deleting` and records `user_deleted`. -/
def startDeletion (target : Uuid) (actor : Option Uuid) (ctx : AuditContext) (now : Time)
    (id : ℕ) : List (Op uuids) :=
  let event := ((AuditEvent.new .userDeleted).context ctx).subject target
  let event := actor.elim event event.actor
  [.setStatus target .deleting, .record now id event]

/-! ## The job -/

section Job

variable (uuids) (key : Bytes)

/-- Replaces the references to the user. -/
def Db.pseudonymize (db : Db) (user : Uuid) : Db :=
  { db with events := (AuditLog.pseudonymizeUser uuids db.events user key).1 }

/-- The last transaction: replaces what was recorded since, and deletes the row. -/
def Db.scrubAndDelete (db : Db) (user : Uuid) : Db :=
  match db.users.lookup user with
  | none => db
  | some _ => { db.pseudonymize uuids key user with users := db.users.erase user }

/-- How far a delivery of the job is. -/
inductive Phase
  | loaded
  | pseudonymized
  deriving DecidableEq, Repr

/-- The tables and the deliveries of the job at work. -/
structure World where
  db : Db := {}
  deliveries : List (Uuid × Phase) := []

/-- What happens. -/
inductive Event
  | transact (ops : List (Op uuids))
  | load (user : Uuid)
  | pseudonymize (delivery : ℕ)
  | delete (delivery : ℕ)
  | crash (delivery : ℕ)

/-- One step: a transaction of any service, a step of a delivery, or its crash.  A delivery for a
user who is gone, or not `deleting`, ends without a change. -/
inductive Step : World → Event uuids → World → Prop
  | transact {w ops db} (h : w.db.transact ops = .ok db) : Step w (.transact ops) { w with db := db }
  | load {w user} (h : w.db.users.lookup user = some .deleting) :
    Step w (.load user) { w with deliveries := w.deliveries ++ [(user, .loaded)] }
  | pseudonymize {w i user} (h : w.deliveries[i]? = some (user, .loaded)) :
    Step w (.pseudonymize i)
      { db := w.db.pseudonymize uuids key user
        deliveries := w.deliveries.set i (user, .pseudonymized) }
  | delete {w i user} (h : w.deliveries[i]? = some (user, .pseudonymized)) :
    Step w (.delete i)
      { db := w.db.scrubAndDelete uuids key user, deliveries := w.deliveries.eraseIdx i }
  | crash {w i} : Step w (.crash i) { w with deliveries := w.deliveries.eraseIdx i }

end Job

end Postit.Audit
