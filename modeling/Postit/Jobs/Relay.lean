import Postit.Jobs.Tries

/-!
# The outbox relay

Relays move the rows of the outbox into the job storage, any number of them at once, while jobs are
enqueued, run, cancelled and killed.  A relay claims a batch of rows in a transaction, pushes each
to the storage, deletes it and records its limit of attempts; what it wrote is seen by nobody else
until it commits, and gone if it stops before.  Claimed rows are locked: a claim passes over them,
and a transaction that would delete one waits.  So does a console cancel lock the row it deletes,
until it commits or is rolled back.

Of the storage only the IDs it has tasks under are kept.
-/

namespace Postit.Jobs

open Postit.Framework

/-- The registered job types of a worker, with their limits of attempts. -/
abbrev Registry := List (String × Option ℕ)

/-- What one transaction of a relay has claimed and written. -/
structure Tx where
  claimed : List JobId
  stored : List JobId := []
  deleted : List JobId := []
  limits : List (JobId × Option ℕ) := []
  movedInBatch : ℕ := 0
  deriving DecidableEq, Repr

/-- Where a drain is.  Rows are the ones of the batch still to be gone through. -/
inductive Phase
  | claim
  | push (rows : List (JobId × OutboxRow)) (tx : Tx)
  | delete (id : JobId) (maxAttempts : Option ℕ) (rows : List (JobId × OutboxRow)) (tx : Tx)
  | record (id : JobId) (maxAttempts : Option ℕ) (rows : List (JobId × OutboxRow)) (tx : Tx)
  | done
  | lost
  deriving DecidableEq, Repr

/-- A call of `drain_in_batches`.  `tried` are the rows it pushed so far. -/
structure Relay where
  registry : Registry
  batch : ℕ
  rejected : List JobId := []
  moved : ℕ := 0
  phase : Phase := .claim
  tried : List JobId := []
  deriving DecidableEq, Repr

namespace Relay

def jobTypes (r : Relay) : List String := r.registry.map Prod.fst

/-- The rows the relay's transaction has locked. -/
def held (r : Relay) : List JobId :=
  match r.phase with
  | .push _ tx | .delete _ _ _ tx | .record _ _ _ tx => tx.claimed
  | .claim | .done | .lost => []

end Relay

/-- The limit as the column keeps it. -/
def limit (maxAttempts : Option ℕ) : Option ℕ := maxAttempts.filter (· < 2 ^ 31)

/-- The job system with its relays and the job storage.  `locked` are the outbox rows that console
cancels under way have deleted, `revoked` the jobs ever seen cancelled or killed. -/
structure World where
  system : System := {}
  stored : List JobId := []
  locked : List JobId := []
  relays : List Relay := []
  revoked : List JobId := []

/-- What a relay does next.  The storage may refuse a push, and the limit may not be written. -/
inductive RelayAction
  | claim
  | push (refused : Bool)
  | delete
  | record (written : Bool)
  | commit
  | stop
  deriving DecidableEq, Repr

inductive WorldEvent
  | jobs (e : Event)
  | lock (now : Time) (id : JobId)
  | settle (id : JobId) (committed : Option Time)
  | drain (registry : Registry) (batch : ℕ)
  | relay (i : ℕ) (a : RelayAction)
  deriving DecidableEq, Repr

/-- Cancelled or killed. -/
def JobState.isRevoked : JobState → Bool
  | .cancelled | .killed => true
  | .queued | .running | .succeeded | .failed | .dead => false

namespace World

def outbox (s : World) : Table JobId OutboxRow := s.system.ledger.outbox

/-- The rows locked by relays. -/
def held (s : World) : List JobId := s.relays.flatMap Relay.held

/-- The jobs that are cancelled or killed now are noted. -/
def observe (s : World) : World :=
  { s with
    revoked := s.revoked ++
      (s.system.ledger.jobs.select fun _ j => j.state.isRevoked).map Prod.fst }

/-- The relay does its part itself, and only stored jobs are fetched. -/
def allows (s : World) : Event → Bool
  | .relay _ => false
  | .fetch id _ => id ∈ s.stored
  | _ => true

/-- A step of the job system.  It waits for the outbox rows it would change and others have
locked. -/
def jobs (w : Worker) (s : World) (e : Event) : Option World :=
  if s.allows e then
    (s.system.perform w e).bind fun t =>
      if ∀ id ∈ s.held ++ s.locked, t.ledger.outbox.lookup id = s.outbox.lookup id then
        some { s with system := t }.observe
      else none
  else none

def goOn (s : World) (i : ℕ) (r : Relay) : World := { s with relays := s.relays.set i r }

/-- The rows `claim_batch` locks. -/
def claimBatch (s : World) (r : Relay) : List (JobId × OutboxRow) :=
  s.outbox.selectFirst
    (fun id o => o.jobType ∈ r.jobTypes ∧ id ∉ r.rejected ∧ id ∉ s.held ∧ id ∉ s.locked)
    (fun a b => a.2.createdAt ≤ b.2.createdAt) r.batch

/-- What the transaction wrote is there for all. -/
def commit (s : World) (tx : Tx) : World :=
  let ledger := tx.limits.foldl (fun l r => l.setMaxAttempts r.1 r.2) s.system.ledger
  let ledger := { ledger with outbox := ledger.outbox.deleteWhere fun id _ => id ∈ tx.deleted }
  { s with
    system := { s.system with ledger }
    stored := s.stored ++ tx.stored }

/-- One statement of a drain. -/
def drain (s : World) (i : ℕ) (r : Relay) : RelayAction → Option World
  | .claim =>
    match r.phase with
    | .claim =>
      match s.claimBatch r with
      | [] => some (s.goOn i { r with phase := .done })
      | rows => some (s.goOn i { r with phase := .push rows { claimed := rows.map Prod.fst } })
    | _ => none
  | .push refused =>
    match r.phase with
    | .push ((id, row) :: rows) tx =>
      match r.registry.lookup row.jobType with
      | none => some (s.goOn i { r with phase := .push rows tx })
      | some maxAttempts =>
        let r := { r with tried := r.tried ++ [id] }
        if id ∈ s.stored ∨ id ∈ tx.stored then
          some (s.goOn i { r with phase := .delete id maxAttempts rows tx })
        else if refused then
          some (s.goOn i { r with rejected := r.rejected ++ [id], phase := .push rows tx })
        else
          let tx := { tx with stored := tx.stored ++ [id] }
          some (s.goOn i { r with phase := .delete id maxAttempts rows tx })
    | _ => none
  | .delete =>
    match r.phase with
    | .delete id maxAttempts rows tx =>
      let tx := { tx with deleted := tx.deleted ++ [id] }
      some (s.goOn i { r with phase := .record id maxAttempts rows tx })
    | _ => none
  | .record written =>
    match r.phase with
    | .record id maxAttempts rows tx =>
      let limits := if written then tx.limits ++ [(id, limit maxAttempts)] else tx.limits
      let tx := { tx with limits, movedInBatch := tx.movedInBatch + 1 }
      some (s.goOn i { r with phase := .push rows tx })
    | _ => none
  | .commit =>
    match r.phase with
    | .push [] tx =>
      some ((s.commit tx).goOn i { r with moved := r.moved + tx.movedInBatch, phase := .claim })
    | _ => none
  | .stop =>
    match r.phase with
    | .done | .lost => none
    | _ => some (s.goOn i { r with phase := .lost })

def perform (w : Worker) (s : World) : WorldEvent → Option World
  | .jobs e => s.jobs w e
  | .lock now id =>
    if (Console.cancel w.catalog s.system.ledger now id).toOption.isSome ∧
        id ∉ s.held ++ s.locked then
      some { s with locked := id :: s.locked }
    else none
  | .settle id committed =>
    if id ∈ s.locked then
      let s := { s with locked := s.locked.erase id }
      match committed with
      | none => some s
      | some now => s.jobs w (.cancel now id)
    else none
  | .drain registry batch => some { s with relays := s.relays ++ [{ registry, batch }] }
  | .relay i a => s.relays[i]?.bind fun r => s.drain i r a

def Step (w : Worker) (s : World) (e : WorldEvent) (t : World) : Prop := s.perform w e = some t

end World

end Postit.Jobs
