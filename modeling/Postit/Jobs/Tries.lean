import Postit.Jobs.Console

/-!
# Recorded tries

Workers run jobs and record every try in the ledger.  Any job may be fetched any number of times,
and between two transactions of a try the other tries, the console, the relay and the purges may
act.  A transaction may fail, be committed with its answer lost, or never be reached because its
worker is lost.

The relay is here only what it does to the outbox: the job's row goes.
-/

namespace Postit.Jobs

open Postit.Framework

/-- How the handler's run ended, for the storage. -/
inductive Outcome
  | done
  | retryAfter (delay : ℕ)
  | requeue (delay : ℕ)
  | abort (message : String)
  deriving DecidableEq, Repr

/-- Why a try did not succeed. -/
structure Failure where
  kind : ErrorKind
  message : String
  deriving DecidableEq, Repr

structure Dispatched where
  outcome : Outcome
  failure : Option Failure
  deriving DecidableEq, Repr

/-- A delay in microseconds, `0` where it does not fit into milliseconds of 64 bits. -/
def fromStd (delay : ℕ) : Time := if delay / 1000 < 2 ^ 63 then (delay : ℤ) else 0

/-- What a try writes at its end. -/
inductive Closing
  | finish (finish : Finish)
  | requeue (runAt : Time)
  deriving DecidableEq, Repr

/-- What workers are configured with. -/
structure Worker where
  catalog : Catalog
  redactSecrets : String → String

/-- Every job type is registered and offers every action, and nothing is secret. -/
def Worker.plain : Worker := ⟨fun _ => some {}, id⟩

/-- The failure as the attempt records it. -/
def attemptError (w : Worker) (jobType : String) (f : Failure) : AttemptError where
  kind := f.kind
  code := f.kind.defaultCode
  message :=
    if (w.catalog jobType).any (·.showErrorMessage) then some (w.redactSecrets f.message) else none

/-- What the try writes for the handler's result. -/
def closing (w : Worker) (clock : Time) (jobType : String) (d : Dispatched) : Closing :=
  let error := d.failure.map (attemptError w jobType)
  match d.outcome, d.failure.map (·.kind) with
  | .done, _ => .finish ⟨.succeeded, .succeeded, none, error⟩
  | .requeue delay, _ => .requeue (clock + fromStd delay)
  | .retryAfter delay, _ => .finish ⟨.retrying, .failed, some (clock + fromStd delay), error⟩
  | .abort _, some .retriesExhausted => .finish ⟨.failed, .dead, none, error⟩
  | .abort _, _ => .finish ⟨.killed, .killed, none, error⟩

/-- How often the write that closes an attempt is tried again. -/
def finishRetries : ℕ := 2

/-- A requeue is written once, and a finish up to three times. -/
def Closing.retries : Closing → ℕ
  | .finish _ => finishRetries
  | .requeue _ => 0

/-- The transaction that ends the try. -/
def Closing.commit (c : Closing) (s : Ledger) (now : Time) (id : JobId) (attempt : ℕ) :
    Ledger × Bool :=
  match c with
  | .finish f => s.finishAttempt now id attempt f
  | .requeue runAt => s.requeueAttempt id attempt runAt

/-- Where a try is in `run_recorded`.  One whose start could not be recorded has `ended` for the
ledger. -/
inductive Try
  | fetched (id : JobId) (jobType : String)
  | running (id : JobId) (jobType : String) (attempt : ℕ)
  | closing (id : JobId) (attempt : ℕ) (write : Closing) (retries : ℕ)
  | ended
  deriving DecidableEq, Repr

/-- The closing write failed. -/
def Try.again (id : JobId) (attempt : ℕ) (write : Closing) : ℕ → Try
  | 0 => .ended
  | retries + 1 => .closing id attempt write retries

/-- What follows the answer of `begin_attempt`. -/
def Try.begun (id : JobId) (jobType : String) : Begin → Try
  | .run attempt => .running id jobType attempt
  | .cancelled | .missing | .finished => .ended

/-- The ledger and the tries of all workers. -/
structure System where
  ledger : Ledger := {}
  tries : List Try := []

inductive Event
  | enqueue (now : Time) (jobType : String) (runAt : Time)
  | relay (id : JobId)
  | fetch (id : JobId) (jobType : String)
  | start (i : ℕ) (now : Time) (worker : String) (maxAttempts : Option ℕ) (answered : Bool)
  | dispatch (i : ℕ) (clock : Time) (dispatched : Dispatched)
  | close (i : ℕ) (now : Time) (answered : Bool)
  | fail (i : ℕ)
  | lose (i : ℕ)
  | retry (now clock : Time) (id : JobId)
  | cancel (now : Time) (id : JobId)
  | delete (id : JobId)
  | killStrandedRunning (now startedBefore : Time)
  | killOrphaned (now : Time) (ids : List JobId) (dueBefore : Time)
  | killUnregistered (now : Time) (registered : List String) (dueBefore : Time)
  | purgeFinished (succeededBefore failedBefore : Time)
  deriving DecidableEq, Repr

namespace System

/-- The try goes on. -/
def goOn (s : System) (i : ℕ) (t : Try) : System := { s with tries := s.tries.set i t }

def perform (w : Worker) (s : System) : Event → Option System
  | .enqueue now jobType runAt =>
    some { s with ledger := (s.ledger.enqueue now jobType runAt none).1 }
  | .relay id => some { s with ledger := s.ledger.outboxDelete id }
  | .fetch id jobType => some { s with tries := s.tries ++ [.fetched id jobType] }
  | .start i now worker maxAttempts answered =>
    match s.tries[i]? with
    | some (.fetched id jobType) =>
      -- The worker's own count is not passed on: attempts are numbered by the ledger.
      let (ledger, begin) := s.ledger.beginAttempt now id 0 worker maxAttempts
      some ({ s with ledger }.goOn i (if answered then .begun id jobType begin else .ended))
    | _ => none
  | .dispatch i clock dispatched =>
    match s.tries[i]? with
    | some (.running id jobType attempt) =>
      let write := closing w clock jobType dispatched
      some (s.goOn i (.closing id attempt write write.retries))
    | _ => none
  | .close i now answered =>
    match s.tries[i]? with
    | some (.closing id attempt write retries) =>
      let ledger := (write.commit s.ledger now id attempt).1
      some ({ s with ledger }.goOn i (if answered then .ended else .again id attempt write retries))
    | _ => none
  | .fail i =>
    match s.tries[i]? with
    | some (.closing id attempt write retries) => some (s.goOn i (.again id attempt write retries))
    | _ => none
  | .lose i => some (s.goOn i .ended)
  | .retry now clock id =>
    (Console.retry w.catalog s.ledger now clock id).toOption.map fun r =>
      { s with ledger := r.1 }
  | .cancel now id =>
    (Console.cancel w.catalog s.ledger now id).toOption.map fun ledger => { s with ledger }
  | .delete id =>
    (Console.delete w.catalog s.ledger id).toOption.map fun ledger => { s with ledger }
  | .killStrandedRunning now startedBefore =>
    some { s with ledger := (s.ledger.killStrandedRunning now startedBefore).1 }
  | .killOrphaned now ids dueBefore =>
    some { s with ledger := (s.ledger.killOrphaned now ids dueBefore).1 }
  | .killUnregistered now registered dueBefore =>
    some { s with ledger := (s.ledger.killUnregistered now registered dueBefore).1 }
  | .purgeFinished succeededBefore failedBefore =>
    some { s with ledger := (s.ledger.purgeFinished succeededBefore failedBefore).1 }

def Step (w : Worker) (s : System) (e : Event) (t : System) : Prop := s.perform w e = some t

end System

end Postit.Jobs
