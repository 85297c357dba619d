import Postit.Core.Delivery
import Postit.Framework.Table

/-!
# The job ledger

The tables `jobs` and `job_attempts` with the outbox, and the transactions that write them.  Each
is a function from one committed ledger to the next; one that is rolled back gives back the ledger
it was called with.  `now` is the database's clock at the start of the transaction.

A job's queue, payload and recurring run are only carried along, and left out.
-/

namespace Postit.Jobs

open Postit.Framework

abbrev JobId := ℕ

/-- Lifecycle state of a ledger job. -/
inductive JobState
  | queued
  | running
  | succeeded
  | failed
  | dead
  | killed
  | cancelled
  deriving DecidableEq, Repr

def JobState.asStr : JobState → String
  | .queued => "queued"
  | .running => "running"
  | .succeeded => "succeeded"
  | .failed => "failed"
  | .dead => "dead"
  | .killed => "killed"
  | .cancelled => "cancelled"

/-- A state a job never leaves on its own. -/
def JobState.isFinished : JobState → Bool
  | .succeeded | .dead | .killed | .cancelled => true
  | .queued | .running | .failed => false

/-- Whether a job waits for a try. -/
def JobState.isWaiting : JobState → Bool
  | .queued | .failed => true
  | .running | .succeeded | .dead | .killed | .cancelled => false

/-- How one try of a job ended. -/
inductive AttemptOutcome
  | succeeded
  | retrying
  | failed
  | killed
  | interrupted
  | cancelled
  deriving DecidableEq, Repr

/-- Why a try failed. -/
inductive ErrorKind
  | retry
  | retriesExhausted
  | fatal
  | unknownType
  | panic
  | interrupted
  deriving DecidableEq, Repr

/-- The error code recorded when the failure has no handler-supplied one. -/
def ErrorKind.defaultCode : ErrorKind → Option String
  | .retriesExhausted => some "max_attempts"
  | .unknownType => some "not_registered"
  | .panic => some "handler_panic"
  | .interrupted => some "worker_lost"
  | .retry | .fatal => none

/-- Error code of the attempt that closes a job the storage no longer holds. -/
def ledgerOrphanCode : String := "ledger_orphan"

/-- Error code of the attempt that closes a job whose type no worker registers. -/
def ledgerUnregisteredCode : String := "type_unregistered"

/-- Worker name of both attempts. -/
def ledgerSweepWorker : String := "ledger_sweep"

/-- A row of `jobs`. -/
structure Job where
  jobType : String
  state : JobState := .queued
  runAt : Time
  attempts : ℕ := 0
  maxAttempts : Option ℕ := none
  retriedFrom : Option JobId := none
  startedAt : Option Time := none
  finishedAt : Option Time := none
  deriving DecidableEq, Repr

/-- A row of `job_attempts`. -/
structure Attempt where
  startedAt : Time
  finishedAt : Option Time := none
  worker : String
  outcome : Option AttemptOutcome := none
  errorKind : Option ErrorKind := none
  errorCode : Option String := none
  errorMessage : Option String := none
  deriving DecidableEq, Repr

/-- A row of `job_outbox`. -/
structure OutboxRow where
  jobType : String
  runAt : Time
  createdAt : Time
  deriving DecidableEq, Repr

/-- The three tables, and the IDs given out. -/
structure Ledger where
  jobs : Table JobId Job := ∅
  attempts : Table (JobId × ℕ) Attempt := ∅
  outbox : Table JobId OutboxRow := ∅
  nextId : JobId := 0

/-- What a worker should do after looking up a job's ledger row. -/
inductive Begin
  | run (attempt : ℕ)
  | cancelled
  | missing
  | finished
  deriving DecidableEq, Repr

/-- The failure recorded on a closed attempt. -/
structure AttemptError where
  kind : ErrorKind
  code : Option String
  message : Option String
  deriving DecidableEq, Repr

/-- How an attempt ended and where the job goes next. -/
structure Finish where
  outcome : AttemptOutcome
  state : JobState
  nextRunAt : Option Time
  error : Option AttemptError
  deriving DecidableEq, Repr

/-- How a try that lost its worker is closed. -/
def Attempt.interrupt (now : Time) (a : Attempt) : Attempt :=
  { a with
    finishedAt := some now
    outcome := some .interrupted
    errorKind := some .interrupted
    errorCode := some "worker_lost" }

/-- Whether the attempt is open since before `startedBefore`. -/
def Attempt.isOld (startedBefore : Time) (a : Attempt) : Bool :=
  a.finishedAt = none ∧ a.startedAt < startedBefore

/-- How the attempt row ends. -/
def Attempt.close (now : Time) (finish : Finish) (a : Attempt) : Attempt :=
  { a with
    finishedAt := some now
    outcome := some finish.outcome
    errorKind := finish.error.map (·.kind)
    errorCode := finish.error.bind (·.code)
    errorMessage := finish.error.bind (·.message) }

namespace Ledger

/-- The row, changed if it is there. -/
def updateJob (s : Ledger) (id : JobId) (f : Job → Job) : Ledger :=
  { s with jobs := s.jobs.updateWhere (fun k _ => k = id) f }

/-- The job's attempts, with their numbers. -/
def attemptsOf (s : Ledger) (id : JobId) : List (ℕ × Attempt) :=
  (s.attempts.select fun k _ => k.1 = id).map fun r => (r.1.2, r.2)

/-- The highest of the job's attempt numbers, `0` without attempts. -/
def lastAttempt (s : Ledger) (id : JobId) : ℕ :=
  ((s.attemptsOf id).map Prod.fst).foldr max 0

/-- The earliest start of the job's attempts. -/
def firstStart (s : Ledger) (id : JobId) : Option Time :=
  ((s.attemptsOf id).map fun r => r.2.startedAt).min?

/-- Inserts the job, and the outbox row the relay moves it by. -/
def enqueue (s : Ledger) (now : Time) (jobType : String) (runAt : Time)
    (retriedFrom : Option JobId) : Ledger × JobId :=
  ({ s with
      outbox := s.outbox.insert s.nextId { jobType, runAt, createdAt := now }
      jobs := s.jobs.insert s.nextId { jobType, runAt, retriedFrom }
      nextId := s.nextId + 1 },
    s.nextId)

/-- Records the type's attempt limit on a job that has none yet. -/
def setMaxAttempts (s : Ledger) (id : JobId) (maxAttempts : Option ℕ) : Ledger :=
  match maxAttempts with
  | none => s
  | some max =>
    { s with
      jobs := s.jobs.updateWhere (fun k j => k = id ∧ j.maxAttempts = none)
        ({ · with maxAttempts := some max }) }

/-! ## Tries -/

/-- Opens the attempt and closes the ones left open. -/
def openAttempt (s : Ledger) (now : Time) (id : JobId) (attempt : ℕ) (worker : String)
    (maxAttempts : Option ℕ) : Ledger :=
  let attempts := s.attempts.updateWhere
    (fun k a => k.1 = id ∧ a.finishedAt = none) (Attempt.interrupt now)
  let s := { s with attempts := attempts.insert (id, attempt) { startedAt := now, worker } }
  s.updateJob id fun j =>
    { j with
      state := .running
      attempts := max j.attempts attempt
      maxAttempts := maxAttempts.or j.maxAttempts
      startedAt := some now }

/-- Begins a try of a job that is not finished.  Its number is `attempt` or one past the last,
whichever is higher. -/
def beginAttempt (s : Ledger) (now : Time) (id : JobId) (attempt : ℕ) (worker : String)
    (maxAttempts : Option ℕ) : Ledger × Begin :=
  match s.jobs.lookup id with
  | none => (s, .missing)
  | some job =>
    match job.state with
    | .cancelled => (s, .cancelled)
    | .succeeded | .dead | .killed => (s, .finished)
    | .queued | .running | .failed =>
      let attempt := max attempt (s.lastAttempt id + 1)
      (s.openAttempt now id attempt worker maxAttempts, .run attempt)

/-- Whether the attempt is there and has no end. -/
def isOpen (s : Ledger) (id : JobId) (attempt : ℕ) : Bool :=
  (s.attempts.lookup (id, attempt)).any fun a => a.finishedAt = none

/-- Whether the job is there and running. -/
def isRunning (s : Ledger) (id : JobId) : Bool :=
  (s.jobs.lookup id).any fun j => j.state = .running

/-- Closes the attempt and moves the job on. -/
def closeAttempt (s : Ledger) (now : Time) (id : JobId) (attempt : ℕ) (finish : Finish) : Ledger :=
  let attempts := s.attempts.updateWhere
    (fun k a => k = (id, attempt) ∧ a.finishedAt = none) (Attempt.close now finish)
  { s with attempts }.updateJob id fun j =>
    { j with
      state := finish.state
      finishedAt := if finish.state.isFinished then some now else none
      runAt := finish.nextRunAt.getD j.runAt }

/-- Ends the attempt.  Changes nothing when it is no longer open or the job no longer running. -/
def finishAttempt (s : Ledger) (now : Time) (id : JobId) (attempt : ℕ) (finish : Finish) :
    Ledger × Bool :=
  if s.isOpen id attempt then
    if s.isRunning id then (s.closeAttempt now id attempt finish, true) else (s, false)
  else (s, false)

/-- Removes the attempt and lets the job wait again. -/
def removeAttempt (s : Ledger) (id : JobId) (attempt : ℕ) (runAt : Time) : Ledger :=
  let s := { s with attempts := s.attempts.erase (id, attempt) }
  s.updateJob id fun j =>
    { j with
      state := .queued
      runAt
      startedAt := s.firstStart id
      attempts := s.lastAttempt id }

/-- Undoes the open attempt of a job that did not really run. -/
def requeueAttempt (s : Ledger) (id : JobId) (attempt : ℕ) (runAt : Time) : Ledger × Bool :=
  if s.isOpen id attempt then
    if s.isRunning id then (s.removeAttempt id attempt runAt, true) else (s, false)
  else (s, false)

/-! ## Cancelling, killing and deleting -/

/-- `queued` or `failed` to `cancelled`. -/
def cancel (s : Ledger) (now : Time) (id : JobId) : Ledger × Bool :=
  if (s.jobs.lookup id).any (fun j => j.state.isWaiting) then
    (s.updateJob id ({ · with state := .cancelled, finishedAt := some now }), true)
  else (s, false)

/-- Removes the job from the outbox. -/
def outboxDelete (s : Ledger) (id : JobId) : Ledger := { s with outbox := s.outbox.erase id }

/-- Whether a job runs with an attempt that is open since before `startedBefore`. -/
def isStranded (s : Ledger) (startedBefore : Time) (id : JobId) (j : Job) : Bool :=
  j.state = .running ∧ s.attempts.exists? fun k a => k.1 = id ∧ a.isOld startedBefore

/-- Kills the stranded jobs, and closes the attempts they are stranded with. -/
def killStrandedRunning (s : Ledger) (now startedBefore : Time) : Ledger × ℕ :=
  let stranded := s.isStranded startedBefore
  ({ s with
      attempts := s.attempts.updateWhere
        (fun k a => (s.jobs.lookup k.1).any (stranded k.1) ∧ a.isOld startedBefore)
        (Attempt.interrupt now)
      jobs := s.jobs.updateWhere stranded ({ · with state := .killed, finishedAt := some now }) },
    (s.jobs.select stranded).length)

/-- `queued` and `failed` jobs due before `dueBefore` that have no outbox row. -/
def isStale (s : Ledger) (dueBefore : Time) (id : JobId) (j : Job) : Bool :=
  j.state.isWaiting ∧ j.runAt < dueBefore ∧ s.outbox.lookup id = none

def staleWaiting (s : Ledger) (dueBefore : Time) : List JobId :=
  ((s.jobs.select (s.isStale dueBefore)).map Prod.fst).insertionSort (· ≤ ·)

/-- The jobs that satisfy the condition are killed, each with a closing attempt that counts as a
try. -/
def sweep (s : Ledger) (now : Time) (p : JobId → Job → Bool) (code : String) : Ledger × ℕ :=
  let closing : Attempt :=
    { startedAt := now
      finishedAt := some now
      worker := ledgerSweepWorker
      outcome := some .interrupted
      errorKind := some .interrupted
      errorCode := some code }
  ({ s with
      jobs := s.jobs.updateWhere p fun j =>
        { j with state := .killed, finishedAt := some now, attempts := j.attempts + 1 }
      attempts := s.attempts.insertAll
        ((s.jobs.select p).map fun r => ((r.1, s.lastAttempt r.1 + 1), closing)) },
    (s.jobs.select p).length)

/-- Kills the jobs in `ids` that still wait, due before `dueBefore` and without an outbox row. -/
def killOrphaned (s : Ledger) (now : Time) (ids : List JobId) (dueBefore : Time) : Ledger × ℕ :=
  s.sweep now (fun id j => id ∈ ids ∧ s.isStale dueBefore id j) ledgerOrphanCode

/-- Whether a job is `queued`, due before `dueBefore`, and in the outbox with a type that is not in
`registered`. -/
def isUnregistered (s : Ledger) (registered : List String) (dueBefore : Time) (id : JobId)
    (j : Job) : Bool :=
  (s.outbox.lookup id).any (fun o => o.jobType ∉ registered) ∧ j.state = .queued ∧
    j.runAt < dueBefore

/-- Removes the outbox rows of the unregistered jobs, and kills these jobs. -/
def killUnregistered (s : Ledger) (now : Time) (registered : List String) (dueBefore : Time) :
    Ledger × ℕ :=
  let gone := s.isUnregistered registered dueBefore
  let (t, killed) := s.sweep now gone ledgerUnregisteredCode
  ({ t with outbox := s.outbox.deleteWhere fun id _ => (s.jobs.lookup id).any (gone id) }, killed)

/-- Deletes the jobs that satisfy the condition, their attempts with them, and unlinks the jobs
that retried them. -/
def deleteJobs (s : Ledger) (p : JobId → Job → Bool) : Ledger × ℕ :=
  let gone : JobId → Bool := fun id => (s.jobs.lookup id).any (p id)
  ({ s with
      jobs := (s.jobs.deleteWhere p).updateWhere
        (fun _ j => j.retriedFrom.any gone) ({ · with retriedFrom := none })
      attempts := s.attempts.deleteWhere fun k _ => gone k.1 },
    (s.jobs.select p).length)

/-- Deletes a finished job. -/
def deleteFinished (s : Ledger) (id : JobId) : Ledger × Bool :=
  let (s, n) := s.deleteJobs fun k j => k = id ∧ j.state.isFinished
  (s, n = 1)

/-- Deletes succeeded jobs finished before `succeededBefore`, and dead, killed and cancelled jobs
finished before `failedBefore`. -/
def purgeFinished (s : Ledger) (succeededBefore failedBefore : Time) : Ledger × ℕ :=
  s.deleteJobs fun _ j =>
    match j.state with
    | .succeeded => j.finishedAt.any (· < succeededBefore)
    | .dead | .killed | .cancelled => j.finishedAt.any (· < failedBefore)
    | .queued | .running | .failed => false

end Ledger

end Postit.Jobs
