import Postit.Framework.Results
import Postit.Jobs.Ledger

/-!
# The job console

The actions an admin may take on a job.  An action that is refused changes nothing.
-/

namespace Postit.Jobs

open Postit.Framework

/-- The console actions a job may offer. -/
structure Actions where
  retry : Bool
  cancel : Bool
  delete : Bool
  deriving DecidableEq, Repr

def Actions.all : Actions := ⟨true, true, true⟩

def Actions.none : Actions := ⟨false, false, false⟩

/-- Why the console offers fewer actions than a job's state would allow. -/
inductive DisabledReason
  | alreadyRetried
  | typeNotRegistered
  | mustFinish
  | publishingManaged
  deriving DecidableEq, Repr

def DisabledReason.asStr : DisabledReason → String
  | .alreadyRetried => "already_retried"
  | .typeNotRegistered => "type_not_registered"
  | .mustFinish => "must_finish"
  | .publishingManaged => "publishing_managed"

/-- How the console treats one job type. -/
structure ConsoleSpec where
  actions : Actions := .all
  disabledReason : Option DisabledReason := none
  showErrorMessage : Bool := false
  deriving DecidableEq, Repr

/-- The registered job types. -/
abbrev Catalog := String → Option ConsoleSpec

inductive ConsoleError
  | notFound
  | notAllowed (reason : Option DisabledReason) (message : String)
  deriving DecidableEq, Repr

inductive Action
  | retry
  | cancel
  | delete
  deriving DecidableEq, Repr

/-- Which actions a job in the state offers, and why they are off when the type forbids them. -/
def allowedActions (spec : Option ConsoleSpec) (state : JobState) (retried : Bool) :
    Actions × Option DisabledReason :=
  let (allowed, reason) := match spec with
    | some spec => (spec.actions, if spec.actions ≠ Actions.all then spec.disabledReason else none)
    | none => (Actions.none, some .typeNotRegistered)
  let actions : Actions :=
    { retry := allowed.retry && !retried &&
        match state with
        | .failed | .dead | .killed | .cancelled => true
        | .queued | .running | .succeeded => false
      cancel := allowed.cancel && state == .queued
      delete := allowed.delete && state.isFinished }
  (actions, reason.or
    (if retried && allowed.retry && !actions.retry then some .alreadyRetried else none))

def Actions.offers (actions : Actions) : Action → Bool
  | .retry => actions.retry
  | .cancel => actions.cancel
  | .delete => actions.delete

namespace Console

variable (catalog : Catalog)

/-- Refuses unless the action is offered for the job. -/
def require (s : Ledger) (id : JobId) (row : Job) (action : Action) : Except ConsoleError Unit :=
  let retried := s.jobs.exists? fun _ c => c.retriedFrom = some id
  let (actions, reason) := allowedActions (catalog row.jobType) row.state retried
  if actions.offers action then .ok ()
  else .error (.notAllowed reason (match reason with
    | none => "not available for a " ++ row.state.asStr ++ " job"
    | some r => "disabled: " ++ r.asStr))

/-- The job's row, locked until the end of the transaction. -/
def lockForAction (s : Ledger) (id : JobId) : Except ConsoleError Job :=
  match s.jobs.lookup id with
  | none => .error .notFound
  | some row => .ok row

/-- `queued` or `failed` to `cancelled`, and out of the outbox. -/
def retire (s : Ledger) (now : Time) (id : JobId) (refusal : String) :
    Except ConsoleError Ledger :=
  match s.cancel now id with
  | (_, false) => .error (.notAllowed none refusal)
  | (s, true) => .ok (s.outboxDelete id)

/-- Cancels the pending retry of a `failed` job. -/
def retirePending (s : Ledger) (now : Time) (id : JobId) (row : Job) :
    Except ConsoleError Ledger :=
  if row.state = .failed then retire s now id "job is no longer waiting to retry" else .ok s

/-- Runs a finished or failed job again, as a new job due at `clock`.  The pending retry of a
`failed` job is cancelled. -/
def retry (s : Ledger) (now clock : Time) (id : JobId) : Except ConsoleError (Ledger × JobId) := do
  let row ← lockForAction s id
  require catalog s id row .retry
  let s ← retirePending s now id row
  return s.enqueue now row.jobType clock (some id)

/-- Cancels a job that is still `queued`. -/
def cancel (s : Ledger) (now : Time) (id : JobId) : Except ConsoleError Ledger := do
  let row ← lockForAction s id
  require catalog s id row .cancel
  retire s now id "job is no longer queued"

/-- Deletes a finished job. -/
def delete (s : Ledger) (id : JobId) : Except ConsoleError Ledger := do
  let row ← lockForAction s id
  require catalog s id row .delete
  match s.deleteFinished id with
  | (_, false) => .error (.notAllowed none "job is no longer finished")
  | (s, true) => .ok s

end Console

end Postit.Jobs
