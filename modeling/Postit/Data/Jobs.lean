import Postit.Data.Deliveries

/-!
# The job repository

Creating, cancelling and rescheduling publish jobs, and the edit lock on posts that job
creation and post edits share.
-/

namespace Postit.Data

open Postit.Framework

/-! ## Posts -/

namespace PostRepo

/-- Locks the owner's post row and refuses it while a publish job of the post, dry runs
included, is scheduled or running. -/
def lockRow (owner : UserId) (post : PostId) (expectedVersion : Option ℕ) : Tx Post := do
  let row ← Prog.orFail .notFound (← sql (.lockOwnPost owner post))
  Prog.guard (expectedVersion.all (· = row.version)) .versionConflict
  if ← sql (.selectActiveJob post) then Prog.fail .postLocked
  pure row

/-- An edit of the post: whatever it changes of the content, it bumps the version. -/
def edit (scope : OwnerScope) (post : PostId) (expectedVersion : Option ℕ) : Tx Unit := do
  scope.require .edit
  let _ ← lockRow scope.owner post expectedVersion
  sql (.bumpPostVersion post)

end PostRepo

/-! ## Creating a job -/

/-- One delivery of a new job; `dueAt` is absent when it is due at the job's time. -/
structure NewDelivery where
  id : DeliveryId
  account : AccountId
  operation : Operation
  dueAt : Option Time := none
  deriving DecidableEq, Repr

/-- A job to create.  Of the frozen snapshot only the post and the revision it froze
matter here. -/
structure NewJob where
  id : PublishJobId
  snapshotPost : PostId
  snapshotVersion : ℕ
  targets : List NewDelivery
  scheduledAt : Time
  nativeSchedule : Bool := false
  dryRun : Bool := false
  deriving DecidableEq, Repr

/-- The job's row, as it is inserted: `publishing` when it is already due, else
`scheduled`. -/
def NewJob.row (new : NewJob) (owner : UserId) (post : PostId) (version : ℕ)
    (actor : Option UserId) (dbNow : Time) : PublishJob where
  ownerId := owner
  postId := post
  postVersion := version
  scheduledAt := new.scheduledAt
  nativeSchedule := new.nativeSchedule
  dryRun := new.dryRun
  status := if new.scheduledAt ≤ dbNow then .publishing else .scheduled
  updatedBy := actor

namespace JobRepo

/-- Inserts the job and its deliveries for the locked post.  `actor` is absent for a system
write; `dbNow` is the database's clock and `now` the process's. -/
def insert (owner : UserId) (actor : Option UserId) (post : PostId) (row : Post) (new : NewJob)
    (dbNow now : Time) : Tx (List Dispatch) := do
  Prog.guard (new.snapshotPost = post) (.conflict "snapshot_post_mismatch")
  Prog.guard (!new.targets.isEmpty) (.conflict "no_targets")
  Prog.guard (new.snapshotVersion = row.version) (.conflict "snapshot_version_mismatch")
  sql (.insertJob new.id (new.row owner post row.version actor dbNow))
  let dispatches ← Prog.each new.targets fun target => do
    let dueAt := target.dueAt.getD new.scheduledAt
    sql (.insertDelivery target.id owner new.id post target.account target.operation dueAt
      actor dbNow)
    pure (⟨target.id, 0, dueAt⟩ : Dispatch)
  let _ ← DeliveryRepo.refreshJobStatus new.id now
  pure dispatches

/-- Creates a job for the post, which it locks, with one `pending` delivery per target. -/
def create (scope : OwnerScope) (post : PostId) (expectedVersion : Option ℕ) (new : NewJob)
    (dbNow now : Time) : Tx (List Dispatch) := do
  let row ← PostRepo.lockRow scope.owner post expectedVersion
  scope.require (if new.dryRun then .edit else .publish)
  Prog.guard (new.targets.all fun t => scope.allowsAccount t.account) .accountNotInScope
  insert scope.owner (some scope.actor) post row new dbNow now

/-- Creates the job of a recurrence's occurrence, as a system write that acts as `actor`. -/
def createForOccurrence (owner : UserId) (post : PostId) (actor : Option UserId) (new : NewJob)
    (dbNow now : Time) : Tx (List Dispatch) := do
  let row ← PostRepo.lockRow owner post none
  insert owner actor post row new dbNow now

/-! ## Whole-job actions -/

/-- Locks the job and its deliveries for a whole-job action and checks the scope reaches it.
Deliveries first, then the job: `apply` and `claim` lock a delivery and then bump the job. -/
def lockVisibleJob (scope : OwnerScope) (id : PublishJobId) : Tx (List Loaded) := do
  Prog.guard (← sql (.selectOwnJob scope.owner id)) .notFound
  let deliveries ← lockJobDeliveries id
  Prog.guard (← sql (.lockOwnJob scope.owner id)) .notFound
  Prog.guard
    (scope.accountFilter.isNone || deliveries.any fun d => scope.allowsAccount d.row.accountId)
    .notFound
  Prog.guard
    (deliveries.all fun d => d.state.isTerminal || scope.allowsAccount d.row.accountId)
    .accountNotInScope
  pure deliveries

/-- The deliveries that have not ended. -/
def openOnes (deliveries : List Loaded) : List Loaded :=
  deliveries.filter fun d => !d.state.isTerminal

/-- Cancels a job: `pending`, `claimed`, and `parked` deliveries become `cancelled`, an
`in_flight` one records the request, and the job stops accepting claims. -/
def cancelWithStatus (scope : OwnerScope) (id : PublishJobId) (now : Time) :
    Tx (List (DeliveryId × CancelOutcome) × JobStatusChange) := do
  scope.require .publish
  let deliveries ← lockVisibleJob scope id
  sql (.setJobCancelled id now scope.actor)
  let results ← Prog.each (openOnes deliveries) fun d => do
    let (outcome, change) ← cancelLoaded d (some scope.actor) now
    pure (d.id, outcome, change)
  let last ← touchJob id now
  let before := (results.findSome? fun r => r.2.2.map (·.before)).getD last.before
  pure (results.map fun r => (r.1, r.2.1), ⟨before, last.after⟩)

/-- What rescheduling moved. -/
structure Rescheduled where
  dispatches : List Dispatch
  needsAgent : List DeliveryId
  deriving DecidableEq, Repr

/-- Moves a job that has not started to `at_`: every `pending` delivery gets the new time and
the next generation; one to an account of `uploadNow` becomes due at once. -/
def reschedulePendingWith (scope : OwnerScope) (id : PublishJobId) (at_ now : Time)
    (uploadNow : List AccountId) : Tx Rescheduled := do
  scope.require .publish
  let deliveries ← lockVisibleJob scope id
  let job ← Prog.orFail .sql (← sql (.selectJob id))
  if job.cancelledAt.isSome then Prog.fail (.conflict "job_cancelled")
  let isOpen := openOnes deliveries
  Prog.guard
    (isOpen.all fun d => d.state = .pending ||
      (d.state = .processing && d.row.remotePublishAt.isSome))
    (.conflict "not_reschedulable")
  let pending := (isOpen.filter fun d => d.state = .pending).map (·.id)
  let rows ← sql (.reschedulePending pending at_ now scope.actor uploadNow)
  sql (.setScheduledAt id at_ scope.actor)
  let _ ← touchJob id now
  pure {
    dispatches := rows.map fun r => ⟨r.1, r.2.dispatchGen, r.2.nextAttemptAt.getD at_⟩
    needsAgent := (isOpen.filter fun d => d.state = .processing).map (·.id) }

end JobRepo

end Postit.Data
