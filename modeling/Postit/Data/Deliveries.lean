import Postit.Data.Scope

/-!
# The delivery repository

The operations of `DeliveryRepo` and `AttemptRepo`, each a program of statements in the order
the source issues them.  A program gives up with a `DataError` and then leaves nothing behind.
The places where the source returns a value without committing (`Stale`, `None`) have written
nothing by then, so the value is simply returned here.

`apply` is the fenced write every state change goes through; `touchJob` is what every write to
a delivery ends with, so that the job's stored status stays the one its deliveries spell.
-/

namespace Postit.Data

open Postit.Framework

/-- A transaction: statements, one after another, or a failure that undoes them. -/
abbrev Tx := Prog Sql DataError

/-- Issues one statement. -/
def sql {β : Type} (s : Sql β) : Tx β := Prog.perform s

/-! ## Who acts -/

namespace OwnerScope

/-- Refuses an action the access does not allow. -/
def require (scope : OwnerScope) (needed : Capability) : Tx Unit :=
  match scope.access with
  | .owner => pure ()
  | .delegated level _ =>
      if needed = .ownerOnly then Prog.fail (.scope .ownerOnly)
      else Prog.guard (level.grants needed) (.scope .insufficientAccess)

lemma require_eq (scope : OwnerScope) (needed : Capability) :
    scope.require needed = Prog.ofExcept .scope (scope.permits needed) := by
  obtain ⟨actor, owner, access⟩ := scope
  cases access with
  | owner => rfl
  | delegated level accounts => cases needed <;> cases level <;> rfl

end OwnerScope

/-! ## Results -/

/-- The generation a delivery was dispatched with, and when its job becomes due. -/
structure Dispatch where
  delivery : DeliveryId
  dispatchGen : ℕ
  runAt : Time
  deriving DecidableEq, Repr

/-- The job's status just before and just after a write to one of its deliveries. -/
structure JobStatusChange where
  before : JobStatus
  after : JobStatus
  deriving DecidableEq, Repr

/-- What a fenced write did. -/
inductive Applied
  -- it landed; `redispatch` is set when the delivery went back to `pending`
  | done (state : DeliveryState) (redispatch : Option Dispatch) (job : JobStatusChange)
  | stale
  deriving DecidableEq, Repr

/-- What renewing a lease found. -/
inductive LeaseRenewal
  | lost
  | held (cancelRequested : Bool)
  deriving DecidableEq, Repr

/-- What cancelling one delivery did. -/
inductive CancelOutcome
  | cancelled
  -- a worker is publishing it: the request is recorded
  | requested
  -- the caller deletes the upload through the agent, then cancels
  | needsAgent (remotePublishAt : Time)
  | notCancellable
  deriving DecidableEq, Repr

/-- What a system cancel did to one delivery. -/
structure CancelResult where
  delivery : DeliveryId
  job : PublishJobId
  outcome : CancelOutcome
  change : Option JobStatusChange
  deriving DecidableEq, Repr

/-- A delivery as a poll or reconcile job sees it. -/
structure CheckTarget where
  delivery : ClaimedDelivery
  state : DeliveryState
  checkSeq : ℕ
  stateSince : Time
  remoteId : Option String
  remoteUrl : Option String
  remotePublishAt : Option Time
  attemptStartedAt : Option Time
  deriving DecidableEq, Repr

/-- A delivery row whose state was read. -/
structure Loaded where
  id : DeliveryId
  row : Delivery
  state : DeliveryState

/-- Reads a row's state; a row that spells none is corrupt. -/
def load (id : DeliveryId) (row : Delivery) : Tx Loaded := do
  let state ← Prog.ofExcept (fun _ => .sql) row.readState
  pure ⟨id, row, state⟩

/-! ## The job's status -/

/-- What the job's status depends on, of one delivery at the time `now`. -/
def viewOf (now : Time) (row : Delivery) : Except ParseEnumError DeliveryView := do
  let state ← row.readState
  pure {
    state
    nextAttemptAt := row.nextAttemptAt.getD now
    awaitingNativePublish := state = .processing && row.remotePublishAt.any (now < ·) }

namespace DeliveryRepo

/-- Recomputes the job's status from its deliveries and writes it.  For a live job whose post
is still at the job's version, the post shows the same status; if the post was edited since,
it shows `draft` (unless a newer live job is running). -/
def refreshJobStatus (job : PublishJobId) (now : Time) : Tx JobStatus := do
  let rows ← sql (.selectJobDeliveries job)
  let views ← Prog.ofExcept (fun _ => .sql) (rows.mapM (viewOf now))
  let status := deriveJobStatus views now
  let info ← Prog.orFail .notFound (← sql (.updateJobStatus job status))
  if !info.dryRun then
    sql (.updatePostStatus info.ownerId info.postId info.postVersion status job)
  pure status

end DeliveryRepo

/-- Bumps the job's version after a delivery change and refreshes its status.  Every write to
a delivery calls it in the same transaction. -/
def touchJob (job : PublishJobId) (now : Time) : Tx JobStatusChange := do
  let before ← Prog.orFail .notFound (← sql (.bumpJobVersion job))
  let after ← DeliveryRepo.refreshJobStatus job now
  pure ⟨before, after⟩

/-! ## Recipient rows a state change stops -/

namespace DirectRepo

/-- Where the delivery stands: the stored audience and the live count of each row state. -/
def progress (delivery : DeliveryId) : Tx DirectCounts := do
  Prog.orFail .notFound (← sql (.selectProgress delivery))

/-- Stores the live counts in the delivery's `direct_counts`. -/
def storeCounts (delivery : DeliveryId) : Tx Unit := do
  let counts ← progress delivery
  sql (.setDirectCounts delivery (some counts))

/-- Marks every queued row `failed` with code `cancelled`, so a cancelled delivery stops
sending.  A row keeps its batch and lease time, which is what lets `record` tell a row stopped
while its batch was sending from a failure a worker recorded. -/
def cancelQueued (delivery : DeliveryId) : Tx ℕ := sql (.cancelQueued delivery)

end DirectRepo

/-! ## The repository -/

/-- The conflict a refused transition is reported as. -/
def transitionRefused : TransitionError → DataError
  | .notAllowed .. => .conflict "transition_not_allowed"
  | .acknowledgementRequired => .conflict "acknowledgement_required"

/-- Whether the delivery's job was cancelled.  Locks the delivery row first, so a cancel that
is committing right now is seen. -/
def jobIsCancelled (id : DeliveryId) : Tx Bool := do
  pure ((← sql (.selectJobIsCancelled id)).getD false)

/-- Whether ending in this state stops the delivery's queued recipient rows. -/
def stopsRows : DeliveryState → Bool
  | .cancelled | .failed | .deadLetter => true
  | _ => false

/-- Refuses to retry a direct delivery whose audience was materialized: some rows may have gone
out and the rest were stopped. -/
def refuseMaterialized (id : DeliveryId) : Tx Unit := do
  if ← sql (.selectMaterialized id) then Prog.fail (.conflict "not_retryable")

/-- Forgets the counts a direct delivery that ended before materializing stored when it ended,
so its retry materializes the audience afresh. -/
def forgetCounts (id : DeliveryId) : Tx Unit := sql (.setDirectCounts id none)

/-- Locks one delivery in the scope's account limit for an action on it. -/
def lockOne (scope : OwnerScope) (id : DeliveryId) : Tx Loaded := do
  let row ← Prog.orFail .notFound
    (← sql (.lockDelivery scope.owner id scope.accountFilter))
  load id row

/-- Locks every delivery of the job, whatever the account limit. -/
def lockJobDeliveries (job : PublishJobId) : Tx (List Loaded) := do
  let rows ← sql (.lockJobDeliveries job)
  Prog.each rows fun r => load r.1 r.2

namespace DeliveryRepo

/-- Claims a due `pending` delivery for the worker holding the dispatch for `gen`, leasing it
until `now + lease`. -/
def claim (id : DeliveryId) (gen : ℕ) (now lease : Time) : Tx (Option ClaimedDelivery) := do
  match ← sql (.claimDelivery id gen now (now + lease)) with
  | none => pure none
  | some claimed =>
      let _ ← touchJob claimed.jobId now
      pure (some claimed)

/-- Extends the lease of a `claimed` or `in_flight` delivery to `now + lease`, and reports
whether the owner asked to stop it. -/
def renewLease (id : DeliveryId) (gen : ℕ) (now lease : Time) : Tx LeaseRenewal := do
  match ← sql (.renewLease id gen now (now + lease)) with
  | none => pure .lost
  | some cancelRequested => pure (.held cancelRequested)

/-- The state change of `apply`: the event's, or, when it leads back to `pending` and the job
was cancelled, the one to `cancelled`.  Sending the delivery of a cancelled job back to
`pending` would strand it, because nothing claims it. -/
def resolveMove (id : DeliveryId) (move : Move) : Tx Move :=
  if h : move.target = .pending then do
    let cancelled ← jobIsCancelled id
    pure (if cancelled then move.redirect h else move)
  else pure move

/-- The dispatch of a delivery that went back to `pending`. -/
def redispatchOf (id : DeliveryId) (state : DeliveryState) (row : Delivery) : Option Dispatch :=
  match state, row.nextAttemptAt with
  | .pending, some runAt => some ⟨id, row.dispatchGen, runAt⟩
  | _, _ => none

/-- A campaign that ends without publishing never keeps queued rows: they are stopped and the
counts stored. -/
def stopCampaign (id : DeliveryId) (target : DeliveryState) (row : Delivery) : Tx Unit :=
  if stopsRows target && row.operation = .direct then do
    let _ ← DirectRepo.cancelQueued id
    DirectRepo.storeCounts id
  else pure ()

/-- Moves the delivery from `fence.expected` by `event`, as the transition table allows,
writing the payload columns, bumping the job's version and refreshing the job and post status.
A fence that no longer matches the row is `stale`, not an error. -/
def apply (fence : Fence) (event : DeliveryEvent) (data : TransitionData) (now : Time) :
    Tx Applied := do
  let planned ← Prog.ofExcept transitionRefused (Move.of fence.expected event)
  let move ← resolveMove fence.id planned
  match ← sql (.applyTransition fence.id fence.dispatchGen move data now) with
  | none => pure .stale
  | some row =>
      let job ← touchJob row.jobId now
      stopCampaign fence.id move.target row
      pure (.done move.target (redispatchOf fence.id move.target row) job)

/-- Records where a multi-step upload stands, so a retry resumes there. -/
def setContainerRef (fence : Fence) (ref : String) : Tx Bool :=
  sql (.setContainerRef fence ref)

/-- Takes step `seq` of the delivery's poll or reconcile chain: moves `check_seq` from `seq` to
`seq + 1` and records when its successor is due.  `false` when the fence no longer matches or
another job already took the step. -/
def takeCheck (fence : Fence) (seq : ℕ) (nextDue : Time) : Tx Bool :=
  sql (.takeCheck fence seq nextDue)

/-- Moves the chain's backstop to `due` while the chain is still at step `seq`. -/
def setCheckDue (fence : Fence) (seq : ℕ) (due : Time) : Tx Bool :=
  sql (.setCheckDue fence seq due)

/-- The delivery as a poll or reconcile job sees it. -/
def checkTarget (id : DeliveryId) : Tx (Option CheckTarget) := do
  match ← sql (.selectCheckTarget id) with
  | none => pure none
  | some (row, delivery, attemptStartedAt) =>
      let state ← Prog.ofExcept (fun _ => .sql) row.readState
      pure <| some {
        delivery, state, checkSeq := row.checkSeq, stateSince := row.stateChangedAt
        remoteId := row.remoteId, remoteUrl := row.remoteUrl
        remotePublishAt := row.remotePublishAt, attemptStartedAt }

/-- Publishes a delivery that was swept to `outcome_unknown` after all, because the worker that
lost its lease reported the platform's receipt. -/
def recordLateReceipt (id : DeliveryId) (receipt : Receipt) (now : Time) :
    Tx (Option JobStatusChange) := do
  match ← sql (.recordLateReceipt id receipt now) with
  | none => pure none
  | some job =>
      let change ← touchJob job now
      pure (some change)

end DeliveryRepo

/-- Moves a locked delivery to `cancelled`. -/
def cancelNow (d : Loaded) (actor : Option UserId) (now : Time) :
    Tx (CancelOutcome × Option JobStatusChange) := do
  match ← DeliveryRepo.apply ⟨d.id, d.row.dispatchGen, d.state⟩ .cancel { actor } now with
  | .done _ _ job => pure (.cancelled, some job)
  | .stale => pure (.notCancellable, none)

/-- Cancels a delivery the caller has locked.  `actor` is absent for a system cancel. -/
def cancelLoaded (d : Loaded) (actor : Option UserId) (now : Time) :
    Tx (CancelOutcome × Option JobStatusChange) :=
  match d.state with
  | .pending | .claimed | .parked _ => cancelNow d actor now
  | .inFlight => do
      sql (.requestCancel d.id now actor)
      let job ← touchJob d.row.jobId now
      pure (.requested, some job)
  | .processing =>
      -- A direct delivery has no remote upload to delete: its rows stop with it.
      if d.row.operation = .direct then cancelNow d actor now
      else pure (d.row.remotePublishAt.elim .notCancellable .needsAgent, none)
  | _ => pure (.notCancellable, none)

/-- Cancels each locked row of a system cancel. -/
def cancelRows (rows : List (DeliveryId × Delivery)) (now : Time) : Tx (List CancelResult) :=
  Prog.each rows fun r => do
    let d ← load r.1 r.2
    let (outcome, change) ← cancelLoaded d none now
    pure ⟨d.id, d.row.jobId, outcome, change⟩

namespace DeliveryRepo

/-- Cancels one delivery. -/
def cancelWithStatus (scope : OwnerScope) (id : DeliveryId) (now : Time) :
    Tx (CancelOutcome × Option JobStatusChange) := do
  scope.require .publish
  let d ← lockOne scope id
  cancelLoaded d (some scope.actor) now

/-- Cancels every `pending` and `parked` delivery of the account and every running direct
campaign to it, for disconnecting it. -/
def cancelForAccountWithStatus (account : AccountId) (now : Time) : Tx (List CancelResult) := do
  let rows ← sql (.lockAccountCancellable account)
  cancelRows rows now

/-- Cancels what can be cancelled of every delivery of the owner, for deleting the user. -/
def cancelForOwnerWithStatus (owner : UserId) (now : Time) : Tx (List CancelResult) := do
  let rows ← sql (.lockOwnerCancellable owner)
  cancelRows rows now

/-- Refuses to bring a job that has ended back to life while another job of the post is
live. -/
def refuseOtherLiveJob (d : Loaded) (job : PublishJob) : Tx Unit :=
  if !job.status.isLive && !job.dryRun then do
    sql (.lockPost d.row.postId)
    if ← sql (.selectOtherLiveJob d.row.postId d.row.jobId) then Prog.fail .jobActive
  else pure ()

/-- Sends a failed, dead-lettered, parked, or outcome-unknown delivery through again with a
fresh attempt count, and returns the dispatch to enqueue. -/
def retry (scope : OwnerScope) (id : DeliveryId) (acknowledged : Bool) (now : Time) :
    Tx Dispatch := do
  scope.require .publish
  let d ← lockOne scope id
  let job ← Prog.orFail .sql (← sql (.selectJob d.row.jobId))
  if job.cancelledAt.isSome then
    Prog.fail (.conflict "job_cancelled")
  refuseOtherLiveJob d job
  if d.row.operation = .direct then refuseMaterialized id
  match ← apply ⟨id, d.row.dispatchGen, d.state⟩ (.userRetry acknowledged)
      { resetAttempts := true, actor := some scope.actor } now with
  | .done _ (some dispatch) _ =>
      if d.row.operation = .direct then forgetCounts id
      pure dispatch
  | _ => Prog.fail (.conflict "delivery_changed")

/-- Settles a dead-lettered, parked, or outcome-unknown delivery by the owner's word that the
post did or did not go out. -/
def resolveWithStatus (scope : OwnerScope) (id : DeliveryId) (outcome : ResolvedOutcome)
    (now : Time) : Tx (DeliveryState × JobStatusChange) := do
  scope.require .publish
  let d ← lockOne scope id
  match ← apply ⟨id, d.row.dispatchGen, d.state⟩ (.userResolve outcome)
      { actor := some scope.actor } now with
  | .done state _ job => pure (state, job)
  | .stale => Prog.fail (.conflict "delivery_changed")

/-- Records the new time of a natively scheduled upload the platform moved. -/
def setRemotePublishAt (fence : Fence) (at_ now : Time) : Tx (Option JobStatusChange) := do
  match ← sql (.setRemotePublishAt fence at_ now) with
  | none => pure none
  | some job =>
      let change ← touchJob job now
      pure (some change)

end DeliveryRepo

/-! ## Attempts -/

namespace AttemptRepo

/-- Starts an attempt of the delivery. -/
def start (id : DeliveryAttemptId) (delivery : DeliveryId) (now : Time) : Tx Unit := do
  Prog.guard (← sql (.insertAttempt id delivery now)) .notFound

/-- Ends an attempt with its outcome. -/
def finish (id : DeliveryAttemptId) (outcome : String) (now : Time) : Tx Unit := do
  Prog.guard (← sql (.finishAttempt id outcome now)) .notFound

end AttemptRepo

end Postit.Data
