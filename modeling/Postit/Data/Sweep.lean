import Postit.Data.Deliveries

/-!
# The delivery-due sweep

System queries that find deliveries nobody is working on.  Each picks its rows with
`SKIP LOCKED`, so that two overlapping sweeps never take the same delivery, and returns what
the caller must enqueue.
-/

namespace Postit.Data

open Postit.Framework

/-- A delivery a sweep write moved, with what the caller enqueues. -/
structure Swept where
  delivery : DeliveryId
  dispatchGen : ℕ
  runAt : Time
  state : DeliveryState
  job : JobStatusChange
  deriving DecidableEq, Repr

/-- The landed write made with `fence`, at `now`; absent when it was stale. -/
def Swept.fromApplied (fence : Fence) (applied : Applied) (now : Time) : Option Swept :=
  match applied with
  | .done state redispatch job => some {
      delivery := fence.id
      dispatchGen := redispatch.elim fence.dispatchGen (·.dispatchGen)
      runAt := redispatch.elim now (·.runAt)
      state, job }
  | .stale => none

/-- A poll or reconcile chain whose next job is overdue. -/
structure StalledCheck where
  delivery : DeliveryId
  dispatchGen : ℕ
  seq : ℕ
  state : DeliveryState
  deriving DecidableEq, Repr

/-- What unparking did: the deliveries that left `parked`, and those whose blocker cleared too
long after their due time. -/
structure UnparkResult where
  resumed : List Swept
  needsOwner : List (UserId × DeliveryId)
  deriving DecidableEq, Repr

namespace Sweep

/-- Touches each job of the rows once, in order. -/
def touchJobs (rows : List (DeliveryId × Delivery)) (now : Time) : Tx Unit := do
  let jobs := (rows.map fun r => r.2.jobId).dedup.insertionSort (· ≤ ·)
  let _ ← Prog.each jobs fun job => touchJob job now

/-- `pending` deliveries that were due more than `grace` ago and untouched since: their queued
job was lost.  Each gets a new generation, which retires any job still carrying the old one. -/
def overduePending (now grace : Time) (limit : ℕ) : Tx (List Dispatch) := do
  let rows ← sql (.overduePending now (now - grace) limit)
  touchJobs rows now
  pure (rows.map fun r => ⟨r.1, r.2.dispatchGen, now⟩)

/-- Applies `LeaseExpired` to the deliveries in `state` whose lease ran out. -/
def expired (state : DeliveryState) (data : TransitionData) (now : Time) (limit : ℕ) :
    Tx (List Swept) := do
  let found ← sql (.selectExpired state.asStr now limit)
  let swept ← Prog.each found fun r => do
    let fence : Fence := ⟨r.1, r.2, state⟩
    let applied ← DeliveryRepo.apply fence .leaseExpired data now
    pure (Swept.fromApplied fence applied now)
  pure (swept.filterMap fun s => s)

/-- `claimed` deliveries whose lease ran out: the worker died before calling the platform, so
they go back to `pending`. -/
def expiredClaims (now : Time) (limit : ℕ) : Tx (List Swept) :=
  expired .claimed {} now limit

/-- `in_flight` deliveries whose lease ran out: the worker may have reached the platform, so each
becomes `outcome_unknown`, counting an attempt. -/
def expiredInFlight (now : Time) (limit : ℕ) : Tx (List Swept) :=
  expired .inFlight { countAttempt := true } now limit

/-- Non-direct `processing` and `outcome_unknown` deliveries whose chain's next job was due more
than `grace` ago.  Each is stamped, and returned for the caller to enqueue the chain's step
again. -/
def stalledChecks (now grace : Time) (limit : ℕ) : Tx (List StalledCheck) := do
  let rows ← sql (.stalledChecks now (now - grace) limit)
  Prog.each rows fun r => do
    let state ← Prog.ofExcept (fun _ => .sql) r.2.readState
    pure ⟨r.1, r.2.dispatchGen, r.2.checkSeq, state⟩

/-- `processing` direct deliveries that still have queued rows but none under a live lease, quiet
for `grace`, to an active account. -/
def orphanedDirect (now grace : Time) (limit : ℕ) : Tx (List Dispatch) := do
  let rows ← sql (.orphanedDirect now (now - grace) limit)
  touchJobs rows now
  pure (rows.map fun r => ⟨r.1, r.2.dispatchGen, now⟩)

/-- What becomes of one parked delivery whose blocker is gone: one that was due too long ago
stays parked and its owner is asked, once; any other goes back to `pending`. -/
def unparkOne (now parkGrace : Time) (row : ParkedRow) :
    Tx (Option Swept × Option (UserId × DeliveryId)) := do
  let reason ← Prog.orFail .sql row.parkedReason
  if row.nextAttemptAt.any (fun due => parkGrace < now - due) then
    if row.parkedNotifiedAt.isNone then
      sql (.stampNotified row.id now)
      pure (none, some (row.ownerId, row.id))
    else pure (none, none)
  else
    let fence : Fence := ⟨row.id, row.dispatchGen, .parked reason⟩
    let applied ← DeliveryRepo.apply fence .unpark {} now
    pure (Swept.fromApplied fence applied now, none)

/-- Resumes `parked` deliveries whose blocker is gone. -/
def unpark (now parkGrace : Time) (compiled : List PlatformId) (limit : ℕ) :
    Tx UnparkResult := do
  let candidates ← sql (.selectUnparkable now compiled limit (now - parkGrace))
  let results ← Prog.each candidates (unparkOne now parkGrace)
  pure ⟨results.filterMap (·.1), results.filterMap (·.2)⟩

end Sweep

end Postit.Data
