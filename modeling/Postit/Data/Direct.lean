import Postit.Data.Deliveries

/-!
# Direct sends

The recipients of one `direct` delivery, worked through in leased batches.  A direct delivery
fans out into one row per subscribed, unsuppressed contact (`materialize`); workers lease
batches of queued rows (`claimBatch`), send them, and record each result (`record`).  When no
row is queued the delivery is published (`finishIfDone`).
-/

namespace Postit.Data

open Postit.Framework

/-- A queued row leased to a batch. -/
structure DirectSendRow where
  id : DirectSendId
  contactId : Option ContactId
  emailHash : ℕ
  tries : ℕ
  deriving DecidableEq, Repr

/-- What claiming a batch found. -/
inductive BatchClaim
  | rows (batch : DirectBatchId) (rows : List DirectSendRow)
  -- rows are queued but the owner's daily cap has no room left
  | capReached
  | empty
  -- the delivery is no longer `processing` under the caller's generation
  | stale
  deriving DecidableEq, Repr

namespace QuotaRepo

/-- Reserves as many of `want` units as `limit` still allows and returns that many.  A limit of
`0` is unlimited: it returns `want` and writes nothing. -/
def reserveUpTo (key : AccountQuotaKey) (want limit : ℕ) : Tx ℕ :=
  if limit = 0 ∨ want = 0 then pure want else sql (.reserveUpTo key want limit)

/-- Gives units back. -/
def release (key : AccountQuotaKey) (units : ℕ) : Tx Unit := sql (.releaseQuota key units)

end QuotaRepo

namespace DirectRepo

/-- Creates the delivery's rows from the audience and returns how many recipients there are.
Calling it again inserts nothing and returns the stored audience. -/
def materialize (delivery : ClaimedDelivery) (audience : Audience) (now : Time) : Tx ℕ := do
  match ← Prog.orFail .notFound (← sql (.lockDirectCounts delivery.id)) with
  | some existing => pure existing.audience
  | none =>
      let inserted ← sql (.insertSends delivery.ownerId delivery.id audience)
      sql (.setDirectCounts delivery.id (some { audience := inserted, queued := inserted }))
      let _ ← touchJob delivery.jobId now
      pure inserted

/-- The transaction that starts a campaign: its rows, the end of its attempt, and the move to
`processing`.  When the delivery moved on since, the rows go with the rest. -/
def startCampaign (delivery : ClaimedDelivery) (audience : Audience) (attempt : DeliveryAttemptId)
    (now : Time) : Tx ℕ := do
  let size ← materialize delivery audience now
  AttemptRepo.finish attempt "processing" now
  match ← DeliveryRepo.apply ⟨delivery.id, delivery.dispatchGen, .inFlight⟩ .accepted {} now with
  | .done .. => pure size
  | .stale => Prog.fail .dropped

/-- How many recipients `materialize` would queue. -/
def audienceCount (owner : UserId) (audience : Audience) : Tx ℕ :=
  sql (.selectAudienceCount owner audience)

/-- Leases the next batch of up to `size` queued rows to a new batch until `now + lease`.  The
claim is fenced: unless the delivery is still `processing` under the fence's generation it
leases nothing.  With a cap it leases no more rows than it reserved units for, and returns the
units it did not use. -/
def claimBatch (fence : Fence) (size : ℕ) (now lease : Time)
    (cap : Option (AccountQuotaKey × ℕ)) : Tx BatchClaim := do
  if !(← sql (.shareProcessing fence.id fence.dispatchGen)) then pure .stale
  else
    let granted ← match cap with
      | some (key, limit) => QuotaRepo.reserveUpTo key size limit
      | none => pure size
    if granted = 0 then
      let queued ← sql (.selectHasQueued fence.id)
      pure (if queued && 0 < size then .capReached else .empty)
    else
      let batch ← sql .generateUuid
      let leased ← sql (.leaseSends fence.id batch now (now + lease) granted)
      match cap with
      | some (key, limit) =>
          if limit ≠ 0 ∧ leased.length < granted then
            QuotaRepo.release key (granted - leased.length)
      | none => pure ()
      if leased.isEmpty then pure .empty
      else pure (.rows batch (leased.map fun r =>
        ⟨r.1, r.2.contactId, r.2.emailHash, r.2.tries⟩))

/-- Extends the lease of the rows the batch still holds, and returns how many. -/
def renewBatch (delivery : DeliveryId) (batch : DirectBatchId) (now lease : Time) : Tx ℕ :=
  sql (.renewBatch delivery batch (now + lease))

/-- Notes that the campaign has hit the owner's daily cap and continues at `resumeAt`. -/
def waitForCap (fence : Fence) (resumeAt now : Time) : Tx Bool := do
  match ← sql (.waitForCap fence resumeAt now) with
  | none => pure false
  | some job =>
      let _ ← touchJob job now
      pure true

/-- Records what happened to a row leased to `batch`.  `false`, changing nothing, when the row
is no longer queued under that batch.  A late result wins over a cancel, and then the
delivery's stored counts are refreshed. -/
def record (id : DirectSendId) (batch : DirectBatchId) (result : DirectResult) (now : Time) :
    Tx Bool := do
  match ← sql (.recordSend id batch result now) with
  | none => pure false
  | some (row, replacedCancel) =>
      if result.state = .bounced then
        sql (.addSuppression row.ownerId row.emailHash)
      if replacedCancel then
        let job ← Prog.orFail .sql (← sql (.lockDeliveryJob row.deliveryId))
        storeCounts row.deliveryId
        let _ ← touchJob job now
      pure true

/-- The rows asked for, with whether the contact is still there and whether its address is
suppressed. -/
def recipients (owner : UserId) (ids : List DirectSendId) :
    Tx (List (DirectSendId × Bool × Bool)) :=
  sql (.selectSends owner ids)

/-- Returns a row leased to `batch` after a soft failure, so that a later batch sends it
again. -/
def requeue (id : DirectSendId) (batch : DirectBatchId) : Tx Bool := sql (.requeueSend id batch)

/-- Returns every row the batch still holds to the queue without counting a try. -/
def releaseBatch (delivery : DeliveryId) (batch : DirectBatchId) : Tx ℕ :=
  sql (.releaseBatch delivery batch)

/-- Publishes the delivery, storing the final counts, when no row is left queued. -/
def finishIfDone (fence : Fence) (now : Time) : Tx (Option Applied) := do
  let counts ← progress fence.id
  if 0 < counts.queued then pure none
  else
    let applied ← DeliveryRepo.apply fence .published { directCounts := some counts } now
    pure (some applied)

end DirectRepo

end Postit.Data
