import Postit.Data.Alone
import Postit.Data.Direct
import Postit.Data.Jobs
import Postit.Data.Sweep
import Postit.Framework.Trace

/-!
# Runs of repository operations

Every operation of the repositories, with any arguments, as one kind of step on the database
(`Op`), next to what the rest of the system may do to the tables the engine only reads.  A
`Run OpStep` is any sequence of them: any number of workers, sweeps and users, duplicate and
late jobs, in any order, each operation one transaction that either commits or leaves no trace.
-/

namespace Postit.Data

open Postit.Framework

/-- An operation of the repositories, indexed by what it returns. -/
inductive Op : Type → Type
  | createJob (scope : OwnerScope) (post : PostId) (expectedVersion : Option ℕ) (new : NewJob)
      (dbNow now : Time) : Op (List Dispatch)
  | createForOccurrence (owner : UserId) (post : PostId) (actor : Option UserId) (new : NewJob)
      (dbNow now : Time) : Op (List Dispatch)
  | editPost (scope : OwnerScope) (post : PostId) (expectedVersion : Option ℕ) : Op Unit
  | claim (id : DeliveryId) (gen : ℕ) (now lease : Time) : Op (Option ClaimedDelivery)
  | renewLease (id : DeliveryId) (gen : ℕ) (now lease : Time) : Op LeaseRenewal
  | apply (fence : Fence) (event : DeliveryEvent) (data : TransitionData) (now : Time) :
      Op Applied
  | setContainerRef (fence : Fence) (ref : String) : Op Bool
  | takeCheck (fence : Fence) (seq : ℕ) (nextDue : Time) : Op Bool
  | setCheckDue (fence : Fence) (seq : ℕ) (due : Time) : Op Bool
  | checkTarget (id : DeliveryId) : Op (Option CheckTarget)
  | recordLateReceipt (id : DeliveryId) (receipt : Receipt) (now : Time) :
      Op (Option JobStatusChange)
  | cancelDelivery (scope : OwnerScope) (id : DeliveryId) (now : Time) :
      Op (CancelOutcome × Option JobStatusChange)
  | cancelForAccount (account : AccountId) (now : Time) : Op (List CancelResult)
  | cancelForOwner (owner : UserId) (now : Time) : Op (List CancelResult)
  | retry (scope : OwnerScope) (id : DeliveryId) (acknowledged : Bool) (now : Time) : Op Dispatch
  | resolve (scope : OwnerScope) (id : DeliveryId) (outcome : ResolvedOutcome) (now : Time) :
      Op (DeliveryState × JobStatusChange)
  | setRemotePublishAt (fence : Fence) (at_ now : Time) : Op (Option JobStatusChange)
  | startAttempt (id : DeliveryAttemptId) (delivery : DeliveryId) (now : Time) : Op Unit
  | finishAttempt (id : DeliveryAttemptId) (outcome : String) (now : Time) : Op Unit
  | cancelJob (scope : OwnerScope) (id : PublishJobId) (now : Time) :
      Op (List (DeliveryId × CancelOutcome) × JobStatusChange)
  | reschedule (scope : OwnerScope) (id : PublishJobId) (at_ now : Time)
      (uploadNow : List AccountId) : Op JobRepo.Rescheduled
  | overduePending (now grace : Time) (limit : ℕ) : Op (List Dispatch)
  | expiredClaims (now : Time) (limit : ℕ) : Op (List Swept)
  | expiredInFlight (now : Time) (limit : ℕ) : Op (List Swept)
  | stalledChecks (now grace : Time) (limit : ℕ) : Op (List StalledCheck)
  | orphanedDirect (now grace : Time) (limit : ℕ) : Op (List Dispatch)
  | unpark (now parkGrace : Time) (compiled : List PlatformId) (limit : ℕ) : Op UnparkResult
  | materialize (delivery : ClaimedDelivery) (audience : Audience) (now : Time) : Op ℕ
  | startCampaign (delivery : ClaimedDelivery) (audience : Audience)
      (attempt : DeliveryAttemptId) (now : Time) : Op ℕ
  | audienceCount (owner : UserId) (audience : Audience) : Op ℕ
  | claimBatch (fence : Fence) (size : ℕ) (now lease : Time)
      (cap : Option (AccountQuotaKey × ℕ)) : Op BatchClaim
  | renewBatch (delivery : DeliveryId) (batch : DirectBatchId) (now lease : Time) : Op ℕ
  | waitForCap (fence : Fence) (resumeAt now : Time) : Op Bool
  | record (id : DirectSendId) (batch : DirectBatchId) (result : DirectResult) (now : Time) :
      Op Bool
  | requeue (id : DirectSendId) (batch : DirectBatchId) : Op Bool
  | releaseBatch (delivery : DeliveryId) (batch : DirectBatchId) : Op ℕ
  | finishIfDone (fence : Fence) (now : Time) : Op (Option Applied)
  | recipients (owner : UserId) (ids : List DirectSendId) : Op (List (DirectSendId × Bool × Bool))
  | releaseQuota (key : AccountQuotaKey) (units : ℕ) : Op Unit
  | getAccount (owner : UserId) (id : AccountId) : Op (Option Account)
  | userActive (user : UserId) : Op (Option Bool)
  | livePublishing : Op (Option Bool)

/-- The transaction an operation is. -/
def Op.tx {β : Type} : Op β → Tx β
  | createJob scope post expectedVersion new dbNow now =>
      JobRepo.create scope post expectedVersion new dbNow now
  | createForOccurrence owner post actor new dbNow now =>
      JobRepo.createForOccurrence owner post actor new dbNow now
  | editPost scope post expectedVersion => PostRepo.edit scope post expectedVersion
  | claim id gen now lease => DeliveryRepo.claim id gen now lease
  | renewLease id gen now lease => DeliveryRepo.renewLease id gen now lease
  | apply fence event data now => DeliveryRepo.apply fence event data now
  | setContainerRef fence ref => DeliveryRepo.setContainerRef fence ref
  | takeCheck fence seq nextDue => DeliveryRepo.takeCheck fence seq nextDue
  | setCheckDue fence seq due => DeliveryRepo.setCheckDue fence seq due
  | checkTarget id => DeliveryRepo.checkTarget id
  | recordLateReceipt id receipt now => DeliveryRepo.recordLateReceipt id receipt now
  | cancelDelivery scope id now => DeliveryRepo.cancelWithStatus scope id now
  | cancelForAccount account now => DeliveryRepo.cancelForAccountWithStatus account now
  | cancelForOwner owner now => DeliveryRepo.cancelForOwnerWithStatus owner now
  | retry scope id acknowledged now => DeliveryRepo.retry scope id acknowledged now
  | resolve scope id outcome now => DeliveryRepo.resolveWithStatus scope id outcome now
  | setRemotePublishAt fence at_ now => DeliveryRepo.setRemotePublishAt fence at_ now
  | startAttempt id delivery now => AttemptRepo.start id delivery now
  | finishAttempt id outcome now => AttemptRepo.finish id outcome now
  | cancelJob scope id now => JobRepo.cancelWithStatus scope id now
  | reschedule scope id at_ now uploadNow =>
      JobRepo.reschedulePendingWith scope id at_ now uploadNow
  | overduePending now grace limit => Sweep.overduePending now grace limit
  | expiredClaims now limit => Sweep.expiredClaims now limit
  | expiredInFlight now limit => Sweep.expiredInFlight now limit
  | stalledChecks now grace limit => Sweep.stalledChecks now grace limit
  | orphanedDirect now grace limit => Sweep.orphanedDirect now grace limit
  | unpark now parkGrace compiled limit => Sweep.unpark now parkGrace compiled limit
  | materialize delivery audience now => DirectRepo.materialize delivery audience now
  | startCampaign delivery audience attempt now =>
      DirectRepo.startCampaign delivery audience attempt now
  | audienceCount owner audience => DirectRepo.audienceCount owner audience
  | claimBatch fence size now lease cap => DirectRepo.claimBatch fence size now lease cap
  | renewBatch delivery batch now lease => DirectRepo.renewBatch delivery batch now lease
  | waitForCap fence resumeAt now => DirectRepo.waitForCap fence resumeAt now
  | record id batch result now => DirectRepo.record id batch result now
  | requeue id batch => DirectRepo.requeue id batch
  | releaseBatch delivery batch => DirectRepo.releaseBatch delivery batch
  | finishIfDone fence now => DirectRepo.finishIfDone fence now
  | recipients owner ids => DirectRepo.recipients owner ids
  | releaseQuota key units => QuotaRepo.release key units
  | getAccount owner id => sql (.selectAccount owner id)
  | userActive user => sql (.selectUserActive user)
  | livePublishing => sql .selectLivePublishing

/-- What the rest of the system sets: the tables the engine only reads. -/
structure Outside where
  contacts : Table ContactId Contact
  accounts : Table AccountId Account
  users : Table UserId Bool
  platforms : Table PlatformId Bool
  suppressions : List (UserId × ℕ)
  livePublishing : Option Bool

/-- The database after the rest of the system changed its own tables. -/
def Db.withOutside (db : Db) (o : Outside) : Db :=
  { db with
    contacts := o.contacts, accounts := o.accounts, users := o.users, platforms := o.platforms,
    suppressions := o.suppressions, livePublishing := o.livePublishing }

/-- What one step of a run did. -/
inductive Event
  -- an operation committed, returning the value
  | did {β : Type} (op : Op β) (value : β)
  -- an operation failed and left no trace
  | failed {β : Type} (op : Op β) (error : DataError)
  -- the user wrote a new post
  | wrotePost (id : PostId)
  | outside

/-- One step of a run. -/
inductive OpStep (db : Db) : Event → Db → Prop
  | did {β : Type} {op : Op β} {value : β} {db' : Db} (h : op.tx.run db = .ok (value, db')) :
      OpStep db (.did op value) db'
  | failed {β : Type} {op : Op β} {error : DataError} (h : op.tx.run db = .error error) :
      OpStep db (.failed op error) db
  | wrotePost {id : PostId} {owner : UserId} (absent : db.posts.lookup id = none) :
      OpStep db (.wrotePost id)
        { db with posts := db.posts.insert id { ownerId := owner, version := 1, status := .draft } }
  | outside {o : Outside} : OpStep db .outside (db.withOutside o)

/-- A database before the first job: no job, delivery, attempt or recipient row, and every post a
draft. -/
structure Fresh (db : Db) : Prop where
  jobs : db.jobs = ∅
  deliveries : db.deliveries = ∅
  sends : db.sends = ∅
  posts : ∀ id p, db.posts.lookup id = some p → p.status = .draft

/-! ## A small database -/

/-- The database after the operation, or as it was when it fails. -/
def Db.perform {β : Type} (db : Db) (op : Op β) : Db :=
  match op.tx.run db with
  | .ok r => r.2
  | .error _ => db

/-- An operation that answers `value` is a step to the database it leaves. -/
lemma OpStep.perform {β : Type} {db : Db} {op : Op β} {value : β}
    (h : (op.tx.run db).map Prod.fst = .ok value) :
    OpStep db (.did op value) (db.perform op) := by
  unfold Db.perform
  cases hrun : op.tx.run db with
  | error e => simp [hrun, Except.map] at h
  | ok r =>
    simp only [hrun, Except.map, Except.ok.injEq] at h
    subst h
    exact .did hrun

/-- One user with one account and one draft. -/
def Db.sample : Db where
  posts := (∅ : Table PostId Post).insert 1 { ownerId := 1, version := 1, status := .draft }
  accounts := (∅ : Table AccountId Account).insert 1 ⟨1, "x", .active⟩
  users := (∅ : Table UserId Bool).insert 1 true

lemma Db.fresh_sample : Fresh Db.sample where
  jobs := rfl
  deliveries := rfl
  sends := rfl
  posts := by
    intro id p hp
    by_cases hid : id = 1
    · subst hid
      cases hp
      rfl
    · rw [Db.sample, AList.lookup_insert_ne hid] at hp
      cases hp

/-- The user publishes the post to the account, as the job and delivery `id`. -/
def Op.publishSample (id : ℕ) : Op (List Dispatch) :=
  .createJob (.own 1) 1 none
    { id, snapshotPost := 1, snapshotVersion := 1, scheduledAt := 0
      targets := [{ id, account := 1, operation := .publish }] } 0 0

end Postit.Data
