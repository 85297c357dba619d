import Postit.Data.Rows
import Postit.Framework.Transactions

/-!
# The statements of the publishing repositories

`Sql` has one constructor for each SQL statement the repositories issue, in the order of the
source: `deliveries`, `jobs`, `posts`, `sweep`, `direct`.  `Sql.exec` says what it returns and
does, as an `Effect`: the answer, the rows it locks without changing them, and the rows it
writes, each whole.  Writes are a list of rows and not a new database, so that the same meaning
serves a transaction run alone, where they are stored at once, and one that runs beside others,
where they are kept until it commits.

A statement with `SKIP LOCKED` passes over the rows that are not `free`.  A value that is
`NULL` satisfies no comparison, which is `Option.any` here.
-/

namespace Postit.Data

open Postit.Framework

/-! ## Answers, locks and writes -/

/-- Why a scope check failed. -/
inductive ScopeError
  | insufficientAccess
  | ownerOnly
  deriving DecidableEq, Repr

/-- What a repository call fails with. -/
inductive DataError
  -- a failed query, or a stored value that cannot be read
  | sql
  | notFound
  | conflict (rule : String)
  | versionConflict
  | postLocked
  | jobActive
  | accountNotInScope
  | scope (error : ScopeError)
  -- the caller let go of the transaction without a commit
  | dropped
  deriving DecidableEq, Repr

/-- A row, or a key of a unique index, that a transaction can hold. -/
inductive RowRef
  | post (id : PostId)
  | job (id : PublishJobId)
  | delivery (id : DeliveryId)
  | attempt (id : DeliveryAttemptId)
  | send (id : DirectSendId)
  | quota (key : AccountQuotaKey)
  | suppression (owner : UserId) (hash : ℕ)
  | uuid
  -- the key of `publish_jobs_one_live_job_idx`
  | liveSlot (post : PostId)
  -- the key of `deliveries_idempotency_key_key`
  | idempotencyKey (job : PublishJobId) (account : AccountId)
  deriving DecidableEq, Repr

/-- A row written whole. -/
inductive Write
  | post (id : PostId) (row : Post)
  | job (id : PublishJobId) (row : PublishJob)
  | delivery (id : DeliveryId) (row : Delivery)
  | attempt (id : DeliveryAttemptId) (row : Attempt)
  | send (id : DirectSendId) (row : DirectSend)
  | quota (key : AccountQuotaKey) (used : ℕ)
  | suppression (owner : UserId) (hash : ℕ)
  | uuid (next : ℕ)

/-- The row a write replaces or adds. -/
def Write.ref : Write → RowRef
  | post id _ => .post id
  | job id _ => .job id
  | delivery id _ => .delivery id
  | attempt id _ => .attempt id
  | send id _ => .send id
  | quota key _ => .quota key
  | suppression owner hash => .suppression owner hash
  | uuid _ => .uuid

/-- Stores one write. -/
def Db.store (db : Db) : Write → Db
  | .post id row => { db with posts := db.posts.insert id row }
  | .job id row => db.setJob id row
  | .delivery id row => db.setDelivery id row
  | .attempt id row => { db with attempts := db.attempts.insert id row }
  | .send id row => { db with sends := db.sends.insert id row }
  | .quota key used => { db with quotas := db.quotas.insert key used }
  | .suppression owner hash => { db with suppressions := (owner, hash) :: db.suppressions }
  | .uuid next => { db with nextUuid := next }

/-- Stores the writes in order. -/
def Db.storeAll (db : Db) (writes : List Write) : Db := writes.foldl Db.store db

@[simp] lemma Db.storeAll_nil (db : Db) : db.storeAll [] = db := rfl

@[simp] lemma Db.storeAll_singleton (db : Db) (w : Write) : db.storeAll [w] = db.store w := rfl

/-- What a statement answers, locks and writes. -/
abbrev Effect (β : Type) := Framework.Effect RowRef Write β

/-! ## Answers of single statements -/

/-- A delivery a worker claimed, with what it needs to run. -/
structure ClaimedDelivery where
  id : DeliveryId
  jobId : PublishJobId
  postId : PostId
  ownerId : UserId
  accountId : AccountId
  dryRun : Bool
  nativeSchedule : Bool
  operation : Operation
  dispatchGen : ℕ
  attemptCount : ℕ
  containerRef : Option String
  cancelRequested : Bool
  deriving DecidableEq, Repr

/-- The run data of a delivery row and its job, as a claim returns them. -/
def ClaimedDelivery.of (id : DeliveryId) (d : Delivery) (j : PublishJob) : ClaimedDelivery where
  id := id
  jobId := d.jobId
  postId := d.postId
  ownerId := d.ownerId
  accountId := d.accountId
  dryRun := j.dryRun
  nativeSchedule := j.nativeSchedule
  operation := d.operation
  dispatchGen := d.dispatchGen
  attemptCount := d.attemptCount
  containerRef := d.containerRef
  cancelRequested := d.cancelRequestedAt.isSome

/-- What a fenced write is conditioned on. -/
structure Fence where
  id : DeliveryId
  dispatchGen : ℕ
  expected : DeliveryState
  deriving DecidableEq, Repr

/-- Who a direct send goes to. -/
structure Audience where
  lists : List ContactListId
  tags : List String
  deriving DecidableEq, Repr

/-- A candidate of `unpark`. -/
structure ParkedRow where
  id : DeliveryId
  ownerId : UserId
  dispatchGen : ℕ
  nextAttemptAt : Option Time
  parkedNotifiedAt : Option Time
  parkedReason : Option ParkReason
  deriving DecidableEq, Repr

/-! ## The statements -/

/-- A statement, indexed by what it answers. -/
inductive Sql : Type → Type
  -- deliveries
  | claimDelivery (id : DeliveryId) (gen : ℕ) (now leaseUntil : Time) :
      Sql (Option ClaimedDelivery)
  | renewLease (id : DeliveryId) (gen : ℕ) (now leaseUntil : Time) : Sql (Option Bool)
  | selectJobIsCancelled (id : DeliveryId) : Sql (Option Bool)
  | applyTransition (id : DeliveryId) (gen : ℕ) (move : Move) (data : TransitionData)
      (now : Time) : Sql (Option Delivery)
  | setContainerRef (fence : Fence) (ref : String) : Sql Bool
  | takeCheck (fence : Fence) (seq : ℕ) (nextDue : Time) : Sql Bool
  | setCheckDue (fence : Fence) (seq : ℕ) (due : Time) : Sql Bool
  | selectCheckTarget (id : DeliveryId) :
      Sql (Option (Delivery × ClaimedDelivery × Option Time))
  | recordLateReceipt (id : DeliveryId) (receipt : Receipt) (now : Time) :
      Sql (Option PublishJobId)
  | lockDelivery (owner : UserId) (id : DeliveryId) (accounts : Option (List AccountId)) :
      Sql (Option Delivery)
  | lockJobDeliveries (job : PublishJobId) : Sql (List (DeliveryId × Delivery))
  | lockAccountCancellable (account : AccountId) : Sql (List (DeliveryId × Delivery))
  | lockOwnerCancellable (owner : UserId) : Sql (List (DeliveryId × Delivery))
  | selectJob (job : PublishJobId) : Sql (Option PublishJob)
  | lockPost (post : PostId) : Sql Unit
  | selectOtherLiveJob (post : PostId) (job : PublishJobId) : Sql Bool
  | selectMaterialized (id : DeliveryId) : Sql Bool
  | setDirectCounts (id : DeliveryId) (counts : Option DirectCounts) : Sql Unit
  | requestCancel (id : DeliveryId) (now : Time) (actor : Option UserId) : Sql Unit
  | setRemotePublishAt (fence : Fence) (at_ now : Time) : Sql (Option PublishJobId)
  | bumpJobVersion (job : PublishJobId) : Sql (Option JobStatus)
  | selectJobDeliveries (job : PublishJobId) : Sql (List Delivery)
  | updateJobStatus (job : PublishJobId) (status : JobStatus) : Sql (Option PublishJob)
  | updatePostStatus (owner : UserId) (post : PostId) (version : ℕ) (status : JobStatus)
      (job : PublishJobId) : Sql Unit
  | insertAttempt (id : DeliveryAttemptId) (delivery : DeliveryId) (now : Time) : Sql Bool
  | finishAttempt (id : DeliveryAttemptId) (outcome : String) (now : Time) : Sql Bool
  -- jobs
  | selectOwnJob (owner : UserId) (job : PublishJobId) : Sql Bool
  | lockOwnJob (owner : UserId) (job : PublishJobId) : Sql Bool
  | setJobCancelled (job : PublishJobId) (now : Time) (actor : UserId) : Sql Unit
  | reschedulePending (ids : List DeliveryId) (at_ now : Time) (actor : UserId)
      (uploads : List AccountId) : Sql (List (DeliveryId × Delivery))
  | setScheduledAt (job : PublishJobId) (at_ : Time) (actor : UserId) : Sql Unit
  | insertJob (id : PublishJobId) (row : PublishJob) : Sql Unit
  | insertDelivery (id : DeliveryId) (owner : UserId) (job : PublishJobId) (post : PostId)
      (account : AccountId) (operation : Operation) (dueAt : Time) (actor : Option UserId)
      (dbNow : Time) : Sql Unit
  -- posts
  | lockOwnPost (owner : UserId) (post : PostId) : Sql (Option Post)
  | selectActiveJob (post : PostId) : Sql Bool
  | bumpPostVersion (post : PostId) : Sql Unit
  -- sweep
  | overduePending (now cutoff : Time) (limit : ℕ) : Sql (List (DeliveryId × Delivery))
  | selectExpired (state : StateName) (now : Time) (limit : ℕ) : Sql (List (DeliveryId × ℕ))
  | stalledChecks (now cutoff : Time) (limit : ℕ) : Sql (List (DeliveryId × Delivery))
  | orphanedDirect (now cutoff : Time) (limit : ℕ) : Sql (List (DeliveryId × Delivery))
  | selectUnparkable (now : Time) (compiled : List PlatformId) (limit : ℕ)
      (staleBefore : Time) : Sql (List ParkedRow)
  | stampNotified (id : DeliveryId) (now : Time) : Sql Unit
  -- direct
  | lockDirectCounts (id : DeliveryId) : Sql (Option (Option DirectCounts))
  | insertSends (owner : UserId) (delivery : DeliveryId) (audience : Audience) : Sql ℕ
  | selectAudienceCount (owner : UserId) (audience : Audience) : Sql ℕ
  | shareProcessing (id : DeliveryId) (gen : ℕ) : Sql Bool
  | reserveUpTo (key : AccountQuotaKey) (want limit : ℕ) : Sql ℕ
  | releaseQuota (key : AccountQuotaKey) (units : ℕ) : Sql Unit
  | selectHasQueued (delivery : DeliveryId) : Sql Bool
  | generateUuid : Sql ℕ
  | leaseSends (delivery : DeliveryId) (batch : DirectBatchId) (now leaseUntil : Time)
      (limit : ℕ) : Sql (List (DirectSendId × DirectSend))
  | renewBatch (delivery : DeliveryId) (batch : DirectBatchId) (leaseUntil : Time) : Sql ℕ
  | waitForCap (fence : Fence) (resumeAt now : Time) : Sql (Option PublishJobId)
  | recordSend (id : DirectSendId) (batch : DirectBatchId) (result : DirectResult)
      (now : Time) : Sql (Option (DirectSend × Bool))
  | addSuppression (owner : UserId) (hash : ℕ) : Sql Unit
  | lockDeliveryJob (id : DeliveryId) : Sql (Option PublishJobId)
  | requeueSend (id : DirectSendId) (batch : DirectBatchId) : Sql Bool
  | releaseBatch (delivery : DeliveryId) (batch : DirectBatchId) : Sql ℕ
  | selectProgress (delivery : DeliveryId) : Sql (Option DirectCounts)
  | cancelQueued (delivery : DeliveryId) : Sql ℕ
  -- accounts and settings
  | selectAccount (owner : UserId) (account : AccountId) : Sql (Option Account)
  | selectUserActive (user : UserId) : Sql (Option Bool)
  | selectLivePublishing : Sql (Option Bool)
  | selectSends (owner : UserId) (ids : List DirectSendId) :
      Sql (List (DirectSendId × Bool × Bool))

/-! ## Their meaning -/

namespace Sql

variable {β : Type}

/-- A statement that only reads. -/
def read (result : β) : Effect β := { result }

/-- A statement that reads and holds rows. -/
def readLocking (result : β) (mode : LockMode) (rows : List RowRef) : Effect β :=
  { result, locks := rows.map (·, mode) }

/-- Updates the delivery `id`, when there is one that the update applies to and `cond` holds
of, returning what `ret` reads off the new row. -/
def updateDelivery (db : Db) (id : DeliveryId) (u : DeliveryUpdate) (cond : Delivery → Bool)
    (ret : Delivery → β) : Effect (Option β) :=
  match db.deliveries.lookup id with
  | some d =>
      if u.Applies d ∧ cond d then
        { result := some (ret (u.set d)), writes := [.delivery id (u.set d)] }
      else read none
  | none => read none

/-- Updates the deliveries listed, returning the new rows. -/
def updateDeliveries (rows : List (DeliveryId × Delivery)) (u : DeliveryUpdate) :
    Effect (List (DeliveryId × Delivery)) where
  result := rows.map fun r => (r.1, u.set r.2)
  writes := rows.map fun r => .delivery r.1 (u.set r.2)

/-- Updates the job, when there is one, returning what `ret` reads off the new row. -/
def updateJob (db : Db) (id : PublishJobId) (u : JobUpdate) (ret : PublishJob → β) :
    Effect (Option β) :=
  match db.jobs.lookup id with
  | some j => { result := some (ret (u.set j)), writes := [.job id (u.set j)] }
  | none => read none

/-- Updates the recipient rows listed. -/
def updateSends (rows : List (DirectSendId × DirectSend)) (u : SendUpdate) :
    Effect (List (DirectSendId × DirectSend)) where
  result := rows.map fun r => (r.1, u.set r.2)
  writes := rows.map fun r => .send r.1 (u.set r.2)

/-- Updates the recipient row `id`, when the update applies to it, returning the old and the
new row. -/
def updateSend (db : Db) (id : DirectSendId) (u : SendUpdate) :
    Effect (Option (DirectSend × DirectSend)) :=
  match db.sends.lookup id with
  | some s =>
      if u.Applies s then { result := some (s, u.set s), writes := [.send id (u.set s)] }
      else read none
  | none => read none

/-- The effect with its answer mapped. -/
def mapResult {γ : Type} (f : β → γ) (e : Effect β) : Effect γ :=
  { result := f e.result, locks := e.locks, writes := e.writes }

/-- Rows in the order of an optional time, absent times first. -/
def byTime {κ ρ : Type} (f : ρ → Option Time) (a b : κ × ρ) : Bool :=
  match f a.2, f b.2 with
  | none, _ => true
  | some _, none => false
  | some s, some t => decide (s ≤ t)

/-- Rows in the order of their keys. -/
def byId {ρ : Type} (a b : ℕ × ρ) : Bool := decide (a.1 ≤ b.1)

/-- The deliveries that satisfy the condition, by key. -/
def deliveriesWhere (db : Db) (p : DeliveryId → Delivery → Bool) :
    List (DeliveryId × Delivery) :=
  (db.deliveries.select p).insertionSort fun a b => byId a b = true

/-- The recipient rows that satisfy the condition, by key. -/
def sendsWhere (db : Db) (p : DirectSendId → DirectSend → Bool) :
    List (DirectSendId × DirectSend) :=
  (db.sends.select p).insertionSort fun a b => byId a b = true

/-- Whether another job than `job` occupies the post's live slot. -/
def otherLiveJob (db : Db) (post : PostId) (job : PublishJobId) : Bool :=
  db.jobs.exists? fun id j => j.postId = post && j.isLive && id != job

/-- Whether the delivery's account filter lets it through. -/
def inFilter (accounts : Option (List AccountId)) (d : Delivery) : Bool :=
  accounts.all (·.contains d.accountId)

/-- Whether the blocker of a parked delivery is gone. -/
def unblocked (db : Db) (now : Time) (compiled : List PlatformId) (d : Delivery) : Bool :=
  match d.parkedReason, db.accounts.lookup d.accountId, db.users.lookup d.ownerId,
      db.jobs.lookup d.jobId with
  | some reason, some account, some active, some job =>
      match reason with
      | .ownerDisabled => active
      | .accountNeedsReconnect => account.status = .active
      | .platformUnavailable => compiled.contains account.platformId
      | .platformDisabled => (db.platforms.lookup account.platformId).getD false
      | .livePublishDisabled => job.dryRun || db.livePublishing.getD false
      | .quotaExceeded => d.parkedUntil.any (· ≤ now)
      | .outcomeUnresolvable => false
  | _, _, _, _ => false

/-- The contacts an audience reaches: in one of the lists, subscribed, with every tag, and
not suppressed. -/
def audienceContacts (db : Db) (owner : UserId) (audience : Audience) :
    List (ContactId × Contact) :=
  db.contacts.selectFirst
    (fun _ c => c.ownerId = owner && c.lists.any audience.lists.contains && c.subscribed &&
      audience.tags.all c.tags.contains && !db.suppressions.contains (owner, c.emailHash))
    byId db.contacts.entries.length

/-- The number of recipient rows of a delivery in a state. -/
def countSends (db : Db) (delivery : DeliveryId) (state : SendState) : ℕ :=
  (db.sends.select fun _ s => s.deliveryId = delivery && s.state = state).length

/-- The job row is stored, unless its post's live slot is taken by another job. -/
def storeJob (db : Db) (id : PublishJobId) (j : PublishJob) (result : β) :
    Except DataError (Effect β) :=
  if j.isLive && otherLiveJob db j.postId id then .error .jobActive
  else .ok {
    result
    locks := if j.isLive then [(.liveSlot j.postId, .update)] else []
    writes := [.job id j] }

/-- What a statement answers and does on `db`, or the error it fails with. -/
def exec (free : RowRef → Bool) (db : Db) : Sql β → Except DataError (Effect β)
  | claimDelivery id gen now leaseUntil => .ok <|
      match (db.deliveries.lookup id).bind fun d => db.jobs.lookup d.jobId with
      | some j =>
          updateDelivery db id (.claim now leaseUntil)
            (fun d => d.dispatchGen = gen && j.cancelledAt.isNone) (ClaimedDelivery.of id · j)
      | none => read none
  | renewLease id gen now leaseUntil => .ok <|
      updateDelivery db id (.renewLease now leaseUntil) (·.dispatchGen = gen)
        (·.cancelRequestedAt.isSome)
  | selectJobIsCancelled id => .ok <|
      match db.deliveries.lookup id with
      | some d =>
          readLocking ((db.jobs.lookup d.jobId).map (·.cancelledAt.isSome)) .update
            [.delivery id]
      | none => read none
  | applyTransition id gen move data now => .ok <|
      updateDelivery db id (.apply move data now) (·.dispatchGen = gen) fun d => d
  | setContainerRef fence ref => .ok <|
      mapResult Option.isSome <|
        updateDelivery db fence.id (.setContainerRef ref)
          (fun d => d.dispatchGen = fence.dispatchGen &&
            DeliveryUpdate.InState d fence.expected) fun _ => ()
  | takeCheck fence seq nextDue => .ok <|
      mapResult Option.isSome <|
        updateDelivery db fence.id (.takeCheck fence.expected seq nextDue)
          (·.dispatchGen = fence.dispatchGen) fun _ => ()
  | setCheckDue fence seq due => .ok <|
      mapResult Option.isSome <|
        updateDelivery db fence.id (.setCheckDue fence.expected due)
          (fun d => d.dispatchGen = fence.dispatchGen && d.checkSeq = seq) fun _ => ()
  | selectCheckTarget id => .ok <| read <| do
      let d ← db.deliveries.lookup id
      let j ← db.jobs.lookup d.jobId
      let started := (db.attempts.select fun _ a => a.deliveryId = id).map (·.2.startedAt)
      pure (d, ClaimedDelivery.of id d j, started.max?)
  | recordLateReceipt id receipt now => .ok <|
      updateDelivery db id (.recordLateReceipt receipt now) (fun _ => true) (·.jobId)
  | lockDelivery owner id accounts => .ok <|
      match db.deliveries.lookup id with
      | some d =>
          if d.ownerId = owner ∧ inFilter accounts d then
            readLocking (some d) .update [.delivery id]
          else read none
      | none => read none
  | lockJobDeliveries job => .ok <|
      let rows := deliveriesWhere db fun _ d => d.jobId = job
      readLocking rows .update (rows.map (.delivery ·.1))
  | lockAccountCancellable account => .ok <|
      let rows := deliveriesWhere db fun _ d =>
        d.accountId = account && (d.state = .pending || d.state = .parked ||
          (d.state = .processing && d.operation = .direct))
      readLocking rows .update (rows.map (.delivery ·.1))
  | lockOwnerCancellable owner => .ok <|
      let rows := deliveriesWhere db fun _ d =>
        d.ownerId = owner && (d.state = .pending || d.state = .claimed || d.state = .parked ||
          d.state = .processing || (d.state = .inFlight && d.cancelRequestedAt.isNone))
      readLocking rows .update (rows.map (.delivery ·.1))
  | selectJob job => .ok <| read (db.jobs.lookup job)
  | lockPost post => .ok <|
      readLocking () .update (if (db.posts.lookup post).isSome then [.post post] else [])
  | selectOtherLiveJob post job => .ok <| read (otherLiveJob db post job)
  | selectMaterialized id => .ok <| read (db.sends.exists? fun _ s => s.deliveryId = id)
  | setDirectCounts id counts => .ok <|
      mapResult (fun _ => ()) <|
        updateDelivery db id (.setDirectCounts counts) (fun _ => true) fun _ => ()
  | requestCancel id now actor => .ok <|
      mapResult (fun _ => ()) <|
        updateDelivery db id (.requestCancel now actor) (fun _ => true) fun _ => ()
  | setRemotePublishAt fence at_ now => .ok <|
      updateDelivery db fence.id (.setRemotePublishAt at_ now)
        (fun d => d.dispatchGen = fence.dispatchGen && d.state = fence.expected.asStr) (·.jobId)
  | bumpJobVersion job => .ok <| updateJob db job .bumpVersion (·.status)
  | selectJobDeliveries job => .ok <|
      read ((db.deliveries.select fun _ d => d.jobId = job).map (·.2))
  | updateJobStatus job status =>
      match db.jobs.lookup job with
      | some j =>
          storeJob db job (j.withStatus status) (some (j.withStatus status))
      | none => .ok (read none)
  | updatePostStatus owner post version status job => .ok <|
      match db.posts.lookup post with
      | some p =>
          if p.ownerId = owner ∧ (p.version = version ∨ !otherLiveJob db post job) then
            { result := ()
              writes := [.post post
                { p with status := if p.version = version then .ofJob status else .draft }] }
          else read ()
      | none => read ()
  | insertAttempt id delivery now =>
      if (db.attempts.lookup id).isSome then .error .sql
      else .ok <|
        match db.deliveries.lookup delivery with
        | some _ =>
            { result := true
              writes := [.attempt id { deliveryId := delivery, startedAt := now }] }
        | none => read false
  | finishAttempt id outcome now => .ok <|
      match db.attempts.lookup id with
      | some a =>
          { result := true
            writes := [.attempt id { a with finishedAt := some now, outcome := some outcome }] }
      | none => read false
  | selectOwnJob owner job => .ok <| read ((db.jobs.lookup job).any (·.ownerId = owner))
  | lockOwnJob owner job => .ok <|
      if (db.jobs.lookup job).any (·.ownerId = owner) then readLocking true .update [.job job]
      else read false
  | setJobCancelled job now actor => .ok <|
      mapResult (fun _ => ()) <| updateJob db job (.cancel now actor) fun _ => ()
  | reschedulePending ids at_ now actor uploads => .ok <|
      updateDeliveries
        (deliveriesWhere db fun id d => ids.contains id && d.state = .pending)
        (.reschedule at_ now actor uploads)
  | setScheduledAt job at_ actor => .ok <|
      mapResult (fun _ => ()) <| updateJob db job (.setScheduledAt at_ actor) fun _ => ()
  | insertJob id row =>
      if (db.jobs.lookup id).isSome then .error (.conflict "publish_jobs_pkey")
      else if !(db.posts.lookup row.postId).any (·.ownerId = row.ownerId) then .error .sql
      else storeJob db id row ()
  | insertDelivery id owner job post account operation dueAt actor dbNow =>
      if (db.deliveries.lookup id).isSome then .error (.conflict "deliveries_pkey")
      else if db.deliveries.exists? fun _ d => d.jobId = job && d.accountId = account then
        .error (.conflict "deliveries_idempotency_key_key")
      else if !((db.jobs.lookup job).any (·.ownerId = owner) &&
          (db.posts.lookup post).any (·.ownerId = owner) &&
          (db.accounts.lookup account).any (·.ownerId = owner)) then .error .sql
      else .ok {
        result := ()
        locks := [(.idempotencyKey job account, .update)]
        writes := [.delivery id
          (Delivery.fresh owner job post account operation dueAt actor dbNow)] }
  | lockOwnPost owner post => .ok <|
      match db.posts.lookup post with
      | some p =>
          if p.ownerId = owner then readLocking (some p) .update [.post post] else read none
      | none => read none
  | selectActiveJob post => .ok <|
      read (db.jobs.exists? fun _ j => j.postId = post && j.status.isLive)
  | bumpPostVersion post => .ok <|
      match db.posts.lookup post with
      | some p =>
          { result := (), writes := [.post post { p with version := p.version + 1 }] }
      | none => read ()
  | overduePending now cutoff limit => .ok <|
      updateDeliveries
        (db.deliveries.selectFirst
          (fun id d => d.state = .pending && d.nextAttemptAt.any (· ≤ cutoff) &&
            d.updatedAt ≤ cutoff && (db.jobs.lookup d.jobId).any (·.cancelledAt.isNone) &&
            free (.delivery id))
          (byTime (·.nextAttemptAt)) limit)
        (.redispatch now)
  | selectExpired state now limit => .ok <|
      let rows := db.deliveries.selectFirst
        (fun id d => d.state = state && d.leaseExpiresAt.any (· < now) && free (.delivery id))
        (byTime (·.leaseExpiresAt)) limit
      readLocking (rows.map fun r => (r.1, r.2.dispatchGen)) .update (rows.map (.delivery ·.1))
  | stalledChecks now cutoff limit => .ok <|
      updateDeliveries
        (db.deliveries.selectFirst
          (fun id d => ((d.state = .processing && d.operation != .direct) ||
              d.state = .outcomeUnknown) &&
            d.checkDueAt.any (· ≤ cutoff) && free (.delivery id))
          (byTime (·.checkDueAt)) limit)
        (.stampChecked now)
  | orphanedDirect now cutoff limit => .ok <|
      updateDeliveries
        (db.deliveries.selectFirst
          (fun id d => d.operation = .direct && d.state = .processing &&
            (db.accounts.lookup d.accountId).any (·.status = .active) &&
            d.updatedAt ≤ cutoff && d.nextAttemptAt.all (· ≤ cutoff) &&
            db.sends.exists? (fun _ s => s.deliveryId = id && s.state = .queued) &&
            !db.sends.exists? (fun _ s => s.deliveryId = id && s.state = .queued &&
              s.leaseExpiresAt.any (now < ·)) &&
            free (.delivery id))
          (byTime fun d => some d.updatedAt) limit)
        (.stampUpdated now)
  | selectUnparkable now compiled limit staleBefore => .ok <|
      let rows := db.deliveries.selectFirst
        (fun id d => d.state = .parked &&
          (d.parkedNotifiedAt.isNone || d.nextAttemptAt.any (staleBefore ≤ ·)) &&
          unblocked db now compiled d && free (.delivery id))
        (byTime (·.nextAttemptAt)) limit
      readLocking
        (rows.map fun r => {
          id := r.1, ownerId := r.2.ownerId, dispatchGen := r.2.dispatchGen
          nextAttemptAt := r.2.nextAttemptAt, parkedNotifiedAt := r.2.parkedNotifiedAt
          parkedReason := r.2.parkedReason })
        .update (rows.map (.delivery ·.1))
  | stampNotified id now => .ok <|
      mapResult (fun _ => ()) <|
        updateDelivery db id (.stampNotified now) (fun _ => true) fun _ => ()
  | lockDirectCounts id => .ok <|
      match db.deliveries.lookup id with
      | some d => readLocking (some d.directCounts) .update [.delivery id]
      | none => read none
  | insertSends owner delivery audience => .ok <|
      let fresh := (audienceContacts db owner audience).filter fun c =>
        !db.sends.exists? fun _ s => s.deliveryId = delivery && s.contactId = some c.1
      { result := fresh.length
        writes := (fresh.zipIdx.map fun r =>
            .send (db.nextUuid + r.2) (DirectSend.fresh delivery r.1.1 r.1.2)) ++
          [.uuid (db.nextUuid + fresh.length)] }
  | selectAudienceCount owner audience => .ok <|
      read (audienceContacts db owner audience).length
  | shareProcessing id gen => .ok <|
      match db.deliveries.lookup id with
      | some d =>
          if d.dispatchGen = gen ∧ d.state = .processing then
            readLocking true .share [.delivery id]
          else read false
      | none => read false
  | reserveUpTo key want limit => .ok <|
      let used := (db.quotas.lookup key).getD 0
      let granted := min want (limit - used)
      { result := granted, writes := [.quota key (used + granted)] }
  | releaseQuota key units => .ok <|
      match db.quotas.lookup key with
      | some used => { result := (), writes := [.quota key (used - units)] }
      | none => read ()
  | selectHasQueued delivery => .ok <|
      read (db.sends.exists? fun _ s => s.deliveryId = delivery && s.state = .queued)
  | generateUuid => .ok { result := db.nextUuid, writes := [.uuid (db.nextUuid + 1)] }
  | leaseSends delivery batch now leaseUntil limit => .ok <|
      updateSends
        (db.sends.selectFirst
          (fun id s => s.deliveryId = delivery && s.state = .queued &&
            s.leaseExpiresAt.all (· < now) && free (.send id))
          byId limit)
        (.lease batch leaseUntil)
  | renewBatch delivery batch leaseUntil => .ok <|
      mapResult List.length <|
        updateSends
          (sendsWhere db fun _ s => s.deliveryId = delivery &&
            (SendUpdate.renew batch leaseUntil).Applies s)
          (.renew batch leaseUntil)
  | waitForCap fence resumeAt now => .ok <|
      updateDelivery db fence.id (.waitForCap resumeAt now)
        (·.dispatchGen = fence.dispatchGen) (·.jobId)
  | recordSend id batch result now => .ok <|
      mapResult (Option.map fun r => (r.2, decide (r.1.state = .failed))) <|
        updateSend db id (.record batch result now)
  | addSuppression owner hash => .ok { result := (), writes := [.suppression owner hash] }
  | lockDeliveryJob id => .ok <|
      match db.deliveries.lookup id with
      | some d => readLocking (some d.jobId) .update [.delivery id]
      | none => read none
  | requeueSend id batch => .ok <|
      mapResult Option.isSome <| updateSend db id (.requeue batch)
  | releaseBatch delivery batch => .ok <|
      mapResult List.length <|
        updateSends
          (sendsWhere db fun _ s => s.deliveryId = delivery &&
            (SendUpdate.release batch).Applies s)
          (.release batch)
  | selectProgress delivery => .ok <| read <|
      (db.deliveries.lookup delivery).map fun d => {
        audience := (d.directCounts.map (·.audience)).getD 0
        queued := countSends db delivery .queued
        sent := countSends db delivery .sent
        failed := countSends db delivery .failed
        suppressed := countSends db delivery .suppressed
        bounced := countSends db delivery .bounced }
  | cancelQueued delivery => .ok <|
      mapResult List.length <|
        updateSends
          (sendsWhere db fun _ s => s.deliveryId = delivery && s.state = .queued)
          .cancel
  | selectAccount owner account => .ok <|
      read ((db.accounts.lookup account).filter (·.ownerId = owner))
  | selectUserActive user => .ok <| read (db.users.lookup user)
  | selectLivePublishing => .ok <| read db.livePublishing
  | selectSends owner ids => .ok <|
      read <| (sendsWhere db fun id s => s.ownerId = owner && ids.contains id).map fun r =>
        match r.2.contactId.bind fun c => db.contacts.lookup c with
        | some c =>
            (r.1, true, !c.subscribed || db.suppressions.contains (owner, r.2.emailHash))
        | none => (r.1, false, false)

end Sql

end Postit.Data
