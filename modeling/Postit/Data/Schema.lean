import Postit.Core.Delivery
import Postit.Framework.Table

/-!
# The tables the publishing engine works on

The rows of the tables that the publishing repositories read and write, with the columns
those statements use.  Content (a post's text and media, a job's frozen snapshot, a contact's
address) is left out: no statement of the engine decides anything by it.

Keys are natural numbers, standing for UUIDs, and a row does not repeat its own key.  A
delivery's state is stored as the database stores it, in the two columns `state` and
`parkedReason`; `Delivery.readState` reads them back.
-/

namespace Postit.Data

open Postit.Framework

abbrev UserId := ℕ
abbrev PostId := ℕ
abbrev PublishJobId := ℕ
abbrev DeliveryId := ℕ
abbrev AccountId := ℕ
abbrev DeliveryAttemptId := ℕ
abbrev DirectSendId := ℕ
abbrev DirectBatchId := ℕ
abbrev ContactId := ℕ
abbrev ContactListId := ℕ
abbrev PlatformId := String

/-! ## Posts and jobs -/

/-- The status column of a post: `draft`, or the status of the job it shows. -/
inductive PostStatus
  | draft
  | ofJob (status : JobStatus)
  deriving DecidableEq, Repr

/-- A post, less its content. -/
structure Post where
  ownerId : UserId
  version : ℕ
  status : PostStatus
  deriving DecidableEq, Repr

/-- What a delivery does on its platform. -/
inductive Operation
  | publish
  | comment
  | direct
  deriving DecidableEq, Repr

/-- A publish job. -/
structure PublishJob where
  ownerId : UserId
  postId : PostId
  postVersion : ℕ
  scheduledAt : Time
  nativeSchedule : Bool
  dryRun : Bool
  status : JobStatus
  version : ℕ := 1
  cancelledAt : Option Time := none
  updatedBy : Option UserId := none
  deriving DecidableEq, Repr

/-- Whether the job occupies its post's live slot: the condition of the unique index
`publish_jobs_one_live_job_idx`. -/
def PublishJob.isLive (j : PublishJob) : Bool := !j.dryRun && j.status.isLive

/-! ## Deliveries -/

/-- The classified error behind a failure or park: its code and retry class, and the
violations of a failed revalidation, never the platform's text. -/
structure LastError where
  code : String
  cls : Option String := none
  violations : List (String × Option String) := []
  deriving DecidableEq, Repr

/-- How far a direct delivery has got. -/
structure DirectCounts where
  audience : ℕ
  queued : ℕ
  sent : ℕ := 0
  failed : ℕ := 0
  suppressed : ℕ := 0
  bounced : ℕ := 0
  deriving DecidableEq, Repr

/-- A delivery: one post to one account. -/
structure Delivery where
  ownerId : UserId
  jobId : PublishJobId
  postId : PostId
  accountId : AccountId
  operation : Operation
  state : StateName := .pending
  parkedReason : Option ParkReason := none
  dispatchGen : ℕ := 0
  leaseExpiresAt : Option Time := none
  cancelRequestedAt : Option Time := none
  attemptCount : ℕ := 0
  nextAttemptAt : Option Time
  remoteId : Option String := none
  remoteUrl : Option String := none
  containerRef : Option String := none
  remotePublishAt : Option Time := none
  directCounts : Option DirectCounts := none
  lastError : Option LastError := none
  parkedNotifiedAt : Option Time := none
  -- when a park may resume; `nextAttemptAt` keeps the due time
  parkedUntil : Option Time := none
  -- the position of the poll or reconcile chain, and when its next job is due
  checkSeq : ℕ := 0
  checkDueAt : Option Time := none
  -- when it entered its current state; sweeps stamp only `updatedAt`
  stateChangedAt : Time
  updatedAt : Time
  updatedBy : Option UserId := none
  deriving DecidableEq, Repr

/-- The state the row's two columns spell. -/
def Delivery.readState (d : Delivery) : Except ParseEnumError DeliveryState :=
  DeliveryState.fromParts d.state d.parkedReason

/-- One try of a delivery. -/
structure Attempt where
  deliveryId : DeliveryId
  startedAt : Time
  finishedAt : Option Time := none
  outcome : Option String := none
  deriving DecidableEq, Repr

/-! ## Direct sends -/

/-- Where one recipient row is. -/
inductive SendState
  | queued
  | sent
  | failed
  | suppressed
  | bounced
  deriving DecidableEq, Repr

/-- One recipient of a direct delivery. -/
structure DirectSend where
  ownerId : UserId
  deliveryId : DeliveryId
  contactId : Option ContactId
  emailHash : ℕ
  state : SendState := .queued
  batch : Option DirectBatchId := none
  leaseExpiresAt : Option Time := none
  tries : ℕ := 0
  sentAt : Option Time := none
  providerMessageId : Option String := none
  errorCode : Option String := none
  deriving DecidableEq, Repr

/-- A contact, less its address and names. -/
structure Contact where
  ownerId : UserId
  emailHash : ℕ
  subscribed : Bool
  tags : List String
  lists : List ContactListId
  deriving DecidableEq, Repr

/-- The quota bucket of one account in one period. -/
structure AccountQuotaKey where
  owner : UserId
  account : AccountId
  platform : PlatformId
  bucket : String
  periodStart : Time
  deriving DecidableEq, Repr

/-! ## What the sweeps look at -/

/-- Whether an account can be used. -/
inductive AccountStatus
  | active
  | needsReconnect
  | disconnected
  deriving DecidableEq, Repr

/-- A connected account. -/
structure Account where
  ownerId : UserId
  platformId : PlatformId
  status : AccountStatus
  deriving DecidableEq, Repr

/-- The database: the tables of the publishing engine, and of what it looks at. -/
structure Db where
  posts : Table PostId Post := ∅
  jobs : Table PublishJobId PublishJob := ∅
  deliveries : Table DeliveryId Delivery := ∅
  attempts : Table DeliveryAttemptId Attempt := ∅
  sends : Table DirectSendId DirectSend := ∅
  quotas : Table AccountQuotaKey ℕ := ∅
  suppressions : List (UserId × ℕ) := []
  contacts : Table ContactId Contact := ∅
  accounts : Table AccountId Account := ∅
  users : Table UserId Bool := ∅
  platforms : Table PlatformId Bool := ∅
  livePublishing : Option Bool := none
  nextUuid : ℕ := 0

/-- The database with one delivery row stored. -/
def Db.setDelivery (db : Db) (id : DeliveryId) (row : Delivery) : Db :=
  { db with deliveries := db.deliveries.insert id row }

/-- The database with one job row stored. -/
def Db.setJob (db : Db) (id : PublishJobId) (row : PublishJob) : Db :=
  { db with jobs := db.jobs.insert id row }

end Postit.Data
