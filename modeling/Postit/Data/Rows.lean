import Postit.Data.Schema

/-!
# What a write can do to one row

Every `UPDATE` the engine issues on `deliveries`, `publish_jobs` and `direct_sends` changes each
row it matches in one of a few ways.  `DeliveryUpdate`, `JobUpdate` and `SendUpdate` list them:
`set` is the statement's `SET` clause, and `Applies` the part of its `WHERE` clause that speaks
of the row's own progress.  What a whole statement, a transaction or a run of the engine can
do to a row is a sequence of these, so an invariant of rows is proved here, by cases on the
update, and nowhere else.

A state change carries its permission with it: a `Move` is a pair of states together with a
proof that the transition table has an edge between them, or an edge to `pending` that a
cancelled job turned into `cancelled`.  No other move can be built.
-/

namespace Postit.Data

open Postit.Framework

/-! ## State changes -/

/-- A state change the transition table allows. -/
structure Move where
  expected : DeliveryState
  target : DeliveryState
  legal : ∃ event, transition expected event = .ok target ∨
    (transition expected event = .ok .pending ∧ target = .cancelled)

namespace Move

/-- The move an event makes from a state. -/
def of (expected : DeliveryState) (event : DeliveryEvent) : Except TransitionError Move :=
  match h : transition expected event with
  | .ok target => .ok ⟨expected, target, event, .inl h⟩
  | .error e => .error e

/-- The move to `cancelled` that a move to `pending` becomes when the job was cancelled. -/
def redirect (m : Move) (h : m.target = .pending) : Move where
  expected := m.expected
  target := .cancelled
  legal := by
    obtain ⟨event, hok | ⟨-, hto⟩⟩ := m.legal
    · exact ⟨event, .inr ⟨h ▸ hok, rfl⟩⟩
    · exact absurd (h.symm.trans hto) (by decide)

lemma of_eq_ok {expected : DeliveryState} {event : DeliveryEvent} {m : Move}
    (h : of expected event = .ok m) :
    m.expected = expected ∧ transition expected event = .ok m.target := by
  unfold of at h
  split at h
  · cases h
    exact ⟨rfl, by assumption⟩
  · cases h

lemma of_eq_error {expected : DeliveryState} {event : DeliveryEvent} {e : TransitionError}
    (h : of expected event = .error e) : transition expected event = .error e := by
  unfold of at h
  split at h
  · cases h
  · cases h
    assumption

@[simp] lemma redirect_expected (m : Move) (h : m.target = .pending) :
    (m.redirect h).expected = m.expected := rfl

@[simp] lemma redirect_target (m : Move) (h : m.target = .pending) :
    (m.redirect h).target = .cancelled := rfl

end Move

/-- The payload columns a transition may write.  Absent fields keep the column's value. -/
structure TransitionData where
  remoteId : Option String := none
  remoteUrl : Option String := none
  remotePublishAt : Option Time := none
  lastError : Option LastError := none
  -- when a delivery going back to `pending` is due; defaults to now
  nextAttemptAt : Option Time := none
  countAttempt : Bool := false
  -- start over: the count goes back to zero and an earlier cancel request is forgotten
  resetAttempts : Bool := false
  directCounts : Option DirectCounts := none
  actor : Option UserId := none
  parkedUntil : Option Time := none
  checkDueAt : Option Time := none
  deriving DecidableEq, Repr

/-- What a platform returned for a post whose outcome was unknown. -/
structure Receipt where
  remoteId : String
  remoteUrl : Option String
  deriving DecidableEq, Repr

/-! ## Deliveries -/

/-- A delivery as it is inserted: `pending`, never claimed, due at `dueAt`. -/
def Delivery.fresh (owner : UserId) (job : PublishJobId) (post : PostId) (account : AccountId)
    (operation : Operation) (dueAt : Time) (actor : Option UserId) (dbNow : Time) : Delivery where
  ownerId := owner
  jobId := job
  postId := post
  accountId := account
  operation := operation
  nextAttemptAt := some dueAt
  stateChangedAt := dbNow
  updatedAt := dbNow
  updatedBy := actor

/-- The ways a statement changes a delivery row. -/
inductive DeliveryUpdate
  | claim (now leaseUntil : Time)
  | renewLease (now leaseUntil : Time)
  | apply (move : Move) (data : TransitionData) (now : Time)
  | setContainerRef (ref : String)
  | takeCheck (expected : DeliveryState) (seq : ℕ) (due : Time)
  | setCheckDue (expected : DeliveryState) (due : Time)
  | recordLateReceipt (receipt : Receipt) (now : Time)
  | setDirectCounts (counts : Option DirectCounts)
  | requestCancel (now : Time) (actor : Option UserId)
  | setRemotePublishAt (at_ now : Time)
  | reschedule (at_ now : Time) (actor : UserId) (uploads : List AccountId)
  | redispatch (now : Time)
  | stampChecked (now : Time)
  | stampUpdated (now : Time)
  | stampNotified (now : Time)
  | waitForCap (resumeAt now : Time)

namespace DeliveryUpdate

/-- The `SET` clause of the fenced write of a transition. -/
def applyMove (target : DeliveryState) (data : TransitionData) (now : Time) (d : Delivery) :
    Delivery :=
  { d with
    state := target.asStr
    parkedReason := parkedReason target
    dispatchGen := d.dispatchGen + if target = .pending ∨ target = .cancelled then 1 else 0
    nextAttemptAt :=
      if target = .pending then some (data.nextAttemptAt.getD now)
      else data.nextAttemptAt <|> d.nextAttemptAt
    leaseExpiresAt := if target = .claimed ∨ target = .inFlight then d.leaseExpiresAt else none
    remoteId := data.remoteId <|> d.remoteId
    remoteUrl := data.remoteUrl <|> d.remoteUrl
    remotePublishAt := data.remotePublishAt <|> d.remotePublishAt
    lastError := data.lastError <|> d.lastError
    directCounts := data.directCounts <|> d.directCounts
    cancelRequestedAt :=
      if data.resetAttempts ∧ target = .pending then none else d.cancelRequestedAt
    attemptCount :=
      if data.resetAttempts then 0
      else if data.countAttempt then d.attemptCount + 1
      else d.attemptCount
    parkedNotifiedAt := if target.asStr = .parked then d.parkedNotifiedAt else none
    parkedUntil := if target.asStr = .parked then data.parkedUntil else none
    checkSeq := 0
    stateChangedAt := now
    checkDueAt :=
      if target = .processing ∨ target = .outcomeUnknown then some (data.checkDueAt.getD now) else none
    updatedBy := data.actor <|> d.updatedBy
    updatedAt := now }

/-- The statement's `SET` clause. -/
def set : DeliveryUpdate → Delivery → Delivery
  | claim now leaseUntil, d =>
      { d with
        state := .claimed, leaseExpiresAt := some leaseUntil, stateChangedAt := now,
        updatedAt := now }
  | renewLease now leaseUntil, d =>
      { d with leaseExpiresAt := some leaseUntil, updatedAt := now }
  | apply move data now, d => applyMove move.target data now d
  | setContainerRef ref, d => { d with containerRef := some ref }
  | takeCheck _ _ due, d => { d with checkSeq := d.checkSeq + 1, checkDueAt := some due }
  | setCheckDue _ due, d => { d with checkDueAt := some due }
  | recordLateReceipt receipt now, d =>
      { d with
        state := .published, remoteId := some receipt.remoteId, remoteUrl := receipt.remoteUrl,
        leaseExpiresAt := none, parkedNotifiedAt := none, checkSeq := 0, checkDueAt := none,
        stateChangedAt := now, updatedAt := now }
  | setDirectCounts counts, d => { d with directCounts := counts }
  | requestCancel now actor, d =>
      { d with
        cancelRequestedAt := some now, updatedAt := now, updatedBy := actor <|> d.updatedBy }
  | setRemotePublishAt at_ now, d => { d with remotePublishAt := some at_, updatedAt := now }
  | reschedule at_ now actor uploads, d =>
      { d with
        nextAttemptAt := some (if d.accountId ∈ uploads then now else at_)
        dispatchGen := d.dispatchGen + 1, updatedAt := now, updatedBy := some actor }
  | redispatch now, d => { d with dispatchGen := d.dispatchGen + 1, updatedAt := now }
  | stampChecked now, d => { d with checkDueAt := some now }
  | stampUpdated now, d => { d with updatedAt := now }
  | stampNotified now, d => { d with parkedNotifiedAt := some now }
  | waitForCap resumeAt now, d => { d with nextAttemptAt := some resumeAt, updatedAt := now }

/-- The row's two state columns spell `s`. -/
def InState (d : Delivery) (s : DeliveryState) : Prop :=
  d.state = s.asStr ∧ d.parkedReason = parkedReason s

instance (d : Delivery) (s : DeliveryState) : Decidable (InState d s) :=
  inferInstanceAs (Decidable (_ ∧ _))

lemma inState_iff {d : Delivery} {s : DeliveryState} : InState d s ↔ d.readState = .ok s :=
  DeliveryState.fromParts_eq_ok.symm

/-- What the statement's `WHERE` clause says about the row's own progress. -/
def Applies : DeliveryUpdate → Delivery → Prop
  | claim now _, d => d.state = .pending ∧ d.nextAttemptAt.any (· ≤ now)
  | renewLease .., d => d.state = .claimed ∨ d.state = .inFlight
  | apply move .., d => InState d move.expected
  | setContainerRef _, _ => True
  | takeCheck expected seq _, d => InState d expected ∧ d.checkSeq = seq
  | setCheckDue expected _, d => InState d expected
  | recordLateReceipt .., d => d.state = .outcomeUnknown ∧ d.remoteId = none
  | setDirectCounts _, _ => True
  | requestCancel .., _ => True
  | setRemotePublishAt .., d => d.remotePublishAt.isSome
  | reschedule .., d => d.state = .pending
  | redispatch _, d => d.state = .pending ∧ d.nextAttemptAt.isSome
  | stampChecked _, d =>
      (d.state = .processing ∧ d.operation ≠ .direct) ∨ d.state = .outcomeUnknown
  | stampUpdated _, d => d.state = .processing
  | stampNotified _, _ => True
  | waitForCap .., d => d.state = .processing

instance : (u : DeliveryUpdate) → (d : Delivery) → Decidable (u.Applies d)
  | claim .., _ => inferInstanceAs (Decidable (_ ∧ _))
  | renewLease .., _ => inferInstanceAs (Decidable (_ ∨ _))
  | apply .., _ => inferInstanceAs (Decidable (InState _ _))
  | setContainerRef _, _ => inferInstanceAs (Decidable True)
  | takeCheck .., _ => inferInstanceAs (Decidable (_ ∧ _))
  | setCheckDue .., _ => inferInstanceAs (Decidable (InState _ _))
  | recordLateReceipt .., _ => inferInstanceAs (Decidable (_ ∧ _))
  | setDirectCounts _, _ => inferInstanceAs (Decidable True)
  | requestCancel .., _ => inferInstanceAs (Decidable True)
  | setRemotePublishAt .., _ => inferInstanceAs (Decidable (_ = true))
  | reschedule .., _ => inferInstanceAs (Decidable (_ = _))
  | redispatch _, _ => inferInstanceAs (Decidable (_ ∧ _))
  | stampChecked _, _ => inferInstanceAs (Decidable (_ ∨ _))
  | stampUpdated _, _ => inferInstanceAs (Decidable (_ = _))
  | stampNotified _, _ => inferInstanceAs (Decidable True)
  | waitForCap .., _ => inferInstanceAs (Decidable (_ = _))

end DeliveryUpdate

/-! ## Jobs -/

/-- The ways a statement changes a job row. -/
inductive JobUpdate
  | bumpVersion
  | setStatus (status : JobStatus)
  | cancel (now : Time) (actor : UserId)
  | setScheduledAt (at_ : Time) (actor : UserId)

/-- The job with another status. -/
def PublishJob.withStatus (j : PublishJob) (status : JobStatus) : PublishJob := { j with status }

/-- The job one version on. -/
def PublishJob.bumped (j : PublishJob) : PublishJob := { j with version := j.version + 1 }

/-- The statement's `SET` clause. -/
def JobUpdate.set : JobUpdate → PublishJob → PublishJob
  | bumpVersion, j => j.bumped
  | setStatus status, j => j.withStatus status
  | cancel now actor, j =>
      { j with cancelledAt := j.cancelledAt <|> some now, updatedBy := some actor }
  | setScheduledAt at_ actor, j => { j with scheduledAt := at_, updatedBy := some actor }

/-! ## Direct sends -/

/-- What happened to one recipient. -/
inductive DirectResult
  | sent (providerMessageId : Option String)
  | failed (code : String)
  | suppressed
  | bounced (code : String)
  deriving DecidableEq, Repr

namespace DirectResult

/-- The state the row ends in. -/
def state : DirectResult → SendState
  | sent _ => .sent
  | failed _ => .failed
  | suppressed => .suppressed
  | bounced _ => .bounced

/-- The provider's message ID, of a message it accepted. -/
def providerMessageId : DirectResult → Option String
  | sent id => id
  | _ => none

/-- The row's reason code. -/
def code : DirectResult → Option String
  | failed code | bounced code => some code
  | _ => none

end DirectResult

/-- A recipient row as it is inserted: `queued`, never leased. -/
def DirectSend.fresh (delivery : DeliveryId) (contact : ContactId) (c : Contact) : DirectSend where
  ownerId := c.ownerId
  deliveryId := delivery
  contactId := some contact
  emailHash := c.emailHash

/-- The code of a row that a cancel stopped. -/
def cancelledCode : String := "cancelled"

/-- The ways a statement changes a recipient row. -/
inductive SendUpdate
  | lease (batch : DirectBatchId) (leaseUntil : Time)
  | renew (batch : DirectBatchId) (leaseUntil : Time)
  | record (batch : DirectBatchId) (result : DirectResult) (now : Time)
  | requeue (batch : DirectBatchId)
  | release (batch : DirectBatchId)
  | cancel

namespace SendUpdate

/-- The statement's `SET` clause. -/
def set : SendUpdate → DirectSend → DirectSend
  | lease batch leaseUntil, s => { s with batch := some batch, leaseExpiresAt := some leaseUntil }
  | renew _ leaseUntil, s => { s with leaseExpiresAt := some leaseUntil }
  | record _ result now, s =>
      { s with
        state := result.state, providerMessageId := result.providerMessageId
        errorCode := result.code, leaseExpiresAt := none
        sentAt := if result.state = .sent then some now else none }
  | requeue _, s => { s with batch := none, leaseExpiresAt := none, tries := s.tries + 1 }
  | release _, s => { s with batch := none, leaseExpiresAt := none }
  | cancel, s => { s with state := .failed, errorCode := some cancelledCode }

/-- The statement's `WHERE` clause, less the row's delivery. -/
def Applies : SendUpdate → DirectSend → Prop
  | lease .., s => s.state = .queued
  | renew batch _, s => s.batch = some batch ∧ s.state = .queued ∧ s.leaseExpiresAt.isSome
  | record batch .., s =>
      s.batch = some batch ∧ s.leaseExpiresAt.isSome ∧
        (s.state = .queued ∨ (s.state = .failed ∧ s.errorCode = some cancelledCode))
  | requeue batch, s => s.batch = some batch ∧ s.state = .queued ∧ s.leaseExpiresAt.isSome
  | release batch, s => s.batch = some batch ∧ s.state = .queued
  | cancel, s => s.state = .queued

instance : (u : SendUpdate) → (s : DirectSend) → Decidable (u.Applies s)
  | lease .., _ => inferInstanceAs (Decidable (_ = _))
  | renew .., _ => inferInstanceAs (Decidable (_ ∧ _ ∧ _))
  | record .., _ => inferInstanceAs (Decidable (_ ∧ _ ∧ _))
  | requeue _, _ => inferInstanceAs (Decidable (_ ∧ _ ∧ _))
  | release _, _ => inferInstanceAs (Decidable (_ ∧ _))
  | cancel, _ => inferInstanceAs (Decidable (_ = _))

end SendUpdate

end Postit.Data
