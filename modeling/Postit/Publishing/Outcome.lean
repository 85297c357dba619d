import Postit.Core.Agent
import Postit.Data.Rows

/-!
# What a publish call's result does to its delivery

`map` turns the result of a publish call into the event to apply, the payload columns it writes
and the work that follows.  The random part of a retry's delay is an argument.
-/

namespace Postit.Publishing

open Postit.Data

/-! ## Delays -/

/-- One second. -/
def second : Time := 1000000

/-- The latest time there is. -/
def maxUtc : Time := 8210266876799999999

/-- `now + duration`, saturating. -/
def later (now duration : Time) : Time := min (now + duration) maxUtc

/-- `min(max, base × 2^n)`. -/
def doubled (base : Time) (n : ℕ) (max : Time) : Time := min (base * 2 ^ min n 31) max

/-- The ceiling of the delay before the retry after `attempt` earlier attempts. -/
def retryCeiling (attempt : ℕ) : Time := doubled (30 * second) attempt (30 * 60 * second)

/-- The delay before the retry after `attempt` earlier attempts: whole milliseconds, at least one
and at most the ceiling, as `pick` falls. -/
def retryDelay (pick attempt : ℕ) : Time := 1000 * (1 + pick % (retryCeiling attempt / 1000))

/-- The delay before the status poll after `poll` earlier polls. -/
def pollDelay (poll : ℕ) : Time := doubled (15 * second) poll (15 * 60 * second)

/-- The longest a platform's `Retry-After` may delay a retry. -/
def maxRetryAfter : Time := 24 * 60 * 60 * second

/-! ## The agent's descriptor -/

/-- What a quota bucket is shared by. -/
inductive QuotaScope
  | app
  | account
  deriving DecidableEq, Repr

/-- What each operation costs against a bucket.  An operation that costs nothing does not count. -/
structure QuotaCosts where
  publish : ℕ
  comment : ℕ
  inboxPoll : ℕ := 0
  metrics : ℕ := 0
  deriving DecidableEq, Repr

/-- A quota bucket of a platform.  `period` is the first day of the period that holds a time, and
when the next one starts, in the bucket's own time zone. -/
structure QuotaBucket where
  id : String
  scope : QuotaScope
  period : Time → Time × Time
  defaultLimit : ℕ
  costs : QuotaCosts

/-- What the agent declares about its platform. -/
structure AgentDescriptor where
  platform : PlatformId
  quotaBuckets : List QuotaBucket := []
  supportsNativeSchedule : Bool := false

/-- The next midnight UTC. -/
def nextUtcMidnight (now : Time) : Time :=
  let day := 24 * 60 * 60 * second
  min ((now / day + 1) * day) maxUtc

/-- When the descriptor's bucket next resets, or the next midnight UTC for an unknown one. -/
def bucketReset (descriptor : AgentDescriptor) (bucket : String) (now : Time) : Time :=
  match descriptor.quotaBuckets.find? (·.id = bucket) with
  | some b => (b.period now).2
  | none => nextUtcMidnight now

/-! ## The result, mapped -/

/-- Why a running publish was asked to stop. -/
inductive CancelCause
  | none
  | user
  | shutdown
  -- the sweep or another worker owns the delivery
  | leaseLost
  deriving DecidableEq, Repr

/-- What the worker does after the result is written, in the same transaction. -/
inductive FollowUp
  | none
  | poll (at_ : Time)
  | reconcile
  | redispatch
  | markGrant
  | markAccount
  deriving DecidableEq, Repr

/-- A result mapped onto the delivery. -/
structure Mapped where
  event : DeliveryEvent
  data : TransitionData
  followUp : FollowUp := .none
  deriving DecidableEq, Repr

/-- The error as `last_error` keeps it. -/
def lastError (error : AgentError) : LastError where
  code := error.code
  cls := some error.retryClass.asStr

/-- The payload columns a receipt writes. -/
def receiptData (receipt : PublishReceipt) : TransitionData where
  remoteId := receipt.remoteId
  remoteUrl := receipt.remoteUrl
  remotePublishAt := receipt.remotePublishAt

/-- When to ask again after the error, if the platform said. -/
def retryAfterAt (error : AgentError) (now : Time) : Option Time :=
  match error.retryClass with
  | .retryAfter after => some (later now (min after maxRetryAfter))
  | _ => none

/-- The columns of a failure. -/
def failed (error : AgentError) (countAttempt : Bool) : TransitionData where
  lastError := some (lastError error)
  countAttempt := countAttempt

/-- A failure that is tried again after `delay`, unless it was the last the budget allows. -/
def retry (error : AgentError) (attemptCount maxAttempts : ℕ) (now delay : Time) : Mapped :=
  if maxAttempts ≤ attemptCount + 1 then
    { event := .retryBudgetExhausted, data := failed error true }
  else
    { event := .retryableFailure
      data := { failed error true with nextAttemptAt := some (later now delay) }
      followUp := .redispatch }

/-- Maps a publish result onto the delivery that is `in_flight` after `attemptCount` counted
attempts.  `none` when nothing may be written: the lease was lost and the sweep owns the
delivery. -/
def map (result : Except AgentError PublishOutcome) (attemptCount maxAttempts : ℕ) (now : Time)
    (cancel : CancelCause) (descriptor : AgentDescriptor) (pick : ℕ) : Option Mapped :=
  match result with
  | .ok (.published receipt) => some { event := .published, data := receiptData receipt }
  | .ok (.processing receipt) =>
      let firstPoll := later now (pollDelay 0)
      let at_ := receipt.remotePublishAt.elim firstPoll (max · firstPoll)
      some {
        event := .accepted
        -- the first poll's time is the chain's backstop
        data := { receiptData receipt with checkDueAt := some at_ }
        followUp := .poll at_ }
  | .ok .simulated => some { event := .simulated, data := {} }
  | .error error =>
      match error.retryClass with
      | .retryable => some (retry error attemptCount maxAttempts now (retryDelay pick attemptCount))
      | .retryAfter after => some (retry error attemptCount maxAttempts now (min after maxRetryAfter))
      | .permanent => some { event := .permanentFailure, data := failed error false }
      | .needsReconnect => some {
          event := .park .accountNeedsReconnect
          data := failed error false
          followUp := if error = .accountUnreachable then .markAccount else .markGrant }
      | .quotaExceeded =>
          let parkedUntil := match error with
            | .quota _ (some at_) => at_
            | .quota bucket none => bucketReset descriptor bucket now
            | _ => nextUtcMidnight now
          some {
            event := .park .quotaExceeded
            data := { failed error false with parkedUntil := some parkedUntil } }
      | .ambiguous => some { event := .ambiguous, data := failed error true, followUp := .reconcile }
      | .cancelled =>
          match cancel with
          | .leaseLost => none
          | .user => some { event := .cancel, data := {} }
          | .shutdown => some { event := .shutdown, data := {}, followUp := .redispatch }
          -- the agent stopped without being asked
          | .none =>
              some (retry error attemptCount maxAttempts now (retryDelay pick attemptCount))

end Postit.Publishing
