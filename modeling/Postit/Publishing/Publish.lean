import Postit.Publishing.Poll

/-!
# Publishing a delivery

`runPublish` is the handler of a `publish_delivery` job.  It claims the delivery, checks it, takes
its quota and validates its post again, then calls the platform and writes what came back under the
delivery's fence.  A direct delivery goes out in batches instead: its audience is queued, and the
first batch with it.
-/

namespace Postit.Publishing

open Postit.Framework Postit.Data

/-! ## Direct deliveries -/

namespace Direct

/-- Starts a claimed direct delivery that passed its checks: a dry run counts the audience and ends,
a live one queues it. -/
def start (claimed : ClaimedDelivery) (bound : BoundClient) (audience : Audience) :
    Handler Unit := do
  if !bound.direct then
    let now ← look .now
    Worker.fail claimed Worker.capabilityUnsupported now
  else
    let attempt ← look .generate
    let now ← look .now
    if ← Worker.startRemote claimed attempt now then
      if claimed.dryRun then
        let _ ← call (.audienceCount claimed.ownerId audience)
        let now ← look .now
        commit do
          op (.finishAttempt attempt "simulated" now)
          let _ ← op (.apply (Worker.fence claimed .inFlight) .simulated {} now)
      else
        let now ← look .now
        let started ← Prog.perform (.commit do
          let _ ← op (.startCampaign claimed audience attempt now)
          enqueue (.directSendBatch claimed.id claimed.dispatchGen) now)
        match started with
        | .ok _ => pure ()
        -- the fence was stale, and the audience is not queued either
        | .error .dropped => pure ()
        | .error _ => Prog.fail .retry
    else pure ()

end Direct

/-! ## Before the call -/

namespace Worker

/-- A claimed delivery that passed every check. -/
structure Prepared where
  claimed : ClaimedDelivery
  bound : BoundClient
  audience : Option Audience

def platformUnavailable : LastError where
  code := "platform_unavailable"

/-- Takes the quota the delivery's operation spends.  `false` when a bucket is used up: the delivery
is parked until it resets. -/
def reserveQuota (claimed : ClaimedDelivery) (now : Time) : Handler Bool :=
  -- direct sends count against their own daily cap
  if claimed.operation = .direct then pure true
  else do
    match ← (look (.reserveQuota claimed) >>= orRetry) with
    | .reserved => pure true
    | .exhausted retryAt => do
        park claimed .quotaExceeded (some retryAt) now
        pure false

/-- Claims and checks the delivery. -/
def prepare (cfg : Settings) (delivery : DeliveryId) (dispatchGen : ℕ) :
    Handler (Option Prepared) := do
  if ← look .stopping then pure none
  else
    let now ← look .now
    match ← call (.claim delivery dispatchGen now cfg.lease) with
    | none => pure none
    | some claimed => do
        let checked ← preSendChecks cfg claimed
        match checked.1 with
        | some reason => do
            park claimed reason none now
            pure none
        | none =>
            if checked.2 = .notConfigured then do
              fail claimed platformUnavailable now
              pure none
            else do
              match ← look (.boundClient claimed.ownerId claimed.accountId) with
              | .error error =>
                  match unbound error with
                  | .park reason => do
                      park claimed reason none now
                      pure none
                  | .fail code => do
                      fail claimed { code } now
                      pure none
                  | .retry => Prog.fail .retry
              | .ok bound => do
                  if ← reserveQuota claimed now then
                    match ← (look (.revalidate claimed) >>= orRetry) with
                    | .ok audience => pure (some ⟨claimed, bound, audience⟩)
                    | .error error => do
                        fail claimed error now
                        pure none
                  else pure none

/-! ## The call -/

/-- What a claimed delivery does about the job's native schedule. -/
inductive NativeTime
  | publish (at_ : Option Time)
  -- back to `pending` until then
  | retime (at_ : Time)

/-- When the platform should publish the post, where the job schedules on the platform and was
scheduled for `scheduledAt`. -/
def nativePublishAt (claimed : ClaimedDelivery) (bound : BoundClient) (scheduledAt : Option Time) :
    Handler NativeTime :=
  if !claimed.nativeSchedule then pure (.publish none)
  else do
    let at_ ← orNotFound scheduledAt
    if bound.descriptor.supportsNativeSchedule then pure (.publish (some at_))
    else do
      let now ← look .now
      pure (if now < at_ then .retime at_ else .publish none)

/-- Sends the claimed delivery back to `pending`, with nothing sent. -/
def retime (claimed : ClaimedDelivery) (at_ : Time) : Handler Unit := do
  let now ← look .now
  commit do
    match ← op (.apply (fence claimed .claimed) .shutdown { nextAttemptAt := some at_ } now) with
    | .done _ redispatch _ => enqueueRedispatch redispatch
    | .stale => pure ()

/-- What the call returned, or that the agent lacks the operation's capability. -/
inductive Called
  | agent (result : Except AgentError PublishOutcome)
  | unsupported

def callAgent (claimed : ClaimedDelivery) (bound : BoundClient) (nativePublishAt : Option Time) :
    Handler Called :=
  if claimed.operation = .comment ∧ !bound.commenter then pure .unsupported
  else Called.agent <$> look (.publish claimed nativePublishAt)

/-! ## After the call -/

/-- The outcome in the attempt's row. -/
def outcomeName : Called → String
  | .unsupported => "permanent"
  | .agent (.ok (.published _)) => "published"
  | .agent (.ok (.processing _)) => "processing"
  | .agent (.ok .simulated) => "simulated"
  | .agent (.error error) => error.retryClass.asStr

def mapCalled (cfg : Settings) (claimed : ClaimedDelivery) (bound : BoundClient) (called : Called)
    (cause : CancelCause) (now : Time) (pick : ℕ) : Option Mapped :=
  match called with
  | .agent result =>
      map result claimed.attemptCount cfg.maxAttempts now cause bound.descriptor pick
  | .unsupported =>
      some { event := .permanentFailure, data := { lastError := some capabilityUnsupported } }

/-- The work that follows a write that landed. -/
def afterWrite (claimed : ClaimedDelivery) (followUp : FollowUp) (redispatch : Option Dispatch)
    (now : Time) : Script Unit := do
  enqueueRedispatch redispatch
  match followUp with
  | .poll at_ => enqueue (.pollDeliveryStatus claimed.id claimed.dispatchGen 0) at_
  | .reconcile => enqueue (.reconcileDelivery claimed.id claimed.dispatchGen 0) now
  | .none | .redispatch | .markGrant | .markAccount => pure ()

/-- A stale fence keeps a receipt of a post that is live, and nothing else. -/
def afterStale (claimed : ClaimedDelivery) (called : Called) (now : Time) : Script Unit :=
  match called with
  | .agent (.ok (.published receipt)) => lateReceipt claimed receipt now
  | _ => pure ()

/-- Ends the attempt and writes the result, with the work that follows. -/
def record (cfg : Settings) (claimed : ClaimedDelivery) (bound : BoundClient)
    (attempt : DeliveryAttemptId) (called : Called) (cause : CancelCause) : Handler Unit := do
  let now ← look .now
  let pick ← look .random
  commit do
    op (.finishAttempt attempt (outcomeName called) now)
    match mapCalled cfg claimed bound called cause now pick with
    -- the sweep owns the delivery
    | none => pure ()
    | some mapped =>
        match ← op (.apply (fence claimed .inFlight) mapped.event mapped.data now) with
        | .done _ redispatch _ => afterWrite claimed mapped.followUp redispatch now
        | .stale => afterStale claimed called now

/-- Moves the prepared delivery to `in_flight`, calls the platform and writes the result. -/
def publish (cfg : Settings) (prepared : Prepared) (scheduledAt : Option Time) : Handler Unit :=
  let claimed := prepared.claimed
  let bound := prepared.bound
  if claimed.operation = .direct then
    Direct.start claimed bound (prepared.audience.getD ⟨[], []⟩)
  else do
    match ← nativePublishAt claimed bound scheduledAt with
    | .retime at_ => retime claimed at_
    | .publish at_ => do
        let attempt ← look .generate
        let now ← look .now
        if ← startRemote claimed attempt now then
          let called ← callAgent claimed bound at_
          let cause ← look (.cause claimed)
          record cfg claimed bound attempt called cause
        else pure ()

end Worker

/-- Runs one `publish_delivery` job.  `scheduledAt` is what reading the time of the delivery's job
finds, if it is read. -/
def runPublish (cfg : Settings) (delivery : DeliveryId) (dispatchGen : ℕ)
    (scheduledAt : Option Time) : Handler Unit := do
  match ← Worker.prepare cfg delivery dispatchGen with
  | none => pure ()
  | some prepared => Worker.publish cfg prepared scheduledAt

end Postit.Publishing
