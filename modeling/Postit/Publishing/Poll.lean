import Postit.Publishing.Worker

/-!
# Polls and reconcile rounds

`runPoll` asks the platform whether a `processing` delivery is live yet, and `runReconcile` finds
out whether an ambiguous publish landed.  Each run is one step of the delivery's chain: it proceeds
only when it takes the step its job carries, which it commits, with the time its successor is due,
before it asks the platform.
-/

namespace Postit.Publishing

open Postit.Framework Postit.Data

/-! ## Polls -/

namespace Poll

/-- Whether the delivery has been `processing` for longer than the timeout. -/
def timedOut (target : CheckTarget) (timeout now : Time) : Bool :=
  (target.remotePublishAt <|> target.attemptStartedAt).any fun since => later since timeout ≤ now

/-- The platform's answer about the delivery's receipt; `none` when it cannot be asked now. -/
def ask (target : CheckTarget) (fence : Fence) (poll : ℕ) :
    Handler (Option (Except AgentError PublishOutcome)) := do
  if ← (look (.snapshotHasVariant target.delivery) >>= orRetry) then
    match ← look (.boundClient target.delivery.ownerId target.delivery.accountId) with
    | .error _ => pure none
    | .ok _ => some <$> inquire fence poll (.status target)
  else pure none

/-- `Published` with the platform's receipt; a stale fence hands it to `lateReceipt`. -/
def publish (target : CheckTarget) (fence : Fence) (receipt : PublishReceipt) : Handler Unit := do
  let now ← look .now
  commit do
    match ← op (.apply fence .published (receiptData receipt) now) with
    | .done .. => pure ()
    | .stale => Worker.lateReceipt target.delivery receipt now

/-- `PermanentFailure` with the error's code and class. -/
def fail (fence : Fence) (error : AgentError) : Handler Unit := do
  let now ← look .now
  let _ ← call (.apply fence .permanentFailure { lastError := some (lastError error) } now)

/-- `ProcessingTimeout` into `outcome_unknown`, counting an attempt, and the first reconcile round
at once. -/
def timeOut (target : CheckTarget) (fence : Fence) (now : Time) : Handler Unit :=
  commit do
    match ← op (.apply fence .processingTimeout
        { lastError := some { code := "processing_timeout", cls := some "ambiguous" }
          countAttempt := true } now) with
    | .done .. =>
        enqueue (.reconcileDelivery target.delivery.id target.delivery.dispatchGen 0) now
    | .stale => pure ()

/-- What the platform's answer leads to. -/
def answered (target : CheckTarget) (fence : Fence) (next : ℕ) (nextDue : Time) :
    Option (Except AgentError PublishOutcome) → Handler Unit
  | some (.ok (.published receipt)) => publish target fence receipt
  | some (.error error) =>
      if error.retryClass = .permanent then fail fence error
      else do
        let now ← look .now
        commit (Worker.enqueueSuccessor fence next (successor target next) nextDue
          (retryAfterAt error now))
  | _ => commit (Worker.enqueueSuccessor fence next (successor target next) nextDue none)
where
  successor (target : CheckTarget) (next : ℕ) : Job :=
    .pollDeliveryStatus target.delivery.id target.delivery.dispatchGen next

/-- One poll of a delivery that is still to be polled. -/
def poll (cfg : Settings) (target : CheckTarget) (poll : ℕ) (now : Time) : Handler Unit :=
  let claimed := target.delivery
  let fence := Worker.fence claimed .processing
  if timedOut target cfg.processingTimeout now then timeOut target fence now
  else
    let next := poll + 1
    match target.remotePublishAt.filter (now < ·) with
    -- a natively scheduled upload: there is nothing to ask before it goes live
    | some liveAt => commit do
        if ← op (.takeCheck fence poll liveAt) then
          enqueue (.pollDeliveryStatus claimed.id claimed.dispatchGen next) liveAt
        else pure ()
    | none => do
        let nextDue := later now (pollDelay next)
        if ← Worker.takeCheck fence poll nextDue then
          let asked ← ask target fence poll
          answered target fence next nextDue asked
        else pure ()

end Poll

/-- Runs one `poll_delivery_status` job. -/
def runPoll (cfg : Settings) (delivery : DeliveryId) (dispatchGen poll : ℕ) : Handler Unit := do
  let now ← look .now
  match ← Worker.checkTarget delivery with
  | none => pure ()
  | some target =>
      if target.state ≠ .processing ∨ target.delivery.dispatchGen ≠ dispatchGen ∨
          target.delivery.operation = .direct then pure ()
      else Poll.poll cfg target poll now

/-! ## Reconcile rounds -/

namespace Reconcile

/-- What a reconcile round decided. -/
inductive Verdict
  | found (receipt : PublishReceipt)
  | absent
  | unresolvable
  -- ask again later: at the platform's time when it gave one
  | retry (at_ : Option Time)
  deriving DecidableEq, Repr

/-- The agent's answer; `none` when it cannot be asked now.  A comment whose agent has no commenter
is answered `Unsupported` without asking. -/
def ask (target : CheckTarget) (fence : Fence) (attempt : ℕ) (attemptedAt : Time) :
    Handler (Option (Except AgentError ReconcileOutcome)) := do
  if ← (look (.snapshotHasVariant target.delivery) >>= orRetry) then
    match ← look (.boundClient target.delivery.ownerId target.delivery.accountId) with
    | .error _ => pure none
    | .ok bound =>
        if target.delivery.operation = .comment ∧ !bound.commenter then
          pure (some (.error .unsupported))
        else some <$> inquire fence attempt (.reconcile target attemptedAt)
  else pure none

/-- The verdict of an answer. -/
def verdict (cfg : Settings) (target : CheckTarget) (attemptedAt now : Time) :
    Option (Except AgentError ReconcileOutcome) → Verdict
  | some (.ok (.found receipt)) => .found receipt
  | some (.ok .absent) => .absent
  | some (.ok .unresolvable) => .unresolvable
  | failed =>
      if failed.any fun r => match r with
          | .error error => error.retryClass = .permanent
          | .ok _ => false then .unresolvable
      else if later (max target.stateSince attemptedAt) cfg.processingTimeout ≤ now then
        .unresolvable
      else
        match failed with
        | some (.error error) => .retry (retryAfterAt error now)
        | _ => .retry none

/-- Writes the verdict under the fence, with its follow-up job. -/
def settle (cfg : Settings) (target : CheckTarget) (fence : Fence) (verdict : Verdict)
    (next : ℕ) (nextDue now : Time) : Handler Unit := do
  let claimed := target.delivery
  let pick ← look .random
  commit do
    match verdict with
    | .found receipt =>
        match ← op (.apply fence .reconcileFound (receiptData receipt) now) with
        | .done .. => pure ()
        | .stale => Worker.lateReceipt claimed receipt now
    | .absent =>
        -- `Absent` proves nothing went out, so ending is safe once the budget is spent
        let applied ←
          if cfg.maxAttempts ≤ claimed.attemptCount then
            op (.apply fence .retryBudgetExhausted {} now)
          else
            op (.apply fence .reconcileAbsent
              { nextAttemptAt := some (later now (retryDelay pick claimed.attemptCount)) } now)
        match applied with
        | .done _ redispatch _ => Worker.enqueueRedispatch redispatch
        | .stale => pure ()
    | .unresolvable => do
        let _ ← op (.apply fence .reconcileUnresolvable {} now)
    | .retry retryAt =>
        Worker.enqueueSuccessor fence next
          (.reconcileDelivery claimed.id claimed.dispatchGen next) nextDue retryAt

/-- One round of a delivery whose outcome is unknown. -/
def round (cfg : Settings) (target : CheckTarget) (attempt : ℕ) (now : Time) : Handler Unit := do
  let fence := Worker.fence target.delivery .outcomeUnknown
  let next := attempt + 1
  let nextDue := later now (pollDelay next)
  if ← Worker.takeCheck fence attempt nextDue then
    let attemptedAt := target.attemptStartedAt.getD now
    -- a direct delivery sends nothing before it reaches `processing`
    if target.delivery.operation = .direct then
      settle cfg target fence .absent next nextDue now
    else
      let asked ← ask target fence attempt attemptedAt
      let now ← look .now
      settle cfg target fence (verdict cfg target attemptedAt now asked) next nextDue now
  else pure ()

end Reconcile

/-- Runs one `reconcile_delivery` job. -/
def runReconcile (cfg : Settings) (delivery : DeliveryId) (dispatchGen attempt : ℕ) :
    Handler Unit := do
  let now ← look .now
  match ← Worker.checkTarget delivery with
  | none => pure ()
  | some target =>
      if target.state ≠ .outcomeUnknown ∨ target.delivery.dispatchGen ≠ dispatchGen then pure ()
      else Reconcile.round cfg target attempt now

end Postit.Publishing
