import Postit.Publishing.Engine

/-!
# What the handlers share

The checks before a send, and the fenced writes of the worker and of the chains of polls and
reconcile rounds.
-/

namespace Postit.Publishing

open Postit.Framework Postit.Data

/-- The value, or a retry of the job when there is none. -/
def orNotFound {α : Type} : Option α → Handler α := Prog.orFail .retry

/-! ## Pre-send checks -/

/-- Why a claimed delivery must wait, if it must.  Dry runs skip only the last check. -/
def parkReason (claimed : ClaimedDelivery) (ownerActive : Bool) (account : AccountStatus)
    (available : Availability) (liveSwitch : Bool) : Option ParkReason :=
  if !ownerActive then some .ownerDisabled
  else if account ≠ .active then some .accountNeedsReconnect
  else if available = .notCompiledIn then some .platformUnavailable
  else if available = .disabled then some .platformDisabled
  else if !claimed.dryRun && !liveSwitch then some .livePublishDisabled
  else none

/-- The platform's availability as this build sees it. -/
def availability (cfg : Settings) (platform : PlatformId) : Handler Availability :=
  if platform ∈ cfg.compiledPlatforms then look (.availability platform) >>= orRetry
  else pure .notCompiledIn

/-- What the checks before a send find: why the delivery must wait, and the platform's
availability. -/
def preSendChecks (cfg : Settings) (claimed : ClaimedDelivery) :
    Handler (Option ParkReason × Availability) := do
  let account ← (call (.getAccount claimed.ownerId claimed.accountId) >>= orNotFound)
  let available ← availability cfg account.platformId
  let live ← call .livePublishing
  let owner ← (call (.userActive claimed.ownerId) >>= orNotFound)
  let again ← (call (.getAccount claimed.ownerId claimed.accountId) >>= orNotFound)
  pure (parkReason claimed owner again.status available (live.getD false), available)

/-- What a failed binding does to a claimed delivery. -/
inductive Unbound
  | park (reason : ParkReason)
  | fail (code : String)
  -- a database failure: the lease runs out and the sweep hands the delivery on
  | retry
  deriving DecidableEq, Repr

/-- Every persistent failure to bind ends the claim. -/
def unbound : AccountError → Unbound
  | .data => .retry
  | .credentialsInvalid => .park .accountNeedsReconnect
  | .platformDisabled => .park .platformDisabled
  | .accountDisconnected => .fail "account_disconnected"
  | .platformUnavailable | .platformNotFound => .fail "platform_unavailable"
  | .other => .fail "account_unusable"

/-! ## Fenced writes -/

namespace Worker

/-- The fence of a delivery as the job read it, in the state the job expects. -/
def fence (claimed : ClaimedDelivery) (expected : DeliveryState) : Fence where
  id := claimed.id
  dispatchGen := claimed.dispatchGen
  expected := expected

/-- The `last_error` of a delivery whose account's agent lacks the operation's capability. -/
def capabilityUnsupported : LastError where
  code := "capability_unsupported"
  cls := some "permanent"

/-- Parks the claimed delivery. -/
def park (claimed : ClaimedDelivery) (reason : ParkReason) (parkedUntil : Option Time)
    (now : Time) : Handler Unit := do
  let _ ← call (.apply (fence claimed .claimed) (.park reason)
    { lastError := some { code := reason.asStr }, parkedUntil } now)

/-- Ends the claimed delivery as `failed`. -/
def fail (claimed : ClaimedDelivery) (lastError : LastError) (now : Time) : Handler Unit := do
  let _ ← call (.apply (fence claimed .claimed) .revalidationFailed
    { lastError := some lastError } now)

/-- `StartRemote` and the attempt's row, in one transaction.  `false` when the fence is stale. -/
def startRemote (claimed : ClaimedDelivery) (attempt : DeliveryAttemptId) (now : Time) :
    Handler Bool :=
  commit do
    match ← op (.apply (fence claimed .claimed) .startRemote {} now) with
    | .stale => pure false
    | .done .. => do
        op (.startAttempt attempt claimed.id now)
        pure true

/-- A success receipt whose writer found its fence stale. -/
def lateReceipt (claimed : ClaimedDelivery) (receipt : PublishReceipt) (now : Time) :
    Script Unit :=
  match receipt.remoteId with
  | none => pure ()
  | some remoteId => do
      let _ ← op (.recordLateReceipt claimed.id ⟨remoteId, receipt.remoteUrl⟩ now)

/-- The delivery as a poll or reconcile job sees it. -/
def checkTarget (id : DeliveryId) : Handler (Option CheckTarget) := call (.checkTarget id)

/-- Takes a step of the delivery's chain, committed before any platform call. -/
def takeCheck (fence : Fence) (seq : ℕ) (nextDue : Time) : Handler Bool :=
  call (.takeCheck fence seq nextDue)

/-- Enqueues the chain's next step at `at_`, or at the platform's `retryAt`, which then moves the
backstop.  Nothing is enqueued when the backstop cannot move. -/
def enqueueSuccessor (fence : Fence) (seq : ℕ) (job : Job) (at_ : Time) (retryAt : Option Time) :
    Script Unit :=
  match retryAt with
  | none => enqueue job at_
  | some later => do
      if ← op (.setCheckDue fence seq later) then enqueue job later else pure ()

/-- Enqueues a delivery's next run, where a write sent it back to `pending`. -/
def enqueueRedispatch : Option Dispatch → Script Unit
  | some dispatch => enqueue (.ofDispatch dispatch) dispatch.runAt
  | none => pure ()

end Worker

end Postit.Publishing
