import Postit.Data.Operations
import Postit.Publishing.Outcome

/-!
# What a job's handler does

A handler is a program over `Call`: it commits transactions, reads the clock, draws random numbers,
and asks the platform's agent and the rest of the system, any of which may answer anything.  A
transaction is a `Script`: repository operations and jobs to enqueue, all or nothing.

Notices, audit events, marks on accounts and their grants, and the quota a publish reserves and
gives back touch no table that a delivery's life depends on, and are left out; the transactions
that write them may fail for that reason like for any other.
-/

namespace Postit.Publishing

open Postit.Framework Postit.Data

/-! ## Jobs and settings -/

/-- A job of the queue. -/
inductive Job
  | publishDelivery (delivery : DeliveryId) (dispatchGen : ℕ)
  | pollDeliveryStatus (delivery : DeliveryId) (dispatchGen poll : ℕ)
  | reconcileDelivery (delivery : DeliveryId) (dispatchGen attempt : ℕ)
  | directSendBatch (delivery : DeliveryId) (dispatchGen : ℕ)
  | deliveryDueSweep
  deriving DecidableEq, Repr

/-- The job that carries a dispatch. -/
def Job.ofDispatch (dispatch : Dispatch) : Job :=
  .publishDelivery dispatch.delivery dispatch.dispatchGen

/-- The deployment's settings, with the calendar: the local day holding a time in a zone, and when
the next one starts. -/
structure Settings where
  lease : Time
  maxAttempts : ℕ
  processingTimeout : Time
  sweepGrace : Time
  parkGrace : Time
  emailBatchSize : ℕ
  compiledPlatforms : List PlatformId
  localDay : String → Time → Time × Time

/-- Why a job ended without being done. -/
inductive JobError
  | retry
  | fatal
  deriving DecidableEq, Repr

/-! ## What the rest of the system answers -/

/-- A platform's availability. -/
inductive Availability
  | available
  | notCompiledIn
  | disabled
  | notConfigured
  deriving DecidableEq, Repr

/-- Why no client could be bound to an account. -/
inductive AccountError
  | data
  | credentialsInvalid
  | platformDisabled
  | accountDisconnected
  | platformUnavailable
  | platformNotFound
  | other
  deriving DecidableEq, Repr

/-- A client bound to an account: what its agent declares and can do. -/
structure BoundClient where
  descriptor : AgentDescriptor
  commenter : Bool
  direct : Bool

/-- What reserving the quota of one publish found. -/
inductive Reservation
  | reserved
  -- a bucket is used up until then
  | exhausted (retryAt : Time)

/-! ## Transactions -/

/-- What a transaction does: an operation, or a job enqueued with it. -/
inductive Act : Type → Type 1
  | op {β : Type} (o : Op β) : Act β
  | enqueue (job : Job) (at_ : Time) : Act Unit

/-- A transaction. -/
abbrev Script (α : Type) := Prog Act DataError α

/-- What is on record of a run of the engine. -/
inductive Obs
  | did (e : Event)
  | enqueued (job : Job) (at_ : Time)
  -- the platform was asked, at a step of a delivery's chain
  | asked (fence : Fence) (seq : ℕ)

/-- A transaction that is under way. -/
structure Draft where
  db : Db
  record : List Obs := []

/-- One action of a transaction. -/
def Act.run {β : Type} : Act β → Draft → Except DataError (β × Draft)
  | .op o, s =>
      match o.tx.run s.db with
      | .ok (value, db) => .ok (value, ⟨db, s.record ++ [.did (.did o value)]⟩)
      | .error e => .error e
  | .enqueue job at_, s => .ok ((), ⟨s.db, s.record ++ [.enqueued job at_]⟩)

/-- Runs the transaction. -/
def Script.run {α : Type} (script : Script α) (s : Draft) : Except DataError (α × Draft) :=
  Prog.run Act.run script s

/-- An operation, in a transaction. -/
def op {β : Type} (o : Op β) : Script β := Prog.perform (.op o)

/-- A job, enqueued in a transaction. -/
def enqueue (job : Job) (at_ : Time) : Script Unit := Prog.perform (.enqueue job at_)

/-! ## Calls -/

/-- What a handler reads elsewhere, by what it is answered. -/
inductive Look : Type → Type
  | now : Look Time
  | random : Look ℕ
  | generate : Look ℕ
  -- whether the server's shutdown has begun
  | stopping : Look Bool
  | availability (platform : PlatformId) : Look (Except AccountError Availability)
  | boundClient (owner : UserId) (account : AccountId) : Look (Except AccountError BoundClient)
  | reserveQuota (claimed : ClaimedDelivery) : Look (Except DataError Reservation)
  -- assembles the post and checks it again; for a direct delivery with its audience
  | revalidate (claimed : ClaimedDelivery) :
      Look (Except DataError (Except LastError (Option Audience)))
  | snapshotHasVariant (claimed : ClaimedDelivery) : Look (Except DataError Bool)
  | publish (claimed : ClaimedDelivery) (nativePublishAt : Option Time) :
      Look (Except AgentError PublishOutcome)
  -- why the running publish was asked to stop
  | cause (claimed : ClaimedDelivery) : Look CancelCause
  -- the message of a direct delivery, or why it can no longer be built
  | message (claimed : ClaimedDelivery) : Look (Except DataError (Except LastError Unit))
  | emailDailyCap (owner : UserId) : Look (Except DataError ℕ)
  | timezone (owner : UserId) : Look (Except DataError String)
  | sendBatch (claimed : ClaimedDelivery) (batch : DirectBatchId)
      (recipients : List DirectSendId) :
      Look (Except AgentError (List (DirectSendId × DirectSendOutcome)))

/-- What a check asks the platform. -/
inductive Inquiry : Type → Type
  | status (target : CheckTarget) : Inquiry (Except AgentError PublishOutcome)
  | reconcile (target : CheckTarget) (attemptedAt : Time) :
      Inquiry (Except AgentError ReconcileOutcome)

/-- What a handler does. -/
inductive Call : Type → Type 1
  | commit {α : Type} (script : Script α) : Call (Except DataError α)
  | look {β : Type} (q : Look β) : Call β
  -- at a step of a delivery's chain
  | inquire {β : Type} (fence : Fence) (seq : ℕ) (q : Inquiry β) : Call β

/-- A handler, or a part of one. -/
abbrev Handler (α : Type) := Prog Call JobError α

/-- Reads something elsewhere. -/
def look {β : Type} (q : Look β) : Handler β := Prog.perform (.look q)

/-- Asks the platform. -/
def inquire {β : Type} (fence : Fence) (seq : ℕ) (q : Inquiry β) : Handler β :=
  Prog.perform (.inquire fence seq q)

/-- The answer, or a retry of the job when there is none. -/
def orRetry {ε α : Type} : Except ε α → Handler α
  | .ok a => Prog.done a
  | .error _ => Prog.fail .retry

/-- Commits a transaction. -/
def commit {α : Type} (script : Script α) : Handler α :=
  Prog.perform (.commit script) >>= orRetry

/-- One operation as a transaction of its own. -/
def call {β : Type} (o : Op β) : Handler β := commit (op o)

/-! ## What calls do -/

/-- What a call may be answered, and do.  A transaction may fail without a trace, and one that
succeeded may be reported as failed. -/
inductive Answers : ∀ {β : Type}, Db → Call β → β → Db → List Obs → Prop
  | committed {db : Db} {α : Type} {script : Script α} {a : α} {s : Draft}
      (h : script.run ⟨db, []⟩ = .ok (a, s)) : Answers db (.commit script) (.ok a) s.db s.record
  | failed {db : Db} {α : Type} {script : Script α} {e : DataError} :
      Answers db (.commit script) (.error e) db []
  | unreported {db : Db} {α : Type} {script : Script α} {a : α} {s : Draft} {e : DataError}
      (h : script.run ⟨db, []⟩ = .ok (a, s)) :
      Answers db (.commit script) (.error e) s.db s.record
  | looked {db : Db} {β : Type} {q : Look β} {b : β} : Answers db (.look q) b db []
  | inquired {db : Db} {β : Type} {fence : Fence} {seq : ℕ} {q : Inquiry β} {b : β} :
      Answers db (.inquire fence seq q) b db [.asked fence seq]

end Postit.Publishing
