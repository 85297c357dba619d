import Mathlib.Algebra.Group.Int.Defs
import Mathlib.Algebra.GroupWithZero.Nat
import Mathlib.Data.List.Basic
import Mathlib.Order.Defs.LinearOrder

/-!
# The life of one delivery, and the status of the job it belongs to

A delivery is one post going to one account.  `transition` is the only place that decides
whether a delivery may move from one state to another: the data layer stores what it
returns with a fenced write, and nothing else changes a delivery's state.  A publish job's
status is not decided anywhere; `deriveJobStatus` reads it off the states of the job's
deliveries.

The database stores a state as two columns, a name and, apart from it, the reason of a
parked delivery.  `StateName` is the first column, `DeliveryState.asStr` and
`parkedReason` write the pair, and `DeliveryState.fromParts` reads it back, refusing a
parked row without a reason and a reason on any other row.
-/

namespace Postit

/-- A point in time, in microseconds; the database and the clock agree on the unit. -/
abbrev Time := Int

/-- Why a delivery is waiting for something outside the engine. -/
inductive ParkReason
  | ownerDisabled
  | accountNeedsReconnect
  | platformUnavailable
  | platformDisabled
  | livePublishDisabled
  | quotaExceeded
  | outcomeUnresolvable
  deriving DecidableEq, Repr

/-- The reason's name as stored in the database. -/
def ParkReason.asStr : ParkReason → String
  | .ownerDisabled => "owner_disabled"
  | .accountNeedsReconnect => "account_needs_reconnect"
  | .platformUnavailable => "platform_unavailable"
  | .platformDisabled => "platform_disabled"
  | .livePublishDisabled => "live_publish_disabled"
  | .quotaExceeded => "quota_exceeded"
  | .outcomeUnresolvable => "outcome_unresolvable"

/-- Where a delivery is in its life. -/
inductive DeliveryState
  -- waiting for its time or a worker
  | pending
  | claimed
  | inFlight
  | processing
  | outcomeUnknown
  | parked (reason : ParkReason)
  | published
  | failed
  | deadLetter
  | cancelled
  | simulated
  deriving DecidableEq, Repr

/-- The state column of a delivery row: the name of a state, a parked one's reason apart. -/
inductive StateName
  | pending
  | claimed
  | inFlight
  | processing
  | outcomeUnknown
  | parked
  | published
  | failed
  | deadLetter
  | cancelled
  | simulated
  deriving DecidableEq, Repr

namespace DeliveryState

/-- Whether no automatic transition leaves this state. -/
def isTerminal : DeliveryState → Bool
  | published | failed | deadLetter | cancelled | simulated => true
  | _ => false

/-- The state's name as stored in the database. -/
def asStr : DeliveryState → StateName
  | pending => .pending
  | claimed => .claimed
  | inFlight => .inFlight
  | processing => .processing
  | outcomeUnknown => .outcomeUnknown
  | parked _ => .parked
  | published => .published
  | failed => .failed
  | deadLetter => .deadLetter
  | cancelled => .cancelled
  | simulated => .simulated

end DeliveryState

/-- Whether a state of this name is terminal. -/
def StateName.isTerminal : StateName → Bool
  | .published | .failed | .deadLetter | .cancelled | .simulated => true
  | _ => false

@[simp] lemma DeliveryState.isTerminal_asStr (s : DeliveryState) :
    s.asStr.isTerminal = s.isTerminal := by
  cases s <;> rfl

/-- The `parked_reason` column of a state. -/
def parkedReason : DeliveryState → Option ParkReason
  | .parked reason => some reason
  | _ => none

/-- What a stored state could not be read as. -/
inductive ParseEnumError
  | deliveryState (name : StateName)
  | parkReason (reason : ParkReason)
  deriving DecidableEq, Repr

/-- Rebuilds a state from its stored name and parked reason.  A parked state needs a reason,
and no other state may carry one. -/
def DeliveryState.fromParts (name : StateName) (reason : Option ParkReason) :
    Except ParseEnumError DeliveryState :=
  match name, reason with
  | .parked, none => .error (.deliveryState .parked)
  | .parked, some r => .ok (.parked r)
  | _, some r => .error (.parkReason r)
  | .pending, none => .ok .pending
  | .claimed, none => .ok .claimed
  | .inFlight, none => .ok .inFlight
  | .processing, none => .ok .processing
  | .outcomeUnknown, none => .ok .outcomeUnknown
  | .published, none => .ok .published
  | .failed, none => .ok .failed
  | .deadLetter, none => .ok .deadLetter
  | .cancelled, none => .ok .cancelled
  | .simulated, none => .ok .simulated

/-- What is stored for a state reads back as that state. -/
@[simp] lemma DeliveryState.fromParts_asStr (s : DeliveryState) :
    DeliveryState.fromParts s.asStr (parkedReason s) = .ok s := by
  cases s <;> rfl

/-- Conversely, whatever reads back as a state is what is stored for it. -/
lemma DeliveryState.fromParts_eq_ok {name : StateName} {reason : Option ParkReason}
    {s : DeliveryState} :
    DeliveryState.fromParts name reason = .ok s ↔ name = s.asStr ∧ reason = parkedReason s := by
  constructor
  · cases name <;> cases reason <;> simp only [fromParts, reduceCtorEq, Except.ok.injEq,
      false_implies] <;> rintro rfl <;> exact ⟨rfl, rfl⟩
  · rintro ⟨rfl, rfl⟩
    exact fromParts_asStr s

/-- How a user settles a delivery whose outcome nobody can verify. -/
inductive ResolvedOutcome
  | published
  | failed
  deriving DecidableEq, Repr

/-- The state a resolved delivery ends in. -/
def ResolvedOutcome.into : ResolvedOutcome → DeliveryState
  | .published => .published
  | .failed => .failed

/-- Something that happened to a delivery. -/
inductive DeliveryEvent
  | claim
  | cancel
  | startRemote
  | park (reason : ParkReason)
  | revalidationFailed
  | leaseExpired
  | published
  | accepted
  | retryableFailure
  | shutdown
  | retryBudgetExhausted
  | permanentFailure
  | ambiguous
  | simulated
  | processingTimeout
  | reconcileFound
  | reconcileAbsent
  | reconcileUnresolvable
  | unpark
  -- `acknowledged`: the user chose to risk a duplicate of a post that may already be live
  | userRetry (acknowledged : Bool)
  | userResolve (outcome : ResolvedOutcome)
  deriving DecidableEq, Repr

/-- Why a transition was refused. -/
inductive TransitionError
  | notAllowed (from_ : DeliveryState) (event : DeliveryEvent)
  | acknowledgementRequired
  deriving DecidableEq, Repr

/-- The state a delivery moves to, or why it may not.  One arm per row of the table; there
are no self-transitions. -/
def transition (from_ : DeliveryState) (event : DeliveryEvent) :
    Except TransitionError DeliveryState :=
  match from_, event with
  | .pending, .claim => .ok .claimed
  | .pending, .cancel => .ok .cancelled

  | .claimed, .startRemote => .ok .inFlight
  | .claimed, .park r =>
      if r ≠ .outcomeUnresolvable then .ok (.parked r) else .error (.notAllowed from_ event)
  | .claimed, .revalidationFailed => .ok .failed
  | .claimed, .leaseExpired | .claimed, .shutdown => .ok .pending
  | .claimed, .cancel => .ok .cancelled

  | .inFlight, .published => .ok .published
  | .inFlight, .park .quotaExceeded => .ok (.parked .quotaExceeded)
  | .inFlight, .park .accountNeedsReconnect => .ok (.parked .accountNeedsReconnect)
  | .inFlight, .accepted => .ok .processing
  | .inFlight, .retryableFailure | .inFlight, .shutdown => .ok .pending
  | .inFlight, .retryBudgetExhausted => .ok .deadLetter
  | .inFlight, .permanentFailure => .ok .failed
  | .inFlight, .ambiguous | .inFlight, .leaseExpired => .ok .outcomeUnknown
  | .inFlight, .cancel => .ok .cancelled
  | .inFlight, .simulated => .ok .simulated

  | .processing, .published => .ok .published
  | .processing, .permanentFailure => .ok .failed
  | .processing, .processingTimeout => .ok .outcomeUnknown
  | .processing, .cancel => .ok .cancelled

  | .outcomeUnknown, .reconcileFound => .ok .published
  | .outcomeUnknown, .reconcileAbsent => .ok .pending
  -- Reconciliation found nothing, but the attempts are spent: end rather than loop.
  | .outcomeUnknown, .retryBudgetExhausted => .ok .deadLetter
  | .outcomeUnknown, .reconcileUnresolvable => .ok (.parked .outcomeUnresolvable)
  | .outcomeUnknown, .userRetry false
  | .parked .outcomeUnresolvable, .userRetry false => .error .acknowledgementRequired
  | .outcomeUnknown, .userRetry true
  | .parked .outcomeUnresolvable, .userRetry true => .ok .pending
  | .outcomeUnknown, .userResolve o
  | .parked .outcomeUnresolvable, .userResolve o => .ok o.into

  | .parked r, .unpark =>
      if r ≠ .outcomeUnresolvable then .ok .pending else .error (.notAllowed from_ event)
  | .parked r, .userRetry _ =>
      if r ≠ .outcomeUnresolvable then .ok .pending else .error (.notAllowed from_ event)
  | .parked _, .cancel => .ok .cancelled

  | .deadLetter, .userRetry _ | .failed, .userRetry _ => .ok .pending
  | .deadLetter, .userResolve o => .ok o.into

  | _, _ => .error (.notAllowed from_ event)

/-! ### The table, entry by entry -/

def ParkReason.all : List ParkReason :=
  [ownerDisabled, accountNeedsReconnect, platformUnavailable, platformDisabled,
    livePublishDisabled, quotaExceeded, outcomeUnresolvable]

def DeliveryState.all : List DeliveryState :=
  [pending, claimed, inFlight, processing, outcomeUnknown, published, failed, deadLetter,
    cancelled, simulated] ++ ParkReason.all.map parked

def DeliveryEvent.all : List DeliveryEvent :=
  [claim, cancel, startRemote, revalidationFailed, leaseExpired, published, accepted,
    retryableFailure, shutdown, retryBudgetExhausted, permanentFailure, ambiguous, simulated,
    processingTimeout, reconcileFound, reconcileAbsent, reconcileUnresolvable, unpark,
    userRetry false, userRetry true, userResolve .published, userResolve .failed] ++
    ParkReason.all.map park

lemma ParkReason.mem_all (r : ParkReason) : r ∈ ParkReason.all := by
  cases r <;> decide

lemma DeliveryState.mem_all (s : DeliveryState) : s ∈ DeliveryState.all := by
  cases s with
  | parked r => exact List.mem_append_right _ (List.mem_map_of_mem r.mem_all)
  | _ => decide

lemma DeliveryEvent.mem_all (e : DeliveryEvent) : e ∈ DeliveryEvent.all := by
  cases e with
  | park r => exact List.mem_append_right _ (List.mem_map_of_mem r.mem_all)
  | userRetry acknowledged => cases acknowledged <;> decide
  | userResolve outcome => cases outcome <;> decide
  | _ => decide

/-- Whether every entry of the table satisfies the condition. -/
def checksTable (P : DeliveryState → DeliveryEvent → DeliveryState → Prop)
    [∀ s e t, Decidable (P s e t)] : Bool :=
  DeliveryState.all.all fun s => DeliveryEvent.all.all fun e =>
    match transition s e with
    | .ok t => decide (P s e t)
    | .error _ => true

/-- What every entry of the table satisfies, every transition does. -/
lemma of_transition {P : DeliveryState → DeliveryEvent → DeliveryState → Prop}
    [∀ s e t, Decidable (P s e t)] (htable : checksTable P = true) {s t : DeliveryState}
    {e : DeliveryEvent} (h : transition s e = .ok t) : P s e t := by
  have hentry := List.all_eq_true.mp (List.all_eq_true.mp htable s s.mem_all) e e.mem_all
  rw [h] at hentry
  exact of_decide_eq_true hentry

/-- The status of a publish job, derived from its deliveries. -/
inductive JobStatus
  | scheduled
  | publishing
  | published
  | cancelled
  | failed
  | partially
  deriving DecidableEq, Repr

/-- Whether the job is still scheduled or publishing, as the queries over jobs test it. -/
def JobStatus.isLive : JobStatus → Bool
  | .scheduled | .publishing => true
  | _ => false

/-- What `deriveJobStatus` needs to know about one delivery. -/
structure DeliveryView where
  state : DeliveryState
  nextAttemptAt : Time
  awaitingNativePublish : Bool
  deriving DecidableEq, Repr

namespace DeliveryView

/-- Whether the delivery went out, or was simulated. -/
def wentOut (d : DeliveryView) : Bool :=
  match d.state with
  | .published | .simulated => true
  | _ => false

/-- Whether the delivery is waiting for its time, or ended. -/
def waiting (now : Time) (d : DeliveryView) : Bool :=
  match d.state with
  | .pending => decide (now < d.nextAttemptAt)
  | .processing => d.awaitingNativePublish
  | state => state.isTerminal

end DeliveryView

/-- The job's status.  An empty list is `failed`: a job always has deliveries, so none means
something went wrong. -/
def deriveJobStatus (deliveries : List DeliveryView) (now : Time) : JobStatus :=
  if deliveries.isEmpty then .failed
  else if deliveries.all (·.state.isTerminal) then
    if deliveries.all DeliveryView.wentOut then .published
    else if deliveries.all (·.state = .cancelled) then .cancelled
    else if !deliveries.any DeliveryView.wentOut then .failed
    else .partially
  else if deliveries.all (DeliveryView.waiting now) then .scheduled
  else .publishing

end Postit
