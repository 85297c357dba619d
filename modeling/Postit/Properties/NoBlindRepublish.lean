import Mathlib.Data.List.Induction
import Postit.Core.Delivery

/-!
# No blind re-publish

Once a call to the platform has ended without a verdict the post may be live, and sending it
again may duplicate it.  This file shows that the transition table never lets that happen
unnoticed: along every accepted sequence of events, a delivery whose outcome became unknown
starts another remote call only after somebody looked (`reconcileAbsent`), or the user
accepted the risk (`userRetry true`), or the delivery was settled as not sent and the user
then asked for it again.

The invariant (`Phase`) follows a delivery after its outcome became unknown.  It is still
unknown or parked as unresolvable; or it was settled as not sent, which only a retry leaves;
or it ended for good.  Every edge out of these three leads back to `pending` only through one
of the excusing events.
-/

namespace Postit

open DeliveryEvent

/-- The state a sequence of events leads to, each accepted in the state the one before it
left. -/
def runEvents (s : DeliveryState) (events : List DeliveryEvent) :
    Except TransitionError DeliveryState :=
  events.foldlM transition s

lemma runEvents_append (s : DeliveryState) (xs ys : List DeliveryEvent) :
    runEvents s (xs ++ ys) = runEvents s xs >>= fun t => runEvents t ys :=
  List.foldlM_append

lemma runEvents_concat_eq_ok {s t : DeliveryState} {xs : List DeliveryEvent}
    {e : DeliveryEvent} :
    runEvents s (xs ++ [e]) = .ok t ↔
      ∃ u, runEvents s xs = .ok u ∧ transition u e = .ok t := by
  rw [runEvents_append]
  cases runEvents s xs with
  | error err => simp [bind, Except.bind]
  | ok u => simp [bind, Except.bind, runEvents, List.foldlM, pure, Except.pure]; grind

/-- The delivery leaves `s` by `e` without a verdict on a call that may have changed the
platform. -/
def LeftUnknown (s : DeliveryState) (e : DeliveryEvent) : Prop :=
  (s = .inFlight ∧ (e = ambiguous ∨ e = leaseExpired)) ∨
    (s = .processing ∧ e = processingTimeout)

/-- A delivery left without a verdict is `outcomeUnknown`. -/
lemma LeftUnknown.transition_eq {s : DeliveryState} {e : DeliveryEvent}
    (h : LeftUnknown s e) : transition s e = .ok .outcomeUnknown := by
  rcases h with ⟨rfl, rfl | rfl⟩ | ⟨rfl, rfl⟩ <;> rfl

/-- After its outcome became unknown, `events` settled the delivery as not sent: the user
resolved it as failed, or reconciliation found nothing with the attempts spent. -/
def SettledAsNotSent (events : List DeliveryEvent) : Prop :=
  ∃ before e after, events = before ++ e :: after ∧
    (e = userResolve .failed ∨
      (e = retryBudgetExhausted ∧
        runEvents .outcomeUnknown before = .ok .outcomeUnknown))

/-- What lets a delivery of unknown outcome be sent again: reconciliation found no post, the
user acknowledged that it may be live, or it was settled as not sent and then retried. -/
def Excused (events : List DeliveryEvent) : Prop :=
  reconcileAbsent ∈ events ∨ userRetry true ∈ events ∨
    ∃ before ack after, events = before ++ userRetry ack :: after ∧ SettledAsNotSent before

lemma SettledAsNotSent.append {events : List DeliveryEvent} (h : SettledAsNotSent events)
    (more : List DeliveryEvent) : SettledAsNotSent (events ++ more) := by
  obtain ⟨before, e, after, rfl, he⟩ := h
  exact ⟨before, e, after ++ more, by simp, he⟩

lemma Excused.append {events : List DeliveryEvent} (h : Excused events)
    (more : List DeliveryEvent) : Excused (events ++ more) := by
  rcases h with h | h | ⟨before, ack, after, rfl, hs⟩
  · exact .inl (List.mem_append_left _ h)
  · exact .inr (.inl (List.mem_append_left _ h))
  · exact .inr (.inr ⟨before, ack, after ++ more, by simp, hs⟩)

/-- Where a delivery can be after its outcome became unknown, as long as nothing excused
sending it again. -/
inductive Phase (events : List DeliveryEvent) : DeliveryState → Prop
  /-- Nobody knows yet. -/
  | unknown : Phase events .outcomeUnknown
  /-- Nobody can tell; the user decides. -/
  | unresolvable : Phase events (.parked .outcomeUnresolvable)
  /-- It was settled as not sent, by a spent budget. -/
  | deadLetter (settled : SettledAsNotSent events) : Phase events .deadLetter
  /-- It was settled as not sent, by the user. -/
  | failed (settled : SettledAsNotSent events) : Phase events .failed
  /-- It turned out to be live. -/
  | published : Phase events .published
  /-- It was cancelled. -/
  | cancelled : Phase events .cancelled

/-- One accepted event keeps the phase or excuses the delivery. -/
lemma Phase.step {events : List DeliveryEvent} {s t : DeliveryState} {e : DeliveryEvent}
    (hrun : runEvents .outcomeUnknown events = .ok s) (h : Phase events s)
    (he : transition s e = .ok t) :
    Excused (events ++ [e]) ∨ Phase (events ++ [e]) t := by
  have resolved (o : ResolvedOutcome) (ht : o.into = t) (heq : e = userResolve o) :
      Phase (events ++ [e]) t := by
    subst ht heq
    cases o with
    | published => exact .published
    | failed => exact .failed ⟨events, _, [], rfl, .inl rfl⟩
  have retried (ack : Bool) (heq : e = userRetry ack) (hs : SettledAsNotSent events) :
      Excused (events ++ [e]) := by
    subst heq
    exact .inr (.inr ⟨events, ack, [], rfl, hs⟩)
  cases h with
  | unknown =>
    cases e with
    | reconcileFound => cases he; exact .inr .published
    | reconcileAbsent => exact .inl (.inl (by simp))
    | retryBudgetExhausted =>
      cases he
      exact .inr (.deadLetter ⟨events, _, [], rfl, .inr ⟨rfl, hrun⟩⟩)
    | reconcileUnresolvable => cases he; exact .inr .unresolvable
    | userRetry ack =>
      cases ack with
      | false => cases he
      | true => exact .inl (.inr (.inl (by simp)))
    | userResolve o => exact .inr (resolved o (by simpa [transition] using he) rfl)
    | _ => cases he
  | unresolvable =>
    cases e with
    | userRetry ack =>
      cases ack with
      | false => cases he
      | true => exact .inl (.inr (.inl (by simp)))
    | userResolve o => exact .inr (resolved o (by simpa [transition] using he) rfl)
    | cancel => cases he; exact .inr .cancelled
    | _ => cases he
  | deadLetter hs =>
    cases e with
    | userRetry ack => exact .inl (retried ack rfl hs)
    | userResolve o => exact .inr (resolved o (by simpa [transition] using he) rfl)
    | _ => cases he
  | failed hs =>
    cases e with
    | userRetry ack => exact .inl (retried ack rfl hs)
    | _ => cases he
  | published => cases e <;> cases he
  | cancelled => cases e <;> cases he

/-- After any accepted events the delivery is excused or in one of the phases.  The induction
is on the sequence from its end, so that each event is judged by what came before it. -/
lemma excused_or_phase (events : List DeliveryEvent) :
    ∀ {s : DeliveryState}, runEvents .outcomeUnknown events = .ok s →
      Excused events ∨ Phase events s := by
  induction events using List.reverseRecOn with
  | nil =>
    intro s h
    cases h
    exact .inr .unknown
  | append_singleton events e ih =>
    intro t h
    obtain ⟨s, hs, he⟩ := runEvents_concat_eq_ok.1 h
    rcases ih hs with hx | hp
    · exact .inl (hx.append [e])
    · exact hp.step hs he

/-- Only a claimed delivery starts a remote call. -/
lemma transition_startRemote {s t : DeliveryState} (h : transition s startRemote = .ok t) :
    s = .claimed :=
  of_transition (P := fun s e _ => e = startRemote → s = .claimed) (by decide) h rfl

/-- An event that neither the user nor a reconciliation that found nothing brings about: the
engine's own. -/
def automatic : DeliveryEvent → Bool
  | reconcileAbsent | userRetry _ | userResolve _ => false
  | _ => true

/-- Automatic events excuse nothing. -/
lemma not_excused_of_automatic {events : List DeliveryEvent}
    (h : ∀ e ∈ events, automatic e = true) : ¬ Excused events := by
  rintro (hx | hx | ⟨before, ack, after, rfl, -⟩)
  · exact Bool.noConfusion (h _ hx)
  · exact Bool.noConfusion (h _ hx)
  · exact Bool.noConfusion (h (userRetry ack) (by simp))

/-- **No blind re-publish.**  Along every sequence of events accepted from `pending`: if the
delivery was left without a verdict by `e`, then any later `startRemote` has an excusing event
between the two, and events of the engine alone never bring the delivery back to `inFlight`. -/
theorem no_blind_republish (pre mid : List DeliveryEvent) (e : DeliveryEvent)
    (s : DeliveryState) (hpre : runEvents .pending pre = .ok s) (hleft : LeftUnknown s e) :
    (∀ t, runEvents .pending (pre ++ e :: mid ++ [startRemote]) = .ok t → Excused mid) ∧
    (∀ t, runEvents .pending (pre ++ e :: mid) = .ok t →
      (∀ x ∈ mid, automatic x = true) → t ≠ .inFlight) := by
  have hmid (t : DeliveryState) (h : runEvents .pending (pre ++ e :: mid) = .ok t) :
      runEvents .outcomeUnknown mid = .ok t := by
    have hrun : runEvents s (e :: mid) = .ok t := by
      rw [runEvents_append, hpre] at h
      exact h
    rw [runEvents, List.foldlM_cons, hleft.transition_eq] at hrun
    exact hrun
  constructor
  · intro t h
    obtain ⟨u, hu, hstart⟩ := runEvents_concat_eq_ok.1 h
    rcases excused_or_phase mid (hmid u hu) with hx | hp
    · exact hx
    · rw [transition_startRemote hstart] at hp
      cases hp
  · rintro t h hauto rfl
    rcases excused_or_phase mid (hmid _ h) with hx | hp
    · exact not_excused_of_automatic hauto hx
    · cases hp

/-- The shortest way a post can go out twice: the outcome is lost, reconciliation finds nothing,
and the re-run starts. -/
theorem no_blind_republish_reconcileAbsent :
    runEvents .pending [claim, startRemote] = .ok .inFlight ∧
      Excused [reconcileAbsent, claim] :=
  ⟨rfl, (no_blind_republish [claim, startRemote] [reconcileAbsent, claim] ambiguous .inFlight
    rfl (.inl ⟨rfl, .inl rfl⟩)).1 .inFlight rfl⟩

end Postit
