import Mathlib.Data.Prod.Lex
import Mathlib.Order.WithBot
import Postit.Data.Apply
import Postit.Data.Histories
import Postit.Data.Locking

/-!
# At most one publish attempt per generation

Every dispatch of a delivery carries a generation, and every write after a claim is conditioned
on it.  This file shows that the scheme works: whatever operations run, in whatever order and
with whatever arguments, a generation is claimed at most once and starts at most one remote
call.

The argument is one quantity.  A row's `epoch` is its generation together with how far its state
is along the transition table (`rank`), compared lexicographically.  Every row update keeps the
epoch or raises it (`forward_set`): a move back to `pending` or to `cancelled` takes the next
generation, and any other move goes up in rank.  A claim crosses from rank 0 to rank 1 within
its generation, and a started remote call from rank 1 to rank 2, so each can happen once.
-/

namespace Postit.Data

open Postit.Framework

/-- How far along the transition table a state is. -/
def rank : StateName → ℕ
  | .pending => 0
  | .claimed => 1
  | .inFlight => 2
  | .processing => 3
  | .outcomeUnknown => 4
  | .parked => 5
  | .deadLetter => 6
  | .published | .failed | .cancelled | .simulated => 7

/-- Every edge that does not lead back to `pending` goes up in rank. -/
lemma transition_rank_lt {s t : DeliveryState} {e : DeliveryEvent}
    (h : transition s e = .ok t) (hp : t ≠ .pending) :
    rank s.asStr < rank t.asStr :=
  of_transition (P := fun s _ t => t ≠ .pending → rank s.asStr < rank t.asStr)
    (by decide) h hp

/-- A move that does not take the next generation goes up in rank. -/
lemma Move.rank_lt (m : Move) (hp : m.target ≠ .pending) (hc : m.target ≠ .cancelled) :
    rank m.expected.asStr < rank m.target.asStr := by
  obtain ⟨e, h | ⟨-, h⟩⟩ := m.legal
  · exact transition_rank_lt h hp
  · exact absurd h hc

/-- The row's generation and the rank of its state. -/
def Delivery.epoch (d : Delivery) : ℕ ×ₗ ℕ := toLex (d.dispatchGen, rank d.state)

/-- The row goes forward: its epoch does not go back, and a row that is `pending` again, or was
moved to another time, has a new generation. -/
structure Forward (d d' : Delivery) : Prop where
  epoch_le : d.epoch ≤ d'.epoch
  reopens : d'.state = .pending → d.dispatchGen < d'.dispatchGen ∨
    (d.state = .pending ∧ d'.nextAttemptAt = d.nextAttemptAt)

lemma Forward.gen_le {d d' : Delivery} (h : Forward d d') : d.dispatchGen ≤ d'.dispatchGen := by
  rcases Prod.Lex.toLex_le_toLex.mp h.epoch_le with hlt | ⟨heq, -⟩
  · exact hlt.le
  · exact heq.le

lemma Forward.refl (d : Delivery) : Forward d d := ⟨le_refl _, fun h => .inr ⟨h, rfl⟩⟩

lemma Forward.trans {d d' d'' : Delivery} (h : Forward d d') (h' : Forward d' d'') :
    Forward d d'' where
  epoch_le := h.epoch_le.trans h'.epoch_le
  reopens := by
    intro hp
    rcases h'.reopens hp with hlt | ⟨hp', hn'⟩
    · exact .inl (h.gen_le.trans_lt hlt)
    · rcases h.reopens hp' with hlt | ⟨hp₀, hn⟩
      · exact .inl (hlt.trans_le h'.gen_le)
      · exact .inr ⟨hp₀, hn'.trans hn⟩

/-- An update of the other columns leaves the row where it is. -/
lemma Forward.of_eq {d d' : Delivery} (hg : d'.dispatchGen = d.dispatchGen)
    (hs : d'.state = d.state) (hn : d'.state = .pending → d'.nextAttemptAt = d.nextAttemptAt) :
    Forward d d' where
  epoch_le := by rw [Delivery.epoch, Delivery.epoch, hg, hs]
  reopens := fun hp => .inr ⟨hs ▸ hp, hn hp⟩

/-- A new generation is always forward. -/
lemma Forward.of_gen_lt {d d' : Delivery} (hg : d.dispatchGen < d'.dispatchGen) :
    Forward d d' where
  epoch_le := Prod.Lex.toLex_le_toLex.mpr (.inl hg)
  reopens := fun _ => .inl hg

/-- A higher rank within a generation is forward. -/
lemma Forward.of_rank_lt {d d' : Delivery} (hg : d'.dispatchGen = d.dispatchGen)
    (hr : rank d.state < rank d'.state) : Forward d d' where
  epoch_le := Prod.Lex.toLex_le_toLex.mpr (.inr ⟨hg.symm, hr.le⟩)
  reopens := fun hp => by
    rw [hp] at hr
    exact absurd hr (by simp [rank])

/-- **Every row update goes forward.** -/
lemma forward_set (u : DeliveryUpdate) (d : Delivery) (h : u.Applies d) : Forward d (u.set d) := by
  cases u with
  | claim now leaseUntil =>
    refine .of_rank_lt rfl ?_
    rw [h.1]
    exact Nat.zero_lt_one
  | apply move data now =>
    by_cases hbump : move.target = .pending ∨ move.target = .cancelled
    · refine .of_gen_lt ?_
      simp [DeliveryUpdate.set, DeliveryUpdate.applyMove, hbump]
    · refine .of_rank_lt (by simp [DeliveryUpdate.set, DeliveryUpdate.applyMove, hbump]) ?_
      rw [not_or] at hbump
      rw [h.1]
      exact move.rank_lt hbump.1 hbump.2
  | recordLateReceipt receipt now =>
    refine .of_rank_lt rfl ?_
    rw [h.1]
    exact (by decide : rank .outcomeUnknown < rank .published)
  | reschedule at_ now actor uploads => exact .of_gen_lt (Nat.lt_succ_self _)
  | redispatch now => exact .of_gen_lt (Nat.lt_succ_self _)
  | waitForCap resumeAt now =>
    refine .of_eq rfl rfl fun hp => ?_
    have hpend : d.state = .pending := hp
    exact absurd (h.symm.trans hpend) (by decide)
  | _ => exact .of_eq rfl rfl fun _ => rfl

/-- Across a step of a run, a delivery goes forward. -/
lemma OpStep.forward {db db' : Db} {e : Event} (h : OpStep db e db') {id : DeliveryId}
    {d : Delivery} (hd : db.deliveries.lookup id = some d) :
    ∃ d', db'.deliveries.lookup id = some d' ∧ Forward d d' :=
  h.rows.relates Forward.refl Forward.trans (fun ⟨u, happ, _⟩ => forward_set u _ happ) hd

/-! ## Claims and started calls -/

/-- A successful claim found the row `pending` at its generation, and left it `claimed` there. -/
lemma claim_some {db db' : Db} {id : DeliveryId} {gen : ℕ} {now lease : Time}
    {c : ClaimedDelivery}
    (h : Tx.run (DeliveryRepo.claim id gen now lease) db = .ok (some c, db')) :
    ∃ d d', db.deliveries.lookup id = some d ∧ d.state = .pending ∧ d.dispatchGen = gen ∧
      db'.deliveries.lookup id = some d' ∧ d'.state = .claimed ∧ d'.dispatchGen = gen := by
  rcases DeliveryRepo.claim_ok h with ⟨hnone, -⟩ | ⟨d, j, change, hd, -, happ, hgen, -, -, htouch⟩
  · cases hnone
  · obtain ⟨jobs, posts, rfl⟩ := touchJob_frame htouch
    exact ⟨d, _, hd, happ.1, hgen, AList.lookup_insert _, rfl, hgen⟩

/-- Only a claimed delivery starts a remote call, and the call is in flight then. -/
lemma startRemote_edge {s t : DeliveryState} (h : transition s .startRemote = .ok t) :
    s = .claimed ∧ t = .inFlight :=
  of_transition (P := fun s e t => e = .startRemote → s = .claimed ∧ t = .inFlight)
    (by decide) h rfl

/-- A started remote call found the row `claimed` at its generation, and left it `in_flight`
there. -/
lemma apply_startRemote_done {db db' : Db} {fence : Fence} {data : TransitionData} {now : Time}
    {state : DeliveryState} {redispatch : Option Dispatch} {job : JobStatusChange}
    (h : Tx.run (DeliveryRepo.apply fence .startRemote data now) db =
      .ok (.done state redispatch job, db')) :
    ∃ d d', db.deliveries.lookup fence.id = some d ∧ d.state = .claimed ∧
      d.dispatchGen = fence.dispatchGen ∧ db'.deliveries.lookup fence.id = some d' ∧
      d'.state = .inFlight ∧ d'.dispatchGen = fence.dispatchGen := by
  rcases DeliveryRepo.apply_ok h with ⟨hstale, -⟩ | ⟨state', job', d, hl, -⟩
  · cases hstale
  · obtain ⟨counts, hrow⟩ := hl.row
    obtain ⟨hstate, rfl⟩ : fence.expected = .claimed ∧ state' = .inFlight := by
      rcases hl.edge with ⟨hedge, -⟩ | ⟨hedge, -⟩
      · exact startRemote_edge hedge
      · exact absurd (startRemote_edge hedge).2 (by decide)
    refine ⟨d, _, hl.found, ?_, hl.fenced.2, hrow, rfl, hl.fenced.2⟩
    rw [hl.fenced.1.1, hstate]
    rfl

/-! ## New dispatches -/

/-- The dispatch carries a new generation: the row's, which was lower before. -/
def Dispatch.IsNew (x : Dispatch) (db db' : Db) : Prop :=
  ∃ d d', db.deliveries.lookup x.delivery = some d ∧ db'.deliveries.lookup x.delivery = some d' ∧
    d.dispatchGen < x.dispatchGen ∧ d'.dispatchGen = x.dispatchGen

/-- Updated rows that take the next generation give new dispatches. -/
lemma isNew_of_updateDeliveries {db db' : Db} {rows : List (DeliveryId × Delivery)}
    {u : DeliveryUpdate} (hfound : ∀ r ∈ rows, db.deliveries.lookup r.1 = some r.2)
    (hbump : ∀ d, d.dispatchGen < (u.set d).dispatchGen)
    (hdb' : db'.deliveries = (db.storeAll (Sql.updateDeliveries rows u).writes).deliveries)
    {r : DeliveryId × Delivery} (hr : r ∈ (Sql.updateDeliveries rows u).result) (runAt : Time) :
    Dispatch.IsNew ⟨r.1, r.2.dispatchGen, runAt⟩ db db' := by
  obtain ⟨r₀, hr₀, rfl⟩ := List.mem_map.mp hr
  refine ⟨r₀.2, u.set r₀.2, hfound r₀ hr₀, ?_, hbump r₀.2, rfl⟩
  rw [hdb']
  exact lookup_updateDeliveries hfound hr₀

/-- What the overdue sweep dispatches is new. -/
lemma overduePending_isNew {db db' : Db} {now grace : Time} {limit : ℕ}
    {dispatches : List Dispatch}
    (h : Tx.run (Sweep.overduePending now grace limit) db = .ok (dispatches, db')) :
    ∀ x ∈ dispatches, x.IsNew db db' := by
  simp only [Sweep.overduePending, Sweep.touchJobs, Tx.run_bind_ok, Tx.run_sql_ok, Sql.exec,
    Except.ok.injEq, exists_eq_left', Prog.pure_eq, Tx.run_done_ok] at h
  obtain ⟨rows, db₁, ⟨rfl, rfl⟩, _, db₂, ⟨_, _, htouch, -, rfl⟩, rfl, rfl⟩ := h
  have hsame := Tx.run_each_relates (R := fun db db' => db'.deliveries = db.deliveries)
    (fun _ => rfl) (fun h h' => h'.trans h) _ (fun _ _ => touchJob_deliveries) htouch
  intro x hx
  obtain ⟨r, hr, rfl⟩ := List.mem_map.mp hx
  exact isNew_of_updateDeliveries (fun r hr => (Table.mem_of_mem_selectFirst hr).1)
    (fun d => Nat.lt_succ_self _) hsame hr now

/-- What a reschedule dispatches is new. -/
lemma reschedule_isNew {db db' : Db} {scope : OwnerScope} {id : PublishJobId} {at_ now : Time}
    {uploadNow : List AccountId} {result : JobRepo.Rescheduled}
    (h : Tx.run (JobRepo.reschedulePendingWith scope id at_ now uploadNow) db =
      .ok (result, db')) :
    ∀ x ∈ result.dispatches, x.IsNew db db' := by
  obtain ⟨ls, j, change, -, -, -, -, hdispatches, htouch⟩ :=
    JobRepo.reschedulePendingWith_ok h
  have hsame := touchJob_deliveries htouch
  intro x hx
  rw [hdispatches] at hx
  obtain ⟨r, hr, rfl⟩ := List.mem_map.mp hx
  exact isNew_of_updateDeliveries (fun r hr => (Sql.mem_deliveriesWhere hr).1)
    (fun d => Nat.lt_succ_self _) hsame hr _

/-! ## Stale workers -/

/-- The generation of a fence is not the row's. -/
def StaleGen (db : Db) (id : DeliveryId) (gen : ℕ) : Prop :=
  ∀ d, db.deliveries.lookup id = some d → d.dispatchGen ≠ gen

lemma apply_of_staleGen {db db' : Db} {fence : Fence} {event : DeliveryEvent}
    {data : TransitionData} {now : Time} {applied : Applied}
    (h : Tx.run (DeliveryRepo.apply fence event data now) db = .ok (applied, db'))
    (hstale : StaleGen db fence.id fence.dispatchGen) : db' = db := by
  rcases DeliveryRepo.apply_ok h with ⟨-, hdb, -⟩ | ⟨state, job, d, hl, -⟩
  · exact hdb
  · exact absurd hl.fenced.2 (hstale d hl.found)

lemma renewLease_of_staleGen {db db' : Db} {id : DeliveryId} {gen : ℕ} {now lease : Time}
    {renewal : LeaseRenewal}
    (h : Tx.run (DeliveryRepo.renewLease id gen now lease) db = .ok (renewal, db'))
    (hstale : StaleGen db id gen) : db' = db := by
  simp only [DeliveryRepo.renewLease, Tx.run_bind_ok] at h
  obtain ⟨o, db₁, hrenew, h⟩ := h
  rcases (Tx.run_updateDelivery_ok rfl).mp hrenew with ⟨d, hd, -, hgen, -⟩ | ⟨-, rfl, rfl⟩
  · exact absurd (by simpa using hgen) (hstale d hd)
  · exact (Tx.run_done_ok.mp h).2

lemma setContainerRef_of_staleGen {db db' : Db} {fence : Fence} {ref : String} {landed : Bool}
    (h : Tx.run (DeliveryRepo.setContainerRef fence ref) db = .ok (landed, db'))
    (hstale : StaleGen db fence.id fence.dispatchGen) : db' = db := by
  simp only [DeliveryRepo.setContainerRef, Tx.run_sql_ok, Sql.exec, Except.ok.injEq,
    exists_eq_left', Sql.mapResult, Sql.updateDelivery] at h
  obtain ⟨-, rfl⟩ := h
  cases hd : db.deliveries.lookup fence.id with
  | none => rfl
  | some d => simp [hstale d hd, Sql.read]

/-! ## At most once -/

namespace Event

/-- A claim of the delivery at the generation succeeded. -/
def isClaim (id : DeliveryId) (gen : ℕ) : Event → Bool
  | .did (.claim id' gen' _ _) (some _) => id' = id && gen' = gen
  | _ => false

/-- A remote call for the delivery at the generation was started. -/
def isStartRemote (id : DeliveryId) (gen : ℕ) : Event → Bool
  | .did (.apply fence .startRemote _ _) (.done ..) => fence.id = id && fence.dispatchGen = gen
  | _ => false

end Event

/-- The row's epoch, below every epoch while there is no row. -/
def Db.epoch (db : Db) (id : DeliveryId) : WithBot (ℕ ×ₗ ℕ) :=
  (db.deliveries.lookup id).map Delivery.epoch

lemma Db.epoch_of_lookup {db : Db} {id : DeliveryId} {d : Delivery}
    (h : db.deliveries.lookup id = some d) : db.epoch id = (d.epoch : WithBot (ℕ ×ₗ ℕ)) := by
  rw [Db.epoch, h]
  rfl

/-- The epoch of a delivery never goes back. -/
lemma OpStep.epoch_le {db db' : Db} {e : Event} (h : OpStep db e db') (id : DeliveryId) :
    db.epoch id ≤ db'.epoch id := by
  cases hd : db.deliveries.lookup id with
  | none =>
    rw [Db.epoch, hd]
    exact bot_le
  | some d =>
    obtain ⟨d', hd', hforward⟩ := h.forward hd
    rw [Db.epoch_of_lookup hd, Db.epoch_of_lookup hd', WithBot.coe_le_coe]
    exact hforward.epoch_le

/-- The epoch at rank `r` of the generation. -/
def epochAt (gen r : ℕ) : WithBot (ℕ ×ₗ ℕ) := (toLex (gen, r) : ℕ ×ₗ ℕ)

/-- A step that finds the row at rank `r` of the generation and leaves it at `r + 1` crosses
that epoch. -/
lemma crosses_epoch {db db' : Db} {id : DeliveryId} {gen r : ℕ} {d d' : Delivery}
    (hd : db.deliveries.lookup id = some d) (hgen : d.dispatchGen = gen) (hr : rank d.state = r)
    (hd' : db'.deliveries.lookup id = some d') (hgen' : d'.dispatchGen = gen)
    (hr' : rank d'.state = r + 1) :
    db.epoch id ≤ epochAt gen r ∧ ¬ db'.epoch id ≤ epochAt gen r := by
  rw [epochAt, Db.epoch_of_lookup hd, Db.epoch_of_lookup hd', WithBot.coe_le_coe, WithBot.coe_le_coe,
    Delivery.epoch, Delivery.epoch, hgen, hr, hgen', hr', Prod.Lex.toLex_le_toLex,
    Prod.Lex.toLex_le_toLex]
  simp

lemma countP_isClaim_le_one {db db' : Db} {es : List Event} (run : Run OpStep db es db')
    (id : DeliveryId) (gen : ℕ) : es.countP (Event.isClaim id gen) ≤ 1 := by
  refine run.countP_le_one (fun db => db.epoch id) (epochAt gen 0) _
    (fun h => h.epoch_le id) ?_
  intro db e db' h he
  cases h with
  | @did β op value db' h =>
    cases op with
    | claim id' gen' now lease =>
      cases value with
      | none => cases he
      | some c =>
        simp only [Event.isClaim, Bool.and_eq_true, decide_eq_true_eq] at he
        obtain ⟨rfl, rfl⟩ := he
        obtain ⟨d, d', hd, hs, hgen, hd', hs', hgen'⟩ := claim_some h
        exact crosses_epoch hd hgen (by rw [hs]; rfl) hd' hgen' (by rw [hs']; rfl)
    | _ => cases he
  | _ => cases he

lemma countP_isStartRemote_le_one {db db' : Db} {es : List Event} (run : Run OpStep db es db')
    (id : DeliveryId) (gen : ℕ) : es.countP (Event.isStartRemote id gen) ≤ 1 := by
  refine run.countP_le_one (fun db => db.epoch id) (epochAt gen 1) _
    (fun h => h.epoch_le id) ?_
  intro db e db' h he
  cases h with
  | @did β op value db' h =>
    cases op with
    | apply fence event data now =>
      cases value with
      | stale => cases event <;> cases he
      | done state redispatch job =>
        cases event with
        | startRemote =>
          simp only [Event.isStartRemote, Bool.and_eq_true, decide_eq_true_eq] at he
          obtain ⟨rfl, rfl⟩ := he
          obtain ⟨d, d', hd, hs, hgen, hd', hs', hgen'⟩ := apply_startRemote_done h
          exact crosses_epoch hd hgen (by rw [hs]; rfl) hd' hgen' (by rw [hs']; rfl)
        | _ => cases he
    | _ => cases he
  | _ => cases he

/-- **At most one publish attempt per generation.**  In every run of the repositories' operations,
from any database:
a step never lowers a delivery's generation, and raises it when it makes the delivery pending again or
moves a pending one, as every dispatch a reschedule or the overdue sweep hands out shows;
each generation of a delivery is claimed at most once and starts at most one remote call;
and a worker whose generation is not the row's changes nothing. -/
theorem at_most_one_publish_attempt_per_generation {db₀ db : Db} {es : List Event}
    (run : Run OpStep db₀ es db) :
    (∀ id gen, es.countP (Event.isClaim id gen) ≤ 1 ∧
      es.countP (Event.isStartRemote id gen) ≤ 1) ∧
    (∀ id d₀, db₀.deliveries.lookup id = some d₀ →
      ∃ d, db.deliveries.lookup id = some d ∧ d₀.dispatchGen ≤ d.dispatchGen) ∧
    ∀ {e : Event} {db' : Db}, OpStep db e db' →
      (∀ id d, db.deliveries.lookup id = some d →
        ∃ d', db'.deliveries.lookup id = some d' ∧ d.dispatchGen ≤ d'.dispatchGen ∧
          (d'.state = .pending → d.state ≠ .pending ∨ d'.nextAttemptAt ≠ d.nextAttemptAt →
            d.dispatchGen < d'.dispatchGen)) ∧
      (∀ now grace limit dispatches, e = .did (.overduePending now grace limit) dispatches →
        ∀ x ∈ dispatches, x.IsNew db db') ∧
      (∀ scope job at_ now uploadNow result,
        e = .did (.reschedule scope job at_ now uploadNow) result →
          ∀ x ∈ result.dispatches, x.IsNew db db') ∧
      (∀ fence event data now applied, e = .did (.apply fence event data now) applied →
        StaleGen db fence.id fence.dispatchGen → db' = db) ∧
      (∀ id gen now lease renewal, e = .did (.renewLease id gen now lease) renewal →
        StaleGen db id gen → db' = db) ∧
      (∀ fence ref landed, e = .did (.setContainerRef fence ref) landed →
        StaleGen db fence.id fence.dispatchGen → db' = db) := by
  refine ⟨fun id gen => ⟨countP_isClaim_le_one run id gen, countP_isStartRemote_le_one run id gen⟩,
    ?_, ?_⟩
  · intro id d₀ hd₀
    have hrel := run.relates
      (R := fun db db' => ∀ d, db.deliveries.lookup id = some d →
        ∃ d', db'.deliveries.lookup id = some d' ∧ Forward d d')
      (fun _ d hd => ⟨d, hd, .refl d⟩)
      (fun h h' d hd => by
        obtain ⟨d', hd', hf⟩ := h d hd
        obtain ⟨d'', hd'', hf'⟩ := h' d' hd'
        exact ⟨d'', hd'', hf.trans hf'⟩)
      (fun h d hd => h.forward hd)
    obtain ⟨d, hd, hforward⟩ := hrel d₀ hd₀
    exact ⟨d, hd, hforward.gen_le⟩
  · intro e db' hstep
    refine ⟨fun id d hd => ?_, ?_, ?_, ?_, ?_, ?_⟩
    · obtain ⟨d', hd', hforward⟩ := hstep.forward hd
      refine ⟨d', hd', hforward.gen_le, fun hp hmoved => ?_⟩
      rcases hforward.reopens hp with hlt | ⟨hp', hn⟩
      · exact hlt
      · exact (hmoved.elim (· hp') (· hn)).elim
    · rintro now grace limit dispatches rfl
      cases hstep with
      | did h => exact overduePending_isNew h
    · rintro scope job at_ now uploadNow result rfl
      cases hstep with
      | did h => exact reschedule_isNew h
    · rintro fence event data now applied rfl
      cases hstep with
      | did h => exact apply_of_staleGen h
    · rintro id gen now lease renewal rfl
      cases hstep with
      | did h => exact renewLease_of_staleGen h
    · rintro fence ref landed rfl
      cases hstep with
      | did h => exact setContainerRef_of_staleGen h

/-- The rule on a publish job that runs twice: the second claim finds nothing. -/
theorem at_most_one_publish_attempt_per_generation_duplicate : ∃ c db,
    Run OpStep (Db.sample.perform (.publishSample 1))
      [.did (.claim 1 0 0 60) (some c), .did (.claim 1 0 0 60) none] db ∧
    [Event.did (.claim 1 0 0 60) (some c), .did (.claim 1 0 0 60) none].countP
      (Event.isClaim 1 0) ≤ 1 := by
  let db := Db.sample.perform (.publishSample 1)
  have first : OpStep db (.did (.claim 1 0 0 60)
      (some ⟨1, 1, 1, 1, 1, false, false, .publish, 0, 0, none, false⟩)) _ :=
    .perform (by decide)
  have second : OpStep (db.perform (.claim 1 0 0 60)) (.did (.claim 1 0 0 60) none) _ :=
    .perform (by decide)
  have run := (Run.single first).append (.single second)
  exact ⟨_, _, run, ((at_most_one_publish_attempt_per_generation run).1 1 0).1⟩

end Postit.Data
