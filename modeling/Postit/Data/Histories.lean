import Mathlib.Logic.Relation
import Postit.Data.Apply
import Postit.Data.Blocks
import Postit.Data.Creation

/-!
# The history of a delivery

What happens to a delivery row over a transaction and over a run is a sequence of row updates
(`RowStep`), after its insertion, and each state change among them is a fenced write that the
operations made (`Calls`).  So a relation that every such update respects and that composes holds
across a whole run (`RowsStep.relates`), and a property of fresh rows that every such update keeps
holds of every row (`RowsStep.keep`).
-/

namespace Postit.Data

open Postit.Framework

/-! ## One update -/

/-- A state change was made by a fenced write among `A`, with the row's own fence, and a step of a
check chain is among those `A` takes. -/
def DeliveryUpdate.CalledBy (A : Calls) (id : DeliveryId) : DeliveryUpdate → Delivery → Prop
  | .apply move data _, d => ∃ fence event, A fence event data ∧ fence.id = id ∧
      fence.Matches d ∧ fence.expected = move.expected ∧
      (transition fence.expected event = .ok move.target ∨
        (transition fence.expected event = .ok .pending ∧ move.target = .cancelled))
  | .takeCheck expected .., _ | .setCheckDue expected _, _ => A.checks expected
  | _, _ => True

/-- One update of the row `id`. -/
inductive RowStep (A : Calls) (id : DeliveryId) (d : Delivery) : Delivery → Prop
  | mk (u : DeliveryUpdate) (applies : u.Applies d) (called : u.CalledBy A id d) :
      RowStep A id d (u.set d)

/-- A fenced write that landed is one update of the row of its fence. -/
lemma Landed.rowStep {A : Calls} {fence : Fence} {event : DeliveryEvent} {data : TransitionData}
    {now : Time} {db db' : Db} {state : DeliveryState} {job : JobStatusChange} {d : Delivery}
    (h : Landed fence event data now db db' state job d) (call : A fence event data) :
    RowStep A fence.id d (DeliveryUpdate.applyMove state data now d) := by
  have hedge : transition fence.expected event = .ok state ∨
      (transition fence.expected event = .ok .pending ∧ state = .cancelled) :=
    h.edge.imp And.left fun hc => ⟨hc.1, hc.2.1⟩
  exact .mk (.apply ⟨fence.expected, state, event, hedge⟩ data now) h.fenced.1
    ⟨fence, event, call, rfl, h.fenced, rfl, hedge⟩

/-! ## A transaction -/

/-- Every delivery came to be what it is by updates of what it was or, where `new` rows come in, of a
fresh row. -/
structure RowsStep (A : Calls) (new : Prop) (db db' : Db) : Prop where
  kept : ∀ id d, db.deliveries.lookup id = some d →
    ∃ d', db'.deliveries.lookup id = some d' ∧ Relation.ReflTransGen (RowStep A id) d d'
  came : ∀ id d', db'.deliveries.lookup id = some d' →
    (∃ d, db.deliveries.lookup id = some d) ∨
      (new ∧ ∃ owner job post account operation dueAt actor dbNow,
        Relation.ReflTransGen (RowStep A id)
        (Delivery.fresh owner job post account operation dueAt actor dbNow) d')

namespace RowsStep

variable {A : Calls} {new : Prop} {db db' db'' : Db}

lemma of_eq (h : db'.deliveries = db.deliveries) : RowsStep A new db db' where
  kept := fun _ d hd => ⟨d, h ▸ hd, .refl⟩
  came := fun _ d' hd' => .inl ⟨d', h ▸ hd'⟩

lemma refl (db : Db) : RowsStep A new db db := of_eq rfl

lemma trans (h : RowsStep A new db db') (h' : RowsStep A new db' db'') : RowsStep A new db db'' where
  kept := by
    intro id d hd
    obtain ⟨d', hd', hrel⟩ := h.kept id d hd
    obtain ⟨d'', hd'', hrel'⟩ := h'.kept id d' hd'
    exact ⟨d'', hd'', hrel.trans hrel'⟩
  came := by
    intro id d'' hd''
    rcases h'.came id d'' hd'' with ⟨d', hd'⟩ | hfresh
    · rcases h.came id d' hd' with hold | ⟨hnew, o, j, p, a, op, due, actor, now, hrel⟩
      · exact .inl hold
      · obtain ⟨d₂, hd₂, hrel'⟩ := h'.kept id d' hd'
        obtain rfl := Option.some.inj (hd₂.symm.trans hd'')
        exact .inr ⟨hnew, o, j, p, a, op, due, actor, now, hrel.trans hrel'⟩
    · exact .inr hfresh

/-- Writes that only update rows. -/
lemma storeAll (ws : List Write)
    (h : ∀ id row, .delivery id row ∈ ws →
      ∃ d, db.deliveries.lookup id = some d ∧ RowStep A id d row) :
    RowsStep A new db (db.storeAll ws) where
  kept := by
    intro id d hd
    rcases db.storeAll_delivery ws id with ⟨row, hmem, hlook⟩ | ⟨-, hlook⟩
    · obtain ⟨d₀, hd₀, hstep⟩ := h id row hmem
      obtain rfl := Option.some.inj (hd.symm.trans hd₀)
      exact ⟨row, hlook, .single hstep⟩
    · exact ⟨d, hlook.trans hd, .refl⟩
  came := by
    intro id d' hd'
    rcases db.storeAll_delivery ws id with ⟨row, hmem, -⟩ | ⟨-, hlook⟩
    · obtain ⟨d₀, hd₀, -⟩ := h id row hmem
      exact .inl ⟨d₀, hd₀⟩
    · exact .inl ⟨d', hlook.symm.trans hd'⟩

lemma setDelivery {id : DeliveryId} {d row : Delivery} (hd : db.deliveries.lookup id = some d)
    (h : RowStep A id d row) : RowsStep A new db (db.setDelivery id row) := by
  refine storeAll [.delivery id row] fun id' row' hmem => ?_
  simp only [List.mem_singleton, Write.delivery.injEq] at hmem
  obtain ⟨rfl, rfl⟩ := hmem
  exact ⟨d, hd, h⟩

end RowsStep

/-- A quiet statement only updates rows, and makes no state change. -/
lemma RowsStep.quiet {A : Calls} {new : Prop} {β : Type} {s : Sql β} (hs : s.isQuiet = true)
    (hk : ∀ state, s.checks? = some state → A.checks state) {db db' : Db} {b : β}
    (h : Tx.run (sql s) db = .ok (b, db')) : RowsStep A new db db' := by
  obtain ⟨e, he, -, rfl⟩ := Tx.run_sql_ok.mp h
  refine .storeAll _ fun id row hmem => ?_
  rcases (Sql.exec_sound s he).deliveries id row hmem with
    ⟨d, u, hfound, happ, rfl, hu⟩ | ⟨-, _, _, _, _, _, _, _, _, -, -, hins⟩
  · obtain ⟨hquiet, hchecks⟩ := Sql.update_of_isQuiet hs hu
    refine ⟨d, hfound, .mk u happ ?_⟩
    cases u with
    | claim | apply | recordLateReceipt => cases hquiet
    | takeCheck | setCheckDue => exact hk _ hchecks.symm
    | _ => trivial
  · rw [Sql.insertsDelivery_of_isQuiet hs] at hins
    cases hins

/-- **What a program does to the deliveries.** -/
lemma Built.rows {A : Calls} {reach : Reach} {α : Type} {p : Tx α} (hp : Built A reach p) :
    ∀ {db db' : Db} {a : α}, Tx.run p db = .ok (a, db') → RowsStep A (reach = .posts) db db' := by
  induction hp with
  | done a =>
    intro db db' a' h
    obtain ⟨-, rfl⟩ := Tx.run_done_ok.mp h
    exact .refl _
  | fail e =>
    intro db db' a h
    exact absurd h (by simp)
  | bind _ _ ihp ihf =>
    intro db db' b h
    obtain ⟨a, db₁, hp, hf⟩ := Tx.run_bind_ok.mp h
    exact (ihp hp).trans (ihf a hf)
  | quiet s hs _ hk => exact fun h => .quiet hs hk h
  | touch _ job now =>
    intro db db' change h
    exact .of_eq (touchJob_deliveries h)
  | claim id gen now lease =>
    intro db db' o h
    rcases DeliveryRepo.claim_ok h with ⟨-, rfl⟩ | ⟨d, j, change, hd, -, happ, -, -, -, htouch⟩
    · exact .refl _
    · have hclaimed : RowsStep A (reach = .posts) db (db.setDelivery id _) := .setDelivery hd
        (.mk (.claim now (now + lease)) happ trivial)
      exact hclaimed.trans (.of_eq (touchJob_deliveries htouch))
  | apply fence event data now call =>
    intro db db' applied h
    rcases DeliveryRepo.apply_ok h with ⟨-, rfl, -⟩ | ⟨state, job, d, hl, -⟩
    · exact .refl _
    · obtain ⟨db₁, htouch, hstop⟩ := hl.stored
      have hmoved : RowsStep A (reach = .posts) db db₁ := (RowsStep.setDelivery hl.found (hl.rowStep call)).trans
        (.of_eq (touchJob_deliveries htouch))
      rcases DeliveryRepo.stopCampaign_ok hstop with rfl | ⟨sends, counts, d', hd', rfl⟩
      · exact hmoved
      · have hcounts : RowsStep A (reach = .posts) db₁
            (db₁.setDelivery fence.id ((DeliveryUpdate.setDirectCounts counts).set d')) :=
          .setDelivery hd' (.mk (.setDirectCounts counts) trivial trivial)
        exact (hmoved.trans hcounts).trans (.of_eq rfl)
  | lateReceipt id receipt now =>
    intro db db' o h
    rcases DeliveryRepo.recordLateReceipt_ok.1 h with
      ⟨d, change, hd, hs, hr, -, htouch⟩ | ⟨-, -, rfl⟩
    · have hlanded : RowsStep A (reach = .posts) db (db.setDelivery id _) := .setDelivery hd
        (.mk (.recordLateReceipt receipt now) ⟨hs, hr⟩ trivial)
      exact hlanded.trans (.of_eq (touchJob_deliveries htouch))
    · exact .refl _
  | insert hreach owner actor post row new dbNow now =>
    intro db db' dispatches h
    obtain ⟨deliveries, status, -, -, -, hadds, hrefresh⟩ := JobRepo.insert_ok h
    obtain ⟨-, j, -, -, rfl⟩ := DeliveryRepo.refreshJobStatus_ok.1 hrefresh
    refine RowsStep.trans ⟨fun id d hd => ⟨d, hadds.kept id d hd, .refl⟩, fun id d' hd' => ?_⟩
      (.of_eq (Db.refreshed_deliveries _ _ _ _))
    rcases hadds.added id d' hd' with hold | ⟨o, a, op, due, actor, now, rfl⟩
    · exact .inl ⟨d', hold⟩
    · exact .inr ⟨hreach, o, _, _, a, op, due, actor, now, .refl⟩
  | edit _ post =>
    intro db db' u h
    obtain ⟨e, he, -, rfl⟩ := Tx.run_sql_ok.mp h
    refine .storeAll _ fun id row hmem => ?_
    simp only [Sql.exec, Except.ok.injEq] at he
    subst he
    split at hmem <;> simp [Sql.read] at hmem

/-! ## A run -/

/-- The fenced writes a step of a run makes, and the check chains it moves. -/
def Event.Calls : Event → Calls
  | .did op _ => op.Calls
  | _ => { writes := fun _ _ _ => False }

/-- Whether deliveries come in. -/
def Event.creates : Event → Prop
  | .did op _ => op.reach = .posts
  | _ => False

lemma OpStep.rows {db db' : Db} {e : Event} (h : OpStep db e db') :
    RowsStep e.Calls e.creates db db' := by
  cases h with
  | @did β op value _ h => exact op.built.rows h
  | failed => exact .refl _
  | wrotePost => exact .of_eq rfl
  | outside => exact .of_eq rfl

section Rules

variable {A : Calls} {new : Prop} {db db' : Db}

/-- What every update of a row relates, a step relates. -/
lemma RowsStep.relates (h : RowsStep A new db db') {R : Delivery → Delivery → Prop}
    (hrefl : ∀ d, R d d) (htrans : ∀ {d d' d''}, R d d' → R d' d'' → R d d'')
    {id : DeliveryId} (hstep : ∀ {d d'}, RowStep A id d d' → R d d') {d : Delivery}
    (hd : db.deliveries.lookup id = some d) :
    ∃ d', db'.deliveries.lookup id = some d' ∧ R d d' := by
  have hclosure {d' : Delivery} (hrel : Relation.ReflTransGen (RowStep A id) d d') : R d d' := by
    induction hrel with
    | refl => exact hrefl d
    | tail _ step ih => exact htrans ih (hstep step)
  obtain ⟨d', hd', hrel⟩ := h.kept id d hd
  exact ⟨d', hd', hclosure hrel⟩

/-- What fresh rows have and every update of a row keeps, every row has. -/
lemma RowsStep.keep (h : RowsStep A new db db') {P : DeliveryId → Delivery → Prop}
    (hfresh : ∀ id owner job post account operation dueAt actor dbNow,
      P id (Delivery.fresh owner job post account operation dueAt actor dbNow))
    (hstep : ∀ {id d d'}, RowStep A id d d' → P id d → P id d')
    (hdb : ∀ id d, db.deliveries.lookup id = some d → P id d) :
    ∀ id d, db'.deliveries.lookup id = some d → P id d := by
  have hclosure {id : DeliveryId} {d d' : Delivery}
      (hrel : Relation.ReflTransGen (RowStep A id) d d') (hP : P id d) : P id d' := by
    induction hrel with
    | refl => exact hP
    | tail _ step ih => exact hstep step ih
  intro id d' hd'
  rcases h.came id d' hd' with ⟨d, hd⟩ | ⟨-, o, j, p, a, op, due, actor, now, hrel⟩
  · obtain ⟨d₁, hd₁, hrel⟩ := h.kept id d hd
    obtain rfl := Option.some.inj (hd₁.symm.trans hd')
    exact hclosure hrel (hdb id d hd)
  · exact hclosure hrel (hfresh id o j p a op due actor now)

/-- An update leads to a state that is neither a claim's nor a late receipt's only by a fenced
write. -/
lemma RowStep.state {id : DeliveryId} {d d' : Delivery} (h : RowStep A id d d') {s : StateName}
    (hs : s ∉ [.claimed, .cancelled, .published])
    (hcalls : ∀ fence event data target, A fence event data → fence.id = id →
      transition fence.expected event = .ok target → target.asStr ≠ s) (hstate : d'.state = s) :
    d.state = s := by
  subst hstate
  obtain ⟨u, -, called⟩ := h
  cases u with
  | claim => exact absurd (List.mem_of_elem_eq_true rfl) hs
  | recordLateReceipt => exact absurd (List.mem_of_elem_eq_true rfl) hs
  | apply move data now =>
    obtain ⟨fence, event, hcall, hid, -, -, htrans | ⟨-, hcancelled⟩⟩ := called
    · exact absurd rfl (hcalls fence event data move.target hcall hid htrans)
    · refine absurd ?_ hs
      show move.target.asStr ∈ _
      rw [hcancelled]
      exact List.mem_of_elem_eq_true rfl
  | _ => rfl

/-- No update changes the operation. -/
lemma RowStep.operation {id : DeliveryId} {d d' : Delivery} (h : RowStep A id d d') :
    d'.operation = d.operation := by
  obtain ⟨u, -, -⟩ := h
  cases u <;> rfl

/-- A delivery came to such a state by a fenced write, or was in it before. -/
lemma RowsStep.state (h : RowsStep A new db db') {id : DeliveryId} {s : StateName}
    (hs : s ∉ [.pending, .claimed, .cancelled, .published])
    (hcalls : ∀ fence event data target, A fence event data → fence.id = id →
      transition fence.expected event = .ok target → target.asStr ≠ s) {d' : Delivery}
    (hd' : db'.deliveries.lookup id = some d') (hstate : d'.state = s) :
    ∃ d, db.deliveries.lookup id = some d ∧ d.state = s ∧ d'.operation = d.operation := by
  have hwas {d d' : Delivery} (hrel : Relation.ReflTransGen (RowStep A id) d d')
      (hstate : d'.state = s) : d.state = s ∧ d'.operation = d.operation := by
    induction hrel with
    | refl => exact ⟨hstate, rfl⟩
    | tail _ step ih =>
      obtain ⟨hs₁, hop⟩ := ih (step.state (fun h => hs (List.mem_cons_of_mem _ h)) hcalls hstate)
      exact ⟨hs₁, step.operation.trans hop⟩
  rcases h.came id d' hd' with ⟨d, hd⟩ | ⟨-, o, j, p, a, op, due, actor, now, hrel⟩
  · obtain ⟨d₁, hd₁, hrel⟩ := h.kept id d hd
    obtain rfl := Option.some.inj (hd₁.symm.trans hd')
    exact ⟨d, hd, hwas hrel hstate⟩
  · obtain ⟨hpending, -⟩ := hwas hrel hstate
    exact absurd (hpending ▸ List.mem_cons_self) hs

end Rules

end Postit.Data
