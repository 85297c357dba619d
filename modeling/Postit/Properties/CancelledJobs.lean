import Postit.Data.Locking
import Postit.Properties.OrderlyOperations

/-!
# Cancelled jobs strand nothing

The operations run side by side, each statement one atomic step.  Once the cancel of a job has
committed, none of its deliveries waits for a worker, at any later time: the cancel deals with all
deliveries it finds, and whatever would send one back to `pending` afterwards ends it instead.
-/

namespace Postit.Data

open Postit.Framework

/-! ## Locking a job -/

/-- The transaction has locked the job's deliveries, which are `rows`, and written nothing. -/
structure Locked (job : PublishJobId) (rows : List (DeliveryId × Delivery)) (l : Mine) (db : Db) :
    Prop where
  inOrder : InOrder none ∅ l db
  unwritten : l.writes = []
  hasJob : ∃ j, db.jobs.lookup job = some j
  all : ∀ id d, db.deliveries.lookup id = some d → d.jobId = job → (id, d) ∈ rows
  found : ∀ r ∈ rows, db.deliveries.lookup r.1 = some r.2 ∧ r.2.jobId = job ∧
    l.Holds (.delivery r.1)
  nodup : (rows.map Prod.fst).Nodup

section Locked

variable {job : PublishJobId} {rows : List (DeliveryId × Delivery)} {l : Mine} {db db' : Db}

lemma Locked.stable (h : Locked job rows l db) (hrely : Rely l.held db db') :
    Locked job rows l db' where
  inOrder := h.inOrder.stable hrely
  unwritten := h.unwritten
  hasJob := by
    obtain ⟨j, hj⟩ := h.hasJob
    exact hrely.jobKept job j hj
  all := by
    intro id d hd hjob
    cases hold : db.deliveries.lookup id with
    | none =>
      -- a delivery that came meanwhile came with its job, but this job was there
      obtain ⟨j, hj⟩ := h.hasJob
      have hnone := hrely.came id d hd hold
      rw [hjob, hj] at hnone
      cases hnone
    | some d₀ =>
      obtain ⟨d₁, hd₁, hjob₁⟩ := hrely.kept id d₀ hold
      obtain rfl := Option.some.inj (hd₁.symm.trans hd)
      have hmem := h.all id d₀ hold (hjob₁.symm.trans hjob)
      have hsame := hrely.rows id (h.found _ hmem).2.2
      rw [hsame, hold] at hd
      rw [← Option.some.inj hd]
      exact hmem
  found := by
    intro r hr
    obtain ⟨hfound, hjob, hheld⟩ := h.found r hr
    exact ⟨(hrely.rows _ hheld).trans hfound, hjob, hheld⟩
  nodup := h.nodup

/-- A read keeps the lock. -/
lemma Locked.read (h : Locked job rows l db) {β : Type} {s : Sql β} (hs : s.isMild = true)
    {free : RowRef → Bool} {e : Effect β} (he : s.exec free (l.view db) = .ok e)
    (hwrites : e.writes = []) : Locked job rows (statements.after l e) db where
  inOrder := h.inOrder.mild hs he
  unwritten := by
    change l.writes ++ e.writes = []
    rw [hwrites, h.unwritten]
    rfl
  hasJob := h.hasJob
  all := h.all
  found := fun r hr =>
    ⟨(h.found r hr).1, (h.found r hr).2.1, mem_held_after (h.found r hr).2.2⟩
  nodup := h.nodup

end Locked

/-- Loading rows changes nothing, whatever the others do. -/
lemma among_eachLoad {P : Mine → Db → Prop} : ∀ rows : List (DeliveryId × Delivery),
    Among P (Prog.each rows fun r => load r.1 r.2) fun ls l db =>
      (ls.map (fun d => (d.id, d.row)) = rows ∧
        ∀ d ∈ ls, DeliveryUpdate.InState d.row d.state) ∧ P l db
  | [] => .done fun _ _ h => ⟨⟨rfl, by simp⟩, h⟩
  | r :: rows => by
      refine .bind (.bind (.ofExcept _ _) fun state => .of_pure fun hstate =>
        .done (Q := fun (d : Loaded) l db => (d.id = r.1 ∧ d.row = r.2 ∧
          DeliveryUpdate.InState d.row d.state) ∧ P l db) fun _ _ h => ?_) fun d => .of_pure fun hd =>
        .bind (among_eachLoad rows) fun ls => .of_pure fun hls => .done fun _ _ h => ?_
      · exact ⟨⟨rfl, rfl, DeliveryUpdate.inState_iff.mpr hstate⟩, h⟩
      · refine ⟨⟨?_, ?_⟩, h⟩
        · rw [List.map_cons, hls.1, hd.1, hd.2.1]
        · rw [List.forall_mem_cons]
          exact ⟨hd.2.2, hls.2⟩

/-- Locking a job for a whole-job action, at the start of the transaction. -/
lemma among_lockVisibleJob (scope : OwnerScope) (job : PublishJobId) :
    Among (fun l db => InOrder none ∅ l db ∧ l.writes = [])
      (JobRepo.lockVisibleJob scope job) fun ls l db =>
        (∀ d ∈ ls, DeliveryUpdate.InState d.row d.state) ∧
          Locked job (ls.map fun d => (d.id, d.row)) l db := by
  have hview {l : Mine} {db : Db} (h : l.writes = []) : l.view db = db := by
    rw [Mine.view_eq, h]
    rfl
  refine .bind (Q := fun r l db => (InOrder none ∅ l db ∧ l.writes = []) ∧
      (r = true → ∃ j, db.jobs.lookup job = some j))
    (.perform (fun _ _ _ h hrely => ⟨h.1.stable hrely, h.2⟩) ?_) fun r => ?_
  · rintro l db ⟨h, hempty⟩ free e he
    change Sql.exec free (Mine.view l db) (.selectOwnJob scope.owner job) = .ok e at he
    have hmild := h.mild rfl he
    cases he
    refine ⟨⟨hmild, ?_⟩, fun hr => ?_⟩
    · change l.writes ++ [] = []
      rw [hempty]
      rfl
    · obtain ⟨j, hj, -⟩ := (Option.any_eq_true _ _).mp hr
      rw [hview hempty] at hj
      exact ⟨j, hj⟩
  refine .bind (.guard _ _) fun _ => .of_pure fun hr => ?_
  refine .bind (Q := fun ls l db => (∀ d ∈ ls, DeliveryUpdate.InState d.row d.state) ∧
      Locked job (ls.map fun d => (d.id, d.row)) l db) ?_ fun ls => ?_
  · refine .bind (Q := fun rows => Locked job rows) (.perform (fun _ _ _ h hrely => ?_) ?_)
      fun rows => (among_eachLoad rows).consequence (fun _ _ h => h) fun ls l db h => ?_
    · refine ⟨⟨h.1.1.stable hrely, h.1.2⟩, fun hr => ?_⟩
      obtain ⟨j, hj⟩ := h.2 hr
      exact hrely.jobKept job j hj
    · rintro l db ⟨⟨h, hempty⟩, hhas⟩ free e he
      change Sql.exec free (Mine.view l db) (.lockJobDeliveries job) = .ok e at he
      have hmild := h.mild rfl he
      rw [hview hempty] at he
      cases he
      refine ⟨hmild, ?_, hhas hr, fun id d hd hjob => ?_, fun r hr => ?_, ?_⟩
      · change l.writes ++ [] = []
        rw [hempty]
        rfl
      · exact (List.mem_insertionSort _).mpr (Table.mem_select.mpr ⟨hd, by simpa using hjob⟩)
      · obtain ⟨hfound, hjob⟩ := Sql.mem_deliveriesWhere hr
        refine ⟨hfound, by simpa using hjob, ?_⟩
        refine List.mem_append_right _ (List.mem_append_left _ ?_)
        exact List.mem_map_of_mem (List.mem_map_of_mem hr)
      · exact Sql.nodup_deliveriesWhere _ _
    · exact ⟨h.1.2, h.1.1 ▸ h.2⟩
  · refine .of_pure fun hstates => .bind
      (Q := fun _ => Locked job (ls.map fun d => (d.id, d.row)))
      (.perform (fun _ _ _ h hrely => h.stable hrely) ?_) fun own => ?_
    · intro l db h free e he
      change Sql.exec free (Mine.view l db) (.lockOwnJob scope.owner job) = .ok e at he
      refine h.read rfl he ?_
      simp only [Sql.exec, Except.ok.injEq] at he
      subst he
      split <;> rfl
    · exact .bind (.guard _ _) fun _ => .of_pure fun _ => .bind (.guard _ _) fun _ =>
        .of_pure fun _ => .bind (.guard _ _) fun _ => .of_pure fun _ =>
        .done fun _ _ h => ⟨hstates, h⟩

/-! ## Cancelling its deliveries -/

/-- The deliveries are as the transaction locked them. -/
structure Untouched (rest : List Loaded) (l : Mine) (db : Db) : Prop where
  found : ∀ d ∈ rest, db.deliveries.lookup d.id = some d.row
  seen : ∀ d ∈ rest, (l.view db).deliveries.lookup d.id = some d.row
  held : ∀ d ∈ rest, l.Holds (.delivery d.id)
  inState : ∀ d ∈ rest, DeliveryUpdate.InState d.row d.state
  nodup : (rest.map (·.id)).Nodup

/-- The transaction cancelled the job and still has to deal with the deliveries `rest`. -/
structure Cancelling (job : PublishJobId) (rest : List Loaded) (l : Mine) (db : Db) : Prop where
  inOrder : InOrder (some job) {id | ∃ d ∈ rest, d.id = id} l db
  untouched : Untouched rest l db

section Cancelling

variable {job : PublishJobId} {d : Loaded} {rest : List Loaded} {l : Mine} {db db' : Db}

lemma Untouched.tail (h : Untouched (d :: rest) l db) : Untouched rest l db where
  found := fun d' hd' => h.found d' (List.mem_cons_of_mem d hd')
  seen := fun d' hd' => h.seen d' (List.mem_cons_of_mem d hd')
  held := fun d' hd' => h.held d' (List.mem_cons_of_mem d hd')
  inState := fun d' hd' => h.inState d' (List.mem_cons_of_mem d hd')
  nodup := (List.nodup_cons.mp h.nodup).2

lemma Untouched.ne (h : Untouched (d :: rest) l db) {d' : Loaded} (hd' : d' ∈ rest) :
    d'.id ≠ d.id := by
  intro heq
  have hmem : d'.id ∈ rest.map (·.id) := List.mem_map_of_mem hd'
  rw [heq] at hmem
  exact (List.nodup_cons.mp h.nodup).1 hmem

/-- A statement that writes none of them leaves them untouched. -/
lemma Untouched.after (h : Untouched rest l db) {β : Type} {e : Effect β}
    (hleaves : ∀ d ∈ rest, ∀ row, .delivery d.id row ∉ e.writes) :
    Untouched rest (statements.after l e) db where
  found := h.found
  seen := by
    intro d hd
    rw [view_after]
    rcases (l.view db).storeAll_delivery e.writes d.id with ⟨row, hmem, -⟩ | ⟨-, hlook⟩
    · exact absurd hmem (hleaves d hd row)
    · exact hlook.trans (h.seen d hd)
  held := fun d hd => mem_held_after (h.held d hd)
  inState := h.inState
  nodup := h.nodup

lemma Cancelling.stable (h : Cancelling job rest l db) (hrely : Rely l.held db db') :
    Cancelling job rest l db' := by
  obtain ⟨horder, hfound, hseen, hheld, hstate, hnodup⟩ := h
  refine ⟨horder.stable hrely, fun d hd => ?_, fun d hd => ?_, hheld, hstate, hnodup⟩
  · exact (hrely.rows _ (hheld d hd)).trans (hfound d hd)
  · exact (l.view_delivery_congr (hrely.rows _ (hheld d hd))).trans (hseen d hd)

/-- A delivery is dealt with, once it is what a cancel makes of it. -/
lemma InOrder.settle (h : InOrder (some job) {id | ∃ d' ∈ d :: rest, d'.id = id} l db)
    (hat : ∀ d₀ d', db.deliveries.lookup d.id = some d₀ →
      (l.view db).deliveries.lookup d.id = some d' → AtCancel d₀.state d'.state) :
    InOrder (some job) {id | ∃ d' ∈ rest, d'.id = id} l db :=
  { h with
    atCancel := by
      intro i d₀ d' hd₀ hd' hJ hnot hc
      obtain ⟨hheld, hdone⟩ := h.atCancel i d₀ d' hd₀ hd' hJ hnot hc
      refine ⟨hheld, fun hi => ?_⟩
      by_cases hid : i = d.id
      · subst hid
        exact hat d₀ d' hd₀ hd'
      · refine hdone ?_
        rintro ⟨d₁, hd₁, rfl⟩
        rcases List.mem_cons.mp hd₁ with rfl | hmem
        · exact hid rfl
        · exact hi ⟨d₁, hmem, rfl⟩ }

/-- A delivery a cancel leaves alone is dealt with as it is. -/
lemma Cancelling.drop (h : Cancelling job (d :: rest) l db)
    (hs : d.state.asStr ≠ .pending ∧ d.state.asStr ≠ .claimed ∧ d.state.asStr ≠ .parked) :
    Cancelling job rest l db := by
  have hd := List.mem_cons_self (a := d) (l := rest)
  refine ⟨h.inOrder.settle fun d₀ d' hd₀ hd' => ?_, h.untouched.tail⟩
  obtain rfl := Option.some.inj (hd₀.symm.trans (h.untouched.found d hd))
  obtain rfl := Option.some.inj (hd'.symm.trans (h.untouched.seen d hd))
  refine .refl ?_
  rw [(h.untouched.inState d hd).1]
  exact hs

/-- The write that cancels a delivery the transaction locked: its fence matches. -/
lemma Cancelling.move (h : Cancelling job (d :: rest) l db) {move : Move}
    (hexp : move.expected = d.state) (htgt : move.target = .cancelled)
    (hs : d.state.asStr = .pending ∨ d.state.asStr = .claimed ∨ d.state.asStr = .parked ∨
      d.state.asStr = .processing)
    {data : TransitionData} {now : Time} {free : RowRef → Bool} {e : Effect (Option Delivery)}
    (he : Sql.exec free (l.view db) (.applyTransition d.id d.row.dispatchGen move data now) =
      .ok e) : Cancelling job rest (statements.after l e) db := by
  have hd := List.mem_cons_self (a := d) (l := rest)
  have hseen := h.untouched.seen d hd
  have happ : (DeliveryUpdate.apply move data now).Applies d.row := by
    change DeliveryUpdate.InState d.row move.expected
    rw [hexp]
    exact h.untouched.inState d hd
  have hwrites : e.writes = [.delivery d.id ((DeliveryUpdate.apply move data now).set d.row)] := by
    simp only [Sql.exec, Sql.updateDelivery, hseen, happ, Except.ok.injEq] at he
    simp [← he]
  have hnew : ((DeliveryUpdate.apply move data now).set d.row).state = .cancelled := by
    change move.target.asStr = .cancelled
    rw [htgt]
    rfl
  -- the row is still to be dealt with while it is written
  have hwritten := h.inOrder.after (e := e) (fun id row hmem => ?_)
    (fun job' row hmem => by simp [hwrites] at hmem)
  · refine ⟨hwritten.settle fun d₀ d' hd₀ hd' => ?_, h.untouched.tail.after fun d' hd' row hmem => ?_⟩
    · obtain rfl := Option.some.inj (hd₀.symm.trans (h.untouched.found d hd))
      rw [view_after, hwrites] at hd'
      obtain rfl := Option.some.inj ((AList.lookup_insert _).symm.trans hd')
      rw [hnew, (h.untouched.inState d hd).1]
      exact .cancelled hs
    · simp only [hwrites, List.mem_singleton, Write.delivery.injEq] at hmem
      exact h.untouched.ne hd' hmem.1
  · simp only [hwrites, List.mem_singleton, Write.delivery.injEq] at hmem
    obtain ⟨rfl, rfl⟩ := hmem
    refine .inl ⟨d.row, hseen, rfl, fun _ => ?_, fun _ _ _ hid => absurd ⟨d, hd, rfl⟩ hid⟩
    rw [hnew]
    exact .cancelled _

end Cancelling

/-- What follows on a delivery that was dealt with leaves the rest alone. -/
lemma among_cancelling {job : PublishJobId} {rest : List Loaded} {α : Type} {p : Tx α}
    {id : Option DeliveryId} (hp : p.Only fun s => s.MildBut id)
    (hid : ∀ d ∈ rest, some d.id ≠ id) :
    Among (Cancelling job rest) p fun _ => Cancelling job rest := by
  refine .invariant (fun _ _ _ h hrely => h.stable hrely) (fun s hs l db h free e he => ?_) hp
  exact ⟨h.inOrder.mild hs.1 he,
    h.untouched.after fun d hd => hs.2 d.id (hid d hd) free _ e he⟩

lemma transition_cancel {s t : DeliveryState} (h : transition s .cancel = .ok t) :
    t = .cancelled :=
  of_transition (P := fun _ e t => e = .cancel → t = .cancelled) (by decide) h rfl

/-- Cancelling one locked delivery by a fenced write. -/
lemma among_cancelNow {job : PublishJobId} (d : Loaded) (rest : List Loaded)
    (actor : Option UserId) (now : Time)
    (hs : d.state.asStr = .pending ∨ d.state.asStr = .claimed ∨ d.state.asStr = .parked ∨
      d.state.asStr = .processing) :
    Among (Cancelling job (d :: rest)) (cancelNow d actor now) fun _ => Cancelling job rest := by
  have hne : Among (Cancelling job (d :: rest))
      (DeliveryRepo.apply ⟨d.id, d.row.dispatchGen, d.state⟩ .cancel { actor } now)
      fun _ l db => (∀ d' ∈ rest, some d'.id ≠ some d.id) ∧ Cancelling job rest l db := by
    refine .bind (.ofExcept _ _) fun planned => .of_pure fun hplanned => ?_
    obtain ⟨hexp, htrans⟩ := Move.of_eq_ok hplanned
    have htgt := transition_cancel htrans
    refine .bind (Q := fun move l db => move = planned ∧ Cancelling job (d :: rest) l db) ?_
      fun move => .of_pure ?_
    · unfold DeliveryRepo.resolveMove
      split
      · rename_i hp
        rw [htgt] at hp
        cases hp
      · exact .done fun _ _ h => ⟨rfl, h⟩
    · rintro rfl
      refine .bind (Q := fun _ l db => (∀ d' ∈ rest, some d'.id ≠ some d.id) ∧
        Cancelling job rest l db) (.perform (fun _ _ _ h hrely => h.stable hrely) ?_)
        fun o => .of_pure fun hrest => ?_
      · intro l db h free e he
        change Sql.exec free (Mine.view l db)
          (.applyTransition d.id d.row.dispatchGen move { actor } now) = .ok e at he
        refine ⟨fun d' hd' heq => ?_, h.move hexp htgt hs he⟩
        exact h.untouched.ne hd' (Option.some.inj heq)
      · cases o with
        | none => exact .done fun _ _ h => ⟨hrest, h⟩
        | some row =>
          exact .bind (among_cancelling (touchJob_only (some d.id) _ _) hrest) fun _ =>
            .bind (among_cancelling (stopCampaign_only d.id _ _) hrest) fun _ =>
            .done fun _ _ h => ⟨hrest, h⟩
  refine .bind hne fun applied => ?_
  cases applied <;> exact .done fun _ _ h => h.2

/-- Dealing with one of the deliveries of the job. -/
lemma among_cancelLoaded {job : PublishJobId} (d : Loaded) (rest : List Loaded)
    (actor : Option UserId) (now : Time) :
    Among (Cancelling job (d :: rest)) (cancelLoaded d actor now) fun _ => Cancelling job rest := by
  have hdrop {α : Type} {a : α}
      (hs : d.state.asStr ≠ .pending ∧ d.state.asStr ≠ .claimed ∧ d.state.asStr ≠ .parked) :
      Among (Cancelling job (d :: rest)) (Prog.done a) fun _ => Cancelling job rest :=
    .done fun _ _ h => h.drop hs
  unfold cancelLoaded
  split
  · rename_i hstate
    exact among_cancelNow d rest actor now (.inl (by rw [hstate]; rfl))
  · rename_i hstate
    exact among_cancelNow d rest actor now (.inr (.inl (by rw [hstate]; rfl)))
  · rename_i hstate
    exact among_cancelNow d rest actor now (.inr (.inr (.inl (by rw [hstate]; rfl))))
  · rename_i hstate
    refine Store.Triple.bind (Q := fun _ l db => (∀ d' ∈ rest, some d'.id ≠ some d.id) ∧
      Cancelling job rest l db) (.perform (fun _ _ _ h hrely => h.stable hrely) ?_) fun _ =>
      .of_pure fun hrest => .bind (among_cancelling (touchJob_only (some d.id) _ _) hrest)
        fun _ => .done fun _ _ h => h
    intro l db h free e he
    change Sql.exec free (Mine.view l db) (.requestCancel d.id now actor) = .ok e at he
    have hd := h.drop (by rw [hstate]; decide)
    refine ⟨fun d' hd' heq => h.untouched.ne hd' (Option.some.inj heq), hd.inOrder.mild rfl he,
      hd.untouched.after fun d' hd' row hmem => ?_⟩
    cases he
    exact updateDelivery_leaves (h.untouched.ne hd') row hmem
  · rename_i hstate
    refine .ite (fun _ => ?_) fun _ => hdrop (by rw [hstate]; decide)
    exact among_cancelNow d rest actor now (.inr (.inr (.inr (by rw [hstate]; rfl))))
  · rename_i hpending hclaimed hparked hinFlight hprocessing
    refine hdrop ?_
    cases hs : d.state with
    | pending => exact absurd hs hpending
    | claimed => exact absurd hs hclaimed
    | parked r => exact absurd hs (hparked r)
    | _ => decide

/-- Setting `cancelled_at`, with all deliveries of the job locked. -/
lemma among_setJobCancelled (job : PublishJobId) (now : Time) (actor : UserId) (ls : List Loaded)
    (hstates : ∀ d ∈ ls, DeliveryUpdate.InState d.row d.state) :
    Among (Locked job (ls.map fun d => (d.id, d.row))) (sql (.setJobCancelled job now actor))
      fun _ => Cancelling job (JobRepo.openOnes ls) := by
  refine .perform (fun _ _ _ h hrely => h.stable hrely) fun l db h free e he => ?_
  obtain ⟨j, hj⟩ := h.hasJob
  have hlview : Mine.view l db = db := by
    rw [Mine.view_eq, h.unwritten]
    rfl
  let j' := (JobUpdate.cancel now actor).set j
  have hwrites : e.writes = [.job job j'] := by
    change Sql.exec free (Mine.view l db) (.setJobCancelled job now actor) = .ok e at he
    rw [hlview] at he
    simp only [Sql.exec, Sql.updateJob, hj, Except.ok.injEq] at he
    rw [← he]
    rfl
  have hview : Mine.view (statements.after l e) db = db.setJob job j' := by
    rw [view_after, hlview, hwrites]
    rfl
  have hj' : j'.cancelledAt.isSome = true := by
    change (j.cancelledAt <|> some now).isSome = true
    cases j.cancelledAt <;> rfl
  have hcancelled (job' : PublishJobId) :
      (db.setJob job j').Cancelled job' ↔ job' = job ∨ db.Cancelled job' := by
    by_cases hjob : job' = job
    · subst hjob
      exact ⟨fun _ => .inl rfl, fun _ => ⟨j', AList.lookup_insert _, hj'⟩⟩
    · have hsame : (db.setJob job j').jobs.lookup job' = db.jobs.lookup job' :=
        AList.lookup_insert_ne hjob
      rw [Db.cancelled_congr hsame]
      simp [hjob]
  have hrow {d : Loaded} (hd : d ∈ ls) := h.found _ (List.mem_map_of_mem hd)
  have hopen {d : Loaded} (hd : d ∈ JobRepo.openOnes ls) : d ∈ ls := List.mem_of_mem_filter hd
  refine ⟨⟨h.inOrder.unstranded, ?_, ?_, ?_, ?_, ?_, ?_, ?_, ?_, ?_⟩, ?_, ?_, ?_, ?_, ?_⟩
  · intro id row hmem
    have hmem' : .delivery id row ∈ l.writes ++ e.writes := hmem
    rw [h.unwritten, hwrites] at hmem'
    simp at hmem'
  · intro job' row hmem
    have hmem' : .job job' row ∈ l.writes ++ e.writes := hmem
    rw [h.unwritten] at hmem'
    exact holds_of_write (w := .job job' row) hmem'
  · intro id d d' hd hd'
    rw [hview] at hd'
    obtain rfl := Option.some.inj (hd.symm.trans hd')
    rfl
  · intro id d' hd' hnone
    rw [hview] at hd'
    exact absurd (hnone.symm.trans hd') (by simp)
  · intro job' hnone hc
    rw [hview] at hc
    rcases (hcancelled job').mp hc with rfl | ⟨j₀, hj₀, -⟩
    · exact absurd (hnone.symm.trans hj) (by simp)
    · exact absurd (hnone.symm.trans hj₀) (by simp)
  · intro job' hc
    rw [hview]
    exact (hcancelled job').mpr (.inr hc)
  · intro id d d' hd hd' _
    rw [hview] at hd'
    obtain rfl := Option.some.inj (hd.symm.trans hd')
    exact .refl _
  · intro job' hc
    rw [hview] at hc
    exact ((hcancelled job').mp hc).symm.imp_right fun heq => congrArg some heq.symm
  · intro id d d' hd hd' hjob _ _
    rw [hview] at hd'
    obtain rfl := Option.some.inj (hd.symm.trans hd')
    obtain ⟨x, hx, heq⟩ := List.mem_map.mp (h.all id d hd (Option.some.inj hjob).symm)
    cases heq
    refine ⟨mem_held_after (hrow hx).2.2, fun htodo => .refl ?_⟩
    -- a loaded delivery that is not open has ended
    have hterm : x.state.isTerminal = true := by
      by_contra hnot
      exact htodo ⟨x, List.mem_filter.mpr ⟨hx, by simpa using hnot⟩, rfl⟩
    rw [(hstates x hx).1]
    cases hxs : x.state <;> rw [hxs] at hterm <;> first | decide | cases hterm
  · exact fun d hd => (hrow (hopen hd)).1
  · intro d hd
    rw [hview]
    exact (hrow (hopen hd)).1
  · exact fun d hd => mem_held_after (hrow (hopen hd)).2.2
  · exact fun d hd => hstates d (hopen hd)
  · have hnodup := h.nodup
    rw [List.map_map] at hnodup
    exact hnodup.sublist (List.filter_sublist.map _)

lemma among_require {P : Mine → Db → Prop} (scope : OwnerScope) (needed : Capability) :
    Among P (scope.require needed) fun _ => P := by
  unfold OwnerScope.require
  split
  · exact .done fun _ _ h => h
  · exact .ite (fun _ => .fail _) fun _ =>
      (Store.Triple.guard _ _).consequence (fun _ _ h => h) fun _ _ _ h => h.2

/-- **The cancel of a job.**  It ends with all deliveries of the job dealt with. -/
lemma among_cancelJob (scope : OwnerScope) (id : PublishJobId) (now : Time) :
    Among (fun l db => InOrder none ∅ l db ∧ l.writes = []) (JobRepo.cancelWithStatus scope id now)
      fun _ => InOrder (some id) ∅ := by
  have hnil : {i | ∃ d ∈ ([] : List Loaded), d.id = i} = (∅ : Set DeliveryId) := by simp
  refine .bind (among_require _ _) fun _ => .bind (among_lockVisibleJob scope id) fun ls =>
    .of_pure fun hstates => .bind (among_setJobCancelled id now scope.actor ls hstates) fun _ =>
    .bind (.each (I := Cancelling id) (fun d rest => ?_) _) fun _ =>
    .bind (Q := fun _ => Cancelling id []) ?_ fun _ => .done ?_
  · exact .bind (among_cancelLoaded d rest _ _) fun _ => .done fun _ _ h => h
  · exact among_cancelling (touchJob_only none _ _) (by simp)
  · exact fun _ _ h => hnil ▸ h.inOrder

/-! ## All together -/

lemma transition_userResolve {s t : DeliveryState} {o : ResolvedOutcome}
    (h : transition s (.userResolve o) = .ok t) : t ≠ .pending :=
  of_transition (P := fun _ e t => e = .userResolve .published ∨ e = .userResolve .failed →
    t ≠ .pending) (by decide +kernel) h (by cases o <;> simp)

/-- Every operation commits in order. -/
lemma Op.ready {β : Type} (op : Op β) {db : Db}
    (hnamed : ∀ id, op.named = some id → (db.deliveries.lookup id).isSome = true)
    (h : Unstranded db) :
    statements.Safe Rely op.tx (fun _ l db => ∃ J, InOrder J ∅ l db) {} db := by
  have plain (hop : Among (InOrder none ∅) op.tx fun _ => InOrder none ∅) :
      statements.Safe Rely op.tx (fun _ l db => ∃ J, InOrder J ∅ l db) {} db :=
    (hop {} db (.start h)).mono fun _ _ _ hl => ⟨none, hl⟩
  have rows (hreach : op.reach ≠ .cancels)
      (hcalls : ∀ f e t, op.Calls f e t → transition f.expected e ≠ .ok .pending) :=
    plain (op.built.among hreach hcalls)
  -- a cancel leads to `cancelled`
  have hcancel {f : Fence} {e : DeliveryEvent} (he : e = .cancel) :
      transition f.expected e ≠ .ok .pending := by
    rintro htgt
    rw [he] at htgt
    cases transition_cancel htgt
  cases op with
  | apply fence event data now =>
    obtain ⟨d, hd⟩ := Option.isSome_iff_exists.mp (hnamed fence.id rfl)
    have hop := among_apply fence event data now {} db ⟨.start h, fun _ => .inl ⟨d, hd⟩⟩
    exact hop.mono fun _ _ _ hl => ⟨none, hl⟩
  | cancelJob scope id now =>
    exact (among_cancelJob scope id now {} db ⟨.start h, rfl⟩).mono fun _ _ _ hl => ⟨some id, hl⟩
  | retry scope id acknowledged now => exact plain (among_retry scope id acknowledged now)
  | expiredClaims now limit => exact plain (among_expired _ _ _ _)
  | expiredInFlight now limit => exact plain (among_expired _ _ _ _)
  | unpark now parkGrace compiled limit => exact plain (among_unpark now parkGrace compiled limit)
  | cancelDelivery scope id now => exact rows nofun fun _ _ _ hcall => hcancel hcall.1
  | cancelForAccount account now => exact rows nofun fun _ _ _ hcall => hcancel hcall.1
  | cancelForOwner owner now => exact rows nofun fun _ _ _ hcall => hcancel hcall.1
  | resolve scope id outcome now =>
    refine rows nofun fun f e t hcall htgt => ?_
    rw [hcall.1] at htgt
    exact transition_userResolve htgt rfl
  | startCampaign delivery audience attempt now =>
    refine rows nofun fun f e t hcall htgt => ?_
    rw [hcall.1, hcall.2.1] at htgt
    cases htgt
  | finishIfDone fence now =>
    refine rows nofun fun f e t hcall htgt => ?_
    rw [hcall.2.1] at htgt
    cases hs : f.expected with
    | parked r => rw [hs] at htgt; cases r <;> cases htgt
    | _ => rw [hs] at htgt; cases htgt
  | _ => exact rows nofun fun _ _ _ hcall => hcall.elim

/-- Why operations that run side by side strand nothing. -/
def strandNothing : Discipline statements (fun db {_} p => Starts db p) Elsewhere where
  Inv := Unstranded
  Rely := Rely
  Ready := fun l db => ∃ J, InOrder J ∅ l db
  trans := fun _ _ _ _ h h' => h.trans h'
  stable := fun ⟨J, h⟩ hrely => ⟨J, h.stable hrely⟩
  start := by
    rintro α p db ⟨op, rfl, hnamed⟩ h
    exact op.ready hnamed h
  commit := fun _ ⟨_, h⟩ hcompatible => h.commit hcompatible
  environment := by
    rintro db db' held - (⟨o⟩ | ⟨id, owner, -⟩) <;> exact .of_eq rfl rfl
  inv := fun h hrely => hrely.unstranded h
  refl := fun _ _ => .of_eq rfl rfl

section Runs

variable {w₀ w w' : World Sql DataError Db RowRef Write} {ms ms' : List Happening} {m : Happening}

/-- What one step does to a delivery whose job is cancelled after it. -/
lemma fate_of_step (h : strandNothing.Holds w) (hstep : SideBySide w m w')
    {id : DeliveryId} {d : Delivery} (hd : w.committed.deliveries.lookup id = some d)
    (hc : w'.committed.Cancelled d.jobId) :
    ∃ d', w'.committed.deliveries.lookup id = some d' ∧ d'.jobId = d.jobId ∧
      (w.committed.Cancelled d.jobId → Onward d.state d'.state) ∧
      (¬ w.committed.Cancelled d.jobId → AtCancel d.state d'.state) := by
  cases hstep with
  | started idle hp => exact ⟨d, hd, rfl, fun _ => .refl _, fun hnot => absurd hc hnot⟩
  | ran hi hfree he hcompatible =>
    exact ⟨d, hd, rfl, fun _ => .refl _, fun hnot => absurd hc hnot⟩
  | @committed i α a l hi =>
    obtain ⟨J, hready⟩ := h.ready hi
    obtain ⟨d', hd'⟩ := Mine.exists_delivery l w.committed hd
    refine ⟨d', hd', hready.sameJob id d d' hd hd', hready.onward id d d' hd hd', fun hnot => ?_⟩
    have hJ := (hready.newly _ hc).resolve_left hnot
    exact (hready.atCancel id d d' hd hd' hJ hnot hc).2 (by simp)
  | aborted hi => exact ⟨d, hd, rfl, fun _ => .refl _, fun hnot => absurd hc hnot⟩
  | environment hdb =>
    rcases hdb with ⟨o⟩ | ⟨_, _, -⟩ <;>
      exact ⟨d, hd, rfl, fun _ => .refl _, fun hnot => absurd hc hnot⟩

/-- A delivery of a cancelled job only moves on, in every later run. -/
lemma onward_of_run (h : strandNothing.Holds w) (hrun : Run SideBySide w ms w')
    {id : DeliveryId} {d : Delivery} (hd : w.committed.deliveries.lookup id = some d)
    (hc : w.committed.Cancelled d.jobId) :
    ∃ d', w'.committed.deliveries.lookup id = some d' ∧ d'.jobId = d.jobId ∧
      w'.committed.Cancelled d.jobId ∧ Onward d.state d'.state := by
  induction hrun with
  | nil => exact ⟨d, hd, rfl, hc, .refl _⟩
  | @snoc ms u w' m run step ih =>
    obtain ⟨d', hd', hjob, hcu, honward⟩ := ih
    have hu : strandNothing.Holds u := run.invariant (fun hstep hold => hold.step hstep) h
    have hc' : w'.committed.Cancelled d'.jobId := (hu.rely step).cancelled _ (hjob ▸ hcu)
    obtain ⟨d'', hd'', hjob', hstays, -⟩ := fate_of_step hu step hd' hc'
    refine ⟨d'', hd'', hjob'.trans hjob, hjob ▸ hc', honward.trans (hstays (hjob ▸ hcu))⟩

/-- **Cancelled jobs strand nothing.**  In whatever order operations that run side by side take
their statements, commit and are given up: no delivery of a job whose `cancelled_at` is set is
pending or claimed; the step that sets it cancels the job's deliveries that were pending, claimed
or parked; and from then on each of its deliveries only moves on towards its end. -/
theorem cancelled_jobs_strand_nothing (hidle : ∀ i, w₀.sessions i = none)
    (hfresh : Fresh w₀.committed) (hrun : Run SideBySide w₀ ms w) :
    (∀ id d, w.committed.deliveries.lookup id = some d → w.committed.Cancelled d.jobId →
      d.state ≠ .pending ∧ d.state ≠ .claimed) ∧
    (∀ m w', SideBySide w m w' → ∀ id d, w.committed.deliveries.lookup id = some d →
      ¬ w.committed.Cancelled d.jobId → w'.committed.Cancelled d.jobId →
      ∃ d', w'.committed.deliveries.lookup id = some d' ∧ AtCancel d.state d'.state) ∧
    (∀ ms' w', Run SideBySide w ms' w' → ∀ id d, w.committed.deliveries.lookup id = some d →
      w.committed.Cancelled d.jobId →
      ∃ d', w'.committed.deliveries.lookup id = some d' ∧ w'.committed.Cancelled d'.jobId ∧
        Onward d.state d'.state ∧ d'.state ≠ .pending ∧ d'.state ≠ .claimed) := by
  have hstart : Unstranded w₀.committed := by
    intro id d hd
    rw [hfresh.deliveries] at hd
    cases hd
  have hold : strandNothing.Holds w := Discipline.holds_of_run hrun hidle hstart
  have hwaits {w : World Sql DataError Db RowRef Write} (h : strandNothing.Holds w) (id d)
      (hd : w.committed.deliveries.lookup id = some d) (hc : w.committed.Cancelled d.jobId) :
      d.state ≠ .pending ∧ d.state ≠ .claimed := by
    have hnot : d.state.isWaiting = false := h.inv id d hd hc
    constructor <;> rintro heq <;> rw [heq] at hnot <;> cases hnot
  refine ⟨hwaits hold, fun m w' hstep id d hd hnot hc => ?_, fun ms' w' hrun' id d hd hc => ?_⟩
  · obtain ⟨d', hd', -, -, hat⟩ := fate_of_step hold hstep hd hc
    exact ⟨d', hd', hat hnot⟩
  · obtain ⟨d', hd', hjob, hc', honward⟩ := onward_of_run hold hrun' hd hc
    have hold' := hrun'.invariant (fun hstep hold => hold.step hstep) hold
    exact ⟨d', hd', hjob ▸ hc', honward, hwaits hold' id d' hd' (hjob ▸ hc')⟩

/-- The rule on a job that is cancelled before its delivery was claimed. -/
theorem cancelled_jobs_strand_nothing_unclaimed :
    let db := (Db.sample.perform (.publishSample 1)).perform (.cancelJob (.own 1) 1 5)
    ∃ d, db.deliveries.lookup 1 = some d ∧ db.Cancelled d.jobId ∧ d.state ≠ .pending ∧
      d.state ≠ .claimed := by
  intro db
  obtain ⟨ms, hpublish⟩ := SideBySide.perform Db.sample (.publishSample 1) nofun
  obtain ⟨ms', hcancel⟩ := SideBySide.perform (Db.sample.perform (.publishSample 1))
    (.cancelJob (.own 1) 1 5) nofun
  have hrun : Run SideBySide ⟨Db.sample, fun _ => none⟩ (ms ++ ms') ⟨db, fun _ => none⟩ :=
    hpublish.append hcancel
  have hd : (db.deliveries.lookup 1).map (·.jobId) = some 1 := by decide +kernel
  have hj : (db.jobs.lookup 1).bind (·.cancelledAt) = some 5 := by decide +kernel
  clear_value db
  obtain ⟨d, hlook, hjob⟩ := Option.map_eq_some_iff.mp hd
  obtain ⟨j, hj, hat⟩ := Option.bind_eq_some_iff.mp hj
  have hc : db.Cancelled d.jobId := ⟨j, hjob ▸ hj, hat ▸ rfl⟩
  have h := cancelled_jobs_strand_nothing (fun _ => rfl) Db.fresh_sample hrun
  exact ⟨d, hlook, hc, h.1 1 d hlook hc⟩

end Runs

end Postit.Data
