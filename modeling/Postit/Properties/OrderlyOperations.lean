import Postit.Data.Locking
import Postit.Properties.Stranding

/-!
# Operations that keep in order

Every operation but the cancel of a whole job, as one transaction among others, keeps in order
(`InOrder`).  A claim sees in one statement that the job was not cancelled; a fenced write that
leads back to `pending` looks first, holding the delivery, and ends a delivery whose job it saw
cancelled.
-/

namespace Postit.Data

open Postit.Framework

/-- A precondition and a postcondition of a transaction among others. -/
abbrev Among {α : Type} (P : Mine → Db → Prop) (p : Tx α) (Q : α → Mine → Db → Prop) : Prop :=
  Store.Triple statements Rely P p Q

variable {J : Option PublishJobId} {todo : Set DeliveryId}

/-! ## Mild programs -/

lemma among_of_mild {α : Type} {p : Tx α} (hp : p.Only fun s => s.isMild = true) :
    Among (InOrder J todo) p fun _ => InOrder J todo :=
  .invariant (fun _ _ _ h hrely => h.stable hrely) (fun _ hs _ _ h _ _ he => h.mild hs he) hp

/-- The statement writes no row of the delivery. -/
def Sql.Leaves {β : Type} (s : Sql β) (id : DeliveryId) : Prop :=
  ∀ free db e, s.exec free db = .ok e → ∀ row, .delivery id row ∉ e.writes

lemma Sql.leaves_of_none {β : Type} {s : Sql β} (hu : s.deliveryUpdate? = none)
    (hins : s.insertsDelivery = false) (id : DeliveryId) : s.Leaves id := by
  intro free db e he row hmem
  rcases (Sql.exec_sound s he).deliveries id row hmem with
    ⟨d, u, -, -, -, hmade⟩ | ⟨-, _, _, _, _, _, _, _, _, -, -, hmade⟩
  · rw [hu] at hmade
    cases hmade
  · rw [hins] at hmade
    cases hmade

lemma updateDelivery_leaves {β : Type} {db : Db} {id id' : DeliveryId} {u : DeliveryUpdate}
    {cond : Delivery → Bool} {ret : Delivery → β} (hid : id' ≠ id) (row : Delivery) :
    .delivery id' row ∉ (Sql.updateDelivery db id u cond ret).writes := by
  unfold Sql.updateDelivery
  split
  · split
    · simp [hid]
    · simp [Sql.read]
  · simp [Sql.read]

/-- The statement is mild, and writes no delivery but, maybe, `id`. -/
def Sql.MildBut {β : Type} (id : Option DeliveryId) (s : Sql β) : Prop :=
  s.isMild = true ∧ ∀ id', some id' ≠ id → s.Leaves id'

lemma Sql.MildBut.of_none {β : Type} {s : Sql β} (id : Option DeliveryId) (hs : s.isMild = true)
    (hu : s.deliveryUpdate? = none) (hins : s.insertsDelivery = false) : s.MildBut id :=
  ⟨hs, fun id' _ => Sql.leaves_of_none hu hins id'⟩

lemma among_of_mildBut {α : Type} {p : Tx α} {id : Option DeliveryId}
    (hp : p.Only fun s => s.MildBut id) : Among (InOrder J todo) p fun _ => InOrder J todo :=
  .invariant (fun _ _ _ h hrely => h.stable hrely) (fun _ hs _ _ h _ _ he => h.mild hs.1 he) hp

/-- A refresh is mild and writes no delivery. -/
lemma refreshJobStatus_only (id : Option DeliveryId) (job : PublishJobId) (now : Time) :
    (DeliveryRepo.refreshJobStatus job now).Only fun s => s.MildBut id := by
  refine Prog.only_bind (Prog.only_perform (.of_none id rfl rfl rfl)) fun _ =>
    Prog.only_bind (Prog.only_ofExcept _ _) fun _ =>
    Prog.only_bind (Prog.only_perform (.of_none id rfl rfl rfl)) fun _ =>
    Prog.only_bind (Prog.only_orFail _ _) fun info => ?_
  split
  · exact Prog.only_bind (Prog.only_perform (.of_none id rfl rfl rfl)) fun _ => trivial
  · trivial

/-- So is a touch. -/
lemma touchJob_only (id : Option DeliveryId) (job : PublishJobId) (now : Time) :
    (touchJob job now).Only fun s => s.MildBut id :=
  Prog.only_bind (Prog.only_perform (.of_none id rfl rfl rfl)) fun _ =>
    Prog.only_bind (Prog.only_orFail _ _) fun _ =>
    Prog.only_bind (refreshJobStatus_only id job now) fun _ => trivial

/-- Stopping a campaign writes no other delivery. -/
lemma stopCampaign_only (id : DeliveryId) (target : DeliveryState) (row : Delivery) :
    (DeliveryRepo.stopCampaign id target row).Only fun s => s.MildBut (some id) := by
  unfold DeliveryRepo.stopCampaign
  split
  · refine Prog.only_bind (Prog.only_perform (.of_none _ rfl rfl rfl)) fun _ =>
      Prog.only_bind (Prog.only_bind (Prog.only_perform (.of_none _ rfl rfl rfl)) fun _ =>
        Prog.only_orFail _ _) fun counts => Prog.only_perform ⟨rfl, fun id' hid' => ?_⟩
    intro free db e he row hmem
    cases he
    exact updateDelivery_leaves (fun heq => hid' (congrArg some heq)) row hmem
  · trivial

/-! ## Claims, fenced writes and late receipts -/

section Single

variable {l : Mine} {db : Db}

/-- A delivery of a cancelled job that a transaction in order sees does not wait. -/
lemma InOrder.not_waiting (h : InOrder J todo l db) {id : DeliveryId} {d : Delivery}
    (hd : (l.view db).deliveries.lookup id = some d) (hc : db.Cancelled d.jobId) :
    d.state.isWaiting = false := by
  cases hold : db.deliveries.lookup id with
  | none =>
    obtain ⟨hnone, -⟩ := h.isNew id d hd hold
    obtain ⟨j, hj, -⟩ := hc
    exact absurd (hnone.symm.trans hj) (by simp)
  | some d₀ =>
    rw [h.sameJob id d₀ d hold hd] at hc
    exact (h.onward id d₀ d hold hd hc).not_waiting (h.unstranded id d₀ hold hc)

/-- One row is updated by a transaction that cancels nothing. -/
lemma InOrder.update (h : InOrder none ∅ l db) {β : Type} {id : DeliveryId} {u : DeliveryUpdate}
    {cond : Delivery → Bool} {ret : Delivery → β}
    (honward : ∀ d, (l.view db).deliveries.lookup id = some d → u.Applies d → cond d = true →
      db.Cancelled d.jobId → Onward d.state (u.set d).state) :
    InOrder none ∅ (statements.after l (Sql.updateDelivery (l.view db) id u cond ret)) db := by
  refine h.after (fun id' row hmem => ?_) (fun job row hmem => ?_)
  · unfold Sql.updateDelivery at hmem
    split at hmem
    · rename_i d hd
      split at hmem
      · rename_i happ
        simp only [List.mem_singleton, Write.delivery.injEq] at hmem
        obtain ⟨rfl, rfl⟩ := hmem
        refine .inl ⟨d, hd, ?_, honward d hd happ.1 happ.2, fun hJ => by cases hJ⟩
        cases u <;> rfl
      · cases hmem
    · cases hmem
  · unfold Sql.updateDelivery at hmem
    split at hmem
    · split at hmem
      · simp at hmem
      · cases hmem
    · cases hmem

end Single

lemma among_claim (id : DeliveryId) (gen : ℕ) (now lease : Time) :
    Among (InOrder none ∅) (DeliveryRepo.claim id gen now lease) fun _ => InOrder none ∅ := by
  refine .bind (Q := fun _ => InOrder none ∅) (.perform (fun _ _ _ h hrely => h.stable hrely) ?_)
    fun o => ?_
  · intro l db h free e he
    change Sql.exec free (Mine.view l db) (.claimDelivery id gen now (now + lease)) = .ok e at he
    simp only [Sql.exec, Except.ok.injEq] at he
    subst he
    split
    · rename_i j hj
      refine h.update fun d hd _ hcond hc => ?_
      -- the statement sees the job uncancelled
      obtain ⟨j', hj', hc'⟩ := h.cancelled _ hc
      simp only [hd, Option.bind_some] at hj
      obtain rfl := Option.some.inj (hj.symm.trans hj')
      simp only [Bool.and_eq_true, Option.isNone_iff_eq_none] at hcond
      rw [hcond.2] at hc'
      cases hc'
    · exact h.after (by simp [Sql.read]) (by simp [Sql.read])
  · cases o with
    | none => exact .done fun _ _ h => h
    | some claimed =>
      exact .bind (among_of_mildBut (touchJob_only none _ _)) fun _ => .done fun _ _ h => h

lemma among_lateReceipt (id : DeliveryId) (receipt : Receipt) (now : Time) :
    Among (InOrder none ∅) (DeliveryRepo.recordLateReceipt id receipt now)
      fun _ => InOrder none ∅ := by
  refine .bind (Q := fun _ => InOrder none ∅) (.perform (fun _ _ _ h hrely => h.stable hrely) ?_)
    fun o => ?_
  · intro l db h free e he
    cases he
    refine h.update fun d _ happ _ _ => ?_
    rw [happ.1]
    change Onward .outcomeUnknown .published
    exact .inr (.inr (by decide))
  · cases o with
    | none => exact .done fun _ _ h => h
    | some job =>
      exact .bind (among_of_mildBut (touchJob_only none _ _)) fun _ => .done fun _ _ h => h

/-- Before the write of a move: one to `pending` holds the delivery since it saw its job
uncancelled. -/
structure Moving (id : DeliveryId) (move : Move) (l : Mine) (db : Db) : Prop where
  inOrder : InOrder none ∅ l db
  uncancelled : move.target = .pending → ∃ d, (l.view db).deliveries.lookup id = some d ∧
    l.Holds (.delivery id) ∧ ¬ (l.view db).Cancelled d.jobId

lemma Moving.stable {id : DeliveryId} {move : Move} {l : Mine} {db db' : Db}
    (h : Moving id move l db) (hrely : Rely l.held db db') : Moving id move l db' := by
  have h' := h.inOrder.stable hrely
  refine ⟨h', fun hp => ?_⟩
  obtain ⟨d, hd, hheld, hnot⟩ := h.uncancelled hp
  have hsame := hrely.rows id hheld
  have hd' := (l.view_delivery_congr hsame).trans hd
  refine ⟨d, hd', hheld, fun hc => ?_⟩
  have hc' := (h'.newly _ hc).resolve_right (by simp)
  cases hold : db.deliveries.lookup id with
  | none => exact h'.newJob _ (h'.isNew id d hd' (hsame.trans hold)).1 hc
  | some d₀ =>
    have hjob := h.inOrder.sameJob id d₀ d hold hd
    rw [hjob] at hc' hnot
    exact hnot (h.inOrder.cancelled _ (hrely.uncancelled id d₀ hheld hold hc'))

/-- The rest of a fenced write, from the move it settled on. -/
lemma among_moving (fence : Fence) (move : Move) (data : TransitionData) (now : Time) :
    Among (Moving fence.id move)
      (sql (.applyTransition fence.id fence.dispatchGen move data now) >>= fun o => match o with
        | none => pure .stale
        | some row => do
            let job ← touchJob row.jobId now
            DeliveryRepo.stopCampaign fence.id move.target row
            pure (Applied.done move.target
              (DeliveryRepo.redispatchOf fence.id move.target row) job))
      fun _ => InOrder none ∅ := by
  refine .bind (Q := fun _ => InOrder none ∅) (.perform (fun _ _ _ h hrely => h.stable hrely) ?_)
    fun o => ?_
  · intro l db h free e he
    cases he
    refine h.inOrder.update fun d hd happ _ hc => ?_
    have hstate : d.state = move.expected.asStr := happ.1
    have hwait := h.inOrder.not_waiting hd hc
    rw [hstate] at hwait ⊢
    refine Move.onward hwait fun hp => ?_
    obtain ⟨d', hd', -, hnot⟩ := h.uncancelled hp
    obtain rfl := Option.some.inj (hd.symm.trans hd')
    exact hnot (h.inOrder.cancelled _ hc)
  · cases o with
    | none => exact .done fun _ _ h => h
    | some row =>
      exact .bind (among_of_mildBut (touchJob_only none _ _)) fun _ =>
        .bind (among_of_mildBut (stopCampaign_only _ _ _)) fun _ => .done fun _ _ h => h

/-- The delivery is there: it is committed, or the transaction added it. -/
def Has (id : DeliveryId) (l : Mine) (db : Db) : Prop :=
  (∃ d, db.deliveries.lookup id = some d) ∨ ∃ row, .delivery id row ∈ l.writes

lemma Has.seen {id : DeliveryId} {l : Mine} {db : Db} (h : Has id l db) :
    ∃ d, (l.view db).deliveries.lookup id = some d := by
  rcases h with ⟨d, hd⟩ | ⟨row, hrow⟩
  · exact l.exists_delivery db hd
  · rcases db.storeAll_delivery l.writes id with ⟨row', -, hlook⟩ | ⟨hnone, -⟩
    · exact ⟨row', hlook⟩
    · exact absurd hrow (hnone row)

lemma Has.of_seen {id : DeliveryId} {l : Mine} {db : Db} {d : Delivery}
    (h : (l.view db).deliveries.lookup id = some d) : Has id l db := by
  rcases db.storeAll_delivery l.writes id with ⟨row, hmem, -⟩ | ⟨-, hlook⟩
  · exact .inr ⟨row, hmem⟩
  · exact .inl ⟨d, hlook.symm.trans h⟩

lemma Has.stable {id : DeliveryId} {l : Mine} {db db' : Db} (h : Has id l db)
    (hrely : Rely l.held db db') : Has id l db' := by
  refine h.imp_left ?_
  rintro ⟨d, hd⟩
  obtain ⟨d', hd', -⟩ := hrely.kept id d hd
  exact ⟨d', hd'⟩

lemma Has.after {id : DeliveryId} {l : Mine} {db : Db} (h : Has id l db) {β : Type}
    (e : Effect β) : Has id (statements.after l e) db :=
  h.imp_right fun ⟨row, hrow⟩ => ⟨row, List.mem_append_left _ hrow⟩

/-- Whatever a transaction does, the deliveries stay there. -/
lemma Among.has {α : Type} {P : Mine → Db → Prop} {p : Tx α} {Q : α → Mine → Db → Prop}
    (h : Among P p Q) (ids : Set DeliveryId) :
    Among (fun l db => P l db ∧ ∀ id ∈ ids, Has id l db) p
      fun a l db => Q a l db ∧ ∀ id ∈ ids, Has id l db :=
  .and h (.invariant (fun _ _ _ h hrely id hid => (h id hid).stable hrely)
    (fun _ _ _ _ h _ e _ id hid => (h id hid).after e) (Prog.only_true p))

/-- A statement that writes nothing leaves the view as it was. -/
lemma view_after_of_nil (l : Mine) (db : Db) {β : Type} {e : Effect β} (h : e.writes = []) :
    Mine.view (statements.after l e) db = l.view db := by
  rw [view_after, h]
  rfl

/-- The delivery was locked, and its job was seen cancelled, or not. -/
structure Saw (id : DeliveryId) (cancelled : Bool) (l : Mine) (db : Db) : Prop where
  inOrder : InOrder none ∅ l db
  seen : ∃ d, (l.view db).deliveries.lookup id = some d ∧ l.Holds (.delivery id) ∧
    (cancelled = false → ¬ (l.view db).Cancelled d.jobId)

/-- A fenced write that does not lead back to `pending`, or whose delivery is there. -/
lemma among_apply (fence : Fence) (event : DeliveryEvent) (data : TransitionData) (now : Time) :
    Among (fun l db => InOrder none ∅ l db ∧
        (transition fence.expected event = .ok .pending → Has fence.id l db))
      (DeliveryRepo.apply fence event data now) fun _ => InOrder none ∅ := by
  refine .bind (.ofExcept _ _) fun planned => .of_pure fun hplanned => ?_
  obtain ⟨-, htrans⟩ := Move.of_eq_ok hplanned
  refine .bind (Q := fun move => Moving fence.id move) ?_ fun move => among_moving fence move data now
  unfold DeliveryRepo.resolveMove
  split
  · rename_i hp
    refine .bind (Q := fun cancelled => Saw fence.id cancelled) ?_ fun cancelled => .done ?_
    · refine .bind (Q := fun o => Saw fence.id (o.getD false))
        (.perform (fun l db db' h hrely => ?_) ?_) fun o => .done fun _ _ h => h
      · exact ⟨h.1.stable hrely, fun htgt => (h.2 htgt).stable hrely⟩
      · rintro l db ⟨h, hhas⟩ free e he
        obtain ⟨d, hd⟩ := (hhas (htrans.trans (congrArg _ hp))).seen
        change Sql.exec free (Mine.view l db) (.selectJobIsCancelled fence.id) = .ok e at he
        have hmild := h.mild rfl he
        simp only [Sql.exec, hd, Except.ok.injEq] at he
        subst he
        have hview := view_after_of_nil l db (e := Sql.readLocking
          (((Mine.view l db).jobs.lookup d.jobId).map (·.cancelledAt.isSome)) .update
          [.delivery fence.id]) rfl
        refine ⟨hmild, d, by rw [hview]; exact hd, ?_, ?_⟩
        · exact List.mem_append_right _ (List.mem_append_left _ (List.mem_singleton.mpr rfl))
        · rw [hview]
          rintro hfalse ⟨j, hj, hc⟩
          simp only [Sql.readLocking, hj, Option.map_some, Option.getD_some] at hfalse
          rw [hfalse] at hc
          cases hc
    · rintro l db ⟨h, d, hd, hheld, hnot⟩
      cases cancelled with
      | false => exact ⟨h, fun _ => ⟨d, hd, hheld, hnot rfl⟩⟩
      | true => exact ⟨h, fun htgt => by cases htgt⟩
  · rename_i hp
    exact .done fun l db h => ⟨h.1, fun htgt => absurd htgt hp⟩

/-! ## Creating a job -/

/-- The transaction made the job itself. -/
structure Makes (job : PublishJobId) (l : Mine) (db : Db) : Prop where
  inOrder : InOrder none ∅ l db
  absent : db.jobs.lookup job = none
  held : l.Holds (.job job)

lemma Makes.stable {job : PublishJobId} {l : Mine} {db db' : Db} (h : Makes job l db)
    (hrely : Rely l.held db db') : Makes job l db' :=
  ⟨h.inOrder.stable hrely, (hrely.jobs job h.held).trans h.absent, h.held⟩

lemma among_insertJob (id : PublishJobId) (row : PublishJob) (hrow : row.cancelledAt = none) :
    Among (InOrder none ∅) (sql (.insertJob id row)) fun _ => Makes id := by
  refine .perform (fun _ _ _ h hrely => h.stable hrely) fun l db h free e he => ?_
  change Sql.exec free (Mine.view l db) (.insertJob id row) = .ok e at he
  simp only [Sql.exec] at he
  split at he
  · cases he
  · rename_i habsent
    have hnone : (Mine.view l db).jobs.lookup id = none := by simpa using habsent
    split at he
    · cases he
    · unfold Sql.storeJob at he
      split at he
      · cases he
      · cases he
        refine ⟨h.after (by simp) (fun job row' hmem => ?_), ?_, ?_⟩
        · simp only [List.mem_singleton, Write.job.injEq] at hmem
          obtain ⟨rfl, rfl⟩ := hmem
          simp [Db.Cancelled, hnone, hrow]
        · cases hj : db.jobs.lookup id with
          | none => rfl
          | some j =>
            obtain ⟨j', hj'⟩ := Mine.exists_job l db hj
            exact absurd (hnone.symm.trans hj') (by simp)
        · exact holds_of_write (w := .job id row) (List.mem_singleton.mpr rfl)

lemma among_insertDelivery (id : DeliveryId) (owner : UserId) (job : PublishJobId) (post : PostId)
    (account : AccountId) (operation : Operation) (dueAt : Time) (actor : Option UserId)
    (dbNow : Time) :
    Among (Makes job)
      (sql (.insertDelivery id owner job post account operation dueAt actor dbNow))
      fun _ => Makes job := by
  refine .perform (fun _ _ _ h hrely => h.stable hrely) fun l db h free e he => ?_
  change Sql.exec free (Mine.view l db) (.insertDelivery id owner job post account operation dueAt
    actor dbNow) = .ok e at he
  simp only [Sql.exec] at he
  split at he
  · cases he
  · rename_i habsent
    split at he
    · cases he
    · split at he
      · cases he
      · cases he
        refine ⟨h.inOrder.after (fun id' row hmem => .inr ?_) (by simp), h.absent,
          mem_held_after h.held⟩
        simp only [List.mem_singleton, Write.delivery.injEq] at hmem
        obtain ⟨rfl, rfl⟩ := hmem
        exact ⟨by simpa using habsent, h.absent, h.held⟩

lemma among_insert (owner : UserId) (actor : Option UserId) (post : PostId) (row : Post)
    (new : NewJob) (dbNow now : Time) :
    Among (InOrder none ∅) (JobRepo.insert owner actor post row new dbNow now)
      fun _ => InOrder none ∅ := by
  refine .bind (.guard _ _) fun _ => .of_pure fun _ => .bind (.guard _ _) fun _ =>
    .of_pure fun _ => .bind (.guard _ _) fun _ => .of_pure fun _ =>
    .bind (among_insertJob _ _ rfl) fun _ => ?_
  refine .bind (Q := fun _ => Makes new.id) (.each (I := fun _ => Makes new.id) ?_ _) fun _ => ?_
  · exact fun target _ => .bind (among_insertDelivery _ _ _ _ _ _ _ _ _) fun _ =>
      .done fun _ _ h => h
  · refine .bind (Q := fun _ => InOrder none ∅) ?_ fun _ => .done fun _ _ h => h
    exact (among_of_mildBut (refreshJobStatus_only none _ _)).consequence
      (fun _ _ h => h.inOrder) fun _ _ _ h => h

/-! ## The operations -/

/-- **Built programs.**  A program that cancels no job as a whole and makes no fenced write back to
`pending` keeps a transaction in order. -/
lemma Built.among {A : Calls} {reach : Reach} {α : Type} {p : Tx α} (hp : Built A reach p)
    (hreach : reach ≠ .cancels)
    (hA : ∀ f e t, A f e t → transition f.expected e ≠ .ok .pending) :
    Among (InOrder none ∅) p fun _ => InOrder none ∅ := by
  induction hp with
  | done a => exact .done fun _ _ h => h
  | fail e => exact .fail e
  | bind _ _ ihp ihf => exact .bind ihp ihf
  | quiet s h hc =>
    refine among_of_mild (Prog.only_perform ?_)
    cases s <;> first | rfl | (cases h; done) | exact absurd (hc rfl) hreach
  | touch h job now => exact among_of_mildBut (touchJob_only none job now)
  | claim id gen now lease => exact among_claim id gen now lease
  | apply fence event data now call =>
    exact (among_apply fence event data now).consequence
      (fun _ _ h => ⟨h, fun htgt => absurd htgt (hA _ _ _ call)⟩) fun _ _ _ h => h
  | lateReceipt id receipt now => exact among_lateReceipt id receipt now
  | insert h owner actor post row new dbNow now =>
    exact among_insert owner actor post row new dbNow now
  | edit h post => exact among_of_mild (Prog.only_perform rfl)

/-- A program that only reads. -/
lemma Built.among_reads {α : Type} {p : Tx α} (hp : Built { writes := fun _ _ _ => False } .rows p) :
    Among (InOrder none ∅) p fun _ => InOrder none ∅ :=
  hp.among (by simp) fun _ _ _ h => h.elim

/-- A fenced write to a delivery among those that are there, which stay there. -/
lemma among_apply_of_mem (ids : Set DeliveryId) (fence : Fence) (event : DeliveryEvent)
    (data : TransitionData) (now : Time) (hid : fence.id ∈ ids) :
    Among (fun l db => InOrder none ∅ l db ∧ ∀ id ∈ ids, Has id l db)
      (DeliveryRepo.apply fence event data now)
      fun _ l db => InOrder none ∅ l db ∧ ∀ id ∈ ids, Has id l db :=
  ((among_apply fence event data now).has ids).consequence
    (fun _ _ h => ⟨⟨h.1, fun _ => h.2 _ hid⟩, h.2⟩) fun _ _ _ h => h

lemma among_lockOne (scope : OwnerScope) (id : DeliveryId) :
    Among (InOrder none ∅) (lockOne scope id)
      fun _ l db => InOrder none ∅ l db ∧ ∀ id' ∈ ({id} : Set DeliveryId), Has id' l db := by
  refine .bind (Q := fun o l db => InOrder none ∅ l db ∧
    (o.isSome = true → ∀ id' ∈ ({id} : Set DeliveryId), Has id' l db))
    (.perform (fun _ _ _ h hrely => h.stable hrely) ?_) fun o => ?_
  · intro l db h free e he
    change Sql.exec free (Mine.view l db) (.lockDelivery scope.owner id scope.accountFilter) = .ok e
      at he
    refine ⟨h.mild rfl he, ?_⟩
    rintro hsome id' rfl
    simp only [Sql.exec, Except.ok.injEq] at he
    subst he
    split at hsome
    · rename_i d hd
      exact (Has.of_seen hd).after _
    · cases hsome
  · refine .bind (.orFail _ _) fun row => .of_pure fun ho => ?_
    refine .bind (.ofExcept _ _) fun state => .of_pure fun _ => .done fun l db h => ?_
    exact ⟨h.1, h.2 (by rw [ho]; rfl)⟩

lemma among_retry (scope : OwnerScope) (id : DeliveryId) (acknowledged : Bool) (now : Time) :
    Among (InOrder none ∅) (DeliveryRepo.retry scope id acknowledged now)
      fun _ => InOrder none ∅ := by
  let Known := fun l db => InOrder none ∅ l db ∧ ∀ id' ∈ ({id} : Set DeliveryId), Has id' l db
  have hreads {α : Type} {p : Tx α} (hp : Built { writes := fun _ _ _ => False } .rows p) :
      Among Known p fun _ => Known := hp.among_reads.has {id}
  have happly (d : Loaded) := among_apply_of_mem {id}
    ⟨id, d.row.dispatchGen, d.state⟩ (.userRetry acknowledged)
    { resetAttempts := true, actor := some scope.actor } now rfl
  refine .bind (built_require _ _).among_reads fun _ => .bind (among_lockOne scope id) fun d =>
    .bind (hreads (.quiet _ rfl)) fun _ => .bind (hreads (.orFail _ _)) fun job => ?_
  refine .ite (fun _ => .fail_bind _ _) fun _ =>
    .bind (hreads (built_refuseOtherLiveJob _ _)) fun _ => ?_
  refine .ite (fun _ => .bind (hreads (built_refuseMaterialized _)) fun _ => ?_) fun _ => ?_
  all_goals
    refine Store.Triple.bind (happly d) fun applied => ?_
    rcases applied with ⟨state, - | dispatch, job⟩ | -
    · exact .fail _
    · exact .ite (fun _ => .bind (hreads (.quiet _ rfl)) fun _ => .done fun _ _ h => h.1)
        fun _ => .done fun _ _ h => h.1
    · exact .fail _

/-- A loop over rows a locking read found, each of them there. -/
lemma among_eachFound {α β γ : Type} {s : Sql (List α)} (hs : s.isMild = true)
    (key : α → DeliveryId)
    (hfound : ∀ free v e, s.exec free v = .ok e → ∀ a ∈ e.result,
      ∃ d, v.deliveries.lookup (key a) = some d) {body : α → Tx β} (g : List β → γ)
    (hbody : ∀ a (ids : Set DeliveryId), key a ∈ ids →
      Among (fun l db => InOrder none ∅ l db ∧ ∀ id ∈ ids, Has id l db) (body a)
        fun _ l db => InOrder none ∅ l db ∧ ∀ id ∈ ids, Has id l db) :
    Among (InOrder none ∅) (sql s >>= fun as => Prog.each as body >>= fun bs => pure (g bs))
      fun _ => InOrder none ∅ := by
  let There := fun (as : List α) l db => InOrder none ∅ l db ∧
    ∀ id ∈ {id | ∃ a ∈ as, key a = id}, Has id l db
  have hstep (a : α) (as : List α) : Among (There (a :: as)) (body a) fun _ => There as := by
    refine (hbody a {id | ∃ a' ∈ a :: as, key a' = id} ⟨a, List.mem_cons_self, rfl⟩).consequence
      (fun _ _ h => h) fun _ l db h => ⟨h.1, ?_⟩
    rintro id ⟨a', ha', rfl⟩
    exact h.2 _ ⟨a', List.mem_cons_of_mem a ha', rfl⟩
  refine .bind (Q := There) (.perform (fun _ _ _ h hrely => h.stable hrely) ?_) fun as =>
    .bind (Store.Triple.each hstep as) fun _ => .done fun _ _ h => h.1
  intro l db h free e he
  refine ⟨h.mild hs he, ?_⟩
  rintro id ⟨a, ha, rfl⟩
  obtain ⟨d, hd⟩ := hfound free _ e he a ha
  exact (Has.of_seen hd).after e

lemma among_expired (state : DeliveryState) (data : TransitionData) (now : Time) (limit : ℕ) :
    Among (InOrder none ∅) (Sweep.expired state data now limit) fun _ => InOrder none ∅ := by
  refine among_eachFound rfl Prod.fst (fun free v e he a ha => ?_) _ fun a ids hid => ?_
  · cases he
    obtain ⟨r, hr, rfl⟩ := List.mem_map.mp ha
    exact ⟨r.2, (Table.mem_of_mem_selectFirst hr).1⟩
  · exact .bind (among_apply_of_mem ids _ _ _ _ hid) fun _ => .done fun _ _ h => h

lemma among_unpark (now parkGrace : Time) (compiled : List PlatformId) (limit : ℕ) :
    Among (InOrder none ∅) (Sweep.unpark now parkGrace compiled limit) fun _ => InOrder none ∅ := by
  refine among_eachFound rfl ParkedRow.id (fun free v e he a ha => ?_) _ fun a ids hid => ?_
  · cases he
    obtain ⟨r, hr, rfl⟩ := List.mem_map.mp ha
    exact ⟨r.2, (Table.mem_of_mem_selectFirst hr).1⟩
  · refine .bind (.orFail _ _) fun reason => .of_pure fun _ => .ite (fun _ => .ite (fun _ => ?_)
      fun _ => .done fun _ _ h => h) fun _ => ?_
    · exact .bind ((among_of_mild (Prog.only_perform rfl)).has ids) fun _ => .done fun _ _ h => h
    · exact .bind (among_apply_of_mem ids _ _ _ _ hid) fun _ => .done fun _ _ h => h

end Postit.Data
