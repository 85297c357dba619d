import Postit.Data.Recipients

/-!
# Campaigns mail nobody twice

While every purge leaves a recipient row of each direct delivery that may still be sent through
again, the audience of a delivery is queued once: no step queues it again, forgets its counts,
retries the delivery, or hands a contact it was sent to out again (`campaign_mails_once`).  A purge
that deletes the last row of a failed delivery makes its retry send the whole campaign again
(`campaign_mails_twice`).
-/

namespace Postit.Data

open Postit.Framework

variable {db db' : Db}

/-! ## What the operations do -/

/-- Whether the delivery has recipient rows. -/
def Db.HasSends (db : Db) (id : DeliveryId) : Prop :=
  ∃ k s, db.sends.lookup k = some s ∧ s.deliveryId = id

/-- No retry of the delivery makes it forget its counts, whatever happens. -/
def Db.Barred (db : Db) (d : Delivery) : Prop :=
  d.operation ≠ .direct ∨ d.state.isFinal = true ∨
    ∃ j, db.jobs.lookup d.jobId = some j ∧ j.cancelledAt ≠ none

/-- The rows leased to a batch were queued rows of the delivery. -/
lemma leaseSends_ok {delivery : DeliveryId} {batch : DirectBatchId} {now leaseUntil : Time}
    {limit : ℕ} {leased : List (DirectSendId × DirectSend)}
    (h : Tx.run (sql (.leaseSends delivery batch now leaseUntil limit)) db = .ok (leased, db')) :
    ∀ r ∈ leased, ∃ s, db.sends.lookup r.1 = some s ∧ s.deliveryId = delivery ∧
      s.state = .queued ∧ r.2.contactId = s.contactId := by
  obtain ⟨e, he, rfl, -⟩ := Tx.run_sql_ok.mp h
  cases he
  intro r hr
  obtain ⟨⟨id, s⟩, hmem, rfl⟩ := List.mem_map.mp hr
  obtain ⟨hs, hp⟩ := Table.mem_of_mem_selectFirst hmem
  simp only [Bool.and_eq_true, decide_eq_true_eq] at hp
  exact ⟨s, hs, hp.1.1.1, hp.1.1.2, rfl⟩

lemma claimBatch_ok {fence : Fence} {size : ℕ} {now lease : Time}
    {cap : Option (AccountQuotaKey × ℕ)} {batch : DirectBatchId} {rows : List DirectSendRow}
    (h : Tx.run (DirectRepo.claimBatch fence size now lease cap) db =
      .ok (.rows batch rows, db')) :
    ∀ r ∈ rows, ∃ s, db.sends.lookup r.id = some s ∧ s.deliveryId = fence.id ∧
      s.state = .queued ∧ s.contactId = r.contactId := by
  -- What follows the reservation, whatever becomes of the units left over.
  have hrest : ∀ {granted : ℕ} {db₂ : Db}
      {last : DirectBatchId → List (DirectSendId × DirectSend) → Tx BatchClaim},
      db.Quiet db₂ →
      (∀ b leased {db₄}, Tx.run (last b leased) db₄ = .ok (.rows batch rows, db') →
        rows = leased.map fun r => ⟨r.1, r.2.contactId, r.2.emailHash, r.2.tries⟩) →
      Tx.run (if granted = 0 then
          sql (.selectHasQueued fence.id) >>= fun queued =>
            pure (if queued && 0 < size then .capReached else .empty)
        else sql .generateUuid >>= fun b =>
          sql (.leaseSends fence.id b now (now + lease) granted) >>= fun leased =>
            last b leased) db₂ = .ok (.rows batch rows, db') →
      ∀ r ∈ rows, ∃ s, db.sends.lookup r.id = some s ∧ s.deliveryId = fence.id ∧
        s.state = .queued ∧ s.contactId = r.contactId := by
    intro granted db₂ last hquiet hlast hrun
    split at hrun
    · obtain ⟨queued, db₃, -, hrun⟩ := Tx.run_bind_ok.mp hrun
      have hclaim := (Tx.run_done_ok.mp hrun).1
      split at hclaim <;> cases hclaim
    · obtain ⟨b, db₃, huuid, hrun⟩ := Tx.run_bind_ok.mp hrun
      obtain ⟨leased, db₄, hlease, hrun⟩ := Tx.run_bind_ok.mp hrun
      have hquiet₃ := hquiet.trans ((Tx.Tame.sql rfl).quiet huuid)
      rw [hlast b leased hrun]
      intro r hr
      obtain ⟨row, hrow, rfl⟩ := List.mem_map.mp hr
      obtain ⟨s₃, hs₃, hdelivery, hqueued, hcontact⟩ := leaseSends_ok hlease row hrow
      obtain ⟨s, hs⟩ := hquiet₃.came row.1 s₃ hs₃
      obtain ⟨s', hs', hon⟩ := hquiet₃.sends row.1 s hs
      obtain rfl := Option.some.inj (hs'.symm.trans hs₃)
      refine ⟨s, hs, hon.delivery.symm.trans hdelivery, ?_, (hcontact.trans hon.contact).symm⟩
      by_contra hstate
      exact hon.state hstate hqueued
  have hanswer : ∀ {b : DirectBatchId} {leased : List (DirectSendId × DirectSend)} {db₄ : Db},
      Tx.run (if leased.isEmpty then pure .empty else pure (.rows b (leased.map fun r =>
        ⟨r.1, r.2.contactId, r.2.emailHash, r.2.tries⟩)) : Tx BatchClaim) db₄ =
          .ok (.rows batch rows, db') →
      rows = leased.map fun r => ⟨r.1, r.2.contactId, r.2.emailHash, r.2.tries⟩ := by
    intro b leased db₄ hrun
    split at hrun
    · cases (Tx.run_done_ok.mp hrun).1
    · obtain ⟨hclaim, -⟩ := Tx.run_done_ok.mp hrun
      cases hclaim
      rfl
  obtain ⟨current, db₁, hshare, h⟩ := Tx.run_bind_ok.mp h
  have hquiet := (Tx.Tame.sql rfl).quiet hshare
  split at h
  · cases (Tx.run_done_ok.mp h).1
  · cases cap with
    | none => exact hrest hquiet (fun b leased _ hrun => hanswer hrun) h
    | some cap =>
      obtain ⟨key, limit⟩ := cap
      obtain ⟨granted, db₂, hgranted, h⟩ := Tx.run_bind_ok.mp h
      have hreserve : Tx.Tame (QuotaRepo.reserveUpTo key size limit) :=
        .of_plain (.ite (.done _) (.sql rfl))
      refine hrest (hquiet.trans (hreserve.quiet hgranted)) (fun b leased _ hrun => ?_) h
      dsimp only at hrun
      by_cases hover : limit ≠ 0 ∧ leased.length < granted
      · rw [if_pos hover] at hrun
        obtain ⟨_, _, -, hrun⟩ := Tx.run_bind_ok.mp hrun
        exact hanswer hrun
      · rw [if_neg hover] at hrun
        exact hanswer hrun

/-- A retry that succeeds finds the job not cancelled and a state that it may leave.  One of a
direct delivery finds no recipient row of it, and forgets its counts. -/
lemma retry_ok {scope : OwnerScope} {id : DeliveryId} {acknowledged : Bool} {now : Time}
    {dispatch : Dispatch}
    (h : Tx.run (DeliveryRepo.retry scope id acknowledged now) db = .ok (dispatch, db')) :
    ∃ d, db.deliveries.lookup id = some d ∧ d.state.isFinal = false ∧
      (∀ j, db.jobs.lookup d.jobId = some j → j.cancelledAt = none) ∧
      ((d.operation ≠ .direct ∧ db.Quiet db') ∨
        (d.operation = .direct ∧ ¬ db.HasSends id ∧ ∃ db₁ d₁, db.Quiet db₁ ∧
          db₁.deliveries.lookup id = some d₁ ∧
          db' = db₁.setDelivery id ((DeliveryUpdate.setDirectCounts none).set d₁))) := by
  obtain ⟨l, j, state, job, db₁, hreads, rfl, hj, hcancelled, -, hsends, happly, hlast⟩ :=
    DeliveryRepo.retry_ok h
  have hquiet := (Tx.Tame.of_plain (.apply _ _ _ _)).quiet happly
  refine ⟨l.row, hreads.found, ?_, fun j' hj' => ?_, ?_⟩
  · refine eq_false_of_ne_true fun hfinal => ?_
    rcases DeliveryRepo.apply_ok happly with ⟨hstale, -⟩ | ⟨state', job', d, hl, -⟩
    · cases hstale
    · have hstate : l.row.state = l.state.asStr := hreads.inState.1
      rw [hstate] at hfinal
      rcases hl.edge with ⟨hedge, -⟩ | ⟨hedge, -⟩ <;>
        exact absurd hedge (not_transition_of_isFinal hfinal)
  · obtain rfl := Option.some.inj (hj.symm.trans hj')
    exact hcancelled
  · rcases hlast with ⟨hother, rfl⟩ | ⟨hdirect, hforget⟩
    · exact .inl ⟨hother, hquiet⟩
    · refine .inr ⟨hdirect, ?_, ?_⟩
      · rintro ⟨k, s, hs, hdelivery⟩
        have hnone := Table.exists?_eq_false.mp (hsends hdirect) k s hs
        simp [hdelivery] at hnone
      · obtain ⟨d₁, hd₁, -⟩ := hquiet.deliveries l.id l.row hreads.found
        refine ⟨db₁, d₁, hquiet, hd₁, ?_⟩
        simp only [forgetCounts, Tx.run_sql_ok, Sql.exec, Sql.updateDelivery, hd₁, Except.ok.injEq,
          exists_eq_left'] at hforget
        exact hforget.2

/-- **What a step does to campaigns.**  It lets every one go on, or queues the audience of a
delivery without counts, or retries a direct delivery without recipient rows, which forgets its
counts. -/
lemma OpStep.campaigns {e : Event} (h : OpStep db e db') (haddressed : Addressed db) :
    db.Quiet db' ∨
      (∃ id d db₁, db.deliveries.lookup id = some d ∧ d.directCounts = none ∧ Queues id db db₁ ∧
        db₁.Quiet db' ∧ ∃ d', db'.deliveries.lookup id = some d' ∧ d'.directCounts ≠ none) ∨
      ∃ id d db₁ d₁, db.deliveries.lookup id = some d ∧ d.operation = .direct ∧
        d.state.isFinal = false ∧ (∀ j, db.jobs.lookup d.jobId = some j → j.cancelledAt = none) ∧
        ¬ db.HasSends id ∧ db.Quiet db₁ ∧ db₁.deliveries.lookup id = some d₁ ∧
        db' = db₁.setDelivery id ((DeliveryUpdate.setDirectCounts none).set d₁) := by
  cases h with
  | failed => exact .inl (.refl _)
  | wrotePost =>
    exact .inl ⟨⟨le_rfl, fun _ s hs => ⟨s, hs, .refl s⟩, fun _ d hd => ⟨d, hd, .refl d⟩,
      fun _ j hj => ⟨j, hj, id⟩⟩, fun _ s hs => ⟨s, hs⟩⟩
  | outside => exact .inl ⟨⟨le_rfl, fun _ s hs => ⟨s, hs, .refl s⟩, fun _ d hd => ⟨d, hd, .refl d⟩,
      fun _ j hj => ⟨j, hj, id⟩⟩, fun _ s hs => ⟨s, hs⟩⟩
  | @did β op value _ hrun =>
    cases htame : op.isTame with
    | true => exact .inl ((Op.tame htame).quiet hrun)
    | false =>
      cases op with
      | materialize delivery audience now =>
        rcases DirectRepo.materialize_ok haddressed hrun with
          rfl | ⟨d, db₁, hd, hcounts, hqueues, hquiet, hd'⟩
        · exact .inl (.refl _)
        · exact .inr (.inl ⟨delivery.id, d, db₁, hd, hcounts, hqueues, hquiet, hd'⟩)
      | startCampaign delivery audience attempt now =>
        obtain ⟨size, db₂, hmaterialize, hrun⟩ := Tx.run_bind_ok.mp hrun
        have hlast : db₂.Quiet db' := by
          refine (Tx.Tame.of_plain ?_).quiet hrun
          refine .bind (.bind (.sql rfl) fun _ => .guard _ _) fun _ =>
            .bind (.apply _ _ _ _) fun applied => ?_
          cases applied with
          | done state redispatch job => exact .done _
          | stale => exact .fail _
        rcases DirectRepo.materialize_ok haddressed hmaterialize with
          rfl | ⟨d, db₁, hd, hcounts, hqueues, hquiet, d', hd', hsome⟩
        · exact .inl hlast
        · obtain ⟨d'', hd'', hon⟩ := hlast.deliveries _ d' hd'
          exact .inr (.inl ⟨delivery.id, d, db₁, hd, hcounts, hqueues, hquiet.trans hlast, d'',
            hd'', hon.counts hsome⟩)
      | retry scope id acknowledged now =>
        obtain ⟨d, hd, hfinal, hjob, ⟨-, hquiet⟩ | ⟨hdirect, hnone, db₁, d₁, hquiet, hd₁, rfl⟩⟩ :=
          retry_ok hrun
        · exact .inl hquiet
        · exact .inr (.inr ⟨id, d, db₁, d₁, hd, hdirect, hfinal, hjob, hnone, hquiet, hd₁, rfl⟩)
      | _ => cases htame

/-! ## A campaign goes on -/

/-- Recipient rows are in place, and a delivery that has some has counts. -/
structure Campaigns (db : Db) : Prop where
  addressed : Addressed db
  counted : ∀ k s, db.sends.lookup k = some s →
    ∃ d, db.deliveries.lookup s.deliveryId = some d ∧ d.directCounts ≠ none

/-- The delivery has counts, and no retry makes it forget them: it has recipient rows, or is
barred. -/
def Held (db : Db) (id : DeliveryId) : Prop :=
  ∃ d, db.deliveries.lookup id = some d ∧ d.directCounts ≠ none ∧ (db.HasSends id ∨ db.Barred d)

/-- The delivery goes on, and so do its recipient rows; none is new. -/
structure GoesOn (id : DeliveryId) (db db' : Db) : Prop where
  delivery : ∀ d, db.deliveries.lookup id = some d →
    ∃ d', db'.deliveries.lookup id = some d' ∧ d.Onward d'
  rows : ∀ k s, db.sends.lookup k = some s → ∃ s', db'.sends.lookup k = some s' ∧ s.Onward s'
  came : ∀ k s', db'.sends.lookup k = some s' → s'.deliveryId = id →
    ∃ s, db.sends.lookup k = some s
  jobs : ∀ k j, db.jobs.lookup k = some j →
    ∃ j', db'.jobs.lookup k = some j' ∧ (j.cancelledAt ≠ none → j'.cancelledAt ≠ none)

variable {id : DeliveryId}

lemma Db.Quiet.goesOn (h : db.Quiet db') (id : DeliveryId) : GoesOn id db db' :=
  ⟨h.deliveries id, h.sends, fun k s' hs' _ => h.came k s' hs', h.jobs⟩

lemma Db.Barred.onward {d d' : Delivery} (h : db.Barred d) (hon : d.Onward d')
    (hjobs : ∀ k j, db.jobs.lookup k = some j →
      ∃ j', db'.jobs.lookup k = some j' ∧ (j.cancelledAt ≠ none → j'.cancelledAt ≠ none)) :
    db'.Barred d' := by
  rcases h with hother | hfinal | ⟨j, hj, hcancelled⟩
  · exact .inl (hon.operation ▸ hother)
  · exact .inr (.inl ((hon.final hfinal).symm ▸ hfinal))
  · obtain ⟨j', hj', hstays⟩ := hjobs d.jobId j hj
    exact .inr (.inr ⟨j', hon.job.symm ▸ hj', hstays hcancelled⟩)

/-- The delivery goes on, and its recipient rows go on from rows that were there. -/
structure Stays (id : DeliveryId) (db db' : Db) : Prop where
  held : Held db' id
  delivery : ∀ d, db.deliveries.lookup id = some d →
    ∃ d', db'.deliveries.lookup id = some d' ∧ d.Onward d'
  rows : ∀ k s', db'.sends.lookup k = some s' → s'.deliveryId = id →
    ∃ s, db.sends.lookup k = some s ∧ s.Onward s'

lemma Stays.refl (h : Held db id) : Stays id db db :=
  ⟨h, fun d hd => ⟨d, hd, .refl d⟩, fun _ s hs _ => ⟨s, hs, .refl s⟩⟩

lemma Stays.trans {db'' : Db} (h : Stays id db db') (h' : Stays id db' db'') :
    Stays id db db'' := by
  refine ⟨h'.held, fun d hd => ?_, fun k s'' hs'' hdelivery => ?_⟩
  · obtain ⟨d', hd', hon⟩ := h.delivery d hd
    obtain ⟨d'', hd'', hon'⟩ := h'.delivery d' hd'
    exact ⟨d'', hd'', hon.trans hon'⟩
  · obtain ⟨s', hs', hon'⟩ := h'.rows k s'' hs'' hdelivery
    obtain ⟨s, hs, hon⟩ := h.rows k s' hs' (hon'.delivery.symm.trans hdelivery)
    exact ⟨s, hs, hon.trans hon'⟩

lemma Held.goesOn (h : Held db id) (hon : GoesOn id db db') : Held db' id := by
  obtain ⟨d, hd, hcounts, hkept⟩ := h
  obtain ⟨d', hd', honward⟩ := hon.delivery d hd
  refine ⟨d', hd', honward.counts hcounts, ?_⟩
  rcases hkept with ⟨k, s, hs, hdelivery⟩ | hbarred
  · obtain ⟨s', hs', hsend⟩ := hon.rows k s hs
    exact .inl ⟨k, s', hs', hsend.delivery.trans hdelivery⟩
  · exact .inr (hbarred.onward honward hon.jobs)

lemma GoesOn.stays (h : GoesOn id db db') (hheld : Held db id) : Stays id db db' := by
  refine ⟨hheld.goesOn h, h.delivery, fun k s' hs' hdelivery => ?_⟩
  obtain ⟨s, hs⟩ := h.came k s' hs' hdelivery
  obtain ⟨s₁, hs₁, hon⟩ := h.rows k s hs
  obtain rfl := Option.some.inj (hs₁.symm.trans hs')
  exact ⟨s, hs, hon⟩

/-- A held delivery that a retry could send through again has recipient rows. -/
lemma Held.hasSends (h : Held db id) {d : Delivery} (hd : db.deliveries.lookup id = some d)
    (hdirect : d.operation = .direct) (hfinal : d.state.isFinal = false)
    (hjob : ∀ j, db.jobs.lookup d.jobId = some j → j.cancelledAt = none) : db.HasSends id := by
  obtain ⟨c, hc, -, hkept⟩ := h
  obtain rfl := Option.some.inj (hd.symm.trans hc)
  rcases hkept with hsends | hother | hfinal' | ⟨j, hj, hcancelled⟩
  · exact hsends
  · exact absurd hdirect hother
  · rw [hfinal] at hfinal'
    cases hfinal'
  · exact absurd (hjob j hj) hcancelled

/-- A retry of a held delivery fails, if it is a direct one. -/
lemma Held.retry_ne_ok (h : Held db id) {d : Delivery} (hd : db.deliveries.lookup id = some d)
    (hdirect : d.operation = .direct) (scope : OwnerScope) (acknowledged : Bool) (now : Time)
    (r : Dispatch × Db) : Tx.run (DeliveryRepo.retry scope id acknowledged now) db ≠ .ok r := by
  intro hrun
  obtain ⟨d₀, hd₀, hfinal, hjob, hcase⟩ := retry_ok hrun
  obtain rfl := Option.some.inj (hd.symm.trans hd₀)
  obtain ⟨hother, -⟩ | ⟨-, hnone, -⟩ := hcase
  · exact hother hdirect
  · exact hnone (h.hasSends hd hdirect hfinal hjob)

lemma Campaigns.held (h : Campaigns db) (hsends : db.HasSends id) : Held db id := by
  obtain ⟨k, s, hs, rfl⟩ := hsends
  obtain ⟨d, hd, hcounts⟩ := h.counted k s hs
  exact ⟨d, hd, hcounts, .inl ⟨k, s, hs, rfl⟩⟩

lemma Campaigns.quiet (h : Campaigns db) (hquiet : db.Quiet db') : Campaigns db' := by
  refine ⟨h.addressed.quiet hquiet, fun k s' hs' => ?_⟩
  obtain ⟨s, hs⟩ := hquiet.came k s' hs'
  obtain ⟨s₁, hs₁, hon⟩ := hquiet.sends k s hs
  obtain rfl := Option.some.inj (hs₁.symm.trans hs')
  obtain ⟨d, hd, hcounts⟩ := h.counted k s hs
  obtain ⟨d', hd', honward⟩ := hquiet.deliveries _ d hd
  exact ⟨d', hon.delivery ▸ hd', honward.counts hcounts⟩

lemma OpStep.campaigns_keep {e : Event} (h : OpStep db e db') (hdb : Campaigns db) :
    Campaigns db' := by
  rcases h.campaigns hdb.addressed with hquiet |
    ⟨id, d, db₁, -, -, hqueues, hquiet, d', hd', hcounts'⟩ |
    ⟨id, d, db₁, d₁, -, -, -, -, hnone, hquiet, -, rfl⟩
  · exact hdb.quiet hquiet
  · refine ⟨hqueues.addressed.quiet hquiet, fun k s' hs' => ?_⟩
    obtain ⟨s₁, hs₁⟩ := hquiet.came k s' hs'
    obtain ⟨s₂, hs₂, hon⟩ := hquiet.sends k s₁ hs₁
    obtain rfl := Option.some.inj (hs₂.symm.trans hs')
    rw [hon.delivery]
    rcases hqueues.came k s₁ hs₁ with ⟨s, hs⟩ | rfl
    · obtain rfl := Option.some.inj ((hqueues.kept k s hs).symm.trans hs₁)
      obtain ⟨c, hc, hcounts⟩ := hdb.counted k s hs
      obtain ⟨c', hc', honward⟩ := hquiet.deliveries _ c ((hqueues.deliveries _).trans hc)
      exact ⟨c', hc', honward.counts hcounts⟩
    · exact ⟨d', hd', hcounts'⟩
  · have hdb₁ := hdb.quiet hquiet
    refine ⟨⟨hdb₁.addressed.given, hdb₁.addressed.once⟩, fun k s' hs' => ?_⟩
    have hs' : db₁.sends.lookup k = some s' := hs'
    have hne : s'.deliveryId ≠ id := by
      rintro rfl
      obtain ⟨s, hs⟩ := hquiet.came k s' hs'
      obtain ⟨s₁, hs₁, hon⟩ := hquiet.sends k s hs
      obtain rfl := Option.some.inj (hs₁.symm.trans hs')
      exact hnone ⟨k, s, hs, hon.delivery.symm⟩
    obtain ⟨c, hc, hcounts⟩ := hdb₁.counted k s' hs'
    exact ⟨c, (AList.lookup_insert_ne hne).trans hc, hcounts⟩

lemma OpStep.goesOn {e : Event} (h : OpStep db e db') (hdb : Campaigns db) (hheld : Held db id) :
    GoesOn id db db' := by
  have ⟨c, hc, hcounts, _⟩ := hheld
  rcases h.campaigns hdb.addressed with hquiet |
    ⟨k, d, db₁, hd, hnone, hqueues, hquiet, -⟩ |
    ⟨k, d, db₁, d₁, hd, hdirect, hfinal, hjob, hnone, hquiet, -, rfl⟩
  · exact hquiet.goesOn id
  · have hne : k ≠ id := by
      rintro rfl
      obtain rfl := Option.some.inj (hd.symm.trans hc)
      exact hcounts hnone
    refine ⟨fun d₀ hd₀ => hquiet.deliveries id d₀ ((hqueues.deliveries id).trans hd₀),
      fun l s hs => hquiet.sends l s (hqueues.kept l s hs), fun l s' hs' hdelivery => ?_,
      fun l j hj => hquiet.jobs l j ((hqueues.jobs l).trans hj)⟩
    obtain ⟨s₁, hs₁⟩ := hquiet.came l s' hs'
    obtain ⟨s₂, hs₂, hon⟩ := hquiet.sends l s₁ hs₁
    obtain rfl := Option.some.inj (hs₂.symm.trans hs')
    rcases hqueues.came l s₁ hs₁ with hold | hnew
    · exact hold
    · exact absurd (hnew.symm.trans (hon.delivery.symm.trans hdelivery)) hne
  · have hne : id ≠ k := by
      rintro rfl
      exact hnone (hheld.hasSends hd hdirect hfinal hjob)
    refine ⟨fun d₀ hd₀ => ?_, hquiet.sends, fun l s' hs' _ => hquiet.came l s' hs', hquiet.jobs⟩
    obtain ⟨d', hd', hon⟩ := hquiet.deliveries id d₀ hd₀
    exact ⟨d', (AList.lookup_insert_ne hne).trans hd', hon⟩

/-! ## Runs with purges -/

namespace Aged

/-- The purge leaves each direct delivery that a retry may send through again one of the recipient
rows it has. -/
def Spares (s : Aged) : AgedEvent → Prop
  | .op .. => True
  | .purge cutoff picked => ∀ id d, s.db.deliveries.lookup id = some d → s.db.HasSends id →
      s.db.Barred d ∨ ∃ k row, s.db.sends.lookup k = some row ∧ row.deliveryId = id ∧
        s.isPurged cutoff picked k row = false

/-- A step whose purge spares campaigns. -/
def SparingStep (s : Aged) (e : AgedEvent) (t : Aged) : Prop := AgedStep s e t ∧ s.Spares e

variable {s t u : Aged} {e : AgedEvent} {es : List AgedEvent}

lemma lookup_purgeDirectSends {cutoff : Time} {picked : List DirectSendId} {k : DirectSendId}
    {row : DirectSend} :
    (s.purgeDirectSends cutoff picked).db.sends.lookup k = some row ↔
      s.db.sends.lookup k = some row ∧ s.isPurged cutoff picked k row = false := by
  show (s.db.sends.deleteWhere _).lookup k = some row ↔ _
  rw [Table.lookup_deleteWhere, Option.filter_eq_some_iff, Bool.not_eq_true']

lemma SparingStep.campaigns (h : s.SparingStep e t) (hs : Campaigns s.db) : Campaigns t.db := by
  obtain ⟨hstep, -⟩ := h
  cases hstep with
  | op hop => exact hop.campaigns_keep hs
  | purge =>
    refine ⟨⟨fun k row hrow => ?_, fun i j a b c ha hb => ?_⟩, fun k row hrow => ?_⟩
    · exact hs.addressed.given k row (lookup_purgeDirectSends.1 hrow).1
    · exact hs.addressed.once i j a b c (lookup_purgeDirectSends.1 ha).1
        (lookup_purgeDirectSends.1 hb).1
    · exact hs.counted k row (lookup_purgeDirectSends.1 hrow).1

lemma SparingStep.stays (h : s.SparingStep e t) (hs : Campaigns s.db) (hheld : Held s.db id) :
    Stays id s.db t.db := by
  obtain ⟨hstep, hspares⟩ := h
  cases hstep with
  | op hop => exact (hop.goesOn hs hheld).stays hheld
  | purge =>
    refine ⟨?_, fun d hd => ⟨d, hd, .refl d⟩,
      fun k row hrow _ => ⟨row, (lookup_purgeDirectSends.1 hrow).1, .refl row⟩⟩
    obtain ⟨d, hd, hcounts, hkept⟩ := hheld
    refine ⟨d, hd, hcounts, ?_⟩
    rcases hkept with hsends | hbarred
    · rcases hspares id d hd hsends with hbarred | ⟨k, row, hrow, hdelivery, hstays⟩
      · exact .inr hbarred
      · exact .inl ⟨k, row, lookup_purgeDirectSends.2 ⟨hrow, hstays⟩, hdelivery⟩
    · exact .inr hbarred

lemma campaigns_of_run (hfresh : Fresh s.db) (h : Run SparingStep s es t) : Campaigns t.db := by
  refine h.invariant (I := fun s => Campaigns s.db) (fun hstep hs => hstep.campaigns hs) ?_
  have hnone : ∀ k row, s.db.sends.lookup k ≠ some row := by simp [hfresh.sends]
  exact ⟨⟨fun k row hrow => absurd hrow (hnone k row),
    fun i j a b c ha => absurd ha (hnone i a)⟩, fun k row hrow => absurd hrow (hnone k row)⟩

lemma stays_of_run (hs : Campaigns s.db) (hheld : Held s.db id) (h : Run SparingStep s es t) :
    Campaigns t.db ∧ Stays id s.db t.db := by
  induction h with
  | nil => exact ⟨hs, .refl hheld⟩
  | snoc _ hstep ih => exact ⟨hstep.campaigns ih.1, ih.2.trans (hstep.stays ih.1 ih.2.held)⟩

/-- What the step from `t` to `u` does not do to a delivery whose audience was queued by `s`. -/
structure MailsOnce (id : DeliveryId) (s t : Aged) (f : AgedEvent) (u : Aged) : Prop where
  -- it queues no recipient
  queues : ∀ k row, u.db.sends.lookup k = some row → row.deliveryId = id →
    ∃ row', t.db.sends.lookup k = some row'
  -- it forgets no counts
  counts : ∃ d counts, u.db.deliveries.lookup id = some d ∧ d.directCounts = some counts
  -- it is no retry of the delivery
  retries : ∀ d, s.db.deliveries.lookup id = some d → d.operation = .direct →
    ∀ now scope acknowledged dbNow dispatch,
      f ≠ .op now (.did (.retry scope id acknowledged dbNow) dispatch)
  -- it hands out no contact that the delivery has been sent to
  hands : ∀ k row contact, s.db.sends.lookup k = some row → row.deliveryId = id →
    row.contactId = some contact → row.state = .sent →
    ∀ now fence size dbNow lease cap batch rows,
      f = .op now (.did (.claimBatch fence size dbNow lease cap) (.rows batch rows)) →
      fence.id = id → ∀ r ∈ rows, r.contactId ≠ some contact

/-- **Campaigns mail nobody twice.**  When every purge spares campaigns, no step from where a
delivery has recipient rows queues its audience again, makes it forget its counts, retries it, or
hands out a contact that it has been sent to. -/
theorem campaign_mails_once {s₀ s t u : Aged} {es fs : List AgedEvent} {f : AgedEvent}
    {id : DeliveryId} (hfresh : Fresh s₀.db) (before : Run SparingStep s₀ es s)
    (hqueued : s.db.HasSends id) (after : Run SparingStep s fs t) (step : t.SparingStep f u) :
    MailsOnce id s t f u := by
  have hs := campaigns_of_run hfresh before
  obtain ⟨ht, hstays⟩ := stays_of_run hs (hs.held hqueued) after
  have hstep := step.stays ht hstays.held
  refine ⟨fun k row hrow hdelivery => ?_, ?_, fun d hd hdirect => ?_,
    fun k row contact hrow hdelivery hcontact hsent => ?_⟩
  · obtain ⟨row', hrow', -⟩ := hstep.rows k row hrow hdelivery
    exact ⟨row', hrow'⟩
  · obtain ⟨d, hd, hcounts, -⟩ := hstep.held
    obtain ⟨counts, hcounts⟩ := Option.ne_none_iff_exists'.mp hcounts
    exact ⟨d, counts, hd, hcounts⟩
  · rintro now scope acknowledged dbNow dispatch rfl
    obtain ⟨d', hd', hon⟩ := hstays.delivery d hd
    obtain ⟨hop, -⟩ := step
    cases hop with
    | op hop =>
      cases hop with
      | did hrun =>
        exact hstays.held.retry_ne_ok hd' (hon.operation.trans hdirect) _ _ _ _ hrun
  · rintro now fence size dbNow lease cap batch rows rfl rfl r hr hagain
    obtain ⟨hop, -⟩ := step
    cases hop with
    | op hop =>
      cases hop with
      | did hrun =>
        obtain ⟨again, hlookup, hdelivery', hstate, hcontact'⟩ := claimBatch_ok hrun r hr
        obtain ⟨row', hrow', hon⟩ := hstays.rows r.id again hlookup hdelivery'
        have hid : r.id = k := hs.addressed.once r.id k row' row contact hrow' hrow
          (hon.delivery.symm.trans (hdelivery'.trans hdelivery.symm))
          (hon.contact.symm.trans (hcontact'.trans hagain)) hcontact
        rw [hid] at hrow'
        obtain rfl := Option.some.inj (hrow'.symm.trans hrow)
        exact hon.state (by rw [hsent]; nofun) hstate

end Aged

/-! ## A campaign that is sent again -/

namespace Aged

/-- The operation at the time, whether it commits or fails. -/
def perform {β : Type} (s : Aged) (now : Time) (op : Op β) : Aged := s.after now (s.db.perform op)

lemma run_perform {Step : Aged → AgedEvent → Aged → Prop}
    (hstep : ∀ {s now e db}, OpStep s.db e db → Step s (.op now e) (s.after now db))
    {s₀ s : Aged} (h : ∃ es, Run Step s₀ es s) {β : Type} (now : Time) (op : Op β) :
    ∃ es, Run Step s₀ es (s.perform now op) := by
  obtain ⟨es, hrun⟩ := h
  unfold perform Db.perform
  cases hop : op.tx.run s.db with
  | error e => exact ⟨_, hrun.snoc (hstep (.failed hop))⟩
  | ok r => exact ⟨_, hrun.snoc (hstep (.did hop))⟩

/-- The engine takes the delivery of the sample to where its audience is queued. -/
def sendSample (s : Aged) (gen : ℕ) (now : Time) : Aged :=
  (((s.perform now (.claim 1 gen now 60)).perform now
    (.apply ⟨1, gen, .claimed⟩ .startRemote {} now)).perform now (.startAttempt gen 1 now)).perform
    now (.startCampaign
      { id := 1, jobId := 1, postId := 1, ownerId := 1, accountId := 1, dryRun := false
        nativeSchedule := false, operation := .direct, dispatchGen := gen, attemptCount := 0
        containerRef := none, cancelRequested := false } ⟨[3], []⟩ gen now)

/-- A batch of the delivery of the sample. -/
def batchSample (gen : ℕ) (now : Time) : Op BatchClaim :=
  .claimBatch ⟨1, gen, .processing⟩ 10 now 60 none

/-- A campaign to a list of one contact. -/
def sample : Aged where
  db := { Db.sample with
    contacts := (∅ : Table ContactId Contact).insert 5
      { ownerId := 1, emailHash := 7, subscribed := true, tags := [], lists := [3] } }

/-- Its email has been sent, and recorded as sent. -/
def sampleSent : Aged :=
  (((sample.perform 0 (.createJob (.own 1) 1 none
    { id := 1, snapshotPost := 1, snapshotVersion := 1, scheduledAt := 0
      targets := [{ id := 1, account := 1, operation := .direct }] } 0 0)).sendSample 0 0).perform 0
    (batchSample 0 0)).perform 0 (.record 0 1 (.sent none) 0)

/-- It failed, and months later the recipient row is gone. -/
def samplePurged : Aged :=
  (sampleSent.perform 1 (.apply ⟨1, 0, .processing⟩ .permanentFailure {} 1)).purgeDirectSends
    100 [0]

/-- Its owner has it sent again. -/
def sampleAgain : Aged := (samplePurged.perform 200 (.retry (.own 1) 1 false 200)).sendSample 1 200

lemma fresh_sample : Fresh sample.db :=
  ⟨rfl, rfl, rfl, Db.fresh_sample.posts⟩

section

variable {Step : Aged → AgedEvent → Aged → Prop}
  (hstep : ∀ {s now e db}, OpStep s.db e db → Step s (.op now e) (s.after now db))
include hstep

lemma run_sendSample {s₀ s : Aged} (h : ∃ es, Run Step s₀ es s) (gen : ℕ) (now : Time) :
    ∃ es, Run Step s₀ es (s.sendSample gen now) :=
  run_perform hstep (run_perform hstep (run_perform hstep (run_perform hstep h _ _) _ _) _ _) _ _

lemma run_sampleSent : ∃ es, Run Step sample es sampleSent :=
  run_perform hstep (run_perform hstep
    (run_sendSample hstep (run_perform hstep ⟨[], .nil⟩ _ _) _ _) _ _) _ _

end

lemma hasSends_sampleSent : ∃ row, sampleSent.db.sends.lookup 0 = some row ∧ row.deliveryId = 1 ∧
    row.contactId = some 5 ∧ row.state = .sent := by
  have hrow : (sampleSent.db.sends.lookup 0).map (fun r => (r.deliveryId, r.contactId, r.state)) =
      some (1, some 5, .sent) := by
    decide +kernel
  obtain ⟨row, hlookup, heq⟩ := Option.map_eq_some_iff.mp hrow
  simp only [Prod.mk.injEq] at heq
  exact ⟨row, hlookup, heq⟩

/-- The campaign was published before the purge, so that no retry can send it again. -/
theorem campaign_mails_once_published : ∃ t u fs f, Run SparingStep sampleSent fs t ∧
    t.SparingStep f u ∧ t.db.sends.lookup 0 = none ∧ MailsOnce 1 sampleSent t f u := by
  let finished := sampleSent.perform 1 (.finishIfDone ⟨1, 0, .processing⟩ 1)
  have hop : ∀ {s : Aged} {now e db}, OpStep s.db e db →
      s.SparingStep (.op now e) (s.after now db) := fun hop => ⟨.op hop, trivial⟩
  obtain ⟨row, hrow, hdelivery, -⟩ := hasSends_sampleSent
  obtain ⟨es, hes⟩ := run_sampleSent hop
  obtain ⟨fs, hfs⟩ := run_perform hop ⟨[], .nil (s := sampleSent)⟩ 1
    (.finishIfDone ⟨1, 0, .processing⟩ 1)
  have hspares : finished.Spares (.purge 100 [0]) := by
    have hstates : finished.db.deliveries.entries.map (fun e => e.2.state) = [.published] := by
      decide +kernel
    intro id d hd _
    have hmem : d.state ∈ finished.db.deliveries.entries.map fun e => e.2.state :=
      List.mem_map.mpr ⟨⟨id, d⟩, AList.mem_lookup_iff.mp hd, rfl⟩
    rw [hstates, List.mem_singleton] at hmem
    exact .inl (.inr (.inl (by rw [hmem]; rfl)))
  have hpurged := hfs.snoc (⟨.purge, hspares⟩ : finished.SparingStep (.purge 100 [0]) _)
  obtain ⟨f, hstep⟩ : ∃ f, (finished.purgeDirectSends 100 [0]).SparingStep f _ :=
    ⟨.op 200 .outside, hop (.outside (o := ⟨∅, ∅, ∅, ∅, [], none⟩))⟩
  exact ⟨_, _, _, f, hpurged, hstep, by decide +kernel,
    campaign_mails_once fresh_sample hes ⟨0, row, hrow, hdelivery⟩ hpurged hstep⟩

/-- **A campaign mails a contact twice.**  A contact whose email was recorded as sent is handed out
again by the same delivery, after it failed, the purge deleted its rows, and the owner retried
it. -/
theorem campaign_mails_twice : ¬ ∀ (s₀ s t u : Aged) es fs f id, Fresh s₀.db →
    Run AgedStep s₀ es s → s.db.HasSends id → Run AgedStep s fs t → AgedStep t f u →
      MailsOnce id s t f u := by
  intro h
  obtain ⟨row, hrow, hdelivery, hcontact, hsent⟩ := hasSends_sampleSent
  have hop : ∀ {s : Aged} {now e db}, OpStep s.db e db → AgedStep s (.op now e) (s.after now db) :=
    fun hop => .op hop
  obtain ⟨es, hes⟩ := run_sampleSent hop
  have hagain : ∃ fs, Run AgedStep sampleSent fs sampleAgain := by
    refine run_sendSample hop (run_perform hop ?_ _ _) _ _
    obtain ⟨fs, hfs⟩ := run_perform hop ⟨[], .nil (s := sampleSent)⟩ 1
      (.apply ⟨1, 0, .processing⟩ .permanentFailure {} 1)
    exact ⟨_, hfs.snoc .purge⟩
  obtain ⟨fs, hfs⟩ := hagain
  have hbatch : ((batchSample 1 200).tx.run sampleAgain.db).map Prod.fst =
      .ok (.rows 3 [⟨2, some 5, 7, 0⟩]) := by
    decide +kernel
  have hlast : AgedStep sampleAgain (.op 200 _) _ := hop (OpStep.perform hbatch)
  have honce := h sample sampleSent sampleAgain _ es fs _ 1 fresh_sample hes
    ⟨0, row, hrow, hdelivery⟩ hfs hlast
  exact honce.hands 0 row 5 hrow hdelivery hcontact hsent 200 _ _ _ _ _ _ _ rfl rfl _
    (List.mem_singleton_self _) rfl

end Aged

end Postit.Data
