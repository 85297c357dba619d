import Postit.Data.Status

/-!
# What the fenced writes do

The outcome of `apply`, of a claim and of a late receipt on a database, one inversion lemma each.
A fenced write either found the row it expected, in the state and at the generation of its
fence, and did everything `Landed` says; or it was stale and left the database as it was
(`apply_ok`).  Callers reason from these and never unfold the operations.
-/

namespace Postit.Data

open Postit.Framework

/-! ## Where a state change leads -/

/-- Whether the row's job was cancelled. -/
def Db.jobCancelled (db : Db) (d : Delivery) : Bool :=
  (db.jobs.lookup d.jobId).any (·.cancelledAt.isSome)

/-- The move from `m` that `apply` makes on the delivery `id`: `m` itself, unless it leads back to
`pending` and the job was cancelled. -/
lemma DeliveryRepo.resolveMove_ok {db db' : Db} {id : DeliveryId} {m m' : Move}
    (h : Tx.run (resolveMove id m) db = .ok (m', db')) :
    db' = db ∧ m'.expected = m.expected ∧
      ((m.target ≠ .pending ∧ m' = m) ∨
        (m.target = .pending ∧
          ((m' = m ∧ ∀ d, db.deliveries.lookup id = some d → db.jobCancelled d = false) ∨
            (m'.target = .cancelled ∧
              ∃ d, db.deliveries.lookup id = some d ∧ db.jobCancelled d = true)))) := by
  unfold resolveMove at h
  split at h
  · rename_i hp
    simp only [jobIsCancelled, Tx.run_bind_ok, Tx.run_sql_ok, Sql.exec, Except.ok.injEq,
      exists_eq_left', Prog.pure_eq, Tx.run_done_ok] at h
    obtain ⟨cancelled, _, ⟨o, _, ⟨ho, rfl⟩, rfl, rfl⟩, rfl, rfl⟩ := h
    cases hd : db.deliveries.lookup id with
    | none =>
      simp only [hd, Sql.read] at ho
      subst ho
      exact ⟨by simp [Sql.read], rfl, .inr ⟨hp, .inl ⟨rfl, by simp⟩⟩⟩
    | some d =>
      simp only [hd, Sql.readLocking] at ho
      have hcancel : o.getD false = db.jobCancelled d := by
        subst ho
        unfold Db.jobCancelled
        cases db.jobs.lookup d.jobId <;> rfl
      refine ⟨by simp [Sql.readLocking], ?_, .inr ⟨hp, ?_⟩⟩
      · split <;> rfl
      · rw [hcancel]
        cases hc : db.jobCancelled d with
        | false => exact .inl ⟨rfl, by simpa using hc⟩
        | true => exact .inr ⟨rfl, d, rfl, hc⟩
  · rename_i hp
    simp only [Prog.pure_eq, Tx.run_done_ok] at h
    obtain ⟨rfl, rfl⟩ := h
    exact ⟨rfl, rfl, .inl ⟨hp, rfl⟩⟩

/-! ## The fenced write -/

/-- The row the fence stands for: in the expected state, at the fence's generation. -/
def Fence.Matches (fence : Fence) (d : Delivery) : Prop :=
  DeliveryUpdate.InState d fence.expected ∧ d.dispatchGen = fence.dispatchGen

/-- What a fenced write that landed did: it found the row `d` of its fence, moved it, touched the
job and stopped the campaign's rows where the new state asks for it. -/
structure Landed (fence : Fence) (event : DeliveryEvent) (data : TransitionData) (now : Time)
    (db db' : Db) (state : DeliveryState) (job : JobStatusChange) (d : Delivery) : Prop where
  found : db.deliveries.lookup fence.id = some d
  fenced : fence.Matches d
  -- the event's own target, or `cancelled` in place of `pending` when the job was cancelled
  edge : (transition fence.expected event = .ok state ∧
      (state = .pending → db.jobCancelled d = false)) ∨
    (transition fence.expected event = .ok .pending ∧ state = .cancelled ∧
      db.jobCancelled d = true)
  stored : ∃ db₁, Tx.run (touchJob d.jobId now)
      (db.setDelivery fence.id (DeliveryUpdate.applyMove state data now d)) = .ok (job, db₁) ∧
    Tx.run (DeliveryRepo.stopCampaign fence.id state
      (DeliveryUpdate.applyMove state data now d)) db₁ = .ok ((), db')

/-- **What a fenced write does.** -/
lemma DeliveryRepo.apply_ok {fence : Fence} {event : DeliveryEvent} {data : TransitionData}
    {now : Time} {db db' : Db} {applied : Applied}
    (h : Tx.run (apply fence event data now) db = .ok (applied, db')) :
    (applied = .stale ∧ db' = db ∧
        ∀ d, db.deliveries.lookup fence.id = some d → ¬ fence.Matches d) ∨
      ∃ state job d, Landed fence event data now db db' state job d ∧
        applied = .done state
          (redispatchOf fence.id state (DeliveryUpdate.applyMove state data now d)) job := by
  simp only [apply, Tx.run_bind_ok, Tx.run_ofExcept_ok] at h
  obtain ⟨m, _, ⟨hm, rfl⟩, move, db₀, hmove, row?, db₁, hrow, h⟩ := h
  obtain ⟨hexp, htrans⟩ := Move.of_eq_ok hm
  obtain ⟨rfl, hexp', hedge⟩ := resolveMove_ok hmove
  rcases (Tx.run_updateDelivery_ok rfl).mp hrow with
    ⟨d, hd, happ, hgen, rfl, rfl⟩ | ⟨hno, rfl, rfl⟩
  · right
    simp only [Tx.run_bind_ok, Prog.pure_eq, Tx.run_done_ok] at h
    obtain ⟨job, db₂, htouch, _, db₃, hstop, rfl, rfl⟩ := h
    refine ⟨move.target, job, d, ⟨hd, ⟨?_, by simpa using hgen⟩, ?_, db₂, htouch, hstop⟩, rfl⟩
    · rw [← hexp, ← hexp']
      exact happ
    · rcases hedge with ⟨hp, rfl⟩ | ⟨hp, ⟨rfl, hc⟩ | ⟨htgt, d', hd', hc⟩⟩
      · exact .inl ⟨htrans, fun h => absurd h hp⟩
      · exact .inl ⟨htrans, fun _ => hc d hd⟩
      · obtain rfl : d = d' := Option.some.inj (hd.symm.trans hd')
        exact .inr ⟨hp ▸ htrans, htgt, hc⟩
  · left
    simp only [Prog.pure_eq, Tx.run_done_ok] at h
    obtain ⟨rfl, rfl⟩ := h
    refine ⟨rfl, rfl, fun d hd hmatch => ?_⟩
    have happ : (DeliveryUpdate.apply move data now).Applies d := by
      change DeliveryUpdate.InState d move.expected
      rw [hexp', hexp]
      exact hmatch.1
    simpa [hmatch.2] using hno d hd happ

/-! ## Claims and late receipts -/

/-- **What a claim does.**  It finds the row `pending`, due and at its generation, in a job that
was not cancelled, and marks it `claimed`; or it does nothing. -/
lemma DeliveryRepo.claim_ok {id : DeliveryId} {gen : ℕ} {now lease : Time} {db db' : Db}
    {o : Option ClaimedDelivery} (h : Tx.run (claim id gen now lease) db = .ok (o, db')) :
    (o = none ∧ db' = db) ∨
      ∃ d j change, db.deliveries.lookup id = some d ∧ db.jobs.lookup d.jobId = some j ∧
        (DeliveryUpdate.claim now (now + lease)).Applies d ∧ d.dispatchGen = gen ∧
        j.cancelledAt = none ∧
        o = some (ClaimedDelivery.of id ((DeliveryUpdate.claim now (now + lease)).set d) j) ∧
        Tx.run (touchJob d.jobId now)
          (db.setDelivery id ((DeliveryUpdate.claim now (now + lease)).set d)) =
            .ok (change, db') := by
  simp only [claim, Tx.run_bind_ok] at h
  obtain ⟨found, db₁, hclaim, h⟩ := h
  cases hj : (db.deliveries.lookup id).bind fun d => db.jobs.lookup d.jobId with
  | none =>
    simp only [Tx.run_sql_ok, Sql.exec, hj, Except.ok.injEq, exists_eq_left', Sql.read,
      Db.storeAll_nil] at hclaim
    obtain ⟨rfl, rfl⟩ := hclaim
    obtain ⟨rfl, rfl⟩ := Tx.run_done_ok.mp h
    exact .inl ⟨rfl, rfl⟩
  | some j =>
    have hexec := (Tx.run_updateDelivery_ok (by simp only [Sql.exec, hj]; rfl)).mp hclaim
    rcases hexec with ⟨d, hd, happ, hcond, rfl, rfl⟩ | ⟨-, rfl, rfl⟩
    · right
      simp only [Bool.and_eq_true, decide_eq_true_eq, Option.isNone_iff_eq_none] at hcond
      simp only [Tx.run_bind_ok, Prog.pure_eq, Tx.run_done_ok] at h
      obtain ⟨change, db₂, htouch, rfl, rfl⟩ := h
      rw [hd] at hj
      exact ⟨d, j, change, hd, hj, happ, hcond.1, hcond.2, rfl, htouch⟩
    · obtain ⟨rfl, rfl⟩ := Tx.run_done_ok.mp h
      exact .inl ⟨rfl, rfl⟩

/-- The statement of a late receipt: it matches a row in `outcome_unknown` without a remote ID. -/
lemma Sql.recordLateReceipt_ok {id : DeliveryId} {receipt : Receipt} {now : Time} {db db' : Db}
    {o : Option PublishJobId} :
    Tx.run (sql (.recordLateReceipt id receipt now)) db = .ok (o, db') ↔
      (∃ d, db.deliveries.lookup id = some d ∧ d.state = .outcomeUnknown ∧ d.remoteId = none ∧
        o = some d.jobId ∧
        db' = db.setDelivery id ((DeliveryUpdate.recordLateReceipt receipt now).set d)) ∨
      ((∀ d, db.deliveries.lookup id = some d → d.state = .outcomeUnknown → d.remoteId ≠ none) ∧
        o = none ∧ db' = db) := by
  rw [Tx.run_updateDelivery_ok rfl]
  simp only [DeliveryUpdate.Applies, DeliveryUpdate.set, true_and, Bool.true_eq_false,
    imp_false, not_and, and_assoc, ne_eq]

/-- **What a late receipt does.**  It publishes a row in `outcome_unknown` that has no remote ID,
or does nothing. -/
lemma DeliveryRepo.recordLateReceipt_ok {id : DeliveryId} {receipt : Receipt} {now : Time}
    {db db' : Db} {o : Option JobStatusChange} :
    Tx.run (recordLateReceipt id receipt now) db = .ok (o, db') ↔
      (∃ d change, db.deliveries.lookup id = some d ∧ d.state = .outcomeUnknown ∧
        d.remoteId = none ∧ o = some change ∧
        Tx.run (touchJob d.jobId now)
          (db.setDelivery id ((DeliveryUpdate.recordLateReceipt receipt now).set d)) =
            .ok (change, db')) ∨
      ((∀ d, db.deliveries.lookup id = some d → d.state = .outcomeUnknown → d.remoteId ≠ none) ∧
        o = none ∧ db' = db) := by
  simp only [recordLateReceipt, Tx.run_bind_ok, Sql.recordLateReceipt_ok]
  constructor
  · rintro ⟨found, db₁, ⟨d, hd, hs, hr, rfl, rfl⟩ | ⟨hno, rfl, rfl⟩, h⟩
    · simp only [Tx.run_bind_ok, Prog.pure_eq, Tx.run_done_ok] at h
      obtain ⟨change, db₂, htouch, rfl, rfl⟩ := h
      exact .inl ⟨d, change, hd, hs, hr, rfl, htouch⟩
    · obtain ⟨rfl, rfl⟩ := Tx.run_done_ok.mp h
      exact .inr ⟨hno, rfl, rfl⟩
  · rintro (⟨d, change, hd, hs, hr, rfl, htouch⟩ | ⟨hno, rfl, rfl⟩)
    · refine ⟨_, _, .inl ⟨d, hd, hs, hr, rfl, rfl⟩, ?_⟩
      simp only [Tx.run_bind_ok, Prog.pure_eq, Tx.run_done_ok]
      exact ⟨change, db', htouch, rfl, rfl⟩
    · exact ⟨none, db', .inr ⟨hno, rfl, rfl⟩, Tx.run_done_ok.mpr ⟨rfl, rfl⟩⟩

/-! ## Stopping a campaign's rows -/

lemma DirectRepo.cancelQueued_ok {delivery : DeliveryId} {db db' : Db} {n : ℕ}
    (h : Tx.run (cancelQueued delivery) db = .ok (n, db')) :
    ∃ sends, db' = { db with sends } := by
  simp only [cancelQueued, Tx.run_sql_ok, Sql.exec, Except.ok.injEq, exists_eq_left'] at h
  obtain ⟨-, rfl⟩ := h
  exact Db.storeAll_sends _ _ _

lemma DirectRepo.progress_ok {delivery : DeliveryId} {db db' : Db} {counts : DirectCounts}
    (h : Tx.run (progress delivery) db = .ok (counts, db')) :
    db' = db ∧ ∃ d, db.deliveries.lookup delivery = some d ∧
      counts.queued = Sql.countSends db delivery .queued := by
  simp only [progress, Tx.run_bind_ok, Tx.run_sql_ok, Sql.exec, Sql.read, Except.ok.injEq,
    exists_eq_left', Db.storeAll_nil, Tx.run_orFail_ok] at h
  obtain ⟨o, _, ⟨rfl, rfl⟩, ho, rfl⟩ := h
  obtain ⟨d, hd, rfl⟩ := Option.map_eq_some_iff.mp ho
  exact ⟨rfl, d, hd, rfl⟩

lemma DirectRepo.storeCounts_ok {delivery : DeliveryId} {db db' : Db} {u : Unit}
    (h : Tx.run (storeCounts delivery) db = .ok (u, db')) :
    ∃ counts d, db.deliveries.lookup delivery = some d ∧
      db' = db.setDelivery delivery ((DeliveryUpdate.setDirectCounts counts).set d) := by
  simp only [storeCounts, Tx.run_bind_ok] at h
  obtain ⟨counts, _, hprogress, hset⟩ := h
  obtain ⟨rfl, d, hd, -⟩ := progress_ok hprogress
  simp only [Tx.run_sql_ok, Sql.exec, Sql.updateDelivery, hd, Except.ok.injEq,
    exists_eq_left'] at hset
  obtain ⟨-, rfl⟩ := hset
  exact ⟨some counts, d, hd, rfl⟩

/-- The statement of a result: it replaces the row of the batch, and tells whether a cancel had
stopped it. -/
lemma Sql.recordSend_ok {id : DirectSendId} {batch : DirectBatchId} {result : DirectResult}
    {now : Time} {db db' : Db} {row : DirectSend} {replacedCancel : Bool}
    (h : Tx.run (sql (.recordSend id batch result now)) db =
      .ok (some (row, replacedCancel), db')) :
    ∃ s, db.sends.lookup id = some s ∧ row.deliveryId = s.deliveryId ∧
      replacedCancel = decide (s.state = .failed) ∧ db'.deliveries = db.deliveries := by
  simp only [Tx.run_sql_ok, Sql.exec, Except.ok.injEq, exists_eq_left', mapResult, updateSend] at h
  cases hs : db.sends.lookup id with
  | none => simp [hs, read] at h
  | some s =>
    simp only [hs] at h
    split at h
    · simp only [Option.map_some, Option.some.injEq, Prod.mk.injEq] at h
      obtain ⟨⟨rfl, rfl⟩, rfl⟩ := h
      exact ⟨s, rfl, rfl, rfl, rfl⟩
    · simp [read] at h

lemma Sql.lockDeliveryJob_ok {id : DeliveryId} {db db' : Db} {job : PublishJobId}
    (h : Tx.run (sql (.lockDeliveryJob id)) db = .ok (some job, db')) :
    ∃ d, db.deliveries.lookup id = some d ∧ d.jobId = job := by
  simp only [Tx.run_sql_ok, Sql.exec, Except.ok.injEq, exists_eq_left'] at h
  cases hd : db.deliveries.lookup id with
  | none => simp [hd, read] at h
  | some d =>
    simp only [hd, readLocking, Option.some.injEq] at h
    exact ⟨d, rfl, h.1.symm⟩

/-- Stopping a campaign's rows changes the delivery's counts at most, and no other delivery. -/
lemma DeliveryRepo.stopCampaign_ok {id : DeliveryId} {target : DeliveryState} {row : Delivery}
    {db db' : Db} {u : Unit} (h : Tx.run (stopCampaign id target row) db = .ok (u, db')) :
    db' = db ∨ ∃ sends counts d, db.deliveries.lookup id = some d ∧
      db' = { db.setDelivery id ((DeliveryUpdate.setDirectCounts counts).set d) with sends } := by
  unfold stopCampaign at h
  split at h
  · rw [Tx.run_bind_ok] at h
    obtain ⟨n, _, hcancel, hstore⟩ := h
    obtain ⟨sends, rfl⟩ := DirectRepo.cancelQueued_ok hcancel
    obtain ⟨counts, d, hd, rfl⟩ := DirectRepo.storeCounts_ok hstore
    exact .inr ⟨sends, counts, d, hd, rfl⟩
  · exact .inl (Tx.run_done_ok.mp h).2

/-- The row a landed write leaves: the moved row, but for the counts of a stopped campaign. -/
lemma Landed.row {fence : Fence} {event : DeliveryEvent} {data : TransitionData} {now : Time}
    {db db' : Db} {state : DeliveryState} {job : JobStatusChange} {d : Delivery}
    (h : Landed fence event data now db db' state job d) :
    ∃ counts, db'.deliveries.lookup fence.id =
      some ((DeliveryUpdate.setDirectCounts counts).set
        (DeliveryUpdate.applyMove state data now d)) := by
  obtain ⟨db₁, htouch, hstop⟩ := h.stored
  obtain ⟨jobs, posts, rfl⟩ := touchJob_frame htouch
  rcases DeliveryRepo.stopCampaign_ok hstop with rfl | ⟨sends, counts, d', hd', rfl⟩
  · exact ⟨(DeliveryUpdate.applyMove state data now d).directCounts, AList.lookup_insert _⟩
  · obtain rfl := Option.some.inj (hd'.symm.trans (AList.lookup_insert _))
    exact ⟨counts, AList.lookup_insert _⟩

/-- A landed write leaves every other delivery as it was. -/
lemma Landed.others {fence : Fence} {event : DeliveryEvent} {data : TransitionData} {now : Time}
    {db db' : Db} {state : DeliveryState} {job : JobStatusChange} {d : Delivery}
    (h : Landed fence event data now db db' state job d) {id : DeliveryId} (hid : id ≠ fence.id) :
    db'.deliveries.lookup id = db.deliveries.lookup id := by
  obtain ⟨db₁, htouch, hstop⟩ := h.stored
  have hmoved : db₁.deliveries.lookup id = db.deliveries.lookup id := by
    rw [touchJob_deliveries htouch]
    exact AList.lookup_insert_ne hid
  rcases DeliveryRepo.stopCampaign_ok hstop with rfl | ⟨sends, counts, d', -, rfl⟩
  · exact hmoved
  · exact (AList.lookup_insert_ne hid).trans hmoved

end Postit.Data
