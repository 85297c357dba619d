import Postit.Properties.JobStatus

/-!
# Late receipts

A worker that lost its lease may come back with the platform's receipt.  Its fenced write is stale
by then, so it publishes the delivery with `recordLateReceipt` instead, if the delivery is still in
`outcome_unknown`.  The statement tests more than the state: it matches only a row that has no
remote ID.  A row keeps the remote ID of an earlier accepted upload, and then the receipt is lost.

`lands_iff` is the exact condition, on any reachable database; that the write then goes through
rests on the job's stored status being the one its deliveries spell.
-/

namespace Postit.Data

open Postit.Framework

/-- The late receipt publishes the delivery, stores what the platform returned, and reports the
job's change. -/
def LateReceiptLands (db : Db) (id : DeliveryId) (receipt : Receipt) (now : Time) : Prop :=
  ∃ change db' d' j j',
    Tx.run (DeliveryRepo.recordLateReceipt id receipt now) db = .ok (some change, db') ∧
    db'.deliveries.lookup id = some d' ∧ d'.readState = .ok .published ∧
    d'.remoteId = some receipt.remoteId ∧ d'.remoteUrl = receipt.remoteUrl ∧
    db.jobs.lookup d'.jobId = some j ∧ db'.jobs.lookup d'.jobId = some j' ∧
    change = ⟨j.status, j'.status⟩

section Touch

variable {db : Db} {id : DeliveryId} {d : Delivery} (hdb : Reachable db)
  (hd : db.deliveries.lookup id = some d)
include hdb hd

/-- The job of a delivery that has not ended is live, so no other job of its post is. -/
lemma Reachable.job_of_open (hopen : d.state.isTerminal = false) :
    ∃ j, db.jobs.lookup d.jobId = some j ∧ j.status.isLive = true ∧
      (j.dryRun = false → Sql.otherLiveJob db j.postId d.jobId = false) := by
  obtain ⟨j, hj⟩ := Option.isSome_iff_exists.mp (hdb.sound.hasJob id d hd)
  have hlive : j.status.isLive = true :=
    (hdb.agrees d.jobId j (by simp) hj).live ⟨d.state, ⟨id, d, hd, rfl, rfl⟩, hopen⟩
  refine ⟨j, hj, hlive, fun hdry => ?_⟩
  exact hdb.sound.otherLiveJob_eq_false hj (by simp [PublishJob.isLive, hdry, hlive])

/-- Touching the job of a delivery that had not ended succeeds, whatever readable row the delivery
was replaced by. -/
lemma Reachable.touchJob_succeeds (hopen : d.state.isTerminal = false) {row : Delivery}
    (hread : row.Readable) (now : Time) :
    ∃ change db' j j', Tx.run (touchJob d.jobId now) (db.setDelivery id row) = .ok (change, db') ∧
      db.jobs.lookup d.jobId = some j ∧ db'.jobs.lookup d.jobId = some j' ∧
      change = ⟨j.status, j'.status⟩ ∧ db'.deliveries = (db.setDelivery id row).deliveries := by
  obtain ⟨j, hj, -, hslot⟩ := hdb.job_of_open hd hopen
  have hrows : ∀ d' ∈ (db.setDelivery id row).jobDeliveries d.jobId, d'.Readable := by
    intro d' hd'
    obtain ⟨id', hlook, -⟩ := Db.mem_jobDeliveries.1 hd'
    by_cases hid : id' = id
    · subst hid
      obtain rfl := Option.some.inj ((AList.lookup_insert _).symm.trans hlook)
      exact hread
    · exact hdb.allReadable id' d' ((AList.lookup_insert_ne hid).symm.trans hlook)
  obtain ⟨views, hviews⟩ := exists_views now hrows
  have hst := Db.derivedStatus_eq_ok.2 ⟨views, hviews, rfl⟩
  have hfree : SlotFree (db.setDelivery id row) d.jobId
      (j.bumped.withStatus (deriveJobStatus views now)) := by
    intro hlive
    refine hslot ?_
    simp only [PublishJob.isLive, PublishJob.withStatus, PublishJob.bumped, Bool.and_eq_true,
      Bool.not_eq_true'] at hlive
    exact hlive.1
  refine ⟨⟨j.status, deriveJobStatus views now⟩, _, j,
    j.bumped.withStatus (deriveJobStatus views now),
    touchJob_ok.2 ⟨hst, j, hj, rfl, hfree, rfl⟩, hj, ?_, rfl, ?_⟩
  · rw [Db.refreshed_jobs, AList.lookup_insert]
  · rw [Db.refreshed_deliveries]
    rfl

/-- **When a late receipt lands.** -/
lemma Reachable.lands_iff (hs : d.state = .outcomeUnknown) (receipt : Receipt) (now : Time) :
    LateReceiptLands db id receipt now ↔ d.remoteId = none := by
  constructor
  · rintro ⟨change, db', d', j, j', hrun, -⟩
    rcases DeliveryRepo.recordLateReceipt_ok.1 hrun with ⟨d₀, _, hd₀, -, hr, -⟩ | ⟨-, h, -⟩
    · obtain rfl := Option.some.inj (hd.symm.trans hd₀)
      exact hr
    · cases h
  · intro hr
    have hopen : d.state.isTerminal = false := by
      rw [hs]
      rfl
    let row := (DeliveryUpdate.recordLateReceipt receipt now).set d
    have hread : row.Readable :=
      Delivery.readable_set _ d ⟨hs, hr⟩ (hdb.allReadable id d hd)
    obtain ⟨change, db', j, j', htouch, hj, hj', hchange, hrows⟩ :=
      hdb.touchJob_succeeds hd hopen hread now
    have hrun := DeliveryRepo.recordLateReceipt_ok.2
      (.inl ⟨d, change, hd, hs, hr, rfl, htouch⟩)
    have hlook : db'.deliveries.lookup id = some row := by
      rw [hrows]
      exact AList.lookup_insert _
    have hreason : row.parkedReason = none :=
      hread.parkedReason_eq_none (by change StateName.published ≠ .parked; decide)
    have hpublished : row.readState = .ok .published :=
      DeliveryUpdate.inState_iff.mp ⟨rfl, hreason⟩
    exact ⟨change, db', row, j, j', hrun, hlook, hpublished, rfl, rfl, hj, hj', hchange⟩

omit hdb in
/-- On a row in any other state it changes nothing. -/
lemma recordLateReceipt_of_ne (hs : d.state ≠ .outcomeUnknown) (receipt : Receipt) (now : Time) :
    Tx.run (DeliveryRepo.recordLateReceipt id receipt now) db = .ok (none, db) := by
  refine DeliveryRepo.recordLateReceipt_ok.2 (.inr ⟨fun d' hd' hs' => ?_, rfl, rfl⟩)
  obtain rfl := Option.some.inj (hd.symm.trans hd')
  exact absurd hs' hs

end Touch

/-! ## Runs that never accept with a receipt -/

/-- The step stores no remote ID on a delivery that it does not publish. -/
def Event.StoresNoReceipt : Event → Prop
  | .did (.apply fence event data _) _ =>
      transition fence.expected event = .ok .published ∨ data.remoteId = none
  | _ => True

lemma Event.StoresNoReceipt.calls {e : Event} (h : e.StoresNoReceipt) {fence : Fence}
    {event : DeliveryEvent} {data : TransitionData} (hcall : e.Calls fence event data) :
    transition fence.expected event = .ok .published ∨ data.remoteId = none := by
  cases e with
  | @did β op value =>
    cases op with
    | apply fence' event' data' now =>
      obtain ⟨rfl, rfl, rfl⟩ := hcall
      exact h
    | cancelDelivery | cancelForAccount | cancelForOwner | cancelJob =>
      obtain ⟨-, actor, rfl⟩ := hcall
      exact .inr rfl
    | retry | resolve =>
      obtain ⟨-, rfl⟩ := hcall
      exact .inr rfl
    | expiredClaims | expiredInFlight | unpark | startCampaign =>
      obtain ⟨-, -, rfl⟩ := hcall
      exact .inr rfl
    | finishIfDone =>
      obtain ⟨-, -, counts, rfl⟩ := hcall
      exact .inr rfl
    | _ => exact hcall.elim
  | _ => exact hcall.elim

/-- Only a published row has a remote ID. -/
def Delivery.ReceiptPublished (d : Delivery) : Prop := d.remoteId ≠ none → d.state = .published

lemma not_transition_published {e : DeliveryEvent} {t : DeliveryState} :
    transition .published e ≠ .ok t := by
  cases e <;> simp [transition]

lemma RowStep.receiptPublished {A : Calls}
    (hA : ∀ fence event data, A fence event data →
      transition fence.expected event = .ok .published ∨ data.remoteId = none)
    {id : DeliveryId} {d d' : Delivery} (h : RowStep A id d d') (hd : d.ReceiptPublished) :
    d'.ReceiptPublished := by
  obtain ⟨u, happ, hcalled⟩ := h
  cases u with
  | claim now leaseUntil =>
    intro hr
    exact absurd (happ.1.symm.trans (hd hr)) (by decide)
  | apply move data now =>
    obtain ⟨fence, event, hcall, -, -, hexpected, hedge⟩ := hcalled
    rcases hA fence event data hcall with hpublished | hnone
    · have htarget : move.target = .published := by
        rcases hedge with hok | ⟨hok, -⟩
        · exact Except.ok.inj (hok.symm.trans hpublished)
        · exact absurd (Except.ok.inj (hok.symm.trans hpublished)) (by decide)
      intro _
      simp only [DeliveryUpdate.set, DeliveryUpdate.applyMove, htarget]
      rfl
    · intro hr
      -- The row had its remote ID before, so it was published, and nothing leaves that state.
      have hsame : (DeliveryUpdate.applyMove move.target data now d).remoteId = d.remoteId := by
        simp [DeliveryUpdate.applyMove, hnone]
      have hstate : move.expected.asStr = .published := happ.1.symm.trans (hd (hsame ▸ hr))
      have hexp : fence.expected = .published := by
        rw [hexpected]
        revert hstate
        cases move.expected <;> simp [DeliveryState.asStr]
      rw [hexp] at hedge
      rcases hedge with hok | ⟨hok, -⟩ <;> exact absurd hok not_transition_published
  | recordLateReceipt receipt now => exact fun _ => rfl
  | _ => exact hd

lemma receiptPublished_of_run {db₀ db : Db} {es : List Event} (hfresh : Fresh db₀)
    (run : Run OpStep db₀ es db) (hes : ∀ e ∈ es, e.StoresNoReceipt) :
    ∀ id d, db.deliveries.lookup id = some d → d.ReceiptPublished := by
  induction run with
  | nil =>
    intro id d hd
    rw [hfresh.deliveries] at hd
    cases hd
  | @snoc es t u e _ step ih =>
    have hlast : e.StoresNoReceipt := hes e (by simp)
    refine step.rows.keep (fun _ _ _ _ _ _ _ _ _ h => absurd rfl h)
      (fun h => h.receiptPublished fun _ _ _ hcall => hlast.calls hcall) ?_
    exact ih fun e' he' => hes e' (by simp [he'])

/-! ## The claim, and where it fails -/

/-- **When a late success is not lost.**  At the end of every run, a late receipt lands on a delivery
in `outcome_unknown` exactly when the row has no remote ID yet, which is so throughout a run that
stores remote IDs on published deliveries only; on a delivery in any other state it changes
nothing. -/
theorem late_receipt_lands_iff {db₀ db : Db} {es : List Event} (hfresh : Fresh db₀)
    (run : Run OpStep db₀ es db) {id : DeliveryId} {d : Delivery}
    (hd : db.deliveries.lookup id = some d) (receipt : Receipt) (now : Time) :
    (d.state = .outcomeUnknown → (LateReceiptLands db id receipt now ↔ d.remoteId = none)) ∧
    (d.state ≠ .outcomeUnknown →
      Tx.run (DeliveryRepo.recordLateReceipt id receipt now) db = .ok (none, db)) ∧
    ((∀ e ∈ es, e.StoresNoReceipt) → d.state = .outcomeUnknown →
      LateReceiptLands db id receipt now) := by
  have hdb : Reachable db := ⟨db₀, es, hfresh, run⟩
  refine ⟨fun hs => hdb.lands_iff hd hs receipt now,
    fun hs => recordLateReceipt_of_ne hd hs receipt now, fun hes hs => ?_⟩
  refine (hdb.lands_iff hd hs receipt now).mpr ?_
  by_contra hr
  have hpublished := receiptPublished_of_run hfresh run hes id d hd hr
  exact absurd (hs.symm.trans hpublished) (by decide)

/-- The worker of generation 0 lost its lease during the call, and reconciliation sent the delivery
through again. -/
def Db.sampleRedispatched : Db :=
  ((((Db.sample.perform (.publishSample 1)).perform (.claim 1 0 0 60)).perform
    (.apply ⟨1, 0, .claimed⟩ .startRemote {} 0)).perform (.expiredInFlight 100 10)).perform
    (.apply ⟨1, 0, .outcomeUnknown⟩ .reconcileAbsent {} 200)

/-- Generation 1 was accepted with a receipt, and its processing timed out. -/
def Db.sampleTimedOut : Db :=
  (((Db.sampleRedispatched.perform (.claim 1 1 200 60)).perform
    (.apply ⟨1, 1, .claimed⟩ .startRemote {} 200)).perform
    (.apply ⟨1, 1, .inFlight⟩ .accepted { remoteId := some "upload" } 210)).perform
    (.apply ⟨1, 1, .processing⟩ .processingTimeout { countAttempt := true } 900)

lemma Db.reachable_sampleRedispatched : Reachable Db.sampleRedispatched :=
  ((((Db.reachable_sample.perform _).perform _).perform _).perform _).perform _

/-- The receipt of generation 0's worker, reported after generation 1 timed out, is lost. -/
theorem late_receipt_lost_after_accepted :
    ∃ db id d receipt now, Reachable db ∧ db.deliveries.lookup id = some d ∧
      d.state = .outcomeUnknown ∧ ¬ LateReceiptLands db id receipt now := by
  have hdb : Reachable Db.sampleTimedOut :=
    (((Db.reachable_sampleRedispatched.perform _).perform _).perform _).perform _
  have hstate : (Db.sampleTimedOut.deliveries.lookup 1).map (·.state) = some .outcomeUnknown := by
    decide +kernel
  have hlost : (Tx.run (DeliveryRepo.recordLateReceipt 1 ⟨"post", none⟩ 1000)
      Db.sampleTimedOut).map Prod.fst = .ok none := by
    decide +kernel
  obtain ⟨d, hd, hs⟩ := Option.map_eq_some_iff.mp hstate
  refine ⟨Db.sampleTimedOut, 1, d, ⟨"post", none⟩, 1000, hdb, hd, hs, ?_⟩
  rintro ⟨change, db', d', j, j', hrun, -⟩
  rw [hrun] at hlost
  cases hlost

/-- The rule on a delivery swept to `outcome_unknown` during its first call: the receipt lands. -/
theorem late_receipt_lands_iff_first_call :
    ∃ db, Reachable db ∧ LateReceiptLands db 1 ⟨"post", none⟩ 150 := by
  let db := (((Db.sample.perform (.publishSample 1)).perform (.claim 1 0 0 60)).perform
    (.apply ⟨1, 0, .claimed⟩ .startRemote {} 0)).perform (.expiredInFlight 100 10)
  have hdb : Reachable db :=
    (((Db.reachable_sample.perform _).perform _).perform _).perform _
  have hstate : (db.deliveries.lookup 1).map (fun d => (d.state, d.remoteId)) =
      some (.outcomeUnknown, none) := by
    decide
  obtain ⟨d, hd, hs⟩ := Option.map_eq_some_iff.mp hstate
  obtain ⟨db₀, es, hfresh, run⟩ := hdb
  have hlands := (late_receipt_lands_iff hfresh run hd ⟨"post", none⟩ 150).1
  exact ⟨db, ⟨db₀, es, hfresh, run⟩,
    (hlands (congrArg Prod.fst hs)).mpr (congrArg Prod.snd hs)⟩

end Postit.Data
