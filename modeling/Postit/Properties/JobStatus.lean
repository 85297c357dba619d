import Mathlib.Data.Set.Insert
import Postit.Data.Apply
import Postit.Data.Blocks
import Postit.Data.Creation
import Postit.Data.Integrity

/-!
# The stored job status agrees with the deliveries

A job's status is a cached value: whatever writes a delivery must refresh it.  What it is supposed
to be depends only on which states the job's deliveries are in, and once all of them ended neither
on the clock nor on any order; `Spells` says so.  The invariant is that every job's stored status is
spelled by its deliveries, and inside a transaction that every job's is but those the transaction
still has to touch (`AgreesExcept`).
-/

namespace Postit

/-- Whether a delivery in a state of this name went out, or was simulated. -/
def StateName.wentOut : StateName → Bool
  | .published | .simulated => true
  | _ => false

lemma DeliveryView.wentOut_asStr (v : DeliveryView) : v.state.asStr.wentOut = v.wentOut := by
  obtain ⟨state, next, awaiting⟩ := v
  cases state <;> rfl

lemma DeliveryState.asStr_eq_cancelled {s : DeliveryState} :
    s.asStr = .cancelled ↔ s = .cancelled := by
  cases s <;> simp [asStr]

/-! ## What the states of a job's deliveries spell -/

open Classical in
/-- The status of a job whose deliveries ended in these states. -/
noncomputable def endedStatus (names : Set StateName) : JobStatus :=
  if names = ∅ then .failed
  else if ∀ n ∈ names, n.wentOut = true then .published
  else if ∀ n ∈ names, n = .cancelled then .cancelled
  else if ∃ n ∈ names, n.wentOut = true then .partially
  else .failed

/-- The status is the one that deliveries in these states call for. -/
structure Spells (names : Set StateName) (status : JobStatus) : Prop where
  ended : (∀ n ∈ names, n.isTerminal = true) → status = endedStatus names
  live : (∃ n ∈ names, n.isTerminal = false) → status.isLive = true

lemma endedStatus_isLive (names : Set StateName) : (endedStatus names).isLive = false := by
  unfold endedStatus
  split_ifs <;> rfl

/-- A job has ended exactly when all its deliveries have. -/
lemma Spells.isLive_eq_false_iff {names : Set StateName} {status : JobStatus}
    (h : Spells names status) : status.isLive = false ↔ ∀ n ∈ names, n.isTerminal = true := by
  constructor
  · intro hlive n hn
    by_contra hterm
    have := h.live ⟨n, hn, by simpa using hterm⟩
    rw [this] at hlive
    cases hlive
  · intro hterm
    rw [h.ended hterm]
    exact endedStatus_isLive names

/-- The names of the states the views are in. -/
def viewNames (views : List DeliveryView) : Set StateName := {n | ∃ v ∈ views, v.state.asStr = n}

lemma forall_viewNames {views : List DeliveryView} {p : StateName → Prop} :
    (∀ n ∈ viewNames views, p n) ↔ ∀ v ∈ views, p v.state.asStr := by
  simp [viewNames]

/-- **What the derivation computes** depends on the states alone. -/
lemma deriveJobStatus_spells (views : List DeliveryView) (now : Time) :
    Spells (viewNames views) (deriveJobStatus views now) where
  ended := by
    intro hterm
    have hall : views.all (fun v => v.state.isTerminal) = true := by
      rw [forall_viewNames] at hterm
      simpa using hterm
    have hempty : viewNames views = ∅ ↔ views.isEmpty = true := by
      rw [Set.eq_empty_iff_forall_notMem, List.isEmpty_iff, List.eq_nil_iff_forall_not_mem]
      constructor
      · exact fun h v hv => h v.state.asStr ⟨v, hv, rfl⟩
      · rintro h n ⟨v, hv, -⟩
        exact h v hv
    have hout : (∀ n ∈ viewNames views, n.wentOut = true) ↔ views.all DeliveryView.wentOut = true := by
      rw [forall_viewNames, List.all_eq_true]
      simp only [DeliveryView.wentOut_asStr]
    have hcancelled : (∀ n ∈ viewNames views, n = .cancelled) ↔
        views.all (fun v => v.state = .cancelled) = true := by
      rw [forall_viewNames, List.all_eq_true]
      simp only [DeliveryState.asStr_eq_cancelled, decide_eq_true_eq]
    have hany : (∃ n ∈ viewNames views, n.wentOut = true) ↔
        views.any DeliveryView.wentOut = true := by
      simp only [viewNames, Set.mem_ofPred_eq, List.any_eq_true]
      constructor
      · rintro ⟨n, ⟨v, hv, rfl⟩, h⟩
        exact ⟨v, hv, v.wentOut_asStr ▸ h⟩
      · rintro ⟨v, hv, h⟩
        exact ⟨_, ⟨v, hv, rfl⟩, v.wentOut_asStr.trans h⟩
    simp only [deriveJobStatus, endedStatus, hall, if_true, hempty, hout, hcancelled, hany]
    split_ifs <;> simp_all
  live := by
    rintro ⟨n, ⟨v, hv, rfl⟩, hterm⟩
    have hne : views.isEmpty = false := List.isEmpty_eq_false_iff_exists_mem.mpr ⟨v, hv⟩
    have hall : views.all (fun v => v.state.isTerminal) = false := by
      rw [List.all_eq_false]
      exact ⟨v, hv, by simpa using hterm⟩
    simp only [deriveJobStatus, hne, hall, Bool.false_eq_true, if_false]
    split_ifs <;> rfl

end Postit

namespace Postit.Data

open Postit.Framework

/-! ## Reading the deliveries -/

/-- The names of the states the rows are in. -/
def rowNames (rows : List Delivery) : Set StateName := {n | ∃ d ∈ rows, d.state = n}

lemma viewOf_asStr {now : Time} {d : Delivery} {v : DeliveryView} (h : viewOf now d = .ok v) :
    v.state.asStr = d.state := by
  unfold viewOf at h
  cases hread : d.readState with
  | error e => simp [hread, bind, Except.bind] at h
  | ok s =>
    simp only [hread, bind, Except.bind, pure, Except.pure, Except.ok.injEq] at h
    subst h
    exact (DeliveryUpdate.inState_iff.mpr hread).1.symm

lemma mapM_cons_eq_ok {α β ε : Type} {f : α → Except ε β} {a : α} {as : List α} {bs : List β} :
    (a :: as).mapM f = .ok bs ↔
      ∃ b bs', f a = .ok b ∧ as.mapM f = .ok bs' ∧ bs = b :: bs' := by
  rw [List.mapM_cons]
  cases f a with
  | error e => simp [bind, Except.bind]
  | ok b =>
    cases as.mapM f with
    | error e => simp [bind, Except.bind]
    | ok bs' => simp [bind, Except.bind, pure, Except.pure, eq_comm]

/-- Reading rows keeps the names of their states. -/
lemma viewNames_eq_rowNames {now : Time} : ∀ {rows : List Delivery} {views : List DeliveryView},
    rows.mapM (viewOf now) = .ok views → viewNames views = rowNames rows
  | [], views, h => by
      cases h
      ext n
      simp [viewNames, rowNames]
  | d :: rows, views, h => by
      obtain ⟨v, views', hv, hviews, rfl⟩ := mapM_cons_eq_ok.1 h
      have ih := viewNames_eq_rowNames hviews
      ext n
      have ihn : (∃ v ∈ views', v.state.asStr = n) ↔ ∃ d ∈ rows, d.state = n :=
        Set.ext_iff.mp ih n
      simp only [viewNames, rowNames, Set.mem_ofPred_eq, List.exists_mem_cons_iff,
        viewOf_asStr hv, ihn]

/-- Rows that spell a state can be read. -/
lemma exists_views (now : Time) : ∀ {rows : List Delivery}, (∀ d ∈ rows, d.Readable) →
    ∃ views, rows.mapM (viewOf now) = .ok views
  | [], _ => ⟨[], rfl⟩
  | d :: rows, h => by
      obtain ⟨s, hs⟩ := h d List.mem_cons_self
      obtain ⟨views, hviews⟩ := exists_views now fun d' hd' => h d' (List.mem_cons_of_mem d hd')
      have hview : ∃ v, viewOf now d = .ok v := by
        unfold viewOf
        rw [DeliveryUpdate.inState_iff.mp hs]
        exact ⟨_, rfl⟩
      obtain ⟨v, hv⟩ := hview
      exact ⟨v :: views, mapM_cons_eq_ok.2 ⟨v, views, hv, hviews, rfl⟩⟩

/-- The names of the states the job's deliveries are in. -/
def Db.stateNames (db : Db) (job : PublishJobId) : Set StateName :=
  {n | ∃ id d, db.deliveries.lookup id = some d ∧ d.jobId = job ∧ d.state = n}

lemma Db.rowNames_jobDeliveries (db : Db) (job : PublishJobId) :
    rowNames (db.jobDeliveries job) = db.stateNames job := by
  ext n
  simp only [rowNames, Db.stateNames, Set.mem_ofPred_eq, Db.mem_jobDeliveries]
  constructor
  · rintro ⟨d, ⟨id, hd, hjob⟩, rfl⟩
    exact ⟨id, d, hd, hjob, rfl⟩
  · rintro ⟨id, d, hd, hjob, rfl⟩
    exact ⟨d, ⟨id, hd, hjob⟩, rfl⟩

/-- The derived status is the one the deliveries spell. -/
lemma Db.derivedStatus_spells {db : Db} {job : PublishJobId} {now : Time} {status : JobStatus}
    (h : db.derivedStatus job now = .ok status) : Spells (db.stateNames job) status := by
  obtain ⟨views, hviews, rfl⟩ := Db.derivedStatus_eq_ok.1 h
  have hnames := viewNames_eq_rowNames hviews
  rw [db.rowNames_jobDeliveries] at hnames
  exact hnames ▸ deriveJobStatus_spells views now

/-! ## The invariant -/

/-- The stored status of every job outside `S` is the one its deliveries spell. -/
def AgreesExcept (S : Set PublishJobId) (db : Db) : Prop :=
  ∀ job j, job ∉ S → db.jobs.lookup job = some j → Spells (db.stateNames job) j.status

/-- Writes to deliveries and jobs of `S`, and writes that leave states and statuses alone, keep the
invariant for the others. -/
lemma AgreesExcept.storeAll {S : Set PublishJobId} {db : Db} (h : AgreesExcept S db)
    (ws : List Write)
    (hd : ∀ id row, .delivery id row ∈ ws →
      (∀ d, db.deliveries.lookup id = some d → d.jobId = row.jobId) ∧
        (row.jobId ∈ S ∨ ∃ d, db.deliveries.lookup id = some d ∧ d.state = row.state))
    (hj : ∀ id row, .job id row ∈ ws →
      id ∈ S ∨ ∃ j, db.jobs.lookup id = some j ∧ j.status = row.status) :
    AgreesExcept S (db.storeAll ws) := by
  intro job j' hjob hj'
  have hnames : (db.storeAll ws).stateNames job = db.stateNames job := by
    ext n
    constructor
    · rintro ⟨id, d', hd', rfl, rfl⟩
      rcases db.storeAll_delivery ws id with ⟨row, hmem, hlook⟩ | ⟨-, hlook⟩
      · obtain rfl := Option.some.inj (hlook.symm.trans hd')
        obtain ⟨hsame, hS | ⟨d, hfound, hstate⟩⟩ := hd id row hmem
        · exact absurd hS hjob
        · exact ⟨id, d, hfound, hsame d hfound, hstate⟩
      · exact ⟨id, d', hlook.symm.trans hd', rfl, rfl⟩
    · rintro ⟨id, d, hfound, rfl, rfl⟩
      rcases db.storeAll_delivery ws id with ⟨row, hmem, hlook⟩ | ⟨-, hlook⟩
      · obtain ⟨hsame, hS | ⟨d₁, hfound₁, hstate⟩⟩ := hd id row hmem
        · exact absurd (hsame d hfound ▸ hS) hjob
        · obtain rfl := Option.some.inj (hfound.symm.trans hfound₁)
          exact ⟨id, row, hlook, (hsame d hfound).symm, hstate.symm⟩
      · exact ⟨id, d, hlook.trans hfound, rfl, rfl⟩
  rw [hnames]
  rcases db.storeAll_job ws job with ⟨row, hmem, hlook⟩ | ⟨-, hlook⟩
  · obtain rfl := Option.some.inj (hlook.symm.trans hj')
    rcases hj job row hmem with hS | ⟨j, hfound, hstatus⟩
    · exact absurd hS hjob
    · exact hstatus ▸ h job j hjob hfound
  · exact h job j' hjob (hlook.symm.trans hj')

/-- A quiet statement keeps the invariant. -/
lemma AgreesExcept.quiet {S : Set PublishJobId} {β : Type} (s : Sql β) (hs : s.isQuiet = true) :
    Tx.Keeps (AgreesExcept S) (sql s) := by
  intro db h b db' hrun
  obtain ⟨e, he, -, rfl⟩ := Tx.run_sql_ok.mp hrun
  have hsound := Sql.exec_sound s he
  refine h.storeAll _ (fun id row hmem => ?_) (fun id row hmem => ?_)
  · rcases hsound.deliveries id row hmem with
      ⟨d, u, hfound, -, rfl, hu⟩ | ⟨-, _, _, _, _, _, _, _, _, -, -, hins⟩
    · have hsame : (u.set d).jobId = d.jobId := by cases u <;> rfl
      refine ⟨fun d' hd' => ?_, .inr ⟨d, hfound, (Sql.state_set_of_isQuiet hs hu d).symm⟩⟩
      obtain rfl := Option.some.inj (hfound.symm.trans hd')
      exact hsame.symm
    · rw [Sql.insertsDelivery_of_isQuiet hs] at hins
      cases hins
  · rcases hsound.jobs id row hmem with ⟨j, u, hfound, rfl, -, hu⟩ | ⟨-, -, -, hins⟩
    · exact .inr ⟨j, hfound, (Sql.status_set_of_isQuiet hs hu j).symm⟩
    · rw [Sql.insertsJob_of_isQuiet hs] at hins
      cases hins

/-- A refresh makes the job agree. -/
lemma AgreesExcept.refreshed {S : Set PublishJobId} {db : Db} {job : PublishJobId}
    {j : PublishJob} {now : Time} {status : JobStatus} (h : AgreesExcept (insert job S) db)
    (hst : db.derivedStatus job now = .ok status) : AgreesExcept S (db.refreshed job j status) := by
  intro job' j' hS hj'
  have hnames : (db.refreshed job j status).stateNames job' = db.stateNames job' := by
    unfold Db.stateNames
    rw [Db.refreshed_deliveries]
  rw [hnames]
  rw [Db.refreshed_jobs] at hj'
  by_cases hjob : job' = job
  · subst hjob
    rw [AList.lookup_insert] at hj'
    obtain rfl := Option.some.inj hj'
    exact Db.derivedStatus_spells hst
  · rw [AList.lookup_insert_ne hjob] at hj'
    exact h job' j' (by simp [hjob, hS]) hj'

/-- A touch makes the job agree. -/
lemma AgreesExcept.touch {S : Set PublishJobId} {db db' : Db} {job : PublishJobId} {now : Time}
    {change : JobStatusChange} (h : AgreesExcept (insert job S) db)
    (hrun : Tx.run (touchJob job now) db = .ok (change, db')) : AgreesExcept S db' := by
  obtain ⟨hst, j, hj, -, -, rfl⟩ := touchJob_ok.1 hrun
  refine AgreesExcept.refreshed ?_ hst
  refine h.storeAll [.job job j.bumped] (by simp) (fun id row hmem => .inl ?_)
  simp only [List.mem_singleton, Write.job.injEq] at hmem
  simp [hmem.1]

/-- Storing a delivery leaves its job to be touched. -/
lemma AgreesExcept.setDelivery {S : Set PublishJobId} {db : Db} {id : DeliveryId}
    {row : Delivery} (h : AgreesExcept S db)
    (hsame : ∀ d, db.deliveries.lookup id = some d → d.jobId = row.jobId) :
    AgreesExcept (insert row.jobId S) (db.setDelivery id row) := by
  have hweak : AgreesExcept (insert row.jobId S) db := fun job j hS =>
    h job j fun hmem => hS (Set.mem_insert_of_mem _ hmem)
  refine hweak.storeAll [.delivery id row] (fun id' row' hmem => ?_) (by simp)
  simp only [List.mem_singleton, Write.delivery.injEq] at hmem
  obtain ⟨rfl, rfl⟩ := hmem
  exact ⟨hsame, .inl (Set.mem_insert _ _)⟩

/-! ## The blocks -/

/-- Every job's stored status is the one its deliveries spell. -/
def Agrees (db : Db) : Prop := AgreesExcept ∅ db

/-- A stored delivery of the same job, and then a touch of that job. -/
lemma Agrees.setDelivery_touch {db db' : Db} {id : DeliveryId} {d row : Delivery} {now : Time}
    {change : JobStatusChange} (h : Agrees db) (hd : db.deliveries.lookup id = some d)
    (hrun : Tx.run (touchJob d.jobId now) (db.setDelivery id row) = .ok (change, db'))
    (hjob : row.jobId = d.jobId) : Agrees db' := by
  refine AgreesExcept.touch (S := ∅) ?_ (hjob ▸ hrun)
  refine AgreesExcept.setDelivery h fun d' hd' => ?_
  obtain rfl := Option.some.inj (hd.symm.trans hd')
  exact hjob.symm

lemma Agrees.claim (id : DeliveryId) (gen : ℕ) (now lease : Time) :
    Tx.Keeps Agrees (DeliveryRepo.claim id gen now lease) := by
  intro db h o db' hrun
  rcases DeliveryRepo.claim_ok hrun with
    ⟨-, rfl⟩ | ⟨d, j, change, hd, -, -, -, -, -, htouch⟩
  · exact h
  · exact h.setDelivery_touch hd htouch rfl

lemma Agrees.stopCampaign (id : DeliveryId) (target : DeliveryState) (row : Delivery) :
    Tx.Keeps Agrees (DeliveryRepo.stopCampaign id target row) := by
  unfold DeliveryRepo.stopCampaign
  split
  · refine .bind (AgreesExcept.quiet _ rfl) fun _ => .bind ?_ fun _ => AgreesExcept.quiet _ rfl
    refine .bind (AgreesExcept.quiet _ rfl) fun o => ?_
    cases o with
    | none => exact .fail _
    | some counts => exact .done _
  · exact .done ()

lemma Agrees.apply (fence : Fence) (event : DeliveryEvent) (data : TransitionData) (now : Time) :
    Tx.Keeps Agrees (DeliveryRepo.apply fence event data now) := by
  intro db h applied db' hrun
  rcases DeliveryRepo.apply_ok hrun with ⟨-, rfl, -⟩ | ⟨state, job, d, hl, -⟩
  · exact h
  · obtain ⟨db₁, htouch, hstop⟩ := hl.stored
    exact Agrees.stopCampaign _ _ _ db₁ (h.setDelivery_touch hl.found htouch rfl) _ _ hstop

lemma Agrees.lateReceipt (id : DeliveryId) (receipt : Receipt) (now : Time) :
    Tx.Keeps Agrees (DeliveryRepo.recordLateReceipt id receipt now) := by
  intro db h o db' hrun
  rcases DeliveryRepo.recordLateReceipt_ok.1 hrun with
    ⟨d, change, hd, -, -, -, htouch⟩ | ⟨-, -, rfl⟩
  · exact h.setDelivery_touch hd htouch rfl
  · exact h

lemma Agrees.touch (job : PublishJobId) (now : Time) : Tx.Keeps Agrees (touchJob job now) := by
  intro db h change db' hrun
  exact AgreesExcept.touch (S := ∅) (fun job' j hjob' hj => h job' j (by simp) hj) hrun

lemma Agrees.insert (owner : UserId) (actor : Option UserId) (post : PostId) (row : Post)
    (new : NewJob) (dbNow now : Time) :
    Tx.Keeps Agrees (JobRepo.insert owner actor post row new dbNow now) := by
  intro db h dispatches db' hrun
  obtain ⟨deliveries, status, habsent, -, -, hadds, hrefresh⟩ := JobRepo.insert_ok hrun
  obtain ⟨hst, j, -, -, rfl⟩ := DeliveryRepo.refreshJobStatus_ok.1 hrefresh
  refine AgreesExcept.refreshed (S := ∅) ?_ hst
  intro job j' hjob hj'
  have hne : job ≠ new.id := by simpa using hjob
  have hnames : ({ db.setJob new.id (new.row owner post row.version actor dbNow) with
      deliveries } : Db).stateNames job = db.stateNames job := by
    ext n
    constructor
    · rintro ⟨id, d, hd, rfl, rfl⟩
      rcases hadds.added id d hd with hold | ⟨_, _, _, _, _, _, rfl⟩
      · exact ⟨id, d, hold, rfl, rfl⟩
      · exact absurd rfl hne
    · rintro ⟨id, d, hd, rfl, rfl⟩
      exact ⟨id, d, hadds.kept id d hd, rfl, rfl⟩
  rw [hnames]
  exact h job j' (by simp) ((AList.lookup_insert_ne hne).symm.trans hj')

lemma Agrees.edit (post : PostId) : Tx.Keeps Agrees (sql (.bumpPostVersion post)) := by
  intro db h u db' hrun
  obtain ⟨e, he, -, rfl⟩ := Tx.run_sql_ok.mp hrun
  have hposts : ∀ w ∈ e.writes, ∃ p, w = .post post p := by
    simp only [Sql.exec, Except.ok.injEq] at he
    subst he
    split
    · simp
    · simp [Sql.read]
  refine AgreesExcept.storeAll h _ (fun id row hmem => ?_) (fun id row hmem => ?_)
  · obtain ⟨p, hp⟩ := hposts _ hmem
    cases hp
  · obtain ⟨p, hp⟩ := hposts _ hmem
    cases hp

/-! ## Every run -/

lemma OpStep.agrees {db db' : Db} {e : Event} (h : OpStep db e db') (hdb : Agrees db) :
    Agrees db' := by
  cases h with
  | @did β op value _ h =>
    exact op.built.keeps (fun s hs => AgreesExcept.quiet s hs) (fun _ => Agrees.touch) Agrees.claim
      (fun fence event data now _ => Agrees.apply fence event data now) Agrees.lateReceipt
      (fun _ => Agrees.insert) (fun _ => Agrees.edit) db hdb _ _ h
  | failed => exact hdb
  | wrotePost => exact hdb
  | outside => exact hdb

lemma Reachable.agrees {db : Db} (h : Reachable db) : Agrees db := by
  refine h.invariant (fun db hfresh job j _ hj => ?_) fun h => h.agrees
  rw [hfresh.jobs] at hj
  cases hj

/-- Readable rows that spell a status derive it, in any order and at any time. -/
lemma derives_of_spells {rows : List Delivery} (hread : ∀ d ∈ rows, d.Readable)
    {status : JobStatus} (hspells : Spells (rowNames rows) status)
    (hterm : ∀ n ∈ rowNames rows, n.isTerminal = true) (now : Time) :
    ∃ views, rows.mapM (viewOf now) = .ok views ∧ deriveJobStatus views now = status := by
  obtain ⟨views, hviews⟩ := exists_views now hread
  refine ⟨views, hviews, ?_⟩
  have hderive := deriveJobStatus_spells views now
  rw [viewNames_eq_rowNames hviews] at hderive
  rw [hderive.ended hterm, hspells.ended hterm]

/-- **The stored job status agrees with its deliveries.**  In every reachable database a job's
stored status is an ended one exactly when all its deliveries are in terminal states; and then
it is the derived one, whatever the order the deliveries are read in and whatever the time. -/
theorem job_status_agrees {db : Db} (hdb : Reachable db) {job : PublishJobId} {j : PublishJob}
    (hj : db.jobs.lookup job = some j) :
    (j.status ∈ [.published, .cancelled, .failed, .partially] ↔
      ∀ id d, db.deliveries.lookup id = some d → d.jobId = job →
        ∃ s, d.readState = .ok s ∧ s.isTerminal = true) ∧
    ((∀ id d, db.deliveries.lookup id = some d → d.jobId = job →
        ∃ s, d.readState = .ok s ∧ s.isTerminal = true) →
      ∀ rows : List Delivery, rows.Perm (db.jobDeliveries job) → ∀ now,
        ∃ views, rows.mapM (viewOf now) = .ok views ∧ deriveJobStatus views now = j.status) := by
  have hspells := hdb.agrees job j (by simp) hj
  have hread := hdb.allReadable
  have hterm : (∀ id d, db.deliveries.lookup id = some d → d.jobId = job →
      ∃ s, d.readState = .ok s ∧ s.isTerminal = true) ↔
      ∀ n ∈ db.stateNames job, n.isTerminal = true := by
    constructor
    · rintro h n ⟨id, d, hd, hjob, rfl⟩
      obtain ⟨s, hs, hst⟩ := h id d hd hjob
      rw [(DeliveryUpdate.inState_iff.mpr hs).1, DeliveryState.isTerminal_asStr]
      exact hst
    · intro h id d hd hjob
      obtain ⟨s, hs⟩ := hread id d hd
      refine ⟨s, DeliveryUpdate.inState_iff.mp hs, ?_⟩
      rw [← DeliveryState.isTerminal_asStr, ← hs.1]
      exact h d.state ⟨id, d, hd, hjob, rfl⟩
  refine ⟨?_, fun hall rows hperm now => ?_⟩
  · rw [hterm, ← hspells.isLive_eq_false_iff]
    cases j.status <;> simp [JobStatus.isLive]
  · have hnames : rowNames rows = db.stateNames job := by
      rw [← db.rowNames_jobDeliveries]
      ext n
      simp only [rowNames, Set.mem_ofPred_eq, hperm.mem_iff]
    refine derives_of_spells (fun d hd => ?_) (hnames ▸ hspells) (hnames ▸ hterm.mp hall) now
    obtain ⟨id, hlook, -⟩ := Db.mem_jobDeliveries.1 (hperm.mem_iff.mp hd)
    exact hread id d hlook

/-- The rule on a job whose only delivery was cancelled. -/
theorem job_status_agrees_cancelled :
    let db := (Db.sample.perform (.publishSample 1)).perform (.cancelDelivery (.own 1) 1 0)
    ∃ j, db.jobs.lookup 1 = some j ∧ j.status = .cancelled ∧
      ∀ id d, db.deliveries.lookup id = some d → d.jobId = 1 →
        ∃ s, d.readState = .ok s ∧ s.isTerminal = true := by
  intro db
  have hdb : Reachable db := (Db.reachable_sample.perform _).perform _
  have hj : db.jobs.lookup 1 = some
      { ownerId := 1, postId := 1, postVersion := 1, scheduledAt := 0, nativeSchedule := false,
        dryRun := false, status := .cancelled, version := 2, updatedBy := some 1 } := by
    decide
  exact ⟨_, hj, rfl, (job_status_agrees hdb hj).1.mp (by decide)⟩

end Postit.Data
