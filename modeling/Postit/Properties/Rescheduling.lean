import Postit.Data.Locking
import Postit.Data.Status

/-!
# Rescheduling a whole job

A reschedule that is refused has written nothing; one that succeeds moves every pending delivery of
the job, each with one dispatch, and no other.
-/

namespace Postit.Data

open Postit.Framework

/-! ## Where a transaction stops -/

namespace Tx

variable {α β : Type} {db : Db} {e : DataError}

/-- The database where the transaction ends or fails, before a failure is rolled back. -/
def stop : Tx α → Db → Db
  | .done _, db => db
  | .fail _, db => db
  | .act s k, db =>
    match Sql.alone s db with
    | .ok (b, db') => stop (k b) db'
    | .error _ => db

lemma stop_bind (p : Tx α) (f : α → Tx β) (db : Db) :
    stop (p >>= f) db =
      match run p db with
      | .ok (a, db') => stop (f a) db'
      | .error _ => stop p db := by
  induction p generalizing db with
  | done a => rfl
  | fail e => rfl
  | act s k ih =>
    have hrun : run (Prog.act s k) db = Sql.alone s db >>= fun r => run (k r.1) r.2 := rfl
    simp only [Prog.act_bind, stop, hrun]
    cases Sql.alone s db with
    | error e => rfl
    | ok r => exact ih r.1 r.2

lemma run_bind_error {p : Tx α} {f : α → Tx β} (h : run (p >>= f) db = .error e) :
    run p db = .error e ∨ ∃ a db', run p db = .ok (a, db') ∧ run (f a) db' = .error e := by
  unfold run at *
  rw [Prog.run_bind] at h
  cases hp : Prog.run Sql.alone p db with
  | error e' =>
    rw [hp] at h
    cases h
    exact .inl rfl
  | ok r =>
    rw [hp] at h
    exact .inr ⟨r.1, r.2, rfl, h⟩

lemma run_sql_error {s : Sql α} (h : run (sql s) db = .error e) :
    s.exec (fun _ => true) db = .error e := by
  unfold run Data.sql Prog.perform Sql.alone at h
  rw [Prog.run_act] at h
  cases heffect : s.exec (fun _ => true) db with
  | error e' =>
    rw [heffect] at h
    cases h
    rfl
  | ok effect =>
    rw [heffect] at h
    cases h

/-- The transaction writes nothing, whether it ends or fails. -/
def ReadsOnly (p : Tx α) : Prop :=
  ∀ db, stop p db = db ∧ ∀ a db', run p db = .ok (a, db') → db' = db

namespace ReadsOnly

lemma done (a : α) : ReadsOnly (Prog.done a : Tx α) :=
  fun _ => ⟨rfl, fun _ _ h => (run_done_ok.1 h).2⟩

lemma fail (e : DataError) : ReadsOnly (Prog.fail e : Tx α) :=
  fun _ => ⟨rfl, fun _ _ h => (run_fail_ok.1 h).elim⟩

lemma bind {p : Tx α} {f : α → Tx β} (hp : ReadsOnly p) (hf : ∀ a, ReadsOnly (f a)) :
    ReadsOnly (p >>= f) := by
  refine fun db => ⟨?_, fun b db' h => ?_⟩
  · rw [stop_bind]
    cases hrun : run p db with
    | error e => exact (hp db).1
    | ok r =>
      obtain rfl : r.2 = db := (hp db).2 r.1 r.2 hrun
      exact (hf r.1 r.2).1
  · obtain ⟨a, db₁, hrun, hrest⟩ := run_bind_ok.1 h
    obtain rfl := (hp db).2 a db₁ hrun
    exact (hf a db₁).2 b db' hrest

lemma guard (c : Bool) (e : DataError) : ReadsOnly (Prog.guard c e) := by
  cases c
  · exact fail e
  · exact done ()

lemma orFail (e : DataError) (o : Option α) : ReadsOnly (Prog.orFail e o) := by
  cases o
  · exact fail e
  · exact done _

lemma ofExcept {ε : Type} (g : ε → DataError) (x : Except ε α) :
    ReadsOnly (Prog.ofExcept g x) := by
  cases x
  · exact fail _
  · exact done _

lemma sql {s : Sql α}
    (h : ∀ db effect, s.exec (fun _ => true) db = .ok effect → effect.writes = []) :
    ReadsOnly (sql s) := by
  have hstore : ∀ {db : Db} {effect : Effect α}, s.exec (fun _ => true) db = .ok effect →
      db.storeAll effect.writes = db := by
    intro db effect heffect
    rw [h db effect heffect]
    rfl
  refine fun db => ⟨?_, fun a db' hrun => ?_⟩
  · simp only [Data.sql, Prog.perform, stop, Sql.alone]
    cases heffect : s.exec (fun _ => true) db with
    | error e => rfl
    | ok effect => exact hstore heffect
  · obtain ⟨effect, heffect, -, rfl⟩ := run_sql_ok.1 hrun
    exact hstore heffect

lemma each {body : α → Tx β} (h : ∀ a, ReadsOnly (body a)) :
    ∀ as : List α, ReadsOnly (Prog.each as body)
  | [] => done _
  | a :: as => bind (h a) fun _ => bind (each h as) fun _ => done _

end ReadsOnly

/-- A transaction that fails behind a part that only reads has written nothing, unless it fails
where something is written. -/
lemma stop_of_error {p : Tx α} {f : α → Tx β} (hp : ReadsOnly p)
    (hf : ∀ a, run p db = .ok (a, db) → run (f a) db = .error e → stop (f a) db = db)
    (h : run (p >>= f) db = .error e) : stop (p >>= f) db = db := by
  rw [stop_bind]
  rcases run_bind_error h with hrun | ⟨a, db', hrun, hrest⟩
  · rw [hrun]
    exact (hp db).1
  · obtain rfl := (hp db).2 a db' hrun
    rw [hrun]
    exact hf a hrun hrest

end Tx

/-! ## What is refused -/

section Refused

variable {db db' : Db} {scope : OwnerScope} {id : PublishJobId} {e : DataError}

lemma readsOnly_require (scope : OwnerScope) (needed : Capability) :
    Tx.ReadsOnly (scope.require needed) := by
  rw [OwnerScope.require_eq]
  exact .ofExcept _ _

lemma readsOnly_lockVisibleJob (scope : OwnerScope) (id : PublishJobId) :
    Tx.ReadsOnly (JobRepo.lockVisibleJob scope id) := by
  refine .bind (.sql fun db effect h => ?_) fun _ => .bind (.guard _ _) fun _ =>
    .bind (.bind (.sql fun db effect h => ?_) fun _ => .each (fun _ => ?_) _) fun _ =>
    .bind (.sql fun db effect h => ?_) fun _ => .bind (.guard _ _) fun _ =>
    .bind (.guard _ _) fun _ => .bind (.guard _ _) fun _ => .done _
  · cases h
    rfl
  · cases h
    rfl
  · exact .bind (.ofExcept _ _) fun _ => .done _
  · simp only [Sql.exec, Except.ok.injEq] at h
    split at h <;> cases h <;> rfl

/-- Refreshing the status of a job that is there fails in its database alone. -/
lemma refreshJobStatus_error {now : Time} {j : PublishJob} (hj : db.jobs.lookup id = some j)
    (h : Tx.run (DeliveryRepo.refreshJobStatus id now) db = .error e) :
    e = .sql ∨ e = .jobActive := by
  rcases Tx.run_bind_error h with h₁ | ⟨rows, db₁, hrows, h₁⟩
  · cases Tx.run_sql_error h₁
  obtain ⟨_, heffect, -, rfl⟩ := Tx.run_sql_ok.mp hrows
  cases heffect
  rcases Tx.run_bind_error h₁ with h₂ | ⟨views, db₂, hviews, h₂⟩
  · cases hmap : rows.mapM (viewOf now) with
    | error err =>
      rw [hmap] at h₂
      cases h₂
      exact .inl rfl
    | ok views =>
      rw [hmap] at h₂
      cases h₂
  obtain ⟨-, rfl⟩ := Tx.run_ofExcept_ok.mp hviews
  rcases Tx.run_bind_error h₂ with h₃ | ⟨info, db₃, hinfo, h₃⟩
  · have herror := Tx.run_sql_error h₃
    simp only [Sql.exec, hj, Sql.storeJob] at herror
    split at herror <;> cases herror
    exact .inr rfl
  have hsome : ∃ row, info = some row := by
    obtain ⟨effect, heffect, rfl, -⟩ := Tx.run_sql_ok.mp hinfo
    simp only [Sql.exec, hj, Sql.storeJob] at heffect
    split at heffect <;> cases heffect
    exact ⟨_, rfl⟩
  obtain ⟨row, rfl⟩ := hsome
  rcases Tx.run_bind_error h₃ with h₄ | ⟨row', db₄, hrow, h₄⟩
  · cases h₄
  split at h₄
  · rcases Tx.run_bind_error h₄ with h₅ | ⟨_, _, -, h₅⟩
    · cases Tx.run_sql_error h₅
    · cases h₅
  · cases h₄

/-- Touching a job that is there fails in its database alone. -/
lemma touchJob_error {now : Time} {j : PublishJob} (hj : db.jobs.lookup id = some j)
    (h : Tx.run (touchJob id now) db = .error e) : e = .sql ∨ e = .jobActive := by
  rcases Tx.run_bind_error h with h₁ | ⟨o, db₁, hbump, h₁⟩
  · cases Tx.run_sql_error h₁
  obtain ⟨_, heffect, rfl, rfl⟩ := Tx.run_sql_ok.mp hbump
  cases heffect
  simp only [Sql.updateJob, hj] at h₁
  rcases Tx.run_bind_error h₁ with h₂ | ⟨before, db₂, hbefore, h₂⟩
  · cases h₂
  obtain ⟨-, rfl⟩ := Tx.run_orFail_ok.mp hbefore
  rcases Tx.run_bind_error h₂ with h₃ | ⟨after, db₃, -, h₃⟩
  · exact refreshJobStatus_error (AList.lookup_insert _) h₃
  · cases h₃

lemma jobs_updateDeliveries (rows : List (DeliveryId × Delivery)) (u : DeliveryUpdate) (db : Db) :
    (db.storeAll (Sql.updateDeliveries rows u).writes).jobs.lookup id = db.jobs.lookup id := by
  obtain ⟨deliveries, h⟩ := Db.storeAll_deliveries (fun r => u.set r.2) rows db
  rw [Sql.updateDeliveries, h]

/-- What a reschedule refuses for a reason of its own, it refuses before it writes anything. -/
lemma reschedule_refused {at_ now : Time} {uploadNow : List AccountId}
    (h : Tx.run (JobRepo.reschedulePendingWith scope id at_ now uploadNow) db = .error e)
    (hsql : e ≠ .sql) (hactive : e ≠ .jobActive) :
    Tx.stop (JobRepo.reschedulePendingWith scope id at_ now uploadNow) db = db := by
  refine Tx.stop_of_error (readsOnly_require _ _) (fun _ _ h₁ => ?_) h
  refine Tx.stop_of_error (readsOnly_lockVisibleJob _ _) (fun ls _ h₂ => ?_) h₁
  refine Tx.stop_of_error (.sql fun _ _ h => by cases h; rfl) (fun o hjob h₃ => ?_) h₂
  refine Tx.stop_of_error (.orFail _ _) (fun j hj h₄ => ?_) h₃
  obtain ⟨rfl, -⟩ := Tx.run_orFail_ok.mp hj
  obtain ⟨_, heffect, hjob, -⟩ := Tx.run_sql_ok.mp hjob
  cases heffect
  split at h₄
  · rename_i hcancelled
    simp only [if_pos hcancelled]
    exact Tx.stop_of_error (.fail _) (fun _ hfail _ => (Tx.run_fail_ok.mp hfail).elim) h₄
  · rename_i hcancelled
    simp only [if_neg hcancelled]
    refine Tx.stop_of_error (.guard _ _) (fun _ _ h₅ => ?_) h₄
    -- behind the last guard only the touch of the job can fail
    exfalso
    rcases Tx.run_bind_error h₅ with h₆ | ⟨rows, db₁, hrows, h₆⟩
    · cases Tx.run_sql_error h₆
    rcases Tx.run_bind_error h₆ with h₇ | ⟨_, db₂, hset, h₇⟩
    · cases Tx.run_sql_error h₇
    rcases Tx.run_bind_error h₇ with h₈ | ⟨change, db₃, -, h₈⟩
    · obtain ⟨_, heffect, -, rfl⟩ := Tx.run_sql_ok.mp hrows
      cases heffect
      obtain ⟨_, heffect, -, rfl⟩ := Tx.run_sql_ok.mp hset
      cases heffect
      have hjob' : db.jobs.lookup id = some j := hjob.symm
      simp only [Sql.updateJob, jobs_updateDeliveries, hjob'] at h₈
      rcases touchJob_error (AList.lookup_insert _) h₈ with rfl | rfl
      · exact hsql rfl
      · exact hactive rfl
    · cases h₈

end Refused

/-! ## What is moved -/

section Moved

variable {db db' : Db} {scope : OwnerScope} {id : PublishJobId} {at_ now : Time}
  {uploadNow : List AccountId} {result : JobRepo.Rescheduled}

/-- When a pending delivery becomes due: now where the platform holds the post until its time. -/
def Delivery.dueAt (d : Delivery) (at_ now : Time) (uploadNow : List AccountId) : Time :=
  if d.accountId ∈ uploadNow then now else at_

/-- A pending delivery of the job. -/
def Delivery.Waits (d : Delivery) (id : PublishJobId) : Prop := d.jobId = id ∧ d.state = .pending

/-- The pending rows picked are the job's. -/
lemma mem_pendingRows {ls : List Loaded} (h : LoadsJob ls id db) {r : DeliveryId × Delivery} :
    r ∈ JobRepo.pendingRows db ls ↔ db.deliveries.lookup r.1 = some r.2 ∧ r.2.Waits id := by
  obtain ⟨did, d⟩ := r
  have hmem : (did, d) ∈ JobRepo.pendingRows db ls ↔ db.deliveries.lookup did = some d ∧
      (∃ l ∈ JobRepo.openOnes ls, l.state = .pending ∧ l.id = did) ∧ d.state = .pending := by
    simp only [JobRepo.pendingRows, Sql.deliveriesWhere, List.mem_insertionSort, Table.mem_select,
      Bool.and_eq_true, List.contains_iff_mem, List.mem_map, List.mem_filter, decide_eq_true_eq,
      and_assoc]
  rw [hmem]
  constructor
  · rintro ⟨hfound, ⟨l, hl, -, hid⟩, hstate⟩
    obtain ⟨hreads, hjob⟩ := h.reads l (List.mem_filter.mp hl).1
    have hrow : l.row = d := by
      have hfound' := hreads.found
      rw [hid, hfound] at hfound'
      exact (Option.some.inj hfound').symm
    exact ⟨hfound, hrow ▸ hjob, hstate⟩
  · rintro ⟨hfound, hjob, hstate⟩
    obtain ⟨l, hl, hid, hrow⟩ := h.all did d hfound hjob
    have hin := (h.reads l hl).1.inState.1
    rw [hrow, hstate] at hin
    have hl' : l.state = .pending := by
      cases hs : l.state <;> rw [hs] at hin <;> first | rfl | cases hin
    refine ⟨hfound, ⟨l, List.mem_filter.mpr ⟨hl, ?_⟩, hl', hid⟩, hstate⟩
    rw [hl']
    rfl

/-- What a reschedule does: every delivery of the job that has not ended is in reach, and waits or
is held by its platform; those that wait are moved, with one dispatch each, and no other delivery
changes. -/
structure MovesJob (scope : OwnerScope) (id : PublishJobId) (at_ now : Time)
    (uploadNow : List AccountId) (db : Db) (result : JobRepo.Rescheduled) (db' : Db) : Prop where
  reach : ∀ did d, db.deliveries.lookup did = some d → d.jobId = id →
    d.state.isTerminal = false → scope.allowsAccount d.accountId ∧
      (d.state = .pending ∨ d.state = .processing ∧ d.remotePublishAt.isSome)
  moved : ∀ did d, db.deliveries.lookup did = some d → d.Waits id →
    db'.deliveries.lookup did = some
      { d with
        nextAttemptAt := some (d.dueAt at_ now uploadNow)
        dispatchGen := d.dispatchGen + 1
        updatedAt := now
        updatedBy := some scope.actor }
  kept : ∀ did, (∀ d, db.deliveries.lookup did = some d → ¬ d.Waits id) →
    db'.deliveries.lookup did = db.deliveries.lookup did
  once : (result.dispatches.map (·.delivery)).Nodup
  dispatches : ∀ x, x ∈ result.dispatches ↔ ∃ d, db.deliveries.lookup x.delivery = some d ∧
    d.Waits id ∧ x.dispatchGen = d.dispatchGen + 1 ∧ x.runAt = d.dueAt at_ now uploadNow
  scheduled : ∃ j, db'.jobs.lookup id = some j ∧ j.scheduledAt = at_

lemma movesJob_of_run
    (h : Tx.run (JobRepo.reschedulePendingWith scope id at_ now uploadNow) db =
      .ok (result, db')) : MovesJob scope id at_ now uploadNow db result db' := by
  obtain ⟨ls, j, change, hloads, hj, -, hopen, hdispatches, htouch⟩ :=
    JobRepo.reschedulePendingWith_ok h
  have hrows : ∀ r ∈ JobRepo.pendingRows db ls, db.deliveries.lookup r.1 = some r.2 :=
    fun r hr => ((mem_pendingRows hloads).mp hr).1
  have hdeliveries := touchJob_deliveries htouch
  have hdispatches' : result.dispatches = (JobRepo.pendingRows db ls).map fun r =>
      ⟨r.1, r.2.dispatchGen + 1, r.2.dueAt at_ now uploadNow⟩ := by
    rw [hdispatches, Sql.updateDeliveries, List.map_map]
    rfl
  refine ⟨fun did d hd hjob hterminal => ?_, fun did d hd hwaits => ?_, fun did hnot => ?_, ?_,
    fun x => ?_, ?_⟩
  · obtain ⟨l, hl, -, rfl⟩ := hloads.all did d hd hjob
    have hin := (hloads.reads l hl).1.inState.1
    have hl' : l ∈ JobRepo.openOnes ls := by
      refine List.mem_filter.mpr ⟨hl, ?_⟩
      rw [hin, DeliveryState.isTerminal_asStr] at hterminal
      rw [hterminal]
      rfl
    obtain ⟨hallowed, hpending | ⟨hprocessing, hheld⟩⟩ := hopen l hl'
    · rw [hpending] at hin
      exact ⟨hallowed, .inl hin⟩
    · rw [hprocessing] at hin
      exact ⟨hallowed, .inr ⟨hin, hheld⟩⟩
  · rw [hdeliveries]
    exact lookup_updateDeliveries hrows ((mem_pendingRows (r := (did, d)) hloads).mpr ⟨hd, hwaits⟩)
  · rw [hdeliveries]
    rcases db.storeAll_delivery (Sql.updateDeliveries (JobRepo.pendingRows db ls)
      (.reschedule at_ now scope.actor uploadNow)).writes did with ⟨row, hmem, -⟩ | ⟨-, hlook⟩
    · obtain ⟨r, hr, heq⟩ := List.mem_map.mp hmem
      cases heq
      obtain ⟨hfound, hwaits⟩ := (mem_pendingRows hloads).mp hr
      exact absurd hwaits (hnot r.2 hfound)
    · exact hlook
  · rw [hdispatches', List.map_map]
    exact Sql.nodup_deliveriesWhere _ _
  · rw [hdispatches', List.mem_map]
    constructor
    · rintro ⟨r, hr, rfl⟩
      obtain ⟨hfound, hwaits⟩ := (mem_pendingRows hloads).mp hr
      exact ⟨r.2, hfound, hwaits, rfl, rfl⟩
    · rintro ⟨d, hfound, hwaits, hgen, hrun⟩
      refine ⟨(x.delivery, d), (mem_pendingRows hloads).mpr ⟨hfound, hwaits⟩, ?_⟩
      rw [← hgen, ← hrun]
  · obtain ⟨-, j', hj', -, -, rfl⟩ := touchJob_ok.1 htouch
    obtain rfl := Option.some.inj ((AList.lookup_insert _).symm.trans hj')
    exact ⟨_, (by rw [Db.refreshed_jobs]; exact AList.lookup_insert _), rfl⟩

end Moved

/-- A transaction that fails is rolled back. -/
def Tx.attempt {α : Type} (p : Tx α) (db : Db) : Except DataError α × Db :=
  match Tx.run p db with
  | .ok (a, db') => (.ok a, db')
  | .error e => (.error e, db)

/-- A reschedule either fails and leaves everything as it was, a refusal of its own before anything
is written, or it moves the job as a whole. -/
theorem reschedule_whole (scope : OwnerScope) (id : PublishJobId) (at_ now : Time)
    (uploadNow : List AccountId) (db : Db) :
    (∃ e, Tx.attempt (JobRepo.reschedulePendingWith scope id at_ now uploadNow) db =
        (.error e, db) ∧
      (e = .sql ∨ e = .jobActive ∨
        Tx.stop (JobRepo.reschedulePendingWith scope id at_ now uploadNow) db = db)) ∨
    ∃ result db', Tx.attempt (JobRepo.reschedulePendingWith scope id at_ now uploadNow) db =
        (.ok result, db') ∧
      MovesJob scope id at_ now uploadNow db result db' := by
  unfold Tx.attempt
  cases hrun : Tx.run (JobRepo.reschedulePendingWith scope id at_ now uploadNow) db with
  | ok r => exact .inr ⟨r.1, r.2, rfl, movesJob_of_run hrun⟩
  | error e =>
    refine .inl ⟨e, rfl, ?_⟩
    by_cases hsql : e = .sql
    · exact .inl hsql
    by_cases hactive : e = .jobActive
    · exact .inr (.inl hactive)
    · exact .inr (.inr (reschedule_refused hrun hsql hactive))

end Postit.Data
