import Postit.Properties.ShownStatus

/-!
# The post's status and its live job

Two jobs of one version of a post exist at once when one has ended: resolving a delivery of the
ended one, or cancelling or rescheduling it as a whole, refreshes it, and overwrites what the live
one shows.  Everything else keeps the live job on the post.  `Op.target` is the job that may have
ended, and `CalmStep` a step that does not refresh it over a live one.
-/

namespace Postit.Data

open Postit.Framework

/-! ## Deliveries and jobs are of the same post -/

/-- A delivery belongs to the post of its job. -/
def PostsMatch (db : Db) : Prop :=
  ∀ id d j, db.deliveries.lookup id = some d → db.jobs.lookup d.jobId = some j →
    d.postId = j.postId

lemma Tx.job_stays {α : Type} {p : Tx α} {a : α} {db db' : Db} (h : Tx.run p db = .ok (a, db'))
    {id : PublishJobId} {j : PublishJob} (hj : db.jobs.lookup id = some j) :
    ∃ j', db'.jobs.lookup id = some j' ∧ j'.postId = j.postId := by
  refine Prog.run_relates Sql.alone
    (R := fun db db' => ∀ j, db.jobs.lookup id = some j →
      ∃ j', db'.jobs.lookup id = some j' ∧ j'.postId = j.postId)
    (fun _ j hj => ⟨j, hj, rfl⟩) (fun h h' j hj => ?_) (fun s db db' b hs j hj => ?_) p h j hj
  · obtain ⟨j', hj', hpost⟩ := h j hj
    obtain ⟨j'', hj'', hpost'⟩ := h' j' hj'
    exact ⟨j'', hj'', hpost'.trans hpost⟩
  · obtain ⟨e, he, -, rfl⟩ := Sql.alone_eq_ok hs
    obtain ⟨j', hj', hpost, -⟩ := (Sql.exec_sound s he).job_stays hj
    exact ⟨j', hj', hpost⟩

lemma RowStep.same_post {A : Calls} {id : DeliveryId} {d d' : Delivery}
    (h : RowStep A id d d') :
    d'.jobId = d.jobId ∧ d'.postId = d.postId := by
  obtain ⟨u, -, -⟩ := h
  cases u <;> exact ⟨rfl, rfl⟩

/-- An operation that creates no deliveries keeps them with their posts. -/
lemma PostsMatch.rows {α : Type} {p : Tx α} {a : α} {A : Calls} {db db' : Db} (hsound : Sound db)
    (h : PostsMatch db) (hrows : RowsStep A False db db') (hrun : Tx.run p db = .ok (a, db')) :
    PostsMatch db' := by
  intro id d' j' hd' hj'
  rcases hrows.came id d' hd' with ⟨d, hd⟩ | ⟨hno, -⟩
  · obtain ⟨d₁, hd₁, hjob, hpost⟩ := hrows.relates
      (R := fun d d' => d'.jobId = d.jobId ∧ d'.postId = d.postId) (fun _ => ⟨rfl, rfl⟩)
      (fun h h' => ⟨h'.1.trans h.1, h'.2.trans h.2⟩) (fun h => h.same_post) hd
    obtain rfl := Option.some.inj (hd'.symm.trans hd₁)
    obtain ⟨j, hj⟩ := Option.isSome_iff_exists.mp (hsound.hasJob id d hd)
    obtain ⟨j₁, hj₁, hpost₁⟩ := Tx.job_stays hrun hj
    rw [hjob] at hj'
    obtain rfl := Option.some.inj (hj'.symm.trans hj₁)
    rw [hpost, h id d j hd hj, hpost₁]
  · exact hno.elim

lemma PostsMatch.insert {owner : UserId} {actor : Option UserId} {post : PostId} {row : Post}
    {new : NewJob} {dbNow now : Time} {dispatches : List Dispatch} {db db' : Db}
    (hsound : Sound db) (h : PostsMatch db)
    (hrun : Tx.run (JobRepo.insert owner actor post row new dbNow now) db = .ok (dispatches, db')) :
    PostsMatch db' := by
  obtain ⟨deliveries, status, habsent, -, -, hadds, hrefresh⟩ := JobRepo.insert_ok hrun
  obtain ⟨-, j₀, hj₀, -, rfl⟩ := DeliveryRepo.refreshJobStatus_ok.1 hrefresh
  obtain rfl := Option.some.inj ((AList.lookup_insert _).symm.trans hj₀)
  intro id d j hd hj
  rw [Db.refreshed_deliveries] at hd
  rw [Db.refreshed_jobs] at hj
  rcases hadds.added id d hd with hold | ⟨_, _, _, _, _, _, rfl⟩
  · have hne : d.jobId ≠ new.id := by
      intro heq
      have hjob := hsound.hasJob id d hold
      rw [heq, habsent] at hjob
      cases hjob
    rw [AList.lookup_insert_ne hne] at hj
    exact h id d j hold ((AList.lookup_insert_ne hne).symm.trans hj)
  · obtain rfl := Option.some.inj ((AList.lookup_insert _).symm.trans hj)
    rfl

lemma OpStep.postsMatch {db db' : Db} {e : Event} (hstep : OpStep db e db') (hsound : Sound db)
    (h : PostsMatch db) : PostsMatch db' := by
  cases hstep with
  | @did β op value _ hrun =>
    by_cases hreach : op.reach = .posts
    · cases op with
      | createJob scope post expectedVersion new dbNow now =>
        obtain ⟨row, -, hinsert⟩ := JobRepo.create_ok hrun
        exact h.insert hsound hinsert
      | createForOccurrence owner post actor new dbNow now =>
        obtain ⟨row, -, hinsert⟩ := JobRepo.createForOccurrence_ok hrun
        exact h.insert hsound hinsert
      | editPost scope post expectedVersion =>
        obtain ⟨p, -, -, rfl⟩ := PostRepo.edit_ok hrun
        exact h
      | _ => cases hreach
    · have hrows := op.built.rows hrun
      have hnone : RowsStep op.Calls False db db' :=
        ⟨hrows.kept, fun id d' hd' => (hrows.came id d' hd').imp_right
          fun hnew => absurd hnew.1 hreach⟩
      exact h.rows hsound hnone hrun
  | failed => exact h
  | wrotePost => exact h
  | outside => exact h

lemma Reachable.postsMatch {db : Db} (h : Reachable db) : PostsMatch db := by
  refine (h.invariant (I := fun db => Sound db ∧ PostsMatch db) (fun db hfresh => ?_) ?_).2
  · refine ⟨hfresh.sound, fun id d j hd => ?_⟩
    rw [hfresh.deliveries] at hd
    cases hd
  · exact fun hstep hI => ⟨hstep.sound hI.1, hstep.postsMatch hI.1 hI.2⟩

/-! ## The operations -/

/-- The job an operation is on, where it may have ended: a resolve or another fenced write for a user,
a cancel or reschedule of the whole job, a result recorded over a cancel, and the writes that take
a job or fence of the caller's. -/
def Op.target {β : Type} (db : Db) : Op β → Option PublishJobId
  | .apply fence event _ _ =>
      if DeliveryEvent.byUser event then (db.deliveries.lookup fence.id).map (·.jobId) else none
  | .resolve _ id _ _ => (db.deliveries.lookup id).map (·.jobId)
  | .setRemotePublishAt fence _ _ =>
      if fence.expected.isTerminal then (db.deliveries.lookup fence.id).map (·.jobId) else none
  | .cancelJob _ id _ | .reschedule _ id _ _ _ => some id
  | .materialize delivery _ _ | .startCampaign delivery _ _ _ => some delivery.jobId
  | .record id _ _ _ =>
      match db.sends.lookup id with
      | some r =>
          if r.state = .failed then (db.deliveries.lookup r.deliveryId).map (·.jobId) else none
      | none => none
  | _ => none

lemma Tidy.setRemotePublishAt {db db' : Db} {fence : Fence} {at_ now : Time}
    {o : Option JobStatusChange}
    (h : Tidy (Op.target db (.setRemotePublishAt fence at_ now)) db)
    (hrun : Tx.run (DeliveryRepo.setRemotePublishAt fence at_ now) db = .ok (o, db')) :
    Shows db' := by
  simp only [DeliveryRepo.setRemotePublishAt, Tx.run_bind_ok] at hrun
  obtain ⟨found, db₁, hset, hrun⟩ := hrun
  have h₁ := Tidy.quiet _ rfl db h _ _ hset
  rcases (Tx.run_updateDelivery_ok rfl).mp hset with
    ⟨d, hd, -, hcond, rfl, rfl⟩ | ⟨-, rfl, rfl⟩
  · simp only [Tx.run_bind_ok, Prog.pure_eq, Tx.run_done_ok] at hrun
    obtain ⟨change, _, htouch, -, rfl⟩ := hrun
    simp only [Bool.and_eq_true, decide_eq_true_eq] at hcond
    refine (h₁.touch ?_ htouch).shown.shows
    by_cases hterm : fence.expected.isTerminal = true
    · exact .inl (by simp [Op.target, hterm, hd]; rfl)
    · refine h₁.mayTouch (AList.lookup_insert _) ?_
      change d.state.isTerminal = false
      rw [hcond.2, DeliveryState.isTerminal_asStr]
      simpa using hterm
  · obtain ⟨-, rfl⟩ := Tx.run_done_ok.mp hrun
    exact h.shown.shows

lemma Tidy.waitForCap {T : Option PublishJobId} {db db' : Db} {fence : Fence}
    {resumeAt now : Time} {b : Bool} (h : Tidy T db)
    (hrun : Tx.run (DirectRepo.waitForCap fence resumeAt now) db = .ok (b, db')) :
    Shows db' := by
  simp only [DirectRepo.waitForCap, Tx.run_bind_ok] at hrun
  obtain ⟨found, db₁, hset, hrun⟩ := hrun
  have h₁ := Tidy.quiet _ rfl db h _ _ hset
  rcases (Tx.run_updateDelivery_ok rfl).mp hset with
    ⟨d, hd, happ, -, rfl, rfl⟩ | ⟨-, rfl, rfl⟩
  · simp only [Tx.run_bind_ok, Prog.pure_eq, Tx.run_done_ok] at hrun
    obtain ⟨change, _, htouch, -, rfl⟩ := hrun
    refine (h₁.touch (h₁.mayTouch (AList.lookup_insert _) ?_) htouch).shown.shows
    change d.state.isTerminal = false
    rw [show d.state = .processing from happ]
    rfl
  · obtain ⟨-, rfl⟩ := Tx.run_done_ok.mp hrun
    exact h.shown.shows

lemma Tidy.record {db db' : Db} {id : DirectSendId} {batch : DirectBatchId} {result : DirectResult}
    {now : Time} {b : Bool} (h : Tidy (Op.target db (.record id batch result now)) db)
    (hrun : Tx.run (DirectRepo.record id batch result now) db = .ok (b, db')) : Shows db' := by
  simp only [DirectRepo.record, Tx.run_bind_ok] at hrun
  obtain ⟨found, db₁, hrecord, hrun⟩ := hrun
  have h₁ := Tidy.quiet _ rfl db h _ _ hrecord
  cases found with
  | none =>
    obtain ⟨-, rfl⟩ := Tx.run_done_ok.mp hrun
    exact h₁.shown.shows
  | some r =>
    obtain ⟨row, replacedCancel⟩ := r
    obtain ⟨s, hs, hrow, hreplaced, hdeliveries⟩ := Sql.recordSend_ok hrecord
    -- the suppression of a bounced address comes first, and changes no delivery
    obtain ⟨db₂, h₂, hsame, hlast⟩ : ∃ db₂, Tidy (Op.target db (.record id batch result now)) db₂ ∧
        db₂.deliveries = db₁.deliveries ∧
        Tx.run (if replacedCancel = true then do
          let job ← Prog.orFail .sql (← sql (.lockDeliveryJob row.deliveryId))
          DirectRepo.storeCounts row.deliveryId
          let _ ← touchJob job now
          pure true
        else pure true : Tx Bool) db₂ = .ok (b, db') := by
      by_cases hbounced : result.state = .bounced
      · simp only [hbounced, if_true, Tx.run_bind_ok] at hrun
        obtain ⟨_, db₂, hsuppress, hlast⟩ := hrun
        refine ⟨db₂, Tidy.quiet _ rfl db₁ h₁ _ _ hsuppress, ?_, hlast⟩
        simp only [Tx.run_sql_ok, Sql.exec, Except.ok.injEq, exists_eq_left'] at hsuppress
        obtain ⟨-, rfl⟩ := hsuppress
        rfl
      · simp only [hbounced, if_false] at hrun
        exact ⟨db₁, h₁, rfl, hrun⟩
    split at hlast
    · rename_i hcancel
      simp only [Tx.run_bind_ok, Tx.run_orFail_ok, Prog.pure_eq, Tx.run_done_ok] at hlast
      obtain ⟨o, db₃, hlock, job, _, ⟨rfl, hdb₃⟩, _, db₄, hcounts, change, db₅, htouch, -, rfl⟩ :=
        hlast
      obtain rfl := hdb₃.symm
      have h₃ := Tidy.quiet _ rfl db₂ h₂ _ _ hlock
      have h₄ := Tidy.of_reads (built_storeCounts row.deliveryId) db₃ h₃ _ _ hcounts
      refine (h₄.touch (.inl ?_) htouch).shown.shows
      obtain ⟨d, hd, rfl⟩ := Sql.lockDeliveryJob_ok hlock
      have hd' : db.deliveries.lookup s.deliveryId = some d := by
        rw [← hdeliveries, ← hsame, ← hrow]
        exact hd
      have hfailed : s.state = .failed := by simpa [hreplaced] using hcancel
      simp only [Op.target, hs, hfailed, if_true, hd', Option.map_some]
    · obtain ⟨-, rfl⟩ := Tx.run_done_ok.mp hlast
      exact h₂.shown.shows

lemma Tidy.resolve {db db' : Db} {scope : OwnerScope} {id : DeliveryId} {outcome : ResolvedOutcome}
    {now : Time} {r : DeliveryState × JobStatusChange}
    (h : Tidy (Op.target db (.resolve scope id outcome now)) db)
    (hrun : Tx.run (DeliveryRepo.resolveWithStatus scope id outcome now) db = .ok (r, db')) :
    Shows db' := by
  simp only [DeliveryRepo.resolveWithStatus, Tx.run_bind_ok] at hrun
  obtain ⟨_, db₁, hrequire, l, db₂, hlock, applied, db₃, happly, hrun⟩ := hrun
  obtain rfl := (OwnerScope.require_ok hrequire).symm
  obtain ⟨hdb₂, hreads, hid, -⟩ := lockOne_ok hlock
  obtain rfl := hdb₂.symm
  have h₃ := h.apply (fun d hd _ _ _ => .inl (by
    simp only [Op.target, show db.deliveries.lookup id = some d from hd, Option.map_some])) happly
  cases applied with
  | done state redispatch job =>
    obtain ⟨-, rfl⟩ := Tx.run_done_ok.mp hrun
    exact h₃.shown.shows
  | stale => exact absurd hrun (by simp)

lemma Tidy.retry {db db' : Db} {scope : OwnerScope} {id : DeliveryId} {acknowledged : Bool}
    {now : Time} {dispatch : Dispatch} {T : Option PublishJobId} (h : Tidy T db)
    (hposts : PostsMatch db)
    (hrun : Tx.run (DeliveryRepo.retry scope id acknowledged now) db = .ok (dispatch, db')) :
    Shows db' := by
  obtain ⟨l, j, state, job, db₁, hreads, rfl, hj, -, hslot, -, happly, hlast⟩ :=
    DeliveryRepo.retry_ok hrun
  -- A live job does not intrude, and for an ended one the retry found no other live job.
  have hno : ¬ Intrudes db l.row.jobId := by
    rcases hslot with hlive | hdry | hother
    · exact h.sound.not_intrudes hj hlive
    · rintro ⟨j', p, hj', hdry', -⟩
      obtain rfl := Option.some.inj (hj.symm.trans hj')
      rw [hdry] at hdry'
      cases hdry'
    · rintro ⟨j', p, hj', -, -, -, hother'⟩
      obtain rfl := Option.some.inj (hj.symm.trans hj')
      rw [← hposts l.id l.row j hreads.found hj, hother] at hother'
      cases hother'
  have hT : Tidy (some l.row.jobId) db :=
    ⟨h.sound, h.agrees, h.shown.shows, fun job hjob => Option.some.inj hjob ▸ hno⟩
  have h₁ := hT.apply (fun d hd _ _ _ => .inl (by
    rw [Option.some.inj (hd.symm.trans hreads.found)])) happly
  rcases hlast with ⟨-, rfl⟩ | ⟨-, hforget⟩
  · exact h₁.shown.shows
  · exact (Tidy.quiet _ rfl db₁ h₁ _ _ hforget).shown.shows

lemma Tidy.cancelJob (scope : OwnerScope) (id : PublishJobId) (now : Time) :
    Tx.Keeps (Tidy (some id)) (JobRepo.cancelWithStatus scope id now) := by
  intro db h r db' hrun
  simp only [JobRepo.cancelWithStatus, Tx.run_bind_ok] at hrun
  obtain ⟨_, db₁, hrequire, ls, db₂, hlock, _, db₃, hset, results, db₄, heach, last, db₅, htouch,
    hdone⟩ := hrun
  obtain rfl := (OwnerScope.require_ok hrequire).symm
  obtain ⟨hdb₂, hloads, -⟩ := JobRepo.lockVisibleJob_ok hlock
  obtain rfl := hdb₂.symm
  have h₃ := Tidy.quiet _ rfl db h _ _ hset
  have h₄ : Tidy (some id) db₄ := by
    refine Tx.Keeps.each _ (fun d hd => ?_) db₃ h₃ _ _ heach
    have hjob : d.row.jobId = id := (hloads.reads d (List.mem_of_mem_filter hd)).2
    refine .bind (fun db h _ _ hcancel => ?_) fun _ => .done _
    exact h.cancelLoaded (.inr (congrArg some hjob.symm)) hcancel
  obtain ⟨-, rfl⟩ := Tx.run_done_ok.mp hdone
  exact Tidy.touch_target id now db₄ h₄ _ _ htouch

lemma Tidy.reschedule (scope : OwnerScope) (id : PublishJobId) (at_ now : Time)
    (uploadNow : List AccountId) :
    Tx.Keeps (Tidy (some id)) (JobRepo.reschedulePendingWith scope id at_ now uploadNow) := by
  refine .bind (.of_reads (built_require _ _)) fun _ =>
    .bind (.of_reads (built_lockVisibleJob _ _)) fun _ =>
    .bind (.quiet _ rfl) fun _ => .bind (.of_reads (.orFail _ _)) fun job => ?_
  split
  · exact .bind (.fail _) fun _ => .bind (.of_reads (.guard _ _)) fun _ =>
      .bind (.quiet _ rfl) fun _ => .bind (.quiet _ rfl) fun _ =>
      .bind (.touch_target id now) fun _ => .done _
  · exact .bind (.of_reads (.guard _ _)) fun _ => .bind (.quiet _ rfl) fun _ =>
      .bind (.quiet _ rfl) fun _ => .bind (.touch_target id now) fun _ => .done _

lemma Tidy.materialize (delivery : ClaimedDelivery) (audience : Audience) (now : Time) :
    Tx.Keeps (Tidy (some delivery.jobId)) (DirectRepo.materialize delivery audience now) := by
  refine .bind (.quiet _ rfl) fun _ => .bind (.of_reads (.orFail _ _)) fun counts => ?_
  cases counts with
  | some existing => exact .done _
  | none =>
    exact .bind (.quiet _ rfl) fun _ => .bind (.quiet _ rfl) fun _ =>
      .bind (.touch_target _ now) fun _ => .done _

lemma Tidy.cancelDelivery {T : Option PublishJobId} (scope : OwnerScope) (id : DeliveryId)
    (now : Time) : Tx.Keeps (Tidy T) (DeliveryRepo.cancelWithStatus scope id now) := by
  intro db h r db' hrun
  simp only [DeliveryRepo.cancelWithStatus, Tx.run_bind_ok] at hrun
  obtain ⟨_, db₁, hrequire, l, db₂, hlock, hcancel⟩ := hrun
  obtain rfl := (OwnerScope.require_ok hrequire).symm
  obtain ⟨hdb₂, hreads, -⟩ := lockOne_ok hlock
  obtain rfl := hdb₂.symm
  exact h.cancelLoaded (.inl hreads) hcancel

/-- A system cancel of the rows a locking read finds. -/
lemma Tidy.cancelWhere {T : Option PublishJobId} {s : Sql (List (DeliveryId × Delivery))}
    (where_ : DeliveryId → Delivery → Bool)
    (hexec : ∀ db, ∃ locks, s.exec (fun _ => true) db =
      .ok { result := Sql.deliveriesWhere db where_, locks }) (now : Time) :
    Tx.Keeps (Tidy T) (sql s >>= fun rows => Data.cancelRows rows now) := by
  intro db h r db' hrun
  obtain ⟨locks, hexec⟩ := hexec db
  simp only [Tx.run_bind_ok, Tx.run_sql_ok, hexec, Except.ok.injEq, exists_eq_left',
    Db.storeAll_nil] at hrun
  obtain ⟨_, _, ⟨rfl, rfl⟩, hrun⟩ := hrun
  exact h.cancelRows (fun r hr => (Sql.mem_deliveriesWhere hr).1) (Sql.nodup_deliveriesWhere _ _) hrun

/-- An edit finds no live job of the post. -/
lemma Shows.edit {db db' : Db} {scope : OwnerScope} {post : PostId} {expectedVersion : Option ℕ}
    {u : Unit} (h : Shows db)
    (hrun : Tx.run (PostRepo.edit scope post expectedVersion) db = .ok (u, db')) : Shows db' := by
  obtain ⟨p, hp, hidle, rfl⟩ := PostRepo.edit_ok hrun
  intro job j q hj hlive hq
  have hne : j.postId ≠ post := by
    intro hpost
    rw [PublishJob.isLive, hidle job j hj hpost, Bool.and_false] at hlive
    cases hlive
  exact h job j q hj hlive ((AList.lookup_insert_ne hne).symm.trans hq)

lemma Tidy.overduePending {T : Option PublishJobId} (now grace : Time) (limit : ℕ) :
    Tx.Keeps (Tidy T) (Sweep.overduePending now grace limit) := by
  intro db h ds db' hrun
  refine Tidy.sweep rfl rfl (fun r hr => ?_) h hrun
  obtain ⟨hfound, hcond⟩ := Table.mem_of_mem_selectFirst hr
  simp only [Bool.and_eq_true, decide_eq_true_eq] at hcond
  have hpending : r.2.state = .pending := hcond.1.1.1.1
  refine ⟨hfound, ?_⟩
  change r.2.state.isTerminal = false
  rw [hpending]
  rfl

lemma Tidy.startCampaign (delivery : ClaimedDelivery) (audience : Audience)
    (attempt : DeliveryAttemptId) (now : Time) :
    Tx.Keeps (Tidy (some delivery.jobId))
      (DirectRepo.startCampaign delivery audience attempt now) := by
  have hfinish : Tx.Keeps (Tidy (some delivery.jobId))
      (AttemptRepo.finish attempt "processing" now) :=
    .of_reads (.bind (.quiet _ rfl) fun _ => .guard _ _)
  refine .bind (.materialize delivery audience now) fun _ => .bind hfinish fun _ =>
    .bind (.apply_open _ _ _ _ rfl) fun applied => ?_
  cases applied with
  | done state redispatch job => exact .done _
  | stale => exact .fail _

lemma Tidy.orphanedDirect {T : Option PublishJobId} (now grace : Time) (limit : ℕ) :
    Tx.Keeps (Tidy T) (Sweep.orphanedDirect now grace limit) := by
  intro db h ds db' hrun
  refine Tidy.sweep rfl rfl (fun r hr => ?_) h hrun
  obtain ⟨hfound, hcond⟩ := Table.mem_of_mem_selectFirst hr
  simp only [Bool.and_eq_true, decide_eq_true_eq] at hcond
  have hprocessing : r.2.state = .processing := hcond.1.1.1.1.1.1.2
  refine ⟨hfound, ?_⟩
  change r.2.state.isTerminal = false
  rw [hprocessing]
  rfl

/-- An operation that touches no job by itself and writes for no user. -/
lemma Tidy.of_rows {T : Option PublishJobId} {β : Type} (op : Op β) (hreach : op.reach = .rows)
    (hcalls : ∀ f e t, op.Calls f e t → DeliveryEvent.byUser e = false) :
    Tx.Keeps (Tidy T) op.tx :=
  .of_built (hreach ▸ op.built) hcalls

/-- **What an operation shows.**  An operation whose target does not intrude leaves every post
showing its live job. -/
lemma Op.shows {β : Type} (op : Op β) {db db' : Db} {value : β} (h : Tidy (op.target db) db)
    (hposts : PostsMatch db) (hrun : Tx.run op.tx db = .ok (value, db')) : Shows db' := by
  have keeps (hop : Tx.Keeps (Tidy (op.target db)) op.tx) : Shows db' :=
    (hop db h _ _ hrun).shown.shows
  cases op with
  | createJob scope post expectedVersion new dbNow now =>
    obtain ⟨row, -, hinsert⟩ := JobRepo.create_ok hrun
    exact h.shown.shows.insert hinsert
  | createForOccurrence owner post actor new dbNow now =>
    obtain ⟨row, -, hinsert⟩ := JobRepo.createForOccurrence_ok hrun
    exact h.shown.shows.insert hinsert
  | editPost scope post expectedVersion => exact h.shown.shows.edit hrun
  | apply fence event data now =>
    by_cases hevent : DeliveryEvent.byUser event = true
    · refine (h.apply (fun d hd _ _ _ => .inl ?_) hrun).shown.shows
      simp only [Op.target, hevent, if_true, hd, Option.map_some]
    · exact keeps (.apply_open fence event data now (by simpa using hevent))
  | cancelDelivery scope id now => exact keeps (.cancelDelivery scope id now)
  | cancelForAccount account now => exact keeps (.cancelWhere _ (fun _ => ⟨_, rfl⟩) now)
  | cancelForOwner owner now => exact keeps (.cancelWhere _ (fun _ => ⟨_, rfl⟩) now)
  | retry scope id acknowledged now => exact h.retry hposts hrun
  | resolve scope id outcome now => exact h.resolve hrun
  | setRemotePublishAt fence at_ now => exact h.setRemotePublishAt hrun
  | cancelJob scope id now => exact keeps (.cancelJob scope id now)
  | reschedule scope id at_ now uploadNow => exact keeps (.reschedule scope id at_ now uploadNow)
  | overduePending now grace limit => exact keeps (.overduePending now grace limit)
  | orphanedDirect now grace limit => exact keeps (.orphanedDirect now grace limit)
  | materialize delivery audience now => exact keeps (.materialize delivery audience now)
  | startCampaign delivery audience attempt now =>
    exact keeps (.startCampaign delivery audience attempt now)
  | waitForCap fence resumeAt now => exact h.waitForCap hrun
  | record id batch result now => exact h.record hrun
  | expiredClaims now limit =>
    exact keeps (.of_rows _ rfl fun _ _ _ hcall => hcall.2.1 ▸ rfl)
  | expiredInFlight now limit =>
    exact keeps (.of_rows _ rfl fun _ _ _ hcall => hcall.2.1 ▸ rfl)
  | unpark now parkGrace compiled limit =>
    exact keeps (.of_rows _ rfl fun _ _ _ hcall => hcall.2.1 ▸ rfl)
  | finishIfDone fence now => exact keeps (.of_rows _ rfl fun _ _ _ hcall => hcall.2.1 ▸ rfl)
  | _ => exact keeps (.of_rows _ rfl fun _ _ _ hcall => hcall.elim)

/-! ## Every run -/

/-- The event is no operation on an ended job that would overwrite what a live one shows. -/
def Event.Calm (db : Db) : Event → Prop
  | .did op _ => ∀ job, op.target db = some job → ¬ Intrudes db job
  | _ => True

/-- A step that does not overwrite what a live job shows. -/
structure CalmStep (db : Db) (e : Event) (db' : Db) : Prop where
  step : OpStep db e db'
  calm : e.Calm db

lemma CalmStep.shows {db db' : Db} {e : Event} (h : CalmStep db e db') (hsound : Sound db)
    (hagrees : Agrees db) (hposts : PostsMatch db) (hshows : Shows db) : Shows db' := by
  obtain ⟨hstep, hcalm⟩ := h
  cases hstep with
  | @did β op value _ hrun =>
    exact op.shows ⟨hsound, hagrees, hshows, hcalm⟩ hposts hrun
  | failed => exact hshows
  | @wrotePost id owner habsent =>
    intro job j p hj hlive hp
    have hne : j.postId ≠ id := by
      rintro rfl
      obtain ⟨q, hq, -⟩ := hsound.hasPost job j hj
      rw [habsent] at hq
      cases hq
    exact hshows job j p hj hlive ((AList.lookup_insert_ne hne).symm.trans hp)
  | outside => exact hshows

lemma shows_of_run {db₀ db : Db} {es : List Event} (hfresh : Fresh db₀)
    (hrun : Run CalmStep db₀ es db) : Shows db := by
  refine (hrun.invariant
    (I := fun db => Sound db ∧ Agrees db ∧ PostsMatch db ∧ Shows db) ?_ ?_).2.2.2
  · rintro db e db' hcalm ⟨hsound, hagrees, hposts, hshows⟩
    exact ⟨hcalm.step.sound hsound, hcalm.step.agrees hagrees,
      hcalm.step.postsMatch hsound hposts, hcalm.shows hsound hagrees hposts hshows⟩
  · have hdb : Reachable db₀ := ⟨db₀, [], hfresh, .nil⟩
    refine ⟨hdb.sound, hdb.agrees, hdb.postsMatch, fun job j p hj => ?_⟩
    rw [hfresh.jobs] at hj
    cases hj

/-- **The post's status follows its live job.**  In every run whose steps do not refresh an ended
job of a post's current version over a live one, while a job of the post that is no dry run is
`scheduled` or `publishing`, the post shows that job's status, or `draft` when it was edited since
the job was made. -/
theorem post_status_follows_live_job {db₀ db : Db} {es : List Event} (hfresh : Fresh db₀)
    (hrun : Run CalmStep db₀ es db) {job : PublishJobId} {j : PublishJob} {p : Post}
    (hj : db.jobs.lookup job = some j) (hdry : j.dryRun = false)
    (hlive : j.status = .scheduled ∨ j.status = .publishing)
    (hp : db.posts.lookup j.postId = some p) :
    p.status = if p.version = j.postVersion then .ofJob j.status else .draft := by
  have hisLive : j.isLive = true := by
    rcases hlive with h | h <;> simp [PublishJob.isLive, hdry, h, JobStatus.isLive]
  exact shows_of_run hfresh hrun job j p hj hisLive hp

/-- The rule on a post that was just sent to publish. -/
theorem post_status_follows_live_job_created : ∃ es db j p, Run CalmStep Db.sample es db ∧
    db.jobs.lookup 1 = some j ∧ j.status = .publishing ∧ db.posts.lookup 1 = some p ∧
    p.status = .ofJob .publishing := by
  let db := Db.sample.perform (.publishSample 1)
  have hstep : OpStep Db.sample (.did (.publishSample 1) [⟨1, 0, 0⟩]) db :=
    .perform (by decide)
  have hrun : Run CalmStep Db.sample [.did (.publishSample 1) [⟨1, 0, 0⟩]] db :=
    .single ⟨hstep, fun _ htarget => by cases htarget⟩
  have hj : (db.jobs.lookup 1).map (fun j => (j.postId, j.postVersion, j.dryRun, j.status)) =
      some (1, 1, false, .publishing) := by
    decide +kernel
  have hp : (db.posts.lookup 1).map (·.version) = some 1 := by decide +kernel
  obtain ⟨j, hj, hrow⟩ := Option.map_eq_some_iff.mp hj
  obtain ⟨p, hp, hversion⟩ := Option.map_eq_some_iff.mp hp
  simp only [Prod.mk.injEq] at hrow
  obtain ⟨hpost, hpostVersion, hdry, hstatus⟩ := hrow
  refine ⟨_, db, j, p, hrun, hj, hstatus, hp, ?_⟩
  have hshown := post_status_follows_live_job Db.fresh_sample hrun hj hdry (.inr hstatus)
    (hpost ▸ hp)
  rw [hshown, hversion, hpostVersion, hstatus, if_pos rfl]

/-- A failed delivery is retried after its post was edited: its job is live, and the post shows
`draft`. -/
theorem post_status_draft_after_edit : ∃ db job j p, Reachable db ∧
    db.jobs.lookup job = some j ∧ j.dryRun = false ∧
    (j.status = .scheduled ∨ j.status = .publishing) ∧ db.posts.lookup j.postId = some p ∧
    p.status ≠ .ofJob j.status := by
  let db := (((((Db.sample.perform (.publishSample 1)).perform (.claim 1 0 0 60)).perform
    (.apply ⟨1, 0, .claimed⟩ .startRemote {} 0)).perform
    (.apply ⟨1, 0, .inFlight⟩ .permanentFailure {} 1)).perform
    (.editPost (.own 1) 1 none)).perform (.retry (.own 1) 1 false 2)
  have hdb : Reachable db :=
    (((((Db.reachable_sample.perform _).perform _).perform _).perform _).perform _).perform _
  have hj : (db.jobs.lookup 1).map (fun j => (j.postId, j.dryRun, j.status)) =
      some (1, false, .publishing) := by
    decide +kernel
  have hp : (db.posts.lookup 1).map (·.status) = some .draft := by decide +kernel
  obtain ⟨j, hj, hrow⟩ := Option.map_eq_some_iff.mp hj
  obtain ⟨p, hp, hdraft⟩ := Option.map_eq_some_iff.mp hp
  simp only [Prod.mk.injEq] at hrow
  obtain ⟨hpost, hdry, hstatus⟩ := hrow
  refine ⟨db, 1, j, p, hdb, hj, hdry, .inr hstatus, hpost ▸ hp, ?_⟩
  rw [hdraft, hstatus]
  decide

end Postit.Data
