import Postit.Data.Alone
import Postit.Data.Effects

/-!
# Refreshing a job's status

What `refreshJobStatus` and `touchJob` do to the database, exactly: `refreshJobStatus_ok` and
`touchJob_ok` say when they succeed and what they leave.  The job's row gets the status its
deliveries spell, its post may get it too, and nothing else changes.
-/

namespace Postit.Data

open Postit.Framework

/-- The rows of the job's deliveries. -/
def Db.jobDeliveries (db : Db) (job : PublishJobId) : List Delivery :=
  (db.deliveries.select fun _ d => d.jobId = job).map (·.2)

lemma Db.mem_jobDeliveries {db : Db} {job : PublishJobId} {d : Delivery} :
    d ∈ db.jobDeliveries job ↔ ∃ id, db.deliveries.lookup id = some d ∧ d.jobId = job := by
  simp only [jobDeliveries, List.mem_map, Prod.exists, exists_eq_right, Table.mem_select,
    decide_eq_true_eq]

/-- The status the job's deliveries spell at the time `now`. -/
def Db.derivedStatus (db : Db) (job : PublishJobId) (now : Time) :
    Except ParseEnumError JobStatus := do
  let views ← (db.jobDeliveries job).mapM (viewOf now)
  pure (deriveJobStatus views now)

/-- The database after the post was told the job's status: at the job's version it shows it; at
another it shows `draft`, unless another job of the post is live. -/
def Db.showStatus (db : Db) (job : PublishJobId) (j : PublishJob) (status : JobStatus) : Db :=
  match db.posts.lookup j.postId with
  | some p =>
      if p.ownerId = j.ownerId ∧
          (p.version = j.postVersion ∨ !Sql.otherLiveJob db j.postId job) then
        let shown : PostStatus := if p.version = j.postVersion then .ofJob status else .draft
        { db with posts := db.posts.insert j.postId { p with status := shown } }
      else db
  | none => db

/-- The database after the job's row `j` got the status. -/
def Db.refreshed (db : Db) (job : PublishJobId) (j : PublishJob) (status : JobStatus) : Db :=
  let db' := db.setJob job (j.withStatus status)
  if j.dryRun then db' else db'.showStatus job (j.withStatus status) status

section Frame

variable (db : Db) (job : PublishJobId) (j : PublishJob) (status : JobStatus)

/-- Telling the post changes nothing but posts. -/
lemma Db.showStatus_frame : ∃ posts, db.showStatus job j status = { db with posts } := by
  unfold showStatus
  cases db.posts.lookup j.postId with
  | none => exact ⟨db.posts, rfl⟩
  | some p =>
    dsimp only
    split_ifs
    · exact ⟨_, rfl⟩
    · exact ⟨_, rfl⟩
    · exact ⟨db.posts, rfl⟩

/-- Another post is not told. -/
lemma Db.showStatus_lookup_of_ne {post : PostId} (h : post ≠ j.postId) :
    (db.showStatus job j status).posts.lookup post = db.posts.lookup post := by
  unfold showStatus
  cases db.posts.lookup j.postId with
  | none => rfl
  | some p =>
    dsimp only
    split_ifs
    · exact AList.lookup_insert_ne h
    · exact AList.lookup_insert_ne h
    · rfl

/-- A post of the same owner shows the job's status, or `draft` at another version, while no other
job of it is live. -/
lemma Db.showStatus_lookup_of_free {p : Post} (hp : db.posts.lookup j.postId = some p)
    (howner : p.ownerId = j.ownerId) (hfree : Sql.otherLiveJob db j.postId job = false) :
    (db.showStatus job j status).posts.lookup j.postId =
      some { p with status := if p.version = j.postVersion then .ofJob status else .draft } := by
  simp only [showStatus, hp, howner, hfree, Bool.not_false, or_true, and_self, if_true]
  exact AList.lookup_insert _

/-- A post at another version is left alone while another job of it is live. -/
lemma Db.showStatus_of_otherLiveJob {p : Post} (hp : db.posts.lookup j.postId = some p)
    (hversion : p.version ≠ j.postVersion)
    (hlive : Sql.otherLiveJob db j.postId job = true) : db.showStatus job j status = db := by
  simp [showStatus, hp, hversion, hlive]

/-- Whatever is shown, the post keeps its version and owner. -/
lemma Db.showStatus_lookup {post : PostId} {p' : Post}
    (h : (db.showStatus job j status).posts.lookup post = some p') :
    ∃ p, db.posts.lookup post = some p ∧ p'.version = p.version ∧ p'.ownerId = p.ownerId := by
  by_cases hpost : post = j.postId
  · subst hpost
    unfold showStatus at h
    cases hp : db.posts.lookup j.postId with
    | none =>
      simp only [hp] at h
      cases h
    | some p =>
      refine ⟨p, rfl, ?_⟩
      simp only [hp] at h
      split_ifs at h
      · obtain rfl := Option.some.inj ((AList.lookup_insert _).symm.trans h)
        exact ⟨rfl, rfl⟩
      · obtain rfl := Option.some.inj ((AList.lookup_insert _).symm.trans h)
        exact ⟨rfl, rfl⟩
      · obtain rfl := Option.some.inj (hp.symm.trans h)
        exact ⟨rfl, rfl⟩
  · rw [db.showStatus_lookup_of_ne job j status hpost] at h
    exact ⟨p', h, rfl, rfl⟩

@[simp] lemma Db.refreshed_jobs :
    (db.refreshed job j status).jobs = db.jobs.insert job (j.withStatus status) := by
  unfold refreshed
  dsimp only
  split
  · rfl
  · obtain ⟨posts, h⟩ :=
      (db.setJob job (j.withStatus status)).showStatus_frame job (j.withStatus status) status
    rw [h]
    rfl

/-- A refresh changes nothing but jobs and posts. -/
lemma Db.refreshed_frame :
    ∃ jobs posts, db.refreshed job j status = { db with jobs, posts } := by
  unfold refreshed
  dsimp only
  split
  · exact ⟨_, db.posts, rfl⟩
  · obtain ⟨posts, h⟩ :=
      (db.setJob job (j.withStatus status)).showStatus_frame job (j.withStatus status) status
    exact ⟨_, posts, h⟩

@[simp] lemma Db.refreshed_deliveries :
    (db.refreshed job j status).deliveries = db.deliveries := by
  obtain ⟨jobs, posts, h⟩ := db.refreshed_frame job j status
  rw [h]

@[simp] lemma Db.refreshed_sends : (db.refreshed job j status).sends = db.sends := by
  obtain ⟨jobs, posts, h⟩ := db.refreshed_frame job j status
  rw [h]

end Frame

/-- Whether another job is live does not depend on the job's own row. -/
@[simp] lemma Sql.otherLiveJob_setJob (db : Db) (post : PostId) (job : PublishJobId)
    (j : PublishJob) :
    Sql.otherLiveJob (db.setJob job j) post job = Sql.otherLiveJob db post job := by
  have hiff : Sql.otherLiveJob (db.setJob job j) post job = true ↔
      Sql.otherLiveJob db post job = true := by
    simp only [Sql.otherLiveJob, Db.setJob, Table.exists?_eq_true, Bool.and_eq_true,
      decide_eq_true_eq, bne_iff_ne]
    constructor <;> rintro ⟨k, r, hk, hr, hne⟩
    · exact ⟨k, r, by rwa [AList.lookup_insert_ne hne] at hk, hr, hne⟩
    · exact ⟨k, r, by rwa [AList.lookup_insert_ne hne], hr, hne⟩
  exact Bool.eq_iff_iff.mpr hiff

/-- Storing the job's new status succeeds when the job is there and the slot is free for it. -/
lemma Sql.updateJobStatus_ok {db db' : Db} {job : PublishJobId} {status : JobStatus}
    {info : Option PublishJob} :
    Tx.run (sql (.updateJobStatus job status)) db = .ok (info, db') ↔
      (db.jobs.lookup job = none ∧ info = none ∧ db' = db) ∨
        ∃ j, db.jobs.lookup job = some j ∧ SlotFree db job (j.withStatus status) ∧
          info = some (j.withStatus status) ∧ db' = db.setJob job (j.withStatus status) := by
  simp only [Tx.run_sql_ok, Sql.exec]
  cases hj : db.jobs.lookup job with
  | none => simp [Sql.read, Db.storeAll]
  | some j =>
    simp only [Sql.storeJob, Option.some.injEq, exists_eq_left', reduceCtorEq, false_and,
      false_or]
    by_cases hslot : SlotFree db job (j.withStatus status)
    · have hcond : ((j.withStatus status).isLive &&
          Sql.otherLiveJob db (j.withStatus status).postId job) = false := by
        cases hlive : (j.withStatus status).isLive with
        | false => rfl
        | true => simpa using hslot hlive
      simp [hcond, hslot, Db.storeAll, Db.store]
    · have hcond : ((j.withStatus status).isLive &&
          Sql.otherLiveJob db (j.withStatus status).postId job) = true := by
        simpa [SlotFree] using hslot
      simp [hcond, hslot]

/-- Telling the post always succeeds. -/
lemma Sql.updatePostStatus_ok {db db' : Db} {job : PublishJobId} {j : PublishJob}
    {status : JobStatus} {u : Unit} :
    Tx.run (sql (.updatePostStatus j.ownerId j.postId j.postVersion status job)) db =
      .ok (u, db') ↔ db' = db.showStatus job j status := by
  simp only [Tx.run_sql_ok, Sql.exec, Except.ok.injEq, exists_eq_left', true_and]
  refine Iff.of_eq (congrArg (db' = ·) ?_)
  unfold Db.showStatus
  cases db.posts.lookup j.postId with
  | none => rfl
  | some p => dsimp only; split_ifs <;> rfl

lemma Db.derivedStatus_eq_ok {db : Db} {job : PublishJobId} {now : Time} {status : JobStatus} :
    db.derivedStatus job now = .ok status ↔
      ∃ views, (db.jobDeliveries job).mapM (viewOf now) = .ok views ∧
        deriveJobStatus views now = status := by
  unfold derivedStatus
  cases (db.jobDeliveries job).mapM (viewOf now) <;> simp [bind, Except.bind, pure, Except.pure]

/-- **What a refresh does.**  It succeeds when the job is there, its deliveries spell a status,
and the post's live slot is free for it. -/
lemma DeliveryRepo.refreshJobStatus_ok {db db' : Db} {job : PublishJobId} {now : Time}
    {status : JobStatus} :
    Tx.run (refreshJobStatus job now) db = .ok (status, db') ↔
      db.derivedStatus job now = .ok status ∧
        ∃ j, db.jobs.lookup job = some j ∧ SlotFree db job (j.withStatus status) ∧
          db' = db.refreshed job j status := by
  have hrows {rows : List Delivery} {db₁ : Db} :
      Tx.run (sql (.selectJobDeliveries job)) db = .ok (rows, db₁) ↔
        rows = db.jobDeliveries job ∧ db₁ = db := by
    simp [Tx.run_sql_ok, Sql.exec, Sql.read, Db.storeAll, Db.jobDeliveries]
  -- the last two statements: the post is told only by a live job
  have hpost {db₁ : Db} {j : PublishJob} {st : JobStatus} :
      Tx.run (if !j.dryRun then do
          sql (.updatePostStatus j.ownerId j.postId j.postVersion st job)
          Prog.done st
        else Prog.done st) db₁ = .ok (status, db') ↔
      st = status ∧ db' = if j.dryRun then db₁ else db₁.showStatus job j st := by
    cases j.dryRun <;>
      simp [Tx.run_bind_ok, Sql.updatePostStatus_ok, and_comm]
  rw [Db.derivedStatus_eq_ok]
  simp only [refreshJobStatus, Tx.run_bind_ok, hrows, Tx.run_ofExcept_ok,
    Sql.updateJobStatus_ok, Tx.run_orFail_ok, Prog.pure_eq, hpost]
  constructor
  · rintro ⟨_, _, ⟨rfl, rfl⟩, views, _, ⟨hviews, rfl⟩, info, db₁, hinfo, j', _, ⟨rfl, rfl⟩,
      rfl, rfl⟩
    rcases hinfo with ⟨-, h, -⟩ | ⟨j, hj, hslot, hinfo, rfl⟩
    · cases h
    · cases hinfo
      exact ⟨⟨views, hviews, rfl⟩, j, hj, hslot, rfl⟩
  · rintro ⟨⟨views, hviews, rfl⟩, j, hj, hslot, rfl⟩
    exact ⟨_, _, ⟨rfl, rfl⟩, views, _, ⟨hviews, rfl⟩, _, _, .inr ⟨j, hj, hslot, rfl, rfl⟩, _, _,
      ⟨rfl, rfl⟩, rfl, rfl⟩

/-- **What a touch does.**  Beyond the refresh it bumps the job's version. -/
lemma touchJob_ok {db db' : Db} {job : PublishJobId} {now : Time} {change : JobStatusChange} :
    Tx.run (touchJob job now) db = .ok (change, db') ↔
      db.derivedStatus job now = .ok change.after ∧
        ∃ j, db.jobs.lookup job = some j ∧ change.before = j.status ∧
          SlotFree db job (j.bumped.withStatus change.after) ∧
          db' = (db.setJob job j.bumped).refreshed job j.bumped change.after := by
  have hbump {o : Option JobStatus} {db₁ : Db} :
      Tx.run (sql (.bumpJobVersion job)) db = .ok (o, db₁) ↔
        (db.jobs.lookup job = none ∧ o = none ∧ db₁ = db) ∨
          ∃ j, db.jobs.lookup job = some j ∧ o = some j.status ∧
            db₁ = db.setJob job j.bumped := by
    simp only [Tx.run_sql_ok, Sql.exec, Except.ok.injEq, exists_eq_left', Sql.updateJob]
    cases db.jobs.lookup job with
    | none => simp [Sql.read, Db.storeAll]
    | some j => simp [JobUpdate.set, Db.storeAll, Db.store, PublishJob.bumped]
  simp only [touchJob, Tx.run_bind_ok, hbump, Tx.run_orFail_ok, Prog.pure_eq, Tx.run_done_ok,
    DeliveryRepo.refreshJobStatus_ok]
  constructor
  · rintro ⟨_, _, ho, before, _, ⟨rfl, rfl⟩, after, _, ⟨hst, j', hj', hslot, rfl⟩, rfl, rfl⟩
    rcases ho with ⟨-, h, -⟩ | ⟨j, hj, h, rfl⟩
    · cases h
    · cases h
      obtain rfl : j.bumped = j' := by simpa [Db.setJob] using hj'
      exact ⟨hst, j, hj, rfl, by simpa [SlotFree] using hslot, rfl⟩
  · rintro ⟨hst, j, hj, hbefore, hslot, rfl⟩
    refine ⟨_, _, .inr ⟨j, hj, rfl, rfl⟩, j.status, _, ⟨rfl, rfl⟩, change.after, _,
      ⟨hst, j.bumped, by simp [Db.setJob], by simpa [SlotFree] using hslot, rfl⟩, ?_, rfl⟩
    rw [← hbefore]

/-- A touch changes nothing but jobs and posts. -/
lemma touchJob_frame {db db' : Db} {job : PublishJobId} {now : Time} {change : JobStatusChange}
    (h : Tx.run (touchJob job now) db = .ok (change, db')) :
    ∃ jobs posts, db' = { db with jobs, posts } := by
  obtain ⟨-, j, -, -, -, rfl⟩ := touchJob_ok.1 h
  obtain ⟨jobs, posts, h⟩ := (db.setJob job j.bumped).refreshed_frame job j.bumped change.after
  exact ⟨jobs, posts, h⟩

lemma touchJob_deliveries {db db' : Db} {job : PublishJobId} {now : Time}
    {change : JobStatusChange} (h : Tx.run (touchJob job now) db = .ok (change, db')) :
    db'.deliveries = db.deliveries := by
  obtain ⟨jobs, posts, rfl⟩ := touchJob_frame h
  rfl

end Postit.Data
