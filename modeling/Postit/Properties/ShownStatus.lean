import Mathlib.Data.List.Dedup
import Postit.Data.Locking
import Postit.Properties.JobStatus

/-!
# What a post shows

A refresh writes the job's status to the post when the post is still at the job's version, whether
or not another job of the post is live meanwhile; at another version it writes `draft`, unless
another job is live.  A refresh of a live job is harmless, since a post has one live job at most,
and so is any refresh while no other job is live; `Intrudes` is what is left.

`Shows` is the invariant, and `Tidy T` what holds between the blocks of a transaction on the job
`T`: a transaction touches `T`, or jobs of deliveries that have not ended, and those are live.
-/

namespace Postit.Data

open Postit.Framework

/-- What a post shows of a live job: its status, or `draft` once the post was edited. -/
def PublishJob.shownOn (j : PublishJob) (p : Post) : PostStatus :=
  if p.version = j.postVersion then .ofJob j.status else .draft

/-- Every post shows its live job. -/
def Shows (db : Db) : Prop :=
  ∀ job j p, db.jobs.lookup job = some j → j.isLive = true → db.posts.lookup j.postId = some p →
    p.status = j.shownOn p

/-- A refresh of the job would overwrite the status another, live job of the post shows. -/
def Intrudes (db : Db) (job : PublishJobId) : Prop :=
  ∃ j p, db.jobs.lookup job = some j ∧ j.dryRun = false ∧ db.posts.lookup j.postId = some p ∧
    p.version = j.postVersion ∧ Sql.otherLiveJob db j.postId job = true

/-- A live job does not intrude. -/
lemma Sound.not_intrudes {db : Db} (h : Sound db) {job : PublishJobId} {j : PublishJob}
    (hj : db.jobs.lookup job = some j) (hlive : j.status.isLive = true) : ¬ Intrudes db job := by
  rintro ⟨j₀, p, hj₀, hdry, -, -, hother⟩
  obtain rfl := Option.some.inj (hj.symm.trans hj₀)
  rw [h.otherLiveJob_eq_false hj (by simp [PublishJob.isLive, hdry, hlive])] at hother
  cases hother

lemma otherLiveJob_of_lookup {db : Db} {job job' : PublishJobId} {j' : PublishJob} {post : PostId}
    (hj' : db.jobs.lookup job' = some j') (hlive : j'.isLive = true) (hpost : j'.postId = post)
    (hne : job' ≠ job) : Sql.otherLiveJob db post job = true := by
  rw [Sql.otherLiveJob, Table.exists?_eq_true]
  exact ⟨job', j', hj', by simp [hpost, hlive, hne]⟩

/-! ## A refresh -/

/-- A refresh that does not intrude keeps what live jobs show. -/
lemma Shows.refreshed {db : Db} {job : PublishJobId} {j : PublishJob} {status : JobStatus}
    (hshows : ∀ job' j' p, job' ≠ job → db.jobs.lookup job' = some j' → j'.isLive = true →
      db.posts.lookup j'.postId = some p → p.status = j'.shownOn p)
    (hj : db.jobs.lookup job = some j) (hslot : SlotFree db job (j.withStatus status))
    (howner : ∃ p, db.posts.lookup j.postId = some p ∧ p.ownerId = j.ownerId)
    (hno : ¬ Intrudes db job) : Shows (db.refreshed job j status) := by
  obtain ⟨p, hp, hown⟩ := howner
  have hdry : j.dryRun = true →
      (db.refreshed job j status).posts = (db.setJob job (j.withStatus status)).posts := by
    intro h
    simp [Db.refreshed, h]
  have hlive : j.dryRun = false → db.refreshed job j status =
      (db.setJob job (j.withStatus status)).showStatus job (j.withStatus status) status := by
    intro h
    simp [Db.refreshed, h]
  intro job' j' p' hj' hlive' hp'
  rw [Db.refreshed_jobs] at hj'
  by_cases hjob : job' = job
  · subst hjob
    obtain rfl := Option.some.inj ((AList.lookup_insert _).symm.trans hj')
    have hnotdry : j.dryRun = false := by
      simp only [PublishJob.isLive, Bool.and_eq_true, Bool.not_eq_true'] at hlive'
      exact hlive'.1
    rw [hlive hnotdry] at hp'
    -- the slot is free, so the post is told either way
    have hfree := hslot hlive'
    rw [← Sql.otherLiveJob_setJob db _ job' (j.withStatus status)] at hfree
    have hshown := Db.showStatus_lookup_of_free (db.setJob job' (j.withStatus status)) job'
      (j.withStatus status) status hp hown hfree
    obtain rfl := Option.some.inj (hshown.symm.trans hp')
    rfl
  · rw [AList.lookup_insert_ne hjob] at hj'
    refine hshows job' j' p' hjob hj' hlive' ?_
    cases hd : j.dryRun with
    | true =>
      rw [hdry hd] at hp'
      exact hp'
    | false =>
      rw [hlive hd] at hp'
      by_cases hpost : j'.postId = j.postId
      · have hother : Sql.otherLiveJob (db.setJob job (j.withStatus status)) j.postId job = true := by
          rw [Sql.otherLiveJob_setJob]
          exact otherLiveJob_of_lookup hj' hlive' hpost hjob
        have hversion' : p.version ≠ j.postVersion := by
          intro hv
          rw [Sql.otherLiveJob_setJob] at hother
          exact hno ⟨j, p, hj, hd, hp, hv, hother⟩
        have hsame := Db.showStatus_of_otherLiveJob (db.setJob job (j.withStatus status)) job
          (j.withStatus status) status hp hversion' hother
        rw [hsame] at hp'
        exact hp'
      · have hsame := Db.showStatus_lookup_of_ne (db.setJob job (j.withStatus status)) job
          (j.withStatus status) status hpost
        exact hsame.symm.trans hp'

/-- Whether a job intrudes does not depend on its own status or version counter. -/
lemma intrudes_setJob_bumped {db : Db} {job : PublishJobId} {j : PublishJob}
    (hj : db.jobs.lookup job = some j) (h : Intrudes (db.setJob job j.bumped) job) :
    Intrudes db job := by
  obtain ⟨j', p, hj', hdry, hp, hversion, hother⟩ := h
  obtain rfl := Option.some.inj ((AList.lookup_insert _).symm.trans hj')
  rw [Sql.otherLiveJob_setJob] at hother
  exact ⟨j, p, hj, hdry, hp, hversion, hother⟩

lemma Shows.setJob_bumped {db : Db} {job : PublishJobId} {j : PublishJob} (h : Shows db)
    (hj : db.jobs.lookup job = some j) : Shows (db.setJob job j.bumped) := by
  intro job' j' p hj' hlive hp
  by_cases hjob : job' = job
  · subst hjob
    obtain rfl := Option.some.inj ((AList.lookup_insert _).symm.trans hj')
    exact h job' j p hj hlive hp
  · exact h job' j' p ((AList.lookup_insert_ne hjob).symm.trans hj') hlive hp

section Touch

variable {db db' : Db} {job : PublishJobId} {now : Time} {change : JobStatusChange}
  (hrun : Tx.run (touchJob job now) db = .ok (change, db'))
include hrun

/-- A touch that does not intrude keeps what live jobs show. -/
lemma Shows.touch (hshows : Shows db)
    (howner : ∀ j, db.jobs.lookup job = some j →
      ∃ p, db.posts.lookup j.postId = some p ∧ p.ownerId = j.ownerId)
    (hno : ¬ Intrudes db job) : Shows db' := by
  obtain ⟨-, j, hj, -, hslot, rfl⟩ := touchJob_ok.1 hrun
  refine Shows.refreshed (fun job' j' p _ => hshows.setJob_bumped hj job' j' p)
    (AList.lookup_insert _) ?_ (howner j hj) ?_
  · simpa [SlotFree] using hslot
  exact fun h => hno (intrudes_setJob_bumped hj h)

/-- What does not intrude does not after a touch of itself, or of a live job. -/
lemma not_intrudes_touch {job' : PublishJobId} (hno : ¬ Intrudes db job')
    (hjob : job = job' ∨ ∃ j, db.jobs.lookup job = some j ∧ j.status.isLive = true) :
    ¬ Intrudes db' job' := by
  obtain ⟨-, j, hj, -, -, rfl⟩ := touchJob_ok.1 hrun
  rintro ⟨j', p', hj', hdry, hp', hversion, hother⟩
  have hposts : ∃ p, db.posts.lookup j'.postId = some p ∧ p.version = p'.version := by
    unfold Db.refreshed at hp'
    dsimp only at hp'
    split at hp'
    · exact ⟨p', hp', rfl⟩
    · obtain ⟨p, hp, hv, -⟩ := Db.showStatus_lookup _ _ _ _ hp'
      exact ⟨p, hp, hv.symm⟩
  obtain ⟨p, hp, hv⟩ := hposts
  rw [Db.refreshed_jobs] at hj'
  rw [Sql.otherLiveJob, Table.exists?_eq_true] at hother
  obtain ⟨k, jk, hk, hkprop⟩ := hother
  simp only [Bool.and_eq_true, decide_eq_true_eq, bne_iff_ne] at hkprop
  obtain ⟨⟨hkpost, hklive⟩, hkne⟩ := hkprop
  rw [Db.refreshed_jobs] at hk
  have hlook {k : PublishJobId} (hne : k ≠ job) : ((db.setJob job j.bumped).jobs.insert job
      (j.bumped.withStatus change.after)).lookup k = db.jobs.lookup k :=
    (AList.lookup_insert_ne hne).trans (AList.lookup_insert_ne hne)
  by_cases hself : job' = job
  · subst hself
    obtain rfl := Option.some.inj ((AList.lookup_insert _).symm.trans hj')
    rw [hlook hkne] at hk
    exact hno ⟨j, p, hj, hdry, hp, hv.trans hversion, otherLiveJob_of_lookup hk hklive hkpost hkne⟩
  · rw [hlook hself] at hj'
    by_cases hkjob : k = job
    · subst hkjob
      obtain rfl := Option.some.inj ((AList.lookup_insert _).symm.trans hk)
      rcases hjob with rfl | ⟨j₀, hj₀, hlive₀⟩
      · exact absurd rfl hself
      · obtain rfl := Option.some.inj (hj.symm.trans hj₀)
        have hlive : j.isLive = true := by
          simp only [PublishJob.isLive, PublishJob.withStatus, PublishJob.bumped, Bool.and_eq_true,
            Bool.not_eq_true'] at hklive ⊢
          exact ⟨hklive.1, hlive₀⟩
        exact hno ⟨j', p, hj', hdry, hp, hv.trans hversion,
          otherLiveJob_of_lookup hj hlive hkpost hkne⟩
    · rw [hlook hkjob] at hk
      exact hno ⟨j', p, hj', hdry, hp, hv.trans hversion,
        otherLiveJob_of_lookup hk hklive hkpost hkne⟩

end Touch

/-! ## Blocks -/

/-- A job that may be touched: the one an operation is on, or a live one. -/
def MayTouch (T : Option PublishJobId) (db : Db) (job : PublishJobId) : Prop :=
  T = some job ∨ ∃ j, db.jobs.lookup job = some j ∧ j.status.isLive = true

/-- Live jobs show, and the job an operation is on does not intrude. -/
structure Shown (T : Option PublishJobId) (db : Db) : Prop where
  shows : Shows db
  aside : ∀ job, T = some job → ¬ Intrudes db job

/-- The jobs and posts of the databases agree in all that `Shown` looks at. -/
structure SameShown (db db' : Db) : Prop where
  posts : ∀ id, db'.posts.lookup id = db.posts.lookup id
  jobs : ∀ id, (db'.jobs.lookup id).map (fun j => (j.postId, j.postVersion, j.dryRun, j.status)) =
    (db.jobs.lookup id).map (fun j => (j.postId, j.postVersion, j.dryRun, j.status))

lemma SameShown.lookup {db db' : Db} (h : SameShown db db') {id : PublishJobId} {j' : PublishJob}
    (hj' : db'.jobs.lookup id = some j') : ∃ j, db.jobs.lookup id = some j ∧
      j.postId = j'.postId ∧ j.postVersion = j'.postVersion ∧ j.dryRun = j'.dryRun ∧
      j.status = j'.status := by
  have hmap := h.jobs id
  rw [hj', Option.map_some, eq_comm, Option.map_eq_some_iff] at hmap
  obtain ⟨j, hj, heq⟩ := hmap
  simp only [Prod.mk.injEq] at heq
  exact ⟨j, hj, heq⟩

lemma SameShown.symm {db db' : Db} (h : SameShown db db') : SameShown db' db :=
  ⟨fun id => (h.posts id).symm, fun id => (h.jobs id).symm⟩

lemma Shown.of_same {T : Option PublishJobId} {db db' : Db} (h : Shown T db)
    (hsame : SameShown db db') : Shown T db' where
  shows := by
    intro job j' p hj' hlive hp
    obtain ⟨j, hj, hpost, hver, hdry, hstatus⟩ := hsame.lookup hj'
    have hshown : j'.shownOn p = j.shownOn p := by
      rw [PublishJob.shownOn, PublishJob.shownOn, hver, hstatus]
    rw [hshown]
    refine h.shows job j p hj ?_ ?_
    · rw [PublishJob.isLive, hdry, hstatus]
      exact hlive
    · rw [hpost, ← hsame.posts]
      exact hp
  aside := by
    rintro job hT ⟨j', p, hj', hdry', hp, hversion, hother⟩
    obtain ⟨j, hj, hpost, hver, hdry, -⟩ := hsame.lookup hj'
    refine h.aside job hT ⟨j, p, hj, hdry.trans hdry', ?_, hversion.trans hver.symm, ?_⟩
    · rw [hpost, ← hsame.posts]
      exact hp
    · rw [Sql.otherLiveJob, Table.exists?_eq_true] at hother
      obtain ⟨k, jk', hk', hprop⟩ := hother
      simp only [Bool.and_eq_true, decide_eq_true_eq, bne_iff_ne] at hprop
      obtain ⟨⟨hkpost, hklive⟩, hkne⟩ := hprop
      obtain ⟨jk, hk, hpostk, -, hdryk, hstatusk⟩ := hsame.lookup hk'
      refine otherLiveJob_of_lookup hk ?_ ((hpostk.trans hkpost).trans hpost.symm) hkne
      rw [PublishJob.isLive, hdryk, hstatusk]
      exact hklive

lemma SameShown.of_eq {db db' : Db} (hjobs : db'.jobs = db.jobs) (hposts : db'.posts = db.posts) :
    SameShown db db' :=
  ⟨fun id => by rw [hposts], fun id => by rw [hjobs]⟩

/-- A quiet statement changes nothing that shows. -/
lemma SameShown.quiet {β : Type} {s : Sql β} (hs : s.isQuiet = true) {db db' : Db} {b : β}
    (h : Tx.run (sql s) db = .ok (b, db')) : SameShown db db' := by
  obtain ⟨e, he, -, rfl⟩ := Tx.run_sql_ok.mp h
  have hsound := Sql.exec_sound s he
  constructor
  · intro id
    rcases db.storeAll_post e.writes id with ⟨row, hmem, -⟩ | ⟨-, hlook⟩
    · rcases hsound.posts id row hmem with ⟨_, _, _, hmade⟩ | ⟨_, _, _, _, hmade⟩ <;>
        · rw [Sql.writesPosts_of_isQuiet hs] at hmade
          cases hmade
    · exact hlook
  · intro id
    rcases db.storeAll_job e.writes id with ⟨row, hmem, hlook⟩ | ⟨-, hlook⟩
    · rcases hsound.jobs id row hmem with ⟨j, u, hfound, rfl, -, hu⟩ | ⟨-, -, -, hins⟩
      · have hstatus := Sql.status_set_of_isQuiet hs hu j
        have hrest : (u.set j).postId = j.postId ∧ (u.set j).postVersion = j.postVersion ∧
            (u.set j).dryRun = j.dryRun := by
          cases u <;> exact ⟨rfl, rfl, rfl⟩
        rw [hlook, hfound, Option.map_some, Option.map_some, hstatus, hrest.1, hrest.2.1,
          hrest.2.2]
      · rw [Sql.insertsJob_of_isQuiet hs] at hins
        cases hins
    · rw [hlook]

/-- Touching a job that may be touched. -/
lemma Shown.touch {T : Option PublishJobId} {db mid db' : Db} {job : PublishJobId} {now : Time}
    {change : JobStatusChange} (h : Shown T db) (hsound : Sound db) (hmay : MayTouch T db job)
    (hrun : Tx.run (touchJob job now) mid = .ok (change, db')) (hjobs : mid.jobs = db.jobs)
    (hposts : mid.posts = db.posts) : Shown T db' := by
  have hmid := h.of_same (.of_eq hjobs hposts)
  have hno : ¬ Intrudes mid job := by
    rcases hmay with hT | ⟨j, hj, hlive⟩
    · exact hmid.aside job hT
    · have hdb := hsound.not_intrudes hj hlive
      have hone : Shown (some job) db := ⟨h.shows, fun _ heq => by cases heq; exact hdb⟩
      exact (hone.of_same (.of_eq hjobs hposts)).aside job rfl
  refine ⟨hmid.shows.touch hrun (fun j hj => ?_) hno, fun job' hT => ?_⟩
  · rw [hposts]
    exact hsound.hasPost job j (hjobs ▸ hj)
  · refine not_intrudes_touch hrun (hmid.aside job' hT) ?_
    rcases hmay with hT' | ⟨j, hj, hlive⟩
    · exact .inl (Option.some.inj (hT'.symm.trans hT))
    · exact .inr ⟨j, hjobs ▸ hj, hlive⟩

/-- What holds between the blocks of a transaction on the job `T`. -/
structure Tidy (T : Option PublishJobId) (db : Db) : Prop where
  sound : Sound db
  agrees : Agrees db
  shown : Shown T db

/-- The job of a delivery that has not ended may be touched. -/
lemma Tidy.mayTouch {T : Option PublishJobId} {db : Db} (h : Tidy T db) {id : DeliveryId}
    {d : Delivery} (hd : db.deliveries.lookup id = some d) (hopen : d.state.isTerminal = false) :
    MayTouch T db d.jobId := by
  obtain ⟨j, hj⟩ := Option.isSome_iff_exists.mp (h.sound.hasJob id d hd)
  exact .inr ⟨j, hj,
    (h.agrees d.jobId j (by simp) hj).live ⟨d.state, ⟨id, d, hd, rfl, rfl⟩, hopen⟩⟩

lemma Tidy.quiet {T : Option PublishJobId} {β : Type} (s : Sql β) (hs : s.isQuiet = true) :
    Tx.Keeps (Tidy T) (sql s) := fun db h _ _ hrun =>
  ⟨Sound.keeps _ db h.sound _ _ hrun, AgreesExcept.quiet s hs db h.agrees _ _ hrun,
    h.shown.of_same (.quiet hs hrun)⟩

lemma Tidy.touch {T : Option PublishJobId} {db db' : Db} {job : PublishJobId} {now : Time}
    {change : JobStatusChange} (h : Tidy T db) (hmay : MayTouch T db job)
    (hrun : Tx.run (touchJob job now) db = .ok (change, db')) : Tidy T db' :=
  ⟨Sound.keeps _ db h.sound _ _ hrun, Agrees.touch job now db h.agrees _ _ hrun,
    h.shown.touch h.sound hmay hrun rfl rfl⟩

/-- A fenced write, when the job of the row it finds may be touched. -/
lemma Tidy.apply {T : Option PublishJobId} {db db' : Db} {fence : Fence} {event : DeliveryEvent}
    {data : TransitionData} {now : Time} {applied : Applied} (h : Tidy T db)
    (hmay : ∀ d, db.deliveries.lookup fence.id = some d → fence.Matches d →
      ∀ t, transition fence.expected event = .ok t → MayTouch T db d.jobId)
    (hrun : Tx.run (DeliveryRepo.apply fence event data now) db = .ok (applied, db')) :
    Tidy T db' := by
  refine ⟨Sound.keeps _ db h.sound _ _ hrun, Agrees.apply _ _ _ _ db h.agrees _ _ hrun, ?_⟩
  rcases DeliveryRepo.apply_ok hrun with ⟨-, rfl, -⟩ | ⟨state, job, d, hl, -⟩
  · exact h.shown
  · obtain ⟨db₁, htouch, hstop⟩ := hl.stored
    have hallowed : MayTouch T db d.jobId := by
      rcases hl.edge with ⟨hedge, -⟩ | ⟨hedge, -⟩ <;> exact hmay d hl.found hl.fenced _ hedge
    have htouched := h.shown.touch h.sound hallowed htouch rfl rfl
    rcases DeliveryRepo.stopCampaign_ok hstop with rfl | ⟨sends, counts, d', -, rfl⟩
    · exact htouched
    · exact htouched.of_same (.of_eq rfl rfl)

/-- Only the user's retry and resolve leave a terminal state. -/
def DeliveryEvent.byUser : DeliveryEvent → Bool
  | .userRetry _ | .userResolve _ => true
  | _ => false

lemma transition_open {s t : DeliveryState} {e : DeliveryEvent} (h : transition s e = .ok t)
    (he : DeliveryEvent.byUser e = false) : s.isTerminal = false :=
  of_transition (P := fun s e _ => DeliveryEvent.byUser e = false → s.isTerminal = false)
    (by decide) h he

/-- A fenced write by anything but a user's retry or resolve. -/
lemma Tidy.apply_open {T : Option PublishJobId} (fence : Fence) (event : DeliveryEvent)
    (data : TransitionData) (now : Time) (hevent : DeliveryEvent.byUser event = false) :
    Tx.Keeps (Tidy T) (DeliveryRepo.apply fence event data now) := by
  intro db h applied db' hrun
  refine h.apply (fun d hd hmatch t ht => h.mayTouch hd ?_) hrun
  rw [hmatch.1.1, DeliveryState.isTerminal_asStr]
  exact transition_open ht hevent

lemma Tidy.claim {T : Option PublishJobId} (id : DeliveryId) (gen : ℕ) (now lease : Time) :
    Tx.Keeps (Tidy T) (DeliveryRepo.claim id gen now lease) := by
  intro db h o db' hrun
  refine ⟨Sound.keeps _ db h.sound _ _ hrun, Agrees.claim _ _ _ _ db h.agrees _ _ hrun, ?_⟩
  rcases DeliveryRepo.claim_ok hrun with ⟨-, rfl⟩ | ⟨d, j, change, hd, -, happ, -, -, -, htouch⟩
  · exact h.shown
  · have hopen : d.state.isTerminal = false := by
      rw [happ.1]
      rfl
    exact h.shown.touch h.sound (h.mayTouch hd hopen) htouch rfl rfl

lemma Tidy.lateReceipt {T : Option PublishJobId} (id : DeliveryId) (receipt : Receipt)
    (now : Time) : Tx.Keeps (Tidy T) (DeliveryRepo.recordLateReceipt id receipt now) := by
  intro db h o db' hrun
  refine ⟨Sound.keeps _ db h.sound _ _ hrun, Agrees.lateReceipt _ _ _ db h.agrees _ _ hrun, ?_⟩
  rcases DeliveryRepo.recordLateReceipt_ok.1 hrun with
    ⟨d, change, hd, hs, -, -, htouch⟩ | ⟨-, -, rfl⟩
  · have hopen : d.state.isTerminal = false := by
      rw [hs]
      rfl
    exact h.shown.touch h.sound (h.mayTouch hd hopen) htouch rfl rfl
  · exact h.shown

/-- A program that touches no job by itself, and makes no fenced write for a user. -/
lemma Tidy.of_built {T : Option PublishJobId} {A : Calls} {α : Type} {p : Tx α}
    (hp : Built A .rows p) (hA : ∀ f e t, A f e t → DeliveryEvent.byUser e = false) :
    Tx.Keeps (Tidy T) p := by
  refine Built.keeps Tidy.quiet ?_ Tidy.claim ?_ Tidy.lateReceipt ?_ ?_ hp
  · exact fun h => absurd h (by decide)
  · exact fun fence event data now call =>
      Tidy.apply_open fence event data now (hA fence event data call)
  · exact fun h => absurd h (by simp)
  · exact fun h => absurd h (by simp)

/-- A program that only reads. -/
lemma Tidy.of_reads {T : Option PublishJobId} {α : Type} {p : Tx α}
    (hp : Built { writes := fun _ _ _ => False } .rows p) : Tx.Keeps (Tidy T) p :=
  .of_built hp fun _ _ _ h => h.elim

lemma Tidy.touch_target (job : PublishJobId) (now : Time) :
    Tx.Keeps (Tidy (some job)) (touchJob job now) :=
  fun _ h _ _ hrun => h.touch (.inl rfl) hrun

/-- The new job is live, or a dry run, so it does not intrude. -/
lemma Shows.insert {db db' : Db} {owner : UserId} {actor : Option UserId} {post : PostId}
    {row : Post} {new : NewJob} {dbNow now : Time} {dispatches : List Dispatch} (h : Shows db)
    (hrun : Tx.run (JobRepo.insert owner actor post row new dbNow now) db = .ok (dispatches, db')) :
    Shows db' := by
  obtain ⟨deliveries, status, habsent, hpost, hslot, -, hrefresh⟩ := JobRepo.insert_ok hrun
  obtain ⟨-, j, hj, hslot', rfl⟩ := DeliveryRepo.refreshJobStatus_ok.1 hrefresh
  obtain rfl := Option.some.inj ((AList.lookup_insert _).symm.trans hj)
  refine Shows.refreshed (fun job' j' p hne hj' => ?_) hj hslot' hpost ?_
  · exact h job' j' p ((AList.lookup_insert_ne hne).symm.trans hj')
  · rintro ⟨j', p, hj', hdry, -, -, hother⟩
    obtain rfl := Option.some.inj ((AList.lookup_insert _).symm.trans hj')
    have hlive : (new.row owner post row.version actor dbNow).isLive = true := by
      have hstatus : (new.row owner post row.version actor dbNow).status.isLive = true := by
        simp only [NewJob.row]
        split <;> rfl
      rw [PublishJob.isLive, hdry, hstatus]
      rfl
    have hfree := hslot hlive
    have hsame := Sql.otherLiveJob_setJob db (new.row owner post row.version actor dbNow).postId
      new.id (new.row owner post row.version actor dbNow)
    rw [hfree] at hsame
    exact absurd (hother.symm.trans hsame) (by simp)

/-! ## Cancelling -/

/-- A cancel keeps everything in order, when the delivery it loaded is the database's row, or its
job is the one the operation is on. -/
lemma Tidy.cancelLoaded {T : Option PublishJobId} {db db' : Db} {d : Loaded}
    {actor : Option UserId} {now : Time} {r : CancelOutcome × Option JobStatusChange}
    (h : Tidy T db) (hd : d.Reads db ∨ T = some d.row.jobId)
    (hrun : Tx.run (Data.cancelLoaded d actor now) db = .ok (r, db')) : Tidy T db' := by
  have hcancel : Tx.Keeps (Tidy T) (cancelNow d actor now) :=
    .of_built (built_cancelNow (A := { writes := fun _ e _ => e = .cancel }) (fun _ _ => rfl) d actor now)
      fun _ _ _ he => he ▸ rfl
  unfold Data.cancelLoaded at hrun
  split at hrun
  · exact hcancel db h _ _ hrun
  · exact hcancel db h _ _ hrun
  · exact hcancel db h _ _ hrun
  · rename_i hstate
    simp only [Tx.run_bind_ok, Prog.pure_eq, Tx.run_done_ok] at hrun
    obtain ⟨_, db₁, hrequest, change, _, htouch, -, rfl⟩ := hrun
    have h₁ : Tidy T db₁ := Tidy.quiet _ rfl db h _ _ hrequest
    refine h₁.touch ?_ htouch
    rcases hd with hreads | hT
    · obtain ⟨d', hd', hsame⟩ : ∃ d', db₁.deliveries.lookup d.id = some d' ∧
          d'.state = d.row.state ∧ d'.jobId = d.row.jobId := by
        simp only [Tx.run_sql_ok, Sql.exec, Sql.updateDelivery, hreads.found, Except.ok.injEq,
          exists_eq_left'] at hrequest
        obtain ⟨-, rfl⟩ := hrequest
        exact ⟨_, AList.lookup_insert _, rfl, rfl⟩
      rw [← hsame.2]
      refine h₁.mayTouch hd' ?_
      rw [hsame.1, hreads.inState.1, hstate]
      rfl
    · exact .inl hT
  · split at hrun
    · exact hcancel db h _ _ hrun
    · obtain ⟨-, rfl⟩ := Tx.run_done_ok.mp hrun
      exact h
  · obtain ⟨-, rfl⟩ := Tx.run_done_ok.mp hrun
    exact h

/-- A cancel leaves every other delivery as it was. -/
lemma cancelLoaded_others {db db' : Db} {d : Loaded} {actor : Option UserId} {now : Time}
    {r : CancelOutcome × Option JobStatusChange}
    (hrun : Tx.run (Data.cancelLoaded d actor now) db = .ok (r, db')) {id : DeliveryId}
    (hid : id ≠ d.id) : db'.deliveries.lookup id = db.deliveries.lookup id := by
  have hcancel {r : CancelOutcome × Option JobStatusChange}
      (h : Tx.run (cancelNow d actor now) db = .ok (r, db')) :
      db'.deliveries.lookup id = db.deliveries.lookup id := by
    simp only [cancelNow, Tx.run_bind_ok] at h
    obtain ⟨applied, db₁, happly, h⟩ := h
    have hdb' : db' = db₁ := by
      cases applied <;> exact (Tx.run_done_ok.mp h).2
    rcases DeliveryRepo.apply_ok happly with ⟨-, rfl, -⟩ | ⟨state, job, row, hl, -⟩
    · rw [hdb']
    · rw [hdb']
      exact hl.others hid
  unfold Data.cancelLoaded at hrun
  split at hrun
  · exact hcancel hrun
  · exact hcancel hrun
  · exact hcancel hrun
  · simp only [Tx.run_bind_ok, Prog.pure_eq, Tx.run_done_ok, Tx.run_sql_ok, Sql.exec,
      Except.ok.injEq, exists_eq_left', Sql.mapResult, Sql.updateDelivery] at hrun
    obtain ⟨_, db₁, ⟨-, rfl⟩, change, _, htouch, -, rfl⟩ := hrun
    rw [touchJob_deliveries htouch]
    cases db.deliveries.lookup d.id with
    | none => rfl
    | some row => exact AList.lookup_insert_ne hid
  · split at hrun
    · exact hcancel hrun
    · rw [(Tx.run_done_ok.mp hrun).2]
  · rw [(Tx.run_done_ok.mp hrun).2]

/-- Cancelling distinct rows of the database, one after another. -/
lemma Tidy.cancelRows {T : Option PublishJobId} {db db' : Db} {rows : List (DeliveryId × Delivery)}
    {now : Time} {rs : List CancelResult} (h : Tidy T db)
    (hrows : ∀ r ∈ rows, db.deliveries.lookup r.1 = some r.2)
    (hnodup : (rows.map Prod.fst).Nodup)
    (hrun : Tx.run (Data.cancelRows rows now) db = .ok (rs, db')) : Tidy T db' := by
  refine (Tx.run_each_invariant
    (I := fun rows db => Tidy T db ∧ (∀ r ∈ rows, db.deliveries.lookup r.1 = some r.2) ∧
      (rows.map Prod.fst).Nodup) ?_ rows hrun ⟨h, hrows, hnodup⟩).1
  rintro r rows db db' result ⟨h, hrows, hnodup⟩ hbody
  simp only [Tx.run_bind_ok, Prog.pure_eq, Tx.run_done_ok] at hbody
  obtain ⟨l, db₁, hload, res, db₂, hcancel, -, rfl⟩ := hbody
  obtain ⟨hdb₁, hid, hrow, hstate⟩ := load_ok hload
  obtain rfl := hdb₁.symm
  rw [List.map_cons, List.nodup_cons] at hnodup
  have hreads : l.Reads db := ⟨by rw [hid, hrow]; exact hrows r List.mem_cons_self, hrow ▸ hstate⟩
  refine ⟨h.cancelLoaded (.inl hreads) hcancel, fun r' hr' => ?_, hnodup.2⟩
  have hne : r'.1 ≠ l.id := by
    rw [hid]
    rintro heq
    exact hnodup.1 (heq ▸ List.mem_map_of_mem hr')
  rw [cancelLoaded_others hcancel hne]
  exact hrows r' (List.mem_cons_of_mem r hr')

/-! ## Touching the jobs of swept rows -/

/-- Touching the jobs of deliveries that have not ended. -/
lemma Tidy.touchJobs {T : Option PublishJobId} {db db' : Db} {rows : List (DeliveryId × Delivery)}
    {now : Time} {u : Unit} (h : Tidy T db)
    (hrows : ∀ r ∈ rows, db.deliveries.lookup r.1 = some r.2 ∧ r.2.state.isTerminal = false)
    (hrun : Tx.run (Sweep.touchJobs rows now) db = .ok (u, db')) : Tidy T db' := by
  simp only [Sweep.touchJobs, Tx.run_bind_ok, Prog.pure_eq, Tx.run_done_ok] at hrun
  obtain ⟨_, _, heach, -, rfl⟩ := hrun
  refine (Tx.run_each_invariant
    (I := fun jobs db => Tidy T db ∧ ∀ job ∈ jobs, ∃ id d, db.deliveries.lookup id = some d ∧
      d.jobId = job ∧ d.state.isTerminal = false) ?_ _ heach ⟨h, fun job hjob => ?_⟩).1
  · rintro job jobs db db' change ⟨h, hjobs⟩ htouch
    obtain ⟨id, d, hd, rfl, hopen⟩ := hjobs job List.mem_cons_self
    refine ⟨h.touch (h.mayTouch hd hopen) htouch, fun job' hjob' => ?_⟩
    rw [touchJob_deliveries htouch]
    exact hjobs job' (List.mem_cons_of_mem _ hjob')
  · obtain ⟨r, hr, rfl⟩ := List.mem_map.mp (List.mem_dedup.mp ((List.mem_insertionSort _).mp hjob))
    exact ⟨r.1, r.2, (hrows r hr).1, rfl, (hrows r hr).2⟩

/-- A sweep that updates rows that have not ended, and touches their jobs. -/
lemma Tidy.sweep {T : Option PublishJobId} {db db' : Db} {s : Sql (List (DeliveryId × Delivery))}
    (hs : s.isQuiet = true) {rows : List (DeliveryId × Delivery)} {u : DeliveryUpdate}
    (hexec : s.exec (fun _ => true) db = .ok (Sql.updateDeliveries rows u))
    (hrows : ∀ r ∈ rows, db.deliveries.lookup r.1 = some r.2 ∧ (u.set r.2).state.isTerminal = false)
    {now : Time} {ds : List Dispatch} {f : DeliveryId × Delivery → Dispatch} (h : Tidy T db)
    (hrun : Tx.run (sql s >>= fun rows => Sweep.touchJobs rows now >>= fun _ =>
      Prog.done (rows.map f)) db = .ok (ds, db')) : Tidy T db' := by
  simp only [Tx.run_bind_ok, Tx.run_done_ok] at hrun
  obtain ⟨rows', db₁, hsql, _, db₂, htouch, -, rfl⟩ := hrun
  have h₁ : Tidy T db₁ := Tidy.quiet s hs db h _ _ hsql
  simp only [Tx.run_sql_ok, hexec, Except.ok.injEq, exists_eq_left'] at hsql
  obtain ⟨rfl, rfl⟩ := hsql
  refine h₁.touchJobs (fun r hr => ?_) htouch
  obtain ⟨r₀, hr₀, rfl⟩ := List.mem_map.mp hr
  exact ⟨lookup_updateDeliveries (fun r hr => (hrows r hr).1) hr₀, (hrows r₀ hr₀).2⟩

end Postit.Data
