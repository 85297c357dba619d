import Postit.Data.EditEffects
import Postit.Data.Versions
import Postit.Framework.Results

/-!
# Edits of a post

A post's version counts the edits made to it: in any run, it is what it was at the start plus the
writes that raise it, and every such write that goes through raises it by one.  A write of the
post's content, media, targets or overrides pauses the recurrence; the writes of the recurrence
itself leave it as they say, and pausing it is no edit of the post.  A write that fails leaves
everything as it was.
-/

namespace Postit.Editing

open Postit.Framework Postit.Data

/-! ## What a write did -/

/-- The version of the post went up by one. -/
def Raised (id : PostId) (w w' : Workspace) : Prop :=
  ∃ v, w.version id = some v ∧ w'.version id = some (v + 1)

/-- What a write that goes through does. -/
def EditOp.Does (locked : LockedPost) (op : EditOp) (w w' : Workspace) : Prop :=
  match op with
  | .updateContent _ | .setMedia _ | .setTargets _ | .upsertOverride .. | .deleteOverride _ =>
      Raised locked.id w w' ∧ (w'.parts locked.id).recurrence =
        (w.parts locked.id).recurrence.map (·.edited locked.scope.actor)
  | .setRecurrence .. | .resumeRecurrence .. => Raised locked.id w w' ∧ Running locked w'
  | .deleteRecurrence => Raised locked.id w w' ∧ (w'.parts locked.id).recurrence = none
  | .pauseRecurrence reason => w'.version locked.id = w.version locked.id ∧
      ∃ r, (w.parts locked.id).recurrence = some r ∧
        (w'.parts locked.id).recurrence = some (r.pausedBy locked.scope.actor reason)
  | .createJob .. => w'.version locked.id = w.version locked.id ∧
      (w'.parts locked.id).recurrence = (w.parts locked.id).recurrence
  | .deletePost => w'.version locked.id = none ∧ (w'.parts locked.id).recurrence = none

/-- The write did what it does, or left the workspace as it was. -/
def Entry.Kept (locked : LockedPost) (e : Entry) : Prop :=
  match e.failure with
  | none => e.op.Does locked e.before e.after
  | some _ => e.after = e.before

/-- No publish job of the post, dry runs included, is scheduled or running. -/
def Idle (id : PostId) (w : Workspace) : Prop :=
  ∀ job j, w.engine.jobs.lookup job = some j → j.postId = id → j.status.isLive = false

/-- The write created a job. -/
def Entry.created (e : Entry) : Bool :=
  match e.op with
  | .createJob .. => e.failure.isNone
  | _ => false

/-- The write raised the version. -/
def Entry.raised (e : Entry) : Bool := e.failure.isNone && e.op.raises

section Writes

variable {locked : LockedPost} {op : EditOp} {w w' : Workspace} {id : PostId}

/-- What a token is when it is handed out. -/
lemma PostRepo.lock_ok {scope : OwnerScope} {expectedVersion : Option ℕ}
    (h : PostRepo.lock scope id expectedVersion w = .ok locked w') :
    w' = w ∧ locked.Holds w ∧ Idle locked.id w := by
  obtain ⟨_, w₁, hrequire, h₁⟩ := estate_bind_ok.1 h
  obtain ⟨-, rfl⟩ := inspect_ok.1 hrequire
  obtain ⟨row, w₂, hlock, hpure⟩ := estate_bind_ok.1 h₁
  obtain ⟨db, hrun, rfl⟩ := engine_ok.1 hlock
  cases hpure
  obtain ⟨rfl, hrow, howner, hidle⟩ := Data.PostRepo.lockRow_ok hrun
  exact ⟨rfl, ⟨row, hrow, howner⟩, hidle⟩

lemma PostRepo.atomic_lock (scope : OwnerScope) (id : PostId) (expectedVersion : Option ℕ) :
    Atomic (PostRepo.lock scope id expectedVersion) :=
  .inspect_bind fun _ => .bind_pure (atomic_engine _) _

/-- A created job leaves the posts at their versions, and their parts alone. -/
lemma JobRepo.create_ok {scope : OwnerScope} {new : NewJob} {dbNow now : Time}
    {dispatches : List Dispatch}
    (h : JobRepo.create locked scope new dbNow now w = .ok dispatches w') :
    SameVersions w.engine w'.engine ∧ w'.posts = w.posts := by
  obtain ⟨_, w₁, hrequire, h₁⟩ := estate_bind_ok.1 h
  obtain ⟨-, rfl⟩ := inspect_ok.1 hrequire
  obtain ⟨_, w₂, hrefuse, h₂⟩ := estate_bind_ok.1 h₁
  obtain ⟨-, rfl⟩ := inspect_ok.1 hrefuse
  obtain ⟨db, hrun, rfl⟩ := engine_ok.1 h₂
  exact ⟨.insert hrun, rfl⟩

/-- A deleted post is gone. -/
lemma PostRepo.delete_ok {u : Unit} (h : PostRepo.delete locked w = .ok u w') :
    w' = PostRepo.remove locked.id w := by
  obtain ⟨hasLive, w₁, hlive, h₁⟩ := estate_bind_ok.1 h
  obtain ⟨-, rfl⟩ := inspect_ok.1 hlive
  obtain ⟨_, w₂, hrequire, h₂⟩ := estate_bind_ok.1 h₁
  obtain ⟨-, rfl⟩ := inspect_ok.1 hrequire
  obtain ⟨_, w₃, hwhole, h₃⟩ := estate_bind_ok.1 h₂
  obtain rfl := reads_hidden hwhole
  exact (Except.ok.inj (update_ok.1 h₃)).symm

lemma RaisedOnce.raised (h : RaisedOnce id w w') : Raised id w w' := by
  obtain ⟨row, hrow, hengine⟩ := h
  refine ⟨row.version, by simp [Workspace.version, hrow], ?_⟩
  simp [Workspace.version, hengine]

lemma version_of_same (h : SameVersions w.engine w'.engine) {v : ℕ}
    (hv : w.version id = some v) : w'.version id = some v := by
  obtain ⟨p, hp, rfl⟩ := Option.map_eq_some_iff.mp hv
  obtain ⟨p', hp', hversion, -⟩ := h id p hp
  simp [Workspace.version, hp', hversion]

/-- What a write does, from the programs it is made of. -/
lemma EditOp.does (hholds : locked.Holds w) {u : Unit} (h : op.run locked w = .ok u w') :
    op.Does locked w w' := by
  have hraised (hraises : op.raises = true) : Raised locked.id w w' :=
    (EditOp.raises_run hraises w u w' hholds h).raised
  have hpaused (hedits : op.edits = true) := EditOp.pauses_run hedits w u w' h
  cases op with
  | updateContent | setMedia | setTargets | upsertOverride | deleteOverride =>
    exact ⟨hraised rfl, hpaused rfl⟩
  | setRecurrence new dbNow =>
    obtain ⟨r, w₁, hset, hpure⟩ := estate_bind_ok.1 h
    cases hpure
    exact ⟨hraised rfl, leaves_set new dbNow w r w' hset⟩
  | resumeRecurrence at_ version dbNow =>
    obtain ⟨r, w₁, hresume, hpure⟩ := estate_bind_ok.1 h
    cases hpure
    exact ⟨hraised rfl, leaves_resume at_ version dbNow w r w' hresume⟩
  | deleteRecurrence => exact ⟨hraised rfl, leaves_deleteRecurrence w u w' h⟩
  | pauseRecurrence reason =>
    obtain ⟨a, w₁, hpause, hpure⟩ := estate_bind_ok.1 h
    cases hpure
    obtain ⟨r, hr, rfl⟩ := RecurrenceRepo.pause_ok hpause
    exact ⟨rfl, r, hr, by rw [Workspace.parts_setParts]⟩
  | createJob scope new dbNow now =>
    obtain ⟨a, w₁, hcreate, hpure⟩ := estate_bind_ok.1 h
    cases hpure
    obtain ⟨hversions, hposts⟩ := JobRepo.create_ok hcreate
    obtain ⟨row, hrow, -⟩ := hholds
    have hversion : w.version locked.id = some row.version := by simp [Workspace.version, hrow]
    exact ⟨(version_of_same hversions hversion).trans hversion.symm, by
      simp [Workspace.parts, hposts]⟩
  | deletePost =>
    obtain rfl := PostRepo.delete_ok h
    simp [EditOp.Does, PostRepo.remove, Workspace.version, Workspace.parts]

lemma EditOp.perform_kept (hholds : locked.Holds w) : (op.perform locked w).Kept locked := by
  unfold EditOp.perform Entry.Kept
  cases hrun : op.run locked w with
  | ok u w' => exact EditOp.does hholds hrun
  | error e w' => exact EditOp.atomic_run op w e w' hrun

/-- What a write leaves of the engine's tables: all of it, with the version of the post raised, or
with a job more. -/
lemma EditOp.engine_cases (htoken : op.takesToken = false) (hholds : locked.Holds w) {u : Unit}
    (h : op.run locked w = .ok u w') :
    w'.engine = w.engine ∧ op.raises = false ∨
      RaisedOnce locked.id w w' ∧ op.raises = true ∨
      SameVersions w.engine w'.engine ∧ op.raises = false ∧
        ∃ scope new dbNow now, op = .createJob scope new dbNow now := by
  cases op with
  | updateContent | setMedia | setTargets | upsertOverride | deleteOverride | setRecurrence
  | resumeRecurrence | deleteRecurrence =>
    exact .inr (.inl ⟨EditOp.raises_run rfl w u w' hholds h, rfl⟩)
  | pauseRecurrence reason =>
    obtain ⟨a, w₁, hpause, hpure⟩ := estate_bind_ok.1 h
    cases hpure
    obtain ⟨r, -, rfl⟩ := RecurrenceRepo.pause_ok hpause
    exact .inl ⟨rfl, rfl⟩
  | createJob scope new dbNow now =>
    obtain ⟨a, w₁, hcreate, hpure⟩ := estate_bind_ok.1 h
    cases hpure
    exact .inr (.inr ⟨(JobRepo.create_ok hcreate).1, rfl, _, _, _, _, rfl⟩)
  | deletePost => cases htoken

/-- The owner has the post until it is deleted. -/
lemma LockedPost.Holds.perform (hholds : locked.Holds w) (htoken : op.takesToken = false) :
    locked.Holds (op.perform locked w).after := by
  unfold EditOp.perform
  cases hrun : op.run locked w with
  | error e w' =>
    obtain rfl := EditOp.atomic_run op w e w' hrun
    exact hholds
  | ok u w' =>
    rcases EditOp.engine_cases htoken hholds hrun with
      ⟨hsame, -⟩ | ⟨⟨row, hrow, hengine⟩, -⟩ | ⟨hsame, -⟩
    · rwa [LockedPost.Holds, hsame]
    · obtain ⟨row', hrow', howner⟩ := hholds
      obtain rfl := Option.some.inj (hrow.symm.trans hrow')
      have hraised : w'.engine.posts.lookup locked.id =
          some { row with version := row.version + 1 } := by
        rw [hengine]
        exact AList.lookup_insert _
      exact ⟨_, hraised, howner⟩
    · obtain ⟨row, hrow, howner⟩ := hholds
      obtain ⟨row', hrow', -, howner'⟩ := hsame _ row hrow
      exact ⟨row', hrow', howner'.trans howner⟩

/-- Only a job that is created may be live. -/
lemma Idle.perform (hidle : Idle locked.id w) (hholds : locked.Holds w)
    (htoken : op.takesToken = false) (hcreated : (op.perform locked w).created = false) :
    Idle locked.id (op.perform locked w).after := by
  unfold EditOp.perform at hcreated ⊢
  cases hrun : op.run locked w with
  | error e w' =>
    obtain rfl := EditOp.atomic_run op w e w' hrun
    exact hidle
  | ok u w' =>
    rw [hrun] at hcreated
    rcases EditOp.engine_cases htoken hholds hrun with
      ⟨hsame, -⟩ | ⟨⟨row, hrow, hengine⟩, -⟩ | ⟨-, -, _, _, _, _, rfl⟩
    · rwa [Idle, hsame]
    · rwa [Idle, hengine]
    · cases hcreated

/-- A version goes up with the writes that raise it, and with no other. -/
lemma EditOp.perform_version (hholds : locked.Holds w) {v : ℕ} (hv : w.version id = some v)
    (hkeep : op.takesToken = true → (op.perform locked w).failure = none → locked.id ≠ id) :
    (op.perform locked w).after.version id =
      some (v + if locked.id = id ∧ (op.perform locked w).raised = true then 1 else 0) := by
  unfold EditOp.perform at hkeep ⊢
  cases hrun : op.run locked w with
  | error e w' =>
    obtain rfl := EditOp.atomic_run op w e w' hrun
    simpa [Entry.raised] using hv
  | ok u w' =>
    rw [hrun] at hkeep
    cases htoken : op.takesToken with
    | true =>
      have hne : locked.id ≠ id := hkeep htoken rfl
      cases op <;> cases htoken
      obtain rfl := PostRepo.delete_ok hrun
      have hlook : (PostRepo.remove locked.id w).version id = w.version id := by
        simp only [Workspace.version, PostRepo.remove]
        rw [AList.lookup_erase_ne hne.symm]
      simpa [hne, hlook] using hv
    | false =>
      rcases EditOp.engine_cases htoken hholds hrun with
        ⟨hsame, hraises⟩ | ⟨⟨row, hrow, hengine⟩, hraises⟩ | ⟨hsame, hraises, -⟩
      · simpa [Entry.raised, hraises, Workspace.version, hsame] using hv
      · by_cases hid : locked.id = id
        · subst hid
          obtain rfl : row.version = v := by simpa [Workspace.version, hrow] using hv
          simp [Entry.raised, hraises, Workspace.version, hengine]
        · have hlook : w'.version id = w.version id := by
            simp only [Workspace.version, hengine]
            rw [AList.lookup_insert_ne (Ne.symm hid)]
          simpa [hid, hlook] using hv
      · simpa [Entry.raised, hraises] using version_of_same hsame hv

end Writes

/-! ## A session -/

section Sessions

variable {locked : LockedPost} {op : EditOp} {w : Workspace} {ops : List EditOp} {id : PostId}

lemma LockedPost.perform_last (htoken : op.takesToken = true) :
    locked.perform (op :: ops) w = ([op.perform locked w], (op.perform locked w).after) := by
  simp [perform, htoken]

lemma LockedPost.perform_cons (htoken : op.takesToken = false) :
    locked.perform (op :: ops) w =
      (op.perform locked w :: (locked.perform ops (op.perform locked w).after).1,
        (locked.perform ops (op.perform locked w).after).2) := by
  simp [perform, htoken]

/-- Every write of a session does what it does. -/
lemma LockedPost.perform_kept (hholds : locked.Holds w) :
    ∀ e ∈ (locked.perform ops w).1, e.Kept locked := by
  induction ops generalizing w with
  | nil => exact fun e he => absurd he List.not_mem_nil
  | cons op ops ih =>
    cases htoken : op.takesToken with
    | true =>
      rw [perform_last htoken]
      simpa using EditOp.perform_kept hholds
    | false =>
      rw [perform_cons htoken]
      simp only [List.mem_cons, forall_eq_or_imp]
      exact ⟨EditOp.perform_kept hholds, ih (hholds.perform htoken)⟩

/-- Until the session creates a job, none of the post's jobs is live. -/
lemma LockedPost.perform_idle (hholds : locked.Holds w) (hidle : Idle locked.id w)
    {before after : List Entry} {e : Entry}
    (h : (locked.perform ops w).1 = before ++ e :: after)
    (hnone : ∀ f ∈ before, f.created = false) : Idle locked.id e.before := by
  induction ops generalizing w before with
  | nil => simp [perform] at h
  | cons op ops ih =>
    have hbefore : (op.perform locked w).before = w := by
      unfold EditOp.perform
      split <;> rfl
    cases htoken : op.takesToken with
    | true =>
      rw [perform_last htoken] at h
      obtain ⟨rfl, rfl, -⟩ : before = [] ∧ op.perform locked w = e ∧ after = [] := by
        cases before <;> simp_all
      rwa [hbefore]
    | false =>
      rw [perform_cons htoken] at h
      cases before with
      | nil =>
        obtain rfl := (List.cons.inj h).1
        rwa [hbefore]
      | cons f before =>
        obtain ⟨rfl, hrest⟩ := List.cons.inj h
        have hcreated := hnone _ List.mem_cons_self
        exact ih (hholds.perform htoken) (hidle.perform hholds htoken hcreated) hrest
          fun f hf => hnone f (List.mem_cons_of_mem _ hf)

/-- The write deleted the post. -/
def Entry.deleted (e : Entry) : Bool := e.failure.isNone && e.op.takesToken

lemma LockedPost.perform_version (hholds : locked.Holds w) {v : ℕ} (hv : w.version id = some v)
    (hkeep : locked.id = id → ∀ e ∈ (locked.perform ops w).1, e.deleted = false) :
    (locked.perform ops w).2.version id =
      some (v + if locked.id = id then (locked.perform ops w).1.countP Entry.raised else 0) := by
  induction ops generalizing w v with
  | nil => simpa [perform] using hv
  | cons op ops ih =>
    have hop : (op.perform locked w).op = op := by
      unfold EditOp.perform
      split <;> rfl
    have hfirst (hall : locked.id = id → (op.perform locked w).deleted = false) :
        (op.perform locked w).after.version id =
          some (v + if locked.id = id ∧ (op.perform locked w).raised = true then 1 else 0) := by
      refine EditOp.perform_version hholds hv fun htoken hok hid => ?_
      simpa [Entry.deleted, hop, htoken, hok] using hall hid
    cases htoken : op.takesToken with
    | true =>
      rw [perform_last htoken] at hkeep ⊢
      rw [hfirst fun hid => hkeep hid _ (by simp)]
      simp only [List.countP_cons, List.countP_nil]
      split_ifs <;> simp_all
    | false =>
      rw [perform_cons htoken] at hkeep ⊢
      have hnow := hfirst fun hid => hkeep hid _ (by simp)
      rw [ih (hholds.perform htoken) hnow fun hid e he =>
        hkeep hid e (List.mem_cons_of_mem _ he)]
      simp only [List.countP_cons]
      split_ifs <;> simp_all
      omega

end Sessions

/-! ## A run -/

/-- How often an event raised the version of the post. -/
def EditEvent.raises (id : PostId) : EditEvent → ℕ
  | .session locked entries => if locked.id = id then entries.countP Entry.raised else 0
  | _ => 0

/-- The event deleted the post. -/
def EditEvent.deletes (id : PostId) : EditEvent → Bool
  | .session locked entries => locked.id = id && entries.any Entry.deleted
  | _ => false

/-- What a transaction that locked a post did: every write did what it does or nothing, and until a
job was created, none of the post's jobs was live. -/
def Orderly (locked : LockedPost) (entries : List Entry) : Prop :=
  (∀ e ∈ entries, e.Kept locked) ∧
    ∀ before e after, entries = before ++ e :: after → (∀ f ∈ before, f.created = false) →
      Idle locked.id e.before

section Runs

variable {w w' : Workspace} {event : EditEvent}

lemma EditStep.orderly {locked : LockedPost} {entries : List Entry}
    (h : EditStep w (.session locked entries) w') : Orderly locked entries := by
  cases h with
  | session held =>
    obtain ⟨rfl, hholds, hidle⟩ := PostRepo.lock_ok held
    exact ⟨LockedPost.perform_kept hholds, fun _ _ _ =>
      LockedPost.perform_idle hholds hidle⟩

/-- Counting an occurrence writes the recurrence. -/
lemma JobRepo.sameEngine_actor (owner : UserId) (recurrence : Option RecurrenceId) :
    Relates SameEngine (JobRepo.actor owner recurrence) := by
  cases recurrence with
  | none => exact sameEngine_pure _
  | some id =>
    refine .bind (fun _ _ _ => .trans) (sameEngine_inspect _) fun found =>
      .bind (fun _ _ _ => .trans) ?_ fun _ => sameEngine_pure _
    intro w u w' h
    rw [update_ok] at h
    split_ifs at h
    obtain rfl := Except.ok.inj h
    rfl

/-- The job of an occurrence leaves the versions alone. -/
lemma JobRepo.createForOccurrence_versions {owner : UserId} {post : PostId}
    {recurrence : Option RecurrenceId} {new : NewJob} {dbNow now : Time}
    {dispatches : List Dispatch}
    (h : JobRepo.createForOccurrence owner post recurrence new dbNow now w = .ok dispatches w') :
    SameVersions w.engine w'.engine := by
  obtain ⟨row, w₁, hlock, h₁⟩ := estate_bind_ok.1 (savepoint_ok.1 h)
  obtain ⟨db, hrun, rfl⟩ := engine_ok.1 hlock
  obtain ⟨rfl, -⟩ := Data.PostRepo.lockRow_ok hrun
  obtain ⟨actor, w₂, hactor, hinsert⟩ := estate_bind_ok.1 h₁
  obtain ⟨db, hcreated, rfl⟩ := engine_ok.1 hinsert
  have hsame : w₂.engine = w.engine := JobRepo.sameEngine_actor owner recurrence _ actor w₂ hactor
  rw [hsame] at hcreated
  exact .insert hcreated

lemma EditStep.version (h : EditStep w event w') {id : PostId} {v : ℕ}
    (hv : w.version id = some v) (hkeep : event.deletes id = false) :
    w'.version id = some (v + event.raises id) := by
  cases h with
  | @session scope post expectedVersion locked w₁ ops held =>
    obtain ⟨rfl, hholds, -⟩ := PostRepo.lock_ok held
    refine LockedPost.perform_version hholds hv fun hid e he => ?_
    simp only [EditEvent.deletes, hid, decide_true, Bool.true_and, List.any_eq_false] at hkeep
    simpa using hkeep e he
  | @refused scope post expectedVersion e _ hrefused =>
    obtain rfl := PostRepo.atomic_lock scope post expectedVersion w e w' hrefused
    exact hv
  | occurrence hcreate =>
    exact version_of_same (JobRepo.createForOccurrence_versions hcreate) hv
  | advanced hadvance =>
    obtain rfl := Except.ok.inj (update_ok.1 hadvance)
    exact hv
  | engine hstep hothers =>
    refine version_of_same (hstep.sameVersions ?_) hv
    rintro scope post expectedVersion u rfl
    cases hothers

/-- A write that raises the version is, for the engine, its edit of the post. -/
lemma EditOp.refines_edit {scope : OwnerScope} {id : PostId} {expectedVersion : Option ℕ}
    {locked : LockedPost} {op : EditOp} {u : Unit}
    (held : PostRepo.lock scope id expectedVersion w = .ok locked w)
    (hraises : op.raises = true) (h : op.run locked w = .ok u w') :
    Tx.run (Data.PostRepo.edit scope id expectedVersion) w.engine = .ok ((), w'.engine) := by
  obtain ⟨-, hholds, -⟩ := PostRepo.lock_ok held
  obtain ⟨row, hrow, hengine⟩ := EditOp.raises_run hraises w u w' hholds h
  obtain ⟨_, w₁, hrequire, h₁⟩ := estate_bind_ok.1 held
  obtain ⟨hpermits, rfl⟩ := inspect_ok.1 hrequire
  obtain ⟨p, w₂, hlock, hpure⟩ := estate_bind_ok.1 h₁
  obtain ⟨db, hrun, hw₂⟩ := engine_ok.1 hlock
  obtain ⟨rfl, -⟩ := Data.PostRepo.lockRow_ok hrun
  have hid : locked.id = id := by
    cases hpure
    rfl
  rw [hid] at hrow hengine
  have hrequired : Tx.run (scope.require .edit) w₁.engine = .ok ((), w₁.engine) := by
    rw [OwnerScope.require_eq, Tx.run_ofExcept_ok]
    exact ⟨mapError_eq_ok hpermits, rfl⟩
  refine Tx.run_bind_ok.mpr ⟨(), _, hrequired, Tx.run_bind_ok.mpr ⟨p, _, hrun, ?_⟩⟩
  rw [Tx.run_sql_ok]
  simp only [Sql.exec, hrow, Except.ok.injEq, exists_eq_left', true_and]
  exact hengine

end Runs

/-! ### One post -/

/-- One user, with one draft. -/
def Workspace.sample : Workspace := { engine := Db.sample }

/-- The draft, held by its owner. -/
def LockedPost.sample : LockedPost := ⟨1, ⟨1, 1, .draft⟩, .own 1⟩

lemma lock_sample :
    PostRepo.lock (.own 1) 1 none Workspace.sample = .ok LockedPost.sample Workspace.sample := rfl

/-- Every day, to the one account. -/
def NewRecurrence.sample : NewRecurrence where
  id := 1
  rule := "FREQ=DAILY"
  timezone := "UTC"
  targets := [1]
  rewrite := false
  nextOccurrenceAt := 10
  confirmedVersion := 2

end Postit.Editing
