import Postit.Data.Creation
import Postit.Data.Editing
import Postit.Data.Locking

/-!
# What a write through a token does

A write is put together from checks, changes of the post's parts and one `bumpVersion`.  The two
halves of the bump are followed apart: a program `Raises` when all it does to the engine's tables is
to raise the version of its post by one, and it `Pauses` when it leaves the post's recurrence as an
edit does.
-/

namespace Postit.Editing

open Postit.Framework Postit.Data

variable {locked : LockedPost} {α β : Type} {w w' w'' : Workspace}

/-! ## Checks and changes -/

lemma onParts_ok {f : Workspace → PostParts → Except DataError PostParts} {u : Unit} :
    onParts locked f w = .ok u w' ↔
      ∃ parts, f w (w.parts locked.id) = .ok parts ∧ w' = w.setParts locked.id parts := by
  unfold onParts
  rw [update_ok]
  cases f w (w.parts locked.id) <;> simp [Except.map, eq_comm]

lemma engine_ok {p : Tx α} {a : α} :
    engine p w = .ok a w' ↔ ∃ db, p.run w.engine = .ok (a, db) ∧ w' = { w with engine := db } := by
  unfold engine
  rcases p.run w.engine with e | ⟨b, db⟩
  · simp
  · simp [eq_comm]

lemma atomic_engine (p : Tx α) : Atomic (engine p) := by
  intro w e w' h
  unfold engine at h
  split at h <;> cases h
  rfl

/-- The engine's tables stay. -/
def SameEngine (w w' : Workspace) : Prop := w'.engine = w.engine

/-- The recurrence of the post stays. -/
def SameRecurrence (id : PostId) (w w' : Workspace) : Prop :=
  (w'.parts id).recurrence = (w.parts id).recurrence

lemma SameEngine.trans (h : SameEngine w w') (h' : SameEngine w' w'') : SameEngine w w'' :=
  Eq.trans h' h

lemma SameRecurrence.trans {id : PostId} (h : SameRecurrence id w w')
    (h' : SameRecurrence id w' w'') : SameRecurrence id w w'' :=
  Eq.trans h' h

/-- A check changes nothing. -/
lemma relates_inspect {R : Workspace → Workspace → Prop} (hrefl : ∀ w, R w w)
    (f : Workspace → Except DataError α) : Relates R (inspect f) := by
  intro w a w' h
  obtain ⟨-, rfl⟩ := inspect_ok.1 h
  exact hrefl _

lemma sameEngine_inspect (f : Workspace → Except DataError α) : Relates SameEngine (inspect f) :=
  relates_inspect (R := SameEngine) (fun _ => rfl) f

lemma sameRecurrence_inspect {id : PostId} (f : Workspace → Except DataError α) :
    Relates (SameRecurrence id) (inspect f) :=
  relates_inspect (R := SameRecurrence id) (fun _ => rfl) f

lemma sameEngine_onParts (f : Workspace → PostParts → Except DataError PostParts) :
    Relates SameEngine (onParts locked f) := by
  intro w u w' h
  obtain ⟨parts, -, rfl⟩ := onParts_ok.1 h
  rfl

lemma sameRecurrence_onParts {f : Workspace → PostParts → Except DataError PostParts}
    (hf : ∀ w p p', f w p = .ok p' → p'.recurrence = p.recurrence) :
    Relates (SameRecurrence locked.id) (onParts locked f) := by
  intro w u w' h
  obtain ⟨parts, hparts, rfl⟩ := onParts_ok.1 h
  rw [SameRecurrence, Workspace.parts_setParts]
  exact hf _ _ _ hparts

lemma sameEngine_forM {f : α → Edit PUnit} (hf : ∀ a, Relates SameEngine (f a)) (l : List α) :
    Relates SameEngine (l.forM f) :=
  Relates.forM (R := SameEngine) (fun _ => rfl) (fun _ _ _ => .trans) hf l

lemma sameRecurrence_forM {id : PostId} {f : α → Edit PUnit}
    (hf : ∀ a, Relates (SameRecurrence id) (f a)) (l : List α) :
    Relates (SameRecurrence id) (l.forM f) :=
  Relates.forM (R := SameRecurrence id) (fun _ => rfl) (fun _ _ _ => .trans) hf l

lemma sameEngine_pure (a : α) : Relates SameEngine (pure a : Edit α) := by
  intro w a' w' h
  cases h
  rfl

lemma reads_hidden {scope : OwnerScope} {hidden : Workspace → Bool} {u : Unit}
    (h : refuseHidden scope hidden w = .ok u w') : w' = w :=
  (inspect_ok.1 h).2

lemma reads_limit {u : Unit} (h : ensureWithinLimit locked w = .ok u w') : w' = w := by
  obtain ⟨_, w₁, hhidden, hwhole⟩ := estate_bind_ok.1 h
  obtain rfl := reads_hidden hhidden
  exact reads_hidden hwhole

lemma sameEngine_limit : Relates SameEngine (ensureWithinLimit locked) :=
  .bind (fun _ _ _ => .trans) (sameEngine_inspect _) fun _ => sameEngine_inspect _

lemma sameRecurrence_limit {id : PostId} :
    Relates (SameRecurrence id) (ensureWithinLimit locked) :=
  .bind (fun _ _ _ => .trans) (sameRecurrence_inspect _) fun _ => sameRecurrence_inspect _

/-! ## Raising the version -/

/-- The owner still has the post. -/
def LockedPost.Holds (locked : LockedPost) (w : Workspace) : Prop :=
  ∃ row, w.engine.posts.lookup locked.id = some row ∧ row.ownerId = locked.scope.owner

/-- The version of the post went up by one, and nothing else of the engine's tables changed. -/
def RaisedOnce (id : PostId) (w w' : Workspace) : Prop :=
  ∃ row, w.engine.posts.lookup id = some row ∧ w'.engine = { w.engine with
    posts := w.engine.posts.insert id { row with version := row.version + 1 } }

/-- A program that raises the version of the post once. -/
def Raises (locked : LockedPost) (p : Edit α) : Prop :=
  ∀ w a w', locked.Holds w → p w = .ok a w' → RaisedOnce locked.id w w'

namespace Raises

variable {p : Edit α} {f : α → Edit β}

lemma bump : Raises locked (bumpVersion locked) := by
  intro w u w' ⟨row, hrow, howner⟩ h
  obtain ⟨u₁, w₁, hraise, hpause⟩ := estate_bind_ok.1 h
  have hsame : w'.engine = w₁.engine := sameEngine_onParts _ w₁ _ w' hpause
  rw [update_ok] at hraise
  simp only [raisePost, hrow] at hraise
  rw [if_neg (not_not_intro howner)] at hraise
  split_ifs at hraise
  obtain rfl := Except.ok.inj hraise
  exact ⟨row, hrow, hsame⟩

/-- What is done before it leaves the engine's tables alone. -/
lemma after (hp : Relates SameEngine p) (hf : ∀ a, Raises locked (f a)) :
    Raises locked (p >>= f) := by
  intro w b w' hholds h
  obtain ⟨a, w₁, h₁, h₂⟩ := estate_bind_ok.1 h
  have hsame : w₁.engine = w.engine := hp w a w₁ h₁
  have hraised := hf a w₁ b w' (by rwa [LockedPost.Holds, hsame]) h₂
  rwa [RaisedOnce, hsame] at hraised

/-- What is done after it leaves the engine's tables alone. -/
lemma before (hp : Raises locked p) (hf : ∀ a, Relates SameEngine (f a)) :
    Raises locked (p >>= f) := by
  intro w b w' hholds h
  obtain ⟨a, w₁, h₁, h₂⟩ := estate_bind_ok.1 h
  obtain ⟨row, hrow, hengine⟩ := hp w a w₁ hholds h₁
  exact ⟨row, hrow, Eq.trans (hf a w₁ b w' h₂) hengine⟩

lemma savepoint (hp : Raises locked p) : Raises locked (savepoint p) :=
  fun w a w' hholds h => hp w a w' hholds (savepoint_ok.1 h)

end Raises

/-! ## Pausing the recurrence -/

/-- The recurrence after an edit of its post: one that runs is paused. -/
def Recurrence.edited (r : Recurrence) (actor : UserId) : Recurrence :=
  if r.paused.isSome then r else r.pausedBy actor .postEdited

/-- A program that pauses the post's recurrence as an edit does. -/
def Pauses (locked : LockedPost) (p : Edit α) : Prop :=
  ∀ w a w', p w = .ok a w' → (w'.parts locked.id).recurrence =
    (w.parts locked.id).recurrence.map (·.edited locked.scope.actor)

namespace Pauses

variable {p : Edit α} {f : α → Edit β}

lemma bump : Pauses locked (bumpVersion locked) := by
  intro w u w' h
  obtain ⟨u₁, w₁, hraise, hpause⟩ := estate_bind_ok.1 h
  have hparts : w₁.parts locked.id = w.parts locked.id := by
    rw [update_ok] at hraise
    unfold raisePost at hraise
    split at hraise
    · split_ifs at hraise <;> (obtain rfl := Except.ok.inj hraise; rfl)
    · obtain rfl := Except.ok.inj hraise
      rfl
  obtain ⟨parts, hf, rfl⟩ := onParts_ok.1 hpause
  rw [hparts] at hf
  rw [Workspace.parts_setParts]
  unfold pauseEdited at hf
  cases hr : (w.parts locked.id).recurrence with
  | none =>
    rw [hr] at hf
    obtain rfl := Except.ok.inj hf
    exact hr
  | some r =>
    simp only [hr] at hf
    split_ifs at hf with hpaused
    · obtain rfl := Except.ok.inj hf
      simp [hr, Recurrence.edited, hpaused]
    · obtain rfl := Except.ok.inj hf
      simp [Recurrence.edited, hpaused]

lemma after (hp : Relates (SameRecurrence locked.id) p) (hf : ∀ a, Pauses locked (f a)) :
    Pauses locked (p >>= f) := by
  intro w b w' h
  obtain ⟨a, w₁, h₁, h₂⟩ := estate_bind_ok.1 h
  rw [hf a w₁ b w' h₂, hp w a w₁ h₁]

lemma savepoint (hp : Pauses locked p) : Pauses locked (savepoint p) :=
  fun w a w' h => hp w a w' (savepoint_ok.1 h)

end Pauses

/-! ## The writes -/

/-- A write that raises the version of its post. -/
def EditOp.raises : EditOp → Bool
  | .pauseRecurrence _ | .createJob .. | .deletePost => false
  | _ => true

/-- A write of the post's content, media, targets or overrides. -/
def EditOp.edits : EditOp → Bool
  | .updateContent _ | .setMedia _ | .setTargets _ | .upsertOverride .. | .deleteOverride _ => true
  | _ => false

lemma raises_set (new : NewRecurrence) (dbNow : Time) :
    Raises locked (RecurrenceRepo.set locked new dbNow) := by
  refine .after (sameEngine_inspect _) fun _ => .after (sameEngine_inspect _) fun targets =>
    .savepoint (.after sameEngine_limit fun _ => .after (sameEngine_onParts _) fun _ =>
      .before .bump fun _ => .bind (fun _ _ _ => .trans) (sameEngine_onParts _) fun _ =>
        .bind (fun _ _ _ => .trans) ?_ fun _ => sameEngine_inspect _)
  exact sameEngine_forM (fun _ => sameEngine_onParts _) _

lemma raises_resume (nextOccurrenceAt : Time) (confirmedVersion : ℤ) (dbNow : Time) :
    Raises locked (RecurrenceRepo.resume locked nextOccurrenceAt confirmedVersion dbNow) :=
  .after (sameEngine_inspect _) fun _ => .savepoint (.after (sameEngine_inspect _) fun _ =>
    .after sameEngine_limit fun _ => .before .bump fun _ =>
      .bind (fun _ _ _ => .trans) (sameEngine_onParts _) fun _ => sameEngine_inspect _)

lemma EditOp.raises_run {op : EditOp} (h : op.raises = true) : Raises locked (op.run locked) := by
  cases op with
  | updateContent content =>
    exact .after (sameEngine_inspect _) fun _ =>
      .savepoint (.after (sameEngine_onParts _) fun _ => .bump)
  | setMedia items =>
    exact .after (sameEngine_inspect _) fun _ =>
      .savepoint (.after (sameEngine_onParts _) fun _ =>
        .after (sameEngine_forM (fun _ => sameEngine_onParts _) _) fun _ => .bump)
  | setTargets accounts =>
    exact .after (sameEngine_inspect _) fun _ =>
      .savepoint (.after (sameEngine_onParts _) fun _ =>
        .after (sameEngine_forM (fun _ => sameEngine_onParts _) _) fun _ => .bump)
  | upsertOverride account patch options =>
    exact .after (sameEngine_inspect _) fun _ =>
      .savepoint (.after (sameEngine_onParts _) fun _ => .bump)
  | deleteOverride account =>
    exact .after (sameEngine_inspect _) fun _ =>
      .savepoint (.after (sameEngine_onParts _) fun _ => .bump)
  | setRecurrence new dbNow => exact .before (raises_set new dbNow) fun _ => sameEngine_pure _
  | resumeRecurrence at_ version dbNow =>
    exact .before (raises_resume at_ version dbNow) fun _ => sameEngine_pure _
  | deleteRecurrence =>
    exact .after (sameEngine_inspect _) fun _ => .savepoint (.after sameEngine_limit fun _ =>
      .after (sameEngine_onParts _) fun _ => .bump)
  | pauseRecurrence | createJob | deletePost => cases h

lemma sameRecurrence_attach (item : PostMediaItem) :
    Relates (SameRecurrence locked.id) (PostRepo.attach locked item) := by
  refine sameRecurrence_onParts fun w p p' h => ?_
  split_ifs at h
  obtain rfl := Except.ok.inj h
  rfl

lemma sameRecurrence_target (account : AccountId) :
    Relates (SameRecurrence locked.id) (PostRepo.target locked account) := by
  refine sameRecurrence_onParts fun w p p' h => ?_
  dsimp only at h
  split_ifs at h <;> (obtain rfl := Except.ok.inj h; rfl)

lemma EditOp.pauses_run {op : EditOp} (h : op.edits = true) : Pauses locked (op.run locked) := by
  cases op with
  | updateContent content =>
    refine .after (sameRecurrence_inspect _) fun _ => .savepoint (.after ?_ fun _ => .bump)
    refine sameRecurrence_onParts fun w p p' hp => ?_
    split_ifs at hp
    obtain rfl := Except.ok.inj hp
    rfl
  | setMedia items =>
    refine .after (sameRecurrence_inspect _) fun _ => .savepoint (.after ?_ fun _ =>
      .after (sameRecurrence_forM sameRecurrence_attach _) fun _ => .bump)
    exact sameRecurrence_onParts fun w p p' hp => by cases hp; rfl
  | setTargets accounts =>
    refine .after (sameRecurrence_inspect _) fun _ => .savepoint (.after ?_ fun _ =>
      .after (sameRecurrence_forM sameRecurrence_target _) fun _ => .bump)
    exact sameRecurrence_onParts fun w p p' hp => by cases hp; rfl
  | upsertOverride account patch options =>
    refine .after (sameRecurrence_inspect _) fun _ => .savepoint (.after ?_ fun _ => .bump)
    refine sameRecurrence_onParts fun w p p' hp => ?_
    split_ifs at hp
    obtain rfl := Except.ok.inj hp
    rfl
  | deleteOverride account =>
    refine .after (sameRecurrence_inspect _) fun _ => .savepoint (.after ?_ fun _ => .bump)
    refine sameRecurrence_onParts fun w p p' hp => ?_
    split_ifs at hp
    obtain rfl := Except.ok.inj hp
    rfl
  | setRecurrence | pauseRecurrence | resumeRecurrence | deleteRecurrence | createJob
  | deletePost => cases h

/-- The post's recurrence runs, and the actor confirmed it. -/
def Running (locked : LockedPost) (w : Workspace) : Prop :=
  ∃ r, (w.parts locked.id).recurrence = some r ∧ r.paused = none ∧
    r.confirmedBy = some locked.scope.actor

lemma leaves_set (new : NewRecurrence) (dbNow : Time) :
    Leaves (Running locked) (RecurrenceRepo.set locked new dbNow) := by
  refine .after fun _ => .after fun targets => .savepoint (.after fun _ => .after fun _ =>
    .after fun _ => .before ?_ fun _ =>
      Relates.bind (R := fun w w' => Running locked w → Running locked w')
        (fun _ _ _ h h' => h' ∘ h) ?_ fun _ => ?_)
  · intro w u w' h
    obtain ⟨parts, hparts, rfl⟩ := onParts_ok.1 h
    split_ifs at hparts
    obtain rfl := Except.ok.inj hparts
    exact ⟨new.row locked.scope.actor dbNow, by rw [Workspace.parts_setParts], rfl, rfl⟩
  · -- each target is added to the row that runs
    refine Relates.forM (R := fun w w' => Running locked w → Running locked w')
      (fun _ h => h) (fun _ _ _ h h' => h' ∘ h) (fun account => ?_) _
    rintro w u w' h ⟨r, hr, hpaused, hconfirmed⟩
    obtain ⟨parts, hparts, rfl⟩ := onParts_ok.1 h
    split_ifs at hparts
    obtain rfl := Except.ok.inj hparts
    exact ⟨{ r with targets := r.targets ++ [account] }, by simp [hr], hpaused, hconfirmed⟩
  · exact relates_inspect (R := fun w w' => Running locked w → Running locked w')
      (fun _ h => h) _

lemma leaves_resume (nextOccurrenceAt : Time) (confirmedVersion : ℤ) (dbNow : Time) :
    Leaves (Running locked)
      (RecurrenceRepo.resume locked nextOccurrenceAt confirmedVersion dbNow) := by
  refine .after fun _ => .savepoint (.after fun _ => .after fun _ => .after fun _ => ?_)
  intro w a w' h
  obtain ⟨u, w₁, hresume, hload⟩ := estate_bind_ok.1 h
  obtain ⟨hfound, rfl⟩ := inspect_ok.1 hload
  obtain ⟨parts, hparts, rfl⟩ := onParts_ok.1 hresume
  cases hr : (w.parts locked.id).recurrence with
  | none =>
    rw [hr] at hparts
    obtain rfl := Except.ok.inj hparts
    simp [hr] at hfound
  | some r =>
    simp only [hr] at hparts
    split_ifs at hparts
    obtain rfl := Except.ok.inj hparts
    exact ⟨_, by rw [Workspace.parts_setParts], rfl, rfl⟩

lemma leaves_deleteRecurrence :
    Leaves (fun w => (w.parts locked.id).recurrence = none) (RecurrenceRepo.delete locked) := by
  refine .after fun _ => .savepoint (.after fun _ => .before ?_ fun _ => ?_)
  · intro w u w' h
    obtain ⟨parts, hparts, rfl⟩ := onParts_ok.1 h
    split_ifs at hparts
    obtain rfl := Except.ok.inj hparts
    rw [Workspace.parts_setParts]
  · intro w u w' h hnone
    rw [Pauses.bump w u w' h, hnone, Option.map_none]

/-- Pausing a recurrence writes the recurrence, and nothing else. -/
lemma RecurrenceRepo.pause_ok {reason : PauseReason} {a : Recurrence}
    (h : RecurrenceRepo.pause locked reason w = .ok a w') :
    ∃ r, (w.parts locked.id).recurrence = some r ∧ w' = w.setParts locked.id
      { w.parts locked.id with recurrence := some (r.pausedBy locked.scope.actor reason) } := by
  obtain ⟨_, w₁, hrequire, h₁⟩ := estate_bind_ok.1 h
  obtain ⟨-, rfl⟩ := inspect_ok.1 hrequire
  obtain ⟨_, w₂, hlimit, h₂⟩ := estate_bind_ok.1 h₁
  obtain rfl := reads_limit hlimit
  obtain ⟨_, w₃, hpause, hload⟩ := estate_bind_ok.1 h₂
  obtain ⟨-, rfl⟩ := inspect_ok.1 hload
  obtain ⟨parts, hparts, rfl⟩ := onParts_ok.1 hpause
  cases hr : (w₂.parts locked.id).recurrence with
  | none => simp [hr] at hparts
  | some r =>
    simp only [hr] at hparts
    split_ifs at hparts
    obtain rfl := Except.ok.inj hparts
    exact ⟨r, rfl, rfl⟩

/-- A recurrence that was paused is there to be read. -/
lemma RecurrenceRepo.atomic_pause (reason : PauseReason) :
    Atomic (RecurrenceRepo.pause locked reason) := by
  refine .inspect_bind fun _ => .bind_of_reads (.inspect_bind fun _ => .inspect _)
    (fun _ _ _ => reads_limit) fun _ => ?_
  intro w e w' h
  rcases estate_bind_error.1 h with hfail | ⟨u, w₁, hpause, hload⟩
  · exact Atomic.update _ w e w' hfail
  · obtain ⟨parts, hparts, rfl⟩ := onParts_ok.1 hpause
    cases hr : (w.parts locked.id).recurrence with
    | none => simp [hr] at hparts
    | some r =>
      simp only [hr] at hparts
      split_ifs at hparts
      obtain rfl := Except.ok.inj hparts
      simp [load, inspect] at hload

/-- A failed write leaves the workspace as it was. -/
lemma EditOp.atomic_run (op : EditOp) : Atomic (op.run locked) := by
  cases op with
  | updateContent content => exact .inspect_bind fun _ => .savepoint _
  | setMedia items => exact .inspect_bind fun _ => .savepoint _
  | setTargets accounts => exact .inspect_bind fun _ => .savepoint _
  | upsertOverride account patch options => exact .inspect_bind fun _ => .savepoint _
  | deleteOverride account => exact .inspect_bind fun _ => .savepoint _
  | setRecurrence new dbNow =>
    exact .bind_pure (.inspect_bind fun _ => .inspect_bind fun _ => .savepoint _) _
  | pauseRecurrence reason => exact .bind_pure (RecurrenceRepo.atomic_pause reason) _
  | resumeRecurrence at_ version dbNow =>
    exact .bind_pure (.inspect_bind fun _ => .savepoint _) _
  | deleteRecurrence => exact .inspect_bind fun _ => .savepoint _
  | createJob scope new dbNow now =>
    exact .bind_pure (.inspect_bind fun _ => .inspect_bind fun _ => atomic_engine _) _
  | deletePost =>
    exact .inspect_bind fun _ => .inspect_bind fun _ => .inspect_bind fun _ => .update _

end Postit.Editing
