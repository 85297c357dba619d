import Postit.Data.Apply
import Postit.Data.Blocks
import Postit.Data.Creation
import Postit.Data.Locking

/-!
# The version of a post

Of what the engine does to posts, only the edit raises a version: a refreshed status leaves the post
with its version and owner, and nothing else is written to posts.
-/

namespace Postit.Data

open Postit.Framework

/-- Every post is still there, with its version and its owner. -/
def SameVersions (db db' : Db) : Prop :=
  ∀ id p, db.posts.lookup id = some p →
    ∃ p', db'.posts.lookup id = some p' ∧ p'.version = p.version ∧ p'.ownerId = p.ownerId

namespace SameVersions

variable {db db' db'' : Db}

lemma of_posts (h : db'.posts = db.posts) : SameVersions db db' :=
  fun _ p hp => ⟨p, h ▸ hp, rfl, rfl⟩

lemma refl (db : Db) : SameVersions db db := of_posts rfl

lemma trans (h : SameVersions db db') (h' : SameVersions db' db'') : SameVersions db db'' := by
  intro id p hp
  obtain ⟨p', hp', hversion, howner⟩ := h id p hp
  obtain ⟨p'', hp'', hversion', howner'⟩ := h' id p' hp'
  exact ⟨p'', hp'', hversion'.trans hversion, howner'.trans howner⟩

/-- Another table was written first. -/
lemma of_same (h : SameVersions db' db'') (hposts : db'.posts = db.posts) : SameVersions db db'' :=
  (of_posts hposts).trans h

lemma showStatus (job : PublishJobId) (j : PublishJob) (status : JobStatus) :
    SameVersions db (db.showStatus job j status) := by
  intro id p hp
  by_cases hid : id = j.postId
  · subst hid
    unfold Db.showStatus
    simp only [hp]
    split_ifs
    · exact ⟨_, AList.lookup_insert _, rfl, rfl⟩
    · exact ⟨_, AList.lookup_insert _, rfl, rfl⟩
    · exact ⟨p, hp, rfl, rfl⟩
  · exact ⟨p, (db.showStatus_lookup_of_ne job j status hid).trans hp, rfl, rfl⟩

lemma refreshed (job : PublishJobId) (j : PublishJob) (status : JobStatus) :
    SameVersions db (db.refreshed job j status) := by
  unfold Db.refreshed
  dsimp only
  split
  · exact of_posts rfl
  · exact of_same (showStatus job (j.withStatus status) status) rfl

lemma touchJob {job : PublishJobId} {now : Time} {change : JobStatusChange}
    (h : Tx.run (Data.touchJob job now) db = .ok (change, db')) : SameVersions db db' := by
  obtain ⟨-, j, -, -, -, rfl⟩ := touchJob_ok.1 h
  exact of_same (refreshed job j.bumped change.after) rfl

lemma insert {owner : UserId} {actor : Option UserId} {post : PostId} {row : Post} {new : NewJob}
    {dbNow now : Time} {dispatches : List Dispatch}
    (h : Tx.run (JobRepo.insert owner actor post row new dbNow now) db = .ok (dispatches, db')) :
    SameVersions db db' := by
  obtain ⟨deliveries, status, -, -, -, -, hrefresh⟩ := JobRepo.insert_ok h
  obtain ⟨-, j, -, -, rfl⟩ := DeliveryRepo.refreshJobStatus_ok.1 hrefresh
  exact of_same (refreshed new.id j status) rfl

lemma quiet {β : Type} {s : Sql β} (hs : s.isQuiet = true) {b : β}
    (h : Tx.run (sql s) db = .ok (b, db')) : SameVersions db db' := by
  obtain ⟨e, he, -, rfl⟩ := Tx.run_sql_ok.mp h
  intro id p hp
  rcases db.storeAll_post e.writes id with ⟨row, hmem, -⟩ | ⟨-, hlook⟩
  · rcases (Sql.exec_sound s he).posts id row hmem with ⟨_, _, _, hmade⟩ | ⟨_, _, _, _, hmade⟩
    all_goals
      rw [Sql.writesPosts_of_isQuiet hs] at hmade
      cases hmade
  · exact ⟨p, hlook.trans hp, rfl, rfl⟩

end SameVersions

/-- A program that makes no edit keeps the versions. -/
lemma Built.sameVersions {A : Calls} {reach : Reach} (hreach : reach ≠ .posts) {α : Type} {p : Tx α}
    (hp : Built A reach p) :
    ∀ {db db' : Db} {a : α}, Tx.run p db = .ok (a, db') → SameVersions db db' := by
  induction hp with
  | done a =>
    intro db db' a' h
    obtain ⟨-, rfl⟩ := Tx.run_done_ok.mp h
    exact .refl _
  | fail e =>
    intro db db' a h
    exact absurd h (by simp)
  | bind _ _ ihp ihf =>
    intro db db' b h
    obtain ⟨a, db₁, hp, hf⟩ := Tx.run_bind_ok.mp h
    exact (ihp hp).trans (ihf a hf)
  | quiet s hs _ _ => exact fun h => .quiet hs h
  | touch _ job now => exact fun h => .touchJob h
  | claim id gen now lease =>
    intro db db' o h
    rcases DeliveryRepo.claim_ok h with ⟨-, rfl⟩ | ⟨d, j, change, -, -, -, -, -, -, htouch⟩
    · exact .refl _
    · exact .of_same (.touchJob htouch) rfl
  | apply fence event data now call =>
    intro db db' applied h
    rcases DeliveryRepo.apply_ok h with ⟨-, rfl, -⟩ | ⟨state, job, d, hl, -⟩
    · exact .refl _
    · obtain ⟨db₁, htouch, hstop⟩ := hl.stored
      have hmoved : SameVersions db db₁ := .of_same (.touchJob htouch) rfl
      rcases DeliveryRepo.stopCampaign_ok hstop with rfl | ⟨sends, counts, d', -, rfl⟩
      · exact hmoved
      · exact hmoved.trans (.of_posts rfl)
  | lateReceipt id receipt now =>
    intro db db' o h
    rcases DeliveryRepo.recordLateReceipt_ok.1 h with
      ⟨d, change, -, -, -, -, htouch⟩ | ⟨-, -, rfl⟩
    · exact .of_same (.touchJob htouch) rfl
    · exact .refl _
  | insert h => exact absurd h hreach
  | edit h => exact absurd h hreach

/-- **Nothing but an edit of a post raises its version.** -/
lemma OpStep.sameVersions {db db' : Db} {e : Event} (h : OpStep db e db')
    (hedit : ∀ scope post expectedVersion u, e ≠ .did (.editPost scope post expectedVersion) u) :
    SameVersions db db' := by
  cases h with
  | @did β op value _ h =>
    by_cases hreach : op.reach = .posts
    · cases op with
      | createJob scope post expectedVersion new dbNow now =>
        obtain ⟨row, -, hinsert⟩ := JobRepo.create_ok h
        exact .insert hinsert
      | createForOccurrence owner post actor new dbNow now =>
        obtain ⟨row, -, hinsert⟩ := JobRepo.createForOccurrence_ok h
        exact .insert hinsert
      | editPost scope post expectedVersion => exact absurd rfl (hedit scope post _ value)
      | _ => cases hreach
    · exact op.built.sameVersions hreach h
  | failed => exact .refl _
  | @wrotePost id owner absent =>
    intro post p hp
    have hne : post ≠ id := by
      rintro rfl
      rw [hp] at absent
      cases absent
    exact ⟨p, (AList.lookup_insert_ne hne).trans hp, rfl, rfl⟩
  | outside => exact .of_posts rfl

end Postit.Data
