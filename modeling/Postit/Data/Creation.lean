import Postit.Data.Jobs
import Postit.Data.Status

/-!
# What creating a job does

The job's row goes in, then its deliveries, one by one, and the new job's status is refreshed.
Nothing that was there changes but the post, which is told the status.
-/

namespace Postit.Data

open Postit.Framework

variable {db db' : Db}

/-- Inserting a job succeeds under a new key, for a post of the same owner whose live slot is
free. -/
lemma Sql.insertJob_ok {id : PublishJobId} {row : PublishJob} {u : Unit}
    (h : Tx.run (sql (.insertJob id row)) db = .ok (u, db')) :
    db.jobs.lookup id = none ∧ (∃ p, db.posts.lookup row.postId = some p ∧
      p.ownerId = row.ownerId) ∧ SlotFree db id row ∧ db' = db.setJob id row := by
  obtain ⟨e, he, -, rfl⟩ := Tx.run_sql_ok.mp h
  simp only [Sql.exec] at he
  split at he
  · cases he
  · rename_i habsent
    split at he
    · cases he
    · rename_i howned
      unfold Sql.storeJob at he
      split at he
      · cases he
      · rename_i hslot
        cases he
        simp only [Bool.not_eq_true', Bool.not_eq_false, Option.any_eq_true] at howned
        obtain ⟨p, hp, howner⟩ := howned
        refine ⟨by simpa using habsent, ⟨p, hp, by simpa using howner⟩, fun hlive => ?_, rfl⟩
        simpa [hlive] using hslot

/-- Inserting a delivery succeeds under a new key. -/
lemma Sql.insertDelivery_ok {id : DeliveryId} {owner : UserId} {job : PublishJobId} {post : PostId}
    {account : AccountId} {operation : Operation} {dueAt : Time} {actor : Option UserId}
    {dbNow : Time} {u : Unit}
    (h : Tx.run (sql (.insertDelivery id owner job post account operation dueAt actor dbNow)) db =
      .ok (u, db')) :
    db.deliveries.lookup id = none ∧
      db' = db.setDelivery id
        (Delivery.fresh owner job post account operation dueAt actor dbNow) := by
  obtain ⟨e, he, -, rfl⟩ := Tx.run_sql_ok.mp h
  simp only [Sql.exec] at he
  split at he
  · cases he
  · rename_i habsent
    split at he
    · cases he
    · split at he
      · cases he
      · cases he
        exact ⟨by simpa using habsent, rfl⟩

/-- The table `t'` is `t` with some deliveries of the job added, each `pending` and never
claimed. -/
structure Adds (job : PublishJobId) (post : PostId) (t t' : Table DeliveryId Delivery) : Prop where
  kept : ∀ id d, t.lookup id = some d → t'.lookup id = some d
  added : ∀ id d, t'.lookup id = some d → t.lookup id = some d ∨
    ∃ owner account operation dueAt actor dbNow,
      d = Delivery.fresh owner job post account operation dueAt actor dbNow

lemma Adds.refl (job : PublishJobId) (post : PostId) (t : Table DeliveryId Delivery) :
    Adds job post t t :=
  ⟨fun _ _ h => h, fun _ _ h => .inl h⟩

lemma Adds.trans {job : PublishJobId} {post : PostId} {t₁ t₂ t₃ : Table DeliveryId Delivery}
    (h : Adds job post t₁ t₂) (h' : Adds job post t₂ t₃) : Adds job post t₁ t₃ where
  kept := fun id d hd => h'.kept id d (h.kept id d hd)
  added := fun id d hd => (h'.added id d hd).elim (h.added id d) .inr

/-- **What creating a job does.** -/
lemma JobRepo.insert_ok {owner : UserId} {actor : Option UserId} {post : PostId} {row : Post}
    {new : NewJob} {dbNow now : Time} {dispatches : List Dispatch}
    (h : Tx.run (insert owner actor post row new dbNow now) db = .ok (dispatches, db')) :
    ∃ deliveries status, db.jobs.lookup new.id = none ∧
      (∃ p, db.posts.lookup post = some p ∧ p.ownerId = owner) ∧
      SlotFree db new.id (new.row owner post row.version actor dbNow) ∧
      Adds new.id post db.deliveries deliveries ∧
      Tx.run (DeliveryRepo.refreshJobStatus new.id now)
        { db.setJob new.id (new.row owner post row.version actor dbNow) with deliveries } =
          .ok (status, db') := by
  simp only [insert, Tx.run_bind_ok, Tx.run_guard_ok, Prog.pure_eq, Tx.run_done_ok] at h
  obtain ⟨_, _, ⟨-, hdb₁⟩, _, _, ⟨-, hdb₂⟩, _, _, ⟨-, hdb₃⟩, _, db₄, hjob, ds, db₅, heach, status, _,
    hrefresh, rfl, rfl⟩ := h
  obtain rfl := hdb₁.symm
  obtain rfl := hdb₂.symm
  obtain rfl := hdb₃.symm
  obtain ⟨habsent, hpost, hslot, rfl⟩ := Sql.insertJob_ok hjob
  have hadds := Tx.run_each_relates
    (R := fun db db' => ∃ deliveries, db' = { db with deliveries } ∧
      Adds new.id post db.deliveries deliveries)
    (fun db => ⟨db.deliveries, rfl, .refl _ _ _⟩)
    (by
      rintro db₁ db₂ db₃ ⟨t₂, rfl, h₂⟩ ⟨t₃, rfl, h₃⟩
      exact ⟨t₃, rfl, h₂.trans h₃⟩) new.targets ?_ heach
  · obtain ⟨deliveries, rfl, hadds⟩ := hadds
    exact ⟨deliveries, status, habsent, hpost, hslot, hadds, hrefresh⟩
  · intro target _ db db' dispatch hbody
    simp only [Tx.run_bind_ok, Tx.run_done_ok] at hbody
    obtain ⟨_, _, hinsert, -, rfl⟩ := hbody
    obtain ⟨habsent, rfl⟩ := Sql.insertDelivery_ok hinsert
    refine ⟨_, rfl, fun id d hd => ?_, fun id d hd => ?_⟩
    · have hne : id ≠ target.id := by
        rintro rfl
        exact absurd (habsent.symm.trans hd) (by simp)
      exact (AList.lookup_insert_ne hne).trans hd
    · by_cases hid : id = target.id
      · subst hid
        rw [AList.lookup_insert] at hd
        exact .inr ⟨_, _, _, _, _, _, (Option.some.inj hd).symm⟩
      · rw [AList.lookup_insert_ne hid] at hd
        exact .inl hd

end Postit.Data
