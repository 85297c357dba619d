import Postit.Data.Histories

/-!
# What the schema keeps

Invariants every statement keeps by itself, so that they hold between any two statements: the rows'
states can be read, references lead somewhere, and a post has one live job at most.  They come from
what a statement can write (`Sql.exec_sound`) and from nothing else.
-/

namespace Postit.Data

open Postit.Framework

/-- What every statement's writes keep, every transaction keeps. -/
lemma Tx.keeps_of_writes {α : Type} {I : Db → Prop}
    (h : ∀ {β : Type} (s : Sql β) (db : Db) (ws : List Write),
      SoundWrites s db ws → I db → I (db.storeAll ws)) (p : Tx α) : Tx.Keeps I p := by
  intro db hI a db' hrun
  refine Prog.run_relates Sql.alone (R := fun db db' => I db → I db') (fun _ h => h)
    (fun h h' hI => h' (h hI)) ?_ p hrun hI
  intro β s db db' b hs hI
  obtain ⟨e, he, -, rfl⟩ := Sql.alone_eq_ok hs
  exact h s db e.writes (Sql.exec_sound s he) hI

/-! ## Readable states -/

/-- The row's two state columns spell a state. -/
def Delivery.Readable (d : Delivery) : Prop := ∃ s, DeliveryUpdate.InState d s

lemma Delivery.readable_fresh (owner : UserId) (job : PublishJobId) (post : PostId)
    (account : AccountId) (operation : Operation) (dueAt : Time) (actor : Option UserId)
    (dbNow : Time) :
    (Delivery.fresh owner job post account operation dueAt actor dbNow).Readable :=
  ⟨.pending, rfl, rfl⟩

/-- A row in a state other than `parked` has no park reason. -/
lemma Delivery.Readable.parkedReason_eq_none {d : Delivery} (h : d.Readable)
    (hs : d.state ≠ .parked) : d.parkedReason = none := by
  obtain ⟨s, hname, hreason⟩ := h
  rw [hreason]
  cases s with
  | parked r => exact absurd hname hs
  | _ => rfl

lemma Delivery.readable_set (u : DeliveryUpdate) (d : Delivery) (happ : u.Applies d)
    (h : d.Readable) : (u.set d).Readable := by
  cases u with
  | claim now leaseUntil =>
    refine ⟨.claimed, rfl, h.parkedReason_eq_none ?_⟩
    rw [happ.1]
    decide
  | apply move data now => exact ⟨move.target, rfl, rfl⟩
  | recordLateReceipt receipt now =>
    refine ⟨.published, rfl, h.parkedReason_eq_none ?_⟩
    rw [happ.1]
    decide
  | _ => exact h

/-- Every row spells a state. -/
def AllReadable (db : Db) : Prop := ∀ id d, db.deliveries.lookup id = some d → d.Readable

lemma OpStep.allReadable {db db' : Db} {e : Event} (h : OpStep db e db') (hdb : AllReadable db) :
    AllReadable db' :=
  h.rows.keep (fun _ => Delivery.readable_fresh) (fun ⟨u, happ, _⟩ => Delivery.readable_set u _ happ) hdb

/-! ## References and the live slot -/

/-- The references between rows, and the unique index on live jobs. -/
structure Sound (db : Db) : Prop where
  -- a delivery's job is there
  hasJob : ∀ id d, db.deliveries.lookup id = some d → (db.jobs.lookup d.jobId).isSome
  -- a job's post is there, and belongs to the same owner
  hasPost : ∀ id j, db.jobs.lookup id = some j →
    ∃ p, db.posts.lookup j.postId = some p ∧ p.ownerId = j.ownerId
  -- a post has one live job at most
  oneLive : ∀ id id' j j', db.jobs.lookup id = some j → db.jobs.lookup id' = some j' →
    j.isLive = true → j'.isLive = true → j.postId = j'.postId → id = id'

/-- No other job of the post is live. -/
lemma Sound.otherLiveJob_eq_false {db : Db} (h : Sound db) {job : PublishJobId} {j : PublishJob}
    (hj : db.jobs.lookup job = some j) (hlive : j.isLive = true) :
    Sql.otherLiveJob db j.postId job = false := by
  rw [Sql.otherLiveJob, Table.exists?_eq_false]
  intro id j' hj'
  by_contra hother
  simp only [Bool.not_eq_false, Bool.and_eq_true, decide_eq_true_eq, bne_iff_ne] at hother
  obtain ⟨⟨hpost, hlive'⟩, hne⟩ := hother
  exact hne (h.oneLive id job j' j hj' hj hlive' hlive hpost)

/-- A live job that finds the slot free is the only one. -/
lemma SlotFree.unique {db : Db} {id id' : PublishJobId} {row j' : PublishJob}
    (h : SlotFree db id row) (hlive : row.isLive = true) (hj' : db.jobs.lookup id' = some j')
    (hlive' : j'.isLive = true) (hpost : j'.postId = row.postId) : id' = id := by
  by_contra hne
  have hfree := Table.exists?_eq_false.mp (h hlive) id' j' hj'
  simp [hpost, hlive', hne] at hfree

section Writes

variable {β : Type} {s : Sql β} {db : Db} {ws : List Write} (hws : SoundWrites s db ws)
include hws

/-- Jobs stay, with their post and owner. -/
lemma SoundWrites.job_stays {id : PublishJobId} {j : PublishJob}
    (hj : db.jobs.lookup id = some j) :
    ∃ j', (db.storeAll ws).jobs.lookup id = some j' ∧ j'.postId = j.postId ∧
      j'.ownerId = j.ownerId := by
  rcases db.storeAll_job ws id with ⟨row, hmem, hlook⟩ | ⟨-, hlook⟩
  · refine ⟨row, hlook, ?_⟩
    rcases hws.jobs id row hmem with ⟨j₀, u, hfound, rfl, -, -⟩ | ⟨habsent, -, -, -⟩
    · obtain rfl := Option.some.inj (hj.symm.trans hfound)
      cases u <;> exact ⟨rfl, rfl⟩
    · exact absurd (habsent.symm.trans hj) (by simp)
  · exact ⟨j, hlook.trans hj, rfl, rfl⟩

/-- Posts stay, with their owner. -/
lemma SoundWrites.post_stays {id : PostId} {p : Post} (hp : db.posts.lookup id = some p) :
    ∃ p', (db.storeAll ws).posts.lookup id = some p' ∧ p'.ownerId = p.ownerId := by
  rcases db.storeAll_post ws id with ⟨row, hmem, hlook⟩ | ⟨-, hlook⟩
  · refine ⟨row, hlook, ?_⟩
    rcases hws.posts id row hmem with ⟨p₀, hfound, rfl, -⟩ | ⟨p₀, status, hfound, rfl, -⟩
    · obtain rfl := Option.some.inj (hp.symm.trans hfound)
      rfl
    · obtain rfl := Option.some.inj (hp.symm.trans hfound)
      rfl
  · exact ⟨p, hlook.trans hp, rfl⟩

/-- A job that is there after the writes was there before, live if it is now, or found the slot
free. -/
lemma SoundWrites.job_was {id : PublishJobId} {j' : PublishJob}
    (hj' : (db.storeAll ws).jobs.lookup id = some j') :
    (∃ j, db.jobs.lookup id = some j ∧ j'.postId = j.postId ∧ j'.isLive = j.isLive) ∨
      (.job id j' ∈ ws ∧ SlotFree db id j') := by
  rcases db.storeAll_job ws id with ⟨row, hmem, hlook⟩ | ⟨-, hlook⟩
  · obtain rfl := Option.some.inj (hlook.symm.trans hj')
    rcases hws.jobs id row hmem with ⟨j₀, u, hfound, rfl, hlive | hslot, -⟩ | ⟨-, hslot, -, -⟩
    · exact .inl ⟨j₀, hfound, by cases u <;> rfl, hlive⟩
    · exact .inr ⟨hmem, hslot⟩
    · exact .inr ⟨hmem, hslot⟩
  · exact .inl ⟨j', hlook.symm.trans hj', rfl, rfl⟩

end Writes

/-- **Every statement keeps the schema.** -/
lemma Sound.storeAll {β : Type} {s : Sql β} {db : Db} {ws : List Write} (hws : SoundWrites s db ws)
    (h : Sound db) : Sound (db.storeAll ws) where
  hasJob := by
    intro id d' hd'
    have hstays {job : PublishJobId} (hjob : (db.jobs.lookup job).isSome) :
        ((db.storeAll ws).jobs.lookup job).isSome := by
      obtain ⟨j, hj⟩ := Option.isSome_iff_exists.mp hjob
      obtain ⟨j', hj', -⟩ := hws.job_stays hj
      simp [hj']
    rcases db.storeAll_delivery ws id with ⟨row, hmem, hlook⟩ | ⟨-, hlook⟩
    · obtain rfl := Option.some.inj (hlook.symm.trans hd')
      rcases hws.deliveries id row hmem with
        ⟨d, u, hfound, -, rfl, -⟩ | ⟨-, owner, job, post, account, op, due, actor, dbNow, hjob, rfl, -⟩
      · have hsame : (u.set d).jobId = d.jobId := by cases u <;> rfl
        rw [hsame]
        exact hstays (h.hasJob id d hfound)
      · exact hstays hjob
    · exact hstays (h.hasJob id d' (hlook.symm.trans hd'))
  hasPost := by
    intro id j' hj'
    have hstays {j : PublishJob} (hpost : ∃ p, db.posts.lookup j.postId = some p ∧
        p.ownerId = j.ownerId) :
        ∃ p, (db.storeAll ws).posts.lookup j.postId = some p ∧ p.ownerId = j.ownerId := by
      obtain ⟨p, hp, howner⟩ := hpost
      obtain ⟨p', hp', howner'⟩ := hws.post_stays hp
      exact ⟨p', hp', howner'.trans howner⟩
    rcases db.storeAll_job ws id with ⟨row, hmem, hlook⟩ | ⟨-, hlook⟩
    · obtain rfl := Option.some.inj (hlook.symm.trans hj')
      rcases hws.jobs id row hmem with ⟨j, u, hfound, rfl, -, -⟩ | ⟨-, -, howned, -⟩
      · have hpost : (u.set j).postId = j.postId := by cases u <;> rfl
        have howner : (u.set j).ownerId = j.ownerId := by cases u <;> rfl
        rw [hpost, howner]
        exact hstays (h.hasPost id j hfound)
      · obtain ⟨p, hp, howner⟩ := (Option.any_eq_true _ _).mp howned
        exact hstays ⟨p, hp, by simpa using howner⟩
    · exact hstays (h.hasPost id j' (hlook.symm.trans hj'))
  oneLive := by
    intro id id' j j' hj hj' hlive hlive' hpost
    rcases hws.job_was hj with ⟨j₀, hj₀, hpost₀, hlive₀⟩ | ⟨hmem, hslot⟩
    · rcases hws.job_was hj' with ⟨j₁, hj₁, hpost₁, hlive₁⟩ | ⟨hmem', hslot'⟩
      · exact h.oneLive id id' j₀ j₁ hj₀ hj₁ (hlive₀ ▸ hlive) (hlive₁ ▸ hlive')
          (hpost₀ ▸ hpost₁ ▸ hpost)
      · exact hslot'.unique hlive' hj₀ (hlive₀ ▸ hlive) (hpost₀ ▸ hpost)
    · rcases hws.job_was hj' with ⟨j₁, hj₁, hpost₁, hlive₁⟩ | ⟨hmem', -⟩
      · exact (hslot.unique hlive hj₁ (hlive₁ ▸ hlive') (hpost₁ ▸ hpost.symm)).symm
      · exact hws.oneJob id id' j j' hmem hmem'

/-- Every transaction keeps the schema. -/
lemma Sound.keeps {α : Type} (p : Tx α) : Tx.Keeps Sound p :=
  Tx.keeps_of_writes (fun _ _ _ hws h => h.storeAll hws) p

lemma OpStep.sound {db db' : Db} {e : Event} (h : OpStep db e db') (hdb : Sound db) :
    Sound db' := by
  cases h with
  | did h => exact Sound.keeps _ db hdb _ _ h
  | failed => exact hdb
  | @wrotePost id owner absent =>
    refine ⟨hdb.hasJob, fun job j hj => ?_, hdb.oneLive⟩
    obtain ⟨p, hp, howner⟩ := hdb.hasPost job j hj
    have hne : j.postId ≠ id := by
      rintro rfl
      exact absurd (absent.symm.trans hp) (by simp)
    exact ⟨p, (AList.lookup_insert_ne hne).trans hp, howner⟩
  | outside => exact ⟨hdb.hasJob, hdb.hasPost, hdb.oneLive⟩

/-! ## Reachable databases -/

/-- A database some run of the engine's operations leads to, from before the first job. -/
def Reachable (db : Db) : Prop := ∃ db₀ es, Fresh db₀ ∧ Run OpStep db₀ es db

/-- An invariant of fresh databases that every step keeps holds of reachable ones. -/
lemma Reachable.invariant {I : Db → Prop} (hfresh : ∀ db, Fresh db → I db)
    (hstep : ∀ {db e db'}, OpStep db e db' → I db → I db') {db : Db} (h : Reachable db) :
    I db := by
  obtain ⟨db₀, es, hdb₀, run⟩ := h
  exact run.invariant hstep (hfresh db₀ hdb₀)

lemma Reachable.step {db db' : Db} {e : Event} (h : Reachable db) (hstep : OpStep db e db') :
    Reachable db' := by
  obtain ⟨db₀, es, hdb₀, run⟩ := h
  exact ⟨db₀, _, hdb₀, run.snoc hstep⟩

lemma Reachable.perform {db : Db} (h : Reachable db) {β : Type} (op : Op β) :
    Reachable (db.perform op) := by
  unfold Db.perform
  cases hrun : op.tx.run db with
  | error e => exact h
  | ok r => exact h.step (.did hrun)

lemma Db.reachable_sample : Reachable Db.sample := ⟨Db.sample, [], Db.fresh_sample, .nil⟩

lemma Fresh.allReadable {db : Db} (h : Fresh db) : AllReadable db := by
  intro id d hd
  rw [h.deliveries] at hd
  cases hd

lemma Fresh.sound {db : Db} (h : Fresh db) : Sound db where
  hasJob := by
    intro id d hd
    rw [h.deliveries] at hd
    cases hd
  hasPost := by
    intro id j hj
    rw [h.jobs] at hj
    cases hj
  oneLive := by
    intro id id' j j' hj
    rw [h.jobs] at hj
    cases hj

lemma Reachable.allReadable {db : Db} (h : Reachable db) : AllReadable db :=
  h.invariant (fun _ h => h.allReadable) fun h => h.allReadable

lemma Reachable.sound {db : Db} (h : Reachable db) : Sound db :=
  h.invariant (fun _ h => h.sound) fun h => h.sound

end Postit.Data
