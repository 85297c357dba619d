import Postit.Data.Statements

/-!
# What a statement can write

`Sql.exec_sound` is the one place where the statements are gone through one by one: whatever a
statement writes to a delivery, a job, a recipient row or a post is one of the row updates of
`Postit.Data.Rows`, applied to the row that is there, or a fresh row under a key that is not.
Everything that holds of rows across transactions and runs is derived from it.
-/

namespace Postit.Data

open Postit.Framework

/-! ## Reading back what was stored -/

/-- Stored writes are read back from a table that `store` writes row by row. -/
lemma Db.lookup_storeAll {κ ρ : Type} [DecidableEq κ] (table : Db → Table κ ρ)
    (row? : Write → Option (κ × ρ))
    (hstore : ∀ db w,
      table (db.store w) = (row? w).elim (table db) fun r => (table db).insert r.1 r.2)
    (k : κ) (ws : List Write) : ∀ db : Db,
    (∃ w ∈ ws, ∃ r, row? w = some (k, r) ∧ (table (db.storeAll ws)).lookup k = some r) ∨
      ((∀ w ∈ ws, ∀ r, row? w ≠ some (k, r)) ∧
        (table (db.storeAll ws)).lookup k = (table db).lookup k) := by
  induction ws with
  | nil => exact fun db => .inr ⟨by simp, rfl⟩
  | cons w ws ih =>
    intro db
    rcases ih (db.store w) with ⟨w', hw', r, hr, hlook⟩ | ⟨hnone, hlook⟩
    · exact .inl ⟨w', by simp [hw'], r, hr, hlook⟩
    · have hcons : (table (db.storeAll (w :: ws))).lookup k = (table (db.store w)).lookup k := hlook
      rw [hstore db w] at hcons
      cases hw : row? w with
      | none =>
        refine .inr ⟨?_, by rw [hcons, hw]; rfl⟩
        intro w' hw' r
        rcases List.mem_cons.mp hw' with rfl | hmem
        · simp [hw]
        · exact hnone w' hmem r
      | some kr =>
        obtain ⟨k', r⟩ := kr
        rw [hw] at hcons
        by_cases hk : k = k'
        · subst hk
          exact .inl ⟨w, by simp, r, hw, by simpa using hcons⟩
        · refine .inr ⟨?_, ?_⟩
          · intro w' hw' r'
            rcases List.mem_cons.mp hw' with rfl | hmem
            · rw [hw]
              simp only [ne_eq, Option.some.injEq, Prod.mk.injEq, not_and]
              exact fun h => absurd h.symm hk
            · exact hnone w' hmem r'
          · simpa [AList.lookup_insert_ne hk] using hcons

/-- What is read back does not depend on the rows under other keys. -/
lemma Db.lookup_storeAll_congr {κ ρ : Type} [DecidableEq κ] (table : Db → Table κ ρ)
    (row? : Write → Option (κ × ρ))
    (hstore : ∀ db w,
      table (db.store w) = (row? w).elim (table db) fun r => (table db).insert r.1 r.2)
    (k : κ) (ws : List Write) : ∀ db db' : Db, (table db').lookup k = (table db).lookup k →
      (table (db'.storeAll ws)).lookup k = (table (db.storeAll ws)).lookup k := by
  induction ws with
  | nil => exact fun _ _ h => h
  | cons w ws ih =>
    intro db db' h
    refine ih (db.store w) (db'.store w) ?_
    rw [hstore, hstore]
    cases row? w with
    | none => exact h
    | some r =>
      simp only [Option.elim_some]
      by_cases hk : k = r.1
      · subst hk
        rw [AList.lookup_insert, AList.lookup_insert]
      · rw [AList.lookup_insert_ne hk, AList.lookup_insert_ne hk, h]

namespace Write

/-- The delivery a write stores, if it stores one. -/
def delivery? : Write → Option (DeliveryId × Delivery)
  | delivery id row => some (id, row)
  | _ => none

/-- The job a write stores, if it stores one. -/
def job? : Write → Option (PublishJobId × PublishJob)
  | job id row => some (id, row)
  | _ => none

/-- The recipient row a write stores, if it stores one. -/
def send? : Write → Option (DirectSendId × DirectSend)
  | send id row => some (id, row)
  | _ => none

/-- The post a write stores, if it stores one. -/
def post? : Write → Option (PostId × Post)
  | post id row => some (id, row)
  | _ => none

end Write

section Tables

variable (db : Db) (w : Write)

lemma Db.store_deliveries : (db.store w).deliveries =
    w.delivery?.elim db.deliveries fun r => db.deliveries.insert r.1 r.2 := by
  cases w <;> rfl

lemma Db.store_jobs : (db.store w).jobs =
    w.job?.elim db.jobs fun r => db.jobs.insert r.1 r.2 := by
  cases w <;> rfl

lemma Db.store_sends : (db.store w).sends =
    w.send?.elim db.sends fun r => db.sends.insert r.1 r.2 := by
  cases w <;> rfl

lemma Db.store_posts : (db.store w).posts =
    w.post?.elim db.posts fun r => db.posts.insert r.1 r.2 := by
  cases w <;> rfl

end Tables

/-- After stored writes a row of a table is one of the writes, or none was to it and it is as it
was. -/
lemma Db.storeAll_delivery (db : Db) (ws : List Write) (id : DeliveryId) :
    (∃ row, .delivery id row ∈ ws ∧ (db.storeAll ws).deliveries.lookup id = some row) ∨
      ((∀ row, .delivery id row ∉ ws) ∧
        (db.storeAll ws).deliveries.lookup id = db.deliveries.lookup id) := by
  rcases Db.lookup_storeAll (·.deliveries) Write.delivery? Db.store_deliveries id ws db with
    ⟨w, hw, row, hrow, hlook⟩ | ⟨hnone, hlook⟩
  · refine .inl ⟨row, ?_, hlook⟩
    cases w <;> cases hrow
    exact hw
  · exact .inr ⟨fun row hmem => hnone _ hmem row rfl, hlook⟩

/-- The same for jobs. -/
lemma Db.storeAll_job (db : Db) (ws : List Write) (id : PublishJobId) :
    (∃ row, .job id row ∈ ws ∧ (db.storeAll ws).jobs.lookup id = some row) ∨
      ((∀ row, .job id row ∉ ws) ∧ (db.storeAll ws).jobs.lookup id = db.jobs.lookup id) := by
  rcases Db.lookup_storeAll (·.jobs) Write.job? Db.store_jobs id ws db with
    ⟨w, hw, row, hrow, hlook⟩ | ⟨hnone, hlook⟩
  · refine .inl ⟨row, ?_, hlook⟩
    cases w <;> cases hrow
    exact hw
  · exact .inr ⟨fun row hmem => hnone _ hmem row rfl, hlook⟩

/-- The same for recipient rows. -/
lemma Db.storeAll_send (db : Db) (ws : List Write) (id : DirectSendId) :
    (∃ row, .send id row ∈ ws ∧ (db.storeAll ws).sends.lookup id = some row) ∨
      ((∀ row, .send id row ∉ ws) ∧ (db.storeAll ws).sends.lookup id = db.sends.lookup id) := by
  rcases Db.lookup_storeAll (·.sends) Write.send? Db.store_sends id ws db with
    ⟨w, hw, row, hrow, hlook⟩ | ⟨hnone, hlook⟩
  · refine .inl ⟨row, ?_, hlook⟩
    cases w <;> cases hrow
    exact hw
  · exact .inr ⟨fun row hmem => hnone _ hmem row rfl, hlook⟩

/-- The same for posts. -/
lemma Db.storeAll_post (db : Db) (ws : List Write) (id : PostId) :
    (∃ row, .post id row ∈ ws ∧ (db.storeAll ws).posts.lookup id = some row) ∨
      ((∀ row, .post id row ∉ ws) ∧ (db.storeAll ws).posts.lookup id = db.posts.lookup id) := by
  rcases Db.lookup_storeAll (·.posts) Write.post? Db.store_posts id ws db with
    ⟨w, hw, row, hrow, hlook⟩ | ⟨hnone, hlook⟩
  · refine .inl ⟨row, ?_, hlook⟩
    cases w <;> cases hrow
    exact hw
  · exact .inr ⟨fun row hmem => hnone _ hmem row rfl, hlook⟩

/-- Written deliveries change nothing but deliveries. -/
lemma Db.storeAll_deliveries (f : DeliveryId × Delivery → Delivery)
    (rows : List (DeliveryId × Delivery)) : ∀ db : Db,
    ∃ deliveries,
      db.storeAll (rows.map fun r => .delivery r.1 (f r)) = { db with deliveries } := by
  induction rows with
  | nil => exact fun db => ⟨db.deliveries, rfl⟩
  | cons r rows ih =>
    intro db
    obtain ⟨deliveries, h⟩ := ih (db.store (.delivery r.1 (f r)))
    exact ⟨deliveries, h⟩

/-- Written recipient rows change nothing but recipient rows. -/
lemma Db.storeAll_sends (f : DirectSendId × DirectSend → DirectSend)
    (rows : List (DirectSendId × DirectSend)) : ∀ db : Db,
    ∃ sends, db.storeAll (rows.map fun r => .send r.1 (f r)) = { db with sends } := by
  induction rows with
  | nil => exact fun db => ⟨db.sends, rfl⟩
  | cons r rows ih =>
    intro db
    obtain ⟨sends, h⟩ := ih (db.store (.send r.1 (f r)))
    exact ⟨sends, h⟩

/-- Updated rows are read back. -/
lemma lookup_updateDeliveries {db : Db} {rows : List (DeliveryId × Delivery)} {u : DeliveryUpdate}
    (hfound : ∀ r ∈ rows, db.deliveries.lookup r.1 = some r.2) {r : DeliveryId × Delivery}
    (hr : r ∈ rows) :
    (db.storeAll (Sql.updateDeliveries rows u).writes).deliveries.lookup r.1 =
      some (u.set r.2) := by
  rcases db.storeAll_delivery (Sql.updateDeliveries rows u).writes r.1 with
    ⟨row, hmem, hlook⟩ | ⟨hnone, -⟩
  · obtain ⟨r', hr', heq⟩ := List.mem_map.mp hmem
    injection heq with hid hrow
    have hsame : r'.2 = r.2 := by
      have h := hfound r' hr'
      rw [hid, hfound r hr] at h
      exact (Option.some.inj h).symm
    rw [hlook, ← hrow, hsame]
  · exact absurd (List.mem_map_of_mem hr) (hnone (u.set r.2))

/-! ## Sound writes -/

namespace Sql

variable {β : Type}

/-- How the statement updates a delivery, if it is one that does. -/
def deliveryUpdate? : Sql β → Option DeliveryUpdate
  | claimDelivery _ _ now leaseUntil => some (.claim now leaseUntil)
  | renewLease _ _ now leaseUntil => some (.renewLease now leaseUntil)
  | applyTransition _ _ move data now => some (.apply move data now)
  | setContainerRef _ ref => some (.setContainerRef ref)
  | takeCheck fence seq nextDue => some (.takeCheck fence.expected seq nextDue)
  | setCheckDue fence _ due => some (.setCheckDue fence.expected due)
  | recordLateReceipt _ receipt now => some (.recordLateReceipt receipt now)
  | setDirectCounts _ counts => some (.setDirectCounts counts)
  | requestCancel _ now actor => some (.requestCancel now actor)
  | setRemotePublishAt _ at_ now => some (.setRemotePublishAt at_ now)
  | reschedulePending _ at_ now actor uploads => some (.reschedule at_ now actor uploads)
  | overduePending now _ _ => some (.redispatch now)
  | stalledChecks now _ _ => some (.stampChecked now)
  | orphanedDirect now _ _ => some (.stampUpdated now)
  | stampNotified _ now => some (.stampNotified now)
  | waitForCap _ resumeAt now => some (.waitForCap resumeAt now)
  | _ => none

/-- How the statement updates a job, if it is one that does. -/
def jobUpdate? : Sql β → Option JobUpdate
  | bumpJobVersion _ => some .bumpVersion
  | updateJobStatus _ status => some (.setStatus status)
  | setJobCancelled _ now actor => some (.cancel now actor)
  | setScheduledAt _ at_ actor => some (.setScheduledAt at_ actor)
  | _ => none

/-- How the statement updates a recipient row, if it is one that does. -/
def sendUpdate? : Sql β → Option SendUpdate
  | leaseSends _ batch _ leaseUntil _ => some (.lease batch leaseUntil)
  | renewBatch _ batch leaseUntil => some (.renew batch leaseUntil)
  | recordSend _ batch result now => some (.record batch result now)
  | requeueSend _ batch => some (.requeue batch)
  | releaseBatch _ batch => some (.release batch)
  | cancelQueued _ => some .cancel
  | _ => none

/-- Whether the statement writes posts. -/
def writesPosts : Sql β → Bool
  | updatePostStatus .. | bumpPostVersion .. => true
  | _ => false

/-- Whether the statement inserts a delivery. -/
def insertsDelivery : Sql β → Bool
  | insertDelivery .. => true
  | _ => false

/-- Whether the statement inserts a job. -/
def insertsJob : Sql β → Bool
  | insertJob .. => true
  | _ => false

/-- Whether the statement inserts recipient rows. -/
def insertsSends : Sql β → Bool
  | insertSends .. => true
  | _ => false

end Sql

section Writes

variable {β : Type} (s : Sql β) (db : Db)

/-- A delivery is written by the statement's update of the row that is there, or inserted fresh,
into a job that is there. -/
inductive DeliveryWrite (id : DeliveryId) (row : Delivery) : Prop
  | update (d : Delivery) (u : DeliveryUpdate) (found : db.deliveries.lookup id = some d)
      (applies : u.Applies d) (eq : row = u.set d) (made : s.deliveryUpdate? = some u)
  | insert (absent : db.deliveries.lookup id = none) (owner : UserId) (job : PublishJobId)
      (post : PostId) (account : AccountId) (operation : Operation) (dueAt : Time)
      (actor : Option UserId) (dbNow : Time) (hasJob : (db.jobs.lookup job).isSome)
      (eq : row = Delivery.fresh owner job post account operation dueAt actor dbNow)
      (made : s.insertsDelivery = true)

/-- The row may occupy its post's live slot: it is not live, or no other job is. -/
def SlotFree (id : PublishJobId) (row : PublishJob) : Prop :=
  row.isLive = true → Sql.otherLiveJob db row.postId id = false

/-- A job is written by the statement's update of the row that is there, or inserted.  A write that
may make it live finds the post's live slot free. -/
inductive JobWrite (id : PublishJobId) (row : PublishJob) : Prop
  | update (j : PublishJob) (u : JobUpdate) (found : db.jobs.lookup id = some j)
      (eq : row = u.set j) (slot : row.isLive = j.isLive ∨ SlotFree db id row)
      (made : s.jobUpdate? = some u)
  | insert (absent : db.jobs.lookup id = none) (slot : SlotFree db id row)
      (owned : (db.posts.lookup row.postId).any (·.ownerId = row.ownerId))
      (made : s.insertsJob = true)

/-- A recipient row is written by the statement's update of the row that is there, or inserted fresh
under a new UUID. -/
inductive SendWrite (id : DirectSendId) (row : DirectSend) : Prop
  | update (r : DirectSend) (u : SendUpdate) (found : db.sends.lookup id = some r)
      (applies : u.Applies r) (eq : row = u.set r) (made : s.sendUpdate? = some u)
  | insert (isNew : db.nextUuid ≤ id) (delivery : DeliveryId) (contact : ContactId)
      (c : Contact) (eq : row = DirectSend.fresh delivery contact c) (made : s.insertsSends = true)

/-- A post is written by an edit, which bumps its version, or by a refresh, which sets its
status. -/
inductive PostWrite (id : PostId) (row : Post) : Prop
  | edit (p : Post) (found : db.posts.lookup id = some p)
      (eq : row = { p with version := p.version + 1 }) (made : s.writesPosts = true)
  | refresh (p : Post) (status : PostStatus) (found : db.posts.lookup id = some p)
      (eq : row = { p with status }) (made : s.writesPosts = true)

/-- Every write is one of the ways to change a row. -/
structure SoundWrites (ws : List Write) : Prop where
  deliveries : ∀ id row, .delivery id row ∈ ws → DeliveryWrite s db id row
  jobs : ∀ id row, .job id row ∈ ws → JobWrite s db id row
  sends : ∀ id row, .send id row ∈ ws → SendWrite s db id row
  posts : ∀ id row, .post id row ∈ ws → PostWrite s db id row
  oneJob : ∀ id id' row row', .job id row ∈ ws → .job id' row' ∈ ws → id = id'

end Writes

namespace SoundWrites

variable {β γ : Type} {s : Sql γ} {db : Db}

lemma nil : SoundWrites s db [] := ⟨by simp, by simp, by simp, by simp, by simp⟩

lemma single_delivery {id : DeliveryId} {row : Delivery} (h : DeliveryWrite s db id row) :
    SoundWrites s db [.delivery id row] :=
  ⟨by simp only [List.mem_singleton, Write.delivery.injEq]; rintro _ _ ⟨rfl, rfl⟩; exact h,
    by simp, by simp, by simp, by simp⟩

lemma single_job {id : PublishJobId} {row : PublishJob} (h : JobWrite s db id row) :
    SoundWrites s db [.job id row] :=
  ⟨by simp, by simp only [List.mem_singleton, Write.job.injEq]; rintro _ _ ⟨rfl, rfl⟩; exact h,
    by simp, by simp, by simp only [List.mem_singleton, Write.job.injEq]; rintro _ _ _ _ ⟨rfl, -⟩ ⟨rfl, -⟩; rfl⟩

lemma single_post {id : PostId} {row : Post} (h : PostWrite s db id row) :
    SoundWrites s db [.post id row] :=
  ⟨by simp, by simp, by simp,
    by simp only [List.mem_singleton, Write.post.injEq]; rintro _ _ ⟨rfl, rfl⟩; exact h, by simp⟩

lemma updateDelivery (id : DeliveryId) (u : DeliveryUpdate) (cond : Delivery → Bool)
    (ret : Delivery → β) (made : s.deliveryUpdate? = some u := by rfl) : SoundWrites s db (Sql.updateDelivery db id u cond ret).writes := by
  unfold Sql.updateDelivery
  split
  · rename_i d hd
    split
    · rename_i h
      exact single_delivery (.update d u hd h.1 rfl made)
    · exact nil
  · exact nil

lemma updateDeliveries {rows : List (DeliveryId × Delivery)} {u : DeliveryUpdate}
    (h : ∀ r ∈ rows, db.deliveries.lookup r.1 = some r.2 ∧ u.Applies r.2)
    (made : s.deliveryUpdate? = some u := by rfl) :
    SoundWrites s db (Sql.updateDeliveries rows u).writes := by
  refine ⟨?_, by simp [Sql.updateDeliveries], by simp [Sql.updateDeliveries],
    by simp [Sql.updateDeliveries], by simp [Sql.updateDeliveries]⟩
  intro id row hmem
  obtain ⟨r, hr, heq⟩ := List.mem_map.mp hmem
  cases heq
  exact .update r.2 u (h r hr).1 (h r hr).2 rfl made

lemma updateJob {id : PublishJobId} {u : JobUpdate} (ret : PublishJob → β)
    (h : ∀ j, (u.set j).isLive = j.isLive) (made : s.jobUpdate? = some u := by rfl) :
    SoundWrites s db (Sql.updateJob db id u ret).writes := by
  unfold Sql.updateJob
  split
  · rename_i j hj
    exact single_job (.update j u hj rfl (.inl (h j)) made)
  · exact nil

lemma updateSends {rows : List (DirectSendId × DirectSend)} {u : SendUpdate}
    (h : ∀ r ∈ rows, db.sends.lookup r.1 = some r.2 ∧ u.Applies r.2)
    (made : s.sendUpdate? = some u := by rfl) :
    SoundWrites s db (Sql.updateSends rows u).writes := by
  refine ⟨by simp [Sql.updateSends], by simp [Sql.updateSends], ?_, by simp [Sql.updateSends],
    by simp [Sql.updateSends]⟩
  intro id row hmem
  obtain ⟨r, hr, heq⟩ := List.mem_map.mp hmem
  cases heq
  exact .update r.2 u (h r hr).1 (h r hr).2 rfl made

lemma updateSend (id : DirectSendId) (u : SendUpdate)
    (made : s.sendUpdate? = some u := by rfl) :
    SoundWrites s db (Sql.updateSend db id u).writes := by
  unfold Sql.updateSend
  split
  · rename_i r hr
    split
    · rename_i h
      refine ⟨by simp, by simp, ?_, by simp, by simp⟩
      simp only [List.mem_singleton, Write.send.injEq]
      rintro _ _ ⟨rfl, rfl⟩
      exact .update r u hr h rfl made
    · exact nil
  · exact nil

lemma storeJob {id : PublishJobId} {j : PublishJob} {result : β} {e : Effect β}
    (h : SlotFree db id j → JobWrite s db id j) (he : Sql.storeJob db id j result = .ok e) :
    SoundWrites s db e.writes := by
  unfold Sql.storeJob at he
  split at he
  · cases he
  · rename_i hslot
    cases he
    refine single_job (h fun hlive => ?_)
    simpa [hlive] using hslot

end SoundWrites

namespace Sql

variable {β : Type} {free : RowRef → Bool} {db : Db}

lemma mem_deliveriesWhere {p : DeliveryId → Delivery → Bool} {r : DeliveryId × Delivery}
    (h : r ∈ deliveriesWhere db p) : db.deliveries.lookup r.1 = some r.2 ∧ p r.1 r.2 = true :=
  Table.mem_select.mp ((List.mem_insertionSort _).mp h)

lemma nodup_deliveriesWhere (db : Db) (p : DeliveryId → Delivery → Bool) :
    ((deliveriesWhere db p).map Prod.fst).Nodup := by
  have hperm := ((db.deliveries.select p).perm_insertionSort
    fun a b => byId a b = true).map Prod.fst
  exact hperm.nodup_iff.mpr (Table.nodup_select _ _)

lemma mem_sendsWhere {p : DirectSendId → DirectSend → Bool} {r : DirectSendId × DirectSend}
    (h : r ∈ sendsWhere db p) : db.sends.lookup r.1 = some r.2 ∧ p r.1 r.2 = true :=
  Table.mem_select.mp ((List.mem_insertionSort _).mp h)

/-- **What a statement can write.** -/
lemma exec_sound (s : Sql β) {e : Effect β} (h : s.exec free db = .ok e) :
    SoundWrites s db e.writes := by
  cases s with
  | claimDelivery id gen now leaseUntil =>
    simp only [exec, Except.ok.injEq] at h
    subst h
    split
    · exact .updateDelivery _ _ _ _
    · exact .nil
  | renewLease id gen now leaseUntil => cases h; exact .updateDelivery _ _ _ _
  | selectJobIsCancelled id =>
    simp only [exec, Except.ok.injEq] at h
    subst h
    split <;> exact .nil
  | applyTransition id gen move data now => cases h; exact .updateDelivery _ _ _ _
  | setContainerRef fence ref => cases h; exact .updateDelivery _ _ _ _
  | takeCheck fence seq nextDue => cases h; exact .updateDelivery _ _ _ _
  | setCheckDue fence seq due => cases h; exact .updateDelivery _ _ _ _
  | recordLateReceipt id receipt now => cases h; exact .updateDelivery _ _ _ _
  | setDirectCounts id counts => cases h; exact .updateDelivery _ _ _ _
  | requestCancel id now actor => cases h; exact .updateDelivery _ _ _ _
  | setRemotePublishAt fence at_ now => cases h; exact .updateDelivery _ _ _ _
  | stampNotified id now => cases h; exact .updateDelivery _ _ _ _
  | waitForCap fence resumeAt now => cases h; exact .updateDelivery _ _ _ _
  | lockDelivery owner id accounts =>
    simp only [exec, Except.ok.injEq] at h
    subst h
    split
    · split <;> exact .nil
    · exact .nil
  | bumpJobVersion job => cases h; exact .updateJob _ fun _ => rfl
  | setJobCancelled job now actor => cases h; exact .updateJob _ fun _ => rfl
  | setScheduledAt job at_ actor => cases h; exact .updateJob _ fun _ => rfl
  | updateJobStatus job status =>
    simp only [exec] at h
    split at h
    · rename_i j hj
      exact .storeJob (fun hslot => .update j (.setStatus status) hj rfl (.inr hslot) rfl) h
    · cases h
      exact .nil
  | insertJob id row =>
    simp only [exec] at h
    split at h
    · cases h
    · rename_i habsent
      split at h
      · cases h
      · rename_i howned
        exact .storeJob
          (fun hslot => .insert (by simpa using habsent) hslot (by simpa using howned) rfl) h
  | insertDelivery id owner job post account operation dueAt actor dbNow =>
    simp only [exec] at h
    split at h
    · cases h
    · rename_i habsent
      split at h
      · cases h
      · split at h
        · cases h
        · rename_i hfk
          cases h
          refine .single_delivery (.insert (by simpa using habsent) owner job post account
            operation dueAt actor dbNow ?_ rfl rfl)
          simp only [Bool.not_eq_true', Bool.not_eq_false, Bool.and_eq_true,
            Option.any_eq_true] at hfk
          obtain ⟨⟨⟨j, hj, -⟩, -⟩, -⟩ := hfk
          simp [hj]
  | updatePostStatus owner post version status job =>
    simp only [exec, Except.ok.injEq] at h
    subst h
    split
    · rename_i p hp
      split
      · exact .single_post (.refresh p _ hp rfl rfl)
      · exact .nil
    · exact .nil
  | bumpPostVersion post =>
    simp only [exec, Except.ok.injEq] at h
    subst h
    split
    · rename_i p hp
      exact .single_post (.edit p hp rfl rfl)
    · exact .nil
  | insertAttempt id delivery now =>
    simp only [exec] at h
    split at h
    · cases h
    · simp only [Except.ok.injEq] at h
      subst h
      split
      · exact ⟨by simp, by simp, by simp, by simp, by simp⟩
      · exact .nil
  | finishAttempt id outcome now =>
    simp only [exec, Except.ok.injEq] at h
    subst h
    split
    · exact ⟨by simp, by simp, by simp, by simp, by simp⟩
    · exact .nil
  | lockOwnJob owner job =>
    simp only [exec, Except.ok.injEq] at h
    subst h
    split <;> exact .nil
  | reschedulePending ids at_ now actor uploads =>
    cases h
    refine .updateDeliveries fun r hr => ?_
    obtain ⟨hfound, hp⟩ := mem_deliveriesWhere hr
    simp only [Bool.and_eq_true, decide_eq_true_eq] at hp
    exact ⟨hfound, hp.2⟩
  | lockOwnPost owner post =>
    simp only [exec, Except.ok.injEq] at h
    subst h
    split
    · split <;> exact .nil
    · exact .nil
  | overduePending now cutoff limit =>
    cases h
    refine .updateDeliveries fun r hr => ?_
    obtain ⟨hfound, hp⟩ := Table.mem_of_mem_selectFirst hr
    simp only [Bool.and_eq_true, decide_eq_true_eq] at hp
    exact ⟨hfound, hp.1.1.1.1, Option.isSome_of_any hp.1.1.1.2⟩
  | stalledChecks now cutoff limit =>
    cases h
    refine .updateDeliveries fun r hr => ?_
    obtain ⟨hfound, hp⟩ := Table.mem_of_mem_selectFirst hr
    simp only [Bool.and_eq_true, Bool.or_eq_true, decide_eq_true_eq, bne_iff_ne] at hp
    exact ⟨hfound, hp.1.1⟩
  | orphanedDirect now cutoff limit =>
    cases h
    refine .updateDeliveries fun r hr => ?_
    obtain ⟨hfound, hp⟩ := Table.mem_of_mem_selectFirst hr
    simp only [Bool.and_eq_true, decide_eq_true_eq] at hp
    exact ⟨hfound, hp.1.1.1.1.1.1.2⟩
  | lockDirectCounts id =>
    simp only [exec, Except.ok.injEq] at h
    subst h
    split <;> exact .nil
  | insertSends owner delivery audience =>
    cases h
    refine ⟨by simp, by simp, ?_, by simp, by simp⟩
    intro id row hmem
    rcases List.mem_append.mp hmem with hmem | hmem
    · obtain ⟨r, -, heq⟩ := List.mem_map.mp hmem
      cases heq
      exact .insert (Nat.le_add_right _ _) delivery r.1.1 r.1.2 rfl rfl
    · simp at hmem
  | shareProcessing id gen =>
    simp only [exec, Except.ok.injEq] at h
    subst h
    split
    · split <;> exact .nil
    · exact .nil
  | reserveUpTo key want limit => cases h; exact ⟨by simp, by simp, by simp, by simp, by simp⟩
  | releaseQuota key units =>
    simp only [exec, Except.ok.injEq] at h
    subst h
    split
    · exact ⟨by simp, by simp, by simp, by simp, by simp⟩
    · exact .nil
  | generateUuid => cases h; exact ⟨by simp, by simp, by simp, by simp, by simp⟩
  | leaseSends delivery batch now leaseUntil limit =>
    cases h
    refine .updateSends fun r hr => ?_
    obtain ⟨hfound, hp⟩ := Table.mem_of_mem_selectFirst hr
    simp only [Bool.and_eq_true, decide_eq_true_eq] at hp
    exact ⟨hfound, hp.1.1.2⟩
  | renewBatch delivery batch leaseUntil =>
    cases h
    refine .updateSends fun r hr => ?_
    obtain ⟨hfound, hp⟩ := mem_sendsWhere hr
    simp only [Bool.and_eq_true, decide_eq_true_eq] at hp
    exact ⟨hfound, hp.2⟩
  | recordSend id batch result now => cases h; exact .updateSend _ _
  | addSuppression owner hash => cases h; exact ⟨by simp, by simp, by simp, by simp, by simp⟩
  | lockDeliveryJob id =>
    simp only [exec, Except.ok.injEq] at h
    subst h
    split <;> exact .nil
  | requeueSend id batch => cases h; exact .updateSend _ _
  | releaseBatch delivery batch =>
    cases h
    refine .updateSends fun r hr => ?_
    obtain ⟨hfound, hp⟩ := mem_sendsWhere hr
    simp only [Bool.and_eq_true, decide_eq_true_eq] at hp
    exact ⟨hfound, hp.2⟩
  | cancelQueued delivery =>
    cases h
    refine .updateSends fun r hr => ?_
    obtain ⟨hfound, hp⟩ := mem_sendsWhere hr
    simp only [Bool.and_eq_true, decide_eq_true_eq] at hp
    exact ⟨hfound, hp.2⟩
  | _ => cases h; exact .nil

/-! ### The other tables -/

/-- Whether the statement may write a table other than deliveries, jobs, recipient rows and
posts. -/
def writesElsewhere : Sql β → Bool
  | insertAttempt .. | finishAttempt .. | insertSends .. | reserveUpTo .. | releaseQuota ..
  | generateUuid | addSuppression .. => true
  | _ => false

end Sql

/-- Whether what is written is a row of another table than deliveries, jobs, recipient rows and
posts. -/
def Write.isElsewhere : Write → Bool
  | delivery .. | job .. | send .. | post .. => false
  | _ => true

section Elsewhere

variable {w : Write} (hw : w.isElsewhere = true)

include hw

lemma Write.ne_delivery {id : DeliveryId} {row : Delivery} : w ≠ .delivery id row := by
  rintro rfl
  cases hw

lemma Write.ne_job {id : PublishJobId} {row : PublishJob} : w ≠ .job id row := by
  rintro rfl
  cases hw

lemma Write.ne_send {id : DirectSendId} {row : DirectSend} : w ≠ .send id row := by
  rintro rfl
  cases hw

lemma Write.ne_post {id : PostId} {row : Post} : w ≠ .post id row := by
  rintro rfl
  cases hw

end Elsewhere

namespace Sql

section Elsewhere

variable {w : Write} (hw : w.isElsewhere = true)

include hw

lemma elsewhere_not_mem_updateDelivery (id : DeliveryId) (u : DeliveryUpdate)
    (cond : Delivery → Bool) (ret : Delivery → β) :
    w ∉ (updateDelivery db id u cond ret).writes := by
  unfold updateDelivery
  repeat' split
  all_goals simp [read, Write.ne_delivery hw]

lemma elsewhere_not_mem_updateDeliveries (rows : List (DeliveryId × Delivery))
    (u : DeliveryUpdate) : w ∉ (updateDeliveries rows u).writes := by
  simp [updateDeliveries, (Write.ne_delivery hw).symm]

lemma elsewhere_not_mem_updateJob (id : PublishJobId) (u : JobUpdate) (ret : PublishJob → β) :
    w ∉ (updateJob db id u ret).writes := by
  unfold updateJob
  split <;> simp [read, Write.ne_job hw]

lemma elsewhere_not_mem_updateSends (rows : List (DirectSendId × DirectSend)) (u : SendUpdate) :
    w ∉ (updateSends rows u).writes := by
  simp [updateSends, (Write.ne_send hw).symm]

lemma elsewhere_not_mem_updateSend (id : DirectSendId) (u : SendUpdate) :
    w ∉ (updateSend db id u).writes := by
  unfold updateSend
  repeat' split
  all_goals simp [read, Write.ne_send hw]

lemma elsewhere_not_mem_storeJob {id : PublishJobId} {j : PublishJob} {result : β}
    {e : Effect β} (h : storeJob db id j result = .ok e) : w ∉ e.writes := by
  unfold storeJob at h
  split at h <;> cases h
  simp [Write.ne_job hw]

end Elsewhere

/-- The other statements write no other table. -/
lemma elsewhere_not_mem {s : Sql β} (hs : s.writesElsewhere = false) {e : Effect β}
    (h : s.exec free db = .ok e) {w : Write} (hw : w.isElsewhere = true) : w ∉ e.writes := by
  cases s with
  | updateJobStatus job status =>
    simp only [exec] at h
    split at h
    · exact elsewhere_not_mem_storeJob hw h
    · cases h
      simp [read]
  | insertJob id row =>
    simp only [exec] at h
    split_ifs at h
    exact elsewhere_not_mem_storeJob hw h
  | insertDelivery id owner job post account operation dueAt actor dbNow =>
    simp only [exec] at h
    split_ifs at h
    cases h
    simp [Write.ne_delivery hw]
  | insertAttempt | finishAttempt | insertSends | reserveUpTo | releaseQuota | generateUuid
  | addSuppression => cases hs
  | _ =>
    cases h
    first
      | exact elsewhere_not_mem_updateDelivery hw _ _ _ _
      | exact elsewhere_not_mem_updateDeliveries hw _ _
      | exact elsewhere_not_mem_updateJob hw _ _ _
      | exact elsewhere_not_mem_updateSends hw _ _
      | exact elsewhere_not_mem_updateSend hw _ _
      | exact List.not_mem_nil
      | (repeat' split
         all_goals simp [read, readLocking, Write.ne_post hw, elsewhere_not_mem_updateDelivery hw])

end Sql

end Postit.Data
