import Postit.Data.Alone
import Postit.Data.Effects
import Postit.Data.Jobs

/-!
# What the locking reads see

The reads a user's action starts with: they change nothing, and what they return is what the
database holds.
-/

namespace Postit.Data

open Postit.Framework

variable {db db' : Db}

lemma OwnerScope.require_ok {scope : OwnerScope} {needed : Capability} {u : Unit}
    (h : Tx.run (scope.require needed) db = .ok (u, db')) : db' = db := by
  unfold require at h
  split at h
  · exact (Tx.run_done_ok.mp h).2
  · split at h
    · exact absurd h (by simp)
    · exact (Tx.run_guard_ok.mp h).2

/-- The loaded delivery is the database's row under its key, and spells its state. -/
structure Loaded.Reads (l : Loaded) (db : Db) : Prop where
  found : db.deliveries.lookup l.id = some l.row
  inState : DeliveryUpdate.InState l.row l.state

lemma load_ok {id : DeliveryId} {row : Delivery} {l : Loaded}
    (h : Tx.run (load id row) db = .ok (l, db')) :
    db' = db ∧ l.id = id ∧ l.row = row ∧ DeliveryUpdate.InState row l.state := by
  simp only [load, Tx.run_bind_ok, Tx.run_ofExcept_ok, Prog.pure_eq, Tx.run_done_ok] at h
  obtain ⟨state, _, ⟨hread, rfl⟩, rfl, rfl⟩ := h
  exact ⟨rfl, rfl, rfl, DeliveryUpdate.inState_iff.mpr hread⟩

lemma Sql.lockDelivery_ok {owner : UserId} {id : DeliveryId} {accounts : Option (List AccountId)}
    {row : Delivery} (h : Tx.run (sql (.lockDelivery owner id accounts)) db = .ok (some row, db')) :
    db' = db ∧ db.deliveries.lookup id = some row ∧ row.ownerId = owner := by
  simp only [Tx.run_sql_ok, Sql.exec, Except.ok.injEq, exists_eq_left'] at h
  cases hd : db.deliveries.lookup id with
  | none => simp [hd, Sql.read] at h
  | some d =>
    by_cases hc : d.ownerId = owner ∧ inFilter accounts d
    · simp only [hd, hc, and_self, if_true, Sql.readLocking, Db.storeAll_nil,
        Option.some.injEq] at h
      obtain ⟨rfl, rfl⟩ := h
      exact ⟨rfl, rfl, hc.1⟩
    · simp [hd, hc, Sql.read] at h

lemma lockOne_ok {scope : OwnerScope} {id : DeliveryId} {l : Loaded}
    (h : Tx.run (lockOne scope id) db = .ok (l, db')) :
    db' = db ∧ l.Reads db ∧ l.id = id ∧ l.row.ownerId = scope.owner := by
  simp only [lockOne, Tx.run_bind_ok, Tx.run_orFail_ok] at h
  obtain ⟨o, _, hsql, row, _, ⟨rfl, rfl⟩, hload⟩ := h
  obtain ⟨rfl, rfl, rfl, hstate⟩ := load_ok hload
  obtain ⟨rfl, hd, howner⟩ := Sql.lockDelivery_ok hsql
  exact ⟨rfl, ⟨hd, hstate⟩, rfl, howner⟩

/-- Loading each row of a list changes nothing, and loads the rows in order. -/
lemma each_load_ok : ∀ (rows : List (DeliveryId × Delivery)) {db db' : Db} {ls : List Loaded},
    Tx.run (Prog.each rows fun r => load r.1 r.2) db = .ok (ls, db') →
      db' = db ∧ ls.map (fun l => (l.id, l.row)) = rows ∧
        ∀ l ∈ ls, DeliveryUpdate.InState l.row l.state
  | [], _, _, ls, h => by
      obtain ⟨rfl, rfl⟩ := Tx.run_done_ok.mp h
      exact ⟨rfl, rfl, by simp⟩
  | r :: rows, _, _, ls, h => by
      simp only [Prog.each, Tx.run_bind_ok, Prog.pure_eq, Tx.run_done_ok] at h
      obtain ⟨l, _, hl, ls', _, hls, rfl, rfl⟩ := h
      obtain ⟨rfl, hid, hrow, hstate⟩ := load_ok hl
      obtain ⟨rfl, hmap, hstates⟩ := each_load_ok rows hls
      refine ⟨rfl, ?_, ?_⟩
      · rw [List.map_cons, hmap, hid, hrow]
      · rw [List.forall_mem_cons]
        exact ⟨hrow ▸ hstate, hstates⟩

/-- The loaded deliveries are all the job's deliveries. -/
structure LoadsJob (ls : List Loaded) (job : PublishJobId) (db : Db) : Prop where
  reads : ∀ l ∈ ls, l.Reads db ∧ l.row.jobId = job
  all : ∀ id d, db.deliveries.lookup id = some d → d.jobId = job →
    ∃ l ∈ ls, l.id = id ∧ l.row = d

lemma lockJobDeliveries_ok {job : PublishJobId} {ls : List Loaded}
    (h : Tx.run (lockJobDeliveries job) db = .ok (ls, db')) : db' = db ∧ LoadsJob ls job db := by
  simp only [lockJobDeliveries, Tx.run_bind_ok, Tx.run_sql_ok, Sql.exec, Sql.readLocking,
    Except.ok.injEq, exists_eq_left', Db.storeAll_nil] at h
  obtain ⟨rows, _, ⟨rfl, rfl⟩, hload⟩ := h
  obtain ⟨rfl, hmap, hstates⟩ := each_load_ok _ hload
  refine ⟨rfl, ⟨fun l hl => ?_, fun id d hd hjob => ?_⟩⟩
  · have hmem : (l.id, l.row) ∈ Sql.deliveriesWhere db' fun _ d => decide (d.jobId = job) :=
      hmap ▸ List.mem_map_of_mem hl
    obtain ⟨hfound, hjob⟩ := Sql.mem_deliveriesWhere hmem
    exact ⟨⟨hfound, hstates l hl⟩, by simpa using hjob⟩
  · have hmem : (id, d) ∈ Sql.deliveriesWhere db' fun _ d => decide (d.jobId = job) :=
      (List.mem_insertionSort _).mpr (Table.mem_select.mpr ⟨hd, by simpa using hjob⟩)
    rw [← hmap] at hmem
    obtain ⟨l, hl, heq⟩ := List.mem_map.mp hmem
    cases heq
    exact ⟨l, hl, rfl, rfl⟩

lemma JobRepo.lockVisibleJob_ok {scope : OwnerScope} {job : PublishJobId} {ls : List Loaded}
    (h : Tx.run (lockVisibleJob scope job) db = .ok (ls, db')) :
    db' = db ∧ LoadsJob ls job db ∧ (∀ l ∈ openOnes ls, scope.allowsAccount l.row.accountId) ∧
      ∃ j, db.jobs.lookup job = some j ∧ j.ownerId = scope.owner := by
  simp only [lockVisibleJob, Tx.run_bind_ok, Tx.run_guard_ok, Prog.pure_eq, Tx.run_done_ok] at h
  obtain ⟨own, _, hown, _, _, ⟨rfl, rfl⟩, ls', _, hlock, own', _, hown', _, _, ⟨rfl, rfl⟩, _, _,
    ⟨-, rfl⟩, _, _, ⟨hscope, rfl⟩, rfl, rfl⟩ := h
  simp only [Tx.run_sql_ok, Sql.exec, Sql.read, Except.ok.injEq, exists_eq_left',
    Db.storeAll_nil] at hown
  obtain ⟨hj, rfl⟩ := hown
  obtain ⟨rfl, hloads⟩ := lockJobDeliveries_ok hlock
  simp only [Tx.run_sql_ok, Sql.exec, Except.ok.injEq, exists_eq_left', ← hj, if_true,
    Sql.readLocking, Db.storeAll_nil] at hown'
  obtain ⟨-, rfl⟩ := hown'
  obtain ⟨j, hj, hj'⟩ := (Option.any_eq_true _ _).mp hj.symm
  refine ⟨rfl, hloads, fun l hl => ?_, j, hj, by simpa using hj'⟩
  obtain ⟨hmem, hopen⟩ := List.mem_filter.mp hl
  have hterminal : l.state.isTerminal = false := by simpa using hopen
  simpa [hterminal] using List.all_eq_true.mp hscope l hmem

/-- The pending deliveries among the loaded ones, as a reschedule picks them. -/
def JobRepo.pendingRows (db : Db) (ls : List Loaded) : List (DeliveryId × Delivery) :=
  let ids := ((openOnes ls).filter fun d => d.state = .pending).map (·.id)
  Sql.deliveriesWhere db fun id d => ids.contains id && d.state = .pending

/-- **What a reschedule does.**  It updates the pending rows of a job that was not cancelled, and
then the job. -/
lemma JobRepo.reschedulePendingWith_ok {scope : OwnerScope} {id : PublishJobId} {at_ now : Time}
    {uploadNow : List AccountId} {result : Rescheduled}
    (h : Tx.run (reschedulePendingWith scope id at_ now uploadNow) db = .ok (result, db')) :
    ∃ ls j change, LoadsJob ls id db ∧ db.jobs.lookup id = some j ∧ j.cancelledAt = none ∧
      (∀ l ∈ openOnes ls, scope.allowsAccount l.row.accountId ∧
        (l.state = .pending ∨ l.state = .processing ∧ l.row.remotePublishAt.isSome)) ∧
      result.dispatches = (Sql.updateDeliveries (pendingRows db ls)
        (.reschedule at_ now scope.actor uploadNow)).result.map
          (fun r => ⟨r.1, r.2.dispatchGen, r.2.nextAttemptAt.getD at_⟩) ∧
      Tx.run (touchJob id now)
        ((db.storeAll (Sql.updateDeliveries (pendingRows db ls)
          (.reschedule at_ now scope.actor uploadNow)).writes).setJob id
            ((JobUpdate.setScheduledAt at_ scope.actor).set j)) = .ok (change, db') := by
  simp only [reschedulePendingWith, Tx.run_bind_ok] at h
  obtain ⟨_, db₁, hrequire, ls, db₂, hlock, o, db₃, hjob, j, db₄, hj, h⟩ := h
  obtain ⟨rfl, rfl⟩ := Tx.run_orFail_ok.mp hj
  simp only [Tx.run_sql_ok, Sql.exec, Sql.read, Except.ok.injEq, exists_eq_left',
    Db.storeAll_nil] at hjob
  obtain ⟨hjob, rfl⟩ := hjob
  obtain rfl := (OwnerScope.require_ok hrequire).symm
  obtain ⟨hdb₂, hloads, hscope, -⟩ := lockVisibleJob_ok hlock
  obtain rfl := hdb₂.symm
  cases hc : j.cancelledAt with
  | some t => simp [hc] at h
  | none =>
    simp only [hc, Option.isSome_none, Bool.false_eq_true, if_false, Tx.run_bind_ok,
      Tx.run_guard_ok, Prog.pure_eq, Tx.run_done_ok] at h
    obtain ⟨_, _, ⟨hguard, hdb₅⟩, rows, _, hrows, _, _, hset, change, _, htouch, rfl, rfl⟩ := h
    obtain rfl := hdb₅.symm
    simp only [Tx.run_sql_ok, Sql.exec, Except.ok.injEq, exists_eq_left'] at hrows hset
    obtain ⟨rfl, rfl⟩ := hrows
    obtain ⟨-, rfl⟩ := hset
    refine ⟨ls, j, change, hloads, hjob.symm, hc, ?_, rfl, ?_⟩
    · simp only [List.all_eq_true, Bool.or_eq_true, decide_eq_true_eq, Bool.and_eq_true] at hguard
      exact fun l hl => ⟨hscope l hl, hguard l hl⟩
    · obtain ⟨deliveries, hdb⟩ := Db.storeAll_deliveries
        (fun r => (DeliveryUpdate.reschedule at_ now scope.actor uploadNow).set r.2)
        (pendingRows db ls) db
      have hj' : (db.storeAll (Sql.updateDeliveries (pendingRows db ls)
          (.reschedule at_ now scope.actor uploadNow)).writes).jobs.lookup id = some j := by
        rw [Sql.updateDeliveries, hdb]
        exact hjob.symm
      rw [← htouch]
      simp only [Sql.updateJob, pendingRows, Sql.mapResult] at hj' ⊢
      rw [hj']
      rfl

/-- The post is locked only while no job of it is live. -/
lemma PostRepo.lockRow_ok {owner : UserId} {post : PostId} {expectedVersion : Option ℕ} {p : Post}
    (h : Tx.run (lockRow owner post expectedVersion) db = .ok (p, db')) :
    db' = db ∧ db.posts.lookup post = some p ∧ p.ownerId = owner ∧
      ∀ job j, db.jobs.lookup job = some j → j.postId = post → j.status.isLive = false := by
  simp only [lockRow, Tx.run_bind_ok, Tx.run_orFail_ok, Tx.run_guard_ok] at h
  obtain ⟨o, _, hlock, row, _, ⟨rfl, hdb₁⟩, _, _, ⟨-, hdb₂⟩, active, _, hactive, h⟩ := h
  subst hdb₁ hdb₂
  simp only [Tx.run_sql_ok, Sql.exec, Sql.read, Except.ok.injEq, exists_eq_left',
    Db.storeAll_nil] at hactive
  obtain ⟨hactive, rfl⟩ := hactive
  split at h
  · exact absurd h (by simp)
  · rename_i hidle
    obtain ⟨rfl, rfl⟩ := Tx.run_done_ok.mp h
    simp only [Tx.run_sql_ok, Sql.exec, Except.ok.injEq, exists_eq_left'] at hlock
    cases hp : db.posts.lookup post with
    | none => simp [hp, Sql.read] at hlock
    | some q =>
      by_cases howner : q.ownerId = owner
      · simp only [hp, howner, if_true, Sql.readLocking, Db.storeAll_nil, Option.some.injEq] at hlock
        obtain ⟨rfl, rfl⟩ := hlock
        refine ⟨rfl, rfl, howner, fun job j hj hpost => ?_⟩
        rw [Bool.not_eq_true] at hidle
        rw [hidle] at hactive
        simpa [hpost] using Table.exists?_eq_false.mp hactive.symm job j hj
      · simp [hp, howner, Sql.read] at hlock

/-- An edit bumps the version of a post none of whose jobs is live. -/
lemma PostRepo.edit_ok {scope : OwnerScope} {post : PostId} {expectedVersion : Option ℕ} {u : Unit}
    (h : Tx.run (edit scope post expectedVersion) db = .ok (u, db')) :
    ∃ p, db.posts.lookup post = some p ∧
      (∀ job j, db.jobs.lookup job = some j → j.postId = post → j.status.isLive = false) ∧
      db' = { db with posts := db.posts.insert post { p with version := p.version + 1 } } := by
  simp only [edit, Tx.run_bind_ok] at h
  obtain ⟨_, db₁, hrequire, p, db₂, hlock, hbump⟩ := h
  obtain rfl := (OwnerScope.require_ok hrequire).symm
  obtain ⟨hdb₂, hp, -, hidle⟩ := lockRow_ok hlock
  obtain rfl := hdb₂.symm
  simp only [Tx.run_sql_ok, Sql.exec, hp, Except.ok.injEq, exists_eq_left'] at hbump
  obtain ⟨-, rfl⟩ := hbump
  exact ⟨p, hp, hidle, rfl⟩

/-- A job is created for the post as it is, while none of its jobs is live. -/
lemma JobRepo.create_ok {scope : OwnerScope} {post : PostId} {expectedVersion : Option ℕ}
    {new : NewJob} {dbNow now : Time} {dispatches : List Dispatch}
    (h : Tx.run (create scope post expectedVersion new dbNow now) db = .ok (dispatches, db')) :
    ∃ row, db.posts.lookup post = some row ∧
      Tx.run (insert scope.owner (some scope.actor) post row new dbNow now) db =
        .ok (dispatches, db') := by
  simp only [create, Tx.run_bind_ok, Tx.run_guard_ok] at h
  obtain ⟨row, db₁, hlock, _, db₂, hrequire, _, db₃, ⟨-, hdb₃⟩, hinsert⟩ := h
  obtain ⟨hdb₁, hrow, -, -⟩ := PostRepo.lockRow_ok hlock
  have hdb₂ := OwnerScope.require_ok hrequire
  rw [hdb₃, hdb₂, hdb₁] at hinsert
  exact ⟨row, hrow, hinsert⟩

lemma JobRepo.createForOccurrence_ok {owner : UserId} {post : PostId} {actor : Option UserId}
    {new : NewJob} {dbNow now : Time} {dispatches : List Dispatch}
    (h : Tx.run (createForOccurrence owner post actor new dbNow now) db = .ok (dispatches, db')) :
    ∃ row, db.posts.lookup post = some row ∧
      Tx.run (insert owner actor post row new dbNow now) db = .ok (dispatches, db') := by
  simp only [createForOccurrence, Tx.run_bind_ok] at h
  obtain ⟨row, db₁, hlock, hinsert⟩ := h
  obtain ⟨hdb₁, hrow, -, -⟩ := PostRepo.lockRow_ok hlock
  rw [hdb₁] at hinsert
  exact ⟨row, hrow, hinsert⟩

lemma Sql.selectJob_ok {job : PublishJobId} {o : Option PublishJob}
    (h : Tx.run (sql (.selectJob job)) db = .ok (o, db')) :
    db' = db ∧ o = db.jobs.lookup job := by
  simp only [Tx.run_sql_ok, Sql.exec, Sql.read, Except.ok.injEq, exists_eq_left',
    Db.storeAll_nil] at h
  exact ⟨h.2, h.1⟩

/-- A job that has ended is not brought back to life beside a live one. -/
lemma DeliveryRepo.refuseOtherLiveJob_ok {d : Loaded} {job : PublishJob} {u : Unit}
    (h : Tx.run (refuseOtherLiveJob d job) db = .ok (u, db')) :
    db' = db ∧ (job.status.isLive = true ∨ job.dryRun = true ∨
      Sql.otherLiveJob db d.row.postId d.row.jobId = false) := by
  unfold refuseOtherLiveJob at h
  split at h
  · simp only [Tx.run_bind_ok, Tx.run_sql_ok, Sql.exec, Sql.read, Sql.readLocking,
      Except.ok.injEq, exists_eq_left', Db.storeAll_nil] at h
    obtain ⟨_, _, ⟨-, rfl⟩, other, _, ⟨hother, rfl⟩, h⟩ := h
    split at h
    · exact absurd h (by simp)
    · rename_i hfree
      obtain ⟨-, rfl⟩ := Tx.run_done_ok.mp h
      refine ⟨rfl, .inr (.inr ?_)⟩
      rw [← hother]
      simpa using hfree
  · rename_i hcond
    obtain ⟨-, rfl⟩ := Tx.run_done_ok.mp h
    refine ⟨rfl, ?_⟩
    cases hlive : job.status.isLive with
    | true => exact .inl rfl
    | false => exact .inr (.inl (by simpa [hlive] using hcond))

lemma refuseMaterialized_ok {id : DeliveryId} {u : Unit}
    (h : Tx.run (refuseMaterialized id) db = .ok (u, db')) :
    db' = db ∧ db.sends.exists? (fun _ s => s.deliveryId = id) = false := by
  simp only [refuseMaterialized, Tx.run_bind_ok, Tx.run_sql_ok, Sql.exec, Sql.read,
    Except.ok.injEq, exists_eq_left', Db.storeAll_nil] at h
  obtain ⟨materialized, _, ⟨hmat, rfl⟩, h⟩ := h
  split at h
  · exact absurd h (by simp)
  · rename_i hfree
    obtain ⟨-, rfl⟩ := Tx.run_done_ok.mp h
    refine ⟨rfl, ?_⟩
    rw [← hmat]
    simpa using hfree

/-- **What a retry does.**  It applies `UserRetry` to the delivery as it is, in a job that was not
cancelled and is live already or finds no other live one. -/
lemma DeliveryRepo.retry_ok {scope : OwnerScope} {id : DeliveryId} {acknowledged : Bool}
    {now : Time} {dispatch : Dispatch}
    (h : Tx.run (retry scope id acknowledged now) db = .ok (dispatch, db')) :
    ∃ (l : Loaded) (j : PublishJob) (state : DeliveryState) (job : JobStatusChange) (db₁ : Db),
      l.Reads db ∧ l.id = id ∧ db.jobs.lookup l.row.jobId = some j ∧
      j.cancelledAt = none ∧
      (j.status.isLive = true ∨ j.dryRun = true ∨
        Sql.otherLiveJob db l.row.postId l.row.jobId = false) ∧
      (l.row.operation = .direct →
        db.sends.exists? (fun _ s => s.deliveryId = id) = false) ∧
      Tx.run (apply ⟨id, l.row.dispatchGen, l.state⟩ (.userRetry acknowledged)
        { resetAttempts := true, actor := some scope.actor } now) db =
          .ok (.done state (some dispatch) job, db₁) ∧
      ((l.row.operation ≠ .direct ∧ db' = db₁) ∨
        (l.row.operation = .direct ∧ Tx.run (forgetCounts id) db₁ = .ok ((), db'))) := by
  simp only [retry, Tx.run_bind_ok, Tx.run_orFail_ok] at h
  obtain ⟨_, db₁, hrequire, l, db₂, hlock, o, db₃, hjob, j, db₄, ⟨rfl, hdb₄⟩, h⟩ := h
  obtain rfl := (OwnerScope.require_ok hrequire).symm
  obtain ⟨hdb₂, hreads, hid, -⟩ := lockOne_ok hlock
  obtain rfl := hdb₂.symm
  obtain ⟨hdb₃, hj⟩ := Sql.selectJob_ok hjob
  obtain rfl := hdb₃.symm
  obtain rfl := hdb₄.symm
  cases hc : j.cancelledAt with
  | some t => simp [hc] at h
  | none =>
    simp only [hc, Option.isSome_none, Bool.false_eq_true, if_false, Tx.run_bind_ok] at h
    obtain ⟨_, db₅, hrefuse, h⟩ := h
    obtain ⟨hdb₅, hslot⟩ := refuseOtherLiveJob_ok hrefuse
    obtain rfl := hdb₅.symm
    by_cases hdirect : l.row.operation = .direct
    · simp only [hdirect, if_true, Tx.run_bind_ok] at h
      obtain ⟨_, db₆, hmat, applied, db₇, happly, h⟩ := h
      obtain ⟨hdb₆, hsends⟩ := refuseMaterialized_ok hmat
      obtain rfl := hdb₆.symm
      rcases applied with ⟨state, - | dispatch', job⟩ | -
      · exact absurd h (by simp)
      · simp only [Tx.run_bind_ok, Prog.pure_eq, Tx.run_done_ok] at h
        obtain ⟨_, _, hforget, rfl, rfl⟩ := h
        exact ⟨l, j, state, job, db₇, hreads, hid, hj.symm, hc, hslot, fun _ => hsends, happly,
          .inr ⟨hdirect, hforget⟩⟩
      · exact absurd h (by simp)
    · simp only [hdirect, if_false, Tx.run_bind_ok] at h
      obtain ⟨applied, db₇, happly, h⟩ := h
      rcases applied with ⟨state, - | dispatch', job⟩ | -
      · exact absurd h (by simp)
      · simp only [Prog.pure_eq, Tx.run_done_ok] at h
        obtain ⟨rfl, rfl⟩ := h
        exact ⟨l, j, state, job, db', hreads, hid, hj.symm, hc, hslot,
          fun hd => absurd hd hdirect, happly, .inl ⟨hdirect, rfl⟩⟩
      · exact absurd h (by simp)

end Postit.Data
