import Postit.Data.Effects
import Postit.Data.Plain

/-!
# The attempts of a delivery

An attempt's row keeps its delivery and its start, and only `AttemptRepo.start` adds one.  A
delivery's `starts` are when its attempts started.
-/

namespace Postit.Data

open Postit.Framework

/-- When the delivery's attempts started. -/
def Db.starts (db : Db) (id : DeliveryId) : List Time :=
  (db.attempts.select fun _ a => a.deliveryId = id).map (·.2.startedAt)

lemma Db.mem_starts {db : Db} {id : DeliveryId} {t : Time} :
    t ∈ db.starts id ↔
      ∃ k a, db.attempts.lookup k = some a ∧ a.deliveryId = id ∧ a.startedAt = t := by
  simp only [Db.starts, List.mem_map, Prod.exists, Table.mem_select, decide_eq_true_eq, and_assoc]

/-- The same attempts, of the same deliveries, started at the same times. -/
def SameStarts (db db' : Db) : Prop :=
  ∀ k, (db'.attempts.lookup k).map (fun a => (a.deliveryId, a.startedAt)) =
    (db.attempts.lookup k).map fun a => (a.deliveryId, a.startedAt)

namespace SameStarts

variable {db db' db'' : Db}

lemma refl (db : Db) : SameStarts db db := fun _ => rfl

lemma trans (h : SameStarts db db') (h' : SameStarts db' db'') : SameStarts db db'' :=
  fun k => (h' k).trans (h k)

lemma symm (h : SameStarts db db') : SameStarts db' db := fun k => (h k).symm

lemma of_mem_starts (h : SameStarts db db') {id : DeliveryId} {t : Time} (ht : t ∈ db.starts id) :
    t ∈ db'.starts id := by
  obtain ⟨k, a, ha, rfl, rfl⟩ := Db.mem_starts.1 ht
  have hsame := h k
  rw [ha, Option.map_some, Option.map_eq_some_iff] at hsame
  obtain ⟨a', ha', hcolumns⟩ := hsame
  rw [Prod.mk.injEq] at hcolumns
  exact Db.mem_starts.2 ⟨k, a', ha', hcolumns.1, hcolumns.2⟩

lemma mem_starts (h : SameStarts db db') {id : DeliveryId} {t : Time} :
    t ∈ db'.starts id ↔ t ∈ db.starts id :=
  ⟨h.symm.of_mem_starts, h.of_mem_starts⟩

end SameStarts

/-! ## Statements -/

/-- The attempt a write stores, if it stores one. -/
def Write.attempt? : Write → Option (DeliveryAttemptId × Attempt)
  | attempt id row => some (id, row)
  | _ => none

lemma Db.store_attempts (db : Db) (w : Write) : (db.store w).attempts =
    w.attempt?.elim db.attempts fun r => db.attempts.insert r.1 r.2 := by
  cases w <;> rfl

/-- Writes that keep the delivery and the start of each attempt. -/
lemma SameStarts.storeAll {db : Db} {ws : List Write}
    (h : ∀ k row, .attempt k row ∈ ws → ∃ a, db.attempts.lookup k = some a ∧
      row.deliveryId = a.deliveryId ∧ row.startedAt = a.startedAt) :
    SameStarts db (db.storeAll ws) := by
  intro k
  rcases Db.lookup_storeAll (·.attempts) Write.attempt? Db.store_attempts k ws db with
    ⟨w, hw, row, hrow, hlook⟩ | ⟨-, hlook⟩
  · cases w <;> cases hrow
    obtain ⟨a, ha, hdelivery, hstart⟩ := h _ _ hw
    rw [hlook, ha, Option.map_some, Option.map_some, hdelivery, hstart]
  · rw [hlook]

/-- Every other statement keeps the attempts. -/
lemma SameStarts.exec {β : Type} {s : Sql β} (hs : s.special? ≠ some .startsAttempt)
    {free : RowRef → Bool} {db : Db} {e : Effect β} (h : s.exec free db = .ok e) :
    SameStarts db (db.storeAll e.writes) := by
  cases hother : s.writesElsewhere with
  | false => exact .storeAll fun k row hmem => absurd hmem (Sql.elsewhere_not_mem hother h rfl)
  | true =>
    cases s with
    | insertAttempt => exact absurd rfl hs
    | finishAttempt id outcome now =>
      cases h
      refine .storeAll fun k row hmem => ?_
      cases ha : db.attempts.lookup id with
      | none => simp [ha, Sql.read] at hmem
      | some a =>
        simp only [ha, List.mem_singleton, Write.attempt.injEq] at hmem
        obtain ⟨rfl, rfl⟩ := hmem
        exact ⟨a, ha, rfl, rfl⟩
    | insertSends | reserveUpTo | releaseQuota | generateUuid | addSuppression =>
      cases h
      refine .storeAll fun k row hmem => absurd hmem ?_
      (repeat' split) <;> simp [Sql.read]
    | _ => cases hother

/-! ## Programs -/

lemma SameStarts.run {α : Type} {k : Option Special} (hk : k ≠ some .startsAttempt) {p : Tx α}
    (hp : p.Among k) {db db' : Db} {a : α} (h : Tx.run p db = .ok (a, db')) :
    SameStarts db db' := by
  induction p generalizing db with
  | done b =>
    obtain ⟨-, rfl⟩ := Tx.run_done_ok.mp h
    exact .refl _
  | fail e => exact absurd h (by simp)
  | act s next ih =>
    obtain ⟨b, db₁, hs, hnext⟩ :=
      Tx.run_bind_ok.mp (show Tx.run (sql s >>= next) db = .ok (a, db') from h)
    obtain ⟨e, he, -, rfl⟩ := Tx.run_sql_ok.mp hs
    have hspecial : s.special? ≠ some .startsAttempt := by
      rcases hp.1 with hplain | hsame
      · rw [hplain]
        nofun
      · rwa [hsame]
    exact (exec hspecial he).trans (ih b (hp.2 b) hnext)

/-- **Only the start of an attempt changes when attempts started.** -/
lemma OpStep.sameStarts {db db' : Db} {e : Event} (h : OpStep db e db')
    (he : e.special? ≠ some .startsAttempt) : SameStarts db db' := by
  cases h with
  | @did β op value _ h => exact .run he op.among_special h
  | failed => exact .refl _
  | wrotePost => exact fun _ => rfl
  | outside => exact fun _ => rfl

/-- An attempt that started is the delivery's newest row, and nothing else changed. -/
lemma AttemptRepo.start_ok {db db' : Db} {id : DeliveryAttemptId} {delivery : DeliveryId}
    {now : Time} {u : Unit} (h : Tx.run (AttemptRepo.start id delivery now) db = .ok (u, db')) :
    db.attempts.lookup id = none ∧ (db.deliveries.lookup delivery).isSome ∧
      db' = { db with attempts := db.attempts.insert id ⟨delivery, now, none, none⟩ } := by
  obtain ⟨inserted, db₁, hinsert, hguard⟩ := Tx.run_bind_ok.mp h
  obtain ⟨hinserted, rfl⟩ := Tx.run_guard_ok.mp hguard
  simp only [Tx.run_sql_ok, Sql.exec] at hinsert
  obtain ⟨e, he, rfl, rfl⟩ := hinsert
  split_ifs at he with hpresent
  obtain rfl := Except.ok.inj he
  cases hd : db.deliveries.lookup delivery with
  | none => simp [hd, Sql.read] at hinserted
  | some d =>
    simp only [Bool.not_eq_true, Option.isSome_eq_false_iff, Option.isNone_iff_eq_none] at hpresent
    exact ⟨hpresent, rfl, rfl⟩

/-- Its start is one more of the delivery's. -/
lemma AttemptRepo.mem_starts {db db' : Db} {id : DeliveryAttemptId} {delivery : DeliveryId}
    {now : Time} {u : Unit} (h : Tx.run (AttemptRepo.start id delivery now) db = .ok (u, db'))
    (key : DeliveryId) (t : Time) :
    t ∈ db'.starts key ↔ t ∈ db.starts key ∨ (key = delivery ∧ t = now) := by
  obtain ⟨habsent, -, rfl⟩ := start_ok h
  rw [Db.mem_starts, Db.mem_starts]
  constructor
  · rintro ⟨k, a, ha, rfl, rfl⟩
    by_cases hk : k = id
    · subst hk
      obtain rfl := Option.some.inj ((AList.lookup_insert _).symm.trans ha)
      exact .inr ⟨rfl, rfl⟩
    · exact .inl ⟨k, a, (AList.lookup_insert_ne hk).symm.trans ha, rfl, rfl⟩
  · rintro (⟨k, a, ha, rfl, rfl⟩ | ⟨rfl, rfl⟩)
    · have hk : k ≠ id := by
        rintro rfl
        rw [habsent] at ha
        cases ha
      exact ⟨k, a, (AList.lookup_insert_ne hk).trans ha, rfl, rfl⟩
    · exact ⟨id, _, AList.lookup_insert _, rfl, rfl⟩

end Postit.Data
