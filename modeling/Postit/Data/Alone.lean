import Postit.Data.Deliveries

/-!
# Transactions run alone

A transaction that runs alone stores what each statement writes at once, and every row is free.
`Tx.run` is that reading of a program, and `Tx.Ensures` its specification: what holds of the
result whenever the transaction succeeds.  A transaction that fails leaves the database as it
was, so a failure has nothing to ensure.

`Tx.Keeps` is the special case of an invariant, with one rule for each way to build a
program.
-/

namespace Postit.Data

open Postit.Framework

/-- Runs one statement alone. -/
def Sql.alone {β : Type} (s : Sql β) (db : Db) : Except DataError (β × Db) := do
  let e ← s.exec (fun _ => true) db
  pure (e.result, db.storeAll e.writes)

lemma Sql.alone_eq_ok {β : Type} {s : Sql β} {db db' : Db} {b : β}
    (h : s.alone db = .ok (b, db')) :
    ∃ e, s.exec (fun _ => true) db = .ok e ∧ b = e.result ∧ db' = db.storeAll e.writes := by
  unfold Sql.alone at h
  cases he : s.exec (fun _ => true) db with
  | error err => rw [he] at h; cases h
  | ok e =>
    rw [he] at h
    cases h
    exact ⟨e, rfl, rfl, rfl⟩

namespace Tx

variable {α β : Type}

/-- Runs a transaction alone: its value and the database it leaves, or its error. -/
def run (p : Tx α) (db : Db) : Except DataError (α × Db) := Prog.run Sql.alone p db

section Success

variable {db db' : Db} {a : α}

lemma run_bind_ok {p : Tx α} {f : α → Tx β} {b : β} :
    run (p >>= f) db = .ok (b, db') ↔
      ∃ a db₁, run p db = .ok (a, db₁) ∧ run (f a) db₁ = .ok (b, db') := by
  unfold run
  rw [Prog.run_bind]
  cases hp : Prog.run Sql.alone p db with
  | error e => simp [bind, Except.bind]
  | ok r => simp [bind, Except.bind, Prod.ext_iff, eq_comm]

lemma run_sql_ok {s : Sql α} :
    run (sql s) db = .ok (a, db') ↔
      ∃ e, s.exec (fun _ => true) db = .ok e ∧ a = e.result ∧ db' = db.storeAll e.writes := by
  unfold run sql Prog.perform Sql.alone
  rw [Prog.run_act]
  cases s.exec (fun _ => true) db with
  | error e => simp [bind, Except.bind]
  | ok e => simp [bind, Except.bind, pure, Except.pure, eq_comm]

@[simp] lemma run_done_ok {a' : α} :
    run (Prog.done a') db = .ok (a, db') ↔ a' = a ∧ db' = db := by
  simp only [run, Prog.run_done, Except.ok.injEq, Prod.mk.injEq, and_congr_right_iff]
  exact fun _ => eq_comm

@[simp] lemma run_fail_ok {e : DataError} :
    run (Prog.fail e : Tx α) db = .ok (a, db') ↔ False := by
  simp [run]

@[simp] lemma run_orFail_ok {e : DataError} {o : Option α} :
    run (Prog.orFail e o) db = .ok (a, db') ↔ o = some a ∧ db' = db := by
  cases o <;> simp [Prog.orFail]

@[simp] lemma run_ofExcept_ok {ε : Type} {g : ε → DataError} {x : Except ε α} :
    run (Prog.ofExcept g x) db = .ok (a, db') ↔ x = .ok a ∧ db' = db := by
  cases x <;> simp [Prog.ofExcept]

@[simp] lemma run_guard_ok {c : Bool} {e : DataError} {u : Unit} :
    run (Prog.guard c e) db = .ok (u, db') ↔ c = true ∧ db' = db := by
  cases c <;> simp [Prog.guard]

/-- **What a single-row update does.**  It changes the row it matches and returns what it reads
off it, or matches nothing and changes nothing. -/
lemma run_updateDelivery_ok {s : Sql (Option α)} {id : DeliveryId} {u : DeliveryUpdate}
    {cond : Delivery → Bool} {ret : Delivery → α} {o : Option α}
    (hs : s.exec (fun _ => true) db = .ok (Sql.updateDelivery db id u cond ret)) :
    run (sql s) db = .ok (o, db') ↔
      (∃ d, db.deliveries.lookup id = some d ∧ u.Applies d ∧ cond d = true ∧
        o = some (ret (u.set d)) ∧ db' = db.setDelivery id (u.set d)) ∨
      ((∀ d, db.deliveries.lookup id = some d → u.Applies d → cond d = false) ∧
        o = none ∧ db' = db) := by
  simp only [run_sql_ok, hs, Except.ok.injEq, exists_eq_left', Sql.updateDelivery]
  cases hd : db.deliveries.lookup id with
  | none => simp [Sql.read]
  | some d =>
    by_cases hc : u.Applies d ∧ cond d = true
    · simp [hc, Db.store]
    · have hno : u.Applies d → cond d = false := by
        intro ha
        simpa [ha] using hc
      have hnot (h : u.Applies d) : ¬ cond d = true := by simp [hno h]
      simp only [hc, if_false, Sql.read, Db.storeAll_nil, Option.some.injEq, forall_eq',
        exists_eq_left']
      constructor
      · rintro ⟨rfl, rfl⟩
        exact .inr ⟨hno, rfl, rfl⟩
      · rintro (⟨ha, hcd, -⟩ | ⟨-, rfl, rfl⟩)
        · exact absurd hcd (hnot ha)
        · exact ⟨rfl, rfl⟩

/-- An invariant indexed by what is left to do, kept by the body, holds with nothing left when the
loop ends. -/
lemma run_each_invariant {I : List α → Db → Prop} {body : α → Tx β}
    (hbody : ∀ {a as db db' b}, I (a :: as) db → run (body a) db = .ok (b, db') → I as db') :
    ∀ (as : List α) {db db' : Db} {bs : List β},
      run (Prog.each as body) db = .ok (bs, db') → I as db → I [] db'
  | [], db, db', bs, h, hI => by
      obtain ⟨-, rfl⟩ := run_done_ok.1 h
      exact hI
  | a :: as, db, db', bs, h, hI => by
      simp only [Prog.each, run_bind_ok, Prog.pure_eq, run_done_ok] at h
      obtain ⟨b, db₁, hb, bs', db₂, hbs, -, rfl⟩ := h
      exact run_each_invariant hbody as hbs (hbody hI hb)

/-- What the body relates for each element, the loop relates. -/
lemma run_each_relates {R : Db → Db → Prop} (hrefl : ∀ db, R db db)
    (htrans : ∀ {db₁ db₂ db₃}, R db₁ db₂ → R db₂ db₃ → R db₁ db₃) {body : α → Tx β} :
    ∀ (as : List α) {db db' : Db} {bs : List β},
      (∀ a ∈ as, ∀ {db db' b}, run (body a) db = .ok (b, db') → R db db') →
        run (Prog.each as body) db = .ok (bs, db') → R db db'
  | [], db, db', bs, _, h => by
      obtain ⟨-, rfl⟩ := run_done_ok.1 h
      exact hrefl db'
  | a :: as, db, db', bs, hbody, h => by
      simp only [Prog.each, run_bind_ok, Prog.pure_eq, run_done_ok] at h
      obtain ⟨b, db₁, hb, bs', db₂, hbs, -, rfl⟩ := h
      have hrest := run_each_relates hrefl htrans as
        (fun a' ha' => hbody a' (List.mem_cons_of_mem a ha')) hbs
      exact htrans (hbody a List.mem_cons_self hb) hrest

end Success

/-- Whenever the transaction succeeds on `db`, `Q` holds of its value and of the database it
leaves. -/
def Ensures (p : Tx α) (db : Db) (Q : α → Db → Prop) : Prop :=
  ∀ a db', run p db = .ok (a, db') → Q a db'

section Rules

variable {db : Db} {Q Q' : α → Db → Prop}

@[simp] lemma ensures_done (a : α) : Ensures (Prog.done a) db Q ↔ Q a db := by
  simp [Ensures, run]

@[simp] lemma ensures_fail (e : DataError) : Ensures (Prog.fail e : Tx α) db Q := by
  simp [Ensures, run]

lemma ensures_bind {Q : β → Db → Prop} (p : Tx α) (f : α → Tx β) :
    Ensures (p >>= f) db Q ↔ Ensures p db fun a db' => Ensures (f a) db' Q := by
  simp only [Ensures, run_bind_ok]
  constructor
  · exact fun h a db₁ hp b db₂ hf => h b db₂ ⟨a, db₁, hp, hf⟩
  · rintro h b db₂ ⟨a, db₁, hp, hf⟩
    exact h a db₁ hp b db₂ hf

lemma ensures_sql {Q : β → Db → Prop} (s : Sql β) :
    Ensures (sql s) db Q ↔
      ∀ e, s.exec (fun _ => true) db = .ok e → Q e.result (db.storeAll e.writes) := by
  simp only [Ensures, run_sql_ok]
  constructor
  · exact fun h e he => h _ _ ⟨e, he, rfl, rfl⟩
  · rintro h _ _ ⟨e, he, rfl, rfl⟩
    exact h e he

@[simp] lemma ensures_orFail (e : DataError) (o : Option α) :
    Ensures (Prog.orFail e o) db Q ↔ ∀ a, o = some a → Q a db := by
  cases o <;> simp [Prog.orFail]

@[simp] lemma ensures_ofExcept {ε : Type} (g : ε → DataError) (x : Except ε α) :
    Ensures (Prog.ofExcept g x) db Q ↔ ∀ a, x = .ok a → Q a db := by
  cases x <;> simp [Prog.ofExcept]

@[simp] lemma ensures_guard {Q : Unit → Db → Prop} (c : Bool) (e : DataError) :
    Ensures (Prog.guard c e) db Q ↔ (c = true → Q () db) := by
  cases c <;> simp [Prog.guard]

lemma Ensures.mono {p : Tx α} (h : Ensures p db Q) (hQ : ∀ a db', Q a db' → Q' a db') :
    Ensures p db Q' :=
  fun a db' hp => hQ a db' (h a db' hp)

lemma Ensures.and {p : Tx α} (h : Ensures p db Q) (h' : Ensures p db Q') :
    Ensures p db fun a db' => Q a db' ∧ Q' a db' :=
  fun a db' hp => ⟨h a db' hp, h' a db' hp⟩

end Rules

/-! ## Invariants -/

/-- The transaction keeps `I`. -/
def Keeps (I : Db → Prop) (p : Tx α) : Prop := ∀ db, I db → Ensures p db fun _ => I

section Keeps

variable {I : Db → Prop}

lemma Keeps.done (a : α) : Keeps I (Prog.done a) := fun _ hI => by simpa using hI

lemma Keeps.fail (e : DataError) : Keeps I (Prog.fail e : Tx α) := fun _ _ => by simp

lemma Keeps.bind {p : Tx α} {f : α → Tx β} (hp : Keeps I p) (hf : ∀ a, Keeps I (f a)) :
    Keeps I (p >>= f) := by
  intro db hI
  rw [ensures_bind]
  exact (hp db hI).mono fun a db' hI' => hf a db' hI'

lemma Keeps.each {body : α → Tx β} (as : List α) (h : ∀ a ∈ as, Keeps I (body a)) :
    Keeps I (Prog.each as body) := by
  induction as with
  | nil => exact Keeps.done _
  | cons a as ih =>
    refine Keeps.bind (h a (by simp)) fun b => Keeps.bind (ih fun a' ha' => h a' (by simp [ha'])) ?_
    exact fun bs => Keeps.done _

end Keeps

end Tx

end Postit.Data
