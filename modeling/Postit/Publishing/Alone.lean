import Postit.Publishing.Parking

/-!
# What a handler does alone

The rules for a handler that runs while nothing else does: what its transactions and looks answer,
one after another, and that what each operation of its transactions keeps, the handler keeps
(`Handler.alone_keeps`).
-/

namespace Postit.Publishing

open Postit.Framework Postit.Data

/-! ## Transactions -/

section Scripts

variable {α β : Type} {s s' : Draft}

lemma Script.run_bind_ok {p : Script α} {f : α → Script β} {b : β} :
    Script.run (p >>= f) s = .ok (b, s') ↔
      ∃ a s₁, p.run s = .ok (a, s₁) ∧ (f a).run s₁ = .ok (b, s') := by
  unfold Script.run
  rw [Prog.run_bind]
  cases Prog.run Act.run p s with
  | error e => simp [bind, Except.bind]
  | ok r => simp [bind, Except.bind, Prod.ext_iff, eq_comm]

@[simp] lemma Script.run_done_ok {a a' : α} :
    Script.run (Prog.done a') s = .ok (a, s') ↔ a' = a ∧ s' = s := by
  simp only [Script.run, Prog.run_done, Except.ok.injEq, Prod.mk.injEq, and_congr_right_iff]
  exact fun _ => eq_comm

/-- An operation, in a transaction. -/
lemma Script.run_op_ok {o : Op β} {value : β} :
    Script.run (op o) s = .ok (value, s') ↔
      ∃ db, o.tx.run s.db = .ok (value, db) ∧ s' = ⟨db, s.record ++ [.did (.did o value)]⟩ := by
  simp only [Script.run, op, Prog.perform, Prog.run_act, Act.run]
  cases o.tx.run s.db with
  | error e => simp [bind, Except.bind]
  | ok r =>
    simp only [bind, Except.bind, Prog.run_done, Except.ok.injEq, Prod.ext_iff]
    constructor
    · rintro ⟨rfl, rfl⟩
      exact ⟨r.2, ⟨rfl, rfl⟩, rfl⟩
    · rintro ⟨db, ⟨rfl, rfl⟩, rfl⟩
      exact ⟨rfl, rfl⟩

@[simp] lemma Script.run_enqueue_ok {job : Job} {at_ : Time} {u : Unit} :
    Script.run (enqueue job at_) s = .ok (u, s') ↔
      s' = ⟨s.db, s.record ++ [.enqueued job at_]⟩ := by
  simp only [Script.run, enqueue, Prog.perform, Prog.run_act, Act.run, bind, Except.bind,
    Prog.run_done, Except.ok.injEq, Prod.mk.injEq, true_and]
  exact eq_comm

end Scripts

/-! ## Handlers -/

section Handlers

variable {s : Surroundings} {db db' : Db} {α β : Type}

lemma Handler.alone_bind_ok {p : Handler α} {f : α → Handler β} {b : β} :
    Handler.alone s (p >>= f) db = .ok (b, db') ↔
      ∃ a db₁, Handler.alone s p db = .ok (a, db₁) ∧
        Handler.alone s (f a) db₁ = .ok (b, db') := by
  unfold Handler.alone
  rw [Prog.run_bind]
  cases Prog.run (Call.alone s) p db with
  | error e => simp [bind, Except.bind]
  | ok r => simp [bind, Except.bind, Prod.ext_iff, eq_comm]

@[simp] lemma Handler.alone_done_ok {a a' : α} :
    Handler.alone s (Prog.done a') db = .ok (a, db') ↔ a' = a ∧ db' = db := by
  simp only [Handler.alone, Prog.run_done, Except.ok.injEq, Prod.mk.injEq, and_congr_right_iff]
  exact fun _ => eq_comm

@[simp] lemma Handler.alone_look_ok {q : Look β} {b : β} :
    Handler.alone s (look q) db = .ok (b, db') ↔ s.answer db q = b ∧ db' = db := by
  simp only [Handler.alone, look, Prog.perform, Prog.run_act, Call.alone, bind, Except.bind,
    Prog.run_done, Except.ok.injEq, Prod.mk.injEq, and_congr_right_iff]
  exact fun _ => eq_comm

/-- A transaction that committed. -/
lemma Handler.alone_commit_ok {script : Script α} {a : α} :
    Handler.alone s (commit script) db = .ok (a, db') ↔
      ∃ draft, script.run ⟨db, []⟩ = .ok (a, draft) ∧ db' = draft.db := by
  simp only [commit, alone_bind_ok]
  simp only [Handler.alone, Prog.perform, Prog.run_act, Call.alone]
  cases script.run ⟨db, []⟩ with
  | error e => simp [bind, Except.bind, orRetry]
  | ok r => simp [bind, Except.bind, orRetry, Prod.ext_iff, eq_comm]

/-- One operation as a transaction of its own. -/
lemma Handler.alone_call_ok {o : Op β} {value : β} :
    Handler.alone s (call o) db = .ok (value, db') ↔ o.tx.run db = .ok (value, db') := by
  simp only [call, alone_commit_ok, Script.run_op_ok]
  constructor
  · rintro ⟨_, ⟨db₁, h, rfl⟩, rfl⟩
    exact h
  · exact fun h => ⟨_, ⟨db', h, rfl⟩, rfl⟩

/-- A statement that only reads, as a call of its own. -/
lemma Handler.alone_call {o : Op β} {query : Sql β} {answer : β} (htx : o.tx = sql query)
    (hread : query.exec (fun _ => true) db = .ok (Sql.read answer)) :
    Handler.alone s (call o) db = .ok (answer, db) := by
  rw [alone_call_ok, htx]
  exact Tx.run_sql_ok.mpr ⟨_, hread, rfl, rfl⟩

end Handlers

/-! ## What handlers keep -/

/-- The operation, whatever it answers, keeps the property. -/
def Act.Keeps (I : Db → Prop) {β : Type} : Act β → Prop
  | .op o => ∀ {db db' : Db} {value : β}, o.tx.run db = .ok (value, db') → I db → I db'
  | .enqueue .. => True

/-- Every operation of the call's transaction keeps the property. -/
def Call.Keeps (I : Db → Prop) {β : Type} : Call β → Prop
  | .commit script => Prog.Only (fun a => a.Keeps I) script
  | _ => True

section Keeps

variable {I : Db → Prop} {α β : Type}

lemma Script.run_keeps {p : Script α} (hp : p.Only fun a => a.Keeps I) {s s' : Draft} {a : α}
    (h : p.run s = .ok (a, s')) (hI : I s.db) : I s'.db := by
  induction p generalizing s with
  | done b =>
    obtain ⟨-, rfl⟩ := run_done_ok.1 h
    exact hI
  | fail e => cases h
  | act e k ih =>
    obtain ⟨b, s₁, he, hk⟩ :=
      run_bind_ok.1 (show Script.run (Prog.perform e >>= k) s = .ok (a, s') from h)
    refine ih b (hp.2 b) hk ?_
    cases e with
    | op o =>
      obtain ⟨db, ho, rfl⟩ := run_op_ok.mp he
      exact hp.1 ho hI
    | enqueue job at_ =>
      obtain rfl := run_enqueue_ok.mp he
      exact hI

/-- **What every operation of its transactions keeps, a handler keeps.** -/
lemma Handler.alone_keeps {s : Surroundings} {p : Handler α} (hp : p.Only fun c => c.Keeps I)
    {db db' : Db} {a : α} (h : Handler.alone s p db = .ok (a, db')) (hI : I db) : I db' := by
  induction p generalizing db with
  | done b =>
    obtain ⟨-, rfl⟩ := alone_done_ok.mp h
    exact hI
  | fail e => cases h
  | act c k ih =>
    obtain ⟨b, db₁, hc, hk⟩ :=
      alone_bind_ok.mp (show Handler.alone s (Prog.perform c >>= k) db = .ok (a, db') from h)
    refine ih b (hp.2 b) hk ?_
    cases c with
    | commit script =>
      simp only [Handler.alone, Prog.perform, Prog.run_act, Call.alone, Prog.run_done] at hc
      cases hrun : script.run ⟨db, []⟩ with
      | error e =>
        rw [hrun] at hc
        cases hc
        exact hI
      | ok r =>
        rw [hrun] at hc
        cases hc
        exact Script.run_keeps hp.1 hrun hI
    | look q =>
      cases hc
      exact hI
    | inquire fence seq q =>
      cases hc
      exact hI

lemma Handler.keeps_orRetry {ε : Type} (x : Except ε α) :
    (orRetry x).Only fun c => c.Keeps I := by
  cases x <;> trivial

lemma Handler.keeps_look (q : Look β) : (look q).Only fun c => c.Keeps I :=
  Prog.only_perform trivial

lemma Handler.keeps_inquire (fence : Fence) (seq : ℕ) (q : Inquiry β) :
    (inquire fence seq q).Only fun c => c.Keeps I :=
  Prog.only_perform trivial

lemma Handler.keeps_commit {script : Script α} (h : script.Only fun a => a.Keeps I) :
    (commit script).Only fun c => c.Keeps I :=
  Prog.only_bind (Prog.only_perform h) fun x => keeps_orRetry x

lemma Script.keeps_op {o : Op β}
    (h : ∀ {db db' : Db} {value : β}, o.tx.run db = .ok (value, db') → I db → I db') :
    (op o).Only fun a => a.Keeps I :=
  Prog.only_perform h

lemma Script.keeps_enqueue (job : Job) (at_ : Time) :
    (enqueue job at_).Only fun a => a.Keeps I :=
  Prog.only_perform trivial

end Keeps

/-! ## Quiet surroundings -/

/-- Looks that find nothing. -/
def silentLook : ∀ {β : Type}, Look β → β
  | _, .now | _, .random | _, .generate => 0
  | _, .stopping => false
  | _, .availability _ => .error .other
  | _, .boundClient .. => .error .other
  | _, .reserveQuota _ => .ok .reserved
  | _, .revalidate _ => .error .notFound
  | _, .snapshotHasVariant _ => .ok false
  | _, .publish .. => .error .transport
  | _, .cause _ => .user
  | _, .message _ => .error .notFound
  | _, .emailDailyCap _ => .ok 0
  | _, .timezone _ => .ok "UTC"
  | _, .sendBatch .. => .error .transport

/-- A platform that cannot be asked. -/
def silentInquiry : ∀ {β : Type}, Inquiry β → β
  | _, .status _ => .error .transport
  | _, .reconcile .. => .error .transport

end Postit.Publishing
