import Mathlib.Logic.Function.Basic
import Postit.Framework.Program
import Postit.Framework.Trace

/-!
# Transactions side by side

A database that programs run on side by side, each statement one atomic step.  A transaction keeps
what it writes to itself until it commits, and holds the rows it wrote or locked until it ends; a
statement runs only when what it is about to hold goes with what the others hold.  It reads the
committed rows under its own.

What every commit keeps is proved one transaction at a time, in the manner of rely and guarantee:
`Discipline.Rely held` is what the others may do to the committed database while a transaction
holds `held`, and `Discipline.Ready` what a transaction owes when it commits.  That the program of
a transaction reaches its commit ready is a weakest precondition (`Store.Safe`), with a move of the
others allowed before each statement; `Discipline.ready` puts the transactions together.
-/

namespace Postit.Framework

/-- How a row is held: with others (`FOR SHARE`), or alone (`FOR UPDATE` and every write). -/
inductive LockMode
  | share
  | update
  deriving DecidableEq, Repr

/-- What a statement answers, locks and writes. -/
structure Effect (ρ ω β : Type) where
  result : β
  locks : List (ρ × LockMode) := []
  writes : List ω := []

/-- What a transaction has written and what it holds. -/
structure Local (ρ ω : Type) where
  writes : List ω := []
  held : List (ρ × LockMode) := []

/-- Whether two transactions may hold these rows at once. -/
def Compatible {ρ : Type} (held held' : List (ρ × LockMode)) : Prop :=
  ∀ r m m', (r, m) ∈ held → (r, m') ∈ held' → m = .share ∧ m' = .share

lemma Compatible.symm {ρ : Type} {held held' : List (ρ × LockMode)} (h : Compatible held held') :
    Compatible held' held :=
  fun r m m' hm hm' => (h r m' m hm' hm).symm

/-- A row held alone is held by nobody else. -/
lemma Compatible.not_mem {ρ : Type} {held held' : List (ρ × LockMode)} (h : Compatible held held')
    {r : ρ} (hr : (r, .update) ∈ held') (m : LockMode) : (r, m) ∉ held := by
  intro hm
  cases (h r m .update hm hr).2

/-- What statements do to a database: `exec` says what one answers, locks and writes, passing over
the rows that are not free where it skips locked ones. -/
structure Store (E : Type → Type) (ε σ ρ ω : Type) where
  exec : ∀ {β : Type}, (ρ → Bool) → σ → E β → Except ε (Effect ρ ω β)
  put : σ → ω → σ
  ref : ω → ρ

variable {E : Type → Type} {ε σ ρ ω : Type} {α β : Type}

namespace Store

variable (S : Store E ε σ ρ ω)

/-- The rows a statement holds once it has run: those it locked and those it wrote. -/
def held (e : Effect ρ ω β) : List (ρ × LockMode) :=
  e.locks ++ e.writes.map fun w => (S.ref w, .update)

/-- The transaction after one more statement. -/
def after (l : Local ρ ω) (e : Effect ρ ω β) : Local ρ ω where
  writes := l.writes ++ e.writes
  held := l.held ++ S.held e

/-- The database as the transaction sees it: its own rows over the committed ones. -/
def view (l : Local ρ ω) (db : σ) : σ := l.writes.foldl S.put db

lemma view_after (l : Local ρ ω) (e : Effect ρ ω β) (db : σ) :
    S.view (S.after l e) db = e.writes.foldl S.put (S.view l db) :=
  List.foldl_append

end Store

/-- A transaction that is running: what is left of its program. -/
structure Session (E : Type → Type) (ε ρ ω : Type) where
  {α : Type}
  prog : Prog E ε α
  mine : Local ρ ω := {}

/-- The committed database and the transactions that are running. -/
structure World (E : Type → Type) (ε σ ρ ω : Type) where
  committed : σ
  sessions : ℕ → Option (Session E ε ρ ω) := fun _ => none

/-- What one step of the world is: which transaction started, ran a statement, committed or was
given up; or something else changed the database. -/
inductive Happening
  | started (i : ℕ)
  | ran (i : ℕ)
  | committed (i : ℕ)
  | aborted (i : ℕ)
  | environment

/-- One step of the world.  A transaction may be given up at any time: it failed, its connection
was lost, or the database chose it to break a deadlock. -/
inductive WorldStep (S : Store E ε σ ρ ω) (Start : σ → ∀ {α : Type}, Prog E ε α → Prop)
    (Env : σ → σ → Prop) (w : World E ε σ ρ ω) : Happening → World E ε σ ρ ω → Prop
  | started {i : ℕ} {α : Type} {p : Prog E ε α} (idle : w.sessions i = none)
      (hp : Start w.committed p) :
      WorldStep S Start Env w (.started i)
        { w with sessions := Function.update w.sessions i (some ⟨p, {}⟩) }
  | ran {i : ℕ} {α β : Type} {s : E β} {k : β → Prog E ε α} {l : Local ρ ω} {free : ρ → Bool}
      {e : Effect ρ ω β} (hi : w.sessions i = some ⟨.act s k, l⟩)
      (hfree : ∀ r, free r = true ↔
        ∀ j t, j ≠ i → w.sessions j = some t → ∀ m, (r, m) ∉ t.mine.held)
      (he : S.exec free (S.view l w.committed) s = .ok e)
      (hcompatible : ∀ j t, j ≠ i → w.sessions j = some t →
        Compatible (S.held e) t.mine.held) :
      WorldStep S Start Env w (.ran i)
        { w with sessions := Function.update w.sessions i (some ⟨k e.result, S.after l e⟩) }
  | committed {i : ℕ} {α : Type} {a : α} {l : Local ρ ω}
      (hi : w.sessions i = some ⟨.done a, l⟩) :
      WorldStep S Start Env w (.committed i)
        ⟨S.view l w.committed, Function.update w.sessions i none⟩
  | aborted {i : ℕ} {t : Session E ε ρ ω} (hi : w.sessions i = some t) :
      WorldStep S Start Env w (.aborted i)
        { w with sessions := Function.update w.sessions i none }
  | environment {db : σ} (h : Env w.committed db) :
      WorldStep S Start Env w .environment { w with committed := db }

/-! ## One transaction alone -/

/-- A statement when nobody else is there, its writes made at once. -/
def Store.alone (S : Store E ε σ ρ ω) (s : E β) (db : σ) : Except ε (β × σ) := do
  let e ← S.exec (fun _ => true) db s
  pure (e.result, e.writes.foldl S.put db)

/-- A program that succeeds alone is a run to its commit of the one session there is. -/
lemma Store.runs_alone (S : Store E ε σ ρ ω) {Start : σ → ∀ {α : Type}, Prog E ε α → Prop}
    {Env : σ → σ → Prop} (p : Prog E ε α) : ∀ {w : World E ε σ ρ ω} {i : ℕ} {l : Local ρ ω} {a : α}
    {db : σ}, (∀ j, j ≠ i → w.sessions j = none) → w.sessions i = some ⟨p, l⟩ →
      p.run S.alone (S.view l w.committed) = .ok (a, db) →
      ∃ ms, Run (WorldStep S Start Env) w ms ⟨db, Function.update w.sessions i none⟩ := by
  induction p with
  | done b =>
    intro w i l a db _ hi h
    cases h
    exact ⟨_, .single (.committed hi)⟩
  | fail e =>
    intro w i l a db _ _ h
    cases h
  | act s k ih =>
    intro w i l a db hothers hi h
    rw [Prog.run_act] at h
    unfold Store.alone at h
    cases he : S.exec (fun _ => true) (S.view l w.committed) s with
    | error err =>
      rw [he] at h
      cases h
    | ok e =>
      rw [he] at h
      have hnobody (j : ℕ) (t : Session E ε ρ ω) (hj : j ≠ i) (ht : w.sessions j = some t) :
          False := by
        rw [hothers j hj] at ht
        cases ht
      have hstep : WorldStep S Start Env w (.ran i)
          { w with sessions := Function.update w.sessions i (some ⟨k e.result, S.after l e⟩) } := by
        refine .ran hi (fun r => ⟨fun _ j t hj ht => (hnobody j t hj ht).elim, fun _ => rfl⟩) he ?_
        exact fun j t hj ht => (hnobody j t hj ht).elim
      have hrest : (k e.result).run S.alone (S.view (S.after l e) w.committed) = .ok (a, db) := by
        rw [S.view_after]
        exact h
      obtain ⟨ms, hrun⟩ := ih e.result
        (w := { w with sessions := Function.update w.sessions i (some ⟨_, S.after l e⟩) })
        (fun j hj => (Function.update_of_ne hj _ _).trans (hothers j hj))
        (Function.update_self i _ _) hrest
      rw [Function.update_idem] at hrun
      exact ⟨_, (Run.single hstep).append hrun⟩

/-! ## One transaction among others -/

namespace Store

variable (S : Store E ε σ ρ ω) (Rely : List (ρ × LockMode) → σ → σ → Prop)

/-- What must hold before a statement, with a move of the others before it. -/
def spec : Prog.Spec E (Local ρ ω × σ) := fun s Q st =>
  ∀ db, Rely st.1.held st.2 db → ∀ free e, S.exec free (S.view st.1 db) s = .ok e →
    Q e.result (S.after st.1 e, db)

lemma spec_mono : Prog.Spec.Mono (S.spec Rely) :=
  fun _ _ _ hQ _ h db hrely free e he => hQ _ _ (h db hrely free e he)

/-- The program, whatever the others do meanwhile, ends only where `Q` holds. -/
def Safe (p : Prog E ε α) (Q : α → Local ρ ω → σ → Prop) (l : Local ρ ω) (db : σ) : Prop :=
  p.wp (S.spec Rely) (fun _ _ => True) (fun a st => Q a st.1 st.2) (l, db)

variable {S Rely}

lemma Safe.mono {p : Prog E ε α} {Q Q' : α → Local ρ ω → σ → Prop} {l : Local ρ ω} {db : σ}
    (h : S.Safe Rely p Q l db) (hQ : ∀ a l db, Q a l db → Q' a l db) : S.Safe Rely p Q' l db :=
  Prog.wp_mono (S.spec_mono Rely) p (fun a st => hQ a st.1 st.2) _ h

/-- What is safe stays safe when the others move. -/
lemma Safe.stable {p : Prog E ε α} {Q : α → Local ρ ω → σ → Prop} {l : Local ρ ω} {db db' : σ}
    (h : S.Safe Rely p Q l db)
    (htrans : ∀ held db db' db'', Rely held db db' → Rely held db' db'' → Rely held db db'')
    (hQ : ∀ a l db db', Q a l db → Rely l.held db db' → Q a l db')
    (hrely : Rely l.held db db') : S.Safe Rely p Q l db' := by
  cases p with
  | done a => exact hQ a l db db' h hrely
  | fail e => trivial
  | act s k => exact fun db'' hrely' => h db'' (htrans _ _ _ _ hrely hrely')

/-- A precondition and a postcondition of a program among others. -/
def Triple (S : Store E ε σ ρ ω) (Rely : List (ρ × LockMode) → σ → σ → Prop)
    (P : Local ρ ω → σ → Prop) (p : Prog E ε α) (Q : α → Local ρ ω → σ → Prop) : Prop :=
  ∀ l db, P l db → S.Safe Rely p Q l db

variable {P : Local ρ ω → σ → Prop}

lemma Triple.done {Q : α → Local ρ ω → σ → Prop} {a : α} (h : ∀ l db, P l db → Q a l db) :
    Triple S Rely P (Prog.done a) Q := h

lemma Triple.fail {Q : α → Local ρ ω → σ → Prop} (e : ε) : Triple S Rely P (Prog.fail e) Q :=
  fun _ _ _ => trivial

lemma Triple.bind {Q : α → Local ρ ω → σ → Prop} {Q' : β → Local ρ ω → σ → Prop}
    {p : Prog E ε α} {f : α → Prog E ε β} (hp : Triple S Rely P p Q)
    (hf : ∀ a, Triple S Rely (Q a) (f a) Q') : Triple S Rely P (p >>= f) Q' := by
  intro l db hP
  unfold Safe
  rw [Prog.wp_bind]
  exact Prog.wp_mono (S.spec_mono Rely) p (fun a st hQ => hf a st.1 st.2 hQ) _ (hp l db hP)

lemma Triple.consequence {P' : Local ρ ω → σ → Prop} {Q Q' : α → Local ρ ω → σ → Prop}
    {p : Prog E ε α} (h : Triple S Rely P p Q) (hP : ∀ l db, P' l db → P l db)
    (hQ : ∀ a l db, Q a l db → Q' a l db) : Triple S Rely P' p Q' :=
  fun l db h' => (h l db (hP l db h')).mono hQ

/-- Two facts about one program. -/
lemma Triple.and {P' : Local ρ ω → σ → Prop} {Q Q' : α → Local ρ ω → σ → Prop}
    {p : Prog E ε α} (h : Triple S Rely P p Q) (h' : Triple S Rely P' p Q') :
    Triple S Rely (fun l db => P l db ∧ P' l db) p fun a l db => Q a l db ∧ Q' a l db := by
  have hwp : ∀ (p : Prog E ε α) l db, S.Safe Rely p Q l db → S.Safe Rely p Q' l db →
      S.Safe Rely p (fun a l db => Q a l db ∧ Q' a l db) l db := by
    intro p
    induction p with
    | done a => exact fun l db hQ hQ' => ⟨hQ, hQ'⟩
    | fail e => exact fun _ _ _ _ => trivial
    | act s k ih =>
      exact fun l db hQ hQ' db' hrely free e he =>
        ih _ _ _ (hQ db' hrely free e he) (hQ' db' hrely free e he)
  exact fun l db hP => hwp p l db (h l db hP.1) (h' l db hP.2)

lemma Triple.orFail (e : ε) (o : Option α) :
    Triple S Rely P (Prog.orFail e o) fun a l db => o = some a ∧ P l db := by
  cases o with
  | none => exact .fail e
  | some a => exact .done fun _ _ hP => ⟨rfl, hP⟩

lemma Triple.ofExcept {ε' : Type} (g : ε' → ε) (x : Except ε' α) :
    Triple S Rely P (Prog.ofExcept g x) fun a l db => x = .ok a ∧ P l db := by
  cases x with
  | error e => exact .fail _
  | ok a => exact .done fun _ _ hP => ⟨rfl, hP⟩

lemma Triple.guard (c : Bool) (e : ε) :
    Triple S Rely P (Prog.guard c e) fun _ l db => c = true ∧ P l db := by
  cases c with
  | false => exact .fail e
  | true => exact .done fun _ _ hP => ⟨rfl, hP⟩

lemma Triple.ite {c : Prop} [Decidable c] {Q : α → Local ρ ω → σ → Prop} {p q : Prog E ε α}
    (hp : c → Triple S Rely P p Q) (hq : ¬ c → Triple S Rely P q Q) :
    Triple S Rely P (if c then p else q) Q := by
  split
  · exact hp ‹c›
  · exact hq ‹¬ c›

/-- Nothing follows a program that gave up. -/
lemma Triple.fail_bind {Q : β → Local ρ ω → σ → Prop} (e : ε) (f : α → Prog E ε β) :
    Triple S Rely P (Prog.fail e >>= f) Q :=
  .fail e

/-- A fact that does not depend on the state comes out of the precondition. -/
lemma Triple.of_pure {φ : Prop} {Q : α → Local ρ ω → σ → Prop} {p : Prog E ε α}
    (h : φ → Triple S Rely P p Q) : Triple S Rely (fun l db => φ ∧ P l db) p Q :=
  fun l db hP => h hP.1 l db hP.2

/-- What every statement of a program keeps, whatever the others do, the program keeps. -/
lemma Triple.invariant {φ : ∀ {β : Type}, E β → Prop}
    (hstable : ∀ l db db', P l db → Rely l.held db db' → P l db')
    (h : ∀ {β : Type} (s : E β), φ s → ∀ l db, P l db → ∀ free e,
      S.exec free (S.view l db) s = .ok e → P (S.after l e) db)
    {p : Prog E ε α} (hp : p.Only φ) : Triple S Rely P p fun _ => P := by
  induction p with
  | done a => exact .done fun _ _ hP => hP
  | fail e => exact .fail e
  | act s k ih =>
    exact fun l db hP db' hrely free e he =>
      ih _ (hp.2 _) _ _ (h s hp.1 l db' (hstable l db db' hP hrely) free e he)

/-- One statement, from a condition that stays true when the others move. -/
lemma Triple.perform {Q : β → Local ρ ω → σ → Prop} {s : E β}
    (hstable : ∀ l db db', P l db → Rely l.held db db' → P l db')
    (h : ∀ l db, P l db → ∀ free e, S.exec free (S.view l db) s = .ok e →
      Q e.result (S.after l e) db) : Triple S Rely P (Prog.perform s) Q :=
  fun l db hP db' hrely => h l db' (hstable l db db' hP hrely)

/-- A loop, by an invariant indexed by what is left to do. -/
lemma Triple.each {I : List α → Local ρ ω → σ → Prop} {body : α → Prog E ε β}
    (hbody : ∀ a as, Triple S Rely (I (a :: as)) (body a) fun _ => I as) (as : List α) :
    Triple S Rely (I as) (Prog.each as body) fun _ => I [] := fun l db hI =>
  Prog.wp_each (S.spec_mono Rely) (fun as st => I as st.1 st.2) body
    (fun a as st => hbody a as st.1 st.2) as (l, db) hI

end Store

/-! ## All of them together -/

/-- Why transactions get along: what each may rely on, what each owes when it commits, and an
invariant of the committed database. -/
structure Discipline (S : Store E ε σ ρ ω) (Start : σ → ∀ {α : Type}, Prog E ε α → Prop)
    (Env : σ → σ → Prop) where
  Inv : σ → Prop
  Rely : List (ρ × LockMode) → σ → σ → Prop
  Ready : Local ρ ω → σ → Prop
  trans : ∀ held db db' db'', Rely held db db' → Rely held db' db'' → Rely held db db''
  stable : ∀ {l db db'}, Ready l db → Rely l.held db db' → Ready l db'
  start : ∀ {α : Type} {p : Prog E ε α} {db}, Start db p → Inv db →
    S.Safe Rely p (fun _ => Ready) {} db
  commit : ∀ {l db held}, Inv db → Ready l db → Compatible l.held held →
    Rely held db (S.view l db)
  environment : ∀ {db db' held}, Inv db → Env db db' → Rely held db db'
  inv : ∀ {db db'}, Inv db → Rely [] db db' → Inv db'
  refl : ∀ held db, Rely held db db

namespace Discipline

variable {S : Store E ε σ ρ ω} {Start : σ → ∀ {α : Type}, Prog E ε α → Prop} {Env : σ → σ → Prop}
  (D : Discipline S Start Env)

/-- What holds between the steps of the world. -/
structure Holds (w : World E ε σ ρ ω) : Prop where
  inv : D.Inv w.committed
  safe : ∀ i t, w.sessions i = some t →
    S.Safe D.Rely t.prog (fun _ => D.Ready) t.mine w.committed
  apart : ∀ i j t t', i ≠ j → w.sessions i = some t → w.sessions j = some t' →
    Compatible t.mine.held t'.mine.held

variable {D}

/-- A transaction that is through is ready. -/
lemma Holds.ready {w : World E ε σ ρ ω} (h : D.Holds w) {i : ℕ} {α : Type} {a : α}
    {l : Local ρ ω} (hi : w.sessions i = some ⟨.done a, l⟩) : D.Ready l w.committed :=
  h.safe i _ hi

/-- One session starts, moves on or ends. -/
lemma Holds.replace {w : World E ε σ ρ ω} (h : D.Holds w) {i : ℕ} {o : Option (Session E ε ρ ω)}
    (hsafe : ∀ t, o = some t → S.Safe D.Rely t.prog (fun _ => D.Ready) t.mine w.committed)
    (hapart : ∀ t, o = some t → ∀ j t', j ≠ i → w.sessions j = some t' →
      Compatible t.mine.held t'.mine.held) :
    D.Holds { w with sessions := Function.update w.sessions i o } := by
  have hcases {j : ℕ} {t : Session E ε ρ ω} (ht : Function.update w.sessions i o j = some t) :
      (j = i ∧ o = some t) ∨ (j ≠ i ∧ w.sessions j = some t) := by
    by_cases hj : j = i
    · subst hj
      rw [Function.update_self] at ht
      exact .inl ⟨rfl, ht⟩
    · rw [Function.update_of_ne hj] at ht
      exact .inr ⟨hj, ht⟩
  refine ⟨h.inv, fun j t ht => ?_, fun j k t t' hjk ht ht' => ?_⟩
  · rcases hcases ht with ⟨-, ho⟩ | ⟨-, ht⟩
    · exact hsafe t ho
    · exact h.safe j t ht
  · rcases hcases ht with ⟨hj, ho⟩ | ⟨hj, htj⟩ <;>
      rcases hcases ht' with ⟨hk, ho'⟩ | ⟨hk, htk⟩
    · exact absurd (hj.trans hk.symm) hjk
    · exact hapart t ho k t' hk htk
    · exact (hapart t' ho' j t hj htj).symm
    · exact h.apart j k t t' hjk htj htk

/-- The committed database moves as every session may rely on. -/
lemma Holds.move {w : World E ε σ ρ ω} (h : D.Holds w) {db : σ} (hinv : D.Rely [] w.committed db)
    (hrely : ∀ i t, w.sessions i = some t → D.Rely t.mine.held w.committed db) :
    D.Holds { w with committed := db } := by
  refine ⟨D.inv h.inv hinv, fun i t ht => ?_, h.apart⟩
  refine (h.safe i t ht).stable D.trans ?_ (hrely i t ht)
  exact fun _ _ _ _ hready hmove => D.stable hready hmove

lemma Holds.step {w w' : World E ε σ ρ ω} {m : Happening} (hstep : WorldStep S Start Env w m w')
    (h : D.Holds w) : D.Holds w' := by
  cases hstep with
  | started idle hp =>
    refine h.replace (fun t ht => ?_) fun t ht j t' _ _ => ?_
    · obtain rfl := Option.some.inj ht
      exact D.start hp h.inv
    · obtain rfl := Option.some.inj ht
      intro r m m' hm
      cases hm
  | @ran i α β s k l free e hi hfree he hcompatible =>
    refine h.replace (fun t ht => ?_) fun t ht j t' hj ht' => ?_
    · obtain rfl := Option.some.inj ht
      exact h.safe i _ hi w.committed (D.refl _ _) free e he
    · obtain rfl := Option.some.inj ht
      intro r m m' hm hm'
      rcases List.mem_append.mp hm with hm | hm
      · exact h.apart i j _ t' hj.symm hi ht' r m m' hm hm'
      · exact hcompatible j t' hj ht' r m m' hm hm'
  | @committed i α a l hi =>
    have hready := h.ready hi
    have hgone : D.Holds { w with sessions := Function.update w.sessions i none } :=
      h.replace (fun t ht => by cases ht) fun t ht => by cases ht
    refine hgone.move (D.commit h.inv hready fun r m m' _ hm' => by cases hm') fun j t ht => ?_
    have hj : j ≠ i := by
      rintro rfl
      exact absurd ht (by simp)
    have ht' : w.sessions j = some t := (Function.update_of_ne hj _ _).symm.trans ht
    exact D.commit h.inv hready (h.apart i j _ t hj.symm hi ht')
  | aborted hi => exact h.replace (fun t ht => by cases ht) fun t ht => by cases ht
  | environment hdb =>
    exact h.move (D.environment h.inv hdb) fun _ _ _ => D.environment h.inv hdb

/-- A step changes the committed database as anybody may rely on. -/
lemma Holds.rely {w w' : World E ε σ ρ ω} {m : Happening} (h : D.Holds w)
    (hstep : WorldStep S Start Env w m w') : D.Rely [] w.committed w'.committed := by
  cases hstep with
  | started idle hp => exact D.refl _ _
  | ran hi hfree he hcompatible => exact D.refl _ _
  | committed hi => exact D.commit h.inv (h.ready hi) fun r m m' _ hm' => by cases hm'
  | aborted hi => exact D.refl _ _
  | environment hdb => exact D.environment h.inv hdb

/-- **Every run.**  From a database that satisfies the invariant, with no transaction running, the
invariant holds in every world reached and every transaction that commits is ready. -/
theorem holds_of_run {w₀ w : World E ε σ ρ ω} {ms : List Happening}
    (hrun : Run (WorldStep S Start Env) w₀ ms w) (hidle : ∀ i, w₀.sessions i = none)
    (hinv : D.Inv w₀.committed) : D.Holds w := by
  refine hrun.invariant (fun hstep h => h.step hstep) ⟨hinv, fun i t ht => ?_, ?_⟩
  · rw [hidle i] at ht
    cases ht
  · intro i j t t' _ ht
    rw [hidle i] at ht
    cases ht

end Discipline

end Postit.Framework
