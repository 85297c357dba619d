import Mathlib.Order.Basic

/-!
# Programs over a signature of actions

A `Prog E ε α` is a program that performs actions of the signature `E` one after another, each
action `E β` answered by a `β` the rest of the program depends on, and ends with a value or
gives up with an error.  What an action means is left open, so that one program can be read
in several ways: run alone against a state, or interleaved with others.

Reasoning is by weakest preconditions.  A `Spec E A` says for each action what must hold
before it (an assertion in `A`, a predicate on states) so that a given assertion holds after
it; `Prog.wp` folds it over a program.  The rules are the usual ones: `wp_bind` for
sequencing, `wp_mono` for consequence, and `wp_each` for a loop, by an invariant indexed by
what is left to do.
-/

namespace Postit.Framework

universe u v

/-- A program over the actions `E`, ending with an `α` or giving up with an `ε`. -/
inductive Prog (E : Type → Type u) (ε α : Type) : Type (max 1 u)
  | done (a : α)
  | fail (e : ε)
  | act {β : Type} (e : E β) (k : β → Prog E ε α)

namespace Prog

variable {E : Type → Type u} {ε α β γ : Type}

/-- Sequencing: an error of the first program ends both. -/
def bind : Prog E ε α → (α → Prog E ε β) → Prog E ε β
  | done a, f => f a
  | fail e, _ => fail e
  | act e k, f => act e fun b => (k b).bind f

instance : Monad (Prog E ε) where
  pure := done
  bind := bind

@[simp] lemma pure_eq (a : α) : (pure a : Prog E ε α) = done a := rfl

@[simp] lemma done_bind (a : α) (f : α → Prog E ε β) : (done a >>= f) = f a := rfl

@[simp] lemma fail_bind (e : ε) (f : α → Prog E ε β) : ((fail e : Prog E ε α) >>= f) = fail e :=
  rfl

@[simp] lemma act_bind (e : E γ) (k : γ → Prog E ε α) (f : α → Prog E ε β) :
    (act e k >>= f) = act e fun b => k b >>= f := rfl

/-- The program that performs one action. -/
def perform (e : E β) : Prog E ε β := act e done

/-- The value, or the error when there is none. -/
def orFail (e : ε) : Option α → Prog E ε α
  | some a => done a
  | none => fail e

/-- The value of a computation that may have failed, its error translated. -/
def ofExcept {ε' : Type} (f : ε' → ε) : Except ε' α → Prog E ε α
  | .ok a => done a
  | .error e => fail (f e)

/-- Gives up unless the condition holds. -/
def guard (c : Bool) (e : ε) : Prog E ε Unit := if c then done () else fail e

/-- The same program, with its errors translated. -/
def mapError {ε' : Type} (f : ε → ε') : Prog E ε α → Prog E ε' α
  | done a => done a
  | fail e => fail (f e)
  | act e k => act e fun b => (k b).mapError f

/-- Performs the body for each element in turn and collects what it returns. -/
def each : List α → (α → Prog E ε β) → Prog E ε (List β)
  | [], _ => done []
  | a :: as, body => do
      let b ← body a
      let bs ← each as body
      pure (b :: bs)

/-! ## Which actions a program performs -/

/-- Every action the program may perform satisfies `φ`. -/
def Only (φ : ∀ {β : Type}, E β → Prop) : Prog E ε α → Prop
  | done _ => True
  | fail _ => True
  | act e k => φ e ∧ ∀ b, (k b).Only φ

section Only

variable {φ : ∀ {β : Type}, E β → Prop}

lemma only_perform {e : E β} (h : φ e) : (perform e : Prog E ε β).Only φ := ⟨h, fun _ => trivial⟩

lemma only_bind {p : Prog E ε α} {f : α → Prog E ε β} (hp : p.Only φ) (hf : ∀ a, (f a).Only φ) :
    (p >>= f).Only φ := by
  induction p with
  | done a => exact hf a
  | fail e => trivial
  | act e k ih => exact ⟨hp.1, fun b => ih b (hp.2 b)⟩

lemma only_ite {c : Prop} [Decidable c] {p q : Prog E ε α} (hp : p.Only φ) (hq : q.Only φ) :
    (if c then p else q).Only φ := by
  split
  · exact hp
  · exact hq

lemma only_true (p : Prog E ε α) : p.Only fun _ => True := by
  induction p with
  | done a => trivial
  | fail e => trivial
  | act e k ih => exact ⟨trivial, ih⟩

/-- The first of two programs performs nothing else than both do. -/
lemma Only.of_bind {p : Prog E ε α} {f : α → Prog E ε β} (h : (p >>= f).Only φ) : p.Only φ := by
  induction p with
  | done a => trivial
  | fail e => trivial
  | act e k ih => exact ⟨h.1, fun b => ih b (h.2 b)⟩

/-- What each action satisfies may be weakened. -/
lemma Only.mono {ψ : ∀ {β : Type}, E β → Prop} {p : Prog E ε α} (hp : p.Only φ)
    (h : ∀ {β : Type} (e : E β), φ e → ψ e) : p.Only ψ := by
  induction p with
  | done a => trivial
  | fail e => trivial
  | act e k ih => exact ⟨h e hp.1, fun b => ih b (hp.2 b)⟩

lemma only_orFail (e : ε) (o : Option α) : (orFail e o : Prog E ε α).Only φ := by
  cases o <;> trivial

lemma only_ofExcept {ε' : Type} (g : ε' → ε) (x : Except ε' α) :
    (ofExcept g x : Prog E ε α).Only φ := by
  cases x <;> trivial

end Only

/-! ## Running alone -/

/-- Runs the program against a state, each action by `h`.  An action's error, or the
program's own, ends the run without a state: what it did is undone. -/
def run {σ : Type v} (h : ∀ {β : Type}, E β → σ → Except ε (β × σ)) :
    Prog E ε α → σ → Except ε (α × σ)
  | done a, s => .ok (a, s)
  | fail e, _ => .error e
  | act e k, s => do
      let (b, s') ← h e s
      (k b).run h s'

section Run

variable {σ : Type v} (h : ∀ {β : Type}, E β → σ → Except ε (β × σ))

@[simp] lemma run_done (a : α) (s : σ) : (done a : Prog E ε α).run h s = .ok (a, s) := rfl

@[simp] lemma run_fail (e : ε) (s : σ) : (fail e : Prog E ε α).run h s = .error e := rfl

lemma run_act (e : E β) (k : β → Prog E ε α) (s : σ) :
    (act e k).run h s = h e s >>= fun r => (k r.1).run h r.2 := rfl

lemma run_bind (p : Prog E ε α) (f : α → Prog E ε β) (s : σ) :
    (p >>= f).run h s = p.run h s >>= fun r => (f r.1).run h r.2 := by
  induction p generalizing s with
  | done a => rfl
  | fail e => rfl
  | act e k ih =>
    simp only [act_bind, run_act]
    cases h e s with
    | error err => rfl
    | ok r => exact ih r.1 r.2

/-- Neither does the second, from where the first ends. -/
lemma Only.of_run_bind {φ : ∀ {β : Type}, E β → Prop} {p : Prog E ε α} {f : α → Prog E ε β}
    (hp : (p >>= f).Only φ) {s t : σ} {a : α} (hrun : p.run h s = .ok (a, t)) :
    (f a).Only φ := by
  induction p generalizing s with
  | done b =>
    cases hrun
    exact hp
  | fail e => cases hrun
  | act e k ih =>
    rw [run_act] at hrun
    cases he : h e s with
    | error err => rw [he] at hrun; cases hrun
    | ok r =>
      rw [he] at hrun
      exact ih r.1 (hp.2 r.1) hrun

/-- What every action relates, a program relates, for a relation that composes. -/
lemma run_relates {R : σ → σ → Prop} (hrefl : ∀ s, R s s)
    (htrans : ∀ {s t u}, R s t → R t u → R s u)
    (hact : ∀ {β : Type} (e : E β) {s t : σ} {b : β}, h e s = .ok (b, t) → R s t)
    (p : Prog E ε α) : ∀ {s t : σ} {a : α}, p.run h s = .ok (a, t) → R s t := by
  induction p with
  | done a =>
    intro s t a' hp
    cases hp
    exact hrefl s
  | fail e => exact fun hp => by cases hp
  | act e k ih =>
    intro s t a hp
    rw [run_act] at hp
    cases he : h e s with
    | error err => rw [he] at hp; cases hp
    | ok r =>
      rw [he] at hp
      exact htrans (hact e he) (ih r.1 hp)

end Run

/-! ## Weakest preconditions -/

/-- What must hold before an action so that an assertion, which may depend on the answer,
holds after it. -/
abbrev Spec (E : Type → Type u) (S : Type v) := ∀ {β : Type}, E β → (β → S → Prop) → S → Prop

/-- An action's precondition grows with what is asked of it. -/
def Spec.Mono {S : Type v} (Φ : Spec E S) : Prop :=
  ∀ {β : Type} (e : E β) {Q Q' : β → S → Prop}, (∀ b s, Q b s → Q' b s) →
    ∀ s, Φ e Q s → Φ e Q' s

/-- What must hold before the program so that `Q` holds where it ends, and `F` where it
gives up. -/
def wp {S : Type v} (Φ : Spec E S) (F : ε → S → Prop) :
    Prog E ε α → (α → S → Prop) → S → Prop
  | done a, Q => Q a
  | fail e, _ => F e
  | act e k, Q => Φ e fun b => (k b).wp Φ F Q

section Wp

variable {S : Type v} {Φ : Spec E S} {F : ε → S → Prop} {Q Q' : α → S → Prop}

@[simp] lemma wp_done (a : α) (s : S) : (done a : Prog E ε α).wp Φ F Q s = Q a s := rfl

@[simp] lemma wp_fail (e : ε) (s : S) : (fail e : Prog E ε α).wp Φ F Q s = F e s := rfl

@[simp] lemma wp_act (e : E β) (k : β → Prog E ε α) (s : S) :
    (act e k).wp Φ F Q s = Φ e (fun b => (k b).wp Φ F Q) s := rfl

@[simp] lemma wp_perform {Q : β → S → Prop} (e : E β) (s : S) :
    (perform e : Prog E ε β).wp Φ F Q s = Φ e Q s := rfl

lemma wp_bind {Q : β → S → Prop} (p : Prog E ε α) (f : α → Prog E ε β) :
    (p >>= f).wp Φ F Q = p.wp Φ F fun a => (f a).wp Φ F Q := by
  induction p with
  | done a => rfl
  | fail e => rfl
  | act e k ih =>
    funext s
    simp only [act_bind, wp_act, ih]

/-- The rule of consequence. -/
lemma wp_mono (hΦ : Spec.Mono Φ) (p : Prog E ε α) (hQ : ∀ a s, Q a s → Q' a s) :
    ∀ s, p.wp Φ F Q s → p.wp Φ F Q' s := by
  induction p with
  | done a => exact hQ a
  | fail e => exact fun s hs => hs
  | act e k ih => exact hΦ e fun b s hs => ih b s hs

@[simp] lemma wp_orFail (e : ε) (o : Option α) (s : S) :
    (orFail e o : Prog E ε α).wp Φ F Q s ↔
      (∀ a, o = some a → Q a s) ∧ (o = none → F e s) := by
  cases o <;> simp [orFail]

@[simp] lemma wp_ofExcept {ε' : Type} (g : ε' → ε) (x : Except ε' α) (s : S) :
    (ofExcept g x : Prog E ε α).wp Φ F Q s ↔
      (∀ a, x = .ok a → Q a s) ∧ (∀ e, x = .error e → F (g e) s) := by
  cases x <;> simp [ofExcept]

@[simp] lemma wp_guard {Q : Unit → S → Prop} (c : Bool) (e : ε) (s : S) :
    (guard c e : Prog E ε Unit).wp Φ F Q s ↔ (c = true → Q () s) ∧ (c = false → F e s) := by
  cases c <;> simp [guard]

lemma wp_mapError {ε' : Type} {F' : ε' → S → Prop} (g : ε → ε') (p : Prog E ε α) :
    (p.mapError g).wp Φ F' Q = p.wp Φ (fun e => F' (g e)) Q := by
  induction p with
  | done a => rfl
  | fail e => rfl
  | act e k ih =>
    funext s
    simp only [mapError, wp_act, ih]

/-- The rule for a loop: an invariant indexed by what is left to do, kept by the body, holds
with nothing left when the loop ends. -/
lemma wp_each (hΦ : Spec.Mono Φ) (I : List α → S → Prop) (body : α → Prog E ε β)
    (hbody : ∀ a as s, I (a :: as) s → (body a).wp Φ F (fun _ => I as) s) :
    ∀ (as : List α) (s : S), I as s → (each as body).wp Φ F (fun _ => I []) s
  | [], _, hs => hs
  | a :: as, s, hs => by
      simp only [each, wp_bind]
      refine wp_mono hΦ _ (fun _ t ht => ?_) s (hbody a as s hs)
      refine wp_mono hΦ _ (fun _ _ h => h) t (wp_each hΦ I body hbody as t ht)

end Wp

end Prog

end Postit.Framework
