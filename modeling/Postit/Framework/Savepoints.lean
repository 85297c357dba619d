import Mathlib.Order.Basic

/-!
# Programs whose failures leave their traces

An `EStateM` program that fails has done what it did before; a savepoint takes that back.  A program
is `Atomic` when a failure leaves the state as it was: one that only reads is, one in a savepoint
is, and so is a reading followed by an atomic program.  What a success may change is a relation of
states, kept by sequencing and by loops when it composes.
-/

namespace Postit.Framework

variable {ε σ α β : Type}

section Runs

variable {p : EStateM ε σ α} {f : α → EStateM ε σ β} {s s' : σ} {a : α} {b : β} {e : ε}

lemma estate_bind_ok : (p >>= f) s = .ok b s' ↔
    ∃ a s₁, p s = .ok a s₁ ∧ f a s₁ = .ok b s' := by
  simp only [bind, EStateM.bind]
  cases p s with
  | error e s₁ => simp
  | ok a s₁ => exact ⟨fun h => ⟨a, s₁, rfl, h⟩, fun ⟨_, _, hp, h⟩ => by cases hp; exact h⟩

lemma estate_bind_error : (p >>= f) s = .error e s' ↔
    p s = .error e s' ∨ ∃ a s₁, p s = .ok a s₁ ∧ f a s₁ = .error e s' := by
  simp only [bind, EStateM.bind]
  cases p s with
  | error e s₁ => simp
  | ok a s₁ =>
    simp only [reduceCtorEq, false_or]
    exact ⟨fun h => ⟨a, s₁, rfl, h⟩, fun ⟨_, _, hp, h⟩ => by cases hp; exact h⟩

@[simp] lemma estate_pure {x : α} : (pure x : EStateM ε σ α) s = .ok x s := rfl

@[simp] lemma estate_throw : (throw e : EStateM ε σ α) s = .error e s := rfl

end Runs

/-- Runs the program; when it fails, what it did is undone. -/
def savepoint (p : EStateM ε σ α) : EStateM ε σ α := fun s =>
  match p s with
  | .ok a s' => .ok a s'
  | .error e _ => .error e s

lemma savepoint_ok {p : EStateM ε σ α} {s s' : σ} {a : α} :
    savepoint p s = .ok a s' ↔ p s = .ok a s' := by
  unfold savepoint
  cases p s <;> simp

/-- What a program reads of the state, or the reason it fails there. -/
def inspect (f : σ → Except ε α) : EStateM ε σ α := fun s =>
  match f s with
  | .ok a => .ok a s
  | .error e => .error e s

lemma inspect_ok {f : σ → Except ε α} {s s' : σ} {a : α} :
    inspect f s = .ok a s' ↔ f s = .ok a ∧ s' = s := by
  unfold inspect
  cases f s <;> simp [eq_comm]

/-- One change of the state, or the reason it is refused. -/
def update (f : σ → Except ε σ) : EStateM ε σ Unit := fun s =>
  match f s with
  | .ok s' => .ok () s'
  | .error e => .error e s

lemma update_ok {f : σ → Except ε σ} {s s' : σ} {u : Unit} :
    update f s = .ok u s' ↔ f s = .ok s' := by
  unfold update
  cases f s <;> simp

/-! ## Failures -/

/-- A failure leaves the state as it was. -/
def Atomic (p : EStateM ε σ α) : Prop := ∀ s e s', p s = .error e s' → s' = s

namespace Atomic

lemma savepoint (p : EStateM ε σ α) : Atomic (savepoint p) := by
  intro s e s' h
  unfold Framework.savepoint at h
  cases hp : p s with
  | ok a s₁ => simp [hp] at h
  | error e' s₁ =>
    rw [hp] at h
    cases h
    rfl

lemma inspect (f : σ → Except ε α) : Atomic (inspect f) := by
  intro s e s' h
  unfold Framework.inspect at h
  cases hf : f s <;> simp_all

lemma update (f : σ → Except ε σ) : Atomic (update f) := by
  intro s e s' h
  unfold Framework.update at h
  cases hf : f s <;> simp_all

lemma pure (a : α) : Atomic (pure a : EStateM ε σ α) := by
  intro s e s' h
  cases h

/-- What only read is not there to be undone. -/
lemma bind_of_reads {p : EStateM ε σ α} {k : α → EStateM ε σ β} (hp : Atomic p)
    (hread : ∀ s a s', p s = .ok a s' → s' = s) (hk : ∀ a, Atomic (k a)) : Atomic (p >>= k) := by
  intro s e s' h
  rcases estate_bind_error.1 h with hfail | ⟨a, s₁, hok, hrest⟩
  · exact hp s e s' hfail
  · obtain rfl := hread s a s₁ hok
    exact hk a _ e s' hrest

lemma inspect_bind {f : σ → Except ε α} {k : α → EStateM ε σ β} (hk : ∀ a, Atomic (k a)) :
    Atomic (Framework.inspect f >>= k) :=
  bind_of_reads (inspect f) (fun _ _ _ h => (inspect_ok.1 h).2) hk

/-- What cannot fail afterwards undoes nothing. -/
lemma bind_pure {p : EStateM ε σ α} (hp : Atomic p) (f : α → β) :
    Atomic (p >>= fun a => Pure.pure (f a)) := by
  intro s e s' h
  rcases estate_bind_error.1 h with hfail | ⟨a, s₁, -, hrest⟩
  · exact hp s e s' hfail
  · cases hrest

end Atomic

/-! ## Successes -/

/-- A success relates the states before and after it. -/
def Relates (R : σ → σ → Prop) (p : EStateM ε σ α) : Prop :=
  ∀ s a s', p s = .ok a s' → R s s'

namespace Relates

variable {R : σ → σ → Prop}

lemma bind (htrans : ∀ s t u, R s t → R t u → R s u) {p : EStateM ε σ α}
    {f : α → EStateM ε σ β} (hp : Relates R p) (hf : ∀ a, Relates R (f a)) :
    Relates R (p >>= f) := by
  intro s b s' h
  obtain ⟨a, s₁, h₁, h₂⟩ := estate_bind_ok.1 h
  exact htrans s s₁ s' (hp s a s₁ h₁) (hf a s₁ b s' h₂)

lemma forM (hrefl : ∀ s, R s s) (htrans : ∀ s t u, R s t → R t u → R s u)
    {f : α → EStateM ε σ PUnit} (hf : ∀ a, Relates R (f a)) (l : List α) :
    Relates R (l.forM f) := by
  induction l with
  | nil =>
    intro s a s' h
    cases h
    exact hrefl s
  | cons a l ih => exact bind htrans (hf a) fun _ => ih

end Relates

/-- A success leaves the state in `P`. -/
def Leaves (P : σ → Prop) (p : EStateM ε σ α) : Prop := ∀ s a s', p s = .ok a s' → P s'

namespace Leaves

variable {P : σ → Prop} {p : EStateM ε σ α} {f : α → EStateM ε σ β}

/-- Whatever was done before. -/
lemma after (hf : ∀ a, Leaves P (f a)) : Leaves P (p >>= f) := by
  intro s b s' h
  obtain ⟨a, s₁, -, h₂⟩ := estate_bind_ok.1 h
  exact hf a s₁ b s' h₂

/-- What is done afterwards keeps it. -/
lemma before (hp : Leaves P p) (hf : ∀ a, Relates (fun s s' => P s → P s') (f a)) :
    Leaves P (p >>= f) := by
  intro s b s' h
  obtain ⟨a, s₁, h₁, h₂⟩ := estate_bind_ok.1 h
  exact hf a s₁ b s' h₂ (hp s a s₁ h₁)

lemma savepoint (hp : Leaves P p) : Leaves P (savepoint p) :=
  fun s a s' h => hp s a s' (savepoint_ok.1 h)

end Leaves

/-! ## Both outcomes -/

/-- What holds of a run that succeeded, and of one that failed. -/
def Ends (r : EStateM.Result ε σ α) (Q : α → σ → Prop) (E : ε → σ → Prop) : Prop :=
  match r with
  | .ok a s => Q a s
  | .error e s => E e s

namespace Ends

variable {r : EStateM.Result ε σ α} {Q Q' : α → σ → Prop} {E E' : ε → σ → Prop}

lemma mono (h : Ends r Q E) (hQ : ∀ a s, Q a s → Q' a s) (hE : ∀ e s, E e s → E' e s) :
    Ends r Q' E' := by
  unfold Ends at *
  split at h
  · exact hQ _ _ h
  · exact hE _ _ h

lemma bind {p : EStateM ε σ α} {f : α → EStateM ε σ β} {R : β → σ → Prop} {s : σ}
    (hp : Ends (p s) Q E) (hf : ∀ a s', Q a s' → Ends (f a s') R E) : Ends ((p >>= f) s) R E := by
  simp only [Bind.bind, EStateM.bind]
  cases hrun : p s with
  | ok a s' =>
    rw [hrun] at hp
    exact hf a s' hp
  | error e s' =>
    rw [hrun] at hp
    exact hp

end Ends

end Postit.Framework
