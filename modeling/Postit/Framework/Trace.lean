import Mathlib.Order.Basic
import Mathlib.Data.List.Count
import Mathlib.Data.List.Induction

/-!
# Runs of a labelled transition system

A system is a relation `Step s e t`: from the state `s` it may go to `t`, doing `e`.  `Run`
strings steps together and keeps the list of what was done.  Two rules cover the results about
runs: an invariant is proved step by step (`Run.invariant`), and something happens at most once
in a run when it moves a quantity that never goes back across a fixed value
(`Run.countP_le_one`).
-/

namespace Postit.Framework

variable {σ ε : Type*}

/-- The system goes from `s` to `t` in some steps, doing the listed events in order. -/
inductive Run (Step : σ → ε → σ → Prop) (s : σ) : List ε → σ → Prop
  | nil : Run Step s [] s
  | snoc {es : List ε} {t u : σ} {e : ε} (run : Run Step s es t) (step : Step t e u) :
      Run Step s (es ++ [e]) u

namespace Run

variable {Step : σ → ε → σ → Prop} {s t u : σ} {es fs : List ε}

lemma single {e : ε} (h : Step s e t) : Run Step s [e] t := Run.nil.snoc h

lemma append (h : Run Step s es t) (h' : Run Step t fs u) : Run Step s (es ++ fs) u := by
  induction h' with
  | nil => rwa [List.append_nil]
  | snoc _ step ih => rw [← List.append_assoc]; exact ih.snoc step

/-- A run that ends with given events splits before them. -/
lemma of_append (h : Run Step s (es ++ fs) u) : ∃ t, Run Step s es t ∧ Run Step t fs u := by
  induction fs using List.reverseRecOn generalizing u with
  | nil => exact ⟨u, by rwa [List.append_nil] at h, .nil⟩
  | append_singleton fs e ih =>
    rw [← List.append_assoc] at h
    generalize hes : es ++ fs ++ [e] = all at h
    cases h with
    | nil => simp at hes
    | snoc run step =>
      obtain ⟨rfl, rfl⟩ := List.append_inj' hes rfl |>.imp id List.singleton_inj.mp
      obtain ⟨t, ht, hf⟩ := ih run
      exact ⟨t, ht, hf.snoc step⟩

lemma of_single {e : ε} (h : Run Step s [e] u) : Step s e u := by
  generalize hes : [e] = es at h
  cases h with
  | nil => cases hes
  | @snoc es t u e' run step =>
    obtain ⟨rfl, rfl⟩ : es = [] ∧ e' = e := by
      cases es with
      | nil => simpa using hes.symm
      | cons _ _ => simp at hes
    generalize hnil : ([] : List ε) = es at run
    cases run with
    | nil => exact step
    | snoc _ _ => simp at hnil

/-- A run splits at an event of it. -/
lemma of_middle {e : ε} (h : Run Step s (es ++ e :: fs) u) :
    ∃ t t', Run Step s es t ∧ Step t e t' ∧ Run Step t' fs u := by
  obtain ⟨t, hbefore, h⟩ := h.of_append
  rw [← List.singleton_append] at h
  obtain ⟨t', hone, hafter⟩ := h.of_append
  exact ⟨t, t', hbefore, hone.of_single, hafter⟩

/-- A run of some of a system's steps is a run of the system. -/
lemma mono {Step' : σ → ε → σ → Prop} (hstep : ∀ {s e t}, Step s e t → Step' s e t)
    (h : Run Step s es t) : Run Step' s es t := by
  induction h with
  | nil => exact .nil
  | snoc _ step ih => exact ih.snoc (hstep step)

/-- The steps of a partial function, one after the other, are a run. -/
lemma of_foldlM {f : σ → ε → Option σ} (hf : ∀ {s e t}, f s e = some t → Step s e t)
    (h : es.foldlM f s = some t) : Run Step s es t := by
  induction es generalizing s with
  | nil =>
    cases h
    exact .nil
  | cons e es ih =>
    rw [List.foldlM_cons] at h
    obtain ⟨u, hu, h⟩ := Option.bind_eq_some_iff.mp h
    exact (single (hf hu)).append (ih h)

/-- What every step keeps, every run keeps. -/
lemma invariant {I : σ → Prop} (hstep : ∀ {s e t}, Step s e t → I s → I t)
    (h : Run Step s es t) (hs : I s) : I t := by
  induction h with
  | nil => exact hs
  | snoc _ step ih => exact hstep step ih

/-- What every step relates, every run relates, for a relation that composes. -/
lemma relates {R : σ → σ → Prop} (hrefl : ∀ s, R s s) (htrans : ∀ {s t u}, R s t → R t u → R s u)
    (hstep : ∀ {s e t}, Step s e t → R s t) (h : Run Step s es t) : R s t := by
  induction h with
  | nil => exact hrefl s
  | snoc _ step ih => exact htrans ih (hstep step)

/-- **At most once.**  If a quantity never goes back, and every event of a kind finds it at most
`v` and leaves it beyond `v`, then a run has at most one event of that kind. -/
lemma countP_le_one {M : Type*} [Preorder M] (μ : σ → M) (v : M) (p : ε → Bool)
    (hmono : ∀ {s e t}, Step s e t → μ s ≤ μ t)
    (hp : ∀ {s e t}, Step s e t → p e = true → μ s ≤ v ∧ ¬ μ t ≤ v)
    (h : Run Step s es t) : es.countP p ≤ 1 := by
  -- Along the run: either none happened yet, or one did and the quantity is beyond `v`.
  have hinv : es.countP p = 0 ∨ (es.countP p = 1 ∧ ¬ μ t ≤ v) := by
    induction h with
    | nil => exact .inl rfl
    | @snoc es t u e _ step ih =>
      have hle := hmono step
      rw [List.countP_append, List.countP_singleton]
      cases he : p e with
      | false =>
        rcases ih with h0 | ⟨h1, hv⟩
        · exact .inl (by simp [h0])
        · exact .inr ⟨by simp [h1], fun hu => hv (hle.trans hu)⟩
      | true =>
        obtain ⟨hbefore, hafter⟩ := hp step he
        rcases ih with h0 | ⟨-, hv⟩
        · exact .inr ⟨by simp [h0], hafter⟩
        · exact absurd hbefore hv
  rcases hinv with h0 | ⟨h1, -⟩ <;> omega

end Run

end Postit.Framework
