import Mathlib.Data.List.Perm.Basic

/-!
# Computations that may fail

What a successful computation was made of, and loops whose steps may be taken in any order.
-/

namespace Postit.Framework

variable {ε α β : Type}

lemma bind_eq_ok {x : Except ε α} {f : α → Except ε β} {b : β} (h : (x >>= f) = .ok b) :
    ∃ a, x = .ok a ∧ f a = .ok b := by
  cases x with
  | error e => cases h
  | ok a => exact ⟨a, rfl, h⟩

lemma bind_eq_error {x : Except ε α} {f : α → Except ε β} {e : ε} (h : (x >>= f) = .error e) :
    x = .error e ∨ ∃ a, x = .ok a ∧ f a = .error e := by
  cases x with
  | error e' => exact .inl (congrArg Except.error (Except.error.inj h))
  | ok a => exact .inr ⟨a, rfl, h⟩

lemma map_eq_ok {x : Except ε α} {f : α → β} {b : β} (h : x.map f = .ok b) :
    ∃ a, x = .ok a ∧ f a = b := by
  cases x with
  | error e => cases h
  | ok a => exact ⟨a, rfl, Except.ok.inj h⟩

lemma mapError_eq_ok {ε' : Type} {x : Except ε α} {f : ε → ε'} {a : α}
    (h : x.mapError f = .ok a) : x = .ok a := by
  cases x with
  | error e => cases h
  | ok b => exact congrArg Except.ok (Except.ok.inj h)

lemma ok_of_toOption {x : Except ε α} {a : α} (h : x.toOption = some a) : x = .ok a := by
  cases x with
  | error e => cases h
  | ok a' => exact congrArg Except.ok (Option.some.inj h)

/-- Whether a loop succeeds, and with what, as a loop over options. -/
lemma toOption_foldlM (f : β → α → Except ε β) (l : List α) (b : β) :
    (l.foldlM f b).toOption =
      l.foldl (fun o a => o.bind fun b => (f b a).toOption) (some b) := by
  induction l generalizing b with
  | nil => rfl
  | cons a l ih =>
    rw [List.foldlM_cons, List.foldl_cons, Option.bind_some]
    cases hb : f b a with
    | ok b' => exact ih b'
    | error e =>
      have hnone : ∀ l : List α,
          l.foldl (fun o a => o.bind fun b => (f b a).toOption) none = none := by
        intro l
        induction l with
        | nil => rfl
        | cons a l ih => exact ih
      exact (hnone l).symm

/-- A loop whose steps commute, up to their errors, may go over its list in any order. -/
lemma toOption_foldlM_perm {f : β → α → Except ε β}
    (hcomm : ∀ b a a', ((f b a).toOption.bind fun b' => (f b' a').toOption) =
      (f b a').toOption.bind fun b' => (f b' a).toOption)
    {l l' : List α} (h : l.Perm l') (b : β) :
    (l.foldlM f b).toOption = (l'.foldlM f b).toOption := by
  rw [toOption_foldlM, toOption_foldlM]
  have hright : RightCommutative fun (o : Option β) a => o.bind fun b => (f b a).toOption := by
    refine ⟨fun o a a' => ?_⟩
    cases o with
    | none => rfl
    | some b => exact hcomm b a a'
  exact h.foldl_eq _

end Postit.Framework
