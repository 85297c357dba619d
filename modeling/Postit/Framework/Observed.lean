import Postit.Framework.Trace

/-!
# Two runs side by side

What an observer learns of a state is compared over two runs that do the same: the states stay
alike, and the observer's events are the same in both.
-/

namespace Postit.Framework

variable {σ ε κ : Type*}

/-- **Two runs are alike to an observer**, where one step keeps alike states alike and an event that
the observer sees is the same in both. -/
theorem Run.observed {Step : σ → ε → σ → Prop} {R : σ → σ → Prop} (key : ε → κ) (sees : κ → Bool)
    (hstep : ∀ {s t s' t' e f}, R s t → Step s e s' → Step t f t' → key e = key f →
      R s' t' ∧ (sees (key e) = true → e = f))
    {s t s' t' : σ} {es fs : List ε} (hs : Run Step s es s') (ht : Run Step t fs t')
    (hkeys : es.map key = fs.map key) (h : R s t) :
    R s' t' ∧ es.filter (fun e => sees (key e)) = fs.filter fun e => sees (key e) := by
  induction hs generalizing fs t' with
  | nil =>
    obtain rfl : fs = [] := List.map_eq_nil_iff.mp hkeys.symm
    generalize hnil : ([] : List ε) = fs at ht
    cases ht with
    | nil => exact ⟨h, rfl⟩
    | snoc _ _ => simp at hnil
  | @snoc es u u' e run step ih =>
    cases ht with
    | nil => simp at hkeys
    | @snoc fs v v' f run' step' =>
      rw [List.map_append, List.map_append] at hkeys
      obtain ⟨hkeys, hkey⟩ := List.append_inj' hkeys rfl
      obtain ⟨huv, hsame⟩ := ih run' hkeys
      have hkey : key e = key f := List.singleton_inj.mp hkey
      obtain ⟨hnext, hevent⟩ := hstep huv step step' hkey
      refine ⟨hnext, ?_⟩
      rw [List.filter_append, List.filter_append, hsame]
      cases hsees : sees (key e) with
      | false => simp [hsees, ← hkey]
      | true => rw [hevent hsees]

end Postit.Framework
