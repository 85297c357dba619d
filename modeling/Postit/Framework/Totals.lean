import Mathlib.Algebra.Group.Int.Defs
import Mathlib.Algebra.GroupWithZero.Nat
import Postit.Framework.Table

/-!
# Totals of a table

The sum of a measure of the rows of a table, and how it changes with the rows.  The number of rows
that satisfy a condition is the total of its indicator.
-/

namespace Postit.Framework.Table

variable {κ ρ : Type} {f : ρ → ℕ} {t : Table κ ρ} {k : κ} {r : ρ}

/-- The sum of the measure over the rows. -/
def total (f : ρ → ℕ) (t : Table κ ρ) : ℕ := (t.entries.map fun e => f e.2).sum

@[simp] lemma total_empty : total f (∅ : Table κ ρ) = 0 := rfl

/-- The rows that satisfy a condition are counted by its indicator. -/
lemma length_select (t : Table κ ρ) (p : ρ → Bool) :
    (t.select fun _ r => p r).length = total (fun r => if p r then 1 else 0) t := by
  rw [select, ← List.countP_eq_length_filter, List.countP_map, total]
  induction t.entries with
  | nil => rfl
  | cons e l ih =>
    rw [List.countP_cons, ih, List.map_cons, List.sum_cons, Nat.add_comm]
    rfl

/-- A change that keeps the measure of each row it changes keeps the total. -/
lemma total_updateWhere {p : κ → ρ → Bool} {g : ρ → ρ} (h : ∀ r, f (g r) = f r) :
    total f (t.updateWhere p g) = total f t := by
  have hsame : ∀ e ∈ t.entries, f (if p e.1 e.2 then g e.2 else e.2) = f e.2 := by
    intro e _
    split_ifs
    · exact h e.2
    · rfl
  rw [total, updateWhere, List.map_map, total]
  exact congrArg List.sum (List.map_congr_left hsame)

variable [DecidableEq κ]

private lemma sum_kerase (l : List (Sigma fun _ : κ => ρ)) (k : κ) :
    ((l.kerase k).map fun e => f e.2).sum + ((l.dlookup k).map f).getD 0 =
      (l.map fun e => f e.2).sum := by
  induction l with
  | nil => rfl
  | cons e l ih =>
    obtain ⟨k', r⟩ := e
    by_cases hk : k = k'
    · subst hk
      simp [Nat.add_comm]
    · rw [List.kerase_cons_ne hk, List.dlookup_cons_ne l ⟨k', r⟩ hk, List.map_cons, List.map_cons,
        List.sum_cons, List.sum_cons, Nat.add_assoc, ih]

/-- A row counts from when it is inserted, and one that it replaces no more. -/
lemma total_insert (f : ρ → ℕ) (t : Table κ ρ) (k : κ) (r : ρ) :
    total f (t.insert k r) + ((t.lookup k).map f).getD 0 = total f t + f r := by
  rw [total, AList.entries_insert, List.map_cons, List.sum_cons, Nat.add_assoc, Nat.add_comm (f r)]
  exact congrArg (· + f r) (sum_kerase t.entries k)

lemma total_insert_of_none (h : t.lookup k = none) : total f (t.insert k r) = total f t + f r := by
  have hsum := total_insert f t k r
  rwa [h, Option.map_none, Option.getD_none, Nat.add_zero] at hsum

/-- A row in the place of one that counts for as much or more does not raise the total. -/
lemma total_insert_le {s : ρ} (h : t.lookup k = some s) (hle : f r ≤ f s) :
    total f (t.insert k r) ≤ total f t := by
  have hsum := total_insert f t k r
  rw [h, Option.map_some, Option.getD_some] at hsum
  omega

end Postit.Framework.Table
