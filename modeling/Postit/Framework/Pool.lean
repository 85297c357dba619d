import Mathlib.Algebra.Order.Group.Multiset
import Mathlib.Tactic.Abel

/-!
# Pools of workers

A list in which each member goes on in its place and new members come in at the end, as requests
and background tasks do.  What a step keeps for the whole pool follows from what it keeps for the
member that takes it, once at most one member relies on what the step changes (`Alone`).
-/

namespace Postit.Framework

variable {α β : Type*} {pool : List α} {a b : α} {i j : ℕ}

lemma of_getElem?_set (h : (pool.set i a)[j]? = some b) :
    (j = i ∧ b = a) ∨ (j ≠ i ∧ pool[j]? = some b) := by
  rw [List.getElem?_set] at h
  by_cases hij : i = j
  · rw [if_pos hij] at h
    by_cases hi : i < pool.length
    · rw [if_pos hi] at h
      exact .inl ⟨hij.symm, (Option.some.inj h).symm⟩
    · rw [if_neg hi] at h
      cases h
  · rw [if_neg hij] at h
    exact .inr ⟨fun hji => hij hji.symm, h⟩

lemma of_getElem?_concat (h : (pool ++ [a])[j]? = some b) :
    (j = pool.length ∧ b = a) ∨ pool[j]? = some b := by
  rw [List.getElem?_append] at h
  by_cases hj : j < pool.length
  · rw [if_pos hj] at h
    exact .inr h
  · rw [if_neg hj, List.getElem?_singleton] at h
    by_cases hlast : j - pool.length = 0
    · rw [if_pos hlast] at h
      exact .inl ⟨by omega, (Option.some.inj h).symm⟩
    · rw [if_neg hlast] at h
      cases h

/-- What a member had is exchanged for what it has now. -/
lemma filterMap_set (h : pool[i]? = some a) (f : α → Option β) :
    (((pool.set i b).filterMap f : List β) : Multiset β) + ((f a).toList : Multiset β) =
      ((pool.filterMap f : List β) : Multiset β) + ((f b).toList : Multiset β) := by
  induction pool generalizing i with
  | nil => simp at h
  | cons c pool ih =>
    cases i with
    | zero =>
      obtain rfl : c = a := by simpa using h
      rw [List.set_cons_zero, List.filterMap_cons, List.filterMap_cons]
      cases hb : f b <;> cases hc : f c <;>
        simp only [Option.toList_none, Option.toList_some, Multiset.coe_nil, add_zero,
          ← Multiset.cons_coe, ← Multiset.singleton_add] <;>
        abel
    | succ i =>
      have ih := ih (i := i) (by simpa using h)
      rw [List.set_cons_succ, List.filterMap_cons, List.filterMap_cons]
      cases hc : f c with
      | none => simpa using ih
      | some d =>
        simp only [← Multiset.cons_coe, Multiset.cons_add]
        rw [ih]

/-- Of the members of a kind there are as many, but for the one that went on. -/
lemma countP_set (h : pool[i]? = some a) (f : α → Bool) :
    (pool.set i b).countP f + (f a).toNat = pool.countP f + (f b).toNat := by
  induction pool generalizing i with
  | nil => simp at h
  | cons c pool ih =>
    cases i with
    | zero =>
      obtain rfl : c = a := by simpa using h
      rw [List.set_cons_zero, List.countP_cons, List.countP_cons]
      cases f b <;> cases f c <;> simp
    | succ i =>
      have ih := ih (i := i) (by simpa using h)
      rw [List.set_cons_succ, List.countP_cons, List.countP_cons]
      omega

/-- Of the members of a kind there is at most one if any two are the same. -/
lemma countP_le_one {f : α → Bool} (h : ∀ (i j : ℕ) a b, pool[i]? = some a → pool[j]? = some b →
    f a = true → f b = true → i = j) : pool.countP f ≤ 1 := by
  induction pool with
  | nil => exact Nat.zero_le _
  | cons c pool ih =>
    have htail := ih fun i j a b hi hj ha hb =>
      Nat.succ_inj.mp (h (i + 1) (j + 1) a b hi hj ha hb)
    rw [List.countP_cons]
    cases hc : f c with
    | false => simpa using htail
    | true =>
      have hnone : pool.countP f = 0 := by
        rw [List.countP_eq_zero]
        intro a ha hfa
        obtain ⟨j, hj⟩ := List.mem_iff_getElem?.mp ha
        cases h 0 (j + 1) c a rfl hj hc hfa
      simp [hnone]

/-! ## One worker at a time -/

/-- At most one member of the pool is at work. -/
def Alone (Working : α → Prop) (pool : List α) : Prop :=
  ∀ (i j : ℕ) a b, pool[i]? = some a → pool[j]? = some b → Working a → Working b → i = j

variable {Working : α → Prop}

/-- The member at work goes on to anything. -/
lemma Alone.set (h : Alone Working pool) (ha : pool[i]? = some a) (hworking : Working a) (b : α) :
    Alone Working (pool.set i b) := by
  have hat : ∀ {l : ℕ} {c : α}, (pool.set i b)[l]? = some c → Working c → l = i := by
    intro l c hl hc
    rcases of_getElem?_set hl with ⟨hli, -⟩ | ⟨-, hold⟩
    · exact hli
    · exact h l i c a hold ha hc hworking
  intro j k c d hj hk hc hd
  rw [hat hj hc, hat hk hd]

/-- A member that is not at work comes in, at any place. -/
lemma Alone.of_idle {pool' : List α} (h : Alone Working pool) (hidle : ¬ Working b)
    (hpool : ∀ (j : ℕ) c, pool'[j]? = some c → c = b ∨ pool[j]? = some c) :
    Alone Working pool' := by
  intro j k c d hj hk hc hd
  rcases hpool j c hj with rfl | hold
  · exact absurd hc hidle
  · rcases hpool k d hk with rfl | hold'
    · exact absurd hd hidle
    · exact h j k c d hold hold' hc hd

/-- Nobody is at work, and one member comes in. -/
lemma Alone.concat (hidle : ∀ (j : ℕ) c, pool[j]? = some c → ¬ Working c) (b : α) :
    Alone Working (pool ++ [b]) := by
  have hat : ∀ {l : ℕ} {c : α}, (pool ++ [b])[l]? = some c → Working c → l = pool.length := by
    intro l c hl hc
    rcases of_getElem?_concat hl with ⟨hll, -⟩ | hold
    · exact hll
    · exact absurd hc (hidle l c hold)
  intro j k c d hj hk hc hd
  rw [hat hj hc, hat hk hd]

/-- While one member is at work, every other one is not. -/
lemma Alone.others (h : Alone Working pool) (ha : pool[i]? = some a) (hworking : Working a)
    (hji : j ≠ i) (hb : pool[j]? = some b) : ¬ Working b :=
  fun hb' => hji (h j i b a hb ha hb' hworking)

end Postit.Framework
