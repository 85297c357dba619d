import Mathlib.Data.List.Perm.Basic
import Mathlib.Data.List.Nodup
import Mathlib.Order.Defs.LinearOrder

/-!
# Maps in the order of their keys

A map as the list of its entries, each key once, in order.  The entries of a map made of a list with
each key once are those of the list, in another order, and that order is nothing to a lookup.
-/

namespace Postit.Framework.SortedMap

variable {κ ν : Type}

section Insert

variable [LT κ] [DecidableLT κ] [DecidableEq κ]

/-- The entries with the value under the key, which replaces what was there. -/
def insert : List (κ × ν) → κ → ν → List (κ × ν)
  | [], key, v => [(key, v)]
  | (k, w) :: ms, key, v =>
    if key < k then (key, v) :: (k, w) :: ms
    else if key = k then (key, v) :: ms
    else (k, w) :: insert ms key v

/-- The entries of the second, put into the first one by one. -/
def insertAll (ms ns : List (κ × ν)) : List (κ × ν) :=
  ns.foldl (fun acc m => insert acc m.1 m.2) ms

lemma perm_insert {ms : List (κ × ν)} {key : κ} (h : key ∉ ms.map Prod.fst) (v : ν) :
    (insert ms key v).Perm ((key, v) :: ms) := by
  induction ms with
  | nil => exact .refl _
  | cons m ms ih =>
    obtain ⟨k, w⟩ := m
    simp only [List.map_cons, List.mem_cons, not_or] at h
    rw [insert]
    split_ifs
    · exact .refl _
    · exact absurd ‹_› h.1
    · exact ((ih h.2).cons _).trans (.swap _ _ _)

lemma perm_insertAll {ms ns : List (κ × ν)} (h : ((ms ++ ns).map Prod.fst).Nodup) :
    (insertAll ms ns).Perm (ms ++ ns) := by
  induction ns generalizing ms with
  | nil => rw [List.append_nil]; exact .refl _
  | cons n ns ih =>
    obtain ⟨key, v⟩ := n
    have hperm : (ms ++ (key, v) :: ns).Perm ((key, v) :: (ms ++ ns)) := List.perm_middle
    have hnodup := (hperm.map Prod.fst).nodup_iff.mp h
    have hkey : key ∉ ms.map Prod.fst := by
      intro hmem
      refine (List.nodup_cons.mp hnodup).1 ?_
      rw [List.map_append]
      exact List.mem_append_left _ hmem
    have hinsert := (perm_insert hkey v).append_right ns
    exact (ih ((hinsert.map Prod.fst).nodup_iff.mpr hnodup)).trans (hinsert.trans hperm.symm)

end Insert

section Lookup

variable [DecidableEq κ]

/-- With each key once, what is found under a key is the entry with it. -/
lemma lookup_eq_some_iff {ms : List (κ × ν)} (h : (ms.map Prod.fst).Nodup) {key : κ} {v : ν} :
    ms.lookup key = some v ↔ (key, v) ∈ ms := by
  induction ms with
  | nil => simp
  | cons m ms ih =>
    obtain ⟨k, w⟩ := m
    obtain ⟨hk, hms⟩ := List.nodup_cons.mp h
    by_cases heq : key = k
    · subst heq
      have hnot : (key, v) ∉ ms := fun hmem => hk (List.mem_map.mpr ⟨_, hmem, rfl⟩)
      simp [hnot, eq_comm]
    · have hbeq : (key == k) = false := by simpa using heq
      rw [List.lookup_cons, hbeq]
      simp [ih hms, heq]

lemma lookup_eq_of_perm {ms ns : List (κ × ν)} (hperm : ms.Perm ns)
    (h : (ms.map Prod.fst).Nodup) (key : κ) : ms.lookup key = ns.lookup key := by
  have hns := (hperm.map Prod.fst).nodup_iff.mp h
  refine Option.ext fun v => ?_
  rw [lookup_eq_some_iff h, lookup_eq_some_iff hns, hperm.mem_iff]

end Lookup

end Postit.Framework.SortedMap
