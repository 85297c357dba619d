import Mathlib.Data.List.AList
import Mathlib.Data.List.Sort

/-!
# Tables

A table of a relational database, as a finite map from keys to rows.  Mathlib's `AList`
carries the primary-key constraint (no key twice) as a field, so a table that violates it
cannot be built; a row is read by `AList.lookup` and written by `AList.insert`.  This file
adds what queries need: the rows that satisfy a condition (`Table.select`), the first of
them in an order (`Table.selectFirst`), and the change of all of them (`Table.updateWhere`).

An `IndexedTable` also carries a unique index: its operations refuse a row whose index is
taken, and change no column the index is over.
-/

namespace Postit.Framework

/-- A table with keys in `κ` and rows in `ρ`. -/
abbrev Table (κ ρ : Type) := AList fun _ : κ => ρ

namespace Table

variable {κ ρ : Type}

/-- The rows that satisfy the condition, with their keys. -/
def select (t : Table κ ρ) (p : κ → ρ → Bool) : List (κ × ρ) :=
  (t.entries.map fun e => (e.1, e.2)).filter fun r => p r.1 r.2

/-- The first `limit` rows that satisfy the condition, in the order `le`. -/
def selectFirst (t : Table κ ρ) (p : κ → ρ → Bool) (le : κ × ρ → κ × ρ → Bool)
    (limit : ℕ) : List (κ × ρ) :=
  ((t.select p).insertionSort fun a b => le a b = true).take limit

/-- Whether some row satisfies the condition. -/
def exists? (t : Table κ ρ) (p : κ → ρ → Bool) : Bool := !(t.select p).isEmpty

/-- The rows that satisfy the condition, changed; the others as they are. -/
def updateWhere (t : Table κ ρ) (p : κ → ρ → Bool) (f : ρ → ρ) : Table κ ρ where
  entries := t.entries.map fun e => ⟨e.1, if p e.1 e.2 then f e.2 else e.2⟩
  nodupKeys := by
    have hkeys : (t.entries.map fun e => (⟨e.1, if p e.1 e.2 then f e.2 else e.2⟩ :
        Sigma fun _ : κ => ρ)).keys = t.entries.keys := by
      simp [List.keys, Function.comp_def]
    rw [List.NodupKeys, hkeys]
    exact t.nodupKeys

/-- The rows that do not satisfy the condition. -/
def deleteWhere (t : Table κ ρ) (p : κ → ρ → Bool) : Table κ ρ where
  entries := t.entries.filter fun e => !p e.1 e.2
  nodupKeys := t.nodupKeys.sublist List.filter_sublist

lemma nodup_select (t : Table κ ρ) (p : κ → ρ → Bool) :
    ((t.select p).map Prod.fst).Nodup := by
  have hkeys : (t.entries.map fun e => e.1).Nodup := t.keys_nodup
  have hsub : ((t.select p).map Prod.fst).Sublist (t.entries.map fun e => e.1) := by
    have := (List.filter_sublist (p := fun r : κ × ρ => p r.1 r.2)
      (l := t.entries.map fun e => (e.1, e.2))).map Prod.fst
    rwa [List.map_map] at this
  exact hkeys.sublist hsub

lemma nodup_selectFirst (t : Table κ ρ) (p : κ → ρ → Bool) (le : κ × ρ → κ × ρ → Bool)
    (limit : ℕ) : ((t.selectFirst p le limit).map Prod.fst).Nodup := by
  have hperm := ((t.select p).perm_insertionSort fun a b => le a b = true).map Prod.fst
  exact ((hperm.nodup_iff).mpr (t.nodup_select p)).sublist
    ((List.take_sublist _ _).map Prod.fst)

variable [DecidableEq κ]

lemma lookup_updateWhere (t : Table κ ρ) (p : κ → ρ → Bool) (f : ρ → ρ) (k : κ) :
    (t.updateWhere p f).lookup k = (t.lookup k).map fun r => if p k r then f r else r := by
  have hmap : ∀ l : List (Sigma fun _ : κ => ρ),
      (l.map fun e => (⟨e.1, if p e.1 e.2 then f e.2 else e.2⟩ :
        Sigma fun _ : κ => ρ)).dlookup k =
        (l.dlookup k).map fun r => if p k r then f r else r := by
    intro l
    induction l with
    | nil => rfl
    | cons e l ih =>
      obtain ⟨k', r⟩ := e
      by_cases hk : k = k'
      · subst hk
        simp
      · rw [List.map_cons, List.dlookup_cons_ne _ ⟨k', _⟩ hk, ih,
          List.dlookup_cons_ne _ ⟨k', _⟩ hk]
  exact hmap t.entries

lemma lookup_deleteWhere (t : Table κ ρ) (p : κ → ρ → Bool) (k : κ) :
    (t.deleteWhere p).lookup k = (t.lookup k).filter fun r => !p k r := by
  ext r
  rw [← Option.mem_def, AList.mem_lookup_iff, Option.filter_eq_some_iff, ← Option.mem_def,
    AList.mem_lookup_iff]
  exact List.mem_filter

/-- The rows are added, each in the place of the one with its key. -/
def insertAll (t : Table κ ρ) (rows : List (κ × ρ)) : Table κ ρ :=
  rows.foldl (fun t r => t.insert r.1 r.2) t

lemma lookup_insertAll_of_not_mem {t : Table κ ρ} {rows : List (κ × ρ)} {k : κ}
    (h : ∀ r ∈ rows, r.1 ≠ k) : (t.insertAll rows).lookup k = t.lookup k := by
  induction rows generalizing t with
  | nil => rfl
  | cons r rows ih =>
    have hrest : ∀ r ∈ rows, r.1 ≠ k := fun r hr => h r (List.mem_cons_of_mem _ hr)
    have hne : k ≠ r.1 := (h r List.mem_cons_self).symm
    exact (ih (t := t.insert r.1 r.2) hrest).trans (AList.lookup_insert_ne hne)

lemma lookup_insertAll_of_mem {t : Table κ ρ} {rows : List (κ × ρ)} {k : κ} {r : ρ}
    (hnodup : (rows.map Prod.fst).Nodup) (h : (k, r) ∈ rows) :
    (t.insertAll rows).lookup k = some r := by
  induction rows generalizing t with
  | nil => cases h
  | cons s rows ih =>
    rw [List.map_cons, List.nodup_cons] at hnodup
    rcases List.mem_cons.mp h with rfl | h
    · have hrest : ∀ s ∈ rows, s.1 ≠ k := fun s hs hk =>
        hnodup.1 (List.mem_map.mpr ⟨s, hs, hk⟩)
      exact (lookup_insertAll_of_not_mem (t := t.insert k r) hrest).trans
        (AList.lookup_insert _)
    · exact ih (t := t.insert s.1 s.2) hnodup.2 h

lemma mem_insertAll {t : Table κ ρ} {rows : List (κ × ρ)} {k : κ} :
    k ∈ t.insertAll rows ↔ k ∈ t ∨ k ∈ rows.map Prod.fst := by
  induction rows generalizing t with
  | nil => simp [insertAll]
  | cons r rows ih =>
    have hstep : t.insertAll (r :: rows) = insertAll (t.insert r.1 r.2) rows := rfl
    rw [hstep, ih, AList.mem_insert, List.map_cons, List.mem_cons]
    tauto

lemma mem_select {t : Table κ ρ} {p : κ → ρ → Bool} {k : κ} {r : ρ} :
    (k, r) ∈ t.select p ↔ t.lookup k = some r ∧ p k r = true := by
  have hmem : (∃ e ∈ t.entries, (e.1, e.2) = (k, r)) ↔ t.lookup k = some r := by
    rw [← Option.mem_def, AList.mem_lookup_iff]
    constructor
    · rintro ⟨⟨k', r'⟩, he, heq⟩
      cases heq
      exact he
    · exact fun he => ⟨⟨k, r⟩, he, rfl⟩
  simp only [select, List.mem_filter, List.mem_map, hmem]

lemma mem_of_mem_selectFirst {t : Table κ ρ} {p : κ → ρ → Bool}
    {le : κ × ρ → κ × ρ → Bool} {limit : ℕ} {k : κ} {r : ρ}
    (h : (k, r) ∈ t.selectFirst p le limit) : t.lookup k = some r ∧ p k r = true :=
  mem_select.1 ((List.mem_insertionSort _).mp (List.mem_of_mem_take h))

/-- Every row that satisfies the condition is among the first, when the limit does not cut. -/
lemma mem_selectFirst {t : Table κ ρ} {p : κ → ρ → Bool} {le : κ × ρ → κ × ρ → Bool}
    {limit : ℕ} {k : κ} {r : ρ} (hlimit : (t.select p).length ≤ limit)
    (hk : t.lookup k = some r) (hp : p k r = true) : (k, r) ∈ t.selectFirst p le limit := by
  rw [selectFirst, List.take_of_length_le (by rwa [List.length_insertionSort])]
  exact (List.mem_insertionSort _).mpr (mem_select.2 ⟨hk, hp⟩)

/-- Every row that satisfies the condition is among the first, when these are fewer than the
limit. -/
lemma mem_selectFirst_of_room {t : Table κ ρ} {p : κ → ρ → Bool} {le : κ × ρ → κ × ρ → Bool}
    {limit : ℕ} {k : κ} {r : ρ} (hroom : (t.selectFirst p le limit).length < limit)
    (hk : t.lookup k = some r) (hp : p k r = true) : (k, r) ∈ t.selectFirst p le limit := by
  refine mem_selectFirst ?_ hk hp
  rw [selectFirst, List.length_take, List.length_insertionSort] at hroom
  omega

/-- The first rows are none only if no row satisfies the condition. -/
lemma not_of_selectFirst_eq_nil {t : Table κ ρ} {p : κ → ρ → Bool} {le : κ × ρ → κ × ρ → Bool}
    {limit : ℕ} (h : t.selectFirst p le limit = []) (hlimit : 0 < limit) {k : κ} {r : ρ}
    (hk : t.lookup k = some r) : p k r = false := by
  refine eq_false_of_ne_true fun hp => ?_
  have hmem : (k, r) ∈ (t.select p).insertionSort fun a b => le a b = true :=
    (List.mem_insertionSort _).mpr (mem_select.2 ⟨hk, hp⟩)
  rw [selectFirst, List.take_eq_nil_iff] at h
  rcases h with hzero | hnil
  · omega
  · rw [hnil] at hmem
    cases hmem

@[simp] lemma exists?_eq_true {t : Table κ ρ} {p : κ → ρ → Bool} :
    t.exists? p = true ↔ ∃ k r, t.lookup k = some r ∧ p k r = true := by
  simp only [exists?, Bool.not_eq_true', List.isEmpty_eq_false_iff_exists_mem, Prod.exists,
    mem_select]

lemma exists?_eq_false {t : Table κ ρ} {p : κ → ρ → Bool} :
    t.exists? p = false ↔ ∀ k r, t.lookup k = some r → p k r = false := by
  rw [← Bool.not_eq_true, exists?_eq_true]
  push Not
  simp only [ne_eq, Bool.not_eq_true]

/-- Some row that satisfies the condition, with its key. -/
def find? (t : Table κ ρ) (p : κ → ρ → Bool) : Option (κ × ρ) := (t.select p).head?

lemma of_find?_eq_some {t : Table κ ρ} {p : κ → ρ → Bool} {k : κ} {r : ρ}
    (h : t.find? p = some (k, r)) : t.lookup k = some r ∧ p k r = true :=
  mem_select.1 (List.mem_of_head? h)

lemma find?_eq_none {t : Table κ ρ} {p : κ → ρ → Bool} :
    t.find? p = none ↔ ∀ k r, t.lookup k = some r → p k r = false := by
  rw [find?, List.head?_eq_none_iff, ← exists?_eq_false, exists?, Bool.not_eq_false',
    List.isEmpty_iff]

section Keys

variable [LinearOrder κ]

/-- The keys of the first rows that satisfy the condition, in order. -/
def firstKeys (t : Table κ ρ) (p : κ → ρ → Bool) (limit : ℕ) : List κ :=
  (t.selectFirst p (fun a b => a.1 ≤ b.1) limit).map Prod.fst

variable {t : Table κ ρ} {p : κ → ρ → Bool} {limit : ℕ} {k : κ} {r : ρ}

omit [DecidableEq κ] in
lemma sorted_select : ((t.select p).insertionSort fun a b => decide (a.1 ≤ b.1) = true).Pairwise
    fun a b => a.1 < b.1 := by
  have hle : ((t.select p).insertionSort fun a b => decide (a.1 ≤ b.1) = true).Pairwise
      fun a b => decide (a.1 ≤ b.1) = true := by
    have : Std.Total fun a b : κ × ρ => decide (a.1 ≤ b.1) = true :=
      ⟨fun a b => by simpa using le_total a.1 b.1⟩
    have : IsTrans (κ × ρ) fun a b => decide (a.1 ≤ b.1) = true :=
      ⟨fun a b c hab hbc => by simp only [decide_eq_true_eq] at *; exact hab.trans hbc⟩
    exact List.pairwise_insertionSort _ _
  have hne : (t.select p).Pairwise fun a b => a.1 ≠ b.1 := List.pairwise_map.mp (t.nodup_select p)
  have hnodup := ((List.perm_insertionSort (fun a b : κ × ρ => decide (a.1 ≤ b.1) = true)
    (t.select p)).pairwise_iff fun h => Ne.symm h).mpr hne
  exact (hle.and hnodup).imp fun h => lt_of_le_of_ne (of_decide_eq_true h.1) h.2

omit [DecidableEq κ] in
lemma sorted_firstKeys : (t.firstKeys p limit).Pairwise (· < ·) :=
  List.pairwise_map.mpr (sorted_select.sublist (List.take_sublist _ _))

lemma of_mem_firstKeys (h : k ∈ t.firstKeys p limit) :
    ∃ r, t.lookup k = some r ∧ p k r = true := by
  obtain ⟨⟨k', r⟩, hmem, rfl⟩ := List.mem_map.mp h
  exact ⟨r, mem_of_mem_selectFirst hmem⟩

/-- A row that the limit cuts off comes after those before it, which are as many as it lets. -/
lemma mem_firstKeys_or (hk : t.lookup k = some r) (hp : p k r = true) :
    k ∈ t.firstKeys p limit ∨
      (t.firstKeys p limit).length = limit ∧ ∀ m ∈ t.firstKeys p limit, m < k := by
  have hmem : (k, r) ∈ (t.select p).insertionSort fun a b => decide (a.1 ≤ b.1) = true :=
    (List.mem_insertionSort _).mpr (mem_select.2 ⟨hk, hp⟩)
  rw [← List.take_append_drop limit ((t.select p).insertionSort _), List.mem_append] at hmem
  rcases hmem with htake | hdrop
  · exact .inl (List.mem_map_of_mem htake)
  · refine .inr ⟨?_, fun m hm => ?_⟩
    · have hlong := List.length_pos_of_mem hdrop
      rw [List.length_drop] at hlong
      rw [firstKeys, List.length_map, selectFirst, List.length_take]
      omega
    · obtain ⟨⟨m, r'⟩, hmem, rfl⟩ := List.mem_map.mp hm
      have hsorted : (
          ((t.select p).insertionSort fun a b => decide (a.1 ≤ b.1) = true).take limit ++
          ((t.select p).insertionSort fun a b => decide (a.1 ≤ b.1) = true).drop limit).Pairwise
          fun a b => a.1 < b.1 := by
        rw [List.take_append_drop]
        exact sorted_select
      exact (List.pairwise_append.mp hsorted).2.2 _ hmem _ hdrop

end Keys

/-- No two rows agree on what the index is over. -/
def UniqueOn {γ : Type} (t : Table κ ρ) (index : ρ → γ) : Prop :=
  ∀ {j k : κ} {r s : ρ}, t.lookup j = some r → t.lookup k = some s → index r = index s → j = k

end Table

/-! ## Tables with a unique index -/

/-- A table with a unique index: no two rows have the same `index`. -/
structure IndexedTable (κ ρ : Type) [DecidableEq κ] {γ : Type} (index : ρ → γ) where
  rows : Table κ ρ
  unique : rows.UniqueOn index

namespace IndexedTable

variable {κ ρ γ : Type} [DecidableEq κ] {index : ρ → γ}

/-- The table without rows. -/
def empty : IndexedTable κ ρ index := ⟨∅, fun h => by simp at h⟩

/-- The row with the key. -/
def lookup (t : IndexedTable κ ρ index) (k : κ) : Option ρ := t.rows.lookup k

@[simp] lemma lookup_empty (k : κ) : (empty : IndexedTable κ ρ index).lookup k = none := rfl

section Index

variable [DecidableEq γ]

/-- The row with the index, and its key. -/
def byIndex (t : IndexedTable κ ρ index) (i : γ) : Option (κ × ρ) :=
  t.rows.find? fun _ r => index r = i

lemma of_byIndex_eq_some {t : IndexedTable κ ρ index} {i : γ} {k : κ} {r : ρ}
    (h : t.byIndex i = some (k, r)) : t.lookup k = some r ∧ index r = i := by
  obtain ⟨hk, hi⟩ := Table.of_find?_eq_some h
  exact ⟨hk, of_decide_eq_true hi⟩

lemma byIndex_eq_none {t : IndexedTable κ ρ index} {i : γ} :
    t.byIndex i = none ↔ ∀ k r, t.lookup k = some r → index r ≠ i := by
  simp only [byIndex, Table.find?_eq_none, decide_eq_false_iff_not, lookup, ne_eq]

/-- The row with the index is the one it is found by. -/
lemma byIndex_eq_some_iff {t : IndexedTable κ ρ index} {i : γ} {k : κ} {r : ρ} :
    t.byIndex i = some (k, r) ↔ t.lookup k = some r ∧ index r = i := by
  refine ⟨of_byIndex_eq_some, fun ⟨hk, hi⟩ => ?_⟩
  cases h : t.byIndex i with
  | none => exact absurd hi (byIndex_eq_none.1 h k r hk)
  | some found =>
    obtain ⟨j, s⟩ := found
    obtain ⟨hj, hs⟩ := of_byIndex_eq_some h
    obtain rfl : j = k := t.unique hj hk (hs.trans hi.symm)
    rw [Option.some.inj (hj.symm.trans hk)]

/-- Adds a row, unless its key or its index is taken. -/
def insert? (t : IndexedTable κ ρ index) (k : κ) (r : ρ) : Option (IndexedTable κ ρ index) :=
  if h : t.lookup k = none ∧ t.byIndex (index r) = none then
    some ⟨t.rows.insert k r, by
      have hfree := byIndex_eq_none.1 h.2
      intro i j a b hi hj hab
      by_cases hik : i = k <;> by_cases hjk : j = k
      · rw [hik, hjk]
      · subst hik
        rw [AList.lookup_insert, Option.some.injEq] at hi
        rw [AList.lookup_insert_ne hjk] at hj
        exact absurd (hab ▸ hi ▸ rfl) (hfree j b hj)
      · subst hjk
        rw [AList.lookup_insert, Option.some.injEq] at hj
        rw [AList.lookup_insert_ne hik] at hi
        exact absurd (hab.trans (hj ▸ rfl)) (hfree i a hi)
      · rw [AList.lookup_insert_ne hik] at hi
        rw [AList.lookup_insert_ne hjk] at hj
        exact t.unique hi hj hab⟩
  else none

lemma of_insert?_eq_some {t u : IndexedTable κ ρ index} {k : κ} {r : ρ}
    (h : t.insert? k r = some u) :
    t.lookup k = none ∧ (∀ j s, t.lookup j = some s → index s ≠ index r) ∧
      ∀ j, u.lookup j = if j = k then some r else t.lookup j := by
  unfold insert? at h
  split at h
  case isFalse => cases h
  case isTrue hfree =>
    obtain rfl := Option.some.inj h
    refine ⟨hfree.1, byIndex_eq_none.1 hfree.2, fun j => ?_⟩
    by_cases hj : j = k
    · subst hj
      simp [lookup]
    · simp [lookup, hj, AList.lookup_insert_ne hj]

lemma rows_of_insert?_eq_some {t u : IndexedTable κ ρ index} {k : κ} {r : ρ}
    (h : t.insert? k r = some u) : u.rows = t.rows.insert k r := by
  unfold insert? at h
  split at h
  case isFalse => cases h
  case isTrue => rw [← Option.some.inj h]

end Index

/-- Changes the rows that satisfy the condition, in columns the index is not over. -/
def updateWhere (t : IndexedTable κ ρ index) (p : κ → ρ → Bool) (f : ρ → ρ)
    (hf : ∀ r, index (f r) = index r) : IndexedTable κ ρ index :=
  ⟨t.rows.updateWhere p f, by
    intro i j a b hi hj hab
    rw [Table.lookup_updateWhere, Option.map_eq_some_iff] at hi hj
    obtain ⟨a', ha, rfl⟩ := hi
    obtain ⟨b', hb, rfl⟩ := hj
    have hindex : ∀ k r, index (if p k r then f r else r) = index r := by
      intro k r
      split
      · exact hf r
      · rfl
    rw [hindex, hindex] at hab
    exact t.unique ha hb hab⟩

/-- Deletes the rows that satisfy the condition. -/
def deleteWhere (t : IndexedTable κ ρ index) (p : κ → ρ → Bool) : IndexedTable κ ρ index :=
  ⟨t.rows.deleteWhere p, by
    intro i j a b hi hj hab
    rw [Table.lookup_deleteWhere, Option.filter_eq_some_iff] at hi hj
    exact t.unique hi.1 hj.1 hab⟩

/-- Deletes the row with the key. -/
def erase (t : IndexedTable κ ρ index) (k : κ) : IndexedTable κ ρ index :=
  ⟨t.rows.erase k, by
    intro i j a b hi hj hab
    have hne : ∀ {i a}, (t.rows.erase k).lookup i = some a → i ≠ k := by
      rintro i a hi rfl
      rw [AList.lookup_erase] at hi
      cases hi
    rw [AList.lookup_erase_ne (hne hi)] at hi
    rw [AList.lookup_erase_ne (hne hj)] at hj
    exact t.unique hi hj hab⟩

@[simp] lemma lookup_updateWhere (t : IndexedTable κ ρ index) (p : κ → ρ → Bool) (f : ρ → ρ)
    (hf : ∀ r, index (f r) = index r) (k : κ) :
    (t.updateWhere p f hf).lookup k = (t.lookup k).map fun r => if p k r then f r else r :=
  t.rows.lookup_updateWhere p f k

@[simp] lemma lookup_deleteWhere (t : IndexedTable κ ρ index) (p : κ → ρ → Bool) (k : κ) :
    (t.deleteWhere p).lookup k = (t.lookup k).filter fun r => !p k r :=
  t.rows.lookup_deleteWhere p k

@[simp] lemma lookup_erase (t : IndexedTable κ ρ index) (j k : κ) :
    (t.erase k).lookup j = if j = k then none else t.lookup j := by
  by_cases hj : j = k
  · subst hj
    simp [lookup, erase]
  · simp [lookup, erase, hj, AList.lookup_erase_ne hj]

section Index

variable [DecidableEq γ]

@[simp] lemma byIndex_empty (i : γ) : (empty : IndexedTable κ ρ index).byIndex i = none := rfl

lemma byIndex_of_insert?_eq_some {t u : IndexedTable κ ρ index} {k : κ} {r : ρ}
    (h : t.insert? k r = some u) (i : γ) :
    u.byIndex i = if index r = i then some (k, r) else t.byIndex i := by
  obtain ⟨hk, hfree, hu⟩ := of_insert?_eq_some h
  ext ⟨j, s⟩
  rw [byIndex_eq_some_iff, hu]
  by_cases hi : index r = i
  · rw [if_pos hi]
    by_cases hj : j = k
    · subst hj
      simp only [if_true, Option.some.injEq, Prod.mk.injEq, true_and, and_iff_left_iff_imp]
      rintro rfl
      exact hi
    · rw [if_neg hj]
      constructor
      · rintro ⟨hs, his⟩
        exact absurd (his.trans hi.symm) (hfree j s hs)
      · intro heq
        cases heq
        exact absurd rfl hj
  · rw [if_neg hi, byIndex_eq_some_iff]
    by_cases hj : j = k
    · subst hj
      rw [if_pos rfl, hk]
      constructor
      · rintro ⟨heq, his⟩
        cases heq
        exact absurd his hi
      · rintro ⟨heq, -⟩
        cases heq
    · rw [if_neg hj]

@[simp] lemma byIndex_updateWhere (t : IndexedTable κ ρ index) (p : κ → ρ → Bool) (f : ρ → ρ)
    (hf : ∀ r, index (f r) = index r) (i : γ) :
    (t.updateWhere p f hf).byIndex i =
      (t.byIndex i).map fun e => (e.1, if p e.1 e.2 then f e.2 else e.2) := by
  have hindex : ∀ k r, index (if p k r then f r else r) = index r := by
    intro k r
    split
    · exact hf r
    · rfl
  ext ⟨k, s⟩
  simp only [byIndex_eq_some_iff, lookup_updateWhere, Option.map_eq_some_iff, Prod.exists,
    Prod.mk.injEq]
  constructor
  · rintro ⟨⟨r, hr, rfl⟩, hi⟩
    exact ⟨k, r, ⟨hr, (hindex k r).symm.trans hi⟩, rfl, rfl⟩
  · rintro ⟨j, r, ⟨hr, hi⟩, rfl, rfl⟩
    exact ⟨⟨r, hr, rfl⟩, (hindex j r).trans hi⟩

@[simp] lemma byIndex_erase (t : IndexedTable κ ρ index) (k : κ) (i : γ) :
    (t.erase k).byIndex i = (t.byIndex i).filter fun e => e.1 ≠ k := by
  ext ⟨j, s⟩
  rw [byIndex_eq_some_iff, lookup_erase, Option.filter_eq_some_iff, byIndex_eq_some_iff]
  by_cases hj : j = k
  · simp [hj]
  · simp [hj]

end Index

end IndexedTable

end Postit.Framework
