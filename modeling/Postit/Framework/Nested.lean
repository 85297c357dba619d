import Mathlib.Data.List.Infix
import Mathlib.Data.List.Nodup
import Mathlib.Logic.Function.Basic

/-!
# Nested dictionaries

A dictionary holds leaves and dictionaries again, and is filled one path at a time.  A leaf in the
way of a path stays, and what is inserted beyond it is dropped; a leaf inserted in the place of a
dictionary replaces it.

What stands at a path once a list of leaves was inserted is told from the list alone
(`stands_insertAll`): the last leaf given there, unless a shorter path was given too.  So the order
does not matter while no path is given twice (`insertAll_perm`).
-/

namespace Postit.Framework

/-- What a dictionary holds. -/
inductive Nested (K V : Type*)
  | leaf (value : V)
  | dict (entries : K → Option (Nested K V))

abbrev Dict (K V : Type*) := K → Option (Nested K V)

/-- What is found at a path. -/
inductive Stands (V : Type*)
  | nothing
  | leaf (value : V)
  | dict

namespace Dict

variable {K V : Type*} {d d' : Dict K V} {p q : List K} {v : V}

def empty : Dict K V := fun _ => none

/-- What stands at a path. -/
def stands (d : Dict K V) : List K → Stands V
  | [] => .dict
  | head :: tail =>
    match d head with
    | none => .nothing
    | some (.leaf value) => if tail.isEmpty then .leaf value else .nothing
    | some (.dict nested) => stands nested tail

@[simp] lemma stands_nil (d : Dict K V) : d.stands [] = .dict := rfl

lemma stands_cons (d : Dict K V) (k : K) (q : List K) : d.stands (k :: q) =
    match d k with
    | none => .nothing
    | some (.leaf value) => if q.isEmpty then .leaf value else .nothing
    | some (.dict nested) => stands nested q := rfl

@[simp] lemma stands_empty (k : K) (q : List K) : (empty : Dict K V).stands (k :: q) = .nothing :=
  rfl

/-- Induction on what a dictionary holds. -/
lemma nested_induction {P : Nested K V → Prop} (leaf : ∀ v, P (.leaf v))
    (dict : ∀ d : Dict K V, (∀ k n, d k = some n → P n) → P (.dict d)) (n : Nested K V) : P n :=
  @Nested.rec K V P (fun o => ∀ n, o = some n → P n) leaf (fun d ih => dict d ih)
    (fun _ h => by cases h) (fun _ h _ heq => by cases heq; exact h) n

/-- Dictionaries at whose every path the same stands are the same. -/
lemma ext_stands (h : ∀ q, d.stands q = d'.stands q) : d = d' := by
  suffices hall : ∀ (n : Nested K V) (d : Dict K V), n = .dict d → ∀ d' : Dict K V,
      (∀ q, d.stands q = d'.stands q) → d = d' from hall (.dict d) d rfl d' h
  refine nested_induction (fun v d hd => by cases hd) fun d ih e he d' h => ?_
  obtain rfl := Nested.dict.inj he
  funext k
  have hone := h [k]
  rw [stands_cons, stands_cons] at hone
  cases hk : d k with
  | none =>
    rw [hk] at hone
    rcases hk' : d' k with - | (v' | e') <;> rw [hk'] at hone
    · cases hone
    · cases hone
  | some n =>
    rw [hk] at hone
    rcases n with v | e <;> rcases hk' : d' k with - | (v' | e') <;> rw [hk'] at hone
    · cases hone
    · cases hone
      rfl
    · cases hone
    · cases hone
    · cases hone
    · refine congrArg (some ∘ Nested.dict) (ih k _ hk e rfl e' fun q => ?_)
      have hq := h (k :: q)
      rwa [stands_cons, stands_cons, hk, hk'] at hq

variable [DecidableEq K]

/-- Puts a leaf at a path. -/
def insert (d : Dict K V) : List K → V → Dict K V
  | [], _ => d
  | [head], value => Function.update d head (some (.leaf value))
  | head :: next :: tail, value =>
    match d head with
    | none => Function.update d head (some (.dict (insert empty (next :: tail) value)))
    | some (.dict nested) =>
      Function.update d head (some (.dict (insert nested (next :: tail) value)))
    | some (.leaf _) => d

/-- Puts leaves at paths, one after the other. -/
def insertAll (es : List (List K × V)) : Dict K V :=
  es.foldl (fun d e => d.insert e.1 e.2) empty

lemma insertAll_filterMap {α : Type*} (f : α → Option (List K × V)) (xs : List α) :
    insertAll (xs.filterMap f) =
      xs.foldl (fun d x => (f x).elim d fun e => d.insert e.1 e.2) empty := by
  rw [insertAll, List.foldl_filterMap]
  congr 1
  funext d x
  cases f x <;> rfl

/-- A leaf is in the way of a path. -/
def Blocked (d : Dict K V) (p : List K) : Prop :=
  ∃ r v, r <+: p ∧ r ≠ p ∧ d.stands r = .leaf v

omit [DecidableEq K] in
lemma blocked_cons_iff (k : K) (hp : p ≠ []) : d.Blocked (k :: p) ↔
    (∃ v, d k = some (.leaf v)) ∨ ∃ nested, d k = some (.dict nested) ∧ Blocked nested p := by
  constructor
  · rintro ⟨r, v, hr, hne, hv⟩
    cases r with
    | nil => cases hv
    | cons k' r =>
      obtain ⟨rfl, htail⟩ := List.cons_prefix_cons.mp hr
      rw [stands_cons] at hv
      rcases hk : d k' with - | (v' | nested) <;> rw [hk] at hv
      · cases hv
      · exact .inl ⟨v', rfl⟩
      · exact .inr ⟨nested, rfl, r, v, htail, fun h => hne (h ▸ rfl), hv⟩
  · rintro (⟨v, hv⟩ | ⟨nested, hk, r, v, hr, hne, hv⟩)
    · exact ⟨[k], v, by simp, by simpa using hp.symm, by simp [stands_cons, hv]⟩
    · exact ⟨k :: r, v, by simpa using hr, by simpa using hne, by rw [stands_cons, hk]; exact hv⟩

/-- A leaf in the way stays, and nothing is inserted. -/
lemma insert_of_blocked (h : d.Blocked p) : d.insert p v = d := by
  induction p generalizing d with
  | nil =>
    obtain ⟨r, -, hr, hne, -⟩ := h
    exact absurd (List.prefix_nil.mp hr) hne
  | cons k p ih =>
    cases p with
    | nil =>
      obtain ⟨r, v', hr, hne, hv⟩ := h
      rcases List.prefix_cons_iff.mp hr with rfl | ⟨t, rfl, ht⟩
      · cases hv
      · exact absurd (by rw [List.prefix_nil.mp ht]) hne
    | cons k' p =>
      rcases (blocked_cons_iff k (List.cons_ne_nil _ _)).mp h with ⟨v', hv⟩ | ⟨nested, hk, hb⟩
      · rw [insert, hv]
      · rw [insert, hk]
        dsimp only
        rw [ih hb, ← hk, Function.update_eq_self]

/-- Elsewhere what stood stands. -/
lemma stands_insert_elsewhere (hpq : ¬ p <+: q) (hqp : ¬ q <+: p) :
    (d.insert p v).stands q = d.stands q := by
  induction p generalizing d q with
  | nil => exact absurd (List.nil_prefix) hpq
  | cons k p ih =>
    cases q with
    | nil => exact absurd (List.nil_prefix) hqp
    | cons k' q =>
      by_cases hk : k' = k
      · subst hk
        rw [List.cons_prefix_cons] at hpq hqp
        have hpq := fun h => hpq ⟨rfl, h⟩
        have hqp := fun h => hqp ⟨rfl, h⟩
        cases p with
        | nil => exact absurd List.nil_prefix hpq
        | cons k'' p =>
          have hne : q ≠ [] := fun hnil => hqp (hnil ▸ List.nil_prefix)
          rw [insert, stands_cons d]
          rcases hd : d k' with - | (v' | nested)
          · have hnone := ih (d := empty) hpq hqp
            obtain ⟨a, q, rfl⟩ := List.exists_cons_of_ne_nil hne
            rw [stands_empty] at hnone
            simpa [stands_cons] using hnone
          · simp [stands_cons, hd]
          · simpa [stands_cons] using ih (d := nested) hpq hqp
      · have hsame : (d.insert (k :: p) v) k' = d k' := by
          cases p with
          | nil => exact Function.update_of_ne hk _ _
          | cons k'' p =>
            rcases hd : d k with - | (v' | nested) <;> rw [insert, hd]
            · exact Function.update_of_ne hk _ _
            · exact Function.update_of_ne hk _ _
        rw [stands_cons, stands_cons, hsame]

/-- What stands along a path that is free, and beyond it, once a leaf was put there. -/
lemma stands_insert_of_free (hp : p ≠ []) (h : ¬ d.Blocked p) :
    (d.insert p v).stands p = .leaf v ∧
      (∀ q, p <+: q → q ≠ p → (d.insert p v).stands q = .nothing) ∧
      ∀ q, q <+: p → q ≠ p → (d.insert p v).stands q = .dict := by
  induction p generalizing d with
  | nil => exact absurd rfl hp
  | cons k p ih =>
    cases p with
    | nil =>
      refine ⟨by simp [insert, stands_cons], fun q hq hne => ?_, fun q hq hne => ?_⟩
      · obtain ⟨t, rfl⟩ := hq
        have ht : t ≠ [] := by simpa using hne
        simp [insert, stands_cons, ht]
      · rcases List.prefix_cons_iff.mp hq with rfl | ⟨t, rfl, ht⟩
        · rfl
        · exact absurd (by rw [List.prefix_nil.mp ht]) hne
    | cons k' p =>
      -- the nested dictionary that the leaf comes to
      obtain ⟨nested, hfree, hinsert⟩ : ∃ nested : Dict K V, ¬ nested.Blocked (k' :: p) ∧
          (d.insert (k :: k' :: p) v) k = some (.dict (nested.insert (k' :: p) v)) := by
        rw [blocked_cons_iff k (List.cons_ne_nil _ _)] at h
        rcases hd : d k with - | (v' | nested)
        · refine ⟨empty, ?_, by rw [insert, hd]; exact Function.update_self _ _ _⟩
          rintro ⟨r, v', -, -, hv⟩
          cases r <;> cases hv
        · exact absurd (.inl ⟨v', hd⟩) h
        · exact ⟨nested, fun hb => h (.inr ⟨nested, hd, hb⟩), by
            rw [insert, hd]
            exact Function.update_self _ _ _⟩
      obtain ⟨hself, hbeyond, hbefore⟩ := ih (List.cons_ne_nil _ _) hfree
      refine ⟨by rw [stands_cons, hinsert]; exact hself, fun q hq hne => ?_, fun q hq hne => ?_⟩
      · obtain ⟨t, rfl⟩ := hq
        rw [List.cons_append, stands_cons, hinsert]
        exact hbeyond _ (List.prefix_append _ _) fun heq => hne (by rw [List.cons_append, heq])
      · rcases List.prefix_cons_iff.mp hq with rfl | ⟨t, rfl, ht⟩
        · rfl
        · rw [stands_cons, hinsert]
          exact hbefore t ht fun heq => hne (by rw [heq])

/-! ## What a list of leaves comes to -/

/-- A shorter path is given. -/
def Shadowed (es : List (List K × V)) (q : List K) : Prop := ∃ e ∈ es, e.1 <+: q ∧ e.1 ≠ q

/-- The leaf given last at a path. -/
def lastAt (es : List (List K × V)) (q : List K) : Option V :=
  (es.filter fun e => e.1 = q).getLast?.map Prod.snd

instance (es : List (List K × V)) (q : List K) : Decidable (Shadowed es q) :=
  inferInstanceAs (Decidable (∃ e ∈ es, e.1 <+: q ∧ e.1 ≠ q))

/-- What a list of leaves says of a path. -/
def told (es : List (List K × V)) (q : List K) : Stands V :=
  if q = [] then .dict
  else if Shadowed es q then .nothing
  else
    match lastAt es q with
    | some value => .leaf value
    | none => if ∃ e ∈ es, q <+: e.1 then .dict else .nothing

variable {es es' : List (List K × V)}

lemma told_congr (hshadow : Shadowed es q ↔ Shadowed es' q)
    (hlast : lastAt es q = lastAt es' q)
    (hex : (∃ e ∈ es, q <+: e.1) ↔ ∃ e ∈ es', q <+: e.1) : told es q = told es' q := by
  unfold told
  simp only [hlast, hshadow, hex]

lemma exists_of_lastAt {value : V} (h : lastAt es q = some value) : (q, value) ∈ es := by
  obtain ⟨e, he, rfl⟩ := Option.map_eq_some_iff.mp h
  have hmem := List.mem_filter.mp (List.mem_of_getLast? he)
  obtain rfl := of_decide_eq_true hmem.2
  exact hmem.1

lemma lastAt_ne_none (h : ∃ e ∈ es, e.1 = q) : ∃ value, lastAt es q = some value := by
  obtain ⟨e, he, heq⟩ := h
  have hmem : e ∈ es.filter fun e => e.1 = q := List.mem_filter.mpr ⟨he, decide_eq_true heq⟩
  exact ⟨_, by rw [lastAt, List.getLast?_eq_some_getLast (List.ne_nil_of_mem hmem)]; rfl⟩

omit [DecidableEq K] in
/-- The shortest of the shorter paths has none shorter. -/
lemma Shadowed.exists_first (h : Shadowed es q) :
    ∃ e ∈ es, e.1 <+: q ∧ e.1 ≠ q ∧ ¬ Shadowed es e.1 := by
  induction hn : q.length using Nat.strong_induction_on generalizing q with
  | _ n ih =>
    obtain ⟨e, he, hpre, hne⟩ := h
    by_cases hshadow : Shadowed es e.1
    · have hlt : e.1.length < q.length :=
        hpre.length_le.lt_of_ne fun hlen => hne (hpre.eq_of_length hlen)
      obtain ⟨e', he', hpre', hne', hfirst⟩ := ih _ (hn ▸ hlt) hshadow rfl
      refine ⟨e', he', hpre'.trans hpre, fun heq => ?_, hfirst⟩
      have hle := hpre'.length_le
      rw [heq] at hle
      omega
    · exact ⟨e, he, hpre, hne, hshadow⟩

lemma exists_of_told_leaf (h : told es q = .leaf v) : ¬ Shadowed es q ∧ lastAt es q = some v := by
  unfold told at h
  by_cases hq : q = []
  · rw [if_pos hq] at h
    cases h
  by_cases hs : Shadowed es q
  · rw [if_neg hq, if_pos hs] at h
    cases h
  rw [if_neg hq, if_neg hs] at h
  cases hlast : lastAt es q with
  | none =>
    rw [hlast] at h
    dsimp only at h
    split at h <;> cases h
  | some value =>
    rw [hlast] at h
    cases h
    exact ⟨hs, rfl⟩

lemma blocked_iff_shadowed (hne : ∀ e ∈ es, e.1 ≠ []) (h : ∀ q, d.stands q = told es q) :
    d.Blocked p ↔ Shadowed es p := by
  constructor
  · rintro ⟨r, v, hr, hrp, hv⟩
    exact ⟨_, exists_of_lastAt (exists_of_told_leaf ((h r).symm.trans hv)).2, hr, hrp⟩
  · intro hshadow
    obtain ⟨e, he, hpre, hep, hfirst⟩ := hshadow.exists_first
    obtain ⟨value, hlast⟩ := lastAt_ne_none ⟨e, he, rfl⟩
    exact ⟨e.1, value, hpre, hep, by rw [h, told, if_neg (hne e he), if_neg hfirst, hlast]⟩

omit [DecidableEq K] in
lemma shadowed_concat : Shadowed (es ++ [(p, v)]) q ↔ Shadowed es q ∨ (p <+: q ∧ p ≠ q) := by
  simp [Shadowed, or_and_right, exists_or]

lemma lastAt_concat_self : lastAt (es ++ [(p, v)]) p = some v := by
  simp [lastAt, List.filter_append]

lemma lastAt_concat_of_ne (h : p ≠ q) : lastAt (es ++ [(p, v)]) q = lastAt es q := by
  simp [lastAt, List.filter_append, h]

/-- One more leaf. -/
lemma told_concat (hp : p ≠ []) (hne : ∀ e ∈ es, e.1 ≠ []) (h : ∀ q, d.stands q = told es q) :
    (d.insert p v).stands q = told (es ++ [(p, v)]) q := by
  by_cases hq : q = []
  · rw [hq, stands_nil, told, if_pos rfl]
  by_cases hshadow : Shadowed es p
  · -- the leaf is dropped, and what the list says is the same
    rw [insert_of_blocked ((blocked_iff_shadowed hne h).mpr hshadow), h, told, told, if_neg hq,
      if_neg hq]
    obtain ⟨e, he, hpre, hep⟩ := hshadow
    have hiff : Shadowed (es ++ [(p, v)]) q ↔ Shadowed es q := by
      refine shadowed_concat.trans (or_iff_left_of_imp fun hpq => ?_)
      refine ⟨e, he, hpre.trans hpq.1, fun heq => hep ?_⟩
      exact hpre.eq_of_length (hpre.length_le.antisymm (heq ▸ hpq.1.length_le))
    by_cases hsq : Shadowed es q
    · rw [if_pos hsq, if_pos (hiff.mpr hsq)]
    · have hpq : p ≠ q := fun heq => hsq ⟨e, he, heq ▸ hpre, heq ▸ hep⟩
      rw [if_neg hsq, if_neg (mt hiff.mp hsq), lastAt_concat_of_ne hpq]
      split
      · rfl
      · next hlast =>
        congr 1
        refine propext ⟨fun ⟨e', he', h'⟩ => ⟨e', by simp [he'], h'⟩, ?_⟩
        rintro ⟨e', he', hqe'⟩
        rcases List.mem_append.mp he' with he' | he'
        · exact ⟨e', he', hqe'⟩
        · obtain rfl := List.mem_singleton.mp he'
          rcases List.prefix_or_prefix_of_prefix hpre hqe' with hpre | hpre
          · by_cases heq : e.1 = q
            · exact ⟨e, he, heq ▸ List.prefix_rfl⟩
            · exact absurd ⟨e, he, hpre, heq⟩ hsq
          · exact ⟨e, he, hpre⟩
  · -- the leaf is put there
    obtain ⟨hself, hbeyond, hbefore⟩ :=
      stands_insert_of_free (v := v) hp (mt (blocked_iff_shadowed hne h).mp hshadow)
    rw [told, if_neg hq]
    by_cases heq : q = p
    · subst heq
      rw [hself, if_neg (by rw [shadowed_concat]; simpa using hshadow), lastAt_concat_self]
    by_cases hpq : p <+: q
    · rw [hbeyond q hpq heq, if_pos (shadowed_concat.mpr (.inr ⟨hpq, Ne.symm heq⟩))]
    have hiff : Shadowed (es ++ [(p, v)]) q ↔ Shadowed es q := by
      rw [shadowed_concat]
      simp [hpq]
    by_cases hqp : q <+: p
    · have hsq : ¬ Shadowed es q := by
        rintro ⟨e, he, hpre, hne'⟩
        refine hshadow ⟨e, he, hpre.trans hqp, fun h' => hne' ?_⟩
        exact hpre.eq_of_length (hpre.length_le.antisymm (h' ▸ hqp.length_le))
      have hlast : lastAt es q = none := by
        cases hlast : lastAt es q with
        | none => rfl
        | some value => exact absurd ⟨_, exists_of_lastAt hlast, hqp, heq⟩ hshadow
      rw [hbefore q hqp heq, if_neg (mt hiff.mp hsq), lastAt_concat_of_ne (Ne.symm heq), hlast]
      exact (if_pos ⟨(p, v), by simp, hqp⟩).symm
    · have hex : (∃ e ∈ es ++ [(p, v)], q <+: e.1) ↔ ∃ e ∈ es, q <+: e.1 := by
        simp [or_and_right, exists_or, hqp]
      have hsame := told_congr hiff (lastAt_concat_of_ne (Ne.symm heq)) hex
      rw [told, if_neg hq] at hsame
      rw [stands_insert_elsewhere hpq hqp, h, hsame]

/-- **What stands once a list of leaves was inserted is what the list says.** -/
theorem stands_insertAll (hne : ∀ e ∈ es, e.1 ≠ []) (q : List K) :
    (insertAll es).stands q = told es q := by
  induction es using List.reverseRecOn generalizing q with
  | nil =>
    cases q with
    | nil => simp [told]
    | cons k q => simp [insertAll, told, Shadowed, lastAt]
  | append_singleton es e ih =>
    have hbefore : ∀ e ∈ es, e.1 ≠ [] := fun e he => hne e (List.mem_append_left _ he)
    rw [insertAll, List.foldl_append]
    exact told_concat (hne e (by simp)) hbefore (ih hbefore)

/-- Where no path is given twice, the leaf given at a path. -/
lemma lastAt_eq_some_iff (hnodup : (es.map Prod.fst).Nodup) {value : V} :
    lastAt es q = some value ↔ (q, value) ∈ es := by
  refine ⟨exists_of_lastAt, fun hmem => ?_⟩
  obtain ⟨value', hlast⟩ := lastAt_ne_none ⟨_, hmem, rfl⟩
  have hmem' := exists_of_lastAt hlast
  rw [hlast, (Prod.mk.inj (List.inj_on_of_nodup_map hnodup hmem' hmem rfl)).2]

/-- **The order does not matter**, where no path is given twice. -/
theorem insertAll_perm (hne : ∀ e ∈ es, e.1 ≠ []) (hnodup : (es.map Prod.fst).Nodup)
    (hperm : es.Perm es') : insertAll es' = insertAll es := by
  have hmem : ∀ {e}, e ∈ es' ↔ e ∈ es := hperm.mem_iff.symm
  refine ext_stands fun q => ?_
  rw [stands_insertAll (fun e he => hne e (hmem.mp he)), stands_insertAll hne]
  have hlast : lastAt es' q = lastAt es q := Option.ext fun value => by
    rw [lastAt_eq_some_iff hnodup, lastAt_eq_some_iff ((hperm.map Prod.fst).nodup_iff.mp hnodup),
      hmem]
  exact told_congr (by simp only [Shadowed, hmem]) hlast (by simp only [hmem])

/-- The leaf at a path was given there, and no shorter path was. -/
lemma stands_insertAll_leaf_iff (hne : ∀ e ∈ es, e.1 ≠ []) (hnodup : (es.map Prod.fst).Nodup)
    {value : V} : (insertAll es).stands q = .leaf value ↔
      (q, value) ∈ es ∧ ∀ e ∈ es, e.1 <+: q → e.1 = q := by
  have hshadow : Shadowed es q ↔ ¬ ∀ e ∈ es, e.1 <+: q → e.1 = q := by
    simp [Shadowed]
  rw [stands_insertAll hne, ← lastAt_eq_some_iff hnodup]
  constructor
  · intro h
    obtain ⟨hs, hlast⟩ := exists_of_told_leaf h
    exact ⟨hlast, not_not.mp (mt hshadow.mpr hs)⟩
  · rintro ⟨hlast, hs⟩
    have hq : q ≠ [] := hne _ ((lastAt_eq_some_iff hnodup).mp hlast)
    rw [told, if_neg hq, if_neg (fun h => hshadow.mp h hs), hlast]

end Dict

end Postit.Framework
