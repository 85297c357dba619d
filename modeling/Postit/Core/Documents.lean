import Mathlib.Data.String.Basic
import Mathlib.Tactic.SplitIfs
import Postit.Core.Json

/-!
# JSON documents

A document is a JSON text as it stands: the members of an object in the order of the text, a key
perhaps given twice.  Read as a value, its objects keep the last of equal keys, in the order of
the keys (`Json.collect`); a value is `Canonical` when it is kept so.

Reading and writing texts is `serde_json`'s, a `TextCodec`.  It reads back what it writes, up to
the nesting it takes at all, but for floats, which it reads with a precision of its own.
-/

namespace Postit

/-! ## Members -/

namespace Members

lemma get?_nil (key : String) : get? [] key = none := rfl

lemma get?_cons (k : String) (w : Json) (ms : Members) (key : String) :
    get? ((k, w) :: ms) key = if key = k then some w else get? ms key := by
  unfold get?
  rw [List.lookup_cons]
  by_cases h : key = k
  · simp [h]
  · have hne : (key == k) = false := by simpa using h
    simp [h, hne]

lemma get?_insert (ms : Members) (key : String) (v : Json) (k : String) :
    get? (insert ms key v) k = if k = key then some v else get? ms k := by
  induction ms with
  | nil => rw [insert, get?_cons]
  | cons m ms ih =>
    obtain ⟨k', w⟩ := m
    rw [insert]
    by_cases hlt : key < k'
    · rw [if_pos hlt, get?_cons]
    rw [if_neg hlt]
    by_cases heq : key = k'
    · rw [if_pos heq, get?_cons, get?_cons, heq]
      by_cases hk : k = k'
      · rw [if_pos hk, if_pos hk]
      · rw [if_neg hk, if_neg hk, if_neg hk]
    · rw [if_neg heq, get?_cons, get?_cons, ih]
      by_cases hk : k = k'
      · rw [if_pos hk, if_pos hk, if_neg fun hkey => heq (hkey.symm.trans hk)]
      · rw [if_neg hk, if_neg hk]

lemma get?_remove (ms : Members) (key k : String) :
    get? (remove ms key) k = if k = key then none else get? ms k := by
  induction ms with
  | nil => simp [remove, get?]
  | cons m ms ih =>
    obtain ⟨k', w⟩ := m
    unfold remove at ih ⊢
    rw [List.filter_cons]
    by_cases hk' : k' = key
    · rw [if_neg (by simp [hk']), ih, get?_cons, hk']
      split_ifs <;> rfl
    · rw [if_pos (by simp [hk']), get?_cons, ih, get?_cons]
      by_cases hk : k = k'
      · rw [if_pos hk, if_neg (hk ▸ hk'), if_pos hk]
      · rw [if_neg hk, if_neg hk]

/-- Members under no key are none. -/
lemma eq_nil_of_get? {ms : Members} (h : ∀ key, get? ms key = none) : ms = [] := by
  cases ms with
  | nil => rfl
  | cons m ms =>
    have := h m.1
    rw [get?_cons, if_pos rfl] at this
    cases this

/-- The keys stand in their order, each once. -/
def Sorted (ms : Members) : Prop := ms.Pairwise fun m n => m.1 < n.1

lemma mem_insert {ms : Members} {key : String} {v : Json} {m : String × Json}
    (h : m ∈ insert ms key v) : m = (key, v) ∨ m ∈ ms := by
  induction ms with
  | nil => simpa [insert] using h
  | cons n ms ih =>
    obtain ⟨k', w⟩ := n
    rw [insert] at h
    split_ifs at h
    · simpa using h
    · rcases List.mem_cons.mp h with h | h
      · exact .inl h
      · exact .inr (List.mem_cons_of_mem _ h)
    · rcases List.mem_cons.mp h with h | h
      · exact .inr (h ▸ List.mem_cons_self)
      · exact (ih h).imp_right (List.mem_cons_of_mem _)

lemma Sorted.insert {ms : Members} (h : Sorted ms) (key : String) (v : Json) :
    Sorted (insert ms key v) := by
  induction ms with
  | nil => simp [Members.insert, Sorted]
  | cons m ms ih =>
    obtain ⟨k', w⟩ := m
    obtain ⟨hhead, htail⟩ := List.pairwise_cons.mp h
    rw [Members.insert]
    split_ifs with hlt heq
    · refine List.pairwise_cons.mpr ⟨fun m hm => ?_, h⟩
      rcases List.mem_cons.mp hm with rfl | hm
      · exact hlt
      · exact hlt.trans (hhead m hm)
    · subst heq
      exact List.pairwise_cons.mpr ⟨hhead, htail⟩
    · refine List.pairwise_cons.mpr ⟨fun m hm => ?_, ih htail⟩
      rcases mem_insert hm with rfl | hm
      · exact lt_of_le_of_ne (not_lt.mp hlt) (Ne.symm heq)
      · exact hhead m hm

/-- A key beyond all others goes to the end. -/
lemma insert_of_lt {ms : Members} {key : String} {v : Json} (h : ∀ m ∈ ms, m.1 < key) :
    insert ms key v = ms ++ [(key, v)] := by
  induction ms with
  | nil => rfl
  | cons m ms ih =>
    obtain ⟨k', w⟩ := m
    have hlt := h (k', w) List.mem_cons_self
    rw [insert, if_neg (not_lt.mpr hlt.le), if_neg (ne_of_gt hlt),
      ih fun m hm => h m (List.mem_cons_of_mem _ hm)]
    rfl

lemma get?_extend_of_not_mem {ms ns : Members} {key : String} (h : key ∉ ns.map Prod.fst) :
    get? (extend ms ns) key = get? ms key := by
  induction ns generalizing ms with
  | nil => rfl
  | cons m ns ih =>
    obtain ⟨k, v⟩ := m
    simp only [List.map_cons, List.mem_cons, not_or] at h
    have heq : extend ms ((k, v) :: ns) = extend (insert ms k v) ns := rfl
    rw [heq, ih h.2, get?_insert, if_neg h.1]

lemma get?_extend {ms ns : Members} (hnodup : (ns.map Prod.fst).Nodup) {key : String} {v : Json}
    (h : (key, v) ∈ ns) : get? (extend ms ns) key = some v := by
  induction ns generalizing ms with
  | nil => cases h
  | cons m ns ih =>
    obtain ⟨k, w⟩ := m
    obtain ⟨hk, hnodup⟩ := List.nodup_cons.mp hnodup
    have heq : extend ms ((k, w) :: ns) = extend (insert ms k w) ns := rfl
    rw [heq]
    rcases List.mem_cons.mp h with h | h
    · cases h
      rw [get?_extend_of_not_mem hk, get?_insert, if_pos rfl]
    · exact ih hnodup h

lemma mem_extend {ms ns : Members} {m : String × Json} (h : m ∈ extend ms ns) :
    m ∈ ms ∨ m ∈ ns := by
  induction ns generalizing ms with
  | nil => exact .inl h
  | cons n ns ih =>
    have hrest : m ∈ extend (insert ms n.1 n.2) ns := h
    rcases ih hrest with h | h
    · rcases mem_insert h with rfl | h
      · exact .inr List.mem_cons_self
      · exact .inl h
    · exact .inr (List.mem_cons_of_mem _ h)

lemma Sorted.extend {ms : Members} (h : Sorted ms) (ns : Members) : Sorted (extend ms ns) := by
  induction ns generalizing ms with
  | nil => exact h
  | cons n ns ih => exact ih (h.insert n.1 n.2)

lemma Sorted.get?_eq_some_iff {ms : Members} (h : Sorted ms) {key : String} {v : Json} :
    get? ms key = some v ↔ (key, v) ∈ ms := by
  induction ms with
  | nil => simp [get?_nil]
  | cons m ms ih =>
    obtain ⟨k, w⟩ := m
    obtain ⟨hhead, htail⟩ := List.pairwise_cons.mp h
    rw [get?_cons, List.mem_cons]
    split_ifs with hk
    · subst hk
      have hnot : (key, v) ∉ ms := fun hmem => absurd (hhead _ hmem) (lt_irrefl _)
      simp [hnot, eq_comm]
    · simp [ih htail, hk]

/-- Members in their order are determined by what they hold. -/
lemma Sorted.ext {ms ns : Members} (hms : Sorted ms) (hns : Sorted ns)
    (h : ∀ key, get? ms key = get? ns key) : ms = ns := by
  have hirrefl : Std.Irrefl fun m n : String × Json => m.1 < n.1 := ⟨fun m => lt_irrefl m.1⟩
  refine hms.eq_of_mem_iff hns fun m => ?_
  rw [← hms.get?_eq_some_iff, ← hns.get?_eq_some_iff, h]

/-- The keys of entries taken of a list, each under the key of its own. -/
lemma sublist_filterMap {α β : Type} {entry : α → Option (String × β)} {name : α → String}
    (h : ∀ a m, entry a = some m → m.1 = name a) (as : List α) :
    ((as.filterMap entry).map Prod.fst).Sublist (as.map name) := by
  induction as with
  | nil => exact .slnil
  | cons a as ih =>
    cases ha : entry a with
    | none =>
      rw [List.filterMap_cons_none ha]
      exact ih.cons _
    | some m =>
      rw [List.filterMap_cons_some ha, List.map_cons, List.map_cons, h a m ha]
      exact ih.cons_cons _

end Members

/-! ## Values of documents -/

mutual

/-- The value of a document. -/
def Json.collect : Json → Json
  | .array items => .array (Json.collectItems items)
  | .object members => .object (Json.collectMembers members [])
  | .null => .null
  | .bool b => .bool b
  | .number n => .number n
  | .string s => .string s

/-- The values of the items. -/
def Json.collectItems : List Json → List Json
  | [] => []
  | item :: items => item.collect :: Json.collectItems items

/-- The members with those of the text, one after the other. -/
def Json.collectMembers : Members → Members → Members
  | [], acc => acc
  | (key, v) :: ms, acc => Json.collectMembers ms (acc.insert key v.collect)

end

mutual

/-- Every object has its keys in their order, each once. -/
def Json.Canonical : Json → Prop
  | .array items => Json.CanonicalItems items
  | .object members => Members.Sorted members ∧ Json.CanonicalMembers members
  | .null => True
  | .bool _ => True
  | .number _ => True
  | .string _ => True

def Json.CanonicalItems : List Json → Prop
  | [] => True
  | item :: items => item.Canonical ∧ Json.CanonicalItems items

def Json.CanonicalMembers : Members → Prop
  | [] => True
  | (_, v) :: ms => v.Canonical ∧ Json.CanonicalMembers ms

end

lemma Json.canonicalItems_iff {items : List Json} :
    Json.CanonicalItems items ↔ ∀ v ∈ items, v.Canonical := by
  induction items with
  | nil => simp [Json.CanonicalItems]
  | cons item items ih => simp [Json.CanonicalItems, ih]

lemma Json.canonicalMembers_iff {ms : Members} :
    Json.CanonicalMembers ms ↔ ∀ m ∈ ms, m.2.Canonical := by
  induction ms with
  | nil => simp [Json.CanonicalMembers]
  | cons m ms ih => simp [Json.CanonicalMembers, ih]

mutual

/-- The value of a document is canonical. -/
theorem Json.canonical_collect : (v : Json) → v.collect.Canonical
  | .array items => by
    rw [Json.collect, Json.Canonical]
    exact Json.canonicalItems_collect items
  | .object members => by
    rw [Json.collect, Json.Canonical]
    exact Json.canonicalMembers_collect members [] .nil trivial
  | .null | .bool _ | .number _ | .string _ => by
    rw [Json.collect, Json.Canonical]
    trivial

theorem Json.canonicalItems_collect : (items : List Json) →
    Json.CanonicalItems (Json.collectItems items)
  | [] => trivial
  | item :: items => ⟨item.canonical_collect, Json.canonicalItems_collect items⟩

theorem Json.canonicalMembers_collect : (ms acc : Members) → acc.Sorted →
    Json.CanonicalMembers acc → (Json.collectMembers ms acc).Sorted ∧
      Json.CanonicalMembers (Json.collectMembers ms acc)
  | [], acc, hsorted, hvalues => ⟨hsorted, hvalues⟩
  | (key, v) :: ms, acc, hsorted, hvalues => by
    rw [Json.collectMembers]
    refine Json.canonicalMembers_collect ms _ (hsorted.insert key _) ?_
    rw [Json.canonicalMembers_iff] at hvalues ⊢
    intro m hm
    rcases Members.mem_insert hm with rfl | hm
    · exact v.canonical_collect
    · exact hvalues m hm

end

mutual

/-- A canonical value is its own. -/
theorem Json.collect_of_canonical : (v : Json) → v.Canonical → v.collect = v
  | .array items, h => by
    rw [Json.Canonical] at h
    rw [Json.collect, Json.collectItems_of_canonical items h]
  | .object members, h => by
    rw [Json.Canonical] at h
    rw [Json.collect, Json.collectMembers_of_canonical members [] h.1 h.2]
    rfl
  | .null, _ => by rw [Json.collect]
  | .bool _, _ => by rw [Json.collect]
  | .number _, _ => by rw [Json.collect]
  | .string _, _ => by rw [Json.collect]

theorem Json.collectItems_of_canonical : (items : List Json) → Json.CanonicalItems items →
    Json.collectItems items = items
  | [], _ => rfl
  | item :: items, h => by
    rw [Json.collectItems, Json.collect_of_canonical item h.1,
      Json.collectItems_of_canonical items h.2]

theorem Json.collectMembers_of_canonical : (ms acc : Members) → Members.Sorted (acc ++ ms) →
    Json.CanonicalMembers ms → Json.collectMembers ms acc = acc ++ ms
  | [], acc, _, _ => by rw [Json.collectMembers, List.append_nil]
  | (key, v) :: ms, acc, hsorted, hvalues => by
    have hlast : ∀ m ∈ acc, m.1 < key := by
      intro m hm
      exact (List.pairwise_append.mp hsorted).2.2 m hm (key, v) List.mem_cons_self
    rw [Json.collectMembers, Json.collect_of_canonical v hvalues.1, Members.insert_of_lt hlast,
      Json.collectMembers_of_canonical ms _ (by simpa using hsorted) hvalues.2, List.append_assoc]
    rfl

end

/-! ## Floats -/

/-- The number with its float, if it is one, replaced. -/
def JsonNumber.mapFloat (f : ℕ → ℕ) : JsonNumber → JsonNumber
  | .float bits => .float (f bits)
  | .posInt n => .posInt n
  | .negInt n => .negInt n

mutual

/-- The value with each float replaced. -/
def Json.mapFloats (f : ℕ → ℕ) : Json → Json
  | .array items => .array (Json.mapFloatsItems f items)
  | .object members => .object (Json.mapFloatsMembers f members)
  | .number n => .number (n.mapFloat f)
  | .null => .null
  | .bool b => .bool b
  | .string s => .string s

def Json.mapFloatsItems (f : ℕ → ℕ) : List Json → List Json
  | [] => []
  | item :: items => item.mapFloats f :: Json.mapFloatsItems f items

def Json.mapFloatsMembers (f : ℕ → ℕ) : Members → Members
  | [] => []
  | (key, v) :: ms => (key, v.mapFloats f) :: Json.mapFloatsMembers f ms

end

lemma Json.mapFloatsItems_eq (f : ℕ → ℕ) (items : List Json) :
    Json.mapFloatsItems f items = items.map (Json.mapFloats f) := by
  induction items with
  | nil => rfl
  | cons item items ih => rw [Json.mapFloatsItems, ih, List.map_cons]

lemma Json.mapFloatsMembers_eq (f : ℕ → ℕ) (ms : Members) :
    Json.mapFloatsMembers f ms = ms.map fun m => (m.1, m.2.mapFloats f) := by
  induction ms with
  | nil => rfl
  | cons m ms ih => rw [Json.mapFloatsMembers, ih, List.map_cons]

mutual

theorem Json.canonical_mapFloats (f : ℕ → ℕ) : (v : Json) → v.Canonical →
    (v.mapFloats f).Canonical
  | .array items, h => by
    rw [Json.Canonical] at h
    rw [Json.mapFloats, Json.Canonical]
    exact Json.canonicalItems_mapFloats f items h
  | .object members, h => by
    rw [Json.Canonical] at h
    rw [Json.mapFloats, Json.Canonical, Json.mapFloatsMembers_eq]
    refine ⟨List.pairwise_map.mpr h.1, ?_⟩
    rw [← Json.mapFloatsMembers_eq]
    exact Json.canonicalMembers_mapFloats f members h.2
  | .number _, _ => by
    rw [Json.mapFloats, Json.Canonical]
    trivial
  | .null, _ => by rw [Json.mapFloats, Json.Canonical]; trivial
  | .bool _, _ => by rw [Json.mapFloats, Json.Canonical]; trivial
  | .string _, _ => by rw [Json.mapFloats, Json.Canonical]; trivial

theorem Json.canonicalItems_mapFloats (f : ℕ → ℕ) : (items : List Json) →
    Json.CanonicalItems items → Json.CanonicalItems (Json.mapFloatsItems f items)
  | [], _ => trivial
  | item :: items, h =>
    ⟨item.canonical_mapFloats f h.1, Json.canonicalItems_mapFloats f items h.2⟩

theorem Json.canonicalMembers_mapFloats (f : ℕ → ℕ) : (ms : Members) →
    Json.CanonicalMembers ms → Json.CanonicalMembers (Json.mapFloatsMembers f ms)
  | [], _ => trivial
  | (_, v) :: ms, h => ⟨v.canonical_mapFloats f h.1, Json.canonicalMembers_mapFloats f ms h.2⟩

end

lemma Json.mapFloatsMembers_insert (f : ℕ → ℕ) (ms : Members) (key : String) (v : Json) :
    Json.mapFloatsMembers f (ms.insert key v) =
      (Json.mapFloatsMembers f ms).insert key (v.mapFloats f) := by
  induction ms with
  | nil => rfl
  | cons m ms ih =>
    obtain ⟨k, w⟩ := m
    rw [Members.insert, Json.mapFloatsMembers, Members.insert]
    by_cases hlt : key < k
    · rw [if_pos hlt, if_pos hlt]
      rfl
    rw [if_neg hlt, if_neg hlt]
    by_cases heq : key = k
    · rw [if_pos heq, if_pos heq]
      rfl
    · rw [if_neg heq, if_neg heq, Json.mapFloatsMembers, ih]

/-! ## Nesting -/

mutual

/-- How deep arrays and objects are nested. -/
def Json.depth : Json → ℕ
  | .array items => Json.depthItems items + 1
  | .object members => Json.depthMembers members + 1
  | .null => 0
  | .bool _ => 0
  | .number _ => 0
  | .string _ => 0

def Json.depthItems : List Json → ℕ
  | [] => 0
  | item :: items => max item.depth (Json.depthItems items)

def Json.depthMembers : Members → ℕ
  | [] => 0
  | (_, v) :: ms => max v.depth (Json.depthMembers ms)

end

lemma Json.depthItems_le {items : List Json} {n : ℕ} :
    Json.depthItems items ≤ n ↔ ∀ v ∈ items, v.depth ≤ n := by
  induction items with
  | nil => simp [Json.depthItems]
  | cons item items ih => simp [Json.depthItems, ih]

lemma Json.depthMembers_le {ms : Members} {n : ℕ} :
    Json.depthMembers ms ≤ n ↔ ∀ m ∈ ms, m.2.depth ≤ n := by
  induction ms with
  | nil => simp [Json.depthMembers]
  | cons m ms ih => simp [Json.depthMembers, ih]

mutual

theorem Json.depth_collect : (v : Json) → v.collect.depth ≤ v.depth
  | .array items => by
    rw [Json.collect, Json.depth, Json.depth]
    exact Nat.succ_le_succ (Json.depthItems_collect items)
  | .object members => by
    rw [Json.collect, Json.depth, Json.depth]
    refine Nat.succ_le_succ (Json.depthMembers_collect members [] _ le_rfl ?_)
    exact Nat.zero_le _
  | .null => by rw [Json.collect]
  | .bool _ => by rw [Json.collect]
  | .number _ => by rw [Json.collect]
  | .string _ => by rw [Json.collect]

theorem Json.depthItems_collect : (items : List Json) →
    Json.depthItems (Json.collectItems items) ≤ Json.depthItems items
  | [] => le_rfl
  | item :: items => max_le_max item.depth_collect (Json.depthItems_collect items)

theorem Json.depthMembers_collect : (ms acc : Members) → (n : ℕ) → Json.depthMembers ms ≤ n →
    Json.depthMembers acc ≤ n → Json.depthMembers (Json.collectMembers ms acc) ≤ n
  | [], _, _, _, hacc => hacc
  | (key, v) :: ms, acc, n, hms, hacc => by
    obtain ⟨hv, hrest⟩ := max_le_iff.mp hms
    rw [Json.collectMembers]
    refine Json.depthMembers_collect ms _ n hrest ?_
    rw [Json.depthMembers_le] at hacc ⊢
    intro m hm
    rcases Members.mem_insert hm with rfl | hm
    · exact v.depth_collect.trans hv
    · exact hacc m hm

end

mutual

theorem Json.depth_mapFloats (f : ℕ → ℕ) : (v : Json) → (v.mapFloats f).depth = v.depth
  | .array items => by
    rw [Json.mapFloats, Json.depth, Json.depth, Json.depthItems_mapFloats f items]
  | .object members => by
    rw [Json.mapFloats, Json.depth, Json.depth, Json.depthMembers_mapFloats f members]
  | .number _ => by rw [Json.mapFloats, Json.depth, Json.depth]
  | .null => by rw [Json.mapFloats]
  | .bool _ => by rw [Json.mapFloats]
  | .string _ => by rw [Json.mapFloats]

theorem Json.depthItems_mapFloats (f : ℕ → ℕ) : (items : List Json) →
    Json.depthItems (Json.mapFloatsItems f items) = Json.depthItems items
  | [] => rfl
  | item :: items => by
    rw [Json.mapFloatsItems, Json.depthItems, Json.depthItems, item.depth_mapFloats f,
      Json.depthItems_mapFloats f items]

theorem Json.depthMembers_mapFloats (f : ℕ → ℕ) : (ms : Members) →
    Json.depthMembers (Json.mapFloatsMembers f ms) = Json.depthMembers ms
  | [] => rfl
  | (_, v) :: ms => by
    rw [Json.mapFloatsMembers, Json.depthMembers, Json.depthMembers, v.depth_mapFloats f,
      Json.depthMembers_mapFloats f ms]

end

lemma Members.mem_of_get? {ms : Members} {key : String} {v : Json} (h : ms.get? key = some v) :
    (key, v) ∈ ms := by
  induction ms with
  | nil => cases h
  | cons m ms ih =>
    obtain ⟨k, w⟩ := m
    rw [Members.get?_cons] at h
    split_ifs at h with hk
    · cases h
      exact hk ▸ List.mem_cons_self
    · exact List.mem_cons_of_mem _ (ih h)

/-! ## Numbers -/

/-- Whether `serde_json` has such a number: an integer of 64 bits, the negative ones apart, or the
bits of a finite double. -/
def JsonNumber.Held : JsonNumber → Prop
  | .posInt n => n < 2 ^ 64
  | .negInt n => -2 ^ 63 ≤ n ∧ n < 0
  | .float bits => bits < 2 ^ 64 ∧ bits / 2 ^ 52 % 2 ^ 11 ≠ 2047

/-- A signed 64-bit integer as a number. -/
def JsonNumber.ofI64 (n : ℤ) : JsonNumber := if 0 ≤ n then .posInt n.toNat else .negInt n

mutual

/-- Whether every number is one that `serde_json` has. -/
def Json.Held : Json → Prop
  | .array items => Json.HeldItems items
  | .object members => Json.HeldMembers members
  | .number n => n.Held
  | .null => True
  | .bool _ => True
  | .string _ => True

def Json.HeldItems : List Json → Prop
  | [] => True
  | item :: items => item.Held ∧ Json.HeldItems items

def Json.HeldMembers : Members → Prop
  | [] => True
  | (_, v) :: ms => v.Held ∧ Json.HeldMembers ms

end

lemma Json.heldItems_iff {items : List Json} :
    Json.HeldItems items ↔ ∀ v ∈ items, v.Held := by
  induction items with
  | nil => simp [Json.HeldItems]
  | cons item items ih => simp [Json.HeldItems, ih]

lemma Json.heldMembers_iff {ms : Members} : Json.HeldMembers ms ↔ ∀ m ∈ ms, m.2.Held := by
  induction ms with
  | nil => simp [Json.HeldMembers]
  | cons m ms ih => simp [Json.HeldMembers, ih]

mutual

theorem Json.held_collect : (v : Json) → v.Held → v.collect.Held
  | .array items, h => by
    rw [Json.Held] at h
    rw [Json.collect, Json.Held]
    exact Json.heldItems_collect items h
  | .object members, h => by
    rw [Json.Held] at h
    rw [Json.collect, Json.Held]
    exact Json.heldMembers_collect members [] h trivial
  | .number _, h => by rwa [Json.collect]
  | .null, h => by rwa [Json.collect]
  | .bool _, h => by rwa [Json.collect]
  | .string _, h => by rwa [Json.collect]

theorem Json.heldItems_collect : (items : List Json) → Json.HeldItems items →
    Json.HeldItems (Json.collectItems items)
  | [], _ => trivial
  | item :: items, h => ⟨item.held_collect h.1, Json.heldItems_collect items h.2⟩

theorem Json.heldMembers_collect : (ms acc : Members) → Json.HeldMembers ms →
    Json.HeldMembers acc → Json.HeldMembers (Json.collectMembers ms acc)
  | [], _, _, hacc => hacc
  | (key, v) :: ms, acc, hms, hacc => by
    rw [Json.collectMembers]
    refine Json.heldMembers_collect ms _ hms.2 ?_
    rw [Json.heldMembers_iff] at hacc ⊢
    intro m hm
    rcases Members.mem_insert hm with rfl | hm
    · exact v.held_collect hms.1
    · exact hacc m hm

end

/-- Whether a float stays one. -/
def KeepsFloats (f : ℕ → ℕ) : Prop :=
  ∀ bits, (JsonNumber.float bits).Held → (JsonNumber.float (f bits)).Held

mutual

theorem Json.held_mapFloats {f : ℕ → ℕ} (hf : KeepsFloats f) : (v : Json) → v.Held →
    (v.mapFloats f).Held
  | .array items, h => by
    rw [Json.Held] at h
    rw [Json.mapFloats, Json.Held]
    exact Json.heldItems_mapFloats hf items h
  | .object members, h => by
    rw [Json.Held] at h
    rw [Json.mapFloats, Json.Held]
    exact Json.heldMembers_mapFloats hf members h
  | .number n, h => by
    rw [Json.Held] at h
    rw [Json.mapFloats, Json.Held]
    cases n with
    | float bits => exact hf bits h
    | posInt n => exact h
    | negInt n => exact h
  | .null, h => by rwa [Json.mapFloats]
  | .bool _, h => by rwa [Json.mapFloats]
  | .string _, h => by rwa [Json.mapFloats]

theorem Json.heldItems_mapFloats {f : ℕ → ℕ} (hf : KeepsFloats f) : (items : List Json) →
    Json.HeldItems items → Json.HeldItems (Json.mapFloatsItems f items)
  | [], _ => trivial
  | item :: items, h => ⟨item.held_mapFloats hf h.1, Json.heldItems_mapFloats hf items h.2⟩

theorem Json.heldMembers_mapFloats {f : ℕ → ℕ} (hf : KeepsFloats f) : (ms : Members) →
    Json.HeldMembers ms → Json.HeldMembers (Json.mapFloatsMembers f ms)
  | [], _ => trivial
  | (_, v) :: ms, h => ⟨v.held_mapFloats hf h.1, Json.heldMembers_mapFloats hf ms h.2⟩

end

/-- A value as `serde_json` holds it, nested at most so deep. -/
structure Json.Fit (v : Json) (depth : ℕ) : Prop where
  canonical : v.Canonical
  held : v.Held
  depth_le : v.depth ≤ depth

lemma Json.fit_collect {doc : Json} {n : ℕ} (held : doc.Held) (hdepth : doc.depth ≤ n) :
    doc.collect.Fit n :=
  ⟨doc.canonical_collect, doc.held_collect held, doc.depth_collect.trans hdepth⟩

lemma Json.held_of_mem {ms : Members} (h : (Json.object ms).Held) {m : String × Json}
    (hm : m ∈ ms) : m.2.Held := by
  rw [Json.Held, Json.heldMembers_iff] at h
  exact h m hm

/-- What is in an object is nested one less. -/
lemma Json.depth_of_mem {ms : Members} {n : ℕ} (h : (Json.object ms).depth ≤ n + 1)
    {m : String × Json} (hm : m ∈ ms) : m.2.depth ≤ n := by
  rw [Json.depth] at h
  exact Json.depthMembers_le.1 (Nat.le_of_succ_le_succ h) m hm

lemma Json.Fit.of_mem {ms : Members} {n : ℕ} (h : (Json.object ms).Fit (n + 1))
    {m : String × Json} (hm : m ∈ ms) : m.2.Fit n := by
  have hcanonical := h.canonical
  rw [Json.Canonical, Json.canonicalMembers_iff] at hcanonical
  exact ⟨hcanonical.2 m hm, Json.held_of_mem h.held hm, Json.depth_of_mem h.depth_le hm⟩

lemma Json.Fit.mapFloats {f : ℕ → ℕ} (hf : KeepsFloats f) {v : Json} {n : ℕ} (h : v.Fit n) :
    (v.mapFloats f).Fit n :=
  ⟨v.canonical_mapFloats f h.canonical, v.held_mapFloats hf h.held,
    (v.depth_mapFloats f).trans_le h.depth_le⟩

lemma Json.fit_string (s : String) (n : ℕ) : (Json.string s).Fit n := by
  refine ⟨?_, ?_, ?_⟩
  · rw [Json.Canonical]
    trivial
  · rw [Json.Held]
    trivial
  · rw [Json.depth]
    exact Nat.zero_le n

lemma Json.fit_bool (b : Bool) (n : ℕ) : (Json.bool b).Fit n := by
  refine ⟨?_, ?_, ?_⟩
  · rw [Json.Canonical]
    trivial
  · rw [Json.Held]
    trivial
  · rw [Json.depth]
    exact Nat.zero_le n

lemma Json.fit_number {k : JsonNumber} (h : k.Held) (n : ℕ) : (Json.number k).Fit n := by
  refine ⟨?_, ?_, ?_⟩
  · rw [Json.Canonical]
    trivial
  · rw [Json.Held]
    exact h
  · rw [Json.depth]
    exact Nat.zero_le n

lemma Json.fit_array {items : List Json} {n : ℕ} (h : ∀ v ∈ items, v.Fit n) :
    (Json.array items).Fit (n + 1) := by
  refine ⟨?_, ?_, ?_⟩
  · rw [Json.Canonical, Json.canonicalItems_iff]
    exact fun v hv => (h v hv).canonical
  · rw [Json.Held, Json.heldItems_iff]
    exact fun v hv => (h v hv).held
  · rw [Json.depth]
    exact Nat.succ_le_succ (Json.depthItems_le.2 fun v hv => (h v hv).depth_le)

lemma Json.fit_object {ms : Members} {n : ℕ} (hsorted : ms.Sorted) (h : ∀ m ∈ ms, m.2.Fit n) :
    (Json.object ms).Fit (n + 1) := by
  refine ⟨?_, ?_, ?_⟩
  · rw [Json.Canonical, Json.canonicalMembers_iff]
    exact ⟨hsorted, fun m hm => (h m hm).canonical⟩
  · rw [Json.Held, Json.heldMembers_iff]
    exact fun m hm => (h m hm).held
  · rw [Json.depth]
    exact Nat.succ_le_succ (Json.depthMembers_le.2 fun m hm => (h m hm).depth_le)

/-! ## Texts -/

/-- How texts are read and written: `serde_json`. -/
structure TextCodec where
  /-- reads a whole text, or says why not -/
  read : String → Except String Json
  /-- writes a document -/
  write : Json → String
  /-- what a written float is read as -/
  reread : ℕ → ℕ

/-- How deep `serde_json` reads. -/
def depthLimit : ℕ := 127

/-- What reads back what it wrote, to the depth it reads at all, but for floats. -/
structure TextCodec.ReadsBack (codec : TextCodec) : Prop where
  depth_le : ∀ text doc, codec.read text = .ok doc → doc.depth ≤ depthLimit
  held : ∀ text doc, codec.read text = .ok doc → doc.Held
  read_write : ∀ doc : Json, doc.depth ≤ depthLimit → doc.Held →
    codec.read (codec.write doc) = .ok (doc.mapFloats codec.reread)

/-- What is read of a written float is a float. -/
lemma TextCodec.ReadsBack.keepsFloats {codec : TextCodec} (h : codec.ReadsBack) :
    KeepsFloats codec.reread := by
  intro bits hbits
  have hfit := Json.fit_number hbits depthLimit
  have hheld := h.held _ _ (h.read_write _ hfit.depth_le hfit.held)
  rw [Json.mapFloats, Json.Held] at hheld
  exact hheld

end Postit
