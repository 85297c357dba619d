import Mathlib.Data.String.Basic
import Postit.Framework.Strs

/-!
# Splitting and joining texts

`str::split` at a character undoes `join` with it, for texts that do not hold the character; and a
text joined of trimmed ones is trimmed.
-/

namespace Postit.Framework

/-! ## Splitting at a character -/

section Splitting

open String

/-- The loop of `splitOn`, in a text of which `l` was split off and `m` was read. -/
lemma splitOnAux_singleton (c : Char) (l m r : List Char) (acc : List String) :
    splitOnAux (ofList (l ++ m ++ r)) (singleton c) ⟨utf8Len l⟩ ⟨utf8Len l + utf8Len m⟩ 0 acc =
      acc.reverse ++ (List.splitOnPPrepend (· == c) r m.reverse).map ofList := by
  have hget : Pos.Raw.get (singleton c) 0 = c := by simpa using get_of_valid [] [c]
  have hnext : Pos.Raw.next (singleton c) 0 = ⟨c.utf8Size⟩ := by
    simpa using next_of_valid [] c []
  have hsize : (singleton c).rawEndPos = ⟨c.utf8Size⟩ := by
    simpa using rawEndPos_ofList [c]
  have hend : (singleton c).rawEndPos ≤ ⟨c.utf8Size⟩ := by
    rw [hsize]
    exact Nat.le_refl _
  have hleft : utf8Len m + utf8Len r ≤ utf8Len m ↔ utf8Len r = 0 := by omega
  unfold splitOnAux
  simp only [List.append_assoc, atEnd_iff, rawEndPos_ofList, utf8Len_append, Pos.Raw.mk_le_mk,
    Nat.add_le_add_iff_left, hleft, utf8Len_eq_zero, List.reverse_cons, hget, hnext, hend, if_true]
  split
  · subst r
    simpa using extract_of_valid l m []
  · obtain ⟨a, r, rfl⟩ := r.exists_cons_of_ne_nil ‹_›
    have hat : Pos.Raw.get (ofList (l ++ (m ++ a :: r))) ⟨utf8Len l + utf8Len m⟩ = a := by
      simpa using get_of_valid (l ++ m) (a :: r)
    have hafter : Pos.Raw.next (ofList (l ++ (m ++ a :: r))) ⟨utf8Len l + utf8Len m⟩ =
        ⟨utf8Len l + utf8Len m + a.utf8Size⟩ := by
      simpa using next_of_valid (l ++ m) a r
    have hpart : Pos.Raw.extract (ofList (l ++ (m ++ a :: r))) ⟨utf8Len l⟩
        ⟨utf8Len l + utf8Len m⟩ = ofList m := by
      simpa using extract_of_valid l m (a :: r)
    simp only [hat, hafter]
    split
    · next h =>
      -- a separator: what was read is split off
      obtain rfl : a = c := by simpa using h
      have hback : Pos.Raw.unoffsetBy ⟨utf8Len l + utf8Len m + a.utf8Size⟩ ⟨a.utf8Size⟩ =
          ⟨utf8Len l + utf8Len m⟩ := by simp [Pos.Raw.unoffsetBy]
      rw [hback, hpart]
      simpa [Nat.add_assoc, List.splitOnPPrepend_cons_eq_if] using
        splitOnAux_singleton a (l ++ m ++ [a]) [] r (ofList m :: acc)
    · next h =>
      have hback : Pos.Raw.unoffsetBy ⟨utf8Len l + utf8Len m⟩ 0 = ⟨utf8Len l + utf8Len m⟩ := by
        simp [Pos.Raw.unoffsetBy]
      rw [hback, hafter]
      simpa [List.splitOnPPrepend_cons_eq_if, h, Nat.add_assoc] using
        splitOnAux_singleton c l (m ++ [a]) r acc
termination_by r.length

lemma splitOn_singleton (s : String) (c : Char) :
    s.splitOn (singleton c) = (s.toList.splitOn c).map ofList := by
  have hne : (singleton c == "") = false := by simp
  rw [splitOn, hne]
  simpa [List.splitOn_eq_splitOnP] using splitOnAux_singleton c [] [] s.toList []

/-- Splitting undoes joining. -/
lemma splitOn_intercalate {c : Char} {ss : List String} (hne : ss ≠ [])
    (h : ∀ s ∈ ss, c ∉ s.toList) :
    (String.intercalate (singleton c) ss).splitOn (singleton c) = ss := by
  rw [splitOn_singleton, toList_intercalate, toList_singleton, List.splitOn_intercalate]
  · simp
  · simpa using h
  · simpa using hne

end Splitting

/-! ## Trimmed texts -/

namespace Str

/-- There is no white space at either end. -/
def Trimmed (s : Str) : Prop :=
  (∀ c ∈ s.head?, isWhiteSpace c = false) ∧ ∀ c ∈ s.getLast?, isWhiteSpace c = false

lemma trimStart_of_head {s : Str} (h : ∀ c ∈ s.head?, isWhiteSpace c = false) :
    trimStart s = s := by
  cases s with
  | nil => rfl
  | cons c s => simp [trimStart, h c rfl]

lemma trimEnd_of_last {s : Str} (h : ∀ c ∈ s.getLast?, isWhiteSpace c = false) :
    trimEnd s = s := by
  have hrev := trimStart_of_head (s := s.reverse) (by simpa using h)
  rw [trimStart] at hrev
  rw [trimEnd, hrev, List.reverse_reverse]

lemma trim_of_trimmed {s : Str} (h : Trimmed s) : trim s = s := by
  rw [trim, trimStart_of_head h.1, trimEnd_of_last h.2]

lemma trimmed_trim (s : Str) : Trimmed (trim s) := by
  have hlast : ∀ s : Str, ∀ c ∈ (trimEnd s).getLast?, isWhiteSpace c = false := by
    intro s c hc
    rw [trimEnd, List.getLast?_reverse] at hc
    have hne : s.reverse.dropWhile isWhiteSpace ≠ [] := by
      rintro hnil
      simp [hnil] at hc
    rw [List.head?_eq_some_head hne] at hc
    simpa using Option.some.inj hc ▸ List.head_dropWhile_not isWhiteSpace hne
  refine ⟨?_, hlast _⟩
  intro c hc
  -- the first character is that of the text trimmed at its start
  obtain ⟨t, ht⟩ := prefix_trimEnd (trimStart s)
  have hhead : c ∈ (trimStart s).head? := by
    have hfront : (trimEnd (trimStart s)).head? = some c := hc
    rw [← ht, List.head?_append, hfront]
    rfl
  have hne : trimStart s ≠ [] := by
    rintro hnil
    simp [hnil] at hhead
  rw [List.head?_eq_some_head hne] at hhead
  simpa using Option.some.inj hhead ▸ List.head_dropWhile_not isWhiteSpace hne

/-- A text is trimmed when trimming leaves it as it is. -/
lemma trim_eq_self_iff {s : Str} : trim s = s ↔ Trimmed s :=
  ⟨fun h => h ▸ trimmed_trim s, trim_of_trimmed⟩

/-- A text in front without white space at its start keeps a trimmed text trimmed. -/
lemma Trimmed.cons {s : Str} (h : Trimmed s) {c : Char} (hc : isWhiteSpace c = false) :
    Trimmed (c :: s) := by
  refine ⟨fun a ha => ?_, fun a ha => ?_⟩
  · simpa using Option.some.inj ha ▸ hc
  · cases s with
    | nil => simpa using Option.some.inj ha ▸ hc
    | cons b s => exact h.2 a (by simpa using ha)

/-- Trimmed texts, joined. -/
lemma Trimmed.intercalate {sep : Str} {ss : List Str} (h : ∀ s ∈ ss, Trimmed s ∧ s ≠ []) :
    Trimmed (sep.intercalate ss) := by
  induction ss with
  | nil => exact ⟨(fun _ h => nomatch h), (fun _ h => nomatch h)⟩
  | cons s ss ih =>
    have ih := ih fun t ht => h t (List.mem_cons_of_mem _ ht)
    obtain ⟨hs, hne⟩ := h s List.mem_cons_self
    cases ss with
    | nil => simpa [List.intercalate] using hs
    | cons t ss =>
      have heq : sep.intercalate (s :: t :: ss) = s ++ (sep ++ sep.intercalate (t :: ss)) := by
        simp [List.intercalate, List.intersperse]
      have htail : sep.intercalate (t :: ss) ≠ [] := by
        have ht := (h t (by simp)).2
        cases ss <;> simp [List.intercalate, List.intersperse, ht]
      rw [heq]
      refine ⟨fun c hc => hs.1 c ?_, fun c hc => ih.2 c ?_⟩
      · rwa [List.head?_append_of_ne_nil _ hne] at hc
      · rwa [List.getLast?_append_of_ne_nil, List.getLast?_append_of_ne_nil _ htail] at hc
        simp [htail]

lemma toList_trim (s : String) : (Postit.trim s).toList = trim s.toList := String.toList_ofList

/-- `trim` leaves a text as it is when there is no white space at its ends. -/
lemma string_trim_eq_self_iff {s : String} : Postit.trim s = s ↔ Trimmed s.toList := by
  rw [← trim_eq_self_iff, ← toList_trim, String.toList_inj]

end Str

end Postit.Framework
