import Mathlib.Data.List.TakeWhile
import Postit.Core.Text

/-!
# Text by byte offsets

A text is a list of characters and is measured in the bytes of its UTF-8 form.  Searching gives byte
offsets, and a text can only be cut between characters: `splitAt?` fails elsewhere, where the
standard library panics.  What `find?` found is a place to cut (`splitAt?_utf8Len`).
-/

namespace Postit.Framework

/-- A text, by its characters. -/
abbrev Str := List Char

namespace Str

/-! ## Lengths and cuts -/

/-- The length in bytes. -/
def utf8Len (s : Str) : ℕ := (s.map Char.utf8Size).sum

@[simp] lemma utf8Len_nil : utf8Len [] = 0 := rfl

@[simp] lemma utf8Len_cons (c : Char) (s : Str) : utf8Len (c :: s) = c.utf8Size + utf8Len s := by
  simp [utf8Len]

@[simp] lemma utf8Len_append (s t : Str) : utf8Len (s ++ t) = utf8Len s + utf8Len t := by
  simp [utf8Len]

lemma length_le_utf8Len (s : Str) : s.length ≤ utf8Len s := by
  induction s with
  | nil => exact Nat.le_refl 0
  | cons c s ih =>
    have hpos := c.utf8Size_pos
    rw [List.length_cons, utf8Len_cons]
    omega

/-- The text cut at a byte offset, or `none` when there is no cut between characters there. -/
def splitAt? : ℕ → Str → Option (Str × Str)
  | 0, s => some ([], s)
  | _ + 1, [] => none
  | n + 1, c :: s =>
    if c.utf8Size ≤ n + 1 then
      (splitAt? (n + 1 - c.utf8Size) s).map fun (pre, post) => (c :: pre, post)
    else none

lemma splitAt?_zero (s : Str) : splitAt? 0 s = some ([], s) := by
  cases s <;> rfl

/-- A text is cut where its first part ends. -/
@[simp] lemma splitAt?_utf8Len (pre post : Str) :
    splitAt? (utf8Len pre) (pre ++ post) = some (pre, post) := by
  induction pre with
  | nil => exact splitAt?_zero post
  | cons c pre ih =>
    have hpos := c.utf8Size_pos
    obtain ⟨n, hn⟩ : ∃ n, utf8Len (c :: pre) = n + 1 := ⟨utf8Len (c :: pre) - 1, by
      rw [utf8Len_cons]
      omega⟩
    have hsub : n + 1 - c.utf8Size = utf8Len pre := by
      rw [utf8Len_cons] at hn
      omega
    rw [hn, List.cons_append, splitAt?, if_pos, hsub, ih]
    · rfl
    · rw [utf8Len_cons] at hn
      omega

lemma append_of_splitAt? {n : ℕ} {s pre post : Str} (h : splitAt? n s = some (pre, post)) :
    pre ++ post = s ∧ utf8Len pre = n := by
  induction s generalizing n pre with
  | nil =>
    cases n with
    | zero => cases h; exact ⟨rfl, rfl⟩
    | succ n => cases h
  | cons c s ih =>
    cases n with
    | zero => cases h; exact ⟨rfl, rfl⟩
    | succ n =>
      rw [splitAt?] at h
      split at h
      · next hle =>
        obtain ⟨⟨pre', post'⟩, hsplit, heq⟩ := Option.map_eq_some_iff.mp h
        cases heq
        obtain ⟨rfl, hlen⟩ := ih hsplit
        refine ⟨rfl, ?_⟩
        rw [utf8Len_cons, hlen]
        omega
      · cases h

/-- `&s[..n]` -/
def sliceTo? (s : Str) (n : ℕ) : Option Str := (splitAt? n s).map Prod.fst

/-- `&s[n..]` -/
def sliceFrom? (s : Str) (n : ℕ) : Option Str := (splitAt? n s).map Prod.snd

/-- `&s[m..n]` -/
def slice? (s : Str) (m n : ℕ) : Option Str := (sliceTo? s n).bind fun s => sliceFrom? s m

@[simp] lemma sliceTo?_utf8Len (pre post : Str) :
    sliceTo? (pre ++ post) (utf8Len pre) = some pre := by
  simp [sliceTo?]

@[simp] lemma sliceFrom?_utf8Len (pre post : Str) :
    sliceFrom? (pre ++ post) (utf8Len pre) = some post := by
  simp [sliceFrom?]

lemma slice?_utf8Len (pre mid post : Str) :
    slice? (pre ++ mid ++ post) (utf8Len pre) (utf8Len pre + utf8Len mid) = some mid := by
  rw [slice?, ← utf8Len_append, sliceTo?_utf8Len, Option.bind_some, sliceFrom?_utf8Len]

/-- What is left behind a cut that is not at the start is shorter. -/
lemma length_lt_of_sliceFrom? {s t : Str} {n : ℕ} (h : sliceFrom? s n = some t) (hn : 0 < n) :
    t.length < s.length := by
  obtain ⟨⟨pre, post⟩, hsplit, rfl⟩ := Option.map_eq_some_iff.mp h
  obtain ⟨rfl, hlen⟩ := append_of_splitAt? hsplit
  have hne : pre ≠ [] := by
    rintro rfl
    rw [utf8Len_nil] at hlen
    omega
  have := List.length_pos_of_ne_nil hne
  show post.length < (pre ++ post).length
  rw [List.length_append]
  omega

/-! ## Searching -/

/-- `str::find`: the byte offset of the first occurrence. -/
def find? (pat : Str) : Str → Option ℕ
  | [] => if pat = [] then some 0 else none
  | c :: s => if pat.isPrefixOf (c :: s) then some 0 else (find? pat s).map (c.utf8Size + ·)

/-- In `pre ++ pat ++ post` no occurrence of `pat` starts before the one behind `pre`. -/
def IsFirst (pat pre post : Str) : Prop :=
  ∀ pre', pre' ++ pat <+: pre ++ pat ++ post → pre.length ≤ pre'.length

lemma find?_eq_none_iff {pat s : Str} : find? pat s = none ↔ ¬pat <:+: s := by
  induction s with
  | nil =>
    rw [find?, List.infix_nil]
    split <;> simp_all
  | cons c s ih =>
    rw [find?]
    split
    · next h =>
      have hfront := List.isPrefixOf_iff_prefix.mp h
      simp [hfront.isInfix]
    · next h =>
      rw [Option.map_eq_none_iff, ih, List.infix_cons_iff, ← List.isPrefixOf_iff_prefix]
      simp [h]

/-- What is found is the first occurrence. -/
lemma exists_of_find? {pat s : Str} {n : ℕ} (h : find? pat s = some n) :
    ∃ pre post, s = pre ++ pat ++ post ∧ IsFirst pat pre post ∧ utf8Len pre = n := by
  induction s generalizing n with
  | nil =>
    rw [find?] at h
    split at h
    · next hpat =>
      cases h
      exact ⟨[], [], by simp [hpat], fun _ _ => Nat.zero_le _, rfl⟩
    · cases h
  | cons c s ih =>
    rw [find?] at h
    split at h
    · next hfront =>
      cases h
      obtain ⟨post, hpost⟩ := List.isPrefixOf_iff_prefix.mp hfront
      exact ⟨[], post, hpost.symm, fun _ _ => Nat.zero_le _, rfl⟩
    · next hfront =>
      obtain ⟨m, hm, rfl⟩ := Option.map_eq_some_iff.mp h
      obtain ⟨pre, post, rfl, hfirst, rfl⟩ := ih hm
      refine ⟨c :: pre, post, rfl, ?_, utf8Len_cons c pre⟩
      intro pre' hpre'
      cases pre' with
      | nil => exact absurd (List.isPrefixOf_iff_prefix.mpr hpre') hfront
      | cons c' pre' =>
        have := hfirst pre' (List.cons_prefix_cons.mp hpre').2
        simpa using this

/-- A pattern that occurs has a first occurrence. -/
lemma exists_isFirst {pat s : Str} (h : pat <:+: s) :
    ∃ pre post, s = pre ++ pat ++ post ∧ IsFirst pat pre post := by
  cases hfind : find? pat s with
  | none => exact absurd h (find?_eq_none_iff.1 hfind)
  | some n =>
    obtain ⟨pre, post, heq, hfirst, -⟩ := exists_of_find? hfind
    exact ⟨pre, post, heq, hfirst⟩

/-- The first occurrence is found. -/
lemma find?_of_isFirst {pat pre post : Str} (h : IsFirst pat pre post) :
    find? pat (pre ++ pat ++ post) = some (utf8Len pre) := by
  cases hfind : find? pat (pre ++ pat ++ post) with
  | none =>
    refine absurd ?_ (find?_eq_none_iff.1 hfind)
    exact ⟨pre, post, rfl⟩
  | some n =>
    obtain ⟨pre', post', heq, hfirst, rfl⟩ := exists_of_find? hfind
    have hle := h pre' (heq ▸ ⟨post', rfl⟩)
    have hge := hfirst pre (heq ▸ ⟨post, rfl⟩)
    have hpre : pre = pre' := by
      rw [List.append_assoc, List.append_assoc] at heq
      exact (List.append_inj heq (by omega)).1
    rw [hpre]

/-- There is one first occurrence. -/
lemma isFirst_unique {pat pre pre' post post' : Str} (h : IsFirst pat pre post)
    (h' : IsFirst pat pre' post') (heq : pre ++ pat ++ post = pre' ++ pat ++ post') :
    pre = pre' ∧ post = post' := by
  have hle := h pre' (heq ▸ ⟨post', rfl⟩)
  have hge := h' pre (heq ▸ ⟨post, rfl⟩)
  rw [List.append_assoc, List.append_assoc] at heq
  obtain ⟨rfl, hrest⟩ := List.append_inj heq (by omega)
  exact ⟨rfl, List.append_cancel_left hrest⟩

/-- Whether an occurrence is the first does not depend on what follows it. -/
lemma IsFirst.congr {pat pre post : Str} (h : IsFirst pat pre post) (post' : Str) :
    IsFirst pat pre post' := by
  intro pre' hpre'
  by_contra hlt
  -- an earlier occurrence ends before this one does
  have hshort : (pre' ++ pat).length ≤ (pre ++ pat).length := by
    simp only [List.length_append]
    omega
  have hin := List.prefix_of_prefix_length_le hpre' (List.prefix_append _ post') hshort
  exact hlt (h pre' (hin.trans (List.prefix_append _ post)))

lemma isFirst_nil (pat post : Str) : IsFirst pat [] post := fun _ _ => Nat.zero_le _

/-- A pattern lies in front of a character it does not have, or behind it. -/
lemma prefix_of_prefix_append_cons {pat s t : Str} {c : Char} (hc : c ∉ pat)
    (h : pat <+: s ++ c :: t) : pat <+: s := by
  by_cases hlen : pat.length ≤ s.length
  · exact List.prefix_of_prefix_length_le h (List.prefix_append s _) hlen
  · refine absurd ?_ hc
    have hfull : s ++ [c] <+: s ++ c :: t := ⟨t, by simp⟩
    have hs : s ++ [c] <+: pat := by
      refine List.prefix_of_prefix_length_le hfull h ?_
      simp only [List.length_append, List.length_singleton]
      omega
    exact hs.subset (by simp)

/-- The first occurrence behind a text without any, when a character the pattern does not have
separates them. -/
lemma IsFirst.append_cons {pat s pre post : Str} {c : Char} (hc : c ∉ pat) (hs : ¬pat <:+: s)
    (h : IsFirst pat pre post) : IsFirst pat (s ++ c :: pre) post := by
  induction s with
  | nil =>
    intro pre' hpre'
    cases pre' with
    | nil =>
      have hnil := prefix_of_prefix_append_cons (s := []) hc hpre'
      exact absurd (List.prefix_nil.mp hnil ▸ List.infix_rfl) hs
    | cons c' pre' =>
      have := h pre' (List.cons_prefix_cons.mp hpre').2
      simpa using this
  | cons a s ih =>
    have ih := ih fun hin => hs (hin.trans (List.suffix_cons a s).isInfix)
    intro pre' hpre'
    cases pre' with
    | nil =>
      have hpre : pat <+: a :: s := by
        refine prefix_of_prefix_append_cons (t := pre ++ pat ++ post) hc ?_
        simpa using hpre'
      exact absurd hpre.isInfix hs
    | cons c' pre' =>
      have := ih pre' (List.cons_prefix_cons.mp hpre').2
      simpa using this

/-- A pattern without the characters of a text in front does not start in that text. -/
lemma infix_of_infix_append {pat s t : Str} (hne : pat ≠ []) (h : ∀ c ∈ pat, c ∉ s)
    (hin : pat <:+: s ++ t) : pat <:+: t := by
  induction s with
  | nil => exact hin
  | cons a s ih =>
    have ih := ih fun c hc hmem => h c hc (List.mem_cons_of_mem a hmem)
    rw [List.cons_append, List.infix_cons_iff] at hin
    rcases hin with hpre | hin
    · obtain ⟨c, pat, rfl⟩ := List.exists_cons_of_ne_nil hne
      obtain ⟨rfl, -⟩ := List.cons_prefix_cons.mp hpre
      exact absurd List.mem_cons_self (h c List.mem_cons_self)
    · exact ih hin

lemma infix_of_infix_append_right {pat s t : Str} (hne : pat ≠ []) (h : ∀ c ∈ pat, c ∉ t)
    (hin : pat <:+: s ++ t) : pat <:+: s := by
  rw [← List.reverse_infix] at hin ⊢
  rw [List.reverse_append] at hin
  refine infix_of_infix_append (by simpa using hne) ?_ hin
  simpa using h

/-- The texts in front of the first occurrence and behind it. -/
def cut? (pat s : Str) : Option (Str × Str) :=
  (find? pat s).bind fun n =>
    (sliceTo? s n).bind fun pre => (sliceFrom? s (n + utf8Len pat)).map fun post => (pre, post)

lemma cut?_of_isFirst {pat pre post : Str} (h : IsFirst pat pre post) :
    cut? pat (pre ++ pat ++ post) = some (pre, post) := by
  have hpre : sliceTo? (pre ++ pat ++ post) (utf8Len pre) = some pre := by
    rw [List.append_assoc, sliceTo?_utf8Len]
  have hpost : sliceFrom? (pre ++ pat ++ post) (utf8Len pre + utf8Len pat) = some post := by
    rw [← utf8Len_append, sliceFrom?_utf8Len]
  rw [cut?, find?_of_isFirst h, Option.bind_some, hpre, Option.bind_some, hpost, Option.map_some]

lemma cut?_eq_none {pat s : Str} (h : ¬pat <:+: s) : cut? pat s = none := by
  rw [cut?, find?_eq_none_iff.2 h, Option.bind_none]

/-- A text is cut around the first occurrence. -/
lemma cut?_eq_some_iff {pat s pre post : Str} :
    cut? pat s = some (pre, post) ↔ s = pre ++ pat ++ post ∧ IsFirst pat pre post := by
  constructor
  · intro h
    by_cases hin : pat <:+: s
    · obtain ⟨pre', post', rfl, hfirst⟩ := exists_isFirst hin
      rw [cut?_of_isFirst hfirst] at h
      cases h
      exact ⟨rfl, hfirst⟩
    · rw [cut?_eq_none hin] at h
      cases h
  · rintro ⟨rfl, hfirst⟩
    exact cut?_of_isFirst hfirst

/-! ## Cutting at characters -/

/-- `str::split_once` at a character. -/
def splitOnce (c : Char) (s : Str) : Option (Str × Str) :=
  if c ∈ s then some (s.takeWhile (· ≠ c), (s.dropWhile (· ≠ c)).tail) else none

lemma splitOnce_eq_none_iff {c : Char} {s : Str} : splitOnce c s = none ↔ c ∉ s := by
  simp [splitOnce]

lemma append_of_splitOnce {c : Char} {s pre post : Str} (h : splitOnce c s = some (pre, post)) :
    s = pre ++ c :: post ∧ c ∉ pre := by
  unfold splitOnce at h
  split at h
  swap
  · cases h
  next hmem =>
  cases h
  have hnot : c ∉ s.takeWhile (· ≠ c) := by
    intro hc
    simpa using List.mem_takeWhile_imp hc
  refine ⟨?_, hnot⟩
  -- the rest starts with the character, which the part in front does not hold
  have hsplit : s.takeWhile (· ≠ c) ++ s.dropWhile (· ≠ c) = s := List.takeWhile_append_dropWhile
  have hrest : c ∈ s.dropWhile (· ≠ c) := by
    rw [← hsplit, List.mem_append] at hmem
    exact hmem.resolve_left hnot
  have hne := List.ne_nil_of_mem hrest
  have hhead : (s.dropWhile (· ≠ c)).head hne = c := by
    simpa using List.head_dropWhile_not (· ≠ c) hne
  conv_lhs => rw [← hsplit, ← List.cons_head_tail hne, hhead]

lemma splitOnce_append {c : Char} {pre : Str} (h : c ∉ pre) (post : Str) :
    splitOnce c (pre ++ c :: post) = some (pre, post) := by
  have hall : ∀ a ∈ pre, decide (a ≠ c) = true := by
    intro a ha
    exact decide_eq_true fun heq => h (heq ▸ ha)
  rw [splitOnce, if_pos (by simp), List.takeWhile_append_of_pos hall,
    List.dropWhile_append_of_pos hall]
  simp

/-- `str::trim_start` -/
def trimStart (s : Str) : Str := s.dropWhile isWhiteSpace

/-- `str::trim_end` -/
def trimEnd (s : Str) : Str := (s.reverse.dropWhile isWhiteSpace).reverse

/-- `str::trim` -/
def trim (s : Str) : Str := trimEnd (trimStart s)

lemma trimStart_eq_nil_iff {s : Str} : trimStart s = [] ↔ ∀ c ∈ s, isWhiteSpace c = true :=
  List.dropWhile_eq_nil_iff

lemma trimEnd_eq_nil_iff {s : Str} : trimEnd s = [] ↔ ∀ c ∈ s, isWhiteSpace c = true := by
  rw [trimEnd, List.reverse_eq_nil_iff, List.dropWhile_eq_nil_iff]
  simp

lemma trimStart_suffix (s : Str) : trimStart s <:+ s := List.dropWhile_suffix isWhiteSpace

lemma prefix_trimEnd (s : Str) : trimEnd s <+: s := by
  rw [trimEnd, ← List.reverse_suffix, List.reverse_reverse]
  exact List.dropWhile_suffix isWhiteSpace

lemma trim_infix (s : Str) : trim s <:+: s :=
  (prefix_trimEnd _).isInfix.trans (trimStart_suffix s).isInfix

/-- Trimming stops where there is something else than white space. -/
lemma trimStart_append {pre s : Str} {c : Char} (hc : isWhiteSpace c = false) :
    trimStart (pre ++ c :: s) = trimStart pre ++ c :: s := by
  rw [trimStart, trimStart, List.dropWhile_append]
  split
  · next h =>
    rw [List.isEmpty_iff.mp h, List.dropWhile_cons, hc]
    rfl
  · rfl

lemma trimEnd_append {s post : Str} {c : Char} (hc : isWhiteSpace c = false) :
    trimEnd (s ++ c :: post) = s ++ c :: trimEnd post := by
  have h := @trimStart_append post.reverse s.reverse c hc
  rw [trimStart, trimStart] at h
  rw [trimEnd, List.reverse_append, List.reverse_cons, List.append_assoc, List.singleton_append, h]
  simp [trimEnd]

end Str

end Postit.Framework
