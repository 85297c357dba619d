import Mathlib.Data.List.Infix
import Postit.Framework.Strs

/-!
# Words, matches and case

`str::split_whitespace`, `str::match_indices` and `str::to_lowercase`, and what they make of a text
that was joined: its words are those of its parts, a pattern in one of its parts is found, and it is
lowercased part by part.  The tables of the standard library are parameters.
-/

namespace Postit.Framework.Str

/-! ## Joined texts -/

lemma intercalate_cons_cons (sep s t : Str) (ss : List Str) :
    sep.intercalate (s :: t :: ss) = s ++ (sep ++ sep.intercalate (t :: ss)) := by
  simp [List.intercalate]

lemma intercalate_cons_of_ne_nil {ss : List Str} (h : ss ≠ []) (sep s : Str) :
    sep.intercalate (s :: ss) = s ++ (sep ++ sep.intercalate ss) := by
  obtain ⟨t, ss, rfl⟩ := List.exists_cons_of_ne_nil h
  exact intercalate_cons_cons sep s t ss

/-- A part of a joined text: nothing lies in front of it or a separator, and behind it too. -/
lemma exists_intercalate_eq {sep s : Str} {ss : List Str} (h : s ∈ ss) :
    ∃ pre post, sep.intercalate ss = pre ++ s ++ post ∧ (pre = [] ∨ sep <:+ pre) ∧
      (post = [] ∨ sep <+: post) := by
  induction ss with
  | nil => cases h
  | cons t ss ih =>
    by_cases hss : ss = []
    · obtain rfl : s = t := by simpa [hss] using h
      exact ⟨[], [], by simp [hss, List.intercalate], .inl rfl, .inl rfl⟩
    rw [intercalate_cons_of_ne_nil hss]
    rcases List.mem_cons.mp h with rfl | h
    · exact ⟨[], sep ++ sep.intercalate ss, by simp, .inl rfl, .inr (List.prefix_append _ _)⟩
    · obtain ⟨pre, post, heq, hpre, hpost⟩ := ih h
      refine ⟨t ++ (sep ++ pre), post, by simp [heq], .inr ?_, hpost⟩
      rcases hpre with rfl | ⟨pre, rfl⟩
      · exact ⟨t, by simp⟩
      · exact ⟨t ++ (sep ++ pre), by simp⟩

lemma infix_intercalate {sep s : Str} {ss : List Str} (h : s ∈ ss) : s <:+: sep.intercalate ss := by
  obtain ⟨pre, post, heq, -⟩ : ∃ pre post, sep.intercalate ss = pre ++ s ++ post ∧
      (pre = [] ∨ sep <:+ pre) ∧ (post = [] ∨ sep <+: post) := exists_intercalate_eq h
  exact ⟨pre, post, heq.symm⟩

/-- Joining parts that are not empty gives an empty text when there are none. -/
lemma eq_nil_of_intercalate {sep : Str} {ss : List Str} (hne : ∀ s ∈ ss, s ≠ [])
    (h : sep.intercalate ss = []) : ss = [] := by
  cases ss with
  | nil => rfl
  | cons s ss =>
    have hin : s <:+: sep.intercalate (s :: ss) := infix_intercalate List.mem_cons_self
    rw [h, List.infix_nil] at hin
    exact absurd hin (hne s List.mem_cons_self)

/-! ## Words -/

/-- `str::split_whitespace` -/
def words (s : Str) : List Str := (s.splitOnP isWhiteSpace).filter (· ≠ [])

lemma words_append_cons {c : Char} (hc : isWhiteSpace c = true) (s t : Str) :
    words (s ++ c :: t) = words s ++ words t := by
  rw [words, List.splitOnP_append_cons _ _ hc, List.filter_append]
  rfl

/-- White space in front has no words. -/
lemma words_white_append {w : Str} (hw : ∀ c ∈ w, isWhiteSpace c = true) (s : Str) :
    words (w ++ s) = words s := by
  induction w with
  | nil => rfl
  | cons c w ih =>
    have hcons := words_append_cons (hw c List.mem_cons_self) [] (w ++ s)
    rw [List.nil_append] at hcons
    rw [List.cons_append, hcons, ih fun a ha => hw a (List.mem_cons_of_mem _ ha)]
    rfl

/-- White space between texts separates their words. -/
lemma words_append_append {sep : Str} (hne : sep ≠ []) (hsep : ∀ c ∈ sep, isWhiteSpace c = true)
    (s t : Str) : words (s ++ (sep ++ t)) = words s ++ words t := by
  obtain ⟨c, sep, rfl⟩ := List.exists_cons_of_ne_nil hne
  rw [List.cons_append, words_append_cons (hsep c List.mem_cons_self),
    words_white_append fun a ha => hsep a (List.mem_cons_of_mem _ ha)]

/-- The words of a joined text are those of its parts. -/
lemma words_intercalate {sep : Str} (hne : sep ≠ []) (hsep : ∀ c ∈ sep, isWhiteSpace c = true)
    (ss : List Str) : words (sep.intercalate ss) = ss.flatMap words := by
  induction ss with
  | nil => rfl
  | cons s ss ih =>
    cases ss with
    | nil => simp [List.intercalate]
    | cons t ss => rw [intercalate_cons_cons, words_append_append hne hsep, ih]; rfl

/-- The first part of a split text is at its start, and every other one inside it; no part holds a
separator. -/
lemma exists_splitOnP_eq (p : Char → Bool) (s : Str) :
    ∃ w ws, s.splitOnP p = w :: ws ∧ w <+: s ∧ (∀ v ∈ ws, v <:+: s) ∧
      ∀ v ∈ w :: ws, ∀ c ∈ v, p c = false := by
  induction s with
  | nil => exact ⟨[], [], rfl, List.nil_prefix, (fun _ h => nomatch h), by simp⟩
  | cons c s ih =>
    obtain ⟨w, ws, heq, hw, hws, hnone⟩ := ih
    have hin := (List.suffix_cons c s).isInfix
    rw [List.splitOnP_cons_eq_if_modifyHead, heq]
    split
    · refine ⟨[], w :: ws, rfl, List.nil_prefix, fun v hv => ?_, fun v hv => ?_⟩
      · rcases List.mem_cons.mp hv with rfl | hv
        · exact hw.isInfix.trans hin
        · exact (hws v hv).trans hin
      · rcases List.mem_cons.mp hv with rfl | hv
        · exact fun _ h => nomatch h
        · exact hnone v hv
    · next hc =>
      refine ⟨c :: w, ws, rfl, List.cons_prefix_cons.mpr ⟨rfl, hw⟩,
        fun v hv => (hws v hv).trans hin, fun v hv a ha => ?_⟩
      rcases List.mem_cons.mp hv with rfl | hv
      · rcases List.mem_cons.mp ha with rfl | ha
        · exact Bool.eq_false_of_not_eq_true hc
        · exact hnone w List.mem_cons_self a ha
      · exact hnone v (List.mem_cons_of_mem _ hv) a ha

lemma infix_of_mem_words {s word : Str} (h : word ∈ words s) : word <:+: s := by
  obtain ⟨w, ws, heq, hw, hws, -⟩ := exists_splitOnP_eq isWhiteSpace s
  rw [words, heq] at h
  rcases List.mem_cons.mp (List.mem_of_mem_filter h) with rfl | h
  · exact hw.isInfix
  · exact hws word h

lemma isWhiteSpace_of_mem_words {s word : Str} (h : word ∈ words s) {c : Char} (hc : c ∈ word) :
    isWhiteSpace c = false := by
  obtain ⟨w, ws, heq, -, -, hnone⟩ := exists_splitOnP_eq isWhiteSpace s
  rw [words, heq] at h
  exact hnone word (List.mem_of_mem_filter h) c hc

lemma words_of_no_white {s : Str} (hne : s ≠ []) (h : ∀ c ∈ s, isWhiteSpace c = false) :
    words s = [s] := by
  rw [words, List.splitOnP_eq_singleton h]
  simp [hne]

/-- A run without white space is a word, when white space or nothing follows. -/
lemma words_run_append {run s : Str} (hne : run ≠ []) (hrun : ∀ c ∈ run, isWhiteSpace c = false)
    (hs : ∀ c ∈ s.head?, isWhiteSpace c = true) : words (run ++ s) = run :: words s := by
  cases s with
  | nil => rw [List.append_nil, words_of_no_white hne hrun]; rfl
  | cons c s =>
    have hc := hs c rfl
    have hskip : words (c :: s) = words s := by
      refine words_white_append (w := [c]) (fun a ha => ?_) s
      rwa [List.mem_singleton.mp ha]
    rw [words_append_cons hc, words_of_no_white hne hrun, hskip]
    rfl

/-! ## Matches -/

/-- What lies behind each match of a pattern that is not empty, as `str::match_indices` finds them:
from left to right, and none inside another.  `skip` characters belong to the last match. -/
def matchTails (pat : Str) : ℕ → Str → List Str
  | _, [] => []
  | skip + 1, _ :: s => matchTails pat skip s
  | 0, c :: s =>
    if pat.isPrefixOf (c :: s) then (c :: s).drop pat.length :: matchTails pat (pat.length - 1) s
    else matchTails pat 0 s

/-- A match is inside the text. -/
lemma suffix_of_mem_matchTails {pat s post : Str} {skip : ℕ}
    (h : post ∈ matchTails pat skip s) : pat ++ post <:+ s := by
  induction s generalizing skip with
  | nil => cases skip <;> cases h
  | cons c s ih =>
    cases skip with
    | succ skip => exact (ih h).trans (List.suffix_cons c s)
    | zero =>
      rw [matchTails] at h
      split at h
      · next hprefix =>
        obtain ⟨rest, hrest⟩ := List.isPrefixOf_iff_prefix.mp hprefix
        rcases List.mem_cons.mp h with rfl | h
        · rw [← hrest, List.drop_left]
        · exact (ih h).trans (List.suffix_cons c s)
      · exact (ih h).trans (List.suffix_cons c s)

/-- Text behind does not hide a match. -/
lemma mem_matchTails_append {pat s post : Str} {skip : ℕ}
    (h : post ∈ matchTails pat skip s) (t : Str) : post ++ t ∈ matchTails pat skip (s ++ t) := by
  induction s generalizing skip with
  | nil => cases skip <;> cases h
  | cons c s ih =>
    cases skip with
    | succ skip => exact ih h
    | zero =>
      rw [matchTails] at h
      rw [List.cons_append, matchTails]
      split at h
      · next hprefix =>
        have hprefix := List.isPrefixOf_iff_prefix.mp hprefix
        have hlong : pat <+: c :: (s ++ t) := hprefix.trans (List.prefix_append _ t)
        rw [if_pos (List.isPrefixOf_iff_prefix.mpr hlong)]
        rcases List.mem_cons.mp h with rfl | h
        · refine List.mem_cons.mpr (.inl ?_)
          exact (List.drop_append_of_le_length hprefix.length_le).symm
        · exact List.mem_cons_of_mem _ (ih h)
      · next hprefix =>
        -- a match that the text behind completes would leave no room for another
        have hroom := (suffix_of_mem_matchTails h).length_le
        have hnot : ¬pat.isPrefixOf (c :: (s ++ t)) = true := by
          intro hlong
          refine hprefix (List.isPrefixOf_iff_prefix.mpr ?_)
          refine List.prefix_of_prefix_length_le (List.isPrefixOf_iff_prefix.mp hlong)
            (List.prefix_append (c :: s) t) ?_
          rw [List.length_append] at hroom
          rw [List.length_cons]
          omega
        rw [if_neg hnot]
        exact ih h

/-- Text in front does not hide a match either, when no match goes beyond it: the pattern does not
hold the last character in front followed by its own first one. -/
lemma mem_matchTails_middle {a : Char} {pat s : Str} (post : Str) {skip : ℕ}
    (hskip : skip ≤ s.length) (hs : ∀ b ∈ s.getLast?, ¬[b, a] <:+: a :: pat) :
    post ∈ matchTails (a :: pat) skip (s ++ (a :: pat ++ post)) := by
  induction s generalizing skip with
  | nil =>
    obtain rfl : skip = 0 := Nat.le_zero.mp hskip
    have hprefix : (a :: pat).isPrefixOf (a :: (pat ++ post)) = true :=
      List.isPrefixOf_iff_prefix.mpr (List.prefix_append (a :: pat) post)
    rw [List.nil_append, List.cons_append, matchTails, if_pos hprefix]
    exact List.mem_cons.mpr (.inl (@List.drop_left _ (a :: pat) post).symm)
  | cons c s ih =>
    have hs' : ∀ b ∈ s.getLast?, ¬[b, a] <:+: a :: pat := by
      intro b hb
      refine hs b ?_
      rw [List.getLast?_cons, Option.mem_def.mp hb]
      rfl
    rw [List.cons_append]
    cases skip with
    | succ skip => exact ih (Nat.le_of_succ_le_succ hskip) hs'
    | zero =>
      rw [matchTails]
      split
      swap
      · exact ih (Nat.zero_le _) hs'
      next hprefix =>
      refine List.mem_cons_of_mem _ (ih ?_ hs')
      -- a match longer than what is in front would hold the two characters
      by_contra hlong
      have hlong : (c :: s ++ [a]).length ≤ (a :: pat).length := by
        simp only [List.length_cons, List.length_append, List.length_nil] at hlong ⊢
        omega
      have hshort : c :: s ++ [a] <+: c :: (s ++ (a :: pat ++ post)) := ⟨pat ++ post, by simp⟩
      have hin := List.prefix_of_prefix_length_le hshort (List.isPrefixOf_iff_prefix.mp hprefix)
        hlong
      have hlast := List.dropLast_append_getLast (List.cons_ne_nil c s)
      refine hs _ (List.getLast?_eq_some_getLast (List.cons_ne_nil c s)) ?_
      refine List.IsInfix.trans ⟨(c :: s).dropLast, [], ?_⟩ hin.isInfix
      conv_rhs => rw [← hlast]
      simp

/-! ## Lowercase -/

/-- The tables of the standard library. -/
structure CaseTables where
  /-- `char::to_lowercase` -/
  lowercase : Char → Str
  /-- `Cased` -/
  cased : Char → Bool
  /-- `Case_Ignorable` -/
  caseIgnorable : Char → Bool
  /-- `char::is_alphanumeric` -/
  alphanumeric : Char → Bool

namespace CaseTables

variable (u : CaseTables)

def ignorableThenCased (s : Str) : Bool := (s.dropWhile u.caseIgnorable).head?.any u.cased

/-- A capital sigma that ends a word has a form of its own. -/
def lowercaseSigma (before after : Str) : Char :=
  if u.ignorableThenCased before && !u.ignorableThenCased after then 'ς' else 'σ'

/-- `before` is what lies in front, from its end. -/
def lowercaseFrom (before : Str) : Str → Str
  | [] => []
  | c :: s =>
    (if c = 'Σ' then [u.lowercaseSigma before s] else u.lowercase c) ++
      lowercaseFrom (c :: before) s

/-- `str::to_lowercase` -/
def toLowercase (s : Str) : Str := u.lowercaseFrom [] s

/-- A character without case that is no part of a word. -/
structure Neutral (c : Char) : Prop where
  ne_sigma : c ≠ 'Σ'
  lowercase : u.lowercase c = [c]
  cased : u.cased c = false
  caseIgnorable : u.caseIgnorable c = false
  alphanumeric : u.alphanumeric c = false

variable {u} {c : Char}

lemma Neutral.ignorableThenCased_append (h : u.Neutral c) (s t : Str) :
    u.ignorableThenCased (s ++ c :: t) = u.ignorableThenCased s := by
  rw [ignorableThenCased, ignorableThenCased, List.dropWhile_append]
  split
  · next hnil =>
    rw [List.isEmpty_iff.mp hnil, List.dropWhile_cons, h.caseIgnorable]
    simp [h.cased]
  · next hne =>
    obtain ⟨a, l, heq⟩ := List.exists_cons_of_ne_nil (mt List.isEmpty_iff.mpr hne)
    rw [heq]
    rfl

/-- Nothing is seen across a neutral character. -/
lemma Neutral.lowercaseFrom_append (h : u.Neutral c) (before beyond s : Str) :
    u.lowercaseFrom (before ++ c :: beyond) s = u.lowercaseFrom before s := by
  induction s generalizing before with
  | nil => rfl
  | cons a s ih =>
    rw [lowercaseFrom, lowercaseFrom, lowercaseSigma, h.ignorableThenCased_append,
      ← List.cons_append, ih, ← lowercaseSigma]

/-- The texts around a neutral character are lowercased apart. -/
lemma Neutral.toLowercase_append (h : u.Neutral c) (s t : Str) :
    u.toLowercase (s ++ c :: t) = u.toLowercase s ++ c :: u.toLowercase t := by
  have hfrom : ∀ before, u.lowercaseFrom before (s ++ c :: t) =
      u.lowercaseFrom before s ++ c :: u.toLowercase t := by
    induction s with
    | nil =>
      intro before
      have hafter := h.lowercaseFrom_append [] before t
      rw [List.nil_append] at hafter
      have hstep : u.lowercaseFrom before (c :: t) =
          (if c = 'Σ' then [u.lowercaseSigma before t] else u.lowercase c) ++
            u.lowercaseFrom (c :: before) t := rfl
      rw [List.nil_append, hstep, if_neg h.ne_sigma, h.lowercase, hafter]
      rfl
    | cons a s ih =>
      intro before
      rw [List.cons_append, lowercaseFrom, lowercaseFrom, lowercaseSigma,
        h.ignorableThenCased_append, ← lowercaseSigma, ih, List.append_assoc]
  exact hfrom []

lemma Neutral.toLowercase_cons (h : u.Neutral c) (s : Str) :
    u.toLowercase (c :: s) = c :: u.toLowercase s := h.toLowercase_append [] s

end CaseTables

end Postit.Framework.Str
