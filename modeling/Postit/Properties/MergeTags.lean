import Mathlib.Data.List.Basic
import Postit.Email.Merge

/-!
# Merge tags are substituted once and escaped soundly

A text is read as literal pieces and tags from left to right: `Tags s tags rest` says that the good
tags `tags`, each with the literal text in front of it, were met in `s` and `rest` is left.  Parsing
follows this reading (`parseFrom_spec`), so it accepts a text exactly when no tag it meets offends,
and renders it by putting a value in the place of each tag.
-/

namespace Postit.Email

open Postit.Framework

/-! ## Reading a text from left to right -/

/-- The inside of a good tag: a name that is not blank, and no brace. -/
def Good (inner : Str) : Prop := (nameAndFallback inner).1 ≠ [] ∧ '{' ∉ inner ∧ '}' ∉ inner

/-- The text behind a `{{` starts with the inside of a good tag and the `}}` that closes it. -/
def Closes (after inner rest : Str) : Prop :=
  after = inner ++ closeTag ++ rest ∧ Str.IsFirst closeTag inner rest ∧ Good inner

/-- The good tags met from the left, each with the text in front of it, and what is left. -/
inductive Tags : Str → List (Str × Str) → Str → Prop
  | nil (s : Str) : Tags s [] s
  | cons {lit after inner rest left : Str} {tags : List (Str × Str)}
    (hopen : Str.IsFirst openTag lit after) (hclose : Closes after inner rest)
    (htags : Tags rest tags left) : Tags (lit ++ openTag ++ after) ((lit, inner) :: tags) left

/-- A `{{` met from the left: the text in front of it and behind it. -/
def Meets (s front after : Str) : Prop :=
  ∃ tags lit, Tags s tags (lit ++ openTag ++ after) ∧ Str.IsFirst openTag lit after ∧
    s = front ++ openTag ++ after

/-- What a tag is replaced by. -/
def replaced (fields : Table Str Str) (inner : Str) : Str :=
  value fields (nameAndFallback inner).1 (nameAndFallback inner).2

/-- The text with a replacement for each tag. -/
def withTags (f : Str → Str) (tags : List (Str × Str)) (left : Str) : Str :=
  (tags.flatMap fun (lit, inner) => lit ++ f inner) ++ left

/-- Where good tags were met, the text is the literal pieces with the tags between them. -/
lemma Tags.eq_withTags {s left : Str} {tags : List (Str × Str)} (h : Tags s tags left) :
    s = withTags (fun inner => openTag ++ inner ++ closeTag) tags left := by
  induction h with
  | nil s => rfl
  | cons hopen hclose htags ih =>
    obtain ⟨rfl, -, -⟩ := hclose
    rw [ih]
    simp [withTags]

/-! ## Parsing -/

section Parsing

/-- The part of a good tag. -/
def fieldPart (inner : Str) : Part :=
  .field (nameAndFallback inner).1 ((nameAndFallback inner).2.filter fun f => !f.isEmpty)

/-- The parts of a text read to its end. -/
def partsOf (tags : List (Str × Str)) (left : Str) : List Part :=
  (tags.flatMap fun (lit, inner) => literals lit ++ [fieldPart inner]) ++ literals left

lemma mem_dropWhile {p : Char → Bool} {c : Char} (h : p c = false) (s : Str) :
    c ∈ s.dropWhile p ↔ c ∈ s := by
  constructor
  · exact fun hmem => (List.dropWhile_sublist p).mem hmem
  · intro hmem
    rw [← List.takeWhile_append_dropWhile (l := s) (p := p), List.mem_append] at hmem
    rcases hmem with hmem | hmem
    · rw [List.mem_takeWhile_imp hmem] at h
      cases h
    · exact hmem

/-- Trimming keeps what is not white space. -/
lemma mem_trim {c : Char} (h : isWhiteSpace c = false) (s : Str) : c ∈ Str.trim s ↔ c ∈ s := by
  rw [Str.trim, Str.trimEnd, Str.trimStart, List.mem_reverse, mem_dropWhile h, List.mem_reverse,
    mem_dropWhile h]

lemma braces_eq_true_iff (s : Str) : braces s = true ↔ '{' ∈ s ∨ '}' ∈ s := by
  simp only [braces, List.any_eq_true, Bool.or_eq_true, decide_eq_true_eq]
  constructor
  · rintro ⟨c, hmem, rfl | rfl⟩
    · exact Or.inl hmem
    · exact Or.inr hmem
  · rintro (hmem | hmem)
    · exact ⟨_, hmem, Or.inl rfl⟩
    · exact ⟨_, hmem, Or.inr rfl⟩

lemma braces_trim (s : Str) : braces (Str.trim s) = braces s := by
  rw [Bool.eq_iff_iff, braces_eq_true_iff, braces_eq_true_iff, mem_trim (by decide),
    mem_trim (by decide)]

/-- A brace is in the name or in the fallback exactly when it is in the tag. -/
lemma braces_nameAndFallback (inner : Str) :
    (braces (nameAndFallback inner).1 || (nameAndFallback inner).2.any braces) = braces inner := by
  unfold nameAndFallback
  cases hsplit : Str.splitOnce '|' inner with
  | none => simp [braces_trim]
  | some pair =>
    obtain ⟨name, fallback⟩ := pair
    obtain ⟨rfl, -⟩ := Str.append_of_splitOnce hsplit
    simp only [braces_trim, Option.any_some]
    simp [braces]

lemma good_iff (inner : Str) :
    Good inner ↔ ((nameAndFallback inner).1.isEmpty || braces (nameAndFallback inner).1 ||
      (nameAndFallback inner).2.any braces) = false := by
  rw [Bool.or_assoc, braces_nameAndFallback, Bool.or_eq_false_iff, Bool.eq_false_iff,
    Bool.eq_false_iff, Ne, Ne, braces_eq_true_iff, not_or, List.isEmpty_iff]
  exact Iff.rfl

lemma fieldOf_good {inner : Str} (h : Good inner) (pos : ℕ) :
    fieldOf pos inner = .ok (fieldPart inner) := by
  have hgood := (good_iff inner).mp h
  simp only [fieldOf, hgood, Bool.false_eq_true, if_false]
  rfl

lemma fieldOf_bad {inner : Str} (h : ¬Good inner) (pos : ℕ) :
    fieldOf pos inner = .error (.badName pos) := by
  rw [good_iff, Bool.not_eq_false] at h
  simp only [fieldOf, h, if_true]

lemma parseFrom_done {rest : Str} (h : ¬openTag <:+: rest) (offset : ℕ) (parts : List Part) :
    parseFrom rest offset parts = some (.ok (parts ++ literals rest)) := by
  rw [parseFrom]
  simp only [Str.find?_eq_none_iff.mpr h]

/-- Where the slices of a tag that is opened behind `lit` fall. -/
lemma slices_of_open (lit after : Str) :
    Str.sliceTo? (lit ++ openTag ++ after) (Str.utf8Len lit) = some lit ∧
    Str.sliceFrom? (lit ++ openTag ++ after) (Str.utf8Len lit + 2) = some after := by
  constructor
  · rw [List.append_assoc, Str.sliceTo?_utf8Len]
  · rw [show Str.utf8Len lit + 2 = Str.utf8Len (lit ++ openTag) by rw [Str.utf8Len_append]; rfl,
      Str.sliceFrom?_utf8Len]

lemma parseFrom_unclosed {lit after : Str} (hopen : Str.IsFirst openTag lit after)
    (hclose : ¬closeTag <:+: after) (offset : ℕ) (parts : List Part) :
    parseFrom (lit ++ openTag ++ after) offset parts =
      some (.error (.unclosed (offset + Str.utf8Len lit))) := by
  rw [parseFrom]
  simp only [Str.find?_of_isFirst hopen, (slices_of_open lit after).1, (slices_of_open lit after).2,
    Str.find?_eq_none_iff.mpr hclose]

lemma parseFrom_closed {lit inner rest : Str}
    (hopen : Str.IsFirst openTag lit (inner ++ closeTag ++ rest))
    (hclose : Str.IsFirst closeTag inner rest) (offset : ℕ) (parts : List Part) :
    parseFrom (lit ++ openTag ++ (inner ++ closeTag ++ rest)) offset parts =
      match fieldOf (offset + Str.utf8Len lit) inner with
      | .error e => some (.error e)
      | .ok field =>
        parseFrom rest (offset + Str.utf8Len (lit ++ openTag ++ inner ++ closeTag))
          (parts ++ literals lit ++ [field]) := by
  have hopenLen : Str.utf8Len (lit ++ openTag) = Str.utf8Len lit + 2 := by
    rw [Str.utf8Len_append]
    rfl
  have hinner : Str.slice? (lit ++ openTag ++ (inner ++ closeTag ++ rest)) (Str.utf8Len lit + 2)
      (Str.utf8Len lit + 2 + Str.utf8Len inner) = some inner := by
    have := Str.slice?_utf8Len (lit ++ openTag) inner (closeTag ++ rest)
    rwa [hopenLen, List.append_assoc _ inner, ← List.append_assoc inner] at this
  have hconsumed : Str.utf8Len lit + 2 + Str.utf8Len inner + 2 =
      Str.utf8Len (lit ++ openTag ++ inner ++ closeTag) := by
    rw [Str.utf8Len_append, Str.utf8Len_append, hopenLen]
    rfl
  have hrest : Str.sliceFrom? (lit ++ openTag ++ (inner ++ closeTag ++ rest))
      (Str.utf8Len lit + 2 + Str.utf8Len inner + 2) = some rest := by
    have := Str.sliceFrom?_utf8Len (lit ++ openTag ++ inner ++ closeTag) rest
    rwa [← hconsumed, List.append_assoc _ closeTag, List.append_assoc _ inner,
      ← List.append_assoc inner] at this
  rw [parseFrom]
  simp only [Str.find?_of_isFirst hopen, (slices_of_open lit _).1, (slices_of_open lit _).2,
    Str.find?_of_isFirst hclose, hinner]
  cases fieldOf (offset + Str.utf8Len lit) inner with
  | error e => rfl
  | ok field =>
    dsimp only
    split
    · next hnone =>
      rw [hrest] at hnone
      cases hnone
    · next rest' hsome =>
      rw [hrest] at hsome
      cases hsome
      rw [hconsumed]

/-- Parsing reads the text from left to right up to its end, or up to the first tag that offends. -/
lemma parseFrom_spec (rest : Str) (offset : ℕ) (parts : List Part) :
    (∃ tags left, Tags rest tags left ∧ ¬openTag <:+: left ∧
      parseFrom rest offset parts = some (.ok (parts ++ partsOf tags left))) ∨
    (∃ front after e, Meets rest front after ∧ (¬∃ inner rest, Closes after inner rest) ∧
      parseFrom rest offset parts = some (.error e) ∧ e.pos = offset + Str.utf8Len front) := by
  -- on the length of the text: a good tag is followed by a shorter one
  induction hn : rest.length using Nat.strong_induction_on generalizing rest offset parts with
  | _ n ih =>
    by_cases hopen : openTag <:+: rest
    swap
    · exact Or.inl ⟨[], rest, .nil rest, hopen, parseFrom_done hopen offset parts⟩
    obtain ⟨lit, after, rfl, hfirst⟩ := Str.exists_isFirst hopen
    have hmeets : Meets (lit ++ openTag ++ after) lit after := ⟨[], lit, .nil _, hfirst, rfl⟩
    by_cases hclose : closeTag <:+: after
    swap
    · refine Or.inr ⟨lit, after, _, hmeets, ?_, parseFrom_unclosed hfirst hclose offset parts, rfl⟩
      rintro ⟨inner, rest, rfl, -, -⟩
      exact hclose ⟨inner, rest, rfl⟩
    obtain ⟨inner, rest, rfl, hfirst'⟩ := Str.exists_isFirst hclose
    by_cases hgood : Good inner
    swap
    · refine Or.inr ⟨lit, _, .badName (offset + Str.utf8Len lit), hmeets, ?_, ?_, rfl⟩
      · rintro ⟨inner', rest', heq, hclose', hgood'⟩
        obtain ⟨rfl, -⟩ := Str.isFirst_unique hfirst' hclose' heq
        exact hgood hgood'
      · rw [parseFrom_closed hfirst hfirst', fieldOf_bad hgood]
    have hcloses : Closes (inner ++ closeTag ++ rest) inner rest := ⟨rfl, hfirst', hgood⟩
    have hstep := parseFrom_closed hfirst hfirst' offset parts
    rw [fieldOf_good hgood] at hstep
    dsimp only at hstep
    rw [hstep]
    have hlt : rest.length < n := by
      simp only [← hn, List.length_append]
      simp [openTag]
      omega
    rcases ih _ hlt rest (offset + Str.utf8Len (lit ++ openTag ++ inner ++ closeTag))
        (parts ++ literals lit ++ [fieldPart inner]) rfl with
      ⟨tags, left, htags, hleft, heq⟩ | ⟨front, after', e, hmeets', hoffends, heq, hpos⟩
    · refine Or.inl ⟨(lit, inner) :: tags, left, .cons hfirst hcloses htags, hleft, ?_⟩
      rw [heq]
      simp [partsOf]
    · refine Or.inr ⟨lit ++ openTag ++ inner ++ closeTag ++ front, after', e, ?_, hoffends, heq, ?_⟩
      · obtain ⟨tags, lit', htags, hfirst'', heq'⟩ := hmeets'
        refine ⟨(lit, inner) :: tags, lit', .cons hfirst hcloses htags, hfirst'', ?_⟩
        rw [heq']
        simp
      · rw [hpos, Str.utf8Len_append _ front]
        omega

end Parsing

/-- A text read to its end has no tag that offends. -/
lemma Tags.closes_of_meets {s left : Str} {tags : List (Str × Str)} (h : Tags s tags left)
    (hleft : ¬openTag <:+: left) {tags' : List (Str × Str)} {lit after : Str}
    (h' : Tags s tags' (lit ++ openTag ++ after)) (hfirst : Str.IsFirst openTag lit after) :
    ∃ inner rest, Closes after inner rest := by
  induction h generalizing tags' with
  | nil s =>
    -- nothing was met, and yet there is a `{{`
    cases h' with
    | nil => exact absurd ⟨lit, after, rfl⟩ hleft
    | cons hopen hclose htags => exact absurd ⟨_, _, rfl⟩ hleft
  | cons hopen hclose htags ih =>
    generalize hs : _ ++ openTag ++ _ = s' at h'
    generalize hend : lit ++ openTag ++ after = s'' at h'
    cases h' with
    | nil s =>
      obtain ⟨-, rfl⟩ := Str.isFirst_unique hopen hfirst (hs.trans hend.symm)
      exact ⟨_, _, hclose⟩
    | cons hopen' hclose' htags' =>
      obtain ⟨-, rfl⟩ := Str.isFirst_unique hopen hopen' hs
      obtain ⟨hafter, hfirst₁, -⟩ := hclose
      obtain ⟨hafter', hfirst₂, -⟩ := hclose'
      obtain ⟨-, rfl⟩ := Str.isFirst_unique hfirst₁ hfirst₂ (hafter.symm.trans hafter')
      subst hend
      exact ih hleft htags'

/-! ## Rendering -/

section Rendering

variable (fields : Table Str Str)

/-- What a part stands for. -/
def Part.text (fields : Table Str Str) : Part → Str
  | .literal text => text
  | .field name fallback => value fields name fallback

/-- Decodes the five entities. -/
def decodeHtml : Str → Str
  | '&' :: 'a' :: 'm' :: 'p' :: ';' :: s => '&' :: decodeHtml s
  | '&' :: 'l' :: 't' :: ';' :: s => '<' :: decodeHtml s
  | '&' :: 'g' :: 't' :: ';' :: s => '>' :: decodeHtml s
  | '&' :: 'q' :: 'u' :: 'o' :: 't' :: ';' :: s => '\x22' :: decodeHtml s
  | '&' :: '#' :: '3' :: '9' :: ';' :: s => '\x27' :: decodeHtml s
  | c :: s => c :: decodeHtml s
  | [] => []

/-- Parts are rendered one after the other. -/
lemma render_eq (parts : List Part) (escape : Escape) :
    render parts fields escape =
      parts.flatMap fun part => escapeInto [] (part.text fields) escape := by
  have hinto : ∀ out text, escapeInto out text escape = out ++ escapeInto [] text escape := by
    intro out text
    cases escape <;> simp [escapeInto]
  have hfold : ∀ (parts : List Part) (out : Str),
      parts.foldl (fun out part =>
        match part with
        | .literal text => escapeInto out text escape
        | .field name fallback => escapeInto out (value fields name fallback) escape) out =
      out ++ parts.flatMap fun part => escapeInto [] (part.text fields) escape := by
    intro parts
    induction parts with
    | nil => simp
    | cons part parts ih =>
      intro out
      rw [List.foldl_cons, ih, List.flatMap_cons, ← List.append_assoc]
      cases part <;> simp only [Part.text] <;> rw [← hinto]
  exact hfold parts []

lemma render_none (parts : List Part) :
    render parts fields .none = parts.flatMap (Part.text fields) := by
  simp [render_eq, escapeInto]

/-- Escaping the rendered text as a whole is escaping its parts. -/
lemma render_html (parts : List Part) :
    render parts fields .html = (render parts fields .none).flatMap htmlChar := by
  rw [render_none, render_eq, List.flatMap_assoc]
  rfl

lemma render_header (parts : List Part) :
    render parts fields .header =
      (render parts fields .none).filter fun c => !(c = '\r' || c = '\n') := by
  rw [render_none, render_eq, List.filter_flatMap]
  rfl

lemma htmlChar_safe (c : Char) : ∀ c' ∈ htmlChar c, c' ∉ ['<', '>', '\x22', '\x27'] := by
  have hall : ∀ l : List Char, (l.all fun c' => c' ∉ ['<', '>', '\x22', '\x27']) = true →
      ∀ c' ∈ l, c' ∉ ['<', '>', '\x22', '\x27'] :=
    fun l h c' hc' => of_decide_eq_true (List.all_eq_true.mp h c' hc')
  unfold htmlChar
  split
  · exact hall _ (by decide)
  · exact hall _ (by decide)
  · exact hall _ (by decide)
  · exact hall _ (by decide)
  · exact hall _ (by decide)
  · next h₁ h₂ h₃ h₄ =>
    intro c' hc'
    obtain rfl := List.mem_singleton.mp hc'
    simp only [List.mem_cons, List.not_mem_nil, or_false, not_or]
    exact ⟨h₁, h₂, h₃, h₄⟩

lemma decodeHtml_htmlChar (c : Char) (s : Str) :
    decodeHtml (htmlChar c ++ s) = c :: decodeHtml s := by
  unfold htmlChar
  split
  · rfl
  · rfl
  · rfl
  · rfl
  · rfl
  · next h _ _ _ _ =>
    rw [List.singleton_append, decodeHtml.eq_def]
    split <;> simp_all

lemma decodeHtml_flatMap (s : Str) : decodeHtml (s.flatMap htmlChar) = s := by
  induction s with
  | nil => rfl
  | cons c s ih => rw [List.flatMap_cons, decodeHtml_htmlChar, ih]

lemma text_fieldPart (inner : Str) : (fieldPart inner).text fields = replaced fields inner := by
  simp only [fieldPart, Part.text, replaced, value]
  have hfallback : ((nameAndFallback inner).2.filter fun f => !f.isEmpty).getD [] =
      (nameAndFallback inner).2.getD [] := by
    cases (nameAndFallback inner).2 with
    | none => rfl
    | some f => cases f <;> rfl
  rw [hfallback]

lemma flatMap_text_literals (text : Str) : (literals text).flatMap (Part.text fields) = text := by
  unfold literals
  split
  · next h => rw [h]; rfl
  · simp [Part.text]

/-- The rendering of a text read to its end. -/
lemma render_partsOf (tags : List (Str × Str)) (left : Str) :
    render (partsOf tags left) fields .none = withTags (replaced fields) tags left := by
  rw [render_none, partsOf, withTags, List.flatMap_append, flatMap_text_literals,
    List.flatMap_assoc]
  congr 2
  funext ⟨lit, inner⟩
  simp [flatMap_text_literals, text_fieldPart]

end Rendering

end Postit.Email
