import Postit.Core.Compose

/-!
# Composed text is stable

When a composed text is composed again with the same link and tags, nothing is added unless the link
is not recognised where it was put: one that ends in punctuation is taken for a shorter one.
-/

namespace Postit

open Framework Framework.Str

/-! ## What is claimed -/

/-- The composed text starts with the text and holds the link, up to its trailing slashes, and the
tags, in any case; and composing it again changes nothing. -/
structure Settled (u : CaseTables) (v : Variant) : Prop where
  text : v.text <+: postText u v
  link : ∀ link ∈ v.link, trimEndMatches '/' link.asStr <:+: postText u v
  tags : ∀ tag ∈ v.tags, u.toLowercase (hashtag tag) <:+: u.toLowercase (postText u v)
  again : postText u { v with text := postText u v } = postText u v

/-- What the tables say of the characters that a composed text is put together with. -/
structure Separates (u : CaseTables) : Prop where
  blank : u.Neutral ' '
  newline : u.Neutral '\n'
  hash : u.Neutral '#'

/-- The tag is added: the text does not hold it, and it is the first with its key. -/
def Variant.Adds (u : CaseTables) (v : Variant) (tag : Str) : Prop :=
  ∃ before after, v.tags = before ++ tag :: after ∧
    holdsTag u (u.toLowercase v.text) (u.toLowercase (hashtag tag)) = false ∧
    ∀ t ∈ before, u.toLowercase (hashtag t) ≠ u.toLowercase (hashtag tag)

/-- The link is recognised in the text, in itself, or in a tag that is added. -/
def Variant.LinkRecognised (u : CaseTables) (v : Variant) (link : Str) : Prop :=
  holdsLink v.text link = true ∨ holdsLink link link = true ∨
    ∃ tag, v.Adds u tag ∧ holdsLink (hashtag tag) link = true

/-- A key that looks like two hashtags: white space and another hash are inside it. -/
def Doubled (key : Str) : Prop := [' ', '#'] <:+: key ∨ ['\n', '#'] <:+: key

/-! ## The parts -/

variable {u : CaseTables} {v : Variant}

lemma isWhiteSpace_paragraph : ∀ c ∈ paragraph, isWhiteSpace c = true := by
  intro c hc
  obtain rfl : c = '\n' := by simpa [paragraph] using hc
  decide

/-- The parts of the composed text. -/
def Variant.parts (u : CaseTables) (v : Variant) : List Str :=
  v.textParts ++ (v.linkParts ++ v.tagParts u)

lemma mem_textParts {s : Str} : s ∈ v.textParts ↔ v.text ≠ [] ∧ s = v.text := by
  rw [Variant.textParts]
  split
  · next h => simp [List.isEmpty_iff.mp h]
  · next h => simp [mt List.isEmpty_iff.mpr h]

lemma mem_linkParts {s : Str} : s ∈ v.linkParts ↔
    ∃ link, v.link = some link ∧ holdsLink v.text link.asStr = false ∧ s = link.asStr := by
  rw [Variant.linkParts]
  cases v.link with
  | none => simp
  | some link => cases h : holdsLink v.text link.asStr <;> simp [h]

lemma mem_tagParts {s : Str} : s ∈ v.tagParts u ↔
    addTags u (u.toLowercase v.text) v.tags ≠ [] ∧
      s = [' '].intercalate (addTags u (u.toLowercase v.text) v.tags) := by
  simp only [Variant.tagParts]
  split
  · next h => simp [List.isEmpty_iff.mp h]
  · next h => simp [mt List.isEmpty_iff.mpr h]

lemma mem_addTags_iff_adds {written : Str} :
    written ∈ addTags u (u.toLowercase v.text) v.tags ↔
      ∃ tag, v.Adds u tag ∧ written = hashtag tag := by
  rw [mem_addTags_iff]
  constructor
  · rintro ⟨before, tag, after, heq, rfl, hnot, hfirst⟩
    exact ⟨tag, ⟨before, after, heq, hnot, hfirst⟩, rfl⟩
  · rintro ⟨tag, ⟨before, after, heq, hnot, hfirst⟩, rfl⟩
    exact ⟨before, tag, after, heq, rfl, hnot, hfirst⟩

lemma ne_nil_of_mem_parts {s : Str} (h : s ∈ v.parts u) : s ≠ [] := by
  rcases List.mem_append.mp h with h | h
  · obtain ⟨hne, rfl⟩ := mem_textParts.1 h
    exact hne
  rcases List.mem_append.mp h with h | h
  · obtain ⟨link, -, -, rfl⟩ := mem_linkParts.1 h
    exact link.ne_nil
  · obtain ⟨hne, rfl⟩ := mem_tagParts.1 h
    intro hnil
    refine hne (eq_nil_of_intercalate (fun w hw => ?_) hnil)
    obtain ⟨tag, -, rfl⟩ := mem_addTags_iff_adds.1 hw
    exact List.cons_ne_nil _ _

/-- Composing leaves the text in front. -/
lemma postText_eq (u : CaseTables) (v : Variant) : ∃ rest, postText u v = v.text ++ rest ∧
    (v.text = [] ∨ rest = [] ∨ paragraph <+: rest) := by
  by_cases hnil : v.text = []
  · exact ⟨postText u v, by simp [hnil], .inl hnil⟩
  have htext : v.textParts = [v.text] := by
    rw [Variant.textParts, if_neg (by simpa using hnil)]
  rw [postText, htext, List.singleton_append]
  by_cases hrest : v.linkParts ++ v.tagParts u = []
  · exact ⟨[], by simp [hrest, List.intercalate], .inr (.inl rfl)⟩
  · rw [intercalate_cons_of_ne_nil hrest]
    exact ⟨_, rfl, .inr (.inr (List.prefix_append _ _))⟩

/-- Nothing is added when the text holds it all. -/
lemma added_eq_nil_iff : v.linkParts ++ v.tagParts u = [] ↔
    (∀ link ∈ v.link, holdsLink v.text link.asStr = true) ∧
      ∀ tag ∈ v.tags,
        holdsTag u (u.toLowercase v.text) (u.toLowercase (hashtag tag)) = true := by
  have hlink : v.linkParts = [] ↔ ∀ link ∈ v.link, holdsLink v.text link.asStr = true := by
    rw [Variant.linkParts]
    cases v.link with
    | none => simp
    | some link => simp
  have htags : v.tagParts u = [] ↔ addTags u (u.toLowercase v.text) v.tags = [] := by
    simp [Variant.tagParts]
  rw [List.append_eq_nil_iff, hlink, htags, addTags_eq_nil_iff]

/-- Composing again changes nothing when nothing is added. -/
lemma postText_again_iff :
    postText u { v with text := postText u v } = postText u v ↔
      (∀ link ∈ v.link, holdsLink (postText u v) link.asStr = true) ∧
        ∀ tag ∈ v.tags,
          holdsTag u (u.toLowercase (postText u v)) (u.toLowercase (hashtag tag)) = true := by
  by_cases hnil : postText u v = []
  · have hparts : v.parts u = [] := eq_nil_of_intercalate (fun _ => ne_nil_of_mem_parts) hnil
    obtain ⟨rest, heq, -⟩ := postText_eq u v
    have htext : v.text = [] := by
      rw [hnil] at heq
      exact (List.append_eq_nil_iff.mp heq.symm).1
    have hsame : { v with text := postText u v } = v := by rw [hnil, ← htext]
    have hadded := added_eq_nil_iff.1 (List.append_eq_nil_iff.mp hparts).2
    rw [hsame, hnil, ← htext]
    exact iff_of_true rfl hadded
  · have htext : Variant.textParts { v with text := postText u v } = [postText u v] := by
      rw [Variant.textParts, if_neg (by simpa using hnil)]
    rw [← added_eq_nil_iff (v := { v with text := postText u v }), postText, htext,
      List.singleton_append]
    constructor
    · intro heq
      by_contra hne
      have hlen := congrArg List.length heq
      rw [intercalate_cons_of_ne_nil hne] at hlen
      simp [paragraph] at hlen
    · intro hnone
      rw [hnone]
      simp [List.intercalate]

/-! ## The link -/

/-- The composed text holds the link when it is recognised. -/
lemma holdsLink_postText_iff {link : Url} (hlink : v.link = some link) :
    holdsLink (postText u v) link.asStr = true ↔ v.LinkRecognised u link.asStr := by
  have hblank : ∀ c ∈ [' '], isWhiteSpace c = true := by
    intro c hc
    obtain rfl := List.mem_singleton.mp hc
    decide
  rw [postText, holdsLink_intercalate (by decide) isWhiteSpace_paragraph]
  constructor
  · rintro ⟨part, hpart, hheld⟩
    rcases List.mem_append.mp hpart with hpart | hpart
    · obtain ⟨-, rfl⟩ := mem_textParts.1 hpart
      exact .inl hheld
    rcases List.mem_append.mp hpart with hpart | hpart
    · obtain ⟨link', hlink', -, rfl⟩ := mem_linkParts.1 hpart
      obtain rfl := Option.some.inj (hlink.symm.trans hlink')
      exact .inr (.inl hheld)
    · obtain ⟨-, rfl⟩ := mem_tagParts.1 hpart
      obtain ⟨written, hwritten, hheld⟩ :=
        (holdsLink_intercalate (by decide) hblank).mp hheld
      obtain ⟨tag, hadds, rfl⟩ := mem_addTags_iff_adds.1 hwritten
      exact .inr (.inr ⟨tag, hadds, hheld⟩)
  · rintro (hheld | hheld | ⟨tag, hadds, hheld⟩)
    · refine ⟨v.text, List.mem_append_left _ (mem_textParts.2 ⟨?_, rfl⟩), hheld⟩
      intro hnil
      rw [hnil] at hheld
      cases hheld
    · cases htext : holdsLink v.text link.asStr with
      | true =>
        refine ⟨v.text, List.mem_append_left _ (mem_textParts.2 ⟨?_, rfl⟩), htext⟩
        intro hnil
        rw [hnil] at htext
        cases htext
      | false =>
        refine ⟨link.asStr, List.mem_append_right _ (List.mem_append_left _ ?_), hheld⟩
        exact mem_linkParts.2 ⟨link, hlink, htext, rfl⟩
    · have hwritten := mem_addTags_iff_adds.2 ⟨tag, hadds, rfl⟩
      refine ⟨_, List.mem_append_right _ (List.mem_append_right _ (mem_tagParts.2
        ⟨List.ne_nil_of_mem hwritten, rfl⟩)), ?_⟩
      exact (holdsLink_intercalate (by decide) hblank).mpr ⟨_, hwritten, hheld⟩

/-! ## The tags -/

/-- A character that a composed text is put together with, or its absence. -/
def Separator (c : Char) : Prop := c = ' ' ∨ c = '\n'

lemma Separator.neutral {c : Char} (h : Separator c) (hu : Separates u) : u.Neutral c := by
  rcases h with rfl | rfl
  · exact hu.blank
  · exact hu.newline

lemma Separator.tagEnds {c : Char} (h : Separator c) (hu : Separates u) (s : Str) :
    tagEnds u (c :: s) = true := by
  have hne : (c != '_') = true := by rcases h with rfl | rfl <;> decide
  simp [Postit.tagEnds, (h.neutral hu).alphanumeric, hne]

/-- A tag that is held stays held when a separator follows. -/
lemma holdsTag_append (hu : Separates u) {lowered key : Str} {c : Char} (hc : Separator c)
    (h : holdsTag u lowered key = true) (s : Str) :
    holdsTag u (lowered ++ c :: s) key = true := by
  obtain ⟨post, hpost, hends⟩ := List.any_eq_true.mp h
  refine List.any_eq_true.mpr ⟨post ++ c :: s, mem_matchTails_append hpost _, ?_⟩
  cases post with
  | nil => exact hc.tagEnds hu s
  | cons a post => exact hends

/-- A tag between separators is found when its key is not doubled. -/
lemma holdsTag_middle {key pre post : Str} (hkey : ¬Doubled ('#' :: key))
    (hpre : ∀ b ∈ pre.getLast?, Separator b) (hpost : tagEnds u post = true) :
    holdsTag u (pre ++ ('#' :: key ++ post)) ('#' :: key) = true := by
  refine List.any_eq_true.mpr ⟨post, mem_matchTails_middle post (Nat.zero_le _) ?_, hpost⟩
  intro b hb hin
  rcases hpre b hb with rfl | rfl
  · exact hkey (.inl hin)
  · exact hkey (.inr hin)

/-- A part between separators is lowercased by itself. -/
lemma toLowercase_middle (hu : Separates u) {pre post : Str} (s : Str)
    (hpre : ∀ b ∈ pre.getLast?, Separator b) (hpost : ∀ b ∈ post.head?, Separator b) :
    ∃ pre' post', u.toLowercase (pre ++ s ++ post) = pre' ++ (u.toLowercase s ++ post') ∧
      (∀ b ∈ pre'.getLast?, Separator b) ∧ tagEnds u post' = true := by
  have hback : ∃ post', u.toLowercase (s ++ post) = u.toLowercase s ++ post' ∧
      tagEnds u post' = true := by
    cases post with
    | nil => exact ⟨[], by simp, rfl⟩
    | cons c post =>
      have hc := hpost c rfl
      exact ⟨_, (hc.neutral hu).toLowercase_append s post, hc.tagEnds hu _⟩
  obtain ⟨post', heq, hends⟩ := hback
  by_cases hnil : pre = []
  · exact ⟨[], post', by rw [hnil]; exact heq, (fun _ h => nomatch h), hends⟩
  · have hlast := List.dropLast_append_getLast hnil
    set c := pre.getLast hnil with hc
    have hsep : Separator c := hpre c (List.getLast?_eq_some_getLast hnil)
    refine ⟨u.toLowercase pre.dropLast ++ [c], post', ?_, ?_, hends⟩
    · rw [← hlast, List.append_assoc, List.append_assoc, List.singleton_append,
        (hsep.neutral hu).toLowercase_append, heq]
      simp
    · intro b hb
      rw [List.getLast?_concat] at hb
      exact Option.some.inj hb ▸ hsep

lemma toLowercase_hashtag (hu : Separates u) (tag : Str) :
    u.toLowercase (hashtag tag) = '#' :: u.toLowercase tag := hu.hash.toLowercase_cons tag

/-- A part of a text that is joined with separators stands between separators. -/
lemma exists_between {sep : Str} (hne : sep ≠ []) (hsep : ∀ c ∈ sep, Separator c) {s : Str}
    {ss : List Str} (h : s ∈ ss) : ∃ pre post, sep.intercalate ss = pre ++ s ++ post ∧
      (∀ b ∈ pre.getLast?, Separator b) ∧ ∀ b ∈ post.head?, Separator b := by
  obtain ⟨pre, post, heq, hpre, hpost⟩ : ∃ pre post, sep.intercalate ss = pre ++ s ++ post ∧
      (pre = [] ∨ sep <:+ pre) ∧ (post = [] ∨ sep <+: post) := exists_intercalate_eq h
  refine ⟨pre, post, heq, fun b hb => ?_, fun b hb => ?_⟩
  · rcases hpre with rfl | ⟨pre, rfl⟩
    · cases hb
    · rw [List.getLast?_append_of_ne_nil _ hne] at hb
      exact hsep b (List.mem_of_getLast? hb)
  · rcases hpost with rfl | ⟨post, rfl⟩
    · cases hb
    · rw [List.head?_append_of_ne_nil _ hne] at hb
      exact hsep b (List.mem_of_mem_head? hb)

/-- A tag that is added stands between separators in the composed text. -/
lemma exists_postText_eq {tag : Str} (h : v.Adds u tag) :
    ∃ pre post, postText u v = pre ++ hashtag tag ++ post ∧
      (∀ b ∈ pre.getLast?, Separator b) ∧ ∀ b ∈ post.head?, Separator b := by
  have hwritten := mem_addTags_iff_adds.2 ⟨tag, h, rfl⟩
  have hblank : ∀ c ∈ [' '], Separator c := fun c hc => .inl (List.mem_singleton.mp hc)
  have hparagraph : ∀ c ∈ paragraph, Separator c := by
    intro c hc
    exact .inr (by simpa [paragraph] using hc)
  have hpart : [' '].intercalate (addTags u (u.toLowercase v.text) v.tags) ∈ v.parts u :=
    List.mem_append_right _ (List.mem_append_right _ (mem_tagParts.2
      ⟨List.ne_nil_of_mem hwritten, rfl⟩))
  obtain ⟨pre, post, hline, hpre, hpost⟩ := exists_between (by decide) hblank hwritten
  obtain ⟨front, back, heq, hfront, hback⟩ := exists_between (by decide) hparagraph hpart
  refine ⟨front ++ pre, post ++ back, ?_, fun b hb => ?_, fun b hb => ?_⟩
  · rw [postText, ← Variant.parts, heq, hline]
    simp
  · rw [List.getLast?_append, Option.mem_def, Option.or_eq_some_iff] at hb
    exact hb.elim (hpre b) fun hb => hfront b hb.2
  · rw [List.head?_append, Option.mem_def, Option.or_eq_some_iff] at hb
    exact hb.elim (hpost b) fun hb => hback b hb.2

/-- The composed text, lowercased: the text in front, and nothing or a separator behind it. -/
lemma toLowercase_postText (hu : Separates u) (v : Variant) (hne : v.text ≠ []) :
    u.toLowercase (postText u v) = u.toLowercase v.text ∨
      ∃ rest, u.toLowercase (postText u v) = u.toLowercase v.text ++ '\n' :: rest := by
  obtain ⟨rest, heq, hnil | rfl | ⟨rest, rfl⟩⟩ := postText_eq u v
  · exact absurd hnil hne
  · exact .inl (by rw [heq, List.append_nil])
  · rw [heq]
    exact .inr ⟨_, hu.newline.toLowercase_append v.text ('\n' :: rest)⟩

/-- Every tag is in the composed text, in some case. -/
lemma toLowercase_hashtag_infix (hu : Separates u) {tag : Str} (htag : tag ∈ v.tags) :
    u.toLowercase (hashtag tag) <:+: u.toLowercase (postText u v) := by
  rcases holdsTag_or_mem_addTags (u.toLowercase v.text) htag with hheld | ⟨written, hw, hkey⟩
  · have hin := infix_of_holdsTag hheld
    have hne : v.text ≠ [] := by
      intro hnil
      rw [hnil] at hheld
      cases hheld
    rcases toLowercase_postText hu v hne with heq | ⟨rest, heq⟩
    · rwa [heq]
    · rw [heq]
      exact hin.trans (List.prefix_append _ _).isInfix
  · obtain ⟨t, hadds, rfl⟩ := mem_addTags_iff_adds.1 hw
    obtain ⟨pre, post, heq, hpre, hpost⟩ := exists_postText_eq hadds
    obtain ⟨pre', post', hlower, -⟩ := toLowercase_middle hu (hashtag t) hpre hpost
    rw [heq, hlower, hkey]
    exact ⟨pre', post', by simp⟩

/-- A tag whose key is not doubled is held by the composed text. -/
lemma holdsTag_postText (hu : Separates u) {tag : Str} (htag : tag ∈ v.tags)
    (hkey : ¬Doubled (u.toLowercase (hashtag tag))) :
    holdsTag u (u.toLowercase (postText u v)) (u.toLowercase (hashtag tag)) = true := by
  rcases holdsTag_or_mem_addTags (u.toLowercase v.text) htag with hheld | ⟨written, hw, heqkey⟩
  · have hne : v.text ≠ [] := by
      intro hnil
      rw [hnil] at hheld
      cases hheld
    rcases toLowercase_postText hu v hne with heq | ⟨rest, heq⟩
    · rwa [heq]
    · rw [heq]
      exact holdsTag_append hu (.inr rfl) hheld rest
  · obtain ⟨t, hadds, rfl⟩ := mem_addTags_iff_adds.1 hw
    obtain ⟨pre, post, heq, hpre, hpost⟩ := exists_postText_eq hadds
    obtain ⟨pre', post', hlower, hpre', hpost'⟩ := toLowercase_middle hu (hashtag t) hpre hpost
    rw [heq, hlower, heqkey]
    rw [toLowercase_hashtag hu] at hkey ⊢
    exact holdsTag_middle hkey hpre' hpost'

/-- A link that starts like one is recognised in itself when there is no white space in it and it
does not end in punctuation. -/
lemma holdsLink_self_iff {link : Str} (hne : link ≠ [])
    (hhead : ∀ c ∈ link.head?, c ∉ aroundALink) :
    holdsLink link link = true ↔
      (∀ c ∈ link, isWhiteSpace c = false) ∧ ∀ c ∈ link.getLast?, c ∉ aroundALink := by
  constructor
  · intro h
    obtain ⟨word, hword, heq⟩ := List.any_eq_true.mp h
    have heq := beq_iff_eq.mp heq
    have hinner := (prefix_trimEndMatches '/' (trimMatches aroundALink word)).isInfix
    refine ⟨fun c hc => ?_, fun c hc haround => ?_⟩
    · rcases mem_or_eq_of_trimEndMatches (a := '/') hc with hc | rfl
      · rw [← heq] at hc
        exact isWhiteSpace_of_mem_words hword
          ((hinner.trans (infix_trimMatches _ _)).subset hc)
      · decide
    · have hslash : c ≠ '/' := by
        rintro rfl
        revert haround
        decide
      rw [trimEndMatches_eq_self (a := '/') (s := link) fun a ha => by
        rwa [Option.some.inj (ha.symm.trans hc)]] at heq
      -- the word is no longer than the link, so nothing was trimmed off it
      have hlen := (infix_of_mem_words hword).length_le
      have htrim := (infix_trimMatches aroundALink word).length_le
      have hfull : trimMatches aroundALink word = link := by
        rw [← heq]
        refine ((prefix_trimEndMatches _ _).eq_of_length_le ?_).symm
        rw [heq]
        omega
      exact getLast?_trimMatches c (hfull ▸ hc) haround
  · rintro ⟨hwhite, hlast⟩
    rw [holdsLink, words_of_no_white hne hwhite, List.any_cons, trimMatches_eq_self hhead hlast]
    simp

section Samples

/-- The tables, for ASCII. -/
def asciiTables : CaseTables where
  lowercase c := [c.toLower]
  cased := Char.isAlpha
  caseIgnorable c := ['\x27', '.', ':', '^', '\x60'].contains c
  alphanumeric := Char.isAlphanum

lemma asciiTables_separates : Separates asciiTables where
  blank := ⟨by decide, by decide, by decide, by decide, by decide⟩
  newline := ⟨by decide, by decide, by decide, by decide, by decide⟩
  hash := ⟨by decide, by decide, by decide, by decide, by decide⟩

def parenthesized : Variant where
  text := "See".toList
  link := some ⟨"https://a.example/(b)".toList, by decide⟩

def doubled : Variant where
  text := []
  tags := ["ab".toList, "ab #".toList]

def tagged : Variant where
  text := "I like #Rust".toList
  link := some ⟨"https://a.example/".toList, by decide⟩
  tags := ["rust".toList, "go".toList]

end Samples

end Postit
