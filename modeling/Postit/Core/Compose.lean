import Postit.Framework.Words

/-!
# The text of a post in one piece

The text as a platform without separate fields for a link and for tags shows it.
-/

namespace Postit

open Framework Framework.Str

/-- A parsed URL, by its text, in which a colon ends the scheme. -/
structure Url where
  asStr : Str
  scheme : ':' ∈ asStr

lemma Url.ne_nil (link : Url) : link.asStr ≠ [] := List.ne_nil_of_mem link.scheme

/-- What a variant is composed of. -/
structure Variant where
  text : Str
  link : Option Url := none
  tags : List Str := []

/-- Punctuation a sentence puts around a link, which is not part of it. -/
def aroundALink : List Char :=
  ['.', ',', ';', ':', '!', '?', '(', ')', '[', ']', '<', '>', '\x22', '\x27', '\u060c', '\u061b',
    '\u061f']

/-- `str::trim_matches` -/
def trimMatches (set : List Char) (s : Str) : Str :=
  ((s.dropWhile (· ∈ set)).reverse.dropWhile (· ∈ set)).reverse

/-- `str::trim_end_matches` -/
def trimEndMatches (c : Char) (s : Str) : Str := (s.reverse.dropWhile (· = c)).reverse

/-- Whether the text holds the link as a whole URL.  A trailing slash does not count. -/
def holdsLink (text link : Str) : Bool :=
  (words text).any fun word =>
    trimEndMatches '/' (trimMatches aroundALink word) == trimEndMatches '/' link

variable (u : CaseTables)

/-- Whether a tag ends here: a longer one would go on. -/
def tagEnds (after : Str) : Bool :=
  after.head?.all fun next => !u.alphanumeric next && next != '_'

/-- Whether the lowercased text holds the hashtag as a whole tag. -/
def holdsTag (lowered hashtag : Str) : Bool := (matchTails hashtag 0 lowered).any (tagEnds u)

/-- The tag as it is written. -/
def hashtag (tag : Str) : Str := '#' :: tag

/-- The tags to add, as they are written: those the text does not hold, each once. -/
def addTag (lowered : Str) (added : List Str) (tag : Str) : List Str :=
  let key := u.toLowercase (hashtag tag)
  if !holdsTag u lowered key && !added.any (u.toLowercase · == key) then added ++ [hashtag tag]
  else added

def addTags (lowered : Str) (tags : List Str) : List Str := tags.foldl (addTag u lowered) []

/-- What separates the parts of a composed text. -/
def paragraph : Str := ['\n', '\n']

namespace Variant

variable (v : Variant)

def textParts : List Str := if v.text.isEmpty then [] else [v.text]

def linkParts : List Str :=
  match v.link with
  | some link => if holdsLink v.text link.asStr then [] else [link.asStr]
  | none => []

def tagParts : List Str :=
  let tags := addTags u (u.toLowercase v.text) v.tags
  if tags.isEmpty then [] else [[' '].intercalate tags]

end Variant

/-- The text, then the link and the tags it does not hold. -/
def postText (v : Variant) : Str :=
  paragraph.intercalate (v.textParts ++ (v.linkParts ++ v.tagParts u))

/-! ## Links -/

/-- A joined text holds the links that its parts hold. -/
lemma holdsLink_intercalate {sep : Str} (hne : sep ≠ [])
    (hsep : ∀ c ∈ sep, isWhiteSpace c = true) {parts : List Str} {link : Str} :
    holdsLink (sep.intercalate parts) link = true ↔ ∃ part ∈ parts, holdsLink part link = true := by
  simp only [holdsLink, words_intercalate hne hsep, List.any_eq_true, List.mem_flatMap]
  constructor
  · rintro ⟨word, ⟨part, hpart, hword⟩, heq⟩
    exact ⟨part, hpart, word, hword, heq⟩
  · rintro ⟨part, hpart, word, hword, heq⟩
    exact ⟨word, ⟨part, hpart, hword⟩, heq⟩

lemma prefix_trimEndMatches (c : Char) (s : Str) : trimEndMatches c s <+: s := by
  rw [trimEndMatches, ← List.reverse_suffix, List.reverse_reverse]
  exact List.dropWhile_suffix _

lemma infix_trimMatches (set : List Char) (s : Str) : trimMatches set s <:+: s := by
  have hend : trimMatches set s <+: s.dropWhile (· ∈ set) := by
    rw [trimMatches, ← List.reverse_suffix, List.reverse_reverse]
    exact List.dropWhile_suffix _
  exact hend.isInfix.trans (List.dropWhile_suffix _).isInfix

lemma mem_or_eq_of_trimEndMatches {a c : Char} {s : Str} (h : c ∈ s) :
    c ∈ trimEndMatches a s ∨ c = a := by
  rw [trimEndMatches, List.mem_reverse]
  have hsplit := List.takeWhile_append_dropWhile (p := (· = a)) (l := s.reverse)
  rw [← List.mem_reverse, ← hsplit, List.mem_append] at h
  refine h.symm.imp_right fun h => ?_
  simpa using List.mem_takeWhile_imp h

lemma trimMatches_eq_self {set : List Char} {s : Str} (hhead : ∀ c ∈ s.head?, c ∉ set)
    (hlast : ∀ c ∈ s.getLast?, c ∉ set) : trimMatches set s = s := by
  have hdrop : ∀ s : Str, (∀ c ∈ s.head?, c ∉ set) → s.dropWhile (· ∈ set) = s := by
    intro s h
    cases s with
    | nil => rfl
    | cons c s => simpa using h c rfl
  rw [trimMatches, hdrop s hhead, hdrop s.reverse (by simpa using hlast), List.reverse_reverse]

/-- The last character of a trimmed text is not one of those trimmed. -/
lemma getLast?_trimMatches {set : List Char} {s : Str} :
    ∀ c ∈ (trimMatches set s).getLast?, c ∉ set := by
  intro c hc
  rw [trimMatches, List.getLast?_reverse] at hc
  have hnot := List.head?_dropWhile_not (· ∈ set) (s.dropWhile (· ∈ set)).reverse
  rw [Option.mem_def.mp hc] at hnot
  simpa using hnot

lemma trimEndMatches_eq_self {a : Char} {s : Str} (h : ∀ c ∈ s.getLast?, c ≠ a) :
    trimEndMatches a s = s := by
  have hdrop : s.reverse.dropWhile (· = a) = s.reverse := by
    rw [← List.head?_reverse] at h
    cases hrev : s.reverse with
    | nil => rfl
    | cons c rest => simpa using h c (by rw [hrev]; rfl)
  rw [trimEndMatches, hdrop, List.reverse_reverse]

/-- A link that is held is there, up to its trailing slashes. -/
lemma infix_of_holdsLink {text link : Str} (h : holdsLink text link = true) :
    trimEndMatches '/' link <:+: text := by
  obtain ⟨word, hword, heq⟩ := List.any_eq_true.mp h
  rw [← beq_iff_eq.mp heq]
  exact ((prefix_trimEndMatches _ _).isInfix.trans (infix_trimMatches _ _)).trans
    (infix_of_mem_words hword)

/-! ## Tags -/

variable {u}

lemma infix_of_holdsTag {lowered key : Str} (h : holdsTag u lowered key = true) :
    key <:+: lowered := by
  obtain ⟨post, hpost, -⟩ := List.any_eq_true.mp h
  exact (List.prefix_append key post).isInfix.trans (suffix_of_mem_matchTails hpost).isInfix

lemma addTags_concat (lowered : Str) (tags : List Str) (tag : Str) :
    addTags u lowered (tags ++ [tag]) = addTag u lowered (addTags u lowered tags) tag := by
  rw [addTags, List.foldl_append]
  rfl

lemma mem_addTag {lowered : Str} {added : List Str} {tag written : Str} :
    written ∈ addTag u lowered added tag ↔ written ∈ added ∨ written = hashtag tag ∧
      holdsTag u lowered (u.toLowercase (hashtag tag)) = false ∧
      ∀ t ∈ added, u.toLowercase t ≠ u.toLowercase (hashtag tag) := by
  simp only [addTag]
  split
  · next h =>
    have h : holdsTag u lowered (u.toLowercase (hashtag tag)) = false ∧
        ∀ t ∈ added, u.toLowercase t ≠ u.toLowercase (hashtag tag) := by simpa using h
    rw [List.mem_append, List.mem_singleton, and_iff_left h]
  · next h =>
    refine ⟨.inl, fun hor => hor.resolve_right fun hnew => h ?_⟩
    simpa using hnew.2

lemma mem_foldl_addTag {lowered : Str} {added : List Str} {written : Str} (h : written ∈ added)
    (tags : List Str) : written ∈ tags.foldl (addTag u lowered) added := by
  induction tags generalizing added with
  | nil => exact h
  | cons tag tags ih => exact ih (mem_addTag.2 (.inl h))

/-- Each tag is held, or one with its key is added. -/
lemma holdsTag_or_mem_addTags (lowered : Str) {tags : List Str} {tag : Str} (h : tag ∈ tags) :
    holdsTag u lowered (u.toLowercase (hashtag tag)) = true ∨
      ∃ written ∈ addTags u lowered tags, u.toLowercase written = u.toLowercase (hashtag tag) := by
  obtain ⟨before, after, rfl⟩ := List.append_of_mem h
  rw [or_iff_not_imp_left, Bool.not_eq_true]
  intro hnot
  by_cases hkey : ∃ t ∈ addTags u lowered before, u.toLowercase t = u.toLowercase (hashtag tag)
  · obtain ⟨t, ht, heq⟩ := hkey
    refine ⟨t, ?_, heq⟩
    rw [addTags, List.foldl_append]
    exact mem_foldl_addTag ht _
  · refine ⟨hashtag tag, ?_, rfl⟩
    rw [addTags, List.foldl_append]
    refine mem_foldl_addTag (mem_addTag.2 (.inr ⟨rfl, hnot, ?_⟩)) after
    exact fun t ht heq => hkey ⟨t, ht, heq⟩

/-- What is added: the tags that are not held and the first with their key. -/
lemma mem_addTags_iff {lowered : Str} {tags : List Str} {written : Str} :
    written ∈ addTags u lowered tags ↔ ∃ before tag after, tags = before ++ tag :: after ∧
      written = hashtag tag ∧ holdsTag u lowered (u.toLowercase (hashtag tag)) = false ∧
      ∀ t ∈ before, u.toLowercase (hashtag t) ≠ u.toLowercase (hashtag tag) := by
  constructor
  · intro h
    induction tags using List.reverseRecOn with
    | nil => cases h
    | append_singleton tags tag ih =>
      rw [addTags_concat, mem_addTag] at h
      rcases h with h | ⟨rfl, hnot, hfirst⟩
      · obtain ⟨before, t, after, rfl, hrest⟩ := ih h
        exact ⟨before, t, after ++ [tag], by simp, hrest⟩
      · refine ⟨tags, tag, [], rfl, rfl, hnot, fun t ht heq => ?_⟩
        -- an earlier tag with this key was added, since it was not held either
        rcases holdsTag_or_mem_addTags lowered ht with hheld | ⟨w, hw, hkey⟩
        · rw [heq, hnot] at hheld
          cases hheld
        · exact hfirst w hw (hkey.trans heq)
  · rintro ⟨before, tag, after, rfl, rfl, hnot, hfirst⟩
    rw [addTags, List.foldl_append]
    refine mem_foldl_addTag (mem_addTag.2 (.inr ⟨rfl, hnot, fun w hw heq => ?_⟩)) after
    induction before using List.reverseRecOn with
    | nil => cases hw
    | append_singleton before t ih =>
      rw [List.foldl_append] at hw
      rcases mem_addTag.1 hw with hw | ⟨rfl, -⟩
      · exact ih (fun t' ht' => hfirst t' (List.mem_append_left _ ht')) hw
      · exact hfirst t (by simp) heq

/-- Of the tags that a text without any takes, those are added that the text does not hold. -/
lemma addTags_eq_filter (lowered : Str) (tags : List Str) :
    addTags u lowered tags =
      (addTags u [] tags).filter fun w => !holdsTag u lowered (u.toLowercase w) := by
  induction tags using List.reverseRecOn with
  | nil => rfl
  | append_singleton tags tag ih =>
    have hnone : holdsTag u [] (u.toLowercase (hashtag tag)) = false := rfl
    rw [addTags_concat, addTags_concat, ih]
    simp only [addTag, hnone, Bool.not_false, Bool.true_and]
    set all := addTags u [] tags
    set held := holdsTag u lowered (u.toLowercase (hashtag tag)) with hheld
    by_cases hany : ∃ w ∈ all, u.toLowercase w = u.toLowercase (hashtag tag)
    · have hall : (all.any (u.toLowercase · == u.toLowercase (hashtag tag))) = true := by
        simpa using hany
      have hkeep : (if (!true) = true then all ++ [hashtag tag] else all) = all := rfl
      rw [hall, hkeep]
      obtain ⟨w, hw, heq⟩ := hany
      refine if_neg fun hnew => ?_
      simp only [Bool.and_eq_true, Bool.not_eq_true', List.any_eq_false] at hnew
      refine hnew.2 w (List.mem_filter.mpr ⟨hw, ?_⟩) (by simp [heq])
      rw [heq, ← hheld, hnew.1]
      rfl
    · have hall : (all.any (u.toLowercase · == u.toLowercase (hashtag tag))) = false := by
        simpa using hany
      have hpart : ((all.filter fun w => !holdsTag u lowered (u.toLowercase w)).any
          (u.toLowercase · == u.toLowercase (hashtag tag))) = false := by
        rw [List.any_eq_false] at hall ⊢
        exact fun w hw => hall w (List.mem_of_mem_filter hw)
      rw [hall, hpart, Bool.not_false, if_pos rfl, Bool.and_true, List.filter_append,
        List.filter_cons, List.filter_nil, ← hheld]
      split <;> simp

/-- No tag is added when all are held. -/
lemma addTags_eq_nil_iff {lowered : Str} {tags : List Str} :
    addTags u lowered tags = [] ↔
      ∀ tag ∈ tags, holdsTag u lowered (u.toLowercase (hashtag tag)) = true := by
  constructor
  · intro hnil tag htag
    refine (holdsTag_or_mem_addTags lowered htag).resolve_right ?_
    rw [hnil]
    rintro ⟨w, hw, -⟩
    cases hw
  · intro hall
    refine List.eq_nil_iff_forall_not_mem.mpr fun w hw => ?_
    obtain ⟨before, tag, after, rfl, -, hnot, -⟩ := mem_addTags_iff.1 hw
    rw [hall tag (by simp)] at hnot
    cases hnot

end Postit
