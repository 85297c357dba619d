import Mathlib.Data.List.SplitBy
import Postit.Core.Measure
import Postit.Properties.ComposedText

/-!
# Shortening clears the violation

The fix of a text that is too long gives the length to shorten it to.  Where the link and the tags
are part of what is measured it leaves room for those that were added to the long text, which is too
little when the long text held some of them itself.
-/

namespace Postit

open Framework Framework.Str

/-! ## Counting -/

/-- What the Unicode libraries do with the characters that texts are put together with: clusters end
at a line feed, which only joins a carriage return, and between a blank and a hash; and the form C
of a text is that of its parts. -/
structure Segmentation.Standard (g : Segmentation) : Prop where
  flatten : ∀ s, (g.graphemes s).flatten = s
  ne_nil : ∀ s, ∀ c ∈ g.graphemes s, c ≠ []
  newline : ∀ s t, g.graphemes (s ++ '\n' :: t) = g.graphemes (s ++ ['\n']) ++ g.graphemes t
  beforeNewline : ∀ s, s.getLast? ≠ some '\r' →
    g.graphemes (s ++ ['\n']) = g.graphemes s ++ [['\n']]
  carriage : ∀ s, g.graphemes (s ++ ['\r']) = g.graphemes s ++ [['\r']] ∧
    g.graphemes (s ++ ['\r', '\n']) = g.graphemes s ++ [['\r', '\n']]
  hash : ∀ s t, g.graphemes (s ++ ' ' :: '#' :: t) =
    g.graphemes (s ++ [' ']) ++ g.graphemes ('#' :: t)
  blank : ∀ s, (g.graphemes s).length ≤ (g.graphemes (s ++ [' '])).length
  letters : ∀ n, g.graphemes (List.replicate n 'a') = List.replicate n ['a']
  nfc_append : ∀ c, Separator c → ∀ s t, g.nfc (s ++ c :: t) = g.nfc s ++ c :: g.nfc t
  nfc_ne_nil : ∀ s, s ≠ [] → g.nfc s ≠ []
  nfc_letters : ∀ n, g.nfc (List.replicate n 'a') = List.replicate n 'a'

/-- The length in the units of the measure, however large it is. -/
def Segmentation.count (g : Segmentation) : TextMeasure → Str → ℕ
  | .graphemes, s => (g.graphemes s).length
  | .utf16Units, s => utf16Len s
  | .bytes, s => utf8Len s
  | .xWeighted, s => ((words (g.nfc s)).map (runWeight g false)).sum +
      (((g.nfc s).filter isWhiteSpace).map charWeight).sum

variable {g : Segmentation}

/-- White space is no part of an emoji sequence. -/
lemma isEmojiSequence_white {s : Str} (h : ∀ c ∈ s, isWhiteSpace c = true) :
    isEmojiSequence s = false := by
  rw [isEmojiSequence, Bool.and_eq_false_iff]
  refine .inr (List.any_eq_false.mpr fun c hc hemoji => ?_)
  have hwhite := h c hc
  simp only [Bool.or_eq_true, Bool.and_eq_true, decide_eq_true_eq] at hemoji
  rcases hemoji with (((rfl | rfl) | rfl) | hregional) | hmodifier
  · exact absurd hwhite (by decide)
  · exact absurd hwhite (by decide)
  · exact absurd hwhite (by decide)
  all_goals
    simp only [isWhiteSpace, Bool.or_eq_true, Bool.and_eq_true, decide_eq_true_eq] at hwhite
    omega

/-- White space weighs what its characters do. -/
lemma graphemesWeight_white (hg : g.Standard) {s : Str} (h : ∀ c ∈ s, isWhiteSpace c = true) :
    graphemesWeight g s = (s.map charWeight).sum := by
  have hweight : ∀ c ∈ g.graphemes s, graphemeWeight c = (c.map charWeight).sum := by
    intro c hc
    have hwhite : ∀ a ∈ c, isWhiteSpace a = true := by
      intro a ha
      refine h a ?_
      rw [← hg.flatten s]
      exact List.mem_flatten_of_mem hc ha
    rw [graphemeWeight, isEmojiSequence_white hwhite]
    rfl
  have hflat : (s.map charWeight).sum =
      ((g.graphemes s).map fun c => (c.map charWeight).sum).sum := by
    conv_lhs => rw [← hg.flatten s, List.map_flatten, List.sum_flatten, List.map_map]
    rfl
  rw [graphemesWeight, hflat, List.map_congr_left hweight]

/-- X's count adds up the words and the white space between them. -/
lemma xWeightedFrom_eq (hg : g.Standard) (total : ℕ) (s : Str) (htotal : total ≤ u32Max) :
    xWeightedFrom g total s = min (total + (((words s).map (runWeight g false)).sum +
      ((s.filter isWhiteSpace).map charWeight).sum)) u32Max := by
  fun_induction xWeightedFrom g total s with
  | case1 total => simp [words, htotal]
  | case2 total first rest whitespace run ih =>
    rw [ih (Nat.min_le_right _ _)]
    set tail := rest.dropWhile (isWhiteSpace · == whitespace) with htail
    have hsplit : first :: rest = run ++ tail := by
      simp only [run, List.cons_append, tail, List.takeWhile_append_dropWhile]
    have hrun : ∀ c ∈ run, isWhiteSpace c = whitespace := by
      intro c hc
      rcases List.mem_cons.mp hc with rfl | hc
      · rfl
      · simpa using List.mem_takeWhile_imp hc
    have hnext : ∀ c ∈ tail.head?, isWhiteSpace c = !whitespace := by
      intro c hc
      have hnot := List.head?_dropWhile_not (isWhiteSpace · == whitespace) rest
      rw [← htail, Option.mem_def.mp hc] at hnot
      cases hw : whitespace <;> simpa [hw] using hnot
    rw [hsplit, List.filter_append]
    cases hw : whitespace with
    | true =>
      rw [hw] at hrun
      have hfilter : run.filter isWhiteSpace = run := List.filter_eq_self.mpr hrun
      have hweight : runWeight g true run = (run.map charWeight).sum :=
        graphemesWeight_white hg hrun
      rw [words_white_append hrun, hfilter, hweight, List.map_append, List.sum_append]
      omega
    | false =>
      rw [hw] at hrun hnext
      have hfilter : run.filter isWhiteSpace = [] :=
        List.filter_eq_nil_iff.mpr fun c hc => by simp [hrun c hc]
      have hwords : words (run ++ tail) = run :: words tail :=
        words_run_append (List.cons_ne_nil _ _) hrun hnext
      rw [hwords, hfilter, List.map_cons, List.sum_cons, List.nil_append]
      omega

/-- The measured length is the count, as far as 32 bits hold it. -/
lemma measure_eq_min (hg : g.Standard) (s : Str) (m : TextMeasure) :
    measure g s m = min (g.count m s) u32Max := by
  cases m with
  | xWeighted =>
    have h := xWeightedFrom_eq hg 0 (g.nfc s) (Nat.zero_le _)
    rw [Nat.zero_add] at h
    exact h
  | graphemes => rfl
  | utf16Units => rfl
  | bytes => rfl

/-! ## What the counts have in common -/

/-- A count of a text that is put together: the parts add up, but for a line feed that joins a
carriage return in front when `joins` says so. -/
structure Counts (count : Str → ℕ) (joins : Bool) : Prop where
  nil : count [] = 0
  pos : ∀ s, s ≠ [] → 0 < count s
  newline : ∀ s t, count (s ++ '\n' :: t) +
    (if joins = true ∧ s.getLast? = some '\r' then 1 else 0) = count s + 1 + count t
  hash : ∀ s t, count (s ++ ' ' :: '#' :: t) = count (s ++ [' ']) + count ('#' :: t)
  blank : ∀ s, count s ≤ count (s ++ [' '])
  letters : ∀ n, count (List.replicate n 'a') = n

/-- Only the clusters join a carriage return with a line feed. -/
def TextMeasure.joins : TextMeasure → Bool
  | .graphemes => true
  | _ => false

lemma TextMeasure.joins_eq_true_iff {m : TextMeasure} : m.joins = true ↔ m = .graphemes := by
  cases m <;> simp [joins]

lemma graphemes_nil (hg : g.Standard) : g.graphemes [] = [] := hg.letters 0

/-- A count that adds up over the characters. -/
lemma counts_of_sum {f : Char → ℕ} {count : Str → ℕ} (hcount : ∀ s, count s = (s.map f).sum)
    (hpos : ∀ c, 0 < f c) (hline : f '\n' = 1) (ha : f 'a' = 1) : Counts count false where
  nil := by simp [hcount]
  pos s hne := by
    obtain ⟨c, s, rfl⟩ := List.exists_cons_of_ne_nil hne
    have := hpos c
    rw [hcount, List.map_cons, List.sum_cons]
    omega
  newline s t := by
    simp only [hcount, List.map_append, List.sum_append, List.map_cons, List.sum_cons, hline]
    simp
    omega
  hash s t := by
    simp only [hcount, List.map_append, List.sum_append, List.map_cons, List.sum_cons, List.map_nil,
      List.sum_nil]
    omega
  blank s := by
    simp only [hcount, List.map_append, List.sum_append]
    omega
  letters n := by simp [hcount, ha]

lemma counts_graphemes (hg : g.Standard) : Counts (g.count .graphemes) true where
  nil := by simp [Segmentation.count, graphemes_nil hg]
  pos s hne := by
    refine List.length_pos_of_ne_nil fun hnil => hne ?_
    rw [← hg.flatten s, hnil]
    rfl
  newline s t := by
    simp only [Segmentation.count]
    rw [hg.newline, List.length_append]
    by_cases hcr : s.getLast? = some '\r'
    · obtain ⟨front, rfl⟩ : ∃ front, s = front ++ ['\r'] := by
        obtain ⟨front, hfront⟩ := List.getLast?_eq_some_iff.mp hcr
        exact ⟨front, hfront⟩
      obtain ⟨hreturn, hboth⟩ := hg.carriage front
      rw [List.append_assoc, List.singleton_append, hboth, hreturn]
      simp
      omega
    · rw [hg.beforeNewline s hcr]
      simp [hcr]
  hash s t := by
    simp only [Segmentation.count]
    rw [hg.hash, List.length_append]
  blank := hg.blank
  letters n := by simp [Segmentation.count, hg.letters]

lemma charWeight_pos (c : Char) : 0 < charWeight c := by
  unfold charWeight
  split <;> decide

lemma graphemeWeight_pos {c : Str} (h : c ≠ []) : 0 < graphemeWeight c := by
  obtain ⟨a, c, rfl⟩ := List.exists_cons_of_ne_nil h
  have := charWeight_pos a
  rw [graphemeWeight]
  split
  · decide
  · rw [List.map_cons, List.sum_cons]
    omega

lemma runWeight_pos (hg : g.Standard) {s : Str} (h : s ≠ []) : 0 < runWeight g false s := by
  unfold runWeight
  split
  · simp only [xUrlWeight, u32Max]
    omega
  · obtain ⟨c, cs, hcs⟩ : ∃ c cs, g.graphemes s = c :: cs := by
      refine List.exists_cons_of_ne_nil fun hnil => h ?_
      rw [← hg.flatten s, hnil]
      rfl
    have := graphemeWeight_pos (hg.ne_nil s c (by simp [hcs]))
    rw [graphemesWeight, hcs, List.map_cons, List.sum_cons]
    omega

/-- X's count adds up around a separator. -/
lemma count_xWeighted_append (hg : g.Standard) {c : Char} (hc : Separator c) (s t : Str) :
    g.count .xWeighted (s ++ c :: t) = g.count .xWeighted s + 1 + g.count .xWeighted t := by
  have hwhite : isWhiteSpace c = true := by rcases hc with rfl | rfl <;> decide
  have hweight : charWeight c = 1 := by rcases hc with rfl | rfl <;> decide
  simp only [Segmentation.count]
  rw [hg.nfc_append c hc, words_append_cons hwhite, List.filter_append,
    List.filter_cons_of_pos hwhite]
  simp only [List.map_append, List.sum_append, List.map_cons, List.sum_cons, hweight]
  omega

lemma hasUrlScheme_letters (n : ℕ) : hasUrlScheme (List.replicate n 'a') = false := by
  rw [hasUrlScheme, List.any_eq_false]
  intro scheme hscheme hany
  have hh : 'h' ∈ scheme := by
    simp only [List.mem_cons, List.not_mem_nil, or_false] at hscheme
    rcases hscheme with rfl | rfl <;> decide
  cases hslice : sliceTo? (List.replicate n 'a') (utf8Len scheme) with
  | none =>
    rw [hslice] at hany
    cases hany
  | some head =>
    rw [hslice, Option.any_some] at hany
    obtain ⟨⟨front, back⟩, hsplit, rfl⟩ := Option.map_eq_some_iff.mp hslice
    obtain ⟨happend, -⟩ := append_of_splitAt? hsplit
    -- only letters are in front
    rw [← beq_iff_eq.mp hany] at hh
    obtain ⟨c, hc, hlower⟩ := List.mem_map.mp hh
    have hletter : c ∈ List.replicate n 'a' := happend ▸ List.mem_append_left back hc
    rw [List.eq_of_mem_replicate hletter] at hlower
    revert hlower
    decide

lemma count_xWeighted_nil (hg : g.Standard) : g.count .xWeighted [] = 0 := by
  have hnil : g.nfc [] = [] := hg.nfc_letters 0
  simp [Segmentation.count, hnil, words]

lemma count_xWeighted_letters (hg : g.Standard) (n : ℕ) :
    g.count .xWeighted (List.replicate n 'a') = n := by
  by_cases hn : n = 0
  · rw [hn]
    exact count_xWeighted_nil hg
  have hletter : ∀ c ∈ List.replicate n 'a', isWhiteSpace c = false := by
    intro c hc
    rw [List.eq_of_mem_replicate hc]
    decide
  have hne : List.replicate n 'a' ≠ [] := by simpa using hn
  have hweight : runWeight g false (List.replicate n 'a') = n := by
    have hone : graphemeWeight ['a'] = 1 := by decide
    simp [runWeight, hasUrlScheme_letters, graphemesWeight, hg.letters, hone]
  have hfilter : (List.replicate n 'a').filter isWhiteSpace = [] :=
    List.filter_eq_nil_iff.mpr fun c hc => by simp [hletter c hc]
  simp only [Segmentation.count, hg.nfc_letters, words_of_no_white hne hletter, hfilter]
  simp [hweight]

lemma counts_xWeighted (hg : g.Standard) : Counts (g.count .xWeighted) false where
  nil := count_xWeighted_nil hg
  pos s hne := by
    have hne := hg.nfc_ne_nil s hne
    simp only [Segmentation.count]
    by_cases hwhite : ∃ c ∈ g.nfc s, isWhiteSpace c = true
    · obtain ⟨c, hc, hcw⟩ := hwhite
      obtain ⟨front, back, hsplit⟩ := List.append_of_mem (List.mem_filter.mpr ⟨hc, hcw⟩)
      have := charWeight_pos c
      rw [hsplit, List.map_append, List.sum_append, List.map_cons, List.sum_cons]
      omega
    · rw [words_of_no_white hne fun c hc => Bool.eq_false_of_not_eq_true fun h => hwhite ⟨c, hc, h⟩]
      have := runWeight_pos hg hne
      simp only [List.map_cons, List.sum_cons]
      omega
  newline s t := by
    rw [count_xWeighted_append hg (.inr rfl)]
    simp
  hash s t := by
    rw [count_xWeighted_append hg (.inl rfl), count_xWeighted_append hg (.inl rfl),
      count_xWeighted_nil hg]
  blank s := by
    rw [count_xWeighted_append hg (.inl rfl)]
    omega
  letters := count_xWeighted_letters hg

/-- Every measure counts so. -/
lemma counts_count (hg : g.Standard) (m : TextMeasure) : Counts (g.count m) m.joins := by
  cases m with
  | graphemes => exact counts_graphemes hg
  | xWeighted => exact counts_xWeighted hg
  | utf16Units =>
    refine counts_of_sum (fun _ => rfl) (fun c => ?_) (by decide) (by decide)
    split <;> decide
  | bytes => exact counts_of_sum (fun _ => rfl) Char.utf8Size_pos (by decide) (by decide)

/-! ## What is appended -/

variable {u : CaseTables} {v : Variant} {count : Str → ℕ} {joins : Bool}

/-- The parts of a link and of tags. -/
def addedParts (link : Option Str) (tags : List Str) : List Str :=
  link.toList ++ if tags = [] then [] else [[' '].intercalate tags]

/-- Parts behind a text, each in a paragraph of its own. -/
def behind (parts : List Str) : Str :=
  if parts = [] then [] else paragraph ++ paragraph.intercalate parts

/-- The link, unless the text holds it. -/
def Variant.missingLink (v : Variant) : Option Str :=
  v.link.bind fun link => if holdsLink v.text link.asStr then none else some link.asStr

/-- The tags that the text does not hold. -/
def Variant.missingTags (u : CaseTables) (v : Variant) : List Str :=
  addTags u (u.toLowercase v.text) v.tags

lemma postText_eq_append (hne : v.text ≠ []) :
    postText u v = v.text ++ behind (addedParts v.missingLink (v.missingTags u)) := by
  have htext : v.textParts = [v.text] := by
    rw [Variant.textParts, if_neg (by simpa using hne)]
  have hlink : v.linkParts = v.missingLink.toList := by
    rw [Variant.linkParts, Variant.missingLink]
    cases v.link with
    | none => rfl
    | some link => cases h : holdsLink v.text link.asStr <;> simp [h]
  have htags : v.tagParts u =
      if v.missingTags u = [] then [] else [[' '].intercalate (v.missingTags u)] := by
    simp only [Variant.tagParts, Variant.missingTags, List.isEmpty_iff]
    split <;> next h => simp [h]
  have hparts : v.linkParts ++ v.tagParts u = addedParts v.missingLink (v.missingTags u) := by
    rw [hlink, htags, addedParts]
  rw [postText, htext, hparts, List.singleton_append, behind]
  split
  · next h =>
    rw [h]
    simp [List.intercalate]
  · next h => rw [intercalate_cons_of_ne_nil h]

lemma Counts.count_paragraph (hc : Counts count joins) (s : Str) :
    count (paragraph ++ s) = 2 + count s := by
  have hline : ∀ s, count ('\n' :: s) = 1 + count s := by
    intro s
    have h := hc.newline [] s
    simp only [List.nil_append, hc.nil] at h
    simpa using h
  rw [paragraph, List.cons_append, List.cons_append, List.nil_append, hline, hline]
  omega

/-- A paragraph behind a text counts two, or one when it joins a carriage return. -/
lemma Counts.count_append_paragraph (hc : Counts count joins) (s t : Str) :
    count (s ++ (paragraph ++ t)) + (if joins = true ∧ s.getLast? = some '\r' then 1 else 0) =
      count s + 2 + count t := by
  have h := hc.newline s ('\n' :: t)
  have hline : count ('\n' :: t) = 1 + count t := by
    have h := hc.newline [] t
    simp only [List.nil_append, hc.nil] at h
    simpa using h
  rw [hline] at h
  rw [paragraph, List.cons_append, List.cons_append, List.nil_append, h]
  omega

/-- The first tag of a line. -/
lemma Counts.line_cons (hc : Counts count joins) (t : Str) {ts : List Str} (hne : ts ≠ [])
    (hhash : ∀ t ∈ ts, ∃ tag, t = hashtag tag) :
    count ([' '].intercalate (t :: ts)) = count (t ++ [' ']) + count ([' '].intercalate ts) := by
  obtain ⟨rest, hrest⟩ : ∃ rest, [' '].intercalate ts = '#' :: rest := by
    obtain ⟨t', ts, rfl⟩ := List.exists_cons_of_ne_nil hne
    obtain ⟨tag, rfl⟩ := hhash t' List.mem_cons_self
    cases ts with
    | nil => exact ⟨tag, by simp [List.intercalate, hashtag]⟩
    | cons t'' ts => exact ⟨_, intercalate_cons_cons [' '] (hashtag tag) t'' ts⟩
  rw [intercalate_cons_of_ne_nil hne, hrest]
  exact hc.hash t rest

/-- A line of tags counts more than a line of some of them, by one at least for each that is left
out. -/
lemma Counts.line_le (hc : Counts count joins) {part all : List Str} (h : part.Sublist all)
    (hhash : ∀ t ∈ all, ∃ tag, t = hashtag tag) :
    count ([' '].intercalate part) + (all.length - part.length) ≤
      count ([' '].intercalate all) := by
  have hsingle : ∀ t : Str, [' '].intercalate [t] = t := fun t => by simp [List.intercalate]
  induction h with
  | slnil => exact Nat.le_refl _
  | @cons part all t h ih =>
    have ih := ih fun t ht => hhash t (List.mem_cons_of_mem _ ht)
    have hle := h.length_le
    obtain ⟨tag, rfl⟩ := hhash t List.mem_cons_self
    rw [List.length_cons]
    by_cases hnil : all = []
    · subst hnil
      obtain rfl := List.sublist_nil.mp h
      have hpos := hc.pos (hashtag tag) (List.cons_ne_nil _ _)
      rw [hsingle]
      simpa [List.intercalate, hc.nil, Nat.succ_le_iff] using hpos
    · have hpos := hc.pos (hashtag tag ++ [' ']) (by simp)
      rw [hc.line_cons _ hnil fun t ht => hhash t (List.mem_cons_of_mem _ ht)]
      omega
  | @cons_cons part all t h ih =>
    have hhash' : ∀ t ∈ all, ∃ tag, t = hashtag tag := fun t ht =>
      hhash t (List.mem_cons_of_mem _ ht)
    have ih := ih hhash'
    rw [List.length_cons, List.length_cons]
    by_cases hnil : all = []
    · subst hnil
      obtain rfl := List.sublist_nil.mp h
      simp
    · rw [hc.line_cons t hnil hhash']
      by_cases hpart : part = []
      · subst hpart
        have hblank := hc.blank t
        have hzero : count ([' '].intercalate []) = 0 := hc.nil
        rw [hzero] at ih
        rw [hsingle]
        simp only [List.length_nil] at ih ⊢
        omega
      · rw [hc.line_cons t hpart fun t ht => hhash' t (h.subset ht)]
        omega

/-- What a link and tags add, when `behind` puts them behind a text. -/
lemma Counts.count_behind (hc : Counts count joins) (link : Option Str) (tags : List Str) :
    count (behind (addedParts link tags)) +
        (if joins = true ∧ link.any (·.getLast? = some '\r') ∧ tags ≠ [] then 1 else 0) =
      (link.elim 0 fun link => 2 + count link) +
        if tags = [] then 0 else 2 + count ([' '].intercalate tags) := by
  have hsingle : ∀ t : Str, paragraph.intercalate [t] = t := fun t => by simp [List.intercalate]
  cases link with
  | none =>
    by_cases htags : tags = []
    · simp [behind, addedParts, htags, hc.nil]
    · simp [behind, addedParts, htags, hsingle, hc.count_paragraph]
  | some link =>
    by_cases htags : tags = []
    · simp [behind, addedParts, htags, hsingle, hc.count_paragraph]
    · have hadd := hc.count_append_paragraph link ([' '].intercalate tags)
      simp only [behind, addedParts, Option.toList_some, htags, if_false, List.cons_append,
        List.nil_append, List.cons_ne_nil, intercalate_cons_cons, hsingle, hc.count_paragraph]
      simp [htags]
      omega

lemma ite_le_one (p : Prop) [Decidable p] : (if p then 1 else 0) ≤ 1 := by
  split <;> decide

/-- Leaving out the link or a tag adds less. -/
lemma Counts.count_behind_lt (hc : Counts count joins) {link link' : Option Str}
    {tags tags' : List Str} (hlink : link' = none ∨ link' = link) (htags : tags'.Sublist tags)
    (hne : link ≠ some []) (hhash : ∀ t ∈ tags, ∃ tag, t = hashtag tag) :
    (link' = link ∧ tags' = tags) ∨
      count (behind (addedParts link' tags')) < count (behind (addedParts link tags)) := by
  have hadd := hc.count_behind link tags
  have hadd' := hc.count_behind link' tags'
  have hone := ite_le_one (joins = true ∧ link.any (·.getLast? = some '\r') ∧ tags ≠ [])
  have hline := hc.line_le htags hhash
  by_cases htagsEq : tags' = tags
  · subst htagsEq
    rcases hlink with rfl | rfl
    · cases link with
      | none => exact .inl ⟨rfl, rfl⟩
      | some link =>
        have hpos := hc.pos link fun hnil => hne (congrArg some hnil)
        refine .inr ?_
        rw [Option.elim_some] at hadd
        rw [Option.elim_none] at hadd'
        omega
    · exact .inl ⟨rfl, rfl⟩
  have hlt : tags'.length < tags.length := by
    by_contra hge
    exact htagsEq (htags.eq_of_length_le (Nat.le_of_not_lt hge))
  have htagsNe : tags ≠ [] := List.ne_nil_of_length_pos (Nat.zero_lt_of_lt hlt)
  refine .inr ?_
  rw [if_neg htagsNe] at hadd
  by_cases hnil : tags' = []
  · rw [if_pos hnil] at hadd'
    rcases hlink with rfl | rfl
    · rw [Option.elim_none] at hadd'
      omega
    · omega
  · rw [if_neg hnil] at hadd'
    rcases hlink with rfl | rfl
    · rw [Option.elim_none] at hadd'
      cases link with
      | none =>
        simp only [Option.any_none, Option.elim_none] at hadd hadd'
        simp at hadd hadd'
        omega
      | some link =>
        rw [Option.elim_some] at hadd
        omega
    · simp only [ne_eq, hnil, htagsNe, not_false_eq_true, and_true] at hadd hadd'
      omega

/-- Parts behind a text that ends in a carriage return count one less. -/
lemma Counts.count_append_behind (hc : Counts count joins) (s : Str) (parts : List Str) :
    count (s ++ behind parts) +
        (if joins = true ∧ s.getLast? = some '\r' ∧ parts ≠ [] then 1 else 0) =
      count s + count (behind parts) := by
  by_cases hparts : parts = []
  · simp [behind, hparts, hc.nil]
  · have hadd := hc.count_append_paragraph s (paragraph.intercalate parts)
    simp only [behind, hparts, if_false, hc.count_paragraph, ne_eq, not_false_eq_true, and_true]
    omega

lemma addedParts_eq_nil_iff {link : Option Str} {tags : List Str} :
    addedParts link tags = [] ↔ link = none ∧ tags = [] := by
  rw [addedParts, List.append_eq_nil_iff, Option.toList_eq_nil_iff]
  refine and_congr_right fun _ => ?_
  split <;> simp_all

/-! ## The link and the tags that a text lacks -/

namespace Variant

/-- The text holds neither the link nor a tag. -/
def HoldsNone (u : CaseTables) (v : Variant) : Prop :=
  (∀ link ∈ v.link, holdsLink v.text link.asStr = false) ∧
    ∀ tag ∈ v.tags, holdsTag u (u.toLowercase v.text) (u.toLowercase (hashtag tag)) = false

lemma missingLink_eq_iff : v.missingLink = v.link.map Url.asStr ↔
    ∀ link ∈ v.link, holdsLink v.text link.asStr = false := by
  rw [missingLink]
  cases v.link with
  | none => simp
  | some link => cases h : holdsLink v.text link.asStr <;> simp [h]

lemma missingLink_or (v : Variant) :
    v.missingLink = none ∨ v.missingLink = v.link.map Url.asStr := by
  rw [missingLink]
  cases v.link with
  | none => simp
  | some link => cases h : holdsLink v.text link.asStr <;> simp [h]

lemma missingTags_sublist (u : CaseTables) (v : Variant) :
    (v.missingTags u).Sublist (addTags u [] v.tags) := by
  rw [missingTags, addTags_eq_filter]
  exact List.filter_sublist

lemma missingTags_eq_iff : v.missingTags u = addTags u [] v.tags ↔
    ∀ tag ∈ v.tags, holdsTag u (u.toLowercase v.text) (u.toLowercase (hashtag tag)) = false := by
  rw [missingTags, addTags_eq_filter, List.filter_eq_self]
  constructor
  · intro h tag htag
    rcases holdsTag_or_mem_addTags [] htag with hheld | ⟨w, hw, heq⟩
    · cases hheld
    · simpa [heq] using h w hw
  · intro h w hw
    obtain ⟨before, tag, after, heq, rfl, -⟩ := mem_addTags_iff.1 hw
    have hnot := h tag (by simp [heq])
    simp [hnot]

/-- What a text lacks adds at most what one without the link and the tags takes, and less when it
holds something of them. -/
lemma count_missing_lt (hc : Counts count joins) (v : Variant) :
    v.HoldsNone u ∧ v.missingLink = v.link.map Url.asStr ∧
        v.missingTags u = addTags u [] v.tags ∨
      ¬v.HoldsNone u ∧ count (behind (addedParts v.missingLink (v.missingTags u))) <
        count (behind (addedParts (v.link.map Url.asStr) (addTags u [] v.tags))) := by
  have hne : v.link.map Url.asStr ≠ some [] := by
    intro h
    obtain ⟨link, -, hnil⟩ := Option.map_eq_some_iff.mp h
    exact link.ne_nil hnil
  have hhash : ∀ t ∈ addTags u [] v.tags, ∃ tag, t = hashtag tag := by
    intro t ht
    obtain ⟨-, tag, -, -, rfl, -⟩ := mem_addTags_iff.1 ht
    exact ⟨tag, rfl⟩
  have hiff : v.HoldsNone u ↔ v.missingLink = v.link.map Url.asStr ∧
      v.missingTags u = addTags u [] v.tags := by
    rw [missingLink_eq_iff, missingTags_eq_iff, HoldsNone]
  by_cases hnone : v.HoldsNone u
  · exact .inl ⟨hnone, hiff.mp hnone⟩
  · refine .inr ⟨hnone, ?_⟩
    exact (hc.count_behind_lt v.missingLink_or (v.missingTags_sublist u) hne hhash).resolve_left
      fun h => hnone (hiff.mpr h)

end Variant

/-! ## A text of letters -/

lemma toLowercase_letters (ha : u.lowercase 'a' = ['a']) (n : ℕ) :
    u.toLowercase (List.replicate n 'a') = List.replicate n 'a' := by
  have hfrom : ∀ before, u.lowercaseFrom before (List.replicate n 'a') = List.replicate n 'a' := by
    induction n with
    | zero => exact fun _ => rfl
    | succ n ih =>
      intro before
      rw [List.replicate_succ, CaseTables.lowercaseFrom, if_neg (by decide), ha, ih]
      rfl
  exact hfrom []

/-- A text of letters holds no link and no tag. -/
lemma Variant.holdsNone_letters (hu : Separates u) (ha : u.lowercase 'a' = ['a']) (v : Variant)
    (n : ℕ) : Variant.HoldsNone u { v with text := List.replicate n 'a' } := by
  constructor
  · intro link _
    refine Bool.eq_false_of_not_eq_true fun hheld => ?_
    have hcolon : ':' ∈ List.replicate n 'a' := by
      refine (infix_of_holdsLink hheld).subset ?_
      exact (mem_or_eq_of_trimEndMatches link.scheme).resolve_right (by decide)
    exact absurd (List.eq_of_mem_replicate hcolon) (by decide)
  · intro tag _
    refine Bool.eq_false_of_not_eq_true fun hheld => ?_
    have hin := infix_of_holdsTag hheld
    rw [toLowercase_hashtag hu, toLowercase_letters ha] at hin
    exact absurd (List.eq_of_mem_replicate (hin.subset List.mem_cons_self)) (by decide)

lemma trim_letters {n : ℕ} (hn : 0 < n) : Str.trim (List.replicate n 'a') ≠ [] := by
  obtain ⟨n, rfl⟩ := Nat.exists_eq_succ_of_ne_zero (Nat.pos_iff_ne_zero.mp hn)
  intro hnil
  have hwhite : isWhiteSpace 'a' = false := by decide
  have hstart : trimStart (List.replicate (n + 1) 'a') = List.replicate (n + 1) 'a' := by
    rw [List.replicate_succ, trimStart, List.dropWhile_cons, hwhite]
    rfl
  rw [Str.trim, hstart, trimEnd_eq_nil_iff] at hnil
  exact absurd (hnil 'a' (by simp)) (by decide)

/-! ## The check -/

/-- A text that is too long is reported, unless it is blank where a text is required. -/
lemma tooLong_mem_iff {rules : TextRules} {w : Violation} :
    w ∈ v.checkText u g rules ∧ w.code = .textTooLong ↔
      ¬(rules.required = true ∧ Str.trim v.text = []) ∧ rules.max < measured u g v rules ∧
        w = tooLong rules (measure g v.text rules.measure) (measured u g v rules) := by
  have hcode : ∀ own actual, (tooLong rules own actual).code = .textTooLong := by
    intro own actual
    simp only [tooLong]
    split <;> rfl
  simp only [Variant.checkText]
  by_cases hblank : rules.required = true ∧ Str.trim v.text = []
  · rw [if_pos (by simpa using hblank), List.mem_singleton]
    constructor
    · rintro ⟨rfl, h⟩
      cases h
    · exact fun h => absurd hblank h.1
  · rw [if_neg (by simpa using hblank)]
    split
    · next hlong =>
      rw [List.mem_singleton]
      constructor
      · rintro ⟨rfl, -⟩
        exact ⟨hblank, hlong, rfl⟩
      · rintro ⟨-, -, rfl⟩
        exact ⟨rfl, hcode _ _⟩
    · next hshort =>
      constructor
      · exact fun h => absurd h.1 List.not_mem_nil
      · exact fun h => absurd h.2.1 hshort

lemma fix_tooLong_iff {rules : TextRules} {own actual m : ℕ} :
    (tooLong rules own actual).fix = some (.shortenText m) ↔
      actual - own < rules.max ∧ m = rules.max - (actual - own) := by
  simp only [tooLong]
  split
  · next h => simp [Violation.withFix, h, eq_comm]
  · next h =>
    simp only [Violation.fix_param]
    exact iff_of_false (by simp [Violation.at_]) fun hlt => h hlt.1

/-- Every text that is no longer than the fix says, and not blank, is short enough. -/
def Variant.Cleared (u : CaseTables) (g : Segmentation) (v : Variant) (rules : TextRules) (m : ℕ) :
    Prop :=
  ∀ text, Str.trim text ≠ [] → measure g text rules.measure ≤ m →
    ∀ w ∈ Variant.checkText u g { v with text } rules, w.code ≠ .textTooLong

/-- Nothing is put behind the text, or the text holds neither the link nor a tag, ends in no
carriage return that a cluster joins, and is with them no longer than 32 bits count. -/
def Variant.RoomLeft (u : CaseTables) (g : Segmentation) (v : Variant) (rules : TextRules) : Prop :=
  rules.includesLinkAndTags = false ∨ (v.link = none ∧ v.tags = []) ∨
    (v.HoldsNone u ∧ ¬(rules.measure = .graphemes ∧ v.text.getLast? = some '\r') ∧
      g.count rules.measure (postText u v) ≤ u32Max)

lemma Variant.cleared_iff_measured {rules : TextRules} {m : ℕ} :
    v.Cleared u g rules m ↔ ∀ text, Str.trim text ≠ [] → measure g text rules.measure ≤ m →
      measured u g { v with text } rules ≤ rules.max := by
  refine forall₃_congr fun text htext hle => ?_
  constructor
  · intro h
    by_contra hlong
    obtain ⟨hmem, hcode⟩ := (tooLong_mem_iff (v := { v with text })).mpr
      ⟨fun hblank => htext hblank.2, Nat.lt_of_not_le hlong, rfl⟩
    exact h _ hmem hcode
  · intro h w hw hcode
    obtain ⟨-, hlong, -⟩ := tooLong_mem_iff.1 ⟨hw, hcode⟩
    exact absurd h (Nat.not_le_of_lt hlong)

/-! ## When the fix clears the violation -/

section Fix

variable {rules : TextRules} {m : ℕ}

/-- What the link and the tags add to a text that holds none of them. -/
def Variant.restCount (u : CaseTables) (g : Segmentation) (v : Variant) (μ : TextMeasure) : ℕ :=
  g.count μ (behind (addedParts (v.link.map Url.asStr) (addTags u [] v.tags)))

lemma Variant.count_postText (hg : g.Standard) (hne : v.text ≠ []) (μ : TextMeasure) :
    g.count μ (postText u v) + (if μ.joins = true ∧ v.text.getLast? = some '\r' ∧
        addedParts v.missingLink (v.missingTags u) ≠ [] then 1 else 0) =
      g.count μ v.text + g.count μ (behind (addedParts v.missingLink (v.missingTags u))) := by
  rw [postText_eq_append hne]
  exact (counts_count hg μ).count_append_behind _ _

lemma Variant.restCount_eq_zero_iff (hg : g.Standard) {μ : TextMeasure} :
    v.restCount u g μ = 0 ↔ v.link = none ∧ v.tags = [] := by
  have hnone : ∀ tag ∈ v.tags, holdsTag u [] (u.toLowercase (hashtag tag)) = false :=
    fun _ _ => rfl
  have htags : addTags u [] v.tags = [] ↔ v.tags = [] := by
    rw [addTags_eq_nil_iff]
    constructor
    · refine fun h => List.eq_nil_iff_forall_not_mem.mpr fun tag htag => ?_
      exact Bool.false_ne_true ((hnone tag htag).symm.trans (h tag htag))
    · intro h
      simp [h]
  have hparts : addedParts (v.link.map Url.asStr) (addTags u [] v.tags) = [] ↔
      v.link = none ∧ v.tags = [] := by
    rw [addedParts_eq_nil_iff, Option.map_eq_none_iff, htags]
  rw [← hparts, restCount, behind]
  split
  · next h => exact iff_of_true (counts_count hg μ).nil h
  · next h =>
    refine iff_of_false ?_ h
    rw [(counts_count hg μ).count_paragraph]
    omega

/-- Enough room is what a text takes that holds none of the link and the tags. -/
lemma Variant.cleared_iff_le (hu : Separates u) (ha : u.lowercase 'a' = ['a']) (hg : g.Standard)
    (hinc : rules.includesLinkAndTags = true) (hm : 0 < m) (hmax : rules.max < u32Max) :
    v.Cleared u g rules m ↔ m + v.restCount u g rules.measure ≤ rules.max := by
  have hc := counts_count hg rules.measure
  have hmeasured : ∀ v : Variant, measured u g v rules =
      min (g.count rules.measure (postText u v)) u32Max := by
    intro v
    rw [measured, if_pos hinc, measure_eq_min hg]
  rw [cleared_iff_measured]
  constructor
  · intro h
    -- a text of letters holds nothing, so everything is added to it
    have hcount : g.count rules.measure (List.replicate m 'a') = m := hc.letters m
    have hletters := h (List.replicate m 'a') (trim_letters hm)
      (by rw [measure_eq_min hg, hcount]; exact Nat.min_le_left _ _)
    rw [hmeasured] at hletters
    set w : Variant := { v with text := List.replicate m 'a' } with hw
    have hne : w.text ≠ [] := by simpa [hw] using Nat.pos_iff_ne_zero.mp hm
    have hpost := count_postText (u := u) hg hne rules.measure
    obtain ⟨-, hlink, htags⟩ := (count_missing_lt hc w).resolve_right
      fun hlt => hlt.1 (v.holdsNone_letters hu ha m)
    have hlast : ¬(rules.measure.joins = true ∧ w.text.getLast? = some '\r' ∧
        addedParts w.missingLink (w.missingTags u) ≠ []) := by
      rintro ⟨-, hlast, -⟩
      exact absurd (List.eq_of_mem_replicate (List.mem_of_getLast? hlast)) (by decide)
    rw [if_neg hlast, hlink, htags] at hpost
    have hrest : g.count rules.measure (postText u w) = m + v.restCount u g rules.measure :=
      hpost.trans (congrArg (· + v.restCount u g rules.measure) hcount)
    rw [hrest] at hletters
    omega
  · intro h text htext hshort
    set w : Variant := { v with text } with hw
    have hne : w.text ≠ [] := by
      intro hnil
      refine htext ?_
      have hnil : text = [] := hnil
      rw [hnil]
      rfl
    have hpost := count_postText (u := u) hg hne rules.measure
    have hrest : g.count rules.measure (behind (addedParts w.missingLink (w.missingTags u))) ≤
        v.restCount u g rules.measure := by
      rcases count_missing_lt (u := u) hc w with ⟨-, hlink, htags⟩ | ⟨-, hlt⟩
      · rw [hlink, htags]
        exact Nat.le_refl _
      · exact Nat.le_of_lt hlt
    have hown : g.count rules.measure w.text ≤ m := by
      rw [measure_eq_min hg] at hshort
      have hshort : min (g.count rules.measure w.text) u32Max ≤ m := hshort
      omega
    rw [hmeasured]
    omega

/-- **When the fix clears the violation.** -/
theorem cleared_iff (hu : Separates u) (ha : u.lowercase 'a' = ['a']) (hg : g.Standard)
    {w : Violation} (hw : w ∈ v.checkText u g rules) (hcode : w.code = .textTooLong)
    (hfix : w.fix = some (.shortenText m)) :
    v.Cleared u g rules m ↔ v.RoomLeft u g rules := by
  obtain ⟨hblank, hlong, rfl⟩ := tooLong_mem_iff.1 ⟨hw, hcode⟩
  obtain ⟨hroom, rfl⟩ := fix_tooLong_iff.1 hfix
  have hc := counts_count hg rules.measure
  cases hinc : rules.includesLinkAndTags with
  | false =>
    have hown : ∀ v : Variant, measured u g v rules = measure g v.text rules.measure := by
      intro v
      rw [measured, hinc]
      rfl
    refine iff_of_true (Variant.cleared_iff_measured.2 fun text _ hle => ?_) (.inl hinc)
    rw [hown]
    exact hle.trans (Nat.sub_le _ _)
  | true =>
    have hactual : measured u g v rules = min (g.count rules.measure (postText u v)) u32Max := by
      rw [measured, if_pos hinc, measure_eq_min hg]
    rw [hactual, measure_eq_min hg] at hroom
    rw [hactual] at hlong
    rw [hactual, measure_eq_min hg]
    have hne : v.text ≠ [] := by
      intro hnil
      rw [hnil, hc.nil] at hroom
      omega
    have hpost := Variant.count_postText (u := u) hg hne rules.measure
    have hzero : v.restCount u g rules.measure = 0 ↔ v.link = none ∧ v.tags = [] :=
      Variant.restCount_eq_zero_iff hg
    rw [Variant.cleared_iff_le hu ha hg hinc (by omega) (by omega)]
    rcases v.count_missing_lt (u := u) hc with ⟨hnone, hlink, htags⟩ | ⟨hsome, hlt⟩
    · rw [hlink, htags] at hpost
      have hrest : v.restCount u g rules.measure = g.count rules.measure
        (behind (addedParts (v.link.map Url.asStr) (addTags u [] v.tags))) := rfl
      rw [← hrest] at hpost
      constructor
      · intro hle
        by_cases hnothing : v.restCount u g rules.measure = 0
        · exact .inr (.inl (hzero.mp hnothing))
        refine .inr (.inr ⟨hnone, ?_, by omega⟩)
        rintro ⟨hgraphemes, hlast⟩
        have hparts : addedParts (v.link.map Url.asStr) (addTags u [] v.tags) ≠ [] := by
          intro hnil
          rw [hrest, hnil] at hnothing
          exact hnothing hc.nil
        rw [if_pos ⟨by rw [hgraphemes]; rfl, hlast, hparts⟩] at hpost
        omega
      · rintro (hfalse | hnothing | ⟨-, hreturn, hfits⟩)
        · rw [hinc] at hfalse
          cases hfalse
        · have := hzero.mpr hnothing
          omega
        · rw [if_neg fun h => hreturn ⟨TextMeasure.joins_eq_true_iff.1 h.1, h.2.1⟩] at hpost
          omega
    · have hrest : v.restCount u g rules.measure = g.count rules.measure
        (behind (addedParts (v.link.map Url.asStr) (addTags u [] v.tags))) := rfl
      rw [← hrest] at hlt
      refine iff_of_false (by omega) ?_
      rintro (hfalse | ⟨hlink, htags⟩ | ⟨hnone, -⟩)
      · rw [hinc] at hfalse
        cases hfalse
      · refine hsome ⟨fun link h => ?_, fun tag h => ?_⟩
        · rw [hlink] at h
          cases h
        · rw [htags] at h
          cases h
      · exact hsome hnone

end Fix

/-! ## Fixes that clear the violation, and that do not -/

section Samples

/-- A cluster of ASCII text goes on between a carriage return and a line feed. -/
def joinsAscii (c d : Char) : Bool := c == '\r' && d == '\n'

def asciiSegmentation : Segmentation where
  graphemes s := s.splitBy joinsAscii
  nfc s := s

lemma asciiSegmentation_standard : asciiSegmentation.Standard where
  flatten := List.flatten_splitBy _
  ne_nil _ _ h := List.ne_nil_of_mem_splitBy h
  newline s t := by
    have hjoin : (s ++ ['\n'] ++ t).splitBy joinsAscii =
        (s ++ ['\n']).splitBy joinsAscii ++ t.splitBy joinsAscii := by
      refine List.splitBy_append fun c hc a _ => ?_
      rw [List.getLast?_concat] at hc
      rw [← Option.some.inj hc]
      rfl
    rwa [List.append_assoc] at hjoin
  beforeNewline s hs := by
    refine List.splitBy_append_cons [] fun c hc => ?_
    have hne : c ≠ '\r' := fun heq => hs (heq ▸ hc)
    simp [joinsAscii, hne]
  carriage s := by
    have hnone : ∀ c ∈ s.getLast?, joinsAscii c '\r' = false := by
      intro c _
      simp [joinsAscii]
    exact ⟨List.splitBy_append_cons [] hnone, List.splitBy_append_cons ['\n'] hnone⟩
  hash s t := by
    have hjoin : (s ++ [' '] ++ '#' :: t).splitBy joinsAscii =
        (s ++ [' ']).splitBy joinsAscii ++ ('#' :: t).splitBy joinsAscii :=
      List.splitBy_append_cons t fun c _ => by simp [joinsAscii]
    rwa [List.append_assoc] at hjoin
  blank s := by
    have hjoin : (s ++ [' ']).splitBy joinsAscii = s.splitBy joinsAscii ++ [[' ']] :=
      List.splitBy_append_cons [] fun c _ => by simp [joinsAscii]
    have hlen := congrArg List.length hjoin
    rw [List.length_append] at hlen
    exact (Nat.le_add_right _ _).trans_eq hlen.symm
  letters n := by
    induction n with
    | zero => rfl
    | succ n ih =>
      have hjoin : (['a'] ++ List.replicate n 'a').splitBy joinsAscii =
          [['a']] ++ (List.replicate n 'a').splitBy joinsAscii := by
        refine List.splitBy_append fun c hc a _ => ?_
        rw [← Option.some.inj hc]
        rfl
      exact hjoin.trans (congrArg (['a'] :: ·) ih)
  nfc_append _ _ _ _ := rfl
  nfc_ne_nil _ h := h
  nfc_letters _ := rfl

lemma sampleLink_scheme : ':' ∈ "https://a.example/".toList := by decide

def sampleLink : Url := ⟨"https://a.example/".toList, sampleLink_scheme⟩

/-- Twenty letters and a link, on a platform that allows thirty bytes. -/
def lettersAndLink : Variant where
  text := List.replicate 20 'a'
  link := some sampleLink

def thirtyBytes : TextRules where
  measure := .bytes
  max := 30
  required := false
  includesLinkAndTags := true

theorem cleared_iff_lettersAndLink :
    lettersAndLink.Cleared asciiTables asciiSegmentation thirtyBytes 10 := by
  have hw : tooLong thirtyBytes _ _ ∈
        lettersAndLink.checkText asciiTables asciiSegmentation thirtyBytes ∧
      (tooLong thirtyBytes _ _).code = .textTooLong :=
    tooLong_mem_iff.2 ⟨by decide, by decide, rfl⟩
  refine (cleared_iff asciiTables_separates (by decide) asciiSegmentation_standard hw.1 hw.2
    (fix_tooLong_iff.2 ⟨by decide, by decide⟩)).mpr (.inr (.inr ⟨⟨?_, ?_⟩, ?_, by decide⟩))
  · intro link hlink
    rw [← Option.some.inj hlink]
    decide
  · exact fun tag htag => nomatch htag
  · exact fun h => nomatch h.1

/-- The text holds the link, so the fix leaves no room for it. -/
def heldLink : Variant where
  text := List.replicate 20 'a' ++ ' ' :: sampleLink.asStr
  link := some sampleLink

/-- **A fix that does not clear the violation.** -/
theorem not_cleared : ∃ w ∈ heldLink.checkText asciiTables asciiSegmentation thirtyBytes,
    w.code = .textTooLong ∧ w.fix = some (.shortenText 30) ∧
      ¬heldLink.Cleared asciiTables asciiSegmentation thirtyBytes 30 := by
  have hw : tooLong thirtyBytes _ _ ∈ heldLink.checkText asciiTables asciiSegmentation thirtyBytes ∧
      (tooLong thirtyBytes _ _).code = .textTooLong :=
    tooLong_mem_iff.2 ⟨by decide, by decide, rfl⟩
  refine ⟨_, hw.1, hw.2, fix_tooLong_iff.2 ⟨by decide, by decide⟩, fun h => ?_⟩
  have hle := Variant.cleared_iff_measured.1 h (List.replicate 30 'a') (by decide) (by decide)
  exact absurd hle (by decide)

end Samples

end Postit
