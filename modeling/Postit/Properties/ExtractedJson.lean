import Mathlib.Data.List.Basic
import Postit.Drafter.Extract

/-!
# What is extracted from a model's answer

A JSON object should come out whole from itself, from a fenced block, and from prose around it.  The
scan for the block ends at the next three backticks wherever they are, also inside a string of the
object, and what lies before them is returned without a look at whether it is JSON.
`extractJson_iff` says which answers come out right all the same.
-/

namespace Postit.Drafter

open Postit.Framework

/-- The first block: the text between the first two fences. -/
def FirstBlock (text inside : Str) : Prop :=
  ∃ pre post, text = pre ++ fence ++ (inside ++ fence ++ post) ∧
    Str.IsFirst fence pre (inside ++ fence ++ post) ∧ Str.IsFirst fence inside post

/-- Prose without braces, brackets and backticks. -/
def Prose (s : Str) : Prop := ∀ c ∈ s, c ∉ ['{', '}', '[', ']', '\x60']

/-- What may stand behind a fence on its line. -/
def LanguageName (s : Str) : Prop := ∀ c ∈ s, c ∉ ['\n', '{', '[', '\x60']

instance (s : Str) : Decidable (Prose s) := List.decidableBAll _ s

instance (s : Str) : Decidable (LanguageName s) := List.decidableBAll _ s

/-- White space only. -/
def Blank (s : Str) : Prop := ∀ c ∈ s, isWhiteSpace c = true

/-- A complete JSON object starts at one of the first braces. -/
def HasObject (text : Str) : Prop :=
  ∃ rest ∈ proseStarts text, (JsonText.scan JsonText.start rest).isSome = true

/-! ## Objects -/

section Objects

variable {j : Str}

/-- An object starts with a brace and ends with a bracket or a brace. -/
lemma ends_of_isObject (h : JsonText.IsObject j) :
    ∃ mid c, j = '{' :: mid ++ [c] ∧ (c = '}' ∨ c = ']') := by
  obtain ⟨hhead, hscan⟩ := h
  obtain ⟨rest, rfl⟩ := List.head?_eq_some_iff.mp hhead
  rw [JsonText.scan, if_neg (by decide)] at hscan
  obtain ⟨r, hstep, hscan⟩ := Option.bind_eq_some_iff.mp hscan
  obtain ⟨⟨read, left⟩, hscan, heq⟩ := Option.map_eq_some_iff.mp hscan
  obtain rfl : r = { stack := [.object], mode := .keyOrEnd } := (Option.some.inj hstep).symm
  obtain ⟨front, c, rfl, hc⟩ := JsonText.closing_of_scan hscan (by simp)
  have hread : rest = front ++ [c] := by
    have := congrArg Prod.fst heq
    exact (List.cons.inj this).2.symm
  exact ⟨front, c, by rw [hread]; rfl, hc⟩

/-- Around an object, trimming takes white space from the prose only. -/
lemma trim_around (h : JsonText.IsObject j) (pre post : Str) :
    Str.trim (pre ++ j ++ post) = Str.trimStart pre ++ j ++ Str.trimEnd post := by
  obtain ⟨mid, c, rfl, hc⟩ := ends_of_isObject h
  have hspace : isWhiteSpace c = false := by
    rcases hc with rfl | rfl <;> decide
  have hstart : Str.trimStart (pre ++ ('{' :: mid ++ [c]) ++ post) =
      Str.trimStart pre ++ ('{' :: mid) ++ c :: post := by
    have := @Str.trimStart_append pre (mid ++ c :: post) '{' (by decide)
    simpa using this
  rw [Str.trim, hstart, Str.trimEnd_append hspace]
  simp

lemma isJson_of_isObject (h : JsonText.IsObject j) : JsonText.isJson j = true :=
  JsonText.isJson_of_scan h.2

lemma trim_of_isObject (h : JsonText.IsObject j) : Str.trim j = j := by
  have hnil := trim_around h [] []
  rwa [List.nil_append, List.append_nil, Str.trimStart_eq_nil_iff.mpr (by simp),
    Str.trimEnd_eq_nil_iff.mpr (by simp), List.nil_append, List.append_nil] at hnil

/-- The first brace of prose around an object is the object's. -/
lemma inProse_around (h : JsonText.IsObject j) {pre : Str} (hpre : '{' ∉ pre) (post : Str) :
    inProse (pre ++ j ++ post) = some j := by
  obtain ⟨mid, c, hj, -⟩ := ends_of_isObject h
  have hfilter : ∃ more, (pre ++ j ++ post).tails.filter (fun rest => rest.head? = some '{') =
      (j ++ post) :: more := by
    induction pre with
    | nil => exact ⟨_, by rw [List.nil_append, hj]; rfl⟩
    | cons a pre ih =>
      rw [List.mem_cons, not_or] at hpre
      obtain ⟨more, hmore⟩ := ih hpre.2
      refine ⟨more, ?_⟩
      have hne : ¬a = '{' := fun h => hpre.1 h.symm
      rw [← hmore]
      simp [List.tails, hne]
  have hstarts : ∃ more, proseStarts (pre ++ j ++ post) = (j ++ post) :: more := by
    obtain ⟨more, hmore⟩ := hfilter
    exact ⟨more.take 15, by rw [proseStarts, hmore]; rfl⟩
  obtain ⟨more, hmore⟩ := hstarts
  have hscan := (JsonText.scan_append h.2).2.2 post
  rw [inProse, hmore, List.findSome?_cons, hscan]
  rfl

end Objects

/-! ## Blocks -/

section Blocks

lemma fenced_of_firstBlock {text inside : Str} (h : FirstBlock text inside) :
    fenced text = (blockBody inside).map Str.trim := by
  obtain ⟨pre, post, rfl, hfirst, hfirst'⟩ := h
  rw [fenced, Str.cut?_of_isFirst hfirst, Option.bind_some]
  dsimp only
  rw [Str.cut?_of_isFirst hfirst', Option.bind_some]

/-- Without a block nothing is taken from one. -/
lemma fenced_eq_none {text : Str} (h : ¬∃ inside, FirstBlock text inside) : fenced text = none := by
  cases hcut : Str.cut? fence text with
  | none => rw [fenced, hcut, Option.bind_none]
  | some parts =>
    obtain ⟨pre, after⟩ := parts
    obtain ⟨rfl, hfirst⟩ := Str.cut?_eq_some_iff.mp hcut
    cases hcut' : Str.cut? fence after with
    | none =>
      rw [fenced, hcut, Option.bind_some]
      dsimp only
      rw [hcut', Option.bind_none]
    | some parts' =>
      obtain ⟨inside, post⟩ := parts'
      obtain ⟨rfl, hfirst'⟩ := Str.cut?_eq_some_iff.mp hcut'
      exact absurd ⟨inside, pre, post, rfl, hfirst, hfirst'⟩ h

lemma fromOpening_eq_none_iff (s : Str) : fromOpening s = none ↔ '{' ∉ s ∧ '[' ∉ s := by
  have hnil : (s.dropWhile fun c => !(c = '{' || c = '[')) = [] ↔ '{' ∉ s ∧ '[' ∉ s := by
    rw [List.dropWhile_eq_nil_iff]
    constructor
    · intro h
      exact ⟨fun hmem => by simpa using h _ hmem, fun hmem => by simpa using h _ hmem⟩
    · rintro ⟨hbrace, hbracket⟩ c hc
      simp only [Bool.not_eq_true', Bool.or_eq_false_iff, decide_eq_false_iff_not]
      exact ⟨fun h => hbrace (h ▸ hc), fun h => hbracket (h ▸ hc)⟩
  rw [← hnil, fromOpening]
  split
  · next h => exact ⟨fun _ => h, fun _ => rfl⟩
  · next h => simpa using h

lemma mem_of_opensJson {s : Str} (h : opensJson s = true) : '{' ∈ s ∨ '[' ∈ s := by
  unfold opensJson at h
  split at h
  · next c rest hs =>
    have hmem : c ∈ s := (Str.trimStart_suffix s).subset (hs ▸ List.mem_cons_self)
    simp only [Bool.or_eq_true, decide_eq_true_eq] at h
    rcases h with rfl | rfl
    · exact Or.inl hmem
    · exact Or.inr hmem
  · cases h

/-- A block is passed over exactly when it is one line without an opening brace or bracket. -/
lemma blockBody_eq_none_iff (inside : Str) :
    blockBody inside = none ↔ '\n' ∉ inside ∧ '{' ∉ inside ∧ '[' ∉ inside := by
  unfold blockBody
  cases hsplit : Str.splitOnce '\n' inside with
  | some parts =>
    obtain ⟨first, rest⟩ := parts
    obtain ⟨rfl, -⟩ := Str.append_of_splitOnce hsplit
    simp only
    split <;> simp
  | none =>
    have hline := Str.splitOnce_eq_none_iff.mp hsplit
    simp only [hline, not_false_eq_true, true_and]
    split
    · next hopens =>
      have := mem_of_opensJson hopens
      simp only [reduceCtorEq, false_iff, not_and_or, not_not]
      exact this
    · exact fromOpening_eq_none_iff inside

lemma blockBody_suffix {inside body : Str} (h : blockBody inside = some body) :
    body <:+ inside := by
  unfold blockBody at h
  split at h
  · next first rest hsplit =>
    obtain ⟨rfl, -⟩ := Str.append_of_splitOnce hsplit
    split at h
    · cases h
      exact List.suffix_rfl
    · cases h
      exact (List.suffix_cons _ _).trans (List.suffix_append _ _)
  · split at h
    · cases h
      exact List.suffix_rfl
    · unfold fromOpening at h
      split at h
      · cases h
      · cases h
        exact List.dropWhile_suffix _

/-- What is taken from a block has no fence. -/
lemma not_fence_infix {text inside body : Str} (hblock : FirstBlock text inside)
    (hbody : blockBody inside = some body) : ¬fence <:+: Str.trim body := by
  obtain ⟨-, post, -, -, hfirst⟩ := hblock
  intro hin
  have hinside := (hin.trans (Str.trim_infix body)).trans (blockBody_suffix hbody).isInfix
  obtain ⟨pre', post', heq⟩ := hinside
  have hle := hfirst pre' ⟨post' ++ fence ++ post, by rw [← heq]; simp⟩
  have hlen := congrArg List.length heq
  simp only [List.length_append] at hlen
  have : fence.length = 3 := rfl
  omega

end Blocks

/-! ## Objects in a block, in prose and anywhere -/

lemma extractJson_self {j : Str} (h : JsonText.IsObject j) : extractJson j = some j := by
  rw [extractJson]
  simp only [trim_of_isObject h, isJson_of_isObject h, if_true]

lemma backtick_notMem {s : Str} (h : Prose s) : '\x60' ∉ s := fun hmem => h _ hmem (by simp)

section Fenced

variable {j lang : Str}

/-- The object in a block of its own, behind a language's name. -/
def inBlock (lang j : Str) : Str := fence ++ (lang ++ '\n' :: j ++ '\n' :: fence)

lemma trim_inBlock : Str.trim (inBlock lang j) = inBlock lang j := by
  have hspace : isWhiteSpace '\x60' = false := by decide
  have hstart : Str.trimStart (inBlock lang j) = inBlock lang j := by
    rw [Str.trimStart, inBlock, fence, List.cons_append, List.dropWhile_cons, hspace]
    rfl
  have hend : inBlock lang j = (fence ++ (lang ++ '\n' :: j ++ ['\n', '\x60', '\x60'])) ++
      '\x60' :: [] := by
    simp [inBlock, fence]
  rw [Str.trim, hstart]
  nth_rw 1 [hend]
  rw [Str.trimEnd_append hspace, hend]
  rfl

lemma isJson_inBlock : JsonText.isJson (inBlock lang j) = false := rfl

lemma fence_notMem_newline : '\n' ∉ fence := by decide

lemma not_fence_infix_of_languageName (h : LanguageName lang) : ¬fence <:+: lang := by
  intro hin
  exact h '\x60' (hin.subset (by simp [fence])) (by simp)

/-- Where the first fence behind the opening one is at `inside`, what the block holds is what comes
behind the language's line. -/
lemma fenced_inBlock (hlang : LanguageName lang) {rest post : Str}
    (heq : inBlock lang j = fence ++ (lang ++ '\n' :: rest ++ fence ++ post))
    (hfirst : Str.IsFirst fence rest post) : fenced (inBlock lang j) = some (Str.trim rest) := by
  have hinside : Str.IsFirst fence (lang ++ '\n' :: rest) post :=
    hfirst.append_cons fence_notMem_newline (not_fence_infix_of_languageName hlang)
  have hblock : FirstBlock (inBlock lang j) (lang ++ '\n' :: rest) :=
    ⟨[], post, heq, Str.isFirst_nil _ _, hinside⟩
  have hnewline : '\n' ∉ lang := fun hmem => hlang _ hmem (by simp)
  have hsplit : Str.splitOnce '\n' (lang ++ '\n' :: rest) = some (lang, rest) :=
    Str.splitOnce_append hnewline rest
  have hopens : opensJson lang = false := by
    rw [Bool.eq_false_iff]
    intro hopens
    rcases mem_of_opensJson hopens with hmem | hmem
    · exact hlang _ hmem (by simp)
    · exact hlang _ hmem (by simp)
  rw [fenced_of_firstBlock hblock, blockBody, hsplit]
  simp [hopens]

lemma extractJson_inBlock_iff (hj : JsonText.IsObject j) (hlang : LanguageName lang) :
    extractJson (inBlock lang j) = some j ↔ ¬fence <:+: j := by
  have hextract : extractJson (inBlock lang j) =
      (fenced (inBlock lang j)).or (inProse (inBlock lang j)) := by
    rw [extractJson]
    simp only [trim_inBlock, isJson_inBlock, Bool.false_eq_true, if_false]
  by_cases hin : fence <:+: j
  · -- the block ends amid the object
    obtain ⟨front, back, rfl, hfirst⟩ := Str.exists_isFirst hin
    have heq : inBlock lang (front ++ fence ++ back) =
        fence ++ (lang ++ '\n' :: front ++ fence ++ (back ++ '\n' :: fence)) := by
      simp [inBlock]
    have hfenced := fenced_inBlock hlang heq (hfirst.congr _)
    rw [hextract, hfenced, Option.some_or]
    have hshort := (Str.trim_infix front).length_le
    constructor
    · intro heq
      have hlen := congrArg List.length (Option.some.inj heq)
      simp only [List.length_append] at hlen
      have : fence.length = 3 := rfl
      omega
    · exact fun h => absurd hin h
  · have hfirst : Str.IsFirst fence (j ++ ['\n']) [] :=
      (Str.isFirst_nil fence []).append_cons fence_notMem_newline hin
    have hfenced := fenced_inBlock (j := j) hlang (by simp [inBlock]) hfirst
    have htrim : Str.trim (j ++ ['\n']) = j := by
      have := trim_around hj [] ['\n']
      simpa [Str.trimStart, Str.trimEnd, isWhiteSpace] using this
    rw [hextract, hfenced, Option.some_or, htrim]
    simp [hin]

end Fenced

section Around

variable {j pre post : Str}

lemma extractJson_around_iff (hj : JsonText.IsObject j) (hpre : Prose pre) (hpost : Prose post) :
    extractJson (pre ++ j ++ post) = some j ↔
      (Blank pre ∧ Blank post) ∨
      (JsonText.isJson (Str.trim (pre ++ j ++ post)) = false ∧
        ∀ inside, FirstBlock (Str.trim (pre ++ j ++ post)) inside →
          '\n' ∉ inside ∧ '{' ∉ inside ∧ '[' ∉ inside) := by
  have htrim := trim_around hj pre post
  have hself : Str.trim (pre ++ j ++ post) = j ↔ Blank pre ∧ Blank post := by
    rw [htrim, Blank, Blank, ← Str.trimStart_eq_nil_iff, ← Str.trimEnd_eq_nil_iff]
    constructor
    · intro h
      have hlen := congrArg List.length h
      simp only [List.length_append] at hlen
      exact ⟨List.eq_nil_of_length_eq_zero (by omega), List.eq_nil_of_length_eq_zero (by omega)⟩
    · rintro ⟨hpre, hpost⟩
      rw [hpre, hpost, List.nil_append, List.append_nil]
  rw [extractJson]
  cases hjson : JsonText.isJson (Str.trim (pre ++ j ++ post)) with
  | true => simpa using hself
  | false =>
    have hnotBlank : ¬(Blank pre ∧ Blank post) := by
      rw [← hself]
      intro h
      rw [h, isJson_of_isObject hj] at hjson
      cases hjson
    have hstart : '{' ∉ Str.trimStart pre := by
      intro hmem
      exact hpre _ ((Str.trimStart_suffix pre).subset hmem) (by simp)
    have hprose : inProse (Str.trim (pre ++ j ++ post)) = some j := by
      rw [htrim]
      exact inProse_around hj hstart _
    simp only [Bool.false_eq_true, if_false, hnotBlank, false_or, true_and, hprose]
    by_cases hblock : ∃ inside, FirstBlock (Str.trim (pre ++ j ++ post)) inside
    swap
    · rw [fenced_eq_none hblock, Option.none_or]
      exact ⟨fun _ inside h => absurd ⟨inside, h⟩ hblock, fun _ => rfl⟩
    obtain ⟨inside, hblock⟩ := hblock
    rw [fenced_of_firstBlock hblock]
    cases hbody : blockBody inside with
    | none =>
      refine ⟨fun _ inside' hblock' => ?_, fun _ => rfl⟩
      have hnone : blockBody inside' = none := by
        have := (fenced_of_firstBlock hblock).symm.trans (fenced_of_firstBlock hblock')
        rw [hbody] at this
        exact Option.map_eq_none_iff.mp this.symm
      exact (blockBody_eq_none_iff inside').mp hnone
    | some body =>
      -- the text has a fence, which must be in the object, and the block's body has none
      have hfence : fence <:+: j := by
        obtain ⟨a, b, heq, -, -⟩ := hblock
        have hin : fence <:+: Str.trimStart pre ++ (j ++ Str.trimEnd post) := by
          rw [← List.append_assoc, ← htrim, heq]
          exact ⟨a, _, rfl⟩
        have hfront : ∀ c ∈ fence, c ∉ Str.trimStart pre := by
          intro c hc hmem
          obtain rfl : c = '\x60' := by simpa [fence] using hc
          exact backtick_notMem hpre ((Str.trimStart_suffix pre).subset hmem)
        have hback : ∀ c ∈ fence, c ∉ Str.trimEnd post := by
          intro c hc hmem
          obtain rfl : c = '\x60' := by simpa [fence] using hc
          exact backtick_notMem hpost ((Str.prefix_trimEnd post).subset hmem)
        have hne : fence ≠ [] := List.cons_ne_nil _ _
        exact Str.infix_of_infix_append_right hne hback (Str.infix_of_infix_append hne hfront hin)
      have hne : Str.trim body ≠ j := by
        intro h
        exact not_fence_infix hblock hbody (h ▸ hfence)
      simp only [Option.map_some, Option.some_or, Option.some.injEq, hne, false_iff]
      intro hall
      rw [(blockBody_eq_none_iff inside).mpr (hall inside hblock)] at hbody
      cases hbody

end Around

/-- What is extracted where an object can be found is JSON exactly when the text is, or when what
its first block holds is. -/
lemma isJson_extracted_iff (text : Str) :
    (HasObject text → ∀ out, extractJson text = some out → JsonText.isJson out = true) ↔
    (HasObject text → JsonText.isJson (Str.trim text) = false →
      ∀ inside body, FirstBlock (Str.trim text) inside → blockBody inside = some body →
        JsonText.isJson (Str.trim body) = true) := by
  constructor
  · intro h hobject hjson inside body hblock hbody
    refine h hobject (Str.trim body) ?_
    rw [extractJson]
    simp only [hjson, Bool.false_eq_true, if_false]
    rw [fenced_of_firstBlock hblock, hbody, Option.map_some, Option.some_or]
  · intro h hobject out hout
    rw [extractJson] at hout
    split at hout
    · next hjson =>
      cases hout
      exact hjson
    next hjson =>
    rw [Bool.not_eq_true] at hjson
    rcases Option.or_eq_some_iff.mp hout with hfenced | ⟨-, hprose⟩
    · by_cases hblock : ∃ inside, FirstBlock (Str.trim text) inside
      · obtain ⟨inside, hblock⟩ := hblock
        rw [fenced_of_firstBlock hblock] at hfenced
        obtain ⟨body, hbody, rfl⟩ := Option.map_eq_some_iff.mp hfenced
        exact h hobject hjson inside body hblock hbody
      · rw [fenced_eq_none hblock] at hfenced
        cases hfenced
    · obtain ⟨rest, -, hrest⟩ := List.exists_of_findSome?_eq_some hprose
      obtain ⟨⟨read, left⟩, hscan, rfl⟩ := Option.map_eq_some_iff.mp hrest
      exact JsonText.isJson_of_scan hscan

/-- An object comes out of itself; out of a block of its own exactly when it has no fence in it; out
of prose exactly when the prose is blank, or when the text as a whole is no JSON and between its
first two fences, if it has them, there is neither a line break nor an opening brace or bracket; and
where an object starts at one of the first braces, what comes out is JSON exactly when the whole
text is JSON or what its first block holds is. -/
theorem extractJson_iff (j lang pre post text : Str) (hj : JsonText.IsObject j)
    (hlang : LanguageName lang) (hpre : Prose pre) (hpost : Prose post) :
    extractJson j = some j ∧
    (extractJson (inBlock lang j) = some j ↔ ¬fence <:+: j) ∧
    (extractJson (pre ++ j ++ post) = some j ↔
      (Blank pre ∧ Blank post) ∨
      (JsonText.isJson (Str.trim (pre ++ j ++ post)) = false ∧
        ∀ inside, FirstBlock (Str.trim (pre ++ j ++ post)) inside →
          '\n' ∉ inside ∧ '{' ∉ inside ∧ '[' ∉ inside)) ∧
    ((HasObject text → ∀ out, extractJson text = some out → JsonText.isJson out = true) ↔
      (HasObject text → JsonText.isJson (Str.trim text) = false →
        ∀ inside body, FirstBlock (Str.trim text) inside → blockBody inside = some body →
          JsonText.isJson (Str.trim body) = true)) :=
  ⟨extractJson_self hj, extractJson_inBlock_iff hj hlang, extractJson_around_iff hj hpre hpost,
    isJson_extracted_iff text⟩

/-- An object whose text quotes no code comes out of a block. -/
theorem extractJson_plain_block :
    extractJson (inBlock "json".toList "\x7b\x22a\x22:1\x7d".toList) =
      some "\x7b\x22a\x22:1\x7d".toList :=
  (extractJson_iff "\x7b\x22a\x22:1\x7d".toList "json".toList [] [] [] (by decide) (by decide)
    (by decide) (by decide)).2.1.mpr (Str.find?_eq_none_iff.mp (by decide))

/-- An object that quotes code, in a block and in prose; and one behind a block of other text. -/
theorem extractJson_cut :
    let j : Str := "\x7b\x22a\x22:\x22\x60\x60\x60\x7bx\x7d\x60\x60\x60\x22\x7d".toList
    let pre : Str := "Here: ".toList
    let text : Str := "\x60\x60\x60text\nfoo\n\x60\x60\x60 \x7b\x22a\x22:1\x7d".toList
    JsonText.IsObject j ∧ Prose pre ∧
    extractJson (inBlock "json".toList j) ≠ some j ∧
    extractJson (pre ++ j ++ []) ≠ some j ∧
    HasObject text ∧ extractJson text = some "foo".toList ∧
    JsonText.isJson "foo".toList = false := by
  refine ⟨by decide, by decide, by decide, by decide, ?_, by decide,
    by decide⟩
  exact ⟨_, List.mem_cons_self, rfl⟩

end Postit.Drafter
