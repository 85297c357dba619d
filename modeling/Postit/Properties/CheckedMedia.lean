import Postit.Validation.Engine

/-!
# Checked media

When validating a target reports nothing about its media: a format is picked, and everything the
target refers to keeps the format's limits.  And which format is picked.
-/

namespace Postit.Validation

open Postit.Framework Postit.Framework.Str Postit.Posts

/-- The rules about the media, from the format pick to each limit but the aspect ratios. -/
def isMediaCode : ViolationCode → Bool
  | .formatUnsupported | .mediaRequired | .mediaCount | .mediaMissing | .mediaNotReady
  | .mediaKindNotAllowed | .mediaTypeNotAllowed | .mediaTooLarge | .mediaDimensions
  | .mediaDuration => true
  | _ => false

attribute [local simp] isMediaCode

/-- Nothing is reported about the media. -/
def NoMedia (vs : List Violation) : Prop := ∀ v ∈ vs, isMediaCode v.code = false

@[simp] lemma noMedia_nil : NoMedia [] := by simp [NoMedia]

@[simp] lemma noMedia_cons {v : Violation} {vs : List Violation} :
    NoMedia (v :: vs) ↔ isMediaCode v.code = false ∧ NoMedia vs := by
  simp [NoMedia]

@[simp] lemma noMedia_append {vs ws : List Violation} :
    NoMedia (vs ++ ws) ↔ NoMedia vs ∧ NoMedia ws := by
  simp [NoMedia, or_imp, forall_and]

lemma noMedia_flatMap {α : Type} {l : List α} {f : α → List Violation} :
    NoMedia (l.flatMap f) ↔ ∀ a ∈ l, NoMedia (f a) := by
  simp only [NoMedia, List.mem_flatMap]
  constructor
  · intro h a ha v hv
    exact h v ⟨a, ha, hv⟩
  · rintro h v ⟨a, ha, hv⟩
    exact h a ha v hv

/-- Checking each element with its index, in a way that does not depend on the index. -/
lemma noMedia_zipIdx {α : Type} {l : List α} {f : α × ℕ → List Violation} {P : α → Prop}
    (h : ∀ p, NoMedia (f p) ↔ P p.1) : NoMedia (l.zipIdx.flatMap f) ↔ ∀ a ∈ l, P a := by
  simp only [noMedia_flatMap, h]
  rw [← List.forall_mem_map, List.zipIdx_map_fst]

/-! ## The rest of a target -/

lemma noMedia_kindViolations (kind : PostKind) (replyTo : Option ReplyTo) :
    NoMedia (kindViolations kind replyTo) := by
  cases kind <;> cases replyTo <;> simp [kindViolations]

lemma noMedia_checkWindow {window : NativeScheduleWindow} {lead : TimeDelta} {vs : List Violation}
    (h : checkWindow window lead = some vs) : NoMedia vs := by
  obtain ⟨shortest, -, h⟩ := Option.bind_eq_some_iff.mp h
  obtain ⟨longest, -, h⟩ := Option.bind_eq_some_iff.mp h
  obtain rfl := Option.some.inj h
  split <;> simp [outsideWindow]

lemma noMedia_checkSchedule {input : ValidationInput} {vs : List Violation}
    (h : checkSchedule input = some vs) : NoMedia vs := by
  unfold checkSchedule at h
  split at h
  · obtain rfl := Option.some.inj h
    exact noMedia_nil
  · dsimp only at h
    split at h
    · obtain rfl := Option.some.inj h
      simp
    split at h
    · obtain rfl := Option.some.inj h
      exact noMedia_nil
    split at h
    · obtain rfl := Option.some.inj h
      exact noMedia_nil
    · exact noMedia_checkWindow h

lemma noMedia_checkText (u : CaseTables) (g : Segmentation) (v : Postit.Variant)
    (rules : TextRules) :
    NoMedia (v.checkText u g rules) := by
  unfold Postit.Variant.checkText
  split
  · simp
  · dsimp only
    split
    · unfold tooLong
      dsimp only
      split <;> simp
    · exact noMedia_nil

lemma noMedia_checkEmail (input : ValidationInput) (format : FormatSpec) :
    NoMedia (checkEmail input format) := by
  unfold checkEmail
  split
  · split
    · simp
    · split <;> simp
  · exact noMedia_nil

section Options

variable (graphemeLen : String → ℕ) (isRfc3339 : String → Bool)

lemma code_paramOpt (v : Violation) (key : String) (value : Option ℤ) :
    (v.paramOpt key value).code = v.code := by
  cases value <;> rfl

lemma noMedia_checkValue (f : SchemaField) (value : Json) :
    NoMedia (checkValue graphemeLen isRfc3339 f value) := by
  have htext : ∀ min max, NoMedia (checkText graphemeLen f value min max) := by
    intro min max
    unfold checkText
    split
    · rw [noMedia_append]
      constructor <;> split <;> try split
      all_goals simp [violation]
    · simp [wrongType, violation]
  unfold checkValue
  split
  · exact htext _ _
  · exact htext _ _
  all_goals
    split <;> try split
    all_goals simp [wrongType, violation, code_paramOpt]

lemma noMedia_validate (s : OptionsSchema) (values : Members) :
    NoMedia (s.validate graphemeLen isRfc3339 values) := by
  unfold OptionsSchema.validate
  rw [noMedia_append, noMedia_flatMap, noMedia_flatMap]
  constructor
  · intro f _
    unfold OptionsSchema.validateField
    split
    · split
      · split <;> simp [violation]
      · exact noMedia_checkValue graphemeLen isRfc3339 f _
    · exact noMedia_nil
  · intro key _
    unfold OptionsSchema.unknownKey
    split <;> simp

end Options

/-! ## One asset -/

/-- A number is not outside the bounds that are there. -/
def Between (min max : Option ℕ) (n : ℕ) : Prop :=
  (∀ m, min = some m → m ≤ n) ∧ ∀ m, max = some m → n ≤ m

lemma between_iff (min max : Option ℕ) (n : ℕ) :
    Between min max n ↔ (min.any (n < ·) || max.any (· < n)) = false := by
  cases min <;> cases max <;> simp [Between]

/-- An asset keeps the limits.  Sides and durations are compared where they are known. -/
structure MediaAsset.AdmittedBy (asset : MediaAsset) (rules : MediaRules) : Prop where
  ready : asset.state = .ready
  kind : asset.kind ∈ rules.kinds
  mime : rules.mimeTypes = [] ∨ ∃ mime ∈ rules.mimeTypes, eqIgnoreAsciiCase mime asset.mime
  bytes : Between none rules.maxBytes asset.bytes
  sides : ∀ width height, asset.width = some width → asset.height = some height →
    Between rules.minWidth rules.maxWidth width ∧ Between rules.minHeight rules.maxHeight height
  duration : ∀ actual, asset.durationMs = some actual →
    Between rules.minDurationMs rules.maxDurationMs actual

section Asset

variable (asset : MediaAsset) (rules : MediaRules) (path : String)

@[simp] lemma code_paramBound (v : Violation) (key : String) (bound : Option ℕ) :
    (paramBound v key bound).code = v.code := by
  cases bound <;> rfl

@[simp] lemma code_withRemoval (v : Violation) : (withRemoval path v).code = v.code := by
  unfold withRemoval
  split <;> rfl

lemma noMedia_checkType : NoMedia (checkType asset rules path) ↔
    (rules.mimeTypes = [] ∨ ∃ mime ∈ rules.mimeTypes, eqIgnoreAsciiCase mime asset.mime) := by
  unfold checkType
  split
  · next h =>
    simp only [Bool.and_eq_true, Bool.not_eq_true', List.isEmpty_eq_false_iff,
      List.any_eq_false] at h
    simpa [typeNotAllowed, h.1] using h.2
  · next h =>
    simp only [Bool.and_eq_true, Bool.not_eq_true', List.isEmpty_eq_false_iff,
      List.any_eq_false, not_and] at h
    simp only [noMedia_nil, true_iff]
    by_cases hempty : rules.mimeTypes = []
    · exact .inl hempty
    · right
      simpa using h hempty

lemma noMedia_checkBytes : NoMedia (checkBytes asset rules path) ↔
    Between none rules.maxBytes asset.bytes := by
  unfold checkBytes Between
  cases rules.maxBytes with
  | none => simp
  | some max =>
    by_cases hlt : max < asset.bytes
    · simp [hlt]
    · simpa [hlt] using Nat.le_of_not_lt hlt

lemma noMedia_checkDimensions : NoMedia (checkDimensions asset rules path) ↔
    ∀ width height, asset.width = some width → asset.height = some height →
      Between rules.minWidth rules.maxWidth width ∧
        Between rules.minHeight rules.maxHeight height := by
  unfold checkDimensions
  cases asset.width with
  | none => simp
  | some width =>
    cases asset.height with
    | none => simp
    | some height =>
      have hbad : badDimensions rules width height = false ↔
          Between rules.minWidth rules.maxWidth width ∧
            Between rules.minHeight rules.maxHeight height := by
        rw [between_iff, between_iff, badDimensions, Bool.or_assoc, Bool.or_eq_false_iff]
      show NoMedia (if badDimensions rules width height then [dimensions rules path width height]
        else []) ↔ _
      cases hdimensions : badDimensions rules width height with
      | true =>
        have hnot := mt hbad.mpr (by simp [hdimensions])
        simpa [dimensions] using hnot
      | false => simpa using hbad.mp hdimensions

lemma noMedia_checkAspect (lib : Library) : NoMedia (checkAspect asset rules path lib) := by
  unfold checkAspect
  split
  · split <;> simp [aspectRatio]
  · exact noMedia_nil

lemma noMedia_checkDuration : NoMedia (checkDuration asset rules path) ↔
    ∀ actual, asset.durationMs = some actual →
      Between rules.minDurationMs rules.maxDurationMs actual := by
  unfold checkDuration
  cases asset.durationMs with
  | none => simp
  | some actual =>
    simp only [Option.some.injEq, forall_eq', between_iff]
    split
    · next h =>
      have hcode : (duration rules path actual).code = .mediaDuration := by
        unfold duration
        dsimp only
        split
        · split <;> simp
        · simp
      simp [h, hcode]
    · next h => simp [h]

lemma noMedia_checkAsset (lib : Library) :
    NoMedia (checkAsset asset rules path lib) ↔ asset.AdmittedBy rules := by
  unfold checkAsset
  split
  · next hstate =>
    simp only [noMedia_cons, Violation.code_param, Violation.code_at, isMediaCode,
      Bool.true_eq_false, false_and, false_iff]
    exact fun h => hstate h.ready
  split
  · next hkind =>
    simp only [noMedia_cons, kindNotAllowed, code_withRemoval, Violation.code_param,
      Violation.code_at, isMediaCode, Bool.true_eq_false, false_and, false_iff]
    intro h
    simp [h.kind] at hkind
  · next hstate hkind =>
    simp only [noMedia_append, noMedia_checkType, noMedia_checkBytes, noMedia_checkDimensions,
      noMedia_checkDuration, noMedia_checkAspect, and_true]
    constructor
    · rintro ⟨⟨⟨hmime, hbytes⟩, hsides⟩, hduration⟩
      exact ⟨by simpa using hstate, by simpa using hkind, hmime, hbytes, hsides, hduration⟩
    · rintro ⟨-, -, hmime, hbytes, hsides, hduration⟩
      exact ⟨⟨⟨hmime, hbytes⟩, hsides⟩, hduration⟩

end Asset

/-! ## The media of a target -/

lemma noMedia_checkCount (n : ℕ) (rules : MediaRules) : NoMedia (checkCount n false rules) ↔
    rules.minCount ≤ count32 n ∧ count32 n ≤ rules.maxCount := by
  unfold checkCount
  dsimp only
  split
  · next h =>
    simp only [Bool.false_eq_true, if_false, noMedia_cons, Violation.code_at, isMediaCode,
      Bool.true_eq_false, false_and, false_iff]
    omega
  · split
    · next h =>
      simp only [Bool.not_false, and_true] at h
      split <;> simp <;> omega
    · next h =>
      simp only [Bool.not_false, and_true, not_or] at h
      simp only [noMedia_nil, true_iff]
      omega

/-- An asset that is referred to exists and keeps the limits. -/
def ValidationInput.Refers (input : ValidationInput) (rules : MediaRules) (id : MediaAssetId) :
    Prop :=
  ∃ asset, findAsset input id = some asset ∧ asset.AdmittedBy rules

/-- Everything the target refers to keeps the limits, and so does the number of its items, counted
in 32 bits. -/
structure ValidationInput.Admits (input : ValidationInput) (rules : MediaRules) : Prop where
  items : ∀ item ∈ input.variant.media, input.Refers rules item.asset
  images : ∀ email, input.variant.email = some email → ∀ id, .image id ∈ email.blocks →
    input.Refers rules id
  count : rules.minCount ≤ count32 input.variant.media.length ∧
    count32 input.variant.media.length ≤ rules.maxCount

section Target

variable (lib : Library) (input : ValidationInput) (rules : MediaRules)

lemma noMedia_checkReference (path : String) (id : MediaAssetId) :
    NoMedia (checkReference lib input rules path id) ↔ input.Refers rules id := by
  unfold checkReference ValidationInput.Refers
  cases findAsset input id with
  | none => simp [missing]
  | some asset => simp [noMedia_checkAsset]

lemma noMedia_checkItems : NoMedia (checkItems lib input rules) ↔
    ∀ item ∈ input.variant.media, input.Refers rules item.asset :=
  noMedia_zipIdx fun _ => noMedia_checkReference lib input rules _ _

lemma noMedia_checkBlocks : NoMedia (checkBlocks lib input rules) ↔
    ∀ email, input.variant.email = some email → ∀ id, .image id ∈ email.blocks →
      input.Refers rules id := by
  unfold checkBlocks
  cases input.variant.email with
  | none => simp
  | some email =>
    have hblock : ∀ p : EmailBlock × ℕ, NoMedia (checkBlock lib input rules p.1 p.2) ↔
        ∀ id, p.1 = .image id → input.Refers rules id := by
      rintro ⟨block, i⟩
      cases block <;> simp [checkBlock, noMedia_checkReference]
    have hblocks := noMedia_zipIdx (l := email.blocks)
      (P := fun block => ∀ id, block = .image id → input.Refers rules id) hblock
    simp only [Option.some.injEq, forall_eq', hblocks]
    constructor
    · intro h id hid
      exact h _ hid id rfl
    · rintro h block hblock id rfl
      exact h id hblock

lemma noMedia_checkFormat (format : FormatSpec) :
    NoMedia (checkFormat lib input format) ↔ input.Admits format.media := by
  unfold checkFormat
  have htext := noMedia_checkText lib.tables lib.segmentation input.variant.toVariant format.text
  simp only [noMedia_append, htext, noMedia_checkItems, noMedia_checkBlocks,
    noMedia_checkEmail, true_and, and_true]
  -- where every item is found, all of them are counted and none is missing
  have hcount : (∀ item ∈ input.variant.media, input.Refers format.media item.asset) →
      input.variant.media.countP (fun item => (findAsset input item.asset).isSome) =
        input.variant.media.length := by
    intro h
    rw [List.countP_eq_length]
    intro item hitem
    obtain ⟨asset, hfound, -⟩ := h item hitem
    simp [hfound]
  constructor
  · rintro ⟨⟨hitems, himages⟩, hcheck⟩
    rw [hcount hitems, decide_eq_false (lt_irrefl _), noMedia_checkCount] at hcheck
    exact ⟨hitems, himages, hcheck⟩
  · rintro ⟨hitems, himages, hcheck⟩
    rw [hcount hitems, decide_eq_false (lt_irrefl _), noMedia_checkCount]
    exact ⟨⟨hitems, himages⟩, hcheck⟩

/-- What is reported about the media is about the format pick or the format's rules. -/
lemma noMedia_validateTarget {vs : List Violation} (h : validateTarget lib input = some vs) :
    NoMedia vs ↔ NoMedia (checkPicked lib input) := by
  obtain ⟨schedule, hschedule, h⟩ := Option.bind_eq_some_iff.mp h
  obtain rfl := Option.some.inj h
  have hoptions : NoMedia (checkOptions lib input) := noMedia_validate _ _ _ _
  simp only [noMedia_append, noMedia_kindViolations, noMedia_checkSchedule hschedule, hoptions,
    true_and, and_true]

lemma noMedia_checkPicked : NoMedia (checkPicked lib input) ↔
    ∃ format, pickFormat input.descriptor input.variant (resolved input) = .ok format ∧
      input.Admits format.media := by
  unfold checkPicked
  cases hpick : pickFormat input.descriptor input.variant (resolved input) with
  | ok format =>
    simp only [noMedia_checkFormat, Except.ok.injEq]
    constructor
    · exact fun h => ⟨format, rfl, h⟩
    · rintro ⟨_, rfl, h⟩
      exact h
  | error violation =>
    have hcode : violation.code = .formatUnsupported := by
      unfold pickFormat at hpick
      split at hpick
      · cases hpick
      split at hpick
      · cases hpick
      · cases hpick
        rfl
    simp [hcode]

end Target

/-! ## The format picked -/

section Pick

variable (d : AgentDescriptor) (v : Posts.Variant) (media : List MediaAsset)

/-- The format is declared under a candidate, and none is under the candidates before it. -/
def Inferred (format : FormatSpec) : Prop :=
  ∃ before id after, candidates d v media = before ++ id :: after ∧
    d.formats.find? (isCandidate media id) = some format ∧
    ∀ id' ∈ before, ∀ other ∈ d.formats, ¬ isCandidate media id' other

lemma inferFormat_eq_some_iff (format : FormatSpec) :
    inferFormat d v media = some format ↔ Inferred d v media format := by
  unfold inferFormat Inferred
  rw [List.findSome?_eq_some_iff]
  simp only [List.find?_eq_none]

/-- A selected format is picked, or else the first that a candidate is declared as. -/
lemma pickFormat_eq_ok_iff (format : FormatSpec) : pickFormat d v media = .ok format ↔
    d.formats.find? (selected v) = some format ∨
      (∀ other ∈ d.formats, ¬ selected v other) ∧ Inferred d v media format := by
  rw [← inferFormat_eq_some_iff]
  unfold pickFormat
  cases hselected : d.formats.find? (selected v) with
  | some found =>
    have hfound := List.find?_some hselected
    have hmem := List.mem_of_find?_eq_some hselected
    simp only [Except.ok.injEq, Option.some.injEq, pure, Except.pure]
    constructor
    · exact .inl
    · rintro (h | ⟨hnone, -⟩)
      · exact h
      · exact absurd hfound (hnone found hmem)
  | none =>
    have hnone := List.find?_eq_none.mp hselected
    cases inferFormat d v media with
    | some found => simpa [pure, Except.pure] using fun _ => hnone
    | none => simp [throw, throwThe, MonadExceptOf.throw]

/-- A format is picked where a candidate is declared with limits that take the media. -/
lemma exists_picked {format : FormatSpec} (hformat : format ∈ d.formats)
    (hid : format.id ∈ candidates d v media) (htakes : textTakes media format) :
    ∃ picked, pickFormat d v media = .ok picked := by
  have hcandidate : isCandidate media format.id format := by simp [isCandidate, htakes]
  have hinfer : inferFormat d v media ≠ none := by
    unfold inferFormat
    rw [ne_eq, List.findSome?_eq_none_iff]
    intro h
    exact List.find?_eq_none.mp (h format.id hid) format hformat hcandidate
  unfold pickFormat
  cases d.formats.find? (selected v) with
  | some found => exact ⟨found, rfl⟩
  | none =>
    obtain ⟨found, hfound⟩ := Option.ne_none_iff_exists'.mp hinfer
    exact ⟨found, by rw [hfound]; rfl⟩

/-- A text that is inferred for media takes them. -/
lemma textTakes_of_inferred {format : FormatSpec} (h : Inferred d v media format)
    (hid : format.id = .text) (hmedia : media ≠ []) : textTakes media format := by
  obtain ⟨before, id, after, -, hfind, -⟩ := h
  have hcandidate := List.find?_some hfind
  simp only [isCandidate, Bool.and_eq_true, decide_eq_true_eq, Bool.or_eq_true] at hcandidate
  obtain ⟨rfl, (hne | hempty) | htakes⟩ := hcandidate
  · exact absurd hid (by simpa using hne)
  · exact absurd (List.isEmpty_iff.mp hempty) hmedia
  · exact htakes

end Pick

/-- Validating a target reports nothing about its media exactly when a format is picked whose limits
everything the target refers to keeps.  The format is a selected one, or else the first that a
candidate is declared as; a candidate that is declared and takes the media makes the pick succeed,
and a text that is inferred for media takes them. -/
theorem media_checked (lib : Library) (input : ValidationInput) :
    (∀ vs, validateTarget lib input = some vs → (NoMedia vs ↔
      ∃ format, pickFormat input.descriptor input.variant (resolved input) = .ok format ∧
        input.Admits format.media)) ∧
    ∀ d v media,
      (∀ format, pickFormat d v media = .ok format ↔
        d.formats.find? (selected v) = some format ∨
          (∀ other ∈ d.formats, ¬ selected v other) ∧ Inferred d v media format) ∧
      (∀ format ∈ d.formats, format.id ∈ candidates d v media → textTakes media format →
        ∃ picked, pickFormat d v media = .ok picked) ∧
      ∀ format, Inferred d v media format → format.id = .text → media ≠ [] →
        textTakes media format := by
  refine ⟨fun vs h => ?_, fun d v media => ⟨pickFormat_eq_ok_iff d v media, ?_, ?_⟩⟩
  · rw [noMedia_validateTarget lib input h, noMedia_checkPicked]
  · exact fun format hformat hid htakes => exists_picked d v media hformat hid htakes
  · exact fun format h hid hmedia => textTakes_of_inferred d v media h hid hmedia

/-- A photo of these sides. -/
def photo (width height : Option ℕ) : MediaAsset where
  id := 1
  kind := .image
  mime := "image/png"
  bytes := 1000
  width := width
  height := height
  state := .ready

/-- A platform with one format, which takes one image of up to 1000 pixels across. -/
def imagePlatform (id : FormatId) : AgentDescriptor where
  platform := "demo"
  iconPng := [1]
  brandColor := "#112233"
  kind := .broadcast
  formats := [{
    id
    text := { measure := .graphemes, max := 500, required := false }
    media := { minCount := 1, maxCount := 1, kinds := [.image], maxWidth := some 1000 } }]
  optionsSchema := ⟨[]⟩

/-- The photo on that platform. -/
def photoTarget (id : FormatId) (asset : MediaAsset) : ValidationInput where
  descriptor := imagePlatform id
  optionsSchema := ⟨[]⟩
  variant := {
    target := { platform := "demo", account := 1, remoteId := "remote" }
    kind := .post
    text := []
    link := none
    tags := []
    media := [{ asset := asset.id }]
    discloseAiGenerated := false
    replyTo := none
    email := none
    options := [] }
  media := [asset]
  schedule := .now
  now := ⟨0, Instant.minUtc_le_zero, Instant.zero_le_maxUtc⟩

theorem media_checked_sample :
    validateTarget asciiLibrary (photoTarget .image (photo (some 800) (some 600))) = some [] ∧
      ∃ format,
        pickFormat (imagePlatform .image) (photoTarget .image (photo (some 800) (some 600))).variant
          [photo (some 800) (some 600)] = .ok format ∧
        (photoTarget .image (photo (some 800) (some 600))).Admits format.media :=
  ⟨rfl, ((media_checked asciiLibrary (photoTarget .image (photo (some 800) (some 600)))).1 []
    rfl).mp noMedia_nil⟩

/-- No content is inferred to be a story, so a platform with stories alone takes the photo in none
of its formats; and a width is not compared while the height is unknown. -/
theorem not_media_checked :
    (¬ ∀ d v media, (∃ format ∈ d.formats, textTakes media format) →
      ∃ picked, pickFormat d v media = .ok picked ∧ ∀ m ∈ media, m.kind ∈ picked.media.kinds) ∧
    ¬ ∀ lib input vs, validateTarget lib input = some vs → NoMedia vs →
      ∃ format, pickFormat input.descriptor input.variant (resolved input) = .ok format ∧
        ∀ item ∈ input.variant.media, ∃ asset, findAsset input item.asset = some asset ∧
          ∀ max width, format.media.maxWidth = some max → asset.width = some width →
            width ≤ max := by
  constructor
  · intro h
    obtain ⟨picked, hpick, -⟩ := h (imagePlatform .story)
      (photoTarget .story (photo none none)).variant [photo none none] ⟨_, .head _, rfl⟩
    cases hpick
  · intro h
    obtain ⟨format, hpick, hitems⟩ :=
      h asciiLibrary (photoTarget .image (photo (some 5000) none)) [] rfl noMedia_nil
    obtain ⟨asset, hfound, hwidth⟩ := hitems _ (.head _)
    cases hpick
    cases hfound
    exact absurd (hwidth 1000 5000 rfl rfl) (by decide)

end Postit.Validation
