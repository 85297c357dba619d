import Postit.Framework.Durations
import Postit.Validation.Descriptor

/-!
# The validation engine

Everything of a target that can be checked without calling an agent: its kind, its schedule, the
format it is published as, what the format allows of its text and media, and its options.  A
duration out of chrono's range is a panic, so validating has an outcome beside its result: `none` is
the panic.

Aspect ratios are compared as doubles, and what they give is a parameter, like the Unicode
libraries and chrono's reading of a date-time.
-/

namespace Postit.Validation

open Postit.Framework Postit.Framework.Str Postit.Posts

/-- What the libraries and the doubles give. -/
structure Library where
  tables : CaseTables
  segmentation : Segmentation
  isRfc3339 : String → Bool
  /-- an image of this width and height has a ratio in the range, up to the rounding allowed -/
  within : (width height : ℕ) → AspectRange → Bool
  /-- the first ratio is not wider than the second -/
  notWider : AspectRatio → AspectRatio → Bool

/-- The libraries on ASCII text, with ratios compared without rounding. -/
def asciiLibrary : Library where
  tables := ⟨fun c => [c.toLower], Char.isAlpha, fun _ => false, Char.isAlphanum⟩
  segmentation := ⟨fun s => s.map fun c => [c], id⟩
  isRfc3339 := fun _ => false
  within width height range :=
    range.min.width * height ≤ width * range.min.height &&
      width * range.max.height ≤ range.max.width * height
  notWider a b := a.width * b.height ≤ b.width * a.height

/-- When a target is meant to publish. -/
inductive Schedule
  | now
  -- `native` asks the platform to hold the post itself
  | at_ (time : Instant) (native : Bool)

/-- Everything that is checked of one target. -/
structure ValidationInput where
  descriptor : AgentDescriptor
  -- the account's own schema when the caller has it
  optionsSchema : OptionsSchema
  variant : Posts.Variant
  media : List MediaAsset
  schedule : Schedule
  now : Instant

/-! ## Kind and schedule -/

/-- The rules tying a post's kind to its reply target. -/
def kindViolations : PostKind → Option ReplyTo → List Violation
  | .comment, none => [({ code := .replyToRequired } : Violation).at_ "reply_to"]
  | .post, some _ => [({ code := .replyToNotAllowed } : Violation).at_ "reply_to"]
  | _, _ => []

/-- How far in the past a scheduled time may be. -/
def scheduleGraceSecs : ℤ := 60

/-- `u64::MAX` -/
def u64Max : ℕ := 2 ^ 64 - 1

/-- `Duration::seconds` of an unsigned count, which is at most the largest signed one. -/
def leadDuration (secs : ℕ) : Option TimeDelta := TimeDelta.seconds (min (secs : ℤ) maxI64)

/-- The violation of a lead the platform does not take. -/
def outsideWindow (window : NativeScheduleWindow) : Violation :=
  ((({ code := .nativeScheduleOutsideWindow } : Violation).at_ "schedule").param "min_ms"
    (jsonNat (min (window.minLeadSecs * 1000) u64Max))).param "max_ms"
    (jsonNat (min (window.maxLeadSecs * 1000) u64Max))

/-- The lead of a native schedule against the platform's window. -/
def checkWindow (window : NativeScheduleWindow) (lead : TimeDelta) : Option (List Violation) := do
  let shortest ← leadDuration window.minLeadSecs
  let longest ← leadDuration window.maxLeadSecs
  pure (if lead.nanos < shortest.nanos ∨ longest.nanos < lead.nanos then [outsideWindow window]
    else [])

def checkSchedule (input : ValidationInput) : Option (List Violation) :=
  match input.schedule with
  | .now => some []
  | .at_ time native =>
    let lead := time.signedDurationSince input.now
    if lead.nanos < -(scheduleGraceSecs * 10 ^ 9) then
      some [({ code := .scheduleInPast } : Violation).at_ "schedule"]
    else if !native || !input.descriptor.supportsNativeSchedule then some []
    else
      match input.descriptor.nativeSchedule with
      | none => some []
      | some window => checkWindow window lead

/-! ## Picking the format -/

section Pick

variable (d : AgentDescriptor) (v : Posts.Variant) (media : List MediaAsset)

/-- The variant's options have the value of the format's selector. -/
def selected (format : FormatSpec) : Bool :=
  format.selectedBy.any fun selector =>
    match Members.get? v.options selector.option with
    | some (.string s) => s = selector.value
    | _ => false

/-- A count as 32 bits. -/
def count32 (n : ℕ) : ℕ := min n u32Max

/-- Whether the format's media rules allow all of the media. -/
def textTakes (format : FormatSpec) : Bool :=
  let count := count32 media.length
  format.media.minCount ≤ count && count ≤ format.media.maxCount &&
    media.all fun m => format.media.kinds.contains m.kind

/-- Whether a declared short video takes a clip of this length. -/
def fitsShortVideo (clip : MediaAsset) : Bool :=
  (d.formats.find? (·.id = .shortVideo)).any fun format =>
    match format.media.maxDurationMs, clip.durationMs with
    | some max, some actual => actual ≤ max
    | _, _ => true

/-- Formats the content could be, most specific first. -/
def candidates : List FormatId :=
  if v.email.isSome then [.htmlEmail]
  else
    match media with
    | [] => if v.link.isSome then [.link, .text] else [.text, .link]
    | [one] =>
      match one.kind with
      | .image => [.image, .text, .carousel]
      | .video =>
        if one.isVertical && fitsShortVideo d one then [.shortVideo, .reel, .video, .text]
        else [.video, .text]
    | many => if many.all (·.kind = .image) then [.carousel, .text] else [.carousel]

/-- Whether a declared format is the one of a candidate. -/
def isCandidate (id : FormatId) (format : FormatSpec) : Bool :=
  format.id = id && (id ≠ .text || media.isEmpty || textTakes media format)

/-- The format of the first candidate that is declared. -/
def inferFormat : Option FormatSpec :=
  (candidates d v media).findSome? fun id => d.formats.find? (isCandidate media id)

/-- The violation of content in none of the agent's formats. -/
def formatUnsupported : Violation :=
  ({ code := .formatUnsupported } : Violation).param "inferred"
    (.string ((candidates d v media).head?.getD .text).asStr)

/-- Picks the format a variant is published as.  `media` is what of the variant's media could be
resolved, in order. -/
def pickFormat : Except Violation FormatSpec :=
  match d.formats.find? (selected v) with
  | some format => pure format
  | none =>
    match inferFormat d v media with
    | some format => pure format
    | none => throw (formatUnsupported d v media)

end Pick

/-! ## The media rules -/

/-- Index of the media item a violation at the path refers to. -/
def mediaIndex (path : String) : Option ℕ :=
  match path.toList with
  | 'm' :: 'e' :: 'd' :: 'i' :: 'a' :: '[' :: rest =>
    if rest.getLast? = some ']' then parseU64 (String.ofList rest.dropLast) else none
  | _ => none

section Asset

variable (asset : MediaAsset) (rules : MediaRules) (path : String)

/-- Adds a bound that is there. -/
def paramBound (v : Violation) (key : String) (bound : Option ℕ) : Violation :=
  match bound with
  | some bound => v.param key (jsonNat bound)
  | none => v

/-- The fix that removes the item at the path. -/
def withRemoval (v : Violation) : Violation :=
  match mediaIndex path with
  | some index => v.withFix (.removeMedia (some index))
  | none => v

/-- The violation of an asset of the wrong kind. -/
def kindNotAllowed : Violation :=
  withRemoval path (((({ code := .mediaKindNotAllowed } : Violation).at_ path).param "kind"
    (.string asset.kind.asStr)).param "allowed"
    (.array (rules.kinds.map fun kind => .string kind.asStr)))

def typeNotAllowed : Violation :=
  ((({ code := .mediaTypeNotAllowed } : Violation).at_ path).param "content_type"
    (.string asset.mime)).param "allowed" (.array (rules.mimeTypes.map .string))

def checkType : List Violation :=
  if !rules.mimeTypes.isEmpty && !rules.mimeTypes.any (eqIgnoreAsciiCase · asset.mime) then
    [typeNotAllowed asset rules path]
  else []

def checkBytes : List Violation :=
  match rules.maxBytes with
  | some max =>
    if max < asset.bytes then
      [((({ code := .mediaTooLarge } : Violation).at_ path).param "max_bytes"
        (jsonNat max)).param "actual_bytes" (jsonNat asset.bytes)]
    else []
  | none => []

/-- The sides are outside a bound. -/
def badDimensions (width height : ℕ) : Bool :=
  rules.minWidth.any (width < ·) || rules.maxWidth.any (· < width) ||
    rules.minHeight.any (height < ·) || rules.maxHeight.any (· < height)

/-- The violation of an asset of these sides. -/
def dimensions (width height : ℕ) : Violation :=
  let v := ({ code := .mediaDimensions } : Violation).at_ path
  let v := paramBound v "min_width" rules.minWidth
  let v := paramBound v "max_width" rules.maxWidth
  let v := paramBound v "min_height" rules.minHeight
  let v := paramBound v "max_height" rules.maxHeight
  (v.param "width" (jsonNat width)).param "height" (jsonNat height)

def checkDimensions : List Violation :=
  match asset.width, asset.height with
  | some width, some height =>
    if badDimensions rules width height then [dimensions rules path width height] else []
  | _, _ => []

/-- A ratio as it is printed. -/
def ratioText (width height : ℕ) : String := toString width ++ ":" ++ toString height

/-- The violation of a ratio that is in no range, the first of which says what to fit it in. -/
def aspectRatio (lib : Library) (first : AspectRange) (others : List AspectRange)
    (width height : ℕ) : Violation :=
  let min := (others.map (·.min)).foldl (fun a b => if lib.notWider a b then a else b) first.min
  let max := (others.map (·.max)).foldl (fun a b => if lib.notWider b a then a else b) first.max
  (((({ code := .mediaAspectRatio } : Violation).at_ path).param "min"
    (.string (ratioText min.width min.height)) |>.param "max"
    (.string (ratioText max.width max.height))).param "actual"
    (.string (ratioText width height))).withFix (.fit first.preferred)

def checkAspect (lib : Library) : List Violation :=
  match asset.width, asset.height, rules.aspectRatios with
  | some width, some height, first :: others =>
    -- an asset without area has no ratio
    if 0 < width ∧ 0 < height ∧ !(first :: others).any (lib.within width height) then
      [aspectRatio path lib first others width height]
    else []
  | _, _, _ => []

/-- The violation of a duration, with the fix when it is too long. -/
def duration (actual : ℕ) : Violation :=
  let v := ({ code := .mediaDuration } : Violation).at_ path
  let v := paramBound v "min_ms" rules.minDurationMs
  let v := paramBound v "max_ms" rules.maxDurationMs
  let v := v.param "actual_ms" (jsonNat actual)
  match rules.maxDurationMs with
  | some max => if max < actual then v.withFix (.trim max) else v
  | none => v

def checkDuration : List Violation :=
  match asset.durationMs with
  | some actual =>
    if rules.minDurationMs.any (actual < ·) || rules.maxDurationMs.any (· < actual) then
      [duration rules path actual]
    else []
  | none => []

/-- An asset against the rules.  One that is not ready, or not of an allowed kind, is not checked
further. -/
def checkAsset (lib : Library) : List Violation :=
  if asset.state ≠ .ready then
    [(({ code := .mediaNotReady } : Violation).at_ path).param "id" (.string (uuidText asset.id))]
  else if !rules.kinds.contains asset.kind then [kindNotAllowed asset rules path]
  else
    checkType asset rules path ++ checkBytes asset rules path ++ checkDimensions asset rules path ++
      checkAspect asset rules path lib ++ checkDuration asset rules path

/-- The violation of an asset that could not be found. -/
def missing (id : MediaAssetId) : Violation :=
  (({ code := .mediaMissing } : Violation).at_ path).param "id" (.string (uuidText id))

end Asset

/-- The number of items, with those that are missing reported already. -/
def checkCount (actual : ℕ) (someMissing : Bool) (rules : MediaRules) : List Violation :=
  let actual := count32 actual
  if actual = 0 ∧ 0 < rules.minCount then
    if someMissing then [] else [({ code := .mediaRequired } : Violation).at_ "media"]
  else if (actual < rules.minCount ∧ !someMissing) ∨ rules.maxCount < actual then
    let v := ((({ code := .mediaCount } : Violation).at_ "media").param "min"
      (jsonNat rules.minCount) |>.param "max" (jsonNat rules.maxCount)).param "actual"
      (jsonNat actual)
    [if rules.maxCount < actual then v.withFix (.removeMedia none) else v]
  else []

/-! ## The format's rules -/

section Target

variable (lib : Library) (input : ValidationInput)

/-- The asset with the ID. -/
def findAsset (id : MediaAssetId) : Option MediaAsset := input.media.find? (·.id = id)

/-- An asset that is referred to, at the path of the reference. -/
def checkReference (rules : MediaRules) (path : String) (id : MediaAssetId) : List Violation :=
  match findAsset input id with
  | some asset => checkAsset asset rules path lib
  | none => [missing path id]

/-- Where an item of the media stands. -/
def mediaPath (i : ℕ) : String := "media[" ++ toString i ++ "]"

/-- Where a block of the email stands. -/
def blockPath (i : ℕ) : String := "email.blocks[" ++ toString i ++ "]"

/-- The variant's media that could be resolved. -/
def resolved : List MediaAsset :=
  input.variant.media.filterMap fun item => findAsset input item.asset

def checkItems (rules : MediaRules) : List Violation :=
  input.variant.media.zipIdx.flatMap fun (item, i) =>
    checkReference lib input rules (mediaPath i) item.asset

/-- A block of the email, of which the images refer to assets. -/
def checkBlock (rules : MediaRules) (block : EmailBlock) (i : ℕ) : List Violation :=
  match block with
  | .image asset => checkReference lib input rules (blockPath i) asset
  | _ => []

def checkBlocks (rules : MediaRules) : List Violation :=
  match input.variant.email with
  | some email => email.blocks.zipIdx.flatMap fun (block, i) => checkBlock lib input rules block i
  | none => []

/-- The email document of a variant published as an email. -/
def checkEmail (format : FormatSpec) : List Violation :=
  if format.id = .htmlEmail then
    match input.variant.email with
    | none => [({ code := .emailDocumentRequired } : Violation).at_ "email"]
    | some email =>
      if (Str.trim email.subject.toList).isEmpty then
        [({ code := .emailSubjectRequired } : Violation).at_ "email.subject"]
      else []
  else []

def checkFormat (format : FormatSpec) : List Violation :=
  let found := input.variant.media.countP fun item => (findAsset input item.asset).isSome
  input.variant.checkText lib.tables lib.segmentation format.text ++
    checkItems lib input format.media ++ checkBlocks lib input format.media ++
    checkCount found (found < input.variant.media.length) format.media ++
    checkEmail input format

/-- The violations of the format pick, and of the rules of the format picked. -/
def checkPicked : List Violation :=
  match pickFormat input.descriptor input.variant (resolved input) with
  | .ok format => checkFormat lib input format
  | .error violation => [violation]

/-- The violations of the options. -/
def checkOptions : List Violation :=
  input.optionsSchema.validate (fun s => (lib.segmentation.graphemes s.toList).length)
    lib.isRfc3339 input.variant.options

/-- Every violation of a target, in pipeline order: kind, schedule, format pick, format rules,
options. -/
def validateTarget : Option (List Violation) := do
  let schedule ← checkSchedule input
  pure (kindViolations input.variant.kind input.variant.replyTo ++ schedule ++
    checkPicked lib input ++ checkOptions lib input)

end Target

end Postit.Validation
