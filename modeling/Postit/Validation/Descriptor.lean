import Postit.Core.Measure
import Postit.Core.Posts
import Postit.Publishing.Outcome

/-!
# Descriptors

What an agent declares about its platform: the formats it publishes, with their limits, its
capabilities, its quotas and the options of a post; and the check the registry makes of it at
startup.  What only the console shows of a descriptor is left out.
-/

namespace Postit.Validation

open Postit.Framework
open Postit.Data (PlatformId)
open Postit.Posts (MediaAssetId)
open Postit.Publishing (QuotaCosts QuotaScope)

/-! ## Media -/

/-- What a media asset is. -/
inductive MediaKind
  | image
  | video
  deriving DecidableEq, Repr

/-- The name on the wire. -/
def MediaKind.asStr : MediaKind → String
  | .image => "image"
  | .video => "video"

/-- Where a media asset is in its upload and processing life. -/
inductive MediaAssetState
  | uploading
  | ready
  | failed
  deriving DecidableEq, Repr

/-- A media file, with what probing it found. -/
structure MediaAsset where
  id : MediaAssetId
  kind : MediaKind
  mime : String
  bytes : ℕ
  width : Option ℕ := none
  height : Option ℕ := none
  durationMs : Option ℕ := none
  state : MediaAssetState
  deriving DecidableEq, Repr

/-- Whether the asset is taller than wide, which is `false` when its dimensions are unknown. -/
def MediaAsset.isVertical (asset : MediaAsset) : Bool :=
  match asset.width, asset.height with
  | some w, some h => w < h
  | _, _ => false

/-! ## Formats -/

/-- A kind of post a platform can publish. -/
inductive FormatId
  | text
  | link
  | image
  | carousel
  | video
  | shortVideo
  | story
  | reel
  | htmlEmail
  deriving DecidableEq, Repr

/-- The name on the wire. -/
def FormatId.asStr : FormatId → String
  | .text => "text"
  | .link => "link"
  | .image => "image"
  | .carousel => "carousel"
  | .video => "video"
  | .shortVideo => "short_video"
  | .story => "story"
  | .reel => "reel"
  | .htmlEmail => "html_email"

/-- A range of acceptable aspect ratios, and the one a fit should aim for. -/
structure AspectRange where
  min : AspectRatio
  max : AspectRatio
  preferred : AspectRatio
  deriving DecidableEq, Repr

/-- Limits on the media of a format. -/
structure MediaRules where
  minCount : ℕ := 0
  maxCount : ℕ := 0
  kinds : List MediaKind := []
  -- none allows any of the kinds
  mimeTypes : List String := []
  maxBytes : Option ℕ := none
  minWidth : Option ℕ := none
  maxWidth : Option ℕ := none
  minHeight : Option ℕ := none
  maxHeight : Option ℕ := none
  aspectRatios : List AspectRange := []
  minDurationMs : Option ℕ := none
  maxDurationMs : Option ℕ := none
  deriving DecidableEq, Repr

/-- Picks a format explicitly: it applies when the option has the value. -/
structure FormatSelector where
  option : String
  value : String
  deriving DecidableEq, Repr

/-- One format an agent can publish. -/
structure FormatSpec where
  id : FormatId
  text : TextRules
  media : MediaRules
  selectedBy : Option FormatSelector := none

/-! ## The descriptor -/

inductive AgentKind
  | broadcast
  | direct
  deriving DecidableEq, Repr

/-- An optional ability beyond publishing. -/
inductive Capability
  | commenter
  | inboxReader
  | metricsReader
  | directSender
  | nativeScheduler
  | senderDomainCheck
  deriving DecidableEq, Repr

/-- How far ahead a platform accepts a natively scheduled post, in seconds of 64 bits. -/
structure NativeScheduleWindow where
  minLeadSecs : ℕ
  maxLeadSecs : ℕ
  deriving DecidableEq, Repr

/-- How often a quota bucket resets. -/
inductive QuotaPeriod
  | day
  | month
  deriving DecidableEq, Repr

/-- No operation counts against the bucket. -/
def isZero (costs : QuotaCosts) : Bool :=
  costs.publish = 0 && costs.comment = 0 && costs.inboxPoll = 0 && costs.metrics = 0

/-- A calendar-aligned quota the platform enforces. -/
structure QuotaBucket where
  id : String
  scope : QuotaScope
  period : QuotaPeriod
  defaultLimit : ℕ
  -- an IANA time zone, which is not resolved here
  resetTimeZone : String
  costs : QuotaCosts
  deriving DecidableEq, Repr

/-- Everything the system knows about a platform, declared by its agent. -/
structure AgentDescriptor where
  platform : PlatformId
  iconPng : List UInt8
  brandColor : String
  kind : AgentKind
  formats : List FormatSpec
  capabilities : List Capability := []
  nativeSchedule : Option NativeScheduleWindow := none
  quotaBuckets : List QuotaBucket := []
  optionsSchema : OptionsSchema

/-- Why a descriptor is not acceptable. -/
inductive DescriptorError
  | noFormats
  | duplicateFormat (id : FormatId)
  | invalidBrandColor (color : String)
  | emptyIcon
  | directWithoutCapability
  | nativeScheduleWithoutCapability
  | invalidNativeScheduleWindow
  | nativeSchedulerWithoutWindow
  | invalidSelectorValue (option : String)
  | unknownSelectorOption (option : String)
  | duplicateQuotaBucket (id : String)
  | invalidQuotaBucket (id : String)
  deriving DecidableEq, Repr

/-! ## Checking a descriptor -/

def isAsciiHexdigit (c : Char) : Bool :=
  c.isDigit || ('a' ≤ c && c ≤ 'f') || ('A' ≤ c && c ≤ 'F')

/-- `#` and six hexadecimal digits. -/
def isHexColor (s : String) : Bool :=
  Str.utf8Len s.toList = 7 && match s.toList with
    | '#' :: digits => digits.all isAsciiHexdigit
    | _ => false

/-- The formats are declared once each; `seen` are those before. -/
def checkFormats (seen : List FormatId) : List FormatSpec → Except DescriptorError Unit
  | [] => pure ()
  | format :: formats =>
    if format.id ∈ seen then throw (.duplicateFormat format.id)
    else checkFormats (format.id :: seen) formats

/-- The quota buckets are declared once each and count something. -/
def checkBuckets (seen : List String) : List QuotaBucket → Except DescriptorError Unit
  | [] => pure ()
  | bucket :: buckets =>
    if bucket.id ∈ seen then throw (.duplicateQuotaBucket bucket.id)
    else if bucket.defaultLimit = 0 ∨ bucket.resetTimeZone = "" ∨ isZero bucket.costs then
      throw (.invalidQuotaBucket bucket.id)
    else checkBuckets (bucket.id :: seen) buckets

namespace AgentDescriptor

variable (d : AgentDescriptor)

/-- The native schedule window and the capability come together, and the window is one. -/
def checkNativeSchedule : Except DescriptorError Unit :=
  if d.nativeSchedule.isSome ∧ .nativeScheduler ∉ d.capabilities then
    throw .nativeScheduleWithoutCapability
  else
    match d.nativeSchedule with
    | some window =>
      if window.maxLeadSecs < window.minLeadSecs then throw .invalidNativeScheduleWindow
      else pure ()
    | none =>
      if .nativeScheduler ∈ d.capabilities then throw .nativeSchedulerWithoutWindow
      else pure ()

section Selectors

variable (graphemeLen : String → ℕ) (isRfc3339 : String → Bool)

/-- A selector names an option and a value the option accepts. -/
def checkSelector (selector : FormatSelector) : Except DescriptorError Unit :=
  match d.optionsSchema.field selector.option with
  | none => throw (.unknownSelectorOption selector.option)
  | some field =>
    if field.accepts graphemeLen isRfc3339 (.string selector.value) then pure ()
    else throw (.invalidSelectorValue selector.option)

/-- Checks the descriptor is internally consistent. -/
def validate : Except DescriptorError Unit :=
  if d.formats.isEmpty then throw .noFormats
  else do
    checkFormats [] d.formats
    if !isHexColor d.brandColor then throw (.invalidBrandColor d.brandColor)
    else if d.iconPng.isEmpty then throw .emptyIcon
    else if d.kind = .direct ∧ .directSender ∉ d.capabilities then throw .directWithoutCapability
    else do
      d.checkNativeSchedule
      (d.formats.filterMap (·.selectedBy)).forM (d.checkSelector graphemeLen isRfc3339)
      checkBuckets [] d.quotaBuckets

end Selectors

/-- Whether the platform can schedule posts itself. -/
def supportsNativeSchedule : Bool :=
  d.nativeSchedule.isSome && d.capabilities.contains .nativeScheduler

end AgentDescriptor

end Postit.Validation
