import Postit.Core.Json

/-!
# Violations

What a validation reports: the rule, where, with which parameters, and a change that would clear it.
-/

namespace Postit

/-- What rule a post broke, of those checked without calling an agent. -/
inductive ViolationCode
  | scheduleInPast
  | nativeScheduleOutsideWindow
  | formatUnsupported
  | textRequired
  | textTooLong
  | mediaRequired
  | mediaCount
  | mediaMissing
  | mediaKindNotAllowed
  | mediaTypeNotAllowed
  | mediaTooLarge
  | mediaDimensions
  | mediaAspectRatio
  | mediaDuration
  | mediaNotReady
  | replyToRequired
  | replyToNotAllowed
  | overrideMediaNotInPost
  | overrideMediaDuplicate
  | emailDocumentRequired
  | emailSubjectRequired
  | optionUnknown
  | optionRequired
  | optionType
  | optionNotAllowed
  | optionTooShort
  | optionTooLong
  | optionOutOfRange
  | optionConsentRequired
  deriving DecidableEq, Repr

/-- A width-to-height ratio. -/
structure AspectRatio where
  width : ℕ
  height : ℕ
  deriving DecidableEq, Repr

/-- A change that would make a violating post valid. -/
inductive SuggestedFix
  | fit (aspect : AspectRatio)
  | trim (maxMs : ℕ)
  -- the item at the position, or every item
  | removeMedia (index : Option ℕ)
  | shortenText (max : ℕ)
  deriving DecidableEq, Repr

structure Violation where
  code : ViolationCode
  path : Option String := none
  params : Members := []
  fix : Option SuggestedFix := none

/-- Sets where in the post the violation is. -/
def Violation.at_ (v : Violation) (path : String) : Violation := { v with path := some path }

/-- Adds a parameter. -/
def Violation.param (v : Violation) (key : String) (value : Json) : Violation :=
  { v with params := v.params.insert key value }

/-- Attaches a suggested fix. -/
def Violation.withFix (v : Violation) (fix : SuggestedFix) : Violation := { v with fix := some fix }

@[simp] lemma Violation.code_at (v : Violation) (path : String) : (v.at_ path).code = v.code := rfl

@[simp] lemma Violation.code_param (v : Violation) (key : String) (value : Json) :
    (v.param key value).code = v.code := rfl

@[simp] lemma Violation.code_withFix (v : Violation) (fix : SuggestedFix) :
    (v.withFix fix).code = v.code := rfl

@[simp] lemma Violation.fix_param (v : Violation) (key : String) (value : Json) :
    (v.param key value).fix = v.fix := rfl

end Postit
