import Postit.Core.Measure
import Postit.Core.Posts
import Postit.Drafter.Extract
import Postit.Framework.Table

/-!
# From an answer to a draft

The variants a model's answer has for the targets, and the draft they make.  A malformed variant,
one for an unknown target and one for a target that has one already are dropped, and a target
without one is told as missing.

`serde_json`'s reading of a text is a parameter; what it makes of a variant is told on values.  A
target's brief has what an answer is read and checked with; what only a prompt tells is left out.
-/

namespace Postit.Drafter

open Postit.Framework Postit.Framework.Str
open Postit.Data (AccountId)
open Postit.Posts (MediaItem ReplyTo)

/-! ## What the model wrote -/

/-- An email as the model wrote it. -/
structure RawEmail where
  subject : Str := []
  preheader : Str := []
  paragraphs : List Str := []
  deriving DecidableEq, Repr

/-- One variant as the model wrote it. -/
structure RawVariant where
  target : String
  text : Str := []
  tags : List Str := []
  email : Option RawEmail := none
  deriving DecidableEq, Repr

def readString : Json → Option Str
  | .string s => some s.toList
  | _ => none

def readStrings : Json → Option (List Str)
  | .array items => items.mapM readString
  | _ => none

/-- A field that may be left out or null. -/
def orDefault {α : Type} (default : α) (read : Json → Option α) : Option Json → Option α
  | none | some .null => some default
  | some value => read value

/-- A derived `Deserialize` takes a structure of `n` fields from an object, or from an array of
their values in order. -/
def isStruct (n : ℕ) : Json → Bool
  | .object _ => true
  | .array items => items.length ≤ n
  | _ => false

/-- A field of a structure. -/
def structField (value : Json) (i : ℕ) (name : String) : Option Json :=
  match value with
  | .object members => Members.get? members name
  | .array items => items[i]?
  | _ => none

/-- `from_value::<RawEmail>` -/
def RawEmail.fromValue (value : Json) : Option RawEmail :=
  if isStruct 3 value then do
    let subject ← orDefault [] readString (structField value 0 "subject")
    let preheader ← orDefault [] readString (structField value 1 "preheader")
    let paragraphs ← orDefault [] readStrings (structField value 2 "paragraphs")
    return { subject, preheader, paragraphs }
  else none

/-- `from_value::<RawVariant>` -/
def RawVariant.fromValue (value : Json) : Option RawVariant :=
  if isStruct 4 value then do
    let target ← structField value 0 "target"
    let target ← readString target
    let text ← orDefault [] readString (structField value 1 "text")
    let tags ← orDefault [] readStrings (structField value 2 "tags")
    let email ← orDefault none (fun v => (RawEmail.fromValue v).map some)
      (structField value 3 "email")
    return { target := String.ofList target, text, tags, email }
  else none

/-! ## Parsing -/

/-- What the drafter knows about one target. -/
structure TargetBrief where
  account : AccountId
  isEmail : Bool
  textMax : ℕ
  measure : TextMeasure
  includesLinkAndTags : Bool
  language : Option String
  deriving DecidableEq, Repr

/-- The answer was not usable JSON in the expected shape. -/
inductive ParseError
  | noJson
  | wrongShape
  deriving DecidableEq, Repr

/-- The variants that matched a requested target, and the targets with none. -/
structure Parsed where
  variants : Table AccountId RawVariant
  -- in request order
  missing : List AccountId

/-- Gives each target an answer left out the variant an earlier one has for it. -/
def Parsed.fillFrom (parsed earlier : Parsed) : Parsed where
  variants := parsed.missing.foldl (fun variants account =>
    match earlier.variants.lookup account with
    | some variant => variants.insert account variant
    | none => variants) parsed.variants
  missing := parsed.missing.filter fun account => (earlier.variants.lookup account).isNone

section Parse

variable (u : CaseTables)

/-- A hashtag word without its sign. -/
def cleanTag (tag : Str) : Str := Str.trim ((Str.trim tag).dropWhile (· = '#'))

/-- Cleans hashtag words, of which those of `seen` are there already. -/
def normalizeFrom (seen : List Str) : List Str → List Str
  | [] => []
  | tag :: tags =>
    let clean := cleanTag tag
    if clean.isEmpty ∨ u.toLowercase clean ∈ seen then normalizeFrom seen tags
    else clean :: normalizeFrom (u.toLowercase clean :: seen) tags

def normalizeTags (tags : List Str) : List Str := normalizeFrom u [] tags

/-- The text after a leading `<think>` block. -/
def stripThink (text : Str) : Str :=
  match "<think>".toList.isPrefixOf? (Str.trimStart text) with
  | none => text
  | some rest =>
    match Str.cut? "</think>".toList rest with
    | some (_, after) => Str.trimStart after
    | none => []

/-- Whether a variant is for the target. -/
def TargetBrief.wanted (brief : TargetBrief) (variant : RawVariant) : Bool :=
  eqIgnoreAsciiCase (uuidText brief.account) (trim variant.target)

/-- A variant as it is kept for its target. -/
def kept (brief : TargetBrief) (variant : RawVariant) : RawVariant :=
  { variant with
    tags := normalizeTags u variant.tags
    email := if brief.isEmail then variant.email else none }

/-- The variants with one more value of the answer. -/
def addVariant (targets : List TargetBrief) (variants : Table AccountId RawVariant)
    (value : Json) : Table AccountId RawVariant :=
  match RawVariant.fromValue value with
  | none => variants
  | some variant =>
    match targets.find? (·.wanted variant) with
    | none => variants
    | some brief =>
      if brief.account ∈ variants then variants
      else variants.insert brief.account (kept u brief variant)

/-- The variants of an answer, and the targets it left out. -/
def parseValues (targets : List TargetBrief) (values : List Json) : Parsed :=
  let variants := values.foldl (addVariant u targets) ∅
  { variants
    missing := (targets.map TargetBrief.account).filter fun account => account ∉ variants }

variable (wire : Str → Option (List Json))

/-- Parses an answer.  `wire` reads the values under `variants`. -/
def parse (text : Str) (targets : List TargetBrief) : Except ParseError Parsed :=
  match extractJson (stripThink text) with
  | none => .error .noJson
  | some json =>
    match wire json with
    | none => .error .wrongShape
    | some values => .ok (parseValues u targets values)

end Parse

/-! ## The draft -/

/-- The languages a campaign is rendered in. -/
inductive EmailLanguage
  | enUs
  deriving DecidableEq, Repr

/-- `EmailBlock`, of which a draft has only texts. -/
inductive EmailBlock
  | text (text : Str)
  deriving DecidableEq, Repr

structure EmailDocument where
  subject : Str
  preheader : Option Str
  language : EmailLanguage
  blocks : List EmailBlock
  deriving DecidableEq, Repr

/-- Changes one account makes to the shared post, of which a draft makes these. -/
structure PostOverride where
  text : Option Str
  tags : Option (List Str)
  email : Option EmailDocument
  deriving DecidableEq, Repr

/-- The shared post and each target's override. -/
structure Draft where
  post : Posts.Post
  overrides : Table AccountId PostOverride

/-- Whether the text has more than white space. -/
def isBlank (s : Str) : Bool := (Str.trim s).isEmpty

/-- The email of a target.  One answered without an email has its text for a body. -/
def emailDocument (variant : Option RawVariant) (language : EmailLanguage) : EmailDocument :=
  let email : RawEmail :=
    match variant.bind RawVariant.email with
    | some email => email
    | none => { paragraphs := (variant.map fun v => [v.text]).getD [] }
  { subject := email.subject
    preheader := if isBlank email.preheader then none else some email.preheader
    language
    blocks := (email.paragraphs.filter (!isBlank ·)).map .text }

/-- The override of a target, with nothing in it for one that was not answered. -/
def overrideOf (parsed : Parsed) (language : AccountId → EmailLanguage) (brief : TargetBrief) :
    PostOverride :=
  let variant := parsed.variants.lookup brief.account
  { text := some ((variant.map RawVariant.text).getD [])
    tags := some ((variant.map RawVariant.tags).getD [])
    email := if brief.isEmail then some (emailDocument variant (language brief.account)) else none }

/-- Maps parsed variants to a draft.  The shared post takes the first answered one in request
order. -/
def toDraft (parsed : Parsed) (targets : List TargetBrief) (media : List MediaItem)
    (link : Option Url) (replyTo : Option ReplyTo) (language : AccountId → EmailLanguage) : Draft :=
  let first := targets.findSome? fun t => parsed.variants.lookup t.account
  { post :=
      { kind := if replyTo.isSome then .comment else .post
        text := (first.map RawVariant.text).getD []
        media
        link
        tags := (first.map RawVariant.tags).getD []
        discloseAiGenerated := true
        replyTo }
    overrides := targets.foldl (fun overrides brief =>
      overrides.insert brief.account (overrideOf parsed language brief)) ∅ }

end Postit.Drafter
