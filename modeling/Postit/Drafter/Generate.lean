import Postit.Drafter.Output
import Postit.Framework.Savepoints
import Postit.Validation.Engine

/-!
# A generation

The last steps of a generation: the model is asked, its answer checked, a repair asked for once, and
the generation recorded.  What the model is asked besides the repair was put together before.

The provider and the database are outside: what the provider answers is a function of everything it
was asked, and inserting a row may fail.
-/

namespace Postit.Drafter

open Postit.Framework Postit.Framework.Str
open Postit.Data (AccountId)
open Postit.Posts (AccountRef MediaItem ReplyTo resolveVariant)
open Postit.Validation (AgentDescriptor FormatId Library MediaAsset ValidationInput validateTarget)

/-! ## The provider -/

/-- Token counts the provider reported. -/
structure Usage where
  inputTokens : UInt32
  outputTokens : UInt32
  deriving DecidableEq, Repr

/-- Why the model stopped. -/
inductive Finish
  | stop
  | length
  | refused
  | other
  deriving DecidableEq, Repr

/-- The model's answer. -/
structure ChatResponse where
  text : Str
  usage : Option Usage
  finish : Finish
  deriving DecidableEq, Repr

/-- Why a provider call failed. -/
inductive FailureReason
  | keyRejected
  | modelNotFound
  | rateLimited
  | badRequest
  | unavailable
  | timeout
  | addressRefused
  | invalidResponse
  | invalidOutput
  deriving DecidableEq, Repr

/-- A failed provider call. -/
structure LlmError where
  reason : FailureReason
  retryAfter : Option Duration := none
  deriving DecidableEq

inductive DataError
  | foreignKey
  | sql (text : String)
  deriving DecidableEq, Repr

/-- Why a generation failed, from here on. -/
inductive DrafterError
  | providerFailed (e : LlmError)
  | data (e : DataError)
  deriving DecidableEq

/-- One piece of a message. -/
inductive Part
  | text (text : Str)
  | image (jpeg : List UInt8)
  deriving DecidableEq, Repr

inductive Role
  | user
  | assistant
  deriving DecidableEq, Repr

structure ChatMessage where
  role : Role
  parts : List Part
  deriving DecidableEq, Repr

/-- One chat call. -/
structure ChatRequest where
  model : String
  system : Str
  messages : List ChatMessage
  maxTokens : UInt32
  deriving DecidableEq, Repr

/-- `u32::saturating_add` -/
def saturatingAdd (a b : UInt32) : UInt32 := UInt32.ofNat (min (a.toNat + b.toNat) u32Max)

def addUsage : Option Usage → Option Usage → Option Usage
  | none, none => none
  | a, b =>
    let a := a.getD ⟨0, 0⟩
    let b := b.getD ⟨0, 0⟩
    some ⟨saturatingAdd a.inputTokens b.inputTokens, saturatingAdd a.outputTokens b.outputTokens⟩

/-! ## Checking an answer -/

/-- What to write. -/
inductive Mode
  | post
  | reply
  | rewrite
  deriving DecidableEq, Repr

def Mode.asStr : Mode → String
  | .post => "post"
  | .reply => "reply"
  | .rewrite => "rewrite"

/-- A text for the user, and its key. -/
structure Message where
  key : String
  en : String
  deriving DecidableEq, Repr

/-- What is wrong with a target: a rule of the drafter, or a violation of the post's rules. -/
inductive Found
  | rule (path : String) (message : Message)
  | violation (v : Violation)

/-- One target account with its platform's descriptor. -/
structure Target where
  account : AccountRef
  descriptor : AgentDescriptor

/-- What every answer is checked against. -/
structure Plan where
  mode : Mode
  targets : List Target
  briefs : List TargetBrief
  assets : List MediaAsset
  items : List MediaItem
  link : Option Url
  replyTo : Option ReplyTo

def cutOff : String :=
  "Your answer was cut off at the length limit. Write shorter variants so " ++
    "the whole JSON object fits."

def refused : String := "Your answer was declined. Write the drafts as asked, within the rules."

def unreadable : String :=
  "Your answer was empty or could not be read. Answer with the JSON object asked for."

def notJson : String := "Your answer was not one JSON object in the shape asked for."

def noTarget : String :=
  "Your answer had no variant for any target. Give one variant for every " ++
    "target, with the target IDs exactly as given."

/-- `EmailLanguage::for_tag`: by the primary language subtag. -/
def EmailLanguage.forTag (tag : String) : Option EmailLanguage :=
  let primary := (trim tag).toList.takeWhile fun c => c ≠ '-' ∧ c ≠ '_'
  if eqIgnoreAsciiCase "en" (String.ofList primary) then some .enUs else none

/-- The campaign language of an email target. -/
def Plan.emailLanguage (plan : Plan) (account : AccountId) : EmailLanguage :=
  (((plan.briefs.find? (·.account = account)).bind TargetBrief.language).bind
    EmailLanguage.forTag).getD .enUs

def measureUnit : TextMeasure → String
  | .graphemes => "characters"
  | .xWeighted => "weighted characters (a link counts 23, an emoji 2)"
  | .utf16Units => "UTF-16 code units"
  | .bytes => "bytes"

/-- A parameter that is an unsigned number. -/
def numberParam (v : Violation) (key : String) : Option ℕ :=
  match v.params.get? key with
  | some (.number (.posInt n)) => some n
  | _ => none

/-- The problem a repair asks the model to fix, for the violations that are the model's. -/
def problem (brief : TargetBrief) (v : Violation) : Option String :=
  let target := "Target " ++ uuidText brief.account
  match v.code with
  | .textRequired => some (target ++ ": the text is empty; write it")
  | .textTooLong =>
    let actual := (numberParam v "actual").getD 0
    let max := (numberParam v "max").getD brief.textMax
    let counted :=
      if brief.includesLinkAndTags then
        ", counted with the link and the tags that are added after the text"
      else ""
    some (target ++ ": text is " ++ toString actual ++ " " ++ measureUnit brief.measure ++
      "; the limit is " ++ toString max ++ counted)
  | .emailDocumentRequired =>
    some (target ++ ": the email is missing; give a subject, a preheader, and paragraphs")
  | .emailSubjectRequired => some (target ++ ": the email has no subject")
  | _ => none

/-- An email as the post's rules see it. -/
def EmailDocument.core (email : EmailDocument) : Posts.EmailDocument :=
  { subject := String.ofList email.subject, blocks := email.blocks.map fun _ => .text }

/-- An override as the post's rules see it. -/
def PostOverride.core (own : PostOverride) : Posts.PostOverride :=
  { text := own.text, tags := own.tags, email := own.email.map EmailDocument.core }

/-- The draft of the variants.  A reply carries no hashtags. -/
def Plan.draft (plan : Plan) (parsed : Parsed) : Draft :=
  let draft := toDraft parsed plan.briefs plan.items plan.link plan.replyTo plan.emailLanguage
  if plan.mode = .reply then
    { post := { draft.post with tags := [] }
      overrides := draft.overrides.updateWhere (fun _ _ => true)
        fun own => { own with tags := some [] } }
  else draft

/-- What is wrong with one target, and which of it a repair must fix. -/
abbrev Finding := List Found × List String

section Check

variable (lib : Library) (plan : Plan) (now : Instant)

/-- What a target without a variant is told. -/
def missing (brief : TargetBrief) : Finding :=
  ([.rule "text" ⟨"ai.target_missing",
      "The model wrote nothing for this account. Write it yourself, or try again."⟩],
    ["Target " ++ uuidText brief.account ++ ": no variant was returned"])

/-- What validating a target's variant finds. -/
def checkVariant (draft : Draft) (isMissing : Bool) (target : Target) (brief : TargetBrief) :
    Finding :=
  match resolveVariant draft.post target.account
      ((draft.overrides.lookup brief.account).map PostOverride.core) with
  | .error refused => (refused.map .violation, [])
  | .ok variant =>
    let checked := (validateTarget lib
      { descriptor := target.descriptor
        optionsSchema := target.descriptor.optionsSchema
        variant
        media := plan.assets
        schedule := .now
        now }).getD []
    (checked.map .violation, if isMissing then [] else checked.filterMap (problem brief))

/-- What is wrong with a target. -/
def checkTarget (parsed : Parsed) (draft : Draft) (target : Target) (brief : TargetBrief) :
    Finding :=
  let isMissing := brief.account ∈ parsed.missing
  let before := if isMissing then missing brief else ([], [])
  let found := checkVariant lib plan now draft isMissing target brief
  (before.1 ++ found.1, before.2 ++ found.2)

/-- The drafts' violations, by target. -/
abbrev Violations := Table AccountId (List Found)

/-- What is wrong with the targets, those with nothing wrong left out, and what a repair must
fix. -/
def checkTargets (parsed : Parsed) (draft : Draft) : Violations × List String :=
  (plan.targets.zip plan.briefs).foldl (fun (violations, problems) (target, brief) =>
    let (found, fix) := checkTarget lib plan now parsed draft target brief
    (if found.isEmpty then violations else violations.insert brief.account found,
      problems ++ fix)) (∅, [])

/-- An answer checked: the variants and the draft with what is still wrong, when it parsed with at
least one target answered, and what a repair must fix. -/
structure Evaluated where
  parsed : Option Parsed
  checked : Option (Draft × Violations)
  problems : List String

/-- What is wrong with how an answer ended. -/
def finishProblems : Finish → List String
  | .length => [cutOff]
  | .refused => [refused]
  | .stop | .other => []

variable (wire : Str → Option (List Json))

/-- The variants of an answer, those it left out taken from an earlier one, or what is wrong with
it. -/
def readAnswer (answer : ChatResponse) (earlier : Option Parsed) : Except String Parsed :=
  if (Str.trim answer.text).isEmpty then .error unreadable
  else
    match parse lib.tables wire answer.text plan.briefs with
    | .error _ => .error notJson
    | .ok parsed =>
      let parsed := (earlier.map parsed.fillFrom).getD parsed
      if parsed.variants.entries.isEmpty then .error noTarget else .ok parsed

/-- One answer, parsed, resolved and validated. -/
def evaluate (answer : ChatResponse) (earlier : Option Parsed) : Evaluated :=
  match readAnswer lib plan wire answer earlier with
  | .error text =>
    { parsed := none, checked := none, problems := finishProblems answer.finish ++ [text] }
  | .ok parsed =>
    let draft := plan.draft parsed
    let (violations, problems) := checkTargets lib plan now parsed draft
    { parsed := some parsed
      checked := some (draft, violations)
      problems := finishProblems answer.finish ++ problems }

end Check

/-! ## Asking and recording -/

/-- Neutralizes closing tags, so that a content cannot end its own block. -/
def escape : Str → Str
  | '<' :: '/' :: rest =>
    (if (Str.trimStart rest).head?.any Char.isAlpha then "&lt;/".toList else "</".toList) ++
      escape rest
  | c :: rest => c :: escape rest
  | [] => []

/-- A content between a tag's opening and closing. -/
def block (tag : Str) (content : Str) : Str :=
  '<' :: tag ++ ">\n".toList ++ escape content ++ "\n</".toList ++ tag ++ ">\n".toList

/-- The follow-up asking for a corrected answer. -/
def repairMessage (previous : Str) (problems : List String) : Str :=
  "Your previous answer had problems.\n\n".toList ++ block "previous_answer".toList previous ++
    "\nProblems:\n".toList ++
    problems.flatMap (fun problem => "- ".toList ++ problem.toList ++ ['\n']) ++
    ("\nReply again with one corrected JSON object in the same shape, with one variant for " ++
      "every target. Fix these problems and change nothing else.\n").toList

/-- The request with the repair at the end of its one message. -/
def repaired (chat : ChatRequest) (previous : Str) (problems : List String) : ChatRequest :=
  match chat.messages with
  | [] => chat
  | message :: rest =>
    { chat with messages := { message with
        parts := message.parts ++ [.text ('\n' :: repairMessage previous problems)] } :: rest }

inductive GenerationOutcome
  | ok
  | invalidOutput
  | failed
  deriving DecidableEq, Repr

/-- A generation to record. -/
structure NewAiGeneration where
  id : ℕ
  providerId : Option ℕ
  model : String
  mode : String
  promptHash : List UInt8
  prompt : Option Str
  inputTokens : Option ℤ
  outputTokens : Option ℤ
  outcome : GenerationOutcome
  deriving DecidableEq, Repr

/-- What the generation row records besides its outcome and usage. -/
structure Record where
  providerId : ℕ
  model : String
  mode : Mode
  prompt : Str
  storePrompt : Bool
  deriving DecidableEq, Repr

/-- What is outside: the provider's answer to the last of the requests so far, what a statement that
inserts a row fails with, the hash of a prompt, and the ID that is generated. -/
structure Outside where
  chat : List ChatRequest → Except LlmError ChatResponse
  insertFails : NewAiGeneration → Option DataError
  promptHash : Str → List UInt8
  id : ℕ

/-- What was asked of the provider, and the rows of `ai_generations`. -/
structure World where
  asked : List ChatRequest := []
  rows : List NewAiGeneration := []

/-- A generation's result. -/
structure Generation where
  id : ℕ
  providerId : ℕ
  model : String
  draft : Draft
  violations : Violations
  notes : List Message
  usage : Option Usage

/-- A number of tokens, as the column takes it. -/
def tokens (n : UInt32) : ℤ := min n.toNat (2 ^ 31 - 1)

/-- The note of a repair that could not be asked for. -/
def repairFailed : Message :=
  ⟨"ai.repair_failed", "The model could not be asked to fix its draft, so the draft is shown as " ++
    "it came, with what is still wrong."⟩

section Generate

variable (o : Outside)

def ask (request : ChatRequest) : EStateM DrafterError World (Except LlmError ChatResponse) :=
  fun w =>
    let asked := w.asked ++ [request]
    .ok (o.chat asked) { w with asked }

def insertRow (new : NewAiGeneration) : EStateM DrafterError World Unit := fun w =>
  match o.insertFails new with
  | none => .ok () { w with rows := w.rows ++ [new] }
  | some e => .error (.data e) w

/-- `AiGenerationRepo::insert`: a row whose provider is gone is kept without it. -/
def insertGeneration (new : NewAiGeneration) : EStateM DrafterError World Unit := fun w =>
  match new.providerId with
  | none => insertRow o new w
  | some _ =>
    match insertRow o new w with
    | .error (.data .foreignKey) _ => insertRow o { new with providerId := none } w
    | result => result

/-- The row of a generation. -/
def generationRow (record : Record) (usage : Option Usage) (outcome : GenerationOutcome) :
    NewAiGeneration :=
  { id := o.id
    providerId := some record.providerId
    model := record.model
    mode := record.mode.asStr
    promptHash := o.promptHash record.prompt
    prompt := if record.storePrompt then some record.prompt else none
    inputTokens := usage.map fun u => tokens u.inputTokens
    outputTokens := usage.map fun u => tokens u.outputTokens
    outcome }

def recordGeneration (record : Record) (usage : Option Usage) (outcome : GenerationOutcome) :
    EStateM DrafterError World ℕ := do
  insertGeneration o (generationRow o record usage outcome)
  return o.id

/-- Records and returns what came of the answers. -/
def conclude (record : Record) (usage : Option Usage) (evaluated : Evaluated)
    (notes : List Message) : EStateM DrafterError World Generation :=
  match evaluated.checked with
  | none => do
    let _ ← recordGeneration o record usage .invalidOutput
    throw (.providerFailed { reason := .invalidOutput })
  | some (draft, violations) => do
    let id ← recordGeneration o record usage .ok
    return { id, providerId := record.providerId, model := record.model, draft, violations, notes,
             usage }

variable (lib : Library) (wire : Str → Option (List Json)) (plan : Plan) (clock : ℕ → Instant)

/-- What comes of a repair that was answered: the repaired answer, unless it cannot be used and the
first one can. -/
def afterRepair (evaluated : Evaluated) (second : ChatResponse) : Evaluated :=
  let again := evaluate lib plan (clock 1) wire second evaluated.parsed
  if again.checked.isSome ∨ evaluated.checked.isNone then again else evaluated

/-- What comes of the first answer, with one repair if it has problems. -/
def answered (chat : ChatRequest) (record : Record) (notes : List Message) (first : ChatResponse) :
    EStateM DrafterError World Generation :=
  let evaluated := evaluate lib plan (clock 0) wire first none
  if evaluated.problems.isEmpty then conclude o record first.usage evaluated notes
  else do
    match ← ask o (repaired chat first.text evaluated.problems) with
    | .error e =>
      if evaluated.checked.isSome then
        conclude o record first.usage evaluated (notes ++ [repairFailed])
      else do
        let _ ← recordGeneration o record first.usage .failed
        throw (.providerFailed e)
    | .ok second =>
      conclude o record (addUsage first.usage second.usage)
        (afterRepair lib wire plan clock evaluated second) notes

/-- A generation, from the first call on.  A failure before any answer records nothing. -/
def generate (chat : ChatRequest) (record : Record) (notes : List Message) :
    EStateM DrafterError World Generation := do
  match ← ask o chat with
  | .error e => throw (.providerFailed e)
  | .ok first => answered o lib wire plan clock chat record notes first

end Generate

end Postit.Drafter
