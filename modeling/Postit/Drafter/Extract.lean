import Postit.Framework.JsonText

/-!
# The JSON in a model's answer

The whole text when it parses, else the inside of the first fenced code block, else the first JSON
object in the prose.  A fence on its own line may name a language on that line; an inline fence has
the language, if any, before the first brace.
-/

namespace Postit.Drafter

open Postit.Framework

/-- How many opening braces are tried in prose. -/
def proseStartsMax : ℕ := 16

/-- Three backticks. -/
def fence : Str := ['\x60', '\x60', '\x60']

/-- Whether the text opens an object or an array. -/
def opensJson (s : Str) : Bool :=
  match Str.trimStart s with
  | c :: _ => c = '{' || c = '['
  | [] => false

/-- The text from the first opening brace or bracket on. -/
def fromOpening (s : Str) : Option Str :=
  match s.dropWhile fun c => !(c = '{' || c = '[') with
  | [] => none
  | s => some s

/-- What a block with the given inside holds, without a language's name. -/
def blockBody (inside : Str) : Option Str :=
  match Str.splitOnce '\n' inside with
  | some (first, rest) => if opensJson first then some inside else some rest
  | none => if opensJson inside then some inside else fromOpening inside

/-- What the first fenced block holds. -/
def fenced (text : Str) : Option Str :=
  (Str.cut? fence text).bind fun (_, after) =>
    (Str.cut? fence after).bind fun (inside, _) => (blockBody inside).map Str.trim

/-- The texts from each of the first braces on. -/
def proseStarts (text : Str) : List Str :=
  (text.tails.filter fun rest => rest.head? = some '{').take proseStartsMax

/-- The first complete JSON object starting at one of the first braces. -/
def inProse (text : Str) : Option Str :=
  (proseStarts text).findSome? fun rest => (JsonText.scan JsonText.start rest).map Prod.fst

/-- The JSON in a model's answer. -/
def extractJson (text : Str) : Option Str :=
  let trimmed := Str.trim text
  if JsonText.isJson trimmed then some trimmed
  else (fenced trimmed).or (inProse trimmed)

end Postit.Drafter
