import Postit.Framework.Strs
import Postit.Framework.Table

/-!
# Merge tags

`{{first_name}}`, and `{{first_name|there}}` for a fallback.  A text is parsed once and rendered for
each recipient, escaped for where it goes.

Slices are by byte offset and may fail; `none` stands for the panic.
-/

namespace Postit.Email

open Postit.Framework

/-- How text is made safe for where it goes. -/
inductive Escape
  | html
  | header
  | none
  deriving DecidableEq, Repr

/-- A merge tag that does not parse, by the byte offset of its `{{`. -/
inductive MergeError
  | unclosed (pos : ℕ)
  | badName (pos : ℕ)
  deriving DecidableEq, Repr

/-- The byte offset of the `{{`. -/
def MergeError.pos : MergeError → ℕ
  | .unclosed pos => pos
  | .badName pos => pos

/-- A piece of a parsed text. -/
inductive Part
  | literal (text : Str)
  | field (name : Str) (fallback : Option Str)
  deriving DecidableEq, Repr

/-- What opens a tag. -/
def openTag : Str := ['{', '{']

/-- What closes a tag. -/
def closeTag : Str := ['}', '}']

/-- The parts pushed for the text in front of a tag. -/
def literals (text : Str) : List Part := if text = [] then [] else [.literal text]

/-- Whether the text has a brace. -/
def braces (s : Str) : Bool := s.any fun c => c = '{' || c = '}'

/-- The name in a tag, and its fallback. -/
def nameAndFallback (inner : Str) : Str × Option Str :=
  match Str.splitOnce '|' inner with
  | some (name, fallback) => (Str.trim name, some (Str.trim fallback))
  | none => (Str.trim inner, none)

/-- The field of a tag with the given inside, or the error of a tag opened at `pos`. -/
def fieldOf (pos : ℕ) (inner : Str) : Except MergeError Part :=
  let (name, fallback) := nameAndFallback inner
  if name.isEmpty || braces name || fallback.any braces then .error (.badName pos)
  else .ok (.field name (fallback.filter fun f => !f.isEmpty))

/-- The loop of `MergeTemplate::parse`, at `offset` in the source. -/
def parseFrom (rest : Str) (offset : ℕ) (parts : List Part) :
    Option (Except MergeError (List Part)) :=
  match Str.find? openTag rest with
  | none => some (.ok (parts ++ literals rest))
  | some start =>
    let innerStart := start + 2
    match Str.sliceTo? rest start, Str.sliceFrom? rest innerStart with
    | some before, some inside =>
      match Str.find? closeTag inside with
      | none => some (.error (.unclosed (offset + start)))
      | some len =>
        match Str.slice? rest innerStart (innerStart + len) with
        | none => none
        | some inner =>
          match fieldOf (offset + start) inner with
          | .error e => some (.error e)
          | .ok field =>
            let consumed := innerStart + len + 2
            match _hrest : Str.sliceFrom? rest consumed with
            | none => none
            | some rest =>
              parseFrom rest (offset + consumed) (parts ++ literals before ++ [field])
    | _, _ => none
termination_by rest.length
decreasing_by exact Str.length_lt_of_sliceFrom? _hrest (by omega)

/-- `MergeTemplate::parse` -/
def parse (source : Str) : Option (Except MergeError (List Part)) := parseFrom source 0 []

/-- The value a field renders: the recipient's, else the fallback, else nothing. -/
def value (fields : Table Str Str) (name : Str) (fallback : Option Str) : Str :=
  match fields.lookup name with
  | some v => if v.isEmpty then fallback.getD [] else v
  | none => fallback.getD []

/-- What is written for a character in HTML. -/
def htmlChar : Char → Str
  | '&' => "&amp;".toList
  | '<' => "&lt;".toList
  | '>' => "&gt;".toList
  | '\x22' => "&quot;".toList
  | '\x27' => "&#39;".toList
  | c => [c]

/-- Appends `text` to `out`, made safe by `escape`. -/
def escapeInto (out text : Str) : Escape → Str
  | .none => out ++ text
  | .header => out ++ text.filter fun c => !(c = '\r' || c = '\n')
  | .html => out ++ text.flatMap htmlChar

/-- The text for one recipient. -/
def render (parts : List Part) (fields : Table Str Str) (escape : Escape) : Str :=
  parts.foldl (fun out part =>
    match part with
    | .literal text => escapeInto out text escape
    | .field name fallback => escapeInto out (value fields name fallback) escape) []

end Postit.Email
