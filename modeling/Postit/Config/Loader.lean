import Postit.Framework.Nested
import Postit.Framework.Words

/-!
# Settings from the environment

The layers of the settings that come from variables: a dotenv file of secrets, the variables
`POSTIT__SECTION__KEY`, and the files that variables `POSTIT__SECTION__KEY_FILE` name.  Each gives a
nested dictionary, which the configuration library merges over the layers before it.
-/

namespace Postit.Config

open Postit.Framework

/-- A value of a setting: one text, or a list of texts. -/
inductive Value
  | text (text : Str)
  | list (items : List Str)
  deriving DecidableEq

/-- A variable's name and value. -/
abbrev Var := Str × Str

def envPrefix : Str := "POSTIT__".toList

def fileSuffix : Str := "_FILE".toList

/-! ## Values -/

/-- `str::strip_prefix` and `str::strip_suffix` with one character each. -/
def stripBoth (front back : Char) (s : Str) : Option Str :=
  match s with
  | [] => none
  | c :: rest => if c = front ∧ rest.getLast? = some back then some rest.dropLast else none

/-- Without one pair of matching quotes. -/
def unquote (s : Str) : Str := ((stripBoth '"' '"' s).or (stripBoth '\'' '\'' s)).getD s

/-- A bracketed value is a list of texts, anything else is one text. -/
def listOrString (raw : Str) : Value :=
  match stripBoth '[' ']' (Str.trim raw) with
  | some inner =>
    .list ((((inner.splitOn ',').map Str.trim).filter fun item => !item.isEmpty).map unquote)
  | none => .text raw

/-! ## Lines -/

/-- `str::lines`: an end of line may be preceded by a carriage return, and the last one ends no
other line. -/
def lines (s : Str) : List Str :=
  let pieces := s.splitOn '\n'
  (pieces.dropLast.map fun line => if line.getLast? = some '\r' then line.dropLast else line) ++
    pieces.getLast?.toList.filter fun line => !line.isEmpty

/-- `KEY=value` lines. -/
def parseDotenv (content : Str) : List Var :=
  ((((lines content).map Str.trim).filter fun line =>
      !line.isEmpty && line.head? ≠ some '#').filterMap fun line => Str.splitOnce '=' line).map
    fun var => (Str.trim var.1, unquote (Str.trim var.2))

/-! ## Paths -/

/-- `str::split` at two underscores. -/
def splitUnderscores : Str → List Str
  | '_' :: '_' :: rest => [] :: splitUnderscores rest
  | c :: rest =>
    match splitUnderscores rest with
    | [] => [[c]]
    | segment :: segments => (c :: segment) :: segments
  | [] => [[]]

section Layers

variable (u : Str.CaseTables)

/-- The path of settings that a name stands for. -/
def segments (rest : Str) : List Str := (splitUnderscores rest).map u.toLowercase

/-- One of the variables is read, unless it names a file. -/
def EnvVars.read (lists : Bool) (dict : Dict Str Value) (var : Var) : Dict Str Value :=
  match envPrefix.isPrefixOf? var.1 with
  | none => dict
  | some rest =>
    if fileSuffix.isSuffixOf rest then dict
    else dict.insert (segments u rest) (if lists then listOrString var.2 else .text var.2)

/-- The variables `POSTIT__SECTION__KEY`. -/
def EnvVars.data (vars : List Var) (lists : Bool) : Dict Str Value :=
  vars.foldl (EnvVars.read u lists) Dict.empty

/-- The file of secrets, once it was read. -/
def SecretsFile.data (content : Str) : Dict Str Value := EnvVars.data u (parseDotenv content) false

/-- One of the variables is read, if it names a file. -/
def FileSecrets.read (readToString : Str → Except Str Str) (dict : Dict Str Value) (var : Var) :
    Except Str (Dict Str Value) :=
  match envPrefix.isPrefixOf? var.1 with
  | none => .ok dict
  | some rest =>
    match fileSuffix.isSuffixOf? rest with
    | none => .ok dict
    | some rest => do
      let content ← (readToString var.2).mapError fun err =>
        "reading secret file ".toList ++ var.2 ++ " for ".toList ++ var.1 ++ ": ".toList ++ err
      .ok (dict.insert (segments u rest) (.text (Str.trim content)))

/-- The variables `POSTIT__SECTION__KEY_FILE`. -/
def FileSecrets.data (readToString : Str → Except Str Str) (vars : List Var) :
    Except Str (Dict Str Value) :=
  vars.foldlM (FileSecrets.read u readToString) Dict.empty

end Layers

end Postit.Config
