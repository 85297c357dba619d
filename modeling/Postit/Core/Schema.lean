import Postit.Core.Documents
import Postit.Framework.Results

/-!
# The options schema

The subset of JSON Schema in which agents describe their options and credentials: what a parsed
schema is, how a document is parsed into one, every refusal with its path and reason, and how it
is written again.  Lengths count graphemes, which is a library's doing: `graphemeLen` is given.

A refusal of the text itself carries the library's reason; the position it adds to a duplicate
key's is left out.
-/

namespace Postit

open Postit.Framework

/-- A message key and its English text. -/
structure Message where
  key : String
  en : String
  deriving DecidableEq, Repr

/-- Why a schema is outside the supported subset. -/
inductive SchemaError
  | unsupportedKeyword (path keyword : String)
  | unsupportedType (path ty : String)
  | invalid (path reason : String)
  deriving DecidableEq, Repr

/-- One allowed value of an enum field. -/
structure EnumValue where
  value : String
  label : Message
  deriving DecidableEq, Repr

/-- Makes a field apply only while another, earlier field equals `equals`. -/
structure DependsOn where
  field : String
  equals : Json

/-- The type of a field and its constraints. -/
inductive FieldKind
  | string (minLength maxLength : Option ℕ) (default_ : Option String)
  | multilineText (maxLength : Option ℕ) (default_ : Option String)
  | enum (values : List EnumValue) (default_ : Option String)
  | boolean (default_ : Option Bool)
  | integer (minimum maximum default_ : Option ℤ)
  | dateTime
  deriving DecidableEq, Repr

/-- One property of a schema. -/
structure SchemaField where
  name : String
  label : Message
  help : Option Message
  required : Bool
  kind : FieldKind
  noDefault : Bool
  secret : Bool
  consentText : Option Message
  dependsOn : Option DependsOn

/-- A parsed schema, its fields in the order of their declaration. -/
structure OptionsSchema where
  fields : List SchemaField

/-! ## Writing -/

/-- An optional member. -/
def insertOpt (o : Members) (key : String) (value : Option Json) : Members :=
  match value with
  | none => o
  | some v => o.insert key v

/-- A length or bound as a value. -/
def jsonNat (n : ℕ) : Json := .number (.posInt n)

def jsonInt (n : ℤ) : Json := .number (.ofI64 n)

def Message.toJson (m : Message) : Json :=
  .object (Members.insert (Members.insert [] "key" (.string m.key)) "en" (.string m.en))

def DependsOn.toJson (d : DependsOn) : Json :=
  .object (Members.insert (Members.insert [] "field" (.string d.field)) "equals" d.equals)

/-- The default as a JSON value, when the kind has one. -/
def FieldKind.defaultValue : FieldKind → Option Json
  | .string _ _ default_ | .multilineText _ default_ | .enum _ default_ => default_.map .string
  | .boolean default_ => default_.map .bool
  | .integer _ _ default_ => default_.map jsonInt
  | .dateTime => none

/-- The keywords of the kind. -/
def FieldKind.insertInto (o : Members) : FieldKind → Members
  | .string minLength maxLength _ =>
    insertOpt
      (insertOpt (o.insert "type" (.string "string")) "minLength" (minLength.map jsonNat))
      "maxLength" (maxLength.map jsonNat)
  | .multilineText maxLength _ =>
    insertOpt
      ((o.insert "type" (.string "string")).insert "x-postit-multiline" (.bool true))
      "maxLength" (maxLength.map jsonNat)
  | .enum values _ =>
    ((o.insert "type" (.string "string")).insert "enum"
      (.array (values.map fun v => .string v.value))).insert "x-postit-enum-labels"
        (.array (values.map fun v => v.label.toJson))
  | .boolean _ => o.insert "type" (.string "boolean")
  | .integer minimum maximum _ =>
    insertOpt
      (insertOpt (o.insert "type" (.string "integer")) "minimum" (minimum.map jsonInt))
      "maximum" (maximum.map jsonInt)
  | .dateTime => (o.insert "type" (.string "string")).insert "format" (.string "date-time")

/-- The keywords that any kind of field may have. -/
def SchemaField.hints (f : SchemaField) : Members :=
  let o := Members.insert [] "x-postit-label" f.label.toJson
  let o := insertOpt o "x-postit-help" (f.help.map Message.toJson)
  let o := if f.noDefault then o.insert "x-postit-no-default" (.bool true) else o
  let o := if f.secret then o.insert "x-postit-secret" (.bool true) else o
  let o := insertOpt o "x-postit-consent-text" (f.consentText.map Message.toJson)
  insertOpt o "x-postit-depends-on" (f.dependsOn.map DependsOn.toJson)

/-- The members of a field's schema. -/
def SchemaField.members (f : SchemaField) : Members :=
  insertOpt (f.kind.insertInto f.hints) "default" f.kind.defaultValue

def SchemaField.toJson (f : SchemaField) : Json := .object f.members

/-- The schema as a document, with `properties` in the order of their declaration. -/
def OptionsSchema.serialize (s : OptionsSchema) : Json :=
  let required := (s.fields.filter (·.required)).map (·.name)
  .object
    ([("type", .string "object"),
        ("properties", .object (s.fields.map fun f => (f.name, f.toJson)))] ++
      (if required = [] then [] else [("required", .array (required.map .string))]) ++
      [("additionalProperties", .bool false)])

/-- The schema as a text. -/
def OptionsSchema.toJsonStr (codec : TextCodec) (s : OptionsSchema) : String :=
  codec.write s.serialize

/-! ## Reading members -/

/-- An error in the schema at a path. -/
def invalid {α : Type} (path reason : String) : Except SchemaError α :=
  .error (.invalid path reason)

/-- A message: an object with `key` and `en`, or the two in an array. -/
def Message.ofJson : Json → Option Message
  | .object members =>
    match Members.get? members "key", Members.get? members "en" with
    | some (.string key), some (.string en) => some { key, en }
    | _, _ => none
  | .array [.string key, .string en] => some { key, en }
  | _ => none

def message (v : Json) (key path : String) : Except SchemaError Message :=
  match Message.ofJson v with
  | some m => .ok m
  | none => invalid path ("`" ++ key ++ "` must be an object with `key` and `en`")

/-- The value under a key as something else, and the members without it. -/
def takeWith {α : Type} (obj : Members) (key : String)
    (read : Option Json → Except SchemaError α) : Except SchemaError (α × Members) :=
  match read (obj.get? key) with
  | .error err => .error err
  | .ok a => .ok (a, obj.remove key)

def takeBool (obj : Members) (key path : String) : Except SchemaError (Bool × Members) :=
  takeWith obj key fun
    | none => .ok false
    | some (.bool b) => .ok b
    | some _ => invalid path ("`" ++ key ++ "` must be a boolean")

/-- A number as an unsigned integer of 32 bits. -/
def Json.asU32 : Json → Option ℕ
  | .number (.posInt n) => if n < 2 ^ 32 then some n else none
  | _ => none

/-- A number as a signed integer of 64 bits. -/
def Json.asI64 : Json → Option ℤ
  | .number n => n.asI64
  | _ => none

def takeU32 (obj : Members) (key path : String) : Except SchemaError (Option ℕ × Members) :=
  takeWith obj key fun
    | none => .ok none
    | some v =>
      match v.asU32 with
      | some n => .ok (some n)
      | none => invalid path ("`" ++ key ++ "` must be a non-negative integer")

def takeI64 (obj : Members) (key path : String) : Except SchemaError (Option ℤ × Members) :=
  takeWith obj key fun
    | none => .ok none
    | some v =>
      match v.asI64 with
      | some n => .ok (some n)
      | none => invalid path ("`" ++ key ++ "` must be an integer")

def takeMessage (obj : Members) (key path : String) :
    Except SchemaError (Option Message × Members) :=
  takeWith obj key fun
    | none => .ok none
    | some v => (message v key path).map some

/-- Goes on when the condition holds. -/
def ensure (condition : Prop) [Decidable condition] (err : SchemaError) : Except SchemaError Unit :=
  if condition then .ok () else .error err

/-- The strings of an array. -/
def strings (err : SchemaError) : List Json → Except SchemaError (List String)
  | [] => .ok []
  | .string s :: items =>
    match strings err items with
    | .error err => .error err
    | .ok rest => .ok (s :: rest)
  | _ :: _ => .error err

/-- Refuses a keyword that is left over. -/
def refuseRest (rest : Members) (err : String → SchemaError) : Except SchemaError Unit :=
  match rest with
  | [] => .ok ()
  | (keyword, _) :: _ => .error (err keyword)

/-! ## Parsing a field -/

section Parsing

variable (codec : TextCodec) (graphemeLen : String → ℕ)

/-- Property keywords the subset knows. -/
def propertyKeywords : List String :=
  ["type", "format", "enum", "default", "minLength", "maxLength", "minimum", "maximum",
    "x-postit-label", "x-postit-help", "x-postit-enum-labels", "x-postit-multiline",
    "x-postit-no-default", "x-postit-secret", "x-postit-consent-text", "x-postit-depends-on"]

def typeText : Json → String
  | .string s => s
  | other => codec.write other

/-- Whether a bound holds, when it is given. -/
def atLeast {α : Type} [LE α] (bound : Option α) (a : α) : Prop := ∀ b, bound = some b → b ≤ a

def atMost {α : Type} [LE α] (bound : Option α) (a : α) : Prop := ∀ b, bound = some b → a ≤ b

instance {α : Type} [LE α] [DecidableLE α] (bound : Option α) (a : α) :
    Decidable (atLeast bound a) :=
  match bound with
  | none => .isTrue fun _ h => nomatch h
  | some b => decidable_of_iff (b ≤ a) ⟨fun h _ hb => Option.some.inj hb ▸ h, fun h => h b rfl⟩

instance {α : Type} [LE α] [DecidableLE α] (bound : Option α) (a : α) :
    Decidable (atMost bound a) :=
  match bound with
  | none => .isTrue fun _ h => nomatch h
  | some b => decidable_of_iff (a ≤ b) ⟨fun h _ hb => Option.some.inj hb ▸ h, fun h => h b rfl⟩

/-- Whether a lower bound is not above an upper one. -/
def ordered {α : Type} [LE α] (lower upper : Option α) : Prop :=
  ∀ l u, lower = some l → upper = some u → l ≤ u

instance {α : Type} [LE α] [DecidableLE α] (lower upper : Option α) :
    Decidable (ordered lower upper) :=
  match lower, upper with
  | none, _ => .isTrue fun _ _ h => nomatch h
  | some _, none => .isTrue fun _ _ _ h => nomatch h
  | some l, some u =>
    decidable_of_iff (l ≤ u)
      ⟨fun h _ _ hl hu => Option.some.inj hl ▸ Option.some.inj hu ▸ h, fun h => h l u rfl rfl⟩

/-- Whether a default's length is within the bounds. -/
def fits (minLength maxLength : Option ℕ) (default_ : Option String) : Prop :=
  ∀ d ∈ default_, atLeast minLength (graphemeLen d) ∧ atMost maxLength (graphemeLen d)

instance (minLength maxLength : Option ℕ) (default_ : Option String) :
    Decidable (fits graphemeLen minLength maxLength default_) :=
  inferInstanceAs (Decidable (∀ d ∈ default_, _))

def stringDefault (path : String) : Option Json → Except SchemaError (Option String)
  | none => .ok none
  | some (.string s) => .ok (some s)
  | some _ => invalid path "`default` must be a string"

def boolDefault (path : String) : Option Json → Except SchemaError (Option Bool)
  | none => .ok none
  | some (.bool b) => .ok (some b)
  | some _ => invalid path "`default` must be a boolean"

def intDefault (path : String) : Option Json → Except SchemaError (Option ℤ)
  | none => .ok none
  | some v =>
    match v.asI64 with
    | some n => .ok (some n)
    | none => invalid path "`default` must be an integer"

def enumStrings (path : String) : Json → Except SchemaError (List String)
  | .array items => strings (.invalid path "`enum` entries must be strings") items
  | _ => invalid path "`enum` must be an array"

def enumLabels (path : String) : Option Json → Except SchemaError (List Json)
  | some (.array labels) => .ok labels
  | _ => invalid path "`enum` needs `x-postit-enum-labels` (an array)"

/-- The values with their labels. -/
def labelled (path : String) : List String → List Json → Except SchemaError (List EnumValue)
  | value :: values, label :: labels =>
    match message label "x-postit-enum-labels" path with
    | .error err => .error err
    | .ok label =>
      match labelled path values labels with
      | .error err => .error err
      | .ok rest => .ok ({ value, label } :: rest)
  | _, _ => .ok []

def enumKind (values : Json) (labels : Option Json) (default_ : Option String) (path : String) :
    Except SchemaError FieldKind := do
  let values ← enumStrings path values
  ensure (values ≠ []) (.invalid path "`enum` must not be empty")
  ensure values.Nodup (.invalid path "`enum` values must be unique")
  let labels ← enumLabels path labels
  ensure (labels.length = values.length)
    (.invalid path "`x-postit-enum-labels` must be as long as `enum`")
  ensure (∀ d ∈ default_, d ∈ values) (.invalid path "`default` is not one of `enum`")
  let values ← labelled path values labels
  .ok (.enum values default_)

/-- What a string property is, once its keywords are read. -/
def stringForm (path : String) (format enumValues labels : Option Json) (multiline : Bool)
    (minLength maxLength : Option ℕ) (default_ : Option String) : Except SchemaError FieldKind :=
  match format, enumValues with
  | some (.string "date-time"), _ => do
    ensure (enumValues.isNone ∧ labels.isNone ∧ multiline = false ∧ minLength = none ∧
        maxLength = none ∧ default_ = none)
      (.invalid path "a date-time takes no enum, multiline, length, or default")
    .ok .dateTime
  | some _, _ => invalid path "`format` must be `date-time`"
  | none, some values => do
    ensure (multiline = false ∧ minLength = none ∧ maxLength = none)
      (.invalid path "an enum takes no multiline or length keywords")
    enumKind values labels default_ path
  | none, none => do
    ensure (labels.isNone = true) (.invalid path "`x-postit-enum-labels` needs `enum`")
    if multiline then do
      ensure (minLength = none) (.invalid path "a multiline text takes no `minLength`")
      .ok (.multilineText maxLength default_)
    else .ok (.string minLength maxLength default_)

def stringKind (obj : Members) (path : String) (default_ : Option Json) :
    Except SchemaError (FieldKind × Members) := do
  let format := obj.get? "format"
  let obj := obj.remove "format"
  let enumValues := obj.get? "enum"
  let obj := obj.remove "enum"
  let labels := obj.get? "x-postit-enum-labels"
  let obj := obj.remove "x-postit-enum-labels"
  let (multiline, obj) ← takeBool obj "x-postit-multiline" path
  let (minLength, obj) ← takeU32 obj "minLength" path
  let (maxLength, obj) ← takeU32 obj "maxLength" path
  ensure (ordered minLength maxLength)
    (.invalid path "`minLength` is greater than `maxLength`")
  let default_ ← stringDefault path default_
  ensure (fits graphemeLen minLength maxLength default_)
    (.invalid path "`default` is outside `minLength`..`maxLength`")
  let kind ← stringForm path format enumValues labels multiline minLength maxLength default_
  .ok (kind, obj)

def integerKind (obj : Members) (path : String) (default_ : Option Json) :
    Except SchemaError (FieldKind × Members) := do
  let (minimum, obj) ← takeI64 obj "minimum" path
  let (maximum, obj) ← takeI64 obj "maximum" path
  ensure (ordered minimum maximum) (.invalid path "`minimum` is greater than `maximum`")
  let default_ ← intDefault path default_
  ensure (∀ d ∈ default_, atLeast minimum d ∧ atMost maximum d)
    (.invalid path "`default` is outside `minimum`..`maximum`")
  .ok (.integer minimum maximum default_, obj)

def dependsOnMembers (path : String) : Json → Except SchemaError Members
  | .object o => .ok o
  | _ => invalid path "`x-postit-depends-on` must be an object with `field` and `equals`"

def dependsOnField (path : String) : Option Json → Except SchemaError String
  | some (.string field) => .ok field
  | _ => invalid path "`x-postit-depends-on.field` must be a string"

def dependsOnEquals (path : String) : Option Json → Except SchemaError Json
  | some v => .ok v
  | none => invalid path "`x-postit-depends-on.equals` is missing"

def parseDependsOn (value : Json) (path : String) (earlier : List SchemaField) :
    Except SchemaError DependsOn := do
  let o ← dependsOnMembers path value
  let field ← dependsOnField path (o.get? "field")
  let o := o.remove "field"
  let equals ← dependsOnEquals path (o.get? "equals")
  let o := o.remove "equals"
  refuseRest o fun extra =>
    .invalid path ("`x-postit-depends-on." ++ extra ++ "` is not supported")
  ensure (field ∈ earlier.map (·.name))
    (.invalid path ("`x-postit-depends-on` names `" ++ field ++
      "`, which is not an earlier property"))
  .ok { field, equals }

/-- What the type of a property says, and the consent text only a boolean takes. -/
def fieldKind (ty : String) (obj : Members) (path : String) (default_ : Option Json) :
    Except SchemaError (FieldKind × Option Message × Members) :=
  match ty with
  | "string" => do
    let (kind, obj) ← stringKind graphemeLen obj path default_
    .ok (kind, none, obj)
  | "boolean" => do
    let (consentText, obj) ← takeMessage obj "x-postit-consent-text" path
    let default_ ← boolDefault path default_
    .ok (.boolean default_, consentText, obj)
  | _ => do
    let (kind, obj) ← integerKind obj path default_
    .ok (kind, none, obj)

def fieldMembers (path : String) : Json → Except SchemaError Members
  | .object obj => .ok obj
  | _ => invalid path "a property must be an object"

def fieldType (path : String) : Option Json → Except SchemaError String
  | some (.string ty) => .ok ty
  | some other => .error (.unsupportedType path (codec.write other))
  | none => invalid path "missing `type`"

def fieldLabel (path : String) : Option Message → Except SchemaError Message
  | some label => .ok label
  | none => invalid path "missing `x-postit-label`"

def takeDependsOn (obj : Members) (path : String) (earlier : List SchemaField) :
    Except SchemaError (Option DependsOn × Members) :=
  takeWith obj "x-postit-depends-on" fun
    | none => .ok none
    | some v => (parseDependsOn v path earlier).map some

def parseField (name : String) (value : Json) (required : Bool) (earlier : List SchemaField) :
    Except SchemaError SchemaField := do
  let path := "properties." ++ name
  let obj ← fieldMembers path value
  refuseRest (obj.filter fun m => m.1 ∉ propertyKeywords) fun keyword =>
    .unsupportedKeyword path keyword
  let ty ← fieldType codec path (obj.get? "type")
  let obj := obj.remove "type"
  ensure (ty ∈ ["string", "boolean", "integer"]) (.unsupportedType path ty)
  let (label, obj) ← takeMessage obj "x-postit-label" path
  let label ← fieldLabel path label
  let (help, obj) ← takeMessage obj "x-postit-help" path
  let (noDefault, obj) ← takeBool obj "x-postit-no-default" path
  let (secret, obj) ← takeBool obj "x-postit-secret" path
  let (dependsOn, obj) ← takeDependsOn obj path earlier
  let default_ := obj.get? "default"
  let obj := obj.remove "default"
  ensure (¬ (noDefault = true ∧ default_.isSome = true))
    (.invalid path "`x-postit-no-default` forbids `default`")
  let (kind, consentText, obj) ← fieldKind graphemeLen ty obj path default_
  refuseRest obj fun keyword =>
    .invalid path ("`" ++ keyword ++ "` does not apply to a " ++ ty ++ " property")
  .ok { name, label, help, required, kind, noDefault, secret, consentText, dependsOn }

/-! ## Parsing a schema -/

/-- Whether a key is given twice, and which one first. -/
def duplicateKey : Members → List String → Option String
  | [], _ => none
  | (key, _) :: ms, seen => if key ∈ seen then some key else duplicateKey ms (key :: seen)

/-- The members of an object as ordered pairs, so the order of their declaration survives. -/
def readOrdered : Json → Except SchemaError Members
  | .object ms =>
    match duplicateKey ms [] with
    | some key => invalid "$" ("duplicate property `" ++ key ++ "`")
    | none => .ok (ms.map fun m => (m.1, m.2.collect))
  | _ => invalid "$" "expected an object"

/-- The schema root: `properties` in order, every other key as a plain value. -/
structure Root where
  properties : Option Members
  rest : Members

def readRoot : Json → Except SchemaError Root
  | .object ms =>
    match duplicateKey ms [] with
    | some key => invalid "$" ("duplicate key `" ++ key ++ "`")
    | none =>
      match Members.get? ms "properties" with
      | none => .ok { properties := none, rest := Json.collectMembers ms [] }
      | some doc =>
        match readOrdered doc with
        | .error err => .error err
        | .ok properties =>
          .ok
            { properties := some properties
              rest := Json.collectMembers (Members.remove ms "properties") [] }
  | _ => invalid "$" "expected a JSON Schema object"

def rootType : Option Json → Except SchemaError Unit
  | some (.string "object") => .ok ()
  | some other => .error (.unsupportedType "$" (typeText codec other))
  | none => invalid "$" "missing `type`"

def rootProperties : Option Members → Except SchemaError Members
  | some properties => .ok properties
  | none => invalid "$" "missing `properties`"

def rootRequired : Option Json → Except SchemaError (List String)
  | none => .ok []
  | some (.array items) => strings (.invalid "$.required" "entries must be strings") items
  | some _ => invalid "$.required" "must be an array"

def rootAdditional : Option Json → Except SchemaError Unit
  | none | some (.bool false) => .ok ()
  | some _ => invalid "$.additionalProperties" "only `false` is supported"

/-- Refuses a required name that is no property's. -/
def refuseGhost (ghosts : List String) : Except SchemaError Unit :=
  match ghosts with
  | [] => .ok ()
  | ghost :: _ => invalid "$.required" ("`" ++ ghost ++ "` is not a property")

/-- The properties one after the other, each seeing the fields before it. -/
def parseFields (required : List String) :
    Members → List SchemaField → Except SchemaError (List SchemaField)
  | [], fields => .ok fields
  | (name, value) :: properties, fields =>
    match parseField codec graphemeLen name value (decide (name ∈ required)) fields with
    | .error err => .error err
    | .ok field => parseFields required properties (fields ++ [field])

def build (root : Root) : Except SchemaError OptionsSchema := do
  rootType codec (Members.get? root.rest "type")
  let rest := Members.remove root.rest "type"
  let properties ← rootProperties root.properties
  let required ← rootRequired (Members.get? rest "required")
  let rest := Members.remove rest "required"
  rootAdditional (Members.get? rest "additionalProperties")
  let rest := Members.remove rest "additionalProperties"
  refuseRest rest fun keyword => .unsupportedKeyword "$" keyword
  refuseGhost (required.filter fun name => name ∉ properties.map Prod.fst)
  let fields ← parseFields codec graphemeLen required properties []
  .ok { fields }

/-- A document as a schema. -/
def OptionsSchema.ofDocument (doc : Json) : Except SchemaError OptionsSchema :=
  match readRoot doc with
  | .error err => .error err
  | .ok root => build codec graphemeLen root

/-- Parses a schema, rejecting everything outside the supported subset. -/
def OptionsSchema.fromJsonStr (src : String) : Except SchemaError OptionsSchema :=
  match codec.read src with
  | .error reason => invalid "$" reason
  | .ok doc => OptionsSchema.ofDocument codec graphemeLen doc

end Parsing

end Postit
