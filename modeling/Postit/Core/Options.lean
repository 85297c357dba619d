import Postit.Core.Schema
import Postit.Core.Violations

/-!
# Option values against a schema

Checking the values of a post's options, and the values of them an agent sees.  A value of a field
that does not apply, by its condition on another field, is not checked and not shown.  Whether a
text is an RFC 3339 date-time is chrono's to say, and `isRfc3339` is given.
-/

namespace Postit

/-! ## Equal values -/

/-- `==` of two numbers; the two zeros among the floats are equal. -/
def JsonNumber.same : JsonNumber → JsonNumber → Bool
  | .float a, .float b => a = b || (a % 2 ^ 63 = 0 && b % 2 ^ 63 = 0)
  | m, n => m = n

mutual

/-- `==` of two values. -/
def Json.same : Json → Json → Bool
  | .null, .null => true
  | .bool a, .bool b => a = b
  | .number m, .number n => m.same n
  | .string s, .string t => s = t
  | .array items, .array items' => Json.sameItems items items'
  | .object ms, .object ms' => Json.sameMembers ms ms'
  | _, _ => false

def Json.sameItems : List Json → List Json → Bool
  | [], [] => true
  | v :: vs, w :: ws => v.same w && Json.sameItems vs ws
  | _, _ => false

def Json.sameMembers : Members → Members → Bool
  | [], [] => true
  | (k, v) :: ms, (l, w) :: ns => k = l && v.same w && Json.sameMembers ms ns
  | _, _ => false

end

/-! ## Checking a value -/

section Check

variable (graphemeLen : String → ℕ) (isRfc3339 : String → Bool) (f : SchemaField)

/-- A violation of the field. -/
def violation (code : ViolationCode) : Violation :=
  (({ code } : Violation).at_ ("options." ++ f.name)).param "name" (.string f.name)

def wrongType (expected : String) : Violation :=
  (violation f .optionType).param "expected" (.string expected)

def checkText (value : Json) (min max : Option ℕ) : List Violation :=
  match value with
  | .string text =>
    let len := graphemeLen text
    (match min with
      | some min =>
        if len < min then [(violation f .optionTooShort).param "min" (jsonNat min)] else []
      | none => []) ++
    (match max with
      | some max =>
        if max < len then [(violation f .optionTooLong).param "max" (jsonNat max)] else []
      | none => [])
  | _ => [wrongType f "string"]

/-- A parameter that is only there when it is given. -/
def Violation.paramOpt (v : Violation) (key : String) (value : Option ℤ) : Violation :=
  match value with
  | some n => v.param key (jsonInt n)
  | none => v

/-- What is wrong with a value of the field. -/
def checkValue (value : Json) : List Violation :=
  match f.kind with
  | .string minLength maxLength _ => checkText graphemeLen f value minLength maxLength
  | .multilineText maxLength _ => checkText graphemeLen f value none maxLength
  | .enum values _ =>
    match value with
    | .string s =>
      if s ∈ values.map (·.value) then []
      else [(violation f .optionNotAllowed).param "allowed"
        (.array (values.map fun v => .string v.value))]
    | _ => [wrongType f "string"]
  | .boolean _ =>
    match value with
    | .bool b =>
      if f.consentText.isSome ∧ b = false then [violation f .optionConsentRequired] else []
    | _ => [wrongType f "boolean"]
  | .integer minimum maximum _ =>
    match value.asI64 with
    | none => [wrongType f "integer"]
    | some n =>
      if atLeast minimum n ∧ atMost maximum n then []
      else [((violation f .optionOutOfRange).paramOpt "min" minimum).paramOpt "max" maximum]
  | .dateTime =>
    match value with
    | .string s => if isRfc3339 s then [] else [wrongType f "date-time"]
    | _ => [wrongType f "date-time"]

/-- Whether the value passes the field's checks. -/
def SchemaField.accepts (value : Json) : Bool :=
  (checkValue graphemeLen isRfc3339 f value).isEmpty

end Check

/-! ## Checking the values -/

/-- The default as a JSON value, when the kind has one. -/
def SchemaField.defaultValue (f : SchemaField) : Option Json := f.kind.defaultValue

namespace OptionsSchema

variable (s : OptionsSchema)

def field (name : String) : Option SchemaField := s.fields.find? fun f => f.name = name

/-- Whether the field is shown, given its condition.  A condition on a field the caller left out
falls back to that field's default. -/
def applies (f : SchemaField) (values : Members) : Bool :=
  match f.dependsOn with
  | none => true
  | some dep =>
    match (values.get? dep.field).or ((s.field dep.field).bind SchemaField.defaultValue) with
    | some current => current.same dep.equals
    | none => false

/-- The values an agent should see: those of fields that apply. -/
def applicable (values : Members) : Members :=
  Members.extend [] ((s.fields.filter fun f => s.applies f values).filterMap fun f =>
    (values.get? f.name).map fun value => (f.name, value))

variable (graphemeLen : String → ℕ) (isRfc3339 : String → Bool)

/-- The violations of one field. -/
def validateField (values : Members) (f : SchemaField) : List Violation :=
  if s.applies f values then
    match values.get? f.name with
    | none => if f.required || f.noDefault then [violation f .optionRequired] else []
    | some value => checkValue graphemeLen isRfc3339 f value
  else []

/-- The violation of a key that is no field's. -/
def unknownKey (key : String) : List Violation :=
  if (s.field key).isNone then
    [(({ code := .optionUnknown } : Violation).at_ ("options." ++ key)).param "name" (.string key)]
  else []

/-- Every violation of the values, in field order with unknown keys last. -/
def validate (values : Members) : List Violation :=
  s.fields.flatMap (s.validateField graphemeLen isRfc3339 values) ++
    (values.map Prod.fst).flatMap s.unknownKey

end OptionsSchema

end Postit
