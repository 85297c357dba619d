import Postit.Core.Options
import Postit.Framework.SortedMap

/-!
# Credential values

What a user enters to connect an account, checked against the agent's schema and split into plain
values, which are stored as they are, and secrets, which the vault seals.
-/

namespace Postit

open Framework

/-- One credential value: plain data, or a secret that never prints. -/
inductive CredentialValue
  | plain (value : Json)
  | secret (text : String)

/-- Validated credential values in schema order. -/
structure CredentialFields where
  entries : List (String × CredentialValue)

/-- A secret as a text. -/
def secretText (codec : TextCodec) : Json → String
  | .string s => s
  | other => codec.write other

/-- A given value of the field. -/
def SchemaField.credential (codec : TextCodec) (f : SchemaField) (value : Json) :
    CredentialValue :=
  if f.secret then .secret (secretText codec value) else .plain value

namespace CredentialFields

/-- Rebuilds fields from stored parts: plain entries first in map order, then secrets. -/
def fromParts (plain : Members) (secret : List (String × String)) : CredentialFields where
  entries := plain.map (fun m => (m.1, .plain m.2)) ++ secret.map fun m => (m.1, .secret m.2)

/-- One entry of the loop goes into its map. -/
def splitStep (acc : Members × List (String × String)) :
    String × CredentialValue → Members × List (String × String)
  | (name, .plain v) => (acc.1.insert name v, acc.2)
  | (name, .secret s) => (acc.1, SortedMap.insert acc.2 name s)

variable (c : CredentialFields)

/-- Splits the fields into plain values and exposed secrets. -/
def split : Members × List (String × String) := c.entries.foldl splitStep ([], [])

/-- The value under the name. -/
def get (name : String) : Option CredentialValue := c.entries.lookup name

/-- The plain value under the name, if present and not secret. -/
def getPlain (name : String) : Option Json :=
  match c.get name with
  | some (.plain v) => some v
  | _ => none

/-- The secret under the name, if present and secret. -/
def getSecret (name : String) : Option String :=
  match c.get name with
  | some (.secret s) => some s
  | _ => none

end CredentialFields

namespace OptionsSchema

variable (s : OptionsSchema) (codec : TextCodec)

/-- The credential of a field that applies and has a value. -/
def credentialEntry (values : Members) (f : SchemaField) : Option (String × CredentialValue) :=
  if s.applies f values then
    (values.get? f.name).map fun value => (f.name, f.credential codec value)
  else none

/-- Validates the values and makes them plain and secret credentials. -/
def parseCredentials (graphemeLen : String → ℕ) (isRfc3339 : String → Bool) (values : Members) :
    Except (List Violation) CredentialFields :=
  let violations := s.validate graphemeLen isRfc3339 values
  if violations.isEmpty then
    pure { entries := s.fields.filterMap (s.credentialEntry codec values) }
  else throw violations

end OptionsSchema

end Postit
