import Mathlib.Data.List.Sort
import Postit.Core.Text

/-!
# JSON values

A JSON value as `serde_json` holds it.  A number is an integer of 64 bits, with or without a
sign, or a float, which is kept by its bits.  An object keeps its members in the order of their keys, each key once, so that two
objects with the same members are equal; `Members.insert` and `Members.remove` keep it so.
-/

namespace Postit

/-- A JSON number. -/
inductive JsonNumber
  | posInt (n : ℕ)
  | negInt (n : ℤ)
  -- a double, by its bits
  | float (bits : ℕ)
  deriving DecidableEq, Repr

/-- A JSON value. -/
inductive Json
  | null
  | bool (b : Bool)
  | number (n : JsonNumber)
  | string (s : String)
  | array (items : List Json)
  | object (members : List (String × Json))
  deriving Repr

/-- The members of an object. -/
abbrev Members := List (String × Json)

namespace Members

/-- The value under the key. -/
def get? (ms : Members) (key : String) : Option Json := List.lookup key ms

/-- The members with the value under the key, which replaces what was there. -/
def insert : Members → String → Json → Members
  | [], key, v => [(key, v)]
  | (k, w) :: ms, key, v =>
    if key < k then (key, v) :: (k, w) :: ms
    else if key = k then (key, v) :: ms
    else (k, w) :: insert ms key v

/-- The members without the key. -/
def remove (ms : Members) (key : String) : Members := ms.filter fun m => m.1 ≠ key

/-- The members of both, the second's value winning. -/
def extend (ms ns : Members) : Members := ns.foldl (fun acc m => insert acc m.1 m.2) ms

end Members

/-- The value under the key, when this is an object. -/
def Json.get? : Json → String → Option Json
  | .object members, key => Members.get? members key
  | _, _ => none

/-- The number as a signed 64-bit integer, if it is one. -/
def JsonNumber.asI64 : JsonNumber → Option ℤ
  | .posInt n => if (n : ℤ) ≤ maxI64 then some n else none
  | .negInt n => some n
  | .float _ => none

end Postit
