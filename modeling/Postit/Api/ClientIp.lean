import Postit.Core.Text
import Postit.Framework.Addresses
import Postit.Framework.Bytes

/-!
# The client's address

A middleware resolves the address that rate limits and the audit log know a request by: the peer of
the connection or, when that is a trusted proxy, the first untrusted hop of `X-Forwarded-For`, read
from the right.
-/

namespace Postit.Api

open Postit.Framework

/-! ## Headers -/

/-- A header's value: no control characters but the tab. -/
structure HeaderValue where
  bytes : Bytes
  legal : ∀ b ∈ bytes, b = 9 ∨ 32 ≤ b ∧ b ≠ 127 := by decide +kernel

/-- A byte that stands for itself in text. -/
def visible (b : UInt8) : Bool := b = 9 || (32 ≤ b && b < 127)

/-- The bytes as text, when all of them are visible ASCII. -/
def visibleText (bytes : Bytes) : Option (List Char) :=
  if bytes.all visible then some (bytes.map fun b => Char.ofNat b.toNat) else none

/-- `HeaderValue::to_str` -/
def HeaderValue.toStr (value : HeaderValue) : Option (List Char) := visibleText value.bytes

/-- A request's headers, one entry a line, under lower-case names. -/
abbrev HeaderMap := List (String × HeaderValue)

/-- The values of all lines with the name. -/
def HeaderMap.getAll (headers : HeaderMap) (name : String) : List HeaderValue :=
  (headers.filter fun line => line.1 = name).map Prod.snd

/-- The value of the first line with the name. -/
def HeaderMap.get (headers : HeaderMap) (name : String) : Option HeaderValue :=
  (headers.getAll name).head?

/-! ## The middleware -/

/-- Whether the address lies in a trusted network. -/
def isTrusted (trusted : List IpNet) (ip : IpAddr) : Bool := trusted.any fun net => net.contains ip

/-- The text without the white space at both ends. -/
def trimmed (s : List Char) : List Char := (trim (String.ofList s)).toList

/-- A round of the loop of `resolve`: at a trusted hop it goes on to the hops left of it. -/
def resolveHop (peer : IpAddr) (trusted : List IpNet) (hop : Option IpAddr) (goOn : IpAddr) :
    IpAddr :=
  match hop with
  | some ip => if isTrusted trusted ip then goOn else ip
  | none => peer

/-- The loop of `resolve`, over the hops from the right. -/
def resolveHops (peer : IpAddr) (trusted : List IpNet) : List (List Char) → IpAddr
  | [] => peer
  | hop :: hops =>
    resolveHop peer trusted (IpAddr.parse? (trimmed hop)) (resolveHops peer trusted hops)

/-- The client address for a connection from `peer` with the given `X-Forwarded-For` value. -/
def resolve (peer : IpAddr) (xff : Option (List Char)) (trusted : List IpNet) : IpAddr :=
  if !isTrusted trusted peer then peer
  else
    match xff with
    | none => peer
    | some xff => resolveHops peer trusted (xff.splitOn ',').reverse

/-- The address the middleware puts into the request's extensions. -/
def clientIp (trusted : List IpNet) (peer : IpAddr) (headers : HeaderMap) : IpAddr :=
  let xff := (headers.get "x-forwarded-for").bind HeaderValue.toStr
  resolve peer xff trusted

end Postit.Api
