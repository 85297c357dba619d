import Mathlib.Data.List.Basic

/-!
# Network addresses

IPv4 and IPv6 addresses as numbers, the networks they lie in, and how an address is read from text:
dotted decimal octets without leading zeros, or hexadecimal groups of which one run may be left out
and the last two may be written as an IPv4 address.
-/

namespace Postit.Framework

/-- An IP address. -/
inductive IpAddr
  | v4 (bits : BitVec 32)
  | v6 (bits : BitVec 128)
  deriving DecidableEq, Repr

/-- A network: an address and how many of its leading bits its members share. -/
inductive IpNet
  | v4 (bits : BitVec 32) (prefixLen : Fin 33)
  | v6 (bits : BitVec 128) (prefixLen : Fin 129)
  deriving DecidableEq, Repr

/-- Whether the address lies in the network.  An IPv4 network holds no IPv6 address. -/
def IpNet.contains : IpNet → IpAddr → Bool
  | .v4 net len, .v4 ip => net >>> (32 - len.val) = ip >>> (32 - len.val)
  | .v6 net len, .v6 ip => net >>> (128 - len.val) = ip >>> (128 - len.val)
  | _, _ => false

namespace IpAddr

/-! ## Reading an address

A reader takes what it reads off the front of the text, or fails and takes nothing. -/

/-- `char::to_digit`. -/
def toDigit? (radix : ℕ) (c : Char) : Option ℕ :=
  let n :=
    if '0' ≤ c ∧ c ≤ '9' then some (c.toNat - '0'.toNat)
    else if 'a' ≤ c ∧ c ≤ 'z' then some (c.toNat - 'a'.toNat + 10)
    else if 'A' ≤ c ∧ c ≤ 'Z' then some (c.toNat - 'A'.toNat + 10)
    else none
  n.filter (· < radix)

/-- Reads a number below `bound` of at most `maxDigits` digits. -/
def readNumber (radix maxDigits : ℕ) (allowZeroPrefix : Bool) (bound : ℕ) (s : List Char) :
    Option (ℕ × List Char) :=
  let digits := s.takeWhile fun c => (toDigit? radix c).isSome
  let n := digits.foldl (fun n c => n * radix + (toDigit? radix c).getD 0) 0
  if digits.length = 0 ∨ maxDigits < digits.length then none
  else if !allowZeroPrefix ∧ digits.head? = some '0' ∧ 1 < digits.length then none
  else if bound ≤ n then none
  else some (n, s.drop digits.length)

/-- Reads the character. -/
def readGivenChar (c : Char) : List Char → Option (List Char)
  | [] => none
  | c' :: s => if c' = c then some s else none

/-- Reads the separator, but not in front of the first part, and then the part. -/
def readSeparator {α : Type} (sep : Char) (index : ℕ) (inner : List Char → Option (α × List Char))
    (s : List Char) : Option (α × List Char) :=
  if index = 0 then inner s else (readGivenChar sep s).bind inner

/-- Reads the octets `index, …, 3` behind those already read. -/
def readOctets : ℕ → BitVec 32 → List Char → Option (BitVec 32 × List Char)
  | 0, bits, s => some (bits, s)
  | n + 1, bits, s =>
    (readSeparator '.' (3 - n) (readNumber 10 3 false 256) s).bind fun (octet, s) =>
      readOctets n (bits <<< 8 ||| BitVec.ofNat 32 octet) s

/-- `read_ipv4_addr` -/
def readIpv4Addr (s : List Char) : Option (BitVec 32 × List Char) := readOctets 4 0 s

/-- `read_groups`: up to `n` groups, the first of which has the given index; the groups, whether the
last two were written as an IPv4 address, and what is left of the text. -/
def readGroups : ℕ → ℕ → List Char → List (BitVec 16) × Bool × List Char
  | 0, _, s => ([], false, s)
  | n + 1, index, s =>
    let ipv4 := if 0 < n then readSeparator ':' index readIpv4Addr s else none
    match ipv4 with
    | some (bits, s) => ([bits.extractLsb' 16 16, bits.extractLsb' 0 16], true, s)
    | none =>
      match readSeparator ':' index (readNumber 16 4 true 65536) s with
      | none => ([], false, s)
      | some (group, s) =>
        let (groups, ipv4, s) := readGroups n (index + 1) s
        (BitVec.ofNat 16 group :: groups, ipv4, s)

/-- The address with the given groups. -/
def ofGroups (groups : List (BitVec 16)) : BitVec 128 :=
  groups.foldl (fun bits group => bits <<< 16 ||| group.setWidth 128) 0

/-- `read_ipv6_addr` -/
def readIpv6Addr (s : List Char) : Option (BitVec 128 × List Char) :=
  let (head, headIpv4, s) := readGroups 8 0 s
  if head.length = 8 then some (ofGroups head, s)
  -- an IPv4 address is not allowed before `::`
  else if headIpv4 then none
  else
    (readGivenChar ':' s).bind fun s => (readGivenChar ':' s).bind fun s =>
      let (tail, _, s) := readGroups (7 - head.length) 0 s
      let zeros := List.replicate (8 - head.length - tail.length) 0
      some (ofGroups (head ++ zeros ++ tail), s)

/-- `str::parse::<IpAddr>`: the whole text is one address. -/
def parse? (s : List Char) : Option IpAddr :=
  let ip :=
    match readIpv4Addr s with
    | some (bits, s) => some (v4 bits, s)
    | none => (readIpv6Addr s).map fun (bits, s) => (v6 bits, s)
  (ip.filter fun (_, s) => s.isEmpty).map Prod.fst

example : parse? "10.0.0.5".toList = some (v4 0x0A000005#32) := by decide
example : parse? "::ffff:1.2.3.4".toList = some (v6 0xFFFF01020304#128) := by decide
example : parse? "10.0.0.05".toList = none := by decide

end IpAddr

end Postit.Framework
