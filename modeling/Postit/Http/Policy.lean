import Postit.Framework.Addresses

/-!
# The outbound address policy

Which addresses an outbound request to a user-supplied host may reach, and the resolution of a host
to those.  The resolver of names is outside.
-/

namespace Postit.Http

open Postit.Framework

/-- Which destination addresses an outbound request to a user-supplied host may reach. -/
structure AddressPolicy where
  allowPrivate : Bool
  deriving DecidableEq, Repr

/-- Public internet addresses only. -/
def AddressPolicy.strict : AddressPolicy := { allowPrivate := false }

/-- An IPv4 address by its octets. -/
def ipv4 (a b c d : BitVec 8) : BitVec 32 := a ++ b ++ c ++ d

/-- IPv4 ranges refused even with `allowPrivate`. -/
def v4AlwaysForbidden : List IpNet :=
  [.v4 (ipv4 0 0 0 0) 8, .v4 (ipv4 192 0 0 0) 24, .v4 (ipv4 198 18 0 0) 15,
    .v4 (ipv4 224 0 0 0) 4, .v4 (ipv4 240 0 0 0) 4]

/-- IPv4 ranges lifted by `allowPrivate`. -/
def v4Private : List IpNet :=
  [.v4 (ipv4 10 0 0 0) 8, .v4 (ipv4 100 64 0 0) 10, .v4 (ipv4 127 0 0 0) 8,
    .v4 (ipv4 169 254 0 0) 16, .v4 (ipv4 172 16 0 0) 12, .v4 (ipv4 192 168 0 0) 16]

/-- `::` -/
def unspecified : BitVec 128 := 0

/-- `::1` -/
def localhost : BitVec 128 := 1

/-- IPv6 ranges refused even with `allowPrivate`: unspecified and multicast. -/
def v6AlwaysForbidden : List IpNet :=
  [.v6 unspecified 128, .v6 (0xff00#16 ++ 0#112) 8]

/-- IPv6 ranges lifted by `allowPrivate`: loopback, unique local, link local. -/
def v6Private : List IpNet :=
  [.v6 localhost 128, .v6 (0xfc00#16 ++ 0#112) 7, .v6 (0xfe80#16 ++ 0#112) 10]

/-- The leading bits of the NAT64 well-known prefix. -/
def nat64Bits : BitVec 96 := 0x0064#16 ++ 0xff9b#16 ++ 0#64

/-- NAT64 well-known prefix. -/
def nat64 : IpNet := .v6 (nat64Bits ++ 0#32) 96

/-- `Ipv6Addr::to_ipv4`: the address embedded in an IPv4-compatible or IPv4-mapped one. -/
def toIpv4 (v6 : BitVec 128) : Option (BitVec 32) :=
  let high := v6.extractLsb' 32 96
  if high = 0 ∨ high = 0xffff then some (v6.extractLsb' 0 32) else none

/-- The address actually checked: the IPv4 address embedded in an IPv4-mapped, IPv4-compatible or
NAT64 one, but for `::` and `::1`. -/
def effective : IpAddr → IpAddr
  | .v4 ip => .v4 ip
  | .v6 ip =>
    if ip = unspecified ∨ ip = localhost then .v6 ip
    else
      match toIpv4 ip with
      | some v4 => .v4 v4
      | none => if nat64.contains (.v6 ip) then .v4 (ip.extractLsb' 0 32) else .v6 ip

/-- Whether `ip` may be dialed under `policy`. -/
def isAllowed (ip : IpAddr) (policy : AddressPolicy) : Bool :=
  match effective ip with
  | .v4 v4 =>
    !(v4AlwaysForbidden.any (fun net => net.contains (.v4 v4)) ||
      (!policy.allowPrivate && v4Private.any fun net => net.contains (.v4 v4)))
  | .v6 v6 =>
    !(v6AlwaysForbidden.any (fun net => net.contains (.v6 v6)) ||
      (!policy.allowPrivate && v6Private.any fun net => net.contains (.v6 v6)))

/-- An address and a port, and what an IPv6 one carries besides. -/
structure SocketAddr where
  ip : IpAddr
  port : UInt16
  flowinfo : UInt32 := 0
  scopeId : UInt32 := 0
  deriving DecidableEq

/-- Why resolve-and-filter failed. -/
inductive FilterError (ε : Type)
  | lookup (error : ε)
  | rejected
  deriving DecidableEq, Repr

/-- The host without the brackets around an IPv6 literal. -/
def literal (host : List Char) : List Char :=
  match host with
  | '[' :: rest => if rest.getLast? = some ']' then rest.dropLast else host
  | _ => host

section Resolving

variable {ε : Type} (lookup : List Char → UInt16 → Except ε (List SocketAddr))

/-- The addresses of a host: its own when it is a literal, else what the lookup answers. -/
def candidates (host : List Char) (port : UInt16) : Except (FilterError ε) (List SocketAddr) :=
  match IpAddr.parse? (literal host) with
  | some ip => .ok [{ ip := ip, port := port }]
  | none => (lookup host port).mapError .lookup

/-- Resolves `host` and keeps only allowed addresses. -/
def resolveFiltered (host : List Char) (port : UInt16) (policy : AddressPolicy) :
    Except (FilterError ε) (List SocketAddr) := do
  let candidates ← candidates lookup host port
  let kept := candidates.filter fun candidate => isAllowed candidate.ip policy
  if kept.isEmpty then .error .rejected else .ok kept

end Resolving

end Postit.Http
