import Mathlib.Logic.Function.Basic

/-!
# Socket addresses

The address types of Rust's `std::net`, as its documentation specifies them: an ipv4 address by
its four octets, an ipv6 address by its sixteen, and a socket address of either kind with its
port (and, for ipv6, its flow information and scope id). The predicates are those the packet
pipelines filter sources by, and `to_canonical`, which turns an ipv4-mapped ipv6 address
`::ffff:a.b.c.d` back into `a.b.c.d`.
-/

/-- `Ipv4Addr`, by its octets `a.b.c.d`. -/
structure Ipv4Addr where
  a : UInt8
  b : UInt8
  c : UInt8
  d : UInt8
  deriving DecidableEq, Repr

/-- `Ipv6Addr`, by its octets. -/
structure Ipv6Addr where
  octets : Vector UInt8 16
  deriving DecidableEq, Repr

/-- `IpAddr`. -/
inductive IpAddr
  | v4 (ip : Ipv4Addr)
  | v6 (ip : Ipv6Addr)
  deriving DecidableEq, Repr

/-- `SocketAddr`. -/
inductive SocketAddr
  | v4 (ip : Ipv4Addr) (port : UInt16)
  | v6 (ip : Ipv6Addr) (port : UInt16) (flowinfo : UInt32) (scopeId : UInt32)
  deriving DecidableEq, Repr

namespace Ipv4Addr

/-- `octets`. -/
def octets (ip : Ipv4Addr) : List UInt8 := [ip.a, ip.b, ip.c, ip.d]

/-- `is_loopback`: `127.0.0.0/8`. -/
def isLoopback (ip : Ipv4Addr) : Bool := ip.a == 127

/-- `is_multicast`: `224.0.0.0/4`. -/
def isMulticast (ip : Ipv4Addr) : Bool := ip.a ≥ 224 && ip.a ≤ 239

/-- `is_broadcast`: `255.255.255.255`. -/
def isBroadcast (ip : Ipv4Addr) : Bool := ip == ⟨255, 255, 255, 255⟩

/-- `to_ipv6_mapped`: `::ffff:a.b.c.d`. -/
def toIpv6Mapped (ip : Ipv4Addr) : Ipv6Addr :=
  ⟨#v[0, 0, 0, 0, 0, 0, 0, 0, 0, 0, 0xff, 0xff, ip.a, ip.b, ip.c, ip.d]⟩

end Ipv4Addr

namespace Ipv6Addr

/-- `is_loopback`: `::1`. -/
def isLoopback (ip : Ipv6Addr) : Bool := ip.octets.toList == List.replicate 15 0 ++ [1]

/-- `is_multicast`: `ff00::/8`. -/
def isMulticast (ip : Ipv6Addr) : Bool := ip.octets[0] == 0xff

/-- `to_ipv4_mapped`: the ipv4 address `a.b.c.d` of `::ffff:a.b.c.d`. -/
def toIpv4Mapped (ip : Ipv6Addr) : Option Ipv4Addr :=
  match ip.octets.toList with
  | [0, 0, 0, 0, 0, 0, 0, 0, 0, 0, 0xff, 0xff, a, b, c, d] => some ⟨a, b, c, d⟩
  | _ => none

/-- `to_ipv4`: the ipv4 address `a.b.c.d` of `::a.b.c.d` (ipv4-compatible) and of
`::ffff:a.b.c.d` (ipv4-mapped). -/
def toIpv4 (ip : Ipv6Addr) : Option Ipv4Addr :=
  match ip.octets.toList with
  | [0, 0, 0, 0, 0, 0, 0, 0, 0, 0, 0, 0, a, b, c, d] => some ⟨a, b, c, d⟩
  | [0, 0, 0, 0, 0, 0, 0, 0, 0, 0, 0xff, 0xff, a, b, c, d] => some ⟨a, b, c, d⟩
  | _ => none

/-- `to_canonical`. -/
def toCanonical (ip : Ipv6Addr) : IpAddr :=
  match ip.toIpv4Mapped with
  | some mapped => .v4 mapped
  | none => .v6 ip

end Ipv6Addr

/-- An ipv4-mapped address is canonically its ipv4 address. -/
theorem Ipv4Addr.toCanonical_toIpv6Mapped (ip : Ipv4Addr) : ip.toIpv6Mapped.toCanonical = .v4 ip :=
  rfl

/-- An ipv4-mapped address is neither the ipv6 loopback address nor multicast, whatever the ipv4
address. -/
theorem Ipv4Addr.isLoopback_toIpv6Mapped (ip : Ipv4Addr) : ip.toIpv6Mapped.isLoopback = false := by
  simp [Ipv6Addr.isLoopback, toIpv6Mapped]

theorem Ipv4Addr.isMulticast_toIpv6Mapped (ip : Ipv4Addr) : ip.toIpv6Mapped.isMulticast = false :=
  rfl

/-- `IpAddr::to_canonical`. -/
def IpAddr.toCanonical : IpAddr → IpAddr
  | .v4 ip => .v4 ip
  | .v6 ip => ip.toCanonical

namespace SocketAddr

/-- `ip`. -/
def ip : SocketAddr → IpAddr
  | .v4 ip _ => .v4 ip
  | .v6 ip _ _ _ => .v6 ip

/-- `port`. -/
def port : SocketAddr → UInt16
  | .v4 _ port => port
  | .v6 _ port _ _ => port

/-- `set_ip`: an address of the other kind replaces the whole address, keeping the port (and
clearing the flow information and scope id). -/
def setIp (addr : SocketAddr) (ip : IpAddr) : SocketAddr :=
  match addr, ip with
  | .v6 _ port flowinfo scopeId, .v6 ip => .v6 ip port flowinfo scopeId
  | addr, .v4 ip => .v4 ip addr.port
  | addr, .v6 ip => .v6 ip addr.port 0 0

end SocketAddr
