import Quilkin.Net.Endpoint
import Quilkin.Bytes.Endian
import Quilkin.Filters.Error
import Quilkin.Data.Text

/-!
# The firewall filter

Model of `src/filters/firewall.rs` and its configuration (`src/filters/firewall/config.rs`): each
direction has a list of rules, and a packet's source passes when the first rule that contains it
allows it; a source no rule contains is denied. A rule contains a source when one of its networks
contains the address and one of its port ranges the port.

The networks are those of the `ipnetwork` crate: an address and a prefix length, which contain an
address of their own family whose first bits, as many as the prefix length, are the network's.
`Cidr::contains` adds one case: an ipv4 network tested against an ipv6 address that `to_ipv4`
reads as an ipv4 one tests that ipv4 address.
-/

namespace Quilkin.Filters

open Net

/-- `Ipv4Network`: an address and a prefix length of at most 32. -/
structure Ipv4Network where
  addr : Ipv4Addr
  prefixLen : Nat
  prefixLen_le : prefixLen ≤ 32

/-- `Ipv6Network`: an address and a prefix length of at most 128. -/
structure Ipv6Network where
  addr : Ipv6Addr
  prefixLen : Nat
  prefixLen_le : prefixLen ≤ 128

/-- `Ipv4Network::contains`: the address agrees with the network on the first `prefix` bits. -/
def Ipv4Network.contains (net : Ipv4Network) (ip : Ipv4Addr) : Bool :=
  ByteOrder.ofBE ip.octets >>> (32 - net.prefixLen) ==
    ByteOrder.ofBE net.addr.octets >>> (32 - net.prefixLen)

/-- `Ipv6Network::contains`. -/
def Ipv6Network.contains (net : Ipv6Network) (ip : Ipv6Addr) : Bool :=
  ByteOrder.ofBE ip.octets.toList >>> (128 - net.prefixLen) ==
    ByteOrder.ofBE net.addr.octets.toList >>> (128 - net.prefixLen)

/-- `IpNetwork`. -/
inductive IpNetwork
  | v4 (net : Ipv4Network)
  | v6 (net : Ipv6Network)

/-- `IpNetwork::contains`: an address of the other family is never contained. -/
def IpNetwork.contains : IpNetwork → IpAddr → Bool
  | .v4 net, .v4 ip => net.contains ip
  | .v6 net, .v6 ip => net.contains ip
  | _, _ => false

/-- `Cidr`. -/
structure Cidr where
  network : IpNetwork

/-- `Cidr::contains`. -/
def Cidr.contains (c : Cidr) (ip : IpAddr) : Bool :=
  match c.network, ip with
  | .v4 v4network, .v6 v6 =>
    match v6.toIpv4 with
    | some ipv4 => v4network.contains ipv4
    | none => c.network.contains ip
  | _, _ => c.network.contains ip

/-- `PortRangeError`. -/
inductive PortRangeError
  | invalidRange (min max : UInt16)

/-- `PortRange`: the ports from `start`, included, to `stop`, excluded, with `start < stop` as
`PortRange::new` checks. -/
structure PortRange where
  start : UInt16
  stop : UInt16
  start_lt : start < stop

/-- `PortRange::new`. -/
def PortRange.new (min max : UInt16) : Except PortRangeError PortRange :=
  if h : min < max then .ok ⟨min, max, h⟩ else .error (.invalidRange min max)

/-- `PortRange::contains`. -/
def PortRange.contains (range : PortRange) (port : UInt16) : Bool :=
  decide (range.start ≤ port) && decide (port < range.stop)

/-- The `+` of `u16` in a build with overflow checks: `none` past `u16::MAX`, where the addition
panics. A build without the checks wraps to `a + b`. -/
def checkedAdd (a b : UInt16) : Option UInt16 :=
  if a.toNat + b.toNat < 2 ^ 16 then some (a + b) else none

/-- `From<u16> for PortRange`: `PortRange::new(value, value + 1).unwrap()`. -/
def PortRange.ofUInt16 (value : UInt16) : Option PortRange :=
  (checkedAdd value 1).bind fun stop =>
    match PortRange.new value stop with
    | .ok range => some range
    | .error _ => none

/-- `Serialize for PortRange`: the start alone when the range holds one port, `start-end`
otherwise. -/
def PortRange.serialize (range : PortRange) : List Char :=
  if range.start = range.stop - 1 then Nat.toDigits 10 range.start.toNat
  else Nat.toDigits 10 range.start.toNat ++ '-' :: Nat.toDigits 10 range.stop.toNat

/-- What `visit_str` passes to `de::Error::custom`: the error of a port's parse, or of
`PortRange::new`. -/
inductive PortRangeDeError
  | parseInt (kind : Text.IntErrorKind)
  | portRange (error : PortRangeError)

/-- `PortRangeVisitor::visit_str`: split at the first `-`; without one the text is a single port
`value` and the range `value..value + 1`, with one the two sides are the ends. `none` where
`value + 1` overflows. -/
def PortRange.visitStr (v : List Char) : Option (Except PortRangeDeError PortRange) :=
  match Text.splitOnce '-' v with
  | none =>
    match Text.parseU16 v with
    | .error e => some (.error (.parseInt e))
    | .ok value => (checkedAdd value 1).map fun stop => (PortRange.new value stop).mapError .portRange
  | some (start, stop) => some do
    let start ← (Text.parseU16 start).mapError .parseInt
    let stop ← (Text.parseU16 stop).mapError .parseInt
    (PortRange.new start stop).mapError .portRange

/-- `Action`. -/
inductive Action
  | allow
  | deny
  deriving DecidableEq

/-- `Rule`. -/
structure Rule where
  action : Action
  sources : List Cidr
  ports : List PortRange

/-- `Rule::contains`. -/
def Rule.contains (rule : Rule) (address : SocketAddr) : Bool :=
  if rule.sources.any fun source => source.contains address.ip then
    rule.ports.any fun range => range.contains address.port
  else false

/-- `Firewall`. -/
structure Firewall where
  onRead : List Rule
  onWrite : List Rule

/-- The loop of `read` and `write` over a direction's rules: the action of the first rule that
contains the source, which is converted to a socket address at each rule, and `FirewallDenied`
past the last rule. -/
def checkRules (resolve : String → Except String IpAddr) (source : EndpointAddress) :
    List Rule → Except FilterError Unit
  | [] => .error .firewallDenied
  | rule :: rules => do
    let address ← (source.toSocketAddr resolve).mapError .io
    if rule.contains address then
      match rule.action with
      | .allow => .ok ()
      | .deny => .error .firewallDenied
    else checkRules resolve source rules

namespace Firewall

variable (fw : Firewall) (resolve : String → Except String IpAddr)

/-- `Filter::read`, on the context's source. -/
def read (source : EndpointAddress) : Except FilterError Unit := checkRules resolve source fw.onRead

/-- `Filter::write`, on the context's source. -/
def write (source : EndpointAddress) : Except FilterError Unit :=
  checkRules resolve source fw.onWrite

end Firewall

end Quilkin.Filters
