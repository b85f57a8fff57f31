import Quilkin.Data.SocketAddr
import Quilkin.Corrosion.TokenSet

/-!
# Endpoints

The address an endpoint is reached at (`src/net/endpoint/address.rs`): an ip address or a name to
resolve, and a port. The locality a set of endpoints belongs to (`crates/xds/src/locality.rs`),
kept as the string it is displayed as, with the offsets at which its region and zone end. And the
metadata of an endpoint (`src/net/endpoint.rs`), of which the model keeps the known part, the
endpoint's token set: the unknown part is a JSON map that nothing modelled reads.
-/

namespace Quilkin.Net

open Corrosion (TokenSet)

/-- `AddressKind`. -/
inductive AddressKind
  | ip (ip : IpAddr)
  | name (name : String)
  deriving DecidableEq

/-- `EndpointAddress`. -/
structure EndpointAddress where
  host : AddressKind
  port : UInt16
  deriving DecidableEq

/-- `SocketAddr::from((ip, port))`. -/
def SocketAddr.ofIpPort : IpAddr → UInt16 → SocketAddr
  | .v4 ip, port => .v4 ip port
  | .v6 ip, port => .v6 ip port 0 0

/-- `EndpointAddress::from(SocketAddr)`. -/
def EndpointAddress.ofSocketAddr (addr : SocketAddr) : EndpointAddress := ⟨.ip addr.ip, addr.port⟩

/-- `to_socket_addr`, with `resolve` the lookup of a name. -/
def EndpointAddress.toSocketAddr (resolve : String → Except String IpAddr) (e : EndpointAddress) :
    Except String SocketAddr :=
  match e.host with
  | .ip ip => .ok (SocketAddr.ofIpPort ip e.port)
  | .name name => (resolve name).map fun ip => SocketAddr.ofIpPort ip e.port

/-- `Locality`: the string `region[:zone[:sub_zone]]`, the end of its region, and the end of its
zone if it has one. -/
structure Locality where
  buffer : String
  region : Nat
  zone : Option Nat
  deriving DecidableEq

/-- `Locality::new`: the parts joined by `:`; a sub-zone without a zone is dropped. -/
def Locality.new (region zone subZone : String) : Locality :=
  if zone.isEmpty then ⟨region, region.utf8ByteSize, none⟩
  else
    let withZone := region ++ ":" ++ zone
    ⟨if subZone.isEmpty then withZone else withZone ++ ":" ++ subZone, region.utf8ByteSize,
      some withZone.utf8ByteSize⟩

namespace Locality

/-- `Display`: the string itself. -/
def toString (l : Locality) : String := l.buffer

/-- `region()`. -/
def regionStr (l : Locality) : String := String.Pos.Raw.extract l.buffer ⟨0⟩ ⟨l.region⟩

/-- `zone()`. -/
def zoneStr (l : Locality) : Option String :=
  l.zone.map fun z => String.Pos.Raw.extract l.buffer ⟨l.region + 1⟩ ⟨z⟩

/-- `sub_zone()`: what follows the zone, if anything does. -/
def subZoneStr (l : Locality) : Option String :=
  l.zone.bind fun z =>
    if z + 1 < l.buffer.utf8ByteSize then
      some (String.Pos.Raw.extract l.buffer ⟨z + 1⟩ ⟨l.buffer.utf8ByteSize⟩)
    else none

/-- Why `Locality::from_str` refuses a string. -/
inductive ParseError
  /-- `region not specified` -/
  | regionNotSpecified
  /-- `locality identifier '{input}' had more than 3 components, '{invalid}' is not a region,
  zone, or subzone` -/
  | tooManyComponents (input invalid : String)

/-- `FromStr`: the components split at `:`, of which there are at most three, the first, the
region, not empty. The string is kept as it is. -/
def fromStr (input : String) : Except ParseError Locality :=
  if input.isEmpty then .error .regionNotSpecified
  else
    -- the pieces of `input.split(':')`, split at the character
    match (input.toList.splitOn ':').map String.ofList with
    | [] => .error .regionNotSpecified
    | region :: rest =>
      if region.isEmpty then .error .regionNotSpecified
      else
        let zone := match rest with
          | z :: _ => if z.isEmpty then none else some (region.utf8ByteSize + 1 + z.utf8ByteSize)
          | [] => none
        match rest with
        | _ :: _ :: invalid :: _ => .error (.tooManyComponents input invalid)
        | _ => .ok ⟨input, region.utf8ByteSize, zone⟩

end Locality

/-- `Metadata`, the metadata of an endpoint that quilkin knows. -/
structure Metadata where
  tokens : TokenSet
  deriving DecidableEq

/-- `EndpointMetadata`, a `MetadataView<Metadata>`. -/
structure EndpointMetadata where
  known : Metadata
  deriving DecidableEq

/-- `Endpoint`. -/
structure Endpoint where
  address : EndpointAddress
  metadata : EndpointMetadata
  deriving DecidableEq

end Quilkin.Net
