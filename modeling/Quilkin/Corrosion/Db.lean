import Quilkin.Net.Endpoint
import Quilkin.Data.IpText

/-!
# Endpoints in the database

The text an endpoint is kept as in the `servers` and `dc` tables (`crates/corrosion/src/db`):
`to_compact_str` writes a name as it is and an ip address after a `|`, which neither holds, then
`:` and the port; `parse_endpoint` splits at the last `:`, and reads an address after a leading
`|` and a name otherwise.
-/

namespace Quilkin.Corrosion

/-- `quilkin_types::Endpoint`. -/
structure Endpoint where
  address : Net.AddressKind
  port : UInt16
  deriving DecidableEq

/-- `Endpoint::new`. -/
def Endpoint.new (address : Net.AddressKind) (port : UInt16) : Endpoint := ⟨address, port⟩

/-- `to_compact_str`. -/
def toCompactStr (ep : Endpoint) : String :=
  let address := match ep.address with
    | .name hn => hn.toList
    | .ip ip => '|' :: ip.display
  String.ofList (address ++ ':' :: Nat.toDigits 10 ep.port.toNat)

/-- The reports of `parse_endpoint`: the context of a text without `:`, and the errors of the
port's and the address's parse. -/
inductive ParseEndpointError
  | context (msg : String)
  | parseInt (kind : Text.IntErrorKind)
  | addrParse (error : AddrParseError)
  deriving DecidableEq

/-- `parse_endpoint`. -/
def parseEndpoint (addr : String) : Except ParseEndpointError Endpoint := do
  let (addr, port) ← match Text.rsplitOnce ':' addr.toList with
    | some split => .ok split
    | none => .error (.context "missing ':'")
  let port ← (Text.parseU16 port).mapError .parseInt
  match Text.stripPrefix '|' addr with
  | some ip =>
    let ip ← (IpAddr.fromStr ip).mapError .addrParse
    pure (Endpoint.new (.ip ip) port)
  | none => pure (Endpoint.new (.name (String.ofList addr)) port)

end Quilkin.Corrosion
