import Quilkin.Filters.Capture
import Quilkin.Bytes.Base64
import Quilkin.Data.Multimap

/-!
# The token router and decryptor filters

Model of the filters that choose a packet's destinations from what an earlier filter left in its
dynamic metadata: `TokenRouter` and `HashedTokenRouter` (`src/filters/token_router.rs`), which
push the addresses of the endpoints holding the token captured from the packet, and `Decryptor`
(`src/filters/decryptor.rs`), which decrypts a destination address carried in the packet.

The token router's `addresses_for_token` extends the destinations with a hash set of addresses,
in the order the set is iterated, which is the parameter `SetIter`. Its `unreachable!` on a value
that is not bytes is a panic (`none`). The decryptor's ChaCha20 XORs the data with the cipher's
keystream, a parameter: the byte at each position for a key and a nonce.
-/

namespace Quilkin.Filters

open Net

/-- `RouterError`. -/
inductive RouterError
  | noTokenFound
  | noEndpointMatch (token : List UInt8)

/-- `Display` of `RouterError`; the token is shown in standard base64. -/
def RouterError.toString : RouterError → String
  | .noEndpointMatch token =>
    "no endpoint matched token `" ++ String.ofList (Base64.encodePadded token) ++ "`"
  | .noTokenFound => "routing token not captured"

/-- `Config` of the token routers: the key of the token, `CAPTURED_BYTES` by default. -/
structure TokenRouter.Config where
  metadataKey : Key := capturedBytes

/-- `TokenRouter`. -/
structure TokenRouter where
  config : TokenRouter.Config

/-- `Filter::read` of `TokenRouter`: the addresses of the endpoints holding the token under the
key are pushed, and the packet is refused when there are still no destinations. -/
def TokenRouter.read (gx : GxHash) (order : SetIter EndpointAddress) (r : TokenRouter)
    (ctx : ReadContext) : Option (ReadContext × Except FilterError Unit) :=
  match ctx.metadata r.config.metadataKey with
  | some (.bytes token) =>
    let tok := Token.new gx token
    let ctx := { ctx with
      destinations := ctx.destinations ++ order.toList (ctx.endpoints.addressesForToken tok) }
    if ctx.destinations.isEmpty then
      some (ctx, .error (.tokenRouter (RouterError.noEndpointMatch token).toString))
    else some (ctx, .ok ())
  -- `unreachable!`: the capture filter is taken to store only bytes
  | some _ => none
  | none => some (ctx, .error (.tokenRouter RouterError.noTokenFound.toString))

/-- `HashedTokenRouter`, a `TokenRouter` it delegates to. -/
structure HashedTokenRouter where
  router : TokenRouter

/-- `Filter::read` of `HashedTokenRouter`. -/
def HashedTokenRouter.read (gx : GxHash) (order : SetIter EndpointAddress) (r : HashedTokenRouter)
    (ctx : ReadContext) : Option (ReadContext × Except FilterError Unit) :=
  r.router.read gx order ctx

/-! ## The decryptor -/

/-- The keystream of ChaCha20 for a key and a nonce: the byte at each position. -/
abbrev Keystream := List UInt8 → List UInt8 → Nat → UInt8

/-- `apply_keystream`: each byte XORed with the keystream's byte at its position. -/
def applyKeystream (ks : Keystream) (key nonce data : List UInt8) : List UInt8 :=
  data.mapIdx fun i b => b ^^^ ks key nonce i

/-- `NONCE_KEY`, the default key of the nonce. -/
def nonceKey : Key := "quilkin.dev/nonce"

namespace Decryptor

/-- `DESTINATION_MIN`, an ipv4 address and a port. -/
def destinationMin : Nat := 6

/-- `DESTINATION_MAX`, an ipv6 address and a port. -/
def destinationMax : Nat := 18

/-- `Mode`. -/
inductive Mode
  | destination
  deriving DecidableEq

/-- `Config`: the 32-byte key, the keys of the data and of the nonce, and the mode. -/
structure Config where
  key : List UInt8
  dataKey : Key := capturedBytes
  nonceKey : Key := Filters.nonceKey
  mode : Mode

/-- The port of `decode_destination`: the last two bytes, big-endian. -/
def decodePort (hi lo : UInt8) : UInt16 := hi.toUInt16 <<< 8 ||| lo.toUInt16

/-- `decode_destination`: an ipv4 address from six bytes, an ipv6 address from eighteen, each
followed by the port; any other length is `unreachable!`. -/
def decodeDestination (data : List UInt8) : Option SocketAddr :=
  if h : data.length = destinationMin then
    have : data.length = 6 := h
    some (.v4 ⟨data[0], data[1], data[2], data[3]⟩ (decodePort data[4] data[5]))
  else if h : data.length = destinationMax then
    have : data.length = 18 := h
    some (.v6 ⟨Vector.ofFn fun i : Fin 16 => data[i.val]⟩ (decodePort data[16] data[17]) 0 0)
  else none

end Decryptor

/-- `Decryptor`. -/
structure Decryptor where
  config : Decryptor.Config

namespace Decryptor

/-- `Filter::read`: the data and the nonce must both be bytes, the nonce twelve of them, and the
data the length of an encoded destination, which is decrypted and pushed. -/
def read (ks : Keystream) (d : Decryptor) (ctx : ReadContext) :
    Option (ReadContext × Except FilterError Unit) :=
  match ctx.metadata d.config.dataKey, ctx.metadata d.config.nonceKey with
  | some (.bytes data), some (.bytes nonce) =>
    if nonce.length ≠ 12 then some (ctx, .error (.custom "Expected 12 byte nonce"))
    else
      match d.config.mode with
      | .destination =>
        if data.length = destinationMin ∨ data.length = destinationMax then
          (decodeDestination (applyKeystream ks d.config.key nonce data)).map fun dest =>
            ({ ctx with destinations := ctx.destinations ++ [EndpointAddress.ofSocketAddr dest] },
              .ok ())
        else
          some (ctx, .error (.custom "Invalid decoded data length, must be `6` or `18` bytes."))
  | some (.bytes _), some _ => some (ctx, .error (.custom "expected `bytes` value in nonce key"))
  | some _, some (.bytes _) => some (ctx, .error (.custom "expected `bytes` value in data key"))
  | some _, some _ => some (ctx, .error (.custom "expected `bytes` value in data and nonce key"))
  | some _, none => some (ctx, .error (.custom "Nonce key is missing"))
  | none, some _ => some (ctx, .error (.custom "Data key is missing"))
  | none, none => some (ctx, .error (.custom "Nonce and data key is missing"))

end Decryptor

end Quilkin.Filters
