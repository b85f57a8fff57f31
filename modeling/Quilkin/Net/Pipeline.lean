import Quilkin.Net.Endpoint

/-!
# The downstream pipelines

Model of what happens to a datagram a client sends to the proxy, on the socket backends
(`DownstreamPacket::process_inner`, `src/net/packet.rs`, as built for release) and on the XDP
backend (`process_client_packet`, `src/net/io/nic/xdp/process.rs`): the filter chain reads the
packet and pushes the endpoints it goes to, and the packet is sent to each of them, through the
session pool on the socket backends and by transmitting a frame on the XDP one.

The filter chain, the DNS resolver, the session pool and the rewriting of a frame's headers are
outside this model and are its parameters, as what each returns for its inputs: `read` gives the
contents after the chain and the destinations it pushed, or the chain's error (on the XDP backend
also the failure the packet wrapper recorded). A run yields the session keys `send` was called
with, or the destinations a frame was transmitted to.
-/

namespace Quilkin.Net

/-- `PipelineError`, the variants these pipelines and the session pool return. -/
inductive PipelineError
  | noUpstreamEndpoints
  | disallowedSourceIP (ip : IpAddr)
  | filter (error : String)
  | io (error : String)
  | session (error : String)
  | sessionLimit

/-- `SessionKey`. -/
structure SessionKey where
  source : SocketAddr
  dest : SocketAddr

/-- What the pipelines are given: whether the clusters have endpoints, the filter chain's `read`,
the resolver, and the session pool's `send`. -/
structure Downstream where
  hasEndpoints : Bool
  read : SocketAddr → List UInt8 → Except String (List UInt8 × List EndpointAddress)
  resolve : String → Except String IpAddr
  send : SessionKey → List UInt8 → Except String Unit

/-- The sources the release build of `process_inner` refuses: a loopback, multicast or broadcast
ipv4 address, a loopback or multicast ipv6 address. -/
def disallowedSource : IpAddr → Bool
  | .v4 ip => ip.isLoopback || ip.isMulticast || ip.isBroadcast
  | .v6 ip => ip.isLoopback || ip.isMulticast

namespace Downstream

variable (d : Downstream)

/-- The sends of `process_inner` to its destinations in order, stopping at the first endpoint that
does not resolve or send that fails: the keys `send` was called with, and the result. -/
def sendAll (source : SocketAddr) (contents : List UInt8) :
    List EndpointAddress → List SessionKey × Except PipelineError Unit
  | [] => ([], .ok ())
  | epa :: rest =>
    match epa.toSocketAddr d.resolve with
    | .error e => ([], .error (.io e))
    | .ok dest =>
      let key : SessionKey := ⟨source, dest⟩
      match d.send key contents with
      | .error e => ([key], .error (.session e))
      | .ok () =>
        let (keys, result) := sendAll source contents rest
        (key :: keys, result)

/-- `process_inner`. A single destination is sent to without cloning the contents, which changes
nothing here. -/
def processInner (contents : List UInt8) (source : SocketAddr) :
    List SessionKey × Except PipelineError Unit :=
  if !d.hasEndpoints then ([], .error .noUpstreamEndpoints)
  else if disallowedSource source.ip then ([], .error (.disallowedSourceIP source.ip))
  else
    match d.read source contents with
    | .error e => ([], .error (.filter e))
    | .ok (contents, destinations) => d.sendAll source contents destinations

end Downstream

namespace Xdp

/-- What the XDP client path is given besides the filter chain and resolver: whether a frame's
headers can be written for a destination (`fill_packet`, `modify_packet_headers`), which
`push_packet` transmits on success. -/
structure XdpDownstream extends Downstream where
  writeHeaders : SocketAddr → Except String Unit

namespace XdpDownstream

variable (d : XdpDownstream)

/-- The extra destinations of `process_client_packet`, each in a newly allocated frame while the
UMEM has `free` frames: those transmitted to. -/
def transmitCopies : Nat → List EndpointAddress → List SocketAddr
  | _, [] => []
  | free, daddr :: rest =>
    match daddr.toSocketAddr d.resolve with
    | .error _ => transmitCopies free rest
    | .ok dest =>
      match free with
      | 0 => transmitCopies 0 rest
      | free + 1 =>
        match d.writeHeaders dest with
        | .ok () => dest :: transmitCopies free rest
        -- `push_packet` gives the frame back
        | .error _ => transmitCopies (free + 1) rest

/-- `process_client_packet`, for a datagram from `source` (the frame's source address): the
destinations a frame is transmitted to. The filters see the canonical source; `pop` takes the
destinations from the last, which keeps the received frame. -/
def processClientPacket (source : SocketAddr) (contents : List UInt8) (free : Nat) :
    Except PipelineError (List SocketAddr) :=
  let source := source.setIp source.ip.toCanonical
  match d.read source contents with
  | .error e => .error (.filter e)
  | .ok (_, destinations) =>
    match destinations.reverse with
    | [] => .ok []
    | last :: rest =>
      let copies := d.transmitCopies free rest
      match last.toSocketAddr d.resolve with
      | .error _ => .ok copies
      | .ok dest =>
        match d.writeHeaders dest with
        | .ok () => .ok (copies ++ [dest])
        | .error _ => .ok copies

end XdpDownstream

end Xdp

end Quilkin.Net
