import Quilkin.Filters.Chain
import Quilkin.Net.Pipeline

/-!
# A worker's packets, one after another

Model of what the socket backends' workers keep from one datagram to the next: the filter chain,
whose filters keep state, and a destinations vector of the worker's own (the `destinations` of
`PacketProcessorCtx::Router` on io-uring, `src/net/io/completion/io_uring.rs`, and of the receive
loop on tokio, `src/net/io/poll/tokio.rs`), which every datagram's `DownstreamPacket::process`
(`src/net/packet.rs`) is given.

`process_inner` builds the read context on that vector as it is. The chain reads the datagram and
pushes destinations onto the vector; when it passes, the sends take every destination out of it
(`pop` for one, `drain(0..)` for several, which empties the vector even when a send fails). When
the chain fails, the vector is left as the chain left it, and nothing clears it before the next
datagram.

The sends are those of the downstream pipeline model (`Downstream.sendAll`), which reads only the
resolver and the session pool's `send`. The metrics and the jitter of `process` are left out.
-/

namespace Quilkin.Net

open Filters

/-- What a worker keeps from one datagram to the next: the filter chain and its destinations
vector. -/
structure Router where
  filters : FilterChain
  destinations : List EndpointAddress

/-- The results of `process_inner` that return before any send: the datagram was dropped before
the filters, or the filters refused it. -/
def refusedBeforeSend : Except PipelineError Unit → Bool
  | .error .noUpstreamEndpoints | .error (.disallowedSourceIP _) | .error (.filter _) => true
  | _ => false

namespace Router

variable (svc : Services) (send : SessionKey → List UInt8 → Except String Unit)

/-- The read context `process_inner` builds for a datagram, on the worker's vector. -/
def context (r : Router) (clusters : ClusterMap) (contents : List UInt8) (source : SocketAddr) :
    ReadContext :=
  ReadContext.new clusters (EndpointAddress.ofSocketAddr source) contents r.destinations

/-- `DownstreamPacket::process_inner` on the worker's state, with the cluster map and the second
the rate limiter reads: the worker after the datagram, the session keys sent to, and the result.
`none` is a panic in a filter. -/
def processInner (r : Router) (clusters : ClusterMap) (nowSecs : UInt64) (contents : List UInt8)
    (source : SocketAddr) : Option (Router × List SessionKey × Except PipelineError Unit) :=
  if !clusters.hasEndpoints then some (r, [], .error .noUpstreamEndpoints)
  else if disallowedSource source.ip then some (r, [], .error (.disallowedSourceIP source.ip))
  else
    (r.filters.read svc nowSecs (r.context clusters contents source)).map fun (filters, ctx, res) =>
      match res with
      | .error e => (⟨filters, ctx.destinations⟩, [], .error (.filter e.toString))
      | .ok () =>
        -- the sends, which read only the resolver and the session pool
        let d : Downstream :=
          ⟨clusters.hasEndpoints, fun _ _ => .ok (ctx.contents, ctx.destinations), svc.resolve, send⟩
        let (keys, result) := d.sendAll source ctx.contents ctx.destinations
        (⟨filters, []⟩, keys, result)

/-- A datagram a worker receives: the cluster map when it is processed, the second the clock
reads, the contents and the source. -/
structure Datagram where
  clusters : ClusterMap
  nowSecs : UInt64
  contents : List UInt8
  source : SocketAddr

/-- The worker's loop over the datagrams it receives: the session keys and the result of each,
and the worker at the end; `none` once a filter panics. -/
def run (r : Router) : List Datagram → Option (List (List SessionKey × Except PipelineError Unit) × Router)
  | [] => some ([], r)
  | p :: ps =>
    (r.processInner svc send p.clusters p.nowSecs p.contents p.source).bind fun (r, keys, result) =>
      (run r ps).map fun (outs, r) => ((keys, result) :: outs, r)

end Router

end Quilkin.Net
