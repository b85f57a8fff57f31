import Quilkin.Net.SessionPool
import Quilkin.Filters.Chain

/-!
# Replies from the servers

Model of what the session pool does with a datagram a server sends back to one of its sockets
(`SessionPool::process_received_upstream_packet` and `process_recv_packet`,
`src/net/sessions.rs`): the server's address is made canonical, the client is the one
`destination_to_sources` records for the server and the socket's port, and the filter chain
writes the datagram, from the server to that client. A datagram from a server no client has a
session with on that port is dropped. The reply goes into one of the workers' send queues, chosen
round robin, which decides nothing about where it goes; the metrics, the jitter and the GeoIP
entry the reply carries for them are left out.
-/

namespace Quilkin.Net

open Filters

/-- `SendPacket`: the contents and the client they go to. -/
structure SendPacket where
  data : List UInt8
  destination : SocketAddr

/-- `process_recv_packet`: the chain writes the datagram from the server `source` to the client
`dest`. -/
def processRecvPacket (svc : Services) (filters : FilterChain) (source dest : SocketAddr)
    (packet : List UInt8) : Except FilterError SendPacket :=
  let context := WriteContext.new (EndpointAddress.ofSocketAddr source) (EndpointAddress.ofSocketAddr dest)
    packet
  (filters.write svc context).map fun context => ⟨context.contents, dest⟩

namespace SessionPool

variable {A : Type}

/-- `process_received_upstream_packet` for a datagram from `recvAddr` on the socket of `port`:
`none` when no client is recorded for the server and the port, else the chain's result. -/
def processReceivedUpstreamPacket (pool : SessionPool A) (svc : Services) (filters : FilterChain)
    (packet : List UInt8) (recvAddr : SocketAddr) (port : UInt16) :
    Option (Except FilterError SendPacket) :=
  let recvAddr := recvAddr.setIp recvAddr.ip.toCanonical
  (pool.destinationToSources (recvAddr, port)).map fun downstreamAddr =>
    processRecvPacket svc filters recvAddr downstreamAddr packet

end SessionPool

end Quilkin.Net
