import Quilkin.Net.Pipeline

/-!
# Which sources the downstream pipelines drop

The release build of `process_inner` drops a datagram whose source address, as received, is a
loopback, multicast or broadcast address, before the filters run and before any send
(`processInner_of_disallowed`). It does not canonicalize the address first: an ipv4 client of a
dual-stack socket arrives as `::ffff:a.b.c.d`, which is neither the ipv6 loopback address nor
multicast whatever `a.b.c.d` is, so the check lets every such source through
(`disallowedSource_toIpv6Mapped`). The XDP client path canonicalizes the source and then does not
check it at all.
-/

namespace Quilkin.Net

namespace Downstream

variable (d : Downstream)

theorem processInner_of_disallowed {contents : List UInt8} {source : SocketAddr}
    (hend : d.hasEndpoints = true) (hdis : disallowedSource source.ip = true) :
    d.processInner contents source = ([], .error (.disallowedSourceIP source.ip)) := by
  rw [processInner, hend, if_neg (by decide), if_pos hdis]

theorem processInner_of_read_ok {contents contents' : List UInt8} {source : SocketAddr}
    {destinations : List EndpointAddress} (hend : d.hasEndpoints = true)
    (hdis : disallowedSource source.ip = false)
    (hread : d.read source contents = .ok (contents', destinations)) :
    d.processInner contents source = d.sendAll source contents' destinations := by
  simp only [processInner, hend, hdis, hread, Bool.not_true, Bool.false_eq_true, ↓reduceIte]

theorem sendAll_ofSocketAddr_v4 {source : SocketAddr} {contents : List UInt8} {ip : Ipv4Addr}
    {port : UInt16} (hsend : d.send ⟨source, .v4 ip port⟩ contents = .ok ()) :
    d.sendAll source contents [EndpointAddress.ofSocketAddr (.v4 ip port)] =
      ([⟨source, .v4 ip port⟩], .ok ()) := by
  simp only [sendAll, EndpointAddress.ofSocketAddr, EndpointAddress.toSocketAddr, SocketAddr.ip,
    SocketAddr.port, SocketAddr.ofIpPort, hsend]

end Downstream

/-- The release check passes every ipv4-mapped source. -/
theorem disallowedSource_toIpv6Mapped (ip : Ipv4Addr) :
    disallowedSource (.v6 ip.toIpv6Mapped) = false := by
  rw [disallowedSource, Ipv4Addr.isLoopback_toIpv6Mapped, Ipv4Addr.isMulticast_toIpv6Mapped]
  rfl

/-- A client at any ipv4 address, loopback, multicast and broadcast included, routed by the
filters to an ipv4 endpoint: on a dual-stack socket, where it arrives as `::ffff:a.b.c.d`,
`process_inner` sends its datagram to the endpoint, and on the XDP path a frame is transmitted to
the endpoint. -/
theorem sourceFilter_bypassed (d : Xdp.XdpDownstream) (contents : List UInt8) (ip : Ipv4Addr)
    (port : UInt16) (dest : Ipv4Addr) (destPort : UInt16) (free : Nat)
    (hend : d.hasEndpoints = true)
    (hread : ∀ source, d.read source contents =
      .ok (contents, [EndpointAddress.ofSocketAddr (.v4 dest destPort)]))
    (hsend : ∀ key, d.send key contents = .ok ())
    (hwrite : d.writeHeaders (.v4 dest destPort) = .ok ()) :
    (SocketAddr.v6 ip.toIpv6Mapped port 0 0).ip.toCanonical = .v4 ip ∧
      d.processInner contents (.v6 ip.toIpv6Mapped port 0 0) =
        ([⟨.v6 ip.toIpv6Mapped port 0 0, .v4 dest destPort⟩], .ok ()) ∧
      d.processClientPacket (.v4 ip port) contents free = .ok [.v4 dest destPort] := by
  refine ⟨Ipv4Addr.toCanonical_toIpv6Mapped ip, ?_, ?_⟩
  · -- the raw source passes the check, and the filters route the datagram
    have hallowed : disallowedSource (SocketAddr.v6 ip.toIpv6Mapped port 0 0).ip = false :=
      disallowedSource_toIpv6Mapped ip
    rw [Downstream.processInner_of_read_ok _ hend hallowed (hread _)]
    exact Downstream.sendAll_ofSocketAddr_v4 _ (hsend _)
  · -- no check: the one destination keeps the received frame
    rw [Xdp.XdpDownstream.processClientPacket, hread]
    simp only [List.reverse_cons, List.reverse_nil, List.nil_append, Xdp.XdpDownstream.transmitCopies,
      EndpointAddress.ofSocketAddr, EndpointAddress.toSocketAddr, SocketAddr.ip, SocketAddr.port,
      SocketAddr.ofIpPort, hwrite]

/-- A filter chain that routes every datagram to `10.0.0.1:7777`, a pool that accepts every send,
and headers that always fit. -/
def routeAll : Xdp.XdpDownstream where
  hasEndpoints := true
  read _ contents := .ok (contents, [EndpointAddress.ofSocketAddr (.v4 ⟨10, 0, 0, 1⟩ 7777)])
  resolve _ := .error "no such host"
  send _ _ := .ok ()
  writeHeaders _ := .ok ()

theorem sourceFilter_bypassed_loopback :
    disallowedSource (.v4 ⟨127, 0, 0, 1⟩) = true ∧
    (SocketAddr.v6 (Ipv4Addr.toIpv6Mapped ⟨127, 0, 0, 1⟩) 5000 0 0).ip.toCanonical =
        .v4 ⟨127, 0, 0, 1⟩ ∧
      routeAll.processInner [1, 2, 3] (.v6 (Ipv4Addr.toIpv6Mapped ⟨127, 0, 0, 1⟩) 5000 0 0) =
        ([⟨.v6 (Ipv4Addr.toIpv6Mapped ⟨127, 0, 0, 1⟩) 5000 0 0, .v4 ⟨10, 0, 0, 1⟩ 7777⟩], .ok ()) ∧
      routeAll.processClientPacket (.v4 ⟨127, 0, 0, 1⟩ 5000) [1, 2, 3] 0 =
        .ok [.v4 ⟨10, 0, 0, 1⟩ 7777] :=
  ⟨rfl, sourceFilter_bypassed routeAll [1, 2, 3] ⟨127, 0, 0, 1⟩ 5000 ⟨10, 0, 0, 1⟩ 7777 0 rfl
    (fun _ => rfl) (fun _ => rfl) rfl⟩

end Quilkin.Net
