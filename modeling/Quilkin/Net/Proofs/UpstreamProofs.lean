import Quilkin.Net.Upstream
import Quilkin.Net.Proofs.SessionPoolProofs
import Quilkin.Filters.Proofs.ChainProofs

/-!
# A server's reply goes back to the client of the session

The pool's invariant records each live session's client under the session's server and port, and
every such record belongs to a live session. So in every pool a run of `get` and removals leads
to, a reply from a server on a socket's port goes to the client of the live session with that
server on that port, and is dropped when there is none (`reply_routed`). And a datagram a client
sends through `get` comes back: the server's reply on the port `get` returned goes to that client
(`reply_returns_to_client`).
-/

namespace Quilkin.Net

open Filters

namespace SessionPool

variable {A : Type} (env : Env A) {pool pool' : SessionPool A} (svc : Services)
  (filters : FilterChain) (packet : List UInt8) (recvAddr : SocketAddr) (port : UInt16)

/-- `get` returns the port of the session the pool then holds for the key. -/
theorem get_live (hi : pool.Inv) {key : SessionKey} {asn : Option A} {port : UInt16}
    (h : pool.get env key = .ok ((asn, port), pool')) :
    ∃ s, pool'.sessionMap.lookup key = some s ∧ s.key = key ∧ s.socketPort = port := by
  -- every session `get` makes is made by `create_session_from_existing_socket`
  have hcreate : ∀ (P : SessionPool A) (port' : UInt16),
      createSessionFromExistingSocket env P key port' = ((asn, port), pool') →
      ∃ s, pool'.sessionMap.lookup key = some s ∧ s.key = key ∧ s.socketPort = port := by
    intro P port' hc
    have hport : port' = port := (Prod.mk.inj (Prod.mk.inj hc).1).2
    subst hport
    rw [← (Prod.mk.inj hc).2]
    exact ⟨_, live_create_new env, rfl, rfl⟩
  have hnew : ∀ P : SessionPool A, createNewSessionFromNewSocket env P key = .ok ((asn, port), pool') →
      ∃ s, pool'.sessionMap.lookup key = some s ∧ s.key = key ∧ s.socketPort = port := by
    intro P hc
    unfold createNewSessionFromNewSocket at hc
    cases hsock : env.newSocket P.portsToSockets with
    | error e =>
      rw [hsock] at hc
      cases hc
    | ok p =>
      rw [hsock] at hc
      exact hcreate _ _ (Except.ok.inj hc)
  unfold get at h
  split at h
  · -- the key has a session already
    rename_i entry hentry
    cases h
    exact ⟨entry, hentry, hi.key_eq _ _ hentry, rfl⟩
  · -- past the limit `get` fails; otherwise the session is on an allocated socket or a new one
    repeat' split at h
    all_goals first
      | exact hnew _ h
      | exact hcreate _ _ (Except.ok.inj h)
      | cases h

/-- A reply on the port of a live session with its server goes to the session's client. -/
theorem Inv.processReceivedUpstreamPacket_of_live (hi : pool.Inv) {s : Session A}
    (hs : pool.sessionMap.lookup s.key = some s)
    (hdest : s.key.dest = recvAddr.setIp recvAddr.ip.toCanonical) (hport : s.socketPort = port) :
    pool.processReceivedUpstreamPacket svc filters packet recvAddr port =
      some (processRecvPacket svc filters s.key.dest s.key.source packet) := by
  have hsrc := hi.source_eq s hs
  rw [hdest, hport] at hsrc
  rw [processReceivedUpstreamPacket, hsrc, Option.map_some, hdest]

/-- A reply on a port that no live session with its server holds is dropped. -/
theorem Inv.processReceivedUpstreamPacket_eq_none (hi : pool.Inv)
    (hnone : ∀ s, pool.sessionMap.lookup s.key = some s →
      s.key.dest = recvAddr.setIp recvAddr.ip.toCanonical → s.socketPort ≠ port) :
    pool.processReceivedUpstreamPacket svc filters packet recvAddr port = none := by
  rw [processReceivedUpstreamPacket]
  cases hsrc : pool.destinationToSources (recvAddr.setIp recvAddr.ip.toCanonical, port) with
  | none => rfl
  | some src =>
    -- the record belongs to a live session, with that server on that port
    obtain ⟨s, hs, hkey, hport⟩ := hi.source_live _ _ _ hsrc
    exact absurd hport (hnone s hs (by rw [hkey]))

/-- In every pool a run leads to, a reply from a server on a socket's port goes to the client of
the live session with that server on that port, through the filter chain, and is dropped when no
live session has that server and port. -/
theorem reply_routed (maxSessions : Nat) (ops : List Op) :
    let pool := (new maxSessions : SessionPool A).run env ops
    let server := recvAddr.setIp recvAddr.ip.toCanonical
    (∀ s, pool.sessionMap.lookup s.key = some s → s.key.dest = server → s.socketPort = port →
      pool.processReceivedUpstreamPacket svc filters packet recvAddr port =
        some (processRecvPacket svc filters server s.key.source packet)) ∧
    ((∀ s, pool.sessionMap.lookup s.key = some s → s.key.dest = server → s.socketPort ≠ port) →
      pool.processReceivedUpstreamPacket svc filters packet recvAddr port = none) := by
  intro pool server
  have hi : pool.Inv := ((inv_new maxSessions).run env ops).1
  refine ⟨fun s hs hdest hport => ?_,
    hi.processReceivedUpstreamPacket_eq_none svc filters packet recvAddr port⟩
  rw [hi.processReceivedUpstreamPacket_of_live svc filters packet recvAddr port hs hdest hport, hdest]

/-- A client's datagram comes back: after `get` gives the session of a client and a server a
port, the server's reply on that port goes to the client, through the filter chain. -/
theorem reply_returns_to_client (maxSessions : Nat) (ops : List Op) {key : SessionKey}
    {asn : Option A} {port : UInt16}
    (hget : ((new maxSessions : SessionPool A).run env ops).get env key = .ok ((asn, port), pool'))
    (hserver : recvAddr.setIp recvAddr.ip.toCanonical = key.dest) :
    pool'.processReceivedUpstreamPacket svc filters packet recvAddr port =
      some (processRecvPacket svc filters key.dest key.source packet) := by
  have hi : ((new maxSessions : SessionPool A).run env ops).Inv :=
    ((inv_new maxSessions).run env ops).1
  obtain ⟨s, hs, rfl, hport⟩ := get_live env hi hget
  have hs' : pool'.sessionMap.lookup s.key = some s := hs
  exact (hi.get env hget).processReceivedUpstreamPacket_of_live svc filters packet recvAddr port hs'
    hserver.symm hport

/-- The surroundings of the example: ports listed in the order they were allocated in, a new
socket on port `5000` unless that one is taken, and no GeoIP entry. -/
def port5000Env : Env Unit where
  iterOrder := id
  iterOrder_perm _ := List.Perm.refl _
  newSocket ports := if (5000 : UInt16) ∈ ports then .error (.session "port taken") else .ok 5000
  newSocket_fresh := by
    intro ports port h
    split at h
    · cases h
    · cases h
      assumption
  lookup _ := none

/-- A client at `192.168.0.1:5000` and a server at `10.0.0.1:7000`. -/
def firstKey : SessionKey := ⟨.v4 ⟨192, 168, 0, 1⟩ 5000, .v4 ⟨10, 0, 0, 1⟩ 7000⟩

theorem reply_returns_to_client_firstKey :
    ∃ pool', ((new 10 : SessionPool Unit).run port5000Env []).get port5000Env firstKey =
        .ok ((none, 5000), pool') ∧
      (SocketAddr.v4 ⟨10, 0, 0, 1⟩ 7000).setIp (SocketAddr.v4 ⟨10, 0, 0, 1⟩ 7000).ip.toCanonical =
        firstKey.dest ∧
      pool'.processReceivedUpstreamPacket Services.sample ⟨[]⟩ [1] (.v4 ⟨10, 0, 0, 1⟩ 7000) 5000 =
        some (processRecvPacket Services.sample ⟨[]⟩ firstKey.dest firstKey.source [1]) := by
  obtain ⟨pool', hget⟩ : ∃ pool', ((new 10 : SessionPool Unit).run port5000Env []).get port5000Env
      firstKey = .ok ((none, 5000), pool') := ⟨_, rfl⟩
  have hserver : (SocketAddr.v4 ⟨10, 0, 0, 1⟩ 7000).setIp (SocketAddr.v4 ⟨10, 0, 0, 1⟩ 7000).ip.toCanonical =
      firstKey.dest := rfl
  exact ⟨pool', hget, hserver,
    reply_returns_to_client port5000Env Services.sample ⟨[]⟩ [1] _ 10 [] hget hserver⟩

end SessionPool

end Quilkin.Net
