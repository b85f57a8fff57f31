import Quilkin.Xds.Delta
import Quilkin.Net.Proofs.ClusterProofs

/-!
# Proofs: what the delta exchange removes on the client

The client drops a locality only when a response names it in `removed_resources`, and the server
names no locality there but `""`, the endpoints without one
(`mem_removed_deltaDiscoveryRequest`). So along every run of the exchange no response in flight
names a locality removed, and a locality the client holds it holds for ever, whatever becomes of
it on the server (`named_locality_never_removed`).
-/

namespace Quilkin.Xds

open Net

/-! ## The server -/

theorem mem_removed_deltaDiscoveryRequest {clusters : ClusterMap} {cs : ClientState} {n : String}
    (h : n ∈ (deltaDiscoveryRequest clusters cs).removed) : n = "" := by
  unfold deltaDiscoveryRequest at h
  dsimp only at h
  split_ifs at h
  · exact List.mem_singleton.mp h
  · cases h

theorem needsAck_ok {t t' : ClientTracker} {ack : AwaitingAck} {nonce : Nat}
    (h : t.needsAck ack nonce = .ok t') : t' = { t with ackMap := t.ackMap.insert nonce ack } := by
  unfold ClientTracker.needsAck at h
  split at h
  · cases h
  · cases h
    rfl

/-- A response of the responder is the delta of the client's state, as the request left it,
under the nonce the responder was given. -/
theorem responder_sent {clusters : ClusterMap} {t t' : ClientTracker}
    {req : Option DeltaDiscoveryRequest} {nonce : Nat} {r : DeltaDiscoveryResponse}
    (h : responder clusters t req nonce = (t', .ok (some r))) :
    ∃ cs, t'.state = some cs ∧
      r = ⟨(deltaDiscoveryRequest clusters cs).resources, nonce,
        (deltaDiscoveryRequest clusters cs).removed⟩ := by
  unfold responder at h
  dsimp only at h
  split at h
  · cases h
  · rename_i cs _
    split_ifs at h
    · cases h
    · split at h
      · rename_i t'' hack
        simp only [Prod.mk.injEq, Except.ok.injEq, Option.some.injEq] at h
        obtain ⟨rfl, rfl⟩ := h
        refine ⟨cs, ?_, rfl⟩
        rw [needsAck_ok hack]
      · cases h

/-! ## The client -/

section Client

variable (gx : GxHash) (remoteAddr : Option IpAddr)

/-- Removing only `""` leaves every named locality's set where it was. -/
theorem lookup_removeLocalities {names : List String} (hn : ∀ n ∈ names, n = "")
    (clusters : ClusterMap) (L : Locality) :
    (removeLocalities remoteAddr clusters names).1.map.lookup (some L) =
      clusters.map.lookup (some L) := by
  induction names generalizing clusters with
  | nil => rfl
  | cons n names ih =>
    have hn' : n = "" := hn n List.mem_cons_self
    subst hn'
    have hrest : ∀ n ∈ names, n = "" := fun n h => hn n (List.mem_cons_of_mem _ h)
    rw [removeLocalities, if_pos (by decide), ih hrest,
      ClusterMap.lookup_removeLocality_ne _ _ (Option.some_ne_none L)]

/-- Applying resources never takes a locality's set away. -/
theorem isSome_lookup_applyResources (rs : List Resource) {clusters : ClusterMap}
    {l : Option Locality} (h : (clusters.map.lookup l).isSome) :
    ((applyResources gx remoteAddr clusters rs).1.map.lookup l).isSome := by
  induction rs generalizing clusters with
  | nil => exact h
  | cons res rs ih =>
    unfold applyResources
    split
    · exact h
    · split
      · exact h
      · apply ih
        split
        · rename_i clusters' happly
          exact ClusterMap.isSome_lookup_apply happly h
        · exact h

/-- A response that removes only `""` leaves the client every named locality it holds. -/
theorem isSome_lookup_handle {c : Client} {r : DeltaDiscoveryResponse}
    (hn : ∀ n ∈ r.removedResources, n = "") {L : Locality}
    (h : (c.clusters.map.lookup (some L)).isSome) :
    ((c.handle gx remoteAddr r).1.clusters.map.lookup (some L)).isSome := by
  have hremoved := lookup_removeLocalities remoteAddr hn c.clusters L
  unfold Client.handle applyDelta
  rcases hrem : removeLocalities remoteAddr c.clusters r.removedResources with ⟨clusters, _ | err⟩
  all_goals rw [hrem] at hremoved
  · exact isSome_lookup_applyResources gx remoteAddr _ (hremoved ▸ h)
  · exact hremoved ▸ h

end Client

/-! ## Steps of the exchange -/

namespace Exchange

variable {gx : GxHash} {remoteAddr : Option IpAddr} {e e' : Exchange} {ev : Event}

@[simp] theorem server_sent (e : Exchange) (t : ClientTracker) (r : Option DeltaDiscoveryResponse) :
    (e.sent t r).server = e.server := by
  cases r <;> rfl

@[simp] theorem client_sent (e : Exchange) (t : ClientTracker) (r : Option DeltaDiscoveryResponse) :
    (e.sent t r).client = e.client := by
  cases r <;> rfl

theorem toClient_sent (e : Exchange) (t : ClientTracker) (r : Option DeltaDiscoveryResponse) :
    (e.sent t r).toClient = e.toClient ++ r.toList := by
  cases r <;> simp [sent]

/-- After the responder has run, a response in flight was in flight before or is the one it
produced. -/
theorem mem_toClient_sent {req : Option DeltaDiscoveryRequest} {t : ClientTracker}
    {res : Option DeltaDiscoveryResponse}
    (hresp : responder e.server e.tracker req e.nonce = (t, .ok res)) {r : DeltaDiscoveryResponse}
    (hr : r ∈ (e.sent t res).toClient) :
    r ∈ e.toClient ∨ ∃ t req, responder e.server e.tracker req e.nonce = (t, .ok (some r)) := by
  rw [toClient_sent, List.mem_append] at hr
  rcases hr with hr | hr
  · exact .inl hr
  · cases res with
    | none => cases hr
    | some r' =>
      have hr' : r = r' := by simpa using hr
      subst hr'
      exact .inr ⟨t, req, hresp⟩

/-- What a step does to the client and to the responses in flight: the client is left alone or
takes a response that was in flight, and a response in flight afterwards was in flight before or
comes from the responder, run on the server's map. -/
theorem step_spec (h : e.step gx remoteAddr ev = some e') :
    (e'.client = e.client ∨ ∃ r ∈ e.toClient, e'.client = (e.client.handle gx remoteAddr r).1) ∧
    ∀ r ∈ e'.toClient, r ∈ e.toClient ∨
      ∃ t req, responder e.server e.tracker req e.nonce = (t, .ok (some r)) := by
  cases ev with
  | change op =>
    simp only [step, Option.some.injEq] at h
    subst h
    exact ⟨.inl rfl, fun r hr => .inl hr⟩
  | tick =>
    rcases hresp : responder e.server e.tracker none e.nonce with ⟨t, res⟩
    simp only [step, hresp, Option.some.injEq] at h
    subst h
    refine ⟨.inl (client_sent _ _ _), fun r hr => ?_⟩
    cases res with
    | ok res => exact mem_toClient_sent hresp hr
    | error err => exact .inl hr
  | serverReceive =>
    cases hq : e.toServer with
    | nil => simp only [step, hq, reduceCtorEq] at h
    | cons req rest =>
      simp only [step, hq] at h
      split at h
      · -- an ACK
        cases h
        exact ⟨.inl rfl, fun r hr => .inl hr⟩
      · rcases hresp : responder e.server e.tracker (some req) e.nonce with ⟨t, res⟩
        simp only [hresp] at h
        cases res with
        | ok res =>
          simp only [Option.some.injEq] at h
          subst h
          exact ⟨.inl (client_sent _ _ _),
            fun r hr => mem_toClient_sent (e := { e with toServer := rest }) hresp hr⟩
        | error err => cases h
  | clientReceive =>
    cases hq : e.toClient with
    | nil => simp only [step, hq, reduceCtorEq] at h
    | cons resp rest =>
      simp only [step, hq, Option.some.injEq] at h
      subst h
      exact ⟨.inr ⟨resp, List.mem_cons_self, rfl⟩, fun r hr => .inl (List.mem_cons_of_mem _ hr)⟩
  | refresh =>
    simp only [step, Option.some.injEq] at h
    subst h
    exact ⟨.inl rfl, fun r hr => .inl hr⟩
  | connect =>
    simp only [step, Option.some.injEq] at h
    subst h
    exact ⟨.inl rfl, fun r hr => by cases hr⟩

/-! ## Runs -/

/-- No response in flight names a locality removed: only `""`, the endpoints without one. -/
def RemovesUnlocatedOnly (e : Exchange) : Prop :=
  ∀ r ∈ e.toClient, ∀ n ∈ r.removedResources, n = ""

theorem removesUnlocatedOnly_init (server : ClusterMap) (client : Client) :
    (init server client).RemovesUnlocatedOnly := by
  intro r hr
  cases hr

theorem removesUnlocatedOnly_step (he : e.RemovesUnlocatedOnly)
    (h : e.step gx remoteAddr ev = some e') : e'.RemovesUnlocatedOnly := by
  intro r hr n hn
  rcases (step_spec h).2 r hr with hr | ⟨t, req, hresp⟩
  · exact he r hr n hn
  · -- a new response carries the removed names of a delta
    obtain ⟨cs, -, rfl⟩ := responder_sent hresp
    exact mem_removed_deltaDiscoveryRequest hn

/-- While no response in flight names a locality removed, a step leaves the client every named
locality it holds. -/
theorem held_step (he : e.RemovesUnlocatedOnly) (h : e.step gx remoteAddr ev = some e')
    {L : Locality} (hL : (e.client.clusters.map.lookup (some L)).isSome) :
    (e'.client.clusters.map.lookup (some L)).isSome := by
  rcases (step_spec h).1 with hc | ⟨r, hr, hc⟩
  · rw [hc]
    exact hL
  · rw [hc]
    exact isSome_lookup_handle gx remoteAddr (he r hr) hL

variable (gx remoteAddr) in
/-- The server reports no named locality removed, in any run, so a locality the client holds it
holds for ever: removed from the server's map, it stays on the client. -/
theorem named_locality_never_removed (server : ClusterMap) (client : Client) (L : Locality)
    {events events' : List Event} {e e' : Exchange}
    (h : (init server client).run gx remoteAddr events = some e)
    (hheld : (e.client.clusters.map.lookup (some L)).isSome)
    (h' : e.run gx remoteAddr events' = some e') :
    (∀ r ∈ e'.toClient, ∀ n ∈ r.removedResources, n = "") ∧
      (e'.client.clusters.map.lookup (some L)).isSome := by
  have he : e.RemovesUnlocatedOnly :=
    StepRun.exec_invariant _ (fun _ _ _ hs hstep => removesUnlocatedOnly_step hs hstep) h
      (removesUnlocatedOnly_init server client)
  -- the invariant and the held locality go along the second run together
  exact StepRun.exec_invariant
    (fun e => e.RemovesUnlocatedOnly ∧ (e.client.clusters.map.lookup (some L)).isSome)
    (fun _ _ _ hs hstep => ⟨removesUnlocatedOnly_step hs.1 hstep, held_step hs.1 hstep hs.2⟩)
    h' ⟨he, hheld⟩

end Exchange

/-- A hash for the run below: a token's first byte, and one more than a set's number of
endpoints. -/
def countHash : GxHash :=
  ⟨fun tok => (tok.headD 0).toUInt64, fun entries => entries.length.toUInt64 + 1⟩

/-- The locality `us`. -/
def us : Locality := Locality.new "us" "" ""

/-- The server gets `eu`, and a new stream brings it to the client, which acknowledges it. -/
def deliverEu : List Event :=
  [.change (.insert none (some eu) [endpointA]), .connect, .serverReceive, .clientReceive,
    .serverReceive]

/-- The server drops `eu` and adds `us`; a tick brings the change to the client, which
acknowledges it. -/
def replaceEuByUs : List Event :=
  [.change (.removeLocality none (some eu)), .change (.insert none (some us) [endpointB]), .tick,
    .clientReceive, .serverReceive]

/-- After `deliverEu` the client holds `eu`. After `replaceEuByUs` the server no longer has it;
the client has applied and acknowledged the response computed from that map, and nothing is left
in flight or awaiting an ACK. The client still holds `eu`. -/
theorem named_locality_never_removed_eu :
    ∃ e e', (Exchange.init ClusterMap.new ⟨ClusterMap.new, ∅⟩).run countHash none deliverEu =
        some e ∧
      (e.client.clusters.map.lookup (some eu)).isSome ∧
      e.run countHash none replaceEuByUs = some e' ∧
      (e'.server.map.lookup (some eu)).isNone ∧ (e'.client.clusters.map.lookup (some us)).isSome ∧
      e'.toClient = [] ∧ e'.toServer = [] ∧ e'.tracker.ackMap.entries = [] ∧
      (e'.client.clusters.map.lookup (some eu)).isSome :=
  ⟨_, _, rfl, rfl, rfl, rfl, rfl, rfl, rfl, rfl,
    (@Exchange.named_locality_never_removed countHash none ClusterMap.new ⟨ClusterMap.new, ∅⟩ eu
      deliverEu replaceEuByUs _ _ rfl rfl rfl).2⟩

end Quilkin.Xds
