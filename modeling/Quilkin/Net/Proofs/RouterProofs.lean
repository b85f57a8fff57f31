import Quilkin.Net.Router
import Quilkin.Net.Proofs.PipelineProofs
import Quilkin.Filters.Proofs.ChainProofs
import Quilkin.Net.Proofs.ClusterProofs

/-!
# A worker's destinations from one datagram to the next

A worker's datagram goes through the worker's filter chain, read from the worker's state. A
datagram that passes the chain is sent to every destination the chain leaves, and the chain leaves
every destination the worker's vector held before it (`sendAll_of_ok`, `FilterChain.read_extends`).
The sends empty the vector; a datagram dropped before the filters or refused by them leaves it as it
was or as the chain left it, and so does any run of such datagrams (`run_keeps_of_refused`). So the
destinations that a filter pushed for a datagram that a later filter refused are sent the next
datagram that passes, whoever sent it (`run_sends_stale`).
-/

namespace Quilkin.Net

open Filters

namespace Downstream

variable (d : Downstream) {source : SocketAddr} {contents : List UInt8} {keys : List SessionKey}

/-- Sends that all succeed reach every destination. -/
theorem sendAll_of_ok {dests : List EndpointAddress}
    (h : d.sendAll source contents dests = (keys, .ok ())) :
    ∀ a ∈ dests, ∃ dest, a.toSocketAddr d.resolve = .ok dest ∧ ⟨source, dest⟩ ∈ keys := by
  induction dests generalizing keys with
  | nil => exact fun a ha => absurd ha List.not_mem_nil
  | cons epa rest ih =>
    intro a ha
    simp only [sendAll] at h
    split at h
    · cases h
    · rename_i dest hdest
      split at h
      · cases h
      · obtain ⟨keys', hrest, rfl⟩ : ∃ keys', d.sendAll source contents rest = (keys', .ok ()) ∧
            keys = ⟨source, dest⟩ :: keys' := by
          revert h
          cases d.sendAll source contents rest with
          | mk keys' result =>
            intro h
            cases h
            exact ⟨keys', rfl, rfl⟩
        rcases List.mem_cons.mp ha with rfl | ha
        · exact ⟨dest, hdest, List.mem_cons_self⟩
        · obtain ⟨dest', hdest', hmem⟩ := ih hrest a ha
          exact ⟨dest', hdest', List.mem_cons_of_mem _ hmem⟩

/-- The sends fail with the resolver's error or the session pool's: never one of the errors
`process_inner` returns before sending. -/
theorem sendAll_not_refused (dests : List EndpointAddress) :
    refusedBeforeSend (d.sendAll source contents dests).2 = false := by
  induction dests with
  | nil => rfl
  | cons epa rest ih =>
    simp only [sendAll]
    split
    · rfl
    · split
      · rfl
      · exact ih

end Downstream

namespace Router

variable {svc : Services} {send : SessionKey → List UInt8 → Except String Unit} {r r' : Router}
  {clusters : ClusterMap} {nowSecs : UInt64} {contents : List UInt8} {source : SocketAddr}
  {keys : List SessionKey} {result : Except PipelineError Unit}

/-- All a datagram can do to a worker: be dropped before the filters, leaving the worker as it
was; be refused by the chain, leaving the destinations the chain left; or pass, and be sent to
every destination the chain left, which empties the vector. -/
theorem processInner_eq_some
    (h : r.processInner svc send clusters nowSecs contents source = some (r', keys, result)) :
    (r' = r ∧ keys = [] ∧ (clusters.hasEndpoints = false ∨ disallowedSource source.ip = true)) ∨
    (clusters.hasEndpoints = true ∧ disallowedSource source.ip = false ∧
      ∃ filters ctx e, r.filters.read svc nowSecs (r.context clusters contents source) =
        some (filters, ctx, .error e) ∧ r' = ⟨filters, ctx.destinations⟩ ∧ keys = [] ∧
        result = .error (.filter e.toString)) ∨
    (clusters.hasEndpoints = true ∧ disallowedSource source.ip = false ∧
      ∃ filters ctx, r.filters.read svc nowSecs (r.context clusters contents source) =
        some (filters, ctx, .ok ()) ∧ r' = ⟨filters, []⟩ ∧
        (keys, result) = Downstream.sendAll
          ⟨clusters.hasEndpoints, fun _ _ => .ok (ctx.contents, ctx.destinations), svc.resolve, send⟩
          source ctx.contents ctx.destinations) := by
  unfold processInner at h
  by_cases hend : clusters.hasEndpoints = true
  · by_cases hdis : disallowedSource source.ip = true
    · rw [if_neg (by simp [hend]), if_pos hdis] at h
      cases h
      exact .inl ⟨rfl, rfl, .inr hdis⟩
    · have hdis' : disallowedSource source.ip = false := by simpa using hdis
      rw [if_neg (by simp [hend]), if_neg hdis] at h
      obtain ⟨⟨filters, ctx, res⟩, hread, h⟩ := Option.map_eq_some_iff.mp h
      cases res with
      | error e =>
        cases h
        exact .inr (.inl ⟨hend, hdis', filters, ctx, e, hread, rfl, rfl, rfl⟩)
      | ok u =>
        cases u
        dsimp only at h
        refine .inr (.inr ⟨hend, hdis', filters, ctx, hread, ?_⟩)
        revert h
        cases Downstream.sendAll _ source ctx.contents ctx.destinations with
        | mk keys' result' =>
          intro h
          cases h
          exact ⟨rfl, rfl⟩
  · rw [if_pos (by simpa using hend)] at h
    cases h
    exact .inl ⟨rfl, rfl, .inl (by simpa using hend)⟩

/-- A datagram that passes is sent to every destination the worker's vector held when it
arrived. -/
theorem processInner_sends_held
    (h : r.processInner svc send clusters nowSecs contents source = some (r', keys, .ok ())) :
    ∀ a ∈ r.destinations, ∃ dest, a.toSocketAddr svc.resolve = .ok dest ∧ ⟨source, dest⟩ ∈ keys := by
  intro a ha
  rcases processInner_eq_some h with ⟨-, -, hdrop⟩ | ⟨-, -, _, _, _, -, -, -, herr⟩ |
    ⟨-, -, filters, ctx, hread, -, hsend⟩
  · -- a dropped datagram is an error
    revert h
    unfold processInner
    rcases hdrop with hend | hdis
    · simp [hend]
    · by_cases hend : clusters.hasEndpoints = true <;> simp [hend, hdis]
  · cases herr
  · have hext := FilterChain.read_extends svc nowSecs hread
    obtain ⟨dest, hdest, hmem⟩ :=
      Downstream.sendAll_of_ok _ hsend.symm a (hext.destinations.subset ha)
    exact ⟨dest, hdest, hmem⟩

/-- A datagram the chain refuses leaves in the worker's vector every destination the chain
pushed for it. -/
theorem processInner_keeps_of_filter_error {e : String}
    (h : r.processInner svc send clusters nowSecs contents source =
      some (r', keys, .error (.filter e))) :
    ∃ filters ctx e', r.filters.read svc nowSecs (r.context clusters contents source) =
      some (filters, ctx, .error e') ∧ r'.destinations = ctx.destinations := by
  rcases processInner_eq_some h with ⟨-, -, hdrop⟩ | ⟨-, -, filters, ctx, e', hread, rfl, -, -⟩ |
    ⟨-, -, filters, ctx, hread, -, hsend⟩
  · revert h
    unfold processInner
    rcases hdrop with hend | hdis
    · simp [hend]
    · by_cases hend : clusters.hasEndpoints = true <;> simp [hend, hdis]
  · exact ⟨filters, ctx, e', hread, rfl⟩
  · -- the sends fail with the resolver's or the pool's error, not a filter's
    have hsends : refusedBeforeSend (keys, Except.error (PipelineError.filter e)).2 = false := by
      rw [hsend]
      exact Downstream.sendAll_not_refused _ _
    cases hsends

/-- A datagram dropped before the filters or refused by them leaves in the worker's vector every
destination it held. -/
theorem processInner_keeps_of_refused
    (h : r.processInner svc send clusters nowSecs contents source = some (r', keys, result))
    (hrefused : refusedBeforeSend result = true) :
    r.destinations <+: r'.destinations := by
  rcases processInner_eq_some h with ⟨rfl, -, -⟩ | ⟨-, -, filters, ctx, e, hread, rfl, -, -⟩ |
    ⟨-, -, filters, ctx, hread, -, hsend⟩
  · exact List.prefix_refl _
  · exact (FilterChain.read_extends svc nowSecs hread).destinations
  · have hsends : refusedBeforeSend (keys, result).2 = false := by
      rw [hsend]
      exact Downstream.sendAll_not_refused _ _
    rw [hrefused] at hsends
    cases hsends

/-! ## Fixtures of the examples

Two endpoints, two clients, and a chain that balances a datagram and then refuses it when it is
empty. -/

/-- The map `{10.0.0.1:7000, 10.0.0.2:7000}`, listed from the second. -/
def twoEndpoints : ClusterMap := ClusterMap.new.insert firstByteHash none none [endpointA, endpointB]

/-- A client at `192.168.0.1:5000`. -/
def clientA : SocketAddr := .v4 ⟨192, 168, 0, 1⟩ 5000

/-- A client at `192.168.0.2:5000`. -/
def clientB : SocketAddr := .v4 ⟨192, 168, 0, 2⟩ 5000

/-- A round robin load balancer at `count`, then a capture of the last byte, which refuses an
empty datagram. -/
def balanceThenCapture (count : UInt64) : FilterChain :=
  ⟨[.loadBalancer ⟨.roundRobin count⟩, .capture (Capture.new ⟨"token", .ofSuffix ⟨1, false⟩⟩)]⟩

/-! ## Runs -/

/-- A run's first datagram is processed from the worker's state, the rest from the state it
leaves. -/
theorem run_cons_eq_some {p : Datagram} {ps : List Datagram}
    {outs : List (List SessionKey × Except PipelineError Unit)}
    (h : r.run svc send (p :: ps) = some (outs, r')) :
    ∃ r₀ keys result outs', r.processInner svc send p.clusters p.nowSecs p.contents p.source =
      some (r₀, keys, result) ∧ r₀.run svc send ps = some (outs', r') ∧ outs = (keys, result) :: outs' := by
  obtain ⟨⟨r₀, keys, result⟩, hstep, hrest⟩ := Option.bind_eq_some_iff.mp h
  obtain ⟨⟨outs', r''⟩, hrun, hout⟩ := Option.map_eq_some_iff.mp hrest
  cases hout
  exact ⟨r₀, keys, result, outs', hstep, hrun, rfl⟩

/-- A run of datagrams each dropped before the filters or refused by them leaves in the worker's
vector every destination it held. -/
theorem run_keeps_of_refused {ps : List Datagram} {outs : List (List SessionKey × Except PipelineError Unit)}
    (h : r.run svc send ps = some (outs, r')) (hrefused : ∀ o ∈ outs, refusedBeforeSend o.2 = true) :
    r.destinations <+: r'.destinations := by
  induction ps generalizing r outs with
  | nil =>
    cases h
    exact List.prefix_refl _
  | cons p ps ih =>
    obtain ⟨r₀, keys, result, outs', hstep, hrun, rfl⟩ := run_cons_eq_some h
    have hfirst := processInner_keeps_of_refused hstep (hrefused _ List.mem_cons_self)
    exact hfirst.trans (ih hrun fun o ho => hrefused o (List.mem_cons_of_mem _ ho))

/-- In a worker's run, the destinations pushed for a datagram that a filter refused are sent the
next datagram that passes, from whichever client it comes, however many datagrams were dropped or
refused in between. -/
theorem run_sends_stale {r₁ r₂ : Router} {p₀ p : Datagram} {ps : List Datagram}
    {keys₀ keys : List SessionKey} {outs : List (List SessionKey × Except PipelineError Unit)}
    {e : String}
    (hrun : r.run svc send (p₀ :: ps) = some ((keys₀, .error (.filter e)) :: outs, r₁))
    (hrefused : ∀ o ∈ outs, refusedBeforeSend o.2 = true)
    (hpass : r₁.processInner svc send p.clusters p.nowSecs p.contents p.source = some (r₂, keys, .ok ())) :
    ∃ filters ctx e', r.filters.read svc p₀.nowSecs (r.context p₀.clusters p₀.contents p₀.source) =
      some (filters, ctx, .error e') ∧
      ∀ a ∈ ctx.destinations, ∃ dest, a.toSocketAddr svc.resolve = .ok dest ∧ ⟨p.source, dest⟩ ∈ keys := by
  obtain ⟨r₀, keys', result, outs', hstep, hrest, hout⟩ := run_cons_eq_some hrun
  simp only [List.cons.injEq, Prod.mk.injEq] at hout
  obtain ⟨⟨-, rfl⟩, rfl⟩ := hout
  obtain ⟨filters, ctx, e', hread, hdests⟩ := processInner_keeps_of_filter_error hstep
  have hkept := run_keeps_of_refused hrest hrefused
  refine ⟨filters, ctx, e', hread, fun a ha => processInner_sends_held hpass a ?_⟩
  exact hkept.subset (hdests ▸ ha)

theorem run_sends_stale_clientB :
    (Router.mk (balanceThenCapture 0) []).run Services.sample (fun _ _ => .ok ())
        [⟨twoEndpoints, 0, [], clientA⟩] =
      some ([([], .error (.filter "no value captured"))], ⟨balanceThenCapture 1, [endpointB.address]⟩) ∧
    (Router.mk (balanceThenCapture 1) [endpointB.address]).processInner Services.sample
        (fun _ _ => .ok ()) twoEndpoints 0 [7] clientB =
      some (⟨balanceThenCapture 2, []⟩,
        [⟨clientB, .v4 ⟨10, 0, 0, 2⟩ 7000⟩, ⟨clientB, .v4 ⟨10, 0, 0, 1⟩ 7000⟩], .ok ()) ∧
    ∃ filters ctx e', (balanceThenCapture 0).read Services.sample 0
        ((Router.mk (balanceThenCapture 0) []).context twoEndpoints [] clientA) =
        some (filters, ctx, .error e') ∧
      ∀ a ∈ ctx.destinations, ∃ dest, a.toSocketAddr Services.sample.resolve = .ok dest ∧
        (⟨clientB, dest⟩ : SessionKey) ∈
          [⟨clientB, .v4 ⟨10, 0, 0, 2⟩ 7000⟩, ⟨clientB, .v4 ⟨10, 0, 0, 1⟩ 7000⟩] := by
  -- an empty datagram from `clientA` is refused after the load balancer pushed `10.0.0.2:7000`
  have hfirst : (Router.mk (balanceThenCapture 0) []).processInner Services.sample (fun _ _ => .ok ())
      twoEndpoints 0 [] clientA =
      some (⟨balanceThenCapture 1, [endpointB.address]⟩, [], .error (.filter "no value captured")) := by
    simp only [processInner, context, FilterChain.read, readFilters, FilterKind.read, balanceThenCapture]
    rfl
  have hrun : (Router.mk (balanceThenCapture 0) []).run Services.sample (fun _ _ => .ok ())
      [⟨twoEndpoints, 0, [], clientA⟩] =
      some ([([], .error (.filter "no value captured"))], ⟨balanceThenCapture 1, [endpointB.address]⟩) := by
    simp only [run, hfirst, Option.bind_some, Option.map_some]
  -- the next datagram, from `clientB`, also goes to the endpoint chosen for it, `10.0.0.1:7000`
  have hpass : (Router.mk (balanceThenCapture 1) [endpointB.address]).processInner Services.sample
      (fun _ _ => .ok ()) twoEndpoints 0 [7] clientB =
      some (⟨balanceThenCapture 2, []⟩,
        [⟨clientB, .v4 ⟨10, 0, 0, 2⟩ 7000⟩, ⟨clientB, .v4 ⟨10, 0, 0, 1⟩ 7000⟩], .ok ()) := by
    simp only [processInner, context, FilterChain.read, readFilters, FilterKind.read, balanceThenCapture]
    rfl
  exact ⟨hrun, hpass, run_sends_stale (p := ⟨twoEndpoints, 0, [7], clientB⟩) hrun
    (fun _ h => absurd h List.not_mem_nil) hpass⟩

end Router

end Quilkin.Net
