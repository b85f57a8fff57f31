import Quilkin.Filters.LoadBalancer
import Quilkin.Net.Proofs.ClusterCountProofs

/-!
# Proofs: the load balancer

`nth_endpoint` walks the sets and finds an endpoint at every index below their number of
endpoints, and none from there on. So a chooser pushes one endpoint of the map whenever the
counter it divides by is that number and is not zero: along every run whose batches fit an `i32`,
while the map has fewer than `2 ^ 64` endpoints, once `has_endpoints` holds (`read_pushes_of_run`).
The socket path checks `has_endpoints` before the filters run; the XDP path does not, and every
chooser panics on the empty map every run starts from. Past a batch of `2 ^ 31` new endpoints the
counter no longer counts, the check passes, and round robin panics as well (`read_panics`).
-/

namespace Quilkin.Net

namespace ClusterMap

/-- Some locality's set has an endpoint at the address. -/
def HasAddress (m : ClusterMap) (a : EndpointAddress) : Prop :=
  ∃ l set md, m.map.lookup l = some set ∧ set.endpoints.lookup a = some md

/-- Below the number of endpoints of the sets, the walk ends in an endpoint of one of them. -/
theorem nthEndpointIn_lt {l : List (Sigma fun _ : Option Locality => EndpointSet)} {index : ℕ}
    (h : index < (l.map fun s => s.2.len).sum) :
    ∃ s ∈ l, ∃ e ∈ s.2.endpoints.entries, nthEndpointIn l index = some ⟨e.1, e.2⟩ := by
  induction l generalizing index with
  | nil => simp at h
  | cons s rest ih =>
    rw [List.map_cons, List.sum_cons] at h
    by_cases hi : index < s.2.len
    · have hlt : index < s.2.endpoints.entries.length := hi
      refine ⟨s, List.mem_cons_self, s.2.endpoints.entries[index], List.getElem_mem hlt, ?_⟩
      rw [nthEndpointIn, if_pos hi, List.getElem?_eq_getElem hlt, Option.map_some]
    · obtain ⟨s', hs', e, he, hnth⟩ :=
        ih (show index - s.2.len < (rest.map fun s => s.2.len).sum by omega)
      exact ⟨s', List.mem_cons_of_mem s hs', e, he, by rw [nthEndpointIn, if_neg hi, hnth]⟩

/-- From the number of endpoints of the sets on, the walk finds nothing. -/
theorem nthEndpointIn_of_le {l : List (Sigma fun _ : Option Locality => EndpointSet)} {index : ℕ}
    (h : (l.map fun s => s.2.len).sum ≤ index) : nthEndpointIn l index = none := by
  induction l generalizing index with
  | nil => rfl
  | cons s rest ih =>
    rw [List.map_cons, List.sum_cons] at h
    rw [nthEndpointIn, if_neg (by omega)]
    exact ih (by omega)

theorem nthEndpoint_lt {m : ClusterMap} {index : ℕ} (h : index < m.total) :
    ∃ ep, m.nthEndpoint index = some ep ∧ m.HasAddress ep.address := by
  obtain ⟨s, hs, e, he, hnth⟩ := nthEndpointIn_lt h
  exact ⟨⟨e.1, e.2⟩, hnth, s.1, s.2, e.2, AList.mem_lookup_iff.mpr hs,
    AList.mem_lookup_iff.mpr he⟩

theorem nthEndpoint_of_le {m : ClusterMap} {index : ℕ} (h : m.total ≤ index) :
    m.nthEndpoint index = none :=
  nthEndpointIn_of_le h

/-- While the sets hold fewer than `2 ^ 64` endpoints, a counter that counts them modulo `2 ^ 64`
holds their number. -/
theorem toNat_numOfEndpoints {m : ClusterMap} (hc : m.Counted) (hlt : m.total < 2 ^ 64) :
    m.numOfEndpoints.toNat = m.total := by
  rw [numOfEndpoints, hc, Nat.toUInt64_eq, UInt64.toNat_ofNat', Nat.mod_eq_of_lt hlt]

end ClusterMap

end Quilkin.Net

namespace Quilkin.Filters

open Net

variable {m : ClusterMap}

/-- An index the chooser computes, below the number of endpoints: the `unwrap` succeeds and one
address of an endpoint of the map is pushed. -/
theorem bind_pushNth {α : Type} (dests : List EndpointAddress) {o : Option UInt64} {index : UInt64}
    (hidx : o = some index) (h : index.toNat < m.total) (k : List EndpointAddress → α) :
    ∃ a, (do let i ← o; let d ← pushNth dests m i; pure (k d)) = some (k (dests ++ [a])) ∧
      m.HasAddress a := by
  obtain ⟨ep, hnth, ha⟩ := ClusterMap.nthEndpoint_lt h
  refine ⟨ep.address, ?_, ha⟩
  simp only [hidx, pushNth, hnth, Option.map_some, Option.bind_eq_bind, Option.bind_some]
  rfl

theorem remUsize_lt (a : UInt64) {n : UInt64} (hn : n ≠ 0) :
    ∃ index, remUsize a n = some index ∧ index.toNat < n.toNat := by
  refine ⟨a % n, if_neg hn, ?_⟩
  rw [UInt64.toNat_mod]
  exact Nat.mod_lt _ (UInt64.lt_iff_toNat_lt.mp (UInt64.pos_iff_ne_zero.mpr hn))

theorem randomRange_lt (e : Entropy) {n : UInt64} (hn : n ≠ 0) :
    ∃ index, e.randomRange n = some index ∧ index.toNat < n.toNat := by
  have hpos : 0 < n := UInt64.pos_iff_ne_zero.mpr hn
  exact ⟨e.sample n, if_neg hn, UInt64.lt_iff_toNat_lt.mp (e.sample_lt n hpos)⟩

/-- Whichever the chooser, on a map whose counter holds its number of endpoints, not zero: one
address of an endpoint of the map is pushed. -/
theorem chooseEndpoints_pushes (c : EndpointChooser) (e : Entropy) (dests : List EndpointAddress)
    (src : EndpointAddress) (hc : m.Counted) (hlt : m.total < 2 ^ 64)
    (hne : m.hasEndpoints = true) :
    ∃ c' a, c.chooseEndpoints e dests m src = some (c', dests ++ [a]) ∧ m.HasAddress a := by
  have hn : m.numOfEndpoints ≠ 0 := bne_iff_ne.mp hne
  have hnum := ClusterMap.toNat_numOfEndpoints hc hlt
  -- each chooser computes an index below the counter, and pushes the endpoint there
  cases c with
  | roundRobin count =>
    obtain ⟨index, hidx, hlt'⟩ := remUsize_lt count hn
    obtain ⟨a, h, ha⟩ := bind_pushNth dests hidx (hnum ▸ hlt')
      fun d => (EndpointChooser.roundRobin (count + 1), d)
    exact ⟨_, a, h, ha⟩
  | random =>
    obtain ⟨index, hidx, hlt'⟩ := randomRange_lt e hn
    obtain ⟨a, h, ha⟩ := bind_pushNth dests hidx (hnum ▸ hlt') fun d => (EndpointChooser.random, d)
    exact ⟨_, a, h, ha⟩
  | hash =>
    obtain ⟨index, hidx, hlt'⟩ := remUsize_lt (e.hashAddress src) hn
    obtain ⟨a, h, ha⟩ := bind_pushNth dests hidx (hnum ▸ hlt') fun d => (EndpointChooser.hash, d)
    exact ⟨_, a, h, ha⟩

/-- Round robin panics when the endpoint at the index its counter gives is missing. -/
theorem read_roundRobin_of_pushNth {count index : UInt64} (e : Entropy) (src : EndpointAddress)
    (dests : List EndpointAddress) (hidx : remUsize count m.numOfEndpoints = some index)
    (hnth : pushNth dests m index = none) :
    (LoadBalancer.mk (.roundRobin count)).read e m src dests = none := by
  simp only [LoadBalancer.read, EndpointChooser.chooseEndpoints, hidx, hnth, Option.bind_eq_bind,
    Option.bind_some, Option.bind_none, Option.map_none]

variable (gx : GxHash)

/-- On the socket path: along every run from the empty map whose batches fit an `i32`, while the
map has fewer than `2 ^ 64` endpoints, a load balancer that `has_endpoints` lets through pushes
one address of an endpoint of the map. -/
theorem read_pushes_of_run (lb : LoadBalancer) (e : Entropy) {ops : List ClusterMap.Op}
    (hops : ∀ op ∈ ops, op.BatchFits) (hlt : (ClusterMap.new.run gx ops).total < 2 ^ 64)
    (hne : (ClusterMap.new.run gx ops).hasEndpoints = true) (src : EndpointAddress)
    (dests : List EndpointAddress) :
    ∃ lb' a, lb.read e (ClusterMap.new.run gx ops) src dests = some (lb', dests ++ [a]) ∧
      (ClusterMap.new.run gx ops).HasAddress a := by
  have hc := @ClusterMap.counted_run gx ClusterMap.new ClusterMap.counted_new ops hops
  obtain ⟨c', a, h, ha⟩ := chooseEndpoints_pushes lb.endpointChooser e dests src hc hlt hne
  exact ⟨⟨c'⟩, a, by rw [LoadBalancer.read, h, Option.map_some], ha⟩

/-- Draws of zero and an address hash of zero, for the example. -/
def zeroEntropy : Entropy := ⟨fun _ => 0, fun _ hn => hn, fun _ => 0⟩

/-- Round robin on the map that one insertion of `10.0.0.1:7000` leaves. -/
theorem read_pushes_of_run_endpointA :
    (∀ op ∈ ([.insert none none [endpointA]] : List ClusterMap.Op), op.BatchFits) ∧
    (ClusterMap.new.run firstByteHash [.insert none none [endpointA]]).total < 2 ^ 64 ∧
    (ClusterMap.new.run firstByteHash [.insert none none [endpointA]]).hasEndpoints = true ∧
    ∃ lb' a, (LoadBalancer.mk (.roundRobin 0)).read zeroEntropy
        (ClusterMap.new.run firstByteHash [.insert none none [endpointA]]) endpointB.address [] =
        some (lb', [] ++ [a]) ∧
      (ClusterMap.new.run firstByteHash [.insert none none [endpointA]]).HasAddress a := by
  have hops : ∀ op ∈ ([.insert none none [endpointA]] : List ClusterMap.Op), op.BatchFits := by
    intro op hop
    rw [List.mem_singleton] at hop
    subst hop
    trivial
  have hlt : (ClusterMap.new.run firstByteHash [.insert none none [endpointA]]).total < 2 ^ 64 := by
    decide
  have hne : (ClusterMap.new.run firstByteHash [.insert none none [endpointA]]).hasEndpoints = true := by
    decide
  exact ⟨hops, hlt, hne,
    read_pushes_of_run firstByteHash ⟨.roundRobin 0⟩ zeroEntropy hops hlt hne endpointB.address []⟩

/-- Every chooser panics on the empty map, where the run of no operation leaves a cluster map and
which only `has_endpoints` keeps from the filter: the XDP path calls it there. And past a batch of
`2 ^ 31` new endpoints, `has_endpoints` holds but round robin's `unwrap` panics at the index
`2 ^ 31`, the number of endpoints the map has. -/
theorem read_panics :
    (∀ (lb : LoadBalancer) (e : Entropy) src dests,
      (ClusterMap.new.run gx []).hasEndpoints = false ∧
        lb.read e (ClusterMap.new.run gx []) src dests = none) ∧
    ∃ ops, (ClusterMap.new.run gx ops).hasEndpoints = true ∧
      ∀ e src dests, (LoadBalancer.mk (.roundRobin (2 ^ 31))).read e (ClusterMap.new.run gx ops)
        src dests = none := by
  refine ⟨fun lb e src dests => ⟨rfl, ?_⟩,
    [.batchModify (fun _ => none) none (ClusterMap.upsertsAt (2 ^ 31))], ?_⟩
  · obtain ⟨c⟩ := lb
    cases c <;> rfl
  have hrun : ClusterMap.new.run gx [.batchModify (fun _ => none) none (ClusterMap.upsertsAt (2 ^ 31))]
      = ClusterMap.new.step gx (.batchModify (fun _ => none) none (ClusterMap.upsertsAt (2 ^ 31))) := by
    rw [ClusterMap.run, List.foldl_cons, List.foldl_nil]
  obtain ⟨htot, hnum⟩ := ClusterMap.step_batchModify_upsertsAt gx
  rw [hrun]
  generalize ClusterMap.new.step gx (.batchModify (fun _ => none) none
    (ClusterMap.upsertsAt (2 ^ 31))) = m' at htot hnum
  have hne : m'.hasEndpoints = true := by
    rw [ClusterMap.hasEndpoints, ClusterMap.numOfEndpoints, hnum]
    decide
  refine ⟨hne, fun e src dests => ?_⟩
  -- the counter is `2 ^ 64 - 2 ^ 31`, so the index is `2 ^ 31`, where no endpoint is
  have hidx : remUsize (2 ^ 31) m'.numOfEndpoints = some (2 ^ 31) := by
    rw [ClusterMap.numOfEndpoints, hnum]
    decide
  have hnth : pushNth dests m' (2 ^ 31) = none := by
    rw [pushNth, ClusterMap.nthEndpoint_of_le (by rw [htot]; decide), Option.map_none]
  exact read_roundRobin_of_pushNth e src dests hidx hnth

end Quilkin.Filters
