import Quilkin.Filters.TokenRouter
import Quilkin.Filters.Match
import Quilkin.Filters.Firewall
import Quilkin.Filters.LoadBalancer
import Quilkin.Filters.LocalRateLimit

/-!
# Filter chains

Model of `FilterChain` (`src/filters/chain.rs`) over the filters of `FilterKind`
(`src/filters.rs`). A chain's `read` runs its filters in order on one context and stops at the
first error; when every filter passed and none chose a destination, the packet goes to every
endpoint of the cluster map. Its `write` runs the filters in the reverse order.

A filter's `read` gives the filter after the call, since the load balancer's round robin counter
and the rate limiter's buckets are state the filter keeps between packets; the context after the
call, which the caller still holds after an error (the destinations are a vector the caller
lends); and the result. `none` is a panic. The match filter holds filters of its own, one of
which runs, so `read` and `write` recurse into it. No filter keeps state on the write side, and
nothing outside the context sees it after an error, so a filter's `write` gives the context or
the error, as the generic `matchFilter` does.

What the filters use from outside the packet are the parameters `Services`, with the second of
the clock that the rate limiter reads. The names of the filters and the histograms timing them
are left out.
-/

namespace Quilkin.Filters

open Net

/-- What the filters read from outside the packet: gxhash (the token router), the random numbers
and hash of the load balancer, the name lookup (the firewall), the order in which a hash set of
addresses is iterated (the token router), and ChaCha20's keystream (the decryptor). -/
structure Services where
  gx : GxHash
  entropy : Entropy
  resolve : String → Except String IpAddr
  order : SetIter EndpointAddress
  keystream : Keystream

/-- `FilterKind`, the filters a chain is built of; `TestFilter`, which only the tests build, is
left out. -/
inductive FilterKind
  | capture (c : Capture)
  | concatenate (c : Concatenate)
  | debug
  | decryptor (d : Decryptor)
  | drop
  | firewall (fw : Firewall)
  | loadBalancer (lb : LoadBalancer)
  | localRateLimit (l : LocalRateLimit)
  | pass
  | «match» (m : Match Key FilterKind)
  | timestamp
  | tokenRouter (r : TokenRouter)
  | hashedTokenRouter (r : HashedTokenRouter)

namespace FilterKind

variable (svc : Services) (nowSecs : UInt64)

/-- A branch of a match filter is smaller than the filter. -/
theorem sizeOf_branch_lt {m : Match Key FilterKind} {config : ConfigInstance Key FilterKind}
    (hm : m.onReadFilters = some config ∨ m.onWriteFilters = some config)
    {b : Value × FilterKind} (hb : b ∈ config.branches) : sizeOf b.2 < sizeOf («match» m) := by
  have hlt := List.sizeOf_lt_of_mem hb
  obtain ⟨v, f⟩ := b
  obtain ⟨onRead, onWrite⟩ := m
  obtain ⟨key, branches, fallthrough⟩ := config
  rcases hm with rfl | rfl <;> simp_all <;> omega

/-- The fallthrough of a match filter is smaller than the filter. -/
theorem sizeOf_fallthrough_lt {m : Match Key FilterKind} {config : ConfigInstance Key FilterKind}
    (hm : m.onReadFilters = some config ∨ m.onWriteFilters = some config) :
    sizeOf config.fallthrough < sizeOf («match» m) := by
  obtain ⟨onRead, onWrite⟩ := m
  obtain ⟨key, branches, fallthrough⟩ := config
  rcases hm with rfl | rfl <;> simp_all <;> omega

/-- `Filter::read` of each filter: the filter after the call, the context, and the result.
Debug and timestamp only log and time the packet. A match filter runs the filter of the first
branch whose value equals the one under its key, or the fallthrough, and keeps what that filter
becomes. -/
def read : FilterKind → ReadContext → Option (FilterKind × ReadContext × Except FilterError Unit)
  | .capture c, ctx => (c.read ctx).map fun (ctx, r) => (.capture c, ctx, r)
  | .concatenate c, ctx => some (.concatenate c, c.read ctx, .ok ())
  | .debug, ctx => some (.debug, ctx, .ok ())
  | .decryptor d, ctx => (d.read svc.keystream ctx).map fun (ctx, r) => (.decryptor d, ctx, r)
  | .drop, ctx => some (.drop, ctx, .error .dropped)
  | .firewall fw, ctx => some (.firewall fw, ctx, fw.read svc.resolve ctx.source)
  | .loadBalancer lb, ctx =>
    (lb.read svc.entropy ctx.endpoints ctx.source ctx.destinations).map fun (lb, destinations) =>
      (.loadBalancer lb, { ctx with destinations }, .ok ())
  | .localRateLimit l, ctx =>
    (l.read ctx.source nowSecs).map fun (r, l) => (.localRateLimit l, ctx, r)
  | .pass, ctx => some (.pass, ctx, .ok ())
  | .«match» m, ctx =>
    match hm : m.onReadFilters with
    | none => some (.«match» m, ctx, .ok ())
    | some config =>
      match ctx.metadata config.metadataKey with
      | none => some (.«match» m, ctx, .error .matchNoMetadata)
      | some value =>
        let i := config.branches.findIdx fun branch => branch.1.eq value
        if hi : i < config.branches.length then
          (read config.branches[i].2 ctx).map fun (f, ctx, r) =>
            (.«match» { m with onReadFilters := some { config with
              branches := config.branches.set i (config.branches[i].1, f) } }, ctx, r)
        else
          (read config.fallthrough ctx).map fun (f, ctx, r) =>
            (.«match» { m with onReadFilters := some { config with fallthrough := f } }, ctx, r)
  | .timestamp, ctx => some (.timestamp, ctx, .ok ())
  | .tokenRouter r, ctx =>
    (r.read svc.gx svc.order ctx).map fun (ctx, res) => (.tokenRouter r, ctx, res)
  | .hashedTokenRouter r, ctx =>
    (r.read svc.gx svc.order ctx).map fun (ctx, res) => (.hashedTokenRouter r, ctx, res)
termination_by f => sizeOf f
decreasing_by
  · exact sizeOf_branch_lt (.inl hm) (List.getElem_mem hi)
  · exact sizeOf_fallthrough_lt (.inl hm)

-- `hm` and `hb` are read by the termination proof only
set_option linter.unusedVariables false in
/-- `Filter::write` of each filter; those with no `write` of their own pass by the trait's
default. -/
def write : FilterKind → WriteContext → Except FilterError WriteContext
  | .capture _, ctx => .ok ctx
  | .concatenate c, ctx => .ok (c.write ctx)
  | .debug, ctx => .ok ctx
  | .decryptor _, ctx => .ok ctx
  | .drop, _ => .error .dropped
  | .firewall fw, ctx => (fw.write svc.resolve ctx.source).map fun () => ctx
  | .loadBalancer _, ctx => .ok ctx
  | .localRateLimit _, ctx => .ok ctx
  | .pass, ctx => .ok ctx
  | .«match» m, ctx =>
    match hm : m.onWriteFilters with
    | none => .ok ctx
    | some config =>
      match ctx.metadata config.metadataKey with
      | none => .error .matchNoMetadata
      | some value =>
        match hb : config.branches.find? fun branch => branch.1.eq value with
        | some branch => write branch.2 ctx
        | none => write config.fallthrough ctx
  | .timestamp, ctx => .ok ctx
  | .tokenRouter _, ctx => .ok ctx
  | .hashedTokenRouter _, ctx => .ok ctx
termination_by f => sizeOf f
decreasing_by
  · exact sizeOf_branch_lt (.inr hm) (List.mem_of_find?_eq_some hb)
  · exact sizeOf_fallthrough_lt (.inr hm)

end FilterKind

/-- `FilterChain`, by its filters in order. -/
structure FilterChain where
  filters : List FilterKind

section Chain

variable (svc : Services) (nowSecs : UInt64)

/-- The loop of `FilterChain::read`: the filters in order, each on the context the one before
left, until one fails. -/
def readFilters :
    List FilterKind → ReadContext → Option (List FilterKind × ReadContext × Except FilterError Unit)
  | [], ctx => some ([], ctx, .ok ())
  | f :: fs, ctx =>
    (f.read svc nowSecs ctx).bind fun (f, ctx, r) =>
      match r with
      | .error e => some (f :: fs, ctx, .error e)
      | .ok () => (readFilters fs ctx).map fun (fs, ctx, r) => (f :: fs, ctx, r)

/-- The loop of `FilterChain::write`, over filters in the order given. -/
def writeFilters : List FilterKind → WriteContext → Except FilterError WriteContext
  | [], ctx => .ok ctx
  | f :: fs, ctx => (f.write svc ctx).bind (writeFilters fs)

namespace FilterChain

/-- `Filter::read` of a chain. When every filter passed and the destinations are empty, every
endpoint's address is pushed. -/
def read (chain : FilterChain) (ctx : ReadContext) :
    Option (FilterChain × ReadContext × Except FilterError Unit) :=
  (readFilters svc nowSecs chain.filters ctx).map fun (filters, ctx, r) =>
    match r with
    | .error e => (⟨filters⟩, ctx, .error e)
    | .ok () =>
      if ctx.destinations.isEmpty then
        (⟨filters⟩, { ctx with
          destinations := ctx.destinations ++ ctx.endpoints.endpoints.map (·.address) }, .ok ())
      else (⟨filters⟩, ctx, .ok ())

/-- `Filter::write` of a chain: the filters from the last to the first. -/
def write (chain : FilterChain) (ctx : WriteContext) : Except FilterError WriteContext :=
  writeFilters svc chain.filters.reverse ctx

end FilterChain

end Chain

end Quilkin.Filters
