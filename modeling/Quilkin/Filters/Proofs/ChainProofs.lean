import Quilkin.Filters.Chain
import Quilkin.Filters.Proofs.CaptureProofs
import Quilkin.Filters.Proofs.MatchProofs

/-!
# Filter chains: what a read may change

Every filter's `read` keeps the cluster map and the source, and only pushes destinations: those
pushed before it stay at the front (`FilterKind.read_extends`, by induction along `read`, whose
match filter recurses into one of its filters). So does a chain's loop and a chain's `read`
(`FilterChain.read_extends`).

Each filter has one lemma that says all its `read` can do (`TokenRouter.read_eq_some`,
`Decryptor.read_eq_some`, ...), from which the rest is derived.
-/

namespace Quilkin.Filters

open Net

/-- What every read keeps: the cluster map and the source as they were, and the destinations it
was given at the front of those it leaves. -/
structure ReadContext.Extends (ctx ctx' : ReadContext) : Prop where
  endpoints : ctx'.endpoints = ctx.endpoints
  source : ctx'.source = ctx.source
  destinations : ctx.destinations <+: ctx'.destinations

namespace ReadContext.Extends

variable {ctx ctx' ctx'' : ReadContext}

theorem refl (ctx : ReadContext) : ctx.Extends ctx := ⟨rfl, rfl, List.prefix_refl _⟩

theorem trans (h₁ : ctx.Extends ctx') (h₂ : ctx'.Extends ctx'') : ctx.Extends ctx'' :=
  ⟨h₂.endpoints.trans h₁.endpoints, h₂.source.trans h₁.source,
    h₁.destinations.trans h₂.destinations⟩

/-- Editing the contents and the metadata extends a context. -/
theorem edit (ctx : ReadContext) (contents : List UInt8) (metadata : DynamicMetadata) :
    ctx.Extends { ctx with contents, metadata } := ⟨rfl, rfl, List.prefix_refl _⟩

/-- Pushing destinations extends a context. -/
theorem push (ctx : ReadContext) (ds : List EndpointAddress) :
    ctx.Extends { ctx with destinations := ctx.destinations ++ ds } :=
  ⟨rfl, rfl, List.prefix_append _ _⟩

end ReadContext.Extends

open ReadContext (Extends)

/-! ## What each filter's read does -/

section Filters

variable {ctx ctx' : ReadContext} {res : Except FilterError Unit}

/-- The capture filter only edits the contents and the metadata. -/
theorem Capture.read_extends {c : Capture} (h : c.read ctx = some (ctx', res)) : ctx.Extends ctx' := by
  simp only [Capture.read] at h
  split at h
  · split_ifs at h
    · obtain ⟨contents, -, h⟩ := Option.map_eq_some_iff.mp h
      cases h
      exact Extends.edit ..
    · cases h
      exact Extends.edit ..
    · cases h
      exact Extends.edit ..
  · cases h
    exact Extends.edit ..

/-- All the token router can do: push the addresses of the endpoints holding the token under its
key, failing when there are still no destinations, or fail when there is no token. -/
theorem TokenRouter.read_eq_some {gx : GxHash} {order : SetIter EndpointAddress} {r : TokenRouter}
    (h : r.read gx order ctx = some (ctx', res)) :
    (∃ token, ctx.metadata r.config.metadataKey = some (.bytes token) ∧
      ctx' = { ctx with destinations :=
          ctx.destinations ++ order.toList (ctx.endpoints.addressesForToken (Token.new gx token)) } ∧
      res = if ctx'.destinations.isEmpty then
        .error (.tokenRouter (RouterError.noEndpointMatch token).toString) else .ok ()) ∨
    (ctx.metadata r.config.metadataKey = none ∧ ctx' = ctx ∧
      res = .error (.tokenRouter RouterError.noTokenFound.toString)) := by
  unfold TokenRouter.read at h
  split at h
  · rename_i token hkey
    refine .inl ⟨token, hkey, ?_⟩
    dsimp only at h
    split_ifs at h with hempty <;> cases h
    · exact ⟨rfl, (if_pos hempty).symm⟩
    · exact ⟨rfl, (if_neg hempty).symm⟩
  · cases h
  · rename_i hkey
    cases h
    exact .inr ⟨hkey, rfl, rfl⟩

theorem TokenRouter.read_extends {gx : GxHash} {order : SetIter EndpointAddress} {r : TokenRouter}
    (h : r.read gx order ctx = some (ctx', res)) : ctx.Extends ctx' := by
  rcases TokenRouter.read_eq_some h with ⟨token, -, rfl, -⟩ | ⟨-, rfl, -⟩
  · exact Extends.push ..
  · exact Extends.refl _

/-- All the decryptor can do: push one address, or fail with the context as it was. -/
theorem Decryptor.read_eq_some {ks : Keystream} {d : Decryptor}
    (h : d.read ks ctx = some (ctx', res)) :
    (∃ a, ctx' = { ctx with destinations := ctx.destinations ++ [a] } ∧ res = .ok ()) ∨
      (ctx' = ctx ∧ ∃ e, res = .error e) := by
  unfold Decryptor.read at h
  split at h
  · split_ifs at h
    · cases h
      exact .inr ⟨rfl, _, rfl⟩
    · obtain ⟨dest, -, h⟩ := Option.map_eq_some_iff.mp h
      cases h
      exact .inl ⟨_, rfl, rfl⟩
    · cases h
      exact .inr ⟨rfl, _, rfl⟩
  all_goals
    cases h
    exact .inr ⟨rfl, _, rfl⟩

theorem Decryptor.read_extends {ks : Keystream} {d : Decryptor}
    (h : d.read ks ctx = some (ctx', res)) : ctx.Extends ctx' := by
  rcases Decryptor.read_eq_some h with ⟨a, rfl, -⟩ | ⟨rfl, -⟩
  · exact Extends.push ..
  · exact Extends.refl _

/-- Each chooser pushes one address. -/
theorem EndpointChooser.chooseEndpoints_eq_some {c c' : EndpointChooser} {e : Entropy}
    {dests dests' : List EndpointAddress} {m : ClusterMap} {src : EndpointAddress}
    (h : c.chooseEndpoints e dests m src = some (c', dests')) : ∃ a, dests' = dests ++ [a] := by
  have hpush : ∀ {index d}, pushNth dests m index = some d → ∃ a, d = dests ++ [a] := by
    intro index d hd
    obtain ⟨ep, -, rfl⟩ := Option.map_eq_some_iff.mp hd
    exact ⟨ep.address, rfl⟩
  cases c <;>
  · simp only [EndpointChooser.chooseEndpoints, Option.bind_eq_bind, Option.bind_eq_some_iff,
      Option.pure_def, Option.some.injEq, Prod.mk.injEq] at h
    obtain ⟨index, -, d, hd, -, rfl⟩ := h
    exact hpush hd

end Filters

/-- Services for worked examples: a token hashes to its first byte, every draw is zero, no host
name resolves, sets are listed in any order and the keystream is zero. -/
noncomputable def Services.sample : Services where
  gx := ⟨fun token => (token.headD 0).toUInt64, fun _ => 0⟩
  entropy := ⟨fun _ => 0, fun _ hn => hn, fun _ => 0⟩
  resolve := fun _ => .error "unresolvable"
  order := SetIter.ofFinset
  keystream := fun _ _ _ => 0

/-! ## Every filter -/

namespace FilterKind

variable {svc : Services} {nowSecs : UInt64}

/-- Every filter's read keeps the cluster map and the source, and only pushes destinations. The
induction follows `read`: a match filter's read is the read of one of its filters. -/
theorem read_extends (f : FilterKind) (ctx : ReadContext) :
    ∀ {f' ctx' res}, f.read svc nowSecs ctx = some (f', ctx', res) → ctx.Extends ctx' := by
  fun_induction read svc nowSecs f ctx
  case case1 c ctx =>
    intro f' ctx' res h
    obtain ⟨⟨ctx₁, r⟩, h₁, h⟩ := Option.map_eq_some_iff.mp h
    cases h
    exact Capture.read_extends h₁
  case case2 c ctx =>
    intro f' ctx' res h
    cases h
    exact Extends.edit ..
  case case4 d ctx =>
    intro f' ctx' res h
    obtain ⟨⟨ctx₁, r⟩, h₁, h⟩ := Option.map_eq_some_iff.mp h
    cases h
    exact Decryptor.read_extends h₁
  case case7 lb ctx =>
    intro f' ctx' res h
    obtain ⟨⟨lb₁, ds⟩, h₁, h⟩ := Option.map_eq_some_iff.mp h
    cases h
    obtain ⟨⟨c, ds'⟩, hc, hlb⟩ := Option.map_eq_some_iff.mp h₁
    cases hlb
    obtain ⟨a, rfl⟩ := EndpointChooser.chooseEndpoints_eq_some hc
    exact Extends.push ..
  case case8 l ctx =>
    intro f' ctx' res h
    obtain ⟨⟨r, l₁⟩, -, h⟩ := Option.map_eq_some_iff.mp h
    cases h
    exact Extends.refl ctx
  case case12 m ctx config hm value hv hi ih =>
    intro f' ctx' res h
    obtain ⟨⟨f₁, ctx₁, r⟩, h₁, h⟩ := Option.map_eq_some_iff.mp h
    cases h
    exact ih h₁
  case case13 m ctx config hm value hv hi ih =>
    intro f' ctx' res h
    obtain ⟨⟨f₁, ctx₁, r⟩, h₁, h⟩ := Option.map_eq_some_iff.mp h
    cases h
    exact ih h₁
  case case15 r ctx =>
    intro f' ctx' res h
    obtain ⟨⟨ctx₁, r⟩, h₁, h⟩ := Option.map_eq_some_iff.mp h
    cases h
    exact TokenRouter.read_extends h₁
  case case16 r ctx =>
    intro f' ctx' res h
    obtain ⟨⟨ctx₁, r⟩, h₁, h⟩ := Option.map_eq_some_iff.mp h
    cases h
    exact TokenRouter.read_extends h₁
  all_goals
    intro f' ctx' res h
    cases h
    exact Extends.refl _

end FilterKind

/-! ## Chains -/

section Chain

variable (svc : Services) (nowSecs : UInt64)

/-- The loop of a chain's read keeps what each filter keeps. -/
theorem readFilters_extends :
    ∀ (fs : List FilterKind) (ctx : ReadContext) {fs' ctx' res},
      readFilters svc nowSecs fs ctx = some (fs', ctx', res) → ctx.Extends ctx'
  | [], ctx, _, _, _, h => by
    cases h
    exact .refl ctx
  | f :: fs, ctx, _, _, _, h => by
    obtain ⟨⟨f₁, ctx₁, r₁⟩, h₁, h⟩ := Option.bind_eq_some_iff.mp h
    have hext := FilterKind.read_extends f ctx h₁
    cases r₁ with
    | error e =>
      cases h
      exact hext
    | ok u =>
      obtain ⟨⟨fs₂, ctx₂, r₂⟩, h₂, h⟩ := Option.map_eq_some_iff.mp h
      cases h
      exact hext.trans (readFilters_extends fs ctx₁ h₂)

/-- A chain's read keeps the cluster map and the source, and only pushes destinations. -/
theorem FilterChain.read_extends {chain chain' : FilterChain} {ctx ctx' : ReadContext}
    {res : Except FilterError Unit} (h : chain.read svc nowSecs ctx = some (chain', ctx', res)) :
    ctx.Extends ctx' := by
  obtain ⟨⟨fs, ctx₁, r₁⟩, h₁, h⟩ := Option.map_eq_some_iff.mp h
  have hext := readFilters_extends svc nowSecs chain.filters ctx h₁
  cases r₁ with
  | error e =>
    cases h
    exact hext
  | ok u =>
    dsimp only at h
    split_ifs at h <;> cases h
    · exact hext.trans (.push ..)
    · exact hext

end Chain

end Quilkin.Filters
