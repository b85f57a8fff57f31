import Quilkin.Filters.Proofs.ChainProofs
import Quilkin.Net.Proofs.ClusterProofs

/-!
# Routing by token, end to end

Quilkin routes a client's datagrams by a token: a proxy on the client's side appends the token
with `Concatenate`, and the proxy in front of the game servers captures and removes it with
`Capture` and hands it to `TokenRouter`, which sends the datagram to the endpoints whose token
set holds it. The datagram arrives with the payload the client sent, at exactly those endpoints,
or is refused when there are none (`tokenRouterChain_read_append`, `token_delivered`).

The token router takes the value under its key to be bytes, and panics otherwise. A capture by
regular expression stores a list when the pattern matches more than once, so a datagram that
matches twice crashes a proxy whose chain captures by regular expression for a token router
(`regexCapture_tokenRouter_panics`).
-/

namespace Quilkin.Filters

open Net

variable (svc : Services) (nowSecs : UInt64)

/-- The endpoint `10.0.0.1:7000`, the proxies' address in the examples. -/
def proxyAddress : EndpointAddress := ⟨.ip (.v4 ⟨10, 0, 0, 1⟩), 7000⟩

/-- A capture by regular expression stores every match as a list when there are several, which
the token router behind it takes for impossible: the proxy panics on every datagram that matches
the pattern twice. -/
theorem regexCapture_tokenRouter_panics (key : Key) (findIter : List UInt8 → List (List UInt8))
    (ctx : ReadContext) (htwice : 1 < (findIter ctx.contents).length) :
    (⟨[.capture (Capture.new ⟨key, .ofRegex ⟨findIter⟩⟩), .tokenRouter ⟨⟨key⟩⟩]⟩ : FilterChain).read
      svc nowSecs ctx = none := by
  have hlen : 1 < ((findIter ctx.contents).map Value.bytes).length := by simpa using htwice
  have hcap : (Capture.Strategy.ofRegex ⟨findIter⟩).capture ctx.contents =
      some (.list ((findIter ctx.contents).map Value.bytes), 0) := by
    simp only [Capture.Strategy.capture, Capture.Regex.capture, if_pos hlen]
  simp only [FilterChain.read, readFilters, FilterKind.read, Capture.read, Capture.new, hcap,
    Option.isSome_some, ne_eq, not_true_eq_false, if_false, Option.map_some, Option.bind_some,
    TokenRouter.read, DynamicMetadata.insert_self]
  rfl

/-- A pattern that matches each byte on its own, as a stand-in for a regular expression. -/
def eachByte (contents : List UInt8) : List (List UInt8) := contents.map fun b => [b]

theorem regexCapture_tokenRouter_panics_twoBytes :
    1 < (eachByte (ReadContext.new ClusterMap.new proxyAddress [1, 2] []).contents).length ∧
    (⟨[.capture (Capture.new ⟨"token", .ofRegex ⟨eachByte⟩⟩), .tokenRouter ⟨⟨"token"⟩⟩]⟩ :
        FilterChain).read Services.sample 0 (ReadContext.new ClusterMap.new proxyAddress [1, 2] []) =
      none :=
  ⟨by decide, regexCapture_tokenRouter_panics Services.sample 0 "token" eachByte _ (by decide)⟩

end Quilkin.Filters
