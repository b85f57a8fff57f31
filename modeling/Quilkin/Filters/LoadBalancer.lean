import Quilkin.Net.Cluster

/-!
# The load balancer filter

Model of `src/filters/load_balancer.rs` and its endpoint choosers: `read` pushes one endpoint of
the cluster map onto the packet's destinations, chosen in turn, at random, or by a hash of the
source. Each chooser takes an index modulo `num_of_endpoints()`, the map's counter, and unwraps
`nth_endpoint` at it; a remainder by zero, an empty `random_range` and the `unwrap` of `None`
panic, which the model gives as `none`.

The random number generator and the `DefaultHasher` are parameters: `random_range(0..n)` is any
value below `n`, and the hash of a source any `u64`.
-/

namespace Quilkin.Filters

open Net

/-- `Policy`. -/
inductive Policy
  | roundRobin
  | random
  | hash
  deriving DecidableEq

/-- The endpoint choosers; round robin keeps the `AtomicUsize` of the next index. -/
inductive EndpointChooser
  | roundRobin (nextEndpoint : UInt64)
  | random
  | hash
  deriving DecidableEq

/-- `Policy::as_endpoint_chooser`. -/
def Policy.asEndpointChooser : Policy → EndpointChooser
  | .roundRobin => .roundRobin 0
  | .random => .random
  | .hash => .hash

/-- What the choosers use of `rand` and of `std::hash`: the value `random_range(0..n)` draws, below
`n` when the range is not empty, and what a `DefaultHasher` fed a source address finishes with. -/
structure Entropy where
  sample : UInt64 → UInt64
  sample_lt : ∀ n, 0 < n → sample n < n
  hashAddress : EndpointAddress → UInt64

namespace Entropy

variable (e : Entropy)

/-- `random_range(0..n)`, which panics on the empty range. -/
def randomRange (n : UInt64) : Option UInt64 := if n = 0 then none else some (e.sample n)

end Entropy

/-- `a % b` on `usize`, which panics when `b` is zero. -/
def remUsize (a b : UInt64) : Option UInt64 := if b = 0 then none else some (a % b)

/-- `destinations.push(endpoints.nth_endpoint(index).unwrap().address.clone())`. -/
def pushNth (destinations : List EndpointAddress) (endpoints : ClusterMap) (index : UInt64) :
    Option (List EndpointAddress) :=
  (endpoints.nthEndpoint index.toNat).map fun ep => destinations ++ [ep.address]

/-- `choose_endpoints` of each chooser: the chooser after the call and the destinations. Round
robin takes the index from its counter, which `fetch_add` moves on, wrapping. -/
def EndpointChooser.chooseEndpoints (e : Entropy) (destinations : List EndpointAddress)
    (endpoints : ClusterMap) (src : EndpointAddress) :
    EndpointChooser → Option (EndpointChooser × List EndpointAddress)
  | .roundRobin count => do
    let index ← remUsize count endpoints.numOfEndpoints
    let destinations ← pushNth destinations endpoints index
    pure (.roundRobin (count + 1), destinations)
  | .random => do
    let index ← e.randomRange endpoints.numOfEndpoints
    let destinations ← pushNth destinations endpoints index
    pure (.random, destinations)
  | .hash => do
    let index ← remUsize (e.hashAddress src) endpoints.numOfEndpoints
    let destinations ← pushNth destinations endpoints index
    pure (.hash, destinations)

/-- `LoadBalancer`, by its chooser. -/
structure LoadBalancer where
  endpointChooser : EndpointChooser

namespace LoadBalancer

/-- `LoadBalancer::new`. -/
def new (policy : Policy) : LoadBalancer := ⟨policy.asEndpointChooser⟩

/-- `Filter::read`, on the context's endpoints, source and destinations. -/
def read (lb : LoadBalancer) (e : Entropy) (endpoints : ClusterMap) (source : EndpointAddress)
    (destinations : List EndpointAddress) : Option (LoadBalancer × List EndpointAddress) :=
  (lb.endpointChooser.chooseEndpoints e destinations endpoints source).map fun r => (⟨r.1⟩, r.2)

end LoadBalancer

end Quilkin.Filters
