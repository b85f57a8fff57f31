import Quilkin.Net.Cluster

/-!
# Reading a cluster map

Model of the `Deserialize` implementations of `ClusterMapDeser` and `ClusterMap`
(`src/net/cluster.rs`). A serialized cluster map is a list of `EndpointWithLocality` entries,
meant to be one for each locality. The reader sorts them by locality, refuses the list when an
entry equals the one after it, and collects the entries into a `DashMap` from locality to
endpoint set, from which `From<DashMap>` builds the cluster map.

serde's reading of the JSON is not modelled: the entries are given as values, the endpoints of
each in the order of its `BTreeSet`, so that two sets are equal when their lists are.
`Option<Locality>` is ordered by the derived `Ord`, `None` first and then field by field.
`sort_by` is a stable sort, and a stable sort by a total order has one result, which is
`List.mergeSort`'s with the comparison's `is_le`.
-/

namespace Quilkin.Net

/-- The derived `Ord` of `Locality`: the string, then the end of the region, then the end of the
zone. -/
def Locality.cmp : Locality → Locality → Ordering :=
  compareLex (compareOn Locality.buffer)
    (compareLex (compareOn Locality.region) (compareOn Locality.zone))

instance : Ord Locality := ⟨Locality.cmp⟩

/-- `EndpointWithLocality`: the endpoints of a locality and its version. -/
structure EndpointWithLocality where
  endpoints : List Endpoint
  locality : Option Locality
  version : Option UInt64
  deriving DecidableEq

namespace ClusterMapDeser

/-- The loop over `windows(2)`: whether some entry equals the one after it. -/
def anyWindowEq : List EndpointWithLocality → Bool
  | a :: b :: rest => a == b || anyWindowEq (b :: rest)
  | _ => false

/-- `ClusterMapDeser::deserialize`: the entries sorted by locality, refused when two next to each
other are equal. -/
def deserialize (endpoints : List EndpointWithLocality) :
    Except String (List EndpointWithLocality) :=
  let endpoints := endpoints.mergeSort fun a b => (compare a.locality b.locality).isLE
  if anyWindowEq endpoints then .error "duplicate localities found in cluster map"
  else .ok endpoints

end ClusterMapDeser

/-- The endpoint set of an entry: with the version it carries, or with one computed. -/
def EndpointWithLocality.toEndpointSet (gx : GxHash) (e : EndpointWithLocality) : EndpointSet :=
  match e.version with
  | some version => EndpointSet.withVersion gx e.endpoints version
  | none => EndpointSet.new gx e.endpoints

/-- `ClusterMap::deserialize`: the entries collected into a map by locality, an entry replacing
the value an earlier one left at its locality, and the cluster map built from that map. -/
def ClusterMap.deserialize (gx : GxHash) (endpoints : List EndpointWithLocality) :
    Except String ClusterMap := do
  let cmd ← ClusterMapDeser.deserialize endpoints
  let map := cmd.foldl (fun map e => map.insert e.locality (e.toEndpointSet gx)) ∅
  return ClusterMap.ofMap map

end Quilkin.Net
