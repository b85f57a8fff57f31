import Quilkin.Net.Endpoint
import Quilkin.Data.Multimap
import Mathlib.Data.List.AList
import Mathlib.Data.Finset.SymmDiff
import Mathlib.Data.Finset.Card
import Mathlib.Algebra.GroupWithZero.Nat

/-!
# Cluster maps

Model of the endpoints a proxy knows and of their token index (`src/net/cluster.rs`). A
`ClusterMap` holds an `EndpointSet` for each locality (`none` for the endpoints that have none),
the remote address that manages each locality, and a global token map from the hash of a token
to the addresses of the endpoints that hold it, which the token router reads
(`addresses_for_token`). Each endpoint set keeps a token map of its own, built from its endpoints
whenever they are replaced. The global map follows from the difference between a set's old and
new token maps (`token_map_diff`), from a new set's token map copied in, and on the corrosion path
from one token at a time.

The `DashMap`s and `BTreeMap`s are association lists, whose order is not modelled (a value changed
in place is inserted again), and the hash maps of hash sets are `Multimap`s.
The two uses of gxhash with `HASH_SEED`, a crate outside the repository, are the parameter
`GxHash`. The lists of removed and upserted endpoints that `apply` hands to the corrosion database writer
are computed apart (`replaceChanges`, `applyChanges`), by the same loops. The memoized xDS encoding
of a set and the metrics are left out.
-/

namespace Quilkin.Net

open Corrosion (TokenSet)

/-- What the cluster map uses of the gxhash crate, seeded with `HASH_SEED`: `gxhash64` of a token,
and the `GxHasher` that `EndpointSet::update` feeds the address and token set of every endpoint,
in order. -/
structure GxHash where
  gxhash64 : List UInt8 → UInt64
  hashEndpoints : List (EndpointAddress × TokenSet) → UInt64

/-- `Token`, the hash of a token. -/
structure Token where
  hash : UInt64
  deriving DecidableEq

/-- `Token::new`. -/
def Token.new (gx : GxHash) (token : List UInt8) : Token := ⟨gx.gxhash64 token⟩

/-- `TokenAddressMap`. -/
abbrev TokenAddressMap := Multimap UInt64 EndpointAddress

/-- `InnerMap`, the endpoints of a set by address. -/
abbrev InnerMap := AList fun _ : EndpointAddress => EndpointMetadata

/-- What `token_map_diff` returns: for the hashes it lists, their new addresses, or `none` for a
hash no longer held. -/
abbrev TokenMapDiff := UInt64 → Option (Option (Finset EndpointAddress))

/-- `AList::retain`: the entries that satisfy `keep`. -/
def AList.retain {α β : Type} (m : AList fun _ : α => β) (keep : α → β → Bool) :
    AList fun _ : α => β :=
  ⟨m.entries.filter fun e => keep e.1 e.2, m.nodupKeys.sublist List.filter_sublist⟩

/-- `EndpointSet`: the endpoints by address, their token map, the version (`hash`), and the last
change id seen from corrosion. -/
structure EndpointSet where
  endpoints : InnerMap
  tokenMap : TokenAddressMap
  hash : UInt64
  changeId : Nat

/-- `token_map_diff`, hash by hash. The first loop goes over the hashes of `old`: one gone from
`new` is listed as removed, one whose addresses changed with its new addresses. The second loop
lists every hash of `new` not listed yet. A hash is a key of a map when its set is nonempty. -/
def tokenMapDiff (old new : TokenAddressMap) : TokenMapDiff := fun token =>
  let first :=
    if old token = ∅ then none
    else if new token = ∅ then some none
    else if (symmDiff (old token) (new token)).card > 0 then some (some (new token))
    else none
  match first with
  | some d => some d
  | none => if new token = ∅ then none else some (some (new token))

/-- The loop of `apply` and `partial_replace` that writes a token map diff into the global map. -/
def applyTokenMapDiff (tokenMap : TokenAddressMap) (diff : TokenMapDiff) : TokenAddressMap :=
  fun token =>
    match diff token with
    | some (some addrs) => addrs
    | some none => ∅
    | none => tokenMap token

/-- The loop of `apply` and `partial_replace` that copies the token map of a set new to the
cluster map into the global map. -/
def insertTokenMap (tokenMap new : TokenAddressMap) : TokenAddressMap :=
  fun token => if new token = ∅ then tokenMap token else new token

namespace Keyed

/-- A `TokenAddressMap` with its keys, as the `HashMap` holds them: `none` for a hash that is not a
key, and a key may hold an empty set. The maps the cluster builds never leave a key with an empty
set, and are the `TokenAddressMap`s above (`toMultimap`). -/
abbrev TokenAddressMap := UInt64 → Option (Finset EndpointAddress)

/-- The set of a hash, empty for a hash that is not a key. -/
def toMultimap (tokenMap : TokenAddressMap) : Quilkin.Net.TokenAddressMap :=
  fun token => (tokenMap token).getD ∅

/-- `token_map_diff` on maps with their keys, hash by hash. The first loop goes over the keys of
`old`: one that is not a key of `new` is listed as removed, one whose addresses differ with its
new addresses. The second loop lists every key of `new` not listed yet. -/
def tokenMapDiff (old new : TokenAddressMap) : TokenMapDiff := fun token =>
  let first := match old token with
    | none => none
    | some addrs =>
      match new token with
      | some naddrs => if (symmDiff addrs naddrs).card > 0 then some (some naddrs) else none
      | none => some none
  match first with
  | some d => some d
  | none => (new token).map some

/-- The loop of `apply` on a map with its keys: `insert` for `Some(addrs)`, `remove` for
`None`. -/
def applyTokenMapDiff (tokenMap : TokenAddressMap) (diff : TokenMapDiff) : TokenAddressMap :=
  fun token =>
    match diff token with
    | some (some addrs) => some addrs
    | some none => none
    | none => tokenMap token

end Keyed

/-- `num_endpoints` after a set of `oldLen` endpoints became one of `newLen`: `fetch_add` or
`fetch_sub` on a `usize`, wrapping. -/
def adjustNumEndpoints (numEndpoints : UInt64) (newLen oldLen : Nat) : UInt64 :=
  if newLen ≥ oldLen then numEndpoints + (newLen - oldLen).toUInt64
  else numEndpoints - (oldLen - newLen).toUInt64

namespace EndpointSet

variable (gx : GxHash)

/-- The loop of `build_token_map` and `update`: every address under the hash of each of its
tokens. -/
def tokenMapOf (endpoints : InnerMap) : TokenAddressMap :=
  endpoints.entries.foldl (fun tokenMap e =>
    e.2.known.tokens.toSet.toList.foldl (fun tokenMap tok =>
      tokenMap.insertAt (gx.gxhash64 tok) e.1) tokenMap) Multimap.empty

/-- `len`. -/
def len (es : EndpointSet) : Nat := es.endpoints.entries.length

/-- `from_set`: the endpoints by address, a later endpoint at an address replacing an earlier
one; no token map and version `0`. -/
def fromSet (endpoints : List Endpoint) : EndpointSet where
  endpoints := endpoints.foldl (fun m ep => m.insert ep.address ep.metadata) ∅
  tokenMap := Multimap.empty
  hash := 0
  changeId := 0

/-- `update`: the version becomes the hash of the endpoints and the token map is built again;
returns the old token map. -/
def update (es : EndpointSet) : TokenAddressMap × EndpointSet :=
  (es.tokenMap, { es with
    hash := gx.hashEndpoints (es.endpoints.entries.map fun e => (e.1, e.2.known.tokens))
    tokenMap := tokenMapOf gx es.endpoints })

/-- `build_token_map`: the token map is built again; returns the old one. -/
def buildTokenMap (es : EndpointSet) : TokenAddressMap × EndpointSet :=
  (es.tokenMap, { es with tokenMap := tokenMapOf gx es.endpoints })

/-- `EndpointSet::new`. -/
def new (endpoints : List Endpoint) : EndpointSet := (update gx (fromSet endpoints)).2

/-- `EndpointSet::with_version`: the version is given, not computed. -/
def withVersion (endpoints : List Endpoint) (hash : UInt64) : EndpointSet :=
  (buildTokenMap gx { fromSet endpoints with hash }).2

/-- `replace`: the endpoints of `replacement` replace the set's, with its version, or a computed
one when it has none (`0`), and the token map is built again. Returns the old number of endpoints
and the difference between the old token map and the new. -/
def replace (es replacement : EndpointSet) : EndpointSet × Nat × TokenMapDiff :=
  let oldLen := es.len
  let es := { es with endpoints := replacement.endpoints }
  let (oldTm, es) :=
    if replacement.hash = 0 then update gx es
    else buildTokenMap gx { es with hash := replacement.hash }
  (es, oldLen, tokenMapDiff oldTm es.tokenMap)

/-- `partial_replace`: the endpoints `shouldBeReplaced` selects are dropped and those of
`replacement` added; the version and the token map are computed again. Returns the new and old
numbers of endpoints and the token map diff. -/
def partialReplace (es replacement : EndpointSet)
    (shouldBeReplaced : EndpointMetadata → Bool) : EndpointSet × Nat × Nat × TokenMapDiff :=
  let oldLen := es.len
  let endpoints := AList.retain es.endpoints fun _ v => !shouldBeReplaced v
  let endpoints := replacement.endpoints.entries.foldl (fun m e => m.insert e.1 e.2) endpoints
  let es := { es with endpoints }
  let newLen := es.len
  let (oldTm, es) := update gx es
  (es, newLen, oldLen, tokenMapDiff oldTm es.tokenMap)

/-- `to_map`: the tokens of each endpoint, by address, as the corrosion database keeps them. -/
def toMap (es : EndpointSet) : List (EndpointAddress × TokenSet) :=
  es.endpoints.entries.map fun e => (e.1, e.2.known.tokens)

/-- The two loops of `replace` that fill `removed` and `upserted` for the corrosion database: an
endpoint of `replacement` is upserted when `old` has none at its address or one with other
tokens, and an address of `old` that `replacement` lacks is removed. -/
def replaceChanges (old replacement : InnerMap) :
    List EndpointAddress × List (EndpointAddress × TokenSet) :=
  let upserted := replacement.entries.filterMap fun e =>
    match old.lookup e.1 with
    | some o => if e.2.known.tokens != o.known.tokens then some (e.1, e.2.known.tokens) else none
    | none => some (e.1, e.2.known.tokens)
  let removed := old.entries.filterMap fun e =>
    if (replacement.lookup e.1).isSome then none else some e.1
  (removed, upserted)

end EndpointSet

/-! ## The corrosion path -/

/-- `ChangeType`. -/
inductive ChangeType
  | insert
  | update
  | delete

/-- `ServerRow`, the columns that `corrosion_apply` reads: the endpoint and its tokens. -/
structure ServerRow where
  endpoint : EndpointAddress
  tokens : TokenSet

/-- An item of a corrosion subscription stream, its row as `ServerRow::from_sql` reads it
(`none` when that fails). -/
inductive QueryEvent
  | change (changeType : ChangeType) (row : Option ServerRow) (changeId : Nat)
  | row (row : Option ServerRow)
  | endOfQuery (changeId : Option Nat)
  /-- `Columns` and the other events `corrosion_apply` skips. -/
  | other
  /-- An error of the stream. -/
  | error

namespace EndpointSet

variable (gx : GxHash)

/-- The `insert` closure of `corrosion_apply`, on the set's token map and the global one. -/
def corrosionInsert (maps : TokenAddressMap × TokenAddressMap) (addr : EndpointAddress)
    (tok : List UInt8) : TokenAddressMap × TokenAddressMap :=
  let tok := Token.new gx tok
  (maps.1.insertAt tok.hash addr, maps.2.insertAt tok.hash addr)

/-- The `remove` closure of `corrosion_apply`, on the set's token map and the global one. -/
def corrosionRemove (maps : TokenAddressMap × TokenAddressMap) (addr : EndpointAddress)
    (tok : List UInt8) : TokenAddressMap × TokenAddressMap :=
  let tok := Token.new gx tok
  (maps.1.eraseAt tok.hash addr, maps.2.eraseAt tok.hash addr)

/-- An inserted row: its tokens go into both token maps and the endpoint into the set, replacing
one at the same address. -/
def insertRow (es : EndpointSet) (tokenMap : TokenAddressMap) (row : ServerRow) :
    EndpointSet × TokenAddressMap :=
  let (this, tokenMap) := row.tokens.toSet.toList.foldl
    (fun maps tok => corrosionInsert gx maps row.endpoint tok) (es.tokenMap, tokenMap)
  ({ es with tokenMap := this, endpoints := es.endpoints.insert row.endpoint ⟨⟨row.tokens⟩⟩ },
    tokenMap)

/-- A row of a change of type `cty`, on the set and the global token map. -/
def applyRow (es : EndpointSet) (tokenMap : TokenAddressMap) (cty : ChangeType)
    (row : ServerRow) : EndpointSet × TokenAddressMap :=
  let address := row.endpoint
  match cty with
  | .insert => insertRow gx es tokenMap row
  | .update =>
    match es.endpoints.lookup address with
    | none => insertRow gx es tokenMap row
    | some md =>
      let tokens := md.known.tokens.toSet.toList
      let newTokens := row.tokens.toSet.toList
      -- remove the old tokens, then add the new ones
      let maps := (tokens.filter fun tok => !newTokens.contains tok).foldl
        (fun maps tok => corrosionRemove gx maps address tok) (es.tokenMap, tokenMap)
      let (this, tokenMap) := (newTokens.filter fun tok => !tokens.contains tok).foldl
        (fun maps tok => corrosionInsert gx maps address tok) maps
      ({ es with tokenMap := this, endpoints := es.endpoints.insert address ⟨⟨row.tokens⟩⟩ },
        tokenMap)
  | .delete =>
    match es.endpoints.lookup address with
    | none => (es, tokenMap)
    | some md =>
      let (this, tokenMap) := md.known.tokens.toSet.toList.foldl
        (fun maps tok => corrosionRemove gx maps address tok) (es.tokenMap, tokenMap)
      ({ es with tokenMap := this, endpoints := es.endpoints.erase address }, tokenMap)

/-- One item of the stream of `corrosion_apply`. The change id kept is the highest seen. -/
def corrosionStep (state : EndpointSet × TokenAddressMap) :
    QueryEvent → EndpointSet × TokenAddressMap
  | .change cty row cid =>
    let es := { state.1 with changeId := max cid state.1.changeId }
    match row with
    | some row => applyRow gx es state.2 cty row
    | none => (es, state.2)
  | .row (some row) => applyRow gx state.1 state.2 .insert row
  | .row none => state
  | .endOfQuery (some cid) => ({ state.1 with changeId := max cid state.1.changeId }, state.2)
  | .endOfQuery none => state
  | .other => state
  | .error => state

/-- `EndpointSet::corrosion_apply`: the set and the global token map after the stream, the change
id, and the change in the number of endpoints. -/
def corrosionApply (es : EndpointSet) (ss : List QueryEvent) (tokenMap : TokenAddressMap) :
    (EndpointSet × TokenAddressMap) × Nat × Int :=
  let start := es.len
  let (es, tokenMap) := ss.foldl (corrosionStep gx) (es, tokenMap)
  ((es, tokenMap), es.changeId, (es.len : Int) - start)

end EndpointSet

/-! ## The provider path -/

/-- `EndpointSetUpdateAction`. -/
inductive EndpointSetUpdateAction
  | upsert (endpoint : Endpoint)
  | removeByEndpoint (endpoint : Endpoint)
  | removeByName (name : String)

/-- One action of `apply_update_batch_to_guard`, on the endpoints under the guard, the number of
endpoints added less those removed (an `i32`), and whether the guard must `update` the set when
dropped. `RemoveByName` drops the first endpoint whose metadata has the name, which `nameOf` reads
from the unknown part of the metadata. -/
def applyUpdateAction (nameOf : EndpointMetadata → Option String)
    (state : InnerMap × Int32 × Bool) : EndpointSetUpdateAction → InnerMap × Int32 × Bool
  | .upsert endpoint =>
    -- `replace_endpoint`
    let (endpoints, addedRemoved, _) := state
    (endpoints.insert endpoint.address endpoint.metadata,
      if (endpoints.lookup endpoint.address).isNone then addedRemoved + 1 else addedRemoved, true)
  | .removeByEndpoint endpoint =>
    -- `remove_endpoint`
    let (endpoints, addedRemoved, _) := state
    if (endpoints.lookup endpoint.address).isSome then
      (endpoints.erase endpoint.address, addedRemoved - 1, true)
    else (endpoints, addedRemoved, true)
  | .removeByName name =>
    -- `remove_endpoint_if`
    let (endpoints, addedRemoved, needsUpdate) := state
    match endpoints.entries.find? (fun e => nameOf e.2 == some name) with
    | some e => (endpoints.erase e.1, addedRemoved - 1, true)
    | none => (endpoints, addedRemoved, needsUpdate)

/-- `apply_update_batch_to_guard`. -/
def applyUpdateBatchToGuard (nameOf : EndpointMetadata → Option String) (endpoints : InnerMap)
    (batch : List EndpointSetUpdateAction) : InnerMap × Int32 × Bool :=
  batch.foldl (applyUpdateAction nameOf) (endpoints, 0, false)

/-! ## The cluster map -/

/-- `ClusterMap`: the endpoint set of each locality, the remote address managing each locality,
the global token map, the number of endpoints, and the version. -/
structure ClusterMap where
  map : AList fun _ : Option Locality => EndpointSet
  localities : AList fun _ : Option Locality => Option IpAddr
  tokenMap : TokenAddressMap
  numEndpoints : UInt64
  version : UInt64

/-- The locality of the corrosion endpoints, `Locality::new("corrosion", "", "")`. -/
def corro : Locality := Locality.new "corrosion" "" ""

/-- The error of `apply`: `'{locality}' is managed by '{manager}', not '{remote_addr}'`. -/
structure SkippingClusterApply where
  locality : Option Locality
  managedBy : Option IpAddr
  remoteAddr : Option IpAddr

namespace ClusterMap

variable (gx : GxHash)

/-- `ClusterMap::new`. -/
def new : ClusterMap := ⟨∅, ∅, Multimap.empty, 0, 0⟩

/-- `apply`: a locality managed by another remote address is refused; otherwise the set replaces
the locality's, or is added, and the global token map follows. -/
def apply (m : ClusterMap) (remoteAddr : Option IpAddr) (locality : Option Locality)
    (cluster : EndpointSet) : Except SkippingClusterApply ClusterMap := do
  let m ← match m.localities.lookup locality with
    | some raddr =>
      if raddr ≠ remoteAddr then .error ⟨locality, raddr, remoteAddr⟩ else pure m
    | none => pure { m with localities := m.localities.insert locality remoteAddr }
  let newLen := cluster.len
  match m.map.lookup locality with
  | some current =>
    let (current, oldLen, diff) := current.replace gx cluster
    pure { m with
      map := m.map.insert locality current
      numEndpoints := adjustNumEndpoints m.numEndpoints newLen oldLen
      version := m.version + 1
      tokenMap := applyTokenMapDiff m.tokenMap diff }
  | none =>
    pure { m with
      tokenMap := insertTokenMap m.tokenMap cluster.tokenMap
      map := m.map.insert locality cluster
      numEndpoints := m.numEndpoints + newLen.toUInt64
      version := m.version + 1 }

/-- The `removed` and `upserted` lists that a successful `apply` fills: those of `replace` for a
locality that has a set, and every endpoint of the new set (`cluster.to_map()`) for one that has
none. -/
def applyChanges (m : ClusterMap) (locality : Option Locality) (cluster : EndpointSet) :
    List EndpointAddress × List (EndpointAddress × TokenSet) :=
  match m.map.lookup locality with
  | some current => EndpointSet.replaceChanges current.endpoints cluster.endpoints
  | none => ([], cluster.toMap)

/-- `insert`: `apply` of a new set, its error ignored. -/
def insert (m : ClusterMap) (remoteAddr : Option IpAddr) (locality : Option Locality)
    (cluster : List Endpoint) : ClusterMap :=
  match m.apply gx remoteAddr locality (EndpointSet.new gx cluster) with
  | .ok m => m
  | .error _ => m

/-- `partial_replace`: the endpoints of the locality that `shouldBeReplaced` selects make room for
those of `endpointSet`, or the set is added. -/
def partialReplace (m : ClusterMap) (locality : Option Locality) (endpointSet : EndpointSet)
    (shouldBeReplaced : EndpointMetadata → Bool) : ClusterMap :=
  match m.map.lookup locality with
  | some current =>
    let (current, newLen, oldLen, diff) := current.partialReplace gx endpointSet shouldBeReplaced
    { m with
      map := m.map.insert locality current
      numEndpoints := adjustNumEndpoints m.numEndpoints newLen oldLen
      version := m.version + 1
      tokenMap := applyTokenMapDiff m.tokenMap diff }
  | none =>
    { m with
      tokenMap := insertTokenMap m.tokenMap endpointSet.tokenMap
      map := m.map.insert locality endpointSet
      numEndpoints := m.numEndpoints + endpointSet.len.toUInt64
      version := m.version + 1 }

/-- `update_unlocated_endpoints`: unless another remote address manages them, the endpoints
without a locality move to `locality`, replacing its set. -/
def updateUnlocatedEndpoints (m : ClusterMap) (remoteAddr : Option IpAddr)
    (locality : Locality) : ClusterMap :=
  if (m.localities.lookup none).any (· != remoteAddr) then m
  else
    let m := { m with localities := (m.localities.erase none).insert (some locality) remoteAddr }
    match m.map.lookup none with
    | none => m
    | some set =>
      let m := { m with map := m.map.erase none, version := m.version + 1 }
      match m.map.lookup (some locality) with
      | some replaced =>
        { m with
          map := m.map.insert (some locality) set
          numEndpoints := m.numEndpoints - replaced.len.toUInt64 }
      | none => { m with map := m.map.insert (some locality) set }

/-- `do_remove_locality`: the locality's manager and set are dropped; returns the set. -/
def doRemoveLocality (m : ClusterMap) (locality : Option Locality) :
    Option EndpointSet × ClusterMap :=
  let m := { m with localities := m.localities.erase locality }
  match m.map.lookup locality with
  | some ret =>
    (some ret, { m with
      map := m.map.erase locality
      version := m.version + 1
      numEndpoints := m.numEndpoints - ret.len.toUInt64 })
  | none => (none, m)

/-- `remove_locality`: unless another remote address manages the locality. -/
def removeLocality (m : ClusterMap) (remoteAddr : Option IpAddr) (locality : Option Locality) :
    Option EndpointSet × ClusterMap :=
  if (m.localities.lookup locality).any (· != remoteAddr) then (none, m)
  else m.doRemoveLocality locality

/-- `remove_contributor`: the localities `remoteAddr` manages are no longer managed. -/
def removeContributor (m : ClusterMap) (remoteAddr : Option IpAddr) : ClusterMap :=
  { m with localities := AList.retain m.localities fun _ v => v != remoteAddr }

/-- `batch_modify`: the batch goes to the set of the locality, created empty if there is none;
the count moves by the batch's `i32` total, a set left empty is removed, and the version moves
on. The global token map is not kept: this is the provider path. -/
def batchModify (m : ClusterMap) (nameOf : EndpointMetadata → Option String)
    (locality : Option Locality) (batch : List EndpointSetUpdateAction) : ClusterMap :=
  let set := (m.map.lookup locality).getD (EndpointSet.new gx [])
  let (endpoints, addedRemoved, needsUpdate) :=
    applyUpdateBatchToGuard nameOf set.endpoints batch
  let set := { set with endpoints }
  -- the guard's drop
  let set := if needsUpdate then (EndpointSet.update gx set).2 else set
  let m := { m with map := m.map.insert locality set }
  let m := { m with
    numEndpoints :=
      if addedRemoved > 0 then m.numEndpoints + addedRemoved.toInt.natAbs.toUInt64
      else m.numEndpoints - addedRemoved.toInt.natAbs.toUInt64 }
  let m := if set.len = 0 then (m.doRemoveLocality locality).2 else m
  { m with version := m.version + 1 }

/-- `From<DashMap<Option<Locality>, EndpointSet>>`: every locality unmanaged, the sets' token maps
copied into the global one, the endpoints counted, and version `1`. -/
def ofMap (map : AList fun _ : Option Locality => EndpointSet) : ClusterMap where
  map
  localities := map.entries.foldl (fun ls e => ls.insert e.1 none) ∅
  tokenMap := map.entries.foldl
    (fun tm (e : Sigma fun _ : Option Locality => EndpointSet) => insertTokenMap tm e.2.tokenMap)
    Multimap.empty
  numEndpoints :=
    (map.entries.map fun (e : Sigma fun _ : Option Locality => EndpointSet) => e.2.len).sum.toUInt64
  version := 1

/-- `addresses_for_token`: the addresses it pushes. -/
def addressesForToken (m : ClusterMap) (token : Token) : Finset EndpointAddress :=
  m.tokenMap token.hash

/-- The loop of `nth_endpoint` over the sets, in the map's order: the index falls in a set or
passes over it. -/
def nthEndpointIn : List (Sigma fun _ : Option Locality => EndpointSet) → Nat → Option Endpoint
  | [], _ => none
  | s :: rest, index =>
    if index < s.2.len then (s.2.endpoints.entries[index]?).map fun e => ⟨e.1, e.2⟩
    else nthEndpointIn rest (index - s.2.len)

/-- `nth_endpoint`. -/
def nthEndpoint (m : ClusterMap) (index : Nat) : Option Endpoint := nthEndpointIn m.map.entries index

/-- `endpoints`: the endpoints of every set, the sets in the map's order. -/
def endpoints (m : ClusterMap) : List Endpoint :=
  m.map.entries.flatMap fun s => s.2.endpoints.entries.map fun e => ⟨e.1, e.2⟩

/-- `num_of_endpoints`: the counter, not a count of the sets. -/
def numOfEndpoints (m : ClusterMap) : UInt64 := m.numEndpoints

/-- `has_endpoints`. -/
def hasEndpoints (m : ClusterMap) : Bool := m.numOfEndpoints != 0

/-- `Watchable::mark`: the version. -/
def mark (m : ClusterMap) : UInt64 := m.version

/-- `Watchable::has_changed`: the version is not the one marked. -/
def hasChanged (m : ClusterMap) (marked : UInt64) : Bool := m.version != marked

/-- `ClusterMap::corrosion_apply`: the stream is applied to the corrosion locality's set, created
empty if there is none, and to the global token map; returns the change id. -/
def corrosionApply (m : ClusterMap) (ss : List QueryEvent) : Nat × ClusterMap :=
  let es := (m.map.lookup (some corro)).getD (EndpointSet.new gx [])
  let ((es, tokenMap), id, diff) := es.corrosionApply gx ss m.tokenMap
  (id, { m with
    map := m.map.insert (some corro) es
    tokenMap
    numEndpoints :=
      if diff ≥ 0 then m.numEndpoints + diff.toNat.toUInt64
      else m.numEndpoints - diff.natAbs.toUInt64 })

/-- The operations of a proxy's cluster map: an endpoint set from a management server (`apply`,
with the version it was sent with), from a configuration file (`insert`) or from a provider
(`partial_replace`), the removal of a locality, the move of the endpoints without one, the
corrosion stream, a contributor going away, and a batch from a provider. -/
inductive Op
  | apply (remoteAddr : Option IpAddr) (locality : Option Locality) (endpoints : List Endpoint)
      (version : UInt64)
  | insert (remoteAddr : Option IpAddr) (locality : Option Locality) (cluster : List Endpoint)
  | partialReplace (locality : Option Locality) (endpoints : List Endpoint)
      (shouldBeReplaced : EndpointMetadata → Bool)
  | removeLocality (remoteAddr : Option IpAddr) (locality : Option Locality)
  | updateUnlocatedEndpoints (remoteAddr : Option IpAddr) (locality : Locality)
  | corrosionApply (ss : List QueryEvent)
  | removeContributor (remoteAddr : Option IpAddr)
  | batchModify (nameOf : EndpointMetadata → Option String) (locality : Option Locality)
      (batch : List EndpointSetUpdateAction)

/-- One operation; an `apply` that is refused changes nothing. -/
def step (m : ClusterMap) : Op → ClusterMap
  | .apply remoteAddr locality endpoints version =>
    match m.apply gx remoteAddr locality (EndpointSet.withVersion gx endpoints version) with
    | .ok m => m
    | .error _ => m
  | .insert remoteAddr locality cluster => m.insert gx remoteAddr locality cluster
  | .partialReplace locality endpoints shouldBeReplaced =>
    m.partialReplace gx locality (EndpointSet.new gx endpoints) shouldBeReplaced
  | .removeLocality remoteAddr locality => (m.removeLocality remoteAddr locality).2
  | .updateUnlocatedEndpoints remoteAddr locality => m.updateUnlocatedEndpoints remoteAddr locality
  | .corrosionApply ss => (m.corrosionApply gx ss).2
  | .removeContributor remoteAddr => m.removeContributor remoteAddr
  | .batchModify nameOf locality batch => m.batchModify gx nameOf locality batch

/-- A sequence of operations. -/
def run (m : ClusterMap) (ops : List Op) : ClusterMap := ops.foldl (step gx) m

end ClusterMap

/-! ## The calls on `num_endpoints` -/

/-- A `fetch_add` or a `fetch_sub` on `num_endpoints`. -/
inductive CounterCall
  | fetchAdd (n : UInt64)
  | fetchSub (n : UInt64)

namespace CounterCall

/-- The counter after the call; both wrap. -/
def apply (v : UInt64) : CounterCall → UInt64
  | fetchAdd n => v + n
  | fetchSub n => v - n

/-- The call that follows a set of `oldLen` endpoints becoming one of `newLen`. -/
def adjust (newLen oldLen : Nat) : CounterCall :=
  if newLen ≥ oldLen then fetchAdd (newLen - oldLen).toUInt64 else fetchSub (oldLen - newLen).toUInt64

end CounterCall

namespace ClusterMap

variable (gx : GxHash)

/-- The calls `apply` makes: none when it is refused, and one for the set it writes. -/
def applyCalls (m : ClusterMap) (remoteAddr : Option IpAddr) (locality : Option Locality)
    (cluster : EndpointSet) : List CounterCall :=
  match m.apply gx remoteAddr locality cluster with
  | .error _ => []
  | .ok _ =>
    match m.map.lookup locality with
    | some current => [.adjust cluster.len (current.replace gx cluster).2.1]
    | none => [.fetchAdd cluster.len.toUInt64]

/-- The calls on `num_endpoints` an operation makes, in order. -/
def counterCalls (m : ClusterMap) : Op → List CounterCall
  | .apply remoteAddr locality endpoints version =>
    m.applyCalls gx remoteAddr locality (EndpointSet.withVersion gx endpoints version)
  | .insert remoteAddr locality cluster => m.applyCalls gx remoteAddr locality (EndpointSet.new gx cluster)
  | .partialReplace locality endpoints shouldBeReplaced =>
    let endpointSet := EndpointSet.new gx endpoints
    match m.map.lookup locality with
    | some current =>
      let (_, newLen, oldLen, _) := current.partialReplace gx endpointSet shouldBeReplaced
      [.adjust newLen oldLen]
    | none => [.fetchAdd endpointSet.len.toUInt64]
  -- `do_remove_locality` subtracts the length of the set it returns
  | .removeLocality remoteAddr locality =>
    match (m.removeLocality remoteAddr locality).1 with
    | some ret => [.fetchSub ret.len.toUInt64]
    | none => []
  | .updateUnlocatedEndpoints remoteAddr locality =>
    if (m.localities.lookup none).any (· != remoteAddr) then []
    else
      match m.map.lookup none with
      | none => []
      | some _ =>
        match (m.map.erase none).lookup (some locality) with
        | some replaced => [.fetchSub replaced.len.toUInt64]
        | none => []
  | .corrosionApply ss =>
    let es := (m.map.lookup (some corro)).getD (EndpointSet.new gx [])
    let (_, _, diff) := es.corrosionApply gx ss m.tokenMap
    [if diff ≥ 0 then .fetchAdd diff.toNat.toUInt64 else .fetchSub diff.natAbs.toUInt64]
  | .removeContributor _ => []
  | .batchModify nameOf locality batch =>
    let set := (m.map.lookup locality).getD (EndpointSet.new gx [])
    let (endpoints, addedRemoved, needsUpdate) := applyUpdateBatchToGuard nameOf set.endpoints batch
    let set := { set with endpoints }
    let set := if needsUpdate then (EndpointSet.update gx set).2 else set
    (if addedRemoved > 0 then .fetchAdd addedRemoved.toInt.natAbs.toUInt64
      else .fetchSub addedRemoved.toInt.natAbs.toUInt64) ::
    -- a set left empty is removed by `do_remove_locality`, which finds the set just written
    if set.len = 0 then [.fetchSub set.len.toUInt64] else []

end ClusterMap

end Quilkin.Net
