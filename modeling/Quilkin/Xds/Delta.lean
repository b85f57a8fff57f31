import Quilkin.Net.Cluster
import Quilkin.Data.StepRun

/-!
# The delta xDS exchange of clusters

A management server keeps a proxy's clusters up to date over a delta xDS stream
(`crates/xds/src/server.rs`, `crates/xds/src/config.rs`, `src/config.rs`). For the stream the server
keeps the versions of the resources it believes the client has (`ClientState`). From its cluster map
it computes the localities whose version the client does not have, and the names the client should
drop (`Config::delta_discovery_request`), sends them under a fresh nonce, and keeps what it sent
until the client acknowledges that nonce (`ClientTracker::needs_ack`, `apply_ack`). The client
applies a response to its own cluster map (`Config::apply_delta`, through the cluster map's
`remove_locality` and `apply`), records the versions in its `LocalVersions`, and answers with an
ACK, or with a NACK when the response could not be applied.

The exchange is a state machine over the two parties and the two directions of the stream, each an
ordered queue. Its events are a change of the server's clusters, a tick of the propagation interval,
the delivery of the first message of either queue, the client's refresh, and a new stream. Only the
cluster resource type is modelled. A resource carries its cluster as the client decodes it (the
protobuf encoding is left out), and a nonce (`Uuid::new_v4`) is a number the server never reuses.
-/

namespace Quilkin.Xds

open Net

/-! ## Resources -/

/-- `proto::Locality`. -/
structure ProtoLocality where
  region : String
  zone : String
  subZone : String
  deriving DecidableEq

/-- `From<Locality> for proto::Locality`. -/
def ProtoLocality.ofLocality (l : Locality) : ProtoLocality :=
  ⟨l.regionStr, l.zoneStr.getD "", l.subZoneStr.getD ""⟩

/-- `From<proto::Locality> for Locality`. -/
def ProtoLocality.toLocality (p : ProtoLocality) : Locality :=
  Locality.new p.region p.zone p.subZone

/-- `proto::Cluster`, its endpoints as the client decodes them. -/
structure ProtoCluster where
  locality : Option ProtoLocality
  endpoints : List Endpoint
  deriving DecidableEq

/-- `EndpointSet::encoded_cluster`: the locality and the endpoints of the set. -/
def encodedCluster (es : EndpointSet) (locality : Option Locality) : ProtoCluster :=
  ⟨locality.map ProtoLocality.ofLocality, es.endpoints.entries.map fun e => ⟨e.1, e.2⟩⟩

/-- `Resource`: a name, a version and, in a response, the resource itself. -/
structure Resource where
  name : String
  version : String
  resource : Option ProtoCluster
  deriving DecidableEq

namespace EndpointSetVersion

/-- `Display`: the version in lower-case hexadecimal. -/
def toString (v : UInt64) : String := String.ofList (Nat.toDigits 16 v.toNat)

/-- `char::to_digit(16)`. -/
def hexDigit (c : Char) : Option Nat :=
  if '0' ≤ c ∧ c ≤ '9' then some (c.toNat - '0'.toNat)
  else if 'a' ≤ c ∧ c ≤ 'f' then some (c.toNat - 'a'.toNat + 10)
  else if 'A' ≤ c ∧ c ≤ 'F' then some (c.toNat - 'A'.toNat + 10)
  else none

/-- The value of hexadecimal digits, most significant first, after `acc`. -/
def ofHexDigits : Nat → List Char → Option Nat
  | acc, [] => some acc
  | acc, c :: cs => (hexDigit c).bind fun d => ofHexDigits (acc * 16 + d) cs

/-- `FromStr`: `u64::from_str_radix(s, 16)`, which takes a `+` in front and refuses an empty
string, a character that is not a digit, and a value past `u64::MAX`. -/
def fromStr (s : String) : Option UInt64 :=
  let digits := match s.toList with
    | '+' :: rest => rest
    | cs => cs
  match digits with
  | [] => none
  | cs => (ofHexDigits 0 cs).bind fun n => if n < 2 ^ 64 then some n.toUInt64 else none

end EndpointSetVersion

/-- `VersionMap`: a version for each resource name. -/
abbrev VersionMap := AList fun _ : String => String

/-- Why `apply_delta` refuses a cluster response. -/
inductive ApplyDeltaError
  /-- A removed name is not a locality. -/
  | locality (error : Locality.ParseError)
  /-- `a cluster resource could not be applied because it didn't contain an actual payload` -/
  | noPayload
  /-- The version of a resource is not a number. -/
  | version (version : String)

/-! ## Messages -/

/-- `DeltaDiscoveryRequest`, with the fields the exchange reads. -/
structure DeltaDiscoveryRequest where
  resourceNamesSubscribe : List String
  resourceNamesUnsubscribe : List String
  initialResourceVersions : VersionMap
  /-- The nonce of the response an ACK or a NACK answers; `none` stands for `""`. -/
  responseNonce : Option Nat
  /-- Why the client could not apply the response it answers. -/
  errorDetail : Option ApplyDeltaError

/-- `DeltaDiscoveryResponse`, with the fields the client reads. -/
structure DeltaDiscoveryResponse where
  resources : List Resource
  nonce : Nat
  removedResources : List String

/-! ## The server -/

/-- `ClientState` of the cluster type: the versions the server believes the client has, and the
names it subscribed to (none: every locality). -/
structure ClientState where
  versions : VersionMap
  subscribed : List String

namespace ClientState

/-- `ClientState::new`. -/
def new : ClientState := ⟨∅, []⟩

/-- `reset`: the versions the client says it has, and no subscription. -/
def reset (versions : VersionMap) : ClientState := ⟨versions, []⟩

/-- `update`: a request with initial versions resets the state to them; a name subscribed to is
sent again, its version forgotten, and a name unsubscribed from is forgotten. -/
def update (cs : ClientState) (req : DeltaDiscoveryRequest) : ClientState :=
  let cs := if req.initialResourceVersions.entries.isEmpty then cs
    else reset req.initialResourceVersions
  let cs := req.resourceNamesSubscribe.foldl
    (fun cs sub => ⟨cs.versions.erase sub, cs.subscribed.insert sub⟩) cs
  req.resourceNamesUnsubscribe.foldl
    (fun cs sub => ⟨cs.versions.erase sub, cs.subscribed.erase sub⟩) cs

/-- `version_matches`. -/
def versionMatches (cs : ClientState) (key value : String) : Bool :=
  (cs.versions.lookup key).any (· == value)

end ClientState

/-- `AwaitingAck`: what a response sent, until its nonce is acknowledged. -/
structure AwaitingAck where
  versions : VersionMap
  removed : List String

/-- Why the tracker refuses. -/
inductive TrackerError
  /-- `{rem} is both in the removed list and version map` -/
  | removedAndVersioned (name : String)
  /-- `unknown nonce` -/
  | unknownNonce
  /-- `unknown type url` -/
  | unknownTypeUrl

/-- `ClientTracker` of a stream, for the cluster type: the responses awaiting an ACK, by nonce,
and the client's state once it has sent a request. -/
structure ClientTracker where
  ackMap : AList fun _ : Nat => AwaitingAck
  state : Option ClientState

namespace ClientTracker

/-- `track_client`. -/
def trackClient : ClientTracker := ⟨∅, none⟩

/-- `needs_ack`: no name may be both removed and sent; the response waits under its nonce. -/
def needsAck (t : ClientTracker) (ack : AwaitingAck) (nonce : Nat) :
    Except TrackerError ClientTracker :=
  match ack.removed.find? fun rem => (ack.versions.lookup rem).isSome with
  | some rem => .error (.removedAndVersioned rem)
  | none => .ok { t with ackMap := t.ackMap.insert nonce ack }

/-- `apply_ack`: the names the acknowledged response removed are forgotten, and its versions
become the client's. The response no longer waits even when the state is missing, as the source
removes it first. -/
def applyAck (t : ClientTracker) (nonce : Nat) : ClientTracker × Except TrackerError Unit :=
  match t.ackMap.lookup nonce with
  | none => (t, .error .unknownNonce)
  | some ack =>
    let t := { t with ackMap := t.ackMap.erase nonce }
    match t.state with
    | none => (t, .error .unknownTypeUrl)
    | some cs =>
      let cs := ack.removed.foldl
        (fun cs removed => ⟨cs.versions.erase removed, cs.subscribed.erase removed⟩) cs
      ({ t with state := some { cs with
          versions := ack.versions.entries.foldl (fun vs e => vs.insert e.1 e.2) cs.versions } },
        .ok ())

end ClientTracker

/-- `DeltaDiscoveryRes`: the resources to send and the names the client should drop. -/
structure DeltaDiscoveryRes where
  resources : List Resource
  removed : List String

/-- The `push` closure: the set of `key` is sent unless the client has its version. -/
def push (cs : ClientState) (resources : List Resource) (key : Option Locality)
    (value : EndpointSet) : List Resource :=
  let version := EndpointSetVersion.toString value.hash
  let keyS := (key.map Locality.toString).getD ""
  if cs.versionMatches keyS version then resources
  else resources ++ [⟨keyS, version, some (encodedCluster value key)⟩]

/-- `delta_discovery_request` for the cluster type: every locality of the map when the client
subscribed to none, else those of its subscription that the map has. -/
def deltaDiscoveryRequest (clusters : ClusterMap) (cs : ClientState) : DeltaDiscoveryRes :=
  let resources :=
    if cs.subscribed.isEmpty then
      clusters.map.entries.foldl (fun rs e => push cs rs e.1 e.2) []
    else
      (cs.subscribed.filterMap fun name =>
          if name.isEmpty then some none else (Locality.fromStr name).toOption.map some).foldl
        (fun rs locality => match clusters.map.lookup locality with
          | some cluster => push cs rs locality cluster
          | none => rs) []
  -- the one name ever reported removed: `""`, the endpoints without a locality, which
  -- `update_unlocated_endpoints` moves into one
  ⟨resources,
    if (cs.versions.lookup "").isSome && (clusters.map.lookup none).isNone then [""] else []⟩

/-- The `responder` of a stream, for the cluster type. With a request the client's state is
created if need be and updated from it; without one (a tick) there must be a state already. The
delta, unless empty, is sent under `nonce` and waits for its ACK. The tracker is returned on an
error too, as the source changes it in place. -/
def responder (clusters : ClusterMap) (tracker : ClientTracker)
    (req : Option DeltaDiscoveryRequest) (nonce : Nat) :
    ClientTracker × Except TrackerError (Option DeltaDiscoveryResponse) :=
  let cs := match req with
    | some req => some ((tracker.state.getD .new).update req)
    | none => tracker.state
  match cs with
  | none => (tracker, .ok none)
  | some cs =>
    let tracker := { tracker with state := some cs }
    let res := deltaDiscoveryRequest clusters cs
    if res.resources.isEmpty && res.removed.isEmpty then (tracker, .ok none)
    else
      let ack : AwaitingAck :=
        ⟨res.resources.foldl (fun vs r => vs.insert r.name r.version) ∅, res.removed⟩
      match tracker.needsAck ack nonce with
      | .ok tracker => (tracker, .ok (some ⟨res.resources, nonce, res.removed⟩))
      | .error e => (tracker, .error e)

/-! ## The client -/

/-- The proxy's side: its cluster map, and the versions of the cluster resources it has
(`LocalVersions` of the cluster type). -/
structure Client where
  clusters : ClusterMap
  localVersions : VersionMap

section Client

variable (gx : GxHash) (remoteAddr : Option IpAddr)

/-- The loop of `apply_delta` over the removed names, each the locality to remove, `""` the
endpoints without one. A name that is not a locality stops the loop; what was removed stays
removed. -/
def removeLocalities : ClusterMap → List String → ClusterMap × Option ApplyDeltaError
  | clusters, [] => (clusters, none)
  | clusters, removed :: rest =>
    if removed.isEmpty then removeLocalities (clusters.removeLocality remoteAddr none).2 rest
    else
      match Locality.fromStr removed with
      | .ok l => removeLocalities (clusters.removeLocality remoteAddr (some l)).2 rest
      | .error e => (clusters, some (.locality e))

/-- The loop of `apply_delta` over the resources, each applied through `Bridge::apply_changes`,
which logs a refused `apply`. A resource without a payload or a version stops the loop; what was
applied stays applied. -/
def applyResources : ClusterMap → List Resource → ClusterMap × Option ApplyDeltaError
  | clusters, [] => (clusters, none)
  | clusters, res :: rest =>
    match res.resource with
    | none => (clusters, some .noPayload)
    | some cluster =>
      match EndpointSetVersion.fromStr res.version with
      | none => (clusters, some (.version res.version))
      | some version =>
        let endpoints := EndpointSet.withVersion gx cluster.endpoints version
        let locality := cluster.locality.map ProtoLocality.toLocality
        applyResources
          (match clusters.apply gx remoteAddr locality endpoints with
            | .ok clusters => clusters
            | .error _ => clusters) rest

/-- `apply_delta` for the cluster type: the removed names, then the resources. It is not atomic:
what it did before an error stays done. -/
def applyDelta (clusters : ClusterMap) (resources : List Resource)
    (removedResources : List String) : ClusterMap × Option ApplyDeltaError :=
  match removeLocalities remoteAddr clusters removedResources with
  | (clusters, none) => applyResources gx remoteAddr clusters resources
  | failed => failed

/-- A response as `handle_delta_discovery_responses` takes it: applied, and when it applied
cleanly the removed names and the versions sent update the local versions. The answer is an ACK
of its nonce, or a NACK with the error. -/
def Client.handle (c : Client) (response : DeltaDiscoveryResponse) :
    Client × DeltaDiscoveryRequest :=
  let (clusters, error) :=
    applyDelta gx remoteAddr c.clusters response.resources response.removedResources
  let localVersions := match error with
    | none =>
      response.resources.foldl (fun vs res => vs.insert res.name res.version)
        (response.removedResources.foldl (fun vs r => vs.erase r) c.localVersions)
    | some _ => c.localVersions
  (⟨clusters, localVersions⟩, ⟨[], [], ∅, some response.nonce, error⟩)

end Client

/-- `refresh`: a request with the client's own versions, subscribing to no name in particular. -/
def Client.refresh (c : Client) : DeltaDiscoveryRequest := ⟨[], [], c.localVersions, none, none⟩

/-! ## The exchange -/

/-- One server and one client over a stream: the server's cluster map, its tracker of the stream
and the next nonce, the responses on their way to the client and the requests on their way to the
server, in order, and the client. -/
structure Exchange where
  server : ClusterMap
  tracker : ClientTracker
  nonce : Nat
  toClient : List DeltaDiscoveryResponse
  toServer : List DeltaDiscoveryRequest
  client : Client

/-- The events of the exchange. -/
inductive Event
  /-- The server's cluster map changes. -/
  | change (op : ClusterMap.Op)
  /-- The propagation interval ticks: the server sends what changed. -/
  | tick
  /-- The server takes the first request in flight. -/
  | serverReceive
  /-- The client takes the first response in flight. -/
  | clientReceive
  /-- The client's idle interval passes: it sends its versions again. -/
  | refresh
  /-- A new stream: a new tracker, nothing in flight but the client's first request. -/
  | connect

namespace Exchange

/-- A server and a client before their first stream. -/
def init (server : ClusterMap) (client : Client) : Exchange :=
  ⟨server, .trackClient, 0, [], [], client⟩

/-- The exchange after the server's responder left `tracker` and produced `response`, sent under
the current nonce. -/
def sent (e : Exchange) (tracker : ClientTracker) : Option DeltaDiscoveryResponse → Exchange
  | some response =>
    { e with tracker, nonce := e.nonce + 1, toClient := e.toClient ++ [response] }
  | none => { e with tracker }

variable (gx : GxHash) (remoteAddr : Option IpAddr)

/-- One event; `none` when it cannot happen (nothing in flight) or the server panics. -/
def step (e : Exchange) : Event → Option Exchange
  | .change op => some { e with server := e.server.step gx op }
  | .tick =>
    let (tracker, res) := responder e.server e.tracker none e.nonce
    -- an error of the responder is logged
    some (e.sent tracker (match res with
      | .ok response => response
      | .error _ => none))
  | .serverReceive =>
    match e.toServer with
    | [] => none
    | req :: rest =>
      let e := { e with toServer := rest }
      match req.errorDetail, req.responseNonce with
      | none, some nonce =>
        -- an ACK: a failure of `apply_ack` is logged
        some { e with tracker := (e.tracker.applyAck nonce).1 }
      | _, _ =>
        -- a NACK is logged and then answered like any other request; an error of the
        -- responder panics (`unwrap`)
        let (tracker, res) := responder e.server e.tracker (some req) e.nonce
        match res with
        | .ok response => some (e.sent tracker response)
        | .error _ => none
  | .clientReceive =>
    match e.toClient with
    | [] => none
    | response :: rest =>
      let (client, answer) := e.client.handle gx remoteAddr response
      some { e with client, toClient := rest, toServer := e.toServer ++ [answer] }
  | .refresh => some { e with toServer := e.toServer ++ [e.client.refresh] }
  | .connect =>
    some { e with tracker := .trackClient, toClient := [], toServer := [e.client.refresh] }

/-- A run of the exchange. -/
def run (e : Exchange) (events : List Event) : Option Exchange :=
  StepRun.exec (step gx remoteAddr) e events

end Exchange

end Quilkin.Xds
