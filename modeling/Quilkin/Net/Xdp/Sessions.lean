import Quilkin.Data.SocketAddr

/-!
# XDP sessions

Model of the session state of the XDP path (`src/net/io/nic/xdp/process.rs`). Packets from a
client to a server leave from a port of their own, allocated per server from `61000` up, so that
the server's replies to that port can be sent back to the client.

For each server a `PortMapper` keeps both directions: a map from client to port, and the
`PortMap` from port back to client, an array of buckets of `Item`s indexed by `port - 61000`.
An `Item` holds an ipv6 address's octets, or an ipv4 address in the last four octets behind a
`0xff` marker, and the client's port, `0` for an item never written. The port counter is an
`AtomicU16`: it wraps after `65535`, and the allocation that finds it wrapped fails, upon which
`SessionState::get_or_create` drops the server's mapper and starts over with a new one.

The metrics and the ASN data stored beside each client are left out, and so is the expiry of the
`TtlMap` of servers: between expiries it is a map, here a function.
-/

namespace Quilkin.Net.Xdp

/-- `EPHEMERAL_RANGE_END`, the first port allocated. -/
def ephemeralRangeEnd : UInt16 := 61000

/-- `BUCKET_SIZE`. -/
def bucketSize : Nat := 112

-- The bounds the definitions below index with are named, so that no definition holds a proof of
-- its own: a slot of a bucket, and the octets of an item an ipv4 address is kept in.
theorem bucketSize_pos : 0 < bucketSize := by decide
theorem zero_lt_sixteen : 0 < 16 := by decide
theorem twelve_lt_sixteen : 12 < 16 := by decide
theorem thirteen_lt_sixteen : 13 < 16 := by decide
theorem fourteen_lt_sixteen : 14 < 16 := by decide
theorem fifteen_lt_sixteen : 15 < 16 := by decide

/-- `Item`. -/
structure Item where
  octets : Vector UInt8 16
  port : UInt16
  deriving DecidableEq, Repr

namespace Item

/-- An item of zeroed memory. -/
def zeroed : Item := ⟨Vector.replicate 16 0, 0⟩

/-- `Item::set`. -/
def set (item : Item) (addr : SocketAddr) : Item :=
  let octets := match addr with
    -- the proxy never sends to a multicast address, so the multicast prefix `0xff` marks an
    -- ipv4 address
    | .v4 ip _ =>
      ((((item.octets.set 0 0xff zero_lt_sixteen).set 12 ip.a twelve_lt_sixteen).set 13 ip.b
        thirteen_lt_sixteen).set 14 ip.c fourteen_lt_sixteen).set 15 ip.d fifteen_lt_sixteen
    | .v6 ip _ _ _ => ip.octets
  { octets, port := addr.port }

/-- `Item::get`. -/
def get (item : Item) : SocketAddr :=
  if getElem item.octets 0 zero_lt_sixteen = 0xff then
    .v4 ⟨getElem item.octets 12 twelve_lt_sixteen, getElem item.octets 13 thirteen_lt_sixteen,
      getElem item.octets 14 fourteen_lt_sixteen, getElem item.octets 15 fifteen_lt_sixteen⟩ item.port
  else .v6 ⟨item.octets⟩ item.port 0 0

end Item

/-- `PortMap`: buckets of `BUCKET_SIZE` items. -/
structure PortMap where
  buckets : List (Vector Item bucketSize)

namespace PortMap

/-- `PortMap::new`: one zeroed bucket. -/
def new : PortMap := ⟨[Vector.replicate bucketSize Item.zeroed]⟩

/-- `PortMap::get`: the client of an allocated port; nothing for a port below the range, past the
buckets, or of an item never written. -/
def get (m : PortMap) (port : UInt16) : Option SocketAddr := do
  let i ← if port < ephemeralRangeEnd then none else some (port - ephemeralRangeEnd).toNat
  let bucket ← m.buckets[i / bucketSize]?
  let item := bucket.get ⟨i % bucketSize, Nat.mod_lt _ bucketSize_pos⟩
  if item.port = 0 then none else some item.get

/-- `PortMap::insert`: a bucket is pushed when the index reaches the end of the last one; `none`
is the undefined behaviour of `get_unchecked_mut` past the buckets. -/
def insert (m : PortMap) (clientAddr : SocketAddr) (port : UInt16) : Option PortMap :=
  let i := (port - ephemeralRangeEnd).toNat
  let bucket := i / bucketSize
  let buckets := if m.buckets.length = bucket then
      m.buckets ++ [Vector.replicate bucketSize Item.zeroed]
    else m.buckets
  if h : bucket < buckets.length then
    let items := buckets[bucket]
    let slot : Fin bucketSize := ⟨i % bucketSize, Nat.mod_lt _ bucketSize_pos⟩
    some ⟨buckets.set bucket (items.set slot ((items.get slot).set clientAddr))⟩
  else none

end PortMap

/-- `PortMapper`: the port of each client, the client of each port, and the next port. -/
structure PortMapper where
  clientToPort : SocketAddr → Option UInt16
  portToClient : PortMap
  port : UInt16

namespace PortMapper

/-- `PortMapper::new`. -/
def new : PortMapper := ⟨fun _ => none, .new, ephemeralRangeEnd⟩

/-- `get_or_alloc`: the client's port, if it has one, or the next one. The counter is read and
incremented by `fetch_add`, wrapping; a port below the range means it has wrapped, and nothing is
allocated. The outer `none` is undefined behaviour of the port map. -/
def getOrAlloc (pm : PortMapper) (clientAddr : SocketAddr) :
    Option (Option UInt16 × PortMapper) :=
  match pm.clientToPort clientAddr with
  | some port => some (some port, pm)
  | none =>
    let port := pm.port
    let pm := { pm with port := pm.port + 1 }
    if port < ephemeralRangeEnd then some (none, pm)
    else
      (pm.portToClient.insert clientAddr port).map fun portToClient =>
        let clientToPort := Function.update pm.clientToPort clientAddr (some port)
        (some port, { pm with portToClient, clientToPort })

/-- `get_client`. -/
def getClient (pm : PortMapper) (port : UInt16) : Option SocketAddr := pm.portToClient.get port

end PortMapper

/-- `SessionState`: the port mapper of each server. -/
structure SessionState where
  sessions : SocketAddr → Option PortMapper

namespace SessionState

/-- The state with no sessions. -/
def empty : SessionState := ⟨fun _ => none⟩

/-- `lookup_client`. -/
def lookupClient (s : SessionState) (serverAddr : SocketAddr) (port : UInt16) :
    Option SocketAddr :=
  (s.sessions serverAddr).bind fun pm => pm.getClient port

/-- `get_or_create`, with `fuel` for its recursion: an allocation that fails removes the server's
mapper and starts again. `none` is the end of the fuel, or undefined behaviour. -/
def getOrCreate (s : SessionState) (clientAddr serverAddr : SocketAddr) :
    Nat → Option (UInt16 × SessionState)
  | 0 => none
  | fuel + 1 => do
    let (port, pm) ← match s.sessions serverAddr with
      | some pm => pm.getOrAlloc clientAddr
      | none => PortMapper.new.getOrAlloc clientAddr
    let s : SessionState := ⟨Function.update s.sessions serverAddr (some pm)⟩
    match port with
    | some port => some (port, s)
    | none =>
      -- the server has allocated every port: nuke its mapping
      getOrCreate ⟨Function.update s.sessions serverAddr none⟩ clientAddr serverAddr fuel

end SessionState

end Quilkin.Net.Xdp
