import Quilkin.Net.Pipeline
import Quilkin.Data.SetMap
import Mathlib.Data.List.AList

/-!
# The session pool

Model of `SessionPool` (`src/net/sessions.rs`), which gives each pair of a client and a server a
session with an upstream socket, and shares sockets between sessions to different servers: a
server's replies are told apart by the server's address and the socket's port. Four maps of its
`SocketStorage` record which sockets a server is reserved on, which servers a socket serves,
which client a server and port belong to, and a client's GeoIP entry. `get` returns the session
of a key or makes one, on a socket the server has no session on yet, or on a new socket; the
removal of a session (by `TtlMap::remove` or its expiry) drops it, and the drop releases its
socket through `release_socket`.

The pool's surroundings are parameters: the order `HashMap::iter` visits the allocated ports in,
the port the system binds a new socket to, and the GeoIP lookup. A session keeps, of what it
holds, its key, its port and its GeoIP entry; the queues are known by their port.
-/

namespace Quilkin.Net

deriving instance DecidableEq for SessionKey

/-- `Session`, by its key, its socket's port and its GeoIP entry. -/
structure Session (A : Type) where
  key : SessionKey
  socketPort : UInt16
  asnInfo : Option A

/-- The surroundings of the pool, for a type `A` of GeoIP entries: the order `HashMap::iter`
visits the allocated ports in, as a function of the order they were allocated in; the port the
system binds a new socket to, given the allocated ports, or the error of making the socket and
its session loop; and `MaxmindDb::lookup`. A new socket's port is not an allocated one. -/
structure Env (A : Type) where
  iterOrder : List UInt16 → List UInt16
  iterOrder_perm : ∀ ports, (iterOrder ports).Perm ports
  newSocket : List UInt16 → Except PipelineError UInt16
  newSocket_fresh : ∀ ports port, newSocket ports = .ok port → port ∉ ports
  lookup : IpAddr → Option A

/-- `SessionPool`: the allocated ports (the keys of `ports_to_sockets`) in the order they were
allocated in, the four maps of `SocketStorage`, the session map and `max_sessions`. -/
structure SessionPool (A : Type) where
  portsToSockets : List UInt16
  destinationToSockets : SetMap SocketAddr UInt16
  destinationToSources : SocketAddr × UInt16 → Option SocketAddr
  sourcesToAsnInfo : SocketAddr → Option A
  socketsToDestination : SetMap UInt16 SocketAddr
  sessionMap : AList fun _ : SessionKey => Session A
  maxSessions : Nat

namespace SessionPool

variable {A : Type} (env : Env A)

/-- `SessionPool::new`: nothing allocated and no session. -/
def new (maxSessions : Nat) : SessionPool A :=
  ⟨[], SetMap.empty, fun _ => none, fun _ => none, SetMap.empty, ∅, maxSessions⟩

/-- `create_session_from_existing_socket`: the socket is reserved for the server, the server
recorded for the socket and the client for the pair, the client's GeoIP entry stored when the
lookup finds one, and the session inserted. It returns the entry and the socket's port. -/
def createSessionFromExistingSocket (pool : SessionPool A) (key : SessionKey) (socketPort : UInt16) :
    (Option A × UInt16) × SessionPool A :=
  let asnInfo := env.lookup key.source.ip
  ((asnInfo, socketPort),
    { pool with
      destinationToSockets := pool.destinationToSockets.insertAt key.dest socketPort
      socketsToDestination := pool.socketsToDestination.insertAt socketPort key.dest
      destinationToSources :=
        Function.update pool.destinationToSources (key.dest, socketPort) (some key.source)
      sourcesToAsnInfo :=
        match asnInfo with
        | some asn => Function.update pool.sourcesToAsnInfo key.source (some asn)
        | none => pool.sourcesToAsnInfo
      sessionMap := pool.sessionMap.insert key ⟨key, socketPort, asnInfo⟩ })

/-- `create_new_session_from_new_socket`: a new socket, whose port is allocated, and a session on
it. -/
def createNewSessionFromNewSocket (pool : SessionPool A) (key : SessionKey) :
    Except PipelineError ((Option A × UInt16) × SessionPool A) := do
  let port ← env.newSocket pool.portsToSockets
  pure (createSessionFromExistingSocket env
    { pool with portsToSockets := pool.portsToSockets ++ [port] } key port)

/-- `get`. The session of the key if there is one; none past `max_sessions`; otherwise a session
on the first allocated socket when the server has no socket reserved, or on the first allocated
socket not reserved for it (reserved first), or on a new socket. -/
def get (pool : SessionPool A) (key : SessionKey) :
    Except PipelineError ((Option A × UInt16) × SessionPool A) :=
  match pool.sessionMap.lookup key with
  | some entry => .ok ((entry.asnInfo, entry.socketPort), pool)
  | none =>
    if pool.sessionMap.entries.length ≥ pool.maxSessions then .error .sessionLimit
    else
      match pool.destinationToSockets key.dest with
      | none =>
        if pool.portsToSockets.isEmpty then createNewSessionFromNewSocket env pool key
        else
          match (env.iterOrder pool.portsToSockets).head? with
          | some port => .ok (createSessionFromExistingSocket env pool key port)
          | none => .error (.session "couldn't obtain any allocated socket, should be unreachable")
      | some socketSet =>
        match (env.iterOrder pool.portsToSockets).find? fun port => port ∉ socketSet with
        | some port =>
          .ok (createSessionFromExistingSocket env
            { pool with
              destinationToSockets :=
                Function.update pool.destinationToSockets key.dest (some (insert port socketSet)) }
            key port)
        | none => createNewSessionFromNewSocket env pool key

/-- `release_socket`: the port out of the server's reservations and the server out of the port's,
each key going with its last value, then the client's GeoIP entry and the pair's client. It stops
early where the server or the port has no entry. -/
def releaseSocket (pool : SessionPool A) (key : SessionKey) (port : UInt16) : SessionPool A :=
  match pool.destinationToSockets key.dest with
  | none => pool
  | some _ =>
    let pool := { pool with
      destinationToSockets := pool.destinationToSockets.eraseAt key.dest port }
    match pool.socketsToDestination port with
    | none => pool
    | some _ =>
      { pool with
        socketsToDestination := pool.socketsToDestination.eraseAt port key.dest
        sourcesToAsnInfo := Function.update pool.sourcesToAsnInfo key.source none
        destinationToSources := Function.update pool.destinationToSources (key.dest, port) none }

/-- `TtlMap::remove` of a key, by a caller or by the expiry of the session: the session leaves the
map, and dropping it releases its socket. -/
def remove (pool : SessionPool A) (key : SessionKey) : SessionPool A :=
  match pool.sessionMap.lookup key with
  | some session =>
    releaseSocket { pool with sessionMap := pool.sessionMap.erase key } session.key
      session.socketPort
  | none => pool

/-- What happens to the pool: `get` of a key, or the removal of one. -/
inductive Op
  | get (key : SessionKey)
  | remove (key : SessionKey)

/-- One operation; a `get` that fails leaves the pool as it was. -/
def step (pool : SessionPool A) : Op → SessionPool A
  | .get key =>
    match pool.get env key with
    | .ok (_, pool') => pool'
    | .error _ => pool
  | .remove key => pool.remove key

/-- The operations one at a time. -/
def run (pool : SessionPool A) (ops : List Op) : SessionPool A := ops.foldl (step env) pool

end SessionPool

end Quilkin.Net
