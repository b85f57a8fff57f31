import Quilkin.Corrosion.Mutator
import Quilkin.Data.StepRun
import Mathlib.Data.List.AList

/-!
# Pushing a proxy's servers to corrosion

Model of the corrosion push provider (`src/providers/corrosion/push.rs`). The Kubernetes provider
tells a `ServerMutator` about game servers by their uid: `LocalState` keeps the endpoint and
token set of each, and every change is sent on a channel as a `Mutation` naming the uid, or the
endpoint removed. The `Pusher`, once connected to a corrosion server, drains the channel, sends
the whole local state as one upsert, and then reads the channel into an `Accumulator`, which
looks each uid up in the local state when it reads the mutation. At the end of each batch window
the accumulator is flushed: its upserts, then its removals, then its updates, each sent as one
change, which the corrosion server runs in that order (`Corrosion.submit`).

The uid, endpoint and token set are type parameters: the code only compares them. The ICAO code
and the QCMP port, which the pusher also sends, change nothing in the servers' token sets and are
left out, as are the reconnection loop and the health check: a `PushSession` is one connection.
The mutator's calls and the pusher's steps interleave in any order (`PushSession.Event`): a call
changes the local state and sends its mutations at once, since the pusher reads only mutations
already sent.
-/

namespace Quilkin.Providers

open Corrosion

variable {Id Ep Ts : Type}

/-- `Mutation`: an upsert or an update of the server of a uid, or the removal of an endpoint. -/
inductive Mutation (Id Ep : Type)
  | upsert (id : Id)
  | update (id : Id)
  | remove (endpoint : Ep)
  deriving DecidableEq

/-- `LocalState`: the endpoint and token set of each server, by uid. -/
structure LocalState (Id Ep Ts : Type) where
  servers : AList fun _ : Id => Ep × Ts

namespace ServerMutator

variable [DecidableEq Id] [DecidableEq Ep] [DecidableEq Ts] (state : LocalState Id Ep Ts)

/-- `upsert_server`: a new uid is added; a uid whose endpoint changed gets the new endpoint and
token set, and the old endpoint is removed; a uid whose token set changed gets the new one; and
nothing is sent when nothing changed. -/
def upsertServer (id : Id) (endpoint : Ep) (ts : Ts) : LocalState Id Ep Ts × List (Mutation Id Ep) :=
  match state.servers.lookup id with
  | none => (⟨state.servers.insert id (endpoint, ts)⟩, [.upsert id])
  | some v =>
    if v.1 ≠ endpoint then (⟨state.servers.insert id (endpoint, ts)⟩, [.remove v.1, .upsert id])
    else if v.2 = ts then (state, [])
    else (⟨state.servers.insert id (v.1, ts)⟩, [.update id])

/-- `remove_server`: the endpoint of the uid, if it has one, is removed. -/
def removeServer (id : Id) : LocalState Id Ep Ts × List (Mutation Id Ep) :=
  match state.servers.lookup id with
  | none => (state, [])
  | some v => (⟨state.servers.erase id⟩, [.remove v.1])

variable {α : Type}

/-- Calls one after the other, each on the state the one before left, with the mutations of all
of them in order. -/
def calls (call : LocalState Id Ep Ts → α → LocalState Id Ep Ts × List (Mutation Id Ep)) :
    LocalState Id Ep Ts → List α → LocalState Id Ep Ts × List (Mutation Id Ep)
  | state, [] => (state, [])
  | state, a :: as =>
    let (state₁, sent₁) := call state a
    let (state₂, sent₂) := calls call state₁ as
    (state₂, sent₁ ++ sent₂)

/-- `replace`: the uids the new set lacks are removed, in the order the state lists them, then
every server of the set is upserted, in the set's order. -/
def replace (set : AList fun _ : Id => Ep × Ts) : LocalState Id Ep Ts × List (Mutation Id Ep) :=
  let toRemove := state.servers.keys.filter fun id => id ∉ set
  let (state₁, removed) := calls removeServer state toRemove
  let (state₂, upserted) :=
    calls (fun state (e : Sigma fun _ : Id => Ep × Ts) => upsertServer state e.1 e.2.1 e.2.2) state₁
      set.entries
  (state₂, removed ++ upserted)

end ServerMutator

/-- `Accumulator`: the upserts, updates and removals read since the last flush. -/
structure Accumulator (Ep Ts : Type) where
  upserts : List (ServerUpsert Ep Ts)
  updates : List (ServerUpdate Ep Ts)
  removes : List Ep

namespace Accumulator

/-- `Accumulator::new`. -/
def new : Accumulator Ep Ts := ⟨[], [], []⟩

variable [DecidableEq Id] (state : LocalState Id Ep Ts) (acc : Accumulator Ep Ts)

/-- `accumulate`: an upsert or an update takes the server the uid has when it is read, and is
dropped when the uid has none by then. -/
def accumulate : Mutation Id Ep → Accumulator Ep Ts
  | .upsert id =>
    match state.servers.lookup id with
    | some server => { acc with upserts := acc.upserts ++ [⟨server.1, server.2⟩] }
    | none => acc
  | .update id =>
    match state.servers.lookup id with
    | some server => { acc with updates := acc.updates ++ [⟨server.1, some server.2⟩] }
    | none => acc
  | .remove endpoint => { acc with removes := acc.removes ++ [endpoint] }

/-- `(!v.is_empty()).then_some(v)`. -/
def nonEmpty {β : Type} (v : List β) : Option (List β) := if v.isEmpty then none else some v

/-- `take`: the upserts, updates and removals there are, and an empty accumulator. -/
def take : (Option (List (ServerUpsert Ep Ts)) × Option (List (ServerUpdate Ep Ts)) ×
    Option (List Ep)) × Accumulator Ep Ts :=
  ((nonEmpty acc.upserts, nonEmpty acc.updates, nonEmpty acc.removes), new)

/-- The `flush!` of the pusher's loop: the changes it sends, upserts first, then removals, then
updates, and the accumulator after. Changes to the mutator are sent elsewhere in the loop. -/
def flush : List (PushChange Ep Ts Unit) × Accumulator Ep Ts :=
  let ((up, u, r), acc) := acc.take
  (up.toList.map .upsert ++ r.toList.map .remove ++ u.toList.map .update, acc)

end Accumulator

/-- A connection of the pusher: the local state it shares with the mutator, the mutations on the
channel it has not read, its accumulator, and the servers table of the corrosion server. -/
structure PushSession (Id Ep Ts : Type) where
  state : LocalState Id Ep Ts
  rx : List (Mutation Id Ep)
  accumulator : Accumulator Ep Ts
  servers : ServersTable Ep Ts

namespace PushSession

/-- What happens next: a call of the mutator, the pusher reading the next mutation, or the end of
the batch window. -/
inductive Event (Id Ep Ts : Type)
  | upsertServer (id : Id) (endpoint : Ep) (ts : Ts)
  | removeServer (id : Id)
  | recv
  | flush

variable [DecidableEq Id] [DecidableEq Ep] [DecidableEq Ts]

/-- The start of `push`: the channel is drained, and the whole local state is sent as one upsert.
The ICAO code and the mutator's changes are left out. -/
def connect (state : LocalState Id Ep Ts) (servers : ServersTable Ep Ts) : PushSession Id Ep Ts :=
  ⟨state, [], .new,
    submit servers ([.upsert (state.servers.entries.map fun e => ⟨e.2.1, e.2.2⟩)] :
      List (PushChange Ep Ts Unit))⟩

/-- One event; `recv` waits while the channel is empty. -/
def step (s : PushSession Id Ep Ts) : Event Id Ep Ts → Option (PushSession Id Ep Ts)
  | .upsertServer id endpoint ts =>
    let (state, sent) := ServerMutator.upsertServer s.state id endpoint ts
    some { s with state, rx := s.rx ++ sent }
  | .removeServer id =>
    let (state, sent) := ServerMutator.removeServer s.state id
    some { s with state, rx := s.rx ++ sent }
  | .recv =>
    match s.rx with
    | [] => none
    | m :: rx => some { s with rx, accumulator := s.accumulator.accumulate s.state m }
  | .flush =>
    let (changes, accumulator) := s.accumulator.flush
    some { s with accumulator, servers := submit s.servers changes }

end PushSession

/-- The calls `replace` makes, as events: the removals of the uids the set lacks, then the
upserts of the set. -/
def replaceCalls [DecidableEq Id] (state : LocalState Id Ep Ts) (set : AList fun _ : Id => Ep × Ts) :
    List (PushSession.Event Id Ep Ts) :=
  (state.servers.keys.filter fun id => id ∉ set).map .removeServer ++
    set.entries.map fun e => .upsertServer e.1 e.2.1 e.2.2

end Quilkin.Providers
