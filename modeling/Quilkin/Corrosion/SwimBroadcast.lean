import Quilkin.Bytes.Endian

/-!
# The broadcast queues of the SWIM loop

Model of the loop of `handle_broadcasts` and of `drop_oldest_broadcast`
(`crates/corrosion/src/gossip/swim.rs`). Broadcasts wait in two queues: `to_local_broadcast`,
the payloads of this node's own broadcasts, sent to ring0 first, and `to_broadcast`, the
buffers of many broadcasts and the broadcasts waiting to be sent again, each with the number of
times it was sent. New entries go to the front of each queue, so the oldest stand at the back.
Each iteration takes one branch of the `select!`, which may push entries, then sends what the
limit of `MAX_INFLIGHT_BROADCAST` tasks in flight and the rate limiter allow, and last drops
one entry when the two queues together hold more than `MAX_QUEUE_LEN`.

What the loop does not decide is an input: the branch the `select!` takes; the bytes
`UniPayload::write_to_stream` writes for a broadcast (`none` when it fails); and, in `Env`,
the addresses of ring0 and of the other members, `choose_multiple`, the counts and settings the
numbers of transmissions come from, and the answer of the rate limiter to each transmission of
the iteration, by its number. The tasks in flight are a count, which the `join_next` branch
lowers by one; the pending broadcasts asleep in `idle_pendings` come back through the
`WokePendingBroadcast` branch in any order.
-/

namespace Quilkin.Corrosion

namespace SwimBroadcast

open ByteOrder (toBE)

/-- `MAX_INFLIGHT_BROADCAST`. -/
def maxInflightBroadcast : Nat := 500

/-- `MAX_QUEUE_LEN`. -/
def maxQueueLen : Nat := 20000

/-- `broadcast_cutoff`. -/
def broadcastCutoff : Nat := 64 * 1024

/-- The `max_frame_length` of `bcast_codec`. -/
def maxFrameLength : Nat := 10 * 1024 * 1024

/-- `LengthDelimitedCodec::encode` as `bcast_codec` is built: the data behind its length as a
big-endian `u32`, and an error for data over `max_frame_length`. -/
def encodeFrame (data : List UInt8) : Option (List UInt8) :=
  if maxFrameLength < data.length then none else some (toBE 4 data.length ++ data)

/-- `PendingBroadcast`: a payload, whether it is this node's own, the addresses it was sent to,
and the number of times it was sent. -/
structure PendingBroadcast (Addr : Type) where
  payload : List UInt8
  isLocal : Bool
  sentTo : List Addr
  sendCount : UInt8

variable {Addr : Type} [DecidableEq Addr]

namespace PendingBroadcast

/-- `PendingBroadcast::new`. -/
def new (payload : List UInt8) : PendingBroadcast Addr := ⟨payload, false, [], 0⟩

/-- `PendingBroadcast::new_local`. -/
def newLocal (payload : List UInt8) : PendingBroadcast Addr := ⟨payload, true, [], 0⟩

/-- `contains`. -/
def contains (p : PendingBroadcast Addr) (addr : Addr) : Bool := p.sentTo.any (· == addr)

/-- `insert`: an address not there yet is pushed. -/
def insert (p : PendingBroadcast Addr) (addr : Addr) : PendingBroadcast Addr :=
  if p.contains addr then p else { p with sentTo := p.sentTo ++ [addr] }

end PendingBroadcast

/-! ## Dropping from the queues -/

/-- `Iterator::max_by_key` on the send counts of the queue's entries and their indices: the
last entry of the greatest count, as `max_by` keeps the later of two equal elements. -/
def maxBySendCount :
    List (PendingBroadcast Addr × Nat) → Option (PendingBroadcast Addr × Nat)
  | [] => none
  | x :: xs => some (xs.foldl (fun best y => if best.1.sendCount ≤ y.1.sendCount then y else best) x)

/-- `drop_oldest_broadcast`: nothing while the queues hold at most `max` entries; otherwise the
entry of `queue` with the greatest send count, the oldest of those, or when `queue` is empty the
oldest local payload. Returns the entry dropped and the two queues. -/
def dropOldestBroadcast (queue : List (PendingBroadcast Addr)) (localQueue : List (List UInt8))
    (max : Nat) :
    Option (PendingBroadcast Addr) × List (PendingBroadcast Addr) × List (List UInt8) :=
  if queue.length + localQueue.length ≤ max then (none, queue, localQueue)
  else
    match maxBySendCount queue.zipIdx with
    | some (_, i) => (queue[i]?, queue.eraseIdx i, localQueue)
    | none => (localQueue.getLast?.map PendingBroadcast.newLocal, queue, localQueue.dropLast)

/-! ## The loop -/

/-- `bx::BroadcastInput`, with the bytes `UniPayload::write_to_stream` writes for the broadcast,
`none` when it fails. -/
inductive BroadcastInput
  | rebroadcast (bytes : Option (List UInt8))
  | addBroadcast (bytes : Option (List UInt8))

/-- The branch the `select!` takes: `Branch`, with the two arms that end the loop or the
iteration on their own. `closed` is the end of the input channel, and `joined` a task in flight
that completed. -/
inductive Branch
  | broadcast (input : BroadcastInput)
  | closed
  | joined
  | broadcastDeadline
  | wokePendingBroadcast (index : Nat)
  | tripped
  | metrics

/-- The rate limiter's answer to `check_n`. -/
inductive RateCheck
  | allowed
  | quotaExceeded
  | insufficientCapacity

/-- `TransmitError`, and the spawned task. -/
inductive TransmitOutcome
  | ok
  | tooBig
  | quotaExceeded
  | insufficientCapacity
  deriving DecidableEq

/-- `try_transmit_broadcast`: an empty payload, or one whose length is not a `u32`, is too big;
otherwise the rate limiter decides. -/
def tryTransmitBroadcast (check : RateCheck) (payload : List UInt8) : TransmitOutcome :=
  if payload.length = 0 ∨ 2 ^ 32 ≤ payload.length then .tooBig
  else
    match check with
    | .allowed => .ok
    | .quotaExceeded => .quotaExceeded
    | .insufficientCapacity => .insufficientCapacity

/-- What one iteration reads of the world: the addresses of ring0; the addresses of the members
that are not this node and are of its cluster; `choose_multiple`; the number of members and the
settings `max_transmissions` and `num_indirect_probes`; and the rate limiter's answer to each
transmission, by its number in the iteration. -/
structure Env (Addr : Type) where
  ring0 : List Addr
  members : List Addr
  choose : List Addr → Nat → List Addr
  membersCount : Nat
  maxTransmissions : UInt8
  maxTransmissions_pos : 0 < maxTransmissions
  numIndirectProbes : Nat
  check : Nat → RateCheck

/-- The state of the loop. -/
structure State (Addr : Type) where
  bcastBuf : List UInt8
  localBcastBuf : List UInt8
  toBroadcast : List (PendingBroadcast Addr)
  toLocalBroadcast : List (List UInt8)
  idlePendings : List (PendingBroadcast Addr)
  inflight : Nat
  rateLimited : Bool

/-- The state before the first iteration. -/
def State.init : State Addr := ⟨[], [], [], [], [], 0, false⟩

/-- The entries of the two queues. -/
def State.queueLen (s : State Addr) : Nat := s.toBroadcast.length + s.toLocalBroadcast.length

/-- What the branch does before the sends: `none` when the loop ends, `.inl` of the state when
the iteration ends there (`continue`), `.inr` when it goes on to the sends. -/
def applyBranch (s : State Addr) : Branch → Option (State Addr ⊕ State Addr)
  | .closed => none
  | .tripped => none
  | .joined => some (.inl { s with inflight := s.inflight - 1 })
  | .metrics => some (.inr s)
  | .broadcastDeadline =>
    let s := if s.bcastBuf.isEmpty then s
      else { s with toBroadcast := .new s.bcastBuf :: s.toBroadcast, bcastBuf := [] }
    let s := if s.localBcastBuf.isEmpty then s
      else { s with toBroadcast := .newLocal s.localBcastBuf :: s.toBroadcast, localBcastBuf := [] }
    some (.inr s)
  | .wokePendingBroadcast index =>
    match s.idlePendings[index]? with
    | some pending =>
      some (.inr { s with toBroadcast := pending :: s.toBroadcast,
                          idlePendings := s.idlePendings.eraseIdx index })
    | none => some (.inl s)
  | .broadcast (.addBroadcast none) => some (.inl s)
  | .broadcast (.rebroadcast none) => some (.inl s)
  | .broadcast (.addBroadcast (some bytes)) =>
    match encodeFrame bytes with
    | none => some (.inl s)
    | some payload =>
      let s := { s with localBcastBuf := s.localBcastBuf ++ payload,
                        toLocalBroadcast := payload :: s.toLocalBroadcast }
      if broadcastCutoff ≤ s.localBcastBuf.length then
        some (.inr { s with toBroadcast := .newLocal s.localBcastBuf :: s.toBroadcast,
                            localBcastBuf := [] })
      else some (.inr s)
  | .broadcast (.rebroadcast (some bytes)) =>
    match encodeFrame bytes with
    | none => some (.inl { s with bcastBuf := [] })
    | some frame =>
      let s := { s with bcastBuf := s.bcastBuf ++ frame }
      if broadcastCutoff ≤ s.bcastBuf.length then
        some (.inr { s with toBroadcast := .new s.bcastBuf :: s.toBroadcast, bcastBuf := [] })
      else some (.inr s)

/-- The running state of the sends of an iteration: the tasks in flight, the transmissions
tried, whether the rate limiter refused one, and the `ring0` set. -/
structure Sends (Addr : Type) where
  inflight : Nat
  tries : Nat
  rateLimited : Bool
  ring0 : List Addr

/-- The loop over `members.ring0` for one local payload: while fewer than
`MAX_INFLIGHT_BROADCAST` tasks are in flight, each address is counted and sent to, until the
rate limiter refuses. Returns the sends, the tasks spawned and the addresses counted. -/
def transmitLocal (env : Env Addr) (payload : List UInt8) :
    List Addr → Sends Addr → Nat → Nat → Sends Addr × Nat × Nat
  | [], d, spawnCount, ring0Count => (d, spawnCount, ring0Count)
  | addr :: addrs, d, spawnCount, ring0Count =>
    if maxInflightBroadcast ≤ d.inflight then (d, spawnCount, ring0Count)
    else
      let d := { d with ring0 := d.ring0.insert addr }
      match tryTransmitBroadcast (env.check d.tries) payload with
      | .ok =>
        transmitLocal env payload addrs { d with inflight := d.inflight + 1, tries := d.tries + 1 }
          (spawnCount + 1) (ring0Count + 1)
      | .quotaExceeded => ({ d with rateLimited := true, tries := d.tries + 1 }, spawnCount,
          ring0Count + 1)
      | _ => transmitLocal env payload addrs { d with tries := d.tries + 1 } spawnCount
          (ring0Count + 1)

/-- The loop over `to_local_broadcast`: the front payload is taken while fewer than
`MAX_INFLIGHT_BROADCAST` tasks are in flight, and put back, ending the loop, when the rate
limiter has refused and nothing was spawned for it though ring0 had an address. -/
def drainLocal (env : Env Addr) :
    List (List UInt8) → Sends Addr → List (List UInt8) × Sends Addr
  | [], d => ([], d)
  | payload :: rest, d =>
    if maxInflightBroadcast ≤ d.inflight then (payload :: rest, d)
    else
      let (d, spawnCount, ring0Count) := transmitLocal env payload env.ring0 d 0 0
      if d.rateLimited ∧ spawnCount = 0 ∧ 0 < ring0Count then (payload :: rest, d)
      else drainLocal env rest d

/-- The loop over the addresses chosen for a pending broadcast: each is sent to, and recorded in
the broadcast, until the rate limiter refuses. -/
def transmitPending (env : Env Addr) (payload : List UInt8) :
    List Addr → Sends Addr → PendingBroadcast Addr → Sends Addr × PendingBroadcast Addr
  | [], d, pending => (d, pending)
  | addr :: addrs, d, pending =>
    match tryTransmitBroadcast (env.check d.tries) payload with
    | .ok =>
      transmitPending env payload addrs { d with inflight := d.inflight + 1, tries := d.tries + 1 }
        (pending.insert addr)
    | .quotaExceeded => ({ d with tries := d.tries + 1 }, pending)
    | _ => transmitPending env payload addrs { d with tries := d.tries + 1 } pending

/-- `choose_count` and `max_transmissions`, halved after an iteration the rate limiter refused;
`none` where `members_count - ring0_count` underflows. -/
def chooseCounts (env : Env Addr) (prevRateLimited : Bool) : Option (Nat × UInt8) :=
  if env.membersCount < env.ring0.length then none
  else
    let dynamicCount := (env.membersCount - env.ring0.length) / (env.maxTransmissions.toNat * 10)
    let count := max env.numIndirectProbes dynamicCount
    if prevRateLimited then some (min count (dynamicCount / 2), env.maxTransmissions / 2)
    else some (count, env.maxTransmissions)

/-- The loop over `to_broadcast`: while fewer than `MAX_INFLIGHT_BROADCAST` tasks are in flight
the front broadcast is taken and sent to members chosen among those it may go to; it is then
put to sleep in `idle_pendings` unless its send count overflows or reaches `max_transmissions`.
-/
def drainGlobal (env : Env Addr) (chooseCount : Nat) (maxTransmissions : UInt8) :
    List (PendingBroadcast Addr) → Sends Addr → List (PendingBroadcast Addr) →
      List (PendingBroadcast Addr) × Sends Addr × List (PendingBroadcast Addr)
  | [], d, idle => ([], d, idle)
  | pending :: rest, d, idle =>
    if maxInflightBroadcast ≤ d.inflight then (pending :: rest, d, idle)
    else
      let candidates := env.members.filter fun addr =>
        !((pending.isLocal && d.ring0.contains addr) || pending.contains addr)
      let broadcastTo := env.choose candidates (min chooseCount (maxInflightBroadcast - d.inflight))
      let (d, pending) := transmitPending env pending.payload broadcastTo d pending
      if pending.sendCount = 255 then drainGlobal env chooseCount maxTransmissions rest d idle
      else
        let pending := { pending with sendCount := pending.sendCount + 1 }
        if maxTransmissions ≤ pending.sendCount then
          drainGlobal env chooseCount maxTransmissions rest d idle
        else drainGlobal env chooseCount maxTransmissions rest d (idle ++ [pending])

/-- The sends of an iteration: local payloads first, then, unless the rate limiter refused, the
broadcasts of `to_broadcast`. -/
def sendBroadcasts (env : Env Addr) (s : State Addr) : Option (State Addr) :=
  let prevRateLimited := s.rateLimited
  let (toLocal, d) := drainLocal env s.toLocalBroadcast ⟨s.inflight, 0, false, []⟩
  let s := { s with toLocalBroadcast := toLocal }
  if !d.rateLimited ∧ s.toBroadcast ≠ [] ∧ d.inflight < maxInflightBroadcast then
    match chooseCounts env prevRateLimited with
    | none => none
    | some (chooseCount, maxTransmissions) =>
      let (toBroadcast, d, idle) :=
        drainGlobal env chooseCount maxTransmissions s.toBroadcast d s.idlePendings
      some { s with toBroadcast := toBroadcast, idlePendings := idle, inflight := d.inflight,
                    rateLimited := d.rateLimited }
  else some { s with inflight := d.inflight, rateLimited := d.rateLimited }

/-- One iteration of the loop: `none` where it panics, `some none` where the loop ends. -/
def step (env : Env Addr) (s : State Addr) (branch : Branch) : Option (Option (State Addr)) :=
  match applyBranch s branch with
  | none => some none
  | some (.inl s) => some (some s)
  | some (.inr s) =>
    (sendBroadcasts env s).map fun s =>
      let (_, toBroadcast, toLocal) :=
        dropOldestBroadcast s.toBroadcast s.toLocalBroadcast maxQueueLen
      some { s with toBroadcast := toBroadcast, toLocalBroadcast := toLocal }

/-- Iterations one after the other, each with its world and branch. -/
def run : State Addr → List (Env Addr × Branch) → Option (Option (State Addr))
  | s, [] => some (some s)
  | s, (env, branch) :: rest =>
    match step env s branch with
    | some (some s) => run s rest
    | r => r

end SwimBroadcast

end Quilkin.Corrosion
