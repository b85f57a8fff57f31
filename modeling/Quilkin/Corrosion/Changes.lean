import Quilkin.Data.Vec
import Mathlib.Data.Rat.Floor

/-!
# Batching received changes

Model of `HandleChangesState` and of the loop of `handle_changes`
(`crates/corrosion/src/gossip/changes.rs`). Changes received from other nodes wait in a queue,
with `buf_cost` the cost of the queue; a batch of them is handed to one processing task when
the queue's cost reaches a threshold, a fraction of the current batch size, or when the timer
fires. The batch size grows with the queue's cost and is halved when the database runs out of
memory. The loop also keeps a cache of the `(actor, version)` pairs of the changes it has seen,
with their sequence numbers, skips a change whose pairs are all in it, and forgets the pairs of
a change dropped from a full queue.

corro_types' `ChangeV1` is outside the repository: what the loop reads of a change is a
`Change`, over the type of actor ids. `batch_threshold_ratio` is an `f64` in the source and a
rational here, and the clock is a count of its ticks. The task itself is not modelled: the
batch it was handed is kept, and its end is an event with its result. What the bookie already
holds enters as a predicate of the batch received; the clock updates, the rebroadcasts and the
metrics are left out.
-/

namespace Quilkin.Corrosion

namespace Changes

variable {I : Type} [DecidableEq I]

/-- What the loop reads of a `ChangeV1`: its actor, its versions (`versions()`, an inclusive
range), its sequence numbers (`seqs()`, an inclusive range, for a changeset with changes), and
`processing_cost()`. -/
structure Change (I : Type) where
  actorId : I
  versions : Nat × Nat
  seqs : Option (Nat × Nat)
  processingCost : Nat
  deriving DecidableEq

/-- The numbers of an inclusive range, in order. -/
def rangeList (r : Nat × Nat) : List Nat := List.range' r.1 (r.2 + 1 - r.1)

/-- `usize::MAX`. -/
def usizeMax : Nat := 2 ^ 64 - 1

/-- `ChangeOptions`: `processing_queue_len`, the batch sizes, the ratio of the threshold, and
`sql_tx_timeout` in ticks. -/
structure ChangeOptions where
  processingQueueLen : Nat
  applyQueueMinBatchSize : Nat
  applyQueueStepBase : Nat
  applyQueueMaxBatchSize : Nat
  applyQueueBatchThresholdRatio : ℚ
  sqlTxTimeout : Nat

/-- `ChangeOptions::default`, with the transaction timeout in ticks of a millisecond. -/
def ChangeOptions.default : ChangeOptions :=
  ⟨20000, 100, 500, 16000, 9 / 10, 60000⟩

/-- `HandleChangesState`: the queue, its cost, the batch size, the batch of the processing task
if one runs, whether the timer is set, and when the batch size was last halved. -/
structure HandleChangesState (I : Type) where
  queue : List (Change I)
  bufCost : Nat
  currentBatchSize : Nat
  processingTask : Option (List (Change I))
  maxWait : Bool
  halvedAt : Option Nat
  deriving DecidableEq

/-- What a processing task returned: `Ok(Ok(()))`, a `ChangeError` (an out-of-memory or
interrupt error or another), or a `JoinError`. -/
inductive TaskResult
  | ok
  | changeError (oomOrInterrupt : Bool)
  | joinError

/-- `Ord::clamp`, which panics when `min > max`. -/
def clamp (x min max : Nat) : Option Nat :=
  if max < min then none else some (if x < min then min else if max < x then max else x)

namespace HandleChangesState

variable (opts : ChangeOptions)

/-- `HandleChangesState::new`: an empty queue, the minimum batch size, and the timer set. -/
def new : HandleChangesState I :=
  ⟨[], 0, opts.applyQueueMinBatchSize, none, true, none⟩

/-- `in_grace_period` at the tick `now`. -/
def inGracePeriod (s : HandleChangesState I) (now : Nat) : Bool :=
  s.halvedAt.any fun t => now - t < opts.sqlTxTimeout

/-- `calculate_batch_size`: the step base times the greatest power of two that fits in
`cost / step_base`, clamped between the bounds, and no greater than the current size during the
grace period. -/
def calculateBatchSize (s : HandleChangesState I) (now cost : Nat) : Option Nat :=
  let computed := if opts.applyQueueStepBase = 0 ∨ cost < opts.applyQueueStepBase then
      some opts.applyQueueMinBatchSize
    else
      let size := opts.applyQueueStepBase * 2 ^ Nat.log2 (cost / opts.applyQueueStepBase)
      clamp size opts.applyQueueMinBatchSize opts.applyQueueMaxBatchSize
  computed.map fun computed =>
    if s.inGracePeriod opts now then min computed s.currentBatchSize else computed

/-- `batch_threshold`: the batch size times the ratio, rounded down. -/
def batchThreshold (s : HandleChangesState I) : Nat :=
  ⌊(s.currentBatchSize : ℚ) * opts.applyQueueBatchThresholdRatio⌋₊

/-- The loop of `drain_and_spawn`: changes taken from the front of the queue until their cost
reaches `targetSize`. Returns the batch, the rest of the queue and `buf_cost`; `none` where
`buf_cost` would go below zero. -/
def drainBatch (targetSize : Nat) :
    List (Change I) → Nat → Nat → Option (List (Change I) × List (Change I) × Nat)
  | [], _, bufCost => some ([], [], bufCost)
  | change :: queue, batchCost, bufCost =>
    if bufCost < change.processingCost then none
    else
      let batchCost := batchCost + change.processingCost
      let bufCost := bufCost - change.processingCost
      if targetSize ≤ batchCost then some ([change], queue, bufCost)
      else (drainBatch targetSize queue batchCost bufCost).map fun (batch, rest, bufCost) =>
        (change :: batch, rest, bufCost)

/-- `drain_and_spawn`: a batch handed to a new processing task. `none` at the two
`unreachable!`: a task already running, or an empty batch. -/
def drainAndSpawn (s : HandleChangesState I) (targetSize : Nat) : Option (HandleChangesState I) :=
  if s.processingTask.isSome then none
  else do
    let (batch, queue, bufCost) ← drainBatch targetSize s.queue 0 s.bufCost
    if batch.isEmpty then none
    else some { s with queue := queue, bufCost := bufCost, processingTask := some batch }

/-- The batch size grown to the cost of the queue, when the cost is over it. -/
def burst (s : HandleChangesState I) (now : Nat) : Option (HandleChangesState I) :=
  if s.currentBatchSize < s.bufCost then
    (s.calculateBatchSize opts now s.bufCost).map fun size => { s with currentBatchSize := size }
  else some s

/-- The match on the task's result in `handle_task_completion`, at the tick `now`: the batch
size halved, but not below the minimum, after an out-of-memory or interrupt error. -/
def handleTaskResult (s : HandleChangesState I) (result : TaskResult) (now : Nat) :
    HandleChangesState I :=
  match result with
  | .changeError true =>
    { s with currentBatchSize := max (s.currentBatchSize / 2) opts.applyQueueMinBatchSize,
             halvedAt := some now }
  | _ => s

/-- `handle_task_completion` at the tick `now`: the task's result handled; then a batch spawned
at once if the queue's cost reaches the threshold, or the timer set. -/
def handleTaskCompletion (s : HandleChangesState I) (result : TaskResult) (now : Nat) :
    Option (HandleChangesState I) :=
  let s := { s.handleTaskResult opts result now with processingTask := none }
  if s.batchThreshold opts ≤ s.bufCost then do
    let s ← s.burst opts now
    s.drainAndSpawn s.currentBatchSize
  else some { s with maxWait := true }

/-- `handle_timeout` at the tick `now`: whatever is queued is handed to a task and the batch
size recomputed from the cost left; with nothing queued and no task, the batch size is reset and
the timer set again. -/
def handleTimeout (s : HandleChangesState I) (now : Nat) : Option (HandleChangesState I) :=
  let s := { s with maxWait := false }
  if !s.queue.isEmpty then do
    let s ← s.drainAndSpawn usizeMax
    let size ← s.calculateBatchSize opts now s.bufCost
    some { s with currentBatchSize := size }
  else if s.processingTask.isNone ∧ s.maxWait = false then
    (s.calculateBatchSize opts now 0).map fun size =>
      { s with currentBatchSize := size, maxWait := true }
  else some s

/-- `maybe_drop_old_change`: the oldest change, dropped when the queue is full. -/
def maybeDropOldChange (s : HandleChangesState I) :
    Option (Option (Change I) × HandleChangesState I) :=
  if opts.processingQueueLen ≤ s.queue.length then
    match s.queue with
    | [] => some (none, s)
    | dropped :: queue =>
      if s.bufCost < dropped.processingCost then none
      else some (some dropped,
        { s with queue := queue, bufCost := s.bufCost - dropped.processingCost })
  else some (none, s)

/-- `handle_new_change` at the tick `now`: the change queued, and a batch spawned at once when
the queue's cost reaches the threshold and no task runs. `buf_cost` overflowing `usize` panics,
in a build with overflow checks. -/
def handleNewChange (s : HandleChangesState I) (change : Change I) (now : Nat) :
    Option (HandleChangesState I) :=
  if usizeMax < s.bufCost + change.processingCost then none
  else
    let s := { s with queue := s.queue ++ [change], bufCost := s.bufCost + change.processingCost }
    if s.bufCost < s.batchThreshold opts ∨ s.processingTask.isSome then some s
    else do
      let s ← { s with maxWait := false }.burst opts now
      s.drainAndSpawn s.currentBatchSize

end HandleChangesState

/-! ## The seen cache -/

/-- A `RangeInclusiveSet<CrsqlSeq>`, as its inclusive ranges. -/
abbrev SeqSet := List (Nat × Nat)

/-- `contains`. -/
def SeqSet.contains (set : SeqSet) (seq : Nat) : Bool := set.any fun r => r.1 ≤ seq && seq ≤ r.2

/-- `remove`: each range cut down to what lies outside `r`. -/
def SeqSet.remove (set : SeqSet) (r : Nat × Nat) : SeqSet :=
  set.flatMap fun q =>
    (if q.1 < r.1 then [(q.1, min q.2 (r.1 - 1))] else []) ++
      (if r.2 < q.2 then [(max q.1 (r.2 + 1), q.2)] else [])

/-- The `IndexMap` of seen `(actor, version)` pairs and their sequence numbers, in insertion
order. -/
abbrev Seen (I : Type) := List ((I × Nat) × SeqSet)

/-- The index of a key. -/
def Seen.index? (seen : Seen I) (key : I × Nat) : Option Nat := seen.findIdx? (·.1 == key)

/-- `get`. -/
def Seen.get? (seen : Seen I) (key : I × Nat) : Option SeqSet := (seen.find? (·.1 == key)).map (·.2)

/-- `contains_key`. -/
def Seen.containsKey (seen : Seen I) (key : I × Nat) : Bool := seen.any (·.1 == key)

/-- The check that skips a change: all its sequence numbers seen at its first version, or, for
a change without sequence numbers, all its versions seen. -/
def alreadySeen (seen : Seen I) (change : Change I) : Bool :=
  match change.seqs with
  | some seqs =>
    match seen.get? (change.actorId, change.versions.1) with
    | some seenSeqs => (rangeList seqs).all seenSeqs.contains
    | none => false
  | none => (rangeList change.versions).all fun v => seen.containsKey (change.actorId, v)

/-- The body of the loop over the versions of a change dropped from the queue, at the version
`v`: the entry of `(actorId, v)` loses the dropped change's sequence numbers, or, for a change
without any, is removed with `swap_remove_entry`. -/
def forgetVersion (actorId : I) (dropped : Change I) (seen : Seen I) (v : Nat) : Seen I :=
  match seen.index? (actorId, v) with
  | none => seen
  | some i =>
    match dropped.seqs with
    | some seqs => seen.modify i fun e => (e.1, e.2.remove seqs)
    | none => ((Vec.swapRemove seen i).map (·.2)).getD seen

/-- The loop over the versions of a change dropped from the queue. The actor is the one the loop
passes, the actor of the change that arrived. -/
def forgetDropped (actorId : I) (dropped : Change I) (seen : Seen I) : Seen I :=
  (rangeList dropped.versions).foldl (forgetVersion actorId dropped) seen

/-- The body of the loop that registers a change, at the version `v`: `or_default` adds an empty
entry for `(actor_id, v)` at the end when there is none, and `extend` adds the change's sequence
numbers to it. -/
def registerVersion (change : Change I) (seen : Seen I) (v : Nat) : Seen I :=
  let key := (change.actorId, v)
  let seen := if seen.containsKey key then seen else seen ++ [(key, [])]
  match change.seqs with
  | some seqs => seen.map fun e => if e.1 == key then (e.1, e.2 ++ [seqs]) else e
  | none => seen

/-- The loop that registers a change: an entry for each of its versions. -/
def registerSeen (change : Change I) (seen : Seen I) : Seen I :=
  (rangeList change.versions).foldl (registerVersion change) seen

/-! ## The loop -/

/-- The state of `handle_changes`: the batcher and the seen cache. -/
structure Loop (I : Type) where
  state : HandleChangesState I
  seen : Seen I
  deriving DecidableEq

/-- The branch the `select!` takes, with the tick it is taken at: a task that ended, a batch of
changes received with what the bookie already holds, the timer, or the end of the channel or
the tripwire. -/
inductive Event (I : Type)
  | taskCompleted (result : TaskResult)
  | received (changes : List (Change I)) (booked : Change I → Bool)
  | timeout
  | closed

variable (opts : ChangeOptions) (self : I)

omit [DecidableEq I] in
theorem maybeDropOldChange_length {s s' : HandleChangesState I} {dropped : Change I}
    (h : s.maybeDropOldChange opts = some (some dropped, s')) :
    s'.queue.length < s.queue.length := by
  unfold HandleChangesState.maybeDropOldChange at h
  split_ifs at h with hfull
  · split at h
    · cases h
    · rename_i queue hq
      split_ifs at h
      cases h
      simp [hq]
  · cases h

/-- The `while let` over `maybe_drop_old_change` for a change of the actor `actorId`: each
change dropped is forgotten in the seen cache. -/
def dropOldChanges (actorId : I) (seen : Seen I) (s : HandleChangesState I) :
    Option (Seen I × HandleChangesState I) :=
  match h : s.maybeDropOldChange opts with
  | none => none
  | some (none, s) => some (seen, s)
  | some (some dropped, s') =>
    have := maybeDropOldChange_length opts h
    dropOldChanges actorId (forgetDropped actorId dropped seen) s'
termination_by s.queue.length

/-- One change of a batch received, at the tick `now`: skipped when it is this node's own, when
the seen cache or the bookie has it; otherwise room is made in the queue, its versions are
registered, and it is queued. -/
def receiveChange (booked : Change I → Bool) (now : Nat) (l : Loop I) (change : Change I) :
    Option (Loop I) :=
  if change.actorId = self then some l
  else if alreadySeen l.seen change then some l
  else if booked change then some l
  else do
    let (seen, s) ← dropOldChanges opts change.actorId l.seen l.state
    let seen := registerSeen change seen
    let s ← s.handleNewChange opts change now
    some ⟨s, seen⟩

/-- `keep_seen_cache_size`. -/
def keepSeenCacheSize : Nat :=
  if 10 < opts.processingQueueLen then max 10 (opts.processingQueueLen / 10) else 0

/-- One iteration of the loop at the tick `now`: `none` where it panics, `some none` where the
loop ends. A task's end or the timer is taken only when there is a task or a timer. -/
def step (now : Nat) (l : Loop I) : Event I → Option (Option (Loop I))
  | .taskCompleted result =>
    if l.state.processingTask.isSome then
      (l.state.handleTaskCompletion opts result now).map fun s => some { l with state := s }
    else some (some l)
  | .received changes booked =>
    (changes.foldlM (receiveChange opts self booked now) l).map some
  | .timeout =>
    if l.state.maxWait then
      (l.state.handleTimeout opts now).map fun s =>
        let seen := if opts.processingQueueLen < l.seen.length then
            l.seen.drop (l.seen.length - keepSeenCacheSize opts)
          else l.seen
        some ⟨s, seen⟩
    else some (some l)
  | .closed => some none

/-- The loop from `HandleChangesState::new` and an empty cache. -/
def init : Loop I := ⟨HandleChangesState.new opts, []⟩

/-- Iterations one after the other, each at its tick. -/
def run : Loop I → List (Nat × Event I) → Option (Option (Loop I))
  | l, [] => some (some l)
  | l, (now, event) :: events =>
    match step opts self now l event with
    | some (some l) => run l events
    | r => r

end Changes

end Quilkin.Corrosion
