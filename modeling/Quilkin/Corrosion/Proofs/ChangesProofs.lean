import Quilkin.Corrosion.Changes
import Quilkin.Data.StepRun

/-!
# Proofs: the batcher's invariants, and the completion with nothing to spawn

Along every run of `handle_changes`, `buf_cost` is the cost of the queue, a running task means
no timer, and the batch size stays between the configured bounds (`run_inv`). From a state that
keeps them, a step panics in two ways only (`step_eq_none`): a task ends while the queue is
empty and the threshold is `0`, so that `drain_and_spawn` finds an empty batch, or a batch of
changes brings `buf_cost` past `usize::MAX`. The first does happen: with the default ratio and
a minimum batch size of one change, the threshold of the minimum size is `⌊0.9⌋ = 0`, a change
is handed to a task as soon as it arrives, and the end of that task spawns an empty batch
(`run_spawns_empty_batch`).
-/

namespace Quilkin.Corrosion.Changes

set_option linter.unusedSectionVars false

variable {I : Type} [DecidableEq I]

/-- The cost of a queue: the processing costs of its changes, added up. -/
def cost (queue : List (Change I)) : Nat := (queue.map (·.processingCost)).sum

@[simp] theorem cost_nil : cost ([] : List (Change I)) = 0 := rfl

@[simp] theorem cost_cons (change : Change I) (queue : List (Change I)) :
    cost (change :: queue) = change.processingCost + cost queue := by
  simp [cost]

@[simp] theorem cost_append (queue queue' : List (Change I)) :
    cost (queue ++ queue') = cost queue + cost queue' := by
  simp [cost]

theorem clamp_of_le {x min max : Nat} (h : min ≤ max) :
    ∃ y, clamp x min max = some y ∧ min ≤ y ∧ y ≤ max := by
  refine ⟨_, if_neg (Nat.not_lt.mpr h), ?_, ?_⟩ <;> split_ifs <;> omega

namespace HandleChangesState

/-- `drain_and_spawn`'s loop on a queue whose cost is `buf_cost`: a batch taken from its front,
nonempty when the queue is, and `buf_cost` left as the cost of the rest. -/
theorem drainBatch_of_eq (targetSize : Nat) (queue : List (Change I)) (batchCost bufCost : Nat)
    (h : bufCost = cost queue) :
    ∃ batch rest, drainBatch targetSize queue batchCost bufCost = some (batch, rest, cost rest) ∧
      batch ++ rest = queue ∧ (queue ≠ [] → batch ≠ []) := by
  induction queue generalizing batchCost bufCost with
  | nil => exact ⟨[], [], by simp [drainBatch, h], rfl, fun h => absurd rfl h⟩
  | cons change queue ih =>
    rw [cost_cons] at h
    have hle : ¬bufCost < change.processingCost := by omega
    by_cases hfull : targetSize ≤ batchCost + change.processingCost
    · -- the change fills the batch
      refine ⟨[change], queue, ?_, rfl, fun _ => List.cons_ne_nil _ _⟩
      rw [drainBatch, if_neg hle, if_pos hfull]
      congr 3
      omega
    · obtain ⟨batch, rest, hdrain, happ, -⟩ :=
        ih (batchCost + change.processingCost) (bufCost - change.processingCost) (by omega)
      refine ⟨change :: batch, rest, ?_, by rw [List.cons_append, happ], fun _ => List.cons_ne_nil _ _⟩
      rw [drainBatch, if_neg hle, if_neg hfull, hdrain]
      rfl

variable (opts : ChangeOptions)

/-- What every state of the batcher keeps: `buf_cost` is the cost of the queue, there is no
timer while a task runs, and the batch size is between the configured bounds. -/
structure Inv (s : HandleChangesState I) : Prop where
  bufCost_eq : s.bufCost = cost s.queue
  maxWait_of_task : s.processingTask.isSome → s.maxWait = false
  min_le : opts.applyQueueMinBatchSize ≤ s.currentBatchSize
  le_max : s.currentBatchSize ≤ opts.applyQueueMaxBatchSize

variable {opts} {s s' : HandleChangesState I}

theorem Inv.min_le_max (hinv : s.Inv opts) :
    opts.applyQueueMinBatchSize ≤ opts.applyQueueMaxBatchSize :=
  le_trans hinv.min_le hinv.le_max

theorem inv_new (h : opts.applyQueueMinBatchSize ≤ opts.applyQueueMaxBatchSize) :
    (new opts : HandleChangesState I).Inv opts :=
  ⟨rfl, fun h => absurd h (by simp [new]), le_rfl, h⟩

/-- A batch size computed between the bounds, whatever the cost: `clamp` does not panic, and
the grace period only lowers the size to the current one, itself at least the minimum. -/
theorem calculateBatchSize_spec (hinv : s.Inv opts) (now cost : Nat) :
    ∃ size, s.calculateBatchSize opts now cost = some size ∧
      opts.applyQueueMinBatchSize ≤ size ∧ size ≤ opts.applyQueueMaxBatchSize := by
  have hle := hinv.min_le_max
  -- the size before the grace period: the minimum below one step, a clamped power of two above
  obtain ⟨computed, hc, hmin, hmax⟩ : ∃ computed,
      (if opts.applyQueueStepBase = 0 ∨ cost < opts.applyQueueStepBase then
          some opts.applyQueueMinBatchSize
        else clamp (opts.applyQueueStepBase * 2 ^ Nat.log2 (cost / opts.applyQueueStepBase))
          opts.applyQueueMinBatchSize opts.applyQueueMaxBatchSize) = some computed ∧
        opts.applyQueueMinBatchSize ≤ computed ∧ computed ≤ opts.applyQueueMaxBatchSize := by
    split_ifs
    · exact ⟨_, rfl, le_rfl, hle⟩
    · exact clamp_of_le hle
  unfold calculateBatchSize
  dsimp only
  rw [hc, Option.map_some]
  split_ifs
  · exact ⟨_, rfl, le_min hmin hinv.min_le, le_trans (min_le_left _ _) hmax⟩
  · exact ⟨_, rfl, hmin, hmax⟩

/-! ## `drain_and_spawn` -/

theorem drainAndSpawn_of_task (h : s.processingTask.isSome) (targetSize : Nat) :
    s.drainAndSpawn targetSize = none := by
  simp [drainAndSpawn, h]

theorem drainAndSpawn_of_nil (h : s.queue = []) (targetSize : Nat) :
    s.drainAndSpawn targetSize = none := by
  unfold drainAndSpawn
  split_ifs
  · rfl
  · simp [h, drainBatch]

/-- With no task running, `drain_and_spawn` on a nonempty queue hands a nonempty batch from its
front to a new task, and leaves `buf_cost` the cost of the rest. -/
theorem drainAndSpawn_of_ne_nil (hcost : s.bufCost = cost s.queue) (htask : s.processingTask = none)
    (h : s.queue ≠ []) (targetSize : Nat) :
    ∃ batch rest, batch ++ rest = s.queue ∧
      s.drainAndSpawn targetSize =
        some { s with queue := rest, bufCost := cost rest, processingTask := some batch } := by
  obtain ⟨batch, rest, hdrain, happ, hne⟩ := drainBatch_of_eq targetSize s.queue 0 s.bufCost hcost
  refine ⟨batch, rest, happ, ?_⟩
  simp [drainAndSpawn, htask, hdrain, hne h]

/-- What a `drain_and_spawn` that returns did. -/
theorem drainAndSpawn_eq_some (hcost : s.bufCost = cost s.queue) {targetSize : Nat}
    (h : s.drainAndSpawn targetSize = some s') :
    ∃ batch rest, batch ++ rest = s.queue ∧ s.processingTask = none ∧
      s' = { s with queue := rest, bufCost := cost rest, processingTask := some batch } := by
  cases htask : s.processingTask with
  | some task => rw [drainAndSpawn_of_task (by simp [htask])] at h; cases h
  | none =>
    by_cases hq : s.queue = []
    · rw [drainAndSpawn_of_nil hq] at h; cases h
    · obtain ⟨batch, rest, happ, hdrain⟩ := drainAndSpawn_of_ne_nil hcost htask hq targetSize
      rw [hdrain] at h
      exact ⟨batch, rest, happ, rfl, (Option.some.inj h).symm⟩

theorem Inv.drainAndSpawn (hinv : s.Inv opts) (hw : s.maxWait = false) {targetSize : Nat}
    (h : s.drainAndSpawn targetSize = some s') : s'.Inv opts := by
  obtain ⟨batch, rest, -, -, rfl⟩ := drainAndSpawn_eq_some hinv.bufCost_eq h
  exact ⟨rfl, fun _ => hw, hinv.min_le, hinv.le_max⟩

/-! ## The batch size -/

theorem Inv.setBatchSize (hinv : s.Inv opts) {size : Nat} (hmin : opts.applyQueueMinBatchSize ≤ size)
    (hmax : size ≤ opts.applyQueueMaxBatchSize) :
    ({ s with currentBatchSize := size } : HandleChangesState I).Inv opts :=
  ⟨hinv.bufCost_eq, hinv.maxWait_of_task, hmin, hmax⟩

/-- The burst keeps the batch size between the bounds and changes nothing else. -/
theorem burst_spec (hinv : s.Inv opts) (now : Nat) :
    ∃ size, opts.applyQueueMinBatchSize ≤ size ∧ size ≤ opts.applyQueueMaxBatchSize ∧
      s.burst opts now = some { s with currentBatchSize := size } := by
  unfold burst
  split_ifs
  · obtain ⟨size, hsize, hmin, hmax⟩ := calculateBatchSize_spec hinv now s.bufCost
    exact ⟨size, hmin, hmax, by rw [hsize, Option.map_some]⟩
  · exact ⟨s.currentBatchSize, hinv.min_le, hinv.le_max, rfl⟩

section TaskResult

variable {result : TaskResult} {now : Nat}

@[simp] theorem handleTaskResult_queue : (s.handleTaskResult opts result now).queue = s.queue := by
  rcases result with _ | (_ | _) | _ <;> rfl

@[simp] theorem handleTaskResult_bufCost :
    (s.handleTaskResult opts result now).bufCost = s.bufCost := by
  rcases result with _ | (_ | _) | _ <;> rfl

@[simp] theorem handleTaskResult_processingTask :
    (s.handleTaskResult opts result now).processingTask = s.processingTask := by
  rcases result with _ | (_ | _) | _ <;> rfl

@[simp] theorem handleTaskResult_maxWait :
    (s.handleTaskResult opts result now).maxWait = s.maxWait := by
  rcases result with _ | (_ | _) | _ <;> rfl

/-- Halving stays between the bounds: half the size, but never below the minimum. -/
theorem Inv.handleTaskResult (hinv : s.Inv opts) : (s.handleTaskResult opts result now).Inv opts := by
  rcases result with _ | (_ | _) | _
  · exact hinv
  · exact hinv
  · refine ⟨hinv.bufCost_eq, hinv.maxWait_of_task, le_max_right _ _, max_le ?_ hinv.min_le_max⟩
    exact le_trans (Nat.div_le_self _ _) hinv.le_max
  · exact hinv

/-- The state `handle_task_completion` decides on: the result handled and the task gone. -/
theorem Inv.endTask (hinv : s.Inv opts) :
    ({ s.handleTaskResult opts result now with processingTask := none } :
      HandleChangesState I).Inv opts :=
  have h : (s.handleTaskResult opts result now).Inv opts := hinv.handleTaskResult
  ⟨by simpa using h.bufCost_eq, fun h => absurd h (by simp), h.min_le, h.le_max⟩

/-- `handle_task_completion` panics exactly when the queue is empty and the threshold of the
batch size, after the result is handled, is `0`: `buf_cost`, `0`, then reaches the threshold,
and `drain_and_spawn` finds an empty batch. -/
theorem handleTaskCompletion_eq_none_iff (hinv : s.Inv opts) :
    s.handleTaskCompletion opts result now = none ↔
      s.queue = [] ∧ (s.handleTaskResult opts result now).batchThreshold opts = 0 := by
  have hend : ({ s.handleTaskResult opts result now with processingTask := none } :
      HandleChangesState I).Inv opts := hinv.endTask
  have hcost : s.bufCost = cost s.queue := hinv.bufCost_eq
  have hthreshold : ({ s.handleTaskResult opts result now with processingTask := none } :
      HandleChangesState I).batchThreshold opts =
        (s.handleTaskResult opts result now).batchThreshold opts := rfl
  unfold handleTaskCompletion
  dsimp only
  rw [hthreshold]
  split_ifs with hth
  · obtain ⟨size, -, -, hburst⟩ := burst_spec hend now
    rw [hburst, Option.bind_eq_bind, Option.bind_some]
    by_cases hq : s.queue = []
    · rw [drainAndSpawn_of_nil (by simpa using hq)]
      simp only [handleTaskResult_bufCost, hcost, hq, cost_nil, Nat.le_zero] at hth
      simp [hq, hth]
    · obtain ⟨batch, rest, -, hdrain⟩ := drainAndSpawn_of_ne_nil
        (s := { { s.handleTaskResult opts result now with processingTask := none } with
          currentBatchSize := size }) (by simpa using hcost) rfl (by simpa using hq) size
      rw [hdrain]
      simp [hq]
  · -- the timer is set, and an empty queue would have reached any threshold
    simp only [handleTaskResult_bufCost, hcost, false_iff, not_and] at hth ⊢
    intro hq
    simp [hq] at hth
    omega

/-- A task that ends keeps the invariant: the timer was off while it ran, and stays off when
another batch is spawned at once. -/
theorem Inv.handleTaskCompletion (hinv : s.Inv opts) (htask : s.processingTask.isSome)
    (h : s.handleTaskCompletion opts result now = some s') : s'.Inv opts := by
  have hend : ({ s.handleTaskResult opts result now with processingTask := none } :
      HandleChangesState I).Inv opts := hinv.endTask
  unfold HandleChangesState.handleTaskCompletion at h
  dsimp only at h
  split_ifs at h
  · obtain ⟨size, hmin, hmax, hburst⟩ := burst_spec hend now
    rw [hburst, Option.bind_eq_bind, Option.bind_some] at h
    exact (hend.setBatchSize hmin hmax).drainAndSpawn (by simp [hinv.maxWait_of_task htask]) h
  · cases h
    exact ⟨hend.bufCost_eq, fun h => absurd h (by simp), hend.min_le, hend.le_max⟩

end TaskResult

/-! ## The timer -/

theorem Inv.stopTimer (hinv : s.Inv opts) :
    ({ s with maxWait := false } : HandleChangesState I).Inv opts :=
  ⟨hinv.bufCost_eq, fun _ => rfl, hinv.min_le, hinv.le_max⟩

/-- When the timer fires, `handle_timeout` returns and keeps the invariant: there is no task
then, so `drain_and_spawn` is only called on a nonempty queue with none running. -/
theorem Inv.handleTimeout (hinv : s.Inv opts) (hw : s.maxWait = true) (now : Nat) :
    ∃ s', s.handleTimeout opts now = some s' ∧ s'.Inv opts := by
  have htask : s.processingTask = none := by
    cases h : s.processingTask with
    | none => rfl
    | some _ => simp [hinv.maxWait_of_task (by simp [h])] at hw
  have hstop := hinv.stopTimer
  unfold HandleChangesState.handleTimeout
  dsimp only
  split_ifs with hq hidle
  · -- whatever is queued goes to a task, and the size follows the cost left
    obtain ⟨batch, rest, -, hdrain⟩ := drainAndSpawn_of_ne_nil (s := { s with maxWait := false })
      hinv.bufCost_eq htask (by simpa using hq) usizeMax
    have hspawned := hstop.drainAndSpawn rfl hdrain
    obtain ⟨size, hsize, hmin, hmax⟩ := calculateBatchSize_spec hspawned now (cost rest)
    rw [hdrain, Option.bind_eq_bind, Option.bind_some]
    dsimp only
    rw [hsize, Option.bind_eq_bind, Option.bind_some]
    exact ⟨_, rfl, hspawned.setBatchSize hmin hmax⟩
  · -- nothing queued and nothing running: the size is reset and the timer set again
    obtain ⟨size, hsize, hmin, hmax⟩ := calculateBatchSize_spec hstop now 0
    rw [hsize, Option.map_some]
    exact ⟨_, rfl, ⟨hinv.bufCost_eq, by simp [htask], hmin, hmax⟩⟩
  · exact ⟨_, rfl, hstop⟩

/-! ## A change queued -/

theorem maybeDropOldChange_of_lt (h : s.queue.length < opts.processingQueueLen) :
    s.maybeDropOldChange opts = some (none, s) := by
  simp [maybeDropOldChange, Nat.not_le.mpr h]

theorem maybeDropOldChange_of_nil (h : s.queue = []) : s.maybeDropOldChange opts = some (none, s) := by
  simp [maybeDropOldChange, h]

/-- A full queue loses its oldest change, and `buf_cost` its cost. -/
theorem maybeDropOldChange_of_le {dropped : Change I} {queue : List (Change I)}
    (hcost : s.bufCost = cost s.queue) (h : opts.processingQueueLen ≤ s.queue.length)
    (hq : s.queue = dropped :: queue) :
    s.maybeDropOldChange opts =
      some (some dropped, { s with queue := queue, bufCost := cost queue }) := by
  rw [hq, cost_cons] at hcost
  have hle : ¬s.bufCost < dropped.processingCost := by omega
  have hfull : opts.processingQueueLen ≤ (dropped :: queue).length := hq ▸ h
  simp only [maybeDropOldChange, hq, if_pos hfull, if_neg hle]
  congr
  omega

/-- The change pushed at the back of the queue, and its cost to `buf_cost`. -/
theorem Inv.push (hinv : s.Inv opts) (change : Change I) :
    ({ s with queue := s.queue ++ [change],
              bufCost := s.bufCost + change.processingCost } : HandleChangesState I).Inv opts :=
  ⟨by simp [hinv.bufCost_eq], hinv.maxWait_of_task, hinv.min_le, hinv.le_max⟩

/-- `handle_new_change` panics exactly when `buf_cost` overflows: a batch it spawns has no task
before it and at least the change just queued. -/
theorem handleNewChange_eq_none_iff (hinv : s.Inv opts) (change : Change I) (now : Nat) :
    s.handleNewChange opts change now = none ↔ usizeMax < s.bufCost + change.processingCost := by
  have hpush := hinv.push change
  unfold handleNewChange
  dsimp only
  split_ifs with hover hstay
  · simp [hover]
  · simp [hover]
  · have htask : s.processingTask = none := by simpa using (not_or.mp hstay).2
    obtain ⟨size, -, -, hburst⟩ := burst_spec hpush.stopTimer now
    rw [hburst, Option.bind_eq_bind, Option.bind_some]
    obtain ⟨batch, rest, -, hdrain⟩ := drainAndSpawn_of_ne_nil
      (s := { { { s with queue := s.queue ++ [change],
                         bufCost := s.bufCost + change.processingCost } with maxWait := false } with
              currentBatchSize := size })
      (by simp [hinv.bufCost_eq]) htask (by simp) size
    rw [hdrain]
    simp [hover]

/-- `handle_new_change` keeps the invariant, and adds at most the change's cost to `buf_cost`. -/
theorem Inv.handleNewChange (hinv : s.Inv opts) {change : Change I} {now : Nat}
    (h : s.handleNewChange opts change now = some s') :
    s'.Inv opts ∧ s'.bufCost ≤ s.bufCost + change.processingCost := by
  have hpush := hinv.push change
  unfold HandleChangesState.handleNewChange at h
  dsimp only at h
  -- an overflow has returned `none`, which `split_ifs` discards
  split_ifs at h with hover hstay
  · cases h
    exact ⟨hpush, le_rfl⟩
  · obtain ⟨size, hmin, hmax, hburst⟩ := burst_spec hpush.stopTimer now
    rw [hburst, Option.bind_eq_bind, Option.bind_some] at h
    have hspawned := (hpush.stopTimer.setBatchSize hmin hmax).drainAndSpawn rfl h
    obtain ⟨batch, rest, happ, -, rfl⟩ := drainAndSpawn_eq_some (by simp [hinv.bufCost_eq]) h
    refine ⟨hspawned, ?_⟩
    -- what is left is a part of the queue with the change
    have hcost := congrArg cost happ
    simp only [cost_append, cost_cons, cost_nil] at hcost
    simp only [hinv.bufCost_eq]
    omega

end HandleChangesState

open HandleChangesState

section Loop

variable {opts : ChangeOptions} {self : I} {s : HandleChangesState I}

theorem dropOldChanges_of_none {s' : HandleChangesState I} {actorId : I} {seen : Seen I}
    (h : s.maybeDropOldChange opts = some (none, s')) :
    dropOldChanges opts actorId seen s = some (seen, s') := by
  rw [dropOldChanges]
  split <;> simp_all

theorem dropOldChanges_of_some {s' : HandleChangesState I} {dropped : Change I} {actorId : I}
    {seen : Seen I} (h : s.maybeDropOldChange opts = some (some dropped, s')) :
    dropOldChanges opts actorId seen s =
      dropOldChanges opts actorId (forgetDropped actorId dropped seen) s' := by
  rw [dropOldChanges]
  split <;> simp_all

/-- The loop of `maybe_drop_old_change` ends, without a panic, keeps the invariant and never
raises `buf_cost`. -/
theorem dropOldChanges_spec (hinv : s.Inv opts) (actorId : I) (seen : Seen I) :
    ∃ seen' s', dropOldChanges opts actorId seen s = some (seen', s') ∧ s'.Inv opts ∧
      s'.bufCost ≤ s.bufCost := by
  -- on the queue: each change dropped is its head
  generalize hq : s.queue = queue
  induction queue generalizing s seen with
  | nil => exact ⟨seen, s, dropOldChanges_of_none (maybeDropOldChange_of_nil hq), hinv, le_rfl⟩
  | cons dropped queue ih =>
    by_cases hfull : opts.processingQueueLen ≤ s.queue.length
    · have hdrop := maybeDropOldChange_of_le hinv.bufCost_eq hfull hq
      have hinv' : ({ s with queue := queue, bufCost := cost queue } :
          HandleChangesState I).Inv opts :=
        ⟨rfl, hinv.maxWait_of_task, hinv.min_le, hinv.le_max⟩
      obtain ⟨seen', s', hrun, hinv'', hle⟩ := ih hinv' (forgetDropped actorId dropped seen) rfl
      refine ⟨seen', s', by rw [dropOldChanges_of_some hdrop, hrun], hinv'', ?_⟩
      have hcost := hinv.bufCost_eq
      rw [hq, cost_cons] at hcost
      simp only at hle
      omega
    · exact ⟨seen, s, dropOldChanges_of_none (maybeDropOldChange_of_lt (Nat.not_le.mp hfull)),
        hinv, le_rfl⟩

variable {l l' : Loop I} {booked : Change I → Bool} {now : Nat}

/-- A change received keeps the invariant and adds at most its cost to `buf_cost`. -/
theorem receiveChange_inv (hinv : l.state.Inv opts) {change : Change I}
    (h : receiveChange opts self booked now l change = some l') :
    l'.state.Inv opts ∧ l'.state.bufCost ≤ l.state.bufCost + change.processingCost := by
  unfold receiveChange at h
  split_ifs at h
  · cases h; exact ⟨hinv, Nat.le_add_right _ _⟩
  · cases h; exact ⟨hinv, Nat.le_add_right _ _⟩
  · cases h; exact ⟨hinv, Nat.le_add_right _ _⟩
  · obtain ⟨seen', s', hdrop, hinv', hle⟩ := dropOldChanges_spec hinv change.actorId l.seen
    rw [hdrop, Option.bind_eq_bind, Option.bind_some] at h
    simp only [Option.bind_eq_bind, Option.bind_eq_some_iff, Option.some.injEq] at h
    obtain ⟨s'', hnew, rfl⟩ := h
    obtain ⟨hinv'', hle'⟩ := hinv'.handleNewChange hnew
    exact ⟨hinv'', by dsimp only; omega⟩

/-- A change received panics only when `buf_cost` overflows. -/
theorem receiveChange_eq_none (hinv : l.state.Inv opts) {change : Change I}
    (h : receiveChange opts self booked now l change = none) :
    usizeMax < l.state.bufCost + change.processingCost := by
  unfold receiveChange at h
  split_ifs at h
  obtain ⟨seen', s', hdrop, hinv', hle⟩ := dropOldChanges_spec hinv change.actorId l.seen
  rw [hdrop, Option.bind_eq_bind, Option.bind_some] at h
  have hnew : s'.handleNewChange opts change now = none := by
    cases hn : s'.handleNewChange opts change now with
    | none => rfl
    | some s'' => simp [hn] at h
  have := (handleNewChange_eq_none_iff hinv' change now).mp hnew
  omega

/-- The changes of a batch, one after the other: the invariant is kept, and a panic needs the
costs of the queue and of the batch to pass `usize::MAX`. -/
theorem foldlM_receiveChange_inv (changes : List (Change I)) (hinv : l.state.Inv opts) :
    (∀ l', changes.foldlM (receiveChange opts self booked now) l = some l' → l'.state.Inv opts) ∧
      (changes.foldlM (receiveChange opts self booked now) l = none →
        usizeMax < l.state.bufCost + cost changes) := by
  induction changes generalizing l with
  | nil =>
    refine ⟨fun l' h => ?_, fun h => ?_⟩
    · cases h
      exact hinv
    · cases h
  | cons change changes ih =>
    rw [List.foldlM_cons]
    cases hr : receiveChange opts self booked now l change with
    | none =>
      refine ⟨fun l' h => ?_, fun _ => ?_⟩
      · cases h
      have := receiveChange_eq_none hinv hr
      rw [cost_cons]
      omega
    | some l₁ =>
      obtain ⟨hinv₁, hle₁⟩ := receiveChange_inv hinv hr
      obtain ⟨hsome, hnone⟩ := ih hinv₁
      refine ⟨hsome, fun h => ?_⟩
      have := hnone h
      rw [cost_cons]
      omega

/-- One iteration keeps the invariant. -/
theorem step_inv (hinv : l.state.Inv opts) {e : Event I}
    (h : step opts self now l e = some (some l')) : l'.state.Inv opts := by
  cases e with
  | taskCompleted result =>
    simp only [step] at h
    split_ifs at h with htask
    · obtain ⟨s', hs', hl⟩ := Option.map_eq_some_iff.mp h
      cases hl
      exact hinv.handleTaskCompletion htask hs'
    · cases h; exact hinv
  | received changes booked =>
    obtain ⟨l₁, hfold, hl⟩ := Option.map_eq_some_iff.mp h
    cases hl
    exact (foldlM_receiveChange_inv changes hinv).1 l' hfold
  | timeout =>
    simp only [step] at h
    by_cases hw : l.state.maxWait
    · obtain ⟨s', hs', hinv'⟩ := hinv.handleTimeout hw now
      rw [if_pos hw, hs', Option.map_some] at h
      cases h
      exact hinv'
    · rw [if_neg hw] at h
      cases h
      exact hinv
  | closed => cases h

/-- From a state that keeps the invariant, an iteration panics only in two ways: a task ends
while the queue is empty and the threshold is `0`, or `buf_cost` overflows while a batch of
changes is queued. A second task is never spawned, and the cost never goes below zero. -/
theorem step_eq_none (hinv : l.state.Inv opts) {e : Event I} (h : step opts self now l e = none) :
    (∃ result, e = .taskCompleted result ∧ l.state.processingTask.isSome ∧ l.state.queue = [] ∧
        (l.state.handleTaskResult opts result now).batchThreshold opts = 0) ∨
      (∃ changes booked, e = .received changes booked ∧
        usizeMax < l.state.bufCost + cost changes) := by
  cases e with
  | taskCompleted result =>
    simp only [step] at h
    split_ifs at h with htask
    -- without a task the branch is not taken, and `split_ifs` discards it
    have hnone := Option.map_eq_none_iff.mp h
    exact .inl ⟨result, rfl, htask, (handleTaskCompletion_eq_none_iff hinv).mp hnone⟩
  | received changes booked =>
    exact .inr ⟨changes, booked, rfl,
      (foldlM_receiveChange_inv changes hinv).2 (Option.map_eq_none_iff.mp h)⟩
  | timeout =>
    simp only [step] at h
    by_cases hw : l.state.maxWait
    · obtain ⟨s', hs', -⟩ := hinv.handleTimeout hw now
      rw [if_pos hw, hs', Option.map_some] at h
      cases h
    · rw [if_neg hw] at h
      cases h
  | closed => cases h

/-- A run that ends without a panic or a stop is a run of the step through `StepRun`, where a
stop and a panic both end it. -/
theorem run_eq_some_some_iff {events : List (Nat × Event I)} :
    run opts self l events = some (some l') ↔
      StepRun.exec (fun l (event : Nat × Event I) => (step opts self event.1 l event.2).join) l
        events = some l' := by
  induction events generalizing l with
  | nil => simp [run]
  | cons event events ih =>
    obtain ⟨now, e⟩ := event
    rw [StepRun.exec_cons]
    cases hs : step opts self now l e with
    | none => simp [run, hs]
    | some r =>
      cases r with
      | none => simp [run, hs]
      | some l₁ =>
        simp only [run, hs, Option.join_some, Option.bind_some]
        exact ih

/-- A property of the loop that every step keeps holds at the end of every run. -/
theorem run_invariant (P : Loop I → Prop)
    (hstep : ∀ now l e l', P l → step opts self now l e = some (some l') → P l')
    {events : List (Nat × Event I)} (h : run opts self l events = some (some l')) (hl : P l) :
    P l' := by
  refine StepRun.exec_invariant P (fun l event l' hP hs => ?_) (run_eq_some_some_iff.mp h) hl
  exact hstep event.1 l event.2 l' hP (Option.join_eq_some_iff.mp hs)

/-- Every run from a state that keeps the invariant ends in one that keeps it. -/
theorem run_inv (hinv : l.state.Inv opts) {events : List (Nat × Event I)}
    (h : run opts self l events = some (some l')) : l'.state.Inv opts :=
  run_invariant (fun l => l.state.Inv opts) (fun _ _ _ _ hinv hs => step_inv hinv hs) h hinv

/-- The batcher keeps its invariant along every run, and a step from a state that keeps it
panics only at a task's end with an empty queue and a threshold of `0`, or on an overflow of
`buf_cost`. The first is reached with the default options but a minimum batch size of one
change: the threshold is `⌊1 * 0.9⌋ = 0`, so a change of cost one is handed to a task at once,
which empties the queue; when that task ends, `buf_cost`, `0`, reaches the threshold, and
`drain_and_spawn` finds an empty batch. -/
theorem run_spawns_empty_batch :
    (∀ (opts : ChangeOptions) (self : I) (events : List (Nat × Event I)) (l : Loop I),
        opts.applyQueueMinBatchSize ≤ opts.applyQueueMaxBatchSize →
        run opts self (init opts) events = some (some l) → l.state.Inv opts) ∧
      (∀ (opts : ChangeOptions) (self : I) (now : Nat) (l : Loop I) (e : Event I),
        l.state.Inv opts → step opts self now l e = none →
          (∃ result, e = .taskCompleted result ∧ l.state.processingTask.isSome ∧
              l.state.queue = [] ∧ (l.state.handleTaskResult opts result now).batchThreshold opts = 0) ∨
            (∃ changes booked, e = .received changes booked ∧
              usizeMax < l.state.bufCost + cost changes)) ∧
      run { ChangeOptions.default with applyQueueMinBatchSize := 1 } 1
          (init { ChangeOptions.default with applyQueueMinBatchSize := 1 })
          [(0, .received [⟨0, (1, 1), some (0, 0), 1⟩] fun _ => false)] =
        some (some ⟨⟨[], 0, 1, some [⟨0, (1, 1), some (0, 0), 1⟩], false, none⟩,
          [((0, 1), [(0, 0)])]⟩) ∧
      run { ChangeOptions.default with applyQueueMinBatchSize := 1 } 1
          (init { ChangeOptions.default with applyQueueMinBatchSize := 1 })
          [(0, .received [⟨0, (1, 1), some (0, 0), 1⟩] fun _ => false), (1, .taskCompleted .ok)] =
        none := by
  refine ⟨fun opts self events l hle h => run_inv (inv_new hle) h,
    fun opts self now l e hinv h => step_eq_none hinv h, ?_, ?_⟩
  · decide +kernel
  · decide +kernel

end Loop

end Quilkin.Corrosion.Changes
