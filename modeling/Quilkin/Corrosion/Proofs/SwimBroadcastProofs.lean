import Quilkin.Corrosion.SwimBroadcast
import Mathlib.Data.List.Infix

/-!
# Proofs: how long the broadcast queues grow

`drop_oldest_broadcast` does what it says: over the limit it drops the entry of `to_broadcast`
with the greatest send count, the oldest of those, and with `to_broadcast` empty the oldest local
payload (`dropOldestBroadcast_of_ne_nil`, `dropOldestBroadcast_nil`). It drops one entry an
iteration, and a branch may push two: a local broadcast pushes its payload and, once the local
buffer reaches `broadcast_cutoff`, that buffer too. The sends only take entries from the queues
(`drainLocal_suffix`, `drainGlobal_suffix`). So an iteration leaves the queues at most one entry
over the limit or over what they held (`queueLen_step_le`), and while the sends cannot take
anything, each such broadcast leaves one entry more: the queues outgrow `MAX_QUEUE_LEN`
without bound (`SwimBroadcast.run_outgrows_maxQueueLen`).
-/

namespace Quilkin.Corrosion.SwimBroadcast

set_option linter.unusedSectionVars false

open ByteOrder (toBE)

variable {Addr : Type} [DecidableEq Addr]

/-! ## `drop_oldest_broadcast` -/

/-- `max_by_key` picks an entry of the greatest send count, and every entry after it has a
smaller one. -/
theorem maxBySendCount_spec (x : PendingBroadcast Addr × Nat)
    (xs : List (PendingBroadcast Addr × Nat)) :
    ∃ r, maxBySendCount (x :: xs) = some r ∧
      (∀ y ∈ x :: xs, y.1.sendCount.toNat ≤ r.1.sendCount.toNat) ∧
      ∃ pre post, x :: xs = pre ++ r :: post ∧
        ∀ y ∈ post, y.1.sendCount.toNat < r.1.sendCount.toNat := by
  refine ⟨_, rfl, ?_⟩
  induction xs generalizing x with
  | nil => exact ⟨by simp, [], [], rfl, by simp⟩
  | cons y ys ih =>
    rw [List.foldl_cons]
    by_cases hxy : x.1.sendCount ≤ y.1.sendCount
    · -- the fold goes on from `y`, the later of the two
      rw [if_pos hxy]
      have hxy' := UInt8.le_iff_toNat_le.mp hxy
      obtain ⟨hle, pre, post, hsplit, hpost⟩ := ih y
      refine ⟨?_, x :: pre, post, by rw [hsplit]; rfl, hpost⟩
      intro z hz
      rcases List.mem_cons.mp hz with rfl | hz
      · exact Nat.le_trans hxy' (hle _ List.mem_cons_self)
      · exact hle z hz
    · -- the fold goes on from `x`, which stays ahead of `y`
      rw [if_neg hxy]
      have hyx : y.1.sendCount.toNat < x.1.sendCount.toNat :=
        Nat.lt_of_not_le (mt UInt8.le_iff_toNat_le.mpr hxy)
      obtain ⟨hle, pre, post, hsplit, hpost⟩ := ih x
      generalize List.foldl _ x ys = r at hle hsplit hpost ⊢
      have hx := hle x List.mem_cons_self
      refine ⟨?_, ?_⟩
      · intro z hz
        rcases List.mem_cons.mp hz with rfl | hz
        · exact hx
        rcases List.mem_cons.mp hz with rfl | hz
        · omega
        · exact hle z (List.mem_cons_of_mem _ hz)
      · cases pre with
        | nil =>
          -- the entry picked is `x`, now followed by `y`
          obtain ⟨hr, rfl⟩ := List.cons.inj hsplit
          refine ⟨[], y :: ys, by rw [← hr]; rfl, ?_⟩
          intro z hz
          rcases List.mem_cons.mp hz with rfl | hz
          · rw [← hr]
            exact hyx
          · exact hpost z hz
        | cons p pre =>
          obtain ⟨rfl, hys⟩ := List.cons.inj hsplit
          exact ⟨x :: y :: pre, post, by rw [hys]; rfl, hpost⟩

/-- An entry of `zipIdx` has the index of its position, and the entries of the later indices
come after it. -/
theorem zipIdx_split {α : Type} {l : List α} {pre post : List (α × Nat)} {r : α × Nat}
    (h : l.zipIdx = pre ++ r :: post) :
    r.2 = pre.length ∧ ∀ j (hj : j < l.length), pre.length < j → (l[j], j) ∈ post := by
  have hlen : l.length = pre.length + post.length + 1 := by
    rw [← List.length_zipIdx (i := 0), h]
    simp only [List.length_append, List.length_cons]
    omega
  have hpre : pre.length < l.zipIdx.length := by
    rw [List.length_zipIdx]
    omega
  have hr : l.zipIdx[pre.length] = r := by
    simp only [h, List.getElem_append_right (Nat.le_refl _), Nat.sub_self, List.getElem_cons_zero]
  refine ⟨by rw [← hr, List.getElem_zipIdx]; simp, ?_⟩
  intro j hj hij
  have hjz : j < l.zipIdx.length := by
    rw [List.length_zipIdx]
    exact hj
  have hj' : l.zipIdx[j] = (l[j], j) := by
    rw [List.getElem_zipIdx]
    simp
  rw [← hj']
  simp only [h, List.getElem_append_right (Nat.le_of_lt hij)]
  obtain ⟨k, hk⟩ : ∃ k, j - pre.length = k + 1 := ⟨j - pre.length - 1, by omega⟩
  simp only [hk, List.getElem_cons_succ]
  exact List.getElem_mem _

section Drop

variable {queue : List (PendingBroadcast Addr)} {localQueue : List (List UInt8)} {max : Nat}

theorem dropOldestBroadcast_of_le (h : queue.length + localQueue.length ≤ max) :
    dropOldestBroadcast queue localQueue max = (none, queue, localQueue) := by
  rw [dropOldestBroadcast, if_pos h]

/-- Over the limit, with broadcasts in `to_broadcast`: the entry dropped has the greatest send
count, and every entry behind it, older, a smaller one. -/
theorem dropOldestBroadcast_of_ne_nil (h : max < queue.length + localQueue.length)
    (hq : queue ≠ []) :
    ∃ i, ∃ hi : i < queue.length,
      dropOldestBroadcast queue localQueue max = (some queue[i], queue.eraseIdx i, localQueue) ∧
      (∀ j (hj : j < queue.length), queue[j].sendCount.toNat ≤ queue[i].sendCount.toNat) ∧
      ∀ j (hj : j < queue.length), i < j →
        queue[j].sendCount.toNat < queue[i].sendCount.toNat := by
  obtain ⟨x, xs, hx⟩ := List.exists_cons_of_ne_nil (mt List.zipIdx_eq_nil_iff.mp hq)
  obtain ⟨⟨p, i⟩, hr, hle, pre, post, hsplit, hpost⟩ := maxBySendCount_spec x xs
  rw [← hx] at hr hle hsplit
  obtain ⟨hi, hlater⟩ := zipIdx_split hsplit
  have hget : queue[i]? = some p :=
    (List.mem_zipIdx_iff_getElem? (x := (p, i))).mp (by rw [hsplit]; simp)
  obtain ⟨hlt, hr1⟩ := List.getElem?_eq_some_iff.mp hget
  have hmem : ∀ j (hj : j < queue.length), (queue[j], j) ∈ queue.zipIdx := fun j hj =>
    List.mem_zipIdx_iff_getElem?.mpr (by simp [hj])
  refine ⟨i, hlt, ?_, ?_, ?_⟩
  · rw [dropOldestBroadcast, if_neg (by omega), hr]
    show (queue[i]?, queue.eraseIdx i, localQueue) = _
    rw [hget, hr1]
  · intro j hj
    rw [hr1]
    exact hle _ (hmem j hj)
  · intro j hj hij
    rw [hr1]
    exact hpost _ (hlater j hj (hi ▸ hij))

/-- Over the limit, with `to_broadcast` empty: the oldest local payload is dropped. -/
theorem dropOldestBroadcast_nil (h : max < localQueue.length) :
    dropOldestBroadcast ([] : List (PendingBroadcast Addr)) localQueue max =
      (localQueue.getLast?.map PendingBroadcast.newLocal, [], localQueue.dropLast) := by
  rw [dropOldestBroadcast, if_neg (by simp; omega)]
  rfl

/-- The queues after the drop: one entry fewer when they held more than `max`. -/
theorem length_dropOldestBroadcast (queue : List (PendingBroadcast Addr))
    (localQueue : List (List UInt8)) (max : Nat) :
    (dropOldestBroadcast queue localQueue max).2.1.length +
        (dropOldestBroadcast queue localQueue max).2.2.length =
      if queue.length + localQueue.length ≤ max then queue.length + localQueue.length
      else queue.length + localQueue.length - 1 := by
  split_ifs with h
  · rw [dropOldestBroadcast_of_le h]
  · cases queue with
    | nil =>
      rw [dropOldestBroadcast_nil (by simpa using Nat.lt_of_not_le h)]
      simp
    | cons p ps =>
      obtain ⟨i, hi, hdrop, -⟩ := dropOldestBroadcast_of_ne_nil (Nat.lt_of_not_le h)
        (List.cons_ne_nil p ps)
      rw [hdrop]
      simp only [List.length_eraseIdx_of_lt hi, List.length_cons]
      omega

end Drop

/-! ## What an iteration does to the queues -/

section Iteration

variable {s s' : State Addr}

/-- What a branch does to the queues: one that ends the iteration leaves them as they were, and
one that goes on pushes at most two entries (a local broadcast its payload and the full local
buffer, a deadline the two buffers). -/
theorem queueLen_applyBranch {branch : Branch} {r : State Addr ⊕ State Addr}
    (h : applyBranch s branch = some r) :
    r.elim (fun s' => s'.queueLen = s.queueLen) (fun s' => s'.queueLen ≤ s.queueLen + 2) := by
  cases branch with
  | broadcast input =>
    -- both kinds of broadcast buffer a frame, and push the buffer once it is full
    cases input with
    | rebroadcast bytes =>
      cases bytes with
      | none => cases h; rfl
      | some bytes =>
        simp only [applyBranch] at h
        split at h
        · cases h; rfl
        · split_ifs at h <;> cases h <;> simp [State.queueLen]
          omega
    | addBroadcast bytes =>
      cases bytes with
      | none => cases h; rfl
      | some bytes =>
        simp only [applyBranch] at h
        split at h
        · cases h; rfl
        · split_ifs at h <;> cases h <;> simp [State.queueLen] <;> omega
  | wokePendingBroadcast index =>
    simp only [applyBranch] at h
    split at h
    · cases h
      simp [State.queueLen]
      omega
    · cases h; rfl
  | joined => cases h; rfl
  | closed => cases h
  | tripped => cases h
  | broadcastDeadline =>
    simp only [applyBranch] at h
    cases h
    split_ifs <;> simp [State.queueLen] <;> omega
  | metrics =>
    cases h
    show s.queueLen ≤ s.queueLen + 2
    omega

theorem queueLen_applyBranch_inl {branch : Branch} (h : applyBranch s branch = some (.inl s')) :
    s'.queueLen = s.queueLen :=
  queueLen_applyBranch h

theorem queueLen_applyBranch_inr {branch : Branch} (h : applyBranch s branch = some (.inr s')) :
    s'.queueLen ≤ s.queueLen + 2 :=
  queueLen_applyBranch h

/-- The loop over `to_local_broadcast` only takes payloads from its front. -/
theorem drainLocal_suffix (env : Env Addr) :
    ∀ (queue : List (List UInt8)) (d : Sends Addr), (drainLocal env queue d).1 <:+ queue
  | [], d => by simp [drainLocal]
  | payload :: rest, d => by
    rw [drainLocal]
    split_ifs with hfull
    · exact List.suffix_refl _
    · split
      split_ifs with hback
      · exact List.suffix_refl _
      · exact (drainLocal_suffix env rest _).trans (List.suffix_cons _ _)

/-- The loop over `to_broadcast` only takes broadcasts from its front. -/
theorem drainGlobal_suffix (env : Env Addr) (chooseCount : Nat) (maxTransmissions : UInt8) :
    ∀ (queue : List (PendingBroadcast Addr)) (d : Sends Addr) (idle : List (PendingBroadcast Addr)),
      (drainGlobal env chooseCount maxTransmissions queue d idle).1 <:+ queue
  | [], d, idle => by simp [drainGlobal]
  | pending :: rest, d, idle => by
    rw [drainGlobal]
    split_ifs with hfull
    · exact List.suffix_refl _
    · dsimp only
      split_ifs <;> exact (drainGlobal_suffix env chooseCount maxTransmissions rest _ _).trans
        (List.suffix_cons _ _)

/-- The sends never add to the queues. -/
theorem queueLen_sendBroadcasts {env : Env Addr} (h : sendBroadcasts env s = some s') :
    s'.queueLen ≤ s.queueLen := by
  unfold sendBroadcasts at h
  have hlocal := (drainLocal_suffix env s.toLocalBroadcast ⟨s.inflight, 0, false, []⟩).length_le
  generalize drainLocal env s.toLocalBroadcast ⟨s.inflight, 0, false, []⟩ = r at h hlocal
  obtain ⟨toLocal, d⟩ := r
  dsimp only at h hlocal
  split_ifs at h with hsend
  · split at h
    · cases h
    · rename_i chooseCount maxTransmissions _
      cases h
      have hglobal := (drainGlobal_suffix env chooseCount maxTransmissions s.toBroadcast d
        s.idlePendings).length_le
      simp only [State.queueLen]
      omega
  · cases h
    simp only [State.queueLen]
    omega

/-- An iteration leaves the queues at most one entry over what they held, or within the limit. -/
theorem queueLen_step_le {env : Env Addr} {branch : Branch}
    (h : step env s branch = some (some s')) :
    s'.queueLen ≤ max (s.queueLen + 1) maxQueueLen := by
  unfold step at h
  split at h
  · cases h
  · -- the iteration ended in the branch
    rename_i s₁ hbranch
    cases h
    rw [queueLen_applyBranch_inl hbranch]
    omega
  · rename_i s₁ hbranch
    obtain ⟨s₂, hsend, hs'⟩ := Option.map_eq_some_iff.mp h
    cases hs'
    have hpush := queueLen_applyBranch_inr hbranch
    have hsends := queueLen_sendBroadcasts hsend
    have hdrop := length_dropOldestBroadcast s₂.toBroadcast s₂.toLocalBroadcast maxQueueLen
    show (dropOldestBroadcast s₂.toBroadcast s₂.toLocalBroadcast maxQueueLen).2.1.length +
      (dropOldestBroadcast s₂.toBroadcast s₂.toLocalBroadcast maxQueueLen).2.2.length ≤ _
    simp only [State.queueLen] at hpush hsends ⊢
    -- the limit's value plays no part
    generalize maxQueueLen = limit at hdrop ⊢
    split_ifs at hdrop <;> omega

theorem run_cons_of_step {env : Env Addr} {branch : Branch} {rest : List (Env Addr × Branch)}
    (h : step env s branch = some (some s')) : run s ((env, branch) :: rest) = run s' rest := by
  rw [run, h]

theorem run_append {xs ys : List (Env Addr × Branch)} (h : run s xs = some (some s')) :
    run s (xs ++ ys) = run s' ys := by
  induction xs generalizing s with
  | nil =>
    cases h
    rfl
  | cons x xs ih =>
    obtain ⟨env, branch⟩ := x
    rw [run] at h
    split at h
    · rename_i s₁ hstep
      rw [List.cons_append, run_cons_of_step hstep, ih h]
    · rename_i hne
      exact (hne s' h).elim

/-- Along a run the queues outgrow the limit, or what they held, by at most one entry an
iteration. -/
theorem queueLen_run_le {steps : List (Env Addr × Branch)} (h : run s steps = some (some s')) :
    s'.queueLen ≤ max s.queueLen maxQueueLen + steps.length := by
  induction steps generalizing s with
  | nil =>
    cases h
    omega
  | cons x steps ih =>
    obtain ⟨env, branch⟩ := x
    rw [run] at h
    split at h
    · rename_i s₁ hstep
      have hfirst := queueLen_step_le hstep
      have hrest := ih h
      rw [List.length_cons]
      generalize maxQueueLen = limit at hfirst hrest ⊢
      omega
    · rename_i hne
      exact (hne s' h).elim

end Iteration

/-! ## A run the rate limiter refuses -/

/-- A world of one member, in ring0 at `addr`, and a rate limiter that refuses every
transmission. -/
def refusingEnv (addr : Addr) : Env Addr where
  ring0 := [addr]
  members := []
  choose := fun _ _ => []
  membersCount := 1
  maxTransmissions := 1
  maxTransmissions_pos := by decide
  numIndirectProbes := 1
  check := fun _ => .quotaExceeded

/-- What a local broadcast the rate limiter refuses does to the length of the queues: two
entries pushed, and one dropped once they are over the limit. -/
def queueGrowth (t : Nat) : Nat := if t + 2 ≤ maxQueueLen then t + 2 else t + 1

theorem queueGrowth_iterate_of_le {t n : Nat} (h : t + 2 * n ≤ maxQueueLen) :
    queueGrowth^[n] t = t + 2 * n := by
  induction n generalizing t with
  | zero => rfl
  | succ n ih =>
    rw [Function.iterate_succ_apply, queueGrowth, if_pos (by omega), ih (by omega)]
    omega

theorem queueGrowth_iterate_of_ge {t n : Nat} (h : maxQueueLen ≤ t) :
    queueGrowth^[n] t = t + n := by
  induction n generalizing t with
  | zero => rfl
  | succ n ih =>
    rw [Function.iterate_succ_apply, queueGrowth, if_neg (by omega), ih (by omega)]
    omega

section Refused

variable (addr : Addr) {bytes : List UInt8}

theorem encodeFrame_of_le (h : bytes.length ≤ maxFrameLength) :
    encodeFrame bytes = some (toBE 4 bytes.length ++ bytes) := by
  rw [encodeFrame, if_neg (Nat.not_lt.mpr h)]

/-- The rate limiter refuses the front local payload, which goes back to the front. -/
theorem drainLocal_refusingEnv (payload : List UInt8) (rest : List (List UInt8))
    (d : Sends Addr) (hlen : 0 < payload.length ∧ payload.length < 2 ^ 32)
    (hd : d.inflight < maxInflightBroadcast) :
    ∃ d', drainLocal (refusingEnv addr) (payload :: rest) d = (payload :: rest, d') ∧
      d'.rateLimited = true ∧ d'.inflight = d.inflight := by
  have htry : tryTransmitBroadcast .quotaExceeded payload = .quotaExceeded := by
    rw [tryTransmitBroadcast, if_neg (by omega)]
  refine ⟨{ d with ring0 := d.ring0.insert addr, rateLimited := true, tries := d.tries + 1 }, ?_,
    rfl, rfl⟩
  rw [drainLocal, if_neg (Nat.not_le.mpr hd)]
  simp [transmitLocal, refusingEnv, Nat.not_le.mpr hd, htry]

/-- A local broadcast whose frame fills the local buffer, while the rate limiter refuses: its
payload and the buffer are pushed, nothing is sent, and one entry is dropped when the queues are
over the limit. -/
theorem step_refusingEnv (hcut : broadcastCutoff ≤ bytes.length + 4)
    (hmax : bytes.length ≤ maxFrameLength) {s : State Addr} (hbuf : s.localBcastBuf = [])
    (hin : s.inflight = 0) :
    ∃ s', step (refusingEnv addr) s (.broadcast (.addBroadcast (some bytes))) = some (some s') ∧
      s'.localBcastBuf = [] ∧ s'.inflight = 0 ∧ s'.queueLen = queueGrowth s.queueLen := by
  have hframe := encodeFrame_of_le hmax
  generalize hf : toBE 4 bytes.length ++ bytes = frame at hframe
  have hflen : frame.length = bytes.length + 4 := by
    rw [← hf, List.length_append, ByteOrder.length_toBE]
    omega
  let s₁ : State Addr :=
    { s with localBcastBuf := [], toLocalBroadcast := frame :: s.toLocalBroadcast,
             toBroadcast := .newLocal frame :: s.toBroadcast }
  -- the branch pushes the payload, and the local buffer, which the payload fills
  have hbranch : applyBranch s (.broadcast (.addBroadcast (some bytes))) = some (.inr s₁) := by
    simp only [applyBranch, hframe, hbuf, List.nil_append]
    rw [if_pos (by omega)]
  -- the rate limiter refuses the payload, so nothing is sent
  obtain ⟨d, hdrain, hrl, hdin⟩ := drainLocal_refusingEnv addr frame s.toLocalBroadcast
    ⟨s.inflight, 0, false, []⟩
    ⟨by omega, by unfold maxFrameLength at hmax; omega⟩
    (by rw [hin]; exact (by decide : 0 < maxInflightBroadcast))
  let s₂ : State Addr := { s₁ with inflight := s.inflight, rateLimited := true }
  have hsend : sendBroadcasts (refusingEnv addr) s₁ = some s₂ := by
    simp only [sendBroadcasts, s₁, hdrain, hrl, hdin, Bool.not_true, Bool.false_eq_true,
      false_and, if_false, s₂]
  let drop := dropOldestBroadcast s₂.toBroadcast s₂.toLocalBroadcast maxQueueLen
  refine ⟨{ s₂ with toBroadcast := drop.2.1, toLocalBroadcast := drop.2.2 }, ?_, rfl, hin, ?_⟩
  · rw [step, hbranch]
    simp only [hsend, Option.map_some]
    rfl
  have hdrop := length_dropOldestBroadcast s₂.toBroadcast s₂.toLocalBroadcast maxQueueLen
  have hpushed : s₂.toBroadcast.length + s₂.toLocalBroadcast.length = s.queueLen + 2 := by
    simp only [s₂, s₁, State.queueLen, List.length_cons]
    omega
  show drop.2.1.length + drop.2.2.length = _
  rw [hdrop, hpushed, queueGrowth]
  split_ifs <;> omega

/-- Refused local broadcasts one after the other: each does to the length of the queues what
`queueGrowth` does. -/
theorem run_refusingEnv (hcut : broadcastCutoff ≤ bytes.length + 4)
    (hmax : bytes.length ≤ maxFrameLength) (n : Nat) {s : State Addr} (hbuf : s.localBcastBuf = [])
    (hin : s.inflight = 0) :
    ∃ s', run s (List.replicate n (refusingEnv addr, .broadcast (.addBroadcast (some bytes)))) =
      some (some s') ∧ s'.queueLen = queueGrowth^[n] s.queueLen := by
  induction n generalizing s with
  | zero => exact ⟨s, rfl, rfl⟩
  | succ n ih =>
    obtain ⟨s₁, hstep, hbuf₁, hin₁, hlen₁⟩ := step_refusingEnv addr hcut hmax hbuf hin
    obtain ⟨s', hrun, hlen⟩ := ih hbuf₁ hin₁
    refine ⟨s', ?_, ?_⟩
    · rw [List.replicate_succ, run_cons_of_step hstep, hrun]
    · rw [hlen, hlen₁, Function.iterate_succ_apply]

end Refused

/-- `drop_oldest_broadcast` drops the entry of `to_broadcast` with the greatest send count, the
oldest of those, or with `to_broadcast` empty the oldest local payload, and along any run the
queues outgrow the limit by at most one entry an iteration. They do outgrow it: while the rate
limiter refuses every transmission, each local broadcast of `65532` bytes pushes its payload and
the local buffer it fills, and after `10000 + k` of them the queues hold `MAX_QUEUE_LEN + k`
entries. -/
theorem run_outgrows_maxQueueLen :
    (∀ (queue : List (PendingBroadcast Addr)) (localQueue : List (List UInt8)),
        maxQueueLen < queue.length + localQueue.length → queue ≠ [] →
        ∃ i, ∃ hi : i < queue.length,
          dropOldestBroadcast queue localQueue maxQueueLen =
            (some queue[i], queue.eraseIdx i, localQueue) ∧
          (∀ j (hj : j < queue.length), queue[j].sendCount.toNat ≤ queue[i].sendCount.toNat) ∧
          ∀ j (hj : j < queue.length), i < j →
            queue[j].sendCount.toNat < queue[i].sendCount.toNat) ∧
      (∀ localQueue : List (List UInt8), maxQueueLen < localQueue.length →
        dropOldestBroadcast ([] : List (PendingBroadcast Addr)) localQueue maxQueueLen =
          (localQueue.getLast?.map PendingBroadcast.newLocal, [], localQueue.dropLast)) ∧
      (∀ (s s' : State Addr) (steps : List (Env Addr × Branch)), run s steps = some (some s') →
        s'.queueLen ≤ max s.queueLen maxQueueLen + steps.length) ∧
      ∀ (addr : Addr) (k : Nat), ∃ s, run State.init (List.replicate (10000 + k)
          (refusingEnv addr, .broadcast (.addBroadcast (some (List.replicate 65532 0))))) =
            some (some s) ∧ s.queueLen = maxQueueLen + k := by
  refine ⟨fun _ _ h hq => dropOldestBroadcast_of_ne_nil h hq, fun _ h => dropOldestBroadcast_nil h,
    fun _ _ _ h => queueLen_run_le h, ?_⟩
  intro addr k
  have hcut : broadcastCutoff ≤ (List.replicate 65532 (0 : UInt8)).length + 4 := by
    rw [List.length_replicate]
    exact Nat.le_refl _
  have hmax : (List.replicate 65532 (0 : UInt8)).length ≤ maxFrameLength := by
    rw [List.length_replicate]
    decide
  obtain ⟨s, hrun, hlen⟩ := run_refusingEnv addr hcut hmax (10000 + k) (s := State.init) rfl rfl
  refine ⟨s, hrun, ?_⟩
  -- `10000` broadcasts fill the queues to the limit, and each later one adds an entry
  have hinit : (State.init : State Addr).queueLen = 0 := rfl
  have hfill : queueGrowth^[10000] 0 = maxQueueLen := queueGrowth_iterate_of_le (Nat.le_refl _)
  rw [hlen, hinit, Nat.add_comm, Function.iterate_add_apply, hfill,
    queueGrowth_iterate_of_ge (Nat.le_refl _)]

end Quilkin.Corrosion.SwimBroadcast
