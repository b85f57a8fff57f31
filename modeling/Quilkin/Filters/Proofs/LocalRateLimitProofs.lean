import Quilkin.Filters.LocalRateLimit

/-!
# Proofs: the windows of the local rate limit

What the limiter is for is `windowStep`: for each address, windows of accepted calls, a window
opened by a call more than `period` seconds after the last one opened, and a call refused once
its window holds `max_packets` accepted calls. The filter counts the calls instead, accepted or
not, and compares the count before a call with `max_packets`. While the count does not wrap,
the accepted calls of a window are the count capped at `max_packets` (`BucketFollows`), and the
filter decides every call of a run as the windows do (`LocalRateLimit.run_eq_windowRun`). The
count wraps after `2^64` calls in one window, and the next call is accepted in a full window
(`LocalRateLimit.run_counter_wraps`).
-/

namespace Quilkin.Filters

open Quilkin.Net (EndpointAddress)

/-! ## Windows -/

/-- A window of one address: the second it opened and the calls it accepted. -/
structure Window where
  start : Nat
  accepted : Nat

/-- One call at the second `now` against the window of its address. -/
def windowStep (maxPackets period : Nat) (w : Option Window) (now : Nat) : Bool × Option Window :=
  if maxPackets = 0 then (false, w)
  else
    match w with
    | none => (true, some ⟨now, 1⟩)
    | some w =>
      if period < now - w.start then (true, some ⟨now, 1⟩)
      else if w.accepted < maxPackets then (true, some ⟨w.start, w.accepted + 1⟩)
      else (false, some w)

/-- The decisions of the calls of a run, each against the window of its address. -/
def windowRun (maxPackets period : Nat) (ws : EndpointAddress → Option Window) :
    List (EndpointAddress × Nat) → List Bool
  | [] => []
  | (address, now) :: calls =>
    let step := windowStep maxPackets period (ws address) now
    step.1 :: windowRun maxPackets period (Function.update ws address step.2) calls

section Windows

variable {maxPackets period now : Nat}

theorem windowStep_of_zero {w : Option Window} (h0 : maxPackets = 0) :
    windowStep maxPackets period w now = (false, w) := by
  unfold windowStep
  rw [if_pos h0]

theorem windowStep_none (h0 : maxPackets ≠ 0) :
    windowStep maxPackets period none now = (true, some ⟨now, 1⟩) := by
  unfold windowStep
  rw [if_neg h0]

theorem windowStep_some {w : Window} (h0 : maxPackets ≠ 0) :
    windowStep maxPackets period (some w) now =
      if period < now - w.start then (true, some ⟨now, 1⟩)
      else if w.accepted < maxPackets then (true, some ⟨w.start, w.accepted + 1⟩)
      else (false, some w) := by
  unfold windowStep
  rw [if_neg h0]

/-- A window never holds more than `maxPackets` accepted calls. -/
theorem windowStep_accepted_le {w : Option Window} (hw : ∀ v ∈ w, v.accepted ≤ maxPackets) :
    ∀ v ∈ (windowStep maxPackets period w now).2, v.accepted ≤ maxPackets := by
  intro v hv
  by_cases h0 : maxPackets = 0
  · rw [windowStep_of_zero h0] at hv
    exact hw v hv
  · cases w with
    | none =>
      rw [windowStep_none h0] at hv
      cases Option.mem_def.mp hv
      dsimp only
      omega
    | some w =>
      rw [windowStep_some h0] at hv
      have hw' := hw w rfl
      split_ifs at hv with hnew hlt
      · -- a new window holds this call
        cases Option.mem_def.mp hv
        dsimp only
        omega
      · cases Option.mem_def.mp hv
        dsimp only
        omega
      · cases Option.mem_def.mp hv
        exact hw'

/-- A call is refused only when the limit is zero, or when its window is not over and already
holds `maxPackets` accepted calls. -/
theorem windowStep_refused_iff {w : Option Window} (hw : ∀ v ∈ w, v.accepted ≤ maxPackets) :
    (windowStep maxPackets period w now).1 = false ↔
      maxPackets = 0 ∨ ∃ v ∈ w, now - v.start ≤ period ∧ v.accepted = maxPackets := by
  by_cases h0 : maxPackets = 0
  · rw [windowStep_of_zero h0]
    simp [h0]
  · cases w with
    | none => simp [windowStep_none h0, h0]
    | some w =>
      have hw' := hw w rfl
      rw [windowStep_some h0]
      split_ifs with hnew hlt <;> simp [h0] <;> omega

/-- With a limit of zero every call is refused. -/
theorem windowRun_zero (ws : EndpointAddress → Option Window)
    (calls : List (EndpointAddress × Nat)) :
    windowRun 0 period ws calls = calls.map fun _ => false := by
  induction calls generalizing ws with
  | nil => rfl
  | cons call calls ih =>
    obtain ⟨address, now⟩ := call
    simp only [windowRun, windowStep_of_zero rfl, List.map_cons, ih]

/-- The calls at one second inside a full window are all refused. -/
theorem windowRun_replicate_full {ws : EndpointAddress → Option Window}
    {address : EndpointAddress} {w : Window} (hmax : maxPackets ≠ 0) (hw : ws address = some w)
    (hnow : now - w.start ≤ period) (hfull : w.accepted = maxPackets) (k : Nat) :
    windowRun maxPackets period ws (List.replicate k (address, now)) = List.replicate k false := by
  have hstep : windowStep maxPackets period (ws address) now = (false, some w) := by
    rw [hw, windowStep_some hmax, if_neg (by omega), if_neg (by omega)]
  induction k with
  | zero => rfl
  | succ k ih =>
    rw [List.replicate_succ, windowRun]
    rw [hstep, Function.update_eq_self_iff.mpr hw.symm, ih, List.replicate_succ]

end Windows

/-! ## The filter, call by call -/

namespace LocalRateLimit

variable {l l' : LocalRateLimit} {address : EndpointAddress} {nowSecs : UInt64} {b : Bucket}

/-- A filter is built only with a period of a second or more, and starts with no bucket. -/
theorem new_eq_ok {config : Config} (h : new config = .ok l) :
    1 ≤ config.period ∧ l = ⟨fun _ => none, config⟩ := by
  unfold new at h
  split_ifs at h with hp
  cases h
  exact ⟨UInt32.not_lt.mp hp, rfl⟩

/-- The error of `new` names the period, the field it checks. -/
theorem new_eq_error {config : Config} {e : CreationError} (h : new config = .error e) :
    config.period = 0 ∧ e = .fieldInvalid "period" "value must be at least 1 second" := by
  unfold new at h
  split_ifs at h with hp
  cases h
  refine ⟨?_, rfl⟩
  rw [UInt32.lt_iff_toNat_lt] at hp
  exact UInt32.toNat_inj.mp (by simp at hp ⊢; omega)

@[simp]
theorem setBucket_config : (l.setBucket address b).config = l.config := rfl

theorem setBucket_state_self : (l.setBucket address b).state address = some b := by
  simp [setBucket]

theorem setBucket_setBucket (b' : Bucket) :
    (l.setBucket address b).setBucket address b' = l.setBucket address b' := by
  simp only [setBucket, Function.update_idem]

theorem acquireToken_of_maxPackets_eq_zero (h : l.config.maxPackets = 0) :
    l.acquireToken address nowSecs = some (false, l) := by
  rw [acquireToken, if_pos h]

/-- The first call of an address opens its window. -/
theorem acquireToken_of_none (hmax : l.config.maxPackets ≠ 0) (hb : l.state address = none) :
    l.acquireToken address nowSecs = some (true, l.setBucket address ⟨1, nowSecs⟩) := by
  rw [acquireToken, if_neg hmax]
  simp only [hb]

/-- A later call, at a second no earlier than its window's start: it opens a new window when
the window is over, and is refused when the count before it has reached the limit. -/
theorem acquireToken_of_some (hmax : l.config.maxPackets ≠ 0) (hb : l.state address = some b)
    (hle : b.windowStartTimeSecs ≤ nowSecs) :
    l.acquireToken address nowSecs =
      if l.config.period.toNat < nowSecs.toNat - b.windowStartTimeSecs.toNat then
        some (true, l.setBucket address ⟨1, nowSecs⟩)
      else if l.config.maxPackets ≤ b.counter then
        some (false, l.setBucket address { b with counter := b.counter + 1 })
      else some (true, l.setBucket address { b with counter := b.counter + 1 }) := by
  have hnew : nowSecs - b.windowStartTimeSecs > l.config.period.toUInt64 ↔
      l.config.period.toNat < nowSecs.toNat - b.windowStartTimeSecs.toNat := by
    rw [gt_iff_lt, UInt64.lt_iff_toNat_lt, UInt64.toNat_sub_of_le _ _ hle,
      UInt32.toNat_toUInt64]
  rw [acquireToken, if_neg hmax]
  simp only [hb, setBucket_config, if_neg (UInt64.not_lt.mpr hle)]
  by_cases h : l.config.period.toNat < nowSecs.toNat - b.windowStartTimeSecs.toNat
  · -- a new window: the count written first is overwritten
    simp [hnew.mpr h, h, setBucket_setBucket]
  · simp [mt hnew.mp h, h]

theorem run_cons {ok : Bool} {oks : List Bool} {l'' : LocalRateLimit}
    {calls : List (EndpointAddress × UInt64)} (h : l.acquireToken address nowSecs = some (ok, l'))
    (h' : l'.run calls = some (oks, l'')) :
    l.run ((address, nowSecs) :: calls) = some (ok :: oks, l'') := by
  simp [run, h, h']

theorem run_append {xs ys : List (EndpointAddress × UInt64)} {oks oks' : List Bool}
    {l'' : LocalRateLimit} (h : l.run xs = some (oks, l')) (h' : l'.run ys = some (oks', l'')) :
    l.run (xs ++ ys) = some (oks ++ oks', l'') := by
  induction xs generalizing l oks with
  | nil =>
    cases h
    exact h'
  | cons call xs ih =>
    obtain ⟨address, nowSecs⟩ := call
    simp only [run, Option.bind_eq_bind] at h
    obtain ⟨⟨ok, l₁⟩, h₁, hrest⟩ := Option.bind_eq_some_iff.mp h
    obtain ⟨⟨oks₁, l₂⟩, h₂, hoks⟩ := Option.bind_eq_some_iff.mp hrest
    cases hoks
    exact run_cons h₁ (ih h₂)

/-- Calls at one second inside a window whose count has reached the limit are all refused, and
each adds one to the count, which wraps when it passes `2^64 - 1`. -/
theorem run_replicate_refused (hmax : l.config.maxPackets ≠ 0) (hb : l.state address = some b)
    (hle : b.windowStartTimeSecs ≤ nowSecs)
    (hwin : ¬ l.config.period.toNat < nowSecs.toNat - b.windowStartTimeSecs.toNat)
    (hfull : l.config.maxPackets ≤ b.counter) (k : Nat) (hk : b.counter.toNat + k ≤ 2 ^ 64) :
    ∃ l', l.run (List.replicate k (address, nowSecs)) = some (List.replicate k false, l') ∧
      l'.config = l.config ∧
      l'.state address = some { b with counter := b.counter + UInt64.ofNat k } := by
  induction k with
  | zero => exact ⟨l, rfl, rfl, by simpa using hb⟩
  | succ k ih =>
    obtain ⟨l', hrun, hcfg, hst⟩ := ih (by omega)
    -- the count before the last call has not wrapped yet
    have hcount : (b.counter + UInt64.ofNat k).toNat = b.counter.toNat + k := by
      rw [UInt64.toNat_add, UInt64.toNat_ofNat']
      omega
    have hfull' : l'.config.maxPackets ≤ b.counter + UInt64.ofNat k := by
      rw [hcfg, UInt64.le_iff_toNat_le, hcount]
      exact Nat.le_add_right_of_le (UInt64.le_iff_toNat_le.mp hfull)
    have hlast := acquireToken_of_some (hcfg ▸ hmax) hst hle
    rw [if_neg (hcfg ▸ hwin), if_pos hfull'] at hlast
    refine ⟨l'.setBucket address { b with counter := b.counter + UInt64.ofNat k + 1 }, ?_,
      by rw [setBucket_config, hcfg], ?_⟩
    · rw [List.replicate_succ', List.replicate_succ']
      exact run_append hrun (run_cons hlast rfl)
    · rw [setBucket_state_self, UInt64.ofNat_add, ← UInt64.add_assoc]
      rfl

end LocalRateLimit

/-! ## The buckets follow the windows -/

/-- The bucket of an address follows its window after `n` calls, the last at the second `t`:
both are there or neither is; the bucket's window started when the window did, no later than
`t`; its count is of at most `n` calls; and the window's accepted calls are the count capped at
`maxPackets`. -/
inductive BucketFollows (maxPackets n t : Nat) : Option Bucket → Option Window → Prop
  | none : BucketFollows maxPackets n t none none
  | some (b : Bucket) (w : Window) (start_eq : b.windowStartTimeSecs.toNat = w.start)
      (start_le : w.start ≤ t) (counter_le : b.counter.toNat ≤ n)
      (accepted_eq : w.accepted = min b.counter.toNat maxPackets) :
      BucketFollows maxPackets n t (some b) (some w)

theorem BucketFollows.mono {m n n' t t' : Nat} {b : Option Bucket} {w : Option Window}
    (hn : n ≤ n') (ht : t ≤ t') : BucketFollows m n t b w → BucketFollows m n' t' b w
  | .none => .none
  | .some b w hs hst hc ha => .some b w hs (by omega) (by omega) ha

/-- Every bucket of the filter follows the window of its address, under the configuration `c`. -/
structure Follows (c : Config) (n t : Nat) (l : LocalRateLimit)
    (ws : EndpointAddress → Option Window) : Prop where
  config_eq : l.config = c
  bucket : ∀ address, BucketFollows c.maxPackets.toNat n t (l.state address) (ws address)

namespace Follows

variable {c : Config} {n t : Nat} {l : LocalRateLimit} {ws : EndpointAddress → Option Window}

theorem mono {n' t' : Nat} (hf : Follows c n t l ws) (hn : n ≤ n') (ht : t ≤ t') :
    Follows c n' t' l ws :=
  ⟨hf.config_eq, fun address => (hf.bucket address).mono hn ht⟩

theorem setBucket {n' t' : Nat} {address : EndpointAddress} {b : Bucket} {w : Window}
    (hf : Follows c n t l ws) (hn : n ≤ n') (ht : t ≤ t')
    (hb : BucketFollows c.maxPackets.toNat n' t' (some b) (some w)) :
    Follows c n' t' (l.setBucket address b) (Function.update ws address (some w)) where
  config_eq := hf.config_eq
  bucket a := by
    by_cases ha : a = address
    · subst ha
      simpa [LocalRateLimit.setBucket] using hb
    · simpa [LocalRateLimit.setBucket, Function.update_of_ne ha] using (hf.bucket a).mono hn ht

/-- A filter just built follows the empty windows. -/
theorem of_new {config : Config} (hl : LocalRateLimit.new config = .ok l) :
    Follows config 0 0 l fun _ => none := by
  obtain ⟨-, rfl⟩ := LocalRateLimit.new_eq_ok hl
  exact ⟨rfl, fun _ => .none⟩

/-- One call, at a second no earlier than the last and before the count can wrap, is decided as
its window decides it, and the buckets after it follow the windows after it. -/
theorem acquireToken (hf : Follows c n t l ws) {nowSecs : UInt64} (ht : t ≤ nowSecs.toNat)
    (hn : n + 1 < 2 ^ 64) (address : EndpointAddress) :
    let step := windowStep c.maxPackets.toNat c.period.toNat (ws address) nowSecs.toNat
    ∃ l', l.acquireToken address nowSecs = some (step.1, l') ∧
      Follows c (n + 1) nowSecs.toNat l' (Function.update ws address step.2) := by
  dsimp only
  have hc := hf.config_eq
  subst hc
  by_cases hmax : l.config.maxPackets = 0
  · -- the limit refuses every call and writes no bucket
    have hstep : windowStep l.config.maxPackets.toNat l.config.period.toNat (ws address)
        nowSecs.toNat = (false, ws address) := windowStep_of_zero (by simp [hmax])
    rw [hstep, Function.update_eq_self]
    exact ⟨l, LocalRateLimit.acquireToken_of_maxPackets_eq_zero hmax, hf.mono (by omega) ht⟩
  have hmax' : l.config.maxPackets.toNat ≠ 0 := fun h => hmax (UInt64.toNat_inj.mp h)
  have hb := hf.bucket address
  generalize hsb : l.state address = sb at hb
  generalize hw : ws address = sw at hb
  -- a call at `nowSecs` opens a window: one call counted, one accepted
  have hopen : BucketFollows l.config.maxPackets.toNat (n + 1) nowSecs.toNat
      (some ⟨1, nowSecs⟩) (some ⟨nowSecs.toNat, 1⟩) :=
    .some _ _ rfl (Nat.le_refl _) (by simp) (by simp; omega)
  cases hb with
  | none =>
    -- the first call of the address
    rw [windowStep_none hmax']
    exact ⟨_, LocalRateLimit.acquireToken_of_none hmax hsb, hf.setBucket (by omega) ht hopen⟩
  | some b w hstart hst hcount hacc =>
    have hle : b.windowStartTimeSecs ≤ nowSecs := UInt64.le_iff_toNat_le.mpr (by omega)
    rw [LocalRateLimit.acquireToken_of_some hmax hsb hle]
    rw [windowStep_some hmax', ← hstart]
    by_cases hnew : l.config.period.toNat < nowSecs.toNat - b.windowStartTimeSecs.toNat
    · -- the window is over: a new one opens with this call
      rw [if_pos hnew, if_pos hnew]
      exact ⟨_, rfl, hf.setBucket (by omega) ht hopen⟩
    rw [if_neg hnew, if_neg hnew]
    have hcount' : (b.counter + 1).toNat = b.counter.toNat + 1 := by
      rw [UInt64.toNat_add, UInt64.toNat_one]
      omega
    by_cases hfull : l.config.maxPackets ≤ b.counter
    · -- the count has reached the limit, and so has the window
      have hlimit := UInt64.le_iff_toNat_le.mp hfull
      have hkeep : BucketFollows l.config.maxPackets.toNat (n + 1) nowSecs.toNat
          (some { b with counter := b.counter + 1 }) (some w) :=
        .some _ _ hstart (by omega) (by rw [hcount']; omega) (by rw [hcount']; omega)
      rw [if_pos hfull, if_neg (by omega)]
      exact ⟨_, rfl, hf.setBucket (by omega) ht hkeep⟩
    · have hlimit := UInt64.not_le.mp hfull
      rw [UInt64.lt_iff_toNat_lt] at hlimit
      have hadd : BucketFollows l.config.maxPackets.toNat (n + 1) nowSecs.toNat
          (some { b with counter := b.counter + 1 })
          (some ⟨b.windowStartTimeSecs.toNat, w.accepted + 1⟩) :=
        .some _ _ rfl (show b.windowStartTimeSecs.toNat ≤ nowSecs.toNat by omega)
          (by rw [hcount']; omega)
          (show w.accepted + 1 = min (b.counter + 1).toNat _ by rw [hcount']; omega)
      rw [if_neg hfull, if_pos (by omega)]
      exact ⟨_, rfl, hf.setBucket (by omega) ht hadd⟩

/-- The decisions of a run of calls at non-decreasing seconds, none earlier than `t`, and too
few for the count to wrap, are those of the windows. -/
theorem run (hf : Follows c n t l ws) (calls : List (EndpointAddress × UInt64))
    (hafter : ∀ call ∈ calls, t ≤ call.2.toNat)
    (hsorted : (calls.map Prod.snd).Pairwise (· ≤ ·)) (hlen : n + calls.length < 2 ^ 64) :
    (l.run calls).map Prod.fst =
      some (windowRun c.maxPackets.toNat c.period.toNat ws
        (calls.map fun call => (call.1, call.2.toNat))) := by
  induction calls generalizing n t l ws with
  | nil => rfl
  | cons call calls ih =>
    obtain ⟨address, nowSecs⟩ := call
    rw [List.map_cons, List.pairwise_cons] at hsorted
    rw [List.length_cons] at hlen
    obtain ⟨l', hstep, hf'⟩ := hf.acquireToken (hafter _ List.mem_cons_self) (by omega) address
    have hafter' : ∀ call ∈ calls, nowSecs.toNat ≤ call.2.toNat := fun call hc =>
      UInt64.le_iff_toNat_le.mp (hsorted.1 _ (List.mem_map_of_mem hc))
    obtain ⟨⟨oks, l''⟩, hrun, hoks⟩ :=
      Option.map_eq_some_iff.mp (ih hf' hafter' hsorted.2 (by omega))
    rw [LocalRateLimit.run_cons hstep hrun]
    simp only [Option.map_some, List.map_cons, windowRun, ← hoks]

end Follows

/-- For a run of fewer than `2^64` calls at non-decreasing seconds, the filter decides every
call as the windows do. -/
theorem LocalRateLimit.run_eq_windowRun (config : Config) (l : LocalRateLimit)
    (hl : new config = .ok l) (calls : List (EndpointAddress × UInt64))
    (hsorted : (calls.map Prod.snd).Pairwise (· ≤ ·)) (hlen : calls.length < 2 ^ 64) :
    (l.run calls).map Prod.fst =
      some (windowRun config.maxPackets.toNat config.period.toNat (fun _ => none)
        (calls.map fun call => (call.1, call.2.toNat))) :=
  (Follows.of_new hl).run calls (fun _ _ => Nat.zero_le _) hsorted (by omega)

theorem LocalRateLimit.run_eq_windowRun_three_calls :
    let address : EndpointAddress := ⟨.ip (.v4 ⟨127, 0, 0, 1⟩), 8080⟩
    ((⟨fun _ => none, ⟨2, 1⟩⟩ : LocalRateLimit).run
        [(address, 0), (address, 0), (address, 0), (address, 2)]).map Prod.fst =
      some (windowRun 2 1 (fun _ => none)
        [(address, 0), (address, 0), (address, 0), (address, 2)]) :=
  LocalRateLimit.run_eq_windowRun ⟨2, 1⟩ _ rfl _ (by decide) (by decide)

/-- With a limit of one packet a second, a run of `2^64 + 1` calls from one address in one
second: the windows accept the first call and refuse the rest, and the filter accepts the last
call too, once the count of the calls has wrapped to zero. -/
theorem LocalRateLimit.run_counter_wraps :
    LocalRateLimit.new ⟨1, 1⟩ = .ok ⟨fun _ => none, ⟨1, 1⟩⟩ ∧
      ∀ address : EndpointAddress,
        ((⟨fun _ => none, ⟨1, 1⟩⟩ : LocalRateLimit).run
            (List.replicate (2 ^ 64 + 1) (address, 0))).map Prod.fst =
          some (true :: (List.replicate (2 ^ 64 - 1) false ++ [true])) ∧
        windowRun 1 1 (fun _ => none) (List.replicate (2 ^ 64 + 1) (address, 0)) =
          true :: List.replicate (2 ^ 64) false := by
  refine ⟨rfl, fun address => ⟨?_, ?_⟩⟩
  · -- the first call opens the window, the next `2^64 - 1` are refused, and the count is zero
    let l : LocalRateLimit := ⟨fun _ => none, ⟨1, 1⟩⟩
    have hfirst : l.acquireToken address 0 = some (true, l.setBucket address ⟨1, 0⟩) :=
      LocalRateLimit.acquireToken_of_none (by decide) rfl
    have hcfg₁ : (l.setBucket address ⟨1, 0⟩).config = ⟨1, 1⟩ := rfl
    obtain ⟨l', hrun, hcfg, hst⟩ := LocalRateLimit.run_replicate_refused
      (l := l.setBucket address ⟨1, 0⟩) (b := ⟨1, 0⟩) (by rw [hcfg₁]; decide)
      LocalRateLimit.setBucket_state_self (UInt64.le_refl _) (by rw [hcfg₁]; decide)
      (by rw [hcfg₁]; decide) (2 ^ 64 - 1) (by decide)
    rw [hcfg₁] at hcfg
    have hlast := LocalRateLimit.acquireToken_of_some (by rw [hcfg]; decide) hst (UInt64.le_refl _)
    rw [hcfg, if_neg (by decide), if_neg (by decide)] at hlast
    have hsplit : List.replicate (2 ^ 64 + 1) (address, (0 : UInt64)) =
        (address, 0) :: (List.replicate (2 ^ 64 - 1) (address, 0) ++ [(address, 0)]) := by
      rw [List.replicate_succ, ← List.replicate_succ', Nat.sub_add_cancel Nat.one_le_two_pow]
    rw [hsplit, LocalRateLimit.run_cons hfirst
      (LocalRateLimit.run_append hrun (LocalRateLimit.run_cons hlast rfl)), Option.map_some]
  · -- the windows: the first call opens one, and it is full for the rest of the second
    rw [List.replicate_succ, windowRun, windowStep_none Nat.one_ne_zero]
    exact congrArg _ (windowRun_replicate_full (w := ⟨0, 1⟩) Nat.one_ne_zero
      (Function.update_self _ _ _) (Nat.zero_le _) rfl _)

end Quilkin.Filters
