import Quilkin.Collections.Ttl

/-!
# The TTL map: what a prune removes, and how long an entry lives

`prune_entries` is the plain filter of the map by expiry: its check under the read locks only
saves taking the write locks when nothing has expired (`pruneEntries_eq_retain`). After a prune
nothing expired remains and nothing live is lost (`lookup_pruneEntries`).

An entry's expiry is a whole second: that of the time it was last inserted or read, plus the TTL.
A prune compares it with the whole seconds of its own time. So an entry that no call touches after
the time `t` it was written at is removed by every prune at or after `t + ttl`, kept by every prune
more than a second before, and in between removed by a prune in the second its expiry falls in,
before its TTL has elapsed (`untouched_lifetime`).
-/

namespace Quilkin.Collections

/-! ## Seconds of expiry -/

/-- A prune at or after the time the TTL elapses finds the entry expired. -/
theorem expired_of_le {ttl t now : Nat} (h : t + ttl ≤ now) :
    ¬ nowRelativeSecs now < computeExpirationSecs ttl t := by
  have hdiv : (t + ttl) / nanosPerSec ≤ now / nanosPerSec := Nat.div_le_div_right h
  unfold nowRelativeSecs computeExpirationSecs
  omega

/-- A prune more than a second before the TTL elapses finds the entry live. -/
theorem live_of_add_le {ttl t now : Nat} (h : now + nanosPerSec ≤ t + ttl) :
    nowRelativeSecs now < computeExpirationSecs ttl t := by
  have hdiv : (now + nanosPerSec) / nanosPerSec ≤ (t + ttl) / nanosPerSec := Nat.div_le_div_right h
  rw [Nat.add_div_right now (by decide)] at hdiv
  exact hdiv

namespace Op

variable {K V : Type}

/-- The key a call names; a tick names none. -/
def key? : Op K V → Option K
  | .insert key _ | .get key | .remove key | .entry key _ => some key
  | .prune => none

/-- Whether the call or tick at `now` leaves a value whose expiry is `expiresAt`, when it names
another key: every call does, a prune when the value has not expired. -/
def keeps (expiresAt : Nat) : Nat × Op K V → Bool
  | (now, .prune) => nowRelativeSecs now < expiresAt
  | _ => true

/-- Only a prune removes a value. -/
theorem filter_keeps_of_ne_prune (op : Op K V) (hop : op ≠ .prune) (now : Nat)
    (o : Option (Value V)) :
    o.filter (fun v => keeps v.expiresAt (now, op)) = o := by
  cases o with
  | none => rfl
  | some v =>
    cases op with
    | prune => exact absurd rfl hop
    | _ => rfl

end Op

namespace TtlMap

variable {K V : Type} [DecidableEq K] (m : TtlMap K V) (now : Nat)

/-! ## Each call -/

omit [DecidableEq K] in
/-- The check under the read locks changes nothing: a prune is the filter by expiry. -/
theorem pruneEntries_eq_retain :
    m.pruneEntries now =
      { m with inner := m.inner.retain fun _ v => nowRelativeSecs now < v.expiresAt } := by
  unfold pruneEntries
  dsimp only
  split
  · rfl
  · -- nothing has expired, so the filter keeps every entry
    rename_i hnone
    have hlive : ∀ e ∈ m.inner.entries, decide (nowRelativeSecs now < e.2.expiresAt) = true := by
      intro e he
      have hnot := List.any_eq_false.mp (Bool.eq_false_iff.mpr hnone) e he
      simpa using hnot
    rw [AList.retain_of_forall hlive]

/-- After a prune, a key keeps its value when it has not expired, and has none otherwise. -/
theorem lookup_pruneEntries (k : K) :
    (m.pruneEntries now).inner.lookup k =
      (m.inner.lookup k).filter fun v => nowRelativeSecs now < v.expiresAt := by
  rw [pruneEntries_eq_retain, AList.lookup_retain]

theorem lookup_insert_self (k : K) (v : V) :
    (m.insert now k v).2.inner.lookup k = some (Value.new v m.ttl now) :=
  AList.lookup_insert _

/-- A read of a key that has a value resets its expiry to a TTL from now. -/
theorem lookup_get_self {k : K} {w : Value V} (hk : m.inner.lookup k = some w) :
    (m.get now k).2.inner.lookup k = some (Value.new w.value m.ttl now) := by
  rw [get, hk]
  exact AList.lookup_insert _

/-- `entry` reads the value a key has, or inserts `v`: either way the value expires a TTL from
now. -/
theorem lookup_step_entry (k : K) (v : V) :
    (m.step now (.entry k v)).inner.lookup k =
      some (Value.new (((m.inner.lookup k).map (·.value)).getD v) m.ttl now) := by
  simp only [step, entry]
  cases hk : m.inner.lookup k with
  | none => exact AList.lookup_insert _
  | some w => exact AList.lookup_insert _

@[simp] theorem ttl_step (op : Op K V) : (m.step now op).ttl = m.ttl := by
  cases op with
  | get key =>
    simp only [step, get]
    split <;> rfl
  | entry key value =>
    simp only [step, entry]
    split <;> rfl
  | prune => simp [step, pruneEntries_eq_retain]
  | _ => rfl

/-- A call on another key leaves a key's value as it is; a prune removes it when it has
expired. -/
theorem lookup_step_of_key_ne {k : K} {op : Op K V} (hop : op.key? ≠ some k) :
    (m.step now op).inner.lookup k =
      (m.inner.lookup k).filter fun v => Op.keeps v.expiresAt (now, op) := by
  cases op with
  | prune => rw [step, lookup_pruneEntries]; rfl
  | insert key value =>
    have hne : k ≠ key := fun h => hop (congrArg some h.symm)
    rw [Op.filter_keeps_of_ne_prune (.insert key value) nofun]
    exact AList.lookup_insert_ne hne
  | get key =>
    have hne : k ≠ key := fun h => hop (congrArg some h.symm)
    rw [Op.filter_keeps_of_ne_prune (.get key) nofun, step, get]
    split
    · exact AList.lookup_insert_ne hne
    · rfl
  | remove key =>
    have hne : k ≠ key := fun h => hop (congrArg some h.symm)
    rw [Op.filter_keeps_of_ne_prune (.remove key) nofun]
    exact AList.lookup_erase_ne hne
  | entry key value =>
    have hne : k ≠ key := fun h => hop (congrArg some h.symm)
    rw [Op.filter_keeps_of_ne_prune (.entry key value) nofun, step, entry]
    split
    · exact AList.lookup_insert_ne hne
    · exact AList.lookup_insert_ne hne

/-! ## Runs -/

/-- A run of calls that name other keys leaves a key's value as it is, unless a prune of the run
finds it expired. -/
theorem lookup_run_of_untouched {k : K} {ops : List (Nat × Op K V)}
    (h : ∀ x ∈ ops, x.2.key? ≠ some k) :
    (m.run ops).inner.lookup k =
      (m.inner.lookup k).filter fun v => ops.all (Op.keeps v.expiresAt) := by
  induction ops generalizing m with
  | nil =>
    rw [run]
    cases m.inner.lookup k <;> rfl
  | cons x ops ih =>
    -- the value survives the first step and then the rest exactly when it survives them all
    rw [run, ih _ fun y hy => h y (List.mem_cons_of_mem _ hy),
      lookup_step_of_key_ne _ _ (h _ List.mem_cons_self), Option.filter_filter]
    simp only [List.all_cons]

@[simp] theorem ttl_run (ops : List (Nat × Op K V)) : (m.run ops).ttl = m.ttl := by
  induction ops generalizing m with
  | nil => rfl
  | cons x ops ih => rw [run, ih, ttl_step]

/-- An entry written at the time `t` that no later call names is there after a run exactly when
every prune of the run came before its second of expiry: it is kept by every prune more than a
second before its TTL elapses, and removed by a prune at or after that; a prune in between
removes it before its TTL has elapsed when the second of expiry has begun. -/
theorem untouched_lifetime {k : K} {v : V} {t : Nat} {ops : List (Nat × Op K V)}
    (hk : m.inner.lookup k = some (Value.new v m.ttl t)) (huntouched : ∀ x ∈ ops, x.2.key? ≠ some k) :
    ((m.run ops).inner.lookup k = some (Value.new v m.ttl t) ↔
      ∀ x ∈ ops, x.2 = .prune → nowRelativeSecs x.1 < computeExpirationSecs m.ttl t) ∧
    ((∀ x ∈ ops, x.2 = .prune → x.1 + nanosPerSec ≤ t + m.ttl) →
      (m.run ops).inner.lookup k = some (Value.new v m.ttl t)) ∧
    ((∃ x ∈ ops, x.2 = .prune ∧ t + m.ttl ≤ x.1) → (m.run ops).inner.lookup k = none) := by
  have hrun := lookup_run_of_untouched m huntouched
  rw [hk] at hrun
  -- what the run's prunes decide, read off `Op.keeps`
  have hall : ops.all (Op.keeps (Value.new v m.ttl t).expiresAt) = true ↔
      ∀ x ∈ ops, x.2 = .prune → nowRelativeSecs x.1 < computeExpirationSecs m.ttl t := by
    rw [List.all_eq_true]
    refine forall₂_congr fun x _ => ?_
    obtain ⟨now, op⟩ := x
    cases op with
    | prune => exact ⟨fun h _ => of_decide_eq_true h, fun h => decide_eq_true (h rfl)⟩
    | _ => simp [Op.keeps]
  have hiff : (m.run ops).inner.lookup k = some (Value.new v m.ttl t) ↔
      ∀ x ∈ ops, x.2 = .prune → nowRelativeSecs x.1 < computeExpirationSecs m.ttl t := by
    rw [← hall, hrun]
    by_cases hkeep : ops.all (Op.keeps (Value.new v m.ttl t).expiresAt) = true <;> simp [hkeep]
  refine ⟨hiff, fun hbefore => hiff.mpr fun x hx hp => live_of_add_le (hbefore x hx hp), ?_⟩
  rintro ⟨x, hx, hp, hafter⟩
  have hexpired : ops.all (Op.keeps (Value.new v m.ttl t).expiresAt) = false := by
    rw [Bool.eq_false_iff, ne_eq, hall]
    exact fun hlive => expired_of_le hafter (hlive x hx hp)
  rw [hrun]
  simp only [Option.filter_some, hexpired, Bool.false_eq_true, if_false]

/-- A map with a TTL of two seconds, whose key `1` was given `7` half a second after the epoch. -/
def halfSecondEntry : TtlMap Nat Nat := ((TtlMap.new (2 * nanosPerSec)).insert (nanosPerSec / 2) 1 7).2

/-- A prune at two seconds. -/
def pruneAtTwo : List (Nat × Op Nat Nat) := [(2 * nanosPerSec, .prune)]

theorem untouched_lifetime_pruneAtTwo :
    halfSecondEntry.inner.lookup 1 = some (Value.new 7 halfSecondEntry.ttl (nanosPerSec / 2)) ∧
    (∀ x ∈ pruneAtTwo, x.2.key? ≠ some 1) ∧
    (((halfSecondEntry.run pruneAtTwo).inner.lookup 1 =
        some (Value.new 7 halfSecondEntry.ttl (nanosPerSec / 2)) ↔
      ∀ x ∈ pruneAtTwo, x.2 = .prune →
        nowRelativeSecs x.1 < computeExpirationSecs halfSecondEntry.ttl (nanosPerSec / 2)) ∧
    ((∀ x ∈ pruneAtTwo, x.2 = .prune → x.1 + nanosPerSec ≤ nanosPerSec / 2 + halfSecondEntry.ttl) →
      (halfSecondEntry.run pruneAtTwo).inner.lookup 1 =
        some (Value.new 7 halfSecondEntry.ttl (nanosPerSec / 2))) ∧
    ((∃ x ∈ pruneAtTwo, x.2 = .prune ∧ nanosPerSec / 2 + halfSecondEntry.ttl ≤ x.1) →
      (halfSecondEntry.run pruneAtTwo).inner.lookup 1 = none)) := by
  have hk : halfSecondEntry.inner.lookup 1 = some (Value.new 7 halfSecondEntry.ttl (nanosPerSec / 2)) :=
    lookup_insert_self _ _ _ _
  have huntouched : ∀ x ∈ pruneAtTwo, x.2.key? ≠ some 1 := by decide
  exact ⟨hk, huntouched, untouched_lifetime _ hk huntouched⟩

/-- The prune at two seconds removes the entry, half a second before its TTL elapses. -/
example : ((halfSecondEntry.run pruneAtTwo).inner.lookup 1).isNone = true := by decide

end TtlMap

end Quilkin.Collections
