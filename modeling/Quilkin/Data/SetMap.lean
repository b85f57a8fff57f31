import Mathlib.Data.Finset.Basic

/-!
# Hash maps of hash sets

A map from keys to finite sets of values as a hash map of hash sets keeps it: a key is absent or
holds a set, which may be empty. `insertAt` is `entry(k).or_default().insert(a)`, and `eraseAt`
takes a value out of the set of a key that is present and the key out with its last value, as a
caller does that never leaves an empty set behind.

`get` reads the set of a key, empty when the key is absent; `NoEmpty` says that no key holds the
empty set, and both updates keep it.
-/

/-- A map from keys to finite sets of values, each key absent or holding a set. -/
abbrev SetMap (κ α : Type) := κ → Option (Finset α)

namespace SetMap

variable {κ α : Type}

/-- The set of a key, empty when the key is absent. -/
def get (m : SetMap κ α) (k : κ) : Finset α := (m k).getD ∅

/-- No key holds the empty set. -/
def NoEmpty (m : SetMap κ α) : Prop := ∀ k s, m k = some s → s.Nonempty

/-- The map with no keys. -/
def empty : SetMap κ α := fun _ => none

@[simp] theorem get_empty (k : κ) : get (empty : SetMap κ α) k = ∅ := rfl

theorem noEmpty_empty : NoEmpty (empty : SetMap κ α) := fun _ _ h => nomatch h

section Present

variable {m : SetMap κ α} {k : κ}

theorem get_eq_of_eq_some {s : Finset α} (h : m k = some s) : get m k = s := by
  rw [get, h]
  rfl

/-- A key whose set has a value is present. -/
theorem exists_eq_some_of_mem_get {a : α} (h : a ∈ get m k) : ∃ s, m k = some s := by
  cases hk : m k with
  | none =>
    rw [get, hk] at h
    exact absurd h (Finset.notMem_empty a)
  | some s => exact ⟨s, rfl⟩

end Present

variable [DecidableEq κ] [DecidableEq α]

/-- `entry(k).or_default().insert(a)`. -/
def insertAt (m : SetMap κ α) (k : κ) (a : α) : SetMap κ α :=
  Function.update m k (some (insert a (get m k)))

/-- `set.remove(a)` on the set of a present key, then the key's removal if the set is empty. -/
def eraseAt (m : SetMap κ α) (k : κ) (a : α) : SetMap κ α :=
  match m k with
  | none => m
  | some s => if s.erase a = ∅ then Function.update m k none else Function.update m k (some (s.erase a))

variable {m : SetMap κ α} {k k' : κ} {a a' : α}

@[simp] theorem mem_get_insertAt : a' ∈ get (m.insertAt k a) k' ↔ a' ∈ get m k' ∨ (k' = k ∧ a' = a) := by
  by_cases hk : k' = k
  · subst hk
    simp only [get, insertAt, Function.update_self, Option.getD_some, Finset.mem_insert, true_and]
    exact or_comm
  · simp only [get, insertAt, Function.update_of_ne hk, hk, false_and, or_false]

theorem eraseAt_of_eq_none (h : m k = none) (a : α) : m.eraseAt k a = m := by
  unfold eraseAt
  rw [h]

theorem eraseAt_of_eq_some {s : Finset α} (h : m k = some s) (a : α) :
    m.eraseAt k a =
      if s.erase a = ∅ then Function.update m k none else Function.update m k (some (s.erase a)) := by
  unfold eraseAt
  rw [h]

theorem get_eraseAt (m : SetMap κ α) (k : κ) (a : α) :
    get (m.eraseAt k a) k' = if k' = k then (get m k).erase a else get m k' := by
  cases hm : m k with
  | none =>
    rw [eraseAt_of_eq_none hm]
    split_ifs with hk
    · rw [hk, get, hm]
      rfl
    · rfl
  | some s =>
    rw [eraseAt_of_eq_some hm, get_eq_of_eq_some hm]
    by_cases hk : k' = k
    · subst hk
      rw [if_pos rfl]
      by_cases he : s.erase a = ∅
      · rw [if_pos he, get, Function.update_self, he]
        rfl
      · rw [if_neg he, get, Function.update_self]
        rfl
    · rw [if_neg hk]
      split_ifs <;> rw [get, Function.update_of_ne hk] <;> rfl

@[simp] theorem mem_get_eraseAt : a' ∈ get (m.eraseAt k a) k' ↔ a' ∈ get m k' ∧ ¬(k' = k ∧ a' = a) := by
  rw [get_eraseAt]
  by_cases hk : k' = k
  · subst hk
    simp only [if_true, Finset.mem_erase, true_and]
    exact and_comm
  · simp only [hk, if_false, false_and, not_false_eq_true, and_true]

theorem NoEmpty.insertAt (h : NoEmpty m) (k : κ) (a : α) : NoEmpty (m.insertAt k a) := by
  intro k' s hs
  by_cases hk : k' = k
  · subst hk
    rw [SetMap.insertAt, Function.update_self] at hs
    cases hs
    exact Finset.insert_nonempty _ _
  · rw [SetMap.insertAt, Function.update_of_ne hk] at hs
    exact h k' s hs

theorem NoEmpty.eraseAt (h : NoEmpty m) (k : κ) (a : α) : NoEmpty (m.eraseAt k a) := by
  intro k' s hs
  cases hm : m k with
  | none =>
    rw [eraseAt_of_eq_none hm] at hs
    exact h k' s hs
  | some t =>
    rw [eraseAt_of_eq_some hm] at hs
    by_cases hk : k' = k
    · subst hk
      split_ifs at hs with he
      · rw [Function.update_self] at hs
        cases hs
      · rw [Function.update_self] at hs
        cases hs
        exact Finset.nonempty_iff_ne_empty.mpr he
    · split_ifs at hs <;> rw [Function.update_of_ne hk] at hs <;> exact h k' s hs

/-- Reserving a value in the set of a key first, then inserting it, is inserting it. -/
theorem insertAt_update_insert {s : Finset α} (h : m k = some s) :
    insertAt (Function.update m k (some (insert a s))) k a = m.insertAt k a := by
  rw [insertAt, insertAt, Function.update_idem, get, Function.update_self, get_eq_of_eq_some h]
  simp only [Option.getD_some, Finset.insert_idem]

end SetMap
