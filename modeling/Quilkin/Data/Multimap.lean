import Mathlib.Data.Finset.Basic

/-!
# Set-valued maps

A map from keys to finite sets of values, kept the way a hash map of hash sets is kept when no
key is left with an empty set: the empty set stands for an absent key. `insertAt` adds a value to
the set of one key (`entry(k).or_default().insert(a)`) and `eraseAt` takes it out, the key going
with its last value.

The lemmas say which values a key holds after one of these updates, and after a loop of them
over a list: a loop that inserts one value under the keys of a list, and the two nested loops
that build an inverted index from a list of entries.
-/

/-- A map from keys to finite sets of values; the empty set stands for an absent key. -/
abbrev Multimap (κ α : Type) := κ → Finset α

namespace Multimap

variable {κ α : Type}

/-- The map with no keys. -/
def empty : Multimap κ α := fun _ => ∅

@[simp] theorem empty_apply (k : κ) : (empty : Multimap κ α) k = ∅ := rfl

variable [DecidableEq κ] [DecidableEq α]

/-- `entry(k).or_default().insert(a)`. -/
def insertAt (m : Multimap κ α) (k : κ) (a : α) : Multimap κ α :=
  Function.update m k (insert a (m k))

/-- Removing `a` from the set of `k`, and `k` with it when the set becomes empty. -/
def eraseAt (m : Multimap κ α) (k : κ) (a : α) : Multimap κ α :=
  Function.update m k ((m k).erase a)

variable {m : Multimap κ α} {k k' : κ} {a a' : α}

@[simp] theorem mem_insertAt : a' ∈ m.insertAt k a k' ↔ a' ∈ m k' ∨ (k' = k ∧ a' = a) := by
  by_cases hk : k' = k
  · subst hk
    simp only [insertAt, Function.update_self, Finset.mem_insert, true_and]
    exact or_comm
  · simp only [insertAt, Function.update_of_ne hk, hk, false_and, or_false]

@[simp] theorem mem_eraseAt : a' ∈ m.eraseAt k a k' ↔ a' ∈ m k' ∧ ¬(k' = k ∧ a' = a) := by
  by_cases hk : k' = k
  · subst hk
    simp only [eraseAt, Function.update_self, Finset.mem_erase, true_and]
    exact and_comm
  · simp only [eraseAt, Function.update_of_ne hk, hk, false_and, not_false_eq_true, and_true]

section Loops

variable {γ : Type} (f : γ → κ)

/-- A loop inserting `a` under the key `f x` of every `x` of a list. -/
theorem mem_foldl_insertAt (l : List γ) (m : Multimap κ α) :
    a' ∈ l.foldl (fun m x => m.insertAt (f x) a) m k ↔
      a' ∈ m k ∨ (a' = a ∧ ∃ x ∈ l, f x = k) := by
  induction l generalizing m with
  | nil => simp
  | cons x l ih =>
    rw [List.foldl_cons, ih, mem_insertAt]
    constructor
    · rintro ((h | ⟨rfl, rfl⟩) | ⟨rfl, y, hy, rfl⟩)
      · exact .inl h
      · exact .inr ⟨rfl, x, List.mem_cons_self, rfl⟩
      · exact .inr ⟨rfl, y, List.mem_cons_of_mem x hy, rfl⟩
    · rintro (h | ⟨rfl, y, hy, rfl⟩)
      · exact .inl (.inl h)
      · rcases List.mem_cons.mp hy with rfl | hy
        · exact .inl (.inr ⟨rfl, rfl⟩)
        · exact .inr ⟨rfl, y, hy, rfl⟩

/-- The inverted index of a list of entries, built by two nested loops: every entry `e` is
inserted, as its value `val e`, under the key `f x` of every `x` of its list `xs e`. -/
theorem mem_foldl_foldl_insertAt {ε : Type} (val : ε → α) (xs : ε → List γ) (l : List ε)
    (m : Multimap κ α) :
    a' ∈ l.foldl (fun m e => (xs e).foldl (fun m x => m.insertAt (f x) (val e)) m) m k ↔
      a' ∈ m k ∨ ∃ e ∈ l, val e = a' ∧ ∃ x ∈ xs e, f x = k := by
  induction l generalizing m with
  | nil => simp
  | cons e l ih =>
    rw [List.foldl_cons, ih, mem_foldl_insertAt]
    constructor
    · rintro ((h | ⟨rfl, hx⟩) | ⟨e', he', h⟩)
      · exact .inl h
      · exact .inr ⟨e, List.mem_cons_self, rfl, hx⟩
      · exact .inr ⟨e', List.mem_cons_of_mem e he', h⟩
    · rintro (h | ⟨e', he', h⟩)
      · exact .inl (.inl h)
      · rcases List.mem_cons.mp he' with rfl | he'
        · exact .inl (.inr ⟨h.1.symm, h.2⟩)
        · exact .inr ⟨e', he', h⟩

end Loops

end Multimap

/-- An order in which a hash set yields its elements when it is iterated: every element once, in
an order that is not specified. -/
structure SetIter (α : Type) where
  toList : Finset α → List α
  mem_toList : ∀ s a, a ∈ toList s ↔ a ∈ s
  nodup_toList : ∀ s, (toList s).Nodup

namespace SetIter

variable {α : Type} (it : SetIter α)

/-- The order `Finset.toList` picks. -/
noncomputable def ofFinset : SetIter α :=
  ⟨Finset.toList, fun _ _ => Finset.mem_toList, Finset.nodup_toList⟩

end SetIter
