import Mathlib.Data.List.Perm.Basic

/-!
# Removal by swapping

`Vec::swap_remove(i)` takes the element at `i` out of a vector in constant time: the last element
is moved into its place and the vector shortened by one. The order of the rest changes, what the
vector holds does not: the element removed and the vector left are a permutation of the vector
before (`swapRemove_perm`), which is all a caller that treats the vector as a pool relies on.
-/

namespace Vec

variable {α : Type}

/-- `swap_remove(i)`: the element at `i`, and the vector with its last element copied over
position `i` and then dropped; `none` where `i` is out of bounds, which panics. -/
def swapRemove (v : List α) (i : Nat) : Option (α × List α) :=
  if h : i < v.length then
    have hne : v ≠ [] := List.ne_nil_of_length_pos (Nat.lt_of_le_of_lt (Nat.zero_le i) h)
    some (v[i], (v.set i (v.getLast hne)).dropLast)
  else none

theorem exists_swapRemove {v : List α} {i : Nat} (h : i < v.length) :
    ∃ a v', swapRemove v i = some (a, v') := by
  rw [swapRemove, dif_pos h]
  exact ⟨_, _, rfl⟩

/-- The element `swap_remove(i)` returns is the one at `i`. -/
theorem swapRemove_getElem {v v' : List α} {i : Nat} {a : α} (h : swapRemove v i = some (a, v')) :
    ∃ hi : i < v.length, v[i] = a := by
  unfold swapRemove at h
  split_ifs at h with hi
  exact ⟨hi, (Prod.mk.inj (Option.some.inj h)).1⟩

/-- Writing the last element over any position leaves it the last element. -/
theorem getLast_set_getLast {v : List α} {i : Nat} (hne : v ≠ []) :
    (v.set i (v.getLast hne)).getLast (by simpa using hne) = v.getLast hne := by
  rw [List.getLast_eq_getElem, List.getElem_set]
  split_ifs with h
  · rfl
  · simp only [List.length_set, List.getLast_eq_getElem]

/-- The element removed and the vector left hold what the vector held. -/
theorem swapRemove_perm {v v' : List α} {i : Nat} {a : α} (h : swapRemove v i = some (a, v')) :
    v.Perm (a :: v') := by
  unfold swapRemove at h
  split_ifs at h with hi
  obtain ⟨rfl, rfl⟩ := Prod.mk.inj (Option.some.inj h)
  have hne : v ≠ [] := List.ne_nil_of_length_pos (Nat.lt_of_le_of_lt (Nat.zero_le i) hi)
  -- the vector with the last element written over position `i` ends in that element
  have hwne : v.set i (v.getLast hne) ≠ [] := by simpa using hne
  have hsplit :
      (v.set i (v.getLast hne)).dropLast ++ [v.getLast hne] = v.set i (v.getLast hne) := by
    have hlast := List.dropLast_concat_getLast hwne
    rwa [getLast_set_getLast hne] at hlast
  -- and besides it holds the vector less position `i`
  have hset : (v.set i (v.getLast hne)).Perm (v.getLast hne :: v.eraseIdx i) :=
    List.set_perm_cons_eraseIdx hi _
  have hdrop : (v.set i (v.getLast hne)).dropLast.Perm (v.eraseIdx i) := by
    rw [← hsplit] at hset
    exact List.perm_cons _ |>.mp (List.perm_append_singleton _ _ |>.symm.trans hset)
  exact (List.getElem_cons_eraseIdx_perm hi).symm.trans (hdrop.symm.cons _)

end Vec
