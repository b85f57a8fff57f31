import Mathlib.Data.List.AList
import Mathlib.Algebra.GroupWithZero.Nat

/-!
# Totals over association lists

The sum of a count over the values of an association list, and how `insert` and `erase` move it:
the count of the value the key had comes off, and the count of the new value goes on. A counter
kept beside a map and moved by hand at every write is shown to stay the map's total with these
lemmas.
-/

namespace AList

variable {α β : Type} [DecidableEq α] (f : β → ℕ)

/-- The sum of `f` over the values. -/
def total (s : AList fun _ : α => β) : ℕ := (s.entries.map fun e => f e.2).sum

/-- Taking out the first entry of a key takes its count off the sum. -/
theorem sum_map_kerase (a : α) (l : List (Sigma fun _ : α => β)) :
    ((l.kerase a).map fun e => f e.2).sum + (l.dlookup a).elim 0 f = (l.map fun e => f e.2).sum := by
  induction l with
  | nil => rfl
  | cons e l ih =>
    obtain ⟨a', b'⟩ := e
    by_cases ha : a = a'
    · rw [List.kerase_cons_eq ha]
      subst ha
      rw [List.dlookup_cons_eq, List.map_cons, List.sum_cons]
      exact Nat.add_comm _ _
    · rw [List.kerase_cons_ne ha, List.dlookup_cons_ne l ⟨a', b'⟩ ha, List.map_cons, List.sum_cons,
        List.map_cons, List.sum_cons, Nat.add_assoc, ih]

omit [DecidableEq α] in
@[simp] theorem total_empty : total f (∅ : AList fun _ : α => β) = 0 := rfl

theorem total_erase (s : AList fun _ : α => β) (a : α) :
    total f (s.erase a) + (s.lookup a).elim 0 f = total f s :=
  sum_map_kerase f a s.entries

theorem total_insert (s : AList fun _ : α => β) (a : α) (b : β) :
    total f (s.insert a b) + (s.lookup a).elim 0 f = total f s + f b := by
  have h := sum_map_kerase f a s.entries
  unfold total
  rw [entries_insert, List.map_cons, List.sum_cons, Nat.add_assoc, lookup, h, Nat.add_comm]

omit [DecidableEq α] in
/-- Counting one for each value counts the entries. -/
theorem total_one (s : AList fun _ : α => β) : total (fun _ => 1) s = s.entries.length := by
  simp [total]

/-- The count of one value is at most the total. -/
theorem le_total_of_lookup {s : AList fun _ : α => β} {a : α} {b : β} (h : s.lookup a = some b) :
    f b ≤ total f s := by
  have h' := total_erase f s a
  rw [h] at h'
  simp only [Option.elim_some] at h'
  omega

end AList
