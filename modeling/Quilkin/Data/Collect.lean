import Mathlib.Data.List.AList

/-!
# Sorting stably and collecting into a map

A stable sort keeps the relative order of the elements its order ranks alike
(`List.filter_mergeSort_eq_filter`), and inserting the entries of a list into a map in turn
leaves at each key the value of the last entry with that key (`AList.lookup_foldl_insert`).
Together they say what survives of a list that is sorted by a key and then collected into a map
by the same key: at every key, the last element of the original list with it.
-/

namespace List

variable {α : Type} {le : α → α → Bool}

/-- Stability of `mergeSort`: elements the order ranks alike come out in the order they went in. -/
theorem filter_mergeSort_eq_filter (trans : ∀ a b c, le a b → le b c → le a c)
    (total : ∀ a b, le a b || le b a) (p : α → Bool) (hp : ∀ a b, p a → p b → le a b)
    (l : List α) : (l.mergeSort le).filter p = l.filter p := by
  have hpair : (l.filter p).Pairwise fun a b => le a b := by
    apply pairwise_of_forall_mem_list
    intro a ha b hb
    exact hp a b (mem_filter.mp ha).2 (mem_filter.mp hb).2
  -- the class is a sublist of the sorted list, and as long as the class there
  have hsub : l.filter p <+ (l.mergeSort le).filter p := by
    have h := (sublist_mergeSort trans total hpair (filter_sublist (p := p))).filter p
    simpa only [filter_filter, Bool.and_self] using h
  have hlen : (l.filter p).length = ((l.mergeSort le).filter p).length :=
    (((mergeSort_perm l le).filter p).length_eq).symm
  exact (hsub.eq_of_length hlen).symm

end List

namespace AList

variable {κ β γ : Type} [DecidableEq κ]

/-- Inserting the entries of a list in turn leaves at each key the value of the last entry with
that key, and the value the map had where no entry has the key. -/
theorem lookup_foldl_insert (key : γ → κ) (val : γ → β) (l : List γ)
    (m : AList fun _ : κ => β) (k : κ) :
    (l.foldl (fun m e => m.insert (key e) (val e)) m).lookup k =
      ((l.filter fun e => key e = k).getLast?.map val).or (m.lookup k) := by
  induction l generalizing m with
  | nil => simp
  | cons e l ih =>
    rw [List.foldl_cons, ih]
    by_cases he : key e = k
    · rw [List.filter_cons_of_pos (by simpa using he), List.getLast?_cons]
      -- a later entry with the key wins over this one
      cases (l.filter fun e => key e = k).getLast? with
      | none => simp [he]
      | some x => rfl
    · rw [List.filter_cons_of_neg (by simpa using he)]
      cases (l.filter fun e => key e = k).getLast? with
      | none => simp [lookup_insert_ne (Ne.symm he)]
      | some x => rfl

end AList
