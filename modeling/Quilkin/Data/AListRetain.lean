import Mathlib.Data.List.AList

/-!
# Keeping the entries of an association list that satisfy a predicate

`retain`, the filter of an association list by a predicate on its keys and values: a lookup after
it finds what the lookup before it found, when that satisfies the predicate, and the list is left
as it was when every entry does.
-/

namespace AList

variable {α : Type} {β : α → Type}

/-- The entries that satisfy `p`, in their order. -/
def retain (p : (a : α) → β a → Bool) (s : AList β) : AList β :=
  ⟨s.entries.filter fun e => p e.1 e.2, s.nodupKeys.sublist List.filter_sublist⟩

/-- On a list with distinct keys, the first entry of a key that satisfies `p` is its only one. -/
theorem dlookup_filter [DecidableEq α] (p : (a : α) → β a → Bool) (a : α) :
    ∀ {l : List (Sigma β)}, l.NodupKeys →
      (l.filter fun e => p e.1 e.2).dlookup a = (l.dlookup a).filter (p a)
  | [], _ => rfl
  | ⟨a', b'⟩ :: l, hnd => by
    obtain ⟨hnotin, hnd'⟩ := List.nodupKeys_cons.mp hnd
    by_cases ha : a = a'
    · subst ha
      rw [List.dlookup_cons_eq]
      by_cases hp : p a b' = true
      · simp only [List.filter_cons, hp, if_true, List.dlookup_cons_eq, Option.filter_some]
      · -- the key is not found further on, where it does not occur
        simp only [List.filter_cons, hp, Bool.false_eq_true, if_false, dlookup_filter p a hnd',
          List.dlookup_eq_none.mpr hnotin, Option.filter_none, Option.filter_some]
    · rw [List.dlookup_cons_ne _ _ ha]
      by_cases hp : p a' b' = true
      · simp only [List.filter_cons, hp, if_true, List.dlookup_cons_ne _ ⟨a', b'⟩ ha,
          dlookup_filter p a hnd']
      · simp only [List.filter_cons, hp, Bool.false_eq_true, if_false, dlookup_filter p a hnd']

@[simp] theorem lookup_retain [DecidableEq α] (p : (a : α) → β a → Bool) (s : AList β) (a : α) :
    (s.retain p).lookup a = (s.lookup a).filter (p a) :=
  dlookup_filter p a s.nodupKeys

theorem retain_of_forall {p : (a : α) → β a → Bool} {s : AList β}
    (h : ∀ e ∈ s.entries, p e.1 e.2 = true) : s.retain p = s :=
  ext (List.filter_eq_self.mpr h)

end AList
