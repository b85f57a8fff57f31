import Mathlib.Data.List.Basic

/-!
# Finite sets as strictly increasing lists

The representation of an ordered set such as Rust's `BTreeSet`: the elements in increasing order,
each once. Iterating the set is walking the list, so code that depends on the iteration order
(the first element, an encoding written element by element) is modelled exactly.

The order is any strict total one, given by the classes `Std.Irrefl`, `Trans` and
`Std.Trichotomous` on `<`; the lexicographic order of byte strings is one.

Two sets with the same members are equal (`ext`), so every statement about what a set holds is
proved through `mem_insert` and `mem_ofList` and never through the shape of the list.
-/

/-- A finite set, as its elements in strictly increasing order. -/
structure SortedSet (α : Type) [LT α] where
  /-- The elements, in increasing order. -/
  toList : List α
  sorted : toList.Pairwise (· < ·)

namespace SortedSet

set_option linter.unusedSectionVars false

variable {α : Type} [LT α] [DecidableRel (α := α) (· < ·)]
variable [Std.Irrefl (α := α) (· < ·)] [Trans (α := α) (· < ·) (· < ·) (· < ·)]
variable [Std.Trichotomous (α := α) (· < ·)]

/-- Ordered insertion into an increasing list; an element already present is not added again. -/
def insertList (a : α) : List α → List α
  | [] => [a]
  | b :: l => if a < b then a :: b :: l else if b < a then b :: insertList a l else b :: l

/-- The empty set. -/
def empty : SortedSet α := ⟨[], .nil⟩

instance : Membership α (SortedSet α) := ⟨fun s a => a ∈ s.toList⟩

instance (a : α) (s : SortedSet α) [DecidableEq α] : Decidable (a ∈ s) :=
  inferInstanceAs (Decidable (a ∈ s.toList))

/-- The number of elements, `len()`. -/
def card (s : SortedSet α) : Nat := s.toList.length

theorem toList_inj {s t : SortedSet α} : s.toList = t.toList ↔ s = t := by
  obtain ⟨l₁, h₁⟩ := s
  obtain ⟨l₂, h₂⟩ := t
  constructor
  · intro h
    subst h
    rfl
  · intro h
    rw [h]

instance [DecidableEq α] : DecidableEq (SortedSet α) := fun _ _ =>
  decidable_of_iff _ toList_inj

/-- Each element is listed once. -/
theorem nodup_toList (s : SortedSet α) : s.toList.Nodup := by
  refine s.sorted.imp ?_
  intro a b hlt heq
  subst heq
  exact Std.Irrefl.irrefl a hlt

theorem mem_insertList {a x : α} {l : List α} : x ∈ insertList a l ↔ x = a ∨ x ∈ l := by
  induction l with
  | nil => simp [insertList]
  | cons b l ih =>
    simp only [insertList]
    split_ifs with hab hba
    · simp
    · simp only [List.mem_cons, ih]
      tauto
    · have heq : a = b := Std.Trichotomous.trichotomous a b hab hba
      subst heq
      simp

theorem pairwise_insertList {a : α} {l : List α} (h : l.Pairwise (· < ·)) :
    (insertList a l).Pairwise (· < ·) := by
  induction l with
  | nil => simp [insertList]
  | cons b l ih =>
    rw [List.pairwise_cons] at h
    simp only [insertList]
    split_ifs with hab hba
    · refine List.pairwise_cons.mpr ⟨?_, List.pairwise_cons.mpr h⟩
      intro x hx
      rcases List.mem_cons.mp hx with rfl | hx
      · exact hab
      · exact Trans.trans hab (h.1 x hx)
    · refine List.pairwise_cons.mpr ⟨?_, ih h.2⟩
      intro x hx
      rcases mem_insertList.mp hx with rfl | hx
      · exact hba
      · exact h.1 x hx
    · exact List.pairwise_cons.mpr h

/-- `insert`: add an element, keeping the order. -/
def insert (a : α) (s : SortedSet α) : SortedSet α :=
  ⟨insertList a s.toList, pairwise_insertList s.sorted⟩

/-- `from_iter`: the set of the elements of a list, inserted one by one. -/
def ofList (l : List α) : SortedSet α := l.foldl (fun s a => s.insert a) empty

@[simp] theorem not_mem_empty (a : α) : a ∉ (empty : SortedSet α) :=
  List.not_mem_nil

@[simp] theorem mem_insert {a x : α} {s : SortedSet α} : x ∈ s.insert a ↔ x = a ∨ x ∈ s :=
  mem_insertList

theorem mem_ofList {x : α} {l : List α} : x ∈ ofList l ↔ x ∈ l := by
  have h : ∀ (s : SortedSet α), x ∈ l.foldl (fun s a => s.insert a) s ↔ x ∈ s ∨ x ∈ l := by
    induction l with
    | nil => simp
    | cons a l ih =>
      intro s
      simp only [List.foldl_cons, ih, mem_insert, List.mem_cons]
      tauto
  rw [ofList]
  simpa using h empty

/-- Two strictly increasing lists with the same members are equal. -/
theorem eq_of_mem_iff {l₁ l₂ : List α} (h₁ : l₁.Pairwise (· < ·)) (h₂ : l₂.Pairwise (· < ·))
    (h : ∀ x, x ∈ l₁ ↔ x ∈ l₂) : l₁ = l₂ := by
  induction l₁ generalizing l₂ with
  | nil =>
    cases l₂ with
    | nil => rfl
    | cons b l₂ => exact absurd ((h b).mpr (List.mem_cons_self ..)) (List.not_mem_nil)
  | cons a l₁ ih =>
    cases l₂ with
    | nil => exact absurd ((h a).mp (List.mem_cons_self ..)) (List.not_mem_nil)
    | cons b l₂ =>
      rw [List.pairwise_cons] at h₁ h₂
      -- Both heads are the least element, so they agree; then the tails have the same members.
      have hab : a = b := by
        refine Std.Trichotomous.trichotomous (r := (· < ·)) a b ?_ ?_
        · intro hlt
          rcases List.mem_cons.mp ((h a).mp (List.mem_cons_self ..)) with hb | hb
          · exact Std.Irrefl.irrefl b (hb ▸ hlt)
          · exact Std.Irrefl.irrefl a (Trans.trans hlt (h₂.1 a hb))
        · intro hlt
          rcases List.mem_cons.mp ((h b).mpr (List.mem_cons_self ..)) with ha | ha
          · exact Std.Irrefl.irrefl a (ha ▸ hlt)
          · exact Std.Irrefl.irrefl b (Trans.trans hlt (h₁.1 b ha))
      subst hab
      congr 1
      apply ih h₁.2 h₂.2
      intro x
      constructor
      · intro hx
        rcases List.mem_cons.mp ((h x).mp (List.mem_cons_of_mem _ hx)) with rfl | hx'
        · exact absurd (h₁.1 x hx) (Std.Irrefl.irrefl x)
        · exact hx'
      · intro hx
        rcases List.mem_cons.mp ((h x).mpr (List.mem_cons_of_mem _ hx)) with rfl | hx'
        · exact absurd (h₂.1 x hx) (Std.Irrefl.irrefl x)
        · exact hx'

/-- Sets are determined by their members. -/
theorem ext {s t : SortedSet α} (h : ∀ x, x ∈ s ↔ x ∈ t) : s = t := by
  obtain ⟨l₁, h₁⟩ := s
  obtain ⟨l₂, h₂⟩ := t
  have hl : l₁ = l₂ := eq_of_mem_iff h₁ h₂ h
  subst hl
  rfl

theorem ofList_toList (s : SortedSet α) : ofList s.toList = s :=
  ext fun _ => mem_ofList

end SortedSet
