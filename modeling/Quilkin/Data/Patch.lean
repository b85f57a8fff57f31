import Mathlib.Logic.Function.Basic
import Mathlib.Data.List.Basic

/-!
# Patches of maps

A map seen as a function to `Option`, and a patch of it: a list of keys to delete and then a list
of pairs to write, applied one statement after the other as a replicated store applies a batch.
A deleted key is absent unless a pair writes it again; a written key holds its pair's value when
the written keys are distinct; any other key keeps its value.
-/

namespace Patch

variable {α β : Type} [DecidableEq α]

/-- Deleting the keys one after the other. -/
def deleteAll (f : α → Option β) (keys : List α) : α → Option β :=
  keys.foldl (fun g a => Function.update g a none) f

/-- Writing the pairs one after the other. -/
def writeAll (f : α → Option β) (pairs : List (α × β)) : α → Option β :=
  pairs.foldl (fun g p => Function.update g p.1 (some p.2)) f

/-- The deletions, then the writes. -/
def apply (f : α → Option β) (removed : List α) (upserted : List (α × β)) : α → Option β :=
  writeAll (deleteAll f removed) upserted

theorem deleteAll_apply (f : α → Option β) (keys : List α) (a : α) :
    deleteAll f keys a = if a ∈ keys then none else f a := by
  induction keys generalizing f with
  | nil => simp [deleteAll]
  | cons k keys ih =>
    unfold deleteAll at ih ⊢
    rw [List.foldl_cons, ih]
    by_cases hk : a = k
    · subst hk
      simp
    · rw [Function.update_of_ne hk]
      simp [hk]

/-- A key no pair writes keeps its value. -/
theorem writeAll_of_forall_ne {pairs : List (α × β)} {a : α} (h : ∀ p ∈ pairs, p.1 ≠ a)
    (f : α → Option β) : writeAll f pairs a = f a := by
  induction pairs generalizing f with
  | nil => rfl
  | cons p pairs ih =>
    unfold writeAll at ih ⊢
    rw [List.foldl_cons, ih (fun q hq => h q (List.mem_cons_of_mem p hq)),
      Function.update_of_ne (h p List.mem_cons_self).symm]

/-- A written key holds its value when every pair that writes it writes that value. -/
theorem writeAll_of_mem {pairs : List (α × β)} {a : α} {b : β} (h : (a, b) ∈ pairs)
    (hu : ∀ b', (a, b') ∈ pairs → b' = b) (f : α → Option β) : writeAll f pairs a = some b := by
  induction pairs generalizing f with
  | nil => exact absurd h List.not_mem_nil
  | cons p pairs ih =>
    unfold writeAll at ih ⊢
    rw [List.foldl_cons]
    by_cases hrest : (a, b) ∈ pairs
    · exact ih hrest (fun b' hb' => hu b' (List.mem_cons_of_mem p hb')) _
    -- otherwise the head is the one pair that writes `a`
    have hp : p = (a, b) := ((List.mem_cons.mp h).resolve_right hrest).symm
    have hne : ∀ q ∈ pairs, q.1 ≠ a := by
      rintro ⟨a', b'⟩ hq rfl
      have hb : b' = b := hu b' (List.mem_cons_of_mem p hq)
      subst hb
      exact hrest hq
    subst hp
    exact (writeAll_of_forall_ne hne _).trans (Function.update_self _ _ _)

end Patch
