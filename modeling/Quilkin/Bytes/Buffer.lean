import Mathlib.Data.List.Basic

/-!
# Fixed-size buffers as lists

A byte buffer of fixed size is a list whose length never changes; the writes a systems program
makes into it are all of one shape, a window starting at some offset replaced by a list of the
same length:

* `overwrite l off src` is `l[off..off + src.len()].copy_from_slice(src)` (and
  `ptr::copy_nonoverlapping` from a separate source);
* `copyWithin l src dst n` is `ptr::copy` (`memmove`) inside one buffer, which reads the whole
  source window before writing, so overlapping windows are allowed;
* `fillFrom l off v` is `l[off..].fill(v)`;
* `chunksExact l n` is `l.chunks_exact(n)`, the pieces of length `n` in order.

The lemmas say what a reader of the buffer sees afterwards: the length is unchanged, the part
before the window is unchanged (`take_overwrite_left`), the window holds the source
(`take_overwrite`), and the part after it is unchanged (`drop_overwrite`).
-/

namespace Buffer

variable {α : Type}

/-- The window of `l` starting at `off` replaced by `src`. -/
def overwrite (l : List α) (off : Nat) (src : List α) : List α :=
  l.take off ++ src ++ l.drop (off + src.length)

/-- `memmove` of `n` elements from offset `src` to offset `dst` within `l`. -/
def copyWithin (l : List α) (src dst n : Nat) : List α :=
  overwrite l dst ((l.drop src).take n)

/-- Every element from offset `off` on replaced by `v`. -/
def fillFrom (l : List α) (off : Nat) (v : α) : List α :=
  l.take off ++ List.replicate (l.length - off) v

section Overwrite

variable {l src : List α} {off : Nat}

theorem length_overwrite (h : off + src.length ≤ l.length) :
    (overwrite l off src).length = l.length := by
  simp only [overwrite, List.length_append, List.length_take, List.length_drop]
  omega

/-- The window holds the source, after the untouched prefix. -/
theorem take_overwrite (h : off ≤ l.length) :
    (overwrite l off src).take (off + src.length) = l.take off ++ src := by
  have hlen : (l.take off ++ src).length = off + src.length := by
    simp only [List.length_append, List.length_take]
    omega
  rw [overwrite, List.take_left' hlen]

/-- The prefix before the window is untouched. -/
theorem take_overwrite_left (h : off ≤ l.length) :
    (overwrite l off src).take off = l.take off := by
  have hlen : (l.take off).length = off := by simp [h]
  rw [overwrite, List.append_assoc, List.take_left' hlen]

/-- The suffix after the window is untouched. -/
theorem drop_overwrite (h : off ≤ l.length) :
    (overwrite l off src).drop (off + src.length) = l.drop (off + src.length) := by
  have hlen : (l.take off ++ src).length = off + src.length := by
    simp only [List.length_append, List.length_take]
    omega
  rw [overwrite, List.drop_left' hlen]

/-- A prefix that ends before the window is untouched. -/
theorem take_overwrite_of_le {m : Nat} (h : m ≤ off) (hoff : off ≤ l.length) :
    (overwrite l off src).take m = l.take m := by
  rw [← Nat.min_eq_left h, ← List.take_take, take_overwrite_left hoff, List.take_take]

/-- A suffix that starts after the window is untouched. -/
theorem drop_overwrite_of_le {m : Nat} (h : off + src.length ≤ m) (hoff : off ≤ l.length) :
    (overwrite l off src).drop m = l.drop m := by
  obtain ⟨d, rfl⟩ := Nat.exists_eq_add_of_le h
  rw [← List.drop_drop, drop_overwrite hoff, List.drop_drop]

/-- From the start of the window on: the source, then the rest of the list. -/
theorem drop_overwrite_self (hoff : off ≤ l.length) :
    (overwrite l off src).drop off = src ++ l.drop (off + src.length) := by
  have hlen : (l.take off).length = off := by simp [hoff]
  rw [overwrite, List.append_assoc, List.drop_left' hlen]

@[simp] theorem overwrite_nil (l : List α) (off : Nat) : overwrite l off [] = l := by
  simp [overwrite]

/-- A single store `l[i] = v` is the overwrite of a one-element window. -/
theorem set_eq_overwrite {i : Nat} (v : α) (h : i < l.length) :
    l.set i v = overwrite l i [v] := by
  rw [List.set_eq_take_append_cons_drop, if_pos h, overwrite]
  simp

theorem length_copyWithin {src dst n : Nat} (h : dst + n ≤ l.length) :
    (copyWithin l src dst n).length = l.length := by
  apply length_overwrite
  simp only [List.length_take, List.length_drop]
  omega

/-- Moving everything from `off + n` on down to `off`, then cutting the last `n` elements, removes
the window `off..off + n`: a removal from the front of a window that ends the buffer. -/
theorem take_copyWithin_down {n : Nat} (h : off + n ≤ l.length) :
    (copyWithin l (off + n) off (l.length - (off + n))).take (l.length - n) =
      l.take off ++ l.drop (off + n) := by
  have hsrc : (l.drop (off + n)).take (l.length - (off + n)) = l.drop (off + n) :=
    List.take_of_length_le (by simp)
  have hlen : (l.take off ++ l.drop (off + n)).length = l.length - n := by
    simp only [List.length_append, List.length_take, List.length_drop]
    omega
  rw [copyWithin, overwrite, hsrc, List.take_left' hlen]

end Overwrite

/-- The first pieces of length `n` of `l`, at most `fuel` of them; a last piece shorter than `n`
is dropped. -/
def chunksOf (n : Nat) : Nat → List α → List (List α)
  | 0, _ => []
  | fuel + 1, l => if n ≤ l.length then l.take n :: chunksOf n fuel (l.drop n) else []

/-- `chunks_exact(n)`: the consecutive pieces of length `n`, the remainder dropped; `none` for
`n = 0`, where it panics. -/
def chunksExact (l : List α) (n : Nat) : Option (List (List α)) :=
  if n = 0 then none else some (chunksOf n l.length l)

/-- Pieces of one length, laid end to end, are cut apart again. -/
theorem chunksOf_flatten {n fuel : Nat} {ls : List (List α)} (hn : 0 < n)
    (hlen : ∀ c ∈ ls, c.length = n) (hfuel : ls.length ≤ fuel) :
    chunksOf n fuel ls.flatten = ls := by
  induction ls generalizing fuel with
  | nil =>
    cases fuel with
    | zero => rfl
    | succ fuel =>
      have hlt : ¬ n ≤ ([] : List α).length := by simp; omega
      simp only [List.flatten_nil, chunksOf, if_neg hlt]
  | cons c ls ih =>
    obtain ⟨fuel, rfl⟩ : ∃ f, fuel = f + 1 := ⟨fuel - 1, by simp at hfuel; omega⟩
    have hc : c.length = n := hlen c List.mem_cons_self
    have hle : n ≤ (c ++ ls.flatten).length := by simp [hc]
    have htail : chunksOf n fuel ls.flatten = ls :=
      ih (fun d hd => hlen d (List.mem_cons_of_mem c hd)) (by simpa using hfuel)
    rw [List.flatten_cons, chunksOf, if_pos hle, List.take_left' hc, List.drop_left' hc, htail]

/-- Pieces of one length laid end to end take that length times their number. -/
theorem length_flatten_of_length_eq {n : Nat} {ls : List (List α)}
    (hlen : ∀ c ∈ ls, c.length = n) : ls.flatten.length = ls.length * n := by
  have hmap : ls.map List.length = ls.map fun _ => n := List.map_congr_left hlen
  rw [List.length_flatten, hmap, List.map_const', List.sum_replicate_nat]

theorem chunksExact_flatten {n : Nat} {ls : List (List α)} (hn : 0 < n)
    (hlen : ∀ c ∈ ls, c.length = n) :
    chunksExact ls.flatten n = some ls := by
  have hfuel : ls.length ≤ ls.flatten.length := by
    rw [length_flatten_of_length_eq hlen]
    exact Nat.le_mul_of_pos_right _ hn
  rw [chunksExact, if_neg (Nat.pos_iff_ne_zero.mp hn), chunksOf_flatten hn hlen hfuel]

/-- `chunks_exact` panics on the piece length zero and on no other. -/
theorem chunksExact_eq_none_iff {l : List α} {n : Nat} : chunksExact l n = none ↔ n = 0 := by
  unfold chunksExact
  by_cases hn : n = 0
  · simp [hn]
  · simp [hn]

end Buffer
