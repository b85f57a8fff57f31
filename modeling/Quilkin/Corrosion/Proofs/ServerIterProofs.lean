import Quilkin.Corrosion.ServerIter
import Quilkin.Corrosion.Proofs.PubSubProofs

/-!
# Proofs: the buffers of a server change

A slice is read as the list of its elements (`IterChange.items`), and `ic.take k` is its first `k`
elements; halving is taking the first half. `Fits j ic` says that the JSON of `[ic]` fits a
buffer. The loop of `next` returns the first of `ic`, `ic.halve`, `ic.halve.halve`, ... that fits
(`fit_eq`); the empty slice always fits, so the loop ends.

When every element fits a buffer on its own, the iterator ends, and its buffers carry nonempty
slices that together are the change, in order (`ServerIter.collect_of_fits`). When one element
does not, the slice starting at it halves down to the empty slice: `next` hands out the buffer
of the empty slice and stays where it was, for ever (`ServerIter.next_stuck_forever`).
-/

namespace Quilkin.Corrosion

variable {Up Rm Ud Mu : Type}

/-! ## Slices as lists -/

/-- The elements of a slice, each marked with its kind. -/
def IterChange.items : IterChange Up Rm Ud → List (Up ⊕ Rm ⊕ Ud)
  | .upsert up => up.map Sum.inl
  | .remove r => r.map fun x => .inr (.inl x)
  | .update u => u.map fun x => .inr (.inr x)

/-- The elements of a change, each marked with its kind; none for a change to the mutator. -/
def ServerChange.items : ServerChange Up Rm Ud Mu → List (Up ⊕ Rm ⊕ Ud)
  | .upsert up => up.map Sum.inl
  | .remove r => r.map fun x => .inr (.inl x)
  | .update u => u.map fun x => .inr (.inr x)
  | .updateMutator _ => []

/-- The first `k` elements of a slice. -/
def IterChange.take (k : Nat) : IterChange Up Rm Ud → IterChange Up Rm Ud
  | .upsert up => .upsert (up.take k)
  | .remove r => .remove (r.take k)
  | .update u => .update (u.take k)

namespace IterChange

variable (ic : IterChange Up Rm Ud)

theorem len_eq_length_items : ic.len = ic.items.length := by
  cases ic <;> simp [len, items]

@[simp] theorem items_take (k : Nat) : (ic.take k).items = ic.items.take k := by
  cases ic <;> simp [take, items, List.map_take]

theorem len_take (k : Nat) : (ic.take k).len = min k ic.len := by
  rw [len_eq_length_items, len_eq_length_items, items_take, List.length_take]

theorem take_take (k m : Nat) : (ic.take k).take m = ic.take (min m k) := by
  cases ic <;> simp [take, List.take_take]

theorem take_len : ic.take ic.len = ic := by
  cases ic <;> simp [take, len]

theorem halve_eq_take : ic.halve = ic.take (ic.len / 2) := by
  cases ic <;> rfl

theorem len_halve : ic.halve.len = ic.len / 2 := by
  rw [halve_eq_take, len_take]
  omega

/-- A slice starts at the element it is made at, and holds at least that one. -/
theorem items_new {sc : ServerChange Up Rm Ud Mu} {index : Nat} {ic : IterChange Up Rm Ud}
    (h : new sc index = some ic) : ic.items = sc.items.drop index ∧ 0 < ic.len := by
  cases sc
  case updateMutator => simp [new] at h
  all_goals
    simp only [new] at h
    split_ifs at h with hlt
    cases h
    exact ⟨by simp [items, ServerChange.items, List.map_drop], by simp [len]; omega⟩

/-- No slice is made past the last element. -/
theorem new_eq_none_iff {sc : ServerChange Up Rm Ud Mu} {index : Nat} :
    new sc index = none ↔ sc.items.length ≤ index := by
  cases sc
  case updateMutator => simp [new, ServerChange.items]
  all_goals
    simp only [new, ServerChange.items, List.length_map]
    split_ifs with hlt <;> simp <;> omega

end IterChange

/-! ## The JSON of a slice -/

/-- The JSON of `[ic]` fits a buffer. -/
def Fits (j : ElementJson Up Rm Ud) (ic : IterChange Up Rm Ud) : Prop :=
  (jsonArray [ic.toJson j]).length ≤ 65535

theorem length_jsonArray_singleton (x : List UInt8) : (jsonArray [x]).length = x.length + 2 := by
  simp [jsonArray]

theorem length_jsonArray_singleton_le (x : List UInt8) (xs : List (List UInt8)) :
    (jsonArray [x]).length ≤ (jsonArray (x :: xs)).length := by
  cases xs with
  | nil => exact Nat.le_refl _
  | cons y ys =>
    simp only [jsonArray, List.intercalate_cons_cons, List.intercalate_singleton,
      List.length_append]
    omega

theorem length_jsonTagged (tag : String) (content : List UInt8) :
    (jsonTagged tag content).length = (jsonTagged tag []).length + content.length := by
  simp only [jsonTagged, List.length_append, List.append_nil]
  omega

/-- The first element of a slice alone takes no more JSON than a longer prefix. -/
theorem length_jsonTagged_take_one_le {α : Type} (tag : String) (f : α → List UInt8)
    (c : List α) {k : Nat} (hk : 0 < k) :
    (jsonTagged tag (jsonArray ((c.take 1).map f))).length ≤
      (jsonTagged tag (jsonArray ((c.take k).map f))).length := by
  obtain ⟨k, rfl⟩ : ∃ m, k = m + 1 := ⟨k - 1, by omega⟩
  rw [length_jsonTagged, length_jsonTagged tag (jsonArray ((c.take (k + 1)).map f))]
  cases c with
  | nil => exact Nat.le_refl _
  | cons x rest =>
    simp only [List.take_succ_cons, List.take_zero, List.map_cons, List.map_nil]
    exact Nat.add_le_add_left (length_jsonArray_singleton_le _ _) _

theorem fits_take_one {j : ElementJson Up Rm Ud} {ic : IterChange Up Rm Ud} {k : Nat} (hk : 0 < k)
    (h : Fits j (ic.take k)) : Fits j (ic.take 1) := by
  have hle : ((ic.take 1).toJson j).length ≤ ((ic.take k).toJson j).length := by
    cases ic <;> exact length_jsonTagged_take_one_le _ _ _ hk
  unfold Fits at h ⊢
  rw [length_jsonArray_singleton] at h ⊢
  omega

/-- The empty slice fits. -/
theorem fits_of_len_eq_zero {j : ElementJson Up Rm Ud} {ic : IterChange Up Rm Ud}
    (h : ic.len = 0) : Fits j ic := by
  cases ic <;> simp only [IterChange.len, List.length_eq_zero_iff] at h <;> subst h <;>
    simp only [Fits, IterChange.toJson, List.map_nil] <;> decide

/-! ## The loop of `next` -/

theorem writeLengthPrefixedJson_of_le {json : List UInt8} (h : json.length ≤ 65535) :
    writeLengthPrefixedJson json = some (.ok (framed json)) := by
  rw [writeLengthPrefixedJson, updateLengthPrefix_of_le h]
  rfl

theorem writeLengthPrefixedJson_of_gt {json : List UInt8} (h : 65535 < json.length) :
    writeLengthPrefixedJson json = some (.error "serialized JSON was > 64k") := by
  rw [writeLengthPrefixedJson, updateLengthPrefix_of_gt h]
  rfl

namespace ServerIter

variable {j : ElementJson Up Rm Ud}

theorem fit_of_fits {ic : IterChange Up Rm Ud} (h : Fits j ic) :
    fit j ic = some (framed (jsonArray [ic.toJson j]), ic) := by
  rw [fit, writeLengthPrefixedJson_of_le h]

theorem fit_of_not_fits {ic : IterChange Up Rm Ud} (h : ¬ Fits j ic) (hlen : ic.len ≠ 0) :
    fit j ic = fit j ic.halve := by
  rw [fit, writeLengthPrefixedJson_of_gt (Nat.lt_of_not_le h)]
  exact dif_neg hlen

/-- The loop returns the first prefix on the way down by halves that fits; it is not empty when
the slice is not and its first element fits alone. -/
theorem fit_eq (ic : IterChange Up Rm Ud) :
    ∃ k ≤ ic.len, fit j ic = some (framed (jsonArray [(ic.take k).toJson j]), ic.take k) ∧
      Fits j (ic.take k) ∧ (0 < ic.len → Fits j (ic.take 1) → 0 < k) := by
  -- induction on the length, which halving brings down
  induction hn : ic.len using Nat.strong_induction_on generalizing ic with
  | _ n ih =>
    subst hn
    by_cases hfit : Fits j ic
    · refine ⟨ic.len, Nat.le_refl _, ?_, ?_, fun hpos _ => hpos⟩ <;> rw [ic.take_len]
      · exact fit_of_fits hfit
      · exact hfit
    · have hlen : ic.len ≠ 0 := fun h0 => hfit (fits_of_len_eq_zero h0)
      obtain ⟨k, hk, hhalf, hfits, hpos⟩ :=
        ih ic.halve.len (by rw [ic.len_halve]; omega) ic.halve rfl
      have htake : ic.halve.take k = ic.take k := by
        rw [ic.halve_eq_take, ic.take_take, Nat.min_eq_left (by rw [← ic.len_halve]; exact hk)]
      refine ⟨k, by rw [ic.len_halve] at hk; omega, ?_, htake ▸ hfits, ?_⟩
      · rw [fit_of_not_fits hfit hlen, hhalf, htake]
      · intro _ hone
        by_cases hhalf0 : ic.len / 2 = 0
        · -- a slice of one element that does not fit, though its first element does
          have hone' : ic.take 1 = ic := by
            rw [show 1 = ic.len by omega, ic.take_len]
          exact absurd (hone' ▸ hone) hfit
        · have hone'' : Fits j (ic.halve.take 1) := by
            rw [ic.halve_eq_take, ic.take_take, Nat.min_eq_left (by omega)]
            exact hone
          exact hpos (by rw [ic.len_halve]; omega) hone''

/-- A slice whose first element does not fit alone comes down to the empty slice. -/
theorem fit_of_not_fits_take_one {ic : IterChange Up Rm Ud} (h : ¬ Fits j (ic.take 1)) :
    fit j ic = some (framed (jsonArray [(ic.take 0).toJson j]), ic.take 0) := by
  obtain ⟨k, -, hfit, hfits, -⟩ := fit_eq (j := j) ic
  have hk : k = 0 := by
    by_contra hk
    exact h (fits_take_one (Nat.pos_of_ne_zero hk) hfits)
  rw [hk] at hfit
  exact hfit

/-! ## `next` and the iteration -/

variable {it : ServerIter Up Rm Ud Mu}

theorem next_of_new_eq_none (h : IterChange.new it.changes it.index = none) :
    it.next j = some none := by
  rw [next, h]

theorem next_of_new_eq_some {ic : IterChange Up Rm Ud}
    (h : IterChange.new it.changes it.index = some ic) :
    ∃ k ≤ ic.len, it.next j = some (some (framed (jsonArray [(ic.take k).toJson j]),
        { it with index := it.index + k })) ∧
      Fits j (ic.take k) ∧ (Fits j (ic.take 1) → 0 < k) := by
  obtain ⟨k, hk, hfit, hfits, hpos⟩ := fit_eq (j := j) ic
  have hlen : (ic.take k).len = k := by
    rw [ic.len_take]
    omega
  refine ⟨k, hk, ?_, hfits, hpos (IterChange.items_new h).2⟩
  rw [next, h]
  simp only [hfit, Option.map_some, hlen]

/-- An iterator that hands out a buffer and stays where it is never ends. -/
theorem collect_of_next_eq_self {buf : List UInt8} (h : it.next j = some (some (buf, it))) :
    ∀ fuel, it.collect j fuel = none
  | 0 => rfl
  | fuel + 1 => by
    rw [collect, h]
    simp only [collect_of_next_eq_self h fuel, Option.map_none]

/-- Where every element fits a buffer alone, the iteration ends after at most one call for each
element left and one more, and its buffers hold nonempty slices that fit and, laid end to end, are
the elements left, in order. -/
theorem collect_of_fits {sc : ServerChange Up Rm Ud Mu}
    (hsc : ∀ index ic, IterChange.new sc index = some ic → Fits j (ic.take 1)) :
    ∀ (fuel : Nat) (it : ServerIter Up Rm Ud Mu), it.changes = sc →
      sc.items.length - it.index < fuel →
      ∃ chunks : List (IterChange Up Rm Ud),
        it.collect j fuel = some (chunks.map fun ic => framed (jsonArray [ic.toJson j])) ∧
        chunks.flatMap IterChange.items = sc.items.drop it.index ∧
        ∀ ic ∈ chunks, 0 < ic.len ∧ Fits j ic
  | 0, _, _, hfuel => absurd hfuel (Nat.not_lt_zero _)
  | fuel + 1, it, hit, hfuel => by
    subst hit
    rcases Option.eq_none_or_eq_some (IterChange.new it.changes it.index) with hnew | ⟨ic, hnew⟩
    · -- every element is sent
      refine ⟨[], ?_, ?_, by simp⟩
      · rw [collect, next_of_new_eq_none hnew]
        rfl
      · rw [List.flatMap_nil, List.drop_eq_nil_of_le (IterChange.new_eq_none_iff.mp hnew)]
    · obtain ⟨hitems, hpos⟩ := IterChange.items_new hnew
      obtain ⟨k, hk, hnext, hfits, hk0⟩ := next_of_new_eq_some (j := j) hnew
      have hk0 := hk0 (hsc _ _ hnew)
      have hlen : ic.len ≤ it.changes.items.length - it.index := by
        rw [ic.len_eq_length_items, hitems, List.length_drop]
      obtain ⟨chunks, hcollect, hflat, hall⟩ :=
        collect_of_fits hsc fuel { it with index := it.index + k } rfl (by dsimp only; omega)
      refine ⟨ic.take k :: chunks, ?_, ?_, ?_⟩
      · rw [collect, hnext]
        simp only [hcollect, Option.map_some, List.map_cons]
      · -- the slice sent, then what the rest of the iteration sends
        rw [List.flatMap_cons, hflat, IterChange.items_take, hitems]
        dsimp only
        rw [← List.drop_drop, List.take_append_drop]
      · intro c hc
        rcases List.mem_cons.mp hc with rfl | hc
        · exact ⟨by rw [ic.len_take]; omega, hfits⟩
        · exact hall c hc

/-- A slice whose first element does not fit a buffer alone halves down to the empty slice, which
fits: `next` hands out the buffer of the empty slice and stays where it is, so the iteration never
ends. An upsert of one server whose JSON does not fit alone is such a change from the start, and
its buffer is `[{"ty":"up","c":[]}]` for ever. -/
theorem next_stuck_forever :
    (∀ (j : ElementJson Up Rm Ud) (it : ServerIter Up Rm Ud Mu) (ic : IterChange Up Rm Ud),
        IterChange.new it.changes it.index = some ic → ¬ Fits j (ic.take 1) →
          it.next j = some (some (framed (jsonArray [(ic.take 0).toJson j]), it)) ∧
            (ic.take 0).len = 0 ∧ ∀ fuel, it.collect j fuel = none) ∧
      ∀ (j : ElementJson Up Rm Ud) (x : Up),
        65535 < (jsonArray [(IterChange.upsert [x] : IterChange Up Rm Ud).toJson j]).length →
          ServerIter.new (.upsert [x] : ServerChange Up Rm Ud Mu) = .ok ⟨.upsert [x], 0⟩ ∧
          ∀ fuel, (⟨.upsert [x], 0⟩ : ServerIter Up Rm Ud Mu).next j =
              some (some (framed (jsonArray [jsonTagged "up" (jsonArray [])]), ⟨.upsert [x], 0⟩)) ∧
            (⟨.upsert [x], 0⟩ : ServerIter Up Rm Ud Mu).collect j fuel = none := by
  have hstuck : ∀ (j : ElementJson Up Rm Ud) (it : ServerIter Up Rm Ud Mu)
      (ic : IterChange Up Rm Ud), IterChange.new it.changes it.index = some ic →
        ¬ Fits j (ic.take 1) →
        it.next j = some (some (framed (jsonArray [(ic.take 0).toJson j]), it)) := by
    intro j it ic hnew hfit
    have hlen : (ic.take 0).len = 0 := by rw [ic.len_take]; omega
    rw [next, hnew]
    simp only [fit_of_not_fits_take_one hfit, Option.map_some, hlen, Nat.add_zero]
  refine ⟨fun j it ic hnew hfit => ⟨hstuck j it ic hnew hfit, by rw [ic.len_take]; omega,
    collect_of_next_eq_self (hstuck j it ic hnew hfit)⟩, ?_⟩
  intro j x hlong
  have hnew : IterChange.new (ServerIter.mk (.upsert [x] : ServerChange Up Rm Ud Mu) 0).changes
      (ServerIter.mk (.upsert [x] : ServerChange Up Rm Ud Mu) 0).index = some (.upsert [x]) := rfl
  have hnext := hstuck j _ _ hnew (Nat.not_le_of_lt hlong)
  refine ⟨rfl, fun fuel => ⟨hnext, collect_of_next_eq_self hnext fuel⟩⟩

end ServerIter

end Quilkin.Corrosion
