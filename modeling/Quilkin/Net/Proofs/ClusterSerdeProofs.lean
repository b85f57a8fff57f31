import Quilkin.Net.ClusterSerde
import Quilkin.Data.Collect

/-!
# Proofs: what a serialized cluster map is read as

The sort keeps the entries of each locality in the order they came in
(`sorted_filter_locality`), and the collection into a map keeps, at each locality, the last of
them (`ClusterMap.lookup_deserialize`). The check between neighbours compares whole entries, so
it refuses only a list in which two equal entries come to stand next to each other: a list of
distinct entries is always read (`ClusterMap.deserialize_of_nodup`), whatever localities they
share, and all but the last entry of each locality are dropped.
-/

namespace Quilkin.Net

open Corrosion (TokenSet)

instance : Std.TransCmp Locality.cmp := inferInstanceAs (Std.TransCmp (compareLex _ _))

instance : Std.TransOrd Locality := inferInstanceAs (Std.TransCmp Locality.cmp)

/-! ## The sort -/

section Order

variable (a b c : EndpointWithLocality)

theorem isLE_locality_trans : (compare a.locality b.locality).isLE →
    (compare b.locality c.locality).isLE → (compare a.locality c.locality).isLE :=
  Std.TransCmp.isLE_trans

theorem isLE_locality_total :
    ((compare a.locality b.locality).isLE || (compare b.locality a.locality).isLE) = true := by
  by_cases h : (compare a.locality b.locality).isLE
  · simp [h]
  · -- the other way round the comparison is `less`
    simp [Std.OrientedCmp.lt_of_not_isLE h]

end Order

/-- Sorting by locality keeps the entries of one locality in the order they came in. -/
theorem sorted_filter_locality (endpoints : List EndpointWithLocality) (k : Option Locality) :
    (endpoints.mergeSort fun a b => (compare a.locality b.locality).isLE).filter
        (fun e => e.locality = k) = endpoints.filter fun e => e.locality = k := by
  apply List.filter_mergeSort_eq_filter isLE_locality_trans isLE_locality_total
  intro a b ha hb
  rw [of_decide_eq_true ha, of_decide_eq_true hb]
  exact Std.ReflCmp.isLE_rfl

/-! ## The check between neighbours -/

/-- Two neighbours that are equal are two entries that are equal. -/
theorem ClusterMapDeser.not_nodup_of_anyWindowEq :
    ∀ {l : List EndpointWithLocality}, anyWindowEq l = true → ¬ l.Nodup
  | [], h, _ => by simp [anyWindowEq] at h
  | [_], h, _ => by simp [anyWindowEq] at h
  | a :: b :: rest, h, hnd => by
    rw [anyWindowEq, Bool.or_eq_true] at h
    rcases h with h | h
    · have hab : a = b := beq_iff_eq.mp h
      exact (List.nodup_cons.mp hnd).1 (hab ▸ List.mem_cons_self)
    · exact not_nodup_of_anyWindowEq h hnd.of_cons

/-! ## The map read -/

section Deserialize

variable {gx : GxHash}

/-- A cluster map that is read holds at each locality the endpoint set of the last entry of that
locality, and nothing at a locality no entry has. -/
theorem ClusterMap.lookup_deserialize {endpoints : List EndpointWithLocality} {m : ClusterMap}
    (h : deserialize gx endpoints = .ok m) (k : Option Locality) :
    m.map.lookup k =
      (endpoints.filter fun e => e.locality = k).getLast?.map (·.toEndpointSet gx) := by
  unfold deserialize ClusterMapDeser.deserialize at h
  dsimp only at h
  split_ifs at h with hwin
  · -- refused
    cases h
  · simp only [bind, Except.bind, pure, Except.pure, Except.ok.injEq] at h
    subst h
    dsimp only [ClusterMap.ofMap]
    rw [AList.lookup_foldl_insert, sorted_filter_locality, AList.lookup_empty, Option.or_none]

/-- A list of distinct entries is always read, whatever localities they share. -/
theorem ClusterMap.deserialize_of_nodup {endpoints : List EndpointWithLocality}
    (h : endpoints.Nodup) : ∃ m, deserialize gx endpoints = .ok m := by
  have hsorted : (endpoints.mergeSort fun a b => (compare a.locality b.locality).isLE).Nodup :=
    (List.mergeSort_perm _ _).nodup_iff.mpr h
  have hwin : ClusterMapDeser.anyWindowEq
      (endpoints.mergeSort fun a b => (compare a.locality b.locality).isLE) = false :=
    Bool.eq_false_iff.mpr fun hw => ClusterMapDeser.not_nodup_of_anyWindowEq hw hsorted
  unfold deserialize ClusterMapDeser.deserialize
  rw [if_neg (by simp [hwin])]
  exact ⟨_, rfl⟩

end Deserialize

/-- Entries that all have one locality are already sorted. -/
theorem mergeSort_of_locality_eq {endpoints : List EndpointWithLocality} {k : Option Locality}
    (h : ∀ e ∈ endpoints, e.locality = k) :
    (endpoints.mergeSort fun a b => (compare a.locality b.locality).isLE) = endpoints := by
  apply List.mergeSort_of_pairwise
  apply List.pairwise_of_forall_mem_list
  intro a ha b hb
  rw [h a ha, h b hb]
  exact Std.ReflCmp.isLE_rfl

/-- Two entries of one locality, with the endpoints `10.0.0.1:7000` and `10.0.0.2:7000`, are read
without an error, and the map holds only the second at that locality; with the first entry again
after them, the list is read too. In general every list that is read keeps at each locality only
the set of its last entry, and every list of distinct entries is read. -/
theorem ClusterMap.deserialize_merges_duplicates :
    (∀ (gx : GxHash) (endpoints : List EndpointWithLocality) (m : ClusterMap),
        deserialize gx endpoints = .ok m → ∀ k, m.map.lookup k =
          (endpoints.filter fun e => e.locality = k).getLast?.map (·.toEndpointSet gx)) ∧
      (∀ (gx : GxHash) (endpoints : List EndpointWithLocality), endpoints.Nodup →
        ∃ m, deserialize gx endpoints = .ok m) ∧
      let ep₁ : Endpoint := ⟨⟨.ip (.v4 ⟨10, 0, 0, 1⟩), 7000⟩, ⟨⟨TokenSet.empty⟩⟩⟩
      let ep₂ : Endpoint := ⟨⟨.ip (.v4 ⟨10, 0, 0, 2⟩), 7000⟩, ⟨⟨TokenSet.empty⟩⟩⟩
      ∀ gx : GxHash,
        (∃ m, deserialize gx [⟨[ep₁], none, none⟩, ⟨[ep₂], none, none⟩] = .ok m ∧
          m.map.lookup none = some (EndpointSet.new gx [ep₂]) ∧
          (EndpointSet.new gx [ep₂]).endpoints.lookup ep₁.address = none) ∧
        ∃ m, deserialize gx [⟨[ep₁], none, none⟩, ⟨[ep₂], none, none⟩, ⟨[ep₁], none, none⟩] =
          .ok m := by
  refine ⟨fun gx _ _ h => ClusterMap.lookup_deserialize h,
    fun gx _ h => ClusterMap.deserialize_of_nodup h, ?_⟩
  intro ep₁ ep₂ gx
  have hwin₂ : ClusterMapDeser.anyWindowEq [⟨[ep₁], none, none⟩, ⟨[ep₂], none, none⟩] = false := by
    decide
  have hwin₃ : ClusterMapDeser.anyWindowEq
      [⟨[ep₁], none, none⟩, ⟨[ep₂], none, none⟩, ⟨[ep₁], none, none⟩] = false := by
    decide
  constructor
  · have hread : ∃ m, deserialize gx [⟨[ep₁], none, none⟩, ⟨[ep₂], none, none⟩] = .ok m := by
      unfold deserialize ClusterMapDeser.deserialize
      rw [mergeSort_of_locality_eq (k := none) (by simp), if_neg (by simp [hwin₂])]
      exact ⟨_, rfl⟩
    obtain ⟨m, hm⟩ := hread
    refine ⟨m, hm, ?_, ?_⟩
    · rw [ClusterMap.lookup_deserialize hm]
      rfl
    · -- the set of the second entry has the one endpoint `10.0.0.2:7000`
      show (((∅ : InnerMap).insert ep₂.address ep₂.metadata).lookup ep₁.address) = none
      rw [AList.lookup_insert_ne (by decide)]
      rfl
  · unfold deserialize ClusterMapDeser.deserialize
    rw [mergeSort_of_locality_eq (k := none) (by simp), if_neg (by simp [hwin₃])]
    exact ⟨_, rfl⟩

end Quilkin.Net
