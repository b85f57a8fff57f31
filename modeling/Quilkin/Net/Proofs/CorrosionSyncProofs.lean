import Quilkin.Net.Proofs.ClusterProofs
import Quilkin.Data.Patch

/-!
# The cluster map and the corrosion database

`ClusterMap::apply` reports what it changed, an address list `removed` and an `(address, tokens)`
list `upserted`, and `Bridge::apply_changes` ships them to the corrosion database as deletions
followed by upserts. The lists are exactly the difference between the old set and the new, so the
database, patched with them, holds the new set's `to_map`.

The other way, `EndpointSet::corrosion_apply` follows the database's subscription stream and keeps
the set's token map up to date event by event instead of building it again. An inserted row for
an address the set already has adds the row's tokens and never takes out the old ones, so the
token map keeps the address under the hash of a token it no longer holds.
-/

namespace Quilkin.Net

open Corrosion (TokenSet)

namespace EndpointSet

/-- `to_map` as a map: the token set of the endpoint at an address. -/
def tokensAt (m : InnerMap) (a : EndpointAddress) : Option TokenSet :=
  (m.lookup a).map fun md => md.known.tokens

theorem tokensAt_eq_none {m : InnerMap} {a : EndpointAddress} :
    tokensAt m a = none ↔ m.lookup a = none :=
  Option.map_eq_none_iff

theorem mem_toMap (es : EndpointSet) (a : EndpointAddress) (ts : TokenSet) :
    (a, ts) ∈ es.toMap ↔ tokensAt es.endpoints a = some ts := by
  unfold toMap tokensAt
  rw [List.mem_map, Option.map_eq_some_iff]
  constructor
  · rintro ⟨⟨a', md⟩, hmem, heq⟩
    simp only [Prod.mk.injEq] at heq
    obtain ⟨rfl, rfl⟩ := heq
    exact ⟨md, AList.mem_lookup_iff.mpr hmem, rfl⟩
  · rintro ⟨md, hmd, rfl⟩
    exact ⟨⟨a, md⟩, AList.mem_lookup_iff.mp hmd, rfl⟩

/-- An address is removed when the old set has it and the new one does not. -/
theorem mem_replaceChanges_removed (old new : InnerMap) (a : EndpointAddress) :
    a ∈ (replaceChanges old new).1 ↔ old.lookup a ≠ none ∧ new.lookup a = none := by
  unfold replaceChanges
  rw [List.mem_filterMap]
  constructor
  · rintro ⟨⟨a', md⟩, hmem, heq⟩
    by_cases hn : (new.lookup a').isSome
    · simp [hn] at heq
    · simp only [hn, Bool.false_eq_true, ↓reduceIte, Option.some.injEq] at heq
      subst heq
      rw [Option.not_isSome_iff_eq_none] at hn
      exact ⟨by rw [AList.mem_lookup_iff.mpr hmem]; simp, hn⟩
  · rintro ⟨ho, hn⟩
    obtain ⟨md, hmd⟩ := Option.ne_none_iff_exists'.mp ho
    refine ⟨⟨a, md⟩, AList.mem_lookup_iff.mp hmd, ?_⟩
    simp [hn]

/-- A pair is upserted when the new set has an endpoint at the address with those tokens and the
old set does not. -/
theorem mem_replaceChanges_upserted (old new : InnerMap) (a : EndpointAddress) (ts : TokenSet) :
    (a, ts) ∈ (replaceChanges old new).2 ↔ tokensAt new a = some ts ∧ tokensAt old a ≠ some ts := by
  unfold replaceChanges
  rw [List.mem_filterMap]
  constructor
  · rintro ⟨⟨a', md⟩, hmem, heq⟩
    have hnew : new.lookup a' = some md := AList.mem_lookup_iff.mpr hmem
    cases ho : old.lookup a' with
    | none =>
      simp only [ho, Option.some.injEq, Prod.mk.injEq] at heq
      obtain ⟨rfl, rfl⟩ := heq
      simp [tokensAt, hnew, ho]
    | some o =>
      by_cases hne : md.known.tokens != o.known.tokens
      · simp only [ho, hne, ↓reduceIte, Option.some.injEq, Prod.mk.injEq] at heq
        obtain ⟨rfl, rfl⟩ := heq
        refine ⟨by simp [tokensAt, hnew], fun h => ?_⟩
        simp only [tokensAt, ho, Option.map_some, Option.some.injEq] at h
        simp [h] at hne
      · simp [ho, hne] at heq
  · rintro ⟨hn, ho⟩
    obtain ⟨md, hmd, rfl⟩ := Option.map_eq_some_iff.mp hn
    refine ⟨⟨a, md⟩, AList.mem_lookup_iff.mp hmd, ?_⟩
    cases hl : old.lookup a with
    | none => rfl
    | some o =>
      have hne : md.known.tokens ≠ o.known.tokens := fun h => ho (by simp [tokensAt, hl, h])
      simp [hne]

/-- No pair of `upserted` writes an address with tokens other than the new set's. -/
theorem eq_of_mem_replaceChanges_upserted {old new : InnerMap} {a : EndpointAddress}
    {ts : TokenSet} (h : (a, ts) ∈ (replaceChanges old new).2) : tokensAt new a = some ts :=
  ((mem_replaceChanges_upserted old new a ts).mp h).1

/-- The old set's map, patched with the changes, is the new set's. -/
theorem patch_replaceChanges (old new : InnerMap) :
    Patch.apply (tokensAt old) (replaceChanges old new).1 (replaceChanges old new).2 =
      tokensAt new := by
  funext a
  unfold Patch.apply
  cases hn : tokensAt new a with
  | none =>
    -- no pair writes `a`, and the old set lacks it or `removed` has it
    have hne : ∀ p ∈ (replaceChanges old new).2, p.1 ≠ a := by
      rintro ⟨a', ts⟩ hp rfl
      rw [eq_of_mem_replaceChanges_upserted hp] at hn
      exact Option.some_ne_none _ hn
    rw [Patch.writeAll_of_forall_ne hne, Patch.deleteAll_apply]
    have hnl : new.lookup a = none := tokensAt_eq_none.mp hn
    split_ifs with hr
    · rfl
    · have ho : old.lookup a = none := by
        by_contra ho
        exact hr ((mem_replaceChanges_removed old new a).mpr ⟨ho, hnl⟩)
      exact tokensAt_eq_none.mpr ho
  | some ts =>
    by_cases ho : tokensAt old a = some ts
    · -- the tokens did not change: nothing writes or removes `a`
      have hne : ∀ p ∈ (replaceChanges old new).2, p.1 ≠ a := by
        rintro ⟨a', ts'⟩ hp rfl
        have h := (mem_replaceChanges_upserted old new a' ts').mp hp
        rw [hn, Option.some.injEq] at h
        exact h.2 (h.1 ▸ ho)
      have hr : a ∉ (replaceChanges old new).1 := fun hr =>
        Option.some_ne_none _ (hn.symm.trans (tokensAt_eq_none.mpr
          ((mem_replaceChanges_removed old new a).mp hr).2))
      rw [Patch.writeAll_of_forall_ne hne, Patch.deleteAll_apply, if_neg hr, ho]
    · have hmem : (a, ts) ∈ (replaceChanges old new).2 :=
        (mem_replaceChanges_upserted old new a ts).mpr ⟨hn, ho⟩
      refine Patch.writeAll_of_mem hmem (fun ts' h => ?_) _
      rw [eq_of_mem_replaceChanges_upserted h, Option.some.injEq] at hn
      exact hn

end EndpointSet

namespace ClusterMap

/-- What `apply` ships for a locality: the difference between the current set and the new one,
which patches the current set's map into the new set's; for a new locality, nothing removed and
the new set's whole map upserted. -/
theorem applyChanges_spec (m : ClusterMap) (l : Option Locality) (c : EndpointSet) :
    (∀ current, m.map.lookup l = some current →
      (∀ a, a ∈ (m.applyChanges l c).1 ↔
        current.endpoints.lookup a ≠ none ∧ c.endpoints.lookup a = none) ∧
      (∀ a ts, (a, ts) ∈ (m.applyChanges l c).2 ↔
        EndpointSet.tokensAt c.endpoints a = some ts ∧
          EndpointSet.tokensAt current.endpoints a ≠ some ts) ∧
      Patch.apply (EndpointSet.tokensAt current.endpoints) (m.applyChanges l c).1
        (m.applyChanges l c).2 = EndpointSet.tokensAt c.endpoints) ∧
    (m.map.lookup l = none →
      m.applyChanges l c = ([], c.toMap) ∧
        Patch.apply (fun _ => none) [] c.toMap = EndpointSet.tokensAt c.endpoints) := by
  refine ⟨fun current hc => ?_, fun hc => ?_⟩
  · have happ : m.applyChanges l c = EndpointSet.replaceChanges current.endpoints c.endpoints := by
      rw [applyChanges, hc]
    rw [happ]
    exact ⟨EndpointSet.mem_replaceChanges_removed _ _, EndpointSet.mem_replaceChanges_upserted _ _,
      EndpointSet.patch_replaceChanges _ _⟩
  · refine ⟨by rw [applyChanges, hc], ?_⟩
    funext a
    show Patch.writeAll (fun _ => none) c.toMap a = _
    cases hn : EndpointSet.tokensAt c.endpoints a with
    | none =>
      refine Patch.writeAll_of_forall_ne ?_ _
      rintro ⟨a', ts⟩ hp rfl
      rw [(EndpointSet.mem_toMap c a' ts).mp hp] at hn
      exact Option.some_ne_none _ hn
    | some ts =>
      refine Patch.writeAll_of_mem ((EndpointSet.mem_toMap c a ts).mpr hn) (fun ts' h => ?_) _
      rw [(EndpointSet.mem_toMap c a ts').mp h, Option.some.injEq] at hn
      exact hn

end ClusterMap

/-! ## The token map along the subscription stream -/

namespace EndpointSet

variable (gx : GxHash)

/-- The set's side of the `insert` closure over a list of tokens is a loop of `insertAt`. -/
theorem fst_foldl_corrosionInsert (addr : EndpointAddress) (toks : List (List UInt8))
    (maps : TokenAddressMap × TokenAddressMap) :
    (toks.foldl (fun maps tok => corrosionInsert gx maps addr tok) maps).1 =
      toks.foldl (fun m tok => m.insertAt (gx.gxhash64 tok) addr) maps.1 := by
  induction toks generalizing maps with
  | nil => rfl
  | cons tok toks ih =>
    rw [List.foldl_cons, List.foldl_cons, ih]
    rfl

/-- An inserted row puts the address under the hash of each of the row's tokens, next to what the
token map had, and replaces the endpoint at the address. -/
theorem insertRow_spec (es : EndpointSet) (tokenMap : TokenAddressMap) (row : ServerRow) :
    (insertRow gx es tokenMap row).1.tokenMap =
        row.tokens.toSet.toList.foldl (fun m tok => m.insertAt (gx.gxhash64 tok) row.endpoint)
          es.tokenMap ∧
      (insertRow gx es tokenMap row).1.endpoints = es.endpoints.insert row.endpoint ⟨⟨row.tokens⟩⟩ := by
  unfold insertRow
  exact ⟨fst_foldl_corrosionInsert gx row.endpoint _ (es.tokenMap, tokenMap), rfl⟩

/-- A `Row`, or a `Change` of type `Insert`, is an inserted row on the set, whose change id is
all that may have moved. -/
theorem corrosionApply_insertEvent (es : EndpointSet) (tokenMap : TokenAddressMap)
    (row : ServerRow) {ev : QueryEvent}
    (hev : ev = .row (some row) ∨ ∃ cid, ev = .change .insert (some row) cid) :
    ∃ es0 : EndpointSet, es0.tokenMap = es.tokenMap ∧ es0.endpoints = es.endpoints ∧
      (es.corrosionApply gx [ev] tokenMap).1.1 = (insertRow gx es0 tokenMap row).1 := by
  rcases hev with rfl | ⟨cid, rfl⟩
  · exact ⟨es, rfl, rfl, rfl⟩
  · exact ⟨{ es with changeId := max cid es.changeId }, rfl, rfl, rfl⟩

/-- An inserted row for an address the set holds with a token whose hash none of the row's tokens
has: the set's token map keeps the address under that hash, though the token map built from the
endpoints no longer has it there. -/
theorem corrosionApply_keepsStaleToken (es : EndpointSet) (hc : es.Consistent gx)
    (tokenMap : TokenAddressMap) {a : EndpointAddress} {md : EndpointMetadata} {tok : List UInt8}
    {ts : TokenSet} (hmd : es.endpoints.lookup a = some md) (htok : tok ∈ md.known.tokens)
    (hts : ∀ t ∈ ts, gx.gxhash64 t ≠ gx.gxhash64 tok) {ev : QueryEvent}
    (hev : ev = .row (some ⟨a, ts⟩) ∨ ∃ cid, ev = .change .insert (some ⟨a, ts⟩) cid) :
    a ∈ (es.corrosionApply gx [ev] tokenMap).1.1.tokenMap (gx.gxhash64 tok) ∧
      a ∉ tokenMapOf gx (es.corrosionApply gx [ev] tokenMap).1.1.endpoints (gx.gxhash64 tok) := by
  obtain ⟨es0, htm, hend, happ⟩ := corrosionApply_insertEvent gx es tokenMap ⟨a, ts⟩ hev
  obtain ⟨htm', hend'⟩ := insertRow_spec gx es0 tokenMap ⟨a, ts⟩
  rw [happ, htm', hend', htm]
  constructor
  · -- the address was indexed under the hash, and inserting only adds
    have hheld : a ∈ es.tokenMap (gx.gxhash64 tok) := hc.mem_iff.mpr ⟨md, hmd, tok, htok, rfl⟩
    exact (Multimap.mem_foldl_insertAt _ _ _).mpr (.inl hheld)
  · rw [mem_tokenMapOf]
    rintro ⟨md', hmd', t, ht, hteq⟩
    rw [AList.lookup_insert, Option.some.injEq] at hmd'
    subst hmd'
    exact hts t ht hteq

/-- The token set `{[2]}`. -/
def tokenTwo : TokenSet := ⟨⟨[[2]], List.pairwise_singleton _ _⟩⟩

/-- The set of `10.0.0.1:7000` with the token `[1]`, then a row giving it the token `[2]`. -/
theorem corrosionApply_keepsStaleToken_rowTwo :
    endpointA.address ∈ ((EndpointSet.new firstByteHash [endpointA]).corrosionApply firstByteHash
        [.row (some ⟨endpointA.address, tokenTwo⟩)] Multimap.empty).1.1.tokenMap 1 ∧
      endpointA.address ∉ tokenMapOf firstByteHash ((EndpointSet.new firstByteHash
        [endpointA]).corrosionApply firstByteHash [.row (some ⟨endpointA.address, tokenTwo⟩)]
          Multimap.empty).1.1.endpoints 1 :=
  @corrosionApply_keepsStaleToken firstByteHash _ (consistent_new firstByteHash [endpointA])
    Multimap.empty endpointA.address endpointA.metadata [1] tokenTwo rfl
    (TokenSet.mem_iff.mpr (List.mem_singleton_self _))
    (fun t ht => by
      rw [TokenSet.mem_iff] at ht
      rw [List.mem_singleton.mp ht]
      decide)
    _ (.inl rfl)

end EndpointSet

end Quilkin.Net
