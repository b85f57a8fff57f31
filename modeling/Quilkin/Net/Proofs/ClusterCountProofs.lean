import Quilkin.Net.Proofs.ClusterProofs
import Quilkin.Data.AListTotal
import Mathlib.Data.UInt

/-!
# Proofs: the endpoint count and the version of a cluster map

Every mutator of the cluster map moves `num_endpoints` by its own reckoning of what it changed:
`apply` and `partial_replace` by the new length less the old, `remove_locality` by the length of
the set dropped, `update_unlocated_endpoints` by that of the set it replaces, the corrosion stream
by the change in its set's length, and a provider's batch by an `i32` count of the endpoints it
added less those it removed. Each is the change of the total length of the sets, so along every
run the counter is that total as a `usize` holds it, as long as no batch's `i32` count wraps,
which a batch of `2 ^ 31` new endpoints does. The calls an operation makes on the counter
(`ClusterMap.counterCalls`) leave it where the operation does (`numEndpoints_step`), and each
`fetch_sub` among them takes at most what one set of the map held, so none takes more than the
counter holds while the map has fewer than `2 ^ 64` endpoints (`noUnderflow_step`).

Every operation that changes a set also moves the version on, so a watcher sees the change: all
but the corrosion stream, which changes the corrosion locality's set and leaves the version alone.
-/

namespace Quilkin.Net

/-! ## `usize` arithmetic -/

theorem toUInt64_add_toUInt64 (a b : ℕ) : a.toUInt64 + b.toUInt64 = (a + b).toUInt64 := by
  simp only [Nat.toUInt64_eq, UInt64.ofNat_add]

theorem toUInt64_sub_toUInt64 {a b : ℕ} (h : b ≤ a) :
    a.toUInt64 - b.toUInt64 = (a - b).toUInt64 := by
  simp only [Nat.toUInt64_eq, UInt64.ofNat_sub h]

/-- A `fetch_add` of `a` when `c` holds, a `fetch_sub` of `b` otherwise, on a counter that holds
`total`: when `a` and `b` are what comes and goes as `oldLen` of the total becomes `newLen`, the
counter holds the new total. -/
theorem fetchAddSub_toUInt64 (newLen : ℕ) {total oldLen a b : ℕ} (h : oldLen ≤ total) (c : Prop)
    [Decidable c] (ha : c → oldLen + a = newLen) (hb : ¬c → newLen + b = oldLen) :
    (if c then total.toUInt64 + a.toUInt64 else total.toUInt64 - b.toUInt64) =
      (total - oldLen + newLen).toUInt64 := by
  split_ifs with hc
  · have ha := ha hc
    rw [toUInt64_add_toUInt64]
    congr 1
    omega
  · have hb := hb hc
    rw [toUInt64_sub_toUInt64 (by omega)]
    congr 1
    omega

theorem adjustNumEndpoints_toUInt64 {total oldLen : ℕ} (newLen : ℕ) (h : oldLen ≤ total) :
    adjustNumEndpoints total.toUInt64 newLen oldLen = (total - oldLen + newLen).toUInt64 :=
  fetchAddSub_toUInt64 newLen h _ (fun h => by omega) (fun h => by omega)

theorem add_ne_self_of_ne_zero {a b : UInt64} (hb : b ≠ 0) : a + b ≠ a := by
  intro h
  apply hb
  calc b = b + a - a := (UInt64.add_sub_cancel b a).symm
    _ = a + b - a := by rw [UInt64.add_comm]
    _ = 0 := by rw [h, UInt64.sub_self]

/-! ## Calls on a counter -/

namespace CounterCall

/-- No `fetch_sub` of the calls, made one after the other on a counter that holds `v`, subtracts
more than the counter holds. -/
def NoUnderflow : UInt64 → List CounterCall → Prop
  | _, [] => True
  | v, fetchAdd n :: calls => NoUnderflow (v + n) calls
  | v, fetchSub n :: calls => n ≤ v ∧ NoUnderflow (v - n) calls

theorem apply_adjust (v : UInt64) (newLen oldLen : ℕ) :
    (adjust newLen oldLen).apply v = adjustNumEndpoints v newLen oldLen := by
  unfold adjust adjustNumEndpoints
  split_ifs <;> rfl

theorem toUInt64_le_toUInt64 {a b : ℕ} (h : a ≤ b) (hb : b < 2 ^ 64) : a.toUInt64 ≤ b.toUInt64 := by
  rw [UInt64.le_iff_toNat_le, Nat.toUInt64_eq, Nat.toUInt64_eq, UInt64.toNat_ofNat',
    UInt64.toNat_ofNat', Nat.mod_eq_of_lt (by omega), Nat.mod_eq_of_lt hb]
  exact h

/-- A `fetch_sub` of at most `total`, on a counter that holds `total`. -/
theorem noUnderflow_fetchSub {total k : ℕ} (hk : k ≤ total) (ht : total < 2 ^ 64) :
    NoUnderflow total.toUInt64 [fetchSub k.toUInt64] :=
  ⟨toUInt64_le_toUInt64 hk ht, trivial⟩

theorem noUnderflow_adjust {total : ℕ} (newLen : ℕ) {oldLen : ℕ} (hold : oldLen ≤ total)
    (ht : total < 2 ^ 64) : NoUnderflow total.toUInt64 [adjust newLen oldLen] := by
  unfold adjust
  split_ifs
  · trivial
  · exact noUnderflow_fetchSub (by omega) ht

end CounterCall

/-! ## Lengths of endpoint sets -/

namespace EndpointSet

variable (gx : GxHash)

theorem len_replace (es c : EndpointSet) :
    (es.replace gx c).1.len = c.len ∧ (es.replace gx c).2.1 = es.len := by
  unfold replace
  split_ifs <;> exact ⟨rfl, rfl⟩

theorem len_partialReplace (es c : EndpointSet) (p : EndpointMetadata → Bool) :
    (es.partialReplace gx c p).1.len = (es.partialReplace gx c p).2.1 ∧
      (es.partialReplace gx c p).2.2.1 = es.len :=
  ⟨rfl, rfl⟩

theorem len_getD_new (o : Option EndpointSet) : (o.getD (new gx [])).len = o.elim 0 len := by
  cases o <;> rfl

theorem corrosionApply_diff (es : EndpointSet) (ss : List QueryEvent) (tm : TokenAddressMap) :
    (es.corrosionApply gx ss tm).2.2 = ((es.corrosionApply gx ss tm).1.1.len : ℤ) - es.len :=
  rfl

end EndpointSet

/-! ## A provider's batch -/

/-- One action changes the number of endpoints by `d`, one of `1`, `0` and `-1`, and the `i32`
count by the same. -/
theorem applyUpdateAction_count (nameOf : EndpointMetadata → Option String)
    (st : InnerMap × Int32 × Bool) (a : EndpointSetUpdateAction) :
    ∃ d : ℤ, (d = 1 ∨ d = 0 ∨ d = -1) ∧
      ((applyUpdateAction nameOf st a).1.entries.length : ℤ) = st.1.entries.length + d ∧
      (applyUpdateAction nameOf st a).2.1 = st.2.1 + Int32.ofInt d := by
  obtain ⟨endpoints, k, nu⟩ := st
  have hins : ∀ a b, (endpoints.insert a b).entries.length + (endpoints.lookup a).elim 0 (fun _ => 1) =
      endpoints.entries.length + 1 := fun a b => by
    rw [← AList.total_one, ← AList.total_one, AList.total_insert]
  have hera : ∀ a, (endpoints.erase a).entries.length + (endpoints.lookup a).elim 0 (fun _ => 1) =
      endpoints.entries.length := fun a => by
    rw [← AList.total_one, ← AList.total_one, AList.total_erase]
  have hzero : k + Int32.ofInt 0 = k := by rw [show Int32.ofInt 0 = 0 by decide, Int32.add_zero]
  have hdown : k - 1 = k + Int32.ofInt (-1) := by
    rw [show Int32.ofInt (-1) = -1 by decide, Int32.sub_eq_add_neg]
  cases a with
  | upsert ep =>
    have h := hins ep.address ep.metadata
    cases hl : endpoints.lookup ep.address with
    | none =>
      rw [hl, Option.elim_none] at h
      refine ⟨1, .inl rfl, ?_, ?_⟩
      · simp only [applyUpdateAction, hl, Option.isNone_none, ↓reduceIte]
        omega
      · simp only [applyUpdateAction, hl, Option.isNone_none, ↓reduceIte]
        rfl
    | some md =>
      rw [hl, Option.elim_some] at h
      refine ⟨0, .inr (.inl rfl), ?_, ?_⟩
      · simp only [applyUpdateAction, hl, Option.isNone_some, Bool.false_eq_true, ↓reduceIte]
        omega
      · simp only [applyUpdateAction, hl, Option.isNone_some, Bool.false_eq_true, ↓reduceIte]
        exact hzero.symm
  | removeByEndpoint ep =>
    have h := hera ep.address
    cases hl : endpoints.lookup ep.address with
    | none =>
      refine ⟨0, .inr (.inl rfl), ?_, ?_⟩
      · simp only [applyUpdateAction, hl, Option.isSome_none, Bool.false_eq_true, ↓reduceIte]
        omega
      · simp only [applyUpdateAction, hl, Option.isSome_none, Bool.false_eq_true, ↓reduceIte]
        exact hzero.symm
    | some md =>
      rw [hl, Option.elim_some] at h
      refine ⟨-1, .inr (.inr rfl), ?_, ?_⟩
      · simp only [applyUpdateAction, hl, Option.isSome_some, ↓reduceIte]
        omega
      · simp only [applyUpdateAction, hl, Option.isSome_some, ↓reduceIte]
        exact hdown
  | removeByName name =>
    cases hf : endpoints.entries.find? (fun e => nameOf e.2 == some name) with
    | none =>
      refine ⟨0, .inr (.inl rfl), ?_, ?_⟩
      · simp only [applyUpdateAction, hf]
        omega
      · simp only [applyUpdateAction, hf]
        exact hzero.symm
    | some e =>
      -- the endpoint found is one of the set's
      have hmem : e.2 ∈ endpoints.lookup e.1 := AList.mem_lookup_iff.mpr (List.mem_of_find?_eq_some hf)
      have h := hera e.1
      rw [Option.mem_def.mp hmem, Option.elim_some] at h
      refine ⟨-1, .inr (.inr rfl), ?_, ?_⟩
      · simp only [applyUpdateAction, hf]
        omega
      · simp only [applyUpdateAction, hf]
        exact hdown

/-- Over a batch, the `i32` count is the change in the number of endpoints, as an `i32`, and
that change is at most the number of actions. -/
theorem foldl_applyUpdateAction_count (nameOf : EndpointMetadata → Option String)
    (batch : List EndpointSetUpdateAction) (st : InnerMap × Int32 × Bool) :
    let r := batch.foldl (applyUpdateAction nameOf) st
    r.2.1 = st.2.1 + Int32.ofInt ((r.1.entries.length : ℤ) - st.1.entries.length) ∧
      -(batch.length : ℤ) ≤ (r.1.entries.length : ℤ) - st.1.entries.length ∧
      (r.1.entries.length : ℤ) - st.1.entries.length ≤ batch.length := by
  induction batch generalizing st with
  | nil =>
    refine ⟨?_, by simp, by simp⟩
    rw [List.foldl_nil, sub_self, show Int32.ofInt 0 = 0 by decide, Int32.add_zero]
  | cons a batch ih =>
    obtain ⟨d, hd, hlen, hk⟩ := applyUpdateAction_count nameOf st a
    obtain ⟨hk', hlo, hhi⟩ := ih (applyUpdateAction nameOf st a)
    rw [List.foldl_cons]
    refine ⟨?_, ?_, ?_⟩
    · rw [hk', hk, Int32.add_assoc, ← Int32.ofInt_add]
      congr 2
      omega
    · simp only [List.length_cons]
      omega
    · simp only [List.length_cons]
      omega

theorem toInt_applyUpdateBatchToGuard (nameOf : EndpointMetadata → Option String)
    (endpoints : InnerMap) {batch : List EndpointSetUpdateAction} (hb : batch.length < 2 ^ 31) :
    (applyUpdateBatchToGuard nameOf endpoints batch).2.1.toInt =
      ((applyUpdateBatchToGuard nameOf endpoints batch).1.entries.length : ℤ) -
        endpoints.entries.length := by
  obtain ⟨hk, hlo, hhi⟩ := foldl_applyUpdateAction_count nameOf batch (endpoints, 0, false)
  unfold applyUpdateBatchToGuard
  rw [hk, Int32.zero_add, Int32.toInt_ofInt]
  apply Int.bmod_eq_of_le
  · simp only [Int32.size] at *
    omega
  · simp only [Int32.size] at *
    omega

/-- Upserts of endpoints at distinct addresses that the set does not have add one endpoint each. -/
theorem length_foldl_upsert (nameOf : EndpointMetadata → Option String) (eps : List Endpoint)
    (hd : eps.Pairwise fun e e' => e.address ≠ e'.address) (st : InnerMap × Int32 × Bool)
    (hfresh : ∀ e ∈ eps, st.1.lookup e.address = none) :
    ((eps.map .upsert).foldl (applyUpdateAction nameOf) st).1.entries.length =
      st.1.entries.length + eps.length := by
  induction eps generalizing st with
  | nil => rfl
  | cons e eps ih =>
    obtain ⟨endpoints, k, nu⟩ := st
    obtain ⟨hne, hd⟩ := List.pairwise_cons.mp hd
    have he : endpoints.lookup e.address = none := hfresh e List.mem_cons_self
    have hlen : (endpoints.insert e.address e.metadata).entries.length = endpoints.entries.length + 1 := by
      have h := AList.total_insert (fun _ => 1) endpoints e.address e.metadata
      rw [AList.total_one, AList.total_one, he, Option.elim_none] at h
      omega
    rw [List.map_cons, List.foldl_cons, ih hd, List.length_cons]
    · show (endpoints.insert e.address e.metadata).entries.length + eps.length =
        endpoints.entries.length + (eps.length + 1)
      omega
    · intro e' he'
      show (endpoints.insert e.address e.metadata).lookup e'.address = none
      rw [AList.lookup_insert_ne (hne e' he').symm]
      exact hfresh e' (List.mem_cons_of_mem _ he')

namespace EndpointSet

variable (gx : GxHash)

/-- The set that `batch_modify` writes back has the endpoints the batch left. -/
theorem len_batchSet (set : EndpointSet) (r : InnerMap × Int32 × Bool) :
    (if r.2.2 then (update gx { set with endpoints := r.1 }).2 else { set with endpoints := r.1 }).len =
      r.1.entries.length := by
  split_ifs <;> rfl

end EndpointSet

namespace ClusterMap

variable {gx : GxHash} {m m' : ClusterMap} {r : Option IpAddr} {l : Option Locality}
  {c : EndpointSet}

/-! ## The count -/

/-- The number of endpoints of the sets. -/
def total (m : ClusterMap) : ℕ := m.map.total EndpointSet.len

/-- `num_endpoints` is the number of endpoints of the sets, as a `usize` holds it. -/
def Counted (m : ClusterMap) : Prop := m.numEndpoints = m.total.toUInt64

theorem total_of_insert {s : AList fun _ : Option Locality => EndpointSet} {es : EndpointSet}
    (hmap : m'.map = s.insert l es) :
    m'.total + (s.lookup l).elim 0 EndpointSet.len = s.total EndpointSet.len + es.len := by
  rw [total, hmap, AList.total_insert]

theorem total_of_erase {s : AList fun _ : Option Locality => EndpointSet}
    (hmap : m'.map = s.erase l) :
    m'.total + (s.lookup l).elim 0 EndpointSet.len = s.total EndpointSet.len := by
  rw [total, hmap, AList.total_erase]

theorem elim_le_total (m : ClusterMap) (l : Option Locality) :
    (m.map.lookup l).elim 0 EndpointSet.len ≤ m.total := by
  cases h : m.map.lookup l with
  | none => exact Nat.zero_le _
  | some es => exact AList.le_total_of_lookup EndpointSet.len h

theorem counted_of_map_eq (hm : m.Counted) (hmap : m'.map = m.map)
    (hnum : m'.numEndpoints = m.numEndpoints) : m'.Counted := by
  rw [Counted, hnum, hm, total, total, hmap]

theorem counted_apply (hm : m.Counted) (h : m.apply gx r l c = .ok m') : m'.Counted := by
  obtain ⟨-, ⟨current, hcur, hmap, -, hnum⟩ | ⟨hnone, hmap, -, hnum⟩, -⟩ := apply_spec h
  · obtain ⟨hlen, hold⟩ := EndpointSet.len_replace gx current c
    have htot : m'.total + _ = m.total + _ := total_of_insert hmap
    rw [hcur, Option.elim_some, hlen] at htot
    have hle : current.len ≤ m.total := AList.le_total_of_lookup _ hcur
    rw [Counted, hnum, hm, hold, adjustNumEndpoints_toUInt64 _ hle]
    congr 1
    omega
  · have htot : m'.total + _ = m.total + _ := total_of_insert hmap
    rw [hnone, Option.elim_none] at htot
    rw [Counted, hnum, hm, toUInt64_add_toUInt64]
    congr 1
    omega

theorem counted_partialReplace (hm : m.Counted) (p : EndpointMetadata → Bool) :
    (m.partialReplace gx l c p).Counted := by
  obtain ⟨⟨current, hcur, hmap, -, hnum⟩ | ⟨hnone, hmap, -, hnum⟩, -⟩ :=
    partialReplace_cases m l c p
  · obtain ⟨hlen, hold⟩ := EndpointSet.len_partialReplace gx current c p
    have htot : (m.partialReplace gx l c p).total + _ = m.total + _ := total_of_insert hmap
    rw [hcur, Option.elim_some, hlen] at htot
    have hle : current.len ≤ m.total := AList.le_total_of_lookup _ hcur
    rw [Counted, hnum, hm, hold, adjustNumEndpoints_toUInt64 _ hle]
    congr 1
    omega
  · have htot : (m.partialReplace gx l c p).total + _ = m.total + _ := total_of_insert hmap
    rw [hnone, Option.elim_none] at htot
    rw [Counted, hnum, hm, toUInt64_add_toUInt64]
    congr 1
    omega

/-- What `do_remove_locality` does: the set, if there is one, goes with its count, and the version
moves on. -/
theorem doRemoveLocality_cases (m : ClusterMap) (l : Option Locality) :
    (∃ ret, m.map.lookup l = some ret ∧ (m.doRemoveLocality l).2.map = m.map.erase l ∧
      (m.doRemoveLocality l).2.numEndpoints = m.numEndpoints - ret.len.toUInt64 ∧
      (m.doRemoveLocality l).2.version = m.version + 1) ∨
    (m.map.lookup l = none ∧ (m.doRemoveLocality l).2.map = m.map ∧
      (m.doRemoveLocality l).2.numEndpoints = m.numEndpoints ∧
      (m.doRemoveLocality l).2.version = m.version) := by
  dsimp only [doRemoveLocality]
  cases hl : m.map.lookup l with
  | some ret => exact .inl ⟨ret, rfl, rfl, rfl, rfl⟩
  | none => exact .inr ⟨rfl, rfl, rfl, rfl⟩

theorem counted_doRemoveLocality (hm : m.Counted) (l : Option Locality) :
    (m.doRemoveLocality l).2.Counted := by
  rcases doRemoveLocality_cases m l with ⟨ret, hret, hmap, hnum, -⟩ | ⟨-, hmap, hnum, -⟩
  · have htot : _ + _ = m.total := total_of_erase hmap
    rw [hret, Option.elim_some] at htot
    rw [Counted, hnum, hm, toUInt64_sub_toUInt64 (by omega)]
    congr 1
    omega
  · exact counted_of_map_eq hm hmap hnum

theorem counted_removeLocality (hm : m.Counted) (r : Option IpAddr) (l : Option Locality) :
    (m.removeLocality r l).2.Counted := by
  by_cases hr : m.Manages r l
  · rw [removeLocality_of_manages hr]
    exact counted_doRemoveLocality hm l
  · rw [removeLocality_of_not_manages hr]
    exact hm

theorem counted_updateUnlocatedEndpoints (hm : m.Counted) (r : Option IpAddr) (loc : Locality) :
    (m.updateUnlocatedEndpoints r loc).Counted := by
  by_cases hr : m.Manages r none
  swap
  · rw [updateUnlocatedEndpoints_of_not_manages hr]
    exact hm
  rcases lookup_updateUnlocatedEndpoints hr loc with ⟨-, hmap, hnum, -⟩ | ⟨set, hset, hmap, hnum, -⟩
  · exact counted_of_map_eq hm hmap hnum
  -- the set moves from `none` to `some loc`, and the set it replaces goes
  have herase : _ + _ = m.total := AList.total_erase EndpointSet.len m.map none
  have hinsert := total_of_insert hmap
  rw [hset, Option.elim_some] at herase
  rw [AList.lookup_erase_ne (Option.some_ne_none loc)] at hinsert
  have hle := elim_le_total m (some loc)
  rw [Counted, hnum, hm, toUInt64_sub_toUInt64 hle]
  congr 1
  omega

/-- What `corrosion_apply` does: the corrosion locality's set, created empty if need be, is the
stream's result, the count moves by the change in its length, and the version stays. -/
theorem corrosionApply_spec (m : ClusterMap) (ss : List QueryEvent) :
    let es := (m.map.lookup (some corro)).getD (EndpointSet.new gx [])
    let diff : ℤ := ((es.corrosionApply gx ss m.tokenMap).1.1.len : ℤ) - es.len
    (m.corrosionApply gx ss).2.map = m.map.insert (some corro) (es.corrosionApply gx ss m.tokenMap).1.1 ∧
    (m.corrosionApply gx ss).2.numEndpoints =
      (if diff ≥ 0 then m.numEndpoints + diff.toNat.toUInt64
        else m.numEndpoints - diff.natAbs.toUInt64) ∧
    (m.corrosionApply gx ss).2.version = m.version :=
  ⟨rfl, rfl, rfl⟩

theorem counted_corrosionApply (hm : m.Counted) (ss : List QueryEvent) :
    (m.corrosionApply gx ss).2.Counted := by
  obtain ⟨hmap, hnum, -⟩ := @corrosionApply_spec gx m ss
  have htot : _ + _ = m.total + _ := total_of_insert hmap
  have hle := elim_le_total m (some corro)
  rw [← EndpointSet.len_getD_new gx] at htot hle
  set es := (m.map.lookup (some corro)).getD (EndpointSet.new gx [])
  rw [Counted, hnum, hm, fetchAddSub_toUInt64 (es.corrosionApply gx ss m.tokenMap).1.1.len hle]
  · congr 1
    omega
  · intro h
    omega
  · intro h
    omega

/-! ## Runs -/

/-- What `batch_modify` does, step by step: the set after the batch and the guard's drop, the map
with it and the count moved by the batch's `i32` count, the set removed if it is left empty, and
the version moved on. -/
theorem batchModify_spec (m : ClusterMap) (nameOf : EndpointMetadata → Option String)
    (l : Option Locality) (batch : List EndpointSetUpdateAction) :
    let set := (m.map.lookup l).getD (EndpointSet.new gx [])
    let r := applyUpdateBatchToGuard nameOf set.endpoints batch
    let set' : EndpointSet := if r.2.2 then (EndpointSet.update gx { set with endpoints := r.1 }).2
      else { set with endpoints := r.1 }
    let m' : ClusterMap := { m with
      map := m.map.insert l set'
      numEndpoints := if r.2.1 > 0 then m.numEndpoints + r.2.1.toInt.natAbs.toUInt64
        else m.numEndpoints - r.2.1.toInt.natAbs.toUInt64 }
    let m'' := if set'.len = 0 then (m'.doRemoveLocality l).2 else m'
    m.batchModify gx nameOf l batch = { m'' with version := m''.version + 1 } :=
  rfl

theorem counted_setVersion {x : ClusterMap} (h : x.Counted) (v : UInt64) :
    ({ x with version := v } : ClusterMap).Counted := h

theorem counted_batchModify (hm : m.Counted) (nameOf : EndpointMetadata → Option String)
    (l : Option Locality) {batch : List EndpointSetUpdateAction} (hb : batch.length < 2 ^ 31) :
    (m.batchModify gx nameOf l batch).Counted := by
  rw [batchModify_spec]
  generalize hs : (m.map.lookup l).getD (EndpointSet.new gx []) = set0
  have hk := toInt_applyUpdateBatchToGuard nameOf set0.endpoints hb
  generalize hr : applyUpdateBatchToGuard nameOf set0.endpoints batch = r at hk
  generalize hset' : (if r.2.2 = true then (EndpointSet.update gx { set0 with endpoints := r.1 }).2
      else { set0 with endpoints := r.1 }) = set'
  have hlen : set'.len = r.1.entries.length := hset' ▸ EndpointSet.len_batchSet gx set0 r
  -- the map with the set written and the count moved by the batch's count
  have hwrite : ∀ m' : ClusterMap, m'.map = m.map.insert l set' →
      m'.numEndpoints = (if r.2.1 > 0 then m.numEndpoints + r.2.1.toInt.natAbs.toUInt64
        else m.numEndpoints - r.2.1.toInt.natAbs.toUInt64) → m'.Counted := by
    intro m' hmap hnum
    have htot : m'.total + _ = m.total + _ := total_of_insert hmap
    have hle := elim_le_total m l
    have h0 : set0.len = set0.endpoints.entries.length := rfl
    rw [← EndpointSet.len_getD_new gx, hs] at htot hle
    have hpos : r.2.1 > 0 ↔ r.2.1.toInt > 0 := Int32.lt_iff_toInt_lt
    rw [Counted, hnum, hm, fetchAddSub_toUInt64 set'.len hle]
    · congr 1
      omega
    · intro h
      rw [hpos] at h
      omega
    · intro h
      rw [hpos] at h
      omega
  apply counted_setVersion
  -- a set left empty goes, with a count of nothing
  by_cases hz : set'.len = 0
  · rw [if_pos hz]
    exact counted_doRemoveLocality (hwrite _ rfl rfl) l
  · rw [if_neg hz]
    exact hwrite _ rfl rfl

/-- A batch whose `i32` count cannot wrap: one of fewer than `2 ^ 31` actions. -/
def Op.BatchFits : Op → Prop
  | .batchModify _ _ batch => batch.length < 2 ^ 31
  | _ => True

theorem counted_step (hm : m.Counted) {op : Op} (hop : op.BatchFits) : (m.step gx op).Counted := by
  cases op with
  | apply r l endpoints version =>
    cases h : m.apply gx r l (EndpointSet.withVersion gx endpoints version) with
    | ok m' =>
      simp only [step, h]
      exact counted_apply hm h
    | error e =>
      simp only [step, h]
      exact hm
  | insert r l cluster =>
    cases h : m.apply gx r l (EndpointSet.new gx cluster) with
    | ok m' =>
      simp only [step, insert, h]
      exact counted_apply hm h
    | error e =>
      simp only [step, insert, h]
      exact hm
  | partialReplace l endpoints p => exact counted_partialReplace hm p
  | removeLocality r l => exact counted_removeLocality hm r l
  | updateUnlocatedEndpoints r loc => exact counted_updateUnlocatedEndpoints hm r loc
  | corrosionApply ss => exact counted_corrosionApply hm ss
  | removeContributor r => exact counted_of_map_eq hm rfl rfl
  | batchModify nameOf l batch => exact counted_batchModify hm nameOf l hop

theorem counted_run (hm : m.Counted) {ops : List Op} (hops : ∀ op ∈ ops, op.BatchFits) :
    (m.run gx ops).Counted := by
  induction ops generalizing m with
  | nil => exact hm
  | cons op ops ih =>
    exact ih (counted_step hm (hops op List.mem_cons_self))
      fun op h => hops op (List.mem_cons_of_mem _ h)

/-! ## The calls on the counter -/

theorem doRemoveLocality_fst (m : ClusterMap) (l : Option Locality) :
    (m.doRemoveLocality l).1 = m.map.lookup l := by
  dsimp only [doRemoveLocality]
  split <;> rename_i h <;> exact h.symm

theorem numEndpoints_doRemoveLocality_of_lookup {x : ClusterMap} {set : EndpointSet}
    (h : x.map.lookup l = some set) :
    (x.doRemoveLocality l).2.numEndpoints = x.numEndpoints - set.len.toUInt64 := by
  rcases doRemoveLocality_cases x l with ⟨ret, hret, -, hnum, -⟩ | ⟨hnone, -⟩
  · rw [hnum, Option.some.inj (hret.symm.trans h)]
  · rw [h] at hnone
    cases hnone

/-- The counter after `apply` or `insert`, refused or not, is what their calls make of it. -/
theorem numEndpoints_applyCalls (m : ClusterMap) (r : Option IpAddr) (l : Option Locality)
    (c : EndpointSet) :
    (match m.apply gx r l c with
      | .ok m' => m'
      | .error _ => m).numEndpoints = (m.applyCalls gx r l c).foldl CounterCall.apply m.numEndpoints := by
  unfold applyCalls
  cases ha : m.apply gx r l c with
  | error e => rfl
  | ok m' =>
    obtain ⟨-, ⟨current, hcur, -, -, hnum⟩ | ⟨hnone, -, -, hnum⟩, -⟩ := apply_spec ha
    · simp only [hcur, hnum, List.foldl_cons, List.foldl_nil, CounterCall.apply_adjust]
    · simp only [hnone, hnum, List.foldl_cons, List.foldl_nil, CounterCall.apply]

variable (gx) in
/-- An operation's calls on `num_endpoints`, made one after the other, leave the counter the
operation leaves. -/
theorem numEndpoints_step (m : ClusterMap) (op : Op) :
    (m.step gx op).numEndpoints = (m.counterCalls gx op).foldl CounterCall.apply m.numEndpoints := by
  cases op with
  | apply r l endpoints version => exact numEndpoints_applyCalls m r l _
  | insert r l cluster => exact numEndpoints_applyCalls m r l _
  | partialReplace l endpoints p =>
    obtain ⟨⟨current, hcur, -, -, hnum⟩ | ⟨hnone, -, -, hnum⟩, -⟩ :=
      @partialReplace_cases gx m l (EndpointSet.new gx endpoints) p
    · simp only [step, counterCalls, hcur, hnum, List.foldl_cons, List.foldl_nil,
        CounterCall.apply_adjust]
    · simp only [step, counterCalls, hnone, hnum, List.foldl_cons, List.foldl_nil, CounterCall.apply]
  | removeLocality r l =>
    by_cases hr : m.Manages r l
    · rcases doRemoveLocality_cases m l with ⟨ret, hret, -, hnum, -⟩ | ⟨hnone, -, hnum, -⟩
      · simp only [step, counterCalls, removeLocality_of_manages hr, doRemoveLocality_fst, hret, hnum,
          List.foldl_cons, List.foldl_nil, CounterCall.apply]
      · simp only [step, counterCalls, removeLocality_of_manages hr, doRemoveLocality_fst, hnone,
          hnum, List.foldl_nil]
    · simp only [step, counterCalls, removeLocality_of_not_manages hr, List.foldl_nil]
  | updateUnlocatedEndpoints r loc =>
    by_cases hr : m.Manages r none
    · have hif : (m.localities.lookup none).any (· != r) = false := hr
      rcases lookup_updateUnlocatedEndpoints hr loc with ⟨hnone, -, hnum, -⟩ | ⟨set, hset, -, hnum, -⟩
      · simp only [step, counterCalls, hif, hnone, hnum, Bool.false_eq_true, ↓reduceIte, List.foldl_nil]
      · -- the set it replaces, if any, goes
        simp only [step, counterCalls, hif, hset, hnum, Bool.false_eq_true, ↓reduceIte,
          AList.lookup_erase_ne (Option.some_ne_none loc)]
        cases m.map.lookup (some loc) with
        | none => simp
        | some replaced => rfl
    · have hif : (m.localities.lookup none).any (· != r) = true := by
        unfold Manages at hr
        rwa [Bool.not_eq_false] at hr
      simp only [step, counterCalls, updateUnlocatedEndpoints_of_not_manages hr, hif, ↓reduceIte,
        List.foldl_nil]
  | corrosionApply ss =>
    show (m.corrosionApply gx ss).2.numEndpoints = _
    rw [(corrosionApply_spec m ss).2.1]
    simp only [counterCalls, EndpointSet.corrosionApply_diff]
    split_ifs with hd <;> simp only [hd, ↓reduceIte, List.foldl_cons, List.foldl_nil, CounterCall.apply]
  | removeContributor r => rfl
  | batchModify nameOf l batch =>
    show (m.batchModify gx nameOf l batch).numEndpoints = _
    rw [batchModify_spec]
    simp only [counterCalls]
    generalize (m.map.lookup l).getD (EndpointSet.new gx []) = set0
    generalize applyUpdateBatchToGuard nameOf set0.endpoints batch = r
    obtain ⟨endpoints, k, nu⟩ := r
    dsimp only
    generalize (if nu = true then (EndpointSet.update gx { set0 with endpoints }).2
      else { set0 with endpoints }) = set'
    by_cases hz : set'.len = 0
    · -- `do_remove_locality` finds the set just written
      rw [if_pos hz, if_pos hz, numEndpoints_doRemoveLocality_of_lookup (AList.lookup_insert _)]
      split_ifs <;> rfl
    · rw [if_neg hz, if_neg hz]
      split_ifs <;> rfl

/-- The calls of `apply` and `insert` subtract at most what the set they replace held. -/
theorem noUnderflow_applyCalls (ht : m.total < 2 ^ 64) (r : Option IpAddr) (l : Option Locality)
    (c : EndpointSet) : CounterCall.NoUnderflow m.total.toUInt64 (m.applyCalls gx r l c) := by
  unfold applyCalls
  cases m.apply gx r l c with
  | error e => trivial
  | ok m' =>
    cases hcur : m.map.lookup l with
    | none => trivial
    | some current =>
      have hle : (current.replace gx c).2.1 ≤ m.total := by
        rw [(EndpointSet.len_replace gx current c).2]
        exact AList.le_total_of_lookup _ hcur
      exact CounterCall.noUnderflow_adjust c.len hle ht

/-- A `fetch_sub` of the endpoints of one set of the map. -/
theorem noUnderflow_fetchSub_of_lookup (ht : m.total < 2 ^ 64) {set : EndpointSet} (h : m.map.lookup l = some set) :
    CounterCall.NoUnderflow m.total.toUInt64 [.fetchSub set.len.toUInt64] :=
  CounterCall.noUnderflow_fetchSub (AList.le_total_of_lookup _ h) ht

variable (gx) in
/-- The set a batch or a corrosion update starts from is one of the map's, or empty. -/
theorem len_getD_le_total (m : ClusterMap) (l : Option Locality) :
    ((m.map.lookup l).getD (EndpointSet.new gx [])).len ≤ m.total := by
  rw [EndpointSet.len_getD_new gx]
  exact elim_le_total m l

/-- The `fetch_sub` of `do_remove_locality` after a batch, of the empty set it finds. -/
theorem noUnderflow_removeEmpty (v : UInt64) (set : EndpointSet) :
    CounterCall.NoUnderflow v (if set.len = 0 then [.fetchSub set.len.toUInt64] else []) := by
  split_ifs with h
  · exact ⟨by rw [h]; exact UInt64.zero_le, trivial⟩
  · trivial

/-- From a map whose counter holds its number of endpoints, fewer than `2 ^ 64`, no `fetch_sub` of
an operation whose batch fits subtracts more than the counter holds: each subtracts at most what
one set of the map held. -/
theorem noUnderflow_step (hm : m.Counted) (ht : m.total < 2 ^ 64) {op : Op} (hop : op.BatchFits) :
    CounterCall.NoUnderflow m.numEndpoints (m.counterCalls gx op) := by
  rw [hm]
  cases op with
  | apply r l endpoints version => exact noUnderflow_applyCalls ht r l _
  | insert r l cluster => exact noUnderflow_applyCalls ht r l _
  | partialReplace l endpoints p =>
    simp only [counterCalls]
    cases hcur : m.map.lookup l with
    | none => trivial
    | some current =>
      have hle : (current.partialReplace gx (EndpointSet.new gx endpoints) p).2.2.1 ≤ m.total := by
        rw [(EndpointSet.len_partialReplace gx current _ p).2]
        exact AList.le_total_of_lookup _ hcur
      exact CounterCall.noUnderflow_adjust _ hle ht
  | removeLocality r l =>
    simp only [counterCalls]
    cases hret : (m.removeLocality r l).1 with
    | none => trivial
    | some ret =>
      -- the set removed is the locality's
      have hlookup : m.map.lookup l = some ret := by
        by_cases hr : m.Manages r l
        · rwa [removeLocality_of_manages hr, doRemoveLocality_fst] at hret
        · rw [removeLocality_of_not_manages hr] at hret
          cases hret
      exact noUnderflow_fetchSub_of_lookup ht hlookup
  | updateUnlocatedEndpoints r loc =>
    simp only [counterCalls, AList.lookup_erase_ne (Option.some_ne_none loc)]
    split_ifs
    · trivial
    cases m.map.lookup none with
    | none => trivial
    | some set =>
      cases hrep : m.map.lookup (some loc) with
      | none => trivial
      | some replaced => exact noUnderflow_fetchSub_of_lookup ht hrep
  | corrosionApply ss =>
    simp only [counterCalls, EndpointSet.corrosionApply_diff]
    have hle := len_getD_le_total gx m (some corro)
    split_ifs with hd <;> simp only [hd, ↓reduceIte]
    · trivial
    · exact CounterCall.noUnderflow_fetchSub (by omega) ht
  | removeContributor r => trivial
  | batchModify nameOf l batch =>
    simp only [counterCalls]
    have hle := len_getD_le_total gx m l
    generalize (m.map.lookup l).getD (EndpointSet.new gx []) = set0 at hle ⊢
    have hk := toInt_applyUpdateBatchToGuard nameOf set0.endpoints hop
    generalize applyUpdateBatchToGuard nameOf set0.endpoints batch = r at hk ⊢
    obtain ⟨endpoints, k, nu⟩ := r
    dsimp only at hk ⊢
    have h0 : set0.len = set0.endpoints.entries.length := rfl
    have hpos : k > 0 ↔ k.toInt > 0 := Int32.lt_iff_toInt_lt
    by_cases hkpos : k > 0
    · rw [if_pos hkpos]
      exact noUnderflow_removeEmpty _ _
    · -- the batch's count is what the set lost, at most what it held
      rw [if_neg hkpos]
      refine ⟨CounterCall.toUInt64_le_toUInt64 ?_ ht, noUnderflow_removeEmpty _ _⟩
      rw [hpos] at hkpos
      omega

theorem counted_new : ClusterMap.new.Counted := rfl

theorem counted_ofMap (map : AList fun _ : Option Locality => EndpointSet) :
    (ofMap map).Counted :=
  rfl

variable (gx) in
/-- From the empty map or from a map of sets, along every run whose batches have fewer than
`2 ^ 31` actions, `num_endpoints` is the number of endpoints of the sets, as a `usize`, and no
`fetch_sub` an operation makes on a map of fewer than `2 ^ 64` endpoints subtracts more than the
counter holds. -/
theorem numEndpoints_counts (map : AList fun _ : Option Locality => EndpointSet) {ops : List Op}
    (hops : ∀ op ∈ ops, op.BatchFits) :
    (ClusterMap.new.run gx ops).numEndpoints = (ClusterMap.new.run gx ops).total.toUInt64 ∧
      ((ofMap map).run gx ops).numEndpoints = ((ofMap map).run gx ops).total.toUInt64 ∧
      ∀ m₀ ∈ [ClusterMap.new, ofMap map], ∀ k (hk : k < ops.length),
        (m₀.run gx (ops.take k)).total < 2 ^ 64 →
        CounterCall.NoUnderflow (m₀.run gx (ops.take k)).numEndpoints
          ((m₀.run gx (ops.take k)).counterCalls gx ops[k]) := by
  refine ⟨counted_run counted_new hops, counted_run (counted_ofMap map) hops, ?_⟩
  intro m₀ hm₀ k hk ht
  have hstart : m₀.Counted := by
    simp only [List.mem_cons, List.not_mem_nil, or_false] at hm₀
    rcases hm₀ with rfl | rfl
    · exact counted_new
    · exact counted_ofMap map
  -- the operations before the `k`-th keep the count
  have hprefix : (m₀.run gx (ops.take k)).Counted :=
    counted_run hstart fun op h => hops op (List.mem_of_mem_take h)
  exact noUnderflow_step hprefix ht (hops _ (List.getElem_mem hk))

theorem numEndpoints_counts_upsertA :
    (∀ op ∈ [Op.batchModify (fun _ => none) none [.upsert endpointA]], op.BatchFits) ∧
      (ClusterMap.new.run firstByteHash
        [.batchModify (fun _ => none) none [.upsert endpointA]]).numEndpoints = 1 := by
  have hfit : ∀ op ∈ [Op.batchModify (fun _ => none) none [.upsert endpointA]], op.BatchFits := by
    intro op h
    rw [List.mem_singleton] at h
    subst h
    show 1 < 2 ^ 31
    decide
  refine ⟨hfit, ?_⟩
  rw [(numEndpoints_counts firstByteHash ∅ hfit).1]
  rfl

/-- The address with the four bytes of `i`, port `0`. -/
def nthAddress (i : ℕ) : EndpointAddress :=
  ⟨.ip (.v4 ⟨(i / 2 ^ 24).toUInt8, (i / 2 ^ 16).toUInt8, (i / 2 ^ 8).toUInt8, i.toUInt8⟩), 0⟩

theorem nthAddress_inj {i j : ℕ} (hi : i < 2 ^ 32) (hj : j < 2 ^ 32)
    (h : nthAddress i = nthAddress j) : i = j := by
  simp only [nthAddress, EndpointAddress.mk.injEq, AddressKind.ip.injEq, IpAddr.v4.injEq,
    Ipv4Addr.mk.injEq, and_true] at h
  obtain ⟨ha, hb, hc, hd⟩ := h
  have ha := congrArg UInt8.toNat ha
  have hb := congrArg UInt8.toNat hb
  have hc := congrArg UInt8.toNat hc
  have hd := congrArg UInt8.toNat hd
  simp only [Nat.toUInt8_eq, UInt8.toNat_ofNat'] at ha hb hc hd
  omega

/-- Upserts of `n` endpoints at distinct addresses. -/
def upsertsAt (n : ℕ) : List EndpointSetUpdateAction :=
  ((List.range n).map fun i => (⟨nthAddress i, ⟨⟨tokenOne⟩⟩⟩ : Endpoint)).map .upsert

variable (gx) in
/-- A batch of `2 ^ 31` new endpoints into the empty map: the set has them all, and the count,
moved by the `i32` count that wraps to `i32::MIN`, goes down by `2 ^ 31`. -/
theorem step_batchModify_upsertsAt :
    (ClusterMap.new.step gx (.batchModify (fun _ => none) none (upsertsAt (2 ^ 31)))).total
        = 2 ^ 31 ∧
      (ClusterMap.new.step gx
        (.batchModify (fun _ => none) none (upsertsAt (2 ^ 31)))).numEndpoints = 0 - 2 ^ 31 := by
  have hd : ((List.range (2 ^ 31)).map fun i => (⟨nthAddress i, ⟨⟨tokenOne⟩⟩⟩ : Endpoint)).Pairwise
      fun e e' => e.address ≠ e'.address := by
    rw [List.pairwise_map]
    refine List.Pairwise.imp_of_mem ?_ List.nodup_range
    intro i j hi hj hij heq
    rw [List.mem_range] at hi hj
    exact hij (nthAddress_inj (by omega) (by omega) heq)
  have hlen : ((upsertsAt (2 ^ 31)).foldl (applyUpdateAction fun _ => none) (∅, 0, false)).1.entries.length
      = 0 + (2 ^ 31 * 1) := by
    rw [upsertsAt, length_foldl_upsert (fun _ => none) _ hd (∅, 0, false) (fun _ _ => rfl),
      List.length_map, List.length_range]
    rfl
  have hk := (foldl_applyUpdateAction_count (fun _ => none) (upsertsAt (2 ^ 31)) (∅, 0, false)).1
  generalize upsertsAt (2 ^ 31) = batch at hlen hk
  show (ClusterMap.new.batchModify gx (fun _ => none) none batch).total = 2 ^ 31 ∧
    (ClusterMap.new.batchModify gx (fun _ => none) none batch).numEndpoints = 0 - 2 ^ 31
  rw [batchModify_spec]
  generalize hr : applyUpdateBatchToGuard (fun _ => none)
    ((ClusterMap.new.map.lookup none).getD (EndpointSet.new gx [])).endpoints batch = r
  have hr1 : r.1.entries.length = 2 ^ 31 := by
    rw [← hr]
    exact hlen
  -- the count of `2 ^ 31` additions is `i32::MIN`
  have hr2 : r.2.1 = Int32.ofInt (2 ^ 31) := by
    rw [← hr]
    rw [hlen] at hk
    exact hk
  generalize (ClusterMap.new.map.lookup none).getD (EndpointSet.new gx []) = set0
  have hset := EndpointSet.len_batchSet gx set0 r
  generalize (if r.2.2 = true then (EndpointSet.update gx { set0 with endpoints := r.1 }).2
      else { set0 with endpoints := r.1 }) = set' at hset ⊢
  rw [if_neg (by omega)]
  have htot := AList.total_insert EndpointSet.len ClusterMap.new.map none set'
  have h0 : AList.total EndpointSet.len ClusterMap.new.map = 0 := rfl
  have h1 : (ClusterMap.new.map.lookup none).elim 0 EndpointSet.len = 0 := rfl
  rw [h0, h1] at htot
  refine ⟨?_, ?_⟩
  · show AList.total EndpointSet.len (ClusterMap.new.map.insert none set') = _
    omega
  · show (if r.2.1 > 0 then _ else _) = _
    rw [hr2]
    decide

/-- A batch of `2 ^ 31` new endpoints into the empty map: the `i32` count wraps to `i32::MIN`, and
`num_endpoints` goes down by `2 ^ 31` where the set gained `2 ^ 31` endpoints. -/
theorem numEndpoints_counts_wraps :
    (upsertsAt (2 ^ 31)).length = 2 ^ 31 ∧
      (ClusterMap.new.step firstByteHash (.batchModify (fun _ => none) none (upsertsAt (2 ^ 31)))).total
        = 2 ^ 31 ∧
      (ClusterMap.new.step firstByteHash
        (.batchModify (fun _ => none) none (upsertsAt (2 ^ 31)))).numEndpoints = 0 - 2 ^ 31 := by
  refine ⟨?_, step_batchModify_upsertsAt firstByteHash⟩
  simp only [upsertsAt, List.length_map, List.length_range]

/-! ## The version

A `WatchGuard` marks the version when it is taken and reports a change when it is dropped if the
version moved. Every operation but `corrosion_apply` that writes the map moves it; the corrosion
stream writes the map and leaves the version where it was. -/

/-- The version after a set left empty is, or is not, removed, and the version moved on. -/
theorem version_removeIfEmpty_ne (x : ClusterMap) (c : Prop) [Decidable c] (l : Option Locality) :
    (if c then (x.doRemoveLocality l).2 else x).version + 1 ≠ x.version := by
  have hone : (1 : UInt64) ≠ 0 := by decide
  by_cases hc : c
  · rw [if_pos hc]
    rcases doRemoveLocality_cases x l with ⟨-, -, -, -, hv⟩ | ⟨-, -, -, hv⟩
    · rw [hv, UInt64.add_assoc]
      exact add_ne_self_of_ne_zero (by decide)
    · rw [hv]
      exact add_ne_self_of_ne_zero hone
  · rw [if_neg hc]
    exact add_ne_self_of_ne_zero hone

/-- An operation other than `corrosion_apply` that changes the map moves the version. -/
theorem version_step_ne {op : Op} (hop : ∀ ss, op ≠ .corrosionApply ss)
    (h : (m.step gx op).map ≠ m.map) : (m.step gx op).version ≠ m.version := by
  have hone : (1 : UInt64) ≠ 0 := by decide
  cases op with
  | apply r l endpoints version =>
    cases ha : m.apply gx r l (EndpointSet.withVersion gx endpoints version) with
    | ok m' =>
      simp only [step, ha] at h ⊢
      rw [(apply_spec ha).2.2]
      exact add_ne_self_of_ne_zero hone
    | error e =>
      simp only [step, ha] at h
      exact absurd rfl h
  | insert r l cluster =>
    cases ha : m.apply gx r l (EndpointSet.new gx cluster) with
    | ok m' =>
      simp only [step, insert, ha] at h ⊢
      rw [(apply_spec ha).2.2]
      exact add_ne_self_of_ne_zero hone
    | error e =>
      simp only [step, insert, ha] at h
      exact absurd rfl h
  | partialReplace l endpoints p =>
    show (m.partialReplace gx l _ p).version ≠ _
    rw [(partialReplace_cases m l _ p).2]
    exact add_ne_self_of_ne_zero hone
  | removeLocality r l =>
    by_cases hr : m.Manages r l
    · simp only [step, removeLocality_of_manages hr] at h ⊢
      rcases doRemoveLocality_cases m l with ⟨-, -, -, -, hv⟩ | ⟨-, hmap, -, -⟩
      · rw [hv]
        exact add_ne_self_of_ne_zero hone
      · exact absurd hmap h
    · simp only [step, removeLocality_of_not_manages hr] at h
      exact absurd rfl h
  | updateUnlocatedEndpoints r loc =>
    by_cases hr : m.Manages r none
    · simp only [step] at h ⊢
      rcases lookup_updateUnlocatedEndpoints hr loc with ⟨-, hmap, -, -⟩ | ⟨-, -, -, -, hv⟩
      · exact absurd hmap h
      · rw [hv]
        exact add_ne_self_of_ne_zero hone
    · simp only [step, updateUnlocatedEndpoints_of_not_manages hr] at h
      exact absurd rfl h
  | corrosionApply ss => exact absurd rfl (hop ss)
  | removeContributor r => exact absurd rfl h
  | batchModify nameOf l batch =>
    show (m.batchModify gx nameOf l batch).version ≠ _
    rw [batchModify_spec]
    exact version_removeIfEmpty_ne _ _ l

variable (gx) in
/-- A guard taken before an operation other than `corrosion_apply` that changes the map reports
the change; one taken before `corrosion_apply` never does, whatever the stream wrote. -/
theorem hasChanged_step (m : ClusterMap) :
    (∀ op, (∀ ss, op ≠ .corrosionApply ss) → (m.step gx op).map ≠ m.map →
      (m.step gx op).hasChanged m.mark = true) ∧
    ∀ ss, (m.step gx (.corrosionApply ss)).hasChanged m.mark = false := by
  refine ⟨fun op hop h => bne_iff_ne.mpr (version_step_ne hop h), fun ss => ?_⟩
  have hv : (m.step gx (.corrosionApply ss)).version = m.version := (corrosionApply_spec m ss).2.2
  rw [hasChanged, mark, hv, bne_self_eq_false]

/-- One row for the corrosion locality, on the empty map: the locality gets a set of one
endpoint, and a guard taken before sees no change. -/
theorem hasChanged_step_corrosionRow :
    ClusterMap.new.map.lookup (some corro) = none ∧
      ((ClusterMap.new.step firstByteHash (.corrosionApply [.row (some ⟨endpointA.address, tokenOne⟩)])).map.lookup
        (some corro)).map EndpointSet.len = some 1 ∧
      (ClusterMap.new.step firstByteHash
        (.corrosionApply [.row (some ⟨endpointA.address, tokenOne⟩)])).hasChanged ClusterMap.new.mark = false :=
  ⟨rfl, rfl, (hasChanged_step firstByteHash ClusterMap.new).2 _⟩

end ClusterMap

end Quilkin.Net
