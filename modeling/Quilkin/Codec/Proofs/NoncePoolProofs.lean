import Quilkin.Codec.NoncePool
import Mathlib.Data.List.Nodup

/-!
# Proofs: every nonce is held once

Along every interleaving of leases and drops, the pool's vector and the nonces of the leases
alive are together a permutation of the nonces `NoncePool::new` made (`LeaseState.Inv`). A lease
moves a nonce from the pool to its holder (`Vec.swapRemove_perm`), a drop moves it back, and the
nonces stay where they were otherwise. Since the initial nonces are distinct, no two leases hold
one nonce, a lease hands out a nonce no lease alive holds (`LeaseState.Inv.lease_free`), and the
pool is empty, so that `lease` returns `None`, exactly when every nonce is leased. Every call the
random source and the holders can make returns (`LeaseState.step_isSome`), so every run of such
calls does.
-/

namespace Quilkin.Qcmp

/-! ## The initial nonces -/

theorem NoncePool.mem_new {nonce : UInt8} : nonce ∈ NoncePool.new.nonces ↔ nonce.toNat < 255 := by
  simp only [NoncePool.new, List.mem_map, List.mem_range]
  constructor
  · rintro ⟨n, hn, rfl⟩
    rw [UInt8.toNat_ofNat', Nat.mod_eq_of_lt (by omega)]
    exact hn
  · intro h
    exact ⟨nonce.toNat, h, UInt8.ofNat_toNat⟩

theorem NoncePool.nodup_new : NoncePool.new.nonces.Nodup := by
  refine List.Nodup.map_on ?_ List.nodup_range
  intro m hm n hn heq
  have hm' : m < 256 := by simp at hm; omega
  have hn' : n < 256 := by simp at hn; omega
  have := congrArg UInt8.toNat heq
  rwa [UInt8.toNat_ofNat', UInt8.toNat_ofNat', Nat.mod_eq_of_lt hm', Nat.mod_eq_of_lt hn'] at this

/-! ## One call -/

/-- `lease` moves the nonce it hands out, if any, from the pool to the lease, and hands none out
exactly when the pool is empty. -/
theorem NoncePool.lease_perm {pool pool' : NoncePool} {index : Nat} {lease : Option NonceLease}
    (h : pool.lease index = some (lease, pool')) :
    pool.nonces.Perm ((lease.map NonceLease.nonce).toList ++ pool'.nonces) ∧
      (lease = none ↔ pool.nonces = []) := by
  unfold NoncePool.lease at h
  by_cases hempty : pool.nonces.length = 0
  · rw [if_pos hempty] at h
    obtain ⟨rfl, rfl⟩ := Prod.mk.inj (Option.some.inj h)
    exact ⟨List.Perm.refl _, iff_of_true rfl (List.length_eq_zero_iff.mp hempty)⟩
  · rw [if_neg hempty] at h
    obtain ⟨⟨nonce, nonces⟩, hswap, hmk⟩ := Option.map_eq_some_iff.mp h
    obtain ⟨rfl, rfl⟩ := Prod.mk.inj hmk
    refine ⟨Vec.swapRemove_perm hswap, iff_of_false (by simp) ?_⟩
    exact fun hnil => hempty (List.length_eq_zero_iff.mpr hnil)

/-- `lease` returns at every index the random source can draw. -/
theorem NoncePool.lease_isSome {pool : NoncePool} {index : Nat}
    (h : index < pool.nonces.length ∨ pool.nonces = []) : (pool.lease index).isSome := by
  unfold NoncePool.lease
  by_cases hempty : pool.nonces.length = 0
  · rw [if_pos hempty]
    rfl
  · have hlt : index < pool.nonces.length :=
      h.resolve_right fun hnil => hempty (List.length_eq_zero_iff.mpr hnil)
    obtain ⟨nonce, nonces, hswap⟩ := Vec.exists_swapRemove hlt
    rw [if_neg hempty, hswap]
    rfl

/-- `lease` hands a lease out at every index the random source can draw, unless the pool is
empty. -/
theorem NoncePool.lease_eq_none_iff_of_lt {pool : NoncePool} {index : Nat}
    (h : index < pool.nonces.length ∨ pool.nonces = []) :
    (pool.lease index).map Prod.fst = some none ↔ pool.nonces = [] := by
  obtain ⟨⟨lease, pool'⟩, hlease⟩ := Option.isSome_iff_exists.mp (NoncePool.lease_isSome h)
  rw [hlease, Option.map_some, Option.some.injEq]
  exact (NoncePool.lease_perm hlease).2

/-- Every call there can be returns. -/
theorem LeaseState.step_isSome {s : LeaseState} {op : LeaseOp} (h : LeaseOp.Valid s op) :
    (s.step op).isSome := by
  cases op with
  | lease index =>
    rw [LeaseState.step, Option.isSome_map]
    exact NoncePool.lease_isSome h
  | drop holder =>
    have hlt : holder < s.leases.length := h
    rw [LeaseState.step, dif_pos hlt]
    rfl

/-! ## The invariant -/

/-- The nonces of the leases alive. -/
def LeaseState.leased (s : LeaseState) : List UInt8 := s.leases.map NonceLease.nonce

/-- Every initial nonce is in the pool or held by a lease, once. -/
def LeaseState.Inv (s : LeaseState) : Prop :=
  (s.pool.nonces ++ s.leased).Perm NoncePool.new.nonces

theorem LeaseState.inv_init : LeaseState.init.Inv := by
  simp [LeaseState.Inv, LeaseState.init, LeaseState.leased]

theorem LeaseState.Inv.lease {s s' : LeaseState} {index : Nat} (hs : s.Inv)
    (h : s.step (.lease index) = some s') : s'.Inv := by
  obtain ⟨⟨lease, pool⟩, hlease, rfl⟩ := Option.map_eq_some_iff.mp h
  have hpool := (NoncePool.lease_perm hlease).1
  -- the nonce handed out goes from the front of the pool to the end of the leases
  have hmove : (pool.nonces ++ (s.leases ++ lease.toList).map NonceLease.nonce).Perm
      ((lease.map NonceLease.nonce).toList ++ pool.nonces ++ s.leased) := by
    cases lease with
    | none => simp [LeaseState.leased]
    | some l =>
      simp only [List.map_append, Option.toList_some, List.map_cons, List.map_nil,
        Option.map_some, LeaseState.leased, List.cons_append, List.nil_append]
      rw [← List.append_assoc]
      exact List.perm_append_singleton _ _
  exact hmove.trans ((hpool.symm.append_right _).trans hs)

theorem LeaseState.Inv.drop {s s' : LeaseState} {holder : Nat} (hs : s.Inv)
    (h : s.step (.drop holder) = some s') : s'.Inv := by
  rw [LeaseState.step] at h
  split_ifs at h with hlt
  cases h
  -- the lease dropped leaves the leases for the end of the pool
  have hleases : s.leases.Perm (s.leases[holder] :: s.leases.eraseIdx holder) :=
    (List.getElem_cons_eraseIdx_perm hlt).symm
  have hmove : (s.pool.nonces ++ [s.leases[holder].nonce] ++
      (s.leases.eraseIdx holder).map NonceLease.nonce).Perm (s.pool.nonces ++ s.leased) := by
    rw [List.append_assoc, List.singleton_append]
    exact ((hleases.map NonceLease.nonce).symm).append_left _
  exact hmove.trans hs

theorem LeaseState.Inv.step {s s' : LeaseState} {op : LeaseOp} (hs : s.Inv)
    (h : s.step op = some s') : s'.Inv := by
  cases op with
  | lease index => exact hs.lease h
  | drop holder => exact hs.drop h

/-- Every state a run reaches keeps the invariant. -/
theorem LeaseState.Inv.run {s s' : LeaseState} {ops : List LeaseOp} (hs : s.Inv)
    (h : StepRun.exec LeaseState.step s ops = some s') : s'.Inv :=
  StepRun.exec_invariant LeaseState.Inv (fun _ _ _ hs hstep => hs.step hstep) h hs

/-! ## What the invariant gives -/

section Consequences

variable {s : LeaseState}

theorem LeaseState.Inv.nodup (hs : s.Inv) : (s.pool.nonces ++ s.leased).Nodup :=
  (List.Perm.nodup_iff hs).mpr NoncePool.nodup_new

theorem LeaseState.Inv.mem_iff (hs : s.Inv) {nonce : UInt8} :
    nonce ∈ s.pool.nonces ++ s.leased ↔ nonce.toNat < 255 :=
  (List.Perm.mem_iff hs).trans NoncePool.mem_new

/-- The pool is empty exactly when every initial nonce is leased. -/
theorem LeaseState.Inv.nonces_eq_nil_iff (hs : s.Inv) :
    s.pool.nonces = [] ↔ ∀ nonce : UInt8, nonce.toNat < 255 → nonce ∈ s.leased := by
  constructor
  · intro hnil nonce hlt
    have hmem := hs.mem_iff.mpr hlt
    rwa [hnil, List.nil_append] at hmem
  · intro hall
    -- a nonce in the pool would also be leased, but the two are disjoint
    apply List.eq_nil_iff_forall_not_mem.mpr
    intro nonce hpool
    have hleased := hall nonce (hs.mem_iff.mp (List.mem_append_left _ hpool))
    exact List.disjoint_of_nodup_append hs.nodup hpool hleased

/-- A lease hands out a nonce of the pool, which no lease alive holds. -/
theorem LeaseState.Inv.lease_free (hs : s.Inv) {index : Nat} {l : NonceLease} {pool : NoncePool}
    (h : s.pool.lease index = some (some l, pool)) : l.nonce.toNat < 255 ∧ l.nonce ∉ s.leased := by
  have hmem : l.nonce ∈ s.pool.nonces := (NoncePool.lease_perm h).1.mem_iff.mpr (by simp)
  refine ⟨hs.mem_iff.mp (List.mem_append_left _ hmem), fun hleased => ?_⟩
  exact List.disjoint_of_nodup_append hs.nodup hmem hleased

end Consequences

/-- Every interleaving of leases and drops from a new pool returns, and then the leases alive hold
distinct nonces, the pool and the leases together hold each nonce `0` to `254` once and no other,
`lease` returns `None`, at every index the random source can draw, exactly when every one of them
is leased, and a lease it hands out has a nonce no lease alive holds. -/
theorem LeaseState.run_leases_distinct (ops : List LeaseOp)
    (hops : StepRun.Guarded LeaseState.step LeaseOp.Valid LeaseState.init ops) :
    ∃ s, StepRun.exec LeaseState.step LeaseState.init ops = some s ∧
      s.leased.Nodup ∧ (s.pool.nonces ++ s.leased).Nodup ∧
      (∀ nonce, nonce ∈ s.pool.nonces ++ s.leased ↔ nonce.toNat < 255) ∧
      (∀ index, (index < s.pool.nonces.length ∨ s.pool.nonces = []) →
        ((s.pool.lease index).map Prod.fst = some none ↔
          ∀ nonce : UInt8, nonce.toNat < 255 → nonce ∈ s.leased)) ∧
      ∀ index l pool, s.pool.lease index = some (some l, pool) →
        l.nonce.toNat < 255 ∧ l.nonce ∉ s.leased := by
  have hstep : ∀ s op, s.Inv → LeaseOp.Valid s op → ∃ s', s.step op = some s' ∧ s'.Inv := by
    intro s op hs hop
    obtain ⟨s', h'⟩ := Option.isSome_iff_exists.mp (LeaseState.step_isSome hop)
    exact ⟨s', h', hs.step h'⟩
  obtain ⟨s, hrun, hs⟩ := StepRun.exec_eq_some_guarded LeaseState.Inv hstep hops LeaseState.inv_init
  refine ⟨s, hrun, hs.nodup.of_append_right, hs.nodup, fun _ => hs.mem_iff, ?_,
    fun _ _ _ h => hs.lease_free h⟩
  intro index hindex
  rw [NoncePool.lease_eq_none_iff_of_lt hindex, hs.nonces_eq_nil_iff]

/-- Two leases, each at the first index of the vector. -/
def leaseTwice : List LeaseOp := [.lease 0, .lease 0]

theorem LeaseState.run_leases_distinct_leaseTwice :
    ∃ s, StepRun.exec LeaseState.step LeaseState.init leaseTwice = some s ∧
      s.leased.Nodup ∧ (s.pool.nonces ++ s.leased).Nodup ∧
      (∀ nonce, nonce ∈ s.pool.nonces ++ s.leased ↔ nonce.toNat < 255) ∧
      (∀ index, (index < s.pool.nonces.length ∨ s.pool.nonces = []) →
        ((s.pool.lease index).map Prod.fst = some none ↔
          ∀ nonce : UInt8, nonce.toNat < 255 → nonce ∈ s.leased)) ∧
      ∀ index l pool, s.pool.lease index = some (some l, pool) →
        l.nonce.toNat < 255 ∧ l.nonce ∉ s.leased := by
  -- the first index is one the random source can draw, whatever the pool holds
  have hzero : ∀ s : LeaseState, LeaseOp.Valid s (.lease 0) := by
    intro s
    cases h : s.pool.nonces with
    | nil => exact .inr h
    | cons n ns => exact .inl (by simp [h])
  exact LeaseState.run_leases_distinct leaseTwice ⟨hzero _, fun _ _ => ⟨hzero _, fun _ _ => trivial⟩⟩

end Quilkin.Qcmp
