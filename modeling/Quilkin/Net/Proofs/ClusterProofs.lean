import Quilkin.Net.Cluster
import Quilkin.Corrosion.Proofs.TokenSetProofs

/-!
# Proofs: the token index of a cluster map

The token map of an endpoint set indexes exactly its endpoints whenever it is built from them
(`mem_tokenMapOf`), which `new`, `with_version`, `replace` and `partial_replace` all do. The
global token map is another matter. It is written hash by hash: `apply` and `partial_replace` set
every hash the set held before or holds now to the set's new addresses (`applyTokenMapDiff_eq`),
whatever other localities hold for it, and `remove_locality` and `update_unlocated_endpoints` do
not write it at all. So the global map indexes the localities (`ClusterMap.Exact`) only along runs
in which no two localities share the hash of a token and no locality holding tokens is dropped
(`run_exact`); one `apply` that shares a hash hides the other locality's endpoints, and one
`remove_locality` leaves its endpoints behind (`addressesForToken_diverges`).
-/

namespace Quilkin.Net

open Corrosion (TokenSet)

variable (gx : GxHash)

/-! ## The token map of an endpoint set -/

/-- The endpoints hold one at `a` with a token of hash `t`. -/
def HoldsToken (endpoints : InnerMap) (a : EndpointAddress) (t : UInt64) : Prop :=
  ∃ md, endpoints.lookup a = some md ∧ ∃ tok ∈ md.known.tokens, gx.gxhash64 tok = t

/-- The loops of `build_token_map` index every endpoint under the hashes of its tokens, and
nothing else. -/
theorem mem_tokenMapOf {endpoints : InnerMap} {a : EndpointAddress} {t : UInt64} :
    a ∈ EndpointSet.tokenMapOf gx endpoints t ↔ HoldsToken gx endpoints a t := by
  unfold EndpointSet.tokenMapOf
  refine (Multimap.mem_foldl_foldl_insertAt gx.gxhash64
    (fun e : Sigma fun _ : EndpointAddress => EndpointMetadata => e.1)
    (fun e => e.2.known.tokens.toSet.toList) _ _).trans ?_
  simp only [Multimap.empty_apply, Finset.notMem_empty, false_or]
  constructor
  · rintro ⟨e, he, rfl, tok, htok, ht⟩
    exact ⟨e.2, AList.mem_lookup_iff.mpr he, tok, TokenSet.mem_iff.mpr htok, ht⟩
  · rintro ⟨md, hmd, tok, htok, ht⟩
    exact ⟨⟨a, md⟩, AList.mem_lookup_iff.mp hmd, rfl, tok, TokenSet.mem_iff.mp htok, ht⟩

theorem tokenMapOf_eq_empty {endpoints : InnerMap} {t : UInt64} :
    EndpointSet.tokenMapOf gx endpoints t = ∅ ↔ ∀ a, ¬HoldsToken gx endpoints a t := by
  rw [Finset.eq_empty_iff_forall_notMem]
  exact forall_congr' fun a => not_congr (mem_tokenMapOf gx)

namespace EndpointSet

/-- The set's token map is the one built from its endpoints. -/
def Consistent (es : EndpointSet) : Prop := es.tokenMap = tokenMapOf gx es.endpoints

theorem Consistent.mem_iff {es : EndpointSet} (h : es.Consistent gx) {a : EndpointAddress}
    {t : UInt64} : a ∈ es.tokenMap t ↔ HoldsToken gx es.endpoints a t := by
  rw [h, mem_tokenMapOf]

theorem consistent_update (es : EndpointSet) : (update gx es).2.Consistent gx := rfl

theorem consistent_buildTokenMap (es : EndpointSet) : (buildTokenMap gx es).2.Consistent gx := rfl

theorem consistent_new (endpoints : List Endpoint) : (new gx endpoints).Consistent gx := rfl

theorem consistent_withVersion (endpoints : List Endpoint) (hash : UInt64) :
    (withVersion gx endpoints hash).Consistent gx := rfl

/-- `replace` takes the replacement's endpoints, rebuilds the token map, and diffs it against the
old one. -/
theorem replace_spec (es replacement : EndpointSet) :
    (es.replace gx replacement).1.endpoints = replacement.endpoints ∧
    (es.replace gx replacement).1.Consistent gx ∧
    (es.replace gx replacement).2.2 =
      tokenMapDiff es.tokenMap (tokenMapOf gx replacement.endpoints) := by
  unfold replace
  split_ifs <;> exact ⟨rfl, rfl, rfl⟩

/-- `partial_replace` rebuilds the token map and diffs it against the old one. -/
theorem partialReplace_spec (es replacement : EndpointSet)
    (shouldBeReplaced : EndpointMetadata → Bool) :
    (es.partialReplace gx replacement shouldBeReplaced).1.Consistent gx ∧
    (es.partialReplace gx replacement shouldBeReplaced).2.2.2 =
      tokenMapDiff es.tokenMap
        (tokenMapOf gx (es.partialReplace gx replacement shouldBeReplaced).1.endpoints) :=
  ⟨rfl, rfl⟩

end EndpointSet

/-! ## Writing the global token map -/

/-- Writing the diff of `old` and `new` sets every hash of either map to its addresses in `new`,
and leaves every other hash alone. -/
theorem applyTokenMapDiff_eq (g old new : TokenAddressMap) (t : UInt64) :
    applyTokenMapDiff g (tokenMapDiff old new) t =
      if old t = ∅ ∧ new t = ∅ then g t else new t := by
  by_cases ho : old t = ∅
  · by_cases hn : new t = ∅
    · simp [applyTokenMapDiff, tokenMapDiff, ho, hn]
    · simp [applyTokenMapDiff, tokenMapDiff, ho, hn]
  · -- a hash of `old`: removed, changed, or listed by the second loop
    by_cases hn : new t = ∅
    · simp [applyTokenMapDiff, tokenMapDiff, ho, hn]
    · by_cases hd : (symmDiff (old t) (new t)).card > 0
      · simp [applyTokenMapDiff, tokenMapDiff, ho, hn, hd]
      · simp [applyTokenMapDiff, tokenMapDiff, ho, hn, hd]

theorem insertTokenMap_eq (g new : TokenAddressMap) (t : UInt64) :
    insertTokenMap g new t = if new t = ∅ then g t else new t := rfl

/-! ## Token maps with their keys -/

namespace Keyed

/-- Writing the diff of `old` and `new` sets every key of either map as `new` has it, and leaves
every other hash alone. -/
theorem applyTokenMapDiff_eq (g old new : TokenAddressMap) (t : UInt64) :
    applyTokenMapDiff g (tokenMapDiff old new) t =
      if old t = none ∧ new t = none then g t else new t := by
  cases ho : old t with
  | none => cases hn : new t <;> simp [applyTokenMapDiff, tokenMapDiff, ho, hn]
  | some addrs =>
    cases hn : new t with
    | none => simp [applyTokenMapDiff, tokenMapDiff, ho, hn]
    | some naddrs =>
      -- listed by the first loop when the sets differ, by the second when they do not
      by_cases hd : (symmDiff addrs naddrs).card > 0 <;>
        simp [applyTokenMapDiff, tokenMapDiff, ho, hn, hd]

/-- A map whose keys all hold some address, as the maps the cluster builds. -/
def NoEmptyKey (tokenMap : TokenAddressMap) : Prop :=
  ∀ t addrs, tokenMap t = some addrs → addrs.Nonempty

/-- Writing a diff commutes with forgetting the keys. -/
theorem toMultimap_applyTokenMapDiff (g : TokenAddressMap) (diff : TokenMapDiff) :
    toMultimap (applyTokenMapDiff g diff) = Quilkin.Net.applyTokenMapDiff (toMultimap g) diff := by
  funext t
  simp only [toMultimap, applyTokenMapDiff, Quilkin.Net.applyTokenMapDiff]
  split <;> rfl

/-- On maps that leave no key empty, the diff is the diff of the maps without their keys. -/
theorem tokenMapDiff_eq_of_noEmptyKey {old new : TokenAddressMap} (hold : NoEmptyKey old)
    (hnew : NoEmptyKey new) :
    tokenMapDiff old new = Quilkin.Net.tokenMapDiff (toMultimap old) (toMultimap new) := by
  funext t
  cases ho : old t with
  | none =>
    cases hn : new t with
    | none => simp [tokenMapDiff, Quilkin.Net.tokenMapDiff, toMultimap, ho, hn]
    | some naddrs =>
      have hne' := Finset.nonempty_iff_ne_empty.mp (hnew t naddrs hn)
      simp [tokenMapDiff, Quilkin.Net.tokenMapDiff, toMultimap, ho, hn, hne']
  | some addrs =>
    have hne := Finset.nonempty_iff_ne_empty.mp (hold t addrs ho)
    cases hn : new t with
    | none => simp [tokenMapDiff, Quilkin.Net.tokenMapDiff, toMultimap, ho, hn, hne]
    | some naddrs =>
      have hne' := Finset.nonempty_iff_ne_empty.mp (hnew t naddrs hn)
      by_cases hd : (symmDiff addrs naddrs).card > 0 <;>
        simp [tokenMapDiff, Quilkin.Net.tokenMapDiff, toMultimap, ho, hn, hne, hne', hd]

/-- Applying `token_map_diff(old, new)` to `old` gives `new`: on maps with their keys, where a
key may hold an empty set, and on the maps without their keys. -/
theorem applyTokenMapDiff_tokenMapDiff :
    (∀ old new : TokenAddressMap, applyTokenMapDiff old (tokenMapDiff old new) = new) ∧
      ∀ old new : Quilkin.Net.TokenAddressMap,
        Quilkin.Net.applyTokenMapDiff old (Quilkin.Net.tokenMapDiff old new) = new := by
  constructor
  · intro old new
    funext t
    rw [applyTokenMapDiff_eq]
    split_ifs with h
    · rw [h.1, h.2]
    · rfl
  · intro old new
    funext t
    rw [Quilkin.Net.applyTokenMapDiff_eq]
    split_ifs with h
    · rw [h.1, h.2]
    · rfl

end Keyed

/-! ## The index the global token map should be -/

namespace ClusterMap

/-- The set of locality `l` holds an endpoint at `a` with a token of hash `t`. -/
def HoldsAt (m : ClusterMap) (l : Option Locality) (a : EndpointAddress) (t : UInt64) : Prop :=
  ∃ es, m.map.lookup l = some es ∧ HoldsToken gx es.endpoints a t

/-- Some locality holds an endpoint at `a` with a token of hash `t`. -/
def Holds (m : ClusterMap) (a : EndpointAddress) (t : UInt64) : Prop := ∃ l, m.HoldsAt gx l a t

/-- The global token map indexes the localities: `addresses_for_token` gives, for a token, the
addresses of exactly the endpoints that some locality holds with a token of the same hash. -/
def Exact (m : ClusterMap) : Prop := ∀ t a, a ∈ m.tokenMap t ↔ m.Holds gx a t

/-- The token map of every locality's set is built from its endpoints. -/
def SetsConsistent (m : ClusterMap) : Prop :=
  ∀ l es, m.map.lookup l = some es → es.Consistent gx

/-- No remote address but `remoteAddr` manages the locality. -/
def Manages (m : ClusterMap) (remoteAddr : Option IpAddr) (locality : Option Locality) : Prop :=
  (m.localities.lookup locality).any (· != remoteAddr) = false

instance (m : ClusterMap) (remoteAddr : Option IpAddr) (locality : Option Locality) :
    Decidable (m.Manages remoteAddr locality) :=
  inferInstanceAs (Decidable (_ = false))

/-- Going from `m` to `m'`, the hashes that locality `l` holds, before or after, are held by no
other locality. -/
def Isolated (m m' : ClusterMap) (l : Option Locality) : Prop :=
  ∀ t, (∃ a, m.HoldsAt gx l a t ∨ m'.HoldsAt gx l a t) →
    ∀ l' a, l' ≠ l → ¬m.HoldsAt gx l' a t

variable {gx} {m m' : ClusterMap} {r : Option IpAddr} {l : Option Locality} {c es' : EndpointSet}

theorem holdsAt_of_lookup_eq {l' : Option Locality} (h : m'.map.lookup l' = m.map.lookup l')
    {a : EndpointAddress} {t : UInt64} : m'.HoldsAt gx l' a t ↔ m.HoldsAt gx l' a t := by
  simp only [HoldsAt, h]

theorem not_holdsAt_of_lookup_eq_none {l' : Option Locality} (h : m.map.lookup l' = none)
    {a : EndpointAddress} {t : UInt64} : ¬m.HoldsAt gx l' a t := by
  rintro ⟨es, hes, -⟩
  rw [h] at hes
  cases hes

theorem holdsAt_iff_mem (hsets : m.SetsConsistent gx) {es : EndpointSet}
    (hl : m.map.lookup l = some es) {a : EndpointAddress} {t : UInt64} :
    m.HoldsAt gx l a t ↔ a ∈ es.tokenMap t := by
  rw [(hsets l es hl).mem_iff]
  constructor
  · rintro ⟨es', hes', h⟩
    rw [hl] at hes'
    cases hes'
    exact h
  · exact fun h => ⟨es, hl, h⟩

/-- A write of the sets of one locality `l` and of the global token map keeps the index exact if
every hash `l` holds, before or after, takes `l`'s new addresses and is held by no other
locality, and every other hash keeps its addresses. -/
theorem exact_of_write (hex : m.Exact gx) (hiso : m.Isolated gx m' l)
    (hframe : ∀ l', l' ≠ l → m'.map.lookup l' = m.map.lookup l')
    (htouched : ∀ t, (∃ a, m.HoldsAt gx l a t ∨ m'.HoldsAt gx l a t) →
      ∀ a, a ∈ m'.tokenMap t ↔ m'.HoldsAt gx l a t)
    (hrest : ∀ t, (∀ a, ¬m.HoldsAt gx l a t ∧ ¬m'.HoldsAt gx l a t) →
      m'.tokenMap t = m.tokenMap t) :
    m'.Exact gx := by
  intro t a
  by_cases ht : ∃ a, m.HoldsAt gx l a t ∨ m'.HoldsAt gx l a t
  · -- a hash of `l`: its addresses are those of `l`, the only locality holding it
    rw [htouched t ht]
    constructor
    · exact fun h => ⟨l, h⟩
    · rintro ⟨l', h⟩
      by_cases hl : l' = l
      · exact hl ▸ h
      · exact absurd ((holdsAt_of_lookup_eq (hframe l' hl)).mp h) (hiso t ht l' a hl)
  · -- another hash: `l` holds it neither before nor after, and the other localities are unchanged
    simp only [not_exists, not_or] at ht
    rw [hrest t ht, hex t a]
    constructor
    · rintro ⟨l', h⟩
      have hl : l' ≠ l := by
        rintro rfl
        exact (ht a).1 h
      exact ⟨l', (holdsAt_of_lookup_eq (hframe l' hl)).mpr h⟩
    · rintro ⟨l', h⟩
      have hl : l' ≠ l := by
        rintro rfl
        exact (ht a).2 h
      exact ⟨l', (holdsAt_of_lookup_eq (hframe l' hl)).mp h⟩

/-- The writes of `apply` and `partial_replace`: the set of `l` becomes `es'`, built from its
endpoints, and the global token map takes `es'`'s addresses for every hash that `l` held or
holds. -/
theorem exact_of_replace (hex : m.Exact gx) (hsets : m.SetsConsistent gx)
    (hes' : es'.Consistent gx) (hiso : m.Isolated gx m' l)
    (hmap : m'.map = m.map.insert l es')
    (htouched : ∀ t, ((∃ es, m.map.lookup l = some es ∧ es.tokenMap t ≠ ∅) ∨ es'.tokenMap t ≠ ∅) →
      m'.tokenMap t = es'.tokenMap t)
    (hrest : ∀ t, (∀ es, m.map.lookup l = some es → es.tokenMap t = ∅) → es'.tokenMap t = ∅ →
      m'.tokenMap t = m.tokenMap t) :
    m'.Exact gx ∧ m'.SetsConsistent gx := by
  have hl' : m'.map.lookup l = some es' := by rw [hmap, AList.lookup_insert]
  have hframe : ∀ l₁, l₁ ≠ l → m'.map.lookup l₁ = m.map.lookup l₁ := fun l₁ h => by
    rw [hmap, AList.lookup_insert_ne h]
  have hsets' : m'.SetsConsistent gx := by
    intro l₁ es₁ h₁
    by_cases hl : l₁ = l
    · subst hl
      rw [hl'] at h₁
      cases h₁
      exact hes'
    · exact hsets l₁ es₁ (by rw [← hframe l₁ hl, h₁])
  refine ⟨exact_of_write hex hiso hframe (fun t ht a => ?_) (fun t ht => hrest t ?_ ?_), hsets'⟩
  · rw [holdsAt_iff_mem hsets' hl', htouched t ?_]
    obtain ⟨b, hb | hb⟩ := ht
    · obtain ⟨es, hes, hh⟩ := hb
      exact .inl ⟨es, hes, Finset.ne_empty_of_mem ((holdsAt_iff_mem hsets hes).mp ⟨es, hes, hh⟩)⟩
    · exact .inr (Finset.ne_empty_of_mem ((holdsAt_iff_mem hsets' hl').mp hb))
  · intro es hes
    exact Finset.eq_empty_of_forall_notMem fun b hb => (ht b).1 ((holdsAt_iff_mem hsets hes).mpr hb)
  · exact Finset.eq_empty_of_forall_notMem fun b hb => (ht b).2 ((holdsAt_iff_mem hsets' hl').mpr hb)

/-! ## `apply` -/

/-- The write of `apply` once the manager check has passed, `loc` being the managers after it. -/
theorem apply_write (loc : AList fun _ : Option Locality => Option IpAddr)
    (h : (match m.map.lookup l with
      | some current =>
        Except.ok { m with
          localities := loc
          map := m.map.insert l (current.replace gx c).1
          numEndpoints := adjustNumEndpoints m.numEndpoints c.len (current.replace gx c).2.1
          version := m.version + 1
          tokenMap := applyTokenMapDiff m.tokenMap (current.replace gx c).2.2 }
      | none =>
        Except.ok { m with
          localities := loc
          tokenMap := insertTokenMap m.tokenMap c.tokenMap
          map := m.map.insert l c
          numEndpoints := m.numEndpoints + c.len.toUInt64
          version := m.version + 1 } : Except SkippingClusterApply ClusterMap) = .ok m') :
    ((∃ current, m.map.lookup l = some current ∧
        m'.map = m.map.insert l (current.replace gx c).1 ∧
        m'.tokenMap = applyTokenMapDiff m.tokenMap (current.replace gx c).2.2 ∧
        m'.numEndpoints = adjustNumEndpoints m.numEndpoints c.len (current.replace gx c).2.1) ∨
     (m.map.lookup l = none ∧ m'.map = m.map.insert l c ∧
        m'.tokenMap = insertTokenMap m.tokenMap c.tokenMap ∧
        m'.numEndpoints = m.numEndpoints + c.len.toUInt64)) ∧
    m'.version = m.version + 1 := by
  cases hl : m.map.lookup l with
  | some current =>
    simp only [hl, Except.ok.injEq] at h
    subst h
    exact ⟨.inl ⟨current, rfl, rfl, rfl, rfl⟩, rfl⟩
  | none =>
    simp only [hl, Except.ok.injEq] at h
    subst h
    exact ⟨.inr ⟨rfl, rfl, rfl, rfl⟩, rfl⟩

/-- What `apply` does when it succeeds: the manager check passed, the set of the locality was
replaced, or added, with the token map and the count, and the version moved on. -/
theorem apply_spec (h : m.apply gx r l c = .ok m') :
    m.Manages r l ∧
    ((∃ current, m.map.lookup l = some current ∧
        m'.map = m.map.insert l (current.replace gx c).1 ∧
        m'.tokenMap = applyTokenMapDiff m.tokenMap (current.replace gx c).2.2 ∧
        m'.numEndpoints = adjustNumEndpoints m.numEndpoints c.len (current.replace gx c).2.1) ∨
     (m.map.lookup l = none ∧ m'.map = m.map.insert l c ∧
        m'.tokenMap = insertTokenMap m.tokenMap c.tokenMap ∧
        m'.numEndpoints = m.numEndpoints + c.len.toUInt64)) ∧
    m'.version = m.version + 1 := by
  unfold apply at h
  simp only [bind, Except.bind, pure, Except.pure] at h
  cases hloc : m.localities.lookup l with
  | none =>
    simp only [hloc] at h
    exact ⟨by simp [Manages, hloc], apply_write _ h⟩
  | some raddr =>
    by_cases hr : raddr = r
    · subst hr
      simp only [hloc, ne_eq, not_true_eq_false, ↓reduceIte] at h
      exact ⟨by simp [Manages, hloc], apply_write _ h⟩
    · simp only [hloc, ne_eq, hr, not_false_eq_true, ↓reduceIte, reduceCtorEq] at h

/-- `apply` succeeds exactly when the manager check passes. -/
theorem apply_ok (h : m.Manages r l) (c : EndpointSet) : ∃ m', m.apply gx r l c = .ok m' := by
  unfold apply
  simp only [bind, Except.bind, pure, Except.pure]
  cases hloc : m.localities.lookup l with
  | none =>
    simp only
    split <;> exact ⟨_, rfl⟩
  | some raddr =>
    have hr : raddr = r := by simpa [Manages, hloc] using h
    subst hr
    simp only [ne_eq, not_true_eq_false, ↓reduceIte]
    split <;> exact ⟨_, rfl⟩

/-- After `apply` of a set built from its endpoints, the locality holds what the set holds, and
every hash the set holds has the set's addresses in the global token map, whatever other
localities hold. -/
theorem apply_holds (hc : c.Consistent gx) (h : m.apply gx r l c = .ok m') :
    (∀ a t, m'.HoldsAt gx l a t ↔ HoldsToken gx c.endpoints a t) ∧
    (∀ l', l' ≠ l → m'.map.lookup l' = m.map.lookup l') ∧
    ∀ t, (∃ b, HoldsToken gx c.endpoints b t) → m'.tokenMap t = c.tokenMap t := by
  obtain ⟨-, ⟨current, hcur, hmap, htm, -⟩ | ⟨hnone, hmap, htm, -⟩, -⟩ := apply_spec h
  all_goals refine ⟨fun a t => ?_, fun l' hl' => by rw [hmap, AList.lookup_insert_ne hl'],
    fun t ⟨b, hb⟩ => ?_⟩
  · obtain ⟨hendpoints, -, hdiff⟩ := EndpointSet.replace_spec gx current c
    simp only [HoldsAt, hmap, AList.lookup_insert, Option.some.injEq, exists_eq_left', hendpoints]
  · obtain ⟨-, -, hdiff⟩ := EndpointSet.replace_spec gx current c
    have hne : EndpointSet.tokenMapOf gx c.endpoints t ≠ ∅ :=
      Finset.ne_empty_of_mem ((mem_tokenMapOf gx).mpr hb)
    rw [htm, hdiff, applyTokenMapDiff_eq, if_neg (fun h => hne h.2), hc]
  · simp only [HoldsAt, hmap, AList.lookup_insert, Option.some.injEq, exists_eq_left']
  · have hne : c.tokenMap t ≠ ∅ := Finset.ne_empty_of_mem ((hc.mem_iff gx).mpr hb)
    rw [htm, insertTokenMap_eq, if_neg hne]

/-- `apply` only adds or replaces the set of its locality: a locality that has a set keeps one. -/
theorem isSome_lookup_apply (h : m.apply gx r l c = .ok m') {l' : Option Locality}
    (hs : (m.map.lookup l').isSome) : (m'.map.lookup l').isSome := by
  obtain ⟨-, ⟨current, -, hmap, -⟩ | ⟨-, hmap, -⟩, -⟩ := apply_spec h
  all_goals
    rw [hmap]
    by_cases hl : l' = l
    · subst hl
      simp only [AList.lookup_insert, Option.isSome_some]
    · rwa [AList.lookup_insert_ne hl]

/-- A write that replaces the set of `l` by `es'` and writes the diff of the two token maps. -/
theorem exact_of_diff (hex : m.Exact gx) (hsets : m.SetsConsistent gx) (hes' : es'.Consistent gx)
    (hiso : m.Isolated gx m' l) {current : EndpointSet} (hcur : m.map.lookup l = some current)
    (hmap : m'.map = m.map.insert l es')
    (htm : m'.tokenMap = applyTokenMapDiff m.tokenMap (tokenMapDiff current.tokenMap es'.tokenMap)) :
    m'.Exact gx ∧ m'.SetsConsistent gx := by
  refine exact_of_replace hex hsets hes' hiso hmap (fun t ht => ?_) (fun t hold hnew => ?_)
  · rw [htm, applyTokenMapDiff_eq]
    refine if_neg fun hempty => ?_
    rcases ht with ⟨es, hes, hne⟩ | hne
    · rw [hcur] at hes
      cases hes
      exact hne hempty.1
    · exact hne hempty.2
  · rw [htm, applyTokenMapDiff_eq, if_pos ⟨hold current hcur, hnew⟩]

/-- A write that adds `es'` as the set of `l`, which had none, and copies its token map. -/
theorem exact_of_insertTokenMap (hex : m.Exact gx) (hsets : m.SetsConsistent gx)
    (hes' : es'.Consistent gx) (hiso : m.Isolated gx m' l) (hnone : m.map.lookup l = none)
    (hmap : m'.map = m.map.insert l es')
    (htm : m'.tokenMap = insertTokenMap m.tokenMap es'.tokenMap) :
    m'.Exact gx ∧ m'.SetsConsistent gx := by
  refine exact_of_replace hex hsets hes' hiso hmap (fun t ht => ?_) (fun t _ hnew => ?_)
  · rw [htm, insertTokenMap_eq]
    refine if_neg fun hempty => ?_
    rcases ht with ⟨es, hes, -⟩ | hne
    · rw [hnone] at hes
      cases hes
    · exact hne hempty
  · rw [htm, insertTokenMap_eq, if_pos hnew]

/-- `apply` of a set built from its endpoints keeps the index exact when no other locality holds
a hash that the locality held or holds. -/
theorem exact_apply (hex : m.Exact gx) (hsets : m.SetsConsistent gx) (hc : c.Consistent gx)
    (h : m.apply gx r l c = .ok m') (hiso : m.Isolated gx m' l) :
    m'.Exact gx ∧ m'.SetsConsistent gx := by
  obtain ⟨-, ⟨current, hcur, hmap, htm, -⟩ | ⟨hnone, hmap, htm, -⟩, -⟩ := apply_spec h
  · obtain ⟨hendpoints, hcons, hdiff⟩ := EndpointSet.replace_spec gx current c
    refine exact_of_diff hex hsets hcons hiso hcur hmap ?_
    rw [htm, hdiff, hcons, hendpoints]
  · exact exact_of_insertTokenMap hex hsets hc hiso hnone hmap htm

/-! ## `partial_replace` -/

/-- What `partial_replace` does: the set of the locality is partially replaced, or added, with the
token map and the count, and the version moves on. -/
theorem partialReplace_cases (m : ClusterMap) (l : Option Locality) (es : EndpointSet)
    (p : EndpointMetadata → Bool) :
    ((∃ current, m.map.lookup l = some current ∧
        (m.partialReplace gx l es p).map = m.map.insert l (current.partialReplace gx es p).1 ∧
        (m.partialReplace gx l es p).tokenMap =
          applyTokenMapDiff m.tokenMap (current.partialReplace gx es p).2.2.2 ∧
        (m.partialReplace gx l es p).numEndpoints = adjustNumEndpoints m.numEndpoints
          (current.partialReplace gx es p).2.1 (current.partialReplace gx es p).2.2.1) ∨
      (m.map.lookup l = none ∧ (m.partialReplace gx l es p).map = m.map.insert l es ∧
        (m.partialReplace gx l es p).tokenMap = insertTokenMap m.tokenMap es.tokenMap ∧
        (m.partialReplace gx l es p).numEndpoints = m.numEndpoints + es.len.toUInt64)) ∧
    (m.partialReplace gx l es p).version = m.version + 1 := by
  unfold partialReplace
  cases hl : m.map.lookup l with
  | some current => exact ⟨.inl ⟨current, rfl, rfl, rfl, rfl⟩, rfl⟩
  | none => exact ⟨.inr ⟨rfl, rfl, rfl, rfl⟩, rfl⟩

/-- `partial_replace` with a set built from its endpoints keeps the index exact when no other
locality holds a hash that the locality held or holds. -/
theorem exact_partialReplace (hex : m.Exact gx) (hsets : m.SetsConsistent gx)
    (hes : c.Consistent gx) (p : EndpointMetadata → Bool)
    (hiso : m.Isolated gx (m.partialReplace gx l c p) l) :
    (m.partialReplace gx l c p).Exact gx ∧ (m.partialReplace gx l c p).SetsConsistent gx := by
  rcases partialReplace_cases m l c p with ⟨⟨current, hcur, hmap, htm, -⟩ | ⟨hnone, hmap, htm, -⟩, -⟩
  · obtain ⟨hcons, hdiff⟩ := EndpointSet.partialReplace_spec gx current c p
    refine exact_of_diff hex hsets hcons hiso hcur hmap ?_
    rw [htm, hdiff, hcons]
  · exact exact_of_insertTokenMap hex hsets hes hiso hnone hmap htm

/-! ## Removing and moving localities -/

theorem removeLocality_of_manages (h : m.Manages r l) :
    m.removeLocality r l = m.doRemoveLocality l := by
  unfold Manages at h
  unfold removeLocality
  rw [h]
  rfl

theorem removeLocality_of_not_manages (h : ¬m.Manages r l) : m.removeLocality r l = (none, m) := by
  unfold Manages at h
  rw [Bool.not_eq_false] at h
  simp only [removeLocality, h, ↓reduceIte]

theorem tokenMap_doRemoveLocality (m : ClusterMap) (l : Option Locality) :
    (m.doRemoveLocality l).2.tokenMap = m.tokenMap := by
  dsimp only [doRemoveLocality]
  split <;> rfl

theorem lookup_doRemoveLocality (m : ClusterMap) (l l' : Option Locality) :
    (m.doRemoveLocality l).2.map.lookup l' = if l' = l then none else m.map.lookup l' := by
  dsimp only [doRemoveLocality]
  split
  · split_ifs with hl
    · subst hl
      exact AList.lookup_erase _ _
    · exact AList.lookup_erase_ne hl
  · rename_i hnone
    split_ifs with hl
    · subst hl
      exact hnone
    · rfl

/-- `remove_locality` leaves the other localities' sets alone. -/
theorem lookup_removeLocality_ne (m : ClusterMap) (r : Option IpAddr) {l l' : Option Locality}
    (h : l' ≠ l) : (m.removeLocality r l).2.map.lookup l' = m.map.lookup l' := by
  unfold removeLocality
  split_ifs
  · rfl
  · rw [lookup_doRemoveLocality, if_neg h]

/-- Removing a locality keeps the index exact when its set holds no token. -/
theorem exact_doRemoveLocality (hex : m.Exact gx) (hsets : m.SetsConsistent gx)
    (hempty : ∀ a t, ¬m.HoldsAt gx l a t) :
    (m.doRemoveLocality l).2.Exact gx ∧ (m.doRemoveLocality l).2.SetsConsistent gx := by
  have hframe : ∀ l', l' ≠ l → (m.doRemoveLocality l).2.map.lookup l' = m.map.lookup l' :=
    fun l' hl => by rw [lookup_doRemoveLocality, if_neg hl]
  have hgone : ∀ a t, ¬(m.doRemoveLocality l).2.HoldsAt gx l a t := fun a t =>
    not_holdsAt_of_lookup_eq_none (by rw [lookup_doRemoveLocality, if_pos rfl])
  -- no hash is written: `l` held none before and holds none after
  have huntouched : ∀ t, ¬∃ a, m.HoldsAt gx l a t ∨ (m.doRemoveLocality l).2.HoldsAt gx l a t :=
    fun t ⟨a, h⟩ => h.elim (hempty a t) (hgone a t)
  refine ⟨exact_of_write hex (fun t ht => absurd ht (huntouched t)) hframe
    (fun t ht => absurd ht (huntouched t)) (fun t _ => by rw [tokenMap_doRemoveLocality]), ?_⟩
  intro l' es h
  by_cases hl : l' = l
  · rw [hl, lookup_doRemoveLocality, if_pos rfl] at h
    cases h
  · exact hsets l' es (by rw [← hframe l' hl, h])

theorem updateUnlocatedEndpoints_of_not_manages (h : ¬m.Manages r none) (loc : Locality) :
    m.updateUnlocatedEndpoints r loc = m := by
  unfold Manages at h
  rw [Bool.not_eq_false] at h
  simp only [updateUnlocatedEndpoints, h, ↓reduceIte]

theorem tokenMap_updateUnlocatedEndpoints (m : ClusterMap) (r : Option IpAddr) (loc : Locality) :
    (m.updateUnlocatedEndpoints r loc).tokenMap = m.tokenMap := by
  dsimp only [updateUnlocatedEndpoints]
  split_ifs
  · rfl
  · split
    · rfl
    · split <;> rfl

/-- When the endpoints without a locality may be moved: their set, if any, becomes the set of
`loc`, and nothing else changes. -/
theorem lookup_updateUnlocatedEndpoints (h : m.Manages r none) (loc : Locality) :
    (m.map.lookup none = none ∧ (m.updateUnlocatedEndpoints r loc).map = m.map ∧
      (m.updateUnlocatedEndpoints r loc).numEndpoints = m.numEndpoints ∧
      (m.updateUnlocatedEndpoints r loc).version = m.version) ∨
      ∃ set, m.map.lookup none = some set ∧
        (m.updateUnlocatedEndpoints r loc).map = (m.map.erase none).insert (some loc) set ∧
        (m.updateUnlocatedEndpoints r loc).numEndpoints =
          m.numEndpoints - ((m.map.lookup (some loc)).elim 0 EndpointSet.len).toUInt64 ∧
        (m.updateUnlocatedEndpoints r loc).version = m.version + 1 := by
  unfold Manages at h
  dsimp only [updateUnlocatedEndpoints]
  rw [h]
  simp only [Bool.false_eq_true, ↓reduceIte]
  cases hn : m.map.lookup none with
  | none =>
    dsimp only
    exact .inl ⟨rfl, rfl, rfl, rfl⟩
  | some set =>
    dsimp only
    -- the set it replaces, if any, is looked up in the map without `none`
    have hloc : (m.map.erase none).lookup (some loc) = m.map.lookup (some loc) :=
      AList.lookup_erase_ne (Option.some_ne_none loc)
    refine .inr ⟨set, rfl, ?_⟩
    split
    · rename_i replaced hreplaced
      rw [hloc] at hreplaced
      rw [hreplaced]
      exact ⟨rfl, rfl, rfl⟩
    · rename_i hnone
      rw [hloc] at hnone
      rw [hnone]
      exact ⟨rfl, by simp, rfl⟩

/-- The map depends on the sets and the global token map only. -/
theorem exact_of_lookup_eq (hmap : ∀ l, m'.map.lookup l = m.map.lookup l)
    (htm : m'.tokenMap = m.tokenMap) (hex : m.Exact gx) (hsets : m.SetsConsistent gx) :
    m'.Exact gx ∧ m'.SetsConsistent gx := by
  have hholds : ∀ a t, m'.Holds gx a t ↔ m.Holds gx a t := fun a t =>
    exists_congr fun l => holdsAt_of_lookup_eq (hmap l)
  exact ⟨fun t a => by rw [htm, hex t a, hholds],
    fun l es h => hsets l es (by rw [← hmap l, h])⟩

/-- Moving the endpoints without a locality keeps the index exact when the set they replace holds
no token. -/
theorem exact_updateUnlocatedEndpoints (hex : m.Exact gx) (hsets : m.SetsConsistent gx)
    (loc : Locality) (hempty : ∀ a t, ¬m.HoldsAt gx (some loc) a t) :
    (m.updateUnlocatedEndpoints r loc).Exact gx ∧
      (m.updateUnlocatedEndpoints r loc).SetsConsistent gx := by
  by_cases hr : m.Manages r none
  swap
  · rw [updateUnlocatedEndpoints_of_not_manages hr]
    exact ⟨hex, hsets⟩
  rcases lookup_updateUnlocatedEndpoints hr loc with ⟨-, hmap, -⟩ | ⟨set, hset, hmap, -⟩
  · exact exact_of_lookup_eq (fun l => by rw [hmap]) (tokenMap_updateUnlocatedEndpoints m r loc)
      hex hsets
  -- the set moves from `none` to `some loc`: every locality holds what it held, under its name
  set m' := m.updateUnlocatedEndpoints r loc
  have hlookup : ∀ l, m'.map.lookup l =
      if l = some loc then some set else if l = none then none else m.map.lookup l := by
    intro l
    rw [hmap]
    split_ifs with h₁ h₂
    · rw [h₁, AList.lookup_insert]
    · rw [h₂, AList.lookup_insert_ne (by simp), AList.lookup_erase]
    · rw [AList.lookup_insert_ne h₁, AList.lookup_erase_ne h₂]
  have hholds : ∀ a t, m'.Holds gx a t ↔ m.Holds gx a t := by
    intro a t
    constructor
    · rintro ⟨l, es, hes, h⟩
      by_cases h₁ : l = some loc
      · rw [hlookup, if_pos h₁] at hes
        cases hes
        exact ⟨none, set, hset, h⟩
      by_cases h₂ : l = none
      · rw [hlookup, if_neg h₁, if_pos h₂] at hes
        cases hes
      · rw [hlookup, if_neg h₁, if_neg h₂] at hes
        exact ⟨l, es, hes, h⟩
    · rintro ⟨l, h⟩
      by_cases h₁ : l = some loc
      · exact absurd (h₁ ▸ h) (hempty a t)
      by_cases h₂ : l = none
      · obtain ⟨es, hes, h⟩ := h
        rw [h₂, hset] at hes
        cases hes
        exact ⟨some loc, set, by rw [hlookup, if_pos rfl], h⟩
      · exact ⟨l, (holdsAt_of_lookup_eq (by rw [hlookup, if_neg h₁, if_neg h₂])).mpr h⟩
  refine ⟨fun t a => by rw [tokenMap_updateUnlocatedEndpoints, hex t a, hholds], ?_⟩
  intro l es h
  by_cases h₁ : l = some loc
  · rw [hlookup, if_pos h₁] at h
    cases h
    exact hsets none set hset
  by_cases h₂ : l = none
  · rw [hlookup, if_neg h₁, if_pos h₂] at h
    cases h
  · rw [hlookup, if_neg h₁, if_neg h₂] at h
    exact hsets l es h

/-! ## Runs -/

variable (gx) in
/-- The condition under which an operation keeps the index exact: a set written holds no hash
that another locality holds, a set dropped or replaced holds no token, and the corrosion stream,
whose index is kept token by token, and the provider's batches, which do not keep it, are left
out. -/
def Keeps (m : ClusterMap) (op : Op) : Prop :=
  match op with
  | .apply _ l _ _ => m.Isolated gx (m.step gx op) l
  | .insert _ l _ => m.Isolated gx (m.step gx op) l
  | .partialReplace l _ _ => m.Isolated gx (m.step gx op) l
  | .removeLocality r l => m.Manages r l → ∀ a t, ¬m.HoldsAt gx l a t
  | .updateUnlocatedEndpoints _ loc => ∀ a t, ¬m.HoldsAt gx (some loc) a t
  | .corrosionApply _ => False
  | .removeContributor _ => True
  | .batchModify _ _ _ => False

variable (gx) in
/-- Every operation of a run keeps the index exact, at the state it is applied to. -/
def KeepsAll : ClusterMap → List Op → Prop
  | _, [] => True
  | m, op :: ops => m.Keeps gx op ∧ KeepsAll (m.step gx op) ops

/-- One operation that keeps the index exact. -/
theorem exact_step (hex : m.Exact gx) (hsets : m.SetsConsistent gx) {op : Op}
    (hk : m.Keeps gx op) : (m.step gx op).Exact gx ∧ (m.step gx op).SetsConsistent gx := by
  cases op with
  | apply r l endpoints version =>
    cases h : m.apply gx r l (EndpointSet.withVersion gx endpoints version) with
    | ok m' =>
      have hstep : m.step gx (.apply r l endpoints version) = m' := by simp only [step, h]
      unfold Keeps at hk
      rw [hstep] at hk ⊢
      exact exact_apply hex hsets (EndpointSet.consistent_withVersion gx endpoints version) h hk
    | error e =>
      have hstep : m.step gx (.apply r l endpoints version) = m := by simp only [step, h]
      rw [hstep]
      exact ⟨hex, hsets⟩
  | insert r l cluster =>
    cases h : m.apply gx r l (EndpointSet.new gx cluster) with
    | ok m' =>
      have hstep : m.step gx (.insert r l cluster) = m' := by simp only [step, insert, h]
      unfold Keeps at hk
      rw [hstep] at hk ⊢
      exact exact_apply hex hsets (EndpointSet.consistent_new gx cluster) h hk
    | error e =>
      have hstep : m.step gx (.insert r l cluster) = m := by simp only [step, insert, h]
      rw [hstep]
      exact ⟨hex, hsets⟩
  | partialReplace l endpoints p =>
    exact exact_partialReplace hex hsets (EndpointSet.consistent_new gx endpoints) p hk
  | removeLocality r l =>
    by_cases hm : m.Manages r l
    · simp only [step, removeLocality_of_manages hm]
      exact exact_doRemoveLocality hex hsets (hk hm)
    · have hstep : m.step gx (.removeLocality r l) = m := by
        unfold Manages at hm
        rw [Bool.not_eq_false] at hm
        simp only [step, removeLocality, hm, ↓reduceIte]
      rw [hstep]
      exact ⟨hex, hsets⟩
  | updateUnlocatedEndpoints r loc => exact exact_updateUnlocatedEndpoints hex hsets loc hk
  | corrosionApply ss => exact hk.elim
  | removeContributor r => exact exact_of_lookup_eq (fun _ => rfl) rfl hex hsets
  | batchModify nameOf l batch => exact hk.elim

variable (gx) in
theorem exact_new : (ClusterMap.new).Exact gx := by
  intro t a
  simp only [ClusterMap.new, Multimap.empty_apply, Finset.notMem_empty, false_iff]
  rintro ⟨l, es, hes, -⟩
  cases hes

variable (gx) in
theorem setsConsistent_new : (ClusterMap.new).SetsConsistent gx := by
  rintro l es ⟨⟩

/-- Along a run whose every operation keeps it, the index stays exact. -/
theorem run_exact {ops : List Op} (hex : m.Exact gx) (hsets : m.SetsConsistent gx)
    (h : KeepsAll gx m ops) : (m.run gx ops).Exact gx ∧ (m.run gx ops).SetsConsistent gx := by
  induction ops generalizing m with
  | nil => exact ⟨hex, hsets⟩
  | cons op ops ih =>
    obtain ⟨hk, hrest⟩ := h
    obtain ⟨hex', hsets'⟩ := exact_step hex hsets hk
    exact ih hex' hsets' hrest

/-! ## Where the global token map drifts -/

variable (gx) in
/-- The global token map drifts from the localities. Removing a locality leaves the addresses of
its endpoints in it: an address no other locality holds with the token is still given for it.
And applying a set that holds a token sets the token's addresses to the set's: an endpoint that
another locality holds with the token is no longer given for it. -/
theorem addressesForToken_diverges (m : ClusterMap) (r : Option IpAddr) (l : Option Locality)
    (hm : m.Manages r l) (tok : List UInt8) :
    (∀ a, a ∈ m.addressesForToken (Token.new gx tok) →
      (∀ l', l' ≠ l → ¬m.HoldsAt gx l' a (Token.new gx tok).hash) →
      a ∈ (m.removeLocality r l).2.addressesForToken (Token.new gx tok) ∧
        ¬(m.removeLocality r l).2.Holds gx a (Token.new gx tok).hash) ∧
    ∀ (c : EndpointSet) (a : EndpointAddress) (l' : Option Locality), c.Consistent gx →
      (∃ b, HoldsToken gx c.endpoints b (Token.new gx tok).hash) →
      ¬HoldsToken gx c.endpoints a (Token.new gx tok).hash →
      l' ≠ l → m.HoldsAt gx l' a (Token.new gx tok).hash →
      ∃ m', m.apply gx r l c = .ok m' ∧
        a ∉ m'.addressesForToken (Token.new gx tok) ∧ m'.Holds gx a (Token.new gx tok).hash := by
  refine ⟨fun a ha hothers => ?_, fun c a l' hc hheld ha hl' hholds => ?_⟩
  · -- the removal does not write the global token map
    rw [removeLocality_of_manages hm]
    refine ⟨by rwa [addressesForToken, tokenMap_doRemoveLocality], ?_⟩
    rintro ⟨l'', h⟩
    by_cases hl : l'' = l
    · exact not_holdsAt_of_lookup_eq_none (by rw [lookup_doRemoveLocality, if_pos hl]) h
    · exact hothers l'' hl
        ((holdsAt_of_lookup_eq (by rw [lookup_doRemoveLocality, if_neg hl])).mp h)
  · -- the apply writes the set's addresses over the other locality's
    obtain ⟨m', h⟩ := @apply_ok gx _ _ _ hm c
    obtain ⟨-, hframe, htm⟩ := apply_holds hc h
    refine ⟨m', h, ?_, ⟨l', (holdsAt_of_lookup_eq (hframe l' hl')).mpr hholds⟩⟩
    rw [addressesForToken, htm _ hheld, hc.mem_iff gx]
    exact ha

end ClusterMap

/-- A stand-in for gxhash in the examples: a token hashes to its first byte. -/
def firstByteHash : GxHash := ⟨fun tok => (tok.headD 0).toUInt64, fun _ => 0⟩

/-- The token set `{[1]}`. -/
def tokenOne : TokenSet := ⟨⟨[[1]], List.pairwise_singleton _ _⟩⟩

/-- An endpoint at `10.0.0.1:7000` with the token `[1]`. -/
def endpointA : Endpoint := ⟨⟨.ip (.v4 ⟨10, 0, 0, 1⟩), 7000⟩, ⟨⟨tokenOne⟩⟩⟩

/-- An endpoint at `10.0.0.2:7000` with the same token. -/
def endpointB : Endpoint := ⟨⟨.ip (.v4 ⟨10, 0, 0, 2⟩), 7000⟩, ⟨⟨tokenOne⟩⟩⟩

/-- The locality `eu`. -/
def eu : Locality := Locality.new "eu" "" ""

theorem addressesForToken_diverges_tokenOne :
    (endpointA.address ∈ ((ClusterMap.new.insert firstByteHash none none [endpointA]).removeLocality
        none none).2.addressesForToken (Token.new firstByteHash [1]) ∧
      ¬((ClusterMap.new.insert firstByteHash none none [endpointA]).removeLocality none none).2.Holds
        firstByteHash endpointA.address (Token.new firstByteHash [1]).hash) ∧
    ∃ m', (ClusterMap.new.insert firstByteHash none (some eu) [endpointB]).apply firstByteHash none
        none (EndpointSet.withVersion firstByteHash [endpointA] 1) = .ok m' ∧
      endpointB.address ∉ m'.addressesForToken (Token.new firstByteHash [1]) ∧
      m'.Holds firstByteHash endpointB.address (Token.new firstByteHash [1]).hash := by
  have hone : [1] ∈ tokenOne := TokenSet.mem_iff.mpr (List.mem_singleton_self _)
  refine ⟨(ClusterMap.addressesForToken_diverges firstByteHash _ none none (by decide) [1]).1 _
      (by decide) ?_,
    (ClusterMap.addressesForToken_diverges firstByteHash _ none none (by decide) [1]).2 _ _
      (some eu) rfl ⟨endpointA.address, endpointA.metadata, rfl, [1], hone, rfl⟩ ?_
      (Option.some_ne_none _)
      ⟨EndpointSet.new firstByteHash [endpointB], rfl, endpointB.metadata, rfl, [1], hone, rfl⟩⟩
  · -- the locality `none` is the map's only one
    intro l' hl'
    apply ClusterMap.not_holdsAt_of_lookup_eq_none
    show (AList.insert none (EndpointSet.new firstByteHash [endpointA])
      (∅ : AList fun _ : Option Locality => EndpointSet)).lookup l' = none
    rw [AList.lookup_insert_ne hl', AList.lookup_empty]
  · -- the applied set has no endpoint at `10.0.0.2:7000`
    rintro ⟨md, hmd, -⟩
    rw [show (EndpointSet.withVersion firstByteHash [endpointA] 1).endpoints.lookup
      endpointB.address = none from rfl] at hmd
    cases hmd

namespace ClusterMap

variable {gx} in
/-- From the empty map, a run in which no two localities share the hash of a token, no locality
holding a token is removed or overwritten by the endpoints without one, and no corrosion stream
is applied, keeps `addresses_for_token` exact. -/
theorem addressesForToken_exact_of_keepsAll {ops : List Op} (h : KeepsAll gx ClusterMap.new ops)
    (tok : List UInt8) (a : EndpointAddress) :
    a ∈ (ClusterMap.new.run gx ops).addressesForToken (Token.new gx tok) ↔
      (ClusterMap.new.run gx ops).Holds gx a (Token.new gx tok).hash :=
  (run_exact (exact_new gx) (setsConsistent_new gx) h).1 _ a

end ClusterMap

/-- One insertion into the empty map keeps the index exact: the endpoint `10.0.0.1:7000` is given
for the token `[1]` exactly when the map holds it with that token. -/
theorem addressesForToken_exact_of_keepsAll_endpointA :
    ClusterMap.KeepsAll firstByteHash ClusterMap.new [.insert none none [endpointA]] ∧
    (endpointA.address ∈ (ClusterMap.new.run firstByteHash [.insert none none [endpointA]]).addressesForToken
        (Token.new firstByteHash [1]) ↔
      (ClusterMap.new.run firstByteHash [.insert none none [endpointA]]).Holds firstByteHash
        endpointA.address (Token.new firstByteHash [1]).hash) := by
  -- the empty map holds nothing, so no other locality shares a hash with the inserted one
  have h : ClusterMap.KeepsAll firstByteHash ClusterMap.new [.insert none none [endpointA]] :=
    ⟨fun _ _ _ _ _ => ClusterMap.not_holdsAt_of_lookup_eq_none rfl, trivial⟩
  exact ⟨h, ClusterMap.addressesForToken_exact_of_keepsAll h [1] endpointA.address⟩

end Quilkin.Net
