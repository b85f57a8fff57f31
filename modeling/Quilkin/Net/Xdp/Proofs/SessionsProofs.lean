import Quilkin.Net.Xdp.Sessions
import Quilkin.Data.StepRun
import Mathlib.Data.List.Basic

/-!
# XDP sessions: ports and the clients they lead back to

What a port map reads back for a client is `recorded`: nothing for a client of port `0` (its item
looks never written), and otherwise `stored`, the client as an `Item` keeps it: an ipv4 address as
itself, an ipv6 address without its flow information and scope id, and an ipv6 address of the
multicast prefix `0xff` as the ipv4 address in its last four octets. `stored` is the identity
exactly on the clients `WellFormed` names.

A `PortMapper.Inv` mapper has handed out the ports from `61000` to its counter, each to one client,
and its port map gives back, for each port, what it records of that client. `get_or_alloc` keeps
that (`Inv.alloc`), so does `get_or_create` (`getOrCreate_inv`), which always ends with one reset
of the server's mapper at most.
-/

namespace Quilkin.Net.Xdp

/-! ## What an item keeps of an address -/

/-- The address an item written with `addr` reads back. -/
def stored : SocketAddr → SocketAddr
  | .v4 ip port => .v4 ip port
  | .v6 ip port _ _ =>
    if getElem ip.octets 0 zero_lt_sixteen = 0xff then
      .v4 ⟨getElem ip.octets 12 twelve_lt_sixteen, getElem ip.octets 13 thirteen_lt_sixteen,
        getElem ip.octets 14 fourteen_lt_sixteen, getElem ip.octets 15 fifteen_lt_sixteen⟩ port
    else .v6 ip port 0 0

/-- What the port map gives back for a client: nothing for port `0`, which marks an empty item. -/
def recorded (addr : SocketAddr) : Option SocketAddr :=
  if addr.port = 0 then none else some (stored addr)

/-- The clients an item gives back unchanged: a nonzero port, and for ipv6 no multicast prefix,
flow information or scope id. -/
def WellFormed : SocketAddr → Prop
  | .v4 _ port => port ≠ 0
  | .v6 ip port flowinfo scopeId =>
    port ≠ 0 ∧ getElem ip.octets 0 zero_lt_sixteen ≠ 0xff ∧ flowinfo = 0 ∧ scopeId = 0

instance : DecidablePred WellFormed := fun addr =>
  match addr with
  | .v4 _ port => inferInstanceAs (Decidable (port ≠ 0))
  | .v6 ip port flowinfo scopeId =>
    inferInstanceAs (Decidable
      (port ≠ 0 ∧ getElem ip.octets 0 zero_lt_sixteen ≠ 0xff ∧ flowinfo = 0 ∧ scopeId = 0))

theorem recorded_eq_some {addr a : SocketAddr} :
    recorded addr = some a ↔ addr.port ≠ 0 ∧ stored addr = a := by
  unfold recorded
  split_ifs with h <;> simp [h]

theorem vector_get_eq {α : Type} {n : Nat} (xs : Vector α n) (i : Fin n) : xs.get i = xs[i.1] :=
  rfl

theorem recorded_of_wellFormed {addr : SocketAddr} (h : WellFormed addr) :
    recorded addr = some addr := by
  cases addr with
  | v4 ip port =>
    simp only [WellFormed] at h
    simp [recorded, stored, SocketAddr.port, h]
  | v6 ip port flowinfo scopeId =>
    obtain ⟨hport, hmark, rfl, rfl⟩ := h
    simp [recorded, stored, SocketAddr.port, hport, hmark]

/-- Whatever the item held before, it reads back the address last written. -/
theorem Item.get_set (item : Item) (addr : SocketAddr) : (item.set addr).get = stored addr := by
  cases addr with
  | v4 ip port => simp [Item.set, Item.get, stored, SocketAddr.port]
  | v6 ip port flowinfo scopeId => rfl

/-! ## Ports and their indices -/

theorem toNat_ephemeralRangeEnd : ephemeralRangeEnd.toNat = 61000 := rfl

namespace PortMap

/-- The index of a port's item. -/
def index (port : UInt16) : Nat := (port - ephemeralRangeEnd).toNat

theorem index_eq {port : UInt16} (h : ephemeralRangeEnd ≤ port) : index port = port.toNat - 61000 := by
  rw [index, UInt16.toNat_sub_of_le _ _ h, toNat_ephemeralRangeEnd]

theorem index_inj {p q : UInt16} (hp : ephemeralRangeEnd ≤ p) (hq : ephemeralRangeEnd ≤ q)
    (h : index p = index q) : p = q := by
  rw [index_eq hp, index_eq hq] at h
  rw [UInt16.le_iff_toNat_le, toNat_ephemeralRangeEnd] at hp hq
  exact UInt16.toNat_inj.mp (by omega)

/-! ## The port map as a partial function of indices -/

/-- The address `get` reads at index `i`. -/
def entry (m : PortMap) (i : Nat) : Option SocketAddr :=
  (m.buckets[i / bucketSize]?).bind fun bucket =>
    let item := bucket.get ⟨i % bucketSize, Nat.mod_lt _ bucketSize_pos⟩
    if item.port = 0 then none else some item.get

theorem get_eq (m : PortMap) (port : UInt16) :
    m.get port = if port < ephemeralRangeEnd then none else m.entry (index port) := by
  unfold get entry index
  split_ifs <;> rfl

/-- A pushed bucket of zeroed items reads as nothing. -/
theorem entry_push (buckets : List (Vector Item bucketSize)) (j : Nat) :
    entry ⟨buckets ++ [Vector.replicate bucketSize Item.zeroed]⟩ j = entry ⟨buckets⟩ j := by
  unfold entry
  rcases Nat.lt_or_ge (j / bucketSize) buckets.length with hlt | hge
  · rw [List.getElem?_append_left hlt]
  · rw [List.getElem?_append_right hge, List.getElem?_eq_none hge]
    cases j / bucketSize - buckets.length with
    | zero => simp [vector_get_eq, Item.zeroed]
    | succ k => simp

theorem entry_set {buckets : List (Vector Item bucketSize)} {i : Nat}
    (hb : i / bucketSize < buckets.length) (item : Item) (j : Nat) :
    entry ⟨buckets.set (i / bucketSize)
        (buckets[i / bucketSize].set (i % bucketSize) item (Nat.mod_lt _ (by decide)))⟩ j =
      if j = i then (if item.port = 0 then none else some item.get) else entry ⟨buckets⟩ j := by
  unfold entry
  by_cases hji : j = i
  · subst hji
    rw [List.getElem?_set_self hb, Option.bind_some]
    dsimp only
    rw [vector_get_eq, Vector.getElem_set_self, if_pos rfl]
  · rw [if_neg hji, List.getElem?_set]
    by_cases hbucket : i / bucketSize = j / bucketSize
    · -- the same bucket, so another slot of it
      have hslot : i % bucketSize ≠ j % bucketSize := by
        intro hs
        exact hji (by rw [← Nat.div_add_mod j bucketSize, ← hbucket, ← hs, Nat.div_add_mod])
      rw [if_pos hbucket, ← hbucket, List.getElem?_eq_getElem hb]
      simp [hb, vector_get_eq, Vector.getElem_set_ne _ _ hslot]
    · rw [if_neg hbucket]

/-- `insert` writes the client at the port's index and nowhere else. -/
theorem entry_insert {m m' : PortMap} {c : SocketAddr} {port : UInt16}
    (h : m.insert c port = some m') (j : Nat) :
    m'.entry j = if j = index port then recorded c else m.entry j := by
  unfold insert at h
  dsimp only at h
  -- the item is written into the buckets of `m`, or into those and a new zeroed one
  split_ifs at h with hpush hlt hlt
  · cases h
    rw [entry_set hlt, Item.get_set, entry_push]
    rfl
  · cases h
    rw [entry_set hlt, Item.get_set]
    rfl

theorem get_insert {m m' : PortMap} {c : SocketAddr} {port : UInt16}
    (hport : ephemeralRangeEnd ≤ port) (h : m.insert c port = some m') (p : UInt16) :
    m'.get p = if p = port then recorded c else m.get p := by
  rw [get_eq, get_eq]
  by_cases hp : p < ephemeralRangeEnd
  · have hne : p ≠ port := by
      rintro rfl
      exact absurd hport (UInt16.not_le.mpr hp)
    rw [if_pos hp, if_pos hp, if_neg hne]
  · rw [if_neg hp, if_neg hp, entry_insert h]
    have hp' : ephemeralRangeEnd ≤ p := UInt16.not_lt.mp hp
    by_cases hpq : p = port
    · rw [if_pos (congrArg index hpq), if_pos hpq]
    · rw [if_neg (fun hi => hpq (index_inj hp' hport hi)), if_neg hpq]

theorem get_new (port : UInt16) : PortMap.new.get port = none := by
  have hnew : PortMap.new = ⟨[] ++ [Vector.replicate bucketSize Item.zeroed]⟩ := rfl
  rw [get_eq, hnew, entry_push]
  split_ifs <;> simp [entry]

/-- `insert` reaches no undefined behaviour while the index is at most one bucket past the last,
and leaves the bucket of the index in place. -/
theorem insert_some (m : PortMap) (c : SocketAddr) (port : UInt16)
    (hroom : index port / bucketSize ≤ m.buckets.length) :
    ∃ m', m.insert c port = some m' ∧ index port / bucketSize < m'.buckets.length := by
  unfold insert
  dsimp only
  split_ifs with hpush hlt hlt
  · exact ⟨_, rfl, by rw [List.length_set]; exact hlt⟩
  · simp only [List.length_append, List.length_singleton] at hlt
    simp only [index] at hroom
    omega
  · exact ⟨_, rfl, by rw [List.length_set]; exact hlt⟩
  · simp only [index] at hroom
    omega

theorem length_insert {m m' : PortMap} {c : SocketAddr} {port : UInt16}
    (h : m.insert c port = some m') : index port / bucketSize < m'.buckets.length := by
  unfold insert at h
  dsimp only at h
  split_ifs at h with hpush hlt hlt
  · cases h
    rw [List.length_set]
    exact hlt
  · cases h
    rw [List.length_set]
    exact hlt

end PortMap

/-! ## A mapper's invariant -/

namespace PortMapper

/-- The ports from `61000` below the counter (all of them once it has wrapped to `0`) are handed
out, each to one client, whose `recorded` address the port map gives back; and the port map has
the bucket of the counter's index or the one before it. -/
structure Inv (pm : PortMapper) : Prop where
  counter : pm.port = 0 ∨ ephemeralRangeEnd ≤ pm.port
  allocated : ∀ c p, pm.clientToPort c = some p →
    ephemeralRangeEnd ≤ p ∧ (pm.port = 0 ∨ p < pm.port)
  injective : ∀ c c' p, pm.clientToPort c = some p → pm.clientToPort c' = some p → c = c'
  room : ephemeralRangeEnd ≤ pm.port →
    PortMap.index pm.port / bucketSize ≤ pm.portToClient.buckets.length
  getClient_iff : ∀ p a, pm.getClient p = some a ↔
    ∃ c, pm.clientToPort c = some p ∧ recorded c = some a

theorem inv_new : PortMapper.new.Inv where
  counter := .inr (UInt16.le_refl _)
  allocated _ _ h := by cases h
  injective _ _ _ h := by cases h
  room _ := by decide
  getClient_iff p a := by
    simp [getClient, new, PortMap.get_new]

/-- The counter after `fetch_add(1)`: one more, or `0` past `65535`. -/
theorem toNat_add_one (p : UInt16) :
    (p + 1).toNat = if p.toNat = 65535 then 0 else p.toNat + 1 := by
  have hlt := p.toNat_lt
  rw [UInt16.toNat_add, UInt16.toNat_one]
  split_ifs with h
  · rw [h]
  · exact Nat.mod_eq_of_lt (by omega)

variable {pm : PortMapper} {c : SocketAddr}

/-- Handing the counter's port to a new client keeps the invariant. -/
theorem Inv.alloc (hpm : pm.Inv) (hc : pm.clientToPort c = none)
    (hport : ephemeralRangeEnd ≤ pm.port) {m' : PortMap}
    (hins : pm.portToClient.insert c pm.port = some m') :
    PortMapper.Inv ⟨Function.update pm.clientToPort c (some pm.port), m', pm.port + 1⟩ := by
  have hnat : 61000 ≤ pm.port.toNat := by
    rwa [UInt16.le_iff_toNat_le, toNat_ephemeralRangeEnd] at hport
  have hnext := toNat_add_one pm.port
  -- every port handed out before is below the counter
  have hold : ∀ c' p, pm.clientToPort c' = some p → ephemeralRangeEnd ≤ p ∧ p < pm.port := by
    intro c' p hc'
    obtain ⟨hp, hzero | hlt⟩ := hpm.allocated c' p hc'
    · rw [hzero] at hport
      exact absurd hport (by decide)
    · exact ⟨hp, hlt⟩
  refine ⟨?counter, ?allocated, ?injective, ?room, ?getClient_iff⟩
  case counter =>
    rw [UInt16.le_iff_toNat_le, toNat_ephemeralRangeEnd]
    by_cases hmax : pm.port.toNat = 65535
    · exact .inl (UInt16.toNat_inj.mp (by rw [hnext, if_pos hmax]; rfl))
    · exact .inr (by rw [hnext, if_neg hmax]; omega)
  case allocated =>
    intro c' p hc'
    dsimp only at hc' ⊢
    rw [UInt16.lt_iff_toNat_lt]
    by_cases hcc : c' = c
    · subst hcc
      rw [Function.update_self, Option.some.injEq] at hc'
      subst hc'
      by_cases hmax : pm.port.toNat = 65535
      · exact ⟨hport, .inl (UInt16.toNat_inj.mp (by rw [hnext, if_pos hmax]; rfl))⟩
      · exact ⟨hport, .inr (by rw [hnext, if_neg hmax]; omega)⟩
    · rw [Function.update_of_ne hcc] at hc'
      obtain ⟨hp, hlt⟩ := hold c' p hc'
      rw [UInt16.lt_iff_toNat_lt] at hlt
      by_cases hmax : pm.port.toNat = 65535
      · exact ⟨hp, .inl (UInt16.toNat_inj.mp (by rw [hnext, if_pos hmax]; rfl))⟩
      · exact ⟨hp, .inr (by rw [hnext, if_neg hmax]; omega)⟩
  case injective =>
    intro c₁ c₂ p h₁ h₂
    dsimp only at h₁ h₂
    by_cases h₁c : c₁ = c <;> by_cases h₂c : c₂ = c
    · rw [h₁c, h₂c]
    · -- `c₂` had its port before, below the counter that `c₁ = c` just got
      rw [h₁c, Function.update_self, Option.some.injEq] at h₁
      rw [Function.update_of_ne h₂c, ← h₁] at h₂
      exact absurd (hold c₂ _ h₂).2 (UInt16.lt_irrefl _)
    · rw [h₂c, Function.update_self, Option.some.injEq] at h₂
      rw [Function.update_of_ne h₁c, ← h₂] at h₁
      exact absurd (hold c₁ _ h₁).2 (UInt16.lt_irrefl _)
    · rw [Function.update_of_ne h₁c] at h₁
      rw [Function.update_of_ne h₂c] at h₂
      exact hpm.injective c₁ c₂ p h₁ h₂
  case room =>
    intro hnext'
    have hlen := PortMap.length_insert hins
    rw [UInt16.le_iff_toNat_le, toNat_ephemeralRangeEnd] at hnext'
    show PortMap.index (pm.port + 1) / bucketSize ≤ m'.buckets.length
    rw [PortMap.index_eq (by rwa [UInt16.le_iff_toNat_le, toNat_ephemeralRangeEnd])]
    rw [PortMap.index_eq hport] at hlen
    by_cases hmax : pm.port.toNat = 65535
    · rw [hnext, if_pos hmax] at hnext'
      omega
    · rw [hnext, if_neg hmax]
      simp only [bucketSize] at hlen ⊢
      omega
  case getClient_iff =>
    intro p a
    show m'.get p = some a ↔
      ∃ c', Function.update pm.clientToPort c (some pm.port) c' = some p ∧ recorded c' = some a
    rw [PortMap.get_insert hport hins]
    by_cases hp : p = pm.port
    · subst hp
      rw [if_pos rfl]
      constructor
      · intro hrec
        exact ⟨c, Function.update_self .., hrec⟩
      · rintro ⟨c', hc', hrec⟩
        by_cases hcc : c' = c
        · rw [← hcc]
          exact hrec
        · rw [Function.update_of_ne hcc] at hc'
          exact absurd (hold c' _ hc').2 (UInt16.lt_irrefl _)
    · rw [if_neg hp]
      refine (hpm.getClient_iff p a).trans ⟨?_, ?_⟩
      · rintro ⟨c', hc', hrec⟩
        have hcc : c' ≠ c := by
          rintro rfl
          rw [hc] at hc'
          cases hc'
        exact ⟨c', by rw [Function.update_of_ne hcc]; exact hc', hrec⟩
      · rintro ⟨c', hc', hrec⟩
        have hcc : c' ≠ c := by
          rintro rfl
          rw [Function.update_self, Option.some.injEq] at hc'
          exact hp hc'.symm
        exact ⟨c', by rw [Function.update_of_ne hcc] at hc'; exact hc', hrec⟩

/-- `get_or_alloc` on a mapper with the invariant: the client's port, a new port and a mapper with
the invariant, or, when the counter has wrapped, nothing. It never reaches undefined behaviour. -/
theorem getOrAlloc_cases (hpm : pm.Inv) (c : SocketAddr) :
    (∃ p, pm.clientToPort c = some p ∧ pm.getOrAlloc c = some (some p, pm)) ∨
    (pm.clientToPort c = none ∧ ephemeralRangeEnd ≤ pm.port ∧
      ∃ pm', pm.getOrAlloc c = some (some pm.port, pm') ∧ pm'.Inv ∧
        pm'.clientToPort = Function.update pm.clientToPort c (some pm.port) ∧ pm'.port = pm.port + 1) ∨
    (pm.clientToPort c = none ∧ pm.port < ephemeralRangeEnd ∧
      ∃ pm', pm.getOrAlloc c = some (none, pm')) := by
  cases hc : pm.clientToPort c with
  | some p =>
    left
    refine ⟨p, rfl, ?_⟩
    rw [getOrAlloc, hc]
  | none =>
    right
    by_cases hlt : pm.port < ephemeralRangeEnd
    · right
      refine ⟨rfl, hlt, { pm with port := pm.port + 1 }, ?_⟩
      rw [getOrAlloc, hc]
      exact if_pos hlt
    · left
      have hport : ephemeralRangeEnd ≤ pm.port := UInt16.not_lt.mp hlt
      obtain ⟨m', hins, -⟩ := PortMap.insert_some pm.portToClient c pm.port (hpm.room hport)
      refine ⟨rfl, hport, _, ?_, hpm.alloc hc hport hins, rfl, rfl⟩
      rw [getOrAlloc, hc]
      dsimp only
      rw [if_neg hlt, hins, Option.map_some]

/-! ## Any calls on one mapper -/

/-- What a mapper keeps whatever calls it took, its counter wrapped or not: the port map has the
bucket of the counter's index or the one before it, and, while the counter is below the range
after its wrap, the bucket of every port of the range. -/
structure Room (pm : PortMapper) : Prop where
  of_le : ephemeralRangeEnd ≤ pm.port →
    PortMap.index pm.port / bucketSize ≤ pm.portToClient.buckets.length
  of_lt : pm.port < ephemeralRangeEnd →
    PortMap.index 65535 / bucketSize < pm.portToClient.buckets.length

theorem room_new : PortMapper.new.Room where
  of_le _ := by decide
  of_lt h := absurd h (by decide)

/-- Every call returns, without undefined behaviour, and keeps the room: below the range the
counter climbs back to its first port, whose bucket is the first; in the range it moves to the
next index, whose bucket is the one `insert` made sure of or the one after it; from `65535` it
wraps, after `insert` has made sure of the last bucket. -/
theorem Room.getOrAlloc (h : pm.Room) (c : SocketAddr) :
    ∃ r pm', pm.getOrAlloc c = some (r, pm') ∧ pm'.Room := by
  cases hc : pm.clientToPort c with
  | some p => exact ⟨some p, pm, by rw [PortMapper.getOrAlloc, hc], h⟩
  | none =>
    have hnext := toNat_add_one pm.port
    by_cases hlt : pm.port < ephemeralRangeEnd
    · have hnat : pm.port.toNat < 61000 := by
        rwa [UInt16.lt_iff_toNat_lt, toNat_ephemeralRangeEnd] at hlt
      refine ⟨none, { pm with port := pm.port + 1 }, by rw [PortMapper.getOrAlloc, hc]; exact if_pos hlt,
        ⟨fun hle => ?_, fun _ => h.of_lt hlt⟩⟩
      -- back at the first port of the range, of index `0`
      show PortMap.index (pm.port + 1) / bucketSize ≤ pm.portToClient.buckets.length
      have hle' := hle
      rw [UInt16.le_iff_toNat_le, toNat_ephemeralRangeEnd] at hle'
      rw [PortMap.index_eq hle, hnext, if_neg (by omega)]
      rw [hnext, if_neg (by omega)] at hle'
      have hzero : pm.port.toNat + 1 - 61000 = 0 := by omega
      rw [hzero, Nat.zero_div]
      exact Nat.zero_le _
    · have hport : ephemeralRangeEnd ≤ pm.port := UInt16.not_lt.mp hlt
      have hnat : 61000 ≤ pm.port.toNat := by
        rwa [UInt16.le_iff_toNat_le, toNat_ephemeralRangeEnd] at hport
      obtain ⟨m', hins, hlen⟩ := PortMap.insert_some pm.portToClient c pm.port (h.of_le hport)
      rw [PortMap.index_eq hport] at hlen
      refine ⟨some pm.port, ⟨Function.update pm.clientToPort c (some pm.port), m', pm.port + 1⟩,
        ?_, ⟨fun hle => ?_, fun hlt' => ?_⟩⟩
      · rw [PortMapper.getOrAlloc, hc]
        dsimp only
        rw [if_neg hlt, hins, Option.map_some]
      · -- the next index: its bucket is the one made sure of, or the next
        show PortMap.index (pm.port + 1) / bucketSize ≤ m'.buckets.length
        have hle' := hle
        rw [UInt16.le_iff_toNat_le, toNat_ephemeralRangeEnd, hnext] at hle'
        have hmax : pm.port.toNat ≠ 65535 := fun hmax => by
          rw [if_pos hmax] at hle'
          omega
        rw [PortMap.index_eq hle, hnext, if_neg hmax]
        simp only [bucketSize] at hlen ⊢
        omega
      · -- the counter wrapped: the port was `65535`, the last of the range
        show PortMap.index 65535 / bucketSize < m'.buckets.length
        have hlt'' := hlt'
        rw [UInt16.lt_iff_toNat_lt, toNat_ephemeralRangeEnd, hnext] at hlt''
        have hmax : pm.port.toNat = 65535 := by
          by_contra hmax
          rw [if_neg hmax] at hlt''
          omega
        rw [PortMap.index_eq (by decide)]
        rw [hmax] at hlen
        exact hlen

/-- Whatever calls one mapper takes, from `PortMapper::new` on and past the wrap of its counter,
every `insert` it performs finds the bucket of its index or the end of the buckets, where it
pushes one: `get_or_alloc` never reaches the undefined behaviour of `get_unchecked_mut`. And
`get` reads an item only from a bucket that is allocated, for any port. -/
theorem getOrAlloc_insert_in_bounds :
    (∀ clients : List SocketAddr, ∃ pm,
        StepRun.exec (fun pm c => (getOrAlloc pm c).map Prod.snd) PortMapper.new clients =
          some pm) ∧
      (∀ (pm : PortMapper) (c : SocketAddr),
        StepRun.Reachable (fun pm c => (getOrAlloc pm c).map Prod.snd) PortMapper.new pm →
        pm.clientToPort c = none → ephemeralRangeEnd ≤ pm.port →
        PortMap.index pm.port / bucketSize ≤ pm.portToClient.buckets.length) ∧
      ∀ (m : PortMap) (port : UInt16) (a : SocketAddr), m.get port = some a →
        PortMap.index port / bucketSize < m.buckets.length := by
  have hstep : ∀ (pm : PortMapper) (c : SocketAddr), pm.Room →
      ∃ pm', (getOrAlloc pm c).map Prod.snd = some pm' ∧ pm'.Room := by
    intro pm c hroom
    obtain ⟨r, pm', h, h'⟩ := hroom.getOrAlloc c
    exact ⟨pm', by rw [h, Option.map_some], h'⟩
  refine ⟨fun clients => ?_, fun pm c hreach _ hport => ?_, fun m port a hget => ?_⟩
  · obtain ⟨pm, h, -⟩ := StepRun.exec_eq_some Room hstep room_new clients
    exact ⟨pm, h⟩
  · have hroom : pm.Room := by
      refine StepRun.Reachable.invariant Room room_new (fun pm c pm' hroom hs => ?_) hreach
      obtain ⟨pm₁, h₁, hroom₁⟩ := hstep pm c hroom
      rw [h₁, Option.some.injEq] at hs
      exact hs ▸ hroom₁
    exact hroom.of_le hport
  · -- a read that returns went through an allocated bucket
    rw [PortMap.get_eq] at hget
    split_ifs at hget
    obtain ⟨bucket, hbucket, -⟩ := Option.bind_eq_some_iff.mp hget
    exact (List.getElem?_eq_some_iff.mp hbucket).1

end PortMapper

/-! ## The sessions of every server -/

namespace SessionState

variable {s s' : SessionState} {c server : SocketAddr}

/-- Every server's mapper keeps its invariant. -/
def Inv (s : SessionState) : Prop := ∀ server pm, s.sessions server = some pm → pm.Inv

theorem inv_empty : empty.Inv := fun _ _ h => by cases h

theorem Inv.update (hs : s.Inv) (server : SocketAddr) {pm : PortMapper} (hpm : pm.Inv) :
    Inv ⟨Function.update s.sessions server (some pm)⟩ := by
  intro server' pm' h
  dsimp only at h
  by_cases hsv : server' = server
  · subst hsv
    rw [Function.update_self, Option.some.injEq] at h
    exact h ▸ hpm
  · rw [Function.update_of_ne hsv] at h
    exact hs server' pm' h

theorem Inv.remove (hs : s.Inv) (server : SocketAddr) :
    Inv ⟨Function.update s.sessions server none⟩ := by
  intro server' pm' h
  dsimp only at h
  by_cases hsv : server' = server
  · subst hsv
    rw [Function.update_self] at h
    cases h
  · rw [Function.update_of_ne hsv] at h
    exact hs server' pm' h

/-- `get_or_create` allocates from the server's mapper, or from a new one. -/
theorem getOrCreate_succ (s : SessionState) (c server : SocketAddr) (fuel : Nat) :
    s.getOrCreate c server (fuel + 1) =
      (((s.sessions server).getD .new).getOrAlloc c).bind fun r =>
        match r.1 with
        | some port => some (port, ⟨Function.update s.sessions server (some r.2)⟩)
        | none => getOrCreate ⟨Function.update s.sessions server none⟩ c server fuel := by
  rw [getOrCreate]
  cases s.sessions server <;>
    simp only [Option.getD_none, Option.getD_some, Function.update_idem] <;> rfl

theorem inv_getD (hs : s.Inv) (server : SocketAddr) : ((s.sessions server).getD .new).Inv := by
  cases hsv : s.sessions server with
  | none => exact PortMapper.inv_new
  | some pm => exact hs server pm hsv

/-- A server without a mapper gets a new one, which hands out `61000`. -/
theorem getOrCreate_of_none (h : s.sessions server = none) (c : SocketAddr) :
    ∃ pm, (∀ fuel, s.getOrCreate c server (fuel + 1) =
        some (ephemeralRangeEnd, ⟨Function.update s.sessions server (some pm)⟩)) ∧
      pm.Inv ∧ pm.clientToPort c = some ephemeralRangeEnd := by
  rcases PortMapper.getOrAlloc_cases PortMapper.inv_new c with
    ⟨p, hc, -⟩ | ⟨-, -, pm, hga, hpm, hto, -⟩ | ⟨-, hlt, -⟩
  · cases hc
  · refine ⟨pm, fun fuel => ?_, hpm, by rw [hto, Function.update_self]; rfl⟩
    rw [getOrCreate_succ, h, Option.getD_none, hga, Option.bind_some]
    rfl
  · exact absurd hlt (by decide)

/-- `get_or_create` from sessions with the invariant: the client's port, at least `61000`, now
held by the server's mapper, after one reset of the mapper at most: any fuel past two gives the
same. -/
theorem getOrCreate_cases (hs : s.Inv) (c server : SocketAddr) :
    ∃ port pm, (∀ fuel, s.getOrCreate c server (fuel + 2) =
        some (port, ⟨Function.update s.sessions server (some pm)⟩)) ∧
      ephemeralRangeEnd ≤ port ∧ pm.Inv ∧ pm.clientToPort c = some port := by
  have hpm₀ := inv_getD hs server
  rcases PortMapper.getOrAlloc_cases hpm₀ c with
    ⟨p, hc, hga⟩ | ⟨-, hport, pm, hga, hpm, hto, -⟩ | ⟨-, -, pm, hga⟩
  · -- the client already has its port
    refine ⟨p, _, fun fuel => ?_, (hpm₀.allocated c p hc).1, hpm₀, hc⟩
    rw [getOrCreate_succ, hga, Option.bind_some]
  · -- a new port from the server's mapper
    refine ⟨_, pm, fun fuel => ?_, hport, hpm, by rw [hto, Function.update_self]⟩
    rw [getOrCreate_succ, hga, Option.bind_some]
  · -- the counter has wrapped: the mapper is dropped, and a new one starts at `61000`
    have hnone : (⟨Function.update s.sessions server none⟩ : SessionState).sessions server = none :=
      Function.update_self ..
    obtain ⟨pm', hrun, hpm', hto'⟩ := getOrCreate_of_none hnone c
    refine ⟨_, pm', fun fuel => ?_, UInt16.le_refl _, hpm', hto'⟩
    rw [getOrCreate_succ, hga, Option.bind_some]
    dsimp only
    rw [hrun fuel, Function.update_idem]

/-- Whatever the fuel, what `get_or_create` returns keeps the invariant. -/
theorem getOrCreate_inv (hs : s.Inv) {fuel : Nat} {port : UInt16}
    (h : s.getOrCreate c server fuel = some (port, s')) : s'.Inv := by
  induction fuel generalizing s with
  | zero => cases h
  | succ fuel ih =>
    rw [getOrCreate_succ] at h
    rcases PortMapper.getOrAlloc_cases (inv_getD hs server) c with
      ⟨p, -, hga⟩ | ⟨-, -, pm, hga, hpm, -, -⟩ | ⟨-, -, pm, hga⟩
    · rw [hga, Option.bind_some] at h
      cases h
      exact hs.update server (inv_getD hs server)
    · rw [hga, Option.bind_some] at h
      cases h
      exact hs.update server hpm
    · rw [hga, Option.bind_some] at h
      exact ih (hs.remove server) h

/-- The states a sequence of `get_or_create` calls reaches from no sessions. -/
inductive Reachable : SessionState → Prop
  | empty : Reachable .empty
  | getOrCreate {s s' : SessionState} {c server : SocketAddr} {fuel : Nat} {port : UInt16} :
      Reachable s → s.getOrCreate c server fuel = some (port, s') → Reachable s'

theorem Reachable.inv (h : Reachable s) : s.Inv := by
  induction h with
  | empty => exact inv_empty
  | getOrCreate _ hstep ih => exact getOrCreate_inv ih hstep

/-- `lookup_client` gives back what the server's mapper records of the client it handed the port. -/
theorem lookupClient_iff (hs : s.Inv) (server : SocketAddr) (p : UInt16) (a : SocketAddr) :
    s.lookupClient server p = some a ↔
      ∃ pm c, s.sessions server = some pm ∧ pm.clientToPort c = some p ∧ recorded c = some a := by
  unfold lookupClient
  cases hsv : s.sessions server with
  | none => simp
  | some pm =>
    rw [Option.bind_some, (hs server pm hsv).getClient_iff]
    constructor
    · rintro ⟨c, hc, hrec⟩
      exact ⟨pm, c, rfl, hc, hrec⟩
    · rintro ⟨pm', c, hpm', hc, hrec⟩
      cases hpm'
      exact ⟨c, hc, hrec⟩

/-- Where every client a server's mapper holds is well formed, `lookup_client` gives back exactly
the client a port was handed to. -/
theorem lookupClient_iff_of_wellFormed (hs : s.Inv)
    (hwf : ∀ pm c p, s.sessions server = some pm → pm.clientToPort c = some p → WellFormed c)
    {c : SocketAddr} (hc : WellFormed c) (p : UInt16) :
    s.lookupClient server p = some c ↔ ∃ pm, s.sessions server = some pm ∧ pm.clientToPort c = some p := by
  rw [lookupClient_iff hs]
  constructor
  · rintro ⟨pm, c', hpm, hc', hrec⟩
    rw [recorded_of_wellFormed (hwf pm c' p hpm hc'), Option.some.injEq] at hrec
    exact ⟨pm, hpm, hrec ▸ hc'⟩
  · rintro ⟨pm, hpm, hc'⟩
    exact ⟨pm, c, hpm, hc', recorded_of_wellFormed hc⟩

/-! ## Ports and the clients they lead back to -/

/-- Over any sequence of `get_or_create` calls: every call returns a port of at least `61000`,
after one reset of the server's mapper at most; two clients of a server's current mapper have two
ports; and `lookup_client` gives back, for a port, what the mapper records of the client it handed
the port: nothing for a client of port `0`, and otherwise the client as an item keeps it. -/
theorem getOrCreate_lookupClient_spec (hs : Reachable s) :
    (∀ c server, ∃ port s', (∀ fuel, s.getOrCreate c server (fuel + 2) = some (port, s')) ∧
      ephemeralRangeEnd ≤ port) ∧
    (∀ server pm c c' p p', s.sessions server = some pm → c ≠ c' →
      pm.clientToPort c = some p → pm.clientToPort c' = some p' → p ≠ p') ∧
    (∀ server p a, s.lookupClient server p = some a ↔
      ∃ pm c, s.sessions server = some pm ∧ pm.clientToPort c = some p ∧ c.port ≠ 0 ∧
        stored c = a) := by
  have hinv := hs.inv
  refine ⟨?_, ?_, ?_⟩
  · intro c server
    obtain ⟨port, pm, hrun, hport, -⟩ := getOrCreate_cases hinv c server
    exact ⟨port, _, hrun, hport⟩
  · intro server pm c c' p p' hpm hne hc hc' hpp
    subst hpp
    exact hne ((hinv server pm hpm).injective c c' p hc hc')
  · intro server p a
    simp only [lookupClient_iff hinv, recorded_eq_some]

/-- A client `[ff00::102:304]:5000`, of the ipv6 multicast prefix. -/
def multicastClient : SocketAddr :=
  .v6 ⟨#v[0xff, 0, 0, 0, 0, 0, 0, 0, 0, 0, 0, 0, 1, 2, 3, 4]⟩ 5000 0 0

/-- The ipv4 client `1.2.3.4:5000` its item reads as. -/
def mappedClient : SocketAddr := .v4 ⟨1, 2, 3, 4⟩ 5000

/-- A server `10.0.0.1:7777`. -/
def someServer : SocketAddr := .v4 ⟨10, 0, 0, 1⟩ 7777

/-- A second client, `5.6.7.8:6000`. -/
def otherClient : SocketAddr := .v4 ⟨5, 6, 7, 8⟩ 6000

/-- Two clients open sessions with one server, one after the other: the first gets `61000` and
the second `61001`, and `lookup_client` leads each port back to its client. -/
theorem getOrCreate_lookupClient_spec_twoClients :
    ∃ s, Reachable s ∧ s.lookupClient someServer ephemeralRangeEnd = some mappedClient ∧
      s.lookupClient someServer (ephemeralRangeEnd + 1) = some otherClient ∧
      (∀ c server, ∃ port s', (∀ fuel, s.getOrCreate c server (fuel + 2) = some (port, s')) ∧
        ephemeralRangeEnd ≤ port) ∧
      (∀ server pm c c' p p', s.sessions server = some pm → c ≠ c' →
        pm.clientToPort c = some p → pm.clientToPort c' = some p' → p ≠ p') ∧
      (∀ server p a, s.lookupClient server p = some a ↔
        ∃ pm c, s.sessions server = some pm ∧ pm.clientToPort c = some p ∧ c.port ≠ 0 ∧
          stored c = a) := by
  -- the server's new mapper hands `mappedClient` the first port
  rcases PortMapper.getOrAlloc_cases PortMapper.inv_new mappedClient with
    ⟨p, hc, -⟩ | ⟨-, -, pm₁, hga₁, hpm₁, hto₁, hport₁⟩ | ⟨-, hlt, -⟩
  · cases hc
  swap
  · exact absurd hlt (by decide)
  have hother : pm₁.clientToPort otherClient = none := by
    rw [hto₁, Function.update_of_ne (by decide)]
    rfl
  -- and then `otherClient` the next one
  rcases PortMapper.getOrAlloc_cases hpm₁ otherClient with
    ⟨p, hc, -⟩ | ⟨-, -, pm₂, hga₂, -, hto₂, -⟩ | ⟨-, hlt, -⟩
  · rw [hother] at hc
    cases hc
  swap
  · rw [hport₁] at hlt
    exact absurd hlt (by decide)
  let s₁ : SessionState := ⟨Function.update empty.sessions someServer (some pm₁)⟩
  have h₁ : empty.getOrCreate mappedClient someServer 1 = some (ephemeralRangeEnd, s₁) := by
    rw [getOrCreate_succ, show empty.sessions someServer = none from rfl, Option.getD_none, hga₁,
      Option.bind_some]
    rfl
  have h₂ : s₁.getOrCreate otherClient someServer 1 =
      some (pm₁.port, ⟨Function.update s₁.sessions someServer (some pm₂)⟩) := by
    rw [getOrCreate_succ,
      show s₁.sessions someServer = some pm₁ by simp only [s₁, Function.update_self],
      Option.getD_some, hga₂, Option.bind_some]
  have hreach := Reachable.getOrCreate (Reachable.getOrCreate Reachable.empty h₁) h₂
  have spec := getOrCreate_lookupClient_spec hreach
  have hsession : (⟨Function.update s₁.sessions someServer (some pm₂)⟩ : SessionState).sessions
      someServer = some pm₂ := by
    simp only [Function.update_self]
  refine ⟨_, hreach, ?_, ?_, spec⟩
  · -- `mappedClient` keeps the port it was handed
    refine (spec.2.2 _ _ _).mpr ⟨pm₂, mappedClient, hsession, ?_, by decide, rfl⟩
    rw [hto₂, Function.update_of_ne (by decide), hto₁, Function.update_self]
    rfl
  · refine (spec.2.2 _ _ _).mpr ⟨pm₂, otherClient, hsession, ?_, by decide, rfl⟩
    rw [hto₂, Function.update_self, hport₁]
    rfl

/-- The first session of `multicastClient` with a server gets port `61000`, and `lookup_client`
then leads that port back to `mappedClient`, a well-formed client the mapper never handed it. -/
theorem lookupClient_multicastClient :
    ∃ s, empty.getOrCreate multicastClient someServer 2 = some (ephemeralRangeEnd, s) ∧
      s.lookupClient someServer ephemeralRangeEnd = some mappedClient ∧ WellFormed mappedClient ∧
      ∀ pm, s.sessions someServer = some pm →
        pm.clientToPort mappedClient ≠ some ephemeralRangeEnd := by
  have hnone : empty.sessions someServer = none := rfl
  obtain ⟨pm, hrun, hpm, hto⟩ := getOrCreate_of_none hnone multicastClient
  have hs : Inv ⟨Function.update empty.sessions someServer (some pm)⟩ := inv_empty.update someServer hpm
  refine ⟨_, hrun 1, ?_, by decide, ?_⟩
  · rw [lookupClient_iff hs]
    exact ⟨pm, multicastClient, Function.update_self someServer (some pm) empty.sessions, hto,
      by decide⟩
  · intro pm' hpm' hmapped
    dsimp only at hpm'
    rw [Function.update_self, Option.some.injEq] at hpm'
    subst hpm'
    exact absurd (hpm.injective _ _ _ hmapped hto) (by decide)

end SessionState

end Quilkin.Net.Xdp
