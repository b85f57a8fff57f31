import Quilkin.Net.SessionPool

/-!
# Proofs: the invariant of the session pool

Whatever order `HashMap::iter` takes, whatever ports new sockets get as long as they are not
allocated already, and whatever the GeoIP lookup finds, every run of `get` and removals from a new
pool keeps the pool's four maps a record of its live sessions (`Inv`): no two sessions to one
server share a socket, so a server's reply on a port belongs to one client; each session is
recorded in the three maps that name it; every entry of the four maps belongs to a live session,
and no set is left empty; and there are at most `max_sessions` sessions.

`get` makes a session in one way (`get_cases`): on an allocated socket, possibly new, that the
server has no session on. `Inv.create` is the step lemma of that, `Inv.remove` the one of a
removal, and `inv_run` the run lemma.
-/

namespace Quilkin.Net

namespace SessionPool

variable {A : Type} (env : Env A)

section Fields

variable (pool : SessionPool A) (key : SessionKey) (port : UInt16)

@[simp] theorem create_portsToSockets :
    (createSessionFromExistingSocket env pool key port).2.portsToSockets = pool.portsToSockets :=
  rfl

@[simp] theorem create_destinationToSockets :
    (createSessionFromExistingSocket env pool key port).2.destinationToSockets =
      pool.destinationToSockets.insertAt key.dest port :=
  rfl

@[simp] theorem create_socketsToDestination :
    (createSessionFromExistingSocket env pool key port).2.socketsToDestination =
      pool.socketsToDestination.insertAt port key.dest :=
  rfl

@[simp] theorem create_destinationToSources :
    (createSessionFromExistingSocket env pool key port).2.destinationToSources =
      Function.update pool.destinationToSources (key.dest, port) (some key.source) :=
  rfl

@[simp] theorem create_sessionMap :
    (createSessionFromExistingSocket env pool key port).2.sessionMap =
      pool.sessionMap.insert key ⟨key, port, env.lookup key.source.ip⟩ :=
  rfl

@[simp] theorem create_maxSessions :
    (createSessionFromExistingSocket env pool key port).2.maxSessions = pool.maxSessions :=
  rfl

/-- The GeoIP entry of the client is stored when the lookup finds one. -/
theorem create_sourcesToAsnInfo_eq_some {src : SocketAddr} {asn : A}
    (h : (createSessionFromExistingSocket env pool key port).2.sourcesToAsnInfo src = some asn) :
    src = key.source ∨ pool.sourcesToAsnInfo src = some asn := by
  cases hl : env.lookup key.source.ip with
  | none =>
    have hfield : (createSessionFromExistingSocket env pool key port).2.sourcesToAsnInfo =
        pool.sourcesToAsnInfo := by
      simp only [createSessionFromExistingSocket, hl]
    rw [hfield] at h
    exact .inr h
  | some found =>
    have hfield : (createSessionFromExistingSocket env pool key port).2.sourcesToAsnInfo =
        Function.update pool.sourcesToAsnInfo key.source (some found) := by
      simp only [createSessionFromExistingSocket, hl]
    rw [hfield] at h
    by_cases hs : src = key.source
    · exact .inl hs
    · rw [Function.update_of_ne hs] at h
      exact .inr h

end Fields

/-- The invariant of the pool. A session is live when the session map holds it under its key. -/
structure Inv (pool : SessionPool A) : Prop where
  key_eq : ∀ k s, pool.sessionMap.lookup k = some s → s.key = k
  allocated : ∀ s, pool.sessionMap.lookup s.key = some s → s.socketPort ∈ pool.portsToSockets
  /-- Two live sessions to one server are on two sockets. -/
  port_ne : ∀ s s', pool.sessionMap.lookup s.key = some s → pool.sessionMap.lookup s'.key = some s' →
    s.key ≠ s'.key → s.key.dest = s'.key.dest → s.socketPort ≠ s'.socketPort
  /-- Each live session is recorded in the maps that name it. -/
  source_eq : ∀ s, pool.sessionMap.lookup s.key = some s →
    pool.destinationToSources (s.key.dest, s.socketPort) = some s.key.source
  port_reserved : ∀ s, pool.sessionMap.lookup s.key = some s →
    s.socketPort ∈ pool.destinationToSockets.get s.key.dest
  dest_recorded : ∀ s, pool.sessionMap.lookup s.key = some s →
    s.key.dest ∈ pool.socketsToDestination.get s.socketPort
  /-- Every entry of the four maps belongs to a live session. -/
  reserved_live : ∀ dest port, port ∈ pool.destinationToSockets.get dest →
    ∃ s, pool.sessionMap.lookup s.key = some s ∧ s.key.dest = dest ∧ s.socketPort = port
  recorded_live : ∀ port dest, dest ∈ pool.socketsToDestination.get port →
    ∃ s, pool.sessionMap.lookup s.key = some s ∧ s.key.dest = dest ∧ s.socketPort = port
  source_live : ∀ dest port src, pool.destinationToSources (dest, port) = some src →
    ∃ s, pool.sessionMap.lookup s.key = some s ∧ s.key = ⟨src, dest⟩ ∧ s.socketPort = port
  asn_live : ∀ src asn, pool.sourcesToAsnInfo src = some asn →
    ∃ s, pool.sessionMap.lookup s.key = some s ∧ s.key.source = src
  /-- No set is left empty. -/
  reserved_noEmpty : pool.destinationToSockets.NoEmpty
  recorded_noEmpty : pool.socketsToDestination.NoEmpty
  /-- At most `max_sessions` sessions. -/
  length_le : pool.sessionMap.entries.length ≤ pool.maxSessions

theorem inv_new (maxSessions : Nat) : (new maxSessions : SessionPool A).Inv where
  key_eq _ _ h := by cases h
  allocated _ h := by cases h
  port_ne _ _ h := by cases h
  source_eq _ h := by cases h
  port_reserved _ h := by cases h
  dest_recorded _ h := by cases h
  reserved_live _ _ h := absurd h (Finset.notMem_empty _)
  recorded_live _ _ h := absurd h (Finset.notMem_empty _)
  source_live _ _ _ h := by cases h
  asn_live _ _ h := by cases h
  reserved_noEmpty := SetMap.noEmpty_empty
  recorded_noEmpty := SetMap.noEmpty_empty
  length_le := Nat.zero_le _

section Create

variable {pool : SessionPool A} {key : SessionKey} {port : UInt16}

theorem lookup_create_eq_some {k : SessionKey} {s : Session A} :
    (createSessionFromExistingSocket env pool key port).2.sessionMap.lookup k = some s ↔
      (k = key ∧ s = ⟨key, port, env.lookup key.source.ip⟩) ∨
        (k ≠ key ∧ pool.sessionMap.lookup k = some s) := by
  rw [create_sessionMap]
  by_cases hk : k = key
  · subst hk
    rw [AList.lookup_insert, Option.some_inj]
    constructor
    · rintro rfl
      exact .inl ⟨rfl, rfl⟩
    · rintro (⟨-, rfl⟩ | ⟨hne, -⟩)
      · rfl
      · exact absurd rfl hne
  · rw [AList.lookup_insert_ne hk]
    exact ⟨fun h => .inr ⟨hk, h⟩, fun h => h.elim (fun h' => absurd h'.1 hk) And.right⟩

/-- A session of the pool after `create` is the new one or one that was live. -/
theorem live_create_cases {s : Session A}
    (h : (createSessionFromExistingSocket env pool key port).2.sessionMap.lookup s.key = some s) :
    s = ⟨key, port, env.lookup key.source.ip⟩ ∨ pool.sessionMap.lookup s.key = some s := by
  rcases (lookup_create_eq_some env).mp h with ⟨-, hs⟩ | ⟨-, hs⟩
  · exact .inl hs
  · exact .inr hs

theorem live_create_new :
    (createSessionFromExistingSocket env pool key port).2.sessionMap.lookup key =
      some ⟨key, port, env.lookup key.source.ip⟩ := by
  rw [create_sessionMap, AList.lookup_insert]

theorem live_create_old (hkey : pool.sessionMap.lookup key = none) {s : Session A}
    (hs : pool.sessionMap.lookup s.key = some s) :
    (createSessionFromExistingSocket env pool key port).2.sessionMap.lookup s.key = some s := by
  have hne : s.key ≠ key := by
    rintro heq
    rw [heq, hkey] at hs
    cases hs
  exact (lookup_create_eq_some env).mpr (.inr ⟨hne, hs⟩)

/-- A live session is not on a port that is free for its server. -/
theorem Inv.not_reserved (hi : pool.Inv) {dest : SocketAddr}
    (hfree : port ∉ pool.destinationToSockets.get dest) {s : Session A}
    (hs : pool.sessionMap.lookup s.key = some s) : ¬(s.key.dest = dest ∧ s.socketPort = port) := by
  rintro ⟨rfl, rfl⟩
  exact hfree (hi.port_reserved s hs)

/-- The step lemma of a new session: made under a key without one, below `max_sessions`, on an
allocated socket the server has no session on, it keeps the invariant. -/
theorem Inv.create (hi : pool.Inv) (hkey : pool.sessionMap.lookup key = none)
    (hlen : pool.sessionMap.entries.length < pool.maxSessions) (hport : port ∈ pool.portsToSockets)
    (hfree : port ∉ pool.destinationToSockets.get key.dest) :
    (createSessionFromExistingSocket env pool key port).2.Inv where
  key_eq k s h := by
    rcases (lookup_create_eq_some env).mp h with ⟨rfl, rfl⟩ | ⟨-, hs⟩
    · rfl
    · exact hi.key_eq k s hs
  allocated s h := by
    rcases live_create_cases env h with rfl | hs
    · exact hport
    · exact hi.allocated s hs
  port_ne s s' h h' hne hdest := by
    rcases live_create_cases env h with rfl | hs <;> rcases live_create_cases env h' with rfl | hs'
    · exact absurd rfl hne
    · -- a live session to the server is not on the free port
      intro hp
      exact hi.not_reserved hfree hs' ⟨hdest.symm, hp.symm⟩
    · intro hp
      exact hi.not_reserved hfree hs ⟨hdest, hp⟩
    · exact hi.port_ne s s' hs hs' hne hdest
  source_eq s h := by
    rcases live_create_cases env h with rfl | hs
    · exact Function.update_self _ _ _
    · have hne : (s.key.dest, s.socketPort) ≠ (key.dest, port) := fun heq =>
        hi.not_reserved hfree hs (Prod.mk.inj heq)
      rw [create_destinationToSources, Function.update_of_ne hne]
      exact hi.source_eq s hs
  port_reserved s h := by
    rw [create_destinationToSockets, SetMap.mem_get_insertAt]
    rcases live_create_cases env h with rfl | hs
    · exact .inr ⟨rfl, rfl⟩
    · exact .inl (hi.port_reserved s hs)
  dest_recorded s h := by
    rw [create_socketsToDestination, SetMap.mem_get_insertAt]
    rcases live_create_cases env h with rfl | hs
    · exact .inr ⟨rfl, rfl⟩
    · exact .inl (hi.dest_recorded s hs)
  reserved_live dest p h := by
    rw [create_destinationToSockets, SetMap.mem_get_insertAt] at h
    rcases h with h | ⟨hd, hp⟩
    · obtain ⟨s, hs, hd, hp⟩ := hi.reserved_live dest p h
      exact ⟨s, live_create_old env hkey hs, hd, hp⟩
    · exact ⟨⟨key, port, env.lookup key.source.ip⟩, live_create_new env, hd.symm, hp.symm⟩
  recorded_live p dest h := by
    rw [create_socketsToDestination, SetMap.mem_get_insertAt] at h
    rcases h with h | ⟨hp, hd⟩
    · obtain ⟨s, hs, hd, hp⟩ := hi.recorded_live p dest h
      exact ⟨s, live_create_old env hkey hs, hd, hp⟩
    · exact ⟨⟨key, port, env.lookup key.source.ip⟩, live_create_new env, hd.symm, hp.symm⟩
  source_live dest p src h := by
    rw [create_destinationToSources] at h
    by_cases hpair : (dest, p) = (key.dest, port)
    · obtain ⟨hd, hp⟩ := Prod.mk.inj hpair
      rw [hpair, Function.update_self, Option.some_inj] at h
      refine ⟨⟨key, port, env.lookup key.source.ip⟩, live_create_new env, ?_, hp.symm⟩
      rw [hd, ← h]
    · rw [Function.update_of_ne hpair] at h
      obtain ⟨s, hs, hk, hp⟩ := hi.source_live dest p src h
      exact ⟨s, live_create_old env hkey hs, hk, hp⟩
  asn_live src asn h := by
    rcases create_sourcesToAsnInfo_eq_some env pool key port h with hsrc | h
    · exact ⟨⟨key, port, env.lookup key.source.ip⟩, live_create_new env, hsrc.symm⟩
    · obtain ⟨s, hs, hsrc⟩ := hi.asn_live src asn h
      exact ⟨s, live_create_old env hkey hs, hsrc⟩
  reserved_noEmpty := hi.reserved_noEmpty.insertAt key.dest port
  recorded_noEmpty := hi.recorded_noEmpty.insertAt port key.dest
  length_le := by
    rw [create_sessionMap, AList.entries_insert_of_notMem (AList.lookup_eq_none.mp hkey),
      List.length_cons, create_maxSessions]
    omega

end Create

section Get

variable {pool pool' : SessionPool A} {key : SessionKey} {r : Option A × UInt16}

/-- The port `get` reserves for the server before making the session is the one `create`
reserves. -/
theorem create_reserved {set : Finset UInt16} (h : pool.destinationToSockets key.dest = some set)
    (port : UInt16) :
    (createSessionFromExistingSocket env
        { pool with
          destinationToSockets :=
            Function.update pool.destinationToSockets key.dest (some (insert port set)) }
        key port).2 =
      (createSessionFromExistingSocket env pool key port).2 := by
  simp only [createSessionFromExistingSocket, SetMap.insertAt_update_insert h]

/-- More allocated ports keep the invariant. -/
theorem Inv.withPorts (hi : pool.Inv) {ports : List UInt16} (hsub : pool.portsToSockets ⊆ ports) :
    { pool with portsToSockets := ports }.Inv :=
  { hi with allocated := fun s h => hsub (hi.allocated s h) }

/-- A port that is not allocated is free for every server. -/
theorem Inv.not_reserved_of_not_allocated (hi : pool.Inv) {port : UInt16}
    (h : port ∉ pool.portsToSockets) (dest : SocketAddr) :
    port ∉ pool.destinationToSockets.get dest := by
  intro hres
  obtain ⟨s, hs, -, rfl⟩ := hi.reserved_live dest port hres
  exact h (hi.allocated s hs)

/-- A session on a new socket: the socket's port is not allocated, and is allocated with it. -/
theorem createNew_cases (h : createNewSessionFromNewSocket env pool key = .ok (r, pool')) :
    ∃ port, port ∉ pool.portsToSockets ∧
      pool' = (createSessionFromExistingSocket env
        { pool with portsToSockets := pool.portsToSockets ++ [port] } key port).2 := by
  unfold createNewSessionFromNewSocket at h
  cases hsock : env.newSocket pool.portsToSockets with
  | error e =>
    rw [hsock] at h
    cases h
  | ok port =>
    rw [hsock] at h
    exact ⟨port, env.newSocket_fresh _ _ hsock, (congrArg Prod.snd (Except.ok.inj h)).symm⟩

/-- What `get` can do: give the session of the key, changing nothing, or make one under a key
without one, below `max_sessions`, on an allocated socket (possibly allocated for it) that the
server has no session on. -/
theorem get_cases (hi : pool.Inv) (h : pool.get env key = .ok (r, pool')) :
    pool' = pool ∨
    ∃ ports port, pool.portsToSockets ⊆ ports ∧ port ∈ ports ∧
      pool.sessionMap.lookup key = none ∧ pool.sessionMap.entries.length < pool.maxSessions ∧
      port ∉ pool.destinationToSockets.get key.dest ∧
      pool' = (createSessionFromExistingSocket env { pool with portsToSockets := ports } key port).2 := by
  -- a session on a new socket is one on an allocated socket the server has no session on
  have hnew : pool.sessionMap.lookup key = none →
      pool.sessionMap.entries.length < pool.maxSessions →
      createNewSessionFromNewSocket env pool key = .ok (r, pool') →
      ∃ ports port, pool.portsToSockets ⊆ ports ∧ port ∈ ports ∧
        pool.sessionMap.lookup key = none ∧ pool.sessionMap.entries.length < pool.maxSessions ∧
        port ∉ pool.destinationToSockets.get key.dest ∧
        pool' = (createSessionFromExistingSocket env { pool with portsToSockets := ports } key port).2 := by
    intro hkey hlen hcreate
    obtain ⟨port, hfresh, rfl⟩ := createNew_cases env hcreate
    exact ⟨_, port, List.subset_append_left _ _, List.mem_append_right _ (List.mem_singleton_self _),
      hkey, hlen, hi.not_reserved_of_not_allocated hfresh key.dest, rfl⟩
  unfold SessionPool.get at h
  rcases Option.eq_none_or_eq_some (pool.sessionMap.lookup key) with hkey | ⟨entry, hkey⟩
  · rw [hkey] at h
    dsimp only at h
    by_cases hfull : pool.sessionMap.entries.length ≥ pool.maxSessions
    · rw [if_pos hfull] at h
      cases h
    rw [if_neg hfull] at h
    have hlen : pool.sessionMap.entries.length < pool.maxSessions := Nat.lt_of_not_le hfull
    cases hres : pool.destinationToSockets key.dest with
    | none =>
      -- no socket reserved for the server: the first allocated one, or a new one
      rw [hres] at h
      dsimp only at h
      by_cases hempty : pool.portsToSockets.isEmpty
      · rw [if_pos hempty] at h
        exact .inr (hnew hkey hlen h)
      rw [if_neg hempty] at h
      cases hfirst : (env.iterOrder pool.portsToSockets).head? with
      | none =>
        rw [hfirst] at h
        cases h
      | some port =>
        rw [hfirst] at h
        have hmem : port ∈ pool.portsToSockets :=
          (env.iterOrder_perm _).mem_iff.mp (List.mem_of_mem_head? hfirst)
        have hfree : port ∉ pool.destinationToSockets.get key.dest := by
          rw [SetMap.get, hres]
          exact Finset.notMem_empty port
        exact .inr ⟨_, port, List.Subset.refl _, hmem, hkey, hlen, hfree,
          (congrArg Prod.snd (Except.ok.inj h)).symm⟩
    | some set =>
      -- the first allocated socket not reserved for the server, or a new one
      rw [hres] at h
      dsimp only at h
      cases hfind : (env.iterOrder pool.portsToSockets).find? fun port => port ∉ set with
      | none =>
        rw [hfind] at h
        exact .inr (hnew hkey hlen h)
      | some port =>
        rw [hfind] at h
        have hmem : port ∈ pool.portsToSockets :=
          (env.iterOrder_perm _).mem_iff.mp (List.mem_of_find?_eq_some hfind)
        have hfree : port ∉ pool.destinationToSockets.get key.dest := by
          rw [SetMap.get_eq_of_eq_some hres]
          simpa using List.find?_some hfind
        have hpool := (congrArg Prod.snd (Except.ok.inj h)).symm
        rw [create_reserved env hres port] at hpool
        exact .inr ⟨_, port, List.Subset.refl _, hmem, hkey, hlen, hfree, hpool⟩
  · -- the session of the key: nothing changes
    rw [hkey] at h
    exact .inl (congrArg Prod.snd (Except.ok.inj h)).symm

/-- `get` keeps the invariant. -/
theorem Inv.get (hi : pool.Inv) (h : pool.get env key = .ok (r, pool')) : pool'.Inv := by
  rcases get_cases env hi h with rfl | ⟨ports, port, hsub, hport, hkey, hlen, hfree, rfl⟩
  · exact hi
  · exact (hi.withPorts hsub).create env hkey hlen hport hfree

/-- `get` leaves `max_sessions` as it is. -/
theorem maxSessions_get (hi : pool.Inv) (h : pool.get env key = .ok (r, pool')) :
    pool'.maxSessions = pool.maxSessions := by
  rcases get_cases env hi h with rfl | ⟨ports, port, -, -, -, -, -, rfl⟩ <;> rfl

end Get

section Remove

variable {pool : SessionPool A} {key : SessionKey}

theorem lookup_erase_eq_some {k : SessionKey} {s : Session A} :
    (pool.sessionMap.erase key).lookup k = some s ↔ k ≠ key ∧ pool.sessionMap.lookup k = some s := by
  by_cases hk : k = key
  · subst hk
    rw [AList.lookup_erase]
    constructor
    · intro h
      cases h
    · intro h
      exact absurd rfl h.1
  · rw [AList.lookup_erase_ne hk]
    exact ⟨fun h => ⟨hk, h⟩, And.right⟩

/-- `release_socket` of a port reserved for the server, which records the server: both entries go,
with the client's GeoIP entry and the pair's client. -/
theorem releaseSocket_of_mem {port : UInt16} (h₁ : port ∈ pool.destinationToSockets.get key.dest)
    (h₂ : key.dest ∈ pool.socketsToDestination.get port) :
    pool.releaseSocket key port =
      { pool with
        destinationToSockets := pool.destinationToSockets.eraseAt key.dest port
        socketsToDestination := pool.socketsToDestination.eraseAt port key.dest
        sourcesToAsnInfo := Function.update pool.sourcesToAsnInfo key.source none
        destinationToSources := Function.update pool.destinationToSources (key.dest, port) none } := by
  obtain ⟨set₁, hset₁⟩ := SetMap.exists_eq_some_of_mem_get h₁
  obtain ⟨set₂, hset₂⟩ := SetMap.exists_eq_some_of_mem_get h₂
  unfold releaseSocket
  rw [hset₁]
  dsimp only
  rw [hset₂]

/-- The step lemma of a removal: the live session `s₀` leaves the map and its socket is released;
every other live session is on another pair of server and port, so its records stay. -/
theorem Inv.release (hi : pool.Inv) {s₀ : Session A} (hs₀ : pool.sessionMap.lookup s₀.key = some s₀) :
    ({ pool with
        sessionMap := pool.sessionMap.erase s₀.key
        destinationToSockets := pool.destinationToSockets.eraseAt s₀.key.dest s₀.socketPort
        socketsToDestination := pool.socketsToDestination.eraseAt s₀.socketPort s₀.key.dest
        sourcesToAsnInfo := Function.update pool.sourcesToAsnInfo s₀.key.source none
        destinationToSources :=
          Function.update pool.destinationToSources (s₀.key.dest, s₀.socketPort) none } :
      SessionPool A).Inv := by
  -- a session that stays is not `s₀`, so it is on another pair of server and port
  have hstay : ∀ {s : Session A}, s.key ≠ s₀.key → pool.sessionMap.lookup s.key = some s →
      ¬(s.key.dest = s₀.key.dest ∧ s.socketPort = s₀.socketPort) :=
    fun {s} hne hs ⟨hd, hp⟩ => hi.port_ne s s₀ hs hs₀ hne hd hp
  have hgone : ∀ {s : Session A}, pool.sessionMap.lookup s.key = some s → s.key = s₀.key → s = s₀ := by
    intro s hs hk
    rw [hk, hs₀, Option.some_inj] at hs
    exact hs.symm
  exact {
    key_eq := fun k s h => hi.key_eq k s (lookup_erase_eq_some.mp h).2
    allocated := fun s h => hi.allocated s (lookup_erase_eq_some.mp h).2
    port_ne := fun s s' h h' =>
      hi.port_ne s s' (lookup_erase_eq_some.mp h).2 (lookup_erase_eq_some.mp h').2
    source_eq := fun s h => by
      obtain ⟨hne, hs⟩ := lookup_erase_eq_some.mp h
      have hpair : (s.key.dest, s.socketPort) ≠ (s₀.key.dest, s₀.socketPort) := fun heq =>
        hstay hne hs (Prod.mk.inj heq)
      dsimp only
      rw [Function.update_of_ne hpair]
      exact hi.source_eq s hs
    port_reserved := fun s h => by
      obtain ⟨hne, hs⟩ := lookup_erase_eq_some.mp h
      exact SetMap.mem_get_eraseAt.mpr ⟨hi.port_reserved s hs, hstay hne hs⟩
    dest_recorded := fun s h => by
      obtain ⟨hne, hs⟩ := lookup_erase_eq_some.mp h
      exact SetMap.mem_get_eraseAt.mpr ⟨hi.dest_recorded s hs, fun ⟨hp, hd⟩ => hstay hne hs ⟨hd, hp⟩⟩
    reserved_live := fun dest p h => by
      obtain ⟨h, hnot⟩ := SetMap.mem_get_eraseAt.mp h
      obtain ⟨s, hs, rfl, rfl⟩ := hi.reserved_live dest p h
      have hne : s.key ≠ s₀.key := fun hk => hnot (by rw [hgone hs hk]; exact ⟨rfl, rfl⟩)
      exact ⟨s, lookup_erase_eq_some.mpr ⟨hne, hs⟩, rfl, rfl⟩
    recorded_live := fun p dest h => by
      obtain ⟨h, hnot⟩ := SetMap.mem_get_eraseAt.mp h
      obtain ⟨s, hs, rfl, rfl⟩ := hi.recorded_live p dest h
      have hne : s.key ≠ s₀.key := fun hk => hnot (by rw [hgone hs hk]; exact ⟨rfl, rfl⟩)
      exact ⟨s, lookup_erase_eq_some.mpr ⟨hne, hs⟩, rfl, rfl⟩
    source_live := fun dest p src h => by
      dsimp only at h
      by_cases hpair : (dest, p) = (s₀.key.dest, s₀.socketPort)
      · rw [hpair, Function.update_self] at h
        cases h
      rw [Function.update_of_ne hpair] at h
      obtain ⟨s, hs, hk, hp⟩ := hi.source_live dest p src h
      have hne : s.key ≠ s₀.key := fun hk₀ => hpair (by rw [← hgone hs hk₀, hk, hp])
      exact ⟨s, lookup_erase_eq_some.mpr ⟨hne, hs⟩, hk, hp⟩
    asn_live := fun src asn h => by
      dsimp only at h
      by_cases hsrc : src = s₀.key.source
      · rw [hsrc, Function.update_self] at h
        cases h
      rw [Function.update_of_ne hsrc] at h
      obtain ⟨s, hs, rfl⟩ := hi.asn_live src asn h
      have hne : s.key ≠ s₀.key := fun hk => hsrc (by rw [hgone hs hk])
      exact ⟨s, lookup_erase_eq_some.mpr ⟨hne, hs⟩, rfl⟩
    reserved_noEmpty := hi.reserved_noEmpty.eraseAt _ _
    recorded_noEmpty := hi.recorded_noEmpty.eraseAt _ _
    length_le := le_trans (List.kerase_sublist _ _).length_le hi.length_le }

theorem maxSessions_releaseSocket (pool : SessionPool A) (key : SessionKey) (port : UInt16) :
    (pool.releaseSocket key port).maxSessions = pool.maxSessions := by
  unfold releaseSocket
  split
  · rfl
  · dsimp only
    split <;> rfl

theorem maxSessions_remove (key : SessionKey) : (pool.remove key).maxSessions = pool.maxSessions := by
  unfold SessionPool.remove
  split
  · exact maxSessions_releaseSocket _ _ _
  · rfl

theorem Inv.remove (hi : pool.Inv) (key : SessionKey) : (pool.remove key).Inv := by
  unfold SessionPool.remove
  cases hs : pool.sessionMap.lookup key with
  | none => exact hi
  | some s₀ =>
    dsimp only
    have hk : s₀.key = key := hi.key_eq key s₀ hs
    rw [← hk] at hs ⊢
    have h₁ : s₀.socketPort ∈
        ({ pool with sessionMap := pool.sessionMap.erase s₀.key } : SessionPool A).destinationToSockets.get
          s₀.key.dest :=
      hi.port_reserved s₀ hs
    have h₂ : s₀.key.dest ∈
        ({ pool with sessionMap := pool.sessionMap.erase s₀.key } : SessionPool A).socketsToDestination.get
          s₀.socketPort :=
      hi.dest_recorded s₀ hs
    rw [releaseSocket_of_mem h₁ h₂]
    exact hi.release hs

end Remove

variable {pool : SessionPool A}

/-- The step lemma: each operation keeps the invariant and `max_sessions`. -/
theorem Inv.step (hi : pool.Inv) (op : Op) :
    (pool.step env op).Inv ∧ (pool.step env op).maxSessions = pool.maxSessions := by
  cases op with
  | get key =>
    rw [SessionPool.step]
    cases h : pool.get env key with
    | ok res =>
      obtain ⟨r, pool'⟩ := res
      exact ⟨hi.get env h, maxSessions_get env hi h⟩
    | error e => exact ⟨hi, rfl⟩
  | remove key => exact ⟨hi.remove key, maxSessions_remove key⟩

/-- The run lemma: the invariant and `max_sessions` hold after every run from a pool where the
invariant holds. -/
theorem Inv.run (hi : pool.Inv) (ops : List Op) :
    (pool.run env ops).Inv ∧ (pool.run env ops).maxSessions = pool.maxSessions := by
  induction ops generalizing pool with
  | nil => exact ⟨hi, rfl⟩
  | cons op ops ih =>
    obtain ⟨hstep, hmax⟩ := hi.step env op
    obtain ⟨hrun, hmax'⟩ := ih hstep
    exact ⟨hrun, hmax'.trans hmax⟩

/-- After any operations from a new pool: two live sessions to one server are on two sockets;
each live session's server, port and client are recorded in the three maps that name them; every
entry of the four maps belongs to a live session, and no set is empty; and there are at most
`max_sessions` sessions. -/
theorem run_sessions_consistent (maxSessions : Nat) (ops : List Op) :
    let pool := (new maxSessions : SessionPool A).run env ops
    (∀ s s', pool.sessionMap.lookup s.key = some s → pool.sessionMap.lookup s'.key = some s' →
      s.key ≠ s'.key → s.key.dest = s'.key.dest → s.socketPort ≠ s'.socketPort) ∧
    (∀ s, pool.sessionMap.lookup s.key = some s →
      pool.destinationToSources (s.key.dest, s.socketPort) = some s.key.source ∧
      s.socketPort ∈ pool.destinationToSockets.get s.key.dest ∧
      s.key.dest ∈ pool.socketsToDestination.get s.socketPort) ∧
    ((∀ dest port, port ∈ pool.destinationToSockets.get dest →
        ∃ s, pool.sessionMap.lookup s.key = some s ∧ s.key.dest = dest ∧ s.socketPort = port) ∧
      (∀ port dest, dest ∈ pool.socketsToDestination.get port →
        ∃ s, pool.sessionMap.lookup s.key = some s ∧ s.key.dest = dest ∧ s.socketPort = port) ∧
      (∀ dest port src, pool.destinationToSources (dest, port) = some src →
        ∃ s, pool.sessionMap.lookup s.key = some s ∧ s.key = ⟨src, dest⟩ ∧ s.socketPort = port) ∧
      (∀ src asn, pool.sourcesToAsnInfo src = some asn →
        ∃ s, pool.sessionMap.lookup s.key = some s ∧ s.key.source = src) ∧
      pool.destinationToSockets.NoEmpty ∧ pool.socketsToDestination.NoEmpty) ∧
    pool.sessionMap.entries.length ≤ maxSessions := by
  intro pool
  obtain ⟨hi, hmax⟩ := (inv_new maxSessions).run env ops
  exact ⟨hi.port_ne, fun s hs => ⟨hi.source_eq s hs, hi.port_reserved s hs, hi.dest_recorded s hs⟩,
    ⟨hi.reserved_live, hi.recorded_live, hi.source_live, hi.asn_live, hi.reserved_noEmpty,
      hi.recorded_noEmpty⟩, hi.length_le.trans_eq hmax⟩

end SessionPool

end Quilkin.Net
