import Quilkin.Data.AListRetain

/-!
# The TTL map

Model of `TtlMap` (`src/collections/ttl.rs`), the map the session pool, the rate limiter's
buckets, the resolver's cache and the XDP sessions are kept in. Each value carries the second it
expires at: the whole seconds of the time it was inserted or last read, plus the map's TTL. A
cleanup task prunes the map at every tick of its interval, dropping each entry whose second of
expiry the clock's whole seconds have reached.

The clock is `SystemTime` in a release build: here the nanoseconds since `UNIX_EPOCH` it reads
when a call asks it, a `Nat`, which is never before the epoch (so `Clock`'s errors, and the
expiry of `0` that a failed `update_expiration` would leave, do not arise). A `Duration` is its
nanoseconds. The `DashMap` is an association list: its shards, locks and order of iteration
decide nothing that a lookup or a prune sees, as every call runs under the lock of the entry's
shard and a prune under the locks of all of them.
-/

namespace Quilkin.Collections

/-- The nanoseconds of a second. -/
def nanosPerSec : Nat := 1000000000

/-- `Clock::now_relative_secs`: the whole seconds since the epoch. -/
def nowRelativeSecs (now : Nat) : Nat := now / nanosPerSec

/-- `Clock::compute_expiration_secs`: the whole seconds of the time `ttl` from now. -/
def computeExpirationSecs (ttl now : Nat) : Nat := (now + ttl) / nanosPerSec

/-- `Value`: a value and the second it expires at. -/
structure Value (V : Type) where
  value : V
  expiresAt : Nat

namespace Value

variable {V : Type}

/-- `Value::new`, which sets the expiration at once. -/
def new (value : V) (ttl now : Nat) : Value V := ⟨value, computeExpirationSecs ttl now⟩

/-- `Value::update_expiration`. -/
def updateExpiration (v : Value V) (ttl now : Nat) : Value V :=
  { v with expiresAt := computeExpirationSecs ttl now }

end Value

/-- `TtlMap`: the entries by key, and the TTL in nanoseconds. -/
structure TtlMap (K V : Type) where
  inner : AList fun _ : K => Value V
  ttl : Nat

/-- `Entry`, the view `entry` gives of a key under its shard's lock: the value the map holds for
it, or none. -/
inductive Entry (K V : Type)
  | occupied (key : K) (value : Value V)
  | vacant (key : K)

namespace TtlMap

variable {K V : Type} [DecidableEq K] (m : TtlMap K V) (now : Nat)

/-- `TtlMap::new`, with no entries; the cleanup task it spawns is `pruneEntries` at each tick. -/
def new (ttl : Nat) : TtlMap K V := ⟨∅, ttl⟩

/-- `get` (and `get_mut`): the value of a key, whose expiration is reset. -/
def get (key : K) : Option V × TtlMap K V :=
  match m.inner.lookup key with
  | some v => (some v.value, { m with inner := m.inner.insert key (v.updateExpiration m.ttl now) })
  | none => (none, m)

/-- `len`. -/
def len : Nat := m.inner.entries.length

/-- `contains_key`, which leaves the expiration as it is. -/
def containsKey (key : K) : Bool := (m.inner.lookup key).isSome

/-- `insert`: the value the key had, and the map with the new value, which expires a TTL from
now. -/
def insert (key : K) (value : V) : Option V × TtlMap K V :=
  ((m.inner.lookup key).map (·.value),
    { m with inner := m.inner.insert key (Value.new value m.ttl now) })

/-- `remove`: whether the key had a value. -/
def remove (key : K) : Bool × TtlMap K V :=
  ((m.inner.lookup key).isSome, { m with inner := m.inner.erase key })

/-- `clear`. -/
def clear : TtlMap K V := { m with inner := ∅ }

/-- `entry`. -/
def entry (key : K) : Entry K V :=
  match m.inner.lookup key with
  | some value => .occupied key value
  | none => .vacant key

/-- `OccupiedEntry::get`: the value, whose expiration is reset. -/
def occupiedGet (key : K) (value : Value V) : Value V × TtlMap K V :=
  let value := value.updateExpiration m.ttl now
  (value, { m with inner := m.inner.insert key value })

/-- `OccupiedEntry::insert`: the value replaced, and the map with the new one. -/
def occupiedInsert (key : K) (old : Value V) (value : V) : Value V × TtlMap K V :=
  (old, { m with inner := m.inner.insert key (Value.new value m.ttl now) })

/-- `VacantEntry::insert`: the value inserted. -/
def vacantInsert (key : K) (value : V) : Value V × TtlMap K V :=
  let value := Value.new value m.ttl now
  (value, { m with inner := m.inner.insert key value })

/-- `prune_entries` at the time `now`: when some entry has expired, found under the read locks,
the map keeps the entries that have not. -/
def pruneEntries : TtlMap K V :=
  let nowSecs := nowRelativeSecs now
  let hasExpiredKeys := m.inner.entries.any fun e => e.2.expiresAt ≤ nowSecs
  if hasExpiredKeys then { m with inner := m.inner.retain fun _ v => nowSecs < v.expiresAt }
  else m

end TtlMap

/-- What happens to a map: the calls of its users, and the ticks of its cleanup task. `entry`
stands for the pattern the XDP sessions and the rate limiter use it in: the value of an occupied
entry is read, a vacant one is given `value`. -/
inductive Op (K V : Type)
  | insert (key : K) (value : V)
  | get (key : K)
  | remove (key : K)
  | entry (key : K) (value : V)
  | prune

namespace TtlMap

variable {K V : Type} [DecidableEq K]

/-- One call or tick at the time `now`. -/
def step (m : TtlMap K V) (now : Nat) : Op K V → TtlMap K V
  | .insert key value => (m.insert now key value).2
  | .get key => (m.get now key).2
  | .remove key => (m.remove key).2
  | .entry key value =>
    match m.entry key with
    | .occupied _ v => (m.occupiedGet now key v).2
    | .vacant _ => (m.vacantInsert now key value).2
  | .prune => m.pruneEntries now

/-- The map after calls and ticks, each at the time the clock reads for it. -/
def run (m : TtlMap K V) : List (Nat × Op K V) → TtlMap K V
  | [] => m
  | (now, op) :: ops => (m.step now op).run ops

end TtlMap

end Quilkin.Collections
