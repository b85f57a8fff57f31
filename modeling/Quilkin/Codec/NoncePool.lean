import Quilkin.Data.Vec
import Quilkin.Data.StepRun

/-!
# The nonce pool of the QCMP transceiver

Model of `NoncePool` and `NonceLease` (`src/codec/qcmp.rs`). The transceiver pairs a reply with
the waiter of its ping by the nonce, so a nonce may be held by one waiter at a time. The pool
keeps the nonces not leased in a vector behind a mutex; `lease` takes one out at a random index
by `swap_remove`, and dropping the lease pushes its nonce back.

Each call holds the mutex from start to end, and a poisoned mutex is recovered with
`into_inner` and used as it is: whatever thread makes them, the calls are atomic steps on the
vector. The index `rand::random_range(..length)` draws is a parameter of the step. A
`LeaseState` is the pool with the leases alive, and a holder either leases or drops one of them.
-/

namespace Quilkin.Qcmp

/-- `NoncePool`: the vector of the nonces not leased. -/
structure NoncePool where
  nonces : List UInt8

/-- `NoncePool::new`: the nonces `0..u8::MAX`, that is `0` to `254`. -/
def NoncePool.new : NoncePool := ⟨(List.range 255).map UInt8.ofNat⟩

/-- `NonceLease`: a nonce held by a waiter, until the lease is dropped. -/
structure NonceLease where
  nonce : UInt8

/-- `lease`, with `index` what `rand::random_range(..length)` returns: no lease when the pool is
empty, else the nonce at `index`, taken out by `swap_remove`. The outer `Option` is `none` for an
`index` out of range, which the random source never returns. -/
def NoncePool.lease (pool : NoncePool) (index : Nat) : Option (Option NonceLease × NoncePool) :=
  let length := pool.nonces.length
  if length = 0 then some (none, pool)
  else (Vec.swapRemove pool.nonces index).map fun (nonce, nonces) => (some ⟨nonce⟩, ⟨nonces⟩)

/-- `Drop for NonceLease`: the nonce is pushed back onto the pool. -/
def NonceLease.drop (lease : NonceLease) (pool : NoncePool) : NoncePool :=
  ⟨pool.nonces ++ [lease.nonce]⟩

/-- The pool and the leases alive, in the order they were taken. -/
structure LeaseState where
  pool : NoncePool
  leases : List NonceLease

/-- What a holder does: lease with the index the random source draws, or drop the lease alive at
a position. -/
inductive LeaseOp
  | lease (index : Nat)
  | drop (holder : Nat)

/-- The calls there can be: a lease draws an index of the vector when it is not empty, as
`rand::random_range(..length)` does, and a drop is of a lease alive. -/
def LeaseOp.Valid (s : LeaseState) : LeaseOp → Prop
  | .lease index => index < s.pool.nonces.length ∨ s.pool.nonces = []
  | .drop holder => holder < s.leases.length

/-- A new pool, no lease alive. -/
def LeaseState.init : LeaseState := ⟨NoncePool.new, []⟩

/-- One call; `none` where the random index is out of range or no lease is alive at `holder`. -/
def LeaseState.step (s : LeaseState) : LeaseOp → Option LeaseState
  | .lease index => (s.pool.lease index).map fun (lease, pool) => ⟨pool, s.leases ++ lease.toList⟩
  | .drop holder =>
    if h : holder < s.leases.length then
      some ⟨s.leases[holder].drop s.pool, s.leases.eraseIdx holder⟩
    else none

end Quilkin.Qcmp
