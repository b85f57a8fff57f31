import Quilkin.Filters.Error
import Quilkin.Net.Endpoint
import Mathlib.Logic.Function.Basic
import Mathlib.Algebra.Group.Nat.Defs

/-!
# The local rate limit filter

Model of `LocalRateLimit` (`src/filters/local_rate_limit.rs`). Each source address has a bucket:
a counter of the calls in the current window, accepted or not, and the second the window
started. A call is refused when the count before it has reached `max_packets` and the window is
not over; a call more than `period` seconds after the window's start opens a new window.

The buckets live in a `TtlMap`, here a map whose entries do not expire. The calls run one at a
time, each at the second the clock reads for it: between the failed `get` and `entry` of the
first call of an address no other call adds the bucket. The counter is a `usize` of 64 bits, and
`fetch_add` wraps; `now_secs - window_start_secs` panics below zero in a build with overflow
checks (`none`).
-/

namespace Quilkin.Filters

open Quilkin.Net (EndpointAddress)

/-- `Config`. -/
structure Config where
  maxPackets : UInt64
  period : UInt32

/-- `Bucket`: the calls counted in the window and the second the window started. -/
structure Bucket where
  counter : UInt64
  windowStartTimeSecs : UInt64

/-- `LocalRateLimit`: the bucket of each source address, and the configuration. -/
structure LocalRateLimit where
  state : EndpointAddress → Option Bucket
  config : Config

namespace LocalRateLimit

/-- `LocalRateLimit::new`: a period under one second is refused. -/
def new (config : Config) : Except CreationError LocalRateLimit :=
  if config.period < 1 then .error (.fieldInvalid "period" "value must be at least 1 second")
  else .ok ⟨fun _ => none, config⟩

/-- The bucket of `address` written. -/
def setBucket (l : LocalRateLimit) (address : EndpointAddress) (bucket : Bucket) : LocalRateLimit :=
  { l with state := Function.update l.state address (some bucket) }

/-- `acquire_token` at the second `nowSecs`: whether the call is accepted, and the buckets after
it. -/
def acquireToken (l : LocalRateLimit) (address : EndpointAddress) (nowSecs : UInt64) :
    Option (Bool × LocalRateLimit) :=
  if l.config.maxPackets = 0 then some (false, l)
  else
    match l.state address with
    | some bucket =>
      let prevCount := bucket.counter
      let l := l.setBucket address { bucket with counter := bucket.counter + 1 }
      let windowStartSecs := bucket.windowStartTimeSecs
      if nowSecs < windowStartSecs then none
      else
        let elapsedSecs := nowSecs - windowStartSecs
        let startNewWindow := elapsedSecs > l.config.period.toUInt64
        if prevCount ≥ l.config.maxPackets ∧ ¬ startNewWindow then some (false, l)
        else if startNewWindow then some (true, l.setBucket address ⟨1, nowSecs⟩)
        else some (true, l)
    | none =>
      -- `entry`: a bucket found now is one another call added since the `get`
      match l.state address with
      | some bucket =>
        some (true, l.setBucket address { bucket with counter := bucket.counter + 1 })
      | none => some (true, l.setBucket address ⟨1, nowSecs⟩)

/-- `read`: the packet passes when the call gets a token. -/
def read (l : LocalRateLimit) (source : EndpointAddress) (nowSecs : UInt64) :
    Option (Except FilterError Unit × LocalRateLimit) :=
  (l.acquireToken source nowSecs).map fun (ok, l) =>
    (if ok then .ok () else .error .rateLimitExceeded, l)

/-- Calls one after the other, each from an address at a second: whether each is accepted. -/
def run (l : LocalRateLimit) :
    List (EndpointAddress × UInt64) → Option (List Bool × LocalRateLimit)
  | [] => some ([], l)
  | (address, nowSecs) :: calls => do
    let (ok, l) ← l.acquireToken address nowSecs
    let (oks, l) ← l.run calls
    return (ok :: oks, l)

end LocalRateLimit

end Quilkin.Filters
