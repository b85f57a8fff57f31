import Quilkin.Filters.Context

/-!
# The capture and concatenate filters

Model of the two filters that edit a packet's contents on the read side: `Capture`
(`src/filters/capture.rs` and its strategies in `src/filters/capture/`), which copies bytes of the
packet into the dynamic metadata and may cut them off, and `Concatenate`
(`src/filters/concatenate.rs`), which adds fixed bytes at the head or the tail of the packet.
A client proxy that appends a routing token with `Concatenate` and a server proxy that captures
and removes it with `Capture` are how quilkin routes by token.

A strategy returns the value captured and how many bytes to remove: a negative count from the
head, a positive one from the tail. `remove_head` of a `BytesMut` panics past the end (`none`),
which no strategy asks for. The regular expression strategy uses the `regex` crate, whose
`find_iter` on the pattern is the parameter `findIter`: the matched byte slices in order.
-/

namespace Quilkin.Filters

open Net

/-- `CAPTURED_BYTES`, the default key of the captured value. -/
def capturedBytes : Key := "quilkin.dev/capture"

namespace Capture

/-- `is_valid_size`: the packet holds at least `size` bytes. -/
def isValidSize (contents : List UInt8) (size : UInt32) : Bool := contents.length ≥ size.toNat

/-- `Prefix`. -/
structure Prefix where
  remove : Bool
  size : UInt32

/-- `Suffix`. -/
structure Suffix where
  size : UInt32
  remove : Bool

/-- `QuicDcid`. -/
structure QuicDcid where
  size : UInt32

/-- `Regex`, by the `find_iter` of its pattern. -/
structure Regex where
  findIter : List UInt8 → List (List UInt8)

/-- `CaptureStrategy::capture` of `Prefix`: the first `size` bytes, removed from the head when
`remove` is set. -/
def Prefix.capture (p : Prefix) (contents : List UInt8) : Option (Value × Int) :=
  if isValidSize contents p.size then
    some (.bytes (contents.take p.size.toNat), if p.remove then -(p.size.toNat : Int) else 0)
  else none

/-- `CaptureStrategy::capture` of `Suffix`: the bytes from `len - size` on, removed from the tail
when `remove` is set. -/
def Suffix.capture (s : Suffix) (contents : List UInt8) : Option (Value × Int) :=
  if isValidSize contents s.size then
    let index := contents.length - s.size.toNat
    some (.bytes (contents.drop index), if s.remove then (s.size.toNat : Int) else 0)
  else none

/-- `QuicHeaderType::derive`: a long header when the first byte has its top bit set. -/
def isLongHeader (first : UInt8) : Bool := first &&& 0x80 != 0

/-- The `capture_offset` of `QuicDcid`: `6` in a long header whose id length (byte `5`) is at
least `size`, `1` in a short header; `none` returns from `capture`, as the `?` on a missing byte
does. -/
def QuicDcid.captureOffset (q : QuicDcid) (contents : List UInt8) : Option Nat :=
  match contents.head? with
  | none => none
  | some first =>
    if isLongHeader first then
      match contents[5]? with
      | some dcidLen => if dcidLen.toUInt32 ≥ q.size then some 6 else none
      | none => none
    else some 1

/-- `CaptureStrategy::capture` of `QuicDcid`: `size` bytes of the destination connection id from
its offset, when the packet holds them. Nothing is removed. -/
def QuicDcid.capture (q : QuicDcid) (contents : List UInt8) : Option (Value × Int) :=
  (q.captureOffset contents).bind fun captureOffset =>
    let captureEnd := captureOffset + q.size.toNat
    if captureEnd ≤ contents.length then
      some (.bytes ((contents.drop captureOffset).take q.size.toNat), 0)
    else none

/-- `CaptureStrategy::capture` of `Regex`: all matches as a list when there are several, the one
match otherwise. Nothing is removed. -/
def Regex.capture (r : Regex) (contents : List UInt8) : Option (Value × Int) :=
  let found := (r.findIter contents).map Value.bytes
  if found.length > 1 then some (.list found, 0)
  else found.head?.map fun v => (v, 0)

/-- `Strategy`, with `into_capture` its `capture`. -/
inductive Strategy
  | ofPrefix (p : Prefix)
  | ofSuffix (s : Suffix)
  | ofRegex (r : Regex)
  | ofQuicDcid (q : QuicDcid)

/-- The `capture` of the strategy's `CaptureStrategy`. -/
def Strategy.capture : Strategy → List UInt8 → Option (Value × Int)
  | .ofPrefix p => p.capture
  | .ofSuffix s => s.capture
  | .ofRegex r => r.capture
  | .ofQuicDcid q => q.capture

/-- `Config`: the key to capture under, `CAPTURED_BYTES` unless given, and the strategy. -/
structure Config where
  metadataKey : Key := capturedBytes
  strategy : Strategy

end Capture

/-- `Capture`: the strategy, the key of the captured value, and the key of whether a value was
captured. -/
structure Capture where
  capture : Capture.Strategy
  metadataKey : Key
  isPresentKey : Key

namespace Capture

/-- `Capture::new`: the flag under `{metadata_key}/is_present`. -/
def new (config : Config) : Capture :=
  ⟨config.strategy, config.metadataKey, config.metadataKey ++ "/is_present"⟩

/-- `Filter::read`. Whether a value was captured is always recorded; a captured value is stored
and the bytes it asks for are removed, and a packet with nothing to capture is refused after
that. -/
def read (c : Capture) (ctx : ReadContext) : Option (ReadContext × Except FilterError Unit) :=
  let capture := c.capture.capture ctx.contents
  let ctx := { ctx with metadata := ctx.metadata.insert c.isPresentKey (.bool capture.isSome) }
  match capture with
  | some (value, remove) =>
    let ctx := { ctx with metadata := ctx.metadata.insert c.metadataKey value }
    if remove ≠ 0 then
      if remove < 0 then
        (BytesMut.removeHead ctx.contents remove.natAbs).map fun contents =>
          ({ ctx with contents }, .ok ())
      else some ({ ctx with contents := BytesMut.removeTail ctx.contents remove.toNat }, .ok ())
    else some (ctx, .ok ())
  | none => some (ctx, .error .noValueCaptured)

end Capture

namespace Concatenate

/-- `Strategy`, `DoNothing` by default. -/
inductive Strategy
  | append
  | prepend
  | doNothing
  deriving DecidableEq

/-- What one direction of the filter does to the contents: `extend_tail` or `extend_head` with the
bytes, or nothing. -/
def Strategy.apply : Strategy → List UInt8 → List UInt8 → List UInt8
  | .append, bytes, contents => BytesMut.extendTail contents bytes
  | .prepend, bytes, contents => BytesMut.extendHead contents bytes
  | .doNothing, _, contents => contents

end Concatenate

/-- `Concatenate`. -/
structure Concatenate where
  onRead : Concatenate.Strategy
  onWrite : Concatenate.Strategy
  bytes : List UInt8

namespace Concatenate

variable (c : Concatenate)

/-- `Filter::read`, which never fails. -/
def read (ctx : ReadContext) : ReadContext :=
  { ctx with contents := c.onRead.apply c.bytes ctx.contents }

/-- `Filter::write`, which never fails. -/
def write (ctx : WriteContext) : WriteContext :=
  { ctx with contents := c.onWrite.apply c.bytes ctx.contents }

end Concatenate

end Quilkin.Filters
