import Quilkin.Corrosion.Codec

/-!
# Batching subscription events

Model of the write and read sides of a corrosion subscription (`crates/corrosion/src/pubsub.rs`).

Each query event is serialized once, by `query_to_sub_event`, into a `SubscriptionEvent` whose
`buff` is the JSON of the event behind its own two-byte length. `BufferingSubStream` appends those
buffers into one `PrefixedBuf` through `extend_capped`, and hands out a frozen batch whenever the
next event would take the batch over `max_size` (`poll_next`, `drain`), or over `0` (`pop`), when
its timer fires and when the channel closes. A reader takes a batch apart with
`SubscriptionStream::length_prefixed` and iterates its events.

The channel and the timer are not modelled; what they do to the stream is an `Input`: an event
received, a `pop` with what `try_recv` returned, a timeout, the end of the channel.
`serde_json` is outside the repository: the write side is given the serialized bytes of each event,
and the read side hands out the bytes of each event, which `serde_json::from_slice` would parse.
-/

namespace Quilkin.Corrosion

/-- `SubscriptionEvent`: the length-prefixed JSON of a query event, and the change id its
`meta` carries (`EndOfQuery(Some(id))` or `Change(id)`). -/
structure SubscriptionEvent where
  buff : List UInt8
  changeId : Option Nat

/-- `handle_sub_event`: record the change id, then append the event to the batch. The
warnings logged about non-contiguous change ids are left out. -/
def handleSubEvent (maxSize : UInt16) (buf : PrefixedBuf) (event : SubscriptionEvent)
    (lastChangeId : Nat) : Option (Option (List UInt8) × PrefixedBuf) × Nat :=
  let lastChangeId := match event.changeId with
    | some changeId => changeId
    | none => lastChangeId
  (buf.extendCapped event.buff maxSize, lastChangeId)

/-- `query_to_sub_event`, for an event that serializes to `json` with the change id `changeId`. -/
def queryToSubEvent (buf : PrefixedBuf) (json : List UInt8) (changeId : Option Nat) :
    Option (Except String (SubscriptionEvent × PrefixedBuf)) :=
  (buf.writeJson json).map fun r => r.map fun (buff, buf) => (⟨buff, changeId⟩, buf)

/-! ## The write side -/

/-- `BufferingSubStream`, without its channel, timer and span. -/
structure BufferingSubStream where
  maxSize : UInt16
  changeId : Nat
  buffer : PrefixedBuf

/-- `BufferingSubStream::new`. -/
def BufferingSubStream.new (maxSize : UInt16) : BufferingSubStream := ⟨maxSize, 0, .new⟩

/-- What happens to the stream next. -/
inductive BufferingSubStream.Input
  /-- `poll_next` or `drain` received an event. -/
  | recv (event : SubscriptionEvent)
  /-- `pop`, with what `try_recv` returned. -/
  | pop (event : Option SubscriptionEvent)
  /-- The timer of `poll_next` fired. -/
  | timeout
  /-- The channel is closed: `poll_next` and `drain` flush the batch. -/
  | closed

namespace BufferingSubStream

/-- The batch handed out, if any, and the next state; `none` is a panic. -/
def step (s : BufferingSubStream) : Input → Option (Option (List UInt8) × BufferingSubStream)
  | .recv event =>
    let (r, changeId) := handleSubEvent s.maxSize s.buffer event s.changeId
    r.map fun (out, buffer) => (out, { s with changeId, buffer })
  | .pop none => s.buffer.freeze.map fun (out, buffer) => (out, { s with buffer })
  | .pop (some event) =>
    let (r, changeId) := handleSubEvent 0 s.buffer event s.changeId
    match r with
    | some (some out, buffer) => some (some out, { s with changeId, buffer })
    | some (none, buffer) => buffer.freeze.map fun (out, buffer) => (out, { s with changeId, buffer })
    | none => none
  | .timeout => s.buffer.freeze.map fun (out, buffer) => (out, { s with buffer })
  | .closed => s.buffer.freeze.map fun (out, buffer) => (out, { s with buffer })

/-- The batches handed out over a sequence of inputs, and the last state. -/
def run (s : BufferingSubStream) : List Input → Option (List (List UInt8) × BufferingSubStream)
  | [] => some ([], s)
  | i :: is => do
    let (out, s) ← s.step i
    let (outs, s) ← run s is
    return (out.toList ++ outs, s)

end BufferingSubStream

/-! ## The read side -/

/-- `read_length_prefixed_bytes`: the next chunk and what follows it; nothing, and the input
untouched, when the chunk is not complete. -/
def readLengthPrefixedBytes : List UInt8 → Option (List UInt8 × List UInt8)
  | b0 :: b1 :: rest =>
    let len := (UInt16.fromLeBytes [b0, b1]).toNat
    if len > rest.length then none else some (rest.take len, rest.drop len)
  | _ => none

/-- `SubscriptionStream`, the read side of one batch. -/
structure SubscriptionStream where
  buf : List UInt8

namespace SubscriptionStream

/-- `length_prefixed`: the stream over the first chunk, and the bytes after it. -/
def lengthPrefixed (buf : List UInt8) : Option (SubscriptionStream × List UInt8) :=
  (readLengthPrefixedBytes buf).map fun (chunk, rest) => (⟨chunk⟩, rest)

/-- The chunks the iterator reads, at most `fuel` of them. -/
def chunks : Nat → List UInt8 → List (List UInt8)
  | 0, _ => []
  | fuel + 1, buf =>
    match readLengthPrefixedBytes buf with
    | none => []
    | some (chunk, rest) => chunk :: chunks fuel rest

/-- The bytes of the events the iterator hands to `serde_json::from_slice`, in order; every
chunk takes at least its two length bytes, so there are at most as many as bytes. -/
def toList (s : SubscriptionStream) : List (List UInt8) := chunks s.buf.length s.buf

end SubscriptionStream

/-- The events a reader finds in one batch: `length_prefixed`, then the iterator. -/
def decodeBatch (batch : List UInt8) : List (List UInt8) :=
  match SubscriptionStream.lengthPrefixed batch with
  | some (stream, _) => stream.toList
  | none => []

end Quilkin.Corrosion
