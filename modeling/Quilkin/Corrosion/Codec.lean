import Quilkin.Bytes.Endian

/-!
# Length-prefixed buffers

Model of `PrefixedBuf` and `update_length_prefix` (`crates/corrosion/src/codec.rs`). A
`PrefixedBuf` accumulates bytes after a two-byte marker `0xfe 0xed`; `freeze` overwrites the
marker with the number of bytes after it, as a little-endian `u16`, hands the whole buffer out
and starts a new one with a fresh marker.

`freeze` calls `update_length_prefix(..).expect("unreachable")`, so a buffer holding more than
`u16::MAX` bytes makes it panic; panics are `none`. The reusable `scratch` vector of `write_json`
is cleared before each use, so it carries nothing from one call to the next and is left out:
`writeJson` takes the bytes `serde_json::to_writer` put in it.
-/

namespace Quilkin.Corrosion

/-- `LENGTH_MARKER`, the two bytes that reserve the length prefix. -/
def lengthMarker : List UInt8 := [0xfe, 0xed]

/-- `LengthPrefixError`. -/
inductive LengthPrefixError
  | tooLong (len : Nat)
  | invalidMarker
  deriving DecidableEq, Repr

/-- `update_length_prefix`: the number of bytes after the first two written over them, little
endian, once those two are checked to be the marker. `none` for a buffer of fewer than two bytes,
where `buf.len() - 2` overflows. -/
def updateLengthPrefix : List UInt8 → Option (Except LengthPrefixError (List UInt8))
  | m0 :: m1 :: rest =>
    if rest.length > 65535 then some (.error (.tooLong rest.length))
    else
      let len := UInt16.ofNat rest.length
      if [m0, m1] ≠ lengthMarker then some (.error .invalidMarker)
      else some (.ok (len.toUInt8 :: (len >>> 8).toUInt8 :: rest))
  | _ => none

/-- `write_length_prefixed_json`, given the bytes `serde_json::to_writer` writes: the marker
reserved, the JSON after it, and the length written over the marker; every error of
`update_length_prefix` becomes the one `serialized JSON was > 64k`. -/
def writeLengthPrefixedJson (json : List UInt8) : Option (Except String (List UInt8)) :=
  (updateLengthPrefix (lengthMarker ++ json)).map fun r =>
    r.mapError fun _ => "serialized JSON was > 64k"

/-- `PrefixedBuf`: the bytes of `inner`, which always begin with the reserved marker. -/
structure PrefixedBuf where
  inner : List UInt8
  reserved : inner.take 2 = lengthMarker

namespace PrefixedBuf

/-- `new` (and `with_capacity`: the capacity is not observable). -/
def new : PrefixedBuf := ⟨lengthMarker, rfl⟩

/-- `len`: the bytes after the prefix. -/
def len (b : PrefixedBuf) : Nat := b.inner.length - 2

/-- `is_empty`. -/
def isEmpty (b : PrefixedBuf) : Bool := b.inner.length ≤ 2

/-- `max_remainder`: `u16::MAX` less the length, saturating. -/
def maxRemainder (b : PrefixedBuf) : Nat := 65535 - b.len

theorem two_le_length (b : PrefixedBuf) : 2 ≤ b.inner.length := by
  have h : (b.inner.take 2).length = 2 := by rw [b.reserved]; rfl
  rw [List.length_take] at h
  omega

/-- `inner.extend_from_slice(buf)`. -/
def extend (b : PrefixedBuf) (buf : List UInt8) : PrefixedBuf :=
  ⟨b.inner ++ buf, by rw [List.take_append_of_le_length b.two_le_length, b.reserved]⟩

/-- `freeze`: nothing for an empty buffer; otherwise the buffer with its length written in, and
a new buffer. -/
def freeze (b : PrefixedBuf) : Option (Option (List UInt8) × PrefixedBuf) :=
  if b.isEmpty then some (none, b)
  else
    match updateLengthPrefix b.inner with
    | some (.ok buf) => some (some buf, new)
    | _ => none

/-- `extend_capped`: the buffer so far is frozen first when the slice would take it over
`max`. -/
def extendCapped (b : PrefixedBuf) (buf : List UInt8) (max : UInt16) :
    Option (Option (List UInt8) × PrefixedBuf) := do
  let (rb, b) ← if b.len + buf.length > max.toNat then b.freeze else pure (none, b)
  return (rb, b.extend buf)

/-- `write_json`, given the serialized object `scratch`: an error when it does not fit in
`max_remainder`, otherwise the buffer with it appended, frozen. -/
def writeJson (b : PrefixedBuf) (scratch : List UInt8) :
    Option (Except String (List UInt8 × PrefixedBuf)) :=
  if scratch.length > b.maxRemainder then
    some (.error ("serialized object of " ++ toString scratch.length ++
      " was too large to fit in the remaining capacity of " ++ toString b.maxRemainder))
  else
    match (b.extend scratch).freeze with
    | some (some buf, b) => some (.ok (buf, b))
    | _ => none

end PrefixedBuf

end Quilkin.Corrosion
