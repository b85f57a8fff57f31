import Quilkin.Bytes.Endian
import Quilkin.Bytes.Buffer
import Mathlib.Algebra.Group.Int.Defs
import Mathlib.Data.Option.Basic

/-!
# QCMP: the Quilkin Control Message Protocol codec

Model of `src/codec/qcmp.rs` and of the timestamps of `src/time.rs`. A QCMP packet is

    'Q' 'L' 'K' 'N' | version | discriminant | length (u16, big endian) | nonce | timestamps

with one timestamp for a `Ping` and three for a `PingReply`, each an `i64` count of nanoseconds,
big endian. The length field counts the nonce and the timestamps.

`Protocol.encode` writes through a `PacketBuilder` into a fixed 33-byte `QcmpPacket`;
`Protocol.parse` reads through a `PacketParser` with unchecked indexing. Both are modelled in
`Option`: `none` is a panic (an out-of-range index or a failed assertion) or, for the parser's
`get_unchecked`, an out-of-bounds read, which is undefined behaviour. The `encode` modelled is the
one of a debug build, which checks its `assert_eq!`; a release build computes the same bytes
without the check.

`UtcTimestamp` wraps a `time::OffsetDateTime`; it is kept here as its nanoseconds since the Unix
epoch (`unix_timestamp_nanos`, an `i128`), which is the only view of it the codec uses.
-/

namespace Quilkin.Qcmp

open Buffer

/-! ## Timestamps (`src/time.rs`) -/

/-- `UtcTimestamp`, as its nanoseconds since the Unix epoch. -/
structure UtcTimestamp where
  /-- `inner.unix_timestamp_nanos()`. -/
  inner : Int
  deriving DecidableEq, Repr

/-- `unix_nanos`: the nanoseconds truncated to an `i64` by `as`. -/
def UtcTimestamp.unixNanos (t : UtcTimestamp) : Int64 := Int64.ofInt t.inner

/-- `from_nanos`: every `i64` is a representable date (the `expect` is never reached). -/
def UtcTimestamp.fromNanos (nanos : Int64) : UtcTimestamp := ⟨nanos.toInt⟩

@[simp] theorem UtcTimestamp.unixNanos_fromNanos (n : Int64) : (fromNanos n).unixNanos = n := by
  simp [unixNanos, fromNanos]

/-- A timestamp whose nanoseconds fit an `i64`, so that `unix_nanos` loses nothing. -/
def UtcTimestamp.FitsI64 (t : UtcTimestamp) : Prop :=
  -2 ^ 63 ≤ t.inner ∧ t.inner < 2 ^ 63

instance (t : UtcTimestamp) : Decidable t.FitsI64 :=
  inferInstanceAs (Decidable (_ ∧ _))

@[simp] theorem UtcTimestamp.fitsI64_fromNanos (n : Int64) : (fromNanos n).FitsI64 :=
  ⟨n.le_toInt, n.toInt_lt⟩

theorem UtcTimestamp.fromNanos_unixNanos {t : UtcTimestamp} (h : t.FitsI64) :
    fromNanos t.unixNanos = t := by
  obtain ⟨lo, hi⟩ := h
  simp only [fromNanos, unixNanos, Int64.toInt_ofInt_of_le lo hi]

/-- `DurationNanos`: a signed count of nanoseconds. -/
structure DurationNanos where
  nanos : Int64
  deriving DecidableEq, Repr

/-- The `-` of `i64` in a build with overflow checks: `none` where the difference leaves the range
of `i64` and the subtraction panics. A build without the checks wraps to `a - b` instead. -/
def checkedSub (a b : Int64) : Option Int64 :=
  if a.toBitVec.ssubOverflow b.toBitVec then none else some (a - b)

/-- `Sub for UtcTimestamp`: the difference of the `unix_nanos`. -/
def UtcTimestamp.sub (t rhs : UtcTimestamp) : Option DurationNanos :=
  (checkedSub t.unixNanos rhs.unixNanos).map DurationNanos.mk

/-! ## Constants -/

/-- `MAGIC_NUMBER`, the bytes of `"QLKN"`. -/
def magicNumber : List UInt8 := [0x51, 0x4c, 0x4b, 0x4e]

/-- `VERSION`. -/
def version : UInt8 := 0

/-- `MIN_QCMP_PACKET_LEN`: magic, version, discriminant, nonce, length and one timestamp. -/
def minQcmpPacketLen : Nat := 4 + 1 + 1 + 1 + 2 + 8

/-- `MAX_QCMP_PACKET_LEN`: two more timestamps. -/
def maxQcmpPacketLen : Nat := minQcmpPacketLen + 8 * 2

/-- `PING`, the discriminant of a ping. -/
def ping : UInt8 := 0

/-- `PONG`, the discriminant of a ping reply. -/
def pong : UInt8 := 1

/-! ## Messages and errors -/

/-- `Protocol`: the two QCMP messages. -/
inductive Protocol where
  /-- A client's ping. -/
  | ping (clientTimestamp : UtcTimestamp) (nonce : UInt8)
  /-- A proxy's reply to a ping. -/
  | pingReply (clientTimestamp : UtcTimestamp) (nonce : UInt8)
      (serverStartTimestamp serverTransmitTimestamp : UtcTimestamp)
  deriving DecidableEq, Repr

/-- `Error`, less its `Io` case, which only the socket code produces. -/
inductive Error where
  /-- `UnknownVersion`. -/
  | unknownVersion (version : UInt8)
  /-- `LengthMismatch(specified, available)`. -/
  | lengthMismatch (specified : UInt16) (available : Nat)
  /-- `InvalidCommand`. -/
  | invalidCommand (code : UInt8)
  deriving DecidableEq, Repr

/-! ## The packet buffer and the builder -/

/-- `QcmpPacket`: a fixed buffer of `MAX_QCMP_PACKET_LEN` bytes and the length in use. -/
structure QcmpPacket where
  /-- The backing array `[u8; MAX_QCMP_PACKET_LEN]`. -/
  buf : List UInt8
  /-- The number of bytes of the last encoded packet. -/
  len : Nat
  buf_length : buf.length = maxQcmpPacketLen

/-- `QcmpPacket::default()`. -/
def QcmpPacket.default : QcmpPacket := ⟨List.replicate maxQcmpPacketLen 0, 0, by simp⟩

/-- `PacketBuilder`: the buffer being written and the write offset. -/
structure PacketBuilder where
  packet : QcmpPacket
  offset : Nat

/-- `PacketBuilder::wrap`. -/
def PacketBuilder.wrap (packet : QcmpPacket) : PacketBuilder :=
  ⟨{ packet with len := 0 }, 0⟩

/-- `push`: `buf[offset] = val`, which panics past the end of the buffer. -/
def PacketBuilder.push (pb : PacketBuilder) (val : UInt8) : Option PacketBuilder :=
  if h : pb.offset < maxQcmpPacketLen then
    some ⟨⟨pb.packet.buf.set pb.offset val, pb.packet.len, by simp [pb.packet.buf_length]⟩,
      pb.offset + 1⟩
  else none

/-- `push_slice`: `buf[offset..offset + len].copy_from_slice(slice)`, which panics when the range
runs past the end of the buffer. -/
def PacketBuilder.pushSlice (pb : PacketBuilder) (slice : List UInt8) : Option PacketBuilder :=
  if h : pb.offset + slice.length ≤ maxQcmpPacketLen then
    some ⟨⟨overwrite pb.packet.buf pb.offset slice, pb.packet.len,
      by rw [length_overwrite (by rw [pb.packet.buf_length]; exact h), pb.packet.buf_length]⟩,
      pb.offset + slice.length⟩
  else none

/-- `finalize`: zero the rest of the buffer, record the length and return the written bytes. -/
def PacketBuilder.finalize (pb : PacketBuilder) : Option (List UInt8 × QcmpPacket) :=
  if pb.offset ≤ maxQcmpPacketLen then
    let buf := fillFrom pb.packet.buf pb.offset 0
    some (buf.take pb.offset, ⟨buf, pb.offset, by simp [buf, fillFrom, pb.packet.buf_length]; omega⟩)
  else none

/-! ## Encoding -/

/-- `discriminant`. -/
def Protocol.discriminant : Protocol → UInt8
  | .ping .. => Qcmp.ping
  | .pingReply .. => pong

/-- `nonce`. -/
def Protocol.nonce : Protocol → UInt8
  | .ping _ nonce => nonce
  | .pingReply _ nonce _ _ => nonce

/-- `payload_length`: the nonce and one or three `i64` timestamps. -/
def Protocol.payloadLength (discriminant : UInt8) : Except Error UInt16 := do
  let num ← if discriminant = Qcmp.ping then pure 1
    else if discriminant = pong then pure 3
    else throw (.invalidCommand discriminant)
  return 1 + 8 * num

/-- `discriminant_length`: `payload_length(..).unwrap()`, a panic on failure. -/
def Protocol.discriminantLength (p : Protocol) : Option UInt16 :=
  (payloadLength p.discriminant).toOption

/-- The `ets` closure of `encode_payload`: a timestamp as its big-endian nanoseconds. -/
def PacketBuilder.pushTimestamp (pb : PacketBuilder) (ts : UtcTimestamp) : Option PacketBuilder :=
  pb.pushSlice ts.unixNanos.toBeBytes

/-- `encode_payload`: the nonce, then the timestamps. -/
def Protocol.encodePayload (p : Protocol) (pb : PacketBuilder) : Option PacketBuilder := do
  let pb ← pb.push p.nonce
  match p with
  | .ping clientTimestamp _ => pb.pushTimestamp clientTimestamp
  | .pingReply clientTimestamp _ serverStartTimestamp serverTransmitTimestamp =>
    let pb ← pb.pushTimestamp clientTimestamp
    let pb ← pb.pushTimestamp serverStartTimestamp
    pb.pushTimestamp serverTransmitTimestamp

/-- `encode`, as compiled with `debug_assertions`: the bytes written and the buffer after. -/
def Protocol.encode (p : Protocol) (buffer : QcmpPacket) : Option (List UInt8 × QcmpPacket) := do
  let pb := PacketBuilder.wrap buffer
  let pb ← pb.pushSlice magicNumber
  let pb ← pb.push version
  let pb ← pb.push p.discriminant
  let dlen ← p.discriminantLength
  let pb ← pb.pushSlice dlen.toBeBytes
  let length := pb.offset
  let pb ← p.encodePayload pb
  -- `assert_eq!(pb.offset, length + usize::from(self.discriminant_length()))`
  guard (pb.offset = length + dlen.toNat)
  pb.finalize

/-! ## Parsing -/

/-- `PacketParser`: the input and the read offset. -/
structure PacketParser where
  packet : List UInt8
  offset : Nat

/-- `PacketParser::wrap`: rejects inputs shorter than `MIN_QCMP_PACKET_LEN`. -/
def PacketParser.wrap (packet : List UInt8) : Except Error PacketParser :=
  if packet.length < minQcmpPacketLen then
    .error (.lengthMismatch (UInt16.ofNat minQcmpPacketLen) packet.length)
  else .ok ⟨packet, 0⟩

/-- `read`: `get_unchecked(offset)`, undefined (`none`) out of bounds. -/
def PacketParser.read (pp : PacketParser) : Option (UInt8 × PacketParser) :=
  pp.packet[pp.offset]?.map fun b => (b, { pp with offset := pp.offset + 1 })

/-- `read_slice::<N>`: `get_unchecked(offset..offset + N)`, undefined (`none`) out of bounds. -/
def PacketParser.readSlice (pp : PacketParser) (n : Nat) : Option (List UInt8 × PacketParser) :=
  if pp.offset + n ≤ pp.packet.length then
    some ((pp.packet.drop pp.offset).take n, { pp with offset := pp.offset + n })
  else none

/-- `parse_timestamp`: eight big-endian bytes as an `i64` of nanoseconds. -/
def PacketParser.parseTimestamp (pp : PacketParser) : Option (UtcTimestamp × PacketParser) := do
  let (bytes, pp) ← pp.readSlice 8
  return (UtcTimestamp.fromNanos (Int64.fromBeBytes bytes), pp)

/-- `Protocol::parse`: `Ok(None)` when the magic number is missing, `Err` when the packet looks
like QCMP but is malformed. The outer `Option` is `none` on a panic or an out-of-bounds read. -/
def Protocol.parse (input : List UInt8) : Option (Except Error (Option Protocol)) := do
  let pp ← match PacketParser.wrap input with
    | .ok pp => pure pp
    | .error e => return .error e
  let (magic, pp) ← pp.readSlice 4
  if magic ≠ magicNumber then return .ok none
  let (version', pp) ← pp.read
  if version' ≠ version then return .error (.unknownVersion version')
  let (discriminant, pp) ← pp.read
  -- Now that the packet kind is known, the rest of its length can be checked.
  let size ← if discriminant = Qcmp.ping then pure minQcmpPacketLen
    else if discriminant = pong then pure maxQcmpPacketLen
    else return .error (.invalidCommand discriminant)
  if pp.packet.length < size then
    return .error (.lengthMismatch (UInt16.ofNat size) pp.packet.length)
  let (lengthBytes, pp) ← pp.readSlice 2
  let length := UInt16.fromBeBytes lengthBytes
  let payloadLength ← match payloadLength discriminant with
    | .ok n => pure n
    | .error e => return .error e
  if length ≠ payloadLength then
    return .error (.lengthMismatch length payloadLength.toNat)
  let remainder := pp.packet.length - pp.offset
  if length.toNat ≠ remainder then
    return .error (.lengthMismatch length remainder)
  let (nonce, pp) ← pp.read
  let payload ← if discriminant = Qcmp.ping then do
      let (clientTimestamp, _) ← pp.parseTimestamp
      pure (Protocol.ping clientTimestamp nonce)
    else if discriminant = pong then do
      let (clientTimestamp, pp) ← pp.parseTimestamp
      let (serverStartTimestamp, pp) ← pp.parseTimestamp
      let (serverTransmitTimestamp, _) ← pp.parseTimestamp
      pure (Protocol.pingReply clientTimestamp nonce serverStartTimestamp serverTransmitTimestamp)
    else
      -- `unreachable!("we should have already verified the discriminant")`
      none
  return .ok (some payload)

/-! ## Measurements -/

/-- `DistanceMeasure` (`src/net/phoenix.rs`): the latency to a target and back from it. -/
structure DistanceMeasure where
  incoming : DurationNanos
  outgoing : DurationNanos
  deriving DecidableEq, Repr

/-- `round_trip_delay`: for a `PingReply`, the delay of the NTP clock synchronisation algorithm,
the time the client waited less the time the server held the ping. The outer `Option` is `none`
where one of the three subtractions overflows. -/
def Protocol.roundTripDelay (p : Protocol) (clientResponseTimestamp : UtcTimestamp) :
    Option (Option DurationNanos) :=
  match p with
  | .ping .. => some none
  | .pingReply clientTimestamp _ serverStartTimestamp serverTransmitTimestamp => do
    let waited ← checkedSub clientResponseTimestamp.unixNanos clientTimestamp.unixNanos
    let held ← checkedSub serverTransmitTimestamp.unixNanos serverStartTimestamp.unixNanos
    let delay ← checkedSub waited held
    return some ⟨delay⟩

/-- `distance`: for a `PingReply`, the time from the client to the server and back. The outer
`Option` is `none` where a subtraction overflows. -/
def Protocol.distance (p : Protocol) (clientResponseTimestamp : UtcTimestamp) :
    Option (Option DistanceMeasure) :=
  match p with
  | .ping .. => some none
  | .pingReply clientTimestamp _ serverStartTimestamp serverTransmitTimestamp => do
    let incoming ← serverStartTimestamp.sub clientTimestamp
    let outgoing ← clientResponseTimestamp.sub serverTransmitTimestamp
    return some ⟨incoming, outgoing⟩

end Quilkin.Qcmp
