import Quilkin.Net.Packet
import Quilkin.Bytes.Buffer
import Mathlib.Algebra.Group.Nat.Defs

/-!
# The XDP packet wrapper

Model of `PacketWrapper` and `parse_headers` (`src/net/io/nic/xdp/process.rs`). A frame received
on the XDP path holds the Ethernet, IP and UDP headers and then the datagram's payload, at
`headers.data` in the frame. Filters edit that payload through `PacketMut`; the wrapper turns each
edit into an edit of the whole frame, and records the first edit it could not apply in `failure`,
after which the frame is dropped.

The xdp crate is outside the repository. What the wrapper and `parse_headers` call on its
`Packet` is the record `XdpPacket`, a parameter of the model, and `XdpPacket.Lawful` states what
they rely on: each operation, when it succeeds, does to the frame's bytes what the same operation
does to a byte vector, and `UdpHeaders::parse_packet` accepts a frame only when the datagram it
finds fills the frame to its end. Of `UdpHeaders` only the IP header's length and the payload's
range are read here; an error of the crate is its `discriminant()`, the label the packet is
dropped with.
-/

namespace Quilkin.Net.Xdp

/-- `IpHdr`, as far as `parse_headers` reads it: an ipv4 header's `internet_header_length()`, in
bytes, or an ipv6 header. -/
inductive IpHdr
  | v4 (internetHeaderLength : UInt8)
  | v6

/-- `UdpHeaders`: the IP header, and the range `data = dataStart..dataEnd` of the payload. -/
structure UdpHeaders where
  ip : IpHdr
  dataStart : Nat
  dataEnd : Nat

/-- `data_length`. -/
def UdpHeaders.dataLength (headers : UdpHeaders) : Nat := headers.dataEnd - headers.dataStart

/-- `PacketError`: the datagram does not fit the frame (`InsufficientData`), or any other error,
as its discriminant. -/
inductive PacketError
  | insufficientData (offset size length : Nat)
  | other (discriminant : String)

/-- The operations of the xdp crate's `Packet` the XDP path calls, over a frame type `P`. -/
structure XdpPacket (P : Type) where
  /-- The frame's bytes, through `Deref<Target = [u8]>`. -/
  bytes : P → List UInt8
  /-- `insert(offset, slice)`. -/
  insert : P → Nat → List UInt8 → Except String P
  /-- `append(slice)`. -/
  append : P → List UInt8 → Except String P
  /-- `adjust_tail(offset)`. -/
  adjustTail : P → Int32 → Except String P
  /-- `copy_within(start..stop, dest)` of the byte slice; `none` is its panic. -/
  copyWithin : P → Nat → Nat → Nat → Option P
  /-- `UdpHeaders::parse_packet`. -/
  parsePacket : P → Except PacketError (Option UdpHeaders)

/-- What the wrapper relies on the crate for: a frame is a byte vector shorter than `i32::MAX`
(a UMEM chunk), each operation that succeeds does what it does on a vector, `copy_within` of an
in-range window succeeds, and a datagram `parse_packet` returns ends at the frame's end (a frame
with more or fewer bytes is `InsufficientData`). When an operation fails is left open. -/
structure XdpPacket.Lawful {P : Type} (packet : XdpPacket P) : Prop where
  length_lt : ∀ p, (packet.bytes p).length < 2 ^ 31
  insert_ok : ∀ p off src p', packet.insert p off src = .ok p' →
    off ≤ (packet.bytes p).length ∧
      packet.bytes p' = (packet.bytes p).take off ++ src ++ (packet.bytes p).drop off
  append_ok : ∀ p src p', packet.append p src = .ok p' → packet.bytes p' = packet.bytes p ++ src
  adjustTail_shrink : ∀ p (n : Nat) p', n < 2 ^ 31 →
    packet.adjustTail p (-(Int32.ofNat n)) = .ok p' →
      packet.bytes p' = (packet.bytes p).take ((packet.bytes p).length - n)
  copyWithin_ok : ∀ p start stop dest, start ≤ stop → stop ≤ (packet.bytes p).length →
    dest + (stop - start) ≤ (packet.bytes p).length →
      ∃ p', packet.copyWithin p start stop dest = some p' ∧
        packet.bytes p' = Buffer.copyWithin (packet.bytes p) start dest (stop - start)
  parsePacket_fills : ∀ p headers, packet.parsePacket p = .ok (some headers) →
    headers.dataStart ≤ headers.dataEnd ∧ headers.dataEnd = (packet.bytes p).length

/-! ## Parsing a received frame -/

/-- `MIN_ETHERNET_FRAME`. -/
def minEthernetFrame : Nat := 60

/-- `Ipv4Hdr::LEN`, an ipv4 header without options. -/
def ipv4HdrLen : Nat := 20

section Parse

variable {P : Type} (packet : XdpPacket P)

/-- The loop of `parse_headers`, with `n` iterations left. A frame Ethernet padded past the
datagram is cut to the datagram and parsed again. -/
def parseHeadersLoop : Nat → P → Except String (UdpHeaders × P)
  | 0, _ => .error "malformed packet"
  | n + 1, buffer =>
    match packet.parsePacket buffer with
    | .ok (some headers) =>
      match headers.ip with
      | .v4 ihl =>
        if ihl.toNat ≠ ipv4HdrLen then .error "ipv4 header length" else .ok (headers, buffer)
      | .v6 => .ok (headers, buffer)
    | .ok none => .error "non-UDP packet"
    | .error (.other discriminant) => .error discriminant
    | .error (.insufficientData offset size length) =>
      if length < offset + size then .error "truncated packet"
      else
        let padding := length - (offset + size)
        if padding = 0 ∨ length > minEthernetFrame then .error "trailing data"
        else
          match packet.adjustTail buffer (-(Int32.ofNat padding)) with
          | .error discriminant => .error discriminant
          | .ok buffer => parseHeadersLoop n buffer

/-- `parse_headers`: the headers, and the frame as the loop left it. -/
def parseHeaders (buffer : P) : Except String (UdpHeaders × P) := parseHeadersLoop packet 2 buffer

end Parse

/-! ## The wrapper -/

/-- `PacketWrapper`. -/
structure PacketWrapper (P : Type) where
  buffer : P
  headers : UdpHeaders
  failure : Option String

namespace PacketWrapper

variable {P : Type} (packet : XdpPacket P)

/-- `PacketWrapper::new`. -/
def new (buffer : P) (headers : UdpHeaders) : PacketWrapper P := ⟨buffer, headers, none⟩

/-- `fail`: `get_or_insert` keeps the first failure. -/
def fail (w : PacketWrapper P) (failure : String) : PacketWrapper P :=
  { w with failure := some (w.failure.getD failure) }

/-- The payload's range moved to end at `dataEnd`. -/
def setDataEnd (w : PacketWrapper P) (buffer : P) (dataEnd : Nat) : PacketWrapper P :=
  { w with buffer, headers := { w.headers with dataEnd } }

/-- `trim`: shrink the frame and the payload by `length`, unless that takes more than the
payload. The frame is cut through `adjust_tail(-(length as i32))`. -/
def trim (w : PacketWrapper P) (length : Nat) (failure : String) : PacketWrapper P :=
  if length > w.headers.dataLength then w.fail failure
  else
    match packet.adjustTail w.buffer (-(Int32.ofNat length)) with
    | .error _ => w.fail failure
    | .ok buffer => w.setDataEnd buffer (w.headers.dataEnd - length)

/-- `as_slice`: `&buffer[data.start..data.end]`; `none` is its panic. -/
def asSlice (w : PacketWrapper P) : Option (List UInt8) :=
  if w.headers.dataStart ≤ w.headers.dataEnd ∧ w.headers.dataEnd ≤ (packet.bytes w.buffer).length
  then some (((packet.bytes w.buffer).take w.headers.dataEnd).drop w.headers.dataStart)
  else none

/-- `extend_head`: the bytes inserted into the frame where the payload starts. -/
def extendHead (w : PacketWrapper P) (bytes : List UInt8) : PacketWrapper P :=
  match packet.insert w.buffer w.headers.dataStart bytes with
  | .error _ => w.fail "filter::extend head"
  | .ok buffer => w.setDataEnd buffer (w.headers.dataEnd + bytes.length)

/-- `extend_tail`: the bytes appended to the frame. -/
def extendTail (w : PacketWrapper P) (bytes : List UInt8) : PacketWrapper P :=
  match packet.append w.buffer bytes with
  | .error _ => w.fail "filter::extend tail"
  | .ok buffer => w.setDataEnd buffer (w.headers.dataEnd + bytes.length)

/-- `remove_head`: the rest of the payload copied down over the removed bytes, then the frame
trimmed; `none` is a panic of `copy_within`. -/
def removeHead (w : PacketWrapper P) (length : Nat) : Option (PacketWrapper P) :=
  if length = 0 then some w
  else if length > w.headers.dataLength ∨ w.headers.dataEnd > (packet.bytes w.buffer).length then
    some (w.fail "filter::remove head")
  else
    (packet.copyWithin w.buffer (w.headers.dataStart + length) w.headers.dataEnd
        w.headers.dataStart).map fun buffer =>
      trim packet { w with buffer } length "filter::remove head"

/-- `remove_tail`. -/
def removeTail (w : PacketWrapper P) (length : Nat) : PacketWrapper P :=
  trim packet w length "filter::remove tail"

/-- One edit a filter makes; `none` is a panic. -/
def apply (w : PacketWrapper P) : PacketOp → Option (PacketWrapper P)
  | .removeHead length => w.removeHead packet length
  | .removeTail length => some (w.removeTail packet length)
  | .extendHead bytes => some (w.extendHead packet bytes)
  | .extendTail bytes => some (w.extendTail packet bytes)

/-- A sequence of edits, as a filter chain makes them. -/
def run (w : PacketWrapper P) : List PacketOp → Option (PacketWrapper P)
  | [] => some w
  | op :: ops => (w.apply packet op).bind fun w => w.run ops

end PacketWrapper

end Quilkin.Net.Xdp
