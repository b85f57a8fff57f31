import Quilkin.Net.Packet
import Quilkin.Bytes.Buffer

/-!
# The io-uring receive buffer

Model of `RingBuffer` (`src/net/io/completion/ring.rs`): one buffer of the kernel's buffer ring,
holding a received datagram at `buf[head..tail]` after the `io_uring_recvmsg_out` header and the
peer's address. Filters edit the payload in place through `PacketMut`.

The copies of `extend_head` and `extend_tail` are `ptr::copy_nonoverlapping` and `ptr::copy`
inside `unsafe` blocks: they are `Buffer.overwrite` and `Buffer.copyWithin`, and the one copy
whose window the code does not keep inside the buffer (the shift of `extend_head`) is `none` when
it would leave it, as undefined behaviour. Slicing `buf[head..tail]` panics unless
`head ≤ tail ≤ buf.len()`, and is `none` there. `extract` is kept as far as it sets the payload
window: its two length checks and the positions; reading the peer's address out of the
`sockaddr` is left out.
-/

namespace Quilkin.Net

open Buffer

/-- `RECV_OUT`, the size of `io_uring_recvmsg_out`: four `u32`s. -/
def recvOut : Nat := 16

/-- `RingBuffer`, without the buffer id. -/
structure RingBuffer where
  buf : List UInt8
  head : Nat
  tail : Nat

namespace RingBuffer

/-- `extract`, given the length of the completion, the `msg_namelen` and `msg_controllen` of the
header and the `payload` length the kernel wrote. -/
def extract (rb : RingBuffer) (len namelen controllen payload : Nat) : Except String RingBuffer :=
  if ¬ recvOut < len then .error "not enough space for io_uring_recvmsg_out"
  else if ¬ recvOut + namelen + controllen + payload ≤ len then
    .error "insufficient space required for address and payload"
  else .ok { rb with head := recvOut + namelen, tail := recvOut + namelen + payload }

/-- `as_slice`: `&buf[head..tail]`. -/
def asSlice (rb : RingBuffer) : Option (List UInt8) :=
  if rb.head ≤ rb.tail ∧ rb.tail ≤ rb.buf.length then some ((rb.buf.take rb.tail).drop rb.head)
  else none

/-- `freeze`: a copy of the same slice. -/
def freeze (rb : RingBuffer) : Option (List UInt8) := rb.asSlice

/-- `extend_head`. With room before the head the bytes go just before it. Otherwise as much of
them as fits goes before the head, the payload is shifted right by what is left of them (at most
by the room left in the buffer), and that rest is written in the gap. -/
def extendHead (rb : RingBuffer) (bytes : List UInt8) : Option RingBuffer :=
  if bytes.length ≤ rb.head then
    let head := rb.head - bytes.length
    some { rb with buf := overwrite rb.buf head bytes, head }
  else
    let (start, buf, bytes, head) :=
      if rb.head > 0 then (rb.head, overwrite rb.buf 0 (bytes.take rb.head), bytes.drop rb.head, 0)
      else (0, rb.buf, bytes, rb.head)
    let copy := min bytes.length (rb.buf.length - start)
    let shift := min (min (rb.tail - start) bytes.length) (rb.buf.length - copy)
    -- The `ptr::copy` of the shift writes `buf[start + copy..start + copy + shift]`.
    if shift > 0 ∧ rb.buf.length < start + copy + shift then none
    else
      let buf := if shift > 0 then copyWithin buf start (start + copy) shift else buf
      some { buf := overwrite buf start (bytes.take copy), head,
             tail := min (rb.tail + copy) rb.buf.length }

/-- `extend_tail`: as many of the bytes as fit after the tail. -/
def extendTail (rb : RingBuffer) (bytes : List UInt8) : RingBuffer :=
  let max := min (rb.buf.length - rb.tail) bytes.length
  { rb with buf := overwrite rb.buf rb.tail (bytes.take max), tail := rb.tail + max }

/-- `remove_head`: the head moves up, at most to the end, pushing the tail along. -/
def removeHead (rb : RingBuffer) (length : Nat) : RingBuffer :=
  let head := min (rb.head + length) rb.buf.length
  { rb with head, tail := max rb.tail head }

/-- `remove_tail`: the tail moves down, saturating, pulling the head along. -/
def removeTail (rb : RingBuffer) (length : Nat) : RingBuffer :=
  let tail := rb.tail - length
  { rb with tail, head := min rb.head tail }

/-- One edit; `none` is undefined behaviour. -/
def apply (rb : RingBuffer) : PacketOp → Option RingBuffer
  | .removeHead length => some (rb.removeHead length)
  | .removeTail length => some (rb.removeTail length)
  | .extendHead bytes => rb.extendHead bytes
  | .extendTail bytes => some (rb.extendTail bytes)

/-- A sequence of edits, as a filter chain makes them. -/
def run (rb : RingBuffer) : List PacketOp → Option RingBuffer
  | [] => some rb
  | op :: ops => (rb.apply op).bind fun rb => rb.run ops

end RingBuffer

end Quilkin.Net
