import Mathlib.Data.List.Basic

/-!
# Mutable packets and the socket backend's reference

Model of the `PacketMut` trait (`src/net/packet.rs`) as the four edits a filter can make to a
packet's payload, and of its implementation for `bytes::BytesMut`, the socket backend, which the
io-uring and XDP backends are meant to behave like.

`BytesMut::split_to(at)` panics when `at` is past the end, so `remove_head` is `none` there;
`remove_tail` saturates.
-/

namespace Quilkin.Net

/-- A call of one of the editing methods of `PacketMut`. -/
inductive PacketOp
  | removeHead (length : Nat)
  | removeTail (length : Nat)
  | extendHead (bytes : List UInt8)
  | extendTail (bytes : List UInt8)
  deriving DecidableEq, Repr

namespace BytesMut

/-- `remove_head`: `drop(self.split_to(length))`. -/
def removeHead (contents : List UInt8) (length : Nat) : Option (List UInt8) :=
  if length ≤ contents.length then some (contents.drop length) else none

/-- `remove_tail`: `truncate(len().saturating_sub(length))`. -/
def removeTail (contents : List UInt8) (length : Nat) : List UInt8 :=
  contents.take (contents.length - length)

/-- `extend_head`: the bytes, then what was there (`split`, `extend_from_slice`, `unsplit`). -/
def extendHead (contents bytes : List UInt8) : List UInt8 := bytes ++ contents

/-- `extend_tail`: `extend_from_slice`. -/
def extendTail (contents bytes : List UInt8) : List UInt8 := contents ++ bytes

/-- One edit of a `BytesMut`; `none` is a panic. -/
def apply (contents : List UInt8) : PacketOp → Option (List UInt8)
  | .removeHead length => removeHead contents length
  | .removeTail length => some (removeTail contents length)
  | .extendHead bytes => some (extendHead contents bytes)
  | .extendTail bytes => some (extendTail contents bytes)

/-- A sequence of edits, as a filter chain makes them. -/
def run (contents : List UInt8) : List PacketOp → Option (List UInt8)
  | [] => some contents
  | op :: ops => (apply contents op).bind fun contents => run contents ops

end BytesMut

/-- The length a payload has after an edit, when nothing is clamped. -/
def PacketOp.lengthAfter (n : Nat) : PacketOp → Nat
  | .removeHead length => n - length
  | .removeTail length => n - length
  | .extendHead bytes => n + bytes.length
  | .extendTail bytes => n + bytes.length

theorem BytesMut.length_apply {contents out : List UInt8} {op : PacketOp}
    (h : apply contents op = some out) : out.length = op.lengthAfter contents.length := by
  cases op with
  | removeHead length =>
    simp only [apply, removeHead] at h
    split_ifs at h
    cases h
    simp [PacketOp.lengthAfter]
  | removeTail length =>
    cases h
    simp [removeTail, PacketOp.lengthAfter]
  | extendHead bytes =>
    cases h
    simp [extendHead, PacketOp.lengthAfter]
    omega
  | extendTail bytes =>
    cases h
    simp [extendTail, PacketOp.lengthAfter]

end Quilkin.Net
