import Quilkin.Net.Completion.Ring

/-!
# The io-uring buffer against `BytesMut`

What each edit of a `RingBuffer` does to its payload `buf[head..tail]`, compared with the same
edit of a `BytesMut` holding that payload. Every edit keeps `head ≤ tail ≤ buf.len()`
(`RingBuffer.Valid`). `remove_head`, `remove_tail` and `extend_tail` (with room) match `BytesMut`
exactly, and so does `extend_head` when the bytes fit before the head. When they do not, the
payload is shifted right by the `k` bytes that did not fit, but only its first `min n k` bytes
are moved (`extendHead_payload_of_lt`): with a payload longer than `k` the result is the bytes,
the first `k` bytes of the payload, and then bytes read from `k` further on.
-/

namespace Quilkin.Net

open Buffer

namespace RingBuffer

/-- The positions are in order and inside the buffer. -/
def Valid (rb : RingBuffer) : Prop := rb.head ≤ rb.tail ∧ rb.tail ≤ rb.buf.length

/-- The payload, `buf[head..tail]`. -/
def payload (rb : RingBuffer) : List UInt8 := (rb.buf.take rb.tail).drop rb.head

section Valid

variable {rb : RingBuffer}

theorem asSlice_of_valid (h : rb.Valid) : rb.asSlice = some rb.payload := by
  rw [asSlice, if_pos (show rb.head ≤ rb.tail ∧ rb.tail ≤ rb.buf.length from h)]
  rfl

theorem length_payload (h : rb.Valid) : rb.payload.length = rb.tail - rb.head := by
  obtain ⟨hht, htn⟩ := h
  simp only [payload, List.length_drop, List.length_take]
  omega

/-- The payload is the window of the buffer starting at the head. -/
theorem payload_eq (_h : rb.Valid) : rb.payload = (rb.buf.drop rb.head).take (rb.tail - rb.head) := by
  rw [payload, List.drop_take]

/-- `extract` leaves a valid buffer when the completion fits in it. -/
theorem valid_of_extract {len namelen controllen payload : Nat} {rb' : RingBuffer}
    (hlen : len ≤ rb.buf.length) (h : rb.extract len namelen controllen payload = .ok rb') :
    rb'.Valid := by
  simp only [extract] at h
  split_ifs at h with h₁ h₂
  cases h
  exact ⟨by simp, by simp only; omega⟩

theorem removeHead_valid (h : rb.Valid) (length : Nat) : (rb.removeHead length).Valid := by
  simp only [Valid, removeHead] at h ⊢
  omega

theorem payload_removeHead (h : rb.Valid) (length : Nat) :
    (rb.removeHead length).payload = rb.payload.drop length := by
  have ⟨hht, htn⟩ := h
  rw [payload_eq (removeHead_valid h length), payload_eq h, List.drop_take, List.drop_drop]
  simp only [removeHead]
  by_cases hle : rb.head + length ≤ rb.buf.length
  · rw [Nat.min_eq_left hle]
    congr 1
    omega
  · -- The head is clamped to the end: both sides are empty.
    have hnew : max rb.tail (min (rb.head + length) rb.buf.length) -
        min (rb.head + length) rb.buf.length = 0 := by omega
    have hold : rb.tail - rb.head - length = 0 := by omega
    rw [hnew, hold, List.take_zero, List.take_zero]

theorem removeTail_valid (h : rb.Valid) (length : Nat) : (rb.removeTail length).Valid := by
  simp only [Valid, removeTail] at h ⊢
  omega

theorem payload_removeTail (h : rb.Valid) (length : Nat) :
    (rb.removeTail length).payload = rb.payload.take (rb.payload.length - length) := by
  have ⟨hht, htn⟩ := h
  rw [length_payload h, payload_eq (removeTail_valid h length), payload_eq h, List.take_take]
  simp only [removeTail]
  by_cases hle : rb.head ≤ rb.tail - length
  · rw [Nat.min_eq_left hle]
    congr 1
    omega
  · -- The head is pulled down to the tail: both sides are empty.
    have hnew : rb.tail - length - min rb.head (rb.tail - length) = 0 := by omega
    have hold : min (rb.tail - rb.head - length) (rb.tail - rb.head) = 0 := by omega
    rw [hnew, hold, List.take_zero, List.take_zero]

theorem extendTail_valid (h : rb.Valid) (bytes : List UInt8) : (rb.extendTail bytes).Valid := by
  obtain ⟨hht, htn⟩ := h
  have hlen : (overwrite rb.buf rb.tail (bytes.take (min (rb.buf.length - rb.tail) bytes.length))).length =
      rb.buf.length := length_overwrite (by simp; omega)
  simp only [Valid, extendTail, hlen]
  omega

/-- The bytes that fit after the tail follow the payload. -/
theorem payload_extendTail (h : rb.Valid) (bytes : List UInt8) :
    (rb.extendTail bytes).payload = rb.payload ++ bytes.take (rb.buf.length - rb.tail) := by
  have ⟨hht, htn⟩ := h
  have hbytes : bytes.take (min (rb.buf.length - rb.tail) bytes.length) =
      bytes.take (rb.buf.length - rb.tail) := by
    rw [← List.take_take, List.take_length]
  simp only [extendTail, payload, hbytes]
  have hlen : (bytes.take (rb.buf.length - rb.tail)).length = min (rb.buf.length - rb.tail) bytes.length := by
    simp
  rw [← hlen, take_overwrite htn, List.drop_append_of_le_length (by simp; omega)]

/-- With room before the head, the bytes go just before it. -/
theorem extendHead_of_le_head (h : rb.Valid) {bytes : List UInt8} (hle : bytes.length ≤ rb.head) :
    ∃ rb', rb.extendHead bytes = some rb' ∧ rb'.Valid ∧ rb'.payload = bytes ++ rb.payload := by
  have ⟨hht, htn⟩ := h
  have hlen : (overwrite rb.buf (rb.head - bytes.length) bytes).length = rb.buf.length :=
    length_overwrite (by omega)
  have hstart : rb.head - bytes.length + bytes.length = rb.head := by omega
  refine ⟨⟨overwrite rb.buf (rb.head - bytes.length) bytes, rb.head - bytes.length, rb.tail⟩,
    by rw [extendHead, if_pos hle], ⟨by simp; omega, ?_⟩, ?_⟩
  · simp only [hlen]
    exact htn
  · -- The window from the new head: the bytes, then the old payload.
    have hwin : rb.tail - (rb.head - bytes.length) = bytes.length + (rb.tail - rb.head) := by omega
    simp only [payload]
    rw [List.drop_take, drop_overwrite_self (by omega), hstart, hwin, List.take_length_add_append,
      List.drop_take]

end Valid

/-- The path of `extend_head` without room before the head, with its two branches (a head at
zero or not) made one. -/
theorem extendHead_of_lt {rb : RingBuffer} {bytes : List UInt8} (hlt : rb.head < bytes.length) :
    rb.extendHead bytes =
      let rest := bytes.drop rb.head
      let copy := min rest.length (rb.buf.length - rb.head)
      let shift := min (min (rb.tail - rb.head) rest.length) (rb.buf.length - copy)
      if shift > 0 ∧ rb.buf.length < rb.head + copy + shift then none
      else
        let buf := overwrite rb.buf 0 (bytes.take rb.head)
        let buf := if shift > 0 then copyWithin buf rb.head (rb.head + copy) shift else buf
        some { buf := overwrite buf rb.head (rest.take copy), head := 0,
               tail := min (rb.tail + copy) rb.buf.length } := by
  rw [extendHead, if_neg (by omega)]
  by_cases hpos : rb.head > 0
  · simp only [if_pos hpos]
  · have hzero : rb.head = 0 := by omega
    have hbuf : overwrite rb.buf 0 (bytes.take 0) = rb.buf := by simp [overwrite]
    simp only [if_neg hpos]
    simp only [hzero, hbuf, List.drop_zero]

/-- Without room before the head, but with room in the buffer for the payload and the bytes: the
bytes, then the first `s = min n k` bytes of the payload (`n` its length, `k` the part of the
bytes that did not fit before the head), then `n - s` bytes read from the buffer `k` bytes past
where the rest of the payload was. -/
theorem extendHead_payload_of_lt {rb : RingBuffer} (h : rb.Valid) {bytes : List UInt8}
    (hlt : rb.head < bytes.length) (hfit : rb.payload.length + bytes.length ≤ rb.buf.length) :
    ∃ rb', rb.extendHead bytes = some rb' ∧ rb'.Valid ∧
      rb'.payload = bytes ++ rb.payload.take (min rb.payload.length (bytes.length - rb.head)) ++
        (rb.buf.drop (bytes.length + min rb.payload.length (bytes.length - rb.head))).take
          (rb.payload.length - min rb.payload.length (bytes.length - rb.head)) := by
  have ⟨hht, htn⟩ := h
  rw [length_payload h] at hfit ⊢
  -- The arithmetic of the offsets, while the context is small.
  have hend : rb.head + (bytes.length - rb.head) = bytes.length := by omega
  have hfits : rb.tail + (bytes.length - rb.head) ≤ rb.buf.length := by omega
  have hsplit : rb.tail + (bytes.length - rb.head) = bytes.length + (rb.tail - rb.head) := by omega
  have hrest : (bytes.drop rb.head).length = bytes.length - rb.head := by simp
  -- The whole rest is copied, and the payload is shifted by `min n k`, inside the buffer.
  have hcopy : min (bytes.drop rb.head).length (rb.buf.length - rb.head) = bytes.length - rb.head := by
    rw [hrest]
    omega
  have hshift : min (min (rb.tail - rb.head) (bytes.drop rb.head).length)
      (rb.buf.length - (bytes.length - rb.head)) =
      min (rb.tail - rb.head) (bytes.length - rb.head) := by
    rw [hrest]
    omega
  have hsafe : ¬ (min (rb.tail - rb.head) (bytes.length - rb.head) > 0 ∧
      rb.buf.length < bytes.length + min (rb.tail - rb.head) (bytes.length - rb.head)) := by
    omega
  have htail : min (rb.tail + (bytes.length - rb.head)) rb.buf.length =
      rb.tail + (bytes.length - rb.head) := Nat.min_eq_left hfits
  have hcopied : (bytes.drop rb.head).take (bytes.length - rb.head) = bytes.drop rb.head := by
    rw [← hrest, List.take_length]
  -- Both branches of the shift are one window write.
  set s := min (rb.tail - rb.head) (bytes.length - rb.head) with hs
  -- The `s` bytes shifted lie inside the payload, so inside the buffer.
  have hs_tail : s ≤ rb.tail - rb.head := Nat.min_le_left _ _
  have hs_buf : s ≤ rb.buf.length - rb.head := Nat.le_trans hs_tail (Nat.sub_le_sub_right htn _)
  set buf₁ := overwrite rb.buf 0 (bytes.take rb.head) with hbuf₁
  have hshifted : (if s > 0 then copyWithin buf₁ rb.head bytes.length s else buf₁) =
      overwrite buf₁ bytes.length ((buf₁.drop rb.head).take s) := by
    by_cases hpos : s > 0
    · rw [if_pos hpos, copyWithin]
    · have hzero : s = 0 := by omega
      rw [if_neg hpos, hzero, List.take_zero, overwrite_nil]
  set buf₂ := overwrite buf₁ bytes.length ((buf₁.drop rb.head).take s) with hbuf₂
  -- Every write stays inside the buffer.
  have hsrc : (bytes.take rb.head).length = rb.head := by simp; omega
  have hlen₁ : buf₁.length = rb.buf.length := length_overwrite (by rw [hsrc]; omega)
  have hwin : ((buf₁.drop rb.head).take s).length = s := by
    rw [List.length_take, List.length_drop, hlen₁, Nat.min_eq_left hs_buf]
  have hlen₂ : buf₂.length = rb.buf.length := by
    rw [hbuf₂, length_overwrite (by rw [hwin, hlen₁]; omega), hlen₁]
  have hlen₃ : (overwrite buf₂ rb.head (bytes.drop rb.head)).length = rb.buf.length := by
    rw [length_overwrite (by rw [hrest, hlen₂]; omega), hlen₂]
  refine ⟨⟨overwrite buf₂ rb.head (bytes.drop rb.head), 0, rb.tail + (bytes.length - rb.head)⟩,
    ?_, ⟨Nat.zero_le _, show rb.tail + (bytes.length - rb.head) ≤ _ by rw [hlen₃]; exact hfits⟩, ?_⟩
  · rw [extendHead_of_lt hlt]
    simp only [hcopy, hshift, hend, hcopied, htail]
    rw [if_neg hsafe, ← hbuf₁, hshifted]
  -- The bytes, then the window `buf₂[len..len + n]`: the `s` bytes shifted, then what was there.
  have hfront : (overwrite buf₂ rb.head (bytes.drop rb.head)).take bytes.length = bytes := by
    have h₁ : buf₁.take (0 + (bytes.take rb.head).length) = rb.buf.take 0 ++ bytes.take rb.head :=
      take_overwrite (Nat.zero_le _)
    rw [Nat.zero_add, hsrc, List.take_zero, List.nil_append] at h₁
    have h₂ : buf₂.take rb.head = bytes.take rb.head := by
      rw [hbuf₂, take_overwrite_of_le (Nat.le_of_lt hlt) (by rw [hlen₁]; omega), h₁]
    have h₃ : (overwrite buf₂ rb.head (bytes.drop rb.head)).take
        (rb.head + (bytes.drop rb.head).length) = buf₂.take rb.head ++ bytes.drop rb.head :=
      take_overwrite (by rw [hlen₂]; omega)
    rw [hrest, hend, h₂, List.take_append_drop] at h₃
    exact h₃
  have hback : (overwrite buf₂ rb.head (bytes.drop rb.head)).drop bytes.length =
      (rb.buf.drop rb.head).take s ++ rb.buf.drop (bytes.length + s) := by
    have h₁ : ∀ m, rb.head ≤ m → buf₁.drop m = rb.buf.drop m := fun m hm =>
      drop_overwrite_of_le (by rw [hsrc]; simpa using hm) (Nat.zero_le _)
    rw [drop_overwrite_of_le (Nat.le_of_eq (by rw [hrest, hend])) (by rw [hlen₂]; omega), hbuf₂,
      drop_overwrite_self (by rw [hlen₁]; omega), hwin, h₁ rb.head (Nat.le_refl _),
      h₁ (bytes.length + s) (by omega)]
  have hrest' : rb.tail - rb.head =
      ((rb.buf.drop rb.head).take s).length + (rb.tail - rb.head - s) := by
    rw [List.length_take, List.length_drop, Nat.min_eq_left hs_buf, Nat.add_sub_cancel' hs_tail]
  simp only [payload, List.drop_zero]
  rw [hsplit, List.take_add, hfront, hback, hrest', List.take_length_add_append, ← hrest',
    List.drop_take, List.take_take, Nat.min_eq_left hs_tail,
    List.append_assoc]

/-- The slow path prepends exactly when the bytes read from `k` further on happen to be the rest
of the payload. -/
theorem extendHead_prepends_iff {rb : RingBuffer} (h : rb.Valid) {bytes : List UInt8}
    (hlt : rb.head < bytes.length) (hfit : rb.payload.length + bytes.length ≤ rb.buf.length) :
    ∃ rb', rb.extendHead bytes = some rb' ∧ rb'.Valid ∧
      (rb'.payload = bytes ++ rb.payload ↔
        (rb.buf.drop (bytes.length + min rb.payload.length (bytes.length - rb.head))).take
          (rb.payload.length - min rb.payload.length (bytes.length - rb.head)) =
        rb.payload.drop (min rb.payload.length (bytes.length - rb.head))) := by
  obtain ⟨rb', hstep, hvalid, hpayload⟩ := extendHead_payload_of_lt h hlt hfit
  refine ⟨rb', hstep, hvalid, ?_⟩
  rw [hpayload, List.append_assoc, List.append_cancel_left_eq]
  conv_rhs => rw [← List.append_cancel_left_eq (rb.payload.take (min rb.payload.length
    (bytes.length - rb.head))), List.take_append_drop]

/-- A payload no longer than the part of the bytes that did not fit before the head is moved
whole. -/
theorem extendHead_payload_of_le {rb : RingBuffer} (h : rb.Valid) {bytes : List UInt8}
    (hlt : rb.head < bytes.length) (hfit : rb.payload.length + bytes.length ≤ rb.buf.length)
    (hshort : rb.payload.length ≤ bytes.length - rb.head) :
    ∃ rb', rb.extendHead bytes = some rb' ∧ rb'.Valid ∧ rb'.payload = bytes ++ rb.payload := by
  obtain ⟨rb', hstep, hvalid, hpayload⟩ := extendHead_payload_of_lt h hlt hfit
  refine ⟨rb', hstep, hvalid, ?_⟩
  rw [hpayload, Nat.min_eq_left hshort, Nat.sub_self, List.take_zero, List.append_nil,
    List.take_length]

/-! ## Against `BytesMut`, edit by edit -/

/-- The edits a packet's buffer has room for: removals within the payload, appends that fit after
the tail, and prepends that fit in the buffer with the payload. -/
def Allows (rb : RingBuffer) : PacketOp → Prop
  | .removeHead length => length ≤ rb.payload.length
  | .removeTail length => length ≤ rb.payload.length
  | .extendHead bytes => rb.payload.length + bytes.length ≤ rb.buf.length
  | .extendTail bytes => rb.tail + bytes.length ≤ rb.buf.length

instance (rb : RingBuffer) : (op : PacketOp) → Decidable (rb.Allows op)
  | .removeHead length => inferInstanceAs (Decidable (length ≤ rb.payload.length))
  | .removeTail length => inferInstanceAs (Decidable (length ≤ rb.payload.length))
  | .extendHead bytes => inferInstanceAs (Decidable (rb.payload.length + bytes.length ≤ rb.buf.length))
  | .extendTail bytes => inferInstanceAs (Decidable (rb.tail + bytes.length ≤ rb.buf.length))

/-- A prepend either fits before the head or leaves a payload no longer than what lands after
the head; the other edits always qualify. -/
def MovesWhole (rb : RingBuffer) : PacketOp → Prop
  | .extendHead bytes => bytes.length ≤ rb.head ∨ rb.payload.length ≤ bytes.length - rb.head
  | _ => True

/-- One edit: the buffer stays valid and its payload is what `BytesMut` holds after the same
edit. -/
theorem apply_simulates {rb : RingBuffer} (h : rb.Valid) {op : PacketOp} (hallow : rb.Allows op)
    (hwhole : rb.MovesWhole op) :
    ∃ rb' contents, rb.apply op = some rb' ∧ BytesMut.apply rb.payload op = some contents ∧
      rb'.Valid ∧ rb'.payload = contents := by
  cases op with
  | removeHead length =>
    refine ⟨_, _, rfl, ?_, removeHead_valid h length, payload_removeHead h length⟩
    simp only [BytesMut.apply, BytesMut.removeHead, if_pos (show length ≤ rb.payload.length from hallow)]
  | removeTail length =>
    exact ⟨_, _, rfl, rfl, removeTail_valid h length, payload_removeTail h length⟩
  | extendTail bytes =>
    have hroom : bytes.take (rb.buf.length - rb.tail) = bytes :=
      List.take_of_length_le (by simp only [Allows] at hallow; omega)
    refine ⟨_, _, rfl, rfl, extendTail_valid h bytes, ?_⟩
    rw [payload_extendTail h, hroom]
    rfl
  | extendHead bytes =>
    -- Before the head, or shifted whole.
    have hfit : rb.payload.length + bytes.length ≤ rb.buf.length := hallow
    rcases hwhole with hle | hshort
    · obtain ⟨rb', hstep, hvalid, hpayload⟩ := extendHead_of_le_head h hle
      exact ⟨rb', _, hstep, rfl, hvalid, hpayload⟩
    · by_cases hle : bytes.length ≤ rb.head
      · obtain ⟨rb', hstep, hvalid, hpayload⟩ := extendHead_of_le_head h hle
        exact ⟨rb', _, hstep, rfl, hvalid, hpayload⟩
      · obtain ⟨rb', hstep, hvalid, hpayload⟩ :=
          extendHead_payload_of_le h (by omega) hfit hshort
        exact ⟨rb', _, hstep, rfl, hvalid, hpayload⟩

/-- Every edit of the sequence is allowed and moves the payload whole, from the state it
meets. -/
def Keeps : RingBuffer → List PacketOp → Prop
  | _, [] => True
  | rb, op :: ops => rb.Allows op ∧ rb.MovesWhole op ∧ ∀ rb', rb.apply op = some rb' → Keeps rb' ops

/-- Over a whole sequence of such edits the buffer's slice is what `BytesMut` holds. -/
theorem run_simulates {rb : RingBuffer} (h : rb.Valid) {ops : List PacketOp} (hkeeps : rb.Keeps ops) :
    ∃ rb' contents, rb.run ops = some rb' ∧ BytesMut.run rb.payload ops = some contents ∧
      rb'.asSlice = some contents := by
  induction ops generalizing rb with
  | nil => exact ⟨rb, rb.payload, rfl, rfl, asSlice_of_valid h⟩
  | cons op ops ih =>
    obtain ⟨hallow, hwhole, hnext⟩ := hkeeps
    obtain ⟨rb₁, contents₁, hstep, hbytes, hvalid₁, hpayload₁⟩ := apply_simulates h hallow hwhole
    obtain ⟨rb', contents, hrun, hbytes', hslice⟩ := ih hvalid₁ (hnext rb₁ hstep)
    refine ⟨rb', contents, ?_, ?_, hslice⟩
    · rw [run, hstep, Option.bind_some, hrun]
    · rw [BytesMut.run, hbytes, Option.bind_some, ← hpayload₁, hbytes']

/-- The payload `0, 1, …, 99`. -/
def payload100 : List UInt8 := (List.range 100).map UInt8.ofNat

/-- A 2048-byte buffer after the kernel wrote a 100-byte datagram from an IPv6 peer: the 16-byte
`io_uring_recvmsg_out`, a 28-byte `sockaddr_in6` (zeros here), the payload. -/
def ipv6Datagram : RingBuffer :=
  ⟨List.replicate 44 0 ++ payload100 ++ List.replicate 1904 0, 0, 0⟩

theorem extendHead_ipv6Datagram :
    ∃ rb, ipv6Datagram.extract 144 28 0 100 = .ok rb ∧ rb.asSlice = some payload100 ∧
      rb.Allows (.extendHead (List.replicate 50 0xff)) ∧
      (rb.apply (.extendHead (List.replicate 50 0xff))).bind asSlice ≠
        BytesMut.apply payload100 (.extendHead (List.replicate 50 0xff)) := by
  refine ⟨⟨ipv6Datagram.buf, 44, 144⟩, rfl, ?_, ?_, ?_⟩
  · decide +kernel
  · decide +kernel
  · decide +kernel

end RingBuffer

end Quilkin.Net
