import Quilkin.Net.Xdp.Wrapper

/-!
# The XDP wrapper edits payloads as `BytesMut` does

The wrapper keeps one invariant, `PacketWrapper.Fills`: the payload's range starts inside the
frame and ends at the frame's end. `parse_headers` establishes it, and every edit keeps it, failed
or not. Under it `as_slice` is the frame from the payload's start, and each edit that records no
failure changes that slice as the same edit changes a `BytesMut` (`apply_simulates`); a failure is
never cleared, so over a whole run the wrapper agrees with `BytesMut` unless it drops the frame
(`run_simulates`). A removal longer than the payload always records a failure.
-/

namespace Quilkin.Net.Xdp

variable {P : Type} {packet : XdpPacket P}

/-! ## Parsing -/

/-- A frame the loop of `parse_headers` accepts ends with the payload. -/
theorem parseHeadersLoop_fills (hl : packet.Lawful) {n : Nat} {buffer buffer' : P}
    {headers : UdpHeaders} (h : parseHeadersLoop packet n buffer = .ok (headers, buffer')) :
    headers.dataStart ≤ headers.dataEnd ∧ headers.dataEnd = (packet.bytes buffer').length := by
  induction n generalizing buffer with
  | zero => cases h
  | succ n ih =>
    rw [parseHeadersLoop] at h
    split at h
    · -- `parse_packet` found the datagram; the header-length check only rejects
      rename_i found hparse
      have hfound : found = headers ∧ buffer = buffer' := by
        split at h
        · split_ifs at h
          cases h
          exact ⟨rfl, rfl⟩
        · cases h
          exact ⟨rfl, rfl⟩
      obtain ⟨rfl, rfl⟩ := hfound
      exact hl.parsePacket_fills _ _ hparse
    · cases h
    · cases h
    · -- the padding was cut off and the frame parsed again
      dsimp only at h
      split_ifs at h
      split at h
      · cases h
      · exact ih h

theorem parseHeaders_fills (hl : packet.Lawful) {frame buffer : P} {headers : UdpHeaders}
    (h : parseHeaders packet frame = .ok (headers, buffer)) :
    headers.dataStart ≤ headers.dataEnd ∧ headers.dataEnd = (packet.bytes buffer).length :=
  parseHeadersLoop_fills hl h

namespace PacketWrapper

variable {w w' : PacketWrapper P}

/-! ## The invariant -/

/-- The payload as the wrapper holds it: the frame from where the payload starts. -/
def payload (packet : XdpPacket P) (w : PacketWrapper P) : List UInt8 :=
  (packet.bytes w.buffer).drop w.headers.dataStart

/-- The payload's range starts inside the frame and ends at its end. -/
def Fills (packet : XdpPacket P) (w : PacketWrapper P) : Prop :=
  w.headers.dataStart ≤ w.headers.dataEnd ∧ w.headers.dataEnd = (packet.bytes w.buffer).length

@[simp] theorem fail_buffer (f : String) : (w.fail f).buffer = w.buffer := rfl

@[simp] theorem fail_headers (f : String) : (w.fail f).headers = w.headers := rfl

@[simp] theorem fail_failure (f : String) : (w.fail f).failure = some (w.failure.getD f) := rfl

@[simp] theorem setDataEnd_buffer (buffer : P) (e : Nat) : (w.setDataEnd buffer e).buffer = buffer :=
  rfl

@[simp] theorem setDataEnd_dataStart (buffer : P) (e : Nat) :
    (w.setDataEnd buffer e).headers.dataStart = w.headers.dataStart := rfl

@[simp] theorem setDataEnd_dataEnd (buffer : P) (e : Nat) :
    (w.setDataEnd buffer e).headers.dataEnd = e := rfl

@[simp] theorem setDataEnd_failure (buffer : P) (e : Nat) :
    (w.setDataEnd buffer e).failure = w.failure := rfl

theorem fills_fail (f : String) : (w.fail f).Fills packet ↔ w.Fills packet := Iff.rfl

theorem payload_fail (f : String) : (w.fail f).payload packet = w.payload packet := rfl

theorem asSlice_of_fills (hw : w.Fills packet) : w.asSlice packet = some (w.payload packet) := by
  obtain ⟨hse, hend⟩ := hw
  rw [asSlice, if_pos ⟨hse, Nat.le_of_eq hend⟩, hend, List.take_length, payload]

theorem length_payload (hw : w.Fills packet) : (w.payload packet).length = w.headers.dataLength := by
  obtain ⟨-, hend⟩ := hw
  rw [payload, List.length_drop, UdpHeaders.dataLength, hend]

/-! ## What one edit does -/

/-- What an edit, or a run of edits, does to a wrapper whose frame ends with its payload: the
frame still does, and unless a failure is recorded (one that was there stays) the payload is
`contents`, what a `BytesMut` holds after the same edits. -/
def Simulates (packet : XdpPacket P) (w w' : PacketWrapper P) (contents : Option (List UInt8)) :
    Prop :=
  w'.Fills packet ∧ (w'.failure = none → w.failure = none ∧ contents = some (w'.payload packet))

theorem simulates_fail (hw : w.Fills packet) (f : String) (contents : Option (List UInt8)) :
    Simulates packet w (w.fail f) contents := by
  refine ⟨(fills_fail f).mpr hw, ?_⟩
  intro hnone
  simp at hnone

theorem simulates_of_failure_eq (hw' : w'.Fills packet) (hf : w'.failure = w.failure)
    {contents : Option (List UInt8)} (hc : contents = some (w'.payload packet)) :
    Simulates packet w w' contents :=
  ⟨hw', fun hnone => ⟨hf ▸ hnone, hc⟩⟩

/-- `trim` either fails, or cuts `length ≤ data_length` bytes off both the frame and the
payload. -/
theorem trim_cases (hl : packet.Lawful) (hw : w.Fills packet) (length : Nat) (failure : String) :
    w.trim packet length failure = w.fail failure ∨
      ∃ buffer, length ≤ w.headers.dataLength ∧
        packet.bytes buffer =
          (packet.bytes w.buffer).take ((packet.bytes w.buffer).length - length) ∧
        w.trim packet length failure = w.setDataEnd buffer (w.headers.dataEnd - length) := by
  unfold trim
  split_ifs with hgt
  · exact .inl rfl
  · -- the cut is shorter than the frame, so `length as i32` is exact
    have hbound : length < 2 ^ 31 := by
      have hlt := hl.length_lt w.buffer
      obtain ⟨-, hend⟩ := hw
      simp only [UdpHeaders.dataLength] at hgt
      omega
    cases hadj : packet.adjustTail w.buffer (-(Int32.ofNat length)) with
    | error e => exact .inl rfl
    | ok buffer =>
      exact .inr ⟨buffer, Nat.le_of_not_lt hgt,
        hl.adjustTail_shrink _ _ _ hbound hadj, rfl⟩

/-- A successful cut keeps the payload at the frame's end. -/
theorem fills_setDataEnd_of_take (hw : w.Fills packet) {length : Nat} {buffer : P}
    (hle : length ≤ w.headers.dataLength)
    (hbuf : packet.bytes buffer =
      (packet.bytes w.buffer).take ((packet.bytes w.buffer).length - length)) :
    (w.setDataEnd buffer (w.headers.dataEnd - length)).Fills packet := by
  obtain ⟨hse, hend⟩ := hw
  simp only [UdpHeaders.dataLength] at hle
  refine ⟨by simp only [setDataEnd_dataStart, setDataEnd_dataEnd]; omega, ?_⟩
  simp only [setDataEnd_dataEnd, setDataEnd_buffer, hbuf, List.length_take]
  omega

theorem extendHead_simulates (hl : packet.Lawful) (hw : w.Fills packet) (bytes : List UInt8) :
    Simulates packet w (w.extendHead packet bytes)
      (BytesMut.apply (w.payload packet) (.extendHead bytes)) := by
  unfold extendHead
  cases hins : packet.insert w.buffer w.headers.dataStart bytes with
  | error e => exact simulates_fail hw _ _
  | ok buffer =>
    obtain ⟨hoff, hbuf⟩ := hl.insert_ok _ _ _ _ hins
    obtain ⟨hse, hend⟩ := hw
    have htake : ((packet.bytes w.buffer).take w.headers.dataStart).length = w.headers.dataStart :=
      by simp [hoff]
    refine simulates_of_failure_eq ⟨?_, ?_⟩ rfl ?_
    · simp only [setDataEnd_dataStart, setDataEnd_dataEnd]
      omega
    · simp only [setDataEnd_dataEnd, setDataEnd_buffer, hbuf, List.length_append, htake,
        List.length_drop]
      omega
    · -- the inserted bytes, then the old payload
      simp only [BytesMut.apply, BytesMut.extendHead, payload, setDataEnd_buffer,
        setDataEnd_dataStart, hbuf, List.append_assoc]
      rw [List.drop_left' htake]

theorem extendTail_simulates (hl : packet.Lawful) (hw : w.Fills packet) (bytes : List UInt8) :
    Simulates packet w (w.extendTail packet bytes)
      (BytesMut.apply (w.payload packet) (.extendTail bytes)) := by
  unfold extendTail
  cases happ : packet.append w.buffer bytes with
  | error e => exact simulates_fail hw _ _
  | ok buffer =>
    have hbuf := hl.append_ok _ _ _ happ
    obtain ⟨hse, hend⟩ := hw
    refine simulates_of_failure_eq ⟨?_, ?_⟩ rfl ?_
    · simp only [setDataEnd_dataStart, setDataEnd_dataEnd]
      omega
    · simp only [setDataEnd_dataEnd, setDataEnd_buffer, hbuf, List.length_append]
      omega
    · simp only [BytesMut.apply, BytesMut.extendTail, payload, setDataEnd_buffer,
        setDataEnd_dataStart, hbuf]
      rw [List.drop_append_of_le_length (by omega)]

theorem removeTail_simulates (hl : packet.Lawful) (hw : w.Fills packet) (length : Nat) :
    Simulates packet w (w.removeTail packet length)
      (BytesMut.apply (w.payload packet) (.removeTail length)) := by
  unfold removeTail
  rcases trim_cases hl hw length "filter::remove tail" with htrim | ⟨buffer, hle, hbuf, htrim⟩
  · rw [htrim]
    exact simulates_fail hw _ _
  · rw [htrim]
    refine simulates_of_failure_eq (fills_setDataEnd_of_take hw hle hbuf) rfl ?_
    -- cutting the frame cuts the payload, which ends it
    simp only [BytesMut.apply, BytesMut.removeTail, payload, setDataEnd_buffer,
      setDataEnd_dataStart, hbuf, List.drop_take, Option.some.injEq]
    rw [List.length_drop]
    congr 1
    omega

/-- A removal from the head, when in range: the rest of the payload is copied down, then the
frame is cut as by `remove_tail`. -/
theorem removeHead_simulates (hl : packet.Lawful) (hw : w.Fills packet) (length : Nat) :
    ∃ w', w.removeHead packet length = some w' ∧
      Simulates packet w w' (BytesMut.apply (w.payload packet) (.removeHead length)) := by
  have hlen := length_payload hw
  obtain ⟨hse, hend⟩ := hw
  unfold removeHead
  by_cases hzero : length = 0
  · refine ⟨w, if_pos hzero, simulates_of_failure_eq ⟨hse, hend⟩ rfl ?_⟩
    simp [BytesMut.apply, BytesMut.removeHead, hzero]
  rw [if_neg hzero]
  by_cases hgt : length > w.headers.dataLength ∨ w.headers.dataEnd > (packet.bytes w.buffer).length
  · exact ⟨_, if_pos hgt, simulates_fail ⟨hse, hend⟩ _ _⟩
  rw [if_neg hgt]
  have hle : length ≤ w.headers.dataLength := by omega
  simp only [UdpHeaders.dataLength] at hle
  obtain ⟨copied, hcopy, hcopied⟩ := hl.copyWithin_ok w.buffer (w.headers.dataStart + length)
    w.headers.dataEnd w.headers.dataStart (by omega) (by omega) (by omega)
  rw [hcopy, Option.map_some]
  refine ⟨_, rfl, ?_⟩
  -- the copy keeps the frame's length, so the copied wrapper still ends with its payload
  set v : PacketWrapper P := { w with buffer := copied } with hv
  have hvlen : (packet.bytes copied).length = (packet.bytes w.buffer).length := by
    rw [hcopied, Buffer.length_copyWithin (by omega)]
  have hvfills : v.Fills packet := ⟨hse, hend.trans hvlen.symm⟩
  rcases trim_cases hl hvfills length "filter::remove head" with htrim | ⟨buffer, hle', hbuf, htrim⟩
  · rw [htrim]
    exact ⟨hvfills, fun hnone => by simp at hnone⟩
  · rw [htrim]
    refine ⟨fills_setDataEnd_of_take hvfills hle' hbuf, fun hnone => ⟨hnone, ?_⟩⟩
    -- the bytes after the removed ones, which end the frame
    have hshift : packet.bytes buffer =
        (packet.bytes w.buffer).take w.headers.dataStart ++
          (packet.bytes w.buffer).drop (w.headers.dataStart + length) := by
      rw [hbuf, hvlen, hcopied, hend, ← Buffer.take_copyWithin_down (by omega)]
    have htake : ((packet.bytes w.buffer).take w.headers.dataStart).length =
        w.headers.dataStart := by simp; omega
    have hfits : length ≤ ((packet.bytes w.buffer).drop w.headers.dataStart).length := by
      simp only [List.length_drop]
      omega
    simp only [BytesMut.apply, BytesMut.removeHead, payload, setDataEnd_buffer,
      setDataEnd_dataStart, hv, hshift]
    rw [List.drop_left' htake, List.drop_drop]
    exact if_pos hfits

/-- One edit, from a wrapper whose frame ends with its payload: it never panics, and simulates
the same edit of a `BytesMut`. -/
theorem apply_simulates (hl : packet.Lawful) (hw : w.Fills packet) (op : PacketOp) :
    ∃ w', w.apply packet op = some w' ∧
      Simulates packet w w' (BytesMut.apply (w.payload packet) op) := by
  cases op with
  | removeHead length => exact removeHead_simulates hl hw length
  | removeTail length => exact ⟨_, rfl, removeTail_simulates hl hw length⟩
  | extendHead bytes => exact ⟨_, rfl, extendHead_simulates hl hw bytes⟩
  | extendTail bytes => exact ⟨_, rfl, extendTail_simulates hl hw bytes⟩

/-- A run of edits: by induction on the edits, carrying `Fills` from each wrapper to the next. -/
theorem run_simulates (hl : packet.Lawful) (ops : List PacketOp) :
    ∀ {w : PacketWrapper P}, w.Fills packet →
      ∃ w', w.run packet ops = some w' ∧
        Simulates packet w w' (BytesMut.run (w.payload packet) ops) := by
  induction ops with
  | nil =>
    intro w hw
    exact ⟨w, rfl, simulates_of_failure_eq hw rfl rfl⟩
  | cons op ops ih =>
    intro w hw
    obtain ⟨w₁, happly, hw₁, hstep⟩ := apply_simulates hl hw op
    obtain ⟨w', hrun, hw', hrest⟩ := ih hw₁
    refine ⟨w', by rw [run, happly, Option.bind_some, hrun], hw', ?_⟩
    intro hnone
    obtain ⟨hnone₁, hcontents⟩ := hrest hnone
    obtain ⟨hnone₀, happly'⟩ := hstep hnone₁
    refine ⟨hnone₀, ?_⟩
    rw [BytesMut.run, happly', Option.bind_some, hcontents]

/-! ## Removals longer than the payload -/

theorem removeHead_of_gt {length : Nat} (h : w.headers.dataLength < length) :
    w.removeHead packet length = some (w.fail "filter::remove head") := by
  rw [removeHead, if_neg (by omega), if_pos (.inl h)]

theorem removeTail_of_gt {length : Nat} (h : w.headers.dataLength < length) :
    w.removeTail packet length = w.fail "filter::remove tail" := by
  rw [removeTail, trim, if_pos h]

/-! ## The XDP path against the socket path -/

/-- Filters see the same payload on the XDP path as on the socket path. From a frame
`parse_headers` accepts, over any edits, the wrapper never panics and its payload still ends the
frame; unless it has recorded a failure, its slice is what a `BytesMut` holding the first slice
holds after the same edits; and a removal longer than the payload records a failure. -/
theorem run_agrees_bytesMut (hl : packet.Lawful) {frame buffer : P} {headers : UdpHeaders}
    (hparse : parseHeaders packet frame = .ok (headers, buffer)) (ops : List PacketOp) :
    ∃ slice w, (new buffer headers).asSlice packet = some slice ∧
      (new buffer headers).run packet ops = some w ∧
      w.headers.dataEnd = (packet.bytes w.buffer).length ∧
      (w.failure = none → w.asSlice packet = BytesMut.run slice ops) ∧
      ∀ length, w.headers.dataLength < length →
        (∃ w', w.apply packet (.removeHead length) = some w' ∧ w'.failure ≠ none) ∧
        (∃ w', w.apply packet (.removeTail length) = some w' ∧ w'.failure ≠ none) := by
  have hw : (new buffer headers).Fills packet := parseHeaders_fills hl hparse
  obtain ⟨w, hrun, hw', hsim⟩ := run_simulates hl ops hw
  refine ⟨_, w, asSlice_of_fills hw, hrun, hw'.2, ?_, ?_⟩
  · intro hnone
    rw [asSlice_of_fills hw', (hsim hnone).2]
  · intro length hgt
    exact ⟨⟨_, removeHead_of_gt hgt, by simp⟩, ⟨_, congrArg some (removeTail_of_gt hgt), by simp⟩⟩

end PacketWrapper

/-- A frame as a byte vector in a 2048-byte UMEM chunk: the xdp `Packet` the laws describe. -/
structure VecFrame where
  bytes : List UInt8
  fits : bytes.length ≤ 2048

/-- The operations on a `VecFrame`, failing where the chunk would overflow. Its `parse_packet`
finds an ipv6 datagram, whose payload follows 62 bytes of Ethernet, ipv6 and UDP headers and fills
the frame. -/
def vecPacket : XdpPacket VecFrame where
  bytes p := p.bytes
  insert p off src :=
    if h : off ≤ p.bytes.length ∧ p.bytes.length + src.length ≤ 2048 then
      .ok ⟨p.bytes.take off ++ src ++ p.bytes.drop off, by simp; omega⟩
    else .error "InsufficientCapacity"
  append p src :=
    if h : p.bytes.length + src.length ≤ 2048 then .ok ⟨p.bytes ++ src, by simpa using h⟩
    else .error "InsufficientCapacity"
  adjustTail p d :=
    if d.toInt < 0 then
      if h : (-d.toInt).toNat ≤ p.bytes.length then
        .ok ⟨p.bytes.take (p.bytes.length - (-d.toInt).toNat), by simp; have := p.fits; omega⟩
      else .error "InvalidAdjustment"
    else if h : p.bytes.length + d.toInt.toNat ≤ 2048 then
      .ok ⟨p.bytes ++ List.replicate d.toInt.toNat 0, by simpa using h⟩
    else .error "InsufficientCapacity"
  copyWithin p start stop dest :=
    if h : start ≤ stop ∧ stop ≤ p.bytes.length ∧ dest + (stop - start) ≤ p.bytes.length then
      some ⟨Buffer.copyWithin p.bytes start dest (stop - start),
        by rw [Buffer.length_copyWithin h.2.2]; exact p.fits⟩
    else none
  parsePacket p :=
    if 62 ≤ p.bytes.length then .ok (some ⟨.v6, 62, p.bytes.length⟩)
    else .error (.insufficientData 54 8 p.bytes.length)

/-- `-(n as i32)` is `-n` for `n < 2^31`. -/
theorem toInt_neg_ofNat {n : Nat} (h : n < 2 ^ 31) : (-(Int32.ofNat n)).toInt = -(n : Int) := by
  rw [Int32.toInt_neg, Int32.toInt_ofNat_of_lt h]
  apply Int.bmod_eq_of_le <;> omega

theorem vecPacket_lawful : vecPacket.Lawful where
  length_lt p := Nat.lt_of_le_of_lt p.fits (by decide)
  insert_ok p off src p' h := by
    simp only [vecPacket] at h
    split_ifs at h with hfit
    cases h
    exact ⟨hfit.1, rfl⟩
  append_ok p src p' h := by
    simp only [vecPacket] at h
    split_ifs at h
    cases h
    rfl
  adjustTail_shrink p n p' hn h := by
    simp only [vecPacket, toInt_neg_ofNat hn] at h
    split_ifs at h with hneg hle hgrow
    · cases h
      simp [vecPacket]
    · -- `n = 0`: growing by nothing
      cases h
      have hzero : n = 0 := by omega
      simp [hzero]
  copyWithin_ok p start stop dest h1 h2 h3 := ⟨_, dif_pos ⟨h1, h2, h3⟩, rfl⟩
  parsePacket_fills p headers h := by
    simp only [vecPacket] at h
    split_ifs at h with hlen
    cases h
    exact ⟨hlen, rfl⟩

/-- A 3-byte datagram in a 65-byte frame. -/
def vecFrame3 : VecFrame := ⟨List.replicate 62 0 ++ [1, 2, 3], by simp⟩

theorem run_agrees_bytesMut_vecFrame3 :
    parseHeaders vecPacket vecFrame3 = .ok (⟨.v6, 62, 65⟩, vecFrame3) ∧
      ∃ slice w, (PacketWrapper.new vecFrame3 ⟨.v6, 62, 65⟩).asSlice vecPacket = some slice ∧
        (PacketWrapper.new vecFrame3 ⟨.v6, 62, 65⟩).run vecPacket
          [.extendHead [9], .removeTail 2] = some w ∧
        w.headers.dataEnd = (vecPacket.bytes w.buffer).length ∧
        (w.failure = none →
          w.asSlice vecPacket = BytesMut.run slice [.extendHead [9], .removeTail 2]) ∧
        ∀ length, w.headers.dataLength < length →
          (∃ w', w.apply vecPacket (.removeHead length) = some w' ∧ w'.failure ≠ none) ∧
          (∃ w', w.apply vecPacket (.removeTail length) = some w' ∧ w'.failure ≠ none) :=
  have hparse : parseHeaders vecPacket vecFrame3 = .ok (⟨.v6, 62, 65⟩, vecFrame3) := rfl
  ⟨hparse, PacketWrapper.run_agrees_bytesMut vecPacket_lawful hparse _⟩

end Quilkin.Net.Xdp
