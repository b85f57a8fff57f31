import Quilkin.Codec.Qcmp

/-!
# Proofs: the QCMP codec

`encode` writes the wire image of a message (`Protocol.image`) into any buffer, and `parse`
classifies every input into exactly three outcomes: a well-formed packet (`WellFormed`), which it
decodes to the message whose image it is; an input of at least `MIN_QCMP_PACKET_LEN` bytes
without the magic number, which it passes over (`Ok(None)`); and everything else, which it
rejects with an error. It never panics and never reads out of bounds.

The builder is followed through the invariant `PacketBuilder.Wrote pb w`: the write offset is
`|w|` and the buffer starts with `w`, whatever the buffer held before.

The measurements of a reply subtract its timestamps as `i64`s. `SubFits a b` says that `a - b`
does not overflow; the timestamps come from the network unchecked, and a reply that `parse`
accepts can make both measurements overflow.
-/

namespace Quilkin.Qcmp

open Buffer

/-! ## The wire image -/

/-- The timestamps of a message, in wire order. -/
def Protocol.timestamps : Protocol → List UtcTimestamp
  | .ping clientTimestamp _ => [clientTimestamp]
  | .pingReply clientTimestamp _ serverStartTimestamp serverTransmitTimestamp =>
    [clientTimestamp, serverStartTimestamp, serverTransmitTimestamp]

/-- Every timestamp of the message is an `i64` of nanoseconds. -/
def Protocol.FitsI64 (p : Protocol) : Prop := ∀ t ∈ p.timestamps, t.FitsI64

instance (p : Protocol) : Decidable p.FitsI64 :=
  inferInstanceAs (Decidable (∀ t ∈ p.timestamps, t.FitsI64))

/-- The bytes of a message as the protocol lays them out: magic, version, discriminant, payload
length, nonce and big-endian timestamps. -/
def Protocol.image : Protocol → List UInt8
  | .ping c nonce => magicNumber ++ [version, Qcmp.ping, 0, 9, nonce] ++ c.unixNanos.toBeBytes
  | .pingReply c nonce s t => magicNumber ++ [version, pong, 0, 25, nonce] ++
      c.unixNanos.toBeBytes ++ s.unixNanos.toBeBytes ++ t.unixNanos.toBeBytes

/-- The length of a packet on the wire: `MIN_QCMP_PACKET_LEN` for a ping and
`MAX_QCMP_PACKET_LEN` for a reply. -/
def Protocol.wireLength : Protocol → Nat
  | .ping .. => minQcmpPacketLen
  | .pingReply .. => maxQcmpPacketLen

theorem Protocol.length_image (p : Protocol) : p.image.length = p.wireLength := by
  cases p <;> simp [image, wireLength, magicNumber, minQcmpPacketLen, maxQcmpPacketLen]

/-! ## The builder -/

/-- The builder has written exactly `w` at the start of its buffer. -/
def PacketBuilder.Wrote (pb : PacketBuilder) (w : List UInt8) : Prop :=
  pb.offset = w.length ∧ pb.packet.buf.take w.length = w

section Builder

variable {pb : PacketBuilder} {w : List UInt8}

theorem PacketBuilder.wrap_wrote (packet : QcmpPacket) : (wrap packet).Wrote [] :=
  ⟨rfl, by simp⟩

theorem PacketBuilder.pushSlice_wrote (h : pb.Wrote w) (s : List UInt8)
    (hs : w.length + s.length ≤ maxQcmpPacketLen) :
    ∃ pb', pb.pushSlice s = some pb' ∧ pb'.Wrote (w ++ s) := by
  obtain ⟨hoff, hbuf⟩ := h
  have hle : w.length ≤ pb.packet.buf.length := by rw [pb.packet.buf_length]; omega
  refine ⟨_, dif_pos (by omega), by simp [hoff], ?_⟩
  simp only [List.length_append, hoff]
  rw [take_overwrite hle, hbuf]

theorem PacketBuilder.push_wrote (h : pb.Wrote w) (v : UInt8)
    (hs : w.length < maxQcmpPacketLen) :
    ∃ pb', pb.push v = some pb' ∧ pb'.Wrote (w ++ [v]) := by
  obtain ⟨pb', hpush, hw⟩ := pb.pushSlice_wrote h [v] (by simp; omega)
  refine ⟨pb', ?_, hw⟩
  have hlt : pb.offset < pb.packet.buf.length := by rw [pb.packet.buf_length, h.1]; exact hs
  rw [← hpush, PacketBuilder.push, PacketBuilder.pushSlice, dif_pos (h.1 ▸ hs),
    dif_pos (by simp [h.1]; omega)]
  simp [set_eq_overwrite v hlt]

theorem PacketBuilder.pushTimestamp_wrote (h : pb.Wrote w) (ts : UtcTimestamp)
    (hs : w.length + 8 ≤ maxQcmpPacketLen) :
    ∃ pb', pb.pushTimestamp ts = some pb' ∧ pb'.Wrote (w ++ ts.unixNanos.toBeBytes) :=
  pb.pushSlice_wrote h _ (by simpa using hs)

/-- `finalize` returns what was written, and records its length. -/
theorem PacketBuilder.finalize_wrote (h : pb.Wrote w) (hs : w.length ≤ maxQcmpPacketLen) :
    ∃ packet', pb.finalize = some (w, packet') ∧ packet'.len = w.length := by
  obtain ⟨hoff, hbuf⟩ := h
  have hle : w.length ≤ pb.packet.buf.length := by rw [pb.packet.buf_length]; exact hs
  have htake : (fillFrom pb.packet.buf pb.offset 0).take pb.offset = w := by
    rw [fillFrom, List.take_left' (by simp [hle, hoff]), hoff, hbuf]
  rw [PacketBuilder.finalize, if_pos (hoff ▸ hs)]
  simp only [htake]
  exact ⟨_, rfl, hoff⟩

end Builder

/-! ## Encoding -/

theorem ping_ne_pong : Qcmp.ping ≠ pong := by decide

theorem Protocol.payloadLength_ping : payloadLength Qcmp.ping = .ok 9 := rfl

theorem Protocol.payloadLength_pong : payloadLength pong = .ok 25 := rfl

theorem Protocol.payloadLength_of_ne {d : UInt8} (h0 : d ≠ Qcmp.ping) (h1 : d ≠ pong) :
    payloadLength d = .error (.invalidCommand d) := by
  simp [payloadLength, h0, h1]
  rfl

/-- `encode_payload` appends the nonce and the big-endian timestamps. -/
theorem Protocol.encodePayload_wrote {pb : PacketBuilder} {w : List UInt8} (p : Protocol)
    (h : pb.Wrote w) (hs : w.length + 1 + 8 * p.timestamps.length ≤ maxQcmpPacketLen) :
    ∃ pb', p.encodePayload pb = some pb' ∧
      pb'.Wrote (w ++ p.nonce :: p.timestamps.flatMap (·.unixNanos.toBeBytes)) := by
  obtain ⟨pb1, h1, hw1⟩ := pb.push_wrote h p.nonce (by omega)
  cases p with
  | ping c nonce =>
    simp only [timestamps, List.length_singleton] at hs
    simp only [Protocol.nonce] at h1 hw1
    obtain ⟨pb2, h2, hw2⟩ := pb1.pushTimestamp_wrote hw1 c (by simp; omega)
    exact ⟨pb2, by simp [encodePayload, Protocol.nonce, h1, h2],
      by simpa [timestamps, Protocol.nonce] using hw2⟩
  | pingReply c nonce s t =>
    simp only [timestamps, List.length_cons, List.length_nil] at hs
    simp only [Protocol.nonce] at h1 hw1
    obtain ⟨pb2, h2, hw2⟩ := pb1.pushTimestamp_wrote hw1 c (by simp; omega)
    obtain ⟨pb3, h3, hw3⟩ := pb2.pushTimestamp_wrote hw2 s (by simp; omega)
    obtain ⟨pb4, h4, hw4⟩ := pb3.pushTimestamp_wrote hw3 t (by simp; omega)
    exact ⟨pb4, by simp [encodePayload, Protocol.nonce, h1, h2, h3, h4],
      by simpa [timestamps, Protocol.nonce] using hw4⟩

/-- `encode` never panics, passes its debug assertion, and writes the wire image of the message,
into any buffer. -/
theorem Protocol.encode_eq (p : Protocol) (buffer : QcmpPacket) :
    ∃ buffer', p.encode buffer = some (p.image, buffer') ∧ buffer'.len = p.wireLength := by
  -- The header carries the payload length `dl`, which `encode_payload` then fills exactly.
  obtain ⟨dl, hdlen, hdl, himage⟩ : ∃ dl, p.discriminantLength = some dl ∧
      dl.toNat = 1 + 8 * p.timestamps.length ∧
      p.image = magicNumber ++ [version, p.discriminant] ++ dl.toBeBytes ++
        p.nonce :: p.timestamps.flatMap (·.unixNanos.toBeBytes) := by
    cases p <;> exact ⟨_, rfl, rfl, by simp [image, timestamps, discriminant, Protocol.nonce]; rfl⟩
  have hts : p.timestamps.length ≤ 3 := by cases p <;> simp [timestamps]
  have hw0 := PacketBuilder.wrap_wrote buffer
  obtain ⟨pb1, h1, hw1⟩ := (PacketBuilder.wrap buffer).pushSlice_wrote hw0 magicNumber
    (by simp [magicNumber, maxQcmpPacketLen, minQcmpPacketLen])
  obtain ⟨pb2, h2, hw2⟩ := pb1.push_wrote hw1 version
    (by simp [magicNumber, maxQcmpPacketLen, minQcmpPacketLen])
  obtain ⟨pb3, h3, hw3⟩ := pb2.push_wrote hw2 p.discriminant
    (by simp [magicNumber, maxQcmpPacketLen, minQcmpPacketLen])
  obtain ⟨pb4, h4, hw4⟩ := pb3.pushSlice_wrote hw3 dl.toBeBytes
    (by simp [magicNumber, maxQcmpPacketLen, minQcmpPacketLen])
  obtain ⟨pb5, h5, hw5⟩ := p.encodePayload_wrote hw4
    (by simp [magicNumber, maxQcmpPacketLen, minQcmpPacketLen]; omega)
  obtain ⟨buffer', hfin, hlen'⟩ := pb5.finalize_wrote hw5
    (by simp [magicNumber, maxQcmpPacketLen, minQcmpPacketLen]; omega)
  have hassert : pb5.offset = pb4.offset + dl.toNat := by
    rw [hw5.1, hw4.1, hdl]
    simp
    omega
  refine ⟨buffer', ?_, ?_⟩
  · simp [encode, h1, h2, h3, hdlen, h4, h5, hassert, hfin, himage]
  · rw [hlen', ← length_image, himage]
    simp

/-! ## Parsing -/

/-- The packets the protocol defines: 17 bytes `QLKN 0x00 0x00 0x00 0x09 nonce ts` (a ping) or
33 bytes `QLKN 0x00 0x01 0x00 0x19 nonce ts ts ts` (a reply). -/
def WellFormed (input : List UInt8) : Prop :=
  (input.length = minQcmpPacketLen ∧ input.take 8 = magicNumber ++ [version, Qcmp.ping, 0, 9]) ∨
  (input.length = maxQcmpPacketLen ∧ input.take 8 = magicNumber ++ [version, pong, 0, 25])

instance (input : List UInt8) : Decidable (WellFormed input) :=
  inferInstanceAs (Decidable (_ ∨ _))

/-- Inputs of at least `MIN_QCMP_PACKET_LEN` bytes that do not start with the magic number, which
`parse` passes over as not QCMP. -/
def NotQcmp (input : List UInt8) : Prop :=
  minQcmpPacketLen ≤ input.length ∧ input.take 4 ≠ magicNumber

instance (input : List UInt8) : Decidable (NotQcmp input) :=
  inferInstanceAs (Decidable (_ ∧ _))

/-- A message is read back from its wire image. -/
theorem Protocol.parse_image (p : Protocol) (hp : p.FitsI64) : parse p.image = some (.ok (some p)) := by
  cases p with
  | ping c nonce =>
    have hc : c.FitsI64 := hp c (by simp [timestamps])
    have h9 : UInt16.fromBeBytes [0, 9] = 9 := by decide
    simp only [parse, PacketParser.wrap, image, magicNumber, List.cons_append, List.nil_append,
      List.length_cons, Int64.length_toBeBytes, Nat.reduceAdd, minQcmpPacketLen, lt_self_iff_false,
      ↓reduceIte, Option.pure_def, PacketParser.readSlice, ne_eq, PacketParser.read,
      PacketParser.parseTimestamp, Option.bind_eq_bind, Option.bind_some, Option.bind_none, ite_not,
      UInt16.reduceOfNat, maxQcmpPacketLen, Nat.reduceMul, zero_add, Nat.reduceLeDiff, List.drop_zero,
      List.take_succ_cons, List.take_zero, Nat.reduceLT, getElem?_pos, List.getElem_cons_succ,
      List.getElem_cons_zero, Option.map_some, List.drop_succ_cons, payloadLength_ping,
      UInt16.reduceToNat, h9, Nat.reduceSub, Nat.le_refl, List.take_of_length_le,
      Int64.fromBeBytes_toBeBytes, UtcTimestamp.fromNanos_unixNanos hc]
  | pingReply c nonce s t =>
    have hc : c.FitsI64 := hp c (by simp [timestamps])
    have hs : s.FitsI64 := hp s (by simp [timestamps])
    have ht : t.FitsI64 := hp t (by simp [timestamps])
    have h25 : UInt16.fromBeBytes [0, 25] = 25 := by decide
    simp only [parse, PacketParser.wrap, image, magicNumber, List.cons_append, List.nil_append,
      List.append_assoc, List.length_cons, List.length_append, Int64.length_toBeBytes,
      Nat.reduceAdd, minQcmpPacketLen, Nat.reduceLT, ↓reduceIte, Option.pure_def,
      PacketParser.readSlice, ne_eq, PacketParser.read, PacketParser.parseTimestamp,
      Option.bind_eq_bind, Option.bind_some, Option.bind_none, ite_not, UInt16.reduceOfNat,
      maxQcmpPacketLen, Nat.reduceMul, zero_add, Nat.reduceLeDiff, List.drop_zero,
      List.take_succ_cons, List.take_zero, getElem?_pos, List.getElem_cons_succ,
      List.getElem_cons_zero, Option.map_some, ping_ne_pong.symm, lt_self_iff_false,
      List.drop_succ_cons, payloadLength_pong, UInt16.reduceToNat, h25, Nat.reduceSub,
      List.drop_append, zero_le, Nat.sub_eq_zero_of_le, List.take_left', Int64.fromBeBytes_toBeBytes,
      UtcTimestamp.fromNanos_unixNanos hc, UtcTimestamp.fromNanos_unixNanos hs,
      Nat.le_refl, List.drop_eq_nil_of_le, List.take_of_length_le,
      UtcTimestamp.fromNanos_unixNanos ht]

/-- Every well-formed packet is the wire image of a message with `i64` timestamps. -/
theorem exists_image_of_wellFormed {input : List UInt8} (h : WellFormed input) :
    ∃ p : Protocol, p.FitsI64 ∧ p.image = input := by
  -- Split the input after its header and its nonce; the rest is the timestamps.
  have hsplit : input = input.take 8 ++ input.drop 8 := (List.take_append_drop 8 input).symm
  rcases h with ⟨hlen, hhead⟩ | ⟨hlen, hhead⟩
  · obtain ⟨nonce, ts, hts⟩ : ∃ nonce ts, input.drop 8 = nonce :: ts := by
      cases hd : input.drop 8 with
      | nil =>
        have := List.drop_eq_nil_iff.mp hd
        simp [minQcmpPacketLen] at hlen
        omega
      | cons nonce ts => exact ⟨nonce, ts, rfl⟩
    have hlts : ts.length = 8 := by
      have := congrArg List.length hts
      simp [minQcmpPacketLen] at this hlen
      omega
    refine ⟨.ping (.fromNanos (Int64.fromBeBytes ts)) nonce, ?_, ?_⟩
    · simp [Protocol.FitsI64, Protocol.timestamps]
    · rw [hsplit, hhead, hts]
      simp [Protocol.image, Int64.toBeBytes_fromBeBytes hlts]
  · obtain ⟨nonce, ts, hts⟩ : ∃ nonce ts, input.drop 8 = nonce :: ts := by
      cases hd : input.drop 8 with
      | nil =>
        have := List.drop_eq_nil_iff.mp hd
        simp [maxQcmpPacketLen, minQcmpPacketLen] at hlen
        omega
      | cons nonce ts => exact ⟨nonce, ts, rfl⟩
    have hlts : ts.length = 24 := by
      have := congrArg List.length hts
      simp [maxQcmpPacketLen, minQcmpPacketLen] at this hlen
      omega
    -- The three timestamps are consecutive eight-byte windows of `ts`.
    set c := ts.take 8
    set s := (ts.drop 8).take 8
    set t := ts.drop 16
    have hts3 : ts = c ++ s ++ t := by
      have h16 : ts.drop 16 = (ts.drop 8).drop 8 := by rw [List.drop_drop]
      simp only [c, s, t, h16, List.append_assoc, List.take_append_drop]
    refine ⟨.pingReply (.fromNanos (Int64.fromBeBytes c)) nonce (.fromNanos (Int64.fromBeBytes s))
      (.fromNanos (Int64.fromBeBytes t)), ?_, ?_⟩
    · simp [Protocol.FitsI64, Protocol.timestamps]
    · rw [hsplit, hhead, hts, hts3]
      simp [Protocol.image, Int64.toBeBytes_fromBeBytes, c, s, t, hlts]

/-- Inputs shorter than `MIN_QCMP_PACKET_LEN` are rejected before anything is read. -/
theorem Protocol.parse_of_length_lt {input : List UInt8} (h : input.length < minQcmpPacketLen) :
    parse input = some (.error (.lengthMismatch (UInt16.ofNat minQcmpPacketLen) input.length)) := by
  simp [parse, PacketParser.wrap, h]

/-- Inputs without the magic number are not QCMP. -/
theorem Protocol.parse_of_notQcmp {input : List UInt8} (h : NotQcmp input) :
    parse input = some (.ok none) := by
  obtain ⟨hlen, hmagic⟩ := h
  have h4 : 4 ≤ input.length := Nat.le_trans (by decide) hlen
  simp only [parse, PacketParser.wrap, Nat.not_lt.mpr hlen, ↓reduceIte, Option.pure_def,
    PacketParser.readSlice, ne_eq, Option.bind_eq_bind, Option.bind_some, Option.bind_none, ite_not,
    zero_add, h4, List.drop_zero, hmagic]

/-- The two bytes of a length field that reads as `n`. -/
theorem lengthBytes_eq {l1 l2 : UInt8} {n : UInt16} (h : UInt16.fromBeBytes [l1, l2] = n) :
    [l1, l2] = n.toBeBytes := by
  rw [← h, UInt16.toBeBytes_fromBeBytes rfl]

/-- A QCMP-looking input that is not a well-formed packet is rejected with an error: a wrong
version, an unknown discriminant, a reply shorter than `MAX_QCMP_PACKET_LEN`, a length field that
does not match the discriminant, or a length field that does not match the remaining input. -/
theorem Protocol.parse_of_malformed {input : List UInt8} (hwf : ¬ WellFormed input)
    (hnq : ¬ NotQcmp input) (hlen : minQcmpPacketLen ≤ input.length) :
    ∃ e, parse input = some (.error e) := by
  have hmagic : input.take 4 = magicNumber := by
    by_contra h
    exact hnq ⟨hlen, h⟩
  obtain ⟨v, d, l1, l2, rest, hrest⟩ :
      ∃ v d l1 l2 rest, input.drop 4 = v :: d :: l1 :: l2 :: rest := by
    match h : input.drop 4 with
    | v :: d :: l1 :: l2 :: rest => exact ⟨v, d, l1, l2, rest, rfl⟩
    | [] | [_] | [_, _] | [_, _, _] =>
      have := congrArg List.length h
      simp [minQcmpPacketLen] at this hlen
      omega
  have hinput : input = magicNumber ++ v :: d :: l1 :: l2 :: rest := by
    rw [← hmagic, ← hrest, List.take_append_drop]
  subst hinput
  have h9 : 9 ≤ rest.length := by simp [magicNumber, minQcmpPacketLen] at hlen; omega
  have h17 : ¬ rest.length + 8 < 17 := by omega
  -- Read the header once: what is left are the checks of the version, the discriminant and the
  -- two lengths, in this order.
  simp only [parse, PacketParser.wrap, magicNumber, List.cons_append, List.nil_append,
    List.length_cons, Nat.add_assoc, Nat.reduceAdd, minQcmpPacketLen, h17, ↓reduceIte,
    Option.pure_def, PacketParser.readSlice, ne_eq, PacketParser.read, Option.bind_eq_bind,
    Option.bind_some, Option.bind_none, ite_not, UInt16.reduceOfNat, zero_add,
    le_add_iff_nonneg_left, zero_le, List.drop_zero, List.take_succ_cons, List.take_zero,
    lt_add_iff_pos_left, add_pos_iff, Nat.zero_lt_succ, or_true, getElem?_pos,
    List.getElem_cons_succ, List.getElem_cons_zero, Option.map_some, List.drop_succ_cons,
    add_tsub_cancel_right, List.getElem?_cons_succ]
  by_cases hv : v = version
  swap
  · exact ⟨_, if_neg hv⟩
  subst hv
  rw [if_pos rfl]
  by_cases hd0 : d = Qcmp.ping
  · subst hd0
    rw [if_pos rfl, payloadLength_ping]
    dsimp only
    by_cases hl : UInt16.fromBeBytes [l1, l2] = 9
    · by_cases hr : rest.length = 9
      · exfalso
        have hbytes : [l1, l2] = [0, 9] := lengthBytes_eq hl
        simp only [List.cons.injEq, and_true] at hbytes
        obtain ⟨rfl, rfl⟩ := hbytes
        exact hwf (.inl ⟨by simp [magicNumber, minQcmpPacketLen, hr], by simp [magicNumber]⟩)
      · rw [if_pos hl, hl, if_neg (by simpa using Ne.symm hr)]
        exact ⟨_, rfl⟩
    · exact ⟨_, by rw [if_neg hl]⟩
  rw [if_neg hd0]
  by_cases hd1 : d = pong
  swap
  · exact ⟨_, if_neg hd1⟩
  subst hd1
  rw [if_pos rfl]
  by_cases h33 : rest.length + 8 < maxQcmpPacketLen
  · exact ⟨_, if_pos h33⟩
  rw [if_neg h33, payloadLength_pong]
  dsimp only
  by_cases hl : UInt16.fromBeBytes [l1, l2] = 25
  · by_cases hr : rest.length = 25
    · exfalso
      have hbytes : [l1, l2] = [0, 25] := lengthBytes_eq hl
      simp only [List.cons.injEq, and_true] at hbytes
      obtain ⟨rfl, rfl⟩ := hbytes
      exact hwf (.inr ⟨by simp [magicNumber, minQcmpPacketLen, maxQcmpPacketLen, hr],
        by simp [magicNumber]⟩)
    · rw [if_pos hl, hl, if_neg (by simpa using Ne.symm hr)]
      exact ⟨_, rfl⟩
  · exact ⟨_, by rw [if_neg hl]⟩

theorem not_notQcmp_of_wellFormed {input : List UInt8} (h : WellFormed input) : ¬ NotQcmp input := by
  rintro ⟨-, hmagic⟩
  apply hmagic
  have htake : input.take 4 = (input.take 8).take 4 := by
    rw [List.take_take]
    rfl
  rcases h with ⟨-, hhead⟩ | ⟨-, hhead⟩ <;> rw [htake, hhead] <;> rfl

/-- Every input is exactly one of: a well-formed packet, decoded to the message whose image it
is; not QCMP, passed over; or rejected with an error. In particular `parse` never panics. -/
theorem Protocol.parse_trichotomy (input : List UInt8) :
    (WellFormed input ∧ ∃ p : Protocol, p.FitsI64 ∧ p.image = input ∧
        parse input = some (.ok (some p))) ∨
      (NotQcmp input ∧ parse input = some (.ok none)) ∨
      (¬ WellFormed input ∧ ¬ NotQcmp input ∧ ∃ e, parse input = some (.error e)) := by
  by_cases hwf : WellFormed input
  · obtain ⟨p, hp, himage⟩ := exists_image_of_wellFormed hwf
    exact .inl ⟨hwf, p, hp, himage, himage ▸ parse_image p hp⟩
  by_cases hnq : NotQcmp input
  · exact .inr (.inl ⟨hnq, parse_of_notQcmp hnq⟩)
  refine .inr (.inr ⟨hwf, hnq, ?_⟩)
  by_cases hlen : minQcmpPacketLen ≤ input.length
  · exact parse_of_malformed hwf hnq hlen
  · exact ⟨_, parse_of_length_lt (Nat.lt_of_not_le hlen)⟩

/-- `Protocol::parse` accepts exactly the well-formed packets, passes over exactly the inputs of
at least `MIN_QCMP_PACKET_LEN` bytes without the magic number, rejects everything else, and
every accepted packet is reproduced byte for byte by `encode`, into any buffer. -/
theorem Protocol.parse_spec (input : List UInt8) :
    ((∃ p, parse input = some (.ok (some p))) ↔ WellFormed input) ∧
    (parse input = some (.ok none) ↔
      minQcmpPacketLen ≤ input.length ∧ input.take 4 ≠ magicNumber) ∧
    ((∃ e, parse input = some (.error e)) ↔
      ¬ WellFormed input ∧ ¬ (minQcmpPacketLen ≤ input.length ∧ input.take 4 ≠ magicNumber)) ∧
    ∀ p, parse input = some (.ok (some p)) →
      ∀ buffer, (p.encode buffer).map Prod.fst = some input := by
  rcases parse_trichotomy input with ⟨hwf, p, -, himage, hp⟩ | ⟨hnq, hp⟩ | ⟨hwf, hnq, e, hp⟩
  · have hnq := not_notQcmp_of_wellFormed hwf
    refine ⟨⟨fun _ => hwf, fun _ => ⟨p, hp⟩⟩, ⟨by simp [hp], fun h => absurd h hnq⟩,
      ⟨by simp [hp], fun h => absurd hwf h.1⟩, ?_⟩
    intro q hq buffer
    have hpq : p = q := by simpa [hp] using hq
    subst hpq
    obtain ⟨buffer', henc, -⟩ := encode_eq p buffer
    simp [henc, himage]
  · have hwf : ¬ WellFormed input := fun h => not_notQcmp_of_wellFormed h hnq
    refine ⟨⟨fun ⟨q, hq⟩ => by simp [hp] at hq, fun h => absurd h hwf⟩, ⟨fun _ => hnq, fun _ => hp⟩,
      ⟨fun ⟨e, he⟩ => by simp [hp] at he, fun h => absurd hnq h.2⟩, ?_⟩
    intro q hq
    simp [hp] at hq
  · refine ⟨⟨fun ⟨q, hq⟩ => by simp [hp] at hq, fun h => absurd h hwf⟩,
      ⟨fun h => by simp [hp] at h, fun h => absurd h hnq⟩, ⟨fun _ => ⟨hwf, hnq⟩, fun _ => ⟨e, hp⟩⟩, ?_⟩
    intro q hq
    simp [hp] at hq

/-- `encode` writes `MIN_QCMP_PACKET_LEN` bytes for a ping and `MAX_QCMP_PACKET_LEN` for a reply,
into any buffer, without a panic or a failed debug assertion, and `parse` reads every field back
exactly. -/
theorem Protocol.encode_parse (p : Protocol) (hp : p.FitsI64) (buffer : QcmpPacket) :
    ∃ bytes buffer', p.encode buffer = some (bytes, buffer') ∧ bytes.length = p.wireLength ∧
      buffer'.len = p.wireLength ∧ parse bytes = some (.ok (some p)) := by
  obtain ⟨buffer', henc, hlen⟩ := encode_eq p buffer
  exact ⟨p.image, buffer', henc, length_image p, hlen, parse_image p hp⟩

theorem Protocol.encode_parse_reply :
    (Protocol.pingReply ⟨-1⟩ 0xBF ⟨2 ^ 62⟩ ⟨0x63b6e957⟩).FitsI64 ∧
      ∃ bytes buffer', (Protocol.pingReply ⟨-1⟩ 0xBF ⟨2 ^ 62⟩ ⟨0x63b6e957⟩).encode
          QcmpPacket.default = some (bytes, buffer') ∧ bytes.length = maxQcmpPacketLen ∧
        buffer'.len = maxQcmpPacketLen ∧
        parse bytes = some (.ok (some (.pingReply ⟨-1⟩ 0xBF ⟨2 ^ 62⟩ ⟨0x63b6e957⟩))) :=
  ⟨by decide, encode_parse _ (by decide) QcmpPacket.default⟩

/-- The unchecked reads of `parse` all lie inside the input and its `unreachable!` is never
reached: on every input, of any length, it returns. -/
theorem Protocol.parse_total (input : List UInt8) : ∃ r, parse input = some r := by
  rcases parse_trichotomy input with ⟨-, p, -, -, hp⟩ | ⟨-, hp⟩ | ⟨-, -, e, hp⟩
  · exact ⟨_, hp⟩
  · exact ⟨_, hp⟩
  · exact ⟨_, hp⟩

/-! ## Measurements -/

/-- The difference `a - b` of two `i64`s is itself an `i64`. -/
def SubFits (a b : Int64) : Prop := -2 ^ 63 ≤ a.toInt - b.toInt ∧ a.toInt - b.toInt < 2 ^ 63

section Sub

variable {a b : Int64}

theorem ssubOverflow_eq_false_iff : a.toBitVec.ssubOverflow b.toBitVec = false ↔ SubFits a b := by
  simp only [BitVec.ssubOverflow, Int64.toInt_toBitVec, Bool.or_eq_false_iff, decide_eq_false_iff_not,
    SubFits]
  omega

theorem checkedSub_of_subFits (h : SubFits a b) : checkedSub a b = some (a - b) := by
  have hno : a.toBitVec.ssubOverflow b.toBitVec = false := ssubOverflow_eq_false_iff.mpr h
  rw [checkedSub, hno]
  rfl

theorem checkedSub_of_not_subFits (h : ¬ SubFits a b) : checkedSub a b = none := by
  have hover : a.toBitVec.ssubOverflow b.toBitVec = true := by
    rw [← Bool.not_eq_false, ssubOverflow_eq_false_iff]
    exact h
  rw [checkedSub, hover]
  rfl

/-- Where it does not overflow, the difference of two `i64`s is the difference of the integers. -/
theorem toInt_sub_of_subFits (h : SubFits a b) : (a - b).toInt = a.toInt - b.toInt := by
  obtain ⟨lo, hi⟩ := h
  rw [Int64.toInt_sub]
  exact Int.bmod_eq_of_le_mul_two (by omega) (by omega)

end Sub

/-- `distance` overflows exactly where the time to the server or the time back does. -/
theorem Protocol.distance_eq_none_iff {c s x r : UtcTimestamp} {nonce : UInt8} :
    (pingReply c nonce s x).distance r = none ↔
      ¬ SubFits s.unixNanos c.unixNanos ∨ ¬ SubFits r.unixNanos x.unixNanos := by
  by_cases hin : SubFits s.unixNanos c.unixNanos
  · by_cases hout : SubFits r.unixNanos x.unixNanos
    · simp [distance, UtcTimestamp.sub, checkedSub_of_subFits hin, checkedSub_of_subFits hout, hin, hout]
    · simp [distance, UtcTimestamp.sub, checkedSub_of_subFits hin, checkedSub_of_not_subFits hout, hout]
  · simp [distance, UtcTimestamp.sub, checkedSub_of_not_subFits hin, hin]

/-- `round_trip_delay` overflows exactly where the time the client waited, the time the server
held the ping, or their difference does. -/
theorem Protocol.roundTripDelay_eq_none_iff {c s x r : UtcTimestamp} {nonce : UInt8} :
    (pingReply c nonce s x).roundTripDelay r = none ↔
      ¬ SubFits r.unixNanos c.unixNanos ∨ ¬ SubFits x.unixNanos s.unixNanos ∨
        ¬ SubFits (r.unixNanos - c.unixNanos) (x.unixNanos - s.unixNanos) := by
  by_cases hwait : SubFits r.unixNanos c.unixNanos
  · by_cases hheld : SubFits x.unixNanos s.unixNanos
    · by_cases hdelay : SubFits (r.unixNanos - c.unixNanos) (x.unixNanos - s.unixNanos)
      · simp [roundTripDelay, checkedSub_of_subFits hwait, checkedSub_of_subFits hheld,
          checkedSub_of_subFits hdelay, hwait, hheld, hdelay]
      · simp [roundTripDelay, checkedSub_of_subFits hwait, checkedSub_of_subFits hheld,
          checkedSub_of_not_subFits hdelay, hdelay]
    · simp [roundTripDelay, checkedSub_of_subFits hwait, checkedSub_of_not_subFits hheld, hheld]
  · simp [roundTripDelay, checkedSub_of_not_subFits hwait, hwait]

/-- Two `i64`s from zero on are less than `i64::MAX` apart. -/
theorem subFits_of_nonneg {a b : Int64} (ha : 0 ≤ a.toInt) (hb : 0 ≤ b.toInt) : SubFits a b := by
  have ha' := a.toInt_lt
  have hb' := b.toInt_lt
  constructor <;> omega

/-- For timestamps from the Unix epoch on, `distance` does not overflow and measures both ways
exactly. -/
theorem Protocol.distance_of_nonneg {c s x r : UtcTimestamp} (nonce : UInt8)
    (h : ∀ t ∈ [c, s, x, r], 0 ≤ t.unixNanos.toInt) :
    ∃ d, (pingReply c nonce s x).distance r = some (some d) ∧
      d.incoming.nanos.toInt = s.unixNanos.toInt - c.unixNanos.toInt ∧
      d.outgoing.nanos.toInt = r.unixNanos.toInt - x.unixNanos.toInt := by
  simp only [List.mem_cons, List.not_mem_nil, or_false, forall_eq_or_imp, forall_eq] at h
  obtain ⟨hc, hs, hx, hr⟩ := h
  have hin := subFits_of_nonneg hs hc
  have hout := subFits_of_nonneg hr hx
  refine ⟨⟨⟨s.unixNanos - c.unixNanos⟩, ⟨r.unixNanos - x.unixNanos⟩⟩, ?_,
    toInt_sub_of_subFits hin, toInt_sub_of_subFits hout⟩
  simp [distance, UtcTimestamp.sub, checkedSub_of_subFits hin, checkedSub_of_subFits hout]

/-- For timestamps from the Unix epoch on and before `2^62` nanoseconds past it (early 2116),
`round_trip_delay` does not overflow and is the NTP delay exactly. -/
theorem Protocol.roundTripDelay_of_lt {c s x r : UtcTimestamp} (nonce : UInt8)
    (h : ∀ t ∈ [c, s, x, r], 0 ≤ t.unixNanos.toInt ∧ t.unixNanos.toInt < 2 ^ 62) :
    ∃ d, (pingReply c nonce s x).roundTripDelay r = some (some d) ∧
      d.nanos.toInt = (r.unixNanos.toInt - c.unixNanos.toInt) -
        (x.unixNanos.toInt - s.unixNanos.toInt) := by
  simp only [List.mem_cons, List.not_mem_nil, or_false, forall_eq_or_imp, forall_eq] at h
  obtain ⟨⟨hc, hc'⟩, ⟨hs, hs'⟩, ⟨hx, hx'⟩, ⟨hr, hr'⟩⟩ := h
  have hwait := subFits_of_nonneg hr hc
  have hheld := subFits_of_nonneg hx hs
  -- each difference is within `2^62` of zero, so theirs is within `2^63`
  have hdelay : SubFits (r.unixNanos - c.unixNanos) (x.unixNanos - s.unixNanos) := by
    rw [SubFits, toInt_sub_of_subFits hwait, toInt_sub_of_subFits hheld]
    constructor <;> omega
  refine ⟨⟨(r.unixNanos - c.unixNanos) - (x.unixNanos - s.unixNanos)⟩, ?_, ?_⟩
  · simp [roundTripDelay, checkedSub_of_subFits hwait, checkedSub_of_subFits hheld,
      checkedSub_of_subFits hdelay]
  · rw [toInt_sub_of_subFits hdelay, toInt_sub_of_subFits hwait, toInt_sub_of_subFits hheld]

/-- A reply that `parse` accepts, with any nonce, the least `i64` as its client timestamp and the
greatest as both server timestamps: `distance` overflows at every time of receipt, and
`round_trip_delay` at every time of receipt from the Unix epoch on. -/
theorem Protocol.distance_overflows (nonce : UInt8) :
    parse ([0x51, 0x4c, 0x4b, 0x4e, 0, 1, 0, 25, nonce] ++ [0x80, 0, 0, 0, 0, 0, 0, 0] ++
        [0x7f, 0xff, 0xff, 0xff, 0xff, 0xff, 0xff, 0xff] ++
        [0x7f, 0xff, 0xff, 0xff, 0xff, 0xff, 0xff, 0xff]) =
      some (.ok (some (pingReply (.fromNanos Int64.minValue) nonce (.fromNanos Int64.maxValue)
        (.fromNanos Int64.maxValue)))) ∧
      ∀ r : UtcTimestamp,
        (pingReply (.fromNanos Int64.minValue) nonce (.fromNanos Int64.maxValue)
          (.fromNanos Int64.maxValue)).distance r = none ∧
        (0 ≤ r.unixNanos.toInt → (pingReply (.fromNanos Int64.minValue) nonce
          (.fromNanos Int64.maxValue) (.fromNanos Int64.maxValue)).roundTripDelay r = none) := by
  have hfits : (pingReply (.fromNanos Int64.minValue) nonce (.fromNanos Int64.maxValue)
      (.fromNanos Int64.maxValue)).FitsI64 := by
    simp [FitsI64, timestamps]
  have himage : (pingReply (.fromNanos Int64.minValue) nonce (.fromNanos Int64.maxValue)
      (.fromNanos Int64.maxValue)).image = [0x51, 0x4c, 0x4b, 0x4e, 0, 1, 0, 25, nonce] ++
      [0x80, 0, 0, 0, 0, 0, 0, 0] ++ [0x7f, 0xff, 0xff, 0xff, 0xff, 0xff, 0xff, 0xff] ++
      [0x7f, 0xff, 0xff, 0xff, 0xff, 0xff, 0xff, 0xff] := by
    rfl
  refine ⟨himage ▸ parse_image _ hfits, fun r => ⟨?_, fun hr => ?_⟩⟩
  · -- the time to the server, `i64::MAX - i64::MIN`, is out of range
    rw [distance_eq_none_iff]
    left
    simp [SubFits, Int64.toInt_maxValue]
  · -- so is the time the client waited, `r - i64::MIN`, for `r ≥ 0`
    rw [roundTripDelay_eq_none_iff]
    left
    simp only [SubFits, UtcTimestamp.unixNanos_fromNanos, Int64.toInt_minValue]
    omega

end Quilkin.Qcmp
