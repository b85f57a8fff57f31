import Quilkin.Filters.Capture

/-!
# The capture and concatenate filters: what they take and what they leave

What each capture strategy returns, that no strategy makes `Capture::read` remove more than the
packet holds (so the filter never panics), and the round trips the token routing of quilkin rests
on: bytes that `Concatenate` added at one end of a packet are captured, and removed, by the
`Capture` that takes as many bytes from the same end.
-/

namespace Quilkin.Filters

open Net

namespace Capture

variable {contents : List UInt8} {v : Value} {remove : Int}

/-! ## The strategies -/

theorem Prefix.capture_of_le {p : Prefix} (h : p.size.toNat ≤ contents.length) :
    p.capture contents =
      some (.bytes (contents.take p.size.toNat), if p.remove then -(p.size.toNat : Int) else 0) := by
  simp [Prefix.capture, isValidSize, h]

theorem Prefix.capture_of_lt {p : Prefix} (h : contents.length < p.size.toNat) :
    p.capture contents = none := by
  simp [Prefix.capture, isValidSize, Nat.not_le_of_lt h]

theorem Suffix.capture_of_le {s : Suffix} (h : s.size.toNat ≤ contents.length) :
    s.capture contents =
      some (.bytes (contents.drop (contents.length - s.size.toNat)),
        if s.remove then (s.size.toNat : Int) else 0) := by
  simp [Suffix.capture, isValidSize, h]

/-- `QuicDcid` never asks for bytes to be removed. -/
theorem QuicDcid.capture_remove {q : QuicDcid} (h : q.capture contents = some (v, remove)) :
    remove = 0 := by
  obtain ⟨offset, -, hoff⟩ := Option.bind_eq_some_iff.mp h
  dsimp only at hoff
  split_ifs at hoff
  cases hoff
  rfl

/-- `QuicDcid` takes `size` bytes from the offset its header gives, when the packet holds
them. -/
theorem QuicDcid.capture_of_offset {q : QuicDcid} {offset : Nat}
    (hoff : q.captureOffset contents = some offset)
    (hend : offset + q.size.toNat ≤ contents.length) :
    q.capture contents = some (.bytes ((contents.drop offset).take q.size.toNat), 0) := by
  rw [QuicDcid.capture, hoff, Option.bind_some]
  exact if_pos hend

/-- In a long header, `QuicDcid` captures the first `size` bytes of the destination connection
id, which follows the first byte, four bytes of version and the id's length, when the id is at
least that long. -/
theorem QuicDcid.capture_long {q : QuicDcid} {first dcidLen : UInt8} {version dcid rest : List UInt8}
    (hlong : isLongHeader first = true) (hversion : version.length = 4)
    (hdcid : dcid.length = dcidLen.toNat) (hsize : q.size.toNat ≤ dcid.length) :
    q.capture (first :: (version ++ dcidLen :: (dcid ++ rest))) =
      some (.bytes (dcid.take q.size.toNat), 0) := by
  have h5 : (first :: (version ++ dcidLen :: (dcid ++ rest)))[5]? = some dcidLen := by
    rw [List.getElem?_cons_succ, List.getElem?_append_right (by omega), hversion]
    rfl
  have hge : q.size ≤ dcidLen.toUInt32 := by
    rw [UInt32.le_iff_toNat_le, UInt8.toNat_toUInt32, ← hdcid]
    exact hsize
  have hoff : q.captureOffset (first :: (version ++ dcidLen :: (dcid ++ rest))) = some 6 := by
    simp only [QuicDcid.captureOffset, List.head?_cons, hlong, if_true, h5, ge_iff_le, hge]
  have hdrop : (first :: (version ++ dcidLen :: (dcid ++ rest))).drop 6 = dcid ++ rest := by
    rw [List.drop_succ_cons, List.drop_append, hversion, List.drop_eq_nil_of_le (by omega),
      List.nil_append]
    rfl
  rw [QuicDcid.capture_of_offset hoff (by simp; omega), hdrop,
    List.take_append_of_le_length hsize]

/-- A long header of version `1` whose two-byte id, `7 8`, is followed by one more byte. -/
theorem capture_long_twoByteId :
    isLongHeader 0xc0 = true ∧ ([0, 0, 0, 1] : List UInt8).length = 4 ∧
      ([7, 8] : List UInt8).length = (2 : UInt8).toNat ∧
      (⟨2⟩ : QuicDcid).size.toNat ≤ ([7, 8] : List UInt8).length ∧
      (⟨2⟩ : QuicDcid).capture (0xc0 :: ([0, 0, 0, 1] ++ 2 :: ([7, 8] ++ [9]))) =
        some (.bytes (([7, 8] : List UInt8).take (⟨2⟩ : QuicDcid).size.toNat), 0) :=
  ⟨by decide, rfl, rfl, by decide, QuicDcid.capture_long (by decide) rfl rfl (by decide)⟩

/-- In a short header, `QuicDcid` captures the `size` bytes after the first. -/
theorem QuicDcid.capture_short {q : QuicDcid} {first : UInt8} {dcid rest : List UInt8}
    (hshort : isLongHeader first = false) (hsize : q.size.toNat ≤ dcid.length) :
    q.capture (first :: (dcid ++ rest)) = some (.bytes (dcid.take q.size.toNat), 0) := by
  have hoff : q.captureOffset (first :: (dcid ++ rest)) = some 1 := by
    simp only [QuicDcid.captureOffset, List.head?_cons, hshort]
    rfl
  rw [QuicDcid.capture_of_offset hoff (by simp; omega), List.drop_one, List.tail_cons,
    List.take_append_of_le_length hsize]

/-- No strategy asks to remove more bytes from the head than the packet holds. -/
theorem Strategy.natAbs_le_of_neg {strategy : Strategy} (h : strategy.capture contents = some (v, remove))
    (hneg : remove < 0) : remove.natAbs ≤ contents.length := by
  cases strategy with
  | ofPrefix p =>
    by_cases hle : p.size.toNat ≤ contents.length
    · rw [Strategy.capture, Prefix.capture_of_le hle] at h
      cases h
      split <;> omega
    · rw [Strategy.capture, Prefix.capture_of_lt (Nat.lt_of_not_le hle)] at h
      cases h
  | ofSuffix s =>
    simp only [Strategy.capture, Suffix.capture] at h
    split_ifs at h <;> cases h <;> omega
  | ofRegex r =>
    simp only [Strategy.capture, Regex.capture] at h
    split_ifs at h
    · cases h
      omega
    · obtain ⟨_, -, hv⟩ := Option.map_eq_some_iff.mp h
      cases hv
      omega
  | ofQuicDcid q =>
    rw [QuicDcid.capture_remove h] at hneg
    omega

/-! ## The filter -/

/-- The capture filter never panics: what it removes from the head is always there. -/
theorem read_isSome (c : Capture) (ctx : ReadContext) : (c.read ctx).isSome := by
  cases hcap : c.capture.capture ctx.contents with
  | none => simp [read, hcap]
  | some captured =>
    obtain ⟨value, remove⟩ := captured
    by_cases h0 : remove = 0
    · simp [read, hcap, h0]
    · by_cases hneg : remove < 0
      · have hle := Strategy.natAbs_le_of_neg hcap hneg
        simp [read, hcap, h0, hneg, BytesMut.removeHead, hle]
      · simp [read, hcap, h0, hneg]

/-- `Capture::new` records whether it captured under a key other than the value's. -/
theorem new_isPresentKey_ne (config : Config) : (new config).isPresentKey ≠ (new config).metadataKey := by
  intro h
  have hlen := congrArg String.length h
  simp [new] at hlen

/-! ## Round trips with `Concatenate` -/

variable (key : Key) {size : UInt32} {t : List UInt8} (ctx : ReadContext)

/-- The bytes prepended by `Concatenate` are what a removing `Prefix` capture of as many bytes
takes: it stores them under its key and leaves the packet as it was before. -/
theorem read_prefix_prepend (hsize : t.length = size.toNat) :
    ∃ metadata, (new ⟨key, .ofPrefix ⟨true, size⟩⟩).read { ctx with contents := t ++ ctx.contents } =
      some ({ ctx with metadata }, .ok ()) ∧ metadata key = some (.bytes t) := by
  have hcap : (Strategy.ofPrefix ⟨true, size⟩).capture (t ++ ctx.contents) =
      some (.bytes t, -(size.toNat : Int)) := by
    rw [Strategy.capture, Prefix.capture_of_le (by simp [hsize])]
    simp [← hsize]
  have hdrop : BytesMut.removeHead (t ++ ctx.contents) size.toNat = some ctx.contents := by
    simp [BytesMut.removeHead, hsize]
  refine ⟨(ctx.metadata.insert (key ++ "/is_present") (.bool true)).insert key (.bytes t), ?_,
    DynamicMetadata.insert_self⟩
  simp only [read, new, hcap, Option.isSome_some]
  by_cases h0 : size.toNat = 0
  · have ht : t = [] := List.eq_nil_of_length_eq_zero (by omega)
    subst ht
    simp [h0]
  · simp [h0, Int.natAbs_neg, hdrop]

/-- A datagram of two bytes from `10.0.0.1:7000`, to a proxy with no endpoint. -/
def twoByteDatagram : ReadContext :=
  ReadContext.new ClusterMap.new ⟨.ip (.v4 ⟨10, 0, 0, 1⟩), 7000⟩ [1, 2] []

theorem read_prefix_prepend_oneByte :
    ([5] : List UInt8).length = (1 : UInt32).toNat ∧
    ∃ metadata, (new ⟨"token", .ofPrefix ⟨true, 1⟩⟩).read
        { twoByteDatagram with contents := [5] ++ twoByteDatagram.contents } =
      some ({ twoByteDatagram with metadata }, .ok ()) ∧ metadata "token" = some (.bytes [5]) :=
  ⟨by decide, read_prefix_prepend "token" twoByteDatagram (by decide)⟩

end Capture

/-- `Concatenate` with `Append` on read adds its bytes at the tail. -/
theorem Concatenate.read_append (bytes : List UInt8) (onWrite : Concatenate.Strategy)
    (ctx : ReadContext) :
    (Concatenate.mk .append onWrite bytes).read ctx = { ctx with contents := ctx.contents ++ bytes } :=
  rfl

/-- `Concatenate` with `Prepend` on read adds its bytes at the head. -/
theorem Concatenate.read_prepend (bytes : List UInt8) (onWrite : Concatenate.Strategy)
    (ctx : ReadContext) :
    (Concatenate.mk .prepend onWrite bytes).read ctx = { ctx with contents := bytes ++ ctx.contents } :=
  rfl

end Quilkin.Filters
