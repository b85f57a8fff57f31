import Quilkin.Filters.Firewall

/-!
# Proofs: the text of a port range

`visit_str` reads back what `Serialize for PortRange` writes (`visitStr_serialize`), and what it
reads as a range is a port other than `u16::MAX`, or two ports in order around a first `-`
(`visitStr_eq_some_ok_iff`). The port `65535` alone is the text that panics
(`visitStr_eq_none_iff`), as `value + 1` leaves `u16`. A range's end is an excluded `u16`, so no
range contains the port `65535` and the firewall lets nothing from it through.
-/

namespace Quilkin.Filters

open Net

theorem checkedAdd_one (value : UInt16) :
    checkedAdd value 1 = if value = 65535 then none else some (value + 1) := by
  unfold checkedAdd
  by_cases hmax : value = 65535
  · subst hmax
    rfl
  · have hne : value.toNat ≠ 65535 := fun h => hmax (UInt16.toNat_inj.mp h)
    have hlt := value.toNat_lt
    rw [if_neg hmax, if_pos (by simp; omega)]

namespace PortRange

theorem new_eq_ok_iff {min max : UInt16} {range : PortRange} :
    PortRange.new min max = .ok range ↔ range.start = min ∧ range.stop = max := by
  unfold PortRange.new
  split_ifs with hlt
  · constructor
    · intro h
      cases h
      exact ⟨rfl, rfl⟩
    · rintro ⟨rfl, rfl⟩
      rfl
  · constructor
    · intro h
      cases h
    · rintro ⟨rfl, rfl⟩
      exact absurd range.start_lt hlt

/-- A range's start is below `u16::MAX`, as its end is above it. -/
theorem start_ne_max (range : PortRange) : range.start ≠ 65535 := by
  intro hmax
  have hlt := range.start_lt
  have hstop := range.stop.toNat_lt
  rw [hmax, UInt16.lt_iff_toNat_lt] at hlt
  exact absurd hlt (by simp; omega)

/-- The range of one port: its end is its start plus one, and no addition wraps. -/
theorem stop_eq_iff (range : PortRange) :
    range.start = range.stop - 1 ↔ range.stop = range.start + 1 := by
  have hlt := UInt16.lt_iff_toNat_lt.mp range.start_lt
  have hstop := range.stop.toNat_lt
  rw [← UInt16.toNat_inj, ← UInt16.toNat_inj, UInt16.toNat_sub_of_le _ _ (by
    rw [UInt16.le_iff_toNat_le]; simp; omega), UInt16.toNat_add]
  simp
  omega

/-- No range contains the port `65535`: it would have to end past `u16::MAX`. -/
theorem contains_max (range : PortRange) : range.contains 65535 = false := by
  have hstop := range.stop.toNat_lt
  have hnlt : ¬ (65535 : UInt16) < range.stop := by
    rw [UInt16.lt_iff_toNat_lt]
    simp
    omega
  simp [PortRange.contains, hnlt]

theorem ofUInt16_eq (value : UInt16) (hmax : value ≠ 65535) :
    ∃ range : PortRange, PortRange.ofUInt16 value = some range ∧ range.start = value ∧
      range.stop = value + 1 := by
  have hlt : value < value + 1 := by
    have hne : value.toNat ≠ 65535 := fun h => hmax (UInt16.toNat_inj.mp h)
    have hval := value.toNat_lt
    rw [UInt16.lt_iff_toNat_lt, UInt16.toNat_add]
    simp
    omega
  refine ⟨⟨value, value + 1, hlt⟩, ?_, rfl, rfl⟩
  rw [PortRange.ofUInt16, checkedAdd_one, if_neg hmax, Option.bind_some, PortRange.new, dif_pos hlt]

/-- `'-'` is not a digit. -/
theorem dash_not_mem_toDigits (n : Nat) : '-' ∉ Nat.toDigits 10 n :=
  Text.not_mem_toDigits (by decide) (by decide) (by decide)

/-! ## Reading a range -/

variable {v : List Char} {range : PortRange}

theorem mapError_new_eq_ok_iff {ε : Type} {f : PortRangeError → ε} {min max : UInt16} :
    (PortRange.new min max).mapError f = .ok range ↔ range.start = min ∧ range.stop = max := by
  rw [← new_eq_ok_iff]
  cases PortRange.new min max <;> simp [Except.mapError]

/-- A text with no `-` is one port, and reads as the range of that port. -/
theorem visitStr_eq_some_ok_of_not_mem (h : '-' ∉ v) :
    PortRange.visitStr v = some (.ok range) ↔
      Text.parseU16 v = .ok range.start ∧ range.stop = range.start + 1 := by
  simp only [PortRange.visitStr, Text.splitOnce_eq_none h]
  cases Text.parseU16 v with
  | error e => simp
  | ok value =>
    dsimp only
    rw [checkedAdd_one, Except.ok.injEq]
    split_ifs with hmax
    · -- `value + 1` overflows, and no range starts at `u16::MAX`
      simp only [Option.map_none, reduceCtorEq, false_iff, hmax]
      rintro ⟨hstart, -⟩
      exact start_ne_max range hstart.symm
    · rw [Option.map_some, Option.some.injEq, mapError_new_eq_ok_iff]
      constructor
      · rintro ⟨rfl, hstop⟩
        exact ⟨rfl, hstop⟩
      · rintro ⟨rfl, hstop⟩
        exact ⟨rfl, hstop⟩

/-- A text split at its first `-` reads as the range of the ports on its two sides. -/
theorem visitStr_eq_some_ok_of_split {s t : List Char} (h : Text.splitOnce '-' v = some (s, t)) :
    PortRange.visitStr v = some (.ok range) ↔
      Text.parseU16 s = .ok range.start ∧ Text.parseU16 t = .ok range.stop := by
  simp only [PortRange.visitStr, h, Option.some.injEq]
  cases Text.parseU16 s with
  | error e => simp [Except.mapError, bind, Except.bind]
  | ok start =>
    cases Text.parseU16 t with
    | error e => simp [Except.mapError, bind, Except.bind]
    | ok stop =>
      show (PortRange.new start stop).mapError PortRangeDeError.portRange = .ok range ↔ _
      rw [mapError_new_eq_ok_iff, Except.ok.injEq, Except.ok.injEq]
      exact ⟨fun ⟨h1, h2⟩ => ⟨h1.symm, h2.symm⟩, fun ⟨h1, h2⟩ => ⟨h1.symm, h2.symm⟩⟩

/-- What `visit_str` reads as a range: a port other than `u16::MAX` alone, or two ports in order
around a first `-`. -/
theorem visitStr_eq_some_ok_iff :
    PortRange.visitStr v = some (.ok range) ↔
      ('-' ∉ v ∧ Text.parseU16 v = .ok range.start ∧ range.stop = range.start + 1) ∨
        ∃ s t, v = s ++ '-' :: t ∧ '-' ∉ s ∧ Text.parseU16 s = .ok range.start ∧
          Text.parseU16 t = .ok range.stop := by
  cases hsplit : Text.splitOnce '-' v with
  | none =>
    have hdash := Text.splitOnce_eq_none_iff.mp hsplit
    have hsplit' : ¬ ∃ s t, v = s ++ '-' :: t ∧ '-' ∉ s ∧ Text.parseU16 s = .ok range.start ∧
        Text.parseU16 t = .ok range.stop := by
      rintro ⟨s, t, rfl, -⟩
      exact hdash (List.mem_append_right s List.mem_cons_self)
    rw [or_iff_left hsplit', visitStr_eq_some_ok_of_not_mem hdash, and_iff_right hdash]
  | some p =>
    obtain ⟨s, t⟩ := p
    obtain ⟨rfl, hs⟩ := Text.splitOnce_eq_some_iff.mp hsplit
    have hdash : ¬ ('-' ∉ s ++ '-' :: t ∧ Text.parseU16 (s ++ '-' :: t) = .ok range.start ∧
        range.stop = range.start + 1) :=
      fun h => h.1 (List.mem_append_right s List.mem_cons_self)
    rw [or_iff_right hdash, visitStr_eq_some_ok_of_split hsplit]
    constructor
    · rintro ⟨hstart, hstop⟩
      exact ⟨s, t, rfl, hs, hstart, hstop⟩
    · -- the first `-` is the one `split_once` finds
      rintro ⟨s', t', hv, hs', hstart, hstop⟩
      rw [hv, Text.splitOnce_append hs', Option.some.injEq, Prod.mk.injEq] at hsplit
      obtain ⟨rfl, rfl⟩ := hsplit
      exact ⟨hstart, hstop⟩

/-- `visit_str` panics on the text of the port `65535` alone, and on no other. -/
theorem visitStr_eq_none_iff : PortRange.visitStr v = none ↔ '-' ∉ v ∧ Text.parseU16 v = .ok 65535 := by
  cases hsplit : Text.splitOnce '-' v with
  | none =>
    have hdash := Text.splitOnce_eq_none_iff.mp hsplit
    simp only [PortRange.visitStr, hsplit, and_iff_right hdash]
    cases Text.parseU16 v with
    | error e => simp
    | ok value =>
      dsimp only
      rw [checkedAdd_one, Except.ok.injEq]
      split_ifs with hmax <;> simp [hmax]
  | some p =>
    obtain ⟨s, t⟩ := p
    obtain ⟨rfl, -⟩ := Text.splitOnce_eq_some_iff.mp hsplit
    simp [PortRange.visitStr, hsplit]

/-- The text a range serializes to reads back as the range. -/
theorem visitStr_serialize (range : PortRange) :
    PortRange.visitStr range.serialize = some (.ok range) := by
  rw [visitStr_eq_some_ok_iff, PortRange.serialize]
  split_ifs with hone
  · -- one port
    exact Or.inl ⟨dash_not_mem_toDigits _, Text.parseU16_toDigits _, (stop_eq_iff range).mp hone⟩
  · exact Or.inr ⟨_, _, rfl, dash_not_mem_toDigits _, Text.parseU16_toDigits _,
      Text.parseU16_toDigits _⟩

end PortRange

/-! ## The port `65535` -/

theorem toSocketAddr_port {resolve : String → Except String IpAddr} {source : EndpointAddress}
    {address : SocketAddr} (h : source.toSocketAddr resolve = .ok address) :
    address.port = source.port := by
  have hport : ∀ ip, (SocketAddr.ofIpPort ip source.port).port = source.port := by
    intro ip
    cases ip <;> rfl
  unfold EndpointAddress.toSocketAddr at h
  split at h
  · cases h
    exact hport _
  next name _ =>
    cases hname : resolve name with
    | error e =>
      rw [hname] at h
      cases h
    | ok ip =>
      rw [hname] at h
      cases h
      exact hport ip

theorem Rule.contains_of_port_eq_max (rule : Rule) {address : SocketAddr}
    (h : address.port = 65535) : rule.contains address = false := by
  unfold Rule.contains
  split_ifs
  · simp [h, PortRange.contains_max]
  · rfl

/-- No list of rules lets a source of port `65535` through. -/
theorem checkRules_ne_ok_of_port_eq_max (resolve : String → Except String IpAddr)
    {source : EndpointAddress} (h : source.port = 65535) (rules : List Rule) :
    checkRules resolve source rules ≠ .ok () := by
  induction rules with
  | nil => simp [checkRules]
  | cons rule rules ih =>
    cases haddr : source.toSocketAddr resolve with
    | error e => simp [checkRules, haddr, Except.mapError, bind, Except.bind]
    | ok address =>
      have hcontains := rule.contains_of_port_eq_max ((toSocketAddr_port haddr).trans h)
      simpa [checkRules, haddr, Except.mapError, bind, Except.bind, hcontains] using ih

/-- `visit_str` and `Serialize` agree on every range, and every port but `65535` is the range of
itself. The text `65535` panics where `value + 1` overflows, and is refused as
`InvalidRange { min: 65535, max: 0 }` where it wraps; `From<u16>` panics on it; and as no range
contains the port `65535`, no rule matches it and the firewall lets nothing from it through. -/
theorem visitStr_misses_max_port :
    (∀ range : PortRange, PortRange.visitStr range.serialize = some (.ok range)) ∧
    (∀ (v : List Char) (range : PortRange), PortRange.visitStr v = some (.ok range) ↔
      ('-' ∉ v ∧ Text.parseU16 v = .ok range.start ∧ range.stop = range.start + 1) ∨
        ∃ s t, v = s ++ '-' :: t ∧ '-' ∉ s ∧ Text.parseU16 s = .ok range.start ∧
          Text.parseU16 t = .ok range.stop) ∧
    (∀ v : List Char, PortRange.visitStr v = none ↔ '-' ∉ v ∧ Text.parseU16 v = .ok 65535) ∧
    (∀ value : UInt16, value ≠ 65535 →
      ∃ range, PortRange.ofUInt16 value = some range ∧ range.contains value = true) ∧
    PortRange.visitStr ['6', '5', '5', '3', '5'] = none ∧ PortRange.ofUInt16 65535 = none ∧
    PortRange.new 65535 (65535 + 1) = .error (.invalidRange 65535 0) ∧
    (∀ range : PortRange, range.contains 65535 = false) ∧
    (∀ (resolve : String → Except String IpAddr) (rules : List Rule) (source : EndpointAddress),
      source.port = 65535 → checkRules resolve source rules ≠ .ok ()) := by
  refine ⟨PortRange.visitStr_serialize, fun v range => PortRange.visitStr_eq_some_ok_iff,
    fun v => PortRange.visitStr_eq_none_iff, ?_, rfl, rfl, rfl, PortRange.contains_max,
    fun resolve rules source h => checkRules_ne_ok_of_port_eq_max resolve h rules⟩
  intro value hmax
  obtain ⟨range, hrange, hstart, hstop⟩ := PortRange.ofUInt16_eq value hmax
  have hlt := range.start_lt
  rw [hstart] at hlt
  exact ⟨range, hrange, by simp [PortRange.contains, hstart, hlt]⟩

end Quilkin.Filters
