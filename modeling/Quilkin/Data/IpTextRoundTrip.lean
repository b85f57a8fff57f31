import Quilkin.Data.IpText
import Mathlib.Data.Nat.Digits.Defs

/-!
# The text of an ip address reads back

`FromStr for IpAddr` reads what `Display` writes (`IpAddr.fromStr_display`). The text is cut into
chunks, a number with the separator before it, and each reader is shown to consume its chunk and
leave the rest, when what follows cannot be read as part of it: no digit after a number, and no
`.` in the text of an ipv6 address that is not ipv4-mapped, so that no embedded ipv4 address is
found there.
-/

namespace Parser

open Text

variable {radix maxDigits : Nat}

/-! ## Numbers -/

theorem readDigits_of_stop {result digitCount : Nat} {rest : List Char}
    (hrest : ∀ c ∈ rest.head?, toDigit radix c = none) :
    readDigits radix maxDigits result digitCount rest = some (result, digitCount, rest) := by
  cases rest with
  | nil => rfl
  | cons c cs =>
    have hc : toDigit radix c = none := hrest c rfl
    simp [readDigits, hc]

/-- The digits of `n` are read as `n`, by the recursion of `Nat.toDigits`. -/
theorem readDigits_toDigits (hr : 1 < radix) (hr' : radix ≤ 16) (n : Nat) (rest : List Char)
    (result digitCount : Nat) (hlen : digitCount + (Nat.toDigits radix n).length ≤ maxDigits) :
    readDigits radix maxDigits result digitCount (Nat.toDigits radix n ++ rest) =
      readDigits radix maxDigits (result * radix ^ (Nat.toDigits radix n).length + n)
        (digitCount + (Nat.toDigits radix n).length) rest := by
  induction n using Nat.strong_induction_on generalizing result digitCount rest with
  | _ n ih =>
    rw [Nat.toDigits_eq_if hr] at hlen ⊢
    split_ifs at hlen ⊢ with hlt
    · -- one digit
      rw [List.length_singleton] at hlen ⊢
      rw [List.singleton_append, readDigits, toDigit_digitChar hlt hr']
      dsimp only
      rw [if_neg (by omega), pow_one]
    · have hdiv : n / radix < n := Nat.div_lt_self (by omega) hr
      have hmod : n % radix < radix := Nat.mod_lt n (by omega)
      have hval : n / radix * radix + n % radix = n := Nat.div_add_mod' n radix
      rw [List.length_append, List.length_singleton] at hlen ⊢
      rw [List.append_assoc, ih (n / radix) hdiv _ _ _ (by omega), List.singleton_append,
        readDigits, toDigit_digitChar hmod hr']
      dsimp only
      rw [if_neg (by omega), add_mul, mul_assoc, ← pow_succ, add_assoc, hval, Nat.add_assoc]

theorem digitChar_eq_zero {d : Nat} (hd : d < 16) (h : d.digitChar = '0') : d = 0 := by
  -- the character `0` is read back as the digit `d` and as `0`
  have hdigit : toDigit 16 d.digitChar = some d := toDigit_digitChar hd (Nat.le_refl 16)
  have hzero : toDigit 16 '0' = some 0 := rfl
  rw [h, hzero] at hdigit
  exact (Option.some.inj hdigit).symm

/-- The digits of a number start with `0` only when the number is `0`. -/
theorem eq_zero_of_toDigits_head (hr : 1 < radix) (hr' : radix ≤ 16) {n : Nat}
    (h : (Nat.toDigits radix n).head? = some '0') : n = 0 := by
  induction n using Nat.strong_induction_on with
  | _ n ih =>
    rw [Nat.toDigits_eq_if hr] at h
    split_ifs at h with hlt
    · exact digitChar_eq_zero (by omega) (Option.some.inj h)
    · rw [List.head?_append_of_ne_nil _ Nat.toDigits_ne_nil] at h
      have hzero := ih (n / radix) (Nat.div_lt_self (by omega) hr) h
      have hle : radix ≤ n := Nat.le_of_not_lt hlt
      have hpos : 0 < n / radix := Nat.div_pos hle (by omega)
      omega

/-- `read_number` reads the digits of a number that fits, followed by no digit. -/
theorem readNumber_toDigits {allowZeroPrefix : Bool} {bound n : Nat} {rest : List Char}
    (hr : 1 < radix) (hr' : radix ≤ 16) (hlen : (Nat.toDigits radix n).length ≤ maxDigits)
    (hn : n < bound) (hrest : ∀ c ∈ rest.head?, toDigit radix c = none) :
    readNumber radix maxDigits allowZeroPrefix bound (Nat.toDigits radix n ++ rest) =
      some (n, rest) := by
  have hpos : 0 < (Nat.toDigits radix n).length := List.length_pos_of_ne_nil Nat.toDigits_ne_nil
  -- a leading `0` is the number `0`, of one digit
  have hzero : ¬ ((Nat.toDigits radix n ++ rest).head? = some '0' ∧
      1 < (Nat.toDigits radix n).length) := by
    rintro ⟨hhead, hlen1⟩
    rw [List.head?_append_of_ne_nil _ Nat.toDigits_ne_nil] at hhead
    have hn0 := eq_zero_of_toDigits_head hr hr' hhead
    subst hn0
    rw [Nat.toDigits_eq_if hr, if_pos (by omega), List.length_singleton] at hlen1
    omega
  unfold readNumber
  rw [readDigits_toDigits hr hr' n rest 0 0 (by omega), readDigits_of_stop hrest]
  simp only [Nat.zero_mul, Nat.zero_add]
  -- the bound holds, and `split_ifs` discharges its test with `hn`
  split_ifs with h0 hlead
  · omega
  · simp only [Bool.and_eq_true, Bool.not_eq_true', beq_iff_eq, decide_eq_true_eq] at hlead
    exact absurd ⟨hlead.1.2, hlead.2⟩ hzero
  · rfl

theorem readDigits_isSuffix {result digitCount value count : Nat} {s rest : List Char}
    (h : readDigits radix maxDigits result digitCount s = some (value, count, rest)) :
    rest <:+ s := by
  induction s generalizing result digitCount with
  | nil =>
    cases h
    exact List.suffix_refl []
  | cons c cs ih =>
    rw [readDigits] at h
    cases hc : toDigit radix c with
    | none =>
      rw [hc] at h
      cases h
      exact List.suffix_refl _
    | some digit =>
      rw [hc] at h
      dsimp only at h
      split_ifs at h
      exact (ih h).trans (List.suffix_cons c cs)

theorem readNumber_isSuffix {allowZeroPrefix : Bool} {bound value : Nat} {s rest : List Char}
    (h : readNumber radix maxDigits allowZeroPrefix bound s = some (value, rest)) : rest <:+ s := by
  unfold readNumber at h
  cases hdigits : readDigits radix maxDigits 0 0 s with
  | none =>
    rw [hdigits] at h
    cases h
  | some r =>
    obtain ⟨result, digitCount, s'⟩ := r
    rw [hdigits] at h
    dsimp only at h
    split_ifs at h
    cases h
    exact readDigits_isSuffix hdigits

/-- No number is read where no digit is. -/
theorem readNumber_of_stop {allowZeroPrefix : Bool} {bound : Nat} {s : List Char}
    (h : ∀ c ∈ s.head?, toDigit radix c = none) :
    readNumber radix maxDigits allowZeroPrefix bound s = none := by
  unfold readNumber
  rw [readDigits_of_stop h]
  rfl

theorem readGivenChar_cons (c : Char) (s : List Char) : readGivenChar c (c :: s) = some s :=
  stripPrefix_cons c s

theorem readGivenChar_of_not_mem {c : Char} {s : List Char} (h : c ∉ s) : readGivenChar c s = none := by
  cases s with
  | nil => rfl
  | cons d s =>
    have hd : d ≠ c := fun hd => h (hd ▸ List.mem_cons_self)
    exact stripPrefix_eq_none hd s

/-- The separator is not read before the first group. -/
theorem readSeparator_zero {α : Type} (sep : Char) (inner : List Char → Option (α × List Char))
    (s : List Char) : readSeparator sep 0 inner s = inner s := rfl

theorem readSeparator_cons {α : Type} (sep : Char) (i : Nat)
    (inner : List Char → Option (α × List Char)) (s : List Char) :
    readSeparator sep (i + 1) inner (sep :: s) = inner s := by
  simp [readSeparator, readGivenChar_cons]

/-- A group after the first is not read from a text without its separator. -/
theorem readSeparator_of_not_mem {α : Type} {sep : Char} {i : Nat}
    {inner : List Char → Option (α × List Char)} {s : List Char} (h : sep ∉ s) :
    readSeparator sep (i + 1) inner s = none := by
  rw [readSeparator, if_pos (Nat.succ_pos i), readGivenChar_of_not_mem h]
  rfl

/-! ## Ipv4 addresses -/

/-- What follows a group of an address: a separator, or nothing. -/
theorem toDigit_dot (radix : Nat) : toDigit radix '.' = none := by
  unfold toDigit
  simp

theorem toDigit_colon (radix : Nat) : toDigit radix ':' = none := by
  unfold toDigit
  simp

theorem readNumber_octet (x : UInt8) {rest : List Char}
    (hrest : ∀ c ∈ rest.head?, toDigit 10 c = none) :
    readNumber 10 3 false 256 (Nat.toDigits 10 x.toNat ++ rest) = some (x.toNat, rest) :=
  readNumber_toDigits (by decide) (by decide)
    (Nat.toDigits_length 10 x.toNat 3 (by decide) (by have := x.toNat_lt; omega)) x.toNat_lt hrest

/-- One group of `read_ipv4_addr`: the groups after it are read from the text it leaves. -/
theorem readIpv4Groups_of_some {n i group : Nat} {s s' : List Char}
    (h : readSeparator '.' i (readNumber 10 3 false 256) s = some (group, s')) :
    readIpv4Groups (n + 1) i s =
      (readIpv4Groups n (i + 1) s').map fun r => (group.toUInt8 :: r.1, r.2) := by
  rw [readIpv4Groups, h]
  simp only [Option.bind_eq_bind, Option.bind_some]
  cases readIpv4Groups n (i + 1) s' <;> rfl

theorem readIpv4Groups_of_none {n i : Nat} {s : List Char}
    (h : readSeparator '.' i (readNumber 10 3 false 256) s = none) :
    readIpv4Groups (n + 1) i s = none := by
  rw [readIpv4Groups, h]
  rfl

/-- `read_ipv4_addr` reads the text of an address, followed by no digit. -/
theorem readIpv4Addr_display (ip : Ipv4Addr) {rest : List Char}
    (hrest : ∀ c ∈ rest.head?, toDigit 10 c = none) :
    readIpv4Addr (ip.display ++ rest) = some (ip, rest) := by
  have hdot : ∀ l : List Char, ∀ c ∈ ('.' :: l).head?, toDigit 10 c = none := by
    intro l c hc
    cases hc
    exact toDigit_dot 10
  simp only [Ipv4Addr.display, List.append_assoc, List.cons_append]
  -- the four groups, each followed by a `.` but the last
  rw [readIpv4Addr,
    readIpv4Groups_of_some (by rw [readSeparator_zero]; exact readNumber_octet _ (hdot _)),
    readIpv4Groups_of_some (by rw [readSeparator_cons]; exact readNumber_octet _ (hdot _)),
    readIpv4Groups_of_some (by rw [readSeparator_cons]; exact readNumber_octet _ (hdot _)),
    readIpv4Groups_of_some (by rw [readSeparator_cons]; exact readNumber_octet _ hrest)]
  simp only [readIpv4Groups, Option.map_some, UInt8.ofNat_toNat, Option.bind_eq_bind,
    Option.bind_some]

/-- No ipv4 address is read where no digit is. -/
theorem readIpv4Addr_of_stop {s : List Char} (h : ∀ c ∈ s.head?, toDigit 10 c = none) :
    readIpv4Addr s = none := by
  rw [readIpv4Addr, readIpv4Groups_of_none (by rw [readSeparator_zero]; exact readNumber_of_stop h)]
  rfl

/-- No ipv4 address is read from a text without a `.`. -/
theorem readIpv4Addr_of_not_mem {s : List Char} (h : '.' ∉ s) : readIpv4Addr s = none := by
  cases hfirst : readNumber 10 3 false 256 s with
  | none =>
    rw [readIpv4Addr, readIpv4Groups_of_none (by rw [readSeparator_zero]; exact hfirst)]
    rfl
  | some r =>
    obtain ⟨group, s'⟩ := r
    -- the first group is read, and no `.` is left for the second
    have hs' : '.' ∉ s' := fun hmem => h ((readNumber_isSuffix hfirst).subset hmem)
    rw [readIpv4Addr, readIpv4Groups_of_some (by rw [readSeparator_zero]; exact hfirst),
      readIpv4Groups_of_none (readSeparator_of_not_mem hs')]
    rfl

end Parser

/-! ## Segments -/

namespace Ipv6Addr

theorem flatMap_toSegments : ∀ {octets : List UInt8}, octets.length % 2 = 0 →
    (toSegments octets).flatMap UInt16.toBeBytes = octets
  | [], _ => rfl
  | [_], h => by simp at h
  | a :: b :: octets, h => by
    have hrest : octets.length % 2 = 0 := by
      rw [List.length_cons, List.length_cons] at h
      omega
    rw [toSegments, List.flatMap_cons, UInt16.toBeBytes_fromBeBytes rfl, flatMap_toSegments hrest]
    rfl

theorem length_toSegments : ∀ octets : List UInt8, (toSegments octets).length = octets.length / 2
  | [] => rfl
  | [_] => by simp [toSegments]
  | a :: b :: octets => by
    rw [toSegments, List.length_cons, length_toSegments octets, List.length_cons, List.length_cons]
    omega

theorem length_segments (ip : Ipv6Addr) : ip.segments.length = 8 := by
  rw [segments, length_toSegments, Vector.length_toList]

/-- The address of the segments whose bytes are the address's octets. -/
theorem ofSegments_eq {segments : List UInt16} {ip : Ipv6Addr}
    (h : segments.flatMap UInt16.toBeBytes = ip.octets.toList) : ofSegments segments = ip := by
  obtain ⟨octets⟩ := ip
  -- the octets are read back by index from their list
  have hoctets : Vector.ofFn (fun i : Fin 16 => octets.toList.getD i 0) = octets := by
    ext i hi
    rw [Vector.getElem_ofFn, List.getD_eq_getElem?_getD, List.getElem?_eq_getElem (by simpa using hi),
      Option.getD_some, Vector.getElem_toList]
  rw [ofSegments, h, hoctets]

theorem ofSegments_segments (ip : Ipv6Addr) : ofSegments ip.segments = ip :=
  ofSegments_eq (flatMap_toSegments (by simp))

/-- The segments of an ipv4-mapped address: five zeros, `ffff`, and the ipv4 address. -/
theorem ofSegments_mapped {ip : Ipv6Addr} {ipv4 : Ipv4Addr} (h : ip.toIpv4Mapped = some ipv4) :
    ofSegments (List.replicate 5 0 ++
      [65535, UInt16.fromBeBytes [ipv4.a, ipv4.b], UInt16.fromBeBytes [ipv4.c, ipv4.d]]) = ip := by
  have hzero : UInt16.toBeBytes 0 = [0, 0] := by decide
  have hffff : UInt16.toBeBytes 65535 = [255, 255] := by decide
  apply ofSegments_eq
  unfold toIpv4Mapped at h
  split at h
  next a b c d hoctets =>
    cases h
    rw [hoctets]
    simp [UInt16.toBeBytes_fromBeBytes, hzero, hffff]
  next => cases h

/-- A run of zero segments. -/
def Span.IsZeros (segments : List UInt16) (span : Span) : Prop :=
  span.start + span.len ≤ segments.length ∧
    (segments.drop span.start).take span.len = List.replicate span.len 0

/-- The segments around a run of zeros. -/
theorem Span.IsZeros.eq {segments : List UInt16} {span : Span} (h : span.IsZeros segments) :
    segments = segments.take span.start ++ List.replicate span.len 0 ++
      segments.drop (span.start + span.len) := by
  rw [List.append_assoc, ← h.2, ← List.drop_drop, List.take_append_drop, List.take_append_drop]

/-- The one step of the loop: a zero segment at `i` extends the current run to `i + 1`. -/
theorem Span.IsZeros.extend {segments : List UInt16} {current : Span} {i : Nat} {rest : List UInt16}
    (hdrop : segments.drop i = 0 :: rest)
    (hcurrent : current.len = 0 ∨ (current.start + current.len = i ∧ current.IsZeros segments)) :
    (⟨if current.len = 0 then i else current.start, current.len + 1⟩ : Span).IsZeros segments ∧
      (if current.len = 0 then i else current.start) + (current.len + 1) = i + 1 := by
  have hi : i < segments.length := by
    have hlen := congrArg List.length hdrop
    rw [List.length_drop, List.length_cons] at hlen
    omega
  have hget : segments[i]? = some 0 := by
    rw [← Nat.add_zero i, ← List.getElem?_drop, hdrop]
    rfl
  by_cases h0 : current.len = 0
  · rw [if_pos h0, h0]
    refine ⟨⟨by dsimp only; omega, ?_⟩, rfl⟩
    rw [hdrop]
    rfl
  · obtain ⟨hend, hlen, hzeros⟩ := hcurrent.resolve_left h0
    rw [if_neg h0]
    refine ⟨⟨by dsimp only; omega, ?_⟩, by omega⟩
    rw [List.take_add_one, hzeros, List.getElem?_drop, hend, hget, List.replicate_succ']
    rfl

/-- The loop keeps the longest run a run of zeros, and the current one a run of zeros that ends at
the next segment. -/
theorem isZeros_longestZeroSpan {segments : List UInt16} :
    ∀ (rest : List UInt16) (longest current : Span) (i : Nat), segments.drop i = rest →
      longest.IsZeros segments →
      (current.len = 0 ∨ (current.start + current.len = i ∧ current.IsZeros segments)) →
      (longestZeroSpan longest current i rest).IsZeros segments
  | [], _, _, _, _, hlongest, _ => hlongest
  | segment :: rest, longest, current, i, hdrop, hlongest, hcurrent => by
    have hdrop' : segments.drop (i + 1) = rest := by
      rw [← List.drop_drop, hdrop]
      rfl
    by_cases hzero : segment = 0
    · subst hzero
      obtain ⟨hz, hend⟩ := Span.IsZeros.extend hdrop hcurrent
      rw [longestZeroSpan, if_pos rfl]
      dsimp only
      apply isZeros_longestZeroSpan rest _ _ (i + 1) hdrop' _ (Or.inr ⟨hend, hz⟩)
      -- the longest run is the new one or the old one
      by_cases hgt : current.len + 1 > longest.len
      · rw [if_pos hgt]
        exact hz
      · rw [if_neg hgt]
        exact hlongest
    · rw [longestZeroSpan, if_neg hzero]
      exact isZeros_longestZeroSpan rest _ _ (i + 1) hdrop' hlongest (Or.inl rfl)

theorem isZeros_zeroes (ip : Ipv6Addr) :
    (longestZeroSpan ⟨0, 0⟩ ⟨0, 0⟩ 0 ip.segments).IsZeros ip.segments :=
  isZeros_longestZeroSpan _ _ _ 0 rfl ⟨by simp, rfl⟩ (Or.inl rfl)

end Ipv6Addr

/-! ## Groups of an ipv6 address -/

namespace Parser

open Text

variable {limit : Nat}

/-- The text of a group: its hex digits, with the separator before it. -/
abbrev groupText (g : UInt16) : List Char := ':' :: Nat.toDigits 16 g.toNat

theorem readNumber_segment (x : UInt16) {rest : List Char}
    (hrest : ∀ c ∈ rest.head?, toDigit 16 c = none) :
    readNumber 16 4 true 65536 (Nat.toDigits 16 x.toNat ++ rest) = some (x.toNat, rest) :=
  readNumber_toDigits (by decide) (Nat.le_refl 16)
    (Nat.toDigits_length 16 x.toNat 4 (by decide) (by have := x.toNat_lt; omega)) x.toNat_lt hrest

theorem dot_not_mem_toDigits (n : Nat) : '.' ∉ Nat.toDigits 16 n :=
  not_mem_toDigits (by decide) (Nat.le_refl 16) (toDigit_dot 16)

theorem dot_not_mem_flatMap (gs : List UInt16) : '.' ∉ gs.flatMap groupText := by
  rw [List.mem_flatMap]
  rintro ⟨g, -, hmem⟩
  rcases List.mem_cons.mp hmem with hdot | hdot
  · cases hdot
  · exact dot_not_mem_toDigits _ hdot

theorem dot_not_mem_fmtSubslice (segments : List UInt16) :
    '.' ∉ Ipv6Addr.fmtSubslice segments := by
  cases segments with
  | nil => exact List.not_mem_nil
  | cons g gs =>
    rw [Ipv6Addr.fmtSubslice, List.mem_append, not_or]
    exact ⟨dot_not_mem_toDigits _, dot_not_mem_flatMap gs⟩

/-- After the groups, the text holds no digit: a separator or nothing. -/
theorem stop_flatMap_append (gs : List UInt16) {rest : List Char}
    (hrest : ∀ c ∈ rest.head?, toDigit 16 c = none) :
    ∀ c ∈ (gs.flatMap groupText ++ rest).head?, toDigit 16 c = none := by
  cases gs with
  | nil => exact hrest
  | cons g gs =>
    intro c hc
    cases hc
    exact toDigit_colon 16

/-- A slot is not read where neither the text nor the text after a separator can be. -/
theorem readSeparator_colon_eq_none {α : Type} {inner : List Char → Option (α × List Char)}
    {s : List Char} (i : Nat) (h : inner s = none) (h' : ∀ s', s = ':' :: s' → inner s' = none) :
    readSeparator ':' i inner s = none := by
  unfold readSeparator
  split_ifs
  · cases s with
    | nil => rfl
    | cons c s' =>
      by_cases hc : c = ':'
      · subst hc
        rw [readGivenChar_cons, Option.bind_some]
        exact h' s' rfl
      · rw [readGivenChar, stripPrefix_eq_none hc, Option.bind_none]
  · exact h

/-- `read_groups` stops at a slot where it reads neither an ipv4 address nor a group. -/
theorem readGroups_of_none {n i : Nat} {s : List Char}
    (h4 : readSeparator ':' i readIpv4Addr s = none)
    (h16 : readSeparator ':' i (readNumber 16 4 true 65536) s = none) :
    readGroups limit (n + 1) i s = ([], false, s) := by
  simp only [readGroups, h4, h16, ite_self]

/-- `read_groups` reads a group at a slot where it reads no ipv4 address. -/
theorem readGroups_of_some {n i group : Nat} {s s' : List Char}
    (h4 : readSeparator ':' i readIpv4Addr s = none)
    (h16 : readSeparator ':' i (readNumber 16 4 true 65536) s = some (group, s')) :
    readGroups limit (n + 1) i s =
      (group.toUInt16 :: (readGroups limit n (i + 1) s').1, (readGroups limit n (i + 1) s').2) := by
  simp only [readGroups, h4, h16, ite_self]

/-- Nothing is read where no digit is, neither here nor after a separator. -/
theorem readGroups_of_stop {n i : Nat} {s : List Char}
    (h : ∀ c ∈ s.head?, ∀ radix, toDigit radix c = none)
    (h' : ∀ s', s = ':' :: s' → ∀ c ∈ s'.head?, ∀ radix, toDigit radix c = none) :
    readGroups limit n i s = ([], false, s) := by
  cases n with
  | zero => rfl
  | succ n =>
    exact readGroups_of_none
      (readSeparator_colon_eq_none i (readIpv4Addr_of_stop fun c hc => h c hc 10)
        fun s' hs' => readIpv4Addr_of_stop fun c hc => h' s' hs' c hc 10)
      (readSeparator_colon_eq_none i (readNumber_of_stop fun c hc => h c hc 16)
        fun s' hs' => readNumber_of_stop fun c hc => h' s' hs' c hc 16)

/-- Nothing is read at the end of the text. -/
theorem readGroups_nil (n i : Nat) : readGroups limit n i [] = ([], false, []) :=
  readGroups_of_stop (fun c hc => by cases hc) fun _ h => by cases h

/-- Nothing is read at a `::`. -/
theorem readGroups_colon_colon (n i : Nat) (tail : List Char) :
    readGroups limit n i (':' :: ':' :: tail) = ([], false, ':' :: ':' :: tail) := by
  have hcolon : ∀ (l : List Char), ∀ c ∈ (':' :: l).head?, ∀ radix, toDigit radix c = none := by
    intro l c hc radix
    cases hc
    exact toDigit_colon radix
  apply readGroups_of_stop (hcolon _)
  intro s' hs'
  cases hs'
  exact hcolon tail

/-- A group followed by the text of more groups is read as a group, not as an ipv4 address, when
the text holds no `.`. -/
theorem readGroups_of_digits {n i : Nat} {s : List Char} (g : UInt16) (gs : List UInt16)
    {rest : List Char} (hdot : '.' ∉ rest) (hrest : ∀ c ∈ rest.head?, toDigit 16 c = none)
    (hs : ∀ {α : Type} (inner : List Char → Option (α × List Char)),
      readSeparator ':' i inner s = inner (Nat.toDigits 16 g.toNat ++ (gs.flatMap groupText ++ rest))) :
    readGroups limit (n + 1) i s =
      (g :: (readGroups limit n (i + 1) (gs.flatMap groupText ++ rest)).1,
        (readGroups limit n (i + 1) (gs.flatMap groupText ++ rest)).2) := by
  have htext : '.' ∉ Nat.toDigits 16 g.toNat ++ (gs.flatMap groupText ++ rest) := by
    rw [List.mem_append, List.mem_append, not_or, not_or]
    exact ⟨dot_not_mem_toDigits _, dot_not_mem_flatMap gs, hdot⟩
  have h4 : readSeparator ':' i readIpv4Addr s = none := by
    rw [hs]
    exact readIpv4Addr_of_not_mem htext
  have h16 : readSeparator ':' i (readNumber 16 4 true 65536) s =
      some (g.toNat, gs.flatMap groupText ++ rest) := by
    rw [hs]
    exact readNumber_segment g (stop_flatMap_append gs hrest)
  have hg : g.toNat.toUInt16 = g := UInt16.ofNat_toNat
  rw [readGroups_of_some h4 h16, hg]

/-- The groups after the first, each after its separator, are read one to a slot, when the text
holds no `.`. -/
theorem readGroups_flatMap (gs : List UInt16) {rest : List Char} (hdot : '.' ∉ rest)
    (hrest : ∀ c ∈ rest.head?, toDigit 16 c = none) :
    ∀ {n i : Nat}, 0 < i → gs.length ≤ n →
      readGroups limit n i (gs.flatMap groupText ++ rest) =
        (gs ++ (readGroups limit (n - gs.length) (i + gs.length) rest).1,
          (readGroups limit (n - gs.length) (i + gs.length) rest).2) := by
  induction gs with
  | nil =>
    intro n i _ _
    rfl
  | cons g gs ih =>
    intro n i hi hlen
    obtain ⟨n, rfl⟩ : ∃ m, n = m + 1 := ⟨n - 1, by rw [List.length_cons] at hlen; omega⟩
    obtain ⟨i, rfl⟩ : ∃ j, i = j + 1 := ⟨i - 1, by omega⟩
    have hn : n + 1 - (gs.length + 1) = n - gs.length := by omega
    have hi' : i + 1 + (gs.length + 1) = i + 1 + 1 + gs.length := by omega
    rw [List.flatMap_cons, List.append_assoc, groupText, List.cons_append,
      readGroups_of_digits g gs hdot hrest fun inner => readSeparator_cons ':' i inner _,
      ih (by omega) (by rw [List.length_cons] at hlen; omega), List.length_cons, hn, hi']
    rfl

theorem fmtSubslice_cons (g : UInt16) (gs : List UInt16) :
    Ipv6Addr.fmtSubslice (g :: gs) = Nat.toDigits 16 g.toNat ++ gs.flatMap groupText := rfl

/-- The groups of `fmt_subslice` are read one to a slot from the first, when the text holds no
`.`. -/
theorem readGroups_fmtSubslice (segments : List UInt16) {rest : List Char} (hdot : '.' ∉ rest)
    (hrest : ∀ c ∈ rest.head?, toDigit 16 c = none) {n : Nat} (hlen : segments.length ≤ n) :
    readGroups limit n 0 (Ipv6Addr.fmtSubslice segments ++ rest) =
      (segments ++ (readGroups limit (n - segments.length) segments.length rest).1,
        (readGroups limit (n - segments.length) segments.length rest).2) := by
  cases segments with
  | nil => rfl
  | cons g gs =>
    obtain ⟨n, rfl⟩ : ∃ m, n = m + 1 := ⟨n - 1, by rw [List.length_cons] at hlen; omega⟩
    have hn : n + 1 - (gs.length + 1) = n - gs.length := by omega
    have hi : 0 + 1 + gs.length = gs.length + 1 := by omega
    rw [fmtSubslice_cons, List.append_assoc,
      readGroups_of_digits g gs hdot hrest fun inner => readSeparator_zero ':' inner _,
      readGroups_flatMap gs hdot hrest (by omega) (by rw [List.length_cons] at hlen; omega),
      List.length_cons, hn, hi]
    rfl

/-- An address without `::`: the eight groups fill the head. -/
theorem readIpv6Addr_fmtSubslice {segments : List UInt16} (hlen : segments.length = 8) :
    readIpv6Addr (Ipv6Addr.fmtSubslice segments) = some (Ipv6Addr.ofSegments segments, []) := by
  have hgroups := @readGroups_fmtSubslice 8 segments [] List.not_mem_nil
    (fun c hc => by cases hc) 8 (Nat.le_of_eq hlen)
  rw [List.append_nil, hlen, Nat.sub_self, readGroups_nil] at hgroups
  unfold readIpv6Addr
  rw [hgroups]
  dsimp only
  rw [List.append_nil, if_pos hlen]

/-- An address with `::`: the head, the `::`, and the tail, whose groups leave at least one zero
segment between them. -/
theorem readIpv6Addr_compressed {head tail : List UInt16} (hlen : head.length + tail.length ≤ 6) :
    readIpv6Addr (Ipv6Addr.fmtSubslice head ++ ':' :: ':' :: Ipv6Addr.fmtSubslice tail) =
      some (Ipv6Addr.ofSegments (head ++ List.replicate (8 - head.length - tail.length) 0 ++ tail),
        []) := by
  have hcolon : '.' ∉ ':' :: ':' :: Ipv6Addr.fmtSubslice tail := by
    rw [List.mem_cons, List.mem_cons, not_or, not_or]
    exact ⟨by decide, by decide, dot_not_mem_fmtSubslice tail⟩
  have hhead := @readGroups_fmtSubslice 8 head _ hcolon
    (fun c hc => by cases hc; exact toDigit_colon 16) 8 (by omega)
  rw [readGroups_colon_colon, List.append_nil] at hhead
  have htail := @readGroups_fmtSubslice (8 - (head.length + 1)) tail [] List.not_mem_nil
    (fun c hc => by cases hc) (8 - (head.length + 1)) (by omega)
  rw [readGroups_nil, List.append_nil, List.append_nil] at htail
  unfold readIpv6Addr
  rw [hhead]
  dsimp only
  rw [if_neg (by omega), if_neg Bool.false_ne_true]
  simp only [Option.bind_eq_bind, readGivenChar_cons, Option.bind_some]
  rw [htail]

/-- An ipv4-mapped address: no group before the `::`, then `ffff` and the embedded ipv4 address. -/
theorem readIpv6Addr_mapped (ipv4 : Ipv4Addr) :
    readIpv6Addr ([':', ':', 'f', 'f', 'f', 'f', ':'] ++ ipv4.display) =
      some (Ipv6Addr.ofSegments (List.replicate 5 0 ++
        [65535, UInt16.fromBeBytes [ipv4.a, ipv4.b], UInt16.fromBeBytes [ipv4.c, ipv4.d]]), []) := by
  have hcolon : ∀ (radix : Nat) (l : List Char), ∀ c ∈ (':' :: l).head?, toDigit radix c = none := by
    intro radix l c hc
    cases hc
    exact toDigit_colon radix
  -- `ffff` is read as a group, not as the start of an ipv4 address
  have h4 : readSeparator ':' 0 readIpv4Addr
      (Nat.toDigits 16 (65535 : UInt16).toNat ++ ':' :: ipv4.display) = none :=
    readIpv4Addr_of_stop fun c hc => by
      cases hc
      decide
  have h16 : readSeparator ':' 0 (readNumber 16 4 true 65536)
      (Nat.toDigits 16 (65535 : UInt16).toNat ++ ':' :: ipv4.display) =
        some ((65535 : UInt16).toNat, ':' :: ipv4.display) :=
    readNumber_segment 65535 (hcolon 16 _)
  have hipv4 : readSeparator ':' 1 readIpv4Addr (':' :: ipv4.display) = some (ipv4, []) := by
    rw [readSeparator_cons]
    have h : readIpv4Addr (ipv4.display ++ []) = some (ipv4, []) :=
      readIpv4Addr_display ipv4 fun c hc => by cases hc
    simpa using h
  have htail : readGroups 7 7 0 (Nat.toDigits 16 (65535 : UInt16).toNat ++ ':' :: ipv4.display) =
      ([65535, UInt16.fromBeBytes [ipv4.a, ipv4.b], UInt16.fromBeBytes [ipv4.c, ipv4.d]], true,
        []) := by
    rw [readGroups_of_some h4 h16]
    simp [readGroups, hipv4]
  have hffff : Nat.toDigits 16 (65535 : UInt16).toNat = ['f', 'f', 'f', 'f'] := by decide
  rw [hffff] at htail
  simp only [List.cons_append, List.nil_append] at htail
  unfold readIpv6Addr
  simp only [List.cons_append, List.nil_append]
  rw [readGroups_colon_colon]
  dsimp only
  rw [if_neg (by decide), if_neg Bool.false_ne_true]
  simp only [Option.bind_eq_bind, readGivenChar_cons, Option.bind_some, List.length_nil, htail]
  rfl

theorem readIpv6Addr_display (ip : Ipv6Addr) : readIpv6Addr ip.display = some (ip, []) := by
  unfold Ipv6Addr.display
  cases hm : ip.toIpv4Mapped with
  | some ipv4 =>
    dsimp only
    rw [readIpv6Addr_mapped, Ipv6Addr.ofSegments_mapped hm]
  | none =>
    dsimp only
    have hseg := Ipv6Addr.length_segments ip
    have hz := Ipv6Addr.isZeros_zeroes ip
    generalize Ipv6Addr.longestZeroSpan ⟨0, 0⟩ ⟨0, 0⟩ 0 ip.segments = zeroes at hz ⊢
    split_ifs with hlong
    · -- the run of zeros is written `::`
      have hend := hz.1
      rw [hseg] at hend
      have hhead : (ip.segments.take zeroes.start).length = zeroes.start := by
        rw [List.length_take, hseg]
        omega
      have htail : (ip.segments.drop (zeroes.start + zeroes.len)).length =
          8 - (zeroes.start + zeroes.len) := by
        rw [List.length_drop, hseg]
      have hlen : 8 - (ip.segments.take zeroes.start).length -
          (ip.segments.drop (zeroes.start + zeroes.len)).length = zeroes.len := by
        omega
      rw [readIpv6Addr_compressed (by omega), hlen, ← hz.eq, Ipv6Addr.ofSegments_segments]
    · rw [readIpv6Addr_fmtSubslice hseg, Ipv6Addr.ofSegments_segments]

/-- No ipv4 address is read from the text of an ipv6 address. -/
theorem readIpv4Addr_display_v6 (ip : Ipv6Addr) : readIpv4Addr ip.display = none := by
  unfold Ipv6Addr.display
  cases ip.toIpv4Mapped with
  | some ipv4 =>
    exact readIpv4Addr_of_stop fun c hc => by
      cases hc
      exact toDigit_colon 10
  | none =>
    dsimp only
    split_ifs
    · apply readIpv4Addr_of_not_mem
      rw [List.mem_append, List.mem_cons, List.mem_cons, not_or, not_or, not_or]
      exact ⟨dot_not_mem_fmtSubslice _, by decide, by decide, dot_not_mem_fmtSubslice _⟩
    · exact readIpv4Addr_of_not_mem (dot_not_mem_fmtSubslice _)

end Parser

/-- `FromStr for IpAddr` reads what `Display` writes. -/
theorem IpAddr.fromStr_display (ip : IpAddr) : IpAddr.fromStr ip.display = .ok ip := by
  cases ip with
  | v4 ip =>
    have h : Parser.readIpv4Addr (ip.display ++ []) = some (ip, []) :=
      Parser.readIpv4Addr_display ip fun c hc => by cases hc
    rw [List.append_nil] at h
    simp [IpAddr.fromStr, Parser.parseWith, Parser.readIpAddr, IpAddr.display, h]
  | v6 ip =>
    simp [IpAddr.fromStr, Parser.parseWith, Parser.readIpAddr, IpAddr.display,
      Parser.readIpv4Addr_display_v6, Parser.readIpv6Addr_display]
