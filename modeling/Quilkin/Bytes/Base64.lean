import Mathlib.Data.List.Basic
import Mathlib.Data.Option.Basic

/-!
# Base64 without padding

The standard base64 of RFC 4648 (alphabet `A`–`Z`, `a`–`z`, `0`–`9`, `+`, `/`) with the padding
`=` left out: three bytes become four symbols, and a final group of one or two bytes becomes two
or three symbols whose unused low bits are zero. Decoding is strict, as in the `data_encoding`
crate's `BASE64_NOPAD`: a length of `1 mod 4`, a character outside the alphabet, or nonzero
unused bits is an error (`none`). The `base64` crate's standard engine writes the same symbols and
pads them with `=` to a whole number of groups (`encodePadded`).

The one law this development needs is that decoding an encoding gives the bytes back
(`decode_encode`). It rests on two facts: the alphabet is a bijection between `0..64` and its
characters (`value_symbol`), and the bit arithmetic of each group inverts (proved by `omega`).
-/

namespace Base64

/-- The symbol for a six-bit value. -/
def symbol (n : Nat) : Char :=
  if n < 26 then Char.ofNat (65 + n)
  else if n < 52 then Char.ofNat (97 + (n - 26))
  else if n < 62 then Char.ofNat (48 + (n - 52))
  else if n = 62 then '+' else '/'

/-- The six-bit value of a symbol, `none` outside the alphabet. -/
def value (c : Char) : Option Nat :=
  if 'A' ≤ c ∧ c ≤ 'Z' then some (c.toNat - 65)
  else if 'a' ≤ c ∧ c ≤ 'z' then some (c.toNat - 97 + 26)
  else if '0' ≤ c ∧ c ≤ '9' then some (c.toNat - 48 + 52)
  else if c = '+' then some 62
  else if c = '/' then some 63
  else none

theorem value_symbol_fin : ∀ n : Fin 64, value (symbol n) = some n := by
  decide

theorem value_symbol {n : Nat} (h : n < 64) : value (symbol n) = some n :=
  value_symbol_fin ⟨n, h⟩

/-- Encoding, three bytes at a time. -/
def encode : List UInt8 → List Char
  | [] => []
  | [a] => [symbol (a.toNat / 4), symbol (a.toNat % 4 * 16)]
  | [a, b] =>
    let n := a.toNat * 256 + b.toNat
    [symbol (n / 1024), symbol (n / 16 % 64), symbol (n % 16 * 4)]
  | a :: b :: c :: rest =>
    let n := a.toNat * 65536 + b.toNat * 256 + c.toNat
    symbol (n / 262144) :: symbol (n / 4096 % 64) :: symbol (n / 64 % 64) :: symbol (n % 64) ::
      encode rest

/-- The encoding of the standard engine, which pads with `=` to a whole number of groups of four
symbols. -/
def encodePadded (bs : List UInt8) : List Char :=
  encode bs ++ List.replicate ((4 - (encode bs).length % 4) % 4) '='

/-- Decoding, four symbols at a time; a final group of two or three symbols must have its unused
bits zero. -/
def decode : List Char → Option (List UInt8)
  | [] => some []
  | [_] => none
  | [c0, c1] => do
    let s0 ← value c0
    let s1 ← value c1
    guard (s1 % 16 = 0)
    return [UInt8.ofNat (s0 * 4 + s1 / 16)]
  | [c0, c1, c2] => do
    let s0 ← value c0
    let s1 ← value c1
    let s2 ← value c2
    guard (s2 % 4 = 0)
    let n := s0 * 1024 + s1 * 16 + s2 / 4
    return [UInt8.ofNat (n / 256), UInt8.ofNat (n % 256)]
  | c0 :: c1 :: c2 :: c3 :: rest => do
    let s0 ← value c0
    let s1 ← value c1
    let s2 ← value c2
    let s3 ← value c3
    let n := s0 * 262144 + s1 * 4096 + s2 * 64 + s3
    let tail ← decode rest
    return UInt8.ofNat (n / 65536) :: UInt8.ofNat (n / 256 % 256) :: UInt8.ofNat (n % 256) :: tail

/-- Sixteen bits spread over three symbols, the last one shifted left by two, and read back. -/
private theorem sextets_of_16 (n : Nat) :
    n / 1024 * 1024 + n / 16 % 64 * 16 + n % 16 * 4 / 4 = n := by
  omega

/-- Twenty-four bits as four symbols, and read back. -/
private theorem sextets_of_24 (n : Nat) :
    n / 262144 * 262144 + n / 4096 % 64 * 4096 + n / 64 % 64 * 64 + n % 64 = n := by
  omega

theorem decode_encode (bs : List UInt8) : decode (encode bs) = some bs := by
  induction bs using encode.induct with
  | case1 => rfl
  | case2 a =>
    have ha := a.toNat_lt
    have h1 : a.toNat % 4 * 16 % 16 = 0 := by omega
    have h2 : a.toNat / 4 * 4 + a.toNat % 4 * 16 / 16 = a.toNat := by omega
    simp only [encode, decode, value_symbol (show a.toNat / 4 < 64 by omega),
      value_symbol (show a.toNat % 4 * 16 < 64 by omega), Option.bind_eq_bind, Option.bind_some,
      guard, h1, if_true, Option.pure_def, h2, UInt8.ofNat_toNat]
  | case3 a b =>
    have ha := a.toNat_lt
    have hb := b.toNat_lt
    -- The two bytes as one 16-bit number, spread over three symbols with two zero bits.
    generalize hn : a.toNat * 256 + b.toNat = n
    have h1 : n % 16 * 4 % 4 = 0 := by omega
    have h2 := sextets_of_16 n
    have h3 : n / 256 = a.toNat := by omega
    have h4 : n % 256 = b.toNat := by omega
    simp only [encode, decode, hn, value_symbol (show n / 1024 < 64 by omega),
      value_symbol (show n / 16 % 64 < 64 by omega), value_symbol (show n % 16 * 4 < 64 by omega),
      Option.bind_eq_bind, Option.bind_some, guard, h1, if_true, Option.pure_def, h2, h3, h4,
      UInt8.ofNat_toNat]
  | case4 a b c rest ih =>
    have ha := a.toNat_lt
    have hb := b.toNat_lt
    have hc := c.toNat_lt
    generalize hn : a.toNat * 65536 + b.toNat * 256 + c.toNat = n
    have h1 := sextets_of_24 n
    have h2 : n / 65536 = a.toNat := by omega
    have h3 : n / 256 % 256 = b.toNat := by omega
    have h4 : n % 256 = c.toNat := by omega
    simp only [encode, decode, hn, value_symbol (show n / 262144 < 64 by omega),
      value_symbol (show n / 4096 % 64 < 64 by omega), value_symbol (show n / 64 % 64 < 64 by omega),
      value_symbol (show n % 64 < 64 by omega), Option.bind_eq_bind, Option.bind_some, ih, h1, h2,
      h3, h4, Option.pure_def, UInt8.ofNat_toNat]

end Base64
