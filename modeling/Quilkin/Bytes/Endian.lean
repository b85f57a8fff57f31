import Mathlib.Algebra.Order.Group.Nat
import Mathlib.Data.List.Basic

/-!
# Fixed-width byte encodings

A natural number written as exactly `w` bytes, least significant first (`toLE`) or most
significant first (`toBE`), and read back (`ofLE`, `ofBE`). The big-endian maps are the
little-endian ones on the reversed list, so every law is proved once, by induction on the width
or on the list, and transported by `List.reverse`.

On top of these sit the standard library's `to_be_bytes`/`from_be_bytes` and
`to_le_bytes`/`from_le_bytes` for the fixed-width integers a wire format uses (`u16`, `i64`), with
their round-trip laws: decoding an encoding gives the value back, and, for the big-endian readers
of the codecs, encoding a decoded list of the right width gives the list back.
-/

namespace ByteOrder

/-- The `w` little-endian bytes of `n`; bits above `8 * w` are dropped. -/
def toLE : Nat → Nat → List UInt8
  | 0, _ => []
  | w + 1, n => UInt8.ofNat (n % 256) :: toLE w (n / 256)

/-- The natural number whose little-endian bytes are `bs`. -/
def ofLE : List UInt8 → Nat
  | [] => 0
  | b :: bs => b.toNat + 256 * ofLE bs

/-- The `w` big-endian bytes of `n`. -/
def toBE (w n : Nat) : List UInt8 := (toLE w n).reverse

/-- The natural number whose big-endian bytes are `bs`. -/
def ofBE (bs : List UInt8) : Nat := ofLE bs.reverse

@[simp] theorem length_toLE (w n : Nat) : (toLE w n).length = w := by
  induction w generalizing n with
  | zero => rfl
  | succ w ih => simp [toLE, ih]

@[simp] theorem length_toBE (w n : Nat) : (toBE w n).length = w := by
  simp [toBE]

theorem ofLE_toLE (w n : Nat) : ofLE (toLE w n) = n % 256 ^ w := by
  induction w generalizing n with
  | zero => simp [toLE, ofLE, Nat.mod_one]
  | succ w ih =>
    have hb : (UInt8.ofNat (n % 256)).toNat = n % 256 := by
      rw [UInt8.toNat_ofNat']
      omega
    rw [toLE, ofLE, ih, hb, pow_succ', Nat.mod_mul]

theorem ofLE_lt (bs : List UInt8) : ofLE bs < 256 ^ bs.length := by
  induction bs with
  | nil => simp [ofLE]
  | cons b bs ih =>
    have hb : b.toNat < 256 := b.toNat_lt
    rw [ofLE, List.length_cons, pow_succ]
    omega

theorem toLE_ofLE (bs : List UInt8) : toLE bs.length (ofLE bs) = bs := by
  induction bs with
  | nil => rfl
  | cons b bs ih =>
    have hb : b.toNat < 256 := b.toNat_lt
    have hmod : (b.toNat + 256 * ofLE bs) % 256 = b.toNat := by omega
    have hdiv : (b.toNat + 256 * ofLE bs) / 256 = ofLE bs := by omega
    rw [List.length_cons, toLE, ofLE, hmod, hdiv, ih, UInt8.ofNat_toNat]

theorem ofBE_toBE (w n : Nat) : ofBE (toBE w n) = n % 256 ^ w := by
  simp [ofBE, toBE, ofLE_toLE]

theorem ofBE_lt (bs : List UInt8) : ofBE bs < 256 ^ bs.length := by
  simpa [ofBE] using ofLE_lt bs.reverse

theorem toBE_ofBE (bs : List UInt8) : toBE bs.length (ofBE bs) = bs := by
  have h := toLE_ofLE bs.reverse
  rw [List.length_reverse] at h
  rw [toBE, ofBE, h, List.reverse_reverse]

end ByteOrder

open ByteOrder

/-! ## The standard library's byte conversions -/

/-- `u16::to_be_bytes`. -/
def UInt16.toBeBytes (x : UInt16) : List UInt8 := toBE 2 x.toNat

/-- `u16::from_be_bytes`, on a list of two bytes. -/
def UInt16.fromBeBytes (bs : List UInt8) : UInt16 := UInt16.ofNat (ofBE bs)

/-- `u16::to_le_bytes`. -/
def UInt16.toLeBytes (x : UInt16) : List UInt8 := toLE 2 x.toNat

/-- `u16::from_le_bytes`, on a list of two bytes. -/
def UInt16.fromLeBytes (bs : List UInt8) : UInt16 := UInt16.ofNat (ofLE bs)

/-- `i64::to_be_bytes`: the two's complement bits, most significant byte first. -/
def Int64.toBeBytes (x : Int64) : List UInt8 := toBE 8 x.toUInt64.toNat

/-- `i64::from_be_bytes`, on a list of eight bytes. -/
def Int64.fromBeBytes (bs : List UInt8) : Int64 := (UInt64.ofNat (ofBE bs)).toInt64

@[simp] theorem UInt16.length_toBeBytes (x : UInt16) : x.toBeBytes.length = 2 := by
  simp [UInt16.toBeBytes]

@[simp] theorem UInt16.length_toLeBytes (x : UInt16) : x.toLeBytes.length = 2 := by
  simp [UInt16.toLeBytes]

@[simp] theorem Int64.length_toBeBytes (x : Int64) : x.toBeBytes.length = 8 := by
  simp [Int64.toBeBytes]

@[simp] theorem UInt16.fromBeBytes_toBeBytes (x : UInt16) : UInt16.fromBeBytes x.toBeBytes = x := by
  have hx : x.toNat < 256 ^ 2 := x.toNat_lt
  rw [UInt16.fromBeBytes, UInt16.toBeBytes, ofBE_toBE, Nat.mod_eq_of_lt hx, UInt16.ofNat_toNat]

@[simp] theorem UInt16.fromLeBytes_toLeBytes (x : UInt16) : UInt16.fromLeBytes x.toLeBytes = x := by
  have hx : x.toNat < 256 ^ 2 := x.toNat_lt
  rw [UInt16.fromLeBytes, UInt16.toLeBytes, ofLE_toLE, Nat.mod_eq_of_lt hx, UInt16.ofNat_toNat]

@[simp] theorem Int64.fromBeBytes_toBeBytes (x : Int64) : Int64.fromBeBytes x.toBeBytes = x := by
  have hx : x.toUInt64.toNat < 256 ^ 8 := x.toUInt64.toNat_lt
  rw [Int64.fromBeBytes, Int64.toBeBytes, ofBE_toBE, Nat.mod_eq_of_lt hx, UInt64.ofNat_toNat,
    Int64.toInt64_toUInt64]

theorem UInt16.toBeBytes_fromBeBytes {bs : List UInt8} (h : bs.length = 2) :
    (UInt16.fromBeBytes bs).toBeBytes = bs := by
  have hlt : ofBE bs < 2 ^ 16 := by simpa [h] using ofBE_lt bs
  have hv : (UInt16.ofNat (ofBE bs)).toNat = ofBE bs := by
    rw [UInt16.toNat_ofNat']
    exact Nat.mod_eq_of_lt hlt
  rw [UInt16.toBeBytes, UInt16.fromBeBytes, hv, ← h, toBE_ofBE]

/-- The low byte and the byte shifted down, as code writes the bytes by hand, are
`to_le_bytes`. -/
theorem UInt16.toLeBytes_eq_shift (x : UInt16) : x.toLeBytes = [x.toUInt8, (x >>> 8).toUInt8] := by
  have hx := x.toNat_lt
  have hhigh : (x >>> 8).toNat = x.toNat / 256 := by
    rw [UInt16.toNat_shiftRight]
    simp [Nat.shiftRight_eq_div_pow]
  simp only [UInt16.toLeBytes, toLE, List.cons.injEq, and_true]
  constructor
  · apply UInt8.toNat_inj.mp
    simp [UInt16.toNat_toUInt8]
  · apply UInt8.toNat_inj.mp
    simp [UInt16.toNat_toUInt8, hhigh]

theorem Int64.toBeBytes_fromBeBytes {bs : List UInt8} (h : bs.length = 8) :
    (Int64.fromBeBytes bs).toBeBytes = bs := by
  have hlt : ofBE bs < 2 ^ 64 := by simpa [h] using ofBE_lt bs
  have hv : (UInt64.ofNat (ofBE bs)).toNat = ofBE bs := by
    rw [UInt64.toNat_ofNat']
    exact Nat.mod_eq_of_lt hlt
  rw [Int64.toBeBytes, Int64.fromBeBytes, UInt64.toUInt64_toInt64, hv, ← h, toBE_ofBE]
