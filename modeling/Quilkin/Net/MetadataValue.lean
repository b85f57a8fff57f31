import Mathlib.Logic.Basic

/-!
# Metadata values

Model of `metadata::Value` (`src/net/endpoint/metadata.rs`), what filters store in a packet's
dynamic metadata and match on. Its `PartialEq` is written by hand: besides equality of two values
of one variant, a `Number` equals a `Bytes` of the one byte with its value, and a `String` equals
a `Bytes` holding its UTF-8 encoding. `PartialOrd` and `Ord` are derived: they compare the
variants in the order of the declaration, then their contents.
-/

namespace Quilkin.Net

/-- `metadata::Value`; `bytes::Bytes` is the list of its bytes. -/
inductive Value
  | bool (b : Bool)
  | number (n : UInt64)
  | list (vs : List Value)
  | string (s : String)
  | bytes (bs : List UInt8)

/-- `str::as_bytes`, the UTF-8 encoding of a string. -/
def asBytes (s : String) : List UInt8 := s.toUTF8.data.toList

namespace Value

mutual

/-- `PartialEq::eq`. A `String` is compared with a `Bytes` by its bytes, in either order; a
`Number` with a `Bytes` only with the number on the left. -/
def eq : Value → Value → Bool
  | .bool a, .bool b => a == b
  | .number a, .number b => a == b
  | .number num, .bytes bs => bs.length == 1 && num == (bs.headD 0).toUInt64
  | .list a, .list b => eqList a b
  | .string a, .string b => a == b
  | .bytes a, .bytes b => a == b
  | .string a, .bytes b => asBytes a == b
  | .bytes b, .string a => asBytes a == b
  | _, _ => false

/-- The `==` of `Vec<Value>`: the same length and the elements equal in turn. -/
def eqList : List Value → List Value → Bool
  | [], [] => true
  | a :: as, b :: bs => eq a b && eqList as bs
  | _, _ => false

end

/-- The position of the variant in the declaration, which the derived `Ord` compares first. -/
def discriminant : Value → Nat
  | .bool _ => 0
  | .number _ => 1
  | .list _ => 2
  | .string _ => 3
  | .bytes _ => 4

mutual

/-- The derived `Ord::cmp`: values of one variant by their contents, a `String` by its bytes;
values of two variants by the variants. -/
def cmp : Value → Value → Ordering
  | .bool a, .bool b => compare a b
  | .number a, .number b => compare a b
  | .list a, .list b => cmpList a b
  | .string a, .string b => compare (asBytes a) (asBytes b)
  | .bytes a, .bytes b => compare a b
  | a, b => compare a.discriminant b.discriminant

/-- The `Ord::cmp` of `Vec<Value>`: at the first elements that differ, else the shorter first. -/
def cmpList : List Value → List Value → Ordering
  | [], [] => .eq
  | [], _ :: _ => .lt
  | _ :: _, [] => .gt
  | a :: as, b :: bs => (cmp a b).then (cmpList as bs)

end

end Value

end Quilkin.Net
