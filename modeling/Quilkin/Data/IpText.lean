import Quilkin.Data.SocketAddr
import Quilkin.Data.Text
import Quilkin.Bytes.Endian

/-!
# The text of an ip address

`Display` and `FromStr` of `std::net`'s ip addresses. An ipv4 address is written as its four octets
in decimal; an ipv6 address as `::ffff:` and its ipv4 address when it is ipv4-mapped, and otherwise
as its eight segments in lowercase hex, the first of the longest runs of more than one zero segment
written as `::`.

The parser is `core::net::parser`'s: a reader takes the text and returns what it read and the text
after it, or `none`, which leaves the text as it was (`read_atomically`). It reads the bytes of the
text, and a byte of a character outside ascii is never a digit nor a separator, so it reads the
characters alike.
-/

/-! ## Display -/

/-- `Display for Ipv4Addr`. -/
def Ipv4Addr.display (ip : Ipv4Addr) : List Char :=
  Nat.toDigits 10 ip.a.toNat ++ '.' :: Nat.toDigits 10 ip.b.toNat ++ '.' ::
    Nat.toDigits 10 ip.c.toNat ++ '.' :: Nat.toDigits 10 ip.d.toNat

namespace Ipv6Addr

/-- The octets read two at a time as big-endian `u16`s. -/
def toSegments : List UInt8 → List UInt16
  | a :: b :: octets => UInt16.fromBeBytes [a, b] :: toSegments octets
  | _ => []

/-- `segments`. -/
def segments (ip : Ipv6Addr) : List UInt16 := toSegments ip.octets.toList

/-- `From<[u16; 8]> for Ipv6Addr`: the big-endian bytes of the segments. -/
def ofSegments (segments : List UInt16) : Ipv6Addr :=
  ⟨Vector.ofFn fun i => (segments.flatMap UInt16.toBeBytes).getD i 0⟩

/-- `Span`, a run of segments. -/
structure Span where
  start : Nat
  len : Nat
  deriving DecidableEq, Repr

/-- The loop of `fmt` finding the first of the longest runs of zero segments; `i` is the index of
the next segment. -/
def longestZeroSpan (longest current : Span) (i : Nat) : List UInt16 → Span
  | [] => longest
  | segment :: segments =>
    if segment = 0 then
      let current : Span := ⟨if current.len = 0 then i else current.start, current.len + 1⟩
      longestZeroSpan (if current.len > longest.len then current else longest) current (i + 1)
        segments
    else longestZeroSpan longest ⟨0, 0⟩ (i + 1) segments

/-- `fmt_subslice`: the segments in hex, separated by `:`. -/
def fmtSubslice : List UInt16 → List Char
  | [] => []
  | first :: tail =>
    Nat.toDigits 16 first.toNat ++ tail.flatMap fun segment => ':' :: Nat.toDigits 16 segment.toNat

/-- `Display for Ipv6Addr`. -/
def display (ip : Ipv6Addr) : List Char :=
  match ip.toIpv4Mapped with
  | some ipv4 => [':', ':', 'f', 'f', 'f', 'f', ':'] ++ ipv4.display
  | none =>
    let zeroes := longestZeroSpan ⟨0, 0⟩ ⟨0, 0⟩ 0 ip.segments
    if zeroes.len > 1 then
      fmtSubslice (ip.segments.take zeroes.start) ++ ':' :: ':' ::
        fmtSubslice (ip.segments.drop (zeroes.start + zeroes.len))
    else fmtSubslice ip.segments

end Ipv6Addr

/-- `Display for IpAddr`. -/
def IpAddr.display : IpAddr → List Char
  | .v4 ip => ip.display
  | .v6 ip => ip.display

/-! ## The parser -/

namespace Parser

/-- `read_given_char`. -/
def readGivenChar (target : Char) (s : List Char) : Option (List Char) := Text.stripPrefix target s

/-- `read_separator`: the separator before every group but the first, then the group. -/
def readSeparator {α : Type} (sep : Char) (index : Nat) (inner : List Char → Option (α × List Char))
    (s : List Char) : Option (α × List Char) :=
  if index > 0 then (readGivenChar sep s).bind inner else inner s

/-- The loop of `read_number` for a number of at most `maxDigits` digits: the value and the count
of the digits read, and `none` at a digit past `maxDigits`. -/
def readDigits (radix maxDigits : Nat) (result digitCount : Nat) :
    List Char → Option (Nat × Nat × List Char)
  | [] => some (result, digitCount, [])
  | c :: cs =>
    match Text.toDigit radix c with
    | none => some (result, digitCount, c :: cs)
    | some digit =>
      if digitCount + 1 > maxDigits then none
      else readDigits radix maxDigits (result * radix + digit) (digitCount + 1) cs

/-- `read_number` with `max_digits` given, into a type of `bound` values: at least one digit, no
`0` before another digit unless `allowZeroPrefix`, and a value the type holds (`try_into`). -/
def readNumber (radix maxDigits : Nat) (allowZeroPrefix : Bool) (bound : Nat) (s : List Char) :
    Option (Nat × List Char) :=
  let hasLeadingZero := s.head? == some '0'
  match readDigits radix maxDigits 0 0 s with
  | none => none
  | some (result, digitCount, s) =>
    if digitCount = 0 then none
    else if !allowZeroPrefix && hasLeadingZero && digitCount > 1 then none
    else if result < bound then some (result, s) else none

/-- The loop of `read_ipv4_addr` over its `n` groups left, from the group `i`. -/
def readIpv4Groups : Nat → Nat → List Char → Option (List UInt8 × List Char)
  | 0, _, s => some ([], s)
  | n + 1, i, s => do
    let (group, s) ← readSeparator '.' i (readNumber 10 3 false 256) s
    let (groups, s) ← readIpv4Groups n (i + 1) s
    some (group.toUInt8 :: groups, s)

/-- `read_ipv4_addr`. -/
def readIpv4Addr (s : List Char) : Option (Ipv4Addr × List Char) := do
  let (groups, s) ← readIpv4Groups 4 0 s
  match groups with
  | [a, b, c, d] => some (⟨a, b, c, d⟩, s)
  | _ => none

/-- `read_groups` of `read_ipv6_addr`, over the `n` slots left of `limit`, from the slot `i`: the
groups read, whether the last two are an embedded ipv4 address, and the text after them. It
stops at the first slot it cannot read. -/
def readGroups (limit : Nat) : Nat → Nat → List Char → List UInt16 × Bool × List Char
  | 0, _, s => ([], false, s)
  | n + 1, i, s =>
    -- an embedded ipv4 address needs two slots
    let ipv4 := if i < limit - 1 then readSeparator ':' i readIpv4Addr s else none
    match ipv4 with
    | some (v4, s) => ([UInt16.fromBeBytes [v4.a, v4.b], UInt16.fromBeBytes [v4.c, v4.d]], true, s)
    | none =>
      match readSeparator ':' i (readNumber 16 4 true 65536) s with
      | some (group, s) =>
        let (groups, ipv4, s) := readGroups limit n (i + 1) s
        (group.toUInt16 :: groups, ipv4, s)
      | none => ([], false, s)

/-- `read_ipv6_addr`: the groups before a `::`, then those after it, with the zero segments
between. -/
def readIpv6Addr (s : List Char) : Option (Ipv6Addr × List Char) :=
  let (head, headIpv4, s) := readGroups 8 8 0 s
  if head.length = 8 then some (Ipv6Addr.ofSegments head, s)
  -- an ipv4 address is not allowed before `::`
  else if headIpv4 then none
  else do
    let s ← readGivenChar ':' s
    let s ← readGivenChar ':' s
    let limit := 8 - (head.length + 1)
    let (tail, _, s) := readGroups limit limit 0 s
    some (Ipv6Addr.ofSegments (head ++ List.replicate (8 - head.length - tail.length) 0 ++ tail), s)

/-- `read_ip_addr`. -/
def readIpAddr (s : List Char) : Option (IpAddr × List Char) :=
  match readIpv4Addr s with
  | some (ip, s) => some (.v4 ip, s)
  | none => (readIpv6Addr s).map fun (ip, s) => (.v6 ip, s)

/-- `parse_with`: what the reader read, when it read the whole text. -/
def parseWith {α : Type} (inner : List Char → Option (α × List Char)) (s : List Char) : Option α :=
  match inner s with
  | some (a, []) => some a
  | _ => none

end Parser

/-- `AddrParseError`, of the kind `AddrKind::Ip`. -/
inductive AddrParseError
  | ip
  deriving DecidableEq, Repr

/-- `FromStr for IpAddr`. -/
def IpAddr.fromStr (s : List Char) : Except AddrParseError IpAddr :=
  match Parser.parseWith Parser.readIpAddr s with
  | some ip => .ok ip
  | none => .error .ip
