import Quilkin.Bytes.Base64
import Quilkin.Bytes.Buffer
import Quilkin.Data.SortedSet

/-!
# Token sets in the corrosion servers table

Model of `ToSqlParam for TokenSet` (`crates/corrosion/src/db/write.rs`) and of
`deserialize_token_set` (`crates/corrosion/src/db/read.rs`). A token set is written to the
`tokens` column as the base64 (no padding) of a blob

    header | tokens

in one of three layouts, chosen by the writer:

* one token: header `1`, then the token;
* several tokens of one length `len ≤ 127`: header `0x80 | len`, then the tokens end to end;
* otherwise: header `count as u8`, then each token after its length byte, but only when the
  tokens do not all have the same length (`len_prefix = !same_len`).

The reader dispatches on the header byte. The writer is the release build (the
`debug_assert!`s on the number and the lengths of the tokens are not checked, and the `as u8`
casts truncate). Panics of the reader (`chunks_exact(0)`, an index past the end) are `none`.

The base64 codec is the `data_encoding` crate's `BASE64_NOPAD`, a package outside the repository:
it is a parameter `Base64Nopad`, of which the code relies on one documented law,
`Base64Nopad.DecodeEncode`. `Base64Nopad.standard` is the codec of `Quilkin.Bytes.Base64`,
which satisfies it.
-/

namespace Quilkin.Corrosion

open Buffer

/-! ## The base64 codec -/

/-- What the token-set code uses of `data_encoding::BASE64_NOPAD`. -/
structure Base64Nopad where
  /-- `encode`, as the text stored in the column. -/
  encode : List UInt8 → String
  /-- `decode(s.as_bytes()).ok()`. -/
  decode : String → Option (List UInt8)

/-- Decoding an encoding gives the bytes back. -/
def Base64Nopad.DecodeEncode (c : Base64Nopad) : Prop :=
  ∀ bytes, c.decode (c.encode bytes) = some bytes

/-- The codec of `Quilkin.Bytes.Base64`; its alphabet is ASCII, so decoding the characters of a
string is decoding its UTF-8 bytes. -/
def Base64Nopad.standard : Base64Nopad where
  encode bytes := String.ofList (Base64.encode bytes)
  decode s := Base64.decode s.toList

theorem Base64Nopad.standard_decodeEncode : standard.DecodeEncode := by
  intro bytes
  simp only [standard, String.toList_ofList, Base64.decode_encode]

/-! ## Token sets and SQL parameters -/

/-- `quilkin_types::TokenSet`, a `BTreeSet<Vec<u8>>`: the tokens in lexicographic order. -/
structure TokenSet where
  toSet : SortedSet (List UInt8)
  deriving DecidableEq

/-- The empty token set, `TokenSet::default()`. -/
def TokenSet.empty : TokenSet := ⟨.empty⟩

instance : Membership (List UInt8) TokenSet := ⟨fun ts tok => tok ∈ ts.toSet⟩

/-- The two `SqliteParam`s a token set is written as. -/
inductive SqliteParam
  | null
  | text (s : String)
  deriving DecidableEq, Repr

/-- The `tokens` column as `ServerRow::from_sql` reads it back with `as_str`: the text written,
nothing for `NULL`. -/
def SqliteParam.asStr : SqliteParam → Option String
  | .null => none
  | .text s => some s

/-! ## Writing: `to_sql` -/

/-- `MAX_TOKENS`, `u8::MAX >> 1`. -/
def maxTokens : Nat := 255 >>> 1

/-- The header byte of the blob, and `len_prefix`: whether each token follows its own length. -/
def TokenSet.header (tokens : List (List UInt8)) : UInt8 × Bool :=
  if tokens.length > 1 then
    let len := tokens.head!.length
    let sameLen := tokens.all fun tok => tok.length == len
    ((if sameLen && len ≤ maxTokens then 0x80 ||| UInt8.ofNat len else UInt8.ofNat tokens.length),
      !sameLen)
  else (1, false)

/-- The blob before base64: the header, then every token in order, after its length byte when
`len_prefix` is set. -/
def TokenSet.blob (ts : TokenSet) : List UInt8 :=
  let tokens := ts.toSet.toList
  let (header, lenPrefix) := TokenSet.header tokens
  header :: tokens.flatMap fun tok => (if lenPrefix then [UInt8.ofNat tok.length] else []) ++ tok

/-- `to_sql`. -/
def TokenSet.toSql (c : Base64Nopad) (ts : TokenSet) : SqliteParam :=
  if ts.toSet.toList.isEmpty then .null else .text (c.encode ts.blob)

/-! ## Reading: `deserialize_token_set` -/

/-- The loop of the count-prefixed layout: `count` more tokens, each after its length byte, read
from `toks` into `ts`. -/
def readLenPrefixed : Nat → List UInt8 → SortedSet (List UInt8) →
    Option (Except String (SortedSet (List UInt8)))
  | 0, _, ts => some (.ok ts)
  | count + 1, toks, ts =>
    match toks with
    | [] => none
    | lenByte :: rest =>
      let len := lenByte.toNat
      if len < toks.length then readLenPrefixed count (rest.drop len) (ts.insert (rest.take len))
      else some (.error ("token length " ++ toString len ++ " is longer than remaining binary slice"))

/-- The decoding of a nonempty blob, dispatched on its header byte. -/
def readBlob : List UInt8 → Option (Except String TokenSet)
  | [] => none
  | header :: rest =>
    if header &&& 0x80 ≠ 0 then
      let len := (header &&& ~~~0x80).toNat
      (chunksExact rest len).map fun chunks =>
        .ok ⟨chunks.foldl (fun ts tok => ts.insert tok) .empty⟩
    else if header > 1 then
      (readLenPrefixed header.toNat rest .empty).map fun r => r.map TokenSet.mk
    else
      some (.ok ⟨SortedSet.empty.insert rest⟩)

/-- `deserialize_token_set`: no text, a text that is not base64 and an empty blob are all the
empty set. -/
def deserializeTokenSet (c : Base64Nopad) (s : Option String) : Option (Except String TokenSet) :=
  match s.bind fun s => (c.decode s).bind fun dec => if dec.isEmpty then none else some dec with
  | none => some (.ok TokenSet.empty)
  | some tokens => readBlob tokens

end Quilkin.Corrosion
