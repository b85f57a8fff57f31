import Quilkin.Corrosion.Codec

/-!
# Splitting server changes into buffers

Model of `ServerChange`, `IterChange` and `ServerIter` (`crates/corrosion/src/persistent/proto.rs`).
A change to the servers table is a list of upserts, removals or updates; the client sends it in
buffers of at most `u16::MAX` bytes of JSON, each a length-prefixed array of one `IterChange`, a
slice of the list. `ServerIter::next` starts a slice at the first element not sent yet, halves
it until `write_length_prefixed_json` accepts it, and moves past the elements it sent.

The element types are parameters, and `serde_json` enters as the JSON of one element of each
kind (`ElementJson`); the JSON around the elements is written out as serde lays it out for an
adjacently tagged enum, `{"ty":tag,"c":[...]}`.
-/

namespace Quilkin.Corrosion

variable {Up Rm Ud Mu : Type}

/-- `ServerChange`: upserts, removals or updates of servers, or an update of the mutator. -/
inductive ServerChange (Up Rm Ud Mu : Type)
  | upsert (c : List Up)
  | remove (c : List Rm)
  | update (c : List Ud)
  | updateMutator (m : Mu)

/-- `IterChange`: a slice of the elements of an upsert, a removal or an update. -/
inductive IterChange (Up Rm Ud : Type)
  | upsert (c : List Up)
  | remove (c : List Rm)
  | update (c : List Ud)

namespace IterChange

/-- `IterChange::new`: the elements from `index` on, `None` when there are none or the change
is to the mutator. -/
def new : ServerChange Up Rm Ud Mu → Nat → Option (IterChange Up Rm Ud)
  | .upsert up, index => if index < up.length then some (.upsert (up.drop index)) else none
  | .remove r, index => if index < r.length then some (.remove (r.drop index)) else none
  | .update u, index => if index < u.length then some (.update (u.drop index)) else none
  | .updateMutator _, _ => none

/-- `halve`: the first half of the slice, rounded down. -/
def halve : IterChange Up Rm Ud → IterChange Up Rm Ud
  | .upsert up => .upsert (up.take (up.length / 2))
  | .remove r => .remove (r.take (r.length / 2))
  | .update u => .update (u.take (u.length / 2))

/-- `len`. -/
def len : IterChange Up Rm Ud → Nat
  | .upsert up => up.length
  | .remove r => r.length
  | .update u => u.length

end IterChange

/-- What the iterator uses of `serde_json`: the JSON of one element of each kind. -/
structure ElementJson (Up Rm Ud : Type) where
  up : Up → List UInt8
  rm : Rm → List UInt8
  ud : Ud → List UInt8

/-- A JSON array: the elements between brackets, separated by commas. -/
def jsonArray (elements : List (List UInt8)) : List UInt8 :=
  [0x5b] ++ List.intercalate [0x2c] elements ++ [0x5d]

/-- An adjacently tagged variant, `{"ty":tag,"c":content}`. -/
def jsonTagged (tag : String) (content : List UInt8) : List UInt8 :=
  ("\x7b\"ty\":\"" ++ tag ++ "\",\"c\":").toUTF8.data.toList ++ content ++ [0x7d]

/-- The JSON of an `IterChange`, tagged `up`, `r` or `u`. -/
def IterChange.toJson (j : ElementJson Up Rm Ud) : IterChange Up Rm Ud → List UInt8
  | .upsert up => jsonTagged "up" (jsonArray (up.map j.up))
  | .remove r => jsonTagged "r" (jsonArray (r.map j.rm))
  | .update u => jsonTagged "u" (jsonArray (u.map j.ud))

/-- `ServerIter`: the change and the index of the first element not sent yet. -/
structure ServerIter (Up Rm Ud Mu : Type) where
  changes : ServerChange Up Rm Ud Mu
  index : Nat

namespace ServerIter

/-- `ServerIter::new`: a change to the mutator is handed back. -/
def new (sc : ServerChange Up Rm Ud Mu) : Except (ServerChange Up Rm Ud Mu) (ServerIter Up Rm Ud Mu) :=
  match sc with
  | .updateMutator _ => .error sc
  | _ => .ok ⟨sc, 0⟩

/-- The loop of `next`: the slice halved until its buffer, `[ic]` written length-prefixed, is
accepted. `none` where the loop would run forever, on an empty slice that is refused. -/
def fit (j : ElementJson Up Rm Ud) (ic : IterChange Up Rm Ud) :
    Option (List UInt8 × IterChange Up Rm Ud) :=
  match writeLengthPrefixedJson (jsonArray [ic.toJson j]) with
  | some (.ok b) => some (b, ic)
  | _ => if _h : ic.len = 0 then none else fit j ic.halve
termination_by ic.len
decreasing_by
  cases ic <;> simp only [IterChange.halve, IterChange.len, List.length_take] at _h ⊢ <;> omega

/-- `Iterator::next`: `None` once every element is sent; otherwise the buffer of the slice that
fits, and the index moved past it. The outer `Option` is `none` where the loop never ends. -/
def next (j : ElementJson Up Rm Ud) (it : ServerIter Up Rm Ud Mu) :
    Option (Option (List UInt8 × ServerIter Up Rm Ud Mu)) :=
  match IterChange.new it.changes it.index with
  | none => some none
  | some ic => (fit j ic).map fun (buf, ic) => some (buf, { it with index := it.index + ic.len })

/-- The buffers of the calls of `next` until it returns `None`, as a `for` loop over the iterator
takes them; `none` where `fuel` calls do not get there, or the loop of a call never ends. -/
def collect (j : ElementJson Up Rm Ud) : Nat → ServerIter Up Rm Ud Mu → Option (List (List UInt8))
  | 0, _ => none
  | fuel + 1, it =>
    match next j it with
    | some none => some []
    | some (some (buf, it')) => (collect j fuel it').map (buf :: ·)
    | none => none

end ServerIter

end Quilkin.Corrosion
