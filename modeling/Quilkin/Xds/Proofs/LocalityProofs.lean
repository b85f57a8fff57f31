import Quilkin.Xds.Delta

/-!
# Proofs: localities and their names

A locality is its string and two offsets into it. `Locality::new` joins its parts with `:` and
computes the offsets from the parts; `from_str` keeps the string it is given and computes the
offsets from the pieces of the string split at `:`. For parts without `:` both compute the same
offsets from the same string (`new_eq_ofBuffer`), so a locality either constructor builds is
determined by its name (`eq_of_toString_eq`). The name of one built by `new` parses back to it
when its region is not empty; an empty region gives a name `from_str` refuses. And `from_str`
keeps what the proto message has no room for (an empty zone before a sub-zone, a trailing `:`),
so the round trip through `proto::Locality` changes such a locality.
-/

namespace Quilkin.Net

namespace Locality

/-- The pieces of a string split at `:`, which `from_str` reads. -/
def pieces (input : String) : List String := (input.toList.splitOn ':').map String.ofList

/-- The locality `from_str` makes of a string it accepts: the string, the end of its first
piece, and the end of the second piece unless that is empty. -/
def ofBuffer (input : String) : Locality :=
  match pieces input with
  | region :: rest =>
    ⟨input, region.utf8ByteSize, match rest with
      | z :: _ => if z.isEmpty then none else some (region.utf8ByteSize + 1 + z.utf8ByteSize)
      | [] => none⟩
  | [] => ⟨input, 0, none⟩

theorem buffer_ofBuffer (input : String) : (ofBuffer input).buffer = input := by
  unfold ofBuffer
  split <;> rfl

/-- Built by `new` from parts without `:`, as `From<proto::Locality>` does, or by `from_str`. -/
def Built (l : Locality) : Prop :=
  (∃ r z s, ':' ∉ r.toList ∧ ':' ∉ z.toList ∧ ':' ∉ s.toList ∧ l = new r z s) ∨
    ∃ input, fromStr input = .ok l

theorem eq_ofBuffer_of_fromStr {input : String} {l : Locality} (h : fromStr input = .ok l) :
    l = ofBuffer input := by
  unfold fromStr at h
  split_ifs at h with hempty
  unfold ofBuffer pieces
  split at h
  · cases h
  rename_i region rest hsplit
  rw [hsplit]
  split_ifs at h with hregion
  dsimp only at h
  split at h
  · cases h
  · cases h
    rfl

/-- `from_str` accepts a string of at most three pieces whose first is not empty, and reads the
locality off it. -/
theorem fromStr_eq_ofBuffer {input region : String} {rest : List String} (hne : input ≠ "")
    (hp : pieces input = region :: rest) (hreg : region ≠ "") (hlen : rest.length ≤ 2) :
    fromStr input = .ok (ofBuffer input) := by
  have hp' : (input.toList.splitOn ':').map String.ofList = region :: rest := hp
  unfold fromStr ofBuffer pieces
  rw [if_neg (by rwa [String.isEmpty_iff]), hp']
  dsimp only
  rw [if_neg (by rwa [String.isEmpty_iff])]
  -- the fourth piece, which would be refused, is not there
  rcases rest with _ | ⟨a, _ | ⟨b, _ | ⟨c, rest⟩⟩⟩
  · rfl
  · rfl
  · rfl
  · simp at hlen

/-- Splitting at the first `:` of a string whose first part has none. -/
theorem splitOn_append_colon {a : String} (ha : ':' ∉ a.toList) (b : String) :
    (a ++ ":" ++ b).toList.splitOn ':' = a.toList :: b.toList.splitOn ':' := by
  have h : (a ++ ":" ++ b).toList = a.toList ++ ':' :: b.toList := by
    simp only [String.toList_append, List.append_assoc]
    rfl
  rw [h, List.splitOn_append_cons_self_of_not_mem ha]

section Parts

variable {r z s : String} (hr : ':' ∉ r.toList) (hz : ':' ∉ z.toList) (hs : ':' ∉ s.toList)
include hr hz hs

/-- The name `new` builds splits back into its parts, the empty zone and what follows it
dropped. -/
theorem pieces_new :
    pieces (new r z s).buffer =
      r :: (if z.isEmpty then [] else if s.isEmpty then [z] else [z, s]) := by
  unfold pieces new
  by_cases hz0 : z.isEmpty
  · rw [if_pos hz0, if_pos hz0, List.splitOn_eq_singleton hr]
    simp [String.ofList_toList]
  rw [if_neg hz0, if_neg hz0]
  dsimp only
  by_cases hs0 : s.isEmpty
  · rw [if_pos hs0, if_pos hs0, splitOn_append_colon hr, List.splitOn_eq_singleton hz]
    simp [String.ofList_toList]
  · rw [if_neg hs0, if_neg hs0, String.append_assoc, String.append_assoc, splitOn_append_colon hr,
      ← String.append_assoc, splitOn_append_colon hz, List.splitOn_eq_singleton hs]
    simp [String.ofList_toList]

/-- `new` computes the offsets `from_str` reads off its name. -/
theorem new_eq_ofBuffer : new r z s = ofBuffer (new r z s).buffer := by
  unfold ofBuffer
  rw [pieces_new hr hz hs]
  by_cases hz0 : z.isEmpty
  · simp only [new, hz0, ↓reduceIte]
  have hsize : (r ++ ":" ++ z).utf8ByteSize = r.utf8ByteSize + 1 + z.utf8ByteSize := by
    rw [String.utf8ByteSize_append, String.utf8ByteSize_append]
    rfl
  by_cases hs0 : s.isEmpty
  · simp only [new, hz0, hs0, ↓reduceIte, Bool.false_eq_true, hsize]
  · simp only [new, hz0, hs0, ↓reduceIte, Bool.false_eq_true, hsize]

/-- The name of a locality `new` builds with a region parses back to it. -/
theorem fromStr_toString_new (hne : r ≠ "") : fromStr (new r z s).toString = .ok (new r z s) := by
  have hp := pieces_new hr hz hs
  have hbuf : (new r z s).buffer ≠ "" := by
    intro h
    rw [h] at hp
    exact hne (List.head_eq_of_cons_eq hp).symm
  have hlen : (if z.isEmpty then [] else if s.isEmpty then [z] else [z, s]).length ≤ 2 := by
    split_ifs <;> simp
  rw [toString, fromStr_eq_ofBuffer hbuf hp hne hlen, ← new_eq_ofBuffer hr hz hs]

end Parts

theorem eq_ofBuffer_of_built {l : Locality} (h : l.Built) : l = ofBuffer l.buffer := by
  rcases h with ⟨r, z, s, hr, hz, hs, rfl⟩ | ⟨input, h⟩
  · exact new_eq_ofBuffer hr hz hs
  · rw [eq_ofBuffer_of_fromStr h, buffer_ofBuffer]

/-- Two localities either constructor builds are equal when their names are. -/
theorem eq_of_toString_eq {l₁ l₂ : Locality} (h₁ : l₁.Built) (h₂ : l₂.Built)
    (h : l₁.toString = l₂.toString) : l₁ = l₂ := by
  rw [eq_ofBuffer_of_built h₁, eq_ofBuffer_of_built h₂]
  exact congrArg ofBuffer h

end Locality

end Quilkin.Net

namespace Quilkin.Xds

open Net

/-- What holds of the names of localities and what does not: two localities built by `new` from
parts without `:` or by `from_str` are equal when their names are, and the name parses back to
the locality when `from_str` built it or `new` built it with a region; but a locality `new` builds
without a region has a name `from_str` refuses, and one `from_str` builds from `eu::x` or
`eu:west:` comes back from `proto::Locality` as another. -/
theorem locality_roundTrip_diverges :
    (∀ l₁ l₂ : Locality, l₁.Built → l₂.Built → l₁.toString = l₂.toString → l₁ = l₂) ∧
    (∀ r z s : String, ':' ∉ r.toList → ':' ∉ z.toList → ':' ∉ s.toList → r ≠ "" →
      Locality.fromStr (Locality.new r z s).toString = .ok (Locality.new r z s)) ∧
    (∀ input l, Locality.fromStr input = .ok l → Locality.fromStr l.toString = .ok l) ∧
    Locality.fromStr (Locality.new "" "z" "").toString = .error .regionNotSpecified ∧
    Locality.fromStr (Locality.new "" "" "").toString = .error .regionNotSpecified ∧
    (∃ l, Locality.fromStr "eu::x" = .ok l ∧ (ProtoLocality.ofLocality l).toLocality ≠ l) ∧
    (∃ l, Locality.fromStr "eu:west:" = .ok l ∧ (ProtoLocality.ofLocality l).toLocality ≠ l) := by
  refine ⟨fun l₁ l₂ h₁ h₂ h => Locality.eq_of_toString_eq h₁ h₂ h,
    fun r z s hr hz hs hne => Locality.fromStr_toString_new hr hz hs hne, ?_, rfl, rfl,
    ⟨⟨"eu::x", 2, none⟩, rfl, by decide⟩, ⟨⟨"eu:west:", 2, some 7⟩, rfl, by decide⟩⟩
  -- `from_str` keeps its input as the name
  intro input l h
  have hbuf : l.buffer = input := by
    rw [Locality.eq_ofBuffer_of_fromStr h, Locality.buffer_ofBuffer]
  rw [Locality.toString, hbuf, h]

end Quilkin.Xds
