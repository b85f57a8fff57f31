import Quilkin.Filters.Match

/-!
# Proofs: metadata values and the match filter

The derived `Ord` of `metadata::Value` is lawful: `cmp` says `Equal` exactly of equal values
(`cmp_eq_iff`). The hand-written `PartialEq` agrees with it one way, a value equal by `cmp` is
`==` (`eq_of_cmp_eq_eq`), and is reflexive (`eq_self`); but its cross-variant cases make it
neither symmetric nor transitive, nor consistent with `cmp`. The match filter runs the first branch
whose value is `==` to the packet's (`matchFilter_of_getMetadata`), so which branch runs depends on
which side of the comparison holds which representation.
-/

namespace Quilkin.Net

theorem asBytes_inj {a b : String} : asBytes a = asBytes b ↔ a = b := by
  constructor
  · intro h
    have hdata : a.toUTF8.data = b.toUTF8.data := Array.toList_inj.mp h
    exact String.toByteArray_inj.mp (ByteArray.ext hdata)
  · rintro rfl
    rfl

namespace Value

mutual

/-- `PartialEq` is reflexive, through any nesting of lists. -/
theorem eq_self : ∀ a : Value, a.eq a = true
  | .bool b => by rw [eq, beq_self_eq_true]
  | .number n => by rw [eq, beq_self_eq_true]
  | .list vs => by rw [eq, eqList_self vs]
  | .string s => by rw [eq, beq_self_eq_true]
  | .bytes bs => by rw [eq, beq_self_eq_true]

theorem eqList_self : ∀ vs : List Value, eqList vs vs = true
  | [] => by rw [eqList]
  | v :: vs => by rw [eqList, eq_self v, eqList_self vs, Bool.and_self]

end

mutual

theorem cmp_self : ∀ a : Value, a.cmp a = .eq
  | .bool b => by rw [cmp, Std.compare_eq_iff_eq]
  | .number n => by rw [cmp, Std.compare_eq_iff_eq]
  | .list vs => by rw [cmp, cmpList_self vs]
  | .string s => by rw [cmp, Std.compare_eq_iff_eq]
  | .bytes bs => by rw [cmp, Std.compare_eq_iff_eq]

theorem cmpList_self : ∀ vs : List Value, cmpList vs vs = .eq
  | [] => by rw [cmpList]
  | v :: vs => by rw [cmpList, cmp_self v, cmpList_self vs]; rfl

end

theorem cmp_of_discriminant_ne {a b : Value} (h : a.discriminant ≠ b.discriminant) :
    a.cmp b = compare a.discriminant b.discriminant := by
  cases a <;> cases b <;> first | exact absurd rfl h | rfl

theorem cmp_ne_eq_of_discriminant_ne {a b : Value} (h : a.discriminant ≠ b.discriminant) :
    a.cmp b ≠ .eq := by
  rw [cmp_of_discriminant_ne h, Ne, Std.compare_eq_iff_eq]
  exact h

mutual

/-- `cmp` says `Equal` only of equal values: two variants are never `Equal`, and one variant's
contents compare as their own lawful orders do. -/
theorem eq_of_cmp_eq : ∀ {a b : Value}, a.cmp b = .eq → a = b
  | .bool x, b, h => by
    cases b with
    | bool y => rw [cmp, Std.compare_eq_iff_eq] at h; rw [h]
    | _ => exact absurd h (cmp_ne_eq_of_discriminant_ne (by simp [discriminant]))
  | .number x, b, h => by
    cases b with
    | number y => rw [cmp, Std.compare_eq_iff_eq] at h; rw [h]
    | _ => exact absurd h (cmp_ne_eq_of_discriminant_ne (by simp [discriminant]))
  | .list xs, b, h => by
    cases b with
    | list ys => rw [cmp] at h; rw [eq_of_cmpList_eq h]
    | _ => exact absurd h (cmp_ne_eq_of_discriminant_ne (by simp [discriminant]))
  | .string x, b, h => by
    cases b with
    | string y => rw [cmp, Std.compare_eq_iff_eq, asBytes_inj] at h; rw [h]
    | _ => exact absurd h (cmp_ne_eq_of_discriminant_ne (by simp [discriminant]))
  | .bytes x, b, h => by
    cases b with
    | bytes y => rw [cmp, Std.compare_eq_iff_eq] at h; rw [h]
    | _ => exact absurd h (cmp_ne_eq_of_discriminant_ne (by simp [discriminant]))

theorem eq_of_cmpList_eq : ∀ {as bs : List Value}, cmpList as bs = .eq → as = bs
  | [], [], _ => rfl
  | [], _ :: _, h => by rw [cmpList] at h; cases h
  | _ :: _, [], h => by rw [cmpList] at h; cases h
  | a :: as, b :: bs, h => by
    rw [cmpList, Ordering.then_eq_eq] at h
    rw [eq_of_cmp_eq h.1, eq_of_cmpList_eq h.2]

end

/-- The derived `Ord` is lawful. -/
theorem cmp_eq_iff {a b : Value} : a.cmp b = .eq ↔ a = b :=
  ⟨eq_of_cmp_eq, fun h => h ▸ cmp_self a⟩

/-- Values `cmp` finds `Equal` are `==`. -/
theorem eq_true_of_cmp_eq {a b : Value} (h : a.cmp b = .eq) : a.eq b = true := by
  rw [eq_of_cmp_eq h]
  exact eq_self b

end Value

end Quilkin.Net

namespace Quilkin.Filters

open Net

variable {K F Ctx : Type}

section Run

variable (c : ConfigInstance K F) {ctx : Ctx} {getMetadata : Ctx → K → Option Value}
  (andThen : Ctx → F → Except FilterError Ctx)

/-- A packet without the key fails with `MatchNoMetadata`. -/
theorem matchFilter_of_getMetadata_none (h : getMetadata ctx c.metadataKey = none) :
    matchFilter (some c) ctx getMetadata andThen = .error .matchNoMetadata := by
  rw [matchFilter, h]
  rfl

/-- With the value under the key, the match filter runs the first branch whose value is `==` to it,
or the fallthrough. -/
theorem matchFilter_of_getMetadata {value : Value} (h : getMetadata ctx c.metadataKey = some value) :
    matchFilter (some c) ctx getMetadata andThen =
      andThen ctx (((c.branches.find? fun branch => branch.1.eq value).map Prod.snd).getD
        c.fallthrough) := by
  rw [matchFilter, h]
  dsimp only [Option.elim, bind, Except.bind]
  cases c.branches.find? fun branch => branch.1.eq value with
  | none => rfl
  | some branch => rfl

/-- The first branch whose value is `==` to the packet's runs. -/
theorem matchFilter_runs_first {value : Value} (h : getMetadata ctx c.metadataKey = some value)
    (pre : List (Value × F)) {post : List (Value × F)} {key : Value} {inst : F}
    (hbr : c.branches = pre ++ (key, inst) :: post) (hpre : ∀ b ∈ pre, b.1.eq value = false)
    (hkey : key.eq value = true) :
    matchFilter (some c) ctx getMetadata andThen = andThen ctx inst := by
  have hnone : pre.find? (fun branch => branch.1.eq value) = none :=
    List.find?_eq_none.mpr fun b hb => by rw [hpre b hb]; decide
  have hfirst : ((key, inst) :: post).find? (fun branch => branch.1.eq value) = some (key, inst) :=
    List.find?_cons_of_pos hkey
  rw [matchFilter_of_getMetadata c andThen h, hbr, List.find?_append, hnone, Option.none_or, hfirst]
  rfl

/-- With no branch's value `==` to the packet's, the fallthrough runs. -/
theorem matchFilter_fallthrough {value : Value} (h : getMetadata ctx c.metadataKey = some value)
    (hnone : ∀ b ∈ c.branches, b.1.eq value = false) :
    matchFilter (some c) ctx getMetadata andThen = andThen ctx c.fallthrough := by
  have hfind : c.branches.find? (fun branch => branch.1.eq value) = none :=
    List.find?_eq_none.mpr fun b hb => by rw [hnone b hb]; decide
  rw [matchFilter_of_getMetadata c andThen h, hfind]
  rfl

end Run

/-- `==` on metadata values is reflexive and holds of values `cmp` finds `Equal`, but it is neither
symmetric nor transitive, and it holds of values `cmp` does not find `Equal`: a `Number` is `==` to
the `Bytes` of its byte but not the other way, and that `Bytes` is `==` to the `String` of the
byte, which the `Number` is not. So a branch matching `Number(1)` runs for a packet whose value
is `Bytes([1])`, and a branch matching `Bytes([1])` does not run for a packet whose value is
`Number(1)`. -/
theorem valueEq_notEquivalence :
    (∀ a : Value, a.eq a = true) ∧
    (∀ a b : Value, a.cmp b = .eq → a.eq b = true) ∧
    ¬ (∀ a b : Value, a.eq b = true → b.eq a = true) ∧
    ¬ (∀ a b c : Value, a.eq b = true → b.eq c = true → a.eq c = true) ∧
    (∃ a b : Value, a.eq b = true ∧ a.cmp b ≠ .eq) ∧
    ∀ {K F Ctx : Type} (key : K) (inst fallthrough : F) (ctx : Ctx)
      (andThen : Ctx → F → Except FilterError Ctx),
      matchFilter (some ⟨key, [(.number 1, inst)], fallthrough⟩) ctx
          (fun _ _ => some (.bytes [1])) andThen = andThen ctx inst ∧
        matchFilter (some ⟨key, [(.bytes [1], inst)], fallthrough⟩) ctx
          (fun _ _ => some (.number 1)) andThen = andThen ctx fallthrough := by
  have hnb : (Value.number 1).eq (.bytes [1]) = true := by decide
  have hbn : (Value.bytes [1]).eq (.number 1) = false := by decide
  refine ⟨Value.eq_self, fun a b h => Value.eq_true_of_cmp_eq h, ?_, ?_,
    ⟨.number 1, .bytes [1], hnb, by decide⟩, ?_⟩
  · intro hsymm
    rw [hsymm _ _ hnb] at hbn
    cases hbn
  · -- `Number(97) == Bytes([97]) == String("a")`, and a `Number` is `==` to no `String`
    intro htrans
    have hbs : (Value.bytes [97]).eq (.string "a") = true := by decide
    have hns : (Value.number 97).eq (.string "a") = true := htrans _ _ _ (by decide) hbs
    cases hns
  · intro K F Ctx key inst fallthrough ctx andThen
    exact ⟨matchFilter_runs_first _ andThen rfl [] rfl (by simp) hnb,
      matchFilter_fallthrough _ andThen rfl (by simp [hbn])⟩

end Quilkin.Filters
