import Quilkin.Corrosion.SwimMembers
import Mathlib.Data.List.Find
import Mathlib.Data.List.Nodup

/-!
# Proofs: the entry `last_states` compares with

`foca_states` holds one state an id (`nodup_map_id_focaStates`). `last_states` only grows by
pushes at its end, and `find` returns the first entry of an id, so the entry a member is
compared with is the first one pushed for its id, not the last (`findLastState_collectUpdates`),
and `retain` keeps all entries of an id or none. Once a member's state has changed, the entry of
its first state stays first for as long as the member stays in foca's membership: the member is
written again at every call, and every call pushes one more entry of its id
(`SwimMembers.diffMemberStates_keeps_stale_entry`).
-/

namespace Quilkin.Corrosion.SwimMembers

set_option linter.unusedSectionVars false

variable {I A T K : Type} [DecidableEq I] [DecidableEq A] [DecidableEq T] [DecidableEq K] [LT T]
  [DecidableRel (α := T) (· < ·)]

/-! ## One state an id -/

theorem map_id_insertFocaState (states : List (Member I A T K)) (member : Member I A T K) :
    (insertFocaState states member).map (·.id.id) =
      if member.id.id ∈ states.map (·.id.id) then states.map (·.id.id)
      else states.map (·.id.id) ++ [member.id.id] := by
  induction states with
  | nil => simp [insertFocaState]
  | cons existing rest ih =>
    by_cases h : existing.id.id = member.id.id
    · -- the state at the head is the id's, and stays in its place
      have hin : member.id.id ∈ (existing :: rest).map (·.id.id) := by simp [h]
      rw [insertFocaState, if_pos h, if_pos hin]
      split_ifs <;> simp [h]
    · rw [insertFocaState, if_neg h, List.map_cons, ih]
      by_cases hm : member.id.id ∈ rest.map (·.id.id) <;> simp [hm, Ne.symm h]

theorem nodup_map_id_focaStates (membership : List (Member I A T K)) :
    ((focaStates membership).map (·.id.id)).Nodup := by
  suffices h : ∀ states : List (Member I A T K), (states.map (·.id.id)).Nodup →
      ((membership.foldl insertFocaState states).map (·.id.id)).Nodup from h [] List.nodup_nil
  induction membership with
  | nil => exact fun _ h => h
  | cons member membership ih =>
    intro states h
    apply ih
    rw [map_id_insertFocaState]
    split_ifs with hm
    · exact h
    · refine List.nodup_append.mpr ⟨h, List.nodup_singleton _, ?_⟩
      intro a ha b hb
      rw [List.mem_singleton] at hb
      subst hb
      exact fun e => hm (e ▸ ha)

/-- The state `find` takes for the id of a member of `foca_states` is that member. -/
theorem find?_focaStates {membership : List (Member I A T K)} {member : Member I A T K}
    (hm : member ∈ focaStates membership) :
    (focaStates membership).find? (fun fs => fs.id.id = member.id.id) = some member := by
  cases h : (focaStates membership).find? (fun fs => fs.id.id = member.id.id) with
  | none => exact absurd (List.find?_eq_none.mp h member hm) (by simp)
  | some fs =>
    have hid : fs.id.id = member.id.id := by simpa using List.find?_some h
    rw [List.inj_on_of_nodup_map (nodup_map_id_focaStates membership)
      (List.mem_of_find?_eq_some h) hm hid]

/-- `retain` keeps every entry of the id of a member of this cluster member. -/
theorem keepLastState_of_id_eq {memberId : K} {membership : List (Member I A T K)}
    {member : Member I A T K} {entry : LastState I A T K} (hm : member ∈ focaStates membership)
    (hmid : member.id.memberId = memberId) (hid : entry.1.id.id = member.id.id) :
    keepLastState memberId (focaStates membership) entry = true := by
  unfold keepLastState
  rw [hid, find?_focaStates hm]
  simp [hmid]

/-! ## Pushes to `last_states` -/

section Pushes

variable (memberId : K) (rttMin : A → Option UInt64)

theorem updateMemberState_snd (lastStates : List (LastState I A T K)) (member : Member I A T K) :
    (updateMemberState memberId rttMin lastStates member).2 =
      lastStates ++ (updateMemberState memberId rttMin lastStates member).1.toList := by
  unfold updateMemberState
  split_ifs with h
  · simp
  · dsimp only
    split
    · rfl
    · split_ifs <;> simp

theorem collectUpdates_cons (lastStates : List (LastState I A T K)) (member : Member I A T K)
    (members : List (Member I A T K)) :
    collectUpdates memberId rttMin lastStates (member :: members) =
      let step := updateMemberState memberId rttMin lastStates member
      (step.1.toList ++ (collectUpdates memberId rttMin step.2 members).1,
        (collectUpdates memberId rttMin step.2 members).2) :=
  rfl

/-- `last_states` after the pushes is `last_states` before them and then `to_update`. -/
theorem collectUpdates_snd (lastStates : List (LastState I A T K))
    (members : List (Member I A T K)) :
    (collectUpdates memberId rttMin lastStates members).2 =
      lastStates ++ (collectUpdates memberId rttMin lastStates members).1 := by
  induction members generalizing lastStates with
  | nil => simp [collectUpdates]
  | cons member members ih =>
    rw [collectUpdates_cons]
    dsimp only
    rw [ih, updateMemberState_snd, List.append_assoc]

end Pushes

section Find

variable {memberId : K} {rttMin : A → Option UInt64} {member : Member I A T K}
  {e : LastState I A T K}

theorem findLastState_append {lastStates : List (LastState I A T K)}
    (more : List (LastState I A T K)) (h : findLastState lastStates member = some e) :
    findLastState (lastStates ++ more) member = some e := by
  unfold findLastState at *
  rw [List.find?_append, h, Option.some_or]

/-- Pushes never change the entry found for an id that has one. -/
theorem findLastState_collectUpdates {lastStates : List (LastState I A T K)}
    (h : findLastState lastStates member = some e) (members : List (Member I A T K)) :
    findLastState (collectUpdates memberId rttMin lastStates members).2 member = some e := by
  rw [collectUpdates_snd]
  exact findLastState_append _ h

/-- A filter that keeps every entry of an id keeps the entry found for it. -/
theorem findLastState_filter {lastStates : List (LastState I A T K)}
    {keep : LastState I A T K → Bool} (hkeep : ∀ x, x.1.id.id = member.id.id → keep x = true)
    (h : findLastState lastStates member = some e) :
    findLastState (lastStates.filter keep) member = some e := by
  unfold findLastState at *
  rw [List.find?_filter, ← h]
  apply List.find?_congr
  intro x _
  by_cases hx : x.1.id.id = member.id.id
  · simp [hx, hkeep x hx]
  · simp [hx]

/-- A member whose first entry differs from it is reported. -/
theorem updateMemberState_of_ne {lastStates : List (LastState I A T K)}
    (hmid : member.id.memberId = memberId) (he : findLastState lastStates member = some e)
    (hne : e ≠ (member, rttMin member.id.addr)) :
    (updateMemberState memberId rttMin lastStates member).1 =
      some (member, rttMin member.id.addr) := by
  unfold updateMemberState
  rw [if_neg (not_not.mpr hmid)]
  dsimp only
  rw [he]
  dsimp only
  rw [if_pos]
  -- two pairs that differ differ in one of their parts
  by_contra h
  rw [not_or, not_not, not_not] at h
  exact hne (Prod.ext h.1 h.2)

theorem mem_collectUpdates_of_ne (hmid : member.id.memberId = memberId)
    (hne : e ≠ (member, rttMin member.id.addr)) {members : List (Member I A T K)}
    (hm : member ∈ members) {lastStates : List (LastState I A T K)}
    (he : findLastState lastStates member = some e) :
    (member, rttMin member.id.addr) ∈ (collectUpdates memberId rttMin lastStates members).1 := by
  induction members generalizing lastStates with
  | nil => exact absurd hm List.not_mem_nil
  | cons m members ih =>
    rw [collectUpdates_cons]
    dsimp only
    rcases List.mem_cons.mp hm with rfl | hm'
    · -- the member itself: reported at its turn
      rw [updateMemberState_of_ne hmid he hne]
      exact List.mem_append_left _ (List.mem_singleton_self _)
    · -- another member first: its push comes after the entry found
      refine List.mem_append_right _ (ih hm' ?_)
      rw [updateMemberState_snd]
      exact findLastState_append _ he

end Find

/-! ## A call of `diff_member_states` -/

theorem diffMemberStates_lastStates (memberId : K) (rttMin : A → Option UInt64)
    (membership : List (Member I A T K)) (lastStates : List (LastState I A T K)) :
    (diffMemberStates memberId rttMin membership lastStates).2.2 =
      (lastStates ++ (diffMemberStates memberId rttMin membership lastStates).1).filter
        (keepLastState memberId (focaStates membership)) := by
  unfold diffMemberStates
  dsimp only
  rw [collectUpdates_snd]

/-- Once the first entry of a member's id differs from its state and round-trip time, a call
reports the member, keeps that entry first, and holds it and the member's new entry both. In
the run where a member goes from alive to suspect and stays suspect, the second call leaves two
entries of its id, and the third reports it again. -/
theorem diffMemberStates_keeps_stale_entry :
    (∀ (memberId : K) (rttMin : A → Option UInt64) (membership : List (Member I A T K))
        (lastStates : List (LastState I A T K)) (member : Member I A T K)
        (e : LastState I A T K),
        member ∈ focaStates membership → member.id.memberId = memberId →
        findLastState lastStates member = some e → e ≠ (member, rttMin member.id.addr) →
        (member, rttMin member.id.addr) ∈
            (diffMemberStates memberId rttMin membership lastStates).1 ∧
          e ∈ (diffMemberStates memberId rttMin membership lastStates).2.2 ∧
          (member, rttMin member.id.addr) ∈
            (diffMemberStates memberId rttMin membership lastStates).2.2 ∧
          findLastState (diffMemberStates memberId rttMin membership lastStates).2.2 member =
            some e) ∧
      diffRun (I := Nat) (A := Nat) (T := Nat) (K := Nat) 0
          [([⟨⟨0, 0, 0, 0⟩, 0, .alive⟩], fun _ => none),
            ([⟨⟨0, 0, 0, 0⟩, 0, .suspect⟩], fun _ => none),
            ([⟨⟨0, 0, 0, 0⟩, 0, .suspect⟩], fun _ => none)] [] =
        ([[(⟨⟨0, 0, 0, 0⟩, 0, .alive⟩, none)], [(⟨⟨0, 0, 0, 0⟩, 0, .suspect⟩, none)],
            [(⟨⟨0, 0, 0, 0⟩, 0, .suspect⟩, none)]],
          [(⟨⟨0, 0, 0, 0⟩, 0, .alive⟩, none), (⟨⟨0, 0, 0, 0⟩, 0, .suspect⟩, none),
            (⟨⟨0, 0, 0, 0⟩, 0, .suspect⟩, none)]) := by
  refine ⟨?_, rfl⟩
  intro memberId rttMin membership lastStates member e hm hmid he hne
  have hkeep : ∀ x : LastState I A T K, x.1.id.id = member.id.id →
      keepLastState memberId (focaStates membership) x = true :=
    fun x hx => keepLastState_of_id_eq hm hmid hx
  have hreport := mem_collectUpdates_of_ne hmid hne hm he
  have heid : e.1.id.id = member.id.id := by simpa [findLastState] using List.find?_some he
  have hupdate : (member, rttMin member.id.addr) ∈
      (diffMemberStates memberId rttMin membership lastStates).1 := hreport
  refine ⟨hupdate, ?_, ?_, ?_⟩
  · rw [diffMemberStates_lastStates, List.mem_filter]
    exact ⟨List.mem_append_left _ (List.mem_of_find?_eq_some he), hkeep e heid⟩
  · rw [diffMemberStates_lastStates, List.mem_filter]
    exact ⟨List.mem_append_right _ hupdate, hkeep _ rfl⟩
  · rw [diffMemberStates_lastStates]
    exact findLastState_filter hkeep (findLastState_append _ he)

end Quilkin.Corrosion.SwimMembers
