import Quilkin.Corrosion.Proofs.ChangesProofs
import Mathlib.Data.List.Nodup

/-!
# Proofs: the seen cache forgets under the wrong actor

The cache keeps one entry a key, as the `IndexMap` does (`run_seen_nodup`). Every entry that a
change received adds, changes or removes is an entry of the change's own actor: the entries it
registers, and also the entries the loop over the changes dropped from a full queue touches,
since that loop looks them up under the actor of the change received, not of the change
dropped (`receiveChange_agreeOff`). A change dropped by a change of another actor thus stays
in the cache as it was, and when it arrives again it is skipped, though it was never applied;
the entries at its versions of the actor that arrived lose its sequence numbers instead
(`receiveChange_keeps_evicted_seen`).
-/

namespace Quilkin.Corrosion.Changes

set_option linter.unusedSectionVars false

variable {I : Type} [DecidableEq I]

namespace Seen

/-- One entry a key. -/
def Nodup (seen : Seen I) : Prop := (seen.map (·.1)).Nodup

/-- Two caches hold the same entries for the keys of every actor but `actorId`. -/
def AgreeOff (actorId : I) (seen seen' : Seen I) : Prop :=
  ∀ e : (I × Nat) × SeqSet, e.1.1 ≠ actorId → (e ∈ seen ↔ e ∈ seen')

variable {actorId : I} {seen seen' seen'' : Seen I} {key : I × Nat}

theorem AgreeOff.refl (seen : Seen I) : AgreeOff actorId seen seen := fun _ _ => Iff.rfl

theorem AgreeOff.trans (h : AgreeOff actorId seen seen') (h' : AgreeOff actorId seen' seen'') :
    AgreeOff actorId seen seen'' :=
  fun e he => (h e he).trans (h' e he)

/-- With one entry a key, `get` finds the sequence numbers of the key's entry. -/
theorem get?_eq_some_iff (hnd : seen.Nodup) {seqs : SeqSet} :
    seen.get? key = some seqs ↔ (key, seqs) ∈ seen := by
  constructor
  · intro h
    obtain ⟨e, hfind, rfl⟩ := Option.map_eq_some_iff.mp h
    have hkey : e.1 = key := by simpa using List.find?_some hfind
    rw [← hkey]
    exact List.mem_of_find?_eq_some hfind
  · intro hmem
    cases hfind : seen.find? (·.1 == key) with
    | none => exact absurd (List.find?_eq_none.mp hfind _ hmem) (by simp)
    | some e =>
      -- the entry found has the key, and the key has one entry
      have hkey : e.1 = key := by simpa using List.find?_some hfind
      have he := List.inj_on_of_nodup_map hnd (List.mem_of_find?_eq_some hfind) hmem hkey
      simp [get?, hfind, he]

theorem containsKey_iff : seen.containsKey key = true ↔ ∃ seqs, (key, seqs) ∈ seen := by
  simp [containsKey]

/-- Caches that agree off an actor give the same answer for the keys of any other actor. -/
theorem AgreeOff.containsKey_eq (h : AgreeOff actorId seen seen') (hkey : key.1 ≠ actorId) :
    seen.containsKey key = seen'.containsKey key := by
  apply Bool.eq_iff_iff.mpr
  simp only [containsKey_iff]
  exact exists_congr fun seqs => h (key, seqs) hkey

/-- With one entry a key, they also find the same sequence numbers for them. -/
theorem AgreeOff.get?_eq (h : AgreeOff actorId seen seen') (hnd : seen.Nodup) (hnd' : seen'.Nodup)
    (hkey : key.1 ≠ actorId) : seen.get? key = seen'.get? key := by
  apply Option.ext
  intro seqs
  rw [get?_eq_some_iff hnd, get?_eq_some_iff hnd']
  exact h (key, seqs) hkey

end Seen

open Seen

/-- The check that skips a change of another actor gives the same answer. -/
theorem alreadySeen_eq_of_agreeOff {actorId : I} {seen seen' : Seen I}
    (h : AgreeOff actorId seen seen') (hnd : seen.Nodup) (hnd' : seen'.Nodup) {change : Change I}
    (hactor : change.actorId ≠ actorId) : alreadySeen seen change = alreadySeen seen' change := by
  unfold alreadySeen
  cases change.seqs with
  | some seqs => rw [h.get?_eq hnd hnd' hactor]
  | none => exact List.all_congr rfl fun v => h.containsKey_eq hactor

/-! ## One version forgotten or registered -/

section Versions

variable {actorId : I} {seen : Seen I} {v : Nat}

/-- The entry `forgetVersion` looks up has the key it looks for. -/
theorem index?_eq_some {key : I × Nat} {i : Nat} (h : seen.index? key = some i) :
    ∃ hi : i < seen.length, seen[i].1 = key := by
  obtain ⟨hi, hkey, -⟩ := List.findIdx?_eq_some_iff_getElem.mp h
  exact ⟨hi, by simpa using hkey⟩

/-- Forgetting a version touches one entry, of the key `(actorId, v)`. -/
theorem forgetVersion_agreeOff (dropped : Change I) :
    AgreeOff actorId seen (forgetVersion actorId dropped seen v) := by
  unfold forgetVersion
  cases hi : seen.index? (actorId, v) with
  | none => exact AgreeOff.refl seen
  | some i =>
    obtain ⟨hlt, hkey⟩ := index?_eq_some hi
    intro e he
    cases dropped.seqs with
    | some seqs =>
      -- the entry rewritten keeps its key, which is not `e`'s
      obtain ⟨l₁, a, l₂, hseen, hlen, hmod⟩ := List.exists_of_modify
        (fun e => (e.1, e.2.remove seqs)) hlt
      have ha : a = seen[i] := by simp [hseen, ← hlen]
      have hne : e.1 ≠ a.1 := fun h => he (by rw [h, ha, hkey])
      dsimp only
      rw [hmod]
      conv_lhs => rw [hseen]
      simp only [List.mem_append, List.mem_cons]
      constructor
      · rintro (h | rfl | h)
        · exact .inl h
        · exact absurd rfl hne
        · exact .inr (.inr h)
      · rintro (h | rfl | h)
        · exact .inl h
        · exact absurd rfl hne
        · exact .inr (.inr h)
    | none =>
      dsimp only
      cases hswap : Vec.swapRemove seen i with
      | none => exact Iff.rfl
      | some r =>
        -- the entry removed is the one at `i`, and the rest is kept
        obtain ⟨a, rest⟩ := r
        obtain ⟨hi', ha⟩ := Vec.swapRemove_getElem hswap
        have hne : e ≠ a := fun h => he (by rw [h, ← ha, hkey])
        rw [Option.map_some, Option.getD_some, (Vec.swapRemove_perm hswap).mem_iff,
          List.mem_cons]
        exact ⟨fun h => h.resolve_left hne, .inr⟩

theorem nodup_forgetVersion (dropped : Change I) (hnd : seen.Nodup) :
    (forgetVersion actorId dropped seen v).Nodup := by
  unfold forgetVersion
  cases hi : seen.index? (actorId, v) with
  | none => exact hnd
  | some i =>
    cases dropped.seqs with
    | some seqs =>
      -- the keys are those of `seen`
      have hkeys : (seen.modify i fun e => (e.1, e.2.remove seqs)).map (·.1) = seen.map (·.1) := by
        apply List.ext_getElem (by simp)
        intro j h₁ h₂
        by_cases hij : i = j
        · subst hij; simp
        · simp [List.getElem_modify_ne _ _ hij]
      dsimp only
      unfold Nodup
      rw [hkeys]
      exact hnd
    | none =>
      dsimp only
      cases hswap : Vec.swapRemove seen i with
      | none => exact hnd
      | some r =>
        have hperm := (Vec.swapRemove_perm hswap).map (·.1)
        exact (List.nodup_cons.mp (hperm.nodup_iff.mp hnd)).2

/-- Registering a version touches entries of the key `(change.actorId, v)` only. -/
theorem registerVersion_agreeOff (change : Change I) :
    AgreeOff change.actorId seen (registerVersion change seen v) := by
  intro e he
  have hkey : e.1 ≠ (change.actorId, v) := fun h => he (by rw [h])
  -- the entry `or_default` may add is of the key
  have hadded : (e ∈ if seen.containsKey (change.actorId, v) then seen
      else seen ++ [((change.actorId, v), [])]) ↔ e ∈ seen := by
    split_ifs
    · exact Iff.rfl
    · simp only [List.mem_append, List.mem_singleton]
      exact ⟨fun h => h.resolve_right fun h' => hkey (by rw [h']), .inl⟩
  unfold registerVersion
  dsimp only
  cases change.seqs with
  | none => exact hadded.symm
  | some seqs =>
    -- `extend` rewrites the entries of the key only
    dsimp only
    rw [List.mem_map, ← hadded]
    constructor
    · intro h
      exact ⟨e, h, by simp [hkey]⟩
    · rintro ⟨x, hx, rfl⟩
      by_cases hx' : x.1 = (change.actorId, v)
      · exact (he (by simp [hx'])).elim
      · simpa [hx'] using hx

theorem nodup_registerVersion (change : Change I) (hnd : seen.Nodup) :
    (registerVersion change seen v).Nodup := by
  have hadded : (if seen.containsKey (change.actorId, v) then seen
      else seen ++ [((change.actorId, v), [])]).Nodup := by
    split_ifs with hc
    · exact hnd
    · -- the key had no entry
      unfold Nodup
      rw [List.map_append, List.nodup_append]
      refine ⟨hnd, List.nodup_singleton _, ?_⟩
      intro a ha b hb
      simp only [List.map_cons, List.map_nil, List.mem_singleton] at hb
      subst hb
      rintro rfl
      obtain ⟨x, hx, hxa⟩ := List.mem_map.mp ha
      exact hc (containsKey_iff.mpr ⟨x.2, by rw [← hxa]; exact hx⟩)
  unfold registerVersion
  dsimp only
  cases change.seqs with
  | none => exact hadded
  | some seqs =>
    dsimp only
    unfold Nodup at hadded ⊢
    rw [List.map_map]
    convert hadded using 2
    funext x
    simp only [Function.comp_apply]
    split_ifs <;> rfl

/-- A loop over versions whose body touches the entries of one actor only. -/
theorem foldl_agreeOff {f : Seen I → Nat → Seen I}
    (hf : ∀ seen v, seen.Nodup → AgreeOff actorId seen (f seen v) ∧ (f seen v).Nodup)
    (vs : List Nat) (hnd : seen.Nodup) :
    AgreeOff actorId seen (vs.foldl f seen) ∧ (vs.foldl f seen).Nodup := by
  induction vs generalizing seen with
  | nil => exact ⟨AgreeOff.refl seen, hnd⟩
  | cons v vs ih =>
    obtain ⟨hagree, hnd'⟩ := hf seen v hnd
    obtain ⟨hagree', hnd''⟩ := ih hnd'
    exact ⟨hagree.trans hagree', hnd''⟩

theorem forgetDropped_agreeOff (dropped : Change I) (hnd : seen.Nodup) :
    AgreeOff actorId seen (forgetDropped actorId dropped seen) ∧
      (forgetDropped actorId dropped seen).Nodup :=
  foldl_agreeOff (fun _ _ hnd => ⟨forgetVersion_agreeOff dropped, nodup_forgetVersion dropped hnd⟩)
    _ hnd

theorem registerSeen_agreeOff (change : Change I) (hnd : seen.Nodup) :
    AgreeOff change.actorId seen (registerSeen change seen) ∧ (registerSeen change seen).Nodup :=
  foldl_agreeOff
    (fun _ _ hnd => ⟨registerVersion_agreeOff change, nodup_registerVersion change hnd⟩) _ hnd

end Versions

/-! ## The loop -/

section Loop

variable {opts : ChangeOptions} {self : I} {booked : Change I → Bool} {now : Nat}

/-- The loop over the changes dropped from a full queue touches the entries of `actorId` only,
whichever actor each dropped change is of. -/
theorem dropOldChanges_agreeOff {actorId : I} {seen seen' : Seen I} {s s' : HandleChangesState I}
    (h : dropOldChanges opts actorId seen s = some (seen', s')) (hnd : seen.Nodup) :
    AgreeOff actorId seen seen' ∧ seen'.Nodup := by
  -- one change dropped, and its versions forgotten, a turn
  fun_induction dropOldChanges opts actorId seen s with
  | case1 seen s hdrop => cases h
  | case2 seen s s₁ hdrop =>
    cases h
    exact ⟨AgreeOff.refl _, hnd⟩
  | case3 seen s dropped s₁ hdrop hlt ih =>
    obtain ⟨hagree, hnd₁⟩ := forgetDropped_agreeOff dropped hnd
    obtain ⟨hagree', hnd'⟩ := ih h hnd₁
    exact ⟨hagree.trans hagree', hnd'⟩

/-- A change received touches the entries of its own actor only. -/
theorem receiveChange_agreeOff {l l' : Loop I} {change : Change I}
    (h : receiveChange opts self booked now l change = some l') (hnd : l.seen.Nodup) :
    AgreeOff change.actorId l.seen l'.seen ∧ l'.seen.Nodup := by
  unfold receiveChange at h
  split_ifs at h
  · cases h; exact ⟨AgreeOff.refl _, hnd⟩
  · cases h; exact ⟨AgreeOff.refl _, hnd⟩
  · cases h; exact ⟨AgreeOff.refl _, hnd⟩
  · cases hdrop : dropOldChanges opts change.actorId l.seen l.state with
    | none => rw [hdrop] at h; cases h
    | some r =>
      obtain ⟨seen₁, s₁⟩ := r
      rw [hdrop] at h
      simp only [Option.bind_eq_bind, Option.bind_some, Option.bind_eq_some_iff,
        Option.some.injEq] at h
      obtain ⟨s₂, -, rfl⟩ := h
      obtain ⟨hagree, hnd₁⟩ := dropOldChanges_agreeOff hdrop hnd
      obtain ⟨hagree', hnd₂⟩ := registerSeen_agreeOff change hnd₁
      exact ⟨hagree.trans hagree', hnd₂⟩

theorem foldlM_receiveChange_nodup (changes : List (Change I)) {l l' : Loop I}
    (h : changes.foldlM (receiveChange opts self booked now) l = some l') (hnd : l.seen.Nodup) :
    l'.seen.Nodup := by
  induction changes generalizing l with
  | nil =>
    cases h
    exact hnd
  | cons change changes ih =>
    rw [List.foldlM_cons] at h
    obtain ⟨l₁, h₁, h₂⟩ := Option.bind_eq_some_iff.mp h
    exact ih h₂ (receiveChange_agreeOff h₁ hnd).2

/-- One iteration keeps one entry a key: the cleanup of the timer keeps the newest entries. -/
theorem step_seen_nodup {l l' : Loop I} {e : Event I}
    (h : step opts self now l e = some (some l')) (hnd : l.seen.Nodup) : l'.seen.Nodup := by
  cases e with
  | taskCompleted result =>
    simp only [step] at h
    split_ifs at h
    · obtain ⟨s', -, hl⟩ := Option.map_eq_some_iff.mp h
      cases hl
      exact hnd
    · cases h
      exact hnd
  | received changes booked =>
    obtain ⟨l₁, hfold, hl⟩ := Option.map_eq_some_iff.mp h
    cases hl
    exact foldlM_receiveChange_nodup changes hfold hnd
  | timeout =>
    simp only [step] at h
    by_cases hw : l.state.maxWait
    · rw [if_pos hw] at h
      obtain ⟨s', -, hl⟩ := Option.map_eq_some_iff.mp h
      cases hl
      dsimp only
      split_ifs
      · unfold Seen.Nodup at hnd ⊢
        rw [List.map_drop]
        exact hnd.sublist (List.drop_sublist _ _)
      · exact hnd
    · rw [if_neg hw] at h
      cases h
      exact hnd
  | closed => cases h

/-- Along every run, the cache keeps one entry a key. -/
theorem run_seen_nodup {l l' : Loop I} {events : List (Nat × Event I)}
    (h : run opts self l events = some (some l')) (hnd : l.seen.Nodup) : l'.seen.Nodup :=
  run_invariant (fun l => l.seen.Nodup) (fun _ _ _ _ hnd hs => step_seen_nodup hs hnd) h hnd

/-- Receiving a change leaves the cache's answer for every change of another actor as it was,
also for a change that the receipt drops from a full queue: its versions stay seen, and its
next arrival is skipped though it was never applied. In the run below, the queue holds one
change; the change of actor `0` at version `1` is dropped by one of actor `1`, and skipped when
it arrives again; the change of actor `1` is then dropped by a second change of actor `0`, which
takes the sequence numbers off the entry of actor `0` at version `1`, and is skipped in its
turn. Neither dropped change is ever handed to a task. -/
theorem receiveChange_keeps_evicted_seen :
    (∀ (opts : ChangeOptions) (self : I) (booked : Change I → Bool) (now : Nat) (l l' : Loop I)
        (change other : Change I),
        l.seen.Nodup → other.actorId ≠ change.actorId →
        receiveChange opts self booked now l change = some l' →
        alreadySeen l'.seen other = alreadySeen l.seen other) ∧
      (∀ (opts : ChangeOptions) (self : I) (events : List (Nat × Event I)) (l : Loop I),
        run opts self (init opts) events = some (some l) → l.seen.Nodup) ∧
      run (I := Nat) ⟨1, 2, 0, 2, 1, 0⟩ 2 (init ⟨1, 2, 0, 2, 1, 0⟩)
          [(0, .received [⟨0, (1, 1), some (0, 0), 1⟩] fun _ => false),
            (1, .received [⟨1, (1, 1), some (0, 0), 1⟩] fun _ => false),
            (2, .received [⟨0, (1, 1), some (0, 0), 1⟩] fun _ => false),
            (3, .received [⟨0, (2, 2), some (0, 0), 1⟩] fun _ => false),
            (4, .received [⟨1, (1, 1), some (0, 0), 1⟩] fun _ => false)] =
        some (some ⟨⟨[⟨0, (2, 2), some (0, 0), 1⟩], 1, 2, none, true, none⟩,
          [((0, 1), []), ((1, 1), [(0, 0)]), ((0, 2), [(0, 0)])]⟩) := by
  refine ⟨fun opts self booked now l l' change other hnd hactor h => ?_,
    fun opts self events l h => run_seen_nodup h List.nodup_nil, by decide +kernel⟩
  obtain ⟨hagree, hnd'⟩ := receiveChange_agreeOff h hnd
  exact (alreadySeen_eq_of_agreeOff hagree hnd hnd' hactor).symm

end Loop

end Quilkin.Corrosion.Changes
