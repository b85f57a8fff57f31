import Mathlib.Data.List.Basic

/-!
# The membership the SWIM loop persists

Model of `diff_member_states` (`crates/corrosion/src/gossip/swim.rs`). After foca has handled
its input, the loop takes foca's membership, keeps one state for each actor id (the one of the
newest identity), and compares the states of the members of this cluster member with
`last_states`, the states it last wrote to the members table: a state is written again, and
pushed to `last_states`, when the first entry of its id there differs from it or its minimum
round-trip time. Entries whose id is no longer foca's, or belongs to another cluster member, are
removed from `last_states` and their ids deleted from the table.

corro_types' `Actor` is outside the repository; what the function reads of it (`id`, `addr`,
`ts`, `member_id`) are the fields of `Actor`, over types of the caller's choice, and its equality
is that of the fields. The round-trip times the members record for an address enter as their
minimum, a function of the address. The notifications sent for members that came up or went down
and the task that writes the table are not modelled.
-/

namespace Quilkin.Corrosion

namespace Foca

/-- `foca::State`. -/
inductive State
  | alive
  | suspect
  | down
  deriving DecidableEq, Repr

/-- `foca::Member`: an identity, its incarnation and its state. -/
structure Member (T : Type) where
  id : T
  incarnation : UInt16
  state : State
  deriving DecidableEq, Repr

end Foca

/-- What the loop reads of an `Actor`: its id, its address, the timestamp of the identity, and
the cluster member it belongs to. -/
structure Actor (I A T K : Type) where
  id : I
  addr : A
  ts : T
  memberId : K
  deriving DecidableEq, Repr

namespace SwimMembers

variable {I A T K : Type} [DecidableEq I] [DecidableEq A] [DecidableEq T] [DecidableEq K] [LT T]
  [DecidableRel (α := T) (· < ·)]

/-- A member of foca's membership. -/
abbrev Member (I A T K : Type) := Foca.Member (Actor I A T K)

/-- An entry of `last_states`: a member and the minimum round-trip time written with it. -/
abbrev LastState (I A T K : Type) := Member I A T K × Option UInt64

/-- One member of `iter_membership_state` taken into `foca_states`: the first state of its id
is replaced when the member's identity is newer, and the member is pushed when its id has none. -/
def insertFocaState : List (Member I A T K) → Member I A T K → List (Member I A T K)
  | [], member => [member]
  | existing :: rest, member =>
    if existing.id.id = member.id.id then
      (if existing.id.ts < member.id.ts then member else existing) :: rest
    else existing :: insertFocaState rest member

/-- `foca_states`: one state for each actor id of the membership. -/
def focaStates (membership : List (Member I A T K)) : List (Member I A T K) :=
  membership.foldl insertFocaState []

/-- The first entry of `last_states` with the id of `member`, as `find` returns it. -/
def findLastState (lastStates : List (LastState I A T K)) (member : Member I A T K) :
    Option (LastState I A T K) :=
  lastStates.find? fun ls => ls.1.id.id = member.id.id

/-- The closure of the `filter_map` that builds `to_update`, on one member: nothing for a member
of another cluster member; otherwise the member and its minimum round-trip time, also pushed to
`last_states`, when no entry of its id is found or the entry found differs. -/
def updateMemberState (memberId : K) (rttMin : A → Option UInt64)
    (lastStates : List (LastState I A T K)) (member : Member I A T K) :
    Option (LastState I A T K) × List (LastState I A T K) :=
  if member.id.memberId ≠ memberId then (none, lastStates)
  else
    let rtt := rttMin member.id.addr
    match findLastState lastStates member with
    | none => (some (member, rtt), lastStates ++ [(member, rtt)])
    | some prev =>
      if prev.1 ≠ member ∨ prev.2 ≠ rtt then (some (member, rtt), lastStates ++ [(member, rtt)])
      else (none, lastStates)

/-- `to_update`, collected over `foca_states`, and `last_states` after the pushes. -/
def collectUpdates (memberId : K) (rttMin : A → Option UInt64) :
    List (LastState I A T K) → List (Member I A T K) →
      List (LastState I A T K) × List (LastState I A T K)
  | lastStates, [] => ([], lastStates)
  | lastStates, member :: members =>
    let (update, lastStates) := updateMemberState memberId rttMin lastStates member
    let (updates, lastStates) := collectUpdates memberId rttMin lastStates members
    (update.toList ++ updates, lastStates)

/-- The closure of `retain`: an entry stays when the first foca state of its id is of this
cluster member. -/
def keepLastState (memberId : K) (states : List (Member I A T K)) (entry : LastState I A T K) :
    Bool :=
  match states.find? fun fs => fs.id.id = entry.1.id.id with
  | some fs => fs.id.memberId = memberId
  | none => false

/-- `diff_member_states`, for this cluster member `memberId`: `to_update`, `to_delete`, and
`last_states` after the call. -/
def diffMemberStates (memberId : K) (rttMin : A → Option UInt64)
    (membership : List (Member I A T K)) (lastStates : List (LastState I A T K)) :
    List (LastState I A T K) × List I × List (LastState I A T K) :=
  let states := focaStates membership
  let (toUpdate, lastStates) := collectUpdates memberId rttMin lastStates states
  let toDelete := (lastStates.filter fun e => !keepLastState memberId states e).map (·.1.id.id)
  (toUpdate, toDelete, lastStates.filter (keepLastState memberId states))

/-- Calls of `diff_member_states` one after the other, each with foca's membership and the
round-trip times of its time: the `to_update` of each, and `last_states` after the last. -/
def diffRun (memberId : K) :
    List (List (Member I A T K) × (A → Option UInt64)) → List (LastState I A T K) →
      List (List (LastState I A T K)) × List (LastState I A T K)
  | [], lastStates => ([], lastStates)
  | (membership, rttMin) :: rounds, lastStates =>
    let (toUpdate, _, lastStates) := diffMemberStates memberId rttMin membership lastStates
    let (toUpdates, lastStates) := diffRun memberId rounds lastStates
    (toUpdate :: toUpdates, lastStates)

end SwimMembers

end Quilkin.Corrosion
