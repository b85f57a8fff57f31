import Quilkin.Providers.Push

/-!
# Proofs: what the corrosion server ends up holding

The servers table is looked at one row at a time: every statement of the mutation protocol
changes only the row of its endpoint, depending only on that row (`submitChange_apply`). So is a
mutation on the channel, read against the local state as it stands when the pusher gets to it
(`Mutation.applyAt`). `PushSession.pendingAt` is the row the table will hold once the
accumulator and then the whole channel are flushed, one mutation at a time.

A connection keeps every server of the local state at its endpoint in that row
(`PushSession.Synced`): the mutator's calls append the mutations that set the rows they change,
and reading or flushing changes nothing in it, as long as endpoints stay unique and no batch
upserts an endpoint it already removes or updates. So once the channel is read and the
accumulator flushed, the corrosion server holds every server of the local state
(`push_converges`). A flush sends a batch's upserts before its removals, and the condition on
batches is needed: a server removed and another added at its endpoint in one batch window, as
`replace` does for a pod recreated at the address of the one it replaces (its calls run as events
do what it does, `exec_replaceCalls`), leaves the corrosion server without the new one
(`push_loses_reused_endpoint`).
-/

namespace Quilkin.Providers

open Corrosion

variable {Id Ep Ts : Type} [DecidableEq Id] [DecidableEq Ep]

/-! ## The table, row by row -/

section Rows

variable (p : Ep)

/-- What an upsert does to the row of `p`. -/
def upsertAt (row : Option Ts) (u : ServerUpsert Ep Ts) : Option Ts :=
  if u.endpoint = p then some u.tokens else row

/-- What a removal does to the row of `p`. -/
def removeAt (row : Option Ts) (endpoint : Ep) : Option Ts :=
  if endpoint = p then none else row

/-- What an update does to the row of `p`. -/
def updateAt (row : Option Ts) (u : ServerUpdate Ep Ts) : Option Ts :=
  if u.endpoint = p then
    match u.tokens, row with
    | some tokens, some _ => some tokens
    | _, _ => row
  else row

variable {p}

theorem upsert_apply (t : ServersTable Ep Ts) (u : ServerUpsert Ep Ts) :
    t.upsert u.endpoint u.tokens p = upsertAt p (t p) u := by
  by_cases h : u.endpoint = p
  · subst h
    simp [ServersTable.upsert, upsertAt]
  · simp [ServersTable.upsert, upsertAt, h, Ne.symm h]

theorem removeImmediate_apply (t : ServersTable Ep Ts) (endpoint : Ep) :
    t.removeImmediate endpoint p = removeAt p (t p) endpoint := by
  by_cases h : endpoint = p
  · subst h
    simp [ServersTable.removeImmediate, removeAt]
  · simp [ServersTable.removeImmediate, removeAt, h, Ne.symm h]

theorem update_apply (t : ServersTable Ep Ts) (u : ServerUpdate Ep Ts) :
    t.update u.endpoint u.tokens p = updateAt p (t p) u := by
  obtain ⟨endpoint, tokens⟩ := u
  by_cases h : endpoint = p
  · subst h
    cases tokens <;> cases hrow : t endpoint <;> simp [ServersTable.update, updateAt, hrow]
  · -- the statement writes another row, if any
    cases tokens <;> cases hrow : t endpoint <;>
      simp [ServersTable.update, updateAt, hrow, h, Ne.symm h]

/-- An upsert list leaves the row of an endpoint none of them writes. -/
theorem foldl_upsertAt_of_forall_ne {us : List (ServerUpsert Ep Ts)} (h : ∀ u ∈ us, u.endpoint ≠ p)
    (row : Option Ts) : us.foldl (upsertAt p) row = row := by
  induction us generalizing row with
  | nil => rfl
  | cons u us ih =>
    rw [List.foldl_cons, upsertAt, if_neg (h u (List.mem_cons_self ..)),
      ih fun u hu => h u (List.mem_cons_of_mem _ hu)]

/-- An upsert list whose upserts of an endpoint all carry one token set gives its row that set. -/
theorem foldl_upsertAt_of_mem {us : List (ServerUpsert Ep Ts)} {x : Ts}
    (hmem : ∃ u ∈ us, u.endpoint = p) (hx : ∀ u ∈ us, u.endpoint = p → u.tokens = x)
    (row : Option Ts) : us.foldl (upsertAt p) row = some x := by
  induction us generalizing row with
  | nil => simp at hmem
  | cons u us ih =>
    rw [List.foldl_cons]
    by_cases hrest : ∃ u ∈ us, u.endpoint = p
    · exact ih hrest (fun u hu => hx u (List.mem_cons_of_mem _ hu)) _
    · -- the first upsert is the only one of the endpoint
      have hu : u.endpoint = p := by
        obtain ⟨u', hu', hp⟩ := hmem
        rcases List.mem_cons.mp hu' with rfl | hu'
        · exact hp
        · exact absurd ⟨u', hu', hp⟩ hrest
      rw [foldl_upsertAt_of_forall_ne (fun u' hu' hp => hrest ⟨u', hu', hp⟩), upsertAt, if_pos hu,
        hx u (List.mem_cons_self ..) hu]

/-- Removals leave the row of an endpoint none of them removes. -/
theorem foldl_removeAt_of_not_mem {es : List Ep} (h : p ∉ es) (row : Option Ts) :
    es.foldl (removeAt p) row = row := by
  induction es generalizing row with
  | nil => rfl
  | cons e es ih =>
    rw [List.foldl_cons, removeAt, if_neg (fun he : e = p => h (he ▸ List.mem_cons_self ..)),
      ih fun hp => h (List.mem_cons_of_mem _ hp)]

/-- Removals make no row. -/
theorem foldl_removeAt_none (es : List Ep) : es.foldl (removeAt p) (none : Option Ts) = none := by
  induction es with
  | nil => rfl
  | cons e es ih =>
    rw [List.foldl_cons]
    have he : removeAt p (none : Option Ts) e = none := by
      by_cases h : e = p <;> simp [removeAt, h]
    rw [he, ih]

/-- Removals of an endpoint leave no row there, whatever there was. -/
theorem foldl_removeAt_of_mem {es : List Ep} (h : p ∈ es) (row : Option Ts) :
    es.foldl (removeAt p) row = none := by
  induction es generalizing row with
  | nil => cases h
  | cons e es ih =>
    rw [List.foldl_cons]
    rcases List.mem_cons.mp h with rfl | h
    · rw [removeAt, if_pos rfl, foldl_removeAt_none]
    · exact ih h _

theorem updateAt_of_ne {u : ServerUpdate Ep Ts} (h : u.endpoint ≠ p) (row : Option Ts) :
    updateAt p row u = row :=
  if_neg h

/-- Updates leave the row of an endpoint none of them updates. -/
theorem foldl_updateAt_of_forall_ne {us : List (ServerUpdate Ep Ts)} (h : ∀ u ∈ us, u.endpoint ≠ p)
    (row : Option Ts) : us.foldl (updateAt p) row = row := by
  induction us generalizing row with
  | nil => rfl
  | cons u us ih =>
    rw [List.foldl_cons, updateAt_of_ne (h u (List.mem_cons_self ..)),
      ih fun u hu => h u (List.mem_cons_of_mem _ hu)]

/-- Updates make no row. -/
theorem foldl_updateAt_none (us : List (ServerUpdate Ep Ts)) : us.foldl (updateAt p) none = none := by
  induction us with
  | nil => rfl
  | cons u us ih =>
    rw [List.foldl_cons]
    have hu : updateAt p none u = none := by
      obtain ⟨endpoint, tokens⟩ := u
      cases tokens <;> simp [updateAt]
    rw [hu, ih]

/-- An update with a token set writes it into the row of its endpoint, if there is one. -/
theorem updateAt_some (row : Option Ts) (endpoint : Ep) (x : Ts) :
    updateAt p row ⟨endpoint, some x⟩ = if endpoint = p then row.map fun _ => x else row := by
  cases row <;> simp [updateAt]

/-- Each change of a request, row by row. -/
theorem submitChange_apply {Mu : Type} (t : ServersTable Ep Ts) (c : PushChange Ep Ts Mu) :
    submitChange t c p =
      match c with
      | .upsert us => us.foldl (upsertAt p) (t p)
      | .remove rs => rs.foldl (removeAt p) (t p)
      | .update us => us.foldl (updateAt p) (t p)
      | .updateMutator _ => t p := by
  cases c with
  | upsert us =>
    exact (List.foldl_hom (fun t : ServersTable Ep Ts => t p) fun t u => (upsert_apply t u).symm).symm
  | remove rs =>
    exact (List.foldl_hom (fun t : ServersTable Ep Ts => t p) fun t e => (removeImmediate_apply t e).symm).symm
  | update us =>
    exact (List.foldl_hom (fun t : ServersTable Ep Ts => t p) fun t u => (update_apply t u).symm).symm
  | updateMutator m => rfl

end Rows

/-! ## The accumulator, row by row -/

namespace Accumulator

/-- The servers table after the accumulator is flushed into it. -/
def apply (acc : Accumulator Ep Ts) (t : ServersTable Ep Ts) : ServersTable Ep Ts := submit t acc.flush.1

/-- A list of the accumulator is sent only when it is not empty, which changes nothing in the
table, as a change with no element is no statement. -/
theorem submit_nonEmpty {β : Type} (c : List β → PushChange Ep Ts Unit)
    (hc : ∀ t : ServersTable Ep Ts, submitChange t (c []) = t) (t : ServersTable Ep Ts) (l : List β)
    (rest : List (PushChange Ep Ts Unit)) :
    submit t ((nonEmpty l).toList.map c ++ rest) = submit (submitChange t (c l)) rest := by
  cases l with
  | nil => simp [nonEmpty, submit, hc]
  | cons b l => simp [nonEmpty, submit]

/-- A flush, row by row: the upserts, then the removals, then the updates. -/
theorem apply_apply (acc : Accumulator Ep Ts) (t : ServersTable Ep Ts) (p : Ep) :
    acc.apply t p = acc.updates.foldl (updateAt p)
      (acc.removes.foldl (removeAt p) (acc.upserts.foldl (upsertAt p) (t p))) := by
  have hflush : acc.apply t = submit t ((nonEmpty acc.upserts).toList.map .upsert ++
      ((nonEmpty acc.removes).toList.map .remove ++ ((nonEmpty acc.updates).toList.map .update ++ [])) :
        List (PushChange Ep Ts Unit)) := by
    simp only [apply, flush, take, List.append_assoc, List.append_nil]
  rw [hflush, submit_nonEmpty _ (fun _ => rfl), submit_nonEmpty _ (fun _ => rfl),
    submit_nonEmpty _ (fun _ => rfl)]
  simp only [submit, List.foldl_nil, submitChange_apply]

/-- A flush leaves no row at an endpoint its batch removes, whatever the batch upserts there: the
upserts go first. -/
theorem apply_of_mem_removes {acc : Accumulator Ep Ts} {p : Ep} (h : p ∈ acc.removes)
    (t : ServersTable Ep Ts) : acc.apply t p = none := by
  rw [apply_apply, foldl_removeAt_of_mem h, foldl_updateAt_none]

@[simp] theorem new_apply (t : ServersTable Ep Ts) : (new : Accumulator Ep Ts).apply t = t := rfl

omit [DecidableEq Ep] in
@[simp] theorem flush_snd (acc : Accumulator Ep Ts) : acc.flush.2 = new := rfl

variable (state : LocalState Id Ep Ts)

/-- A batch is ordered for a mutation when the mutation, read now, does not upsert an endpoint
that the batch already removes or updates: a flush sends the batch's upserts first. -/
def Ordered (acc : Accumulator Ep Ts) : Mutation Id Ep → Prop
  | .upsert id => ∀ v, state.servers.lookup id = some v →
      v.1 ∉ acc.removes ∧ ∀ u ∈ acc.updates, u.endpoint ≠ v.1
  | _ => True

omit [DecidableEq Ep] in
/-- A new batch is ordered for every mutation. -/
theorem ordered_new (m : Mutation Id Ep) : (new : Accumulator Ep Ts).Ordered state m := by
  cases m with
  | upsert id => exact fun _ _ => ⟨List.not_mem_nil, fun _ hu => absurd hu List.not_mem_nil⟩
  | update id => trivial
  | remove endpoint => trivial

end Accumulator

/-- What a mutation, read against `state` and flushed on its own, does to the row of `p`. -/
def Mutation.applyAt (state : LocalState Id Ep Ts) (p : Ep) (row : Option Ts) : Mutation Id Ep → Option Ts
  | .upsert id =>
    match state.servers.lookup id with
    | some v => upsertAt p row ⟨v.1, v.2⟩
    | none => row
  | .update id =>
    match state.servers.lookup id with
    | some v => updateAt p row ⟨v.1, some v.2⟩
    | none => row
  | .remove endpoint => removeAt p row endpoint

namespace Accumulator

variable {state : LocalState Id Ep Ts}

/-- Reading a mutation into an ordered batch, then flushing it, does to each row what flushing
the batch and then the mutation on its own does. -/
theorem apply_accumulate {acc : Accumulator Ep Ts} {m : Mutation Id Ep} (h : acc.Ordered state m)
    (t : ServersTable Ep Ts) (p : Ep) :
    (acc.accumulate state m).apply t p = m.applyAt state p (acc.apply t p) := by
  cases m with
  | upsert id =>
    cases hl : state.servers.lookup id with
    | none => simp [accumulate, Mutation.applyAt, hl]
    | some v =>
      simp only [apply_apply, accumulate, Mutation.applyAt, hl, List.foldl_append, List.foldl_cons,
        List.foldl_nil]
      by_cases hp : v.1 = p
      · -- the row gets the upsert's tokens, which no removal or update of the batch touches
        subst hp
        obtain ⟨hrm, hud⟩ := h v hl
        rw [upsertAt, if_pos rfl, foldl_removeAt_of_not_mem hrm,
          foldl_updateAt_of_forall_ne hud, upsertAt, if_pos rfl]
      · simp [upsertAt, hp]
  | update id =>
    cases hl : state.servers.lookup id with
    | none => simp [accumulate, Mutation.applyAt, hl]
    | some v =>
      simp only [apply_apply, accumulate, Mutation.applyAt, hl, List.foldl_append, List.foldl_cons,
        List.foldl_nil]
  | remove endpoint =>
    simp only [apply_apply, accumulate, Mutation.applyAt, List.foldl_append, List.foldl_cons,
      List.foldl_nil]
    by_cases hp : endpoint = p
    · -- the removal comes before every update, which finds no row
      rw [removeAt, if_pos hp, foldl_updateAt_none, removeAt, if_pos hp]
    · simp [removeAt, hp]

end Accumulator

/-! ## Reading a mutation against a changed local state -/

namespace LocalState

variable (state : LocalState Id Ep Ts)

/-- The token set of the server of `id`, if that server is at `p`. -/
def heldAt (p : Ep) (id : Id) : Option Ts :=
  match state.servers.lookup id with
  | some v => if v.1 = p then some v.2 else none
  | none => none

/-- No two uids have a server at one endpoint. -/
def UniqueEndpoints : Prop :=
  ∀ i j v w, state.servers.lookup i = some v → state.servers.lookup j = some w → v.1 = w.1 → i = j

variable {state} {i : Id} {v : Ep × Ts} {p : Ep}

/-- No uid's server is at `i`'s endpoint. -/
theorem heldAt_eq_none (hnot : ∀ w, state.servers.lookup i = some w → w.1 ≠ p) :
    state.heldAt p i = none := by
  cases hl : state.servers.lookup i with
  | none => simp [heldAt, hl]
  | some w => simp [heldAt, hl, hnot w hl]

/-- A change of the server of `i` alone changes nothing at `p` when neither its old server nor
its new one is there. -/
theorem heldAt_of_lookup_ne {state' : LocalState Id Ep Ts}
    (hframe : ∀ id, id ≠ i → state'.servers.lookup id = state.servers.lookup id)
    (hnew : ∀ w, state'.servers.lookup i = some w → w.1 ≠ p)
    (hold : ∀ w, state.servers.lookup i = some w → w.1 ≠ p) (id : Id) :
    state'.heldAt p id = state.heldAt p id := by
  by_cases hid : id = i
  · rw [hid, heldAt_eq_none hnew, heldAt_eq_none hold]
  · simp only [heldAt, hframe id hid]

/-- Giving `i` a server at another endpoint than `p` changes nothing at `p` when its old server,
if any, was not there either. -/
theorem heldAt_insert (hv : v.1 ≠ p) (hold : ∀ w, state.servers.lookup i = some w → w.1 ≠ p)
    (id : Id) : heldAt ⟨state.servers.insert i v⟩ p id = state.heldAt p id := by
  have hnew : ∀ w, (state.servers.insert i v).lookup i = some w → w.1 ≠ p := by
    intro w hw
    rw [AList.lookup_insert, Option.some.injEq] at hw
    rw [← hw]
    exact hv
  exact heldAt_of_lookup_ne (fun id hid => AList.lookup_insert_ne hid) hnew hold id

/-- Removing the server of `i` changes nothing at `p` when it was not there. -/
theorem heldAt_erase (hold : ∀ w, state.servers.lookup i = some w → w.1 ≠ p) (id : Id) :
    heldAt ⟨state.servers.erase i⟩ p id = state.heldAt p id := by
  have hnew : ∀ w, (state.servers.erase i).lookup i = some w → w.1 ≠ p := by
    intro w hw
    rw [AList.lookup_erase] at hw
    cases hw
  exact heldAt_of_lookup_ne (fun id hid => AList.lookup_erase_ne hid) hnew hold id

/-- Giving the server of `i` another token set leaves every endpoint held or not as it was. -/
theorem isSome_heldAt_insert {w : Ep × Ts} (hw : state.servers.lookup i = some w) (hv : v.1 = w.1)
    (id : Id) : (heldAt ⟨state.servers.insert i v⟩ p id).isSome = (state.heldAt p id).isSome := by
  by_cases hid : id = i
  · subst hid
    by_cases hp : w.1 = p <;> simp [heldAt, hw, hv, hp]
  · simp only [heldAt, AList.lookup_insert_ne hid]

omit [DecidableEq Ep] in
theorem UniqueEndpoints.insert (hu : state.UniqueEndpoints)
    (hfresh : ∀ j w, j ≠ i → state.servers.lookup j = some w → w.1 ≠ v.1) :
    UniqueEndpoints ⟨state.servers.insert i v⟩ := by
  intro a b va vb ha hb hab
  by_cases hai : a = i <;> by_cases hbi : b = i
  · rw [hai, hbi]
  · rw [hai, AList.lookup_insert, Option.some.injEq] at ha
    rw [AList.lookup_insert_ne hbi] at hb
    subst ha
    exact absurd hab.symm (hfresh b vb hbi hb)
  · rw [hbi, AList.lookup_insert, Option.some.injEq] at hb
    rw [AList.lookup_insert_ne hai] at ha
    subst hb
    exact absurd hab (hfresh a va hai ha)
  · rw [AList.lookup_insert_ne hai] at ha
    rw [AList.lookup_insert_ne hbi] at hb
    exact hu a b va vb ha hb hab

omit [DecidableEq Ep] in
theorem UniqueEndpoints.erase (hu : state.UniqueEndpoints) : UniqueEndpoints ⟨state.servers.erase i⟩ := by
  intro a b va vb ha hb hab
  by_cases hai : a = i
  · rw [hai, AList.lookup_erase] at ha
    cases ha
  by_cases hbi : b = i
  · rw [hbi, AList.lookup_erase] at hb
    cases hb
  rw [AList.lookup_erase_ne hai] at ha
  rw [AList.lookup_erase_ne hbi] at hb
  exact hu a b va vb ha hb hab

omit [DecidableEq Ep] in
/-- The server of another uid is never at the endpoint of `j`'s. -/
theorem UniqueEndpoints.ne_of_lookup (hu : state.UniqueEndpoints) {j : Id} {v : Ep × Ts}
    (hv : state.servers.lookup j = some v) (hj : j ≠ i) :
    ∀ w, state.servers.lookup i = some w → w.1 ≠ v.1 :=
  fun w hw he => hj (hu j i v w hv hw he.symm)

end LocalState

namespace Mutation

variable {state state' : LocalState Id Ep Ts} {p : Ep}

theorem applyAt_upsert (row : Option Ts) (id : Id) :
    (Mutation.upsert id).applyAt state p row = (state.heldAt p id).or row := by
  cases hl : state.servers.lookup id with
  | none => simp [applyAt, LocalState.heldAt, hl]
  | some v => by_cases hp : v.1 = p <;> simp [applyAt, LocalState.heldAt, hl, upsertAt, hp]

theorem applyAt_update (row : Option Ts) (id : Id) :
    (Mutation.update id).applyAt state p row =
      match state.heldAt p id with
      | some x => row.map fun _ => x
      | none => row := by
  cases hl : state.servers.lookup id with
  | none => simp [applyAt, LocalState.heldAt, hl]
  | some v => by_cases hp : v.1 = p <;> simp [applyAt, LocalState.heldAt, hl, updateAt_some, hp]

/-- A mutation's effect on the row of `p` depends only on the servers at `p`. -/
theorem applyAt_congr (h : ∀ id, state.heldAt p id = state'.heldAt p id) :
    applyAt state p = applyAt state' p := by
  funext row m
  cases m with
  | upsert id => rw [applyAt_upsert, applyAt_upsert, h]
  | update id => rw [applyAt_update, applyAt_update, h]
  | remove endpoint => rfl

/-- Whether a mutation leaves a row depends only on which endpoints have servers, and on whether
there was a row. -/
theorem isSome_applyAt_congr (h : ∀ id, (state.heldAt p id).isSome = (state'.heldAt p id).isSome)
    {row row' : Option Ts} (hrow : row.isSome = row'.isSome) (m : Mutation Id Ep) :
    (m.applyAt state p row).isSome = (m.applyAt state' p row').isSome := by
  cases m with
  | upsert id => simp only [applyAt_upsert, Option.isSome_or, h, hrow]
  | update id =>
    rw [applyAt_update, applyAt_update]
    cases state.heldAt p id <;> cases state'.heldAt p id <;> simpa using hrow
  | remove endpoint =>
    by_cases hp : endpoint = p <;> simp [applyAt, removeAt, hp, hrow]

theorem isSome_foldl_applyAt_congr (h : ∀ id, (state.heldAt p id).isSome = (state'.heldAt p id).isSome)
    (rx : List (Mutation Id Ep)) {row row' : Option Ts} (hrow : row.isSome = row'.isSome) :
    (rx.foldl (applyAt state p) row).isSome = (rx.foldl (applyAt state' p) row').isSome := by
  induction rx generalizing row row' with
  | nil => exact hrow
  | cons m rx ih => exact ih (isSome_applyAt_congr h hrow m)

/-- An upsert does nothing at `p` when the server of its uid is not there. -/
theorem applyAt_upsert_of_ne {id : Id} (h : ∀ w, state.servers.lookup id = some w → w.1 ≠ p)
    (row : Option Ts) : (Mutation.upsert id).applyAt state p row = row := by
  cases hl : state.servers.lookup id with
  | none => simp [applyAt, hl]
  | some w => simp [applyAt, hl, upsertAt, h w hl]

/-- An update does nothing at `p` when the server of its uid is not there. -/
theorem applyAt_update_of_ne {id : Id} (h : ∀ w, state.servers.lookup id = some w → w.1 ≠ p)
    (row : Option Ts) : (Mutation.update id).applyAt state p row = row := by
  cases hl : state.servers.lookup id with
  | none => simp [applyAt, hl]
  | some w => simp [applyAt, hl, updateAt_some, h w hl]

/-- Mutations that each do nothing to a row leave it as it is. -/
theorem foldl_applyAt_of_forall {sent : List (Mutation Id Ep)}
    (h : ∀ m ∈ sent, ∀ row, m.applyAt state p row = row) (row : Option Ts) :
    sent.foldl (applyAt state p) row = row := by
  induction sent generalizing row with
  | nil => rfl
  | cons m sent ih =>
    rw [List.foldl_cons, h m (List.mem_cons_self ..), ih fun m hm => h m (List.mem_cons_of_mem _ hm)]

end Mutation

/-! ## The mutator's calls -/

namespace ServerMutator

variable [DecidableEq Ts] (state : LocalState Id Ep Ts) (id : Id) (endpoint : Ep) (ts : Ts)

/-- What `upsert_server` can do: add a server for a new uid, move a uid to another endpoint,
change nothing, or change the token set of a uid. -/
theorem upsertServer_cases :
    (state.servers.lookup id = none ∧
      upsertServer state id endpoint ts = (⟨state.servers.insert id (endpoint, ts)⟩, [.upsert id])) ∨
    (∃ w, state.servers.lookup id = some w ∧ w.1 ≠ endpoint ∧
      upsertServer state id endpoint ts =
        (⟨state.servers.insert id (endpoint, ts)⟩, [.remove w.1, .upsert id])) ∨
    (state.servers.lookup id = some (endpoint, ts) ∧ upsertServer state id endpoint ts = (state, [])) ∨
    (∃ w, state.servers.lookup id = some w ∧ w.1 = endpoint ∧ w.2 ≠ ts ∧
      upsertServer state id endpoint ts = (⟨state.servers.insert id (endpoint, ts)⟩, [.update id])) := by
  cases hl : state.servers.lookup id with
  | none => exact .inl ⟨rfl, by simp [upsertServer, hl]⟩
  | some w =>
    by_cases hne : w.1 ≠ endpoint
    · exact .inr (.inl ⟨w, rfl, hne, by simp [upsertServer, hl, hne]⟩)
    · have he : w.1 = endpoint := not_not.mp hne
      by_cases hts : w.2 = ts
      · refine .inr (.inr (.inl ⟨by rw [← he, ← hts], by simp [upsertServer, hl, he, hts]⟩))
      · refine .inr (.inr (.inr ⟨w, rfl, he, hts, by simp [upsertServer, hl, he, hts]⟩))

omit [DecidableEq Ep] [DecidableEq Ts] in
/-- What `remove_server` can do. -/
theorem removeServer_cases :
    (state.servers.lookup id = none ∧ removeServer state id = (state, [])) ∨
    (∃ w, state.servers.lookup id = some w ∧
      removeServer state id = (⟨state.servers.erase id⟩, [.remove w.1])) := by
  cases hl : state.servers.lookup id with
  | none => exact .inl ⟨rfl, by simp [removeServer, hl]⟩
  | some w => exact .inr ⟨w, rfl, by simp [removeServer, hl]⟩

end ServerMutator

/-! ## A connection keeps every server in the table -/

namespace PushSession

/-- The row of `p` once the accumulator is flushed, and then every mutation on the channel, each
read against the local state as it stands and flushed on its own. -/
def pendingAt (s : PushSession Id Ep Ts) (p : Ep) : Option Ts :=
  s.rx.foldl (Mutation.applyAt s.state p) (s.accumulator.apply s.servers p)

/-- What a connection keeps: no two uids share an endpoint, and the row of every server's
endpoint will hold its token set once everything pending is flushed. -/
structure Synced (s : PushSession Id Ep Ts) : Prop where
  unique : s.state.UniqueEndpoints
  synced : ∀ id v, s.state.servers.lookup id = some v → s.pendingAt v.1 = some v.2

/-- What a run assumes of its events: a call of the mutator gives no uid an endpoint another uid
has (two pods do not share an address), and a batch never gets the upsert of an endpoint it
already removes or updates. -/
def Allowed (s : PushSession Id Ep Ts) : Event Id Ep Ts → Prop
  | .upsertServer id endpoint _ => ∀ j v, j ≠ id → s.state.servers.lookup j = some v → v.1 ≠ endpoint
  | .recv => ∀ m rx, s.rx = m :: rx → s.accumulator.Ordered s.state m
  | _ => True

variable {s : PushSession Id Ep Ts}

/-- A call that changes no server at `p`, and sends only mutations that do nothing there, leaves
the pending row of `p` as it was. -/
theorem pendingAt_call {state : LocalState Id Ep Ts} {sent : List (Mutation Id Ep)} {p : Ep}
    (hheld : ∀ id, state.heldAt p id = s.state.heldAt p id)
    (hsent : ∀ m ∈ sent, ∀ row, m.applyAt state p row = row) :
    ({ s with state, rx := s.rx ++ sent } : PushSession Id Ep Ts).pendingAt p = s.pendingAt p := by
  simp only [pendingAt, List.foldl_append, Mutation.foldl_applyAt_of_forall hsent]
  rw [Mutation.applyAt_congr hheld]

/-- A call whose last mutation is the upsert of `id` leaves the row of its endpoint with its
token set. -/
theorem pendingAt_upsert_last {state : LocalState Id Ep Ts} {sent : List (Mutation Id Ep)} {id : Id}
    {v : Ep × Ts} (hv : state.servers.lookup id = some v) :
    ({ s with state, rx := s.rx ++ (sent ++ [.upsert id]) } : PushSession Id Ep Ts).pendingAt v.1 =
      some v.2 := by
  simp only [pendingAt, List.foldl_append, List.foldl_cons, List.foldl_nil, Mutation.applyAt, hv,
    upsertAt, if_pos]

/-- A call that gives `id` a server at an endpoint no other uid has, and sends the removal of
its old endpoint, if any, then its upsert, keeps the connection synced. -/
theorem Synced.moveTo (hs : s.Synced) {id : Id} {endpoint : Ep} {ts : Ts} (olds : List Ep)
    (hfresh : ∀ j v, j ≠ id → s.state.servers.lookup j = some v → v.1 ≠ endpoint)
    (holds : ∀ e ∈ olds, ∃ w, s.state.servers.lookup id = some w ∧ w.1 = e) :
    ({ s with state := ⟨s.state.servers.insert id (endpoint, ts)⟩,
              rx := s.rx ++ (olds.map .remove ++ [.upsert id]) } : PushSession Id Ep Ts).Synced := by
  refine ⟨hs.unique.insert hfresh, fun j v hv => ?_⟩
  by_cases hj : j = id
  · subst hj
    rw [AList.lookup_insert, Option.some.injEq] at hv
    subst hv
    exact pendingAt_upsert_last (AList.lookup_insert _)
  · rw [AList.lookup_insert_ne hj] at hv
    -- no server of `id`, old or new, is at the endpoint of `j`
    have hnew : endpoint ≠ v.1 := (hfresh j v hj hv).symm
    have hold := hs.unique.ne_of_lookup hv hj
    rw [pendingAt_call (LocalState.heldAt_insert hnew hold) ?_]
    · exact hs.synced j v hv
    · intro m hm row
      rcases List.mem_append.mp hm with hm | hm
      · obtain ⟨e, he, rfl⟩ := List.mem_map.mp hm
        obtain ⟨w, hw, rfl⟩ := holds e he
        exact if_neg (hold w hw)
      · rw [List.mem_singleton.mp hm]
        refine Mutation.applyAt_upsert_of_ne (fun w hw => ?_) row
        rw [AList.lookup_insert, Option.some.injEq] at hw
        rw [← hw]
        exact hnew

/-- A call that gives the server of `id` another token set at its endpoint, and sends its update,
keeps the connection synced. -/
theorem Synced.retoken (hs : s.Synced) {id : Id} {w : Ep × Ts} (hw : s.state.servers.lookup id = some w)
    (ts : Ts) :
    ({ s with state := ⟨s.state.servers.insert id (w.1, ts)⟩, rx := s.rx ++ [.update id] } :
      PushSession Id Ep Ts).Synced := by
  refine ⟨hs.unique.insert fun j v hj hv => (hs.unique.ne_of_lookup hv hj w hw).symm,
    fun j v hv => ?_⟩
  by_cases hj : j = id
  · subst hj
    rw [AList.lookup_insert, Option.some.injEq] at hv
    subst hv
    -- the row is there, with the old token set, and the update overwrites it
    have hrow : (s.rx.foldl (Mutation.applyAt ⟨s.state.servers.insert j (w.1, ts)⟩ w.1)
        (s.accumulator.apply s.servers w.1)).isSome := by
      have hheld : ∀ id, (LocalState.heldAt ⟨s.state.servers.insert j (w.1, ts)⟩ w.1 id).isSome =
          (s.state.heldAt w.1 id).isSome :=
        LocalState.isSome_heldAt_insert hw rfl
      rw [Mutation.isSome_foldl_applyAt_congr hheld s.rx rfl]
      show (s.pendingAt w.1).isSome
      rw [hs.synced j w hw]
      rfl
    obtain ⟨x, hx⟩ := Option.isSome_iff_exists.mp hrow
    have hheld : LocalState.heldAt ⟨s.state.servers.insert j (w.1, ts)⟩ w.1 j = some ts := by
      simp [LocalState.heldAt]
    simp only [pendingAt, List.foldl_append, List.foldl_cons, List.foldl_nil, Mutation.applyAt_update,
      hheld, hx, Option.map_some]
  · rw [AList.lookup_insert_ne hj] at hv
    have hold := hs.unique.ne_of_lookup hv hj
    have hheld : ∀ id', LocalState.heldAt ⟨s.state.servers.insert id (w.1, ts)⟩ v.1 id' =
        s.state.heldAt v.1 id' :=
      LocalState.heldAt_insert (hold w hw) hold
    rw [pendingAt_call hheld ?_]
    · exact hs.synced j v hv
    · intro m hm row
      rw [List.mem_singleton.mp hm]
      refine Mutation.applyAt_update_of_ne (fun w' hw' => ?_) row
      rw [AList.lookup_insert, Option.some.injEq] at hw'
      rw [← hw']
      exact hold w hw

/-- A call that removes the server of `id`, and sends the removal of its endpoint, keeps the
connection synced. -/
theorem Synced.remove (hs : s.Synced) {id : Id} {w : Ep × Ts} (hw : s.state.servers.lookup id = some w) :
    ({ s with state := ⟨s.state.servers.erase id⟩, rx := s.rx ++ [.remove w.1] } :
      PushSession Id Ep Ts).Synced := by
  refine ⟨hs.unique.erase, fun j v hv => ?_⟩
  have hj : j ≠ id := by
    rintro rfl
    rw [AList.lookup_erase] at hv
    cases hv
  rw [AList.lookup_erase_ne hj] at hv
  have hold := hs.unique.ne_of_lookup hv hj
  rw [pendingAt_call (LocalState.heldAt_erase hold) ?_]
  · exact hs.synced j v hv
  · intro m hm row
    rw [List.mem_singleton.mp hm]
    exact if_neg (hold w hw)

/-- A call that changes nothing keeps the connection synced. -/
theorem Synced.unchanged (hs : s.Synced) :
    ({ s with state := s.state, rx := s.rx ++ [] } : PushSession Id Ep Ts).Synced :=
  ⟨hs.unique, fun j v hv =>
    (pendingAt_call (fun _ => rfl) fun _ hm => absurd hm List.not_mem_nil).trans (hs.synced j v hv)⟩

/-- Reading a mutation into a batch it is ordered for keeps the connection synced. -/
theorem Synced.recv (hs : s.Synced) {m : Mutation Id Ep} {rx : List (Mutation Id Ep)}
    (hrx : s.rx = m :: rx) (hm : s.accumulator.Ordered s.state m) :
    ({ s with rx, accumulator := s.accumulator.accumulate s.state m } : PushSession Id Ep Ts).Synced := by
  refine ⟨hs.unique, fun j v hv => ?_⟩
  have hpending : ({ s with rx, accumulator := s.accumulator.accumulate s.state m } :
      PushSession Id Ep Ts).pendingAt v.1 = s.pendingAt v.1 := by
    simp only [pendingAt, hrx, List.foldl_cons, Accumulator.apply_accumulate hm]
  rw [hpending]
  exact hs.synced j v hv

/-- Flushing the batch keeps the connection synced. -/
theorem Synced.flush (hs : s.Synced) :
    ({ s with accumulator := .new, servers := s.accumulator.apply s.servers } :
      PushSession Id Ep Ts).Synced :=
  ⟨hs.unique, hs.synced⟩

/-- A connection starts synced: its first upsert writes every server of the local state. -/
theorem synced_connect {state : LocalState Id Ep Ts} (hu : state.UniqueEndpoints)
    (servers : ServersTable Ep Ts) : (connect state servers).Synced := by
  refine ⟨hu, fun id v hv => ?_⟩
  simp only [pendingAt, connect, List.foldl_nil, Accumulator.new_apply, submit, List.foldl_cons,
    submitChange_apply]
  apply foldl_upsertAt_of_mem
  · exact ⟨⟨v.1, v.2⟩, List.mem_map.mpr ⟨⟨id, v⟩, AList.mem_lookup_iff.mp hv, rfl⟩, rfl⟩
  · -- the only server at the endpoint is that of `id`
    intro u hu' hp
    obtain ⟨⟨j, w⟩, hj, rfl⟩ := List.mem_map.mp hu'
    obtain rfl := hu j id w v (AList.mem_lookup_iff.mpr hj) hv hp
    rw [Option.some.inj ((AList.mem_lookup_iff.mpr hj).symm.trans hv)]

variable [DecidableEq Ts]

theorem step_flush (s : PushSession Id Ep Ts) :
    s.step .flush = some { s with accumulator := .new, servers := s.accumulator.apply s.servers } :=
  rfl

/-- Every allowed event keeps the connection synced. -/
theorem Synced.step (hs : s.Synced) {e : Event Id Ep Ts} (he : s.Allowed e) {s' : PushSession Id Ep Ts}
    (h : s.step e = some s') : s'.Synced := by
  cases e with
  | upsertServer id endpoint ts =>
    rcases ServerMutator.upsertServer_cases s.state id endpoint ts with
      ⟨-, heq⟩ | ⟨w, hw, -, heq⟩ | ⟨-, heq⟩ | ⟨w, hw, rfl, -, heq⟩ <;>
      simp only [PushSession.step, heq, Option.some.injEq] at h <;> subst h
    · exact hs.moveTo [] he (by simp)
    · exact hs.moveTo [w.1] he (by simp [hw])
    · exact hs.unchanged
    · exact hs.retoken hw ts
  | removeServer id =>
    rcases ServerMutator.removeServer_cases s.state id with ⟨-, heq⟩ | ⟨w, hw, heq⟩ <;>
      simp only [PushSession.step, heq, Option.some.injEq] at h <;> subst h
    · exact hs.unchanged
    · exact hs.remove hw
  | recv =>
    cases hrx : s.rx with
    | nil => simp [PushSession.step, hrx] at h
    | cons m rx =>
      simp only [PushSession.step, hrx, Option.some.injEq] at h
      subst h
      exact hs.recv hrx (he m rx hrx)
  | flush =>
    rw [step_flush, Option.some.injEq] at h
    subst h
    exact hs.flush

/-- Every allowed run keeps a connection synced. -/
theorem Synced.exec (hs : s.Synced) {es : List (Event Id Ep Ts)} {s' : PushSession Id Ep Ts}
    (h : StepRun.exec PushSession.step s es = some s') (hg : StepRun.Guarded PushSession.step Allowed s es) :
    s'.Synced :=
  StepRun.exec_invariant_guarded Synced (fun _ _ _ hs he h => hs.step he h) h hg hs

/-- Once the channel is read and the batch flushed, after any allowed run from a connection, the
corrosion server holds every server of the local state at its endpoint, with its token set. -/
theorem push_converges {state : LocalState Id Ep Ts} (hu : state.UniqueEndpoints)
    (servers : ServersTable Ep Ts) {es : List (Event Id Ep Ts)} {s' : PushSession Id Ep Ts}
    (h : StepRun.exec PushSession.step (connect state servers) es = some s')
    (hg : StepRun.Guarded PushSession.step Allowed (connect state servers) es)
    (hrx : s'.rx = []) (hacc : s'.accumulator = .new) :
    ∀ id v, s'.state.servers.lookup id = some v → s'.servers v.1 = some v.2 := by
  intro id v hv
  have hsynced := ((synced_connect hu servers).exec h hg).synced id v hv
  rwa [pendingAt, hrx, hacc, List.foldl_nil, Accumulator.new_apply] at hsynced

/-! ## The calls of `replace` as events -/

/-- Calls run one event each do what the calls run one after the other do. -/
theorem exec_calls {α : Type} (call : LocalState Id Ep Ts → α → LocalState Id Ep Ts × List (Mutation Id Ep))
    (event : α → Event Id Ep Ts)
    (hstep : ∀ (s : PushSession Id Ep Ts) a,
      s.step (event a) = some { s with state := (call s.state a).1, rx := s.rx ++ (call s.state a).2 })
    (as : List α) (s : PushSession Id Ep Ts) :
    StepRun.exec PushSession.step s (as.map event) =
      some { s with state := (ServerMutator.calls call s.state as).1,
                    rx := s.rx ++ (ServerMutator.calls call s.state as).2 } := by
  induction as generalizing s with
  | nil => simp [ServerMutator.calls]
  | cons a as ih =>
    rw [List.map_cons, StepRun.exec_cons, hstep, Option.bind_some, ih]
    simp [ServerMutator.calls, List.append_assoc]

/-- Running the calls `replace` makes, one event each, does what `replace` does. -/
theorem exec_replaceCalls (s : PushSession Id Ep Ts) (set : AList fun _ : Id => Ep × Ts) :
    StepRun.exec PushSession.step s (replaceCalls s.state set) =
      some { s with state := (ServerMutator.replace s.state set).1,
                    rx := s.rx ++ (ServerMutator.replace s.state set).2 } := by
  rw [replaceCalls, StepRun.exec_append, exec_calls ServerMutator.removeServer _ (fun _ _ => rfl),
    Option.bind_some,
    exec_calls (fun state (e : Sigma fun _ : Id => Ep × Ts) => ServerMutator.upsertServer state e.1 e.2.1 e.2.2)
      _ (fun _ _ => rfl)]
  simp [ServerMutator.replace, List.append_assoc]

/-- One server, of uid 1, at endpoint 7000. -/
def podAt7000 : LocalState Nat Nat Nat := ⟨(∅ : AList fun _ : Nat => Nat × Nat).insert 1 (7000, 5)⟩

/-- Another server added after the connection, read and flushed. -/
def addOne : List (Event Nat Nat Nat) := [.upsertServer 2 7001 6, .recv, .flush]

theorem push_converges_addOne :
    ∃ s', StepRun.exec PushSession.step (connect podAt7000 fun _ => none) addOne = some s' ∧
      s'.rx = [] ∧ s'.accumulator = .new ∧
      ∀ id v, s'.state.servers.lookup id = some v → s'.servers v.1 = some v.2 := by
  have hu : podAt7000.UniqueEndpoints :=
    LocalState.UniqueEndpoints.insert (fun _ _ _ _ hi => by simp at hi) fun _ _ _ hw => by simp at hw
  have hg : StepRun.Guarded PushSession.step Allowed (connect podAt7000 fun _ => none) addOne := by
    refine StepRun.guarded_cons rfl ?_ (StepRun.guarded_cons rfl ?_ (StepRun.guarded_cons rfl trivial trivial))
    · -- uid 1 is at 7000, not 7001
      intro j v _ hv
      by_cases h1 : j = 1
      · subst h1
        obtain rfl : (7000, 5) = v := Option.some.inj hv
        decide
      · rw [podAt7000, connect, AList.lookup_insert_ne h1] at hv
        simp at hv
    · exact fun m _ _ => Accumulator.ordered_new _ m
  exact ⟨_, rfl, rfl, rfl, push_converges hu _ rfl hg rfl rfl⟩

/-- A batch window that holds the removal of a server and the upsert of another at its endpoint
leaves the corrosion server without that endpoint, while the local state holds it: the flush
sends the batch's upserts before its removals, and the removal deletes the row whatever it
holds. -/
theorem push_loses_reused_endpoint (s : PushSession Id Ep Ts) (hrx : s.rx = [])
    (hacc : s.accumulator = .new) {i j : Id} {v : Ep × Ts} (hi : s.state.servers.lookup i = some v)
    (hj : s.state.servers.lookup j = none) (hij : j ≠ i) (ts : Ts) :
    ∃ s', StepRun.exec PushSession.step s [.removeServer i, .upsertServer j v.1 ts, .recv, .recv, .flush] =
        some s' ∧
      s'.rx = [] ∧ s'.accumulator = .new ∧ s'.state.servers.lookup j = some (v.1, ts) ∧
      s'.servers v.1 = none := by
  have hremove : ServerMutator.removeServer s.state i = (⟨s.state.servers.erase i⟩, [.remove v.1]) := by
    simp [ServerMutator.removeServer, hi]
  have hupsert : ServerMutator.upsertServer ⟨s.state.servers.erase i⟩ j v.1 ts =
      (⟨(s.state.servers.erase i).insert j (v.1, ts)⟩, [.upsert j]) := by
    simp [ServerMutator.upsertServer, AList.lookup_erase_ne hij, hj]
  -- the batch holds the removal of the endpoint, and then the upsert of `j` at it
  let batch : Accumulator Ep Ts := ⟨[⟨v.1, ts⟩], [], [v.1]⟩
  refine ⟨{ s with state := ⟨(s.state.servers.erase i).insert j (v.1, ts)⟩, rx := [],
                   accumulator := .new, servers := batch.apply s.servers },
    ?_, rfl, rfl, AList.lookup_insert _, Accumulator.apply_of_mem_removes (List.mem_singleton_self _) _⟩
  simp [StepRun.exec, PushSession.step, hremove, hupsert, hrx, hacc, Accumulator.accumulate,
    Accumulator.new, batch, Accumulator.apply]

/-- The pod of uid 1 recreated as uid 2 at the same address. -/
def podRecreated : AList fun _ : Nat => Nat × Nat := (∅ : AList fun _ : Nat => Nat × Nat).insert 2 (7000, 5)

/-- The connection before the pod is recreated: synced, nothing pending. -/
def beforeRecreate : PushSession Nat Nat Nat := ⟨podAt7000, [], .new, fun p => if p = 7000 then some 5 else none⟩

theorem push_loses_reused_endpoint_podRecreated :
    StepRun.exec PushSession.step beforeRecreate (replaceCalls podAt7000 podRecreated) =
      some { beforeRecreate with state := (ServerMutator.replace podAt7000 podRecreated).1,
                                 rx := (ServerMutator.replace podAt7000 podRecreated).2 } ∧
    replaceCalls podAt7000 podRecreated = [.removeServer 1, .upsertServer 2 7000 5] ∧
    ∃ s', StepRun.exec PushSession.step beforeRecreate
        [.removeServer 1, .upsertServer 2 7000 5, .recv, .recv, .flush] = some s' ∧
      s'.rx = [] ∧ s'.accumulator = .new ∧ s'.state.servers.lookup 2 = some (7000, 5) ∧
      s'.servers 7000 = none :=
  ⟨exec_replaceCalls beforeRecreate podRecreated, rfl,
    @push_loses_reused_endpoint Nat Nat Nat _ _ _ beforeRecreate rfl rfl 1 2 (7000, 5) rfl rfl (by decide) 5⟩

end PushSession

end Quilkin.Providers
