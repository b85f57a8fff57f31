import Quilkin.Corrosion.PubSub

/-!
# Subscription batches: what the reader gets back

Every frame on the wire, a single event's buffer as much as a batch of them, is a `framed` list:
its length as a little-endian `u16`, then the bytes. The results, from the bottom up:

* `PrefixedBuf`: a buffer is the marker followed by its `payload`; `freeze` hands out
  `framed payload` when the payload fits a `u16`, and panics when it does not
  (`freeze_of_payload`, `freeze_of_length_gt`);
* the reader takes frames laid end to end apart again (`chunks_flatten`, `decodeBatch_framed`);
* the stream keeps the frames of the events not yet handed out in its buffer
  (`BufferingSubStream.Holds`); each input preserves that and hands out a batch that decodes to
  events in order (`step_holds`), and so does every run (`run_holds`).
-/

namespace Quilkin.Corrosion

/-- A frame: the length as a little-endian `u16`, then the bytes. -/
def framed (bytes : List UInt8) : List UInt8 := (UInt16.ofNat bytes.length).toLeBytes ++ bytes

@[simp] theorem length_framed (bytes : List UInt8) : (framed bytes).length = bytes.length + 2 := by
  simp [framed]
  omega

theorem framed_ne_nil (bytes : List UInt8) : framed bytes ≠ [] := by
  intro h
  have := congrArg List.length h
  simp at this

/-! ## Length prefixes -/

theorem updateLengthPrefix_of_le {payload : List UInt8} (h : payload.length ≤ 65535) :
    updateLengthPrefix (lengthMarker ++ payload) = some (.ok (framed payload)) := by
  have hshift := UInt16.toLeBytes_eq_shift (UInt16.ofNat payload.length)
  have hm : lengthMarker ++ payload = 0xfe :: 0xed :: payload := rfl
  rw [hm, updateLengthPrefix, if_neg (by omega)]
  dsimp only
  have hmarker : ¬ ([0xfe, 0xed] : List UInt8) ≠ lengthMarker := not_not.mpr rfl
  rw [if_neg hmarker, framed, hshift]
  rfl

theorem updateLengthPrefix_of_gt {payload : List UInt8} (h : 65535 < payload.length) :
    updateLengthPrefix (lengthMarker ++ payload) = some (.error (.tooLong payload.length)) := by
  have hm : lengthMarker ++ payload = 0xfe :: 0xed :: payload := rfl
  rw [hm, updateLengthPrefix, if_pos h]

theorem readLengthPrefixedBytes_framed {bytes : List UInt8} (h : bytes.length ≤ 65535)
    (rest : List UInt8) :
    readLengthPrefixedBytes (framed bytes ++ rest) = some (bytes, rest) := by
  have hlen : (UInt16.ofNat bytes.length).toNat = bytes.length := by
    rw [UInt16.toNat_ofNat']
    exact Nat.mod_eq_of_lt (by omega)
  have hshift := UInt16.toLeBytes_eq_shift (UInt16.ofNat bytes.length)
  have hle : UInt16.fromLeBytes [(UInt16.ofNat bytes.length).toUInt8,
      (UInt16.ofNat bytes.length >>> 8).toUInt8] = UInt16.ofNat bytes.length := by
    rw [← hshift, UInt16.fromLeBytes_toLeBytes]
  simp only [framed, hshift, List.cons_append, List.nil_append, readLengthPrefixedBytes, hle, hlen]
  rw [if_neg (by simp), List.take_left' rfl, List.drop_left' rfl]

/-! ## `PrefixedBuf` -/

namespace PrefixedBuf

/-- The bytes after the prefix. -/
def payload (b : PrefixedBuf) : List UInt8 := b.inner.drop 2

theorem inner_eq (b : PrefixedBuf) : b.inner = lengthMarker ++ b.payload := by
  rw [← b.reserved, payload, List.take_append_drop]

theorem ext_payload {b b' : PrefixedBuf} (h : b.payload = b'.payload) : b = b' := by
  obtain ⟨inner, hinner⟩ := b
  obtain ⟨inner', hinner'⟩ := b'
  have h₁ : inner = lengthMarker ++ (⟨inner, hinner⟩ : PrefixedBuf).payload :=
    inner_eq ⟨inner, hinner⟩
  have h₂ : inner' = lengthMarker ++ (⟨inner', hinner'⟩ : PrefixedBuf).payload :=
    inner_eq ⟨inner', hinner'⟩
  have heq : inner = inner' := by
    rw [h₁, h₂, h]
  subst heq
  rfl

@[simp] theorem payload_new : new.payload = [] := rfl

@[simp] theorem payload_extend (b : PrefixedBuf) (buf : List UInt8) :
    (b.extend buf).payload = b.payload ++ buf := by
  simp only [payload, extend]
  rw [List.drop_append_of_le_length b.two_le_length]

theorem len_eq (b : PrefixedBuf) : b.len = b.payload.length := by
  simp [len, payload]

theorem isEmpty_iff (b : PrefixedBuf) : b.isEmpty = true ↔ b.payload = [] := by
  have h := b.two_le_length
  simp only [isEmpty, payload, decide_eq_true_eq, List.drop_eq_nil_iff]

theorem freeze_of_payload_nil {b : PrefixedBuf} (h : b.payload = []) : b.freeze = some (none, b) := by
  rw [freeze, if_pos ((isEmpty_iff b).mpr h)]

theorem freeze_of_payload {b : PrefixedBuf} (h0 : b.payload ≠ []) (h : b.payload.length ≤ 65535) :
    b.freeze = some (some (framed b.payload), new) := by
  have hne : ¬ b.isEmpty = true := fun he => h0 ((isEmpty_iff b).mp he)
  rw [freeze, if_neg hne, inner_eq, updateLengthPrefix_of_le h]

/-- A payload over `u16::MAX` bytes reaches the `expect("unreachable")`. -/
theorem freeze_of_length_gt {b : PrefixedBuf} (h : 65535 < b.payload.length) : b.freeze = none := by
  have hne : ¬ b.isEmpty = true := by
    rw [isEmpty_iff]
    intro hnil
    simp [hnil] at h
  rw [freeze, if_neg hne, inner_eq, updateLengthPrefix_of_gt h]

theorem extendCapped_of_le {b : PrefixedBuf} {buf : List UInt8} {max : UInt16}
    (h : b.payload.length + buf.length ≤ max.toNat) :
    b.extendCapped buf max = some (none, b.extend buf) := by
  rw [extendCapped, len_eq, if_neg (by omega)]
  rfl

theorem extendCapped_of_gt {b : PrefixedBuf} {buf : List UInt8} {max : UInt16}
    (h : max.toNat < b.payload.length + buf.length) :
    b.extendCapped buf max = b.freeze.map fun (rb, b) => (rb, b.extend buf) := by
  rw [extendCapped, len_eq, if_pos h]
  cases b.freeze <;> rfl

/-- A fresh buffer frames any nonempty object of at most `u16::MAX` bytes. -/
theorem writeJson_new {json : List UInt8} (h0 : json ≠ []) (h : json.length ≤ 65535) :
    new.writeJson json = some (.ok (framed json, new)) := by
  have hfit : ¬ json.length > new.maxRemainder := by
    simp only [maxRemainder, len_eq, payload_new, List.length_nil]
    omega
  have hpay : (new.extend json).payload = json := by simp
  rw [writeJson, if_neg hfit, freeze_of_payload (by rw [hpay]; exact h0) (by rw [hpay]; exact h),
    hpay]

end PrefixedBuf

/-! ## The read side -/

/-- Each frame laid end to end takes its bytes and two more. -/
theorem length_le_of_mem_framed {l : List (List UInt8)} {bytes : List UInt8} (h : bytes ∈ l) :
    bytes.length + 2 ≤ ((l.map framed).flatten).length := by
  induction l with
  | nil => simp at h
  | cons b l ih =>
    simp only [List.map_cons, List.flatten_cons, List.length_append, length_framed]
    rcases List.mem_cons.mp h with rfl | h
    · omega
    · have := ih h
      omega

theorem length_le_length_framed (l : List (List UInt8)) : l.length ≤ ((l.map framed).flatten).length := by
  induction l with
  | nil => simp
  | cons b l ih =>
    simp only [List.map_cons, List.flatten_cons, List.length_append, length_framed, List.length_cons]
    omega

namespace SubscriptionStream

/-- The iterator takes frames laid end to end apart again. -/
theorem chunks_flatten {l : List (List UInt8)} (hl : ∀ bytes ∈ l, bytes.length ≤ 65535) {fuel : Nat}
    (hfuel : l.length ≤ fuel) : chunks fuel (l.map framed).flatten = l := by
  induction l generalizing fuel with
  | nil => cases fuel <;> rfl
  | cons bytes l ih =>
    obtain ⟨fuel, rfl⟩ : ∃ f, fuel = f + 1 := ⟨fuel - 1, by simp at hfuel; omega⟩
    have htail : chunks fuel (l.map framed).flatten = l :=
      ih (fun b hb => hl b (List.mem_cons_of_mem bytes hb)) (by simp at hfuel; omega)
    rw [List.map_cons, List.flatten_cons, chunks,
      readLengthPrefixedBytes_framed (hl bytes List.mem_cons_self)]
    simp only [htail]

end SubscriptionStream

/-- A batch of frames that fits a `u16` decodes to the framed events, in order. -/
theorem decodeBatch_framed {l : List (List UInt8)} (hl : ((l.map framed).flatten).length ≤ 65535) :
    decodeBatch (framed (l.map framed).flatten) = l := by
  have hread := readLengthPrefixedBytes_framed hl []
  rw [List.append_nil] at hread
  have hsmall : ∀ bytes ∈ l, bytes.length ≤ 65535 := fun bytes hb => by
    have := length_le_of_mem_framed hb
    omega
  simp only [decodeBatch, SubscriptionStream.lengthPrefixed, hread, Option.map_some,
    SubscriptionStream.toList]
  exact SubscriptionStream.chunks_flatten hsmall (length_le_length_framed l)

/-! ## The write side -/

/-- The JSON of an event, after its length. -/
def SubscriptionEvent.json (event : SubscriptionEvent) : List UInt8 := event.buff.drop 2

/-- An event framed from JSON of at most `u16::MAX - 2` bytes, so that its frame alone fits a
batch. -/
def SubscriptionEvent.Fits (event : SubscriptionEvent) : Prop :=
  event.buff = framed event.json ∧ event.json.length ≤ 65533

/-- A fresh buffer frames any nonempty JSON of at most `u16::MAX` bytes, and stays fresh. -/
theorem queryToSubEvent_new {json : List UInt8} (h0 : json ≠ []) (h : json.length ≤ 65535)
    (changeId : Option Nat) :
    queryToSubEvent .new json changeId = some (.ok (⟨framed json, changeId⟩, .new)) := by
  rw [queryToSubEvent, PrefixedBuf.writeJson_new h0 h]
  rfl

theorem fits_of_length_le {json : List UInt8} (h : json.length ≤ 65533) (changeId : Option Nat) :
    (⟨framed json, changeId⟩ : SubscriptionEvent).Fits := by
  have hjson : (⟨framed json, changeId⟩ : SubscriptionEvent).json = json := by
    simp [SubscriptionEvent.json, framed]
  rw [SubscriptionEvent.Fits, hjson]
  exact ⟨rfl, h⟩

namespace PrefixedBuf

/-- The buffer holds the frames of `pending`, within a `u16`. -/
def Holds (b : PrefixedBuf) (pending : List (List UInt8)) : Prop :=
  b.payload = (pending.map framed).flatten ∧ b.payload.length ≤ 65535

theorem holds_new : new.Holds [] := ⟨rfl, by simp⟩

/-- Freezing hands out what the buffer holds, and leaves it empty. -/
theorem freeze_holds {b : PrefixedBuf} {pending : List (List UInt8)} (hb : b.Holds pending) :
    ∃ out b', b.freeze = some (out, b') ∧ b'.Holds [] ∧ (out.toList.map decodeBatch).flatten = pending := by
  obtain ⟨hpay, hlen⟩ := hb
  cases pending with
  | nil =>
    have hnil : b.payload = [] := by simpa using hpay
    exact ⟨none, b, freeze_of_payload_nil hnil, ⟨by simpa using hnil, by simp [hnil]⟩, rfl⟩
  | cons json pending =>
    have hne : b.payload ≠ [] := by
      rw [hpay, List.map_cons, List.flatten_cons]
      exact List.append_ne_nil_of_left_ne_nil (framed_ne_nil json) _
    refine ⟨some (framed b.payload), new, freeze_of_payload hne hlen, holds_new, ?_⟩
    rw [hpay] at hlen ⊢
    rw [Option.toList_some, List.map_cons, List.map_nil, List.flatten_cons, List.flatten_nil,
      List.append_nil, decodeBatch_framed hlen]

/-- Appending a fitting event under any cap: what is handed out and what stays behind are, in
order, what was held and the new event. -/
theorem extendCapped_holds {b : PrefixedBuf} {pending : List (List UInt8)} (hb : b.Holds pending)
    {event : SubscriptionEvent} (he : event.Fits) (max : UInt16) :
    ∃ out b' pending', b.extendCapped event.buff max = some (out, b') ∧ b'.Holds pending' ∧
      (out.toList.map decodeBatch).flatten ++ pending' = pending ++ [event.json] := by
  obtain ⟨hbuff, hjson⟩ := he
  have hmax := max.toNat_lt
  by_cases hcap : b.payload.length + event.buff.length ≤ max.toNat
  · refine ⟨none, b.extend event.buff, pending ++ [event.json], extendCapped_of_le hcap, ⟨?_, ?_⟩, rfl⟩
    · rw [payload_extend, hb.1, hbuff]
      simp
    · rw [payload_extend, List.length_append]
      omega
  · obtain ⟨out, b', hfreeze, hb', hout⟩ := freeze_holds hb
    refine ⟨out, b'.extend event.buff, [event.json], ?_, ⟨?_, ?_⟩, by rw [hout]⟩
    · rw [extendCapped_of_gt (by omega), hfreeze]
      rfl
    · rw [payload_extend, hb'.1, hbuff]
      simp
    · rw [payload_extend, hb'.1, hbuff]
      simp only [List.map_nil, List.flatten_nil, List.nil_append, length_framed]
      omega

end PrefixedBuf

namespace BufferingSubStream

/-- The event an input brings, if any. -/
def Input.event? : Input → Option SubscriptionEvent
  | .recv event => some event
  | .pop event => event
  | .timeout => none
  | .closed => none

/-- The JSON of the events a sequence of inputs brings, in order. -/
def received (is : List Input) : List (List UInt8) :=
  is.flatMap fun i => i.event?.toList.map SubscriptionEvent.json

/-- The stream's buffer holds the frames of `pending`, the events received and not handed out. -/
def Holds (s : BufferingSubStream) (pending : List (List UInt8)) : Prop := s.buffer.Holds pending

/-- One input: the stream does not panic, and what it hands out followed by what it holds is what
it held followed by what it received. -/
theorem step_holds {s : BufferingSubStream} {pending : List (List UInt8)} (hs : s.Holds pending)
    {i : Input} (hi : ∀ event ∈ i.event?, event.Fits) :
    ∃ out s' pending', s.step i = some (out, s') ∧ s'.Holds pending' ∧
      (out.toList.map decodeBatch).flatten ++ pending' = pending ++ (i.event?.toList.map SubscriptionEvent.json) := by
  -- Flushing inputs hand out the whole batch.
  have hflush : ∃ out buffer, s.buffer.freeze = some (out, buffer) ∧ buffer.Holds [] ∧
      (out.toList.map decodeBatch).flatten = pending :=
    PrefixedBuf.freeze_holds hs
  cases i with
  | recv event =>
    obtain ⟨out, b', pending', hcap, hb', hout⟩ :=
      PrefixedBuf.extendCapped_holds hs (hi event rfl) s.maxSize
    have hstep : s.step (.recv event) = some (out,
        { s with changeId := (handleSubEvent s.maxSize s.buffer event s.changeId).2, buffer := b' }) := by
      simp only [step, handleSubEvent, hcap, Option.map_some]
    exact ⟨out, _, pending', hstep, hb', by simpa [Input.event?] using hout⟩
  | pop event =>
    cases event with
    | none =>
      obtain ⟨out, buffer, hfreeze, hb', hout⟩ := hflush
      have hstep : s.step (.pop none) = some (out, { s with buffer }) := by
        simp only [step, hfreeze, Option.map_some]
      exact ⟨out, _, [], hstep, hb', by simpa [Input.event?] using hout⟩
    | some event =>
      obtain ⟨out, b', pending', hcap, hb', hout⟩ :=
        PrefixedBuf.extendCapped_holds hs (hi event rfl) 0
      cases out with
      | some batch =>
        have hstep : s.step (.pop (some event)) = some (some batch,
            { s with changeId := (handleSubEvent 0 s.buffer event s.changeId).2, buffer := b' }) := by
          simp only [step, handleSubEvent, hcap]
        exact ⟨some batch, _, pending', hstep, hb', by simpa [Input.event?] using hout⟩
      | none =>
        -- Nothing was frozen before the event, so the event is frozen on its own.
        obtain ⟨out₂, b₂, hfreeze₂, hb₂, hout₂⟩ := PrefixedBuf.freeze_holds hb'
        have hstep : s.step (.pop (some event)) = some (out₂,
            { s with changeId := (handleSubEvent 0 s.buffer event s.changeId).2, buffer := b₂ }) := by
          simp only [step, handleSubEvent, hcap, hfreeze₂, Option.map_some]
        exact ⟨out₂, _, [], hstep, hb₂, by simpa [Input.event?, hout₂] using hout⟩
  | timeout =>
    obtain ⟨out, buffer, hfreeze, hb', hout⟩ := hflush
    have hstep : s.step .timeout = some (out, { s with buffer }) := by
      simp only [step, hfreeze, Option.map_some]
    exact ⟨out, _, [], hstep, hb', by simpa [Input.event?] using hout⟩
  | closed =>
    obtain ⟨out, buffer, hfreeze, hb', hout⟩ := hflush
    have hstep : s.step .closed = some (out, { s with buffer }) := by
      simp only [step, hfreeze, Option.map_some]
    exact ⟨out, _, [], hstep, hb', by simpa [Input.event?] using hout⟩

theorem step_closed_holds {s : BufferingSubStream} {pending : List (List UInt8)} (hs : s.Holds pending) :
    ∃ out s', s.step .closed = some (out, s') ∧ s'.Holds [] ∧
      (out.toList.map decodeBatch).flatten = pending := by
  obtain ⟨out, buffer, hfreeze, hb', hout⟩ := PrefixedBuf.freeze_holds hs
  have hstep : s.step .closed = some (out, { s with buffer }) := by
    simp only [step, hfreeze, Option.map_some]
  exact ⟨out, _, hstep, hb', hout⟩

theorem run_append (s : BufferingSubStream) (is js : List Input) :
    s.run (is ++ js) = (s.run is).bind fun (outs, s₁) =>
      (s₁.run js).map fun (outs', s₂) => (outs ++ outs', s₂) := by
  induction is generalizing s with
  | nil =>
    simp only [List.nil_append, run, Option.bind_some, List.nil_append]
    cases s.run js <;> rfl
  | cons i is ih =>
    simp only [List.cons_append, run, ih]
    cases s.step i with
    | none => rfl
    | some r =>
      obtain ⟨out, s₁⟩ := r
      cases hr : s₁.run is with
      | none => simp [hr]
      | some r₁ =>
        obtain ⟨outs, s₂⟩ := r₁
        cases hj : s₂.run js <;> simp [hr, hj]

/-- Every run: no panic, and the batches handed out followed by what is held are what was held
followed by what was received. -/
theorem run_holds {s : BufferingSubStream} {pending : List (List UInt8)} (hs : s.Holds pending)
    {is : List Input} (hi : ∀ i ∈ is, ∀ event ∈ i.event?, event.Fits) :
    ∃ batches s' pending', s.run is = some (batches, s') ∧ s'.Holds pending' ∧
      (batches.map decodeBatch).flatten ++ pending' = pending ++ received is := by
  induction is generalizing s pending with
  | nil => exact ⟨[], s, pending, rfl, hs, by simp [received]⟩
  | cons i is ih =>
    obtain ⟨out, s₁, pending₁, hstep, hs₁, hout⟩ := step_holds hs (hi i List.mem_cons_self)
    obtain ⟨batches, s', pending', hrun, hs', hbatches⟩ :=
      ih hs₁ fun j hj => hi j (List.mem_cons_of_mem i hj)
    refine ⟨out.toList ++ batches, s', pending', ?_, hs', ?_⟩
    · simp only [run, hstep, hrun, Option.bind_eq_bind, Option.bind_some]
      rfl
    · calc ((out.toList ++ batches).map decodeBatch).flatten ++ pending'
          = (out.toList.map decodeBatch).flatten ++
              ((batches.map decodeBatch).flatten ++ pending') := by simp
        _ = (out.toList.map decodeBatch).flatten ++ pending₁ ++ received is := by
          rw [hbatches, List.append_assoc]
        _ = pending ++ received (i :: is) := by
          rw [hout, List.append_assoc]
          simp [received]

/-- A stream that starts empty and ends with its channel closed hands out every event it
received, each once and in order, and never panics, for every cap. -/
theorem run_closed_delivers (maxSize : UInt16) {is : List Input}
    (hi : ∀ i ∈ is, ∀ event ∈ i.event?, event.Fits) :
    ∃ batches s, (new maxSize).run (is ++ [.closed]) = some (batches, s) ∧
      (batches.map decodeBatch).flatten = received is := by
  obtain ⟨batches, s₁, pending, hrun, hs₁, hbatches⟩ := run_holds (s := new maxSize) PrefixedBuf.holds_new hi
  obtain ⟨out, s₂, hstep, -, hout⟩ := step_closed_holds hs₁
  refine ⟨batches ++ out.toList, s₂, ?_, ?_⟩
  · rw [run_append, hrun]
    simp [run, hstep]
  · rw [List.map_append, List.flatten_append, hout]
    simpa using hbatches

/-- Two events, the JSON `1` and then `2 3`, with the timer firing between them. -/
def twoEvents : List Input :=
  [.recv ⟨framed [1], some 1⟩, .timeout, .pop (some ⟨framed [2, 3], some 2⟩)]

theorem run_closed_delivers_twoEvents :
    (∀ i ∈ twoEvents, ∀ event ∈ i.event?, event.Fits) ∧
    ∃ batches s, (new 1480).run (twoEvents ++ [.closed]) = some (batches, s) ∧
      (batches.map decodeBatch).flatten = received twoEvents := by
  have hi : ∀ i ∈ twoEvents, ∀ event ∈ i.event?, event.Fits := by
    intro i hi event he
    simp only [twoEvents, List.mem_cons, List.mem_nil_iff, or_false] at hi
    rcases hi with rfl | rfl | rfl <;> simp only [Input.event?, Option.mem_def, Option.some.injEq,
      reduceCtorEq] at he <;> subst he
    · exact fits_of_length_le (by decide) _
    · exact fits_of_length_le (by decide) _
  exact ⟨hi, run_closed_delivers 1480 hi⟩

/-- An event of `u16::MAX - 1` or `u16::MAX` bytes of JSON is accepted by `query_to_sub_event`,
but its frame alone is over `u16::MAX` bytes: whatever the cap, the stream panics at the
`expect("unreachable")` of the first `freeze` after it, the final one in `poll_next` or `drain`,
or the one in `pop`. -/
theorem run_panics_of_json_length {json : List UInt8} (hlo : 65534 ≤ json.length)
    (hhi : json.length ≤ 65535) (changeId : Option Nat) (maxSize : UInt16) :
    ∃ event, queryToSubEvent .new json changeId = some (.ok (event, .new)) ∧
      (new maxSize).run [.recv event, .closed] = none ∧
      (new maxSize).run [.pop (some event)] = none := by
  have hne : json ≠ [] := by
    intro h
    simp [h] at hlo
  -- The frame goes into the empty batch, which is frozen to nothing first.
  have hcap : ∀ max : UInt16, PrefixedBuf.new.extendCapped (framed json) max =
      some (none, PrefixedBuf.new.extend (framed json)) := by
    intro max
    have hmax := max.toNat_lt
    rw [PrefixedBuf.extendCapped_of_gt (by simp; omega),
      PrefixedBuf.freeze_of_payload_nil PrefixedBuf.payload_new]
    rfl
  have hover : 65535 < (PrefixedBuf.new.extend (framed json)).payload.length := by
    simp
    omega
  refine ⟨⟨framed json, changeId⟩, queryToSubEvent_new hne hhi changeId, ?_, ?_⟩
  · simp [run, step, new, handleSubEvent, hcap, PrefixedBuf.freeze_of_length_gt hover]
  · simp [run, step, new, handleSubEvent, hcap, PrefixedBuf.freeze_of_length_gt hover]

/-- The JSON string of 65532 letters `a`, 65534 bytes with its quotes. -/
def longJsonString : List UInt8 := 0x22 :: List.replicate 65532 0x61 ++ [0x22]

theorem run_panics_longJsonString :
    65534 ≤ longJsonString.length ∧ longJsonString.length ≤ 65535 ∧
      ∃ event, queryToSubEvent .new longJsonString none = some (.ok (event, .new)) ∧
        (new 1480).run [.recv event, .closed] = none ∧ (new 1480).run [.pop (some event)] = none := by
  have hlen : longJsonString.length = 65534 := by
    rw [longJsonString, List.length_append, List.length_cons, List.length_replicate]
    rfl
  exact ⟨by omega, by omega, run_panics_of_json_length (by omega) (by omega) none 1480⟩

end BufferingSubStream

end Quilkin.Corrosion
