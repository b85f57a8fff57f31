import Quilkin.Corrosion.TokenSet
import Mathlib.Algebra.Order.Group.Nat
import Mathlib.Algebra.Order.BigOperators.Group.List
import Mathlib.Data.List.Perm.Subperm
import Mathlib.Algebra.GroupWithZero.Nat

/-!
# The token-set column round trip

What `deserialize_token_set` makes of what `to_sql` wrote, for every token set of at most
`MAX_TOKENS` tokens of at most 255 bytes each:

* it gives the set back in the three layouts the reader knows (`readBlob_blob_single`,
  `readBlob_blob_sameLen`, `readBlob_blob_lenPrefixed`);
* it never gives the set back when there are several tokens, all of one length above
  `MAX_TOKENS` (`readBlob_blob_ne_of_wideSameLen`): the writer then puts the count in the header,
  as for the count-prefixed layout, but leaves out the length bytes because `len_prefix` is
  `!same_len`, and the reader takes the first byte of the first token for a length.

`deserializeTokenSet_toSql_iff` puts the two together.
-/

namespace Quilkin.Corrosion

open Buffer

/-! ## Bytes of the header -/

private theorem sameLen_header_bits_fin : ∀ n : Fin 128,
    (0x80 ||| UInt8.ofNat n) &&& 0x80 ≠ 0 ∧ ((0x80 ||| UInt8.ofNat n) &&& ~~~0x80).toNat = n := by
  decide

private theorem count_header_bits_fin : ∀ n : Fin 128,
    UInt8.ofNat n &&& 0x80 = 0 ∧ (UInt8.ofNat n).toNat = n := by
  decide

/-- The header of the equal-length layout keeps the flag bit and the length apart. -/
theorem sameLen_header_bits {n : Nat} (h : n ≤ maxTokens) :
    (0x80 ||| UInt8.ofNat n) &&& 0x80 ≠ 0 ∧ ((0x80 ||| UInt8.ofNat n) &&& ~~~0x80).toNat = n :=
  sameLen_header_bits_fin ⟨n, by unfold maxTokens at h; omega⟩

/-- A count of at most `MAX_TOKENS` leaves the flag bit clear. -/
theorem count_header_bits {n : Nat} (h : n ≤ maxTokens) :
    UInt8.ofNat n &&& 0x80 = 0 ∧ (UInt8.ofNat n).toNat = n :=
  count_header_bits_fin ⟨n, by unfold maxTokens at h; omega⟩

/-- A count of several tokens reads back as more than one. -/
theorem count_header_gt {n : Nat} (h : n ≤ maxTokens) (hcount : 1 < n) : UInt8.ofNat n > 1 := by
  rw [GT.gt, UInt8.lt_iff_toNat_lt, (count_header_bits h).2]
  exact hcount

theorem TokenSet.mem_iff {tok : List UInt8} {ts : TokenSet} : tok ∈ ts ↔ tok ∈ ts.toSet.toList :=
  Iff.rfl

theorem TokenSet.ext_toList {ts ts' : TokenSet} (h : ts.toSet.toList = ts'.toSet.toList) :
    ts = ts' := by
  obtain ⟨s⟩ := ts
  obtain ⟨s'⟩ := ts'
  have hs : s.toList = s'.toList := h
  rw [SortedSet.toList_inj.mp hs]

/-! ## The writer's choice of layout -/

section Header

variable {tokens : List (List UInt8)}

theorem header_of_length_le_one (h : tokens.length ≤ 1) : TokenSet.header tokens = (1, false) := by
  rw [TokenSet.header, if_neg (by omega)]

theorem header_of_sameLen (h : 1 < tokens.length)
    (hall : ∀ tok ∈ tokens, tok.length = tokens.head!.length) :
    TokenSet.header tokens =
      (if tokens.head!.length ≤ maxTokens then 0x80 ||| UInt8.ofNat tokens.head!.length
        else UInt8.ofNat tokens.length, false) := by
  have hsame : (tokens.all fun tok => tok.length == tokens.head!.length) = true := by
    simpa using hall
  rw [TokenSet.header, if_pos h]
  simp only [hsame, Bool.true_and, decide_eq_true_eq, Bool.not_true]

theorem header_of_not_sameLen (h : 1 < tokens.length)
    (hne : ∃ tok ∈ tokens, tok.length ≠ tokens.head!.length) :
    TokenSet.header tokens = (UInt8.ofNat tokens.length, true) := by
  have hsame : (tokens.all fun tok => tok.length == tokens.head!.length) = false := by
    simpa using hne
  rw [TokenSet.header, if_pos h]
  simp only [hsame, Bool.false_and, Bool.false_eq_true, if_false, Bool.not_false]

end Header

/-! ## The reader on each layout -/

/-- One turn of the count-prefixed loop over a token after its length byte. -/
theorem readLenPrefixed_cons_flatMap (n : Nat) {tok : List UInt8} (l : List (List UInt8))
    (acc : SortedSet (List UInt8)) (htok : tok.length ≤ 255) :
    readLenPrefixed (n + 1) ((tok :: l).flatMap fun tok => [UInt8.ofNat tok.length] ++ tok) acc =
      readLenPrefixed n (l.flatMap fun tok => [UInt8.ofNat tok.length] ++ tok) (acc.insert tok) := by
  have hbyte : (UInt8.ofNat tok.length).toNat = tok.length := by
    rw [UInt8.toNat_ofNat']
    exact Nat.mod_eq_of_lt (by omega)
  have hflat : (tok :: l).flatMap (fun tok => [UInt8.ofNat tok.length] ++ tok) =
      UInt8.ofNat tok.length :: (tok ++ l.flatMap fun tok => [UInt8.ofNat tok.length] ++ tok) := by
    simp
  have hlt : tok.length < (UInt8.ofNat tok.length ::
      (tok ++ l.flatMap fun tok => [UInt8.ofNat tok.length] ++ tok)).length := by
    simp only [List.length_cons, List.length_append]
    omega
  rw [hflat, readLenPrefixed, hbyte, if_pos hlt, List.take_left' rfl, List.drop_left' rfl]

/-- The count-prefixed loop reads back tokens written after their length bytes. -/
theorem readLenPrefixed_flatMap (l : List (List UInt8)) (acc : SortedSet (List UInt8))
    (hlen : ∀ tok ∈ l, tok.length ≤ 255) :
    readLenPrefixed l.length (l.flatMap fun tok => [UInt8.ofNat tok.length] ++ tok) acc =
      some (.ok (l.foldl (fun s tok => s.insert tok) acc)) := by
  induction l generalizing acc with
  | nil => rfl
  | cons tok l ih =>
    rw [List.length_cons, readLenPrefixed_cons_flatMap l.length l acc (hlen tok List.mem_cons_self),
      ih (acc.insert tok) fun t ht => hlen t (List.mem_cons_of_mem tok ht), List.foldl_cons]

/-- A loop that succeeds has read tokens that, with their length bytes, fit in what it was
given, and it added nothing else. -/
theorem readLenPrefixed_ok {n : Nat} {toks : List UInt8} {acc r : SortedSet (List UInt8)}
    (h : readLenPrefixed n toks acc = some (.ok r)) :
    ∃ reads : List (List UInt8), (∀ x ∈ r, x ∈ acc ∨ x ∈ reads) ∧
      (reads.map fun tok => tok.length + 1).sum ≤ toks.length := by
  induction n generalizing toks acc with
  | zero =>
    have hr : acc = r := by simpa [readLenPrefixed] using h
    subst hr
    exact ⟨[], fun x hx => .inl hx, by simp⟩
  | succ n ih =>
    cases toks with
    | nil => simp [readLenPrefixed] at h
    | cons lenByte rest =>
      by_cases hlt : lenByte.toNat < (lenByte :: rest).length
      · rw [readLenPrefixed, if_pos hlt] at h
        obtain ⟨reads, hmem, hsum⟩ := ih h
        refine ⟨rest.take lenByte.toNat :: reads, ?_, ?_⟩
        · intro x hx
          rcases hmem x hx with hx | hx
          · rcases SortedSet.mem_insert.mp hx with rfl | hx
            · exact .inr List.mem_cons_self
            · exact .inl hx
          · exact .inr (List.mem_cons_of_mem _ hx)
        · simp only [List.length_cons] at hlt
          simp only [List.map_cons, List.sum_cons, List.length_take, List.length_drop,
            List.length_cons] at hsum ⊢
          omega
      · rw [readLenPrefixed, if_neg hlt] at h
        simp at h

/-- The count-prefixed loop runs out of bytes, and indexes past the end of the blob, exactly on
fewer complete tokens than its count, each after its length byte, with nothing after them. -/
theorem exists_of_readLenPrefixed_eq_none {n : Nat} {toks : List UInt8}
    {acc : SortedSet (List UInt8)} (h : readLenPrefixed n toks acc = none) :
    ∃ l : List (List UInt8), l.length < n ∧ (∀ tok ∈ l, tok.length ≤ 255) ∧
      toks = l.flatMap fun tok => [UInt8.ofNat tok.length] ++ tok := by
  induction n generalizing toks acc with
  | zero => simp [readLenPrefixed] at h
  | succ n ih =>
    cases toks with
    | nil => exact ⟨[], Nat.succ_pos n, by simp, rfl⟩
    | cons lenByte rest =>
      by_cases hlt : lenByte.toNat < (lenByte :: rest).length
      · rw [readLenPrefixed, if_pos hlt] at h
        obtain ⟨l, hl, hlen, hrest⟩ := ih h
        -- the token just read, then the ones the rest of the loop read
        have htake : (rest.take lenByte.toNat).length = lenByte.toNat := by
          simp only [List.length_cons] at hlt
          simp only [List.length_take]
          omega
        refine ⟨rest.take lenByte.toNat :: l, by simpa using hl, ?_, ?_⟩
        · intro tok htok
          rcases List.mem_cons.mp htok with rfl | htok
          · have := lenByte.toNat_lt
            omega
          · exact hlen tok htok
        · rw [List.flatMap_cons, htake, UInt8.ofNat_toNat, ← hrest, List.singleton_append,
            List.cons_append, List.take_append_drop]
      · rw [readLenPrefixed, if_neg hlt] at h
        simp at h

theorem readLenPrefixed_flatMap_of_length_lt {l : List (List UInt8)} {n : Nat}
    (acc : SortedSet (List UInt8)) (hl : l.length < n) (hlen : ∀ tok ∈ l, tok.length ≤ 255) :
    readLenPrefixed n (l.flatMap fun tok => [UInt8.ofNat tok.length] ++ tok) acc = none := by
  induction l generalizing n acc with
  | nil =>
    obtain ⟨n, rfl⟩ : ∃ m, n = m + 1 := ⟨n - 1, by simp at hl; omega⟩
    rfl
  | cons tok l ih =>
    obtain ⟨n, rfl⟩ : ∃ m, n = m + 1 := ⟨n - 1, by simp at hl; omega⟩
    rw [readLenPrefixed_cons_flatMap n l acc (hlen tok List.mem_cons_self)]
    exact ih _ (by simpa using hl) fun t ht => hlen t (List.mem_cons_of_mem tok ht)

theorem readLenPrefixed_eq_none_iff {n : Nat} {toks : List UInt8} {acc : SortedSet (List UInt8)} :
    readLenPrefixed n toks acc = none ↔
      ∃ l : List (List UInt8), l.length < n ∧ (∀ tok ∈ l, tok.length ≤ 255) ∧
        toks = l.flatMap fun tok => [UInt8.ofNat tok.length] ++ tok := by
  constructor
  · exact exists_of_readLenPrefixed_eq_none
  · rintro ⟨l, hl, hlen, rfl⟩
    exact readLenPrefixed_flatMap_of_length_lt acc hl hlen

section Layouts

variable {ts : TokenSet}

theorem readBlob_blob_single {tok : List UInt8} (h : ts.toSet.toList = [tok]) :
    readBlob ts.blob = some (.ok ts) := by
  have hblob : ts.blob = 1 :: tok := by
    simp [TokenSet.blob, h, header_of_length_le_one]
  rw [hblob, readBlob]
  have hset : (⟨SortedSet.empty.insert tok⟩ : TokenSet) = ts := by
    apply TokenSet.ext_toList
    rw [h]
    rfl
  simp only [if_neg (by decide : ¬ (1 : UInt8) &&& 0x80 ≠ 0), if_neg (by decide : ¬ (1 : UInt8) > 1),
    hset]

theorem readBlob_blob_sameLen {len : Nat} (hcount : 1 < ts.toSet.card) (hmax : len ≤ maxTokens)
    (hall : ∀ tok ∈ ts, tok.length = len) :
    readBlob ts.blob = some (.ok ts) := by
  obtain ⟨t, t', rest, hl⟩ : ∃ t t' rest, ts.toSet.toList = t :: t' :: rest := by
    match h : ts.toSet.toList, hcount with
    | t :: t' :: rest, _ => exact ⟨t, t', rest, rfl⟩
    | [], hc => simp [SortedSet.card, h] at hc
    | [_], hc => simp [SortedSet.card, h] at hc
  have hhead : ts.toSet.toList.head!.length = len := by
    rw [hl]
    exact hall t (by simp [TokenSet.mem_iff, hl])
  -- Two distinct tokens of one length: the length is not zero.
  have hpos : 0 < len := by
    have hne : t ≠ t' := (List.nodup_cons.mp (hl ▸ ts.toSet.nodup_toList)).1 ∘ fun h => by simp [h]
    have ht : t.length = len := hall t (by simp [TokenSet.mem_iff, hl])
    have ht' : t'.length = len := hall t' (by simp [TokenSet.mem_iff, hl])
    refine Nat.pos_of_ne_zero fun h0 => hne ?_
    rw [List.eq_nil_of_length_eq_zero (ht.trans h0), List.eq_nil_of_length_eq_zero (ht'.trans h0)]
  have hheader : TokenSet.header ts.toSet.toList = (0x80 ||| UInt8.ofNat len, false) := by
    rw [header_of_sameLen hcount (fun tok htok => (hall tok htok).trans hhead.symm), hhead,
      if_pos hmax]
  have hblob : ts.blob = (0x80 ||| UInt8.ofNat len) :: ts.toSet.toList.flatten := by
    simp [TokenSet.blob, hheader]
  obtain ⟨hflag, hbits⟩ := sameLen_header_bits hmax
  rw [hblob, readBlob, if_pos hflag]
  simp only [hbits, chunksExact_flatten hpos hall, Option.map_some]
  exact congrArg (some ∘ Except.ok) (congrArg TokenSet.mk (SortedSet.ofList_toList ts.toSet))

theorem readBlob_blob_lenPrefixed (hcount : 1 < ts.toSet.card) (hmax : ts.toSet.card ≤ maxTokens)
    (hlen : ∀ tok ∈ ts, tok.length ≤ 255)
    (hne : ∃ tok ∈ ts, tok.length ≠ ts.toSet.toList.head!.length) :
    readBlob ts.blob = some (.ok ts) := by
  have hheader := header_of_not_sameLen hcount hne
  have hblob : ts.blob = UInt8.ofNat ts.toSet.card ::
      ts.toSet.toList.flatMap fun tok => [UInt8.ofNat tok.length] ++ tok := by
    simp [TokenSet.blob, hheader, SortedSet.card]
  obtain ⟨hflag, hbits⟩ := count_header_bits hmax
  have hgt := count_header_gt hmax hcount
  rw [hblob, readBlob, if_neg (not_not.mpr hflag), if_pos hgt, hbits, SortedSet.card,
    readLenPrefixed_flatMap _ _ hlen, Option.map_some]
  exact congrArg (some ∘ Except.ok) (congrArg TokenSet.mk (SortedSet.ofList_toList ts.toSet))

/-- Several tokens of one length above `MAX_TOKENS` are never read back: the reader would have
to find a length byte before each of them in a blob that has none. -/
theorem readBlob_blob_ne_of_wideSameLen {len : Nat} (hcount : 1 < ts.toSet.card)
    (hmax : ts.toSet.card ≤ maxTokens) (hwide : maxTokens < len)
    (hall : ∀ tok ∈ ts, tok.length = len) :
    readBlob ts.blob ≠ some (.ok ts) := by
  have hhead : ts.toSet.toList.head!.length = len := by
    match h : ts.toSet.toList, hcount with
    | t :: _, _ => exact hall t (by simp [TokenSet.mem_iff, h])
    | [], hc => simp [SortedSet.card, h] at hc
  have hheader : TokenSet.header ts.toSet.toList = (UInt8.ofNat ts.toSet.card, false) := by
    rw [header_of_sameLen hcount (fun tok htok => (hall tok htok).trans hhead.symm), hhead,
      if_neg (by omega), SortedSet.card]
  have hblob : ts.blob = UInt8.ofNat ts.toSet.card :: ts.toSet.toList.flatten := by
    simp [TokenSet.blob, hheader]
  obtain ⟨hflag, hbits⟩ := count_header_bits hmax
  have hgt := count_header_gt hmax hcount
  rw [hblob, readBlob, if_neg (not_not.mpr hflag), if_pos hgt, hbits]
  intro h
  obtain ⟨r, hr, hmk⟩ := Option.map_eq_some_iff.mp h
  obtain ⟨reads, hmem, hsum⟩ : ∃ reads : List (List UInt8),
      (∀ x ∈ ts.toSet, x ∈ (SortedSet.empty : SortedSet (List UInt8)) ∨ x ∈ reads) ∧
      (reads.map fun tok => tok.length + 1).sum ≤ ts.toSet.toList.flatten.length := by
    cases r with
    | error e => simp [Except.map] at hmk
    | ok s =>
      have hs : s = ts.toSet := by
        simp only [Except.map, Except.ok.injEq] at hmk
        rw [← hmk]
      subst hs
      exact readLenPrefixed_ok hr
  -- Every token was read, each with a length byte: more bytes than the blob holds.
  have hsub : ts.toSet.toList.Subperm reads := by
    refine List.Nodup.subperm ts.toSet.nodup_toList fun x hx => ?_
    rcases hmem x hx with hx | hx
    · exact absurd hx (SortedSet.not_mem_empty x)
    · exact hx
  obtain ⟨l, hperm, hsl⟩ := hsub
  have hread : (ts.toSet.toList.map fun tok => tok.length + 1).sum ≤
      (reads.map fun tok => tok.length + 1).sum := by
    rw [← (hperm.map _).sum_eq]
    exact (hsl.map _).sum_le_sum fun _ _ => Nat.zero_le _
  have hwritten : (ts.toSet.toList.map fun tok => tok.length + 1).sum = ts.toSet.card * (len + 1) := by
    rw [List.map_congr_left fun tok htok => by rw [hall tok htok], List.map_const',
      List.sum_replicate_nat, SortedSet.card]
  rw [length_flatten_of_length_eq hall] at hsum
  have hcard : ts.toSet.card = ts.toSet.toList.length := rfl
  rw [← hcard] at hsum
  have : ts.toSet.card * (len + 1) ≤ ts.toSet.card * len := by omega
  rw [Nat.mul_succ] at this
  omega

set_option maxRecDepth 4000 in
/-- The blob of `[0; 128]` and `[1; 128]`: the reader takes the zero bytes for lengths. -/
example : readBlob (2 :: List.replicate 128 0 ++ List.replicate 128 1) =
    some (.ok ⟨SortedSet.empty.insert []⟩) := by
  decide

end Layouts

/-! ## Through the column and base64 -/

/-- The layout the writer gets wrong: several tokens, all of one length above `MAX_TOKENS`. -/
def TokenSet.WideSameLen (ts : TokenSet) : Prop :=
  1 < ts.toSet.card ∧ ∃ len, maxTokens < len ∧ ∀ tok ∈ ts, tok.length = len

section Column

variable {c : Base64Nopad} {ts : TokenSet}

/-- A nonempty set is read back from its blob, base64 being undone exactly. -/
theorem deserializeTokenSet_toSql_eq_readBlob (hc : c.DecodeEncode) (hne : ts.toSet.toList ≠ []) :
    deserializeTokenSet c (ts.toSql c).asStr = readBlob ts.blob := by
  have hsql : ts.toSql c = .text (c.encode ts.blob) := by
    rw [TokenSet.toSql, if_neg (by simpa using hne)]
  have hblob : ts.blob.isEmpty = false := by
    simp [TokenSet.blob]
  rw [hsql, SqliteParam.asStr, deserializeTokenSet]
  simp only [Option.bind_some, hc ts.blob, hblob, Bool.false_eq_true, if_false]

/-- The empty set is written as `NULL` and read back as the empty set. -/
theorem deserializeTokenSet_toSql_of_nil (h : ts.toSet.toList = []) :
    deserializeTokenSet c (ts.toSql c).asStr = some (.ok ts) := by
  have hsql : ts.toSql c = .null := by
    rw [TokenSet.toSql, if_pos (by simp [h])]
  have hts : TokenSet.empty = ts := TokenSet.ext_toList h.symm
  rw [hsql, SqliteParam.asStr, deserializeTokenSet, hts]
  rfl

theorem deserializeTokenSet_toSql_ne_of_wideSameLen (hc : c.DecodeEncode)
    (hcount : ts.toSet.card ≤ maxTokens) (hwide : ts.WideSameLen) :
    deserializeTokenSet c (ts.toSql c).asStr ≠ some (.ok ts) := by
  obtain ⟨hmany, len, hlen, hall⟩ := hwide
  have hne : ts.toSet.toList ≠ [] := by
    intro h
    simp [SortedSet.card, h] at hmany
  rw [deserializeTokenSet_toSql_eq_readBlob hc hne]
  exact readBlob_blob_ne_of_wideSameLen hmany hcount hlen hall

/-- Two tokens of 128 bytes each, `[0; 128]` and `[1; 128]`. -/
def wideTokenPair : TokenSet :=
  ⟨⟨[List.replicate 128 0, List.replicate 128 1], List.pairwise_pair.mpr (by
    simp only [List.replicate_succ]
    exact List.Lex.rel (by decide))⟩⟩

theorem deserializeTokenSet_toSql_wideTokenPair :
    Base64Nopad.standard.DecodeEncode ∧ wideTokenPair.toSet.card ≤ maxTokens ∧
      wideTokenPair.WideSameLen ∧
      deserializeTokenSet .standard (wideTokenPair.toSql .standard).asStr ≠
        some (.ok wideTokenPair) := by
  have hcount : wideTokenPair.toSet.card ≤ maxTokens := by decide
  have hwide : wideTokenPair.WideSameLen := by
    refine ⟨by decide, 128, by decide, fun tok htok => ?_⟩
    rcases List.mem_pair.mp htok with rfl | rfl <;> simp
  exact ⟨Base64Nopad.standard_decodeEncode, hcount, hwide,
    deserializeTokenSet_toSql_ne_of_wideSameLen Base64Nopad.standard_decodeEncode hcount hwide⟩

/-- Within the bounds the writer asserts, the column gives the set back exactly when the set is
not in the wide equal-length layout. -/
theorem deserializeTokenSet_toSql_iff (hc : c.DecodeEncode) (hcount : ts.toSet.card ≤ maxTokens)
    (hlen : ∀ tok ∈ ts, tok.length ≤ 255) :
    deserializeTokenSet c (ts.toSql c).asStr = some (.ok ts) ↔ ¬ ts.WideSameLen := by
  match hl : ts.toSet.toList with
  | [] =>
    have hnarrow : ¬ ts.WideSameLen := fun ⟨hmany, _⟩ => by simp [SortedSet.card, hl] at hmany
    exact iff_of_true (deserializeTokenSet_toSql_of_nil hl) hnarrow
  | [tok] =>
    have hnarrow : ¬ ts.WideSameLen := fun ⟨hmany, _⟩ => by simp [SortedSet.card, hl] at hmany
    rw [deserializeTokenSet_toSql_eq_readBlob hc (by simp [hl])]
    exact iff_of_true (readBlob_blob_single hl) hnarrow
  | t :: t' :: rest =>
    have hmany : 1 < ts.toSet.card := by simp [SortedSet.card, hl]
    have hhead : ts.toSet.toList.head! = t := by rw [hl]; rfl
    rw [deserializeTokenSet_toSql_eq_readBlob hc (by simp [hl])]
    by_cases hsame : ∀ tok ∈ ts, tok.length = t.length
    · by_cases hshort : t.length ≤ maxTokens
      · -- All of one short length: the equal-length layout.
        have hnarrow : ¬ ts.WideSameLen := by
          rintro ⟨-, len, hgt, hall⟩
          have ht : t.length = len := hall t (by simp [TokenSet.mem_iff, hl])
          omega
        exact iff_of_true (readBlob_blob_sameLen hmany hshort hsame) hnarrow
      · -- All of one long length: the layout the reader misreads.
        have hwide : ts.WideSameLen := ⟨hmany, t.length, by omega, hsame⟩
        exact iff_of_false (readBlob_blob_ne_of_wideSameLen hmany hcount (by omega) hsame)
          (not_not.mpr hwide)
    · -- Lengths differ: the count-prefixed layout.
      have hne : ∃ tok ∈ ts, tok.length ≠ ts.toSet.toList.head!.length := by
        rw [hhead]
        simpa using hsame
      have hnarrow : ¬ ts.WideSameLen := by
        rintro ⟨-, len, -, hall⟩
        have ht : t.length = len := hall t (by simp [TokenSet.mem_iff, hl])
        exact hsame fun tok htok => (hall tok htok).trans ht.symm
      exact iff_of_true (readBlob_blob_lenPrefixed hmany hcount hlen hne) hnarrow

end Column

/-! ## Where the reader panics -/

private theorem header_bits_fin : ∀ n : Fin 256,
    (UInt8.ofNat n &&& 0x80 ≠ 0 ↔ 0x80 ≤ UInt8.ofNat n) ∧
      (0x80 ≤ UInt8.ofNat n → ((UInt8.ofNat n &&& ~~~0x80).toNat = 0 ↔ UInt8.ofNat n = 0x80)) := by
  decide +kernel

/-- The flag bit of a header is its being at least `0x80`, and the length it leaves is zero only
for `0x80` itself. -/
theorem header_bits (header : UInt8) :
    (header &&& 0x80 ≠ 0 ↔ 0x80 ≤ header) ∧
      (0x80 ≤ header → ((header &&& ~~~0x80).toNat = 0 ↔ header = 0x80)) := by
  have h := header_bits_fin ⟨header.toNat, header.toNat_lt⟩
  simp only [UInt8.ofNat_toNat] at h
  exact h

/-- The reader of a nonempty blob panics exactly on the header `0x80`, an equal-length layout of
tokens of length zero (`chunks_exact(0)`), and on a count header over fewer complete tokens than
it counts (`toks[0]` past the end). -/
theorem readBlob_eq_none_iff {header : UInt8} {rest : List UInt8} :
    readBlob (header :: rest) = none ↔
      header = 0x80 ∨ 1 < header ∧ header < 0x80 ∧
        ∃ l : List (List UInt8), l.length < header.toNat ∧ (∀ tok ∈ l, tok.length ≤ 255) ∧
          rest = l.flatMap fun tok => [UInt8.ofNat tok.length] ++ tok := by
  obtain ⟨hflag, hlen⟩ := header_bits header
  rw [readBlob]
  by_cases hhigh : 0x80 ≤ header
  · -- the equal-length layout
    have hne : ¬ header < 0x80 := UInt8.not_lt.mpr hhigh
    rw [if_pos (hflag.mpr hhigh), Option.map_eq_none_iff, chunksExact_eq_none_iff, hlen hhigh]
    simp only [hne, false_and, and_false, or_false]
  · have hlow : header < 0x80 := UInt8.not_le.mp hhigh
    have hne : header ≠ 0x80 := fun h => hhigh (h ▸ UInt8.le_refl _)
    rw [if_neg (fun h => hhigh (hflag.mp h))]
    by_cases hcount : header > 1
    · -- the count-prefixed layout
      rw [if_pos hcount, Option.map_eq_none_iff, readLenPrefixed_eq_none_iff]
      simp only [hne, hcount, hlow, true_and, false_or]
    · -- one token, whatever follows
      rw [if_neg hcount]
      simp only [reduceCtorEq, false_iff, not_or]
      exact ⟨hne, fun h => hcount h.1⟩

/-- `deserialize_token_set(Some(s))` panics exactly where the text decodes to a nonempty blob that
the reader panics on. -/
theorem deserializeTokenSet_eq_none_iff {c : Base64Nopad} {s : String} :
    deserializeTokenSet c (some s) = none ↔
      ∃ header rest, c.decode s = some (header :: rest) ∧ readBlob (header :: rest) = none := by
  unfold deserializeTokenSet
  rcases Option.eq_none_or_eq_some (c.decode s) with hd | ⟨blob, hd⟩
  · simp [hd]
  · cases blob with
    | nil => simp [hd]
    | cons header rest => simp [hd]

/-- `deserialize_token_set` panics on a text from a peer exactly when its blob has the header
`0x80`, or a count header over fewer complete length-prefixed tokens than it counts. `"gA"` (the
blob `[0x80]`), `"Ag"` (the blob `[2]`) and `"AgA"` (the blob `[2, 0]`: one empty token of two)
are such texts. -/
theorem deserializeTokenSet_panics :
    (∀ (c : Base64Nopad) (s : String) (header : UInt8) (rest : List UInt8),
      c.decode s = some (header :: rest) →
        (deserializeTokenSet c (some s) = none ↔
          header = 0x80 ∨ 1 < header ∧ header < 0x80 ∧
            ∃ l : List (List UInt8), l.length < header.toNat ∧ (∀ tok ∈ l, tok.length ≤ 255) ∧
              rest = l.flatMap fun tok => [UInt8.ofNat tok.length] ++ tok)) ∧
      deserializeTokenSet .standard (some "gA") = none ∧
      deserializeTokenSet .standard (some "Ag") = none ∧
      deserializeTokenSet .standard (some "AgA") = none := by
  refine ⟨?_, by decide, by decide, by decide⟩
  intro c s header rest hd
  rw [deserializeTokenSet_eq_none_iff, ← readBlob_eq_none_iff]
  constructor
  · rintro ⟨header', rest', hd', hnone⟩
    rw [hd] at hd'
    cases hd'
    exact hnone
  · exact fun hnone => ⟨header, rest, hd, hnone⟩

end Quilkin.Corrosion
