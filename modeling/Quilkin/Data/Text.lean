import Mathlib.Data.List.Basic
import Mathlib.Data.Nat.Init

/-!
# Text: splitting, and unsigned integers

What Rust's `str` and unsigned integer types do with text, on the characters of a string:
`split_once` and `rsplit_once` at a character, `strip_prefix`, `char::to_digit`, and `FromStr` of
an unsigned integer (`from_str_radix`), whose errors are the kinds of `ParseIntError`. The
`Display` of an unsigned integer is its decimal digits, `Nat.toDigits 10`.

The lemmas read back what is written: a split at a character finds the one that the text before
it lacks, and the digits of a number in range parse back to it.
-/

namespace Text

/-- `split_once(sep)`: the text before the first `sep`, and the text after it. -/
def splitOnce (sep : Char) : List Char → Option (List Char × List Char)
  | [] => none
  | c :: cs => if c = sep then some ([], cs) else (splitOnce sep cs).map fun p => (c :: p.1, p.2)

/-- `rsplit_once(sep)`: the text before the last `sep`, and the text after it. -/
def rsplitOnce (sep : Char) (cs : List Char) : Option (List Char × List Char) :=
  (splitOnce sep cs.reverse).map fun p => (p.2.reverse, p.1.reverse)

/-- `strip_prefix(c)`. -/
def stripPrefix (c : Char) : List Char → Option (List Char)
  | d :: cs => if d = c then some cs else none
  | [] => none

variable {sep : Char} {a b cs : List Char}

theorem splitOnce_eq_none (h : sep ∉ cs) : splitOnce sep cs = none := by
  induction cs with
  | nil => rfl
  | cons c cs ih =>
    have hc : c ≠ sep := fun hc => h (hc ▸ List.mem_cons_self)
    rw [splitOnce, if_neg hc, ih (fun hs => h (List.mem_cons_of_mem c hs)), Option.map_none]

theorem splitOnce_eq_none_iff : splitOnce sep cs = none ↔ sep ∉ cs := by
  constructor
  · intro h hmem
    induction cs with
    | nil => cases hmem
    | cons c cs ih =>
      rw [splitOnce] at h
      split_ifs at h with hc
      rcases List.mem_cons.mp hmem with hsep | hmem
      · exact hc hsep.symm
      · exact ih (Option.map_eq_none_iff.mp h) hmem
  · exact splitOnce_eq_none

/-- The split is at the first `sep`. -/
theorem splitOnce_append (h : sep ∉ a) : splitOnce sep (a ++ sep :: b) = some (a, b) := by
  induction a with
  | nil => simp [splitOnce]
  | cons c a ih =>
    have hc : c ≠ sep := fun hc => h (hc ▸ List.mem_cons_self)
    rw [List.cons_append, splitOnce, if_neg hc, ih (fun hs => h (List.mem_cons_of_mem c hs)),
      Option.map_some]

theorem splitOnce_eq_some_iff : splitOnce sep cs = some (a, b) ↔ cs = a ++ sep :: b ∧ sep ∉ a := by
  constructor
  · intro h
    induction cs generalizing a with
    | nil => cases h
    | cons c cs ih =>
      rw [splitOnce] at h
      split_ifs at h with hc
      · -- the first character is the separator
        cases h
        exact ⟨by rw [hc]; rfl, List.not_mem_nil⟩
      · obtain ⟨p, hp, hpa⟩ := Option.map_eq_some_iff.mp h
        obtain ⟨rfl, rfl⟩ := Prod.mk.inj hpa
        obtain ⟨hcs, hsep⟩ := ih hp
        refine ⟨by rw [hcs]; rfl, ?_⟩
        rw [List.mem_cons, not_or]
        exact ⟨Ne.symm hc, hsep⟩
  · rintro ⟨rfl, hsep⟩
    exact splitOnce_append hsep

/-- The split is at the last `sep`. -/
theorem rsplitOnce_append (h : sep ∉ b) : rsplitOnce sep (a ++ sep :: b) = some (a, b) := by
  have hrev : (a ++ sep :: b).reverse = b.reverse ++ sep :: a.reverse := by simp
  rw [rsplitOnce, hrev, splitOnce_append (by simpa using h), Option.map_some]
  simp

theorem stripPrefix_cons (c : Char) (cs : List Char) : stripPrefix c (c :: cs) = some cs := by
  simp [stripPrefix]

theorem stripPrefix_eq_none {c d : Char} (h : d ≠ c) (cs : List Char) :
    stripPrefix c (d :: cs) = none := by
  simp [stripPrefix, h]

/-! ## Unsigned integers -/

/-- `char::to_digit(radix)`, for a radix of at most 36: a decimal digit, or a letter of either
case counted from `10`, below the radix. -/
def toDigit (radix : Nat) (c : Char) : Option Nat :=
  let digit := if '0' ≤ c ∧ c ≤ '9' then c.toNat - '0'.toNat
    else if 'a' ≤ c ∧ c ≤ 'z' then c.toNat - 'a'.toNat + 10
    else if 'A' ≤ c ∧ c ≤ 'Z' then c.toNat - 'A'.toNat + 10
    else radix
  if digit < radix then some digit else none

/-- The digit characters `Nat.toDigits` writes read back, in every radix up to sixteen. -/
theorem toDigit_digitChar {radix d : Nat} (hd : d < radix) (hr : radix ≤ 16) :
    toDigit radix d.digitChar = some d := by
  -- a digit below ten is written as a decimal digit, and one above it as a lowercase letter
  have hcases : ∀ d < 16,
      ('0' ≤ d.digitChar ∧ d.digitChar ≤ '9' ∧ d.digitChar.toNat - '0'.toNat = d) ∨
      (¬('0' ≤ d.digitChar ∧ d.digitChar ≤ '9') ∧ 'a' ≤ d.digitChar ∧ d.digitChar ≤ 'z' ∧
        d.digitChar.toNat - 'a'.toNat + 10 = d) := by decide
  unfold toDigit
  rcases hcases d (by omega) with ⟨h0, h9, hval⟩ | ⟨hdec, ha, hz, hval⟩
  · simp only [if_pos (And.intro h0 h9), hval, if_pos hd]
  · simp only [if_neg hdec, if_pos (And.intro ha hz), hval, if_pos hd]

/-- `IntErrorKind`: the kinds of `ParseIntError` that parsing an unsigned integer gives. -/
inductive IntErrorKind
  | empty
  | invalidDigit
  | posOverflow
  deriving DecidableEq, Repr

/-- The checked loop of `from_str_radix` for a type of largest value `max`: each character must
be a digit, and the value so far times the radix plus the digit must stay in range. -/
def parseDigits (radix max : Nat) : Nat → List Char → Except IntErrorKind Nat
  | acc, [] => .ok acc
  | acc, c :: cs =>
    match toDigit radix c with
    | none => .error .invalidDigit
    | some d => if acc * radix + d ≤ max then parseDigits radix max (acc * radix + d) cs
      else .error .posOverflow

/-- `from_str_radix` of an unsigned type of largest value `max`: an empty text, a lone sign, and a
`-` are refused; a leading `+` is skipped. -/
def fromStrRadix (radix max : Nat) : List Char → Except IntErrorKind Nat
  | [] => .error .empty
  | ['+'] => .error .invalidDigit
  | ['-'] => .error .invalidDigit
  | '+' :: cs => parseDigits radix max 0 cs
  | cs => parseDigits radix max 0 cs

/-- `u16::from_str`. -/
def parseU16 (cs : List Char) : Except IntErrorKind UInt16 :=
  (fromStrRadix 10 65535 cs).map Nat.toUInt16

theorem parseDigits_append (radix max acc : Nat) (l₁ l₂ : List Char) :
    parseDigits radix max acc (l₁ ++ l₂) =
      (parseDigits radix max acc l₁).bind fun acc => parseDigits radix max acc l₂ := by
  induction l₁ generalizing acc with
  | nil => rfl
  | cons c l₁ ih =>
    rw [List.cons_append, parseDigits, parseDigits]
    cases toDigit radix c with
    | none => rfl
    | some d =>
      dsimp only
      split_ifs
      · exact ih _
      · rfl

/-- The digits of a number in range parse back to it, by the recursion of `Nat.toDigits`: the
digits of `n / radix`, then the last one. -/
theorem parseDigits_toDigits {radix max : Nat} (hr : 1 < radix) (hr' : radix ≤ 16) {n : Nat}
    (hn : n ≤ max) : parseDigits radix max 0 (Nat.toDigits radix n) = .ok n := by
  induction n using Nat.strong_induction_on with
  | _ n ih =>
    rw [Nat.toDigits_eq_if hr]
    split_ifs with hlt
    · simp [parseDigits, toDigit_digitChar hlt hr', hn]
    · have hdiv : n / radix < n := Nat.div_lt_self (by omega) hr
      have hmod : n % radix < radix := Nat.mod_lt n (by omega)
      have hval : n / radix * radix + n % radix = n := Nat.div_add_mod' n radix
      rw [parseDigits_append, ih (n / radix) hdiv (by omega)]
      show parseDigits radix max (n / radix) [(n % radix).digitChar] = _
      rw [parseDigits, toDigit_digitChar hmod hr']
      show (if n / radix * radix + n % radix ≤ max then parseDigits radix max _ [] else _) = _
      rw [hval, if_pos hn]
      rfl

/-- Every character `Nat.toDigits` writes is the digit character of a digit of the radix. -/
theorem exists_digitChar_of_mem_toDigits {radix n : Nat} (hr : 1 < radix) {c : Char}
    (hc : c ∈ Nat.toDigits radix n) : ∃ d < radix, c = d.digitChar := by
  induction n using Nat.strong_induction_on with
  | _ n ih =>
    rw [Nat.toDigits_eq_if hr] at hc
    split_ifs at hc with hlt
    · exact ⟨n, hlt, List.mem_singleton.mp hc⟩
    · rcases List.mem_append.mp hc with hc | hc
      · exact ih (n / radix) (Nat.div_lt_self (by omega) hr) hc
      · exact ⟨n % radix, Nat.mod_lt n (by omega), List.mem_singleton.mp hc⟩

/-- The digits of a number hold no character that is not a digit or a letter. -/
theorem not_mem_toDigits {radix n : Nat} (hr : 1 < radix) (hr' : radix ≤ 16) {c : Char}
    (hc : toDigit 16 c = none) : c ∉ Nat.toDigits radix n := by
  intro hmem
  obtain ⟨d, hd, rfl⟩ := exists_digitChar_of_mem_toDigits hr hmem
  rw [toDigit_digitChar (by omega) (Nat.le_refl 16)] at hc
  cases hc

/-- `Display` and `FromStr` of a `u16` agree. -/
theorem parseU16_toDigits (n : UInt16) : parseU16 (Nat.toDigits 10 n.toNat) = .ok n := by
  have hdigits : parseDigits 10 65535 0 (Nat.toDigits 10 n.toNat) = .ok n.toNat :=
    parseDigits_toDigits (by decide) (by decide) (Nat.le_of_lt_succ n.toNat_lt)
  -- the first character is a digit, so no sign is read
  obtain ⟨c, cs, hcs⟩ := List.exists_cons_of_ne_nil (Nat.toDigits_ne_nil (n := n.toNat) (b := 10))
  obtain ⟨d, hd, hc⟩ := exists_digitChar_of_mem_toDigits (n := n.toNat) (by decide)
    (hcs ▸ List.mem_cons_self)
  have hdigit : toDigit 16 c = some d := hc ▸ toDigit_digitChar (by omega) (Nat.le_refl 16)
  have hplus : c ≠ '+' := by
    intro h
    rw [h] at hdigit
    cases hdigit
  have hminus : c ≠ '-' := by
    intro h
    rw [h] at hdigit
    cases hdigit
  rw [hcs] at hdigits
  unfold parseU16
  rw [hcs]
  have hfrom : fromStrRadix 10 65535 (c :: cs) = parseDigits 10 65535 0 (c :: cs) := by
    unfold fromStrRadix
    split <;> simp_all
  rw [hfrom, hdigits]
  simp [Except.map]

end Text
