import BitRelay.Js.Text

/-!
# Numerals

Decimal numerals in text: what `String(n)` and `padStart` write and
`Number.parseInt` reads. And the steps of a counter that is a double.

Results:
1. `parseInt10_numeral`: a numeral reads as its value, whatever follows it.
2. `numeral_inj`: padded numerals of one width, followed by a `-`, determine
   the number.
3. `incDouble_of_lt`, `le_incDouble`: a counter that is a double grows by one below
   2^53 and never gets smaller.
-/

namespace BitRelay

/-! ## Counters -/

/-- `Number.MAX_SAFE_INTEGER + 1`, 2^53: up to here the integers are doubles. -/
def MAX_EXACT_INTEGER : Nat := 9007199254740992

/-- `n + 1` for a double `n`. Between 2^53 and 2^54 the doubles are the even integers and a tie goes
to the multiple of 4; from 2^54 on `n` is nearest. -/
def incDouble (n : Nat) : Nat :=
  if n < MAX_EXACT_INTEGER then n + 1
  else if n < 2 * MAX_EXACT_INTEGER ∧ n % 4 = 2 then n + 2
  else n

/-- `Math.max(0, n - 1)` for a double `n`. -/
def decDouble (n : Nat) : Nat :=
  if n ≤ MAX_EXACT_INTEGER then n - 1
  else if n < 2 * MAX_EXACT_INTEGER ∧ n % 4 = 2 then n - 2
  else n

theorem incDouble_of_lt {n : Nat} (h : n < MAX_EXACT_INTEGER) : incDouble n = n + 1 := if_pos h

theorem le_incDouble (n : Nat) : n ≤ incDouble n := by
  unfold incDouble
  split
  · exact Nat.le_succ n
  · split
    · exact Nat.le_add_right n 2
    · exact Nat.le_refl n

theorem incDouble_pos (n : Nat) : 0 < incDouble n := by
  rcases Nat.lt_or_ge n MAX_EXACT_INTEGER with hlt | hge
  · rw [incDouble_of_lt hlt]
    exact Nat.succ_pos n
  · exact Nat.lt_of_lt_of_le (Nat.lt_of_lt_of_le (by decide) hge) (le_incDouble n)

/-! ## Numerals -/

/-- `s.padStart(width, '0')` for a numeral. -/
def padZeros (width : Nat) (s : String) : String :=
  String.ofList (List.replicate (width - s.length) '0') ++ s

/-- A nonempty list of digits. -/
def IsNumeral (ds : List Char) : Prop := ds ≠ [] ∧ ∀ c ∈ ds, c.isDigit = true

/-- What comes after a numeral does not continue it. -/
def EndsNumeral (rest : List Char) : Prop := ∀ c ∈ rest.head?, c.isDigit = false

namespace NumeralLemmas

theorem isNumeral_toString (n : Nat) : IsNumeral (toString n).toList := by
  rw [Nat.toString_eq_repr, Nat.toList_repr]
  exact ⟨Nat.toDigits_ne_nil, fun c hc => Nat.isDigit_of_mem_toDigits (by decide) (by decide) hc⟩

theorem toList_padZeros (width : Nat) (s : String) :
    (padZeros width s).toList = List.replicate (width - s.length) '0' ++ s.toList := by
  rw [padZeros, String.toList_append, String.toList_ofList]

theorem isNumeral_padZeros (width n : Nat) : IsNumeral (padZeros width (toString n)).toList := by
  obtain ⟨hne, hdigits⟩ := isNumeral_toString n
  rw [toList_padZeros]
  refine ⟨List.append_ne_nil_of_right_ne_nil _ hne, fun c hc => ?_⟩
  rcases List.mem_append.mp hc with hzero | hdigit
  · rw [List.eq_of_mem_replicate hzero]
    rfl
  · exact hdigits c hdigit

theorem ofDigitChars_toString (n : Nat) : Nat.ofDigitChars 10 (toString n).toList 0 = n := by
  rw [Nat.toString_eq_repr, Nat.toList_repr, Nat.ofDigitChars_ten_toDigits]

theorem ofDigitChars_padZeros (width n : Nat) :
    Nat.ofDigitChars 10 (padZeros width (toString n)).toList 0 = n := by
  rw [toList_padZeros, Nat.ofDigitChars_append, Nat.ofDigitChars_replicate_zero, Nat.mul_zero,
    ofDigitChars_toString]

theorem digitPrefix_of_ends {rest : List Char} (h : EndsNumeral rest) (acc : Option Nat) :
    digitPrefix rest acc = acc := by
  cases rest with
  | nil => rfl
  | cons c cs =>
    have hc : c.isDigit = false := h c rfl
    simp [digitPrefix, digitValue, hc]

theorem digitPrefix_digits {ds rest : List Char} (hds : ∀ c ∈ ds, c.isDigit = true)
    (hrest : EndsNumeral rest) (acc : Nat) :
    digitPrefix (ds ++ rest) (some acc) = some (Nat.ofDigitChars 10 ds acc) := by
  induction ds generalizing acc with
  | nil => exact digitPrefix_of_ends hrest _
  | cons c cs ih =>
    have hc : c.isDigit = true := hds c List.mem_cons_self
    have hcs := ih fun d hd => hds d (List.mem_cons_of_mem _ hd)
    rw [List.cons_append, Nat.ofDigitChars_cons]
    simp only [digitPrefix, digitValue, hc, if_true, Option.getD_some, hcs, Nat.mul_comm]

theorem digitPrefix_numeral {ds rest : List Char} (hds : IsNumeral ds)
    (hrest : EndsNumeral rest) :
    digitPrefix (ds ++ rest) none = some (Nat.ofDigitChars 10 ds 0) := by
  obtain ⟨hne, hdigits⟩ := hds
  cases ds with
  | nil => exact absurd rfl hne
  | cons c cs =>
    have hc : c.isDigit = true := hdigits c List.mem_cons_self
    have hstart : digitPrefix (c :: cs ++ rest) none = digitPrefix (c :: cs ++ rest) (some 0) := by
      simp only [List.cons_append, digitPrefix, digitValue, hc, if_true, Option.getD_none,
        Option.getD_some]
    rw [hstart, digitPrefix_digits hdigits hrest]

end NumeralLemmas

open NumeralLemmas

/-- A numeral reads as its value, whatever follows it. -/
theorem parseInt10_numeral {s : String} {ds rest : List Char} (hs : s.toList = ds ++ rest)
    (hds : IsNumeral ds) (hrest : EndsNumeral rest) :
    parseInt10 s = some (Nat.ofDigitChars 10 ds 0 : Int) := by
  have hstart := digitPrefix_numeral hds hrest
  obtain ⟨hne, hdigits⟩ := hds
  cases ds with
  | nil => exact absurd rfl hne
  | cons c cs =>
    have hc : c.isDigit = true := hdigits c List.mem_cons_self
    have hspace : isJsSpace c = false := by
      refine isJsSpace_of_isNameChar ?_
      simp only [isNameChar, isAlphanum_eq, hc, Bool.or_true, Bool.true_or]
    unfold parseInt10
    rw [hs, List.cons_append, List.dropWhile_cons_of_neg (by simp [hspace])]
    rw [List.cons_append] at hstart
    split
    · next heq =>
      cases heq
      cases hc
    · next heq =>
      cases heq
      cases hc
    · rw [hstart]
      rfl

theorem parseInt10_toString (n : Nat) : parseInt10 (toString n) = some (n : Int) := by
  rw [parseInt10_numeral (List.append_nil _).symm (isNumeral_toString n) nofun,
    ofDigitChars_toString]

/-- Two texts that start with a padded numeral and a dash agree on the number. -/
theorem numeral_inj {width n m : Nat} {a b : String}
    (h : padZeros width (toString n) ++ "-" ++ a = padZeros width (toString m) ++ "-" ++ b) :
    n = m := by
  have hends : ∀ t : String, EndsNumeral ("-".toList ++ t.toList) := by
    intro t c hc
    cases hc
    rfl
  have hread : ∀ (k : Nat) (t : String),
      parseInt10 (padZeros width (toString k) ++ "-" ++ t) = some (k : Int) := by
    intro k t
    rw [parseInt10_numeral (by rw [String.toList_append, String.toList_append, List.append_assoc])
      (isNumeral_padZeros width k) (hends t), ofDigitChars_padZeros]
  have heq := hread n a
  rw [h, hread m b] at heq
  exact Int.ofNat.inj (Option.some.inj heq).symm

end BitRelay
