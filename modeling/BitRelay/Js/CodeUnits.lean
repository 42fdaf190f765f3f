import BitRelay.Js.Numerals
import BitRelay.Lib.PrefixCode
import Mathlib.Algebra.Order.Ring.Nat

/-!
# The order of code units

`Array.prototype.sort` compares texts by their UTF-16 code units.

Results:
1. `utf16_injective`: a text is determined by its code units.
2. `codeUnitLe_total`, `codeUnitLe_trans`, `codeUnitLe_antisymm`: they order the texts.
3. `utf16_padZeros_lt`: numerals padded to one width are ordered like their numbers,
   whatever stands before and behind them.
-/

namespace BitRelay

/-- A character is a number below the surrogates or above them. -/
theorem toNat_char (c : Char) : c.toNat < 0xd800 ∨ 0xdfff < c.toNat ∧ c.toNat < 0x110000 := by
  have hvalid := c.valid
  unfold UInt32.isValidChar Nat.isValidChar at hvalid
  unfold Char.toNat
  omega

theorem prefixCode_charUnits : PrefixCode charUnits where
  nonempty c h := by
    unfold charUnits at h
    dsimp only at h
    split at h <;> cases h
  determined {c d u v} h := by
    have hc := toNat_char c
    have hd := toNat_char d
    apply Char.toNat_inj.mp
    unfold charUnits at h
    dsimp only at h
    split at h
    · split at h
      · exact List.head_eq_of_cons_eq h
      · -- A high surrogate is no character.
        have hhead := List.head_eq_of_cons_eq h
        omega
    · split at h
      · have hhead := List.head_eq_of_cons_eq h
        omega
      · have hhigh := List.head_eq_of_cons_eq h
        have hlow := List.head_eq_of_cons_eq (List.tail_eq_of_cons_eq h)
        omega

theorem utf16_injective {s t : String} (h : utf16 s = utf16 t) : s = t :=
  String.toList_inj.mp (prefixCode_charUnits.flatMap_injective h)

theorem codeUnitLe_total (a b : String) : codeUnitLe a b = true ∨ codeUnitLe b a = true := by
  simp only [codeUnitLe, Bool.not_eq_true', decide_eq_false_iff_not]
  exact (Decidable.em (utf16 b < utf16 a)).symm.imp_right List.lt_asymm

theorem codeUnitLe_trans {a b c : String} (hab : codeUnitLe a b = true)
    (hbc : codeUnitLe b c = true) : codeUnitLe a c = true := by
  simp only [codeUnitLe, Bool.not_eq_true', decide_eq_false_iff_not] at hab hbc ⊢
  exact @List.le_trans Nat _ _ _ _ (utf16 a) (utf16 b) (utf16 c) hab hbc

theorem codeUnitLe_antisymm {a b : String} (hab : codeUnitLe a b = true)
    (hba : codeUnitLe b a = true) : a = b := by
  simp only [codeUnitLe, Bool.not_eq_true', decide_eq_false_iff_not] at hab hba
  exact utf16_injective (List.le_antisymm hab hba)

theorem codeUnitLe_of_lt {a b : String} (h : utf16 a < utf16 b) : codeUnitLe a b = true := by
  simp only [codeUnitLe, Bool.not_eq_true', decide_eq_false_iff_not]
  exact List.lt_asymm h

/-! ## Numerals -/

namespace CodeUnitLemmas

theorem utf16_append (s t : String) : utf16 (s ++ t) = utf16 s ++ utf16 t := by
  unfold utf16
  rw [String.toList_append, List.flatMap_append]

/-- A digit stands for its distance from `0`. -/
theorem toNat_digit {c : Char} (h : c.isDigit = true) : 48 ≤ c.toNat ∧ c.toNat ≤ 57 := by
  simp only [Char.isDigit, Bool.and_eq_true, decide_eq_true_eq, ge_iff_le, UInt32.le_iff_toNat_le]
    at h
  exact h

theorem charUnits_digit {c : Char} (h : c.isDigit = true) : charUnits c = [c.toNat] := by
  have hdigit := toNat_digit h
  unfold charUnits
  exact if_pos (by omega)

theorem ofDigitChars_lt {ds : List Char} (hds : ∀ c ∈ ds, c.isDigit = true) (acc : Nat) :
    Nat.ofDigitChars 10 ds acc < 10 ^ ds.length * (acc + 1) := by
  induction ds generalizing acc with
  | nil => simp
  | cons c cs ih =>
    have hdigit := toNat_digit (hds c List.mem_cons_self)
    have hrest := ih (fun d hd => hds d (List.mem_cons_of_mem _ hd)) (10 * acc + (c.toNat - 48))
    rw [Nat.ofDigitChars_cons]
    refine Nat.lt_of_lt_of_le hrest ?_
    rw [List.length_cons, Nat.pow_succ, Nat.mul_assoc]
    exact Nat.mul_le_mul_left _ (by omega)

theorem le_ofDigitChars (ds : List Char) (acc : Nat) :
    10 ^ ds.length * acc ≤ Nat.ofDigitChars 10 ds acc := by
  rw [Nat.ofDigitChars_eq_ofDigitChars_zero]
  exact Nat.le_add_right _ _

/-- Of two numerals of one length the smaller one comes first. -/
theorem digits_lt {ds ds' : List Char} (hds : ∀ c ∈ ds, c.isDigit = true)
    (hds' : ∀ c ∈ ds', c.isDigit = true) (hlength : ds.length = ds'.length) {acc : Nat}
    (h : Nat.ofDigitChars 10 ds acc < Nat.ofDigitChars 10 ds' acc) (rest rest' : List Nat) :
    ds.flatMap charUnits ++ rest < ds'.flatMap charUnits ++ rest' := by
  induction ds generalizing ds' acc with
  | nil =>
    obtain rfl : ds' = [] := List.length_eq_zero_iff.mp hlength.symm
    exact absurd h (Nat.lt_irrefl _)
  | cons c cs ih =>
    cases ds' with
    | nil => cases hlength
    | cons d cs' =>
      have hc := hds c List.mem_cons_self
      have hd := hds' d List.mem_cons_self
      have hcs : ∀ e ∈ cs, e.isDigit = true := fun e he => hds e (List.mem_cons_of_mem _ he)
      have hcs' : ∀ e ∈ cs', e.isDigit = true := fun e he => hds' e (List.mem_cons_of_mem _ he)
      have hlength : cs.length = cs'.length := Nat.succ.inj hlength
      have hcRange := toNat_digit hc
      have hdRange := toNat_digit hd
      rw [Nat.ofDigitChars_cons, Nat.ofDigitChars_cons] at h
      rw [List.flatMap_cons, List.flatMap_cons, charUnits_digit hc, charUnits_digit hd]
      show c.toNat :: (cs.flatMap charUnits ++ rest) < d.toNat :: (cs'.flatMap charUnits ++ rest')
      rw [List.cons_lt_cons_iff]
      rcases Nat.lt_trichotomy c.toNat d.toNat with hlt | heq | hgt
      · exact .inl hlt
      · rw [heq] at h
        exact .inr ⟨heq, ih hcs hcs' hlength h⟩
      · -- A greater first digit cannot be made up for.
        have hlow := le_ofDigitChars cs (10 * acc + (c.toNat - 48))
        have hhigh := ofDigitChars_lt hcs' (10 * acc + (d.toNat - 48))
        have hstep : 10 * acc + (d.toNat - 48) + 1 ≤ 10 * acc + (c.toNat - 48) := by omega
        have hmono := Nat.mul_le_mul_left (10 ^ cs.length) hstep
        rw [← hlength] at hhigh
        exact absurd h (Nat.not_lt.mpr (Nat.le_trans (Nat.le_of_lt hhigh)
          (Nat.le_trans hmono hlow)))

theorem length_padZeros {width n : Nat} (h : n < 10 ^ width) (hwidth : 0 < width) :
    (padZeros width (toString n)).toList.length = width := by
  have hle : (toString n).length ≤ width := (Nat.length_repr_le_iff hwidth).mpr h
  rw [NumeralLemmas.toList_padZeros, List.length_append, List.length_replicate,
    String.length_toList]
  exact Nat.sub_add_cancel hle

end CodeUnitLemmas

open CodeUnitLemmas NumeralLemmas

/-- Numerals padded to one width are ordered like their numbers. -/
theorem utf16_padZeros_lt {width n m : Nat} (h : n < m) (hm : m < 10 ^ width)
    (front s t : String) : utf16 (front ++ (padZeros width (toString n) ++ s)) <
      utf16 (front ++ (padZeros width (toString m) ++ t)) := by
  have hwidth : 0 < width := by
    rcases Nat.eq_zero_or_pos width with rfl | hpos
    · rw [Nat.pow_zero, Nat.lt_one_iff] at hm
      exact absurd h (by omega)
    · exact hpos
  have hlength : (padZeros width (toString n)).toList.length =
      (padZeros width (toString m)).toList.length := by
    rw [length_padZeros hm hwidth, length_padZeros (Nat.lt_trans h hm) hwidth]
  have hvalue : Nat.ofDigitChars 10 (padZeros width (toString n)).toList 0 <
      Nat.ofDigitChars 10 (padZeros width (toString m)).toList 0 := by
    rw [ofDigitChars_padZeros, ofDigitChars_padZeros]
    exact h
  have hdigits : utf16 (padZeros width (toString n)) ++ utf16 s <
      utf16 (padZeros width (toString m)) ++ utf16 t :=
    digits_lt (isNumeral_padZeros width n).2 (isNumeral_padZeros width m).2 hlength hvalue _ _
  simp only [utf16_append]
  exact List.append_left_lt hdigits

end BitRelay
