import Mathlib.Algebra.Order.Field.Rat
import Mathlib.Data.Finset.Max
import Mathlib.Data.Int.Interval
import Mathlib.Data.Rat.Cast.Order
import Mathlib.Order.Interval.Finset.Defs
import Mathlib.Tactic.Linarith
import Mathlib.Tactic.NormNum
import Mathlib.Tactic.Positivity

/-!
# Rounding to a double

An operation on doubles gives a double that is nearest to the exact value. What
a tie is rounded to does not matter for the results here.

Results:
1. `exists_rounds`: every value has a nearest double.
2. `half_le_iff`: a quotient of whole numbers is rounded to one half or more
   exactly when it is one half or more, while the divisor is below 2^53.
-/

namespace Doubles

/-- A finite double: an integer of 53 bits at most, scaled by a power of two. -/
def IsDouble (q : ℚ) : Prop :=
  ∃ m e : ℤ, -2 ^ 53 < m ∧ m < 2 ^ 53 ∧ -1074 ≤ e ∧ e ≤ 971 ∧ q = m * 2 ^ e

/-- No double is nearer to the value. -/
def Rounds (x d : ℚ) : Prop := IsDouble d ∧ ∀ d', IsDouble d' → |x - d| ≤ |x - d'|

/-- The integers and the scales within bounds are finitely many. -/
theorem exists_grid (a b c d : ℤ) :
    ∃ grid : Finset (ℤ × ℤ), ∀ p, p ∈ grid ↔ a < p.1 ∧ p.1 < b ∧ c ≤ p.2 ∧ p.2 ≤ d := by
  refine ⟨Finset.Ioo a b ×ˢ Finset.Icc c d, fun p => ?_⟩
  rw [Finset.mem_product, Finset.mem_Ioo, Finset.mem_Icc, and_assoc]

/-- There are finitely many doubles, so one of them is nearest. -/
theorem exists_rounds (x : ℚ) : ∃ d, Rounds x d := by
  obtain ⟨grid, hgrid⟩ := exists_grid (-2 ^ 53) (2 ^ 53) (-1074) 971
  have hzero : (0, 0) ∈ grid := by
    rw [hgrid]
    norm_num
  obtain ⟨p, hp, hmin⟩ :=
    Finset.exists_min_image grid (fun p => |x - (p.1 : ℚ) * 2 ^ p.2|) ⟨_, hzero⟩
  obtain ⟨hlow, hhigh, hemin, hemax⟩ := (hgrid p).mp hp
  refine ⟨p.1 * 2 ^ p.2, ⟨p.1, p.2, hlow, hhigh, hemin, hemax, rfl⟩, ?_⟩
  rintro d' ⟨m, e, hm, hm', he, he', rfl⟩
  exact hmin (m, e) ((hgrid (m, e)).mpr ⟨hm, hm', he, he'⟩)

theorem isDouble_half : IsDouble (1 / 2) := by
  refine ⟨1, -1, ?_, ?_, ?_, ?_, ?_⟩ <;> norm_num

/-- The double below one half. -/
theorem isDouble_below_half : IsDouble (1 / 2 - 1 / 2 ^ 54) := by
  refine ⟨2 ^ 53 - 1, -54, ?_, ?_, ?_, ?_, ?_⟩ <;> norm_num

/-- A quotient below one half stays clear of it, further than the double below one half. -/
theorem quotient_lt {n m : ℕ} (hm : m < 2 ^ 53) (h : 2 * n < m) :
    (n : ℚ) / m < 1 / 2 - 1 / 2 ^ 54 := by
  have hmpos : (0 : ℚ) < m := by exact_mod_cast Nat.lt_of_le_of_lt (Nat.zero_le _) h
  have hstep : (2 * n + 1 : ℚ) ≤ m := by exact_mod_cast h
  have hsmall : (m : ℚ) < 2 ^ 53 := by exact_mod_cast hm
  rw [div_lt_iff₀ hmpos]
  -- The gap `1 / 2 ^ 54` of a divisor below `2 ^ 53` is less than one half.
  have hgap : (m : ℚ) * (1 / 2 ^ 54) < 1 / 2 := by
    calc (m : ℚ) * (1 / 2 ^ 54) < 2 ^ 53 * (1 / 2 ^ 54) :=
          mul_lt_mul_of_pos_right hsmall (by positivity)
      _ = 1 / 2 := by norm_num
  linarith

/-- The double quotient tells whether the exact one is at least one half. -/
theorem half_le_iff {n m : ℕ} (hpos : 0 < m) (hm : m < 2 ^ 53) {d : ℚ}
    (h : Rounds ((n : ℚ) / m) d) : 1 / 2 ≤ d ↔ m ≤ 2 * n := by
  obtain ⟨-, hnearest⟩ := h
  have hmpos : (0 : ℚ) < m := by exact_mod_cast hpos
  constructor
  · intro hd
    by_contra hlt
    have hbelow := quotient_lt hm (Nat.lt_of_not_le hlt)
    have hnear := hnearest _ isDouble_below_half
    rw [abs_sub_comm, abs_of_nonneg (by linarith), abs_sub_comm, abs_of_nonneg (by linarith)]
      at hnear
    have hgap : (0 : ℚ) < 1 / 2 ^ 54 := by positivity
    linarith
  · intro hle
    have hhalf : (1 : ℚ) / 2 ≤ n / m := by
      rw [le_div_iff₀ hmpos]
      have hcast : (m : ℚ) ≤ 2 * n := by exact_mod_cast hle
      linarith
    by_contra hlt
    have hd : d < 1 / 2 := lt_of_not_ge hlt
    have hnear := hnearest _ isDouble_half
    rw [abs_of_nonneg (by linarith), abs_of_nonneg (by linarith)] at hnear
    linarith

end Doubles
