import Mathlib.Algebra.GroupWithZero.Nat
import Mathlib.Algebra.Order.Group.Nat
import Mathlib.Data.List.Infix

/-!
# The longest suffix that fits

Items have sizes, and their sum may be bounded. A loop from the front of a list drops items while
the running total is above the bound.

Results:
1. `isLongestFit_rest`: what the loop leaves is the longest suffix that fits.
2. `IsLongestFit.unique`: there is one such suffix.
-/

namespace LongestFit

variable {α : Type}

/-! ## Definitions -/

/-- The items that the loop drops, with the total of those that are left. -/
def dropped (size : α → Nat) (max : Nat) : List α → Nat → List α
  | [], _ => []
  | item :: rest, total =>
    if total ≤ max then [] else item :: dropped size max rest (total - size item)

/-- The total is within the bound, if there is one. -/
def Within (bound : Option Nat) (total : Nat) : Prop := ∀ max, bound = some max → total ≤ max

structure IsLongestFit (size : α → Nat) (bound : Option Nat) (kept items : List α) : Prop where
  suffix : kept <:+ items
  fits : Within bound (kept.map size).sum
  longest : ∀ other, other <:+ items → Within bound (other.map size).sum → other <:+ kept

variable {size : α → Nat} {bound : Option Nat} {kept kept' items : List α}

/-! ## Results -/

theorem IsLongestFit.unique (h : IsLongestFit size bound kept items)
    (h' : IsLongestFit size bound kept' items) : kept = kept' :=
  (h'.longest kept h.suffix h.fits).eq_of_length_le (h.longest kept' h'.suffix h'.fits).length_le

/-- A list that fits is kept. -/
theorem isLongestFit_self (h : Within bound (items.map size).sum) :
    IsLongestFit size bound items items :=
  ⟨List.suffix_rfl, h, fun _ hother _ => hother⟩

/-- Without its first item, a list that does not fit has the same longest suffix. -/
theorem IsLongestFit.cons {item : α} (h : IsLongestFit size bound kept items)
    (hlarge : ¬ Within bound ((item :: items).map size).sum) :
    IsLongestFit size bound kept (item :: items) := by
  refine ⟨h.suffix.trans (List.suffix_cons item items), h.fits, fun other hother hfits => ?_⟩
  rcases List.suffix_cons_iff.mp hother with rfl | hrest
  · exact absurd hfits hlarge
  · exact h.longest other hrest hfits

/-- The loop splits the list in front of its longest suffix that fits. -/
theorem isLongestFit_rest (size : α → Nat) (max : Nat) (items : List α) :
    ∃ kept, items = dropped size max items (items.map size).sum ++ kept ∧
      IsLongestFit size (some max) kept items := by
  induction items with
  | nil =>
    refine ⟨[], rfl, isLongestFit_self fun _ _ => Nat.zero_le _⟩
  | cons item rest ih =>
    unfold dropped
    by_cases hfits : ((item :: rest).map size).sum ≤ max
    · refine ⟨item :: rest, by rw [if_pos hfits]; rfl, isLongestFit_self fun max' hmax => ?_⟩
      rw [← Option.some_inj.mp hmax]
      exact hfits
    · obtain ⟨kept, hsplit, hkept⟩ := ih
      have htotal : ((item :: rest).map size).sum - size item = (rest.map size).sum := by
        rw [List.map_cons, List.sum_cons, Nat.add_sub_cancel_left]
      refine ⟨kept, ?_, hkept.cons fun h => hfits (h max rfl)⟩
      rw [if_neg hfits, htotal, List.cons_append, ← hsplit]

end LongestFit
