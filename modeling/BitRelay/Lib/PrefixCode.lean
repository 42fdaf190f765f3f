import Mathlib.Data.List.Basic

/-!
# Prefix codes

A code writes each letter as a word. In a prefix code no word starts another one, so that a
sequence of letters is read back from its words written one behind the other.

Results:
1. `PrefixCode.flatMap_injective`: different sequences of letters have different encodings.
2. `PrefixCode.closed_inj`: behind a closing symbol another text can follow.
3. `PrefixCode.of_length`: an injective code into words of one length is a prefix code.
-/

variable {α β : Type}

/-- No word is empty, and the first word of a text determines its letter. -/
structure PrefixCode (code : α → List β) : Prop where
  nonempty : ∀ a, code a ≠ []
  determined : ∀ {a b : α} {u v : List β}, code a ++ u = code b ++ v → a = b

namespace PrefixCode

variable {code : α → List β}

/-- Words of one length cannot start each other. -/
theorem of_length {n : Nat} (hn : 0 < n) (hlength : ∀ a, (code a).length = n)
    (hinj : Function.Injective code) : PrefixCode code where
  nonempty a h := by
    have hzero := hlength a
    rw [h] at hzero
    exact absurd hzero.symm (Nat.ne_of_gt hn)
  determined {a b u v} h :=
    hinj (List.append_inj_left h ((hlength a).trans (hlength b).symm))

/-- A sequence of letters is read back letter by letter. -/
theorem flatMap_injective (h : PrefixCode code) : Function.Injective (List.flatMap code) := by
  intro as bs heq
  induction as generalizing bs with
  | nil =>
    cases bs with
    | nil => rfl
    | cons b bs =>
      rw [List.flatMap_nil, List.flatMap_cons] at heq
      exact absurd (List.append_eq_nil_iff.mp heq.symm).1 (h.nonempty b)
  | cons a as ih =>
    cases bs with
    | nil =>
      rw [List.flatMap_nil, List.flatMap_cons] at heq
      exact absurd (List.append_eq_nil_iff.mp heq).1 (h.nonempty a)
    | cons b bs =>
      rw [List.flatMap_cons, List.flatMap_cons] at heq
      have hletter : a = b := h.determined heq
      subst hletter
      rw [ih (List.append_cancel_left heq)]

/-- A sequence is read back up to a symbol that begins no word, with what is behind it. -/
theorem closed_inj (h : PrefixCode code) {close : β} (hclose : ∀ a u v, code a ++ u ≠ close :: v)
    {as bs : List α} {u v : List β}
    (heq : as.flatMap code ++ close :: u = bs.flatMap code ++ close :: v) : as = bs ∧ u = v := by
  induction as generalizing bs with
  | nil =>
    cases bs with
    | nil => exact ⟨rfl, List.tail_eq_of_cons_eq heq⟩
    | cons b bs =>
      rw [List.flatMap_cons, List.append_assoc] at heq
      exact absurd heq.symm (hclose b _ u)
  | cons a as ih =>
    cases bs with
    | nil =>
      rw [List.flatMap_cons, List.append_assoc] at heq
      exact absurd heq (hclose a _ v)
    | cons b bs =>
      rw [List.flatMap_cons, List.flatMap_cons, List.append_assoc, List.append_assoc] at heq
      have hletter : a = b := h.determined heq
      subst hletter
      obtain ⟨hrest, hafter⟩ := ih (List.append_cancel_left heq)
      exact ⟨by rw [hrest], hafter⟩

end PrefixCode
