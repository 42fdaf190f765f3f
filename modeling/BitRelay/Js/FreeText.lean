import BitRelay.Js.Text

/-!
# Free texts

A text that `trim` was applied to and that is not empty.

Results:
1. `freeText_iff`: such a text has a first and a last character, and neither is
   whitespace.
2. `freeText_append`: only the ends of a text count.
-/

namespace BitRelay

/-- A free field, as the handlers leave it: not empty, and trimmed. -/
def FreeText (s : String) : Prop := s ≠ "" ∧ Trimmed s

instance (s : String) : Decidable (FreeText s) := inferInstanceAs (Decidable (_ ∧ _))

namespace FreeTextLemmas

/-- No whitespace at either end of a text that is not empty. -/
def FreeEnds (l : List Char) : Prop :=
  (∃ c ∈ l.head?, isJsSpace c = false) ∧ ∃ c ∈ l.getLast?, isJsSpace c = false

theorem dropWhile_of_head {l : List Char} (h : ∃ c ∈ l.head?, isJsSpace c = false) :
    l.dropWhile isJsSpace = l := by
  cases l with
  | nil => rfl
  | cons c cs =>
    obtain ⟨d, hd, hspace⟩ := h
    cases hd
    simp only [List.dropWhile_cons, hspace, Bool.false_eq_true, if_false]

theorem head_of_dropWhile {l : List Char} (hne : l ≠ [])
    (h : l.length ≤ (l.dropWhile isJsSpace).length) : ∃ c ∈ l.head?, isJsSpace c = false := by
  cases l with
  | nil => exact absurd rfl hne
  | cons c cs =>
    cases hspace : isJsSpace c with
    | false => exact ⟨c, rfl, hspace⟩
    | true =>
      have hle := (List.dropWhile_suffix (l := cs) isJsSpace).length_le
      simp only [List.dropWhile_cons, hspace, if_true, List.length_cons] at h
      omega

theorem freeText_iff {s : String} : FreeText s ↔ FreeEnds s.toList := by
  unfold FreeText Trimmed trim
  constructor
  · rintro ⟨hne, htrim⟩
    have hne : s.toList ≠ [] := by
      intro hnil
      exact hne (String.toList_eq_nil_iff.mp hnil)
    have htrim : trimChars s.toList = s.toList := by
      have := congrArg String.toList htrim
      rwa [String.toList_ofList] at this
    have hlen := congrArg List.length htrim
    unfold trimChars at hlen
    rw [List.length_reverse] at hlen
    have hback := (List.dropWhile_suffix (l := (s.toList.dropWhile isJsSpace).reverse)
      isJsSpace).length_le
    rw [List.length_reverse] at hback
    have hhead := head_of_dropWhile hne (by omega)
    rw [dropWhile_of_head hhead] at hlen
    have hlast := head_of_dropWhile (l := s.toList.reverse) (by simpa using hne)
      (by rw [List.length_reverse]; omega)
    rw [List.head?_reverse] at hlast
    exact ⟨hhead, hlast⟩
  · rintro ⟨hhead, hlast⟩
    constructor
    · rintro rfl
      obtain ⟨c, hc, -⟩ := hhead
      cases hc
    · rw [← List.head?_reverse] at hlast
      unfold trimChars
      rw [dropWhile_of_head hhead, dropWhile_of_head hlast, List.reverse_reverse,
        String.ofList_toList]

theorem FreeEnds.append {l m : List Char} (hl : FreeEnds l) (x : List Char) (hm : FreeEnds m) :
    FreeEnds (l ++ x ++ m) := by
  obtain ⟨⟨c, hc, hcspace⟩, -⟩ := hl
  obtain ⟨-, d, hd, hdspace⟩ := hm
  refine ⟨⟨c, ?_, hcspace⟩, ⟨d, ?_, hdspace⟩⟩
  · rw [List.append_assoc, List.head?_append, Option.mem_def.mp hc]
    rfl
  · rw [List.getLast?_append, Option.mem_def.mp hd]
    rfl

end FreeTextLemmas

open FreeTextLemmas

theorem freeText_append {a m b : String} (ha : FreeText a) (hb : FreeText b) :
    FreeText (a ++ m ++ b) := by
  rw [freeText_iff, String.toList_append, String.toList_append]
  exact (freeText_iff.mp ha).append _ (freeText_iff.mp hb)

theorem freeText_trim {s : String} (h : trim s ≠ "") : FreeText (trim s) := ⟨h, trimmed_trim s⟩

end BitRelay
