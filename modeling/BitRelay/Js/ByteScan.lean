import BitRelay.Js.Web

/-!
# Scanning decoded bytes

A scan that looks for words of ASCII characters finds the same in the text that
`TextDecoder` makes of some bytes as in the bytes themselves: ASCII bytes stand for
themselves in any context, and all others become characters that end a word.

Results:
1. `Splits.eq_of_suffix`: what a scan finds does not depend on which separators stand there.
2. `Splits.textDecode`: the scan of the decoded text is the scan of the bytes.
-/

namespace BitRelay

/-- A scan for words of the characters of `word`: it splits at all others. -/
structure Splits {α : Type} (word : Char → Bool) (scan : List Char → List α) : Prop where
  nil : scan [] = []
  split : ∀ before sep after, word sep = false →
    scan (before ++ sep :: after) = scan before ++ scan after

/-- The bytes as characters, one for one. -/
def byteChars (bytes : Bytes) : List Char := bytes.map fun b => Char.ofNat b.toNat

/-- What is known of a character that is not complete: it will be none of ASCII. -/
def Utf8State.Multibyte : Utf8State → Prop
  | .idle => False
  | .need missing codePoint lower _ =>
    0x80 ≤ lower ∧ (missing = 1 → 2 ≤ codePoint) ∧
      (missing = 2 → 2 ≤ codePoint * 64 + (lower - 0x80)) ∧
      (missing = 3 → 1 ≤ codePoint * 64 + (lower - 0x80)) ∧ missing ≤ 3 ∧ 1 ≤ missing

namespace ScanLemmas

/-- No character from `0x80` on is one of ASCII, nor is the replacement of an invalid one. -/
theorem word_ofNat {word : Char → Bool} (hword : ∀ c, word c = true → c.toNat < 0x80 ∧ c.toNat ≠ 0)
    {n : Nat} (h : 0x80 ≤ n) : word (Char.ofNat n) = false := by
  cases hn : word (Char.ofNat n) with
  | false => rfl
  | true =>
    obtain ⟨hlt, hne⟩ := hword _ hn
    unfold Char.ofNat at hlt hne
    cases hvalid : decide n.isValidChar with
    | true =>
      rw [dif_pos (of_decide_eq_true hvalid)] at hlt
      exact absurd hlt (Nat.not_lt.mpr h)
    | false =>
      rw [dif_neg (of_decide_eq_false hvalid)] at hne
      exact absurd rfl hne

variable {α : Type} {word : Char → Bool} {scan : List Char → List α}

theorem Splits.cons (h : Splits word scan) {sep : Char} (hsep : word sep = false)
    (after : List Char) : scan (sep :: after) = scan after := by
  have hsplit := h.split [] sep after hsep
  rw [h.nil] at hsplit
  exact hsplit

theorem Splits.eq_of_suffix (h : Splits word scan) {sep sep' : Char} (hsep : word sep = false)
    (hsep' : word sep' = false) (before : List Char) {after after' : List Char}
    (hafter : scan after = scan after') :
    scan (before ++ sep :: after) = scan (before ++ sep' :: after') := by
  rw [h.split _ _ _ hsep, h.split _ _ _ hsep', hafter]

theorem utf8Start_cases (b : Nat) :
    (b ≤ 0x7f ∧ utf8Start b = ([Char.ofNat b], .idle)) ∨
    (0x80 ≤ b ∧ ∃ state : Utf8State, state.Multibyte ∧ utf8Start b = ([], state)) ∨
    (0x80 ≤ b ∧ utf8Start b = ([Char.ofNat 0xfffd], .idle)) := by
  unfold utf8Start
  by_cases hascii : b ≤ 0x7f
  · exact .inl ⟨hascii, if_pos hascii⟩
  have hb : 0x80 ≤ b := by omega
  simp only [if_neg hascii]
  by_cases htwo : 0xc2 ≤ b ∧ b ≤ 0xdf
  · refine .inr (.inl ⟨hb, _, ?_, if_pos htwo⟩)
    refine ⟨Nat.le_refl _, fun _ => ?_, nofun, nofun, by decide, by decide⟩
    omega
  simp only [if_neg htwo]
  by_cases hthree : 0xe0 ≤ b ∧ b ≤ 0xef
  · refine .inr (.inl ⟨hb, _, ?_, if_pos hthree⟩)
    refine ⟨?_, nofun, fun _ => ?_, nofun, by decide, by decide⟩
    · split <;> omega
    · split <;> omega
  simp only [if_neg hthree]
  by_cases hfour : 0xf0 ≤ b ∧ b ≤ 0xf4
  · refine .inr (.inl ⟨hb, _, ?_, if_pos hfour⟩)
    refine ⟨?_, nofun, nofun, fun _ => ?_, by decide, by decide⟩
    · split <;> omega
    · split <;> omega
  · exact .inr (.inr ⟨hb, if_neg hfour⟩)

/-- A byte completes a character that is none of ASCII, or brings it closer to that, or breaks it
off and is read as a first byte. -/
theorem utf8Step_cases {state : Utf8State} (h : state.Multibyte) (b : Nat) :
    (0x80 ≤ b ∧ ∃ n, 0x80 ≤ n ∧ utf8Step state b = ([Char.ofNat n], .idle)) ∨
    (0x80 ≤ b ∧ ∃ state' : Utf8State, state'.Multibyte ∧ utf8Step state b = ([], state')) ∨
    utf8Step state b = (Char.ofNat 0xfffd :: (utf8Start b).1, (utf8Start b).2) := by
  cases state with
  | idle => exact h.elim
  | need missing codePoint lower upper =>
    obtain ⟨hlower, hone, htwo, hthree, hmax, hmin⟩ := h
    unfold utf8Step
    by_cases hin : lower ≤ b ∧ b ≤ upper
    · have hb : 0x80 ≤ b := hlower.trans hin.1
      have hgrow : codePoint * 64 + (lower - 0x80) ≤ codePoint * 64 + (b - 0x80) := by omega
      simp only [if_pos hin]
      by_cases hlast : missing ≤ 1
      · refine .inl ⟨hb, _, ?_, if_pos hlast⟩
        have hcode := hone (Nat.le_antisymm hlast hmin)
        omega
      · refine .inr (.inl ⟨hb, _, ?_, if_neg hlast⟩)
        refine ⟨Nat.le_refl _, fun h => ?_, fun h => ?_, fun h => ?_, ?_, ?_⟩
        · exact (htwo (by omega)).trans hgrow
        · have hcode := (hthree (by omega)).trans hgrow
          omega
        · omega
        · omega
        · omega
    · exact .inr (.inr (if_neg hin))

/-- Behind any text, and in the middle of a character, where a separator stands for what there is
of it. -/
theorem scan_utf8Chars (h : Splits word scan)
    (hword : ∀ c, word c = true → c.toNat < 0x80 ∧ c.toNat ≠ 0) (bytes : Bytes) :
    (∀ before, scan (before ++ utf8Chars .idle bytes) = scan (before ++ byteChars bytes)) ∧
    ∀ (state : Utf8State) (before : List Char) (sep : Char), state.Multibyte → word sep = false →
      scan (before ++ utf8Chars state bytes) = scan (before ++ sep :: byteChars bytes) := by
  have hreplaced : word (Char.ofNat 0xfffd) = false := word_ofNat hword (by decide)
  induction bytes with
  | nil =>
    refine ⟨fun before => rfl, fun state before sep hstate hsep => ?_⟩
    cases state with
    | idle => exact hstate.elim
    | need missing codePoint lower upper =>
      exact Splits.eq_of_suffix h hreplaced hsep before rfl
  | cons b rest ih =>
    obtain ⟨hidle, hneed⟩ := ih
    have hhigh : 0x80 ≤ b.toNat → word (Char.ofNat b.toNat) = false := word_ofNat hword
    have hrest : scan (utf8Chars .idle rest) = scan (byteChars rest) := hidle []
    have hstart : ∀ before, scan (before ++ ((utf8Start b.toNat).1 ++
        utf8Chars (utf8Start b.toNat).2 rest)) = scan (before ++ byteChars (b :: rest)) := by
      intro before
      rcases utf8Start_cases b.toNat with ⟨-, heq⟩ | ⟨hb, state, hstate, heq⟩ | ⟨hb, heq⟩
      · rw [heq]
        have hnext := hidle (before ++ [Char.ofNat b.toNat])
        simpa [byteChars] using hnext
      · rw [heq]
        exact hneed state before _ hstate (hhigh hb)
      · rw [heq]
        exact Splits.eq_of_suffix h hreplaced (hhigh hb) before hrest
    refine ⟨hstart, fun state before sep hstate hsep => ?_⟩
    have hunfold : utf8Chars state (b :: rest) =
        (utf8Step state b.toNat).1 ++ utf8Chars (utf8Step state b.toNat).2 rest := rfl
    rw [hunfold]
    rcases utf8Step_cases hstate b.toNat with ⟨hb, n, hn, heq⟩ | ⟨hb, state', hstate', heq⟩ | heq
    · rw [heq]
      refine Splits.eq_of_suffix h (word_ofNat hword hn) hsep before ?_
      exact hrest.trans (Splits.cons h (hhigh hb) _).symm
    · rw [heq]
      refine (hneed state' before sep hstate' hsep).trans ?_
      refine Splits.eq_of_suffix h hsep hsep before ?_
      exact (Splits.cons h (hhigh hb) _).symm
    · rw [heq]
      exact Splits.eq_of_suffix h hreplaced hsep before (hstart [])

end ScanLemmas

open ScanLemmas

/-- The scan of the decoded text is the scan of the bytes. -/
theorem Splits.textDecode {α : Type} {word : Char → Bool} {scan : List Char → List α}
    (h : Splits word scan) (hword : ∀ c, word c = true → c.toNat < 0x80 ∧ c.toNat ≠ 0)
    (bytes : Bytes) : scan (textDecode bytes).toList = scan (byteChars bytes) := by
  unfold BitRelay.textDecode
  rw [String.toList_ofList]
  have hscan := fun bytes => (scan_utf8Chars h hword bytes).1 []
  unfold dropBom
  split
  · next rest =>
    -- the three bytes of the mark are separators
    refine (hscan rest).trans ?_
    have hmark : ∀ n, 0x80 ≤ n → word (Char.ofNat n) = false := fun n => word_ofNat hword
    change scan (byteChars rest) =
      scan (Char.ofNat 0xef :: Char.ofNat 0xbb :: Char.ofNat 0xbf :: byteChars rest)
    rw [ScanLemmas.Splits.cons h (hmark _ (by decide)),
      ScanLemmas.Splits.cons h (hmark _ (by decide)),
      ScanLemmas.Splits.cons h (hmark _ (by decide))]
  · exact hscan bytes

end BitRelay
