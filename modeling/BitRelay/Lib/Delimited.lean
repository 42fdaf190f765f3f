import Mathlib.Data.List.Basic

/-!
# Delimited codes

A code writes each letter as a word. In a delimited code a text is read back from its first word
where a stop symbol or the end of the text comes behind it; the words themselves may start each
other. Words between brackets are the words of a sequence, with a separator between them.

Results:
1. `Stops.word_inj`: a word without stop symbols ends at the first one.
2. `DelimitedAt.enclosed_inj`: a sequence between brackets is read back, with what is behind it.
-/

variable {α β : Type}

/-- The text is empty or begins with a stop symbol. -/
def Stops (stops : List β) (u : List β) : Prop := ∀ c ∈ u.head?, c ∈ stops

/-- A text that begins with the word of `a` begins with no other word. -/
def DelimitedAt (code : α → List β) (stops : List β) (a : α) : Prop :=
  ∀ b u v, Stops stops u → Stops stops v → code a ++ u = code b ++ v → a = b ∧ u = v

/-- The words of a sequence behind the opening bracket. -/
def enclosed (code : α → List β) (sep close : β) (as : List α) : List β :=
  List.intercalate [sep] (as.map code) ++ [close]

namespace Stops

variable {stops : List β}

theorem cons {c : β} (h : c ∈ stops) (u : List β) : Stops stops (c :: u) := by
  intro d hd
  rw [List.head?_cons, Option.mem_some_iff] at hd
  rw [← hd]
  exact h

/-- Two words without stop symbols are told apart by what stops them. -/
theorem word_inj {p : β → Bool} (hstops : ∀ c ∈ stops, p c = false) {w w' u v : List β}
    (hw : ∀ c ∈ w, p c = true) (hw' : ∀ c ∈ w', p c = true) (hu : Stops stops u)
    (hv : Stops stops v) (h : w ++ u = w' ++ v) : w = w' ∧ u = v := by
  have hnone : ∀ t, Stops stops t → t.takeWhile p = [] := by
    intro t ht
    cases t with
    | nil => rfl
    | cons c rest => rw [List.takeWhile_cons, hstops c (ht c rfl), if_neg Bool.false_ne_true]
  have hword : w = w' := by
    have htake := congrArg (List.takeWhile p) h
    rw [List.takeWhile_append_of_pos hw, List.takeWhile_append_of_pos hw', hnone u hu, hnone v hv,
      List.append_nil, List.append_nil] at htake
    exact htake
  subst hword
  exact ⟨rfl, List.append_cancel_left h⟩

end Stops

namespace DelimitedAt

variable {code : α → List β} {stops : List β} {sep close : β}

/-- The words behind the first one, each behind a separator. -/
def following (code : α → List β) (sep close : β) (as : List α) : List β :=
  (as.flatMap fun a => sep :: code a) ++ [close]

theorem enclosed_nil : enclosed code sep close [] = [close] := rfl

theorem enclosed_cons (a : α) (as : List α) :
    enclosed code sep close (a :: as) = code a ++ following code sep close as := by
  unfold enclosed following
  rw [← List.append_assoc]
  congr 1
  induction as generalizing a with
  | nil => simp [List.intercalate]
  | cons b rest ih =>
    rw [List.map_cons, List.map_cons, List.intercalate_cons_cons, ← List.map_cons, ih,
      List.flatMap_cons]
    simp

/-- The symbols between brackets are those of the words, the separator and the closing bracket. -/
theorem mem_enclosed {as : List α} {c : β} (h : c ∈ enclosed code sep close as) :
    c = sep ∨ c = close ∨ ∃ a ∈ as, c ∈ code a := by
  cases as with
  | nil => exact .inr (.inl (List.mem_singleton.mp h))
  | cons a as =>
    rw [enclosed_cons, following, List.mem_append, List.mem_append] at h
    rcases h with hfirst | hrest | hclose
    · exact .inr (.inr ⟨a, List.mem_cons_self, hfirst⟩)
    · obtain ⟨b, hb, hc⟩ := List.mem_flatMap.mp hrest
      rcases List.mem_cons.mp hc with hsep | hword
      · exact .inl hsep
      · exact .inr (.inr ⟨b, List.mem_cons_of_mem a hb, hword⟩)
    · exact .inr (.inl (List.mem_singleton.mp hclose))

theorem stops_following (hsep : sep ∈ stops) (hclose : close ∈ stops) (as : List α)
    (u : List β) : Stops stops (following code sep close as ++ u) := by
  unfold following
  cases as with
  | nil => exact Stops.cons hclose u
  | cons a rest => exact Stops.cons hsep _

/-- The words behind the first one are read back. -/
theorem following_inj {as : List α} (h : ∀ a ∈ as, DelimitedAt code stops a) (hsep : sep ∈ stops)
    (hclose : close ∈ stops) (hne : sep ≠ close) {bs : List α} {u v : List β}
    (heq : following code sep close as ++ u = following code sep close bs ++ v) :
    as = bs ∧ u = v := by
  have hcons : ∀ a rest t, following code sep close (a :: rest) ++ t =
      sep :: (code a ++ (following code sep close rest ++ t)) := by
    intro a rest t
    unfold following
    simp
  induction as generalizing bs with
  | nil =>
    cases bs with
    | nil => exact ⟨rfl, List.tail_eq_of_cons_eq heq⟩
    | cons b bs =>
      rw [hcons] at heq
      exact absurd (List.head_eq_of_cons_eq heq).symm hne
  | cons a as ih =>
    cases bs with
    | nil =>
      rw [hcons] at heq
      exact absurd (List.head_eq_of_cons_eq heq) hne
    | cons b bs =>
      rw [hcons, hcons] at heq
      obtain ⟨hletter, hrest⟩ := h a List.mem_cons_self b _ _
        (stops_following hsep hclose as u) (stops_following hsep hclose bs v)
        (List.tail_eq_of_cons_eq heq)
      obtain ⟨hrest, hafter⟩ := ih (fun a' ha' => h a' (List.mem_cons_of_mem a ha')) hrest
      exact ⟨by rw [hletter, hrest], hafter⟩

/-- A sequence between brackets is read back, whatever is behind it. -/
theorem enclosed_inj {as : List α} (h : ∀ a ∈ as, DelimitedAt code stops a) (hsep : sep ∈ stops)
    (hclose : close ∈ stops) (hne : sep ≠ close)
    (hhead : ∀ a, ∃ c rest, code a = c :: rest ∧ c ∉ stops) {bs : List α} {u v : List β}
    (heq : enclosed code sep close as ++ u = enclosed code sep close bs ++ v) :
    as = bs ∧ u = v := by
  -- No word begins as the closing bracket does.
  have hopen : ∀ a w t, close :: t ≠ code a ++ w := by
    intro a w t hsame
    obtain ⟨c, rest, hcode, hstop⟩ := hhead a
    rw [hcode] at hsame
    exact hstop (List.head_eq_of_cons_eq hsame ▸ hclose)
  cases as with
  | nil =>
    cases bs with
    | nil => exact ⟨rfl, List.tail_eq_of_cons_eq heq⟩
    | cons b bs =>
      rw [enclosed_nil, enclosed_cons, List.append_assoc] at heq
      exact absurd heq (hopen b _ u)
  | cons a as =>
    cases bs with
    | nil =>
      rw [enclosed_nil, enclosed_cons, List.append_assoc] at heq
      exact absurd heq.symm (hopen a _ v)
    | cons b bs =>
      rw [enclosed_cons, enclosed_cons, List.append_assoc, List.append_assoc] at heq
      obtain ⟨hletter, hrest⟩ := h a List.mem_cons_self b _ _
        (stops_following hsep hclose as u) (stops_following hsep hclose bs v) heq
      obtain ⟨hrest, hafter⟩ := following_inj (fun a' ha' => h a' (List.mem_cons_of_mem a ha')) hsep
        hclose hne hrest
      exact ⟨by rw [hletter, hrest], hafter⟩

end DelimitedAt
