import Mathlib.Data.List.Basic

/-!
# Fields between lines

A text over any alphabet is cut into lines at a separator `c`. A marker puts a
free field into a text: a first line, some more lines, and a tag at the start of
the line on which the field goes on. The fields on both sides of a marker may
hold separators.

Results:
1. `append_block_inj`: whole lines at the end of a text are read back, and `first_line_inj` the
   line at its front (`first_line_cases`, if the other cut may be behind a later line).
2. `Marker.split`: two markers that cannot start inside each other are read back
   from a text, unless a field on one side holds the other marker.
-/

namespace Lines

variable {α : Type} [DecidableEq α] {c : α}

/-! ## Lines -/

/-- The lines `ls`, each after a separator. -/
def block (c : α) (ls : List (List α)) : List α := ls.flatMap (c :: ·)

theorem splitOn_inj {a b : List α} (h : a.splitOn c = b.splitOn c) : a = b := by
  have hjoin := congrArg [c].intercalate h
  rwa [List.intercalate_splitOn, List.intercalate_splitOn] at hjoin

theorem not_mem_of_mem_splitOn {a l : List α} (h : l ∈ a.splitOn c) : c ∉ l := by
  induction a generalizing l with
  | nil =>
    rw [List.splitOn_nil, List.mem_singleton] at h
    subst h
    exact List.not_mem_nil
  | cons x a ih =>
    rw [List.splitOn_cons_eq_if_modifyHead] at h
    split at h
    · rcases List.mem_cons.mp h with rfl | h
      · exact List.not_mem_nil
      · exact ih h
    case isFalse hx =>
      cases hs : a.splitOn c with
      | nil => exact absurd hs (List.splitOn_ne_nil _ _)
      | cons l₀ ls =>
        rw [hs, List.modifyHead_cons] at h
        rw [hs] at ih
        rcases List.mem_cons.mp h with rfl | h
        · intro hc
          rcases List.mem_cons.mp hc with rfl | hc
          · exact hx (beq_self_eq_true _)
          · exact ih List.mem_cons_self hc
        · exact ih (List.mem_cons_of_mem _ h)

/-- A text without separators in front goes to the first line. -/
theorem splitOn_append_tag {tag : List α} (b : List α) (h : c ∉ tag) :
    (tag ++ b).splitOn c = (b.splitOn c).modifyHead (tag ++ ·) := by
  induction tag with
  | nil => exact (congrFun List.modifyHead_id _).symm
  | cons x tag ih =>
    have hx : ¬ (x == c) = true := by
      intro hx
      exact h (List.mem_cons.mpr (.inl (beq_iff_eq.mp hx).symm))
    rw [List.cons_append, List.splitOn_cons_eq_if_modifyHead, if_neg hx,
      ih fun hc => h (List.mem_cons_of_mem _ hc), List.modifyHead_modifyHead]
    rfl

theorem splitOn_append_block (a : List α) {ls : List (List α)} (h : ∀ l ∈ ls, c ∉ l) :
    (a ++ block c ls).splitOn c = a.splitOn c ++ ls := by
  induction ls generalizing a with
  | nil => simp only [block, List.flatMap_nil, List.append_nil]
  | cons l ls ih =>
    have hl : c ∉ l := h l List.mem_cons_self
    calc (a ++ block c (l :: ls)).splitOn c
        = ((a ++ c :: l) ++ block c ls).splitOn c := by
          simp only [block, List.flatMap_cons, List.append_assoc, List.cons_append]
      _ = (a ++ c :: l).splitOn c ++ ls := ih _ fun l hl => h l (List.mem_cons_of_mem _ hl)
      _ = a.splitOn c ++ l :: ls := by
          rw [List.splitOn_append_cons_self, List.splitOn_eq_singleton hl, List.append_assoc,
            List.singleton_append]

/-- Equally many whole lines at the end of a text are read back. -/
theorem append_block_inj {a a' : List α} {ls ls' : List (List α)}
    (h : a ++ block c ls = a' ++ block c ls') (hlen : ls.length = ls'.length)
    (hls : ∀ l ∈ ls, c ∉ l) (hls' : ∀ l ∈ ls', c ∉ l) : a = a' ∧ ls = ls' := by
  have hlines := congrArg (List.splitOn c) h
  rw [splitOn_append_block a hls, splitOn_append_block a' hls'] at hlines
  obtain ⟨ha, hls⟩ := List.append_inj' hlines hlen
  exact ⟨splitOn_inj ha, hls⟩

/-- The line in front of a text, and what stands behind it. -/
theorem first_line_inj {a a' b b' : List α} (ha : c ∉ a) (ha' : c ∉ a')
    (h : a ++ c :: b = a' ++ c :: b') : a = a' ∧ b = b' := by
  have hfront : ∀ l rest : List α, c ∉ l →
      (l ++ c :: rest).takeWhile (fun x => decide (x ≠ c)) = l := by
    intro l rest hl
    have hall : ∀ x ∈ l, decide (x ≠ c) = true := by
      intro x hx
      rw [decide_eq_true_eq]
      rintro rfl
      exact hl hx
    rw [List.takeWhile_append_of_pos hall, List.takeWhile_cons_of_neg (by simp), List.append_nil]
  have hline : a = a' := by
    rw [← hfront a b ha, h, hfront a' b' ha']
  subst hline
  exact ⟨rfl, (List.cons.inj (List.append_cancel_left h)).2⟩

omit [DecidableEq α] in
/-- A line in front of a text, against any other way to cut the text at a separator. -/
theorem first_line_cases {a b a' b' : List α} (ha : c ∉ a) (h : a ++ c :: b = a' ++ c :: b') :
    (a' = a ∧ b = b') ∨ ∃ x, a' = a ++ c :: x ∧ b = x ++ c :: b' := by
  induction a generalizing a' with
  | nil =>
    cases a' with
    | nil => exact .inl ⟨rfl, List.tail_eq_of_cons_eq h⟩
    | cons y ys =>
      have hhead : c = y := List.head_eq_of_cons_eq h
      subst hhead
      exact .inr ⟨ys, rfl, List.tail_eq_of_cons_eq h⟩
  | cons y ys ih =>
    cases a' with
    | nil =>
      have hhead : y = c := List.head_eq_of_cons_eq h
      exact absurd (hhead ▸ List.mem_cons_self) ha
    | cons y' ys' =>
      have hhead : y = y' := List.head_eq_of_cons_eq h
      subst hhead
      rcases ih (fun hmem => ha (List.mem_cons_of_mem y hmem)) (List.tail_eq_of_cons_eq h) with
        ⟨hsame, hrest⟩ | ⟨x, hx, hrest⟩
      · exact .inl ⟨by rw [hsame], hrest⟩
      · exact .inr ⟨x, by rw [hx, List.cons_append], hrest⟩

/-! ## Markers -/

/-- What a text writes between two free fields. -/
@[ext] structure Marker (c : α) where
  first : List α
  body : List (List α)
  tag : List α
  first_free : c ∉ first
  body_free : ∀ l ∈ body, c ∉ l
  tag_free : c ∉ tag

namespace Marker

variable {m m' : Marker c} {a b a' b' : List α}

def text (m : Marker c) : List α := block c (m.first :: m.body ++ [m.tag])

/-- `m'` cannot start inside `m`. -/
def Clear (m m' : Marker c) : Prop := m'.first ∉ m.body ∧ ¬ m.tag <+: m'.first

theorem splitOn_text (m : Marker c) (a b : List α) :
    (a ++ m.text ++ b).splitOn c =
      a.splitOn c ++ m.first :: (m.body ++ (b.splitOn c).modifyHead (m.tag ++ ·)) := by
  have htext : a ++ m.text ++ b = (a ++ block c (m.first :: m.body)) ++ c :: (m.tag ++ b) := by
    simp only [text, block, List.flatMap_append, List.flatMap_cons, List.flatMap_nil,
      List.append_nil, List.append_assoc, List.cons_append]
  have hfree : ∀ l ∈ m.first :: m.body, c ∉ l := by
    intro l hl
    rcases List.mem_cons.mp hl with rfl | hl
    · exact m.first_free
    · exact m.body_free l hl
  rw [htext, List.splitOn_append_cons_self, splitOn_append_block a hfree,
    splitOn_append_tag b m.tag_free, List.append_assoc, List.cons_append]

/-- The lines from a marker on, met again after the lines `t`: either at once, or past the whole
marker. -/
theorem lines_after {t rest : List (List α)} {b : List α} (hclear : m.Clear m')
    (h : m.first :: (m.body ++ (b.splitOn c).modifyHead (m.tag ++ ·)) =
      t ++ m'.first :: rest) :
    t = [] ∨ ∃ b₀ u, t = m.first :: (m.body ++ (m.tag ++ b₀) :: u) ∧
      b.splitOn c = b₀ :: (u ++ m'.first :: rest) := by
  obtain ⟨hbody, htag⟩ := hclear
  cases hb : b.splitOn c with
  | nil => exact absurd hb (List.splitOn_ne_nil _ _)
  | cons b₀ bs =>
    rw [hb, List.modifyHead_cons] at h
    cases t with
    | nil => exact .inl rfl
    | cons x t =>
      rw [List.cons_append, List.cons.injEq] at h
      obtain ⟨rfl, h⟩ := h
      rcases List.append_eq_append_iff.mp h with ⟨u, rfl, hu⟩ | ⟨u, hu, hrest⟩
      · cases u with
        | nil =>
          have hfirst : m.tag ++ b₀ = m'.first := (List.cons.inj hu).1
          exact absurd ⟨b₀, hfirst⟩ htag
        | cons y u =>
          rw [List.cons_append, List.cons.injEq] at hu
          obtain ⟨rfl, rfl⟩ := hu
          exact .inr ⟨b₀, u, rfl, rfl⟩
      · cases u with
        | nil =>
          have hfirst : m'.first = m.tag ++ b₀ := (List.cons.inj hrest).1
          exact absurd ⟨b₀, hfirst.symm⟩ htag
        | cons y u =>
          rw [List.cons_append, List.cons.injEq] at hrest
          obtain ⟨rfl, -⟩ := hrest
          exact absurd (hu ▸ List.mem_append_right _ List.mem_cons_self) hbody

/-- A text with the marker `m` that has `m'` no earlier: at the same place, or in the field
behind `m`. -/
theorem split_of_lines {t : List (List α)} (hclear : m.Clear m')
    (hsize : m.body.length = m'.body.length) (htag : m.tag = m'.tag)
    (ha : a'.splitOn c = a.splitOn c ++ t)
    (ht : m.first :: (m.body ++ (b.splitOn c).modifyHead (m.tag ++ ·)) =
      t ++ m'.first :: (m'.body ++ (b'.splitOn c).modifyHead (m'.tag ++ ·))) :
    (a = a' ∧ m = m' ∧ b = b') ∨
      ∃ x, a' = a ++ m.text ++ x ∧ b = x ++ m'.text ++ b' := by
  rcases lines_after hclear ht with rfl | ⟨b₀, u, rfl, hb⟩
  · left
    rw [List.append_nil] at ha
    rw [List.nil_append, List.cons.injEq] at ht
    obtain ⟨hfirst, hrest⟩ := ht
    obtain ⟨hbody, hb⟩ := List.append_inj hrest hsize
    refine ⟨splitOn_inj ha.symm, Marker.ext hfirst hbody htag, ?_⟩
    rw [← splitOn_append_tag b m.tag_free, ← splitOn_append_tag b' m'.tag_free, htag] at hb
    exact List.append_cancel_left (splitOn_inj hb)
  · right
    have hfree : ∀ l ∈ b₀ :: u, c ∉ l := by
      intro l hl
      refine not_mem_of_mem_splitOn (a := b) ?_
      rw [hb, ← List.cons_append]
      exact List.mem_append_left _ hl
    have hx : ([c].intercalate (b₀ :: u)).splitOn c = b₀ :: u :=
      List.splitOn_intercalate c hfree (List.cons_ne_nil _ _)
    refine ⟨[c].intercalate (b₀ :: u), splitOn_inj (c := c) ?_, splitOn_inj (c := c) ?_⟩
    · rw [ha, splitOn_text, hx, List.modifyHead_cons]
    · rw [hb, splitOn_text, hx, List.cons_append]

/-- Two markers that cannot start inside each other are read back from one text, unless one of
the texts around them holds the other marker. -/
theorem split (hclear : m.Clear m') (hclear' : m'.Clear m)
    (hsize : m.body.length = m'.body.length) (htag : m.tag = m'.tag)
    (h : a ++ m.text ++ b = a' ++ m'.text ++ b') :
    (a = a' ∧ m = m' ∧ b = b') ∨
      (∃ x, a' = a ++ m.text ++ x ∧ b = x ++ m'.text ++ b') ∨
      (∃ x, a = a' ++ m'.text ++ x ∧ b' = x ++ m.text ++ b) := by
  have hlines := congrArg (List.splitOn c) h
  rw [splitOn_text, splitOn_text] at hlines
  rcases List.append_eq_append_iff.mp hlines with ⟨t, ha, ht⟩ | ⟨t, ha, ht⟩
  · rcases split_of_lines hclear hsize htag ha ht with heq | hlater
    · exact .inl heq
    · exact .inr (.inl hlater)
  · rcases split_of_lines hclear' hsize.symm htag.symm ha ht with ⟨ha, hm, hb⟩ | hlater
    · exact .inl ⟨ha.symm, hm.symm, hb.symm⟩
    · exact .inr (.inr hlater)

end Marker

end Lines
