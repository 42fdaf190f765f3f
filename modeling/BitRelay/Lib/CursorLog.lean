import Mathlib.Data.List.Pairwise

/-!
# Logs read by cursor

The entries of a log carry strictly ascending cursors, all of them positive. A reader keeps one
number, its position, and asks for the entries behind it page by page: those that pass a filter, at
most a limit of them, and the position to go on from. Entries that do not pass the filter move the
position, too.

Results:
1. `Covers.segment`, `Covers.concat`: every entry of the log up to the position has been dealt with.
   This survives the pages that are read and the entries that are appended.
2. `IsSegment.append_filter`: the pages of a reader are what passes up to its position.
3. `filter_behind_page`: going on from the last entry of a page is going on behind the page.
4. `passed_segment`, `le_position_of_passed`: a page moves the number of entries passed by its
   length, and a reader that has passed as many as there are has passed all.
-/

namespace CursorLog

section
variable {α : Type} (cursor : α → Nat) (keep : α → Bool)

structure Ascending (log : List α) : Prop where
  sorted : log.Pairwise fun x y => cursor x < cursor y
  pos : ∀ x ∈ log, 0 < cursor x

/-- The entries that pass the filter between two positions. -/
structure IsSegment (log : List α) (after : Nat) (items : List α) (next : Nat) : Prop where
  le : after ≤ next
  eq_filter : items = log.filter fun x => keep x && decide (after < cursor x) && decide (cursor x ≤ next)

/-- A segment of at most `limit` entries, which is shorter only at the end of the log. -/
structure IsPage (log : List α) (after limit : Nat) (items : List α) (next : Nat) : Prop extends
    IsSegment cursor keep log after items next where
  length_le : items.length ≤ limit
  complete : items.length < limit → ∀ x ∈ log, cursor x ≤ next
  next_mem : next = after ∨ ∃ x ∈ log, cursor x = next

/-- Every entry that passes the filter, up to a position, satisfies `P`. -/
def Covers (log : List α) (position : Nat) (P : α → Prop) : Prop :=
  ∀ x ∈ log, keep x = true → cursor x ≤ position → P x

/-- The number of entries that pass the filter up to a position. -/
def passed (log : List α) (position : Nat) : Nat :=
  log.countP fun x => keep x && decide (cursor x ≤ position)

end

variable {α : Type} {cursor : α → Nat} {keep : α → Bool} {log items : List α}
  {after next limit position : Nat} {P P' : α → Prop} {x : α}

/-! ## Segments -/

theorem IsSegment.mem_iff (h : IsSegment cursor keep log after items next) :
    x ∈ items ↔ x ∈ log ∧ keep x = true ∧ after < cursor x ∧ cursor x ≤ next := by
  rw [h.eq_filter]
  simp only [List.mem_filter, Bool.and_eq_true, decide_eq_true_eq, and_assoc]

/-- What is appended behind a segment is no part of it. -/
theorem IsSegment.concat (h : IsSegment cursor keep log after items next)
    (hx : next < cursor x) : IsSegment cursor keep (log ++ [x]) after items next := by
  refine ⟨h.le, ?_⟩
  have hout : decide (cursor x ≤ next) = false := decide_eq_false (Nat.not_le.mpr hx)
  rw [List.filter_append, ← h.eq_filter]
  simp [hout]

theorem Ascending.concat (h : Ascending cursor log) (hpos : 0 < cursor x)
    (hx : ∀ y ∈ log, cursor y < cursor x) : Ascending cursor (log ++ [x]) := by
  refine ⟨?_, fun y hy => ?_⟩
  · rw [List.pairwise_append]
    refine ⟨h.sorted, List.pairwise_singleton _ _, fun y hy z hz => ?_⟩
    rw [List.mem_singleton.mp hz]
    exact hx y hy
  · rcases List.mem_append.mp hy with hy | hy
    · exact h.pos y hy
    · rw [List.mem_singleton.mp hy]
      exact hpos

theorem Ascending.inj (h : Ascending cursor log) {y : α} (hx : x ∈ log) (hy : y ∈ log)
    (heq : cursor x = cursor y) : x = y := by
  by_contra hne
  have hdistinct : log.Pairwise fun a b => cursor a ≠ cursor b := h.sorted.imp Nat.ne_of_lt
  have : Std.Symm fun a b => cursor a ≠ cursor b := ⟨fun _ _ hab => hab.symm⟩
  exact hdistinct.forall hx hy hne heq

/-- What passed up to a segment and the segment itself are what passed up to its end. -/
theorem IsSegment.append_filter (h : IsSegment cursor keep log after items next)
    (hsorted : log.Pairwise fun x y => cursor x < cursor y) :
    ((log.filter keep).filter fun x => cursor x ≤ after) ++ items =
      (log.filter keep).filter fun x => cursor x ≤ next := by
  have hle := h.le
  rw [h.eq_filter]
  clear h
  induction log with
  | nil => rfl
  | cons x rest ih =>
    obtain ⟨hx, hrest⟩ := List.pairwise_cons.mp hsorted
    simp only [List.filter_filter, Bool.and_comm _ (keep _)] at ih ⊢
    rcases Nat.lt_or_ge after (cursor x) with hlt | hge
    · -- Behind the first entry that is behind `after` there is no entry up to `after`.
      have hnone : (x :: rest).filter (fun y => keep y && decide (cursor y ≤ after)) = [] := by
        refine List.filter_eq_nil_iff.mpr fun y hy hpass => ?_
        have hyle : cursor y ≤ after := of_decide_eq_true (Bool.and_eq_true _ _ ▸ hpass : _ ∧ _).2
        rcases List.mem_cons.mp hy with rfl | hy
        · omega
        · have := hx y hy
          omega
      rw [hnone, List.nil_append]
      refine List.filter_congr fun y hy => ?_
      have hafter : after < cursor y := by
        rcases List.mem_cons.mp hy with rfl | hy
        · exact hlt
        · exact Nat.lt_trans hlt (hx y hy)
      rw [decide_eq_true hafter, Bool.and_true]
    · have hup : cursor x ≤ next := Nat.le_trans hge hle
      simp only [List.filter_cons, decide_eq_true hge, decide_eq_true hup,
        decide_eq_false (Nat.not_lt.mpr hge), Bool.and_true, Bool.and_false,
        Bool.false_eq_true, if_false]
      split
      · rw [List.cons_append, ih hrest]
      · exact ih hrest

/-- A reader that goes on from the last entry of a page goes on behind the page. -/
theorem filter_behind_page (hsorted : log.Pairwise fun x y => cursor x < cursor y)
    (after limit : Nat) :
    (log.filter fun x => ((((log.filter fun x => after < cursor x).take limit).getLast?.map
      cursor).getD after < cursor x)) = (log.filter fun x => after < cursor x).drop limit := by
  generalize hbehind : (log.filter fun x => decide (after < cursor x)) = behind
  have hlater : ∀ x ∈ behind, after < cursor x := by
    intro x hx
    rw [← hbehind] at hx
    exact of_decide_eq_true (List.mem_filter.mp hx).2
  have hparts : (behind.take limit ++ behind.drop limit).Pairwise fun x y => cursor x < cursor y := by
    rw [List.take_append_drop, ← hbehind]
    exact hsorted.filter _
  cases hlast : (behind.take limit).getLast? with
  | none =>
    have hnil : behind.take limit = [] := List.getLast?_eq_none_iff.mp hlast
    have hwhole := List.take_append_drop limit behind
    rw [hnil, List.nil_append] at hwhole
    exact hbehind.trans hwhole.symm
  | some last =>
    obtain ⟨front, hfront⟩ := List.getLast?_eq_some_iff.mp hlast
    have hmem : last ∈ behind.take limit := List.mem_of_getLast? hlast
    show (log.filter fun x => decide (cursor last < cursor x)) = behind.drop limit
    have hafter := hlater last (List.mem_of_mem_take hmem)
    -- The entries behind the last one are behind `after`, too.
    have hsame : (log.filter fun x => decide (cursor last < cursor x)) =
        behind.filter fun x => decide (cursor last < cursor x) := by
      rw [← hbehind, List.filter_filter]
      refine List.filter_congr fun x _ => ?_
      rcases Nat.lt_or_ge (cursor last) (cursor x) with hlt | hge
      · rw [decide_eq_true hlt, decide_eq_true (Nat.lt_trans hafter hlt), Bool.and_true]
      · rw [decide_eq_false (Nat.not_lt.mpr hge), Bool.false_and]
    have hpage : (behind.take limit).filter (fun x => decide (cursor last < cursor x)) = [] := by
      refine List.filter_eq_nil_iff.mpr fun x hx hlt => ?_
      have hlt := of_decide_eq_true hlt
      have hordered := (List.pairwise_append.mp hparts).1
      rw [hfront] at hx hordered
      rcases List.mem_append.mp hx with hx | hx
      · have := (List.pairwise_append.mp hordered).2.2 x hx last List.mem_cons_self
        omega
      · rw [List.mem_singleton.mp hx] at hlt
        exact Nat.lt_irrefl _ hlt
    have hrest : (behind.drop limit).filter (fun x => decide (cursor last < cursor x)) =
        behind.drop limit :=
      List.filter_eq_self.mpr fun x hx =>
        decide_eq_true ((List.pairwise_append.mp hparts).2.2 last hmem x hx)
    have hsplit := congrArg (List.filter fun x => decide (cursor last < cursor x))
      (List.take_append_drop limit behind)
    rw [List.filter_append, hpage, hrest, List.nil_append] at hsplit
    exact hsame.trans hsplit.symm

/-! ## Coverage -/

theorem Covers.mono (h : Covers cursor keep log position P) (hP : ∀ x, P x → P' x) :
    Covers cursor keep log position P' :=
  fun x hx hkeep hle => hP x (h x hx hkeep hle)

theorem covers_zero (h : Ascending cursor log) : Covers cursor keep log 0 P :=
  fun x hx _ hle => absurd (h.pos x hx) (Nat.not_lt.mpr hle)

theorem Covers.concat (h : Covers cursor keep log position P) (hx : position < cursor x) :
    Covers cursor keep (log ++ [x]) position P := by
  intro y hy hkeep hle
  rcases List.mem_append.mp hy with hy | hy
  · exact h y hy hkeep hle
  · rw [List.mem_singleton.mp hy] at hle
    exact absurd hx (Nat.not_lt.mpr hle)

/-- A segment whose entries satisfy `P` moves the coverage to its end. -/
theorem Covers.segment (h : Covers cursor keep log after P)
    (hsegment : IsSegment cursor keep log after items next) (hP : ∀ x ∈ items, P x) :
    Covers cursor keep log next P := by
  intro x hx hkeep hle
  rcases Nat.lt_or_ge after (cursor x) with hlt | hge
  · exact hP x (hsegment.mem_iff.mpr ⟨hx, hkeep, hlt, hle⟩)
  · exact h x hx hkeep hge

/-! ## Counting -/

theorem passed_concat (hx : position < cursor x) :
    passed cursor keep (log ++ [x]) position = passed cursor keep log position := by
  have hout : decide (cursor x ≤ position) = false := decide_eq_false (Nat.not_le.mpr hx)
  unfold passed
  rw [List.countP_append]
  simp [hout]

theorem passed_segment (h : IsSegment cursor keep log after items next) :
    passed cursor keep log next = passed cursor keep log after + items.length := by
  have hle := h.le
  rw [h.eq_filter]
  unfold passed
  rw [← List.countP_eq_length_filter]
  clear h
  induction log with
  | nil => rfl
  | cons x rest ih =>
    -- An entry is up to `after`, or behind it and up to `next`, or behind both.
    rcases Nat.lt_or_ge after (cursor x) with hlt | hge
    · have hnot : decide (cursor x ≤ after) = false := decide_eq_false (Nat.not_le.mpr hlt)
      simp only [List.countP_cons, hnot, decide_eq_true hlt, Bool.and_true, Bool.and_false,
        Bool.false_eq_true, if_false]
      omega
    · have hnot : decide (after < cursor x) = false := decide_eq_false (Nat.not_lt.mpr hge)
      simp only [List.countP_cons, hnot, decide_eq_true hge, decide_eq_true (Nat.le_trans hge hle),
        Bool.and_true, Bool.and_false, Bool.false_eq_true, if_false]
      omega

theorem passed_le (cursor : α → Nat) (keep : α → Bool) (log : List α) (position : Nat) :
    passed cursor keep log position ≤ log.countP keep := by
  refine List.countP_mono_left fun x _ h => ?_
  exact (Bool.and_eq_true _ _ ▸ h : _ ∧ _).1

/-- A reader that has passed as many entries as pass the filter has passed each of them. -/
theorem le_position_of_passed (h : log.countP keep ≤ passed cursor keep log position) :
    ∀ x ∈ log, keep x = true → cursor x ≤ position := by
  induction log with
  | nil => exact fun x hx => absurd hx List.not_mem_nil
  | cons y rest ih =>
    have hrest := passed_le cursor keep rest position
    have hcons : passed cursor keep (y :: rest) position =
        passed cursor keep rest position + if keep y && decide (cursor y ≤ position) then 1 else 0 :=
      List.countP_cons
    rw [hcons, List.countP_cons] at h
    intro x hx hkeep
    rcases List.mem_cons.mp hx with rfl | hx
    · by_contra hgt
      rw [hkeep, decide_eq_false hgt, if_pos rfl, if_neg (by decide)] at h
      omega
    · refine ih ?_ x hx hkeep
      cases hy : keep y with
      | false =>
        rw [hy, if_neg (by decide), if_neg (by simp)] at h
        exact h
      | true =>
        rw [hy, if_pos rfl] at h
        split at h <;> omega

end CursorLog
