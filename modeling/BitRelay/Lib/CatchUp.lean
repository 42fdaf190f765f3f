import BitRelay.Lib.CursorLog

/-!
# Catching up with a log

A reader goes on page by page through a log that grows behind it. Some of the entries are marked. A
page that is not full ends behind the marked entries, so a reader that has read enough pages since
a marked entry was appended has passed all of them.

Results:
1. `IsSegment.append`, `Covers.append`, `passed_append`: what is appended behind a position does not
   matter to it.
2. `Progress.append`, `Progress.page`: a log that grows and a page that is read keep the progress of
   the reader.
3. `Progress.done`: after as many full pages as there are entries every marked one has been passed.
-/

namespace CursorLog

variable {α : Type} {cursor : α → Nat} {keep : α → Bool} {log new items : List α}
  {after next position limit rounds : Nat} {P marked : α → Prop}

/-! ## Logs that grow -/

theorem IsSegment.append (h : IsSegment cursor keep log after items next)
    (hnew : ∀ x ∈ new, next < cursor x) :
    IsSegment cursor keep (log ++ new) after items next := by
  induction new generalizing log with
  | nil => rwa [List.append_nil]
  | cons x rest ih =>
    rw [← List.singleton_append, ← List.append_assoc]
    exact ih (h.concat (hnew x List.mem_cons_self)) fun y hy => hnew y (List.mem_cons_of_mem _ hy)

theorem Covers.append (h : Covers cursor keep log position P)
    (hnew : ∀ x ∈ new, position < cursor x) : Covers cursor keep (log ++ new) position P := by
  induction new generalizing log with
  | nil => rwa [List.append_nil]
  | cons x rest ih =>
    rw [← List.singleton_append, ← List.append_assoc]
    exact ih (h.concat (hnew x List.mem_cons_self)) fun y hy => hnew y (List.mem_cons_of_mem _ hy)

theorem passed_append (hnew : ∀ x ∈ new, position < cursor x) :
    passed cursor keep (log ++ new) position = passed cursor keep log position := by
  induction new generalizing log with
  | nil => rw [List.append_nil]
  | cons x rest ih =>
    rw [← List.singleton_append, ← List.append_assoc,
      ih fun y hy => hnew y (List.mem_cons_of_mem _ hy), passed_concat (hnew x List.mem_cons_self)]

/-! ## Progress -/

/-- The marked entries are up to the position. -/
def Marks (cursor : α → Nat) (marked : α → Prop) (log : List α) (position : Nat) : Prop :=
  ∀ x ∈ log, marked x → cursor x ≤ position

/-- A reader has passed all the marked entries, or a full page in each of its rounds. -/
def Progress (cursor : α → Nat) (keep : α → Bool) (marked : α → Prop) (log : List α)
    (limit position rounds : Nat) : Prop :=
  Marks cursor marked log position ∨ rounds * limit ≤ passed cursor keep log position

theorem Marks.mono (h : Marks cursor marked log position) (hle : position ≤ next) :
    Marks cursor marked log next :=
  fun x hx hmarked => Nat.le_trans (h x hx hmarked) hle

theorem Marks.append (h : Marks cursor marked log position) (hnew : ∀ x ∈ new, ¬ marked x) :
    Marks cursor marked (log ++ new) position := by
  intro x hx hmarked
  rcases List.mem_append.mp hx with hold | hmem
  · exact h x hold hmarked
  · exact absurd hmarked (hnew x hmem)

theorem Progress.zero : Progress cursor keep marked log limit position 0 := by
  refine .inr ?_
  rw [Nat.zero_mul]
  exact Nat.zero_le _

/-- New entries that are not marked cost no progress. -/
theorem Progress.append (h : Progress cursor keep marked log limit position rounds)
    (hnew : ∀ x ∈ new, position < cursor x) (hmarked : ∀ x ∈ new, ¬ marked x) :
    Progress cursor keep marked (log ++ new) limit position rounds := by
  rcases h with hmarks | hpassed
  · exact .inl (hmarks.append hmarked)
  · have hsame : passed cursor keep (log ++ new) position = passed cursor keep log position :=
      passed_append hnew
    rw [← hsame] at hpassed
    exact .inr hpassed

/-- A page that was read when all the marked entries were there is one more round. -/
theorem Progress.page (h : Progress cursor keep marked log limit after rounds)
    (hsegment : IsSegment cursor keep log after items next)
    (hshort : items.length < limit → Marks cursor marked log next) :
    Progress cursor keep marked log limit next (rounds + 1) := by
  rcases h with hmarks | hpassed
  · exact .inl (hmarks.mono hsegment.le)
  · rcases Nat.lt_or_ge items.length limit with hlt | hfull
    · exact .inl (hshort hlt)
    · refine .inr ?_
      rw [passed_segment hsegment, Nat.succ_mul]
      exact Nat.add_le_add hpassed hfull

/-- A page that is not counted does not go back. -/
theorem Progress.move (h : Progress cursor keep marked log limit after rounds)
    (hsegment : IsSegment cursor keep log after items next) :
    Progress cursor keep marked log limit next rounds := by
  rcases h with hmarks | hpassed
  · exact .inl (hmarks.mono hsegment.le)
  · refine .inr (Nat.le_trans hpassed ?_)
    rw [passed_segment hsegment]
    exact Nat.le_add_right _ _

theorem Progress.done (h : Progress cursor keep marked log limit position rounds)
    (hmarked : ∀ x ∈ log, marked x → keep x = true) (hcount : log.length ≤ rounds * limit) :
    Marks cursor marked log position := by
  rcases h with hmarks | hpassed
  · exact hmarks
  · have hkept : log.countP keep ≤ passed cursor keep log position :=
      Nat.le_trans (Nat.le_trans List.countP_le_length hcount) hpassed
    exact fun x hx hm => le_position_of_passed hkept x hx (hmarked x hx hm)

end CursorLog
