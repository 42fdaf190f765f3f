import Mathlib.Data.List.TakeWhile

/-!
# Fields between runs of separators

A line is split at every run of separators: the fields are what stands between the runs.

Results:
1. `splitRuns_append`: the first field, and the fields behind the run that ends it.
2. `splitRuns_eq_cons_cons_iff`: what a line of two fields or more looks like.
-/

variable {α : Type}

/-- Cut a line at every run of separators. A run at an end leaves an empty field there. -/
def splitRuns (sep : α → Bool) : List α → List (List α)
  | [] => [[]]
  | c :: cs =>
    if sep c then
      if cs.head?.any sep then splitRuns sep cs else [] :: splitRuns sep cs
    else (splitRuns sep cs).modifyHead (c :: ·)

/-- A run of separators, at least one. -/
def IsRun (sep : α → Bool) (gap : List α) : Prop := gap ≠ [] ∧ ∀ c ∈ gap, sep c = true

/-- No separator stands in the field. -/
def IsPlainField (sep : α → Bool) (field : List α) : Prop := ∀ c ∈ field, sep c = false

/-- The line ends here, or a separator comes. -/
def EndsField (sep : α → Bool) (rest : List α) : Prop := ∀ c ∈ rest.head?, sep c = true

/-- The fields behind the first one. -/
def fieldsBehind (sep : α → Bool) : List α → List (List α)
  | [] => []
  | _ :: rest => splitRuns sep (rest.dropWhile sep)

namespace FieldLemmas

variable {sep : α → Bool}

theorem isPlainField_nil (sep : α → Bool) : IsPlainField sep [] := by
  intro c hc
  cases hc

theorem endsField_nil (sep : α → Bool) : EndsField sep [] := by
  intro c hc
  cases hc

theorem endsField_cons {c : α} (h : sep c = true) (cs : List α) : EndsField sep (c :: cs) := by
  intro d hd
  cases hd
  exact h

/-- The separators of a run are skipped together. -/
theorem splitRuns_run {c : α} (hc : sep c = true) (cs : List α) :
    splitRuns sep (c :: cs) = [] :: splitRuns sep (cs.dropWhile sep) := by
  induction cs generalizing c with
  | nil => simp [splitRuns, hc]
  | cons d ds ih =>
    rw [splitRuns, if_pos hc, List.head?_cons, Option.any_some]
    cases hd : sep d with
    | true => rw [if_pos rfl, ih hd, List.dropWhile_cons_of_pos hd]
    | false =>
      have hnot : ¬ sep d = true := by simp [hd]
      rw [if_neg Bool.false_ne_true, List.dropWhile_cons_of_neg hnot]

/-- Every line is a field and what ends it. -/
theorem exists_field (sep : α → Bool) (l : List α) :
    ∃ field rest, l = field ++ rest ∧ IsPlainField sep field ∧ EndsField sep rest := by
  induction l with
  | nil => exact ⟨[], [], rfl, isPlainField_nil sep, endsField_nil sep⟩
  | cons c cs ih =>
    obtain ⟨field, rest, hcs, hfield, hrest⟩ := ih
    cases hc : sep c with
    | true => exact ⟨[], c :: cs, rfl, isPlainField_nil sep, endsField_cons hc cs⟩
    | false =>
      refine ⟨c :: field, rest, congrArg (c :: ·) hcs, fun d hd => ?_, hrest⟩
      rcases List.mem_cons.mp hd with rfl | hd
      · exact hc
      · exact hfield d hd

theorem head_dropWhile {l : List α} {c : α} (h : c ∈ (l.dropWhile sep).head?) : sep c = false := by
  have hne : l.dropWhile sep ≠ [] := by
    intro hnil
    rw [hnil] at h
    cases h
  rw [List.head?_eq_some_head hne, Option.mem_some_iff] at h
  rw [← h]
  exact eq_false_of_ne_true fun htrue => by simpa [htrue] using List.head_dropWhile_not sep hne

end FieldLemmas

open FieldLemmas

section
variable {sep : α → Bool}

/-- The first field of a line, and the fields behind it. -/
theorem splitRuns_append {field rest : List α} (hfield : IsPlainField sep field)
    (hrest : EndsField sep rest) : splitRuns sep (field ++ rest) = field :: fieldsBehind sep rest := by
  induction field with
  | nil =>
    cases rest with
    | nil => rfl
    | cons c cs => exact splitRuns_run (hrest c rfl) cs
  | cons c cs ih =>
    have hc : ¬ sep c = true := by simp [hfield c List.mem_cons_self]
    have hcs := ih fun d hd => hfield d (List.mem_cons_of_mem _ hd)
    rw [List.cons_append, splitRuns, if_neg hc, hcs, List.modifyHead_cons]

/-- A line of two fields or more: the first one, a run, the second one, and what ends it. Only the
last field can be empty. -/
theorem splitRuns_eq_cons_cons_iff {l first second : List α} :
    (∃ more, splitRuns sep l = first :: second :: more) ↔
      ∃ gap rest, l = first ++ (gap ++ (second ++ rest)) ∧ IsPlainField sep first ∧ IsRun sep gap ∧
        IsPlainField sep second ∧ EndsField sep rest ∧ (second = [] → rest = []) := by
  constructor
  · rintro ⟨more, hsplit⟩
    obtain ⟨field, behind, rfl, hfield, hbehind⟩ := exists_field sep l
    rw [splitRuns_append hfield hbehind, List.cons_eq_cons] at hsplit
    obtain ⟨rfl, hsplit⟩ := hsplit
    cases behind with
    | nil => cases hsplit
    | cons c cs =>
      obtain ⟨field', rest, hcs, hfield', hrest⟩ := exists_field sep (cs.dropWhile sep)
      rw [fieldsBehind, hcs, splitRuns_append hfield' hrest, List.cons_eq_cons] at hsplit
      obtain ⟨rfl, -⟩ := hsplit
      have hgap : ∀ d ∈ c :: cs.takeWhile sep, sep d = true := by
        intro d hd
        rcases List.mem_cons.mp hd with rfl | hd
        · exact hbehind d rfl
        · exact List.mem_takeWhile_imp hd
      refine ⟨c :: cs.takeWhile sep, rest, ?_, hfield, ⟨List.cons_ne_nil _ _, hgap⟩, hfield',
        hrest, fun hempty => ?_⟩
      · rw [← hcs, List.cons_append, List.takeWhile_append_dropWhile]
      · -- the run would have gone on
        subst hempty
        cases rest with
        | nil => rfl
        | cons d ds =>
          have hhead : sep d = false := head_dropWhile (l := cs) (by rw [hcs]; rfl)
          rw [hrest d rfl] at hhead
          cases hhead
  · rintro ⟨gap, rest, rfl, hfirst, ⟨hne, hgap⟩, hsecond, hrest, hlast⟩
    cases gap with
    | nil => exact absurd rfl hne
    | cons c cs =>
      have hbehind : EndsField sep (c :: cs ++ (second ++ rest)) :=
        endsField_cons (hgap c List.mem_cons_self) _
      have hskip : (cs ++ (second ++ rest)).dropWhile sep = second ++ rest := by
        rw [List.dropWhile_append_of_pos fun d hd => hgap d (List.mem_cons_of_mem _ hd)]
        cases second with
        | nil => rw [hlast rfl]; rfl
        | cons d ds =>
          exact List.dropWhile_cons_of_neg (by simp [hsecond d List.mem_cons_self])
      refine ⟨fieldsBehind sep rest, ?_⟩
      rw [splitRuns_append hfirst hbehind, List.cons_append, fieldsBehind, hskip,
        splitRuns_append hsecond hrest]

end
