import Mathlib.Data.List.Sort

/-!
# A sorted list that grows at its end

Insertion sort is stable: an element that is appended to a list is put behind
every element of the sorted list that does not come after it.

Results:
1. `insertionSort_concat`: the sort of `l ++ [x]` is the sort of `l` with `x`
   inserted behind its equals.
2. `take_insertBehind`: the front of the list stays as it is when the new
   element comes behind it.
3. `insertionSort_eq_of_perm`: lists with the same elements have one sort, if no two
   elements compare as equal.
-/

variable {α : Type} (r : α → α → Prop) [DecidableRel r]

/-- Insert an element behind the front elements that do not come after it. -/
def insertBehind (x : α) : List α → List α
  | [] => [x]
  | y :: ys => if r y x then y :: insertBehind x ys else x :: y :: ys

theorem perm_insertBehind (x : α) (l : List α) : (insertBehind r x l).Perm (x :: l) := by
  induction l with
  | nil => exact List.Perm.refl _
  | cons y ys ih =>
    unfold insertBehind
    split
    · exact (ih.cons y).trans (List.Perm.swap x y ys)
    · exact List.Perm.refl _

/-- Inserting in front of the equals and inserting behind the equals commute. -/
theorem orderedInsert_insertBehind [Std.Total r] [IsTrans α r] (a x : α) (l : List α) :
    (insertBehind r x l).orderedInsert r a = insertBehind r x (l.orderedInsert r a) := by
  induction l with
  | nil =>
    by_cases hax : r a x
    · simp [insertBehind, hax]
    · simp [insertBehind, hax]
  | cons y ys ih =>
    by_cases hyx : r y x
    · by_cases hay : r a y
      · have hax : r a x := IsTrans.trans a y x hay hyx
        simp [insertBehind, hyx, hay, hax]
      · simp [insertBehind, hyx, hay, ih]
    · by_cases hay : r a y
      · by_cases hax : r a x
        · simp [insertBehind, hyx, hay, hax]
        · simp [insertBehind, hyx, hay, hax]
      · -- `x` comes before `y`, so `a` cannot come before `x`.
        have hxy : r x y := (Std.Total.total y x).resolve_left hyx
        have hax : ¬ r a x := fun hax => hay (IsTrans.trans a x y hax hxy)
        simp [insertBehind, hyx, hay, hax]

theorem insertionSort_concat [Std.Total r] [IsTrans α r] (l : List α) (x : α) :
    (l ++ [x]).insertionSort r = insertBehind r x (l.insertionSort r) := by
  induction l with
  | nil => rfl
  | cons a rest ih =>
    rw [List.cons_append, List.insertionSort_cons, ih, orderedInsert_insertBehind,
      List.insertionSort_cons]

theorem take_insertBehind {x : α} {l : List α} {n : Nat} (hn : n ≤ l.length)
    (h : ∀ y ∈ l.take n, r y x) : (insertBehind r x l).take n = l.take n := by
  induction l generalizing n with
  | nil =>
    cases Nat.le_zero.mp hn
    rfl
  | cons y ys ih =>
    cases n with
    | zero => rfl
    | succ n =>
      have hyx : r y x := h y List.mem_cons_self
      have hrest : ∀ z ∈ ys.take n, r z x := fun z hz => h z (List.mem_cons_of_mem _ hz)
      unfold insertBehind
      rw [if_pos hyx, List.take_succ_cons, List.take_succ_cons,
        ih (Nat.le_of_succ_le_succ hn) hrest]

/-! ## Lists with the same elements -/

theorem insertionSort_eq_of_perm [Std.Total r] [IsTrans α r] {l l' : List α} (hperm : l.Perm l')
    (hapart : ∀ a ∈ l, ∀ b ∈ l, r a b → r b a → a = b) :
    l.insertionSort r = l'.insertionSort r := by
  have hsorts : (l.insertionSort r).Perm (l'.insertionSort r) :=
    ((List.perm_insertionSort r l).trans hperm).trans (List.perm_insertionSort r l').symm
  refine hsorts.eq_of_pairwise (fun a b ha hb => ?_) (List.pairwise_insertionSort r l)
    (List.pairwise_insertionSort r l')
  have hb' : b ∈ l := hperm.symm.subset ((List.perm_insertionSort r l').subset hb)
  exact hapart a ((List.perm_insertionSort r l).subset ha) b hb'

/-- An element that comes before all others is first. -/
theorem insertionSort_cons_of_le {a : α} {l : List α} (h : ∀ b ∈ l, r a b) :
    (a :: l).insertionSort r = a :: l.insertionSort r := by
  rw [List.insertionSort_cons]
  cases hsort : l.insertionSort r with
  | nil => rfl
  | cons b rest =>
    have hb : b ∈ l := by
      refine (List.perm_insertionSort r l).subset ?_
      rw [hsort]
      exact List.mem_cons_self
    rw [List.orderedInsert_cons, if_pos (h b hb)]
