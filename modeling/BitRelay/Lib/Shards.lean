import Mathlib.Data.List.Dedup
import Mathlib.Data.List.Perm.Basic
import Mathlib.Logic.Function.Basic

/-!
# Batches over state that is split by a key

A state has one cell for each key, and every item of a batch has a key, reads the cell of that key
alone, writes it, and gives an output. Then the items of one key do not notice the others: a batch
can be taken apart by the keys, and each part run on its own cell.

Results:
1. `cell_runAll`: the cell of a key after a batch is what its own items make of it.
2. `outputs_perm`: the outputs of a batch are those of its parts, in another order.
3. `runAll_eq_runCell`: a batch whose items share a key is a batch on one cell.
4. `runAll_of_parts`: how the items of different keys are interleaved makes no difference.
-/

namespace Shards

variable {κ α σ ο : Type} [DecidableEq κ]

/-- A batch on one cell. -/
def runCell (step : α → σ → ο × σ) : List α → σ → List ο × σ
  | [], s => ([], s)
  | a :: rest, s =>
    let done := runCell step rest (step a s).2
    ((step a s).1 :: done.1, done.2)

/-- A batch on all cells. -/
def runAll (key : α → κ) (step : α → σ → ο × σ) : List α → (κ → σ) → List ο × (κ → σ)
  | [], cells => ([], cells)
  | a :: rest, cells =>
    let done := runAll key step rest (Function.update cells (key a) (step a (cells (key a))).2)
    ((step a (cells (key a))).1 :: done.1, done.2)

variable {key : α → κ} {step : α → σ → ο × σ}

/-- The items of a key. -/
def part (key : α → κ) (items : List α) (k : κ) : List α := items.filter fun a => decide (key a = k)

theorem part_cons_self {a : α} {k : κ} (h : key a = k) (rest : List α) :
    part key (a :: rest) k = a :: part key rest k :=
  List.filter_cons_of_pos (decide_eq_true h)

theorem part_cons_of_ne {a : α} {k : κ} (h : key a ≠ k) (rest : List α) :
    part key (a :: rest) k = part key rest k :=
  List.filter_cons_of_neg (by simp [h])

theorem cell_runAll (items : List α) (cells : κ → σ) (k : κ) :
    (runAll key step items cells).2 k = (runCell step (part key items k) (cells k)).2 := by
  induction items generalizing cells with
  | nil => rfl
  | cons a rest ih =>
    refine (ih _).trans ?_
    rcases Decidable.em (key a = k) with h | h
    · subst h
      rw [part_cons_self rfl, Function.update_self]
      rfl
    · rw [part_cons_of_ne h, Function.update_of_ne (Ne.symm h)]

/-- The first item gives its output to the part of its key. -/
theorem outputs_cons (a : α) (rest : List α) (cells : κ → σ) (k : κ) :
    (runCell step (part key (a :: rest) k) (cells k)).1 =
      (if key a = k then [(step a (cells (key a))).1] else []) ++ (runCell step (part key rest k)
        (Function.update cells (key a) (step a (cells (key a))).2 k)).1 := by
  rcases Decidable.em (key a = k) with h | h
  · subst h
    rw [part_cons_self rfl, if_pos rfl, Function.update_self]
    rfl
  · rw [part_cons_of_ne h, if_neg h, Function.update_of_ne (Ne.symm h), List.nil_append]

theorem flatMap_single {keys : List κ} (hnodup : keys.Nodup) {k : κ} (hk : k ∈ keys) (o : ο) :
    keys.flatMap (fun k' => if k = k' then [o] else []) = [o] := by
  induction keys with
  | nil => exact absurd hk List.not_mem_nil
  | cons k' rest ih =>
    obtain ⟨hnot, hrest⟩ := List.nodup_cons.mp hnodup
    rw [List.flatMap_cons]
    rcases Decidable.em (k = k') with h | h
    · subst h
      have hnone : rest.flatMap (fun k' => if k = k' then [o] else []) = [] := by
        refine List.flatMap_eq_nil_iff.mpr fun other hother => if_neg ?_
        rintro rfl
        exact hnot hother
      rw [if_pos rfl, hnone, List.append_nil]
    · rw [if_neg h, List.nil_append]
      exact ih hrest ((List.mem_cons.mp hk).resolve_left h)

theorem outputs_perm {keys : List κ} (hnodup : keys.Nodup) {items : List α}
    (hkeys : ∀ a ∈ items, key a ∈ keys) (cells : κ → σ) :
    (runAll key step items cells).1.Perm
      (keys.flatMap fun k => (runCell step (part key items k) (cells k)).1) := by
  induction items generalizing cells with
  | nil =>
    have hnone : (keys.flatMap fun k => (runCell step (part key [] k) (cells k)).1) = [] :=
      List.flatMap_eq_nil_iff.mpr fun _ _ => rfl
    rw [hnone]
    exact List.Perm.nil
  | cons a rest ih =>
    simp only [outputs_cons a rest cells]
    refine List.Perm.trans ?_ (List.flatMap_append_perm keys _ _)
    rw [flatMap_single hnodup (hkeys a List.mem_cons_self)]
    exact (ih (fun b hb => hkeys b (List.mem_cons_of_mem _ hb)) _).cons _

theorem runAll_eq_runCell {items : List α} {k : κ} (h : ∀ a ∈ items, key a = k) (cells : κ → σ) :
    (runAll key step items cells).1 = (runCell step items (cells k)).1 := by
  induction items generalizing cells with
  | nil => rfl
  | cons a rest ih =>
    obtain rfl := h a List.mem_cons_self
    have hrest := ih (fun b hb => h b (List.mem_cons_of_mem _ hb))
      (Function.update cells (key a) (step a (cells (key a))).2)
    rw [Function.update_self] at hrest
    exact congrArg (List.cons _) hrest

theorem runAll_append (items items' : List α) (cells : κ → σ) :
    runAll key step (items ++ items') cells =
      ((runAll key step items cells).1 ++
          (runAll key step items' (runAll key step items cells).2).1,
        (runAll key step items' (runAll key step items cells).2).2) := by
  induction items generalizing cells with
  | nil => rfl
  | cons a rest ih =>
    rw [List.cons_append, runAll, ih]
    rfl

/-- Two batches with the same parts do the same to the cells and give the same outputs, in
another order. -/
theorem runAll_of_parts {items items' : List α} (h : ∀ k, part key items k = part key items' k)
    (cells : κ → σ) :
    (runAll key step items cells).2 = (runAll key step items' cells).2 ∧
      (runAll key step items cells).1.Perm (runAll key step items' cells).1 := by
  constructor
  · funext k
    rw [cell_runAll, cell_runAll, h k]
  · have hcovers : ∀ l : List α, (∀ a ∈ l, key a ∈ (items ++ items').map key) →
        ∀ a ∈ l, key a ∈ ((items ++ items').map key).dedup :=
      fun l hl a ha => List.mem_dedup.mpr (hl a ha)
    have hnodup := List.nodup_dedup ((items ++ items').map key)
    refine (outputs_perm hnodup (hcovers items fun a ha => ?_) cells).trans ?_
    · exact List.mem_map_of_mem (List.mem_append_left _ ha)
    · simp only [h]
      exact (outputs_perm hnodup (hcovers items' fun a ha =>
        List.mem_map_of_mem (List.mem_append_right _ ha)) cells).symm

end Shards
