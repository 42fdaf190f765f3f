import Mathlib.Algebra.Order.Ring.Nat
import Mathlib.Data.List.Perm.Basic
import Mathlib.Data.List.Sort

/-!
# Plain objects of the host

A plain object `{}` that is filled by `o[key] = value` is not a map of its
assignments in their order: the keys that are array indices are enumerated
first, in ascending order, and an assignment to `__proto__` creates no own
property at all.

Results:
1. `mem_objectEntries`: the entries of the object are the assignments whose
   key is not `__proto__`.
2. `nodup_objectEntries`: distinct keys stay distinct.
-/

/-- The value of an array index (`0`, or digits without a leading zero, below `2^32 - 1`). -/
def arrayIndex? (key : String) : Option Nat :=
  match key.toList with
  | [] => none
  | c :: cs =>
    let n := (c :: cs).foldl (fun acc d => acc * 10 + (d.toNat - '0'.toNat)) 0
    if (c :: cs).all Char.isDigit ∧ (c ≠ '0' ∨ cs = []) ∧ n < 2 ^ 32 - 1 then some n else none

/-- `Object.entries(o)` after `o[key] = value` for each of `assignments`, whose keys are distinct. -/
def objectEntries {ν : Type} (assignments : List (String × ν)) : List (String × ν) :=
  let own := assignments.filter fun e => e.1 ≠ "__proto__"
  let indices := own.filter fun e => (arrayIndex? e.1).isSome
  let names := own.filter fun e => (arrayIndex? e.1).isNone
  indices.insertionSort (fun a b => (arrayIndex? a.1).getD 0 ≤ (arrayIndex? b.1).getD 0) ++ names

section
variable {ν : Type} {assignments : List (String × ν)}

theorem objectEntries_perm (assignments : List (String × ν)) :
    (objectEntries assignments).Perm (assignments.filter fun e => e.1 ≠ "__proto__") := by
  have hsplit := List.filter_append_perm (fun e : String × ν => (arrayIndex? e.1).isSome)
    (assignments.filter fun e => e.1 ≠ "__proto__")
  refine List.Perm.trans ?_ hsplit
  unfold objectEntries
  refine List.Perm.append (List.perm_insertionSort _ _) ?_
  simp only [← Option.not_isSome]
  exact List.Perm.refl _

theorem mem_objectEntries {e : String × ν} :
    e ∈ objectEntries assignments ↔ e ∈ assignments ∧ e.1 ≠ "__proto__" := by
  rw [(objectEntries_perm assignments).mem_iff, List.mem_filter]
  simp

theorem length_objectEntries_le (assignments : List (String × ν)) :
    (objectEntries assignments).length ≤ assignments.length := by
  rw [(objectEntries_perm assignments).length_eq]
  exact List.length_filter_le _ _

theorem nodup_objectEntries (h : (assignments.map Prod.fst).Nodup) :
    ((objectEntries assignments).map Prod.fst).Nodup := by
  rw [((objectEntries_perm assignments).map Prod.fst).nodup_iff]
  exact h.sublist (List.filter_sublist.map _)

end

example : objectEntries [("b", 1), ("10", 2), ("__proto__", 3), ("9", 4), ("01", 5)] =
    [("9", 4), ("10", 2), ("b", 1), ("01", 5)] := by decide
