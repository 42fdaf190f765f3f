import Mathlib.Data.List.Basic
import Mathlib.Data.List.Range

/-!
# Reading a capped log by position

A log numbers its entries as they are appended and keeps the last `cap` of them.
A reader remembers a position in the log, not a number: when the oldest entry is
dropped, every entry moves one position to the front, past the reader.

Results:
1. `Invariant.push`, `Invariant.read`: the entries a reader returns have growing
   numbers, whatever happens between two reads.
2. `read_short_iff`: a read that reaches the end has seen every entry still kept
   if and only if no entry was dropped while the reader stood past the front.
-/

/-- The kept entries are those with the numbers `first` to `next - 1`; the reader stands at the
position `cursor`. -/
structure LogReader where
  first : Nat
  next : Nat
  cursor : Nat
  /-- the numbers of the entries returned so far -/
  returned : List Nat
  /-- an entry was dropped while the reader stood past the front -/
  skipped : Bool

namespace LogReader

variable {cap limit : Nat} {r : LogReader}

def size (r : LogReader) : Nat := r.next - r.first

def push (cap : Nat) (r : LogReader) : LogReader :=
  if r.size < cap then { r with next := r.next + 1 }
  else { r with
    first := r.first + 1
    next := r.next + 1
    skipped := r.skipped || decide (0 < r.cursor) }

/-- How many entries a read returns. -/
def count (limit : Nat) (r : LogReader) : Nat := min limit (r.size - r.cursor)

def read (limit : Nat) (r : LogReader) : LogReader :=
  { r with
    cursor := r.cursor + r.count limit
    returned := r.returned ++ List.range' (r.first + r.cursor) (r.count limit) }

/-- Every kept entry has been returned. -/
def Complete (r : LogReader) : Prop := ∀ i, r.first ≤ i → i < r.next → i ∈ r.returned

structure Invariant (cap : Nat) (r : LogReader) : Prop where
  first_le : r.first ≤ r.next
  size_le : r.size ≤ cap
  cursor_le : r.cursor ≤ r.size
  ordered : r.returned.Pairwise (· < ·)
  behind : ∀ i ∈ r.returned, i < r.first + r.cursor
  /-- nothing before the cursor is missing -/
  seen : r.skipped = false → ∀ i, r.first ≤ i → i < r.first + r.cursor → i ∈ r.returned
  /-- something before the cursor is missing, for good -/
  hole : r.skipped = true →
    r.size = cap ∧ ∃ i, r.first ≤ i ∧ i < r.first + r.cursor ∧ i ∉ r.returned

theorem Invariant.init : Invariant cap ⟨0, 0, 0, [], false⟩ where
  first_le := Nat.le_refl 0
  size_le := Nat.zero_le cap
  cursor_le := Nat.zero_le _
  ordered := List.Pairwise.nil
  behind _ h := absurd h List.not_mem_nil
  seen _ i _ h := absurd h (Nat.not_lt_zero i)
  hole h := by cases h

theorem Invariant.push_room (h : Invariant cap r) (hroom : r.size < cap) :
    Invariant cap { r with next := r.next + 1 } where
  first_le := Nat.le_succ_of_le h.first_le
  size_le := by
    have := h.first_le
    unfold size at *
    simp only
    omega
  cursor_le := by
    have := h.cursor_le
    unfold size at *
    simp only
    omega
  ordered := h.ordered
  behind := h.behind
  seen := h.seen
  hole hskipped := absurd (h.hole hskipped).1 (Nat.ne_of_lt hroom)

/-- The oldest entry is dropped: the entry at the cursor, if any, moves before it unread. -/
theorem Invariant.push_full (hcap : 1 ≤ cap) (h : Invariant cap r) (hfull : ¬ r.size < cap) :
    Invariant cap { r with
      first := r.first + 1
      next := r.next + 1
      skipped := r.skipped || decide (0 < r.cursor) } := by
  have hsize : r.size = cap := Nat.le_antisymm h.size_le (Nat.not_lt.mp hfull)
  have hnext : r.next = r.first + cap := by
    have := h.first_le
    unfold size at hsize
    omega
  have hsize' : r.next + 1 - (r.first + 1) = cap := by omega
  refine ⟨by simp only; omega, ?_, ?_, h.ordered, fun i hi => ?_, fun hskipped i hi hlt => ?_,
    fun hskipped => ⟨hsize', r.first + r.cursor, ?_, ?_, ?_⟩⟩
  · exact Nat.le_of_eq hsize'
  · have hcursor := h.cursor_le
    unfold size at hcursor ⊢
    simp only
    omega
  · have := h.behind i hi
    simp only
    omega
  · rw [Bool.or_eq_false_iff, decide_eq_false_iff_not] at hskipped
    simp only at hi hlt
    omega
  · have hpos : 0 < r.cursor := by
      rw [Bool.or_eq_true, decide_eq_true_eq] at hskipped
      rcases hskipped with hskipped | hpos
      · obtain ⟨-, i, hi, hlt, -⟩ := h.hole hskipped
        omega
      · exact hpos
    simp only
    omega
  · simp only
    omega
  · exact fun hmem => Nat.lt_irrefl _ (h.behind _ hmem)

theorem Invariant.push (hcap : 1 ≤ cap) (h : Invariant cap r) : Invariant cap (r.push cap) := by
  unfold LogReader.push
  split
  · next hroom => exact h.push_room hroom
  · next hfull => exact h.push_full hcap hfull

theorem Invariant.read (h : Invariant cap r) (limit : Nat) : Invariant cap (r.read limit) where
  first_le := h.first_le
  size_le := h.size_le
  cursor_le := by
    have := h.cursor_le
    simp only [LogReader.read, count, size] at *
    omega
  ordered := by
    refine List.pairwise_append.mpr ⟨h.ordered, List.pairwise_lt_range' 1, fun i hi j hj => ?_⟩
    have hlt := h.behind i hi
    have hle := (List.mem_range'_1.mp hj).1
    omega
  behind i hi := by
    simp only [LogReader.read] at hi ⊢
    rcases List.mem_append.mp hi with hold | hnew
    · have := h.behind i hold
      omega
    · have := (List.mem_range'_1.mp hnew).2
      omega
  seen hskipped i hi hlt := by
    simp only [LogReader.read] at hskipped hi hlt ⊢
    by_cases hold : i < r.first + r.cursor
    · exact List.mem_append_left _ (h.seen hskipped i hi hold)
    · exact List.mem_append_right _ (List.mem_range'_1.mpr ⟨Nat.not_lt.mp hold, by omega⟩)
  hole hskipped := by
    obtain ⟨hsize, i, hi, hlt, hnot⟩ := h.hole hskipped
    refine ⟨hsize, i, hi, ?_, ?_⟩
    · simp only [LogReader.read]
      omega
    · intro hmem
      rcases List.mem_append.mp hmem with hold | hnew
      · exact hnot hold
      · exact Nat.not_le.mpr hlt (List.mem_range'_1.mp hnew).1

/-- A read that returns less than its limit has reached the end. -/
theorem cursor_read_of_short (h : Invariant cap r) (hshort : r.count limit < limit) :
    (r.read limit).first + (r.read limit).cursor = (r.read limit).next := by
  have hfirst := h.first_le
  have hcursor := h.cursor_le
  simp only [LogReader.read, count, size] at *
  omega

theorem read_short_iff (h : Invariant cap r) (hshort : r.count limit < limit) :
    (r.read limit).Complete ↔ r.skipped = false := by
  have hread := h.read limit
  have hend := cursor_read_of_short h hshort
  constructor
  · intro hcomplete
    by_contra hskipped
    rw [Bool.not_eq_false] at hskipped
    obtain ⟨-, i, hi, hlt, hnot⟩ := hread.hole hskipped
    exact hnot (hcomplete i hi (hend ▸ hlt))
  · intro hskipped i hi hlt
    exact hread.seen hskipped i hi (hend.symm ▸ hlt)

end LogReader
