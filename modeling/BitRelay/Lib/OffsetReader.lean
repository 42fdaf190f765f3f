import BitRelay.Lib.StableSort

/-!
# Reading a growing list by offset

A list is kept in order while elements are added to it or taken out, and a reader
takes it page by page from an offset. An element that goes in front of the offset
moves the elements behind it: one of those the reader has seen comes back, and the
new one is never read. An element that is taken out in front of the offset lets the
first one that was not read slip in front of it.

Results:
1. `seen_read`, `seen_insert`: what the reader has seen is the front of the list, as long
   as every new element goes behind what was seen.
2. `seen_of_short`: a page that is not full ends the list.
3. `seen_erase`: what slips in front of the offset when an element is taken out.
-/

structure OffsetReader (α : Type) where
  items : List α
  offset : Nat

namespace OffsetReader

variable {α : Type} (r : α → α → Prop) [DecidableRel r] (reader : OffsetReader α)

/-- What the reader has seen. -/
def seen : List α := reader.items.take reader.offset

def page (limit : Nat) : List α := (reader.items.drop reader.offset).take limit

def read (limit : Nat) : OffsetReader α :=
  { reader with offset := reader.offset + (reader.page limit).length }

/-- Add an element behind its equals. -/
def insert (x : α) : OffsetReader α := { reader with items := insertBehind r x reader.items }

/-- Take an element out. -/
def erase [BEq α] (x : α) : OffsetReader α := { reader with items := reader.items.erase x }

variable {r reader}

theorem offset_read_le (h : reader.offset ≤ reader.items.length) (limit : Nat) :
    (reader.read limit).offset ≤ reader.items.length := by
  have hpage : (reader.page limit).length ≤ reader.items.length - reader.offset := by
    unfold page
    rw [List.length_take, List.length_drop]
    exact Nat.min_le_right _ _
  show reader.offset + (reader.page limit).length ≤ reader.items.length
  omega

theorem seen_read (reader : OffsetReader α) (limit : Nat) :
    (reader.read limit).seen = reader.seen ++ reader.page limit := by
  show reader.items.take (reader.offset + (reader.page limit).length) = _
  rw [List.take_add]
  have hpage : (reader.items.drop reader.offset).take (reader.page limit).length =
      reader.page limit := by
    unfold page
    rw [List.length_take, ← List.take_eq_take_min]
  rw [hpage]
  rfl

/-- A page that is not full ends the list. -/
theorem seen_of_short {limit : Nat} (h : (reader.page limit).length < limit) :
    (reader.read limit).seen = reader.items := by
  unfold page at h
  rw [List.length_take] at h
  have hall : (reader.page limit).length = reader.items.length - reader.offset := by
    unfold page
    rw [List.length_take, List.length_drop]
    rw [List.length_drop] at h
    omega
  show reader.items.take (reader.offset + (reader.page limit).length) = reader.items
  exact List.take_of_length_le (by omega)

theorem offset_insert_le (h : reader.offset ≤ reader.items.length) (x : α) :
    (reader.insert r x).offset ≤ (reader.insert r x).items.length := by
  have hlength := (perm_insertBehind r x reader.items).length_eq
  show reader.offset ≤ (insertBehind r x reader.items).length
  rw [hlength]
  exact Nat.le_succ_of_le h

/-- A new element that goes behind what was seen changes nothing of it. -/
theorem seen_insert (h : reader.offset ≤ reader.items.length) {x : α}
    (hbehind : ∀ y ∈ reader.seen, r y x) : (reader.insert r x).seen = reader.seen :=
  take_insertBehind r h hbehind

/-- When an element that was seen is taken out, the first one behind the offset counts as seen. -/
theorem seen_erase [BEq α] [LawfulBEq α] {x : α} (hx : x ∈ reader.seen) :
    (reader.erase x).seen = reader.seen.erase x ++ (reader.items.drop reader.offset).take 1 := by
  obtain ⟨items, n⟩ := reader
  change x ∈ items.take n at hx
  show (items.erase x).take n = (items.take n).erase x ++ (items.drop n).take 1
  have hsplit : items.erase x = (items.take n).erase x ++ items.drop n := by
    conv_lhs => rw [← List.take_append_drop n items]
    exact List.erase_append_left _ hx
  have hlength : ((items.take n).erase x).length = min n items.length - 1 := by
    rw [List.length_erase_of_mem hx, List.length_take]
  have hpos : 0 < min n items.length := by
    rw [← List.length_take]
    exact List.length_pos_of_mem hx
  rw [hsplit, List.take_append, hlength, List.take_of_length_le (by omega)]
  rcases Nat.le_total n items.length with hle | hge
  · rw [Nat.min_eq_left hle, show n - (n - 1) = 1 by omega]
  · rw [List.drop_of_length_le hge, List.take_nil, List.take_nil]

end OffsetReader
