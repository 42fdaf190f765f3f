import BitRelay.Cache.Projection
import BitRelay.Js.CodeUnits

/-!
# The keys of issue events

The event of an issue envelope is stored under its room, its cursor and the id of the
envelope. A sync lists the keys of a room and reads the cursors back from them.

Results:
1. `parse_eventKey`: the key of an event gives its cursor.
2. `eventKey_lt`: the keys of a room are ordered like the cursors.
3. `parse_eventKey_of_ne`: the key of another room gives no cursor.
4. `eventKeys_encode_cursors`: all three, for every room.
-/

namespace BitRelay

namespace EventKeyLemmas

variable {room : String}

/-- A key is its front, a padded numeral, a dash and the id. -/
theorem eventKey_shape (room : String) (cursor : Nat) (id : String) :
    issueEventStorageKey room cursor id = ISSUE_EVENT_KEY_PREFIX ++ room ++ "/" ++
      (padZeros ISSUE_CURSOR_PAD_WIDTH (toString cursor) ++ ("-" ++ id)) := by
  have hassoc : padZeros ISSUE_CURSOR_PAD_WIDTH (toString cursor) ++ ("-" ++ id) =
      padZeros ISSUE_CURSOR_PAD_WIDTH (toString cursor) ++ "-" ++ id := String.append_assoc.symm
  rw [hassoc]
  rfl

theorem sliceFrom_append (front s : String) : sliceFrom (front ++ s) front.length = s := by
  unfold sliceFrom
  rw [String.toList_append, ← String.length_toList, List.drop_left, String.ofList_toList]

/-- A numeral has no dash, so the first dash of the text is the one behind it. -/
theorem splitFirst_numeral {padded : String} (h : IsNumeral padded.toList) (id : String) :
    splitFirst (padded ++ ("-" ++ id)) '-' = padded := by
  have hall : ∀ c ∈ padded.toList, decide (c ≠ '-') = true := by
    intro c hc
    refine decide_eq_true ?_
    rintro rfl
    cases h.2 '-' hc
  unfold splitFirst
  rw [String.toList_append, List.takeWhile_append_of_pos hall, String.toList_append]
  exact (congrArg String.ofList (List.append_nil _)).trans String.ofList_toList

end EventKeyLemmas

open EventKeyLemmas

/-- The key of an event gives its cursor. -/
theorem parse_eventKey (room : String) {cursor : Nat} (hpos : 0 < cursor) (id : String) :
    parseIssueEventCursorFromKey room (issueEventStorageKey room cursor id) = some cursor := by
  have hdigits := NumeralLemmas.isNumeral_padZeros ISSUE_CURSOR_PAD_WIDTH cursor
  have hkey := eventKey_shape room cursor id
  have hvalue : parseInt10 (padZeros ISSUE_CURSOR_PAD_WIDTH (toString cursor)) =
      some (cursor : Int) := by
    rw [parseInt10_numeral (List.append_nil _).symm hdigits (fun c hc => by cases hc),
      NumeralLemmas.ofDigitChars_padZeros]
  generalize hfront : ISSUE_EVENT_KEY_PREFIX ++ room ++ "/" = front at hkey
  generalize padZeros ISSUE_CURSOR_PAD_WIDTH (toString cursor) = padded at hdigits hkey hvalue
  have hdash : '-' ∈ (padded ++ ("-" ++ id)).toList := by
    rw [String.toList_append, String.toList_append]
    exact List.mem_append_right _ (List.mem_append_left _ List.mem_cons_self)
  have hne : padded ≠ "" := fun hempty => hdigits.1 (congrArg String.toList hempty)
  have hnot : ¬ ('-' ∉ (padded ++ ("-" ++ id)).toList ∨ padded = "") :=
    not_or.mpr ⟨not_not.mpr hdash, hne⟩
  unfold parseIssueEventCursorFromKey
  simp only [hfront, hkey, startsWith_append, sliceFrom_append, splitFirst_numeral hdigits,
    Bool.true_eq_false, if_false, if_neg hnot, hvalue, Option.bind_eq_bind, Option.bind_some]
  exact if_pos (Int.natCast_pos.mpr hpos)

/-- The keys of a room are ordered like the cursors. -/
theorem eventKey_lt {cursor cursor' : Nat} (h : cursor < cursor')
    (hbelow : cursor' < 10 ^ ISSUE_CURSOR_PAD_WIDTH) (room id id' : String) :
    utf16 (issueEventStorageKey room cursor id) < utf16 (issueEventStorageKey room cursor' id') := by
  rw [eventKey_shape, eventKey_shape]
  exact utf16_padZeros_lt h hbelow _ _ _

/-- The key of another room does not even start like a key of this room: a room name has no
slash, so it ends where the slash behind it stands. -/
theorem parse_eventKey_of_ne {room other : String} (hroom : isValidRoomName room = true)
    (hother : isValidRoomName other = true) (hne : other ≠ room) (cursor : Nat) (id : String) :
    parseIssueEventCursorFromKey room (issueEventStorageKey other cursor id) = none := by
  cases hstart : startsWith (issueEventStorageKey other cursor id)
      (ISSUE_EVENT_KEY_PREFIX ++ room ++ "/") with
  | false => exact if_pos hstart
  | true =>
    obtain ⟨rest, hrest⟩ := exists_of_startsWith hstart
    rw [eventKey_shape] at hrest
    generalize padZeros ISSUE_CURSOR_PAD_WIDTH (toString cursor) ++ ("-" ++ id) = suffix at hrest
    have hbehind : other ++ "/" ++ suffix = room ++ "/" ++ rest := by
      simp only [String.append_assoc] at hrest ⊢
      exact append_right_inj hrest
    exact absurd (slash_inj (slash_notMem_room hother) (slash_notMem_room hroom) hbehind).1 hne

/-! ## All rooms -/

/-- The key of an event encodes its cursor, in its text and in its place among the keys, and a key
of another room is no key of this one. -/
theorem eventKeys_encode_cursors {room : String} (hroom : isValidRoomName room = true) :
    (∀ cursor id, 1 ≤ cursor → cursor < 10 ^ 12 →
      parseIssueEventCursorFromKey room (issueEventStorageKey room cursor id) = some cursor) ∧
    (∀ cursor cursor' id id', 1 ≤ cursor → cursor < cursor' → cursor' < 10 ^ 12 →
      utf16 (issueEventStorageKey room cursor id) <
        utf16 (issueEventStorageKey room cursor' id')) ∧
    (∀ other cursor id, isValidRoomName other = true → other ≠ room →
      parseIssueEventCursorFromKey room (issueEventStorageKey other cursor id) = none) := by
  refine ⟨fun cursor id hpos _ => ?_, fun cursor cursor' id id' _ hlt hbelow => ?_,
    fun other cursor id hother hne => ?_⟩
  · exact parse_eventKey room hpos id
  · exact eventKey_lt hlt hbelow room id id'
  · exact parse_eventKey_of_ne hroom hother hne cursor id

/-- In a room whose name is a prefix of another one, with a dash and a slash in the id. -/
theorem eventKeys_encode_cursors_room :
    parseIssueEventCursorFromKey "room" (issueEventStorageKey "room" 7 "a-b/c") = some 7 ∧
    utf16 (issueEventStorageKey "room" 9 "z") < utf16 (issueEventStorageKey "room" 10 "a") ∧
    parseIssueEventCursorFromKey "room" (issueEventStorageKey "room-1" 7 "a") = none := by
  obtain ⟨hparse, hlt, hother⟩ := eventKeys_encode_cursors
    (show isValidRoomName "room" = true by decide)
  exact ⟨hparse 7 "a-b/c" (by decide) (by decide),
    hlt 9 10 "z" "a" (by decide) (by decide) (by decide),
    hother "room-1" 7 "a" (by decide) (by decide)⟩

end BitRelay
