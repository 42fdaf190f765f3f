import BitRelay.Lib.CappedLog
import BitRelay.Lib.Run
import BitRelay.Room

/-!
# Resuming a poll

A consumer polls one room, starts at `after=0`, and passes the `next_cursor` of
each poll as the `after` of the next one. Messages are numbered in the order of
their acceptance. The cursor is a position in the log; when the log is full, a
publish drops the oldest message and moves the others under the cursor.

Results:
1. `poll_genuine`: a poll returns the accepted messages under its numbers.
2. `lossless_iff`: the numbers grow, and a poll below its limit has seen every
   retained message, if and only if no such poll comes after a publish that
   dropped a message while the cursor was positive.
-/

namespace BitRelay

section
variable (room : String) (maxMessagesPerRoom : Nat)

/-! ## Runs -/

/-- One poll of the consumer. -/
structure Poll where
  after : Nat
  limit : Nat
  envelopes : List Envelope
  /-- the numbers of the envelopes -/
  numbers : List Nat
  /-- the numbers of the messages in the log -/
  retained : List Nat
  /-- the numbers returned by this or an earlier poll -/
  returned : List Nat
  /-- an earlier publish dropped a message while the cursor was positive -/
  skipped : Bool

/-- A room and its consumer, with all messages accepted so far. -/
structure Feed where
  roomState : RoomState
  accepted : List Envelope
  cursor : Nat
  returned : List Nat
  skipped : Bool
  polls : List Poll

inductive FeedEvent
  | publish (sender topic id signature : String) (payload : JsonValue)
  | poll (limit : Nat)

namespace Feed

def init : Feed := ⟨createRoomState, [], 0, [], false, []⟩

/-- The number of the oldest message in the log. -/
def first (feed : Feed) : Nat := feed.accepted.length - feed.roomState.messages.length

/-- The next message drops one, and the cursor is positive. -/
def wouldSkip (feed : Feed) : Bool :=
  decide (maxMessagesPerRoom ≤ feed.roomState.messages.length) && decide (0 < feed.cursor)

def publish (sender topic id signature : String) (payload : JsonValue) (feed : Feed) : Feed :=
  match publishIntoRoom feed.roomState room sender topic id signature payload
    maxMessagesPerRoom with
  | (.accepted envelope _, roomState) =>
    { feed with
      roomState
      accepted := feed.accepted ++ [envelope]
      skipped := feed.skipped || feed.wouldSkip maxMessagesPerRoom }
  | (.known _, roomState) => { feed with roomState }
  | (.invalidTopic _, roomState) => { feed with roomState }

/-- `pollFromRoom` at the consumer's cursor; its `next_cursor` is the next cursor. -/
def poll (limit : Nat) (feed : Feed) : Feed :=
  let envelopes := pollPage feed.roomState.messages feed.cursor limit
  let numbers := List.range' (feed.first + feed.cursor) envelopes.length
  let returned := feed.returned ++ numbers
  let retained := List.range' feed.first feed.roomState.messages.length
  { feed with
    cursor := feed.cursor + envelopes.length
    returned
    polls := feed.polls ++ [{ after := feed.cursor, limit, envelopes, numbers, retained, returned
                              skipped := feed.skipped }] }

def step (feed : Feed) : FeedEvent → Feed
  | .publish sender topic id signature payload =>
    feed.publish room maxMessagesPerRoom sender topic id signature payload
  | .poll limit => feed.poll limit

end Feed

/-- The feed after a run from the empty room. -/
def feedAfter (events : List FeedEvent) : Feed :=
  runFrom (Feed.step room maxMessagesPerRoom) .init events

/-- The polls return no message twice and keep the order of acceptance, and a poll below its limit
leaves no retained message unreturned. -/
def Lossless (feed : Feed) : Prop :=
  feed.returned.Pairwise (· < ·) ∧
  ∀ p ∈ feed.polls, p.envelopes.length < p.limit → ∀ i ∈ p.retained, i ∈ p.returned

instance (feed : Feed) : Decidable (Lossless feed) :=
  inferInstanceAs (Decidable (_ ∧ _))

/-- After a publish that dropped a message while the cursor was positive, every poll finds at
least `limit` messages past its cursor. -/
def NoShortPollAfterSkip (feed : Feed) : Prop :=
  ∀ p ∈ feed.polls, p.skipped = true → p.after + p.limit ≤ p.retained.length

instance (feed : Feed) : Decidable (NoShortPollAfterSkip feed) :=
  inferInstanceAs (Decidable (∀ p ∈ feed.polls, _))

/-! ## The feed as a reader of a capped log -/

namespace Feed

def reader (feed : Feed) : LogReader where
  first := feed.first
  next := feed.accepted.length
  cursor := feed.cursor
  returned := feed.returned
  skipped := feed.skipped

end Feed

/-- What is known of a poll: its envelopes are those of its numbers, their count is set by its
cursor and its limit, and below its limit it is complete unless a message was skipped before. -/
structure PollFacts (accepted : List Envelope) (p : Poll) : Prop where
  genuine : p.envelopes.map some = p.numbers.map fun i => accepted[i]?
  after_le : p.after ≤ p.retained.length
  count : p.envelopes.length = min p.limit (p.retained.length - p.after)
  complete : p.envelopes.length < p.limit →
    ((∀ i ∈ p.retained, i ∈ p.returned) ↔ p.skipped = false)

structure FeedInvariant (feed : Feed) : Prop where
  messages : feed.roomState.messages = feed.accepted.drop feed.first
  reader : feed.reader.Invariant maxMessagesPerRoom
  polls : ∀ p ∈ feed.polls, PollFacts feed.accepted p

variable {room maxMessagesPerRoom}

namespace PollLemmas

theorem length_le {feed : Feed} (h : feed.roomState.messages = feed.accepted.drop feed.first) :
    feed.roomState.messages.length ≤ feed.accepted.length := by
  rw [h, List.length_drop]
  exact Nat.sub_le _ _

theorem size_reader {feed : Feed} (h : feed.roomState.messages = feed.accepted.drop feed.first) :
    feed.reader.size = feed.roomState.messages.length := by
  have hle := length_le h
  simp only [Feed.reader, LogReader.size, Feed.first]
  omega

/-- Later messages do not change what an earlier poll returned. -/
theorem facts_append {accepted : List Envelope} {p : Poll} (h : PollFacts accepted p)
    (envelope : Envelope) : PollFacts (accepted ++ [envelope]) p := by
  refine ⟨?_, h.after_le, h.count, h.complete⟩
  rw [h.genuine]
  refine List.map_congr_left fun i hi => ?_
  have hmem : accepted[i]? ∈ p.envelopes.map some := by
    rw [h.genuine]
    exact List.mem_map_of_mem hi
  obtain ⟨e, -, he⟩ := List.mem_map.mp hmem
  rw [← he, List.getElem?_append_left (List.getElem?_eq_some_iff.mp he.symm).1, he]

/-- The entries of a list under consecutive numbers. -/
theorem map_getElem?_range' (l : List Envelope) (a k : Nat) :
    ((l.drop a).take k).map some =
      (List.range' a ((l.drop a).take k).length).map fun i => l[i]? := by
  apply List.ext_getElem
  · simp
  · intro i h1 h2
    have hi : a + i < l.length := by
      simp only [List.length_map, List.length_take, List.length_drop] at h1
      omega
    simp [List.getElem?_eq_getElem hi]

end PollLemmas

open PollLemmas

/-! ## One step -/

section Step
variable {feed : Feed} (hI : FeedInvariant maxMessagesPerRoom feed)
include hI

/-- An accepted message is appended to the capped log. -/
theorem FeedInvariant.accept (hmax : 1 ≤ maxMessagesPerRoom) (envelope : Envelope) :
    FeedInvariant maxMessagesPerRoom { feed with
      roomState := { feed.roomState with
        messages := pushMessage feed.roomState.messages envelope maxMessagesPerRoom }
      accepted := feed.accepted ++ [envelope]
      skipped := feed.skipped || feed.wouldSkip maxMessagesPerRoom } := by
  have hle := length_le hI.messages
  have hsize := size_reader hI.messages
  have hcap : feed.roomState.messages.length ≤ maxMessagesPerRoom :=
    hsize ▸ hI.reader.size_le
  have hlength : (pushMessage feed.roomState.messages envelope maxMessagesPerRoom).length =
      min (feed.roomState.messages.length + 1) maxMessagesPerRoom := by
    simp only [pushMessage, List.length_drop, List.length_append, List.length_singleton]
    omega
  refine ⟨?_, ?_, fun p hp => facts_append (hI.polls p hp) envelope⟩
  · simp only [Feed.first, hlength, List.length_append, List.length_singleton]
    rw [pushMessage, hI.messages]
    simp only [List.length_append, List.length_drop, List.length_singleton, Feed.first]
    rw [← List.drop_append_of_le_length (by omega), List.drop_drop]
    congr 1
    omega
  · have hpush := hI.reader.push hmax
    unfold LogReader.push at hpush
    rw [hsize] at hpush
    simp only [Feed.reader, Feed.first, Feed.wouldSkip, hlength, List.length_append,
      List.length_singleton] at hpush ⊢
    by_cases hroom : feed.roomState.messages.length < maxMessagesPerRoom
    · rw [if_pos hroom] at hpush
      rw [decide_eq_false (Nat.not_le.mpr hroom), Bool.false_and, Bool.or_false,
        Nat.min_eq_left hroom, Nat.add_sub_add_right]
      exact hpush
    · rw [if_neg hroom] at hpush
      rw [decide_eq_true (Nat.not_lt.mp hroom), Bool.true_and]
      rw [show feed.accepted.length + 1 - min (feed.roomState.messages.length + 1)
        maxMessagesPerRoom = feed.accepted.length - feed.roomState.messages.length + 1 by omega]
      exact hpush

theorem FeedInvariant.publish (hmax : 1 ≤ maxMessagesPerRoom) (sender topic id signature : String)
    (payload : JsonValue) : FeedInvariant maxMessagesPerRoom
      (feed.publish room maxMessagesPerRoom sender topic id signature payload) := by
  unfold Feed.publish
  rcases publishIntoRoom_cases feed.roomState room sender topic id signature payload
    maxMessagesPerRoom with ⟨-, h⟩ | ⟨-, -, h⟩ | ⟨-, -, h⟩
  · rw [h]
    exact hI
  · rw [h]
    exact hI
  · rw [h]
    exact hI.accept hmax _

theorem FeedInvariant.poll (limit : Nat) :
    FeedInvariant maxMessagesPerRoom (feed.poll limit) := by
  have hsize := size_reader hI.messages
  have hcount : (pollPage feed.roomState.messages feed.cursor limit).length =
      feed.reader.count limit := by
    rw [LogReader.count, hsize]
    simp [pollPage, Feed.reader]
  refine ⟨hI.messages, ?_, fun p hp => ?_⟩
  · have hread := hI.reader.read limit
    unfold LogReader.read at hread
    rw [← hcount] at hread
    exact hread
  · rcases List.mem_append.mp hp with hold | hnew
    · exact hI.polls p hold
    · rw [List.mem_singleton.mp hnew]
      refine ⟨?_, ?_, ?_, fun hshort => ?_⟩
      · simp only [pollPage, hI.messages, List.drop_drop]
        exact map_getElem?_range' _ _ _
      · have hcursor := hI.reader.cursor_le
        rw [hsize] at hcursor
        rw [List.length_range']
        exact hcursor
      · simp [pollPage]
      · have hle := length_le hI.messages
        have hend : feed.first + feed.roomState.messages.length = feed.accepted.length := by
          unfold Feed.first
          omega
        have hreturned : (feed.reader.read limit).returned = feed.returned ++
            List.range' (feed.first + feed.cursor)
              (pollPage feed.roomState.messages feed.cursor limit).length := by
          rw [LogReader.read, ← hcount]
          rfl
        have hiff := LogReader.read_short_iff hI.reader (hcount ▸ hshort)
        unfold LogReader.Complete at hiff
        rw [hreturned] at hiff
        refine Iff.trans ?_ hiff
        simp only [List.mem_range'_1, hend]
        exact ⟨fun h i hi hlt => h i ⟨hi, hlt⟩, fun h i hi => h i hi.1 hi.2⟩

end Step

/-! ## All runs -/

theorem feedInvariant (room : String) (hmax : 1 ≤ maxMessagesPerRoom) (events : List FeedEvent) :
    FeedInvariant maxMessagesPerRoom (feedAfter room maxMessagesPerRoom events) := by
  refine runFrom_invariant (fun feed event hI => ?_) events ?_
  · cases event with
    | publish sender topic id signature payload =>
      exact hI.publish hmax sender topic id signature payload
    | poll limit => exact hI.poll limit
  · exact ⟨rfl, LogReader.Invariant.init, fun _ h => absurd h List.not_mem_nil⟩

/-- A poll returns exactly the accepted messages under its numbers. -/
theorem poll_genuine (hmax : 1 ≤ maxMessagesPerRoom) (events : List FeedEvent) :
    ∀ p ∈ (feedAfter room maxMessagesPerRoom events).polls, p.envelopes.map some =
      p.numbers.map fun i => (feedAfter room maxMessagesPerRoom events).accepted[i]? :=
  fun p hp => ((feedInvariant room hmax events).polls p hp).genuine

/-- The polls of a consumer lose and repeat nothing if and only if no short poll comes after a
publish that dropped a message while the cursor was positive. -/
theorem lossless_iff (hmax : 1 ≤ maxMessagesPerRoom) (events : List FeedEvent) :
    Lossless (feedAfter room maxMessagesPerRoom events) ↔
      NoShortPollAfterSkip (feedAfter room maxMessagesPerRoom events) := by
  have hI := feedInvariant room hmax events
  constructor
  · rintro ⟨-, hcomplete⟩ p hp hskipped
    have hfacts := hI.polls p hp
    by_contra hshort
    have hlt : p.envelopes.length < p.limit := by
      have := hfacts.count
      have := hfacts.after_le
      omega
    rw [(hfacts.complete hlt).mp (hcomplete p hp hlt)] at hskipped
    cases hskipped
  · intro hcond
    refine ⟨hI.reader.ordered, fun p hp hlt => ?_⟩
    have hfacts := hI.polls p hp
    refine (hfacts.complete hlt).mpr ?_
    by_contra hskipped
    have hroom := hcond p hp (by simpa using hskipped)
    have := hfacts.count
    omega

end

/-! ## Small rooms -/

/-- A publish of `alice`. -/
def aliceMessage (id : String) : FeedEvent := .publish "alice" "notify" id "" .null

/-- In a log of two messages the consumer keeps up. -/
theorem lossless_iff_two :
    Lossless (feedAfter "main" 2 [aliceMessage "m1", .poll 5, aliceMessage "m2", .poll 5]) ↔
      NoShortPollAfterSkip
        (feedAfter "main" 2 [aliceMessage "m1", .poll 5, aliceMessage "m2", .poll 5]) :=
  lossless_iff (by decide) [aliceMessage "m1", .poll 5, aliceMessage "m2", .poll 5]

/-- In a log of one message the second message takes the place of the first, which the cursor is
past: the second poll returns nothing. -/
theorem second_message_lost :
    ¬ Lossless (feedAfter "main" 1 [aliceMessage "m1", .poll 5, aliceMessage "m2", .poll 5]) := by
  decide

end BitRelay
