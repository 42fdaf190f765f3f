import BitRelay.Logs.System
import BitRelay.RoomLogs
import Mathlib.Data.List.Induction

/-!
# Logs are the newest accepted messages

However writers interleave, and whatever snapshots of the service are put back
in between, a room log is a suffix of the messages that were accepted for its
room. It is one up to what `JSON.stringify` keeps of the payloads: a snapshot
writes an infinity as `null`, so after a restore the log is no suffix of the
accepted messages themselves.

An accepted message drops the oldest ones, as many as are over the cap, so
without restores the log is exactly the newest accepted messages.

Results:
1. `follows_run`: the invariant of every run.
2. `newest_run`: the logs of a run without restores.
3. `room_log_suffix`: what holds of a room log in every reachable state.
4. `restored_log_no_suffix`: a payload that does not survive a snapshot.
-/

namespace BitRelay

/-! ## Definitions -/

/-- The newest messages, as many as the cap allows. -/
def newestMessages (maxMessagesPerRoom : Nat) (messages : List Envelope) : List Envelope :=
  messages.drop (messages.length - maxMessagesPerRoom)

/-- A step accepts nothing, or one message, which drops the oldest messages over the cap. -/
def WritingSystem.Grows {C : Type} (sys sys' : WritingSystem C) : Prop :=
  (sys'.history = sys.history ∧ ∀ room, sys'.logOf room = sys.logOf room) ∨
  ∃ e, sys'.history = sys.history ++ [e] ∧
    sys'.logOf e.room = (sys.logOf e.room ++ [e]).drop
      ((sys.logOf e.room).length + 1 - sys.relay.config.maxMessagesPerRoom) ∧
    ∀ room, room ≠ e.room → sys'.logOf room = sys.logOf room

/-- The logs of a service that accepted the messages of `history`. -/
structure LogsFollow {C : Type} (maxMessagesPerRoom : Nat) (history : List Envelope)
    (s : ServiceState C) : Prop where
  log : ∀ room, RoomLog maxMessagesPerRoom room (s.roomOf room).messages
  named : ∀ room, ∀ e ∈ (s.roomOf room).messages, e.Named
  suffix : ∀ room, (s.roomOf room).messages.map Envelope.stored <:+
    (history.filter fun e => e.room = room).map Envelope.stored

section
variable {C : Type} {A : Archive C} {R : Relay C} {s s' : ServiceState C} {w : Write}
  {history : List Envelope} {maxMessagesPerRoom : Nat}

/-! ## One step -/

namespace SuffixLemmas

theorem stored_stored (e : Envelope) : e.stored.stored = e.stored :=
  congrArg (fun payload => { e with payload }) (JsonValue.normalize_normalize e.payload)

theorem suffix_concat {α : Type} {log history : List α} (h : log <:+ history) (x : α) :
    log ++ [x] <:+ history ++ [x] := by
  obtain ⟨front, rfl⟩ := h
  exact ⟨front, (List.append_assoc _ _ _).symm⟩

/-- The newest messages of a longer history. -/
theorem pushMessage_newest (messages : List Envelope) (e : Envelope) (maxMessagesPerRoom : Nat) :
    pushMessage (newestMessages maxMessagesPerRoom messages) e maxMessagesPerRoom =
      newestMessages maxMessagesPerRoom (messages ++ [e]) := by
  unfold pushMessage newestMessages
  simp only [List.length_append, List.length_drop, List.length_cons, List.length_nil]
  rw [← List.drop_append_of_le_length (Nat.sub_le _ _), List.drop_drop]
  congr 1
  omega

theorem named_of_relayWrite (hw : RelayWrite R w) (htopic : isValidTopic w.topic = true) :
    w.envelope.Named := by
  have htext := (RecordLemmas.freeText_topic htopic).1
  rcases hw with hlocal | ⟨value, incoming, hpushed⟩
  · exact ⟨hlocal.id.1, hlocal.sender.1, htext⟩
  · have hsound := RecordLemmas.sound_of_pushed hpushed
    exact ⟨hsound.id.1, hsound.sender.1, htext⟩

theorem filter_concat_self (history : List Envelope) (e : Envelope) :
    ((history ++ [e]).filter fun m => m.room = e.room) =
      (history.filter fun m => m.room = e.room) ++ [e] := by
  rw [List.filter_append, List.filter_cons_of_pos (by simp), List.filter_nil]

theorem filter_concat_of_ne (history : List Envelope) {e : Envelope} {room : String}
    (h : e.room ≠ room) :
    ((history ++ [e]).filter fun m => m.room = room) =
      history.filter fun m => m.room = room := by
  rw [List.filter_append, List.filter_cons_of_neg (by simpa using h), List.filter_nil,
    List.append_nil]

end SuffixLemmas

open SuffixLemmas

theorem LogsFollow.sameLog (h : LogsFollow maxMessagesPerRoom history s) (hsame : SameLog s s') :
    LogsFollow maxMessagesPerRoom history s' := by
  refine ⟨fun room => ?_, fun room => ?_, fun room => ?_⟩
  · rw [hsame.messages]
    exact h.log room
  · rw [hsame.messages]
    exact h.named room
  · rw [hsame.messages]
    exact h.suffix room

theorem LogsFollow.appended (h : LogsFollow R.config.maxMessagesPerRoom history s)
    (hw : RelayWrite R w) (happended : Appended R w s s') :
    LogsFollow R.config.maxMessagesPerRoom (history ++ [w.envelope]) s' := by
  have hnamed := named_of_relayWrite hw happended.topic
  refine ⟨fun room => ?_, fun room e he => ?_, fun room => ?_⟩
  · by_cases hroom : room = w.room
    · subst hroom
      rw [happended.messages]
      exact (h.log w.room).push (fun m hm hid => happended.fresh ⟨m, hm, hid⟩) rfl happended.topic
    · rw [happended.others room hroom]
      exact h.log room
  · by_cases hroom : room = w.room
    · subst hroom
      rw [happended.messages] at he
      rcases List.mem_append.mp (List.mem_of_mem_drop he) with hold | hnew
      · exact h.named w.room e hold
      · rw [List.mem_singleton.mp hnew]
        exact hnamed
    · rw [happended.others room hroom] at he
      exact h.named room e he
  · by_cases hroom : room = w.room
    · subst hroom
      have hhistory := filter_concat_self history w.envelope
      change ((history ++ [w.envelope]).filter fun m => m.room = w.room) = _ at hhistory
      rw [happended.messages, hhistory, List.map_append]
      have hdrop := (List.drop_suffix ((s.roomOf w.room).messages.length + 1 -
        R.config.maxMessagesPerRoom) ((s.roomOf w.room).messages ++ [w.envelope])).map
          Envelope.stored
      unfold pushMessage
      simp only [List.length_append, List.length_cons, List.length_nil]
      refine hdrop.trans ?_
      rw [List.map_append]
      exact suffix_concat (h.suffix w.room) _
    · rw [happended.others room hroom, filter_concat_of_ne history (Ne.symm hroom)]
      exact h.suffix room

/-- A restore brings back the newest messages of the logs. -/
theorem LogsFollow.restore (h : LogsFollow maxMessagesPerRoom history s) (nowMs : Nat)
    (t : ServiceState C) :
    LogsFollow R.config.maxMessagesPerRoom history (t.restore R A nowMs (s.snapshot A)) := by
  have hrestored : ∀ room, (((t.restore R A nowMs (s.snapshot A)).roomOf room).messages = [] ∨
      ((t.restore R A nowMs (s.snapshot A)).roomOf room).messages =
        ((s.roomOf room).messages.map Envelope.stored).drop
          ((s.roomOf room).messages.length - R.config.maxMessagesPerRoom)) := by
    intro room
    cases hroom : isValidRoomName room with
    | false =>
      rw [roomOf_restore_of_invalid hroom]
      exact .inl rfl
    | true =>
      rw [roomOf_restore hroom (h.named room)]
      exact .inr rfl
  refine ⟨fun room => ?_, fun room e he => ?_, fun room => ?_⟩
  · rcases hrestored room with hnone | hnewest
    · rw [hnone]
      exact RoomLog.empty _ room
    · have hids : ((s.roomOf room).messages.map Envelope.stored).map Envelope.id =
          (s.roomOf room).messages.map Envelope.id := by
        rw [List.map_map]
        rfl
      rw [hnewest, ← List.length_map (f := Envelope.stored)]
      refine RoomLog.newest (hids ▸ (h.log room).distinct) (fun e he => ?_) fun e he => ?_
      · obtain ⟨m, hm, rfl⟩ := List.mem_map.mp he
        exact (h.log room).labelled m hm
      · obtain ⟨m, hm, rfl⟩ := List.mem_map.mp he
        exact (h.log room).topics m hm
  · rcases hrestored room with hnone | hnewest
    · rw [hnone] at he
      exact absurd he List.not_mem_nil
    · rw [hnewest] at he
      obtain ⟨m, hm, rfl⟩ := List.mem_map.mp (List.mem_of_mem_drop he)
      exact ⟨(h.named room m hm).id, (h.named room m hm).sender, (h.named room m hm).topic⟩
  · rcases hrestored room with hnone | hnewest
    · rw [hnone]
      exact List.nil_suffix
    · have hstored : ((s.roomOf room).messages.map Envelope.stored).map Envelope.stored =
          (s.roomOf room).messages.map Envelope.stored := by
        rw [List.map_map]
        exact List.map_congr_left fun e _ => stored_stored e
      rw [hnewest, List.map_drop, hstored]
      exact (List.drop_suffix _ _).trans (h.suffix room)

/-! ## Runs -/

namespace WritingSystem

/-- The logs follow the history, and the snapshots were taken of such services. -/
def Follows (A : Archive C) (sys : WritingSystem C) : Prop :=
  LogsFollow sys.relay.config.maxMessagesPerRoom sys.history sys.service ∧
  ∀ snapshot ∈ sys.taken, ∃ s maxMessagesPerRoom, snapshot.value = s.snapshot A ∧
    LogsFollow maxMessagesPerRoom snapshot.history s

end WritingSystem

open WritingSystem

namespace SuffixLemmas

theorem follows_turn {event : WritingEvent C} {sys sys' : WritingSystem C}
    (hturn : Turn A event sys sys') (h : sys.Follows A) : sys'.Follows A := by
  obtain ⟨hlogs, htaken⟩ := h
  cases hturn with
  | segment accepted relay taken history hsegment =>
    unfold Follows
    rw [relay, taken, history]
    refine ⟨?_, htaken⟩
    cases hsegment with
    | quiet hsame =>
      rw [Option.toList_none, List.append_nil]
      exact hlogs.sameLog hsame
    | accepts w hw happended => exact hlogs.appended hw happended
  | snapshot relay service history taken =>
    unfold Follows
    rw [relay, service, history, taken]
    refine ⟨hlogs, fun snapshot hmem => ?_⟩
    rcases List.mem_append.mp hmem with hold | hnew
    · exact htaken snapshot hold
    · rw [List.mem_singleton.mp hnew]
      exact ⟨sys.service, _, rfl, hlogs⟩
  | restored hrestores snapshot hmem nowMs before taken service history =>
    obtain ⟨s, maxMessagesPerRoom, hvalue, hfollow⟩ := htaken snapshot hmem
    unfold Follows
    rw [service, history, taken, hvalue]
    exact ⟨hfollow.restore nowMs before, htaken⟩

/-- What a step other than a restore does to the logs. -/
theorem grows_turn {event : WritingEvent C} {sys sys' : WritingSystem C}
    (hturn : Turn A event sys sys') (hevent : event.restores = false) : sys.Grows sys' := by
  cases hturn with
  | segment accepted relay taken history hsegment =>
    cases hsegment with
    | quiet hsame =>
      refine .inl ⟨?_, fun room => hsame.messages room⟩
      rw [history, Option.toList_none, List.append_nil]
    | accepts w hw happended =>
      refine .inr ⟨w.envelope, history, ?_, fun room hroom => happended.others room hroom⟩
      exact happended.messages.trans (by
        unfold pushMessage
        simp only [List.length_append, List.length_cons, List.length_nil]
        rfl)
  | snapshot relay service history taken =>
    refine .inl ⟨history, fun room => ?_⟩
    unfold logOf
    rw [service]
  | restored hrestores snapshot hmem nowMs before taken service history =>
    rw [hevent] at hrestores
    cases hrestores

/-- A message that drops what is over the cap keeps the log the newest messages. -/
theorem newest_of_grows {sys sys' : WritingSystem C} (hgrows : sys.Grows sys')
    (h : ∀ room, sys.logOf room =
      newestMessages sys.relay.config.maxMessagesPerRoom (sys.historyOf room)) (room : String) :
    sys'.logOf room = newestMessages sys.relay.config.maxMessagesPerRoom (sys'.historyOf room) := by
  rcases hgrows with ⟨hhistory, hlogs⟩ | ⟨e, hhistory, hlog, hothers⟩
  · unfold historyOf
    rw [hlogs, hhistory]
    exact h room
  · by_cases hroom : room = e.room
    · subst hroom
      have hpush : sys'.logOf e.room =
          pushMessage (sys.logOf e.room) e sys.relay.config.maxMessagesPerRoom := by
        rw [hlog]
        unfold pushMessage
        simp only [List.length_append, List.length_cons, List.length_nil]
      unfold historyOf
      rw [hpush, h, hhistory, filter_concat_self, pushMessage_newest]
      rfl
    · unfold historyOf
      rw [hothers room hroom, h, hhistory, filter_concat_of_ne sys.history (Ne.symm hroom)]
      rfl

theorem relay_step {sys : WritingSystem C} {event : WritingEvent C} (hproper : sys.ProperTasks)
    (hevent : event.restores = false) : (sys.step A event).relay = sys.relay := by
  cases turn_step (A := A) event hproper with
  | segment accepted relay => exact relay
  | snapshot relay => exact relay
  | restored hrestores =>
    rw [hevent] at hrestores
    cases hrestores

end SuffixLemmas

theorem follows_run (cache : C) (events : List (WritingEvent C)) :
    (after A R cache events).Follows A := by
  refine run_of_turns (fun event sys sys' hturn => follows_turn hturn) ⟨⟨fun room => ?_,
    fun room e he => ?_, fun room => ?_⟩, fun snapshot hmem => ?_⟩ events
  · exact RoomLog.empty _ room
  · exact absurd he List.not_mem_nil
  · exact List.nil_suffix
  · exact absurd hmem List.not_mem_nil

/-- Without restores a log is the newest accepted messages of its room. -/
theorem newest_run (cache : C) (events : List (WritingEvent C))
    (hevents : ∀ event ∈ events, event.restores = false) (room : String) :
    (after A R cache events).logOf room =
      newestMessages R.config.maxMessagesPerRoom ((after A R cache events).historyOf room) := by
  have hrun : (after A R cache events).relay = R ∧ ∀ room, (after A R cache events).logOf room =
      newestMessages R.config.maxMessagesPerRoom ((after A R cache events).historyOf room) := by
    induction events using List.reverseRecOn with
    | nil => exact ⟨rfl, fun room => (List.drop_nil (i := _)).symm⟩
    | append_singleton events event ih =>
      obtain ⟨hrelay, hlogs⟩ := ih fun e he => hevents e (List.mem_append_left _ he)
      have hevent := hevents event (List.mem_append_right _ List.mem_cons_self)
      have hproper := properTasks_run (A := A) R cache events
      rw [after_concat]
      refine ⟨(relay_step hproper hevent).trans hrelay, ?_⟩
      have hnewest := newest_of_grows (grows_turn (turn_step (A := A) event hproper) hevent)
        (by rw [hrelay]; exact hlogs)
      rw [hrelay] at hnewest
      exact hnewest
  exact hrun.2 room

/-- In every reachable state the log of a room is, up to what a snapshot keeps of the payloads, a
suffix of the messages that were accepted for it. It is within the cap of the service, its ids are
distinct, its messages are labelled with the room and their topics are valid. An accepted message
drops the oldest ones over the cap only. -/
theorem room_log_suffix (A : Archive C) (R : Relay C) (cache : C) (events : List (WritingEvent C))
    (room : String) :
    ((after A R cache events).logOf room).map Envelope.stored <:+
        ((after A R cache events).historyOf room).map Envelope.stored ∧
      RoomLog (after A R cache events).relay.config.maxMessagesPerRoom room
        ((after A R cache events).logOf room) ∧
      (∀ event : WritingEvent C, event.restores = false →
        (after A R cache events).Grows ((after A R cache events).step A event)) ∧
      ((∀ event ∈ events, event.restores = false) → (after A R cache events).logOf room =
        newestMessages R.config.maxMessagesPerRoom ((after A R cache events).historyOf room)) := by
  obtain ⟨hlogs, -⟩ := follows_run (A := A) (R := R) cache events
  refine ⟨hlogs.suffix room, hlogs.log room, fun event hevent => ?_,
    fun hevents => newest_run cache events hevents room⟩
  exact grows_turn (turn_step event (properTasks_run R cache events)) hevent

end

/-! ## On the toy host -/

/-- A pushed message whose payload is `1e999`, a snapshot, and its restore. -/
def toyRestore : List (WritingEvent Unit) := [
  .arrive ⟨⟨toyPush [.obj [
    ("room", .str "main"), ("id", .str "m1"), ("sender", .str "alice"), ("topic", .str "notify"),
    ("payload", .num .posInf), ("origin", .str "relay-b"), ("hop_count", .ofNat 1)]], .at 0⟩,
    freeText_uuid⟩,
  .resume 0 ⟨.at 0, freeText_uuid⟩,
  .snapshot,
  .restore 0 0]

/-- After the restore the payload is `null`: the log is no suffix of the accepted messages. -/
theorem restored_log_no_suffix :
    ¬ ((WritingSystem.after .toy (.toy .default) () toyRestore).logOf "main" <:+
      (WritingSystem.after .toy (.toy .default) () toyRestore).historyOf "main") := by
  decide +kernel

end BitRelay
