import BitRelay.Logs.Suffix
import BitRelay.Snapshot.HandEdited

/-!
# Room logs and exchange records

An accepted message goes to the end of its room log and of the exchange records, and either may
drop its oldest entries. So the log of a room and the records of the room are one a suffix of the
other, however writers interleave; a restore cuts and normalises both in the same way. As long as
neither cap is exceeded, both hold every message that was accepted.

A snapshot has no records only if nothing was accepted, so a restore that rebuilds the records from
the rooms finds no message.

Results:
1. `agrees_run`: the invariant of every run.
2. `complete_run`: the runs in which no cap is exceeded.
3. `log_exchange_agree`: what holds of a room log and its records in every reachable state.
-/

namespace BitRelay

/-! ## Definitions -/

/-- One of the lists is a suffix of the other. -/
def SuffixComparable {α : Type} (l l' : List α) : Prop := l <:+ l' ∨ l' <:+ l

/-- What `restore` asks of a record. -/
structure CacheExchangeRecord.Restorable (record : CacheExchangeRecord) : Prop where
  room : isValidRoomName record.envelope.room = true
  topic : isValidTopic record.envelope.topic = true
  id : record.envelope.id ≠ ""
  sender : record.envelope.sender ≠ ""
  origin : FreeText record.origin

/-- The envelopes of the records of a room, in cursor order. -/
def ServiceState.recordedOf {C : Type} (s : ServiceState C) (room : String) : List Envelope :=
  (s.cacheExchangeRecords.map CacheExchangeRecord.envelope).filter fun e => e.room = room

/-- The logs and the records of a service that accepted the messages of `history`. -/
structure LogsAgree {C : Type} (history : List Envelope) (s : ServiceState C) : Prop where
  exchange : ExchangeLog s.cacheExchangeRecords s.cacheExchangeCursor
  restorable : ∀ record ∈ s.cacheExchangeRecords, record.Restorable
  named : ∀ room, ∀ e ∈ (s.roomOf room).messages, e.Named
  agree : ∀ room, SuffixComparable (s.recordedOf room) (s.roomOf room).messages
  suffix : (s.cacheExchangeRecords.map fun record => record.envelope.stored) <:+
    history.map Envelope.stored
  counted : s.cacheExchangeCursor = 0 → ∀ room, (s.roomOf room).messages = []

/-- The logs and the records hold every message that was accepted. -/
structure LogsComplete {C : Type} (history : List Envelope) (s : ServiceState C) : Prop where
  log : ∀ room, (s.roomOf room).messages.map Envelope.stored =
    (history.filter fun e => e.room = room).map Envelope.stored
  records : (s.cacheExchangeRecords.map fun record => record.envelope.stored) =
    history.map Envelope.stored

/-- A fresh service has a normalised node id. -/
def WritingEvent.Normalised {C : Type} : WritingEvent C → Prop
  | restart relay _ _ _ => isValidNodeId relay.config.relayNodeId = true
  | arrive _ | resume _ _ | snapshot | restore _ _ => True

namespace WritingSystem

variable {C : Type}

def recordedOf (sys : WritingSystem C) (room : String) : List Envelope :=
  sys.service.recordedOf room

/-- No cap is exceeded. -/
def WithinCaps (sys : WritingSystem C) : Prop :=
  sys.history.length ≤ sys.relay.config.cacheExchangeMaxRecords ∧
  ∀ room, (sys.historyOf room).length ≤ sys.relay.config.maxMessagesPerRoom

end WritingSystem

section
variable {C : Type} {A : Archive C} {R : Relay C} {s s' : ServiceState C} {w : Write}
  {history : List Envelope}

namespace ExchangeRecordLemmas

open SuffixLemmas RestoreLemmas HandEditedLemmas

/-! ## Suffixes -/

section
variable {α β : Type} {l l' m m' : List α}

/-- Suffixes of comparable lists are comparable. -/
theorem comparable_of_suffix (h : SuffixComparable l l') (hm : m <:+ l) (hm' : m' <:+ l') :
    SuffixComparable m m' := by
  rcases h with h | h
  · exact List.suffix_or_suffix_of_suffix (hm.trans h) hm'
  · exact List.suffix_or_suffix_of_suffix hm (hm'.trans h)

theorem comparable_append (h : SuffixComparable l l') (x : List α) :
    SuffixComparable (l ++ x) (l' ++ x) := by
  rcases h with ⟨front, rfl⟩ | ⟨front, rfl⟩
  · exact .inl ⟨front, (List.append_assoc _ _ _).symm⟩
  · exact .inr ⟨front, (List.append_assoc _ _ _).symm⟩

theorem comparable_map (h : SuffixComparable l l') (f : α → β) :
    SuffixComparable (l.map f) (l'.map f) := h.imp (fun h => h.map f) fun h => h.map f

theorem eq_of_comparable (h : SuffixComparable l l') (hlength : l.length = l'.length) : l = l' := by
  rcases h with h | h
  · exact h.eq_of_length hlength
  · exact (h.eq_of_length hlength.symm).symm

end

/-! ## One step -/

theorem restorable_record (hw : RelayWrite R w) (hnode : isValidNodeId R.config.relayNodeId = true)
    (htopic : isValidTopic w.topic = true) (cursor : Nat) : (w.record cursor).Restorable := by
  have hnamed := named_of_relayWrite hw htopic
  rcases hw with hlocal | ⟨value, incoming, hpushed⟩
  · have horigin : FreeText w.origin := by
      rw [hlocal.origin]
      exact (trimmed_of_isValidRoomName hnode).symm
    exact ⟨hlocal.room, htopic, hnamed.id, hnamed.sender, horigin⟩
  · have hsound := RecordLemmas.sound_of_pushed hpushed
    exact ⟨hsound.room, htopic, hnamed.id, hnamed.sender, hsound.origin⟩

theorem agrees_init (cache : C) : LogsAgree [] (ServiceState.init cache) where
  exchange := ⟨⟨List.Pairwise.nil, fun _ h => absurd h List.not_mem_nil⟩,
    fun _ h => absurd h List.not_mem_nil⟩
  restorable _ h := absurd h List.not_mem_nil
  named _ _ h := absurd h List.not_mem_nil
  agree _ := .inl List.suffix_rfl
  suffix := List.nil_suffix
  counted _ _ := rfl

theorem agrees_sameLog (h : LogsAgree history s) (hsame : SameLog s s') : LogsAgree history s' := by
  have hrecorded : ∀ room, s'.recordedOf room = s.recordedOf room := fun room => by
    rw [ServiceState.recordedOf, hsame.records]
    rfl
  refine ⟨?_, ?_, fun room => ?_, fun room => ?_, ?_, fun hzero room => ?_⟩
  · rw [hsame.records, hsame.cursor]
    exact h.exchange
  · rw [hsame.records]
    exact h.restorable
  · rw [hsame.messages]
    exact h.named room
  · rw [hsame.messages, hrecorded]
    exact h.agree room
  · rw [hsame.records]
    exact h.suffix
  · rw [hsame.messages]
    exact h.counted (hsame.cursor ▸ hzero) room

/-- What an accepted message adds to the records and to the log of a room, before they are cut. -/
theorem recordedOf_appended (happended : Appended R w s s') (room : String) :
    s'.recordedOf room <:+ s.recordedOf room ++ (if w.room = room then [w.envelope] else []) ∧
    (s'.roomOf room).messages <:+
      (s.roomOf room).messages ++ (if w.room = room then [w.envelope] else []) := by
  constructor
  · have hdrop := ((List.drop_suffix (s.cacheExchangeRecords.length + 1 -
      R.config.cacheExchangeMaxRecords) (s.cacheExchangeRecords ++
        [w.record (s.cacheExchangeCursor + 1)])).map CacheExchangeRecord.envelope).filter
          fun e => decide (e.room = room)
    rw [List.map_append, List.filter_append] at hdrop
    rw [ServiceState.recordedOf, happended.records]
    have hnew : ([w.record (s.cacheExchangeCursor + 1)].map CacheExchangeRecord.envelope).filter
        (fun e => decide (e.room = room)) = if w.room = room then [w.envelope] else [] := by
      rcases Decidable.em (w.room = room) with hroom | hroom
      · rw [if_pos hroom]
        exact List.filter_cons_of_pos (decide_eq_true hroom)
      · rw [if_neg hroom]
        exact List.filter_cons_of_neg fun h => hroom (of_decide_eq_true h)
    rw [hnew] at hdrop
    exact hdrop
  · split
    · next hroom =>
      subst hroom
      rw [happended.messages]
      exact List.drop_suffix _ _
    · next hroom =>
      rw [happended.others room (Ne.symm hroom), List.append_nil]

theorem agrees_appended (h : LogsAgree history s) (hw : RelayWrite R w)
    (hnode : isValidNodeId R.config.relayNodeId = true) (happended : Appended R w s s') :
    LogsAgree (history ++ [w.envelope]) s' := by
  have hnamed := named_of_relayWrite hw happended.topic
  refine ⟨?_, fun record hrecord => ?_, fun room e he => ?_, fun room => ?_, ?_, fun hzero => ?_⟩
  · rw [happended.records, happended.cursor]
    exact h.exchange.append rfl _
  · rw [happended.records] at hrecord
    rcases List.mem_append.mp (List.mem_of_mem_drop hrecord) with hold | hnew
    · exact h.restorable record hold
    · rw [List.mem_singleton.mp hnew]
      exact restorable_record hw hnode happended.topic _
  · obtain ⟨-, hmessages⟩ := recordedOf_appended happended room
    rcases List.mem_append.mp (hmessages.subset he) with hold | hnew
    · exact h.named room e hold
    · split at hnew
      · rw [List.mem_singleton.mp hnew]
        exact hnamed
      · exact absurd hnew List.not_mem_nil
  · obtain ⟨hrecorded, hmessages⟩ := recordedOf_appended happended room
    exact comparable_of_suffix (comparable_append (h.agree room) _) hrecorded hmessages
  · rw [happended.records, List.map_append]
    refine ((List.drop_suffix _ _).map _).trans ?_
    rw [List.map_append]
    exact suffix_concat h.suffix _
  · rw [happended.cursor] at hzero
    cases hzero

/-! ## A restore -/

theorem readRecord_toSnapshot (record : CacheExchangeRecord) :
    (readRecord R record.toSnapshot).cursor = record.cursor ∧
      (readRecord R record.toSnapshot).envelope = record.envelope.stored ∧
      (readRecord R record.toSnapshot).origin = trim record.origin := by
  obtain ⟨cursor, ⟨room, id, sender, topic, payload, signature⟩, origin, hopCount, maxHops⟩ := record
  refine ⟨?_, ?_, rfl⟩
  · show ((JsNumber.truncInt? (.ofInt cursor)).getD 0).toNat = cursor
    rw [JsNumber.truncInt?_ofInt]
    rfl
  · cases signature with
    | none | some signature => rfl

theorem keepsRecord_toSnapshot {record : CacheExchangeRecord} (h : record.Restorable)
    (hcursor : 0 < record.cursor) : KeepsRecord record.toSnapshot := by
  refine ⟨rfl, ?_, ?_, h.room, h.id, h.sender, h.topic⟩
  · show 0 < (JsNumber.truncInt? (.ofInt record.cursor)).getD 0
    rw [JsNumber.truncInt?_ofInt]
    exact Int.natCast_pos.mpr hcursor
  · show trim record.origin ≠ ""
    rw [show trim record.origin = record.origin from h.origin.2]
    exact h.origin.1

theorem exchangeField_snapshot (s : ServiceState C) :
    (s.snapshot A).get? "cache_exchange" =
      if s.cacheExchangeRecords = [] ∧ s.cacheExchangeCursor = 0 then none
      else some (.obj [
        ("cursor", .ofNat s.cacheExchangeCursor),
        ("records", .arr (s.cacheExchangeRecords.map CacheExchangeRecord.toSnapshot))]) := by
  have hcursors : (cursorsToSnapshot A s.cache).lookup "cache_exchange" = none := by
    unfold cursorsToSnapshot
    dsimp only
    split
    · rfl
    · rfl
  have hwebhook : (webhookToSnapshot s.githubIssueSync).lookup "cache_exchange" = none := by
    unfold webhookToSnapshot
    split
    · rfl
    · rfl
  unfold ServiceState.snapshot exchangeToSnapshot
  show List.lookup _ (_ ++ _ ++ _ ++ _) = _
  rw [List.lookup_append, List.lookup_append, List.lookup_append, hcursors, hwebhook]
  split
  · rfl
  · rfl

/-- A room is read back with the newest messages of its log, or with none. -/
theorem restored_messages (h : LogsAgree history s) (nowMs : Nat) (t : ServiceState C)
    (room : String) :
    isValidRoomName room = false ∧
      ((t.restore R A nowMs (s.snapshot A)).roomOf room).messages = [] ∨
    isValidRoomName room = true ∧ ((t.restore R A nowMs (s.snapshot A)).roomOf room).messages =
      ((s.roomOf room).messages.map Envelope.stored).drop
        ((s.roomOf room).messages.length - R.config.maxMessagesPerRoom) := by
  cases hroom : isValidRoomName room with
  | false => exact .inl ⟨rfl, by rw [roomOf_restore_of_invalid hroom]; rfl⟩
  | true => exact .inr ⟨rfl, by rw [roomOf_restore hroom (h.named room)]; rfl⟩

theorem recordRooms_of_empty {s : ServiceState C} (h : ∀ room, (s.roomOf room).messages = []) :
    s.recordRooms R = s := by
  have hnone : s.rooms.values.flatMap RoomState.messages = [] := by
    rw [List.flatMap_eq_nil_iff]
    intro roomState hmem
    obtain ⟨e, he, rfl⟩ := List.mem_map.mp hmem
    have hroom := h e.1
    rw [ServiceState.roomOf, OrdMap.getD, OrdMap.get?_eq_some_iff.mpr he] at hroom
    exact hroom
  rw [ServiceState.recordRooms, hnone]
  rfl

/-- What is read back from the records that were written. -/
theorem restoreRecords_toSnapshot {records : List CacheExchangeRecord} {cursor : Nat}
    (hlog : ExchangeLog records cursor) (hrestorable : ∀ record ∈ records, record.Restorable)
    {cacheExchange : JsonValue} (hcursor : cacheExchange.truncField? "cursor" = some cursor) :
    ((restoreRecords R cacheExchange (records.map CacheExchangeRecord.toSnapshot)).1.map
        fun record => (record.cursor, record.envelope)) =
      (records.map fun record => (record.cursor, record.envelope.stored)).drop
        (records.length - R.config.cacheExchangeMaxRecords) ∧
    (∀ record ∈ (restoreRecords R cacheExchange (records.map CacheExchangeRecord.toSnapshot)).1,
      record.Restorable) ∧
    cursor ≤ (restoreRecords R cacheExchange (records.map CacheExchangeRecord.toSnapshot)).2 := by
  have hkept : (records.map CacheExchangeRecord.toSnapshot).filter (fun r => KeepsRecord r) =
      records.map CacheExchangeRecord.toSnapshot := by
    refine List.filter_eq_self.mpr fun value hvalue => ?_
    obtain ⟨record, hrecord, rfl⟩ := List.mem_map.mp hvalue
    exact decide_eq_true
      (keepsRecord_toSnapshot (hrestorable record hrecord) (hlog.ascending.pos record hrecord))
  have hrecords : (restoreRecords R cacheExchange (records.map CacheExchangeRecord.toSnapshot)).1 =
      (records.map fun record => readRecord R record.toSnapshot).drop
        (records.length - R.config.cacheExchangeMaxRecords) := by
    simp only [restoreRecords, hkept, List.map_map, List.length_map]
    rfl
  rw [hrecords]
  refine ⟨?_, fun record hrecord => ?_, ?_⟩
  · rw [List.map_drop, List.map_map]
    refine congrArg _ (List.map_congr_left fun record _ => ?_)
    obtain ⟨hread, henvelope, -⟩ := readRecord_toSnapshot (R := R) record
    exact Prod.ext hread henvelope
  · obtain ⟨old, hold, rfl⟩ := List.mem_map.mp (List.mem_of_mem_drop hrecord)
    obtain ⟨-, henvelope, horigin⟩ := readRecord_toSnapshot (R := R) old
    have hsound := hrestorable old hold
    refine ⟨?_, ?_, ?_, ?_, ?_⟩
    · rw [henvelope]
      exact hsound.room
    · rw [henvelope]
      exact hsound.topic
    · rw [henvelope]
      exact hsound.id
    · rw [henvelope]
      exact hsound.sender
    · rw [horigin, show trim old.origin = old.origin from hsound.origin.2]
      exact hsound.origin
  · refine Nat.le_trans (Nat.le_of_eq ?_) (Nat.le_max_left _ _)
    rw [hcursor]
    rfl

/-- The records that are read back, and the counter. -/
theorem restore_records (h : LogsAgree history s) (nowMs : Nat) (t : ServiceState C) :
    (((t.restore R A nowMs (s.snapshot A)).cacheExchangeRecords.map fun record =>
        (record.cursor, record.envelope)) =
      (s.cacheExchangeRecords.map fun record => (record.cursor, record.envelope.stored)).drop
        (s.cacheExchangeRecords.length - R.config.cacheExchangeMaxRecords)) ∧
    (∀ record ∈ (t.restore R A nowMs (s.snapshot A)).cacheExchangeRecords, record.Restorable) ∧
    s.cacheExchangeCursor ≤ (t.restore R A nowMs (s.snapshot A)).cacheExchangeCursor := by
  have hfield := exchangeField_snapshot (A := A) s
  split at hfield
  · next hnone =>
    -- Nothing was accepted: no room has a message to be recorded.
    have hrebuilt : t.restore R A nowMs (s.snapshot A) =
        (t.restoreTables R A (nowEpochSec nowMs) (s.snapshot A)).recordRooms R := by
      unfold ServiceState.restore JsonValue.objField?
      rw [hfield]
      rfl
    have hempty : ∀ room, ((t.restoreTables R A (nowEpochSec nowMs) (s.snapshot A)).roomOf
        room).messages = [] := by
      intro room
      have hsame : (t.restoreTables R A (nowEpochSec nowMs) (s.snapshot A)).roomOf room =
          (t.restore R A nowMs (s.snapshot A)).roomOf room := by
        rw [hrebuilt, ServiceState.roomOf, ServiceState.roomOf, recordRooms_rooms]
      rw [hsame]
      rcases restored_messages h nowMs t room with ⟨-, hnil⟩ | ⟨-, hmessages⟩
      · exact hnil
      · rw [hmessages, h.counted hnone.2 room, List.map_nil, List.drop_nil]
    rw [hrebuilt, recordRooms_of_empty hempty, hnone.1, hnone.2]
    exact ⟨(List.drop_nil (i := _)).symm, fun _ hrecord => absurd hrecord List.not_mem_nil,
      Nat.le_refl _⟩
  · next hsome =>
    have hread : t.restore R A nowMs (s.snapshot A) =
        { t.restoreTables R A (nowEpochSec nowMs) (s.snapshot A) with
          cacheExchangeRecords := (restoreRecords R (.obj [
            ("cursor", .ofNat s.cacheExchangeCursor),
            ("records", .arr (s.cacheExchangeRecords.map CacheExchangeRecord.toSnapshot))])
              (s.cacheExchangeRecords.map CacheExchangeRecord.toSnapshot)).1
          cacheExchangeCursor := (restoreRecords R (.obj [
            ("cursor", .ofNat s.cacheExchangeCursor),
            ("records", .arr (s.cacheExchangeRecords.map CacheExchangeRecord.toSnapshot))])
              (s.cacheExchangeRecords.map CacheExchangeRecord.toSnapshot)).2 } := by
      unfold ServiceState.restore JsonValue.objField?
      rw [hfield]
      rfl
    rw [hread]
    refine restoreRecords_toSnapshot h.exchange h.restorable ?_
    show JsNumber.truncInt? (.ofInt s.cacheExchangeCursor) = _
    exact JsNumber.truncInt?_ofInt _

theorem recordedOf_stored (s : ServiceState C) (room : String) :
    (s.recordedOf room).map Envelope.stored =
      (s.cacheExchangeRecords.map fun record => record.envelope.stored).filter
        fun e => e.room = room := by
  rw [ServiceState.recordedOf]
  generalize s.cacheExchangeRecords = records
  induction records with
  | nil => rfl
  | cons record rest ih =>
    -- The room of an envelope is stored as it is.
    simp only [List.map_cons, List.filter_cons]
    split
    · next hroom =>
      rw [List.map_cons, ih, if_pos (show decide (record.envelope.stored.room = room) = true from hroom)]
    · next hroom =>
      rw [ih, if_neg (show ¬ decide (record.envelope.stored.room = room) = true from hroom)]

theorem agrees_restore (h : LogsAgree history s) (nowMs : Nat) (t : ServiceState C) :
    LogsAgree history (t.restore R A nowMs (s.snapshot A)) := by
  obtain ⟨hrecords, hrestorable, hcursor⟩ := restore_records (A := A) (R := R) h nowMs t
  have hmessages := fun room => restored_messages (A := A) (R := R) h nowMs t room
  generalize t.restore R A nowMs (s.snapshot A) = s' at *
  have hcursors : s'.cacheExchangeRecords.map CacheExchangeRecord.cursor <:+
      s.cacheExchangeRecords.map CacheExchangeRecord.cursor := by
    have hfirst := congrArg (List.map Prod.fst) hrecords
    rw [List.map_map, List.map_drop, List.map_map] at hfirst
    exact Eq.subst (motive := (· <:+ _)) hfirst.symm (List.drop_suffix _ _)
  have henvelopes : s'.cacheExchangeRecords.map CacheExchangeRecord.envelope <:+
      s.cacheExchangeRecords.map fun record => record.envelope.stored := by
    have hsecond := congrArg (List.map Prod.snd) hrecords
    rw [List.map_map, List.map_drop, List.map_map] at hsecond
    exact Eq.subst (motive := (· <:+ _)) hsecond.symm (List.drop_suffix _ _)
  refine ⟨⟨⟨?_, fun record hrecord => ?_⟩, fun record hrecord => ?_⟩, hrestorable,
    fun room e he => ?_, fun room => ?_, ?_, fun hzero room => ?_⟩
  · have hsorted := List.pairwise_map.mpr h.exchange.ascending.sorted
    exact List.pairwise_map.mp (hsorted.sublist hcursors.sublist)
  · obtain ⟨old, hold, heq⟩ := List.mem_map.mp (hcursors.subset (List.mem_map_of_mem hrecord))
    exact heq ▸ h.exchange.ascending.pos old hold
  · obtain ⟨old, hold, heq⟩ := List.mem_map.mp (hcursors.subset (List.mem_map_of_mem hrecord))
    exact heq ▸ (h.exchange.cursor_le old hold).trans hcursor
  · rcases hmessages room with ⟨-, hnil⟩ | ⟨-, hnewest⟩
    · rw [hnil] at he
      exact absurd he List.not_mem_nil
    · rw [hnewest] at he
      obtain ⟨m, hm, rfl⟩ := List.mem_map.mp (List.mem_of_mem_drop he)
      exact ⟨(h.named room m hm).id, (h.named room m hm).sender, (h.named room m hm).topic⟩
  · have hrecorded : s'.recordedOf room <:+ (s.recordedOf room).map Envelope.stored := by
      rw [recordedOf_stored]
      exact henvelopes.filter _
    rcases hmessages room with ⟨-, hnil⟩ | ⟨-, hnewest⟩
    · rw [hnil]
      exact .inr List.nil_suffix
    · rw [hnewest]
      exact comparable_of_suffix (comparable_map (h.agree room) _) hrecorded (List.drop_suffix _ _)
  · have hstored := henvelopes.map Envelope.stored
    rw [List.map_map, List.map_map] at hstored
    refine hstored.trans ?_
    rw [show (Envelope.stored ∘ fun record : CacheExchangeRecord => record.envelope.stored) =
      fun record => record.envelope.stored from funext fun record => stored_stored _]
    exact h.suffix
  · rcases hmessages room with ⟨-, hnil⟩ | ⟨-, hnewest⟩
    · exact hnil
    · rw [hnewest, h.counted (Nat.le_zero.mp (hzero ▸ hcursor)) room, List.map_nil, List.drop_nil]

/-! ## No cap is exceeded -/

theorem filter_stored (room : String) (l : List Envelope) :
    (l.filter fun e => e.room = room).map Envelope.stored =
      (l.map Envelope.stored).filter fun e => e.room = room := by
  rw [List.filter_map]
  rfl

theorem complete_sameLog (h : LogsComplete history s) (hsame : SameLog s s') :
    LogsComplete history s' := by
  refine ⟨fun room => ?_, ?_⟩
  · rw [hsame.messages]
    exact h.log room
  · rw [hsame.records]
    exact h.records

theorem complete_appended (h : LogsComplete history s) (happended : Appended R w s s')
    (hrecords : (history ++ [w.envelope]).length ≤ R.config.cacheExchangeMaxRecords)
    (hrooms : ∀ room, ((history ++ [w.envelope]).filter fun e => e.room = room).length ≤
      R.config.maxMessagesPerRoom) :
    LogsComplete (history ++ [w.envelope]) s' := by
  refine ⟨fun room => ?_, ?_⟩
  · rcases Decidable.em (room = w.room) with rfl | hne
    · have hhistory := filter_concat_self history w.envelope
      change ((history ++ [w.envelope]).filter fun m => m.room = w.room) =
        (history.filter fun m => m.room = w.room) ++ [w.envelope] at hhistory
      have hlength := congrArg List.length (h.log w.room)
      have hcap := hrooms w.room
      rw [hhistory, List.length_append, List.length_singleton] at hcap
      rw [List.length_map, List.length_map] at hlength
      rw [happended.messages, hhistory, List.map_append, ← h.log, pushMessage, List.length_append,
        List.length_singleton, hlength, Nat.sub_eq_zero_of_le hcap, List.drop_zero,
        List.map_append]
    · rw [happended.others room hne, filter_concat_of_ne history (Ne.symm hne)]
      exact h.log room
  · have hlength := congrArg List.length h.records
    rw [List.length_map, List.length_map] at hlength
    rw [List.length_append, List.length_singleton, ← hlength] at hrecords
    rw [happended.records, Nat.sub_eq_zero_of_le hrecords, List.drop_zero, List.map_append,
      List.map_append, h.records]
    rfl

theorem complete_restore (h : LogsAgree history s) (hcomplete : LogsComplete history s)
    (hrecords : history.length ≤ R.config.cacheExchangeMaxRecords)
    (hrooms : ∀ room, (history.filter fun e => e.room = room).length ≤
      R.config.maxMessagesPerRoom) (nowMs : Nat) (t : ServiceState C) :
    LogsComplete history (t.restore R A nowMs (s.snapshot A)) := by
  obtain ⟨hread, -, -⟩ := restore_records (A := A) (R := R) h nowMs t
  have hlength := congrArg List.length hcomplete.records
  rw [List.length_map, List.length_map] at hlength
  refine ⟨fun room => ?_, ?_⟩
  · rcases restored_messages (A := A) (R := R) h nowMs t room with ⟨hinvalid, hnil⟩ | ⟨-, hnewest⟩
    · -- A message of this room would have a record, and records have proper rooms.
      have hnone : (history.filter fun e => e.room = room) = [] := by
        rw [List.filter_eq_nil_iff]
        intro e he hroom
        have hmem : e.stored ∈ history.map Envelope.stored := List.mem_map_of_mem he
        rw [← hcomplete.records] at hmem
        obtain ⟨record, hrecord, heq⟩ := List.mem_map.mp hmem
        have hsame : record.envelope.stored.room = e.stored.room := congrArg Envelope.room heq
        have hvalid := (h.restorable record hrecord).room
        rw [show record.envelope.room = e.room from hsame, of_decide_eq_true hroom, hinvalid]
          at hvalid
        cases hvalid
      rw [hnil, hnone]
    · have hcap := hrooms room
      have hlog := congrArg List.length (hcomplete.log room)
      rw [List.length_map, List.length_map] at hlog
      rw [hnewest, hlog, Nat.sub_eq_zero_of_le hcap, List.drop_zero, hcomplete.log, List.map_map]
      exact List.map_congr_left fun e _ => stored_stored e
  · have hsecond := congrArg (List.map fun p => p.2.stored) hread
    rw [List.map_map, List.map_drop, List.map_map, hlength, Nat.sub_eq_zero_of_le hrecords,
      List.drop_zero] at hsecond
    refine Eq.trans hsecond (Eq.trans ?_ hcomplete.records)
    exact List.map_congr_left fun record _ => stored_stored _

theorem eq_of_complete (h : LogsAgree history s) (hcomplete : LogsComplete history s)
    (room : String) : s.recordedOf room = (s.roomOf room).messages := by
  refine eq_of_comparable (h.agree room) ?_
  have hrecorded := congrArg List.length (recordedOf_stored s room)
  have hlog := congrArg List.length (hcomplete.log room)
  rw [hcomplete.records, ← filter_stored, ← hcomplete.log, List.length_map, List.length_map]
    at hrecorded
  exact hrecorded

/-! ## Runs -/

/-- The logs and the records agree, and the snapshots were taken of such services. -/
structure SystemAgrees (A : Archive C) (sys : WritingSystem C) : Prop where
  node : isValidNodeId sys.relay.config.relayNodeId = true
  service : LogsAgree sys.history sys.service
  taken : ∀ snapshot ∈ sys.taken, ∃ s : ServiceState C, snapshot.value = s.snapshot A ∧
    LogsAgree snapshot.history s

/-- So do those that hold every accepted message. -/
structure SystemComplete (A : Archive C) (sys : WritingSystem C) : Prop where
  service : LogsComplete sys.history sys.service
  taken : ∀ snapshot ∈ sys.taken, ∃ s : ServiceState C, snapshot.value = s.snapshot A ∧
    LogsAgree snapshot.history s ∧ LogsComplete snapshot.history s

theorem node_step {sys : WritingSystem C} {event : WritingEvent C} (hevent : event.Normalised)
    (hnode : isValidNodeId sys.relay.config.relayNodeId = true) :
    isValidNodeId (sys.step A event).relay.config.relayNodeId = true := by
  have hsettle : ∀ (id : Nat) (request : Request)
      (result : Except Response WritingProgress × ServiceState C),
      (sys.settle id request result).relay = sys.relay := by
    intro id request result
    rcases result with ⟨response | ⟨response | writing⟩, service⟩
    · rfl
    · rfl
    · rfl
  cases event with
  | arrive call =>
    rw [show (sys.step A (.arrive call)).relay = sys.relay from hsettle _ _ _]
    exact hnode
  | resume id env =>
    cases hget : sys.tasks.get? id with
    | none =>
      simp only [WritingSystem.step, hget]
      exact hnode
    | some task =>
      simp only [WritingSystem.step, hget]
      rw [show (sys.resumeTask id task env).relay = sys.relay from hsettle _ _ _]
      exact hnode
  | snapshot => exact hnode
  | restore i nowMs =>
    cases hget : sys.taken[i]? with
    | none =>
      simp only [WritingSystem.step, hget]
      exact hnode
    | some snapshot =>
      simp only [WritingSystem.step, hget]
      exact hnode
  | restart relay cache i nowMs =>
    cases hget : sys.taken[i]? with
    | none =>
      simp only [WritingSystem.step, hget]
      exact hnode
    | some snapshot =>
      simp only [WritingSystem.step, hget]
      exact hevent

theorem agrees_turn {event : WritingEvent C} {sys sys' : WritingSystem C}
    (hturn : Turn A event sys sys') (hnode : isValidNodeId sys'.relay.config.relayNodeId = true)
    (h : SystemAgrees A sys) : SystemAgrees A sys' := by
  refine ⟨hnode, ?_, ?_⟩
  · cases hturn with
    | segment accepted relay taken history hsegment =>
      rw [history]
      cases hsegment with
      | quiet hsame =>
        rw [Option.toList_none, List.append_nil]
        exact agrees_sameLog h.service hsame
      | accepts w hw happended => exact agrees_appended h.service hw h.node happended
    | snapshot relay service history taken =>
      rw [service, history]
      exact h.service
    | restored hrestores snapshot hmem nowMs before taken service history =>
      obtain ⟨s, hvalue, hagrees⟩ := h.taken snapshot hmem
      rw [service, history, hvalue]
      exact agrees_restore hagrees nowMs before
  · cases hturn with
    | segment accepted relay taken history hsegment =>
      rw [taken]
      exact h.taken
    | snapshot relay service history taken =>
      rw [taken]
      intro snapshot hmem
      rcases List.mem_append.mp hmem with hold | hnew
      · exact h.taken snapshot hold
      · rw [List.mem_singleton.mp hnew]
        exact ⟨sys.service, rfl, h.service⟩
    | restored hrestores snapshot hmem nowMs before taken service history =>
      rw [taken]
      exact h.taken

theorem complete_turn {event : WritingEvent C} {sys sys' : WritingSystem C}
    (hturn : Turn A event sys sys') (hagrees : SystemAgrees A sys) (hcaps : sys'.WithinCaps)
    (h : SystemComplete A sys) : SystemComplete A sys' := by
  obtain ⟨hrecords, hrooms⟩ := hcaps
  unfold WritingSystem.historyOf at hrooms
  refine ⟨?_, ?_⟩
  · cases hturn with
    | segment accepted relay taken history hsegment =>
      rw [relay, history] at hrooms hrecords
      rw [history]
      cases hsegment with
      | quiet hsame =>
        rw [Option.toList_none, List.append_nil]
        exact complete_sameLog h.service hsame
      | accepts w hw happended => exact complete_appended h.service happended hrecords hrooms
    | snapshot relay service history taken =>
      rw [service, history]
      exact h.service
    | restored hrestores snapshot hmem nowMs before taken service history =>
      obtain ⟨s, hvalue, hold, hcomplete⟩ := h.taken snapshot hmem
      rw [history] at hrooms hrecords
      rw [service, history, hvalue]
      exact complete_restore hold hcomplete hrecords hrooms nowMs before
  · cases hturn with
    | segment accepted relay taken history hsegment =>
      rw [taken]
      exact h.taken
    | snapshot relay service history taken =>
      rw [taken]
      intro snapshot hmem
      rcases List.mem_append.mp hmem with hold | hnew
      · exact h.taken snapshot hold
      · rw [List.mem_singleton.mp hnew]
        exact ⟨sys.service, rfl, hagrees.service, h.service⟩
    | restored hrestores snapshot hmem nowMs before taken service history =>
      rw [taken]
      exact h.taken

end ExchangeRecordLemmas

open ExchangeRecordLemmas WritingSystem

theorem agrees_run (cache : C) {events : List (WritingEvent C)}
    (hnode : isValidNodeId R.config.relayNodeId = true)
    (hevents : ∀ event ∈ events, event.Normalised) :
    SystemAgrees A (after A R cache events) := by
  induction events using List.reverseRecOn with
  | nil => exact ⟨hnode, agrees_init cache, fun _ hmem => absurd hmem List.not_mem_nil⟩
  | append_singleton events event ih =>
    have hbefore := ih fun e he => hevents e (List.mem_append_left _ he)
    have hevent := hevents event (List.mem_append_right _ List.mem_cons_self)
    rw [after_concat]
    exact agrees_turn (turn_step event (properTasks_run R cache events))
      (node_step hevent hbefore.node) hbefore

theorem complete_run (cache : C) {events : List (WritingEvent C)}
    (hnode : isValidNodeId R.config.relayNodeId = true)
    (hevents : ∀ event ∈ events, event.Normalised)
    (hcaps : ∀ before, before <+: events → (after A R cache before).WithinCaps) :
    SystemComplete A (after A R cache events) := by
  induction events using List.reverseRecOn with
  | nil =>
    exact ⟨⟨fun _ => rfl, rfl⟩, fun _ hmem => absurd hmem List.not_mem_nil⟩
  | append_singleton events event ih =>
    have hnormalised := fun e he => hevents e (List.mem_append_left _ he)
    have hbefore := ih hnormalised fun before hbegins =>
      hcaps before (hbegins.trans (List.prefix_append _ _))
    have hend := hcaps _ List.prefix_rfl
    rw [after_concat] at hend ⊢
    exact complete_turn (turn_step event (properTasks_run R cache events))
      (agrees_run cache hnode hnormalised) hend hbefore

/-- In every reachable state the records are in cursor order and no cursor is above the counter. The
records of a room and its log are one a suffix of the other, and up to what a snapshot keeps of the
payloads the records are a suffix of the accepted messages. In a run in which no cap is exceeded, the
records of a room are its log, and both hold every message that was accepted. -/
theorem log_exchange_agree (A : Archive C) (R : Relay C) (cache : C)
    (events : List (WritingEvent C)) (hnode : isValidNodeId R.config.relayNodeId = true)
    (hevents : ∀ event ∈ events, event.Normalised) :
    let sys := after A R cache events
    ExchangeLog sys.service.cacheExchangeRecords sys.service.cacheExchangeCursor ∧
    (∀ room, SuffixComparable (sys.recordedOf room) (sys.logOf room)) ∧
    (sys.service.cacheExchangeRecords.map fun record => record.envelope.stored) <:+
      sys.history.map Envelope.stored ∧
    ((∀ before, before <+: events → (after A R cache before).WithinCaps) →
      (sys.service.cacheExchangeRecords.map fun record => record.envelope.stored) =
        sys.history.map Envelope.stored ∧
      ∀ room, sys.recordedOf room = sys.logOf room ∧
        (sys.logOf room).map Envelope.stored = (sys.historyOf room).map Envelope.stored) := by
  have hagrees := agrees_run (A := A) cache hnode hevents
  refine ⟨hagrees.service.exchange, hagrees.service.agree, hagrees.service.suffix, fun hcaps => ?_⟩
  have hcomplete := complete_run cache hnode hevents hcaps
  exact ⟨hcomplete.service.records, fun room =>
    ⟨eq_of_complete hagrees.service hcomplete.service room, hcomplete.service.log room⟩⟩

theorem withinCaps_of_history {sys : WritingSystem C}
    (hrecords : sys.history.length ≤ sys.relay.config.cacheExchangeMaxRecords)
    (hmessages : sys.history.length ≤ sys.relay.config.maxMessagesPerRoom) : sys.WithinCaps :=
  ⟨hrecords, fun _ => (List.length_filter_le _ _).trans hmessages⟩

/-- The push, the snapshot and the restore exceed no cap. -/
theorem log_exchange_agree_toyRestore :
    let sys := after .toy (.toy .default) () toyRestore
    ExchangeLog sys.service.cacheExchangeRecords sys.service.cacheExchangeCursor ∧
    (∀ room, SuffixComparable (sys.recordedOf room) (sys.logOf room)) ∧
    (sys.service.cacheExchangeRecords.map fun record => record.envelope.stored) <:+
      sys.history.map Envelope.stored ∧
    (sys.service.cacheExchangeRecords.map fun record => record.envelope.stored) =
      sys.history.map Envelope.stored ∧
    ∀ room, sys.recordedOf room = sys.logOf room ∧
      (sys.logOf room).map Envelope.stored = (sys.historyOf room).map Envelope.stored := by
  have hevents : ∀ event ∈ toyRestore, event.Normalised := by
    intro event hevent
    simp only [toyRestore, List.mem_cons, List.not_mem_nil, or_false] at hevent
    rcases hevent with rfl | rfl | rfl | rfl
    · trivial
    · trivial
    · trivial
    · trivial
  have hfits : ∀ before ∈ toyRestore.inits,
      (after .toy (.toy .default) () before).history.length ≤
          (after .toy (.toy .default) () before).relay.config.cacheExchangeMaxRecords ∧
        (after .toy (.toy .default) () before).history.length ≤
          (after .toy (.toy .default) () before).relay.config.maxMessagesPerRoom := by
    decide +kernel
  obtain ⟨hexchange, hagree, hsuffix, hcomplete⟩ :=
    log_exchange_agree .toy (.toy .default) () toyRestore (by decide) hevents
  refine ⟨hexchange, hagree, hsuffix, hcomplete fun before hbefore => ?_⟩
  obtain ⟨hrecords, hmessages⟩ := hfits before (List.mem_inits before toyRestore |>.mpr hbefore)
  exact withinCaps_of_history hrecords hmessages

end

end BitRelay
