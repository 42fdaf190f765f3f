import BitRelay.Cache.CursorRuns

/-!
# The recorded cursors of a room

What the store shows of a run of `CursorRuns`: the events of a room with their cursors.
The next cursor is read from the store, which no call of `syncIssues` changes; what such
a call writes to the table in memory can only be smaller.

A cursor is a double. From 2^53 on the next one can be the same.

Results:
1. `issue_cursors_increase`: as long as the cursors stay exact, the events of a room are
   recorded under increasing cursors in the order their envelopes were handed over.
2. `inexact_cursor_reissued`: a run in which two events get the same cursor.
-/

namespace BitRelay

/-! ## What is recorded -/

namespace CursorRun

/-- The issue events of a room, in the order the store has them. -/
def recordedEvents (s : CacheAdapterState) (room : String) : List IssueCacheEventRecord :=
  (s.cacheStore.records.values.filterMap parseIssueCacheEventRecord).filter fun record =>
    record.room == room

/-- The envelopes of a room on issue topics, as they read back. -/
def issuesOf (room : String) (handed : List AcceptedEnvelope) : List Envelope :=
  ((handed.filter fun e => e.isIssue && e.envelope.room == room).map AcceptedEnvelope.envelope).map
    Envelope.readBack

/-- No task has made a step yet. -/
def Idle (p : CursorRun) : Prop := ∀ t ∈ p.tasks, t.task = .start

/-- The cursors of a room. -/
structure CursorsIncrease (p : CursorRun) (room : String) : Prop where
  positive : ∀ record ∈ recordedEvents p.adapter room, 1 ≤ record.cursor
  increasing : (recordedEvents p.adapter room).Pairwise fun a b => a.cursor < b.cursor
  ordered : (recordedEvents p.adapter room).map IssueCacheEventRecord.envelope <+:
    issuesOf room p.handedOver
  complete : p.tasks = [] →
    (recordedEvents p.adapter room).map IssueCacheEventRecord.envelope = issuesOf room p.handedOver
  stored : p.Idle → storedCursor p.adapter room = lastIn room p.assigned

/-- A task assigns a cursor only while the numbers are exact. -/
def StaysExact (p : CursorRun) : CursorEvent → Prop
  | .task _ => match p.tasks with
    | [] => True
    | t :: _ => match t.task.stage with
      | .cursorRead inMemory cached =>
        max (max inMemory cached) (hintFloor t.roomCursorHint) < MAX_EXACT_INTEGER
      | _ => True
  | _ => True

instance (p : CursorRun) (event : CursorEvent) : Decidable (p.StaysExact event) := by
  unfold StaysExact
  split
  · split
    · infer_instance
    · split <;> infer_instance
  · infer_instance

end CursorRun

namespace CursorLemmas

open CursorRun WriteLemmas

variable {A : CacheAdapterOptions} {p : CursorRun} {s s' : CacheAdapterState} {t : IssueTask}
  {rest : List IssueTask} {done : List AcceptedEnvelope} {settled : List (Envelope × Nat)}
  {nowSec : Nat} {stage' : PersistStage}

/-! ## The recorded events -/

/-- The issue message of an envelope on an issue topic. -/
def issueMessage (handed : AcceptedEnvelope) (hissue : handed.isIssue = true) : IssueMessage :=
  ⟨handed.envelope, handed.storable, handed.topic, hissue, handed.sender⟩

/-- An event record with the envelope of a message reads back. -/
theorem parse_eventJson (message : IssueMessage) {value : CacheStoreObject}
    {record : IssueCacheEventRecord} (hjson : value.body.json = some record.toJson.normalize)
    (henvelope : record.envelope = message.envelope) (hroom : record.room = message.envelope.room)
    (hid : FreeText record.issueId) (haction : FreeText record.action) (hcursor : 0 < record.cursor) :
    parseIssueCacheEventRecord value =
      some { record with envelope := message.envelope.readBack } := by
  obtain ⟨room, cursor, issueId, action, envelope, sourceUpdatedAtMs, updatedAt⟩ := record
  obtain rfl : room = message.envelope.room := hroom
  obtain rfl : envelope = message.envelope := henvelope
  have hidTrim : trim issueId = issueId := hid.2
  have hidNe : issueId ≠ "" := hid.1
  have hactionTrim : trim action = action := haction.2
  have hactionNe : action ≠ "" := haction.1
  generalize hparsed : (IssueCacheEventRecord.mk _ cursor issueId action _ sourceUpdatedAtMs
    updatedAt).toJson.normalize = parsed at hjson
  have hkind : parsed.get? "kind" = some (.str "issue_event") := by rw [← hparsed]; rfl
  have hversion : parsed.get? "version" = some (.ofNat 1) := by rw [← hparsed]; rfl
  have hroom : parsed.strField "room" = message.envelope.room := by rw [← hparsed]; rfl
  have hissue : parsed.strField "issue_id" = issueId := by rw [← hparsed]; rfl
  have haction : parsed.strField "action" = action := by rw [← hparsed]; rfl
  have henvelope : parsed.get? "envelope" = some message.envelope.toJson.normalize := by
    rw [← hparsed]; rfl
  have hcursorField : parsed.get? "cursor" = some (.ofNat cursor) := by rw [← hparsed]; rfl
  have hupdated : parsed.get? "updated_at" = some (.ofNat updatedAt) := by rw [← hparsed]; rfl
  have hsource : parseRecordSourceUpdatedAtMs parsed = some sourceUpdatedAtMs :=
    SnapshotLemmas.parseRecordSource_ofNat? (by rw [← hparsed]; rfl)
  have hback : message.envelope.readBack.room = message.envelope.room := rfl
  obtain ⟨fields, hfields⟩ : ∃ fields, parsed.fields? = some fields := by
    rw [← hparsed]
    exact Option.isSome_iff_exists.mp rfl
  unfold parseIssueCacheEventRecord
  rw [hjson]
  simp only [Option.bind_eq_bind, Option.bind_some, hfields, hkind, hversion, hroom, hissue, haction,
    hidTrim, hactionTrim, henvelope, Option.getD_some, PullLemmas.parseEnvelopeRecord_message,
    message.storable.room, hidNe, hactionNe, hback, hcursorField, hupdated, hsource,
    asNonNegativeInt_ofNat, Nat.pos_iff_ne_zero.mp hcursor, ne_eq, not_true_eq_false,
    Bool.true_eq_false, if_false]
  rfl

/-- The event that is recorded for an envelope reads back. -/
theorem parse_eventRecord (handed : AcceptedEnvelope) (hissue : handed.isIssue = true)
    {cursor : Nat} (hcursor : 0 < cursor) (updatedAt : Nat) :
    parseIssueCacheEventRecord (issueEventRequest A handed.envelope cursor updatedAt).stored =
      some { issueEvent A handed.envelope cursor updatedAt with
        envelope := handed.envelope.readBack } := by
  have hid : FreeText (issueEvent A handed.envelope cursor updatedAt).issueId := by
    simp only [issueEvent]
    exact freeText_extractIssueId handed.storable.id
  have haction : FreeText (issueEvent A handed.envelope cursor updatedAt).action := by
    simp only [issueEvent]
    exact freeText_deriveIssueAction handed.envelope
  exact parse_eventJson (issueMessage handed hissue) rfl rfl rfl hid haction hcursor

theorem parse_of_kind {value : CacheStoreObject} {parsed : JsonValue}
    (hjson : value.body.json = some parsed) (hkind : parsed.get? "kind" ≠ some (.str "issue_event")) :
    parseIssueCacheEventRecord value = none := by
  unfold parseIssueCacheEventRecord
  rw [hjson]
  cases hfields : parsed.fields? with
  | none => simp only [Option.bind_eq_bind, Option.bind_some, hfields, Option.bind_none]
  | some fields =>
    simp only [Option.bind_eq_bind, Option.bind_some, hfields]
    exact if_pos hkind

/-- A put that records no event and does not stand under the key of one. -/
def NoEvent (request : CacheStorePutRequest) : Prop :=
  parseIssueCacheEventRecord request.stored = none ∧
    ∀ room cursor id, request.storageKey ≠ toStorageKey .object (issueEventStorageKey room cursor id)

theorem noEvent_of_key {request : CacheStorePutRequest}
    (hparse : parseIssueCacheEventRecord request.stored = none)
    (hkey : ∀ room cursor id, issueEventStorageKey room cursor id ≠ request.key) :
    NoEvent request :=
  ⟨hparse, fun room cursor id heq => hkey room cursor id (toStorageKey_inj
    (show toStorageKey request.kind request.key = toStorageKey .object _ from heq)).2.symm⟩

theorem event_ne_envelopeKey {room room' id id' : String} {cursor : Nat}
    (hroom : isValidRoomName room' = true) (hne : room' ≠ "issue") :
    issueEventStorageKey room cursor id ≠ envelopeStorageKey room' id' := by
  rw [issueEventStorageKey_eq]
  intro heq
  exact hne (envelopeStorageKey_inj (by decide) (slash_notMem_room hroom) heq).1.symm

theorem noEvent_envelope (handed : AcceptedEnvelope) (nowSec : Nat) :
    NoEvent (envelopeRequest A handed.envelope nowSec) := by
  have hparse : parseIssueCacheEventRecord (envelopeRequest A handed.envelope nowSec).stored = none :=
    parse_of_kind rfl (show (none : Option JsonValue) ≠ _ from Option.some_ne_none _ |>.symm)
  rcases handed.apart with htopic | hne
  · refine ⟨hparse, fun room cursor id heq => ?_⟩
    have hkind := (toStorageKey_inj (show toStorageKey (if isIssueTopic handed.envelope.topic then
      CacheStoreKind.issue else .object) _ = toStorageKey .object _ from heq)).1
    rw [htopic] at hkind
    cases hkind
  · exact noEvent_of_key hparse fun _ _ _ => event_ne_envelopeKey handed.storable.room hne

theorem noEvent_snapshot (envelope : Envelope) (cursor updatedAt : Nat) :
    NoEvent (issueSnapshotRequest A envelope cursor updatedAt) := by
  refine noEvent_of_key (parse_of_kind rfl ?_) fun _ _ _ => event_ne_snapshot
  show some (JsonValue.str "issue_snapshot") ≠ _
  decide

theorem noEvent_cursor (envelope : Envelope) (cursor updatedAt : Nat) :
    NoEvent (issueCursorRequest A envelope cursor updatedAt) := by
  refine noEvent_of_key (parse_of_kind rfl ?_) fun _ _ _ => event_ne_cursor
  show some (JsonValue.str "issue_cursor") ≠ _
  decide

theorem eventKey_inj {room room' id id' : String} {cursor cursor' : Nat}
    (h : isValidRoomName room = true) (h' : isValidRoomName room' = true)
    (heq : issueEventStorageKey room cursor id = issueEventStorageKey room' cursor' id') :
    room = room' ∧ cursor = cursor' := by
  have hrooms : room = room' := by
    have hkeys := heq
    rw [issueEventStorageKey_eq, issueEventStorageKey_eq] at hkeys
    obtain ⟨-, hrest⟩ := envelopeStorageKey_inj (by decide) (by decide) hkeys
    obtain ⟨-, hsuffix⟩ := slash_inj (by decide) (by decide) hrest
    exact (slash_inj (slash_notMem_room h) (slash_notMem_room h') hsuffix).1
  subst hrooms
  exact ⟨rfl, issueEventStorageKey_inj heq⟩

/-- The store records the events `recorded`, each under its own key, and no others. -/
structure Recorded (s : CacheAdapterState) (recorded : List (Envelope × Nat)) : Prop where
  keyed : ∀ storageKey record event, s.record? storageKey = some record →
    parseIssueCacheEventRecord record = some event →
      ∃ room cursor id, storageKey = toStorageKey .object (issueEventStorageKey room cursor id)
  known : ∀ room cursor id record, isValidRoomName room = true →
    s.record? (toStorageKey .object (issueEventStorageKey room cursor id)) = some record →
      ∃ e ∈ recorded, e.1.room = room ∧ e.2 = cursor
  proper : ∀ e ∈ recorded, isValidRoomName e.1.room = true
  events : ∀ room, (recordedEvents s room).map (fun record => (record.envelope, record.cursor)) =
    (recorded.filter fun e => e.1.room == room).map fun e => (e.1.readBack, e.2)

variable {recorded : List (Envelope × Nat)} {request : CacheStorePutRequest}

/-- A put of something else. -/
theorem recorded_store (h : Recorded s recorded) (hnone : NoEvent request) :
    Recorded (s.store request) recorded := by
  refine ⟨fun storageKey record event hrecord hparse => ?_,
    fun room cursor id record hroom hrecord => ?_, h.proper, fun room => ?_⟩
  · rw [CacheAdapterState.record?_store] at hrecord
    split at hrecord
    · cases hrecord
      rw [hnone.1] at hparse
      cases hparse
    · exact h.keyed _ _ _ hrecord hparse
  · rw [CacheAdapterState.record?_store_of_ne s (fun heq => hnone.2 room cursor id heq.symm)]
      at hrecord
    exact h.known _ _ _ _ hroom hrecord
  · rw [← h.events room]
    unfold recordedEvents
    refine congrArg (fun l : List IssueCacheEventRecord => (l.filter _).map _)
      (OrdMap.filterMap_values_set hnone.1 fun record hrecord => ?_)
    cases hparse : parseIssueCacheEventRecord record with
    | none => rfl
    | some event =>
      obtain ⟨room, cursor, id, heq⟩ := h.keyed _ _ _ hrecord hparse
      exact absurd heq (hnone.2 room cursor id)

/-- The put of an event with a new cursor. -/
theorem recorded_storeEvent (h : Recorded s recorded) (handed : AcceptedEnvelope)
    (hissue : handed.isIssue = true) {cursor : Nat} (hcursor : 0 < cursor) (updatedAt : Nat)
    (hnew : ∀ e ∈ recorded, e.1.room = handed.envelope.room → e.2 ≠ cursor) :
    Recorded (s.store (issueEventRequest A handed.envelope cursor updatedAt))
      (recorded ++ [(handed.envelope, cursor)]) := by
  have hparse := parse_eventRecord (A := A) handed hissue hcursor updatedAt
  have hkey : (issueEventRequest A handed.envelope cursor updatedAt).storageKey =
      toStorageKey .object
        (issueEventStorageKey handed.envelope.room cursor handed.envelope.id) := rfl
  have hfree : s.cacheStore.records.has
      (issueEventRequest A handed.envelope cursor updatedAt).storageKey = false := by
    rw [hkey, OrdMap.has_eq_false_iff]
    cases hfound : s.record? (toStorageKey .object (issueEventStorageKey handed.envelope.room cursor
      handed.envelope.id)) with
    | none => exact hfound
    | some record =>
      obtain ⟨e, he, hroom, heq⟩ := h.known _ _ _ _ handed.storable.room hfound
      exact absurd heq (hnew e he hroom)
  refine ⟨fun storageKey record event hrecord hevent => ?_,
    fun room cursor' id record hroom hrecord => ?_, fun e he => ?_, fun room => ?_⟩
  · rw [CacheAdapterState.record?_store] at hrecord
    split at hrecord
    · next heq => exact ⟨_, _, _, heq⟩
    · exact h.keyed _ _ _ hrecord hevent
  · rw [CacheAdapterState.record?_store, hkey] at hrecord
    split at hrecord
    · next heq =>
      obtain ⟨hrooms, hcursors⟩ := eventKey_inj hroom handed.storable.room (toStorageKey_inj heq).2
      exact ⟨(handed.envelope, cursor), List.mem_append_right _ List.mem_cons_self, hrooms.symm,
        hcursors.symm⟩
    · obtain ⟨e, he, hfound⟩ := h.known _ _ _ _ hroom hrecord
      exact ⟨e, List.mem_append_left _ he, hfound⟩
  · rcases List.mem_append.mp he with he | he
    · exact h.proper e he
    · rw [List.mem_singleton.mp he]
      exact handed.storable.room
  · have hevents : recordedEvents (s.store (issueEventRequest A handed.envelope cursor updatedAt))
        room = recordedEvents s room ++ if handed.envelope.room = room then
          [{ issueEvent A handed.envelope cursor updatedAt with
            envelope := handed.envelope.readBack }] else [] := by
      show ((s.cacheStore.records.set _ _).values.filterMap _).filter _ = _
      rw [OrdMap.values_set_of_not_has hfree, List.filterMap_append, List.filter_append,
        List.filterMap_cons_some hparse, List.filterMap_nil, List.filter_singleton,
        Bool.cond_eq_ite]
      simp only [beq_iff_eq]
      rfl
    rw [hevents, List.map_append, h.events, List.filter_append, List.filter_singleton,
      Bool.cond_eq_ite, List.map_append]
    simp only [beq_iff_eq]
    split
    · rfl
    · rfl

/-! ## Runs with exact numbers -/

/-- The cursor whose event a task has recorded and not yet stored. -/
def written (t : IssueTask) : List (Envelope × Nat) :=
  match t.task.stage with
  | .readSnapshot cursor _ | .putSnapshot cursor _ | .putCursor cursor _ =>
    [(t.handed.envelope, cursor)]
  | _ => []

def headWritten (p : CursorRun) : List (Envelope × Nat) := p.tasks.head?.elim [] written

structure Sound (p : CursorRun) (done : List AcceptedEnvelope)
    (settled : List (Envelope × Nat)) : Prop where
  serial : Serial p done settled
  recorded : Recorded p.adapter (settled ++ headWritten p)
  increasing : p.assigned.Pairwise fun a b => a.1.room = b.1.room → a.2 < b.2

theorem recorded_table (h : Recorded s recorded) (issueCursorByRoom : OrdMap String Nat) :
    Recorded { s with issueCursorByRoom } recorded :=
  ⟨h.keyed, h.known, h.proper, h.events⟩

theorem headWritten_waiting {p : CursorRun} (h : ∀ t ∈ p.tasks, t.task = .start) :
    headWritten p = [] := by
  unfold headWritten
  cases htasks : p.tasks with
  | nil => rfl
  | cons t rest =>
    show written t = []
    unfold written
    rw [h t (by rw [htasks]; exact List.mem_cons_self)]
    rfl

theorem headWritten_afterTask (h : Serial p done settled) (ht : p.tasks = t :: rest) :
    headWritten (afterTask p t rest s' stage') =
      if stage' = .persisted then []
      else written { t with task := { t.task with stage := stage' } } := by
  have hwaiting := h.waiting
  rw [ht] at hwaiting
  by_cases hstage : stage' = .persisted
  · rw [if_pos hstage]
    refine headWritten_waiting ?_
    simp only [afterTask, if_pos hstage]
    exact hwaiting
  · rw [if_neg hstage]
    simp only [headWritten, afterTask, if_neg hstage]
    rfl

/-- With exact numbers, a new cursor lies above the earlier ones of its room. -/
theorem last_lt_next (h : Serial p done settled) (ht : p.tasks = t :: rest)
    (hexact : StaysExact p (.task nowSec)) {inMemory cached : Nat}
    (hstage : t.task.stage = .cursorRead inMemory cached) :
    lastIn t.handed.envelope.room p.assigned <
      nextIssueCursor t.roomCursorHint (max inMemory cached) := by
  have hfits := h.head t (by rw [ht]; rfl)
  have hassigned := h.assigned
  unfold StaysExact at hexact
  simp only [ht, hstage] at hexact
  unfold Fits at hfits
  rw [hstage] at hfits
  rw [headPending, ht] at hassigned
  have hpending : pending t = [] := by
    unfold pending
    rw [hstage]
  have hassigned : p.assigned = settled ++ pending t := hassigned
  rw [hpending, List.append_nil] at hassigned
  rw [hassigned, ← hfits.2]
  show cached < incDouble _
  rw [incDouble_of_lt hexact]
  exact Nat.lt_succ_of_le (Nat.le_trans (Nat.le_max_right inMemory cached) (Nat.le_max_left _ _))

theorem increasing_afterTask (h : Sound p done settled) (ht : p.tasks = t :: rest)
    (hexact : StaysExact p (.task nowSec)) :
    (p.assigned ++ t.assigns).Pairwise fun a b => a.1.room = b.1.room → a.2 < b.2 := by
  unfold IssueTask.assigns
  split
  · next inMemory cached hstage =>
    refine List.pairwise_append.mpr ⟨h.increasing, List.pairwise_singleton _ _,
      fun a ha b hb hroom => ?_⟩
    rw [List.mem_singleton.mp hb] at hroom ⊢
    have hbound := h.serial.bounded a ha
    rw [hroom] at hbound
    exact Nat.lt_of_le_of_lt hbound (last_lt_next h.serial ht hexact hstage)
  · rw [List.append_nil]
    exact h.increasing

theorem sound_afterTask (h : Sound p done settled) (ht : p.tasks = t :: rest)
    (hexact : StaysExact p (.task nowSec))
    (hsteps : t.StepsTo A p.adapter nowSec t.task.stage s' stage') :
    Sound (afterTask p t rest s' stage')
      (if stage' = .persisted then done ++ [t.handed] else done)
      (if stage' = .persisted then settled ++ pending t else settled) := by
  refine ⟨serial_afterTask h.serial ht hsteps, ?_, increasing_afterTask h ht hexact⟩
  have hrecorded : Recorded p.adapter (settled ++ written t) := by
    have hhead := h.recorded
    rw [headWritten, ht] at hhead
    exact hhead
  have hfits := h.serial.head t (by rw [ht]; rfl)
  have hpositive := h.serial.positive
  have hincreasing := h.increasing
  have hassigned : p.assigned = settled ++ pending t := by
    have hhead := h.serial.assigned
    rw [headPending, ht] at hhead
    exact hhead
  rw [headWritten_afterTask h.serial ht]
  show Recorded s' _
  obtain ⟨handed, roomCursorHint, attempt, stage⟩ := t
  cases hsteps with
  | putsEnvelope hstage =>
    have hstored := recorded_store hrecorded (noEvent_envelope (A := A) handed nowSec)
    cases hissue : handed.isIssue with
    | true =>
      obtain rfl : stage' = .readCursor := by rw [hstage, if_pos hissue]
      exact hstored
    | false =>
      obtain rfl : stage' = .persisted := by rw [hstage, if_neg (ne_true_of_eq_false hissue)]
      rw [if_pos rfl, if_pos rfl, List.append_nil]
      exact hstored
  | readsCursor => exact hrecorded
  | assigns inMemory cached => exact recorded_table hrecorded _
  | putsEvent cursor updatedAt =>
    have hassigned : p.assigned = settled ++ [(handed.envelope, cursor)] := hassigned
    have hrecorded : Recorded p.adapter (settled ++ []) := hrecorded
    rw [List.append_nil] at hrecorded
    rw [hassigned] at hpositive hincreasing
    refine recorded_storeEvent hrecorded handed hfits
      (hpositive (handed.envelope, cursor) (List.mem_append_right _ List.mem_cons_self)) updatedAt
      fun e he hroom heq => ?_
    have hlt := (List.pairwise_append.mp hincreasing).2.2 e he _ List.mem_cons_self hroom
    exact absurd heq (Nat.ne_of_lt hlt)
  | readsSnapshot cursor updatedAt hstage =>
    rcases hstage with rfl | rfl
    · exact hrecorded
    · exact hrecorded
  | putsSnapshot cursor updatedAt =>
    exact recorded_store hrecorded (noEvent_snapshot handed.envelope cursor updatedAt)
  | putsCursor cursor updatedAt =>
    rw [if_pos rfl, if_pos rfl, List.append_nil]
    exact recorded_store hrecorded (noEvent_cursor handed.envelope cursor updatedAt)

theorem sound_init : Sound .init [] [] where
  serial :=
    { unlimited := rfl
      handedOver := rfl
      done := rfl
      assigned := rfl
      stored := fun _ => rfl
      earlier := Nat.le_refl 0
      waiting := fun _ h => absurd h List.not_mem_nil
      head := fun _ h => by cases h
      positive := fun _ h => absurd h List.not_mem_nil
      bounded := fun _ h => absurd h List.not_mem_nil }
  recorded :=
    { keyed := fun _ _ _ h => by cases h
      known := fun _ _ _ _ _ h => by cases h
      proper := fun _ h => absurd h List.not_mem_nil
      events := fun _ => rfl }
  increasing := List.Pairwise.nil

theorem sound_sync (h : Sound p done settled) (i nowSec : Nat) :
    Sound (p.step A (.sync i nowSec)) done settled := by
  have hserial := serial_sync (A := A) h.serial i nowSec
  cases hcall : p.syncs[i]? with
  | none =>
    simp only [step, hcall]
    exact h
  | some call =>
    obtain ⟨s', stage', hsteps, heq⟩ := step_sync (A := A) h.serial hcall nowSec
    rw [heq] at hserial ⊢
    refine ⟨hserial, ?_, h.increasing⟩
    generalize call.stage = stage at hsteps
    cases hsteps with
    | loads hfrom hto => exact h.recorded
    | reads events snapshots => exact h.recorded
    | writes events snapshots inMemory persisted result => exact recorded_table h.recorded _

theorem sound_handOver (h : Sound p done settled) (handed : AcceptedEnvelope)
    (roomCursorHint : Option Int) :
    Sound (p.step A (.handOver handed roomCursorHint)) done settled := by
  refine ⟨serial_handOver h.serial handed roomCursorHint, ?_, h.increasing⟩
  have hhead : headWritten (p.step A (.handOver handed roomCursorHint)) = headWritten p := by
    unfold headWritten
    simp only [step]
    cases p.tasks with
    | nil => rfl
    | cons t rest => rfl
  rw [hhead]
  exact h.recorded

theorem sound_replace (h : Sound p done settled) : Sound (p.step A .replace) done settled := by
  have hserial := serial_replace (A := A) h.serial
  unfold step at hserial ⊢
  simp only at hserial ⊢
  split at hserial
  · next hempty =>
    rw [if_pos hempty]
    exact ⟨hserial, recorded_table h.recorded _, h.increasing⟩
  · next hempty =>
    rw [if_neg hempty]
    exact h

theorem sound_step (h : ∃ done settled, Sound p done settled) {event : CursorEvent}
    (hexact : StaysExact p event) : ∃ done settled, Sound (p.step A event) done settled := by
  obtain ⟨done, settled, h⟩ := h
  cases event with
  | handOver handed roomCursorHint => exact ⟨_, _, sound_handOver h handed roomCursorHint⟩
  | task nowSec =>
    cases htasks : p.tasks with
    | nil =>
      refine ⟨done, settled, ?_⟩
      simp only [step, htasks]
      exact h
    | cons t rest =>
      obtain ⟨s', stage', hsteps, heq⟩ := step_task (A := A) h.serial htasks nowSec
      rw [heq]
      exact ⟨_, _, sound_afterTask h htasks hexact hsteps⟩
  | startSync args =>
    exact ⟨_, _, serial_table h.serial p.adapter.issueCursorByRoom _, h.recorded, h.increasing⟩
  | sync i nowSec => exact ⟨_, _, sound_sync h i nowSec⟩
  | replace => exact ⟨_, _, sound_replace h⟩

/-! ### What the store shows -/

/-- A running task has written the event of its own envelope, or none. -/
theorem written_cases (h : Fits settled t) :
    written t = [] ∨ ∃ cursor, written t = [(t.handed.envelope, cursor)] ∧
      pending t = [(t.handed.envelope, cursor)] ∧ t.handed.isIssue = true := by
  unfold written pending
  unfold Fits at h
  split
  · next hstage =>
    rw [hstage] at h
    exact .inr ⟨_, rfl, by rw [hstage], h⟩
  · next hstage =>
    rw [hstage] at h
    exact .inr ⟨_, rfl, by rw [hstage], h⟩
  · next hstage =>
    rw [hstage] at h
    exact .inr ⟨_, rfl, by rw [hstage], h⟩
  · exact .inl rfl

/-- The recorded envelopes are the first ones that were handed over. -/
theorem recorded_front (h : Sound p done settled) : ∃ front,
    front <+: p.handedOver ∧ (p.tasks = [] → front = p.handedOver) ∧
      (settled ++ headWritten p).map Prod.fst =
        (front.filter AcceptedEnvelope.isIssue).map AcceptedEnvelope.envelope ∧
      settled ++ headWritten p <+: p.assigned := by
  have hhanded := h.serial.handedOver
  have hassigned := h.serial.assigned
  have hdone : (settled ++ []).map Prod.fst =
      (done.filter AcceptedEnvelope.isIssue).map AcceptedEnvelope.envelope := by
    rw [List.append_nil]
    exact h.serial.done
  have hplain : settled ++ [] <+: p.assigned := by
    rw [List.append_nil, hassigned]
    exact List.prefix_append _ _
  unfold headWritten
  unfold headPending at hassigned
  cases htasks : p.tasks with
  | nil =>
    rw [htasks, List.map_nil, List.append_nil] at hhanded
    exact ⟨done, hhanded ▸ List.prefix_rfl, fun _ => hhanded.symm, hdone, hplain⟩
  | cons t rest =>
    rw [htasks] at hassigned hhanded
    have hfits := h.serial.head t (by rw [htasks]; rfl)
    simp only [List.head?_cons, Option.elim_some] at hassigned ⊢
    rcases written_cases hfits with hnone | ⟨cursor, hwritten, hpending, hissue⟩
    · rw [hnone]
      exact ⟨done, hhanded ▸ List.prefix_append _ _, fun hnil => (List.cons_ne_nil _ _ hnil).elim,
        hdone, hplain⟩
    · rw [hwritten]
      refine ⟨done ++ [t.handed], ⟨rest.map IssueTask.handed, ?_⟩,
        fun hnil => (List.cons_ne_nil _ _ hnil).elim, ?_, ?_⟩
      · rw [hhanded, List.map_cons, List.append_assoc]
        rfl
      · rw [List.map_append, h.serial.done, List.filter_append, List.map_append,
          List.filter_cons_of_pos hissue]
        rfl
      · exact ⟨[], by rw [hassigned, hpending, List.append_nil]⟩

theorem issuesOf_eq {l : List (Envelope × Nat)} {handed : List AcceptedEnvelope}
    (h : l.map Prod.fst =
      (handed.filter AcceptedEnvelope.isIssue).map AcceptedEnvelope.envelope) (room : String) :
    (l.filter fun e => e.1.room == room).map (fun e => e.1.readBack) = issuesOf room handed := by
  have hleft : (l.filter fun e => e.1.room == room).map (fun e => e.1.readBack) =
      ((l.map Prod.fst).filter fun envelope => envelope.room == room).map Envelope.readBack := by
    rw [List.filter_map, List.map_map]
    rfl
  rw [hleft, h, List.filter_map, List.filter_filter]
  unfold issuesOf
  congr 2
  refine List.filter_congr fun handed _ => ?_
  exact Bool.and_comm _ _

theorem issuesOf_prefix {front handed : List AcceptedEnvelope} (h : front <+: handed)
    (room : String) : issuesOf room front <+: issuesOf room handed :=
  ((h.filter _).map _).map _

theorem cursorsIncrease_of_sound (h : Sound p done settled) (room : String) :
    CursorsIncrease p room := by
  obtain ⟨front, hfront, hall, hmap, hstart⟩ := recorded_front h
  have hevents := h.recorded.events room
  have hcursors : (recordedEvents p.adapter room).map IssueCacheEventRecord.cursor =
      ((settled ++ headWritten p).filter fun e => e.1.room == room).map Prod.snd := by
    have hsnd := congrArg (List.map Prod.snd) hevents
    rw [List.map_map, List.map_map] at hsnd
    exact hsnd
  have henvelopes : (recordedEvents p.adapter room).map IssueCacheEventRecord.envelope =
      issuesOf room front := by
    have hfst := congrArg (List.map Prod.fst) hevents
    rw [List.map_map, List.map_map] at hfst
    exact hfst.trans (issuesOf_eq hmap room)
  refine ⟨fun record hrecord => ?_, ?_, ?_, fun hnil => ?_, fun hidle => ?_⟩
  · have hmem : record.cursor ∈
        ((settled ++ headWritten p).filter fun e => e.1.room == room).map Prod.snd := by
      rw [← hcursors]
      exact List.mem_map_of_mem hrecord
    obtain ⟨e, he, heq⟩ := List.mem_map.mp hmem
    rw [← heq]
    exact h.serial.positive e (hstart.mem (List.mem_of_mem_filter he))
  · refine List.pairwise_map.mp (?_ : ((recordedEvents p.adapter room).map
      IssueCacheEventRecord.cursor).Pairwise (· < ·))
    rw [hcursors, List.pairwise_map, List.pairwise_filter]
    refine (h.increasing.sublist hstart.sublist).imp fun {a b} hlt ha hb => ?_
    exact hlt ((beq_iff_eq.mp ha).trans (beq_iff_eq.mp hb).symm)
  · rw [henvelopes]
    exact issuesOf_prefix hfront room
  · rw [henvelopes, hall hnil]
  · have hpending : headPending p = [] := by
      unfold headPending
      cases htasks : p.tasks with
      | nil => rfl
      | cons t rest =>
        show pending t = []
        unfold pending
        rw [hidle t (by rw [htasks]; exact List.mem_cons_self)]
        rfl
    rw [h.serial.stored, h.serial.assigned, hpending, List.append_nil]

end CursorLemmas

open CursorLemmas CursorRun

/-- As long as the cursors stay exact, the events of every room are recorded under increasing
cursors, in the order in which their envelopes were handed over. -/
theorem issue_cursors_increase {A : CacheAdapterOptions} {events : List CursorEvent}
    (hexact : Along (CursorRun.step A) StaysExact .init events) (room : String) :
    CursorsIncrease (runFrom (CursorRun.step A) .init events) room := by
  obtain ⟨done, settled, h⟩ := Along.invariant (I := fun p => ∃ done settled, Sound p done settled)
    (fun p event hexact h => sound_step (A := A) h hexact) hexact ⟨[], [], sound_init⟩
  exact cursorsIncrease_of_sound h room

/-! ## On the toy host -/

def IssueMessage.accepted (message : IssueMessage) : AcceptedEnvelope :=
  ⟨message.envelope, message.storable, message.topic, message.sender, .inl message.issue⟩

/-- The seven calls of a task. -/
def wholeTask (nowSec : Nat) : List CursorEvent := List.replicate 7 (.task nowSec)

theorem freeText_c : FreeText "c" := by decide

/-- A call of `syncIssues` reads the cursor before the first envelope gets its own and writes it
back after that; a new adapter takes over between the second and the third envelope. -/
def overlappingSync : List CursorEvent :=
  [.startSync ⟨"main", 0, 10, 10⟩, .sync 0 1, .sync 0 1, .sync 0 1,
    .handOver (toyIssueMessage "a" freeText_a).accepted none, .task 1, .task 1, .task 1, .sync 0 1,
    .handOver (toyIssueMessage "b" freeText_b).accepted (some 1)] ++
    wholeTask 2 ++ wholeTask 3 ++
    [.replace, .handOver (toyIssueMessage "c" freeText_c).accepted none] ++ wholeTask 4

theorem issue_cursors_increase_overlapping :
    CursorsIncrease (runFrom (CursorRun.step .toy) .init overlappingSync) "main" :=
  issue_cursors_increase (by decide +kernel) "main"

/-- A hint of 2^53 leads to a cursor that grows no more. -/
def inexactHint : List CursorEvent :=
  .handOver (toyIssueMessage "a" freeText_a).accepted (some 9007199254740992) :: wholeTask 1 ++
    .handOver (toyIssueMessage "b" freeText_b).accepted none :: wholeTask 2

theorem inexact_cursor_reissued :
    ¬ CursorsIncrease (runFrom (CursorRun.step .toy) .init inexactHint) "main" := by
  have hcursors : (recordedEvents (runFrom (CursorRun.step .toy) .init inexactHint).adapter
      "main").map IssueCacheEventRecord.cursor = [9007199254740992, 9007199254740992] := by
    decide +kernel
  intro h
  have hincreasing := List.pairwise_map.mpr h.increasing
  rw [hcursors] at hincreasing
  exact absurd hincreasing (by decide)

end BitRelay
