import BitRelay.Cache.Filed
import BitRelay.Cache.IssueSnapshots
import BitRelay.Cache.RecordedCursors

/-!
# Issue records read back

A persistence builds its records from a payload of any shape, and the readers check every
field of a record with rules of their own. Here the store may let its records expire and
evict them, and its calls may throw: whatever a run of the persistence leaves in the store
that was not there before is read back.

Results:
1. `written_step`: one step of the task writes nothing that is not read back.
2. `issue_records_read_back`: the four records of every cursor, and all records of a run.
-/

namespace BitRelay

/-! ## Records of an envelope -/

/-- A record that was written for an issue envelope, and what its reader finds in it. -/
inductive WrittenFor (A : CacheAdapterOptions) (envelope : Envelope) (value : CacheStoreObject) :
    String → Prop
  | envelope (body : value.body = A.platform.stringify envelope.toJson)
      (reads : parseCachedIssueEnvelope value = some envelope.readBack) :
      WrittenFor A envelope value
        (toStorageKey .issue (envelopeStorageKey envelope.room envelope.id))
  | event (cursor updatedAt : Nat) (positive : 1 ≤ cursor)
      (body : value.body =
        A.platform.stringify (issueEvent A envelope cursor updatedAt).toJson)
      (reads : parseIssueCacheEventRecord value =
        some { issueEvent A envelope cursor updatedAt with envelope := envelope.readBack }) :
      WrittenFor A envelope value
        (toStorageKey .object (issueEventStorageKey envelope.room cursor envelope.id))
  | snapshot (cursor updatedAt : Nat) (positive : 1 ≤ cursor)
      (body : value.body =
        A.platform.stringify (issueSnapshot A envelope cursor updatedAt).toJson)
      (reads : parseIssueCacheSnapshotRecord value =
        some { issueSnapshot A envelope cursor updatedAt with envelope := envelope.readBack }) :
      WrittenFor A envelope value (toStorageKey .object
        (issueSnapshotStorageKey envelope.room (extractIssueIdFromEnvelope envelope)))
  | cursor (cursor updatedAt : Nat) (positive : 1 ≤ cursor)
      (body : value.body =
        A.platform.stringify (issueCursorRecord envelope cursor updatedAt).toJson)
      (reads : parseIssueCacheCursorRecord value =
        some (issueCursorRecord envelope cursor updatedAt)) :
      WrittenFor A envelope value (toStorageKey .object (issueCursorStorageKey envelope.room))

/-- The cursor that a stage carries is positive. -/
def PersistStage.Positive : PersistStage → Prop
  | putEvent issueCursor _ | readSnapshot issueCursor _ | putSnapshot issueCursor _
  | putCursor issueCursor _ => 1 ≤ issueCursor
  | putEnvelope | readCursor | cursorRead _ _ | persisted | failed => True

/-- Every record in the store was there before or was written for the envelope. -/
def AddsWritten (A : CacheAdapterOptions) (envelope : Envelope) (old s : CacheAdapterState) : Prop :=
  ∀ storageKey value, s.record? storageKey = some value →
    old.record? storageKey = some value ∨ WrittenFor A envelope value storageKey

namespace ReadBackLemmas

open CursorLemmas FiledLemmas PullLemmas SnapshotLemmas

variable {A : CacheAdapterOptions} {old s s' : CacheAdapterState} {message : IssueMessage}
  {roomCursorHint : Option Int} {answer : StoreAnswer}

/-! ## Readers look at the body alone -/

theorem parseCachedIssueEnvelope_body {value value' : CacheStoreObject}
    (h : value.body = value'.body) :
    parseCachedIssueEnvelope value = parseCachedIssueEnvelope value' := by
  unfold parseCachedIssueEnvelope
  rw [h]

theorem parseIssueCacheCursorRecord_body {value value' : CacheStoreObject}
    (h : value.body = value'.body) :
    parseIssueCacheCursorRecord value = parseIssueCacheCursorRecord value' := by
  unfold parseIssueCacheCursorRecord
  rw [h]

theorem freeText_issueId (message : IssueMessage) (cursor updatedAt : Nat) :
    FreeText (issueEvent A message.envelope cursor updatedAt).issueId := by
  dsimp only [issueEvent]
  exact freeText_extractIssueId message.storable.id

theorem freeText_action (message : IssueMessage) (cursor updatedAt : Nat) :
    FreeText (issueEvent A message.envelope cursor updatedAt).action :=
  freeText_deriveIssueAction message.envelope

/-! ## The four requests -/

theorem written_envelope (message : IssueMessage) {value : CacheStoreObject}
    (hbody : value.body = A.platform.stringify message.envelope.toJson) :
    WrittenFor A message.envelope value
      (toStorageKey .issue (envelopeStorageKey message.envelope.room message.envelope.id)) := by
  have hsame : value.body = (storedMessage A (message, 0)).body := hbody
  exact .envelope hbody ((parseCachedIssueEnvelope_body hsame).trans (parse_storedMessage _))

theorem written_event (message : IssueMessage) {value : CacheStoreObject} {cursor updatedAt : Nat}
    (hpos : 1 ≤ cursor) (hbody : value.body =
      A.platform.stringify (issueEvent A message.envelope cursor updatedAt).toJson) :
    WrittenFor A message.envelope value (toStorageKey .object
      (issueEventStorageKey message.envelope.room cursor message.envelope.id)) := by
  have hjson : value.body.json =
      some (issueEvent A message.envelope cursor updatedAt).toJson.normalize := by
    rw [hbody]
    rfl
  exact .event cursor updatedAt hpos hbody (parse_eventJson message hjson rfl rfl
    (freeText_issueId message cursor updatedAt) (freeText_action message cursor updatedAt) hpos)

theorem written_snapshot (message : IssueMessage) {value : CacheStoreObject}
    {cursor updatedAt : Nat} (hpos : 1 ≤ cursor) (hbody : value.body =
      A.platform.stringify (issueSnapshot A message.envelope cursor updatedAt).toJson) :
    WrittenFor A message.envelope value (toStorageKey .object (issueSnapshotStorageKey
      message.envelope.room (extractIssueIdFromEnvelope message.envelope))) := by
  have hjson : value.body.json =
      some (issueSnapshot A message.envelope cursor updatedAt).toJson.normalize := by
    rw [hbody]
    rfl
  have hid : FreeText (issueSnapshot A message.envelope cursor updatedAt).issueId := by
    dsimp only [issueSnapshot]
    exact freeText_extractIssueId message.storable.id
  exact .snapshot cursor updatedAt hpos hbody (parse_snapshotJson hjson rfl rfl hid hpos)

theorem written_cursor (message : IssueMessage) {value : CacheStoreObject}
    {cursor updatedAt : Nat} (hpos : 1 ≤ cursor) (hbody : value.body =
      A.platform.stringify (issueCursorRecord message.envelope cursor updatedAt).toJson) :
    WrittenFor A message.envelope value
      (toStorageKey .object (issueCursorStorageKey message.envelope.room)) := by
  have hsame : value.body = (issueCursorRequest A message.envelope cursor updatedAt).stored.body :=
    hbody
  exact .cursor cursor updatedAt hpos hbody ((parseIssueCacheCursorRecord_body hsame).trans
    (parse_cursorRecord message.storable.room cursor updatedAt))

/-! ## Calls of the store -/

theorem addsWritten_put (h : AddsWritten A message.envelope old s) {request : CacheStorePutRequest}
    (hkey : FreeText request.key) (hput : putCacheJsonObject A request s answer = some s')
    (hwritten : ∀ value : CacheStoreObject, value.body = request.body →
      WrittenFor A message.envelope value (toStorageKey request.kind request.key)) :
    AddsWritten A message.envelope old s' := by
  intro storageKey value hvalue
  rcases record?_of_put hput hvalue with hold | ⟨key, hnormal, rfl, rfl⟩
  · exact h storageKey value hold
  · obtain rfl := Except.ok.inj ((normalizeKey_trimmed hkey.2 hkey.1).symm.trans hnormal)
    exact .inr (hwritten _ rfl)

theorem positive_ite (c : Bool) {stage stage' : PersistStage} (h : stage.Positive)
    (h' : stage'.Positive) : (if c then stage else stage').Positive := by
  cases c with
  | true => exact h
  | false => exact h'

theorem addsWritten_get (h : AddsWritten A message.envelope old s) (key : String) :
    AddsWritten A message.envelope old ((getCacheObject key s answer).getD (none, s)).2 :=
  fun storageKey value hvalue => h storageKey value (record?_of_get hvalue)

end ReadBackLemmas

open ReadBackLemmas

section
variable {A : CacheAdapterOptions} {message : IssueMessage} {roomCursorHint : Option Int}
  {old s s' : CacheAdapterState} {answer : StoreAnswer} {stage stage' : PersistStage}

/-- One call of the task keeps the invariant. -/
theorem written_step (hstage : stage.Positive) (h : AddsWritten A message.envelope old s)
    (hstep : stage.step A message.envelope roomCursorHint s answer = some (s', stage')) :
    stage'.Positive ∧ AddsWritten A message.envelope old s' := by
  cases stage with
  | putEnvelope =>
    obtain ⟨s₁, hput, hrest⟩ := Option.bind_eq_some_iff.mp hstep
    cases hrest
    refine ⟨by split <;> trivial, addsWritten_put h ?_ hput fun value hbody => ?_⟩
    · exact freeText_envelopeKey (freeText_room message.storable.room) message.storable.id
    · show WrittenFor A message.envelope value (toStorageKey (if isIssueTopic _ then _ else _) _)
      rw [message.issue]
      exact written_envelope message hbody
  | readCursor =>
    cases hstep
    exact ⟨trivial, addsWritten_get h _⟩
  | cursorRead inMemory cached =>
    cases hstep
    exact ⟨incDouble_pos _, h⟩
  | putEvent issueCursor updatedAt =>
    obtain ⟨s₁, hput, hrest⟩ := Option.bind_eq_some_iff.mp hstep
    cases hrest
    refine ⟨hstage, addsWritten_put h ?_ hput fun value hbody => ?_⟩
    · exact freeText_event issueCursor message.storable.id
    · exact written_event message hstage hbody
  | readSnapshot issueCursor updatedAt =>
    cases hstep
    exact ⟨positive_ite _ hstage hstage, addsWritten_get h _⟩
  | putSnapshot issueCursor updatedAt =>
    obtain ⟨s₁, hput, hrest⟩ := Option.bind_eq_some_iff.mp hstep
    cases hrest
    refine ⟨hstage, addsWritten_put h ?_ hput fun value hbody => ?_⟩
    · exact freeText_snapshot (freeText_extractIssueId message.storable.id)
    · exact written_snapshot message hstage hbody
  | putCursor issueCursor updatedAt =>
    obtain ⟨s₁, hput, hrest⟩ := Option.bind_eq_some_iff.mp hstep
    cases hrest
    refine ⟨trivial, addsWritten_put h ?_ hput fun value hbody => ?_⟩
    · exact freeText_cursor (freeText_room message.storable.room)
    · exact written_cursor message hstage hbody
  | persisted | failed =>
    cases hstep
    exact ⟨trivial, h⟩

/-- A whole run of the task, with its retries. -/
theorem written_run (A : CacheAdapterOptions) (message : IssueMessage) (roomCursorHint : Option Int)
    (s : CacheAdapterState) (answers : List StoreAnswer) :
    AddsWritten A message.envelope s
      (persistRun A message.envelope roomCursorHint s answers).1 := by
  have hstart : PersistTask.start.stage.Positive := trivial
  refine (runFrom_invariant (I := fun p : CacheAdapterState × PersistTask => p.2.stage.Positive ∧
    AddsWritten A message.envelope s p.1) (fun p answer hp => ?_) answers ⟨hstart, ?_⟩).2
  · unfold persistStep
    cases hstep : p.2.stage.step A message.envelope roomCursorHint p.1 answer with
    | none =>
      refine ⟨?_, hp.2⟩
      simp only [PersistTask.retry]
      split <;> trivial
    | some next => exact written_step hp.1 hp.2 hstep
  · exact fun storageKey value h => .inl h

end

/-- The records of an issue envelope read back as they were written, whatever its payload, the
policy of the store and the state of the adapter, and a run of its persistence leaves no other new
record. -/
theorem issue_records_read_back (A : CacheAdapterOptions) (message : IssueMessage) :
    (∀ cursor updatedAt, 1 ≤ cursor →
      parseCachedIssueEnvelope (envelopeRequest A message.envelope updatedAt).stored =
          some message.envelope.readBack ∧
        parseIssueCacheEventRecord (issueEventRequest A message.envelope cursor updatedAt).stored =
          some { issueEvent A message.envelope cursor updatedAt with
            envelope := message.envelope.readBack } ∧
        parseIssueCacheSnapshotRecord
            (issueSnapshotRequest A message.envelope cursor updatedAt).stored =
          some { issueSnapshot A message.envelope cursor updatedAt with
            envelope := message.envelope.readBack } ∧
        parseIssueCacheCursorRecord (issueCursorRequest A message.envelope cursor updatedAt).stored =
          some (issueCursorRecord message.envelope cursor updatedAt)) ∧
      ∀ roomCursorHint s answers storageKey value,
        (persistRun A message.envelope roomCursorHint s answers).1.record? storageKey = some value →
          s.record? storageKey = some value ∨ WrittenFor A message.envelope value storageKey := by
  refine ⟨fun cursor updatedAt hcursor => ⟨?_, ?_, ?_, ?_⟩, fun roomCursorHint s answers =>
    written_run A message roomCursorHint s answers⟩
  · exact PullLemmas.parse_storedMessage (message, updatedAt)
  · exact CursorLemmas.parse_eventJson message rfl rfl rfl
      (freeText_issueId message cursor updatedAt) (freeText_action message cursor updatedAt) hcursor
  · exact SnapshotLemmas.parse_snapshotRecord message hcursor updatedAt
  · exact CursorLemmas.parse_cursorRecord message.storable.room cursor updatedAt

/-- A payload with numbers that JSON cannot write. -/
def toyNumbers : JsonValue :=
  .obj [("issue_id", .str "a "), ("weight", .num .posInf), ("rank", .num .negZero)]

def toyNumbersMessage : IssueMessage where
  envelope := ⟨"main", "a", "alice", "issue", toyNumbers, none⟩
  storable := ⟨isValidRoomName_main, freeText_a⟩
  topic := isValidTopic_issue
  issue := isIssueTopic_issue
  sender := trim_alice_ne

theorem issue_records_read_back_toy :
    parseIssueCacheEventRecord
        (issueEventRequest .toy toyNumbersMessage.envelope 1 5).stored =
      some ⟨"main", 1, "a", "upsert", ⟨"main", "a", "alice", "issue", .obj [
        ("issue_id", .str "a "), ("weight", .null), ("rank", .ofInt 0)], none⟩, none, 5⟩ := by
  refine ((issue_records_read_back .toy toyNumbersMessage).1 1 5 (Nat.le_refl 1)).2.1.trans ?_
  decide

end BitRelay
