import BitRelay.Cache.Drops
import BitRelay.Cache.IssuePull
import BitRelay.Lib.Champion

/-!
# The snapshot of an issue

The store keeps one snapshot of each issue. An issue event that is persisted is
compared with the snapshot that is read back from the store, and takes its place
or leaves it: the snapshot is a register that keeps one candidate (`champion`).

Results:
1. `holdsSnapshotOf_persistAll`: after a run, the snapshot of an issue is the
   champion of its events.
2. `last_write_any_order`: under `last_write`, events with distinct timestamps
   leave the latest one, in whatever order they arrive.
3. `preferred_dominates_iff`: when a preferred source prevails, and
   `timestamp_overrules_source`, a run in which it does not.
-/

namespace BitRelay

/-! ## Definitions -/

/-- An issue envelope that is handed to the adapter, and the time at which its task runs. -/
structure HandedIssue where
  message : IssueMessage
  roomCursorHint : Option Int
  nowSec : Nat

section
variable (A : CacheAdapterOptions)

def persistHanded (s : CacheAdapterState) (handed : HandedIssue) : CacheAdapterState :=
  persistEnvelope A handed.message.envelope handed.roomCursorHint s handed.nowSec

/-- The queue runs the tasks one after the other. -/
def persistAll (s : CacheAdapterState) (handed : List HandedIssue) : CacheAdapterState :=
  runFrom (persistHanded A) s handed

/-- No call of the persistence drops the snapshot of the issue: it does not expire, and it is not
evicted. -/
def KeepsSnapshot (room issueId : String) (s : CacheAdapterState) (handed : HandedIssue) : Prop :=
  Along (persistStep A handed.message.envelope handed.roomCursorHint)
    (fun p answer => Drops A handed.message.envelope p answer
      (toStorageKey .object (issueSnapshotStorageKey room issueId)) = false)
    (s, .start) (List.replicate 7 ⟨true, handed.nowSec⟩)

/-- The snapshot of an issue, as it reads back from the store. -/
def storedSnapshot (s : CacheAdapterState) (room issueId : String) :
    Option IssueCacheSnapshotRecord :=
  (s.object? (issueSnapshotStorageKey room issueId)).bind parseIssueCacheSnapshotRecord

/-- The envelope of the stored snapshot. -/
def snapshotEnvelope (s : CacheAdapterState) (room issueId : String) : Option Envelope :=
  (storedSnapshot s room issueId).map IssueCacheSnapshotRecord.envelope

def IssueMessage.isAbout (room issueId : String) (message : IssueMessage) : Bool :=
  message.envelope.room == room && extractIssueIdFromEnvelope message.envelope == issueId

/-- The events of an issue, in the order of their arrival. -/
def eventsAbout (room issueId : String) (handed : List HandedIssue) : List IssueMessage :=
  (handed.map HandedIssue.message).filter (IssueMessage.isAbout room issueId)

def IssueMessage.source (message : IssueMessage) : Option IssueSource :=
  parseIssueSource A message.envelope.payload

def IssueMessage.sourceUpdatedAtMs (message : IssueMessage) : Option Nat :=
  parseIssueSourceUpdatedAtMs A.platform message.envelope.payload

/-- Whether an event takes the place of the event of the stored snapshot. -/
def replacesSnapshot (message stored : IssueMessage) : Bool :=
  shouldUpdateSnapshotBySourcePolicy A.issueSourceOfTruth (message.source A) (stored.source A)
    (message.sourceUpdatedAtMs A) (stored.sourceUpdatedAtMs A)

/-- The store holds the snapshot that was written for `event?`, or none. -/
def HoldsSnapshotOf (s : CacheAdapterState) (room issueId : String) :
    Option IssueMessage → Prop
  | none => storedSnapshot s room issueId = none
  | some message => message.isAbout room issueId = true ∧ ∃ cursor updatedAt, 0 < cursor ∧
      s.object? (issueSnapshotStorageKey room issueId) =
        some (issueSnapshotRequest A message.envelope cursor updatedAt).stored

end

/-! ## What reads back -/

namespace SnapshotLemmas

open WriteLemmas PullLemmas

variable {A : CacheAdapterOptions} {s : CacheAdapterState} {room issueId : String}
  {message : IssueMessage}

theorem isAbout_iff : message.isAbout room issueId = true ↔
    message.envelope.room = room ∧ extractIssueIdFromEnvelope message.envelope = issueId := by
  unfold IssueMessage.isAbout
  rw [Bool.and_eq_true, beq_iff_eq, beq_iff_eq]

theorem snapshotKey_inj {room' issueId' : String} (h : '/' ∉ room.toList) (h' : '/' ∉ room'.toList)
    (heq : issueSnapshotStorageKey room issueId = issueSnapshotStorageKey room' issueId') :
    room = room' ∧ issueId = issueId' := by
  unfold issueSnapshotStorageKey at heq
  rw [String.append_assoc, String.append_assoc, String.append_assoc, String.append_assoc] at heq
  have hrest := append_right_inj heq
  rw [← String.append_assoc, ← String.append_assoc] at hrest
  exact slash_inj h h' hrest

theorem parseRecordSource_ofNat? {parsed : JsonValue} {sourceUpdatedAtMs : Option Nat}
    (h : parsed.get? "source_updated_at_ms" = some (JsonValue.ofNat? sourceUpdatedAtMs).normalize) :
    parseRecordSourceUpdatedAtMs parsed = some sourceUpdatedAtMs := by
  unfold parseRecordSourceUpdatedAtMs
  rw [h]
  cases sourceUpdatedAtMs with
  | none => rfl
  | some ms => exact congrArg (Option.map some) (asNonNegativeInt_ofNat ms)

/-- A snapshot with the envelope of a message reads back. -/
theorem parse_snapshotJson {value : CacheStoreObject} {record : IssueCacheSnapshotRecord}
    (hjson : value.body.json = some record.toJson.normalize)
    (henvelope : record.envelope = message.envelope) (hroom : record.room = message.envelope.room)
    (hid : FreeText record.issueId) (hcursor : 0 < record.lastCursor) :
    parseIssueCacheSnapshotRecord value =
      some { record with envelope := message.envelope.readBack } := by
  obtain ⟨room, issueId, lastCursor, envelope, sourceUpdatedAtMs, updatedAt⟩ := record
  obtain rfl : room = message.envelope.room := hroom
  obtain rfl : envelope = message.envelope := henvelope
  have htrim : trim issueId = issueId := hid.2
  have hne : issueId ≠ "" := hid.1
  generalize hparsed : (IssueCacheSnapshotRecord.mk _ issueId lastCursor _ sourceUpdatedAtMs
    updatedAt).toJson.normalize = parsed at hjson
  have hkind : parsed.get? "kind" = some (.str "issue_snapshot") := by rw [← hparsed]; rfl
  have hversion : parsed.get? "version" = some (.ofNat 1) := by rw [← hparsed]; rfl
  have hroom : parsed.strField "room" = message.envelope.room := by rw [← hparsed]; rfl
  have hissue : parsed.strField "issue_id" = issueId := by rw [← hparsed]; rfl
  have henvelope : parsed.get? "envelope" = some message.envelope.toJson.normalize := by
    rw [← hparsed]; rfl
  have hlast : parsed.get? "last_cursor" = some (.ofNat lastCursor) := by rw [← hparsed]; rfl
  have hupdated : parsed.get? "updated_at" = some (.ofNat updatedAt) := by rw [← hparsed]; rfl
  have hsource : parseRecordSourceUpdatedAtMs parsed = some sourceUpdatedAtMs :=
    parseRecordSource_ofNat? (by rw [← hparsed]; rfl)
  have hback : message.envelope.readBack.room = message.envelope.room := rfl
  obtain ⟨fields, hfields⟩ : ∃ fields, parsed.fields? = some fields := by
    rw [← hparsed]
    exact Option.isSome_iff_exists.mp rfl
  unfold parseIssueCacheSnapshotRecord
  rw [hjson]
  simp only [Option.bind_eq_bind, Option.bind_some, hfields, hkind, hversion, hroom, hissue, htrim,
    henvelope, Option.getD_some, parseEnvelopeRecord_message, message.storable.room, hne, hback,
    hlast, hupdated, hsource, asNonNegativeInt_ofNat, Nat.pos_iff_ne_zero.mp hcursor, ne_eq,
    not_true_eq_false, Bool.true_eq_false, if_false]
  rfl

/-- The snapshot that is written for a message reads back. -/
theorem parse_snapshotRecord (message : IssueMessage) {cursor : Nat} (hcursor : 0 < cursor)
    (updatedAt : Nat) :
    parseIssueCacheSnapshotRecord (issueSnapshotRequest A message.envelope cursor updatedAt).stored =
      some { issueSnapshot A message.envelope cursor updatedAt with
        envelope := message.envelope.readBack } := by
  have hid : FreeText (issueSnapshot A message.envelope cursor updatedAt).issueId := by
    simp only [issueSnapshot]
    exact freeText_extractIssueId message.storable.id
  exact parse_snapshotJson rfl rfl rfl hid hcursor

theorem parseIssueSource_normalize (payload : JsonValue) :
    parseIssueSource A payload.normalize = parseIssueSource A payload := by
  unfold parseIssueSource
  rw [JsonValue.strField_normalize]

theorem storedSnapshot_of_holds (h : HoldsSnapshotOf A s room issueId (some message)) :
    ∃ record, storedSnapshot s room issueId = some record ∧
      record.envelope = message.envelope.readBack ∧
      record.sourceUpdatedAtMs = message.sourceUpdatedAtMs A := by
  obtain ⟨-, cursor, updatedAt, hcursor, hobject⟩ := h
  refine ⟨{ issueSnapshot A message.envelope cursor updatedAt with
    envelope := message.envelope.readBack }, ?_, rfl, rfl⟩
  unfold storedSnapshot
  rw [hobject]
  exact parse_snapshotRecord message hcursor updatedAt

theorem snapshotEnvelope_of_holds {kept : Option IssueMessage}
    (h : HoldsSnapshotOf A s room issueId kept) :
    snapshotEnvelope s room issueId = kept.map fun m => m.envelope.readBack := by
  unfold snapshotEnvelope
  cases kept with
  | none => rw [show storedSnapshot s room issueId = none from h]; rfl
  | some message =>
    obtain ⟨record, hrecord, henvelope, -⟩ := storedSnapshot_of_holds h
    rw [hrecord, Option.map_some, Option.map_some, henvelope]

/-- What the task finds out about the stored snapshot. -/
theorem writesSnapshot_of_holds {kept : Option IssueMessage}
    (h : HoldsSnapshotOf A s message.envelope.room (extractIssueIdFromEnvelope message.envelope)
      kept) :
    writesSnapshot A message.envelope s = kept.all (replacesSnapshot A message) := by
  unfold writesSnapshot updatesSnapshot
  cases kept with
  | none =>
    have hnone : (s.object? _).bind parseIssueCacheSnapshotRecord = none := h
    rw [hnone]
    rfl
  | some stored =>
    obtain ⟨record, hrecord, henvelope, hsource⟩ := storedSnapshot_of_holds h
    have hsome : (s.object? _).bind parseIssueCacheSnapshotRecord = some record := hrecord
    rw [hsome]
    simp only [henvelope, hsource, Envelope.readBack, parseIssueSource_normalize, Option.all_some]
    rfl

/-! ## One persistence -/

section
variable (A) (envelope : Envelope) (roomCursorHint : Option Int) (nowSec : Nat) (key : String)

/-- No call of the task drops the object, from the stage on. -/
def KeepsFrom (n : Nat) (s : CacheAdapterState) (stage : PersistStage) : Prop :=
  Along (persistStep A envelope roomCursorHint)
    (fun p answer => Drops A envelope p answer (toStorageKey .object key) = false)
    (s, ⟨0, stage⟩) (List.replicate n ⟨true, nowSec⟩)

end

section
variable {envelope : Envelope} {roomCursorHint : Option Int} {nowSec n c u : Nat} {key : String}
  {s' : CacheAdapterState} {stage stage' : PersistStage}

theorem keepsFrom_next (hkeeps : KeepsFrom A envelope roomCursorHint nowSec key (n + 1) s stage)
    (hstep : stage.step A envelope roomCursorHint s ⟨true, nowSec⟩ = some (s', stage')) :
    KeepsFrom A envelope roomCursorHint nowSec key n s' stage' := by
  have hrest := hkeeps.2
  rwa [persistStep_of_some (p := (s, ⟨0, stage⟩)) hstep] at hrest

/-- The object behind a call that does not drop it: the put of the call, or as before. -/
theorem object?_next (h : envelope.Storable)
    (hkeeps : KeepsFrom A envelope roomCursorHint nowSec key (n + 1) s stage)
    (hstep : stage.step A envelope roomCursorHint s ⟨true, nowSec⟩ = some (s', stage')) :
    s'.object? key = match stage.request? A envelope nowSec with
      | some request =>
        if toStorageKey .object key = request.storageKey then some request.stored else s.object? key
      | none => s.object? key := by
  have hrecord : (persistStep A envelope roomCursorHint (s, ⟨0, stage⟩)
      ⟨true, nowSec⟩).1.record? (toStorageKey .object key) = _ := record?_of_kept h hkeeps.1
  rwa [persistStep_of_some (p := (s, ⟨0, stage⟩)) hstep] at hrecord

/-- A put of another key. -/
theorem object?_next_of_ne (h : envelope.Storable)
    (hkeeps : KeepsFrom A envelope roomCursorHint nowSec key (n + 1) s stage)
    (hstep : stage.step A envelope roomCursorHint s ⟨true, nowSec⟩ = some (s', stage'))
    (hother : ∀ request, stage.request? A envelope nowSec = some request →
      toStorageKey .object key ≠ request.storageKey) : s'.object? key = s.object? key := by
  rw [object?_next h hkeeps hstep]
  cases hrequest : stage.request? A envelope nowSec with
  | none => rfl
  | some request => exact if_neg (hother request hrequest)

theorem object_ne_storageKey {key' : String} (h : key ≠ key') :
    toStorageKey .object key ≠ toStorageKey .object key' :=
  fun heq => h (toStorageKey_inj heq).2

/-! ### The snapshot from each stage on -/

/-- The snapshot of the issue at the end, by what is stored at the beginning. -/
def SnapshotWritten (A : CacheAdapterOptions) (message : IssueMessage) (room issueId : String)
    (s s' : CacheAdapterState) (c u : Nat) : Prop :=
  s'.object? (issueSnapshotStorageKey room issueId) =
    if message.isAbout room issueId = true ∧ writesSnapshot A message.envelope s = true then
      some (issueSnapshotRequest A message.envelope c u).stored
    else s.object? (issueSnapshotStorageKey room issueId)

/-- What leaves the snapshot alone may come first. -/
theorem snapshotWritten_congr {t : CacheAdapterState}
    (hsame : s'.object? (issueSnapshotStorageKey room issueId) =
      s.object? (issueSnapshotStorageKey room issueId))
    (h : SnapshotWritten A message room issueId s' t c u) :
    SnapshotWritten A message room issueId s t c u := by
  unfold SnapshotWritten at h ⊢
  rw [h, hsame]
  by_cases habout : message.isAbout room issueId = true
  · obtain ⟨rfl, rfl⟩ := isAbout_iff.mp habout
    unfold writesSnapshot
    rw [hsame]
  · rw [if_neg fun hboth => habout hboth.1, if_neg fun hboth => habout hboth.1]

variable (hroom : isValidRoomName room = true)
include hroom

/-- The snapshot that the task writes is the issue's own. -/
theorem snapshot_key_eq_iff : issueSnapshotStorageKey room issueId =
      issueSnapshotStorageKey message.envelope.room (extractIssueIdFromEnvelope message.envelope) ↔
    message.isAbout room issueId = true := by
  rw [isAbout_iff]
  constructor
  · intro heq
    obtain ⟨hroom', hissue⟩ := snapshotKey_inj (slash_notMem_room hroom)
      (slash_notMem_room message.storable.room) heq
    exact ⟨hroom'.symm, hissue.symm⟩
  · rintro ⟨rfl, rfl⟩
    rfl

omit hroom in
theorem snapshot_putCursor (hkeeps : KeepsFrom A message.envelope roomCursorHint nowSec
      (issueSnapshotStorageKey room issueId) (n + 1) s (.putCursor c u)) :
    (resume A message.envelope roomCursorHint (n + 1) nowSec s (.putCursor c u)).object?
        (issueSnapshotStorageKey room issueId) =
      s.object? (issueSnapshotStorageKey room issueId) := by
  have hstep : PersistStage.step A message.envelope roomCursorHint s ⟨true, nowSec⟩
      (.putCursor c u) = some (_, .persisted) :=
    PersistStage.call_putCursor message.storable s ⟨true, nowSec⟩ c u
  rw [resume_succ hstep, resume_persisted]
  refine object?_next_of_ne message.storable hkeeps hstep fun request hrequest => ?_
  cases hrequest
  exact object_ne_storageKey snapshot_ne_cursor

theorem snapshot_putSnapshot (hkeeps : KeepsFrom A message.envelope roomCursorHint nowSec
      (issueSnapshotStorageKey room issueId) (n + 2) s (.putSnapshot c u)) :
    (resume A message.envelope roomCursorHint (n + 2) nowSec s (.putSnapshot c u)).object?
        (issueSnapshotStorageKey room issueId) =
      if message.isAbout room issueId = true then
        some (issueSnapshotRequest A message.envelope c u).stored
      else s.object? (issueSnapshotStorageKey room issueId) := by
  have hstep : PersistStage.step A message.envelope roomCursorHint s ⟨true, nowSec⟩
      (.putSnapshot c u) = some (_, .putCursor c u) :=
    PersistStage.call_putSnapshot message.storable s ⟨true, nowSec⟩ c u
  have hkey : toStorageKey .object (issueSnapshotStorageKey room issueId) =
      (issueSnapshotRequest A message.envelope c u).storageKey ↔
        message.isAbout room issueId = true := by
    rw [← snapshot_key_eq_iff hroom]
    exact ⟨fun heq => (toStorageKey_inj (show toStorageKey .object _ =
      toStorageKey .object _ from heq)).2, fun heq => congrArg (toStorageKey .object) heq⟩
  rw [resume_succ hstep, snapshot_putCursor (keepsFrom_next hkeeps hstep),
    object?_next message.storable hkeeps hstep]
  exact if_congr hkey rfl rfl

theorem snapshot_readSnapshot (hkeeps : KeepsFrom A message.envelope roomCursorHint nowSec
      (issueSnapshotStorageKey room issueId) (n + 3) s (.readSnapshot c u)) :
    SnapshotWritten A message room issueId s
      (resume A message.envelope roomCursorHint (n + 3) nowSec s (.readSnapshot c u)) c u := by
  have hstep : PersistStage.step A message.envelope roomCursorHint s ⟨true, nowSec⟩
      (.readSnapshot c u) = some (s.afterGet nowSec (issueSnapshotStorageKey message.envelope.room
        (extractIssueIdFromEnvelope message.envelope)), if updatesSnapshot A message.envelope
          (s.live? nowSec (issueSnapshotStorageKey message.envelope.room (extractIssueIdFromEnvelope
            message.envelope))) then .putSnapshot c u else .putCursor c u) :=
    PersistStage.call_readSnapshot message.storable s ⟨true, nowSec⟩ c u
  have hnext := object?_next_of_ne message.storable hkeeps hstep fun request hrequest =>
    nomatch hrequest
  have hrest := keepsFrom_next hkeeps hstep
  -- The lookup finds what is stored, since it would drop what has expired.
  have hfound : message.isAbout room issueId = true → updatesSnapshot A message.envelope
      (s.live? nowSec (issueSnapshotStorageKey message.envelope.room (extractIssueIdFromEnvelope
        message.envelope))) = writesSnapshot A message.envelope s := by
    intro habout
    have hkept := hkeeps.1
    rw [snapshot_key_eq_iff hroom |>.mpr habout] at hkept
    unfold Drops at hkept
    simp only [PersistStage.request?, PersistStage.lookup?, Option.any_none, Option.any_some,
      Bool.false_or, Bool.true_and, decide_true] at hkept
    unfold writesSnapshot CacheAdapterState.live?
    rw [hkept, if_neg Bool.false_ne_true]
  unfold SnapshotWritten
  rw [resume_succ hstep]
  cases hupdates : updatesSnapshot A message.envelope (s.live? nowSec (issueSnapshotStorageKey
      message.envelope.room (extractIssueIdFromEnvelope message.envelope))) with
  | true =>
    rw [hupdates, if_pos rfl] at hrest
    rw [hupdates] at hfound
    rw [if_pos rfl, snapshot_putSnapshot hroom hrest, hnext]
    exact if_congr ⟨fun habout => ⟨habout, (hfound habout).symm⟩, And.left⟩ rfl rfl
  | false =>
    rw [hupdates, if_neg Bool.false_ne_true] at hrest
    rw [hupdates] at hfound
    rw [if_neg Bool.false_ne_true, snapshot_putCursor hrest, hnext, if_neg]
    rintro ⟨habout, hwrites⟩
    rw [← hfound habout] at hwrites
    cases hwrites

theorem snapshot_putEvent (hkeeps : KeepsFrom A message.envelope roomCursorHint nowSec
      (issueSnapshotStorageKey room issueId) (n + 4) s (.putEvent c u)) :
    SnapshotWritten A message room issueId s
      (resume A message.envelope roomCursorHint (n + 4) nowSec s (.putEvent c u)) c u := by
  have hstep : PersistStage.step A message.envelope roomCursorHint s ⟨true, nowSec⟩
      (.putEvent c u) = some (_, .readSnapshot c u) :=
    PersistStage.call_putEvent message.storable s ⟨true, nowSec⟩ c u
  rw [resume_succ hstep]
  refine snapshotWritten_congr (object?_next_of_ne message.storable hkeeps hstep fun request
    hrequest => ?_) (snapshot_readSnapshot hroom (keepsFrom_next hkeeps hstep))
  cases hrequest
  exact object_ne_storageKey fun heq => event_ne_snapshot heq.symm

theorem snapshot_readCursor (hkeeps : KeepsFrom A message.envelope roomCursorHint nowSec
      (issueSnapshotStorageKey room issueId) (n + 6) s .readCursor) :
    ∃ cursor, 0 < cursor ∧ SnapshotWritten A message room issueId s
      (resume A message.envelope roomCursorHint (n + 6) nowSec s .readCursor) cursor nowSec := by
  have hstep : PersistStage.step A message.envelope roomCursorHint s ⟨true, nowSec⟩ .readCursor =
      some (s.afterGet nowSec (issueCursorStorageKey message.envelope.room),
        .cursorRead (s.issueCursorByRoom.getD message.envelope.room 0) (cursorOf
          message.envelope.room (s.live? nowSec (issueCursorStorageKey message.envelope.room)))) :=
    PersistStage.call_readCursor message.storable s ⟨true, nowSec⟩
  have hsame := object?_next_of_ne message.storable hkeeps hstep fun request hrequest =>
    nomatch hrequest
  have hrest := keepsFrom_next hkeeps hstep
  rw [resume_succ hstep]
  generalize s.afterGet nowSec (issueCursorStorageKey message.envelope.room) = t at hsame hrest
  -- Between the two calls the cursor is taken, which the store does not see.
  generalize hcursors : (t.issueCursorByRoom.set message.envelope.room _).set
    message.envelope.room _ = cursors
  obtain ⟨cursor, hcursor, hnext⟩ : ∃ cursor, 0 < cursor ∧ nextIssueCursor roomCursorHint
      (max (s.issueCursorByRoom.getD message.envelope.room 0) (cursorOf message.envelope.room
        (s.live? nowSec (issueCursorStorageKey message.envelope.room)))) = cursor :=
    ⟨_, incDouble_pos _, rfl⟩
  have hread : PersistStage.step A message.envelope roomCursorHint t ⟨true, nowSec⟩ (.cursorRead
      (s.issueCursorByRoom.getD message.envelope.room 0) (cursorOf message.envelope.room
        (s.live? nowSec (issueCursorStorageKey message.envelope.room)))) =
      some (⟨t.cacheStore, cursors⟩, .putEvent cursor nowSec) := by
    rw [← hcursors, ← hnext]
    rfl
  have hwritten := snapshot_putEvent hroom (keepsFrom_next hrest hread)
  rw [resume_succ hread]
  exact ⟨cursor, hcursor, snapshotWritten_congr hsame hwritten⟩

variable (issueId) in
/-- What a persistence that keeps the snapshot does to it. -/
theorem object?_persistHanded {handed : HandedIssue} (hkeeps : KeepsSnapshot A room issueId s handed) :
    ∃ cursor, 0 < cursor ∧ SnapshotWritten A handed.message room issueId s
      (persistHanded A s handed) cursor handed.nowSec := by
  obtain ⟨message, roomCursorHint, nowSec⟩ := handed
  have hkeeps : KeepsFrom A message.envelope roomCursorHint nowSec
      (issueSnapshotStorageKey room issueId) 7 s .putEnvelope := hkeeps
  have hstep : PersistStage.step A message.envelope roomCursorHint s ⟨true, nowSec⟩ .putEnvelope =
      some (s.afterPut A (envelopeRequest A message.envelope nowSec) nowSec, .readCursor) := by
    rw [PersistStage.call_putEnvelope message.storable, if_pos rfl, message.issue, if_pos rfl]
  have hresume : persistHanded A s ⟨message, roomCursorHint, nowSec⟩ =
      resume A message.envelope roomCursorHint 7 nowSec s .putEnvelope := rfl
  obtain ⟨cursor, hcursor, hwritten⟩ := snapshot_readCursor hroom (keepsFrom_next hkeeps hstep)
  rw [hresume, resume_succ hstep]
  refine ⟨cursor, hcursor, snapshotWritten_congr (object?_next_of_ne message.storable hkeeps hstep
    fun request hrequest heq => ?_) hwritten⟩
  -- The raw put of an issue is no object.
  cases hrequest
  have hkind := (toStorageKey_inj (show toStorageKey .object (issueSnapshotStorageKey room issueId) =
    toStorageKey (if isIssueTopic message.envelope.topic then .issue else .object) _ from heq)).1
  rw [message.issue] at hkind
  cases hkind

end

/-- A store without limits keeps every snapshot. -/
theorem keepsSnapshot_unlimited (hs : s.Unlimited) (handed : List HandedIssue) :
    Along (persistHanded A) (KeepsSnapshot A room issueId) s handed := by
  have hone : ∀ {s : CacheAdapterState}, s.Unlimited → ∀ handed : HandedIssue,
      KeepsSnapshot A room issueId s handed := by
    intro s hs handed
    have hrun : ∀ (n : Nat) (p : CacheAdapterState × PersistTask), p.1.Unlimited →
        Along (persistStep A handed.message.envelope handed.roomCursorHint)
          (fun p answer => Drops A handed.message.envelope p answer
            (toStorageKey .object (issueSnapshotStorageKey room issueId)) = false)
          p (List.replicate n ⟨true, handed.nowSec⟩) := by
      intro n
      induction n with
      | zero => exact fun _ _ => trivial
      | succ n ih =>
        exact fun p hp => ⟨not_drops_unlimited hp p.2 _ _,
          ih _ ((policy_persistStep handed.message.storable p _).trans hp)⟩
    exact hrun 7 (s, .start) hs
  induction handed generalizing s with
  | nil => trivial
  | cons first rest ih =>
    exact ⟨hone hs first, ih (unlimited_persistEnvelope hs first.message.storable _ _)⟩

theorem persistAll_cons (s : CacheAdapterState) (first : HandedIssue) (rest : List HandedIssue) :
    persistAll A s (first :: rest) = persistAll A (persistHanded A s first) rest :=
  runFrom_cons (persistHanded A) s first rest

theorem eventsAbout_cons (room issueId : String) (first : HandedIssue) (rest : List HandedIssue) :
    eventsAbout room issueId (first :: rest) =
      (if first.message.isAbout room issueId then [first.message] else []) ++
        eventsAbout room issueId rest := by
  unfold eventsAbout
  rw [List.map_cons, List.filter_cons]
  split
  · rfl
  · rfl

/-- The register after one more event. -/
theorem holdsSnapshotOf_persistHanded (hroom : isValidRoomName room = true)
    {kept : Option IssueMessage} (h : HoldsSnapshotOf A s room issueId kept)
    {handed : HandedIssue} (hkeeps : KeepsSnapshot A room issueId s handed) :
    HoldsSnapshotOf A (persistHanded A s handed) room issueId
      (if handed.message.isAbout room issueId then
        keepChampion (replacesSnapshot A) kept handed.message else kept) := by
  obtain ⟨cursor, hcursor, hobject⟩ := object?_persistHanded issueId hroom hkeeps
  unfold SnapshotWritten at hobject
  have hsame : (persistHanded A s handed).object? (issueSnapshotStorageKey room issueId) =
      s.object? (issueSnapshotStorageKey room issueId) →
      HoldsSnapshotOf A (persistHanded A s handed) room issueId kept := by
    intro heq
    cases kept with
    | none =>
      show Option.bind _ _ = none
      rw [heq]
      exact h
    | some stored =>
      show _ ∧ ∃ cursor updatedAt, _ ∧ _ = _
      rw [heq]
      exact h
  split
  · next habout =>
    obtain ⟨rfl, rfl⟩ := isAbout_iff.mp habout
    have hwrites := writesSnapshot_of_holds h
    have hnew : writesSnapshot A handed.message.envelope s = true →
        HoldsSnapshotOf A (persistHanded A s handed) handed.message.envelope.room
          (extractIssueIdFromEnvelope handed.message.envelope) (some handed.message) := by
      intro htrue
      rw [if_pos ⟨habout, htrue⟩] at hobject
      exact ⟨habout, cursor, _, hcursor, hobject⟩
    cases kept with
    | none => exact hnew hwrites
    | some stored =>
      show HoldsSnapshotOf A _ _ _ (some (if replacesSnapshot A handed.message stored then _ else _))
      rw [show writesSnapshot A handed.message.envelope s = replacesSnapshot A handed.message stored
        from hwrites] at hnew hobject
      split
      · next hreplaces => exact hnew hreplaces
      · next hreplaces =>
        rw [if_neg fun hboth => hreplaces hboth.2] at hobject
        exact hsame hobject
  · next habout =>
    rw [if_neg fun hboth => habout hboth.1] at hobject
    exact hsame hobject

end SnapshotLemmas

open SnapshotLemmas

/-! ## All runs -/

section
variable {A : CacheAdapterOptions} {s : CacheAdapterState} {room issueId : String}

/-- After a run, the snapshot of an issue is the champion of its events. -/
theorem holdsSnapshotOf_persistAll (hroom : isValidRoomName room = true)
    (hnone : storedSnapshot s room issueId = none) {handed : List HandedIssue}
    (hkeeps : Along (persistHanded A) (KeepsSnapshot A room issueId) s handed) :
    HoldsSnapshotOf A (persistAll A s handed) room issueId
      (champion (replacesSnapshot A) (eventsAbout room issueId handed)) := by
  have hrun : ∀ (handed : List HandedIssue) (s : CacheAdapterState) (kept : Option IssueMessage),
      Along (persistHanded A) (KeepsSnapshot A room issueId) s handed →
      HoldsSnapshotOf A s room issueId kept →
      HoldsSnapshotOf A (persistAll A s handed) room issueId
        ((eventsAbout room issueId handed).foldl (keepChampion (replacesSnapshot A)) kept) := by
    intro handed
    induction handed with
    | nil => exact fun _ _ _ h => h
    | cons first rest ih =>
      intro s kept hkeeps h
      have hfirst := holdsSnapshotOf_persistHanded hroom h hkeeps.1
      have hrest := ih _ _ hkeeps.2 hfirst
      rw [persistAll_cons, eventsAbout_cons, List.foldl_append]
      split at hrest
      · next habout =>
        rw [if_pos habout]
        exact hrest
      · next habout =>
        rw [if_neg habout]
        exact hrest
  exact hrun handed s none hkeeps hnone

theorem snapshotEnvelope_persistAll (hroom : isValidRoomName room = true)
    (hnone : storedSnapshot s room issueId = none) {handed : List HandedIssue}
    (hkeeps : Along (persistHanded A) (KeepsSnapshot A room issueId) s handed) :
    snapshotEnvelope (persistAll A s handed) room issueId =
      (champion (replacesSnapshot A) (eventsAbout room issueId handed)).map
        fun m => m.envelope.readBack :=
  snapshotEnvelope_of_holds (holdsSnapshotOf_persistAll hroom hnone hkeeps)

end

/-! ## Timestamps -/

section
variable (A : CacheAdapterOptions)

/-- Every event carries a source timestamp, and no two carry the same. -/
def DistinctTimestamps (events : List IssueMessage) : Prop :=
  (∀ m ∈ events, (m.sourceUpdatedAtMs A).isSome = true) ∧
    events.Pairwise fun m m' => m.sourceUpdatedAtMs A ≠ m'.sourceUpdatedAtMs A

/-- No event has a greater timestamp. -/
def IsLatest (events : List IssueMessage) (m : IssueMessage) : Prop :=
  m ∈ events ∧ ∀ m' ∈ events, (m'.sourceUpdatedAtMs A).getD 0 ≤ (m.sourceUpdatedAtMs A).getD 0

end

namespace SnapshotLemmas

variable {A : CacheAdapterOptions} {events : List IssueMessage}

theorem isOlderByTimestamp_of_isSome {t t' : Option Nat} (ht : t.isSome = true)
    (ht' : t'.isSome = true) :
    isOlderByTimestamp t t' = false ↔ t'.getD 0 ≤ t.getD 0 := by
  obtain ⟨n, rfl⟩ := Option.isSome_iff_exists.mp ht
  obtain ⟨n', rfl⟩ := Option.isSome_iff_exists.mp ht'
  simp [isOlderByTimestamp]

/-- Where only the timestamps count, they are the ranks. -/
theorem ranked_of_timestamps (hsome : ∀ m ∈ events, (m.sourceUpdatedAtMs A).isSome = true)
    (hreplaces : ∀ m ∈ events, ∀ m' ∈ events, replacesSnapshot A m m' =
      !isOlderByTimestamp (m.sourceUpdatedAtMs A) (m'.sourceUpdatedAtMs A)) :
    Ranked (replacesSnapshot A) (fun m => (m.sourceUpdatedAtMs A).getD 0) events := by
  intro m hm m' hm'
  rw [hreplaces m hm m' hm', Bool.not_eq_true', isOlderByTimestamp_of_isSome (hsome m hm)
    (hsome m' hm')]

theorem isLatest_champion {m : IssueMessage} (h : Ranked (replacesSnapshot A)
    (fun m => (m.sourceUpdatedAtMs A).getD 0) events)
    (hm : champion (replacesSnapshot A) events = some m) : IsLatest A events m :=
  ⟨champion_mem hm, champion_rank h hm⟩

theorem distinct_ranks (h : DistinctTimestamps A events) : events.Pairwise fun m m' =>
    (m.sourceUpdatedAtMs A).getD 0 ≠ (m'.sourceUpdatedAtMs A).getD 0 := by
  refine h.2.imp_of_mem fun {m m'} hm hm' hne heq => hne ?_
  obtain ⟨n, hn⟩ := Option.isSome_iff_exists.mp (h.1 m hm)
  obtain ⟨n', hn'⟩ := Option.isSome_iff_exists.mp (h.1 m' hm')
  rw [hn, hn'] at heq ⊢
  exact congrArg some heq

theorem eventsAbout_perm {handed handed' : List HandedIssue}
    (h : (handed.map HandedIssue.message).Perm (handed'.map HandedIssue.message))
    (room issueId : String) :
    (eventsAbout room issueId handed).Perm (eventsAbout room issueId handed') :=
  h.filter _

end SnapshotLemmas

/-! ## The last write -/

/-- Events of an issue that carry distinct timestamps leave the snapshot of the latest one, in
whatever order they arrive, and whatever arrives between them. -/
theorem last_write_any_order {A : CacheAdapterOptions} {s : CacheAdapterState}
    (hpolicy : A.issueSourceOfTruth = .lastWrite) (hs : s.Unlimited)
    {handed handed' : List HandedIssue}
    (hperm : (handed.map HandedIssue.message).Perm (handed'.map HandedIssue.message))
    {room issueId : String} (hroom : isValidRoomName room = true)
    (hnone : storedSnapshot s room issueId = none)
    (hdistinct : DistinctTimestamps A (eventsAbout room issueId handed)) :
    snapshotEnvelope (persistAll A s handed) room issueId =
        snapshotEnvelope (persistAll A s handed') room issueId ∧
      (eventsAbout room issueId handed ≠ [] → ∃ m, IsLatest A (eventsAbout room issueId handed) m ∧
        snapshotEnvelope (persistAll A s handed) room issueId = some m.envelope.readBack) := by
  have hreplaces : ∀ m m' : IssueMessage, replacesSnapshot A m m' =
      !isOlderByTimestamp (m.sourceUpdatedAtMs A) (m'.sourceUpdatedAtMs A) := by
    intro m m'
    unfold replacesSnapshot shouldUpdateSnapshotBySourcePolicy
    rw [hpolicy]
    cases isOlderByTimestamp (m.sourceUpdatedAtMs A) (m'.sourceUpdatedAtMs A) <;> rfl
  have hranked := ranked_of_timestamps hdistinct.1 fun m _ m' _ => hreplaces m m'
  rw [snapshotEnvelope_persistAll hroom hnone (keepsSnapshot_unlimited hs handed),
    snapshotEnvelope_persistAll hroom hnone (keepsSnapshot_unlimited hs handed')]
  refine ⟨?_, fun hne => ?_⟩
  · rw [champion_perm (eventsAbout_perm hperm room issueId) hranked (distinct_ranks hdistinct)]
  · obtain ⟨m, hm⟩ := Option.isSome_iff_exists.mp
      (champion_isSome (replacesSnapshot A) hne)
    exact ⟨m, isLatest_champion hranked hm, by rw [hm, Option.map_some]⟩

/-! ## A preferred source -/

section
variable (A : CacheAdapterOptions) (source : IssueSource)

def IssueMessage.isFrom (message : IssueMessage) : Bool := message.source A == some source

/-- Once an event of the source has come, the snapshot is one of them; when they carry distinct
timestamps, it is the latest one. -/
def Prevails (events : List IssueMessage) (snapshot : Option Envelope) : Prop :=
  (∃ m ∈ events, m.isFrom A source = true) →
    ∃ m ∈ events, m.isFrom A source = true ∧ snapshot = some m.envelope.readBack ∧
      (DistinctTimestamps A (events.filter (IssueMessage.isFrom A source)) →
        IsLatest A (events.filter (IssueMessage.isFrom A source)) m)

/-- The first event of the source is older than an event before it, and every event between them
carries a timestamp. -/
def FirstIsOverruled (events : List IssueMessage) : Prop :=
  ∃ front newer rest first back, events = front ++ newer :: rest ++ first :: back ∧
    (∀ m ∈ front ++ newer :: rest, m.isFrom A source = false) ∧ first.isFrom A source = true ∧
    isOlderByTimestamp (first.sourceUpdatedAtMs A) (newer.sourceUpdatedAtMs A) = true ∧
    ∀ m ∈ rest, (m.sourceUpdatedAtMs A).isSome = true

end

namespace SnapshotLemmas

variable {A : CacheAdapterOptions} {source : IssueSource} {events : List IssueMessage}

theorem isOlder_trans {t t' t'' : Option Nat} (h : isOlderByTimestamp t t' = true)
    (h' : isOlderByTimestamp t' t'' = true) : isOlderByTimestamp t t'' = true := by
  cases t with
  | none => cases h
  | some n =>
    cases t' with
    | none => cases h
    | some n' =>
      cases t'' with
      | none => cases h'
      | some n'' =>
        simp only [isOlderByTimestamp, decide_eq_true_eq] at h h' ⊢
        exact h.trans h'

theorem isOlder_of_not_older {t t' t'' : Option Nat} (h : isOlderByTimestamp t t' = true)
    (h' : isOlderByTimestamp t'' t' = false) (hsome : t''.isSome = true) :
    isOlderByTimestamp t t'' = true := by
  obtain ⟨n'', rfl⟩ := Option.isSome_iff_exists.mp hsome
  cases t with
  | none => cases h
  | some n =>
    cases t' with
    | none => cases h
    | some n' =>
      simp only [isOlderByTimestamp, decide_eq_true_eq, decide_eq_false_iff_not, not_lt] at h h' ⊢
      exact h.trans_le h'

theorem isSome_of_isOlder {t t' : Option Nat} (h : isOlderByTimestamp t t' = true) :
    t.isSome = true := by
  cases t with
  | none => cases h
  | some n => rfl

/-- Where only the timestamps count: what is kept is newer than `t` when an event was, and no event
without a timestamp came behind it. -/
theorem older_than_champion_iff (h : ∀ m ∈ events, ∀ m' ∈ events, replacesSnapshot A m m' =
      !isOlderByTimestamp (m.sourceUpdatedAtMs A) (m'.sourceUpdatedAtMs A)) {t : Option Nat} :
    (∃ m, champion (replacesSnapshot A) events = some m ∧
      isOlderByTimestamp t (m.sourceUpdatedAtMs A) = true) ↔
    ∃ front newer rest, events = front ++ newer :: rest ∧
      isOlderByTimestamp t (newer.sourceUpdatedAtMs A) = true ∧
      ∀ m ∈ rest, (m.sourceUpdatedAtMs A).isSome = true := by
  induction events using List.reverseRecOn with
  | nil =>
    constructor
    · rintro ⟨m, hm, -⟩
      cases hm
    · rintro ⟨front, newer, rest, heq, -⟩
      simp at heq
  | append_singleton l a ih =>
    have hl := ih fun m hm m' hm' => h m (List.mem_append_left _ hm) m' (List.mem_append_left _ hm')
    constructor
    · rintro ⟨m, hm, holder⟩
      have hcases : m = a ∨ (champion (replacesSnapshot A) l = some m ∧
          isOlderByTimestamp (a.sourceUpdatedAtMs A) (m.sourceUpdatedAtMs A) = true) := by
        rw [champion_concat] at hm
        cases hkept : champion (replacesSnapshot A) l with
        | none =>
          rw [hkept] at hm
          exact .inl (Option.some.inj hm).symm
        | some b =>
          rw [hkept] at hm
          have hm : (if replacesSnapshot A a b then a else b) = m := Option.some.inj hm
          split at hm
          · exact .inl hm.symm
          · next hdropped =>
            subst hm
            rw [h a (by simp) b (List.mem_append_left _ (champion_mem hkept))] at hdropped
            exact .inr ⟨rfl, by simpa using hdropped⟩
      rcases hcases with rfl | ⟨hkept, hnewer⟩
      · exact ⟨l, m, [], rfl, holder, fun _ hmem => absurd hmem List.not_mem_nil⟩
      · obtain ⟨front, newer, rest, rfl, hfirst, hrest⟩ := hl.mp ⟨m, hkept, holder⟩
        refine ⟨front, newer, rest ++ [a], by simp, hfirst, fun x hx => ?_⟩
        rcases List.mem_append.mp hx with hx | hx
        · exact hrest x hx
        · rw [List.mem_singleton.mp hx]
          exact isSome_of_isOlder hnewer
    · rintro ⟨front, newer, rest, heq, holder, hrest⟩
      have hkept : ∀ b ∈ l, champion (replacesSnapshot A) l = some b →
          ∃ m, champion (replacesSnapshot A) (l ++ [a]) = some m ∧ (m = a ∧
            isOlderByTimestamp (a.sourceUpdatedAtMs A) (b.sourceUpdatedAtMs A) = false ∨ m = b ∧
            isOlderByTimestamp (a.sourceUpdatedAtMs A) (b.sourceUpdatedAtMs A) = true) := by
        intro b hb hchampion
        have hreplaces := h a (by simp) b (List.mem_append_left _ hb)
        rw [champion_concat, hchampion]
        simp only [keepChampion, hreplaces]
        cases isOlderByTimestamp (a.sourceUpdatedAtMs A) (b.sourceUpdatedAtMs A) with
        | false => exact ⟨a, rfl, .inl ⟨rfl, rfl⟩⟩
        | true => exact ⟨b, rfl, .inr ⟨rfl, rfl⟩⟩
      cases hend : rest.reverse with
      | nil =>
        -- The last event is the newer one.
        obtain rfl : rest = [] := by simpa using hend
        obtain ⟨rfl, hlast⟩ := List.append_inj' heq rfl
        obtain rfl : a = newer := (List.cons.inj hlast).1
        by_cases hnil : l = []
        · subst hnil
          exact ⟨a, rfl, holder⟩
        · obtain ⟨b, hb⟩ := Option.isSome_iff_exists.mp
            (champion_isSome (replacesSnapshot A) hnil)
          obtain ⟨m, hm, ⟨rfl, -⟩ | ⟨rfl, hnewer⟩⟩ := hkept b (champion_mem hb) hb
          · exact ⟨m, hm, holder⟩
          · exact ⟨m, hm, isOlder_trans holder hnewer⟩
      | cons last init =>
        obtain rfl : rest = init.reverse ++ [last] := by simpa using congrArg List.reverse hend
        have heq : l ++ [a] = (front ++ newer :: init.reverse) ++ [last] := by simpa using heq
        obtain ⟨rfl, hlast⟩ := List.append_inj' heq rfl
        obtain rfl : a = last := (List.cons.inj hlast).1
        obtain ⟨b, hb, hbolder⟩ := hl.mpr ⟨front, newer, init.reverse, rfl, holder, fun x hx =>
          hrest x (List.mem_append_left _ hx)⟩
        obtain ⟨m, hm, ⟨rfl, hnot⟩ | ⟨rfl, -⟩⟩ := hkept b (champion_mem hb) hb
        · exact ⟨m, hm, isOlder_of_not_older hbolder hnot
            (hrest m (List.mem_append_right _ List.mem_cons_self))⟩
        · exact ⟨m, hm, hbolder⟩

theorem replacesSnapshot_preferred (hpolicy : A.issueSourceOfTruth = .preferred source)
    (m m' : IssueMessage) : replacesSnapshot A m m' =
      (!isOlderByTimestamp (m.sourceUpdatedAtMs A) (m'.sourceUpdatedAtMs A) &&
        !(m'.isFrom A source && !m.isFrom A source)) := by
  unfold replacesSnapshot shouldUpdateSnapshotBySourcePolicy IssueMessage.isFrom
  rw [hpolicy]
  cases isOlderByTimestamp (m.sourceUpdatedAtMs A) (m'.sourceUpdatedAtMs A) <;> rfl

/-- Only events of the source replace an event of the source. -/
theorem protected_source (hpolicy : A.issueSourceOfTruth = .preferred source) :
    Protected (replacesSnapshot A) (IssueMessage.isFrom A source) := by
  intro m m' hm' hm
  rw [replacesSnapshot_preferred hpolicy, hm, hm']
  simp

/-- Until an event of the source comes, only the timestamps count. -/
theorem replacesSnapshot_others (hpolicy : A.issueSourceOfTruth = .preferred source)
    {m' : IssueMessage} (hm' : m'.isFrom A source = false) (m : IssueMessage) :
    replacesSnapshot A m m' =
      !isOlderByTimestamp (m.sourceUpdatedAtMs A) (m'.sourceUpdatedAtMs A) := by
  rw [replacesSnapshot_preferred hpolicy, hm']
  simp

/-- What is kept after the first event of the source. -/
theorem champion_first (hpolicy : A.issueSourceOfTruth = .preferred source)
    {before : List IssueMessage} {first : IssueMessage}
    (hbefore : ∀ m ∈ before, m.isFrom A source = false)
    (hnot : ¬ ∃ m, champion (replacesSnapshot A) before = some m ∧
      isOlderByTimestamp (first.sourceUpdatedAtMs A) (m.sourceUpdatedAtMs A) = true) :
    champion (replacesSnapshot A) (before ++ [first]) = some first := by
  rw [champion_concat]
  cases hkept : champion (replacesSnapshot A) before with
  | none => rfl
  | some b =>
    have hreplaces : replacesSnapshot A first b = true := by
      rw [replacesSnapshot_others hpolicy (hbefore b (champion_mem hkept)), Bool.not_eq_true']
      exact eq_false_of_ne_true fun hold => hnot ⟨b, hkept, hold⟩
    simp only [keepChampion, hreplaces, if_true]

/-- From its first event on, the source prevails. -/
theorem prevails_of_first (hpolicy : A.issueSourceOfTruth = .preferred source)
    {before back : List IssueMessage} {first : IssueMessage}
    (hbefore : ∀ m ∈ before, m.isFrom A source = false) (hfirst : first.isFrom A source = true)
    (hnot : ¬ ∃ m, champion (replacesSnapshot A) before = some m ∧
      isOlderByTimestamp (first.sourceUpdatedAtMs A) (m.sourceUpdatedAtMs A) = true) :
    Prevails A source (before ++ first :: back)
      ((champion (replacesSnapshot A) (before ++ first :: back)).map
        fun m => m.envelope.readBack) := by
  have hfiltered : (before ++ first :: back).filter (IssueMessage.isFrom A source) =
      first :: back.filter (IssueMessage.isFrom A source) := by
    rw [List.filter_append, List.filter_cons_of_pos hfirst, List.filter_eq_nil_iff.mpr]
    · rfl
    · intro m hm
      simp [hbefore m hm]
  have hchampion : champion (replacesSnapshot A) (before ++ first :: back) =
      champion (replacesSnapshot A) (first :: back.filter (IssueMessage.isFrom A source)) := by
    rw [← foldl_keep_of_protected (protected_source hpolicy) hfirst,
      ← champion_first hpolicy hbefore hnot]
    unfold champion
    rw [← List.foldl_append, List.append_assoc]
    rfl
  obtain ⟨m, hm⟩ := Option.isSome_iff_exists.mp (champion_isSome (replacesSnapshot A)
    (List.cons_ne_nil first (back.filter (IssueMessage.isFrom A source))))
  have hmem := champion_mem hm
  rw [← hfiltered] at hmem
  intro _
  refine ⟨m, (List.mem_filter.mp hmem).1, (List.mem_filter.mp hmem).2, ?_, fun hdistinct => ?_⟩
  · rw [hchampion, hm, Option.map_some]
  · rw [hfiltered] at hdistinct ⊢
    refine isLatest_champion (ranked_of_timestamps hdistinct.1 fun x hx y hy => ?_) hm
    have hsource : ∀ z ∈ first :: back.filter (IssueMessage.isFrom A source),
        z.isFrom A source = true := by
      intro z hz
      rw [← hfiltered] at hz
      exact (List.mem_filter.mp hz).2
    rw [replacesSnapshot_preferred hpolicy, hsource x hx, hsource y hy]
    simp

/-- The first event of a source, if there is one. -/
theorem exists_first (h : ∃ m ∈ events, m.isFrom A source = true) :
    ∃ before first back, events = before ++ first :: back ∧
      (∀ m ∈ before, m.isFrom A source = false) ∧ first.isFrom A source = true := by
  induction events with
  | nil =>
    obtain ⟨m, hm, -⟩ := h
    exact absurd hm List.not_mem_nil
  | cons x rest ih =>
    cases hx : x.isFrom A source with
    | true => exact ⟨[], x, rest, rfl, fun _ hm => absurd hm List.not_mem_nil, hx⟩
    | false =>
      have hrest : ∃ m ∈ rest, m.isFrom A source = true := by
        obtain ⟨m, hm, hfrom⟩ := h
        rcases List.mem_cons.mp hm with rfl | hm
        · rw [hx] at hfrom
          cases hfrom
        · exact ⟨m, hm, hfrom⟩
      obtain ⟨before, first, back, rfl, hbefore, hfirst⟩ := ih hrest
      refine ⟨x :: before, first, back, rfl, fun m hm => ?_, hfirst⟩
      rcases List.mem_cons.mp hm with rfl | hm
      · exact hx
      · exact hbefore m hm

theorem eventsAbout_append (room issueId : String) (front back : List HandedIssue) :
    eventsAbout room issueId (front ++ back) =
      eventsAbout room issueId front ++ eventsAbout room issueId back := by
  unfold eventsAbout
  rw [List.map_append, List.filter_append]

theorem exists_split {room issueId : String} {handed : List HandedIssue}
    {front back : List IssueMessage} (h : eventsAbout room issueId handed = front ++ back) :
    ∃ handed₁ handed₂, handed = handed₁ ++ handed₂ ∧ eventsAbout room issueId handed₁ = front := by
  obtain ⟨messages₁, messages₂, hmap, hfront, -⟩ := List.filter_eq_append_iff.mp h
  obtain ⟨handed₁, handed₂, rfl, rfl, -⟩ := List.map_eq_append_iff.mp hmap
  exact ⟨handed₁, handed₂, rfl, hfront⟩

end SnapshotLemmas

/-- After every persistence of a run that keeps the snapshot the preferred source prevails, exactly
when its first event is not overruled by a timestamp. -/
theorem preferred_dominates_iff {A : CacheAdapterOptions} {s : CacheAdapterState}
    {source : IssueSource} (hpolicy : A.issueSourceOfTruth = .preferred source)
    {room issueId : String} (hroom : isValidRoomName room = true)
    (hnone : storedSnapshot s room issueId = none) {handed : List HandedIssue}
    (hkeeps : Along (persistHanded A) (KeepsSnapshot A room issueId) s handed) :
    (∀ front back, handed = front ++ back →
      Prevails A source (eventsAbout room issueId front)
        (snapshotEnvelope (persistAll A s front) room issueId)) ↔
      ¬ FirstIsOverruled A source (eventsAbout room issueId handed) := by
  constructor
  · rintro h ⟨front, newer, rest, first, back, hevents, hbefore, hfirst, holder, hrest⟩
    have hevents' : eventsAbout room issueId handed =
        (front ++ newer :: rest ++ [first]) ++ back := by
      rw [hevents, List.append_assoc _ [first]]
      rfl
    obtain ⟨handed₁, handed₂, rfl, hfront⟩ := exists_split hevents'
    obtain ⟨m, -, hm, hsnapshot, -⟩ := h handed₁ handed₂ rfl
      ⟨first, by simp [hfront], hfirst⟩
    -- The first event of the source was dropped, so an event of another source is kept.
    obtain ⟨b, hb, hbolder⟩ := (older_than_champion_iff fun x _ y hy =>
      replacesSnapshot_others hpolicy (hbefore y hy) x).mpr ⟨front, newer, rest, rfl, holder, hrest⟩
    have hother := hbefore b (champion_mem hb)
    have hkept : champion (replacesSnapshot A) (front ++ newer :: rest ++ [first]) = some b := by
      rw [champion_concat, hb]
      simp only [keepChampion, replacesSnapshot_others hpolicy hother, hbolder, Bool.not_true,
        Bool.false_eq_true, if_false]
    rw [snapshotEnvelope_persistAll hroom hnone (along_append.mp hkeeps).1, hfront, hkept]
      at hsnapshot
    have hsame : b.source A = m.source A := by
      have hpayload := congrArg Envelope.payload (Option.some.inj hsnapshot)
      have hpayload : b.envelope.payload.normalize = m.envelope.payload.normalize := hpayload
      unfold IssueMessage.source
      rw [← parseIssueSource_normalize, hpayload, parseIssueSource_normalize]
    unfold IssueMessage.isFrom at hm hother
    rw [hsame, hm] at hother
    cases hother
  · rintro hnot front back rfl hsource
    rw [snapshotEnvelope_persistAll hroom hnone (along_append.mp hkeeps).1]
    obtain ⟨before, first, later, hevents, hbefore, hfirst⟩ := exists_first hsource
    rw [hevents]
    refine prevails_of_first hpolicy hbefore hfirst ?_ ⟨first, by simp, hfirst⟩
    intro hold
    obtain ⟨front', newer, rest, rfl, holder, hrest⟩ := (older_than_champion_iff fun x _ y hy =>
      replacesSnapshot_others hpolicy (hbefore y hy) x).mp hold
    refine hnot ⟨front', newer, rest, first, later ++ eventsAbout room issueId back, ?_, hbefore,
      hfirst, holder, hrest⟩
    rw [eventsAbout_append, hevents, List.append_assoc]
    rfl

/-! ## On the toy host -/

/-- An event of the issue `7` of the room `main`. -/
def sourcedIssue (id : String) (hid : FreeText id) (source : String) (ms : Nat) : IssueMessage where
  envelope := ⟨"main", id, "alice", "issue", .obj [("issue_id", .str "7"), ("source", .str source),
    ("source_updated_at_ms", .ofNat ms)], none⟩
  storable := ⟨isValidRoomName_main, hid⟩
  topic := isValidTopic_issue
  issue := isIssueTopic_issue
  sender := trim_alice_ne

def bitIssue : IssueMessage := sourcedIssue "b" freeText_b "bit" 10

theorem freeText_g : FreeText "g" := by decide

def gitHubIssue : IssueMessage := sourcedIssue "g" freeText_g "github" 5

theorem last_write_any_order_two :
    snapshotEnvelope (persistAll .toy .toy [⟨bitIssue, none, 1⟩, ⟨gitHubIssue, none, 2⟩]) "main" "7" =
        snapshotEnvelope (persistAll .toy .toy [⟨gitHubIssue, none, 1⟩, ⟨bitIssue, some 4, 2⟩])
          "main" "7" ∧
      (eventsAbout "main" "7" [⟨bitIssue, none, 1⟩, ⟨gitHubIssue, none, 2⟩] ≠ [] → ∃ m,
        IsLatest .toy (eventsAbout "main" "7" [⟨bitIssue, none, 1⟩, ⟨gitHubIssue, none, 2⟩]) m ∧
          snapshotEnvelope (persistAll .toy .toy [⟨bitIssue, none, 1⟩, ⟨gitHubIssue, none, 2⟩])
            "main" "7" = some m.envelope.readBack) := by
  have hperm : ([⟨bitIssue, none, 1⟩, ⟨gitHubIssue, none, 2⟩].map HandedIssue.message).Perm
      ([⟨gitHubIssue, none, 1⟩, ⟨bitIssue, some 4, 2⟩].map HandedIssue.message) :=
    List.Perm.swap _ _ _
  exact last_write_any_order (A := .toy) (s := .toy) rfl rfl hperm (by decide) rfl
    ⟨by decide, by decide⟩

/-- GitHub is the source of truth. -/
def gitHubOptions : CacheAdapterOptions :=
  { CacheAdapterOptions.toy with issueSourceOfTruth := .preferred .github }

theorem preferred_dominates_iff_two :
    (∀ front back, [⟨gitHubIssue, none, 1⟩, ⟨bitIssue, none, 2⟩] = front ++ back →
      Prevails gitHubOptions .github (eventsAbout "main" "7" front)
        (snapshotEnvelope (persistAll gitHubOptions .toy front) "main" "7")) ↔
      ¬ FirstIsOverruled gitHubOptions .github
        (eventsAbout "main" "7" [⟨gitHubIssue, none, 1⟩, ⟨bitIssue, none, 2⟩]) :=
  preferred_dominates_iff (A := gitHubOptions) (s := .toy) rfl (by decide) rfl
    (keepsSnapshot_unlimited (s := .toy) rfl _)

/-- The event of GitHub is older than the event of bit that is stored, and is dropped. -/
theorem timestamp_overrules_source :
    ¬ Prevails gitHubOptions .github
      (eventsAbout "main" "7" [⟨bitIssue, none, 1⟩, ⟨gitHubIssue, none, 2⟩])
      (snapshotEnvelope (persistAll gitHubOptions .toy
        [⟨bitIssue, none, 1⟩, ⟨gitHubIssue, none, 2⟩]) "main" "7") := by
  have hevents : eventsAbout "main" "7" [⟨bitIssue, none, 1⟩, ⟨gitHubIssue, none, 2⟩] =
      [bitIssue, gitHubIssue] := rfl
  have hsnapshot : snapshotEnvelope (persistAll gitHubOptions .toy
      [⟨bitIssue, none, 1⟩, ⟨gitHubIssue, none, 2⟩]) "main" "7" = some bitIssue.envelope.readBack := by
    have hlimits : CacheAdapterState.Unlimited .toy := rfl
    have hkeeps : Along (persistHanded gitHubOptions) (KeepsSnapshot gitHubOptions "main" "7")
        .toy [⟨bitIssue, none, 1⟩, ⟨gitHubIssue, none, 2⟩] := keepsSnapshot_unlimited hlimits _
    rw [snapshotEnvelope_persistAll (A := gitHubOptions) (s := .toy) (by decide) rfl hkeeps, hevents]
    rfl
  intro h
  rw [hevents, hsnapshot] at h
  obtain ⟨m, hm, hfrom, hsame, -⟩ := h ⟨gitHubIssue, by simp, by decide⟩
  rcases List.mem_cons.mp hm with rfl | hm
  · exact absurd hfrom (by decide)
  · rw [List.mem_singleton.mp hm] at hsame
    exact absurd (congrArg Envelope.id (Option.some.inj hsame)) (by decide)

end BitRelay
