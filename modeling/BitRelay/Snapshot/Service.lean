import BitRelay.Snapshot.Rooms

/-!
# The snapshot of the whole service

`snapshot` hands out one plain object for the rooms, the keys, the nonces, the
exchange log, the cursors of the cache adapter and the webhook deliveries.
`restore` clears the service and reads such an object back; each part that is
missing or has the wrong shape is skipped. Without exchange records in the
snapshot, every restored message is recorded for the exchange anew.

What the cache adapter does with its cursors and how `JSON.parse` reads the body
of a queued delivery are parameters (`Archive`).

Results:
1. `roomOf_restore`: a room that has a proper name is read back.
2. `roomOf_restore_of_invalid`: no other room is.
-/

namespace BitRelay

/-- What a snapshot takes from outside the service. -/
structure Archive (C : Type) where
  /-- the assignments of `cacheAdapter.snapshotIssueCursors()` -/
  snapshotIssueCursors : C → List (String × Nat)
  /-- `cacheAdapter.restoreIssueCursors(snapshot)` -/
  restoreIssueCursors : C → Option JsonValue → C
  /-- `JSON.parse(text)` -/
  parseBody : String → Option JsonValue

/-- An archive without a cache. -/
def Archive.toy : Archive Unit := ⟨fun _ => [], fun _ _ => (), fun _ => none⟩

section
variable {C : Type} (R : Relay C) (A : Archive C)

/-! ## Reading the exchange log -/

/-- The envelope of a record: an empty object when there is none. -/
def recordEnvelope (value : JsonValue) : JsonValue := (value.objField? "envelope").getD (.obj [])

/-- A record of `cache_exchange`. -/
def readRecord (value : JsonValue) : CacheExchangeRecord :=
  let envelope := recordEnvelope value
  { cursor := ((value.truncField? "cursor").getD 0).toNat
    envelope := {
      room := envelope.strField "room"
      id := envelope.strField "id"
      sender := envelope.strField "sender"
      topic := envelope.strField "topic"
      payload := (envelope.get? "payload").getD .null
      signature := match envelope.get? "signature" with
        | some (.str signature) => some signature
        | _ => none }
    origin := trim (value.strField "origin")
    hopCount := (max 0 ((value.truncField? "hop_count").getD 0)).toNat
    maxHops := ((value.truncField? "max_hops").elim (R.config.cacheExchangeMaxHops : Int)
      (max 1)).toNat }

/-- The records that are not skipped. -/
def KeepsRecord (value : JsonValue) : Prop :=
  (value.objField? "envelope").isSome = true ∧ 0 < (value.truncField? "cursor").getD 0 ∧
    trim (value.strField "origin") ≠ "" ∧
    isValidRoomName ((recordEnvelope value).strField "room") = true ∧
    (recordEnvelope value).strField "id" ≠ "" ∧ (recordEnvelope value).strField "sender" ≠ "" ∧
    isValidTopic ((recordEnvelope value).strField "topic") = true

instance (value : JsonValue) : Decidable (KeepsRecord value) :=
  inferInstanceAs (Decidable (_ ∧ _ ∧ _ ∧ _ ∧ _ ∧ _ ∧ _))

/-- The records that are read, and the counter they are under. -/
def restoreRecords (cacheExchange : JsonValue) (records : List JsonValue) :
    List CacheExchangeRecord × Nat :=
  let kept := (records.filter fun r => KeepsRecord r).map (readRecord R)
  let snapshotCursor := (max 0 ((cacheExchange.truncField? "cursor").getD 0)).toNat
  (kept.drop (kept.length - R.config.cacheExchangeMaxRecords),
    max snapshotCursor ((kept.map CacheExchangeRecord.cursor).foldl max 0))

/-- `recordCacheExchange` for every message of the restored rooms. -/
def ServiceState.recordRooms (s : ServiceState C) : ServiceState C :=
  (s.rooms.values.flatMap RoomState.messages).foldl
    (fun s message => s.recordCacheExchange R message R.config.relayNodeId 0
      R.config.cacheExchangeMaxHops) s

/-! ## Reading the webhook deliveries -/

/-- `Math.max(0, Math.trunc(v[key]))`, of a finite number. -/
def JsonValue.countField? (v : JsonValue) (key : String) : Option Nat :=
  (v.truncField? key).map fun n => (max 0 n).toNat

def restoreDelivery (e : String × JsonValue) : Option (String × Int) :=
  match e.2 with
  | .num n =>
    if trim e.1 ≠ "" then n.truncInt?.map fun ts => (e.1, max 0 ts) else none
  | _ => none

/-- A queued delivery; `none` is skipped. -/
def restoreDlqEntry (nowSec : Int) (value : JsonValue) : Option IssueSyncDlqEntry :=
  let deliveryId := trim (value.strField "delivery_id")
  let text := value.strField "body"
  let createdAt := (value.countField? "created_at").getD 0
  let retryCount := (value.countField? "retry_count").getD 0
  if deliveryId ≠ "" then some {
    deliveryId
    event := trim (value.strField "event")
    body := ⟨text, A.parseBody text⟩
    createdAt
    updatedAt := (value.countField? "updated_at").getD createdAt
    retryCount
    nextRetryAt := ((value.countField? "next_retry_at").map fun n => (n : Int)).getD
      (IssueSyncState.computeNextRetryAt nowSec retryCount)
    lastError := value.strField "last_error" }
  else none

/-- `githubIssueSync.restore(snapshotData)`: the queue is read up to its cap. -/
def restoreIssueSync (nowSec : Int) (snapshot : Option JsonValue) : IssueSyncState :=
  match snapshot with
  | none => .empty
  | some snapshot =>
    let entries := (((snapshot.arrField? "dlq").getD []).filterMap
      (restoreDlqEntry A nowSec)).take MAX_GITHUB_WEBHOOK_DLQ_ENTRIES
    { deliveryIds := OrdMap.ofList
        ((JsonValue.entries (snapshot.get? "deliveries")).filterMap restoreDelivery)
      dlq := OrdMap.ofList (entries.map fun entry => (entry.deliveryId, entry))
      dlqOrder := entries.map IssueSyncDlqEntry.deliveryId }

/-! ## Reading -/

def restoreRooms (nowSec : Int) (rooms : Option JsonValue) : OrdMap String RoomState :=
  OrdMap.ofList ((JsonValue.entries rooms).filterMap
    (restoreRoom R.config.maxMessagesPerRoom R.config.presenceTtlSec nowSec))

/-- Everything `restore` reads but the exchange log. -/
def ServiceState.restoreTables (nowSec : Int) (snapshot : JsonValue) (s : ServiceState C) :
    ServiceState C :=
  { s with
    rooms := restoreRooms R nowSec (snapshot.get? "rooms")
    keyRegistry := restoreKeysFrom (snapshot.get? "keys_by_sender")
    noncesBySender := restoreNoncesFrom R.config.noncePolicy.nonceTtlSec nowSec
      (snapshot.get? "nonces_by_sender")
    cacheExchangeRecords := []
    cacheExchangeCursor := 0
    githubIssueSync := restoreIssueSync A nowSec (snapshot.objField? "github_webhook")
    cache := A.restoreIssueCursors s.cache (snapshot.objField? "issue_cursors") }

/-- `restore(snapshotData)`. The rate limits are not touched. -/
def ServiceState.restore (nowMs : Nat) (snapshot : JsonValue) (s : ServiceState C) :
    ServiceState C :=
  let tables := s.restoreTables R A (nowEpochSec nowMs) snapshot
  match (snapshot.objField? "cache_exchange").bind fun cacheExchange =>
      (cacheExchange.arrField? "records").map fun records =>
        restoreRecords R cacheExchange records with
  | some (cacheExchangeRecords, cacheExchangeCursor) =>
    { tables with cacheExchangeRecords, cacheExchangeCursor }
  | none => tables.recordRooms R

/-! ## Writing -/

def CacheExchangeRecord.toSnapshot (record : CacheExchangeRecord) : JsonValue := .obj [
  ("cursor", .ofNat record.cursor),
  ("envelope", record.envelope.toSnapshot.normalize),
  ("origin", .str record.origin),
  ("hop_count", .ofNat record.hopCount),
  ("max_hops", .ofNat record.maxHops)]

def IssueSyncDlqEntry.toSnapshot (entry : IssueSyncDlqEntry) : JsonValue := .obj [
  ("delivery_id", .str entry.deliveryId),
  ("event", .str entry.event),
  ("body", .str entry.body.text),
  ("created_at", .ofInt entry.createdAt),
  ("updated_at", .ofInt entry.updatedAt),
  ("retry_count", .ofNat entry.retryCount),
  ("next_retry_at", .ofInt entry.nextRetryAt),
  ("last_error", .str entry.lastError)]

/-- The deliveries of `githubIssueSync.snapshot()`. -/
def deliveriesToSnapshot (deliveryIds : OrdMap String Int) : List (String × JsonValue) :=
  objectEntries ((deliveryIds.entries.filter fun e => trim e.1 ≠ "").map fun e =>
    (e.1, .ofInt (max 0 e.2)))

def dlqToSnapshot (engine : IssueSyncState) : List JsonValue :=
  (engine.dlqOrder.filterMap engine.dlq.get?).map IssueSyncDlqEntry.toSnapshot

def roomsToSnapshot (rooms : OrdMap String RoomState) : JsonValue :=
  .obj (objectEntries (rooms.entries.map fun e => (e.1, e.2.toSnapshot)))

def exchangeToSnapshot (s : ServiceState C) : List (String × JsonValue) :=
  if s.cacheExchangeRecords = [] ∧ s.cacheExchangeCursor = 0 then []
  else [("cache_exchange", .obj [
    ("cursor", .ofNat s.cacheExchangeCursor),
    ("records", .arr (s.cacheExchangeRecords.map CacheExchangeRecord.toSnapshot))])]

def cursorsToSnapshot (cache : C) : List (String × JsonValue) :=
  let cursors := objectEntries (A.snapshotIssueCursors cache)
  if cursors = [] then []
  else [("issue_cursors", .obj (cursors.map fun e => (e.1, .ofNat e.2)))]

def webhookToSnapshot (engine : IssueSyncState) : List (String × JsonValue) :=
  if deliveriesToSnapshot engine.deliveryIds = [] ∧ dlqToSnapshot engine = [] then []
  else [("github_webhook", .obj [
    ("deliveries", .obj (deliveriesToSnapshot engine.deliveryIds)),
    ("dlq", .arr (dlqToSnapshot engine))])]

/-- `snapshot()` -/
def ServiceState.snapshot (s : ServiceState C) : JsonValue :=
  let identity := BitRelay.identitySnapshot s.keyRegistry s.noncesBySender
  .obj ([
    ("rooms", roomsToSnapshot s.rooms),
    ("keys_by_sender", keysToJson identity.keysBySender),
    ("nonces_by_sender", noncesToJson identity.noncesBySender)] ++
    exchangeToSnapshot s ++ cursorsToSnapshot A s.cache ++ webhookToSnapshot s.githubIssueSync)

/-! ## The restored rooms -/

/-- A room after `snapshot` and `restore`. -/
def RoomState.restored (maxMessagesPerRoom presenceTtlSec : Nat) (nowSec : Int)
    (roomState : RoomState) : RoomState where
  messages := (roomState.messages.map Envelope.stored).drop
    (roomState.messages.length - maxMessagesPerRoom)
  acksByConsumer := restoreAcks (some (acksToSnapshot roomState.acksByConsumer))
  presenceByParticipant := restorePresence nowSec presenceTtlSec
    ((roomState.toSnapshot.arrField? "presence").getD [])
  reviewsByPr := restoreReviews ((roomState.toSnapshot.arrField? "reviews").getD [])

variable {R A}

namespace RestoreLemmas

theorem recordRooms_rooms (s : ServiceState C) : (s.recordRooms R).rooms = s.rooms := by
  unfold ServiceState.recordRooms
  generalize s.rooms.values.flatMap RoomState.messages = messages
  induction messages generalizing s with
  | nil => rfl
  | cons e rest ih => exact ih _

theorem restore_rooms (nowMs : Nat) (v : JsonValue) (s : ServiceState C) :
    (s.restore R A nowMs v).rooms = restoreRooms R (nowEpochSec nowMs) (v.get? "rooms") := by
  unfold ServiceState.restore
  simp only
  split
  · rfl
  · rw [recordRooms_rooms]
    rfl

/-- The entries of the rooms that are read keep their names. -/
theorem restoreRoom_name {max ttl : Nat} {nowSec : Int} {e : String × JsonValue}
    {named : String × RoomState} (h : restoreRoom max ttl nowSec e = some named) :
    named.1 = e.1 := by
  unfold restoreRoom at h
  split at h
  · cases h
  · split at h
    · cases h
      rfl
    · cases h

theorem restoreRoom_messages {max ttl : Nat} {nowSec : Int} {e : String × JsonValue}
    {named : String × RoomState} (h : restoreRoom max ttl nowSec e = some named) :
    isValidRoomName e.1 = true ∧ (e.2.objField? "acks_by_consumer").isSome = true ∧
      ∃ messages, e.2.arrField? "messages" = some messages ∧
        named.2.messages = restoreMessages e.1 messages max := by
  unfold restoreRoom at h
  split at h
  · cases h
  · next messages hmessages =>
    split at h
    · next hvalid =>
      cases h
      exact ⟨hvalid.1, hvalid.2, messages, hmessages, rfl⟩
    · cases h

theorem nodup_restoreRooms {max ttl : Nat} {nowSec : Int} {entries : List (String × JsonValue)}
    (h : (entries.map Prod.fst).Nodup) :
    ((entries.filterMap (restoreRoom max ttl nowSec)).map Prod.fst).Nodup := by
  have hsublist : ((entries.filterMap (restoreRoom max ttl nowSec)).map Prod.fst).Sublist
      (entries.map Prod.fst) := by
    clear h
    induction entries with
    | nil => exact List.Sublist.slnil
    | cons e rest ih =>
      rw [List.filterMap_cons]
      cases hroom : restoreRoom max ttl nowSec e with
      | none => exact ih.cons _
      | some named =>
        rw [List.map_cons, List.map_cons, restoreRoom_name hroom]
        exact ih.cons_cons _
  exact h.sublist hsublist

end RestoreLemmas

open RestoreLemmas

theorem restored_createRoomState (maxMessagesPerRoom presenceTtlSec : Nat) (nowSec : Int) :
    createRoomState.restored maxMessagesPerRoom presenceTtlSec nowSec = createRoomState := by
  unfold RoomState.restored
  rw [show createRoomState.messages.map Envelope.stored = [] from rfl, List.drop_nil]
  rfl

/-- A room that has a proper name is read back. -/
theorem roomOf_restore {room : String} {s : ServiceState C} (hroom : isValidRoomName room = true)
    (hnamed : ∀ e ∈ (s.roomOf room).messages, e.Named) (nowMs : Nat) (t : ServiceState C) :
    (t.restore R A nowMs (s.snapshot A)).roomOf room =
      (s.roomOf room).restored R.config.maxMessagesPerRoom R.config.presenceTtlSec
        (nowEpochSec nowMs) := by
  have hkeys : ((objectEntries (s.rooms.entries.map fun e => (e.1, e.2.toSnapshot))).map
      Prod.fst).Nodup := by
    refine nodup_objectEntries ?_
    rw [List.map_map]
    exact s.rooms.nodup
  have hrooms : (t.restore R A nowMs (s.snapshot A)).rooms =
      restoreRooms R (nowEpochSec nowMs) (some (roomsToSnapshot s.rooms)) := restore_rooms _ _ _
  unfold ServiceState.roomOf OrdMap.getD at hnamed ⊢
  rw [hrooms]
  cases hget : s.rooms.get? room with
  | some roomState =>
    rw [hget, Option.getD_some] at hnamed
    have hmem : (room, roomState.toSnapshot) ∈
        objectEntries (s.rooms.entries.map fun e => (e.1, e.2.toSnapshot)) := by
      refine mem_objectEntries.mpr ⟨?_, ?_⟩
      · exact List.mem_map.mpr ⟨(room, roomState), OrdMap.get?_eq_some_iff.mp hget, rfl⟩
      · rintro rfl
        exact absurd hroom (by decide)
    have hread := restoreRoom_toSnapshot hroom hnamed R.config.maxMessagesPerRoom
      R.config.presenceTtlSec (nowEpochSec nowMs)
    have hrestored := OrdMap.get?_ofList_of_mem (nodup_restoreRooms hkeys)
      (List.mem_filterMap.mpr ⟨_, hmem, hread⟩)
    exact congrArg (Option.getD · createRoomState) hrestored
  | none =>
    cases hrestored : (restoreRooms R (nowEpochSec nowMs)
        (some (roomsToSnapshot s.rooms))).get? room with
    | none => exact (restored_createRoomState _ _ _).symm
    | some roomState =>
      -- Only the rooms that were written are read.
      obtain ⟨e, he, hread⟩ := List.mem_filterMap.mp (OrdMap.mem_of_get?_ofList hrestored)
      obtain ⟨named, hnamed', rfl⟩ := List.mem_map.mp (mem_objectEntries.mp he).1
      have hname : room = named.1 := restoreRoom_name hread
      rw [hname, OrdMap.get?_eq_some_iff.mpr hnamed'] at hget
      cases hget

/-- No room is read under an improper name. -/
theorem roomOf_restore_of_invalid {room : String} (hroom : isValidRoomName room = false)
    (nowMs : Nat) (v : JsonValue) (t : ServiceState C) :
    (t.restore R A nowMs v).roomOf room = createRoomState := by
  unfold ServiceState.roomOf OrdMap.getD
  rw [restore_rooms]
  cases hget : (restoreRooms R (nowEpochSec nowMs) (v.get? "rooms")).get? room with
  | none => rfl
  | some roomState =>
    obtain ⟨e, -, hrestored⟩ := List.mem_filterMap.mp (OrdMap.mem_of_get?_ofList hget)
    have hname : room = e.1 := restoreRoom_name hrestored
    have hvalid := (restoreRoom_messages hrestored).1
    rw [← hname, hroom] at hvalid
    cases hvalid

end

end BitRelay
