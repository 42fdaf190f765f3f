import BitRelay.Cache.Store
import BitRelay.CacheExchange
import BitRelay.Http
import BitRelay.Js.FreeText

/-!
# The issue projection

The records that the cache keeps for the issues of a room, the keys they are
stored under, and how they are read back (`issue_projection.ts`).

Results:
1. `issueEventStorageKey_inj`, `event_ne_snapshot`, `event_ne_cursor`,
   `snapshot_ne_cursor`: the keys of the three kinds of records of a room differ.
2. `freeText_event`, `freeText_snapshot`, `freeText_cursor`,
   `freeText_envelopeKey`: none of these keys is changed by `trim`.
-/

namespace BitRelay

/-! ## Records -/

structure IssueCacheEventRecord where
  room : String
  cursor : Nat
  issueId : String
  action : String
  envelope : Envelope
  sourceUpdatedAtMs : Option Nat
  updatedAt : Nat
  deriving DecidableEq

structure IssueCacheSnapshotRecord where
  room : String
  issueId : String
  lastCursor : Nat
  envelope : Envelope
  sourceUpdatedAtMs : Option Nat
  updatedAt : Nat
  deriving DecidableEq

structure IssueCacheCursorRecord where
  room : String
  cursor : Nat
  updatedAt : Nat
  deriving DecidableEq

/-- An envelope as `JSON.stringify` meets it. -/
def Envelope.toJson (envelope : Envelope) : JsonValue := .obj [
  ("room", .str envelope.room),
  ("id", .str envelope.id),
  ("sender", .str envelope.sender),
  ("topic", .str envelope.topic),
  ("payload", envelope.payload),
  ("signature", .ofString? envelope.signature)]

/-- `number | null` -/
def JsonValue.ofNat? (n : Option Nat) : JsonValue := n.elim .null .ofNat

def IssueCacheEventRecord.toJson (record : IssueCacheEventRecord) : JsonValue := .obj [
  ("version", .ofNat 1),
  ("kind", .str "issue_event"),
  ("room", .str record.room),
  ("cursor", .ofNat record.cursor),
  ("issue_id", .str record.issueId),
  ("action", .str record.action),
  ("envelope", record.envelope.toJson),
  ("source_updated_at_ms", .ofNat? record.sourceUpdatedAtMs),
  ("updated_at", .ofNat record.updatedAt)]

def IssueCacheSnapshotRecord.toJson (record : IssueCacheSnapshotRecord) : JsonValue := .obj [
  ("version", .ofNat 1),
  ("kind", .str "issue_snapshot"),
  ("room", .str record.room),
  ("issue_id", .str record.issueId),
  ("last_cursor", .ofNat record.lastCursor),
  ("envelope", record.envelope.toJson),
  ("source_updated_at_ms", .ofNat? record.sourceUpdatedAtMs),
  ("updated_at", .ofNat record.updatedAt)]

def IssueCacheCursorRecord.toJson (record : IssueCacheCursorRecord) : JsonValue := .obj [
  ("version", .ofNat 1),
  ("kind", .str "issue_cursor"),
  ("room", .str record.room),
  ("cursor", .ofNat record.cursor),
  ("updated_at", .ofNat record.updatedAt)]

/-! ## Storage keys -/

def ISSUE_EVENT_KEY_PREFIX : String := "issue/events/"
def ISSUE_SNAPSHOT_KEY_PREFIX : String := "issue/snapshots/"
def ISSUE_CURSOR_KEY_PREFIX : String := "issue/cursors/"
def ISSUE_CURSOR_PAD_WIDTH : Nat := 12

def issueEventStorageKey (room : String) (cursor : Nat) (envelopeId : String) : String :=
  ISSUE_EVENT_KEY_PREFIX ++ room ++ "/" ++
    (padZeros ISSUE_CURSOR_PAD_WIDTH (toString cursor) ++ "-" ++ envelopeId)

def issueSnapshotStorageKey (room issueId : String) : String :=
  ISSUE_SNAPSHOT_KEY_PREFIX ++ room ++ "/" ++ issueId

def issueCursorStorageKey (room : String) : String := ISSUE_CURSOR_KEY_PREFIX ++ room

/-- The key of the envelope itself. -/
def envelopeStorageKey (room id : String) : String := room ++ "/" ++ id

def parseIssueEventCursorFromKey (room key : String) : Option Nat :=
  let pre := ISSUE_EVENT_KEY_PREFIX ++ room ++ "/"
  if startsWith key pre = false then none
  else
    let suffix := sliceFrom key pre.length
    let beforeDash := splitFirst suffix '-'
    if '-' ∉ suffix.toList ∨ beforeDash = "" then none
    else do
      let cursor ← parseInt10 beforeDash
      if 0 < cursor then some cursor.toNat else none

/-! ## Reading envelopes -/

def isIssueTopic (topic : String) : Bool := topic == "issue" || startsWith topic "issue."

/-- `parseEnvelopeRecord` with the service's validators. -/
def parseEnvelopeRecord (parsed : JsonValue) : Option Envelope := do
  let _ ← parsed.fields?
  let room := parsed.strField "room"
  let id := parsed.strField "id"
  let sender := parsed.strField "sender"
  let topic := parsed.strField "topic"
  let signature := match parsed.get? "signature" with
    | some (.str s) => some s
    | _ => none
  let payload ← parsed.get? "payload"
  if isValidRoomName room = false then none
  else if isValidTopic topic = false then none
  else if trim id = "" ∨ trim sender = "" then none
  else some { room, id, sender, topic, payload, signature }

def parseCachedIssueEnvelope (value : CacheStoreObject) : Option Envelope := do
  parseEnvelopeRecord (← value.body.json)

/-! ## What a payload says -/

/-- `typeof v[key] === 'string' ? v[key].trim() : ''`, if it is not blank. -/
def trimmedField? (v : JsonValue) (key : String) : Option String :=
  let value := trim (v.strField key)
  if value = "" then none else some value

def parseIssuePayloadIssueId (payload : JsonValue) : Option String :=
  (trimmedField? payload "issue_id").or <| (trimmedField? payload "issueId").or <|
    ((payload.objField? "issue").bind fun issue => trimmedField? issue "id").or <|
      trimmedField? payload "id"

def extractIssueIdFromEnvelope (envelope : Envelope) : String :=
  (parseIssuePayloadIssueId envelope.payload).getD envelope.id

/-- The text behind `issue.`, if it is not blank. -/
def issueAction? (text : String) : Option String :=
  let action := trim (sliceFrom text "issue.".length)
  if action = "" then none else some action

def deriveIssueAction (envelope : Envelope) : String :=
  if startsWith envelope.topic "issue." then (issueAction? envelope.topic).getD "upsert"
  else match trimmedField? envelope.payload "kind" with
    | none => "upsert"
    | some kind =>
      if startsWith kind "issue." then (issueAction? kind).getD "upsert" else kind

def parseIssueSourceUpdatedAtMs (P : Platform) (payload : JsonValue) : Option Nat :=
  (asNonNegativeInt (payload.get? "source_updated_at_ms")).or do
    let issue ← payload.objField? "issue"
    let raw ← trimmedField? issue "updated_at"
    let epochMs ← P.dateParse raw
    if epochMs < 0 then none else some epochMs.toNat

/-! ## Reading records -/

/-- `source_updated_at_ms` of a record; the outer `none` is a value that is refused. -/
def parseRecordSourceUpdatedAtMs (parsed : JsonValue) : Option (Option Nat) :=
  match parsed.get? "source_updated_at_ms" with
  | none | some .null => some none
  | value => (asNonNegativeInt value).map some

def parseIssueCacheEventRecord (value : CacheStoreObject) : Option IssueCacheEventRecord := do
  let parsed ← value.body.json
  let _ ← parsed.fields?
  if parsed.get? "kind" ≠ some (.str "issue_event") then none
  else if parsed.get? "version" ≠ some (.ofNat 1) then none
  else do
    let room := parsed.strField "room"
    let issueId := trim (parsed.strField "issue_id")
    let action := trim (parsed.strField "action")
    let envelope ← parseEnvelopeRecord ((parsed.get? "envelope").getD .null)
    if isValidRoomName room = false then none
    else if issueId = "" then none
    else if action = "" then none
    else if envelope.room ≠ room then none
    else do
      let cursor ← asNonNegativeInt (parsed.get? "cursor")
      if cursor = 0 then none
      else do
        let sourceUpdatedAtMs ← parseRecordSourceUpdatedAtMs parsed
        let updatedAt ← asNonNegativeInt (parsed.get? "updated_at")
        return { room, cursor, issueId, action, envelope, sourceUpdatedAtMs, updatedAt }

def parseIssueCacheSnapshotRecord (value : CacheStoreObject) : Option IssueCacheSnapshotRecord := do
  let parsed ← value.body.json
  let _ ← parsed.fields?
  if parsed.get? "kind" ≠ some (.str "issue_snapshot") then none
  else if parsed.get? "version" ≠ some (.ofNat 1) then none
  else do
    let room := parsed.strField "room"
    let issueId := trim (parsed.strField "issue_id")
    let envelope ← parseEnvelopeRecord ((parsed.get? "envelope").getD .null)
    if isValidRoomName room = false then none
    else if issueId = "" then none
    else if envelope.room ≠ room then none
    else do
      let lastCursor ← asNonNegativeInt (parsed.get? "last_cursor")
      if lastCursor = 0 then none
      else do
        let sourceUpdatedAtMs ← parseRecordSourceUpdatedAtMs parsed
        let updatedAt ← asNonNegativeInt (parsed.get? "updated_at")
        return { room, issueId, lastCursor, envelope, sourceUpdatedAtMs, updatedAt }

def parseIssueCacheCursorRecord (value : CacheStoreObject) : Option IssueCacheCursorRecord := do
  let parsed ← value.body.json
  let _ ← parsed.fields?
  if parsed.get? "kind" ≠ some (.str "issue_cursor") then none
  else if parsed.get? "version" ≠ some (.ofNat 1) then none
  else do
    let room := parsed.strField "room"
    if isValidRoomName room = false then none
    else do
      let cursor ← asNonNegativeInt (parsed.get? "cursor")
      let updatedAt ← asNonNegativeInt (parsed.get? "updated_at")
      return { room, cursor, updatedAt }

/-! ## Where the slashes are -/

/-- A room name has no slash. -/
theorem slash_notMem_room {room : String} (h : isValidRoomName room = true) :
    '/' ∉ room.toList :=
  notMem_of_matchesName h (by decide) (by decide)

theorem append_right_inj {a b c : String} (h : a ++ b = a ++ c) : b = c := by
  have hlist := congrArg String.toList h
  rw [String.toList_append, String.toList_append] at hlist
  exact String.toList_inj.mp (List.append_cancel_left hlist)

/-- The parts of a key before and behind its first slash. -/
theorem slash_inj {a b c d : String} (ha : '/' ∉ a.toList) (hc : '/' ∉ c.toList)
    (h : a ++ "/" ++ b = c ++ "/" ++ d) : a = c ∧ b = d := by
  have hfront : ∀ s t : String, '/' ∉ s.toList →
      (s ++ "/" ++ t).toList.takeWhile (· != '/') = s.toList := by
    intro s t hs
    have hall : ∀ x ∈ s.toList, (x != '/') = true := by
      intro x hx
      rw [bne_iff_ne]
      rintro rfl
      exact hs hx
    rw [String.toList_append, String.toList_append, List.append_assoc,
      List.takeWhile_append_of_pos hall]
    exact List.append_nil _
  have hac : a = c := by
    have hlist := hfront a b ha
    rw [h, hfront c d hc] at hlist
    exact (String.toList_inj.mp hlist).symm
  subst hac
  exact ⟨rfl, append_right_inj h⟩

/-- What `issueEventStorageKey` puts behind the room. -/
def issueEventSuffix (cursor : Nat) (envelopeId : String) : String :=
  padZeros ISSUE_CURSOR_PAD_WIDTH (toString cursor) ++ "-" ++ envelopeId

theorem issueEventStorageKey_eq (room : String) (cursor : Nat) (envelopeId : String) :
    issueEventStorageKey room cursor envelopeId =
      envelopeStorageKey "issue" ("events" ++ "/" ++ (room ++ "/" ++
        issueEventSuffix cursor envelopeId)) := by
  show "issue/events/" ++ room ++ "/" ++ issueEventSuffix cursor envelopeId = "issue" ++ "/" ++ _
  rw [show "issue/events/" = "issue" ++ "/" ++ ("events" ++ "/") from rfl]
  simp only [String.append_assoc]

theorem issueSnapshotStorageKey_eq (room issueId : String) :
    issueSnapshotStorageKey room issueId =
      envelopeStorageKey "issue" ("snapshots" ++ "/" ++ (room ++ "/" ++ issueId)) := by
  show "issue/snapshots/" ++ room ++ "/" ++ issueId = "issue" ++ "/" ++ _
  rw [show "issue/snapshots/" = "issue" ++ "/" ++ ("snapshots" ++ "/") from rfl]
  simp only [String.append_assoc]

theorem issueCursorStorageKey_eq (room : String) :
    issueCursorStorageKey room = envelopeStorageKey "issue" ("cursors" ++ "/" ++ room) := by
  show "issue/cursors/" ++ room = "issue" ++ "/" ++ _
  rw [show "issue/cursors/" = "issue" ++ "/" ++ ("cursors" ++ "/") from rfl]
  simp only [String.append_assoc]

theorem envelopeStorageKey_inj {room room' id id' : String} (h : '/' ∉ room.toList)
    (h' : '/' ∉ room'.toList) (heq : envelopeStorageKey room id = envelopeStorageKey room' id') :
    room = room' ∧ id = id' :=
  slash_inj h h' heq

theorem issueEventStorageKey_inj {room : String} {cursor cursor' : Nat} {id id' : String}
    (h : issueEventStorageKey room cursor id = issueEventStorageKey room cursor' id') :
    cursor = cursor' :=
  numeral_inj (append_right_inj h)

section
variable {room room' issueId id : String} {cursor : Nat}

theorem event_ne_snapshot :
    issueEventStorageKey room cursor id ≠ issueSnapshotStorageKey room' issueId := by
  rw [issueEventStorageKey_eq, issueSnapshotStorageKey_eq]
  intro h
  obtain ⟨-, hid⟩ := envelopeStorageKey_inj (by decide) (by decide) h
  obtain ⟨hkind, -⟩ := slash_inj (by decide) (by decide) hid
  exact absurd hkind (by decide)

theorem event_ne_cursor : issueEventStorageKey room cursor id ≠ issueCursorStorageKey room' := by
  rw [issueEventStorageKey_eq, issueCursorStorageKey_eq]
  intro h
  obtain ⟨-, hid⟩ := envelopeStorageKey_inj (by decide) (by decide) h
  obtain ⟨hkind, -⟩ := slash_inj (by decide) (by decide) hid
  exact absurd hkind (by decide)

theorem snapshot_ne_cursor : issueSnapshotStorageKey room issueId ≠ issueCursorStorageKey room' := by
  rw [issueSnapshotStorageKey_eq, issueCursorStorageKey_eq]
  intro h
  obtain ⟨-, hid⟩ := envelopeStorageKey_inj (by decide) (by decide) h
  obtain ⟨hkind, -⟩ := slash_inj (by decide) (by decide) hid
  exact absurd hkind (by decide)

end

/-! ## Trimmed keys -/

theorem freeText_room {room : String} (h : isValidRoomName room = true) : FreeText room :=
  (trimmed_of_isValidRoomName h).symm

theorem freeText_envelopeKey {room id : String} (hroom : FreeText room) (hid : FreeText id) :
    FreeText (envelopeStorageKey room id) :=
  freeText_append hroom hid

theorem freeText_event {room id : String} (cursor : Nat) (hid : FreeText id) :
    FreeText (issueEventStorageKey room cursor id) := by
  have hkey : issueEventStorageKey room cursor id = "issue/events" ++
      ("/" ++ room ++ "/" ++ padZeros ISSUE_CURSOR_PAD_WIDTH (toString cursor) ++ "-") ++ id := by
    simp only [issueEventStorageKey, show ISSUE_EVENT_KEY_PREFIX = "issue/events" ++ "/" from rfl,
      String.append_assoc]
  rw [hkey]
  exact freeText_append (by decide) hid

theorem freeText_snapshot {room issueId : String} (hissue : FreeText issueId) :
    FreeText (issueSnapshotStorageKey room issueId) := by
  have hkey : issueSnapshotStorageKey room issueId =
      "issue/snapshots" ++ ("/" ++ room ++ "/") ++ issueId := by
    simp only [issueSnapshotStorageKey,
      show ISSUE_SNAPSHOT_KEY_PREFIX = "issue/snapshots" ++ "/" from rfl, String.append_assoc]
  rw [hkey]
  exact freeText_append (by decide) hissue

theorem freeText_cursor {room : String} (hroom : FreeText room) :
    FreeText (issueCursorStorageKey room) := by
  show FreeText ("issue/cursors" ++ "/" ++ room)
  exact freeText_append (by decide) hroom

theorem freeText_trimmedField {v : JsonValue} {key s : String} (h : trimmedField? v key = some s) :
    FreeText s := by
  unfold trimmedField? at h
  simp only at h
  split at h
  · cases h
  · next hne =>
    cases h
    exact freeText_trim hne

theorem freeText_issueAction (text : String) : FreeText ((issueAction? text).getD "upsert") := by
  unfold issueAction?
  simp only
  split
  · decide
  · next hne => exact freeText_trim hne

theorem freeText_deriveIssueAction (envelope : Envelope) : FreeText (deriveIssueAction envelope) := by
  unfold deriveIssueAction
  split
  · exact freeText_issueAction _
  · split
    · decide
    · next hkind =>
      split
      · exact freeText_issueAction _
      · exact freeText_trimmedField hkind

/-- The issue that an envelope with a trimmed id is about has a trimmed id. -/
theorem freeText_extractIssueId {envelope : Envelope} (h : FreeText envelope.id) :
    FreeText (extractIssueIdFromEnvelope envelope) := by
  have hread : ∀ s, parseIssuePayloadIssueId envelope.payload = some s → FreeText s := by
    intro s hs
    unfold parseIssuePayloadIssueId at hs
    simp only [Option.or_eq_some_iff, Option.bind_eq_some_iff] at hs
    rcases hs with hs | ⟨-, hs | ⟨-, ⟨issue, -, hs⟩ | ⟨-, hs⟩⟩⟩ <;> exact freeText_trimmedField hs
  unfold extractIssueIdFromEnvelope
  cases hparse : parseIssuePayloadIssueId envelope.payload with
  | none => exact h
  | some s => exact hread s hparse

end BitRelay
