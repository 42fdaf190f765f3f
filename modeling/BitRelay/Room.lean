import BitRelay.CacheExchange
import BitRelay.Http
import BitRelay.Lib.OrdMap

/-!
# Rooms

The state of one room and the operations on it: the message log with its cap,
polling, acknowledgements, presence and reviews (`memory_handler.ts`, up to
`createMemoryRelayService`). WebSocket sessions only receive broadcasts and are
left out.
-/

namespace BitRelay

/-- A `Set` of the host, in insertion order. -/
abbrev OrdSet (κ : Type) := OrdMap κ Unit

structure PresenceRecord where
  participantId : String
  status : String
  metadata : JsonValue
  lastHeartbeat : Int
  deriving DecidableEq

inductive ReviewVerdict
  | approve
  | deny
  deriving DecidableEq

structure ReviewRecord where
  sender : String
  verdict : ReviewVerdict
  submittedAt : Int
  updatedAt : Int
  deriving DecidableEq

structure RoomState where
  messages : List Envelope
  acksByConsumer : OrdMap String (OrdSet String)
  presenceByParticipant : OrdMap String PresenceRecord
  reviewsByPr : OrdMap String (OrdMap String ReviewRecord)
  deriving DecidableEq

def createRoomState : RoomState := ⟨[], ∅, ∅, ∅⟩

def sanitizeEnvelope (envelope : Envelope) : List (String × JsonValue) := [
  ("room", .str envelope.room),
  ("id", .str envelope.id),
  ("sender", .str envelope.sender),
  ("topic", .str envelope.topic),
  ("payload", envelope.payload)]

/-! ## Publishing -/

/-- The three ways `publishIntoRoom` returns. -/
inductive PublishResult
  | invalidTopic (topic : String)
  | known (cursor : Nat)
  | accepted (envelope : Envelope) (cursor : Nat)
  deriving DecidableEq

namespace PublishResult

def status : PublishResult → Nat
  | invalidTopic _ => 400
  | known _ => 200
  | accepted _ _ => 200

def body : PublishResult → JsonValue
  | invalidTopic topic =>
    .obj [("ok", .bool false), ("error", .str ("invalid topic: " ++ topic))]
  | known cursor =>
    .obj [("ok", .bool true), ("accepted", .bool false), ("cursor", .ofNat cursor)]
  | accepted _ cursor =>
    .obj [("ok", .bool true), ("accepted", .bool true), ("cursor", .ofNat cursor)]

def isAccepted : PublishResult → Bool
  | accepted _ _ => true
  | invalidTopic _ | known _ => false

/-- `typeof result.body.cursor === 'number' ? result.body.cursor : null` -/
def cursor? : PublishResult → Option Nat
  | invalidTopic _ => none
  | known cursor => some cursor
  | accepted _ cursor => some cursor

end PublishResult

/-- The log after one more message: appended, then cut from the front to the cap. -/
def pushMessage (messages : List Envelope) (envelope : Envelope) (maxMessagesPerRoom : Nat) :
    List Envelope :=
  let messages := messages ++ [envelope]
  messages.drop (messages.length - maxMessagesPerRoom)

/-- The stored signature of an envelope: trimmed, `null` when blank. -/
def storedSignature (signature : String) : Option String :=
  if trim signature ≠ "" then some (trim signature) else none

def publishIntoRoom (roomState : RoomState) (room sender topic id signature : String)
    (payload : JsonValue) (maxMessagesPerRoom : Nat) : PublishResult × RoomState :=
  if isValidTopic topic = false then (.invalidTopic topic, roomState)
  else if roomState.messages.any (fun item => item.id == id) then
    (.known roomState.messages.length, roomState)
  else
    let envelope : Envelope :=
      { room, id, sender, topic, payload, signature := storedSignature signature }
    let messages := pushMessage roomState.messages envelope maxMessagesPerRoom
    (.accepted envelope messages.length, { roomState with messages })

/-- The three cases of `publishIntoRoom`. -/
theorem publishIntoRoom_cases (roomState : RoomState) (room sender topic id signature : String)
    (payload : JsonValue) (maxMessagesPerRoom : Nat) :
    let envelope : Envelope :=
      { room, id, sender, topic, payload, signature := storedSignature signature }
    let messages := pushMessage roomState.messages envelope maxMessagesPerRoom
    let result := publishIntoRoom roomState room sender topic id signature payload
      maxMessagesPerRoom
    (isValidTopic topic = false ∧ result = (.invalidTopic topic, roomState)) ∨
    (isValidTopic topic = true ∧ (∃ m ∈ roomState.messages, m.id = id) ∧
      result = (.known roomState.messages.length, roomState)) ∨
    (isValidTopic topic = true ∧ (∀ m ∈ roomState.messages, m.id ≠ id) ∧
      result = (.accepted envelope messages.length, { roomState with messages })) := by
  intro envelope messages result
  by_cases ht : isValidTopic topic = false
  · exact .inl ⟨ht, by simp only [result, publishIntoRoom, if_pos ht]⟩
  · have ht' : isValidTopic topic = true := by simpa using ht
    by_cases hid : roomState.messages.any (fun item => item.id == id) = true
    · refine .inr (.inl ⟨ht', by simpa using hid, ?_⟩)
      simp only [result, publishIntoRoom, if_neg ht, if_pos hid]
    · refine .inr (.inr ⟨ht', by simpa using hid, ?_⟩)
      simp only [result, publishIntoRoom, if_neg ht, if_neg hid]
      rfl

/-- The messages from a cursor on, at most `limit` of them. -/
def pollPage (messages : List Envelope) (after limit : Nat) : List Envelope :=
  (messages.drop after).take limit

def pollFromRoom (roomState : RoomState) (room : String) (after limit : Nat) : JsonValue :=
  let page := pollPage roomState.messages after limit
  .obj [
    ("ok", .bool true),
    ("room", .str room),
    ("next_cursor", .ofNat (after + page.length)),
    ("envelopes", .arr (page.map fun item => .obj (sanitizeEnvelope item)))]

def findEnvelopeById (roomState : RoomState) (id : String) : Option Envelope :=
  roomState.messages.find? fun item => item.id == id

/-! ## Inbox -/

def inboxPendingFromRoom (roomState : RoomState) (room consumer : String) (limit : Nat) :
    JsonValue :=
  let acked := roomState.acksByConsumer.getD consumer ∅
  let pending := roomState.messages.filter fun item => !acked.has item.id
  let page := pending.take limit
  .obj [
    ("ok", .bool true),
    ("room", .str room),
    ("consumer", .str consumer),
    ("pending_count", .ofNat pending.length),
    ("returned_count", .ofNat page.length),
    ("envelopes", .arr (page.map fun item => .obj (sanitizeEnvelope item)))]

/-- One item of the `ids` array: a text that is not blank and not listed yet. -/
def collectAckId (ids : List String) (item : JsonValue) : List String :=
  match item with
  | .str s => if trim s = "" ∨ trim s ∈ ids then ids else ids ++ [trim s]
  | _ => ids

def parseAckIds (body : Body) : Except String (List String) :=
  match body.json with
  | none => .error "invalid json payload"
  | some parsed =>
    if parsed.fields?.isNone then .error "invalid json payload"
    else
      let single := trim (parsed.strField "id")
      let first := if single ≠ "" then [single] else []
      let ids := ((parsed.arrField? "ids").getD []).foldl collectAckId first
      if ids = [] then .error "missing field: ids" else .ok ids

/-- Add the ids to a consumer's set and count the new ones. -/
def ackAll (ackSet : OrdSet String) (ids : List String) : OrdSet String × Nat :=
  ids.foldl (fun (acc : OrdSet String × Nat) id =>
    if acc.1.has id then acc else (acc.1.set id (), acc.2 + 1)) (ackSet, 0)

def ackIntoRoom (roomState : RoomState) (room consumer : String) (body : Body) :
    Response × RoomState :=
  match parseAckIds body with
  | .error error => (toErrorResponse error 400, roomState)
  | .ok ids =>
    let (ackSet, newlyAcked) := ackAll (roomState.acksByConsumer.getD consumer ∅) ids
    (⟨200, .obj [
      ("ok", .bool true),
      ("room", .str room),
      ("consumer", .str consumer),
      ("newly_acked", .ofNat newlyAcked),
      ("acked_total", .ofNat ackSet.size),
      ("requested_count", .ofNat ids.length)]⟩,
    { roomState with acksByConsumer := roomState.acksByConsumer.set consumer ackSet })

/-! ## Presence and reviews -/

def prunePresence (roomState : RoomState) (nowSec : Int) (ttlSec : Nat) : RoomState :=
  { roomState with
    presenceByParticipant := roomState.presenceByParticipant.filter fun _ record =>
      decide (nowSec - record.lastHeartbeat < ttlSec) }

def PresenceRecord.toJson (record : PresenceRecord) : JsonValue := .obj [
  ("participant_id", .str record.participantId),
  ("status", .str record.status),
  ("metadata", record.metadata),
  ("last_heartbeat", .ofInt record.lastHeartbeat)]

def ReviewVerdict.toString : ReviewVerdict → String
  | approve => "approve"
  | deny => "deny"

/-- `VALID_VERDICTS.has(verdict)` -/
def parseVerdict (verdict : String) : Option ReviewVerdict :=
  if verdict = "approve" then some .approve
  else if verdict = "deny" then some .deny
  else none

structure ReviewStatus where
  approveCount : Nat
  denyCount : Nat
  total : Nat
  resolved : Bool

/-- `approve_count / total >= 0.5`, in whole numbers. -/
def computeReviewStatus (reviews : OrdMap String ReviewRecord) : ReviewStatus :=
  let approveCount := (reviews.values.filter fun r => r.verdict = .approve).length
  let denyCount := (reviews.values.filter fun r => r.verdict ≠ .approve).length
  let total := approveCount + denyCount
  { approveCount, denyCount, total
    resolved := decide (0 < total) && decide (total ≤ 2 * approveCount) }

def ReviewRecord.toJson (record : ReviewRecord) : JsonValue := .obj [
  ("sender", .str record.sender),
  ("verdict", .str record.verdict.toString),
  ("submitted_at", .ofInt record.submittedAt),
  ("updated_at", .ofInt record.updatedAt)]

/-! ## Rate limits -/

structure RateCounter where
  count : Nat
  windowStart : Nat
  deriving DecidableEq

/-- The next counter and whether the request is within the limit. -/
def fallbackRateLimit (entry : Option RateCounter) (now max windowMs : Nat) :
    RateCounter × Bool :=
  let next : RateCounter :=
    match entry with
    | none => ⟨1, now⟩
    | some e => if windowMs ≤ now - e.windowStart then ⟨1, now⟩ else ⟨e.count + 1, e.windowStart⟩
  (next, decide (next.count ≤ max))

end BitRelay
