import BitRelay.Room
import BitRelay.Lib.PlainObject
import BitRelay.Snapshot.Identity

/-!
# The rooms of a snapshot

How `snapshot` writes a room, and how `restore` reads one back: field by field
from whatever JSON is there. A message needs an id, a sender and a topic that are
not empty, and nothing else is asked of it; the oldest messages above the cap of
the restoring service are dropped.

The log is written through `JSON.stringify`, so a payload comes back as the text
of JSON can carry it.

Results:
1. `restoreMessages_toSnapshot`: messages with an id, a sender and a topic are
   read back, with their payloads as JSON carries them.
2. `restoreRoom_toSnapshot`: a room is read back with the newest messages of its
   log.
-/

namespace BitRelay

/-! ## Reading -/

/-- The envelope of a message of a snapshot. Neither its room nor its topic is checked. -/
def readMessage (room : String) (message : JsonValue) : Envelope where
  room := match message.get? "room" with
    | some (.str room) => room
    | _ => room
  id := message.strField "id"
  sender := message.strField "sender"
  topic := message.strField "topic"
  payload := (message.get? "payload").getD .null
  signature := match message.get? "signature" with
    | some (.str signature) => some signature
    | _ => none

/-- The messages that are not skipped. -/
def KeepsMessage (message : JsonValue) : Prop :=
  message.fields?.isSome = true ∧ message.strField "id" ≠ "" ∧ message.strField "sender" ≠ "" ∧
    message.strField "topic" ≠ ""

instance (message : JsonValue) : Decidable (KeepsMessage message) :=
  inferInstanceAs (Decidable (_ ∧ _ ∧ _ ∧ _))

/-- The newest messages, as many as the cap allows. -/
def restoreMessages (room : String) (messages : List JsonValue) (maxMessagesPerRoom : Nat) :
    List Envelope :=
  let kept := (messages.filter fun m => KeepsMessage m).map (readMessage room)
  kept.drop (kept.length - maxMessagesPerRoom)

/-- A text that is not blank, trimmed. -/
def restoreAckId : JsonValue → Option (String × Unit)
  | .str id => if trim id ≠ "" then some (trim id, ()) else none
  | _ => none

def restoreAckSet (e : String × JsonValue) : Option (String × OrdSet String) :=
  match e.2 with
  | .arr ids => some (e.1, OrdMap.ofList (ids.filterMap restoreAckId))
  | _ => none

def restoreAcks (acksByConsumer : Option JsonValue) : OrdMap String (OrdSet String) :=
  OrdMap.ofList ((JsonValue.entries acksByConsumer).filterMap restoreAckSet)

/-- A presence record that is not past its time. -/
def restorePresenceRecord (nowSec : Int) (presenceTtlSec : Nat) (value : JsonValue) :
    Option (String × PresenceRecord) :=
  let participantId := trim (value.strField "participant_id")
  let lastHeartbeat := (value.truncField? "last_heartbeat").getD 0
  if participantId ≠ "" ∧ nowSec - lastHeartbeat < presenceTtlSec then some (participantId, {
    participantId
    status := match value.get? "status" with
      | some (.str status) => status
      | _ => "online"
    metadata := (value.get? "metadata").getD .null
    lastHeartbeat })
  else none

def restorePresence (nowSec : Int) (presenceTtlSec : Nat) (presence : List JsonValue) :
    OrdMap String PresenceRecord :=
  OrdMap.ofList (presence.filterMap (restorePresenceRecord nowSec presenceTtlSec))

/-- A review and the pull request it belongs to. -/
def restoreReview (value : JsonValue) : Option (String × ReviewRecord) :=
  let sender := trim (value.strField "sender")
  let prId := trim (value.strField "pr_id")
  match parseVerdict (value.strField "verdict") with
  | none => none
  | some verdict =>
    if sender ≠ "" ∧ isValidPrId prId = true then some (prId, {
      sender, verdict
      submittedAt := (value.truncField? "submitted_at").getD 0
      updatedAt := (value.truncField? "updated_at").getD 0 })
    else none

/-- Put a review under its pull request and its sender. -/
def putReview (reviewsByPr : OrdMap String (OrdMap String ReviewRecord))
    (e : String × ReviewRecord) : OrdMap String (OrdMap String ReviewRecord) :=
  reviewsByPr.set e.1 ((reviewsByPr.getD e.1 ∅).set e.2.sender e.2)

def restoreReviews (reviews : List JsonValue) : OrdMap String (OrdMap String ReviewRecord) :=
  (reviews.filterMap restoreReview).foldl putReview ∅

/-- A room of a snapshot; `none` is skipped. -/
def restoreRoom (maxMessagesPerRoom presenceTtlSec : Nat) (nowSec : Int) (e : String × JsonValue) :
    Option (String × RoomState) :=
  match e.2.arrField? "messages" with
  | none => none
  | some messages =>
    if isValidRoomName e.1 = true ∧ (e.2.objField? "acks_by_consumer").isSome then some (e.1, {
      messages := restoreMessages e.1 messages maxMessagesPerRoom
      acksByConsumer := restoreAcks (e.2.get? "acks_by_consumer")
      presenceByParticipant :=
        restorePresence nowSec presenceTtlSec ((e.2.arrField? "presence").getD [])
      reviewsByPr := restoreReviews ((e.2.arrField? "reviews").getD []) })
    else none

/-! ## Writing -/

def Envelope.toSnapshot (envelope : Envelope) : JsonValue := .obj [
  ("room", .str envelope.room),
  ("id", .str envelope.id),
  ("sender", .str envelope.sender),
  ("topic", .str envelope.topic),
  ("payload", envelope.payload),
  ("signature", .ofString? envelope.signature)]

def PresenceRecord.toSnapshot (record : PresenceRecord) : JsonValue := record.toJson

def ReviewRecord.toSnapshot (prId : String) (record : ReviewRecord) : JsonValue := .obj [
  ("sender", .str record.sender),
  ("verdict", .str record.verdict.toString),
  ("pr_id", .str prId),
  ("submitted_at", .ofInt record.submittedAt),
  ("updated_at", .ofInt record.updatedAt)]

/-- The optional array of a room: it is left out when it is empty. -/
def arrayField (key : String) (items : List JsonValue) : List (String × JsonValue) :=
  if items = [] then [] else [(key, .arr items)]

def acksToSnapshot (acksByConsumer : OrdMap String (OrdSet String)) : JsonValue :=
  .obj (objectEntries (acksByConsumer.entries.map fun e => (e.1, .arr (e.2.keys.map .str))))

def reviewsToSnapshot (reviewsByPr : OrdMap String (OrdMap String ReviewRecord)) :
    List JsonValue :=
  reviewsByPr.entries.flatMap fun e => e.2.values.map (ReviewRecord.toSnapshot e.1)

def RoomState.toSnapshot (roomState : RoomState) : JsonValue := .obj ([
  ("messages", .arr (roomState.messages.map fun e => e.toSnapshot.normalize)),
  ("acks_by_consumer", acksToSnapshot roomState.acksByConsumer)] ++
  arrayField "presence"
    (roomState.presenceByParticipant.values.map PresenceRecord.toSnapshot) ++
  arrayField "reviews" (reviewsToSnapshot roomState.reviewsByPr))

/-! ## Reading what was written -/

/-- The envelope after `JSON.parse(JSON.stringify(envelope))`. -/
def Envelope.stored (envelope : Envelope) : Envelope :=
  { envelope with payload := envelope.payload.normalize }

/-- What `restore` asks of a message. -/
structure Envelope.Named (envelope : Envelope) : Prop where
  id : envelope.id ≠ ""
  sender : envelope.sender ≠ ""
  topic : envelope.topic ≠ ""

theorem keepsMessage_toSnapshot {envelope : Envelope} (h : envelope.Named) :
    KeepsMessage envelope.toSnapshot.normalize :=
  ⟨rfl, h.id, h.sender, h.topic⟩

theorem readMessage_toSnapshot (envelope : Envelope) (room : String) :
    readMessage room envelope.toSnapshot.normalize = envelope.stored := by
  obtain ⟨eroom, id, sender, topic, payload, signature⟩ := envelope
  cases signature <;> rfl

theorem restoreMessages_toSnapshot {messages : List Envelope} (h : ∀ e ∈ messages, e.Named)
    (room : String) (maxMessagesPerRoom : Nat) :
    restoreMessages room (messages.map fun e => e.toSnapshot.normalize) maxMessagesPerRoom =
      (messages.map Envelope.stored).drop (messages.length - maxMessagesPerRoom) := by
  have hkept : (messages.map fun e => e.toSnapshot.normalize).filter (fun m => KeepsMessage m) =
      messages.map fun e => e.toSnapshot.normalize := by
    refine List.filter_eq_self.mpr fun m hm => ?_
    obtain ⟨e, he, rfl⟩ := List.mem_map.mp hm
    exact decide_eq_true (keepsMessage_toSnapshot (h e he))
  have hread : (messages.map fun e => e.toSnapshot.normalize).map (readMessage room) =
      messages.map Envelope.stored := by
    rw [List.map_map]
    exact List.map_congr_left fun e _ => readMessage_toSnapshot e room
  simp only [restoreMessages, hkept, hread, List.length_map]

/-- A room of a snapshot that has a proper name is read back with the newest messages of its
log. -/
theorem restoreRoom_toSnapshot {room : String} {roomState : RoomState}
    (hroom : isValidRoomName room = true) (hnamed : ∀ e ∈ roomState.messages, e.Named)
    (maxMessagesPerRoom presenceTtlSec : Nat) (nowSec : Int) :
    restoreRoom maxMessagesPerRoom presenceTtlSec nowSec (room, roomState.toSnapshot) =
      some (room, {
        messages := (roomState.messages.map Envelope.stored).drop
          (roomState.messages.length - maxMessagesPerRoom)
        acksByConsumer := restoreAcks (some (acksToSnapshot roomState.acksByConsumer))
        presenceByParticipant := restorePresence nowSec presenceTtlSec
          ((roomState.toSnapshot.arrField? "presence").getD [])
        reviewsByPr := restoreReviews ((roomState.toSnapshot.arrField? "reviews").getD []) }) := by
  rw [← restoreMessages_toSnapshot hnamed room]
  exact if_pos ⟨hroom, rfl⟩

end BitRelay
