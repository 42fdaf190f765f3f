import BitRelay.Service.Signatures

/-!
# The other writers of a room log

Besides publish, three requests end in `publishIntoRoom`: the trigger callback,
the cache-exchange push of a peer, and the GitHub webhook.
-/

namespace BitRelay

section
variable {C : Type} (R : Relay C)

/-! ## Trigger callback -/

def INCOMING_TRIGGER_REF_PREFIX : String := "refs/relay/incoming/"

def deriveRoomFromIncomingRef (ref : String) : String :=
  let trimmed := trim ref
  if startsWith trimmed INCOMING_TRIGGER_REF_PREFIX = false then DEFAULT_ROOM
  else
    let suffix := trim (sliceFrom trimmed INCOMING_TRIGGER_REF_PREFIX.length)
    if suffix = "" then DEFAULT_ROOM
    else
      let first := trim (splitFirst suffix '/')
      if isValidRoomName first then first else DEFAULT_ROOM

structure CallbackInput where
  room : String
  ref : String
  status : String
  envelopeId : String
  payload : JsonValue

/-- The fields of a callback and the room it goes to, by its body alone. -/
def parseCallback (request : Request) (env : Env) (parsed : JsonValue) :
    Except Response CallbackInput :=
  let ref := trim (parsed.strField "ref")
  let status := R.platform.toLowerCase (trim (parsed.strField "status"))
  let requestedRoom := trim (parsed.strField "room")
  let room := if requestedRoom ≠ "" then requestedRoom else deriveRoomFromIncomingRef ref
  let externalId := parsed.strField "external_id"
  let callbackId := trim (parsed.strField "id")
  let envelopeId :=
    if callbackId ≠ "" then callbackId
    else if trim externalId ≠ "" then "ci-" ++ trim externalId
    else "ci-" ++ env.randomUUID
  if ref = "" then .error (toErrorResponse "missing field: ref" 400)
  else if status = "" then .error (toErrorResponse "missing field: status" 400)
  else if isValidRoomName room = false then .error invalidRoomResponse
  else
    match checkRoomToken R request room with
    | some response => .error response
    | none => .ok {
        room, ref, status, envelopeId
        payload := .obj [
          ("source", .str "ci"),
          ("ref", .str ref),
          ("status", .str status),
          ("logs_url", .str (parsed.strField "logs_url")),
          ("artifact_url", .str (parsed.strField "artifact_url")),
          ("external_id", .str externalId),
          ("provider", .str (parsed.strField "provider")),
          ("received_at", .ofInt (nowEpochSec env.nowMs))] }

/-- A callback that is admitted names a ref, and its room by its body. -/
theorem parseCallback_ok {request : Request} {env : Env} {parsed : JsonValue}
    {input : CallbackInput} (h : parseCallback R request env parsed = .ok input) :
    trim (parsed.strField "ref") ≠ "" ∧ isValidRoomName input.room = true ∧
      (if trim (parsed.strField "room") ≠ "" then trim (parsed.strField "room")
        else deriveRoomFromIncomingRef (trim (parsed.strField "ref"))) = input.room := by
  unfold parseCallback at h
  simp only at h
  generalize hroom : (if trim (parsed.strField "room") ≠ "" then trim (parsed.strField "room")
    else deriveRoomFromIncomingRef (trim (parsed.strField "ref"))) = room at h ⊢
  by_cases href : trim (parsed.strField "ref") = ""
  · rw [if_pos href] at h
    cases h
  rw [if_neg href] at h
  by_cases hstatus : R.platform.toLowerCase (trim (parsed.strField "status")) = ""
  · rw [if_pos hstatus] at h
    cases h
  rw [if_neg hstatus] at h
  by_cases hvalid : isValidRoomName room = false
  · rw [if_pos hvalid] at h
    cases h
  rw [if_neg hvalid] at h
  cases htoken : checkRoomToken R request room with
  | some response =>
    simp only [htoken] at h
    cases h
  | none =>
    simp only [htoken] at h
    cases h
    exact ⟨href, eq_true_of_ne_false hvalid, rfl⟩

def cursorJson (cursor : Option Nat) : JsonValue := .ofInt? (cursor.map fun n => (n : Int))

def handleTriggerCallback (request : Request) (env : Env) : Handler C Response := do
  requireMethod request "POST"
  let parsed ← requireObject request
  let input ← Proc.ofExcept (parseCallback R request env parsed)
  let result ← Proc.update (ServiceState.publishEntry R input.room "ci:callback" "ci.result"
    input.envelopeId "" input.payload R.config.relayNodeId 0 R.config.cacheExchangeMaxHops)
  Proc.modify (ServiceState.persistResult R result)
  return ⟨result.status, .obj [
    ("ok", .bool (result.status = 200)),
    ("accepted", .bool result.isAccepted),
    ("room", .str input.room),
    ("topic", .str "ci.result"),
    ("id", .str input.envelopeId),
    ("ref", .str input.ref),
    ("status", .str input.status),
    ("cursor", cursorJson result.cursor?)]⟩

/-! ## Cache exchange push -/

inductive CacheExchangeRejectionReason
  | invalidRoom
  | invalidTopic
  | loopOrigin
  | maxHopsReached
  deriving DecidableEq

def CacheExchangeRejectionReason.toString : CacheExchangeRejectionReason → String
  | invalidRoom => "invalid_room"
  | invalidTopic => "invalid_topic"
  | loopOrigin => "loop_origin"
  | maxHopsReached => "max_hops_reached"

structure PushCounts where
  accepted : Nat
  duplicates : Nat
  conflicts : Nat
  rejected : Nat
  rejectionCounts : OrdMap CacheExchangeRejectionReason Nat

namespace PushCounts

def zero : PushCounts := ⟨0, 0, 0, 0, ∅⟩

def reject (counts : PushCounts) (reason : CacheExchangeRejectionReason) : PushCounts :=
  { counts with
    rejected := counts.rejected + 1
    rejectionCounts := counts.rejectionCounts.set reason (counts.rejectionCounts.getD reason 0 + 1) }

def collide (counts : PushCounts) : CacheExchangeCollision → PushCounts
  | .duplicate => { counts with duplicates := counts.duplicates + 1 }
  | .conflict => { counts with conflicts := counts.conflicts + 1 }

def record (counts : PushCounts) : PublishResult → PushCounts
  | .accepted _ _ => { counts with accepted := counts.accepted + 1 }
  | .known _ => { counts with duplicates := counts.duplicates + 1 }
  | .invalidTopic _ => counts.reject .invalidTopic

end PushCounts

/-- Why an entry is skipped before its room is looked at. The room token is checked after the
names and before the hops, and its failure ends the whole request. -/
def refusesEntryName (incoming : IncomingExchangeEntry) : Option CacheExchangeRejectionReason :=
  if isValidRoomName incoming.room = false then some .invalidRoom
  else if isValidTopic incoming.topic = false then some .invalidTopic
  else none

def refusesEntryHops (incoming : IncomingExchangeEntry) : Option CacheExchangeRejectionReason :=
  if incoming.origin = R.config.relayNodeId then some .loopOrigin
  else if incoming.maxHops ≤ incoming.hopCount then some .maxHopsReached
  else none

def IncomingExchangeEntry.envelope (incoming : IncomingExchangeEntry) : Envelope := {
  room := incoming.room
  id := incoming.id
  sender := incoming.sender
  topic := incoming.topic
  payload := incoming.payload
  signature := incoming.signature }

/-- An admitted entry: a known id is a duplicate or a conflict, a new one is published. -/
def importEntry (incoming : IncomingExchangeEntry) (counts : PushCounts) :
    Handler C PushCounts := do
  let existing ← Proc.update fun s =>
    (findEnvelopeById (s.roomOf incoming.room) incoming.id, s.openRoom incoming.room)
  match existing with
  | some existing =>
    pure (counts.collide (classifyCacheExchangeCollision R.platform existing incoming.envelope))
  | none => do
    let result ← Proc.update (ServiceState.publishEntry R incoming.room incoming.sender
      incoming.topic incoming.id (incoming.signature.getD "") incoming.payload incoming.origin
      incoming.hopCount incoming.maxHops)
    Proc.modify (ServiceState.persistResult R result)
    return counts.record result

def invalidEntryResponse (i : Nat) (error : String) : Response :=
  toErrorResponse ("invalid entry at index " ++ toString i ++ ": " ++ error) 400

/-- The body of the loop over the entries. -/
def pushEntry (request : Request) (i : Nat) (value : JsonValue) (counts : PushCounts) :
    Handler C PushCounts := do
  let incoming ← Proc.ofExcept
    ((parseIncomingCacheExchangeEntry value R.config.cacheExchangeMaxHops).mapError
      (invalidEntryResponse i))
  match refusesEntryName incoming with
  | some reason => pure (counts.reject reason)
  | none => do
    Proc.failWith (checkRoomToken R request incoming.room)
    match refusesEntryHops R incoming with
    | some reason => pure (counts.reject reason)
    | none => importEntry R incoming counts

/-- The loop over the entries: what was imported before an early answer stays. -/
def pushEntries (request : Request) : List JsonValue → Nat → PushCounts → Handler C PushCounts
  | [], _, counts => pure counts
  | value :: rest, i, counts => do
    let counts ← pushEntry R request i value counts
    pushEntries request rest (i + 1) counts

def requireEntries (parsed : JsonValue) : Handler C (List JsonValue) :=
  Proc.ofExcept ((parsed.arrField? "entries").elim
    (.error (toErrorResponse "missing field: entries" 400)) .ok)

def handleCacheExchangePush (request : Request) : Handler C Response := do
  requireMethod request "POST"
  Proc.failWith (checkPeerAuth R request)
  let parsed ← requireObject request
  let entries ← requireEntries parsed
  let counts ← pushEntries R request entries 0 .zero
  let cursor ← Proc.gets fun s => s.cacheExchangeCursor
  return ⟨200, .obj [
    ("ok", .bool true),
    ("protocol", .str "cache.exchange.v1"),
    ("node_id", .str R.config.relayNodeId),
    ("accepted", .ofNat counts.accepted),
    ("duplicates", .ofNat counts.duplicates),
    ("conflicts", .ofNat counts.conflicts),
    ("rejected", .ofNat counts.rejected),
    ("rejection_counts", .obj (counts.rejectionCounts.entries.map fun e =>
      (e.1.toString, .ofNat e.2))),
    ("next_cursor", .ofNat cursor)]⟩

/-! ## GitHub webhook -/

/-- What `applyDelivery` decides before it publishes. -/
def checkDelivery (event deliveryId : String) (requestBody : Body) (engine : IssueSyncState) :
    Except IssueSyncApplyResult IssueSyncMappedEnvelope :=
  let outerEvent := R.platform.toLowerCase (trim event)
  let event := R.platform.toLowerCase (trim outerEvent)
  let deliveryId := trim (trim deliveryId)
  if outerEvent = "" then .error (.failed "missing github event")
  else if event = "" then .error (.failed "missing issue sync event")
  else if deliveryId = "" then .error (.failed "missing issue sync delivery id")
  else if engine.deliveryIds.has deliveryId then .error (.duplicate deliveryId event)
  else
    match requestBody.json with
    | some (.obj fields) =>
      (mapGitHubDelivery R.platform outerEvent deliveryId (.obj fields)).mapError .failed
    | _ => .error (.failed "invalid json payload")

/-- A published delivery is remembered; an accepted one leaves the queue of failed ones. -/
def ServiceState.settleDelivery (deliveryId : String) (accepted : Bool) (nowSec : Int)
    (s : ServiceState C) : ServiceState C :=
  let engine := s.githubIssueSync.rememberDeliveryId deliveryId nowSec
  { s with githubIssueSync := if accepted then engine.removeDlq deliveryId else engine }

def applyGitHubWebhookDelivery (event deliveryId : String) (requestBody : Body) (nowSec : Int) :
    Handler C IssueSyncApplyResult := do
  let checked ← Proc.gets fun s => checkDelivery R event deliveryId requestBody s.githubIssueSync
  match checked with
  | .error result => pure result
  | .ok mapped => do
    let result ← Proc.update (ServiceState.publishEntry R mapped.room mapped.sender mapped.topic
      mapped.envelopeId "" mapped.payload R.config.relayNodeId 0 R.config.cacheExchangeMaxHops)
    Proc.modify (ServiceState.persistResult R result)
    if result.status ≠ 200 then
      pure (.failed ("publish failed: status=" ++ toString result.status))
    else do
      Proc.modify (ServiceState.settleDelivery (trim (trim deliveryId)) result.isAccepted nowSec)
      pure (.published (trim (trim deliveryId))
        (R.platform.toLowerCase (trim (R.platform.toLowerCase (trim event)))) result.isAccepted
        mapped result.cursor?)

/-- The body of a delivery that was applied; only the webhook itself names the action. -/
def appliedBody (front : List (String × JsonValue)) (withAction : Bool) :
    IssueSyncApplyResult → List (String × JsonValue)
  | .failed _ => []
  | .duplicate deliveryId event =>
    front ++ [("accepted", .bool false), ("duplicate", .bool true),
      ("delivery_id", .str deliveryId), ("event", .str event)] ++
    (if withAction then [("action", .str "")] else []) ++
    [("topic", .null), ("room", .null), ("issue_id", .null), ("cursor", .null)]
  | .published deliveryId event accepted mapped cursor =>
    front ++ [("accepted", .bool accepted), ("duplicate", .bool (!accepted)),
      ("delivery_id", .str deliveryId), ("event", .str event)] ++
    (if withAction then [("action", .str mapped.action)] else []) ++
    [("topic", .str mapped.topic), ("room", .str mapped.room),
      ("issue_id", .str mapped.issueId), ("cursor", cursorJson cursor)]

def ServiceState.enqueueDlq (deliveryId event : String) (body : Body) (error : String)
    (incrementRetry : Bool) (nowSec : Int) (s : ServiceState C) :
    IssueSyncDlqEntry × ServiceState C :=
  let (entry, githubIssueSync) :=
    s.githubIssueSync.enqueueDlq deliveryId event body error incrementRetry nowSec
  (entry, { s with githubIssueSync })

/-- The GitHub signature of the body under the configured secret. -/
def checkWebhookSignature (request : Request) : Except Response Unit :=
  let error := toErrorResponse "invalid github webhook signature" 401
  match parseGitHubSignatureHeader ((request.header "x-hub-signature-256").getD "") with
  | none => .error error
  | some signatureHex =>
    let expected := R.platform.hmacSha256Hex R.config.githubWebhookSecret request.body.text
    if timingSafeEqual expected signatureHex = false then .error error else .ok ()

def handleGitHubWebhook (request : Request) (env : Env) : Handler C Response := do
  requireMethod request "POST"
  Proc.failIf (R.config.githubWebhookSecret = "")
    (toErrorResponse "github webhook secret is not configured" 503)
  let event := R.platform.toLowerCase (request.headerTrim "x-github-event")
  let deliveryId := request.headerTrim "x-github-delivery"
  Proc.failIf (deliveryId = "") (toErrorResponse "missing github delivery id" 400)
  Proc.ofExcept (checkWebhookSignature R request)
  let result ← applyGitHubWebhookDelivery R event deliveryId request.body (nowEpochSec env.nowMs)
  match result with
  | .failed error => do
    let queued ← Proc.update (ServiceState.enqueueDlq deliveryId event request.body error false
      (nowEpochSec env.nowMs))
    pure ⟨202, .obj [
      ("ok", .bool false),
      ("queued", .bool true),
      ("delivery_id", .str deliveryId),
      ("event", .str event),
      ("error", .str error),
      ("retry_count", .ofNat queued.retryCount),
      ("next_retry_at", .ofInt queued.nextRetryAt)]⟩
  | result => pure ⟨200, .obj (appliedBody [("ok", .bool true)] true result)⟩

def handleGitHubWebhookDlqRetry (request : Request) (env : Env) : Handler C Response := do
  requireMethod request "POST"
  let deliveryId ← requireParam request "delivery_id"
  let found ← Proc.gets fun s => s.githubIssueSync.getDlqEntry deliveryId
  let found ← Proc.ofExcept
    (found.elim (.error (toErrorResponse "delivery_id not found in dlq" 404)) .ok)
  let result ← applyGitHubWebhookDelivery R found.event found.deliveryId found.body
    (nowEpochSec env.nowMs)
  match result with
  | .failed error => do
    let queued ← Proc.update (ServiceState.enqueueDlq found.deliveryId found.event found.body error
      true (nowEpochSec env.nowMs))
    pure ⟨200, .obj [
      ("ok", .bool true),
      ("queued", .bool true),
      ("accepted", .bool false),
      ("delivery_id", .str queued.deliveryId),
      ("event", .str queued.event),
      ("error", .str queued.lastError),
      ("retry_count", .ofNat queued.retryCount),
      ("next_retry_at", .ofInt queued.nextRetryAt)]⟩
  | result => do
    Proc.modify fun s => { s with githubIssueSync := s.githubIssueSync.removeDlq deliveryId }
    pure ⟨200, .obj (appliedBody [("ok", .bool true), ("queued", .bool false)] false result)⟩

end

end BitRelay
