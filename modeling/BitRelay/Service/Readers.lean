import BitRelay.Service.State

/-!
# Readers and room bookkeeping

The requests that read a room or the exchange log, and the ones that write
acknowledgements and presence.
-/

namespace BitRelay

section
variable {C : Type} (R : Relay C)

def okResponse (fields : List (String × JsonValue)) : Response :=
  ⟨200, .obj (("ok", .bool true) :: fields)⟩

def envelopesJson (envelopes : List Envelope) : JsonValue :=
  .arr (envelopes.map fun item => .obj (sanitizeEnvelope item))

/-- Read a room, which is created when it does not exist yet. -/
def readRoom (room : String) : Handler C RoomState :=
  Proc.update fun s => (s.roomOf room, s.openRoom room)

/-! ## Log -/

def handlePoll (request : Request) : Handler C Response := do
  requireMethod request "GET"
  let room ← requireRoom R request
  let after := normalizeAfter (request.param "after") 0
  let limit := normalizeLimit (request.param "limit") 100
  let roomState ← readRoom room
  return ⟨200, pollFromRoom roomState room after limit⟩

/-- The loop of `handleTriggerResults` over the messages from position `i` on. -/
def triggerLoop (limit : Nat) : List Envelope → Nat → List JsonValue → Nat → List JsonValue × Nat
  | [], _, results, nextCursor => (results, nextCursor)
  | envelope :: rest, i, results, _ =>
    if envelope.topic ≠ "ci.result" then triggerLoop limit rest (i + 1) results (i + 1)
    else
      let results := results ++ [.obj (("cursor", .ofNat (i + 1)) :: sanitizeEnvelope envelope)]
      if limit ≤ results.length then (results, i + 1)
      else triggerLoop limit rest (i + 1) results (i + 1)

def handleTriggerResults (request : Request) : Handler C Response := do
  requireMethod request "GET"
  let room ← requireRoom R request
  let after := normalizeAfter (request.param "after") 0
  let limit := normalizeLimit (request.param "limit") 100
  let roomState ← readRoom room
  let (results, nextCursor) := triggerLoop limit (roomState.messages.drop after) after [] after
  return okResponse [
    ("room", .str room),
    ("next_cursor", .ofNat (if results ≠ [] then nextCursor else after)),
    ("results", .arr results)]

/-! ## Inbox -/

def handleInboxPending (request : Request) : Handler C Response := do
  requireMethod request "GET"
  let room ← requireRoom R request
  let consumer ← requireParam request "consumer"
  let limit := normalizeLimit (request.param "limit") 100
  let roomState ← readRoom room
  return ⟨200, inboxPendingFromRoom roomState room consumer limit⟩

def handleInboxAck (request : Request) : Handler C Response := do
  requireMethod request "POST"
  let room ← requireRoom R request
  let consumer ← requireParam request "consumer"
  Proc.update fun s =>
    let (response, roomState) := ackIntoRoom (s.roomOf room) room consumer request.body
    (response, s.putRoom room roomState)

/-! ## Presence -/

/-- Status and metadata of a heartbeat: read only from a JSON body. -/
def parseHeartbeat (request : Request) : Except Response (String × JsonValue) :=
  if includes (R.platform.toLowerCase ((request.header "content-type").getD "")) "application/json"
  then
    match request.body.json with
    | none => .error (toErrorResponse "invalid json payload" 400)
    | some parsed =>
      let status := match parsed.get? "status" with
        | some (.str status) => status
        | _ => "online"
      .ok (status, (parsed.get? "metadata").getD .null)
  else .ok ("online", .null)

def handlePresenceHeartbeat (request : Request) (env : Env) : Handler C Response := do
  requireMethod request "POST"
  let room ← requireRoom R request
  let participant ← requireParam request "participant"
  let (status, metadata) ← Proc.ofExcept (parseHeartbeat R request)
  let isNew ← Proc.update fun s =>
    let roomState := s.roomOf room
    let presence := roomState.presenceByParticipant.set participant {
      participantId := participant, status, metadata, lastHeartbeat := nowEpochSec env.nowMs }
    (!roomState.presenceByParticipant.has participant,
      s.putRoom room { roomState with presenceByParticipant := presence })
  return okResponse [
    ("participant", .str participant),
    ("status", .str status),
    ("event", .str (if isNew then "joined" else "updated"))]

def handlePresenceGet (room : String) (env : Env) : Handler C Response := do
  let roomState ← Proc.update fun s =>
    let roomState := prunePresence (s.roomOf room) (nowEpochSec env.nowMs) R.config.presenceTtlSec
    (roomState, s.putRoom room roomState)
  return okResponse [
    ("room", .str room),
    ("participants", .arr (roomState.presenceByParticipant.values.map PresenceRecord.toJson))]

def handlePresenceDelete (request : Request) (room : String) : Handler C Response := do
  let participant ← requireParam request "participant"
  let removed ← Proc.update fun s =>
    let roomState := s.roomOf room
    (roomState.presenceByParticipant.has participant, s.putRoom room { roomState with
      presenceByParticipant := roomState.presenceByParticipant.erase participant })
  return okResponse [("participant", .str participant), ("removed", .bool removed)]

def handlePresence (request : Request) (env : Env) : Handler C Response := do
  let room ← requireRoom R request
  if request.method = "GET" then handlePresenceGet R room env
  else if request.method = "DELETE" then handlePresenceDelete request room
  else Proc.answer methodNotAllowedResponse

/-! ## Review status -/

def handleReviewGet (request : Request) (room : String) : Handler C Response := do
  let prId ← requireParam request "pr_id"
  Proc.failIf (isValidPrId prId = false) (toErrorResponse "invalid pr_id" 400)
  let roomState ← readRoom room
  let reviews := roomState.reviewsByPr.getD prId ∅
  let status := computeReviewStatus reviews
  return okResponse [
    ("room", .str room),
    ("pr_id", .str prId),
    ("resolved", .bool status.resolved),
    ("approve_count", .ofNat status.approveCount),
    ("deny_count", .ofNat status.denyCount),
    ("reviews", .arr (reviews.values.map ReviewRecord.toJson))]

/-! ## Cache exchange -/

def handleCacheExchangeDiscovery (request : Request) : Handler C Response := do
  requireMethod request "GET"
  Proc.failWith (checkPeerAuth R request)
  let repository := R.config.repositoryMetadata
  return okResponse [
    ("protocol", .str "cache.exchange.v1"),
    ("node_id", .str R.config.relayNodeId),
    ("peers", .arr (R.config.peerRelayUrls.map .str)),
    ("max_hops", .ofNat R.config.cacheExchangeMaxHops),
    ("repository", .obj [
      ("repo_id", .ofString? repository.repoId),
      ("owner", .ofString? repository.owner),
      ("name", .ofString? repository.name),
      ("recent_commits", .arr (repository.recentCommits.map .str))])]

/-- The room filter of a pull: `none` when the parameter is missing or blank. -/
def pullRoom (request : Request) : Option String :=
  if request.paramTrim "room" ≠ "" then some (request.paramTrim "room") else none

def pullPeer (request : Request) : Option String :=
  if request.paramTrim "peer" ≠ "" then some (request.paramTrim "peer") else none

/-- The name and the token are checked only when there is a room filter. -/
def checkPullRoom (request : Request) : Option Response :=
  match pullRoom request with
  | none => none
  | some room =>
    if isValidRoomName room = false then some invalidRoomResponse
    else checkRoomToken R request room

def pullArgs (request : Request) : SelectExchangeEntriesArgs where
  after := normalizeAfter (request.param "after") 0
  limit := normalizeLimit (request.param "limit") 100
  peer := pullPeer request
  room := pullRoom request

theorem pullArgs_room (request : Request) : (pullArgs request).room = pullRoom request := by
  simp only [pullArgs]

def handleCacheExchangePull (request : Request) : Handler C Response := do
  requireMethod request "GET"
  Proc.failWith (checkPeerAuth R request)
  Proc.failWith (checkPullRoom R request)
  let (entries, nextCursor) ← Proc.gets fun s =>
    selectCacheExchangeEntries s.cacheExchangeRecords (pullArgs request)
  return okResponse [
    ("protocol", .str "cache.exchange.v1"),
    ("node_id", .str R.config.relayNodeId),
    ("next_cursor", .ofNat nextCursor),
    ("returned_count", .ofNat entries.length),
    ("entries", .arr (entries.map CacheExchangeEntry.toJson))]

/-! ## Cached issues -/

def handleCacheIssuePull (request : Request) : Handler C Response := do
  requireMethod request "GET"
  Proc.failWith (checkPeerAuth R request)
  let room ← requireRoom R request
  let after := normalizeAfter (request.param "after") 0
  let limit := normalizeLimit (request.param "limit") 100
  let result ← Proc.gets fun s => R.cacheAdapter.pullIssues s.cache room after limit
  return okResponse [
    ("room", .str room),
    ("next_cursor", .ofInt result.nextCursor),
    ("envelopes", envelopesJson result.envelopes)]

def CacheIssueEvent.toJson (record : CacheIssueEvent) : JsonValue := .obj [
  ("cursor", .ofNat record.cursor),
  ("issue_id", .str record.issueId),
  ("action", .str record.action),
  ("source_updated_at_ms", .ofInt? record.sourceUpdatedAtMs),
  ("updated_at", .ofInt record.updatedAt),
  ("envelope", .obj (sanitizeEnvelope record.envelope))]

def CacheIssueSnapshot.toJson (record : CacheIssueSnapshot) : JsonValue := .obj [
  ("issue_id", .str record.issueId),
  ("last_cursor", .ofNat record.lastCursor),
  ("source_updated_at_ms", .ofInt? record.sourceUpdatedAtMs),
  ("updated_at", .ofInt record.updatedAt),
  ("envelope", .obj (sanitizeEnvelope record.envelope))]

def handleCacheIssueSync (request : Request) : Handler C Response := do
  requireMethod request "GET"
  Proc.failWith (checkPeerAuth R request)
  let room ← requireRoom R request
  let after := normalizeAfter (request.param "after") 0
  let limit := normalizeLimit (request.param "limit") 100
  let snapshotLimit := normalizeLimit (request.param "snapshot_limit") 100
  let result ← Proc.update fun s =>
    let (result, cache) := R.cacheAdapter.syncIssues s.cache room after limit snapshotLimit
    (result, { s with cache })
  return okResponse [
    ("room", .str room),
    ("next_cursor", .ofInt result.nextCursor),
    ("room_cursor", .ofInt result.roomCursor),
    ("events", .arr (result.events.map CacheIssueEvent.toJson)),
    ("snapshots", .arr (result.snapshots.map CacheIssueSnapshot.toJson))]

/-! ## Failed webhook deliveries -/

def handleGitHubWebhookDlqList (request : Request) : Handler C Response := do
  requireMethod request "GET"
  let after := normalizeAfter (request.param "after") 0
  let limit := normalizeLimit (request.param "limit") 100
  let (entries, nextCursor) ← Proc.gets fun s => s.githubIssueSync.listDlq after limit
  return okResponse [
    ("next_cursor", .ofNat nextCursor),
    ("entries", .arr (entries.map fun entry => .obj [
      ("delivery_id", .str entry.deliveryId),
      ("event", .str entry.event),
      ("retry_count", .ofNat entry.retryCount),
      ("created_at", .ofInt entry.createdAt),
      ("updated_at", .ofInt entry.updatedAt),
      ("next_retry_at", .ofInt entry.nextRetryAt),
      ("last_error", .str entry.lastError)]))]

/-! ## WebSocket -/

/-- The room is created before the token is checked. -/
def handleWebSocket (request : Request) (env : Env) : Handler C Response := do
  let room := normalizeRoom (request.param "room")
  Proc.failIf (isValidRoomName room = false) invalidRoomResponse
  let _ ← readRoom room
  Proc.failWith (checkRoomToken R request room)
  Proc.failIf (env.webSocketsFull = true) (toErrorResponse "too many connections" 503)
  Proc.failIf (R.platform.toLowerCase ((request.header "upgrade").getD "") ≠ "websocket")
    ⟨426, .str "Expected WebSocket"⟩
  return env.webSocketResponse

end

end BitRelay
