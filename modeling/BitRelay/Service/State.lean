import BitRelay.GitHubWebhook
import BitRelay.Js.Base64
import BitRelay.Identity
import BitRelay.Lib.Proc
import BitRelay.Room

/-!
# The relay service: configuration and state

What `createMemoryRelayService` closes over: the constants it computes from its
options, and its mutable tables. A handler is a `Proc` over that state whose
early answers are responses.

The cache adapter is a parameter: the service only hands it accepted envelopes
and passes its pages on.
-/

namespace BitRelay

/-! ## Configuration -/

structure NormalizedRepositoryMetadata where
  repoId : Option String
  owner : Option String
  name : Option String
  recentCommits : List String

/-- The constants of a service after the options are normalised; what the normalisation
guarantees is carried along. -/
structure RelayConfig where
  authToken : String
  peerAuthToken : String
  roomTokens : OrdMap String String
  roomTokens_normal : ∀ room token, roomTokens.get? room = some token →
    isValidRoomName room = true ∧ Trimmed token ∧ token ≠ ""
  maxMessagesPerRoom : Nat
  maxMessagesPerRoom_pos : 1 ≤ maxMessagesPerRoom
  publishPayloadMaxBytes : Nat
  publishLimitPerWindow : Nat
  publishWindowMs : Nat
  ipPublishLimitPerWindow : Nat
  roomPublishLimitPerWindow : Nat
  requireSignatures : Bool
  maxClockSkewSec : Nat
  noncePolicy : NoncePolicy
  presenceTtlSec : Nat
  relayNodeId : String
  peerRelayUrls : List String
  repositoryMetadata : NormalizedRepositoryMetadata
  cacheExchangeMaxHops : Nat
  cacheExchangeMaxRecords : Nat
  cacheExchangeMaxRecords_pos : 1 ≤ cacheExchangeMaxRecords
  githubWebhookSecret : String

/-- `createMemoryRelayService({})` -/
def RelayConfig.default : RelayConfig where
  authToken := ""
  peerAuthToken := ""
  roomTokens := ∅
  roomTokens_normal := nofun
  maxMessagesPerRoom := 1000
  maxMessagesPerRoom_pos := by decide
  publishPayloadMaxBytes := 64 * 1024
  publishLimitPerWindow := 30
  publishWindowMs := 60000
  ipPublishLimitPerWindow := 60
  roomPublishLimitPerWindow := 60
  requireSignatures := true
  maxClockSkewSec := 300
  noncePolicy := ⟨600, 2048, by decide⟩
  presenceTtlSec := 60
  relayNodeId := "relay-node"
  peerRelayUrls := []
  repositoryMetadata := ⟨none, none, none, []⟩
  cacheExchangeMaxHops := 3
  cacheExchangeMaxRecords := 10000
  cacheExchangeMaxRecords_pos := by decide
  githubWebhookSecret := ""

/-! ## The cache adapter -/

structure CacheIssueEvent where
  cursor : Nat
  issueId : String
  action : String
  sourceUpdatedAtMs : Option Int
  updatedAt : Int
  envelope : Envelope

structure CacheIssueSnapshot where
  issueId : String
  lastCursor : Nat
  sourceUpdatedAtMs : Option Int
  updatedAt : Int
  envelope : Envelope

structure CacheIssuePull where
  nextCursor : Int
  envelopes : List Envelope

structure CacheIssueSync where
  nextCursor : Int
  roomCursor : Int
  events : List CacheIssueEvent
  snapshots : List CacheIssueSnapshot

/-- `RelayCacheAdapter` over a cache state `C`. Its functions catch the failures of the store. -/
structure CacheAdapter (C : Type) where
  persistEnvelope : C → Envelope → Nat → C
  pullIssues : C → String → Nat → Nat → CacheIssuePull
  syncIssues : C → String → Nat → Nat → Nat → CacheIssueSync × C

/-- The calls that move the state of an adapter. -/
inductive CacheStep {C : Type} (cacheAdapter : CacheAdapter C) : C → C → Prop
  | persist (cache : C) (envelope : Envelope) (roomCursorHint : Nat) :
      CacheStep cacheAdapter cache (cacheAdapter.persistEnvelope cache envelope roomCursorHint)
  | sync (cache : C) (room : String) (after limit snapshotLimit : Nat) :
      CacheStep cacheAdapter cache
        (cacheAdapter.syncIssues cache room after limit snapshotLimit).2

/-- The adapter of a service without a cache store. -/
def CacheAdapter.noStore : CacheAdapter Unit where
  persistEnvelope cache _ _ := cache
  pullIssues _ _ after _ := ⟨after, []⟩
  syncIssues cache _ after _ _ := (⟨after, after, [], []⟩, cache)

/-! ## State -/

structure Relay (C : Type) where
  config : RelayConfig
  platform : Platform
  cacheAdapter : CacheAdapter C

/-- A service without a cache store, on the toy host. -/
def Relay.toy (config : RelayConfig) : Relay Unit := ⟨config, .toy, .noStore⟩

structure ServiceState (C : Type) where
  rooms : OrdMap String RoomState
  senderRateCounts : OrdMap String RateCounter
  ipRateCounts : OrdMap String RateCounter
  roomRateCounts : OrdMap String RateCounter
  keyRegistry : KeyRegistry
  noncesBySender : NoncesBySender
  cacheExchangeRecords : List CacheExchangeRecord
  cacheExchangeCursor : Nat
  githubIssueSync : IssueSyncState
  cache : C

/-- What a request meets in the outside world. The clock is read once before the body is awaited
and once after. -/
structure Env where
  arrivedMs : Nat
  nowMs : Nat
  randomUUID : String
  /-- the answer of `fetchGitHubEd25519Keys` -/
  githubKeys : Except String (List Bytes)
  /-- `roomState.sessions.size >= maxWsSessions` -/
  webSocketsFull : Bool
  /-- the upgrade response of the runtime -/
  webSocketResponse : Response

/-- A request that meets one clock reading and nothing else. -/
def Env.at (nowMs : Nat) : Env where
  arrivedMs := nowMs
  nowMs := nowMs
  randomUUID := "3b241101-e2bb-4255-8caf-4136c566a962"
  githubKeys := .error "fetch failed"
  webSocketsFull := false
  webSocketResponse := ⟨101, .null⟩

/-- A handler: it ends with a value or answers early. -/
abbrev Handler (C α : Type) : Type := Proc Response (ServiceState C) α

/-- The response of a handler and the state it leaves. -/
def Handler.serve {C : Type} (x : Handler C Response) (s : ServiceState C) :
    Response × ServiceState C :=
  match x.run s with
  | (.ok response, s') => (response, s')
  | (.error response, s') => (response, s')

namespace ServiceState

variable {C : Type}

def init (cache : C) : ServiceState C :=
  ⟨∅, ∅, ∅, ∅, ∅, ∅, [], 0, .empty, cache⟩

/-- The state of a room; a room nobody used yet is empty. -/
def roomOf (s : ServiceState C) (room : String) : RoomState := s.rooms.getD room createRoomState

def putRoom (s : ServiceState C) (room : String) (roomState : RoomState) : ServiceState C :=
  { s with rooms := s.rooms.set room roomState }

/-- `getOrCreateRoomState(rooms, room)` -/
def openRoom (s : ServiceState C) (room : String) : ServiceState C := s.putRoom room (s.roomOf room)

/-- Append an exchange record under the next cursor, and drop the oldest above the cap. -/
def recordCacheExchange (R : Relay C) (envelope : Envelope) (origin : String)
    (hopCount maxHops : Nat) (s : ServiceState C) : ServiceState C :=
  let cursor := s.cacheExchangeCursor + 1
  let record : CacheExchangeRecord := { cursor, envelope, origin, hopCount, maxHops }
  let records := s.cacheExchangeRecords ++ [record]
  { s with
    cacheExchangeCursor := cursor
    cacheExchangeRecords := records.drop (records.length - R.config.cacheExchangeMaxRecords) }

def persistEnvelopeToCache (R : Relay C) (envelope : Envelope) (roomCursorHint : Nat)
    (s : ServiceState C) : ServiceState C :=
  { s with cache := R.cacheAdapter.persistEnvelope s.cache envelope roomCursorHint }

/-- `publishIntoRoom` and, when the message was accepted, its exchange record. -/
def publishEntry (R : Relay C) (room sender topic id signature : String) (payload : JsonValue)
    (origin : String) (hopCount maxHops : Nat) (s : ServiceState C) :
    PublishResult × ServiceState C :=
  let (result, roomState) := publishIntoRoom (s.roomOf room) room sender topic id signature payload
    R.config.maxMessagesPerRoom
  let s := s.putRoom room roomState
  match result with
  | .accepted envelope cursor =>
    (.accepted envelope cursor, s.recordCacheExchange R envelope origin hopCount maxHops)
  | .invalidTopic topic => (.invalidTopic topic, s)
  | .known cursor => (.known cursor, s)

/-- The cache write that follows an accepted message. -/
def persistResult (R : Relay C) (result : PublishResult) (s : ServiceState C) : ServiceState C :=
  match result with
  | .accepted envelope cursor => s.persistEnvelopeToCache R envelope cursor
  | .invalidTopic _ | .known _ => s

@[simp] theorem roomOf_putRoom_self (s : ServiceState C) (room : String) (roomState : RoomState) :
    (s.putRoom room roomState).roomOf room = roomState := by
  simp [roomOf, putRoom, OrdMap.getD]

theorem roomOf_putRoom_of_ne (s : ServiceState C) {room other : String} (h : other ≠ room)
    (roomState : RoomState) : (s.putRoom room roomState).roomOf other = s.roomOf other := by
  simp only [roomOf, putRoom, OrdMap.getD, OrdMap.get?_set_of_ne _ h]

@[simp] theorem roomOf_openRoom (s : ServiceState C) (room other : String) :
    (s.openRoom room).roomOf other = s.roomOf other := by
  by_cases h : other = room
  · subst h
    exact roomOf_putRoom_self s other _
  · exact roomOf_putRoom_of_ne s h _

end ServiceState

/-! ## Gates -/

section Gates
variable {C : Type} (R : Relay C)

/-- The check of the relay's own token. -/
def checkAuth (request : Request) : Option Response :=
  let presented := extractPresentedToken request
  if R.config.authToken ≠ "" ∧ shouldRequireAuth request.pathname = true ∧
      (presented = "" ∨ timingSafeEqual presented R.config.authToken = false)
  then some unauthorizedResponse else none

def checkPeerAuth (request : Request) : Option Response :=
  let presented := extractPresentedToken request
  if R.config.peerAuthToken ≠ "" ∧
      (presented = "" ∨ timingSafeEqual presented R.config.peerAuthToken = false)
  then some unauthorizedResponse else none

def checkRoomToken (request : Request) (room : String) : Option Response :=
  match R.config.roomTokens.get? room with
  | none => none
  | some expected =>
    let provided := readRoomToken request
    if provided = "" ∨ timingSafeEqual provided expected = false
    then some (toErrorResponse "forbidden" 403) else none

/-- `if (request.method !== method) return methodNotAllowedResponse();` -/
def requireMethod (request : Request) (method : String) : Handler C Unit :=
  Proc.failIf (request.method ≠ method) methodNotAllowedResponse

/-- The room of the query, checked for its name and its token. -/
def requireRoom (request : Request) : Handler C String := do
  let room := normalizeRoom (request.param "room")
  Proc.failIf (isValidRoomName room = false) invalidRoomResponse
  Proc.failWith (checkRoomToken R request room)
  return room

/-- A query parameter that must not be blank. -/
def requireParam (request : Request) (key : String) : Handler C String := do
  Proc.failIf (request.paramTrim key = "") (toErrorResponse ("missing query: " ++ key) 400)
  return request.paramTrim key

/-- The body as a plain object, or a 400. -/
def requireObject (request : Request) : Handler C JsonValue :=
  match request.body.json with
  | some (.obj fields) => pure (.obj fields)
  | _ => Proc.answer (toErrorResponse "invalid json payload" 400)

end Gates

end BitRelay
