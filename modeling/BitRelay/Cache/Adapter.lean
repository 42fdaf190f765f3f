import BitRelay.Cache.Projection
import BitRelay.Lib.Run
import BitRelay.Service.State

/-!
# The cache adapter

`relay_cache_adapter.ts` over the memory cache store: the task that persists an
envelope, with the retries of `cache_persistence_queue.ts`, and the pull of the
issues of a room.

The task goes from one call of the store to the next. A call is carried out or it
throws; a `StoreAnswer` says which, and at what time. `PersistStage` is the call the
task makes next, with the values it has computed.
-/

namespace BitRelay

/-! ## Options and state -/

/-- Where the truth about an issue comes from. -/
inductive IssueSource
  | github
  | bit
  deriving DecidableEq

inductive IssueSourceOfTruth
  | lastWrite
  | preferred (source : IssueSource)
  deriving DecidableEq

structure CacheAdapterOptions where
  platform : Platform
  collation : Collation
  issueSourceOfTruth : IssueSourceOfTruth
  cachePersistMaxRetries : Nat

structure CacheAdapterState where
  cacheStore : MemoryCacheStore
  issueCursorByRoom : OrdMap String Nat

/-- The options for runs on fixed inputs. -/
def CacheAdapterOptions.toy : CacheAdapterOptions := ⟨.toy, .codeUnits, .lastWrite, 2⟩

/-- An adapter over an empty store without limits. -/
def CacheAdapterState.toy : CacheAdapterState := ⟨⟨.unlimited, ∅⟩, ∅⟩

structure StoreAnswer where
  ok : Bool
  nowSec : Nat
  deriving DecidableEq

variable (A : CacheAdapterOptions)

/-! ## The source of truth -/

def parseIssueSource (payload : JsonValue) : Option IssueSource :=
  let source := A.platform.toLowerCase (trim (payload.strField "source"))
  if source = "github" then some .github
  else if source = "bit" then some .bit
  else none

def isOlderByTimestamp (incoming existing : Option Nat) : Bool :=
  match incoming, existing with
  | some incoming, some existing => decide (incoming < existing)
  | _, _ => false

def shouldUpdateSnapshotBySourcePolicy (policy : IssueSourceOfTruth)
    (incomingSource existingSource : Option IssueSource) (incomingMs existingMs : Option Nat) :
    Bool :=
  if isOlderByTimestamp incomingMs existingMs then false
  else match policy with
    | .lastWrite => true
    | .preferred source => !(existingSource == some source && incomingSource != some source)

/-! ## Calls of the store -/

def cacheJsonRequest (kind : CacheStoreKind) (key room ref : String) (value : JsonValue)
    (updatedAt : Nat) : CacheStorePutRequest where
  kind
  key
  body := A.platform.stringify value
  room := some room
  ref := some ref
  contentHash := some (A.platform.sha256Hex (canonicalizeJson A.platform value))
  contentType := some "application/json"
  updatedAt := some (updatedAt : Int)

/-- `putCacheJsonObject`; `none` is a throw. -/
def putCacheJsonObject (request : CacheStorePutRequest) (s : CacheAdapterState)
    (answer : StoreAnswer) : Option CacheAdapterState := do
  if answer.ok then
    let store ← (s.cacheStore.put A.collation request answer.nowSec).toOption
    return { s with cacheStore := store }
  else none

/-- `cacheStore.get('object', key)`; the outer `none` is a throw. -/
def getCacheObject (key : String) (s : CacheAdapterState) (answer : StoreAnswer) :
    Option (Option CacheStoreObject × CacheAdapterState) := do
  if answer.ok then
    let (found, store) ← (s.cacheStore.get .object key answer.nowSec).toOption
    return (found, { s with cacheStore := store })
  else none

/-- The cursor that a stored record gives the room; 0 when there is no such record. -/
def cursorOf (room : String) (cached : Option CacheStoreObject) : Nat :=
  match cached.bind parseIssueCacheCursorRecord with
  | some record => if record.room = room then record.cursor else 0
  | none => 0

/-! ## Persisting an envelope -/

inductive PersistStage
  | putEnvelope
  | readCursor
  | cursorRead (inMemory persisted : Nat)
  | putEvent (issueCursor updatedAt : Nat)
  | readSnapshot (issueCursor updatedAt : Nat)
  | putSnapshot (issueCursor updatedAt : Nat)
  | putCursor (issueCursor updatedAt : Nat)
  | persisted
  | failed
  deriving DecidableEq

structure PersistTask where
  attempt : Nat
  stage : PersistStage
  deriving DecidableEq

/-- The task of `persistEnvelope` as the queue starts it. -/
def PersistTask.start : PersistTask := ⟨0, .putEnvelope⟩

section
variable (envelope : Envelope) (roomCursorHint : Option Int)

def issueEvent (issueCursor updatedAt : Nat) : IssueCacheEventRecord where
  room := envelope.room
  cursor := issueCursor
  issueId := extractIssueIdFromEnvelope envelope
  action := deriveIssueAction envelope
  envelope
  sourceUpdatedAtMs := parseIssueSourceUpdatedAtMs A.platform envelope.payload
  updatedAt

def issueSnapshot (issueCursor updatedAt : Nat) : IssueCacheSnapshotRecord where
  room := envelope.room
  issueId := extractIssueIdFromEnvelope envelope
  lastCursor := issueCursor
  envelope
  sourceUpdatedAtMs := parseIssueSourceUpdatedAtMs A.platform envelope.payload
  updatedAt

def issueCursorRecord (issueCursor updatedAt : Nat) : IssueCacheCursorRecord where
  room := envelope.room
  cursor := issueCursor
  updatedAt

def envelopeRequest (updatedAt : Nat) : CacheStorePutRequest :=
  cacheJsonRequest A (if isIssueTopic envelope.topic then .issue else .object)
    (envelopeStorageKey envelope.room envelope.id) envelope.room envelope.topic envelope.toJson
    updatedAt

def issueEventRequest (issueCursor updatedAt : Nat) : CacheStorePutRequest :=
  cacheJsonRequest A .object (issueEventStorageKey envelope.room issueCursor envelope.id)
    envelope.room ("issue_event:" ++ extractIssueIdFromEnvelope envelope)
    (issueEvent A envelope issueCursor updatedAt).toJson updatedAt

def issueSnapshotRequest (issueCursor updatedAt : Nat) : CacheStorePutRequest :=
  cacheJsonRequest A .object
    (issueSnapshotStorageKey envelope.room (extractIssueIdFromEnvelope envelope)) envelope.room
    "issue_snapshot" (issueSnapshot A envelope issueCursor updatedAt).toJson updatedAt

def issueCursorRequest (issueCursor updatedAt : Nat) : CacheStorePutRequest :=
  cacheJsonRequest A .object (issueCursorStorageKey envelope.room) envelope.room "issue_cursor"
    (issueCursorRecord envelope issueCursor updatedAt).toJson updatedAt

/-- The hint as `nextIssueCursor` uses it. -/
def hintFloor : Nat := roomCursorHint.elim 0 fun hint => decDouble hint.toNat

/-- What `nextIssueCursor` returns for the current cursor of the room. -/
def nextIssueCursor (current : Nat) : Nat := incDouble (max current (hintFloor roomCursorHint))

/-- Whether the snapshot of the issue is written over the existing object. -/
def updatesSnapshot (existing : Option CacheStoreObject) : Bool :=
  match existing.bind parseIssueCacheSnapshotRecord with
  | none => true
  | some parsed =>
    shouldUpdateSnapshotBySourcePolicy A.issueSourceOfTruth (parseIssueSource A envelope.payload)
      (parseIssueSource A parsed.envelope.payload)
      (parseIssueSourceUpdatedAtMs A.platform envelope.payload) parsed.sourceUpdatedAtMs

/-- One call of the task and what it does up to the next one; `none` is a throw. -/
def PersistStage.step (s : CacheAdapterState) (answer : StoreAnswer) :
    PersistStage → Option (CacheAdapterState × PersistStage)
  | putEnvelope => do
    let s ← putCacheJsonObject A (envelopeRequest A envelope answer.nowSec) s answer
    return (s, if isIssueTopic envelope.topic then readCursor else persisted)
  | readCursor =>
    -- A read that throws counts as no record.
    let (cached, s) := (getCacheObject (issueCursorStorageKey envelope.room) s answer).getD (none, s)
    some (s, cursorRead (s.issueCursorByRoom.getD envelope.room 0) (cursorOf envelope.room cached))
  | cursorRead inMemory cached =>
    let current := max inMemory cached
    let next := nextIssueCursor roomCursorHint current
    some ({ s with
      issueCursorByRoom := (s.issueCursorByRoom.set envelope.room current).set envelope.room next },
      putEvent next answer.nowSec)
  | putEvent issueCursor updatedAt => do
    let s ← putCacheJsonObject A (issueEventRequest A envelope issueCursor updatedAt) s answer
    return (s, readSnapshot issueCursor updatedAt)
  | readSnapshot issueCursor updatedAt =>
    let key := issueSnapshotStorageKey envelope.room (extractIssueIdFromEnvelope envelope)
    let (existing, s) := (getCacheObject key s answer).getD (none, s)
    some (s, if updatesSnapshot A envelope existing then putSnapshot issueCursor updatedAt
      else putCursor issueCursor updatedAt)
  | putSnapshot issueCursor updatedAt => do
    let s ← putCacheJsonObject A (issueSnapshotRequest A envelope issueCursor updatedAt) s answer
    return (s, putCursor issueCursor updatedAt)
  | putCursor issueCursor updatedAt => do
    let s ← putCacheJsonObject A (issueCursorRequest A envelope issueCursor updatedAt) s answer
    return (s, persisted)
  | persisted => some (s, persisted)
  | failed => some (s, failed)

/-- `runWithRetry`: a throw starts the task again, until the retries are used up. -/
def PersistTask.retry (task : PersistTask) : PersistTask :=
  if A.cachePersistMaxRetries ≤ task.attempt then { task with stage := .failed }
  else ⟨task.attempt + 1, .putEnvelope⟩

def persistStep (p : CacheAdapterState × PersistTask) (answer : StoreAnswer) :
    CacheAdapterState × PersistTask :=
  match p.2.stage.step A envelope roomCursorHint p.1 answer with
  | some (s, stage) => (s, { p.2 with stage })
  | none => (p.1, p.2.retry A)

/-- The task of an envelope after the store answered its calls so. -/
def persistRun (s : CacheAdapterState) (answers : List StoreAnswer) :
    CacheAdapterState × PersistTask :=
  runFrom (persistStep A envelope roomCursorHint) (s, .start) answers

/-- `persistEnvelope` over a store that answers every call. -/
def persistEnvelope (s : CacheAdapterState) (nowSec : Nat) : CacheAdapterState :=
  (persistRun A envelope roomCursorHint s (List.replicate 7 ⟨true, nowSec⟩)).1

end

/-! ## Pulling issues -/

/-- The loop of `pullIssues` over the listed entries. -/
def readIssueEntries (room : String) (nowSec : Nat) :
    List CacheStoreMetadata → MemoryCacheStore → List Envelope × MemoryCacheStore
  | [], store => ([], store)
  | entry :: rest, store =>
    match store.get .issue entry.key nowSec with
    | .error _ => readIssueEntries room nowSec rest store
    | .ok (cached, store) =>
      let (envelopes, store) := readIssueEntries room nowSec rest store
      match cached.bind parseCachedIssueEnvelope with
      | none => (envelopes, store)
      | some envelope =>
        if envelope.room = room ∧ isIssueTopic envelope.topic = true then
          (envelope :: envelopes, store)
        else (envelopes, store)

/-- `pullIssues` over a store that answers every call. -/
def pullIssues (s : CacheAdapterState) (room : String) (after limit nowSec : Nat) :
    CacheIssuePull × CacheAdapterState :=
  let (listed, store) := s.cacheStore.list A.collation
    ⟨some .issue, none, some room, some (max 1 limit), some (toString after)⟩ nowSec
  let (envelopes, store) := readIssueEntries room nowSec listed.entries store
  let behind : Int := after + listed.entries.length
  let nextCursor := match listed.cursor with
    | none => behind
    | some cursor => (parseInt10 cursor).getD behind
  (⟨nextCursor, envelopes⟩, { s with cacheStore := store })

end BitRelay
