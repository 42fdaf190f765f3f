import BitRelay.Cache.Adapter

/-!
# What the persistence task writes

The calls of the persistence task over a store in which nothing expires and
nothing is evicted. Each put sets one record, each get leaves the store alone.

Results:
1. `put_bind`, `getCacheObject_unlimited`: the two calls.
2. `step_putEnvelope` to `step_putCursor`: what one step of the task does, stage
   by stage.
3. `cacheStore_persistEnvelope`: the puts of a persistence in which no call throws.
-/

namespace BitRelay

variable {A : CacheAdapterOptions} {envelope : Envelope} {roomCursorHint : Option Int}
  {s s' : CacheAdapterState}

/-! ## Records -/

/-- The record stored for a request of the adapter. -/
def CacheStorePutRequest.stored (request : CacheStorePutRequest) : CacheStoreObject :=
  MemoryCacheStore.recordOf request request.key 0

def CacheStorePutRequest.storageKey (request : CacheStorePutRequest) : String :=
  toStorageKey request.kind request.key

namespace CacheAdapterState

/-- The record under a storage key. -/
def record? (s : CacheAdapterState) (storageKey : String) : Option CacheStoreObject :=
  s.cacheStore.records.get? storageKey

/-- The object under a key. -/
def object? (s : CacheAdapterState) (key : String) : Option CacheStoreObject :=
  s.record? (toStorageKey .object key)

def Unlimited (s : CacheAdapterState) : Prop := s.cacheStore.policy = .unlimited

def store (s : CacheAdapterState) (request : CacheStorePutRequest) : CacheAdapterState :=
  { s with cacheStore := s.cacheStore.setRecord request.storageKey request.stored }

theorem record?_store (s : CacheAdapterState) (request : CacheStorePutRequest)
    (storageKey : String) : (s.store request).record? storageKey =
      if storageKey = request.storageKey then some request.stored else s.record? storageKey :=
  OrdMap.get?_set _ _ _ _

@[simp] theorem record?_store_self (s : CacheAdapterState) (request : CacheStorePutRequest) :
    (s.store request).record? request.storageKey = some request.stored :=
  OrdMap.get?_set_self _ _ _

theorem record?_store_of_ne (s : CacheAdapterState) {request : CacheStorePutRequest}
    {storageKey : String} (h : storageKey ≠ request.storageKey) :
    (s.store request).record? storageKey = s.record? storageKey := by
  rw [record?_store, if_neg h]

end CacheAdapterState

/-! ## Calls -/

/-- A put that is carried out sets its record; what comes behind it runs on the new state. -/
theorem put_bind (h : s.Unlimited) {request : CacheStorePutRequest} (hkey : FreeText request.key)
    (hat : request.updatedAt.isSome = true) (answer : StoreAnswer)
    (f : CacheAdapterState → Option (CacheAdapterState × PersistStage)) :
    (putCacheJsonObject A request s answer).bind f =
      if answer.ok then f (s.store request) else none := by
  obtain ⟨updatedAt, hat⟩ := Option.isSome_iff_exists.mp hat
  unfold putCacheJsonObject
  rw [MemoryCacheStore.put_unlimited A.collation h, normalizeKey_trimmed hkey.2 hkey.1]
  cases answer.ok with
  | false => rfl
  | true =>
    have hstored : MemoryCacheStore.recordOf request request.key answer.nowSec = request.stored := by
      simp only [CacheStorePutRequest.stored, MemoryCacheStore.recordOf, hat, Option.getD_some]
    show f { s with cacheStore := s.cacheStore.setRecord request.storageKey _ } = f (s.store request)
    rw [hstored]
    rfl

theorem getCacheObject_unlimited (h : s.Unlimited) {key : String} (hkey : FreeText key)
    (answer : StoreAnswer) :
    getCacheObject key s answer = if answer.ok then some (s.object? key, s) else none := by
  unfold getCacheObject
  rw [MemoryCacheStore.get_unlimited h, normalizeKey_trimmed hkey.2 hkey.1]
  cases answer.ok with
  | false => rfl
  | true => rfl

/-! ## Stages -/

/-- The envelopes that reach the adapter: the room and the id are checked before. -/
structure Envelope.Storable (envelope : Envelope) : Prop where
  room : isValidRoomName envelope.room = true
  id : FreeText envelope.id

namespace PersistStage

variable (hs : s.Unlimited) (h : envelope.Storable) (answer : StoreAnswer)
include hs h

theorem step_putEnvelope : putEnvelope.step A envelope roomCursorHint s answer =
    if answer.ok then some (s.store (envelopeRequest A envelope answer.nowSec),
      if isIssueTopic envelope.topic then readCursor else persisted)
    else none :=
  put_bind hs (freeText_envelopeKey (freeText_room h.room) h.id) rfl answer _

theorem step_readCursor : readCursor.step A envelope roomCursorHint s answer =
    some (s, cursorRead (s.issueCursorByRoom.getD envelope.room 0) (cursorOf envelope.room
      (if answer.ok then s.object? (issueCursorStorageKey envelope.room) else none))) := by
  simp only [step, getCacheObject_unlimited hs (freeText_cursor (freeText_room h.room))]
  cases answer.ok with
  | false => rfl
  | true => rfl

theorem step_putEvent (issueCursor updatedAt : Nat) :
    (putEvent issueCursor updatedAt).step A envelope roomCursorHint s answer =
    if answer.ok then some (s.store (issueEventRequest A envelope issueCursor updatedAt),
      readSnapshot issueCursor updatedAt)
    else none :=
  put_bind hs (freeText_event issueCursor h.id) rfl answer _

theorem step_readSnapshot (issueCursor updatedAt : Nat) :
    (readSnapshot issueCursor updatedAt).step A envelope roomCursorHint s answer =
    some (s, if updatesSnapshot A envelope (if answer.ok then s.object? (issueSnapshotStorageKey
        envelope.room (extractIssueIdFromEnvelope envelope)) else none)
      then putSnapshot issueCursor updatedAt else putCursor issueCursor updatedAt) := by
  simp only [step, getCacheObject_unlimited hs (freeText_snapshot (freeText_extractIssueId h.id))]
  cases answer.ok with
  | false => rfl
  | true => rfl

theorem step_putSnapshot (issueCursor updatedAt : Nat) :
    (putSnapshot issueCursor updatedAt).step A envelope roomCursorHint s answer =
    if answer.ok then some (s.store (issueSnapshotRequest A envelope issueCursor updatedAt),
      putCursor issueCursor updatedAt)
    else none :=
  put_bind hs (freeText_snapshot (freeText_extractIssueId h.id)) rfl answer _

theorem step_putCursor (issueCursor updatedAt : Nat) :
    (putCursor issueCursor updatedAt).step A envelope roomCursorHint s answer =
    if answer.ok then some (s.store (issueCursorRequest A envelope issueCursor updatedAt),
      persisted)
    else none :=
  put_bind hs (freeText_cursor (freeText_room h.room)) rfl answer _

end PersistStage

/-! ## Persisting without throws -/

/-- The cursor that the event of an envelope gets. -/
def eventCursor (envelope : Envelope) (roomCursorHint : Option Int) (s : CacheAdapterState) : Nat :=
  nextIssueCursor roomCursorHint (max (s.issueCursorByRoom.getD envelope.room 0)
    (cursorOf envelope.room (s.object? (issueCursorStorageKey envelope.room))))

/-- Whether the snapshot of the envelope's issue is written. -/
def writesSnapshot (A : CacheAdapterOptions) (envelope : Envelope) (s : CacheAdapterState) : Bool :=
  updatesSnapshot A envelope (s.object? (issueSnapshotStorageKey envelope.room
    (extractIssueIdFromEnvelope envelope)))

/-- The puts of the issue projection. -/
def projectionRequests (A : CacheAdapterOptions) (envelope : Envelope)
    (roomCursorHint : Option Int) (s : CacheAdapterState) (nowSec : Nat) :
    List CacheStorePutRequest :=
  let cursor := eventCursor envelope roomCursorHint s
  issueEventRequest A envelope cursor nowSec ::
    ((if writesSnapshot A envelope s then [issueSnapshotRequest A envelope cursor nowSec] else []) ++
      [issueCursorRequest A envelope cursor nowSec])

def persistRequests (A : CacheAdapterOptions) (envelope : Envelope) (roomCursorHint : Option Int)
    (s : CacheAdapterState) (nowSec : Nat) : List CacheStorePutRequest :=
  envelopeRequest A envelope nowSec ::
    if isIssueTopic envelope.topic then projectionRequests A envelope roomCursorHint s nowSec
    else []

namespace WriteLemmas

theorem object?_store_of_ne {request : CacheStorePutRequest} {key : String}
    (h : toStorageKey .object key ≠ request.storageKey) :
    (s.store request).object? key = s.object? key :=
  CacheAdapterState.record?_store_of_ne s h

theorem object?_store_of_key {request : CacheStorePutRequest} {key : String}
    (h : key ≠ request.key) : (s.store request).object? key = s.object? key := by
  refine object?_store_of_ne fun heq => h ?_
  exact (toStorageKey_inj (show toStorageKey .object key =
    toStorageKey request.kind request.key from heq)).2

theorem object?_store_self {request : CacheStorePutRequest} (hkind : request.kind = .object) :
    (s.store request).object? request.key = some request.stored := by
  have hkey : toStorageKey .object request.key = request.storageKey := by
    rw [CacheStorePutRequest.storageKey, hkind]
  unfold CacheAdapterState.object?
  rw [hkey, CacheAdapterState.record?_store_self]

/-- The put of an issue envelope is not the put of an object. -/
theorem object?_storeEnvelope (htopic : isIssueTopic envelope.topic = true) (nowSec : Nat)
    (key : String) :
    (s.store (envelopeRequest A envelope nowSec)).object? key = s.object? key := by
  refine object?_store_of_ne fun heq => ?_
  have hkind := (toStorageKey_inj (show toStorageKey .object key = toStorageKey
    (if isIssueTopic envelope.topic then .issue else .object) _ from heq)).1
  rw [htopic] at hkind
  cases hkind

theorem persistStep_of_some {p : CacheAdapterState × PersistTask} {answer : StoreAnswer}
    {stage : PersistStage}
    (h : p.2.stage.step A envelope roomCursorHint p.1 answer = some (s, stage)) :
    persistStep A envelope roomCursorHint p answer = (s, { p.2 with stage }) := by
  unfold persistStep
  rw [h]

/-! ### The rest of the task from each of its stages -/

section
variable (A envelope roomCursorHint)

/-- The task after `n` calls that do not throw. -/
def resume (n nowSec : Nat) (s : CacheAdapterState) (stage : PersistStage) : CacheAdapterState :=
  (runFrom (persistStep A envelope roomCursorHint) (s, ⟨0, stage⟩)
    (List.replicate n ⟨true, nowSec⟩)).1

end

variable {nowSec : Nat}

theorem resume_succ {n : Nat} {stage stage' : PersistStage}
    (h : stage.step A envelope roomCursorHint s ⟨true, nowSec⟩ = some (s', stage')) :
    resume A envelope roomCursorHint (n + 1) nowSec s stage =
      resume A envelope roomCursorHint n nowSec s' stage' := by
  unfold resume
  rw [List.replicate_succ, runFrom_cons]
  unfold persistStep
  simp only [h]

theorem resume_persisted (n : Nat) :
    resume A envelope roomCursorHint n nowSec s .persisted = s := by
  induction n with
  | zero => rfl
  | succ n ih => exact (resume_succ rfl).trans ih

theorem resume_putCursor (hs : s.Unlimited) (h : envelope.Storable) (n cursor : Nat) :
    resume A envelope roomCursorHint (n + 1) nowSec s (.putCursor cursor nowSec) =
      s.store (issueCursorRequest A envelope cursor nowSec) :=
  (resume_succ (PersistStage.step_putCursor hs h ⟨true, nowSec⟩ cursor nowSec)).trans
    (resume_persisted n)

theorem resume_readSnapshot (hs : s.Unlimited) (h : envelope.Storable) (n cursor : Nat) :
    resume A envelope roomCursorHint (n + 3) nowSec s (.readSnapshot cursor nowSec) =
      ((if writesSnapshot A envelope s then [issueSnapshotRequest A envelope cursor nowSec] else [])
        ++ [issueCursorRequest A envelope cursor nowSec]).foldl CacheAdapterState.store s := by
  refine (resume_succ (PersistStage.step_readSnapshot hs h ⟨true, nowSec⟩ cursor nowSec)).trans ?_
  simp only [if_true]
  unfold writesSnapshot
  split
  · exact (resume_succ (PersistStage.step_putSnapshot hs h ⟨true, nowSec⟩ cursor nowSec)).trans
      (resume_putCursor (s := s.store _) hs h n cursor)
  · exact resume_putCursor hs h (n + 1) cursor

theorem resume_putEvent (hs : s.Unlimited) (h : envelope.Storable) (n cursor : Nat) :
    resume A envelope roomCursorHint (n + 4) nowSec s (.putEvent cursor nowSec) =
      (issueEventRequest A envelope cursor nowSec ::
        ((if writesSnapshot A envelope s then [issueSnapshotRequest A envelope cursor nowSec]
          else []) ++ [issueCursorRequest A envelope cursor nowSec])).foldl
        CacheAdapterState.store s := by
  have hfound : writesSnapshot A envelope (s.store (issueEventRequest A envelope cursor nowSec)) =
      writesSnapshot A envelope s := by
    unfold writesSnapshot
    rw [object?_store_of_key fun heq => event_ne_snapshot heq.symm]
  refine (resume_succ (PersistStage.step_putEvent hs h ⟨true, nowSec⟩ cursor nowSec)).trans ?_
  refine (resume_readSnapshot (s := s.store _) hs h n cursor).trans ?_
  rw [hfound]
  rfl

/-- The cursors in memory play no part in the puts. -/
theorem foldl_store_cacheStore (requests : List CacheStorePutRequest) :
    ∀ t t' : CacheAdapterState, t.cacheStore = t'.cacheStore →
      (requests.foldl CacheAdapterState.store t).cacheStore =
        (requests.foldl CacheAdapterState.store t').cacheStore := by
  induction requests with
  | nil => exact fun _ _ heq => heq
  | cons request rest ih =>
    intro t t' heq
    refine ih _ _ ?_
    unfold CacheAdapterState.store
    rw [heq]

theorem resume_cursorRead (hs : s.Unlimited) (h : envelope.Storable) (n inMemory cached : Nat) :
    (resume A envelope roomCursorHint (n + 5) nowSec s (.cursorRead inMemory cached)).cacheStore =
      ((issueEventRequest A envelope (nextIssueCursor roomCursorHint (max inMemory cached)) nowSec ::
        ((if writesSnapshot A envelope s then [issueSnapshotRequest A envelope
          (nextIssueCursor roomCursorHint (max inMemory cached)) nowSec] else []) ++
          [issueCursorRequest A envelope (nextIssueCursor roomCursorHint (max inMemory cached))
            nowSec])).foldl CacheAdapterState.store s).cacheStore := by
  rw [resume_succ (show PersistStage.step A envelope roomCursorHint s ⟨true, nowSec⟩
    (.cursorRead inMemory cached) = some (_, .putEvent _ nowSec) from rfl)]
  generalize nextIssueCursor roomCursorHint (max inMemory cached) = cursor
  generalize (s.issueCursorByRoom.set envelope.room (max inMemory cached)).set envelope.room
    cursor = cursors
  have hcursors : CacheAdapterState.Unlimited ⟨s.cacheStore, cursors⟩ := hs
  rw [resume_putEvent hcursors h n cursor]
  exact foldl_store_cacheStore _ _ _ rfl

end WriteLemmas

open WriteLemmas

/-- A persistence in which no call throws carries out its puts in their order. -/
theorem cacheStore_persistEnvelope (hs : s.Unlimited) (h : envelope.Storable)
    (roomCursorHint : Option Int) (nowSec : Nat) :
    (persistEnvelope A envelope roomCursorHint s nowSec).cacheStore =
      ((persistRequests A envelope roomCursorHint s nowSec).foldl CacheAdapterState.store
        s).cacheStore := by
  have hresume : persistEnvelope A envelope roomCursorHint s nowSec =
      resume A envelope roomCursorHint 7 nowSec s .putEnvelope := by
    unfold persistEnvelope persistRun resume
    rfl
  rw [hresume, resume_succ (PersistStage.step_putEnvelope hs h ⟨true, nowSec⟩)]
  unfold persistRequests
  cases htopic : isIssueTopic envelope.topic with
  | false => exact congrArg CacheAdapterState.cacheStore (resume_persisted 6)
  | true =>
    have hobject := object?_storeEnvelope (A := A) (s := s) htopic nowSec
    have hsnapshot : writesSnapshot A envelope (s.store (envelopeRequest A envelope nowSec)) =
        writesSnapshot A envelope s := by
      unfold writesSnapshot
      rw [hobject]
    rw [if_pos rfl, if_pos rfl, resume_succ (PersistStage.step_readCursor (s := s.store _) hs h
      ⟨true, nowSec⟩), resume_cursorRead (s := s.store _) hs h 0, hsnapshot, if_pos rfl, hobject]
    rfl

theorem unlimited_persistEnvelope (hs : s.Unlimited) (h : envelope.Storable)
    (roomCursorHint : Option Int) (nowSec : Nat) :
    (persistEnvelope A envelope roomCursorHint s nowSec).Unlimited := by
  have hfold : ∀ (requests : List CacheStorePutRequest) (s : CacheAdapterState), s.Unlimited →
      (requests.foldl CacheAdapterState.store s).Unlimited := by
    intro requests
    induction requests with
    | nil => exact fun _ hs => hs
    | cons request rest ih => exact fun s hs => ih _ hs
  unfold CacheAdapterState.Unlimited
  rw [cacheStore_persistEnvelope hs h]
  exact hfold _ _ hs

end BitRelay
