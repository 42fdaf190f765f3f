import BitRelay.Cache.Drops
import BitRelay.Cache.LoadLoop

/-!
# How the records of a store are filed

Every record of a memory store stands under its kind and its trimmed key, and a record that the
adapter has put for one room gives no cursor to another, though raw envelopes and projections share
one key space. No call of the adapter changes this: a put files what it puts, and the other calls
of the store only remove records.

Results:
1. `record?_of_put`, `record?_of_get`: a call of the store leaves no record that is neither an
   old one nor the requested one.
2. `wellFiled_persistRun`, `wellFiled_syncRun`: the calls of the adapter keep the records filed,
   under every policy.
-/

namespace BitRelay

/-! ## Definitions -/

/-- A record as the store files it. The record of a room gives no cursor to another one. -/
structure FiledUnder (storageKey : String) (record : CacheStoreObject) : Prop where
  keyed : storageKey = toStorageKey record.metadata.kind record.metadata.key
  trimmed : normalizeKey record.metadata.key = .ok record.metadata.key
  mute : ∀ r room, record.metadata.room = some r → room ≠ r → cursorOf room (some record) = 0

/-- All records of the store are filed. -/
def MemoryCacheStore.WellFiled (store : MemoryCacheStore) : Prop :=
  ∀ storageKey record, store.records.get? storageKey = some record → FiledUnder storageKey record

/-- What the request puts for its room gives no cursor to another one. -/
def CacheStorePutRequest.Mute (request : CacheStorePutRequest) : Prop :=
  ∀ value : CacheStoreObject, value.body = request.body → ∀ room, request.room ≠ some room →
    cursorOf room (some value) = 0

namespace FiledLemmas

variable {A : CacheAdapterOptions} {s s' : CacheAdapterState} {envelope : Envelope}
  {roomCursorHint : Option Int} {answer : StoreAnswer} {storageKey : String}
  {value : CacheStoreObject}

/-! ## Calls of the store -/

/-- A put leaves no record that is neither an old one nor the requested one. -/
theorem record?_of_put {request : CacheStorePutRequest}
    (hput : putCacheJsonObject A request s answer = some s')
    (h : s'.record? storageKey = some value) :
    s.record? storageKey = some value ∨ ∃ key, normalizeKey request.key = .ok key ∧
      storageKey = toStorageKey request.kind key ∧
        value = MemoryCacheStore.recordOf request key answer.nowSec := by
  unfold putCacheJsonObject at hput
  split at hput
  case isFalse => cases hput
  unfold MemoryCacheStore.put at hput
  cases hkey : normalizeKey request.key with
  | error message =>
    rw [hkey] at hput
    cases hput
  | ok key =>
    rw [hkey] at hput
    obtain rfl := Option.some.inj hput
    -- Evicting removes records and writes none.
    have hset : (((s.cacheStore.pruneExpiredRecords answer.nowSec).setRecord
        (toStorageKey request.kind key) (MemoryCacheStore.recordOf request key
          answer.nowSec)).enforceMaxBytesLimit A.collation).records.get? storageKey = some value := h
    rw [MemoryCacheStore.records_enforceMaxBytesLimit, OrdMap.get?_foldl_erase] at hset
    split at hset
    · cases hset
    have hset : ((s.cacheStore.pruneExpiredRecords answer.nowSec).records.set
        (toStorageKey request.kind key) (MemoryCacheStore.recordOf request key
          answer.nowSec)).get? storageKey = some value := hset
    rw [OrdMap.get?_set] at hset
    split at hset
    · next heq => exact .inr ⟨key, rfl, heq, (Option.some.inj hset).symm⟩
    · exact .inl (OrdMap.get?_filter_eq_some_iff.mp hset).1

/-- A read writes nothing. -/
theorem record?_of_get {key : String}
    (h : ((getCacheObject key s answer).getD (none, s)).2.record? storageKey = some value) :
    s.record? storageKey = some value := by
  unfold getCacheObject at h
  split at h
  case isFalse => exact h
  unfold MemoryCacheStore.get at h
  cases hkey : normalizeKey key with
  | error e =>
    rw [hkey] at h
    exact h
  | ok normalized =>
    rw [hkey] at h
    cases hget : s.cacheStore.records.get? (toStorageKey .object normalized) with
    | none =>
      simp only [bind, Except.bind, hget] at h
      exact h
    | some found =>
      simp only [bind, Except.bind, hget] at h
      split at h
      · have herased : (s.cacheStore.records.erase
            (toStorageKey .object normalized)).get? storageKey = some value := h
        rw [OrdMap.get?_erase] at herased
        split at herased
        · cases herased
        · exact herased
      · exact h

theorem normalizeKey_idem {key key' : String} (h : normalizeKey key = .ok key') :
    normalizeKey key' = .ok key' := by
  unfold normalizeKey at h
  split at h
  · cases h
  · next hne =>
    cases h
    exact normalizeKey_trimmed (trimmed_trim key) hne

theorem wellFiled_put {request : CacheStorePutRequest} (hs : s.cacheStore.WellFiled)
    (hmute : request.Mute) (hput : putCacheJsonObject A request s answer = some s') :
    s'.cacheStore.WellFiled := by
  intro storageKey record hrecord
  rcases record?_of_put hput hrecord with hold | ⟨key, hkey, hstorage, rfl⟩
  · exact hs storageKey record hold
  · refine ⟨hstorage, normalizeKey_idem hkey, fun r room hroom hne => ?_⟩
    have hasked : request.room = some r := (Option.filter_eq_some_iff.mp hroom).1
    refine hmute _ rfl room fun hother => hne ?_
    exact Option.some.inj (hother.symm.trans hasked)

theorem wellFiled_get (hs : s.cacheStore.WellFiled) (key : String) :
    ((getCacheObject key s answer).getD (none, s)).2.cacheStore.WellFiled :=
  fun storageKey record hrecord => hs storageKey record (record?_of_get hrecord)

theorem wellFiled_list {store : MemoryCacheStore} (hs : store.WellFiled) (C : Collation)
    (query : CacheStoreListQuery) (nowSec : Int) : (store.list C query nowSec).2.WellFiled :=
  fun storageKey record hrecord =>
    hs storageKey record (OrdMap.get?_filter_eq_some_iff.mp hrecord).1

/-! ## The four requests -/

/-- A record of another kind gives no cursor. -/
theorem cursorOf_of_kind {parsed : JsonValue} (hjson : value.body.json = some parsed)
    (hkind : parsed.get? "kind" ≠ some (.str "issue_cursor")) (room : String) :
    cursorOf room (some value) = 0 := by
  have hparse : parseIssueCacheCursorRecord value = none := by
    unfold parseIssueCacheCursorRecord
    rw [hjson]
    simp only [Option.bind_eq_bind, Option.bind_some, if_pos hkind]
    cases parsed.fields? with
    | none => rfl
    | some fields => rfl
  unfold cursorOf
  rw [Option.bind_some, hparse]

/-- A record that names another room gives no cursor. -/
theorem cursorOf_of_room {parsed : JsonValue} (hjson : value.body.json = some parsed)
    {room : String} (hroom : parsed.strField "room" ≠ room) : cursorOf room (some value) = 0 := by
  unfold cursorOf
  rw [Option.bind_some]
  cases hparse : parseIssueCacheCursorRecord value with
  | none => rfl
  | some record =>
    have hnamed : record.room = parsed.strField "room" := by
      unfold parseIssueCacheCursorRecord at hparse
      simp only [hjson, Option.bind_eq_bind, Option.bind_some] at hparse
      obtain ⟨fields, -, hparse⟩ := Option.bind_eq_some_iff.mp hparse
      split at hparse
      · cases hparse
      split at hparse
      · cases hparse
      split at hparse
      · cases hparse
      obtain ⟨cursor, -, hparse⟩ := Option.bind_eq_some_iff.mp hparse
      obtain ⟨updatedAt, -, hparse⟩ := Option.bind_eq_some_iff.mp hparse
      cases hparse
      rfl
    exact if_neg (hnamed ▸ hroom)

theorem mute_envelope (nowSec : Nat) : (envelopeRequest A envelope nowSec).Mute := by
  intro value hbody room _
  have hjson : value.body.json = some envelope.toJson.normalize := by
    rw [hbody]
    rfl
  refine cursorOf_of_kind hjson ?_ room
  unfold Envelope.toJson
  cases envelope.signature <;> exact nofun

theorem mute_event (issueCursor updatedAt : Nat) :
    (issueEventRequest A envelope issueCursor updatedAt).Mute := by
  intro value hbody room _
  have hjson : value.body.json =
      some (issueEvent A envelope issueCursor updatedAt).toJson.normalize := by
    rw [hbody]
    rfl
  refine cursorOf_of_kind hjson ?_ room
  have hkind : (issueEvent A envelope issueCursor updatedAt).toJson.normalize.get? "kind" =
      some (.str "issue_event") := rfl
  rw [hkind]
  simp

theorem mute_snapshot (issueCursor updatedAt : Nat) :
    (issueSnapshotRequest A envelope issueCursor updatedAt).Mute := by
  intro value hbody room _
  have hjson : value.body.json =
      some (issueSnapshot A envelope issueCursor updatedAt).toJson.normalize := by
    rw [hbody]
    rfl
  refine cursorOf_of_kind hjson ?_ room
  have hkind : (issueSnapshot A envelope issueCursor updatedAt).toJson.normalize.get? "kind" =
      some (.str "issue_snapshot") := rfl
  rw [hkind]
  simp

theorem mute_cursor (issueCursor updatedAt : Nat) :
    (issueCursorRequest A envelope issueCursor updatedAt).Mute := by
  intro value hbody room hroom
  have hjson : value.body.json =
      some (issueCursorRecord envelope issueCursor updatedAt).toJson.normalize := by
    rw [hbody]
    rfl
  refine cursorOf_of_room hjson fun hnamed => hroom ?_
  exact congrArg some hnamed

end FiledLemmas

open FiledLemmas

section
variable {A : CacheAdapterOptions} {s s' : CacheAdapterState} {envelope : Envelope}
  {roomCursorHint : Option Int} {answer : StoreAnswer}

/-! ## Persisting -/

theorem wellFiled_step {stage stage' : PersistStage} (hs : s.cacheStore.WellFiled)
    (hstep : stage.step A envelope roomCursorHint s answer = some (s', stage')) :
    s'.cacheStore.WellFiled := by
  have hput : ∀ {request : CacheStorePutRequest} {next : PersistStage}, request.Mute →
      ((putCacheJsonObject A request s answer).bind fun s => some (s, next)) = some (s', stage') →
        s'.cacheStore.WellFiled := by
    intro request next hmute hbind
    obtain ⟨s₁, hput, hrest⟩ := Option.bind_eq_some_iff.mp hbind
    cases hrest
    exact wellFiled_put hs hmute hput
  cases stage with
  | putEnvelope => exact hput (mute_envelope _) hstep
  | readCursor =>
    cases hstep
    exact wellFiled_get hs _
  | cursorRead inMemory cached =>
    cases hstep
    exact hs
  | putEvent issueCursor updatedAt => exact hput (mute_event _ _) hstep
  | readSnapshot issueCursor updatedAt =>
    cases hstep
    exact wellFiled_get hs _
  | putSnapshot issueCursor updatedAt => exact hput (mute_snapshot _ _) hstep
  | putCursor issueCursor updatedAt => exact hput (mute_cursor _ _) hstep
  | persisted | failed =>
    cases hstep
    exact hs

/-- A whole run of the task, with its retries. -/
theorem wellFiled_persistRun (hs : s.cacheStore.WellFiled) (answers : List StoreAnswer) :
    (persistRun A envelope roomCursorHint s answers).1.cacheStore.WellFiled := by
  refine runFrom_invariant
    (I := fun p : CacheAdapterState × PersistTask => p.1.cacheStore.WellFiled)
    (fun p answer hp => ?_) answers hs
  unfold persistStep
  cases hstep : p.2.stage.step A envelope roomCursorHint p.1 answer with
  | none => exact hp
  | some next => exact wellFiled_step hp hstep

/-! ## Syncing -/

theorem wellFiled_load {α : Type} {loader : IssueLoader α} {stage stage' : LoadStage α}
    (hs : s.cacheStore.WellFiled) (hstep : loader.step A s answer stage = some (s', stage')) :
    s'.cacheStore.WellFiled := by
  cases stage with
  | list listCursor found =>
    obtain ⟨ok, nowSec⟩ := answer
    cases ok with
    | false => cases hstep
    | true =>
      cases hstep
      exact wellFiled_list hs A.collation ⟨some .object, some loader.pre, some loader.room,
        some loader.pageSize, listCursor⟩ nowSec
  | get entry rest listed found =>
    cases hstep
    exact wellFiled_get hs _
  | loaded found =>
    cases hstep
    exact hs

theorem wellFiled_syncStep {args : IssueSyncArgs} (stage : IssueSyncStage)
    (hs : s.cacheStore.WellFiled) : (stage.step A args s answer).1.cacheStore.WellFiled := by
  cases stage with
  | loadEvents stage =>
    simp only [IssueSyncStage.step]
    cases hload : (IssueSyncStage.eventLoader args).step A s answer stage with
    | none => exact hs
    | some next => exact wellFiled_load hs hload
  | loadSnapshots events stage =>
    simp only [IssueSyncStage.step]
    cases hload : (IssueSyncStage.snapshotLoader args).step A s answer stage with
    | none => exact hs
    | some next => exact wellFiled_load hs hload
  | readCursor events snapshots => exact wellFiled_get hs _
  | cursorRead events snapshots inMemory persisted => exact hs
  | returned result => exact hs

theorem wellFiled_syncRun {args : IssueSyncArgs} (hs : s.cacheStore.WellFiled)
    (times : List Nat) : (syncRun A args s times).1.cacheStore.WellFiled :=
  runFrom_invariant
    (I := fun p : CacheAdapterState × IssueSyncStage => p.1.cacheStore.WellFiled)
    (fun p _ hp => wellFiled_syncStep p.2 hp) times hs

end

end BitRelay
