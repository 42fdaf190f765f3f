import BitRelay.Cache.Filed

/-!
# What of a cache shows outside a room

The adapter over a memory store as the relay calls it, and two of its states that hold the
same records of all rooms but one. A listing for another room gives the same entries, a
read of a listed entry finds the same record, and the record that stands under the cursor
key of another room gives it the same cursor, all because the records are filed. So the two
states answer every pull and every sync of another room in the same way, whatever the store has
dropped.

Results:
1. `syncIssuesAt_returns`: a call of `syncIssues` returns, under every policy.
2. `syncIssuesAt_agree`, `pullIssues_agree`: the calls for another room answer the same.
3. `RoomView.memory`: what shows of the memory store outside a room.
-/

namespace BitRelay

/-! ## Views -/

/-- What of the states of an adapter shows in the rooms other than `r`. -/
structure RoomView {C : Type} (cacheAdapter : CacheAdapter C) (r : String) where
  agree : C → C → Prop
  /-- The states that the calls of the adapter keep to. -/
  sound : C → Prop
  sound_step : ∀ {cache cache' : C}, sound cache → CacheStep cacheAdapter cache cache' →
    sound cache'
  pullIssues : ∀ {cache cache' : C}, sound cache → sound cache' → agree cache cache' →
    ∀ {room : String}, isValidRoomName room = true → room ≠ r → ∀ after limit : Nat,
      cacheAdapter.pullIssues cache room after limit =
        cacheAdapter.pullIssues cache' room after limit
  syncIssues : ∀ {cache cache' : C}, sound cache → sound cache' → agree cache cache' →
    ∀ {room : String}, isValidRoomName room = true → room ≠ r → ∀ after limit snapshotLimit : Nat,
      (cacheAdapter.syncIssues cache room after limit snapshotLimit).1 =
        (cacheAdapter.syncIssues cache' room after limit snapshotLimit).1
  /-- Only raw envelopes of the room are stored. -/
  bare : C → Prop
  empty : C
  sound_empty : sound empty
  bare_empty : bare empty
  bare_persist : ∀ {cache : C} {envelope : Envelope}, bare cache → envelope.Storable →
    envelope.room = r → isIssueTopic envelope.topic = false → ∀ cursor : Nat,
      bare (cacheAdapter.persistEnvelope cache envelope cursor)
  agree_of_bare : ∀ {cache cache' : C}, bare cache → bare cache' → agree cache cache'

/-- Without a store nothing shows. -/
def RoomView.noStore (r : String) : RoomView .noStore r where
  agree _ _ := True
  sound _ := True
  sound_step _ _ := trivial
  pullIssues _ _ _ _ _ _ _ _ := rfl
  syncIssues _ _ _ _ _ _ _ _ _ := rfl
  bare _ := True
  empty := ()
  sound_empty := trivial
  bare_empty := trivial
  bare_persist _ _ _ _ _ := trivial
  agree_of_bare _ _ := trivial

/-! ## The adapter of the relay -/

/-- A memory store, and the readings of its clock that are still to come. -/
structure MemoryCache where
  adapter : CacheAdapterState
  clock : Nat → Nat

/-- The cache behind a call. -/
def MemoryCache.tick (cache : MemoryCache) (adapter : CacheAdapterState) : MemoryCache :=
  ⟨adapter, fun n => cache.clock (n + 1)⟩

def IssueCacheEventRecord.toCacheIssueEvent (record : IssueCacheEventRecord) : CacheIssueEvent where
  cursor := record.cursor
  issueId := record.issueId
  action := record.action
  sourceUpdatedAtMs := record.sourceUpdatedAtMs.map Int.ofNat
  updatedAt := record.updatedAt
  envelope := record.envelope

def IssueCacheSnapshotRecord.toCacheIssueSnapshot (record : IssueCacheSnapshotRecord) :
    CacheIssueSnapshot where
  issueId := record.issueId
  lastCursor := record.lastCursor
  sourceUpdatedAtMs := record.sourceUpdatedAtMs.map Int.ofNat
  updatedAt := record.updatedAt
  envelope := record.envelope

def IssueSyncResult.toCacheIssueSync (result : IssueSyncResult) : CacheIssueSync where
  nextCursor := result.nextCursor
  roomCursor := result.roomCursor
  events := result.events.map IssueCacheEventRecord.toCacheIssueEvent
  snapshots := result.snapshots.map IssueCacheSnapshotRecord.toCacheIssueSnapshot

section
variable (A : CacheAdapterOptions)

/-- A call of `syncIssues` at one time: as many calls of the store as it takes. -/
def syncIssuesAt (args : IssueSyncArgs) (s : CacheAdapterState) (nowSec : Nat) :
    CacheAdapterState × IssueSyncStage :=
  syncRun A args s (List.replicate (4 * s.cacheStore.records.entries.length + 6) nowSec)

/-- The adapter over a memory store that answers every call. -/
def memoryAdapter : CacheAdapter MemoryCache where
  persistEnvelope cache envelope roomCursorHint :=
    cache.tick (persistEnvelope A envelope (some roomCursorHint) cache.adapter (cache.clock 0))
  pullIssues cache room after limit :=
    (pullIssues A cache.adapter room after limit (cache.clock 0)).1
  syncIssues cache room after limit snapshotLimit :=
    let args : IssueSyncArgs := ⟨room, after, limit, snapshotLimit⟩
    let run := syncIssuesAt A args cache.adapter (cache.clock 0)
    ((run.2.result?.getD (IssueSyncStage.failure args)).toCacheIssueSync, cache.tick run.1)

end

/-! ## Stores that agree outside a room -/

namespace MemoryCacheStore

/-- The records outside room `r`. -/
def outside (r : String) (store : MemoryCacheStore) : OrdMap String CacheStoreObject :=
  store.records.filter fun _ record => decide (record.metadata.room ≠ some r)

/-- Filed stores with the same records outside room `r`. -/
structure AgreesOutside (r : String) (store store' : MemoryCacheStore) : Prop where
  policy : store.policy = store'.policy
  outside : store.outside r = store'.outside r
  filed : store.WellFiled
  filed' : store'.WellFiled

/-- No record of room `r` stands under the storage key. -/
def Foreign (r : String) (store : MemoryCacheStore) (storageKey : String) : Prop :=
  ∀ record, store.records.get? storageKey = some record → record.metadata.room ≠ some r

/-- The records that pass a test. -/
def keep (store : MemoryCacheStore) (p : String → CacheStoreObject → Bool) : MemoryCacheStore :=
  { store with records := store.records.filter p }

/-- The record under the storage key, if it has not expired. -/
def live? (store : MemoryCacheStore) (storageKey : String) (nowSec : Int) :
    Option CacheStoreObject :=
  (store.records.get? storageKey).filter fun record =>
    !isExpiredByPolicy record.metadata store.policy nowSec

/-- What a read drops. -/
def readDrops (policy : CacheStorePolicy) (storageKey : String) (nowSec : Int)
    (storageKey' : String) (record : CacheStoreObject) : Bool :=
  decide (storageKey' = storageKey) && isExpiredByPolicy record.metadata policy nowSec

end MemoryCacheStore

/-- The states agree outside the room. -/
structure CacheAdapterState.AgreesOutside (r : String) (s t : CacheAdapterState) : Prop where
  store : s.cacheStore.AgreesOutside r t.cacheStore
  table : ∀ room, room ≠ r → s.issueCursorByRoom.getD room 0 = t.issueCursorByRoom.getD room 0

namespace ViewedLemmas

open MemoryCacheStore

variable {A : CacheAdapterOptions} {r room storageKey : String} {store store' : MemoryCacheStore}
  {nowSec : Nat}

/-! ## The store -/

theorem get?_outside (h : store.AgreesOutside r store') (storageKey : String) :
    (store.records.get? storageKey).filter (fun record => decide (record.metadata.room ≠ some r)) =
      (store'.records.get? storageKey).filter fun record =>
        decide (record.metadata.room ≠ some r) := by
  have hget := congrArg (fun m => m.get? storageKey) h.outside
  simp only [MemoryCacheStore.outside, OrdMap.get?_filter] at hget
  exact hget

/-- Where no record of the room stands, the stores hold the same. -/
theorem get?_of_foreign (h : store.AgreesOutside r store') (hforeign : store.Foreign r storageKey)
    (hforeign' : store'.Foreign r storageKey) :
    store.records.get? storageKey = store'.records.get? storageKey := by
  have hget := get?_outside h storageKey
  have hself : ∀ {store : MemoryCacheStore}, store.Foreign r storageKey →
      (store.records.get? storageKey).filter (fun record =>
        decide (record.metadata.room ≠ some r)) = store.records.get? storageKey := by
    intro store hforeign
    cases hfound : store.records.get? storageKey with
    | none => rfl
    | some record => rw [Option.filter_some, if_pos (decide_eq_true (hforeign record hfound))]
  rwa [hself hforeign, hself hforeign'] at hget

theorem foreign_keep (h : store.Foreign r storageKey) (p : String → CacheStoreObject → Bool) :
    (store.keep p).Foreign r storageKey :=
  fun record hrecord => h record (OrdMap.get?_filter_eq_some_iff.mp hrecord).1

/-- Tests that agree on the records outside the room. -/
theorem agrees_keep (h : store.AgreesOutside r store') {p q : String → CacheStoreObject → Bool}
    (hpq : ∀ storageKey record, record.metadata.room ≠ some r →
      p storageKey record = q storageKey record) :
    (store.keep p).AgreesOutside r (store'.keep q) := by
  have hfilter : ∀ (p : String → CacheStoreObject → Bool) (store : MemoryCacheStore),
      (store.keep p).outside r = (store.outside r).filter p := by
    intro p store
    refine OrdMap.ext ?_
    exact List.filter_comm _ _ _
  refine ⟨h.policy, ?_, fun k record hrecord => ?_, fun k record hrecord => ?_⟩
  · rw [hfilter, hfilter, h.outside]
    refine OrdMap.ext (List.filter_congr fun e he => hpq e.1 e.2 ?_)
    exact of_decide_eq_true (List.mem_filter.mp he).2
  · exact h.filed k record (OrdMap.get?_filter_eq_some_iff.mp hrecord).1
  · exact h.filed' k record (OrdMap.get?_filter_eq_some_iff.mp hrecord).1

/-- A listing for another room. -/
theorem list_agree (C : Collation) (h : store.AgreesOutside r store') (hne : room ≠ "")
    (hroom : room ≠ r) {query : CacheStoreListQuery} (hquery : query.room = some room)
    (nowSec : Int) :
    (store.list C query nowSec).1 = (store'.list C query nowSec).1 := by
  have hlisted : ∀ store : MemoryCacheStore,
      ((store.pruneExpiredRecords nowSec).records.values.map CacheStoreObject.metadata).filter
        (fun metadata => metadataMatchesQuery metadata query) =
      (((store.outside r).filter fun _ record =>
        !isExpiredByPolicy record.metadata store.policy nowSec).values.map
          CacheStoreObject.metadata).filter fun metadata => metadataMatchesQuery metadata query := by
    intro store
    unfold OrdMap.values
    simp only [List.map_map, List.filter_map]
    refine congrArg _ ?_
    show List.filter _ (List.filter _ _) = List.filter _ (List.filter _ (List.filter _ _))
    rw [List.filter_filter, List.filter_filter, List.filter_filter]
    refine List.filter_congr fun e he => ?_
    cases hmatch : metadataMatchesQuery e.2.metadata query with
    | false => simp [hmatch]
    | true =>
      have hfound : e.2.metadata.room = some room := by
        unfold metadataMatchesQuery at hmatch
        rw [hquery] at hmatch
        simpa [hne] using (Bool.and_eq_true_iff.mp hmatch).2
      simp [hmatch, hfound, hroom]
  refine congrArg (fun entries => paginateMetadata C entries query) ?_
  rw [hlisted store, hlisted store', h.outside, h.policy]

/-- The entry can be read by its key, and in neither store a record of the room stands there. -/
structure Listed (r : String) (store store' : MemoryCacheStore) (kind : CacheStoreKind)
    (entry : CacheStoreMetadata) : Prop where
  trimmed : normalizeKey entry.key = .ok entry.key
  foreign : store.Foreign r (toStorageKey kind entry.key)
  foreign' : store'.Foreign r (toStorageKey kind entry.key)

theorem listed_keep {kind : CacheStoreKind} {entry : CacheStoreMetadata}
    (h : Listed r store store' kind entry) (p q : String → CacheStoreObject → Bool) :
    Listed r (store.keep p) (store'.keep q) kind entry :=
  ⟨h.trimmed, foreign_keep h.foreign p, foreign_keep h.foreign' q⟩

/-- Where a listing for another room has found an entry, a record of that room stands. -/
theorem foreign_of_listed (C : Collation) (hne : room ≠ "") (hroom : room ≠ r)
    (hfiled : store.WellFiled) {kind : CacheStoreKind} {query : CacheStoreListQuery}
    (hquery : query.room = some room) (hkind : query.kind = some kind) {nowSec : Int}
    {entry : CacheStoreMetadata} (hentry : entry ∈ (store.list C query nowSec).1.entries) :
    normalizeKey entry.key = .ok entry.key ∧ store.Foreign r (toStorageKey kind entry.key) := by
  have hmem := List.mem_of_mem_drop (List.mem_of_mem_take hentry)
  rw [List.mem_insertionSort] at hmem
  obtain ⟨hlisted, hmatch⟩ := List.mem_filter.mp hmem
  obtain ⟨record, hrecord, rfl⟩ := List.mem_map.mp hlisted
  obtain ⟨e, he, rfl⟩ := List.mem_map.mp hrecord
  have hfound : store.records.get? e.1 = some e.2 :=
    OrdMap.get?_eq_some_iff.mpr (List.mem_filter.mp he).1
  have hin := hfiled e.1 e.2 hfound
  unfold metadataMatchesQuery at hmatch
  rw [hquery, hkind] at hmatch
  have hrooms : e.2.metadata.room = some room := by
    simpa [hne] using (Bool.and_eq_true_iff.mp hmatch).2
  have hkinds : e.2.metadata.kind = kind := by
    simpa using (Bool.and_eq_true_iff.mp (Bool.and_eq_true_iff.mp hmatch).1).1
  refine ⟨hin.trimmed, fun record hrecord => ?_⟩
  rw [← hkinds, ← hin.keyed, hfound] at hrecord
  cases hrecord
  rw [hrooms]
  exact fun heq => hroom (Option.some.inj heq)

/-- The entries of a listing, in the stores behind it. -/
theorem listed_list (C : Collation) (h : store.AgreesOutside r store') (hne : room ≠ "")
    (hroom : room ≠ r) {kind : CacheStoreKind} {query : CacheStoreListQuery}
    (hquery : query.room = some room) (hkind : query.kind = some kind) {nowSec : Int}
    {entry : CacheStoreMetadata} (hentry : entry ∈ (store.list C query nowSec).1.entries) :
    Listed r (store.list C query nowSec).2 (store'.list C query nowSec).2 kind entry := by
  obtain ⟨htrimmed, hforeign⟩ :=
    foreign_of_listed C hne hroom h.filed hquery hkind hentry
  rw [list_agree C h hne hroom hquery] at hentry
  obtain ⟨-, hforeign'⟩ := foreign_of_listed C hne hroom h.filed' hquery hkind hentry
  exact ⟨htrimmed, foreign_keep hforeign _, foreign_keep hforeign' _⟩

theorem agrees_list (C : Collation) (h : store.AgreesOutside r store') (query : CacheStoreListQuery)
    (nowSec : Int) :
    (store.list C query nowSec).2.AgreesOutside r (store'.list C query nowSec).2 :=
  agrees_keep h fun _ _ _ => by rw [h.policy]

/-! ### Reads -/

/-- A read by a trimmed key. -/
theorem get_eq {kind : CacheStoreKind} {key : String} (hkey : normalizeKey key = .ok key)
    (nowSec : Int) :
    store.get kind key nowSec = .ok (store.live? (toStorageKey kind key) nowSec,
      store.keep fun storageKey record =>
        !readDrops store.policy (toStorageKey kind key) nowSec storageKey record) := by
  unfold MemoryCacheStore.get MemoryCacheStore.live?
  simp only [hkey, bind, Except.bind, pure, Except.pure]
  have hkept : (∀ record, store.records.get? (toStorageKey kind key) = some record →
      isExpiredByPolicy record.metadata store.policy nowSec = false) →
      (store.keep fun storageKey record =>
        !readDrops store.policy (toStorageKey kind key) nowSec storageKey record) = store := by
    intro hlive
    have hall : (store.records.filter fun storageKey record =>
        !readDrops store.policy (toStorageKey kind key) nowSec storageKey record) =
          store.records := by
      refine OrdMap.ext (List.filter_eq_self.mpr fun e he => ?_)
      by_cases heq : e.1 = toStorageKey kind key
      · have hrecord := hlive e.2 (heq ▸ OrdMap.get?_eq_some_iff.mpr he)
        simp [readDrops, hrecord]
      · simp [readDrops, heq]
    obtain ⟨policy, records⟩ := store
    exact congrArg (MemoryCacheStore.mk policy) hall
  cases hfound : store.records.get? (toStorageKey kind key) with
  | none =>
    rw [hkept fun record hrecord => by rw [hfound] at hrecord; cases hrecord]
    rfl
  | some found =>
    cases hexpired : isExpiredByPolicy found.metadata store.policy nowSec with
    | false =>
      rw [hkept fun record hrecord => by
        rw [hfound] at hrecord
        cases hrecord
        exact hexpired, Option.filter_some]
      simp only [hexpired, Bool.false_eq_true, if_false, Bool.not_false, if_true]
    | true =>
      have herase : (store.records.erase (toStorageKey kind key)) = store.records.filter
          fun storageKey record =>
            !readDrops store.policy (toStorageKey kind key) nowSec storageKey record := by
        refine OrdMap.ext (List.filter_congr fun e he => ?_)
        by_cases heq : e.1 = toStorageKey kind key
        · have hrecord : some e.2 = some found := by
            rw [← hfound, ← heq]
            exact (OrdMap.get?_eq_some_iff.mpr he).symm
          simp [readDrops, heq, Option.some.inj hrecord, hexpired]
        · simp [readDrops, heq]
      simp only [Option.filter_some, hexpired, if_true, Bool.not_true, Bool.false_eq_true, if_false,
        herase]
      rfl

/-- The stores behind a read. -/
theorem agrees_read (h : store.AgreesOutside r store') (storageKey : String) (nowSec : Int) :
    (store.keep fun storageKey' record =>
      !readDrops store.policy storageKey nowSec storageKey' record).AgreesOutside r
    (store'.keep fun storageKey' record =>
      !readDrops store'.policy storageKey nowSec storageKey' record) :=
  agrees_keep h fun _ _ _ => by rw [h.policy]

theorem live?_of_foreign (h : store.AgreesOutside r store') (hforeign : store.Foreign r storageKey)
    (hforeign' : store'.Foreign r storageKey) (nowSec : Int) :
    store.live? storageKey nowSec = store'.live? storageKey nowSec := by
  unfold MemoryCacheStore.live?
  rw [get?_of_foreign h hforeign hforeign', h.policy]

/-- The cursor that another room reads, whoever's record stands there. -/
theorem cursorOf_live? (h : store.AgreesOutside r store') (hroom : room ≠ r) (storageKey : String)
    (nowSec : Int) : cursorOf room (store.live? storageKey nowSec) =
      cursorOf room (store'.live? storageKey nowSec) := by
  have hself : ∀ {store : MemoryCacheStore}, store.WellFiled →
      cursorOf room (store.live? storageKey nowSec) = cursorOf room
        (((store.records.get? storageKey).filter fun record =>
          decide (record.metadata.room ≠ some r)).filter fun record =>
            !isExpiredByPolicy record.metadata store.policy nowSec) := by
    intro store hfiled
    unfold MemoryCacheStore.live?
    cases hfound : store.records.get? storageKey with
    | none => rfl
    | some found =>
      by_cases hown : found.metadata.room = some r
      · -- A record of the room gives no cursor, and is not there outside the room.
        have hmute := (hfiled storageKey found hfound).mute r room hown hroom
        have hnone : (some found).filter (fun record : CacheStoreObject =>
            decide (record.metadata.room ≠ some r)) = none := by simp [hown]
        rw [hnone, Option.filter_some]
        split
        · exact hmute
        · rfl
      · rw [Option.filter_some (p := fun record : CacheStoreObject =>
          decide (record.metadata.room ≠ some r)), if_pos (by simp [hown])]
  rw [hself h.filed, hself h.filed', get?_outside h, h.policy]

/-- A read of a listed entry. -/
theorem get_agree (h : store.AgreesOutside r store') {kind : CacheStoreKind}
    {entry : CacheStoreMetadata} (hlisted : Listed r store store' kind entry) (nowSec : Int) :
    ∃ found after after', store.get kind entry.key nowSec = .ok (found, after) ∧
      store'.get kind entry.key nowSec = .ok (found, after') ∧ after.AgreesOutside r after' ∧
      ∀ kind other, Listed r store store' kind other → Listed r after after' kind other := by
  refine ⟨_, _, _, get_eq hlisted.trimmed nowSec, ?_, agrees_read h _ nowSec,
    fun kind other hother => listed_keep hother _ _⟩
  rw [get_eq hlisted.trimmed nowSec, live?_of_foreign h hlisted.foreign hlisted.foreign']

/-! ## Pulls -/

theorem readIssueEntries_agree (h : store.AgreesOutside r store') (room : String) (nowSec : Nat)
    {entries : List CacheStoreMetadata}
    (hentries : ∀ entry ∈ entries, Listed r store store' .issue entry) :
    (readIssueEntries room nowSec entries store).1 =
      (readIssueEntries room nowSec entries store').1 := by
  induction entries generalizing store store' with
  | nil => rfl
  | cons entry rest ih =>
    obtain ⟨found, after, after', hget, hget', hagree, hkept⟩ :=
      get_agree h (hentries entry List.mem_cons_self) nowSec
    have hrest := ih hagree fun other hother =>
      hkept .issue other (hentries other (List.mem_cons_of_mem _ hother))
    simp only [readIssueEntries, hget, hget']
    cases found.bind parseCachedIssueEnvelope with
    | none => exact hrest
    | some envelope =>
      dsimp only
      split
      · exact congrArg (envelope :: ·) hrest
      · exact hrest

/-! ## Loading -/

section
variable {s t : CacheAdapterState} {α : Type} {loader : IssueLoader α}

/-- The entries that are still to be read are listed. -/
def StageListed (r : String) (s t : CacheAdapterState) : LoadStage α → Prop
  | .get entry rest _ _ =>
    ∀ other ∈ entry :: rest, Listed r s.cacheStore t.cacheStore .object other
  | .list _ _ | .loaded _ => True

theorem stageListed_nextEntry (listed : Option String) (found : List α)
    {entries : List CacheStoreMetadata}
    (hentries : ∀ entry ∈ entries, Listed r s.cacheStore t.cacheStore .object entry) :
    StageListed r s t (loader.nextEntry listed found entries) := by
  have hleft : ∀ entry ∈ entries.dropWhile fun entry => !loader.wanted entry,
      Listed r s.cacheStore t.cacheStore .object entry :=
    fun entry hentry => hentries entry ((List.dropWhile_suffix _).mem hentry)
  unfold IssueLoader.nextEntry
  cases hskipped : entries.dropWhile fun entry => !loader.wanted entry with
  | nil =>
    show StageListed r s t (loader.endPage listed found)
    unfold IssueLoader.endPage
    split
    · trivial
    · trivial
  | cons entry rest =>
    rw [hskipped] at hleft
    exact hleft

theorem stageListed_afterRead (cached : Option CacheStoreObject) (listed : Option String)
    (found : List α) {rest : List CacheStoreMetadata}
    (hrest : ∀ entry ∈ rest, Listed r s.cacheStore t.cacheStore .object entry) :
    StageListed r s t (loader.afterRead cached rest listed found) := by
  unfold IssueLoader.afterRead
  cases cached.bind loader.parse with
  | none => exact stageListed_nextEntry listed found hrest
  | some record =>
    dsimp only
    split
    · trivial
    · exact stageListed_nextEntry listed _ hrest

/-- One call of the loop for another room. -/
theorem load_agree (h : s.AgreesOutside r t) (hne : loader.room ≠ "") (hroom : loader.room ≠ r)
    (nowSec : Nat) {stage : LoadStage α} (hstage : StageListed r s t stage) :
    ∃ s' t' stage', loader.step A s ⟨true, nowSec⟩ stage = some (s', stage') ∧
      loader.step A t ⟨true, nowSec⟩ stage = some (t', stage') ∧ s'.AgreesOutside r t' ∧
      StageListed r s' t' stage' := by
  cases stage with
  | list listCursor found =>
    let query : CacheStoreListQuery :=
      ⟨some .object, some loader.pre, some loader.room, some loader.pageSize, listCursor⟩
    let behind := fun s : CacheAdapterState =>
      { s with cacheStore := (s.cacheStore.list A.collation query nowSec).2 }
    have hstep : ∀ s, loader.step A s ⟨true, nowSec⟩ (.list listCursor found) =
        some (behind s, loader.nextEntry (s.cacheStore.list A.collation query nowSec).1.cursor found
          (s.cacheStore.list A.collation query nowSec).1.entries) := fun _ => rfl
    have hquery : query.room = some loader.room := rfl
    refine ⟨behind s, behind t, _, hstep s, ?_,
      ⟨agrees_list A.collation h.store query nowSec, h.table⟩,
      stageListed_nextEntry _ _ fun entry hentry =>
        listed_list A.collation h.store hne hroom hquery rfl hentry⟩
    rw [hstep t, list_agree A.collation h.store hne hroom hquery nowSec]
  | get entry rest listed found =>
    obtain ⟨cached, after, after', hget, hget', hagree, hkept⟩ :=
      get_agree h.store (hstage entry List.mem_cons_self) nowSec
    have hread : ∀ {s : CacheAdapterState} {after : MemoryCacheStore},
        s.cacheStore.get .object entry.key nowSec = .ok (cached, after) →
        loader.step A s ⟨true, nowSec⟩ (.get entry rest listed found) =
          some ({ s with cacheStore := after }, loader.afterRead cached rest listed found) := by
      intro s after hget
      simp only [IssueLoader.step, getCacheObject, if_true, hget, Except.toOption]
      rfl
    exact ⟨_, _, _, hread hget, hread hget', ⟨hagree, h.table⟩,
      stageListed_afterRead cached listed found fun other hother =>
        hkept .object other (hstage other (List.mem_cons_of_mem _ hother))⟩
  | loaded found => exact ⟨s, t, _, rfl, rfl, h, trivial⟩

/-! ## Syncs -/

variable {args : IssueSyncArgs}

/-- Two calls for another room at one stage. -/
def SyncsAgree (r : String) (p q : CacheAdapterState × IssueSyncStage) : Prop :=
  p.1.AgreesOutside r q.1 ∧ p.2 = q.2 ∧ match p.2 with
    | .loadEvents stage => StageListed r p.1 q.1 stage
    | .loadSnapshots _ stage => StageListed r p.1 q.1 stage
    | .readCursor _ _ | .cursorRead _ _ _ _ | .returned _ => True

theorem agree_ofEvents (h : s.AgreesOutside r t) {stage : LoadStage IssueCacheEventRecord}
    (hstage : StageListed r s t stage) :
    SyncsAgree r (s, IssueSyncStage.ofEvents stage) (t, IssueSyncStage.ofEvents stage) := by
  refine ⟨h, rfl, ?_⟩
  cases stage with
  | loaded found => trivial
  | list listCursor found => trivial
  | get entry rest listed found => exact hstage

theorem agree_ofSnapshots (h : s.AgreesOutside r t) (events : List IssueCacheEventRecord)
    {stage : LoadStage IssueCacheSnapshotRecord} (hstage : StageListed r s t stage) :
    SyncsAgree r (s, IssueSyncStage.ofSnapshots A events stage)
      (t, IssueSyncStage.ofSnapshots A events stage) := by
  refine ⟨h, rfl, ?_⟩
  cases stage with
  | loaded found => trivial
  | list listCursor found => trivial
  | get entry rest listed found => exact hstage

/-- One call of the store. -/
theorem sync_agree (hvalid : isValidRoomName args.room = true) (hroom : args.room ≠ r)
    (nowSec : Nat) {p q : CacheAdapterState × IssueSyncStage} (h : SyncsAgree r p q) :
    SyncsAgree r (p.2.step A args p.1 ⟨true, nowSec⟩) (q.2.step A args q.1 ⟨true, nowSec⟩) := by
  obtain ⟨s, stage⟩ := p
  obtain ⟨t, stage'⟩ := q
  obtain ⟨hagree, hsame, hlisted⟩ := h
  have hagree : s.AgreesOutside r t := hagree
  obtain rfl : stage = stage' := hsame
  have hne : args.room ≠ "" := (freeText_room hvalid).1
  cases stage with
  | loadEvents stage =>
    have hload : ∃ s' t' next, (IssueSyncStage.eventLoader args).step A s _ stage = _ ∧ _ :=
      load_agree hagree hne hroom nowSec hlisted
    obtain ⟨s', t', next, hstep, hstep', hagree, hlisted⟩ := hload
    simp only [IssueSyncStage.step, hstep, hstep']
    exact agree_ofEvents hagree hlisted
  | loadSnapshots events stage =>
    have hload : ∃ s' t' next, (IssueSyncStage.snapshotLoader args).step A s _ stage = _ ∧ _ :=
      load_agree hagree hne hroom nowSec hlisted
    obtain ⟨s', t', next, hstep, hstep', hagree, hlisted⟩ := hload
    simp only [IssueSyncStage.step, hstep, hstep']
    exact agree_ofSnapshots hagree events hlisted
  | readCursor events snapshots =>
    have hkey : normalizeKey (issueCursorStorageKey args.room) =
        .ok (issueCursorStorageKey args.room) :=
      have hfree := freeText_cursor (freeText_room hvalid)
      normalizeKey_trimmed hfree.2 hfree.1
    have hread : ∀ s : CacheAdapterState, getCacheObject (issueCursorStorageKey args.room) s
        ⟨true, nowSec⟩ = some (s.cacheStore.live? (toStorageKey .object
          (issueCursorStorageKey args.room)) nowSec, { s with
            cacheStore := s.cacheStore.keep fun storageKey record =>
              !readDrops s.cacheStore.policy (toStorageKey .object
                (issueCursorStorageKey args.room)) nowSec storageKey record }) := by
      intro s
      simp only [getCacheObject, if_true, get_eq hkey, Except.toOption]
      rfl
    simp only [IssueSyncStage.step, hread, Option.getD_some]
    refine ⟨⟨agrees_read hagree.store _ nowSec, hagree.table⟩, ?_, trivial⟩
    rw [cursorOf_live? hagree.store hroom, hagree.table args.room hroom]
  | cursorRead events snapshots inMemory persisted =>
    refine ⟨⟨hagree.store, fun room hne => ?_⟩, rfl, trivial⟩
    show (OrdMap.set _ _ _).getD room 0 = (OrdMap.set _ _ _).getD room 0
    by_cases heq : room = args.room
    · rw [heq, OrdMap.getD_set_self, OrdMap.getD_set_self]
    · rw [OrdMap.getD_set_of_ne _ heq, OrdMap.getD_set_of_ne _ heq]
      exact hagree.table room hne
  | returned result => exact ⟨hagree, rfl, trivial⟩

theorem syncRun_agree (hvalid : isValidRoomName args.room = true) (hroom : args.room ≠ r)
    (h : s.AgreesOutside r t) (times : List Nat) :
    SyncsAgree r (syncRun A args s times) (syncRun A args t times) :=
  runFrom_related (fun _ _ nowSec hpq => sync_agree hvalid hroom nowSec hpq) times ⟨h, rfl, trivial⟩

/-! ## Every call returns -/

/-- Nothing has expired. -/
def Fresh (nowSec : Nat) (s : CacheAdapterState) : Prop := ∀ storageKey record,
  s.record? storageKey = some record →
    isExpiredByPolicy record.metadata s.cacheStore.policy nowSec = false

/-- The state over a store without limits. -/
def unlimitedState (s : CacheAdapterState) : CacheAdapterState :=
  { s with cacheStore := { s.cacheStore with policy := .unlimited } }

/-- The state with what has expired dropped. -/
def prunedState (nowSec : Nat) (s : CacheAdapterState) : CacheAdapterState :=
  { s with cacheStore := s.cacheStore.pruneExpiredRecords nowSec }

theorem pruned_of_fresh (h : Fresh nowSec s) :
    s.cacheStore.pruneExpiredRecords nowSec = s.cacheStore := by
  have hall : (s.cacheStore.records.filter fun _ record =>
      !isExpiredByPolicy record.metadata s.cacheStore.policy nowSec) = s.cacheStore.records := by
    refine OrdMap.ext (List.filter_eq_self.mpr fun e he => ?_)
    exact (Bool.not_eq_true' _).mpr (h e.1 e.2 (OrdMap.get?_eq_some_iff.mpr he))
  exact congrArg (MemoryCacheStore.mk s.cacheStore.policy) hall

theorem fresh_prunedState (nowSec : Nat) (s : CacheAdapterState) :
    Fresh nowSec (prunedState nowSec s) := by
  intro storageKey record hrecord
  have hkept := (OrdMap.get?_filter_eq_some_iff.mp hrecord).2
  rwa [Bool.not_eq_true'] at hkept

/-- A read where nothing has expired. -/
theorem getCacheObject_fresh (h : Fresh nowSec s) (key : String) :
    getCacheObject key s ⟨true, nowSec⟩ =
      (getCacheObject key (unlimitedState s) ⟨true, nowSec⟩).map fun p => (p.1, s) := by
  have hget : s.cacheStore.get .object key nowSec = (normalizeKey key).map fun key =>
      (s.cacheStore.records.get? (toStorageKey .object key), s.cacheStore) := by
    unfold MemoryCacheStore.get
    cases normalizeKey key with
    | error message => rfl
    | ok key =>
      simp only [bind, Except.bind, pure, Except.pure]
      cases hfound : s.cacheStore.records.get? (toStorageKey .object key) with
      | none => simp only [Except.map, hfound]
      | some found =>
        simp only [Except.map, hfound, h _ found hfound, Bool.false_eq_true, if_false]
  have hget' : (unlimitedState s).cacheStore.get .object key nowSec = _ :=
    MemoryCacheStore.get_unlimited rfl .object key nowSec
  simp only [getCacheObject, if_true, hget, hget']
  cases normalizeKey key with
  | error message => rfl
  | ok key => rfl

/-- A call of the loop where nothing has expired. -/
theorem load_fresh (h : Fresh nowSec s) (stage : LoadStage α) :
    ∃ stage', loader.step A s ⟨true, nowSec⟩ stage = some (s, stage') ∧
      loader.step A (unlimitedState s) ⟨true, nowSec⟩ stage = some (unlimitedState s, stage') := by
  cases stage with
  | list listCursor found =>
    have hlist : ∀ query, s.cacheStore.list A.collation query nowSec =
        (((unlimitedState s).cacheStore.list A.collation query nowSec).1, s.cacheStore) := by
      intro query
      have hunlimited : (unlimitedState s).cacheStore.list A.collation query nowSec = _ :=
        MemoryCacheStore.list_unlimited A.collation rfl query nowSec
      rw [hunlimited]
      unfold MemoryCacheStore.list
      rw [pruned_of_fresh h]
      rfl
    refine ⟨loader.nextEntry ((unlimitedState s).cacheStore.list A.collation ⟨some .object,
      some loader.pre, some loader.room, some loader.pageSize, listCursor⟩ nowSec).1.cursor found
        ((unlimitedState s).cacheStore.list A.collation ⟨some .object, some loader.pre,
          some loader.room, some loader.pageSize, listCursor⟩ nowSec).1.entries, ?_, ?_⟩
    · simp only [IssueLoader.step, if_true, hlist]
    · have hunlimited : ∀ query, (unlimitedState s).cacheStore.list A.collation query nowSec =
          (_, (unlimitedState s).cacheStore) :=
        fun query => MemoryCacheStore.list_unlimited A.collation rfl query nowSec
      simp only [IssueLoader.step, if_true, hunlimited]
  | get entry rest listed found =>
    have hstate : ((getCacheObject entry.key (unlimitedState s) ⟨true, nowSec⟩).getD
        (none, unlimitedState s)).2 = unlimitedState s :=
      SyncLemmas.getCacheObject_state (s := unlimitedState s) rfl entry.key _
    refine ⟨loader.afterRead ((getCacheObject entry.key (unlimitedState s) ⟨true, nowSec⟩).getD
      (none, unlimitedState s)).1 rest listed found, ?_, ?_⟩
    · simp only [IssueLoader.step, getCacheObject_fresh h]
      cases getCacheObject entry.key (unlimitedState s) ⟨true, nowSec⟩ with
      | none => rfl
      | some read => rfl
    · simp only [IssueLoader.step, hstate]
  | loaded found => exact ⟨_, rfl, rfl⟩

/-- A call over a fresh store goes as over a store without limits. -/
def RunsAs (nowSec : Nat) (p q : CacheAdapterState × IssueSyncStage) : Prop :=
  Fresh nowSec p.1 ∧ q = (unlimitedState p.1, p.2)

theorem sync_fresh {p q : CacheAdapterState × IssueSyncStage} (h : RunsAs nowSec p q) :
    RunsAs nowSec (p.2.step A args p.1 ⟨true, nowSec⟩) (q.2.step A args q.1 ⟨true, nowSec⟩) := by
  obtain ⟨s, stage⟩ := p
  obtain ⟨hfresh, rfl⟩ := h
  have hfresh : Fresh nowSec s := hfresh
  cases stage with
  | loadEvents stage =>
    have hload : ∃ next, (IssueSyncStage.eventLoader args).step A s _ stage = _ ∧ _ :=
      load_fresh hfresh stage
    obtain ⟨next, hstep, hstep'⟩ := hload
    simp only [IssueSyncStage.step, hstep, hstep']
    exact ⟨hfresh, rfl⟩
  | loadSnapshots events stage =>
    have hload : ∃ next, (IssueSyncStage.snapshotLoader args).step A s _ stage = _ ∧ _ :=
      load_fresh hfresh stage
    obtain ⟨next, hstep, hstep'⟩ := hload
    simp only [IssueSyncStage.step, hstep, hstep']
    exact ⟨hfresh, rfl⟩
  | readCursor events snapshots =>
    have hstate : ((getCacheObject (issueCursorStorageKey args.room) (unlimitedState s)
        ⟨true, nowSec⟩).getD (none, unlimitedState s)).2 = unlimitedState s :=
      SyncLemmas.getCacheObject_state (s := unlimitedState s) rfl _ _
    simp only [IssueSyncStage.step, getCacheObject_fresh hfresh, hstate]
    cases getCacheObject (issueCursorStorageKey args.room) (unlimitedState s) ⟨true, nowSec⟩ with
    | none => exact ⟨hfresh, rfl⟩
    | some read => exact ⟨hfresh, rfl⟩
  | cursorRead events snapshots inMemory persisted => exact ⟨hfresh, rfl⟩
  | returned result => exact ⟨hfresh, rfl⟩

/-- The first call of the store drops what has expired. -/
theorem syncRun_pruned (n : Nat) :
    syncRun A args s (List.replicate (n + 1) nowSec) =
      syncRun A args (prunedState nowSec s) (List.replicate (n + 1) nowSec) := by
  have hprune : (s.cacheStore.pruneExpiredRecords nowSec).pruneExpiredRecords nowSec =
      s.cacheStore.pruneExpiredRecords nowSec := pruned_of_fresh (fresh_prunedState nowSec s)
  have hlist : ∀ query, (prunedState nowSec s).cacheStore.list A.collation query nowSec =
      s.cacheStore.list A.collation query nowSec := by
    intro query
    unfold MemoryCacheStore.list prunedState
    rw [hprune]
  unfold syncRun
  rw [List.replicate_succ, runFrom_cons, runFrom_cons]
  refine congrArg (fun p => runFrom _ p _) ?_
  simp only [IssueSyncStage.start, IssueSyncStage.step, IssueLoader.step, if_true, hlist]
  rfl

theorem syncRun_returned (result : IssueSyncResult) (times : List Nat) :
    runFrom (fun (p : CacheAdapterState × IssueSyncStage) nowSec =>
      p.2.step A args p.1 ⟨true, nowSec⟩) (s, .returned result) times = (s, .returned result) := by
  induction times with
  | nil => rfl
  | cons nowSec rest ih => exact ih

end

end ViewedLemmas

open ViewedLemmas

section
variable {A : CacheAdapterOptions} {r : String} {s t : CacheAdapterState}

/-- A call of `syncIssues` returns, under every policy. -/
theorem syncIssuesAt_returns (args : IssueSyncArgs) (s : CacheAdapterState) (nowSec : Nat) :
    ∃ result, (syncIssuesAt A args s nowSec).2 = .returned result := by
  have hlength : (prunedState nowSec s).cacheStore.records.entries.length ≤
      s.cacheStore.records.entries.length := List.length_filter_le _ _
  have hruns : RunsAs nowSec (syncRun A args (prunedState nowSec s)
      (List.replicate (4 * s.cacheStore.records.entries.length + 6) nowSec))
      (syncRun A args (unlimitedState (prunedState nowSec s))
        (List.replicate (4 * s.cacheStore.records.entries.length + 6) nowSec)) := by
    have hnow : ∀ time ∈ List.replicate (4 * s.cacheStore.records.entries.length + 6) nowSec,
        time = nowSec := fun time htime => List.eq_of_mem_replicate htime
    generalize List.replicate (4 * s.cacheStore.records.entries.length + 6) nowSec = times at hnow
    have hstart : RunsAs nowSec (prunedState nowSec s, .start)
        (unlimitedState (prunedState nowSec s), .start) := ⟨fresh_prunedState nowSec s, rfl⟩
    unfold syncRun
    generalize (prunedState nowSec s, IssueSyncStage.start) = p at hstart
    generalize (unlimitedState (prunedState nowSec s), IssueSyncStage.start) = q at hstart
    induction times generalizing p q with
    | nil => exact hstart
    | cons time rest ih =>
      obtain rfl := hnow time List.mem_cons_self
      exact ih (fun other hother => hnow other (List.mem_cons_of_mem _ hother)) _ _
        (sync_fresh hstart)
  have hlimits : (unlimitedState (prunedState nowSec s)).Unlimited := rfl
  have henough : 4 * (unlimitedState (prunedState nowSec s)).cacheStore.records.entries.length + 6 ≤
      (List.replicate (4 * s.cacheStore.records.entries.length + 6) nowSec).length := by
    rw [List.length_replicate]
    exact Nat.add_le_add_right (Nat.mul_le_mul_left 4 hlength) 6
  obtain ⟨result, hresult, -⟩ := sync_returns (A := A) hlimits args henough
  have hstage := congrArg Prod.snd hruns.2
  rw [hresult] at hstage
  refine ⟨result, ?_⟩
  unfold syncIssuesAt
  rw [syncRun_pruned]
  exact hstage.symm

/-- The calls for another room answer the same. -/
theorem syncIssuesAt_agree (h : s.AgreesOutside r t) {args : IssueSyncArgs}
    (hvalid : isValidRoomName args.room = true) (hroom : args.room ≠ r) (nowSec : Nat) :
    (syncIssuesAt A args s nowSec).2 = (syncIssuesAt A args t nowSec).2 := by
  -- Both have returned when the longer one has.
  have hlonger : ∀ (s : CacheAdapterState) (n : Nat),
      4 * s.cacheStore.records.entries.length + 6 ≤ n →
      (syncRun A args s (List.replicate n nowSec)).2 = (syncIssuesAt A args s nowSec).2 := by
    intro s n hn
    obtain ⟨result, hresult⟩ := syncIssuesAt_returns (A := A) args s nowSec
    obtain ⟨m, rfl⟩ := Nat.exists_eq_add_of_le hn
    unfold syncIssuesAt syncRun at hresult ⊢
    rw [List.replicate_add, runFrom_append]
    generalize runFrom _ (s, IssueSyncStage.start) (List.replicate _ nowSec) = p at hresult
    obtain ⟨s', stage⟩ := p
    obtain rfl : stage = .returned result := hresult
    rw [syncRun_returned]
  rw [← hlonger s _ (Nat.le_max_left _ (4 * t.cacheStore.records.entries.length + 6)),
    ← hlonger t _ (Nat.le_max_right (4 * s.cacheStore.records.entries.length + 6) _)]
  exact (syncRun_agree hvalid hroom h _).2.1

theorem pullIssues_agree (h : s.AgreesOutside r t) {room : String}
    (hvalid : isValidRoomName room = true) (hroom : room ≠ r) (after limit nowSec : Nat) :
    (pullIssues A s room after limit nowSec).1 = (pullIssues A t room after limit nowSec).1 := by
  have hne : room ≠ "" := (freeText_room hvalid).1
  unfold pullIssues
  generalize hquery : (⟨some .issue, none, some room, some (max 1 limit), some (toString after)⟩ :
    CacheStoreListQuery) = query
  have hkind : query.kind = some .issue := by rw [← hquery]
  have hqueryRoom : query.room = some room := by rw [← hquery]
  have hread := readIssueEntries_agree (agrees_list A.collation h.store query nowSec) room nowSec
    fun entry hentry => listed_list A.collation h.store hne hroom hqueryRoom hkind hentry
  have hlisted := list_agree A.collation h.store hne hroom hqueryRoom nowSec
  dsimp only
  rw [hread, hlisted]

end

/-! ## The view -/

/-- Only raw envelopes of the room are stored, and the clock stands still. -/
structure BareCache (r : String) (cache : MemoryCache) : Prop where
  clock : cache.clock = fun _ => 0
  unlimited : cache.adapter.Unlimited
  table : cache.adapter.issueCursorByRoom = ∅
  own : ∀ storageKey record, cache.adapter.record? storageKey = some record →
    record.metadata.room = some r

namespace ViewedLemmas

variable {A : CacheAdapterOptions} {r : String} {cache cache' : MemoryCache} {envelope : Envelope}

theorem bareCache_persist (h : BareCache r cache) (hstorable : envelope.Storable)
    (hroom : envelope.room = r) (htopic : isIssueTopic envelope.topic = false) (cursor : Nat) :
    BareCache r ((memoryAdapter A).persistEnvelope cache envelope cursor) := by
  have hstep : PersistStage.putEnvelope.step A envelope (some (cursor : Int)) cache.adapter
      ⟨true, cache.clock 0⟩ =
        some (cache.adapter.store (envelopeRequest A envelope (cache.clock 0)), .persisted) := by
    rw [PersistStage.step_putEnvelope h.unlimited hstorable, if_pos rfl, htopic,
      if_neg Bool.false_ne_true]
  have hpersist : persistEnvelope A envelope (some (cursor : Int)) cache.adapter (cache.clock 0) =
      cache.adapter.store (envelopeRequest A envelope (cache.clock 0)) :=
    (WriteLemmas.resume_succ hstep).trans (WriteLemmas.resume_persisted 6)
  have hadapter : (memoryAdapter A).persistEnvelope cache envelope cursor =
      cache.tick (cache.adapter.store (envelopeRequest A envelope (cache.clock 0))) :=
    congrArg cache.tick hpersist
  rw [hadapter]
  refine ⟨by rw [MemoryCache.tick, h.clock], h.unlimited, h.table,
    fun storageKey record hrecord => ?_⟩
  have hrecord : (cache.adapter.store (envelopeRequest A envelope (cache.clock 0))).record?
    storageKey = some record := hrecord
  rw [CacheAdapterState.record?_store] at hrecord
  split at hrecord
  · cases hrecord
    have hne : envelope.room ≠ "" := (freeText_room hstorable.room).1
    have hkept : (some envelope.room).filter (· ≠ "") = some envelope.room := by simp [hne]
    exact hkept.trans (congrArg some hroom)
  · exact h.own storageKey record hrecord

/-- The states hold the same records and cursors of the other rooms, and their clocks go the
same. -/
structure SameOutside (r : String) (cache cache' : MemoryCache) : Prop where
  policy : cache.adapter.cacheStore.policy = cache'.adapter.cacheStore.policy
  outside : cache.adapter.cacheStore.outside r = cache'.adapter.cacheStore.outside r
  table : ∀ room, room ≠ r → cache.adapter.issueCursorByRoom.getD room 0 =
    cache'.adapter.issueCursorByRoom.getD room 0
  clock : cache.clock = cache'.clock

theorem agrees_of_bareCache (h : BareCache r cache) (h' : BareCache r cache') :
    SameOutside r cache cache' := by
  have hempty : ∀ {cache : MemoryCache}, BareCache r cache →
      cache.adapter.cacheStore.outside r = ∅ := by
    intro cache h
    refine OrdMap.ext (List.filter_eq_nil_iff.mpr fun e he => ?_)
    simp [h.own e.1 e.2 (OrdMap.get?_eq_some_iff.mpr he)]
  refine ⟨h.unlimited.trans h'.unlimited.symm, (hempty h).trans (hempty h').symm, fun room _ => ?_,
    h.clock.trans h'.clock.symm⟩
  rw [h.table, h'.table]

/-- The records of the cache are filed. -/
def SoundCache (cache : MemoryCache) : Prop := cache.adapter.cacheStore.WellFiled

theorem soundCache_step (h : SoundCache cache) (hstep : CacheStep (memoryAdapter A) cache cache') :
    SoundCache cache' := by
  cases hstep with
  | persist envelope roomCursorHint => exact wellFiled_persistRun h _
  | sync room after limit snapshotLimit => exact wellFiled_syncRun h _

theorem agreesOutside_of_same (h : SameOutside r cache cache') (hfiled : SoundCache cache)
    (hfiled' : SoundCache cache') : cache.adapter.AgreesOutside r cache'.adapter :=
  ⟨⟨h.policy, h.outside, hfiled, hfiled'⟩, h.table⟩

theorem pulls_of_same (hfiled : SoundCache cache) (hfiled' : SoundCache cache')
    (h : SameOutside r cache cache') {room : String} (hvalid : isValidRoomName room = true)
    (hroom : room ≠ r) (after limit : Nat) :
    (memoryAdapter A).pullIssues cache room after limit =
      (memoryAdapter A).pullIssues cache' room after limit := by
  have hpull : ∀ cache, (memoryAdapter A).pullIssues cache room after limit =
      (pullIssues A cache.adapter room after limit (cache.clock 0)).1 := fun _ => rfl
  rw [hpull, hpull, h.clock]
  exact pullIssues_agree (agreesOutside_of_same h hfiled hfiled') hvalid hroom after limit _

theorem syncs_of_same (hfiled : SoundCache cache) (hfiled' : SoundCache cache')
    (h : SameOutside r cache cache') {room : String} (hvalid : isValidRoomName room = true)
    (hroom : room ≠ r) (after limit snapshotLimit : Nat) :
    ((memoryAdapter A).syncIssues cache room after limit snapshotLimit).1 =
      ((memoryAdapter A).syncIssues cache' room after limit snapshotLimit).1 := by
  have hsync : ∀ cache, ((memoryAdapter A).syncIssues cache room after limit snapshotLimit).1 =
      ((syncIssuesAt A ⟨room, after, limit, snapshotLimit⟩ cache.adapter
        (cache.clock 0)).2.result?.getD (IssueSyncStage.failure
          ⟨room, after, limit, snapshotLimit⟩)).toCacheIssueSync := fun _ => rfl
  have hsame : (syncIssuesAt A ⟨room, after, limit, snapshotLimit⟩ cache.adapter
      (cache'.clock 0)).2 = (syncIssuesAt A ⟨room, after, limit, snapshotLimit⟩ cache'.adapter
        (cache'.clock 0)).2 :=
    syncIssuesAt_agree (agreesOutside_of_same h hfiled hfiled') hvalid hroom _
  rw [hsync, hsync, h.clock, hsame]

end ViewedLemmas

/-- What of the memory store shows outside the room: the records of the other rooms and their
cursors. -/
def RoomView.memory (A : CacheAdapterOptions) (r : String) : RoomView (memoryAdapter A) r where
  agree := SameOutside r
  sound := SoundCache
  sound_step h hstep := soundCache_step h hstep
  pullIssues h h' hsame _ hvalid hroom := pulls_of_same h h' hsame hvalid hroom
  syncIssues h h' hsame _ hvalid hroom := syncs_of_same h h' hsame hvalid hroom
  bare := BareCache r
  empty := ⟨.toy, fun _ => 0⟩
  sound_empty _ _ hrecord := by cases hrecord
  bare_empty := ⟨rfl, rfl, rfl, fun _ _ hrecord => by cases hrecord⟩
  bare_persist h hstorable hroom htopic cursor := bareCache_persist h hstorable hroom htopic cursor
  agree_of_bare h h' := agrees_of_bareCache h h'

end BitRelay
