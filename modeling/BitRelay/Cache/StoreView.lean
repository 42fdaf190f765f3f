import BitRelay.Cache.Equivalence

/-!
# The memory store of the relay as a store of bytes

`Store.lean` has `createMemoryCacheStore` as the adapter calls it, with JSON bodies; `Stores.lean`
has it for all that its interface takes. What the one holds reads as what the other holds, and
every call of the one is the call of the other on what it reads as.

Results:
1. `put_bytes`, `get_bytes`, `list_bytes`: the calls go through the view.
2. `records_enforceMaxBytesLimit`: the bound on the bytes erases the same keys.
-/

namespace BitRelay

/-! ## The view -/

/-- The text of a body in UTF-8. -/
def Body.bytes (body : Body) : Bytes := body.text.toByteArray.data.toList

def CacheStoreMetadata.bytes (metadata : CacheStoreMetadata) : Stores.CacheStoreMetadata where
  kind := metadata.kind
  key := metadata.key
  size := metadata.size
  updatedAt := metadata.updatedAt
  room := metadata.room
  ref := metadata.ref
  contentHash := metadata.contentHash
  contentType := metadata.contentType

def CacheStoreObject.bytes (object : CacheStoreObject) : Stores.CacheStoreObject :=
  ⟨object.body.bytes, object.metadata.bytes⟩

def CacheStorePutRequest.bytes (request : CacheStorePutRequest) : Stores.CacheStorePutRequest where
  kind := request.kind.name
  key := request.key
  body := request.body.bytes
  room := request.room
  ref := request.ref
  contentHash := request.contentHash
  contentType := request.contentType
  updatedAt := request.updatedAt.map JsNumber.ofInt

def CacheStoreListQuery.bytes (query : CacheStoreListQuery) : Stores.CacheStoreListQuery where
  kind := query.kind.map CacheStoreKind.name
  pre := query.pre
  room := query.room
  limit := query.limit.map JsNumber.ofNat
  cursor := query.cursor

def CacheStoreListResult.bytes (result : CacheStoreListResult) : Stores.CacheStoreListResult :=
  ⟨result.entries.map CacheStoreMetadata.bytes, result.cursor⟩

namespace MemoryCacheStore

def bytes (store : MemoryCacheStore) : Stores.Records :=
  store.records.mapValues CacheStoreObject.bytes

/-- The storage keys of the records beyond the bound on the bytes. -/
def overflow (C : Collation) (store : MemoryCacheStore) : List String :=
  Stores.EquivalenceLemmas.evictedKeys C store.policy store.bytes.candidates

variable {store : MemoryCacheStore} {C : Collation} {nowSec : Int}

/-! ## Eviction -/

namespace ViewLemmas

def candidateOf (entry : String × CacheStoreObject) : Stores.EvictionCandidate :=
  ⟨entry.1, entry.2.metadata.updatedAt, entry.2.metadata.size⟩

theorem candidates_bytes (store : MemoryCacheStore) :
    store.bytes.candidates = store.records.entries.map candidateOf := by
  unfold Stores.Records.candidates bytes OrdMap.mapValues
  rw [List.map_map]
  rfl

theorem evict_eq (maxBytes : Nat) (candidates : List (String × CacheStoreObject)) (totalBytes : Nat)
    (records : OrdMap String CacheStoreObject) :
    evict maxBytes candidates totalBytes records =
      ((Stores.evicted maxBytes (candidates.map candidateOf) totalBytes).map
        Stores.EvictionCandidate.storageKey).foldl OrdMap.erase records := by
  induction candidates generalizing totalBytes records with
  | nil => rfl
  | cons candidate rest ih =>
    rw [evict, List.map_cons, Stores.evicted]
    split
    · rfl
    · exact ih _ _

theorem evictionLe_candidateOf (a b : String × CacheStoreObject) :
    Stores.evictionLe C (candidateOf a) (candidateOf b) = evictionLe C a b := by
  unfold Stores.evictionLe evictionLe candidateOf
  simp only [Int.ofNat_inj, Int.ofNat_lt]

theorem sortEvictionCandidates_map (entries : List (String × CacheStoreObject)) :
    Stores.sortEvictionCandidates C (entries.map candidateOf) =
      (entries.insertionSort fun a b => evictionLe C a b).map candidateOf := by
  refine (List.map_insertionSort _ _ candidateOf entries fun a _ b _ => ?_).symm
  rw [evictionLe_candidateOf]

theorem isExpiredByPolicy_bytes (metadata : CacheStoreMetadata) (policy : CacheStorePolicy)
    (nowSec : Int) : Stores.isExpiredByPolicy metadata.bytes policy nowSec =
      isExpiredByPolicy metadata policy nowSec := rfl

theorem mapValues_foldl_erase (keys : List String) (records : OrdMap String CacheStoreObject) :
    (keys.foldl OrdMap.erase records).mapValues CacheStoreObject.bytes =
      keys.foldl OrdMap.erase (records.mapValues CacheStoreObject.bytes) := by
  induction keys generalizing records with
  | nil => rfl
  | cons key rest ih => rw [List.foldl_cons, List.foldl_cons, ih, OrdMap.mapValues_erase]

end ViewLemmas

open ViewLemmas

/-- The bound on the bytes erases the keys that the store of bytes evicts. -/
theorem records_enforceMaxBytesLimit (C : Collation) (store : MemoryCacheStore) :
    (store.enforceMaxBytesLimit C).records = (store.overflow C).foldl OrdMap.erase store.records := by
  unfold enforceMaxBytesLimit overflow Stores.EquivalenceLemmas.evictedKeys
  rw [candidates_bytes]
  cases store.policy.maxBytes with
  | none => rfl
  | some maxBytes =>
    have htotal : (store.records.values.map fun record => record.metadata.size) =
        (store.records.entries.map candidateOf).map Stores.EvictionCandidate.size := by
      unfold OrdMap.values
      rw [List.map_map, List.map_map]
      rfl
    dsimp only
    rw [evict_eq, sortEvictionCandidates_map, htotal]

theorem policy_enforceMaxBytesLimit (C : Collation) (store : MemoryCacheStore) :
    (store.enforceMaxBytesLimit C).policy = store.policy := by
  unfold enforceMaxBytesLimit
  split <;> rfl

theorem bytes_enforceMaxBytesLimit (C : Collation) (store : MemoryCacheStore) :
    (store.enforceMaxBytesLimit C).bytes =
      store.bytes.enforceMaxBytesLimit C store.policy := by
  unfold bytes
  rw [records_enforceMaxBytesLimit, mapValues_foldl_erase]
  unfold Stores.Records.enforceMaxBytesLimit overflow Stores.EquivalenceLemmas.evictedKeys
  cases store.policy.maxBytes with
  | none => rfl
  | some maxBytes => exact List.foldl_map

/-! ## The calls -/

theorem bytes_pruneExpiredRecords (store : MemoryCacheStore) (nowSec : Int) :
    (store.pruneExpiredRecords nowSec).bytes =
      store.bytes.pruneExpiredRecords store.policy nowSec :=
  OrdMap.mapValues_filter fun _ _ => rfl

theorem recordOf_bytes (request : CacheStorePutRequest) (key : String) (hnow : 0 ≤ nowSec) :
    Stores.recordOf request.bytes request.kind key nowSec =
      (recordOf request key nowSec).bytes := by
  have hsize : request.body.bytes.length = jsonByteLength request.body.text := rfl
  have htime : Stores.putUpdatedAt request.bytes nowSec =
      ((max 0 (request.updatedAt.getD nowSec)).toNat : Int) := by
    unfold Stores.putUpdatedAt CacheStorePutRequest.bytes
    cases request.updatedAt with
    | none =>
      show nowSec = _
      rw [Option.getD_none, max_eq_right hnow, Int.toNat_of_nonneg hnow]
    | some updatedAt =>
      simp only [Option.map_some, Option.bind_some, JsNumber.truncInt?_ofInt, Option.getD_some]
      rw [Int.toNat_of_nonneg (le_max_left 0 _)]
  unfold Stores.recordOf
  rw [htime]
  exact congrArg (fun size => Stores.CacheStoreObject.mk request.body.bytes
    ⟨request.kind, key, size, _, _, _, _, _⟩) hsize

theorem normalizeKind_name (kind : CacheStoreKind) : Stores.normalizeKind kind.name = .ok kind := by
  unfold Stores.normalizeKind
  rw [Stores.parseKind_name]

theorem put_bytes (C : Collation) (store : MemoryCacheStore) (request : CacheStorePutRequest)
    (hnow : 0 ≤ nowSec) :
    (store.put C request nowSec).map bytes =
      store.bytes.put C store.policy nowSec request.bytes := by
  unfold put Stores.Records.put
  rw [show request.bytes.kind = request.kind.name from rfl, normalizeKind_name,
    show request.bytes.key = request.key from rfl]
  cases normalizeKey request.key with
  | error message => rfl
  | ok key =>
    refine congrArg Except.ok ?_
    rw [bytes_enforceMaxBytesLimit, recordOf_bytes request key hnow, ← bytes_pruneExpiredRecords]
    exact congrArg (Stores.Records.enforceMaxBytesLimit C store.policy)
      (OrdMap.mapValues_set _ _ _ _)

theorem get_bytes (store : MemoryCacheStore) (kind : CacheStoreKind) (key : String)
    (nowSec : Int) :
    (store.get kind key nowSec).map (fun p => (p.1.map CacheStoreObject.bytes, p.2.bytes)) =
      store.bytes.get store.policy nowSec kind.name key := by
  unfold get Stores.Records.get
  rw [normalizeKind_name]
  cases normalizeKey key with
  | error message => rfl
  | ok key =>
    have hfound : store.bytes.get? (toStorageKey kind key) =
        (store.records.get? (toStorageKey kind key)).map CacheStoreObject.bytes :=
      OrdMap.get?_mapValues _ _ _
    simp only [bind, Except.bind, hfound]
    cases store.records.get? (toStorageKey kind key) with
    | none => rfl
    | some found =>
      simp only [Option.map_some, show found.bytes.metadata = found.metadata.bytes from rfl,
        isExpiredByPolicy_bytes]
      split
      · exact congrArg (fun records => Except.ok (none, records)) (OrdMap.mapValues_erase _ _ _)
      · rfl

theorem paginateMetadata_bytes (C : Collation) (entries : List CacheStoreMetadata)
    (query : CacheStoreListQuery) :
    (paginateMetadata C entries query).bytes =
      Stores.paginateMetadata C (entries.map CacheStoreMetadata.bytes) query.bytes := by
  have hsorted : ((entries.map CacheStoreMetadata.bytes).insertionSort fun a b =>
      Stores.metadataLe C a b) =
        (entries.insertionSort fun a b => C.metadataLe a b).map CacheStoreMetadata.bytes :=
    (List.map_insertionSort _ _ CacheStoreMetadata.bytes entries fun _ _ _ _ => Iff.rfl).symm
  have hlimit : Stores.normalizeLimit query.bytes.limit = max 1 (query.limit.getD
      DEFAULT_LIST_LIMIT) := by
    unfold Stores.normalizeLimit CacheStoreListQuery.bytes
    cases query.limit with
    | none => rfl
    | some limit =>
      have htrunc : (JsNumber.ofNat limit).truncInt? = some (limit : Int) :=
        JsNumber.truncInt?_ofInt limit
      simp only [Option.map_some, Option.bind_some, htrunc, Option.getD_some]
      have hmax : max 1 (limit : Int) = ((max 1 limit : Nat) : Int) := by omega
      exact (congrArg Int.toNat hmax).trans (Int.toNat_natCast _)
  unfold paginateMetadata Stores.paginateMetadata CacheStoreListResult.bytes
  simp only [hsorted, hlimit, show query.bytes.cursor = query.cursor from rfl, List.length_map,
    List.map_take, List.map_drop, List.length_take, List.length_drop]

theorem list_bytes (C : Collation) (store : MemoryCacheStore) (query : CacheStoreListQuery)
    (nowSec : Int) :
    ((store.list C query nowSec).1.bytes, (store.list C query nowSec).2.bytes) =
      store.bytes.list C store.policy nowSec query.bytes := by
  have hquery : ∀ metadata, Stores.metadataMatchesQuery metadata.bytes query.bytes =
      metadataMatchesQuery metadata query := by
    intro metadata
    unfold Stores.metadataMatchesQuery metadataMatchesQuery CacheStoreListQuery.bytes
    cases query.kind with
    | none => rfl
    | some kind =>
      have hkind : (kind.name == "" || metadata.kind.name == kind.name) =
          (metadata.kind == kind) := by
        cases kind <;> cases metadata.kind <;> rfl
      simp only [Option.map_some, Option.all_some]
      rw [show metadata.bytes.kind = metadata.kind from rfl, hkind]
      rfl
  unfold list Stores.Records.list
  rw [paginateMetadata_bytes, bytes_pruneExpiredRecords]
  have hentries : (((store.pruneExpiredRecords nowSec).records.values.map
      CacheStoreObject.metadata).filter fun metadata => metadataMatchesQuery metadata query).map
        CacheStoreMetadata.bytes =
      ((store.bytes.pruneExpiredRecords store.policy nowSec).values.map
        Stores.CacheStoreObject.metadata).filter fun metadata =>
          Stores.metadataMatchesQuery metadata query.bytes := by
    rw [← bytes_pruneExpiredRecords]
    have hvalues : (store.pruneExpiredRecords nowSec).bytes.values.map
        Stores.CacheStoreObject.metadata =
          ((store.pruneExpiredRecords nowSec).records.values.map CacheStoreObject.metadata).map
            CacheStoreMetadata.bytes := by
      unfold bytes
      rw [OrdMap.values_mapValues, List.map_map, List.map_map]
      rfl
    have hsame : (fun metadata => metadataMatchesQuery metadata query) =
        (fun metadata => Stores.metadataMatchesQuery metadata query.bytes) ∘
          CacheStoreMetadata.bytes := funext fun metadata => (hquery metadata).symm
    rw [hvalues, hsame]
    exact List.filter_map.symm
  rw [hentries]

end MemoryCacheStore

end BitRelay
