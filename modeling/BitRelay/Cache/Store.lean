import BitRelay.Js.Json
import BitRelay.Js.Numerals
import BitRelay.Lib.OrdMap
import BitRelay.Lib.StableSort
import Mathlib.Algebra.GroupWithZero.Nat

/-!
# The memory cache store

`createMemoryCacheStore` of `cache_store.ts`: a map from storage keys
`kind/key` to records, with an optional time to live and an optional bound on
the bytes it holds, and a listing that is sorted by kind and key and cut into
pages.

`localeCompare` belongs to the runtime: a `Collation` is what the listing relies
on, a total preorder of texts that tells the names of the kinds apart.

Results:
1. `put_unlimited`, `get_unlimited`, `list_unlimited`: the store when nothing
   expires and nothing is evicted.
2. `toStorageKey_inj`: a storage key determines the kind and the key.
-/

namespace BitRelay

/-! ## Kinds, metadata and records -/

inductive CacheStoreKind
  | object
  | pack
  | ref
  | issue
  deriving DecidableEq

def CacheStoreKind.name : CacheStoreKind → String
  | object => "object"
  | pack => "pack"
  | ref => "ref"
  | issue => "issue"

structure CacheStorePutRequest where
  kind : CacheStoreKind
  key : String
  body : Body
  room : Option String
  ref : Option String
  contentHash : Option String
  contentType : Option String
  updatedAt : Option Int

structure CacheStoreMetadata where
  kind : CacheStoreKind
  key : String
  size : Nat
  updatedAt : Nat
  room : Option String
  ref : Option String
  contentHash : Option String
  contentType : Option String
  deriving DecidableEq

/-- A `StoredRecord`, and the `CacheStoreObject` that `get` returns. -/
structure CacheStoreObject where
  body : Body
  metadata : CacheStoreMetadata
  deriving DecidableEq

structure CacheStoreListQuery where
  kind : Option CacheStoreKind
  pre : Option String
  room : Option String
  limit : Option Nat
  cursor : Option String

structure CacheStoreListResult where
  entries : List CacheStoreMetadata
  cursor : Option String

/-- A normalized policy: `none` is no limit. -/
structure CacheStorePolicy where
  ttlSec : Option Nat
  maxBytes : Option Nat

def CacheStorePolicy.unlimited : CacheStorePolicy := ⟨none, none⟩

/-- `localeCompare(a, b) <= 0`, as far as the store relies on it. -/
structure Collation where
  le : String → String → Bool
  total : ∀ a b, le a b = true ∨ le b a = true
  trans : ∀ a b c, le a b = true → le b c = true → le a c = true
  kinds : ∀ k k' : CacheStoreKind, le k.name k'.name = true → le k'.name k.name = true → k = k'

/-- The order of the code units, for runs on fixed inputs. -/
def Collation.codeUnits : Collation where
  le := codeUnitLe
  total a b := by
    simp only [codeUnitLe, Bool.not_eq_true', decide_eq_false_iff_not]
    exact (Decidable.em (utf16 b < utf16 a)).symm.imp_right List.lt_asymm
  trans a b c hab hbc := by
    simp only [codeUnitLe, Bool.not_eq_true', decide_eq_false_iff_not] at hab hbc ⊢
    exact @List.le_trans Nat _ _ _ _ (utf16 a) (utf16 b) (utf16 c) hab hbc
  kinds k k' := by cases k <;> cases k' <;> decide

/-! ## Keys -/

/-- The key of a request without the whitespace around it; a blank key is refused. -/
def normalizeKey (key : String) : Except String String :=
  if trim key = "" then .error "cache store key must not be empty" else .ok (trim key)

def toStorageKey (kind : CacheStoreKind) (key : String) : String := kind.name ++ "/" ++ key

/-! ## The store -/

structure MemoryCacheStore where
  policy : CacheStorePolicy
  records : OrdMap String CacheStoreObject

def isExpiredByPolicy (metadata : CacheStoreMetadata) (policy : CacheStorePolicy) (nowSec : Int) :
    Bool :=
  policy.ttlSec.any fun ttlSec => decide ((ttlSec : Int) ≤ nowSec - metadata.updatedAt)

namespace MemoryCacheStore

def pruneExpiredRecords (store : MemoryCacheStore) (nowSec : Int) : MemoryCacheStore :=
  { store with
    records := store.records.filter fun _ record =>
      !isExpiredByPolicy record.metadata store.policy nowSec }

/-- The order of eviction: by `updatedAt`, then by storage key. -/
def evictionLe (C : Collation) (a b : String × CacheStoreObject) : Bool :=
  if a.2.metadata.updatedAt = b.2.metadata.updatedAt then C.le a.1 b.1
  else decide (a.2.metadata.updatedAt < b.2.metadata.updatedAt)

/-- The loop of `enforceMaxBytesLimit` over the candidates. -/
def evict (maxBytes : Nat) : List (String × CacheStoreObject) → Nat →
    OrdMap String CacheStoreObject → OrdMap String CacheStoreObject
  | [], _, records => records
  | candidate :: rest, totalBytes, records =>
    if totalBytes ≤ maxBytes then records
    else evict maxBytes rest (totalBytes - candidate.2.metadata.size) (records.erase candidate.1)

def enforceMaxBytesLimit (C : Collation) (store : MemoryCacheStore) : MemoryCacheStore :=
  match store.policy.maxBytes with
  | none => store
  | some maxBytes =>
    let totalBytes := (store.records.values.map fun record => record.metadata.size).sum
    { store with
      records := evict maxBytes
        (store.records.entries.insertionSort fun a b => evictionLe C a b) totalBytes store.records }

/-- The record that a request asks to store under its normalized key. -/
def recordOf (request : CacheStorePutRequest) (key : String) (nowSec : Int) : CacheStoreObject where
  body := request.body
  metadata :=
    { kind := request.kind
      key
      size := jsonByteLength request.body.text
      updatedAt := (max 0 (request.updatedAt.getD nowSec)).toNat
      room := request.room.filter (· ≠ "")
      ref := request.ref.filter (· ≠ "")
      contentHash := request.contentHash.filter (· ≠ "")
      contentType := request.contentType.filter (· ≠ "") }

def setRecord (store : MemoryCacheStore) (storageKey : String) (record : CacheStoreObject) :
    MemoryCacheStore :=
  { store with records := store.records.set storageKey record }

def put (C : Collation) (store : MemoryCacheStore) (request : CacheStorePutRequest)
    (nowSec : Int) : Except String MemoryCacheStore := do
  let key ← normalizeKey request.key
  return ((store.pruneExpiredRecords nowSec).setRecord (toStorageKey request.kind key)
    (recordOf request key nowSec)).enforceMaxBytesLimit C

/-- An expired record is removed when it is asked for. -/
def get (store : MemoryCacheStore) (kind : CacheStoreKind) (key : String) (nowSec : Int) :
    Except String (Option CacheStoreObject × MemoryCacheStore) := do
  let key ← normalizeKey key
  let storageKey := toStorageKey kind key
  match store.records.get? storageKey with
  | none => return (none, store)
  | some found =>
    if isExpiredByPolicy found.metadata store.policy nowSec then
      return (none, { store with records := store.records.erase storageKey })
    else return (some found, store)

/-! ## Listing -/

def metadataMatchesQuery (metadata : CacheStoreMetadata) (query : CacheStoreListQuery) : Bool :=
  (query.kind.all fun kind => metadata.kind == kind) &&
    (query.pre.all fun pre => startsWith metadata.key pre) &&
    (query.room.all fun room => room == "" || metadata.room == some room)

end MemoryCacheStore

/-- The order of a listing: by kind, then by key. -/
def Collation.metadataLe (C : Collation) (a b : CacheStoreMetadata) : Bool :=
  if a.kind = b.kind then C.le a.key b.key else C.le a.kind.name b.kind.name

def DEFAULT_LIST_LIMIT : Nat := 100

def normalizeOffset (raw : Option String) : Nat :=
  (max 0 ((parseInt10 (raw.getD "0")).getD 0)).toNat

def paginateMetadata (C : Collation) (entries : List CacheStoreMetadata)
    (query : CacheStoreListQuery) : CacheStoreListResult :=
  let sorted := entries.insertionSort fun a b => C.metadataLe a b
  let limit := max 1 (query.limit.getD DEFAULT_LIST_LIMIT)
  let start := normalizeOffset query.cursor
  let page := (sorted.drop start).take limit
  let next := start + page.length
  ⟨page, if next < sorted.length then some (toString next) else none⟩

namespace MemoryCacheStore

def list (C : Collation) (store : MemoryCacheStore) (query : CacheStoreListQuery)
    (nowSec : Int) : CacheStoreListResult × MemoryCacheStore :=
  let pruned := store.pruneExpiredRecords nowSec
  let entries := (pruned.records.values.map CacheStoreObject.metadata).filter fun metadata =>
    metadataMatchesQuery metadata query
  (paginateMetadata C entries query, pruned)

end MemoryCacheStore

/-! ## Keys determine their parts -/

theorem normalizeKey_trimmed {key : String} (h : Trimmed key) (hne : key ≠ "") :
    normalizeKey key = .ok key := by
  have htrim : trim key = key := h
  unfold normalizeKey
  rw [htrim, if_neg hne]

theorem toStorageKey_inj {kind kind' : CacheStoreKind} {key key' : String}
    (h : toStorageKey kind key = toStorageKey kind' key') : kind = kind' ∧ key = key' := by
  have hlist := congrArg String.toList h
  simp only [toStorageKey, String.toList_append] at hlist
  -- Names of different kinds differ at their first letter.
  cases kind <;> cases kind' <;> simp [CacheStoreKind.name] at hlist ⊢
  all_goals exact String.toList_inj.mp hlist

/-! ## Without limits -/

namespace MemoryCacheStore

variable {store : MemoryCacheStore}

theorem pruneExpiredRecords_unlimited (h : store.policy = .unlimited) (nowSec : Int) :
    store.pruneExpiredRecords nowSec = store := by
  obtain ⟨policy, records⟩ := store
  cases h
  have hkeep : (records.filter fun _ _ => true) = records := by
    refine OrdMap.ext ?_
    exact List.filter_true _
  show MemoryCacheStore.mk _ (records.filter fun _ _ => true) = _
  rw [hkeep]

theorem put_unlimited (C : Collation) (h : store.policy = .unlimited)
    (request : CacheStorePutRequest) (nowSec : Int) :
    store.put C request nowSec = (normalizeKey request.key).map fun key =>
      store.setRecord (toStorageKey request.kind key) (recordOf request key nowSec) := by
  have henforce : ∀ s : MemoryCacheStore, s.policy = .unlimited → s.enforceMaxBytesLimit C = s := by
    intro s hs
    unfold enforceMaxBytesLimit
    rw [hs]
    rfl
  unfold put
  cases normalizeKey request.key with
  | error e => rfl
  | ok key =>
    rw [pruneExpiredRecords_unlimited h]
    exact congrArg Except.ok (henforce _ h)

theorem get_unlimited (h : store.policy = .unlimited) (kind : CacheStoreKind) (key : String)
    (nowSec : Int) :
    store.get kind key nowSec = (normalizeKey key).map fun key =>
      (store.records.get? (toStorageKey kind key), store) := by
  unfold get
  cases normalizeKey key with
  | error e => rfl
  | ok key =>
    show (match store.records.get? (toStorageKey kind key) with
      | none => _
      | some found => _) = Except.ok (store.records.get? (toStorageKey kind key), store)
    cases store.records.get? (toStorageKey kind key) with
    | none => rfl
    | some found =>
      have hlive : isExpiredByPolicy found.metadata store.policy nowSec = false := by
        rw [h]
        rfl
      simp only [hlive]
      rfl

theorem list_unlimited (C : Collation) (h : store.policy = .unlimited)
    (query : CacheStoreListQuery) (nowSec : Int) :
    store.list C query nowSec = (paginateMetadata C ((store.records.values.map
      CacheStoreObject.metadata).filter fun metadata => metadataMatchesQuery metadata query) query,
      store) := by
  unfold list
  rw [pruneExpiredRecords_unlimited h]

end MemoryCacheStore

end BitRelay
