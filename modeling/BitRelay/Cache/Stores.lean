import BitRelay.Cache.Store
import BitRelay.Js.Web
import Mathlib.Data.List.TakeDrop

/-!
# The two cache stores

`cache_store.ts` has two implementations of `CacheStore`: `createMemoryCacheStore`, a map of
records, and `createR2CacheStore`, which keeps each record as an object of a bucket and its
metadata as texts. `Store.lean` has the memory store as the relay uses it, with JSON bodies; here
both stores take whatever their interface allows: any bytes, any kind, any number.

The bucket is a parameter: a map whose listing comes in pages and in an order of its own. The
stores list it without `include`, and the listed objects may come without their metadata, which
`R2ListedObjectLike` has as optional (`BucketHost.listedAs`). A `NaN` in a request counts as an
infinity; both are no finite number.

Results:
1. `parseR2Key_toR2Key`: a key of the bucket is read back.
-/

namespace BitRelay

namespace Stores

/-! ## Data -/

structure CacheStorePutRequest where
  kind : String
  key : String
  body : Bytes
  room : Option String
  ref : Option String
  contentHash : Option String
  contentType : Option String
  updatedAt : Option JsNumber

@[ext]
structure CacheStoreMetadata where
  kind : CacheStoreKind
  key : String
  size : Nat
  updatedAt : Int
  room : Option String
  ref : Option String
  contentHash : Option String
  contentType : Option String
  deriving DecidableEq

/-- What `get` returns, and a record of the memory store. -/
structure CacheStoreObject where
  body : Bytes
  metadata : CacheStoreMetadata
  deriving DecidableEq

structure CacheStoreListQuery where
  kind : Option String
  pre : Option String
  room : Option String
  limit : Option JsNumber
  cursor : Option String

structure CacheStoreListResult where
  entries : List CacheStoreMetadata
  cursor : Option String
  deriving DecidableEq

structure CacheStorePolicyOptions where
  ttlSec : Option JsNumber
  maxBytes : Option JsNumber

/-- An object of the bucket; `uploaded` is in seconds. -/
structure R2Object where
  body : Bytes
  uploaded : Option Int
  contentType : Option String
  customMetadata : OrdMap String String

/-- An object as a listing shows it: its content type and its own metadata may be missing. -/
structure R2Object.ShownAs (object listed : R2Object) : Prop where
  body : listed.body = object.body
  uploaded : listed.uploaded = object.uploaded
  contentType : listed.contentType = object.contentType ∨ listed.contentType = none
  customMetadata : listed.customMetadata = object.customMetadata ∨ listed.customMetadata = ∅

/-- What the stores rely on: an order of texts in which a common path does not matter, the text of
a number from 10^21 on, and a bucket whose pages have each object under the prefix once. -/
structure BucketHost extends Collation where
  path : ∀ pre a b, le (pre ++ "/" ++ a) (pre ++ "/" ++ b) = le a b
  exponential : Nat → String
  uploaded : Int → Option Int
  listedAs : R2Object → R2Object
  shownAs : ∀ object : R2Object, object.ShownAs (listedAs object)
  pages : OrdMap String R2Object → String → List (List (String × R2Object))
  pages_perm : ∀ bucket pre, (pages bucket pre).flatten.Perm
    ((bucket.entries.filter fun e => startsWith e.1 pre).map fun e => (e.1, listedAs e.2))

/-- A bucket whose listing shows the metadata. -/
structure StoreHost extends BucketHost where
  keeps_metadata : ∀ object, listedAs object = object

instance : Coe StoreHost BucketHost := ⟨StoreHost.toBucketHost⟩

theorem append_lt_append_left_iff {l a b : List Nat} : l ++ a < l ++ b ↔ a < b := by
  induction l with
  | nil => exact Iff.rfl
  | cons x rest ih =>
    rw [List.cons_append, List.cons_append, List.cons_lt_cons_iff]
    simp [ih]

/-- Code units and a listing in one page, for runs on fixed inputs. -/
def BucketHost.codeUnits (listedAs : R2Object → R2Object)
    (shownAs : ∀ object : R2Object, object.ShownAs (listedAs object)) : BucketHost where
  toCollation := Collation.codeUnits
  path pre a b := by
    have hunits : ∀ p s : String, utf16 (p ++ s) = utf16 p ++ utf16 s := by
      intro p s
      unfold utf16
      rw [String.toList_append, List.flatMap_append]
    simp only [Collation.codeUnits, codeUnitLe, hunits, List.append_assoc,
      append_lt_append_left_iff]
  exponential _ := "1e+21"
  uploaded := some
  listedAs
  shownAs
  pages bucket pre :=
    [(bucket.entries.filter fun e => startsWith e.1 pre).map fun e => (e.1, listedAs e.2)]
  pages_perm bucket pre := by
    rw [List.flatten_singleton]

/-- The listing shows the objects as they are. -/
def StoreHost.codeUnits : StoreHost where
  toBucketHost := BucketHost.codeUnits (fun object => object)
    fun _ => ⟨rfl, rfl, .inl rfl, .inl rfl⟩
  keeps_metadata _ := rfl

/-- A call of a store. -/
inductive CacheStoreCall
  | put (request : CacheStorePutRequest)
  | get (kind key : String)
  | delete (kind key : String)
  | list (query : CacheStoreListQuery)

inductive CacheStoreAnswer
  | done
  | found (object : Option CacheStoreObject)
  | deleted (existed : Bool)
  | listed (result : CacheStoreListResult)
  | thrown (message : String)
  deriving DecidableEq

/-! ## Policies, keys and pages -/

def normalizeLimit (raw : Option JsNumber) : Nat :=
  match raw.bind JsNumber.truncInt? with
  | none => DEFAULT_LIST_LIMIT
  | some limit => (max 1 limit).toNat

/-- `VALID_KINDS` -/
def parseKind (value : String) : Option CacheStoreKind :=
  [CacheStoreKind.object, .pack, .ref, .issue].find? fun kind => kind.name == value

def normalizeKind (kind : String) : Except String CacheStoreKind :=
  match parseKind kind with
  | some kind => .ok kind
  | none => .error ("invalid cache store kind: " ++ kind)

def normalizeOptionalPositive : Option JsNumber → Option Nat
  | some (.finite q) => if q ≤ 0 then none else (JsNumber.finite q).truncInt?.map Int.toNat
  | _ => none

def normalizeCacheStorePolicy (options : CacheStorePolicyOptions) : CacheStorePolicy :=
  ⟨normalizeOptionalPositive options.ttlSec, normalizeOptionalPositive options.maxBytes⟩

def isExpiredByPolicy (metadata : CacheStoreMetadata) (policy : CacheStorePolicy) (nowSec : Int) :
    Bool :=
  policy.ttlSec.any fun ttlSec => decide ((ttlSec : Int) ≤ nowSec - metadata.updatedAt)

structure EvictionCandidate where
  storageKey : String
  updatedAt : Int
  size : Nat

/-- `a` is evicted before `b`, or they compare as equal. -/
def evictionLe (C : Collation) (a b : EvictionCandidate) : Bool :=
  if a.updatedAt = b.updatedAt then C.le a.storageKey b.storageKey
  else decide (a.updatedAt < b.updatedAt)

def sortEvictionCandidates (C : Collation) (candidates : List EvictionCandidate) :
    List EvictionCandidate :=
  candidates.insertionSort fun a b => evictionLe C a b

/-- The candidates that the loop over them evicts. -/
def evicted (maxBytes : Nat) : List EvictionCandidate → Nat → List EvictionCandidate
  | [], _ => []
  | candidate :: rest, totalBytes =>
    if totalBytes ≤ maxBytes then []
    else candidate :: evicted maxBytes rest (totalBytes - candidate.size)

/-- The key of a storage key, with its kind. -/
def fromStorageKey (storageKey : String) : Option (CacheStoreKind × String) :=
  match storageKey.toList.span fun c => decide (c ≠ '/') with
  | (kindRaw, _ :: key) =>
    if kindRaw = [] ∨ key = [] then none
    else (parseKind (String.ofList kindRaw)).map fun kind => (kind, String.ofList key)
  | _ => none

def metadataMatchesQuery (metadata : CacheStoreMetadata) (query : CacheStoreListQuery) : Bool :=
  (query.kind.all fun kind => kind == "" || metadata.kind.name == kind) &&
    (query.pre.all fun pre => startsWith metadata.key pre) &&
    (query.room.all fun room => room == "" || metadata.room == some room)

/-- The order of a listing: by kind, then by key. -/
def metadataLe (C : Collation) (a b : CacheStoreMetadata) : Bool :=
  if a.kind = b.kind then C.le a.key b.key else C.le a.kind.name b.kind.name

def paginateMetadata (C : Collation) (entries : List CacheStoreMetadata)
    (query : CacheStoreListQuery) : CacheStoreListResult :=
  let sorted := entries.insertionSort fun a b => metadataLe C a b
  let limit := normalizeLimit query.limit
  let start := normalizeOffset query.cursor
  let page := (sorted.drop start).take limit
  let next := start + page.length
  ⟨page, if next < sorted.length then some (toString next) else none⟩

/-- The time that a request gives, or the time of the call. -/
def putUpdatedAt (request : CacheStorePutRequest) (nowSec : Int) : Int :=
  match request.updatedAt.bind JsNumber.truncInt? with
  | some updatedAt => max 0 updatedAt
  | none => nowSec

/-! ## The memory store -/

/-- The record that a request asks to store under its normalized kind and key. -/
def recordOf (request : CacheStorePutRequest) (kind : CacheStoreKind) (key : String)
    (nowSec : Int) : CacheStoreObject where
  body := request.body
  metadata :=
    { kind
      key
      size := request.body.length
      updatedAt := putUpdatedAt request nowSec
      room := request.room.filter (· ≠ "")
      ref := request.ref.filter (· ≠ "")
      contentHash := request.contentHash.filter (· ≠ "")
      contentType := request.contentType.filter (· ≠ "") }

/-- The records of the memory store. -/
abbrev Records := OrdMap String CacheStoreObject

namespace Records

def pruneExpiredRecords (policy : CacheStorePolicy) (nowSec : Int) (records : Records) : Records :=
  records.filter fun _ record => !isExpiredByPolicy record.metadata policy nowSec

def candidates (records : Records) : List EvictionCandidate :=
  records.entries.map fun (storageKey, record) =>
    ⟨storageKey, record.metadata.updatedAt, record.metadata.size⟩

def enforceMaxBytesLimit (C : Collation) (policy : CacheStorePolicy) (records : Records) : Records :=
  match policy.maxBytes with
  | none => records
  | some maxBytes =>
    let totalBytes := (records.candidates.map EvictionCandidate.size).sum
    (evicted maxBytes (sortEvictionCandidates C records.candidates) totalBytes).foldl
      (fun records candidate => records.erase candidate.storageKey) records

def put (C : Collation) (policy : CacheStorePolicy) (nowSec : Int) (records : Records)
    (request : CacheStorePutRequest) : Except String Records := do
  let kind ← normalizeKind request.kind
  let key ← normalizeKey request.key
  let pruned := records.pruneExpiredRecords policy nowSec
  let stored : Records := pruned.set (toStorageKey kind key) (recordOf request kind key nowSec)
  return stored.enforceMaxBytesLimit C policy

def get (policy : CacheStorePolicy) (nowSec : Int) (records : Records) (kind key : String) :
    Except String (Option CacheStoreObject × Records) := do
  let normalizedKind ← normalizeKind kind
  let normalizedKey ← normalizeKey key
  let storageKey := toStorageKey normalizedKind normalizedKey
  match records.get? storageKey with
  | none => return (none, records)
  | some found =>
    if isExpiredByPolicy found.metadata policy nowSec then
      return (none, records.erase storageKey)
    else return (some found, records)

/-- `delete` of the memory store. -/
def remove (records : Records) (kind key : String) : Except String (Bool × Records) := do
  let normalizedKind ← normalizeKind kind
  let normalizedKey ← normalizeKey key
  let storageKey := toStorageKey normalizedKind normalizedKey
  return (records.has storageKey, records.erase storageKey)

def list (C : Collation) (policy : CacheStorePolicy) (nowSec : Int) (records : Records)
    (query : CacheStoreListQuery) : CacheStoreListResult × Records :=
  let pruned := records.pruneExpiredRecords policy nowSec
  let entries := (pruned.values.map CacheStoreObject.metadata).filter fun metadata =>
    metadataMatchesQuery metadata query
  (paginateMetadata C entries query, pruned)

/-- A call of the memory store. -/
def call (C : Collation) (policy : CacheStorePolicy) (nowSec : Int) (records : Records) :
    CacheStoreCall → Records × CacheStoreAnswer
  | .put request =>
    match records.put C policy nowSec request with
    | .ok next => (next, .done)
    | .error message => (records, .thrown message)
  | .get kind key =>
    match records.get policy nowSec kind key with
    | .ok (object, next) => (next, .found object)
    | .error message => (records, .thrown message)
  | .delete kind key =>
    match records.remove kind key with
    | .ok (existed, next) => (next, .deleted existed)
    | .error message => (records, .thrown message)
  | .list query =>
    let (result, next) := records.list C policy nowSec query
    (next, .listed result)

end Records

/-! ## The R2 store -/

def normalizeR2Prefix (pre : Option String) : String :=
  let raw := trim (pre.getD "")
  if raw = "" then "" else if endsWith raw "/" = true then raw else raw ++ "/"

def toR2Key (pre : String) (kind : CacheStoreKind) (key : String) : String :=
  pre ++ toStorageKey kind key

def parseR2Key (pre r2Key : String) : Option (CacheStoreKind × String) :=
  if startsWith r2Key pre = true then fromStorageKey (sliceFrom r2Key pre.toList.length) else none

/-- `String(n)` for an integer. -/
def numberText (H : BucketHost) (n : Int) : String :=
  if n.natAbs < 1000000000000000000000 then toString n
  else (if n < 0 then "-" else "") ++ H.exponential n.natAbs

def parseUpdatedAt (raw : Option String) (fallback : Int) : Int :=
  match parseInt10 (raw.getD "") with
  | some value => max 0 value
  | none => fallback

/-- The metadata that has a text: an empty one is left out. -/
def setText (metadata : OrdMap String String) (name : String) (text : Option String) :
    OrdMap String String :=
  match text with
  | some text => if text = "" then metadata else metadata.set name text
  | none => metadata

def toR2Metadata (H : BucketHost) (request : CacheStorePutRequest) (kind : CacheStoreKind)
    (key : String) (nowSec : Int) : OrdMap String String :=
  let metadata : OrdMap String String :=
    ((OrdMap.set ∅ "kind" kind.name).set "key" key).set "updated_at"
      (numberText H (putUpdatedAt request nowSec))
  setText (setText (setText metadata "room" request.room) "ref" request.ref) "content_hash"
    request.contentHash

/-- A text of the metadata; an empty one counts as none. -/
def textOf (metadata : OrdMap String String) (name : String) : Option String :=
  (metadata.get? name).filter (· ≠ "")

def toMetadataFromR2Object (fallbackKind : CacheStoreKind) (fallbackKey : String)
    (object : R2Object) (nowSec : Int) : CacheStoreMetadata where
  kind := ((object.customMetadata.get? "kind").bind parseKind).getD fallbackKind
  key := (textOf object.customMetadata "key").getD fallbackKey
  size := object.body.length
  updatedAt := parseUpdatedAt (object.customMetadata.get? "updated_at")
    ((object.uploaded.map (max 0)).getD nowSec)
  room := textOf object.customMetadata "room"
  ref := textOf object.customMetadata "ref"
  contentHash := textOf object.customMetadata "content_hash"
  contentType := object.contentType.filter (· ≠ "")

structure R2PolicyEntry where
  r2Key : String
  metadata : CacheStoreMetadata

abbrev Bucket := OrdMap String R2Object

namespace Bucket

/-- The objects under the prefix whose keys are storage keys, page after page. -/
def listPolicyEntries (H : BucketHost) (pre : String) (nowSec : Int) (bucket : Bucket) :
    List R2PolicyEntry :=
  (H.pages bucket pre).flatten.filterMap fun (r2Key, object) =>
    (parseR2Key pre r2Key).map fun (kind, key) =>
      ⟨r2Key, toMetadataFromR2Object kind key object nowSec⟩

def deleteAll (bucket : Bucket) (r2Keys : List String) : Bucket :=
  r2Keys.foldl (fun bucket r2Key => bucket.erase r2Key) bucket

/-- The expired entries are deleted; the others are returned. -/
def pruneExpiredPolicyEntries (policy : CacheStorePolicy) (nowSec : Int) (bucket : Bucket)
    (entries : List R2PolicyEntry) : List R2PolicyEntry × Bucket :=
  (entries.filter fun entry => !isExpiredByPolicy entry.metadata policy nowSec,
    bucket.deleteAll ((entries.filter fun entry =>
      isExpiredByPolicy entry.metadata policy nowSec).map R2PolicyEntry.r2Key))

def enforceMaxBytesPolicy (C : Collation) (policy : CacheStorePolicy) (bucket : Bucket)
    (entries : List R2PolicyEntry) : Bucket :=
  match policy.maxBytes with
  | none => bucket
  | some maxBytes =>
    let totalBytes := (entries.map fun entry => entry.metadata.size).sum
    let candidates := sortEvictionCandidates C (entries.map fun entry =>
      ⟨entry.r2Key, entry.metadata.updatedAt, entry.metadata.size⟩)
    bucket.deleteAll ((evicted maxBytes candidates totalBytes).map EvictionCandidate.storageKey)

def applyPolicyAfterWrite (H : BucketHost) (pre : String) (policy : CacheStorePolicy) (nowSec : Int)
    (bucket : Bucket) : Bucket :=
  if policy.ttlSec = none ∧ policy.maxBytes = none then bucket
  else
    let (entries, bucket) :=
      bucket.pruneExpiredPolicyEntries policy nowSec (bucket.listPolicyEntries H pre nowSec)
    bucket.enforceMaxBytesPolicy H.toCollation policy entries

def put (H : BucketHost) (pre : String) (policy : CacheStorePolicy) (nowSec : Int) (bucket : Bucket)
    (request : CacheStorePutRequest) : Except String Bucket := do
  let kind ← normalizeKind request.kind
  let key ← normalizeKey request.key
  let object : R2Object :=
    { body := request.body
      uploaded := H.uploaded nowSec
      contentType := request.contentType.filter (· ≠ "")
      customMetadata := toR2Metadata H request kind key nowSec }
  let stored : Bucket := bucket.set (toR2Key pre kind key) object
  return stored.applyPolicyAfterWrite H pre policy nowSec

def get (pre : String) (policy : CacheStorePolicy) (nowSec : Int) (bucket : Bucket)
    (kind key : String) : Except String (Option CacheStoreObject × Bucket) := do
  let normalizedKind ← normalizeKind kind
  let normalizedKey ← normalizeKey key
  let r2Key := toR2Key pre normalizedKind normalizedKey
  match bucket.get? r2Key with
  | none => return (none, bucket)
  | some found =>
    let metadata := toMetadataFromR2Object normalizedKind normalizedKey found nowSec
    if isExpiredByPolicy metadata policy nowSec then return (none, bucket.erase r2Key)
    else return (some ⟨found.body, metadata⟩, bucket)

/-- `delete` of the R2 store. -/
def remove (pre : String) (policy : CacheStorePolicy) (nowSec : Int) (bucket : Bucket)
    (kind key : String) : Except String (Bool × Bucket) := do
  let (existing, bucket) ← bucket.get pre policy nowSec kind key
  match existing with
  | none => return (false, bucket)
  | some _ =>
    let normalizedKind ← normalizeKind kind
    let normalizedKey ← normalizeKey key
    return (true, bucket.erase (toR2Key pre normalizedKind normalizedKey))

def list (H : BucketHost) (pre : String) (policy : CacheStorePolicy) (nowSec : Int) (bucket : Bucket)
    (query : CacheStoreListQuery) : CacheStoreListResult × Bucket :=
  let (kept, next) :=
    bucket.pruneExpiredPolicyEntries policy nowSec (bucket.listPolicyEntries H pre nowSec)
  let entries := (kept.map R2PolicyEntry.metadata).filter fun metadata =>
    metadataMatchesQuery metadata query
  (paginateMetadata H.toCollation entries query, next)

/-- A call of the R2 store. -/
def call (H : BucketHost) (pre : String) (policy : CacheStorePolicy) (nowSec : Int)
    (bucket : Bucket) : CacheStoreCall → Bucket × CacheStoreAnswer
  | .put request =>
    match bucket.put H pre policy nowSec request with
    | .ok next => (next, .done)
    | .error message => (bucket, .thrown message)
  | .get kind key =>
    match bucket.get pre policy nowSec kind key with
    | .ok (object, next) => (next, .found object)
    | .error message => (bucket, .thrown message)
  | .delete kind key =>
    match bucket.remove pre policy nowSec kind key with
    | .ok (existed, next) => (next, .deleted existed)
    | .error message => (bucket, .thrown message)
  | .list query =>
    let (result, next) := bucket.list H pre policy nowSec query
    (next, .listed result)

end Bucket

/-! ## Keys and metadata are read back -/

theorem parseKind_name (kind : CacheStoreKind) : parseKind kind.name = some kind := by
  cases kind <;> decide

theorem fromStorageKey_toStorageKey (kind : CacheStoreKind) {key : String} (hkey : key ≠ "") :
    fromStorageKey (toStorageKey kind key) = some (kind, key) := by
  have hlist : (toStorageKey kind key).toList = kind.name.toList ++ '/' :: key.toList := by
    unfold toStorageKey
    rw [String.toList_append, String.toList_append, List.append_assoc]
    rfl
  have hname : ∀ c ∈ kind.name.toList, decide (c ≠ '/') = true := by
    have hall : (kind.name.toList.all fun c => decide (c ≠ '/')) = true := by
      cases kind <;> decide
    exact List.all_eq_true.mp hall
  have hsome : ¬ (kind.name.toList = [] ∨ key.toList = []) := by
    rw [not_or]
    refine ⟨by cases kind <;> decide, fun hempty => hkey (String.toList_inj.mp hempty)⟩
  unfold fromStorageKey
  rw [hlist, List.span_eq_takeWhile_dropWhile, List.takeWhile_append_of_pos hname,
    List.dropWhile_append_of_pos hname]
  simp only [List.takeWhile_cons, List.dropWhile_cons, ne_eq, not_true_eq_false, decide_false,
    Bool.false_eq_true, if_false, List.append_nil, if_neg hsome, String.ofList_toList,
    parseKind_name, Option.map_some]

theorem parseR2Key_toR2Key (pre : String) (kind : CacheStoreKind) {key : String} (hkey : key ≠ "") :
    parseR2Key pre (toR2Key pre kind key) = some (kind, key) := by
  have hlist : (toR2Key pre kind key).toList = pre.toList ++ (toStorageKey kind key).toList :=
    String.toList_append
  have hslice : sliceFrom (toR2Key pre kind key) pre.toList.length = toStorageKey kind key := by
    unfold sliceFrom
    rw [hlist, List.drop_left, String.ofList_toList]
  have hstart : startsWith (toR2Key pre kind key) pre = true := startsWith_append pre _
  unfold parseR2Key
  rw [if_pos hstart, hslice, fromStorageKey_toStorageKey kind hkey]

theorem get?_setText (metadata : OrdMap String String) (name name' : String) (text : Option String) :
    (setText metadata name text).get? name' =
      if name' = name then (text.filter (· ≠ "")).or (metadata.get? name')
      else metadata.get? name' := by
  unfold setText
  cases text with
  | none => simp
  | some text =>
    by_cases hempty : text = ""
    · simp [hempty, Option.filter_some]
    · by_cases hname : name' = name
      · simp [hempty, hname, Option.filter_some]
      · simp [hempty, hname, OrdMap.get?_set]

/-- The text of a number below 10^21 is read back. -/
theorem parseUpdatedAt_numberText (H : BucketHost) {n : Int} (hn : 0 ≤ n)
    (hlt : n < 1000000000000000000000) (fallback : Int) :
    parseUpdatedAt (some (numberText H n)) fallback = n := by
  obtain ⟨m, rfl⟩ := Int.eq_ofNat_of_zero_le hn
  have hshort : ((m : Int)).natAbs < 1000000000000000000000 := by omega
  have htext : numberText H (m : Int) = toString m := by
    unfold numberText
    rw [if_pos hshort]
    rfl
  unfold parseUpdatedAt
  rw [htext, Option.getD_some, parseInt10_toString]
  simp

/-- What the R2 store reads of an object is the metadata of the record that the memory store keeps
for the same request, if its time has a plain text. -/
theorem metadata_put (H : BucketHost) (request : CacheStorePutRequest) (kind : CacheStoreKind)
    {key : String} (hkey : key ≠ "") (nowSec : Int) (htime : 0 ≤ putUpdatedAt request nowSec ∧
      putUpdatedAt request nowSec < 1000000000000000000000) (fallbackKind : CacheStoreKind)
    (fallbackKey : String) (uploaded : Option Int) (readSec : Int) :
    toMetadataFromR2Object fallbackKind fallbackKey
      { body := request.body
        uploaded
        contentType := request.contentType.filter (· ≠ "")
        customMetadata := toR2Metadata H request kind key nowSec } readSec =
      (recordOf request kind key nowSec).metadata := by
  unfold toMetadataFromR2Object recordOf toR2Metadata textOf
  simp only [get?_setText, OrdMap.get?_set]
  simp [parseKind_name, hkey, Option.filter_some, parseUpdatedAt_numberText H htime.1 htime.2]

end Stores

end BitRelay
