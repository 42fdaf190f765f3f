import BitRelay.Cache.Stores
import BitRelay.Lib.Run
import Mathlib.Algebra.BigOperators.Group.List.Basic

/-!
# The two cache stores against each other

A bucket is alike to the records of the memory store if each of its objects reads as the record
under the same key, and the records that it lacks have expired: the memory store stores before it
prunes and the R2 store prunes after it has stored, so an expired record may stay longer in memory.

A call of the memory store and the same call of the R2 store keep the stores alike and answer
alike, except that

* `delete` of the memory store reports an expired record as deleted, while its `get` and both
  methods of the R2 store count it as absent;
* a time from 10^21 on is stored as `1e+21` and read back as 1;
* keys that `localeCompare` does not tell apart are listed in the order of the map or of the bucket.

Results:
1. `call_alike`: one call that meets `Unambiguous` keeps the stores alike and answers alike.
2. `stores_agree`: so does every run whose calls meet it.
3. `delete_of_expired`: a run in which the stores answer differently.
-/

namespace BitRelay

namespace Stores

/-! ## Runs -/

/-- A call and the time at which it is made. -/
abbrev TimedCall := Int × CacheStoreCall

def Records.step (C : Collation) (policy : CacheStorePolicy) (records : Records)
    (timed : TimedCall) : Records :=
  (records.call C policy timed.1 timed.2).1

/-- The answers of the memory store in a run. -/
def Records.answers (C : Collation) (policy : CacheStorePolicy) (records : Records) :
    List TimedCall → List CacheStoreAnswer
  | [] => []
  | timed :: rest =>
    (records.call C policy timed.1 timed.2).2 ::
      (records.step C policy timed).answers C policy rest

/-- The answers of the R2 store in a run. -/
def Bucket.answers (H : StoreHost) (pre : String) (policy : CacheStorePolicy) (bucket : Bucket) :
    List TimedCall → List CacheStoreAnswer
  | [] => []
  | timed :: rest =>
    (bucket.call H pre policy timed.1 timed.2).2 ::
      (bucket.call H pre policy timed.1 timed.2).1.answers H pre policy rest

/-- The storage key of a kind and a key that the stores accept. -/
def storageKeyOf (kind key : String) : Except String String := do
  let normalizedKind ← normalizeKind kind
  let normalizedKey ← normalizeKey key
  return toStorageKey normalizedKind normalizedKey

/-- What a call needs for the stores to answer alike: a stored time has a plain text and a stored
key is told apart from the others; a deleted record has not expired. -/
def Unambiguous (C : Collation) (policy : CacheStorePolicy) (records : Records)
    (timed : TimedCall) : Prop :=
  match timed.2 with
  | .put request =>
    (0 ≤ putUpdatedAt request timed.1 ∧
      putUpdatedAt request timed.1 < 1000000000000000000000) ∧
    ∀ storageKey, storageKeyOf request.kind request.key = .ok storageKey →
      ∀ k ∈ records.keys, C.le k storageKey = true → C.le storageKey k = true → k = storageKey
  | .delete kind key =>
    ∀ storageKey, storageKeyOf kind key = .ok storageKey →
      ∀ record, records.get? storageKey = some record →
        isExpiredByPolicy record.metadata policy timed.1 = false
  | _ => True

/-! ## Alike stores -/

/-- The object reads as the record, whatever its key and the time are. -/
structure Keeps (object : R2Object) (record : CacheStoreObject) : Prop where
  body : object.body = record.body
  metadata : ∀ kind key nowSec, toMetadataFromR2Object kind key object nowSec = record.metadata

/-- The bucket holds the records, except expired ones. -/
structure Alike (C : Collation) (pre : String) (policy : CacheStorePolicy) (nowSec : Int)
    (records : Records) (bucket : Bucket) : Prop where
  keyed : ∀ s record, records.get? s = some record →
    s = toStorageKey record.metadata.kind record.metadata.key ∧ record.metadata.key ≠ ""
  apart : ∀ s s' record record', records.get? s = some record → records.get? s' = some record' →
    C.le s s' = true → C.le s' s = true → s = s'
  stored : ∀ k object, bucket.get? k = some object →
    ∃ s record, k = pre ++ s ∧ records.get? s = some record ∧ Keeps object record
  kept : ∀ s record, records.get? s = some record → bucket.get? (pre ++ s) = none →
    isExpiredByPolicy record.metadata policy nowSec = true

namespace EquivalenceLemmas

variable {H : StoreHost} {C : Collation} {pre : String} {policy : CacheStorePolicy}
  {nowSec nowSec' : Int} {records records' : Records} {bucket bucket' : Bucket}

instance evictionLe_total : Std.Total fun a b => evictionLe C a b = true where
  total a b := by
    unfold evictionLe
    by_cases htime : a.updatedAt = b.updatedAt
    · rw [if_pos htime, if_pos htime.symm]
      exact C.total a.storageKey b.storageKey
    · rw [if_neg htime, if_neg fun h => htime h.symm]
      simp only [decide_eq_true_eq]
      omega

instance evictionLe_trans : IsTrans EvictionCandidate fun a b => evictionLe C a b = true where
  trans a b c hab hbc := by
    unfold evictionLe at hab hbc ⊢
    by_cases htime : a.updatedAt = b.updatedAt
    · by_cases htime' : b.updatedAt = c.updatedAt
      · rw [if_pos htime] at hab
        rw [if_pos htime'] at hbc
        rw [if_pos (htime.trans htime')]
        exact C.trans _ _ _ hab hbc
      · rw [if_neg htime'] at hbc
        rw [if_neg (htime ▸ htime'), htime]
        exact hbc
    · rw [if_neg htime, decide_eq_true_eq] at hab
      have hlt : a.updatedAt < c.updatedAt := by
        split at hbc
        · omega
        · have hbc' := of_decide_eq_true hbc
          omega
      rw [if_neg (by omega), decide_eq_true_eq]
      exact hlt

instance metadataLe_total : Std.Total fun a b => metadataLe C a b = true where
  total a b := by
    unfold metadataLe
    by_cases hkind : a.kind = b.kind
    · rw [if_pos hkind, if_pos hkind.symm]
      exact C.total a.key b.key
    · rw [if_neg hkind, if_neg fun h => hkind h.symm]
      exact C.total a.kind.name b.kind.name

instance metadataLe_trans : IsTrans CacheStoreMetadata fun a b => metadataLe C a b = true where
  trans a b c hab hbc := by
    unfold metadataLe at hab hbc ⊢
    by_cases hkind : a.kind = b.kind
    · by_cases hkind' : b.kind = c.kind
      · rw [if_pos hkind] at hab
        rw [if_pos hkind'] at hbc
        rw [if_pos (hkind.trans hkind')]
        exact C.trans _ _ _ hab hbc
      · rw [if_neg hkind'] at hbc
        rw [if_neg (hkind ▸ hkind'), hkind]
        exact hbc
    · rw [if_neg hkind] at hab
      by_cases hkind' : b.kind = c.kind
      · rw [if_neg (hkind' ▸ hkind), ← hkind']
        exact hab
      · rw [if_neg hkind'] at hbc
        have hac := C.trans _ _ _ hab hbc
        split
        · next heq =>
          -- The kinds would compare as equal, so `b` has the kind of both.
          exact absurd (C.kinds a.kind b.kind hab (heq ▸ hbc)) hkind
        · exact hac

/-! ### Time and keys -/

theorem expired_later {metadata : CacheStoreMetadata}
    (h : isExpiredByPolicy metadata policy nowSec = true) (hle : nowSec ≤ nowSec') :
    isExpiredByPolicy metadata policy nowSec' = true := by
  unfold isExpiredByPolicy at h ⊢
  cases httl : policy.ttlSec with
  | none =>
    rw [httl] at h
    exact h
  | some ttlSec =>
    rw [httl] at h
    have hage := of_decide_eq_true h
    exact decide_eq_true (by omega)

theorem alike_later (h : Alike C pre policy nowSec records bucket) (hle : nowSec ≤ nowSec') :
    Alike C pre policy nowSec' records bucket :=
  ⟨h.keyed, h.apart, h.stored, fun s record hrecord hnone =>
    expired_later (h.kept s record hrecord hnone) hle⟩

theorem append_left_inj {a b : String} (h : pre ++ a = pre ++ b) : a = b := by
  have hlist := congrArg String.toList h
  rw [String.toList_append, String.toList_append] at hlist
  exact String.toList_inj.mp (List.append_cancel_left hlist)

theorem le_normalizeR2Prefix (pre : Option String) (a b : String) :
    H.le (normalizeR2Prefix pre ++ a) (normalizeR2Prefix pre ++ b) = H.le a b := by
  have hempty : ∀ s : String, "" ++ s = s := by
    intro s
    apply String.toList_inj.mp
    rw [String.toList_append]
    rfl
  unfold normalizeR2Prefix
  dsimp only
  split
  · rw [hempty, hempty]
  · split
    · next hends =>
      obtain ⟨front, hfront⟩ := List.isSuffixOf_iff_suffix.mp hends
      have hraw : trim (pre.getD "") = String.ofList front ++ "/" := by
        apply String.toList_inj.mp
        rw [String.toList_append, String.toList_ofList]
        exact hfront.symm
      rw [hraw]
      exact H.path _ a b
    · exact H.path _ a b

theorem normalizeKey_ne {key key' : String} (h : normalizeKey key = .ok key') : key' ≠ "" := by
  unfold normalizeKey at h
  split at h
  · cases h
  · next hne =>
    cases h
    exact hne

/-! ### Evictions -/

def prefixed (pre : String) (candidate : EvictionCandidate) : EvictionCandidate :=
  { candidate with storageKey := pre ++ candidate.storageKey }

/-- The keys that the bound on the bytes evicts. -/
def evictedKeys (C : Collation) (policy : CacheStorePolicy) (candidates : List EvictionCandidate) :
    List String :=
  match policy.maxBytes with
  | none => []
  | some maxBytes =>
    (evicted maxBytes (sortEvictionCandidates C candidates)
      (candidates.map EvictionCandidate.size).sum).map EvictionCandidate.storageKey

theorem get?_enforceMaxBytesLimit (C : Collation) (policy : CacheStorePolicy) (records : Records)
    (s : String) : (records.enforceMaxBytesLimit C policy).get? s =
      if s ∈ evictedKeys C policy records.candidates then none else records.get? s := by
  unfold Records.enforceMaxBytesLimit evictedKeys
  cases policy.maxBytes with
  | none => simp
  | some maxBytes =>
    simp only
    rw [← OrdMap.get?_foldl_erase, List.foldl_map]

theorem get?_enforceMaxBytesPolicy (C : Collation) (policy : CacheStorePolicy) (bucket : Bucket)
    (entries : List R2PolicyEntry) (k : String) :
    (bucket.enforceMaxBytesPolicy C policy entries).get? k =
      if k ∈ evictedKeys C policy
        (entries.map fun entry => ⟨entry.r2Key, entry.metadata.updatedAt, entry.metadata.size⟩)
      then none else bucket.get? k := by
  unfold Bucket.enforceMaxBytesPolicy evictedKeys
  cases policy.maxBytes with
  | none => simp
  | some maxBytes =>
    simp only [List.map_map, Function.comp_def]
    exact OrdMap.get?_foldl_erase bucket _ k

theorem evictedKeys_eq_of_perm {candidates candidates' : List EvictionCandidate}
    (hperm : candidates.Perm candidates') (hapart : ∀ a ∈ candidates, ∀ b ∈ candidates,
      evictionLe C a b = true → evictionLe C b a = true → a = b) :
    evictedKeys C policy candidates = evictedKeys C policy candidates' := by
  unfold evictedKeys sortEvictionCandidates
  rw [insertionSort_eq_of_perm _ hperm hapart,
    (hperm.map EvictionCandidate.size).sum_eq]

theorem evicted_map {f : EvictionCandidate → EvictionCandidate} (hsize : ∀ c, (f c).size = c.size)
    (maxBytes : Nat) (candidates : List EvictionCandidate) (totalBytes : Nat) :
    evicted maxBytes (candidates.map f) totalBytes =
      (evicted maxBytes candidates totalBytes).map f := by
  induction candidates generalizing totalBytes with
  | nil => rfl
  | cons candidate rest ih =>
    rw [List.map_cons]
    unfold evicted
    rw [hsize, ih]
    split <;> rfl

/-- A common prefix of the keys does not matter. -/
theorem evictedKeys_prefixed (hpre : ∀ a b, C.le (pre ++ a) (pre ++ b) = C.le a b)
    (policy : CacheStorePolicy) (candidates : List EvictionCandidate) :
    evictedKeys C policy (candidates.map (prefixed pre)) =
      (evictedKeys C policy candidates).map (pre ++ ·) := by
  have hle : ∀ a b, evictionLe C (prefixed pre a) (prefixed pre b) = evictionLe C a b := by
    intro a b
    unfold evictionLe prefixed
    simp only [hpre]
  have hsort : sortEvictionCandidates C (candidates.map (prefixed pre)) =
      (sortEvictionCandidates C candidates).map (prefixed pre) := by
    unfold sortEvictionCandidates
    refine (List.map_insertionSort _ _ (prefixed pre) candidates fun a _ b _ => ?_).symm
    rw [hle]
  unfold evictedKeys
  cases policy.maxBytes with
  | none => rfl
  | some maxBytes =>
    simp only
    rw [hsort, evicted_map (f := prefixed pre) (fun _ => rfl), List.map_map, List.map_map, List.map_map]
    rfl

/-- A candidate that comes before the others does not change which of them are evicted. -/
theorem mem_evictedKeys_cons {candidate : EvictionCandidate} {candidates : List EvictionCandidate}
    (hfirst : ∀ c ∈ candidates, evictionLe C candidate c = true) {s : String}
    (hs : s ≠ candidate.storageKey) :
    s ∈ evictedKeys C policy (candidate :: candidates) ↔ s ∈ evictedKeys C policy candidates := by
  unfold evictedKeys
  cases policy.maxBytes with
  | none => exact Iff.rfl
  | some maxBytes =>
    have hsort : sortEvictionCandidates C (candidate :: candidates) =
        candidate :: sortEvictionCandidates C candidates := by
      exact insertionSort_cons_of_le _ hfirst
    have hnone : ∀ (l : List EvictionCandidate) {total : Nat}, total ≤ maxBytes →
        evicted maxBytes l total = [] := by
      intro l total htotal
      cases l with
      | nil => rfl
      | cons c rest => exact if_pos htotal
    simp only [hsort, List.map_cons, List.sum_cons]
    rw [evicted]
    split
    · next hle =>
      rw [hnone _ (by omega)]
    · rw [Nat.add_sub_cancel_left, List.map_cons, List.mem_cons]
      simp [hs]

theorem mem_candidates {candidate : EvictionCandidate} :
    candidate ∈ records.candidates ↔ ∃ s record, records.get? s = some record ∧
      candidate = ⟨s, record.metadata.updatedAt, record.metadata.size⟩ := by
  unfold Records.candidates
  rw [List.mem_map]
  constructor
  · rintro ⟨⟨s, record⟩, hmem, rfl⟩
    exact ⟨s, record, OrdMap.get?_eq_some_iff.mpr hmem, rfl⟩
  · rintro ⟨s, record, hrecord, rfl⟩
    exact ⟨(s, record), OrdMap.get?_eq_some_iff.mp hrecord, rfl⟩

theorem nodup_candidates (records : Records) : records.candidates.Nodup := by
  have hkeys : (records.candidates.map EvictionCandidate.storageKey) = records.keys := by
    unfold Records.candidates OrdMap.keys
    rw [List.map_map]
    rfl
  refine List.Nodup.of_map EvictionCandidate.storageKey ?_
  rw [hkeys]
  exact records.nodup

/-! ### The entries of the bucket -/

/-- The policy entry that the bucket has for a record. -/
def entryOf (pre : String) (e : String × CacheStoreObject) : R2PolicyEntry :=
  ⟨pre ++ e.1, e.2.metadata⟩

theorem mem_listPolicyEntries (h : Alike C pre policy nowSec records bucket)
    {entry : R2PolicyEntry} : entry ∈ bucket.listPolicyEntries H pre nowSec' ↔
      ∃ s record, entry = entryOf pre (s, record) ∧ records.get? s = some record ∧
        (bucket.get? (pre ++ s)).isSome := by
  have hread : ∀ s record object, records.get? s = some record → Keeps object record →
      (parseR2Key pre (pre ++ s)).map (fun kk => (⟨pre ++ s,
        toMetadataFromR2Object kk.1 kk.2 object nowSec'⟩ : R2PolicyEntry)) =
        some (entryOf pre (s, record)) := by
    intro s record object hrecord hkeeps
    obtain ⟨hs, hne⟩ := h.keyed s record hrecord
    have hparse : parseR2Key pre (pre ++ s) = some (record.metadata.kind, record.metadata.key) := by
      rw [hs]
      exact parseR2Key_toR2Key pre record.metadata.kind hne
    rw [hparse, Option.map_some, hkeeps.metadata]
    rfl
  unfold Bucket.listPolicyEntries
  rw [List.mem_filterMap]
  constructor
  · rintro ⟨e, hmem, hentry⟩
    obtain ⟨⟨k, object⟩, hstored, rfl⟩ := List.mem_map.mp ((H.pages_perm bucket pre).mem_iff.mp hmem)
    have hobject : bucket.get? k = some object :=
      OrdMap.get?_eq_some_iff.mpr (List.mem_of_mem_filter hstored)
    obtain ⟨s, record, rfl, hrecord, hkeeps⟩ := h.stored k object hobject
    refine ⟨s, record, ?_, hrecord, by rw [hobject]; rfl⟩
    rw [← Option.some_inj, ← hread s record object hrecord hkeeps]
    dsimp only at hentry
    rw [H.keeps_metadata] at hentry
    exact hentry.symm
  · rintro ⟨s, record, rfl, hrecord, hsome⟩
    obtain ⟨object, hobject⟩ := Option.isSome_iff_exists.mp hsome
    obtain ⟨s', record', hs', hrecord', hkeeps⟩ := h.stored _ object hobject
    cases append_left_inj hs'
    rw [hrecord] at hrecord'
    cases hrecord'
    refine ⟨(pre ++ s, object), (H.pages_perm bucket pre).mem_iff.mpr ?_,
      hread s record object hrecord hkeeps⟩
    refine List.mem_map.mpr ⟨(pre ++ s, object), ?_, by rw [H.keeps_metadata]⟩
    exact List.mem_filter.mpr ⟨OrdMap.get?_eq_some_iff.mp hobject, startsWith_append pre s⟩

theorem nodup_listPolicyEntries (H : BucketHost) (pre : String) (nowSec : Int) (bucket : Bucket) :
    ((bucket.listPolicyEntries H pre nowSec).map R2PolicyEntry.r2Key).Nodup := by
  have hsub : ∀ l : List (String × R2Object), ((l.filterMap fun e =>
      (parseR2Key pre e.1).map fun kk => (⟨e.1, toMetadataFromR2Object kk.1 kk.2 e.2 nowSec⟩ :
        R2PolicyEntry)).map R2PolicyEntry.r2Key).Sublist (l.map Prod.fst) := by
    intro l
    induction l with
    | nil => exact List.Sublist.refl _
    | cons e rest ih =>
      rw [List.filterMap_cons]
      cases parseR2Key pre e.1 with
      | none => exact ih.cons e.1
      | some kk => exact ih.cons_cons e.1
  have hpages : ((H.pages bucket pre).flatten.map Prod.fst).Nodup := by
    refine ((H.pages_perm bucket pre).map Prod.fst).nodup_iff.mpr ?_
    rw [List.map_map]
    exact bucket.nodup.sublist (List.filter_sublist.map _)
  exact hpages.sublist (hsub _)

theorem get?_pruneExpiredRecords {s : String} {record : CacheStoreObject} :
    (records.pruneExpiredRecords policy nowSec).get? s = some record ↔
      records.get? s = some record ∧ isExpiredByPolicy record.metadata policy nowSec = false := by
  unfold Records.pruneExpiredRecords
  rw [OrdMap.get?_filter_eq_some_iff, Bool.not_eq_true']

/-- The live entries of the bucket are the live records. -/
theorem kept_perm (h : Alike C pre policy nowSec records bucket) :
    ((bucket.listPolicyEntries H pre nowSec).filter fun entry =>
      !isExpiredByPolicy entry.metadata policy nowSec).Perm
      ((records.pruneExpiredRecords policy nowSec).entries.map (entryOf pre)) := by
  have hkept : ((bucket.listPolicyEntries H pre nowSec).filter fun entry =>
      !isExpiredByPolicy entry.metadata policy nowSec).Nodup :=
    (List.Nodup.of_map _ (nodup_listPolicyEntries H pre nowSec bucket)).filter _
  have hlive : ((records.pruneExpiredRecords policy nowSec).entries.map (entryOf pre)).Nodup := by
    refine List.Nodup.of_map R2PolicyEntry.r2Key ?_
    rw [List.map_map]
    have hkeys := (records.pruneExpiredRecords policy nowSec).nodup
    have hpre := hkeys.map fun a b hab => @append_left_inj pre a b hab
    rw [List.map_map] at hpre
    exact hpre
  refine (List.perm_ext_iff_of_nodup hkept hlive).mpr fun entry => ?_
  rw [List.mem_filter, mem_listPolicyEntries h, List.mem_map]
  constructor
  · rintro ⟨⟨s, record, rfl, hrecord, _⟩, hlive⟩
    refine ⟨(s, record), OrdMap.get?_eq_some_iff.mp ?_, rfl⟩
    exact get?_pruneExpiredRecords.mpr ⟨hrecord, by rwa [Bool.not_eq_true'] at hlive⟩
  · rintro ⟨⟨s, record⟩, hmem, rfl⟩
    obtain ⟨hrecord, hlive⟩ := get?_pruneExpiredRecords.mp (OrdMap.get?_eq_some_iff.mpr hmem)
    refine ⟨⟨s, record, rfl, hrecord, ?_⟩, by rw [Bool.not_eq_true']; exact hlive⟩
    cases hobject : bucket.get? (pre ++ s) with
    | none =>
      -- The bucket lacks only expired records.
      rw [h.kept s record hrecord hobject] at hlive
      cases hlive
    | some object => rfl

/-- Pruning the bucket deletes what has expired. -/
theorem get?_pruneExpiredPolicyEntries (h : Alike C pre policy nowSec records bucket) {s : String}
    {record : CacheStoreObject} (hrecord : records.get? s = some record) :
    (bucket.pruneExpiredPolicyEntries policy nowSec
      (bucket.listPolicyEntries H pre nowSec)).2.get? (pre ++ s) =
      if isExpiredByPolicy record.metadata policy nowSec then none else bucket.get? (pre ++ s) := by
  unfold Bucket.pruneExpiredPolicyEntries Bucket.deleteAll
  rw [OrdMap.get?_foldl_erase]
  have hmem : pre ++ s ∈ ((bucket.listPolicyEntries H pre nowSec).filter fun entry =>
      isExpiredByPolicy entry.metadata policy nowSec).map R2PolicyEntry.r2Key ↔
      isExpiredByPolicy record.metadata policy nowSec = true ∧ (bucket.get? (pre ++ s)).isSome := by
    rw [List.mem_map]
    constructor
    · rintro ⟨entry, hentry, hkey⟩
      obtain ⟨hlisted, hexpired⟩ := List.mem_filter.mp hentry
      obtain ⟨s', record', rfl, hrecord', hsome⟩ := (mem_listPolicyEntries h).mp hlisted
      cases append_left_inj hkey
      rw [hrecord] at hrecord'
      cases hrecord'
      exact ⟨hexpired, hsome⟩
    · rintro ⟨hexpired, hsome⟩
      exact ⟨entryOf pre (s, record), List.mem_filter.mpr
        ⟨(mem_listPolicyEntries h).mpr ⟨s, record, rfl, hrecord, hsome⟩, hexpired⟩, rfl⟩
  by_cases hexpired : isExpiredByPolicy record.metadata policy nowSec = true
  · rw [if_pos hexpired]
    split
    · rfl
    · next hnot =>
      cases hobject : bucket.get? (pre ++ s) with
      | none => rfl
      | some object => exact absurd (hmem.mpr ⟨hexpired, by rw [hobject]; rfl⟩) hnot
  · rw [if_neg hexpired, if_neg fun hin => hexpired (hmem.mp hin).1]

theorem get?_of_pruneExpiredPolicyEntries {entries : List R2PolicyEntry} {k : String}
    {object : R2Object}
    (h : (bucket.pruneExpiredPolicyEntries policy nowSec entries).2.get? k = some object) :
    bucket.get? k = some object := by
  unfold Bucket.pruneExpiredPolicyEntries Bucket.deleteAll at h
  rw [OrdMap.get?_foldl_erase] at h
  split at h
  · cases h
  · exact h

/-! ### What keeps the stores alike -/

/-- Records and objects go together, unless they have expired. -/
theorem alike_restrict (h : Alike C pre policy nowSec records bucket)
    (hrecords : ∀ s record, records'.get? s = some record → records.get? s = some record)
    (hbucket : ∀ k object, bucket'.get? k = some object → bucket.get? k = some object)
    (hstored : ∀ s record object, records.get? s = some record →
      bucket'.get? (pre ++ s) = some object → records'.get? s = some record)
    (hkept : ∀ s record object, records'.get? s = some record →
      bucket.get? (pre ++ s) = some object → bucket'.get? (pre ++ s) = none →
      isExpiredByPolicy record.metadata policy nowSec = true) :
    Alike C pre policy nowSec records' bucket' where
  keyed s record hrecord := h.keyed s record (hrecords s record hrecord)
  apart s s' record record' hrecord hrecord' :=
    h.apart s s' record record' (hrecords s record hrecord) (hrecords s' record' hrecord')
  stored k object hobject := by
    obtain ⟨s, record, rfl, hrecord, hkeeps⟩ := h.stored k object (hbucket k object hobject)
    exact ⟨s, record, rfl, hstored s record object hrecord hobject, hkeeps⟩
  kept s record hrecord hnone := by
    cases hobject : bucket.get? (pre ++ s) with
    | none => exact h.kept s record (hrecords s record hrecord) hobject
    | some object => exact hkept s record object hrecord hobject hnone

theorem alike_set (h : Alike C pre policy nowSec records bucket) {s : String}
    {record : CacheStoreObject} {object : R2Object}
    (hkeyed : s = toStorageKey record.metadata.kind record.metadata.key ∧ record.metadata.key ≠ "")
    (hapart : ∀ k ∈ records.keys, C.le k s = true → C.le s k = true → k = s)
    (hkeeps : Keeps object record) :
    Alike C pre policy nowSec (OrdMap.set records s record) (OrdMap.set bucket (pre ++ s) object) where
  keyed s' record' hrecord' := by
    rw [OrdMap.get?_set] at hrecord'
    split at hrecord'
    · next heq =>
      cases hrecord'
      rw [heq]
      exact hkeyed
    · exact h.keyed s' record' hrecord'
  apart a b ra rb ha hb hab hba := by
    have hmem : ∀ {k r}, records.get? k = some r → k ∈ records.keys := fun hk =>
      OrdMap.has_iff_mem_keys.mp (by unfold OrdMap.has; rw [hk]; rfl)
    rw [OrdMap.get?_set] at ha hb
    split at ha
    · next heqa =>
      split at hb
      · next heqb => rw [heqa, heqb]
      · rw [heqa] at hab hba ⊢
        exact (hapart b (hmem hb) hba hab).symm
    · split at hb
      · next heqb =>
        rw [heqb] at hab hba ⊢
        exact hapart a (hmem ha) hab hba
      · exact h.apart a b ra rb ha hb hab hba
  stored k object' hobject' := by
    rw [OrdMap.get?_set] at hobject'
    split at hobject'
    · next heq =>
      cases hobject'
      exact ⟨s, record, heq, OrdMap.get?_set_self _ _ _, hkeeps⟩
    · next hne =>
      obtain ⟨s', record', rfl, hrecord', hkeeps'⟩ := h.stored k object' hobject'
      refine ⟨s', record', rfl, ?_, hkeeps'⟩
      rw [OrdMap.get?_set_of_ne _ fun heq => hne (congrArg (pre ++ ·) heq)]
      exact hrecord'
  kept s' record' hrecord' hnone := by
    rw [OrdMap.get?_set] at hrecord' hnone
    by_cases heq : s' = s
    · rw [if_pos (congrArg (pre ++ ·) heq)] at hnone
      cases hnone
    · rw [if_neg heq] at hrecord'
      rw [if_neg fun hkey => heq (append_left_inj hkey)] at hnone
      exact h.kept s' record' hrecord' hnone

theorem alike_erase (h : Alike C pre policy nowSec records bucket) (s : String) :
    Alike C pre policy nowSec (OrdMap.erase records s) (OrdMap.erase bucket (pre ++ s)) := by
  have hsub : ∀ {ν : Type} (m : OrdMap String ν) k k' v, (m.erase k).get? k' = some v →
      k' ≠ k ∧ m.get? k' = some v := by
    intro ν m k k' v hv
    rw [OrdMap.get?_erase] at hv
    split at hv
    · cases hv
    · next hne => exact ⟨hne, hv⟩
  refine alike_restrict h (fun s' record hrecord => (hsub _ _ _ _ hrecord).2)
    (fun k object hobject => (hsub _ _ _ _ hobject).2) ?_ ?_
  · intro s' record object hrecord hobject
    have hne := (hsub _ _ _ _ hobject).1
    rw [OrdMap.get?_erase, if_neg fun heq => hne (congrArg (pre ++ ·) heq)]
    exact hrecord
  · intro s' record object hrecord hobject hnone
    have hne := (hsub _ _ _ _ hrecord).1
    rw [OrdMap.get?_erase, if_neg fun heq => hne (append_left_inj heq), hobject] at hnone
    cases hnone

theorem alike_prune (h : Alike C pre policy nowSec records bucket) :
    Alike C pre policy nowSec (records.pruneExpiredRecords policy nowSec)
      (bucket.pruneExpiredPolicyEntries policy nowSec
        (bucket.listPolicyEntries H pre nowSec)).2 := by
  refine alike_restrict h (fun s record hrecord => (get?_pruneExpiredRecords.mp hrecord).1)
    (fun k object hobject => get?_of_pruneExpiredPolicyEntries hobject) ?_ ?_
  · intro s record object hrecord hobject
    rw [get?_pruneExpiredPolicyEntries h hrecord] at hobject
    split at hobject
    · cases hobject
    · next hlive => exact get?_pruneExpiredRecords.mpr ⟨hrecord, by simpa using hlive⟩
  · intro s record object hrecord hobject hnone
    obtain ⟨hrecord, hlive⟩ := get?_pruneExpiredRecords.mp hrecord
    rw [get?_pruneExpiredPolicyEntries h hrecord, hlive, hobject] at hnone
    cases hnone

/-! ### Writing -/

/-- Records whose keys are told apart are told apart as candidates. -/
theorem candidates_apart (hapart : ∀ s s' record record', records.get? s = some record →
      records.get? s' = some record' → C.le s s' = true → C.le s' s = true → s = s')
    {a b : EvictionCandidate} (ha : a ∈ records.candidates) (hb : b ∈ records.candidates)
    (hab : evictionLe C a b = true) (hba : evictionLe C b a = true) : a = b := by
  obtain ⟨s, record, hrecord, rfl⟩ := mem_candidates.mp ha
  obtain ⟨s', record', hrecord', rfl⟩ := mem_candidates.mp hb
  unfold evictionLe at hab hba
  by_cases htime : record.metadata.updatedAt = record'.metadata.updatedAt
  · rw [if_pos htime] at hab
    rw [if_pos htime.symm] at hba
    cases hapart s s' record record' hrecord hrecord' hab hba
    rw [hrecord] at hrecord'
    cases hrecord'
    rfl
  · rw [if_neg htime] at hab
    rw [if_neg fun heq => htime heq.symm] at hba
    have hab' := of_decide_eq_true hab
    have hba' := of_decide_eq_true hba
    omega

/-- The R2 store evicts the keys of the live records that the memory store would evict of them. -/
theorem evictedKeys_kept (h : Alike C pre policy nowSec records bucket)
    (hpre : ∀ a b, C.le (pre ++ a) (pre ++ b) = C.le a b) :
    evictedKeys C policy (((bucket.listPolicyEntries H pre nowSec).filter fun entry =>
      !isExpiredByPolicy entry.metadata policy nowSec).map fun entry =>
        ⟨entry.r2Key, entry.metadata.updatedAt, entry.metadata.size⟩) =
      (evictedKeys C policy (records.pruneExpiredRecords policy nowSec).candidates).map
        (pre ++ ·) := by
  have hmap : ((records.pruneExpiredRecords policy nowSec).entries.map (entryOf pre)).map (fun entry =>
        ⟨entry.r2Key, entry.metadata.updatedAt, entry.metadata.size⟩) =
      (records.pruneExpiredRecords policy nowSec).candidates.map (prefixed pre) := by
    unfold Records.candidates
    rw [List.map_map, List.map_map]
    rfl
  have hperm := ((kept_perm (H := H) h).map fun entry => (⟨entry.r2Key, entry.metadata.updatedAt,
    entry.metadata.size⟩ : EvictionCandidate)).symm
  rw [hmap] at hperm
  rw [← evictedKeys_prefixed hpre]
  refine (evictedKeys_eq_of_perm hperm ?_).symm
  intro a ha b hb hab hba
  obtain ⟨a', ha', rfl⟩ := List.mem_map.mp ha
  obtain ⟨b', hb', rfl⟩ := List.mem_map.mp hb
  unfold evictionLe prefixed at hab hba
  simp only [hpre] at hab hba
  have hapart : ∀ s s' record record',
      (records.pruneExpiredRecords policy nowSec).get? s = some record →
      (records.pruneExpiredRecords policy nowSec).get? s' = some record' →
      C.le s s' = true → C.le s' s = true → s = s' := fun s s' record record' hrecord hrecord' =>
    h.apart s s' record record' (get?_pruneExpiredRecords.mp hrecord).1
      (get?_pruneExpiredRecords.mp hrecord').1
  exact congrArg (prefixed pre) (candidates_apart hapart ha' hb' hab hba)

/-- What a write of the R2 store leaves of a record: it is neither expired nor evicted. -/
theorem get?_applyPolicyAfterWrite
    (h : Alike H.toCollation pre policy nowSec records bucket)
    (hpre : ∀ a b, H.le (pre ++ a) (pre ++ b) = H.le a b) {s : String} {record : CacheStoreObject}
    (hrecord : records.get? s = some record) :
    (bucket.applyPolicyAfterWrite H pre policy nowSec).get? (pre ++ s) =
      if isExpiredByPolicy record.metadata policy nowSec = true ∨
        s ∈ evictedKeys H.toCollation policy (records.pruneExpiredRecords policy nowSec).candidates
      then none else bucket.get? (pre ++ s) := by
  have hkey : pre ++ s ∈ (evictedKeys H.toCollation policy
      (records.pruneExpiredRecords policy nowSec).candidates).map (pre ++ ·) ↔
      s ∈ evictedKeys H.toCollation policy
        (records.pruneExpiredRecords policy nowSec).candidates := by
    rw [List.mem_map]
    constructor
    · rintro ⟨s', hs', heq⟩
      cases append_left_inj heq
      exact hs'
    · intro hs
      exact ⟨s, hs, rfl⟩
  unfold Bucket.applyPolicyAfterWrite
  split
  · next hnone =>
    -- Without limits nothing expires and nothing is evicted.
    have hlive : isExpiredByPolicy record.metadata policy nowSec = false := by
      unfold isExpiredByPolicy
      rw [hnone.1]
      rfl
    have hevicted : evictedKeys H.toCollation policy
        (records.pruneExpiredRecords policy nowSec).candidates = [] := by
      unfold evictedKeys
      rw [hnone.2]
    rw [hevicted, hlive]
    simp
  · have hprune := get?_pruneExpiredPolicyEntries (H := H) h hrecord
    have hkept := evictedKeys_kept (H := H) h hpre
    simp only [get?_enforceMaxBytesPolicy, hprune]
    simp only [Bucket.pruneExpiredPolicyEntries, hkept, hkey]
    by_cases hexpired : isExpiredByPolicy record.metadata policy nowSec = true
    · simp [hexpired]
    · simp [hexpired]

theorem get?_of_applyPolicyAfterWrite {H : BucketHost} {k : String} {object : R2Object}
    (h : (bucket.applyPolicyAfterWrite H pre policy nowSec).get? k = some object) :
    bucket.get? k = some object := by
  unfold Bucket.applyPolicyAfterWrite at h
  split at h
  · exact h
  · simp only [get?_enforceMaxBytesPolicy] at h
    split at h
    · cases h
    · exact get?_of_pruneExpiredPolicyEntries h

theorem get?_set_prune {s s' : String} {record record' : CacheStoreObject} :
    (OrdMap.set (records.pruneExpiredRecords policy nowSec) s record).get? s' = some record' ↔
      (OrdMap.set records s record).get? s' = some record' ∧
        (s' = s ∨ isExpiredByPolicy record'.metadata policy nowSec = false) := by
  rw [OrdMap.get?_set, OrdMap.get?_set]
  by_cases heq : s' = s
  · simp [heq]
  · rw [if_neg heq, if_neg heq, get?_pruneExpiredRecords]
    simp [heq]

/-- An expired record that is just stored is evicted first, so the others are evicted as without
it. -/
theorem mem_evictedKeys_set {s : String} {record : CacheStoreObject}
    (h : Alike C pre policy nowSec (OrdMap.set records s record) bucket) {s' : String}
    {record' : CacheStoreObject}
    (hrecord' : (OrdMap.set records s record).get? s' = some record')
    (hlive : isExpiredByPolicy record'.metadata policy nowSec = false) :
    s' ∈ evictedKeys C policy
        (Records.candidates (OrdMap.set (records.pruneExpiredRecords policy nowSec) s record)) ↔
      s' ∈ evictedKeys C policy
        (Records.pruneExpiredRecords policy nowSec (OrdMap.set records s record)).candidates := by
  have hset : ∀ k r, (OrdMap.set records s record).get? k = some r → k = s → r = record := by
    intro k r hr hk
    rw [OrdMap.get?_set, if_pos hk] at hr
    cases hr
    rfl
  have hapart : ∀ k k' r r',
      (OrdMap.set (records.pruneExpiredRecords policy nowSec) s record).get? k = some r →
      (OrdMap.set (records.pruneExpiredRecords policy nowSec) s record).get? k' = some r' →
      C.le k k' = true → C.le k' k = true → k = k' := fun k k' r r' hr hr' =>
    h.apart k k' r r' (get?_set_prune.mp hr).1 (get?_set_prune.mp hr').1
  have hself : (OrdMap.set (records.pruneExpiredRecords policy nowSec) s record).get? s =
      some record := OrdMap.get?_set_self _ _ _
  cases hexpired : isExpiredByPolicy record.metadata policy nowSec with
  | false =>
    -- Both maps have the same records.
    have hperm : (Records.candidates
        (OrdMap.set (records.pruneExpiredRecords policy nowSec) s record)).Perm
        (Records.pruneExpiredRecords policy nowSec (OrdMap.set records s record)).candidates := by
      refine (List.perm_ext_iff_of_nodup (nodup_candidates _) (nodup_candidates _)).mpr fun c => ?_
      rw [mem_candidates, mem_candidates]
      constructor
      · rintro ⟨k, r, hr, rfl⟩
        obtain ⟨hr, hk | hr'⟩ := get?_set_prune.mp hr
        · cases hset k r hr hk
          exact ⟨k, record, get?_pruneExpiredRecords.mpr ⟨hr, hexpired⟩, rfl⟩
        · exact ⟨k, r, get?_pruneExpiredRecords.mpr ⟨hr, hr'⟩, rfl⟩
      · rintro ⟨k, r, hr, rfl⟩
        obtain ⟨hr, hr'⟩ := get?_pruneExpiredRecords.mp hr
        exact ⟨k, r, get?_set_prune.mpr ⟨hr, .inr hr'⟩, rfl⟩
    rw [evictedKeys_eq_of_perm hperm fun a ha b hb => candidates_apart hapart ha hb]
  | true =>
    have hperm : (Records.candidates
        (OrdMap.set (records.pruneExpiredRecords policy nowSec) s record)).Perm
        (⟨s, record.metadata.updatedAt, record.metadata.size⟩ ::
          (Records.pruneExpiredRecords policy nowSec (OrdMap.set records s record)).candidates) := by
      refine (List.perm_ext_iff_of_nodup (nodup_candidates _) ?_).mpr fun c => ?_
      · refine List.nodup_cons.mpr ⟨fun hmem => ?_, nodup_candidates _⟩
        obtain ⟨k, r, hr, hc⟩ := mem_candidates.mp hmem
        obtain ⟨hr, hr'⟩ := get?_pruneExpiredRecords.mp hr
        cases hset k r hr (congrArg EvictionCandidate.storageKey hc).symm
        rw [hexpired] at hr'
        cases hr'
      · rw [List.mem_cons, mem_candidates, mem_candidates]
        constructor
        · rintro ⟨k, r, hr, rfl⟩
          obtain ⟨hr, hk | hr'⟩ := get?_set_prune.mp hr
          · cases hset k r hr hk
            exact .inl (by rw [hk])
          · exact .inr ⟨k, r, get?_pruneExpiredRecords.mpr ⟨hr, hr'⟩, rfl⟩
        · rintro (rfl | ⟨k, r, hr, rfl⟩)
          · exact ⟨s, record, hself, rfl⟩
          · obtain ⟨hr, hr'⟩ := get?_pruneExpiredRecords.mp hr
            exact ⟨k, r, get?_set_prune.mpr ⟨hr, .inr hr'⟩, rfl⟩
    have hne : s' ≠ s := by
      intro heq
      cases hset s' record' hrecord' heq
      rw [hexpired] at hlive
      cases hlive
    rw [evictedKeys_eq_of_perm hperm fun a ha b hb => candidates_apart hapart ha hb]
    refine mem_evictedKeys_cons (fun c hc => ?_) hne
    -- The live records are younger than the expired one.
    obtain ⟨k, r, hr, rfl⟩ := mem_candidates.mp hc
    have hyoung := (get?_pruneExpiredRecords.mp hr).2
    unfold isExpiredByPolicy at hexpired hyoung
    cases httl : policy.ttlSec with
    | none =>
      rw [httl] at hexpired
      cases hexpired
    | some ttlSec =>
      rw [httl] at hexpired hyoung
      have hold := of_decide_eq_true hexpired
      have hnew := of_decide_eq_false hyoung
      have hlt : record.metadata.updatedAt < r.metadata.updatedAt := by omega
      unfold evictionLe
      rw [if_neg (show ¬ record.metadata.updatedAt = r.metadata.updatedAt by omega)]
      exact decide_eq_true hlt

/-- Writing an object and its record and applying the policy keeps the stores alike. -/
theorem alike_put (hpre : ∀ a b, H.le (pre ++ a) (pre ++ b) = H.le a b) {s : String}
    {record : CacheStoreObject} {object : R2Object}
    (h : Alike H.toCollation pre policy nowSec (OrdMap.set records s record)
      (OrdMap.set bucket (pre ++ s) object)) :
    Alike H.toCollation pre policy nowSec
      (Records.enforceMaxBytesLimit H.toCollation policy
        (OrdMap.set (records.pruneExpiredRecords policy nowSec) s record))
      (Bucket.applyPolicyAfterWrite H pre policy nowSec (OrdMap.set bucket (pre ++ s) object)) := by
  have hmem : ∀ {k r}, (Records.enforceMaxBytesLimit H.toCollation policy
      (OrdMap.set (records.pruneExpiredRecords policy nowSec) s record)).get? k = some r →
      k ∉ evictedKeys H.toCollation policy
        (Records.candidates (OrdMap.set (records.pruneExpiredRecords policy nowSec) s record)) ∧
      (OrdMap.set (records.pruneExpiredRecords policy nowSec) s record).get? k = some r := by
    intro k r hr
    rw [get?_enforceMaxBytesLimit] at hr
    split at hr
    · cases hr
    · next hnot => exact ⟨hnot, hr⟩
  refine alike_restrict h (fun k r hr => (get?_set_prune.mp (hmem hr).2).1)
    (fun k object' hobject' => get?_of_applyPolicyAfterWrite hobject') ?_ ?_
  · intro k r object' hr hobject'
    rw [get?_applyPolicyAfterWrite h hpre hr] at hobject'
    split at hobject'
    · cases hobject'
    · next hnot =>
      obtain ⟨hlive, hkept⟩ := not_or.mp hnot
      have hlive' := Bool.eq_false_of_not_eq_true hlive
      rw [get?_enforceMaxBytesLimit, if_neg fun hin => hkept ((mem_evictedKeys_set h hr hlive').mp hin)]
      exact get?_set_prune.mpr ⟨hr, .inr hlive'⟩
  · intro k r object' hr hobject' hnone
    obtain ⟨hnot, hr⟩ := hmem hr
    have hr := (get?_set_prune.mp hr).1
    rw [get?_applyPolicyAfterWrite h hpre hr] at hnone
    split at hnone
    · next hgone =>
      rcases hgone with hexpired | hevicted
      · exact hexpired
      · cases hexpired : isExpiredByPolicy r.metadata policy nowSec with
        | true => rfl
        | false => exact absurd ((mem_evictedKeys_set h hr hexpired).mpr hevicted) hnot
    · rw [hobject'] at hnone
      cases hnone

/-! ### Listing -/

theorem paginateMetadata_congr {entries entries' : List CacheStoreMetadata}
    (hperm : entries.Perm entries') (hapart : ∀ a ∈ entries, ∀ b ∈ entries,
      metadataLe C a b = true → metadataLe C b a = true → a = b) (query : CacheStoreListQuery) :
    paginateMetadata C entries query = paginateMetadata C entries' query := by
  unfold paginateMetadata
  rw [insertionSort_eq_of_perm _ hperm hapart]

/-- The metadata of two records do not compare as equal. -/
theorem metadata_apart (h : Alike C pre policy nowSec records bucket)
    (hpath : ∀ p a b, C.le (p ++ "/" ++ a) (p ++ "/" ++ b) = C.le a b) {s s' : String}
    {record record' : CacheStoreObject} (hrecord : records.get? s = some record)
    (hrecord' : records.get? s' = some record')
    (hle : metadataLe C record.metadata record'.metadata = true)
    (hle' : metadataLe C record'.metadata record.metadata = true) :
    record.metadata = record'.metadata := by
  unfold metadataLe at hle hle'
  by_cases hkind : record.metadata.kind = record'.metadata.kind
  · rw [if_pos hkind] at hle
    rw [if_pos hkind.symm] at hle'
    have hs := (h.keyed s record hrecord).1
    have hs' := (h.keyed s' record' hrecord').1
    rw [← hkind] at hs'
    have heq : s = s' := by
      refine h.apart s s' record record' hrecord hrecord' ?_ ?_
      · rw [hs, hs']
        exact (hpath _ _ _).trans hle
      · rw [hs, hs']
        exact (hpath _ _ _).trans hle'
    rw [heq, hrecord'] at hrecord
    cases hrecord
    rfl
  · rw [if_neg hkind] at hle
    rw [if_neg fun heq => hkind heq.symm] at hle'
    exact absurd (C.kinds _ _ hle hle') hkind

theorem list_alike (h : Alike H.toCollation pre policy nowSec records bucket)
    (query : CacheStoreListQuery) :
    (records.list H.toCollation policy nowSec query).1 =
      (bucket.list H pre policy nowSec query).1 := by
  unfold Records.list Bucket.list Bucket.pruneExpiredPolicyEntries
  have hperm := ((kept_perm (H := H) h).map R2PolicyEntry.metadata).filter fun metadata =>
    metadataMatchesQuery metadata query
  rw [List.map_map] at hperm
  have hvalues : (records.pruneExpiredRecords policy nowSec).entries.map
      (R2PolicyEntry.metadata ∘ entryOf pre) =
        (records.pruneExpiredRecords policy nowSec).values.map CacheStoreObject.metadata := by
    unfold OrdMap.values
    rw [List.map_map]
    rfl
  rw [hvalues] at hperm
  refine paginateMetadata_congr hperm.symm ?_ query
  have hrecord : ∀ metadata ∈ ((records.pruneExpiredRecords policy nowSec).values.map
      CacheStoreObject.metadata).filter fun metadata => metadataMatchesQuery metadata query,
      ∃ s record, records.get? s = some record ∧ record.metadata = metadata := by
    intro metadata hmem
    obtain ⟨record, hvalue, rfl⟩ := List.mem_map.mp (List.mem_filter.mp hmem).1
    obtain ⟨⟨s, _⟩, hentry, rfl⟩ := List.mem_map.mp hvalue
    exact ⟨s, _, (get?_pruneExpiredRecords.mp (OrdMap.get?_eq_some_iff.mpr hentry)).1, rfl⟩
  intro a ha b hb hab hba
  obtain ⟨s, record, hs, rfl⟩ := hrecord a ha
  obtain ⟨s', record', hs', rfl⟩ := hrecord b hb
  exact metadata_apart h H.path hs hs' hab hba

/-! ### The calls -/

/-- What the stores have under a storage key. -/
theorem found_alike (h : Alike C pre policy nowSec records bucket) (s : String) :
    (records.get? s = none ∧ bucket.get? (pre ++ s) = none) ∨
    (∃ record, records.get? s = some record ∧ bucket.get? (pre ++ s) = none ∧
      isExpiredByPolicy record.metadata policy nowSec = true) ∨
    ∃ record object, records.get? s = some record ∧ bucket.get? (pre ++ s) = some object ∧
      Keeps object record := by
  cases hobject : bucket.get? (pre ++ s) with
  | none =>
    cases hrecord : records.get? s with
    | none => exact .inl ⟨rfl, rfl⟩
    | some record => exact .inr (.inl ⟨record, rfl, rfl, h.kept s record hrecord hobject⟩)
  | some object =>
    obtain ⟨s', record, hs, hrecord, hkeeps⟩ := h.stored _ object hobject
    cases append_left_inj hs
    exact .inr (.inr ⟨record, object, hrecord, rfl, hkeeps⟩)

/-- Forgetting a record that the bucket lacks. -/
theorem alike_forget (h : Alike C pre policy nowSec records bucket) {s : String}
    (hnone : bucket.get? (pre ++ s) = none) :
    Alike C pre policy nowSec (OrdMap.erase records s) bucket := by
  refine alike_restrict h (fun s' record hrecord => ?_) (fun _ _ hobject => hobject) ?_ ?_
  · rw [OrdMap.get?_erase] at hrecord
    split at hrecord
    · cases hrecord
    · exact hrecord
  · intro s' record object hrecord hobject
    rw [OrdMap.get?_erase, if_neg fun heq => ?_]
    · exact hrecord
    · rw [heq, hnone] at hobject
      cases hobject
  · intro s' record object _ hobject hgone
    rw [hobject] at hgone
    cases hgone

theorem get_alike (h : Alike C pre policy nowSec records bucket) (kind key : String) :
    (∃ message, records.get policy nowSec kind key = .error message ∧
      bucket.get pre policy nowSec kind key = .error message) ∨
    ∃ object records' bucket', records.get policy nowSec kind key = .ok (object, records') ∧
      bucket.get pre policy nowSec kind key = .ok (object, bucket') ∧
      Alike C pre policy nowSec records' bucket' := by
  unfold Records.get Bucket.get
  cases hkind : normalizeKind kind with
  | error message => exact .inl ⟨message, rfl, rfl⟩
  | ok kind' =>
    cases hkey : normalizeKey key with
    | error message => exact .inl ⟨message, rfl, rfl⟩
    | ok key' =>
      refine .inr ?_
      simp only [bind, Except.bind]
      unfold toR2Key
      rcases found_alike h (toStorageKey kind' key') with ⟨hrecord, hobject⟩ |
        ⟨record, hrecord, hobject, hexpired⟩ | ⟨record, object, hrecord, hobject, hkeeps⟩
      · rw [hrecord, hobject]
        exact ⟨none, records, bucket, rfl, rfl, h⟩
      · rw [hrecord, hobject]
        simp only [hexpired, if_true]
        exact ⟨none, _, bucket, rfl, rfl, alike_forget h hobject⟩
      · rw [hrecord, hobject]
        simp only [hkeeps.metadata]
        cases hexpired : isExpiredByPolicy record.metadata policy nowSec with
        | true => exact ⟨none, _, _, rfl, rfl, alike_erase h _⟩
        | false => exact ⟨some record, records, bucket, rfl, by rw [hkeeps.body]; rfl, h⟩

theorem put_alike (hpre : ∀ a b, H.le (pre ++ a) (pre ++ b) = H.le a b)
    (h : Alike H.toCollation pre policy nowSec records bucket) (request : CacheStorePutRequest)
    (hcall : Unambiguous H.toCollation policy records (nowSec, .put request)) :
    (∃ message, records.put H.toCollation policy nowSec request = .error message ∧
      bucket.put H pre policy nowSec request = .error message) ∨
    ∃ records' bucket', records.put H.toCollation policy nowSec request = .ok records' ∧
      bucket.put H pre policy nowSec request = .ok bucket' ∧
      Alike H.toCollation pre policy nowSec records' bucket' := by
  obtain ⟨htime, hapart⟩ := hcall
  unfold Records.put Bucket.put
  cases hkind : normalizeKind request.kind with
  | error message => exact .inl ⟨message, rfl, rfl⟩
  | ok kind =>
    cases hkey : normalizeKey request.key with
    | error message => exact .inl ⟨message, rfl, rfl⟩
    | ok key =>
      have hstorage : storageKeyOf request.kind request.key = .ok (toStorageKey kind key) := by
        unfold storageKeyOf
        rw [hkind, hkey]
        rfl
      have hne : key ≠ "" := normalizeKey_ne hkey
      refine .inr ⟨_, _, rfl, rfl, alike_put hpre (alike_set h ⟨rfl, hne⟩ (hapart _ hstorage) ?_)⟩
      exact ⟨rfl, fun _ _ _ => metadata_put H request kind hne nowSec htime _ _ _ _⟩

theorem delete_alike (h : Alike C pre policy nowSec records bucket) (kind key : String)
    (hcall : Unambiguous C policy records (nowSec, .delete kind key)) :
    (∃ message, records.remove kind key = .error message ∧
      bucket.remove pre policy nowSec kind key = .error message) ∨
    ∃ existed records' bucket', records.remove kind key = .ok (existed, records') ∧
      bucket.remove pre policy nowSec kind key = .ok (existed, bucket') ∧
      Alike C pre policy nowSec records' bucket' := by
  unfold Records.remove Bucket.remove Bucket.get
  cases hkind : normalizeKind kind with
  | error message => exact .inl ⟨message, rfl, rfl⟩
  | ok kind' =>
    cases hkey : normalizeKey key with
    | error message => exact .inl ⟨message, rfl, rfl⟩
    | ok key' =>
      have hstorage : storageKeyOf kind key = .ok (toStorageKey kind' key') := by
        unfold storageKeyOf
        rw [hkind, hkey]
        rfl
      refine .inr ?_
      simp only [bind, Except.bind]
      unfold toR2Key OrdMap.has
      rcases found_alike h (toStorageKey kind' key') with ⟨hrecord, hobject⟩ |
        ⟨record, hrecord, hobject, hexpired⟩ | ⟨record, object, hrecord, hobject, hkeeps⟩
      · rw [hrecord, hobject]
        exact ⟨false, _, bucket, rfl, rfl, alike_forget h hobject⟩
      · -- The call is not on an expired record.
        rw [hcall _ hstorage record hrecord] at hexpired
        cases hexpired
      · have hlive := hcall _ hstorage record hrecord
        rw [hrecord, hobject]
        simp only [hkeeps.metadata, hlive]
        exact ⟨true, _, _, rfl, rfl, alike_erase h _⟩

end EquivalenceLemmas

open EquivalenceLemmas

/-! ## Results -/

/-- A call of both stores keeps them alike and has one answer. -/
theorem call_alike (H : StoreHost) (pre : Option String) (policy : CacheStorePolicy)
    {records : Records} {bucket : Bucket} (timed : TimedCall)
    (h : Alike H.toCollation (normalizeR2Prefix pre) policy timed.1 records bucket)
    (hcall : Unambiguous H.toCollation policy records timed) :
    (records.call H.toCollation policy timed.1 timed.2).2 =
        (bucket.call H (normalizeR2Prefix pre) policy timed.1 timed.2).2 ∧
      Alike H.toCollation (normalizeR2Prefix pre) policy timed.1
        (records.call H.toCollation policy timed.1 timed.2).1
        (bucket.call H (normalizeR2Prefix pre) policy timed.1 timed.2).1 := by
  obtain ⟨nowSec, call⟩ := timed
  unfold Records.call Bucket.call
  cases call with
  | put request =>
    rcases put_alike (le_normalizeR2Prefix pre) h request hcall with ⟨message, hput, hput'⟩ |
      ⟨records', bucket', hput, hput', halike⟩
    · simp only [hput, hput']
      exact ⟨trivial, h⟩
    · simp only [hput, hput']
      exact ⟨trivial, halike⟩
  | get kind key =>
    rcases get_alike h kind key with ⟨message, hget, hget'⟩ |
      ⟨object, records', bucket', hget, hget', halike⟩
    · simp only [hget, hget']
      exact ⟨trivial, h⟩
    · simp only [hget, hget']
      exact ⟨trivial, halike⟩
  | delete kind key =>
    rcases delete_alike h kind key hcall with ⟨message, hremove, hremove'⟩ |
      ⟨existed, records', bucket', hremove, hremove', halike⟩
    · simp only [hremove, hremove']
      exact ⟨trivial, h⟩
    · simp only [hremove, hremove']
      exact ⟨trivial, halike⟩
  | list query =>
    exact ⟨congrArg CacheStoreAnswer.listed (list_alike h query), alike_prune h⟩

theorem answers_alike (H : StoreHost) (pre : Option String) (policy : CacheStorePolicy)
    {records : Records} {bucket : Bucket} {startSec : Int} {calls : List TimedCall}
    (h : Alike H.toCollation (normalizeR2Prefix pre) policy startSec records bucket)
    (hstart : ∀ timed ∈ calls, startSec ≤ timed.1)
    (hclock : calls.Pairwise fun timed timed' => timed.1 ≤ timed'.1)
    (hcalls : Along (Records.step H.toCollation policy) (Unambiguous H.toCollation policy)
      records calls) :
    records.answers H.toCollation policy calls =
      bucket.answers H (normalizeR2Prefix pre) policy calls := by
  induction calls generalizing records bucket startSec with
  | nil => rfl
  | cons timed rest ih =>
    obtain ⟨hcall, hrest⟩ := hcalls
    obtain ⟨hlater, hclock⟩ := List.pairwise_cons.mp hclock
    obtain ⟨hanswer, halike⟩ := call_alike H pre policy timed
      (alike_later h (hstart timed List.mem_cons_self)) hcall
    unfold Records.answers Bucket.answers
    rw [hanswer]
    exact congrArg _ (ih halike hlater hclock hrest)

/-- The two stores answer alike in every run from empty stores whose calls are unambiguous. -/
theorem stores_agree (H : StoreHost) (pre : Option String) (options : CacheStorePolicyOptions)
    (calls : List TimedCall) (hclock : calls.Pairwise fun timed timed' => timed.1 ≤ timed'.1)
    (hcalls : Along (Records.step H.toCollation (normalizeCacheStorePolicy options))
      (Unambiguous H.toCollation (normalizeCacheStorePolicy options)) ∅ calls) :
    Records.answers H.toCollation (normalizeCacheStorePolicy options) ∅ calls =
      Bucket.answers H (normalizeR2Prefix pre) (normalizeCacheStorePolicy options) ∅ calls := by
  cases calls with
  | nil => rfl
  | cons timed rest =>
    have halike : Alike H.toCollation (normalizeR2Prefix pre) (normalizeCacheStorePolicy options)
        timed.1 ∅ ∅ := by
      constructor
      · intro s record hrecord
        cases hrecord
      · intro s s' record record' hrecord
        cases hrecord
      · intro k object hobject
        cases hobject
      · intro s record hrecord
        cases hrecord
    refine answers_alike H pre _ halike ?_ hclock hcalls
    intro timed' hmem
    rcases List.mem_cons.mp hmem with rfl | hrest
    · exact Int.le_refl _
    · exact (List.pairwise_cons.mp hclock).1 timed' hrest

theorem stores_agree_run :
    Records.answers Collation.codeUnits (normalizeCacheStorePolicy ⟨some (.ofNat 10), none⟩) ∅
        [(0, .put ⟨"object", "k", [1], none, none, none, none, none⟩), (3, .get "object" "k"),
          (10, .list ⟨none, none, none, none, none⟩)] =
      Bucket.answers StoreHost.codeUnits (normalizeR2Prefix (some "cache"))
        (normalizeCacheStorePolicy ⟨some (.ofNat 10), none⟩) ∅
        [(0, .put ⟨"object", "k", [1], none, none, none, none, none⟩), (3, .get "object" "k"),
          (10, .list ⟨none, none, none, none, none⟩)] := by
  refine stores_agree StoreHost.codeUnits (some "cache") ⟨some (.ofNat 10), none⟩ _ (by decide) ?_
  refine ⟨⟨by decide, fun storageKey _ k hk => ?_⟩, trivial, trivial, trivial⟩
  cases hk

/-- A record that has expired is deleted from the memory store, and is not there for the R2 store. -/
theorem delete_of_expired :
    Records.answers Collation.codeUnits (normalizeCacheStorePolicy ⟨some (.ofNat 1), none⟩) ∅
        [(0, .put ⟨"object", "k", [1], none, none, none, none, none⟩), (5, .delete "object" "k")] =
      [.done, .deleted true] ∧
    Bucket.answers StoreHost.codeUnits (normalizeR2Prefix none)
        (normalizeCacheStorePolicy ⟨some (.ofNat 1), none⟩) ∅
        [(0, .put ⟨"object", "k", [1], none, none, none, none, none⟩), (5, .delete "object" "k")] =
      [.done, .deleted false] := by
  decide +kernel

end Stores

end BitRelay
