import BitRelay.Cache.Equivalence
import BitRelay.Lib.LongestFit

/-!
# What a put of the memory store retains

A put of `createMemoryCacheStore` drops the expired records, stores the new one, and evicts the
oldest records while the sizes are above the bound. What is left is the longest suffix that fits of
all candidates in ascending order of time and storage key.

Results:
1. `put_retains_newest`: the records after a put, for every policy, clock and store.
-/

namespace BitRelay

namespace Stores

open EquivalenceLemmas LongestFit

/-! ## Candidates -/

/-- A record as a candidate for eviction. -/
def candidateOf (entry : String × CacheStoreObject) : EvictionCandidate :=
  ⟨entry.1, entry.2.metadata.updatedAt, entry.2.metadata.size⟩

/-- The order of eviction on records: by time, then by storage key. -/
def ageLe (C : Collation) (a b : String × CacheStoreObject) : Bool :=
  evictionLe C (candidateOf a) (candidateOf b)

def recordSize (entry : String × CacheStoreObject) : Nat := entry.2.metadata.size

/-- The unexpired records without the one of the written key, and the new one. -/
def retainable (policy : CacheStorePolicy) (nowSec : Int) (records : Records) (storageKey : String)
    (record : CacheStoreObject) : List (String × CacheStoreObject) :=
  (records.entries.filter fun entry => !isExpiredByPolicy entry.2.metadata policy nowSec &&
    !decide (entry.1 = storageKey)) ++ [(storageKey, record)]

/-- The entries of `next` are the longest suffix of the candidates in ascending order that fits. -/
def RetainsNewest (C : Collation) (policy : CacheStorePolicy)
    (candidates : List (String × CacheStoreObject)) (next : Records) : Prop :=
  ∃ sorted kept, sorted.Perm candidates ∧ sorted.Pairwise (fun a b => ageLe C a b = true) ∧
    IsLongestFit recordSize policy.maxBytes kept sorted ∧ next.entries.Perm kept

namespace RetentionLemmas

variable {C : Collation} {policy : CacheStorePolicy} {nowSec : Int} {records : Records}
  {storageKey : String} {record : CacheStoreObject}

instance ageLe_total : Std.Total fun a b => ageLe C a b = true where
  total a b := (evictionLe_total (C := C)).total (candidateOf a) (candidateOf b)

instance ageLe_trans : IsTrans (String × CacheStoreObject) fun a b => ageLe C a b = true where
  trans a b c := (evictionLe_trans (C := C)).trans (candidateOf a) (candidateOf b) (candidateOf c)

/-- The loop over the candidates is the one of the library. -/
theorem evicted_map_candidateOf (maxBytes : Nat) (entries : List (String × CacheStoreObject))
    (totalBytes : Nat) : evicted maxBytes (entries.map candidateOf) totalBytes =
      (dropped recordSize maxBytes entries totalBytes).map candidateOf := by
  induction entries generalizing totalBytes with
  | nil => rfl
  | cons entry rest ih =>
    rw [List.map_cons, evicted, dropped, ih]
    split <;> rfl

/-- The keys that are evicted are those of the items that the loop drops. -/
theorem evictedKeys_candidates (records : Records) {maxBytes : Nat}
    (hmax : policy.maxBytes = some maxBytes) :
    let sorted := records.entries.insertionSort fun a b => ageLe C a b
    evictedKeys C policy records.candidates =
      (dropped recordSize maxBytes sorted (sorted.map recordSize).sum).map Prod.fst := by
  intro sorted
  have hsort : sortEvictionCandidates C records.candidates = sorted.map candidateOf :=
    (List.map_insertionSort _ _ candidateOf records.entries fun a _ b _ => Iff.rfl).symm
  have htotal : (records.candidates.map EvictionCandidate.size).sum = (sorted.map recordSize).sum := by
    have hsizes : records.candidates.map EvictionCandidate.size = records.entries.map recordSize := by
      unfold Records.candidates
      rw [List.map_map]
      rfl
    rw [hsizes]
    exact ((List.perm_insertionSort _ records.entries).map recordSize).sum_eq.symm
  unfold evictedKeys
  rw [hmax, hsort, htotal]
  dsimp only
  rw [evicted_map_candidateOf, List.map_map]
  rfl

theorem nodup_entries (records : Records) : records.entries.Nodup :=
  List.Nodup.of_map Prod.fst records.nodup

/-- The bound on the bytes retains the newest of the records. -/
theorem retainsNewest_enforceMaxBytesLimit (C : Collation) (policy : CacheStorePolicy)
    (records : Records) :
    RetainsNewest C policy records.entries (records.enforceMaxBytesLimit C policy) := by
  have hperm := List.perm_insertionSort (fun a b => ageLe C a b = true) records.entries
  cases hmax : policy.maxBytes with
  | none =>
    refine ⟨_, records.entries.insertionSort fun a b => ageLe C a b, hperm,
      List.pairwise_insertionSort _ _, ?_, ?_⟩
    · exact isLongestFit_self fun max h => by
        rw [hmax] at h
        cases h
    · unfold Records.enforceMaxBytesLimit
      rw [hmax]
      exact hperm.symm
  | some maxBytes =>
    obtain ⟨kept, hsplit, hkept⟩ := isLongestFit_rest recordSize maxBytes
      (records.entries.insertionSort fun a b => ageLe C a b)
    refine ⟨_, kept, hperm, List.pairwise_insertionSort _ _, by rw [hmax]; exact hkept, ?_⟩
    have hkeys : ((records.entries.insertionSort fun a b => ageLe C a b).map Prod.fst).Nodup :=
      (hperm.map Prod.fst).nodup_iff.mpr records.nodup
    rw [hsplit, List.map_append] at hkeys
    obtain ⟨-, hkeptKeys, hdisjoint⟩ := List.nodup_append.mp hkeys
    refine (List.perm_ext_iff_of_nodup (nodup_entries _)
      (List.Nodup.of_map Prod.fst hkeptKeys)).mpr fun entry => ?_
    rw [← OrdMap.get?_eq_some_iff, get?_enforceMaxBytesLimit, evictedKeys_candidates records hmax]
    have hmem : records.get? entry.1 = some entry.2 ↔
        entry ∈ records.entries.insertionSort fun a b => ageLe C a b := by
      rw [hperm.mem_iff]
      exact OrdMap.get?_eq_some_iff
    constructor
    · intro h
      split at h
      · cases h
      · next hnot =>
        have hsorted := hmem.mp h
        rw [hsplit] at hsorted
        exact (List.mem_append.mp hsorted).resolve_left fun hdropped =>
          hnot (List.mem_map_of_mem hdropped)
    · intro h
      have hnot : entry.1 ∉ (dropped recordSize maxBytes
          (records.entries.insertionSort fun a b => ageLe C a b)
          ((records.entries.insertionSort fun a b => ageLe C a b).map recordSize).sum).map
            Prod.fst :=
        fun hdropped => hdisjoint _ hdropped _ (List.mem_map_of_mem h) rfl
      rw [if_neg hnot]
      refine hmem.mpr ?_
      rw [hsplit]
      exact List.mem_append_right _ h

/-- The records that the bound on the bytes is applied to. -/
theorem entries_set_pruned (policy : CacheStorePolicy) (nowSec : Int) (records : Records)
    (storageKey : String) (record : CacheStoreObject) :
    (OrdMap.set (records.pruneExpiredRecords policy nowSec) storageKey record).entries.Perm
      (retainable policy nowSec records storageKey record) := by
  have hsub : (records.entries.filter fun entry =>
      !isExpiredByPolicy entry.2.metadata policy nowSec &&
        !decide (entry.1 = storageKey)).Nodup := (nodup_entries records).filter _
  have hnodup : (retainable policy nowSec records storageKey record).Nodup := by
    refine hsub.append (List.nodup_singleton _) ?_
    intro entry hentry hnew
    rw [List.mem_singleton.mp hnew] at hentry
    simpa using (List.mem_filter.mp hentry).2
  refine (List.perm_ext_iff_of_nodup (nodup_entries _) hnodup).mpr fun entry => ?_
  rw [OrdMap.mem_entries_set]
  unfold retainable Records.pruneExpiredRecords OrdMap.filter
  simp only [List.mem_append, List.mem_filter, List.mem_singleton, Bool.and_eq_true,
    Bool.not_eq_true', decide_eq_false_iff_not]
  tauto

end RetentionLemmas

open RetentionLemmas

/-! ## The result -/

/-- A put retains the newest of the unexpired records without the written key and the new one. -/
theorem put_retains_newest (C : Collation) (policy : CacheStorePolicy) (nowSec : Int)
    (records : Records) (request : CacheStorePutRequest) {kind : CacheStoreKind} {key : String}
    (hkind : normalizeKind request.kind = .ok kind) (hkey : normalizeKey request.key = .ok key) :
    ∃ next, records.put C policy nowSec request = .ok next ∧
      RetainsNewest C policy (retainable policy nowSec records (toStorageKey kind key)
        (recordOf request kind key nowSec)) next := by
  have hput : records.put C policy nowSec request =
      .ok (Records.enforceMaxBytesLimit C policy (OrdMap.set
        (records.pruneExpiredRecords policy nowSec) (toStorageKey kind key)
        (recordOf request kind key nowSec))) := by
    unfold Records.put
    rw [hkind, hkey]
    rfl
  refine ⟨_, hput, ?_⟩
  obtain ⟨sorted, kept, hperm, hsorted, hkept, hnext⟩ := retainsNewest_enforceMaxBytesLimit C policy
    (OrdMap.set (records.pruneExpiredRecords policy nowSec) (toStorageKey kind key)
      (recordOf request kind key nowSec))
  exact ⟨sorted, kept, hperm.trans (entries_set_pruned policy nowSec records _ _), hsorted, hkept,
    hnext⟩

/-- A store of three bytes: the oldest record makes room for the new one. -/
theorem put_retains_newest_three :
    ∃ next, Records.put .codeUnits ⟨none, some 3⟩ 9
        (((∅ : Records).set "ref/a" ⟨[1, 2], ⟨.ref, "a", 2, 5, none, none, none, none⟩⟩).set "ref/b"
          ⟨[3], ⟨.ref, "b", 1, 5, none, none, none, none⟩⟩)
        ⟨"ref", "c", [4, 5], none, none, none, none, none⟩ = .ok next ∧
      RetainsNewest .codeUnits ⟨none, some 3⟩ (retainable ⟨none, some 3⟩ 9
        (((∅ : Records).set "ref/a" ⟨[1, 2], ⟨.ref, "a", 2, 5, none, none, none, none⟩⟩).set "ref/b"
          ⟨[3], ⟨.ref, "b", 1, 5, none, none, none, none⟩⟩) (toStorageKey .ref "c")
        (recordOf ⟨"ref", "c", [4, 5], none, none, none, none, none⟩ .ref "c" 9)) next :=
  put_retains_newest .codeUnits ⟨none, some 3⟩ 9 _ ⟨"ref", "c", [4, 5], none, none, none, none, none⟩
    rfl rfl

/-- Where the keys are totally ordered, there is one such list of records. -/
theorem RetainsNewest.unique {C : Collation}
    (hkeys : ∀ a b, C.le a b = true → C.le b a = true → a = b) {policy : CacheStorePolicy}
    {candidates : List (String × CacheStoreObject)} (hnodup : (candidates.map Prod.fst).Nodup)
    {next next' : Records} (h : RetainsNewest C policy candidates next)
    (h' : RetainsNewest C policy candidates next') : next.entries.Perm next'.entries := by
  obtain ⟨sorted, kept, hperm, hsorted, hkept, hnext⟩ := h
  obtain ⟨sorted', kept', hperm', hsorted', hkept', hnext'⟩ := h'
  have hsame : sorted = sorted' := by
    refine (hperm.trans hperm'.symm).eq_of_pairwise (fun a b ha hb hab hba => ?_) hsorted hsorted'
    refine List.inj_on_of_nodup_map hnodup (hperm.subset ha) (hperm'.subset hb) ?_
    unfold ageLe evictionLe at hab hba
    by_cases htime : (candidateOf a).updatedAt = (candidateOf b).updatedAt
    · rw [if_pos htime] at hab
      rw [if_pos htime.symm] at hba
      exact hkeys _ _ hab hba
    · rw [if_neg htime] at hab
      rw [if_neg fun heq => htime heq.symm] at hba
      exact absurd (Int.lt_trans (of_decide_eq_true hab) (of_decide_eq_true hba)) (Int.lt_irrefl _)
  subst hsame
  rw [hkept.unique hkept'] at hnext
  exact hnext.trans hnext'.symm

end Stores

end BitRelay
