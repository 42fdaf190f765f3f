import BitRelay.Cache.Equivalence

/-!
# Listing against lookup

A walk through a listing asks for page after page, each with the cursor of the one before. Both
stores sort all their objects anew for each page and cut it out by an offset. `get` finds an object
by its key; a listing derives kind, key and metadata from the object again.

The first page deletes what has expired. The bucket lists the objects that stay in the order in
which it listed them before (`BucketHost.Steady`). The R2 store asks for no metadata when it lists;
what the bucket then leaves out, a listing takes from the place of the object and from its upload.

Results:
1. `entries_of_ended`: a walk over a list that stays the same returns it once, whatever the limits
   are.
2. `own_run`, `keyed_run`: the objects of a store carry the kind and the key under which they are
   kept.
3. `listing_agrees_iff`: the walk returns the objects that `get` finds, for the memory store always
   and for the R2 store if and only if the bucket shows what `get` reads of them.
-/

namespace BitRelay

namespace Stores

open EquivalenceLemmas

/-! ## Walks -/

section
variable {S : Type}

/-- The pages of a walk, at most `n` of them; the page `i` has the limit `limits i`. -/
def walk (listing : S → CacheStoreListQuery → CacheStoreListResult × S)
    (query : CacheStoreListQuery) (limits : Nat → Option JsNumber) :
    Nat → Nat → Option String → S → List CacheStoreListResult
  | 0, _, _, _ => []
  | n + 1, i, cursor, s =>
    let (result, s') := listing s { query with limit := limits i, cursor }
    result :: match result.cursor with
      | none => []
      | some next => walk listing query limits n (i + 1) (some next) s'

/-- The walk has come to the page without a cursor. -/
def Ended (pages : List CacheStoreListResult) : Prop :=
  ∃ front last, pages = front ++ [last] ∧ last.cursor = none

/-- The walk returns the objects that `lookup` finds and that match the query, each once. -/
structure ListsLookup (C : Collation) (lookup : String → String → Option CacheStoreObject)
    (query : CacheStoreListQuery) (pages : List CacheStoreListResult) : Prop where
  ended : Ended pages
  ordered : (pages.flatMap CacheStoreListResult.entries).Pairwise fun a b => metadataLe C a b = true
  once : (pages.flatMap CacheStoreListResult.entries).Nodup
  /-- A listed entry is what `get` returns for its kind and key. -/
  found : ∀ metadata ∈ pages.flatMap CacheStoreListResult.entries,
    metadataMatchesQuery metadata query = true ∧
      ∃ object, lookup metadata.kind.name metadata.key = some object ∧ object.metadata = metadata
  /-- What `get` returns is listed, with its kind and its key. -/
  listed : ∀ kind key object, lookup kind key = some object →
    object.metadata.kind.name = kind ∧ object.metadata.key = trim key ∧
      (metadataMatchesQuery object.metadata query = true →
        object.metadata ∈ pages.flatMap CacheStoreListResult.entries)

/-! ## A walk over a list -/

variable {listing : S → CacheStoreListQuery → CacheStoreListResult × S}
  {query : CacheStoreListQuery} {entries : List CacheStoreMetadata} {C : Collation}

namespace ListingLemmas

/-- The pages are cut out of the same list at every step. -/
def ListsAlways (listing : S → CacheStoreListQuery → CacheStoreListResult × S)
    (query : CacheStoreListQuery) (C : Collation) (entries : List CacheStoreMetadata)
    (I : S → Prop) : Prop :=
  ∀ s, I s → ∀ limit cursor,
    (listing s { query with limit, cursor }).1 =
        paginateMetadata C entries { query with limit, cursor } ∧
      I (listing s { query with limit, cursor }).2

theorem normalizeLimit_pos (limit : Option JsNumber) : 0 < normalizeLimit limit := by
  unfold normalizeLimit
  split
  · decide
  · omega

theorem normalizeOffset_toString (n : Nat) : normalizeOffset (some (toString n)) = n := by
  unfold normalizeOffset
  rw [Option.getD_some, parseInt10_toString, Option.getD_some]
  omega

/-- A page and what is behind it. -/
theorem take_append_rest {α : Type} (l : List α) (start limit : Nat) :
    l.drop start = (l.drop start).take limit ++
      l.drop (start + ((l.drop start).take limit).length) := by
  obtain ⟨rest, hrest⟩ := List.take_prefix limit (l.drop start)
  rw [← List.drop_drop]
  calc l.drop start = (l.drop start).take limit ++ rest := hrest.symm
    _ = _ := by
      congr 1
      conv_rhs => rw [← hrest]
      rw [List.drop_left']
      rw [hrest]

/-- A page of a walk, and the walk behind it. -/
theorem walk_succ {I : S → Prop} (h : ListsAlways listing query C entries I)
    (limits : Nat → Option JsNumber) (n i : Nat) (cursor : Option String) {s : S} (hs : I s) :
    let sorted := entries.insertionSort fun a b => metadataLe C a b
    ∃ page, ∃ s', I s' ∧ walk listing query limits (n + 1) i cursor s =
        page :: (match page.cursor with
          | none => []
          | some next => walk listing query limits n (i + 1) (some next) s') ∧
      (page.cursor = none ∧ page.entries = sorted.drop (normalizeOffset cursor) ∨
        ∃ next, page.cursor = some next ∧ normalizeOffset cursor < normalizeOffset (some next) ∧
          normalizeOffset (some next) < entries.length ∧
          sorted.drop (normalizeOffset cursor) =
            page.entries ++ sorted.drop (normalizeOffset (some next))) := by
  intro sorted
  obtain ⟨hpage, hkeeps⟩ := h s hs (limits i) cursor
  have hlength : sorted.length = entries.length := List.length_insertionSort _ _
  have hsplit := take_append_rest sorted (normalizeOffset cursor) (normalizeLimit (limits i))
  refine ⟨_, _, hkeeps, rfl, ?_⟩
  rw [hpage]
  unfold paginateMetadata
  dsimp only
  rw [hlength]
  generalize hcut : (sorted.drop (normalizeOffset cursor)).take (normalizeLimit (limits i)) = page
    at hsplit ⊢
  by_cases hmore : normalizeOffset cursor + page.length < entries.length
  · -- There is more behind the page, and so the page is not empty.
    have hpos : 0 < page.length := by
      have hlimit := normalizeLimit_pos (limits i)
      rw [← hcut, List.length_take, List.length_drop, hlength]
      omega
    refine .inr ⟨_, if_pos hmore, ?_⟩
    rw [normalizeOffset_toString]
    exact ⟨Nat.lt_add_of_pos_right hpos, hmore, hsplit⟩
  · refine .inl ⟨if_neg hmore, ?_⟩
    rw [hsplit, List.drop_eq_nil_of_le (by omega), List.append_nil]

/-- A walk comes to its end. -/
theorem walk_ends {I : S → Prop} (h : ListsAlways listing query C entries I)
    (limits : Nat → Option JsNumber) (n i : Nat) (cursor : Option String) {s : S} (hs : I s)
    (hn : entries.length - normalizeOffset cursor < n) :
    Ended (walk listing query limits n i cursor s) := by
  induction n generalizing i cursor s with
  | zero => exact absurd hn (Nat.not_lt_zero _)
  | succ n ih =>
    obtain ⟨page, s', hs', hwalk, hlast | ⟨next, hnext, hgrows, hinside, -⟩⟩ :=
      walk_succ h limits n i cursor hs
    · rw [hwalk, hlast.1]
      exact ⟨[], page, rfl, hlast.1⟩
    · obtain ⟨front, last, hfront, hlast⟩ := ih (i + 1) (some next) hs' (by omega)
      rw [hwalk, hnext]
      exact ⟨page :: front, last, congrArg (page :: ·) hfront, hlast⟩

/-- A walk that has come to its end returns what is behind its first offset, in its order. -/
theorem entries_of_ended {I : S → Prop} (h : ListsAlways listing query C entries I)
    (limits : Nat → Option JsNumber) (n i : Nat) {cursor : Option String} {s : S} (hs : I s)
    (hended : Ended (walk listing query limits n i cursor s)) :
    (walk listing query limits n i cursor s).flatMap CacheStoreListResult.entries =
      (entries.insertionSort fun a b => metadataLe C a b).drop (normalizeOffset cursor) := by
  induction n generalizing i cursor s with
  | zero =>
    obtain ⟨front, last, hnil, -⟩ := hended
    exact absurd hnil (List.append_ne_nil_of_right_ne_nil front (List.cons_ne_nil last [])).symm
  | succ n ih =>
    obtain ⟨page, s', hs', hwalk, hlast | ⟨next, hnext, -, -, hsplit⟩⟩ :=
      walk_succ h limits n i cursor hs
    · rw [hwalk, hlast.1, List.flatMap_singleton, hlast.2]
    · rw [hwalk, hnext] at hended ⊢
      dsimp only at hended ⊢
      obtain ⟨front, last, hfront, hlast⟩ := hended
      have hrest : Ended (walk listing query limits n (i + 1) (some next) s') := by
        cases front with
        | nil =>
          obtain ⟨rfl, -⟩ := List.cons.inj hfront
          rw [hnext] at hlast
          cases hlast
        | cons _ front => exact ⟨front, last, (List.cons.inj hfront).2, hlast⟩
      rw [List.flatMap_cons, ih (i + 1) hs' hrest, hsplit]

/-- A walk agrees with a lookup if and only if the lookup finds what the pages are cut from. -/
theorem listsLookup_iff {I : S → Prop} (h : ListsAlways listing query C entries I)
    (limits : Nat → Option JsNumber) {s : S} (hs : I s)
    {lookup : String → String → Option CacheStoreObject} (honce : entries.Nodup) :
    (∃ n, ListsLookup C lookup query (walk listing query limits n 0 none s)) ↔
      (∀ metadata ∈ entries, metadataMatchesQuery metadata query = true ∧
        ∃ object, lookup metadata.kind.name metadata.key = some object ∧
          object.metadata = metadata) ∧
      ∀ kind key object, lookup kind key = some object →
        object.metadata.kind.name = kind ∧ object.metadata.key = trim key ∧
          (metadataMatchesQuery object.metadata query = true → object.metadata ∈ entries) := by
  have hzero : normalizeOffset none = 0 := by decide
  have hentries : ∀ n, Ended (walk listing query limits n 0 none s) →
      (walk listing query limits n 0 none s).flatMap CacheStoreListResult.entries =
        entries.insertionSort fun a b => metadataLe C a b := by
    intro n hended
    rw [entries_of_ended h limits n 0 hs hended, hzero, List.drop_zero]
  have hperm := List.perm_insertionSort (fun a b => metadataLe C a b) entries
  constructor
  · rintro ⟨n, hlists⟩
    have hfound := hlists.found
    have hlisted := hlists.listed
    rw [hentries n hlists.ended] at hfound hlisted
    refine ⟨fun metadata hmem => hfound metadata (hperm.mem_iff.mpr hmem), ?_⟩
    intro kind key object hlookup
    obtain ⟨hkind, hkey, hmatch⟩ := hlisted kind key object hlookup
    exact ⟨hkind, hkey, fun hquery => hperm.mem_iff.mp (hmatch hquery)⟩
  · rintro ⟨hfound, hlisted⟩
    have hended := walk_ends h limits (entries.length + 1) 0 none hs (by omega)
    refine ⟨entries.length + 1, hended, ?_, ?_, ?_, ?_⟩
    · rw [hentries _ hended]
      exact List.pairwise_insertionSort _ entries
    · rw [hentries _ hended]
      exact hperm.nodup_iff.mpr honce
    · intro metadata hmem
      rw [hentries _ hended] at hmem
      exact hfound metadata (hperm.mem_iff.mp hmem)
    · intro kind key object hlookup
      obtain ⟨hkind, hkey, hmatch⟩ := hlisted kind key object hlookup
      rw [hentries _ hended]
      exact ⟨hkind, hkey, fun hquery => hperm.mem_iff.mpr (hmatch hquery)⟩

theorem normalizeKind_ok {value : String} {kind : CacheStoreKind}
    (h : normalizeKind value = .ok kind) : kind.name = value := by
  unfold normalizeKind at h
  cases hparse : parseKind value with
  | none =>
    rw [hparse] at h
    cases h
  | some kind' =>
    rw [hparse] at h
    cases h
    unfold parseKind at hparse
    have hname := List.find?_some hparse
    exact beq_iff_eq.mp hname

theorem normalizeKind_name (kind : CacheStoreKind) : normalizeKind kind.name = .ok kind := by
  unfold normalizeKind
  rw [parseKind_name]

theorem normalizeKey_ok {key key' : String} (h : normalizeKey key = .ok key') :
    key' = trim key ∧ normalizeKey key' = .ok key' := by
  unfold normalizeKey at h ⊢
  split at h
  · cases h
  · next hne =>
    cases h
    rw [trim_trim, if_neg hne]
    exact ⟨rfl, rfl⟩

theorem get?_of_erase {ν : Type} {m : OrdMap String ν} {k k' : String} {v : ν}
    (h : (m.erase k').get? k = some v) : m.get? k = some v := by
  rw [OrdMap.get?_erase] at h
  split at h
  · cases h
  · exact h

end ListingLemmas

end

open ListingLemmas

/-! ## The memory store -/

section
variable {C : Collation} {policy : CacheStorePolicy} {nowSec : Int} {records : Records}

/-- What `get` returns, at a time. -/
def Records.lookup (policy : CacheStorePolicy) (nowSec : Int) (records : Records)
    (kind key : String) : Option CacheStoreObject :=
  match records.get policy nowSec kind key with
  | .ok (object, _) => object
  | .error _ => none

/-- Each record is kept under its own kind and key. -/
def Records.Keyed (records : Records) : Prop :=
  ∀ s record, records.get? s = some record →
    s = toStorageKey record.metadata.kind record.metadata.key ∧
      normalizeKey record.metadata.key = .ok record.metadata.key

/-- What a listing cuts its pages from. -/
def Records.listed (policy : CacheStorePolicy) (nowSec : Int) (records : Records)
    (query : CacheStoreListQuery) : List CacheStoreMetadata :=
  ((records.pruneExpiredRecords policy nowSec).values.map CacheStoreObject.metadata).filter
    fun metadata => metadataMatchesQuery metadata query

namespace ListingLemmas

theorem keyed_of_get? {next : Records} (h : records.Keyed)
    (hnext : ∀ s record, next.get? s = some record → records.get? s = some record) : next.Keyed :=
  fun s record hrecord => h s record (hnext s record hrecord)

/-- A call leaves the records under their own keys. -/
theorem keyed_step (h : records.Keyed) (timed : TimedCall) :
    (records.step C policy timed).Keyed := by
  obtain ⟨nowSec, call⟩ := timed
  cases call with
  | put request =>
    dsimp only [Records.step, Records.call, Records.put]
    cases hkind : normalizeKind request.kind with
    | error message => exact h
    | ok kind =>
      cases hkey : normalizeKey request.key with
      | error message => exact h
      | ok key =>
        intro s record hrecord
        simp only [bind, Except.bind, pure, Except.pure, get?_enforceMaxBytesLimit] at hrecord
        split at hrecord
        · cases hrecord
        · rw [OrdMap.get?_set] at hrecord
          split at hrecord
          · next hsame =>
            cases hrecord
            exact ⟨hsame, (normalizeKey_ok hkey).2⟩
          · exact h s record (get?_pruneExpiredRecords.mp hrecord).1
  | get kind key =>
    dsimp only [Records.step, Records.call, Records.get]
    cases hkind : normalizeKind kind with
    | error message => exact h
    | ok kind' =>
      cases hkey : normalizeKey key with
      | error message => exact h
      | ok key' =>
        simp only [bind, Except.bind, pure, Except.pure]
        cases hfound : records.get? (toStorageKey kind' key') with
        | none => exact h
        | some found =>
          dsimp only
          cases hexpired : isExpiredByPolicy found.metadata policy nowSec with
          | true => exact keyed_of_get? h fun _ _ => get?_of_erase
          | false => exact h
  | delete kind key =>
    dsimp only [Records.step, Records.call, Records.remove]
    cases hkind : normalizeKind kind with
    | error message => exact h
    | ok kind' =>
      cases hkey : normalizeKey key with
      | error message => exact h
      | ok key' => exact keyed_of_get? h fun _ _ => get?_of_erase
  | list query =>
    exact keyed_of_get? h fun _ _ hrecord => (get?_pruneExpiredRecords.mp hrecord).1

/-- Pruning again at the same time changes nothing. -/
theorem pruneExpiredRecords_twice (policy : CacheStorePolicy) (nowSec : Int) (records : Records) :
    (records.pruneExpiredRecords policy nowSec).pruneExpiredRecords policy nowSec =
      records.pruneExpiredRecords policy nowSec := by
  unfold Records.pruneExpiredRecords OrdMap.filter
  simp only [List.filter_filter, Bool.and_self]

theorem records_listsAlways (C : Collation) (policy : CacheStorePolicy) (nowSec : Int)
    (records : Records) (query : CacheStoreListQuery) :
    ListsAlways (Records.list C policy nowSec) query C (records.listed policy nowSec query)
      fun next : Records =>
        next.pruneExpiredRecords policy nowSec = records.pruneExpiredRecords policy nowSec := by
  intro next hnext limit cursor
  unfold Records.list Records.listed
  dsimp only
  rw [hnext]
  exact ⟨rfl, pruneExpiredRecords_twice policy nowSec records⟩

/-- What `get` finds is the record of the kind and the key, unless it has expired. -/
theorem lookup_records {kind key : String} {object : CacheStoreObject}
    (h : records.lookup policy nowSec kind key = some object) :
    ∃ kind' key', normalizeKind kind = .ok kind' ∧ normalizeKey key = .ok key' ∧
      (records.pruneExpiredRecords policy nowSec).get? (toStorageKey kind' key') = some object := by
  unfold Records.lookup Records.get at h
  cases hkind : normalizeKind kind with
  | error message =>
    rw [hkind] at h
    cases h
  | ok kind' =>
    cases hkey : normalizeKey key with
    | error message =>
      rw [hkind, hkey] at h
      cases h
    | ok key' =>
      rw [hkind, hkey] at h
      simp only [bind, Except.bind, pure, Except.pure] at h
      refine ⟨kind', key', rfl, rfl, ?_⟩
      rw [get?_pruneExpiredRecords]
      cases hfound : records.get? (toStorageKey kind' key') with
      | none =>
        rw [hfound] at h
        cases h
      | some found =>
        rw [hfound] at h
        dsimp only at h
        cases hexpired : isExpiredByPolicy found.metadata policy nowSec with
        | true =>
          rw [hexpired] at h
          cases h
        | false =>
          rw [hexpired] at h
          cases h
          exact ⟨rfl, hexpired⟩

/-- A record that has not expired is found. -/
theorem lookup_of_records {kind : CacheStoreKind} {key : String} {object : CacheStoreObject}
    (hkey : normalizeKey key = .ok key)
    (h : (records.pruneExpiredRecords policy nowSec).get? (toStorageKey kind key) = some object) :
    records.lookup policy nowSec kind.name key = some object := by
  obtain ⟨hfound, hlive⟩ := get?_pruneExpiredRecords.mp h
  unfold Records.lookup Records.get
  rw [normalizeKind_name, hkey]
  simp only [bind, Except.bind, pure, Except.pure, hfound, hlive, Bool.false_eq_true, if_false]

theorem mem_listed {query : CacheStoreListQuery} {metadata : CacheStoreMetadata} :
    metadata ∈ records.listed policy nowSec query ↔
      metadataMatchesQuery metadata query = true ∧ ∃ s record,
        (records.pruneExpiredRecords policy nowSec).get? s = some record ∧
          record.metadata = metadata := by
  unfold Records.listed OrdMap.values
  rw [List.mem_filter, List.mem_map, and_comm]
  refine and_congr_right fun _ => ?_
  constructor
  · rintro ⟨record, hrecord, hmetadata⟩
    obtain ⟨⟨s, _⟩, hentry, rfl⟩ := List.mem_map.mp hrecord
    exact ⟨s, _, OrdMap.get?_eq_some_iff.mpr hentry, hmetadata⟩
  · rintro ⟨s, record, hrecord, hmetadata⟩
    exact ⟨record, List.mem_map_of_mem (OrdMap.get?_eq_some_iff.mp hrecord), hmetadata⟩

/-- No two records have the same metadata. -/
theorem nodup_listed (h : records.Keyed) (query : CacheStoreListQuery) :
    (records.listed policy nowSec query).Nodup := by
  refine List.Nodup.filter _ (List.Nodup.of_map
    (fun metadata : CacheStoreMetadata => toStorageKey metadata.kind metadata.key) ?_)
  have hkeys : ((records.pruneExpiredRecords policy nowSec).values.map
      CacheStoreObject.metadata).map (fun metadata => toStorageKey metadata.kind metadata.key) =
        (records.pruneExpiredRecords policy nowSec).keys := by
    unfold OrdMap.values OrdMap.keys
    rw [List.map_map, List.map_map]
    refine List.map_congr_left fun entry hentry => ?_
    have hrecord := get?_pruneExpiredRecords.mp (OrdMap.get?_eq_some_iff.mpr hentry)
    exact (h entry.1 entry.2 hrecord.1).1.symm
  rw [hkeys]
  exact (records.pruneExpiredRecords policy nowSec).nodup

theorem records_listsLookup (h : records.Keyed) (C : Collation) (query : CacheStoreListQuery)
    (limits : Nat → Option JsNumber) :
    ∃ n, ListsLookup C (records.lookup policy nowSec) query
      (walk (Records.list C policy nowSec) query limits n 0 none records) := by
  refine (listsLookup_iff (records_listsAlways C policy nowSec records query) limits rfl
    (nodup_listed h query)).mpr ⟨?_, ?_⟩
  · intro metadata hmem
    obtain ⟨hmatch, s, record, hrecord, rfl⟩ := mem_listed.mp hmem
    obtain ⟨hs, hkey⟩ := h s record (get?_pruneExpiredRecords.mp hrecord).1
    rw [hs] at hrecord
    exact ⟨hmatch, record, lookup_of_records hkey hrecord, rfl⟩
  · intro kind key object hlookup
    obtain ⟨kind', key', hkind, hkey, hrecord⟩ := lookup_records hlookup
    obtain ⟨hs, hown⟩ := h _ object (get?_pruneExpiredRecords.mp hrecord).1
    obtain ⟨rfl, hkey'⟩ := normalizeKey_ok hkey
    -- A storage key has one kind and one key.
    have hparse := fromStorageKey_toStorageKey kind' (normalizeKey_ne hkey')
    rw [hs, fromStorageKey_toStorageKey _ (normalizeKey_ne hown)] at hparse
    obtain ⟨hkind', hkey''⟩ := Prod.mk.inj (Option.some.inj hparse)
    refine ⟨?_, hkey'', fun hmatch => mem_listed.mpr ⟨hmatch, _, object, hrecord, rfl⟩⟩
    rw [hkind']
    exact normalizeKind_ok hkind

end ListingLemmas

end

/-! ## The R2 store -/

section
variable {H : BucketHost} {pre : String} {policy : CacheStorePolicy} {nowSec : Int} {bucket : Bucket}

/-- Deletions leave the others in the order of the bucket, which lists its objects by their keys. -/
def BucketHost.Steady (H : BucketHost) : Prop :=
  ∀ (bucket : Bucket) (pre : String) (r2Keys : List String),
    (H.pages (bucket.deleteAll r2Keys) pre).flatten =
      (H.pages bucket pre).flatten.filter fun e => !decide (e.1 ∈ r2Keys)

/-- The bucket after a call. -/
def Bucket.step (H : BucketHost) (pre : String) (policy : CacheStorePolicy) (bucket : Bucket)
    (timed : TimedCall) : Bucket :=
  (bucket.call H pre policy timed.1 timed.2).1

/-- What `get` returns, at a time. -/
def Bucket.lookup (pre : String) (policy : CacheStorePolicy) (nowSec : Int) (bucket : Bucket)
    (kind key : String) : Option CacheStoreObject :=
  match bucket.get pre policy nowSec kind key with
  | .ok (object, _) => object
  | .error _ => none

/-- The objects under the prefix are as `put` writes them: the metadata has the kind and the key. -/
def Bucket.Own (pre : String) (bucket : Bucket) : Prop :=
  ∀ r2Key object, bucket.get? r2Key = some object → startsWith r2Key pre = true →
    ∃ kind key, r2Key = toR2Key pre kind key ∧ normalizeKey key = .ok key ∧
      object.customMetadata.get? "kind" = some kind.name ∧
      object.customMetadata.get? "key" = some key

/-- What a listing cuts its pages from. -/
def Bucket.listed (H : BucketHost) (pre : String) (policy : CacheStorePolicy) (nowSec : Int)
    (bucket : Bucket) (query : CacheStoreListQuery) : List CacheStoreMetadata :=
  (((bucket.listPolicyEntries H pre nowSec).filter fun entry =>
    !isExpiredByPolicy entry.metadata policy nowSec).map R2PolicyEntry.metadata).filter
      fun metadata => metadataMatchesQuery metadata query

/-- The upload of an object, or the time of the call. -/
def R2Object.uploadedSec (object : R2Object) (nowSec : Int) : Int :=
  (object.uploaded.map (max 0)).getD nowSec

/-- The metadata of an object says no more than its place and its upload. -/
structure R2Object.Plain (object : R2Object) (nowSec : Int) : Prop where
  texts : ∀ name ∈ ["room", "ref", "content_hash"], textOf object.customMetadata name = none
  time : parseUpdatedAt (object.customMetadata.get? "updated_at") (object.uploadedSec nowSec) =
    object.uploadedSec nowSec

/-- A listing shows all that `get` reads of the object. -/
structure BucketHost.Shows (H : BucketHost) (object : R2Object) (nowSec : Int) : Prop where
  contentType : (H.listedAs object).contentType = object.contentType ∨
    object.contentType.filter (· ≠ "") = none
  customMetadata : (H.listedAs object).customMetadata = object.customMetadata ∨
    object.Plain nowSec

/-- A listing for the query returns such an entry. -/
def Selected (policy : CacheStorePolicy) (query : CacheStoreListQuery) (nowSec : Int)
    (metadata : CacheStoreMetadata) : Prop :=
  isExpiredByPolicy metadata policy nowSec = false ∧ metadataMatchesQuery metadata query = true

/-- The listing shows the objects that the query asks for, by their own metadata or by what the
listing shows of it. -/
def Bucket.Shown (H : BucketHost) (pre : String) (policy : CacheStorePolicy) (nowSec : Int)
    (query : CacheStoreListQuery) (bucket : Bucket) : Prop :=
  ∀ kind key object, bucket.get? (toR2Key pre kind key) = some object →
    Selected policy query nowSec (toMetadataFromR2Object kind key object nowSec) ∨
      Selected policy query nowSec (toMetadataFromR2Object kind key (H.listedAs object) nowSec) →
    H.Shows object nowSec

namespace ListingLemmas

theorem own_of_get? {next : Bucket} (h : bucket.Own pre)
    (hnext : ∀ r2Key object, next.get? r2Key = some object → bucket.get? r2Key = some object) :
    next.Own pre :=
  fun r2Key object hobject => h r2Key object (hnext r2Key object hobject)

/-- A lookup changes the bucket at most by deleting an object. -/
theorem get_bucket {kind key : String} {object : Option CacheStoreObject} {next : Bucket}
    (h : bucket.get pre policy nowSec kind key = .ok (object, next)) (r2Key : String)
    (stored : R2Object) (hnext : next.get? r2Key = some stored) :
    bucket.get? r2Key = some stored := by
  unfold Bucket.get at h
  cases hkind : normalizeKind kind with
  | error message =>
    rw [hkind] at h
    cases h
  | ok kind' =>
    cases hkey : normalizeKey key with
    | error message =>
      rw [hkind, hkey] at h
      cases h
    | ok key' =>
      rw [hkind, hkey] at h
      simp only [bind, Except.bind, pure, Except.pure] at h
      cases hfound : bucket.get? (toR2Key pre kind' key') with
      | none =>
        rw [hfound] at h
        cases h
        exact hnext
      | some found =>
        rw [hfound] at h
        dsimp only at h
        split at h
        · cases h
          exact get?_of_erase hnext
        · cases h
          exact hnext

theorem get?_toR2Metadata (H : BucketHost) (request : CacheStorePutRequest) (kind : CacheStoreKind)
    (key : String) (nowSec : Int) :
    (toR2Metadata H request kind key nowSec).get? "kind" = some kind.name ∧
      (toR2Metadata H request kind key nowSec).get? "key" = some key := by
  unfold toR2Metadata
  simp only [get?_setText, OrdMap.get?_set]
  exact ⟨rfl, rfl⟩

/-- A call leaves the objects under the prefix as `put` writes them. -/
theorem own_step (h : bucket.Own pre) (timed : TimedCall) :
    (bucket.step H pre policy timed).Own pre := by
  obtain ⟨nowSec, call⟩ := timed
  cases call with
  | put request =>
    dsimp only [Bucket.step, Bucket.call, Bucket.put]
    cases hkind : normalizeKind request.kind with
    | error message => exact h
    | ok kind =>
      cases hkey : normalizeKey request.key with
      | error message => exact h
      | ok key =>
        intro r2Key object hobject hpre
        have hset := get?_of_applyPolicyAfterWrite hobject
        rw [OrdMap.get?_set] at hset
        split at hset
        · next hsame =>
          cases hset
          exact ⟨kind, key, hsame, (normalizeKey_ok hkey).2, get?_toR2Metadata H request kind key _⟩
        · exact h r2Key object hset hpre
  | get kind key =>
    dsimp only [Bucket.step, Bucket.call]
    cases hget : bucket.get pre policy nowSec kind key with
    | error message => exact h
    | ok found => exact own_of_get? h (get_bucket hget)
  | delete kind key =>
    dsimp only [Bucket.step, Bucket.call, Bucket.remove]
    cases hget : bucket.get pre policy nowSec kind key with
    | error message => exact h
    | ok found =>
      obtain ⟨existing, next⟩ := found
      have hnext : next.Own pre := own_of_get? h (get_bucket hget)
      cases existing with
      | none => exact hnext
      | some object =>
        simp only [bind, Except.bind]
        cases normalizeKind kind with
        | error message => exact h
        | ok kind' =>
          cases normalizeKey key with
          | error message => exact h
          | ok key' => exact own_of_get? hnext fun _ _ => get?_of_erase
  | list query => exact own_of_get? h fun _ _ => get?_of_pruneExpiredPolicyEntries

/-- The entries of a bucket without some objects. -/
theorem listPolicyEntries_deleteAll (hsteady : H.Steady) (pre : String) (nowSec : Int)
    (bucket : Bucket) (r2Keys : List String) :
    (bucket.deleteAll r2Keys).listPolicyEntries H pre nowSec =
      (bucket.listPolicyEntries H pre nowSec).filter
        fun entry => !decide (entry.r2Key ∈ r2Keys) := by
  unfold Bucket.listPolicyEntries
  rw [hsteady, List.filterMap_filter, List.filter_filterMap]
  refine List.filterMap_congr fun e _ => ?_
  obtain ⟨r2Key, object⟩ := e
  cases hparsed : parseR2Key pre r2Key with
  | none => simp [hparsed]
  | some parsed =>
    by_cases hdeleted : r2Key ∈ r2Keys
    · simp [hparsed, hdeleted, Option.filter_some]
    · simp [hparsed, hdeleted, Option.filter_some]

/-- A listing deletes what it does not list, and the next one lists the same. -/
theorem listed_pruned (hsteady : H.Steady) (pre : String) (policy : CacheStorePolicy) (nowSec : Int)
    (bucket : Bucket) :
    (((bucket.pruneExpiredPolicyEntries policy nowSec
      (bucket.listPolicyEntries H pre nowSec)).2.listPolicyEntries H pre nowSec).filter
        fun entry => !isExpiredByPolicy entry.metadata policy nowSec) =
      (bucket.listPolicyEntries H pre nowSec).filter
        fun entry => !isExpiredByPolicy entry.metadata policy nowSec := by
  unfold Bucket.pruneExpiredPolicyEntries
  dsimp only
  rw [listPolicyEntries_deleteAll hsteady, List.filter_filter]
  refine List.filter_congr fun entry hentry => ?_
  cases hexpired : isExpiredByPolicy entry.metadata policy nowSec with
  | true => rfl
  | false =>
    rw [Bool.not_false, Bool.true_and, Bool.not_eq_true', decide_eq_false_iff_not]
    intro hdeleted
    obtain ⟨entry', hentry', hsame⟩ := List.mem_map.mp hdeleted
    obtain ⟨hlisted', hexpired'⟩ := List.mem_filter.mp hentry'
    -- The keys of the entries are distinct.
    cases List.inj_on_of_nodup_map (nodup_listPolicyEntries H pre nowSec bucket) hlisted' hentry
      hsame
    rw [hexpired] at hexpired'
    cases hexpired'

theorem bucket_listsAlways (hsteady : H.Steady) (pre : String) (policy : CacheStorePolicy)
    (nowSec : Int) (bucket : Bucket) (query : CacheStoreListQuery) :
    ListsAlways (Bucket.list H pre policy nowSec) query H.toCollation
      (bucket.listed H pre policy nowSec query) fun next : Bucket =>
        ((next.listPolicyEntries H pre nowSec).filter fun entry =>
            !isExpiredByPolicy entry.metadata policy nowSec) =
          (bucket.listPolicyEntries H pre nowSec).filter fun entry =>
            !isExpiredByPolicy entry.metadata policy nowSec := by
  intro next hnext limit cursor
  refine ⟨?_, (listed_pruned hsteady pre policy nowSec next).trans hnext⟩
  unfold Bucket.list Bucket.listed Bucket.pruneExpiredPolicyEntries
  dsimp only
  rw [hnext]
  rfl

/-- The entries of a bucket are its objects under the prefix, as the listing shows them. -/
theorem mem_entries_own (h : bucket.Own pre) {entry : R2PolicyEntry} :
    entry ∈ bucket.listPolicyEntries H pre nowSec ↔
      ∃ kind key object, bucket.get? (toR2Key pre kind key) = some object ∧
        normalizeKey key = .ok key ∧
        entry = ⟨toR2Key pre kind key,
          toMetadataFromR2Object kind key (H.listedAs object) nowSec⟩ := by
  unfold Bucket.listPolicyEntries
  rw [List.mem_filterMap]
  constructor
  · rintro ⟨e, hmem, hentry⟩
    obtain ⟨⟨r2Key, object⟩, hunder, rfl⟩ :=
      List.mem_map.mp ((H.pages_perm bucket pre).mem_iff.mp hmem)
    obtain ⟨hstored, hpre⟩ := List.mem_filter.mp hunder
    have hobject := OrdMap.get?_eq_some_iff.mpr hstored
    obtain ⟨kind, key, rfl, hkey, -, -⟩ := h r2Key object hobject hpre
    dsimp only at hentry
    rw [parseR2Key_toR2Key pre kind (normalizeKey_ne hkey)] at hentry
    exact ⟨kind, key, object, hobject, hkey, (Option.some.inj hentry).symm⟩
  · rintro ⟨kind, key, object, hobject, hkey, rfl⟩
    refine ⟨(toR2Key pre kind key, H.listedAs object), (H.pages_perm bucket pre).mem_iff.mpr ?_, ?_⟩
    · refine List.mem_map.mpr ⟨(toR2Key pre kind key, object), List.mem_filter.mpr ⟨?_, ?_⟩, rfl⟩
      · exact OrdMap.get?_eq_some_iff.mp hobject
      · exact startsWith_append pre _
    · dsimp only
      rw [parseR2Key_toR2Key pre kind (normalizeKey_ne hkey)]
      rfl

/-- What `get` finds is the object of the kind and the key, unless it has expired. -/
theorem lookup_bucket {kind key : String} {object : CacheStoreObject}
    (h : bucket.lookup pre policy nowSec kind key = some object) :
    ∃ kind' key' stored, normalizeKind kind = .ok kind' ∧ normalizeKey key = .ok key' ∧
      bucket.get? (toR2Key pre kind' key') = some stored ∧
      object.metadata = toMetadataFromR2Object kind' key' stored nowSec ∧
      isExpiredByPolicy object.metadata policy nowSec = false := by
  unfold Bucket.lookup Bucket.get at h
  cases hkind : normalizeKind kind with
  | error message =>
    rw [hkind] at h
    cases h
  | ok kind' =>
    cases hkey : normalizeKey key with
    | error message =>
      rw [hkind, hkey] at h
      cases h
    | ok key' =>
      rw [hkind, hkey] at h
      simp only [bind, Except.bind, pure, Except.pure] at h
      cases hfound : bucket.get? (toR2Key pre kind' key') with
      | none =>
        rw [hfound] at h
        cases h
      | some stored =>
        rw [hfound] at h
        dsimp only at h
        cases hexpired : isExpiredByPolicy (toMetadataFromR2Object kind' key' stored nowSec) policy
          nowSec with
        | true =>
          rw [hexpired] at h
          cases h
        | false =>
          rw [hexpired] at h
          cases h
          exact ⟨kind', key', stored, rfl, rfl, hfound, rfl, hexpired⟩

/-- An object that has not expired is found. -/
theorem lookup_of_bucket {kind : CacheStoreKind} {key : String} {stored : R2Object}
    (hkey : normalizeKey key = .ok key) (hstored : bucket.get? (toR2Key pre kind key) = some stored)
    (hlive : isExpiredByPolicy (toMetadataFromR2Object kind key stored nowSec) policy nowSec = false) :
    bucket.lookup pre policy nowSec kind.name key =
      some ⟨stored.body, toMetadataFromR2Object kind key stored nowSec⟩ := by
  unfold Bucket.lookup Bucket.get
  rw [normalizeKind_name, hkey]
  simp only [bind, Except.bind, pure, Except.pure, hstored, hlive, Bool.false_eq_true, if_false]

theorem toStorageKey_inj {kind kind' : CacheStoreKind} {key key' : String} (hkey' : key' ≠ "")
    (h : toStorageKey kind key = toStorageKey kind' key') : kind = kind' ∧ key = key' := by
  have hparse := fromStorageKey_toStorageKey kind' hkey'
  by_cases hkey : key = ""
  · -- A storage key without a key is none.
    have hempty : fromStorageKey (toStorageKey kind "") = none := by cases kind <;> decide
    rw [← h, hkey, hempty] at hparse
    cases hparse
  · rw [← h, fromStorageKey_toStorageKey kind hkey] at hparse
    exact Prod.mk.inj (Option.some.inj hparse)

/-- An own object is at the place of its kind and its key. -/
theorem own_place (h : bucket.Own pre) {kind : CacheStoreKind} {key : String} {stored : R2Object}
    (hstored : bucket.get? (toR2Key pre kind key) = some stored) :
    normalizeKey key = .ok key ∧ stored.customMetadata.get? "kind" = some kind.name ∧
      stored.customMetadata.get? "key" = some key := by
  obtain ⟨kind', key', hsame, hkey', htexts⟩ := h _ stored hstored (startsWith_append pre _)
  obtain ⟨rfl, rfl⟩ := toStorageKey_inj (normalizeKey_ne hkey') (append_left_inj hsame)
  exact ⟨hkey', htexts⟩

/-- The metadata of an own object has the kind and the key of its place. -/
theorem metadata_own (h : bucket.Own pre) {kind : CacheStoreKind} {key : String}
    {stored : R2Object} (hstored : bucket.get? (toR2Key pre kind key) = some stored)
    (nowSec : Int) :
    (toMetadataFromR2Object kind key stored nowSec).kind = kind ∧
      (toMetadataFromR2Object kind key stored nowSec).key = key := by
  obtain ⟨hkey, hkindText, hkeyText⟩ := own_place h hstored
  unfold toMetadataFromR2Object textOf
  rw [hkindText, hkeyText]
  simp [parseKind_name, normalizeKey_ne hkey, Option.filter_some]

/-- So has what the listing shows of it. -/
theorem metadata_listed (h : bucket.Own pre) {kind : CacheStoreKind} {key : String}
    {stored : R2Object} (hstored : bucket.get? (toR2Key pre kind key) = some stored)
    (nowSec : Int) :
    (toMetadataFromR2Object kind key (H.listedAs stored) nowSec).kind = kind ∧
      (toMetadataFromR2Object kind key (H.listedAs stored) nowSec).key = key := by
  obtain hsame | hnone := (H.shownAs stored).customMetadata
  · have hown := metadata_own h hstored nowSec
    unfold toMetadataFromR2Object at hown ⊢
    rwa [hsame]
  · unfold toMetadataFromR2Object
    rw [hnone]
    exact ⟨rfl, rfl⟩

/-- A listing and `get` read the same of an object if and only if the listing shows what `get`
reads. -/
theorem metadata_eq_iff_shows (h : bucket.Own pre) {kind : CacheStoreKind} {key : String}
    {stored : R2Object} (hstored : bucket.get? (toR2Key pre kind key) = some stored) :
    toMetadataFromR2Object kind key (H.listedAs stored) nowSec =
        toMetadataFromR2Object kind key stored nowSec ↔ H.Shows stored nowSec := by
  obtain ⟨hkind, hkey⟩ := metadata_own h hstored nowSec
  obtain ⟨hkind', hkey'⟩ := metadata_listed (H := H) h hstored nowSec
  have hshown := H.shownAs stored
  have huploaded : (H.listedAs stored).uploadedSec nowSec = stored.uploadedSec nowSec := by
    unfold R2Object.uploadedSec
    rw [hshown.uploaded]
  constructor
  · intro hsame
    have hread : ∀ {α : Type} (read : CacheStoreMetadata → α),
        read (toMetadataFromR2Object kind key (H.listedAs stored) nowSec) =
          read (toMetadataFromR2Object kind key stored nowSec) := fun read => congrArg read hsame
    constructor
    · refine hshown.contentType.imp_right fun hnone => ?_
      have htype := hread CacheStoreMetadata.contentType
      unfold toMetadataFromR2Object at htype
      rw [hnone] at htype
      exact htype.symm
    · refine hshown.customMetadata.imp_right fun hnone => ?_
      have htime := hread CacheStoreMetadata.updatedAt
      have hroom := hread CacheStoreMetadata.room
      have href := hread CacheStoreMetadata.ref
      have hhash := hread CacheStoreMetadata.contentHash
      unfold toMetadataFromR2Object at htime hroom href hhash
      rw [hnone] at htime hroom href hhash
      refine ⟨?_, ?_⟩
      · simp only [List.forall_mem_cons, List.not_mem_nil, false_imp_iff, implies_true, and_true]
        exact ⟨hroom.symm, href.symm, hhash.symm⟩
      · exact htime.symm.trans huploaded
  · rintro ⟨htype, hcustom⟩
    have htypes : (H.listedAs stored).contentType.filter (· ≠ "") =
        stored.contentType.filter (· ≠ "") := by
      obtain hsame | hnone := hshown.contentType
      · rw [hsame]
      · obtain hsame | hempty := htype
        · rw [hsame]
        · rw [hnone, hempty]
          rfl
    have htexts : ∀ name ∈ ["room", "ref", "content_hash"],
        textOf (H.listedAs stored).customMetadata name = textOf stored.customMetadata name := by
      intro name hname
      obtain hsame | hnone := hshown.customMetadata
      · rw [hsame]
      · obtain hsame | hplain := hcustom
        · rw [hsame]
        · rw [hnone, hplain.texts name hname]
          rfl
    have htime : parseUpdatedAt ((H.listedAs stored).customMetadata.get? "updated_at")
          ((H.listedAs stored).uploadedSec nowSec) =
        parseUpdatedAt (stored.customMetadata.get? "updated_at") (stored.uploadedSec nowSec) := by
      rw [huploaded]
      obtain hsame | hnone := hshown.customMetadata
      · rw [hsame]
      · obtain hsame | hplain := hcustom
        · rw [hsame]
        · rw [hnone, hplain.time]
          rfl
    refine CacheStoreMetadata.ext (hkind'.trans hkind.symm) (hkey'.trans hkey.symm) ?_ htime
      (htexts "room" (by simp)) (htexts "ref" (by simp)) (htexts "content_hash" (by simp)) htypes
    exact congrArg List.length hshown.body

/-- What a listing returns: the selected objects, as the listing shows them. -/
theorem mem_bucket_listed (h : bucket.Own pre) {query : CacheStoreListQuery}
    {metadata : CacheStoreMetadata} :
    metadata ∈ bucket.listed H pre policy nowSec query ↔ ∃ kind key object,
      bucket.get? (toR2Key pre kind key) = some object ∧
        metadata = toMetadataFromR2Object kind key (H.listedAs object) nowSec ∧
        Selected policy query nowSec metadata := by
  unfold Bucket.listed
  rw [List.mem_filter, List.mem_map]
  constructor
  · rintro ⟨⟨entry, hentry, rfl⟩, hmatch⟩
    obtain ⟨hentry, hlive⟩ := List.mem_filter.mp hentry
    obtain ⟨kind, key, object, hobject, -, rfl⟩ := (mem_entries_own h).mp hentry
    exact ⟨kind, key, object, hobject, rfl, Bool.eq_false_of_not_eq_true' hlive, hmatch⟩
  · rintro ⟨kind, key, object, hobject, rfl, hlive, hmatch⟩
    refine ⟨⟨⟨toR2Key pre kind key, _⟩, List.mem_filter.mpr ⟨(mem_entries_own h).mpr
      ⟨kind, key, object, hobject, (own_place h hobject).1, rfl⟩, ?_⟩, rfl⟩, hmatch⟩
    rw [hlive]
    rfl

/-- No two objects are listed with the same metadata. -/
theorem nodup_bucket_listed (h : bucket.Own pre) (query : CacheStoreListQuery) :
    (bucket.listed H pre policy nowSec query).Nodup := by
  -- The place of an entry is the one of its kind and key.
  refine List.Nodup.filter _ (List.Nodup.of_map
    (fun metadata : CacheStoreMetadata => toR2Key pre metadata.kind metadata.key) ?_)
  rw [List.map_map, List.map_congr_left (g := R2PolicyEntry.r2Key)]
  · exact (nodup_listPolicyEntries H pre nowSec bucket).sublist (List.filter_sublist.map _)
  · intro entry hentry
    obtain ⟨kind, key, object, hobject, -, rfl⟩ :=
      (mem_entries_own h).mp (List.mem_of_mem_filter hentry)
    obtain ⟨hkind, hkey⟩ := metadata_listed (H := H) h hobject nowSec
    dsimp only [Function.comp]
    rw [hkind, hkey]

theorem bucket_listsLookup_iff (hsteady : H.Steady) (h : bucket.Own pre)
    (query : CacheStoreListQuery) (limits : Nat → Option JsNumber) :
    (∃ n, ListsLookup H.toCollation (bucket.lookup pre policy nowSec) query
      (walk (Bucket.list H pre policy nowSec) query limits n 0 none bucket)) ↔
      bucket.Shown H pre policy nowSec query := by
  rw [listsLookup_iff (bucket_listsAlways hsteady pre policy nowSec bucket query) limits rfl
    (nodup_bucket_listed h query)]
  constructor
  · rintro ⟨hfound, hlisted⟩ kind key object hobject hselected
    obtain ⟨hkind, hkey⟩ := metadata_own h hobject nowSec
    obtain ⟨hkind', hkey'⟩ := metadata_listed (H := H) h hobject nowSec
    have hplace := (own_place h hobject).1
    refine (metadata_eq_iff_shows h hobject).mp ?_
    obtain ⟨hlive, hmatch⟩ | hselected := hselected
    · -- `get` finds the object, and it is listed.
      obtain ⟨-, -, hmem⟩ := hlisted _ _ _ (lookup_of_bucket hplace hobject hlive)
      obtain ⟨kind', key'', object', hobject', hsame, -⟩ := (mem_bucket_listed h).mp (hmem hmatch)
      obtain ⟨hkind'', hkey''⟩ := metadata_listed (H := H) h hobject' nowSec
      dsimp only at hsame
      rw [← hsame, hkind] at hkind''
      rw [← hsame, hkey] at hkey''
      subst hkind'' hkey''
      rw [hobject] at hobject'
      cases hobject'
      exact hsame.symm
    · -- The object is listed, and `get` finds it.
      obtain ⟨-, found, hlookup, hmetadata⟩ := hfound _ ((mem_bucket_listed h).mpr
        ⟨kind, key, object, hobject, rfl, hselected⟩)
      rw [hkind', hkey'] at hlookup
      obtain ⟨kind', key'', stored, hkind'', hkey'', hstored, hread, -⟩ := lookup_bucket hlookup
      rw [normalizeKind_name] at hkind''
      rw [hplace] at hkey''
      cases hkind''
      cases hkey''
      rw [hobject] at hstored
      cases hstored
      rw [← hmetadata, hread]
  · intro hshown
    have hsame : ∀ {kind key object}, bucket.get? (toR2Key pre kind key) = some object →
        Selected policy query nowSec (toMetadataFromR2Object kind key object nowSec) ∨
          Selected policy query nowSec (toMetadataFromR2Object kind key (H.listedAs object) nowSec) →
        toMetadataFromR2Object kind key (H.listedAs object) nowSec =
          toMetadataFromR2Object kind key object nowSec := fun hobject hselected =>
      (metadata_eq_iff_shows h hobject).mpr (hshown _ _ _ hobject hselected)
    refine ⟨?_, ?_⟩
    · intro metadata hmem
      obtain ⟨kind, key, object, hobject, rfl, hselected⟩ := (mem_bucket_listed h).mp hmem
      obtain ⟨hkind, hkey⟩ := metadata_own h hobject nowSec
      have hread := hsame hobject (.inr hselected)
      rw [hread] at hselected ⊢
      refine ⟨hselected.2, ⟨object.body, toMetadataFromR2Object kind key object nowSec⟩, ?_, rfl⟩
      rw [hkind, hkey]
      exact lookup_of_bucket (own_place h hobject).1 hobject hselected.1
    · intro kind key object hlookup
      obtain ⟨kind', key', stored, hkind, hkey, hstored, hmetadata, hlive⟩ := lookup_bucket hlookup
      obtain ⟨rfl, -⟩ := normalizeKey_ok hkey
      obtain ⟨hkind', hkey'⟩ := metadata_own h hstored nowSec
      rw [hmetadata] at hlive ⊢
      rw [hkind', hkey']
      refine ⟨normalizeKind_ok hkind, rfl, fun hmatch => ?_⟩
      have hread := hsame hstored (.inl ⟨hlive, hmatch⟩)
      rw [← hread] at hlive hmatch ⊢
      exact (mem_bucket_listed h).mpr ⟨kind', trim key, stored, hstored, rfl, hlive, hmatch⟩

end ListingLemmas

end

/-! ## Results -/

/-- After any calls the records are kept under their own kinds and keys. -/
theorem keyed_run (C : Collation) (policy : CacheStorePolicy) (calls : List TimedCall) :
    Records.Keyed (runFrom (Records.step C policy) ∅ calls) := by
  refine runFrom_invariant (I := Records.Keyed) (fun _ timed h => keyed_step h timed) calls ?_
  intro s record hrecord
  cases hrecord

/-- After any calls the objects under the prefix are as `put` writes them. -/
theorem own_run (H : BucketHost) {pre : String} (policy : CacheStorePolicy) {others : Bucket}
    (hothers : ∀ r2Key ∈ others.keys, startsWith r2Key pre = false) (calls : List TimedCall) :
    Bucket.Own pre (runFrom (Bucket.step H pre policy) others calls) := by
  refine runFrom_invariant (I := Bucket.Own pre) (fun _ timed h => own_step h timed) calls ?_
  intro r2Key object hobject hpre
  have hkey : r2Key ∈ others.keys := List.mem_map_of_mem (OrdMap.get?_eq_some_iff.mp hobject)
  rw [hothers r2Key hkey] at hpre
  cases hpre

/-- Every walk through a listing returns what `get` finds, after any calls: in the memory store, and
in the R2 store if and only if the bucket shows what `get` reads of the objects asked for. The
bucket may hold other objects outside the prefix. -/
theorem listing_agrees_iff (H : BucketHost) (hsteady : H.Steady) (pre : Option String)
    (options : CacheStorePolicyOptions) (others : Bucket)
    (hothers : ∀ r2Key ∈ others.keys, startsWith r2Key (normalizeR2Prefix pre) = false)
    (calls : List TimedCall) (nowSec : Int) (query : CacheStoreListQuery)
    (limits : Nat → Option JsNumber) :
    let policy := normalizeCacheStorePolicy options
    let records : Records := runFrom (Records.step H.toCollation policy) ∅ calls
    let bucket : Bucket := runFrom (Bucket.step H (normalizeR2Prefix pre) policy) others calls
    (∃ n, ListsLookup H.toCollation (records.lookup policy nowSec) query
      (walk (Records.list H.toCollation policy nowSec) query limits n 0 none records)) ∧
    ((∃ n, ListsLookup H.toCollation (bucket.lookup (normalizeR2Prefix pre) policy nowSec) query
      (walk (Bucket.list H (normalizeR2Prefix pre) policy nowSec) query limits n 0 none bucket)) ↔
      bucket.Shown H (normalizeR2Prefix pre) policy nowSec query) := by
  intro policy records bucket
  exact ⟨records_listsLookup (keyed_run _ policy calls) H.toCollation query limits,
    bucket_listsLookup_iff hsteady (own_run H policy hothers calls) query limits⟩

/-- A bucket whose listing shows the metadata meets the condition. -/
theorem shown_of_keeps_metadata (H : StoreHost) (pre : String) (policy : CacheStorePolicy)
    (nowSec : Int) (query : CacheStoreListQuery) (bucket : Bucket) :
    bucket.Shown H pre policy nowSec query := by
  intro kind key object _ _
  constructor
  · rw [H.keeps_metadata]
    exact .inl rfl
  · rw [H.keeps_metadata]
    exact .inl rfl

theorem steady_codeUnits (listedAs : R2Object → R2Object)
    (shownAs : ∀ object : R2Object, object.ShownAs (listedAs object)) :
    (BucketHost.codeUnits listedAs shownAs).Steady := by
  intro bucket pre r2Keys
  have hentries : (bucket.deleteAll r2Keys).entries =
      bucket.entries.filter fun e => !decide (e.1 ∈ r2Keys) := by
    unfold Bucket.deleteAll
    induction r2Keys generalizing bucket with
    | nil => simp
    | cons r2Key rest ih =>
      rw [List.foldl_cons, ih]
      unfold OrdMap.erase OrdMap.filter
      dsimp only
      rw [List.filter_filter]
      refine List.filter_congr fun e _ => ?_
      by_cases hsame : e.1 = r2Key
      · simp [hsame]
      · simp [hsame]
  unfold BucketHost.codeUnits
  dsimp only
  rw [List.flatten_singleton, List.flatten_singleton, hentries, List.filter_comm, List.filter_map]
  rfl

/-- A bucket whose listing leaves the metadata out. -/
def BucketHost.withoutMetadata : BucketHost :=
  BucketHost.codeUnits (fun object => { object with contentType := none, customMetadata := ∅ })
    fun _ => ⟨rfl, rfl, .inr rfl, .inr rfl⟩

/-- Two objects, one of which has expired, on pages of one object. The metadata that the listing
leaves out says nothing of them. -/
theorem listing_agrees_iff_run :
    let policy := normalizeCacheStorePolicy ⟨some (.ofNat 10), none⟩
    let calls : List TimedCall :=
      [(0, .put ⟨"object", "k", [1], none, none, none, none, none⟩),
        (9, .put ⟨"ref", "main", [2, 3], none, none, none, none, none⟩)]
    let query : CacheStoreListQuery := ⟨none, none, none, none, none⟩
    let H := BucketHost.withoutMetadata
    let records : Records := runFrom (Records.step H.toCollation policy) ∅ calls
    let bucket : Bucket := runFrom (Bucket.step H (normalizeR2Prefix (some "cache")) policy)
      ((∅ : Bucket).set "elsewhere" ⟨[4], none, none, ∅⟩) calls
    (∃ n, ListsLookup H.toCollation (records.lookup policy 12) query
      (walk (Records.list H.toCollation policy 12) query (fun _ => some (.ofNat 1)) n 0 none
        records)) ∧
    ((∃ n, ListsLookup H.toCollation (bucket.lookup (normalizeR2Prefix (some "cache")) policy 12)
      query (walk (Bucket.list H (normalizeR2Prefix (some "cache")) policy 12) query
        (fun _ => some (.ofNat 1)) n 0 none bucket)) ↔
      bucket.Shown H (normalizeR2Prefix (some "cache")) policy 12 query) :=
  listing_agrees_iff BucketHost.withoutMetadata (steady_codeUnits _ _) (some "cache")
    ⟨some (.ofNat 10), none⟩ ((∅ : Bucket).set "elsewhere" ⟨[4], none, none, ∅⟩) (by decide) _ 12 _ _

/-- The listing of a room misses an object of the room. -/
theorem listing_misses_object :
    let policy := normalizeCacheStorePolicy ⟨none, none⟩
    let query : CacheStoreListQuery := ⟨none, none, some "main", none, none⟩
    let H := BucketHost.withoutMetadata
    let bucket : Bucket := runFrom (Bucket.step H (normalizeR2Prefix none) policy) ∅
      [(0, .put ⟨"object", "k", [1], some "main", none, none, none, none⟩)]
    ¬ ∃ n, ListsLookup H.toCollation (bucket.lookup (normalizeR2Prefix none) policy 0) query
      (walk (Bucket.list H (normalizeR2Prefix none) policy 0) query (fun _ => none) n 0 none
        bucket) := by
  intro policy query H bucket
  rintro ⟨n, hlists⟩
  have hfound : bucket.lookup (normalizeR2Prefix none) policy 0 "object" "k" =
      some ⟨[1], ⟨.object, "k", 1, 0, some "main", none, none, none⟩⟩ := by
    decide
  have hpage : (bucket.list H (normalizeR2Prefix none) policy 0 query).1 = ⟨[], none⟩ := by
    decide
  have hmem := (hlists.listed _ _ _ hfound).2.2 (by decide)
  cases n with
  | zero => cases hmem
  | succ n =>
    have hwalk : walk (Bucket.list H (normalizeR2Prefix none) policy 0) query (fun _ => none)
        (n + 1) 0 none bucket = [⟨[], none⟩] := by
      rw [walk]
      dsimp only
      rw [hpage]
    rw [hwalk] at hmem
    cases hmem

end Stores

end BitRelay
