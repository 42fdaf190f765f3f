import BitRelay.Cache.CursorRuns

/-!
# The loops that load issue records

`loadIssueEventsFromCache` and `loadIssueSnapshotsFromCache` page through a listing of the
store by offset and read its entries one by one. Over a store without limits that does
not change meanwhile, the pages are cut from one sorted listing: the loop reads it from
the front, skips what it does not look for, and stops at its limit.

Results:
1. `load_step`: a call of the store keeps what the loop is going to find, and leaves
   fewer calls to be made.
2. `load_start`: from the start, the loop finds the first records of the listing.
3. `sync_returns`: a whole call of `syncIssues` returns the events its loop finds, and its
   number of calls to the store is bounded by the number of records.
-/

namespace BitRelay

namespace IssueLoader

variable {α : Type} (A : CacheAdapterOptions) (s : CacheAdapterState) (loader : IssueLoader α)

/-- Whether an entry is in the loader's listing. -/
def lists (entry : CacheStoreMetadata) : Bool :=
  entry.kind == .object && startsWith entry.key loader.pre &&
    (loader.room == "" || entry.room == some loader.room)

/-- The listing that the pages are cut from. -/
def listing : List CacheStoreMetadata :=
  ((s.cacheStore.records.values.map CacheStoreObject.metadata).filter
    loader.lists).insertionSort fun a b => A.collation.metadataLe a b = true

/-- What the loop gets out of an entry. -/
def readEntry (entry : CacheStoreMetadata) : Option α :=
  if loader.wanted entry then
    ((getCacheObject entry.key s ⟨true, 0⟩).getD (none, s)).1.bind loader.parse
  else none

/-- The entries behind a page with this cursor. -/
def behind (listed : Option String) : List CacheStoreMetadata :=
  listed.elim [] fun listCursor =>
    (loader.listing A s).drop (normalizeOffset (some listCursor))

/-- The records that a loop at this stage is going to return. -/
def outcome : LoadStage α → List α
  | .list listCursor found =>
    (found ++ ((loader.listing A s).drop (normalizeOffset listCursor)).filterMap
      (loader.readEntry s)).take loader.limit
  | .get entry rest listed found =>
    (found ++ ((entry :: rest) ++ loader.behind A s listed).filterMap
      (loader.readEntry s)).take loader.limit
  | .loaded found => found

/-- A bound on the calls behind a page with this cursor. -/
def callsBehind (listed : Option String) : Nat :=
  listed.elim 0 fun listCursor =>
    2 * ((loader.listing A s).length - normalizeOffset (some listCursor)) + 1

/-- A bound on the calls that a loop at this stage is going to make. -/
def calls : LoadStage α → Nat
  | .list listCursor _ => 2 * ((loader.listing A s).length - normalizeOffset listCursor) + 1
  | .get _ rest listed _ => 1 + rest.length + loader.callsBehind A s listed
  | .loaded _ => 0

/-- A loop that goes on has not reached its limit, and reads only what it looks for. -/
def GoesOn : LoadStage α → Prop
  | .list _ found => found.length < loader.limit
  | .get entry _ _ found => loader.wanted entry = true ∧ found.length < loader.limit
  | .loaded _ => True

end IssueLoader

namespace LoadLemmas

variable {α : Type} {A : CacheAdapterOptions} {s : CacheAdapterState} {loader : IssueLoader α}

theorem normalizeOffset_none : normalizeOffset none = 0 := by decide

theorem normalizeOffset_toString (n : Nat) : normalizeOffset (some (toString n)) = n := by
  unfold normalizeOffset
  rw [Option.getD_some, parseInt10_toString]
  exact congrArg Int.toNat (max_eq_right (Int.natCast_nonneg n))

theorem listing_length_le (loader : IssueLoader α) :
    (loader.listing A s).length ≤ s.cacheStore.records.entries.length := by
  unfold IssueLoader.listing
  rw [List.length_insertionSort]
  refine Nat.le_trans (List.length_filter_le _ _) ?_
  rw [List.length_map]
  exact Nat.le_of_eq (List.length_map _)

/-- A read does not depend on the clock and leaves the store alone. -/
theorem getCacheObject_time (hs : s.Unlimited) (key : String) (nowSec : Nat) :
    (getCacheObject key s ⟨true, nowSec⟩).getD (none, s) =
      (((getCacheObject key s ⟨true, 0⟩).getD (none, s)).1, s) := by
  unfold getCacheObject
  simp only [MemoryCacheStore.get_unlimited hs, if_true]
  cases normalizeKey key with
  | error message => rfl
  | ok trimmed => rfl

/-- Entries that are skipped give nothing. -/
theorem filterMap_dropWhile (entries : List CacheStoreMetadata) :
    (entries.dropWhile fun entry => !loader.wanted entry).filterMap (loader.readEntry s) =
      entries.filterMap (loader.readEntry s) := by
  induction entries with
  | nil => rfl
  | cons entry rest ih =>
    cases hwanted : loader.wanted entry with
    | true => rw [List.dropWhile_cons_of_neg (by simp [hwanted])]
    | false =>
      have hnone : loader.readEntry s entry = none := by
        unfold IssueLoader.readEntry
        rw [hwanted]
        rfl
      rw [List.dropWhile_cons_of_pos (by simp [hwanted]), ih, List.filterMap_cons_none hnone]

/-- The loop at the end of a page or at one of its entries. -/
structure ComesTo (A : CacheAdapterOptions) (s : CacheAdapterState) (loader : IssueLoader α)
    (stage : LoadStage α) (records : List α) (calls : Nat) : Prop where
  goesOn : loader.GoesOn stage
  outcome : loader.outcome A s stage = records
  calls : loader.calls A s stage ≤ calls

theorem comesTo_endPage {listed : Option String} {found : List α}
    (hfound : found.length < loader.limit) :
    ComesTo A s loader (loader.endPage listed found)
      ((found ++ (loader.behind A s listed).filterMap (loader.readEntry s)).take loader.limit)
      (loader.callsBehind A s listed) := by
  unfold IssueLoader.endPage
  cases listed with
  | none =>
    rw [if_pos (.inr rfl)]
    refine ⟨trivial, ?_, Nat.le_refl 0⟩
    show found = (found ++ []).take loader.limit
    rw [List.append_nil, List.take_of_length_le (Nat.le_of_lt hfound)]
  | some listCursor =>
    have hnot : ¬ (loader.limit ≤ found.length ∨ some listCursor = none) :=
      not_or.mpr ⟨Nat.not_le.mpr hfound, Option.some_ne_none _⟩
    rw [if_neg hnot]
    exact ⟨hfound, rfl, Nat.le_refl _⟩

theorem comesTo_nextEntry {listed : Option String} {found : List α}
    (entries : List CacheStoreMetadata) (hfound : found.length < loader.limit) :
    ComesTo A s loader (loader.nextEntry listed found entries)
      ((found ++ (entries ++ loader.behind A s listed).filterMap (loader.readEntry s)).take
        loader.limit)
      (entries.length + loader.callsBehind A s listed) := by
  have hskip : (entries.dropWhile fun entry => !loader.wanted entry).filterMap
      (loader.readEntry s) = entries.filterMap (loader.readEntry s) := filterMap_dropWhile entries
  have hshort : (entries.dropWhile fun entry => !loader.wanted entry).length ≤ entries.length :=
    (List.dropWhile_suffix _).length_le
  have hhead := List.head?_dropWhile_not (fun entry => !loader.wanted entry) entries
  unfold IssueLoader.nextEntry
  rw [List.filterMap_append, ← hskip]
  generalize (entries.dropWhile fun entry => !loader.wanted entry) = left at hshort hhead
  cases left with
  | nil =>
    have hend : ComesTo A s loader (loader.endPage listed found) _ _ := comesTo_endPage hfound
    exact ⟨hend.goesOn, hend.outcome, Nat.le_trans hend.calls (Nat.le_add_left _ _)⟩
  | cons entry rest =>
    have hwanted : loader.wanted entry = true := by
      simpa using hhead
    refine ⟨⟨hwanted, hfound⟩, ?_, ?_⟩
    · show (found ++ ((entry :: rest) ++ _).filterMap _).take loader.limit = _
      rw [List.filterMap_append]
    · show 1 + rest.length + _ ≤ _
      rw [List.length_cons] at hshort
      exact Nat.add_le_add_right (Nat.add_comm 1 _ ▸ hshort) _

theorem comesTo_afterRead {entry : CacheStoreMetadata} {rest : List CacheStoreMetadata}
    {listed : Option String} {found : List α} (hwanted : loader.wanted entry = true)
    (hfound : found.length < loader.limit) :
    ComesTo A s loader
      (loader.afterRead ((getCacheObject entry.key s ⟨true, 0⟩).getD (none, s)).1 rest listed found)
      (loader.outcome A s (.get entry rest listed found))
      (rest.length + loader.callsBehind A s listed) := by
  have hread : loader.readEntry s entry =
      ((getCacheObject entry.key s ⟨true, 0⟩).getD (none, s)).1.bind loader.parse :=
    if_pos hwanted
  have houtcome : loader.outcome A s (.get entry rest listed found) =
      (found ++ (entry :: (rest ++ loader.behind A s listed)).filterMap
        (loader.readEntry s)).take loader.limit := rfl
  unfold IssueLoader.afterRead
  rw [houtcome, List.filterMap_cons, hread]
  generalize ((getCacheObject entry.key s ⟨true, 0⟩).getD (none, s)).1.bind loader.parse = parsed
  cases parsed with
  | none => exact comesTo_nextEntry rest hfound
  | some record =>
    simp only
    rw [List.append_cons found record (List.filterMap _ _)]
    split
    · next hfull =>
      -- The limit is reached with this record.
      have hlength : (found ++ [record]).length = loader.limit :=
        Nat.le_antisymm (by rw [List.length_append]; exact hfound) hfull
      refine ⟨trivial, ?_, Nat.zero_le _⟩
      show found ++ [record] = _
      rw [← hlength, List.take_left]
    · next hfull => exact comesTo_nextEntry rest (Nat.not_le.mp hfull)

/-- The page of a listing, and what is behind it. -/
theorem comesTo_page (hpage : 0 < loader.pageSize) {listCursor : Option String} {found : List α}
    (hfound : found.length < loader.limit) {page : CacheStoreListResult}
    (hlisted : page = paginateMetadata A.collation ((s.cacheStore.records.values.map
      CacheStoreObject.metadata).filter loader.lists)
        ⟨some .object, some loader.pre, some loader.room, some loader.pageSize, listCursor⟩) :
    ComesTo A s loader (loader.nextEntry page.cursor found page.entries)
      (loader.outcome A s (.list listCursor found))
      (2 * ((loader.listing A s).length - normalizeOffset listCursor)) := by
  have hentries : page.entries =
      ((loader.listing A s).drop (normalizeOffset listCursor)).take loader.pageSize := by
    rw [hlisted]
    show (List.drop _ _).take (max 1 loader.pageSize) = _
    rw [Nat.max_eq_right hpage]
    rfl
  have hcursor : page.cursor =
      if normalizeOffset listCursor + page.entries.length < (loader.listing A s).length then
        some (toString (normalizeOffset listCursor + page.entries.length)) else none := by
    rw [hlisted]
    rfl
  have hlength : page.entries.length =
      min loader.pageSize ((loader.listing A s).length - normalizeOffset listCursor) := by
    rw [hentries, List.length_take, List.length_drop]
  have hbehind : page.entries ++ loader.behind A s page.cursor =
      (loader.listing A s).drop (normalizeOffset listCursor) := by
    have hrest : loader.behind A s page.cursor = (loader.listing A s).drop
        (normalizeOffset listCursor + page.entries.length) := by
      rw [hcursor]
      split
      · unfold IssueLoader.behind
        rw [Option.elim_some, normalizeOffset_toString]
      · next hend => exact (List.drop_of_length_le (Nat.not_lt.mp hend)).symm
    have hfront : page.entries <+: (loader.listing A s).drop (normalizeOffset listCursor) := by
      rw [hentries]
      exact List.take_prefix _ _
    rw [hrest, ← List.drop_drop]
    exact List.prefix_iff_eq_append.mp hfront
  have hcalls : page.entries.length + loader.callsBehind A s page.cursor ≤
      2 * ((loader.listing A s).length - normalizeOffset listCursor) := by
    rw [hcursor]
    split
    · unfold IssueLoader.callsBehind
      rw [Option.elim_some, normalizeOffset_toString]
      omega
    · show page.entries.length + 0 ≤ _
      omega
  have hnext : ComesTo A s loader (loader.nextEntry page.cursor found page.entries) _ _ :=
    comesTo_nextEntry page.entries hfound
  rw [hbehind] at hnext
  exact ⟨hnext.goesOn, hnext.outcome, Nat.le_trans hnext.calls hcalls⟩

end LoadLemmas

open LoadLemmas

variable {α : Type} {A : CacheAdapterOptions} {s : CacheAdapterState} {loader : IssueLoader α}

/-- A call of the store keeps what the loop is going to find, and leaves fewer calls. -/
theorem load_step (hs : s.Unlimited) (hpage : 0 < loader.pageSize) (nowSec : Nat)
    {stage : LoadStage α} (h : loader.GoesOn stage) :
    ∃ stage', loader.step A s ⟨true, nowSec⟩ stage = some (s, stage') ∧
      ComesTo A s loader stage' (loader.outcome A s stage) (loader.calls A s stage - 1) := by
  cases stage with
  | list listCursor found =>
    refine ⟨_, ?_, comesTo_page hpage h rfl⟩
    simp only [IssueLoader.step, if_true, MemoryCacheStore.list_unlimited A.collation hs]
    rfl
  | get entry rest listed found =>
    have hafter : ComesTo A s loader (loader.afterRead ((getCacheObject entry.key s
        ⟨true, 0⟩).getD (none, s)).1 rest listed found) _ _ := comesTo_afterRead h.1 h.2
    refine ⟨_, ?_, hafter.goesOn, hafter.outcome, ?_⟩
    · simp only [IssueLoader.step, getCacheObject_time hs entry.key nowSec]
    · refine Nat.le_trans hafter.calls ?_
      show _ ≤ 1 + rest.length + loader.callsBehind A s listed - 1
      omega
  | loaded found => exact ⟨_, rfl, trivial, rfl, Nat.le_refl 0⟩

/-- The first stage of a loop. -/
theorem load_start (hlimit : 0 < loader.limit) :
    loader.GoesOn (.list none []) ∧
      loader.outcome A s (.list none []) =
        ((loader.listing A s).filterMap (loader.readEntry s)).take loader.limit ∧
      loader.calls A s (.list none []) ≤ 2 * s.cacheStore.records.entries.length + 1 := by
  refine ⟨hlimit, ?_, ?_⟩
  · simp only [IssueLoader.outcome, normalizeOffset_none, List.drop_zero, List.nil_append]
  · have hlength := listing_length_le (A := A) (s := s) loader
    simp only [IssueLoader.calls, normalizeOffset_none]
    omega

/-! ## The whole call -/

/-- A call of `syncIssues`, with the clock at each of its calls to the store. -/
def syncRun (A : CacheAdapterOptions) (args : IssueSyncArgs) (s : CacheAdapterState)
    (times : List Nat) : CacheAdapterState × IssueSyncStage :=
  runFrom (fun p nowSec => p.2.step A args p.1 ⟨true, nowSec⟩) (s, .start) times

def IssueSyncStage.result? : IssueSyncStage → Option IssueSyncResult
  | returned result => some result
  | _ => none

/-- What the loop over the events finds. -/
def foundEvents (A : CacheAdapterOptions) (args : IssueSyncArgs) (s : CacheAdapterState) :
    List IssueCacheEventRecord :=
  let loader := IssueSyncStage.eventLoader args
  ((loader.listing A s).filterMap (loader.readEntry s)).take loader.limit

/-- The greater one of the cursors in the table and in the store. -/
def syncedCursor (args : IssueSyncArgs) (s : CacheAdapterState) : Nat :=
  max (s.issueCursorByRoom.getD args.room 0) (CursorRun.storedCursor s args.room)

/-- The call from `s` on has come to this state and stage. -/
inductive SyncFits (A : CacheAdapterOptions) (args : IssueSyncArgs) (s : CacheAdapterState) :
    CacheAdapterState × IssueSyncStage → Prop
  | loadEvents {stage : LoadStage IssueCacheEventRecord}
      (goesOn : (IssueSyncStage.eventLoader args).GoesOn stage)
      (outcome : (IssueSyncStage.eventLoader args).outcome A s stage = foundEvents A args s) :
      SyncFits A args s (s, .loadEvents stage)
  | loadSnapshots {stage : LoadStage IssueCacheSnapshotRecord}
      (goesOn : (IssueSyncStage.snapshotLoader args).GoesOn stage) :
      SyncFits A args s (s, .loadSnapshots (IssueSyncStage.sortEvents (foundEvents A args s)) stage)
  | readCursor (snapshots : List IssueCacheSnapshotRecord) : SyncFits A args s
      (s, .readCursor (IssueSyncStage.sortEvents (foundEvents A args s)) snapshots)
  | cursorRead (snapshots : List IssueCacheSnapshotRecord) : SyncFits A args s
      (s, .cursorRead (IssueSyncStage.sortEvents (foundEvents A args s)) snapshots
        (s.issueCursorByRoom.getD args.room 0) (CursorRun.storedCursor s args.room))
  | returned (snapshots : List IssueCacheSnapshotRecord) : SyncFits A args s
      ({ s with
          issueCursorByRoom := s.issueCursorByRoom.set args.room (syncedCursor args s) },
        .returned ⟨IssueSyncStage.nextCursor args
            (IssueSyncStage.sortEvents (foundEvents A args s)), syncedCursor args s,
          IssueSyncStage.sortEvents (foundEvents A args s), snapshots⟩)

/-- A bound on the calls to the store that are still to come. -/
def callsLeft (A : CacheAdapterOptions) (args : IssueSyncArgs) (s : CacheAdapterState) :
    IssueSyncStage → Nat
  | .loadEvents stage =>
    (IssueSyncStage.eventLoader args).calls A s stage + 1 +
      (2 * s.cacheStore.records.entries.length + 4)
  | .loadSnapshots _ stage => (IssueSyncStage.snapshotLoader args).calls A s stage + 3
  | .readCursor _ _ => 2
  | .cursorRead _ _ _ _ => 1
  | .returned _ => 0

namespace LoadLemmas

variable {args : IssueSyncArgs}

theorem pageSize_eventLoader (args : IssueSyncArgs) :
    0 < (IssueSyncStage.eventLoader args).pageSize := by
  show 0 < max 100 _
  omega

theorem limit_eventLoader (args : IssueSyncArgs) :
    0 < (IssueSyncStage.eventLoader args).limit := by
  show 0 < max 1 _
  omega

theorem pageSize_snapshotLoader (args : IssueSyncArgs) :
    0 < (IssueSyncStage.snapshotLoader args).pageSize := by
  show 0 < max 100 _
  omega

theorem limit_snapshotLoader (args : IssueSyncArgs) :
    0 < (IssueSyncStage.snapshotLoader args).limit := by
  show 0 < max 1 _
  omega

/-- Where the loop over the events goes on to. -/
theorem fits_ofEvents {stage stage' : LoadStage IssueCacheEventRecord}
    (houtcome : (IssueSyncStage.eventLoader args).outcome A s stage = foundEvents A args s)
    (h : ComesTo A s (IssueSyncStage.eventLoader args) stage'
      ((IssueSyncStage.eventLoader args).outcome A s stage)
      ((IssueSyncStage.eventLoader args).calls A s stage - 1)) :
    SyncFits A args s (s, IssueSyncStage.ofEvents stage') ∧
      callsLeft A args s (IssueSyncStage.ofEvents stage') ≤
        callsLeft A args s (.loadEvents stage) - 1 := by
  have hcalls := h.calls
  have hsame := h.outcome.trans houtcome
  cases stage' with
  | list listCursor found =>
    refine ⟨.loadEvents h.goesOn hsame, ?_⟩
    simp only [IssueLoader.calls] at hcalls
    simp only [IssueSyncStage.ofEvents, callsLeft, IssueLoader.calls]
    omega
  | get entry rest listed found =>
    refine ⟨.loadEvents h.goesOn hsame, ?_⟩
    simp only [IssueLoader.calls] at hcalls
    simp only [IssueSyncStage.ofEvents, callsLeft, IssueLoader.calls]
    omega
  | loaded found =>
    obtain ⟨hgoesOn, -, hstart⟩ := load_start (A := A) (s := s) (limit_snapshotLoader args)
    obtain rfl : found = foundEvents A args s := hsame
    refine ⟨.loadSnapshots hgoesOn, ?_⟩
    simp only [IssueSyncStage.ofEvents, callsLeft]
    omega

/-- Where the loop over the snapshots goes on to. -/
theorem fits_ofSnapshots {stage stage' : LoadStage IssueCacheSnapshotRecord}
    {records : List IssueCacheSnapshotRecord}
    (h : ComesTo A s (IssueSyncStage.snapshotLoader args) stage' records
      ((IssueSyncStage.snapshotLoader args).calls A s stage - 1)) :
    SyncFits A args s (s, IssueSyncStage.ofSnapshots A
        (IssueSyncStage.sortEvents (foundEvents A args s)) stage') ∧
      callsLeft A args s (IssueSyncStage.ofSnapshots A
        (IssueSyncStage.sortEvents (foundEvents A args s)) stage') ≤
        callsLeft A args s (.loadSnapshots (IssueSyncStage.sortEvents (foundEvents A args s))
          stage) - 1 := by
  have hcalls := h.calls
  cases stage' with
  | list listCursor found =>
    refine ⟨.loadSnapshots h.goesOn, ?_⟩
    simp only [IssueLoader.calls] at hcalls
    simp only [IssueSyncStage.ofSnapshots, callsLeft, IssueLoader.calls]
    omega
  | get entry rest listed found =>
    refine ⟨.loadSnapshots h.goesOn, ?_⟩
    simp only [IssueLoader.calls] at hcalls
    simp only [IssueSyncStage.ofSnapshots, callsLeft, IssueLoader.calls]
    omega
  | loaded found =>
    refine ⟨.readCursor _, ?_⟩
    simp only [IssueSyncStage.ofSnapshots, callsLeft]
    omega

/-- One call to the store. -/
theorem fits_step (hs : s.Unlimited) {p : CacheAdapterState × IssueSyncStage} (nowSec : Nat)
    (h : SyncFits A args s p) :
    SyncFits A args s (p.2.step A args p.1 ⟨true, nowSec⟩) ∧
      callsLeft A args s (p.2.step A args p.1 ⟨true, nowSec⟩).2 ≤ callsLeft A args s p.2 - 1 := by
  cases h with
  | loadEvents goesOn outcome =>
    obtain ⟨stage', hstep, hcomes⟩ :=
      load_step (A := A) hs (pageSize_eventLoader args) nowSec goesOn
    simp only [IssueSyncStage.step, hstep]
    exact fits_ofEvents outcome hcomes
  | loadSnapshots goesOn =>
    obtain ⟨stage', hstep, hcomes⟩ :=
      load_step (A := A) hs (pageSize_snapshotLoader args) nowSec goesOn
    simp only [IssueSyncStage.step, hstep]
    exact fits_ofSnapshots hcomes
  | readCursor snapshots =>
    have hstate := SyncLemmas.getCacheObject_state hs (issueCursorStorageKey args.room)
      ⟨true, nowSec⟩
    have hcursor := SyncLemmas.cursorOf_read hs args.room nowSec
    simp only [IssueSyncStage.step, hstate, hcursor]
    exact ⟨.cursorRead snapshots, Nat.le_refl 1⟩
  | cursorRead snapshots => exact ⟨.returned snapshots, Nat.le_refl 0⟩
  | returned snapshots => exact ⟨.returned snapshots, Nat.le_refl 0⟩

end LoadLemmas

/-- A call of `syncIssues` returns: it makes no more calls to the store than four for each record
and six besides. -/
theorem sync_returns (hs : s.Unlimited) (args : IssueSyncArgs) {times : List Nat}
    (htimes : 4 * s.cacheStore.records.entries.length + 6 ≤ times.length) :
    ∃ result, syncRun A args s times =
        ({ s with issueCursorByRoom := s.issueCursorByRoom.set args.room (syncedCursor args s) },
          .returned result) ∧
      result.events = IssueSyncStage.sortEvents (foundEvents A args s) ∧
      result.nextCursor = IssueSyncStage.nextCursor args result.events ∧
      result.roomCursor = syncedCursor args s := by
  obtain ⟨hgoesOn, houtcome, hcalls⟩ := load_start (A := A) (s := s) (limit_eventLoader args)
  have hstart : SyncFits A args s (s, .start) := .loadEvents hgoesOn houtcome
  have hleft : callsLeft A args s .start ≤ times.length := by
    simp only [IssueSyncStage.start, callsLeft]
    omega
  obtain ⟨hfits, hrank⟩ := rank_runFrom_le (I := SyncFits A args s)
    (fun p => callsLeft A args s p.2) (fun p nowSec h => fits_step hs nowSec h) times hstart
  have hdone : callsLeft A args s (syncRun A args s times).2 = 0 :=
    Nat.le_zero.mp (Nat.le_trans hrank (Nat.le_of_eq (Nat.sub_eq_zero_of_le hleft)))
  have hfits : SyncFits A args s (syncRun A args s times) := hfits
  generalize syncRun A args s times = p at hfits hdone
  cases hfits with
  | returned snapshots => exact ⟨_, rfl, rfl, rfl, rfl⟩
  | loadEvents goesOn outcome => simp only [callsLeft, Nat.add_eq_zero_iff] at hdone; omega
  | loadSnapshots goesOn => simp only [callsLeft] at hdone; omega
  | readCursor snapshots => cases hdone
  | cursorRead snapshots => cases hdone

end BitRelay
