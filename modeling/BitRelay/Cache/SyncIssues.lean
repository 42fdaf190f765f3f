import BitRelay.Cache.Writes

/-!
# Syncing the issues of a room

`syncIssues` of `relay_cache_adapter.ts`, from one call of the store to the next: the
events of the room behind a cursor, the snapshots of its issues, and the room's cursor.
The two loops over the listings are one loop with parameters. The read of the room's
cursor ends with a write to the table in memory, like the one of the persistence task.

Results:
1. `IssueLoader.step_unlimited`: loading leaves a store without limits alone.
2. `IssueSyncStage.stepsTo`: what a step of the call can do to the adapter and the stage.
-/

namespace BitRelay

/-! ## Loading records -/

/-- What `loadIssueEventsFromCache` and `loadIssueSnapshotsFromCache` look for. -/
structure IssueLoader (α : Type) where
  room : String
  pre : String
  pageSize : Nat
  limit : Nat
  /-- the other entries are skipped without a read -/
  wanted : CacheStoreMetadata → Bool
  parse : CacheStoreObject → Option α

inductive LoadStage (α : Type)
  | list (listCursor : Option String) (found : List α)
  | get (entry : CacheStoreMetadata) (rest : List CacheStoreMetadata) (listed : Option String)
      (found : List α)
  | loaded (found : List α)

def issueEventLoader (room : String) (after limit : Nat) : IssueLoader IssueCacheEventRecord where
  room
  pre := ISSUE_EVENT_KEY_PREFIX ++ room ++ "/"
  pageSize := max 100 (limit * 2)
  limit
  wanted entry := (parseIssueEventCursorFromKey room entry.key).any fun cursor =>
    decide (after < cursor)
  parse cached := (parseIssueCacheEventRecord cached).filter fun record =>
    record.room == room && decide (after < record.cursor)

def issueSnapshotLoader (room : String) (limit : Nat) : IssueLoader IssueCacheSnapshotRecord where
  room
  pre := ISSUE_SNAPSHOT_KEY_PREFIX ++ room ++ "/"
  pageSize := max 100 limit
  limit
  wanted _ := true
  parse cached := (parseIssueCacheSnapshotRecord cached).filter fun record => record.room == room

namespace IssueLoader

variable {α : Type} (A : CacheAdapterOptions) (loader : IssueLoader α)

/-- The way on from the end of a page. -/
def endPage (listed : Option String) (found : List α) : LoadStage α :=
  if loader.limit ≤ found.length ∨ listed = none then .loaded found else .list listed found

/-- The way on to the next entry that is read. -/
def nextEntry (listed : Option String) (found : List α) (entries : List CacheStoreMetadata) :
    LoadStage α :=
  match entries.dropWhile fun entry => !loader.wanted entry with
  | [] => loader.endPage listed found
  | entry :: rest => .get entry rest listed found

/-- The way on when an entry was read. -/
def afterRead (cached : Option CacheStoreObject) (rest : List CacheStoreMetadata)
    (listed : Option String) (found : List α) : LoadStage α :=
  match cached.bind loader.parse with
  | none => loader.nextEntry listed found rest
  | some record =>
    if loader.limit ≤ (found ++ [record]).length then .loaded (found ++ [record])
    else loader.nextEntry listed (found ++ [record]) rest

/-- One call of the loop and what it does up to the next one; `none` is a throw. -/
def step (s : CacheAdapterState) (answer : StoreAnswer) :
    LoadStage α → Option (CacheAdapterState × LoadStage α)
  | .list listCursor found =>
    if answer.ok then
      let (listed, cacheStore) := s.cacheStore.list A.collation
        ⟨some .object, some loader.pre, some loader.room, some loader.pageSize, listCursor⟩
        answer.nowSec
      some ({ s with cacheStore }, loader.nextEntry listed.cursor found listed.entries)
    else none
  | .get entry rest listed found =>
    -- An entry whose read throws is skipped.
    let (cached, s) := (getCacheObject entry.key s answer).getD (none, s)
    some (s, loader.afterRead cached rest listed found)
  | .loaded found => some (s, .loaded found)

end IssueLoader

/-! ## The call -/

/-- `RelayCacheIssueSyncResult` -/
structure IssueSyncResult where
  nextCursor : Nat
  roomCursor : Nat
  events : List IssueCacheEventRecord
  snapshots : List IssueCacheSnapshotRecord

/-- The arguments of `syncIssues`. -/
structure IssueSyncArgs where
  room : String
  after : Nat
  limit : Nat
  snapshotLimit : Nat

inductive IssueSyncStage
  | loadEvents (stage : LoadStage IssueCacheEventRecord)
  | loadSnapshots (events : List IssueCacheEventRecord) (stage : LoadStage IssueCacheSnapshotRecord)
  | readCursor (events : List IssueCacheEventRecord) (snapshots : List IssueCacheSnapshotRecord)
  | cursorRead (events : List IssueCacheEventRecord) (snapshots : List IssueCacheSnapshotRecord)
      (inMemory persisted : Nat)
  | returned (result : IssueSyncResult)

/-- The call before its first call of the store. -/
def IssueSyncStage.start : IssueSyncStage := .loadEvents (.list none [])

namespace IssueSyncStage

variable (A : CacheAdapterOptions) (args : IssueSyncArgs)

/-- `events.sort((a, b) => a.cursor - b.cursor)` -/
def sortEvents (events : List IssueCacheEventRecord) : List IssueCacheEventRecord :=
  events.insertionSort fun a b => a.cursor ≤ b.cursor

/-- `snapshots.sort((a, b) => a.issue_id.localeCompare(b.issue_id))` -/
def sortSnapshots (snapshots : List IssueCacheSnapshotRecord) : List IssueCacheSnapshotRecord :=
  snapshots.insertionSort fun a b => A.collation.le a.issueId b.issueId = true

/-- `normalizeLimit` -/
def normalizeLimit (limit : Nat) : Nat := max 1 limit

/-- The way on from a step of the loop over the events. -/
def ofEvents : LoadStage IssueCacheEventRecord → IssueSyncStage
  | .loaded found => .loadSnapshots (sortEvents found) (.list none [])
  | stage => .loadEvents stage

/-- The way on from a step of the loop over the snapshots. -/
def ofSnapshots (events : List IssueCacheEventRecord) :
    LoadStage IssueCacheSnapshotRecord → IssueSyncStage
  | .loaded found => .readCursor events (sortSnapshots A found)
  | stage => .loadSnapshots events stage

/-- The answer when a listing throws. -/
def failure : IssueSyncResult := ⟨args.after, args.after, [], []⟩

/-- The cursor of the last event. -/
def nextCursor (events : List IssueCacheEventRecord) : Nat :=
  (events.getLast?.map IssueCacheEventRecord.cursor).getD args.after

def eventLoader : IssueLoader IssueCacheEventRecord :=
  issueEventLoader args.room args.after (normalizeLimit args.limit)

def snapshotLoader : IssueLoader IssueCacheSnapshotRecord :=
  issueSnapshotLoader args.room (normalizeLimit args.snapshotLimit)

/-- One call of `syncIssues` and what it does up to the next one. -/
def step (s : CacheAdapterState) (answer : StoreAnswer) :
    IssueSyncStage → CacheAdapterState × IssueSyncStage
  | loadEvents stage =>
    match (eventLoader args).step A s answer stage with
    | some (s, stage) => (s, ofEvents stage)
    | none => (s, returned (failure args))
  | loadSnapshots events stage =>
    match (snapshotLoader args).step A s answer stage with
    | some (s, stage) => (s, ofSnapshots A events stage)
    | none => (s, returned (failure args))
  | readCursor events snapshots =>
    -- A read that throws counts as no record.
    let (cached, s) := (getCacheObject (issueCursorStorageKey args.room) s answer).getD (none, s)
    (s, cursorRead events snapshots (s.issueCursorByRoom.getD args.room 0)
      (cursorOf args.room cached))
  | cursorRead events snapshots inMemory persisted =>
    let roomCursor := max inMemory persisted
    ({ s with issueCursorByRoom := s.issueCursorByRoom.set args.room roomCursor },
      returned ⟨nextCursor args events, roomCursor, events, snapshots⟩)
  | returned result => (s, returned result)

end IssueSyncStage

/-! ## Over a store without limits -/

namespace SyncLemmas

variable {A : CacheAdapterOptions} {s : CacheAdapterState}

/-- A read leaves such a store alone, whatever the key. -/
theorem getCacheObject_state (hs : s.Unlimited) (key : String) (answer : StoreAnswer) :
    ((getCacheObject key s answer).getD (none, s)).2 = s := by
  unfold getCacheObject
  rw [MemoryCacheStore.get_unlimited hs]
  cases answer.ok with
  | false => rfl
  | true =>
    cases normalizeKey key with
    | error message => rfl
    | ok trimmed => rfl

/-- A record gives a cursor to rooms with proper names only. -/
theorem cursorOf_of_improper {room : String} (h : isValidRoomName room = false)
    (cached : Option CacheStoreObject) : cursorOf room cached = 0 := by
  unfold cursorOf
  cases hparse : cached.bind parseIssueCacheCursorRecord with
  | none => rfl
  | some record =>
    obtain ⟨value, -, hvalue⟩ := Option.bind_eq_some_iff.mp hparse
    have hroom : isValidRoomName record.room = true := by
      unfold parseIssueCacheCursorRecord at hvalue
      simp only [Option.bind_eq_bind, Option.bind_eq_some_iff] at hvalue
      obtain ⟨parsed, -, fields, -, hvalue⟩ := hvalue
      split at hvalue
      · cases hvalue
      · split at hvalue
        · cases hvalue
        · split at hvalue
          · cases hvalue
          · next hproper =>
            simp only [Option.bind_eq_some_iff] at hvalue
            obtain ⟨cursor, -, updatedAt, -, hvalue⟩ := hvalue
            cases hvalue
            exact eq_true_of_ne_false hproper
    have hne : record.room ≠ room := by
      rintro rfl
      rw [hroom] at h
      cases h
    exact if_neg hne

/-- What the read of the room's cursor finds. -/
theorem cursorOf_read (hs : s.Unlimited) (room : String) (nowSec : Nat) :
    cursorOf room ((getCacheObject (issueCursorStorageKey room) s ⟨true, nowSec⟩).getD
      (none, s)).1 = cursorOf room (s.object? (issueCursorStorageKey room)) := by
  cases hroom : isValidRoomName room with
  | false => rw [cursorOf_of_improper hroom, cursorOf_of_improper hroom]
  | true =>
    rw [getCacheObject_unlimited hs (freeText_cursor (freeText_room hroom))]
    rfl

end SyncLemmas

open SyncLemmas

variable {A : CacheAdapterOptions} {s : CacheAdapterState}

/-- Loading leaves such a store alone. -/
theorem IssueLoader.step_unlimited {α : Type} (hs : s.Unlimited) (loader : IssueLoader α)
    (nowSec : Nat) (stage : LoadStage α) :
    ∃ stage', loader.step A s ⟨true, nowSec⟩ stage = some (s, stage') := by
  cases stage with
  | list listCursor found =>
    simp only [IssueLoader.step, if_true, MemoryCacheStore.list_unlimited A.collation hs]
    exact ⟨_, rfl⟩
  | get entry rest listed found =>
    have hstate := getCacheObject_state hs entry.key ⟨true, nowSec⟩
    unfold IssueLoader.step
    exact ⟨_, congrArg (fun t => some (t, _)) hstate⟩
  | loaded found => exact ⟨_, rfl⟩

/-- What a step of the call does to the adapter: nothing, but for the write to the table. -/
inductive IssueSyncStage.StepsTo (args : IssueSyncArgs) (s : CacheAdapterState) :
    IssueSyncStage → CacheAdapterState → IssueSyncStage → Prop
  | loads {stage stage' : IssueSyncStage}
      (h : ∀ events snapshots inMemory persisted,
        stage ≠ cursorRead events snapshots inMemory persisted)
      (h' : ∀ events snapshots inMemory persisted,
        stage' ≠ cursorRead events snapshots inMemory persisted) : StepsTo args s stage s stage'
  | reads (events : List IssueCacheEventRecord) (snapshots : List IssueCacheSnapshotRecord) :
      StepsTo args s (readCursor events snapshots) s
        (cursorRead events snapshots (s.issueCursorByRoom.getD args.room 0)
          (cursorOf args.room (s.object? (issueCursorStorageKey args.room))))
  | writes (events : List IssueCacheEventRecord) (snapshots : List IssueCacheSnapshotRecord)
      (inMemory persisted : Nat) (result : IssueSyncResult) :
      StepsTo args s (cursorRead events snapshots inMemory persisted)
        { s with issueCursorByRoom := s.issueCursorByRoom.set args.room (max inMemory persisted) }
        (returned result)

theorem IssueSyncStage.stepsTo (hs : s.Unlimited) (args : IssueSyncArgs) (nowSec : Nat)
    (stage : IssueSyncStage) : ∃ s' stage', stage.step A args s ⟨true, nowSec⟩ = (s', stage') ∧
      stage.StepsTo args s s' stage' := by
  cases stage with
  | loadEvents stage =>
    obtain ⟨stage', hstep⟩ := (eventLoader args).step_unlimited (A := A) hs nowSec stage
    refine ⟨s, ofEvents stage', by simp only [step, hstep], .loads
      (fun _ _ _ _ => IssueSyncStage.noConfusion) fun _ _ _ _ => ?_⟩
    cases stage' <;> exact IssueSyncStage.noConfusion
  | loadSnapshots events stage =>
    obtain ⟨stage', hstep⟩ := (snapshotLoader args).step_unlimited (A := A) hs nowSec stage
    refine ⟨s, ofSnapshots A events stage', by simp only [step, hstep], .loads
      (fun _ _ _ _ => IssueSyncStage.noConfusion) fun _ _ _ _ => ?_⟩
    cases stage' <;> exact IssueSyncStage.noConfusion
  | readCursor events snapshots =>
    have hstate := getCacheObject_state hs (issueCursorStorageKey args.room) ⟨true, nowSec⟩
    have hcursor := cursorOf_read hs args.room nowSec
    refine ⟨_, _, ?_, .reads events snapshots⟩
    simp only [step, hstate, hcursor]
  | cursorRead events snapshots inMemory persisted => exact ⟨_, _, rfl, .writes _ _ _ _ _⟩
  | returned result =>
    exact ⟨_, _, rfl, .loads (fun _ _ _ _ => IssueSyncStage.noConfusion) fun _ _ _ _ =>
      IssueSyncStage.noConfusion⟩

end BitRelay
