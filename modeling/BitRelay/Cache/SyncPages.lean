import BitRelay.Cache.EventKeys
import BitRelay.Cache.LoadLoop
import BitRelay.Cache.RecordedCursors
import BitRelay.Lib.CursorLog

/-!
# The pages of an issue sync

A client follows `next_cursor` from zero on, over what the adapter has written. The listing
under the room's prefix holds the events of the room and nothing else: the key of an event
gives its cursor, and the padding makes the order of the keys the order of the cursors. So
each call goes on where the one before it stopped.

Results:
1. `filed_step`: whatever the adapter files under the prefix of the events is the record of
   an issue event.
2. `foundEvents_eq`: the loop finds the first events behind the client's cursor.
3. `issue_sync_pages`: the pages of a walk are the events of the room, in order and once.
-/

namespace BitRelay

/-! ## The walk -/

/-- The listing has the event keys of the room with different cursors in ascending order of their
code units. -/
def Collation.Ascending (C : Collation) (room : String) : Prop :=
  ∀ cursor cursor' id id', cursor ≠ cursor' → cursor < 10 ^ ISSUE_CURSOR_PAD_WIDTH →
    cursor' < 10 ^ ISSUE_CURSOR_PAD_WIDTH →
    codeUnitLe (issueEventStorageKey room cursor id) (issueEventStorageKey room cursor' id') = true →
    C.le (issueEventStorageKey room cursor id) (issueEventStorageKey room cursor' id') = true

/-- One call of the walk, with the clock at each of its calls to the store. -/
structure SyncRequest where
  limit : Nat
  snapshotLimit : Nat
  times : List Nat

/-- The answers to a client that follows `next_cursor`; `none` when a call has not returned. -/
def syncWalk (A : CacheAdapterOptions) (room : String) :
    CacheAdapterState → Nat → List SyncRequest → Option (List IssueSyncResult)
  | _, _, [] => some []
  | s, after, request :: rest => do
    let (s, stage) :=
      syncRun A ⟨room, after, request.limit, request.snapshotLimit⟩ s request.times
    let result ← stage.result?
    let results ← syncWalk A room s result.nextCursor rest
    return result :: results

/-- The events that the answers return one after the other. -/
def returnedEvents (results : List IssueSyncResult) : List IssueCacheEventRecord :=
  results.flatMap IssueSyncResult.events

/-- The answers are the pages of the room's events. -/
structure PagesOf (s : CacheAdapterState) (room : String) (limits : List Nat)
    (results : List IssueSyncResult) : Prop where
  answered : results.length = limits.length
  returned : returnedEvents results = (CursorRun.recordedEvents s room).take limits.sum
  increasing : (returnedEvents results).Pairwise fun a b => a.cursor < b.cursor
  /-- behind an empty page there is nothing left -/
  complete : (∃ result ∈ results, result.events = []) →
    returnedEvents results = CursorRun.recordedEvents s room
  ends : (CursorRun.recordedEvents s room).length < limits.length →
    ∃ result ∈ results, result.events = []
  covered : ∀ result ∈ results, ∀ event ∈ CursorRun.recordedEvents s room,
    event.cursor ≤ result.roomCursor

/-- A record that was filed for the event of an issue envelope. -/
def EventRecord (A : CacheAdapterOptions) (value : CacheStoreObject) : Prop :=
  ∃ (handed : AcceptedEnvelope) (cursor updatedAt : Nat), handed.isIssue = true ∧ 0 < cursor ∧
    value = (issueEventRequest A handed.envelope cursor updatedAt).stored

/-- Every record stands under its own kind and key, and what stands under the prefix of the events
is one. -/
structure Filed (A : CacheAdapterOptions) (s : CacheAdapterState) : Prop where
  keyed : PullLemmas.Keyed s
  events : ∀ storageKey value, s.record? storageKey = some value →
    value.metadata.kind = .object →
    startsWith value.metadata.key ISSUE_EVENT_KEY_PREFIX = true → EventRecord A value

namespace SyncPageLemmas

open CursorLemmas CursorRun PullLemmas LoadLemmas

variable {A : CacheAdapterOptions} {s s' : CacheAdapterState} {p : CursorRun} {room : String}
  {t : IssueTask} {rest : List IssueTask} {done : List AcceptedEnvelope}
  {settled : List (Envelope × Nat)} {nowSec : Nat} {stage' : PersistStage}

/-! ## Keys -/

/-- What stands under the prefix of the events. -/
theorem under_events {key : String} (h : startsWith key ISSUE_EVENT_KEY_PREFIX = true) :
    ∃ rest, key = envelopeStorageKey "issue" ("events" ++ "/" ++ rest) := by
  obtain ⟨rest, rfl⟩ := exists_of_startsWith h
  refine ⟨rest, ?_⟩
  show "issue" ++ "/" ++ ("events" ++ "/") ++ rest = "issue" ++ "/" ++ ("events" ++ "/" ++ rest)
  simp only [String.append_assoc]

/-! ## What the adapter files -/

theorem filed_table (h : Filed A s) (issueCursorByRoom : OrdMap String Nat) :
    Filed A { s with issueCursorByRoom } :=
  ⟨h.keyed, h.events⟩

/-- A put that files the record of an event, or something that stands elsewhere. -/
theorem filed_store (h : Filed A s) {request : CacheStorePutRequest}
    (hrequest : request.kind = .object →
      startsWith request.key ISSUE_EVENT_KEY_PREFIX = true → EventRecord A request.stored) :
    Filed A (s.store request) := by
  refine ⟨keyed_store h.keyed request, fun storageKey value hvalue hkind hkey => ?_⟩
  rw [CacheAdapterState.record?_store] at hvalue
  split at hvalue
  · cases hvalue
    exact hrequest hkind hkey
  · exact h.events storageKey value hvalue hkind hkey

theorem filed_envelope (h : Filed A s) (handed : AcceptedEnvelope) (nowSec : Nat) :
    Filed A (s.store (envelopeRequest A handed.envelope nowSec)) := by
  refine filed_store h fun hkind hkey => ?_
  rcases handed.apart with htopic | hne
  · have hkind : (if isIssueTopic handed.envelope.topic then CacheStoreKind.issue else .object) =
        .object := hkind
    rw [htopic] at hkind
    cases hkind
  · obtain ⟨rest, hrest⟩ := under_events hkey
    exact absurd (envelopeStorageKey_inj (slash_notMem_room handed.storable.room) (by decide)
      hrest).1 hne

/-- Neither the snapshots nor the cursors stand under the prefix of the events. -/
theorem not_under_events {kind rest : String} (hslash : '/' ∉ kind.toList) (hne : kind ≠ "events") :
    ¬ startsWith (envelopeStorageKey "issue" (kind ++ "/" ++ rest)) ISSUE_EVENT_KEY_PREFIX =
      true := by
  intro hkey
  obtain ⟨rest', hrest'⟩ := under_events hkey
  obtain ⟨-, hid⟩ := envelopeStorageKey_inj (by decide) (by decide) hrest'
  exact hne (slash_inj hslash (by decide) hid).1

theorem filed_snapshot (h : Filed A s) (envelope : Envelope) (cursor updatedAt : Nat) :
    Filed A (s.store (issueSnapshotRequest A envelope cursor updatedAt)) := by
  refine filed_store h fun _ hkey => ?_
  have hkey : startsWith (issueSnapshotStorageKey envelope.room
      (extractIssueIdFromEnvelope envelope)) ISSUE_EVENT_KEY_PREFIX = true := hkey
  rw [issueSnapshotStorageKey_eq] at hkey
  exact absurd hkey (not_under_events (by decide) (by decide))

theorem filed_cursor (h : Filed A s) (envelope : Envelope) (cursor updatedAt : Nat) :
    Filed A (s.store (issueCursorRequest A envelope cursor updatedAt)) := by
  refine filed_store h fun _ hkey => ?_
  have hkey : startsWith (issueCursorStorageKey envelope.room) ISSUE_EVENT_KEY_PREFIX = true := hkey
  rw [issueCursorStorageKey_eq] at hkey
  exact absurd hkey (not_under_events (by decide) (by decide))

theorem filed_task (hserial : Serial p done settled) (h : Filed A p.adapter)
    (ht : p.tasks = t :: rest)
    (hsteps : t.StepsTo A p.adapter nowSec t.task.stage s' stage') : Filed A s' := by
  have hfits := hserial.head t (by rw [ht]; rfl)
  have hassigned := hserial.assigned
  rw [headPending, ht] at hassigned
  have hassigned : p.assigned = settled ++ pending t := hassigned
  obtain ⟨handed, roomCursorHint, attempt, stage⟩ := t
  cases hsteps with
  | putsEnvelope hstage => exact filed_envelope h handed nowSec
  | readsCursor => exact h
  | assigns inMemory cached => exact filed_table h _
  | putsEvent cursor updatedAt =>
    have hpositive : 0 < cursor := by
      refine hserial.positive (handed.envelope, cursor) ?_
      rw [hassigned]
      exact List.mem_append_right _ List.mem_cons_self
    exact filed_store h fun _ _ => ⟨handed, cursor, updatedAt, hfits, hpositive, rfl⟩
  | readsSnapshot cursor updatedAt hstage => exact h
  | putsSnapshot cursor updatedAt => exact filed_snapshot h handed.envelope cursor updatedAt
  | putsCursor cursor updatedAt => exact filed_cursor h handed.envelope cursor updatedAt

/-- Every step keeps what is filed. -/
theorem filed_step (hserial : Serial p done settled) (h : Filed A p.adapter) (event : CursorEvent) :
    Filed A (p.step A event).adapter := by
  cases event with
  | handOver handed roomCursorHint => exact h
  | task nowSec =>
    cases htasks : p.tasks with
    | nil =>
      simp only [step, htasks]
      exact h
    | cons t rest =>
      obtain ⟨s', stage', hsteps, heq⟩ := step_task (A := A) hserial htasks nowSec
      rw [heq]
      exact filed_task hserial h htasks hsteps
  | startSync args => exact h
  | sync i nowSec =>
    cases hcall : p.syncs[i]? with
    | none =>
      simp only [step, hcall]
      exact h
    | some call =>
      obtain ⟨s', stage', hsteps, heq⟩ := step_sync (A := A) hserial hcall nowSec
      rw [heq]
      generalize call.stage = stage at hsteps
      cases hsteps with
      | loads hfrom hto => exact h
      | reads events snapshots => exact h
      | writes events snapshots inMemory persisted result => exact filed_table h _
  | replace =>
    simp only [step]
    split
    · exact filed_table h ∅
    · exact h

/-! ## The listing of a room -/

/-- What a run leaves behind when it is through, with cursors that fit the padding. -/
structure Written (A : CacheAdapterOptions) (s : CacheAdapterState) : Prop where
  unlimited : s.Unlimited
  filed : Filed A s
  keyed : ∀ storageKey value event, s.record? storageKey = some value →
    parseIssueCacheEventRecord value = some event →
      ∃ room cursor id, storageKey = toStorageKey .object (issueEventStorageKey room cursor id)
  increasing : ∀ room, (recordedEvents s room).Pairwise fun a b => a.cursor < b.cursor
  below : ∀ room, ∀ event ∈ recordedEvents s room, event.cursor < 10 ^ ISSUE_CURSOR_PAD_WIDTH
  covered : ∀ room, ∀ event ∈ recordedEvents s room, event.cursor ≤ storedCursor s room

variable {args : IssueSyncArgs} {storageKey : String} {value : CacheStoreObject}

theorem written_table (h : Written A s) (issueCursorByRoom : OrdMap String Nat) :
    Written A { s with issueCursorByRoom } :=
  ⟨h.unlimited, filed_table h.filed _, h.keyed, h.increasing, h.below, h.covered⟩

theorem record?_of_mem_values (h : value ∈ s.cacheStore.records.values) :
    ∃ storageKey, s.record? storageKey = some value := by
  obtain ⟨⟨storageKey, found⟩, hentry, rfl⟩ := List.mem_map.mp h
  exact ⟨storageKey, OrdMap.get?_eq_some_iff.mpr hentry⟩

theorem metadata_event (handed : AcceptedEnvelope) (cursor updatedAt : Nat) :
    (issueEventRequest A handed.envelope cursor updatedAt).stored.metadata.room =
      some handed.envelope.room := by
  have hne : handed.envelope.room ≠ "" := (freeText_room handed.storable.room).1
  show (some handed.envelope.room).filter (· ≠ "") = some handed.envelope.room
  simp [hne]

/-- An event is listed for its own room and for no other. -/
theorem lists_event (handed : AcceptedEnvelope) (cursor updatedAt : Nat) (args : IssueSyncArgs) :
    (IssueSyncStage.eventLoader args).lists
        (issueEventRequest A handed.envelope cursor updatedAt).stored.metadata =
      (handed.envelope.room == args.room) := by
  have hroom := metadata_event (A := A) handed cursor updatedAt
  have hshape : (IssueSyncStage.eventLoader args).lists
      (issueEventRequest A handed.envelope cursor updatedAt).stored.metadata =
        (startsWith (issueEventStorageKey handed.envelope.room cursor handed.envelope.id)
            (ISSUE_EVENT_KEY_PREFIX ++ args.room ++ "/") &&
          (args.room == "" || some handed.envelope.room == some args.room)) := by
    rw [← hroom]
    rfl
  rw [hshape]
  rcases Decidable.em (handed.envelope.room = args.room) with hsame | hother
  · rw [← hsame, beq_self_eq_true, beq_self_eq_true, Bool.or_true, Bool.and_true]
    exact startsWith_append _ _
  · rw [beq_eq_false_iff_ne.mpr hother, beq_eq_false_iff_ne.mpr fun heq => hother (Option.some.inj heq),
      Bool.or_false]
    rcases Decidable.em (args.room = "") with hempty | hnonempty
    · -- No room has an empty name, so no key goes on with a slash.
      rw [hempty, beq_self_eq_true, Bool.and_true]
      refine eq_false_of_ne_true fun hkey => ?_
      obtain ⟨rest, hrest⟩ := exists_of_startsWith hkey
      have hrest : ISSUE_EVENT_KEY_PREFIX ++ (handed.envelope.room ++ "/" ++
          issueEventSuffix cursor handed.envelope.id) =
            ISSUE_EVENT_KEY_PREFIX ++ ("" ++ "/" ++ rest) := by
        simp only [← String.append_assoc]
        exact hrest
      have hname := (slash_inj (slash_notMem_room handed.storable.room) (by decide)
        (append_right_inj hrest)).1
      exact (freeText_room handed.storable.room).1 hname
    · rw [beq_eq_false_iff_ne.mpr hnonempty, Bool.and_false]

/-- A listed record is an event of the room. -/
theorem event_of_lists (h : Filed A s) (hvalue : s.record? storageKey = some value)
    (hlists : (IssueSyncStage.eventLoader args).lists value.metadata = true) :
    ∃ (handed : AcceptedEnvelope) (cursor updatedAt : Nat), handed.isIssue = true ∧ 0 < cursor ∧
      handed.envelope.room = args.room ∧
      value = (issueEventRequest A handed.envelope cursor updatedAt).stored := by
  have hparts := hlists
  unfold IssueLoader.lists at hparts
  obtain ⟨⟨hkind, hkey⟩, -⟩ := (Bool.and_eq_true _ _ ▸ hparts : _ ∧ _).imp_left
    fun h => (Bool.and_eq_true _ _ ▸ h : _ ∧ _)
  obtain ⟨rest, hrest⟩ := exists_of_startsWith hkey
  have hrest : value.metadata.key =
      ISSUE_EVENT_KEY_PREFIX ++ (args.room ++ "/" ++ rest) := by
    rw [hrest]
    show ISSUE_EVENT_KEY_PREFIX ++ args.room ++ "/" ++ rest = _
    simp only [String.append_assoc]
  obtain ⟨handed, cursor, updatedAt, hissue, hpos, rfl⟩ :=
    h.events storageKey value hvalue (beq_iff_eq.mp hkind) (hrest ▸ startsWith_append _ _)
  rw [lists_event] at hlists
  exact ⟨handed, cursor, updatedAt, hissue, hpos, beq_iff_eq.mp hlists, rfl⟩

/-- The records that are listed for the room. -/
def roomRecords (args : IssueSyncArgs) (s : CacheAdapterState) : List CacheStoreObject :=
  s.cacheStore.records.values.filter fun value =>
    (IssueSyncStage.eventLoader args).lists value.metadata

theorem event_of_mem (h : Written A s) (hvalue : value ∈ roomRecords args s) :
    ∃ (handed : AcceptedEnvelope) (cursor updatedAt : Nat), handed.isIssue = true ∧ 0 < cursor ∧
      handed.envelope.room = args.room ∧
      value = (issueEventRequest A handed.envelope cursor updatedAt).stored ∧
      s.object? (issueEventStorageKey handed.envelope.room cursor handed.envelope.id) =
        some value := by
  obtain ⟨hmem, hlists⟩ := List.mem_filter.mp hvalue
  obtain ⟨storageKey, hfound⟩ := record?_of_mem_values hmem
  obtain ⟨handed, cursor, updatedAt, hissue, hpos, hroom, rfl⟩ :=
    event_of_lists h.filed hfound hlists
  have hkey : storageKey = toStorageKey .object
      (issueEventStorageKey handed.envelope.room cursor handed.envelope.id) :=
    h.filed.keyed storageKey _ hfound
  rw [hkey] at hfound
  exact ⟨handed, cursor, updatedAt, hissue, hpos, hroom, rfl, hfound⟩

/-- The records of the room's events are the ones that are listed for it. -/
theorem recordedEvents_eq (h : Written A s) (args : IssueSyncArgs) :
    recordedEvents s args.room =
      (roomRecords args s).filterMap parseIssueCacheEventRecord := by
  unfold recordedEvents roomRecords
  rw [List.filter_filterMap, List.filterMap_filter]
  refine List.filterMap_congr fun value hmem => ?_
  obtain ⟨storageKey, hfound⟩ := record?_of_mem_values hmem
  cases hlists : (IssueSyncStage.eventLoader args).lists value.metadata with
  | true =>
    obtain ⟨handed, cursor, updatedAt, hissue, hpos, hroom, rfl⟩ :=
      event_of_lists h.filed hfound hlists
    rw [if_pos rfl, parse_eventRecord handed hissue hpos updatedAt]
    exact Option.filter_some_pos (beq_iff_eq.mpr hroom)
  | false =>
    rw [if_neg Bool.false_ne_true]
    cases hparse : parseIssueCacheEventRecord value with
    | none => rfl
    | some event =>
      -- A record of an event of the room would be listed.
      obtain ⟨room, cursor, id, hkey⟩ := h.keyed storageKey value event hfound hparse
      obtain ⟨hkind, hname⟩ := toStorageKey_inj ((h.filed.keyed _ _ hfound).symm.trans hkey)
      have hprefix : startsWith value.metadata.key ISSUE_EVENT_KEY_PREFIX = true := by
        rw [hname]
        unfold issueEventStorageKey
        rw [String.append_assoc, String.append_assoc]
        exact startsWith_append _ _
      obtain ⟨handed, cursor', updatedAt, hissue, hpos, rfl⟩ :=
        h.filed.events storageKey value hfound hkind hprefix
      rw [parse_eventRecord handed hissue hpos updatedAt] at hparse
      rw [lists_event] at hlists
      obtain rfl := Option.some.inj hparse
      exact Option.filter_some_neg hlists

/-- The records are listed in the order of the store, which is the order of their cursors. -/
theorem listing_eq (h : Written A s) (args : IssueSyncArgs)
    (hascending : A.collation.Ascending args.room) :
    (IssueSyncStage.eventLoader args).listing A s =
      (roomRecords args s).map CacheStoreObject.metadata := by
  have hincreasing := h.increasing args.room
  have hbelow := h.below args.room
  rw [recordedEvents_eq h, List.pairwise_filterMap] at hincreasing
  rw [recordedEvents_eq h] at hbelow
  have hsorted : ((roomRecords args s).map CacheStoreObject.metadata).Pairwise fun a b =>
      A.collation.metadataLe a b = true := by
    rw [List.pairwise_map]
    refine hincreasing.imp_of_mem fun {a b} ha hb hlt => ?_
    obtain ⟨first, cursor, updatedAt, hissue, hpos, hroom, rfl, -⟩ := event_of_mem h ha
    obtain ⟨second, cursor', updatedAt', hissue', hpos', hroom', rfl, -⟩ := event_of_mem h hb
    have hparse := parse_eventRecord (A := A) second hissue' hpos' updatedAt'
    have hlater : cursor < cursor' :=
      hlt _ (parse_eventRecord (A := A) first hissue hpos updatedAt) _ hparse
    have hfits : cursor' < 10 ^ ISSUE_CURSOR_PAD_WIDTH :=
      hbelow _ (List.mem_filterMap.mpr ⟨_, hb, hparse⟩)
    have hkeys := hascending cursor cursor' first.envelope.id second.envelope.id
      (Nat.ne_of_lt hlater) (hlater.trans hfits) hfits
      (codeUnitLe_of_lt (eventKey_lt hlater hfits args.room _ _))
    show A.collation.le (issueEventStorageKey first.envelope.room cursor first.envelope.id)
      (issueEventStorageKey second.envelope.room cursor' second.envelope.id) = true
    rw [hroom, hroom']
    exact hkeys
  unfold IssueLoader.listing
  have hfilter : (s.cacheStore.records.values.map CacheStoreObject.metadata).filter
      (IssueSyncStage.eventLoader args).lists =
        (roomRecords args s).map CacheStoreObject.metadata := List.filter_map
  rw [hfilter]
  exact hsorted.insertionSort_eq

/-- Reading a listed entry gives its event, when it is behind the client's cursor. -/
theorem readEntry_eq (h : Written A s) (hvalue : value ∈ roomRecords args s) :
    (IssueSyncStage.eventLoader args).readEntry s value.metadata =
      (parseIssueCacheEventRecord value).filter fun event => decide (args.after < event.cursor) := by
  obtain ⟨handed, cursor, updatedAt, hissue, hpos, hroom, rfl, hfound⟩ := event_of_mem h hvalue
  obtain ⟨event, hparse, hsame, hevent⟩ : ∃ event, parseIssueCacheEventRecord
      (issueEventRequest A handed.envelope cursor updatedAt).stored = some event ∧
        event.room = args.room ∧ event.cursor = cursor :=
    ⟨_, parse_eventRecord handed hissue hpos updatedAt, hroom, rfl⟩
  have hcursor : parseIssueEventCursorFromKey args.room
      (issueEventStorageKey handed.envelope.room cursor handed.envelope.id) = some cursor := by
    rw [hroom]
    exact parse_eventKey args.room hpos handed.envelope.id
  have hwanted : (IssueSyncStage.eventLoader args).wanted
      (issueEventRequest A handed.envelope cursor updatedAt).stored.metadata =
        decide (args.after < cursor) := by
    show (parseIssueEventCursorFromKey args.room (issueEventStorageKey handed.envelope.room cursor
      handed.envelope.id)).any _ = _
    rw [hcursor]
    rfl
  have hget : (getCacheObject (issueEventRequest A handed.envelope cursor
      updatedAt).stored.metadata.key s ⟨true, 0⟩).getD (none, s) =
        (some (issueEventRequest A handed.envelope cursor updatedAt).stored, s) := by
    show (getCacheObject (issueEventStorageKey handed.envelope.room cursor handed.envelope.id) s
      ⟨true, 0⟩).getD (none, s) = _
    rw [getCacheObject_unlimited h.unlimited (freeText_event cursor handed.storable.id), hfound]
    rfl
  have hread : (IssueSyncStage.eventLoader args).parse
      (issueEventRequest A handed.envelope cursor updatedAt).stored =
        if args.after < cursor then some event else none := by
    show (parseIssueCacheEventRecord _).filter _ = _
    rw [hparse, Option.filter_some, hsame, hevent, beq_self_eq_true, Bool.true_and]
    simp only [decide_eq_true_eq]
  unfold IssueLoader.readEntry
  rw [hwanted, hget, Option.bind_some, hread, hparse, Option.filter_some, hevent]
  simp only [decide_eq_true_eq]
  split
  · rfl
  · rfl

/-- The loop over the events finds the first ones behind the client's cursor. -/
theorem foundEvents_recorded (h : Written A s) (args : IssueSyncArgs)
    (hascending : A.collation.Ascending args.room) : foundEvents A args s =
      ((recordedEvents s args.room).filter fun event => decide (args.after < event.cursor)).take
        (IssueSyncStage.normalizeLimit args.limit) := by
  have hread : ((roomRecords args s).map CacheStoreObject.metadata).filterMap
      ((IssueSyncStage.eventLoader args).readEntry s) =
        (recordedEvents s args.room).filter fun event => decide (args.after < event.cursor) := by
    rw [List.filterMap_map, recordedEvents_eq h, List.filter_filterMap]
    exact List.filterMap_congr fun value hvalue => readEntry_eq h hvalue
  unfold foundEvents
  simp only [listing_eq h args hascending, hread]
  rfl

/-- They are in order already. -/
theorem sortEvents_found (h : Written A s) (args : IssueSyncArgs)
    (hascending : A.collation.Ascending args.room) :
    IssueSyncStage.sortEvents (foundEvents A args s) = foundEvents A args s := by
  have hsorted : (foundEvents A args s).Pairwise fun a b => a.cursor ≤ b.cursor := by
    rw [foundEvents_recorded h args hascending]
    exact ((((h.increasing args.room).imp Nat.le_of_lt).filter _).sublist (List.take_sublist _ _))
  exact hsorted.insertionSort_eq

/-! ## Pages -/

/-- One call returns the next page. -/
theorem sync_page (h : Written A s) (args : IssueSyncArgs)
    (hascending : A.collation.Ascending args.room) (hlimit : 1 ≤ args.limit) {times : List Nat}
    (htimes : 4 * s.cacheStore.records.entries.length + 6 ≤ times.length) :
    ∃ result issueCursorByRoom,
      syncRun A args s times = ({ s with issueCursorByRoom }, .returned result) ∧
      result.events = ((recordedEvents s args.room).filter fun event =>
        decide (args.after < event.cursor)).take args.limit ∧
      (recordedEvents s args.room).filter (fun event => decide (result.nextCursor < event.cursor)) =
        ((recordedEvents s args.room).filter fun event =>
          decide (args.after < event.cursor)).drop args.limit ∧
      ∀ event ∈ recordedEvents s args.room, event.cursor ≤ result.roomCursor := by
  obtain ⟨result, hrun, hevents, hnext, hroomCursor⟩ := sync_returns (A := A) h.unlimited args htimes
  have hpage : result.events = ((recordedEvents s args.room).filter fun event =>
      decide (args.after < event.cursor)).take args.limit := by
    rw [hevents, sortEvents_found h args hascending, foundEvents_recorded h args hascending]
    exact congrArg (List.take · _) (Nat.max_eq_right hlimit)
  refine ⟨result, _, hrun, hpage, ?_, fun event hevent => ?_⟩
  · rw [hnext, hpage]
    exact CursorLog.filter_behind_page (h.increasing args.room) args.after args.limit
  · rw [hroomCursor]
    exact Nat.le_trans (h.covered args.room event hevent) (Nat.le_max_right _ _)

/-- The pages from a cursor on. -/
theorem walk_pages {room : String} (hascending : A.collation.Ascending room)
    {requests : List SyncRequest} (h : Written A s)
    (hrequests : ∀ request ∈ requests, 1 ≤ request.limit ∧
      4 * s.cacheStore.records.entries.length + 6 ≤ request.times.length) {after : Nat}
    {ahead : List IssueCacheEventRecord} (hahead : ahead =
      (recordedEvents s room).filter fun event => decide (after < event.cursor)) :
    ∃ results, syncWalk A room s after requests = some results ∧
      results.length = requests.length ∧
      returnedEvents results = ahead.take (requests.map SyncRequest.limit).sum ∧
      ((∃ result ∈ results, result.events = []) → returnedEvents results = ahead) ∧
      (ahead.length < requests.length → ∃ result ∈ results, result.events = []) ∧
      ∀ result ∈ results, ∀ event ∈ recordedEvents s room, event.cursor ≤ result.roomCursor := by
  induction requests generalizing s after ahead with
  | nil =>
    refine ⟨[], rfl, rfl, rfl, fun hempty => ?_, fun hshort => absurd hshort (Nat.not_lt_zero _),
      fun result hresult => absurd hresult List.not_mem_nil⟩
    obtain ⟨result, hresult, -⟩ := hempty
    exact absurd hresult List.not_mem_nil
  | cons request rest ih =>
    obtain ⟨hlimit, htimes⟩ := hrequests request List.mem_cons_self
    obtain ⟨result, issueCursorByRoom, hrun, hpage, hbehind, hcovered⟩ := sync_page h
      ⟨room, after, request.limit, request.snapshotLimit⟩ hascending hlimit htimes
    dsimp only at hpage hbehind hcovered
    obtain ⟨results, hwalk, hlength, hreturned, hcomplete, hends, hall⟩ :=
      ih (written_table h issueCursorByRoom)
        (fun r hr => hrequests r (List.mem_cons_of_mem _ hr)) hbehind.symm
    rw [← hahead] at hpage hreturned hcomplete hends
    have hevents : returnedEvents (result :: results) = ahead.take request.limit ++
        returnedEvents results := by
      rw [← hpage]
      rfl
    refine ⟨result :: results, ?_, congrArg (· + 1) hlength, ?_, ?_, fun hshort => ?_, ?_⟩
    · simp only [syncWalk, hrun, IssueSyncStage.result?, hwalk, Option.bind_eq_bind,
        Option.bind_some]
      rfl
    · rw [hevents, hreturned, List.map_cons, List.sum_cons, List.take_add]
    · rintro ⟨empty, hmem, hempty⟩
      rw [hevents]
      rcases List.mem_cons.mp hmem with rfl | hmem
      · -- With a limit above zero, only the end of the events makes an empty page.
        have hnil : ahead = [] := by
          rw [hpage, List.take_eq_nil_iff] at hempty
          exact hempty.resolve_left (by omega)
        rw [hreturned, hnil]
        simp
      · rw [hcomplete ⟨empty, hmem, hempty⟩, List.take_append_drop]
    · rcases Decidable.em (ahead = []) with hnil | hne
      · exact ⟨result, List.mem_cons_self, by rw [hpage, hnil, List.take_nil]⟩
      · have hpos : 0 < ahead.length := List.length_pos_iff.mpr hne
        obtain ⟨empty, hmem, hempty⟩ := hends (by
          rw [List.length_drop]
          rw [List.length_cons] at hshort
          omega)
        exact ⟨empty, List.mem_cons_of_mem _ hmem, hempty⟩
    · intro answer hanswer
      rcases List.mem_cons.mp hanswer with rfl | hanswer
      · exact hcovered
      · exact hall answer hanswer

/-! ## Runs -/

theorem assigned_step (p : CursorRun) (event : CursorEvent) :
    p.assigned <+: (p.step A event).assigned := by
  cases event with
  | handOver handed roomCursorHint => exact List.prefix_rfl
  | task nowSec =>
    simp only [step]
    split
    · exact List.prefix_rfl
    · exact List.prefix_append _ _
  | startSync args => exact List.prefix_rfl
  | sync i nowSec =>
    simp only [step]
    split
    · exact List.prefix_rfl
    · exact List.prefix_rfl
  | replace =>
    simp only [step]
    split
    · exact List.prefix_rfl
    · exact List.prefix_rfl

/-- A step that assigns a cursor which fits the padding is exact. -/
theorem staysExact_of_below {event : CursorEvent}
    (h : ∀ e ∈ (p.step A event).assigned, e.2 < 10 ^ ISSUE_CURSOR_PAD_WIDTH) :
    StaysExact p event := by
  cases event with
  | task nowSec =>
    unfold StaysExact
    cases htasks : p.tasks with
    | nil => trivial
    | cons t rest =>
      dsimp only
      split
      · next inMemory cached hstage =>
        have hassigns : t.assigns = [(t.handed.envelope,
            nextIssueCursor t.roomCursorHint (max inMemory cached))] := by
          unfold IssueTask.assigns
          rw [hstage]
        have hbelow := h (t.handed.envelope, nextIssueCursor t.roomCursorHint (max inMemory cached))
          (by
            simp only [step, htasks, stepTask, hassigns]
            exact List.mem_append_right _ List.mem_cons_self)
        have hexact : 10 ^ ISSUE_CURSOR_PAD_WIDTH < MAX_EXACT_INTEGER := by decide
        exact Nat.lt_of_le_of_lt (le_incDouble _) (Nat.lt_trans hbelow hexact)
      · trivial
  | handOver | startSync | sync | replace => trivial

theorem along_of_below {events : List CursorEvent}
    (h : ∀ e ∈ (runFrom (step A) p events).assigned, e.2 < 10 ^ ISSUE_CURSOR_PAD_WIDTH) :
    Along (step A) StaysExact p events := by
  induction events generalizing p with
  | nil => trivial
  | cons event rest ih =>
    refine ⟨staysExact_of_below (A := A) fun e he => h e ?_, ih h⟩
    have hgrows : (p.step A event).assigned <+:
        (runFrom (step A) (p.step A event) rest).assigned :=
      runFrom_invariant (I := fun q => (p.step A event).assigned <+: q.assigned)
        (fun q event hq => hq.trans (assigned_step q event)) rest List.prefix_rfl
    exact hgrows.mem he

/-- What a run that is through has written. -/
theorem written_of_run {events : List CursorEvent}
    (hbelow : ∀ e ∈ (runFrom (step A) .init events).assigned,
      e.2 < 10 ^ ISSUE_CURSOR_PAD_WIDTH)
    (hdone : (runFrom (step A) .init events).tasks = []) :
    Written A (runFrom (step A) .init events).adapter := by
  obtain ⟨⟨done, settled, h⟩, hfiled⟩ := Along.invariant
    (I := fun p => (∃ done settled, Sound p done settled) ∧ Filed A p.adapter)
    (fun p event hexact hp => by
      obtain ⟨⟨done, settled, h⟩, hfiled⟩ := hp
      exact ⟨sound_step ⟨done, settled, h⟩ hexact, filed_step h.serial hfiled event⟩)
    (along_of_below hbelow)
    ⟨⟨[], [], sound_init⟩, ⟨fun _ _ h => (by cases h), fun _ _ h => (by cases h)⟩⟩
  generalize runFrom (step A) .init events = p at hbelow hdone h hfiled
  have hassigned : p.assigned = settled := by
    have hall := h.serial.assigned
    unfold headPending at hall
    rw [hdone] at hall
    exact hall.trans (List.append_nil _)
  have hrecorded : Recorded p.adapter settled := by
    have hall := h.recorded
    unfold headWritten at hall
    rw [hdone] at hall
    rw [← List.append_nil settled]
    exact hall
  -- The cursor of a recorded event was assigned in its room.
  have hcursor : ∀ room, ∀ event ∈ recordedEvents p.adapter room,
      ∃ e ∈ p.assigned, e.1.room = room ∧ e.2 = event.cursor := by
    intro room event hevent
    have hmem : (event.envelope, event.cursor) ∈
        (settled.filter fun e => e.1.room == room).map fun e => (e.1.readBack, e.2) := by
      rw [← hrecorded.events room]
      exact List.mem_map_of_mem hevent
    obtain ⟨e, he, heq⟩ := List.mem_map.mp hmem
    obtain ⟨hmem, hroom⟩ := List.mem_filter.mp he
    exact ⟨e, hassigned ▸ hmem, beq_iff_eq.mp hroom, congrArg Prod.snd heq⟩
  refine ⟨h.serial.unlimited, hfiled, hrecorded.keyed,
    fun room => (cursorsIncrease_of_sound h room).increasing, fun room event hevent => ?_,
    fun room event hevent => ?_⟩
  · obtain ⟨e, he, -, heq⟩ := hcursor room event hevent
    rw [← heq]
    exact hbelow e he
  · obtain ⟨e, he, rfl, heq⟩ := hcursor room event hevent
    rw [h.serial.stored, ← hassigned, ← heq]
    exact h.serial.bounded e he

end SyncPageLemmas

open SyncPageLemmas CursorRun

/-- Over what a run of the adapter has written, with cursors below 10^12, a client that follows
`next_cursor` from zero on is returned the events of the room page by page, with whatever limits:
those of the envelopes that were handed over for the room, in their order. -/
theorem issue_sync_pages {A : CacheAdapterOptions} {events : List CursorEvent}
    (hbelow : ∀ e ∈ (runFrom (CursorRun.step A) .init events).assigned, e.2 < 10 ^ 12)
    (hdone : (runFrom (CursorRun.step A) .init events).tasks = []) (room : String)
    (hascending : A.collation.Ascending room) {requests : List SyncRequest}
    (hlimits : ∀ request ∈ requests, 1 ≤ request.limit)
    (htimes : ∀ request ∈ requests, 4 * (runFrom (CursorRun.step A) .init
      events).adapter.cacheStore.records.entries.length + 6 ≤ request.times.length) :
    (∃ results, syncWalk A room (runFrom (CursorRun.step A) .init events).adapter 0 requests =
        some results ∧
      PagesOf (runFrom (CursorRun.step A) .init events).adapter room
        (requests.map SyncRequest.limit) results) ∧
      (recordedEvents (runFrom (CursorRun.step A) .init events).adapter room).map
          IssueCacheEventRecord.envelope =
        issuesOf room (runFrom (CursorRun.step A) .init events).handedOver := by
  have hwritten := written_of_run (A := A) hbelow hdone
  have hincrease := issue_cursors_increase (along_of_below (A := A) hbelow) room
  refine ⟨?_, hincrease.complete hdone⟩
  have hpositive := hincrease.positive
  generalize (runFrom (CursorRun.step A) .init events).adapter = s at hwritten hpositive htimes ⊢
  have hahead : recordedEvents s room =
      (recordedEvents s room).filter fun event => decide (0 < event.cursor) :=
    (List.filter_eq_self.mpr fun event hevent => decide_eq_true (hpositive event hevent)).symm
  obtain ⟨results, hwalk, hlength, hreturned, hcomplete, hends, hcovered⟩ :=
    walk_pages hascending hwritten
      (fun request hrequest => ⟨hlimits request hrequest, htimes request hrequest⟩) hahead
  have hlimit : (requests.map SyncRequest.limit).length = requests.length := List.length_map _
  refine ⟨results, hwalk, hlength.trans hlimit.symm, hreturned, ?_, hcomplete, ?_, hcovered⟩
  · rw [hreturned]
    exact (hwritten.increasing room).sublist (List.take_sublist _ _)
  · rw [hlimit]
    exact hends

theorem ascending_codeUnits (room : String) : Collation.codeUnits.Ascending room :=
  fun _ _ _ _ _ _ _ h => h

/-- Three calls for two events each. -/
def toyRequests : List SyncRequest := List.replicate 3 ⟨2, 1, List.replicate 50 7⟩

theorem issue_sync_pages_toy :
    (∃ results, syncWalk .toy "main" (runFrom (CursorRun.step .toy) .init overlappingSync).adapter 0
        toyRequests = some results ∧
      PagesOf (runFrom (CursorRun.step .toy) .init overlappingSync).adapter "main" [2, 2, 2]
        results) ∧
      (recordedEvents (runFrom (CursorRun.step .toy) .init overlappingSync).adapter "main").map
          IssueCacheEventRecord.envelope =
        issuesOf "main" (runFrom (CursorRun.step .toy) .init overlappingSync).handedOver :=
  @issue_sync_pages .toy overlappingSync (by decide +kernel)
    (List.isEmpty_iff.mp (by decide +kernel)) "main" (ascending_codeUnits "main") toyRequests
    (by decide) (by decide +kernel)

end BitRelay
