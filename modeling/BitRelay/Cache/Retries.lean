import BitRelay.Cache.Drops

/-!
# Persisting an issue event under retry

The persistence task of an issue event, over a store whose calls may throw. A throw
starts the whole task again, with the next cursor of the room. Reads that throw are
caught, and the first put may be repeated, so what matters is that nothing throws
behind the put of the event: the task that starts again then records a second event.

Results:
1. `progress_step`, `progress_run`: what the store holds at each stage.
2. `duplicate_step`, `duplicate_run`: what it holds behind a throw that came late.
3. `event_recorded_once`: when the task succeeds, the store has gained one event record of
   the envelope, to which the cursor record and the snapshot refer, if and only if no put
   behind an event put threw; a snapshot that the source policy protects stays.
-/

namespace BitRelay

variable (A : CacheAdapterOptions) (envelope : Envelope) (roomCursorHint : Option Int)

/-! ## Definitions -/

/-- The cursor of the event that has been put, at the calls behind it that can throw: the put of
the snapshot and the put of the cursor record. -/
def PersistStage.behindEvent? : PersistStage → Option Nat
  | putSnapshot issueCursor _ => some issueCursor
  | putCursor issueCursor _ => some issueCursor
  | _ => none

/-- The call of the task does not throw behind the put of the event. -/
def NoLateThrow (p : CacheAdapterState × PersistTask) (answer : StoreAnswer) : Prop :=
  answer.ok = true ∨ p.2.stage.behindEvent? = none

instance (p : CacheAdapterState × PersistTask) (answer : StoreAnswer) :
    Decidable (NoLateThrow p answer) := inferInstanceAs (Decidable (_ ∨ _))

/-- The call throws late at a cursor that doubles do not count on from. -/
def ThrowsSpent (p : CacheAdapterState × PersistTask) : Prop :=
  ∃ issueCursor, p.2.stage.behindEvent? = some issueCursor ∧ MAX_EXACT_INTEGER ≤ issueCursor

section
variable (old s : CacheAdapterState)

def eventKey (issueCursor : Nat) : String :=
  issueEventStorageKey envelope.room issueCursor envelope.id

def snapshotKey : String :=
  issueSnapshotStorageKey envelope.room (extractIssueIdFromEnvelope envelope)

def cursorKey : String := issueCursorStorageKey envelope.room

/-- The call drops no event record of the envelope, nor what the task has to leave behind. -/
def KeepsRecords (p : CacheAdapterState × PersistTask) (answer : StoreAnswer) : Prop :=
  (∀ issueCursor, Drops A envelope p answer
    (toStorageKey .object (eventKey envelope issueCursor)) = false) ∧
  (p.2.stage.behindEvent?.isSome = true →
    Drops A envelope p answer (toStorageKey .object (snapshotKey envelope)) = false ∧
      Drops A envelope p answer (toStorageKey .object (cursorKey envelope)) = false)

/-- The objects outside `keys` are objects of the old state. -/
def GainsOnly (keys : List String) : Prop :=
  ∀ key ∉ keys, ∀ record, s.object? key = some record → old.object? key = some record

def HoldsEvent (issueCursor updatedAt : Nat) : Prop :=
  s.object? (eventKey envelope issueCursor) =
    some (issueEventRequest A envelope issueCursor updatedAt).stored

/-- The snapshot is the one of this event, or an old one that the source policy protects. -/
def HoldsSnapshot (issueCursor updatedAt : Nat) : Prop :=
  s.object? (snapshotKey envelope) =
      some (issueSnapshotRequest A envelope issueCursor updatedAt).stored ∨
    s.object? (snapshotKey envelope) = old.object? (snapshotKey envelope) ∧
      updatesSnapshot A envelope (old.object? (snapshotKey envelope)) = false

def HoldsCursor (issueCursor updatedAt : Nat) : Prop :=
  s.object? (cursorKey envelope) =
    some (issueCursorRequest A envelope issueCursor updatedAt).stored

/-- The event is recorded under one cursor, no other event record of the envelope is new, and the
snapshot and the cursor record refer to it. -/
def RecordedOnce : Prop :=
  ∃ issueCursor updatedAt, HoldsEvent A envelope s issueCursor updatedAt ∧
    (∀ other, other ≠ issueCursor → ∀ record,
      s.object? (eventKey envelope other) = some record →
        old.object? (eventKey envelope other) = some record) ∧
    HoldsSnapshot A envelope old s issueCursor updatedAt ∧
    HoldsCursor A envelope s issueCursor updatedAt

/-- What the store holds when the task is at a stage. -/
def StageHolds : PersistStage → Prop
  | .readSnapshot c u | .putSnapshot c u =>
    HoldsEvent A envelope s c u ∧ GainsOnly old s [eventKey envelope c]
  | .putCursor c u =>
    HoldsEvent A envelope s c u ∧ HoldsSnapshot A envelope old s c u ∧
      GainsOnly old s [eventKey envelope c, snapshotKey envelope]
  | .persisted => RecordedOnce A envelope old s
  | .putEnvelope | .readCursor | .cursorRead _ _ | .putEvent _ _ => GainsOnly old s []
  | .failed => True

/-- An event record of the envelope stands under the cursor. -/
def HasEvent (issueCursor : Nat) : Prop :=
  (s.object? (eventKey envelope issueCursor)).isSome = true

instance (issueCursor : Nat) : Decidable (HasEvent envelope s issueCursor) :=
  inferInstanceAs (Decidable (_ = true))

/-- Behind the put of an event its record is there, and the cursor of the room has come to it. -/
def EventHolds : PersistStage → Prop
  | .putEvent c _ => c ≤ s.issueCursorByRoom.getD envelope.room 0
  | .readSnapshot c _ | .putSnapshot c _ | .putCursor c _ =>
    HasEvent envelope s c ∧ c ≤ s.issueCursorByRoom.getD envelope.room 0
  | _ => True

/-- An event is recorded under `first`, and the next one stands or will stand behind it. -/
def DuplicateHolds (first : Nat) : PersistStage → Prop
  | .cursorRead inMemory _ => first ≤ inMemory
  | .putEvent c _ => first < c
  | .readSnapshot c _ | .putSnapshot c _ | .putCursor c _ => first < c ∧ HasEvent envelope s c
  | .persisted => ∃ c, first < c ∧ HasEvent envelope s c
  | .putEnvelope | .readCursor | .failed => True

end

/-- The task is behind a throw that came late. -/
structure Duplicate (first : Nat) (p : CacheAdapterState × PersistTask) : Prop where
  held : HasEvent envelope p.1 first
  cursor : first ≤ p.1.issueCursorByRoom.getD envelope.room 0
  stage : DuplicateHolds envelope p.1 first p.2.stage

variable {A envelope roomCursorHint} {old s s' : CacheAdapterState} {answer : StoreAnswer}
  {p : CacheAdapterState × PersistTask}

namespace RetryLemmas

open WriteLemmas

/-! ## Steps -/

theorem persistStep_of_none
    (h : p.2.stage.step A envelope roomCursorHint p.1 answer = none) :
    persistStep A envelope roomCursorHint p answer = (p.1, p.2.retry A) := by
  unfold persistStep
  rw [h]

theorem stage_retry (task : PersistTask) :
    (task.retry A).stage = .putEnvelope ∨ (task.retry A).stage = .failed := by
  unfold PersistTask.retry
  split
  · exact .inr rfl
  · exact .inl rfl

theorem eventKey_inj {c c' : Nat} (h : eventKey envelope c = eventKey envelope c') : c = c' :=
  issueEventStorageKey_inj h

/-- A step puts no object but the one of its stage. -/
theorem gainsOnly_step (h : envelope.Storable) {keys keys' : List String}
    (hp : GainsOnly old p.1 keys) (hsub : ∀ key ∈ keys, key ∈ keys')
    (hput : ∀ request, carriedPut A envelope p answer = some request → ∀ key,
      toStorageKey .object key = request.storageKey → key ∈ keys') :
    GainsOnly old (persistStep A envelope roomCursorHint p answer).1 keys' := by
  intro key hnot record hrecord
  refine hp key (fun hmem => hnot (hsub key hmem)) record ?_
  unfold CacheAdapterState.object? at hrecord
  rw [record?_persistStep h, recordBehind] at hrecord
  split at hrecord
  · cases hrecord
  · cases hcarried : carriedPut A envelope p answer with
    | none =>
      rw [hcarried] at hrecord
      exact hrecord
    | some request =>
      rw [hcarried] at hrecord
      have hother : toStorageKey .object key ≠ request.storageKey :=
        fun heq => hnot (hput request hcarried key heq)
      dsimp only at hrecord
      rwa [if_neg hother] at hrecord

/-- The object that a step puts is there, unless it is dropped at once. -/
theorem object?_put (h : envelope.Storable) (request : CacheStorePutRequest)
    (hkind : request.kind = .object) (hput : carriedPut A envelope p answer = some request)
    (hkept : Drops A envelope p answer (toStorageKey .object request.key) = false) :
    (persistStep A envelope roomCursorHint p answer).1.object? request.key =
      some request.stored := by
  have hkey : toStorageKey .object request.key = request.storageKey := by
    rw [CacheStorePutRequest.storageKey, hkind]
  unfold CacheAdapterState.object?
  rw [record?_of_kept h hkept, hput]
  exact if_pos hkey

/-- Another object stays, unless it is dropped. -/
theorem object?_keep (h : envelope.Storable) {key : String}
    (hkept : Drops A envelope p answer (toStorageKey .object key) = false)
    (hother : ∀ request, carriedPut A envelope p answer = some request → key ≠ request.key) :
    (persistStep A envelope roomCursorHint p answer).1.object? key = p.1.object? key :=
  record?_of_other h hkept fun request hput heq => hother request hput
    (toStorageKey_inj (show toStorageKey .object key =
      toStorageKey request.kind request.key from heq)).2

/-- An event record of the envelope stays: it is not dropped, and only an event takes its place. -/
theorem hasEvent_step (h : envelope.Storable) (hkeeps : KeepsRecords A envelope p answer) {c : Nat}
    (hp : HasEvent envelope p.1 c) :
    HasEvent envelope (persistStep A envelope roomCursorHint p answer).1 c := by
  unfold HasEvent CacheAdapterState.object? at hp ⊢
  rw [record?_of_kept h (hkeeps.1 c)]
  cases carriedPut A envelope p answer with
  | none => exact hp
  | some request =>
    dsimp only
    split
    · rfl
    · exact hp

theorem persistStep_stage {stage stage' : PersistStage} {attempt : Nat}
    (h : stage.step A envelope roomCursorHint s answer = some (s', stage')) :
    (persistStep A envelope roomCursorHint (s, ⟨attempt, stage⟩) answer).2.stage = stage' := by
  rw [persistStep_of_some (p := (s, ⟨attempt, stage⟩)) h]

/-- The stage behind a put: the next one, or the first one again. -/
theorem stage_put {stage stage' : PersistStage} {attempt : Nat} {Q : PersistStage → Prop}
    (h : stage.step A envelope roomCursorHint s answer =
      if answer.ok then some (s', stage') else none)
    (hagain : Q .putEnvelope) (hfailed : Q .failed) (hnext : answer.ok = true → Q stage') :
    Q (persistStep A envelope roomCursorHint (s, ⟨attempt, stage⟩) answer).2.stage := by
  cases hok : answer.ok with
  | false =>
    rw [hok, if_neg Bool.false_ne_true] at h
    rw [persistStep_of_none (p := (s, ⟨attempt, stage⟩)) h]
    rcases stage_retry (A := A) ⟨attempt, stage⟩ with hstage | hstage
    · rw [hstage]
      exact hagain
    · rw [hstage]
      exact hfailed
  | true =>
    rw [hok, if_pos rfl] at h
    rw [persistStep_stage h]
    exact hnext hok

/-! ## The stages one by one -/

variable {attempt nowSec c u : Nat}

/-- A task that is started again finds no object that was not there. -/
theorem holds_retry {task : PersistTask} (h : GainsOnly old s []) :
    StageHolds A envelope old s (task.retry A).stage := by
  rcases stage_retry (A := A) task with hstage | hstage
  · rw [hstage]
    exact h
  · rw [hstage]
    trivial

theorem holds_putEnvelope (h : envelope.Storable) (htopic : isIssueTopic envelope.topic = true)
    (hp : GainsOnly old s []) :
    StageHolds A envelope old
      (persistStep A envelope roomCursorHint (s, ⟨attempt, .putEnvelope⟩) answer).1
      (persistStep A envelope roomCursorHint (s, ⟨attempt, .putEnvelope⟩) answer).2.stage := by
  have hstep : PersistStage.step A envelope roomCursorHint s answer .putEnvelope = _ :=
    PersistStage.call_putEnvelope h s answer
  have hgains : GainsOnly old
      (persistStep A envelope roomCursorHint (s, ⟨attempt, .putEnvelope⟩) answer).1 [] := by
    refine gainsOnly_step h hp (fun _ hmem => hmem) fun request hput key heq => ?_
    -- The raw put of an issue is no object.
    have hrequest : request = envelopeRequest A envelope answer.nowSec := by
      unfold carriedPut at hput
      split at hput
      · exact (Option.some.inj hput).symm
      · cases hput
    subst hrequest
    have hkind := (toStorageKey_inj (show toStorageKey .object key = toStorageKey
      (if isIssueTopic envelope.topic then .issue else .object) _ from heq)).1
    rw [htopic] at hkind
    cases hkind
  cases hok : answer.ok with
  | false =>
    rw [hok, if_neg Bool.false_ne_true] at hstep
    rw [persistStep_of_none (p := (s, ⟨attempt, .putEnvelope⟩)) hstep]
    exact holds_retry hp
  | true =>
    rw [hok, if_pos rfl, htopic, if_pos rfl] at hstep
    rw [persistStep_stage hstep]
    exact hgains

theorem holds_readCursor (h : envelope.Storable) (hp : GainsOnly old s []) :
    StageHolds A envelope old
      (persistStep A envelope roomCursorHint (s, ⟨attempt, .readCursor⟩) answer).1
      (persistStep A envelope roomCursorHint (s, ⟨attempt, .readCursor⟩) answer).2.stage := by
  rw [persistStep_stage (PersistStage.call_readCursor h s answer)]
  refine gainsOnly_step h hp (fun _ hmem => hmem) fun request hput => ?_
  unfold carriedPut at hput
  split at hput <;> cases hput

theorem holds_putEvent (h : envelope.Storable) (hp : GainsOnly old s [])
    (hkeeps : KeepsRecords A envelope (s, ⟨attempt, .putEvent c u⟩) answer) :
    StageHolds A envelope old
      (persistStep A envelope roomCursorHint (s, ⟨attempt, .putEvent c u⟩) answer).1
      (persistStep A envelope roomCursorHint (s, ⟨attempt, .putEvent c u⟩) answer).2.stage := by
  obtain ⟨ok, nowSec⟩ := answer
  have hstep : PersistStage.step A envelope roomCursorHint s ⟨ok, nowSec⟩ (.putEvent c u) = _ :=
    PersistStage.call_putEvent h s ⟨ok, nowSec⟩ c u
  cases ok with
  | false =>
    rw [persistStep_of_none (p := (s, ⟨attempt, .putEvent c u⟩)) hstep]
    exact holds_retry hp
  | true =>
    rw [persistStep_stage hstep]
    refine ⟨object?_put h (issueEventRequest A envelope c u) rfl rfl (hkeeps.1 c),
      gainsOnly_step h hp (fun _ hmem => absurd hmem List.not_mem_nil)
        fun request hput key heq => ?_⟩
    cases hput
    rw [(toStorageKey_inj (show toStorageKey .object key = toStorageKey .object _ from heq)).2]
    exact List.mem_cons_self

theorem holds_readSnapshot (h : envelope.Storable) (hp : HoldsEvent A envelope s c u ∧
      GainsOnly old s [eventKey envelope c])
    (hkeeps : KeepsRecords A envelope (s, ⟨attempt, .readSnapshot c u⟩) answer) :
    StageHolds A envelope old
      (persistStep A envelope roomCursorHint (s, ⟨attempt, .readSnapshot c u⟩) answer).1
      (persistStep A envelope roomCursorHint (s, ⟨attempt, .readSnapshot c u⟩) answer).2.stage := by
  obtain ⟨hevent, hgains⟩ := hp
  have hstep : PersistStage.step A envelope roomCursorHint s answer (.readSnapshot c u) = _ :=
    PersistStage.call_readSnapshot h s answer c u
  have hnone : ∀ request, carriedPut A envelope (s, ⟨attempt, .readSnapshot c u⟩) answer ≠
      some request := by
    intro request hput
    unfold carriedPut at hput
    split at hput <;> cases hput
  have hevent' : HoldsEvent A envelope (persistStep A envelope roomCursorHint
      (s, ⟨attempt, .readSnapshot c u⟩) answer).1 c u :=
    (object?_keep h (hkeeps.1 c) fun request hput => absurd hput (hnone request)).trans hevent
  have hgains' : GainsOnly old (persistStep A envelope roomCursorHint
      (s, ⟨attempt, .readSnapshot c u⟩) answer).1 [eventKey envelope c] :=
    gainsOnly_step h hgains (fun _ hmem => hmem) fun request hput => absurd hput (hnone request)
  rw [persistStep_stage hstep]
  generalize hlookup : (if answer.ok then s.live? answer.nowSec (issueSnapshotStorageKey envelope.room
    (extractIssueIdFromEnvelope envelope)) else none) = found
  cases hupdates : updatesSnapshot A envelope found with
  | true => exact ⟨hevent', hgains'⟩
  | false =>
    -- A lookup that found nothing would have the snapshot written.
    obtain ⟨record, rfl⟩ : ∃ record, found = some record := by
      refine Option.ne_none_iff_exists'.mp ?_
      rintro rfl
      cases hupdates
    obtain ⟨hexpired, hobject⟩ : s.expired answer.nowSec
        (toStorageKey .object (snapshotKey envelope)) = false ∧
          s.object? (snapshotKey envelope) = some record := by
      split at hlookup
      · unfold CacheAdapterState.live? at hlookup
        split at hlookup
        · cases hlookup
        · next hlive => exact ⟨Bool.eq_false_of_not_eq_true hlive, hlookup⟩
      · cases hlookup
    have hkept : Drops A envelope (s, ⟨attempt, .readSnapshot c u⟩) answer
        (toStorageKey .object (snapshotKey envelope)) = false := by
      unfold Drops
      simp only [PersistStage.request?, PersistStage.lookup?, Option.any_none, Option.any_some,
        hexpired, Bool.and_false, Bool.or_self]
    have hold : old.object? (snapshotKey envelope) = some record :=
      hgains _ (by simpa using fun heq => event_ne_snapshot heq.symm) _ hobject
    have hsnapshot : (persistStep A envelope roomCursorHint (s, ⟨attempt, .readSnapshot c u⟩)
        answer).1.object? (snapshotKey envelope) = old.object? (snapshotKey envelope) :=
      (object?_keep h hkept fun request hput => absurd hput (hnone request)).trans
        (hobject.trans hold.symm)
    refine ⟨hevent', .inr ⟨hsnapshot, hold ▸ hupdates⟩, fun key hnot => hgains' key fun hmem => ?_⟩
    exact hnot (List.mem_cons.mpr (.inl (List.mem_singleton.mp hmem)))

theorem holds_putSnapshot (h : envelope.Storable) (hp : HoldsEvent A envelope s c u ∧
      GainsOnly old s [eventKey envelope c]) (hok : answer.ok = true)
    (hkeeps : KeepsRecords A envelope (s, ⟨attempt, .putSnapshot c u⟩) answer) :
    StageHolds A envelope old
      (persistStep A envelope roomCursorHint (s, ⟨attempt, .putSnapshot c u⟩) answer).1
      (persistStep A envelope roomCursorHint (s, ⟨attempt, .putSnapshot c u⟩) answer).2.stage := by
  obtain ⟨hevent, hgains⟩ := hp
  obtain ⟨ok, nowSec⟩ := answer
  cases hok
  rw [persistStep_stage (PersistStage.call_putSnapshot h s ⟨true, nowSec⟩ c u)]
  refine ⟨(object?_keep h (hkeeps.1 c) fun request hput => ?_).trans hevent,
    .inl (object?_put h (issueSnapshotRequest A envelope c u) rfl rfl (hkeeps.2 rfl).1),
    gainsOnly_step h hgains (fun key hmem => List.mem_cons.mpr (.inl (List.mem_singleton.mp hmem)))
      fun request hput key heq => ?_⟩
  · cases hput
    exact event_ne_snapshot
  · cases hput
    rw [(toStorageKey_inj (show toStorageKey .object key = toStorageKey .object _ from heq)).2]
    exact List.mem_cons_of_mem _ List.mem_cons_self

theorem holds_putCursor (h : envelope.Storable) (hp : HoldsEvent A envelope s c u ∧
      HoldsSnapshot A envelope old s c u ∧
      GainsOnly old s [eventKey envelope c, snapshotKey envelope]) (hok : answer.ok = true)
    (hkeeps : KeepsRecords A envelope (s, ⟨attempt, .putCursor c u⟩) answer) :
    StageHolds A envelope old
      (persistStep A envelope roomCursorHint (s, ⟨attempt, .putCursor c u⟩) answer).1
      (persistStep A envelope roomCursorHint (s, ⟨attempt, .putCursor c u⟩) answer).2.stage := by
  obtain ⟨hevent, hsnapshot, hgains⟩ := hp
  obtain ⟨ok, nowSec⟩ := answer
  cases hok
  have hput : carriedPut A envelope (s, ⟨attempt, .putCursor c u⟩) ⟨true, nowSec⟩ =
      some (issueCursorRequest A envelope c u) := rfl
  have hall : GainsOnly old (persistStep A envelope roomCursorHint (s, ⟨attempt, .putCursor c u⟩)
      ⟨true, nowSec⟩).1 [cursorKey envelope, eventKey envelope c, snapshotKey envelope] := by
    refine gainsOnly_step h hgains (fun _ => List.mem_cons_of_mem _) fun request hput key heq => ?_
    cases hput
    rw [(toStorageKey_inj (show toStorageKey .object key = toStorageKey .object _ from heq)).2]
    exact List.mem_cons_self
  have hsame : (persistStep A envelope roomCursorHint (s, ⟨attempt, .putCursor c u⟩)
      ⟨true, nowSec⟩).1.object? (snapshotKey envelope) = s.object? (snapshotKey envelope) :=
    object?_keep h (hkeeps.2 rfl).1 fun request hput => by
      cases hput
      exact snapshot_ne_cursor
  have hkept : HoldsEvent A envelope (persistStep A envelope roomCursorHint
      (s, ⟨attempt, .putCursor c u⟩) ⟨true, nowSec⟩).1 c u :=
    (object?_keep h (hkeeps.1 c) fun request hput => by
      cases hput
      exact event_ne_cursor).trans hevent
  have hcursor : HoldsCursor A envelope (persistStep A envelope roomCursorHint
      (s, ⟨attempt, .putCursor c u⟩) ⟨true, nowSec⟩).1 c u :=
    object?_put h (issueCursorRequest A envelope c u) rfl hput (hkeeps.2 rfl).2
  rw [persistStep_stage (PersistStage.call_putCursor h s ⟨true, nowSec⟩ c u)]
  refine ⟨c, u, hkept, fun other hother => hall _ ?_, ?_, hcursor⟩
  · simp only [List.mem_cons, List.not_mem_nil, or_false, not_or]
    exact ⟨event_ne_cursor, fun heq => hother (eventKey_inj heq), event_ne_snapshot⟩
  · unfold HoldsSnapshot
    rw [hsame]
    exact hsnapshot

end RetryLemmas

open WriteLemmas RetryLemmas

/-! ## When nothing throws late -/

theorem progress_step (h : envelope.Storable) (htopic : isIssueTopic envelope.topic = true)
    (hp : StageHolds A envelope old p.1 p.2.stage) (hlate : NoLateThrow p answer)
    (hkeeps : KeepsRecords A envelope p answer) :
    StageHolds A envelope old (persistStep A envelope roomCursorHint p answer).1
      (persistStep A envelope roomCursorHint p answer).2.stage := by
  obtain ⟨s, attempt, stage⟩ := p
  cases stage with
  | putEnvelope => exact holds_putEnvelope h htopic hp
  | readCursor => exact holds_readCursor h hp
  | cursorRead inMemory cached => exact hp
  | putEvent c u => exact holds_putEvent h hp hkeeps
  | readSnapshot c u => exact holds_readSnapshot h hp hkeeps
  | putSnapshot c u => exact holds_putSnapshot h hp (hlate.resolve_right nofun) hkeeps
  | putCursor c u => exact holds_putCursor h hp (hlate.resolve_right nofun) hkeeps
  | persisted => exact hp
  | failed => trivial

theorem progress_run (h : envelope.Storable) (htopic : isIssueTopic envelope.topic = true)
    {answers : List StoreAnswer}
    (hkeeps : Along (persistStep A envelope roomCursorHint) (KeepsRecords A envelope) (s, .start)
      answers)
    (hlate : Along (persistStep A envelope roomCursorHint) NoLateThrow (s, .start) answers) :
    StageHolds A envelope s (persistRun A envelope roomCursorHint s answers).1
      (persistRun A envelope roomCursorHint s answers).2.stage :=
  (hkeeps.and hlate).invariant
    (I := fun p : CacheAdapterState × PersistTask => StageHolds A envelope s p.1 p.2.stage)
    (fun _ _ hstep hp => progress_step h htopic hp hstep.2 hstep.1) fun _ _ _ hrecord => hrecord

/-! ## Behind a throw that came late -/

namespace RetryLemmas

variable {first attempt c u : Nat}

/-- Only the step that takes a cursor changes the cursors in memory. -/
theorem cursors_step (h : envelope.Storable)
    (hstage : ∀ inMemory cached, p.2.stage ≠ .cursorRead inMemory cached) :
    (persistStep A envelope roomCursorHint p answer).1.issueCursorByRoom =
      p.1.issueCursorByRoom := by
  obtain ⟨s, attempt, stage⟩ := p
  have hget : ∀ key, (s.afterGet answer.nowSec key).issueCursorByRoom = s.issueCursorByRoom := by
    intro key
    unfold CacheAdapterState.afterGet
    split <;> rfl
  unfold persistStep
  cases stage with
  | putEnvelope =>
    rw [PersistStage.call_putEnvelope h]
    cases answer.ok <;> rfl
  | readCursor =>
    rw [PersistStage.call_readCursor h]
    cases answer.ok with
    | false => rfl
    | true => exact hget _
  | cursorRead inMemory cached => exact absurd rfl (hstage inMemory cached)
  | putEvent c u =>
    rw [PersistStage.call_putEvent h]
    cases answer.ok <;> rfl
  | readSnapshot c u =>
    rw [PersistStage.call_readSnapshot h]
    cases answer.ok with
    | false => rfl
    | true => exact hget _
  | putSnapshot c u =>
    rw [PersistStage.call_putSnapshot h]
    cases answer.ok <;> rfl
  | putCursor c u =>
    rw [PersistStage.call_putCursor h]
    cases answer.ok <;> rfl
  | persisted => rfl
  | failed => rfl

/-- The event that is put is there behind its put. -/
theorem hasEvent_put (h : envelope.Storable) (hok : answer.ok = true)
    (hkeeps : KeepsRecords A envelope (s, ⟨attempt, .putEvent c u⟩) answer) :
    HasEvent envelope (persistStep A envelope roomCursorHint (s, ⟨attempt, .putEvent c u⟩)
      answer).1 c := by
  have hput : carriedPut A envelope (s, ⟨attempt, .putEvent c u⟩) answer =
      some (issueEventRequest A envelope c u) := if_pos hok
  exact Option.isSome_iff_exists.mpr
    ⟨_, object?_put h (issueEventRequest A envelope c u) rfl hput (hkeeps.1 c)⟩

/-- What holds behind a throw that came late, behind the next call. -/
theorem duplicateHolds_step (h : envelope.Storable) (htopic : isIssueTopic envelope.topic = true)
    (hfirst : first < MAX_EXACT_INTEGER) (hp : Duplicate envelope first p)
    (hkeeps : KeepsRecords A envelope p answer) :
    DuplicateHolds envelope (persistStep A envelope roomCursorHint p answer).1 first
      (persistStep A envelope roomCursorHint p answer).2.stage := by
  obtain ⟨s, attempt, stage⟩ := p
  have hstage := hp.stage
  cases stage with
  | putEnvelope =>
    refine stage_put (PersistStage.call_putEnvelope h s answer) trivial trivial fun _ => ?_
    rw [htopic]
    trivial
  | readCursor =>
    rw [persistStep_stage (PersistStage.call_readCursor h s answer)]
    exact hp.cursor
  | cursorRead inMemory cached =>
    -- The next cursor is behind the one in memory, and a double below the bound counts on.
    have hle : first ≤ max (max inMemory cached) (hintFloor roomCursorHint) :=
      le_max_of_le_left (le_max_of_le_left hstage)
    show first < incDouble (max (max inMemory cached) (hintFloor roomCursorHint))
    rcases Nat.lt_or_ge (max (max inMemory cached) (hintFloor roomCursorHint))
      MAX_EXACT_INTEGER with hlt | hge
    · rw [incDouble_of_lt hlt]
      exact Nat.lt_succ_of_le hle
    · exact hfirst.trans_le (hge.trans (le_incDouble _))
  | putEvent c u =>
    exact stage_put (PersistStage.call_putEvent h s answer c u) trivial trivial fun hok =>
      ⟨hstage, hasEvent_put h hok hkeeps⟩
  | readSnapshot c u =>
    rw [persistStep_stage (PersistStage.call_readSnapshot h s answer c u)]
    generalize updatesSnapshot A envelope _ = updates
    cases updates <;> exact ⟨hstage.1, hasEvent_step h hkeeps hstage.2⟩
  | putSnapshot c u =>
    exact stage_put (PersistStage.call_putSnapshot h s answer c u) trivial trivial fun _ =>
      ⟨hstage.1, hasEvent_step h hkeeps hstage.2⟩
  | putCursor c u =>
    exact stage_put (PersistStage.call_putCursor h s answer c u) trivial trivial fun _ =>
      ⟨c, hstage.1, hasEvent_step h hkeeps hstage.2⟩
  | persisted => exact hstage
  | failed => trivial

end RetryLemmas

theorem duplicate_step (h : envelope.Storable) (htopic : isIssueTopic envelope.topic = true)
    {first : Nat} (hfirst : first < MAX_EXACT_INTEGER) (hp : Duplicate envelope first p)
    (hkeeps : KeepsRecords A envelope p answer) :
    Duplicate envelope first (persistStep A envelope roomCursorHint p answer) where
  held := hasEvent_step h hkeeps hp.held
  cursor := by
    by_cases hstage : ∃ inMemory cached, p.2.stage = .cursorRead inMemory cached
    · obtain ⟨s, attempt, stage⟩ := p
      obtain ⟨inMemory, cached, rfl⟩ := hstage
      have hle : first ≤ inMemory := hp.stage
      show first ≤ ((s.issueCursorByRoom.set envelope.room _).set envelope.room _).getD _ 0
      rw [OrdMap.getD_set_self]
      exact (le_max_of_le_left (le_max_of_le_left hle)).trans (le_incDouble _)
    · rw [cursors_step h fun inMemory cached heq => hstage ⟨inMemory, cached, heq⟩]
      exact hp.cursor
  stage := duplicateHolds_step h htopic hfirst hp hkeeps

theorem duplicate_run (h : envelope.Storable) (htopic : isIssueTopic envelope.topic = true)
    {first : Nat} (hfirst : first < MAX_EXACT_INTEGER) (hp : Duplicate envelope first p)
    {answers : List StoreAnswer}
    (hkeeps : Along (persistStep A envelope roomCursorHint) (KeepsRecords A envelope) p answers) :
    Duplicate envelope first (runFrom (persistStep A envelope roomCursorHint) p answers) :=
  hkeeps.invariant (I := Duplicate envelope first)
    (fun _ _ hkeeps hp => duplicate_step h htopic hfirst hp hkeeps) hp

namespace RetryLemmas

theorem eventHolds_step (h : envelope.Storable) (hp : EventHolds envelope p.1 p.2.stage)
    (hkeeps : KeepsRecords A envelope p answer) :
    EventHolds envelope (persistStep A envelope roomCursorHint p answer).1
      (persistStep A envelope roomCursorHint p answer).2.stage := by
  obtain ⟨s, attempt, stage⟩ := p
  have hcursor : (∀ inMemory cached, stage ≠ .cursorRead inMemory cached) →
      (persistStep A envelope roomCursorHint (s, ⟨attempt, stage⟩) answer).1.issueCursorByRoom =
        s.issueCursorByRoom := cursors_step (p := (s, ⟨attempt, stage⟩)) h
  cases stage with
  | putEnvelope =>
    refine stage_put (PersistStage.call_putEnvelope h s answer) trivial trivial fun _ => ?_
    split <;> trivial
  | readCursor =>
    rw [persistStep_stage (PersistStage.call_readCursor h s answer)]
    trivial
  | cursorRead inMemory cached =>
    show nextIssueCursor roomCursorHint (max inMemory cached) ≤
      ((s.issueCursorByRoom.set envelope.room _).set envelope.room _).getD _ 0
    rw [OrdMap.getD_set_self]
  | putEvent c u =>
    refine stage_put (PersistStage.call_putEvent h s answer c u) trivial trivial fun hok =>
      ⟨hasEvent_put h hok hkeeps, ?_⟩
    rw [hcursor nofun]
    exact hp
  | readSnapshot c u =>
    have hnext : HasEvent envelope (persistStep A envelope roomCursorHint
      (s, ⟨attempt, .readSnapshot c u⟩) answer).1 c := hasEvent_step h hkeeps hp.1
    rw [persistStep_stage (PersistStage.call_readSnapshot h s answer c u)]
    generalize updatesSnapshot A envelope _ = updates
    cases updates <;> exact ⟨hnext, (hcursor nofun).symm ▸ hp.2⟩
  | putSnapshot c u =>
    refine stage_put (PersistStage.call_putSnapshot h s answer c u) trivial trivial fun _ =>
      ⟨hasEvent_step h hkeeps hp.1, ?_⟩
    rw [hcursor nofun]
    exact hp.2
  | putCursor c u =>
    exact stage_put (PersistStage.call_putCursor h s answer c u) trivial trivial fun _ => trivial
  | persisted => trivial
  | failed => trivial

/-- A throw that comes late leaves an event behind. -/
theorem duplicate_of_late (hp : EventHolds envelope p.1 p.2.stage) {c : Nat}
    (hstage : p.2.stage.behindEvent? = some c)
    (hstep : p.2.stage.step A envelope roomCursorHint p.1 answer = none) :
    Duplicate envelope c (persistStep A envelope roomCursorHint p answer) := by
  have hevent : HasEvent envelope p.1 c ∧ c ≤ p.1.issueCursorByRoom.getD envelope.room 0 := by
    cases hcase : p.2.stage with
    | putSnapshot c' u | putCursor c' u =>
      rw [hcase] at hp hstage
      cases hstage
      exact hp
    | putEnvelope | readCursor | cursorRead _ _ | putEvent _ _ | readSnapshot _ _ | persisted
    | failed =>
      rw [hcase] at hstage
      cases hstage
  rw [persistStep_of_none hstep]
  refine ⟨hevent.1, hevent.2, ?_⟩
  show DuplicateHolds envelope p.1 c (p.2.retry A).stage
  rcases stage_retry (A := A) p.2 with hretry | hretry <;> rw [hretry] <;> trivial

/-- A call that is not carried out throws, behind the put of the event. -/
theorem step_of_late (h : envelope.Storable) (hok : answer.ok = false) {c : Nat}
    (hstage : p.2.stage.behindEvent? = some c) :
    p.2.stage.step A envelope roomCursorHint p.1 answer = none := by
  obtain ⟨s, attempt, stage⟩ := p
  cases stage with
  | putSnapshot c u =>
    show PersistStage.step A envelope roomCursorHint s answer (.putSnapshot c u) = none
    rw [PersistStage.call_putSnapshot h, hok, if_neg Bool.false_ne_true]
  | putCursor c u =>
    show PersistStage.step A envelope roomCursorHint s answer (.putCursor c u) = none
    rw [PersistStage.call_putCursor h, hok, if_neg Bool.false_ne_true]
  | putEnvelope | readCursor | cursorRead _ _ | putEvent _ _ | readSnapshot _ _ | persisted
  | failed => cases hstage

/-- With two event records, the event is not recorded once. -/
theorem not_recordedOnce (hfresh : ∀ c, old.object? (eventKey envelope c) = none) {first : Nat}
    (hp : Duplicate envelope first p) (hdone : p.2.stage = .persisted) :
    ¬ RecordedOnce A envelope old p.1 := by
  rintro ⟨c, u, -, hothers, -⟩
  have honly : ∀ other, HasEvent envelope p.1 other → other = c := by
    intro other hother
    obtain ⟨record, hrecord⟩ := Option.isSome_iff_exists.mp hother
    by_contra hne
    have hold := hothers other hne record hrecord
    rw [hfresh other] at hold
    cases hold
  have hstage := hp.stage
  rw [hdone] at hstage
  obtain ⟨next, hlt, hnext⟩ := hstage
  exact hlt.ne ((honly first hp.held).trans (honly next hnext).symm)

end RetryLemmas

/-- When the task succeeds and no record is dropped, the event is recorded once if nothing threw
behind an event put; and if the envelope had no event record, only if nothing did, but at a cursor
on which doubles do not count. -/
theorem event_recorded_once (h : envelope.Storable) (htopic : isIssueTopic envelope.topic = true)
    {answers : List StoreAnswer}
    (hkeeps : Along (persistStep A envelope roomCursorHint) (KeepsRecords A envelope) (s, .start)
      answers)
    (hdone : (persistRun A envelope roomCursorHint s answers).2.stage = .persisted) :
    (Along (persistStep A envelope roomCursorHint) NoLateThrow (s, .start) answers →
      RecordedOnce A envelope s (persistRun A envelope roomCursorHint s answers).1) ∧
    ((∀ c, s.object? (eventKey envelope c) = none) →
      RecordedOnce A envelope s (persistRun A envelope roomCursorHint s answers).1 →
        Along (persistStep A envelope roomCursorHint)
          (fun p answer => NoLateThrow p answer ∨ ThrowsSpent p) (s, .start) answers) := by
  refine ⟨fun hlate => ?_, fun hfresh honce => ?_⟩
  · have hstage := progress_run h htopic hkeeps hlate
    rw [hdone] at hstage
    exact hstage
  · have hrun : ∀ (answers : List StoreAnswer) (p : CacheAdapterState × PersistTask),
        EventHolds envelope p.1 p.2.stage →
        Along (persistStep A envelope roomCursorHint) (KeepsRecords A envelope) p answers →
        (runFrom (persistStep A envelope roomCursorHint) p answers).2.stage = .persisted →
        RecordedOnce A envelope s (runFrom (persistStep A envelope roomCursorHint) p answers).1 →
        Along (persistStep A envelope roomCursorHint)
          (fun p answer => NoLateThrow p answer ∨ ThrowsSpent p) p answers := by
      intro answers
      induction answers with
      | nil => exact fun _ _ _ _ _ => trivial
      | cons answer rest ih =>
        intro p hevent hkeeps hdone honce
        refine ⟨?_, ih _ (eventHolds_step h hevent hkeeps.1) hkeeps.2 hdone honce⟩
        by_contra hthrows
        obtain ⟨hlate, hspent⟩ := not_or.mp hthrows
        obtain ⟨hok, hbehind⟩ := not_or.mp hlate
        obtain ⟨c, hc⟩ := Option.ne_none_iff_exists'.mp hbehind
        have hlt : c < MAX_EXACT_INTEGER := Nat.lt_of_not_ge fun hge => hspent ⟨c, hc, hge⟩
        have hduplicate : Duplicate envelope c (persistStep A envelope roomCursorHint p answer) :=
          duplicate_of_late hevent hc (step_of_late h (Bool.eq_false_of_not_eq_true hok) hc)
        exact not_recordedOnce hfresh (duplicate_run h htopic hlt hduplicate hkeeps.2) hdone honce
    exact hrun answers (s, .start) trivial hkeeps hdone honce

/-! ## Without limits -/

/-- A store without limits keeps every record. -/
theorem keepsRecords_unlimited (h : envelope.Storable) (hs : s.Unlimited)
    (answers : List StoreAnswer) :
    Along (persistStep A envelope roomCursorHint) (KeepsRecords A envelope) (s, .start)
      answers := by
  have hrun : ∀ (answers : List StoreAnswer) (p : CacheAdapterState × PersistTask),
      p.1.Unlimited →
        Along (persistStep A envelope roomCursorHint) (KeepsRecords A envelope) p answers := by
    intro answers
    induction answers with
    | nil => exact fun _ _ => trivial
    | cons answer rest ih =>
      exact fun p hp => ⟨⟨fun c => not_drops_unlimited hp p.2 answer _, fun _ =>
        ⟨not_drops_unlimited hp p.2 answer _, not_drops_unlimited hp p.2 answer _⟩⟩,
        ih _ ((policy_persistStep h p answer).trans hp)⟩
  exact hrun answers (s, .start) hs

/-! ## On the toy host -/

/-- An issue event whose payload says when its source changed. -/
def toyIssueEvent (id : String) (sourceUpdatedAtMs : Nat) : Envelope where
  room := "main"
  id
  sender := "alice"
  topic := "issue"
  payload := .obj [("issue_id", .str "7"), ("source_updated_at_ms", .ofNat sourceUpdatedAtMs)]
  signature := none

theorem storable_toyIssueEvent : (toyIssueEvent "e" 5).Storable := ⟨by decide, by decide⟩

/-- The first put throws, then the put of the event throws, and the third attempt succeeds. -/
theorem event_recorded_once_thirdAttempt :
    let answers : List StoreAnswer := [false, true, true, true, false, true, true, true, true, true,
      true, true].map fun ok => ⟨ok, 9⟩
    (Along (persistStep .toy (toyIssueEvent "e" 5) none) NoLateThrow (.toy, .start) answers →
      RecordedOnce .toy (toyIssueEvent "e" 5) .toy
        (persistRun .toy (toyIssueEvent "e" 5) none .toy answers).1) ∧
    ((∀ c, CacheAdapterState.toy.object? (eventKey (toyIssueEvent "e" 5) c) = none) →
      RecordedOnce .toy (toyIssueEvent "e" 5) .toy
        (persistRun .toy (toyIssueEvent "e" 5) none .toy answers).1 →
        Along (persistStep .toy (toyIssueEvent "e" 5) none)
          (fun p answer => NoLateThrow p answer ∨ ThrowsSpent p) (.toy, .start) answers) :=
  event_recorded_once storable_toyIssueEvent (by decide)
    (keepsRecords_unlimited storable_toyIssueEvent (show CacheAdapterState.toy.Unlimited from rfl)
      _) (by decide)

/-- The put of the snapshot throws once, and the task succeeds: the event is recorded twice. -/
theorem late_throw_duplicates :
    let p := persistRun .toy (toyIssueEvent "e" 5) none .toy ([true, true, true, true, true, false,
      true, true, true, true, true, true, true].map fun ok => ⟨ok, 9⟩)
    p.2.stage = .persisted ∧ HasEvent (toyIssueEvent "e" 5) p.1 1 ∧
      HasEvent (toyIssueEvent "e" 5) p.1 2 ∧ ¬ RecordedOnce .toy (toyIssueEvent "e" 5) .toy p.1 := by
  refine ⟨by decide, by decide, by decide, ?_⟩
  rintro ⟨c, u, -, hothers, -⟩
  have honly : ∀ other, other ≠ c → HasEvent (toyIssueEvent "e" 5) (persistRun .toy
      (toyIssueEvent "e" 5) none .toy ([true, true, true, true, true, false, true, true, true, true,
        true, true, true].map fun ok => ⟨ok, 9⟩)).1 other → False := by
    intro other hne hother
    obtain ⟨record, hrecord⟩ := Option.isSome_iff_exists.mp hother
    cases hothers other hne record hrecord
  by_cases hfirst : 1 = c
  · exact honly 2 (by omega) (by decide)
  · exact honly 1 hfirst (by decide)

end BitRelay
