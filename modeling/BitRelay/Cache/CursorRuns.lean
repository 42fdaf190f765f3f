import BitRelay.Cache.IssueSnapshots
import BitRelay.Cache.SyncIssues

/-!
# The issue cursors of a room

Envelopes are handed to the adapter and persisted one after the other, while any number
of `syncIssues` calls run. Task and calls read the cursor of a room from the table in
memory and from the store, and write it back to the table, with an await in between.

The system of this module takes one step at each await. It goes on over the store when
an adapter that has persisted everything is replaced by a new one.

Results:
1. `IssueTask.stepsTo`: what a step of a task can do to the adapter.
2. `serial_step`: tasks run one after the other, and between two of them the store knows
   the last cursor of every room.
-/

namespace BitRelay

/-! ## The system -/

/-- An envelope as the relay hands it to the adapter. In a room named `issue`, the key of an envelope
on another topic can be the key of an issue record. -/
structure AcceptedEnvelope where
  envelope : Envelope
  storable : envelope.Storable
  topic : isValidTopic envelope.topic = true
  sender : trim envelope.sender ≠ ""
  apart : isIssueTopic envelope.topic = true ∨ envelope.room ≠ "issue"

def AcceptedEnvelope.isIssue (handed : AcceptedEnvelope) : Bool :=
  isIssueTopic handed.envelope.topic

structure IssueTask where
  handed : AcceptedEnvelope
  roomCursorHint : Option Int
  task : PersistTask

/-- The cursor that the next step of the task assigns. -/
def IssueTask.assigns (t : IssueTask) : List (Envelope × Nat) :=
  match t.task.stage with
  | .cursorRead inMemory cached =>
    [(t.handed.envelope, nextIssueCursor t.roomCursorHint (max inMemory cached))]
  | _ => []

structure SyncCall where
  args : IssueSyncArgs
  stage : IssueSyncStage
  /-- how many cursors had been assigned when the call read the table -/
  assignedAtRead : Nat

structure CursorRun where
  adapter : CacheAdapterState
  /-- the persistence queue, the running task first -/
  tasks : List IssueTask
  syncs : List SyncCall
  /-- the envelopes handed over so far -/
  handedOver : List AcceptedEnvelope
  /-- the cursors assigned so far -/
  assigned : List (Envelope × Nat)
  /-- how many of them adapters before this one assigned -/
  earlier : Nat

/-- An adapter over an empty store. -/
def CursorRun.init : CursorRun := ⟨⟨⟨.unlimited, ∅⟩, ∅⟩, [], [], [], [], 0⟩

inductive CursorEvent
  | handOver (handed : AcceptedEnvelope) (roomCursorHint : Option Int)
  | task (nowSec : Nat)
  | startSync (args : IssueSyncArgs)
  | sync (i nowSec : Nat)
  | replace

namespace CursorRun

section
variable (A : CacheAdapterOptions)

/-- One step of the first task; a task that is through leaves the queue. -/
def stepTask (p : CursorRun) (nowSec : Nat) (t : IssueTask) (rest : List IssueTask) : CursorRun :=
  let (adapter, task) := persistStep A t.handed.envelope t.roomCursorHint (p.adapter, t.task)
    ⟨true, nowSec⟩
  { p with
    adapter
    tasks := if task.stage = .persisted ∨ task.stage = .failed then rest else { t with task } :: rest
    assigned := p.assigned ++ t.assigns }

/-- One step of the `i`-th call. -/
def stepSync (p : CursorRun) (i nowSec : Nat) (call : SyncCall) : CursorRun :=
  let (adapter, stage) := call.stage.step A call.args p.adapter ⟨true, nowSec⟩
  let assignedAtRead := match call.stage with
    | .readCursor _ _ => p.assigned.length
    | _ => call.assignedAtRead
  { p with
    adapter
    syncs := p.syncs.set i ⟨call.args, stage, assignedAtRead⟩ }

def step (p : CursorRun) : CursorEvent → CursorRun
  | .handOver handed roomCursorHint =>
    { p with
      tasks := p.tasks ++ [⟨handed, roomCursorHint, .start⟩]
      handedOver := p.handedOver ++ [handed] }
  | .task nowSec =>
    match p.tasks with
    | [] => p
    | t :: rest => p.stepTask A nowSec t rest
  | .startSync args => { p with syncs := p.syncs ++ [⟨args, .start, 0⟩] }
  | .sync i nowSec =>
    match p.syncs[i]? with
    | none => p
    | some call => p.stepSync A i nowSec call
  | .replace =>
    -- Only a store whose runs are complete gets a new adapter.
    if p.tasks.isEmpty then
      { p with
        adapter := ⟨p.adapter.cacheStore, ∅⟩
        syncs := []
        earlier := p.assigned.length }
    else p

end

/-! ## Cursors -/

/-- The last cursor of a room in a list of assigned cursors. -/
def lastIn (room : String) (assigned : List (Envelope × Nat)) : Nat :=
  ((assigned.filter fun e => e.1.room == room).getLast?.map Prod.snd).getD 0

/-- What the cursor record of a room says. -/
def storedCursor (s : CacheAdapterState) (room : String) : Nat :=
  cursorOf room (s.object? (issueCursorStorageKey room))

end CursorRun

/-! ## Steps of a task -/

/-- What a step of a task does to the adapter, and the call behind it. -/
inductive IssueTask.StepsTo (A : CacheAdapterOptions) (t : IssueTask) (s : CacheAdapterState)
    (nowSec : Nat) : PersistStage → CacheAdapterState → PersistStage → Prop
  | putsEnvelope {stage' : PersistStage}
      (h : stage' = if t.handed.isIssue then .readCursor else .persisted) :
      StepsTo A t s nowSec .putEnvelope (s.store (envelopeRequest A t.handed.envelope nowSec)) stage'
  | readsCursor : StepsTo A t s nowSec .readCursor s
      (.cursorRead (s.issueCursorByRoom.getD t.handed.envelope.room 0)
        (CursorRun.storedCursor s t.handed.envelope.room))
  | assigns (inMemory cached : Nat) : StepsTo A t s nowSec (.cursorRead inMemory cached)
      { s with
        issueCursorByRoom := (s.issueCursorByRoom.set t.handed.envelope.room
          (max inMemory cached)).set t.handed.envelope.room
            (nextIssueCursor t.roomCursorHint (max inMemory cached)) }
      (.putEvent (nextIssueCursor t.roomCursorHint (max inMemory cached)) nowSec)
  | putsEvent (cursor updatedAt : Nat) : StepsTo A t s nowSec (.putEvent cursor updatedAt)
      (s.store (issueEventRequest A t.handed.envelope cursor updatedAt))
      (.readSnapshot cursor updatedAt)
  | readsSnapshot (cursor updatedAt : Nat) {stage' : PersistStage}
      (h : stage' = .putSnapshot cursor updatedAt ∨ stage' = .putCursor cursor updatedAt) :
      StepsTo A t s nowSec (.readSnapshot cursor updatedAt) s stage'
  | putsSnapshot (cursor updatedAt : Nat) : StepsTo A t s nowSec (.putSnapshot cursor updatedAt)
      (s.store (issueSnapshotRequest A t.handed.envelope cursor updatedAt))
      (.putCursor cursor updatedAt)
  | putsCursor (cursor updatedAt : Nat) : StepsTo A t s nowSec (.putCursor cursor updatedAt)
      (s.store (issueCursorRequest A t.handed.envelope cursor updatedAt)) .persisted

/-- A task that is not through makes such a step. -/
theorem IssueTask.stepsTo {A : CacheAdapterOptions} {s : CacheAdapterState} (hs : s.Unlimited)
    (t : IssueTask) (nowSec : Nat)
    (halive : t.task.stage ≠ .persisted ∧ t.task.stage ≠ .failed) :
    ∃ s' stage', t.StepsTo A s nowSec t.task.stage s' stage' ∧
      persistStep A t.handed.envelope t.roomCursorHint (s, t.task) ⟨true, nowSec⟩ =
        (s', { t.task with stage := stage' }) := by
  have hstep : ∀ s' stage', t.task.stage.step A t.handed.envelope t.roomCursorHint s
      ⟨true, nowSec⟩ = some (s', stage') → t.StepsTo A s nowSec t.task.stage s' stage' →
      ∃ s' stage', t.StepsTo A s nowSec t.task.stage s' stage' ∧
        persistStep A t.handed.envelope t.roomCursorHint (s, t.task) ⟨true, nowSec⟩ =
          (s', { t.task with stage := stage' }) :=
    fun s' stage' heq h => ⟨s', stage', h, WriteLemmas.persistStep_of_some heq⟩
  obtain ⟨handed, roomCursorHint, attempt, stage⟩ := t
  cases stage with
  | putEnvelope =>
    exact hstep _ _ (PersistStage.step_putEnvelope hs handed.storable ⟨true, nowSec⟩)
      (.putsEnvelope rfl)
  | readCursor =>
    exact hstep _ _ (PersistStage.step_readCursor hs handed.storable ⟨true, nowSec⟩) .readsCursor
  | cursorRead inMemory cached => exact hstep _ _ rfl (.assigns inMemory cached)
  | putEvent cursor updatedAt =>
    exact hstep _ _ (PersistStage.step_putEvent hs handed.storable ⟨true, nowSec⟩ cursor updatedAt)
      (.putsEvent cursor updatedAt)
  | readSnapshot cursor updatedAt =>
    exact hstep _ _ (PersistStage.step_readSnapshot hs handed.storable ⟨true, nowSec⟩ cursor
      updatedAt) (.readsSnapshot cursor updatedAt (ite_eq_or_eq _ _ _))
  | putSnapshot cursor updatedAt =>
    exact hstep _ _ (PersistStage.step_putSnapshot hs handed.storable ⟨true, nowSec⟩ cursor
      updatedAt) (.putsSnapshot cursor updatedAt)
  | putCursor cursor updatedAt =>
    exact hstep _ _ (PersistStage.step_putCursor hs handed.storable ⟨true, nowSec⟩ cursor updatedAt)
      (.putsCursor cursor updatedAt)
  | persisted => exact absurd rfl halive.1
  | failed => exact absurd rfl halive.2

/-- No call throws. -/
theorem IssueTask.StepsTo.ne_failed {A : CacheAdapterOptions} {t : IssueTask}
    {s s' : CacheAdapterState} {nowSec : Nat} {stage stage' : PersistStage}
    (h : t.StepsTo A s nowSec stage s' stage') : stage' ≠ .failed := by
  rintro rfl
  cases h with
  | putsEnvelope h =>
    split at h
    · cases h
    · cases h
  | readsSnapshot cursor updatedAt h =>
    rcases h with h | h
    · cases h
    · cases h

/-! ## Tasks run one after the other -/

namespace CursorLemmas

open CursorRun WriteLemmas

/-- The cursor that a task has assigned and not yet stored. -/
def pending (t : IssueTask) : List (Envelope × Nat) :=
  match t.task.stage with
  | .putEvent cursor _ | .readSnapshot cursor _ | .putSnapshot cursor _ | .putCursor cursor _ =>
    [(t.handed.envelope, cursor)]
  | _ => []

def headPending (p : CursorRun) : List (Envelope × Nat) := p.tasks.head?.elim [] pending

/-- A running task knows the last cursor that was stored. -/
def Fits (settled : List (Envelope × Nat)) (t : IssueTask) : Prop :=
  match t.task.stage with
  | .putEnvelope => True
  | .cursorRead _ cached =>
    t.handed.isIssue = true ∧ cached = lastIn t.handed.envelope.room settled
  | .persisted | .failed => False
  | _ => t.handed.isIssue = true

/-- The envelopes `done` are persisted, and the store knows the cursors `settled`. -/
structure Serial (p : CursorRun) (done : List AcceptedEnvelope)
    (settled : List (Envelope × Nat)) : Prop where
  unlimited : p.adapter.Unlimited
  handedOver : p.handedOver = done ++ p.tasks.map IssueTask.handed
  done : settled.map Prod.fst =
    (done.filter AcceptedEnvelope.isIssue).map AcceptedEnvelope.envelope
  assigned : p.assigned = settled ++ headPending p
  stored : ∀ room, storedCursor p.adapter room = lastIn room settled
  earlier : p.earlier ≤ settled.length
  waiting : ∀ t ∈ p.tasks.tail, t.task = .start
  head : ∀ t, p.tasks.head? = some t → Fits settled t
  positive : ∀ e ∈ p.assigned, 0 < e.2
  bounded : ∀ e ∈ p.assigned, e.2 ≤ lastIn e.1.room p.assigned

variable {A : CacheAdapterOptions} {p : CursorRun} {s s' : CacheAdapterState} {t : IssueTask}
  {rest : List IssueTask} {done : List AcceptedEnvelope} {settled : List (Envelope × Nat)}
  {nowSec : Nat} {stage' : PersistStage}

theorem lastIn_concat (room : String) (assigned : List (Envelope × Nat)) (e : Envelope × Nat) :
    lastIn room (assigned ++ [e]) = if e.1.room = room then e.2 else lastIn room assigned := by
  unfold lastIn
  rw [List.filter_append, List.filter_singleton, Bool.cond_eq_ite]
  simp only [beq_iff_eq]
  split
  · rw [List.getLast?_concat]
    rfl
  · rw [List.append_nil]

/-- The last cursor of a room is one of its cursors, or there is none. -/
theorem lastIn_mem (room : String) (assigned : List (Envelope × Nat)) :
    (lastIn room assigned = 0 ∧ ∀ e ∈ assigned, e.1.room ≠ room) ∨
      ∃ e ∈ assigned, e.1.room = room ∧ e.2 = lastIn room assigned := by
  cases hlast : (assigned.filter fun e => e.1.room == room).getLast? with
  | none =>
    refine .inl ⟨by rw [lastIn, hlast]; rfl, fun e he hroom => ?_⟩
    rw [List.getLast?_eq_none_iff, List.filter_eq_nil_iff] at hlast
    exact hlast e he (beq_iff_eq.mpr hroom)
  | some e =>
    have hmem := List.mem_filter.mp (List.mem_of_getLast? hlast)
    exact .inr ⟨e, hmem.1, beq_iff_eq.mp hmem.2, by rw [lastIn, hlast]; rfl⟩

/-! ### Puts and the cursor records -/

/-- A cursor record reads back. -/
theorem parse_cursorRecord {envelope : Envelope} (hroom : isValidRoomName envelope.room = true)
    (cursor updatedAt : Nat) :
    parseIssueCacheCursorRecord (issueCursorRequest A envelope cursor updatedAt).stored =
      some ⟨envelope.room, cursor, updatedAt⟩ := by
  have hjson : (issueCursorRequest A envelope cursor updatedAt).stored.body.json =
      some (issueCursorRecord envelope cursor updatedAt).toJson.normalize := rfl
  have hkind : (issueCursorRecord envelope cursor updatedAt).toJson.normalize.get? "kind" =
      some (.str "issue_cursor") := rfl
  have hversion : (issueCursorRecord envelope cursor updatedAt).toJson.normalize.get? "version" =
      some (.ofNat 1) := rfl
  have hfield : (issueCursorRecord envelope cursor updatedAt).toJson.normalize.strField "room" =
      envelope.room := rfl
  have hcursor : (issueCursorRecord envelope cursor updatedAt).toJson.normalize.get? "cursor" =
      some (.ofNat cursor) := rfl
  have hupdated : (issueCursorRecord envelope cursor updatedAt).toJson.normalize.get?
      "updated_at" = some (.ofNat updatedAt) := rfl
  obtain ⟨fields, hfields⟩ : ∃ fields, (issueCursorRecord envelope cursor
      updatedAt).toJson.normalize.fields? = some fields := Option.isSome_iff_exists.mp rfl
  unfold parseIssueCacheCursorRecord
  rw [hjson]
  simp only [Option.bind_eq_bind, Option.bind_some, hfields, hkind, hversion, hfield, hroom,
    hcursor, hupdated, asNonNegativeInt_ofNat, ne_eq, not_true_eq_false, Bool.true_eq_false,
    if_false]
  rfl

theorem envelopeKey_ne_cursor {room room' id : String} (hroom : isValidRoomName room = true)
    (hne : room ≠ "issue") : envelopeStorageKey room id ≠ issueCursorStorageKey room' := by
  rw [issueCursorStorageKey_eq]
  intro heq
  exact hne (envelopeStorageKey_inj (slash_notMem_room hroom) (by decide) heq).1

theorem storedCursor_store_of_ne {request : CacheStorePutRequest} {room : String}
    (h : toStorageKey .object (issueCursorStorageKey room) ≠ request.storageKey) :
    storedCursor (s.store request) room = storedCursor s room := by
  unfold storedCursor
  rw [object?_store_of_ne h]

theorem storedCursor_store_of_key {request : CacheStorePutRequest} {room : String}
    (h : request.key ≠ issueCursorStorageKey room) :
    storedCursor (s.store request) room = storedCursor s room := by
  refine storedCursor_store_of_ne fun heq => h ?_
  exact (toStorageKey_inj (show toStorageKey .object (issueCursorStorageKey room) =
    toStorageKey request.kind request.key from heq)).2.symm

/-- The put of an envelope touches no cursor record. -/
theorem storedCursor_envelope (handed : AcceptedEnvelope) (nowSec : Nat) (room : String) :
    storedCursor (s.store (envelopeRequest A handed.envelope nowSec)) room =
      storedCursor s room := by
  rcases handed.apart with htopic | hne
  · unfold storedCursor
    rw [object?_storeEnvelope htopic]
  · exact storedCursor_store_of_key (envelopeKey_ne_cursor handed.storable.room hne)

/-- The put of the cursor record. -/
theorem storedCursor_cursor (handed : AcceptedEnvelope) (cursor updatedAt : Nat) (room : String) :
    storedCursor (s.store (issueCursorRequest A handed.envelope cursor updatedAt)) room =
      if handed.envelope.room = room then cursor else storedCursor s room := by
  split
  · next heq =>
    subst heq
    have hparse : parseIssueCacheCursorRecord
        (issueCursorRequest A handed.envelope cursor updatedAt).stored =
          some ⟨handed.envelope.room, cursor, updatedAt⟩ :=
      parse_cursorRecord handed.storable.room _ _
    unfold storedCursor
    rw [show issueCursorStorageKey handed.envelope.room =
      (issueCursorRequest A handed.envelope cursor updatedAt).key from rfl,
      object?_store_self rfl]
    unfold cursorOf
    rw [Option.bind_some, hparse]
    exact if_pos rfl
  · next hne =>
    refine storedCursor_store_of_key fun heq => hne ?_
    exact append_right_inj (show ISSUE_CURSOR_KEY_PREFIX ++ handed.envelope.room =
      ISSUE_CURSOR_KEY_PREFIX ++ room from heq)

/-! ### A step of the running task -/

/-- The run after a step of the first task. -/
def afterTask (p : CursorRun) (t : IssueTask) (rest : List IssueTask) (s' : CacheAdapterState)
    (stage' : PersistStage) : CursorRun :=
  { p with
    adapter := s'
    tasks := if stage' = .persisted then rest
      else { t with task := { t.task with stage := stage' } } :: rest
    assigned := p.assigned ++ t.assigns }

theorem step_task (h : Serial p done settled) (ht : p.tasks = t :: rest) (nowSec : Nat) :
    ∃ s' stage', t.StepsTo A p.adapter nowSec t.task.stage s' stage' ∧
      p.step A (.task nowSec) = afterTask p t rest s' stage' := by
  have hfits := h.head t (by rw [ht]; rfl)
  have halive : t.task.stage ≠ .persisted ∧ t.task.stage ≠ .failed := by
    unfold Fits at hfits
    constructor
    · intro heq
      rw [heq] at hfits
      exact hfits
    · intro heq
      rw [heq] at hfits
      exact hfits
  obtain ⟨s', stage', hsteps, hpersist⟩ := t.stepsTo (A := A) h.unlimited nowSec halive
  have hfailed := hsteps.ne_failed
  refine ⟨s', stage', hsteps, ?_⟩
  simp only [step, ht, stepTask, hpersist, hfailed, or_false]
  rfl

/-- A step that neither assigns nor stores a cursor. -/
theorem serial_on (h : Serial p done settled) (ht : p.tasks = t :: rest) (t' : IssueTask)
    (hhanded : t'.handed = t.handed) (hunlimited : s'.Unlimited)
    (hstored : ∀ room, storedCursor s' room = storedCursor p.adapter room)
    (hpending : pending t' = pending t) (hfits : Fits settled t') :
    Serial { p with adapter := s', tasks := t' :: rest } done settled where
  unlimited := hunlimited
  handedOver := by
    have hall := h.handedOver
    rw [ht] at hall
    rw [List.map_cons, hhanded]
    exact hall
  done := h.done
  assigned := by
    have hall := h.assigned
    rw [headPending, ht] at hall
    show p.assigned = settled ++ pending t'
    rw [hpending]
    exact hall
  stored room := (hstored room).trans (h.stored room)
  earlier := h.earlier
  waiting := by
    have hall := h.waiting
    rw [ht] at hall
    exact hall
  head t ht := by
    cases ht
    exact hfits
  positive := h.positive
  bounded := h.bounded

variable (s') in
/-- The last step of a task. -/
theorem serial_off (h : Serial p done settled) (ht : p.tasks = t :: rest)
    (hunlimited : s'.Unlimited)
    (hstored : ∀ room, storedCursor s' room = lastIn room (settled ++ pending t))
    (hdone : (pending t).map Prod.fst =
      ([t.handed].filter AcceptedEnvelope.isIssue).map AcceptedEnvelope.envelope) :
    Serial { p with adapter := s', tasks := rest } (done ++ [t.handed]) (settled ++ pending t) := by
  have hassigned := h.assigned
  have hwaiting := h.waiting
  have hhanded := h.handedOver
  rw [headPending, ht] at hassigned
  rw [ht] at hwaiting hhanded
  have hassigned : p.assigned = settled ++ pending t := hassigned
  have hwaiting : ∀ t ∈ rest, t.task = .start := hwaiting
  refine ⟨hunlimited, ?_, ?_, ?_, hstored, ?_, fun next hmem => ?_, fun next hhead => ?_,
    h.positive, h.bounded⟩
  · show p.handedOver = _
    rw [hhanded, List.map_cons, List.append_assoc]
    rfl
  · rw [List.map_append, h.done, hdone, List.filter_append, List.map_append]
  · show p.assigned = settled ++ pending t ++ rest.head?.elim [] pending
    rw [hassigned]
    cases rest with
    | nil => exact (List.append_nil _).symm
    | cons next _ =>
      show _ = _ ++ pending next
      unfold pending
      rw [hwaiting next List.mem_cons_self]
      exact (List.append_nil _).symm
  · rw [List.length_append]
    exact Nat.le_trans h.earlier (Nat.le_add_right _ _)
  · exact hwaiting next (List.mem_of_mem_tail hmem)
  · unfold Fits
    rw [hwaiting next (List.mem_of_mem_head? hhead)]
    trivial

/-- The step that assigns a cursor. -/
theorem serial_assigns (h : Serial p done settled) (ht : p.tasks = t :: rest)
    {inMemory cached : Nat} (hstage : t.task.stage = .cursorRead inMemory cached)
    (issueCursorByRoom : OrdMap String Nat) (nowSec : Nat) :
    let next := nextIssueCursor t.roomCursorHint (max inMemory cached)
    Serial { p with
      adapter := { p.adapter with issueCursorByRoom }
      tasks := { t with task := { t.task with stage := .putEvent next nowSec } } :: rest
      assigned := p.assigned ++ [(t.handed.envelope, next)] } done settled := by
  intro next
  have hassigned := h.assigned
  have hhanded := h.handedOver
  have hwaiting := h.waiting
  have hfits := h.head t (by rw [ht]; rfl)
  rw [headPending, ht] at hassigned
  rw [ht] at hwaiting hhanded
  unfold Fits at hfits
  rw [hstage] at hfits
  obtain ⟨hissue, hcached⟩ := hfits
  have hpending : pending t = [] := by
    unfold pending
    rw [hstage]
  have hassigned : p.assigned = settled := by
    rw [hassigned]
    show settled ++ pending t = settled
    rw [hpending, List.append_nil]
  -- The new cursor is not below the last one, which the task has read.
  have hlast : lastIn t.handed.envelope.room p.assigned ≤ next := by
    rw [hassigned, ← hcached]
    exact Nat.le_trans (Nat.le_trans (Nat.le_max_right inMemory cached) (Nat.le_max_left _ _))
      (le_incDouble _)
  refine ⟨h.unlimited, hhanded, h.done, congrArg (· ++ _) hassigned, h.stored, h.earlier, hwaiting,
    fun t ht => ?_, fun e he => ?_, fun e he => ?_⟩
  · cases ht
    exact hissue
  · rcases List.mem_append.mp he with he | he
    · exact h.positive e he
    · rw [List.mem_singleton.mp he]
      exact incDouble_pos _
  · rw [lastIn_concat]
    rcases List.mem_append.mp he with he | he
    · have hbound := h.bounded e he
      split
      · next hroom =>
        rw [← hroom] at hbound
        exact Nat.le_trans hbound hlast
      · exact hbound
    · rw [List.mem_singleton.mp he, if_pos rfl]

/-- The task goes on to its next call. -/
theorem serial_goesOn (h : Serial p done settled) (ht : p.tasks = t :: rest)
    (hassigns : t.assigns = []) (hunlimited : s'.Unlimited)
    (hstored : ∀ room, storedCursor s' room = storedCursor p.adapter room)
    (hne : stage' ≠ .persisted)
    (hpending : pending { t with task := { t.task with stage := stage' } } = pending t)
    (hfits : Fits settled { t with task := { t.task with stage := stage' } }) :
    Serial (afterTask p t rest s' stage')
      (if stage' = .persisted then done ++ [t.handed] else done)
      (if stage' = .persisted then settled ++ pending t else settled) := by
  have hon := serial_on h ht { t with task := { t.task with stage := stage' } } rfl
    hunlimited hstored hpending hfits
  unfold afterTask
  rw [hassigns, List.append_nil, if_neg hne, if_neg hne, if_neg hne]
  exact hon

/-- The run after a step is serial again; a task that is through moves to `done`. -/
theorem serial_afterTask (h : Serial p done settled) (ht : p.tasks = t :: rest)
    (hsteps : t.StepsTo A p.adapter nowSec t.task.stage s' stage') :
    Serial (afterTask p t rest s' stage')
      (if stage' = .persisted then done ++ [t.handed] else done)
      (if stage' = .persisted then settled ++ pending t else settled) := by
  have hfits := h.head t (by rw [ht]; rfl)
  obtain ⟨handed, roomCursorHint, attempt, stage⟩ := t
  cases hsteps with
  | putsEnvelope hstage =>
    cases hissue : handed.isIssue with
    | true =>
      obtain rfl : stage' = .readCursor := by rw [hstage, if_pos hissue]
      exact serial_goesOn h ht rfl h.unlimited (storedCursor_envelope handed nowSec) (by decide) rfl
        hissue
    | false =>
      obtain rfl : stage' = .persisted := by
        rw [hstage, if_neg (ne_true_of_eq_false hissue)]
      have hoff := serial_off (p.adapter.store (envelopeRequest A handed.envelope nowSec)) h ht
        h.unlimited (fun room => (storedCursor_envelope handed nowSec room).trans
          ((h.stored room).trans (congrArg _ (List.append_nil settled).symm)))
        (by rw [List.filter_cons_of_neg (ne_true_of_eq_false hissue)]; rfl)
      unfold afterTask
      rw [show IssueTask.assigns _ = [] from rfl, List.append_nil, if_pos rfl, if_pos rfl, if_pos rfl]
      exact hoff
  | readsCursor =>
    exact serial_goesOn h ht rfl h.unlimited (fun _ => rfl) (by rintro ⟨⟩) rfl ⟨hfits, h.stored _⟩
  | assigns inMemory cached =>
    have hnext : PersistStage.putEvent (nextIssueCursor roomCursorHint (max inMemory cached)) nowSec ≠
        .persisted := by rintro ⟨⟩
    rw [if_neg hnext, if_neg hnext]
    unfold afterTask
    rw [if_neg hnext]
    exact serial_assigns h ht rfl _ nowSec
  | putsEvent cursor updatedAt =>
    exact serial_goesOn h ht rfl h.unlimited (fun _ => storedCursor_store_of_key event_ne_cursor)
      (by rintro ⟨⟩) rfl hfits
  | readsSnapshot cursor updatedAt hstage =>
    rcases hstage with rfl | rfl
    · exact serial_goesOn h ht rfl h.unlimited (fun _ => rfl) (by rintro ⟨⟩) rfl hfits
    · exact serial_goesOn h ht rfl h.unlimited (fun _ => rfl) (by rintro ⟨⟩) rfl hfits
  | putsSnapshot cursor updatedAt =>
    exact serial_goesOn h ht rfl h.unlimited (fun _ => storedCursor_store_of_key snapshot_ne_cursor)
      (by rintro ⟨⟩) rfl hfits
  | putsCursor cursor updatedAt =>
    have hoff := serial_off
      (p.adapter.store (issueCursorRequest A handed.envelope cursor updatedAt)) h ht h.unlimited
      (fun room => by
        rw [storedCursor_cursor, h.stored]
        exact (lastIn_concat room settled (handed.envelope, cursor)).symm)
      (by rw [List.filter_cons_of_pos hfits]; rfl)
    unfold afterTask
    rw [show IssueTask.assigns _ = [] from rfl, List.append_nil, if_pos rfl, if_pos rfl, if_pos rfl]
    exact hoff

/-! ### Every step -/

/-- The table in memory and the calls play no part. -/
theorem serial_table (h : Serial p done settled) (issueCursorByRoom : OrdMap String Nat)
    (syncs : List SyncCall) :
    Serial { p with
      adapter := { p.adapter with issueCursorByRoom }
      syncs } done settled :=
  ⟨h.unlimited, h.handedOver, h.done, h.assigned, h.stored, h.earlier, h.waiting, h.head, h.positive,
    h.bounded⟩

theorem serial_handOver (h : Serial p done settled) (handed : AcceptedEnvelope)
    (roomCursorHint : Option Int) :
    Serial (p.step A (.handOver handed roomCursorHint)) done settled := by
  have hhanded : p.handedOver ++ [handed] =
      done ++ (p.tasks ++ [IssueTask.mk handed roomCursorHint .start]).map IssueTask.handed := by
    rw [h.handedOver, List.map_append, List.append_assoc]
    rfl
  obtain ⟨adapter, tasks, syncs, handedOver, assigned, earlier⟩ := p
  cases tasks with
  | nil =>
    refine ⟨h.unlimited, hhanded, h.done, h.assigned, h.stored, h.earlier, fun _ ht => ?_,
      fun t ht => ?_, h.positive, h.bounded⟩
    · cases ht
    · cases ht
      trivial
  | cons t rest =>
    refine ⟨h.unlimited, hhanded, h.done, h.assigned, h.stored, h.earlier, fun next hnext => ?_,
      h.head, h.positive, h.bounded⟩
    rcases List.mem_append.mp (show next ∈ rest ++ [_] from hnext) with hmem | hmem
    · exact h.waiting next hmem
    · rw [List.mem_singleton.mp hmem]

theorem serial_replace (h : Serial p done settled) : Serial (p.step A .replace) done settled := by
  unfold step
  simp only
  split
  · next hempty =>
    have htasks : p.tasks = [] := List.isEmpty_iff.mp hempty
    have hlength : p.assigned.length ≤ settled.length := by
      rw [h.assigned, headPending, htasks]
      exact Nat.le_of_eq (congrArg List.length (List.append_nil settled))
    exact ⟨h.unlimited, h.handedOver, h.done, h.assigned, h.stored, hlength, h.waiting, h.head,
      h.positive, h.bounded⟩
  · exact h

/-- What a step of a call does to the run. -/
theorem step_sync (h : Serial p done settled) {i : Nat} {call : SyncCall}
    (hcall : p.syncs[i]? = some call) (nowSec : Nat) :
    ∃ s' stage', call.stage.StepsTo call.args p.adapter s' stage' ∧
      p.step A (.sync i nowSec) =
        { p with
          adapter := s'
          syncs := p.syncs.set i ⟨call.args, stage', match call.stage with
            | .readCursor _ _ => p.assigned.length
            | _ => call.assignedAtRead⟩ } := by
  obtain ⟨s', stage', heq, hsteps⟩ := call.stage.stepsTo (A := A) h.unlimited call.args nowSec
  refine ⟨s', stage', hsteps, ?_⟩
  simp only [step, hcall, stepSync, heq]

theorem serial_sync (h : Serial p done settled) (i nowSec : Nat) :
    Serial (p.step A (.sync i nowSec)) done settled := by
  cases hcall : p.syncs[i]? with
  | none =>
    simp only [step, hcall]
    exact h
  | some call =>
    obtain ⟨s', stage', hsteps, heq⟩ := step_sync (A := A) h hcall nowSec
    rw [heq]
    generalize call.stage = stage at hsteps ⊢
    cases hsteps with
    | loads hfrom hto => exact serial_table h _ _
    | reads events snapshots => exact serial_table h _ _
    | writes events snapshots inMemory persisted result => exact serial_table h _ _

theorem serial_step (h : Serial p done settled) (event : CursorEvent) :
    ∃ done' settled', Serial (p.step A event) done' settled' := by
  cases event with
  | handOver handed roomCursorHint => exact ⟨_, _, serial_handOver h handed roomCursorHint⟩
  | task nowSec =>
    cases htasks : p.tasks with
    | nil =>
      refine ⟨done, settled, ?_⟩
      simp only [step, htasks]
      exact h
    | cons t rest =>
      obtain ⟨s', stage', hsteps, heq⟩ := step_task (A := A) h htasks nowSec
      rw [heq]
      exact ⟨_, _, serial_afterTask h htasks hsteps⟩
  | startSync args => exact ⟨_, _, serial_table h _ _⟩
  | sync i nowSec => exact ⟨_, _, serial_sync h i nowSec⟩
  | replace => exact ⟨_, _, serial_replace h⟩

end CursorLemmas

end BitRelay
