import BitRelay.Cache.RecordedCursors

/-!
# The table of issue cursors

The adapter remembers the last cursor of each room in a table, which
`snapshotIssueCursors` saves. A call of `syncIssues` reads the table and the store and
writes the greater cursor back: when a task assigned a cursor in between, the table goes
back to the one before.

Results:
1. `cursor_never_back_iff`: the table of a room never goes back and covers every assigned
   cursor, as long as no call writes an outdated cursor back; and only then, while the
   cursors are exact.
2. `stale_write_goes_back`: a run in which the table goes back.
-/

namespace BitRelay

namespace CursorRun

/-! ## The table along a run -/

/-- `issueCursorByRoom.get(room) ?? 0` -/
def inMemory (p : CursorRun) (room : String) : Nat := p.adapter.issueCursorByRoom.getD room 0

/-- Rooms with improper names are left out. -/
def snapshotIssueCursors (s : CacheAdapterState) : OrdMap String Nat :=
  s.issueCursorByRoom.filter fun room _ => isValidRoomName room

/-- A snapshot reports a cursor that is not below the ones this adapter has assigned. -/
def CoversAssigned (p : CursorRun) (room : String) : Prop :=
  ∀ e ∈ p.assigned.drop p.earlier, e.1.room = room →
    e.2 ≤ (snapshotIssueCursors p.adapter).getD room 0

/-- The cursor of the room does not go back, and a snapshot covers the assigned ones. A new adapter
starts with an empty table. -/
def NeverBack (A : CacheAdapterOptions) (room : String) (p : CursorRun) : CursorEvent → Prop
  | .replace => True
  | event => p.inMemory room ≤ (p.step A event).inMemory room ∧ (p.step A event).CoversAssigned room

instance (p : CursorRun) (room : String) : Decidable (p.CoversAssigned room) :=
  inferInstanceAs (Decidable (∀ e ∈ _, _ → _))

instance (A : CacheAdapterOptions) (room : String) (p : CursorRun) (event : CursorEvent) :
    Decidable (p.NeverBack A room event) :=
  match event with
  | .replace => .isTrue trivial
  | .handOver .. | .task .. | .startSync .. | .sync .. =>
    inferInstanceAs (Decidable (_ ∧ CoversAssigned _ _))

/-- No call writes the cursor of the room back when one was assigned after its read. -/
def NoStaleWrite (room : String) (p : CursorRun) : CursorEvent → Prop
  | .sync i _ => ∀ call, p.syncs[i]? = some call → call.args.room = room →
    ∀ events snapshots inMemory persisted,
      call.stage = .cursorRead events snapshots inMemory persisted →
      ∀ e ∈ p.assigned.drop call.assignedAtRead, e.1.room ≠ room
  | _ => True

end CursorRun

/-! ## The invariant -/

namespace CursorLemmas

open CursorRun

/-- What a call that has read the cursor of the room knows. -/
structure ReadFits (p : CursorRun) (room : String) (call : SyncCall)
    (inMemory persisted : Nat) : Prop where
  earlier : p.earlier ≤ call.assignedAtRead
  length : call.assignedAtRead ≤ p.assigned.length
  value : max inMemory persisted ≤ lastIn room p.assigned
  fresh : (∀ e ∈ p.assigned.drop call.assignedAtRead, e.1.room ≠ room) →
    max inMemory persisted = lastIn room p.assigned

/-- The table knows the last cursor of the room, once this adapter has assigned one. -/
structure TableFits (p : CursorRun) (room : String) : Prop where
  memory : p.inMemory room ≤ lastIn room p.assigned
  covers : ∀ e ∈ p.assigned.drop p.earlier, e.1.room = room →
    p.inMemory room = lastIn room p.assigned
  reads : ∀ call ∈ p.syncs, call.args.room = room →
    ∀ events snapshots inMemory persisted,
      call.stage = .cursorRead events snapshots inMemory persisted →
      ReadFits p room call inMemory persisted

variable {A : CacheAdapterOptions} {p : CursorRun} {s' : CacheAdapterState} {t : IssueTask}
  {rest : List IssueTask} {done : List AcceptedEnvelope} {settled : List (Envelope × Nat)}
  {nowSec : Nat} {stage' : PersistStage} {room : String}

theorem lastIn_append_of_notMem {assigned more : List (Envelope × Nat)}
    (h : ∀ e ∈ more, e.1.room ≠ room) : lastIn room (assigned ++ more) = lastIn room assigned := by
  have hnone : (more.filter fun e => e.1.room == room) = [] :=
    List.filter_eq_nil_iff.mpr fun e he heq => h e he (beq_iff_eq.mp heq)
  unfold lastIn
  rw [List.filter_append, hnone, List.append_nil]

/-- The store is not ahead of the assigned cursors. -/
theorem storedCursor_le (h : Serial p done settled) (room : String) :
    storedCursor p.adapter room ≤ lastIn room p.assigned := by
  rw [h.stored]
  rcases lastIn_mem room settled with ⟨hzero, -⟩ | ⟨e, he, rfl, heq⟩
  · rw [hzero]
    exact Nat.zero_le _
  · rw [← heq]
    refine h.bounded e ?_
    rw [h.assigned]
    exact List.mem_append_left _ he

/-- Table and store together know the last cursor. -/
theorem max_read (h : Serial p done settled) (ht : TableFits p room) :
    max (p.inMemory room) (storedCursor p.adapter room) = lastIn room p.assigned := by
  refine Nat.le_antisymm (Nat.max_le.mpr ⟨ht.memory, storedCursor_le h room⟩) ?_
  by_cases hassigned : ∃ e ∈ p.assigned.drop p.earlier, e.1.room = room
  · obtain ⟨e, he, hroom⟩ := hassigned
    rw [ht.covers e he hroom]
    exact Nat.le_max_left _ _
  · -- This adapter has assigned none, so the running task has none under way.
    have hpending : ∀ e ∈ headPending p, e.1.room ≠ room := by
      intro e he hroom
      refine hassigned ⟨e, ?_, hroom⟩
      rw [h.assigned, List.drop_append_of_le_length h.earlier]
      exact List.mem_append_right _ he
    have hlast : lastIn room p.assigned = lastIn room settled := by
      rw [h.assigned, lastIn_append_of_notMem hpending]
    rw [hlast, h.stored]
    exact Nat.le_max_right _ _

theorem proper_assigned (h : Serial p done settled) {e : Envelope × Nat} (he : e ∈ p.assigned) :
    isValidRoomName e.1.room = true := by
  have hproper : ∀ handed : List AcceptedEnvelope, ∀ envelope ∈
      (handed.filter AcceptedEnvelope.isIssue).map AcceptedEnvelope.envelope,
      isValidRoomName envelope.room = true := by
    intro handed envelope hmem
    obtain ⟨accepted, -, rfl⟩ := List.mem_map.mp hmem
    exact accepted.storable.room
  rw [h.assigned] at he
  rcases List.mem_append.mp he with he | he
  · refine hproper done e.1 ?_
    rw [← h.done]
    exact List.mem_map_of_mem he
  · unfold headPending at he
    cases htasks : p.tasks with
    | nil =>
      rw [htasks] at he
      cases he
    | cons t rest =>
      rw [htasks] at he
      have hroom : e.1 = t.handed.envelope := by
        simp only [List.head?_cons, Option.elim_some] at he
        unfold pending at he
        split at he
        · rw [List.mem_singleton.mp he]
        · rw [List.mem_singleton.mp he]
        · rw [List.mem_singleton.mp he]
        · rw [List.mem_singleton.mp he]
        · cases he
      rw [hroom]
      exact t.handed.storable.room

/-- A table that knows the last cursor covers the assigned ones. -/
theorem coversAssigned (h : Serial p done settled) (ht : TableFits p room) :
    p.CoversAssigned room := by
  intro e he hroom
  have hmem := List.mem_of_mem_drop he
  have hproper := proper_assigned h hmem
  have hreported : (snapshotIssueCursors p.adapter).getD room 0 = p.inMemory room := by
    subst hroom
    unfold snapshotIssueCursors inMemory OrdMap.getD
    rw [OrdMap.get?_filter]
    cases p.adapter.issueCursorByRoom.get? e.1.room with
    | none => rfl
    | some cursor =>
      show ((some cursor).filter fun _ => isValidRoomName e.1.room).getD 0 = _
      rw [hproper]
      rfl
  rw [hreported, ht.covers e he hroom, ← hroom]
  exact h.bounded e hmem

/-! ## One step -/

/-- A step that leaves the room's table entry and the assigned cursors alone. -/
theorem tableFits_of_same (ht : TableFits p room) {p' : CursorRun}
    (hmemory : p'.inMemory room = p.inMemory room) (hassigned : p'.assigned = p.assigned)
    (hearlier : p'.earlier = p.earlier)
    (hreads : ∀ call ∈ p'.syncs, call.args.room = room →
      ∀ events snapshots inMemory persisted,
        call.stage = .cursorRead events snapshots inMemory persisted →
        ReadFits p room call inMemory persisted) : TableFits p' room := by
  refine ⟨?_, ?_, fun call hcall hroom events snapshots inMemory persisted hstage => ?_⟩
  · rw [hmemory, hassigned]
    exact ht.memory
  · rw [hmemory, hassigned, hearlier]
    exact ht.covers
  · have h := hreads call hcall hroom events snapshots inMemory persisted hstage
    exact ⟨hearlier ▸ h.earlier, hassigned ▸ h.length, hassigned ▸ h.value, hassigned ▸ h.fresh⟩

/-- A step of a call. -/
theorem table_sync (h : Serial p done settled) (ht : TableFits p room) {i nowSec : Nat}
    (hcond : p.NoStaleWrite room (.sync i nowSec)) :
    TableFits (p.step A (.sync i nowSec)) room ∧
      p.inMemory room ≤ (p.step A (.sync i nowSec)).inMemory room := by
  cases hcall : p.syncs[i]? with
  | none =>
    simp only [step, hcall]
    exact ⟨ht, Nat.le_refl _⟩
  | some call =>
    obtain ⟨s', stage', hsteps, heq⟩ := step_sync (A := A) h hcall nowSec
    rw [heq]
    obtain ⟨args, stage, assignedAtRead⟩ := call
    cases hsteps with
    | loads hfrom hto =>
      refine ⟨tableFits_of_same ht rfl rfl rfl ?_, Nat.le_refl _⟩
      intro other hother hroom events snapshots inMemory persisted hreading
      rcases List.mem_or_eq_of_mem_set hother with hmem | rfl
      · exact ht.reads other hmem hroom _ _ _ _ hreading
      · exact absurd hreading (hto _ _ _ _)
    | reads events snapshots =>
      refine ⟨tableFits_of_same ht rfl rfl rfl ?_, Nat.le_refl _⟩
      intro other hother hroom events' snapshots' inMemory persisted hreading
      rcases List.mem_or_eq_of_mem_set hother with hmem | rfl
      · exact ht.reads other hmem hroom _ _ _ _ hreading
      · cases hreading
        have hroom : args.room = room := hroom
        have hmax : max (p.inMemory args.room) (storedCursor p.adapter args.room) =
            lastIn room p.assigned := by rw [hroom, max_read h ht]
        refine ⟨?_, Nat.le_refl _, Nat.le_of_eq hmax, fun _ => hmax⟩
        show p.earlier ≤ p.assigned.length
        rw [h.assigned, List.length_append]
        exact Nat.le_trans h.earlier (Nat.le_add_right _ _)
    | writes events snapshots inMemory persisted result =>
      have hreads : ∀ other ∈ p.syncs.set i ⟨args, .returned result, assignedAtRead⟩,
          other.args.room = room → ∀ events snapshots inMemory persisted,
            other.stage = .cursorRead events snapshots inMemory persisted →
            ReadFits p room other inMemory persisted := by
        intro other hother hroom events snapshots inMemory persisted hreading
        rcases List.mem_or_eq_of_mem_set hother with hmem | rfl
        · exact ht.reads other hmem hroom _ _ _ _ hreading
        · cases hreading
      by_cases hroom : args.room = room
      · subst hroom
        have hread := ht.reads _ (List.mem_of_getElem? hcall) rfl _ _ _ _ rfl
        have hvalue := hread.fresh (hcond _ hcall rfl _ _ _ _ rfl)
        have hwritten : (p.adapter.issueCursorByRoom.set args.room (max inMemory persisted)).getD
            args.room 0 = lastIn args.room p.assigned := by
          rw [OrdMap.getD_set_self, hvalue]
        refine ⟨⟨Nat.le_of_eq hwritten, fun _ _ _ => hwritten, ?_⟩, ?_⟩
        · intro other hother hroom events snapshots inMemory persisted hreading
          have hfits := hreads other hother hroom events snapshots inMemory persisted hreading
          exact ⟨hfits.earlier, hfits.length, hfits.value, hfits.fresh⟩
        · show p.inMemory args.room ≤ (p.adapter.issueCursorByRoom.set _ _).getD _ 0
          rw [hwritten]
          exact ht.memory
      · have hsame : (p.adapter.issueCursorByRoom.set args.room (max inMemory persisted)).getD room 0 =
            p.inMemory room :=
          OrdMap.getD_set_of_ne _ (fun heq => hroom heq.symm) _ _
        exact ⟨tableFits_of_same ht hsame rfl rfl hreads, Nat.le_of_eq hsame.symm⟩

/-- The step that assigns a cursor: calls that have read before it know an outdated one. -/
theorem table_assigns (h : Serial p done settled) (ht : TableFits p room)
    (htasks : p.tasks = t :: rest) {inMemory cached : Nat}
    (hstage : t.task.stage = .cursorRead inMemory cached) (tasks : List IssueTask) :
    let next := nextIssueCursor t.roomCursorHint (max inMemory cached)
    let p' : CursorRun := { p with
      adapter := { p.adapter with
        issueCursorByRoom := (p.adapter.issueCursorByRoom.set t.handed.envelope.room
          (max inMemory cached)).set t.handed.envelope.room next }
      tasks
      assigned := p.assigned ++ [(t.handed.envelope, next)] }
    TableFits p' room ∧ p.inMemory room ≤ p'.inMemory room := by
  intro next p'
  have hfits := h.head t (by rw [htasks]; rfl)
  have hassigned := h.assigned
  unfold Fits at hfits
  rw [hstage] at hfits
  rw [headPending, htasks] at hassigned
  have hpending : pending t = [] := by
    unfold pending
    rw [hstage]
  have hassigned : p.assigned = settled := by
    rw [hassigned]
    show settled ++ pending t = settled
    rw [hpending, List.append_nil]
  by_cases hroom : t.handed.envelope.room = room
  · subst hroom
    have hmemory : p'.inMemory t.handed.envelope.room = next := OrdMap.getD_set_self _ _ _ _
    have hlast : lastIn t.handed.envelope.room p'.assigned = next := by
      show lastIn _ (p.assigned ++ [_]) = next
      rw [lastIn_concat, if_pos rfl]
    have hgrows : lastIn t.handed.envelope.room p.assigned ≤ next := by
      rw [hassigned, ← hfits.2]
      exact Nat.le_trans (Nat.le_trans (Nat.le_max_right inMemory cached) (Nat.le_max_left _ _))
        (le_incDouble _)
    refine ⟨⟨?_, fun _ _ _ => hmemory.trans hlast.symm, ?_⟩, ?_⟩
    · rw [hmemory, hlast]
    · intro call hcall hroom events snapshots inMemory' persisted hreading
      have hread := ht.reads call hcall hroom events snapshots inMemory' persisted hreading
      refine ⟨hread.earlier, ?_, ?_, fun hnone => ?_⟩
      · show call.assignedAtRead ≤ (p.assigned ++ [_]).length
        rw [List.length_append]
        exact Nat.le_trans hread.length (Nat.le_add_right _ _)
      · rw [hlast]
        exact Nat.le_trans hread.value hgrows
      · refine absurd rfl (hnone (t.handed.envelope, next) ?_)
        show _ ∈ (p.assigned ++ [_]).drop _
        rw [List.drop_append_of_le_length hread.length]
        exact List.mem_append_right _ List.mem_cons_self
    · rw [hmemory]
      exact Nat.le_trans ht.memory hgrows
  · have hmemory : p'.inMemory room = p.inMemory room := by
      have hne : room ≠ t.handed.envelope.room := fun heq => hroom heq.symm
      exact (OrdMap.getD_set_of_ne _ hne _ _).trans (OrdMap.getD_set_of_ne _ hne _ _)
    have hlast : lastIn room p'.assigned = lastIn room p.assigned := by
      show lastIn _ (p.assigned ++ [_]) = _
      rw [lastIn_concat, if_neg hroom]
    have hdrop : ∀ n e, e ∈ p'.assigned.drop n → e.1.room = room → e ∈ p.assigned.drop n := by
      intro n e he heq
      have he : e ∈ (p.assigned ++ [_]).drop n := he
      rw [List.drop_append] at he
      rcases List.mem_append.mp he with he | he
      · exact he
      · rw [List.mem_singleton.mp (List.mem_of_mem_drop he)] at heq
        exact absurd heq hroom
    refine ⟨⟨?_, fun e he heq => ?_, ?_⟩, Nat.le_of_eq hmemory.symm⟩
    · rw [hmemory, hlast]
      exact ht.memory
    · rw [hmemory, hlast]
      exact ht.covers e (hdrop _ e he heq) heq
    · intro call hcall heq events snapshots inMemory' persisted hreading
      have hread := ht.reads call hcall heq events snapshots inMemory' persisted hreading
      refine ⟨hread.earlier, ?_, hlast ▸ hread.value, fun hnone => ?_⟩
      · show call.assignedAtRead ≤ (p.assigned ++ [_]).length
        rw [List.length_append]
        exact Nat.le_trans hread.length (Nat.le_add_right _ _)
      · rw [hlast]
        refine hread.fresh fun e he => hnone e ?_
        show _ ∈ (p.assigned ++ [_]).drop _
        rw [List.drop_append_of_le_length hread.length]
        exact List.mem_append_left _ he

/-- A step of the running task. -/
theorem table_afterTask (h : Serial p done settled) (ht : TableFits p room)
    (htasks : p.tasks = t :: rest)
    (hsteps : t.StepsTo A p.adapter nowSec t.task.stage s' stage') :
    TableFits (afterTask p t rest s' stage') room ∧
      p.inMemory room ≤ (afterTask p t rest s' stage').inMemory room := by
  have hsame : s'.issueCursorByRoom = p.adapter.issueCursorByRoom → t.assigns = [] →
      TableFits (afterTask p t rest s' stage') room ∧
        p.inMemory room ≤ (afterTask p t rest s' stage').inMemory room := by
    intro htable hassigns
    have hmemory : (afterTask p t rest s' stage').inMemory room = p.inMemory room := by
      show s'.issueCursorByRoom.getD room 0 = _
      rw [htable]
      rfl
    refine ⟨tableFits_of_same ht hmemory ?_ rfl ht.reads, Nat.le_of_eq hmemory.symm⟩
    show p.assigned ++ t.assigns = p.assigned
    rw [hassigns, List.append_nil]
  obtain ⟨handed, roomCursorHint, attempt, stage⟩ := t
  cases hsteps with
  | putsEnvelope hstage => exact hsame rfl rfl
  | readsCursor => exact hsame rfl rfl
  | assigns inMemory cached => exact table_assigns h ht htasks rfl _
  | putsEvent cursor updatedAt => exact hsame rfl rfl
  | readsSnapshot cursor updatedAt hstage => exact hsame rfl rfl
  | putsSnapshot cursor updatedAt => exact hsame rfl rfl
  | putsCursor cursor updatedAt => exact hsame rfl rfl

/-- Every step that writes no outdated cursor back. -/
theorem table_step (h : Serial p done settled) (ht : TableFits p room) {event : CursorEvent}
    (hcond : p.NoStaleWrite room event) :
    TableFits (p.step A event) room ∧
      (event ≠ .replace → p.inMemory room ≤ (p.step A event).inMemory room) := by
  cases event with
  | handOver handed roomCursorHint =>
    exact ⟨tableFits_of_same ht rfl rfl rfl ht.reads, fun _ => Nat.le_refl _⟩
  | task nowSec =>
    cases htasks : p.tasks with
    | nil =>
      simp only [step, htasks]
      exact ⟨ht, fun _ => Nat.le_refl _⟩
    | cons t rest =>
      obtain ⟨s', stage', hsteps, heq⟩ := step_task (A := A) h htasks nowSec
      rw [heq]
      obtain ⟨hfits, hle⟩ := table_afterTask h ht htasks hsteps
      exact ⟨hfits, fun _ => hle⟩
  | startSync args =>
    refine ⟨tableFits_of_same ht rfl rfl rfl fun call hcall hroom events snapshots inMemory persisted
      hreading => ?_, fun _ => Nat.le_refl _⟩
    rcases List.mem_append.mp hcall with hmem | hmem
    · exact ht.reads call hmem hroom _ _ _ _ hreading
    · rw [List.mem_singleton.mp hmem] at hreading
      cases hreading
  | sync i nowSec =>
    obtain ⟨hfits, hle⟩ := table_sync (A := A) h ht hcond
    exact ⟨hfits, fun _ => hle⟩
  | replace =>
    refine ⟨?_, fun hne => absurd rfl hne⟩
    unfold step
    simp only
    split
    · refine ⟨Nat.zero_le _, fun e he => ?_, fun call hcall => absurd hcall List.not_mem_nil⟩
      rw [List.drop_length] at he
      exact absurd he List.not_mem_nil
    · exact ht

theorem tableFits_init (room : String) : TableFits .init room :=
  ⟨Nat.le_refl 0, fun _ he => absurd he List.not_mem_nil,
    fun _ hcall => absurd hcall List.not_mem_nil⟩

theorem neverBack_of_step {event : CursorEvent} (h : Serial (p.step A event) done settled)
    (ht : TableFits (p.step A event) room)
    (hle : event ≠ .replace → p.inMemory room ≤ (p.step A event).inMemory room) :
    p.NeverBack A room event := by
  have hcovers := coversAssigned h ht
  cases event with
  | replace => trivial
  | handOver handed roomCursorHint => exact ⟨hle CursorEvent.noConfusion, hcovers⟩
  | task nowSec => exact ⟨hle CursorEvent.noConfusion, hcovers⟩
  | startSync args => exact ⟨hle CursorEvent.noConfusion, hcovers⟩
  | sync i nowSec => exact ⟨hle CursorEvent.noConfusion, hcovers⟩

/-! ## Outdated cursors -/

/-- What a call has read lies below every cursor of the room that was assigned after it. -/
def Outdated (p : CursorRun) (room : String) : Prop :=
  ∀ call ∈ p.syncs, call.args.room = room → ∀ events snapshots inMemory persisted,
    call.stage = .cursorRead events snapshots inMemory persisted →
    ∀ e ∈ p.assigned.drop call.assignedAtRead, e.1.room = room → max inMemory persisted < e.2

theorem outdated_task (h : Serial p done settled) (ht : TableFits p room) (ho : Outdated p room)
    {nowSec : Nat} (hexact : StaysExact p (.task nowSec)) :
    Outdated (p.step A (.task nowSec)) room := by
  cases htasks : p.tasks with
  | nil =>
    simp only [step, htasks]
    exact ho
  | cons t rest =>
    obtain ⟨s', stage', -, heq⟩ := step_task (A := A) h htasks nowSec
    rw [heq]
    intro call hcall hroom events snapshots inMemory persisted hreading e he heRoom
    have hread := ht.reads call hcall hroom events snapshots inMemory persisted hreading
    have he : e ∈ (p.assigned ++ t.assigns).drop call.assignedAtRead := he
    rw [List.drop_append_of_le_length hread.length] at he
    rcases List.mem_append.mp he with he | he
    · exact ho call hcall hroom events snapshots inMemory persisted hreading e he heRoom
    · unfold IssueTask.assigns at he
      split at he
      · next inMemory' cached hstage =>
        rw [List.mem_singleton.mp he] at heRoom ⊢
        have hlt := last_lt_next h htasks hexact hstage
        rw [show t.handed.envelope.room = room from heRoom] at hlt
        exact Nat.lt_of_le_of_lt hread.value hlt
      · cases he

theorem outdated_sync (h : Serial p done settled) (ho : Outdated p room) (i nowSec : Nat) :
    Outdated (p.step A (.sync i nowSec)) room := by
  cases hcall : p.syncs[i]? with
  | none =>
    simp only [step, hcall]
    exact ho
  | some call =>
    obtain ⟨s', stage', hsteps, heq⟩ := step_sync (A := A) h hcall nowSec
    rw [heq]
    intro other hother hroom events snapshots inMemory persisted hreading
    rcases List.mem_or_eq_of_mem_set hother with hmem | rfl
    · exact ho other hmem hroom events snapshots inMemory persisted hreading
    · obtain ⟨args, stage, assignedAtRead⟩ := call
      cases hsteps with
      | loads hfrom hto => exact absurd hreading (hto _ _ _ _)
      | reads events snapshots =>
        intro e he
        have he : e ∈ p.assigned.drop p.assigned.length := he
        rw [List.drop_length] at he
        cases he
      | writes events snapshots inMemory persisted result => cases hreading

theorem outdated_step (h : Serial p done settled) (ht : TableFits p room) (ho : Outdated p room)
    {event : CursorEvent} (hexact : StaysExact p event) : Outdated (p.step A event) room := by
  cases event with
  | handOver handed roomCursorHint => exact ho
  | task nowSec => exact outdated_task h ht ho hexact
  | startSync args =>
    intro call hcall
    rcases List.mem_append.mp hcall with hmem | hmem
    · exact ho call hmem
    · rw [List.mem_singleton.mp hmem]
      intro _ _ _ _ _ hreading
      cases hreading
  | sync i nowSec => exact outdated_sync h ho i nowSec
  | replace =>
    unfold step
    simp only
    split
    · exact fun call hcall => absurd hcall List.not_mem_nil
    · exact ho

/-- A table that does not go back is not written an outdated cursor. -/
theorem noStaleWrite_of_neverBack (h : Serial p done settled) (ht : TableFits p room)
    (ho : Outdated p room) {event : CursorEvent} (hback : p.NeverBack A room event) :
    p.NoStaleWrite room event := by
  cases event with
  | sync i nowSec =>
    intro call hcall hroom events snapshots inMemory persisted hstage e he heRoom
    have hmem := List.mem_of_getElem? hcall
    have hread := ht.reads call hmem hroom _ _ _ _ hstage
    have hlt := ho call hmem hroom _ _ _ _ hstage e he heRoom
    have hassigned : e ∈ p.assigned.drop p.earlier :=
      (List.drop_sublist_drop_left p.assigned hread.earlier).mem he
    have hmemory := ht.covers e hassigned heRoom
    have hbound := h.bounded e (List.mem_of_mem_drop he)
    obtain ⟨s', stage', hsteps, heq⟩ := step_sync (A := A) h hcall nowSec
    have hle := hback.1
    rw [heq] at hle
    rw [hstage] at hsteps
    cases hsteps with
    | loads hfrom hto => exact absurd rfl (hfrom _ _ _ _)
    | writes events snapshots inMemory persisted result =>
      have hwritten : (p.adapter.issueCursorByRoom.set call.args.room (max inMemory persisted)).getD
          room 0 = max inMemory persisted := by
        rw [hroom, OrdMap.getD_set_self]
      have hle : p.inMemory room ≤
        (p.adapter.issueCursorByRoom.set call.args.room (max inMemory persisted)).getD room 0 := hle
      rw [hwritten, hmemory, ← heRoom] at hle
      exact absurd (Nat.le_trans hbound hle) (Nat.not_le_of_lt hlt)
  | handOver handed roomCursorHint => trivial
  | task nowSec => trivial
  | startSync args => trivial
  | replace => trivial

end CursorLemmas

open CursorLemmas CursorRun

/-- The table of a room never goes back and covers every assigned cursor, as long as no call writes
an outdated cursor back; and only then, while the cursors are exact. -/
theorem cursor_never_back_iff {A : CacheAdapterOptions} {events : List CursorEvent} (room : String) :
    (Along (CursorRun.step A) (NoStaleWrite room) .init events →
      Along (CursorRun.step A) (NeverBack A room) .init events) ∧
    (Along (CursorRun.step A) StaysExact .init events →
      Along (CursorRun.step A) (NeverBack A room) .init events →
      Along (CursorRun.step A) (NoStaleWrite room) .init events) := by
  constructor
  · intro h
    refine h.imp_of_invariant (I := fun p => ∃ done settled, Serial p done settled ∧
      TableFits p room) (fun p event hcond hp => ?_) ⟨[], [], sound_init.serial, tableFits_init room⟩
    obtain ⟨done, settled, hserial, htable⟩ := hp
    obtain ⟨done', settled', hserial'⟩ := serial_step (A := A) hserial event
    obtain ⟨htable', hle⟩ := table_step (A := A) hserial htable hcond
    exact ⟨neverBack_of_step hserial' htable' hle, done', settled', hserial', htable'⟩
  · intro hexact hback
    refine (hexact.and hback).imp_of_invariant (I := fun p => ∃ done settled, Serial p done settled ∧
      TableFits p room ∧ Outdated p room) (fun p event hcond hp => ?_)
      ⟨[], [], sound_init.serial, tableFits_init room, fun _ hcall => absurd hcall List.not_mem_nil⟩
    obtain ⟨done, settled, hserial, htable, houtdated⟩ := hp
    have hfresh := noStaleWrite_of_neverBack hserial htable houtdated hcond.2
    obtain ⟨done', settled', hserial'⟩ := serial_step (A := A) hserial event
    exact ⟨hfresh, done', settled', hserial', (table_step hserial htable hfresh).1,
      outdated_step hserial htable houtdated hcond.1⟩

/-! ## On the toy host -/

/-- A call of `syncIssues` reads the cursor before an envelope gets its own and writes it back after
that. -/
def lateWriteBack : List CursorEvent :=
  [.startSync ⟨"main", 0, 10, 10⟩, .sync 0 1, .sync 0 1, .sync 0 1,
    .handOver (toyIssueMessage "a" freeText_a).accepted none, .task 1, .task 1, .task 1, .sync 0 1]

theorem stale_write_goes_back :
    ¬ Along (CursorRun.step .toy) (NeverBack .toy "main") .init lateWriteBack := by
  decide +kernel

end BitRelay
