import BitRelay.Logs.Writing
import BitRelay.Snapshot.Service

/-!
# Interleaved writers and restores

A service with its requests in flight, the snapshots that were taken of it, and
the messages it has accepted. A restore puts a snapshot into the running service,
whose requests in flight go on, or into a fresh service, which may be configured
differently. The accepted messages are a history variable: they are rolled back
with the restore to what they were when the snapshot was taken.

Results:
1. `turn_step`: a step is a segment of a request, a snapshot or a restore.
2. `properTasks_run`: what the requests in flight carry is what they were
   admitted with.
-/

namespace BitRelay

/-- What a request meets, with a proper UUID. -/
structure HostEnv extends Env where
  uuid : FreeText toEnv.randomUUID

structure WritingTask where
  request : Request
  writing : Writing

/-- A snapshot, and the messages that were accepted when it was taken. -/
structure TakenSnapshot where
  value : JsonValue
  history : List Envelope

structure WritingSystem (C : Type) where
  relay : Relay C
  service : ServiceState C
  tasks : OrdMap Nat WritingTask
  next : Nat
  history : List Envelope
  taken : List TakenSnapshot

inductive WritingEvent (C : Type)
  | arrive (call : HostCall)
  | resume (task : Nat) (env : HostEnv)
  | snapshot
  /-- `restore` on the running service -/
  | restore (i : Nat) (nowMs : Nat)
  /-- `restore` on a fresh service -/
  | restart (relay : Relay C) (cache : C) (i : Nat) (nowMs : Nat)

/-- The event puts a snapshot back. -/
def WritingEvent.restores {C : Type} : WritingEvent C → Bool
  | restore _ _ | restart _ _ _ _ => true
  | arrive _ | resume _ _ | snapshot => false

section
variable {C : Type} (A : Archive C)

namespace WritingSystem

def init (relay : Relay C) (cache : C) : WritingSystem C := ⟨relay, .init cache, ∅, 0, [], []⟩

def logOf (sys : WritingSystem C) (room : String) : List Envelope :=
  (sys.service.roomOf room).messages

/-- The messages that were accepted for a room. -/
def historyOf (sys : WritingSystem C) (room : String) : List Envelope :=
  sys.history.filter fun e => e.room = room

/-- A segment of a request ends: the request answers, or waits. -/
def settle (id : Nat) (request : Request)
    (result : Except Response WritingProgress × ServiceState C) (sys : WritingSystem C) :
    WritingSystem C :=
  match result with
  | (.ok (.inr writing), service) =>
    { sys with
      service
      tasks := sys.tasks.set id ⟨request, writing⟩
      history := sys.history ++ (writing.accepted sys.relay).toList }
  | (.ok (.inl _), service) => { sys with service, tasks := sys.tasks.erase id }
  | (.error _, service) => { sys with service, tasks := sys.tasks.erase id }

def arrive (call : HostCall) (sys : WritingSystem C) : WritingSystem C :=
  { sys.settle sys.next call.request
      ((fetchBegin sys.relay call.request call.env).run sys.service) with next := sys.next + 1 }

def resumeTask (id : Nat) (task : WritingTask) (env : HostEnv) (sys : WritingSystem C) :
    WritingSystem C :=
  sys.settle id task.request
    ((task.writing.resume sys.relay task.request env.toEnv).run sys.service)

def step (sys : WritingSystem C) : WritingEvent C → WritingSystem C
  | .arrive call => sys.arrive call
  | .resume id env =>
    match sys.tasks.get? id with
    | none => sys
    | some task => sys.resumeTask id task env
  | .snapshot => { sys with taken := sys.taken ++ [⟨sys.service.snapshot A, sys.history⟩] }
  | .restore i nowMs =>
    match sys.taken[i]? with
    | none => sys
    | some snapshot =>
      { sys with
        service := sys.service.restore sys.relay A nowMs snapshot.value
        history := snapshot.history }
  | .restart relay cache i nowMs =>
    match sys.taken[i]? with
    | none => sys
    | some snapshot =>
      { sys with
        relay
        service := (ServiceState.init cache).restore relay A nowMs snapshot.value
        tasks := ∅
        history := snapshot.history }

/-- The system after a run from the empty service. -/
def after (relay : Relay C) (cache : C) (events : List (WritingEvent C)) : WritingSystem C :=
  runFrom (step A) (.init relay cache) events

theorem after_concat (relay : Relay C) (cache : C) (events : List (WritingEvent C))
    (event : WritingEvent C) :
    after A relay cache (events ++ [event]) = step A (after A relay cache events) event :=
  runFrom_concat _ _ _ _

/-- What the requests in flight carry is what they were admitted with. -/
def ProperTasks (sys : WritingSystem C) : Prop :=
  ∀ id task, sys.tasks.get? id = some task → task.writing.Proper

end WritingSystem

open WritingSystem

/-- What a step does, as far as the logs are concerned. -/
inductive Turn (event : WritingEvent C) (sys sys' : WritingSystem C) : Prop
  | segment (accepted : Option Envelope) (relay : sys'.relay = sys.relay)
      (taken : sys'.taken = sys.taken)
      (history : sys'.history = sys.history ++ accepted.toList)
      (h : Segment sys.relay sys.service sys'.service accepted)
  | snapshot (relay : sys'.relay = sys.relay) (service : sys'.service = sys.service)
      (history : sys'.history = sys.history)
      (taken : sys'.taken = sys.taken ++ [⟨sys.service.snapshot A, sys.history⟩])
  | restored (hrestores : event.restores = true) (snapshot : TakenSnapshot)
      (hmem : snapshot ∈ sys.taken) (nowMs : Nat) (before : ServiceState C)
      (taken : sys'.taken = sys.taken)
      (service : sys'.service = before.restore sys'.relay A nowMs snapshot.value)
      (history : sys'.history = snapshot.history)

variable {A} {event : WritingEvent C} {sys : WritingSystem C}

namespace WritingSystemLemmas

theorem turn_idle (sys : WritingSystem C) : Turn A event sys sys :=
  .segment none rfl rfl (List.append_nil _).symm (.quiet (.refl _))

theorem properTasks_set {tasks : OrdMap Nat WritingTask} {id : Nat} {task : WritingTask}
    (h : ∀ id task, tasks.get? id = some task → task.writing.Proper) (htask : task.writing.Proper) :
    ∀ other task', (tasks.set id task).get? other = some task' → task'.writing.Proper := by
  intro other task' hget
  by_cases hother : other = id
  · subst hother
    rw [OrdMap.get?_set_self] at hget
    cases hget
    exact htask
  · rw [OrdMap.get?_set_of_ne _ hother] at hget
    exact h other task' hget

theorem properTasks_erase {tasks : OrdMap Nat WritingTask} {id : Nat}
    (h : ∀ id task, tasks.get? id = some task → task.writing.Proper) :
    ∀ other task', (tasks.erase id).get? other = some task' → task'.writing.Proper := by
  intro other task' hget
  rw [OrdMap.get?_erase] at hget
  split at hget
  · cases hget
  · exact h other task' hget

/-- A segment that takes at most one message, as a step of the system. -/
theorem settle_spec {id : Nat} {request : Request} {x : Handler C WritingProgress}
    (htakes : Takes sys.relay x) (hproper : sys.ProperTasks) :
    Turn A event sys (sys.settle id request (x.run sys.service)) ∧
      (sys.settle id request (x.run sys.service)).ProperTasks := by
  obtain ⟨hok, herror⟩ := htakes sys.service sys.service (.refl _)
  match hrun : x.run sys.service with
  | (.ok (.inr writing), service) =>
    obtain ⟨hsegment, hwriting⟩ := hok _ _ hrun
    exact ⟨.segment _ rfl rfl rfl hsegment, properTasks_set hproper hwriting⟩
  | (.ok (.inl response), service) =>
    obtain ⟨hsegment, -⟩ := hok _ _ hrun
    exact ⟨.segment none rfl rfl (List.append_nil _).symm hsegment, properTasks_erase hproper⟩
  | (.error response, service) =>
    exact ⟨.segment none rfl rfl (List.append_nil _).symm (.quiet (herror _ _ hrun)),
      properTasks_erase hproper⟩

theorem turn_arrive (call : HostCall) (hproper : sys.ProperTasks) :
    Turn A event sys (sys.arrive call) ∧ (sys.arrive call).ProperTasks := by
  have hspec : Turn A event sys (sys.settle sys.next call.request
      ((fetchBegin sys.relay call.request call.env).run sys.service)) ∧ _ :=
    settle_spec (takes_fetchBegin call) hproper
  obtain ⟨hturn, htasks⟩ := hspec
  refine ⟨?_, htasks⟩
  cases hturn with
  | segment accepted relay taken history h => exact .segment accepted relay taken history h
  | snapshot relay service history taken => exact .snapshot relay service history taken
  | restored hrestores snapshot hmem nowMs before taken service history =>
    exact .restored hrestores snapshot hmem nowMs before taken service history

theorem turn_and_proper (event : WritingEvent C) (hproper : sys.ProperTasks) :
    Turn A event sys (sys.step A event) ∧ (sys.step A event).ProperTasks := by
  cases event with
  | arrive call => exact turn_arrive call hproper
  | resume id env =>
    cases hget : sys.tasks.get? id with
    | none =>
      simp only [step, hget]
      exact ⟨turn_idle sys, hproper⟩
    | some task =>
      simp only [step, hget]
      exact settle_spec (takes_resume task.request env.uuid (hproper id task hget)) hproper
  | snapshot => exact ⟨.snapshot rfl rfl rfl rfl, hproper⟩
  | restore i nowMs =>
    cases hget : sys.taken[i]? with
    | none =>
      simp only [step, hget]
      exact ⟨turn_idle sys, hproper⟩
    | some snapshot =>
      simp only [step, hget]
      exact ⟨.restored rfl snapshot (List.mem_of_getElem? hget) nowMs sys.service rfl rfl rfl, hproper⟩
  | restart relay cache i nowMs =>
    cases hget : sys.taken[i]? with
    | none =>
      simp only [step, hget]
      exact ⟨turn_idle sys, hproper⟩
    | some snapshot =>
      simp only [step, hget]
      refine ⟨.restored rfl snapshot (List.mem_of_getElem? hget) nowMs (.init cache) rfl rfl rfl, ?_⟩
      rintro id task ⟨⟩

end WritingSystemLemmas

open WritingSystemLemmas

theorem turn_step (event : WritingEvent C) (hproper : sys.ProperTasks) :
    Turn A event sys (sys.step A event) := (turn_and_proper event hproper).1

theorem properTasks_run (relay : Relay C) (cache : C) (events : List (WritingEvent C)) :
    (after A relay cache events).ProperTasks := by
  refine runFrom_invariant (I := ProperTasks)
    (fun sys event h => (turn_and_proper event h).2) events ?_
  rintro id task ⟨⟩

/-- What every turn preserves holds after every run. -/
theorem run_of_turns {I : WritingSystem C → Prop}
    (hturn : ∀ event sys sys', Turn A event sys sys' → I sys → I sys') {relay : Relay C} {cache : C}
    (hinit : I (.init relay cache)) (events : List (WritingEvent C)) :
    I (after A relay cache events) := by
  refine (runFrom_invariant (I := fun sys => sys.ProperTasks ∧ I sys) (fun sys event h => ?_) events
    ⟨?_, hinit⟩).2
  · obtain ⟨turn, proper⟩ := turn_and_proper (A := A) event h.1
    exact ⟨proper, hturn _ _ _ turn h.2⟩
  · rintro id task ⟨⟩

end

end BitRelay
