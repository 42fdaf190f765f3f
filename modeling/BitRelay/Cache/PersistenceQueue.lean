import BitRelay.Lib.Promises
import BitRelay.Lib.Run
import Mathlib.Algebra.Order.Ring.Nat
import Mathlib.Data.List.Induction

/-!
# The persistence queue

`enqueue` hangs a task behind the one before it: `run` is derived from the tail of the queue,
`settled` from `run` with `finally`, and the next tail from `settled` with `catch`. A task runs under
`runWithRetry`, which awaits the task and, between two attempts, a delay. The jobs of the promises
run in any order; tasks and delays settle whenever they do; `enqueue` may be called at any time.

Results:
1. `queue_serial`: the queue does what a loop does that runs the tasks one after the other, and each
   call settles with the outcome of its own task.
2. `queue_retries`: a task is attempted until it succeeds, or until the retries are used up.
3. `queue_moves_on`: a queue on which nothing is enqueued any more comes to rest, and only when every
   call has settled.
-/

namespace BitRelay

open Promises

/-! ## Retries -/

/-- The options of the queue. -/
structure RetryPolicy where
  maxRetries : Nat
  retryBaseDelayMs : Nat
  retryMaxDelayMs : Nat
  base_le_max : retryBaseDelayMs ≤ retryMaxDelayMs

def computeRetryDelayMs (policy : RetryPolicy) (retryIndex : Nat) : Nat :=
  min policy.retryMaxDelayMs (policy.retryBaseDelayMs * 2 ^ retryIndex)

section
variable {ε : Type}

/-- What a call of the queue does: it starts its task, or notifies `onRetry` or `onSettled`. -/
inductive QueueObservation (ε : Type)
  | attempt (call attempt : Nat)
  | retry (call retryCount delayMs : Nat) (error : ε)
  | settled (call : Nat) (outcome : Outcome ε) (attempts : Nat)
  deriving DecidableEq

/-- Where `runWithRetry` stands. -/
inductive RunPosition (ε : Type)
  | attempting (attempt : Nat)
  | sleeping (attempt : Nat)
  | returned (outcome : Outcome ε)
  deriving DecidableEq

variable (policy : RetryPolicy) (call : Nat)

/-- `runWithRetry` behind `await task()`. -/
def attempted (attempt : Nat) : Outcome ε → List (QueueObservation ε) × RunPosition ε
  | .fulfilled => ([.settled call .fulfilled (attempt + 1)], .returned .fulfilled)
  | .rejected error =>
    if policy.maxRetries ≤ attempt then
      ([.settled call (.rejected error) (attempt + 1)], .returned (.rejected error))
    else ([.retry call (attempt + 1) (computeRetryDelayMs policy attempt) error], .sleeping attempt)

/-- `runWithRetry` behind `await sleep(delayMs)`. -/
def slept (attempt : Nat) : Outcome ε → List (QueueObservation ε) × RunPosition ε
  | .fulfilled => ([.attempt call (attempt + 1)], .attempting (attempt + 1))
  | .rejected error => ([], .returned (.rejected error))

/-- `runWithRetry` from one await to the next. -/
def RunPosition.advance (answer : Outcome ε) :
    RunPosition ε → List (QueueObservation ε) × RunPosition ε
  | attempting attempt => attempted policy call attempt answer
  | sleeping attempt => slept call attempt answer
  | returned outcome => ([], returned outcome)

/-- `runWithRetry` as a loop, when its awaits are answered so. -/
def runWithRetry (attempt : Nat) :
    List (Outcome ε) → List (QueueObservation ε) × RunPosition ε
  | [] => ([.attempt call attempt], .attempting attempt)
  | .fulfilled :: _ =>
    ([.attempt call attempt, .settled call .fulfilled (attempt + 1)], .returned .fulfilled)
  | .rejected error :: rest =>
    if policy.maxRetries ≤ attempt then
      ([.attempt call attempt, .settled call (.rejected error) (attempt + 1)],
        .returned (.rejected error))
    else
      let tried : List (QueueObservation ε) := [.attempt call attempt,
        .retry call (attempt + 1) (computeRetryDelayMs policy attempt) error]
      match rest with
      | [] => (tried, .sleeping attempt)
      | .rejected error' :: _ => (tried, .returned (.rejected error'))
      | .fulfilled :: rest =>
        let (observed, position) := runWithRetry (attempt + 1) rest
        (tried ++ observed, position)

/-- The attempts that failed and were retried, with their errors. -/
def retriesFrom (attempt : Nat) : List ε → List (QueueObservation ε)
  | [] => []
  | error :: errors => .attempt call attempt ::
    .retry call (attempt + 1) (computeRetryDelayMs policy attempt) error ::
      retriesFrom (attempt + 1) errors

/-- The answers to these attempts and to their delays. -/
def retryAnswers : List ε → List (Outcome ε)
  | [] => []
  | error :: errors => .rejected error :: .fulfilled :: retryAnswers errors

end

/-! ## The queue -/

inductive QueueHandler
  /-- `async () => { await runWithRetry(task) }` -/
  | runTask (call : Nat)
  /-- `() => { pending -= 1 }` -/
  | decrement
  /-- `() => {}` -/
  | ignore
  deriving DecidableEq

/-- A call of `enqueue`, with its promises. It has no position before its task is started. -/
structure QueueCall (τ ε : Type) where
  task : τ
  run : Nat
  settled : Nat
  position : Option (RunPosition ε)

structure PersistenceQueue (τ ε : Type) where
  heap : Heap ε QueueHandler
  tail : Nat
  pending : Nat
  calls : List (QueueCall τ ε)
  observed : List (QueueObservation ε)

inductive QueueEvent (τ ε : Type)
  | enqueue (task : τ)
  /-- the job of a derived promise -/
  | job (promise : Nat)
  /-- the task or the delay that a call awaits settles -/
  | answer (call : Nat) (outcome : Outcome ε)

/-- The answer that an event gives to the call. -/
def QueueEvent.answerTo {τ ε : Type} (call : Nat) : QueueEvent τ ε → List (Outcome ε)
  | enqueue _ | job _ => []
  | answer call' outcome => if call' = call then [outcome] else []

/-- The task that an event enqueues. -/
def QueueEvent.task? {τ ε : Type} : QueueEvent τ ε → Option τ
  | enqueue task => some task
  | job _ | answer _ _ => none

/-- The call that an observation is about. -/
def QueueObservation.call {ε : Type} : QueueObservation ε → Nat
  | attempt call _ | retry call _ _ _ | settled call _ _ => call

namespace PersistenceQueue

section
variable {τ ε : Type}

/-- `createCachePersistenceQueue()` -/
def empty : PersistenceQueue τ ε := ⟨.resolved, 0, 0, [], []⟩

def enqueue (task : τ) (q : PersistenceQueue τ ε) : PersistenceQueue τ ε :=
  let run := q.heap.size
  let heap := q.heap.derive q.tail .onFulfilled (.runTask q.calls.length)
  let settled := heap.size
  let heap := heap.derive run .onSettled .decrement
  let tail := heap.size
  let heap := heap.derive settled .onRejected .ignore
  { q with
    heap, tail
    pending := q.pending + 1
    calls := q.calls ++ [⟨task, run, settled, none⟩] }

def setPosition (call : Nat) (position : RunPosition ε) (q : PersistenceQueue τ ε) :
    PersistenceQueue τ ε :=
  { q with calls := q.calls.modify call fun c => { c with position := some position } }

def observe (observed : List (QueueObservation ε)) (q : PersistenceQueue τ ε) :
    PersistenceQueue τ ε :=
  { q with observed := q.observed ++ observed }

/-- The handler of the derived promise `target` runs, behind a source with the outcome `o`. -/
def handle (handler : QueueHandler) (target : Nat) (o : Outcome ε) (q : PersistenceQueue τ ε) :
    PersistenceQueue τ ε :=
  match handler with
  | .runTask call => (q.setPosition call (.attempting 0)).observe [.attempt call 0]
  | .decrement => { q with pending := q.pending - 1, heap := q.heap.settle target o }
  | .ignore => { q with heap := q.heap.settle target .fulfilled }

def runJob (target : Nat) (q : PersistenceQueue τ ε) : PersistenceQueue τ ε :=
  match q.heap.ready? target with
  | none => q
  | some (r, o) =>
    let q := { q with heap := q.heap.consume target }
    if r.derivation.handles o then q.handle r.handler target o
    else { q with heap := q.heap.settle target o }

/-- The async function of a call returns. -/
def finishRun (run : Nat) (position : RunPosition ε) (q : PersistenceQueue τ ε) :
    PersistenceQueue τ ε :=
  match position with
  | .returned o => { q with heap := q.heap.settle run o }
  | .attempting _ | .sleeping _ => q

/-- The call awaits a task or a delay. -/
def awaited? (q : PersistenceQueue τ ε) (call : Nat) : Option (Nat × RunPosition ε) :=
  match q.calls[call]? with
  | none => none
  | some c =>
    match c.position with
    | some (.attempting attempt) => some (c.run, .attempting attempt)
    | some (.sleeping attempt) => some (c.run, .sleeping attempt)
    | some (.returned _) | none => none

variable (policy : RetryPolicy)

def answer (call : Nat) (outcome : Outcome ε) (q : PersistenceQueue τ ε) :
    PersistenceQueue τ ε :=
  match q.awaited? call with
  | none => q
  | some (run, position) =>
    let (observed, position) := position.advance policy call outcome
    ((q.setPosition call position).observe observed).finishRun run position

def step (q : PersistenceQueue τ ε) : QueueEvent τ ε → PersistenceQueue τ ε
  | .enqueue task => q.enqueue task
  | .job promise => q.runJob promise
  | .answer call outcome => q.answer policy call outcome

/-- The queue after a run. -/
def after (events : List (QueueEvent τ ε)) : PersistenceQueue τ ε :=
  runFrom (step policy) empty events

/-- The outcome of the promise of a call. -/
def outcomeOf (q : PersistenceQueue τ ε) (call : Nat) : Option (Outcome ε) :=
  q.calls[call]?.bind fun c => q.heap.outcome c.settled

/-- The event is a job that can run, or the answer that a call awaits. -/
def Moves (q : PersistenceQueue τ ε) : QueueEvent τ ε → Prop
  | .enqueue _ => False
  | .job promise => (q.heap.ready? promise).isSome = true
  | .answer call _ => (q.awaited? call).isSome = true

instance Moves.decidable (q : PersistenceQueue τ ε) (event : QueueEvent τ ε) :
    Decidable (q.Moves event) :=
  match event with
  | .enqueue _ => isFalse id
  | .job promise => inferInstanceAs (Decidable ((q.heap.ready? promise).isSome = true))
  | .answer call _ => inferInstanceAs (Decidable ((q.awaited? call).isSome = true))

/-- What can happen: a call of `enqueue`, or a move. -/
def Enabled (q : PersistenceQueue τ ε) (event : QueueEvent τ ε) : Prop :=
  event.task?.isSome = true ∨ q.Moves event

instance Enabled.decidable (q : PersistenceQueue τ ε) (event : QueueEvent τ ε) :
    Decidable (q.Enabled event) :=
  inferInstanceAs (Decidable (_ ∨ _))

/-- The task of the call has been started. -/
def begun (q : PersistenceQueue τ ε) (call : Nat) : Bool :=
  (q.calls[call]?.bind fun c => c.position).isSome

/-- The calls whose promise has not settled. -/
def unsettled (q : PersistenceQueue τ ε) : Nat :=
  q.calls.countP fun c => (q.heap.outcome c.settled).isNone

end

end PersistenceQueue

/-! ## The stages of a call -/

/-- How far a call is, with the answers to its awaits. -/
inductive EnqueueStage (ε : Type)
  | waiting
  | running (answers : List (Outcome ε))
  | settled (answers : List (Outcome ε)) (outcome : Outcome ε)
  | released (answers : List (Outcome ε)) (outcome : Outcome ε)

namespace EnqueueStage

variable {ε : Type} (policy : RetryPolicy) (call : Nat)

def position : EnqueueStage ε → Option (RunPosition ε)
  | waiting => none
  | running answers => some (runWithRetry policy call 0 answers).2
  | settled _ outcome | released _ outcome => some (.returned outcome)

def answers : EnqueueStage ε → List (Outcome ε)
  | waiting => []
  | running answers | settled answers _ | released answers _ => answers

/-- What the call has done. -/
def trace : EnqueueStage ε → List (QueueObservation ε)
  | waiting => []
  | running answers | settled answers _ | released answers _ =>
    (runWithRetry policy call 0 answers).1

/-- The outcome of a run that stands there. -/
def runOutcomeAt : RunPosition ε → Option (Outcome ε)
  | .returned outcome => some outcome
  | .attempting _ | .sleeping _ => none

/-- The outcomes of the promises `run`, `settled` and `tail` of the call. -/
def runOutcome (stage : EnqueueStage ε) : Option (Outcome ε) :=
  (stage.position policy call).bind runOutcomeAt

def settledOutcome : EnqueueStage ε → Option (Outcome ε)
  | waiting | running _ => none
  | settled _ outcome | released _ outcome => some outcome

def tailOutcome : EnqueueStage ε → Option (Outcome ε)
  | waiting | running _ | settled _ _ => none
  | released _ _ => some .fulfilled

def runReaction : Reaction QueueHandler :=
  ⟨3 * call, .onFulfilled, .runTask call, 3 * call + 1⟩

def settledReaction : Reaction QueueHandler :=
  ⟨3 * call + 1, .onSettled, .decrement, 3 * call + 2⟩

def tailReaction : Reaction QueueHandler :=
  ⟨3 * call + 2, .onRejected, .ignore, 3 * call + 3⟩

/-- The jobs that have not run. -/
def reactions : EnqueueStage ε → List (Reaction QueueHandler)
  | waiting => [runReaction call, settledReaction call, tailReaction call]
  | running _ => [settledReaction call, tailReaction call]
  | settled _ _ => [tailReaction call]
  | released _ _ => []

/-- The outcome of a settled call is the one of its task. -/
def Proper : EnqueueStage ε → Prop
  | waiting | running _ => True
  | settled answers outcome | released answers outcome =>
    (runWithRetry policy call 0 answers).2 = .returned outcome

def isOpen : EnqueueStage ε → Bool
  | waiting | running _ => true
  | settled _ _ | released _ _ => false

/-- One step of the call. -/
inductive Next : EnqueueStage ε → EnqueueStage ε → Prop
  | start : Next .waiting (.running [])
  | answer (answers : List (Outcome ε)) (answer : Outcome ε)
      (hawaits : runOutcomeAt (runWithRetry policy call 0 answers).2 = none) :
      Next (.running answers) (.running (answers ++ [answer]))
  | settle (answers : List (Outcome ε)) (outcome : Outcome ε)
      (hreturned : (runWithRetry policy call 0 answers).2 = .returned outcome) :
      Next (.running answers) (.settled answers outcome)
  | release (answers : List (Outcome ε)) (outcome : Outcome ε) :
      Next (.settled answers outcome) (.released answers outcome)

/-- A bound on the moves that are left for the call. -/
def rank : EnqueueStage ε → Nat
  | waiting => 2 * policy.maxRetries + 4
  | running answers => 2 * policy.maxRetries + 1 - answers.length + 2
  | settled _ _ => 1
  | released _ _ => 0

/-- What the calls from `call` on have done. -/
def traceFrom : Nat → List (EnqueueStage ε) → List (QueueObservation ε)
  | _, [] => []
  | call, stage :: rest => stage.trace policy call ++ traceFrom (call + 1) rest

end EnqueueStage

section
variable {τ ε : Type}

/-- The queue is what its calls at these stages make of it. -/
structure PersistenceQueue.At (policy : RetryPolicy) (q : PersistenceQueue τ ε)
    (stages : List (EnqueueStage ε)) : Prop where
  sound : q.heap.Sound
  size : q.heap.size = 3 * stages.length + 1
  tail : q.tail = 3 * stages.length
  first : q.heap.outcome 0 = some .fulfilled
  beyond : ∀ p, q.heap.size ≤ p → q.heap.outcome p = none
  length : q.calls.length = stages.length
  calls : ∀ (k : Nat) (stage : EnqueueStage ε), stages[k]? = some stage → ∃ task,
    q.calls[k]? =
      some (⟨task, 3 * k + 1, 3 * k + 2, stage.position policy k⟩ : QueueCall τ ε)
  proper : ∀ (k : Nat) (stage : EnqueueStage ε), stages[k]? = some stage → stage.Proper policy k
  outcomes : ∀ (k : Nat) (stage : EnqueueStage ε), stages[k]? = some stage →
    q.heap.outcome (3 * k + 1) = stage.runOutcome policy k ∧
    q.heap.outcome (3 * k + 2) = stage.settledOutcome ∧
    q.heap.outcome (3 * k + 3) = stage.tailOutcome
  reactions : ∀ r, r ∈ q.heap.reactions ↔
    ∃ k, ∃ stage : EnqueueStage ε, stages[k]? = some stage ∧ r ∈ stage.reactions k
  pending : q.pending = stages.countP EnqueueStage.isOpen
  observed : q.observed = EnqueueStage.traceFrom policy 0 stages
  /-- A call starts when the one before it is released. -/
  serial : ∀ (i j : Nat) (stage : EnqueueStage ε), i < j → stages[j]? = some stage → stage = .waiting ∨
    ∃ answers outcome, stages[i]? = some (EnqueueStage.released answers outcome)

end

namespace PersistenceQueueLemmas

/-! ## The loop -/

section
variable {ε : Type} (policy : RetryPolicy) (call : Nat)

/-- One answer more is one step more. -/
theorem runWithRetry_concat (answers : List (Outcome ε)) (answer : Outcome ε) (attempt : Nat) :
    runWithRetry policy call attempt (answers ++ [answer]) =
      ((runWithRetry policy call attempt answers).1 ++
          ((runWithRetry policy call attempt answers).2.advance policy call answer).1,
        ((runWithRetry policy call attempt answers).2.advance policy call answer).2) := by
  fun_induction runWithRetry policy call attempt answers with
  | case1 attempt =>
    cases answer with
    | fulfilled => rfl
    | rejected error =>
      simp only [List.nil_append, runWithRetry, RunPosition.advance, attempted]
      split
      · rfl
      · rfl
  | case2 attempt rest => rfl
  | case3 attempt error rest hlast =>
    rw [List.cons_append, runWithRetry, if_pos hlast]
    rfl
  | case4 attempt error hmore tried =>
    rw [List.cons_append, runWithRetry, if_neg hmore]
    cases answer with
    | fulfilled => rfl
    | rejected error' => rfl
  | case5 attempt error hmore tried error' rest =>
    rw [List.cons_append, runWithRetry, if_neg hmore]
    rfl
  | case6 attempt error hmore tried rest observed position hrest ih =>
    rw [List.cons_append, runWithRetry, if_neg hmore]
    simp only [List.cons_append, ih, hrest, List.append_assoc]
    rfl

/-- A loop that returns has attempted the task until it succeeded, or until the retries were used
up; or a delay was rejected. -/
theorem attempts_of_run (answers : List (Outcome ε)) (outcome : Outcome ε) (attempt : Nat)
    (hattempt : attempt ≤ policy.maxRetries)
    (hreturned : (runWithRetry policy call attempt answers).2 = .returned outcome) :
    ∃ errors : List ε, attempt + errors.length ≤ policy.maxRetries ∧
      ((runWithRetry policy call attempt answers).1 = retriesFrom policy call attempt errors ++
          [.attempt call (attempt + errors.length),
            .settled call outcome (attempt + errors.length + 1)] ∧
        retryAnswers errors ++ [outcome] <+: answers ∧
        (outcome = .fulfilled ∨ attempt + errors.length = policy.maxRetries) ∨
      (runWithRetry policy call attempt answers).1 = retriesFrom policy call attempt errors ∧
        ∃ earlier last error, errors = earlier ++ [last] ∧ outcome = .rejected error ∧
          retryAnswers earlier ++ [.rejected last, .rejected error] <+: answers) := by
  fun_induction runWithRetry policy call attempt answers with
  | case1 attempt => cases hreturned
  | case2 attempt rest =>
    cases hreturned
    exact ⟨[], hattempt, .inl ⟨rfl, List.prefix_append [_] rest, .inl rfl⟩⟩
  | case3 attempt error rest hlast =>
    cases hreturned
    exact ⟨[], hattempt,
      .inl ⟨rfl, List.prefix_append [_] rest, .inr (Nat.le_antisymm hattempt hlast)⟩⟩
  | case4 attempt error hmore tried => cases hreturned
  | case5 attempt error hmore tried error' rest =>
    cases hreturned
    exact ⟨[error], Nat.lt_of_not_le hmore,
      .inr ⟨rfl, [], error, error', rfl, rfl, List.prefix_append [_, _] rest⟩⟩
  | case6 attempt error hmore tried rest observed position hrest ih =>
    rw [hrest] at ih
    obtain ⟨errors, hle, hcase⟩ := ih (Nat.lt_of_not_le hmore) hreturned
    have hshift : attempt + (error :: errors).length = attempt + 1 + errors.length := by
      rw [List.length_cons, Nat.add_assoc, Nat.add_comm 1]
    refine ⟨error :: errors, hshift ▸ hle, ?_⟩
    rw [hshift]
    rcases hcase with
      ⟨hobserved, hanswers, hend⟩ | ⟨hobserved, earlier, last, error', herrors, hend, hanswers⟩
    · refine .inl ⟨?_, ?_, hend⟩
      · rw [show observed = _ from hobserved]
        rfl
      · exact (List.prefix_cons_inj _).mpr ((List.prefix_cons_inj _).mpr hanswers)
    · refine .inr ⟨?_, error :: earlier, last, error', congrArg (error :: ·) herrors, hend, ?_⟩
      · rw [show observed = _ from hobserved]
        rfl
      · exact (List.prefix_cons_inj _).mpr ((List.prefix_cons_inj _).mpr hanswers)

theorem call_of_run (answers : List (Outcome ε)) (attempt : Nat) :
    ∀ o ∈ (runWithRetry policy call attempt answers).1, o.call = call := by
  fun_induction runWithRetry policy call attempt answers with
  | case1 attempt =>
    intro o ho
    rw [List.mem_singleton.mp ho]
    rfl
  | case2 attempt rest | case3 attempt error rest hlast | case4 attempt error hmore tried
  | case5 attempt error hmore tried error' rest =>
    intro o ho
    rcases List.mem_cons.mp ho with rfl | ho
    · rfl
    · rw [List.mem_singleton.mp ho]
      rfl
  | case6 attempt error hmore tried rest observed position hrest ih =>
    rw [hrest] at ih
    intro o ho
    rcases List.mem_append.mp ho with htried | ho
    · rcases List.mem_cons.mp htried with rfl | ho
      · rfl
      · rw [List.mem_singleton.mp ho]
        rfl
    · exact ih o ho

end

/-! ## One call moves on -/

section
variable {τ ε : Type} {policy : RetryPolicy} {q q' : PersistenceQueue τ ε}
  {stages : List (EnqueueStage ε)} {k : Nat} {stage stage' : EnqueueStage ε}

theorem traceFrom_set {extra : List (QueueObservation ε)} (first : Nat)
    (hk : stages[k]? = some stage) (hlater : ∀ j s, k < j → stages[j]? = some s → s = .waiting)
    (htrace : stage'.trace policy (first + k) = stage.trace policy (first + k) ++ extra) :
    EnqueueStage.traceFrom policy first (stages.set k stage') =
      EnqueueStage.traceFrom policy first stages ++ extra := by
  have hwaiting : ∀ (first : Nat) (rest : List (EnqueueStage ε)), (∀ s ∈ rest, s = .waiting) →
      EnqueueStage.traceFrom policy first rest = [] := by
    intro first rest hrest
    induction rest generalizing first with
    | nil => rfl
    | cons s rest ih =>
      rw [EnqueueStage.traceFrom, ih _ fun s hs => hrest s (List.mem_cons_of_mem _ hs),
        hrest s List.mem_cons_self]
      rfl
  induction stages generalizing first k with
  | nil => cases hk
  | cons s rest ih =>
    cases k with
    | zero =>
      cases hk
      have hrest : EnqueueStage.traceFrom policy (first + 1) rest = [] := by
        refine hwaiting _ _ fun s hs => ?_
        obtain ⟨j, hj, rfl⟩ := List.mem_iff_getElem.mp hs
        exact hlater (j + 1) _ (Nat.succ_pos j) (List.getElem?_eq_getElem hj)
      rw [List.set_cons_zero, EnqueueStage.traceFrom, EnqueueStage.traceFrom, hrest, List.append_nil,
        List.append_nil]
      exact htrace
    | succ k =>
      rw [List.set_cons_succ, EnqueueStage.traceFrom, EnqueueStage.traceFrom, List.append_assoc]
      refine congrArg _ (ih (first + 1) hk (fun j s hj hs => ?_) ?_)
      · exact hlater (j + 1) s (Nat.succ_lt_succ hj) hs
      · rwa [Nat.add_right_comm, Nat.add_assoc]

theorem mem_block {r : Reaction QueueHandler} (h : r ∈ stage.reactions k) :
    3 * k < r.target ∧ r.target ≤ 3 * k + 3 := by
  have hall : r = EnqueueStage.runReaction k ∨ r = EnqueueStage.settledReaction k ∨
      r = EnqueueStage.tailReaction k := by
    cases stage with
    | waiting => simpa [EnqueueStage.reactions] using h
    | running answers =>
      rw [EnqueueStage.reactions, List.mem_cons, List.mem_singleton] at h
      exact .inr h
    | settled answers outcome => exact .inr (.inr (List.mem_singleton.mp h))
    | released answers outcome => cases h
  rcases hall with rfl | rfl | rfl
  · exact ⟨Nat.lt_succ_self _, Nat.le_add_right _ 2⟩
  · exact ⟨Nat.lt_add_of_pos_right (by decide), Nat.le_succ _⟩
  · exact ⟨Nat.lt_add_of_pos_right (by decide), Nat.le_refl _⟩

/-- A call goes from one stage to another: only its own promises, its job `target` and its part of
what is observed change. -/
theorem at_set (h : q.At policy stages) (hk : stages[k]? = some stage)
    (hopen : ∀ answers outcome, stage ≠ .released answers outcome)
    (hbefore : ∀ i < k, ∃ answers outcome, stages[i]? = some (.released answers outcome))
    (hsound : q'.heap.Sound) (hsize : q'.heap.size = q.heap.size) (htail : q'.tail = q.tail)
    (hcalls : q'.calls = q.calls.modify k fun c =>
      { c with position := stage'.position policy k })
    (hothers : ∀ p, p < 3 * k + 1 ∨ 3 * k + 3 < p → q'.heap.outcome p = q.heap.outcome p)
    (hproper : stage'.Proper policy k)
    (houtcomes : q'.heap.outcome (3 * k + 1) = stage'.runOutcome policy k ∧
      q'.heap.outcome (3 * k + 2) = stage'.settledOutcome ∧
      q'.heap.outcome (3 * k + 3) = stage'.tailOutcome)
    {target : Nat} (htarget : target ≤ 3 * k + 3) (hblock : target = 0 ∨ 3 * k < target)
    (hreactions : ∀ r, r ∈ q'.heap.reactions ↔ r ∈ q.heap.reactions ∧ r.target ≠ target)
    (hleft : ∀ r, r ∈ stage'.reactions k ↔ r ∈ stage.reactions k ∧ r.target ≠ target)
    (hpending : q'.pending = q.pending - (if stage.isOpen then 1 else 0) +
      if stage'.isOpen then 1 else 0)
    {extra : List (QueueObservation ε)} (hobserved : q'.observed = q.observed ++ extra)
    (htrace : stage'.trace policy k = stage.trace policy k ++ extra) :
    q'.At policy (stages.set k stage') := by
  have hlt : k < stages.length := (List.getElem?_eq_some_iff.mp hk).1
  have hself : (stages.set k stage')[k]? = some stage' := by
    rw [List.getElem?_set_self hlt]
  have hother : ∀ {j : Nat}, j ≠ k → (stages.set k stage')[j]? = stages[j]? :=
    fun hne => List.getElem?_set_ne (Ne.symm hne)
  have hlater : ∀ j s, k < j → stages[j]? = some s → s = .waiting := by
    intro j s hj hs
    rcases h.serial k j s hj hs with hwaiting | ⟨answers, outcome, hreleased⟩
    · exact hwaiting
    · exact absurd (Option.some.inj (hk.symm.trans hreleased)) (hopen answers outcome)
  exact {
    sound := hsound
    size := by rw [hsize, h.size, List.length_set]
    tail := by rw [htail, h.tail, List.length_set]
    first := by rw [hothers 0 (.inl (Nat.succ_pos _)), h.first]
    beyond := fun p hp => by
      have hsize' := h.size
      rw [hothers p (.inr (by omega)), h.beyond p (hsize ▸ hp)]
    length := by rw [hcalls, List.length_modify, List.length_set, h.length]
    calls := fun j s hs => by
      rw [hcalls]
      rcases Decidable.em (j = k) with rfl | hne
      · obtain rfl := Option.some.inj (hself.symm.trans hs)
        obtain ⟨task, hcall⟩ := h.calls j stage hk
        exact ⟨task, by rw [List.getElem?_modify_eq, hcall]; rfl⟩
      · rw [hother hne] at hs
        obtain ⟨task, hcall⟩ := h.calls j s hs
        exact ⟨task, by rw [List.getElem?_modify_ne _ _ (Ne.symm hne), hcall]⟩
    proper := fun j s hs => by
      rcases Decidable.em (j = k) with rfl | hne
      · obtain rfl := Option.some.inj (hself.symm.trans hs)
        exact hproper
      · rw [hother hne] at hs
        exact h.proper j s hs
    outcomes := fun j s hs => by
      rcases Decidable.em (j = k) with rfl | hne
      · obtain rfl := Option.some.inj (hself.symm.trans hs)
        exact houtcomes
      · rw [hother hne] at hs
        rw [hothers _ (by omega), hothers _ (by omega), hothers _ (by omega)]
        exact h.outcomes j s hs
    reactions := fun r => by
      rw [hreactions, h.reactions]
      constructor
      · rintro ⟨⟨j, s, hs, hr⟩, hne⟩
        rcases Decidable.em (j = k) with rfl | hjk
        · obtain rfl := Option.some.inj (hk.symm.trans hs)
          exact ⟨j, stage', hself, (hleft r).mpr ⟨hr, hne⟩⟩
        · exact ⟨j, s, (hother hjk).trans hs, hr⟩
      · rintro ⟨j, s, hs, hr⟩
        rcases Decidable.em (j = k) with rfl | hjk
        · obtain rfl := Option.some.inj (hself.symm.trans hs)
          exact ⟨⟨j, stage, hk, ((hleft r).mp hr).1⟩, ((hleft r).mp hr).2⟩
        · have hblock' := mem_block hr
          exact ⟨⟨j, s, (hother hjk).symm.trans hs, hr⟩, by omega⟩
    pending := by
      rw [hpending, h.pending, List.countP_set hlt, (List.getElem?_eq_some_iff.mp hk).2]
    observed := by
      rw [hobserved, h.observed]
      exact (traceFrom_set 0 hk hlater (by rw [Nat.zero_add]; exact htrace)).symm
    serial := fun i j s hij hs => by
      rcases Decidable.em (j = k) with rfl | hjk
      · obtain ⟨answers, outcome, hreleased⟩ := hbefore i hij
        exact .inr ⟨answers, outcome, (hother (Nat.ne_of_lt hij)).trans hreleased⟩
      · rw [hother hjk] at hs
        rcases Decidable.em (i = k) with rfl | hik
        · exact .inl (hlater j s hij hs)
        · rw [hother hik]
          exact h.serial i j s hij hs }

theorem at_empty : (PersistenceQueue.empty : PersistenceQueue τ ε).At policy [] where
  sound := .resolved
  size := rfl
  tail := rfl
  first := rfl
  beyond p hp := if_neg (Nat.ne_of_gt hp)
  length := rfl
  calls _ _ hs := by cases hs
  proper _ _ hs := by cases hs
  outcomes _ _ hs := by cases hs
  reactions r := ⟨fun hr => absurd hr List.not_mem_nil, fun ⟨_, _, hs, _⟩ => by cases hs⟩
  pending := rfl
  observed := rfl
  serial _ _ _ _ hs := by cases hs

theorem getElem?_concat_cases {α : Type} {l : List α} {x y : α} {i : Nat}
    (h : (l ++ [x])[i]? = some y) : l[i]? = some y ∨ i = l.length ∧ y = x := by
  rcases Nat.lt_or_ge i l.length with hlt | hge
  · rw [List.getElem?_append_left hlt] at h
    exact .inl h
  · rw [List.getElem?_append_right hge] at h
    obtain ⟨hzero, heq⟩ := List.getElem?_eq_some_iff.mp h
    rw [List.getElem_singleton] at heq
    rw [List.length_singleton] at hzero
    exact .inr ⟨by omega, heq.symm⟩

theorem traceFrom_concat_waiting (first : Nat) (stages : List (EnqueueStage ε)) :
    EnqueueStage.traceFrom policy first (stages ++ [.waiting]) =
      EnqueueStage.traceFrom policy first stages := by
  induction stages generalizing first with
  | nil => rfl
  | cons s rest ih =>
    rw [List.cons_append, EnqueueStage.traceFrom, EnqueueStage.traceFrom, ih]

theorem at_enqueue (h : q.At policy stages) (task : τ) :
    (q.enqueue task).At policy (stages ++ [.waiting]) := by
  have hsize := h.size
  have htail := h.tail
  have hlength := h.length
  have hnew : (stages ++ [EnqueueStage.waiting])[stages.length]? = some (EnqueueStage.waiting : EnqueueStage ε) :=
    List.getElem?_concat_length
  have hold : ∀ {i : Nat} {s : EnqueueStage ε}, stages[i]? = some s →
      (stages ++ [EnqueueStage.waiting])[i]? = some s := fun hs => by
    rw [List.getElem?_append_left (List.getElem?_eq_some_iff.mp hs).1, hs]
  have hreactions : ∀ r, r ∈ (q.enqueue task).heap.reactions ↔
      r ∈ q.heap.reactions ∨ r ∈ (EnqueueStage.waiting : EnqueueStage ε).reactions stages.length := by
    intro r
    show r ∈ ((q.heap.reactions ++ [⟨q.tail, .onFulfilled, .runTask q.calls.length, q.heap.size⟩]) ++
      [⟨q.heap.size, .onSettled, .decrement, q.heap.size + 1⟩]) ++
      [⟨q.heap.size + 1, .onRejected, .ignore, q.heap.size + 2⟩] ↔ _
    rw [List.append_assoc, List.append_assoc, List.mem_append, htail, hsize, hlength]
    rfl
  have hsound : (q.enqueue task).heap.Sound := by
    have hfresh : ∀ n, q.heap.outcome (q.heap.size + n) = none := fun n =>
      h.beyond _ (Nat.le_add_right _ n)
    refine Heap.Sound.derive (Heap.Sound.derive (Heap.Sound.derive h.sound ?_ (hfresh 0))
      (Nat.lt_succ_self _) (hfresh 1)) (Nat.lt_succ_self _) (hfresh 2)
    rw [htail, hsize]
    exact Nat.lt_succ_self _
  exact {
    sound := hsound
    size := by
      show q.heap.size + 3 = _
      rw [hsize, List.length_append, List.length_singleton]
      omega
    tail := by
      show q.heap.size + 2 = _
      rw [hsize, List.length_append, List.length_singleton]
      omega
    first := h.first
    beyond := fun p hp => h.beyond p (Nat.le_trans (Nat.le_add_right _ 3) hp)
    length := by
      show (q.calls ++ [_]).length = _
      rw [List.length_append, List.length_append, hlength, List.length_singleton,
        List.length_singleton]
    calls := fun k s hs => by
      show ∃ task', (q.calls ++ [_])[k]? = _
      rcases getElem?_concat_cases hs with hs | ⟨rfl, rfl⟩
      · obtain ⟨task', hcall⟩ := h.calls k s hs
        rw [List.getElem?_append_left (List.getElem?_eq_some_iff.mp hcall).1, hcall]
        exact ⟨task', rfl⟩
      · rw [← hlength, List.getElem?_concat_length, hlength]
        refine ⟨task, ?_⟩
        show some (QueueCall.mk task q.heap.size (q.heap.size + 1) none) = _
        rw [hsize]
        rfl
    proper := fun k s hs => by
      rcases getElem?_concat_cases hs with hs | ⟨rfl, rfl⟩
      · exact h.proper k s hs
      · trivial
    outcomes := fun k s hs => by
      show q.heap.outcome _ = _ ∧ q.heap.outcome _ = _ ∧ q.heap.outcome _ = _
      rcases getElem?_concat_cases hs with hs | ⟨rfl, rfl⟩
      · exact h.outcomes k s hs
      · refine ⟨h.beyond _ ?_, h.beyond _ ?_, h.beyond _ ?_⟩
        all_goals omega
    reactions := fun r => by
      rw [hreactions, h.reactions]
      constructor
      · rintro (⟨k, s, hs, hr⟩ | hr)
        · exact ⟨k, s, hold hs, hr⟩
        · exact ⟨_, _, hnew, hr⟩
      · rintro ⟨k, s, hs, hr⟩
        rcases getElem?_concat_cases hs with hs | ⟨rfl, rfl⟩
        · exact .inl ⟨k, s, hs, hr⟩
        · exact .inr hr
    pending := by
      show q.pending + 1 = _
      rw [h.pending, List.countP_append]
      rfl
    observed := by
      rw [traceFrom_concat_waiting]
      exact h.observed
    serial := fun i j s hij hs => by
      rcases getElem?_concat_cases hs with hs | ⟨rfl, rfl⟩
      · rcases h.serial i j s hij hs with hwaiting | ⟨answers, outcome, hreleased⟩
        · exact .inl hwaiting
        · exact .inr ⟨answers, outcome, hold hreleased⟩
      · exact .inl rfl }

/-- A position that is set anew. -/
theorem modify_position (h : q.At policy stages) (hk : stages[k]? = some stage)
    {position : Option (RunPosition ε)} (hposition : stage.position policy k = position) :
    q.calls = q.calls.modify k fun c => { c with position } := by
  obtain ⟨task, hcall⟩ := h.calls k stage hk
  refine List.ext_getElem? fun j => ?_
  rcases Decidable.em (j = k) with rfl | hne
  · rw [List.getElem?_modify_eq, hcall, ← hposition]
    rfl
  · rw [List.getElem?_modify_ne _ _ (Ne.symm hne)]

/-- The calls in front of one that has started are released. -/
theorem released_before (h : q.At policy stages) (hk : stages[k]? = some stage)
    (hstarted : stage ≠ .waiting) :
    ∀ i < k, ∃ answers outcome, stages[i]? = some (.released answers outcome) := fun i hi =>
  (h.serial i k stage hi hk).resolve_left hstarted

/-- So are those in front of one whose job can run. -/
theorem released_of_ready (h : q.At policy stages) (hk : stages[k]? = some stage) {o : Outcome ε}
    (hsource : q.heap.outcome (3 * k) = some o) :
    o = .fulfilled ∧
      ∀ i < k, ∃ answers outcome, stages[i]? = some (.released answers outcome) := by
  cases k with
  | zero =>
    rw [Nat.mul_zero, h.first] at hsource
    exact ⟨(Option.some.inj hsource).symm, fun i hi => absurd hi (Nat.not_lt_zero i)⟩
  | succ j =>
    have hj : j < stages.length :=
      Nat.lt_of_succ_lt (List.getElem?_eq_some_iff.mp hk).1
    have hstage := List.getElem?_eq_getElem hj
    have htail : q.heap.outcome (3 * j + 3) = stages[j].tailOutcome :=
      (h.outcomes j _ hstage).2.2
    rw [show 3 * (j + 1) = 3 * j + 3 from rfl, htail] at hsource
    cases hreleased : stages[j] with
    | waiting | running answers | settled answers outcome =>
      rw [hreleased] at hsource
      cases hsource
    | released answers outcome =>
      rw [hreleased] at hsource hstage
      refine ⟨(Option.some.inj hsource).symm, fun i hi => ?_⟩
      rcases Nat.lt_or_eq_of_le (Nat.le_of_lt_succ hi) with hlt | rfl
      · exact released_before h hstage (fun hwaiting => by cases hwaiting) i hlt
      · exact ⟨answers, outcome, hstage⟩

theorem at_start (h : q.At policy stages) (hk : stages[k]? = some .waiting)
    (hbefore : ∀ i < k, ∃ answers outcome, stages[i]? = some (.released answers outcome)) :
    (({ q with heap := q.heap.consume (3 * k + 1) } : PersistenceQueue τ ε).handle (.runTask k)
      (3 * k + 1) .fulfilled).At policy (stages.set k (.running [])) := by
  have houtcomes : q.heap.outcome (3 * k + 1) = none ∧ q.heap.outcome (3 * k + 2) = none ∧
    q.heap.outcome (3 * k + 3) = none := h.outcomes k _ hk
  refine at_set h hk (fun _ _ hne => by cases hne) hbefore (h.sound.consume _) rfl rfl rfl
    (fun _ _ => rfl) trivial houtcomes (Nat.le_add_right _ 2)
    (.inr (Nat.lt_succ_self _)) (fun _ => Heap.mem_consume) (fun r => ?_) ?_ rfl rfl
  · constructor
    · intro hr
      refine ⟨List.mem_cons_of_mem _ hr, fun htarget => ?_⟩
      rcases List.mem_cons.mp hr with rfl | hr
      · exact absurd htarget (Nat.succ_ne_self _)
      · rw [List.mem_singleton.mp hr] at htarget
        exact absurd htarget (Nat.ne_of_gt (Nat.lt_add_of_pos_right Nat.two_pos))
    · rintro ⟨hr, hne⟩
      rcases List.mem_cons.mp hr with rfl | hr
      · exact absurd rfl hne
      · exact hr
  · -- A call counts as pending from `enqueue` on.
    have hpos : 0 < stages.countP EnqueueStage.isOpen :=
      List.countP_pos_iff.mpr ⟨_, List.mem_of_getElem? hk, rfl⟩
    show q.pending = q.pending - 1 + 1
    rw [h.pending, Nat.sub_add_cancel hpos]

theorem at_settle (h : q.At policy stages) {answers : List (Outcome ε)} {outcome : Outcome ε}
    (hk : stages[k]? = some (.running answers))
    (hreturned : (runWithRetry policy k 0 answers).2 = .returned outcome) :
    (({ q with heap := q.heap.consume (3 * k + 2) } : PersistenceQueue τ ε).handle .decrement
      (3 * k + 2) outcome).At policy (stages.set k (.settled answers outcome)) := by
  have hposition : (EnqueueStage.running answers).position policy k = some (.returned outcome) := by
    rw [EnqueueStage.position, hreturned]
  obtain ⟨hrun, -, htail⟩ := h.outcomes k _ hk
  refine at_set h hk (fun _ _ hne => by cases hne) (released_before h hk fun hw => by cases hw)
    (h.sound.pass _ _) rfl rfl (modify_position h hk hposition) (fun p hp => ?_) hreturned
    ⟨?_, ?_, ?_⟩ (Nat.le_succ _) (.inr (Nat.lt_add_of_pos_right (by decide)))
    (fun _ => Heap.mem_consume) (fun r => ?_) rfl (List.append_nil _).symm
    (List.append_nil _).symm
  · exact Heap.outcome_settle_of_ne (by omega)
  · refine (Heap.outcome_settle_of_ne (Nat.ne_of_lt (Nat.lt_succ_self _))).trans (hrun.trans ?_)
    rw [EnqueueStage.runOutcome, hposition]
    rfl
  · exact Heap.outcome_settle_self
  · exact (Heap.outcome_settle_of_ne (Nat.succ_ne_self _)).trans htail
  · constructor
    · intro hr
      refine ⟨List.mem_cons_of_mem _ hr, ?_⟩
      rw [List.mem_singleton.mp hr]
      exact Nat.succ_ne_self _
    · rintro ⟨hr, hne⟩
      rcases List.mem_cons.mp hr with rfl | hr
      · exact absurd rfl hne
      · exact hr

/-- The `catch` of the tail: the next call starts whether this one failed or not. -/
theorem at_release (h : q.At policy stages) {answers : List (Outcome ε)} {outcome : Outcome ε}
    (hk : stages[k]? = some (.settled answers outcome))
    (hcalls : q'.calls = q.calls) (htail : q'.tail = q.tail) (hpending : q'.pending = q.pending)
    (hobserved : q'.observed = q.observed)
    (hheap : q'.heap = (q.heap.consume (3 * k + 3)).settle (3 * k + 3) .fulfilled) :
    q'.At policy (stages.set k (.released answers outcome)) := by
  obtain ⟨hrun, hsettled, -⟩ := h.outcomes k _ hk
  have hproper : (runWithRetry policy k 0 answers).2 = .returned outcome := h.proper k _ hk
  have hblock : 3 * k < 3 * k + 3 := Nat.lt_add_of_pos_right (Nat.succ_pos 2)
  refine at_set h hk (fun _ _ hne => by cases hne) (released_before h hk fun hw => by cases hw)
    (hheap ▸ h.sound.pass _ _) (by rw [hheap]; rfl) htail
    (hcalls.trans (modify_position h hk rfl)) (fun p hp => ?_) hproper ⟨?_, ?_, ?_⟩
    (Nat.le_refl _) (.inr hblock) (fun r => by rw [hheap]; exact Heap.mem_consume) (fun r => ?_) hpending
    (hobserved.trans (List.append_nil _).symm) (List.append_nil _).symm
  · rw [hheap]
    exact Heap.outcome_settle_of_ne (by omega)
  · rw [hheap]
    exact (Heap.outcome_settle_of_ne (by omega)).trans hrun
  · rw [hheap]
    exact (Heap.outcome_settle_of_ne (Nat.ne_of_lt (Nat.lt_succ_self _))).trans hsettled
  · rw [hheap]
    exact Heap.outcome_settle_self
  · constructor
    · intro hr
      cases hr
    · rintro ⟨hr, hne⟩
      rw [List.mem_singleton.mp hr] at hne
      exact absurd rfl hne

/-- A job that can run moves one call on. -/
theorem at_runJob {target : Nat} (h : q.At policy stages)
    (hready : (q.heap.ready? target).isSome = true) :
    ∃ k stage stage', stages[k]? = some stage ∧ EnqueueStage.Next policy k stage stage' ∧
      stage'.answers = stage.answers ∧ (q.runJob target).At policy (stages.set k stage') := by
  obtain ⟨⟨r, o⟩, hsome⟩ := Option.isSome_iff_exists.mp hready
  obtain ⟨hr, rfl, hsource⟩ := (Heap.ready_iff h.sound).mp hsome
  obtain ⟨k, stage, hk, hmem⟩ := (h.reactions r).mp hr
  obtain ⟨hrun, hsettled, -⟩ := h.outcomes k stage hk
  unfold PersistenceQueue.runJob
  rw [hsome]
  dsimp only
  cases stage with
  | waiting =>
    rw [EnqueueStage.reactions, List.mem_cons, List.mem_cons, List.mem_singleton] at hmem
    rcases hmem with rfl | rfl | rfl
    · obtain ⟨rfl, hbefore⟩ := released_of_ready h hk hsource
      exact ⟨k, _, _, hk, .start, rfl, at_start h hk hbefore⟩
    · cases hrun.symm.trans hsource
    · cases hsettled.symm.trans hsource
  | running answers =>
    rw [EnqueueStage.reactions, List.mem_cons, List.mem_singleton] at hmem
    rcases hmem with rfl | rfl
    · have hreturned : (runWithRetry policy k 0 answers).2 = .returned o := by
        have hat : EnqueueStage.runOutcomeAt (runWithRetry policy k 0 answers).2 = some o :=
          hrun.symm.trans hsource
        cases hposition : (runWithRetry policy k 0 answers).2 with
        | attempting attempt | sleeping attempt =>
          rw [hposition] at hat
          cases hat
        | returned outcome =>
          rw [hposition] at hat
          rw [Option.some.inj hat]
      exact ⟨k, _, _, hk, .settle answers o hreturned, rfl, at_settle h hk hreturned⟩
    · cases hsettled.symm.trans hsource
  | settled answers outcome =>
    rw [EnqueueStage.reactions, List.mem_singleton] at hmem
    subst hmem
    refine ⟨k, _, _, hk, .release answers outcome, rfl, ?_⟩
    cases o with
    | fulfilled => exact at_release h hk rfl rfl rfl rfl rfl
    | rejected error => exact at_release h hk rfl rfl rfl rfl rfl
  | released answers outcome => cases hmem

/-- A task or a delay that a call awaits belongs to a running call. -/
theorem running_of_awaited {run : Nat} {position : RunPosition ε} (h : q.At policy stages)
    (hawaited : q.awaited? k = some (run, position)) :
    ∃ answers, stages[k]? = some (.running answers) ∧ run = 3 * k + 1 ∧
      position = (runWithRetry policy k 0 answers).2 ∧
      EnqueueStage.runOutcomeAt (runWithRetry policy k 0 answers).2 = none := by
  unfold PersistenceQueue.awaited? at hawaited
  cases hcall : q.calls[k]? with
  | none =>
    rw [hcall] at hawaited
    cases hawaited
  | some c =>
    have hlt : k < stages.length := h.length ▸ (List.getElem?_eq_some_iff.mp hcall).1
    have hk := List.getElem?_eq_getElem hlt
    obtain ⟨task, hcall'⟩ := h.calls k _ hk
    rw [hcall'] at hawaited
    cases hstage : stages[k] with
    | waiting | settled answers outcome | released answers outcome =>
      rw [hstage] at hawaited
      cases hawaited
    | running answers =>
      rw [hstage] at hawaited hk
      refine ⟨answers, hk, ?_⟩
      dsimp only [EnqueueStage.position] at hawaited
      cases hposition : (runWithRetry policy k 0 answers).2 with
      | attempting attempt | sleeping attempt =>
        rw [hposition] at hawaited
        cases hawaited
        exact ⟨rfl, rfl, rfl⟩
      | returned outcome =>
        rw [hposition] at hawaited
        cases hawaited

theorem finishRun_eq (run : Nat) (position : RunPosition ε) (q : PersistenceQueue τ ε) :
    q.finishRun run position = { q with heap :=
      ((EnqueueStage.runOutcomeAt position).elim q.heap fun o => q.heap.settle run o) } := by
  cases position with
  | attempting attempt | sleeping attempt | returned outcome => rfl

theorem at_answer (h : q.At policy stages) {answers : List (Outcome ε)} (answer : Outcome ε)
    (hk : stages[k]? = some (.running answers))
    (hawaits : EnqueueStage.runOutcomeAt (runWithRetry policy k 0 answers).2 = none)
    (hawaited : q.awaited? k = some (3 * k + 1, (runWithRetry policy k 0 answers).2)) :
    (q.answer policy k answer).At policy (stages.set k (.running (answers ++ [answer]))) := by
  have hloop := runWithRetry_concat policy k answers answer 0
  obtain ⟨hrun, hsettled, htail⟩ := h.outcomes k _ hk
  -- The job of `run` has run, so nothing else settles it.
  have hfree : ∀ r ∈ q.heap.reactions, r.target ≠ 3 * k + 1 := by
    intro r hr htarget
    obtain ⟨j, s, hs, hmem⟩ := (h.reactions r).mp hr
    have hblock := mem_block hmem
    obtain rfl : j = k := by omega
    obtain rfl := Option.some.inj (hk.symm.trans hs)
    rw [EnqueueStage.reactions, List.mem_cons, List.mem_singleton] at hmem
    rcases hmem with rfl | rfl
    · exact absurd htarget (Nat.succ_ne_self _)
    · exact absurd htarget (Nat.ne_of_gt (Nat.lt_add_of_pos_right Nat.two_pos))
  have hzero : ∀ r ∈ q.heap.reactions, r.target ≠ 0 := fun r hr =>
    Nat.ne_of_gt (Nat.zero_lt_of_lt (h.sound.older r hr))
  unfold PersistenceQueue.answer
  rw [hawaited]
  dsimp only
  rw [finishRun_eq]
  generalize hadvance : (runWithRetry policy k 0 answers).2.advance policy k answer = advanced
    at hloop
  obtain ⟨observed, position⟩ := advanced
  have hnext : (EnqueueStage.running (answers ++ [answer])).position policy k = some position := by
    rw [EnqueueStage.position, hloop]
  have hoption : ∀ p, p ≠ 3 * k + 1 →
      ((EnqueueStage.runOutcomeAt position).elim q.heap fun o => q.heap.settle (3 * k + 1) o).outcome p
        = q.heap.outcome p := by
    intro p hp
    cases EnqueueStage.runOutcomeAt position with
    | none => rfl
    | some o => exact Heap.outcome_settle_of_ne hp
  refine at_set h hk (fun _ _ hne => by cases hne) (released_before h hk fun hw => by cases hw)
    ?_ ?_ rfl ?_ (fun p hp => hoption p (by omega)) trivial ⟨?_, ?_, ?_⟩ (Nat.zero_le _) (.inl rfl)
    (fun r => ?_) (fun r => ?_) ?_ rfl ?_
  · show Heap.Sound ((EnqueueStage.runOutcomeAt position).elim q.heap _)
    cases EnqueueStage.runOutcomeAt position with
    | none => exact h.sound
    | some o => exact h.sound.settle hfree o
  · show Heap.size ((EnqueueStage.runOutcomeAt position).elim q.heap _) = _
    cases EnqueueStage.runOutcomeAt position with
    | none => rfl
    | some o => rfl
  · show q.calls.modify k _ = _
    rw [hnext]
  · show Heap.outcome ((EnqueueStage.runOutcomeAt position).elim q.heap _) _ = _
    rw [EnqueueStage.runOutcome, hnext, Option.bind_some]
    cases EnqueueStage.runOutcomeAt position with
    | none =>
      refine hrun.trans ?_
      rw [EnqueueStage.runOutcome, EnqueueStage.position, Option.bind_some, hawaits]
    | some o => exact Heap.outcome_settle_self
  · exact (hoption _ (Nat.succ_ne_self _)).trans hsettled
  · exact (hoption _ (by omega)).trans htail
  · have hsame : Heap.reactions ((EnqueueStage.runOutcomeAt position).elim q.heap fun o =>
        q.heap.settle (3 * k + 1) o) = q.heap.reactions := by
      cases EnqueueStage.runOutcomeAt position with
      | none => rfl
      | some o => rfl
    refine (iff_of_eq (congrArg (r ∈ ·) hsame)).trans ?_
    exact ⟨fun hr => ⟨hr, hzero r hr⟩, fun hr => hr.1⟩
  · exact ⟨fun hr => ⟨hr, Nat.ne_of_gt (Nat.zero_lt_of_lt (mem_block hr).1)⟩, fun hr => hr.1⟩
  · have hpos : 0 < stages.countP EnqueueStage.isOpen :=
      List.countP_pos_iff.mpr ⟨_, List.mem_of_getElem? hk, rfl⟩
    show q.pending = q.pending - 1 + 1
    rw [h.pending, Nat.sub_add_cancel hpos]
  · show (runWithRetry policy k 0 (answers ++ [answer])).1 = _
    rw [hloop]
    rfl

end

/-! ## Runs -/

section
variable {τ ε : Type} {policy : RetryPolicy} {q : PersistenceQueue τ ε}
  {stages : List (EnqueueStage ε)} {event : QueueEvent τ ε} {events : List (QueueEvent τ ε)}

/-- A move of the queue is a step of one call. -/
theorem at_move (h : q.At policy stages) (hmove : q.Moves event) :
    ∃ k stage stage', stages[k]? = some stage ∧ EnqueueStage.Next policy k stage stage' ∧
      (∀ j, event.answerTo j = if j = k then stage'.answers.drop stage.answers.length else []) ∧
      stage.answers <+: stage'.answers ∧
      (q.step policy event).At policy (stages.set k stage') := by
  cases event with
  | enqueue task => exact hmove.elim
  | job promise =>
    obtain ⟨k, stage, stage', hk, hnext, hanswers, hat⟩ := at_runJob h hmove
    refine ⟨k, stage, stage', hk, hnext, fun j => ?_, hanswers ▸ List.prefix_rfl, hat⟩
    rw [hanswers, List.drop_length, ite_self]
    rfl
  | answer k outcome =>
    obtain ⟨⟨run, position⟩, hawaited⟩ := Option.isSome_iff_exists.mp hmove
    obtain ⟨answers, hk, rfl, rfl, hawaits⟩ := running_of_awaited h hawaited
    refine ⟨k, _, _, hk, .answer answers outcome hawaits, fun j => ?_, List.prefix_append _ _,
      at_answer h outcome hk hawaits hawaited⟩
    show (if k = j then [outcome] else []) =
      if j = k then (answers ++ [outcome]).drop answers.length else []
    rw [List.drop_left]
    exact if_congr eq_comm rfl rfl

theorem step_tasks (q : PersistenceQueue τ ε) (event : QueueEvent τ ε) :
    (q.step policy event).calls.map (·.task) = q.calls.map (·.task) ++ event.task?.toList := by
  have hset : ∀ (q : PersistenceQueue τ ε) (k : Nat) (position : RunPosition ε),
      (q.setPosition k position).calls.map (·.task) = q.calls.map (·.task) := by
    intro q k position
    refine List.ext_getElem? fun j => ?_
    rw [PersistenceQueue.setPosition, List.getElem?_map, List.getElem?_map, List.getElem?_modify]
    cases q.calls[j]? with
    | none => rfl
    | some c =>
      show some (QueueCall.task (if k = j then _ else c)) = some c.task
      split
      · rfl
      · rfl
  cases event with
  | enqueue task =>
    show (q.calls ++ [_]).map _ = _
    rw [List.map_append]
    rfl
  | job promise =>
    show (q.runJob promise).calls.map _ = _ ++ []
    rw [List.append_nil, PersistenceQueue.runJob]
    split
    · rfl
    · split
      · rename_i r o hready hhandles
        cases r.handler with
        | runTask call => exact hset _ _ _
        | decrement | ignore => rfl
      · rfl
  | answer call outcome =>
    show (q.answer policy call outcome).calls.map _ = _ ++ []
    rw [List.append_nil, PersistenceQueue.answer]
    split
    · rfl
    · dsimp only
      rw [finishRun_eq]
      exact hset _ _ _

/-- The calls after a run, with the answers they were given. -/
theorem at_after (hrun : Along (PersistenceQueue.step policy) PersistenceQueue.Enabled
    (.empty : PersistenceQueue τ ε) events) :
    ∃ stages, (PersistenceQueue.after policy events).At policy stages ∧
      ∀ k, events.flatMap (·.answerTo k) = (stages[k]?.getD .waiting).answers := by
  induction events using List.reverseRecOn with
  | nil => exact ⟨[], at_empty, fun _ => rfl⟩
  | append_singleton events event ih =>
    rw [along_concat] at hrun
    obtain ⟨stages, hat, hanswers⟩ := ih hrun.1
    unfold PersistenceQueue.after at hat ⊢
    rw [runFrom_concat]
    rcases hrun.2 with htask | hmove
    · cases event with
      | enqueue task =>
        refine ⟨stages ++ [EnqueueStage.waiting], at_enqueue hat task, fun k => ?_⟩
        rw [List.flatMap_append, hanswers]
        refine (List.append_nil _).trans (congrArg _ ?_)
        rcases Nat.lt_or_ge k stages.length with hlt | hge
        · rw [List.getElem?_append_left hlt]
        · rw [List.getElem?_eq_none hge]
          cases hk : (stages ++ [EnqueueStage.waiting])[k]? with
          | none => rfl
          | some stage =>
            rcases getElem?_concat_cases hk with hk | ⟨-, rfl⟩
            · rw [List.getElem?_eq_none hge] at hk
              cases hk
            · rfl
      | job promise | answer call outcome => cases htask
    · obtain ⟨k, stage, stage', hk, -, hgiven, ⟨more, hmore⟩, hat'⟩ := at_move hat hmove
      refine ⟨_, hat', fun j => ?_⟩
      rw [List.flatMap_append, hanswers, List.flatMap_singleton, hgiven]
      rcases Decidable.em (j = k) with rfl | hne
      · rw [if_pos rfl, hk, List.getElem?_set_self (List.getElem?_eq_some_iff.mp hk).1, ← hmore]
        show stage.answers ++ (stage.answers ++ more).drop _ = _
        rw [List.drop_left, hmore]
        rfl
      · rw [if_neg hne, List.getElem?_set_ne (Ne.symm hne), List.append_nil]

theorem tasks_after (events : List (QueueEvent τ ε)) :
    (PersistenceQueue.after policy events).calls.map (·.task) = events.filterMap (·.task?) := by
  unfold PersistenceQueue.after
  induction events using List.reverseRecOn with
  | nil => rfl
  | append_singleton events event ih =>
    rw [runFrom_concat, step_tasks, ih, List.filterMap_append]
    cases event with
    | enqueue task | job promise | answer call outcome => rfl

/-! ## What a queue at its stages shows -/

/-- The outcome of a call is the one at its stage. -/
theorem outcomeOf_eq (h : q.At policy stages) {k : Nat} {stage : EnqueueStage ε}
    (hk : stages[k]? = some stage) : q.outcomeOf k = stage.settledOutcome := by
  obtain ⟨task, hcall⟩ := h.calls k stage hk
  rw [PersistenceQueue.outcomeOf, hcall]
  exact (h.outcomes k stage hk).2.1

theorem stage_of_outcome (h : q.At policy stages) {call : Nat} {outcome : Outcome ε}
    (houtcome : q.outcomeOf call = some outcome) :
    ∃ stage, stages[call]? = some stage ∧ stage.settledOutcome = some outcome := by
  cases hcall : q.calls[call]? with
  | none =>
    rw [PersistenceQueue.outcomeOf, hcall] at houtcome
    cases houtcome
  | some c =>
    have hlt : call < stages.length := h.length ▸ (List.getElem?_eq_some_iff.mp hcall).1
    have hk := List.getElem?_eq_getElem hlt
    exact ⟨_, hk, (outcomeOf_eq h hk).symm.trans houtcome⟩

theorem begun_iff (h : q.At policy stages) {k : Nat} :
    q.begun k = true ↔ ∃ stage, stages[k]? = some stage ∧ stage ≠ .waiting := by
  cases hk : stages[k]? with
  | none =>
    have hcall : q.calls[k]? = none := by
      rw [List.getElem?_eq_none_iff, h.length]
      exact List.getElem?_eq_none_iff.mp hk
    rw [PersistenceQueue.begun, hcall]
    exact ⟨fun hfalse => (Bool.false_ne_true hfalse).elim, fun ⟨_, hsome, _⟩ => by cases hsome⟩
  | some stage =>
    obtain ⟨task, hcall⟩ := h.calls k stage hk
    rw [PersistenceQueue.begun, hcall, Option.bind_some]
    cases stage with
    | waiting =>
      refine ⟨fun hfalse => (Bool.false_ne_true hfalse).elim, ?_⟩
      rintro ⟨_, hsome, hne⟩
      exact absurd (Option.some.inj hsome).symm hne
    | running answers | settled answers outcome | released answers outcome =>
      exact ⟨fun _ => ⟨_, rfl, fun hw => by cases hw⟩, fun _ => rfl⟩

/-- A call that has begun has done what the loop does, and one that has not has done nothing. -/
theorem traceFrom_eq_flatMap (first : Nat) (stages : List (EnqueueStage ε)) :
    EnqueueStage.traceFrom policy first stages = (List.range stages.length).flatMap fun k =>
      (stages[k]?.getD .waiting).trace policy (first + k) := by
  induction stages generalizing first with
  | nil => rfl
  | cons stage rest ih =>
    rw [EnqueueStage.traceFrom, ih, List.length_cons, List.range_succ_eq_map, List.flatMap_cons,
      List.flatMap_map]
    refine congrArg _ (List.flatMap_congr fun k _ => ?_)
    rw [List.getElem?_cons_succ, Nat.succ_eq_add_one, Nat.add_right_comm, Nat.add_assoc]

theorem flatMap_filter {α β : Type} (p : α → Bool) (f : α → List β) (l : List α)
    (hf : ∀ x ∈ l, p x = false → f x = []) : (l.filter p).flatMap f = l.flatMap f := by
  induction l with
  | nil => rfl
  | cons x l ih =>
    have hrest := ih fun y hy => hf y (List.mem_cons_of_mem _ hy)
    rw [List.flatMap_cons]
    cases hp : p x with
    | true => rw [List.filter_cons_of_pos hp, List.flatMap_cons, hrest]
    | false =>
      rw [List.filter_cons_of_neg (by rw [hp]; exact Bool.false_ne_true), hrest,
        hf x List.mem_cons_self hp, List.nil_append]

theorem observed_eq (h : q.At policy stages) {answers : Nat → List (Outcome ε)}
    (hanswers : ∀ k, answers k = (stages[k]?.getD .waiting).answers) :
    q.observed = ((List.range q.calls.length).filter q.begun).flatMap fun call =>
      (runWithRetry policy call 0 (answers call)).1 := by
  have htrace : ∀ k, (stages[k]?.getD .waiting).trace policy k =
      if q.begun k then (runWithRetry policy k 0 (answers k)).1 else [] := by
    intro k
    cases hbegun : q.begun k with
    | false =>
      have hwaiting : stages[k]?.getD .waiting = .waiting := by
        cases hk : stages[k]? with
        | none => rfl
        | some stage =>
          refine Classical.byContradiction fun hne => ?_
          exact Bool.false_ne_true (hbegun.symm.trans ((begun_iff h).mpr ⟨stage, hk, hne⟩))
      rw [hwaiting]
      rfl
    | true =>
      obtain ⟨stage, hk, hne⟩ := (begun_iff h).mp hbegun
      rw [if_pos rfl, hanswers, hk, Option.getD_some]
      cases stage with
      | waiting => exact absurd rfl hne
      | running answers | settled answers outcome | released answers outcome => rfl
  rw [h.observed, traceFrom_eq_flatMap, h.length]
  calc (List.range stages.length).flatMap (fun k => (stages[k]?.getD .waiting).trace policy (0 + k))
      = (List.range stages.length).flatMap fun k => (stages[k]?.getD .waiting).trace policy k :=
        List.flatMap_congr fun k _ => by rw [Nat.zero_add]
    _ = ((List.range stages.length).filter q.begun).flatMap fun k =>
          (stages[k]?.getD .waiting).trace policy k := by
        refine (flatMap_filter q.begun _ _ fun k _ hbegun => ?_).symm
        rw [htrace, hbegun]
        rfl
    _ = _ := List.flatMap_congr fun k hk => by rw [htrace, if_pos (List.mem_filter.mp hk).2]

theorem call_of_stage (k : Nat) (stage : EnqueueStage ε) :
    ∀ o ∈ stage.trace policy k, o.call = k := by
  cases stage with
  | waiting => exact fun o ho => absurd ho List.not_mem_nil
  | running answers | settled answers outcome | released answers outcome =>
    exact call_of_run policy k answers 0

theorem le_call_of_trace (first : Nat) (stages : List (EnqueueStage ε)) :
    ∀ o ∈ EnqueueStage.traceFrom policy first stages, first ≤ o.call := by
  induction stages generalizing first with
  | nil => exact fun o ho => absurd ho List.not_mem_nil
  | cons stage rest ih =>
    intro o ho
    rcases List.mem_append.mp ho with hfirst | hrest
    · exact Nat.le_of_eq (call_of_stage first stage o hfirst).symm
    · exact Nat.le_of_succ_le (ih (first + 1) o hrest)

/-- What is observed of one call. -/
theorem own_of_trace (h : q.At policy stages) {call : Nat} {stage : EnqueueStage ε}
    (hk : stages[call]? = some stage) :
    (q.observed.filter fun o => o.call == call) = stage.trace policy call := by
  have hfilter : ∀ (first call : Nat) (stages : List (EnqueueStage ε)),
      ((EnqueueStage.traceFrom policy first stages).filter fun o => o.call == first + call) =
        (stages[call]?.getD .waiting).trace policy (first + call) := by
    intro first call stages
    induction stages generalizing first call with
    | nil => rfl
    | cons s rest ih =>
      rw [EnqueueStage.traceFrom, List.filter_append]
      cases call with
      | zero =>
        have hrest : ((EnqueueStage.traceFrom policy (first + 1) rest).filter fun o =>
            o.call == first + 0) = [] := by
          rw [List.filter_eq_nil_iff]
          intro o ho heq
          exact absurd (eq_of_beq heq).symm (Nat.ne_of_lt (le_call_of_trace (first + 1) rest o ho))
        rw [hrest, List.append_nil]
        exact List.filter_eq_self.mpr fun o ho => beq_of_eq (call_of_stage first s o ho)
      | succ call =>
        have hfirst : ((s.trace policy first).filter fun o => o.call == first + (call + 1)) = [] := by
          rw [List.filter_eq_nil_iff]
          intro o ho heq
          rw [call_of_stage first s o ho] at heq
          exact absurd (eq_of_beq heq) (by omega)
        rw [hfirst, List.nil_append]
        have hnext := ih (first + 1) call
        rwa [Nat.add_right_comm, Nat.add_assoc] at hnext
  rw [h.observed]
  have hown := hfilter 0 call stages
  rwa [Nat.zero_add, hk, Option.getD_some] at hown

theorem pending_eq (h : q.At policy stages) : q.pending = q.unsettled := by
  have hmap : q.calls.map (fun c => (q.heap.outcome c.settled).isNone) =
      stages.map EnqueueStage.isOpen := by
    refine List.ext_getElem? fun k => ?_
    rw [List.getElem?_map, List.getElem?_map]
    cases hk : stages[k]? with
    | none =>
      have hcall : q.calls[k]? = none := by
        rw [List.getElem?_eq_none_iff, h.length]
        exact List.getElem?_eq_none_iff.mp hk
      rw [hcall]
      rfl
    | some stage =>
      obtain ⟨task, hcall⟩ := h.calls k stage hk
      rw [hcall, Option.map_some, Option.map_some, (h.outcomes k stage hk).2.1]
      cases stage with
      | waiting | running answers | settled answers outcome | released answers outcome => rfl
  rw [h.pending, PersistenceQueue.unsettled]
  calc stages.countP EnqueueStage.isOpen
      = (stages.map EnqueueStage.isOpen).countP id := (List.countP_map (p := id)).symm
    _ = (q.calls.map fun c => (q.heap.outcome c.settled).isNone).countP id := by rw [hmap]
    _ = _ := List.countP_map

/-! ## Progress -/

/-- A loop that awaits an answer has not been given too many. -/
theorem length_of_awaits {call : Nat} (answers : List (Outcome ε)) (attempt : Nat)
    (hattempt : attempt ≤ policy.maxRetries)
    (hawaits : EnqueueStage.runOutcomeAt (runWithRetry policy call attempt answers).2 = none) :
    2 * attempt + answers.length ≤ 2 * policy.maxRetries := by
  fun_induction runWithRetry policy call attempt answers with
  | case1 attempt => exact Nat.mul_le_mul_left 2 hattempt
  | case2 attempt rest => cases hawaits
  | case3 attempt error rest hlast => cases hawaits
  | case4 attempt error hmore tried =>
    show 2 * attempt + 1 ≤ _
    omega
  | case5 attempt error hmore tried error' rest => cases hawaits
  | case6 attempt error hmore tried rest observed position hrest ih =>
    rw [hrest] at ih
    have hle := ih (Nat.lt_of_not_le hmore) hawaits
    rw [List.length_cons, List.length_cons]
    omega

theorem rank_lt_of_next {call : Nat} {stage stage' : EnqueueStage ε}
    (h : EnqueueStage.Next policy call stage stage') : stage'.rank policy < stage.rank policy := by
  cases h with
  | start => exact Nat.lt_succ_self _
  | answer answers answer hawaits =>
    have hle := length_of_awaits answers 0 (Nat.zero_le _) hawaits
    rw [EnqueueStage.rank, EnqueueStage.rank, List.length_append, List.length_singleton]
    omega
  | settle answers outcome hreturned => exact Nat.lt_add_left _ (Nat.lt_succ_self 1)
  | release answers outcome => exact Nat.one_pos

theorem sum_set_add {k : Nat} {stage : EnqueueStage ε} (stage' : EnqueueStage ε) (f : EnqueueStage ε → Nat)
    (hk : stages[k]? = some stage) :
    ((stages.set k stage').map f).sum + f stage = (stages.map f).sum + f stage' := by
  induction stages generalizing k with
  | nil => cases hk
  | cons s rest ih =>
    cases k with
    | zero =>
      cases hk
      rw [List.set_cons_zero, List.map_cons, List.map_cons, List.sum_cons, List.sum_cons]
      omega
    | succ k =>
      have hrest := ih hk
      rw [List.set_cons_succ, List.map_cons, List.map_cons, List.sum_cons, List.sum_cons]
      omega

/-- Every move uses up some of the rank. -/
theorem at_moves {moves : List (QueueEvent τ ε)} (h : q.At policy stages)
    (hmoves : Along (PersistenceQueue.step policy) PersistenceQueue.Moves q moves) :
    ∃ stages', (runFrom (PersistenceQueue.step policy) q moves).At policy stages' ∧
      (stages'.map (EnqueueStage.rank policy)).sum + moves.length ≤
        (stages.map (EnqueueStage.rank policy)).sum := by
  induction moves generalizing q stages with
  | nil => exact ⟨stages, h, Nat.le_refl _⟩
  | cons event moves ih =>
    obtain ⟨k, stage, stage', hk, hnext, -, -, hat⟩ := at_move h hmoves.1
    obtain ⟨stages', hend, hle⟩ := ih hat hmoves.2
    refine ⟨stages', hend, ?_⟩
    have hlt := rank_lt_of_next hnext
    have hsum := sum_set_add stage' (EnqueueStage.rank policy) hk
    rw [List.length_cons]
    omega

/-- A promise of a call that has not settled has a job left, or is the one of a task that runs. -/
theorem reaction_left (policy : RetryPolicy) (k : Nat) (stage : EnqueueStage ε) :
    (stage.tailOutcome = none → EnqueueStage.tailReaction k ∈ stage.reactions k) ∧
    (stage.settledOutcome = none → EnqueueStage.settledReaction k ∈ stage.reactions k) ∧
    (stage.runOutcome policy k = none → EnqueueStage.runReaction k ∈ stage.reactions k ∨
      ∃ answers, stage = .running answers ∧
        EnqueueStage.runOutcomeAt (runWithRetry policy k 0 answers).2 = none) := by
  cases stage with
  | waiting =>
    refine ⟨fun _ => ?_, fun _ => ?_, fun _ => .inl List.mem_cons_self⟩
    · exact List.mem_cons_of_mem _ (List.mem_cons_of_mem _ List.mem_cons_self)
    · exact List.mem_cons_of_mem _ List.mem_cons_self
  | running answers =>
    refine ⟨fun _ => ?_, fun _ => List.mem_cons_self, fun hrun => .inr ⟨answers, rfl, hrun⟩⟩
    exact List.mem_cons_of_mem _ List.mem_cons_self
  | settled answers outcome =>
    exact ⟨fun _ => List.mem_cons_self, nofun, nofun⟩
  | released answers outcome =>
    exact ⟨nofun, nofun, nofun⟩

theorem awaited_of_running (h : q.At policy stages) {k : Nat} {answers : List (Outcome ε)}
    (hk : stages[k]? = some (.running answers))
    (hawaits : EnqueueStage.runOutcomeAt (runWithRetry policy k 0 answers).2 = none) :
    (q.awaited? k).isSome = true := by
  obtain ⟨task, hcall⟩ := h.calls k _ hk
  rw [PersistenceQueue.awaited?, hcall]
  dsimp only [EnqueueStage.position]
  cases hposition : (runWithRetry policy k 0 answers).2 with
  | attempting attempt | sleeping attempt => rfl
  | returned outcome =>
    rw [hposition] at hawaits
    cases hawaits

/-- A call that has not settled waits for a job that can run, or for a task or a delay. -/
theorem moves_of_unsettled (h : q.At policy stages) {call : Nat} (hcall : call < q.calls.length)
    (hopen : q.outcomeOf call = none) : ∃ event, q.Moves event := by
  have hk := List.getElem?_eq_getElem (h.length ▸ hcall)
  have hnone : q.heap.outcome (3 * call + 2) = none :=
    ((h.outcomes call _ hk).2.1).trans ((outcomeOf_eq h hk).symm.trans hopen)
  obtain ⟨p, hle, hp, ⟨r, o, hready⟩ | hfree⟩ := h.sound.job_or_free _ hnone
  · exact ⟨.job p, Option.isSome_of_eq_some hready⟩
  · -- The promise has no job left: it is the `run` of a call that awaits something.
    rcases Nat.eq_zero_or_pos p with rfl | hpos
    · exact absurd (h.first.symm.trans hp) (Option.some_ne_none _)
    · obtain ⟨j, hj, hblock⟩ : ∃ j, j < stages.length ∧
          (p = 3 * j + 1 ∨ p = 3 * j + 2 ∨ p = 3 * j + 3) := by
        have hlength := h.length
        exact ⟨(p - 1) / 3, by omega, by omega⟩
      have hstage := List.getElem?_eq_getElem hj
      obtain ⟨hrun, hsettled, htail⟩ := h.outcomes j _ hstage
      obtain ⟨htailLeft, hsettledLeft, hrunLeft⟩ := reaction_left policy j stages[j]
      have hleft : ∀ r ∈ stages[j].reactions j, r.target ≠ p := fun r hr =>
        hfree r ((h.reactions r).mpr ⟨j, _, hstage, hr⟩)
      rcases hblock with rfl | rfl | rfl
      · rcases hrunLeft (hrun.symm.trans hp) with hmem | ⟨answers, hrunning, hawaits⟩
        · exact absurd rfl (hleft _ hmem)
        · exact ⟨.answer j .fulfilled, awaited_of_running h (hrunning ▸ hstage) hawaits⟩
      · exact absurd rfl (hleft _ (hsettledLeft (hsettled.symm.trans hp)))
      · exact absurd rfl (hleft _ (htailLeft (htail.symm.trans hp)))

theorem rank_le (policy : RetryPolicy) (stage : EnqueueStage ε) :
    stage.rank policy ≤ 2 * policy.maxRetries + 4 := by
  cases stage with
  | waiting => exact Nat.le_refl _
  | running answers =>
    rw [EnqueueStage.rank]
    omega
  | settled answers outcome =>
    rw [EnqueueStage.rank]
    exact Nat.le_add_left_of_le (Nat.succ_pos 3)
  | released answers outcome => exact Nat.zero_le _

theorem rank_sum_le (policy : RetryPolicy) (stages : List (EnqueueStage ε)) :
    (stages.map (EnqueueStage.rank policy)).sum ≤ stages.length * (2 * policy.maxRetries + 4) := by
  induction stages with
  | nil => exact Nat.zero_le _
  | cons stage rest ih =>
    have hfirst := rank_le policy stage
    rw [List.map_cons, List.sum_cons, List.length_cons, Nat.succ_mul]
    omega

end

end PersistenceQueueLemmas

open PersistenceQueueLemmas

/-! ## Results -/

section
variable {τ ε : Type}

/-- One retry after 20 ms. -/
def oneRetry : RetryPolicy := ⟨1, 20, 500, by decide⟩

/-- The first task succeeds when it is retried, the second one fails twice. -/
def twoTasks : List (QueueEvent String String) :=
  [.enqueue "a", .enqueue "b",
    .job 1, .answer 0 (.rejected "x"), .answer 0 .fulfilled, .answer 0 .fulfilled, .job 2, .job 3,
    .job 4, .answer 1 (.rejected "y"), .answer 1 .fulfilled, .answer 1 (.rejected "y"), .job 5,
    .job 6]

/-- The tasks run one after the other, in the order of the calls of `enqueue` and whether the ones
before failed or not. Each does what the loop does with the answers to its own awaits; the promise of
its call settles with what the loop returns, and counts as pending until then. -/
theorem queue_serial (policy : RetryPolicy) (events : List (QueueEvent τ ε))
    (hrun : Along (PersistenceQueue.step policy) PersistenceQueue.Enabled .empty events) :
    let q := PersistenceQueue.after policy events
    let loop call := runWithRetry policy call 0 (events.flatMap (·.answerTo call))
    q.calls.map (·.task) = events.filterMap (·.task?) ∧
    q.observed = ((List.range q.calls.length).filter q.begun).flatMap (fun call => (loop call).1) ∧
    (∀ earlier call, earlier < call → q.begun call = true →
      (q.outcomeOf earlier).isSome = true) ∧
    (∀ call outcome, q.outcomeOf call = some outcome → (loop call).2 = .returned outcome) ∧
    q.pending = q.unsettled := by
  obtain ⟨stages, hat, hanswers⟩ := at_after hrun
  refine ⟨tasks_after events, observed_eq hat hanswers, ?_, ?_, pending_eq hat⟩
  · intro earlier call hlt hbegun
    obtain ⟨stage, hk, hne⟩ := (begun_iff hat).mp hbegun
    obtain ⟨answers, outcome, hreleased⟩ := released_before hat hk hne earlier hlt
    rw [outcomeOf_eq hat hreleased]
    rfl
  · intro call outcome houtcome
    obtain ⟨stage, hk, hsettled⟩ := stage_of_outcome hat houtcome
    have hproper := hat.proper call stage hk
    dsimp only
    rw [hanswers, hk, Option.getD_some]
    cases stage with
    | waiting | running answers => cases hsettled
    | settled answers o | released answers o =>
      obtain rfl := Option.some.inj hsettled
      exact hproper

theorem queue_serial_twoTasks :
    let q := PersistenceQueue.after oneRetry twoTasks
    let loop call := runWithRetry oneRetry call 0 (twoTasks.flatMap (·.answerTo call))
    Along (PersistenceQueue.step oneRetry) PersistenceQueue.Enabled .empty twoTasks ∧
    q.calls.map (·.task) = twoTasks.filterMap (·.task?) ∧
    q.observed = ((List.range q.calls.length).filter q.begun).flatMap (fun call => (loop call).1) ∧
    (∀ earlier call, earlier < call → q.begun call = true →
      (q.outcomeOf earlier).isSome = true) ∧
    (∀ call outcome, q.outcomeOf call = some outcome → (loop call).2 = .returned outcome) ∧
    q.pending = q.unsettled :=
  ⟨by decide, queue_serial oneRetry twoTasks (by decide)⟩

/-- A call that has settled has attempted its task until it succeeded, or until the retries were
used up, with the delays between, and settles like the last attempt; or a delay was rejected. -/
theorem queue_retries (policy : RetryPolicy) (events : List (QueueEvent τ ε))
    (hrun : Along (PersistenceQueue.step policy) PersistenceQueue.Enabled .empty events)
    (call : Nat) (outcome : Outcome ε)
    (hsettled : (PersistenceQueue.after policy events).outcomeOf call = some outcome) :
    let own := (PersistenceQueue.after policy events).observed.filter fun o => o.call == call
    ∃ errors : List ε, errors.length ≤ policy.maxRetries ∧
      (own = retriesFrom policy call 0 errors ++
          [.attempt call errors.length, .settled call outcome (errors.length + 1)] ∧
        retryAnswers errors ++ [outcome] <+: events.flatMap (·.answerTo call) ∧
        (outcome = .fulfilled ∨ errors.length = policy.maxRetries) ∨
      own = retriesFrom policy call 0 errors ∧
        ∃ earlier last error, errors = earlier ++ [last] ∧ outcome = .rejected error ∧
          retryAnswers earlier ++ [.rejected last, .rejected error] <+:
            events.flatMap (·.answerTo call)) := by
  obtain ⟨stages, hat, hanswers⟩ := at_after hrun
  obtain ⟨stage, hk, houtcome⟩ := stage_of_outcome hat hsettled
  have hproper := hat.proper call stage hk
  have hloop : stage.trace policy call = (runWithRetry policy call 0 stage.answers).1 ∧
      (runWithRetry policy call 0 stage.answers).2 = .returned outcome := by
    cases stage with
    | waiting | running answers => cases houtcome
    | settled answers o | released answers o => exact ⟨rfl, Option.some.inj houtcome ▸ hproper⟩
  dsimp only
  rw [own_of_trace hat hk, hloop.1, hanswers, hk, Option.getD_some]
  have hattempts := attempts_of_run policy call stage.answers outcome 0 (Nat.zero_le _) hloop.2
  simpa only [Nat.zero_add] using hattempts

theorem queue_retries_twoTasks :
    (PersistenceQueue.after oneRetry twoTasks).outcomeOf 1 = some (.rejected "y") ∧
    let own := (PersistenceQueue.after oneRetry twoTasks).observed.filter fun o => o.call == 1
    ∃ errors : List String, errors.length ≤ oneRetry.maxRetries ∧
      (own = retriesFrom oneRetry 1 0 errors ++
          [.attempt 1 errors.length, .settled 1 (.rejected "y") (errors.length + 1)] ∧
        retryAnswers errors ++ [.rejected "y"] <+: twoTasks.flatMap (·.answerTo 1) ∧
        (Outcome.rejected "y" = .fulfilled ∨ errors.length = oneRetry.maxRetries) ∨
      own = retriesFrom oneRetry 1 0 errors ∧
        ∃ earlier last error, errors = earlier ++ [last] ∧ Outcome.rejected "y" = .rejected error ∧
          retryAnswers earlier ++ [.rejected last, .rejected error] <+:
            twoTasks.flatMap (·.answerTo 1)) :=
  ⟨by decide, queue_retries oneRetry twoTasks (by decide) 1 (.rejected "y") (by decide)⟩

/-- A queue on which nothing is enqueued any more comes to rest, and then every call has settled. -/
theorem queue_moves_on (policy : RetryPolicy) (events moves : List (QueueEvent τ ε))
    (hrun : Along (PersistenceQueue.step policy) PersistenceQueue.Enabled .empty events)
    (hmoves : Along (PersistenceQueue.step policy) PersistenceQueue.Moves
      (PersistenceQueue.after policy events) moves) :
    let q := PersistenceQueue.after policy (events ++ moves)
    moves.length ≤
      (PersistenceQueue.after policy events).calls.length * (2 * policy.maxRetries + 4) ∧
    ((∃ event, q.Moves event) ∨
      q.pending = 0 ∧ ∀ call < q.calls.length, (q.outcomeOf call).isSome = true) := by
  obtain ⟨stages, hat, -⟩ := at_after hrun
  obtain ⟨stages', hend, hle⟩ := at_moves hat hmoves
  have hbound := rank_sum_le policy stages
  rw [PersistenceQueue.after, runFrom_append]
  refine ⟨?_, ?_⟩
  · rw [hat.length]
    omega
  · change PersistenceQueue.At policy (runFrom (PersistenceQueue.step policy)
      (runFrom (PersistenceQueue.step policy) .empty events) moves) stages' at hend
    generalize runFrom (PersistenceQueue.step policy)
      (runFrom (PersistenceQueue.step policy) .empty events) moves = q at hend
    rcases Classical.em (∃ event, q.Moves event) with hmove | hrest
    · exact .inl hmove
    · have hsettled : ∀ call < q.calls.length, (q.outcomeOf call).isSome = true := by
        intro call hcall
        cases houtcome : q.outcomeOf call with
        | some outcome => rfl
        | none => exact absurd (moves_of_unsettled hend hcall houtcome) hrest
      refine .inr ⟨?_, hsettled⟩
      rw [pending_eq hend, PersistenceQueue.unsettled, List.countP_eq_zero]
      intro c hc hnone
      obtain ⟨call, hcall, rfl⟩ := List.mem_iff_getElem.mp hc
      have hsome := hsettled call hcall
      rw [PersistenceQueue.outcomeOf, List.getElem?_eq_getElem hcall, Option.bind_some,
        Option.isSome_iff_ne_none] at hsome
      exact hsome (Option.isNone_iff_eq_none.mp hnone)

theorem queue_moves_on_twoTasks :
    let q := PersistenceQueue.after oneRetry (twoTasks.take 2 ++ twoTasks.drop 2)
    (twoTasks.drop 2).length ≤
      (PersistenceQueue.after oneRetry (twoTasks.take 2)).calls.length *
        (2 * oneRetry.maxRetries + 4) ∧
    ((∃ event, q.Moves event) ∨
      q.pending = 0 ∧ ∀ call < q.calls.length, (q.outcomeOf call).isSome = true) :=
  queue_moves_on oneRetry (twoTasks.take 2) (twoTasks.drop 2) (by decide) (by decide)

end

end BitRelay
