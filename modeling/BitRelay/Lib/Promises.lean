import Mathlib.Data.List.Basic

/-!
# Promises

A promise is derived from another one with `then`, `catch` or `finally`. When its source has
settled, a job runs the handler or passes the outcome on. The jobs of promises that are ready may
run in any order, which covers the order of the microtask queue.

Results:
1. `Heap.ready_iff`: a job can run when its source has settled.
2. `Heap.Sound.derive`, `Heap.Sound.settle`, `Heap.Sound.consume`: a promise that has a job left has
   not settled.
3. `Heap.Sound.job_or_free`: behind a promise that has not settled, there is a job that can run, or
   a promise that no job will settle.
-/

namespace Promises

/-! ## The heap -/

inductive Outcome (ε : Type)
  | fulfilled
  | rejected (reason : ε)
  deriving DecidableEq

/-- `then`, `catch` and `finally`, by what they wait for. -/
inductive Derivation
  | onFulfilled
  | onRejected
  | onSettled
  deriving DecidableEq

/-- The handler is called for the outcome. -/
def Derivation.handles {ε : Type} : Derivation → Outcome ε → Bool
  | onFulfilled, .fulfilled => true
  | onFulfilled, .rejected _ => false
  | onRejected, .fulfilled => false
  | onRejected, .rejected _ => true
  | onSettled, _ => true

/-- The job of the derived promise `target`. -/
structure Reaction (η : Type) where
  source : Nat
  derivation : Derivation
  handler : η
  target : Nat
  deriving DecidableEq

/-- The promises `0, …, size - 1` and the jobs that have not run. -/
structure Heap (ε η : Type) where
  size : Nat
  outcome : Nat → Option (Outcome ε)
  reactions : List (Reaction η)

variable {ε η : Type}

namespace Heap

/-- A heap with one promise, which is fulfilled. -/
def resolved : Heap ε η where
  size := 1
  outcome p := if p = 0 then some .fulfilled else none
  reactions := []

/-- A promise derived from `source`; it is the promise `heap.size`. -/
def derive (source : Nat) (derivation : Derivation) (handler : η) (heap : Heap ε η) : Heap ε η where
  size := heap.size + 1
  outcome := heap.outcome
  reactions := heap.reactions ++ [⟨source, derivation, handler, heap.size⟩]

def settle (p : Nat) (o : Outcome ε) (heap : Heap ε η) : Heap ε η :=
  { heap with outcome := Function.update heap.outcome p (some o) }

/-- The job of `target` has run. -/
def consume (target : Nat) (heap : Heap ε η) : Heap ε η :=
  { heap with reactions := heap.reactions.filter fun r => r.target ≠ target }

/-- The job of `target` with the outcome of its source, when it can run. -/
def ready? (target : Nat) (heap : Heap ε η) : Option (Reaction η × Outcome ε) :=
  (heap.reactions.find? fun r => r.target = target).bind fun r =>
    (heap.outcome r.source).map fun o => (r, o)

/-- A derived promise is younger than its source, has one job, and settles after its job. -/
structure Sound (heap : Heap ε η) : Prop where
  older : ∀ r ∈ heap.reactions, r.source < r.target
  known : ∀ r ∈ heap.reactions, r.target < heap.size
  waits : ∀ r ∈ heap.reactions, heap.outcome r.target = none
  once : ∀ r ∈ heap.reactions, ∀ r' ∈ heap.reactions, r.target = r'.target → r = r'

variable {heap : Heap ε η} {source target p : Nat} {derivation : Derivation} {handler : η}
  {o : Outcome ε} {r : Reaction η}

/-! ## Operations -/

theorem mem_derive : r ∈ (heap.derive source derivation handler).reactions ↔
    r ∈ heap.reactions ∨ r = ⟨source, derivation, handler, heap.size⟩ := by
  show r ∈ heap.reactions ++ [_] ↔ _
  rw [List.mem_append, List.mem_singleton]

theorem mem_consume : r ∈ (heap.consume target).reactions ↔
    r ∈ heap.reactions ∧ r.target ≠ target := by
  show r ∈ heap.reactions.filter _ ↔ _
  rw [List.mem_filter, decide_eq_true_eq]

theorem outcome_settle_self : (heap.settle p o).outcome p = some o := Function.update_self _ _ _

theorem outcome_settle_of_ne {q : Nat} (h : q ≠ p) :
    (heap.settle p o).outcome q = heap.outcome q := Function.update_of_ne h _ _

/-- What makes a job ready. -/
theorem ready_iff (h : heap.Sound) : heap.ready? target = some (r, o) ↔
    r ∈ heap.reactions ∧ r.target = target ∧ heap.outcome r.source = some o := by
  unfold ready?
  constructor
  · intro hready
    obtain ⟨found, hfind, hmap⟩ := Option.bind_eq_some_iff.mp hready
    obtain ⟨o', houtcome, heq⟩ := Option.map_eq_some_iff.mp hmap
    cases heq
    exact ⟨List.mem_of_find?_eq_some hfind, by simpa using List.find?_some hfind, houtcome⟩
  · rintro ⟨hmem, rfl, houtcome⟩
    cases hfind : heap.reactions.find? fun r' => r'.target = r.target with
    | none => exact absurd (decide_eq_true rfl) (List.find?_eq_none.mp hfind r hmem)
    | some found =>
      have htarget : found.target = r.target := by simpa using List.find?_some hfind
      obtain rfl := h.once found (List.mem_of_find?_eq_some hfind) r hmem htarget
      rw [Option.bind_some, houtcome]
      rfl

/-! ## Soundness -/

theorem Sound.resolved : (resolved : Heap ε η).Sound where
  older _ hr := absurd hr List.not_mem_nil
  known _ hr := absurd hr List.not_mem_nil
  waits _ hr := absurd hr List.not_mem_nil
  once _ hr := absurd hr List.not_mem_nil

theorem Sound.derive (h : heap.Sound) (hsource : source < heap.size)
    (hfresh : heap.outcome heap.size = none) :
    (heap.derive source derivation handler).Sound where
  older r hr := by
    rcases mem_derive.mp hr with hold | rfl
    · exact h.older r hold
    · exact hsource
  known r hr := by
    rcases mem_derive.mp hr with hold | rfl
    · exact Nat.lt_succ_of_lt (h.known r hold)
    · exact Nat.lt_succ_self heap.size
  waits r hr := by
    rcases mem_derive.mp hr with hold | rfl
    · exact h.waits r hold
    · exact hfresh
  once r hr r' hr' htarget := by
    rcases mem_derive.mp hr with hold | rfl
    · rcases mem_derive.mp hr' with hold' | rfl
      · exact h.once r hold r' hold' htarget
      · exact absurd htarget (Nat.ne_of_lt (h.known r hold))
    · rcases mem_derive.mp hr' with hold' | rfl
      · exact absurd htarget.symm (Nat.ne_of_lt (h.known r' hold'))
      · rfl

theorem Sound.consume (h : heap.Sound) (target : Nat) : (heap.consume target).Sound where
  older r hr := h.older r (mem_consume.mp hr).1
  known r hr := h.known r (mem_consume.mp hr).1
  waits r hr := h.waits r (mem_consume.mp hr).1
  once r hr r' hr' := h.once r (mem_consume.mp hr).1 r' (mem_consume.mp hr').1

/-- A promise settles when no job is left for it. -/
theorem Sound.settle (h : heap.Sound) (hfree : ∀ r ∈ heap.reactions, r.target ≠ p)
    (o : Outcome ε) : (heap.settle p o).Sound where
  older := h.older
  known := h.known
  waits r hr := by rw [outcome_settle_of_ne (hfree r hr), h.waits r hr]
  once := h.once

/-- A job that passes an outcome on. -/
theorem Sound.pass (h : heap.Sound) (target : Nat) (o : Outcome ε) :
    ((heap.consume target).settle target o).Sound :=
  (h.consume target).settle (fun _ hr => (mem_consume.mp hr).2) o

/-! ## Progress -/

/-- A promise that has not settled waits for a job that can run, or for one without a job. -/
theorem Sound.job_or_free (h : heap.Sound) (p : Nat) (hp : heap.outcome p = none) :
    ∃ q ≤ p, heap.outcome q = none ∧
      ((∃ r o, heap.ready? q = some (r, o)) ∨ ∀ r ∈ heap.reactions, r.target ≠ q) := by
  induction p using Nat.strongRecOn with
  | _ p ih =>
    rcases Classical.em (∃ r ∈ heap.reactions, r.target = p) with ⟨r, hr, rfl⟩ | hfree
    · cases hsource : heap.outcome r.source with
      | some o => exact ⟨_, Nat.le_refl _, hp, .inl ⟨r, o, (ready_iff h).mpr ⟨hr, rfl, hsource⟩⟩⟩
      | none =>
        -- The source is older, and has not settled either.
        have hlt := h.older r hr
        obtain ⟨q, hle, hq⟩ := ih r.source hlt hsource
        exact ⟨q, Nat.le_trans hle (Nat.le_of_lt hlt), hq⟩
    · exact ⟨p, Nat.le_refl p, hp, .inr fun r hr htarget => hfree ⟨r, hr, htarget⟩⟩

end Heap

end Promises
