import BitRelay.InFlight

/-!
# Concurrent replay protection

With requests in flight the nonce check and the recording of the nonce are two
steps, with the payload hash and the verification between them. Two requests
under one sender and nonce may both get past the check before either records it.
That is the only way: as long as no two such requests wait for their
verification at the same time, a nonce passes once.

Results:
1. `passed_nodup`: no sender and nonce passes twice, in any interleaving in
   which no two verifiable requests with one sender and nonce wait together.
2. `overlapping_replay`: two that wait together both pass, and both take effect.
-/

namespace BitRelay

section
variable {C : Type} (R : Relay C)

/-! ## Definitions -/

/-- What a nonce may be used for once. -/
def SignedRequest.key (x : SignedRequest) : String × String := (x.sender, x.nonce)

/-- The signed request that a phase waits for, when it verifies. -/
def Phase.verifiable : Phase → Option SignedRequest
  | publishVerify _ _ (some pending) => if pending.verifies R then some pending.signed else none
  | reviewVerify _ pending => if pending.verifies R then some pending.signed else none
  | rotateVerify pending => if pending.verifies R then some pending.signed else none
  | _ => none

/-- No two verifiable requests with one sender and nonce wait together. -/
def NoOverlap (sys : InFlight C) : Prop :=
  ∀ a ∈ sys.tasks.entries, ∀ b ∈ sys.tasks.entries, a.1 ≠ b.1 →
    ∀ x ∈ a.2.phase.verifiable R, ∀ y ∈ b.2.phase.verifiable R, x.key ≠ y.key

instance (sys : InFlight C) : Decidable (NoOverlap R sys) :=
  inferInstanceAs (Decidable (∀ a ∈ sys.tasks.entries, ∀ b ∈ sys.tasks.entries, a.1 ≠ b.1 →
    ∀ x ∈ a.2.phase.verifiable R, ∀ y ∈ b.2.phase.verifiable R, x.key ≠ y.key))

/-- No recorded nonce is lost, to expiry or to the cap. -/
def KeepsNonces (N N' : NoncesBySender) : Prop :=
  ∀ e ∈ N.entries, ∀ nonce ∈ e.2.keys, (N'.recorded? e.1 nonce).isSome = true

instance (N N' : NoncesBySender) : Decidable (KeepsNonces N N') :=
  inferInstanceAs (Decidable (∀ e ∈ N.entries, ∀ nonce ∈ e.2.keys, _))

/-- The step loses no nonce, and no two verifiable requests with one sender and nonce wait
together before it. -/
def ConcurrentCondition (sys : InFlight C) (event : InFlightEvent) : Prop :=
  KeepsNonces sys.service.noncesBySender (sys.step R event).service.noncesBySender ∧
    NoOverlap R sys

instance (sys : InFlight C) (event : InFlightEvent) : Decidable (ConcurrentCondition R sys event) :=
  inferInstanceAs (Decidable (_ ∧ _))

/-! ## The invariant -/

structure ConcurrentInvariant (sys : InFlight C) : Prop where
  nodup : (sys.passed.map SignedRequest.key).Nodup
  recorded : ∀ x ∈ sys.passed,
    (sys.service.noncesBySender.recorded? x.sender x.nonce).isSome = true
  waiting : ∀ e ∈ sys.tasks.entries, ∀ x ∈ e.2.phase.verifiable R,
    sys.service.noncesBySender.recorded? x.sender x.nonce = none

variable {R}

namespace ConcurrentReplayLemmas

theorem recorded_of_keeps {N N' : NoncesBySender} (h : KeepsNonces N N') {sender nonce : String}
    (hrec : (N.recorded? sender nonce).isSome = true) :
    (N'.recorded? sender nonce).isSome = true := by
  unfold NoncesBySender.recorded? OrdMap.getD at hrec
  cases hs : N.get? sender with
  | none =>
    rw [hs] at hrec
    cases hrec
  | some nonces =>
    rw [hs, Option.getD_some] at hrec
    exact h _ (OrdMap.get?_eq_some_iff.mp hs) nonce (OrdMap.has_iff_mem_keys.mp hrec)

theorem awaiting_of_verifiable {phase : Phase} {x : SignedRequest}
    (h : phase.verifiable R = some x) : phase.awaiting = some x := by
  cases phase with
  | publishVerify input payload pending =>
    cases pending with
    | none => cases h
    | some pending =>
      simp only [Phase.verifiable, Option.ite_none_right_eq_some] at h
      exact h.2
  | reviewVerify input pending =>
    simp only [Phase.verifiable, Option.ite_none_right_eq_some] at h
    exact h.2
  | rotateVerify pending =>
    simp only [Phase.verifiable, Option.ite_none_right_eq_some] at h
    exact h.2
  | publishBody | publishReturn | publishPersist | rotateBody | gitHubBody | gitHubKeys => cases h

/-- A verification that ends well was verifiable. -/
theorem verifiable_of_resume_ok {phase : Phase} {request : Request} {env : Env}
    {s s' : ServiceState C} {progress : Progress} {x : SignedRequest}
    (h : (phase.resume R request env).run s = (.ok progress, s'))
    (hx : phase.awaiting = some x) : phase.verifiable R = some x := by
  cases phase with
  | publishVerify input payload pending =>
    cases pending with
    | none => cases hx
    | some pending =>
      obtain ⟨_, s1, h1, -⟩ := Proc.bind_ok h
      cases hx
      exact if_pos (finishSignature_ok h1).1
  | reviewVerify input pending =>
    obtain ⟨_, s1, h1, -⟩ := Proc.bind_ok h
    cases hx
    exact if_pos (finishSignature_ok h1).1
  | rotateVerify pending =>
    obtain ⟨_, s1, h1, -⟩ := Proc.bind_ok h
    obtain ⟨hold, hnew, -⟩ := rotateCommit_ok h1
    cases hx
    refine if_pos ?_
    unfold PendingRotate.verifies
    rw [hold, hnew]
    rfl
  | publishBody | publishReturn | publishPersist | rotateBody | gitHubBody | gitHubKeys => cases hx

theorem unrecorded_of_pruned {N : NoncesBySender} {now : Int} {s : ServiceState C}
    (h : PrunedFrom R N now s) {sender nonce : String} (hnone : N.recorded? sender nonce = none) :
    s.noncesBySender.recorded? sender nonce = none := by
  rcases h with h | ⟨other, h⟩
  · rw [h]
    exact hnone
  · rw [h]
    cases hrec : (pruneSenderNonces R.config.noncePolicy N other now).recorded? sender nonce with
    | none => rfl
    | some ts =>
      rw [recorded?_of_prune hrec] at hnone
      cases hnone

/-- What comes to wait for its verification is not recorded. -/
theorem unrecorded_of_checked {N : NoncesBySender} {now : Int} {phase : Phase}
    {s : ServiceState C} (h : Checked R N now (.inr phase) s) :
    ∀ x ∈ phase.verifiable R, s.noncesBySender.recorded? x.sender x.nonce = none := by
  intro x hx
  have hfresh := h.fresh (awaiting_of_verifiable hx)
  rw [hfresh.pruned]
  exact recorded?_eq_none_of_unknown hfresh.unknown

end ConcurrentReplayLemmas

open ConcurrentReplayLemmas

/-! ## One step -/

section Step
variable {sys : InFlight C} (hI : ConcurrentInvariant R sys)
include hI

/-- A step that ends no verification well: it records nothing, and what it brings to wait is
not recorded. -/
theorem ConcurrentInvariant.checked {service : ServiceState C} {tasks : OrdMap Nat Task} {next : Nat}
    (hkeeps : KeepsNonces sys.service.noncesBySender service.noncesBySender)
    (hnew : ∀ sender nonce, sys.service.noncesBySender.recorded? sender nonce = none →
      service.noncesBySender.recorded? sender nonce = none)
    (htasks : ∀ e ∈ tasks.entries, e ∈ sys.tasks.entries ∨ ∀ x ∈ e.2.phase.verifiable R,
      service.noncesBySender.recorded? x.sender x.nonce = none) :
    ConcurrentInvariant R { sys with service, tasks, next } := by
  refine ⟨hI.nodup, fun x hx => recorded_of_keeps hkeeps (hI.recorded x hx), fun e he x hx => ?_⟩
  rcases htasks e he with hold | hwaits
  · exact hnew _ _ (hI.waiting e hold x hx)
  · exact hwaits x hx

/-- A verification that ends well: its nonce was not recorded, and no other request waits for
it. -/
theorem ConcurrentInvariant.passed {service : ServiceState C} {tasks : OrdMap Nat Task} {id : Nat}
    {task : Task} {x : SignedRequest} {nowSec : Int}
    (hkeeps : KeepsNonces sys.service.noncesBySender service.noncesBySender)
    (hoverlap : NoOverlap R sys) (htask : (id, task) ∈ sys.tasks.entries)
    (hx : task.phase.verifiable R = some x)
    (hrecorded : service.noncesBySender = rememberNonce R.config.noncePolicy
      sys.service.noncesBySender x.sender x.nonce x.ts nowSec)
    (htasks : ∀ e ∈ tasks.entries, (e.1 ≠ id ∧ e ∈ sys.tasks.entries) ∨
      e.2.phase.awaiting = none) :
    ConcurrentInvariant R { sys with service, tasks, passed := sys.passed ++ [x] } := by
  have hunknown := hI.waiting _ htask x hx
  refine ⟨?_, fun y hy => ?_, fun e he y hy => ?_⟩
  · rw [List.map_append, List.nodup_append]
    refine ⟨hI.nodup, List.nodup_singleton _, ?_⟩
    intro a ha b hb hab
    obtain ⟨y, hy, rfl⟩ := List.mem_map.mp ha
    rw [List.map_singleton, List.mem_singleton] at hb
    -- An earlier request with this key would have its nonce recorded.
    have hkey : y.key = x.key := hab.trans hb
    simp only [SignedRequest.key, Prod.mk.injEq] at hkey
    have hrec := hI.recorded y hy
    rw [hkey.1, hkey.2, hunknown] at hrec
    cases hrec
  · rcases List.mem_append.mp hy with hold | hnew
    · exact recorded_of_keeps hkeeps (hI.recorded y hold)
    · rw [List.mem_singleton.mp hnew]
      change (service.noncesBySender.recorded? x.sender x.nonce).isSome = true
      rw [hrecorded, recorded?_rememberNonce_self (unknown_of_unrecorded hunknown)]
      rfl
  · rcases htasks e he with ⟨hne, hold⟩ | hnone
    · cases hrec : service.noncesBySender.recorded? y.sender y.nonce with
      | none => rfl
      | some ts =>
        rw [hrecorded] at hrec
        rcases recorded?_of_remember hrec with ⟨hsender, hnonce⟩ | hrec
        · refine absurd ?_ (hoverlap e hold (id, task) htask hne y hy x hx)
          simp only [SignedRequest.key, hsender, hnonce]
        · rw [hI.waiting e hold y hy] at hrec
          cases hrec
    · rw [awaiting_of_verifiable hy] at hnone
      cases hnone

theorem ConcurrentInvariant.arrive {request : Request} {env : Env}
    (hkeeps : KeepsNonces sys.service.noncesBySender
      (sys.arrive R request env).service.noncesBySender) :
    ConcurrentInvariant R (sys.arrive R request env) := by
  obtain ⟨hok, herror⟩ := triple_start (R := R) request env sys.service rfl
  unfold InFlight.arrive at hkeeps ⊢
  match hrun : (start R request env).run sys.service with
  | (.ok (.inr phase), service) =>
    rw [hrun] at hkeeps
    have hchecked := hok _ service hrun
    refine hI.checked hkeeps (fun _ _ h => unrecorded_of_pruned hchecked.pruned h) ?_
    intro e he
    rcases OrdMap.mem_entries_set.mp he with rfl | ⟨-, hold⟩
    · exact .inr (unrecorded_of_checked hchecked)
    · exact .inl hold
  | (.ok (.inl response), service) =>
    rw [hrun] at hkeeps
    exact hI.checked hkeeps
      (fun _ _ h => unrecorded_of_pruned (hok _ service hrun).pruned h) fun _ he => .inl he
  | (.error response, service) =>
    rw [hrun] at hkeeps
    exact hI.checked hkeeps
      (fun _ _ h => unrecorded_of_pruned (herror _ service hrun) h) fun _ he => .inl he

/-- A step of a request that waits for no verification. -/
theorem ConcurrentInvariant.resume {id : Nat} {task : Task} {env : Env} (hnone : task.phase.awaiting = none)
    (hkeeps : KeepsNonces sys.service.noncesBySender
      (sys.resumeTask R id task env).service.noncesBySender) :
    ConcurrentInvariant R (sys.resumeTask R id task env) := by
  obtain ⟨hok, herror⟩ := triple_resume (R := R) task.request env hnone sys.service rfl
  unfold InFlight.resumeTask at hkeeps ⊢
  rw [hnone, Option.toList_none, List.append_nil] at hkeeps ⊢
  match hrun : (task.phase.resume R task.request env).run sys.service with
  | (.ok (.inr phase), service) =>
    rw [hrun] at hkeeps
    have hchecked := hok _ service hrun
    refine hI.checked hkeeps (fun _ _ h => unrecorded_of_pruned hchecked.pruned h) ?_
    intro e he
    rcases OrdMap.mem_entries_set.mp he with rfl | ⟨-, hold⟩
    · exact .inr (unrecorded_of_checked hchecked)
    · exact .inl hold
  | (.ok (.inl response), service) =>
    rw [hrun] at hkeeps
    exact hI.checked hkeeps
      (fun _ _ h => unrecorded_of_pruned (hok _ service hrun).pruned h)
      fun _ he => .inl (OrdMap.mem_entries_erase.mp he).2
  | (.error response, service) =>
    rw [hrun] at hkeeps
    exact hI.checked hkeeps
      (fun _ _ h => unrecorded_of_pruned (herror _ service hrun) h)
      fun _ he => .inl (OrdMap.mem_entries_erase.mp he).2

/-- The step that ends a verification. -/
theorem ConcurrentInvariant.resume_awaiting {id : Nat} {task : Task} {env : Env} {x : SignedRequest}
    (hoverlap : NoOverlap R sys) (htask : (id, task) ∈ sys.tasks.entries)
    (hx : task.phase.awaiting = some x)
    (hkeeps : KeepsNonces sys.service.noncesBySender
      (sys.resumeTask R id task env).service.noncesBySender) :
    ConcurrentInvariant R (sys.resumeTask R id task env) := by
  obtain ⟨nowSec, h⟩ := triple_resume_awaiting (R := R) task.request
    (N := sys.service.noncesBySender) env hx
  obtain ⟨hok, herror⟩ := h sys.service rfl
  unfold InFlight.resumeTask at hkeeps ⊢
  rw [hx, Option.toList_some] at hkeeps ⊢
  match hrun : (task.phase.resume R task.request env).run sys.service with
  | (.ok (.inr phase), service) =>
    rw [hrun] at hkeeps
    obtain ⟨hnone, hrecorded⟩ := hok _ service hrun
    refine hI.passed hkeeps hoverlap htask (verifiable_of_resume_ok hrun hx) hrecorded ?_
    intro e he
    rcases OrdMap.mem_entries_set.mp he with rfl | hold
    · exact .inr hnone
    · exact .inl hold
  | (.ok (.inl response), service) =>
    rw [hrun] at hkeeps
    obtain ⟨-, hrecorded⟩ := hok _ service hrun
    exact hI.passed hkeeps hoverlap htask (verifiable_of_resume_ok hrun hx) hrecorded
      fun _ he => .inl (OrdMap.mem_entries_erase.mp he)
  | (.error response, service) =>
    rw [hrun] at hkeeps
    refine hI.checked hkeeps (fun _ _ h => ?_)
      fun _ he => .inl (OrdMap.mem_entries_erase.mp he).2
    rw [herror _ service hrun]
    exact h

theorem ConcurrentInvariant.step {event : InFlightEvent} (h : ConcurrentCondition R sys event) :
    ConcurrentInvariant R (sys.step R event) := by
  obtain ⟨hkeeps, hoverlap⟩ := h
  cases event with
  | arrive request env => exact hI.arrive hkeeps
  | resume id env =>
    simp only [InFlight.step] at hkeeps ⊢
    cases htask : sys.tasks.get? id with
    | none => exact hI
    | some task =>
      simp only [htask] at hkeeps
      cases hx : task.phase.awaiting with
      | none => exact hI.resume hx hkeeps
      | some x =>
        exact hI.resume_awaiting hoverlap (OrdMap.get?_eq_some_iff.mp htask) hx hkeeps

end Step

/-! ## All runs -/

/-- In any interleaving that loses no nonce, and in which no two verifiable requests with one
sender and nonce wait together, each sender and nonce passes at most once. -/
theorem passed_nodup (cache : C) (events : List InFlightEvent)
    (hrun : Along (InFlight.step R) (ConcurrentCondition R) (.init cache) events) :
    ((runFrom (InFlight.step R) (.init cache) events).passed.map SignedRequest.key).Nodup := by
  have hinit : ConcurrentInvariant R (InFlight.init cache) :=
    ⟨List.nodup_nil, fun _ h => absurd h List.not_mem_nil, fun _ h => absurd h List.not_mem_nil⟩
  exact (hrun.invariant (fun _ _ hcond hI => hI.step hcond) hinit).nodup

end

/-! ## On the toy host -/

/-- A publish by `alice` at second 1000. -/
def publishOf (id nonce : String) : Request :=
  .post "/api/v1/publish" [("sender", "alice"), ("id", id)] (toyHeaders "k1" "1000" nonce)
    ⟨"null", some .null⟩

/-- Two publishes in lockstep: they arrive, read their bodies, verify, and write. -/
def lockstep (nonce nonce' : String) : List InFlightEvent :=
  [.arrive (publishOf "m1" nonce) (.at 1000000), .arrive (publishOf "m2" nonce') (.at 1000000)] ++
    (List.replicate 3 [.resume 0 (.at 1000000), .resume 1 (.at 1000000)]).flatten

/-- Two publishes in flight under different nonces. -/
theorem passed_nodup_lockstep :
    ((runFrom (InFlight.step (.toy .default)) (.init ()) (lockstep "n1" "n2")).passed.map
      SignedRequest.key).Nodup :=
  passed_nodup () (lockstep "n1" "n2") (by decide)

/-- Under one nonce both pass, and both messages are in the room log, although no nonce was
lost. -/
theorem overlapping_replay :
    Along (InFlight.step (.toy .default)) (fun sys event =>
      KeepsNonces sys.service.noncesBySender (sys.step (.toy .default) event).service.noncesBySender)
      (.init ()) (lockstep "n1" "n1") ∧
    ¬ ((runFrom (InFlight.step (.toy .default)) (.init ()) (lockstep "n1" "n1")).passed.map
      SignedRequest.key).Nodup ∧
    (((runFrom (InFlight.step (.toy .default)) (.init ()) (lockstep "n1" "n1")).service.roomOf
      "main").messages.map Envelope.id) = ["m1", "m2"] := by
  decide

end BitRelay
