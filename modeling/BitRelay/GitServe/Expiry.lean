import BitRelay.GitServe.Steps

/-!
# What an inactive session holds

A session that is closed answers everything it holds, and the handlers turn away
whoever comes to a closed session. But a git request with a body is let in before
its body is read: when the session closes in between, the request is queued in a
session that nobody serves.

Results:
1. `emptyInactive_step_iff`: the steps after which an inactive session holds nothing.
2. `inactive_holds_nothing_iff`: the same for all states of a run.
-/

namespace BitRelay

namespace GitServe

/-- Nothing is in the queue and no poll waits. -/
def HoldsNothing (s : GitServe) : Prop :=
  s.state.pendingRequests = ∅ ∧ s.state.pollWaiters = []

def EmptyInactive (s : GitServe) : Prop := s.state.active = false → HoldsNothing s

/-- The body of a git request arrives only in an active session, and no saved state closes a
session that holds something. -/
def ArrivesActive (s : GitServe) : GitServeEvent → Prop
  | .bodyRead call _ => ∀ request bytes, s.reading.get? call = some request →
    request.isGit = true → request.bytes = some bytes → s.state.active = true
  | .restore saved _ => saved.active = true ∨ HoldsNothing s
  | _ => True

namespace ExpiryLemmas

variable {H : GitServeHost} {s s' : GitServe}

/-- The steps that only take away. -/
theorem emptyInactive_of_fewer (h : EmptyInactive s) (hactive : s'.state.active = s.state.active)
    (hpending : s.state.pendingRequests = ∅ → s'.state.pendingRequests = ∅)
    (hwaiters : s.state.pollWaiters = [] → s'.state.pollWaiters = []) : EmptyInactive s' := by
  intro hinactive
  obtain ⟨hnone, hnobody⟩ := h (hactive ▸ hinactive)
  exact ⟨hpending hnone, hwaiters hnobody⟩

theorem emptyInactive_of_state (h : EmptyInactive s) (hstate : s'.state = s.state) :
    EmptyInactive s' := by
  intro hinactive
  unfold HoldsNothing
  rw [hstate] at hinactive ⊢
  exact h hinactive

theorem emptyInactive_of_active (h : s.state.active = true) : EmptyInactive s := by
  intro hinactive
  rw [h] at hinactive
  cases hinactive

theorem erase_empty (requestId : String) :
    (∅ : OrdMap String PendingGitRequest).erase requestId = ∅ := rfl

theorem active_of_allowed {request : Request} (h : s.validateToken request = none) :
    s.state.active = true := by
  unfold validateToken at h
  split at h
  · cases h
  · next hactive => exact Bool.not_eq_false _ ▸ hactive

theorem drain_state (s : GitServe) :
    s.drainPendingToPollWaiters.state.active = s.state.active ∧
      s.drainPendingToPollWaiters.state.pendingRequests = s.state.pendingRequests := by
  unfold drainPendingToPollWaiters
  split
  · exact ⟨rfl, rfl⟩
  · split <;> exact ⟨rfl, rfl⟩

theorem queueGitRequest_active (call now : Nat) (request : Request) (gitPath : String)
    (bytes : Option Bytes) :
    (s.queueGitRequest H call now request gitPath bytes).state.active = s.state.active :=
  (drain_state _).1

/-- A request that was queued is in the queue. -/
theorem queueGitRequest_ne_empty (call now : Nat) (request : Request) (gitPath : String)
    (bytes : Option Bytes) :
    (s.queueGitRequest H call now request gitPath bytes).state.pendingRequests ≠ ∅ := by
  intro hempty
  have hkept : (s.queueGitRequest H call now request gitPath bytes).state.pendingRequests =
      (s.enqueue H call now request gitPath bytes).state.pendingRequests := (drain_state _).2
  have hget : (s.enqueue H call now request gitPath bytes).state.pendingRequests.get?
      (H.requestId call) = some (pendingGitRequest H call now request gitPath bytes s.nextTimer) :=
    OrdMap.get?_set_self _ _ _
  rw [← hkept, hempty] at hget
  cases hget

theorem closeWaiters_state (s : GitServe) (waiters : List PollWaiter) :
    (waiters.foldl closeWaiter s).state = s.state := by
  induction waiters generalizing s with
  | nil => rfl
  | cons w rest ih => exact ih (s.closeWaiter w)

theorem cleanup_emptyInactive (s : GitServe) : EmptyInactive s.cleanup := by
  intro _
  refine ⟨?_, rfl⟩
  rw [cleanup_eq]
  have hkept := closeWaiters_state s.closingRequests s.closingRequests.state.pollWaiters
  exact congrArg GitServeSessionState.pendingRequests hkept

theorem resetSessionTimer_state (s : GitServe) (now : Nat) :
    (s.resetSessionTimer H now).state = s.state := by
  unfold resetSessionTimer
  cases s.sessionTimer <;> rfl

theorem handleRegister_state (s : GitServe) (call now : Nat) :
    (s.handleRegister H call now).state = { s.state with
      sessionToken := H.sessionToken call, active := true, registeredAt := some now } :=
  resetSessionTimer_state (H := H) _ now

theorem restore_state (saved : PersistableSessionState) (now : Nat) :
    (s.restore H saved now).state = { s.state with
      active := saved.active, sessionToken := saved.sessionToken,
      registeredAt := saved.registeredAt } := by
  unfold restore
  simp only
  split
  · exact resetSessionTimer_state (H := H) _ now
  · rfl

end ExpiryLemmas

open ExpiryLemmas

/-! ## Steps and runs -/

section
variable {H : GitServeHost} {s : GitServe} {event : GitServeEvent}

theorem emptyInactive_step (h : EmptyInactive s) (harrives : ArrivesActive s event) :
    EmptyInactive (step H s event) := by
  have hsteps := stepsTo H s event
  generalize step H s event = s' at hsteps
  cases hsteps with
  | idle _ => exact h
  | registered _ =>
    refine emptyInactive_of_active ?_
    rw [handleRegister_state]
  | refused _ _ | told _ _ | handed _ _ _ | responding _ _ | inactive _ _ | uploading _ _ _ =>
    exact emptyInactive_of_state h rfl
  | parked _ hallowed _ => exact emptyInactive_of_active (active_of_allowed hallowed)
  | queued _ hactive _ =>
    refine emptyInactive_of_active ?_
    rw [queueGitRequest_active]
    exact hactive
  | uploaded hread hgit hbytes =>
    refine emptyInactive_of_active ?_
    rw [queueGitRequest_active]
    exact harrives _ _ hread hgit hbytes
  | unread _ _ _ | misdirected _ _ _ => exact emptyInactive_of_state h rfl
  | @resolved _ _ _ body pending _ _ _ _ _ _ | @rejected _ _ _ body pending _ _ _ _ _ =>
    refine emptyInactive_of_fewer h rfl (fun hnone => ?_) id
    change s.state.pendingRequests.erase body.requestId = ∅
    rw [hnone, erase_empty]
  | @requestTimedOut _ _ requestId _ _ =>
    refine emptyInactive_of_fewer h rfl (fun hnone => ?_) id
    change s.state.pendingRequests.erase requestId = ∅
    rw [hnone, erase_empty]
  | @pollTimedOut _ _ call _ =>
    refine emptyInactive_of_fewer h rfl id fun hnobody => ?_
    change s.state.pollWaiters.filter _ = []
    rw [hnobody]
    rfl
  | expired _ => exact cleanup_emptyInactive _
  | closed => exact cleanup_emptyInactive _
  | restored =>
    intro hinactive
    unfold HoldsNothing
    rw [restore_state] at hinactive ⊢
    rcases harrives with hactive | hnothing
    · rw [hactive] at hinactive
      cases hinactive
    · exact hnothing

/-- A body that arrives in a closed session leaves its request there. -/
theorem arrivesActive_of_step (hnext : EmptyInactive (step H s event)) :
    ArrivesActive s event := by
  cases event with
  | bodyRead call now =>
    intro request bytes hread hgit hbytes
    obtain ⟨gitPath, hpath⟩ := Option.isSome_iff_exists.mp hgit
    have hstep : step H s (.bodyRead call now) = (s.received call).queueGitRequest H call now
        request.request gitPath (some bytes) := by
      unfold step bodyRead
      simp only [hread, hpath, hbytes]
      rfl
    rw [hstep] at hnext
    by_contra hinactive
    rw [Bool.not_eq_true] at hinactive
    refine queueGitRequest_ne_empty (H := H) (s := s.received call) call now request.request
      gitPath (some bytes) (hnext ?_).1
    rw [queueGitRequest_active]
    exact hinactive
  | restore saved now =>
    cases hactive : saved.active with
    | true => exact .inl hactive
    | false =>
      refine .inr ?_
      change EmptyInactive (s.restore H saved now) at hnext
      unfold EmptyInactive HoldsNothing at hnext
      rw [restore_state] at hnext
      exact hnext hactive
  | fetch _ _ | timer _ | cleanup => trivial

theorem emptyInactive_step_iff (h : EmptyInactive s) :
    EmptyInactive (step H s event) ↔ ArrivesActive s event :=
  ⟨arrivesActive_of_step, emptyInactive_step h⟩

end

/-- In all states of a run an inactive session holds nothing, if and only if every body of a git
request arrives in an active session. -/
theorem inactive_holds_nothing_iff (H : GitServeHost) (events : List GitServeEvent) :
    (∀ before, before <+: events →
      (after H before).state.active = false → HoldsNothing (after H before)) ↔
      Along (step H) ArrivesActive init events :=
  prefixes_iff_along (P := EmptyInactive) (fun _ _ => emptyInactive_step_iff) fun _ => ⟨rfl, rfl⟩

/-- A push is let in, the session is closed, and then the body of the push arrives. -/
def lateUpload : List GitServeEvent := [
  .fetch ⟨.post "/register" [] [] ⟨"", none⟩, none⟩ 0,
  .fetch ⟨.post "/git/git-receive-pack" [] [] ⟨"", none⟩, some []⟩ 1,
  .cleanup,
  .bodyRead 1 2]

/-- The push waits in the queue of an inactive session, unanswered. -/
theorem late_upload_waits :
    (after toyHost lateUpload).state.active = false ∧
      ¬ HoldsNothing (after toyHost lateUpload) ∧
      (after toyHost lateUpload).answers.get? 1 = none := by
  unfold HoldsNothing
  decide

end GitServe

end BitRelay
