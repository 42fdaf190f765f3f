import BitRelay.GitServe.Wakeups

/-!
# What waits in the queue

An entry of the queue is made of the request of its call: the method and the path that the serve
side sees, the body, and the refs that are read from it.

Results:
1. `queueSound_step`: a step keeps this.
2. `queued_as_requested`: it holds in every run.
-/

namespace BitRelay

namespace GitServe

/-- The entry is made of the request of its call. -/
def QueuedAs (H : GitServeHost) (r : ServeRun) (p : PendingGitRequest) : Prop :=
  ∃ request gitPath now timeoutId, r.calls[p.call]? = some request ∧
    gitPath? request.request.pathname = some gitPath ∧
    p = pendingGitRequest H p.call now request.request gitPath
      (if request.request.method = "POST" then request.bytes else none) timeoutId

/-- What is in the queue, and which requests await their body. -/
structure QueueSound (H : GitServeHost) (r : ServeRun) : Prop where
  pending : ∀ p ∈ r.session.state.pendingRequests.values, QueuedAs H r p
  reading : ∀ call request, r.session.reading.get? call = some request →
    request.request.method = "POST"

namespace QueueLemmas

variable {H : GitServeHost} {s s' : GitServe} {r : ServeRun} {event : GitServeEvent}

/-- A call awaits its body because it has one. -/
theorem reading_stepsTo (hsteps : StepsTo H s event s') {call : Nat} {request : GitServeRequest}
    (h : s'.reading.get? call = some request) :
    s.reading.get? call = some request ∨ request.request.method = "POST" := by
  have hawaiting : ∀ {request' : GitServeRequest}, request'.request.method = "POST" →
      (s.reading.set s.nextCall request').get? call = some request →
      s.reading.get? call = some request ∨ request.request.method = "POST" := by
    intro request' hmethod hget
    rw [OrdMap.get?_set] at hget
    split at hget
    · cases hget
      exact .inr hmethod
    · exact .inl hget
  cases hsteps with
  | idle _ | parked _ _ _ => exact .inl h
  | registered _ => exact .inl ((RoleLemmas.narrows_handleRegister s.numbered _ _).reading _ _ h)
  | refused _ _ | told _ _ | handed _ _ _ | inactive _ _ => exact .inl h
  | responding hrespond _ =>
    simp only [GitServeRequest.isRespond, Bool.and_eq_true, beq_iff_eq] at hrespond
    exact hawaiting hrespond.2 h
  | uploading _ _ hmethod => exact hawaiting hmethod h
  | queued _ _ _ _ =>
    exact .inl ((RoleLemmas.narrows_drain (s.numbered.enqueue H _ _ _ _ _)).reading _ _ h)
  | @uploaded call' _ _ _ _ _ _ _ _ =>
    have hreceived := (RoleLemmas.narrows_drain ((s.received call').enqueue H _ _ _ _ _)).reading _ _ h
    exact .inl ((RoleLemmas.narrows_received s call').reading _ _ hreceived)
  | unread _ _ _ | misdirected _ _ _ | resolved _ _ _ _ | rejected _ _ _ _ =>
    exact .inl ((RoleLemmas.narrows_received s _).reading _ _ h)
  | requestTimedOut _ | pollTimedOut _ => exact .inl h
  | expired _ => exact .inl ((RoleLemmas.narrows_cleanup (s.clearTimeout _)).reading _ _ h)
  | closed => exact .inl ((RoleLemmas.narrows_cleanup s).reading _ _ h)
  | restored => exact .inl ((RoleLemmas.narrows_restore s _ _).reading _ _ h)

theorem getElem?_calls_step {call : Nat} {request : GitServeRequest}
    (h : r.calls[call]? = some request) : (r.step H event).calls[call]? = some request := by
  cases event with
  | fetch request' now => exact RoleLemmas.getElem?_calls_of_some h
  | bodyRead _ _ | timer _ | cleanup | restore _ _ => exact h

theorem queuedAs_step {p : PendingGitRequest} (h : QueuedAs H r p) :
    QueuedAs H (r.step H event) p := by
  obtain ⟨request, gitPath, now, timeoutId, hcall, hentry⟩ := h
  exact ⟨request, gitPath, now, timeoutId, getElem?_calls_step hcall, hentry⟩

/-- The queue behind a request that is queued: what was there, and its entry. -/
theorem mem_queueGitRequest {call now : Nat} {request : Request} {gitPath : String}
    {bytes : Option Bytes} {p : PendingGitRequest}
    (h : p ∈ (s.queueGitRequest H call now request gitPath bytes).state.pendingRequests.values) :
    p ∈ s.state.pendingRequests.values ∨
      p = pendingGitRequest H call now request gitPath bytes s.nextTimer := by
  have hdrain : (s.queueGitRequest H call now request gitPath bytes).state.pendingRequests =
      s.state.pendingRequests.set (H.requestId call)
        (pendingGitRequest H call now request gitPath bytes s.nextTimer) := by
    unfold queueGitRequest drainPendingToPollWaiters
    split
    · rfl
    · split <;> rfl
  rw [hdrain] at h
  obtain ⟨e, he, rfl⟩ := List.mem_map.mp h
  rcases OrdMap.mem_entries_set.mp he with hnew | ⟨-, hold⟩
  · exact .inr (congrArg Prod.snd hnew)
  · exact .inl (List.mem_map_of_mem hold)

end QueueLemmas

open QueueLemmas

theorem queueSound_step {H : GitServeHost} {r : ServeRun} (hroles : Roles r)
    (hsound : Sound H r.session) (h : QueueSound H r) (event : GitServeEvent) :
    QueueSound H (r.step H event) := by
  have hsteps := stepsTo H r.session event
  have hsession := ServeRun.session_step H r event
  refine ⟨fun p hp => ?_, fun call request hget => ?_⟩
  · rw [hsession] at hp
    rcases WakingLemmas.lessens_stepsTo hsound hsteps with hless | ⟨due, -, hnext⟩ |
      ⟨s₀, call, now, request, gitPath, bytes, hstate, -, hqueues, hpath, hnext⟩
    · exact queuedAs_step (h.pending p (hless.pending p hp))
    · rw [hnext] at hp
      exact queuedAs_step (h.pending p hp)
    · rw [hnext] at hp
      rcases mem_queueGitRequest hp with hold | rfl
      · rw [hstate] at hold
        exact queuedAs_step (h.pending p hold)
      · cases event with
        | fetch request' now' =>
          obtain ⟨rfl, rfl, hmethod, rfl⟩ := hqueues
          refine ⟨request', gitPath, now, s₀.nextTimer, ?_, hpath, ?_⟩
          · change (r.calls ++ [request'])[r.session.nextCall]? = some request'
            rw [hroles.count]
            exact RoleLemmas.getElem?_calls
          · rw [if_neg hmethod]
            rfl
        | bodyRead call' now' =>
          obtain ⟨rfl, hread, rfl⟩ := hqueues
          refine ⟨request, gitPath, now, s₀.nextTimer, (hroles.reading _ _ hread).1, hpath, ?_⟩
          rw [if_pos (h.reading _ _ hread)]
          rfl
        | timer id => exact hqueues.elim
        | cleanup => exact hqueues.elim
        | restore saved now' => exact hqueues.elim
  · rw [hsession] at hget
    rcases reading_stepsTo hsteps hget with hold | hmethod
    · exact h.reading call request hold
    · exact hmethod

/-- In every run the queue is made of the requests of its calls. -/
theorem queued_as_requested (H : GitServeHost) (events : List GitServeEvent) :
    QueueSound H (ServeRun.after H events) := by
  induction events using List.reverseRecOn with
  | nil => exact ⟨nofun, nofun⟩
  | append_singleton events event ih =>
    rw [ServeRun.after_concat]
    exact queueSound_step (roles_after H events) (sound_session H events) ih event

end GitServe

end BitRelay
