import BitRelay.GitServe.Answers
import BitRelay.GitServe.Expiry

/-!
# No wakeup is lost

A poll waits while the queue is empty; a request that arrives wakes the poll that
waits longest, with everything that is queued then. The request stays in the queue
until it is answered, so polls and requests do wait side by side, but each of those
requests went out with an answer to a poll.

Results:
1. `waking_step`: a step keeps the invariant `Waking`.
2. `delivered_while_waiting`: while a poll waits, every queued request was delivered.
-/

namespace BitRelay

namespace GitServe

/-- The request is in the answer to a poll. -/
def Delivered (r : ServeRun) (p : PendingGitRequest) : Prop :=
  ∃ call requests, r.Routed GitServeRequest.isPoll call ∧
    r.session.answers.get? call = some (.json (formatPollResponse requests)) ∧ p ∈ requests

/-- The polls that wait are different calls with open promises, and leave nothing undelivered. -/
structure Waking (r : ServeRun) : Prop where
  unanswered : ∀ w ∈ r.session.state.pollWaiters, r.session.answers.get? w.call = none
  distinct : (r.session.state.pollWaiters.map PollWaiter.call).Nodup
  delivered : r.session.state.pollWaiters ≠ [] →
    ∀ p ∈ r.session.state.pendingRequests.values, Delivered r p

namespace WakingLemmas

variable {H : GitServeHost} {s s' : GitServe} {r : ServeRun} {event : GitServeEvent}

/-- No poll is parked, no poll that waits is answered, and nothing is queued. -/
structure Lessens (s s' : GitServe) : Prop where
  waiters : s'.state.pollWaiters.Sublist s.state.pollWaiters
  unanswered : ∀ w ∈ s'.state.pollWaiters, s.answers.get? w.call = none →
    s'.answers.get? w.call = none
  pending : ∀ p ∈ s'.state.pendingRequests.values, p ∈ s.state.pendingRequests.values

theorem lessens_of_eq (hwaiters : s'.state.pollWaiters = s.state.pollWaiters)
    (hpending : s'.state.pendingRequests = s.state.pendingRequests)
    (hanswers : s'.answers = s.answers) : Lessens s s' := by
  refine ⟨?_, fun w _ hopen => ?_, fun p hp => ?_⟩
  · rw [hwaiters]
  · rw [hanswers]
    exact hopen
  · rw [hpending] at hp
    exact hp

theorem Lessens.trans {s'' : GitServe} (h : Lessens s s') (h' : Lessens s' s'') :
    Lessens s s'' where
  waiters := h'.waiters.trans h.waiters
  unanswered w hw hopen := h'.unanswered w hw (h.unanswered w (h'.waiters.subset hw) hopen)
  pending p hp := h.pending p (h'.pending p hp)

/-- The answer to a call that is no parked poll. -/
theorem Lessens.settle (h : Lessens s s') {call : Nat} (answer : GitAnswer)
    (hne : ∀ w ∈ s.state.pollWaiters, w.call ≠ call) : Lessens s (s'.settle call answer) := by
  refine ⟨h.waiters, fun w hw hopen => ?_, h.pending⟩
  rw [AnswerLemmas.answer_settle_of_ne (hne w (h.waiters.subset hw))]
  exact h.unanswered w hw hopen

theorem lessens_erase (hwaiters : s'.state.pollWaiters = s.state.pollWaiters) {requestId : String}
    (hpending : s'.state.pendingRequests = s.state.pendingRequests.erase requestId)
    (hanswers : s'.answers = s.answers) : Lessens s s' := by
  refine ⟨?_, fun w _ hopen => ?_, fun p hp => ?_⟩
  · rw [hwaiters]
  · rw [hanswers]
    exact hopen
  · rw [hpending] at hp
    obtain ⟨e, he, rfl⟩ := List.mem_map.mp hp
    exact List.mem_map.mpr ⟨e, (OrdMap.mem_entries_erase.mp he).2, rfl⟩

theorem lessens_cleanup (s : GitServe) : Lessens s s.cleanup := by
  have hnothing := ExpiryLemmas.cleanup_emptyInactive s rfl
  refine ⟨?_, fun w hw => (List.not_mem_nil hw).elim, fun p hp => ?_⟩
  · rw [hnothing.2]
    exact List.nil_sublist _
  · rw [hnothing.1] at hp
    cases hp

theorem routed_step {route : GitServeRequest → Bool} {call : Nat} (h : r.Routed route call) :
    (r.step H event).Routed route call := by
  cases event with
  | fetch request now => exact RoleLemmas.routed_calling_of h request none
  | bodyRead _ _ | timer _ | cleanup | restore _ _ => exact h

theorem delivered_step {p : PendingGitRequest} (h : Delivered r p) :
    Delivered (r.step H event) p := by
  obtain ⟨call, requests, hpoll, hanswer, hp⟩ := h
  refine ⟨call, requests, routed_step hpoll, ?_, hp⟩
  rw [ServeRun.session_step]
  exact keeping_step H r.session event call _ hanswer

theorem waking_lessens (h : Waking r) (hless : Lessens r.session (step H r.session event)) :
    Waking (r.step H event) := by
  rw [← ServeRun.session_step] at hless
  refine ⟨fun w hw => ?_, ?_, fun hsome p hp => ?_⟩
  · exact hless.unanswered w hw (h.unanswered w (hless.waiters.subset hw))
  · exact (hless.waiters.map PollWaiter.call).nodup h.distinct
  · refine delivered_step (h.delivered ?_ p (hless.pending p hp))
    intro hnobody
    have hsub := hless.waiters
    rw [hnobody] at hsub
    exact hsome (List.sublist_nil.mp hsub)

/-- A poll is parked only when the queue is empty. -/
theorem waking_parked (hsound : Sound H r.session) (h : Waking r) {due : Nat}
    (hempty : r.session.state.pendingRequests.size = 0)
    (hnext : (r.step H event).session = r.session.numbered.parking r.session.nextCall due) :
    Waking (r.step H event) := by
  have hwaiters : (r.step H event).session.state.pollWaiters =
      r.session.state.pollWaiters ++ [⟨r.session.nextCall, r.session.nextTimer⟩] := by
    rw [hnext]
    rfl
  have hanswers : (r.step H event).session.answers = r.session.answers := by
    rw [hnext]
    rfl
  refine ⟨fun w hw => ?_, ?_, fun _ p hp => ?_⟩
  · rw [hanswers]
    rw [hwaiters] at hw
    rcases List.mem_append.mp hw with hw | hw
    · exact h.unanswered w hw
    · rw [List.mem_singleton.mp hw]
      exact (SoundLemmas.fresh_nextCall hsound).unanswered
  · rw [hwaiters, List.map_append, List.nodup_append]
    refine ⟨h.distinct, List.nodup_singleton _, fun call hcall call' hcall' heq => ?_⟩
    obtain ⟨w, hw, rfl⟩ := List.mem_map.mp hcall
    have hlast : call' = r.session.nextCall := List.mem_singleton.mp hcall'
    exact (hsound.waiters w hw).2.1.ne (heq.trans hlast)
  · have hnone : r.session.state.pendingRequests.values = [] := by
      rw [OrdMap.values, List.length_eq_zero_iff.mp hempty]
      rfl
    rw [hnext] at hp
    change p ∈ r.session.state.pendingRequests.values at hp
    rw [hnone] at hp
    cases hp

/-- A request that is queued wakes one poll, which gets the whole queue. -/
theorem waking_queueGitRequest (hroles : Roles r) (h : Waking r) {s₀ : GitServe}
    {call now : Nat} {request : Request} {gitPath : String} {bytes : Option Bytes}
    (hstate : s₀.state = r.session.state) (hanswers : s₀.answers = r.session.answers)
    (hnext : (r.step H event).session = s₀.queueGitRequest H call now request gitPath bytes) :
    Waking (r.step H event) := by
  generalize hqueue : s₀.enqueue H call now request gitPath bytes = queue at *
  have hdrain : (r.step H event).session = queue.drainPendingToPollWaiters := by
    rw [hnext, ← hqueue]
    rfl
  have hparked : queue.state.pollWaiters = r.session.state.pollWaiters := by
    rw [← hqueue, ← hstate]
    rfl
  have hopen : queue.answers = r.session.answers := by
    rw [← hqueue, ← hanswers]
    rfl
  have hsome : queue.state.pendingRequests.size ≠ 0 := by
    intro hzero
    have hget : queue.state.pendingRequests.get? (H.requestId call) =
        some (pendingGitRequest H call now request gitPath bytes s₀.nextTimer) := by
      rw [← hqueue]
      exact OrdMap.get?_set_self _ _ _
    have hmem := OrdMap.get?_eq_some_iff.mp hget
    rw [List.length_eq_zero_iff.mp hzero] at hmem
    cases hmem
  unfold drainPendingToPollWaiters at hdrain
  cases hwaiters : r.session.state.pollWaiters with
  | nil =>
    simp only [hparked, hwaiters] at hdrain
    have hnobody : (r.step H event).session.state.pollWaiters = [] := by
      rw [hdrain, hparked, hwaiters]
    refine ⟨fun w hw => ?_, ?_, fun hsome => absurd hnobody hsome⟩
    · rw [hnobody] at hw
      cases hw
    · rw [hnobody]
      exact List.nodup_nil
  | cons w rest =>
    simp only [hparked, hwaiters, if_neg hsome] at hdrain
    have hdistinct := h.distinct
    rw [hwaiters, List.map_cons, List.nodup_cons] at hdistinct
    refine ⟨fun v hv => ?_, ?_, fun _ p hp => ?_⟩
    · rw [hdrain] at hv ⊢
      change v ∈ rest at hv
      have hne : v.call ≠ w.call := by
        intro heq
        exact hdistinct.1 (heq ▸ List.mem_map_of_mem hv)
      rw [AnswerLemmas.answer_settle_of_ne hne]
      change queue.answers.get? v.call = none
      rw [hopen]
      exact h.unanswered v (hwaiters ▸ List.mem_cons_of_mem w hv)
    · rw [hdrain]
      exact hdistinct.2
    · rw [hdrain] at hp
      refine ⟨w.call, queue.state.pendingRequests.values,
        routed_step (hroles.waiters w (hwaiters ▸ List.mem_cons_self)), ?_, hp⟩
      rw [hdrain]
      refine AnswerLemmas.answer_settle_self ?_
      change queue.answers.get? w.call = none
      rw [hopen]
      exact h.unanswered w (hwaiters ▸ List.mem_cons_self)

/-- The git request that an event puts in the queue, with the body that goes with it. -/
def Queues (s : GitServe) (call : Nat) (request : GitServeRequest) (bytes : Option Bytes) :
    GitServeEvent → Prop
  | .fetch request' _ => request' = request ∧ call = s.nextCall ∧ request.request.method ≠ "POST" ∧
      bytes = none
  | .bodyRead call' _ => call' = call ∧ s.reading.get? call = some request ∧ bytes = request.bytes
  | _ => False

open ExpiryLemmas in
/-- A step parks a poll while nothing is queued, or queues a request, or it makes nothing of the
two. -/
theorem lessens_stepsTo (hsound : Sound H s) (hsteps : StepsTo H s event s') :
    Lessens s s' ∨
      (∃ due, s.state.pendingRequests.size = 0 ∧ s' = s.numbered.parking s.nextCall due) ∨
      ∃ (s₀ : GitServe) (call now : Nat) (request : GitServeRequest) (gitPath : String)
          (bytes : Option Bytes), s₀.state = s.state ∧ s₀.answers = s.answers ∧
        Queues s call request bytes event ∧
        gitPath? request.request.pathname = some gitPath ∧
        s' = s₀.queueGitRequest H call now request.request gitPath bytes := by
  -- a new call, and a call that awaited its body, is no parked poll
  have hnew : ∀ w ∈ s.state.pollWaiters, w.call ≠ s.nextCall :=
    fun w hw => (hsound.waiters w hw).2.1.ne
  have hread : ∀ {call request}, s.reading.get? call = some request →
      ∀ w ∈ s.state.pollWaiters, w.call ≠ call := by
    rintro call request hread w hw rfl
    rw [(hsound.waiters w hw).2.2.1] at hread
    cases hread
  have hqueued : ∀ {call}, call ∈ s.queued → ∀ w ∈ s.state.pollWaiters, w.call ≠ call := by
    rintro call hcall w hw rfl
    exact (hsound.waiters w hw).1 hcall
  have hsame : ∀ {s₀ : GitServe}, s₀.state = s.state → s₀.answers = s.answers → Lessens s s₀ :=
    fun hstate hanswers => lessens_of_eq (by rw [hstate]) (by rw [hstate]) hanswers
  cases hsteps with
  | idle _ | responding _ _ | uploading _ _ _ => exact .inl (hsame rfl rfl)
  | registered _ =>
    refine .inl (Lessens.settle (lessens_of_eq ?_ ?_ ?_) _ hnew)
    · rw [resetSessionTimer_state]
      rfl
    · rw [resetSessionTimer_state]
      rfl
    · rw [AnswerLemmas.resetSessionTimer_answers]
      rfl
  | refused _ _ | told _ _ | handed _ _ _ | inactive _ _ =>
    refine .inl (Lessens.settle ?_ _ hnew)
    exact hsame rfl rfl
  | parked _ _ hempty => exact .inr (.inl ⟨_, hempty, rfl⟩)
  | queued _ _ hmethod hpath =>
    exact .inr (.inr ⟨s.numbered, _, _, _, _, _, rfl, rfl, ⟨rfl, rfl, hmethod, rfl⟩, hpath, rfl⟩)
  | uploaded hget _ hbytes hpath =>
    exact .inr (.inr ⟨s.received _, _, _, _, _, _, rfl, rfl, ⟨rfl, hget, hbytes.symm⟩, hpath, rfl⟩)
  | unread hget _ _ | misdirected hget _ _ =>
    refine .inl (Lessens.settle ?_ _ (hread hget))
    exact hsame rfl rfl
  | resolved hget _ hto _ =>
    obtain ⟨_, _, _, _, -, -, -, -, rfl, hpending⟩ := respondTo_cases hto
    refine .inl (Lessens.settle (Lessens.settle ?_ _ ?_) _ (hread hget))
    · exact lessens_erase rfl rfl rfl
    · exact hqueued (hsound.pending _ _ hpending).2.1
  | rejected hget _ _ _ =>
    refine .inl (Lessens.settle ?_ _ (hread hget))
    exact lessens_erase rfl rfl rfl
  | requestTimedOut hget =>
    refine .inl (Lessens.settle ?_ _ (hqueued (hsound.timers _ _ hget).2.2))
    exact lessens_erase rfl rfl rfl
  | pollTimedOut _ =>
    refine .inl ⟨List.filter_sublist, fun w hw hopen => ?_, fun _ hp => hp⟩
    rw [AnswerLemmas.answer_settle_of_ne (of_decide_eq_true (List.mem_filter.mp hw).2)]
    exact hopen
  | expired _ =>
    refine .inl (Lessens.trans ?_ (lessens_cleanup _))
    exact hsame rfl rfl
  | closed => exact .inl (lessens_cleanup _)
  | restored =>
    refine .inl (lessens_of_eq ?_ ?_ (AnswerLemmas.restore_answers _ _))
    · rw [restore_state]
    · rw [restore_state]

end WakingLemmas

open WakingLemmas ExpiryLemmas

/-- The invariant is kept: a step answers or parks, or it queues a request and wakes a poll. -/
theorem waking_step {H : GitServeHost} {r : ServeRun} (hroles : Roles r) (hsound : Sound H r.session)
    (h : Waking r) (event : GitServeEvent) : Waking (r.step H event) := by
  have hsession : (r.step H event).session = step H r.session event := ServeRun.session_step H r event
  rcases lessens_stepsTo hsound (stepsTo H r.session event) with hless | ⟨due, hempty, hnext⟩ |
    ⟨s₀, call, now, request, gitPath, bytes, hstate, hanswers, -, -, hnext⟩
  · exact waking_lessens h hless
  · exact waking_parked hsound h hempty (hsession.trans hnext)
  · exact waking_queueGitRequest hroles h hstate hanswers (hsession.trans hnext)

theorem waking_after (H : GitServeHost) (events : List GitServeEvent) :
    Waking (ServeRun.after H events) := by
  induction events using List.reverseRecOn with
  | nil => exact ⟨nofun, List.nodup_nil, fun hsome => absurd rfl hsome⟩
  | append_singleton events event ih =>
    rw [ServeRun.after_concat]
    exact waking_step (roles_after H events) (sound_session H events) ih event

/-- In every state of every run in which a poll waits, each queued request was in the answer to a
poll. -/
theorem delivered_while_waiting (H : GitServeHost) (events : List GitServeEvent) :
    let run := ServeRun.after H events
    run.session.state.pollWaiters ≠ [] →
      ∀ p ∈ run.session.state.pendingRequests.values, Delivered run p :=
  (waking_after H events).delivered

/-- Two polls wait when a clone asks for the refs: one of them is woken. -/
def twoPolls : List GitServeEvent := [
  .fetch ⟨.post "/register" [] [] ⟨"", none⟩, none⟩ 0,
  .fetch ⟨.get "/poll" [("session_token", "r")], none⟩ 1,
  .fetch ⟨.get "/poll" [("session_token", "r")], none⟩ 2,
  .fetch ⟨.get "/git/info/refs" [("service", "git-upload-pack")], none⟩ 3]

theorem delivered_while_second_waits :
    ∃ p, (ServeRun.after toyHost twoPolls).session.state.pendingRequests.values = [p] ∧
      Delivered (ServeRun.after toyHost twoPolls) p :=
  ⟨pendingGitRequest toyHost 3 3 (.get "/git/info/refs" [("service", "git-upload-pack")])
    "/info/refs" none 3, by decide, delivered_while_waiting toyHost twoPolls (by decide) _
    (by decide)⟩

end GitServe

end BitRelay
