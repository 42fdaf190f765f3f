import BitRelay.GitServe.Steps

/-!
# Whose answer a git request gets

Three things race for the promise of a git request: a respond that names it, its
own timeout, and the closing of the session. Whichever settles it, the answer is
its own: it is built for this request, and no answer replaces another.

Results:
1. `own_answer_step`: what answers a git request in one step.
2. `respond_resolves_step`: a respond that reports success answers one git request.
3. `git_answers_own`: both, at every step of every run.
-/

namespace BitRelay

namespace GitServe

/-- The event closes the session: a cleanup, or the timer of the session. -/
def Closes (s : GitServe) : GitServeEvent → Prop
  | .cleanup => True
  | .timer id => ∃ due, s.timers.get? id = some ⟨due, .closeSession⟩
  | _ => False

/-- The ways in which a git request may be answered at an event. -/
inductive OwnAnswer (H : GitServeHost) (s : GitServe) (event : GitServeEvent) (call : Nat) :
    GitAnswer → Prop
  /-- a respond named this request while it was in the queue -/
  | responded {body : RespondBody} {pending : PendingGitRequest} {response : RawResponse}
      (hto : respondTo s event = some (body, pending))
      (hnamed : body.requestId = H.requestId call) (hpending : pending.call = call)
      (hbuilt : respondResponse H pending body = some response) :
    OwnAnswer H s event call (.raw response)
  | timedOut {id due : Nat} (hevent : event = .timer id)
      (hown : s.timers.get? id = some ⟨due, .requestTimeout (H.requestId call) call⟩) :
    OwnAnswer H s event call (.json (toErrorResponse "request timeout" 504))
  | closed {pending : PendingGitRequest} (hcloses : Closes s event)
      (hqueued : s.state.pendingRequests.get? (H.requestId call) = some pending)
      (hpending : pending.call = call) :
    OwnAnswer H s event call (.json (toErrorResponse "session closed" 410))
  | inactive {request : GitServeRequest} {now : Nat} (hevent : event = .fetch request now)
      (hcall : call = s.nextCall) (hinactive : s.state.active = false) :
    OwnAnswer H s event call (.json (toErrorResponse "session not active" 404))

/-- The body of the call could not be read: its promise is rejected. -/
def Unread (s : GitServe) (event : GitServeEvent) (call : Nat) : Prop :=
  ∃ now request, event = .bodyRead call now ∧ s.reading.get? call = some request ∧
    request.bytes = none

/-! ## What a handler answers -/

namespace AnswerLemmas

variable {H : GitServeHost} {s : GitServe} {r : ServeRun} {call : Nat} {answer : GitAnswer}

theorem answer_settle {call' : Nat} {answer' : GitAnswer}
    (h : (s.settle call' answer').answers.get? call = some answer) :
    s.answers.get? call = some answer ∨ (call = call' ∧ answer = answer') := by
  change (s.answers.setNew call' answer').get? call = some answer at h
  rw [OrdMap.get?_setNew] at h
  split at h
  · next heq =>
    subst heq
    cases hold : s.answers.get? call with
    | none =>
      rw [hold] at h
      cases h
      exact .inr ⟨rfl, rfl⟩
    | some old =>
      rw [hold] at h
      exact .inl h
  · exact .inl h

theorem answer_settle_of_ne {call' : Nat} (h : call ≠ call') (answer' : GitAnswer) :
    (s.settle call' answer').answers.get? call = s.answers.get? call := by
  change (s.answers.setNew call' answer').get? call = s.answers.get? call
  rw [OrdMap.get?_setNew, if_neg h]

theorem answer_settle_self (h : s.answers.get? call = none) :
    (s.settle call answer).answers.get? call = some answer := by
  change (s.answers.setNew call answer).get? call = some answer
  rw [OrdMap.get?_setNew, if_pos rfl, h]
  rfl

/-- Requests that wait are handed to the first poll that does. -/
theorem answer_drain (h : s.drainPendingToPollWaiters.answers.get? call = some answer) :
    s.answers.get? call = some answer ∨
      ∃ w rest, s.state.pollWaiters = w :: rest ∧ call = w.call ∧
        answer = .json (formatPollResponse s.state.pendingRequests.values) := by
  unfold drainPendingToPollWaiters at h
  split at h
  · exact .inl h
  · next w rest hwaiters =>
    split at h
    · exact .inl h
    · rcases answer_settle h with hold | ⟨hcall, hanswer⟩
      · exact .inl hold
      · exact .inr ⟨w, rest, hwaiters, hcall, hanswer⟩

theorem answer_queueGitRequest {call' now : Nat} {request : Request} {gitPath : String}
    {bytes : Option Bytes}
    (h : (s.queueGitRequest H call' now request gitPath bytes).answers.get? call = some answer) :
    s.answers.get? call = some answer ∨
      ∃ w rest, s.state.pollWaiters = w :: rest ∧ call = w.call ∧
        answer = .json (formatPollResponse
          (s.enqueue H call' now request gitPath bytes).state.pendingRequests.values) :=
  answer_drain h

/-- A request that is queued wakes the first poll that waits, with all that is queued. -/
theorem queueGitRequest_wakes (call' now : Nat) (request : Request) (gitPath : String)
    (bytes : Option Bytes) {w : PollWaiter} {rest : List PollWaiter}
    (hwaiters : s.state.pollWaiters = w :: rest) (hopen : s.answers.get? w.call = none) :
    ∃ requests, requests ≠ [] ∧
      (s.queueGitRequest H call' now request gitPath bytes).answers.get? w.call =
        some (.json (formatPollResponse requests)) := by
  have hget : (s.enqueue H call' now request gitPath bytes).state.pendingRequests.get?
      (H.requestId call') = some (pendingGitRequest H call' now request gitPath bytes s.nextTimer) :=
    OrdMap.get?_set_self _ _ _
  have hmem := OrdMap.get?_eq_some_iff.mp hget
  refine ⟨(s.enqueue H call' now request gitPath bytes).state.pendingRequests.values,
    List.ne_nil_of_mem (List.mem_map_of_mem hmem), ?_⟩
  have hparked : (s.enqueue H call' now request gitPath bytes).state.pollWaiters = w :: rest :=
    hwaiters
  have hsome : (s.enqueue H call' now request gitPath bytes).state.pendingRequests.size ≠ 0 := by
    intro hzero
    rw [List.length_eq_zero_iff.mp hzero] at hmem
    cases hmem
  unfold queueGitRequest drainPendingToPollWaiters
  simp only [hparked, if_neg hsome]
  exact answer_settle_self hopen

theorem answer_closeRequests {pending : List PendingGitRequest}
    (h : (pending.foldl closeRequest s).answers.get? call = some answer) :
    s.answers.get? call = some answer ∨
      ∃ p ∈ pending, call = p.call ∧ answer = .json (toErrorResponse "session closed" 410) := by
  induction pending generalizing s with
  | nil => exact .inl h
  | cons p rest ih =>
    rcases ih h with hold | ⟨q, hq, hclosed⟩
    · rcases answer_settle hold with hold | hclosed
      · exact .inl hold
      · exact .inr ⟨p, List.mem_cons_self, hclosed⟩
    · exact .inr ⟨q, List.mem_cons_of_mem p hq, hclosed⟩

theorem answer_closeWaiters {waiters : List PollWaiter}
    (h : (waiters.foldl closeWaiter s).answers.get? call = some answer) :
    s.answers.get? call = some answer ∨
      ∃ w ∈ waiters, call = w.call ∧ answer = .json (formatPollResponse []) := by
  induction waiters generalizing s with
  | nil => exact .inl h
  | cons w rest ih =>
    rcases ih h with hold | ⟨v, hv, hclosed⟩
    · rcases answer_settle hold with hold | hclosed
      · exact .inl hold
      · exact .inr ⟨w, List.mem_cons_self, hclosed⟩
    · exact .inr ⟨v, List.mem_cons_of_mem w hv, hclosed⟩

theorem clearSessionTimer_parts (s : GitServe) :
    s.clearSessionTimer.state = s.state ∧ s.clearSessionTimer.answers = s.answers := by
  unfold clearSessionTimer
  cases s.sessionTimer <;> exact ⟨rfl, rfl⟩

/-- A cleanup answers the requests in the queue and the polls that wait, and nobody else. -/
theorem answer_cleanup (h : s.cleanup.answers.get? call = some answer) :
    s.answers.get? call = some answer ∨
      (∃ p ∈ s.state.pendingRequests.values, call = p.call ∧
        answer = .json (toErrorResponse "session closed" 410)) ∨
      ∃ w ∈ s.state.pollWaiters, call = w.call ∧ answer = .json (formatPollResponse []) := by
  obtain ⟨hstate, hanswers⟩ := clearSessionTimer_parts s
  have hclosed : s.closingRequests.state.pollWaiters = s.state.pollWaiters := by
    have hkept := (SoundLemmas.closeRequests_state s.clearSessionTimer
      s.clearSessionTimer.state.pendingRequests.values).1
    exact (congrArg GitServeSessionState.pollWaiters hkept).trans
      (congrArg GitServeSessionState.pollWaiters hstate)
  have hfirst : s.closingRequests.closingWaiters.answers.get? call = some answer := h
  rcases answer_closeWaiters hfirst with hold | hwaiter
  · rcases answer_closeRequests hold with hold | hrequest
    · exact .inl (hanswers ▸ hold)
    · exact .inr (.inl (hstate ▸ hrequest))
  · exact .inr (.inr (hclosed ▸ hwaiter))

theorem resetSessionTimer_answers (now : Nat) :
    (s.resetSessionTimer H now).answers = s.answers := by
  unfold resetSessionTimer
  cases s.sessionTimer <;> rfl

theorem answer_handleRegister {call' now : Nat}
    (h : (s.handleRegister H call' now).answers.get? call = some answer) :
    s.answers.get? call = some answer ∨ (call = call' ∧ answer = .json ⟨200, .obj [
      ("ok", .bool true), ("session_token", .str (H.sessionToken call'))]⟩) := by
  unfold handleRegister at h
  rcases answer_settle h with hold | hown
  · rw [resetSessionTimer_answers] at hold
    exact .inl hold
  · exact .inr hown

theorem restore_answers (saved : PersistableSessionState) (now : Nat) :
    (s.restore H saved now).answers = s.answers := by
  unfold restore
  simp only
  split
  · exact resetSessionTimer_answers now
  · rfl

/-! ## Answers that stay -/

/-- No promise is settled a second time. -/
def Keeping (s s' : GitServe) : Prop :=
  ∀ call answer, s.answers.get? call = some answer → s'.answers.get? call = some answer

theorem Keeping.trans {s' s'' : GitServe} (h : Keeping s s') (h' : Keeping s' s'') :
    Keeping s s'' := fun call answer hanswer => h' call answer (h call answer hanswer)

theorem keeping_of_eq {s' : GitServe} (h : s'.answers = s.answers) : Keeping s s' := by
  intro call answer hanswer
  rw [h]
  exact hanswer

theorem keeping_settle (s : GitServe) (call : Nat) (answer : GitAnswer) :
    Keeping s (s.settle call answer) := by
  intro call' answer' hold
  change (s.answers.setNew call answer).get? call' = some answer'
  rw [OrdMap.get?_setNew]
  split
  · next heq =>
    rw [← heq, hold]
    rfl
  · exact hold

theorem keeping_drain (s : GitServe) : Keeping s s.drainPendingToPollWaiters := by
  unfold drainPendingToPollWaiters
  split
  · exact keeping_of_eq rfl
  · split
    · exact keeping_of_eq rfl
    · refine Keeping.trans ?_ (keeping_settle _ _ _)
      exact keeping_of_eq rfl

theorem keeping_cleanup (s : GitServe) : Keeping s s.cleanup := by
  have hrequests : ∀ (pending : List PendingGitRequest) (s : GitServe),
      Keeping s (pending.foldl closeRequest s) := by
    intro pending
    induction pending with
    | nil => exact fun s => keeping_of_eq rfl
    | cons p rest ih =>
      intro s
      refine Keeping.trans (Keeping.trans ?_ (keeping_settle _ _ _)) (ih (s.closeRequest p))
      exact keeping_of_eq rfl
  have hwaiters : ∀ (waiters : List PollWaiter) (s : GitServe),
      Keeping s (waiters.foldl closeWaiter s) := by
    intro waiters
    induction waiters with
    | nil => exact fun s => keeping_of_eq rfl
    | cons w rest ih =>
      intro s
      refine Keeping.trans (Keeping.trans ?_ (keeping_settle _ _ _)) (ih (s.closeWaiter w))
      exact keeping_of_eq rfl
  rw [cleanup_eq]
  refine @Keeping.trans _ s.closingRequests _ ?_ (hwaiters s.closingRequests.state.pollWaiters _)
  exact (keeping_of_eq (clearSessionTimer_parts s).2).trans
    (hrequests s.clearSessionTimer.state.pendingRequests.values _)

/-! ## What is no success of a respond -/

theorem error_ne_ok (message : String) (status : Nat) :
    GitAnswer.json (toErrorResponse message status) ≠ respondOk := by
  intro h
  simp [respondOk, toErrorResponse] at h

theorem poll_ne_ok (requests : List PendingGitRequest) :
    GitAnswer.json (formatPollResponse requests) ≠ respondOk := by
  intro h
  simp [respondOk, formatPollResponse] at h

theorem denied_eq_error {request : Request} {denied : Response}
    (h : s.validateToken request = some denied) :
    ∃ message status, denied = toErrorResponse message status := by
  unfold validateToken at h
  split at h
  · cases h
    exact ⟨_, _, rfl⟩
  · split at h
    · cases h
      exact ⟨_, _, rfl⟩
    · cases h

/-! ## Answers that a call does not get -/

section
variable {s' : GitServe}

theorem ne_some_of_open (hopen : s.answers.get? call = none) : s.answers.get? call ≠ some answer := by
  rw [hopen]
  nofun

theorem ne_of_settle (hopen : s.answers.get? call = none) (hs : s'.answers = s.answers)
    {call' : Nat} {reply : GitAnswer} (hreply : reply ≠ answer) :
    (s'.settle call' reply).answers.get? call ≠ some answer := by
  intro hsettled
  rcases answer_settle hsettled with hold | ⟨-, heq⟩
  · exact ne_some_of_open hopen (hs ▸ hold)
  · exact hreply heq.symm

theorem ne_of_drain (hopen : s.answers.get? call = none) (hs : s'.answers = s.answers)
    (hpoll : ∀ requests, GitAnswer.json (formatPollResponse requests) ≠ answer) :
    s'.drainPendingToPollWaiters.answers.get? call ≠ some answer := by
  intro hdrained
  rcases answer_drain hdrained with hold | ⟨w, rest, -, -, heq⟩
  · exact ne_some_of_open hopen (hs ▸ hold)
  · exact hpoll _ heq.symm

theorem ne_of_cleanup (hopen : s.answers.get? call = none) (hs : s'.answers = s.answers)
    (hpoll : ∀ requests, GitAnswer.json (formatPollResponse requests) ≠ answer)
    (herror : ∀ message status, GitAnswer.json (toErrorResponse message status) ≠ answer) :
    s'.cleanup.answers.get? call ≠ some answer := by
  intro hclosed
  rcases answer_cleanup hclosed with hold | ⟨p, -, -, heq⟩ | ⟨w, -, -, heq⟩
  · exact ne_some_of_open hopen (hs ▸ hold)
  · exact herror _ _ heq.symm
  · exact hpoll _ heq.symm

end

/-! ## Routes exclude each other -/

theorem not_isGit_of_isPoll {request : GitServeRequest} (h : request.isPoll = true) :
    request.isGit = false := by
  have hpath : request.request.pathname = "/poll" := by
    simp only [GitServeRequest.isPoll, Bool.and_eq_true, beq_iff_eq] at h
    exact h.1
  exact StepsLemmas.isGit_of_pathname hpath (by decide)

theorem not_isGit_of_isRespond {request : GitServeRequest} (h : request.isRespond = true) :
    request.isGit = false := by
  have hpath : request.request.pathname = "/respond" := by
    simp only [GitServeRequest.isRespond, Bool.and_eq_true, beq_iff_eq] at h
    exact h.1
  exact StepsLemmas.isGit_of_pathname hpath (by decide)

theorem not_isGit_of_isRegister {request : GitServeRequest} (h : request.isRegister = true) :
    request.isGit = false := by
  have hpath : request.request.pathname = "/register" := by
    simp only [GitServeRequest.isRegister, Bool.and_eq_true, beq_iff_eq] at h
    exact h.1
  exact StepsLemmas.isGit_of_pathname hpath (by decide)

/-- A call has one request. -/
theorem Routed.unique {route route' : GitServeRequest → Bool} (h : r.Routed route call)
    (h' : r.Routed route' call) (hne : ∀ request, route' request = true → route request = false) :
    False := by
  obtain ⟨request, hget, hroute⟩ := h
  obtain ⟨request', hget', hroute'⟩ := h'
  rw [hget] at hget'
  cases hget'
  rw [hne request hroute'] at hroute
  cases hroute

theorem routed_fetch (h : Roles r) {route : GitServeRequest → Bool} {request : GitServeRequest}
    {now : Nat} (hroute : (r.step H (.fetch request now)).Routed route r.session.nextCall) :
    route request = true := by
  obtain ⟨request', hget, hroute⟩ := hroute
  change (r.calls ++ [request])[r.session.nextCall]? = some request' at hget
  rw [h.count, RoleLemmas.getElem?_calls] at hget
  cases hget
  exact hroute

end AnswerLemmas

open AnswerLemmas

/-! ## The step -/

section
variable {H : GitServeHost} {r : ServeRun} {event : GitServeEvent}

/-- A cleanup answers a git request that is in the queue. -/
theorem closed_of_cleanup {s : GitServe} (h : Roles r) (hsound : Sound H r.session)
    (hs : s.state = r.session.state ∧ s.answers = r.session.answers) {call : Nat}
    {answer : GitAnswer} (hgit : r.Routed GitServeRequest.isGit call)
    (hnew : r.session.answers.get? call ≠ some answer) (hcloses : Closes r.session event)
    (hanswer : s.cleanup.answers.get? call = some answer) :
    OwnAnswer H r.session event call answer := by
  rcases answer_cleanup hanswer with hold | ⟨p, hp, rfl, rfl⟩ | ⟨w, hw, rfl, -⟩
  · exact absurd (hs.2 ▸ hold) hnew
  · rw [hs.1] at hp
    obtain ⟨⟨requestId, q⟩, hmem, rfl⟩ := List.mem_map.mp hp
    have hget := OrdMap.get?_eq_some_iff.mpr hmem
    have hid := (hsound.pending requestId q hget).1
    exact .closed hcloses (hid ▸ hget) rfl
  · rw [hs.1] at hw
    exact (Routed.unique hgit (h.waiters w hw) fun _ => not_isGit_of_isPoll).elim

/-- A call of another route settles its own promise only. -/
theorem own_answer_fetch (h : Roles r) {call : Nat} {answer : GitAnswer} {request : GitServeRequest}
    {now : Nat} (hgit : (r.step H (.fetch request now)).Routed GitServeRequest.isGit call)
    (hopen : r.session.answers.get? call = none)
    (hanswer : (step H r.session (.fetch request now)).answers.get? call = some answer) :
    OwnAnswer H r.session (.fetch request now) call answer := by
  have hroute := fun hcall : call = r.session.nextCall => routed_fetch h (hcall ▸ hgit)
  have hother : ∀ {reply}, request.isGit = false →
      (r.session.numbered.settle r.session.nextCall reply).answers.get? call ≠ some answer := by
    intro reply hnot hreply
    rcases answer_settle hreply with hold | ⟨hcall, -⟩
    · exact ne_some_of_open hopen hold
    · exact absurd (hroute hcall) (by rw [hnot]; nofun)
  have hsteps := stepsTo H r.session (.fetch request now)
  generalize step H r.session (.fetch request now) = s' at hsteps hanswer
  cases hsteps with
  | idle hidle => exact hidle.elim
  | registered hregister =>
    rcases answer_handleRegister hanswer with hold | ⟨hcall, -⟩
    · exact absurd hold (ne_some_of_open hopen)
    · have hnot := not_isGit_of_isRegister hregister
      exact absurd (hroute hcall) (by rw [hnot]; nofun)
  | refused hnot hdenied => exact absurd hanswer (hother hnot.1)
  | told hnot _ => exact absurd hanswer (hother hnot.1)
  | handed hpoll hallowed hpending => exact absurd hanswer (hother (not_isGit_of_isPoll hpoll))
  | parked _ _ _ | responding _ _ | uploading _ _ _ =>
    exact absurd hanswer (ne_some_of_open hopen)
  | inactive hgit' hinactive =>
    rcases answer_settle hanswer with hold | ⟨hcall, rfl⟩
    · exact absurd hold (ne_some_of_open hopen)
    · exact .inactive rfl hcall hinactive
  | queued hgit' hactive hmethod =>
    rcases answer_queueGitRequest hanswer with hold | ⟨w, rest, hwaiters, rfl, -⟩
    · exact absurd hold (ne_some_of_open hopen)
    · have hpoll := h.waiters w (hwaiters ▸ List.mem_cons_self)
      exact (Routed.unique hgit (RoleLemmas.routed_calling_of hpoll request none)
        fun _ => not_isGit_of_isPoll).elim

/-- The reply to a respond is no answer to a git request. -/
theorem own_answer_bodyRead (h : Roles r) (hsound : Sound H r.session) {call call' now : Nat}
    {answer : GitAnswer} (hgit : r.Routed GitServeRequest.isGit call)
    (hopen : r.session.answers.get? call = none)
    (hanswer : (step H r.session (.bodyRead call' now)).answers.get? call = some answer) :
    OwnAnswer H r.session (.bodyRead call' now) call answer ∨
      (answer = .rejected ∧ Unread r.session (.bodyRead call' now) call) := by
  have hother : ∀ {request}, r.session.reading.get? call' = some request →
      request.isGit = false → call ≠ call' := by
    rintro request hread hnot rfl
    obtain ⟨request', hget, hgit'⟩ := hgit
    rw [(h.reading _ _ hread).1] at hget
    cases hget
    rw [hnot] at hgit'
    cases hgit'
  have hsteps := stepsTo H r.session (.bodyRead call' now)
  generalize step H r.session (.bodyRead call' now) = s' at hsteps hanswer
  cases hsteps with
  | idle hidle => exact absurd hanswer (ne_some_of_open hopen)
  | uploaded hread hgit' hbytes =>
    rcases answer_queueGitRequest hanswer with hold | ⟨w, rest, hwaiters, rfl, -⟩
    · exact absurd hold (ne_some_of_open hopen)
    · have hpoll := h.waiters w (hwaiters ▸ List.mem_cons_self)
      exact (Routed.unique hgit hpoll fun _ => not_isGit_of_isPoll).elim
  | unread hread hgit' hbytes =>
    rcases answer_settle hanswer with hold | ⟨rfl, rfl⟩
    · exact absurd hold (ne_some_of_open hopen)
    · exact .inr ⟨rfl, now, _, rfl, hread, hbytes⟩
  | misdirected hread hnot _ =>
    rcases answer_settle hanswer with hold | ⟨hcall, -⟩
    · exact absurd hold (ne_some_of_open hopen)
    · exact absurd hcall (hother hread hnot)
  | @resolved _ _ _ body pending response events hread hnot hto hbuilt =>
    rcases answer_settle hanswer with hold | ⟨hcall, -⟩
    · rcases answer_settle hold with hold | ⟨rfl, rfl⟩
      · exact absurd hold (ne_some_of_open hopen)
      · obtain ⟨_, _, _, _, -, -, -, -, rfl, hget⟩ := respondTo_cases hto
        exact .inl (.responded hto (hsound.pending _ _ hget).1 rfl hbuilt)
    · exact absurd hcall (hother hread hnot)
  | rejected hread hnot hto hbuilt =>
    rcases answer_settle hanswer with hold | ⟨hcall, -⟩
    · exact absurd hold (ne_some_of_open hopen)
    · exact absurd hcall (hother hread hnot)

theorem own_answer_timer (h : Roles r) (hsound : Sound H r.session) {call id : Nat}
    {answer : GitAnswer} (hgit : r.Routed GitServeRequest.isGit call)
    (hopen : r.session.answers.get? call = none)
    (hanswer : (step H r.session (.timer id)).answers.get? call = some answer) :
    OwnAnswer H r.session (.timer id) call answer := by
  have hsteps := stepsTo H r.session (.timer id)
  generalize step H r.session (.timer id) = s' at hsteps hanswer
  cases hsteps with
  | idle hidle => exact absurd hanswer (ne_some_of_open hopen)
  | requestTimedOut hget =>
    rcases answer_settle hanswer with hold | ⟨rfl, rfl⟩
    · exact absurd hold (ne_some_of_open hopen)
    · obtain ⟨rfl, -⟩ := (hsound.timers _ _ hget).2
      exact .timedOut rfl hget
  | pollTimedOut hget =>
    rcases answer_settle hanswer with hold | ⟨rfl, -⟩
    · exact absurd hold (ne_some_of_open hopen)
    · exact (Routed.unique hgit (h.pollTimers _ _ _ hget) fun _ => not_isGit_of_isPoll).elim
  | expired hget =>
    exact closed_of_cleanup (s := r.session.clearTimeout id) h hsound ⟨rfl, rfl⟩ hgit
      (ne_some_of_open hopen) ⟨_, hget⟩ hanswer

/-- What answers a git request is its own: the step settles no other promise of a git request. -/
theorem own_answer_step (h : Roles r) (hsound : Sound H r.session) {call : Nat} {answer : GitAnswer}
    (hgit : (r.step H event).Routed GitServeRequest.isGit call)
    (hopen : r.session.answers.get? call = none)
    (hanswer : (r.step H event).session.answers.get? call = some answer) :
    OwnAnswer H r.session event call answer ∨
      (answer = .rejected ∧ Unread r.session event call) := by
  cases event with
  | fetch request now => exact .inl (own_answer_fetch h hgit hopen hanswer)
  | bodyRead call' now => exact own_answer_bodyRead h hsound hgit hopen hanswer
  | timer id => exact .inl (own_answer_timer h hsound hgit hopen hanswer)
  | cleanup =>
    exact .inl (closed_of_cleanup h hsound ⟨rfl, rfl⟩ hgit (ne_some_of_open hopen) trivial hanswer)
  | restore saved now =>
    have hkept : (r.step H (.restore saved now)).session.answers = r.session.answers :=
      restore_answers saved now
    rw [hkept] at hanswer
    exact absurd hanswer (ne_some_of_open hopen)

/-- No respond reports success before its body is read. -/
theorem respond_fetch (h : Roles r) {call now : Nat} {request : GitServeRequest}
    (hrespond : (r.step H (.fetch request now)).Routed GitServeRequest.isRespond call)
    (hopen : r.session.answers.get? call = none) :
    (step H r.session (.fetch request now)).answers.get? call ≠ some respondOk := by
  intro hanswer
  have hroute := fun hcall : call = r.session.nextCall => routed_fetch h (hcall ▸ hrespond)
  have hsteps := stepsTo H r.session (.fetch request now)
  generalize step H r.session (.fetch request now) = s' at hsteps hanswer
  cases hsteps with
  | idle hidle => exact hidle.elim
  | registered hregister =>
    rcases answer_handleRegister hanswer with hold | ⟨-, htoken⟩
    · exact ne_some_of_open hopen hold
    · simp [respondOk] at htoken
  | refused hnot hdenied =>
    obtain ⟨message, status, rfl⟩ := denied_eq_error hdenied
    exact ne_of_settle hopen rfl (error_ne_ok message status) hanswer
  | told hnot hother =>
    rcases answer_settle hanswer with hold | ⟨hcall, -⟩
    · exact ne_some_of_open hopen hold
    · exact absurd (hroute hcall) (by rw [hother.2]; exact Bool.false_ne_true)
  | handed hpoll hallowed hpending => exact ne_of_settle hopen rfl (poll_ne_ok _) hanswer
  | parked _ _ _ | responding _ _ | uploading _ _ _ => exact ne_some_of_open hopen hanswer
  | inactive hgit hinactive => exact ne_of_settle hopen rfl (error_ne_ok _ _) hanswer
  | queued hgit hactive hmethod => exact absurd hanswer (ne_of_drain hopen rfl poll_ne_ok)

/-- A respond that reports success answers the git request it names. -/
theorem respond_bodyRead (hsound : Sound H r.session) {call call' now : Nat}
    (hopen : r.session.answers.get? call = none)
    (hanswer : (step H r.session (.bodyRead call' now)).answers.get? call = some respondOk) :
    ∃ body pending response,
      respondTo r.session (.bodyRead call' now) = some (body, pending) ∧
      pending.call ∈ r.session.queued ∧ r.session.answers.get? pending.call = none ∧
      (step H r.session (.bodyRead call' now)).answers.get? pending.call = some (.raw response) ∧
      ∀ call'' answer', r.session.answers.get? call'' = none →
        (step H r.session (.bodyRead call' now)).answers.get? call'' = some answer' →
        (call'' = pending.call ∧ answer' = .raw response) ∨ call'' = call := by
  have hsteps := stepsTo H r.session (.bodyRead call' now)
  generalize step H r.session (.bodyRead call' now) = s' at hsteps hanswer ⊢
  cases hsteps with
  | idle hidle => exact absurd hanswer (ne_some_of_open hopen)
  | uploaded hread hgit hbytes => exact absurd hanswer (ne_of_drain hopen rfl poll_ne_ok)
  | unread hread hgit hbytes => exact absurd hanswer (ne_of_settle hopen rfl nofun)
  | misdirected hread hnot _ => exact absurd hanswer (ne_of_settle hopen rfl (error_ne_ok _ _))
  | @resolved _ _ _ body pending response events hread hnot hto hbuilt =>
    obtain ⟨_, _, _, _, -, -, -, -, rfl, hget⟩ := respondTo_cases hto
    have hpending := hsound.pending _ _ hget
    have hcall : call = call' := by
      rcases answer_settle hanswer with hold | ⟨hcall, -⟩
      · exact absurd hold (ne_of_settle hopen rfl nofun)
      · exact hcall
    have hne : pending.call ≠ call' := by
      intro heq
      exact (hsound.reading _ _ hread).2.1 (heq ▸ hpending.2.1)
    refine ⟨_, pending, response, hto, hpending.2.1, hpending.2.2.1, ?_, ?_⟩
    · rw [answer_settle_of_ne hne]
      exact answer_settle_self hpending.2.2.1
    intro call'' answer'' hopen' hanswer'
    rcases answer_settle hanswer' with hold | ⟨rfl, -⟩
    · rcases answer_settle hold with hold | hown
      · exact absurd hold (ne_some_of_open hopen')
      · exact .inl hown
    · exact .inr hcall.symm
  | rejected hread hnot hto hbuilt => exact absurd hanswer (ne_of_settle hopen rfl nofun)

theorem respond_timer {call id : Nat} (hopen : r.session.answers.get? call = none) :
    (step H r.session (.timer id)).answers.get? call ≠ some respondOk := by
  intro hanswer
  have hsteps := stepsTo H r.session (.timer id)
  generalize step H r.session (.timer id) = s' at hsteps hanswer
  cases hsteps with
  | idle hidle => exact ne_some_of_open hopen hanswer
  | requestTimedOut hget => exact ne_of_settle hopen rfl (error_ne_ok _ _) hanswer
  | pollTimedOut hget => exact ne_of_settle hopen rfl (poll_ne_ok _) hanswer
  | expired hget => exact absurd hanswer (ne_of_cleanup hopen rfl poll_ne_ok error_ne_ok)

/-- A respond that reports success answers one git request: the one it names. -/
theorem respond_resolves_step (h : Roles r) (hsound : Sound H r.session) {call : Nat}
    (hrespond : (r.step H event).Routed GitServeRequest.isRespond call)
    (hopen : r.session.answers.get? call = none)
    (hanswer : (r.step H event).session.answers.get? call = some respondOk) :
    ∃ body pending response, respondTo r.session event = some (body, pending) ∧
      pending.call ∈ r.session.queued ∧ r.session.answers.get? pending.call = none ∧
      (r.step H event).session.answers.get? pending.call = some (.raw response) ∧
      ∀ call' answer', r.session.answers.get? call' = none →
        (r.step H event).session.answers.get? call' = some answer' →
        (call' = pending.call ∧ answer' = .raw response) ∨ call' = call := by
  cases event with
  | fetch request now => exact absurd hanswer (respond_fetch h hrespond hopen)
  | bodyRead call' now => exact respond_bodyRead hsound hopen hanswer
  | timer id => exact absurd hanswer (respond_timer (H := H) hopen)
  | cleanup => exact absurd hanswer (ne_of_cleanup hopen rfl poll_ne_ok error_ne_ok)
  | restore saved now =>
    have hkept : (r.step H (.restore saved now)).session.answers = r.session.answers :=
      restore_answers saved now
    rw [hkept] at hanswer
    exact absurd hanswer (ne_some_of_open hopen)

end

/-- A response is handed over by a respond that names the request and makes this response. -/
theorem respondTo_of_raw {H : GitServeHost} {s : GitServe} {event : GitServeEvent} {call : Nat}
    {response : RawResponse} (hopen : s.answers.get? call = none)
    (hanswer : (step H s event).answers.get? call = some (.raw response)) :
    ∃ body pending, respondTo s event = some (body, pending) ∧ pending.call = call ∧
      respondResponse H pending body = some response := by
  have hsteps := stepsTo H s event
  generalize step H s event = s' at hsteps hanswer
  cases hsteps with
  | idle _ | parked _ _ _ | responding _ _ | uploading _ _ _ => exact absurd hanswer (ne_some_of_open hopen)
  | registered _ =>
    rcases answer_handleRegister hanswer with hold | ⟨-, heq⟩
    · exact absurd hold (ne_some_of_open hopen)
    · cases heq
  | refused _ _ | told _ _ | handed _ _ _ | inactive _ _ | unread _ _ _ | misdirected _ _ _
  | rejected _ _ _ _ | requestTimedOut _ | pollTimedOut _ =>
    exact absurd hanswer (ne_of_settle hopen rfl nofun)
  | queued _ _ _ _ | uploaded _ _ _ _ =>
    rcases answer_queueGitRequest hanswer with hold | ⟨w, rest, -, -, heq⟩
    · exact absurd hold (ne_some_of_open hopen)
    · cases heq
  | resolved hread hgit hto hbuilt =>
    rcases answer_settle hanswer with hold | ⟨-, heq⟩
    · rcases answer_settle hold with hold | ⟨rfl, heq⟩
      · exact absurd hold (ne_some_of_open hopen)
      · cases heq
        exact ⟨_, _, hto, rfl, hbuilt⟩
    · cases heq
  | expired _ => exact absurd hanswer (ne_of_cleanup hopen rfl nofun nofun)
  | closed => exact absurd hanswer (ne_of_cleanup hopen rfl nofun nofun)
  | restored =>
    rw [restore_answers] at hanswer
    exact absurd hanswer (ne_some_of_open hopen)

/-- A respond that makes a response hands it to the request it names. -/
theorem raw_of_respondTo {H : GitServeHost} {s : GitServe} {event : GitServeEvent}
    (hsound : Sound H s) {body : RespondBody} {pending : PendingGitRequest}
    {response : RawResponse} (hto : respondTo s event = some (body, pending))
    (hbuilt : respondResponse H pending body = some response) :
    (step H s event).answers.get? pending.call = some (.raw response) := by
  obtain ⟨call, now, request, fields, rfl, hread, hpath, hbody, rfl, hget⟩ := respondTo_cases hto
  have hpending := hsound.pending _ _ hget
  have hgit : ∀ {request'}, s.reading.get? call = some request' → request'.isGit = false := by
    intro request' hread'
    rw [hread] at hread'
    cases hread'
    simp [GitServeRequest.isGit, hpath]
  have hsteps := stepsTo H s (.bodyRead call now)
  generalize step H s (.bodyRead call now) = s' at hsteps
  cases hsteps with
  | idle hidle =>
    rw [show s.reading.get? call = none from hidle] at hread
    cases hread
  | uploaded hread' hroute _ _ | unread hread' hroute _ =>
    rw [hgit hread'] at hroute
    cases hroute
  | misdirected _ _ hnone => exact absurd (hpending.1.symm.trans (hnone _ _ hto)) (H.requestId_ne _)
  | resolved _ _ hto' hbuilt' =>
    rw [hto] at hto'
    cases hto'
    rw [hbuilt] at hbuilt'
    cases hbuilt'
    have hne : pending.call ≠ call := by
      intro heq
      exact (hsound.reading _ _ hread).2.1 (heq ▸ hpending.2.1)
    rw [answer_settle_of_ne hne]
    exact answer_settle_self hpending.2.2.1
  | rejected _ _ hto' hbuilt' =>
    rw [hto] at hto'
    cases hto'
    rw [hbuilt] at hbuilt'
    cases hbuilt'

/-- A promise that is settled stays as it is. -/
theorem keeping_step (H : GitServeHost) (s : GitServe) (event : GitServeEvent) :
    Keeping s (step H s event) := by
  have hreply : ∀ {s' : GitServe} {call : Nat} {reply : GitAnswer}, s'.answers = s.answers →
      Keeping s (s'.settle call reply) :=
    fun hs => (keeping_of_eq hs).trans (keeping_settle _ _ _)
  have hsteps := stepsTo H s event
  generalize step H s event = s' at hsteps
  cases hsteps with
  | idle _ | parked _ _ _ | responding _ _ | uploading _ _ _ => exact keeping_of_eq rfl
  | registered _ => exact hreply (resetSessionTimer_answers _)
  | refused _ _ | told _ _ | handed _ _ _ | inactive _ _ | unread _ _ _ | misdirected _ _ _ =>
    exact hreply rfl
  | queued _ _ _ | uploaded _ _ _ =>
    unfold queueGitRequest
    refine Keeping.trans ?_ (keeping_drain _)
    exact keeping_of_eq rfl
  | resolved _ _ _ _ => exact (hreply rfl).trans (keeping_settle _ _ _)
  | rejected _ _ _ _ => exact hreply rfl
  | requestTimedOut _ | pollTimedOut _ => exact hreply rfl
  | expired _ =>
    refine Keeping.trans ?_ (keeping_cleanup _)
    exact keeping_of_eq rfl
  | closed => exact keeping_cleanup _
  | restored => exact keeping_of_eq (restore_answers _ _)

/-! ## Runs -/

/-- The step settles the promise of this call, with this answer. -/
def ServeRun.Gained (r r' : ServeRun) (call : Nat) (answer : GitAnswer) : Prop :=
  r.session.answers.get? call = none ∧ r'.session.answers.get? call = some answer

/-- At every step of a run all answers stay, a git request is answered with its own answer (or its
body could not be read), and a respond that reports success answers one git request. -/
theorem git_answers_own (H : GitServeHost) (events : List GitServeEvent) (event : GitServeEvent) :
    let run := ServeRun.after H events
    let run' := run.step H event
    (∀ call answer, run.session.answers.get? call = some answer →
      run'.session.answers.get? call = some answer) ∧
    (∀ call answer, run'.Routed GitServeRequest.isGit call → run.Gained run' call answer →
      OwnAnswer H run.session event call answer ∨
        (answer = .rejected ∧ Unread run.session event call)) ∧
    (∀ call, run'.Routed GitServeRequest.isRespond call → run.Gained run' call respondOk →
      ∃! git, run'.Routed GitServeRequest.isGit git ∧ ∃ answer, run.Gained run' git answer) := by
  intro run run'
  have hroles : Roles run := roles_after H events
  have hsound : Sound H run.session := sound_session H events
  refine ⟨fun call answer hanswer => ?_, fun call answer hgit hgained =>
    own_answer_step hroles hsound hgit hgained.1 hgained.2, fun call hrespond hgained => ?_⟩
  · change (run.step H event).session.answers.get? call = some answer
    rw [ServeRun.session_step]
    exact keeping_step H run.session event call answer hanswer
  · obtain ⟨body, pending, response, hto, hqueued, hopen, hanswer, hothers⟩ :=
      respond_resolves_step hroles hsound hrespond hgained.1 hgained.2
    have hgit : run'.Routed GitServeRequest.isGit pending.call := by
      obtain ⟨call', now, _, _, rfl, -⟩ := respondTo_cases hto
      exact hroles.queued pending.call hqueued
    refine ⟨pending.call, ⟨hgit, _, hopen, hanswer⟩, ?_⟩
    rintro git ⟨hgit', answer, hopen', hanswer'⟩
    rcases hothers git answer hopen' hanswer' with ⟨hcall, -⟩ | rfl
    · exact hcall
    · exact (Routed.unique hgit' hrespond fun _ => not_isGit_of_isRespond).elim

end GitServe

end BitRelay
