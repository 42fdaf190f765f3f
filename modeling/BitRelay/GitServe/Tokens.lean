import BitRelay.GitServe.Wakeups

/-!
# Superseded tokens

Each registration replaces the token of the session, and a call that comes with
another token is turned away. But the token is looked at only once: a poll that is
parked, and a respond that awaits its body, keep what they were granted when the
session is registered anew.

Results:
1. `tokensSound_step`: every call that was let in carries the token of a registration
   before it.
2. `powerless_step_iff`: the steps at which a superseded token has no effect.
3. `superseded_powerless_iff`: the same for whole runs.
-/

namespace BitRelay

namespace GitServe

/-! ## Who is answered under which token -/

/-- The call came with this token. -/
def ServeRun.Presents (r : ServeRun) (call : Nat) (token : String) : Prop :=
  ∃ request, r.calls[call]? = some request ∧ presentedToken request.request = token

/-- At this event, who gets git requests, and who answers one, has the token of the session. -/
structure Powerless (H : GitServeHost) (r : ServeRun) (event : GitServeEvent) : Prop where
  polls : ∀ call requests, requests ≠ [] → (r.step H event).Routed GitServeRequest.isPoll call →
    r.Gained (r.step H event) call (.json (formatPollResponse requests)) →
    (r.step H event).Presents call r.session.state.sessionToken
  responds : ∀ call now git response, event = .bodyRead call now →
    r.Gained (r.step H event) git (.raw response) →
    (r.step H event).Presents call r.session.state.sessionToken

/-- The session was not registered anew since this call. -/
def ServeRun.Since (r : ServeRun) (call : Nat) : Prop := ∀ k, r.registeredBy = some k → k < call

/-- The event puts a git request into the queue. -/
def queues (s : GitServe) : GitServeEvent → Bool
  | .fetch request _ => request.isGit && s.state.active && request.request.method != "POST"
  | .bodyRead call _ =>
    (s.reading.get? call).any fun request => request.isGit && request.bytes.isSome
  | _ => false

/-- No registration came between the poll that is woken, or the respond that is carried out, and
this event. -/
structure NotSuperseded (r : ServeRun) (event : GitServeEvent) : Prop where
  woken : queues r.session event = true → ∀ w rest, r.session.state.pollWaiters = w :: rest →
    r.Since w.call
  responds : ∀ call now body pending, event = .bodyRead call now →
    respondTo r.session event = some (body, pending) → Renders body → r.Since call

/-! ## Tokens of a run -/

/-- The call was let in under the token of a registration before it, which is the last one unless
there was one since. -/
def Carries (H : GitServeHost) (r : ServeRun) (call : Nat) : Prop :=
  ∃ request k k', r.calls[call]? = some request ∧
    presentedToken request.request = H.sessionToken k ∧ k < call ∧
    r.registeredBy = some k' ∧ (k' = k ∨ call < k')

structure TokensSound (H : GitServeHost) (r : ServeRun) : Prop where
  issued : r.session.state.active = true → ∃ k, r.registeredBy = some k
  current : ∀ k, r.registeredBy = some k →
    r.session.state.sessionToken = H.sessionToken k ∧ k < r.session.nextCall
  waiters : ∀ w ∈ r.session.state.pollWaiters, Carries H r w.call
  reading : ∀ call request, r.session.reading.get? call = some request →
    request.isRespond = true → Carries H r call

namespace TokenLemmas

variable {H : GitServeHost} {s s' : GitServe} {r : ServeRun} {call : Nat}

/-- A call that was let in still has the token of the session unless that was registered anew. -/
theorem presents_iff_since (h : TokensSound H r) (hcarries : Carries H r call) :
    r.Presents call r.session.state.sessionToken ↔ r.Since call := by
  obtain ⟨request, k, k', hget, htoken, hlt, hlast, hor⟩ := hcarries
  rw [(h.current k' hlast).1]
  constructor
  · rintro ⟨request', hget', htoken'⟩ l hl
    rw [hget] at hget'
    cases hget'
    rw [hlast] at hl
    cases hl
    rw [htoken] at htoken'
    rw [← H.sessionToken_injective htoken']
    exact hlt
  · intro hsince
    have hbefore := hsince k' hlast
    rcases hor with rfl | hafter
    · exact ⟨request, hget, htoken⟩
    · exact absurd hbefore (Nat.lt_asymm hafter)

/-- The session takes nobody in and keeps its token. -/
structure Retains (s s' : GitServe) : Prop where
  count : s'.nextCall = s.nextCall
  active : s'.state.active = true → s.state.active = true
  token : s'.state.sessionToken = s.state.sessionToken
  waiters : ∀ w ∈ s'.state.pollWaiters, w ∈ s.state.pollWaiters
  reading : ∀ call request, s'.reading.get? call = some request →
    s.reading.get? call = some request

theorem Retains.of_narrows (h : RoleLemmas.Narrows s s')
    (hactive : s'.state.active = true → s.state.active = true)
    (htoken : s'.state.sessionToken = s.state.sessionToken) : Retains s s' :=
  ⟨h.count, hactive, htoken, h.waiters, h.reading⟩

theorem drain_token (s : GitServe) :
    s.drainPendingToPollWaiters.state.sessionToken = s.state.sessionToken := by
  unfold drainPendingToPollWaiters
  split
  · rfl
  · split <;> rfl

theorem retains_queueGitRequest (s : GitServe) (call now : Nat) (request : Request)
    (gitPath : String) (bytes : Option Bytes) :
    Retains s (s.queueGitRequest H call now request gitPath bytes) := by
  have hdrained := RoleLemmas.narrows_drain (s.enqueue H call now request gitPath bytes)
  refine ⟨hdrained.count, fun hactive => ?_, drain_token _, hdrained.waiters, hdrained.reading⟩
  rw [ExpiryLemmas.queueGitRequest_active] at hactive
  exact hactive

theorem cleanup_token (s : GitServe) : s.cleanup.state.sessionToken = s.state.sessionToken := by
  have hfirst : s.closingRequests.state.sessionToken = s.state.sessionToken := by
    have hkept := (SoundLemmas.closeRequests_state s.clearSessionTimer
      s.clearSessionTimer.state.pendingRequests.values).1
    have hstate := (AnswerLemmas.clearSessionTimer_parts s).1
    exact (congrArg GitServeSessionState.sessionToken hkept).trans
      (congrArg GitServeSessionState.sessionToken hstate)
  have hkept := ExpiryLemmas.closeWaiters_state s.closingRequests
    s.closingRequests.state.pollWaiters
  exact (congrArg GitServeSessionState.sessionToken hkept).trans hfirst

theorem retains_cleanup (s : GitServe) : Retains s s.cleanup :=
  .of_narrows (RoleLemmas.narrows_cleanup s) nofun (cleanup_token s)

theorem tokensSound_retain {calls : List GitServeRequest} {registeredBy : Option Nat}
    (h : TokensSound H ⟨s, calls, registeredBy⟩) (hretains : Retains s s') :
    TokensSound H ⟨s', calls, registeredBy⟩ where
  issued hactive := h.issued (hretains.active hactive)
  current k hk := by
    obtain ⟨htoken, hlt⟩ := h.current k hk
    exact ⟨hretains.token.trans htoken, hretains.count ▸ hlt⟩
  waiters w hw := h.waiters w (hretains.waiters w hw)
  reading call request hget := h.reading call request (hretains.reading call request hget)

/-- A new call, which is no registration, changes nothing about the others. -/
theorem tokensSound_calling (h : TokensSound H r) (request : GitServeRequest) :
    TokensSound H (RoleLemmas.calling r request r.registeredBy) := by
  have hcarries : ∀ {call}, Carries H r call →
      Carries H (RoleLemmas.calling r request r.registeredBy) call := by
    rintro call ⟨request', k, k', hget, hrest⟩
    exact ⟨request', k, k', RoleLemmas.getElem?_calls_of_some hget, hrest⟩
  refine ⟨h.issued, fun k hk => ?_, fun w hw => hcarries (h.waiters w hw),
    fun call request' hget hrespond => hcarries (h.reading call request' hget hrespond)⟩
  exact ⟨(h.current k hk).1, Nat.lt_succ_of_lt (h.current k hk).2⟩

theorem presentedToken_of_allowed {request : Request} (h : s.validateToken request = none) :
    presentedToken request = s.state.sessionToken := by
  unfold validateToken at h
  split at h
  · cases h
  · split at h
    · cases h
    · next heq => exact Decidable.not_not.mp heq

/-- A call with the token of the session carries it. -/
theorem carries_of_allowed (hroles : Roles r) (h : TokensSound H r) {request : GitServeRequest}
    (hallowed : r.session.validateToken request.request = none) :
    Carries H (RoleLemmas.calling r request r.registeredBy) r.session.nextCall := by
  obtain ⟨k, hk⟩ := h.issued (ExpiryLemmas.active_of_allowed hallowed)
  obtain ⟨htoken, hlt⟩ := h.current k hk
  refine ⟨request, k, k, ?_, (presentedToken_of_allowed hallowed).trans htoken, hlt, hk, .inl rfl⟩
  rw [hroles.count]
  exact RoleLemmas.getElem?_calls

theorem tokensSound_registered (hsound : Sound H r.session)
    (h : TokensSound H r) (request : GitServeRequest) (now : Nat) :
    TokensSound H ⟨r.session.numbered.handleRegister H r.session.nextCall now,
      r.calls ++ [request], some r.session.nextCall⟩ := by
  have hnarrows := RoleLemmas.narrows_handleRegister (H := H) r.session.numbered
    r.session.nextCall now
  -- whoever was let in before carries an older token from now on
  have hcarries : ∀ {call} {s' : GitServe}, Carries H r call → call < r.session.nextCall →
      Carries H ⟨s', r.calls ++ [request], some r.session.nextCall⟩ call := by
    rintro call s' ⟨request', k, k', hget, htoken, hlt, -, -⟩ hbefore
    exact ⟨request', k, r.session.nextCall, RoleLemmas.getElem?_calls_of_some hget, htoken, hlt,
      rfl, .inr hbefore⟩
  refine ⟨fun _ => ⟨_, rfl⟩, fun k hk => ?_, fun w hw => ?_, fun call request' hget hrespond => ?_⟩
  · cases hk
    refine ⟨?_, ?_⟩
    · rw [ExpiryLemmas.handleRegister_state]
    · rw [hnarrows.count]
      exact Nat.lt_succ_self _
  · have hw' := hnarrows.waiters w hw
    exact hcarries (h.waiters w hw') (hsound.waiters w hw').2.1
  · have hget' := hnarrows.reading call request' hget
    exact hcarries (h.reading call request' hget' hrespond) (hsound.reading call request' hget').1

end TokenLemmas

open TokenLemmas

/-- What a running session keeps. -/
structure Serving (H : GitServeHost) (r : ServeRun) : Prop where
  roles : Roles r
  sound : Sound H r.session
  waking : Waking r
  tokens : TokensSound H r

section
variable {H : GitServeHost} {r : ServeRun} {event : GitServeEvent}

theorem not_isRegister {request : GitServeRequest}
    (h : request.isPoll = true ∨ request.isRespond = true ∨ request.isGit = true) :
    request.isRegister = false := by
  cases hregister : request.isRegister with
  | false => rfl
  | true =>
    have hpath : request.request.pathname = "/register" := by
      simp only [GitServeRequest.isRegister, Bool.and_eq_true, beq_iff_eq] at hregister
      exact hregister.1
    rcases h with hpoll | hrespond | hgit
    · simp [GitServeRequest.isPoll, hpath] at hpoll
    · simp [GitServeRequest.isRespond, hpath] at hrespond
    · rw [AnswerLemmas.not_isGit_of_isRegister hregister] at hgit
      cases hgit

theorem tokensSound_fetch (hroles : Roles r) (hsound : Sound H r.session) (h : TokensSound H r)
    (request : GitServeRequest) (now : Nat) : TokensSound H (r.step H (.fetch request now)) := by
  have hsteps := stepsTo H r.session (.fetch request now)
  change TokensSound H ⟨step H r.session (.fetch request now), r.calls ++ [request],
    if request.isRegister = true then some r.session.nextCall else r.registeredBy⟩
  generalize step H r.session (.fetch request now) = s' at hsteps
  have hother : request.isRegister = false →
      TokensSound H ⟨s', r.calls ++ [request], r.registeredBy⟩ →
      TokensSound H ⟨s', r.calls ++ [request],
        if request.isRegister = true then some r.session.nextCall else r.registeredBy⟩ := by
    intro hregister hnext
    rw [hregister]
    exact hnext
  have hcalled := tokensSound_calling h request
  have hreplied : ∀ reply, TokensSound H ⟨r.session.numbered.settle r.session.nextCall reply,
      r.calls ++ [request], r.registeredBy⟩ := fun reply =>
    tokensSound_retain hcalled (.of_narrows (RoleLemmas.narrows_settle _ _ _) id rfl)
  cases hsteps with
  | idle hidle => exact hidle.elim
  | registered hregister =>
    rw [hregister]
    exact tokensSound_registered hsound h request now
  | refused hroute _ => exact hother hroute.2 (hreplied _)
  | told hroute _ => exact hother hroute.2 (hreplied _)
  | handed hpoll _ _ => exact hother (not_isRegister (.inl hpoll)) (hreplied _)
  | parked hpoll hallowed _ =>
    refine hother (not_isRegister (.inl hpoll)) ⟨hcalled.issued, hcalled.current, fun w hw => ?_,
      hcalled.reading⟩
    rcases List.mem_append.mp hw with hw | hw
    · exact hcalled.waiters w hw
    · rw [List.mem_singleton.mp hw]
      exact carries_of_allowed hroles h hallowed
  | responding hrespond hallowed =>
    refine hother (not_isRegister (.inr (.inl hrespond))) ⟨hcalled.issued, hcalled.current,
      hcalled.waiters, fun call request' hget hrespond' => ?_⟩
    change (r.session.reading.set r.session.nextCall request).get? call = some request' at hget
    rw [OrdMap.get?_set] at hget
    split at hget
    · next heq =>
      rw [heq]
      exact carries_of_allowed hroles h hallowed
    · exact hcalled.reading call request' hget hrespond'
  | inactive hgit _ => exact hother (not_isRegister (.inr (.inr hgit))) (hreplied _)
  | uploading hgit _ _ =>
    refine hother (not_isRegister (.inr (.inr hgit))) ⟨hcalled.issued, hcalled.current,
      hcalled.waiters, fun call request' hget hrespond' => ?_⟩
    change (r.session.reading.set r.session.nextCall request).get? call = some request' at hget
    rw [OrdMap.get?_set] at hget
    split at hget
    · cases hget
      rw [AnswerLemmas.not_isGit_of_isRespond hrespond'] at hgit
      cases hgit
    · exact hcalled.reading call request' hget hrespond'
  | queued hgit _ _ =>
    exact hother (not_isRegister (.inr (.inr hgit)))
      (tokensSound_retain hcalled (retains_queueGitRequest _ _ _ _ _ _))

theorem tokensSound_bodyRead (h : TokensSound H r) (call now : Nat) :
    TokensSound H (r.step H (.bodyRead call now)) := by
  have hsteps := stepsTo H r.session (.bodyRead call now)
  change TokensSound H { r with session := step H r.session (.bodyRead call now) }
  generalize step H r.session (.bodyRead call now) = s' at hsteps
  have hreceived := tokensSound_retain h
    (.of_narrows (RoleLemmas.narrows_received r.session call) id rfl)
  cases hsteps with
  | idle _ => exact h
  | uploaded _ _ _ => exact tokensSound_retain hreceived (retains_queueGitRequest _ _ _ _ _ _)
  | unread _ _ _ | misdirected _ _ _ =>
    exact tokensSound_retain hreceived (.of_narrows (RoleLemmas.narrows_settle _ _ _) id rfl)
  | resolved _ _ _ _ =>
    refine tokensSound_retain hreceived (.of_narrows ?_ id rfl)
    exact (((RoleLemmas.narrows_taking _ _ _).trans (RoleLemmas.narrows_events _ _)).trans
      (RoleLemmas.narrows_settle _ _ _)).trans (RoleLemmas.narrows_settle _ _ _)
  | rejected _ _ _ _ =>
    refine tokensSound_retain hreceived (.of_narrows ?_ id rfl)
    exact ((RoleLemmas.narrows_taking _ _ _).trans (RoleLemmas.narrows_events _ _)).trans
      (RoleLemmas.narrows_settle _ _ _)

theorem tokensSound_timer (h : TokensSound H r) (id : Nat) :
    TokensSound H (r.step H (.timer id)) := by
  have hsteps := stepsTo H r.session (.timer id)
  change TokensSound H { r with session := step H r.session (.timer id) }
  generalize step H r.session (.timer id) = s' at hsteps
  cases hsteps with
  | idle _ => exact h
  | requestTimedOut _ =>
    refine tokensSound_retain h (.of_narrows ?_ (fun h => h) rfl)
    exact ((RoleLemmas.narrows_clearTimeout _ _).trans
      (RoleLemmas.narrows_deletePending _ _)).trans (RoleLemmas.narrows_settle _ _ _)
  | pollTimedOut _ =>
    refine tokensSound_retain h (.of_narrows ?_ (fun h => h) rfl)
    exact ((RoleLemmas.narrows_clearTimeout _ _).trans
      (RoleLemmas.narrows_unparking _ _)).trans (RoleLemmas.narrows_settle _ _ _)
  | expired _ =>
    refine tokensSound_retain (tokensSound_retain h ?_) (retains_cleanup _)
    exact .of_narrows (RoleLemmas.narrows_clearTimeout _ _) (fun h => h) rfl

/-- A step lets in a call under the token of the session; a registration outdates all others. -/
theorem tokensSound_step (hroles : Roles r) (hsound : Sound H r.session) (h : TokensSound H r)
    (hserved : ∀ saved now, event ≠ .restore saved now) : TokensSound H (r.step H event) := by
  cases event with
  | fetch request now => exact tokensSound_fetch hroles hsound h request now
  | bodyRead call now => exact tokensSound_bodyRead h call now
  | timer id => exact tokensSound_timer h id
  | cleanup => exact tokensSound_retain h (retains_cleanup _)
  | restore saved now => exact absurd rfl (hserved saved now)

theorem serving_step (h : Serving H r) (hserved : ∀ saved now, event ≠ .restore saved now) :
    Serving H (r.step H event) where
  roles := roles_step h.roles event
  sound := by
    rw [ServeRun.session_step]
    exact sound_step h.sound event
  waking := waking_step h.roles h.sound h.waking event
  tokens := tokensSound_step h.roles h.sound h.tokens hserved

theorem serving_init (H : GitServeHost) : Serving H ServeRun.init where
  roles := roles_after H []
  sound := sound_init H
  waking := waking_after H []
  tokens := ⟨nofun, nofun, nofun, nofun⟩

/-! ## Who is answered -/

theorem poll_ne_error (requests : List PendingGitRequest) (message : String) (status : Nat) :
    GitAnswer.json (formatPollResponse requests) ≠ .json (toErrorResponse message status) := by
  intro h
  simp [formatPollResponse, toErrorResponse] at h

theorem eq_nil_of_formatPollResponse {requests : List PendingGitRequest}
    (h : GitAnswer.json (formatPollResponse requests) = .json (formatPollResponse [])) :
    requests = [] := by
  simpa [formatPollResponse] using h

/-- A poll gets git requests when it comes, with the token of the session, or when it is woken. -/
theorem poll_gain_cases (h : Serving H r) {call : Nat} {requests : List PendingGitRequest}
    (hrequests : requests ≠ []) (hpoll : (r.step H event).Routed GitServeRequest.isPoll call)
    (hgained : r.Gained (r.step H event) call (.json (formatPollResponse requests))) :
    (∃ request now, event = .fetch request now ∧ call = r.session.nextCall ∧
      r.session.validateToken request.request = none) ∨
    (queues r.session event = true ∧ ∃ w rest, r.session.state.pollWaiters = w :: rest ∧
      call = w.call) := by
  obtain ⟨hopen, hanswer⟩ := hgained
  rw [ServeRun.session_step] at hanswer
  have hnew : ∀ {a}, r.session.answers.get? call ≠ some a := by
    intro a ha
    rw [hopen] at ha
    cases ha
  have herror : ∀ {s : GitServe} {call' : Nat} {message : String} {status : Nat},
      s.answers = r.session.answers →
      (s.fail call' message status).answers.get? call ≠
        some (.json (formatPollResponse requests)) := by
    intro s call' message status hs hsettled
    rcases AnswerLemmas.answer_settle hsettled with hold | ⟨-, heq⟩
    · exact hnew (hs ▸ hold)
    · exact poll_ne_error _ _ _ heq
  have hcleanup : ∀ {s : GitServe}, s.answers = r.session.answers →
      s.cleanup.answers.get? call ≠ some (.json (formatPollResponse requests)) := by
    intro s hs hclosed
    rcases AnswerLemmas.answer_cleanup hclosed with hold | ⟨p, -, -, heq⟩ | ⟨w, -, -, heq⟩
    · exact hnew (hs ▸ hold)
    · exact poll_ne_error _ _ _ heq
    · exact hrequests (eq_nil_of_formatPollResponse heq)
  have hsteps := stepsTo H r.session event
  generalize step H r.session event = s' at hsteps hanswer
  cases hsteps with
  | idle _ | parked _ _ _ | responding _ _ | uploading _ _ _ => exact absurd hanswer hnew
  | registered _ =>
    rcases AnswerLemmas.answer_handleRegister hanswer with hold | ⟨-, heq⟩
    · exact absurd hold hnew
    · simp [formatPollResponse] at heq
  | refused _ hdenied =>
    obtain ⟨message, status, rfl⟩ := AnswerLemmas.denied_eq_error hdenied
    exact absurd hanswer (herror rfl)
  | told _ hother =>
    rcases AnswerLemmas.answer_settle hanswer with hold | ⟨rfl, -⟩
    · exact absurd hold hnew
    · have hroute := AnswerLemmas.routed_fetch h.roles hpoll
      rw [hother.1] at hroute
      cases hroute
  | handed _ hallowed _ =>
    rcases AnswerLemmas.answer_settle hanswer with hold | ⟨hcall, -⟩
    · exact absurd hold hnew
    · exact .inl ⟨_, _, rfl, hcall, hallowed⟩
  | inactive _ _ => exact absurd hanswer (herror rfl)
  | queued hgit hactive hmethod =>
    rcases AnswerLemmas.answer_queueGitRequest hanswer with hold | ⟨w, rest, hwaiters, hcall, -⟩
    · exact absurd hold hnew
    · refine .inr ⟨?_, w, rest, hwaiters, hcall⟩
      simp [queues, hgit, hactive, hmethod]
  | uploaded hread hgit hbytes =>
    rcases AnswerLemmas.answer_queueGitRequest hanswer with hold | ⟨w, rest, hwaiters, hcall, -⟩
    · exact absurd hold hnew
    · refine .inr ⟨?_, w, rest, hwaiters, hcall⟩
      simp [queues, hread, hgit, hbytes]
  | unread _ _ _ | rejected _ _ _ _ =>
    rcases AnswerLemmas.answer_settle hanswer with hold | ⟨-, heq⟩
    · exact absurd hold hnew
    · cases heq
  | misdirected _ _ _ => exact absurd hanswer (herror rfl)
  | resolved _ _ _ _ =>
    rcases AnswerLemmas.answer_settle hanswer with hold | ⟨-, heq⟩
    · rcases AnswerLemmas.answer_settle hold with hold | ⟨-, heq⟩
      · exact absurd hold hnew
      · cases heq
    · exact absurd heq (AnswerLemmas.poll_ne_ok _)
  | requestTimedOut _ => exact absurd hanswer (herror rfl)
  | pollTimedOut _ =>
    rcases AnswerLemmas.answer_settle hanswer with hold | ⟨-, heq⟩
    · exact absurd hold hnew
    · exact absurd (eq_nil_of_formatPollResponse heq) hrequests
  | expired _ => exact absurd hanswer (hcleanup rfl)
  | closed => exact absurd hanswer (hcleanup rfl)
  | restored =>
    rw [AnswerLemmas.restore_answers] at hanswer
    exact absurd hanswer hnew

/-- A response is built by a respond that makes one. -/
theorem raw_gain_cases {git : Nat} {response : RawResponse}
    (hgained : r.Gained (r.step H event) git (.raw response)) :
    ∃ call now body pending request, event = .bodyRead call now ∧
      respondTo r.session event = some (body, pending) ∧ Renders body ∧
      r.session.reading.get? call = some request ∧ request.isGit = false := by
  obtain ⟨hopen, hanswer⟩ := hgained
  rw [ServeRun.session_step] at hanswer
  obtain ⟨body, pending, hto, -, hbuilt⟩ := respondTo_of_raw hopen hanswer
  obtain ⟨call, now, request, _, hevent, hread, hpath, -, -, -⟩ := respondTo_cases hto
  have hrenders := respondResponse_isSome_iff.mp (Option.isSome_iff_exists.mpr ⟨_, hbuilt⟩)
  exact ⟨call, now, body, pending, request, hevent, hto, hrenders, hread,
    by simp [GitServeRequest.isGit, hpath]⟩

/-- The event that queues a git request does nothing else. -/
theorem step_of_queues {s : GitServe} (hqueues : queues s event = true) :
    ∃ (s₀ : GitServe) (call now : Nat) (request : Request) (gitPath : String)
      (bytes : Option Bytes), s₀.state = s.state ∧ s₀.answers = s.answers ∧
      step H s event = s₀.queueGitRequest H call now request gitPath bytes := by
  have hsteps := stepsTo H s event
  generalize step H s event = s' at hsteps ⊢
  cases event with
  | fetch request now =>
    simp only [queues, Bool.and_eq_true, bne_iff_ne, ne_eq] at hqueues
    obtain ⟨⟨hgit, hactive⟩, hmethod⟩ := hqueues
    cases hsteps with
    | idle hidle => exact hidle.elim
    | registered hregister =>
      rw [AnswerLemmas.not_isGit_of_isRegister hregister] at hgit
      cases hgit
    | refused hroute _ | told hroute _ =>
      rw [hroute.1] at hgit
      cases hgit
    | handed hpoll _ _ | parked hpoll _ _ =>
      rw [AnswerLemmas.not_isGit_of_isPoll hpoll] at hgit
      cases hgit
    | responding hrespond _ =>
      rw [AnswerLemmas.not_isGit_of_isRespond hrespond] at hgit
      cases hgit
    | inactive _ hinactive =>
      rw [hinactive] at hactive
      cases hactive
    | uploading _ _ hpost => exact absurd hpost hmethod
    | queued _ _ _ => exact ⟨s.numbered, _, _, _, _, _, rfl, rfl, rfl⟩
  | bodyRead call now =>
    cases hread : s.reading.get? call with
    | none => simp [queues, hread] at hqueues
    | some request =>
    have hgit : request.isGit = true ∧ request.bytes.isSome = true := by
      simpa [queues, hread] using hqueues
    cases hsteps with
    | idle hidle =>
      rw [show s.reading.get? call = none from hidle] at hread
      cases hread
    | uploaded _ _ _ => exact ⟨s.received call, _, _, _, _, _, rfl, rfl, rfl⟩
    | unread hread' _ hbytes =>
      rw [hread] at hread'
      cases hread'
      rw [hbytes] at hgit
      cases hgit.2
    | misdirected hread' hnot _ | resolved hread' hnot _ _ | rejected hread' hnot _ _ =>
      rw [hread] at hread'
      cases hread'
      rw [hnot] at hgit
      cases hgit.1
  | timer _ | cleanup | restore _ _ => cases hqueues

/-- A git request that is queued goes out to the first poll that waits. -/
theorem woken_gains (h : Serving H r) (hqueues : queues r.session event = true) {w : PollWaiter}
    {rest : List PollWaiter} (hwaiters : r.session.state.pollWaiters = w :: rest) :
    ∃ requests, requests ≠ [] ∧
      r.Gained (r.step H event) w.call (.json (formatPollResponse requests)) := by
  obtain ⟨s₀, call, now, request, gitPath, bytes, hstate, hanswers, hstep⟩ :=
    step_of_queues (H := H) hqueues
  have hopen := h.waking.unanswered w (hwaiters ▸ List.mem_cons_self)
  obtain ⟨requests, hsome, hwoken⟩ := AnswerLemmas.queueGitRequest_wakes (H := H) (s := s₀) call now
    request gitPath bytes (hstate ▸ hwaiters) (hanswers ▸ hopen)
  refine ⟨requests, hsome, hopen, ?_⟩
  rw [ServeRun.session_step, hstep]
  exact hwoken

/-- A respond that makes a response hands it over. -/
theorem respond_gains (h : Serving H r) {body : RespondBody} {pending : PendingGitRequest}
    (hto : respondTo r.session event = some (body, pending)) (hrenders : Renders body) :
    ∃ git response, r.Gained (r.step H event) git (.raw response) := by
  obtain ⟨response, hbuilt⟩ := Option.isSome_iff_exists.mp (respondResponse_isSome_iff.mpr hrenders)
  obtain ⟨_, _, _, _, -, -, -, -, rfl, hget⟩ := respondTo_cases hto
  refine ⟨pending.call, response, (h.sound.pending _ _ hget).2.2.1, ?_⟩
  rw [ServeRun.session_step]
  exact raw_of_respondTo h.sound hto hbuilt

theorem presents_step {call : Nat} (hcarries : Carries H r call) (token : String) :
    (r.step H event).Presents call token ↔ r.Presents call token := by
  obtain ⟨request, _, _, hget, -⟩ := hcarries
  have hget' : (r.step H event).calls[call]? = some request := by
    cases event with
    | fetch request' now => exact RoleLemmas.getElem?_calls_of_some hget
    | bodyRead _ _ | timer _ | cleanup | restore _ _ => exact hget
  unfold ServeRun.Presents
  rw [hget, hget']

/-- A superseded token has no effect in a step exactly when no registration came in between. -/
theorem powerless_step_iff (h : Serving H r) :
    Powerless H r event ↔ NotSuperseded r event := by
  have hpresents : ∀ {call}, Carries H r call →
      ((r.step H event).Presents call r.session.state.sessionToken ↔ r.Since call) :=
    fun hcarries => (presents_step hcarries _).trans (presents_iff_since h.tokens hcarries)
  have hreads : ∀ {call request}, r.session.reading.get? call = some request →
      request.isGit = false → Carries H r call := by
    intro call request hread hgit
    refine h.tokens.reading call request hread ?_
    rcases (h.roles.reading call request hread).2 with hgit' | hrespond
    · rw [hgit] at hgit'
      cases hgit'
    · exact hrespond
  constructor
  · intro hpowerless
    refine ⟨fun hqueues w rest hwaiters => ?_, fun call now body pending hevent hto hrenders => ?_⟩
    · have hmem : w ∈ r.session.state.pollWaiters := hwaiters ▸ List.mem_cons_self
      obtain ⟨requests, hsome, hgained⟩ := woken_gains h hqueues hwaiters
      exact (hpresents (h.tokens.waiters w hmem)).mp (hpowerless.polls w.call requests hsome
        (WakingLemmas.routed_step (h.roles.waiters w hmem)) hgained)
    · obtain ⟨git, response, hgained⟩ := respond_gains h hto hrenders
      obtain ⟨_, _, request, _, hevent', hread, hpath, -⟩ := respondTo_cases hto
      subst hevent
      cases hevent'
      refine (hpresents (hreads hread ?_)).mp (hpowerless.responds call now git response rfl hgained)
      simp [GitServeRequest.isGit, hpath]
  · intro hsince
    refine ⟨fun call requests hsome hpoll hgained => ?_, fun call now git response hevent hgained =>
      ?_⟩
    · rcases poll_gain_cases h hsome hpoll hgained with ⟨request, now, rfl, rfl, hallowed⟩ |
        ⟨hqueues, w, rest, hwaiters, rfl⟩
      · refine ⟨request, ?_, presentedToken_of_allowed hallowed⟩
        change (r.calls ++ [request])[r.session.nextCall]? = some request
        rw [h.roles.count]
        exact RoleLemmas.getElem?_calls
      · exact (hpresents (h.tokens.waiters w (hwaiters ▸ List.mem_cons_self))).mpr
          (hsince.woken hqueues w rest hwaiters)
    · obtain ⟨call', now', body, pending, request, hevent', hto, hrenders, hread, hgit⟩ :=
        raw_gain_cases hgained
      subst hevent
      cases hevent'
      exact (hpresents (hreads hread hgit)).mpr
        (hsince.responds call now body pending rfl hto hrenders)

end

/-- A superseded token is powerless at every step of a run, if and only if at every step no
registration came between the poll that is woken, or the respond that is carried out, and it. -/
theorem superseded_powerless_iff (H : GitServeHost) (events : List GitServeEvent)
    (hserved : ∀ saved now, GitServeEvent.restore saved now ∉ events) :
    Along (ServeRun.step H) (Powerless H) ServeRun.init events ↔
      Along (ServeRun.step H) NotSuperseded ServeRun.init events := by
  have hruns : ∀ (events : List GitServeEvent) (r : ServeRun), Serving H r →
      (∀ saved now, GitServeEvent.restore saved now ∉ events) →
      (Along (ServeRun.step H) (Powerless H) r events ↔
        Along (ServeRun.step H) NotSuperseded r events) := by
    intro events
    induction events with
    | nil => exact fun _ _ _ => Iff.rfl
    | cons event rest ih =>
      intro r hserving hno
      refine and_congr (powerless_step_iff hserving) (ih _ (serving_step hserving ?_) ?_)
      · rintro saved now rfl
        exact hno saved now List.mem_cons_self
      · exact fun saved now hmem => hno saved now (List.mem_cons_of_mem event hmem)
  exact hruns events _ (serving_init H) hserved

/-- Two polls are parked under the token of the session, and the first one is woken. -/
theorem current_powerless :
    Along (ServeRun.step toyHost) (Powerless toyHost) ServeRun.init twoPolls := by
  refine (superseded_powerless_iff toyHost twoPolls (by simp [twoPolls])).mpr ?_
  have hquiet : ∀ {r : ServeRun} {request now}, queues r.session (.fetch request now) = false →
      NotSuperseded r (.fetch request now) :=
    fun hnot => ⟨fun h => by simp [hnot] at h, nofun⟩
  refine ⟨hquiet (by decide), hquiet (by decide), hquiet (by decide), ⟨?_, nofun⟩, trivial⟩
  intro _ w rest hwaiters k hk
  have hfirst : w.call = 1 := by
    cases hwaiters
    rfl
  have hlast : k = 0 := by
    cases hk
    rfl
  omega

/-- A poll is parked, the session is registered anew, and a clone asks for the refs. -/
def supersededPoll : List GitServeEvent := [
  .fetch ⟨.post "/register" [] [] ⟨"", none⟩, none⟩ 0,
  .fetch ⟨.get "/poll" [("session_token", "r")], none⟩ 1,
  .fetch ⟨.post "/register" [] [] ⟨"", none⟩, none⟩ 2,
  .fetch ⟨.get "/git/info/refs" [("service", "git-upload-pack")], none⟩ 3]

/-- The poll gets the request of the clone, under the token of the first registration. -/
theorem superseded_poll_served :
    ¬ Along (ServeRun.step toyHost) (Powerless toyHost) ServeRun.init supersededPoll := by
  rintro ⟨-, -, -, hlast, -⟩
  obtain ⟨request, hget, htoken⟩ := hlast.polls 1 [pendingGitRequest toyHost 3 3
    (.get "/git/info/refs" [("service", "git-upload-pack")]) "/info/refs" none 3] (by decide)
    ⟨⟨.get "/poll" [("session_token", "r")], none⟩, by decide, by decide⟩
    ⟨by decide, by decide⟩
  cases hget
  exact absurd htoken (by decide)

end GitServe

end BitRelay
