import BitRelay.GitServe.Invariant

/-!
# The durable object of a session

`GitServeSession` (`git_serve_session.ts`) keeps the token, the activity and the
time of registration in its storage, and writes them after a register only. When
the object is built again, `restore` brings them back and arms the session timer
for a whole `sessionTtlMs` once more.

The clock does not pass an armed timer before it has fired. The numbers of calls
go on over restarts, so that no token is drawn twice.

Results:
1. `object_good_after`: an object that was not rebuilt since its register has its
   session timer armed for the time of the register plus `sessionTtlMs`.
2. `accepted_in_time_iff`: in a run every accepted token is in time if and only if
   the rebuilt objects of the run meet their tokens in time.
-/

namespace BitRelay

/-- The object, its storage, and what the runs of it have to remember: `issued` are the tokens
with the times of their registers, `expired` the tokens whose session timer fired, and `rebuilt`
says that the object was built from storage since the last register. -/
structure GitServeObject where
  session : GitServe
  stored : Option PersistableSessionState
  /-- registers whose `persist` is to come -/
  persists : Nat
  now : Nat
  issued : OrdMap String Nat
  expired : List String
  rebuilt : Bool
  deriving DecidableEq

inductive ObjectEvent
  | advance (now : Nat)
  | fetch (request : GitServeRequest)
  | bodyRead (call : Nat)
  | timer (id : Nat)
  | persist
  /-- eviction or restart: the object is built from its storage -/
  | rebuild
  deriving DecidableEq

namespace GitServeObject

def init : GitServeObject where
  session := .init
  stored := none
  persists := 0
  now := 0
  issued := ∅
  expired := []
  rebuilt := false

def isRegister (request : Request) : Bool :=
  request.pathname == "/register" && request.method == "POST"

def fetch (H : GitServeHost) (request : GitServeRequest) (o : GitServeObject) : GitServeObject :=
  let session := o.session.fetch H request o.now
  if isRegister request.request then
    { o with
      session
      persists := o.persists + 1
      issued := o.issued.set (H.sessionToken o.session.nextCall) o.now
      rebuilt := false }
  else { o with session }

/-- A due timer fires. -/
def fireTimer (id : Nat) (o : GitServeObject) : GitServeObject :=
  match o.session.timers.get? id with
  | none => o
  | some timer =>
    if timer.due ≤ o.now then
      { o with
        session := o.session.fireTimer id
        expired :=
          if timer.task = .closeSession ∧ o.session.state.active = true then
            o.expired ++ [o.session.state.sessionToken]
          else o.expired }
    else o

def persist (o : GitServeObject) : GitServeObject :=
  if o.persists = 0 then o
  else { o with stored := some o.session.persistableState, persists := o.persists - 1 }

/-- A new object: what is in memory is gone, and the stored session is restored. -/
def rebuild (H : GitServeHost) (o : GitServeObject) : GitServeObject :=
  let session : GitServe := { GitServe.init with nextCall := o.session.nextCall }
  match o.stored with
  | none => { o with session, persists := 0 }
  | some saved =>
    { o with session := session.restore H saved o.now, persists := 0, rebuilt := true }

def step (H : GitServeHost) (o : GitServeObject) : ObjectEvent → GitServeObject
  | .advance now =>
    if o.now ≤ now ∧ ∀ timer ∈ o.session.timers.values, now ≤ timer.due then { o with now }
    else o
  | .fetch request => o.fetch H request
  | .bodyRead call => { o with session := o.session.bodyRead H call o.now }
  | .timer id => o.fireTimer id
  | .persist => o.persist
  | .rebuild => o.rebuild H

def after (H : GitServeHost) (events : List ObjectEvent) : GitServeObject :=
  runFrom (step H) init events

/-! ## Statements -/

/-- Poll, respond and info: the requests that need the session token. -/
def needsToken (request : Request) : Bool :=
  (request.pathname == "/info" && request.method == "GET") ||
    (request.pathname == "/poll" && request.method == "GET") ||
    (request.pathname == "/respond" && request.method == "POST")

/-- The token was issued at most `sessionTtlMs` ago, and its session did not expire. -/
def InTime (H : GitServeHost) (o : GitServeObject) (token : String) : Prop :=
  (∃ t, o.issued.get? token = some t ∧ o.now ≤ t + H.sessionTtlMs) ∧ token ∉ o.expired

/-- A token that the step accepts is in time. -/
def AcceptedInTime (H : GitServeHost) (o : GitServeObject) : ObjectEvent → Prop
  | .fetch request => needsToken request.request = true →
      o.session.validateToken request.request = none →
      InTime H o (GitServe.presentedToken request.request)
  | _ => True

/-- A request that presents the token of an active session to an object that was rebuilt since
the register comes at most `sessionTtlMs` after the register, and before the session expired. -/
def MeetsRebuiltInTime (H : GitServeHost) (o : GitServeObject) : ObjectEvent → Prop
  | .fetch request => o.rebuilt = true → needsToken request.request = true →
      o.session.state.active = true →
      GitServe.presentedToken request.request = o.session.state.sessionToken →
      (∀ t, o.session.state.registeredAt = some t → o.now ≤ t + H.sessionTtlMs) ∧
        o.session.state.sessionToken ∉ o.expired
  | _ => True

/-! ## The invariant -/

/-- The stored and the present session name the time at which their token was issued. The timer
of a session that was not rebuilt is armed for the end of its time. -/
structure Good (H : GitServeHost) (o : GitServeObject) : Prop where
  sound : GitServe.Sound H o.session
  active : o.session.state.active = true → ∃ t, o.session.state.registeredAt = some t ∧
    o.issued.get? o.session.state.sessionToken = some t
  stored : ∀ saved, o.stored = some saved → saved.active = true →
    ∃ t, saved.registeredAt = some t ∧ o.issued.get? saved.sessionToken = some t
  timer : o.session.state.active = true → o.rebuilt = false →
    o.session.state.sessionToken ∉ o.expired ∧ ∃ id t, o.session.sessionTimer = some id ∧
      o.session.state.registeredAt = some t ∧
      o.session.timers.get? id = some ⟨t + H.sessionTtlMs, .closeSession⟩
  due : ∀ id timer, o.session.timers.get? id = some timer → o.now ≤ timer.due
  issued : ∀ token t, o.issued.get? token = some t →
    ∃ call < o.session.nextCall, token = H.sessionToken call
  expired : ∀ token ∈ o.expired, ∃ call < o.session.nextCall, token = H.sessionToken call

theorem good_init (H : GitServeHost) : Good H init where
  sound := GitServe.sound_init H
  active := nofun
  stored := nofun
  timer := nofun
  due := nofun
  issued := nofun
  expired := nofun

/-! ## What the parts of the session leave alone -/

namespace RestartLemmas

open GitServe GitServe.SoundLemmas

/-- The session fields and the session timer stay, no old timer comes back, and the new ones are
not due yet. -/
structure Frame (now : Nat) (s s' : GitServe) : Prop where
  active : s'.state.active = s.state.active
  token : s'.state.sessionToken = s.state.sessionToken
  registeredAt : s'.state.registeredAt = s.state.registeredAt
  sessionTimer : s'.sessionTimer = s.sessionTimer
  keeps : ∀ id, s.sessionTimer = some id → s'.timers.get? id = s.timers.get? id
  due : ∀ id timer, s'.timers.get? id = some timer →
    s.timers.get? id = some timer ∨ now ≤ timer.due
  nextCall : s.nextCall ≤ s'.nextCall

variable {H : GitServeHost} {s s' : GitServe} {now : Nat}

theorem Frame.refl (s : GitServe) : Frame now s s :=
  ⟨rfl, rfl, rfl, rfl, fun _ _ => rfl, fun _ _ h => .inl h, Nat.le_refl _⟩

theorem Frame.trans {s'' : GitServe} (h : Frame now s s') (h' : Frame now s' s'') :
    Frame now s s'' where
  active := h'.active.trans h.active
  token := h'.token.trans h.token
  registeredAt := h'.registeredAt.trans h.registeredAt
  sessionTimer := h'.sessionTimer.trans h.sessionTimer
  keeps id hid := (h'.keeps id (h.sessionTimer.trans hid)).trans (h.keeps id hid)
  due id timer ht := by
    rcases h'.due id timer ht with hold | hnew
    · exact h.due id timer hold
    · exact .inr hnew
  nextCall := Nat.le_trans h.nextCall h'.nextCall

/-- Nothing but the queues of the session is changed. -/
theorem frame_of_same (hactive : s'.state.active = s.state.active)
    (htoken : s'.state.sessionToken = s.state.sessionToken)
    (hregistered : s'.state.registeredAt = s.state.registeredAt)
    (hsession : s'.sessionTimer = s.sessionTimer) (htimers : s'.timers = s.timers)
    (hnext : s.nextCall ≤ s'.nextCall) : Frame now s s' :=
  ⟨hactive, htoken, hregistered, hsession, fun _ _ => by rw [htimers],
    fun _ _ ht => .inl (htimers ▸ ht), hnext⟩

theorem frame_settle (s : GitServe) (call : Nat) (answer : GitAnswer) :
    Frame now s (s.settle call answer) := frame_of_same rfl rfl rfl rfl rfl (Nat.le_refl _)

theorem frame_setTimeout (h : Sound H s) {due : Nat} (task : TimerTask) (hdue : now ≤ due) :
    Frame now s (s.setTimeout due task) := by
  refine ⟨rfl, rfl, rfl, rfl, fun id hid => ?_, fun id timer ht => ?_, Nat.le_refl _⟩
  · exact OrdMap.get?_set_of_ne _ (h.sessionTimer id hid).1.ne _
  · change (s.timers.set s.nextTimer _).get? id = some timer at ht
    rw [OrdMap.get?_set] at ht
    split at ht
    · cases ht
      exact .inr hdue
    · exact .inl ht

/-- Clearing a timer that is not the session's. -/
theorem frame_clearTimeout (h : Sound H s) {id : Nat}
    (hother : ∀ timer, s.timers.get? id = some timer → timer.task ≠ .closeSession) :
    Frame now s (s.clearTimeout id) := by
  refine ⟨rfl, rfl, rfl, rfl, fun id' hid => ?_, fun id' timer ht => ?_, Nat.le_refl _⟩
  · change (s.timers.erase id).get? id' = s.timers.get? id'
    rw [OrdMap.get?_erase]
    split
    · next heq =>
      cases hget : s.timers.get? id' with
      | none => rfl
      | some timer =>
        exact absurd ((h.sessionTimer id' hid).2 timer hget) (hother timer (heq ▸ hget))
    · rfl
  · change (s.timers.erase id).get? id' = some timer at ht
    rw [OrdMap.get?_erase] at ht
    split at ht
    · cases ht
    · exact .inl ht

theorem frame_drain (h : Sound H s) : Frame now s s.drainPendingToPollWaiters := by
  unfold drainPendingToPollWaiters
  split
  · exact .refl s
  · next w rest hwaiters =>
    split
    · exact .refl s
    · have hw := h.waiters w (hwaiters ▸ List.mem_cons_self)
      have hrest := sound_waiters h rest fun v hv =>
        h.waiters v (hwaiters ▸ List.mem_cons_of_mem w hv)
      refine Frame.trans ?_ (frame_settle _ _ _)
      have hshift : Frame now s { s with state := { s.state with pollWaiters := rest } } :=
        frame_of_same rfl rfl rfl rfl rfl (Nat.le_refl _)
      refine hshift.trans (frame_clearTimeout hrest fun timer ht => ?_)
      rw [hw.2.2.2.2 timer ht]
      nofun

theorem frame_queueGitRequest (h : Sound H s) {call : Nat} (hfresh : Fresh s call)
    (request : Request) (gitPath : String) (bytes : Option Bytes) :
    Frame now s (s.queueGitRequest H call now request gitPath bytes) := by
  refine Frame.trans ?_ (frame_drain (sound_enqueue h hfresh now request gitPath bytes))
  have htimer : Frame now s (s.setTimeout (now + REQUEST_TIMEOUT_MS)
      (.requestTimeout (H.requestId call) call)) :=
    frame_setTimeout h _ (Nat.le_add_right _ _)
  exact htimer.trans (frame_of_same rfl rfl rfl rfl rfl (Nat.le_refl _))

theorem frame_resolvePending (call : Nat) (body : RespondBody) (pending : PendingGitRequest)
    (s : GitServe) : Frame now s (s.resolvePending H call now body pending) := by
  have hemit : ∀ parts : ResponseParts, Frame now s (if pending.incomingRefs ≠ [] ∧
      isSuccessfulHttpStatus parts.status then
        s.emitIncomingRefEvents H call now pending.incomingRefs else s) := by
    intro parts
    split
    · unfold emitIncomingRefEvents
      split
      · exact .refl s
      · exact frame_of_same rfl rfl rfl rfl rfl (Nat.le_refl _)
    · exact .refl s
  unfold resolvePending
  split
  · simp only
    split
    · exact ((hemit _).trans (frame_settle _ _ _)).trans (frame_settle _ _ _)
    · exact (hemit _).trans (frame_settle _ _ _)
  · exact frame_settle _ _ _

theorem frame_handleRespond (h : Sound H s) (call : Nat) (request : Request) :
    Frame now s (s.handleRespond H call now request) := by
  unfold handleRespond
  split
  · next fields _ =>
    simp only
    split
    · exact frame_settle _ _ _
    · split
      · exact frame_settle _ _ _
      · next pending hget =>
        obtain ⟨-, -, -, due, hdue⟩ := h.pending _ _ hget
        refine Frame.trans ?_ (frame_resolvePending _ _ _ _)
        have hdelete : Frame now s
            (s.deletePending (readRespondBody (.obj fields)).requestId) :=
          frame_of_same rfl rfl rfl rfl rfl (Nat.le_refl _)
        refine hdelete.trans (frame_clearTimeout (sound_deletePending h _) fun timer ht => ?_)
        cases ht.symm.trans hdue
        intro htask
        cases htask
  · exact frame_settle _ _ _

theorem frame_handlePoll (h : Sound H s) (call : Nat) (request : Request) :
    Frame now s (s.handlePoll call now request) := by
  unfold handlePoll
  split
  · exact frame_settle _ _ _
  · split
    · exact frame_settle _ _ _
    · have htimer : Frame now s (s.setTimeout (now + pollTimeoutMs request) (.pollTimeout call)) :=
        frame_setTimeout h _ (Nat.le_add_right _ _)
      exact htimer.trans (frame_of_same rfl rfl rfl rfl rfl (Nat.le_refl _))

theorem frame_handleGitRequest (h : Sound H s) {call : Nat} (hfresh : Fresh s call)
    (request : GitServeRequest) (gitPath : String) :
    Frame now s (s.handleGitRequest H call now request gitPath) := by
  unfold handleGitRequest
  split
  · exact frame_settle _ _ _
  · split
    · exact frame_of_same rfl rfl rfl rfl rfl (Nat.le_refl _)
    · exact frame_queueGitRequest h hfresh _ _ _

/-- A call other than a register. -/
theorem frame_fetch (h : Sound H s) (request : GitServeRequest)
    (hregister : isRegister request.request = false) : Frame now s (s.fetch H request now) := by
  have hnext := sound_nextCall h
  have hfresh := fresh_nextCall h
  have hcount : Frame now s { s with nextCall := s.nextCall + 1 } :=
    frame_of_same rfl rfl rfl rfl rfl (Nat.le_succ _)
  refine hcount.trans ?_
  unfold GitServe.fetch
  simp only
  split
  · next hpath =>
    simp only [isRegister, hpath.1, hpath.2, beq_self_eq_true, Bool.and_self] at hregister
    cases hregister
  split
  · unfold handleInfo
    split <;> exact frame_settle _ _ _
  split
  · exact frame_handlePoll hnext _ _
  split
  · split
    · exact frame_settle _ _ _
    · exact frame_of_same rfl rfl rfl rfl rfl (Nat.le_refl _)
  · split
    · exact frame_handleGitRequest hnext hfresh _ _
    · exact frame_settle _ _ _

theorem frame_bodyRead (h : Sound H s) (call : Nat) : Frame now s (s.bodyRead H call now) := by
  unfold bodyRead
  split
  · exact .refl s
  next request hread =>
  have hstop := sound_stopReading h call
  have hframe : Frame now s { s with reading := s.reading.erase call } :=
    frame_of_same rfl rfl rfl rfl rfl (Nat.le_refl _)
  refine hframe.trans ?_
  simp only
  split
  · exact frame_handleRespond hstop _ _
  · split
    · exact frame_queueGitRequest hstop (fresh_stopReading h hread) _ _ _
    · exact frame_settle _ _ _

/-- A timer fires that does not close the session. -/
theorem frame_fireTimer (h : Sound H s) {id : Nat} {timer : Timer}
    (hget : s.timers.get? id = some timer) (htask : timer.task ≠ .closeSession) :
    Frame now s (s.fireTimer id) := by
  have hclear : Frame now s (s.clearTimeout id) := frame_clearTimeout h fun t ht => by
    cases hget.symm.trans ht
    exact htask
  unfold GitServe.fireTimer
  simp only [hget]
  refine hclear.trans ?_
  split
  · next hclose => exact absurd hclose htask
  · have hdelete : ∀ requestId, Frame now (s.clearTimeout id)
        ((s.clearTimeout id).deletePending requestId) := fun requestId =>
      frame_of_same rfl rfl rfl rfl rfl (Nat.le_refl _)
    exact (hdelete _).trans (frame_settle _ _ _)
  · refine Frame.trans ?_ (frame_settle _ _ _)
    exact frame_of_same rfl rfl rfl rfl rfl (Nat.le_refl _)

/-! ## Closing and registering -/

/-- No timer is armed that was not armed before. -/
theorem timers_cleanup (s : GitServe) {id : Nat} {timer : Timer}
    (h : s.cleanup.timers.get? id = some timer) : s.timers.get? id = some timer := by
  have hclear : ∀ (s : GitServe) (id' : Nat), (s.clearTimeout id').timers.get? id = some timer →
      s.timers.get? id = some timer := by
    intro s id' ht
    change (s.timers.erase id').get? id = some timer at ht
    rw [OrdMap.get?_erase] at ht
    split at ht
    · cases ht
    · exact ht
  have hrequests : ∀ (pending : List PendingGitRequest) (s : GitServe),
      (pending.foldl closeRequest s).timers.get? id = some timer →
        s.timers.get? id = some timer := by
    intro pending
    induction pending with
    | nil => exact fun _ ht => ht
    | cons p rest ih => exact fun s ht => hclear s p.timeoutId (ih (s.closeRequest p) ht)
  have hwaiters : ∀ (waiters : List PollWaiter) (s : GitServe),
      (waiters.foldl closeWaiter s).timers.get? id = some timer →
        s.timers.get? id = some timer := by
    intro waiters
    induction waiters with
    | nil => exact fun _ ht => ht
    | cons w rest ih => exact fun s ht => hclear s w.timeoutId (ih (s.closeWaiter w) ht)
  have hsession : s.clearSessionTimer.timers.get? id = some timer →
      s.timers.get? id = some timer := by
    unfold clearSessionTimer
    cases s.sessionTimer with
    | none => exact fun ht => ht
    | some id' => exact hclear s id'
  unfold cleanup at h
  have hclosed := hwaiters _ _ h
  exact hsession (hrequests _ _ hclosed)

theorem nextCall_cleanup (s : GitServe) : s.cleanup.nextCall = s.nextCall := by
  have hwaiters : ∀ (waiters : List PollWaiter) (s : GitServe),
      (waiters.foldl closeWaiter s).nextCall = s.nextCall := by
    intro waiters
    induction waiters with
    | nil => exact fun _ => rfl
    | cons w rest ih => exact fun s => ih (s.closeWaiter w)
  have hsession : s.clearSessionTimer.nextCall = s.nextCall := by
    unfold clearSessionTimer
    cases s.sessionTimer <;> rfl
  have hrequests := (closeRequests_state s.clearSessionTimer
    s.clearSessionTimer.state.pendingRequests.values).2.1
  refine (hwaiters _ _).trans ?_
  exact hrequests.trans hsession

/-- The session timer is armed for a whole `sessionTtlMs`; the other timers are old ones. -/
theorem resetSessionTimer_timer (H : GitServeHost) (now : Nat) (s : GitServe) :
    (s.resetSessionTimer H now).state = s.state ∧
    (s.resetSessionTimer H now).nextCall = s.nextCall ∧
    (∃ id, (s.resetSessionTimer H now).sessionTimer = some id ∧
      (s.resetSessionTimer H now).timers.get? id = some ⟨now + H.sessionTtlMs, .closeSession⟩) ∧
    ∀ id timer, (s.resetSessionTimer H now).timers.get? id = some timer →
      s.timers.get? id = some timer ∨ now ≤ timer.due := by
  have hset : ∀ timers : OrdMap Nat Timer, (∀ id timer, timers.get? id = some timer →
      s.timers.get? id = some timer) → ∀ id timer,
      (timers.set s.nextTimer ⟨now + H.sessionTtlMs, .closeSession⟩).get? id = some timer →
      s.timers.get? id = some timer ∨ now ≤ timer.due := by
    intro timers hold id timer ht
    rw [OrdMap.get?_set] at ht
    split at ht
    · cases ht
      exact .inr (Nat.le_add_right _ _)
    · exact .inl (hold id timer ht)
  unfold resetSessionTimer
  cases s.sessionTimer with
  | none => exact ⟨rfl, rfl, ⟨_, rfl, OrdMap.get?_set_self _ _ _⟩, hset _ fun _ _ ht => ht⟩
  | some id' =>
    refine ⟨rfl, rfl, ⟨_, rfl, OrdMap.get?_set_self _ _ _⟩, hset _ fun id timer ht => ?_⟩
    change (s.timers.erase id').get? id = some timer at ht
    rw [OrdMap.get?_erase] at ht
    split at ht
    · cases ht
    · exact ht

end RestartLemmas

/-! ## Steps -/

open GitServe RestartLemmas

section
variable {H : GitServeHost} {o : GitServeObject}

/-- A step that keeps the session as it is keeps the invariant. -/
theorem good_frame (h : Good H o) {session : GitServe} (hsound : Sound H session)
    (hframe : Frame o.now o.session session) : Good H { o with session } where
  sound := hsound
  active hactive := by
    rw [hframe.registeredAt, hframe.token]
    exact h.active (hframe.active.symm.trans hactive)
  stored := h.stored
  timer hactive hrebuilt := by
    obtain ⟨hexpired, id, t, hid, ht, htimer⟩ :=
      h.timer (hframe.active.symm.trans hactive) hrebuilt
    refine ⟨by rw [hframe.token]; exact hexpired, id, t, hframe.sessionTimer.trans hid,
      hframe.registeredAt.trans ht, (hframe.keeps id hid).trans htimer⟩
  due id timer ht := by
    rcases hframe.due id timer ht with hold | hnew
    · exact h.due id timer hold
    · exact hnew
  issued token t ht := by
    obtain ⟨call, hlt, hcall⟩ := h.issued token t ht
    exact ⟨call, Nat.lt_of_lt_of_le hlt hframe.nextCall, hcall⟩
  expired token ht := by
    obtain ⟨call, hlt, hcall⟩ := h.expired token ht
    exact ⟨call, Nat.lt_of_lt_of_le hlt hframe.nextCall, hcall⟩

/-- What a register leaves. -/
theorem fetch_register (s : GitServe) {request : GitServeRequest} (now : Nat)
    (hregister : isRegister request.request = true) :
    s.fetch H request now =
      ({ s with nextCall := s.nextCall + 1 } : GitServe).handleRegister H s.nextCall now := by
  unfold GitServe.fetch
  simp only [isRegister, Bool.and_eq_true, beq_iff_eq] at hregister
  simp only [hregister.1, hregister.2, and_self, if_true]

theorem good_register (h : Good H o) {request : GitServeRequest}
    (hregister : isRegister request.request = true) : Good H (o.fetch H request) := by
  have hsound := SoundLemmas.sound_fetch h.sound request o.now
  have hfetch := fetch_register (H := H) o.session o.now hregister
  obtain ⟨hstate, hnext, ⟨id, hid, htimer⟩, hdue⟩ := resetSessionTimer_timer H o.now
    { o.session with
      nextCall := o.session.nextCall + 1
      state := { o.session.state with
        sessionToken := H.sessionToken o.session.nextCall
        active := true
        registeredAt := some o.now } }
  have hsession : (o.session.fetch H request o.now).state.sessionToken =
      H.sessionToken o.session.nextCall ∧
      (o.session.fetch H request o.now).state.registeredAt = some o.now ∧
      (o.session.fetch H request o.now).nextCall = o.session.nextCall + 1 ∧
      (o.session.fetch H request o.now).sessionTimer = some id ∧
      (o.session.fetch H request o.now).timers.get? id =
        some ⟨o.now + H.sessionTtlMs, .closeSession⟩ ∧
      ∀ id timer, (o.session.fetch H request o.now).timers.get? id = some timer →
        o.session.timers.get? id = some timer ∨ o.now ≤ timer.due := by
    rw [hfetch]
    refine ⟨?_, ?_, hnext, hid, htimer, hdue⟩
    · exact congrArg GitServeSessionState.sessionToken hstate
    · exact congrArg GitServeSessionState.registeredAt hstate
  obtain ⟨htoken, hregistered, hcount, hid', htimer', hdue'⟩ := hsession
  have hnew : ∀ call < o.session.nextCall, H.sessionToken call ≠
      H.sessionToken o.session.nextCall := fun call hlt heq =>
    hlt.ne (H.sessionToken_injective heq)
  have hkeep : ∀ token t, o.issued.get? token = some t →
      (o.issued.set (H.sessionToken o.session.nextCall) o.now).get? token = some t := by
    intro token t ht
    obtain ⟨call, hlt, rfl⟩ := h.issued token t ht
    rw [OrdMap.get?_set_of_ne _ (hnew call hlt)]
    exact ht
  unfold fetch
  simp only [hregister, if_true]
  refine ⟨hsound, fun _ => ?_, fun saved hsaved hactive => ?_, fun _ _ => ?_,
    fun i timer ht => ?_, fun token t ht => ?_, fun token ht => ?_⟩
  · refine ⟨o.now, hregistered, ?_⟩
    rw [htoken]
    exact OrdMap.get?_set_self _ _ _
  · obtain ⟨t, hat, hissued⟩ := h.stored saved hsaved hactive
    exact ⟨t, hat, hkeep _ _ hissued⟩
  · refine ⟨fun hmem => ?_, id, o.now, hid', hregistered, htimer'⟩
    rw [htoken] at hmem
    obtain ⟨call, hlt, hcall⟩ := h.expired _ hmem
    exact hnew call hlt hcall.symm
  · rcases hdue' i timer ht with hold | hnew
    · exact h.due i timer hold
    · exact hnew
  · change (o.issued.set _ _).get? token = some t at ht
    rw [OrdMap.get?_set] at ht
    simp only [hcount]
    split at ht
    · next heq => exact ⟨_, Nat.lt_succ_self _, heq⟩
    · obtain ⟨call, hlt, hcall⟩ := h.issued token t ht
      exact ⟨call, Nat.lt_succ_of_lt hlt, hcall⟩
  · obtain ⟨call, hlt, hcall⟩ := h.expired token ht
    simp only [hcount]
    exact ⟨call, Nat.lt_succ_of_lt hlt, hcall⟩

theorem good_fireTimer (h : Good H o) (id : Nat) : Good H (o.fireTimer id) := by
  unfold fireTimer
  split
  · exact h
  next timer hget =>
  split
  · by_cases htask : timer.task = .closeSession
    · have hfire : o.session.fireTimer id = (o.session.clearTimeout id).cleanup := by
        unfold GitServe.fireTimer
        simp only [hget, htask]
      have hnext : (o.session.fireTimer id).nextCall = o.session.nextCall := by
        rw [hfire]
        exact nextCall_cleanup _
      have hinactive : (o.session.fireTimer id).state.active ≠ true := by
        rw [hfire]
        exact Bool.false_ne_true
      refine ⟨SoundLemmas.sound_fireTimer h.sound id, fun hactive => absurd hactive hinactive,
        h.stored, fun hactive => absurd hactive hinactive, fun i t ht => ?_, fun token t ht => ?_,
        fun token ht => ?_⟩
      · have hold : (o.session.clearTimeout id).timers.get? i = some t :=
          timers_cleanup _ (hfire ▸ ht)
        change (o.session.timers.erase id).get? i = some t at hold
        rw [OrdMap.get?_erase] at hold
        split at hold
        · cases hold
        · exact h.due i t hold
      · simp only [hnext]
        exact h.issued token t ht
      · simp only [hnext]
        by_cases hactive : o.session.state.active = true
        · simp only [if_pos (And.intro htask hactive)] at ht
          rcases List.mem_append.mp ht with hold | hnew
          · exact h.expired token hold
          · obtain ⟨t, -, hissued⟩ := h.active hactive
            rw [List.mem_singleton.mp hnew]
            exact h.issued _ t hissued
        · simp only [if_neg fun hclose : _ ∧ _ => hactive hclose.2] at ht
          exact h.expired token ht
    · rw [if_neg fun hclose => htask hclose.1]
      exact good_frame h (SoundLemmas.sound_fireTimer h.sound id)
        (frame_fireTimer h.sound hget htask)
  · exact h

theorem good_persist (h : Good H o) : Good H o.persist := by
  unfold persist
  split
  · exact h
  · refine ⟨h.sound, h.active, fun saved hsaved hactive => ?_, h.timer, h.due, h.issued, h.expired⟩
    cases hsaved
    exact h.active hactive

theorem good_rebuild (h : Good H o) : Good H (o.rebuild H) := by
  have hinit : Sound H ({ GitServe.init with nextCall := o.session.nextCall } : GitServe) :=
    sound_start H o.session.nextCall
  unfold rebuild
  simp only
  split
  · refine ⟨hinit, fun hactive => ?_, h.stored, fun hactive => ?_, fun _ _ ht => ?_, h.issued,
      h.expired⟩
    · cases hactive
    · cases hactive
    · cases ht
  · next saved hsaved =>
    have hrestored : (({ GitServe.init with nextCall := o.session.nextCall } : GitServe).restore H
        saved o.now).state = ⟨saved.active, saved.sessionToken, ∅, [], saved.registeredAt⟩ ∧
        (({ GitServe.init with nextCall := o.session.nextCall } : GitServe).restore H
          saved o.now).nextCall = o.session.nextCall ∧
        ∀ id timer, (({ GitServe.init with nextCall := o.session.nextCall } : GitServe).restore H
          saved o.now).timers.get? id = some timer → o.now ≤ timer.due := by
      unfold restore
      simp only
      split
      · obtain ⟨hstate, hnext, -, hdue⟩ := resetSessionTimer_timer H o.now
          { GitServe.init with
            nextCall := o.session.nextCall
            state := { GitServe.init.state with
              active := saved.active
              sessionToken := saved.sessionToken
              registeredAt := saved.registeredAt } }
        refine ⟨hstate, hnext, fun id timer ht => (hdue id timer ht).resolve_left fun h => ?_⟩
        cases h
      · exact ⟨rfl, rfl, fun id timer h => by cases h⟩
    obtain ⟨hstate, hnext, hdue⟩ := hrestored
    refine ⟨SoundLemmas.sound_restore hinit saved o.now, fun hactive => ?_, h.stored,
      fun _ hrebuilt => ?_, hdue, fun token t ht => ?_, fun token ht => ?_⟩
    · simp only [hstate] at hactive ⊢
      exact h.stored saved hsaved hactive
    · cases hrebuilt
    · simp only [hnext]
      exact h.issued token t ht
    · simp only [hnext]
      exact h.expired token ht

theorem good_step (h : Good H o) (event : ObjectEvent) : Good H (step H o event) := by
  cases event with
  | advance now =>
    unfold step
    simp only
    split
    · next hnow =>
      refine ⟨h.sound, h.active, h.stored, h.timer, fun id timer ht => hnow.2 timer ?_, h.issued,
        h.expired⟩
      exact List.mem_map.mpr ⟨_, OrdMap.get?_eq_some_iff.mp ht, rfl⟩
    · exact h
  | fetch request =>
    by_cases hregister : isRegister request.request = true
    · exact good_register h hregister
    · rw [Bool.not_eq_true] at hregister
      unfold step fetch
      simp only [hregister, Bool.false_eq_true, if_false]
      exact good_frame h (SoundLemmas.sound_fetch h.sound request o.now)
        (frame_fetch h.sound request hregister)
  | bodyRead call =>
    exact good_frame h (SoundLemmas.sound_bodyRead h.sound call o.now)
      (frame_bodyRead h.sound call)
  | timer id => exact good_fireTimer h id
  | persist => exact good_persist h
  | rebuild => exact good_rebuild h

/-- The invariant holds after every run. -/
theorem object_good_after (H : GitServeHost) (events : List ObjectEvent) :
    Good H (after H events) :=
  runFrom_invariant (I := Good H) (fun _ event h => good_step h event) events (good_init H)

theorem validateToken_eq_none_iff {s : GitServe} {request : Request} :
    s.validateToken request = none ↔
      s.state.active = true ∧ presentedToken request = s.state.sessionToken := by
  unfold validateToken
  cases s.state.active with
  | false => simp
  | true => simp

/-- In a good state an accepted token is in time if and only if a rebuilt object meets it in
time. -/
theorem acceptedInTime_iff (h : Good H o) (event : ObjectEvent) :
    AcceptedInTime H o event ↔ MeetsRebuiltInTime H o event := by
  cases event with
  | fetch request =>
    unfold AcceptedInTime MeetsRebuiltInTime
    simp only [validateToken_eq_none_iff]
    constructor
    · intro haccepted _ hneeds hactive htoken
      obtain ⟨⟨t, ht, hnow⟩, hexpired⟩ := haccepted hneeds ⟨hactive, htoken⟩
      rw [htoken] at ht hexpired
      refine ⟨fun t' ht' => ?_, hexpired⟩
      obtain ⟨t'', hregistered, hissued⟩ := h.active hactive
      rw [hregistered] at ht'
      cases ht'
      rw [hissued] at ht
      cases ht
      exact hnow
    · intro hmeets hneeds ⟨hactive, htoken⟩
      obtain ⟨t, hregistered, hissued⟩ := h.active hactive
      unfold InTime
      rw [htoken]
      cases hrebuilt : o.rebuilt with
      | true =>
        obtain ⟨hnow, hexpired⟩ := hmeets hrebuilt hneeds hactive htoken
        exact ⟨⟨t, hissued, hnow t hregistered⟩, hexpired⟩
      | false =>
        obtain ⟨hexpired, id, t', -, hregistered', htimer⟩ := h.timer hactive hrebuilt
        rw [hregistered] at hregistered'
        cases hregistered'
        exact ⟨⟨t, hissued, h.due id _ htimer⟩, hexpired⟩
  | advance _ | bodyRead _ | timer _ | persist | rebuild => exact Iff.rfl

end

/-- In a run every accepted token is in time if and only if the rebuilt objects of the run meet
the tokens of their sessions in time. -/
theorem accepted_in_time_iff (H : GitServeHost) (events : List ObjectEvent) :
    Along (step H) (AcceptedInTime H) init events ↔
      Along (step H) (MeetsRebuiltInTime H) init events :=
  along_congr (I := Good H) (fun _ event h => good_step h event)
    (fun _ event h => acceptedInTime_iff h event) (good_init H)

/-! ## A token that outlives its session -/

/-- A register at time 0, a restart shortly before the end of its 1000 ms, and then a request for
the session's information. -/
def restartRun : List ObjectEvent := [
  .fetch ⟨.post "/register" [] [] ⟨"", none⟩, none⟩,
  .persist,
  .advance 999,
  .rebuild,
  .advance 1500]

def infoRequest : GitServeRequest := ⟨.get "/info" [("session_token", "r")], none⟩

/-- The token of the register is accepted 1500 ms after it. -/
theorem token_accepted_late :
    ¬ Along (step toyHost) (AcceptedInTime toyHost) init (restartRun ++ [.fetch infoRequest]) := by
  intro h
  obtain ⟨⟨t, ht, hnow⟩, -⟩ := (along_concat.mp h).2 (by decide) (by decide)
  have hissued : (runFrom (step toyHost) init restartRun).issued.get?
      (presentedToken infoRequest.request) = some 0 := by decide
  rw [hissued] at ht
  cases ht
  exact absurd hnow (by decide)

end GitServeObject

end BitRelay
