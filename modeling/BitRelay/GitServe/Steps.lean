import BitRelay.GitServe.NoDrop

/-!
# What a step of a session can do

`StepsTo` lists the ways in which a session goes on at an event: the branch that
the code takes, what it found there, and the state it leaves. A run remembers the
requests of its calls; by the route of its request a call is a git request, a poll
or a respond, wherever the session holds it.

Results:
1. `stepsTo`: every step of the session goes one of these ways.
2. `roles_after`: in every run a call is held under its route.
-/

namespace BitRelay

/-! ## Routes -/

namespace GitServeRequest

def isGit (request : GitServeRequest) : Bool :=
  (GitServe.gitPath? request.request.pathname).isSome

def isPoll (request : GitServeRequest) : Bool :=
  request.request.pathname == "/poll" && request.request.method == "GET"

def isRespond (request : GitServeRequest) : Bool :=
  request.request.pathname == "/respond" && request.request.method == "POST"

def isRegister (request : GitServeRequest) : Bool :=
  request.request.pathname == "/register" && request.request.method == "POST"

end GitServeRequest

namespace GitServe

/-! ## Building a response -/

/-- What a respond makes of its body for a queued request; `none` is an exception. -/
def respondResponse (H : GitServeHost) (pending : PendingGitRequest) (body : RespondBody) :
    Option RawResponse :=
  (decodeBody body.bodyBase64).bind fun responseBody =>
    (setHeaders ∅ body.headers).bind fun headers =>
      let parts := compatParts H pending ⟨body.status, headers, responseBody⟩
      RawResponse.new parts.body parts.status parts.headers

/-- The reply to a respond that resolved its request. -/
def respondOk : GitAnswer := .json ⟨200, .obj [("ok", .bool true)]⟩

theorem respondResponse_isSome_iff {H : GitServeHost} {pending : PendingGitRequest}
    {body : RespondBody} :
    (respondResponse H pending body).isSome = true ↔ Renders body := by
  unfold respondResponse
  cases hbody : decodeBody body.bodyBase64 with
  | none =>
    refine iff_of_false nofun fun h => ?_
    obtain ⟨b, hb⟩ := NoDropLemmas.decodeBody_eq_some_iff.mpr h.base64
    rw [hbody] at hb
    cases hb
  | some responseBody =>
    cases hheaders : setHeaders ∅ body.headers with
    | none =>
      refine iff_of_false nofun fun h => ?_
      obtain ⟨b, hb⟩ := NoDropLemmas.setHeaders_eq_some_iff.mpr h.headers
      rw [hheaders] at hb
      cases hb
    | some headers =>
      have hiff : (respondResponse H pending body).isSome = true ↔
          acceptsStatus body.status (body.bodyBase64.any fun s => s != "") = true := by
        simp only [respondResponse, hbody, hheaders, Option.bind_some, RawResponse.new,
          NoDropLemmas.acceptsStatus_compatParts, NoDropLemmas.isSome_of_decodeBody hbody]
        split <;> simp_all
      simp only [respondResponse, hbody, hheaders, Option.bind_some] at hiff ⊢
      refine hiff.trans ⟨fun hstatus => ⟨NoDropLemmas.decodeBody_eq_some_iff.mp ⟨_, hbody⟩,
        NoDropLemmas.setHeaders_eq_some_iff.mp ⟨_, hheaders⟩, hstatus⟩, fun h => h.status⟩

/-- A respond hands the response over and says so, or its promise is rejected. -/
theorem resolvePending_eq (H : GitServeHost) (call now : Nat) (body : RespondBody)
    (pending : PendingGitRequest) (s : GitServe) :
    ∃ events, s.resolvePending H call now body pending =
      match respondResponse H pending body with
      | some response =>
        (({ s with events := events } : GitServe).settle pending.call (.raw response)).settle call
          respondOk
      | none => ({ s with events := events } : GitServe).settle call .rejected := by
  unfold resolvePending respondResponse
  cases decodeBody body.bodyBase64 with
  | none => exact ⟨s.events, rfl⟩
  | some responseBody =>
    cases setHeaders ∅ body.headers with
    | none => exact ⟨s.events, rfl⟩
    | some headers =>
      simp only [Option.bind_some]
      obtain ⟨events, hevents⟩ : ∃ events, (if pending.incomingRefs ≠ [] ∧
          isSuccessfulHttpStatus (compatParts H pending ⟨body.status, headers, responseBody⟩).status
            then s.emitIncomingRefEvents H call now pending.incomingRefs else s) =
          { s with events := events } := by
        split
        · unfold emitIncomingRefEvents
          split
          · exact ⟨s.events, rfl⟩
          · exact ⟨_, rfl⟩
        · exact ⟨s.events, rfl⟩
      refine ⟨events, ?_⟩
      rw [hevents]
      cases RawResponse.new _ _ _ <;> rfl

/-! ## The ways of a step -/

/-- The next call has its number. -/
def numbered (s : GitServe) : GitServe := { s with nextCall := s.nextCall + 1 }

/-- The body of a call is there. -/
def received (call : Nat) (s : GitServe) : GitServe := { s with reading := s.reading.erase call }

/-- The call awaits its body. -/
def awaiting (call : Nat) (request : GitServeRequest) (s : GitServe) : GitServe :=
  { s with reading := s.reading.set call request }

/-- A poll is parked. -/
def parking (call due : Nat) (s : GitServe) : GitServe :=
  let next := s.setTimeout due (.pollTimeout call)
  { next with state := { next.state with
    pollWaiters := next.state.pollWaiters ++ [⟨call, s.nextTimer⟩] } }

/-- A poll is parked no longer. -/
def unparking (call : Nat) (s : GitServe) : GitServe :=
  { s with state := { s.state with
    pollWaiters := s.state.pollWaiters.filter fun w => decide (w.call ≠ call) } }

/-- A request leaves the queue, with its timer. -/
def taking (requestId : String) (pending : PendingGitRequest) (s : GitServe) : GitServe :=
  (s.deletePending requestId).clearTimeout pending.timeoutId

/-- The first half of `cleanup`: the queued requests are answered. -/
def closingRequests (s : GitServe) : GitServe :=
  let closed := s.clearSessionTimer.state.pendingRequests.values.foldl closeRequest
    s.clearSessionTimer
  { closed with state := { closed.state with pendingRequests := ∅ } }

/-- The second half: the parked polls are answered. -/
def closingWaiters (s : GitServe) : GitServe :=
  let closed := s.state.pollWaiters.foldl closeWaiter s
  { closed with state := { closed.state with pollWaiters := [], active := false } }

theorem cleanup_eq (s : GitServe) : s.cleanup = s.closingRequests.closingWaiters := rfl

/-- Nobody awaits this body, or the timer is disarmed. -/
def Idle (s : GitServe) : GitServeEvent → Prop
  | .bodyRead call _ => s.reading.get? call = none
  | .timer id => s.timers.get? id = none
  | _ => False

/-- The ways in which a session goes on at an event. -/
inductive StepsTo (H : GitServeHost) (s : GitServe) : GitServeEvent → GitServe → Prop
  | idle {event : GitServeEvent} (hidle : Idle s event) : StepsTo H s event s
  | registered {request : GitServeRequest} {now : Nat} (hroute : request.isRegister = true) :
    StepsTo H s (.fetch request now) (s.numbered.handleRegister H s.nextCall now)
  | refused {request : GitServeRequest} {now : Nat} {denied : Response}
      (hroute : request.isGit = false ∧ request.isRegister = false)
      (hdenied : s.validateToken request.request = some denied) :
    StepsTo H s (.fetch request now) (s.numbered.settle s.nextCall (.json denied))
  /-- an info, or a path that is not there -/
  | told {request : GitServeRequest} {now : Nat} {response : Response}
      (hroute : request.isGit = false ∧ request.isRegister = false)
      (hother : request.isPoll = false ∧ request.isRespond = false) :
    StepsTo H s (.fetch request now) (s.numbered.settle s.nextCall (.json response))
  | handed {request : GitServeRequest} {now : Nat} (hroute : request.isPoll = true)
      (hallowed : s.validateToken request.request = none)
      (hpending : 0 < s.state.pendingRequests.size) :
    StepsTo H s (.fetch request now) (s.numbered.settle s.nextCall
      (.json (formatPollResponse s.state.pendingRequests.values)))
  | parked {request : GitServeRequest} {now : Nat} (hroute : request.isPoll = true)
      (hallowed : s.validateToken request.request = none)
      (hpending : s.state.pendingRequests.size = 0) :
    StepsTo H s (.fetch request now)
      (s.numbered.parking s.nextCall (now + pollTimeoutMs request.request))
  | responding {request : GitServeRequest} {now : Nat} (hroute : request.isRespond = true)
      (hallowed : s.validateToken request.request = none) :
    StepsTo H s (.fetch request now) (s.numbered.awaiting s.nextCall request)
  | inactive {request : GitServeRequest} {now : Nat} (hroute : request.isGit = true)
      (hinactive : s.state.active = false) :
    StepsTo H s (.fetch request now) (s.numbered.fail s.nextCall "session not active" 404)
  | uploading {request : GitServeRequest} {now : Nat} (hroute : request.isGit = true)
      (hactive : s.state.active = true) (hmethod : request.request.method = "POST") :
    StepsTo H s (.fetch request now) (s.numbered.awaiting s.nextCall request)
  | queued {request : GitServeRequest} {now : Nat} {gitPath : String}
      (hroute : request.isGit = true) (hactive : s.state.active = true)
      (hmethod : request.request.method ≠ "POST")
      (hpath : gitPath? request.request.pathname = some gitPath) :
    StepsTo H s (.fetch request now)
      (s.numbered.queueGitRequest H s.nextCall now request.request gitPath none)
  | uploaded {call now : Nat} {request : GitServeRequest} {gitPath : String} {bytes : Bytes}
      (hread : s.reading.get? call = some request) (hroute : request.isGit = true)
      (hbytes : request.bytes = some bytes)
      (hpath : gitPath? request.request.pathname = some gitPath) :
    StepsTo H s (.bodyRead call now)
      ((s.received call).queueGitRequest H call now request.request gitPath (some bytes))
  | unread {call now : Nat} {request : GitServeRequest}
      (hread : s.reading.get? call = some request) (hroute : request.isGit = true)
      (hbytes : request.bytes = none) :
    StepsTo H s (.bodyRead call now) ((s.received call).settle call .rejected)
  | misdirected {call now : Nat} {request : GitServeRequest} {message : String} {status : Nat}
      (hread : s.reading.get? call = some request) (hroute : request.isGit = false)
      (hto : ∀ body pending, respondTo s (.bodyRead call now) = some (body, pending) →
        body.requestId = "") :
    StepsTo H s (.bodyRead call now) ((s.received call).fail call message status)
  | resolved {call now : Nat} {request : GitServeRequest} {body : RespondBody}
      {pending : PendingGitRequest} {response : RawResponse} {events : List IncomingRefRelayEvent}
      (hread : s.reading.get? call = some request) (hroute : request.isGit = false)
      (hto : respondTo s (.bodyRead call now) = some (body, pending))
      (hbuilt : respondResponse H pending body = some response) :
    StepsTo H s (.bodyRead call now)
      ((({ (s.received call).taking body.requestId pending with events := events } :
        GitServe).settle pending.call (.raw response)).settle call respondOk)
  | rejected {call now : Nat} {request : GitServeRequest} {body : RespondBody}
      {pending : PendingGitRequest} {events : List IncomingRefRelayEvent}
      (hread : s.reading.get? call = some request) (hroute : request.isGit = false)
      (hto : respondTo s (.bodyRead call now) = some (body, pending))
      (hbuilt : respondResponse H pending body = none) :
    StepsTo H s (.bodyRead call now)
      (({ (s.received call).taking body.requestId pending with events := events } :
        GitServe).settle call .rejected)
  | requestTimedOut {id due : Nat} {requestId : String} {call : Nat}
      (hget : s.timers.get? id = some ⟨due, .requestTimeout requestId call⟩) :
    StepsTo H s (.timer id)
      (((s.clearTimeout id).deletePending requestId).fail call "request timeout" 504)
  | pollTimedOut {id due call : Nat} (hget : s.timers.get? id = some ⟨due, .pollTimeout call⟩) :
    StepsTo H s (.timer id)
      (((s.clearTimeout id).unparking call).settle call (.json (formatPollResponse [])))
  | expired {id due : Nat} (hget : s.timers.get? id = some ⟨due, .closeSession⟩) :
    StepsTo H s (.timer id) (s.clearTimeout id).cleanup
  | closed : StepsTo H s .cleanup s.cleanup
  | restored {saved : PersistableSessionState} {now : Nat} :
    StepsTo H s (.restore saved now) (s.restore H saved now)

namespace StepsLemmas

variable {H : GitServeHost} {s : GitServe}

theorem isGit_of_pathname {request : GitServeRequest} {path : String}
    (h : request.request.pathname = path) (hnone : gitPath? path = none) :
    request.isGit = false := by
  unfold GitServeRequest.isGit
  rw [h, hnone]
  rfl

theorem stepsTo_fetch (request : GitServeRequest) (now : Nat) :
    StepsTo H s (.fetch request now) (s.fetch H request now) := by
  have hnumbered : ∀ r, ({ s with nextCall := s.nextCall + 1 } : GitServe).validateToken r =
      s.validateToken r := fun _ => rfl
  unfold fetch
  simp only
  split
  · next h => exact .registered (by simp [GitServeRequest.isRegister, h])
  next hregister =>
  have hregister' : request.isRegister = false := by
    simpa [GitServeRequest.isRegister] using hregister
  split
  · next h =>
    have hgit := isGit_of_pathname h.1 (by decide)
    unfold handleInfo
    rw [hnumbered]
    cases hdenied : s.validateToken request.request with
    | some denied =>
      exact .refused ⟨hgit, hregister'⟩ hdenied
    | none =>
      exact .told ⟨hgit, hregister'⟩ (by simp [GitServeRequest.isPoll, GitServeRequest.isRespond, h])
  split
  · next h =>
    have hpoll : request.isPoll = true := by simp [GitServeRequest.isPoll, h]
    unfold handlePoll
    rw [hnumbered]
    cases hdenied : s.validateToken request.request with
    | some denied =>
      exact .refused ⟨isGit_of_pathname h.1 (by decide), hregister'⟩ hdenied
    | none =>
      simp only
      split
      · next hsize => exact .handed hpoll hdenied hsize
      · next hsize => exact .parked hpoll hdenied (Nat.eq_zero_of_not_pos hsize)
  next hpoll =>
  have hpoll' : request.isPoll = false := by simpa [GitServeRequest.isPoll] using hpoll
  split
  · next h =>
    rw [hnumbered]
    cases hdenied : s.validateToken request.request with
    | some denied =>
      exact .refused ⟨isGit_of_pathname h.1 (by decide), hregister'⟩ hdenied
    | none =>
      exact .responding (by simp [GitServeRequest.isRespond, h]) hdenied
  next hrespond =>
  have hrespond' : request.isRespond = false := by simpa [GitServeRequest.isRespond] using hrespond
  cases hpath : gitPath? request.request.pathname with
  | none =>
    have hgit : request.isGit = false := by simp [GitServeRequest.isGit, hpath]
    exact .told ⟨hgit, hregister'⟩ ⟨hpoll', hrespond'⟩
  | some gitPath =>
    have hgit : request.isGit = true := by simp [GitServeRequest.isGit, hpath]
    unfold handleGitRequest
    simp only
    cases hactive : s.state.active with
    | false => exact .inactive hgit hactive
    | true =>
      simp only [Bool.true_eq_false, if_false]
      split
      · next hmethod => exact .uploading hgit hactive hmethod
      · next hmethod => exact .queued hgit hactive hmethod hpath

/-- What a respond makes of its body. -/
theorem stepsTo_handleRespond {call now : Nat} {request : GitServeRequest}
    (hread : s.reading.get? call = some request) (hpath : gitPath? request.request.pathname = none) :
    StepsTo H s (.bodyRead call now) ((s.received call).handleRespond H call now request.request) := by
  have hgit : request.isGit = false := by simp [GitServeRequest.isGit, hpath]
  have hnamed : ∀ body pending, respondTo s (.bodyRead call now) = some (body, pending) →
      ∃ fields, request.request.body.json = some (.obj fields) ∧
        body = readRespondBody (.obj fields) ∧
        s.state.pendingRequests.get? body.requestId = some pending := by
    intro body pending hto
    obtain ⟨_, _, request', fields, hevent, hread', -, hbody, rfl, hget⟩ := respondTo_cases hto
    cases hevent
    rw [hread] at hread'
    cases hread'
    exact ⟨fields, hbody, rfl, hget⟩
  unfold handleRespond
  split
  · next fields hbody =>
    simp only
    split
    · next hid =>
      refine .misdirected hread hgit fun body pending hto => ?_
      obtain ⟨fields', hbody', rfl, -⟩ := hnamed body pending hto
      rw [hbody] at hbody'
      cases hbody'
      exact hid
    cases hget : s.state.pendingRequests.get? (readRespondBody (.obj fields)).requestId with
    | none =>
      have hget' : (s.received call).state.pendingRequests.get?
          (readRespondBody (.obj fields)).requestId = none := hget
      simp only [hget']
      refine .misdirected hread hgit fun body pending hto => ?_
      obtain ⟨fields', hbody', rfl, hsome⟩ := hnamed body pending hto
      rw [hbody] at hbody'
      cases hbody'
      rw [hget] at hsome
      cases hsome
    | some pending =>
      have hget' : (s.received call).state.pendingRequests.get?
          (readRespondBody (.obj fields)).requestId = some pending := hget
      have hto : respondTo s (.bodyRead call now) =
          some (readRespondBody (.obj fields), pending) := by
        simp [respondTo, hread, hpath, hbody, JsonValue.fields?, hget]
      simp only [hget']
      obtain ⟨events, heq⟩ := resolvePending_eq H call now (readRespondBody (.obj fields)) pending
        ((s.received call).taking (readRespondBody (.obj fields)).requestId pending)
      change StepsTo H s _ (((s.received call).taking _ pending).resolvePending H call now _ pending)
      rw [heq]
      cases hbuilt : respondResponse H pending (readRespondBody (.obj fields)) with
      | some response => exact .resolved hread hgit hto hbuilt
      | none => exact .rejected hread hgit hto hbuilt
  · next hbody =>
    refine .misdirected hread hgit fun body pending hto => ?_
    obtain ⟨fields, hfields, -⟩ := hnamed body pending hto
    exact absurd hfields (hbody fields)

theorem stepsTo_bodyRead (call now : Nat) :
    StepsTo H s (.bodyRead call now) (s.bodyRead H call now) := by
  unfold bodyRead
  split
  · next hread => exact .idle hread
  next request hread =>
  simp only
  cases hpath : gitPath? request.request.pathname with
  | none => exact stepsTo_handleRespond hread hpath
  | some gitPath =>
    have hgit : request.isGit = true := by simp [GitServeRequest.isGit, hpath]
    cases hbytes : request.bytes with
    | none => exact .unread hread hgit hbytes
    | some bytes => exact .uploaded hread hgit hbytes hpath

theorem stepsTo_fireTimer (id : Nat) : StepsTo H s (.timer id) (s.fireTimer id) := by
  unfold fireTimer
  split
  · next hget => exact .idle hget
  next timer hget =>
  obtain ⟨due, task⟩ := timer
  cases task with
  | closeSession => exact .expired hget
  | requestTimeout requestId call => exact .requestTimedOut hget
  | pollTimeout call => exact .pollTimedOut hget

end StepsLemmas

open StepsLemmas

/-- Every step of a session is one of these. -/
theorem stepsTo (H : GitServeHost) (s : GitServe) (event : GitServeEvent) :
    StepsTo H s event (step H s event) := by
  cases event with
  | fetch request now => exact stepsTo_fetch request now
  | bodyRead call now => exact stepsTo_bodyRead call now
  | timer id => exact stepsTo_fireTimer id
  | cleanup => exact .closed
  | restore saved now => exact .restored

/-! ## Runs -/

/-- A session, the requests of its calls, and the last call that registered it. -/
structure ServeRun where
  session : GitServe
  calls : List GitServeRequest
  registeredBy : Option Nat

namespace ServeRun

def init : ServeRun := ⟨GitServe.init, [], none⟩

def step (H : GitServeHost) (r : ServeRun) (event : GitServeEvent) : ServeRun :=
  let session := GitServe.step H r.session event
  match event with
  | .fetch request _ =>
    { session
      calls := r.calls ++ [request]
      registeredBy := if request.isRegister = true then some r.session.nextCall
        else r.registeredBy }
  | _ => { r with session }

def after (H : GitServeHost) (events : List GitServeEvent) : ServeRun :=
  runFrom (step H) init events

theorem session_step (H : GitServeHost) (r : ServeRun) (event : GitServeEvent) :
    (r.step H event).session = GitServe.step H r.session event := by
  cases event <;> rfl

theorem after_concat (H : GitServeHost) (events : List GitServeEvent) (event : GitServeEvent) :
    after H (events ++ [event]) = (after H events).step H event := runFrom_concat _ _ _ _

theorem session_after (H : GitServeHost) (events : List GitServeEvent) :
    (after H events).session = GitServe.after H events := by
  induction events using List.reverseRecOn with
  | nil => rfl
  | append_singleton events event ih =>
    rw [after_concat, session_step, ih]
    exact (runFrom_concat _ _ _ _).symm

/-- The call has a request of this route. -/
def Routed (r : ServeRun) (route : GitServeRequest → Bool) (call : Nat) : Prop :=
  ∃ request, r.calls[call]? = some request ∧ route request = true

end ServeRun

/-- What the session holds a call for is what its request asked for. -/
structure Roles (r : ServeRun) : Prop where
  count : r.session.nextCall = r.calls.length
  reading : ∀ call request, r.session.reading.get? call = some request →
    r.calls[call]? = some request ∧ (request.isGit = true ∨ request.isRespond = true)
  waiters : ∀ w ∈ r.session.state.pollWaiters, r.Routed GitServeRequest.isPoll w.call
  pollTimers : ∀ id due call, r.session.timers.get? id = some ⟨due, .pollTimeout call⟩ →
    r.Routed GitServeRequest.isPoll call
  queued : ∀ call ∈ r.session.queued, r.Routed GitServeRequest.isGit call

namespace RoleLemmas

variable {H : GitServeHost} {s s' : GitServe} {r : ServeRun}

/-- No call gets a new part in the session. -/
structure Narrows (s s' : GitServe) : Prop where
  count : s'.nextCall = s.nextCall
  reading : ∀ call request, s'.reading.get? call = some request →
    s.reading.get? call = some request
  waiters : ∀ w ∈ s'.state.pollWaiters, w ∈ s.state.pollWaiters
  pollTimers : ∀ id due call, s'.timers.get? id = some ⟨due, .pollTimeout call⟩ →
    s.timers.get? id = some ⟨due, .pollTimeout call⟩
  queued : s'.queued = s.queued

theorem Narrows.refl (s : GitServe) : Narrows s s :=
  ⟨rfl, fun _ _ h => h, fun _ h => h, fun _ _ _ h => h, rfl⟩

theorem Narrows.trans {s'' : GitServe} (h : Narrows s s') (h' : Narrows s' s'') :
    Narrows s s'' where
  count := h'.count.trans h.count
  reading call request hget := h.reading call request (h'.reading call request hget)
  waiters w hw := h.waiters w (h'.waiters w hw)
  pollTimers id due call hget := h.pollTimers id due call (h'.pollTimers id due call hget)
  queued := h'.queued.trans h.queued

theorem narrows_settle (s : GitServe) (call : Nat) (answer : GitAnswer) :
    Narrows s (s.settle call answer) :=
  ⟨rfl, fun _ _ h => h, fun _ h => h, fun _ _ _ h => h, rfl⟩

theorem narrows_clearTimeout (s : GitServe) (id : Nat) : Narrows s (s.clearTimeout id) := by
  refine ⟨rfl, fun _ _ h => h, fun _ h => h, fun id' due call h => ?_, rfl⟩
  change (s.timers.erase id).get? id' = _ at h
  rw [OrdMap.get?_erase] at h
  split at h
  · cases h
  · exact h

theorem narrows_received (s : GitServe) (call : Nat) : Narrows s (s.received call) := by
  refine ⟨rfl, fun call' request h => ?_, fun _ h => h, fun _ _ _ h => h, rfl⟩
  change (s.reading.erase call).get? call' = some request at h
  rw [OrdMap.get?_erase] at h
  split at h
  · cases h
  · exact h

theorem narrows_deletePending (s : GitServe) (requestId : String) :
    Narrows s (s.deletePending requestId) :=
  ⟨rfl, fun _ _ h => h, fun _ h => h, fun _ _ _ h => h, rfl⟩

theorem narrows_taking (s : GitServe) (requestId : String) (pending : PendingGitRequest) :
    Narrows s (s.taking requestId pending) :=
  (narrows_deletePending s requestId).trans (narrows_clearTimeout _ _)

theorem narrows_events (s : GitServe) (events : List IncomingRefRelayEvent) :
    Narrows s { s with events := events } :=
  ⟨rfl, fun _ _ h => h, fun _ h => h, fun _ _ _ h => h, rfl⟩

theorem narrows_unparking (s : GitServe) (call : Nat) : Narrows s (s.unparking call) :=
  ⟨rfl, fun _ _ h => h, fun _ h => (List.mem_filter.mp h).1, fun _ _ _ h => h, rfl⟩

theorem narrows_drain (s : GitServe) : Narrows s s.drainPendingToPollWaiters := by
  unfold drainPendingToPollWaiters
  split
  · exact .refl s
  · next w rest hwaiters =>
    split
    · exact .refl s
    · refine Narrows.trans ?_ (narrows_settle _ _ _)
      refine Narrows.trans ?_ (narrows_clearTimeout _ _)
      exact ⟨rfl, fun _ _ h => h, fun v hv => hwaiters ▸ List.mem_cons_of_mem w hv,
        fun _ _ _ h => h, rfl⟩

theorem narrows_resetSessionTimer (s : GitServe) (now : Nat) :
    Narrows s (s.resetSessionTimer H now) := by
  have harm : ∀ s : GitServe, Narrows s { s.setTimeout (now + H.sessionTtlMs) .closeSession with
      sessionTimer := some s.nextTimer } := by
    intro s
    refine ⟨rfl, fun _ _ h => h, fun _ h => h, fun id due call h => ?_, rfl⟩
    change (s.timers.set s.nextTimer _).get? id = _ at h
    rw [OrdMap.get?_set] at h
    split at h
    · cases h
    · exact h
  unfold resetSessionTimer
  cases s.sessionTimer with
  | none => exact harm s
  | some id => exact (narrows_clearTimeout s id).trans (harm _)

theorem narrows_handleRegister (s : GitServe) (call now : Nat) :
    Narrows s (s.handleRegister H call now) := by
  unfold handleRegister
  refine Narrows.trans ?_ (narrows_settle _ _ _)
  refine Narrows.trans ?_ (narrows_resetSessionTimer _ now)
  exact ⟨rfl, fun _ _ h => h, fun _ h => h, fun _ _ _ h => h, rfl⟩

theorem narrows_restore (s : GitServe) (saved : PersistableSessionState) (now : Nat) :
    Narrows s (s.restore H saved now) := by
  have hsaved : Narrows s { s with state := { s.state with
      active := saved.active, sessionToken := saved.sessionToken,
      registeredAt := saved.registeredAt } } :=
    ⟨rfl, fun _ _ h => h, fun _ h => h, fun _ _ _ h => h, rfl⟩
  unfold restore
  simp only
  split
  · exact hsaved.trans (narrows_resetSessionTimer _ now)
  · exact hsaved

theorem narrows_cleanup (s : GitServe) : Narrows s s.cleanup := by
  have htimer : Narrows s s.clearSessionTimer := by
    unfold clearSessionTimer
    cases s.sessionTimer with
    | none => exact .refl s
    | some id =>
      refine (narrows_clearTimeout s id).trans ?_
      exact ⟨rfl, fun _ _ h => h, fun _ h => h, fun _ _ _ h => h, rfl⟩
  have hrequests : ∀ (pending : List PendingGitRequest) (s : GitServe),
      Narrows s (pending.foldl closeRequest s) := by
    intro pending
    induction pending with
    | nil => exact fun s => .refl s
    | cons p rest ih =>
      intro s
      exact ((narrows_clearTimeout s _).trans (narrows_settle _ _ _)).trans (ih (s.closeRequest p))
  have hwaiters : ∀ (waiters : List PollWaiter) (s : GitServe),
      Narrows s (waiters.foldl closeWaiter s) := by
    intro waiters
    induction waiters with
    | nil => exact fun s => .refl s
    | cons w rest ih =>
      intro s
      exact ((narrows_clearTimeout s _).trans (narrows_settle _ _ _)).trans (ih (s.closeWaiter w))
  rw [cleanup_eq]
  refine @Narrows.trans _ s.closingRequests _ ?_ ?_
  · refine htimer.trans ((hrequests s.clearSessionTimer.state.pendingRequests.values _).trans ?_)
    exact ⟨rfl, fun _ _ h => h, fun _ h => h, fun _ _ _ h => h, rfl⟩
  · refine (hwaiters s.closingRequests.state.pollWaiters _).trans ?_
    exact ⟨rfl, fun _ _ h => h, fun _ h => (List.not_mem_nil h).elim, fun _ _ _ h => h, rfl⟩

/-! ## What a step does to the roles -/

theorem roles_narrow {calls : List GitServeRequest} {registeredBy : Option Nat}
    (h : Roles ⟨s, calls, registeredBy⟩) (hnarrows : Narrows s s') :
    Roles ⟨s', calls, registeredBy⟩ where
  count := hnarrows.count.trans h.count
  reading call request hget := h.reading call request (hnarrows.reading call request hget)
  waiters w hw := h.waiters w (hnarrows.waiters w hw)
  pollTimers id due call hget := h.pollTimers id due call (hnarrows.pollTimers id due call hget)
  queued call hcall := h.queued call (hnarrows.queued ▸ hcall)

theorem getElem?_calls {calls : List GitServeRequest} {request : GitServeRequest} :
    (calls ++ [request])[calls.length]? = some request := by simp

theorem getElem?_calls_of_some {calls : List GitServeRequest} {request request' : GitServeRequest}
    {call : Nat} (h : calls[call]? = some request') :
    (calls ++ [request])[call]? = some request' := by
  rw [List.getElem?_append_left (List.getElem?_eq_some_iff.mp h).1]
  exact h

/-- The run has one more call, which holds nothing yet. -/
def calling (r : ServeRun) (request : GitServeRequest) (registeredBy : Option Nat) : ServeRun :=
  ⟨r.session.numbered, r.calls ++ [request], registeredBy⟩

theorem routed_calling_of {route : GitServeRequest → Bool} {call : Nat} (h : r.Routed route call)
    (request : GitServeRequest) (registeredBy : Option Nat) :
    (calling r request registeredBy).Routed route call := by
  obtain ⟨request', hcall, hroute⟩ := h
  exact ⟨request', getElem?_calls_of_some hcall, hroute⟩

theorem roles_calling (h : Roles r) (request : GitServeRequest) (registeredBy : Option Nat) :
    Roles (calling r request registeredBy) where
  count := by
    change r.session.nextCall + 1 = (r.calls ++ [request]).length
    rw [List.length_append, h.count]
    rfl
  reading call request' hget :=
    ⟨getElem?_calls_of_some (h.reading call request' hget).1, (h.reading call request' hget).2⟩
  waiters w hw := routed_calling_of (h.waiters w hw) request registeredBy
  pollTimers id due call hget := routed_calling_of (h.pollTimers id due call hget) request registeredBy
  queued call hcall := routed_calling_of (h.queued call hcall) request registeredBy

theorem roles_awaiting (h : Roles r) {call : Nat} {request : GitServeRequest}
    (hcall : r.calls[call]? = some request)
    (hroute : request.isGit = true ∨ request.isRespond = true) :
    Roles { r with session := r.session.awaiting call request } := by
  refine ⟨h.count, fun call' request' hget => ?_, h.waiters, h.pollTimers, h.queued⟩
  change (r.session.reading.set call request).get? call' = some request' at hget
  rw [OrdMap.get?_set] at hget
  split at hget
  · next heq =>
    cases hget
    rw [heq]
    exact ⟨hcall, hroute⟩
  · exact h.reading call' request' hget

theorem roles_parking (h : Roles r) {call : Nat} (hpoll : r.Routed GitServeRequest.isPoll call)
    (due : Nat) : Roles { r with session := r.session.parking call due } := by
  refine ⟨h.count, h.reading, fun w hw => ?_, fun id due' call' hget => ?_, h.queued⟩
  · rcases List.mem_append.mp hw with hw | hw
    · exact h.waiters w hw
    · rw [List.mem_singleton.mp hw]
      exact hpoll
  · change (r.session.timers.set r.session.nextTimer _).get? id = _ at hget
    rw [OrdMap.get?_set] at hget
    split at hget
    · cases hget
      exact hpoll
    · exact h.pollTimers id due' call' hget

theorem roles_queueGitRequest (h : Roles r) {call : Nat} (hgit : r.Routed GitServeRequest.isGit call)
    (now : Nat) (request : Request) (gitPath : String) (bytes : Option Bytes) :
    Roles { r with session := r.session.queueGitRequest H call now request gitPath bytes } := by
  have henqueued : Roles { r with
      session := r.session.enqueue H call now request gitPath bytes } := by
    refine ⟨h.count, h.reading, h.waiters, fun id due' call' hget => ?_, fun call' hcall => ?_⟩
    · change (r.session.timers.set r.session.nextTimer _).get? id = _ at hget
      rw [OrdMap.get?_set] at hget
      split at hget
      · cases hget
      · exact h.pollTimers id due' call' hget
    · rcases List.mem_append.mp hcall with hcall | hcall
      · exact h.queued call' hcall
      · rw [List.mem_singleton.mp hcall]
        exact hgit
  exact roles_narrow henqueued (narrows_drain _)

end RoleLemmas

open RoleLemmas

/-- A step takes up a call for what its request asks for, or for nothing. -/
theorem roles_step {H : GitServeHost} {r : ServeRun} (h : Roles r) (event : GitServeEvent) :
    Roles (r.step H event) := by
  have hsteps := stepsTo H r.session event
  cases event with
  | fetch request now =>
    have hcalled := roles_calling h request
      (if request.isRegister = true then some r.session.nextCall else r.registeredBy)
    have hcall : (r.calls ++ [request])[r.session.nextCall]? = some request := by
      rw [h.count]
      exact getElem?_calls
    change Roles ⟨step H r.session (.fetch request now), _, _⟩
    generalize step H r.session (.fetch request now) = s' at hsteps
    cases hsteps with
    | idle hidle => exact hidle.elim
    | registered hroute => exact roles_narrow hcalled (narrows_handleRegister _ _ _)
    | refused hroute hdenied => exact roles_narrow hcalled (narrows_settle _ _ _)
    | told hroute hother => exact roles_narrow hcalled (narrows_settle _ _ _)
    | handed hroute hallowed hpending => exact roles_narrow hcalled (narrows_settle _ _ _)
    | parked hroute hallowed hpending => exact roles_parking hcalled ⟨request, hcall, hroute⟩ _
    | responding hroute hallowed => exact roles_awaiting hcalled hcall (.inr hroute)
    | inactive hroute hinactive => exact roles_narrow hcalled (narrows_settle _ _ _)
    | uploading hroute hactive hmethod => exact roles_awaiting hcalled hcall (.inl hroute)
    | queued hroute hactive hmethod =>
      exact roles_queueGitRequest hcalled ⟨request, hcall, hroute⟩ _ _ _ _
  | bodyRead call now =>
    change Roles { r with session := step H r.session (.bodyRead call now) }
    generalize step H r.session (.bodyRead call now) = s' at hsteps
    have hreceived := roles_narrow h (narrows_received r.session call)
    cases hsteps with
    | idle => exact h
    | uploaded hread hroute hbytes =>
      exact roles_queueGitRequest hreceived ⟨_, (h.reading _ _ hread).1, hroute⟩ _ _ _ _
    | unread hread hroute hbytes => exact roles_narrow hreceived (narrows_settle _ _ _)
    | misdirected hread hroute hto => exact roles_narrow hreceived (narrows_settle _ _ _)
    | resolved hread hroute hto hbuilt =>
      exact roles_narrow hreceived ((((narrows_taking _ _ _).trans (narrows_events _ _)).trans
        (narrows_settle _ _ _)).trans (narrows_settle _ _ _))
    | rejected hread hroute hto hbuilt =>
      exact roles_narrow hreceived (((narrows_taking _ _ _).trans (narrows_events _ _)).trans
        (narrows_settle _ _ _))
  | timer id =>
    change Roles { r with session := step H r.session (.timer id) }
    generalize step H r.session (.timer id) = s' at hsteps
    cases hsteps with
    | idle => exact h
    | requestTimedOut hget =>
      exact roles_narrow h (((narrows_clearTimeout _ _).trans (narrows_deletePending _ _)).trans
        (narrows_settle _ _ _))
    | pollTimedOut hget =>
      exact roles_narrow h (((narrows_clearTimeout _ _).trans (narrows_unparking _ _)).trans
        (narrows_settle _ _ _))
    | expired hget => exact roles_narrow h ((narrows_clearTimeout _ _).trans (narrows_cleanup _))
  | cleanup => exact roles_narrow h (narrows_cleanup _)
  | restore saved now => exact roles_narrow h (narrows_restore _ saved now)

/-- In every run a call is held for what its request asked for. -/
theorem roles_after (H : GitServeHost) (events : List GitServeEvent) :
    Roles (ServeRun.after H events) :=
  runFrom_invariant (I := Roles) (fun _ event h => roles_step h event) events
    ⟨rfl, nofun, nofun, nofun, nofun⟩

theorem sound_session (H : GitServeHost) (events : List GitServeEvent) :
    Sound H (ServeRun.after H events).session := by
  rw [ServeRun.session_after]
  exact sound_after H events

end GitServe

end BitRelay
