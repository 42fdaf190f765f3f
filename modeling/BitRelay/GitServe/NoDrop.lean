import BitRelay.GitServe.Invariant
import BitRelay.Platform
import Mathlib.Data.List.Induction

/-!
# No git request is dropped

A request whose promise is open has to stay in the queue with an armed timer:
nothing else would ever settle it. A respond takes its request out of the queue
and disarms the timer before it decodes what the serve side sent; an exception in
between leaves the promise open for good.

Results:
1. `respond_drops`: a respond whose body does not make a response drops its request.
2. `none_dropped_iff`: in all states of a run no request is dropped if and only if
   the body of every respond to a queued request makes a response.
-/

namespace BitRelay

namespace GitServe

/-- Every queued request with an open promise is in the queue with an armed timeout. -/
def NoneDropped (H : GitServeHost) (s : GitServe) : Prop :=
  ∀ call ∈ s.queued, s.answers.get? call = none →
    ∃ p due, s.state.pendingRequests.get? (H.requestId call) = some p ∧ p.call = call ∧
      s.timers.get? p.timeoutId = some ⟨due, .requestTimeout (H.requestId call) call⟩

/-- What a respond sends makes a response: its base64 and its headers are well formed, and a
response can have its status. -/
structure Renders (body : RespondBody) : Prop where
  base64 : ∀ s, body.bodyBase64 = some s → s = "" ∨ (atob s).isSome = true
  headers : ∀ name value, (name, JsonValue.str value) ∈ body.headers →
    isHeaderName name = true ∧ isHeaderValue value = true
  status : acceptsStatus body.status (body.bodyBase64.any fun s => s != "") = true

/-- The respond that an event carries out, and the queued request it names. -/
def respondTo (s : GitServe) : GitServeEvent → Option (RespondBody × PendingGitRequest)
  | .bodyRead call _ => do
    let request ← s.reading.get? call
    if (gitPath? request.request.pathname).isSome then none
    else
      let fields ← request.request.body.json.bind JsonValue.fields?
      let body := readRespondBody (.obj fields)
      let pending ← s.state.pendingRequests.get? body.requestId
      return (body, pending)
  | _ => none

/-- If the event responds to a queued request, then with a body that makes a response. -/
def WellResponded (s : GitServe) (event : GitServeEvent) : Prop :=
  ∀ body pending, respondTo s event = some (body, pending) → Renders body

/-! ## Building the response -/

namespace NoDropLemmas

theorem decodeBody_eq_some_iff {bodyBase64 : Option String} :
    (∃ body, decodeBody bodyBase64 = some body) ↔
      ∀ s, bodyBase64 = some s → s = "" ∨ (atob s).isSome = true := by
  cases bodyBase64 with
  | none => exact iff_of_true ⟨none, rfl⟩ nofun
  | some s =>
    unfold decodeBody
    by_cases hs : s = ""
    · simp only [if_pos hs]
      refine iff_of_true ⟨none, rfl⟩ fun t ht => .inl ?_
      cases ht
      exact hs
    · simp only [if_neg hs, Option.map_eq_some_iff]
      constructor
      · rintro ⟨body, bytes, hbytes, -⟩ t ht
        cases ht
        rw [hbytes]
        exact .inr rfl
      · intro h
        obtain ⟨bytes, hbytes⟩ := Option.isSome_iff_exists.mp ((h s rfl).resolve_left hs)
        exact ⟨some bytes, bytes, hbytes, rfl⟩

/-- Whether a body is there does not depend on its bytes. -/
theorem isSome_of_decodeBody {bodyBase64 : Option String} {body : Option Bytes}
    (h : decodeBody bodyBase64 = some body) :
    body.isSome = bodyBase64.any fun s => s != "" := by
  cases bodyBase64 with
  | none =>
    cases h
    rfl
  | some s =>
    unfold decodeBody at h
    by_cases hs : s = ""
    · simp only [if_pos hs, Option.some.injEq] at h
      rw [← h, hs]
      rfl
    · simp only [if_neg hs, Option.map_eq_some_iff] at h
      obtain ⟨bytes, -, rfl⟩ := h
      simp [hs]

theorem setHeaders_eq_some_iff {fields : List (String × JsonValue)} {headers : Headers} :
    (∃ headers', setHeaders headers fields = some headers') ↔
      ∀ name value, (name, JsonValue.str value) ∈ fields →
        isHeaderName name = true ∧ isHeaderValue value = true := by
  induction fields generalizing headers with
  | nil => exact iff_of_true ⟨headers, rfl⟩ nofun
  | cons field rest ih =>
    obtain ⟨key, v⟩ := field
    cases v with
    | str value =>
      unfold setHeaders Headers.put
      by_cases hput : isHeaderName key = true ∧ isHeaderValue value = true
      · rw [if_pos hput, Option.bind_some, ih]
        constructor
        · intro h name value' hmem
          rcases List.mem_cons.mp hmem with heq | hmem
          · cases heq
            exact hput
          · exact h name value' hmem
        · exact fun h name value' hmem => h name value' (List.mem_cons_of_mem _ hmem)
      · rw [if_neg hput, Option.bind_none]
        exact iff_of_false nofun fun h => hput (h key value List.mem_cons_self)
    | null | bool _ | num _ | arr _ | obj _ =>
      unfold setHeaders
      rw [ih]
      constructor
      · intro h name value' hmem
        rcases List.mem_cons.mp hmem with heq | hmem
        · cases heq
        · exact h name value' hmem
      · exact fun h name value' hmem => h name value' (List.mem_cons_of_mem _ hmem)

theorem acceptsStatus_200 (hasBody : Bool) : acceptsStatus (.ofNat 200) hasBody = true := by
  cases hasBody <;> decide

theorem acceptsStatus_403 (hasBody : Bool) : acceptsStatus (.ofNat 403) hasBody = true := by
  cases hasBody <;> decide

/-- The compatibility answers take a refusal and give a success: both make a response. -/
theorem acceptsStatus_compatParts (H : GitServeHost) (pending : PendingGitRequest)
    (parts : ResponseParts) :
    acceptsStatus (compatParts H pending parts).status (compatParts H pending parts).body.isSome =
      acceptsStatus parts.status parts.body.isSome := by
  unfold compatParts
  by_cases hdisabled : (parts.status == .ofNat 403 && isReceivePackDisabledBody H parts.body) = true
  · have hstatus : parts.status = .ofNat 403 := by
      rw [Bool.and_eq_true, beq_iff_eq] at hdisabled
      exact hdisabled.1
    simp only [hdisabled, Bool.true_and]
    split
    · rw [hstatus, acceptsStatus_403, acceptsStatus_200]
    · split
      · rw [hstatus, acceptsStatus_403, acceptsStatus_200]
      · rfl
  · simp only [hdisabled, Bool.false_and, Bool.false_eq_true, if_false]

/-- The body of a respond makes a response, or the promise of the respond is rejected. -/
theorem resolvePending_cases (H : GitServeHost) (call now : Nat) (body : RespondBody)
    (pending : PendingGitRequest) (s : GitServe) :
    ∃ events,
      (Renders body ∧ ∃ response reply, s.resolvePending H call now body pending =
        (({ s with events := events } : GitServe).settle pending.call (.raw response)).settle call
          reply) ∨
      (¬ Renders body ∧ s.resolvePending H call now body pending =
        ({ s with events := events } : GitServe).settle call .rejected) := by
  have hemit : ∀ parts : ResponseParts, ∃ events, (if pending.incomingRefs ≠ [] ∧
      isSuccessfulHttpStatus parts.status then
        s.emitIncomingRefEvents H call now pending.incomingRefs else s) =
      { s with events := events } := by
    intro parts
    split
    · unfold emitIncomingRefEvents
      split
      · exact ⟨s.events, rfl⟩
      · exact ⟨_, rfl⟩
    · exact ⟨s.events, rfl⟩
  unfold resolvePending
  cases hbody : decodeBody body.bodyBase64 with
  | none =>
    refine ⟨s.events, .inr ⟨fun h => ?_, rfl⟩⟩
    obtain ⟨b, hb⟩ := decodeBody_eq_some_iff.mpr h.base64
    rw [hbody] at hb
    cases hb
  | some responseBody =>
    cases hheaders : setHeaders ∅ body.headers with
    | none =>
      refine ⟨s.events, .inr ⟨fun h => ?_, rfl⟩⟩
      obtain ⟨b, hb⟩ := setHeaders_eq_some_iff.mpr h.headers
      rw [hheaders] at hb
      cases hb
    | some headers =>
      obtain ⟨events, hevents⟩ := hemit (compatParts H pending ⟨body.status, headers, responseBody⟩)
      refine ⟨events, ?_⟩
      simp only [hevents]
      unfold RawResponse.new
      rw [acceptsStatus_compatParts]
      simp only [isSome_of_decodeBody hbody]
      by_cases hstatus : acceptsStatus body.status (body.bodyBase64.any fun s => s != "") = true
      · refine .inl ⟨⟨decodeBody_eq_some_iff.mp ⟨_, hbody⟩, setHeaders_eq_some_iff.mp ⟨_, hheaders⟩,
          hstatus⟩, ?_⟩
        simp only [if_pos hstatus]
        exact ⟨_, _, rfl⟩
      · refine .inr ⟨fun h => hstatus h.status, ?_⟩
        simp only [if_neg hstatus]

/-! ## The queue -/

/-- The open requests are in the queue. -/
def OpenQueued (H : GitServeHost) (s : GitServe) : Prop :=
  ∀ call ∈ s.queued, s.answers.get? call = none →
    (s.state.pendingRequests.get? (H.requestId call)).isSome = true

variable {H : GitServeHost} {s s' : GitServe}

theorem noneDropped_iff_openQueued (h : Sound H s) : NoneDropped H s ↔ OpenQueued H s := by
  constructor
  · intro hnone call hcall hopen
    obtain ⟨p, -, hget, -⟩ := hnone call hcall hopen
    rw [hget]
    rfl
  · intro hopenQueued call hcall hopen
    obtain ⟨p, hget⟩ := Option.isSome_iff_exists.mp (hopenQueued call hcall hopen)
    obtain ⟨hid, -, -, due, hdue⟩ := h.pending _ p hget
    have hown : p.call = call := (H.requestId_injective hid).symm
    refine ⟨p, due, hget, hown, ?_⟩
    rw [hown] at hdue
    exact hdue

/-- No request leaves the queue unsettled, and none comes. -/
structure Keeps (s s' : GitServe) : Prop where
  queued : s'.queued = s.queued
  answers : ∀ call, s'.answers.get? call = none → s.answers.get? call = none
  pending : ∀ requestId, (s.state.pendingRequests.get? requestId).isSome = true →
    (s'.state.pendingRequests.get? requestId).isSome = true

theorem Keeps.refl (s : GitServe) : Keeps s s := ⟨rfl, fun _ h => h, fun _ h => h⟩

theorem Keeps.trans {s'' : GitServe} (h : Keeps s s') (h' : Keeps s' s'') : Keeps s s'' :=
  ⟨h'.queued.trans h.queued, fun c hc => h.answers c (h'.answers c hc),
    fun id hid => h'.pending id (h.pending id hid)⟩

theorem OpenQueued.keep (h : OpenQueued H s) (hkeeps : Keeps s s') : OpenQueued H s' := by
  intro call hcall hopen
  rw [hkeeps.queued] at hcall
  exact hkeeps.pending _ (h call hcall (hkeeps.answers call hopen))

theorem keeps_settle (s : GitServe) (call : Nat) (answer : GitAnswer) :
    Keeps s (s.settle call answer) := by
  refine ⟨rfl, fun c hc => ?_, fun _ h => h⟩
  change (s.answers.setNew call answer).get? c = none at hc
  rw [OrdMap.get?_setNew] at hc
  split at hc
  · cases hc
  · exact hc

theorem keeps_resetSessionTimer (s : GitServe) (now : Nat) :
    Keeps s (s.resetSessionTimer H now) := by
  unfold resetSessionTimer
  cases s.sessionTimer <;> exact ⟨rfl, fun _ h => h, fun _ h => h⟩

theorem keeps_drain (s : GitServe) : Keeps s s.drainPendingToPollWaiters := by
  unfold drainPendingToPollWaiters
  split
  · exact .refl s
  · split
    · exact .refl s
    · refine Keeps.trans ?_ (keeps_settle _ _ _)
      exact ⟨rfl, fun _ h => h, fun _ h => h⟩

theorem settle_settled (s : GitServe) (call : Nat) (answer : GitAnswer) :
    (s.settle call answer).answers.get? call ≠ none := by
  change (s.answers.setNew call answer).get? call ≠ none
  rw [OrdMap.get?_setNew, if_pos rfl]
  nofun

/-- The request that is settled may leave the queue. -/
theorem openQueued_take (h : OpenQueued H s) {call : Nat} (answer : GitAnswer) {s' : GitServe}
    (hqueued : s'.queued = s.queued)
    (hanswers : ∀ c, s'.answers.get? c = none → s.answers.get? c = none)
    (hpending : s'.state.pendingRequests = s.state.pendingRequests.erase (H.requestId call)) :
    OpenQueued H (s'.settle call answer) := by
  intro c hc hopen
  have hne : c ≠ call := by
    rintro rfl
    exact settle_settled s' c answer hopen
  have hold := h c (hqueued ▸ hc) (hanswers c ((keeps_settle s' call answer).answers c hopen))
  change (s'.state.pendingRequests.get? (H.requestId c)).isSome = true
  rw [hpending, OrdMap.get?_erase, if_neg fun heq => hne (H.requestId_injective heq)]
  exact hold

theorem openQueued_queueGitRequest (h : OpenQueued H s) (call now : Nat) (request : Request)
    (gitPath : String) (bytes : Option Bytes) :
    OpenQueued H (s.queueGitRequest H call now request gitPath bytes) := by
  unfold queueGitRequest
  refine OpenQueued.keep (fun c hc hopen => ?_) (keeps_drain _)
  unfold enqueue at hc hopen ⊢
  change ((s.state.pendingRequests.set (H.requestId call) _).get? (H.requestId c)).isSome = true
  rw [OrdMap.get?_set]
  by_cases hid : H.requestId c = H.requestId call
  · rw [if_pos hid]
    rfl
  · rw [if_neg hid]
    rcases List.mem_append.mp hc with hc | hc
    · exact h c hc hopen
    · exact absurd (congrArg H.requestId (List.mem_singleton.mp hc)) hid

/-! ## Closing -/

theorem keeps_clearTimeout (s : GitServe) (id : Nat) : Keeps s (s.clearTimeout id) :=
  ⟨rfl, fun _ h => h, fun _ h => h⟩

theorem keeps_closeRequest (s : GitServe) (p : PendingGitRequest) : Keeps s (s.closeRequest p) :=
  (keeps_clearTimeout s p.timeoutId).trans (keeps_settle _ _ _)

theorem keeps_closeRequests (s : GitServe) (pending : List PendingGitRequest) :
    Keeps s (pending.foldl closeRequest s) := by
  induction pending generalizing s with
  | nil => exact .refl s
  | cons p rest ih => exact (keeps_closeRequest s p).trans (ih _)

theorem keeps_closeWaiters (s : GitServe) (waiters : List PollWaiter) :
    Keeps s (waiters.foldl closeWaiter s) := by
  induction waiters generalizing s with
  | nil => exact .refl s
  | cons w rest ih =>
    refine Keeps.trans ?_ (ih (s.closeWaiter w))
    exact (keeps_clearTimeout s w.timeoutId).trans (keeps_settle _ _ _)

/-- Every closed request is settled. -/
theorem closeRequests_settled (s : GitServe) {pending : List PendingGitRequest}
    {p : PendingGitRequest} (hp : p ∈ pending) :
    (pending.foldl closeRequest s).answers.get? p.call ≠ none := by
  induction pending generalizing s with
  | nil => cases hp
  | cons q rest ih =>
    rcases List.mem_cons.mp hp with rfl | hp
    · intro hnone
      exact settle_settled (s.clearTimeout p.timeoutId) p.call _
        ((keeps_closeRequests (s.closeRequest p) rest).answers _ hnone)
    · exact ih _ hp

theorem keeps_clearSessionTimer (s : GitServe) : Keeps s s.clearSessionTimer := by
  unfold clearSessionTimer
  cases s.sessionTimer <;> exact ⟨rfl, fun _ h => h, fun _ h => h⟩

theorem openQueued_cleanup (hsound : Sound H s) (h : OpenQueued H s) : OpenQueued H s.cleanup := by
  intro call hcall hopen
  have hstate : s.clearSessionTimer.state = s.state := by
    unfold clearSessionTimer
    cases s.sessionTimer <;> rfl
  have hclosed := keeps_closeRequests s.clearSessionTimer
    s.clearSessionTimer.state.pendingRequests.values
  have hwaiters := keeps_closeWaiters { s.clearSessionTimer.state.pendingRequests.values.foldl
    closeRequest s.clearSessionTimer with state :=
      { (s.clearSessionTimer.state.pendingRequests.values.foldl closeRequest
        s.clearSessionTimer).state with pendingRequests := ∅ } }
    (s.clearSessionTimer.state.pendingRequests.values.foldl closeRequest
      s.clearSessionTimer).state.pollWaiters
  have hopen' := hwaiters.answers call hopen
  have hcall' : call ∈ s.queued := by
    rw [← (keeps_clearSessionTimer s).queued, ← hclosed.queued]
    exact hwaiters.queued ▸ hcall
  have hbefore : s.answers.get? call = none :=
    (keeps_clearSessionTimer s).answers call (hclosed.answers call hopen')
  obtain ⟨p, hget⟩ := Option.isSome_iff_exists.mp (h call hcall' hbefore)
  obtain ⟨hid, -⟩ := hsound.pending _ p hget
  have hmem : p ∈ s.clearSessionTimer.state.pendingRequests.values := by
    rw [hstate]
    exact List.mem_map.mpr ⟨_, OrdMap.get?_eq_some_iff.mp hget, rfl⟩
  refine absurd hopen' ?_
  rw [H.requestId_injective hid]
  exact closeRequests_settled s.clearSessionTimer hmem

end NoDropLemmas

open SoundLemmas NoDropLemmas

/-! ## The step -/

section
variable {H : GitServeHost} {s : GitServe}

theorem openQueued_fetch (h : OpenQueued H s) (request : GitServeRequest) (now : Nat) :
    OpenQueued H (s.fetch H request now) := by
  have hnext : OpenQueued H { s with nextCall := s.nextCall + 1 } := h
  unfold fetch
  simp only
  split
  · refine hnext.keep (Keeps.trans ?_ (keeps_settle _ _ _))
    refine Keeps.trans ?_ (keeps_resetSessionTimer _ _)
    exact ⟨rfl, fun _ h => h, fun _ h => h⟩
  split
  · unfold handleInfo
    split <;> exact hnext.keep (keeps_settle _ _ _)
  split
  · unfold handlePoll
    split
    · exact hnext.keep (keeps_settle _ _ _)
    · split
      · exact hnext.keep (keeps_settle _ _ _)
      · exact hnext
  split
  · split
    · exact hnext.keep (keeps_settle _ _ _)
    · exact hnext
  · split
    · unfold handleGitRequest
      split
      · exact hnext.keep (keeps_settle _ _ _)
      · split
        · exact hnext
        · exact openQueued_queueGitRequest hnext _ _ _ _ _
    · exact hnext.keep (keeps_settle _ _ _)

/-- A respond to a queued request settles it when its body makes a response. -/
theorem openQueued_handleRespond (hsound : Sound H s) (h : OpenQueued H s) (call now : Nat)
    (request : Request)
    (hwell : ∀ fields pending, request.body.json = some (.obj fields) →
      s.state.pendingRequests.get? (readRespondBody (.obj fields)).requestId = some pending →
      Renders (readRespondBody (.obj fields))) :
    OpenQueued H (s.handleRespond H call now request) := by
  unfold handleRespond
  split
  · next fields hbody =>
    simp only
    split
    · exact h.keep (keeps_settle _ _ _)
    · split
      · exact h.keep (keeps_settle _ _ _)
      · next pending hget =>
        obtain ⟨hid, -⟩ := hsound.pending _ _ hget
        obtain ⟨events, ⟨-, response, reply, heq⟩ | ⟨hbad, -⟩⟩ := resolvePending_cases H call now
          (readRespondBody (.obj fields)) pending
          ((s.deletePending (readRespondBody (.obj fields)).requestId).clearTimeout
            pending.timeoutId)
        · rw [heq]
          refine OpenQueued.keep ?_ (keeps_settle _ _ _)
          refine openQueued_take h _ rfl (fun _ hc => hc) ?_
          rw [← hid]
          rfl
        · exact absurd (hwell fields pending hbody hget) hbad
  · exact h.keep (keeps_settle _ _ _)

/-- A step whose respond, if any, makes a response drops nothing. -/
theorem openQueued_step (hsound : Sound H s) (h : OpenQueued H s) {event : GitServeEvent}
    (hwell : WellResponded s event) : OpenQueued H (step H s event) := by
  cases event with
  | fetch request now => exact openQueued_fetch h request now
  | bodyRead call now =>
    unfold step bodyRead
    simp only
    split
    · exact h
    next request hread =>
    have hstop : OpenQueued H { s with reading := s.reading.erase call } := h
    split
    · next hpath =>
      refine openQueued_handleRespond (sound_stopReading hsound call) hstop call now _ ?_
      intro fields pending hbody hget
      refine hwell _ pending ?_
      have hget' : s.state.pendingRequests.get? (readRespondBody (.obj fields)).requestId =
          some pending := hget
      simp [respondTo, hread, hpath, hbody, JsonValue.fields?, hget']
    · split
      · exact openQueued_queueGitRequest hstop _ _ _ _ _
      · exact hstop.keep (keeps_settle _ _ _)
  | timer id =>
    unfold step fireTimer
    simp only
    split
    · exact h
    next timer hget =>
    have htask := (hsound.timers id timer hget).2
    have hclear : OpenQueued H (s.clearTimeout id) := h
    obtain ⟨due, task⟩ := timer
    cases task with
    | closeSession =>
      refine openQueued_cleanup (sound_clearTimeout hsound _ fun requestId p hp heq => ?_) hclear
      obtain ⟨-, -, -, due', hdue'⟩ := hsound.pending requestId p hp
      rw [heq, hget] at hdue'
      cases hdue'
    | requestTimeout requestId call =>
      refine openQueued_take h _ rfl (fun _ hc => hc) ?_
      rw [← htask.1]
      rfl
    | pollTimeout call =>
      refine OpenQueued.keep ?_ (keeps_settle _ _ _)
      exact h
  | cleanup => exact openQueued_cleanup hsound h
  | restore saved now =>
    unfold step restore
    simp only
    split
    · refine OpenQueued.keep ?_ (keeps_resetSessionTimer _ _)
      exact h
    · exact h

theorem respondTo_cases {event : GitServeEvent} {body : RespondBody} {pending : PendingGitRequest}
    (h : respondTo s event = some (body, pending)) :
    ∃ call now request fields, event = .bodyRead call now ∧ s.reading.get? call = some request ∧
      gitPath? request.request.pathname = none ∧ request.request.body.json = some (.obj fields) ∧
      body = readRespondBody (.obj fields) ∧
      s.state.pendingRequests.get? (readRespondBody (.obj fields)).requestId = some pending := by
  cases event with
  | bodyRead call now =>
    obtain ⟨request, hread, h⟩ := Option.bind_eq_some_iff.mp h
    by_cases hpath : (gitPath? request.request.pathname).isSome = true
    · rw [if_pos hpath] at h
      cases h
    · rw [if_neg hpath] at h
      obtain ⟨fields, hfields, h⟩ := Option.bind_eq_some_iff.mp h
      obtain ⟨value, hbody, hvalue⟩ := Option.bind_eq_some_iff.mp hfields
      obtain ⟨p, hget, h⟩ := Option.bind_eq_some_iff.mp h
      cases h
      cases value with
      | obj fields' =>
        cases hvalue
        exact ⟨call, now, request, fields, rfl, hread, Option.not_isSome_iff_eq_none.mp hpath, hbody,
          rfl, hget⟩
      | null | bool _ | num _ | str _ | arr _ => cases hvalue
  | fetch _ _ | timer _ | cleanup | restore _ _ => cases h

/-- A respond whose body makes no response drops the request that it names. -/
theorem respond_drops (hsound : Sound H s) {event : GitServeEvent} {body : RespondBody}
    {pending : PendingGitRequest} (hto : respondTo s event = some (body, pending))
    (hbad : ¬ Renders body) : ¬ NoneDropped H (step H s event) := by
  obtain ⟨call, now, request, fields, rfl, hread, hpath, hbody, rfl, hget⟩ := respondTo_cases hto
  obtain ⟨hid, hqueued, hopen, -⟩ := hsound.pending _ _ hget
  obtain ⟨-, hnot, -⟩ := hsound.reading call request hread
  have hid0 : (readRespondBody (.obj fields)).requestId ≠ "" := by
    rw [hid]
    exact H.requestId_ne _
  obtain ⟨events, ⟨hgood, -⟩ | ⟨-, heq⟩⟩ := resolvePending_cases H call now
    (readRespondBody (.obj fields)) pending
    ((({ s with reading := s.reading.erase call } : GitServe).deletePending
      (readRespondBody (.obj fields)).requestId).clearTimeout pending.timeoutId)
  · exact absurd hgood hbad
  have hstep : step H s (.bodyRead call now) =
      ((({ s with reading := s.reading.erase call } : GitServe).deletePending
        (readRespondBody (.obj fields)).requestId).clearTimeout pending.timeoutId).resolvePending H
          call now (readRespondBody (.obj fields)) pending := by
    unfold step bodyRead
    simp only [hread, hpath]
    unfold handleRespond
    simp only [hbody, if_neg hid0, hget]
  rw [hstep, heq]
  intro hnone
  have hne : pending.call ≠ call := by
    rintro rfl
    exact hnot hqueued
  have hunanswered : (s.answers.setNew call .rejected).get? pending.call = none := by
    rw [OrdMap.get?_setNew, if_neg hne]
    exact hopen
  obtain ⟨p, -, hp, -⟩ := hnone pending.call hqueued hunanswered
  change (s.state.pendingRequests.erase _).get? _ = some p at hp
  rw [← hid, OrdMap.get?_erase, if_pos rfl] at hp
  cases hp

end

/-- In all states of a run no request is dropped if and only if the body of every respond to a
queued request makes a response. -/
theorem none_dropped_iff (H : GitServeHost) (events : List GitServeEvent) :
    (∀ before, before <+: events → NoneDropped H (after H before)) ↔
      Along (step H) WellResponded init events := by
  constructor
  · intro h
    induction events using List.reverseRecOn with
    | nil => trivial
    | append_singleton events event ih =>
      refine along_concat.mpr ⟨ih fun before hbefore => h before
        (hbefore.trans (List.prefix_append _ _)), ?_⟩
      intro body pending hto
      by_contra hbad
      refine respond_drops (sound_after H events) hto hbad ?_
      have hlast := h _ List.prefix_rfl
      unfold after at hlast
      rw [runFrom_concat] at hlast
      exact hlast
  · intro h before hbefore
    obtain ⟨rest, rfl⟩ := hbefore
    have hboth : Sound H (after H before) ∧ OpenQueued H (after H before) :=
      (along_append.mp h).1.invariant (I := fun s => Sound H s ∧ OpenQueued H s)
        (fun s event hwell hs => ⟨sound_step hs.1 event, openQueued_step hs.1 hs.2 hwell⟩)
        ⟨sound_init H, nofun⟩
    exact (noneDropped_iff_openQueued hboth.1).mpr hboth.2

/-! ## A clone that hangs -/

/-- A session is registered, a clone asks for the refs, and the serve side answers it with a
body. -/
def cloneRun (respond : List (String × JsonValue)) : List GitServeEvent := [
  .fetch ⟨.post "/register" [] [] ⟨"", none⟩, none⟩ 0,
  .fetch ⟨.get "/git/info/refs" [("service", "git-upload-pack")], none⟩ 1,
  .fetch ⟨.post "/respond" [("session_token", "r")] [] (Platform.toy.stringify
    (.obj (("request_id", .str "rr") :: respond))), none⟩ 2,
  .bodyRead 2 3]

/-- An answer with a body is kept to the end. -/
example : ((after toyHost (cloneRun [("body_base64", .str "aGk=")])).answers.get? 1) =
    some (.raw ⟨200, ∅, some [104, 105]⟩) := by decide

/-- An answer under the status 999 drops the request. -/
theorem clone_dropped :
    ¬ NoneDropped toyHost (after toyHost (cloneRun [("status", .ofNat 999)])) := by
  intro h
  obtain ⟨p, due, hp, -⟩ := h 1 (by decide) (by decide)
  have hnone : (after toyHost (cloneRun [("status", .ofNat 999)])).state.pendingRequests.get?
      (toyHost.requestId 1) = none := by decide
  rw [hnone] at hp
  cases hp

end GitServe

end BitRelay
