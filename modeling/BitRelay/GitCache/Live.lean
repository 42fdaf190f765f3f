import BitRelay.GitCache.Isolation

/-!
# The serve side and the cache

A request whose serve side answers should get that answer, and one from the cache only when its
session is absent or inactive. `handleGitRelayRequest` goes by the status of the answer alone: a 404
or a 410 of the repository counts as a session that is gone.

Results:
1. `receives_settled`: what the client of a call gets once its session has answered.
2. `live_authoritative_iff`: the serve side is authoritative for a request unless it answers with one
   of the two statuses and the cache had an entry.
3. `live_answer_replaced`: a live 404 is replaced by the entry of an earlier answer.
-/

namespace BitRelay

/-! ## What happens to a request -/

/-- A respond names the call `k` of the session while its request is in the queue. -/
def GitServe.RespondsTo (k : Nat) (body : RespondBody) (pending : PendingGitRequest) (s : GitServe)
    (event : GitServeEvent) : Prop :=
  respondTo s event = some (body, pending) ∧ pending.call = k

/-- The serve side takes no pushes, and the relay answers in its place: with an advertisement, or
with the report of a push of incoming refs. -/
structure GitServe.AnswersRefusal (H : GitServeHost) (pending : PendingGitRequest)
    (body : RespondBody) : Prop where
  status : body.status = .ofNat 403
  refused : ∃ responseBody, decodeBody body.bodyBase64 = some responseBody ∧
    isReceivePackDisabledBody H responseBody = true
  compat : isReceivePackInfoRefsPath pending.path = true ∨
    shouldCompatAcceptIncomingOnlyPush pending = true

/-- The call `k` comes while the session is inactive, or waits in the queue when it is closed. -/
def GitServe.FindsInactive (k : Nat) (s : GitServe) (event : GitServeEvent) : Prop :=
  (s.state.active = false ∧ k = s.nextCall ∧ ∃ request now, event = .fetch request now) ∨
    (Closes s event ∧ ∃ pending ∈ s.state.pendingRequests.values, pending.call = k)

/-- The serve side has responded to the request of a call, with this body. -/
def ServeSideResponded (H : GitRelayHost) (s : GitRelay) (c : GitRelayCall) (body : RespondBody)
    (pending : PendingGitRequest) : Prop :=
  ∃ k events, c.sessionCall = some k ∧ s.sessions.get? c.toRequest.sessionId = some events ∧
    Once (GitServe.step (H.serve c.toRequest.sessionId)) (GitServe.RespondsTo k body pending)
      GitServe.init events

/-- The session of the call `n` is not there at the moment when the call looks for it. -/
def FindsAbsent (n : Nat) (s : GitRelay) : GitRelayEvent → Prop
  | .call m (.looked _) => m = n ∧ ∃ c, s.calls[n]? = some c ∧ c.phase = .looking ∧
      s.sessions.get? c.toRequest.sessionId = none
  | _ => False

/-- The session of a call was not there when the call looked for it, or it was inactive. -/
def SessionGone (H : GitRelayHost) (cache : OrdMap String GitCacheRecord)
    (events : List GitRelayEvent) (n : Nat) (c : GitRelayCall) : Prop :=
  Once (GitRelay.step H) (FindsAbsent n) (GitRelay.init cache) events ∨
  ∃ k sessionEvents, c.sessionCall = some k ∧
    (GitRelay.run H cache events).sessions.get? c.toRequest.sessionId = some sessionEvents ∧
    Once (GitServe.step (H.serve c.toRequest.sessionId)) (GitServe.FindsInactive k) GitServe.init
      sessionEvents

/-- The cache has an entry for the request of the call `n` at the moment when the call reads it. -/
def FindsEntry (H : GitRelayHost) (n : Nat) (s : GitRelay) : GitRelayEvent → Prop
  | .call m (.keyed failed) => m = n ∧ failed = false ∧ ∃ c key record, s.calls[n]? = some c ∧
      c.phase = .hashing ∧ c.toRequest.storageKey H.cache = some key ∧
      s.cache.get? key = some record
  | _ => False

/-- What the client of the call `n` gets: the answer after the last steps of the call. -/
def Receives (H : GitRelayHost) (s : GitRelay) (n : Nat) (answer : GitRelayAnswer) : Prop :=
  ∀ failed, ∃ c, (runFrom (GitRelay.step H) s [.call n .settled, .call n (.stored failed)]).calls[n]?
    = some c ∧ c.phase = .answered answer

/-- The answer to a call whose session has answered. -/
def settledAnswer (cached : Option GitCacheRecord) (response : GitAnswer) : GitRelayAnswer :=
  if response.status = some 200 then .live response else fallback cached response

namespace LiveLemmas

variable {H : GitRelayHost} {s : GitRelay} {n : Nat} {c : GitRelayCall}

/-! ## The session -/

/-- A response that a respond makes is the answer to its request. -/
theorem answer_of_respondsTo {H : GitServeHost} {k : Nat} {body : RespondBody}
    {pending : PendingGitRequest} {response : RawResponse} {events : List GitServeEvent}
    (h : Once (GitServe.step H) (GitServe.RespondsTo k body pending) GitServe.init events)
    (hbuilt : GitServe.respondResponse H pending body = some response) :
    (GitServe.after H events).answers.get? k = some (.raw response) := by
  refine h.kept (I := GitServe.Sound H) (fun s event hs => GitServe.sound_step hs event)
    (GitServe.sound_init H) ?_ fun s event _ => GitServe.keeping_step H s event k _
  rintro s event hsound ⟨hto, rfl⟩
  exact GitServe.raw_of_respondTo hsound hto hbuilt

/-- A response comes from a respond to its request. -/
theorem respondsTo_of_answer {H : GitServeHost} {k : Nat} {response : RawResponse}
    {events : List GitServeEvent}
    (h : (GitServe.after H events).answers.get? k = some (.raw response)) :
    ∃ body pending,
      Once (GitServe.step H) (GitServe.RespondsTo k body pending) GitServe.init events ∧
      GitServe.respondResponse H pending body = some response := by
  have hgained : Once (GitServe.step H) (fun s event =>
      ¬ s.answers.get? k = some (.raw response) ∧
        (GitServe.step H s event).answers.get? k = some (.raw response)) GitServe.init events :=
    once_of_gained nofun h
  obtain ⟨before, event, after, hsplit, hnew, hanswer⟩ := hgained
  have hopen : (runFrom (GitServe.step H) GitServe.init before).answers.get? k = none := by
    cases hold : (runFrom (GitServe.step H) GitServe.init before).answers.get? k with
    | none => rfl
    | some old =>
      rw [GitServe.keeping_step H _ event k old hold] at hanswer
      exact absurd (hold.trans hanswer) hnew
  obtain ⟨body, pending, hto, hcall, hbuilt⟩ := GitServe.respondTo_of_raw hopen hanswer
  exact ⟨body, pending, ⟨before, event, after, hsplit, hto, hcall⟩, hbuilt⟩

/-- The session has answered a call with a response when the serve side responded so. -/
theorem sessionAnswered_raw_iff {response : RawResponse} (h : CallSound H s c) :
    SessionAnswered H s c (.raw response) ↔ ∃ body pending, ServeSideResponded H s c body pending ∧
      GitServe.respondResponse (H.serve c.toRequest.sessionId) pending body = some response := by
  constructor
  · rintro ⟨k, hcall, hanswer⟩
    obtain ⟨before, after, request, now, hsession, -, -⟩ := h.handed k hcall
    unfold GitRelay.session at hanswer
    rw [hsession] at hanswer
    obtain ⟨body, pending, honce, hbuilt⟩ := respondsTo_of_answer hanswer
    exact ⟨body, pending, ⟨k, _, hcall, hsession, honce⟩, hbuilt⟩
  · rintro ⟨body, pending, ⟨k, events, hcall, hsession, honce⟩, hbuilt⟩
    refine ⟨k, hcall, ?_⟩
    unfold GitRelay.session
    rw [hsession]
    exact answer_of_respondsTo honce hbuilt

/-- A response has the status of its respond, unless it is the compatible answer to a refusal. -/
theorem status_respondResponse {H : GitServeHost} {pending : PendingGitRequest} {body : RespondBody}
    {response : RawResponse} (h : GitServe.respondResponse H pending body = some response) :
    response.status = toUint16 body.status ∨
      (GitServe.AnswersRefusal H pending body ∧ response.status = 200) := by
  have hok : toUint16 (.ofNat 200) = 200 := by decide
  unfold GitServe.respondResponse at h
  obtain ⟨responseBody, hbody, h⟩ := Option.bind_eq_some_iff.mp h
  obtain ⟨headers, -, h⟩ := Option.bind_eq_some_iff.mp h
  unfold RawResponse.new at h
  simp only at h
  split at h
  · cases h
    unfold compatParts
    simp only
    split
    · next hrefused =>
      simp only [Bool.and_eq_true, beq_iff_eq] at hrefused
      exact .inr ⟨⟨hrefused.1.1, ⟨responseBody, hbody, hrefused.1.2⟩, .inl hrefused.2⟩, hok⟩
    · split
      · next hrefused =>
        simp only [Bool.and_eq_true, beq_iff_eq] at hrefused
        exact .inr ⟨⟨hrefused.1.1, ⟨responseBody, hbody, hrefused.1.2⟩, .inr hrefused.2⟩, hok⟩
      · exact .inl rfl
  · cases h

/-- The calls of a run are the requests of its fetches. -/
theorem calls_after (H : GitServeHost) (events : List GitServeEvent) :
    (GitServe.ServeRun.after H events).calls = events.filterMap fun
      | .fetch request _ => some request
      | _ => none := by
  induction events using List.reverseRecOn with
  | nil => rfl
  | append_singleton events event ih =>
    rw [GitServe.ServeRun.after_concat, List.filterMap_append, ← ih]
    cases event with
    | fetch request now => rfl
    | _ => exact (List.append_nil _).symm

/-- The call of a fetch is its request. -/
theorem call_of_fetch (H : GitServeHost) (before after : List GitServeEvent)
    (request : GitServeRequest) (now : Nat) :
    (GitServe.ServeRun.after H (before ++ .fetch request now :: after)).calls[
      (GitServe.after H before).nextCall]? = some request := by
  have hcount := (GitServe.roles_after H before).count
  rw [GitServe.ServeRun.session_after, calls_after] at hcount
  rw [calls_after, List.filterMap_append, hcount]
  simp only [List.filterMap_cons, List.getElem?_append_right (Nat.le_refl _), Nat.sub_self]
  rfl

/-- A call that is there keeps its request. -/
theorem call_of_prefix {H : GitServeHost} {before : List GitServeEvent} {k : Nat}
    {request : GitServeRequest} (after : List GitServeEvent)
    (h : (GitServe.ServeRun.after H before).calls[k]? = some request) :
    (GitServe.ServeRun.after H (before ++ after)).calls[k]? = some request := by
  rw [calls_after] at h ⊢
  rw [List.filterMap_append, List.getElem?_append_left (List.getElem?_eq_some_iff.mp h).1, h]

theorem gitPath?_git (gitPath : String) :
    GitServe.gitPath? ("/git/" ++ gitPath) = some ("/" ++ gitPath) := by
  have hlist : ("/git/" ++ gitPath).toList = "/git/".toList ++ gitPath.toList :=
    String.toList_append
  have hstart : startsWith ("/git/" ++ gitPath) "/git/" = true := by
    unfold startsWith
    rw [hlist]
    exact List.isPrefixOf_iff_prefix.mpr (List.prefix_append _ _)
  have hslice : sliceFrom ("/git/" ++ gitPath) 5 = gitPath := by
    unfold sliceFrom
    rw [hlist]
    exact String.ofList_toList
  unfold GitServe.gitPath?
  rw [if_pos hstart, hslice]

/-- A request reaches its session on a git route. -/
theorem isGit_sessionRequest {r : GitRelayRequest} {request : GitServeRequest}
    (h : sessionRequest r = some request) : request.isGit = true := by
  unfold sessionRequest at h
  split at h
  · cases h
  · cases h
    unfold GitServeRequest.isGit gitDoRequest
    simp only [gitPath?_git, Option.isSome_some]

/-- An answer to a git request that is no response of the serve side: the body could not be read,
the request timed out, or the session was inactive. -/
theorem answer_cases {H : GitServeHost} {before after : List GitServeEvent}
    {request : GitServeRequest} {now k : Nat} {answer : GitAnswer}
    (hk : k = (GitServe.after H before).nextCall) (hgit : request.isGit = true)
    (hanswer : (GitServe.after H (before ++ .fetch request now :: after)).answers.get? k =
      some answer) (hraw : ∀ response, answer ≠ .raw response) :
    answer.status = none ∨ answer.status = some 504 ∨
      ((answer.status = some 404 ∨ answer.status = some 410) ∧
        Once (GitServe.step H) (GitServe.FindsInactive k) GitServe.init
          (before ++ .fetch request now :: after)) := by
  generalize hevents : before ++ GitServeEvent.fetch request now :: after = events at hanswer
  have hcalls : (GitServe.ServeRun.after H events).calls[k]? = some request := by
    rw [hk, ← hevents]
    exact call_of_fetch H before after _ _
  have hgained : Once (GitServe.ServeRun.step H) (fun r event =>
      ¬ r.session.answers.get? k = some answer ∧
        (r.step H event).session.answers.get? k = some answer) GitServe.ServeRun.init events := by
    refine once_of_gained nofun ?_
    change (GitServe.ServeRun.after H events).session.answers.get? k = some answer
    rwa [GitServe.ServeRun.session_after]
  obtain ⟨before', event, after', hsplit, hnew, hgains⟩ := hgained
  change ¬ (GitServe.ServeRun.after H before').session.answers.get? k = some answer at hnew
  change ((GitServe.ServeRun.after H before').step H event).session.answers.get? k =
    some answer at hgains
  have hroles := GitServe.roles_after H before'
  have hsound := GitServe.sound_session H before'
  have hrouted : ((GitServe.ServeRun.after H before').step H event).Routed
      GitServeRequest.isGit k := by
    rw [← GitServe.ServeRun.after_concat] at hgains ⊢
    have hlt := (GitServe.sound_session H (before' ++ [event])).answers k answer hgains
    rw [(GitServe.roles_after H (before' ++ [event])).count] at hlt
    refine ⟨_, List.getElem?_eq_getElem hlt, ?_⟩
    have hlater := call_of_prefix after' (List.getElem?_eq_getElem hlt)
    rw [List.append_assoc] at hlater
    change (GitServe.ServeRun.after H (before' ++ event :: after')).calls[k]? = _ at hlater
    rw [← hsplit, hcalls] at hlater
    rw [← Option.some.inj hlater]
    exact hgit
  have hopen : (GitServe.ServeRun.after H before').session.answers.get? k = none := by
    cases hold : (GitServe.ServeRun.after H before').session.answers.get? k with
    | none => rfl
    | some old =>
      rw [GitServe.ServeRun.session_step,
        GitServe.keeping_step H _ event k old hold] at hgains
      exact absurd (hold.trans hgains) hnew
  have hown := GitServe.own_answer_step hroles hsound hrouted hopen hgains
  rw [GitServe.ServeRun.session_after] at hown
  rcases hown with howns | ⟨rfl, -⟩
  · cases howns with
    | responded _ _ _ _ => exact absurd rfl (hraw _)
    | timedOut _ _ => exact .inr (.inl rfl)
    | closed hcloses hqueued hpending =>
      refine .inr (.inr ⟨.inr rfl, before', event, after', hsplit, .inr ⟨hcloses, _, ?_, hpending⟩⟩)
      exact List.mem_map_of_mem (OrdMap.get?_eq_some_iff.mp hqueued)
    | inactive hevent hcall hinactive =>
      exact .inr (.inr ⟨.inl rfl, before', event, after', hsplit,
        .inl ⟨hinactive, hcall, _, _, hevent⟩⟩)
  · exact .inl rfl

/-! ## The last steps of a call -/

/-- An answered call is left alone. -/
theorem answered_kept {answer : GitRelayAnswer} (event : GitRelayEvent)
    (hc : s.calls[n]? = some c) (hphase : c.phase = .answered answer) :
    (s.step H event).calls[n]? = some c := by
  obtain ⟨c', hc', hsame | hstep⟩ := GitRelayLemmas.call_kept (H := H) event hc
  · rwa [hsame] at hc'
  · exact absurd hstep (GitRelayLemmas.not_callStep_answered hphase)

theorem settle_answered {response : GitAnswer} (hc : s.calls[n]? = some c)
    (hphase : c.phase = .fetching) (hanswered : SessionAnswered H s c response)
    (hresponse : response ≠ .rejected) :
    (s.step H (.call n .settled)).calls[n]? =
      some (if response.status = some 200 then { c with phase := .storing response }
        else { c with phase := .answered (fallback c.cached response) }) := by
  obtain ⟨k, hcall, hanswer⟩ := hanswered
  have hbind : c.sessionCall.bind (s.session H c.toRequest.sessionId).answers.get? =
      some response := by
    rw [hcall]
    exact hanswer
  unfold GitRelay.step
  simp only [hc]
  unfold GitRelay.move
  simp only [hphase, if_true]
  unfold GitRelay.settle
  rw [hbind]
  have hset := fun c' => (GitRelayLemmas.getElem?_setCall hc c' n).trans (if_pos rfl)
  cases response with
  | rejected => exact absurd rfl hresponse
  | json response =>
    simp only
    split
    · exact hset _
    · exact hset _
  | raw response =>
    simp only
    split
    · exact hset _
    · exact hset _

theorem store_answered {response : GitAnswer} (failed : Bool) (hc : s.calls[n]? = some c)
    (hphase : c.phase = .storing response) :
    (s.step H (.call n (.stored failed))).calls[n]? =
      some { c with phase := .answered (.live response) } := by
  unfold GitRelay.step
  simp only [hc]
  unfold GitRelay.move
  simp only [hphase]
  unfold GitRelay.store
  have hset := (GitRelayLemmas.getElem?_setCall hc
    { c with phase := .answered (.live response) } n).trans (if_pos rfl)
  simp only
  split
  · split
    · exact hset
    · exact hset
  · exact hset

/-- A move that is not the next one changes nothing. -/
theorem step_settled_of_ne (hc : s.calls[n]? = some c) (hphase : c.phase ≠ .fetching) :
    s.step H (.call n .settled) = s := by
  unfold GitRelay.step
  simp only [hc]
  unfold GitRelay.move
  simp only [if_neg hphase]

end LiveLemmas

open LiveLemmas

/-- Once its session has answered, the client of a call gets that answer or the entry that was
read. -/
theorem receives_settled {H : GitRelayHost} {s : GitRelay} {n : Nat} {c : GitRelayCall}
    {response : GitAnswer} (hc : s.calls[n]? = some c) (hphase : PhaseSound H s c)
    (hanswered : SessionAnswered H s c response) (hresponse : response ≠ .rejected) :
    Receives H s n (settledAnswer c.cached response) := by
  intro failed
  have hcall := hanswered
  obtain ⟨k, hk, hget⟩ := hanswered
  have hunique : ∀ response', SessionAnswered H s c response' → response' = response := by
    rintro response' ⟨k', hk', hget'⟩
    rw [hk] at hk'
    cases hk'
    rw [hget] at hget'
    exact (Option.some.inj hget').symm
  unfold PhaseSound at hphase
  rw [runFrom_cons, runFrom_cons, runFrom_nil]
  cases hstate : c.phase with
  | hashing =>
    rw [hstate] at hphase
    rw [hphase.2] at hk
    cases hk
  | looking =>
    rw [hstate] at hphase
    rw [show c.sessionCall = none from hphase] at hk
    cases hk
  | fetching =>
    have hsettled := settle_answered hc hstate hcall hresponse
    unfold settledAnswer
    split at hsettled
    · next hstatus =>
      rw [if_pos hstatus]
      exact ⟨_, store_answered failed hsettled rfl, rfl⟩
    · next hstatus =>
      rw [if_neg hstatus]
      exact ⟨_, answered_kept _ hsettled rfl, rfl⟩
  | storing response' =>
    rw [hstate] at hphase
    obtain rfl := hunique response' hphase.1
    rw [step_settled_of_ne hc (by rw [hstate]; nofun)]
    unfold settledAnswer
    rw [if_pos hphase.2]
    exact ⟨_, store_answered failed hc hstate, rfl⟩
  | answered answer =>
    rw [hstate] at hphase
    refine ⟨c, answered_kept _ (answered_kept _ hc hstate) hstate, ?_⟩
    rcases hphase with ⟨hnone, -⟩ | ⟨response', hother, rfl⟩ | ⟨-, hnone | hrejected⟩
    · rw [hnone] at hk
      cases hk
    · obtain rfl := hunique response' hother
      exact hstate
    · rw [hnone] at hk
      cases hk
    · exact absurd (hunique _ hrejected).symm hresponse

/-- The serve side is authoritative for a call: the client gets the response that it makes, and an
answer from the cache only when the session is gone. -/
structure LiveAuthoritative (H : GitRelayHost) (cache : OrdMap String GitCacheRecord)
    (events : List GitRelayEvent) (n : Nat) (c : GitRelayCall) : Prop where
  live : ∀ body pending, ServeSideResponded H (GitRelay.run H cache events) c body pending →
    ∃ response,
      GitServe.respondResponse (H.serve c.toRequest.sessionId) pending body = some response ∧
      Receives H (GitRelay.run H cache events) n (.live (.raw response))
  cached : ∀ record, c.phase = .answered (.cached record) → SessionGone H cache events n c

namespace LiveLemmas

variable {H : GitRelayHost} {cache : OrdMap String GitCacheRecord} {events : List GitRelayEvent}
  {n : Nat} {c : GitRelayCall}

/-! ## The cache and the session, as the call finds them -/

/-- A call has read an entry when the cache had one at that moment. -/
theorem read_iff (hc : (GitRelay.run H cache events).calls[n]? = some c) :
    c.cached ≠ none ↔
      Once (GitRelay.step H) (FindsEntry H n) (GitRelay.init cache) events := by
  constructor
  · intro hread
    have hgained : Once (GitRelay.step H) (fun s event =>
        (¬ ∃ c, s.calls[n]? = some c ∧ c.cached ≠ none) ∧
          ∃ c, (s.step H event).calls[n]? = some c ∧ c.cached ≠ none) (GitRelay.init cache) events :=
      once_of_gained (fun ⟨_, h, _⟩ => nomatch h) ⟨c, hc, hread⟩
    refine hgained.imp fun s event ⟨hnew, c', hc', hread'⟩ => ?_
    obtain ⟨record, hrecord⟩ := Option.ne_none_iff_exists'.mp hread'
    rcases GitRelayLemmas.callStep_of_step hc' with hold | ⟨c, hc, hstep, move, rfl⟩ |
      ⟨-, client, found, -, -, rfl⟩
    · exact absurd ⟨c', hold, hread'⟩ hnew
    · rcases IsolationLemmas.cached_callStep hstep hrecord with hold | ⟨hphase, key, hkey, hget⟩
      · exact absurd ⟨c, hc, by rw [hold]; exact Option.some_ne_none record⟩ hnew
      · have hmoved : s.step H (.call n move) ≠ s := by
          intro hsame
          rw [hsame] at hc'
          exact hnew ⟨c', hc', hread'⟩
        obtain ⟨failed, rfl⟩ := GitRelayLemmas.keyed_of_hashing hc hphase hmoved
        refine ⟨rfl, ?_, c, key, record, hc, hphase, hkey, hget⟩
        -- A failed read finds nothing.
        cases failed with
        | false => rfl
        | true =>
          rw [GitRelayLemmas.call_keyed true hc hphase] at hc'
          obtain ⟨cacheKey, hcacheKey, -⟩ := Option.bind_eq_some_iff.mp hkey
          rw [hcacheKey] at hc'
          cases hc'
          cases hrecord
    · exact absurd rfl hread'
  · intro honce
    have hread : ∃ c, (GitRelay.run H cache events).calls[n]? = some c ∧ c.cached ≠ none := by
      refine honce.kept (I := RelaySound H)
        (P := fun s => ∃ c, s.calls[n]? = some c ∧ c.cached ≠ none)
        (fun s event h => GitRelayLemmas.relaySound_step event h) (relaySound_run H cache []) ?_ ?_
      · intro s event _ hfinds
        cases event with
        | call m move =>
          cases move with
          | keyed failed =>
            obtain ⟨rfl, rfl, c, key, record, hc, hphase, hkey, hget⟩ := hfinds
            obtain ⟨cacheKey, hcacheKey, hstorage⟩ := Option.bind_eq_some_iff.mp hkey
            refine ⟨_, GitRelayLemmas.call_keyed false hc hphase, ?_⟩
            rw [hcacheKey]
            simp only [Bool.false_eq_true, if_false, hstorage, Option.bind_some, hget]
            exact Option.some_ne_none record
          | _ => exact hfinds.elim
        | _ => exact hfinds.elim
      · rintro s event hsound ⟨c, hc, hread⟩
        obtain ⟨c', hc', rfl | hstep⟩ := GitRelayLemmas.call_kept (H := H) event hc
        · exact ⟨c', hc', hread⟩
        · refine ⟨c', hc', ?_⟩
          cases hstep with
          | keyed hphase =>
            have hnone := (hsound n c hc).phase
            unfold PhaseSound at hnone
            rw [hphase] at hnone
            exact absurd hnone.1 hread
          | _ => exact hread
    obtain ⟨c', hc', hread'⟩ := hread
    rw [hc] at hc'
    rwa [← Option.some.inj hc'] at hread'

theorem call_looked {s : GitRelay} (now : Nat) (hc : s.calls[n]? = some c)
    (hphase : c.phase = .looking) (habsent : s.sessions.get? c.toRequest.sessionId = none) :
    (s.step H (.call n (.looked now))).calls[n]? =
      some { c with phase := .answered (withoutSession c.cached) } := by
  unfold GitRelay.step
  simp only [hc]
  unfold GitRelay.move
  simp only [hphase, if_true]
  unfold GitRelay.lookUp
  simp only [habsent]
  exact (GitRelayLemmas.getElem?_setCall hc _ n).trans (if_pos rfl)

/-- A call is answered without a session when the session was not there. -/
theorem absent_iff (hc : (GitRelay.run H cache events).calls[n]? = some c) :
    Once (GitRelay.step H) (FindsAbsent n) (GitRelay.init cache) events ↔
      c.sessionCall = none ∧ c.phase = .answered (withoutSession c.cached) := by
  constructor
  · intro honce
    have habsent : ∃ c, (GitRelay.run H cache events).calls[n]? = some c ∧
        c.sessionCall = none ∧ c.phase = .answered (withoutSession c.cached) := by
      refine honce.kept (I := RelaySound H) (P := fun s => ∃ c, s.calls[n]? = some c ∧
        c.sessionCall = none ∧ c.phase = .answered (withoutSession c.cached))
        (fun s event h => GitRelayLemmas.relaySound_step event h) (relaySound_run H cache []) ?_ ?_
      · intro s event hsound hfinds
        cases event with
        | call m move =>
          cases move with
          | looked now =>
            obtain ⟨rfl, c, hc, hphase, habsent⟩ := hfinds
            refine ⟨_, call_looked now hc hphase habsent, ?_, rfl⟩
            have hnone := (hsound _ c hc).phase
            unfold PhaseSound at hnone
            rw [hphase] at hnone
            exact hnone
          | _ => exact hfinds.elim
        | _ => exact hfinds.elim
      · rintro s event - ⟨c, hc, hnone, hphase⟩
        exact ⟨c, answered_kept event hc hphase, hnone, hphase⟩
    obtain ⟨c', hc', habsent⟩ := habsent
    rw [hc] at hc'
    rwa [← Option.some.inj hc'] at habsent
  · rintro ⟨hnone, hphase⟩
    have hwithout : ∀ answer, .answered answer = c.phase → answer = withoutSession c.cached := by
      intro answer hanswer
      rw [hphase] at hanswer
      exact GitRelayPhase.answered.inj hanswer
    have hgained : Once (GitRelay.step H) (fun s event => ¬ s.calls[n]? = some c ∧
        (s.step H event).calls[n]? = some c) (GitRelay.init cache) events :=
      once_of_gained nofun hc
    refine hgained.imp fun s event ⟨hnew, hgains⟩ => ?_
    rcases GitRelayLemmas.callStep_of_step hgains with hold | ⟨d, hd, hstep, move, rfl⟩ |
      ⟨-, client, found, -, -, rfl⟩
    · exact absurd hold hnew
    · have hmoved : s.step H (.call n move) ≠ s := by
        intro hsame
        rw [hsame] at hgains
        exact hnew hgains
      cases hstep with
      | absent hlooking habsent =>
        obtain ⟨now, rfl⟩ := GitRelayLemmas.looked_of_looking hd hlooking hmoved
        exact ⟨rfl, d, hd, hlooking, habsent⟩
      | settled _ hcall _ _ | rejected _ hcall _ =>
        rw [hnone] at hcall
        cases hcall
      | thrown _ | stored _ =>
        have hanswer := hwithout _ rfl
        unfold withoutSession at hanswer
        split at hanswer <;> cases hanswer
      | keyed _ _ | handed _ _ _ | storing _ _ _ _ => cases hphase
    · cases hphase

/-- The answer says that the session, or the repository behind it, is gone. -/
def SaysGone (response : GitAnswer) : Prop :=
  response.status = some 404 ∨ response.status = some 410

theorem settledAnswer_live_iff (cached : Option GitCacheRecord) (response : GitAnswer) :
    settledAnswer cached response = .live response ↔ cached = none ∨ ¬ SaysGone response := by
  unfold settledAnswer fallback SaysGone
  cases cached with
  | none => simp
  | some record =>
    by_cases hgone : response.status = some 404 ∨ response.status = some 410
    · have hfailed : response.status ≠ some 200 := by
        intro hsuccess
        rw [hsuccess] at hgone
        simp at hgone
      simp [hgone, hfailed]
    · simp [hgone]

/-- A response says so exactly if its respond does: a refusal that is answered otherwise has another
status. -/
theorem saysGone_raw_iff {H : GitServeHost} {pending : PendingGitRequest} {body : RespondBody}
    {response : RawResponse} (hbuilt : GitServe.respondResponse H pending body = some response) :
    SaysGone (.raw response) ↔ toUint16 body.status = 404 ∨ toUint16 body.status = 410 := by
  show some response.status = some 404 ∨ some response.status = some 410 ↔ _
  rw [Option.some_inj, Option.some_inj]
  rcases status_respondResponse hbuilt with hsame | ⟨hrefusal, hsuccess⟩
  · rw [hsame]
  · rw [hsuccess, hrefusal.status]
    decide

theorem receives_unique {s : GitRelay} {answer answer' : GitRelayAnswer} (h : Receives H s n answer)
    (h' : Receives H s n answer') : answer = answer' := by
  obtain ⟨c, hc, hphase⟩ := h false
  obtain ⟨c', hc', hphase'⟩ := h' false
  rw [hc] at hc'
  cases hc'
  exact GitRelayPhase.answered.inj (hphase.symm.trans hphase')

/-- A call gets the response of its session exactly if nothing is cached or the response
does not say that the session is gone. -/
theorem receives_live_iff (hc : (GitRelay.run H cache events).calls[n]? = some c)
    {response : RawResponse}
    (hanswered : SessionAnswered H (GitRelay.run H cache events) c (.raw response)) :
    Receives H (GitRelay.run H cache events) n (.live (.raw response)) ↔
      (Once (GitRelay.step H) (FindsEntry H n) (GitRelay.init cache) events →
        ¬ SaysGone (.raw response)) := by
  have hsettled := receives_settled hc (relaySound_run H cache events n c hc).phase hanswered nofun
  have hlive : Receives H (GitRelay.run H cache events) n (.live (.raw response)) ↔
      settledAnswer c.cached (.raw response) = .live (.raw response) :=
    ⟨receives_unique hsettled, fun hsame => hsame ▸ hsettled⟩
  rw [hlive, settledAnswer_live_iff, ← read_iff hc, or_iff_not_imp_left]

/-- A call that gets a cached answer has not reached its session, or its session says that it is
gone; when no response of the serve side says so, the session is inactive. -/
theorem sessionGone_of_cached (hc : (GitRelay.run H cache events).calls[n]? = some c)
    {record : GitCacheRecord}
    (hphase : c.phase = .answered (.cached record))
    (hraw : ∀ response, SessionAnswered H (GitRelay.run H cache events) c (.raw response) →
      ¬ SaysGone (.raw response)) : SessionGone H cache events n c := by
  have hsound := relaySound_run H cache events n c hc
  obtain ⟨hrecord, hnone | ⟨answer, ⟨k, hcall, hanswer⟩, hgone⟩⟩ :=
    GitRelayLemmas.cached_answered hsound.phase hphase
  · refine .inl ((absent_iff hc).mpr ⟨hnone, ?_⟩)
    rw [hphase, hrecord]
    rfl
  · obtain ⟨before, after, request, now, hsession, hrequest, hk⟩ := hsound.handed k hcall
    have hget := hanswer
    unfold GitRelay.session at hget
    rw [hsession] at hget
    have hother : ∀ response, answer ≠ .raw response := by
      rintro response rfl
      exact hraw response ⟨k, hcall, hanswer⟩ hgone
    rcases answer_cases hk (isGit_sessionRequest hrequest) hget hother with hstatus | hstatus |
      ⟨-, hinactive⟩
    · rw [hstatus] at hgone
      simp at hgone
    · rw [hstatus] at hgone
      simp at hgone
    · exact .inr ⟨k, _, hcall, hsession, hinactive⟩

end LiveLemmas

open LiveLemmas

/-- The serve side is authoritative for a call exactly when its respond makes a response, and has
another status than 404 and 410 if the cache had an entry for the request. -/
theorem live_authoritative_iff (H : GitRelayHost) (cache : OrdMap String GitCacheRecord)
    (events : List GitRelayEvent) (n : Nat) (c : GitRelayCall)
    (hc : (GitRelay.run H cache events).calls[n]? = some c) :
    LiveAuthoritative H cache events n c ↔
      ∀ body pending, ServeSideResponded H (GitRelay.run H cache events) c body pending →
        GitServe.Renders body ∧
          (Once (GitRelay.step H) (FindsEntry H n) (GitRelay.init cache) events →
            toUint16 body.status ≠ 404 ∧ toUint16 body.status ≠ 410) := by
  have hsound := relaySound_run H cache events n c hc
  have hrenders : ∀ {pending body},
      (GitServe.respondResponse (H.serve c.toRequest.sessionId) pending body).isSome = true ↔
        GitServe.Renders body := GitServe.respondResponse_isSome_iff
  constructor
  · rintro ⟨hlive, -⟩ body pending hresponded
    obtain ⟨response, hbuilt, hreceives⟩ := hlive body pending hresponded
    refine ⟨hrenders.mp (Option.isSome_iff_exists.mpr ⟨response, hbuilt⟩), fun hfinds => ?_⟩
    have hanswered := (sessionAnswered_raw_iff hsound).mpr ⟨body, pending, hresponded, hbuilt⟩
    have hthere := (receives_live_iff hc hanswered).mp hreceives hfinds
    rwa [saysGone_raw_iff hbuilt, not_or] at hthere
  · intro hcond
    refine ⟨fun body pending hresponded => ?_, fun record hphase => ?_⟩
    · obtain ⟨hbody, hstatus⟩ := hcond body pending hresponded
      obtain ⟨response, hbuilt⟩ := Option.isSome_iff_exists.mp (hrenders.mpr hbody)
      have hanswered := (sessionAnswered_raw_iff hsound).mpr ⟨body, pending, hresponded, hbuilt⟩
      refine ⟨response, hbuilt, (receives_live_iff hc hanswered).mpr fun hfinds => ?_⟩
      rw [saysGone_raw_iff hbuilt, not_or]
      exact hstatus hfinds
    · refine sessionGone_of_cached hc hphase fun response hanswered => ?_
      obtain ⟨body, pending, hresponded, hbuilt⟩ := (sessionAnswered_raw_iff hsound).mp hanswered
      have hrecord := (GitRelayLemmas.cached_answered hsound.phase hphase).1
      have hfinds := (read_iff hc).mp (by rw [hrecord]; exact Option.some_ne_none record)
      rw [saysGone_raw_iff hbuilt, not_or]
      exact (hcond body pending hresponded).2 hfinds

/-! ## A live answer that is replaced -/

/-- The serve side of `alice/x__y` responds to the next request with this status. -/
def respondAgain (status : Nat) : List GitRelayEvent :=
  readAgain getHead ++ [
    .session "alice/x__y" (.fetch ⟨.post "/respond" [("session_token", "r")] []
      (Platform.toy.stringify (.obj [("request_id", .str "rrrr"), ("status", .ofNat status)])),
      none⟩ 5),
    .session "alice/x__y" (.bodyRead 4 6)]

/-- The second call for the head, which has read the entry of the first one. -/
def headCall : GitRelayCall where
  toRequest := ⟨getHead.request, "alice/x__y", "HEAD"⟩
  cached := some ⟨[], none, "", "alice/x__y", 0⟩
  sessionCall := some 3
  phase := .fetching

theorem live_authoritative_head :
    (GitRelay.run toyGitRelayHost ∅ (respondAgain 500)).calls[1]? = some headCall ∧
      (LiveAuthoritative toyGitRelayHost ∅ (respondAgain 500) 1 headCall ↔
        ∀ body pending, ServeSideResponded toyGitRelayHost
            (GitRelay.run toyGitRelayHost ∅ (respondAgain 500)) headCall body pending →
          GitServe.Renders body ∧
            (Once (GitRelay.step toyGitRelayHost) (FindsEntry toyGitRelayHost 1) (GitRelay.init ∅)
              (respondAgain 500) → toUint16 body.status ≠ 404 ∧ toUint16 body.status ≠ 410)) := by
  have hc : (GitRelay.run toyGitRelayHost ∅ (respondAgain 500)).calls[1]? = some headCall := by
    decide +kernel
  exact ⟨hc, live_authoritative_iff toyGitRelayHost ∅ (respondAgain 500) 1 headCall hc⟩

/-- A serve side that answers 404 is not heard when the cache has an older answer. -/
theorem live_answer_replaced :
    ¬ ∀ (H : GitRelayHost) (cache : OrdMap String GitCacheRecord) (events : List GitRelayEvent)
      (n : Nat) (c : GitRelayCall), (GitRelay.run H cache events).calls[n]? = some c →
        LiveAuthoritative H cache events n c := by
  intro h
  have hc : (GitRelay.run toyGitRelayHost ∅ (respondAgain 404)).calls[1]? = some headCall := by
    decide +kernel
  have hsound := relaySound_run toyGitRelayHost ∅ (respondAgain 404) 1 headCall hc
  have hanswered : SessionAnswered toyGitRelayHost
      (GitRelay.run toyGitRelayHost ∅ (respondAgain 404)) headCall (.raw ⟨404, ∅, none⟩) :=
    ⟨3, rfl, by decide +kernel⟩
  obtain ⟨body, pending, hresponded, hbuilt⟩ := (sessionAnswered_raw_iff hsound).mp hanswered
  obtain ⟨response, hbuilt', hreceives⟩ :=
    (h toyGitRelayHost ∅ (respondAgain 404) 1 headCall hc).live body pending hresponded
  rw [hbuilt] at hbuilt'
  cases hbuilt'
  obtain ⟨c₁, hc₁, hphase₁⟩ := hreceives false
  obtain ⟨c₂, hc₂, hphase₂⟩ := receives_settled hc hsound.phase hanswered nofun false
  rw [hc₁] at hc₂
  cases hc₂
  rw [hphase₁] at hphase₂
  revert hphase₂
  decide

end BitRelay
