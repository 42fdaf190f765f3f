import BitRelay.GitCache.Live
import BitRelay.GitServe.Queue

/-!
# Pushes and the cache

A push goes the same way as a clone: its answer is stored when it has status 200, and the same push
is answered from the cache when the session is gone. A client that sends it again is told that it
was taken, although nobody got it.

Results:
1. `push_confirmed_iff`: a push is acknowledged by the serve side, unless the cache had an answer to
   the same push and the session was gone.
2. `push_replayed`: a push is acknowledged from the cache.
-/

namespace BitRelay

/-- A push: a POST to the receive-pack path of a session. -/
structure GitRelayRequest.IsPush (r : GitRelayRequest) : Prop where
  method : normalizeMethod r.method = "POST"
  path : endsWith r.request.request.pathname "/git-receive-pack" = true

/-- The relay takes a push in the place of a serve side that takes none: all refs that are read from
the body of this push are incoming refs. -/
structure GitServe.AcceptsIncoming (H : GitServeHost) (push : GitRelayRequest)
    (pending : PendingGitRequest) (body : RespondBody) : Prop where
  answers : AnswersRefusal H pending body
  incomingOnly : shouldCompatAcceptIncomingOnlyPush pending = true
  read : pending.incomingRefs = (push.request.bytes.map extractIncomingRefs).getD [] ∧
    pending.allRelayRefs = (push.request.bytes.map extractAllRelayRefs).getD []

/-- The serve side has answered this push with a success, or it takes no pushes and this one is of
incoming refs. -/
def ServeSideConfirmed (H : GitRelayHost) (s : GitRelay) (c : GitRelayCall) : Prop :=
  ∃ body pending response, ServeSideResponded H s c body pending ∧
    GitServe.respondResponse (H.serve c.toRequest.sessionId) pending body = some response ∧
    ((200 ≤ toUint16 body.status ∧ toUint16 body.status < 300) ∨
      GitServe.AcceptsIncoming (H.serve c.toRequest.sessionId) c.toRequest pending body)

/-- The answer to a push comes from its session, and a 200 from the serve side. -/
structure PushConfirmed (H : GitRelayHost) (s : GitRelay) (c : GitRelayCall)
    (answer : GitRelayAnswer) : Prop where
  acknowledged : answer.toAnswer.status = some 200 → ServeSideConfirmed H s c
  uncached : ∀ record, answer ≠ .cached record

namespace PushLemmas

/-- The path of a push in the session is the path of no advertisement. -/
theorem not_infoRefs {H : GitServeHost} {push : GitRelayRequest} (hadmitted : push.Admitted)
    (hpush : push.IsPush) (call now timeoutId : Nat) (request : Request) (bytes : Option Bytes) :
    isReceivePackInfoRefsPath (GitServe.pendingGitRequest H call now request ("/" ++ push.gitSubPath) bytes
      timeoutId).path = false := by
  have hpath := splitPath_searchOf hadmitted.question_notMem
    (request.query.filter fun p => decide (p.1 ≠ "session_token"))
  unfold isReceivePackInfoRefsPath
  simp only [GitServe.pendingGitRequest, hpath]
  have hne : "/" ++ push.gitSubPath ≠ "/info/refs" := by
    intro hinfo
    -- The path would end in two ways.
    obtain ⟨front, hfront⟩ := List.isSuffixOf_iff_suffix.mp hpush.path
    rw [hadmitted.pathname, String.append_assoc, hinfo] at hfront
    have hlast := congrArg List.getLast? hfront
    rw [String.toList_append, List.getLast?_append, List.getLast?_append] at hlast
    have hpack : "/git-receive-pack".toList.getLast? = some 'k' := by decide
    have hrefs : "/info/refs".toList.getLast? = some 's' := by decide
    rw [hpack, hrefs] at hlast
    exact absurd (Option.some.inj hlast) (by decide)
  rw [beq_eq_false_iff_ne.mpr hne, Bool.false_and]

variable {H : GitRelayHost} {s : GitRelay} {c : GitRelayCall}

/-- The queue entry of a push is made of its request. -/
theorem pending_of_responded {body : RespondBody} {pending : PendingGitRequest}
    (hsound : CallSound H s c) (hpush : c.toRequest.IsPush)
    (hresponded : ServeSideResponded H s c body pending) :
    ∃ (request : Request) (call now timeoutId : Nat), pending =
      GitServe.pendingGitRequest (H.serve c.toRequest.sessionId) call now request
        ("/" ++ c.toRequest.gitSubPath) c.toRequest.request.bytes timeoutId := by
  obtain ⟨k, events, hcall, hsession, before, event, after, hsplit, hto, rfl⟩ := hresponded
  obtain ⟨before', after', request, now', hsession', hrequest, hk⟩ := hsound.handed _ hcall
  rw [hsession] at hsession'
  obtain ⟨_, _, _, _, -, -, -, -, -, hget⟩ := GitServe.respondTo_cases hto
  have hqueue := (GitServe.queued_as_requested (H.serve c.toRequest.sessionId) before).pending
  rw [GitServe.ServeRun.session_after] at hqueue
  obtain ⟨request', gitPath, now, timeoutId, hcalls, hpath, hentry⟩ :=
    hqueue pending (List.mem_map_of_mem (OrdMap.get?_eq_some_iff.mp hget))
  have hsame : request' = request := by
    have hfirst := LiveLemmas.call_of_prefix (event :: after) hcalls
    have hsecond := LiveLemmas.call_of_fetch (H.serve c.toRequest.sessionId) before' after' request now'
    rw [← hk, ← Option.some.inj hsession', hsplit, hfirst] at hsecond
    exact Option.some.inj hsecond
  subst hsame
  unfold sessionRequest at hrequest
  split at hrequest
  · cases hrequest
  · cases hrequest
    unfold gitDoRequest at hpath hentry
    simp only [LiveLemmas.gitPath?_git, Option.some.injEq] at hpath
    have hmethod := hpush.method
    unfold GitRelayRequest.method at hmethod
    simp only [hmethod, if_true, ← hpath] at hentry
    exact ⟨_, _, now, timeoutId, hentry⟩

/-- A success that the serve side has not said is the compatible answer to a push of incoming
refs. -/
theorem confirmed_of_raw {response : RawResponse} (hsound : CallSound H s c)
    (hpush : c.toRequest.IsPush) (hanswered : SessionAnswered H s c (.raw response))
    (hstatus : response.status = 200) : ServeSideConfirmed H s c := by
  obtain ⟨body, pending, hresponded, hbuilt⟩ :=
    (LiveLemmas.sessionAnswered_raw_iff hsound).mp hanswered
  refine ⟨body, pending, response, hresponded, hbuilt, ?_⟩
  rcases LiveLemmas.status_respondResponse hbuilt with hsame | ⟨hanswers, -⟩
  · left
    rw [← hsame, hstatus]
    exact ⟨by decide, by decide⟩
  · obtain ⟨request, call, now, timeoutId, hpending⟩ :=
      pending_of_responded hsound hpush hresponded
    have hinfo : isReceivePackInfoRefsPath pending.path = false := by
      rw [hpending]
      exact not_infoRefs hsound.admitted hpush call now timeoutId request _
    have hincoming : shouldCompatAcceptIncomingOnlyPush pending = true := by
      rcases hanswers.compat with hrefs | hincoming
      · rw [hinfo] at hrefs
        cases hrefs
      · exact hincoming
    refine .inr ⟨hanswers, hincoming, ?_⟩
    have hrpc : isReceivePackRpcPath pending.path = true := by
      unfold shouldCompatAcceptIncomingOnlyPush at hincoming
      simp only [Bool.and_eq_true] at hincoming
      exact hincoming.1.1.1
    have hpath : "/" ++ c.toRequest.gitSubPath = "/git-receive-pack" := by
      unfold isReceivePackRpcPath at hrpc
      rw [hpending] at hrpc
      unfold GitServe.pendingGitRequest at hrpc
      rw [splitPath_searchOf hsound.admitted.question_notMem, beq_iff_eq] at hrpc
      exact hrpc
    have hpacked : endsWith "/git-receive-pack" "/git-receive-pack" = true := by decide
    rw [hpending, hpath]
    unfold GitServe.pendingGitRequest
    simp only [hpacked, if_true]
    exact ⟨trivial, trivial⟩

/-- No answer that the session makes up itself is a success. -/
theorem status_json {response : Response} (hsound : CallSound H s c)
    (hanswered : SessionAnswered H s c (.json response)) :
    (GitAnswer.json response).status ≠ some 200 := by
  obtain ⟨k, hcall, hanswer⟩ := hanswered
  obtain ⟨before, after, request, now, hsession, hrequest, hk⟩ := hsound.handed k hcall
  unfold GitRelay.session at hanswer
  rw [hsession] at hanswer
  intro hstatus
  rcases LiveLemmas.answer_cases hk (LiveLemmas.isGit_sessionRequest hrequest) hanswer nofun with
    hother | hother | ⟨hother | hother, -⟩
  · cases hother
  · cases hstatus.symm.trans hother
  · cases hstatus.symm.trans hother
  · cases hstatus.symm.trans hother

/-- A push with a live answer is confirmed if that says so. -/
theorem confirmed_of_live {response : GitAnswer} (hsound : CallSound H s c)
    (hpush : c.toRequest.IsPush) (hanswered : SessionAnswered H s c response) :
    PushConfirmed H s c (.live response) := by
  refine ⟨fun hstatus => ?_, nofun⟩
  cases response with
  | raw response => exact confirmed_of_raw hsound hpush hanswered (Option.some.inj hstatus)
  | json response => exact absurd hstatus (status_json hsound hanswered)
  | rejected => cases hstatus

variable {cache : OrdMap String GitCacheRecord} {events : List GitRelayEvent} {n : Nat}
  {answer : GitRelayAnswer}

/-- An entry that the call has read is its answer when the session was absent. -/
theorem cached_of_absent (hc : (GitRelay.run H cache events).calls[n]? = some c)
    (hphase : c.phase = .answered answer) {record : GitCacheRecord}
    (hrecord : c.cached = some record)
    (habsent : Once (GitRelay.step H) (FindsAbsent n) (GitRelay.init cache) events) :
    answer = .cached record := by
  have hanswer := ((LiveLemmas.absent_iff hc).mp habsent).2
  rw [hphase, hrecord] at hanswer
  exact GitRelayPhase.answered.inj hanswer

/-- It is the answer, too, when the session says that the repository is gone. -/
theorem cached_of_saysGone (hc : (GitRelay.run H cache events).calls[n]? = some c)
    (hphase : c.phase = .answered answer) {record : GitCacheRecord}
    (hrecord : c.cached = some record) {response : GitAnswer}
    (hanswered : SessionAnswered H (GitRelay.run H cache events) c response)
    (hgone : LiveLemmas.SaysGone response) : answer = .cached record := by
  have hresponse : response ≠ .rejected := by
    rintro rfl
    rcases hgone with hstatus | hstatus
    · cases hstatus
    · cases hstatus
  have hother : response.status ≠ some 200 := by
    rcases hgone with hstatus | hstatus
    · rw [hstatus]
      decide
    · rw [hstatus]
      decide
  obtain ⟨c', hc', hphase'⟩ := receives_settled hc (relaySound_run H cache events n c hc).phase
    hanswered hresponse false
  have hkept := LiveLemmas.answered_kept (H := H) (.call n (.stored false))
    (LiveLemmas.answered_kept (H := H) (.call n .settled) hc hphase) hphase
  change (runFrom (GitRelay.step H) (GitRelay.run H cache events)
    [.call n .settled, .call n (.stored false)]).calls[n]? = some c at hkept
  rw [hkept] at hc'
  cases hc'
  rw [hphase] at hphase'
  refine (GitRelayPhase.answered.inj hphase').trans ?_
  unfold settledAnswer fallback
  rw [if_neg hother, hrecord]
  exact if_pos hgone

end PushLemmas

open PushLemmas

/-- The serve side has confirmed a push that is acknowledged, and none is answered from the cache,
exactly when it is not so that the cache had an entry for the push and its session was absent or
answered 404 or 410. -/
theorem push_confirmed_iff (H : GitRelayHost) (cache : OrdMap String GitCacheRecord)
    (events : List GitRelayEvent) (n : Nat) (c : GitRelayCall) (answer : GitRelayAnswer)
    (hc : (GitRelay.run H cache events).calls[n]? = some c) (hpush : c.toRequest.IsPush)
    (hphase : c.phase = .answered answer) :
    PushConfirmed H (GitRelay.run H cache events) c answer ↔
      ¬ (Once (GitRelay.step H) (FindsEntry H n) (GitRelay.init cache) events ∧
        (Once (GitRelay.step H) (FindsAbsent n) (GitRelay.init cache) events ∨
          ∃ response, SessionAnswered H (GitRelay.run H cache events) c response ∧
            (response.status = some 404 ∨ response.status = some 410))) := by
  have hsound := relaySound_run H cache events n c hc
  have hcase := hsound.phase
  unfold PhaseSound at hcase
  rw [hphase] at hcase
  constructor
  · rintro ⟨-, huncached⟩ ⟨hfinds, hgone⟩
    obtain ⟨record, hrecord⟩ := Option.ne_none_iff_exists'.mp ((LiveLemmas.read_iff hc).mpr hfinds)
    rcases hgone with habsent | ⟨response, hanswered, hstatus⟩
    · exact huncached record (cached_of_absent hc hphase hrecord habsent)
    · exact huncached record (cached_of_saysGone hc hphase hrecord hanswered hstatus)
  · intro hcond
    have hentry : ∀ {record}, c.cached = some record →
        Once (GitRelay.step H) (FindsEntry H n) (GitRelay.init cache) events := by
      intro record hrecord
      exact (LiveLemmas.read_iff hc).mp (by rw [hrecord]; exact Option.some_ne_none record)
    rcases hcase with ⟨hnone, hanswer⟩ | ⟨response, hanswered, hanswer⟩ | ⟨rfl, -⟩
    · cases hcached : c.cached with
      | none =>
        rw [hcached] at hanswer
        rw [hanswer]
        exact ⟨nofun, nofun⟩
      | some record =>
        have habsent := (LiveLemmas.absent_iff hc).mpr ⟨hnone, by rw [hphase, hanswer]⟩
        exact absurd ⟨hentry hcached, .inl habsent⟩ hcond
    · have hlive : PushConfirmed H (GitRelay.run H cache events) c (.live response) :=
        confirmed_of_live hsound hpush hanswered
      split at hanswer
      · exact hanswer ▸ hlive
      · unfold fallback at hanswer
        split at hanswer
        · next record hrecord =>
          split at hanswer
          · next hstatus =>
            exact absurd ⟨hentry hrecord, .inr ⟨response, hanswered, hstatus⟩⟩ hcond
          · exact hanswer ▸ hlive
        · exact hanswer ▸ hlive
    · exact ⟨nofun, nofun⟩

/-! ## A push that is sent twice -/

def pushOnce : GitClientRequest where
  request := ⟨.post "/git/alice/x__y/git-receive-pack" [] [] ⟨"", none⟩, some []⟩
  method := by decide
  path := by decide

/-- The serve side takes the push, and its answer is stored; then the session ends, and the same
push is sent again. -/
def pushAgain : List GitRelayEvent := [
  .opened "alice/x__y",
  .session "alice/x__y" (.fetch ⟨.post "/register" [] [] ⟨"", none⟩, none⟩ 0),
  .request pushOnce,
  .call 0 (.keyed false),
  .call 0 (.looked 1),
  .session "alice/x__y" (.bodyRead 1 2),
  .session "alice/x__y" (.fetch ⟨.post "/respond" [("session_token", "r")] []
    (Platform.toy.stringify (.obj [("request_id", .str "rr")])), none⟩ 3),
  .session "alice/x__y" (.bodyRead 2 4),
  .call 0 .settled,
  .call 0 (.stored false),
  .session "alice/x__y" .cleanup,
  .request pushOnce,
  .call 1 (.keyed false),
  .call 1 (.looked 5),
  .call 1 .settled]

/-- The first push, when its answer is stored. -/
def pushCall : GitRelayCall where
  toRequest := ⟨pushOnce.request, "alice/x__y", "git-receive-pack"⟩
  cached := none
  sessionCall := some 1
  phase := .answered (.live (.raw ⟨200, ∅, none⟩))

/-- The second push, which is answered from the cache. -/
def pushCall' : GitRelayCall where
  toRequest := ⟨pushOnce.request, "alice/x__y", "git-receive-pack"⟩
  cached := some ⟨[], none, "", "alice/x__y", 0⟩
  sessionCall := some 3
  phase := .answered (.cached ⟨[], none, "", "alice/x__y", 0⟩)

theorem isPush_pushOnce :
    (⟨pushOnce.request, "alice/x__y", "git-receive-pack"⟩ : GitRelayRequest).IsPush :=
  ⟨by decide, by decide⟩

theorem push_confirmed_once :
    (GitRelay.run toyGitRelayHost ∅ pushAgain).calls[0]? = some pushCall ∧
      (PushConfirmed toyGitRelayHost (GitRelay.run toyGitRelayHost ∅ pushAgain) pushCall
          (.live (.raw ⟨200, ∅, none⟩)) ↔
        ¬ (Once (GitRelay.step toyGitRelayHost) (FindsEntry toyGitRelayHost 0) (GitRelay.init ∅)
            pushAgain ∧
          (Once (GitRelay.step toyGitRelayHost) (FindsAbsent 0) (GitRelay.init ∅) pushAgain ∨
            ∃ response, SessionAnswered toyGitRelayHost (GitRelay.run toyGitRelayHost ∅ pushAgain)
              pushCall response ∧ (response.status = some 404 ∨ response.status = some 410)))) := by
  have hc : (GitRelay.run toyGitRelayHost ∅ pushAgain).calls[0]? = some pushCall := by
    decide +kernel
  exact ⟨hc, push_confirmed_iff toyGitRelayHost ∅ pushAgain 0 pushCall _ hc isPush_pushOnce rfl⟩

/-- The second push gets a 200, although the serve side is gone. -/
theorem push_replayed :
    ¬ ∀ (H : GitRelayHost) (cache : OrdMap String GitCacheRecord) (events : List GitRelayEvent)
      (n : Nat) (c : GitRelayCall) (answer : GitRelayAnswer),
      (GitRelay.run H cache events).calls[n]? = some c → c.toRequest.IsPush →
        c.phase = .answered answer → answer.toAnswer.status = some 200 →
        ServeSideConfirmed H (GitRelay.run H cache events) c := by
  intro h
  have hc : (GitRelay.run toyGitRelayHost ∅ pushAgain).calls[1]? = some pushCall' := by
    decide +kernel
  have hanswer : ((GitRelay.run toyGitRelayHost ∅ pushAgain).session toyGitRelayHost
      "alice/x__y").answers.get? 3 = some (.json (toErrorResponse "session not active" 404)) := by
    decide +kernel
  obtain ⟨body, pending, response, hresponded, hbuilt, -⟩ :=
    h toyGitRelayHost ∅ pushAgain 1 pushCall' _ hc isPush_pushOnce rfl rfl
  have hsound := relaySound_run toyGitRelayHost ∅ pushAgain 1 pushCall' hc
  obtain ⟨k, hcall, hraw⟩ :=
    (LiveLemmas.sessionAnswered_raw_iff hsound).mpr ⟨body, pending, hresponded, hbuilt⟩
  cases hcall
  cases hanswer.symm.trans hraw

end BitRelay
