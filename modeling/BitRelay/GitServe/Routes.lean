import BitRelay.GitServe.Invariant

/-!
# Git routes of the worker

A path such as `/git/AbCdEfGh/info/refs` names the session `AbCdEfGh/info` and the random session
`AbCdEfGh`. The worker asks the named one first and takes a 404 for "not active"; then it sends the
request again, to the other one. The body of a request can be sent only once.

Results:
1. `settles_inactive`: an inactive session answers with a 404 of its own.
2. `routes_exclusively_iff`: the paths, answers and bodies with which the request reaches one session
   and comes back with its answer.
-/

namespace BitRelay

/-! ## Paths -/

/-- A segment that matches `[A-Za-z0-9][A-Za-z0-9._-]*`. -/
def isNameSegment : List Char → Bool
  | [] => false
  | c :: cs => c.isAlphanum && cs.all isNameChar

/-- A segment that matches `[A-Za-z0-9]{6,16}`. -/
def isRandomSegment (cs : List Char) : Bool :=
  decide (6 ≤ cs.length) && decide (cs.length ≤ 16) && cs.all Char.isAlphanum

/-- What stands before the first slash, and behind it. -/
def splitSegment (cs : List Char) : Option (List Char × List Char) :=
  match cs.span (· ≠ '/') with
  | (segment, _ :: rest) => some (segment, rest)
  | (_, []) => none

/-- A match of one of the git patterns. -/
structure GitMatch where
  sessionId : String
  gitPath : String
  deriving DecidableEq

/-- `/^\/git\/([A-Za-z0-9]{6,16})\/(.*)/` -/
def randomGitMatch (pathname : String) : Option GitMatch :=
  if startsWith pathname "/git/" = false then none
  else
    match splitSegment (sliceFrom pathname 5).toList with
    | some (id, rest) =>
      if isRandomSegment id = true then some ⟨.ofList id, .ofList rest⟩ else none
    | none => none

/-- `/^\/git\/([A-Za-z0-9][A-Za-z0-9._-]*)\/([A-Za-z0-9][A-Za-z0-9._-]*)\/(.*)/` -/
def namedGitMatch (pathname : String) : Option GitMatch :=
  if startsWith pathname "/git/" = false then none
  else
    match splitSegment (sliceFrom pathname 5).toList with
    | some (owner, tail) =>
      match splitSegment tail with
      | some (repo, rest) =>
        if isNameSegment owner = true ∧ isNameSegment repo = true
        then some ⟨.ofList owner ++ "/" ++ .ofList repo, .ofList rest⟩ else none
      | none => none
    | none => none

/-! ## Sessions -/

def GitAnswer.status : GitAnswer → Option Nat
  | .json response => some response.status
  | .raw response => some response.status
  | .rejected => none

/-- The answer of a session that nobody serves. -/
def sessionNotActive : GitAnswer := .json (toErrorResponse "session not active" 404)

/-- The git-serve objects behind the worker, by their names, and what the serve side of an active
one answers in the end. -/
structure GitSessions where
  session : String → GitServe
  served : String → GitServeRequest → GitAnswer

namespace GitSessions

variable (S : GitSessions)

def active (sessionId : String) : Bool := (S.session sessionId).state.active

/-- `getGitServeSessionStub(env, sessionId).fetch(request)` -/
def stubFetch (sessionId : String) (request : GitServeRequest) : GitAnswer :=
  if S.active sessionId = true then S.served sessionId request else sessionNotActive

end GitSessions

/-! ## Routes -/

/-- A request of a git client; without a body `request.body` is null. -/
structure GitRequest where
  request : GitServeRequest
  hasBody : Bool
  deriving DecidableEq

/-- The method leaves the body where it is, or there is none. -/
def GitRequest.bodiless (r : GitRequest) : Bool :=
  r.request.request.method == "GET" || r.request.request.method == "HEAD" || !r.hasBody

/-- What has become of a request so far: whether its body was sent, and to whom it went. -/
structure GitRouting where
  bodyUsed : Bool
  handed : List String
  deriving DecidableEq

/-- The request to the object, with the query and the headers as they are. -/
def gitDoRequest (gitPath : String) (request : GitServeRequest) : GitServeRequest :=
  { request with request := { request.request with pathname := "/git/" ++ gitPath } }

/-- `handleGitRoute`: a body that was sent before makes `new Request` throw. -/
def handleGitRoute (S : GitSessions) (found : GitMatch) (r : GitRequest) (routing : GitRouting) :
    GitAnswer × GitRouting :=
  if routing.bodyUsed = true ∧ r.bodiless = false then (.rejected, routing)
  else
    (S.stubFetch found.sessionId (gitDoRequest found.gitPath r.request),
      ⟨routing.bodyUsed || !r.bodiless, routing.handed ++ [found.sessionId]⟩)

/-- The git routes of `handleWorkerRequest`, with `GIT_SERVE_SESSION` bound. -/
def handleGitRoutes (S : GitSessions) (r : GitRequest) : Option (GitAnswer × GitRouting) :=
  let pathname := r.request.request.pathname
  match namedGitMatch pathname, randomGitMatch pathname with
  | some named, some random =>
    let (response, routing) := handleGitRoute S named r ⟨false, []⟩
    if response.status ≠ some 404 then some (response, routing)
    else some (handleGitRoute S random r routing)
  | some named, none => some (handleGitRoute S named r ⟨false, []⟩)
  | none, some random => some (handleGitRoute S random r ⟨false, []⟩)
  | none, none => none

/-! ## One session for each request -/

/-- The session that a request is for: the named one if it is active, else the random one. -/
def gitTarget (S : GitSessions) (pathname : String) : Option GitMatch :=
  match (namedGitMatch pathname).filter fun named => S.active named.sessionId with
  | some named => some named
  | none => (randomGitMatch pathname).filter fun random => S.active random.sessionId

/-- The request goes to its session and to no other active one, its answer comes back as it is, and
without a session the request does not fail with an exception. -/
structure RoutesExclusively (S : GitSessions) (r : GitRequest) (answer : GitAnswer)
    (routing : GitRouting) : Prop where
  handed : routing.handed.filter S.active =
    ((gitTarget S r.request.request.pathname).map GitMatch.sessionId).toList
  answered : ∀ target, gitTarget S r.request.request.pathname = some target →
    answer = S.served target.sessionId (gitDoRequest target.gitPath r.request)
  unfailed : gitTarget S r.request.request.pathname = none → answer ≠ .rejected

/-- The second try of an ambiguous path does no harm, or there is none. -/
def ToleratesFallback (S : GitSessions) (named random : GitMatch) (r : GitRequest) : Prop :=
  if S.active named.sessionId = true then
    let answer := S.served named.sessionId (gitDoRequest named.gitPath r.request)
    answer.status ≠ some 404 ∨
      (S.active random.sessionId = false ∧ r.bodiless = true ∧ answer = sessionNotActive)
  else r.bodiless = true

/-- An inactive session answers so by itself: the promise of the call is settled at once. -/
theorem settles_inactive {H : GitServeHost} {s : GitServe} (hs : GitServe.Sound H s)
    (hactive : s.state.active = false) (r : GitRequest) (found : GitMatch) (now : Nat) :
    (s.fetch H (gitDoRequest found.gitPath r.request) now).answers.get? s.nextCall =
      some sessionNotActive := by
  have hopen : s.answers.get? s.nextCall = none := by
    cases h : s.answers.get? s.nextCall with
    | none => rfl
    | some answer => exact absurd (hs.answers _ _ h) (lt_irrefl _)
  have hlist : ("/git/" ++ found.gitPath).toList = "/git/".toList ++ found.gitPath.toList :=
    String.toList_append
  have hother : ∀ path : String, startsWith path "/git/" = false →
      ("/git/" ++ found.gitPath : String) ≠ path := by
    rintro path hpath rfl
    unfold startsWith at hpath
    rw [hlist, List.isPrefixOf_iff_prefix.mpr (List.prefix_append _ _)] at hpath
    cases hpath
  obtain ⟨path, hpath⟩ : ∃ path, GitServe.gitPath? ("/git/" ++ found.gitPath) = some path := by
    refine ⟨_, if_pos ?_⟩
    unfold startsWith
    rw [hlist]
    exact List.isPrefixOf_iff_prefix.mpr (List.prefix_append _ _)
  unfold GitServe.fetch gitDoRequest
  simp only
  rw [if_neg (fun h => hother _ (by decide) h.1), if_neg (fun h => hother _ (by decide) h.1),
    if_neg (fun h => hother _ (by decide) h.1), if_neg (fun h => hother _ (by decide) h.1), hpath]
  simp only
  unfold GitServe.handleGitRequest
  rw [if_pos hactive]
  show (s.answers.setNew s.nextCall sessionNotActive).get? s.nextCall = _
  rw [OrdMap.get?_setNew, if_pos rfl, hopen]
  rfl

namespace RouteLemmas

variable {S : GitSessions} {named random : GitMatch} {r : GitRequest}

theorem stubFetch_active (request : GitServeRequest) (h : S.active named.sessionId = true) :
    S.stubFetch named.sessionId request = S.served named.sessionId request := if_pos h

theorem stubFetch_inactive (request : GitServeRequest) (h : S.active named.sessionId = false) :
    S.stubFetch named.sessionId request = sessionNotActive := if_neg (by rw [h]; decide)

/-- A first try always reaches its object. -/
theorem handleGitRoute_first (S : GitSessions) (named : GitMatch) (r : GitRequest) :
    handleGitRoute S named r ⟨false, []⟩ =
      (S.stubFetch named.sessionId (gitDoRequest named.gitPath r.request),
        ⟨!r.bodiless, [named.sessionId]⟩) := by
  unfold handleGitRoute
  rw [if_neg (fun h => by cases h.1)]
  rfl

/-- A second try reaches its object if there is no body to send. -/
theorem handleGitRoute_second (S : GitSessions) (random : GitMatch) (r : GitRequest)
    (handed : List String) :
    handleGitRoute S random r ⟨!r.bodiless, handed⟩ =
      if r.bodiless = true then
        (S.stubFetch random.sessionId (gitDoRequest random.gitPath r.request),
          ⟨false, handed ++ [random.sessionId]⟩)
      else (.rejected, ⟨true, handed⟩) := by
  unfold handleGitRoute
  cases hbody : r.bodiless <;> rfl

variable (hnamed : namedGitMatch r.request.request.pathname = some named)
include hnamed

theorem gitTarget_active (h : S.active named.sessionId = true) :
    gitTarget S r.request.request.pathname = some named := by
  unfold gitTarget
  rw [hnamed, Option.filter_some, if_pos h]

theorem gitTarget_inactive (h : S.active named.sessionId = false) :
    gitTarget S r.request.request.pathname =
      (randomGitMatch r.request.request.pathname).filter fun random => S.active random.sessionId := by
  unfold gitTarget
  rw [hnamed, Option.filter_some, if_neg (by rw [h]; decide)]

/-- A path with one reading is routed to its session. -/
theorem exclusive_of_unambiguous (hrandom : randomGitMatch r.request.request.pathname = none) :
    RoutesExclusively S r (handleGitRoute S named r ⟨false, []⟩).1
      (handleGitRoute S named r ⟨false, []⟩).2 := by
  rw [handleGitRoute_first]
  cases hactive : S.active named.sessionId with
  | true =>
    have htarget := gitTarget_active hnamed hactive
    refine ⟨?_, fun target h => ?_, fun h => ?_⟩
    · rw [htarget, List.filter_cons_of_pos hactive]
      rfl
    · cases htarget.symm.trans h
      exact stubFetch_active _ hactive
    · cases htarget.symm.trans h
  | false =>
    have htarget := gitTarget_inactive hnamed hactive
    rw [hrandom] at htarget
    refine ⟨?_, fun target h => ?_, fun _ => ?_⟩
    · rw [htarget, List.filter_cons_of_neg (by rw [hactive]; decide)]
      rfl
    · cases htarget.symm.trans h
    · rw [stubFetch_inactive _ hactive]
      rintro ⟨⟩

/-- The first try of an ambiguous path, and the second one behind a 404. -/
theorem handleGitRoutes_ambiguous (hrandom : randomGitMatch r.request.request.pathname = some random) :
    handleGitRoutes S r = some (
      let first := S.stubFetch named.sessionId (gitDoRequest named.gitPath r.request)
      if first.status ≠ some 404 then (first, ⟨!r.bodiless, [named.sessionId]⟩)
      else if r.bodiless = true then
        (S.stubFetch random.sessionId (gitDoRequest random.gitPath r.request),
          ⟨false, [named.sessionId, random.sessionId]⟩)
      else (.rejected, ⟨true, [named.sessionId]⟩)) := by
  unfold handleGitRoutes
  simp only [hnamed, hrandom, handleGitRoute_first]
  split
  · rfl
  · rw [handleGitRoute_second]
    rfl

/-- An active named session gets the request, and nobody else does unless it answers 404. -/
theorem exclusive_of_active_iff (hrandom : randomGitMatch r.request.request.pathname = some random)
    (hactive : S.active named.sessionId = true) {answer : GitAnswer} {routing : GitRouting}
    (hrun : handleGitRoutes S r = some (answer, routing)) :
    RoutesExclusively S r answer routing ↔
      (S.served named.sessionId (gitDoRequest named.gitPath r.request)).status ≠ some 404 ∨
        (S.active random.sessionId = false ∧ r.bodiless = true ∧
          S.served named.sessionId (gitDoRequest named.gitPath r.request) = sessionNotActive) := by
  have htarget := gitTarget_active hnamed hactive
  have hone : [named.sessionId].filter S.active = [named.sessionId] :=
    List.filter_cons_of_pos hactive
  rw [handleGitRoutes_ambiguous hnamed hrandom, stubFetch_active _ hactive] at hrun
  simp only at hrun
  by_cases hstatus : (S.served named.sessionId (gitDoRequest named.gitPath r.request)).status ≠ some 404
  · rw [if_pos hstatus] at hrun
    cases hrun
    refine ⟨fun _ => .inl hstatus, fun _ => ⟨?_, fun target h => ?_, fun h => ?_⟩⟩
    · rw [htarget]
      exact hone
    · cases htarget.symm.trans h
      rfl
    · cases htarget.symm.trans h
  · rw [if_neg hstatus] at hrun
    have hfound := not_not.mp hstatus
    cases hbody : r.bodiless with
    | false =>
      rw [hbody, if_neg (by decide)] at hrun
      cases hrun
      constructor
      · intro h
        -- The exception is not the answer of the session.
        have hanswer := h.answered named htarget
        rw [← hanswer] at hfound
        cases hfound
      · rintro (h | ⟨-, h, -⟩)
        · exact absurd hfound h
        · cases h
    | true =>
      rw [hbody, if_pos rfl] at hrun
      cases hrun
      constructor
      · intro h
        have hhanded := h.handed
        rw [htarget, List.filter_cons_of_pos hactive] at hhanded
        cases hother : S.active random.sessionId with
        | true =>
          rw [List.filter_cons_of_pos hother] at hhanded
          cases hhanded
        | false =>
          have hanswer := h.answered named htarget
          rw [stubFetch_inactive _ hother] at hanswer
          exact .inr ⟨rfl, rfl, hanswer.symm⟩
      · rintro (h | ⟨hother, -, hsame⟩)
        · exact absurd hfound h
        · refine ⟨?_, fun target h => ?_, fun h => ?_⟩
          · rw [htarget, List.filter_cons_of_pos hactive,
              List.filter_cons_of_neg (by rw [hother]; decide)]
            rfl
          · cases htarget.symm.trans h
            rw [stubFetch_inactive _ hother, hsame]
          · cases htarget.symm.trans h

/-- Behind an inactive named session the request reaches the random one, unless its body was sent. -/
theorem exclusive_of_inactive_iff
    (hrandom : randomGitMatch r.request.request.pathname = some random)
    (hactive : S.active named.sessionId = false) {answer : GitAnswer} {routing : GitRouting}
    (hrun : handleGitRoutes S r = some (answer, routing)) :
    RoutesExclusively S r answer routing ↔ r.bodiless = true := by
  have htarget := gitTarget_inactive hnamed hactive
  rw [hrandom, Option.filter_some] at htarget
  rw [handleGitRoutes_ambiguous hnamed hrandom, stubFetch_inactive _ hactive] at hrun
  simp only at hrun
  rw [if_neg (show ¬ sessionNotActive.status ≠ some 404 by decide)] at hrun
  cases hbody : r.bodiless with
  | false =>
    rw [hbody, if_neg (by decide)] at hrun
    cases hrun
    refine ⟨fun h => ?_, fun h => by cases h⟩
    cases hother : S.active random.sessionId with
    | true =>
      rw [hother, if_pos rfl] at htarget
      have hhanded := h.handed
      rw [htarget, List.filter_cons_of_neg (by rw [hactive]; decide)] at hhanded
      cases hhanded
    | false =>
      rw [hother, if_neg (by decide)] at htarget
      exact absurd rfl (h.unfailed htarget)
  | true =>
    rw [hbody, if_pos rfl] at hrun
    cases hrun
    refine ⟨fun _ => rfl, fun _ => ?_⟩
    have hskip : [named.sessionId, random.sessionId].filter S.active =
        [random.sessionId].filter S.active :=
      List.filter_cons_of_neg (by rw [hactive]; decide)
    cases hother : S.active random.sessionId with
    | true =>
      rw [hother, if_pos rfl] at htarget
      refine ⟨?_, fun target h => ?_, fun h => ?_⟩
      · rw [htarget, hskip, List.filter_cons_of_pos hother]
        rfl
      · cases htarget.symm.trans h
        exact stubFetch_active _ hother
      · cases htarget.symm.trans h
    | false =>
      rw [hother, if_neg (by decide)] at htarget
      refine ⟨?_, fun target h => ?_, fun _ => ?_⟩
      · rw [htarget, hskip, List.filter_cons_of_neg (by rw [hother]; decide)]
        rfl
      · cases htarget.symm.trans h
      · rw [stubFetch_inactive _ hother]
        rintro ⟨⟩

end RouteLemmas

open RouteLemmas

/-- A request to `/git/a/b/path` is routed exclusively if and only if its path has one reading, or
the second try does no harm. -/
theorem routes_exclusively_iff (S : GitSessions) (r : GitRequest) {named : GitMatch}
    (hnamed : namedGitMatch r.request.request.pathname = some named) :
    ∃ answer routing, handleGitRoutes S r = some (answer, routing) ∧
      (RoutesExclusively S r answer routing ↔
        ∀ random, randomGitMatch r.request.request.pathname = some random →
          ToleratesFallback S named random r) := by
  cases hrandom : randomGitMatch r.request.request.pathname with
  | none =>
    refine ⟨_, _, ?_, fun _ _ h => ?_, fun _ => exclusive_of_unambiguous hnamed hrandom⟩
    rotate_left
    · cases h
    unfold handleGitRoutes
    simp only [hnamed, hrandom]
  | some random =>
    obtain ⟨answer, routing, hrun⟩ : ∃ answer routing, handleGitRoutes S r = some (answer, routing) :=
      ⟨_, _, handleGitRoutes_ambiguous hnamed hrandom⟩
    refine ⟨answer, routing, hrun, ?_⟩
    have hall : (∀ other, some random = some other → ToleratesFallback S named other r) ↔
        ToleratesFallback S named random r :=
      ⟨fun h => h random rfl, fun h other heq => Option.some.inj heq ▸ h⟩
    rw [hall]
    unfold ToleratesFallback
    cases hactive : S.active named.sessionId with
    | true =>
      rw [if_pos rfl]
      exact exclusive_of_active_iff hnamed hrandom hactive hrun
    | false =>
      rw [if_neg (by decide)]
      exact exclusive_of_inactive_iff hnamed hrandom hactive hrun

/-! ## On the toy host -/

/-- Two sessions, of which the named one answers as it likes and the random one with 200. -/
def toySessions (namedActive : Bool) (answer : GitAnswer) : GitSessions where
  session sessionId :=
    { GitServe.init with state := { GitServe.init.state with
      active := if sessionId = "AbCdEf/repo" then namedActive else true } }
  served sessionId _ :=
    if sessionId = "AbCdEf/repo" then answer else .json ⟨200, .str "random"⟩

def toyGitRequest (method : String) (hasBody : Bool) : GitRequest :=
  ⟨⟨⟨method, "/git/AbCdEf/repo/HEAD", [], [], ⟨"", none⟩⟩, some []⟩, hasBody⟩

theorem routes_exclusively_toy :
    ∃ answer routing,
      handleGitRoutes (toySessions true (.json ⟨200, .str "named"⟩)) (toyGitRequest "GET" false) =
        some (answer, routing) ∧
      (RoutesExclusively (toySessions true (.json ⟨200, .str "named"⟩)) (toyGitRequest "GET" false)
          answer routing ↔
        ∀ random, randomGitMatch "/git/AbCdEf/repo/HEAD" = some random →
          ToleratesFallback (toySessions true (.json ⟨200, .str "named"⟩)) ⟨"AbCdEf/repo", "HEAD"⟩
            random (toyGitRequest "GET" false)) :=
  routes_exclusively_iff (toySessions true (.json ⟨200, .str "named"⟩)) (toyGitRequest "GET" false)
    (show namedGitMatch "/git/AbCdEf/repo/HEAD" = some ⟨"AbCdEf/repo", "HEAD"⟩ by decide)

/-- The named session is active and answers 404: the request goes on to the random one. It is
inactive and the request has a body: the worker throws before it comes to the random one. -/
theorem ambiguous_path_misrouted :
    handleGitRoutes (toySessions true (.json (toErrorResponse "no such ref" 404)))
        (toyGitRequest "GET" false) =
      some (.json ⟨200, .str "random"⟩, ⟨false, ["AbCdEf/repo", "AbCdEf"]⟩) ∧
    ¬ RoutesExclusively (toySessions true (.json (toErrorResponse "no such ref" 404)))
        (toyGitRequest "GET" false) (.json ⟨200, .str "random"⟩)
        ⟨false, ["AbCdEf/repo", "AbCdEf"]⟩ ∧
    handleGitRoutes (toySessions false .rejected) (toyGitRequest "POST" true) =
      some (.rejected, ⟨true, ["AbCdEf/repo"]⟩) ∧
    ¬ RoutesExclusively (toySessions false .rejected) (toyGitRequest "POST" true) .rejected
        ⟨true, ["AbCdEf/repo"]⟩ := by
  refine ⟨by decide, fun h => ?_, by decide, fun h => ?_⟩
  · exact absurd h.handed (by decide)
  · exact absurd h.handed (by decide)

end BitRelay
