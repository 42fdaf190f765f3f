import BitRelay.GitCache.Key
import BitRelay.GitServe.Answers
import Mathlib.Data.List.TakeDrop

/-!
# Git requests of the Deno relay

`handleGitRelayRequest` (`deno_main.ts`) puts the cache before the git-serve sessions: it reads the
entry of a request, hands the request to its session, stores an answer with status 200, and falls
back to the entry when there is no session or the answer is a 404 or a 410.

The requests are under way at the same time. A step of a call is the code between two awaits; a
session is given by the events it has seen. The memory store keeps an entry until it drops it, when
it expires or the store is full: a step of its own.

Results:
1. `callStep_of_step`: what a step does to a call.
2. `relaySound_run`: what is behind the phase of a call, in every run.
-/

namespace BitRelay

/-! ## Data -/

/-- The hash of the cache and the options of the sessions. -/
structure GitRelayHost where
  cache : GitCacheHost
  serve : String → GitServeHost

/-- What the store keeps of an answer. -/
structure GitCacheRecord where
  body : Bytes
  contentType : Option String
  contentHash : String
  ref : String
  /-- the call whose answer it is; nothing reads it -/
  storedBy : Nat
  deriving DecidableEq

/-- How `handleGitRelayRequest` answers. -/
inductive GitRelayAnswer
  | notFound
  | live (answer : GitAnswer)
  | cached (record : GitCacheRecord)
  | thrown
  deriving DecidableEq

/-- Where a call of `handleGitRelayRequest` stands. -/
inductive GitRelayPhase
  /-- the key of the cache is being built -/
  | hashing
  /-- the cache was read, the session is to be looked up -/
  | looking
  | fetching
  /-- the answer of the session is being stored -/
  | storing (response : GitAnswer)
  | answered (answer : GitRelayAnswer)
  deriving DecidableEq

/-- A call: its arguments, the entry it has read, and the call of the session it waits for. -/
structure GitRelayCall where
  toRequest : GitRelayRequest
  cached : Option GitCacheRecord
  sessionCall : Option Nat
  phase : GitRelayPhase
  deriving DecidableEq

structure GitRelay where
  sessions : OrdMap String (List GitServeEvent)
  cache : OrdMap String GitCacheRecord
  calls : List GitRelayCall

/-- A request as the server gets it: its method is a token, and its path ends before the query. -/
structure GitClientRequest where
  request : GitServeRequest
  method : isHeaderName request.request.method = true
  path : '?' ∉ request.request.pathname.toList

/-- How a call goes on. -/
inductive GitRelayMove
  /-- the key is there and the cache is read; a failed read finds nothing -/
  | keyed (failed : Bool)
  | looked (now : Nat)
  | settled
  | stored (failed : Bool)

inductive GitRelayEvent
  /-- `getOrCreateSession(sessionId)` -/
  | opened (sessionId : String)
  /-- anything that happens to a session -/
  | session (sessionId : String) (event : GitServeEvent)
  | request (client : GitClientRequest)
  | call (n : Nat) (move : GitRelayMove)
  /-- an entry expires or is evicted -/
  | dropped (key : String)

/-! ## Answers -/

def CACHE_HIT_HEADER : String := "x-bit-relay-cache-hit"

/-- `new Uint8Array(await response.arrayBuffer())` -/
def GitCacheHost.responseBody (H : GitCacheHost) : GitAnswer → Bytes
  | .raw response => response.body.getD []
  | .json response => textEncode (H.stringify response.body)
  | .rejected => []

/-- `response.headers.get('content-type') ?? undefined` -/
def GitAnswer.contentType : GitAnswer → Option String
  | .raw response => response.headers.get? "content-type"
  | .json _ => some "application/json"
  | .rejected => none

/-- The entry that `writeGitCache` puts; an empty content type is left out. -/
def GitCacheHost.record (H : GitCacheHost) (sessionId : String) (n : Nat) (response : GitAnswer) :
    GitCacheRecord where
  body := H.responseBody response
  contentType := response.contentType.filter (· ≠ "")
  contentHash := H.sha256HexBytes (H.responseBody response)
  ref := sessionId
  storedBy := n

/-- The response that `readGitCache` makes of an entry. -/
def GitCacheRecord.response (record : GitCacheRecord) : RawResponse :=
  let headers : Headers := match record.contentType with
    | some contentType => OrdMap.set ∅ "content-type" contentType
    | none => ∅
  ⟨200, OrdMap.set headers CACHE_HIT_HEADER "1", some record.body⟩

/-- What the client gets. -/
def GitRelayAnswer.toAnswer : GitRelayAnswer → GitAnswer
  | notFound => .json (toErrorResponse "session not found" 404)
  | live answer => answer
  | cached record => .raw record.response
  | thrown => .rejected

/-- What is answered without a session. -/
def withoutSession : Option GitCacheRecord → GitRelayAnswer
  | some record => .cached record
  | none => .notFound

/-- What is answered when the session has not answered with status 200. -/
def fallback (cached : Option GitCacheRecord) (response : GitAnswer) : GitRelayAnswer :=
  match cached with
  | some record =>
    if response.status = some 404 ∨ response.status = some 410 then .cached record
    else .live response
  | none => .live response

/-! ## Routes -/

/-- The git routes of `handleRequestCore`: a named session that is there, else a random one, else
the named one all the same. -/
def denoGitRoute (sessions : OrdMap String (List GitServeEvent)) (pathname : String) :
    Option GitMatch :=
  match namedGitMatch pathname, randomGitMatch pathname with
  | some named, some random => if sessions.has named.sessionId = true then some named else some random
  | some named, none => some named
  | none, random => random

/-- The methods that the constructor of a request takes in any case of their letters. -/
def normalizeMethod (method : String) : String :=
  if upperMethod method ∈ ["DELETE", "GET", "HEAD", "OPTIONS", "POST", "PUT"] then
    upperMethod method
  else method

/-- `new Request(sessionUrl.toString(), request)`; `none` is the exception for a method that no
request may have. -/
def sessionRequest (r : GitRelayRequest) : Option GitServeRequest :=
  if upperMethod r.method ∈ ["CONNECT", "TRACE", "TRACK"] then none
  else
    let request := gitDoRequest r.gitSubPath r.request
    some { request with request := { request.request with
      method := normalizeMethod request.request.method } }

/-! ## Steps -/

namespace GitRelay

def init (cache : OrdMap String GitCacheRecord) : GitRelay := ⟨∅, cache, []⟩

/-- The session after the events it has seen. -/
def session (H : GitRelayHost) (s : GitRelay) (sessionId : String) : GitServe :=
  GitServe.after (H.serve sessionId) ((s.sessions.get? sessionId).getD [])

def setCall (s : GitRelay) (n : Nat) (c : GitRelayCall) : GitRelay :=
  { s with calls := s.calls.set n c }

/-- The key is built, and the cache is read. -/
def readCache (H : GitRelayHost) (s : GitRelay) (n : Nat) (c : GitRelayCall) (failed : Bool) :
    GitRelay :=
  match c.toRequest.cacheKey H.cache with
  | none => s.setCall n { c with phase := .answered .thrown }
  | some key =>
    let cached := if failed = true then none else key.storageKey.bind s.cache.get?
    s.setCall n { c with cached, phase := .looking }

/-- The session is looked up, and gets the request. -/
def lookUp (H : GitRelayHost) (s : GitRelay) (n : Nat) (c : GitRelayCall) (now : Nat) : GitRelay :=
  let id := c.toRequest.sessionId
  match s.sessions.get? id with
  | none => s.setCall n { c with phase := .answered (withoutSession c.cached) }
  | some events =>
    match sessionRequest c.toRequest with
    | none => s.setCall n { c with phase := .answered .thrown }
    | some request =>
      { s.setCall n { c with
          sessionCall := some (GitServe.after (H.serve id) events).nextCall
          phase := .fetching } with
        sessions := s.sessions.set id (events ++ [.fetch request now]) }

/-- The session has answered, if it has. -/
def settle (H : GitRelayHost) (s : GitRelay) (n : Nat) (c : GitRelayCall) : GitRelay :=
  match c.sessionCall.bind (s.session H c.toRequest.sessionId).answers.get? with
  | none => s
  | some .rejected => s.setCall n { c with phase := .answered .thrown }
  | some response =>
    if response.status = some 200 then s.setCall n { c with phase := .storing response }
    else s.setCall n { c with phase := .answered (fallback c.cached response) }

/-- The answer is stored, unless the store fails. -/
def store (H : GitRelayHost) (s : GitRelay) (n : Nat) (c : GitRelayCall) (response : GitAnswer)
    (failed : Bool) : GitRelay :=
  let next := s.setCall n { c with phase := .answered (.live response) }
  match c.toRequest.storageKey H.cache with
  | some key =>
    if failed = true then next
    else { next with
      cache := s.cache.set key (H.cache.record c.toRequest.sessionId n response) }
  | none => next

def move (H : GitRelayHost) (s : GitRelay) (n : Nat) (c : GitRelayCall) : GitRelayMove → GitRelay
  | .keyed failed => if c.phase = .hashing then s.readCache H n c failed else s
  | .looked now => if c.phase = .looking then s.lookUp H n c now else s
  | .settled => if c.phase = .fetching then s.settle H n c else s
  | .stored failed =>
    match c.phase with
    | .storing response => s.store H n c response failed
    | _ => s

def arrive (s : GitRelay) (client : GitClientRequest) : GitRelay :=
  match denoGitRoute s.sessions client.request.request.pathname with
  | none => s
  | some found =>
    { s with calls := s.calls ++
        [⟨⟨client.request, found.sessionId, found.gitPath⟩, none, none, .hashing⟩] }

def step (H : GitRelayHost) (s : GitRelay) : GitRelayEvent → GitRelay
  | .opened sessionId =>
    if s.sessions.has sessionId = true then s
    else { s with sessions := s.sessions.set sessionId [] }
  | .session sessionId event =>
    match s.sessions.get? sessionId with
    | none => s
    | some events => { s with sessions := s.sessions.set sessionId (events ++ [event]) }
  | .request client => s.arrive client
  | .call n move =>
    match s.calls[n]? with
    | none => s
    | some c => s.move H n c move
  | .dropped key => { s with cache := s.cache.erase key }

/-- The relay after a run of events, from a cache with any content. -/
def run (H : GitRelayHost) (cache : OrdMap String GitCacheRecord) (events : List GitRelayEvent) :
    GitRelay :=
  runFrom (step H) (init cache) events

end GitRelay

/-! ## What a step does -/

/-- The ways in which a call goes on. -/
inductive CallStep (H : GitRelayHost) (s : GitRelay) (c : GitRelayCall) : GitRelayCall → Prop
  | thrown (hphase : c.phase = .hashing ∨ c.phase = .looking) :
    CallStep H s c { c with phase := .answered .thrown }
  | keyed {cached : Option GitCacheRecord} (hphase : c.phase = .hashing)
      (hcached : ∀ record, cached = some record → ∃ key,
        c.toRequest.storageKey H.cache = some key ∧ s.cache.get? key = some record) :
    CallStep H s c { c with cached, phase := .looking }
  | absent (hphase : c.phase = .looking)
      (habsent : s.sessions.get? c.toRequest.sessionId = none) :
    CallStep H s c { c with phase := .answered (withoutSession c.cached) }
  | handed {events : List GitServeEvent} {request : GitServeRequest} (hphase : c.phase = .looking)
      (hsession : s.sessions.get? c.toRequest.sessionId = some events)
      (hrequest : sessionRequest c.toRequest = some request) :
    CallStep H s c { c with
      sessionCall := some (GitServe.after (H.serve c.toRequest.sessionId) events).nextCall
      phase := .fetching }
  | rejected {k : Nat} (hphase : c.phase = .fetching) (hcall : c.sessionCall = some k)
      (hanswer : (s.session H c.toRequest.sessionId).answers.get? k = some .rejected) :
    CallStep H s c { c with phase := .answered .thrown }
  | settled {k : Nat} {response : GitAnswer} (hphase : c.phase = .fetching)
      (hcall : c.sessionCall = some k)
      (hanswer : (s.session H c.toRequest.sessionId).answers.get? k = some response)
      (hstatus : response.status ≠ some 200) :
    CallStep H s c { c with phase := .answered (fallback c.cached response) }
  | storing {k : Nat} {response : GitAnswer} (hphase : c.phase = .fetching)
      (hcall : c.sessionCall = some k)
      (hanswer : (s.session H c.toRequest.sessionId).answers.get? k = some response)
      (hstatus : response.status = some 200) :
    CallStep H s c { c with phase := .storing response }
  | stored {response : GitAnswer} (hphase : c.phase = .storing response) :
    CallStep H s c { c with phase := .answered (.live response) }

namespace GitRelayLemmas

variable {H : GitRelayHost} {s : GitRelay} {n : Nat} {c c' : GitRelayCall}

theorem getElem?_setCall (h : s.calls[n]? = some c) (c' : GitRelayCall) (m : Nat) :
    (s.setCall n c').calls[m]? = if m = n then some c' else s.calls[m]? := by
  have hlt : n < s.calls.length := (List.getElem?_eq_some_iff.mp h).1
  show (s.calls.set n c')[m]? = _
  rw [List.getElem?_set]
  by_cases heq : n = m
  · rw [if_pos heq, if_pos heq.symm, if_pos hlt]
  · rw [if_neg heq, if_neg (Ne.symm heq)]

/-- A move changes its call in one of these ways, or nothing at all. -/
theorem callStep_move (move : GitRelayMove) :
    s.move H n c move = s ∨
      ∃ c', CallStep H s c c' ∧ (s.move H n c move).calls = s.calls.set n c' := by
  cases move with
  | keyed failed =>
    unfold GitRelay.move
    simp only
    split
    · next hphase =>
      right
      unfold GitRelay.readCache
      split
      · exact ⟨_, .thrown (.inl hphase), rfl⟩
      · next key hkey =>
        refine ⟨_, .keyed hphase fun record hrecord => ?_, rfl⟩
        split at hrecord
        · cases hrecord
        · obtain ⟨storageKey, hstorage, hget⟩ := Option.bind_eq_some_iff.mp hrecord
          exact ⟨storageKey, Option.bind_eq_some_iff.mpr ⟨key, hkey, hstorage⟩, hget⟩
    · exact .inl rfl
  | looked now =>
    unfold GitRelay.move
    simp only
    split
    · next hphase =>
      right
      unfold GitRelay.lookUp
      simp only
      split
      · next habsent => exact ⟨_, .absent hphase habsent, rfl⟩
      · next events hsession =>
        split
        · exact ⟨_, .thrown (.inr hphase), rfl⟩
        · next request hrequest => exact ⟨_, .handed hphase hsession hrequest, rfl⟩
    · exact .inl rfl
  | settled =>
    unfold GitRelay.move
    simp only
    split
    · next hphase =>
      unfold GitRelay.settle
      split
      · exact .inl rfl
      · next hrejected =>
        obtain ⟨k, hcall, hanswer⟩ := Option.bind_eq_some_iff.mp hrejected
        exact .inr ⟨_, .rejected hphase hcall hanswer, rfl⟩
      · next response _ hresponse =>
        obtain ⟨k, hcall, hanswer⟩ := Option.bind_eq_some_iff.mp hresponse
        split
        · next hstatus => exact .inr ⟨_, .storing hphase hcall hanswer hstatus, rfl⟩
        · next hstatus => exact .inr ⟨_, .settled hphase hcall hanswer hstatus, rfl⟩
    · exact .inl rfl
  | stored failed =>
    unfold GitRelay.move
    simp only
    split
    · next response hphase =>
      right
      refine ⟨_, .stored hphase, ?_⟩
      unfold GitRelay.store
      simp only
      split
      · split <;> rfl
      · rfl
    · exact .inl rfl

/-- What a step does to the calls. -/
theorem callStep_of_step {event : GitRelayEvent} (h : (s.step H event).calls[n]? = some c') :
    s.calls[n]? = some c' ∨
      (∃ c, s.calls[n]? = some c ∧ CallStep H s c c' ∧ ∃ move, event = .call n move) ∨
      (n = s.calls.length ∧ ∃ client found, event = .request client ∧
        denoGitRoute s.sessions client.request.request.pathname = some found ∧
        c' = ⟨⟨client.request, found.sessionId, found.gitPath⟩, none, none, .hashing⟩) := by
  cases event with
  | opened sessionId =>
    left
    unfold GitRelay.step at h
    simp only at h
    split at h <;> exact h
  | session sessionId event =>
    left
    unfold GitRelay.step at h
    simp only at h
    split at h <;> exact h
  | request client =>
    unfold GitRelay.step GitRelay.arrive at h
    simp only at h
    split at h
    · exact .inl h
    · next found hroute =>
      by_cases hlt : n < s.calls.length
      · rw [List.getElem?_append_left hlt] at h
        exact .inl h
      · have hge := Nat.le_of_not_lt hlt
        rw [List.getElem?_append_right hge, List.getElem?_singleton] at h
        split at h
        · next hzero =>
          refine .inr (.inr ⟨?_, client, found, rfl, hroute, (Option.some.inj h).symm⟩)
          exact Nat.le_antisymm (Nat.sub_eq_zero_iff_le.mp hzero) hge
        · cases h
  | call m move =>
    unfold GitRelay.step at h
    simp only at h
    split at h
    · exact .inl h
    · next c hc =>
      rcases callStep_move (H := H) (s := s) (n := m) (c := c) move with hsame | ⟨d, hstep, hcalls⟩
      · rw [hsame] at h
        exact .inl h
      · rw [hcalls] at h
        have hget := getElem?_setCall hc d n
        unfold GitRelay.setCall at hget
        rw [hget] at h
        split at h
        · next heq =>
          obtain rfl := heq
          cases h
          exact .inr (.inl ⟨c, hc, hstep, move, rfl⟩)
        · exact .inl h
  | dropped key => exact .inl h

/-- An answered call stays as it is. -/
theorem not_callStep_answered {answer : GitRelayAnswer} (hanswered : c.phase = .answered answer) :
    ¬ CallStep H s c c' := by
  intro h
  cases h with
  | thrown hphase =>
    rcases hphase with hphase | hphase
    · cases hphase.symm.trans hanswered
    · cases hphase.symm.trans hanswered
  | rejected hphase => cases hphase.symm.trans hanswered
  | keyed hphase => cases hphase.symm.trans hanswered
  | absent hphase => cases hphase.symm.trans hanswered
  | handed hphase => cases hphase.symm.trans hanswered
  | settled hphase => cases hphase.symm.trans hanswered
  | storing hphase => cases hphase.symm.trans hanswered
  | stored hphase => cases hphase.symm.trans hanswered

/-- What reading the cache makes of a call. -/
theorem call_keyed (failed : Bool) (hc : s.calls[n]? = some c) (hphase : c.phase = .hashing) :
    (s.step H (.call n (.keyed failed))).calls[n]? = some (match c.toRequest.cacheKey H.cache with
      | none => { c with phase := .answered .thrown }
      | some key => { c with
          cached := if failed = true then none else key.storageKey.bind s.cache.get?
          phase := .looking }) := by
  unfold GitRelay.step
  simp only [hc]
  unfold GitRelay.move
  simp only [hphase, if_true]
  unfold GitRelay.readCache
  have hset := fun c' => (getElem?_setCall hc c' n).trans (if_pos rfl)
  split
  · exact hset _
  · exact hset _

/-- A call that awaits its key goes on when it has it. -/
theorem keyed_of_hashing {move : GitRelayMove} (hc : s.calls[n]? = some c)
    (hphase : c.phase = .hashing) (hstep : s.step H (.call n move) ≠ s) :
    ∃ failed, move = .keyed failed := by
  cases move with
  | keyed failed => exact ⟨failed, rfl⟩
  | looked now => exact absurd (by simp [GitRelay.step, GitRelay.move, hc, hphase]) hstep
  | settled => exact absurd (by simp [GitRelay.step, GitRelay.move, hc, hphase]) hstep
  | stored failed => exact absurd (by simp [GitRelay.step, GitRelay.move, hc, hphase]) hstep

/-- A call that looks for its session goes on when it has looked. -/
theorem looked_of_looking {move : GitRelayMove} (hc : s.calls[n]? = some c)
    (hphase : c.phase = .looking) (hstep : s.step H (.call n move) ≠ s) :
    ∃ now, move = .looked now := by
  cases move with
  | looked now => exact ⟨now, rfl⟩
  | keyed failed => exact absurd (by simp [GitRelay.step, GitRelay.move, hc, hphase]) hstep
  | settled => exact absurd (by simp [GitRelay.step, GitRelay.move, hc, hphase]) hstep
  | stored failed => exact absurd (by simp [GitRelay.step, GitRelay.move, hc, hphase]) hstep

/-- No call is lost, and it keeps its arguments. -/
theorem call_kept (event : GitRelayEvent) (h : s.calls[n]? = some c) :
    ∃ c', (s.step H event).calls[n]? = some c' ∧ (c' = c ∨ CallStep H s c c') := by
  have hlength : s.calls.length ≤ (s.step H event).calls.length := by
    cases event with
    | opened sessionId => unfold GitRelay.step; simp only; split <;> exact Nat.le_refl _
    | session sessionId event => unfold GitRelay.step; simp only; split <;> exact Nat.le_refl _
    | request client =>
      unfold GitRelay.step GitRelay.arrive
      simp only
      split
      · exact Nat.le_refl _
      · rw [List.length_append]
        exact Nat.le_add_right _ _
    | call m move =>
      unfold GitRelay.step
      simp only
      split
      · exact Nat.le_refl _
      · next c hc =>
        rcases callStep_move (H := H) (s := s) (n := m) (c := c) move with hsame | ⟨d, -, hcalls⟩
        · rw [hsame]
        · rw [hcalls, List.length_set]
    | dropped key => exact Nat.le_refl _
  have hlt : n < (s.step H event).calls.length :=
    Nat.lt_of_lt_of_le (List.getElem?_eq_some_iff.mp h).1 hlength
  refine ⟨_, List.getElem?_eq_getElem hlt, ?_⟩
  rcases callStep_of_step (List.getElem?_eq_getElem hlt) with hsame | ⟨d, hd, hstep, -⟩ | ⟨hnew, -⟩
  · rw [h] at hsame
    exact .inl (Option.some.inj hsame).symm
  · rw [h] at hd
    cases hd
    exact .inr hstep
  · rw [hnew] at h
    exact absurd (List.getElem?_eq_some_iff.mp h).1 (Nat.lt_irrefl _)

theorem toRequest_callStep (h : CallStep H s c c') : c'.toRequest = c.toRequest := by
  cases h <;> rfl

/-- A session goes on from where it is. -/
theorem session_grows {id : String} {events : List GitServeEvent} (event : GitRelayEvent)
    (h : s.sessions.get? id = some events) :
    ∃ more, (s.step H event).sessions.get? id = some (events ++ more) := by
  have hsame : ∀ s' : GitRelay, s'.sessions = s.sessions →
      ∃ more, s'.sessions.get? id = some (events ++ more) := by
    intro s' hs'
    exact ⟨[], by rw [hs', h, List.append_nil]⟩
  have hset : ∀ (id' : String) (events' : List GitServeEvent) (e : GitServeEvent),
      s.sessions.get? id' = some events' →
      ∃ more, (s.sessions.set id' (events' ++ [e])).get? id = some (events ++ more) := by
    intro id' events' e hid'
    rw [OrdMap.get?_set]
    split
    · next heq =>
      rw [heq, hid'] at h
      cases h
      exact ⟨[e], rfl⟩
    · exact ⟨[], by rw [h, List.append_nil]⟩
  cases event with
  | opened sessionId =>
    unfold GitRelay.step
    simp only
    split
    · exact hsame s rfl
    · next hnew =>
      have hne : id ≠ sessionId := by
        rintro rfl
        exact hnew (by rw [OrdMap.has, h]; rfl)
      exact ⟨[], by rw [OrdMap.get?_set_of_ne _ hne, h, List.append_nil]⟩
  | session sessionId event =>
    unfold GitRelay.step
    simp only
    split
    · exact hsame s rfl
    · next events' hid' => exact hset sessionId events' event hid'
  | request client =>
    unfold GitRelay.step GitRelay.arrive
    simp only
    split <;> exact hsame _ rfl
  | call m move =>
    unfold GitRelay.step
    simp only
    split
    · exact hsame s rfl
    · next c hc =>
      unfold GitRelay.move
      split
      · split
        · unfold GitRelay.readCache
          split <;> exact hsame _ rfl
        · exact hsame _ rfl
      · split
        · unfold GitRelay.lookUp
          simp only
          split
          · exact hsame _ rfl
          · next events' hid' =>
            split
            · exact hsame _ rfl
            · exact hset _ events' _ hid'
        · exact hsame _ rfl
      · split
        · unfold GitRelay.settle
          split
          · exact hsame _ rfl
          · exact hsame _ rfl
          · split <;> exact hsame _ rfl
        · exact hsame _ rfl
      · split
        · unfold GitRelay.store
          simp only
          split
          · split <;> exact hsame _ rfl
          · exact hsame _ rfl
        · exact hsame _ rfl
  | dropped key => exact hsame _ rfl

/-- The answers of a session stay. -/
theorem answer_grows {id : String} {k : Nat} {answer : GitAnswer} (event : GitRelayEvent)
    (h : (s.session H id).answers.get? k = some answer) :
    ((s.step H event).session H id).answers.get? k = some answer := by
  have hrun : ∀ events more, (GitServe.after (H.serve id) events).answers.get? k = some answer →
      (GitServe.after (H.serve id) (events ++ more)).answers.get? k = some answer := by
    intro events more hget
    induction more using List.reverseRecOn with
    | nil => rwa [List.append_nil]
    | append_singleton more e ih =>
      rw [← List.append_assoc]
      unfold GitServe.after at ih ⊢
      rw [runFrom_concat]
      exact GitServe.keeping_step _ _ e k answer ih
  unfold GitRelay.session at h ⊢
  cases hsession : s.sessions.get? id with
  | none =>
    rw [hsession] at h
    exact hrun [] _ h
  | some events =>
    obtain ⟨more, hmore⟩ := session_grows (H := H) event hsession
    rw [hsession] at h
    rw [hmore]
    exact hrun events more h

/-- What a step does to the cache: an entry is new when a call stores its answer. -/
theorem cache_of_step {event : GitRelayEvent} {key : String} {record : GitCacheRecord}
    (h : (s.step H event).cache.get? key = some record) :
    s.cache.get? key = some record ∨
      ∃ n c response, s.calls[n]? = some c ∧ c.phase = .storing response ∧
        c.toRequest.storageKey H.cache = some key ∧
        record = H.cache.record c.toRequest.sessionId n response ∧
        (s.step H event).calls[n]? = some { c with phase := .answered (.live response) } := by
  cases event with
  | opened sessionId =>
    left
    unfold GitRelay.step at h
    simp only at h
    split at h <;> exact h
  | session sessionId event =>
    left
    unfold GitRelay.step at h
    simp only at h
    split at h <;> exact h
  | request client =>
    left
    unfold GitRelay.step GitRelay.arrive at h
    simp only at h
    split at h <;> exact h
  | call m move =>
    unfold GitRelay.step at h ⊢
    simp only at h ⊢
    split at h
    · exact .inl h
    · next c hc =>
      unfold GitRelay.move at h ⊢
      split at h
      · left
        split at h
        · unfold GitRelay.readCache at h
          split at h <;> exact h
        · exact h
      · left
        split at h
        · unfold GitRelay.lookUp at h
          simp only at h
          split at h
          · exact h
          · split at h <;> exact h
        · exact h
      · left
        split at h
        · unfold GitRelay.settle at h
          split at h
          · exact h
          · exact h
          · split at h <;> exact h
        · exact h
      · next failed =>
        split at h
        · next response hphase =>
          unfold GitRelay.store at h ⊢
          simp only at h ⊢
          split at h
          · next storageKey hstorage =>
            split at h
            · exact .inl h
            · next hdone =>
              rw [OrdMap.get?_set] at h
              split at h
              · next heq =>
                cases h
                refine .inr ⟨m, c, response, hc, hphase, heq ▸ hstorage, rfl, ?_⟩
                rw [if_neg hdone]
                exact (getElem?_setCall hc _ m).trans (if_pos rfl)
              · exact .inl h
          · exact .inl h
        · exact .inl h
  | dropped storageKey =>
    left
    change (s.cache.erase storageKey).get? key = some record at h
    rw [OrdMap.get?_erase] at h
    split at h
    · cases h
    · exact h

/-! ## Routes -/

theorem splitSegment_eq {cs segment rest : List Char} (h : splitSegment cs = some (segment, rest)) :
    cs = segment ++ '/' :: rest := by
  unfold splitSegment at h
  have hspan := List.span_eq_takeWhile_dropWhile (p := fun c : Char => decide (c ≠ '/')) (l := cs)
  have hboth := List.takeWhile_append_dropWhile (p := fun c : Char => decide (c ≠ '/')) (l := cs)
  have hhead := List.head_dropWhile_not (fun c : Char => decide (c ≠ '/')) (l := cs)
  rw [hspan] at h
  split at h
  · next first c tail hparts =>
    cases h
    obtain ⟨hfirst, htail⟩ := Prod.mk.inj hparts
    rw [htail] at hboth hhead
    have hslash : c = '/' := not_not.mp (of_decide_eq_false (hhead (List.cons_ne_nil c rest)))
    rw [← hboth, ← hfirst, hslash]
  · cases h

/-- A path that starts with `/git/`. -/
theorem pathname_eq {pathname : String} (h : ¬ startsWith pathname "/git/" = false) :
    pathname.toList = "/git/".toList ++ (sliceFrom pathname 5).toList := by
  rw [Bool.not_eq_false] at h
  obtain ⟨rest, hrest⟩ := List.isPrefixOf_iff_prefix.mp h
  have hslice : (sliceFrom pathname 5).toList = rest := by
    unfold sliceFrom
    rw [String.toList_ofList, ← hrest]
    rfl
  rw [hslice, hrest]

theorem randomGitMatch_eq {pathname : String} {found : GitMatch}
    (h : randomGitMatch pathname = some found) :
    pathname = "/git/" ++ found.sessionId ++ "/" ++ found.gitPath ∧
      ∀ c ∈ found.sessionId.toList, isNameChar c = true := by
  unfold randomGitMatch at h
  split at h
  · cases h
  · next hstart =>
    split at h
    · next id rest hsplit =>
      split at h
      · next hid =>
        cases h
        refine ⟨String.toList_inj.mp ?_, fun c hc => ?_⟩
        · rw [pathname_eq hstart, splitSegment_eq hsplit]
          simp only [String.toList_append, String.toList_ofList, List.append_assoc]
          rfl
        · rw [String.toList_ofList] at hc
          unfold isRandomSegment at hid
          have halnum := List.all_eq_true.mp (Bool.and_eq_true _ _ ▸ hid).2 c hc
          simp only [isNameChar, halnum, Bool.true_or]
      · cases h
    · cases h

theorem isNameChar_of_segment {cs : List Char} (h : isNameSegment cs = true) :
    ∀ c ∈ cs, isNameChar c = true := by
  intro c hc
  cases cs with
  | nil => cases hc
  | cons d ds =>
    obtain ⟨hhead, htail⟩ := Bool.and_eq_true _ _ ▸ h
    rcases List.mem_cons.mp hc with rfl | hc
    · simp only [isNameChar, hhead, Bool.true_or]
    · exact List.all_eq_true.mp htail c hc

theorem namedGitMatch_eq {pathname : String} {found : GitMatch}
    (h : namedGitMatch pathname = some found) :
    pathname = "/git/" ++ found.sessionId ++ "/" ++ found.gitPath ∧
      ∀ c ∈ found.sessionId.toList, isNameChar c = true ∨ c = '/' := by
  unfold namedGitMatch at h
  split at h
  · cases h
  · next hstart =>
    split at h
    · next owner tail hsplit =>
      split at h
      · next repo rest hsplit' =>
        split at h
        · next hnames =>
          cases h
          refine ⟨String.toList_inj.mp ?_, fun c hc => ?_⟩
          · rw [pathname_eq hstart, splitSegment_eq hsplit, splitSegment_eq hsplit']
            simp only [String.toList_append, String.toList_ofList, List.append_assoc]
            rfl
          · simp only [String.toList_append, String.toList_ofList, List.mem_append] at hc
            rcases hc with (hc | hc) | hc
            · exact .inl (isNameChar_of_segment hnames.1 c hc)
            · exact .inr (List.mem_singleton.mp hc)
            · exact .inl (isNameChar_of_segment hnames.2 c hc)
        · cases h
      · cases h
    · cases h

/-- A request reaches `handleGitRelayRequest` under the session and the path that it names. -/
theorem denoGitRoute_eq {sessions : OrdMap String (List GitServeEvent)} {pathname : String}
    {found : GitMatch} (h : denoGitRoute sessions pathname = some found) :
    pathname = "/git/" ++ found.sessionId ++ "/" ++ found.gitPath ∧
      ∀ c ∈ found.sessionId.toList, isNameChar c = true ∨ c = '/' := by
  have hrandom : randomGitMatch pathname = some found →
      pathname = "/git/" ++ found.sessionId ++ "/" ++ found.gitPath ∧
        ∀ c ∈ found.sessionId.toList, isNameChar c = true ∨ c = '/' :=
    fun hr => (randomGitMatch_eq hr).imp_right fun hall c hc => .inl (hall c hc)
  unfold denoGitRoute at h
  split at h
  · next named random hnamed hr =>
    split at h
    · cases h
      exact namedGitMatch_eq hnamed
    · cases h
      exact hrandom hr
  · next named hnamed hr =>
    cases h
    exact namedGitMatch_eq hnamed
  · next hnone => exact hrandom h

end GitRelayLemmas

/-! ## What holds in every run -/

/-- The session call `k` is the request of this call: the session saw it arrive under that
number. -/
def Handed (H : GitRelayHost) (s : GitRelay) (r : GitRelayRequest) (k : Nat) : Prop :=
  ∃ before after request now, s.sessions.get? r.sessionId =
      some (before ++ .fetch request now :: after) ∧
    sessionRequest r = some request ∧ k = (GitServe.after (H.serve r.sessionId) before).nextCall

/-- The session has answered the request of this call so. -/
def SessionAnswered (H : GitRelayHost) (s : GitRelay) (c : GitRelayCall) (response : GitAnswer) :
    Prop :=
  ∃ k, c.sessionCall = some k ∧ (s.session H c.toRequest.sessionId).answers.get? k = some response

/-- What is behind the phase of a call. -/
def PhaseSound (H : GitRelayHost) (s : GitRelay) (c : GitRelayCall) : Prop :=
  match c.phase with
  | .hashing => c.cached = none ∧ c.sessionCall = none
  | .looking => c.sessionCall = none
  | .fetching => c.sessionCall.isSome = true
  | .storing response => SessionAnswered H s c response ∧ response.status = some 200
  | .answered answer =>
    (c.sessionCall = none ∧ answer = withoutSession c.cached) ∨
      (∃ response, SessionAnswered H s c response ∧
        answer = if response.status = some 200 then .live response else fallback c.cached response) ∨
      (answer = .thrown ∧ (c.sessionCall = none ∨ SessionAnswered H s c .rejected))

/-- A call is admitted, its session call is its own, and its phase is sound. -/
structure CallSound (H : GitRelayHost) (s : GitRelay) (c : GitRelayCall) : Prop where
  admitted : c.toRequest.Admitted
  handed : ∀ k, c.sessionCall = some k → Handed H s c.toRequest k
  phase : PhaseSound H s c

/-- In every state of a run the calls are sound. -/
def RelaySound (H : GitRelayHost) (s : GitRelay) : Prop :=
  ∀ (n : Nat) (c : GitRelayCall), s.calls[n]? = some c → CallSound H s c

namespace GitRelayLemmas

variable {H : GitRelayHost} {s : GitRelay} {n : Nat} {c c' : GitRelayCall}

theorem handed_grows {r : GitRelayRequest} {k : Nat} (event : GitRelayEvent)
    (h : Handed H s r k) : Handed H (s.step H event) r k := by
  obtain ⟨before, after, request, now, hsession, hrequest, hk⟩ := h
  obtain ⟨more, hmore⟩ := session_grows (H := H) event hsession
  refine ⟨before, after ++ more, request, now, ?_, hrequest, hk⟩
  rw [hmore, List.append_assoc]
  rfl

theorem sessionAnswered_grows {response : GitAnswer} (event : GitRelayEvent)
    (h : SessionAnswered H s c response) : SessionAnswered H (s.step H event) c response := by
  obtain ⟨k, hcall, hanswer⟩ := h
  exact ⟨k, hcall, answer_grows event hanswer⟩

theorem phaseSound_grows (event : GitRelayEvent) (h : PhaseSound H s c) :
    PhaseSound H (s.step H event) c := by
  unfold PhaseSound at h ⊢
  split
  · next hphase => rwa [hphase] at h
  · next hphase => rwa [hphase] at h
  · next hphase => rwa [hphase] at h
  · next response hphase =>
    rw [hphase] at h
    exact h.imp_left (sessionAnswered_grows event)
  · next answer hphase =>
    rw [hphase] at h
    rcases h with habsent | ⟨response, hsession, hanswer⟩ | hthrown
    · exact .inl habsent
    · exact .inr (.inl ⟨response, sessionAnswered_grows event hsession, hanswer⟩)
    · exact .inr (.inr (hthrown.imp_right fun h => h.imp_right (sessionAnswered_grows event)))

theorem callSound_grows (event : GitRelayEvent) (h : CallSound H s c) :
    CallSound H (s.step H event) c :=
  ⟨h.admitted, fun k hk => handed_grows event (h.handed k hk), phaseSound_grows event h.phase⟩

/-- The request of a call that is handed over is the next one of its session. -/
theorem handed_lookUp {events : List GitServeEvent} {request : GitServeRequest} {now : Nat}
    (hc : s.calls[n]? = some c) (hphase : c.phase = .looking)
    (hsession : s.sessions.get? c.toRequest.sessionId = some events)
    (hrequest : sessionRequest c.toRequest = some request) :
    Handed H (s.step H (.call n (.looked now))) c.toRequest
      (GitServe.after (H.serve c.toRequest.sessionId) events).nextCall := by
  refine ⟨events, [], request, now, ?_, hrequest, rfl⟩
  unfold GitRelay.step
  simp only [hc]
  unfold GitRelay.move
  simp only [hphase, if_true]
  unfold GitRelay.lookUp
  simp only [hsession, hrequest]
  exact OrdMap.get?_set_self _ _ _

/-- A call that goes on is sound again. -/
theorem callSound_step {event : GitRelayEvent} (h : CallSound H s c) (hstep : CallStep H s c c')
    (hhanded : ∀ k, c'.sessionCall = some k → Handed H (s.step H event) c.toRequest k) :
    CallSound H (s.step H event) c' := by
  have hkept := toRequest_callStep hstep
  have hphase' := h.phase
  unfold PhaseSound at hphase'
  refine ⟨hkept ▸ h.admitted, fun k hk => hkept ▸ hhanded k hk, ?_⟩
  cases hstep with
  | thrown hphase =>
    refine .inr (.inr ⟨rfl, .inl ?_⟩)
    rcases hphase with hphase | hphase
    · rw [hphase] at hphase'
      exact hphase'.2
    · rw [hphase] at hphase'
      exact hphase'
  | rejected hphase hcall hanswer =>
    exact .inr (.inr ⟨rfl, .inr (sessionAnswered_grows event ⟨_, hcall, hanswer⟩)⟩)
  | keyed hphase =>
    rw [hphase] at hphase'
    exact hphase'.2
  | absent hphase =>
    rw [hphase] at hphase'
    exact .inl ⟨hphase', rfl⟩
  | handed hphase => rfl
  | settled hphase hcall hanswer hstatus =>
    refine .inr (.inl ⟨_, sessionAnswered_grows event ⟨_, hcall, hanswer⟩, ?_⟩)
    rw [if_neg hstatus]
  | storing hphase hcall hanswer hstatus =>
    exact ⟨sessionAnswered_grows event ⟨_, hcall, hanswer⟩, hstatus⟩
  | stored hphase =>
    rw [hphase] at hphase'
    obtain ⟨hanswered, hstatus⟩ := hphase'
    refine .inr (.inl ⟨_, sessionAnswered_grows event hanswered, ?_⟩)
    rw [if_pos hstatus]

theorem relaySound_step (event : GitRelayEvent) (h : RelaySound H s) :
    RelaySound H (s.step H event) := by
  intro n c' hc'
  rcases callStep_of_step hc' with hold | ⟨c, hc, hstep, move, rfl⟩ |
    ⟨-, client, found, rfl, hroute, rfl⟩
  · exact callSound_grows event (h n c' hold)
  · refine callSound_step (h n c hc) hstep fun k hk => ?_
    cases hstep with
    | handed hphase hsession hrequest =>
      cases hk
      have hmoved : s.step H (.call n move) ≠ s := by
        intro hsame
        rw [hsame, hc] at hc'
        rw [Option.some.inj hc'] at hphase
        cases hphase
      obtain ⟨now, rfl⟩ := looked_of_looking hc hphase hmoved
      exact handed_lookUp hc hphase hsession hrequest
    | _ => exact handed_grows _ ((h n c hc).handed k hk)
  · obtain ⟨hpath, hid⟩ := denoGitRoute_eq hroute
    refine ⟨⟨client.method, client.path, hpath, hid⟩, fun k hk => ?_, ⟨rfl, rfl⟩⟩
    cases hk

/-- An answer from the cache is the entry that was read, and there was no session or it answered
with one of two statuses. -/
theorem cached_answered {record : GitCacheRecord} (h : PhaseSound H s c)
    (hphase : c.phase = .answered (.cached record)) :
    c.cached = some record ∧ (c.sessionCall = none ∨ ∃ response, SessionAnswered H s c response ∧
      (response.status = some 404 ∨ response.status = some 410)) := by
  unfold PhaseSound at h
  rw [hphase] at h
  rcases h with ⟨hnone, hanswer⟩ | ⟨response, hsession, hanswer⟩ | hanswer
  · cases hcached : c.cached with
    | none =>
      rw [hcached] at hanswer
      cases hanswer
    | some _ =>
      rw [hcached] at hanswer
      cases hanswer
      exact ⟨rfl, .inl hnone⟩
  · split at hanswer
    · cases hanswer
    · unfold fallback at hanswer
      split at hanswer
      · next hcached =>
        split at hanswer
        · next hstatus =>
          cases hanswer
          exact ⟨hcached, .inr ⟨response, hsession, hstatus⟩⟩
        · cases hanswer
      · cases hanswer
  · cases hanswer.1

end GitRelayLemmas

open GitRelayLemmas

theorem relaySound_run (H : GitRelayHost) (cache : OrdMap String GitCacheRecord)
    (events : List GitRelayEvent) : RelaySound H (GitRelay.run H cache events) := by
  refine runFrom_invariant (fun s event h => relaySound_step event h) events ?_
  intro n c hc
  cases hc

end BitRelay
