import BitRelay.Http
import BitRelay.Js.Web
import BitRelay.Lib.Run
import Mathlib.Data.List.TakeWhile

/-!
# Git serve sessions

`createGitServeSession` (`git_serve_session.ts`): git requests of cloning clients
wait in a queue, the serve side polls for them and answers them with `/respond`.

A call of `fetch` is a promise with a number. The event loop is explicit: the
armed timers, the calls that await their body, and the promises that are settled.
`GitServe.step` runs the code between two awaits.
-/

namespace BitRelay

/-! ## Data -/

structure PendingGitRequest where
  requestId : String
  method : String
  path : String
  headers : List (String × String)
  bodyBase64 : Option String
  incomingRefs : List String
  allRelayRefs : List String
  /-- the call whose promise `resolve` settles -/
  call : Nat
  timeoutId : Nat
  createdAt : Nat
  deriving DecidableEq

structure PollWaiter where
  call : Nat
  timeoutId : Nat
  deriving DecidableEq

structure GitServeSessionState where
  active : Bool
  sessionToken : String
  pendingRequests : OrdMap String PendingGitRequest
  pollWaiters : List PollWaiter
  registeredAt : Option Nat
  deriving DecidableEq

structure PersistableSessionState where
  active : Bool
  sessionToken : String
  registeredAt : Option Nat
  deriving DecidableEq

structure IncomingRefRelayEvent where
  eventId : String
  occurredAt : Nat
  room : String
  source : String
  ref : String
  target : String
  deriving DecidableEq

def REQUEST_TIMEOUT_MS : Nat := 60000

def POLL_TIMEOUT_MS : Nat := 30000

def RECEIVE_PACK_DISABLED_MESSAGE : String := "receive-pack not enabled"

def ZERO_OID : String := "0000000000000000000000000000000000000000"

/-- A request to the session: `bytes` is what `arrayBuffer()` gives, `none` when the reading
fails. -/
structure GitServeRequest where
  request : Request
  bytes : Option Bytes
  deriving DecidableEq

/-- The options of a session and the random values it draws: no two calls draw one id. -/
structure GitServeHost where
  sessionTtlMs : Nat
  /-- `onIncomingRef` with its source, target and room -/
  onIncomingRef : Option (String × String × String)
  toLowerCase : String → String
  requestId : Nat → String
  requestId_injective : Function.Injective requestId
  requestId_ne : ∀ call, requestId call ≠ ""
  sessionToken : Nat → String
  sessionToken_injective : Function.Injective sessionToken
  eventId : Nat → Nat → String

/-! ## Refs of a pack -/

/-- `[-A-Za-z0-9._/]` -/
def isRefChar (c : Char) : Bool := isNameChar c || c == '/'

/-- The matches of `/<pre>[-A-Za-z0-9._/]{1,255}/g`; the first `skip` characters belong to the
match before. -/
def refMatches (pre : List Char) : Nat → List Char → List String
  | _, [] => []
  | skip + 1, _ :: rest => refMatches pre skip rest
  | 0, c :: rest =>
    let tail := (((c :: rest).drop pre.length).takeWhile isRefChar).take 255
    if pre.isPrefixOf (c :: rest) = true ∧ tail ≠ [] then
      String.ofList (pre ++ tail) :: refMatches pre (pre.length + tail.length - 1) rest
    else refMatches pre 0 rest

def extractIncomingRefs (bodyBytes : Bytes) : List String :=
  (refMatches "refs/relay/incoming/".toList 0 (textDecode bodyBytes).toList).eraseDups

def extractAllRelayRefs (bodyBytes : Bytes) : List String :=
  (refMatches "refs/".toList 0 (textDecode bodyBytes).toList).eraseDups

/-! ## Compatibility with a disabled receive-pack -/

/-- `new TextEncoder().encode(text)` -/
def textEncode (text : String) : Bytes := text.toList.flatMap String.utf8EncodeChar

/-- `length.toString(16).padStart(4, '0') + payload` -/
def toPktLine (payload : String) : String :=
  let digits := Nat.toDigits 16 ((textEncode payload).length + 4)
  String.ofList (List.replicate (4 - digits.length) '0' ++ digits) ++ payload

def buildReceivePackAdvertisementBody : Bytes :=
  let capabilities :=
    ["report-status", "report-status-v2", "delete-refs", "ofs-delta", "atomic", "quiet"]
  let firstRef := ZERO_OID ++ " capabilities^\x7b\x7d\x00" ++ " ".intercalate capabilities ++ "\n"
  textEncode (toPktLine "# service=git-receive-pack\n" ++ "0000" ++ toPktLine firstRef ++ "0000")

def buildReceivePackResultBody (incomingRefs : List String) : Bytes :=
  textEncode (toPktLine "unpack ok\n" ++
    String.join (incomingRefs.map fun ref => toPktLine ("ok " ++ ref ++ "\n")) ++ "0000")

/-- `pathWithQuery.split('?', 2)` -/
def splitPath (pathWithQuery : String) : String × String :=
  let pathname := splitFirst pathWithQuery '?'
  (pathname, splitFirst (sliceFrom pathWithQuery (pathname.toList.length + 1)) '?')

/-- The pathname of a path with its query. -/
theorem splitPath_searchOf {path : String} (hpath : '?' ∉ path.toList)
    (query : List (String × String)) : (splitPath (path ++ searchOf query)).1 = path := by
  have hall : ∀ c ∈ path.toList, decide (c ≠ '?') = true := by
    intro c hc
    refine decide_eq_true fun heq => hpath ?_
    rwa [← heq]
  unfold splitPath splitFirst searchOf
  simp only
  split
  · rw [String.append_empty, List.takeWhile_eq_self_iff.mpr hall, String.ofList_toList]
  · generalize "&".intercalate (query.map fun p => formEncode p.1 ++ "=" ++ formEncode p.2) = rest
    have hlist : (path ++ ("?" ++ rest)).toList = path.toList ++ '?' :: rest.toList := by
      simp only [String.toList_append]
      rfl
    have hstop : ('?' :: rest.toList).takeWhile (fun c => decide (c ≠ '?')) = [] := rfl
    rw [hlist, List.takeWhile_append_of_pos hall, hstop, List.append_nil, String.ofList_toList]

def isReceivePackInfoRefsPath (pathWithQuery : String) : Bool :=
  let (pathname, search) := splitPath pathWithQuery
  pathname == "/info/refs" && (parseSearch search).lookup "service" == some "git-receive-pack"

def isReceivePackRpcPath (pathWithQuery : String) : Bool :=
  (splitPath pathWithQuery).1 == "/git-receive-pack"

def shouldCompatAcceptIncomingOnlyPush (pending : PendingGitRequest) : Bool :=
  isReceivePackRpcPath pending.path && !pending.incomingRefs.isEmpty &&
    !pending.allRelayRefs.isEmpty &&
    pending.allRelayRefs.all fun ref => startsWith ref "refs/relay/incoming/"

/-! ## The body of a respond -/

/-- The fields of a `/respond` body, with their defaults. -/
structure RespondBody where
  requestId : String
  status : JsNumber
  headers : List (String × JsonValue)
  bodyBase64 : Option String

def readRespondBody (parsed : JsonValue) : RespondBody where
  requestId := parsed.strField "request_id"
  status := (parsed.numField? "status").getD (.ofNat 200)
  headers := ((parsed.objField? "headers").bind JsonValue.fields?).getD []
  bodyBase64 := match parsed.get? "body_base64" with
    | some (.str s) => some s
    | _ => none

/-- `bodyBase64 ? fromBase64(bodyBase64).buffer : null`; `none` is the exception of `atob`. -/
def decodeBody (bodyBase64 : Option String) : Option (Option Bytes) :=
  match bodyBase64 with
  | none => some none
  | some s => if s = "" then some none else (atob s).map some

/-- The text headers, set one after the other; `none` is the `TypeError`. -/
def setHeaders (headers : Headers) : List (String × JsonValue) → Option Headers
  | [] => some headers
  | (key, .str value) :: rest => (headers.put key value).bind fun headers => setHeaders headers rest
  | _ :: rest => setHeaders headers rest

def isReceivePackDisabledBody (H : GitServeHost) (responseBody : Option Bytes) : Bool :=
  match responseBody with
  | none => false
  | some bytes => H.toLowerCase (trim (textDecode bytes)) == RECEIVE_PACK_DISABLED_MESSAGE

/-- `status >= 200 && status < 300` -/
def isSuccessfulHttpStatus (status : JsNumber) : Bool :=
  match status with
  | .finite q => decide (200 ≤ q ∧ q < 300)
  | _ => false

/-- What a response is built from: the status, the headers and the body. -/
structure ResponseParts where
  status : JsNumber
  headers : Headers
  body : Option Bytes

/-- A refusal of receive-pack becomes an advertisement, or the report of an accepted push. -/
def compatParts (H : GitServeHost) (pending : PendingGitRequest) (parts : ResponseParts) :
    ResponseParts :=
  let receivePackDisabled := parts.status == .ofNat 403 && isReceivePackDisabledBody H parts.body
  let rewritten (contentType : String) (body : Bytes) : ResponseParts :=
    { status := .ofNat 200
      headers := (parts.headers.set "content-type" contentType).set "cache-control" "no-cache"
      body := some body }
  if receivePackDisabled && isReceivePackInfoRefsPath pending.path then
    rewritten "application/x-git-receive-pack-advertisement" buildReceivePackAdvertisementBody
  else if receivePackDisabled && shouldCompatAcceptIncomingOnlyPush pending then
    rewritten "application/x-git-receive-pack-result"
      (buildReceivePackResultBody pending.incomingRefs)
  else parts

/-! ## The event loop -/

inductive TimerTask
  | closeSession
  | requestTimeout (requestId : String) (call : Nat)
  | pollTimeout (call : Nat)
  deriving DecidableEq

structure Timer where
  due : Nat
  task : TimerTask
  deriving DecidableEq

/-- How a promise is settled. -/
inductive GitAnswer
  | json (response : Response)
  | raw (response : RawResponse)
  | rejected
  deriving DecidableEq

/-- A session and what the event loop holds for it. `queued` lists the calls that were put in
the queue of git requests; nothing reads it. -/
structure GitServe where
  state : GitServeSessionState
  sessionTimer : Option Nat
  timers : OrdMap Nat Timer
  nextTimer : Nat
  nextCall : Nat
  reading : OrdMap Nat GitServeRequest
  answers : OrdMap Nat GitAnswer
  events : List IncomingRefRelayEvent
  queued : List Nat
  deriving DecidableEq

inductive GitServeEvent
  /-- a call of `fetch`, up to its first await -/
  | fetch (request : GitServeRequest) (now : Nat)
  /-- the body that a call awaits is read, or its reading fails -/
  | bodyRead (call now : Nat)
  | timer (id : Nat)
  | cleanup
  | restore (saved : PersistableSessionState) (now : Nat)
  deriving DecidableEq

namespace GitServe

def init : GitServe where
  state := ⟨false, "", ∅, [], none⟩
  sessionTimer := none
  timers := ∅
  nextTimer := 0
  nextCall := 0
  reading := ∅
  answers := ∅
  events := []
  queued := []

/-- `setTimeout`; the timer gets the number `s.nextTimer`. -/
def setTimeout (due : Nat) (task : TimerTask) (s : GitServe) : GitServe :=
  { s with timers := s.timers.set s.nextTimer ⟨due, task⟩, nextTimer := s.nextTimer + 1 }

def clearTimeout (id : Nat) (s : GitServe) : GitServe := { s with timers := s.timers.erase id }

/-- Settle the promise of a call; a settled promise stays as it is. -/
def settle (call : Nat) (answer : GitAnswer) (s : GitServe) : GitServe :=
  { s with answers := s.answers.setNew call answer }

/-- `state.pendingRequests.delete(requestId)` -/
def deletePending (requestId : String) (s : GitServe) : GitServe :=
  { s with state := { s.state with
    pendingRequests := s.state.pendingRequests.erase requestId } }

def fail (call : Nat) (message : String) (status : Nat) (s : GitServe) : GitServe :=
  s.settle call (.json (toErrorResponse message status))

def formatPollResponse (requests : List PendingGitRequest) : Response :=
  ⟨200, .obj [
    ("ok", .bool true),
    ("requests", .arr (requests.map fun r => .obj [
      ("request_id", .str r.requestId),
      ("method", .str r.method),
      ("path", .str r.path),
      ("headers", .obj (r.headers.map fun h => (h.1, .str h.2))),
      ("body_base64", .ofString? r.bodyBase64),
      ("incoming_refs", .arr (r.incomingRefs.map .str))]))]⟩

/-! ## Session -/

def closeRequest (s : GitServe) (pending : PendingGitRequest) : GitServe :=
  (s.clearTimeout pending.timeoutId).fail pending.call "session closed" 410

def closeWaiter (s : GitServe) (waiter : PollWaiter) : GitServe :=
  (s.clearTimeout waiter.timeoutId).settle waiter.call (.json (formatPollResponse []))

def clearSessionTimer (s : GitServe) : GitServe :=
  match s.sessionTimer with
  | some id => { s.clearTimeout id with sessionTimer := none }
  | none => s

def cleanup (s : GitServe) : GitServe :=
  let s := s.clearSessionTimer
  let s := s.state.pendingRequests.values.foldl closeRequest s
  let s := { s with state := { s.state with pendingRequests := ∅ } }
  let s := s.state.pollWaiters.foldl closeWaiter s
  { s with state := { s.state with pollWaiters := [], active := false } }

def resetSessionTimer (H : GitServeHost) (now : Nat) (s : GitServe) : GitServe :=
  let s := match s.sessionTimer with
    | some id => s.clearTimeout id
    | none => s
  { s.setTimeout (now + H.sessionTtlMs) .closeSession with sessionTimer := some s.nextTimer }

def handleRegister (H : GitServeHost) (call now : Nat) (s : GitServe) : GitServe :=
  let s := { s with state := { s.state with
    sessionToken := H.sessionToken call, active := true, registeredAt := some now } }
  (s.resetSessionTimer H now).settle call (.json ⟨200, .obj [
    ("ok", .bool true), ("session_token", .str (H.sessionToken call))]⟩)

/-- `url.searchParams.get('session_token') ?? request.headers.get('x-session-token') ?? ''` -/
def presentedToken (request : Request) : String :=
  (request.param "session_token").getD ((request.header "x-session-token").getD "")

def validateToken (request : Request) (s : GitServe) : Option Response :=
  if s.state.active = false then some (toErrorResponse "session not active" 404)
  else if presentedToken request ≠ s.state.sessionToken then
    some (toErrorResponse "invalid session token" 403)
  else none

def handleInfo (call : Nat) (request : Request) (s : GitServe) : GitServe :=
  match s.validateToken request with
  | some denied => s.settle call (.json denied)
  | none => s.settle call (.json ⟨200, .obj [
      ("ok", .bool true),
      ("active", .bool s.state.active),
      ("pending_requests", .ofNat s.state.pendingRequests.size),
      ("poll_waiters", .ofNat s.state.pollWaiters.length),
      ("registered_at", .ofInt? (s.state.registeredAt.map fun n => (n : Int)))]⟩)

/-! ## Git requests -/

/-- The oldest waiter gets everything that is queued. -/
def drainPendingToPollWaiters (s : GitServe) : GitServe :=
  match s.state.pollWaiters with
  | [] => s
  | waiter :: rest =>
    if s.state.pendingRequests.size = 0 then s
    else
      let pending := s.state.pendingRequests.values
      let s := { s with state := { s.state with pollWaiters := rest } }
      (s.clearTimeout waiter.timeoutId).settle waiter.call (.json (formatPollResponse pending))

/-- The headers that are handed to the serve side. -/
def keptHeaders (headers : List (String × String)) : List (String × String) :=
  headers.filter fun h =>
    ["content-type", "content-encoding", "git-protocol", "accept"].contains (lowerName h.1)

/-- The entry of a git request in the queue; `bytes` is `none` for a request without a body. -/
def pendingGitRequest (H : GitServeHost) (call now : Nat) (request : Request) (gitPath : String)
    (bytes : Option Bytes) (timeoutId : Nat) : PendingGitRequest :=
  let packed := if endsWith gitPath "/git-receive-pack" then bytes else none
  { requestId := H.requestId call
    method := request.method
    path := gitPath ++ searchOf (request.query.filter fun p => decide (p.1 ≠ "session_token"))
    headers := keptHeaders request.headers
    bodyBase64 := bytes.map toBase64
    incomingRefs := (packed.map extractIncomingRefs).getD []
    allRelayRefs := (packed.map extractAllRelayRefs).getD []
    call := call
    timeoutId := timeoutId
    createdAt := now }

def enqueue (H : GitServeHost) (call now : Nat) (request : Request) (gitPath : String)
    (bytes : Option Bytes) (s : GitServe) : GitServe :=
  let pending := pendingGitRequest H call now request gitPath bytes s.nextTimer
  let s := s.setTimeout (now + REQUEST_TIMEOUT_MS) (.requestTimeout (H.requestId call) call)
  { s with
    state := { s.state with
      pendingRequests := s.state.pendingRequests.set (H.requestId call) pending }
    queued := s.queued ++ [call] }

/-- The rest of `handleGitRequest`, once the body is there. -/
def queueGitRequest (H : GitServeHost) (call now : Nat) (request : Request) (gitPath : String)
    (bytes : Option Bytes) (s : GitServe) : GitServe :=
  (s.enqueue H call now request gitPath bytes).drainPendingToPollWaiters

/-- The path after `/git`, for the paths that match `^/git/(.*)`. -/
def gitPath? (pathname : String) : Option String :=
  if startsWith pathname "/git/" then some ("/" ++ sliceFrom pathname 5) else none

def handleGitRequest (H : GitServeHost) (call now : Nat) (request : GitServeRequest)
    (gitPath : String) (s : GitServe) : GitServe :=
  if s.state.active = false then s.fail call "session not active" 404
  else if request.request.method = "POST" then
    { s with reading := s.reading.set call request }
  else s.queueGitRequest H call now request.request gitPath none

/-! ## Polls -/

/-- `Math.min(Math.max(timeoutParam, 1) * 1000, POLL_TIMEOUT_MS)`; a `NaN` is no delay. -/
def pollTimeoutMs (request : Request) : Nat :=
  match parseInt10 ((request.param "timeout").getD "30") with
  | some n => min ((max n 1).toNat * 1000) POLL_TIMEOUT_MS
  | none => 0

def handlePoll (call now : Nat) (request : Request) (s : GitServe) : GitServe :=
  match s.validateToken request with
  | some denied => s.settle call (.json denied)
  | none =>
    if 0 < s.state.pendingRequests.size then
      s.settle call (.json (formatPollResponse s.state.pendingRequests.values))
    else
      let waiter : PollWaiter := ⟨call, s.nextTimer⟩
      let s := s.setTimeout (now + pollTimeoutMs request) (.pollTimeout call)
      { s with state := { s.state with pollWaiters := s.state.pollWaiters ++ [waiter] } }

/-! ## Answers of the serve side -/

def emitIncomingRefEvents (H : GitServeHost) (call now : Nat) (incomingRefs : List String)
    (s : GitServe) : GitServe :=
  match H.onIncomingRef with
  | none => s
  | some (source, target, room) =>
    { s with events := s.events ++ incomingRefs.zipIdx.map fun (ref, i) =>
        { eventId := H.eventId call i, occurredAt := now / 1000, room, source, ref, target } }

/-- The answer to a queued request is built and handed over. Whatever throws here leaves the
session as it is then and rejects the promise of the respond. -/
def resolvePending (H : GitServeHost) (call now : Nat) (body : RespondBody)
    (pending : PendingGitRequest) (s : GitServe) : GitServe :=
  match decodeBody body.bodyBase64, setHeaders ∅ body.headers with
  | some responseBody, some headers =>
    let parts := compatParts H pending ⟨body.status, headers, responseBody⟩
    let s :=
      if pending.incomingRefs ≠ [] ∧ isSuccessfulHttpStatus parts.status then
        s.emitIncomingRefEvents H call now pending.incomingRefs
      else s
    match RawResponse.new parts.body parts.status parts.headers with
    | some response =>
      (s.settle pending.call (.raw response)).settle call
        (.json ⟨200, .obj [("ok", .bool true)]⟩)
    | none => s.settle call .rejected
  | _, _ => s.settle call .rejected

/-- The rest of `handleRespond`, once the body is there. -/
def handleRespond (H : GitServeHost) (call now : Nat) (request : Request) (s : GitServe) :
    GitServe :=
  match request.body.json with
  | some (.obj fields) =>
    let body := readRespondBody (.obj fields)
    if body.requestId = "" then s.fail call "missing request_id" 400
    else
      match s.state.pendingRequests.get? body.requestId with
      | none => s.fail call "request not found or already resolved" 404
      | some pending =>
        let s := (s.deletePending body.requestId).clearTimeout pending.timeoutId
        s.resolvePending H call now body pending
  | _ => s.fail call "invalid json" 400

/-! ## Steps -/

/-- `fetch`, up to its first await. -/
def fetch (H : GitServeHost) (request : GitServeRequest) (now : Nat) (s : GitServe) : GitServe :=
  let call := s.nextCall
  let s := { s with nextCall := call + 1 }
  let path := request.request.pathname
  let method := request.request.method
  if path = "/register" ∧ method = "POST" then s.handleRegister H call now
  else if path = "/info" ∧ method = "GET" then s.handleInfo call request.request
  else if path = "/poll" ∧ method = "GET" then s.handlePoll call now request.request
  else if path = "/respond" ∧ method = "POST" then
    match s.validateToken request.request with
    | some denied => s.settle call (.json denied)
    | none => { s with reading := s.reading.set call request }
  else
    match gitPath? path with
    | some gitPath => s.handleGitRequest H call now request gitPath
    | none => s.settle call (.json notFoundResponse)

/-- The body of a call is there: the call goes on behind its await. -/
def bodyRead (H : GitServeHost) (call now : Nat) (s : GitServe) : GitServe :=
  match s.reading.get? call with
  | none => s
  | some request =>
    let s := { s with reading := s.reading.erase call }
    match gitPath? request.request.pathname with
    | none => s.handleRespond H call now request.request
    | some gitPath =>
      match request.bytes with
      | some bytes => s.queueGitRequest H call now request.request gitPath (some bytes)
      | none => s.settle call .rejected

/-- An armed timer fires. -/
def fireTimer (id : Nat) (s : GitServe) : GitServe :=
  match s.timers.get? id with
  | none => s
  | some timer =>
    let s := s.clearTimeout id
    match timer.task with
    | .closeSession => s.cleanup
    | .requestTimeout requestId call =>
      (s.deletePending requestId).fail call "request timeout" 504
    | .pollTimeout call =>
      let s := { s with state := { s.state with
        pollWaiters := s.state.pollWaiters.filter fun w => decide (w.call ≠ call) } }
      s.settle call (.json (formatPollResponse []))

def persistableState (s : GitServe) : PersistableSessionState :=
  ⟨s.state.active, s.state.sessionToken, s.state.registeredAt⟩

def restore (H : GitServeHost) (saved : PersistableSessionState) (now : Nat) (s : GitServe) :
    GitServe :=
  let s := { s with state := { s.state with
    active := saved.active, sessionToken := saved.sessionToken,
    registeredAt := saved.registeredAt } }
  if s.state.active then s.resetSessionTimer H now else s

def step (H : GitServeHost) (s : GitServe) : GitServeEvent → GitServe
  | .fetch request now => s.fetch H request now
  | .bodyRead call now => s.bodyRead H call now
  | .timer id => s.fireTimer id
  | .cleanup => s.cleanup
  | .restore saved now => s.restore H saved now

/-- The session after a run of events. -/
def after (H : GitServeHost) (events : List GitServeEvent) : GitServe :=
  runFrom (step H) init events

def toyId (n : Nat) : String := String.ofList (List.replicate (n + 1) 'r')

theorem toyId_injective : Function.Injective toyId := by
  intro m n h
  have hlength := congrArg List.length (String.ofList_injective h)
  simpa using hlength

/-- A host that counts its ids, for runs on fixed inputs. -/
def toyHost : GitServeHost where
  sessionTtlMs := 1000
  onIncomingRef := none
  toLowerCase := lowerName
  requestId := toyId
  requestId_injective := toyId_injective
  requestId_ne call := by
    intro h
    have hlength := congrArg (fun s => s.toList.length) h
    simp [toyId] at hlength
  sessionToken := toyId
  sessionToken_injective := toyId_injective
  eventId _ _ := ""

end GitServe

end BitRelay
