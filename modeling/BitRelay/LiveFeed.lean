import BitRelay.Exchange.PullWalk
import BitRelay.Lib.Subscribers
import BitRelay.Logs.Suffix

/-!
# The live feed

A client that upgrades `/ws` is registered with its room, and every message that the room accepts is
broadcast to the sockets that are open at that time. A socket of one runtime is open from the start,
that of another opens later. A socket may fail to send at any time; its session is then deleted.
So is a session that was silent for too long when a request or the timer finds it; its socket stays
open where `close` throws.

The system below goes on from any state that a run of writers and restores has reached. It serves
requests in segments, and beside them sockets open, receive, close and fail, and presence and review
changes are broadcast, in any order.

Results:
1. `LiveSystem.sound_step`: what one step preserves.
2. `feed_hands_over`: a socket has received what its room has accepted since it opened, up to the
   point at which it was lost, and a poll behind its last cursor goes on from there.
3. `sessions_end`: a room has no more sessions than its cap, and no session outlives its last sign
   of life by more than the two intervals.
-/

namespace BitRelay

/-! ## Sockets -/

inductive ReadyState
  | connecting
  | opened
  | closing
  | closed
  deriving DecidableEq

/-- `readyState === WS_OPEN_STATE` -/
def ReadyState.isOpen : ReadyState → Bool
  | opened => true
  | connecting | closing | closed => false

theorem ReadyState.isOpen_iff {state : ReadyState} : state.isOpen = true ↔ state = opened := by
  cases state <;> decide

/-- A text that the relay sends to a socket. -/
inductive Frame
  | ready (pingIntervalMs idleTimeoutMs : Nat)
  | ping
  | pong
  | publish (room : String) (envelope : Envelope) (cursor : Nat)
  | presence (room participant status : String) (metadata : JsonValue) (event : String)
  | review (room prId sender verdict event : String) (resolved : Bool) (approveCount denyCount : Nat)

/-- What `JSON.stringify` is given. -/
def Frame.message : Frame → JsonValue
  | ready pingIntervalMs idleTimeoutMs => .obj [
    ("type", .str "ready"),
    ("keepalive", .obj [
      ("ping_interval_ms", .ofNat pingIntervalMs),
      ("idle_timeout_ms", .ofNat idleTimeoutMs)])]
  | ping => .obj [("type", .str "ping")]
  | pong => .obj [("type", .str "pong")]
  | publish room envelope cursor => .obj [
    ("type", .str envelope.topic),
    ("room", .str room),
    ("cursor", .ofNat cursor),
    ("envelope", .obj (sanitizeEnvelope envelope))]
  | presence room participant status metadata event => .obj [
    ("type", .str "presence"),
    ("room", .str room),
    ("participant", .str participant),
    ("status", .str status),
    ("metadata", metadata),
    ("event", .str event)]
  | review room prId sender verdict event resolved approveCount denyCount => .obj [
    ("type", .str "review"),
    ("room", .str room),
    ("pr_id", .str prId),
    ("sender", .str sender),
    ("verdict", .str verdict),
    ("event", .str event),
    ("resolved", .bool resolved),
    ("approve_count", .ofNat approveCount),
    ("deny_count", .ofNat denyCount)]

structure Socket where
  room : String
  readyState : ReadyState
  /-- a listener sends the ready frame when the socket opens -/
  announces : Bool
  frames : List Frame
  /-- how many messages the room had accepted when the socket opened -/
  since : Nat

namespace Socket

/-- A socket that no request has got. -/
def absent : Socket := ⟨"", .closed, false, [], 0⟩

def send (socket : Socket) (frame : Frame) : Socket :=
  { socket with frames := socket.frames ++ [frame] }

end Socket

/-- The message of a frame, and its cursor. -/
def Frame.published : Frame → Option (Envelope × Nat)
  | publish _ envelope cursor => some (envelope, cursor)
  | _ => none

/-- The messages that the socket has received, with their cursors. -/
def Socket.published (socket : Socket) : List (Envelope × Nat) :=
  socket.frames.filterMap Frame.published

structure WsSessionMeta where
  lastActive : Nat

/-- The options of the sockets, as `createMemoryRelayService` bounds them. -/
structure LiveConfig where
  maxWsSessions : Nat
  wsPingIntervalMs : Nat
  wsIdleTimeoutMs : Nat
  maxWsSessions_pos : 1 ≤ maxWsSessions
  wsPingIntervalMs_ge : 1000 ≤ wsPingIntervalMs
  wsIdleTimeoutMs_ge : wsPingIntervalMs + 1000 ≤ wsIdleTimeoutMs

/-! ## The system -/

structure LiveSystem (C : Type) where
  sys : WritingSystem C
  /-- `roomState.sessions` of a room -/
  sessions : String → OrdMap Nat WsSessionMeta
  socket : Nat → Socket
  next : Nat
  lastReapAt : Nat

/-- The calls that throw: `send` with a frame at a socket, and `close` at a socket. -/
structure Throws where
  send : Frame → Nat → Bool
  close : Nat → Bool

inductive LiveEvent
  /-- a request arrives; a socket that it upgrades is open at once or later -/
  | arrive (call : HostCall) (opened : Bool) (throws : Throws)
  | resume (task : Nat) (env : HostEnv) (throws : Throws)
  | presenceChange (room participant status : String) (metadata : JsonValue) (event : String)
      (throws : Throws)
  | reviewChange (room prId sender verdict event : String) (resolved : Bool)
      (approveCount denyCount : Nat) (throws : Throws)
  /-- the interval timer -/
  | timer (nowMs : Nat) (throws : Throws)
  | opens (id : Nat) (throws : Throws)
  /-- a text from the client, parsed -/
  | receives (id : Nat) (nowMs : Nat) (data : Option JsonValue) (throws : Throws)
  | closing (id : Nat)
  | closes (id : Nat)
  | errors (id : Nat)

/-- The room whose sockets a request joins: `/ws`, up to `subscribeSocket`. -/
def upgradeRoom? {C : Type} (R : Relay C) (request : Request) (env : Env) : Option String :=
  let room := normalizeRoom (request.param "room")
  if request.pathname = "/ws" ∧ (checkAuth R request).isNone ∧ isValidRoomName room = true ∧
      (checkRoomToken R request room).isNone ∧ env.webSocketsFull = false ∧
      R.platform.toLowerCase ((request.header "upgrade").getD "") = "websocket" ∧
      env.webSocketResponse.status = 101
  then some room else none

namespace LiveLemmas

theorem serve_failIf {C : Type} (c : Prop) [Decidable c] (response : Response)
    (x : Handler C Response) (s : ServiceState C) :
    ((Proc.failIf c response >>= fun _ => x) : Handler C Response).serve s =
      if c then (response, s) else x.serve s := by
  unfold Proc.failIf
  split
  · rfl
  · rfl

end LiveLemmas

open LiveLemmas TokenGateLemmas WalkLemmas in
/-- A request of `/ws` is answered with the upgrade exactly when it joins a room. -/
theorem upgradeRoom?_iff {C : Type} {R : Relay C} {request : Request} {env : Env}
    {s : ServiceState C} (hpath : request.pathname = "/ws") :
    (serve R request env s).1.status = 101 ↔ (upgradeRoom? R request env).isSome = true := by
  have hendpoint : Endpoint.ofPath request.pathname = some .ws := by
    rw [hpath]
    decide
  rw [serve_endpoint hendpoint]
  show ((Proc.failWith (checkAuth R request) >>= fun _ => handleWebSocket R request env :
    Handler C Response).serve s).1.status = 101 ↔ _
  unfold upgradeRoom? handleWebSocket readRoom
  dsimp only
  -- Each gate refuses the request with a status of its own.
  rw [serve_failWith]
  rcases checkAuth_cases R request with hauth | hauth
  case inr => simp [hauth, unauthorizedResponse, toErrorResponse]
  simp only [hauth, serve_failIf]
  split
  case isTrue hroom => simp [hroom, invalidRoomResponse, toErrorResponse]
  next hroom =>
  show ((Proc.failWith (checkRoomToken R request _) >>= fun _ => _ : Handler C Response).serve
    (s.openRoom (normalizeRoom (request.param "room")))).1.status = 101 ↔ _
  rw [serve_failWith]
  rcases checkRoomToken_cases R request (normalizeRoom (request.param "room")) with htoken | htoken
  case inr => simp [htoken, toErrorResponse]
  simp only [htoken, serve_failIf]
  split
  case isTrue hfull => simp [hfull, toErrorResponse]
  next hfull =>
  split
  case isTrue hupgrade => simp [hupgrade]
  next hupgrade =>
  have hwebsocket := not_not.mp hupgrade
  simp only [hpath, hroom, hfull, hwebsocket, Option.isNone_none, true_and]
  show env.webSocketResponse.status = 101 ↔ _
  simp

namespace LiveSystem

section
variable {C : Type} (A : Archive C) (L : LiveConfig)

/-- The system without sockets. -/
def start (sys : WritingSystem C) (startedAt : Nat) : LiveSystem C :=
  ⟨sys, fun _ => ∅, fun _ => .absent, 0, startedAt⟩

def isOpen (live : LiveSystem C) (id : Nat) : Bool := (live.socket id).readyState.isOpen

/-- The socket has a session and is open: the next broadcast sends to it. -/
def Subscribed (live : LiveSystem C) (id : Nat) : Prop :=
  (live.sessions (live.socket id).room).has id = true ∧ live.isOpen id = true

instance (live : LiveSystem C) (id : Nat) : Decidable (live.Subscribed id) :=
  inferInstanceAs (Decidable (_ ∧ _))

def setSocket (live : LiveSystem C) (id : Nat) (socket : Socket) : LiveSystem C :=
  { live with socket := Function.update live.socket id socket }

/-- `socket.send` outside of the loops. -/
def sendTo (live : LiveSystem C) (id : Nat) (frame : Frame) (throws : Throws) : LiveSystem C :=
  if live.isOpen id && !throws.send frame id then live.setSocket id ((live.socket id).send frame)
  else live

def setSession (live : LiveSystem C) (room : String) (id : Nat) (session : WsSessionMeta) :
    LiveSystem C :=
  { live with sessions := Function.update live.sessions room ((live.sessions room).set id session) }

def deleteSession (live : LiveSystem C) (id : Nat) : LiveSystem C :=
  let room := (live.socket id).room
  { live with sessions := Function.update live.sessions room ((live.sessions room).erase id) }

/-- The loop of the three broadcasts: a socket that is not open is passed over, and one that throws
loses its session. -/
def broadcast (live : LiveSystem C) (room : String) (frame : Frame) (throws : Throws) :
    LiveSystem C :=
  { live with
    sessions := Function.update live.sessions room
      ((live.sessions room).filter fun id _ => !(live.isOpen id && throws.send frame id))
    socket := fun id =>
      if (live.sessions room).has id && live.isOpen id && !throws.send frame id
      then (live.socket id).send frame else live.socket id }

def broadcastPublish (live : LiveSystem C) (room : String) (envelope : Envelope) (cursor : Nat)
    (throws : Throws) : LiveSystem C :=
  live.broadcast room (.publish room envelope cursor) throws

def broadcastPresenceChange (live : LiveSystem C) (room participant status : String)
    (metadata : JsonValue) (event : String) (throws : Throws) : LiveSystem C :=
  live.broadcast room (.presence room participant status metadata event) throws

def broadcastReviewChange (live : LiveSystem C) (room prId sender verdict event : String)
    (resolved : Bool) (approveCount denyCount : Nat) (throws : Throws) : LiveSystem C :=
  live.broadcast room (.review room prId sender verdict event resolved approveCount denyCount) throws

/-- The session was silent for too long. -/
def isIdle (nowMs : Nat) (session : WsSessionMeta) : Bool :=
  decide (session.lastActive + L.wsIdleTimeoutMs ≤ nowMs)

def reapDeadConnections (live : LiveSystem C) (nowMs : Nat) (throws : Throws) : LiveSystem C :=
  { live with
    sessions := fun room => (live.sessions room).filter fun id session =>
      live.isOpen id && !isIdle L nowMs session && !throws.send .ping id
    socket := fun id =>
      match (live.sessions (live.socket id).room).get? id with
      | none => live.socket id
      | some session =>
        if live.isOpen id = false then live.socket id
        else if isIdle L nowMs session then
          if throws.close id then live.socket id
          else { live.socket id with readyState := .closing }
        else if throws.send .ping id then live.socket id
        else (live.socket id).send .ping
    lastReapAt := nowMs }

/-- The session is set before the socket is open, and without a look at whether it will be. -/
def subscribeSocket (live : LiveSystem C) (room : String) (opened : Bool) (nowMs : Nat)
    (throws : Throws) : LiveSystem C :=
  let id := live.next
  let socket : Socket := ⟨room, if opened then .opened else .connecting, !opened, [],
    (live.sys.historyOf room).length⟩
  let live := { live.setSession room id ⟨nowMs⟩ with next := id + 1 }.setSocket id socket
  live.sendTo id (.ready L.wsPingIntervalMs L.wsIdleTimeoutMs) throws

/-- A segment, with the broadcast of the message that it accepts. -/
def advance (live : LiveSystem C) (event : WritingEvent C) (throws : Throws) : LiveSystem C :=
  let sys := live.sys.step A event
  match sys.history[live.sys.history.length]? with
  | none => { live with sys }
  | some envelope =>
    { live with sys }.broadcastPublish envelope.room envelope (sys.logOf envelope.room).length throws

/-- A request sees whether its room has a session left. -/
def seeing (live : LiveSystem C) (call : HostCall) : HostCall :=
  { request := call.request
    env := { call.env with
      webSocketsFull := decide (L.maxWsSessions ≤
        (live.sessions (normalizeRoom (call.request.param "room"))).size) }
    uuid := call.uuid }

/-- `fetch`: the connections are looked over when it is time. -/
def reapWhenDue (live : LiveSystem C) (nowMs : Nat) (throws : Throws) : LiveSystem C :=
  if live.lastReapAt + L.wsPingIntervalMs ≤ nowMs then live.reapDeadConnections L nowMs throws
  else live

def arrive (live : LiveSystem C) (call : HostCall) (opened : Bool) (throws : Throws) :
    LiveSystem C :=
  let live := live.reapWhenDue L call.env.arrivedMs throws
  let call := live.seeing L call
  let room? := upgradeRoom? live.sys.relay call.request call.env
  let live := live.advance A (.arrive call) throws
  match room? with
  | none => live
  | some room => live.subscribeSocket L room opened call.env.arrivedMs throws

def opens (live : LiveSystem C) (id : Nat) (throws : Throws) : LiveSystem C :=
  if (live.socket id).readyState = .connecting then
    let opened := live.setSocket id { live.socket id with
      readyState := .opened
      announces := false
      since := (live.sys.historyOf (live.socket id).room).length }
    if (live.socket id).announces then
      opened.sendTo id (.ready L.wsPingIntervalMs L.wsIdleTimeoutMs) throws
    else opened
  else live

/-- Any text is a sign of life; a ping is answered. -/
def receives (live : LiveSystem C) (id : Nat) (nowMs : Nat) (data : Option JsonValue)
    (throws : Throws) : LiveSystem C :=
  let room := (live.socket id).room
  let touched :=
    if (live.sessions room).has id then live.setSession room id ⟨nowMs⟩ else live
  if data.bind (·.get? "type") = some (.str "ping") then touched.sendTo id .pong throws else touched

def setReadyState (live : LiveSystem C) (id : Nat) (readyState : ReadyState) : LiveSystem C :=
  live.setSocket id { live.socket id with readyState }

def step (live : LiveSystem C) : LiveEvent → LiveSystem C
  | .arrive call opened throws => live.arrive A L call opened throws
  | .resume task env throws => live.advance A (.resume task env) throws
  | .presenceChange room participant status metadata event throws =>
    live.broadcastPresenceChange room participant status metadata event throws
  | .reviewChange room prId sender verdict event resolved approveCount denyCount throws =>
    live.broadcastReviewChange room prId sender verdict event resolved approveCount denyCount throws
  | .timer nowMs throws => live.reapDeadConnections L nowMs throws
  | .opens id throws => live.opens L id throws
  | .receives id nowMs data throws => live.receives id nowMs data throws
  | .closing id => live.setReadyState id .closing
  | .closes id => (live.setReadyState id .closed).deleteSession id
  | .errors id => live.deleteSession id

def after (sys : WritingSystem C) (startedAt : Nat) (events : List LiveEvent) : LiveSystem C :=
  runFrom (step A L) (start sys startedAt) events

end

end LiveSystem

open LiveSystem Subscribers

/-! ## What a socket has received -/

/-- What a socket has received of the messages that its room has accepted, and where they stand in
the log: behind those that were there when it opened. -/
structure SocketSound (maxMessagesPerRoom : Nat) (log accepted : List Envelope) (socket : Socket)
    (current : Prop) : Prop where
  received : Received accepted (socket.published.map Prod.fst) socket.since current
  early : socket.readyState = .connecting → socket.published = []
  placed : ∃ old,
    log = newestMessages maxMessagesPerRoom (old ++ accepted.drop socket.since) ∧
    socket.published.map Prod.snd = (List.range socket.published.length).map fun i =>
      min maxMessagesPerRoom (old.length + i + 1)

namespace LiveLemmas

variable {maxMessagesPerRoom : Nat} {log accepted : List Envelope} {socket socket' : Socket}
  {current current' : Prop} {e : Envelope}

/-- The socket has received no further message. -/
structure Kept (socket socket' : Socket) : Prop where
  room : socket'.room = socket.room
  since : socket'.since = socket.since
  published : socket'.published = socket.published
  connecting : socket'.readyState = .connecting → socket.readyState = .connecting

theorem Kept.refl (socket : Socket) : Kept socket socket := ⟨rfl, rfl, rfl, id⟩

theorem Kept.trans {socket'' : Socket} (h : Kept socket socket') (h' : Kept socket' socket'') :
    Kept socket socket'' :=
  ⟨h'.room.trans h.room, h'.since.trans h.since, h'.published.trans h.published,
    fun hconnecting => h.connecting (h'.connecting hconnecting)⟩

theorem published_send (socket : Socket) (frame : Frame) :
    (socket.send frame).published = socket.published ++ frame.published.toList := by
  unfold Socket.published Socket.send
  rw [List.filterMap_append]
  cases frame <;> rfl

theorem kept_send (socket : Socket) {frame : Frame} (h : frame.published = none) :
    Kept socket (socket.send frame) := by
  refine ⟨rfl, rfl, ?_, id⟩
  rw [published_send, h]
  exact List.append_nil _

theorem socketSound_kept (h : SocketSound maxMessagesPerRoom log accepted socket current)
    (hkept : Kept socket socket') (hcurrent : current' → current) :
    SocketSound maxMessagesPerRoom log accepted socket' current' := by
  refine ⟨?_, fun hconnecting => ?_, ?_⟩
  · rw [hkept.published, hkept.since]
    exact h.received.leave hcurrent
  · rw [hkept.published]
    exact h.early (hkept.connecting hconnecting)
  · rw [hkept.published, hkept.since]
    exact h.placed

theorem socketSound_start (hlog : log.length ≤ maxMessagesPerRoom)
    (hsince : socket.since = accepted.length) (hpublished : socket.published = []) :
    SocketSound maxMessagesPerRoom log accepted socket current := by
  refine ⟨?_, fun _ => hpublished, log, ?_, ?_⟩
  · rw [hsince, hpublished]
    exact .start current
  · rw [hsince, List.drop_length, List.append_nil]
    unfold newestMessages
    rw [Nat.sub_eq_zero_of_le hlog, List.drop_zero]
  · rw [hpublished]
    rfl

/-- The log behind one more message. -/
theorem newest_grown {old recent : List Envelope}
    (h : log = newestMessages maxMessagesPerRoom (old ++ recent)) :
    pushMessage log e maxMessagesPerRoom =
      newestMessages maxMessagesPerRoom (old ++ (recent ++ [e])) := by
  rw [h, SuffixLemmas.pushMessage_newest, List.append_assoc]

theorem length_newest (messages : List Envelope) :
    (newestMessages maxMessagesPerRoom messages).length = min maxMessagesPerRoom messages.length := by
  unfold newestMessages
  rw [List.length_drop]
  omega

theorem socketSound_miss (h : SocketSound maxMessagesPerRoom log accepted socket current)
    (hcurrent : ¬ current') :
    SocketSound maxMessagesPerRoom (pushMessage log e maxMessagesPerRoom) (accepted ++ [e]) socket
      current' := by
  obtain ⟨old, hlog, hcursors⟩ := h.placed
  refine ⟨h.received.miss hcurrent, h.early, old, ?_, hcursors⟩
  rw [List.drop_append_of_le_length h.received.since_le]
  exact newest_grown hlog

/-- A message is sent with the length of the log as its cursor. -/
theorem socketSound_deliver (h : SocketSound maxMessagesPerRoom log accepted socket current)
    (hcurrent : current) (hopened : socket.readyState = .opened) (room : String) :
    SocketSound maxMessagesPerRoom (pushMessage log e maxMessagesPerRoom) (accepted ++ [e])
      (socket.send (.publish room e (pushMessage log e maxMessagesPerRoom).length)) current' := by
  obtain ⟨old, hlog, hcursors⟩ := h.placed
  have hgrown : pushMessage log e maxMessagesPerRoom =
      newestMessages maxMessagesPerRoom (old ++ (accepted.drop socket.since ++ [e])) :=
    newest_grown hlog
  have hpublished := published_send socket
    (.publish room e (pushMessage log e maxMessagesPerRoom).length)
  refine ⟨?_, fun hconnecting => ?_, old, ?_, ?_⟩
  · rw [hpublished, List.map_append]
    exact h.received.deliver hcurrent
  · have hstate : socket.readyState = .connecting := hconnecting
    rw [hopened] at hstate
    cases hstate
  · show _ = newestMessages _ (old ++ (accepted ++ [e]).drop socket.since)
    rw [List.drop_append_of_le_length h.received.since_le]
    exact hgrown
  · -- All that was accepted since the socket opened has been sent to it.
    have hlength : (accepted.drop socket.since).length = socket.published.length := by
      rw [← h.received.complete hcurrent, List.length_map]
    have hcursor : (pushMessage log e maxMessagesPerRoom).length =
        min maxMessagesPerRoom (old.length + socket.published.length + 1) := by
      rw [hgrown, length_newest, List.length_append, List.length_append, hlength,
        List.length_singleton, Nat.add_assoc]
    rw [hpublished, List.map_append, hcursors, List.length_append]
    show _ ++ [(pushMessage log e maxMessagesPerRoom).length] =
      (List.range (socket.published.length + 1)).map _
    rw [List.range_succ, List.map_append, hcursor]
    rfl

/-- What a poll behind the last cursor of a socket returns, while the log is not full. -/
theorem socketSound_poll (h : SocketSound maxMessagesPerRoom log accepted socket current)
    {cursor : Nat} (hlast : socket.published.getLast? = some (e, cursor))
    (hroom : log.length < maxMessagesPerRoom) (limit : Nat) :
    pollPage log cursor limit =
      ((accepted.drop socket.since).drop socket.published.length).take limit := by
  obtain ⟨old, hlog, hcursors⟩ := h.placed
  rw [hlog, length_newest] at hroom
  have hall : log = old ++ accepted.drop socket.since := by
    rw [hlog]
    unfold newestMessages
    rw [Nat.sub_eq_zero_of_le (by omega), List.drop_zero]
  have hreceived := h.received.sound.length_le
  rw [List.length_map] at hreceived
  rw [List.length_append] at hroom
  have hpos : socket.published.length ≠ 0 := by
    intro hnil
    rw [List.length_eq_zero_iff.mp hnil] at hlast
    cases hlast
  have hcursor : cursor = old.length + socket.published.length := by
    have hmap := congrArg List.getLast? hcursors
    rw [List.getLast?_map, List.getLast?_map, hlast, List.getLast?_range, if_neg hpos] at hmap
    have hvalue : cursor =
        min maxMessagesPerRoom (old.length + (socket.published.length - 1) + 1) :=
      Option.some.inj hmap
    omega
  unfold pollPage
  rw [hall, hcursor, List.drop_length_add_append]

end LiveLemmas

/-! ## The invariant -/

section
variable {C : Type}

structure LiveSystem.Sound (live : LiveSystem C) : Prop where
  proper : live.sys.ProperTasks
  capped : ∀ room, (live.sys.logOf room).length ≤ live.sys.relay.config.maxMessagesPerRoom
  sessions : ∀ room id, (live.sessions room).has id = true →
    (live.socket id).room = room ∧ id < live.next
  sockets : ∀ id < live.next, SocketSound live.sys.relay.config.maxMessagesPerRoom
    (live.sys.logOf (live.socket id).room) (live.sys.historyOf (live.socket id).room)
    (live.socket id) (live.Subscribed id)

variable {A : Archive C} {L : LiveConfig} {live live' live'' : LiveSystem C}

namespace LiveLemmas

/-- The sockets go on without a message. -/
structure Quiet (live live' : LiveSystem C) : Prop where
  sys : live'.sys = live.sys
  next : live'.next = live.next
  sessions : ∀ room id, (live'.sessions room).has id = true → (live.sessions room).has id = true
  kept : ∀ id, Kept (live.socket id) (live'.socket id)
  isOpen : ∀ id, live'.isOpen id = true → live.isOpen id = true

theorem Quiet.refl (live : LiveSystem C) : Quiet live live :=
  ⟨rfl, rfl, fun _ _ h => h, fun _ => .refl _, fun _ h => h⟩

theorem Quiet.trans (h : Quiet live live') (h' : Quiet live' live'') : Quiet live live'' where
  sys := h'.sys.trans h.sys
  next := h'.next.trans h.next
  sessions room id hhas := h.sessions room id (h'.sessions room id hhas)
  kept id := (h.kept id).trans (h'.kept id)
  isOpen id hopen := h.isOpen id (h'.isOpen id hopen)

theorem Quiet.subscribed (h : Quiet live live') {id : Nat} (hsubscribed : live'.Subscribed id) :
    live.Subscribed id := by
  obtain ⟨hhas, hopen⟩ := hsubscribed
  rw [(h.kept id).room] at hhas
  exact ⟨h.sessions _ _ hhas, h.isOpen id hopen⟩

theorem sound_quiet (h : live.Sound) (hquiet : Quiet live live') : live'.Sound := by
  refine ⟨?_, fun room => ?_, fun room id hhas => ?_, fun id hid => ?_⟩
  · rw [hquiet.sys]
    exact h.proper
  · rw [hquiet.sys]
    exact h.capped room
  · rw [(hquiet.kept id).room, hquiet.next]
    exact h.sessions room id (hquiet.sessions room id hhas)
  · rw [hquiet.next] at hid
    rw [hquiet.sys, (hquiet.kept id).room]
    exact socketSound_kept (h.sockets id hid) (hquiet.kept id) hquiet.subscribed

theorem has_filter {m : OrdMap Nat WsSessionMeta} {p : Nat → WsSessionMeta → Bool} {id : Nat}
    (h : (m.filter p).has id = true) : ∃ session, m.get? id = some session ∧ p id session = true := by
  obtain ⟨session, hget⟩ := Option.isSome_iff_exists.mp h
  exact ⟨session, OrdMap.get?_filter_eq_some_iff.mp hget⟩

theorem has_of_filter {m : OrdMap Nat WsSessionMeta} {p : Nat → WsSessionMeta → Bool} {id : Nat}
    (h : (m.filter p).has id = true) : m.has id = true := by
  obtain ⟨session, hget, -⟩ := has_filter h
  exact Option.isSome_iff_exists.mpr ⟨session, hget⟩

/-- A change of one socket. -/
theorem quiet_setSocket {socket : Socket} {id : Nat} (hkept : Kept (live.socket id) socket)
    (hopen : socket.readyState = .opened → live.isOpen id = true) :
    Quiet live (live.setSocket id socket) := by
  refine ⟨rfl, rfl, fun _ _ h => h, fun other => ?_, fun other hother => ?_⟩
  · rcases Decidable.em (other = id) with rfl | hne
    · show Kept _ (Function.update live.socket other socket other)
      rw [Function.update_self]
      exact hkept
    · show Kept _ (Function.update live.socket id socket other)
      rw [Function.update_of_ne hne]
      exact .refl _
  · unfold isOpen setSocket at *
    dsimp only at hother
    rcases Decidable.em (other = id) with rfl | hne
    · rw [Function.update_self] at hother
      exact hopen (ReadyState.isOpen_iff.mp hother)
    · rw [Function.update_of_ne hne] at hother
      exact hother

theorem quiet_sendTo (live : LiveSystem C) (id : Nat) {frame : Frame} (hframe : frame.published = none)
    (throws : Throws) : Quiet live (live.sendTo id frame throws) := by
  unfold sendTo
  split
  · exact quiet_setSocket (kept_send _ hframe) fun hopened => ReadyState.isOpen_iff.mpr hopened
  · exact .refl live

theorem quiet_deleteSession (live : LiveSystem C) (id : Nat) : Quiet live (live.deleteSession id) := by
  refine ⟨rfl, rfl, fun room other hhas => ?_, fun other => .refl _, fun other h => h⟩
  unfold deleteSession at hhas
  dsimp only at hhas
  rcases Decidable.em (room = (live.socket id).room) with rfl | hne
  · rw [Function.update_self] at hhas
    exact (OrdMap.has_erase.mp hhas).2
  · rw [Function.update_of_ne hne] at hhas
    exact hhas

theorem quiet_setReadyState (live : LiveSystem C) (id : Nat) {readyState : ReadyState}
    (hopened : readyState ≠ .opened) (hconnecting : readyState ≠ .connecting) :
    Quiet live (live.setReadyState id readyState) :=
  quiet_setSocket ⟨rfl, rfl, rfl, fun h => absurd h hconnecting⟩ fun h => absurd h hopened

theorem quiet_receives (live : LiveSystem C) (id nowMs : Nat) (data : Option JsonValue)
    (throws : Throws) : Quiet live (live.receives id nowMs data throws) := by
  have htouched : Quiet live (if (live.sessions (live.socket id).room).has id then
      live.setSession (live.socket id).room id ⟨nowMs⟩ else live) := by
    split
    · next hsession =>
      refine ⟨rfl, rfl, fun room other hhas => ?_, fun other => .refl _, fun other h => h⟩
      unfold setSession at hhas
      dsimp only at hhas
      rcases Decidable.em (room = (live.socket id).room) with rfl | hne
      · rw [Function.update_self] at hhas
        rcases OrdMap.has_set.mp hhas with rfl | hold
        · exact hsession
        · exact hold
      · rw [Function.update_of_ne hne] at hhas
        exact hhas
    · exact .refl live
  unfold receives
  dsimp only
  split
  · exact htouched.trans (quiet_sendTo _ id rfl throws)
  · exact htouched

theorem quiet_reapDeadConnections (L : LiveConfig) (live : LiveSystem C) (nowMs : Nat)
    (throws : Throws) : Quiet live (live.reapDeadConnections L nowMs throws) := by
  have hsocket : ∀ id, Kept (live.socket id) ((live.reapDeadConnections L nowMs throws).socket id) ∧
      ((live.reapDeadConnections L nowMs throws).isOpen id = true → live.isOpen id = true) := by
    intro id
    unfold isOpen reapDeadConnections
    dsimp only
    split
    · exact ⟨.refl _, fun h => h⟩
    · split
      · exact ⟨.refl _, fun h => h⟩
      · split
        · split
          · exact ⟨.refl _, fun h => h⟩
          · exact ⟨⟨rfl, rfl, rfl, fun h => by cases h⟩, fun h => by cases h⟩
        · split
          · exact ⟨.refl _, fun h => h⟩
          · exact ⟨kept_send _ rfl, fun h => h⟩
  exact ⟨rfl, rfl, fun room id hhas => has_of_filter hhas, fun id => (hsocket id).1,
    fun id => (hsocket id).2⟩

/-- The broadcast of a frame without a message. -/
theorem quiet_broadcast (live : LiveSystem C) (room : String) {frame : Frame}
    (hframe : frame.published = none) (throws : Throws) :
    Quiet live (live.broadcast room frame throws) := by
  have hsocket : ∀ id, Kept (live.socket id) ((live.broadcast room frame throws).socket id) ∧
      ((live.broadcast room frame throws).isOpen id = true → live.isOpen id = true) := by
    intro id
    unfold isOpen broadcast
    dsimp only
    split
    · exact ⟨kept_send _ hframe, fun h => h⟩
    · exact ⟨.refl _, fun h => h⟩
  refine ⟨rfl, rfl, fun other id hhas => ?_, fun id => (hsocket id).1, fun id => (hsocket id).2⟩
  unfold broadcast at hhas
  dsimp only at hhas
  rcases Decidable.em (other = room) with rfl | hne
  · rw [Function.update_self] at hhas
    exact has_of_filter hhas
  · rw [Function.update_of_ne hne] at hhas
    exact hhas

/-! ### A socket that opens -/

theorem sound_opens (h : live.Sound) (id : Nat) (throws : Throws) :
    (live.opens L id throws).Sound := by
  unfold opens
  split
  · next hconnecting =>
    have hopened : (live.setSocket id { live.socket id with
        readyState := .opened
        announces := false
        since := (live.sys.historyOf (live.socket id).room).length }).Sound := by
      unfold setSocket
      have hroom : ∀ other, (Function.update live.socket id { live.socket id with
          readyState := .opened
          announces := false
          since := (live.sys.historyOf (live.socket id).room).length } other).room =
            (live.socket other).room := by
        intro other
        rcases Decidable.em (other = id) with rfl | hne
        · rw [Function.update_self]
        · rw [Function.update_of_ne hne]
      refine ⟨h.proper, h.capped, fun room other hhas => ?_, fun other hother => ?_⟩
      · dsimp only
        rw [hroom]
        exact h.sessions room other hhas
      · dsimp only
        rw [hroom]
        rcases Decidable.em (other = id) with rfl | hne
        · rw [Function.update_self]
          exact socketSound_start (h.capped _) rfl ((h.sockets other hother).early hconnecting)
        · unfold Subscribed isOpen
          dsimp only
          rw [Function.update_of_ne hne]
          exact h.sockets other hother
    dsimp only
    split
    · exact sound_quiet hopened (quiet_sendTo _ id rfl throws)
    · exact hopened
  · exact h

theorem sound_subscribeSocket (h : live.Sound) (room : String) (opened : Bool) (nowMs : Nat)
    (throws : Throws) : (live.subscribeSocket L room opened nowMs throws).Sound := by
  unfold subscribeSocket setSession setSocket
  dsimp only
  refine sound_quiet ?_ (quiet_sendTo _ _ rfl throws)
  refine ⟨h.proper, h.capped, fun other id hhas => ?_, fun id hid => ?_⟩
  · have hcases : (id = live.next ∧ other = room) ∨ (live.sessions other).has id = true := by
      dsimp only at hhas
      rcases Decidable.em (other = room) with rfl | hne
      · rw [Function.update_self] at hhas
        rcases OrdMap.has_set.mp hhas with rfl | hold
        · exact .inl ⟨rfl, rfl⟩
        · exact .inr hold
      · rw [Function.update_of_ne hne] at hhas
        exact .inr hhas
    dsimp only
    rcases hcases with ⟨rfl, rfl⟩ | hold
    · rw [Function.update_self]
      exact ⟨rfl, Nat.lt_succ_self _⟩
    · obtain ⟨hroom, hid⟩ := h.sessions other id hold
      rw [Function.update_of_ne (Nat.ne_of_lt hid)]
      exact ⟨hroom, Nat.lt_succ_of_lt hid⟩
  · rcases Decidable.em (id = live.next) with rfl | hne
    · dsimp only
      rw [Function.update_self]
      exact socketSound_start (h.capped room) rfl rfl
    · have hold : id < live.next := Nat.lt_of_le_of_ne (Nat.le_of_lt_succ hid) hne
      have hsound := h.sockets id hold
      unfold Subscribed isOpen
      dsimp only
      rw [Function.update_of_ne hne]
      refine socketSound_kept hsound (.refl _) fun hsubscribed => ⟨?_, hsubscribed.2⟩
      have hhas := hsubscribed.1
      rcases Decidable.em ((live.socket id).room = room) with heq | hroom
      · rw [heq, Function.update_self] at hhas
        rw [heq]
        exact (OrdMap.has_set.mp hhas).resolve_left hne
      · rw [Function.update_of_ne hroom] at hhas
        exact hhas

/-! ### A message that is accepted -/

/-- The sockets of the room that are open receive the message, and no other socket does. -/
theorem socketSound_accepted (h : live.Sound) {sys : WritingSystem C} {e : Envelope}
    (hrelay : sys.relay = live.sys.relay) (hhistory : sys.history = live.sys.history ++ [e])
    (hlog : sys.logOf e.room = pushMessage (live.sys.logOf e.room) e
      live.sys.relay.config.maxMessagesPerRoom)
    (hothers : ∀ room, room ≠ e.room → sys.logOf room = live.sys.logOf room) {id : Nat}
    (hid : id < live.next) (throws : Throws) :
    let live' := { live with sys }.broadcastPublish e.room e (sys.logOf e.room).length throws
    SocketSound sys.relay.config.maxMessagesPerRoom (sys.logOf (live'.socket id).room)
      (sys.historyOf (live'.socket id).room) (live'.socket id) (live'.Subscribed id) := by
  intro live'
  have hsound := h.sockets id hid
  have hsocket : live'.socket id =
      if (live.sessions e.room).has id && live.isOpen id &&
          !throws.send (.publish e.room e (sys.logOf e.room).length) id
      then (live.socket id).send (.publish e.room e (sys.logOf e.room).length)
      else live.socket id := rfl
  have hroom : (live'.socket id).room = (live.socket id).room := by
    rw [hsocket]
    split
    · rfl
    · rfl
  have hsessions : ∀ room, live'.sessions room = if room = e.room then
      (live.sessions e.room).filter fun id _ =>
        !(live.isOpen id && throws.send (.publish e.room e (sys.logOf e.room).length) id)
      else live.sessions room := fun room => Function.update_apply _ _ _ _
  rw [hroom, hrelay]
  rcases Decidable.em ((live.socket id).room = e.room) with heq | hne
  · have haccepted : sys.historyOf e.room = live.sys.historyOf e.room ++ [e] := by
      unfold WritingSystem.historyOf
      rw [hhistory, SuffixLemmas.filter_concat_self]
    rw [heq] at hsound ⊢
    rw [hlog, haccepted]
    split at hsocket
    · next hdelivered =>
      rw [Bool.and_eq_true, Bool.and_eq_true] at hdelivered
      obtain ⟨⟨hhas, hopen⟩, -⟩ := hdelivered
      rw [hsocket, hlog]
      exact socketSound_deliver hsound ⟨heq ▸ hhas, hopen⟩ (ReadyState.isOpen_iff.mp hopen) e.room
    · next hmissed =>
      -- A socket that is still subscribed would have received it.
      have hopen' : live'.isOpen id = live.isOpen id := by
        unfold isOpen
        rw [hsocket]
      rw [hsocket]
      refine socketSound_miss hsound fun hsubscribed => hmissed ?_
      have hhas := hsubscribed.1
      rw [hroom, heq, hsessions, if_pos rfl] at hhas
      obtain ⟨session, hget, hkeeps⟩ := has_filter hhas
      have hopen : live.isOpen id = true := hopen' ▸ hsubscribed.2
      rw [hopen, Bool.true_and] at hkeeps
      rw [has_of_filter hhas, hopen, hkeeps]
      rfl
  · have haccepted : sys.historyOf (live.socket id).room =
        live.sys.historyOf (live.socket id).room := by
      unfold WritingSystem.historyOf
      rw [hhistory, SuffixLemmas.filter_concat_of_ne _ (Ne.symm hne)]
    have hnone : live'.socket id = live.socket id := by
      rw [hsocket]
      refine if_neg fun hdelivered => hne ?_
      rw [Bool.and_eq_true, Bool.and_eq_true] at hdelivered
      exact (h.sessions _ id hdelivered.1.1).1
    rw [hothers _ hne, haccepted]
    refine socketSound_kept hsound (hnone ▸ .refl _) fun hsubscribed => ?_
    unfold Subscribed isOpen at hsubscribed
    rw [hnone, hsessions, if_neg hne] at hsubscribed
    exact hsubscribed

theorem sound_advance (h : live.Sound) {event : WritingEvent C} (hevent : event.restores = false)
    (throws : Throws) : (live.advance A event throws).Sound := by
  have hturn := turn_step (A := A) event h.proper
  have hproper : (live.sys.step A event).ProperTasks :=
    (WritingSystemLemmas.turn_and_proper event h.proper).2
  have hrelay := SuffixLemmas.relay_step (A := A) h.proper hevent
  unfold advance
  dsimp only
  generalize live.sys.step A event = sys at hturn hproper hrelay
  rcases SuffixLemmas.grows_turn hturn hevent with ⟨hhistory, hlogs⟩ | ⟨e, hhistory, hdrop, hothers⟩
  · rw [hhistory, List.getElem?_eq_none (Nat.le_refl _)]
    refine ⟨hproper, fun room => ?_, h.sessions, fun id hid => ?_⟩
    · dsimp only
      rw [hlogs, hrelay]
      exact h.capped room
    · have hsame : sys.historyOf (live.socket id).room =
          live.sys.historyOf (live.socket id).room := by
        unfold WritingSystem.historyOf
        rw [hhistory]
      dsimp only
      rw [hlogs, hsame, hrelay]
      exact h.sockets id hid
  · have hlog : sys.logOf e.room = pushMessage (live.sys.logOf e.room) e
        live.sys.relay.config.maxMessagesPerRoom := by
      rw [hdrop]
      unfold pushMessage
      dsimp only
      rw [List.length_append]
      rfl
    have hget : sys.history[live.sys.history.length]? = some e := by
      rw [hhistory]
      exact List.getElem?_concat_length
    rw [hget]
    refine ⟨hproper, fun room => ?_, fun room id hhas => ?_, fun id hid =>
      socketSound_accepted h hrelay hhistory hlog hothers hid throws⟩
    · show (sys.logOf room).length ≤ sys.relay.config.maxMessagesPerRoom
      rw [hrelay]
      rcases Decidable.em (room = e.room) with rfl | hne
      · rw [hlog]
        unfold pushMessage
        dsimp only
        rw [List.length_drop]
        omega
      · rw [hothers room hne]
        exact h.capped room
    · have hsession : (live.sessions room).has id = true := by
        unfold broadcastPublish broadcast at hhas
        dsimp only at hhas
        rcases Decidable.em (room = e.room) with rfl | hne
        · rw [Function.update_self] at hhas
          exact has_of_filter hhas
        · rw [Function.update_of_ne hne] at hhas
          exact hhas
      obtain ⟨hroom, hid⟩ := h.sessions room id hsession
      refine ⟨Eq.trans ?_ hroom, hid⟩
      unfold broadcastPublish broadcast
      dsimp only
      split
      · rfl
      · rfl

theorem sound_reapWhenDue (h : live.Sound) (nowMs : Nat) (throws : Throws) :
    (live.reapWhenDue L nowMs throws).Sound := by
  unfold reapWhenDue
  split
  · exact sound_quiet h (quiet_reapDeadConnections L live nowMs throws)
  · exact h

end LiveLemmas

open LiveLemmas

theorem LiveSystem.sound_step (h : live.Sound) (event : LiveEvent) : (live.step A L event).Sound := by
  cases event with
  | arrive call opened throws =>
    have hreaped : (live.reapWhenDue L call.env.arrivedMs throws).Sound :=
      sound_reapWhenDue h _ throws
    unfold step arrive
    dsimp only
    generalize live.reapWhenDue L call.env.arrivedMs throws = reaped at hreaped
    have hserved : (reaped.advance A (.arrive (reaped.seeing L call)) throws).Sound :=
      sound_advance hreaped rfl throws
    split
    · exact hserved
    · exact sound_subscribeSocket hserved _ opened _ throws
  | resume task env throws => exact sound_advance h rfl throws
  | presenceChange room participant status metadata event throws =>
    exact sound_quiet h (quiet_broadcast live room rfl throws)
  | reviewChange room prId sender verdict event resolved approveCount denyCount throws =>
    exact sound_quiet h (quiet_broadcast live room rfl throws)
  | timer nowMs throws => exact sound_quiet h (quiet_reapDeadConnections L live nowMs throws)
  | opens id throws => exact sound_opens h id throws
  | receives id nowMs data throws => exact sound_quiet h (quiet_receives live id nowMs data throws)
  | closing id => exact sound_quiet h (quiet_setReadyState live id (by decide) (by decide))
  | closes id =>
    exact sound_quiet h ((quiet_setReadyState live id (by decide) (by decide)).trans
      (quiet_deleteSession _ id))
  | errors id => exact sound_quiet h (quiet_deleteSession live id)

/-- A socket has received, in their order and without a gap, the messages that its room has accepted
since it opened, up to where it lost its session or was no longer open. A socket that is subscribed
has received all of them. While the log is not full, a poll behind the last cursor that a socket
received returns what it has missed. -/
theorem feed_hands_over (A : Archive C) (L : LiveConfig) (relay : Relay C) (cache : C)
    (before : List (WritingEvent C)) (startedAt : Nat) (events : List LiveEvent) (id : Nat) :
    let live := LiveSystem.after A L (WritingSystem.after A relay cache before) startedAt events
    let socket := live.socket id
    let accepted := (live.sys.historyOf socket.room).drop socket.since
    id < live.next →
      socket.published.map Prod.fst <+: accepted ∧
      (live.Subscribed id → socket.published.map Prod.fst = accepted) ∧
      ∀ e cursor, socket.published.getLast? = some (e, cursor) →
        (live.sys.logOf socket.room).length < live.sys.relay.config.maxMessagesPerRoom →
        ∀ limit, pollPage (live.sys.logOf socket.room) cursor limit =
          (accepted.drop socket.published.length).take limit := by
  intro live socket accepted hid
  have hstart : (LiveSystem.start (WritingSystem.after A relay cache before) startedAt).Sound := by
    refine ⟨properTasks_run relay cache before, fun room => ?_, fun room id hhas => ?_, fun id hid =>
      absurd hid (Nat.not_lt_zero id)⟩
    · exact ((follows_run (A := A) (R := relay) cache before).1.log room).capped
    · cases hhas
  have hsound : live.Sound :=
    runFrom_invariant (I := LiveSystem.Sound) (fun _ event h => sound_step h event) events hstart
  have hsocket := hsound.sockets id hid
  exact ⟨hsocket.received.sound, hsocket.received.complete, fun e cursor hlast hroom limit =>
    socketSound_poll hsocket hlast hroom limit⟩

/-! ## Sessions -/

/-- The clock that an event reads. -/
def LiveEvent.nowMs? : LiveEvent → Option Nat
  | arrive call _ _ => some call.env.arrivedMs
  | timer nowMs _ | receives _ nowMs _ _ => some nowMs
  | _ => none

/-- The clock is not behind the time at which the connections were looked over last. -/
def LiveSystem.ClockGoesOn (live : LiveSystem C) (event : LiveEvent) : Prop :=
  ∀ nowMs ∈ event.nowMs?, live.lastReapAt ≤ nowMs

instance (live : LiveSystem C) (event : LiveEvent) : Decidable (live.ClockGoesOn event) :=
  inferInstanceAs (Decidable (∀ nowMs ∈ event.nowMs?, _))

structure LiveSystem.SessionsSound (L : LiveConfig) (live : LiveSystem C) : Prop where
  bounded : ∀ room, (live.sessions room).size ≤ L.maxWsSessions
  recent : ∀ room id session, (live.sessions room).get? id = some session →
    live.lastReapAt < session.lastActive + L.wsIdleTimeoutMs

namespace LiveLemmas

/-- Sessions may have been deleted, and none was set. -/
structure Shrunk (live live' : LiveSystem C) : Prop where
  size : ∀ room, (live'.sessions room).size ≤ (live.sessions room).size
  get? : ∀ room id session, (live'.sessions room).get? id = some session →
    (live.sessions room).get? id = some session
  reaped : live'.lastReapAt = live.lastReapAt

theorem Shrunk.of_eq (hsessions : live'.sessions = live.sessions)
    (hreaped : live'.lastReapAt = live.lastReapAt) : Shrunk live live' := by
  refine ⟨fun room => ?_, fun room id session hget => ?_, hreaped⟩
  · rw [hsessions]
  · rw [hsessions] at hget
    exact hget

theorem Shrunk.trans (h : Shrunk live live') (h' : Shrunk live' live'') : Shrunk live live'' where
  size room := (h'.size room).trans (h.size room)
  get? room id session hget := h.get? room id session (h'.get? room id session hget)
  reaped := h'.reaped.trans h.reaped

/-- The sessions of one room are those of a smaller map. -/
theorem shrunk_update {room : String} {m : OrdMap Nat WsSessionMeta}
    (hsessions : live'.sessions = Function.update live.sessions room m)
    (hsize : m.size ≤ (live.sessions room).size)
    (hget : ∀ id session, m.get? id = some session → (live.sessions room).get? id = some session)
    (hreaped : live'.lastReapAt = live.lastReapAt) : Shrunk live live' := by
  refine ⟨fun other => ?_, fun other id session hother => ?_, hreaped⟩
  · rw [hsessions]
    rcases Decidable.em (other = room) with rfl | hne
    · rw [Function.update_self]
      exact hsize
    · rw [Function.update_of_ne hne]
  · rw [hsessions] at hother
    rcases Decidable.em (other = room) with rfl | hne
    · rw [Function.update_self] at hother
      exact hget id session hother
    · rw [Function.update_of_ne hne] at hother
      exact hother

theorem shrunk_broadcast (live : LiveSystem C) (room : String) (frame : Frame) (throws : Throws) :
    Shrunk live (live.broadcast room frame throws) :=
  shrunk_update rfl (OrdMap.size_filter_le _ _)
    (fun _ _ hget => (OrdMap.get?_filter_eq_some_iff.mp hget).1) rfl

theorem shrunk_deleteSession (live : LiveSystem C) (id : Nat) :
    Shrunk live (live.deleteSession id) :=
  shrunk_update rfl (OrdMap.size_filter_le _ _)
    (fun _ _ hget => (OrdMap.get?_filter_eq_some_iff.mp hget).1) rfl

theorem shrunk_setSocket (live : LiveSystem C) (id : Nat) (socket : Socket) :
    Shrunk live (live.setSocket id socket) := .of_eq rfl rfl

theorem shrunk_sendTo (live : LiveSystem C) (id : Nat) (frame : Frame) (throws : Throws) :
    Shrunk live (live.sendTo id frame throws) := by
  unfold sendTo
  split
  · exact .of_eq rfl rfl
  · exact .of_eq rfl rfl

theorem shrunk_opens (live : LiveSystem C) (id : Nat) (throws : Throws) :
    Shrunk live (live.opens L id throws) := by
  unfold opens
  split
  · dsimp only
    split
    · exact (shrunk_setSocket live id _).trans (shrunk_sendTo _ id _ throws)
    · exact shrunk_setSocket live id _
  · exact .of_eq rfl rfl

theorem shrunk_subscribeSocket (live : LiveSystem C) (room : String) (opened : Bool) (nowMs : Nat)
    (throws : Throws) : Shrunk (live.setSession room live.next ⟨nowMs⟩)
      (live.subscribeSocket L room opened nowMs throws) := by
  have hnext : Shrunk (live.setSession room live.next ⟨nowMs⟩)
      { live.setSession room live.next ⟨nowMs⟩ with next := live.next + 1 } := .of_eq rfl rfl
  unfold subscribeSocket
  dsimp only
  exact (hnext.trans (shrunk_setSocket _ _ _)).trans (shrunk_sendTo _ _ _ throws)

theorem shrunk_advance (live : LiveSystem C) (event : WritingEvent C) (throws : Throws) :
    Shrunk live (live.advance A event throws) := by
  unfold advance
  dsimp only
  split
  · exact .of_eq rfl rfl
  · next envelope _ =>
    have hshrunk := shrunk_broadcast { live with sys := live.sys.step A event } envelope.room
      (.publish envelope.room envelope ((live.sys.step A event).logOf envelope.room).length) throws
    exact ⟨hshrunk.size, hshrunk.get?, hshrunk.reaped⟩

theorem sessionsSound_shrunk (h : live.SessionsSound L) (hshrunk : Shrunk live live') :
    live'.SessionsSound L := by
  refine ⟨fun room => (hshrunk.size room).trans (h.bounded room), fun room id session hget => ?_⟩
  rw [hshrunk.reaped]
  exact h.recent room id session (hshrunk.get? room id session hget)

/-- A session is set at a time that is not before the last look over the connections. -/
theorem sessionsSound_set (h : live.SessionsSound L) {room : String} {id nowMs : Nat}
    (hsize : ((live.sessions room).set id ⟨nowMs⟩).size ≤ L.maxWsSessions)
    (hclock : live.lastReapAt ≤ nowMs) : (live.setSession room id ⟨nowMs⟩).SessionsSound L := by
  have hidle := L.wsIdleTimeoutMs_ge
  refine ⟨fun other => ?_, fun other key session hget => ?_⟩
  · unfold setSession
    dsimp only
    rcases Decidable.em (other = room) with rfl | hne
    · rw [Function.update_self]
      exact hsize
    · rw [Function.update_of_ne hne]
      exact h.bounded other
  · show live.lastReapAt < _
    unfold setSession at hget
    dsimp only at hget
    rcases Decidable.em (other = room) with rfl | hne
    · rw [Function.update_self, OrdMap.get?_set] at hget
      split at hget
      · cases hget
        show live.lastReapAt < nowMs + L.wsIdleTimeoutMs
        omega
      · exact h.recent other key session hget
    · rw [Function.update_of_ne hne] at hget
      exact h.recent other key session hget

theorem sessionsSound_reap (h : live.SessionsSound L) (nowMs : Nat) (throws : Throws) :
    (live.reapDeadConnections L nowMs throws).SessionsSound L := by
  refine ⟨fun room => (OrdMap.size_filter_le _ _).trans (h.bounded room),
    fun room id session hget => ?_⟩
  -- A session that is still there was not idle.
  have hkeeps := (OrdMap.get?_filter_eq_some_iff.mp hget).2
  rw [Bool.and_eq_true, Bool.and_eq_true] at hkeeps
  have hactive := hkeeps.1.2
  unfold isIdle at hactive
  rw [Bool.not_eq_true', decide_eq_false_iff_not] at hactive
  exact Nat.lt_of_not_le hactive

/-- Behind the check of `fetch` the last look over the connections is less than an interval ago. -/
theorem sessionsSound_reapWhenDue (h : live.SessionsSound L) (nowMs : Nat) (throws : Throws)
    (hclock : live.lastReapAt ≤ nowMs) :
    (live.reapWhenDue L nowMs throws).SessionsSound L ∧
      (live.reapWhenDue L nowMs throws).lastReapAt ≤ nowMs ∧
      nowMs < (live.reapWhenDue L nowMs throws).lastReapAt + L.wsPingIntervalMs := by
  have hping := L.wsPingIntervalMs_ge
  unfold reapWhenDue
  split
  · refine ⟨sessionsSound_reap h nowMs throws, Nat.le_refl nowMs, ?_⟩
    show nowMs < nowMs + L.wsPingIntervalMs
    omega
  · next hrecent => exact ⟨h, hclock, Nat.lt_of_not_le hrecent⟩

theorem sessionsSound_receives (h : live.SessionsSound L) (id nowMs : Nat) (data : Option JsonValue)
    (throws : Throws) (hclock : live.lastReapAt ≤ nowMs) :
    (live.receives id nowMs data throws).SessionsSound L := by
  have htouched : (if (live.sessions (live.socket id).room).has id then
      live.setSession (live.socket id).room id ⟨nowMs⟩ else live).SessionsSound L := by
    split
    · next hsession =>
      refine sessionsSound_set h ?_ hclock
      rw [OrdMap.size_eq_length_keys, OrdMap.keys_set_of_has hsession, ← OrdMap.size_eq_length_keys]
      exact h.bounded _
    · exact h
  unfold receives
  dsimp only
  split
  · exact sessionsSound_shrunk htouched (shrunk_sendTo _ id .pong throws)
  · exact htouched

theorem size_of_upgradeRoom {call : HostCall} {room : String}
    (h : upgradeRoom? live.sys.relay (live.seeing L call).request (live.seeing L call).env =
      some room) : (live.sessions room).size < L.maxWsSessions := by
  unfold upgradeRoom? at h
  dsimp only at h
  split at h
  · next hgates =>
    cases h
    exact Nat.lt_of_not_le (of_decide_eq_false hgates.2.2.2.2.1)
  · cases h

/-- A request that arrives: no session is older than the two intervals behind it. -/
theorem sessionsSound_arrive (h : live.SessionsSound L) (call : HostCall) (opened : Bool)
    (throws : Throws) (hclock : live.lastReapAt ≤ call.env.arrivedMs) :
    (live.arrive A L call opened throws).SessionsSound L ∧
      call.env.arrivedMs <
        (live.arrive A L call opened throws).lastReapAt + L.wsPingIntervalMs := by
  obtain ⟨hreaped, hle, hdue⟩ := sessionsSound_reapWhenDue h call.env.arrivedMs throws hclock
  unfold arrive
  dsimp only
  generalize live.reapWhenDue L call.env.arrivedMs throws = reaped at hreaped hle hdue
  have hshrunk := shrunk_advance (A := A) reaped (.arrive (reaped.seeing L call)) throws
  have hserved := sessionsSound_shrunk hreaped hshrunk
  have hcap : ∀ room, upgradeRoom? reaped.sys.relay (reaped.seeing L call).request
      (reaped.seeing L call).env = some room →
      ((reaped.advance A (.arrive (reaped.seeing L call)) throws).sessions room).size <
        L.maxWsSessions := fun room hroom =>
    (hshrunk.size room).trans_lt (size_of_upgradeRoom hroom)
  have hsame := hshrunk.reaped
  generalize reaped.advance A (.arrive (reaped.seeing L call)) throws = served at hserved hcap hsame
  rw [← hsame] at hle hdue
  split
  · exact ⟨hserved, hdue⟩
  · next room hroom =>
    have hset : (served.setSession room served.next ⟨call.env.arrivedMs⟩).SessionsSound L :=
      sessionsSound_set hserved ((OrdMap.size_set_le _ _ _).trans (hcap room hroom)) hle
    have hshrunk := shrunk_subscribeSocket (L := L) served room opened call.env.arrivedMs throws
    refine ⟨sessionsSound_shrunk hset hshrunk, ?_⟩
    show _ < (served.subscribeSocket L room opened call.env.arrivedMs throws).lastReapAt + _
    rw [hshrunk.reaped]
    exact hdue

theorem sessionsSound_step (h : live.SessionsSound L) (event : LiveEvent)
    (hclock : live.ClockGoesOn event) : (live.step A L event).SessionsSound L := by
  cases event with
  | arrive call opened throws =>
    exact (sessionsSound_arrive h call opened throws (hclock _ rfl)).1
  | resume task env throws => exact sessionsSound_shrunk h (shrunk_advance live _ throws)
  | presenceChange room participant status metadata event throws =>
    exact sessionsSound_shrunk h (shrunk_broadcast live room _ throws)
  | reviewChange room prId sender verdict event resolved approveCount denyCount throws =>
    exact sessionsSound_shrunk h (shrunk_broadcast live room _ throws)
  | timer nowMs throws => exact sessionsSound_reap h nowMs throws
  | opens id throws =>
    exact sessionsSound_shrunk h (shrunk_opens live id throws)
  | receives id nowMs data throws =>
    exact sessionsSound_receives h id nowMs data throws (hclock _ rfl)
  | closing id => exact sessionsSound_shrunk h (.of_eq rfl rfl)
  | closes id =>
    have hclosed : Shrunk live (live.setReadyState id .closed) := .of_eq rfl rfl
    exact sessionsSound_shrunk h (hclosed.trans (shrunk_deleteSession _ id))
  | errors id => exact sessionsSound_shrunk h (shrunk_deleteSession live id)

end LiveLemmas

/-- A room has at most as many sessions as its cap. When a request has arrived, every session has
shown a sign of life within the idle timeout and the ping interval before it. -/
theorem sessions_end (A : Archive C) (L : LiveConfig) (sys : WritingSystem C) (startedAt : Nat)
    (events : List LiveEvent)
    (hclock : Along (step A L) ClockGoesOn (LiveSystem.start sys startedAt) events) :
    let live := LiveSystem.after A L sys startedAt events
    (∀ room, (live.sessions room).size ≤ L.maxWsSessions) ∧
    ∀ call opened throws, live.lastReapAt ≤ call.env.arrivedMs → ∀ room id session,
      ((live.step A L (.arrive call opened throws)).sessions room).get? id = some session →
        call.env.arrivedMs < session.lastActive + L.wsIdleTimeoutMs + L.wsPingIntervalMs := by
  intro live
  have hstart : (LiveSystem.start sys startedAt).SessionsSound L :=
    ⟨fun _ => Nat.zero_le _, fun room id session hget => by cases hget⟩
  have hsound : live.SessionsSound L := hclock.invariant
    (fun _ event hgoes h => sessionsSound_step h event hgoes) hstart
  refine ⟨hsound.bounded, fun call opened throws hnow room id session hget => ?_⟩
  obtain ⟨harrived, hdue⟩ := sessionsSound_arrive (A := A) hsound call opened throws hnow
  have hrecent := harrived.recent room id session hget
  omega

end

/-! ## On the toy host -/

def LiveConfig.toy : LiveConfig := ⟨2, 1000, 2000, by decide, by decide, by decide⟩

def toyRelay : Relay Unit := (PeerRelay.toy "relay-a" isValidNodeId_relayA 3 toyHops_pos).toRelay

def toyUpgrade (nowMs : Nat) : HostCall where
  request := { Request.get "/ws" [("room", "main")] with headers := [("upgrade", "websocket")] }
  env := .at nowMs
  uuid := freeText_uuid

def Throws.none : Throws := ⟨fun _ _ => false, fun _ => false⟩

/-- The two sockets overlap in no message: the first one is closing when the second message comes,
and the second one has opened behind the first message. -/
def toyFeed : List LiveEvent := [
  .arrive (toyUpgrade 0) true .none,
  .arrive (toyPublish "m1") false .none,
  .resume 1 ⟨.at 0, freeText_uuid⟩ .none,
  .resume 1 ⟨.at 0, freeText_uuid⟩ .none,
  .resume 1 ⟨.at 0, freeText_uuid⟩ .none,
  .arrive (toyUpgrade 10) false .none,
  .opens 1 .none,
  .closing 0,
  .arrive (toyPublish "m2") false .none,
  .resume 3 ⟨.at 0, freeText_uuid⟩ .none,
  .resume 3 ⟨.at 0, freeText_uuid⟩ .none,
  .resume 3 ⟨.at 0, freeText_uuid⟩ .none]

set_option maxRecDepth 2000 in
/-- The first client polls behind the cursor of its last message. -/
theorem feed_hands_over_toy :
    let live := LiveSystem.after .toy .toy (WritingSystem.after .toy toyRelay () []) 0 toyFeed
    let accepted := fun id => (live.sys.historyOf (live.socket id).room).drop (live.socket id).since
    (live.socket 0).published.map (fun message => (message.1.id, message.2)) = [("m1", 1)] ∧
    (live.socket 1).published.map (fun message => (message.1.id, message.2)) = [("m2", 2)] ∧
    (live.socket 1).published.map Prod.fst = accepted 1 ∧
    pollPage (live.sys.logOf (live.socket 0).room) 1 100 =
      ((accepted 0).drop (live.socket 0).published.length).take 100 := by
  intro live accepted
  obtain ⟨-, -, hpoll⟩ := feed_hands_over .toy .toy toyRelay () [] 0 toyFeed 0 (by decide +kernel)
  obtain ⟨-, hall, -⟩ := feed_hands_over .toy .toy toyRelay () [] 0 toyFeed 1 (by decide +kernel)
  refine ⟨by decide +kernel, by decide +kernel, hall (by decide +kernel), ?_⟩
  exact hpoll ⟨"main", "m1", "alice", "notify", .null, none⟩ 1 (by decide +kernel)
    (by decide +kernel) 100

set_option maxRecDepth 2000 in
/-- The room is full, and an hour later no session is left of those that were silent. -/
theorem sessions_end_toy :
    let live := LiveSystem.after .toy .toy (WritingSystem.after .toy toyRelay () []) 0 toyFeed
    (live.sessions "main").size = 2 ∧
    (∀ room, (live.sessions room).size ≤ LiveConfig.toy.maxWsSessions) ∧
    ∀ room id session,
      ((live.step .toy .toy (.arrive (toyUpgrade 3600000) true .none)).sessions room).get? id =
          some session →
        (toyUpgrade 3600000).env.arrivedMs <
          session.lastActive + LiveConfig.toy.wsIdleTimeoutMs + LiveConfig.toy.wsPingIntervalMs := by
  obtain ⟨hbounded, hrecent⟩ := sessions_end .toy .toy (WritingSystem.after .toy toyRelay () []) 0
    toyFeed (by decide +kernel)
  have hclock : (LiveSystem.after .toy .toy (WritingSystem.after .toy toyRelay () []) 0
      toyFeed).lastReapAt ≤ (toyUpgrade 3600000).env.arrivedMs := by decide +kernel
  exact ⟨by decide +kernel, hbounded, hrecent (toyUpgrade 3600000) true .none hclock⟩

end BitRelay
