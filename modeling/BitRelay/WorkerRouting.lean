import BitRelay.Service.Changes
import BitRelay.Worker

/-!
# Reading back through the worker

A poll for a room goes to the object of that name. A write goes to the object the
worker picks, and the service inside writes into the log of the room it finds by
its own rules.

Results:
1. `written_at`: a request writes into the object `writeTarget` only.
2. `writeTarget_eq_iff`: that is the object of the written room if and only if the
   request leads there (`LeadsTo`).
3. `read_your_writes_iff`: an accepted message is read back, as long as it is not
   evicted, if and only if the request leads to its room, or the object of the room
   held its id before.
-/

namespace BitRelay

section
variable {C : Type} (W : Worker C)

/-- The room log has a message with this id. -/
def HoldsId (s : ServiceState C) (room id : String) : Prop :=
  ∃ e ∈ (s.roomOf room).messages, e.id = id

instance (s : ServiceState C) (room id : String) : Decidable (HoldsId s room id) :=
  inferInstanceAs (Decidable (∃ e ∈ _, _))

/-- The worker answers the write with a success, and the write brought a message with this id
into a log of this room. A batch that overflows a log with its own entries evicts them itself. -/
structure Accepts (w : WorkerState C) (request : Request) (env : WorkerEnv) (room id : String) :
    Prop where
  post : request.method = "POST"
  path : request.pathname ∈ ["/api/v1/publish", "/api/v1/trigger/callback",
    "/api/v1/cache/exchange/push", "/api/v1/github/webhook"]
  answered : (W.fetch request env w).1.status = 200
  written : ∃ name, ¬ HoldsId (w name) room id ∧ HoldsId ((W.fetch request env w).2 name) room id

/-- A poll of the room from its start, with the tokens that its object asks for. -/
structure Polls (poll : Request) (room : String) : Prop where
  method : poll.method = "GET"
  path : poll.pathname = "/api/v1/poll"
  named : poll.paramTrim "room" = room
  valid : isValidRoomName room = true
  start : normalizeAfter (poll.param "after") 0 = 0
  authorized : checkAuth (W.object room) poll = none
  roomToken : checkRoomToken (W.object room) poll room = none

/-- The log of a room, where its polls read it. -/
def polledLog (w : WorkerState C) (room : String) : List Envelope := ((w room).roomOf room).messages

/-- The limit of the poll is not below the length of the log. -/
def CoversLog (poll : Request) (room : String) (w : WorkerState C) : Prop :=
  (polledLog w room).length ≤ normalizeLimit (poll.param "limit") 100

instance (poll : Request) (room : String) (w : WorkerState C) :
    Decidable (CoversLog poll room w) := inferInstanceAs (Decidable (_ ≤ _))

/-- The response lists an envelope with this id. -/
def ReturnsId (response : Response) (id : String) : Prop :=
  ∃ item ∈ (response.body.arrField? "envelopes").getD [], item.get? "id" = some (.str id)

/-- Whatever comes next, the poll returns the id, as long as no message of the room was evicted. -/
def ReadsBack (w : WorkerState C) (poll : Request) (room id : String) : Prop :=
  ∀ (later : List Worker.Arrival) (env : WorkerEnv),
    polledLog w room <+: polledLog (W.afterArrivals w later) room →
    CoversLog poll room (W.afterArrivals w later) →
    ReturnsId (W.fetch poll env (W.afterArrivals w later)).1 id

/-- The request brings the worker to the object of this room: by the room of its query, or
without one by the entries of a push, all well formed, or by the body of a callback. The rest goes
to the default room. -/
def LeadsTo (request : Request) (room : String) : Prop :=
  if request.paramTrim "room" ≠ "" then request.paramTrim "room" = room
  else if request.pathname = "/api/v1/trigger/callback" then True
  else if request.pathname = "/api/v1/cache/exchange/push" then
    room = DEFAULT_ROOM ∨ ∀ parsed entries, request.body.json = some parsed →
      parsed.arrField? "entries" = some entries →
      ∀ e ∈ entries, e.fields? ≠ none ∧ isValidRoomName (trim (e.strField "room")) = true
  else room = DEFAULT_ROOM

/-- The object that gets what a request writes into a room. -/
def writeTarget (request : Request) (room : String) : String :=
  if Worker.routesByEntries request = true then
    match pushGroups request.body with
    | none => DEFAULT_ROOM
    | some _ => room
  else trim (resolveRelayRouteRoom request)

/-! ## The poll -/

namespace WorkerLemmas

variable {W}

/-- A poll is answered by the object of its room. -/
theorem fetch_poll {poll : Request} {room : String} (h : Polls W poll room) (env : WorkerEnv)
    (w : WorkerState C) :
    (W.fetch poll env w).1 = ⟨200, pollFromRoom ((w room).roomOf room) room 0
      (normalizeLimit (poll.param "limit") 100)⟩ := by
  obtain ⟨hmethod, hpath, hroom, hvalid, hstart, hauth, htoken⟩ := h
  obtain ⟨htrimmed, hne⟩ := trimmed_of_isValidRoomName hvalid
  have hresolve : trim (resolveRelayRouteRoom poll) = room := by
    unfold resolveRelayRouteRoom
    simp only [hroom]
    rw [if_pos hne]
    exact htrimmed
  have hnormal : normalizeRoom (poll.param "room") = room := by
    unfold normalizeRoom
    unfold Request.paramTrim at hroom
    cases hparam : poll.param "room" with
    | none =>
      rw [hparam] at hroom
      exact absurd hroom.symm hne
    | some raw =>
      rw [hparam] at hroom
      exact hroom
  have hfetch : W.fetch poll env w = W.forward room poll env w := by
    have hentries : Worker.routesByEntries poll = false := by
      unfold Worker.routesByEntries
      rw [hpath]
      rfl
    unfold Worker.fetch
    simp only [hresolve, hentries]
    rw [hpath, if_neg (by decide), if_neg (by decide), if_neg (by decide), if_neg (by decide),
      if_neg (by rw [hvalid]; decide)]
  have hendpoint : Endpoint.ofPath poll.pathname = some .poll := by
    rw [hpath]
    rfl
  have hauthorized : (Proc.failWith (checkAuth (W.object room) poll) : Handler C Unit).run
      (w room) = (.ok (), w room) := by
    rw [hauth]
    rfl
  have hget : (requireMethod poll "GET" : Handler C Unit).run (w room) = (.ok (), w room) := by
    unfold requireMethod
    rw [Proc.run_failIf, if_neg (not_not_intro hmethod)]
  have hallowed : (requireRoom (W.object room) poll).run (w room) = (.ok room, w room) := by
    have hname : (Proc.failIf (isValidRoomName (normalizeRoom (poll.param "room")) = false)
        invalidRoomResponse : Handler C Unit).run (w room) = (.ok (), w room) := by
      rw [Proc.run_failIf, if_neg (by rw [hnormal, hvalid]; decide)]
    have hgate : (Proc.failWith (checkRoomToken (W.object room) poll
        (normalizeRoom (poll.param "room"))) : Handler C Unit).run (w room) = (.ok (), w room) := by
      rw [hnormal, htoken]
      rfl
    unfold requireRoom
    rw [Proc.run_bind_of_ok hname, Proc.run_bind_of_ok hgate, Proc.run_pure, hnormal]
  rw [hfetch]
  change ((BitRelay.fetch (W.object room) poll (env room)).serve (w room)).1 = _
  rw [serve_response]
  unfold BitRelay.fetch
  rw [if_neg (by rw [hpath]; decide), if_neg (by rw [hpath]; decide)]
  simp only [hendpoint, Endpoint.guarded, Endpoint.handle, handlePoll, hstart]
  rw [Proc.run_bind_of_ok hauthorized, Proc.run_bind_of_ok hget, Proc.run_bind_of_ok hallowed]
  rfl

/-- A poll whose limit covers the log returns the ids that the log holds. -/
theorem returnsId_iff {poll : Request} {room id : String} (h : Polls W poll room)
    (env : WorkerEnv) {w : WorkerState C} (hlimit : CoversLog poll room w) :
    ReturnsId (W.fetch poll env w).1 id ↔ HoldsId (w room) room id := by
  have hpage : pollPage ((w room).roomOf room).messages 0
      (normalizeLimit (poll.param "limit") 100) = polledLog w room := by
    unfold pollPage
    rw [List.drop_zero]
    exact List.take_of_length_le hlimit
  have hitems : ((W.fetch poll env w).1.body.arrField? "envelopes").getD [] =
      (polledLog w room).map fun item => JsonValue.obj (sanitizeEnvelope item) := by
    rw [fetch_poll h env w, ← hpage]
    rfl
  unfold ReturnsId
  rw [hitems]
  constructor
  · rintro ⟨item, hitem, hid⟩
    obtain ⟨e, he, rfl⟩ := List.mem_map.mp hitem
    have hid : some (JsonValue.str e.id) = some (.str id) := hid
    exact ⟨e, he, JsonValue.str.inj (Option.some.inj hid)⟩
  · rintro ⟨e, he, rfl⟩
    exact ⟨_, List.mem_map.mpr ⟨e, he, rfl⟩, rfl⟩

/-! ## The groups of a push -/

/-- The groups hold their own entries. -/
theorem groupEntries_rooms {entries : List JsonValue}
    {grouped grouped' : OrdMap String (List JsonValue)}
    (h : groupEntries entries grouped = some grouped')
    (hg : ∀ g ∈ grouped.entries, ∀ e ∈ g.2, trim (e.strField "room") = g.1) :
    ∀ g ∈ grouped'.entries, ∀ e ∈ g.2, trim (e.strField "room") = g.1 := by
  induction entries generalizing grouped with
  | nil =>
    cases h
    exact hg
  | cons entry rest ih =>
    unfold groupEntries at h
    split at h
    · cases h
    simp only at h
    split at h
    · cases h
    refine ih h fun g hmem e he => ?_
    rcases OrdMap.mem_entries_set.mp hmem with rfl | ⟨-, hold⟩
    · rcases List.mem_append.mp he with he | he
      · cases hget : grouped.get? (trim (entry.strField "room")) with
        | none =>
          rw [OrdMap.getD, hget] at he
          cases he
        | some es =>
          rw [OrdMap.getD, hget] at he
          exact hg _ (OrdMap.get?_eq_some_iff.mp hget) e he
      · rw [List.mem_singleton.mp he]
    · exact hg g hold e he

/-- Every entry has a group. -/
theorem groupEntries_complete {entries : List JsonValue}
    {grouped grouped' : OrdMap String (List JsonValue)}
    (h : groupEntries entries grouped = some grouped') {room : String}
    (hroom : (∃ g ∈ grouped.entries, g.1 = room) ∨
      ∃ e ∈ entries, trim (e.strField "room") = room) :
    ∃ g ∈ grouped'.entries, g.1 = room := by
  induction entries generalizing grouped with
  | nil =>
    cases h
    rcases hroom with hold | ⟨e, he, -⟩
    · exact hold
    · cases he
  | cons entry rest ih =>
    unfold groupEntries at h
    split at h
    · cases h
    simp only at h
    split at h
    · cases h
    refine ih h ?_
    by_cases hentry : trim (entry.strField "room") = room
    · exact .inl ⟨_, OrdMap.mem_entries_set.mpr (.inl rfl), hentry⟩
    · rcases hroom with ⟨g, hg, hname⟩ | ⟨e, he, hname⟩
      · refine .inl ⟨g, OrdMap.mem_entries_set.mpr (.inr ⟨?_, hg⟩), hname⟩
        rw [hname]
        exact fun heq => hentry heq.symm
      · rcases List.mem_cons.mp he with rfl | he
        · exact absurd hname hentry
        · exact .inr ⟨e, he, hname⟩

/-- The entries of a body that is pushed by groups. -/
theorem pushGroups_cases {body : Body} {groups : List (String × List JsonValue)}
    (h : pushGroups body = some groups) :
    (∀ g ∈ groups, ∀ e ∈ g.2, trim (e.strField "room") = g.1) ∧
      ∀ parsed entries, body.json = some parsed → parsed.arrField? "entries" = some entries →
        ∀ e ∈ entries, ∃ g ∈ groups, g.1 = trim (e.strField "room") := by
  unfold pushGroups at h
  split at h
  · cases h
  · next grouped hgrouped =>
    split at h
    · cases h
    cases h
    obtain ⟨parsed, hparsed, hgrouped⟩ := Option.bind_eq_some_iff.mp hgrouped
    obtain ⟨entries, hentries, hgrouped⟩ := Option.bind_eq_some_iff.mp hgrouped
    refine ⟨groupEntries_rooms hgrouped nofun, ?_⟩
    intro parsed' entries' hparsed' hentries' e he
    rw [hparsed] at hparsed'
    cases hparsed'
    rw [hentries] at hentries'
    cases hentries'
    exact groupEntries_complete hgrouped (.inr ⟨e, he, rfl⟩)

/-! ## Where a push writes -/

/-- The room of an incoming entry is the one it names. -/
theorem room_of_parse {value : JsonValue} {defaultMaxHops : Nat} {incoming : IncomingExchangeEntry}
    (h : parseIncomingCacheExchangeEntry value defaultMaxHops = .ok incoming) :
    trim (value.strField "room") = incoming.room := by
  obtain ⟨raw, hraw, htrim, -⟩ :=
    asString_eq_some_iff.mp (parseIncomingCacheExchangeEntry_ok_iff.mp h).room
  unfold JsonValue.strField
  rw [hraw]
  exact htrim

/-- A message that a request brings into a log was admitted. -/
theorem admission_of_new {R : Relay C} {request : Request} {env : Env} {s : ServiceState C}
    {room : String} {e : Envelope} (hold : e ∉ (s.roomOf room).messages)
    (hnew : e ∈ ((serve R request env s).2.roomOf room).messages) :
    ∃ s1, Admission R request s1 e ∧ e.room = room := by
  have hchain := leads_serve (entitlement_grants R request) env s
  rcases admission_of_chain hchain hnew with h | ⟨s1, hadm, hroom, -⟩
  · exact absurd h hold
  · exact ⟨s1, hadm, hroom⟩

/-- A message that a push brings into a log is an entry of its body for this room. -/
theorem entry_of_pushed {R : Relay C} {request : Request} {env : Env} {s : ServiceState C}
    {room : String} {e : Envelope} (hpath : request.pathname = "/api/v1/cache/exchange/push")
    (hold : e ∉ (s.roomOf room).messages)
    (hnew : e ∈ ((serve R request env s).2.roomOf room).messages) :
    ∃ parsed entries value, request.body.json = some parsed ∧
      parsed.arrField? "entries" = some entries ∧ value ∈ entries ∧
      trim (value.strField "room") = room := by
  obtain ⟨s1, hadm, hroom⟩ := admission_of_new hold hnew
  cases hadm with
  | pushed parsed value entries incoming _ _ hbody hentries hmem hincoming _ henvelope =>
    have hname : incoming.room = room := by
      rw [← hroom, henvelope]
      rfl
    exact ⟨parsed, entries, value, hbody, hentries, hmem, (room_of_parse hincoming).trans hname⟩
  | signed _ hp => exact absurd (hpath.symm.trans hp) (by decide)
  | unsigned hp => exact absurd (hpath.symm.trans hp) (by decide)
  | callback _ _ _ hp => exact absurd (hpath.symm.trans hp) (by decide)
  | webhook hp =>
    rcases hp with hp | hp <;> exact absurd (hpath.symm.trans hp) (by decide)

/-- The message of a callback without a room in its query is for the room that the worker reads
in the body. -/
theorem room_of_callback {R : Relay C} {request : Request} {env : Env} {s : ServiceState C}
    {room : String} {e : Envelope} (hpath : request.pathname = "/api/v1/trigger/callback")
    (hpost : request.method = "POST") (hquery : request.paramTrim "room" = "")
    (hold : e ∉ (s.roomOf room).messages)
    (hnew : e ∈ ((serve R request env s).2.roomOf room).messages) :
    trim (resolveRelayRouteRoom request) = room := by
  obtain ⟨s1, hadm, hroom⟩ := admission_of_new hold hnew
  cases hadm with
  | callback parsed env' input _ _ hbody hinput henvelope =>
    obtain ⟨href, hvalid, hnamed⟩ := parseCallback_ok R hinput
    rw [henvelope] at hroom
    cases parsed with
    | obj fields =>
      have hresolve : resolveRelayRouteRoom request = room := by
        rw [← hroom, ← hnamed]
        unfold resolveRelayRouteRoom
        simp only [hquery, ne_eq, not_true_eq_false, if_false, hpath, hpost, and_self, if_true,
          hbody, if_pos href]
      rw [hresolve, ← hroom]
      exact (trimmed_of_isValidRoomName hvalid).1
    | null | bool _ | num _ | str _ | arr _ => exact absurd rfl href
  | signed _ hp => exact absurd (hpath.symm.trans hp) (by decide)
  | unsigned hp => exact absurd (hpath.symm.trans hp) (by decide)
  | pushed _ _ _ _ hp => exact absurd (hpath.symm.trans hp) (by decide)
  | webhook hp =>
    rcases hp with hp | hp <;> exact absurd (hpath.symm.trans hp) (by decide)

theorem forward_state (target : String) (request : Request) (env : WorkerEnv) (w : WorkerState C) :
    (W.forward target request env w).2 =
      Function.update w target (serve (W.object target) request (env target) (w target)).2 := rfl

theorem forward_frame {target room : String} (h : target ≠ room) (request : Request)
    (env : WorkerEnv) (w : WorkerState C) : (W.forward target request env w).2 room = w room := by
  rw [forward_state, Function.update_of_ne (Ne.symm h)]

/-- The worker writes into the object it forwards to. -/
theorem forward_written {request : Request} {env : WorkerEnv} {w : WorkerState C}
    {name target room id : String} (hold : ¬ HoldsId (w name) room id)
    (hnew : HoldsId ((W.forward target request env w).2 name) room id) :
    name = target ∧ HoldsId (serve (W.object target) request (env target) (w target)).2 room id := by
  rw [forward_state] at hnew
  by_cases hname : name = target
  · subst hname
    rw [Function.update_self] at hnew
    exact ⟨rfl, hnew⟩
  · rw [Function.update_of_ne hname] at hnew
    exact absurd hnew hold

/-- A push whose entries are all for one room writes into that room. -/
theorem forward_push {request : Request} {env : WorkerEnv} {w : WorkerState C}
    {name target room id : String} (hpath : request.pathname = "/api/v1/cache/exchange/push")
    (hrooms : ∀ parsed entries, request.body.json = some parsed →
      parsed.arrField? "entries" = some entries →
      ∀ e ∈ entries, trim (e.strField "room") = target)
    (hold : ¬ HoldsId (w name) room id)
    (hnew : HoldsId ((W.forward target request env w).2 name) room id) : name = room := by
  obtain ⟨rfl, e, he, hid⟩ := forward_written hold hnew
  have hfresh : e ∉ ((w name).roomOf room).messages := fun hmem => hold ⟨e, hmem, hid⟩
  obtain ⟨parsed, entries, value, hbody, hentries, hmem, hroom⟩ := entry_of_pushed hpath hfresh he
  exact (hrooms parsed entries hbody hentries value hmem).symm.trans hroom

/-- A push by groups writes every message into the object of its room. -/
theorem forwardGroups_push {request : Request} {env : WorkerEnv}
    (hpath : request.pathname = "/api/v1/cache/exchange/push")
    {groups : List (String × List JsonValue)}
    (hrooms : ∀ g ∈ groups, ∀ e ∈ g.2, trim (e.strField "room") = g.1) {totals : PushTotals}
    {w : WorkerState C} {name room id : String} (hold : ¬ HoldsId (w name) room id)
    (hnew : HoldsId ((W.forwardGroups request env groups totals w).2 name) room id) :
    name = room := by
  induction groups generalizing totals w with
  | nil => exact absurd hnew hold
  | cons g rest ih =>
    obtain ⟨target, entries⟩ := g
    unfold Worker.forwardGroups at hnew
    simp only at hnew
    by_cases hfirst : HoldsId ((W.forward target { request with
        query := setParam "room" target request.query
        body := W.relay.platform.stringify (.obj [("entries", .arr entries)]) } env w).2 name)
        room id
    · refine forward_push (by exact hpath) ?_ hold hfirst
      intro parsed entries' hbody hentries e he
      cases hbody
      cases hentries
      rw [JsonValue.normalizeItems_eq_map] at he
      obtain ⟨v, hv, rfl⟩ := List.mem_map.mp he
      rw [JsonValue.strField_normalize]
      exact hrooms _ List.mem_cons_self v hv
    · split at hnew
      · exact absurd hnew hfirst
      · exact ih (fun g hg => hrooms g (List.mem_cons_of_mem _ hg)) hfirst hnew

/-- The worker answers on its own, routes a push by its entries, or forwards to one object. -/
theorem fetch_cases (request : Request) (env : WorkerEnv) (w : WorkerState C) :
    (W.fetch request env w).2 = w ∨
    (Worker.routesByEntries request = true ∧
      W.fetch request env w = W.routePush request env w) ∨
    (Worker.routesByEntries request = false ∧
      isValidRoomName (trim (resolveRelayRouteRoom request)) = true ∧
      W.fetch request env w = W.forward (trim (resolveRelayRouteRoom request)) request env w) := by
  unfold Worker.fetch
  by_cases helse : isElsewhere request.pathname = true
  · simp only [if_pos helse, true_or]
  simp only [if_neg helse]
  by_cases hhealth : request.pathname = "/health"
  · simp only [if_pos hhealth, true_or]
  simp only [if_neg hhealth]
  by_cases hrelay : isRelayRoute request.pathname = false
  · simp only [if_pos hrelay, true_or]
  simp only [if_neg hrelay]
  by_cases hentries : Worker.routesByEntries request = true
  · refine .inr (.inl ⟨hentries, ?_⟩)
    simp only [if_pos hentries]
  simp only [if_neg hentries]
  by_cases hvalid : isValidRoomName (trim (resolveRelayRouteRoom request)) = false
  · simp only [if_pos hvalid, true_or]
  · refine .inr (.inr ⟨Bool.eq_false_iff.mpr hentries, Bool.of_not_eq_false hvalid, ?_⟩)
    simp only [if_neg hvalid]

theorem writeTarget_of_entries {request : Request}
    (h : Worker.routesByEntries request = true) (room : String) :
    writeTarget request room =
      match pushGroups request.body with
      | none => DEFAULT_ROOM
      | some _ => room := if_pos h

theorem writeTarget_of_query {request : Request}
    (h : Worker.routesByEntries request = false) (room : String) :
    writeTarget request room = trim (resolveRelayRouteRoom request) := if_neg (by rw [h]; decide)

/-- A request leaves every object alone that is not its target. -/
theorem fetch_frame {request : Request} {env : WorkerEnv} {w : WorkerState C} {room : String}
    (h : writeTarget request room ≠ room) : (W.fetch request env w).2 room = w room := by
  rcases fetch_cases (W := W) request env w with hsame | ⟨hentries, hfetch⟩ | ⟨hentries, -, hfetch⟩
  · rw [hsame]
  · rw [writeTarget_of_entries hentries] at h
    rw [hfetch]
    unfold Worker.routePush
    cases hgroups : pushGroups request.body with
    | none =>
      simp only [hgroups] at h ⊢
      exact forward_frame h request env w
    | some groups =>
      simp only [hgroups] at h
      exact absurd rfl h
  · rw [writeTarget_of_query hentries] at h
    rw [hfetch]
    exact forward_frame h request env w

/-- A push routed by its entries writes into the default room's object as it is, or every message
into the object of its room. -/
theorem routePush_written {request : Request} {env : WorkerEnv} {w : WorkerState C}
    {name room id : String} (hentries : Worker.routesByEntries request = true)
    (hold : ¬ HoldsId (w name) room id)
    (hnew : HoldsId ((W.routePush request env w).2 name) room id) :
    name = writeTarget request room := by
  rw [writeTarget_of_entries hentries]
  have hpath : request.pathname = "/api/v1/cache/exchange/push" := by
    simp only [Worker.routesByEntries, Bool.and_eq_true, beq_iff_eq] at hentries
    exact hentries.1.1
  unfold Worker.routePush at hnew
  split at hnew
  · next hgroups =>
    simp only [hgroups]
    exact (forward_written hold hnew).1
  · next target entries hgroups =>
    simp only [hgroups]
    refine forward_push (by exact hpath) ?_ hold hnew
    intro parsed entries' hparsed hentries' e he
    obtain ⟨g, hg, hname⟩ := (pushGroups_cases hgroups).2 parsed entries' hparsed hentries' e he
    rw [List.mem_singleton.mp hg] at hname
    exact hname.symm
  · next groups hmany hgroups =>
    simp only [hgroups]
    exact forwardGroups_push hpath (pushGroups_cases hgroups).1 hold hnew

/-- A request writes into the object of its target only. -/
theorem written_at {request : Request} {env : WorkerEnv} {w : WorkerState C}
    {name room id : String} (hold : ¬ HoldsId (w name) room id)
    (hnew : HoldsId ((W.fetch request env w).2 name) room id) :
    name = writeTarget request room := by
  rcases fetch_cases (W := W) request env w with hsame | ⟨hentries, hfetch⟩ | ⟨hentries, -, hfetch⟩
  · rw [hsame] at hnew
    exact absurd hnew hold
  · rw [hfetch] at hnew
    exact routePush_written hentries hold hnew
  · rw [hfetch] at hnew
    rw [writeTarget_of_query hentries]
    exact (forward_written hold hnew).1

/-! ## The condition on the request -/

/-- The entries of a push are grouped when all of them are objects with a valid room name. -/
theorem groupEntries_isSome {entries : List JsonValue} (grouped : OrdMap String (List JsonValue)) :
    (groupEntries entries grouped).isSome = true ↔
      ∀ e ∈ entries, e.fields? ≠ none ∧ isValidRoomName (trim (e.strField "room")) = true := by
  induction entries generalizing grouped with
  | nil => simp [groupEntries]
  | cons entry rest ih =>
    unfold groupEntries
    rw [List.forall_mem_cons]
    by_cases hobject : entry.fields?.isNone = true
    · rw [if_pos hobject]
      refine iff_of_false nofun fun h => h.1.1 (Option.isNone_iff_eq_none.mp hobject)
    rw [if_neg hobject]
    by_cases hroom : isValidRoomName (trim (entry.strField "room")) = false
    · simp only [if_pos hroom]
      exact iff_of_false nofun fun h => by rw [h.1.2] at hroom; cases hroom
    · simp only [if_neg hroom]
      rw [ih]
      refine ⟨fun h => ⟨⟨?_, ?_⟩, h⟩, fun h => h.2⟩
      · exact fun hnone => hobject (Option.isNone_iff_eq_none.mpr hnone)
      · exact eq_true_of_ne_false hroom

/-- A group is never lost. -/
theorem groupEntries_ne_nil {entries : List JsonValue}
    {grouped grouped' : OrdMap String (List JsonValue)}
    (h : groupEntries entries grouped = some grouped') (hne : entries ≠ []) :
    grouped'.entries ≠ [] := by
  obtain ⟨e, rest, rfl⟩ := List.exists_cons_of_ne_nil hne
  obtain ⟨g, hg, -⟩ := groupEntries_complete h (.inr ⟨e, List.mem_cons_self, rfl⟩)
  exact List.ne_nil_of_mem hg

/-- A push is grouped when its entries are well formed and not empty. -/
theorem pushGroups_isSome {body : Body} {parsed : JsonValue} {entries : List JsonValue}
    (hbody : body.json = some parsed) (hentries : parsed.arrField? "entries" = some entries)
    (hne : entries ≠ []) :
    (pushGroups body).isSome = true ↔
      ∀ e ∈ entries, e.fields? ≠ none ∧ isValidRoomName (trim (e.strField "room")) = true := by
  have hparse : body.json.bind parseCacheExchangeEntriesByRoom = groupEntries entries ∅ := by
    rw [hbody, Option.bind_some]
    unfold parseCacheExchangeEntriesByRoom
    rw [hentries, Option.bind_some]
  unfold pushGroups
  rw [hparse, ← groupEntries_isSome ∅]
  cases hgrouped : groupEntries entries ∅ with
  | none => exact Iff.rfl
  | some grouped =>
    simp only [if_neg (groupEntries_ne_nil hgrouped hne)]
    exact iff_of_true rfl rfl

/-- The target of an accepted write is the object of its room if and only if the request leads
there. -/
theorem writeTarget_eq_iff {w : WorkerState C} {request : Request} {env : WorkerEnv}
    {room id : String} (h : Accepts W w request env room id) :
    writeTarget request room = room ↔ LeadsTo request room := by
  obtain ⟨name, hold, hnew⟩ := h.written
  unfold LeadsTo
  by_cases hquery : request.paramTrim "room" ≠ ""
  · have hentries : Worker.routesByEntries request = false := by
      unfold Worker.routesByEntries
      rw [beq_eq_false_iff_ne.mpr hquery, Bool.and_false]
    have hresolve : resolveRelayRouteRoom request = request.paramTrim "room" := by
      unfold resolveRelayRouteRoom
      simp only [if_pos hquery]
    rw [if_pos hquery, writeTarget_of_query hentries, hresolve]
    unfold Request.paramTrim
    rw [trim_trim]
  rw [if_neg hquery]
  rw [not_not] at hquery
  by_cases hcallback : request.pathname = "/api/v1/trigger/callback"
  · rw [if_pos hcallback]
    have hentries : Worker.routesByEntries request = false := by
      unfold Worker.routesByEntries
      rw [hcallback]
      rfl
    rw [writeTarget_of_query hentries]
    refine iff_of_true ?_ trivial
    rcases fetch_cases (W := W) request env w with hsame | ⟨hpush, -⟩ | ⟨-, -, hfetch⟩
    · rw [hsame] at hnew
      exact absurd hnew hold
    · rw [hentries] at hpush
      cases hpush
    · rw [hfetch] at hnew
      obtain ⟨rfl, e, he, hid⟩ := forward_written hold hnew
      exact room_of_callback hcallback h.post hquery (fun hmem => hold ⟨e, hmem, hid⟩) he
  rw [if_neg hcallback]
  by_cases hpath : request.pathname = "/api/v1/cache/exchange/push"
  · rw [if_pos hpath]
    have hentries : Worker.routesByEntries request = true := by
      unfold Worker.routesByEntries
      rw [hpath, h.post, hquery]
      rfl
    rw [writeTarget_of_entries hentries]
    cases hgroups : pushGroups request.body with
    | none =>
      refine ⟨fun hmain => .inl hmain.symm, ?_⟩
      rintro (hmain | hvalid)
      · exact hmain.symm
      · rcases fetch_cases (W := W) request env w with hsame | ⟨-, hfetch⟩ | ⟨hother, -⟩
        · rw [hsame] at hnew
          exact absurd hnew hold
        · rw [hfetch] at hnew
          simp only [Worker.routePush, hgroups] at hnew
          obtain ⟨rfl, e, he, hid⟩ := forward_written hold hnew
          obtain ⟨parsed, entries, value, hbody, hlist, hmem, -⟩ :=
            entry_of_pushed hpath (fun hmem => hold ⟨e, hmem, hid⟩) he
          have hsome := (pushGroups_isSome hbody hlist (List.ne_nil_of_mem hmem)).mpr
            (hvalid parsed entries hbody hlist)
          rw [hgroups] at hsome
          cases hsome
        · rw [hentries] at hother
          cases hother
    | some groups =>
      refine iff_of_true rfl (.inr fun parsed entries hbody hlist e he => ?_)
      refine (pushGroups_isSome hbody hlist (List.ne_nil_of_mem he)).mp ?_ e he
      rw [hgroups]
      rfl
  · rw [if_neg hpath]
    have hentries : Worker.routesByEntries request = false := by
      unfold Worker.routesByEntries
      rw [beq_eq_false_iff_ne.mpr hpath, Bool.false_and, Bool.false_and]
    have hresolve : resolveRelayRouteRoom request = DEFAULT_ROOM := by
      unfold resolveRelayRouteRoom
      simp only [hquery, ne_eq, not_true_eq_false, if_false, hcallback, false_and]
    rw [writeTarget_of_query hentries, hresolve, show trim DEFAULT_ROOM = DEFAULT_ROOM by decide]
    exact eq_comm

end WorkerLemmas

open WorkerLemmas

/-- An accepted message is read back if and only if the worker sent the write to the object of
the message's room, or that object held the id before. -/
theorem read_your_writes_iff {w : WorkerState C} {request poll : Request} {env : WorkerEnv}
    {room id : String} (haccepts : Accepts W w request env room id) (hpolls : Polls W poll room)
    (hcovers : CoversLog poll room (W.fetch request env w).2) :
    ReadsBack W (W.fetch request env w).2 poll room id ↔
      LeadsTo request room ∨ HoldsId (w room) room id := by
  rw [← writeTarget_eq_iff haccepts]
  obtain ⟨name, hold, hnew⟩ := haccepts.written
  have hname := written_at hold hnew
  constructor
  · intro h
    have hreturns := h [] env List.prefix_rfl hcovers
    have hholds : HoldsId ((W.fetch request env w).2 room) room id :=
      (returnsId_iff hpolls env hcovers).mp hreturns
    by_cases hbefore : HoldsId (w room) room id
    · exact .inr hbefore
    · exact .inl (written_at hbefore hholds).symm
  · intro h later env' hstart hlimit
    refine (returnsId_iff hpolls env' hlimit).mpr ?_
    have hholds : HoldsId ((W.fetch request env w).2 room) room id := by
      by_cases htarget : writeTarget request room = room
      · rw [htarget] at hname
        exact hname ▸ hnew
      · rw [fetch_frame htarget]
        exact h.resolve_left htarget
    obtain ⟨e, he, hid⟩ := hholds
    exact ⟨e, hstart.subset he, hid⟩

end

/-! ## A callback that is read back and a delivery that is not -/

open WorkerLemmas

/-- A worker on the toy host whose webhook signatures are all one digit. -/
def webhookWorker : Worker Unit where
  relay := ⟨{ RelayConfig.default with githubWebhookSecret := "secret" },
    { Platform.toy with hmacSha256Hex := fun _ _ => String.ofList (List.replicate 64 'a') },
    .noStore⟩
  nodeId name := name
  elsewhere _ := notFoundResponse

def emptyWorker : WorkerState Unit := fun _ => .init ()

def quietEnv : WorkerEnv := fun _ => .at 0

def pollOf (room : String) : Request where
  method := "GET"
  pathname := "/api/v1/poll"
  query := [("room", room)]
  headers := []
  body := ⟨"", none⟩

/-- A callback that names its room in the body. -/
def lobbyCallback : Request where
  method := "POST"
  pathname := "/api/v1/trigger/callback"
  query := []
  headers := []
  body := Platform.toy.stringify (.obj [("ref", .str "main"), ("status", .str "success"),
    ("room", .str "lobby"), ("id", .str "c1")])

/-- The callback is read back. -/
theorem read_your_writes_iff_lobbyCallback :
    ReadsBack webhookWorker (webhookWorker.fetch lobbyCallback quietEnv emptyWorker).2
      (pollOf "lobby") "lobby" "c1" :=
  (read_your_writes_iff webhookWorker
    ⟨rfl, by decide, by decide, "lobby", by decide, by decide⟩
    ⟨rfl, rfl, by decide, by decide, by decide, by decide, by decide⟩
    (by decide)).mpr (.inl (by
      unfold LeadsTo
      rw [if_neg (by decide), if_pos (by decide)]
      trivial))

/-- The delivery of an opened issue of `octo/repo`, without a room in its query. -/
def issueDelivery : Request where
  method := "POST"
  pathname := "/api/v1/github/webhook"
  query := []
  headers := [("x-github-event", "issues"), ("x-github-delivery", "d1"),
    ("x-hub-signature-256", "sha256=" ++ String.ofList (List.replicate 64 'a'))]
  body := Platform.toy.stringify (.obj [("action", .str "opened"),
    ("repository", .obj [("full_name", .str "octo/repo")])])

/-- The delivery goes to the object `main` and into its log of the room `octo-repo`, where the
polls of `octo-repo` do not read. -/
theorem delivery_not_read_back :
    Accepts webhookWorker emptyWorker issueDelivery quietEnv "octo-repo" "gh-d1" ∧
    Polls webhookWorker (pollOf "octo-repo") "octo-repo" ∧
    CoversLog (pollOf "octo-repo") "octo-repo"
      (webhookWorker.fetch issueDelivery quietEnv emptyWorker).2 ∧
    ¬ ReturnsId (webhookWorker.fetch (pollOf "octo-repo") quietEnv
      (webhookWorker.fetch issueDelivery quietEnv emptyWorker).2).1 "gh-d1" := by
  have hframe : (webhookWorker.fetch issueDelivery quietEnv emptyWorker).2 "octo-repo" = .init () :=
    fetch_frame (by decide)
  have hpolls : Polls webhookWorker (pollOf "octo-repo") "octo-repo" :=
    ⟨rfl, rfl, by decide, by decide, by decide, by decide, by decide⟩
  have hcovers : CoversLog (pollOf "octo-repo") "octo-repo"
      (webhookWorker.fetch issueDelivery quietEnv emptyWorker).2 := by
    unfold CoversLog polledLog
    rw [hframe]
    decide
  refine ⟨⟨rfl, by decide, by decide, "main", by decide, by decide⟩, hpolls, hcovers, ?_⟩
  rw [returnsId_iff hpolls _ hcovers, hframe]
  decide

end BitRelay
