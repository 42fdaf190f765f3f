import BitRelay.Service.Fetch

/-!
# The worker in front of the relays

With `RELAY_ROOM` bound, the worker keeps one relay service for each room name,
a durable object, and forwards every relay request to one of them
(`cloudflare_worker.ts`). It picks the object from the query, from the body of a
callback, or from the entries of a push; the service inside finds the room of the
request again by its own rules.

The objects share their options, except for the node id, which each service draws
at its start. What an object keeps in its storage (keys and nonces) does not enter
a room log and is left out.
-/

namespace BitRelay

/-- The worker and its environment. The admin API, the git routes and the serve API answer
without a relay object. -/
structure Worker (C : Type) where
  relay : Relay C
  /-- the node id of the object of each room name -/
  nodeId : String → String
  elsewhere : Request → Response

/-- The states of the durable objects, by their names. -/
abbrev WorkerState (C : Type) := String → ServiceState C

/-- What the requests to the objects meet in the outside world. -/
abbrev WorkerEnv := String → Env

def isElsewhere (pathname : String) : Bool :=
  startsWith pathname "/api/v1/admin/github/" || startsWith pathname "/git/" ||
    startsWith pathname "/api/v1/serve/"

def isRelayRoute (pathname : String) : Bool :=
  pathname == "/" || pathname == "/ws" || startsWith pathname "/api/v1/"

/-- `url.searchParams.set(key, value)` -/
def setParam (key value : String) : List (String × String) → List (String × String)
  | [] => [(key, value)]
  | (k, v) :: rest =>
    if k = key then (key, value) :: rest.filter fun p => decide (p.1 ≠ key)
    else (k, v) :: setParam key value rest

/-! ## Picking the object -/

/-- The loop of `parseCacheExchangeEntriesByRoom`: the entries by their rooms, in the order of
their first ones. -/
def groupEntries : List JsonValue → OrdMap String (List JsonValue) →
    Option (OrdMap String (List JsonValue))
  | [], grouped => some grouped
  | entry :: rest, grouped =>
    if entry.fields?.isNone then none
    else
      let room := trim (entry.strField "room")
      if isValidRoomName room = false then none
      else groupEntries rest (grouped.set room (grouped.getD room [] ++ [entry]))

def parseCacheExchangeEntriesByRoom (parsed : JsonValue) :
    Option (OrdMap String (List JsonValue)) :=
  (parsed.arrField? "entries").bind fun entries => groupEntries entries ∅

/-- The groups of a push body; `none` is a body that goes to the default room as it is. -/
def pushGroups (body : Body) : Option (List (String × List JsonValue)) :=
  match body.json.bind parseCacheExchangeEntriesByRoom with
  | none => none
  | some grouped => if grouped.entries = [] then none else some grouped.entries

def resolveRelayRouteRoom (request : Request) : String :=
  let roomFromQuery := request.paramTrim "room"
  if roomFromQuery ≠ "" then roomFromQuery
  else if request.pathname = "/api/v1/trigger/callback" ∧ request.method = "POST" then
    match request.body.json with
    | some (.obj fields) =>
      let roomFromBody := trim ((JsonValue.obj fields).strField "room")
      let ref := trim ((JsonValue.obj fields).strField "ref")
      if roomFromBody ≠ "" then roomFromBody
      else if ref ≠ "" then deriveRoomFromIncomingRef ref
      else DEFAULT_ROOM
    | _ => DEFAULT_ROOM
  else DEFAULT_ROOM

/-! ## Adding up the answers of several objects -/

structure PushTotals where
  protocol : String
  nodeId : String
  nextCursor : Int
  accepted : Int
  duplicates : Int
  conflicts : Int
  rejected : Int
  rejectionCounts : OrdMap String Int

namespace PushTotals

def zero : PushTotals := ⟨"cache.exchange.v1", "", 0, 0, 0, 0, 0, ∅⟩

/-- `Math.max(0, Math.trunc(body[key]))`, and 0 for anything but a finite number. -/
def countField (body : JsonValue) (key : String) : Int :=
  max 0 (((body.numField? key).bind JsNumber.truncInt?).getD 0)

/-- A text field that is not blank, or what was there before. -/
def textField (body : JsonValue) (key before : String) : String :=
  if trim (body.strField key) ≠ "" then body.strField key else before

def addRejections (counts : OrdMap String Int) : List (String × JsonValue) → OrdMap String Int
  | [] => counts
  | (reason, .num count) :: rest =>
    match count.truncInt? with
    | some n => addRejections (counts.set reason (counts.getD reason 0 + max 0 n)) rest
    | none => addRejections counts rest
  | _ :: rest => addRejections counts rest

def add (totals : PushTotals) (body : JsonValue) : PushTotals where
  protocol := textField body "protocol" totals.protocol
  nodeId := textField body "node_id" totals.nodeId
  nextCursor := match (body.numField? "next_cursor").bind JsNumber.truncInt? with
    | some n => max totals.nextCursor n
    | none => totals.nextCursor
  accepted := totals.accepted + countField body "accepted"
  duplicates := totals.duplicates + countField body "duplicates"
  conflicts := totals.conflicts + countField body "conflicts"
  rejected := totals.rejected + countField body "rejected"
  rejectionCounts := addRejections totals.rejectionCounts
    (((body.objField? "rejection_counts").bind JsonValue.fields?).getD [])

def toResponse (totals : PushTotals) : Response := ⟨200, .obj [
  ("ok", .bool true),
  ("protocol", .str totals.protocol),
  ("node_id", .str totals.nodeId),
  ("accepted", .ofInt totals.accepted),
  ("duplicates", .ofInt totals.duplicates),
  ("conflicts", .ofInt totals.conflicts),
  ("rejected", .ofInt totals.rejected),
  ("rejection_counts", .obj (totals.rejectionCounts.entries.map fun e => (e.1, .ofInt e.2))),
  ("next_cursor", .ofInt totals.nextCursor)]⟩

end PushTotals

/-! ## Forwarding -/

namespace Worker

section
variable {C : Type} (W : Worker C)

/-- The service inside the object of a room name. -/
def object (name : String) : Relay C :=
  { W.relay with config := { W.relay.config with relayNodeId := W.nodeId name } }

/-- `getRelayRoomStub(env, name).fetch(request)` -/
def forward (name : String) (request : Request) (env : WorkerEnv) (w : WorkerState C) :
    Response × WorkerState C :=
  let (response, s) := serve (W.object name) request (env name) (w name)
  (response, Function.update w name s)

/-- The loop over the groups of a push: an object that refuses its group ends it. -/
def forwardGroups (request : Request) (env : WorkerEnv) :
    List (String × List JsonValue) → PushTotals → WorkerState C → Response × WorkerState C
  | [], totals, w => (totals.toResponse, w)
  | (room, entries) :: rest, totals, w =>
    let forwarded := { request with
      query := setParam "room" room request.query
      body := W.relay.platform.stringify (.obj [("entries", .arr entries)]) }
    let (response, w) := W.forward room forwarded env w
    if response.status ≠ 200 then (response, w)
    else forwardGroups request env rest (totals.add response.body) w

/-- `routeCacheExchangePushByEntryRoom`, for a push without a room in its query. -/
def routePush (request : Request) (env : WorkerEnv) (w : WorkerState C) :
    Response × WorkerState C :=
  match pushGroups request.body with
  | none => W.forward DEFAULT_ROOM request env w
  | some [(room, _)] =>
    W.forward room { request with query := setParam "room" room request.query } env w
  | some groups => W.forwardGroups request env groups .zero w

/-- The push is routed by the rooms of its entries. -/
def routesByEntries (request : Request) : Bool :=
  request.pathname == "/api/v1/cache/exchange/push" && request.method == "POST" &&
    request.paramTrim "room" == ""

/-- `handleWorkerRequest` -/
def fetch (request : Request) (env : WorkerEnv) (w : WorkerState C) :
    Response × WorkerState C :=
  if isElsewhere request.pathname = true then (W.elsewhere request, w)
  else if request.pathname = "/health" then (healthResponse, w)
  else if isRelayRoute request.pathname = false then (notFoundResponse, w)
  else if routesByEntries request = true then W.routePush request env w
  else
    let room := trim (resolveRelayRouteRoom request)
    if isValidRoomName room = false then (invalidRoomResponse, w)
    else W.forward room request env w

/-- A request to the worker together with what it meets. -/
structure Arrival where
  request : Request
  env : WorkerEnv

/-- The states of the objects after requests that are processed one at a time. -/
def afterArrivals (w : WorkerState C) (arrivals : List Arrival) : WorkerState C :=
  runFrom (fun w arrival => (W.fetch arrival.request arrival.env w).2) w arrivals

end

end Worker

end BitRelay
