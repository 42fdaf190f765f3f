import BitRelay.Js.Json

/-!
# Requests and responses

A request is taken after `new URL(request.url)`: the path, the decoded search
parameters in their order, the headers under their lower-case names, and the
body. A response is its status and its JSON body; a plain-text body is shown as
a JSON string.
-/

namespace BitRelay

structure Request where
  method : String
  pathname : String
  query : List (String × String)
  headers : List (String × String)
  body : Body
  deriving DecidableEq

structure Response where
  status : Nat
  body : JsonValue
  deriving DecidableEq

def Request.get (pathname : String) (query : List (String × String)) : Request :=
  ⟨"GET", pathname, query, [], ⟨"", none⟩⟩

def Request.post (pathname : String) (query headers : List (String × String)) (body : Body) :
    Request :=
  ⟨"POST", pathname, query, headers, body⟩

/-- `url.searchParams.get(key)` -/
def Request.param (request : Request) (key : String) : Option String := request.query.lookup key

/-- `(url.searchParams.get(key) ?? '').trim()` -/
def Request.paramTrim (request : Request) (key : String) : String :=
  trim ((request.param key).getD "")

/-- `request.headers.get(key)` -/
def Request.header (request : Request) (key : String) : Option String := request.headers.lookup key

/-- `(request.headers.get(key) ?? '').trim()` -/
def Request.headerTrim (request : Request) (key : String) : String :=
  trim ((request.header key).getD "")

/-! ## Fixed responses -/

def toErrorResponse (message : String) (status : Nat) : Response :=
  ⟨status, .obj [("ok", .bool false), ("error", .str message)]⟩

def invalidRoomResponse : Response := toErrorResponse "invalid room" 400

def healthResponse : Response :=
  ⟨200, .obj [("status", .str "ok"), ("service", .str "bit-relay")]⟩

def notFoundResponse : Response := toErrorResponse "not found" 404

def methodNotAllowedResponse : Response := toErrorResponse "method not allowed" 405

def unauthorizedResponse : Response := toErrorResponse "unauthorized" 401

/-! ## Query parameters -/

def DEFAULT_ROOM : String := "main"

/-- `parseIntOr(raw, fallback)` -/
def parseIntOr (raw : Option String) (fallback : Int) : Int :=
  (parseInt10 (raw.getD "")).getD fallback

/-- `Math.max(1, parseIntOr(raw, fallback))` -/
def normalizeLimit (raw : Option String) (fallback : Int) : Nat :=
  (max 1 (parseIntOr raw fallback)).toNat

/-- `Math.max(0, parseIntOr(raw, fallback))` -/
def normalizeAfter (raw : Option String) (fallback : Int) : Nat :=
  (max 0 (parseIntOr raw fallback)).toNat

def normalizeRoom (raw : Option String) : String := trim (raw.getD DEFAULT_ROOM)

/-- `ROOM_NAME_PATTERN` -/
def isValidRoomName (room : String) : Bool := matchesName Char.isAlphanum isNameChar 63 room

/-- Such a name has no whitespace, and is not blank. -/
theorem trimmed_of_matchesName {n : Nat} {name : String}
    (h : matchesName Char.isAlphanum isNameChar n name = true) : Trimmed name ∧ name ≠ "" := by
  obtain ⟨c, cs, hlist, hc, -, hcs⟩ := matchesName_chars h
  refine ⟨trimmed_of_nospace fun d hd => isJsSpace_of_isNameChar ?_, ?_⟩
  · rw [hlist, List.mem_cons] at hd
    rcases hd with rfl | hd
    · simp [isNameChar, hc]
    · exact hcs d hd
  · rintro rfl
    cases hlist

theorem trimmed_of_isValidRoomName {room : String} (h : isValidRoomName room = true) :
    Trimmed room ∧ room ≠ "" := trimmed_of_matchesName h

/-- `TOPIC_PATTERN` -/
def isValidTopic (topic : String) : Bool := matchesName Char.isLower isLowerNameChar 63 topic

/-- `PR_ID_PATTERN` -/
def isValidPrId (prId : String) : Bool := matchesName Char.isAlphanum isNameChar 127 prId

theorem normalizeLimit_pos (raw : Option String) (fallback : Int) :
    1 ≤ normalizeLimit raw fallback := by
  unfold normalizeLimit
  omega

/-! ## Tokens -/

/-- Drop a leading `/^bearer\s+/i`, if the text has one. -/
def stripBearer (auth : String) : String :=
  let l := auth.toList
  let rest := l.drop 6
  if (l.take 6).map Char.toLower = "bearer".toList ∧ rest.head?.any isJsSpace
  then trim (String.ofList rest)
  else auth

def extractPresentedToken (request : Request) : String :=
  stripBearer (request.headerTrim "authorization")

/-- `timingSafeEqual` on texts: equality. -/
def timingSafeEqual (a b : String) : Bool := decide (a = b)

def shouldRequireAuth (pathname : String) : Bool :=
  pathname != "/api/v1/github/webhook" && (pathname == "/ws" || startsWith pathname "/api/v1/")

/-- The room token a request carries: the query parameter, else the header. -/
def readRoomToken (request : Request) : String :=
  let query := request.paramTrim "room_token"
  if query ≠ "" then query else request.headerTrim "x-room-token"

def extractClientIp (request : Request) : String :=
  let cfIp := request.headerTrim "cf-connecting-ip"
  if cfIp ≠ "" then cfIp
  else
    let first := trim (splitFirst (request.headerTrim "x-forwarded-for") ',')
    if first ≠ "" then first else request.headerTrim "x-real-ip"

end BitRelay
