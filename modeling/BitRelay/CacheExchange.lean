import BitRelay.Signing

/-!
# Cache exchange

The records a relay keeps for its peers, the page of them a pull returns, and
the check of an incoming entry (`cache_exchange.ts`).
-/

namespace BitRelay

structure Envelope where
  room : String
  id : String
  sender : String
  topic : String
  payload : JsonValue
  signature : Option String
  deriving DecidableEq

structure CacheExchangeRecord where
  cursor : Nat
  envelope : Envelope
  origin : String
  hopCount : Nat
  maxHops : Nat
  deriving DecidableEq

structure CacheExchangeEntry where
  cursor : Nat
  room : String
  id : String
  sender : String
  topic : String
  payload : JsonValue
  signature : Option String
  origin : String
  hopCount : Nat
  maxHops : Nat
  deriving DecidableEq

structure IncomingExchangeEntry where
  room : String
  id : String
  sender : String
  topic : String
  payload : JsonValue
  signature : Option String
  origin : String
  hopCount : Nat
  maxHops : Nat
  deriving DecidableEq

inductive CacheExchangeCollision
  | duplicate
  | conflict
  deriving DecidableEq

structure SelectExchangeEntriesArgs where
  after : Nat
  limit : Nat
  peer : Option String
  room : Option String

def CacheExchangeEntry.toJson (entry : CacheExchangeEntry) : JsonValue :=
  .obj [
    ("cursor", .ofNat entry.cursor),
    ("room", .str entry.room),
    ("id", .str entry.id),
    ("sender", .str entry.sender),
    ("topic", .str entry.topic),
    ("payload", entry.payload),
    ("signature", .ofString? entry.signature),
    ("origin", .str entry.origin),
    ("hop_count", .ofNat entry.hopCount),
    ("max_hops", .ofNat entry.maxHops)]

/-! ## Reading fields -/

/-- `asString`: a text that is not blank, trimmed. -/
def asString (value : Option JsonValue) : Option String :=
  match value with
  | some (.str s) => if trim s ≠ "" then some (trim s) else none
  | _ => none

def asNonNegativeInt (value : Option JsonValue) : Option Nat :=
  match value with
  | some (.num n) =>
    match n.truncInt? with
    | some truncated => if truncated < 0 then none else some truncated.toNat
    | none => none
  | _ => none

theorem asNonNegativeInt_ofNat (n : Nat) : asNonNegativeInt (some (.ofNat n)) = some n := by
  show (match (JsNumber.ofInt n).truncInt? with
    | some truncated => if truncated < 0 then none else some truncated.toNat
    | none => none) = some n
  rw [JsNumber.truncInt?_ofInt]
  simp

def normalizeSignature (value : Option JsonValue) : Option String :=
  match value with
  | some (.str s) => if trim s ≠ "" then some (trim s) else none
  | _ => none

theorem asString_eq_some_iff {value : Option JsonValue} {s : String} :
    asString value = some s ↔ ∃ raw, value = some (.str raw) ∧ trim raw = s ∧ s ≠ "" := by
  unfold asString
  constructor
  · intro h
    split at h
    · next raw =>
      split at h
      · next hne =>
        cases h
        exact ⟨raw, rfl, rfl, hne⟩
      · cases h
    · cases h
  · rintro ⟨raw, rfl, rfl, hne⟩
    simp only [if_pos hne]

/-! ## Collisions -/

def envelopeCanonicalSignature (P : Platform) (envelope : Envelope) : String :=
  "\n".intercalate [
    envelope.sender,
    envelope.topic,
    canonicalizeJson P envelope.payload,
    envelope.signature.getD ""]

def classifyCacheExchangeCollision (P : Platform) (existing incoming : Envelope) :
    CacheExchangeCollision :=
  if envelopeCanonicalSignature P existing = envelopeCanonicalSignature P incoming
  then .duplicate else .conflict

/-! ## Export -/

/-- The filters of a pull: the room, the peer that asks, the hop limit. -/
def exportsRecord (args : SelectExchangeEntriesArgs) (record : CacheExchangeRecord) : Bool :=
  (args.room.all fun room => record.envelope.room == room) &&
    (args.peer.all fun peer => record.origin != peer) &&
    decide (record.hopCount < record.maxHops)

def exportEntry (record : CacheExchangeRecord) : CacheExchangeEntry :=
  { cursor := record.cursor
    room := record.envelope.room
    id := record.envelope.id
    sender := record.envelope.sender
    topic := record.envelope.topic
    payload := record.envelope.payload
    signature := record.envelope.signature
    origin := record.origin
    hopCount := record.hopCount + 1
    maxHops := record.maxHops }

/-- The loop of `selectCacheExchangeEntries`, with the entries and the cursor found so far. -/
def selectLoop (args : SelectExchangeEntriesArgs) (limit : Nat) :
    List CacheExchangeRecord → List CacheExchangeEntry → Nat → List CacheExchangeEntry × Nat
  | [], entries, nextCursor => (entries, nextCursor)
  | record :: rest, entries, nextCursor =>
    if record.cursor ≤ args.after then selectLoop args limit rest entries nextCursor
    else if exportsRecord args record then
      let entries := entries ++ [exportEntry record]
      if limit ≤ entries.length then (entries, record.cursor)
      else selectLoop args limit rest entries record.cursor
    else selectLoop args limit rest entries record.cursor

def selectCacheExchangeEntries (records : List CacheExchangeRecord)
    (args : SelectExchangeEntriesArgs) : List CacheExchangeEntry × Nat :=
  selectLoop args (max 1 args.limit) records [] args.after

/-! ## Import -/

/-- The fields of an incoming entry are read in this order, and the first bad one is named. -/
def parseIncomingCacheExchangeEntry (value : JsonValue) (defaultMaxHops : Nat) :
    Except String IncomingExchangeEntry := do
  let some _ := value.fields? | throw "entry must be object"
  let some room := asString (value.get? "room") | throw "invalid room"
  let some id := asString (value.get? "id") | throw "invalid id"
  let some sender := asString (value.get? "sender") | throw "invalid sender"
  let some topic := asString (value.get? "topic") | throw "invalid topic"
  -- Every value that `JSON.parse` returns is a `JsonValue`: only a missing payload is refused.
  let some payload := value.get? "payload" | throw "invalid payload"
  let some origin := asString (value.get? "origin") | throw "invalid origin"
  let some hopCount := asNonNegativeInt (value.get? "hop_count") | throw "invalid hop_count"
  let maxHops := (asNonNegativeInt (value.get? "max_hops")).getD defaultMaxHops
  if maxHops < 1 then throw "invalid max_hops"
  return {
    room, id, sender, topic, payload
    signature := normalizeSignature (value.get? "signature")
    origin, hopCount, maxHops }

/-- What an admitted entry says: every field of it is one that the value names. -/
structure IncomingExchangeEntry.ReadFrom (incoming : IncomingExchangeEntry) (value : JsonValue)
    (defaultMaxHops : Nat) : Prop where
  object : value.fields?.isSome = true
  room : asString (value.get? "room") = some incoming.room
  id : asString (value.get? "id") = some incoming.id
  sender : asString (value.get? "sender") = some incoming.sender
  topic : asString (value.get? "topic") = some incoming.topic
  payload : value.get? "payload" = some incoming.payload
  origin : asString (value.get? "origin") = some incoming.origin
  hopCount : asNonNegativeInt (value.get? "hop_count") = some incoming.hopCount
  maxHops : (asNonNegativeInt (value.get? "max_hops")).getD defaultMaxHops = incoming.maxHops
  maxHops_pos : 1 ≤ incoming.maxHops
  signature : normalizeSignature (value.get? "signature") = incoming.signature

/-- An entry is admitted if and only if every field of it can be read. -/
theorem parseIncomingCacheExchangeEntry_ok_iff {value : JsonValue} {defaultMaxHops : Nat}
    {incoming : IncomingExchangeEntry} :
    parseIncomingCacheExchangeEntry value defaultMaxHops = .ok incoming ↔
      incoming.ReadFrom value defaultMaxHops := by
  constructor
  · intro h
    unfold parseIncomingCacheExchangeEntry at h
    split at h <;> try cases h
    next _ hobject =>
    split at h <;> try cases h
    next room hroom =>
    split at h <;> try cases h
    next id hid =>
    split at h <;> try cases h
    next sender hsender =>
    split at h <;> try cases h
    next topic htopic =>
    split at h <;> try cases h
    next payload hpayload =>
    split at h <;> try cases h
    next origin horigin =>
    split at h <;> try cases h
    next hopCount hhop =>
    by_cases hmax : (asNonNegativeInt (value.get? "max_hops")).getD defaultMaxHops < 1
    · simp only [hmax, if_true] at h
      cases h
    · simp only [hmax, if_false] at h
      cases h
      exact ⟨by rw [hobject]; rfl, hroom, hid, hsender, htopic, hpayload, horigin, hhop, rfl,
        not_lt.mp hmax, rfl⟩
  · intro h
    obtain ⟨fields, hobject⟩ := Option.isSome_iff_exists.mp h.object
    have hmax : ¬ (asNonNegativeInt (value.get? "max_hops")).getD defaultMaxHops < 1 := by
      rw [h.maxHops]
      exact not_lt.mpr h.maxHops_pos
    unfold parseIncomingCacheExchangeEntry
    simp only [hobject, h.room, h.id, h.sender, h.topic, h.payload, h.origin, h.hopCount,
      if_neg hmax]
    rw [h.maxHops, h.signature]
    rfl

end BitRelay
