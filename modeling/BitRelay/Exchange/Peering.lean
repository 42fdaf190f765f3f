import BitRelay.Exchange.Pushes
import BitRelay.Exchange.SyncWorker
import BitRelay.Js.Numerals

/-!
# Peering

`deno_main.ts` runs the peer-sync worker beside its relay. What the worker pulls goes to the relay
as one push, under the relay token of the process and without a room token.

Results:
1. `pushEntriesToLocal_open`, `pushEntriesToLocal_blocked`: the push goes through unless the relay
   asks for another peer token or one of the entries is for a room with a token.
2. `pullAnswer_serve`: what a relay answers to a pull is a page of its records.
-/

namespace BitRelay

/-! ## The relay of the process -/

/-- A relay, with what the normalisation of its tokens guarantees. -/
structure DenoRelay (C : Type) extends PeerRelay C where
  authToken_trimmed : Trimmed config.authToken
  peerAuthToken_trimmed : Trimmed config.peerAuthToken

def withRelayAuthHeaders (relayAuthToken : String) (headers : List (String × String)) :
    List (String × String) :=
  if relayAuthToken ≠ "" ∧ headers.lookup "authorization" = none
  then headers ++ [("authorization", "Bearer " ++ relayAuthToken)] else headers

def createInternalServiceRequest (relayAuthToken : String) (request : Request) : Request :=
  { request with headers := withRelayAuthHeaders relayAuthToken request.headers }

section
variable {C : Type}

/-- The request of `pushEntriesToLocal`. -/
def localPush (R : Relay C) (entries : List JsonValue) : Request :=
  createInternalServiceRequest R.config.authToken
    (.post "/api/v1/cache/exchange/push" [] [("content-type", "application/json")]
      (R.platform.stringify (.obj [("entries", .arr entries)])))

/-- Any status but 200 makes it throw. -/
def pushEntriesToLocal (R : Relay C) (env : Env) (entries : List JsonValue) (s : ServiceState C) :
    Bool × ServiceState C :=
  let (response, s') := serve R (localPush R entries) env s
  (response.status == 200, s')

def parseCacheExchangePullBody (body : JsonValue) : CacheSyncPullResult JsonValue where
  entries := (body.arrField? "entries").getD []
  nextCursor := .ofInt (max 0 (((body.numField? "next_cursor").bind JsNumber.truncInt?).getD 0))

/-- How `pullFromPeer` fares with a peer. -/
inductive PullOutcome
  | incompatible
  | failed
  | answered (response : Response)

/-- A peer of another repository is skipped without an error. -/
def pullFromPeer (after : Nat) : PullOutcome → Option (CacheSyncPullResult JsonValue)
  | .incompatible => some ⟨[], .ofNat after⟩
  | .failed => none
  | .answered response =>
    if response.status ≠ 200 ∨ response.body = .null then none
    else some (parseCacheExchangePullBody response.body)

/-! ## Batches -/

/-- The cursor that an entry came with. -/
def entryCursor (value : JsonValue) : Option Nat := asNonNegativeInt (value.get? "cursor")

/-- The response to a pull from `after`: entries that the relay can read, each with a cursor behind
`after` and up to `next_cursor`. -/
structure PullAnswer (R : Relay C) (after : Nat) (response : Response) (entries : List JsonValue) :
    Prop where
  status : response.status = 200
  list : response.body.arrField? "entries" = some entries
  wellFormed : ∀ value ∈ entries, ∃ incoming,
    parseIncomingCacheExchangeEntry value R.config.cacheExchangeMaxHops = .ok incoming
  cursor : ∀ value ∈ entries, ∃ n, entryCursor value = some n ∧ after < n ∧
    n ≤ CacheSyncWorker.toCursor (parseCacheExchangePullBody response.body).nextCursor after

theorem pullFromPeer_answered {R : Relay C} {after : Nat} {response : Response}
    {entries : List JsonValue} (h : PullAnswer R after response entries) :
    pullFromPeer after (.answered response) = some (parseCacheExchangePullBody response.body) ∧
      (parseCacheExchangePullBody response.body).entries = entries := by
  constructor
  · unfold pullFromPeer
    simp only
    rw [if_neg]
    rintro (hstatus | hnull)
    · exact hstatus h.status
    · have hlist := h.list
      rw [hnull] at hlist
      cases hlist
  · unfold parseCacheExchangePullBody
    rw [h.list]
    rfl

/-- The relay lets its own push through: it asks for no other peer token, and no entry that it would
take a room for is for a room with a token. -/
structure Unblocked (R : Relay C) (entries : List JsonValue) : Prop where
  peerToken : R.config.peerAuthToken = "" ∨ R.config.peerAuthToken = R.config.authToken
  rooms : ∀ value ∈ entries, ∀ incoming,
    parseIncomingCacheExchangeEntry value R.config.cacheExchangeMaxHops = .ok incoming →
    isValidTopic incoming.topic = true → R.config.roomTokens.get? incoming.room = none

/-! ## The gates of the local push -/

namespace PeeringLemmas

theorem stripBearer_bearer {token : String} (h : FreeText token) :
    stripBearer ("Bearer " ++ token) = token := by
  have hlist : ("Bearer " ++ token).toList = "Bearer".toList ++ ' ' :: token.toList := by
    rw [String.toList_append]
    rfl
  have htrim : trim (String.ofList (' ' :: token.toList)) = trim token := by
    unfold trim trimChars
    rw [String.toList_ofList, List.dropWhile_cons_of_pos (by decide)]
  unfold stripBearer
  simp only [hlist]
  show (if _ ∧ _ then trim (String.ofList (' ' :: token.toList)) else _) = token
  rw [if_pos ⟨rfl, rfl⟩, htrim]
  exact h.2

/-- The relay recognises its own token. -/
theorem extractPresentedToken_localPush (R : DenoRelay C) (entries : List JsonValue) :
    extractPresentedToken (localPush R.toRelay entries) = R.config.authToken := by
  unfold extractPresentedToken localPush createInternalServiceRequest withRelayAuthHeaders
  by_cases h : R.config.authToken = ""
  · rw [if_neg (fun hnot => hnot.1 h), h]
    rfl
  · have hfree : FreeText R.config.authToken := ⟨h, R.authToken_trimmed⟩
    have hbearer : FreeText ("Bearer " ++ R.config.authToken) := by
      rw [show ("Bearer " : String) = "Bearer" ++ " " from rfl]
      exact freeText_append (by decide) hfree
    rw [if_pos ⟨h, rfl⟩]
    show stripBearer (trim ("Bearer " ++ R.config.authToken)) = _
    rw [show trim ("Bearer " ++ R.config.authToken) = "Bearer " ++ R.config.authToken from hbearer.2,
      stripBearer_bearer hfree]

theorem checkAuth_localPush (R : DenoRelay C) (entries : List JsonValue) :
    checkAuth R.toRelay (localPush R.toRelay entries) = none := by
  unfold checkAuth
  rw [extractPresentedToken_localPush]
  simp only
  rw [if_neg]
  rintro ⟨hne, -, hempty | hunequal⟩
  · exact hne hempty
  · simp [timingSafeEqual] at hunequal

theorem checkPeerAuth_localPush (R : DenoRelay C) (entries : List JsonValue) :
    checkPeerAuth R.toRelay (localPush R.toRelay entries) = none ↔
      R.config.peerAuthToken = "" ∨ R.config.peerAuthToken = R.config.authToken := by
  unfold checkPeerAuth
  rw [extractPresentedToken_localPush]
  simp only [timingSafeEqual, decide_eq_false_iff_not]
  constructor
  · intro h
    by_contra hnot
    obtain ⟨hne, hunequal⟩ := not_or.mp hnot
    rw [if_pos ⟨hne, .inr fun heq => hunequal heq.symm⟩] at h
    cases h
  · rintro (h | h)
    · rw [if_neg fun hnot => hnot.1 h]
    · rw [if_neg]
      rintro ⟨hne, hempty | hunequal⟩
      · exact hne (h.trans hempty)
      · exact hunequal h.symm

/-- The push carries no room token. -/
theorem checkRoomToken_localPush (R : Relay C) (entries : List JsonValue) (room : String) :
    checkRoomToken R (localPush R entries) room = none ↔ R.config.roomTokens.get? room = none := by
  have htoken : readRoomToken (localPush R entries) = "" := by
    unfold readRoomToken localPush createInternalServiceRequest withRelayAuthHeaders
    split <;> rfl
  unfold checkRoomToken
  rw [htoken]
  cases R.config.roomTokens.get? room with
  | none => simp
  | some token => simp

theorem pushRequest_localPush (R : DenoRelay C) (entries : List JsonValue)
    (h : R.config.peerAuthToken = "" ∨ R.config.peerAuthToken = R.config.authToken) :
    PushRequest R.toRelay (localPush R.toRelay entries) (entries.map JsonValue.normalize) where
  path := rfl
  method := rfl
  auth := checkAuth_localPush R entries
  peerAuth := (checkPeerAuth_localPush R entries).mpr h
  body := by
    refine ⟨_, rfl, ?_⟩
    show some (JsonValue.normalizeItems entries) = _
    rw [JsonValue.normalizeItems_eq_map]

/-- With another peer token every push of the process is refused. -/
theorem serve_localPush_unauthorized (R : DenoRelay C) (env : Env) (entries : List JsonValue)
    (s : ServiceState C)
    (h : ¬ (R.config.peerAuthToken = "" ∨ R.config.peerAuthToken = R.config.authToken)) :
    (serve R.toRelay (localPush R.toRelay entries) env s).1 = unauthorizedResponse := by
  have hpeer : checkPeerAuth R.toRelay (localPush R.toRelay entries) = some unauthorizedResponse := by
    have hne := mt (checkPeerAuth_localPush R entries).mp h
    unfold checkPeerAuth at hne ⊢
    simp only at hne ⊢
    split
    · rfl
    · next hnot => exact absurd (if_neg hnot) hne
  unfold serve fetch
  show ((Proc.failWith (checkAuth R.toRelay (localPush R.toRelay entries)) >>= fun _ =>
    handleCacheExchangePush R.toRelay (localPush R.toRelay entries) : Handler C Response).serve s).1 = _
  rw [checkAuth_localPush]
  unfold handleCacheExchangePush
  rw [hpeer]
  rfl

end PeeringLemmas

open PeeringLemmas

/-! ## What the local push does -/

section
variable {R : DenoRelay C} {env : Env} {entries : List JsonValue}

variable (entries) in
/-- An entry for a room without a token is not barred, and one for a room with a token is, if its
topic is valid. -/
theorem open_localPush_iff {value : JsonValue} {incoming : IncomingExchangeEntry}
    (h : parseIncomingCacheExchangeEntry value R.config.cacheExchangeMaxHops = .ok incoming) :
    Open R.toRelay (localPush R.toRelay entries) value.normalize ↔
      (isValidTopic incoming.topic = true → R.config.roomTokens.get? incoming.room = none) := by
  have hread := parse_normalize h
  have hbarred : Barred R.toRelay (localPush R.toRelay entries)
      { incoming with payload := incoming.payload.normalize } ↔
        ¬ (isValidTopic incoming.topic = true → R.config.roomTokens.get? incoming.room = none) := by
    unfold Barred
    rw [RecordLemmas.refusesEntryName_eq_none_iff, ne_eq, checkRoomToken_localPush, Classical.not_imp]
    refine ⟨fun ⟨⟨_, htopic⟩, htoken⟩ => ⟨htopic, htoken⟩,
      fun ⟨htopic, htoken⟩ => ⟨⟨?_, htopic⟩, htoken⟩⟩
    -- Only valid rooms have a token.
    obtain ⟨token, hsome⟩ := Option.ne_none_iff_exists'.mp htoken
    exact (R.config.roomTokens_normal _ _ hsome).1
  constructor
  · rintro ⟨other, hother, hopen⟩
    cases hread.symm.trans hother
    by_contra hnot
    exact hopen (hbarred.mpr hnot)
  · exact fun hroom => ⟨_, hread, fun hbar => hbarred.mp hbar hroom⟩

variable (hread : ∀ value ∈ entries, ∃ incoming,
  parseIncomingCacheExchangeEntry value R.config.cacheExchangeMaxHops = .ok incoming)
include hread

variable (env) in
/-- What every entry preserves holds behind a push that is not blocked. -/
theorem pushEntriesToLocal_open {P : List JsonValue → ServiceState C → Prop}
    (hstep : ∀ done value s s', EntryStep R.toRelay value s s' → P done s → P (done ++ [value]) s')
    (h : Unblocked R.toRelay entries) (s : ServiceState C) (hP : P [] s) :
    ∃ s', pushEntriesToLocal R.toRelay env entries s = (true, s') ∧
      P (entries.map JsonValue.normalize) s' := by
  have hopen : ∀ value ∈ entries.map JsonValue.normalize,
      Open R.toRelay (localPush R.toRelay entries) value := by
    intro value hvalue
    obtain ⟨raw, hraw, rfl⟩ := List.mem_map.mp hvalue
    obtain ⟨incoming, hincoming⟩ := hread raw hraw
    exact (open_localPush_iff entries hincoming).mpr (h.rooms raw hraw incoming hincoming)
  obtain ⟨counts, s', hrun, hP'⟩ := run_pushEntries_open hstep hopen [] 0 .zero s hP
  refine ⟨s', ?_, hP'⟩
  unfold pushEntriesToLocal
  rw [serve_push (pushRequest_localPush R entries h.peerToken), hrun]
  rfl

/-- A blocked push fails. -/
theorem pushEntriesToLocal_blocked (h : ¬ Unblocked R.toRelay entries) (s : ServiceState C) :
    (pushEntriesToLocal R.toRelay env entries s).1 = false := by
  unfold pushEntriesToLocal
  by_cases htoken : R.config.peerAuthToken = "" ∨ R.config.peerAuthToken = R.config.authToken
  · have hblocked : ∃ value ∈ entries.map JsonValue.normalize,
        ¬ Open R.toRelay (localPush R.toRelay entries) value := by
      by_contra hnone
      push Not at hnone
      refine h ⟨htoken, fun value hvalue incoming hincoming => ?_⟩
      exact (open_localPush_iff entries hincoming).mp (hnone _ (List.mem_map_of_mem hvalue))
    have hreads : ∀ value ∈ entries.map JsonValue.normalize, ∃ incoming,
        parseIncomingCacheExchangeEntry value R.config.cacheExchangeMaxHops = .ok incoming := by
      intro value hvalue
      obtain ⟨raw, hraw, rfl⟩ := List.mem_map.mp hvalue
      obtain ⟨incoming, hincoming⟩ := hread raw hraw
      exact ⟨_, parse_normalize hincoming⟩
    obtain ⟨s', hrun⟩ := run_pushEntries_barred hreads hblocked 0 .zero s
    rw [serve_push (pushRequest_localPush R entries htoken), hrun]
    rfl
  · simp only
    rw [serve_localPush_unauthorized R env entries s htoken]
    rfl

end

/-! ## What a relay answers to a pull -/

/-- The request of `pullFromPeer`. -/
def peerPull (peerSyncAuthToken localNodeId : String) (after limit : Nat) : Request where
  method := "GET"
  pathname := "/api/v1/cache/exchange/pull"
  query := [("after", toString after), ("limit", toString limit), ("peer", localNodeId)]
  headers := if peerSyncAuthToken ≠ "" then [("authorization", "Bearer " ++ peerSyncAuthToken)]
    else []
  body := ⟨"", none⟩

/-- A response as it is read from the network. -/
def Response.wire (response : Response) : Response :=
  { response with body := response.body.normalize }

/-- The arguments of a pull by the node; an empty node id is no filter. -/
def peerPullArgs (localNodeId : String) (after limit : Nat) : SelectExchangeEntriesArgs where
  after
  limit := max 1 limit
  peer := if trim localNodeId ≠ "" then some (trim localNodeId) else none
  room := none

namespace PeeringLemmas

theorem pullArgs_peerPull (token localNodeId : String) (after limit : Nat) :
    pullArgs (peerPull token localNodeId after limit) = peerPullArgs localNodeId after limit := by
  have hafter : normalizeAfter (some (toString after)) 0 = after := by
    unfold normalizeAfter parseIntOr
    rw [Option.getD_some, parseInt10_toString, Option.getD_some]
    omega
  have hlimit : normalizeLimit (some (toString limit)) 100 = max 1 limit := by
    unfold normalizeLimit parseIntOr
    rw [Option.getD_some, parseInt10_toString, Option.getD_some]
    omega
  show (⟨normalizeAfter (some (toString after)) 0, normalizeLimit (some (toString limit)) 100, _, _⟩ :
    SelectExchangeEntriesArgs) = _
  rw [hafter, hlimit]
  rfl

/-- A pull that is answered with 200 returns the page of the records. -/
theorem serve_peerPull {R : Relay C} {env : Env} {s : ServiceState C} {token localNodeId : String}
    {after limit : Nat}
    (h : (serve R (peerPull token localNodeId after limit) env s).1.status = 200) :
    let page := selectCacheExchangeEntries s.cacheExchangeRecords
      (peerPullArgs localNodeId after limit)
    serve R (peerPull token localNodeId after limit) env s = (⟨200, .obj [
      ("ok", .bool true),
      ("protocol", .str "cache.exchange.v1"),
      ("node_id", .str R.config.relayNodeId),
      ("next_cursor", .ofNat page.2),
      ("returned_count", .ofNat page.1.length),
      ("entries", .arr (page.1.map CacheExchangeEntry.toJson))]⟩, s) := by
  have hserve : serve R (peerPull token localNodeId after limit) env s =
      ((Proc.failWith (checkAuth R (peerPull token localNodeId after limit)) >>= fun _ =>
        Proc.failWith (checkPeerAuth R (peerPull token localNodeId after limit)) >>= fun _ =>
        Proc.gets (fun s => selectCacheExchangeEntries s.cacheExchangeRecords
          (pullArgs (peerPull token localNodeId after limit))) >>= fun page => pure (⟨200, .obj [
            ("ok", .bool true),
            ("protocol", .str "cache.exchange.v1"),
            ("node_id", .str R.config.relayNodeId),
            ("next_cursor", .ofNat page.2),
            ("returned_count", .ofNat page.1.length),
            ("entries", .arr (page.1.map CacheExchangeEntry.toJson))]⟩ : Response) :
              Handler C Response)).serve s := rfl
  rw [hserve] at h ⊢
  rw [pullArgs_peerPull] at h ⊢
  -- A refusal has the status 401.
  cases hauth : checkAuth R (peerPull token localNodeId after limit) with
  | some refused =>
    rw [hauth] at h
    unfold checkAuth at hauth
    simp only at hauth
    split at hauth
    · rw [← Option.some.inj hauth] at h
      cases h
    · cases hauth
  | none =>
    rw [hauth] at h
    cases hpeer : checkPeerAuth R (peerPull token localNodeId after limit) with
    | some refused =>
      rw [hpeer] at h
      unfold checkPeerAuth at hpeer
      simp only at hpeer
      split at hpeer
      · rw [← Option.some.inj hpeer] at h
        cases h
      · cases hpeer
    | none => rfl

theorem entryCursor_wire (entry : CacheExchangeEntry) :
    entryCursor entry.wire = some entry.cursor := by
  unfold entryCursor CacheExchangeEntry.wire
  rw [JsonValue.get?_normalize]
  exact RecordLemmas.asNonNegativeInt_normalize entry.cursor

theorem nextCursor_of_body {body : JsonValue} {next : Nat} (after : Nat)
    (h : body.numField? "next_cursor" = some (.ofNat next)) :
    CacheSyncWorker.toCursor (parseCacheExchangePullBody body).nextCursor after = next := by
  unfold parseCacheExchangePullBody
  simp only [h, Option.bind_some, JsNumber.ofNat, JsNumber.truncInt?_ofInt, Option.getD_some]
  unfold CacheSyncWorker.toCursor
  rw [JsNumber.truncInt?_ofInt]
  simp only
  omega

end PeeringLemmas

/-- What a relay answers to a pull of the worker is a page of its records, and it is such a batch. -/
theorem pullAnswer_serve {peer : Relay C} {p : ServiceState C} (hinv : RecordsInvariant p)
    {D : Type} (R : Relay D) {env : Env} {token localNodeId : String} {after limit : Nat}
    (h : (serve peer (peerPull token localNodeId after limit) env p).1.status = 200) :
    ∃ items next,
      CursorLog.IsPage CacheExchangeRecord.cursor (exportsRecord (peerPullArgs localNodeId 0 0))
        p.cacheExchangeRecords after (max 1 limit) items next ∧
      PullAnswer R after (serve peer (peerPull token localNodeId after limit) env p).1.wire
        (items.map fun record => (exportEntry record).wire) ∧
      CacheSyncWorker.toCursor (parseCacheExchangePullBody
        (serve peer (peerPull token localNodeId after limit) env p).1.wire.body).nextCursor after =
          next := by
  obtain ⟨items, hitems, hpage⟩ := isPage_select hinv.ascending
    (peerPullArgs localNodeId after limit)
  rw [serve_peerPull h]
  generalize (selectCacheExchangeEntries p.cacheExchangeRecords
    (peerPullArgs localNodeId after limit)) = page at hitems hpage
  obtain ⟨entries, next⟩ := page
  change entries = _ at hitems
  subst hitems
  have hlist : (.obj [
      ("ok", .bool true),
      ("protocol", .str "cache.exchange.v1"),
      ("node_id", .str peer.config.relayNodeId),
      ("next_cursor", .ofNat next),
      ("returned_count", .ofNat (items.map exportEntry).length),
      ("entries", .arr ((items.map exportEntry).map CacheExchangeEntry.toJson))] :
        JsonValue).normalize.arrField? "entries" =
      some (items.map fun record => (exportEntry record).wire) := by
    show some (JsonValue.normalizeItems _) = _
    rw [JsonValue.normalizeItems_eq_map, List.map_map, List.map_map]
    rfl
  have hlimit : max 1 (max 1 limit) = max 1 limit := by omega
  refine ⟨items, next, ⟨hpage.toIsSegment, hlimit ▸ hpage.length_le, hlimit ▸ hpage.complete,
    hpage.next_mem⟩, ⟨rfl, hlist, fun value hvalue => ?_, fun value hvalue => ?_⟩,
    nextCursor_of_body after rfl⟩
  · obtain ⟨record, hrecord, rfl⟩ := List.mem_map.mp hvalue
    exact ⟨_, parse_wire (hinv.sound record (hpage.mem_iff.mp hrecord).1) _⟩
  · obtain ⟨record, hrecord, rfl⟩ := List.mem_map.mp hvalue
    obtain ⟨-, -, hlt, hle⟩ := hpage.mem_iff.mp hrecord
    exact ⟨record.cursor, entryCursor_wire _, hlt, hle.trans_eq (nextCursor_of_body after rfl).symm⟩

end

end BitRelay
