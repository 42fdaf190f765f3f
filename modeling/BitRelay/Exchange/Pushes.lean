import BitRelay.Exchange.Records

/-!
# Pushes

What a cache-exchange push does, entry by entry. An entry whose room token the request lacks ends
the whole push; every other entry is refused, found known, or written.

Results:
1. `serve_push`: the response of a push and the state it leaves.
2. `run_pushEntry_barred`, `pushEntry_cases`: what one entry does.
3. `run_pushEntries_open`, `run_pushEntries_barred`: the loop takes every entry in turn, unless one
   of them is barred.
-/

namespace BitRelay

section
variable {C : Type}

/-! ## The request -/

/-- A push of the entries that passes the gates in front of the loop. -/
structure PushRequest (R : Relay C) (request : Request) (entries : List JsonValue) : Prop where
  path : request.pathname = Endpoint.cacheExchangePush.path
  method : request.method = "POST"
  auth : checkAuth R request = none
  peerAuth : checkPeerAuth R request = none
  body : ∃ parsed, request.body.json = some parsed ∧ parsed.arrField? "entries" = some entries

/-- The response of a push that goes through. -/
def pushResponse (R : Relay C) (counts : PushCounts) (cursor : Nat) : Response :=
  ⟨200, .obj [
    ("ok", .bool true),
    ("protocol", .str "cache.exchange.v1"),
    ("node_id", .str R.config.relayNodeId),
    ("accepted", .ofNat counts.accepted),
    ("duplicates", .ofNat counts.duplicates),
    ("conflicts", .ofNat counts.conflicts),
    ("rejected", .ofNat counts.rejected),
    ("rejection_counts", .obj (counts.rejectionCounts.entries.map fun e =>
      (e.1.toString, .ofNat e.2))),
    ("next_cursor", .ofNat cursor)]⟩

variable {R : Relay C} {request : Request} {s s' : ServiceState C}

theorem serve_push {entries : List JsonValue} (h : PushRequest R request entries) (env : Env)
    (s : ServiceState C) :
    serve R request env s = match (pushEntries R request entries 0 .zero).run s with
      | (.ok counts, s') => (pushResponse R counts s'.cacheExchangeCursor, s')
      | (.error response, s') => (response, s') := by
  obtain ⟨parsed, hbody, hentries⟩ := h.body
  have hobject : (requireObject request : Handler C JsonValue) = pure parsed := by
    unfold requireObject
    rw [hbody]
    cases parsed with
    | obj fields => rfl
    | null | bool _ | num _ | str _ | arr _ => cases hentries
  have hlist : (requireEntries parsed : Handler C (List JsonValue)) = pure entries := by
    unfold requireEntries
    rw [hentries]
    rfl
  have hmethod : (requireMethod request "POST" : Handler C Unit) = pure () := by
    unfold requireMethod Proc.failIf
    rw [if_neg (not_not.mpr h.method)]
  have hfetch : fetch R request env = (do
      let counts ← pushEntries R request entries 0 .zero
      let cursor ← Proc.gets fun s => s.cacheExchangeCursor
      return pushResponse R counts cursor) := by
    unfold fetch
    rw [h.path, if_neg (by decide), if_neg (by decide),
      show Endpoint.ofPath Endpoint.cacheExchangePush.path = some .cacheExchangePush from rfl]
    show (Proc.failWith (checkAuth R request) >>= fun _ => handleCacheExchangePush R request) = _
    unfold handleCacheExchangePush
    rw [h.auth, h.peerAuth, hmethod, hobject]
    show (requireEntries parsed >>= fun entries => _) = _
    rw [hlist]
    rfl
  unfold serve Handler.serve
  rw [hfetch, Proc.run_bind]
  match (pushEntries R request entries 0 .zero).run s with
  | (.ok counts, s') => rfl
  | (.error response, s') => rfl

/-! ## One entry -/

/-- The entry has proper names and is for a room whose token the request lacks. -/
def Barred (R : Relay C) (request : Request) (incoming : IncomingExchangeEntry) : Prop :=
  refusesEntryName incoming = none ∧ checkRoomToken R request incoming.room ≠ none

/-- The reason why an entry is counted as rejected. -/
def refusesEntry (R : Relay C) (incoming : IncomingExchangeEntry) :
    Option CacheExchangeRejectionReason :=
  (refusesEntryName incoming).or (refusesEntryHops R incoming)

variable {value : JsonValue} {incoming : IncomingExchangeEntry} {counts : PushCounts}

theorem checkRoomToken_cases (R : Relay C) (request : Request) (room : String) :
    checkRoomToken R request room = none ∨
      checkRoomToken R request room = some (toErrorResponse "forbidden" 403) := by
  unfold checkRoomToken
  split
  · exact .inl rfl
  · simp only
    split
    · exact .inr rfl
    · exact .inl rfl

/-- A barred entry ends the push. -/
theorem run_pushEntry_barred
    (hread : parseIncomingCacheExchangeEntry value R.config.cacheExchangeMaxHops = .ok incoming)
    (h : Barred R request incoming) (i : Nat) (counts : PushCounts) (s : ServiceState C) :
    (pushEntry R request i value counts).run s = (.error (toErrorResponse "forbidden" 403), s) := by
  have htoken := (checkRoomToken_cases R request incoming.room).resolve_left h.2
  simp only [pushEntry, hread, Except.mapError, Proc.ofExcept, pure_bind, h.1, htoken]
  rfl

/-- What an entry that is neither refused nor barred leaves behind. -/
structure Imported (incoming : IncomingExchangeEntry) (counts counts' : PushCounts)
    (s s' : ServiceState C) : Prop where
  rejected : counts'.rejected = counts.rejected
  rejectionCounts : counts'.rejectionCounts = counts.rejectionCounts
  holds : s'.Holds incoming.room incoming.id
  accepted : counts'.accepted = counts.accepted + 1 ↔ ¬ s.Holds incoming.room incoming.id

namespace PushLemmas

theorem findEnvelopeById_isSome (s : ServiceState C) (room id : String) :
    (findEnvelopeById (s.roomOf room) id).isSome = true ↔ s.Holds room id := by
  unfold findEnvelopeById ServiceState.Holds
  rw [List.find?_isSome]
  simp only [beq_iff_eq]

theorem holds_congr (h : SameLog s s') (room id : String) :
    s'.Holds room id ↔ s.Holds room id := by
  unfold ServiceState.Holds
  rw [h.messages]

theorem run_importEntry (hname : refusesEntryName incoming = none) (counts : PushCounts)
    (s : ServiceState C) :
    ∃ counts' s', (importEntry R incoming counts).run s = (.ok counts', s') ∧
      Imported incoming counts counts' s s' := by
  have htopic := (RecordLemmas.refusesEntryName_eq_none_iff.mp hname).2
  have hopen : SameLog s (s.openRoom incoming.room) := .of_messages rfl
  unfold importEntry
  rw [Proc.run_bind, Proc.run_update]
  dsimp only
  have hsome := findEnvelopeById_isSome s incoming.room incoming.id
  cases hfind : findEnvelopeById (s.roomOf incoming.room) incoming.id with
  | some existing =>
    rw [hfind] at hsome
    have hholds := hsome.mp rfl
    dsimp only
    refine ⟨_, _, rfl, ?_, ?_, (holds_congr hopen _ _).mpr hholds, ?_⟩
    · cases classifyCacheExchangeCollision R.platform existing incoming.envelope <;> rfl
    · cases classifyCacheExchangeCollision R.platform existing incoming.envelope <;> rfl
    · refine ⟨fun h => ?_, fun h => absurd hholds h⟩
      cases hclass : classifyCacheExchangeCollision R.platform existing incoming.envelope <;>
        rw [hclass] at h <;> exact absurd h (Nat.ne_of_lt (Nat.lt_succ_self _))
  | none =>
    rw [hfind] at hsome
    have hfresh : ¬ s.Holds incoming.room incoming.id := fun h => by cases hsome.mpr h
    -- With a valid topic and a fresh id the write is accepted.
    obtain ⟨cursor, hresult⟩ : ∃ cursor, (ServiceState.publishEntry R incoming.room
        incoming.sender incoming.topic incoming.id (incoming.signature.getD "") incoming.payload
        incoming.origin incoming.hopCount incoming.maxHops (s.openRoom incoming.room)).1 =
          .accepted incoming.write.envelope cursor := by
      rcases write_cases R incoming.write (s.openRoom incoming.room) with
        ⟨hbad, -, -⟩ | ⟨-, hholds, -, -⟩ | ⟨cursor, hresult, -⟩
      · exact absurd (hbad.symm.trans htopic) (by decide)
      · exact absurd ((holds_congr hopen _ _).mp hholds) hfresh
      · exact ⟨cursor, hresult⟩
    refine ⟨_, _, rfl, ?_, ?_, ?_, fun _ => hfresh, fun _ => ?_⟩
    · rw [hresult]
      rfl
    · rw [hresult]
      rfl
    · refine (holds_congr (persistResult_sameLog _ _) _ _).mpr ?_
      exact holds_write (w := incoming.write) htopic
    · rw [hresult]
      rfl

end PushLemmas

open PushLemmas

/-- An entry that is not barred is counted as rejected, or imported. -/
theorem pushEntry_cases
    (hread : parseIncomingCacheExchangeEntry value R.config.cacheExchangeMaxHops = .ok incoming)
    (h : ¬ Barred R request incoming) (i : Nat) (counts : PushCounts) (s : ServiceState C) :
    (∃ reason, refusesEntry R incoming = some reason ∧
      (pushEntry R request i value counts).run s = (.ok (counts.reject reason), s)) ∨
    (refusesEntry R incoming = none ∧ ∃ counts' s',
      (pushEntry R request i value counts).run s = (.ok counts', s') ∧
        Imported incoming counts counts' s s') := by
  unfold refusesEntry
  simp only [pushEntry, hread, Except.mapError, Proc.ofExcept, pure_bind]
  cases hname : refusesEntryName incoming with
  | some reason => exact .inl ⟨reason, rfl, rfl⟩
  | none =>
    have htoken : checkRoomToken R request incoming.room = none := by
      by_contra htoken
      exact h ⟨hname, htoken⟩
    rw [htoken]
    cases hhops : refusesEntryHops R incoming with
    | some reason => exact .inl ⟨reason, rfl, rfl⟩
    | none => exact .inr ⟨rfl, run_importEntry hname counts s⟩

/-! ## The loop -/

/-- An entry that can be read and that is not barred. -/
def Open (R : Relay C) (request : Request) (value : JsonValue) : Prop :=
  ∃ incoming, parseIncomingCacheExchangeEntry value R.config.cacheExchangeMaxHops = .ok incoming ∧
    ¬ Barred R request incoming

/-- What one open entry does to the logs. -/
structure EntryStep (R : Relay C) (value : JsonValue) (s s' : ServiceState C) : Prop where
  log : LogStep R (fun w => ∃ incoming, PushedWrite R value incoming w) s s'
  holds : ∀ incoming,
    parseIncomingCacheExchangeEntry value R.config.cacheExchangeMaxHops = .ok incoming →
    refusesEntry R incoming = none → s'.Holds incoming.room incoming.id

theorem run_pushEntry_open (h : Open R request value) (i : Nat) (counts : PushCounts)
    (s : ServiceState C) :
    ∃ counts' s', (pushEntry R request i value counts).run s = (.ok counts', s') ∧
      EntryStep R value s s' := by
  obtain ⟨incoming, hread, hopen⟩ := h
  have hlog := once_pushEntry (R := R) request i value counts s
  rcases pushEntry_cases hread hopen i counts s with
    ⟨reason, hreason, hrun⟩ | ⟨hnone, counts', s', hrun, himported⟩
  · rw [hrun] at hlog
    refine ⟨_, s, hrun, hlog, fun other hother hnot => ?_⟩
    cases hread.symm.trans hother
    rw [hreason] at hnot
    cases hnot
  · rw [hrun] at hlog
    refine ⟨counts', s', hrun, hlog, fun other hother _ => ?_⟩
    cases hread.symm.trans hother
    exact himported.holds

/-- The rule of the loop: what every open entry preserves holds behind it. -/
theorem run_pushEntries_open {entries : List JsonValue} {P : List JsonValue → ServiceState C → Prop}
    (hstep : ∀ done value s s', EntryStep R value s s' → P done s → P (done ++ [value]) s')
    (hopen : ∀ value ∈ entries, Open R request value) (done : List JsonValue) (i : Nat)
    (counts : PushCounts) (s : ServiceState C) (h : P done s) :
    ∃ counts' s', (pushEntries R request entries i counts).run s = (.ok counts', s') ∧
      P (done ++ entries) s' := by
  induction entries generalizing done i counts s with
  | nil => exact ⟨counts, s, rfl, (List.append_nil done).symm ▸ h⟩
  | cons value rest ih =>
    obtain ⟨counts₁, s₁, hrun, hentry⟩ :=
      run_pushEntry_open (hopen value List.mem_cons_self) i counts s
    obtain ⟨counts₂, s₂, hrest, hP⟩ := ih (fun v hv => hopen v (List.mem_cons_of_mem _ hv))
      (done ++ [value]) (i + 1) counts₁ s₁ (hstep done value s s₁ hentry h)
    refine ⟨counts₂, s₂, ?_, ?_⟩
    · unfold pushEntries
      rw [Proc.run_bind_of_ok hrun]
      exact hrest
    · rw [List.append_assoc, List.singleton_append] at hP
      exact hP

/-- A barred entry ends the push, wherever it stands among entries that can be read. -/
theorem run_pushEntries_barred {entries : List JsonValue}
    (hread : ∀ value ∈ entries, ∃ incoming,
      parseIncomingCacheExchangeEntry value R.config.cacheExchangeMaxHops = .ok incoming)
    (hbarred : ∃ value ∈ entries, ¬ Open R request value) (i : Nat) (counts : PushCounts)
    (s : ServiceState C) :
    ∃ s', (pushEntries R request entries i counts).run s =
      (.error (toErrorResponse "forbidden" 403), s') := by
  induction entries generalizing i counts s with
  | nil =>
    obtain ⟨value, hvalue, -⟩ := hbarred
    exact absurd hvalue List.not_mem_nil
  | cons value rest ih =>
    obtain ⟨incoming, hincoming⟩ := hread value List.mem_cons_self
    unfold pushEntries
    by_cases hvalue : Barred R request incoming
    · exact ⟨s, Proc.run_bind_of_error (run_pushEntry_barred hincoming hvalue i counts s) _⟩
    · obtain ⟨counts₁, s₁, hrun, -⟩ := run_pushEntry_open ⟨incoming, hincoming, hvalue⟩ i counts s
      rw [Proc.run_bind_of_ok hrun]
      refine ih (fun v hv => hread v (List.mem_cons_of_mem _ hv)) ?_ (i + 1) counts₁ s₁
      obtain ⟨v, hv, hnot⟩ := hbarred
      rcases List.mem_cons.mp hv with rfl | hv
      · exact absurd ⟨incoming, hincoming, hvalue⟩ hnot
      · exact ⟨v, hv, hnot⟩

/-- The push of one entry that does not end it. -/
theorem serve_push_single (h : PushRequest R request [value]) (env : Env) {counts : PushCounts}
    (hrun : (pushEntry R request 0 value .zero).run s = (.ok counts, s')) :
    serve R request env s = (pushResponse R counts s'.cacheExchangeCursor, s') := by
  rw [serve_push h]
  unfold pushEntries
  rw [Proc.run_bind_of_ok hrun]
  rfl

end

/-! ## On the toy host -/

/-- A relay on the toy host that takes unsigned messages. -/
def PeerRelay.toy (nodeId : String) (hnode : isValidNodeId nodeId = true) (maxHops : Nat)
    (hmax : 1 ≤ maxHops) : PeerRelay Unit where
  toRelay := .toy { RelayConfig.default with
    requireSignatures := false
    relayNodeId := nodeId
    cacheExchangeMaxHops := maxHops }
  nodeId_valid := hnode
  maxHops_pos := hmax

theorem isValidNodeId_relayA : isValidNodeId "relay-a" = true := by decide

theorem isValidNodeId_relayB : isValidNodeId "relay-b" = true := by decide

theorem toyHops_pos : 1 ≤ 3 := by decide

theorem freeText_uuid : FreeText (Env.at 0).randomUUID := by decide

def toyPublish (id : String) : HostCall where
  request := .post "/api/v1/publish" [("sender", "alice"), ("id", id)] [] ⟨"null", some .null⟩
  env := .at 0
  uuid := freeText_uuid

def toyPush (entries : List JsonValue) : Request :=
  .post "/api/v1/cache/exchange/push" [] [] ⟨"", some (.obj [("entries", .arr entries)])⟩

end BitRelay
