import BitRelay.Cache.RoomViews
import BitRelay.Service.Changes

/-!
# Room tokens and confidentiality

A room token should keep the content of its room from whoever does not present
it. Every reader of a room checks the token of that room. The exchange log holds
the messages of all rooms, and its pull checks a token only when the request
names a room: without the parameter the entries of every room are returned. With
it, the cursor that the pull returns still counts the entries of all rooms.

Results:
1. `sameAnswer_handle`: any other `GET` gives one response on states that agree
   outside the room.
2. `confidential_iff`: a request without the token of the room tells nothing
   about it if and only if it is not a pull that is answered; and nothing but how
   many entries there were, if and only if it is not one without a room.
-/

namespace BitRelay

section
variable {C : Type} (R : Relay C) {r : String} (V : RoomView R.cacheAdapter r)

/-! ## Definitions -/

/-- The states differ only in the content of room `r`: in its messages, acknowledgements, presence
and reviews, in the exchange records of its messages, how many there were, and in what is cached of
them. -/
structure AgreeOutside (s t : ServiceState C) : Prop where
  rooms : ∀ room, room ≠ r → s.roomOf room = t.roomOf room
  senderRateCounts : s.senderRateCounts = t.senderRateCounts
  ipRateCounts : s.ipRateCounts = t.ipRateCounts
  roomRateCounts : s.roomRateCounts = t.roomRateCounts
  keyRegistry : s.keyRegistry = t.keyRegistry
  noncesBySender : s.noncesBySender = t.noncesBySender
  cacheExchangeRecords : s.cacheExchangeRecords.filter (fun e => e.envelope.room ≠ r) =
    t.cacheExchangeRecords.filter (fun e => e.envelope.room ≠ r)
  githubIssueSync : s.githubIssueSync = t.githubIssueSync
  cache : V.agree s.cache t.cache

/-- Whoever sends the request cannot tell states apart that are reached from sound caches and differ
only in room `r`. -/
def Confidential (request : Request) : Prop :=
  ∀ (cache cache' : C) (calls calls' : List Call) (env : Env), V.sound cache → V.sound cache' →
    AgreeOutside R V (afterCalls R cache calls) (afterCalls R cache' calls') →
    (serve R request env (afterCalls R cache calls)).1 =
      (serve R request env (afterCalls R cache' calls')).1

/-- The same of states in which as many exchange records have been written. -/
def ConfidentialAtCounter (request : Request) : Prop :=
  ∀ (cache cache' : C) (calls calls' : List Call) (env : Env), V.sound cache → V.sound cache' →
    AgreeOutside R V (afterCalls R cache calls) (afterCalls R cache' calls') →
    (afterCalls R cache calls).cacheExchangeCursor =
      (afterCalls R cache' calls').cacheExchangeCursor →
    (serve R request env (afterCalls R cache calls)).1 =
      (serve R request env (afterCalls R cache' calls')).1

/-- A pull that gets past the tokens of the relay, and past that of the room it names. -/
def AnsweredPull (request : Request) : Prop :=
  request.pathname = "/api/v1/cache/exchange/pull" ∧ checkAuth R request = none ∧
    checkPeerAuth R request = none ∧ checkPullRoom R request = none

/-- A pull without a room that gets past the tokens of the relay. -/
def UnfilteredPull (request : Request) : Prop :=
  AnsweredPull R request ∧ pullRoom request = none

instance (request : Request) : Decidable (AnsweredPull R request) :=
  inferInstanceAs (Decidable (_ ∧ _ ∧ _ ∧ _))

instance (request : Request) : Decidable (UnfilteredPull R request) :=
  inferInstanceAs (Decidable (_ ∧ _))

/-! ## The cursors of the exchange records -/

/-- The records carry the last cursors up to the current one. -/
def CursorInvariant (s : ServiceState C) : Prop :=
  s.cacheExchangeRecords.map CacheExchangeRecord.cursor =
    (List.range' 1 s.cacheExchangeCursor).drop
      (s.cacheExchangeCursor - R.config.cacheExchangeMaxRecords)

variable {R V}

namespace ConfidentialityLemmas

theorem cursors_record (s : ServiceState C) (envelope : Envelope) (origin : String)
    (hopCount maxHops : Nat) (h : CursorInvariant R s) :
    CursorInvariant R (s.recordCacheExchange R envelope origin hopCount maxHops) := by
  unfold CursorInvariant at *
  simp only [ServiceState.recordCacheExchange, List.map_drop, List.map_append, List.map_cons,
    List.map_nil, List.length_append, List.length_singleton]
  have hlength : s.cacheExchangeRecords.length =
      s.cacheExchangeCursor - (s.cacheExchangeCursor - R.config.cacheExchangeMaxRecords) := by
    have hmap := congrArg List.length h
    simpa using hmap
  have hnext : List.range' 1 (s.cacheExchangeCursor + 1) =
      List.range' 1 s.cacheExchangeCursor ++ [s.cacheExchangeCursor + 1] := by
    rw [List.range'_concat]
    simp [Nat.add_comm]
  rw [h, hnext, ← List.drop_append_of_le_length (by simp), List.drop_drop, hlength]
  congr 1
  omega

theorem cursors_change {A : Allowed C} {s s' : ServiceState C} (h : Change R A s s')
    (hs : CursorInvariant R s) : CursorInvariant R s' := by
  cases h with
  | publish room sender topic id signature payload origin hopCount maxHops _ =>
    unfold ServiceState.publishEntry
    split
    split
    · exact cursors_record _ _ _ _ _ hs
    · exact hs
    · exact hs
  | annotateKey sender f _ =>
    unfold ServiceState.updateKey
    split <;> exact hs
  | rekey sender f _ =>
    unfold ServiceState.updateKey
    split <;> exact hs
  | rates | room | issueSync | cache | prune | bindKey | remember => exact hs

theorem cursors_afterCalls (cache : C) (calls : List Call) :
    CursorInvariant R (afterCalls R cache calls) := by
  refine runFrom_invariant (fun s call hs => ?_) calls ?_
  · exact serve_keeps (fun _ _ h hs => cursors_change h hs) call.request call.env hs
  · simp [CursorInvariant, ServiceState.init]

/-! ## Sound caches -/

theorem sound_change (V : RoomView R.cacheAdapter r) {A : Allowed C} {s s' : ServiceState C}
    (h : Change R A s s') (hs : V.sound s.cache) : V.sound s'.cache := by
  cases h with
  | cache cache hstep => exact V.sound_step hs hstep
  | publish room sender topic id signature payload origin hopCount maxHops _ =>
    unfold ServiceState.publishEntry
    split
    split
    · exact hs
    · exact hs
    · exact hs
  | annotateKey sender f _ =>
    unfold ServiceState.updateKey
    split <;> exact hs
  | rekey sender f _ =>
    unfold ServiceState.updateKey
    split <;> exact hs
  | rates | room | issueSync | prune | bindKey | remember => exact hs

theorem sound_afterCalls (V : RoomView R.cacheAdapter r) {cache : C} (h : V.sound cache)
    (calls : List Call) : V.sound (afterCalls R cache calls).cache := by
  refine runFrom_invariant (I := fun s : ServiceState C => V.sound s.cache)
    (fun s call hs => ?_) calls h
  exact serve_keeps (fun _ _ h hs => sound_change V h hs) call.request call.env hs

/-! ## Records position by position -/

/-- Position by position the records have one cursor, and they are equal or both of room `r`. -/
def RecordsAgree (r : String) (l l' : List CacheExchangeRecord) : Prop :=
  List.Forall₂ (fun e e' => e.cursor = e'.cursor ∧
    (e = e' ∨ e.envelope.room = r ∧ e'.envelope.room = r)) l l'

theorem recordsAgree_of_filter {l l' : List CacheExchangeRecord}
    (hcursors : l.map CacheExchangeRecord.cursor = l'.map CacheExchangeRecord.cursor)
    (hnodup : (l.map CacheExchangeRecord.cursor).Nodup)
    (hfilter : l.filter (fun e => e.envelope.room ≠ r) =
      l'.filter (fun e => e.envelope.room ≠ r)) : RecordsAgree r l l' := by
  induction l generalizing l' with
  | nil =>
    rw [List.map_nil, eq_comm, List.map_eq_nil_iff] at hcursors
    rw [hcursors]
    exact .nil
  | cons a rest ih =>
    cases l' with
    | nil => cases hcursors
    | cons b rest' =>
      simp only [List.map_cons, List.cons.injEq] at hcursors
      obtain ⟨hhead, htail⟩ := hcursors
      rw [List.map_cons, List.nodup_cons] at hnodup
      by_cases ha : a.envelope.room = r <;> by_cases hb : b.envelope.room = r
      · rw [List.filter_cons_of_neg (by simpa using ha), List.filter_cons_of_neg (by simpa using hb)]
          at hfilter
        exact .cons ⟨hhead, .inr ⟨ha, hb⟩⟩ (ih htail hnodup.2 hfilter)
      · -- A record outside the room under the cursor of one in the room.
        rw [List.filter_cons_of_neg (by simpa using ha), List.filter_cons_of_pos (by simpa using hb)]
          at hfilter
        refine absurd ?_ hnodup.1
        have hmem : b ∈ rest.filter (fun e => e.envelope.room ≠ r) := by
          rw [hfilter]
          exact List.mem_cons_self
        exact hhead ▸ List.mem_map.mpr ⟨b, (List.mem_filter.mp hmem).1, rfl⟩
      · rw [List.filter_cons_of_pos (by simpa using ha), List.filter_cons_of_neg (by simpa using hb)]
          at hfilter
        rw [htail] at hnodup
        refine absurd ?_ hnodup.1
        have hmem : a ∈ rest'.filter (fun e => e.envelope.room ≠ r) := by
          rw [← hfilter]
          exact List.mem_cons_self
        exact List.mem_map.mpr ⟨a, (List.mem_filter.mp hmem).1, rfl⟩
      · rw [List.filter_cons_of_pos (by simpa using ha), List.filter_cons_of_pos (by simpa using hb),
          List.cons.injEq] at hfilter
        exact .cons ⟨hhead, .inl hfilter.1⟩ (ih htail hnodup.2 hfilter.2)

/-- A page of another room meets only records that are equal, and skips the others. -/
theorem selectLoop_agree {args : SelectExchangeEntriesArgs} {room : String}
    (hroom : args.room = some room) (hne : room ≠ r) (limit : Nat)
    {l l' : List CacheExchangeRecord} (h : RecordsAgree r l l') (entries : List CacheExchangeEntry)
    (nextCursor : Nat) :
    selectLoop args limit l entries nextCursor = selectLoop args limit l' entries nextCursor := by
  induction h generalizing entries nextCursor with
  | nil => rfl
  | @cons a b rest rest' hab _ ih =>
    obtain ⟨hcursor, rfl | ⟨ha, hb⟩⟩ := hab
    · simp only [selectLoop, ih]
    · have hskip : ∀ e : CacheExchangeRecord, e.envelope.room = r →
          exportsRecord args e = false := by
        intro e he
        simp [exportsRecord, hroom, he, Ne.symm hne]
      simp only [selectLoop, hcursor, hskip a ha, hskip b hb, ih, Bool.false_eq_true, if_false]

end ConfidentialityLemmas

open ConfidentialityLemmas

/-! ## One request -/

/-- Agreement of states with sound caches. -/
structure Alike (V : RoomView R.cacheAdapter r) (s t : ServiceState C) : Prop
    extends AgreeOutside R V s t where
  sound : V.sound s.cache
  sound' : V.sound t.cache

/-- Agreement, with the records compared position by position. -/
def Indistinct (V : RoomView R.cacheAdapter r) (s t : ServiceState C) : Prop :=
  Alike V s t ∧ RecordsAgree r s.cacheExchangeRecords t.cacheExchangeRecords

theorem indistinct_of_alike {s t : ServiceState C} (h : Alike V s t)
    (hcursor : s.cacheExchangeCursor = t.cacheExchangeCursor) (hs : CursorInvariant R s)
    (ht : CursorInvariant R t) : Indistinct V s t := by
  refine ⟨h, recordsAgree_of_filter ?_ ?_ h.cacheExchangeRecords⟩
  · rw [hs, ht, hcursor]
  · rw [hs]
    exact (List.nodup_range' 1).sublist (List.drop_sublist _ _)

section Request
variable {token : String} (htoken : R.config.roomTokens.get? r = some token)
variable {request : Request} (hget : request.method = "GET")
  (hno : readRoomToken request ≠ token)
variable {I : ServiceState C → ServiceState C → Prop} (hI : ∀ s t, I s t → Alike V s t)

include htoken hno in
/-- A room whose token check succeeds is not room `r`. -/
theorem room_ne_of_checked {room : String} (h : checkRoomToken R request room = none) :
    room ≠ r := by
  rintro rfl
  simp [checkRoomToken, htoken, timingSafeEqual, hno] at h

include htoken hno in
theorem sameAnswer_requireRoom {α : Type} {k : String → Handler C α}
    (h : ∀ room, isValidRoomName room = true → room ≠ r → Proc.SameAnswer I (k room)) :
    Proc.SameAnswer I (requireRoom R request >>= k) := by
  unfold requireRoom
  simp only [bind_assoc, pure_bind]
  exact Proc.SameAnswer.failIf_bind fun hvalid => Proc.SameAnswer.failWith_bind fun hchecked =>
    h _ (eq_true_of_ne_false hvalid) (room_ne_of_checked htoken hno hchecked)

theorem sameAnswer_requireParam {α : Type} {key : String} {k : String → Handler C α}
    (h : ∀ value, Proc.SameAnswer I (k value)) :
    Proc.SameAnswer I (requireParam request key >>= k) := by
  unfold requireParam
  simp only [bind_assoc, pure_bind]
  exact Proc.SameAnswer.failIf_bind fun _ => h _

include hI in
theorem sameAnswer_readRoom {room : String} (hne : room ≠ r) :
    Proc.SameAnswer I (readRoom room : Handler C RoomState) :=
  Proc.SameAnswer.update fun s t h => (hI s t h).rooms room hne

include hget in
/-- The endpoints that write refuse a `GET`. -/
theorem answers_writer {endpoint : Endpoint} (env : Env) (h : endpoint ∈ [.keyRotate,
    .keyVerifyGitHub, .githubWebhook, .githubWebhookDlqRetry, .triggerCallback, .cacheExchangePush,
    .publish, .inboxAck, .presenceHeartbeat]) :
    endpoint.handle R request env = Proc.answer methodNotAllowedResponse := by
  have hpost : (requireMethod request "POST" : Handler C Unit) =
      Proc.answer methodNotAllowedResponse := by
    unfold requireMethod Proc.failIf
    rw [if_pos (by rw [hget]; decide)]
  simp only [List.mem_cons, List.not_mem_nil, or_false] at h
  rcases h with rfl | rfl | rfl | rfl | rfl | rfl | rfl | rfl | rfl
  · simp only [Endpoint.handle, handleKeyRotate, rotateSigned, hpost, Proc.answer_bind]
  · simp only [Endpoint.handle, handleKeyVerifyGitHub, hpost, Proc.answer_bind]
  · simp only [Endpoint.handle, handleGitHubWebhook, hpost, Proc.answer_bind]
  · simp only [Endpoint.handle, handleGitHubWebhookDlqRetry, hpost, Proc.answer_bind]
  · simp only [Endpoint.handle, handleTriggerCallback, hpost, Proc.answer_bind]
  · simp only [Endpoint.handle, handleCacheExchangePush, hpost, Proc.answer_bind]
  · simp only [Endpoint.handle, handlePublish, publishSigned, publishArrive, hpost,
      Proc.answer_bind]
  · simp only [Endpoint.handle, handleInboxAck, hpost, Proc.answer_bind]
  · simp only [Endpoint.handle, handlePresenceHeartbeat, hpost, Proc.answer_bind]

include htoken hno hI in
theorem sameAnswer_presence (env : Env) :
    Proc.SameAnswer I (handlePresence R request env) := by
  refine sameAnswer_requireRoom htoken hno fun room _ hne => ?_
  refine Proc.SameAnswer.ite (fun _ => ?_) fun _ => Proc.SameAnswer.ite (fun _ => ?_) fun _ => ?_
  · exact (Proc.SameAnswer.update fun s t h => by simp only [(hI s t h).rooms room hne]).map _
  · exact sameAnswer_requireParam fun participant =>
      (Proc.SameAnswer.update fun s t h => by simp only [(hI s t h).rooms room hne]).map _
  · exact Proc.SameAnswer.answer _

include htoken hget hno hI in
theorem sameAnswer_review (env : Env) :
    Proc.SameAnswer I (handleReview R request env) := by
  refine sameAnswer_requireRoom htoken hno fun room _ hne => ?_
  rw [if_pos hget]
  exact sameAnswer_requireParam fun prId => Proc.SameAnswer.failIf_bind fun _ =>
    (sameAnswer_readRoom hI hne).map _

/-- The room is opened before its token is checked, which no response shows. -/
theorem sameAnswer_webSocket (env : Env) :
    Proc.SameAnswer I (handleWebSocket R request env) := by
  refine Proc.SameAnswer.failIf_bind fun _ s t _ => ?_
  change ((Proc.failWith _ >>= _ : Handler C Response).run _).1 =
    ((Proc.failWith _ >>= _ : Handler C Response).run _).1
  have hrest : Proc.SameAnswer (fun _ _ => True) (do
      Proc.failWith (checkRoomToken R request (normalizeRoom (request.param "room")))
      Proc.failIf (env.webSocketsFull = true) (toErrorResponse "too many connections" 503)
      Proc.failIf (R.platform.toLowerCase ((request.header "upgrade").getD "") ≠ "websocket")
        ⟨426, .str "Expected WebSocket"⟩
      return env.webSocketResponse : Handler C Response) :=
    Proc.SameAnswer.failWith_bind fun _ => Proc.SameAnswer.failIf_bind fun _ =>
      Proc.SameAnswer.failIf_bind fun _ => Proc.SameAnswer.pure _
  exact hrest _ _ trivial

include htoken hget hno hI in
/-- Every endpoint but the pull answers the same. -/
theorem sameAnswer_handle (env : Env) (endpoint : Endpoint)
    (hpull : endpoint = .cacheExchangePull →
      Proc.SameAnswer I (handleCacheExchangePull R request)) :
    Proc.SameAnswer I (endpoint.handle R request env) := by
  cases endpoint with
  | keyRotate | keyVerifyGitHub | githubWebhook | githubWebhookDlqRetry | triggerCallback
    | cacheExchangePush | publish | inboxAck | presenceHeartbeat =>
    rw [answers_writer hget env (by decide)]
    exact Proc.SameAnswer.answer _
  | keyInfo =>
    exact Proc.SameAnswer.failIf_bind fun _ => sameAnswer_requireParam fun sender =>
      Proc.SameAnswer.gets_bind (fun s t h => by rw [(hI s t h).keyRegistry]) fun record =>
        Proc.SameAnswer.ofExcept_bind fun _ _ => Proc.SameAnswer.pure _
  | githubWebhookDlq =>
    exact Proc.SameAnswer.failIf_bind fun _ =>
      (Proc.SameAnswer.gets fun s t h => by rw [(hI s t h).githubIssueSync]).map _
  | triggerResults =>
    exact Proc.SameAnswer.failIf_bind fun _ => sameAnswer_requireRoom htoken hno
      fun room _ hne => (sameAnswer_readRoom hI hne).map _
  | cacheExchangeDiscovery =>
    exact Proc.SameAnswer.failIf_bind fun _ => Proc.SameAnswer.failWith_bind fun _ =>
      Proc.SameAnswer.pure _
  | cacheExchangePull => exact hpull rfl
  | cacheIssuesPull =>
    exact Proc.SameAnswer.failIf_bind fun _ => Proc.SameAnswer.failWith_bind fun _ =>
      sameAnswer_requireRoom htoken hno fun room hvalid hne =>
        (Proc.SameAnswer.gets fun s t h => V.pullIssues (hI s t h).sound (hI s t h).sound'
          (hI s t h).cache hvalid hne _ _).map _
  | cacheIssuesSync =>
    exact Proc.SameAnswer.failIf_bind fun _ => Proc.SameAnswer.failWith_bind fun _ =>
      sameAnswer_requireRoom htoken hno fun room hvalid hne =>
        (Proc.SameAnswer.update fun s t h => V.syncIssues (hI s t h).sound (hI s t h).sound'
          (hI s t h).cache hvalid hne _ _ _).map _
  | ws => exact sameAnswer_webSocket env
  | poll =>
    exact Proc.SameAnswer.failIf_bind fun _ => sameAnswer_requireRoom htoken hno
      fun room _ hne => (sameAnswer_readRoom hI hne).map _
  | inboxPending =>
    exact Proc.SameAnswer.failIf_bind fun _ => sameAnswer_requireRoom htoken hno fun room _ hne =>
      sameAnswer_requireParam fun consumer => (sameAnswer_readRoom hI hne).map _
  | presence => exact sameAnswer_presence htoken hno hI env
  | review => exact sameAnswer_review htoken hget hno hI env

include htoken hget hno hI in
/-- A request that is not an answered pull, or one whose records compare. -/
theorem sameAnswer_fetch (env : Env)
    (hpull : AnsweredPull R request → Proc.SameAnswer I (handleCacheExchangePull R request)) :
    Proc.SameAnswer I (fetch R request env) := by
  unfold fetch
  refine Proc.SameAnswer.ite (fun _ => Proc.SameAnswer.pure _) fun _ =>
    Proc.SameAnswer.ite (fun _ => Proc.SameAnswer.pure _) fun _ => ?_
  split
  · next endpoint hpath =>
    refine Proc.SameAnswer.failWith_bind fun hauth =>
      sameAnswer_handle htoken hget hno hI env _ ?_
    rintro rfl
    -- A pull that is refused answers the same whatever the state.
    by_cases hanswered : AnsweredPull R request
    · exact hpull hanswered
    · exact Proc.SameAnswer.failIf_bind fun _ => Proc.SameAnswer.failWith_bind fun hpeer =>
        Proc.SameAnswer.failWith_bind fun hroom =>
          absurd ⟨Endpoint.path_of hpath, hauth, hpeer, hroom⟩ hanswered
  · exact Proc.SameAnswer.failWith_bind fun _ => Proc.SameAnswer.pure _

include htoken hno in
/-- The pull of a room compares the records of that room alone. -/
theorem sameAnswer_pull (hroom : pullRoom request ≠ none) :
    Proc.SameAnswer (Indistinct V) (handleCacheExchangePull R request) := by
  refine Proc.SameAnswer.failIf_bind fun _ => Proc.SameAnswer.failWith_bind fun _ =>
    Proc.SameAnswer.failWith_bind fun hchecked => ?_
  refine (Proc.SameAnswer.gets fun s t h => ?_).map _
  cases hpull : pullRoom request with
  | none => exact absurd hpull hroom
  | some room =>
    simp only [checkPullRoom, hpull] at hchecked
    split at hchecked
    · cases hchecked
    · exact selectLoop_agree ((pullArgs_room request).trans hpull)
        (room_ne_of_checked htoken hno hchecked) _ h.2 _ _

include htoken hno in
/-- A pull that is answered names another room, if it names one. -/
theorem pullRoom_ne (h : AnsweredPull R request) : pullRoom request ≠ some r := by
  intro hroom
  have hchecked := h.2.2.2
  simp only [checkPullRoom, hroom] at hchecked
  split at hchecked
  · cases hchecked
  · exact room_ne_of_checked htoken hno hchecked rfl

end Request

/-! ## A pull leaks -/

/-- What a peer pushes into room `r`. -/
def leakEntry (r id origin : String) (payload : JsonValue) : JsonValue := .obj [
  ("room", .str r), ("id", .str id), ("sender", .str "peer"), ("topic", .str "notify"),
  ("payload", payload), ("origin", .str origin), ("hop_count", .ofNat 0), ("max_hops", .ofNat 1)]

def leakEnvelope (r id : String) (payload : JsonValue) : Envelope :=
  { room := r, id, sender := "peer", topic := "notify", payload, signature := none }

def leakIncoming (r id origin : String) (payload : JsonValue) : IncomingExchangeEntry :=
  { room := r, id, sender := "peer", topic := "notify", payload, signature := none, origin
    hopCount := 0, maxHops := 1 }

/-- A push of one entry that carries the credentials of `request` and the token of the room. -/
def leakCall (request : Request) (r token origin id : String) (payload : JsonValue) : Call where
  request := .post "/api/v1/cache/exchange/push" []
    [("authorization", (request.header "authorization").getD ""), ("x-room-token", token)]
    ⟨"", some (.obj [("entries", .arr [leakEntry r id origin payload])])⟩
  env := .at 0

theorem asString_of_trimmed {s : String} (h : Trimmed s ∧ s ≠ "") :
    asString (some (.str s)) = some s := by
  have htrim : trim s = s := h.1
  simp only [asString, htrim, if_pos h.2]

theorem parse_leakEntry {id origin : String} (payload : JsonValue) (maxHops : Nat)
    (hr : Trimmed r ∧ r ≠ "") (hid : Trimmed id ∧ id ≠ "") (horigin : Trimmed origin ∧ origin ≠ "") :
    parseIncomingCacheExchangeEntry (leakEntry r id origin payload) maxHops =
      .ok (leakIncoming r id origin payload) := by
  have hsender : asString (some (.str "peer")) = some "peer" := by decide
  have htopic : asString (some (.str "notify")) = some "notify" := by decide
  have hzero : asNonNegativeInt (some (.ofNat 0)) = some 0 := by decide
  have hone : asNonNegativeInt (some (.ofNat 1)) = some 1 := by decide
  unfold parseIncomingCacheExchangeEntry
  simp only [show (leakEntry r id origin payload).get? "room" = some (.str r) from rfl,
    show (leakEntry r id origin payload).get? "id" = some (.str id) from rfl,
    show (leakEntry r id origin payload).get? "sender" = some (.str "peer") from rfl,
    show (leakEntry r id origin payload).get? "topic" = some (.str "notify") from rfl,
    show (leakEntry r id origin payload).get? "payload" = some payload from rfl,
    show (leakEntry r id origin payload).get? "origin" = some (.str origin) from rfl,
    show (leakEntry r id origin payload).get? "hop_count" = some (.ofNat 0) from rfl,
    show (leakEntry r id origin payload).get? "max_hops" = some (.ofNat 1) from rfl,
    show (leakEntry r id origin payload).get? "signature" = none from rfl,
    asString_of_trimmed hr, asString_of_trimmed hid, asString_of_trimmed horigin, hsender, htopic,
    hzero, hone]
  rfl

/-- The state after a message entered room `r` through a push. -/
def leakState (R : Relay C) (r origin : String) (envelope : Envelope) (s : ServiceState C) :
    ServiceState C :=
  let messages := pushMessage (s.roomOf r).messages envelope R.config.maxMessagesPerRoom
  let pushed := (s.openRoom r).putRoom r { s.roomOf r with messages }
  (pushed.recordCacheExchange R envelope origin 0 1).persistEnvelopeToCache R envelope
    messages.length

/-- The push is authorised as the pull is. -/
theorem authorised_leak {request : Request} (hleak : AnsweredPull R request)
    (r token origin id : String) (payload : JsonValue) :
    checkAuth R (leakCall request r token origin id payload).request = none ∧
      checkPeerAuth R (leakCall request r token origin id payload).request = none := by
  obtain ⟨hpath, hauth, hpeer, -⟩ := hleak
  have hpresented : extractPresentedToken (leakCall request r token origin id payload).request =
      extractPresentedToken request := rfl
  have hrequired : shouldRequireAuth (leakCall request r token origin id payload).request.pathname =
      shouldRequireAuth request.pathname := by
    rw [hpath]
    change shouldRequireAuth "/api/v1/cache/exchange/push" = _
    decide
  constructor
  · unfold checkAuth at hauth ⊢
    rw [hpresented, hrequired]
    exact hauth
  · unfold checkPeerAuth at hpeer ⊢
    rw [hpresented]
    exact hpeer

section Leak
variable {token : String} (htoken : R.config.roomTokens.get? r = some token)
variable {request : Request} (hleak : AnsweredPull R request)
variable {origin : String} (horigin : Trimmed origin ∧ origin ≠ "")
  (hnode : origin ≠ R.config.relayNodeId)
include htoken hleak horigin hnode

omit hleak in
/-- The entry is refused for none of its fields. -/
theorem pushEntry_leak {id : String} (payload : JsonValue) (hid : Trimmed id ∧ id ≠ "") :
    pushEntry R (leakCall request r token origin id payload).request 0
        (leakEntry r id origin payload) .zero =
      importEntry R (leakIncoming r id origin payload) .zero := by
  obtain ⟨hname, htrimmed, hne⟩ := R.config.roomTokens_normal r token htoken
  have hroomToken : readRoomToken (leakCall request r token origin id payload).request = token := by
    change (if trim "" ≠ "" then trim "" else trim token) = token
    rw [if_neg (by decide)]
    exact htrimmed
  have hchecked : checkRoomToken R (leakCall request r token origin id payload).request r = none := by
    simp [checkRoomToken, htoken, hroomToken, hne, timingSafeEqual]
  have hparse := parse_leakEntry payload R.config.cacheExchangeMaxHops
    (trimmed_of_isValidRoomName hname) hid horigin
  have hentry : refusesEntryName (leakIncoming r id origin payload) = none := by
    unfold refusesEntryName
    rw [if_neg (by simp [leakIncoming, hname])]
    exact if_neg (by change ¬ isValidTopic "notify" = false; decide)
  have hhops : refusesEntryHops R (leakIncoming r id origin payload) = none := by
    simp [refusesEntryHops, leakIncoming, hnode]
  unfold pushEntry
  simp only [hparse, Except.mapError, Proc.ofExcept, pure_bind, hentry]
  rw [show (leakIncoming r id origin payload).room = r from rfl, hchecked]
  simp only [Proc.failWith, pure_bind, hhops]

omit htoken hleak horigin hnode in
/-- An entry with a fresh id is published. -/
theorem importEntry_leak {id : String} (payload : JsonValue) (s : ServiceState C)
    (hfresh : ∀ m ∈ (s.roomOf r).messages, m.id ≠ id) :
    ((importEntry R (leakIncoming r id origin payload) .zero).run s).2 =
      leakState R r origin (leakEnvelope r id payload) s := by
  have hfind : findEnvelopeById (s.roomOf r) id = none := by
    unfold findEnvelopeById
    rw [List.find?_eq_none]
    intro m hm
    simpa using hfresh m hm
  have hpublish : (s.openRoom r).publishEntry R r "peer" "notify" id "" payload origin 0 1 =
      let messages := pushMessage (s.roomOf r).messages (leakEnvelope r id payload)
        R.config.maxMessagesPerRoom
      (.accepted (leakEnvelope r id payload) messages.length,
        ((s.openRoom r).putRoom r { s.roomOf r with messages }).recordCacheExchange R
          (leakEnvelope r id payload) origin 0 1) := by
    unfold ServiceState.publishEntry
    rcases publishIntoRoom_cases (s.roomOf r) r "peer" "notify" id "" payload
      R.config.maxMessagesPerRoom with ⟨h, -⟩ | ⟨-, ⟨m, hm, h⟩, -⟩ | ⟨-, -, h⟩
    · exact absurd h (by decide)
    · exact absurd h (hfresh m hm)
    · rw [ServiceState.roomOf_openRoom, h]
      rfl
  unfold importEntry
  rw [Proc.run_bind]
  simp only [Proc.run_update]
  rw [show (leakIncoming r id origin payload).room = r from rfl,
    show (leakIncoming r id origin payload).id = id from rfl, hfind]
  simp only [leakIncoming, Option.getD_none]
  rw [Proc.run_bind, Proc.run_update, hpublish]
  rfl

/-- The push gets past every gate, and its entry is published. -/
theorem leak_state {id : String} {payload : JsonValue} (hid : Trimmed id ∧ id ≠ "")
    (s : ServiceState C) (hfresh : ∀ m ∈ (s.roomOf r).messages, m.id ≠ id) :
    serveCall R s (leakCall request r token origin id payload) =
      leakState R r origin (leakEnvelope r id payload) s := by
  obtain ⟨hauth, hpeer⟩ := authorised_leak hleak r token origin id payload
  have hfetch : fetch R (leakCall request r token origin id payload).request
      (leakCall request r token origin id payload).env =
      Endpoint.guarded R (leakCall request r token origin id payload).request
        (leakCall request r token origin id payload).env .cacheExchangePush := by
    unfold fetch
    rw [if_neg (by change ¬ "/api/v1/cache/exchange/push" = _; decide),
      if_neg (by change ¬ "/api/v1/cache/exchange/push" = _; decide),
      show Endpoint.ofPath (leakCall request r token origin id payload).request.pathname =
        some .cacheExchangePush by
          change Endpoint.ofPath "/api/v1/cache/exchange/push" = _
          decide]
  unfold serveCall serve
  rw [serve_state, ← importEntry_leak payload s hfresh, hfetch]
  unfold Endpoint.guarded
  rw [hauth]
  simp only [Proc.failWith, pure_bind, Endpoint.handle, handleCacheExchangePush, hpeer]
  rw [Proc.run_bind_of_ok (show (requireMethod
      (leakCall request r token origin id payload).request "POST" : Handler C Unit).run s =
      (.ok (), s) from rfl),
    Proc.run_bind_of_ok (show (requireObject
      (leakCall request r token origin id payload).request : Handler C JsonValue).run s =
      (.ok (.obj [("entries", .arr [leakEntry r id origin payload])]), s) from rfl),
    Proc.run_bind_of_ok (show (requireEntries
      (.obj [("entries", .arr [leakEntry r id origin payload])]) :
      Handler C (List JsonValue)).run s = (.ok [leakEntry r id origin payload], s) from rfl),
    Proc.run_bind_state fun _ _ => rfl]
  simp only [pushEntries, pushEntry_leak htoken horigin hnode payload hid, bind_pure]

end Leak

/-! ### The two states -/

theorem roomOf_leakState {origin : String} {envelope : Envelope} {s : ServiceState C} {room : String}
    (h : room ≠ r) : (leakState R r origin envelope s).roomOf room = s.roomOf room := by
  have h1 := ServiceState.roomOf_putRoom_of_ne (s.openRoom r) h { s.roomOf r with
    messages := pushMessage (s.roomOf r).messages envelope R.config.maxMessagesPerRoom }
  rw [ServiceState.roomOf_openRoom] at h1
  exact h1

theorem messages_leakState {origin : String} {envelope m : Envelope} {s : ServiceState C}
    (h : m ∈ ((leakState R r origin envelope s).roomOf r).messages) :
    m ∈ (s.roomOf r).messages ∨ m = envelope := by
  have h1 := ServiceState.roomOf_putRoom_self (s.openRoom r) r { s.roomOf r with
    messages := pushMessage (s.roomOf r).messages envelope R.config.maxMessagesPerRoom }
  have hmem : m ∈ pushMessage (s.roomOf r).messages envelope R.config.maxMessagesPerRoom := by
    have hroom : ((leakState R r origin envelope s).roomOf r).messages =
        pushMessage (s.roomOf r).messages envelope R.config.maxMessagesPerRoom :=
      congrArg RoomState.messages h1
    rw [hroom] at h
    exact h
  have h2 := List.mem_of_mem_drop hmem
  simpa using h2

/-- Nothing but messages of room `r` has come in, by pushes. -/
structure OnlyRoom (V : RoomView R.cacheAdapter r) (s : ServiceState C) : Prop where
  rooms : ∀ room, room ≠ r → s.roomOf room = createRoomState
  senderRateCounts : s.senderRateCounts = ∅
  ipRateCounts : s.ipRateCounts = ∅
  roomRateCounts : s.roomRateCounts = ∅
  keyRegistry : s.keyRegistry = ∅
  noncesBySender : s.noncesBySender = ∅
  records : ∀ e ∈ s.cacheExchangeRecords, e.envelope.room = r
  githubIssueSync : s.githubIssueSync = .empty
  cache : V.bare s.cache

theorem onlyRoom_init (V : RoomView R.cacheAdapter r) : OnlyRoom V (.init V.empty) where
  rooms _ _ := rfl
  senderRateCounts := rfl
  ipRateCounts := rfl
  roomRateCounts := rfl
  keyRegistry := rfl
  noncesBySender := rfl
  records e he := by cases he
  githubIssueSync := rfl
  cache := V.bare_empty

theorem agree_of_onlyRoom {s t : ServiceState C} (hs : OnlyRoom V s) (ht : OnlyRoom V t) :
    AgreeOutside R V s t where
  rooms room hne := (hs.rooms room hne).trans (ht.rooms room hne).symm
  senderRateCounts := hs.senderRateCounts.trans ht.senderRateCounts.symm
  ipRateCounts := hs.ipRateCounts.trans ht.ipRateCounts.symm
  roomRateCounts := hs.roomRateCounts.trans ht.roomRateCounts.symm
  keyRegistry := hs.keyRegistry.trans ht.keyRegistry.symm
  noncesBySender := hs.noncesBySender.trans ht.noncesBySender.symm
  cacheExchangeRecords := by
    have hnone : ∀ {s : ServiceState C}, OnlyRoom V s →
        s.cacheExchangeRecords.filter (fun e => e.envelope.room ≠ r) = [] := fun hs =>
      List.filter_eq_nil_iff.mpr fun e he => by simp [hs.records e he]
    rw [hnone hs, hnone ht]
  githubIssueSync := hs.githubIssueSync.trans ht.githubIssueSync.symm
  cache := V.agree_of_bare hs.cache ht.cache

theorem onlyRoom_leakState {s : ServiceState C} (hs : OnlyRoom V s) (origin : String)
    {envelope : Envelope} (hstorable : envelope.Storable) (hroom : envelope.room = r)
    (htopic : isIssueTopic envelope.topic = false) :
    OnlyRoom V (leakState R r origin envelope s) where
  rooms room hne := (roomOf_leakState hne).trans (hs.rooms room hne)
  senderRateCounts := hs.senderRateCounts
  ipRateCounts := hs.ipRateCounts
  roomRateCounts := hs.roomRateCounts
  keyRegistry := hs.keyRegistry
  noncesBySender := hs.noncesBySender
  records e he := by
    have he := List.mem_of_mem_drop he
    rcases List.mem_append.mp he with he | he
    · exact hs.records e he
    · rw [List.mem_singleton.mp he]
      exact hroom
  githubIssueSync := hs.githubIssueSync
  cache := V.bare_persist hs.cache hstorable hroom htopic _

/-! ### As many records as the pull skips -/

def leakId (k : Nat) : String := String.ofList (List.replicate (k + 1) 'a')

theorem length_leakId (k : Nat) : (leakId k).toList.length = k + 1 := by
  simp [leakId]

theorem trimmed_leakId (k : Nat) : Trimmed (leakId k) ∧ leakId k ≠ "" := by
  refine ⟨trimmed_of_nospace fun c hc => ?_, fun h => ?_⟩
  · have hc' : c = 'a' := by
      rw [leakId, String.toList_ofList] at hc
      exact List.eq_of_mem_replicate hc
    rw [hc']
    decide
  · have hlength := length_leakId k
    rw [h] at hlength
    cases hlength

def leakCalls (request : Request) (r token origin : String) (k : Nat) : List Call :=
  (List.range k).map fun i => leakCall request r token origin (leakId i) .null

section Leak
variable {token : String} (htoken : R.config.roomTokens.get? r = some token)
variable {request : Request} (hleak : AnsweredPull R request)
variable {origin : String} (horigin : Trimmed origin ∧ origin ≠ "")
  (hnode : origin ≠ R.config.relayNodeId)
include htoken hleak horigin hnode

theorem leak_next (s : ServiceState C) {k : Nat} (payload : JsonValue)
    (hids : ∀ m ∈ (s.roomOf r).messages, m.id.toList.length ≤ k) :
    serveCall R s (leakCall request r token origin (leakId k) payload) =
      leakState R r origin (leakEnvelope r (leakId k) payload) s := by
  refine leak_state htoken hleak horigin hnode (trimmed_leakId k) s fun m hm h => ?_
  have hlength := hids m hm
  rw [h, length_leakId] at hlength
  omega

omit htoken hleak horigin hnode in
theorem isIssueTopic_notify : isIssueTopic "notify" = false := by decide

omit hleak horigin hnode in
theorem storable_leakEnvelope (k : Nat) (payload : JsonValue) :
    (leakEnvelope r (leakId k) payload).Storable := by
  obtain ⟨htrimmed, hne⟩ := trimmed_leakId k
  exact ⟨(R.config.roomTokens_normal r token htoken).1, hne, htrimmed⟩

/-- After `k` pushes the cursor is `k`, the ids so far are short, and nothing else has come in. -/
theorem leak_calls (V : RoomView R.cacheAdapter r) (k : Nat) :
    (afterCalls R V.empty (leakCalls request r token origin k)).cacheExchangeCursor = k ∧
    (∀ m ∈ ((afterCalls R V.empty (leakCalls request r token origin k)).roomOf r).messages,
      m.id.toList.length ≤ k) ∧
    OnlyRoom V (afterCalls R V.empty (leakCalls request r token origin k)) := by
  induction k with
  | zero =>
    refine ⟨rfl, fun m hm => ?_, onlyRoom_init V⟩
    cases hm
  | succ k ih =>
    obtain ⟨hcursor, hids, honly⟩ := ih
    have hnext : afterCalls R V.empty (leakCalls request r token origin (k + 1)) =
        leakState R r origin (leakEnvelope r (leakId k) .null)
          (afterCalls R V.empty (leakCalls request r token origin k)) := by
      rw [← leak_next htoken hleak horigin hnode _ .null hids]
      unfold afterCalls leakCalls
      rw [List.range_succ, List.map_append, List.map_singleton, runFrom_concat]
    rw [hnext]
    refine ⟨congrArg (· + 1) hcursor, fun m hm => ?_, onlyRoom_leakState honly origin
      (storable_leakEnvelope htoken k .null) rfl isIssueTopic_notify⟩
    rcases messages_leakState hm with hold | rfl
    · exact (hids m hold).trans (Nat.le_succ k)
    · rw [leakEnvelope, length_leakId]

end Leak

/-! ### The pull -/

theorem selectLoop_skip {args : SelectExchangeEntriesArgs} {limit : Nat}
    {l l' : List CacheExchangeRecord} (h : ∀ e ∈ l, e.cursor ≤ args.after)
    (entries : List CacheExchangeEntry) (nextCursor : Nat) :
    selectLoop args limit (l ++ l') entries nextCursor =
      selectLoop args limit l' entries nextCursor := by
  induction l with
  | nil => rfl
  | cons e rest ih =>
    rw [List.cons_append, selectLoop, if_pos (h e List.mem_cons_self)]
    exact ih fun x hx => h x (List.mem_cons_of_mem _ hx)

/-- The record of the last push stands behind those of the others. -/
theorem records_leakState (origin : String) (envelope : Envelope) {s : ServiceState C} {after : Nat}
    (hcursor : s.cacheExchangeCursor = after) :
    (leakState R r origin envelope s).cacheExchangeRecords =
      s.cacheExchangeRecords.drop
        (s.cacheExchangeRecords.length + 1 - R.config.cacheExchangeMaxRecords) ++
      [⟨after + 1, envelope, origin, 0, 1⟩] := by
  have hpos := R.config.cacheExchangeMaxRecords_pos
  simp only [leakState, ServiceState.persistEnvelopeToCache, ServiceState.recordCacheExchange,
    ServiceState.putRoom, ServiceState.openRoom, List.length_append, List.length_singleton,
    hcursor]
  rw [List.drop_append_of_le_length (by omega)]

/-- The pull returns the one record past its cursor. -/
theorem select_leakState {args : SelectExchangeEntriesArgs} {origin : String} {envelope : Envelope}
    {s : ServiceState C} (hs : CursorInvariant R s) (hcursor : s.cacheExchangeCursor = args.after)
    (hroom : args.room = none) (hpeer : args.peer ≠ some origin) :
    selectCacheExchangeEntries (leakState R r origin envelope s).cacheExchangeRecords args =
      ([exportEntry ⟨args.after + 1, envelope, origin, 0, 1⟩], args.after + 1) := by
  have hold : ∀ e ∈ s.cacheExchangeRecords.drop
      (s.cacheExchangeRecords.length + 1 - R.config.cacheExchangeMaxRecords),
      e.cursor ≤ args.after := by
    intro e he
    have hmem := List.mem_map_of_mem (f := CacheExchangeRecord.cursor) (List.mem_of_mem_drop he)
    rw [hs] at hmem
    have hrange := List.mem_range'_1.mp (List.mem_of_mem_drop hmem)
    omega
  have hexports : exportsRecord args ⟨args.after + 1, envelope, origin, 0, 1⟩ = true := by
    unfold exportsRecord
    rw [hroom]
    cases hp : args.peer with
    | none => rfl
    | some peer =>
      rw [hp] at hpeer
      simpa using fun h => hpeer (congrArg some h.symm)
  unfold selectCacheExchangeEntries
  rw [records_leakState origin envelope hcursor, selectLoop_skip hold]
  simp only [selectLoop, hexports, if_true, List.nil_append]
  rw [if_neg (by simp)]
  split <;> rfl

/-- A pull that exports none of the records comes to the cursor of the last one. -/
theorem selectLoop_none {args : SelectExchangeEntriesArgs} {limit : Nat}
    {l : List CacheExchangeRecord} {last : CacheExchangeRecord}
    (h : ∀ e ∈ l ++ [last], exportsRecord args e = false) (hlast : args.after < last.cursor)
    (entries : List CacheExchangeEntry) (nextCursor : Nat) :
    selectLoop args limit (l ++ [last]) entries nextCursor = (entries, last.cursor) := by
  induction l generalizing nextCursor with
  | nil =>
    rw [List.nil_append, selectLoop, if_neg (Nat.not_le.mpr hlast),
      h last (by simp), if_neg Bool.false_ne_true, selectLoop]
  | cons e rest ih =>
    have hrest := ih fun x hx => h x (List.mem_cons_of_mem _ hx)
    rw [List.cons_append, selectLoop, h e List.mem_cons_self, if_neg Bool.false_ne_true, hrest,
      hrest, ite_self]

/-- The pull of another room counts the records it skips. -/
theorem skip_leakState {args : SelectExchangeEntriesArgs} {room origin : String}
    {envelope : Envelope} {s : ServiceState C} (hs : OnlyRoom V s)
    (hcursor : s.cacheExchangeCursor = args.after) (henvelope : envelope.room = r)
    (hroom : args.room = some room) (hne : room ≠ r) :
    selectCacheExchangeEntries (leakState R r origin envelope s).cacheExchangeRecords args =
      ([], args.after + 1) := by
  have hskip : ∀ e : CacheExchangeRecord, e.envelope.room = r → exportsRecord args e = false := by
    intro e he
    simp [exportsRecord, hroom, he, Ne.symm hne]
  unfold selectCacheExchangeEntries
  rw [records_leakState origin envelope hcursor]
  refine selectLoop_none (fun e he => ?_) (Nat.lt_succ_self _) [] _
  rcases List.mem_append.mp he with he | he
  · exact hskip e (hs.records e (List.mem_of_mem_drop he))
  · rw [List.mem_singleton.mp he]
    exact hskip _ henvelope

theorem pull_response {request : Request} (hget : request.method = "GET")
    (h : AnsweredPull R request) (env : Env) (s : ServiceState C) :
    (serve R request env s).1 =
      let page := selectCacheExchangeEntries s.cacheExchangeRecords (pullArgs request)
      okResponse [
        ("protocol", .str "cache.exchange.v1"),
        ("node_id", .str R.config.relayNodeId),
        ("next_cursor", .ofNat page.2),
        ("returned_count", .ofNat page.1.length),
        ("entries", .arr (page.1.map CacheExchangeEntry.toJson))] := by
  obtain ⟨hpath, hauth, hpeer, hchecked⟩ := h
  have hmethod : (requireMethod request "GET" : Handler C Unit) = pure () := by
    unfold requireMethod Proc.failIf
    rw [if_neg (by simp [hget])]
  have hpull : (fetch R request env : Handler C Response) = (do
      let page ← Proc.gets fun s =>
        selectCacheExchangeEntries s.cacheExchangeRecords (pullArgs request)
      return okResponse [
        ("protocol", .str "cache.exchange.v1"),
        ("node_id", .str R.config.relayNodeId),
        ("next_cursor", .ofNat page.2),
        ("returned_count", .ofNat page.1.length),
        ("entries", .arr (page.1.map CacheExchangeEntry.toJson))]) := by
    unfold fetch
    rw [hpath, if_neg (by decide), if_neg (by decide),
      show Endpoint.ofPath "/api/v1/cache/exchange/pull" = some .cacheExchangePull by decide]
    simp only [Endpoint.guarded, hauth, Proc.failWith, pure_bind, Endpoint.handle,
      handleCacheExchangePull, hmethod, hpeer, hchecked]
  unfold serve Handler.serve
  rw [hpull]
  rfl

/-- A trimmed name that is neither the node's nor the peer's. -/
theorem exists_origin (node : String) (peer : Option String) :
    ∃ origin, (Trimmed origin ∧ origin ≠ "") ∧ origin ≠ node ∧ peer ≠ some origin := by
  by_cases ha : "a" = node ∨ peer = some "a"
  · by_cases hb : "b" = node ∨ peer = some "b"
    · refine ⟨"c", by decide, fun h => ?_, fun h => ?_⟩
      · rcases ha with ha | ha
        · exact absurd (ha.trans h.symm) (by decide)
        · rcases hb with hb | hb
          · exact absurd (hb.trans h.symm) (by decide)
          · rw [ha] at hb
            exact absurd hb (by decide)
      · rcases ha with ha | ha
        · rcases hb with hb | hb
          · exact absurd (ha.trans hb.symm) (by decide)
          · rw [h] at hb
            exact absurd hb (by decide)
        · rw [h] at ha
          exact absurd ha (by decide)
    · rw [not_or] at hb
      exact ⟨"b", by decide, hb.1, hb.2⟩
  · rw [not_or] at ha
    exact ⟨"a", by decide, ha.1, ha.2⟩

section Leak
variable {token : String} (htoken : R.config.roomTokens.get? r = some token) {request : Request}
  (hget : request.method = "GET")
include htoken hget

/-- Two reachable states that differ in one message of the room, and an unfiltered pull that
returns it. -/
theorem not_confidential_of_unfiltered (V : RoomView R.cacheAdapter r)
    (hleak : UnfilteredPull R request) : ¬ ConfidentialAtCounter R V request := by
  intro hconf
  obtain ⟨hanswered, hroom⟩ := hleak
  obtain ⟨origin, horigin, hnode, hpeer⟩ :=
    exists_origin R.config.relayNodeId (pullArgs request).peer
  have hroom : (pullArgs request).room = none := (pullArgs_room request).trans hroom
  obtain ⟨hcursor, hids, honly⟩ :=
    leak_calls htoken hanswered horigin hnode V (pullArgs request).after
  generalize hs : afterCalls R V.empty (leakCalls request r token origin (pullArgs request).after) =
    s at hcursor hids honly
  have hinv : CursorInvariant R s := hs ▸ cursors_afterCalls V.empty _
  have hreach : ∀ payload, afterCalls R V.empty
      (leakCalls request r token origin (pullArgs request).after ++
        [leakCall request r token origin (leakId (pullArgs request).after) payload]) =
      leakState R r origin (leakEnvelope r (leakId (pullArgs request).after) payload) s := by
    intro payload
    rw [← leak_next htoken hanswered horigin hnode s payload hids, ← hs]
    exact runFrom_concat _ _ _ _
  have hpage : ∀ payload, selectCacheExchangeEntries (leakState R r origin
      (leakEnvelope r (leakId (pullArgs request).after) payload) s).cacheExchangeRecords
        (pullArgs request) =
      ([exportEntry ⟨(pullArgs request).after + 1,
        leakEnvelope r (leakId (pullArgs request).after) payload, origin, 0, 1⟩],
        (pullArgs request).after + 1) :=
    fun payload => select_leakState hinv hcursor hroom hpeer
  have hkept : ∀ payload, OnlyRoom V (leakState R r origin
      (leakEnvelope r (leakId (pullArgs request).after) payload) s) := fun payload =>
    onlyRoom_leakState honly origin
      (storable_leakEnvelope htoken _ payload) rfl isIssueTopic_notify
  have hagree := agree_of_onlyRoom (hkept .null) (hkept (.bool true))
  rw [← hreach, ← hreach] at hagree
  have hresponse := hconf V.empty V.empty _ _ (.at 0) V.sound_empty V.sound_empty hagree
    (by rw [hreach, hreach]; rfl)
  rw [hreach, hreach, pull_response hget hanswered, pull_response hget hanswered, hpage, hpage]
    at hresponse
  -- The responses differ in the payload of their one entry.
  simp only [okResponse, List.map_cons, List.map_nil, CacheExchangeEntry.toJson, exportEntry,
    leakEnvelope, Response.mk.injEq, JsonValue.obj.injEq, JsonValue.arr.injEq, List.cons.injEq,
    Prod.mk.injEq, reduceCtorEq, false_and, and_false, true_and] at hresponse

/-- The pull of another room tells whether there are records behind its cursor. -/
theorem not_confidential_of_filtered (V : RoomView R.cacheAdapter r)
    (hanswered : AnsweredPull R request) {room : String} (hroom : pullRoom request = some room)
    (hne : room ≠ r) : ¬ Confidential R V request := by
  intro hconf
  obtain ⟨origin, horigin, hnode, -⟩ :=
    exists_origin R.config.relayNodeId (pullArgs request).peer
  have hroom : (pullArgs request).room = some room := (pullArgs_room request).trans hroom
  obtain ⟨hcursor, hids, honly⟩ :=
    leak_calls htoken hanswered horigin hnode V (pullArgs request).after
  generalize hs : afterCalls R V.empty (leakCalls request r token origin (pullArgs request).after) =
    s at hcursor hids honly
  have hreach : afterCalls R V.empty
      (leakCalls request r token origin (pullArgs request).after ++
        [leakCall request r token origin (leakId (pullArgs request).after) .null]) =
      leakState R r origin (leakEnvelope r (leakId (pullArgs request).after) .null) s := by
    rw [← leak_next htoken hanswered horigin hnode s .null hids, ← hs]
    exact runFrom_concat _ _ _ _
  have hkept := onlyRoom_leakState honly origin
    (storable_leakEnvelope htoken (pullArgs request).after .null) rfl
    isIssueTopic_notify
  have hagree := agree_of_onlyRoom (onlyRoom_init V) hkept
  rw [← hreach] at hagree
  have hresponse := hconf V.empty V.empty [] _ (.at 0) V.sound_empty V.sound_empty hagree
  -- Over no records the pull returns the cursor it came with.
  have hnothing : selectCacheExchangeEntries (afterCalls R V.empty []).cacheExchangeRecords
      (pullArgs request) = ([], (pullArgs request).after) := rfl
  rw [hreach, pull_response hget hanswered, pull_response hget hanswered, hnothing,
    skip_leakState honly hcursor rfl hroom hne] at hresponse
  have hnext := congrArg (fun response : Response => response.body) hresponse
  simp only [okResponse, JsonValue.obj.injEq, List.cons.injEq, Prod.mk.injEq, true_and, and_true]
    at hnext
  have hcount := congrArg (fun value => asNonNegativeInt (some value)) hnext
  simp only [asNonNegativeInt_ofNat, Option.some.injEq] at hcount
  exact absurd hcount (Nat.ne_of_lt (Nat.lt_succ_self _))

end Leak

/-! ## All requests -/

/-- A `GET` without the token of room `r` tells nothing about the room if and only if it is not a
pull that is answered; on states in which as many exchange records have been written, if and only
if it is not a pull without a room that is answered. -/
theorem confidential_iff (V : RoomView R.cacheAdapter r) {token : String}
    (htoken : R.config.roomTokens.get? r = some token) {request : Request}
    (hget : request.method = "GET") (hno : readRoomToken request ≠ token) :
    (Confidential R V request ↔ ¬ AnsweredPull R request) ∧
      (ConfidentialAtCounter R V request ↔ ¬ UnfilteredPull R request) := by
  refine ⟨⟨fun hconf hanswered => ?_, fun h cache cache' calls calls' env hs ht hagree => ?_⟩,
    fun hconf hleak => not_confidential_of_unfiltered htoken hget V hleak hconf,
    fun h cache cache' calls calls' env hs ht hagree hcursor => ?_⟩
  · cases hroom : pullRoom request with
    | none =>
      exact not_confidential_of_unfiltered htoken hget V ⟨hanswered, hroom⟩
        fun cache cache' calls calls' env hs ht hagree _ =>
          hconf cache cache' calls calls' env hs ht hagree
    | some room =>
      refine not_confidential_of_filtered htoken hget V hanswered hroom ?_ hconf
      rintro rfl
      exact pullRoom_ne htoken hno hanswered hroom
  · have hanswer := sameAnswer_fetch htoken hget hno (I := Alike V) (fun _ _ h => h) env
      (fun hanswered => absurd hanswered h) _ _
      ⟨hagree, sound_afterCalls V hs calls, sound_afterCalls V ht calls'⟩
    unfold serve
    rw [serve_response, serve_response, hanswer]
  · have hanswer := sameAnswer_fetch htoken hget hno (I := Indistinct V) (fun _ _ h => h.1) env
      (fun hanswered => sameAnswer_pull htoken hno fun hroom => h ⟨hanswered, hroom⟩) _ _
      (indistinct_of_alike
        ⟨hagree, sound_afterCalls V hs calls, sound_afterCalls V ht calls'⟩ hcursor
        (cursors_afterCalls cache calls) (cursors_afterCalls cache' calls'))
    unfold serve
    rw [serve_response, serve_response, hanswer]

end

/-! ## On the toy host -/

/-- A relay whose room `main` has the token `secret`. -/
def guardedConfig : RelayConfig := { RelayConfig.default with
  roomTokens := OrdMap.ofList [("main", "secret")]
  roomTokens_normal := by
    intro room token h
    have hmem := OrdMap.mem_of_get?_ofList h
    rw [List.mem_singleton] at hmem
    cases hmem
    decide }

/-- The relay over a memory store. -/
def guardedRelay : Relay MemoryCache := ⟨guardedConfig, .toy, memoryAdapter .toy⟩

/-- Polling the room without its token tells nothing about it. -/
theorem confidential_iff_poll :
    (Confidential guardedRelay (.memory .toy "main") (.get "/api/v1/poll" []) ↔
      ¬ AnsweredPull guardedRelay (.get "/api/v1/poll" [])) ∧
    (ConfidentialAtCounter guardedRelay (.memory .toy "main") (.get "/api/v1/poll" []) ↔
      ¬ UnfilteredPull guardedRelay (.get "/api/v1/poll" [])) :=
  confidential_iff (R := guardedRelay) (RoomView.memory .toy "main") rfl rfl (by decide)

/-- A pull without a room parameter returns the messages of the room to whoever asks. -/
theorem unfiltered_pull_leaks :
    ¬ ConfidentialAtCounter guardedRelay (.memory .toy "main")
      (.get "/api/v1/cache/exchange/pull" []) :=
  not_confidential_of_unfiltered (R := guardedRelay) (by rfl) rfl (RoomView.memory .toy "main")
    (by decide)

end BitRelay
