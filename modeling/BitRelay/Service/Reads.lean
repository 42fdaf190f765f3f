import BitRelay.Lib.Coupling
import BitRelay.Service.Parts

/-!
# The parts of the state that a request reads

`Touch parts` also compares two services: they differ in the listed parts and in
no other. A request that reads none of these parts is answered alike by both,
and leaves them as far apart as they were.

Results:
1. `reads_handle`: this holds of every handler.
2. `reads_serve`: and of whole requests.
3. `serve_touches`: a request leaves the parts alone that its endpoint does not
   write to.
4. `gated_fetch`: the gates in front of a handler do not look at the state.
-/

namespace BitRelay

/-- The parts on which the answer of an endpoint, or what it writes to other parts, depends. -/
def Endpoint.readsFrom : Endpoint → List StatePart
  | keyInfo | keyVerifyGitHub => [.keys]
  | keyRotate => [.keys, .nonces]
  | githubWebhook | githubWebhookDlqRetry => [.messages, .issueSync]
  | githubWebhookDlq => [.issueSync]
  | triggerCallback | triggerResults | poll => [.messages]
  | cacheExchangePull => [.exchange]
  | cacheExchangePush => [.messages, .exchange]
  | cacheIssuesPull | cacheIssuesSync => [.cache]
  | publish => [.messages, .rates, .keys, .nonces]
  | inboxPending => [.messages, .acks]
  | inboxAck => [.acks]
  | presenceHeartbeat | presence => [.presence]
  | review => [.reviews, .keys, .nonces]
  | cacheExchangeDiscovery | ws => []

/-- Two rooms that differ in the listed parts and in no other. -/
structure RoomState.Apart (parts : List StatePart) (x y : RoomState) : Prop where
  messages : .messages ∉ parts → y.messages = x.messages
  acks : .acks ∉ parts → y.acksByConsumer = x.acksByConsumer
  presence : .presence ∉ parts → y.presenceByParticipant = x.presenceByParticipant
  reviews : .reviews ∉ parts → y.reviewsByPr = x.reviewsByPr

/-- Both computations end with the same answer, or with the same value, in states that differ in
the listed parts only. -/
def apartCoupling (C : Type) (parts : List StatePart) :
    Proc.Coupling Response (ServiceState C) where
  state := Touch parts
  answer r r' := r = r'
  odd _ := False
  answer_refl _ := rfl

/-- The computation reads none of the listed parts. -/
abbrev Ignores {C α : Type} (parts : List StatePart) (x : Handler C α) : Prop :=
  Proc.Coupled (apartCoupling C parts) (· = ·) x x

namespace ReadsLemmas

section
variable {C : Type} {R : Relay C} {parts : List StatePart} {s t : ServiceState C}
  {request : Request} {env : Env}

/-! ## Differences -/

theorem touch_symm (h : Touch parts s t) : Touch parts t s := by
  intro part hpart
  have hsame := h part hpart
  cases part with
  | messages | acks | presence | reviews => exact fun room => (hsame room).symm
  | rates => exact ⟨hsame.1.symm, hsame.2.1.symm, hsame.2.2.symm⟩
  | exchange => exact ⟨hsame.1.symm, hsame.2.symm⟩
  | keys | nonces | issueSync | cache => exact Eq.symm hsame

theorem touch_trans {u : ServiceState C} (h : Touch parts s t) (h' : Touch parts t u) :
    Touch parts s u :=
  fun part hpart => (h part hpart).trans (h' part hpart)

/-! ## The same write on both sides -/

theorem apart_roomOf (h : Touch parts s t) (room : String) :
    (s.roomOf room).Apart parts (t.roomOf room) :=
  ⟨fun hp => h _ hp room, fun hp => h _ hp room, fun hp => h _ hp room, fun hp => h _ hp room⟩

theorem apart_putRoom (h : Touch parts s t) (room : String) {x y : RoomState}
    (hxy : x.Apart parts y) : Touch parts (s.putRoom room x) (t.putRoom room y) := by
  have hrooms : ∀ other,
      ((s.putRoom room x).roomOf other).Apart parts ((t.putRoom room y).roomOf other) := by
    intro other
    rcases Decidable.em (other = room) with heq | hne
    · rw [heq, ServiceState.roomOf_putRoom_self, ServiceState.roomOf_putRoom_self]
      exact hxy
    · rw [ServiceState.roomOf_putRoom_of_ne s hne, ServiceState.roomOf_putRoom_of_ne t hne]
      exact apart_roomOf h other
  intro part hpart
  cases part with
  | messages => exact fun other => (hrooms other).messages hpart
  | acks => exact fun other => (hrooms other).acks hpart
  | presence => exact fun other => (hrooms other).presence hpart
  | reviews => exact fun other => (hrooms other).reviews hpart
  | rates => exact h .rates hpart
  | keys => exact h .keys hpart
  | nonces => exact h .nonces hpart
  | exchange => exact h .exchange hpart
  | issueSync => exact h .issueSync hpart
  | cache => exact h .cache hpart

theorem apart_openRoom (h : Touch parts s t) (room : String) :
    Touch parts (s.openRoom room) (t.openRoom room) :=
  apart_putRoom h room (apart_roomOf h room)

theorem apart_keys (h : Touch parts s t) {x y : KeyRegistry} (hxy : .keys ∉ parts → y = x) :
    Touch parts { s with keyRegistry := x } { t with keyRegistry := y } := by
  intro part hpart
  cases part with
  | keys => exact hxy hpart
  | _ => exact h _ hpart

theorem apart_nonces (h : Touch parts s t) {x y : NoncesBySender}
    (hxy : .nonces ∉ parts → y = x) :
    Touch parts { s with noncesBySender := x } { t with noncesBySender := y } := by
  intro part hpart
  cases part with
  | nonces => exact hxy hpart
  | _ => exact h _ hpart

theorem apart_issueSync (h : Touch parts s t) {x y : IssueSyncState}
    (hxy : .issueSync ∉ parts → y = x) :
    Touch parts { s with githubIssueSync := x } { t with githubIssueSync := y } := by
  intro part hpart
  cases part with
  | issueSync => exact hxy hpart
  | _ => exact h _ hpart

theorem apart_cache (h : Touch parts s t) {x y : C} (hxy : .cache ∉ parts → y = x) :
    Touch parts { s with cache := x } { t with cache := y } := by
  intro part hpart
  cases part with
  | cache => exact hxy hpart
  | _ => exact h _ hpart

theorem apart_rates (h : Touch parts s t) {x x' y y' z z' : OrdMap String RateCounter}
    (hx : x' = x) (hy : y' = y) (hz : z' = z) :
    Touch parts { s with senderRateCounts := x, ipRateCounts := y, roomRateCounts := z }
      { t with senderRateCounts := x', ipRateCounts := y', roomRateCounts := z' } := by
  intro part hpart
  cases part with
  | rates => exact ⟨hx, hy, hz⟩
  | _ => exact h _ hpart

theorem apart_recordCacheExchange (h : Touch parts s t) (envelope : Envelope) (origin : String)
    (hopCount maxHops : Nat) :
    Touch parts (s.recordCacheExchange R envelope origin hopCount maxHops)
      (t.recordCacheExchange R envelope origin hopCount maxHops) := by
  intro part hpart
  cases part with
  | exchange =>
    obtain ⟨hrecords, hcursor⟩ := h .exchange hpart
    unfold ServiceState.recordCacheExchange
    rw [hrecords, hcursor]
    exact ⟨rfl, rfl⟩
  | _ => exact h _ hpart

theorem apart_publishIntoRoom (messages : .messages ∉ parts) {x y : RoomState}
    (h : x.Apart parts y) (room sender topic id signature : String) (payload : JsonValue)
    (max : Nat) :
    (publishIntoRoom x room sender topic id signature payload max).1 =
        (publishIntoRoom y room sender topic id signature payload max).1 ∧
      (publishIntoRoom x room sender topic id signature payload max).2.Apart parts
        (publishIntoRoom y room sender topic id signature payload max).2 := by
  unfold publishIntoRoom
  rw [h.messages messages]
  split
  · exact ⟨rfl, h⟩
  · dsimp only
    split
    · exact ⟨rfl, h⟩
    · exact ⟨rfl, fun _ => rfl, h.acks, h.presence, h.reviews⟩

/-! ## Shared parts of the handlers -/

theorem ignores_update {α : Type} {f : ServiceState C → α × ServiceState C}
    (h : ∀ s t, Touch parts s t → (f s).1 = (f t).1 ∧ Touch parts (f s).2 (f t).2) :
    Ignores parts (Proc.update f : Handler C α) :=
  Proc.Coupled.update h

theorem ignores_modify {f : ServiceState C → ServiceState C}
    (h : ∀ s t, Touch parts s t → Touch parts (f s) (f t)) :
    Ignores parts (Proc.modify f : Handler C Unit) :=
  Proc.Coupled.modify rfl h

theorem ignores_pure {α : Type} (a : α) : Ignores parts (pure a : Handler C α) :=
  Proc.Coupled.pure rfl

theorem ignores_answer {α : Type} (r : Response) : Ignores parts (Proc.answer r : Handler C α) :=
  Proc.Coupled.answer rfl

theorem ignores_requireParam (request : Request) (key : String) :
    Ignores parts (requireParam request key : Handler C String) :=
  (Proc.Coupled.failIf _ _).bind_eq fun _ => ignores_pure _

theorem ignores_requireRoom (request : Request) : Ignores parts (requireRoom R request) :=
  (Proc.Coupled.failIf _ _).bind_eq fun _ => (Proc.Coupled.failWith _).bind_eq fun _ =>
    ignores_pure _

theorem ignores_requireObject (request : Request) :
    Ignores parts (requireObject request : Handler C JsonValue) := by
  unfold requireObject
  split
  · exact ignores_pure _
  · exact ignores_answer _

/-- The two rooms that are read differ in the listed parts only. -/
theorem apart_readRoom (room : String) :
    Proc.Coupled (apartCoupling C parts) (RoomState.Apart parts)
      (readRoom room : Handler C RoomState) (readRoom room) :=
  Proc.Coupled.update fun _ _ h => ⟨apart_roomOf h room, apart_openRoom h room⟩

theorem ignores_publishEntry (messages : .messages ∉ parts)
    (room sender topic id signature : String) (payload : JsonValue) (origin : String)
    (hopCount maxHops : Nat) :
    Ignores parts (Proc.update (ServiceState.publishEntry R room sender topic id signature payload
      origin hopCount maxHops) : Handler C PublishResult) := by
  refine ignores_update fun s t h => ?_
  obtain ⟨hresult, hrooms⟩ := apart_publishIntoRoom messages (apart_roomOf h room) room sender topic
    id signature payload R.config.maxMessagesPerRoom
  have hput := apart_putRoom h room hrooms
  unfold ServiceState.publishEntry
  generalize publishIntoRoom (s.roomOf room) room sender topic id signature payload
    R.config.maxMessagesPerRoom = p at hresult hput ⊢
  generalize publishIntoRoom (t.roomOf room) room sender topic id signature payload
    R.config.maxMessagesPerRoom = q at hresult hput ⊢
  obtain ⟨result, x⟩ := p
  obtain ⟨result', y⟩ := q
  obtain rfl : result = result' := hresult
  cases result with
  | accepted envelope cursor => exact ⟨rfl, apart_recordCacheExchange hput _ _ _ _⟩
  | invalidTopic topic => exact ⟨rfl, hput⟩
  | known cursor => exact ⟨rfl, hput⟩

/-- What the adapter keeps may differ as well: it only takes envelopes here. -/
theorem ignores_persistResult (result : PublishResult) :
    Ignores parts (Proc.modify (ServiceState.persistResult R result) : Handler C Unit) := by
  refine ignores_modify fun s t h => ?_
  cases result with
  | accepted envelope cursor =>
    exact apart_cache h fun hcache => by rw [show t.cache = s.cache from h .cache hcache]
  | invalidTopic topic => exact h
  | known cursor => exact h

/-! ## Rooms -/

theorem ignores_poll (messages : .messages ∉ parts) : Ignores parts (handlePoll R request) :=
  (Proc.Coupled.failIf _ _).bind_eq fun _ => (ignores_requireRoom request).bind_eq fun room =>
    (apart_readRoom room).bind fun x y hxy => Proc.Coupled.pure (by
      unfold pollFromRoom
      rw [hxy.messages messages])

theorem ignores_triggerResults (messages : .messages ∉ parts) :
    Ignores parts (handleTriggerResults R request) :=
  (Proc.Coupled.failIf _ _).bind_eq fun _ => (ignores_requireRoom request).bind_eq fun room =>
    (apart_readRoom room).bind fun x y hxy => Proc.Coupled.pure (by rw [hxy.messages messages])

theorem ignores_inboxPending (messages : .messages ∉ parts) (acks : .acks ∉ parts) :
    Ignores parts (handleInboxPending R request) :=
  (Proc.Coupled.failIf _ _).bind_eq fun _ => (ignores_requireRoom request).bind_eq fun room =>
    (ignores_requireParam request _).bind_eq fun consumer => (apart_readRoom room).bind
      fun x y hxy => Proc.Coupled.pure (by
        unfold inboxPendingFromRoom
        rw [hxy.messages messages, hxy.acks acks])

theorem ignores_inboxAck (acks : .acks ∉ parts) : Ignores parts (handleInboxAck R request) := by
  refine (Proc.Coupled.failIf _ _).bind_eq fun _ => (ignores_requireRoom request).bind_eq fun room =>
    (ignores_requireParam request _).bind_eq fun consumer => ignores_update fun s t h => ?_
  have hroom := apart_roomOf h room
  have hack : (ackIntoRoom (s.roomOf room) room consumer request.body).1 =
        (ackIntoRoom (t.roomOf room) room consumer request.body).1 ∧
      (ackIntoRoom (s.roomOf room) room consumer request.body).2.Apart parts
        (ackIntoRoom (t.roomOf room) room consumer request.body).2 := by
    unfold ackIntoRoom
    rw [hroom.acks acks]
    split
    · exact ⟨rfl, hroom⟩
    · exact ⟨rfl, hroom.messages, fun _ => rfl, hroom.presence, hroom.reviews⟩
  exact ⟨hack.1, apart_putRoom h room hack.2⟩

theorem ignores_presenceHeartbeat (presence : .presence ∉ parts) :
    Ignores parts (handlePresenceHeartbeat R request env) := by
  refine (Proc.Coupled.failIf _ _).bind_eq fun _ => (ignores_requireRoom request).bind_eq fun room =>
    (ignores_requireParam request _).bind_eq fun participant =>
      (Proc.Coupled.ofExcept _).bind_eq fun heartbeat => Proc.Coupled.bind_eq
        (ignores_update fun s t h => ?_) fun isNew => ignores_pure _
  have hroom := apart_roomOf h room
  dsimp only
  rw [hroom.presence presence]
  exact ⟨rfl, apart_putRoom h room ⟨hroom.messages, hroom.acks, fun _ => rfl, hroom.reviews⟩⟩

theorem ignores_presence (presence : .presence ∉ parts) :
    Ignores parts (handlePresence R request env) := by
  refine (ignores_requireRoom request).bind_eq fun room => Proc.Coupled.ite (fun _ => ?_) fun _ =>
    Proc.Coupled.ite (fun _ => ?_) fun _ => ignores_answer _
  · refine Proc.Coupled.bind (V := RoomState.Apart parts) (Proc.Coupled.update fun s t h => ?_)
      fun x y hxy => Proc.Coupled.pure (by rw [hxy.presence presence])
    have hroom := apart_roomOf h room
    have hpruned : (prunePresence (s.roomOf room) (nowEpochSec env.nowMs)
          R.config.presenceTtlSec).Apart parts
        (prunePresence (t.roomOf room) (nowEpochSec env.nowMs) R.config.presenceTtlSec) := by
      refine ⟨hroom.messages, hroom.acks, fun _ => ?_, hroom.reviews⟩
      unfold prunePresence
      rw [hroom.presence presence]
    exact ⟨hpruned, apart_putRoom h room hpruned⟩
  · refine (ignores_requireParam request _).bind_eq fun participant => Proc.Coupled.bind_eq
      (ignores_update fun s t h => ?_) fun removed => ignores_pure _
    have hroom := apart_roomOf h room
    dsimp only
    rw [hroom.presence presence]
    exact ⟨rfl, apart_putRoom h room ⟨hroom.messages, hroom.acks, fun _ => rfl, hroom.reviews⟩⟩

theorem ignores_reviewGet (reviews : .reviews ∉ parts) (room : String) :
    Ignores parts (handleReviewGet request room : Handler C Response) :=
  (ignores_requireParam request _).bind_eq fun prId => (Proc.Coupled.failIf _ _).bind_eq fun _ =>
    (apart_readRoom room).bind fun x y hxy => Proc.Coupled.pure (by rw [hxy.reviews reviews])

theorem ignores_webSocket : Ignores parts (handleWebSocket R request env) :=
  (Proc.Coupled.failIf _ _).bind_eq fun _ => (apart_readRoom _).bind fun _ _ _ =>
    (Proc.Coupled.failWith _).bind_eq fun _ => (Proc.Coupled.failIf _ _).bind_eq fun _ =>
      (Proc.Coupled.failIf _ _).bind_eq fun _ => ignores_pure _

/-! ## Signed requests -/

theorem ignores_updateKey (sender : String) (f : KeyRecord → KeyRecord) :
    Ignores parts (Proc.modify (ServiceState.updateKey sender f) : Handler C Unit) := by
  refine ignores_modify fun s t h => ?_
  have hself : ∀ u : ServiceState C, u.updateKey sender f =
      { u with keyRegistry := (u.updateKey sender f).keyRegistry } := by
    intro u
    unfold ServiceState.updateKey
    split
    · rfl
    · rfl
  rw [hself s, hself t]
  refine apart_keys h fun hkeys => ?_
  have hregistry : t.keyRegistry = s.keyRegistry := h .keys hkeys
  unfold ServiceState.updateKey
  rw [hregistry]
  split
  · exact hregistry
  · rfl

theorem ignores_checkReplay (nonces : .nonces ∉ parts) (sender nonce : String) (nowSec : Int) :
    Ignores parts (Proc.update (ServiceState.checkReplay R sender nonce nowSec) :
      Handler C Bool) := by
  refine ignores_update fun s t h => ?_
  have hnonces : t.noncesBySender = s.noncesBySender := h .nonces nonces
  unfold ServiceState.checkReplay
  rw [hnonces]
  exact ⟨rfl, apart_nonces h fun _ => rfl⟩

theorem ignores_remember (sender nonce : String) (ts nowSec : Int) :
    Ignores parts (Proc.modify (ServiceState.remember R sender nonce ts nowSec) :
      Handler C Unit) := by
  refine ignores_modify fun s t h => apart_nonces h fun hnonces => ?_
  rw [show t.noncesBySender = s.noncesBySender from h .nonces hnonces]

theorem ignores_checkFreshness (nonces : .nonces ∉ parts) (sender nonce : String)
    (ts nowSec : Int) : Ignores parts (checkFreshness R sender nonce ts nowSec) :=
  (Proc.Coupled.failIf _ _).bind_eq fun _ =>
    (ignores_checkReplay nonces sender nonce nowSec).bind_eq fun _ => Proc.Coupled.failIf _ _

theorem ignores_beginSignature (nonces : .nonces ∉ parts) (sender : String)
    (auth : PublishAuthHeaders) (message : String) (nowSec : Int) :
    Ignores parts (beginSignature R sender auth message nowSec) :=
  (ignores_checkFreshness nonces _ _ _ _).bind_eq fun _ => ignores_pure _

theorem ignores_bindKey (keys : .keys ∉ parts) (sender publicKey : String) (nowSec : Int) :
    Ignores parts (bindKey sender publicKey nowSec : Handler C Unit) := by
  refine Proc.Coupled.bind_eq (Proc.Coupled.gets_eq fun s t h => ?_) fun checked =>
    (Proc.Coupled.ofExcept _).bind_eq fun registry => ignores_modify fun s t h =>
      apart_keys h fun _ => rfl
  rw [show t.keyRegistry = s.keyRegistry from h .keys keys]

theorem ignores_finishSignature (keys : .keys ∉ parts) (pending : PendingSignature) :
    Ignores parts (finishSignature R pending) :=
  (Proc.Coupled.failIf _ _).bind_eq fun _ => (ignores_bindKey keys _ _ _).bind_eq fun _ =>
    ignores_remember _ _ _ _

/-- A rate limit answers by its own table and writes to no other. -/
theorem ignores_rateLimit {table : ServiceState C → OrdMap String RateCounter}
    {store : ServiceState C → OrdMap String RateCounter → ServiceState C} {key : String}
    {now max windowMs : Nat} {error : String}
    (htable : ∀ s t, Touch parts s t → table t = table s)
    (hstore : ∀ s t m, Touch parts s t → Touch parts (store s m) (store t m)) :
    Ignores parts (rateLimit table store key now max windowMs error) := by
  refine Proc.Coupled.bind_eq (ignores_update fun s t h => ?_) fun _ => Proc.Coupled.failIf _ _
  dsimp only
  rw [htable s t h]
  exact ⟨rfl, hstore s t _ h⟩

theorem ignores_publishArrive (rates : .rates ∉ parts) :
    Ignores parts (publishArrive R request env) := by
  -- The counters of one kind move alike, the other two kinds stay.
  have hsame : ∀ {s t : ServiceState C}, Touch parts s t →
      t.senderRateCounts = s.senderRateCounts ∧ t.ipRateCounts = s.ipRateCounts ∧
        t.roomRateCounts = s.roomRateCounts := fun h => h .rates rates
  refine (Proc.Coupled.failIf _ _).bind_eq fun _ => (ignores_requireParam request _).bind_eq
    fun sender => (ignores_requireRoom request).bind_eq fun room => Proc.Coupled.bind_eq ?_ fun _ =>
      Proc.Coupled.bind_eq ?_ fun _ => Proc.Coupled.bind_eq ?_ fun _ =>
        (Proc.Coupled.failIf _ _).bind_eq fun _ => ignores_pure _
  · unfold ipRateLimit
    refine Proc.Coupled.ite (fun _ => ignores_rateLimit (fun s t h => (hsame h).2.1)
      fun s t m h => ?_) fun _ => ignores_pure _
    exact apart_rates h (hsame h).1 rfl (hsame h).2.2
  · exact ignores_rateLimit (fun s t h => (hsame h).1) fun s t m h =>
      apart_rates h rfl (hsame h).2.1 (hsame h).2.2
  · exact ignores_rateLimit (fun s t h => (hsame h).2.2) fun s t m h =>
      apart_rates h (hsame h).1 (hsame h).2.1 rfl

theorem ignores_publishBegin (nonces : .nonces ∉ parts) (input : PublishInput) :
    Ignores parts (publishBegin R request input env) := by
  refine (Proc.Coupled.failIf _ _).bind_eq fun _ => (Proc.Coupled.ofExcept _).bind_eq fun _ =>
    Proc.Coupled.bind_eq ?_ fun _ => ignores_pure _
  refine (Proc.Coupled.ofExcept _).bind_eq fun auth => ?_
  cases auth with
  | none => exact (Proc.Coupled.failIf _ _).bind_eq fun _ => ignores_pure _
  | some auth => exact (ignores_beginSignature nonces _ _ _ _).bind_eq fun _ => ignores_pure _

theorem ignores_publish (messages : .messages ∉ parts) (rates : .rates ∉ parts)
    (keys : .keys ∉ parts) (nonces : .nonces ∉ parts) :
    Ignores parts (handlePublish R request env) := by
  have hfinish : ∀ pending, Ignores parts (finishSignatureVerification R pending) := by
    intro pending
    cases pending with
    | none => exact ignores_pure _
    | some pending => exact ignores_finishSignature keys pending
  have hsigned : Ignores parts (publishSigned R request env) :=
    (ignores_publishArrive rates).bind_eq fun input =>
      (ignores_publishBegin nonces input).bind_eq fun begun =>
        (hfinish begun.2).bind_eq fun _ => ignores_pure _
  exact hsigned.bind_eq fun _ => (ignores_publishEntry messages _ _ _ _ _ _ _ _ _).bind_eq
    fun result => (ignores_persistResult result).bind_eq fun _ => ignores_pure _

theorem ignores_review (reviews : .reviews ∉ parts) (keys : .keys ∉ parts)
    (nonces : .nonces ∉ parts) : Ignores parts (handleReview R request env) := by
  refine (ignores_requireRoom request).bind_eq fun room =>
    Proc.Coupled.ite (fun _ => ignores_reviewGet reviews room) fun _ =>
      Proc.Coupled.ite (fun _ => ?_) fun _ => ignores_answer _
  have hbegin : Ignores parts (reviewBegin R request room env) :=
    (ignores_requireParam request _).bind_eq fun _ => (ignores_requireParam request _).bind_eq
      fun _ => (Proc.Coupled.failIf _ _).bind_eq fun _ => (Proc.Coupled.ofExcept _).bind_eq fun _ =>
        (Proc.Coupled.ofExcept _).bind_eq fun _ => (Proc.Coupled.ofExcept _).bind_eq fun _ =>
          (ignores_beginSignature nonces _ _ _ _).bind_eq fun _ => ignores_pure _
  have hsigned : Ignores parts (reviewSigned R request room env) :=
    hbegin.bind_eq fun begun => (ignores_finishSignature keys begun.2).bind_eq fun _ =>
      ignores_pure _
  refine hsigned.bind_eq fun signed => Proc.Coupled.bind_eq (ignores_update fun s t h => ?_)
    fun _ => ignores_pure _
  have hroom := apart_roomOf h signed.1.room
  unfold ServiceState.submitReview
  dsimp only
  rw [hroom.reviews reviews]
  exact ⟨rfl, apart_putRoom h _ ⟨hroom.messages, hroom.acks, hroom.presence, fun _ => rfl⟩⟩

theorem ignores_keyRotate (keys : .keys ∉ parts) (nonces : .nonces ∉ parts) :
    Ignores parts (handleKeyRotate R request env) := by
  have hbegin : Ignores parts (rotateBegin R request env) := by
    refine (ignores_requireObject request).bind_eq fun _ => (Proc.Coupled.ofExcept _).bind_eq
      fun _ => (ignores_checkFreshness nonces _ _ _ _).bind_eq fun _ => Proc.Coupled.bind_eq
        (Proc.Coupled.gets_eq fun s t h => ?_) fun _ => (Proc.Coupled.ofExcept _).bind_eq
          fun _ => ignores_pure _
    rw [show t.keyRegistry = s.keyRegistry from h .keys keys]
  have hcommit : ∀ pending, Ignores parts (rotateCommit R pending) := fun pending =>
    (Proc.Coupled.failIf _ _).bind_eq fun _ => (Proc.Coupled.failIf _ _).bind_eq fun _ =>
      (ignores_updateKey _ _).bind_eq fun _ => ignores_remember _ _ _ _
  have hsigned : Ignores parts (rotateSigned R request env) :=
    (Proc.Coupled.failIf _ _).bind_eq fun _ => hbegin.bind_eq fun pending =>
      (hcommit pending).bind_eq fun _ => ignores_pure _
  exact hsigned.bind_eq fun _ => ignores_pure _

theorem ignores_keyInfo (keys : .keys ∉ parts) :
    Ignores parts (handleKeyInfo request : Handler C Response) := by
  refine (Proc.Coupled.failIf _ _).bind_eq fun _ => (ignores_requireParam request _).bind_eq
    fun _ => Proc.Coupled.bind_eq (Proc.Coupled.gets_eq fun s t h => ?_) fun _ =>
      (Proc.Coupled.ofExcept _).bind_eq fun _ => ignores_pure _
  rw [show t.keyRegistry = s.keyRegistry from h .keys keys]

theorem ignores_keyVerifyGitHub (keys : .keys ∉ parts) :
    Ignores parts (handleKeyVerifyGitHub request env : Handler C Response) := by
  have hregistry : ∀ {s t : ServiceState C}, Touch parts s t → t.keyRegistry = s.keyRegistry :=
    fun h => h .keys keys
  refine (Proc.Coupled.failIf _ _).bind_eq fun _ => Proc.Coupled.bind_eq ?_ fun sender =>
    (Proc.Coupled.ofExcept _).bind_eq fun _ => Proc.Coupled.bind_eq (Proc.Coupled.gets_eq
      fun s t h => by rw [hregistry h]) fun _ => (Proc.Coupled.failIf _ _).bind_eq fun _ =>
        (ignores_updateKey _ _).bind_eq fun _ => ignores_pure _
  exact (ignores_requireObject request).bind_eq fun _ => (Proc.Coupled.failIf _ _).bind_eq fun _ =>
    (Proc.Coupled.failIf _ _).bind_eq fun _ => (Proc.Coupled.failIf _ _).bind_eq fun _ =>
      Proc.Coupled.bind_eq (Proc.Coupled.gets_eq fun s t h => by rw [hregistry h]) fun _ =>
        (Proc.Coupled.failIf _ _).bind_eq fun _ => ignores_pure _

/-! ## The other writers -/

theorem ignores_triggerCallback (messages : .messages ∉ parts) :
    Ignores parts (handleTriggerCallback R request env) :=
  (Proc.Coupled.failIf _ _).bind_eq fun _ => (ignores_requireObject request).bind_eq fun _ =>
    (Proc.Coupled.ofExcept _).bind_eq fun _ =>
      (ignores_publishEntry messages _ _ _ _ _ _ _ _ _).bind_eq fun result =>
        (ignores_persistResult result).bind_eq fun _ => ignores_pure _

theorem ignores_pushEntry (messages : .messages ∉ parts) (i : Nat) (value : JsonValue)
    (counts : PushCounts) : Ignores parts (pushEntry R request i value counts) := by
  refine (Proc.Coupled.ofExcept _).bind_eq fun incoming => ?_
  split
  · exact ignores_pure _
  · refine (Proc.Coupled.failWith _).bind_eq fun _ => ?_
    split
    · exact ignores_pure _
    · refine Proc.Coupled.bind_eq (ignores_update fun s t h => ?_) fun existing => ?_
      · unfold findEnvelopeById
        rw [(apart_roomOf h incoming.room).messages messages]
        exact ⟨rfl, apart_openRoom h _⟩
      · cases existing with
        | some existing => exact ignores_pure _
        | none =>
          exact (ignores_publishEntry messages _ _ _ _ _ _ _ _ _).bind_eq fun result =>
            (ignores_persistResult result).bind_eq fun _ => ignores_pure _

theorem ignores_pushEntries (messages : .messages ∉ parts) (entries : List JsonValue) (i : Nat)
    (counts : PushCounts) : Ignores parts (pushEntries R request entries i counts) := by
  induction entries generalizing i counts with
  | nil => exact ignores_pure _
  | cons value rest ih =>
    exact (ignores_pushEntry messages i value counts).bind_eq fun _ => ih _ _

theorem ignores_cacheExchangePush (messages : .messages ∉ parts) (exchange : .exchange ∉ parts) :
    Ignores parts (handleCacheExchangePush R request) := by
  refine (Proc.Coupled.failIf _ _).bind_eq fun _ => (Proc.Coupled.failWith _).bind_eq fun _ =>
    (ignores_requireObject request).bind_eq fun _ => (Proc.Coupled.ofExcept _).bind_eq fun _ =>
      (ignores_pushEntries messages _ _ _).bind_eq fun _ => Proc.Coupled.bind_eq
        (Proc.Coupled.gets_eq fun s t h => ?_) fun _ => ignores_pure _
  exact (h .exchange exchange).2.symm

theorem ignores_cacheExchangePull (exchange : .exchange ∉ parts) :
    Ignores parts (handleCacheExchangePull R request) := by
  refine (Proc.Coupled.failIf _ _).bind_eq fun _ => (Proc.Coupled.failWith _).bind_eq fun _ =>
    (Proc.Coupled.failWith _).bind_eq fun _ => Proc.Coupled.bind_eq
      (Proc.Coupled.gets_eq fun s t h => ?_) fun _ => ignores_pure _
  rw [(h .exchange exchange).1]

theorem ignores_cacheIssuePull (cache : .cache ∉ parts) :
    Ignores parts (handleCacheIssuePull R request) := by
  refine (Proc.Coupled.failIf _ _).bind_eq fun _ => (Proc.Coupled.failWith _).bind_eq fun _ =>
    (ignores_requireRoom request).bind_eq fun _ => Proc.Coupled.bind_eq
      (Proc.Coupled.gets_eq fun s t h => ?_) fun _ => ignores_pure _
  rw [show t.cache = s.cache from h .cache cache]

theorem ignores_cacheIssueSync (cache : .cache ∉ parts) :
    Ignores parts (handleCacheIssueSync R request) := by
  refine (Proc.Coupled.failIf _ _).bind_eq fun _ => (Proc.Coupled.failWith _).bind_eq fun _ =>
    (ignores_requireRoom request).bind_eq fun _ => Proc.Coupled.bind_eq
      (ignores_update fun s t h => ?_) fun _ => ignores_pure _
  dsimp only
  rw [show t.cache = s.cache from h .cache cache]
  exact ⟨rfl, apart_cache h fun _ => rfl⟩

theorem ignores_applyDelivery (messages : .messages ∉ parts) (issueSync : .issueSync ∉ parts)
    (event deliveryId : String) (requestBody : Body) (nowSec : Int) :
    Ignores parts (applyGitHubWebhookDelivery R event deliveryId requestBody nowSec) := by
  have hengine : ∀ {s t : ServiceState C}, Touch parts s t →
      t.githubIssueSync = s.githubIssueSync := fun h => h .issueSync issueSync
  refine Proc.Coupled.bind_eq (Proc.Coupled.gets_eq fun s t h => by rw [hengine h])
    fun checked => ?_
  cases checked with
  | error result => exact ignores_pure _
  | ok mapped =>
    refine (ignores_publishEntry messages _ _ _ _ _ _ _ _ _).bind_eq fun result =>
      (ignores_persistResult result).bind_eq fun _ => Proc.Coupled.ite (fun _ => ignores_pure _)
        fun _ => Proc.Coupled.bind_eq (ignores_modify fun s t h => ?_) fun _ => ignores_pure _
    unfold ServiceState.settleDelivery
    rw [hengine h]
    exact apart_issueSync h fun _ => rfl

theorem ignores_enqueueDlq (issueSync : .issueSync ∉ parts) (deliveryId event : String)
    (body : Body) (error : String) (incrementRetry : Bool) (nowSec : Int) :
    Ignores parts (Proc.update (ServiceState.enqueueDlq deliveryId event body error incrementRetry
      nowSec) : Handler C IssueSyncDlqEntry) := by
  refine ignores_update fun s t h => ?_
  unfold ServiceState.enqueueDlq
  rw [show t.githubIssueSync = s.githubIssueSync from h .issueSync issueSync]
  exact ⟨rfl, apart_issueSync h fun _ => rfl⟩

theorem ignores_githubWebhook (messages : .messages ∉ parts) (issueSync : .issueSync ∉ parts) :
    Ignores parts (handleGitHubWebhook R request env) := by
  refine (Proc.Coupled.failIf _ _).bind_eq fun _ => (Proc.Coupled.failIf _ _).bind_eq fun _ =>
    (Proc.Coupled.failIf _ _).bind_eq fun _ => (Proc.Coupled.ofExcept _).bind_eq fun _ =>
      (ignores_applyDelivery messages issueSync _ _ _ _).bind_eq fun result => ?_
  cases result with
  | failed error =>
    exact (ignores_enqueueDlq issueSync _ _ _ _ _ _).bind_eq fun _ => ignores_pure _
  | duplicate deliveryId event => exact ignores_pure _
  | published deliveryId event accepted mapped cursor => exact ignores_pure _

theorem ignores_dlqRetry (messages : .messages ∉ parts) (issueSync : .issueSync ∉ parts) :
    Ignores parts (handleGitHubWebhookDlqRetry R request env) := by
  have hengine : ∀ {s t : ServiceState C}, Touch parts s t →
      t.githubIssueSync = s.githubIssueSync := fun h => h .issueSync issueSync
  have hremove : ∀ (deliveryId : String) (response : Response), Ignores parts
      (Proc.modify (fun s : ServiceState C =>
        { s with githubIssueSync := s.githubIssueSync.removeDlq deliveryId }) >>= fun _ =>
          pure response) := by
    intro deliveryId response
    refine Proc.Coupled.bind_eq (ignores_modify fun s t h => ?_) fun _ => ignores_pure _
    exact apart_issueSync h fun _ => by rw [hengine h]
  refine (Proc.Coupled.failIf _ _).bind_eq fun _ => (ignores_requireParam request _).bind_eq
    fun deliveryId => Proc.Coupled.bind_eq (Proc.Coupled.gets_eq fun s t h => by rw [hengine h])
      fun found => (Proc.Coupled.ofExcept _).bind_eq fun found =>
        (ignores_applyDelivery messages issueSync _ _ _ _).bind_eq fun result => ?_
  cases result with
  | failed error =>
    exact (ignores_enqueueDlq issueSync _ _ _ _ _ _).bind_eq fun _ => ignores_pure _
  | duplicate deliveryId event => exact hremove _ _
  | published deliveryId event accepted mapped cursor => exact hremove _ _

theorem ignores_dlqList (issueSync : .issueSync ∉ parts) :
    Ignores parts (handleGitHubWebhookDlqList request : Handler C Response) := by
  refine (Proc.Coupled.failIf _ _).bind_eq fun _ => Proc.Coupled.bind_eq
    (Proc.Coupled.gets_eq fun s t h => ?_) fun _ => ignores_pure _
  rw [show t.githubIssueSync = s.githubIssueSync from h .issueSync issueSync]

end

end ReadsLemmas

open ReadsLemmas

/-! ## Whole requests -/

section
variable {C : Type} {R : Relay C} {parts : List StatePart} {s t : ServiceState C}
  {request : Request} {env : Env}

theorem reads_handle {endpoint : Endpoint} (h : ∀ part ∈ endpoint.readsFrom, part ∉ parts) :
    Ignores parts (endpoint.handle R request env) := by
  cases endpoint with
  | keyInfo => exact ignores_keyInfo (h _ (by decide))
  | keyRotate => exact ignores_keyRotate (h _ (by decide)) (h _ (by decide))
  | keyVerifyGitHub => exact ignores_keyVerifyGitHub (h _ (by decide))
  | githubWebhook => exact ignores_githubWebhook (h _ (by decide)) (h _ (by decide))
  | githubWebhookDlq => exact ignores_dlqList (h _ (by decide))
  | githubWebhookDlqRetry => exact ignores_dlqRetry (h _ (by decide)) (h _ (by decide))
  | triggerCallback => exact ignores_triggerCallback (h _ (by decide))
  | triggerResults => exact ignores_triggerResults (h _ (by decide))
  | cacheExchangeDiscovery =>
    exact (Proc.Coupled.failIf _ _).bind_eq fun _ => (Proc.Coupled.failWith _).bind_eq fun _ =>
      ignores_pure _
  | cacheExchangePull => exact ignores_cacheExchangePull (h _ (by decide))
  | cacheExchangePush => exact ignores_cacheExchangePush (h _ (by decide)) (h _ (by decide))
  | cacheIssuesPull => exact ignores_cacheIssuePull (h _ (by decide))
  | cacheIssuesSync => exact ignores_cacheIssueSync (h _ (by decide))
  | ws => exact ignores_webSocket
  | publish =>
    exact ignores_publish (h _ (by decide)) (h _ (by decide)) (h _ (by decide)) (h _ (by decide))
  | poll => exact ignores_poll (h _ (by decide))
  | inboxPending => exact ignores_inboxPending (h _ (by decide)) (h _ (by decide))
  | inboxAck => exact ignores_inboxAck (h _ (by decide))
  | presenceHeartbeat => exact ignores_presenceHeartbeat (h _ (by decide))
  | presence => exact ignores_presence (h _ (by decide))
  | review => exact ignores_review (h _ (by decide)) (h _ (by decide)) (h _ (by decide))

theorem reads_fetch (env : Env)
    (h : ∀ endpoint, Endpoint.ofPath request.pathname = some endpoint →
      ∀ part ∈ endpoint.readsFrom, part ∉ parts) : Ignores parts (fetch R request env) := by
  unfold fetch
  refine Proc.Coupled.ite (fun _ => ignores_pure _) fun _ =>
    Proc.Coupled.ite (fun _ => ignores_pure _) fun _ => ?_
  split
  · next endpoint hendpoint =>
    exact (Proc.Coupled.failWith _).bind_eq fun _ => reads_handle (h endpoint hendpoint)
  · exact (Proc.Coupled.failWith _).bind_eq fun _ => ignores_pure _

/-- Services that differ in parts the request does not read answer it alike, and differ in no other
part afterwards. -/
theorem reads_serve (env : Env)
    (h : ∀ endpoint, Endpoint.ofPath request.pathname = some endpoint →
      ∀ part ∈ endpoint.readsFrom, part ∉ parts) (hst : Touch parts s t) :
    (serve R request env s).1 = (serve R request env t).1 ∧
      Touch parts (serve R request env s).2 (serve R request env t).2 := by
  have houtcome := reads_fetch (R := R) env h s t hst
  unfold serve Handler.serve
  generalize (fetch R request env).run s = r at houtcome ⊢
  generalize (fetch R request env).run t = r' at houtcome ⊢
  cases houtcome with
  | ok hvalue hstate => exact ⟨hvalue, hstate⟩
  | error hanswer hstate => exact ⟨hanswer, hstate⟩
  | oddLeft hodd => exact hodd.elim
  | oddRight hodd => exact hodd.elim

/-- A request writes to the parts of its endpoint. -/
theorem serve_touches {part : StatePart} (request : Request) (env : Env) (s : ServiceState C)
    (h : ∀ endpoint, Endpoint.ofPath request.pathname = some endpoint →
      part ∉ endpoint.writesTo) : s.SamePart (serve R request env s).2 part := by
  have hfetch : ∃ parts, part ∉ parts ∧ Touches parts (fetch R request env) := by
    unfold fetch
    split
    · exact ⟨[], List.not_mem_nil, Proc.Leads.pure _⟩
    split
    · exact ⟨[], List.not_mem_nil, Proc.Leads.pure _⟩
    split
    · next endpoint hendpoint =>
      exact ⟨endpoint.writesTo, h endpoint hendpoint,
        (Proc.Leads.failWith _).bind fun _ => touches_handle endpoint⟩
    · exact ⟨[], List.not_mem_nil, (Proc.Leads.failWith _).bind fun _ => Proc.Leads.pure _⟩
  obtain ⟨parts, hpart, hleads⟩ := hfetch
  unfold serve
  rw [serve_state]
  exact Touch.kept (hleads s) hpart

/-- A request writes to no other parts than the listed ones. -/
theorem touch_serve (request : Request) (env : Env) (s : ServiceState C)
    (h : ∀ endpoint, Endpoint.ofPath request.pathname = some endpoint →
      ∀ part ∈ endpoint.writesTo, part ∈ parts) : Touch parts s (serve R request env s).2 :=
  fun part hpart => serve_touches request env s fun endpoint hendpoint hwrites =>
    hpart (h endpoint hendpoint part hwrites)

end

/-! ## Gates -/

/-- When the condition holds the first handler does what the second one does. Otherwise it refuses
the request, whatever the state is, and leaves the state as it was. -/
def GatedBy {C : Type} (c : Prop) (x y : Handler C Response) : Prop :=
  (¬ c ∧ ∃ r : Response, r.status ≠ 200 ∧ ∀ s, x.serve s = (r, s)) ∨
    c ∧ ∀ s, x.serve s = y.serve s

namespace GatedBy

section
variable {C : Type} {R : Relay C} {request : Request} {env : Env} {c : Prop}
  {x y : Handler C Response}

theorem refl (x : Handler C Response) : GatedBy True x x := .inr ⟨trivial, fun _ => rfl⟩

/-- A gate in front: with it the request is refused, or nothing changes. -/
theorem gate {isOpen : Prop} {x' : Handler C Response} (h : GatedBy c x y)
    (hshut : ¬ isOpen → ∃ r : Response, r.status ≠ 200 ∧ ∀ s, x'.serve s = (r, s))
    (hopen : isOpen → ∀ s, x'.serve s = x.serve s) : GatedBy (isOpen ∧ c) x' y := by
  rcases Classical.em isOpen with hyes | hno
  · rcases h with ⟨hc, r, hr, hrefuses⟩ | ⟨hc, hserves⟩
    · exact .inl ⟨fun hboth => hc hboth.2, r, hr, fun s => (hopen hyes s).trans (hrefuses s)⟩
    · exact .inr ⟨⟨hyes, hc⟩, fun s => (hopen hyes s).trans (hserves s)⟩
  · exact .inl ⟨fun hboth => hno hboth.1, hshut hno⟩

theorem failIf {d : Prop} [Decidable d] {r : Response} (hr : r.status ≠ 200)
    (h : GatedBy c x y) : GatedBy (¬ d ∧ c) (Proc.failIf d r >>= fun _ => x) y := by
  refine h.gate (fun hd => ⟨r, hr, fun s => ?_⟩) fun hd s => ?_
  · rw [Proc.failIf, if_pos (Decidable.not_not.mp hd)]
    rfl
  · rw [Proc.failIf, if_neg hd]
    rfl

theorem failWith {o : Option Response} (ho : ∀ r, o = some r → r.status ≠ 200)
    (h : GatedBy c x y) : GatedBy (o = none ∧ c) (Proc.failWith o >>= fun _ => x) y := by
  refine h.gate (fun hsome => ?_) fun hnone s => ?_
  · obtain ⟨r, hr⟩ := Option.ne_none_iff_exists'.mp hsome
    exact ⟨r, ho r hr, fun s => by rw [hr]; rfl⟩
  · rw [hnone]
    rfl

/-- Another spelling of the handler. -/
theorem of_eq {x' : Handler C Response} (heq : x' = x) (h : GatedBy c x y) : GatedBy c x' y :=
  heq ▸ h

theorem ite_pos {d : Prop} [Decidable d] {z : Handler C Response} (hd : d) (h : GatedBy c x y) :
    GatedBy c (if d then x else z) y := by
  rwa [if_pos hd]

theorem requireMethod {method : String} (h : GatedBy c x y) :
    GatedBy (request.method = method ∧ c)
      (BitRelay.requireMethod request method >>= fun _ => x) y := by
  have hgate := h.failIf (d := request.method ≠ method) (r := methodNotAllowedResponse) (by decide)
  rwa [Decidable.not_not] at hgate

theorem checkRoomToken_status {room : String} {r : Response}
    (h : checkRoomToken R request room = some r) : r.status ≠ 200 := by
  unfold checkRoomToken at h
  split at h
  · cases h
  · dsimp only at h
    split at h
    · cases h
      decide
    · cases h

theorem requireRoom {f : String → Handler C Response}
    (h : GatedBy c (f (normalizeRoom (request.param "room"))) y) :
    GatedBy ((isValidRoomName (normalizeRoom (request.param "room")) = true ∧
        checkRoomToken R request (normalizeRoom (request.param "room")) = none) ∧ c)
      (BitRelay.requireRoom R request >>= f) y := by
  refine h.gate (fun hshut => ?_) fun hopen s => ?_
  · unfold BitRelay.requireRoom Proc.failIf
    dsimp only
    split
    · exact ⟨invalidRoomResponse, by decide, fun _ => rfl⟩
    · next hvalid =>
      cases htoken : checkRoomToken R request (normalizeRoom (request.param "room")) with
      | some r => exact ⟨r, checkRoomToken_status htoken, fun _ => rfl⟩
      | none => exact absurd ⟨eq_true_of_ne_false hvalid, htoken⟩ hshut
  · unfold BitRelay.requireRoom Proc.failIf
    dsimp only
    rw [if_neg (by rw [hopen.1]; decide), hopen.2]
    rfl

theorem missingQuery_status (key : String) :
    (toErrorResponse ("missing query: " ++ key) 400).status ≠ 200 := by
  show 400 ≠ 200
  decide

theorem requireParam {key : String} {f : String → Handler C Response}
    (h : GatedBy c (f (request.paramTrim key)) y) :
    GatedBy (request.paramTrim key ≠ "" ∧ c) (BitRelay.requireParam request key >>= f) y := by
  refine h.gate (fun hblank => ⟨_, missingQuery_status key, fun s => ?_⟩) fun hparam s => ?_
  · unfold BitRelay.requireParam Proc.failIf
    rw [if_pos (Decidable.not_not.mp hblank)]
    rfl
  · unfold BitRelay.requireParam Proc.failIf
    rw [if_neg hparam]
    rfl

end

end GatedBy

/-- Behind the relay token a request is served by the handler of its endpoint. -/
theorem gated_fetch {C : Type} {R : Relay C} {request : Request} (env : Env) {endpoint : Endpoint}
    {c : Prop} {y : Handler C Response} (hpath : request.pathname = endpoint.path)
    (h : GatedBy c (endpoint.handle R request env) y) :
    GatedBy (checkAuth R request = none ∧ c) (fetch R request env) y := by
  have hserve : ∀ s, (fetch R request env).serve s =
      ((Proc.failWith (checkAuth R request) >>= fun _ => endpoint.handle R request env) :
        Handler C Response).serve s :=
    fun s => serve_endpoint (by rw [hpath, Endpoint.ofPath_path])
  have hgate : GatedBy (checkAuth R request = none ∧ c)
      ((Proc.failWith (checkAuth R request) >>= fun _ => endpoint.handle R request env) :
        Handler C Response) y := by
    refine GatedBy.failWith (fun r hr => ?_) h
    unfold checkAuth at hr
    dsimp only at hr
    split at hr
    · cases hr
      decide
    · cases hr
  rcases hgate with ⟨hc, r, hr, hrefuses⟩ | ⟨hc, hserves⟩
  · exact .inl ⟨hc, r, hr, fun s => (hserve s).trans (hrefuses s)⟩
  · exact .inr ⟨hc, fun s => (hserve s).trans (hserves s)⟩

end BitRelay
