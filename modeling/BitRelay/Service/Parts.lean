import BitRelay.InFlight

/-!
# The parts of the state that a request writes to

The state of the service falls into parts: what the rooms hold of messages, acknowledgements,
presence and reviews, and the tables beside the rooms. `Touch parts` allows a change of the listed
parts and of no other.

Results:
1. `touches_handle`: a request to an endpoint writes to the parts of that endpoint.
2. `touches_start`, `touches_resume`: so do its segments when it is in flight.
3. `Touch.kept`: what a chain of such changes keeps.
-/

namespace BitRelay

/-! ## Parts -/

inductive StatePart
  | messages
  | acks
  | presence
  | reviews
  | rates
  | keys
  | nonces
  | exchange
  | issueSync
  | cache
  deriving DecidableEq

/-- The parts that a request to an endpoint writes to. -/
def Endpoint.writesTo : Endpoint → List StatePart
  | keyRotate => [.keys, .nonces]
  | keyVerifyGitHub => [.keys]
  | githubWebhook | githubWebhookDlqRetry => [.messages, .exchange, .issueSync, .cache]
  | triggerCallback | cacheExchangePush => [.messages, .exchange, .cache]
  | cacheIssuesSync => [.cache]
  | publish => [.messages, .rates, .keys, .nonces, .exchange, .cache]
  | inboxAck => [.acks]
  | presenceHeartbeat | presence => [.presence]
  | review => [.reviews, .keys, .nonces]
  | keyInfo | githubWebhookDlq | triggerResults | cacheExchangeDiscovery | cacheExchangePull
  | cacheIssuesPull | ws | poll | inboxPending => []

/-- The parts that a phase of a request in flight writes to. -/
def Phase.writesTo : Phase → List StatePart
  | publishBody _ | rotateBody => [.nonces]
  | publishVerify _ _ _ | rotateVerify _ => [.keys, .nonces]
  | publishReturn _ _ _ => [.messages, .exchange]
  | publishPersist _ => [.cache]
  | reviewVerify _ _ => [.reviews, .keys, .nonces]
  | gitHubBody => []
  | gitHubKeys _ => [.keys]

section
variable {C : Type}

/-- A part is the same in both states. -/
def ServiceState.SamePart (s s' : ServiceState C) : StatePart → Prop
  | .messages => ∀ room, (s'.roomOf room).messages = (s.roomOf room).messages
  | .acks => ∀ room, (s'.roomOf room).acksByConsumer = (s.roomOf room).acksByConsumer
  | .presence => ∀ room,
    (s'.roomOf room).presenceByParticipant = (s.roomOf room).presenceByParticipant
  | .reviews => ∀ room, (s'.roomOf room).reviewsByPr = (s.roomOf room).reviewsByPr
  | .rates => s'.senderRateCounts = s.senderRateCounts ∧ s'.ipRateCounts = s.ipRateCounts ∧
    s'.roomRateCounts = s.roomRateCounts
  | .keys => s'.keyRegistry = s.keyRegistry
  | .nonces => s'.noncesBySender = s.noncesBySender
  | .exchange => s'.cacheExchangeRecords = s.cacheExchangeRecords ∧
    s'.cacheExchangeCursor = s.cacheExchangeCursor
  | .issueSync => s'.githubIssueSync = s.githubIssueSync
  | .cache => s'.cache = s.cache

/-- The parts that are not listed stay. -/
def Touch (parts : List StatePart) (s s' : ServiceState C) : Prop :=
  ∀ part, part ∉ parts → s.SamePart s' part

variable {parts : List StatePart} {s s' s'' : ServiceState C}

theorem ServiceState.SamePart.refl (s : ServiceState C) (part : StatePart) : s.SamePart s part := by
  cases part with
  | messages | acks | presence | reviews => exact fun _ => rfl
  | rates => exact ⟨rfl, rfl, rfl⟩
  | exchange => exact ⟨rfl, rfl⟩
  | keys | nonces | issueSync | cache => rfl

theorem ServiceState.SamePart.trans {part : StatePart} (h : s.SamePart s' part)
    (h' : s'.SamePart s'' part) : s.SamePart s'' part := by
  cases part with
  | messages | acks | presence | reviews => exact fun room => (h' room).trans (h room)
  | rates => exact ⟨h'.1.trans h.1, h'.2.1.trans h.2.1, h'.2.2.trans h.2.2⟩
  | exchange => exact ⟨h'.1.trans h.1, h'.2.trans h.2⟩
  | keys | nonces | issueSync | cache => exact Eq.trans h' h

/-- A chain of changes keeps the parts that none of them may touch. -/
theorem Touch.kept (h : Relation.ReflTransGen (Touch parts) s s') {part : StatePart}
    (hpart : part ∉ parts) : s.SamePart s' part := by
  induction h with
  | refl => exact .refl s part
  | tail _ hstep ih => exact ih.trans (hstep part hpart)

/-! ## Updates -/

/-- The computation writes to no other parts. -/
abbrev Touches {α : Type} (parts : List StatePart) (x : Handler C α) : Prop :=
  Proc.Leads (Touch parts) x

namespace TouchLemmas

theorem touch_refl (s : ServiceState C) : Touch parts s s := fun _ _ => .refl s _

/-- A room is written to, in some of its parts. -/
theorem touch_putRoom {room : String} {roomState : RoomState}
    (messages : .messages ∈ parts ∨ roomState.messages = (s.roomOf room).messages)
    (acks : .acks ∈ parts ∨ roomState.acksByConsumer = (s.roomOf room).acksByConsumer)
    (presence : .presence ∈ parts ∨
      roomState.presenceByParticipant = (s.roomOf room).presenceByParticipant)
    (reviews : .reviews ∈ parts ∨ roomState.reviewsByPr = (s.roomOf room).reviewsByPr) :
    Touch parts s (s.putRoom room roomState) := by
  have hroom : ∀ {α : Type} (f : RoomState → α), f roomState = f (s.roomOf room) →
      ∀ other, f ((s.putRoom room roomState).roomOf other) = f (s.roomOf other) := by
    intro α f hf other
    by_cases heq : other = room
    · rw [heq, ServiceState.roomOf_putRoom_self, hf]
    · rw [ServiceState.roomOf_putRoom_of_ne s heq]
  intro part hpart
  cases part with
  | messages => exact hroom RoomState.messages (messages.resolve_left hpart)
  | acks => exact hroom RoomState.acksByConsumer (acks.resolve_left hpart)
  | presence => exact hroom RoomState.presenceByParticipant (presence.resolve_left hpart)
  | reviews => exact hroom RoomState.reviewsByPr (reviews.resolve_left hpart)
  | rates => exact ⟨rfl, rfl, rfl⟩
  | exchange => exact ⟨rfl, rfl⟩
  | keys | nonces | issueSync | cache => rfl

theorem touch_openRoom (room : String) : Touch parts s (s.openRoom room) :=
  touch_putRoom (.inr rfl) (.inr rfl) (.inr rfl) (.inr rfl)

theorem touch_rates (h : .rates ∈ parts) (senderRateCounts ipRateCounts roomRateCounts) :
    Touch parts s { s with senderRateCounts, ipRateCounts, roomRateCounts } := by
  intro part hpart
  cases part with
  | rates => exact absurd h hpart
  | messages | acks | presence | reviews => exact fun _ => rfl
  | exchange => exact ⟨rfl, rfl⟩
  | keys | nonces | issueSync | cache => rfl

theorem touch_keys (h : .keys ∈ parts) (keyRegistry) : Touch parts s { s with keyRegistry } := by
  intro part hpart
  cases part with
  | keys => exact absurd h hpart
  | messages | acks | presence | reviews => exact fun _ => rfl
  | rates => exact ⟨rfl, rfl, rfl⟩
  | exchange => exact ⟨rfl, rfl⟩
  | nonces | issueSync | cache => rfl

theorem touch_nonces (h : .nonces ∈ parts) (noncesBySender) :
    Touch parts s { s with noncesBySender } := by
  intro part hpart
  cases part with
  | nonces => exact absurd h hpart
  | messages | acks | presence | reviews => exact fun _ => rfl
  | rates => exact ⟨rfl, rfl, rfl⟩
  | exchange => exact ⟨rfl, rfl⟩
  | keys | issueSync | cache => rfl

theorem touch_exchange (h : .exchange ∈ parts) (cacheExchangeRecords cacheExchangeCursor) :
    Touch parts s { s with cacheExchangeRecords, cacheExchangeCursor } := by
  intro part hpart
  cases part with
  | exchange => exact absurd h hpart
  | messages | acks | presence | reviews => exact fun _ => rfl
  | rates => exact ⟨rfl, rfl, rfl⟩
  | keys | nonces | issueSync | cache => rfl

theorem touch_issueSync (h : .issueSync ∈ parts) (githubIssueSync) :
    Touch parts s { s with githubIssueSync } := by
  intro part hpart
  cases part with
  | issueSync => exact absurd h hpart
  | messages | acks | presence | reviews => exact fun _ => rfl
  | rates => exact ⟨rfl, rfl, rfl⟩
  | exchange => exact ⟨rfl, rfl⟩
  | keys | nonces | cache => rfl

theorem touch_cache (h : .cache ∈ parts) (cache : C) : Touch parts s { s with cache } := by
  intro part hpart
  cases part with
  | cache => exact absurd h hpart
  | messages | acks | presence | reviews => exact fun _ => rfl
  | rates => exact ⟨rfl, rfl, rfl⟩
  | exchange => exact ⟨rfl, rfl⟩
  | keys | nonces | issueSync => rfl

variable {R : Relay C} {request : Request} {env : Env}

theorem touches_update {α : Type} {f : ServiceState C → α × ServiceState C}
    (h : ∀ s, Touch parts s (f s).2) : Touches parts (Proc.update f : Handler C α) :=
  Proc.Leads.update fun s => .single (h s)

theorem touches_modify {f : ServiceState C → ServiceState C} (h : ∀ s, Touch parts s (f s)) :
    Touches parts (Proc.modify f : Handler C Unit) :=
  Proc.Leads.modify h

/-! ## Shared parts of the handlers -/

theorem touches_requireMethod (request : Request) (method : String) :
    Touches parts (requireMethod request method : Handler C Unit) :=
  Proc.Leads.failIf _ _

theorem touches_requireParam (request : Request) (key : String) :
    Touches parts (requireParam request key : Handler C String) :=
  (Proc.Leads.failIf _ _).bind fun _ => Proc.Leads.pure _

theorem touches_requireRoom (request : Request) : Touches parts (requireRoom R request) :=
  (Proc.Leads.failIf _ _).bind fun _ => (Proc.Leads.failWith _).bind fun _ => Proc.Leads.pure _

theorem touches_requireObject (request : Request) :
    Touches parts (requireObject request : Handler C JsonValue) := by
  unfold requireObject
  split
  · exact Proc.Leads.pure _
  · exact Proc.Leads.answer _

theorem touches_readRoom (room : String) :
    Touches parts (readRoom room : Handler C RoomState) :=
  touches_update fun _ => touch_openRoom room

/-- A publish leaves all of its room but the messages. -/
theorem publishIntoRoom_rest (roomState : RoomState) (room sender topic id signature : String)
    (payload : JsonValue) (max : Nat) :
    ∃ messages, (publishIntoRoom roomState room sender topic id signature payload max).2 =
      { roomState with messages } := by
  unfold publishIntoRoom
  split
  · exact ⟨roomState.messages, rfl⟩
  · dsimp only
    split
    · exact ⟨_, rfl⟩
    · exact ⟨_, rfl⟩

theorem touches_publishEntry (messages : .messages ∈ parts) (exchange : .exchange ∈ parts)
    (room sender topic id signature : String) (payload : JsonValue) (origin : String)
    (hopCount maxHops : Nat) :
    Touches parts (Proc.update (ServiceState.publishEntry R room sender topic id signature payload
      origin hopCount maxHops) : Handler C PublishResult) := by
  refine Proc.Leads.update fun s => ?_
  obtain ⟨stored, hrest⟩ := publishIntoRoom_rest (s.roomOf room) room sender topic id signature
    payload R.config.maxMessagesPerRoom
  have hput : Touch parts s (s.putRoom room (publishIntoRoom (s.roomOf room) room sender topic id
      signature payload R.config.maxMessagesPerRoom).2) := by
    rw [hrest]
    exact touch_putRoom (.inl messages) (.inr rfl) (.inr rfl) (.inr rfl)
  unfold ServiceState.publishEntry
  dsimp only
  split
  · exact .tail (.single hput) (touch_exchange exchange _ _)
  · exact .single hput
  · exact .single hput

theorem touches_persistResult (h : .cache ∈ parts) (result : PublishResult) :
    Touches parts (Proc.modify (ServiceState.persistResult R result) : Handler C Unit) := by
  cases result with
  | accepted envelope cursor => exact touches_modify fun _ => touch_cache h _
  | invalidTopic topic => exact fun _ => .refl
  | known cursor => exact fun _ => .refl

/-! ## Readers and room bookkeeping -/

/-- An acknowledgement leaves all of its room but the acknowledgements. -/
theorem ackIntoRoom_rest (roomState : RoomState) (room consumer : String) (body : Body) :
    ∃ acksByConsumer, (ackIntoRoom roomState room consumer body).2 =
      { roomState with acksByConsumer } := by
  unfold ackIntoRoom
  split
  · exact ⟨roomState.acksByConsumer, rfl⟩
  · exact ⟨_, rfl⟩

theorem touches_inboxAck (h : .acks ∈ parts) (request : Request) :
    Touches parts (handleInboxAck R request) := by
  refine (touches_requireMethod _ _).bind fun _ => (touches_requireRoom _).bind fun room =>
    (touches_requireParam _ _).bind fun consumer => touches_update fun s => ?_
  obtain ⟨stored, hrest⟩ := ackIntoRoom_rest (s.roomOf room) room consumer request.body
  show Touch parts s (s.putRoom room (ackIntoRoom (s.roomOf room) room consumer request.body).2)
  rw [hrest]
  exact touch_putRoom (.inr rfl) (.inl h) (.inr rfl) (.inr rfl)

theorem touches_presenceHeartbeat (h : .presence ∈ parts) (request : Request) (env : Env) :
    Touches parts (handlePresenceHeartbeat R request env) :=
  (touches_requireMethod _ _).bind fun _ => (touches_requireRoom _).bind fun _ =>
    (touches_requireParam _ _).bind fun _ => (Proc.Leads.ofExcept _).bind fun _ =>
      Proc.Leads.bind (touches_update fun _ =>
        touch_putRoom (.inr rfl) (.inr rfl) (.inl h) (.inr rfl)) fun _ => Proc.Leads.pure _

theorem touches_presence (h : .presence ∈ parts) (request : Request) (env : Env) :
    Touches parts (handlePresence R request env) := by
  refine (touches_requireRoom _).bind fun room => Proc.Leads.ite ?_ (Proc.Leads.ite ?_
    (Proc.Leads.answer _))
  · exact Proc.Leads.bind (touches_update fun _ =>
      touch_putRoom (.inr rfl) (.inr rfl) (.inl h) (.inr rfl)) fun _ => Proc.Leads.pure _
  · exact (touches_requireParam _ _).bind fun _ => Proc.Leads.bind (touches_update fun _ =>
      touch_putRoom (.inr rfl) (.inr rfl) (.inl h) (.inr rfl)) fun _ => Proc.Leads.pure _

theorem touches_reviewGet (request : Request) (room : String) :
    Touches parts (handleReviewGet request room : Handler C Response) :=
  (touches_requireParam _ _).bind fun _ => (Proc.Leads.failIf _ _).bind fun _ =>
    (touches_readRoom _).bind fun _ => Proc.Leads.pure _

theorem touches_webSocket (request : Request) (env : Env) :
    Touches parts (handleWebSocket R request env) :=
  (Proc.Leads.failIf _ _).bind fun _ => (touches_readRoom _).bind fun _ =>
    (Proc.Leads.failWith _).bind fun _ => (Proc.Leads.failIf _ _).bind fun _ =>
      (Proc.Leads.failIf _ _).bind fun _ => Proc.Leads.pure _

theorem touches_keyInfo (request : Request) :
    Touches parts (handleKeyInfo request : Handler C Response) :=
  (touches_requireMethod _ _).bind fun _ => (touches_requireParam _ _).bind fun _ =>
    (Proc.Leads.gets _).bind fun _ => (Proc.Leads.ofExcept _).bind fun _ => Proc.Leads.pure _

/-! ## Signed requests -/

theorem touches_rateLimit {table : ServiceState C → OrdMap String RateCounter}
    {store : ServiceState C → OrdMap String RateCounter → ServiceState C} {key : String}
    {now max windowMs : Nat} {error : String} (h : ∀ s m, Touch parts s (store s m)) :
    Touches parts (rateLimit table store key now max windowMs error) :=
  Proc.Leads.bind (touches_update fun _ => h _ _) fun _ => Proc.Leads.failIf _ _

theorem touches_publishArrive (h : .rates ∈ parts) : Touches parts (publishArrive R request env) := by
  refine (touches_requireMethod _ _).bind fun _ => (touches_requireParam _ _).bind fun _ =>
    (touches_requireRoom _).bind fun _ => ?_
  refine Proc.Leads.bind ?_ fun _ => Proc.Leads.bind ?_ fun _ => Proc.Leads.bind ?_ fun _ =>
    (Proc.Leads.failIf _ _).bind fun _ => Proc.Leads.pure _
  · unfold ipRateLimit
    split
    · exact touches_rateLimit fun s m => touch_rates h s.senderRateCounts m s.roomRateCounts
    · exact Proc.Leads.pure _
  · exact touches_rateLimit fun s m => touch_rates h m s.ipRateCounts s.roomRateCounts
  · exact touches_rateLimit fun s m => touch_rates h s.senderRateCounts s.ipRateCounts m

theorem touches_beginSignature (h : .nonces ∈ parts) (sender : String) (auth : PublishAuthHeaders)
    (message : String) (nowSec : Int) :
    Touches parts (beginSignature R sender auth message nowSec) := by
  refine Proc.Leads.bind ?_ fun _ => Proc.Leads.pure _
  exact (Proc.Leads.failIf _ _).bind fun _ =>
    Proc.Leads.bind (touches_update fun _ => touch_nonces h _) fun _ => Proc.Leads.failIf _ _

theorem touches_publishBegin (h : .nonces ∈ parts) (input : PublishInput) :
    Touches parts (publishBegin R request input env) := by
  refine (Proc.Leads.failIf _ _).bind fun _ => (Proc.Leads.ofExcept _).bind fun _ =>
    Proc.Leads.bind ?_ fun _ => Proc.Leads.pure _
  refine (Proc.Leads.ofExcept _).bind fun auth => ?_
  cases auth with
  | none => exact (Proc.Leads.failIf _ _).bind fun _ => Proc.Leads.pure _
  | some auth =>
    exact (touches_beginSignature h _ _ _ _).bind fun _ => Proc.Leads.pure _

theorem touches_finishSignature (keys : .keys ∈ parts) (nonces : .nonces ∈ parts)
    (pending : PendingSignature) : Touches parts (finishSignature R pending) :=
  (Proc.Leads.failIf _ _).bind fun _ => Proc.Leads.bind
    ((Proc.Leads.gets _).bind fun _ => (Proc.Leads.ofExcept _).bind fun _ =>
      touches_modify fun _ => touch_keys keys _) fun _ => touches_modify fun _ =>
        touch_nonces nonces _

theorem touches_finishSignatureVerification (keys : .keys ∈ parts) (nonces : .nonces ∈ parts)
    (pending : Option PendingSignature) :
    Touches parts (finishSignatureVerification R pending) := by
  cases pending with
  | none => exact Proc.Leads.pure _
  | some pending => exact touches_finishSignature keys nonces pending

theorem touches_publish (messages : .messages ∈ parts) (rates : .rates ∈ parts)
    (keys : .keys ∈ parts) (nonces : .nonces ∈ parts) (exchange : .exchange ∈ parts)
    (cache : .cache ∈ parts) : Touches parts (handlePublish R request env) := by
  have hsigned : Touches parts (publishSigned R request env) :=
    (touches_publishArrive rates).bind fun _ => (touches_publishBegin nonces _).bind fun _ =>
      (touches_finishSignatureVerification keys nonces _).bind fun _ => Proc.Leads.pure _
  exact hsigned.bind fun _ => (touches_publishEntry messages exchange _ _ _ _ _ _ _ _ _).bind
    fun _ => (touches_persistResult cache _).bind fun _ => Proc.Leads.pure _

theorem touches_reviewBegin (h : .nonces ∈ parts) (room : String) :
    Touches parts (reviewBegin R request room env) :=
  (touches_requireParam _ _).bind fun _ => (touches_requireParam _ _).bind fun _ =>
    (Proc.Leads.failIf _ _).bind fun _ => (Proc.Leads.ofExcept _).bind fun _ =>
      (Proc.Leads.ofExcept _).bind fun _ => (Proc.Leads.ofExcept _).bind fun _ =>
        (touches_beginSignature h _ _ _ _).bind fun _ => Proc.Leads.pure _

theorem touches_reviewCommit (h : .reviews ∈ parts) (input : ReviewInput)
    (pending : PendingSignature) :
    Touches parts (reviewCommit input pending : Handler C Response) :=
  Proc.Leads.bind (touches_update fun _ =>
    touch_putRoom (.inr rfl) (.inr rfl) (.inr rfl) (.inl h)) fun _ => Proc.Leads.pure _

theorem touches_review (reviews : .reviews ∈ parts) (keys : .keys ∈ parts)
    (nonces : .nonces ∈ parts) : Touches parts (handleReview R request env) := by
  refine (touches_requireRoom _).bind fun room => Proc.Leads.ite (touches_reviewGet _ _)
    (Proc.Leads.ite ?_ (Proc.Leads.answer _))
  have hsigned : Touches parts (reviewSigned R request room env) :=
    (touches_reviewBegin nonces room).bind fun _ =>
      (touches_finishSignature keys nonces _).bind fun _ => Proc.Leads.pure _
  exact hsigned.bind fun _ => touches_reviewCommit reviews _ _

theorem touch_updateKey (h : .keys ∈ parts) (sender : String) (f : KeyRecord → KeyRecord) :
    Touch parts s (s.updateKey sender f) := by
  unfold ServiceState.updateKey
  split
  · exact touch_refl s
  · exact touch_keys h _

theorem touches_rotateBegin (h : .nonces ∈ parts) : Touches parts (rotateBegin R request env) :=
  (touches_requireObject _).bind fun _ => (Proc.Leads.ofExcept _).bind fun _ =>
    Proc.Leads.bind ((Proc.Leads.failIf _ _).bind fun _ =>
      Proc.Leads.bind (touches_update fun _ => touch_nonces h _) fun _ => Proc.Leads.failIf _ _)
        fun _ => (Proc.Leads.gets _).bind fun _ => (Proc.Leads.ofExcept _).bind fun _ =>
          Proc.Leads.pure _

theorem touches_rotateCommit (keys : .keys ∈ parts) (nonces : .nonces ∈ parts)
    (pending : PendingRotate) : Touches parts (rotateCommit R pending) :=
  (Proc.Leads.failIf _ _).bind fun _ => (Proc.Leads.failIf _ _).bind fun _ =>
    (touches_modify fun _ => touch_updateKey keys _ _).bind fun _ =>
      touches_modify fun _ => touch_nonces nonces _

theorem touches_keyRotate (keys : .keys ∈ parts) (nonces : .nonces ∈ parts) :
    Touches parts (handleKeyRotate R request env) := by
  have hsigned : Touches parts (rotateSigned R request env) :=
    (touches_requireMethod _ _).bind fun _ => (touches_rotateBegin nonces).bind fun _ =>
      (touches_rotateCommit keys nonces _).bind fun _ => Proc.Leads.pure _
  exact hsigned.bind fun _ => Proc.Leads.pure _

theorem touches_verifyGitHubBegin :
    Touches parts (verifyGitHubBegin request : Handler C String) :=
  (touches_requireObject _).bind fun _ => (Proc.Leads.failIf _ _).bind fun _ =>
    (Proc.Leads.failIf _ _).bind fun _ => (Proc.Leads.failIf _ _).bind fun _ =>
      (Proc.Leads.gets _).bind fun _ => (Proc.Leads.failIf _ _).bind fun _ => Proc.Leads.pure _

theorem touches_verifyGitHubFinish (h : .keys ∈ parts) (sender : String) :
    Touches parts (verifyGitHubFinish sender env : Handler C Response) :=
  (Proc.Leads.ofExcept _).bind fun _ => (Proc.Leads.gets _).bind fun _ =>
    (Proc.Leads.failIf _ _).bind fun _ =>
      (touches_modify fun _ => touch_updateKey h _ _).bind fun _ => Proc.Leads.pure _

/-! ## The other writers -/

theorem touches_triggerCallback (messages : .messages ∈ parts) (exchange : .exchange ∈ parts)
    (cache : .cache ∈ parts) : Touches parts (handleTriggerCallback R request env) :=
  (touches_requireMethod _ _).bind fun _ => (touches_requireObject _).bind fun _ =>
    (Proc.Leads.ofExcept _).bind fun _ =>
      (touches_publishEntry messages exchange _ _ _ _ _ _ _ _ _).bind fun _ =>
        (touches_persistResult cache _).bind fun _ => Proc.Leads.pure _

theorem touches_pushEntry (messages : .messages ∈ parts) (exchange : .exchange ∈ parts)
    (cache : .cache ∈ parts) (i : Nat) (value : JsonValue) (counts : PushCounts) :
    Touches parts (pushEntry R request i value counts) := by
  refine (Proc.Leads.ofExcept _).bind fun incoming => ?_
  split
  · exact Proc.Leads.pure _
  · refine (Proc.Leads.failWith _).bind fun _ => ?_
    split
    · exact Proc.Leads.pure _
    · refine Proc.Leads.bind (touches_update fun _ => touch_openRoom _) fun existing => ?_
      cases existing with
      | some existing => exact Proc.Leads.pure _
      | none =>
        exact (touches_publishEntry messages exchange _ _ _ _ _ _ _ _ _).bind fun _ =>
          (touches_persistResult cache _).bind fun _ => Proc.Leads.pure _

theorem touches_pushEntries (messages : .messages ∈ parts) (exchange : .exchange ∈ parts)
    (cache : .cache ∈ parts) (entries : List JsonValue) (i : Nat) (counts : PushCounts) :
    Touches parts (pushEntries R request entries i counts) := by
  induction entries generalizing i counts with
  | nil => exact Proc.Leads.pure _
  | cons value rest ih =>
    exact (touches_pushEntry messages exchange cache i value counts).bind fun _ => ih _ _

theorem touches_cacheExchangePush (messages : .messages ∈ parts) (exchange : .exchange ∈ parts)
    (cache : .cache ∈ parts) : Touches parts (handleCacheExchangePush R request) :=
  (touches_requireMethod _ _).bind fun _ => (Proc.Leads.failWith _).bind fun _ =>
    (touches_requireObject _).bind fun _ => (Proc.Leads.ofExcept _).bind fun _ =>
      (touches_pushEntries messages exchange cache _ _ _).bind fun _ =>
        (Proc.Leads.gets _).bind fun _ => Proc.Leads.pure _

theorem touches_applyDelivery (messages : .messages ∈ parts) (exchange : .exchange ∈ parts)
    (issueSync : .issueSync ∈ parts) (cache : .cache ∈ parts) (event deliveryId : String)
    (requestBody : Body) (nowSec : Int) :
    Touches parts (applyGitHubWebhookDelivery R event deliveryId requestBody nowSec) := by
  refine (Proc.Leads.gets _).bind fun checked => ?_
  cases checked with
  | error result => exact Proc.Leads.pure _
  | ok mapped =>
    refine (touches_publishEntry messages exchange _ _ _ _ _ _ _ _ _).bind fun _ =>
      (touches_persistResult cache _).bind fun _ => Proc.Leads.ite (Proc.Leads.pure _) ?_
    exact (touches_modify fun _ => touch_issueSync issueSync _).bind fun _ => Proc.Leads.pure _

theorem touches_githubWebhook (messages : .messages ∈ parts) (exchange : .exchange ∈ parts)
    (issueSync : .issueSync ∈ parts) (cache : .cache ∈ parts) :
    Touches parts (handleGitHubWebhook R request env) := by
  refine (touches_requireMethod _ _).bind fun _ => (Proc.Leads.failIf _ _).bind fun _ =>
    (Proc.Leads.failIf _ _).bind fun _ => (Proc.Leads.ofExcept _).bind fun _ =>
      (touches_applyDelivery messages exchange issueSync cache _ _ _ _).bind fun result => ?_
  split
  · exact Proc.Leads.bind (touches_update fun _ => touch_issueSync issueSync _) fun _ =>
      Proc.Leads.pure _
  · exact Proc.Leads.pure _

theorem touches_dlqRetry (messages : .messages ∈ parts) (exchange : .exchange ∈ parts)
    (issueSync : .issueSync ∈ parts) (cache : .cache ∈ parts) :
    Touches parts (handleGitHubWebhookDlqRetry R request env) := by
  refine (touches_requireMethod _ _).bind fun _ => (touches_requireParam _ _).bind fun _ =>
    (Proc.Leads.gets _).bind fun _ => (Proc.Leads.ofExcept _).bind fun _ =>
      (touches_applyDelivery messages exchange issueSync cache _ _ _ _).bind fun result => ?_
  split
  · exact Proc.Leads.bind (touches_update fun _ => touch_issueSync issueSync _) fun _ =>
      Proc.Leads.pure _
  · exact (touches_modify fun _ => touch_issueSync issueSync _).bind fun _ => Proc.Leads.pure _

end TouchLemmas

open TouchLemmas

/-! ## Whole requests -/

variable {R : Relay C} {request : Request} {env : Env}

theorem touches_handle (endpoint : Endpoint) :
    Touches endpoint.writesTo (endpoint.handle R request env) := by
  cases endpoint with
  | keyInfo => exact touches_keyInfo request
  | keyRotate => exact touches_keyRotate (by decide) (by decide)
  | keyVerifyGitHub =>
    exact (touches_requireMethod _ _).bind fun _ => touches_verifyGitHubBegin.bind fun _ =>
      touches_verifyGitHubFinish (by decide) _
  | githubWebhook => exact touches_githubWebhook (by decide) (by decide) (by decide) (by decide)
  | githubWebhookDlq =>
    exact (touches_requireMethod _ _).bind fun _ => (Proc.Leads.gets _).bind fun _ =>
      Proc.Leads.pure _
  | githubWebhookDlqRetry => exact touches_dlqRetry (by decide) (by decide) (by decide) (by decide)
  | triggerCallback => exact touches_triggerCallback (by decide) (by decide) (by decide)
  | triggerResults =>
    exact (touches_requireMethod _ _).bind fun _ => (touches_requireRoom _).bind fun _ =>
      (touches_readRoom _).bind fun _ => Proc.Leads.pure _
  | cacheExchangeDiscovery =>
    exact (touches_requireMethod _ _).bind fun _ => (Proc.Leads.failWith _).bind fun _ =>
      Proc.Leads.pure _
  | cacheExchangePull =>
    exact (touches_requireMethod _ _).bind fun _ => (Proc.Leads.failWith _).bind fun _ =>
      (Proc.Leads.failWith _).bind fun _ => (Proc.Leads.gets _).bind fun _ => Proc.Leads.pure _
  | cacheExchangePush => exact touches_cacheExchangePush (by decide) (by decide) (by decide)
  | cacheIssuesPull =>
    exact (touches_requireMethod _ _).bind fun _ => (Proc.Leads.failWith _).bind fun _ =>
      (touches_requireRoom _).bind fun _ => (Proc.Leads.gets _).bind fun _ => Proc.Leads.pure _
  | cacheIssuesSync =>
    exact (touches_requireMethod _ _).bind fun _ => (Proc.Leads.failWith _).bind fun _ =>
      (touches_requireRoom _).bind fun _ => Proc.Leads.bind
        (touches_update fun _ => touch_cache (by decide) _) fun _ => Proc.Leads.pure _
  | ws => exact touches_webSocket request env
  | publish =>
    exact touches_publish (by decide) (by decide) (by decide) (by decide) (by decide) (by decide)
  | poll =>
    exact (touches_requireMethod _ _).bind fun _ => (touches_requireRoom _).bind fun _ =>
      (touches_readRoom _).bind fun _ => Proc.Leads.pure _
  | inboxPending =>
    exact (touches_requireMethod _ _).bind fun _ => (touches_requireRoom _).bind fun _ =>
      (touches_requireParam _ _).bind fun _ => (touches_readRoom _).bind fun _ => Proc.Leads.pure _
  | inboxAck => exact touches_inboxAck (by decide) request
  | presenceHeartbeat => exact touches_presenceHeartbeat (by decide) request env
  | presence => exact touches_presence (by decide) request env
  | review => exact touches_review (by decide) (by decide) (by decide)

/-! ## Segments -/

theorem touches_start (endpoint : Endpoint) :
    Touches endpoint.writesTo (endpoint.start R request env) := by
  rcases InFlightLemmas.start_cases (R := R) request env endpoint with hwaits | ⟨-, hstart⟩
  · cases endpoint with
    | publish => exact (touches_publishArrive (by decide)).bind fun _ => Proc.Leads.pure _
    | review =>
      refine (touches_requireRoom _).bind fun room => Proc.Leads.ite
        ((touches_reviewGet _ _).bind fun _ => Proc.Leads.pure _) (Proc.Leads.ite
          ((touches_reviewBegin (by decide) room).bind fun _ => Proc.Leads.pure _)
            (Proc.Leads.answer _))
    | keyRotate => exact (touches_requireMethod _ _).bind fun _ => Proc.Leads.pure _
    | keyVerifyGitHub => exact (touches_requireMethod _ _).bind fun _ => Proc.Leads.pure _
    | _ => cases hwaits
  · rw [hstart]
    exact (touches_handle endpoint).bind fun _ => Proc.Leads.pure _

theorem touches_resume (phase : Phase) :
    Touches phase.writesTo (phase.resume R request env) := by
  cases phase with
  | publishBody input =>
    show Touches [.nonces] _
    exact (touches_publishBegin (by decide) input).bind fun _ => Proc.Leads.pure _
  | publishVerify input payload pending =>
    show Touches [.keys, .nonces] _
    exact (touches_finishSignatureVerification (by decide) (by decide) pending).bind fun _ =>
      Proc.Leads.pure _
  | publishReturn input payload pending =>
    show Touches [.messages, .exchange] _
    exact (touches_publishEntry (by decide) (by decide) _ _ _ _ _ _ _ _ _).bind fun _ =>
      Proc.Leads.pure _
  | publishPersist result =>
    show Touches [.cache] _
    exact (touches_persistResult (by decide) result).bind fun _ => Proc.Leads.pure _
  | reviewVerify input pending =>
    show Touches [.reviews, .keys, .nonces] _
    exact (touches_finishSignature (by decide) (by decide) pending).bind fun _ =>
      (touches_reviewCommit (by decide) input pending).bind fun _ => Proc.Leads.pure _
  | rotateBody => exact (touches_rotateBegin (by decide)).bind fun _ => Proc.Leads.pure _
  | rotateVerify pending =>
    show Touches [.keys, .nonces] _
    exact (touches_rotateCommit (by decide) (by decide) pending).bind fun _ => Proc.Leads.pure _
  | gitHubBody => exact touches_verifyGitHubBegin.bind fun _ => Proc.Leads.pure _
  | gitHubKeys sender =>
    show Touches [.keys] _
    exact (touches_verifyGitHubFinish (by decide) sender).bind fun _ => Proc.Leads.pure _

theorem service_arrive (sys : InFlight C) (request : Request) (env : Env) :
    (sys.arrive R request env).service = ((start R request env).run sys.service).2 := by
  unfold InFlight.arrive
  rcases (start R request env).run sys.service with ⟨response | (response | phase), service⟩ <;> rfl

theorem service_resumeTask (sys : InFlight C) (id : Nat) (task : Task) (env : Env) :
    (sys.resumeTask R id task env).service =
      ((task.phase.resume R task.request env).run sys.service).2 := by
  unfold InFlight.resumeTask
  rcases (task.phase.resume R task.request env).run sys.service with
    ⟨response | (response | phase), service⟩ <;> rfl

end

end BitRelay
