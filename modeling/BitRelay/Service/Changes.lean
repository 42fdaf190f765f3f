import BitRelay.Js.FreeText
import BitRelay.Service.Fetch

/-!
# What a request can do to the state

`Change R A` lists the updates that handlers make, each one once. `A` says which
of the delicate ones are allowed: which message may enter a room log, and
whether nonce tables may be pruned, signers recorded and keys replaced. Every
handler is a chain of such changes (`leads_*`), so an invariant of the changes
is an invariant of the service (`serve_keeps`).

`Admission R request` is the guarantee of a single request: the messages it may
write, and on what grounds.

Results:
1. `publishSigned_ok`: what has been checked when publish reaches its room.
2. `leads_fetch`: a request is a chain of changes whose messages are admitted.
3. `serve_keeps`: the invariant rule.
-/

namespace BitRelay

section
variable {C : Type} (R : Relay C)

/-! ## Changes -/

structure Allowed (C : Type) where
  publishes : ServiceState C → Envelope → Prop
  prunes : Prop
  signs : Prop
  rekeys : Prop

inductive Change (A : Allowed C) : ServiceState C → ServiceState C → Prop
  | rates (s : ServiceState C) (senderRateCounts ipRateCounts roomRateCounts) :
      Change A s { s with senderRateCounts, ipRateCounts, roomRateCounts }
  | room (s : ServiceState C) (room : String) (roomState : RoomState)
      (h : roomState.messages = (s.roomOf room).messages) : Change A s (s.putRoom room roomState)
  | publish (s : ServiceState C) (room sender topic id signature : String) (payload : JsonValue)
      (origin : String) (hopCount maxHops : Nat)
      (h : A.publishes s
        { room, id, sender, topic, payload, signature := storedSignature signature }) :
      Change A s (s.publishEntry R room sender topic id signature payload origin hopCount
        maxHops).2
  | issueSync (s : ServiceState C) (githubIssueSync) : Change A s { s with githubIssueSync }
  | cache (s : ServiceState C) (cache) (h : CacheStep R.cacheAdapter s.cache cache) :
      Change A s { s with cache }
  | annotateKey (s : ServiceState C) (sender : String) (f : KeyRecord → KeyRecord)
      (h : ∀ record, (f record).publicKey = record.publicKey) : Change A s (s.updateKey sender f)
  | prune (s : ServiceState C) (sender nonce : String) (nowSec : Int) (h : A.prunes) :
      Change A s (s.checkReplay R sender nonce nowSec).2
  | bindKey (s : ServiceState C) (sender publicKey : String) (nowSec : Int) (keyRegistry)
      (h : ensureTofuKey s.keyRegistry sender publicKey nowSec = .ok keyRegistry) (hA : A.signs) :
      Change A s { s with keyRegistry }
  | remember (s : ServiceState C) (sender nonce : String) (ts nowSec : Int) (h : A.signs) :
      Change A s (s.remember R sender nonce ts nowSec)
  | rekey (s : ServiceState C) (sender : String) (f : KeyRecord → KeyRecord) (h : A.rekeys) :
      Change A s (s.updateKey sender f)

/-- Everything is allowed. -/
def Allowed.any : Allowed C := ⟨fun _ _ => True, True, True, True⟩

/-- `A'` allows what `A` allows. -/
structure Allowed.Le (A A' : Allowed C) : Prop where
  publishes : ∀ s e, A.publishes s e → A'.publishes s e
  prunes : A.prunes → A'.prunes
  signs : A.signs → A'.signs
  rekeys : A.rekeys → A'.rekeys

variable {R} in
theorem Change.mono {A A' : Allowed C} (hA : A.Le A') {s s' : ServiceState C}
    (h : Change R A s s') : Change R A' s s' := by
  cases h with
  | rates a b c => exact .rates s a b c
  | room room roomState h => exact .room s room roomState h
  | publish room sender topic id signature payload origin hopCount maxHops h =>
    exact .publish s room sender topic id signature payload origin hopCount maxHops
      (hA.publishes _ _ h)
  | issueSync engine => exact .issueSync s engine
  | cache cache h => exact .cache s cache h
  | annotateKey sender f h => exact .annotateKey s sender f h
  | prune sender nonce nowSec h => exact .prune s sender nonce nowSec (hA.prunes h)
  | bindKey sender publicKey nowSec keyRegistry h hs =>
    exact .bindKey s sender publicKey nowSec keyRegistry h (hA.signs hs)
  | remember sender nonce ts nowSec h => exact .remember s sender nonce ts nowSec (hA.signs h)
  | rekey sender f h => exact .rekey s sender f (hA.rekeys h)

/-- The grounds on which a request may write a message into its room log. -/
inductive Admission (request : Request) : ServiceState C → Envelope → Prop
  | signed (s : ServiceState C) (e : Envelope) (auth : PublishAuthHeaders)
      (hpath : request.pathname = "/api/v1/publish")
      (hheaders : parsePublishAuthHeaders request = .ok (some auth))
      (hverified : R.platform.verifyEd25519Signature auth.publicKey
        (publishSigningMessage R e.sender e.room e.id e.topic e.payload auth) auth.signature = true)
      (hregistered : s.keyRegistry.publicKeyOf e.sender = some auth.publicKey) :
      Admission request s e
  | unsigned (s : ServiceState C) (e : Envelope) (hpath : request.pathname = "/api/v1/publish")
      (h : R.config.requireSignatures = false) : Admission request s e
  | callback (s : ServiceState C) (e : Envelope) (parsed : JsonValue) (env : Env)
      (input : CallbackInput)
      (hpath : request.pathname = "/api/v1/trigger/callback")
      (h : e.sender = "ci:callback")
      (hbody : request.body.json = some parsed)
      (hinput : parseCallback R request env parsed = .ok input)
      (hroom : e.room = input.room) :
      Admission request s e
  | webhook (s : ServiceState C) (e : Envelope)
      (hpath : request.pathname = "/api/v1/github/webhook" ∨
        request.pathname = "/api/v1/github/webhook/dlq/retry")
      (h : startsWith e.sender "github:" = true) : Admission request s e
  | pushed (s : ServiceState C) (e : Envelope) (parsed value : JsonValue) (entries : List JsonValue)
      (incoming : IncomingExchangeEntry)
      (hpath : request.pathname = "/api/v1/cache/exchange/push")
      (hpeer : checkPeerAuth R request = none)
      (hbody : request.body.json = some parsed)
      (hentries : parsed.arrField? "entries" = some entries)
      (hmem : value ∈ entries)
      (hincoming : parseIncomingCacheExchangeEntry value R.config.cacheExchangeMaxHops =
        .ok incoming)
      (htoken : checkRoomToken R request incoming.room = none)
      (henvelope : e = { incoming.envelope with
        signature := storedSignature (incoming.signature.getD "") }) :
      Admission request s e

/-! ## Leads of the shared parts -/

variable {A : Allowed C}

theorem leads_requireMethod (request : Request) (method : String) :
    Proc.Leads (Change R A) (requireMethod request method : Handler C Unit) :=
  Proc.Leads.failIf _ _

theorem leads_requireParam (request : Request) (key : String) :
    Proc.Leads (Change R A) (requireParam request key : Handler C String) :=
  (Proc.Leads.failIf _ _).bind fun _ => Proc.Leads.pure _

theorem leads_requireRoom (request : Request) :
    Proc.Leads (Change R A) (requireRoom R request : Handler C String) :=
  (Proc.Leads.failIf _ _).bind fun _ => (Proc.Leads.failWith _).bind fun _ => Proc.Leads.pure _

theorem leads_requireObject (request : Request) :
    Proc.Leads (Change R A) (requireObject request : Handler C JsonValue) := by
  unfold requireObject
  split
  · exact Proc.Leads.pure _
  · exact Proc.Leads.answer _

theorem leads_readRoom (room : String) :
    Proc.Leads (Change R A) (readRoom room : Handler C RoomState) :=
  Proc.Leads.update fun s => .single (.room s room _ rfl)

theorem leads_publishEntry {room sender topic id signature : String} {payload : JsonValue}
    {origin : String} {hopCount maxHops : Nat}
    (h : ∀ s, A.publishes s
      { room, id, sender, topic, payload, signature := storedSignature signature }) :
    Proc.Leads (Change R A) (Proc.update (ServiceState.publishEntry R room sender topic id signature
      payload origin hopCount maxHops) : Handler C PublishResult) :=
  Proc.Leads.update fun s =>
    .single (.publish s room sender topic id signature payload origin hopCount maxHops (h s))

theorem leads_persistResult (result : PublishResult) :
    Proc.Leads (Change R A) (Proc.modify (ServiceState.persistResult R result) : Handler C Unit) := by
  cases result with
  | accepted envelope cursor => exact Proc.Leads.modify fun s => .cache s _ (.persist _ _ _)
  | invalidTopic topic => exact fun _ => .refl
  | known cursor => exact fun _ => .refl

/-! ## Leads of the readers -/

theorem leads_poll (request : Request) : Proc.Leads (Change R A) (handlePoll R request) :=
  (leads_requireMethod R _ _).bind fun _ => (leads_requireRoom R _).bind fun _ =>
    (leads_readRoom R _).bind fun _ => Proc.Leads.pure _

theorem leads_triggerResults (request : Request) :
    Proc.Leads (Change R A) (handleTriggerResults R request) :=
  (leads_requireMethod R _ _).bind fun _ => (leads_requireRoom R _).bind fun _ =>
    (leads_readRoom R _).bind fun _ => Proc.Leads.pure _

theorem leads_inboxPending (request : Request) :
    Proc.Leads (Change R A) (handleInboxPending R request) :=
  (leads_requireMethod R _ _).bind fun _ => (leads_requireRoom R _).bind fun _ =>
    (leads_requireParam R _ _).bind fun _ => (leads_readRoom R _).bind fun _ => Proc.Leads.pure _

theorem ackIntoRoom_messages (roomState : RoomState) (room consumer : String) (body : Body) :
    (ackIntoRoom roomState room consumer body).2.messages = roomState.messages := by
  unfold ackIntoRoom
  split <;> rfl

theorem leads_inboxAck (request : Request) : Proc.Leads (Change R A) (handleInboxAck R request) :=
  (leads_requireMethod R _ _).bind fun _ => (leads_requireRoom R _).bind fun _ =>
    (leads_requireParam R _ _).bind fun _ => Proc.Leads.update fun s =>
      .single (.room s _ _ (ackIntoRoom_messages _ _ _ _))

theorem leads_presenceHeartbeat (request : Request) (env : Env) :
    Proc.Leads (Change R A) (handlePresenceHeartbeat R request env) :=
  (leads_requireMethod R _ _).bind fun _ => (leads_requireRoom R _).bind fun _ =>
    (leads_requireParam R _ _).bind fun _ => (Proc.Leads.ofExcept _).bind fun _ =>
      (Proc.Leads.update fun s => .single (.room s _ _ rfl)).bind fun _ => Proc.Leads.pure _

theorem leads_presence (request : Request) (env : Env) :
    Proc.Leads (Change R A) (handlePresence R request env) := by
  refine (leads_requireRoom R _).bind fun room => ?_
  refine Proc.Leads.ite ?_ (Proc.Leads.ite ?_ (Proc.Leads.answer _))
  · exact (Proc.Leads.update fun s => .single (.room s room _ rfl)).bind fun _ => Proc.Leads.pure _
  · exact (leads_requireParam R _ _).bind fun _ =>
      (Proc.Leads.update fun s => .single (.room s room _ rfl)).bind fun _ => Proc.Leads.pure _

theorem leads_reviewGet (request : Request) (room : String) :
    Proc.Leads (Change R A) (handleReviewGet request room : Handler C Response) :=
  (leads_requireParam R _ _).bind fun _ => (Proc.Leads.failIf _ _).bind fun _ =>
    (leads_readRoom R _).bind fun _ => Proc.Leads.pure _

theorem leads_cacheExchangeDiscovery (request : Request) :
    Proc.Leads (Change R A) (handleCacheExchangeDiscovery R request) :=
  (leads_requireMethod R _ _).bind fun _ => (Proc.Leads.failWith _).bind fun _ => Proc.Leads.pure _

theorem leads_cacheExchangePull (request : Request) :
    Proc.Leads (Change R A) (handleCacheExchangePull R request) :=
  (leads_requireMethod R _ _).bind fun _ => (Proc.Leads.failWith _).bind fun _ =>
    (Proc.Leads.failWith _).bind fun _ => (Proc.Leads.gets _).bind fun _ => Proc.Leads.pure _

theorem leads_cacheIssuePull (request : Request) :
    Proc.Leads (Change R A) (handleCacheIssuePull R request) :=
  (leads_requireMethod R _ _).bind fun _ => (Proc.Leads.failWith _).bind fun _ =>
    (leads_requireRoom R _).bind fun _ => (Proc.Leads.gets _).bind fun _ => Proc.Leads.pure _

theorem leads_cacheIssueSync (request : Request) :
    Proc.Leads (Change R A) (handleCacheIssueSync R request) :=
  (leads_requireMethod R _ _).bind fun _ => (Proc.Leads.failWith _).bind fun _ =>
    (leads_requireRoom R _).bind fun _ =>
      (Proc.Leads.update fun s => .single (.cache s _ (.sync _ _ _ _ _))).bind fun _ => Proc.Leads.pure _

theorem leads_dlqList (request : Request) :
    Proc.Leads (Change R A) (handleGitHubWebhookDlqList request : Handler C Response) :=
  (leads_requireMethod R _ _).bind fun _ => (Proc.Leads.gets _).bind fun _ => Proc.Leads.pure _

theorem leads_webSocket (request : Request) (env : Env) :
    Proc.Leads (Change R A) (handleWebSocket R request env) :=
  (Proc.Leads.failIf _ _).bind fun _ => (leads_readRoom R _).bind fun _ =>
    (Proc.Leads.failWith _).bind fun _ => (Proc.Leads.failIf _ _).bind fun _ =>
      (Proc.Leads.failIf _ _).bind fun _ => Proc.Leads.pure _

theorem leads_keyInfo (request : Request) :
    Proc.Leads (Change R A) (handleKeyInfo request : Handler C Response) :=
  (leads_requireMethod R _ _).bind fun _ => (leads_requireParam R _ _).bind fun _ =>
    (Proc.Leads.gets _).bind fun _ => (Proc.Leads.ofExcept _).bind fun _ => Proc.Leads.pure _

/-! ## What some parts ensure -/

theorem requireObject_ok {request : Request} {s s' : ServiceState C} {parsed : JsonValue}
    (h : (requireObject request : Handler C JsonValue).run s = (.ok parsed, s')) :
    request.body.json = some parsed := by
  unfold requireObject at h
  split at h
  · next hbody =>
    cases h
    exact hbody
  · cases h

theorem mapError_eq_ok {ε ε' α : Type} {f : ε → ε'} {x : Except ε α} {a : α}
    (h : x.mapError f = .ok a) : x = .ok a := by
  cases x with
  | ok b =>
    cases h
    rfl
  | error e => cases h

theorem elim_eq_ok {ε α : Type} {x : Option α} {e : ε} {a : α}
    (h : x.elim (.error e) .ok = (.ok a : Except ε α)) : x = some a := by
  cases x with
  | none => cases h
  | some b =>
    cases h
    rfl

variable {R} in
theorem checkDelivery_sender {event deliveryId : String} {requestBody : Body}
    {engine : IssueSyncState} {mapped : IssueSyncMappedEnvelope}
    (h : checkDelivery R event deliveryId requestBody engine = .ok mapped) :
    startsWith mapped.sender "github:" = true := by
  unfold checkDelivery at h
  simp only at h
  split at h
  · cases h
  split at h
  · cases h
  split at h
  · cases h
  split at h
  · cases h
  split at h
  · exact mapGitHubDelivery_sender (mapError_eq_ok h)
  · cases h

/-! ## Leads of the writers -/

/-- `A` allows what a request is entitled to: the messages it has grounds for, the signature
stage when its endpoint has one, and a new key when it is a rotation. -/
structure Allowed.Grants (A : Allowed C) (request : Request) : Prop where
  publishes : ∀ s e, Admission R request s e → A.publishes s e
  prunes : ∀ endpoint, Endpoint.ofPath request.pathname = some endpoint → endpoint.signs = true →
    A.prunes
  signs : ∀ endpoint, Endpoint.ofPath request.pathname = some endpoint → endpoint.signs = true →
    A.signs
  rekeys : Endpoint.ofPath request.pathname = some .keyRotate → A.rekeys

variable {R} in
theorem Allowed.Grants.any (request : Request) : (Allowed.any : Allowed C).Grants R request :=
  ⟨fun _ _ _ => trivial, fun _ _ _ => trivial, fun _ _ _ => trivial, fun _ => trivial⟩

variable {R}
variable {request : Request} (hA : A.Grants R request)
include hA

theorem leads_triggerCallback (hpath : request.pathname = "/api/v1/trigger/callback")
    (env : Env) : Proc.Leads (Change R A) (handleTriggerCallback R request env) := by
  refine (leads_requireMethod R _ _).bind fun _ => Proc.Leads.bind_post
    (Q := fun parsed _ => request.body.json = some parsed) (leads_requireObject R _)
    (fun _ _ _ h => requireObject_ok h) fun parsed => ?_
  intro s hbody
  refine Proc.Leads.ofExcept_bind (fun input hinput => ?_) s
  exact (leads_publishEntry R fun s => hA.publishes s _
    (.callback s _ parsed env input hpath rfl hbody hinput rfl)).bind fun _ =>
      (leads_persistResult R _).bind fun _ => Proc.Leads.pure _

theorem leads_applyDelivery
    (hpath : request.pathname = "/api/v1/github/webhook" ∨
      request.pathname = "/api/v1/github/webhook/dlq/retry")
    (event deliveryId : String) (requestBody : Body) (nowSec : Int) :
    Proc.Leads (Change R A)
      (applyGitHubWebhookDelivery R event deliveryId requestBody nowSec) := by
  refine Proc.Leads.bind_post (Q := fun checked s =>
    checked = checkDelivery R event deliveryId requestBody s.githubIssueSync)
    (Proc.Leads.gets _) ?_ fun checked => ?_
  · intro s a s' h
    simp only [Proc.run_gets, Prod.mk.injEq, Except.ok.injEq] at h
    rw [← h.1, ← h.2]
  · cases checked with
    | error result => exact fun _ _ => .refl
    | ok mapped =>
      intro s hs
      have hsender : startsWith mapped.sender "github:" = true :=
        checkDelivery_sender hs.symm
      refine ((leads_publishEntry R fun s => hA.publishes s _ (.webhook s _ hpath hsender)).bind
        fun result => (leads_persistResult R _).bind fun _ => Proc.Leads.ite ?_ ?_) s
      · exact Proc.Leads.pure _
      · exact (Proc.Leads.modify fun s => .issueSync s _).bind fun _ => Proc.Leads.pure _

theorem leads_githubWebhook (hpath : request.pathname = "/api/v1/github/webhook") (env : Env) :
    Proc.Leads (Change R A) (handleGitHubWebhook R request env) := by
  refine (leads_requireMethod R _ _).bind fun _ => (Proc.Leads.failIf _ _).bind fun _ =>
    (Proc.Leads.failIf _ _).bind fun _ => (Proc.Leads.ofExcept _).bind fun _ =>
      (leads_applyDelivery hA (.inl hpath) _ _ _ _).bind fun result => ?_
  split
  · exact (Proc.Leads.update fun s => .single (.issueSync s _)).bind fun _ => Proc.Leads.pure _
  · exact Proc.Leads.pure _

theorem leads_dlqRetry (hpath : request.pathname = "/api/v1/github/webhook/dlq/retry")
    (env : Env) : Proc.Leads (Change R A) (handleGitHubWebhookDlqRetry R request env) := by
  refine (leads_requireMethod R _ _).bind fun _ => (leads_requireParam R _ _).bind fun _ =>
    (Proc.Leads.gets _).bind fun _ => (Proc.Leads.ofExcept _).bind fun _ =>
      (leads_applyDelivery hA (.inr hpath) _ _ _ _).bind fun result => ?_
  split
  · exact (Proc.Leads.update fun s => .single (.issueSync s _)).bind fun _ => Proc.Leads.pure _
  · exact (Proc.Leads.modify fun s => .issueSync s _).bind fun _ => Proc.Leads.pure _

theorem leads_pushEntry (i : Nat) (value : JsonValue) (counts : PushCounts)
    (h : ∀ incoming s,
      parseIncomingCacheExchangeEntry value R.config.cacheExchangeMaxHops = .ok incoming →
      checkRoomToken R request incoming.room = none →
      Admission R request s { incoming.envelope with
        signature := storedSignature (incoming.signature.getD "") }) :
    Proc.Leads (Change R A) (pushEntry R request i value counts) := by
  refine Proc.Leads.ofExcept_bind fun incoming hincoming => ?_
  have hparse := mapError_eq_ok hincoming
  split
  · exact Proc.Leads.pure _
  · refine Proc.Leads.failWith_bind fun htoken => ?_
    split
    · exact Proc.Leads.pure _
    · refine (Proc.Leads.update fun s => .single (.room s _ _ rfl)).bind fun existing => ?_
      cases existing with
      | some existing => exact Proc.Leads.pure _
      | none =>
        exact (leads_publishEntry R fun s =>
          hA.publishes s _ (h incoming s hparse htoken)).bind fun _ =>
            (leads_persistResult R _).bind fun _ => Proc.Leads.pure _

theorem leads_pushEntries (entries : List JsonValue) (i : Nat) (counts : PushCounts)
    (h : ∀ value ∈ entries, ∀ incoming s,
      parseIncomingCacheExchangeEntry value R.config.cacheExchangeMaxHops = .ok incoming →
      checkRoomToken R request incoming.room = none →
      Admission R request s { incoming.envelope with
        signature := storedSignature (incoming.signature.getD "") }) :
    Proc.Leads (Change R A) (pushEntries R request entries i counts) := by
  induction entries generalizing i counts with
  | nil => exact Proc.Leads.pure _
  | cons value rest ih =>
    refine (leads_pushEntry hA i value counts (h value List.mem_cons_self)).bind fun counts => ?_
    exact ih (i + 1) counts fun v hv => h v (List.mem_cons_of_mem _ hv)

theorem leads_cacheExchangePush (hpath : request.pathname = "/api/v1/cache/exchange/push") :
    Proc.Leads (Change R A) (handleCacheExchangePush R request) := by
  refine (leads_requireMethod R _ _).bind fun _ => Proc.Leads.failWith_bind fun hpeer => ?_
  refine Proc.Leads.bind_post (Q := fun parsed _ => request.body.json = some parsed)
    (leads_requireObject R _) (fun s a s' h => requireObject_ok h) fun parsed => ?_
  intro s hbody
  refine Proc.Leads.ofExcept_bind (fun entries hentries => ?_) s
  have hentries := elim_eq_ok hentries
  refine (leads_pushEntries hA entries 0 .zero ?_).bind fun _ =>
    (Proc.Leads.gets _).bind fun _ => Proc.Leads.pure _
  intro value hmem incoming s' hparse htoken
  exact .pushed s' _ parsed value entries incoming hpath hpeer hbody hentries hmem hparse htoken rfl

omit hA

/-! ## Leads of the signed requests -/

theorem leads_rateLimit {table : ServiceState C → OrdMap String RateCounter}
    {store : ServiceState C → OrdMap String RateCounter → ServiceState C} {key : String}
    {now max windowMs : Nat} {error : String} (h : ∀ s m, Change R A s (store s m)) :
    Proc.Leads (Change R A) (rateLimit table store key now max windowMs error) :=
  (Proc.Leads.update fun s => .single (h s _)).bind fun _ => Proc.Leads.failIf _ _

theorem leads_publishArrive (env : Env) :
    Proc.Leads (Change R A) (publishArrive R request env) := by
  refine (leads_requireMethod R _ _).bind fun _ => (leads_requireParam R _ _).bind fun _ =>
    (leads_requireRoom R _).bind fun _ => ?_
  refine Proc.Leads.bind ?_ fun _ => Proc.Leads.bind ?_ fun _ => Proc.Leads.bind ?_ fun _ =>
    (Proc.Leads.failIf _ _).bind fun _ => Proc.Leads.pure _
  · unfold ipRateLimit
    split
    · exact leads_rateLimit fun s m => .rates s s.senderRateCounts m s.roomRateCounts
    · exact Proc.Leads.pure _
  · exact leads_rateLimit fun s m => .rates s m s.ipRateCounts s.roomRateCounts
  · exact leads_rateLimit fun s m => .rates s s.senderRateCounts s.ipRateCounts m

theorem leads_checkFreshness (hp : A.prunes) (sender nonce : String) (ts nowSec : Int) :
    Proc.Leads (Change R A) (checkFreshness R sender nonce ts nowSec) :=
  (Proc.Leads.failIf _ _).bind fun _ =>
    (Proc.Leads.update fun s => .single (.prune s sender nonce nowSec hp)).bind fun _ =>
      Proc.Leads.failIf _ _

theorem leads_publishBegin (hp : A.prunes) (input : PublishInput) (env : Env) :
    Proc.Leads (Change R A) (publishBegin R request input env) := by
  refine (Proc.Leads.failIf _ _).bind fun _ => (Proc.Leads.ofExcept _).bind fun _ =>
    Proc.Leads.bind ?_ fun _ => Proc.Leads.pure _
  refine (Proc.Leads.ofExcept _).bind fun auth => ?_
  cases auth with
  | none => exact (Proc.Leads.failIf _ _).bind fun _ => Proc.Leads.pure _
  | some auth =>
    exact ((leads_checkFreshness hp _ _ _ _).bind fun _ => Proc.Leads.pure _).bind fun _ =>
      Proc.Leads.pure _

theorem leads_bindKey (hs : A.signs) (sender publicKey : String) (nowSec : Int) :
    Proc.Leads (Change R A) (bindKey sender publicKey nowSec : Handler C Unit) := by
  refine Proc.Leads.bind_post (Q := fun checked s =>
    ensureTofuKey s.keyRegistry sender publicKey nowSec = checked)
    (Proc.Leads.gets _) ?_ fun checked => ?_
  · intro s a s' h
    simp only [Proc.run_gets, Prod.mk.injEq, Except.ok.injEq] at h
    rw [← h.1, ← h.2]
  · intro s hs'
    cases checked with
    | error response => exact .refl
    | ok keyRegistry => exact .single (.bindKey s sender publicKey nowSec keyRegistry hs' hs)

theorem leads_finishSignature (hs : A.signs) (pending : PendingSignature) :
    Proc.Leads (Change R A) (finishSignature R pending) :=
  (Proc.Leads.failIf _ _).bind fun _ => (leads_bindKey hs _ _ _).bind fun _ =>
    Proc.Leads.modify fun s => .remember s _ _ _ _ hs

theorem leads_publishSigned (hp : A.prunes) (hs : A.signs) (env : Env) :
    Proc.Leads (Change R A) (publishSigned R request env) := by
  refine (leads_publishArrive env).bind fun _ => (leads_publishBegin hp _ env).bind fun p => ?_
  refine Proc.Leads.bind ?_ fun _ => Proc.Leads.pure _
  cases p.2 with
  | none => exact Proc.Leads.pure _
  | some pending => exact leads_finishSignature hs pending

theorem leads_reviewBegin (hp : A.prunes) (room : String) (env : Env) :
    Proc.Leads (Change R A) (reviewBegin R request room env) :=
  (leads_requireParam R _ _).bind fun _ => (leads_requireParam R _ _).bind fun _ =>
    (Proc.Leads.failIf _ _).bind fun _ => (Proc.Leads.ofExcept _).bind fun _ =>
      (Proc.Leads.ofExcept _).bind fun _ => (Proc.Leads.ofExcept _).bind fun _ =>
        ((leads_checkFreshness hp _ _ _ _).bind fun _ => Proc.Leads.pure _).bind fun _ =>
          Proc.Leads.pure _

theorem leads_reviewCommit (input : ReviewInput) (pending : PendingSignature) :
    Proc.Leads (Change R A) (reviewCommit input pending : Handler C Response) :=
  (Proc.Leads.update fun s => .single (.room s _ _ rfl)).bind fun _ => Proc.Leads.pure _

theorem leads_reviewPost (hp : A.prunes) (hs : A.signs) (room : String) (env : Env) :
    Proc.Leads (Change R A) (handleReviewPost R request room env) := by
  have hsigned : Proc.Leads (Change R A) (reviewSigned R request room env) :=
    (leads_reviewBegin hp room env).bind fun _ => (leads_finishSignature hs _).bind fun _ =>
      Proc.Leads.pure _
  exact hsigned.bind fun _ => leads_reviewCommit _ _

theorem leads_rotateBegin (hp : A.prunes) (env : Env) :
    Proc.Leads (Change R A) (rotateBegin R request env) :=
  (leads_requireObject R _).bind fun _ => (Proc.Leads.ofExcept _).bind fun _ =>
    (leads_checkFreshness hp _ _ _ _).bind fun _ => (Proc.Leads.gets _).bind fun _ =>
      (Proc.Leads.ofExcept _).bind fun _ => Proc.Leads.pure _

theorem leads_rotateCommit (hs : A.signs) (hr : A.rekeys) (pending : PendingRotate) :
    Proc.Leads (Change R A) (rotateCommit R pending) :=
  (Proc.Leads.failIf _ _).bind fun _ => (Proc.Leads.failIf _ _).bind fun _ =>
    (Proc.Leads.modify fun s => .rekey s _ _ hr).bind fun _ =>
      Proc.Leads.modify fun s => .remember s _ _ _ _ hs

theorem leads_keyRotate (hp : A.prunes) (hs : A.signs) (hr : A.rekeys) (env : Env) :
    Proc.Leads (Change R A) (handleKeyRotate R request env) := by
  have hsigned : Proc.Leads (Change R A) (rotateSigned R request env) :=
    (leads_requireMethod R _ _).bind fun _ => (leads_rotateBegin hp env).bind fun _ =>
      (leads_rotateCommit hs hr _).bind fun _ => Proc.Leads.pure _
  exact hsigned.bind fun _ => Proc.Leads.pure _

theorem leads_verifyGitHubFinish (sender : String) (env : Env) :
    Proc.Leads (Change R A) (verifyGitHubFinish sender env) :=
  (Proc.Leads.ofExcept _).bind fun _ => (Proc.Leads.gets _).bind fun _ =>
    (Proc.Leads.failIf _ _).bind fun _ =>
      (Proc.Leads.modify fun s => .annotateKey s _ _ fun _ => rfl).bind fun _ => Proc.Leads.pure _

theorem leads_verifyGitHubBegin :
    Proc.Leads (Change R A) (verifyGitHubBegin request : Handler C String) :=
  (leads_requireObject R _).bind fun _ => (Proc.Leads.failIf _ _).bind fun _ =>
    (Proc.Leads.failIf _ _).bind fun _ => (Proc.Leads.failIf _ _).bind fun _ =>
      (Proc.Leads.gets _).bind fun _ => (Proc.Leads.failIf _ _).bind fun _ => Proc.Leads.pure _

/-! ## The signature stage -/

/-- A query parameter that is asked for. -/
theorem requireParam_ok {key value : String} {s s' : ServiceState C}
    (h : (requireParam request key : Handler C String).run s = (.ok value, s')) :
    value = request.paramTrim key ∧ FreeText value ∧ s' = s := by
  obtain ⟨_, s1, h1, k1⟩ := Proc.bind_ok h
  obtain ⟨hne, rfl⟩ := Proc.failIf_ok h1
  obtain ⟨rfl, rfl⟩ := Proc.pure_eq_ok.mp k1
  exact ⟨rfl, freeText_trim hne, rfl⟩

/-- A room that is asked for, with its token. -/
theorem requireRoom_ok {room : String} {s s' : ServiceState C}
    (h : (requireRoom R request).run s = (.ok room, s')) :
    room = normalizeRoom (request.param "room") ∧ isValidRoomName room = true ∧
      checkRoomToken R request room = none ∧ s' = s := by
  obtain ⟨_, s1, h1, k1⟩ := Proc.bind_ok h
  obtain ⟨hvalid, rfl⟩ := Proc.failIf_ok h1
  obtain ⟨_, s2, h2, k2⟩ := Proc.bind_ok k1
  obtain ⟨htoken, rfl⟩ := Proc.failWith_ok h2
  obtain ⟨rfl, rfl⟩ := Proc.pure_eq_ok.mp k2
  exact ⟨rfl, eq_true_of_ne_false hvalid, htoken, rfl⟩

/-- A publish that waits for its body. -/
theorem publishArrive_ok {env : Env} {input : PublishInput} {s s' : ServiceState C}
    (h : (publishArrive R request env).run s = (.ok input, s')) :
    input = ⟨request.paramTrim "sender", normalizeRoom (request.param "room"),
      publishTopic request, publishId request env.randomUUID, request.paramTrim "sig"⟩ ∧
    FreeText input.sender ∧ isValidRoomName input.room = true ∧
    checkRoomToken R request input.room = none := by
  obtain ⟨_, s1, -, k1⟩ := Proc.bind_ok h
  obtain ⟨sender, s2, h2, k2⟩ := Proc.bind_ok k1
  obtain ⟨rfl, hsender, -⟩ := requireParam_ok h2
  obtain ⟨room, s3, h3, k3⟩ := Proc.bind_ok k2
  obtain ⟨rfl, hroom, htoken, -⟩ := requireRoom_ok h3
  -- The rate limits and the announced length do not change what is handed on.
  obtain ⟨_, s4, -, k4⟩ := Proc.bind_ok k3
  obtain ⟨_, s5, -, k5⟩ := Proc.bind_ok k4
  obtain ⟨_, s6, -, k6⟩ := Proc.bind_ok k5
  obtain ⟨_, s7, -, k7⟩ := Proc.bind_ok k6
  obtain ⟨rfl, -⟩ := Proc.pure_eq_ok.mp k7
  exact ⟨rfl, hsender, hroom, htoken⟩

/-- Its id is the one it names, or a new one. -/
theorem publishArrive_id {env : Env} (huuid : FreeText env.randomUUID) {input : PublishInput}
    {s s' : ServiceState C} (h : (publishArrive R request env).run s = (.ok input, s')) :
    FreeText input.id := by
  obtain ⟨rfl, -⟩ := publishArrive_ok h
  dsimp only [publishId]
  split
  · next hne => exact freeText_trim hne
  · exact huuid

/-- A verified signer: its key is bound, then its nonce is recorded. -/
theorem finishSignature_ok {pending : PendingSignature} {s s' : ServiceState C} {u : Unit}
    (h : (finishSignature R pending).run s = (.ok u, s')) :
    R.platform.verifyEd25519Signature pending.auth.publicKey pending.message
      pending.auth.signature = true ∧
    ∃ keyRegistry,
      ensureTofuKey s.keyRegistry pending.sender pending.auth.publicKey pending.nowSec =
        .ok keyRegistry ∧
      s' = ServiceState.remember R pending.sender pending.auth.nonce pending.auth.timestampSec
        pending.nowSec { s with keyRegistry } := by
  obtain ⟨_, s1, h1, k1⟩ := Proc.bind_ok h
  obtain ⟨hverify, rfl⟩ := Proc.failIf_ok h1
  obtain ⟨_, s2, h2, k2⟩ := Proc.bind_ok k1
  obtain ⟨checked, s3, h3, k3⟩ := Proc.bind_ok h2
  cases h3
  obtain ⟨keyRegistry, s4, h4, k4⟩ := Proc.bind_ok k3
  obtain ⟨hkey, rfl⟩ := Proc.ofExcept_ok h4
  cases k4
  cases k2
  exact ⟨by simpa using hverify, keyRegistry, hkey, rfl⟩

/-- A committed rotation: both signatures verify, and the record is overwritten. -/
theorem rotateCommit_ok {pending : PendingRotate} {s s' : ServiceState C} {u : Unit}
    (h : (rotateCommit R pending).run s = (.ok u, s')) :
    R.platform.verifyEd25519Signature pending.publicKey pending.fields.message
      pending.fields.oldSignature = true ∧
    R.platform.verifyEd25519Signature pending.fields.newPublicKey pending.fields.message
      pending.fields.newSignature = true ∧
    ∃ f : KeyRecord → KeyRecord,
      (∀ record, (f record).publicKey = pending.fields.newPublicKey) ∧
      s' = ServiceState.remember R pending.fields.sender pending.fields.nonce pending.fields.ts
        pending.nowSec (s.updateKey pending.fields.sender f) := by
  obtain ⟨_, s1, h1, k1⟩ := Proc.bind_ok h
  obtain ⟨hold, rfl⟩ := Proc.failIf_ok h1
  obtain ⟨_, s2, h2, k2⟩ := Proc.bind_ok k1
  obtain ⟨hnew, rfl⟩ := Proc.failIf_ok h2
  obtain ⟨_, s3, h3, k3⟩ := Proc.bind_ok k2
  cases h3
  cases k3
  exact ⟨by simpa using hold, by simpa using hnew, _, fun _ => rfl, rfl⟩

/-- Past the freshness check: the timestamp is not stale, the nonce is new, and the sender's
table is pruned. -/
theorem checkFreshness_ok {sender nonce : String} {ts nowSec : Int} {s s' : ServiceState C}
    {u : Unit} (h : (checkFreshness R sender nonce ts nowSec).run s = (.ok u, s')) :
    isStale nowSec ts R.config.maxClockSkewSec = false ∧
    (s.checkReplay R sender nonce nowSec).1 = false ∧
    s' = (s.checkReplay R sender nonce nowSec).2 := by
  obtain ⟨_, s1, h1, k1⟩ := Proc.bind_ok h
  obtain ⟨hstale, rfl⟩ := Proc.failIf_ok h1
  obtain ⟨replayed, s2, h2, k2⟩ := Proc.bind_ok k1
  cases h2
  obtain ⟨hreplay, rfl⟩ := Proc.failIf_ok k2
  exact ⟨by simpa using hstale, by simpa using hreplay, rfl⟩

/-- Publish past its nonce check: either unsigned where that is allowed, or with the headers of
the request and the message they sign. -/
theorem publishBegin_ok {input : PublishInput} {env : Env} {payload : JsonValue}
    {pending : Option PendingSignature} {s s' : ServiceState C}
    (h : (publishBegin R request input env).run s = (.ok (payload, pending), s')) :
    (pending = none ∧ R.config.requireSignatures = false ∧ s' = s) ∨
    ∃ auth, parsePublishAuthHeaders request = .ok (some auth) ∧
      pending = some {
        sender := input.sender, auth
        message := publishSigningMessage R input.sender input.room input.id input.topic payload auth
        nowSec := nowEpochSec env.nowMs } ∧
      isStale (nowEpochSec env.nowMs) auth.timestampSec R.config.maxClockSkewSec = false ∧
      (s.checkReplay R input.sender auth.nonce (nowEpochSec env.nowMs)).1 = false ∧
      s' = (s.checkReplay R input.sender auth.nonce (nowEpochSec env.nowMs)).2 := by
  obtain ⟨_, s1, h1, k1⟩ := Proc.bind_ok h
  obtain ⟨-, rfl⟩ := Proc.failIf_ok h1
  obtain ⟨parsed, s2, h2, k2⟩ := Proc.bind_ok k1
  obtain ⟨-, rfl⟩ := Proc.ofExcept_ok h2
  obtain ⟨pending', s3, h3, k3⟩ := Proc.bind_ok k2
  cases k3
  obtain ⟨auth, s4, h4, k4⟩ := Proc.bind_ok h3
  obtain ⟨hheaders, rfl⟩ := Proc.ofExcept_ok h4
  cases auth with
  | none =>
    obtain ⟨_, s5, h5, k5⟩ := Proc.bind_ok k4
    obtain ⟨hrequire, rfl⟩ := Proc.failIf_ok h5
    cases k5
    exact .inl ⟨rfl, by simpa using hrequire, rfl⟩
  | some auth =>
    obtain ⟨begun, s5, h5, k5⟩ := Proc.bind_ok k4
    obtain ⟨_, s6, h6, k6⟩ := Proc.bind_ok h5
    obtain ⟨hstale, hreplay, rfl⟩ := checkFreshness_ok h6
    cases k6
    cases k5
    exact .inr ⟨auth, hheaders, rfl, hstale, hreplay, rfl⟩

/-- What has been checked when publish reaches its room: with required signatures, the headers
of the request, their verification, and the key the sender is bound to by now. -/
theorem publishSigned_ok {env : Env} {input : PublishInput} {payload : JsonValue}
    {pending : Option PendingSignature} {s s' : ServiceState C}
    (h : (publishSigned R request env).run s = (.ok (input, payload, pending), s')) :
    (pending = none ∧ R.config.requireSignatures = false) ∨
    ∃ auth, parsePublishAuthHeaders request = .ok (some auth) ∧
      R.platform.verifyEd25519Signature auth.publicKey
        (publishSigningMessage R input.sender input.room input.id input.topic payload auth)
        auth.signature = true ∧
      s'.keyRegistry.publicKeyOf input.sender = some auth.publicKey := by
  obtain ⟨input', s1, -, k1⟩ := Proc.bind_ok h
  obtain ⟨⟨payload', pending'⟩, s2, h2, k2⟩ := Proc.bind_ok k1
  obtain ⟨_, s3, h3, k3⟩ := Proc.bind_ok k2
  cases k3
  rcases publishBegin_ok h2 with ⟨hnone, hrequire, -⟩ | ⟨auth, hheaders, hpending, -, -, -⟩
  · exact .inl ⟨hnone, hrequire⟩
  · subst hpending
    obtain ⟨hverify, keyRegistry, hkey, rfl⟩ := finishSignature_ok h3
    exact .inr ⟨auth, hheaders, hverify, (ensureTofuKey_ok hkey).1⟩

include hA in
theorem leads_publish (hpath : request.pathname = "/api/v1/publish") (hp : A.prunes)
    (hs : A.signs) (env : Env) : Proc.Leads (Change R A) (handlePublish R request env) := by
  refine Proc.Leads.bind_post (Q := fun p s =>
    (p.2.2 = none ∧ R.config.requireSignatures = false) ∨
    ∃ auth, parsePublishAuthHeaders request = .ok (some auth) ∧
      R.platform.verifyEd25519Signature auth.publicKey
        (publishSigningMessage R p.1.sender p.1.room p.1.id p.1.topic p.2.1 auth)
        auth.signature = true ∧
      s.keyRegistry.publicKeyOf p.1.sender = some auth.publicKey)
    (leads_publishSigned hp hs env) ?_ fun p => ?_
  · rintro s ⟨input, payload, pending⟩ s' h
    exact publishSigned_ok h
  · obtain ⟨input, payload, pending⟩ := p
    intro s hs'
    -- The message is written in the very state in which the grounds hold.
    have hwrite : Relation.ReflTransGen (Change R A) s
        ((publishCommit R input payload pending).run s).2 := by
      refine .single (.publish s _ _ _ _ _ _ _ _ _ (hA.publishes s _ ?_))
      rcases hs' with ⟨-, hrequire⟩ | ⟨auth, hheaders, hverify, hkey⟩
      · exact .unsigned s _ hpath hrequire
      · exact .signed s _ auth hpath hheaders hverify hkey
    have hrest : Proc.LeadsFrom (fun s' => s' = s) (Change R A)
        (publishCommit R input payload pending >>= fun result =>
          Proc.modify (ServiceState.persistResult R result) >>= fun _ =>
            (pure result.toResponse : Handler C Response)) := by
      rintro s' rfl
      exact hwrite.trans (((leads_persistResult R _).bind fun _ => Proc.Leads.pure _) _)
    exact hrest s rfl

/-! ## The whole service -/

include hA in
theorem leads_handle (env : Env) {endpoint : Endpoint}
    (h : Endpoint.ofPath request.pathname = some endpoint) :
    Proc.Leads (Change R A) (endpoint.handle R request env) := by
  cases endpoint with
  | keyInfo => exact leads_keyInfo R request
  | keyRotate => exact leads_keyRotate (hA.prunes _ h rfl) (hA.signs _ h rfl) (hA.rekeys h) env
  | keyVerifyGitHub =>
    exact (leads_requireMethod R _ _).bind fun _ => leads_verifyGitHubBegin.bind fun _ =>
      leads_verifyGitHubFinish _ env
  | githubWebhook => exact leads_githubWebhook hA (Endpoint.path_of h) env
  | githubWebhookDlq => exact leads_dlqList R request
  | githubWebhookDlqRetry => exact leads_dlqRetry hA (Endpoint.path_of h) env
  | triggerCallback => exact leads_triggerCallback hA (Endpoint.path_of h) env
  | triggerResults => exact leads_triggerResults R request
  | cacheExchangeDiscovery => exact leads_cacheExchangeDiscovery R request
  | cacheExchangePull => exact leads_cacheExchangePull R request
  | cacheExchangePush => exact leads_cacheExchangePush hA (Endpoint.path_of h)
  | cacheIssuesPull => exact leads_cacheIssuePull R request
  | cacheIssuesSync => exact leads_cacheIssueSync R request
  | ws => exact leads_webSocket R request env
  | publish =>
    exact leads_publish hA (Endpoint.path_of h) (hA.prunes _ h rfl) (hA.signs _ h rfl) env
  | poll => exact leads_poll R request
  | inboxPending => exact leads_inboxPending R request
  | inboxAck => exact leads_inboxAck R request
  | presenceHeartbeat => exact leads_presenceHeartbeat R request env
  | presence => exact leads_presence R request env
  | review =>
    exact (leads_requireRoom R _).bind fun room => Proc.Leads.ite (leads_reviewGet R request room)
      (Proc.Leads.ite (leads_reviewPost (hA.prunes _ h rfl) (hA.signs _ h rfl) room env)
        (Proc.Leads.answer _))

include hA in
theorem leads_fetch (env : Env) : Proc.Leads (Change R A) (fetch R request env) := by
  unfold fetch
  refine Proc.Leads.ite (Proc.Leads.pure _) (Proc.Leads.ite (Proc.Leads.pure _) ?_)
  split
  · next endpoint h => exact (Proc.Leads.failWith _).bind fun _ => leads_handle hA env h
  · exact (Proc.Leads.failWith _).bind fun _ => Proc.Leads.pure _

theorem serve_state (x : Handler C Response) (s : ServiceState C) : (x.serve s).2 = (x.run s).2 := by
  unfold Handler.serve
  split <;> simp_all

/-- What a handler answers does not depend on how it ends. -/
theorem serve_response (x : Handler C Response) (s : ServiceState C) :
    (x.serve s).1 = match (x.run s).1 with
      | .ok response => response
      | .error response => response := by
  unfold Handler.serve
  split <;> simp_all

omit hA in
/-- The request of an endpoint is served by its handler, behind the relay token. -/
theorem serve_endpoint {env : Env} {endpoint : Endpoint} {s : ServiceState C}
    (h : Endpoint.ofPath request.pathname = some endpoint) :
    serve R request env s = (endpoint.guarded R request env).serve s := by
  have hhealth : request.pathname ≠ "/health" := by
    intro heq
    rw [heq] at h
    cases h
  have hroot : request.pathname ≠ "/" := by
    intro heq
    rw [heq] at h
    cases h
  unfold serve fetch
  rw [if_neg hhealth, if_neg hroot, h]

include hA in
/-- A request is a chain of changes whose messages are admitted. -/
theorem leads_serve (env : Env) (s : ServiceState C) :
    Relation.ReflTransGen (Change R A) s (serve R request env s).2 := by
  unfold serve
  rw [serve_state]
  exact leads_fetch hA env s

omit hA in
/-- An invariant of the changes is an invariant of the service. -/
theorem serve_keeps {I : ServiceState C → Prop}
    (hI : ∀ s s', Change R (Allowed.any : Allowed C) s s' → I s → I s') (request : Request)
    (env : Env) {s : ServiceState C} (hs : I s) : I (serve R request env s).2 := by
  unfold serve
  rw [serve_state]
  exact (leads_fetch (.any request) env).keeps hI hs

/-! ## Consequences of a change -/

theorem updateKey_rooms (s : ServiceState C) (sender : String) (f : KeyRecord → KeyRecord) :
    (s.updateKey sender f).rooms = s.rooms := by
  unfold ServiceState.updateKey
  split <;> rfl

/-- A message in a log after publishing was there before or is the one published. -/
theorem mem_publishEntry {s : ServiceState C} {room sender topic id signature : String}
    {payload : JsonValue} {origin : String} {hopCount maxHops : Nat} {other : String} {e : Envelope}
    (h : e ∈ ((s.publishEntry R room sender topic id signature payload origin hopCount
      maxHops).2.roomOf other).messages) :
    e ∈ (s.roomOf other).messages ∨ other = room ∧
      e = { room, id, sender, topic, payload, signature := storedSignature signature } := by
  have hcases := publishIntoRoom_cases (s.roomOf room) room sender topic id signature payload
    R.config.maxMessagesPerRoom
  simp only at hcases
  unfold ServiceState.publishEntry at h
  by_cases hroom : other = room
  · subst hroom
    rcases hcases with ⟨-, heq⟩ | ⟨-, -, heq⟩ | ⟨-, -, heq⟩
    · rw [heq] at h
      exact .inl (by simpa using h)
    · rw [heq] at h
      exact .inl (by simpa using h)
    · rw [heq] at h
      have hmem : e ∈ pushMessage (s.roomOf other).messages
          { room := other, id, sender, topic, payload, signature := storedSignature signature }
          R.config.maxMessagesPerRoom := by
        simpa [ServiceState.recordCacheExchange, ServiceState.roomOf, ServiceState.putRoom,
          OrdMap.getD] using h
      rcases List.mem_append.mp (List.mem_of_mem_drop hmem) with hold | hnew
      · exact .inl hold
      · exact .inr ⟨rfl, List.mem_singleton.mp hnew⟩
  · refine .inl ?_
    rcases hcases with ⟨-, heq⟩ | ⟨-, -, heq⟩ | ⟨-, -, heq⟩ <;> rw [heq] at h <;>
      simpa [ServiceState.recordCacheExchange, ServiceState.roomOf, ServiceState.putRoom,
        OrdMap.getD, OrdMap.get?_set_of_ne _ hroom] using h

variable {s s' : ServiceState C}

/-- A new message in a log is one the change was allowed to write there. -/
theorem Change.mem_messages (h : Change R A s s') {room : String} {e : Envelope}
    (hmem : e ∈ (s'.roomOf room).messages) :
    e ∈ (s.roomOf room).messages ∨ A.publishes s e ∧ e.room = room := by
  cases h with
  | room name roomState hlog =>
    refine .inl ?_
    by_cases hname : room = name
    · subst hname
      rw [ServiceState.roomOf_putRoom_self, hlog] at hmem
      exact hmem
    · rw [ServiceState.roomOf_putRoom_of_ne s hname] at hmem
      exact hmem
  | publish name sender topic id signature payload origin hopCount maxHops hA =>
    rcases mem_publishEntry hmem with hold | ⟨hname, rfl⟩
    · exact .inl hold
    · exact .inr ⟨hA, hname.symm⟩
  | annotateKey sender f _ =>
    unfold ServiceState.roomOf at hmem
    rw [updateKey_rooms] at hmem
    exact .inl hmem
  | rekey sender f _ =>
    unfold ServiceState.roomOf at hmem
    rw [updateKey_rooms] at hmem
    exact .inl hmem
  | rates | issueSync | cache | prune | bindKey | remember => exact .inl hmem

theorem publicKeyOf_updateKey (s : ServiceState C) (sender other : String)
    (f : KeyRecord → KeyRecord) (hf : ∀ record, (f record).publicKey = record.publicKey) :
    (s.updateKey sender f).keyRegistry.publicKeyOf other = s.keyRegistry.publicKeyOf other := by
  unfold ServiceState.updateKey
  split
  · rfl
  · next record hrecord =>
    unfold KeyRegistry.publicKeyOf
    by_cases h : other = sender
    · subst h
      rw [OrdMap.get?_set_self, hrecord]
      simp only [Option.map_some, hf]
    · rw [OrdMap.get?_set_of_ne _ h]

theorem publishEntry_keyRegistry (s : ServiceState C) (room sender topic id signature : String)
    (payload : JsonValue) (origin : String) (hopCount maxHops : Nat) :
    (s.publishEntry R room sender topic id signature payload origin hopCount
      maxHops).2.keyRegistry = s.keyRegistry := by
  unfold ServiceState.publishEntry
  split
  split <;> rfl

/-- Without a rotation a bound sender keeps its key. -/
theorem Change.publicKeyOf (h : Change R A s s') (hA : ¬ A.rekeys) {sender publicKey : String}
    (hkey : s.keyRegistry.publicKeyOf sender = some publicKey) :
    s'.keyRegistry.publicKeyOf sender = some publicKey := by
  cases h with
  | publish room sender topic id signature payload origin hopCount maxHops _ =>
    rw [publishEntry_keyRegistry]
    exact hkey
  | annotateKey other f hf =>
    rw [publicKeyOf_updateKey s other sender f hf]
    exact hkey
  | bindKey other key nowSec keyRegistry hbind _ =>
    obtain ⟨hnew, hold, hrest⟩ := ensureTofuKey_ok hbind
    by_cases h : sender = other
    · subst h
      rcases hold with hnone | hsome
      · rw [hkey] at hnone
        cases hnone
      · rw [hkey] at hsome
        simp only [hnew, hsome]
    · unfold KeyRegistry.publicKeyOf at hkey ⊢
      simp only [hrest sender h]
      exact hkey
  | rekey other f hr => exact absurd hr hA
  | rates | room | issueSync | cache | prune | remember => exact hkey

/-! ## The messages of one request -/

variable (R) in
/-- What this request is entitled to. -/
def entitlement (request : Request) : Allowed C where
  publishes := Admission R request
  prunes := True
  signs := True
  rekeys := Endpoint.ofPath request.pathname = some .keyRotate

variable (R) in
theorem entitlement_grants (request : Request) : (entitlement R request).Grants R request where
  publishes _ _ h := h
  prunes _ _ _ := trivial
  signs _ _ _ := trivial
  rekeys h := h

/-- Along a chain of changes a new message was admitted in some state on the way. -/
theorem admission_of_chain {A : Allowed C} {s s' : ServiceState C}
    (h : Relation.ReflTransGen (Change R A) s s') {room : String} {e : Envelope}
    (hmem : e ∈ (s'.roomOf room).messages) :
    e ∈ (s.roomOf room).messages ∨
      ∃ s1, A.publishes s1 e ∧ e.room = room ∧ Relation.ReflTransGen (Change R A) s1 s' := by
  induction h with
  | refl => exact .inl hmem
  | @tail b c hchain hstep ih =>
    rcases hstep.mem_messages hmem with hold | ⟨hpub, hroom⟩
    · rcases ih hold with hs | ⟨s1, hpub, hroom, hs1⟩
      · exact .inl hs
      · exact .inr ⟨s1, hpub, hroom, hs1.tail hstep⟩
    · exact .inr ⟨b, hpub, hroom, .single hstep⟩

end

end BitRelay
