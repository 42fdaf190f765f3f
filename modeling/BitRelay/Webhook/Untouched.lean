import BitRelay.Logs.Writing

/-!
# Requests that leave the webhook deliveries alone

Only the webhook and the retry of a queued delivery write to the issue sync engine, and they do so
after they have published. Every other request, and every other segment of a request in flight,
keeps it.

Results:
1. `keepsEngine_handle`: a request to another endpoint keeps the engine.
2. `keepsEngine_fetchBegin`, `keepsEngine_resume`: so does the first segment of any request, and every later
   one that does not settle a delivery.
-/

namespace BitRelay

section
variable {C : Type} (R : Relay C)

/-- The issue sync engine is the same. -/
def EngineKept (s s' : ServiceState C) : Prop := s'.githubIssueSync = s.githubIssueSync

/-- The computation keeps the issue sync engine. -/
abbrev KeepsEngine {α : Type} (x : Handler C α) : Prop := Proc.Leads EngineKept x

variable {R} {request : Request} {env : Env}

theorem KeepsEngine.run {α : Type} {x : Handler C α} (h : KeepsEngine x) (s : ServiceState C) :
    (x.run s).2.githubIssueSync = s.githubIssueSync :=
  h.keeps (I := fun s' => s'.githubIssueSync = s.githubIssueSync)
    (fun _ _ hstep hs => Eq.trans hstep hs) rfl

namespace UntouchedLemmas

/-! ## Shared parts -/

theorem keeps_update {α : Type} {f : ServiceState C → α × ServiceState C}
    (h : ∀ s, (f s).2.githubIssueSync = s.githubIssueSync) :
    KeepsEngine (Proc.update f : Handler C α) :=
  Proc.Leads.update fun s => .single (h s)

theorem keeps_modify {f : ServiceState C → ServiceState C}
    (h : ∀ s, (f s).githubIssueSync = s.githubIssueSync) :
    KeepsEngine (Proc.modify f : Handler C Unit) :=
  Proc.Leads.modify h

theorem keeps_requireMethod (request : Request) (method : String) :
    KeepsEngine (requireMethod request method : Handler C Unit) :=
  Proc.Leads.failIf _ _

theorem keeps_requireParam (request : Request) (key : String) :
    KeepsEngine (requireParam request key : Handler C String) :=
  (Proc.Leads.failIf _ _).bind fun _ => Proc.Leads.pure _

theorem keeps_requireRoom (request : Request) : KeepsEngine (requireRoom R request) :=
  (Proc.Leads.failIf _ _).bind fun _ => (Proc.Leads.failWith _).bind fun _ => Proc.Leads.pure _

theorem keeps_requireObject (request : Request) :
    KeepsEngine (requireObject request : Handler C JsonValue) := by
  unfold requireObject
  split
  · exact Proc.Leads.pure _
  · exact Proc.Leads.answer _

theorem keeps_readRoom (room : String) : KeepsEngine (readRoom room : Handler C RoomState) :=
  keeps_update fun _ => rfl

theorem engine_publishEntry (room sender topic id signature : String) (payload : JsonValue)
    (origin : String) (hopCount maxHops : Nat) (s : ServiceState C) :
    (s.publishEntry R room sender topic id signature payload origin hopCount
      maxHops).2.githubIssueSync = s.githubIssueSync := by
  unfold ServiceState.publishEntry
  dsimp only
  split <;> rfl

theorem engine_persistResult (result : PublishResult) (s : ServiceState C) :
    (s.persistResult R result).githubIssueSync = s.githubIssueSync := by
  cases result <;> rfl

theorem keeps_persistResult (result : PublishResult) :
    KeepsEngine (Proc.modify (ServiceState.persistResult R result) : Handler C Unit) :=
  keeps_modify (engine_persistResult result)

theorem keeps_publishAndHand (w : Write) : KeepsEngine (publishAndHand R w) :=
  (keeps_update fun s => engine_publishEntry _ _ _ _ _ _ _ _ _ s).bind fun _ =>
    (keeps_persistResult _).bind fun _ => Proc.Leads.pure _

/-! ## Readers and room bookkeeping -/

theorem keeps_inboxAck (request : Request) : KeepsEngine (handleInboxAck R request) :=
  (keeps_requireMethod _ _).bind fun _ => (keeps_requireRoom _).bind fun _ =>
    (keeps_requireParam _ _).bind fun _ => keeps_update fun _ => rfl

theorem keeps_presenceHeartbeat (request : Request) (env : Env) :
    KeepsEngine (handlePresenceHeartbeat R request env) :=
  (keeps_requireMethod _ _).bind fun _ => (keeps_requireRoom _).bind fun _ =>
    (keeps_requireParam _ _).bind fun _ => (Proc.Leads.ofExcept _).bind fun _ =>
      Proc.Leads.bind (keeps_update fun _ => rfl) fun _ => Proc.Leads.pure _

theorem keeps_presence (request : Request) (env : Env) :
    KeepsEngine (handlePresence R request env) := by
  refine (keeps_requireRoom _).bind fun room => Proc.Leads.ite ?_ (Proc.Leads.ite ?_
    (Proc.Leads.answer _))
  · exact Proc.Leads.bind (keeps_update fun _ => rfl) fun _ => Proc.Leads.pure _
  · exact (keeps_requireParam _ _).bind fun _ =>
      Proc.Leads.bind (keeps_update fun _ => rfl) fun _ => Proc.Leads.pure _

theorem keeps_reviewGet (request : Request) (room : String) :
    KeepsEngine (handleReviewGet request room : Handler C Response) :=
  (keeps_requireParam _ _).bind fun _ => (Proc.Leads.failIf _ _).bind fun _ =>
    (keeps_readRoom _).bind fun _ => Proc.Leads.pure _

theorem keeps_webSocket (request : Request) (env : Env) :
    KeepsEngine (handleWebSocket R request env) :=
  (Proc.Leads.failIf _ _).bind fun _ => (keeps_readRoom _).bind fun _ =>
    (Proc.Leads.failWith _).bind fun _ => (Proc.Leads.failIf _ _).bind fun _ =>
      (Proc.Leads.failIf _ _).bind fun _ => Proc.Leads.pure _

theorem keeps_keyInfo (request : Request) :
    KeepsEngine (handleKeyInfo request : Handler C Response) :=
  (keeps_requireMethod _ _).bind fun _ => (keeps_requireParam _ _).bind fun _ =>
    (Proc.Leads.gets _).bind fun _ => (Proc.Leads.ofExcept _).bind fun _ => Proc.Leads.pure _

/-! ## Signed requests -/

theorem engine_updateKey (sender : String) (f : KeyRecord → KeyRecord) (s : ServiceState C) :
    (s.updateKey sender f).githubIssueSync = s.githubIssueSync := by
  unfold ServiceState.updateKey
  split <;> rfl

theorem keeps_rateLimit {table : ServiceState C → OrdMap String RateCounter}
    {store : ServiceState C → OrdMap String RateCounter → ServiceState C} {key : String}
    {now max windowMs : Nat} {error : String}
    (h : ∀ s m, (store s m).githubIssueSync = s.githubIssueSync) :
    KeepsEngine (rateLimit table store key now max windowMs error) :=
  (keeps_update fun s => h s _).bind fun _ => Proc.Leads.failIf _ _

theorem keeps_publishArrive : KeepsEngine (publishArrive R request env) := by
  refine (keeps_requireMethod _ _).bind fun _ => (keeps_requireParam _ _).bind fun _ =>
    (keeps_requireRoom _).bind fun _ => Proc.Leads.bind ?_ fun _ => Proc.Leads.bind ?_ fun _ =>
      Proc.Leads.bind ?_ fun _ => (Proc.Leads.failIf _ _).bind fun _ => Proc.Leads.pure _
  · unfold ipRateLimit
    exact Proc.Leads.ite (keeps_rateLimit fun _ _ => rfl) (Proc.Leads.pure _)
  · exact keeps_rateLimit fun _ _ => rfl
  · exact keeps_rateLimit fun _ _ => rfl

theorem keeps_checkFreshness (sender nonce : String) (ts nowSec : Int) :
    KeepsEngine (checkFreshness R sender nonce ts nowSec) :=
  (Proc.Leads.failIf _ _).bind fun _ => Proc.Leads.bind (keeps_update fun _ => rfl) fun _ =>
    Proc.Leads.failIf _ _

theorem keeps_publishBegin (input : PublishInput) :
    KeepsEngine (publishBegin R request input env) := by
  refine (Proc.Leads.failIf _ _).bind fun _ => (Proc.Leads.ofExcept _).bind fun _ =>
    Proc.Leads.bind ?_ fun _ => Proc.Leads.pure _
  refine (Proc.Leads.ofExcept _).bind fun auth => ?_
  cases auth with
  | none => exact (Proc.Leads.failIf _ _).bind fun _ => Proc.Leads.pure _
  | some auth =>
    exact ((keeps_checkFreshness _ _ _ _).bind fun _ => Proc.Leads.pure _).bind fun _ =>
      Proc.Leads.pure _

theorem keeps_finishSignature (pending : PendingSignature) :
    KeepsEngine (finishSignature R pending) := by
  have hbind : KeepsEngine (bindKey pending.sender pending.auth.publicKey pending.nowSec :
      Handler C Unit) :=
    (Proc.Leads.gets _).bind fun _ => (Proc.Leads.ofExcept _).bind fun _ =>
      keeps_modify fun _ => rfl
  exact (Proc.Leads.failIf _ _).bind fun _ => hbind.bind fun _ => keeps_modify fun _ => rfl

theorem keeps_finishSignatureVerification (pending : Option PendingSignature) :
    KeepsEngine (finishSignatureVerification R pending) := by
  cases pending with
  | none => exact Proc.Leads.pure _
  | some pending => exact keeps_finishSignature pending

theorem keeps_publish : KeepsEngine (handlePublish R request env) := by
  have hsigned : KeepsEngine (publishSigned R request env) :=
    keeps_publishArrive.bind fun _ => (keeps_publishBegin _).bind fun _ =>
      (keeps_finishSignatureVerification _).bind fun _ => Proc.Leads.pure _
  exact hsigned.bind fun _ => Proc.Leads.bind
    (keeps_update fun s => engine_publishEntry _ _ _ _ _ _ _ _ _ s) fun _ =>
      (keeps_persistResult _).bind fun _ => Proc.Leads.pure _

theorem keeps_review : KeepsEngine (handleReview R request env) := by
  refine (keeps_requireRoom _).bind fun room => Proc.Leads.ite (keeps_reviewGet request room)
    (Proc.Leads.ite ?_ (Proc.Leads.answer _))
  have hbegin : KeepsEngine (reviewBegin R request room env) :=
    (keeps_requireParam _ _).bind fun _ => (keeps_requireParam _ _).bind fun _ =>
      (Proc.Leads.failIf _ _).bind fun _ => (Proc.Leads.ofExcept _).bind fun _ =>
        (Proc.Leads.ofExcept _).bind fun _ => (Proc.Leads.ofExcept _).bind fun _ =>
          ((keeps_checkFreshness _ _ _ _).bind fun _ => Proc.Leads.pure _).bind fun _ =>
            Proc.Leads.pure _
  have hsigned : KeepsEngine (reviewSigned R request room env) :=
    hbegin.bind fun _ => (keeps_finishSignature _).bind fun _ => Proc.Leads.pure _
  exact hsigned.bind fun _ => Proc.Leads.bind (keeps_update fun _ => rfl) fun _ =>
    Proc.Leads.pure _

theorem keeps_keyRotate : KeepsEngine (handleKeyRotate R request env) := by
  have hbegin : KeepsEngine (rotateBegin R request env) :=
    (keeps_requireObject _).bind fun _ => (Proc.Leads.ofExcept _).bind fun _ =>
      (keeps_checkFreshness _ _ _ _).bind fun _ => (Proc.Leads.gets _).bind fun _ =>
        (Proc.Leads.ofExcept _).bind fun _ => Proc.Leads.pure _
  have hcommit : ∀ pending, KeepsEngine (rotateCommit R pending) := fun _ =>
    (Proc.Leads.failIf _ _).bind fun _ => (Proc.Leads.failIf _ _).bind fun _ =>
      (keeps_modify fun s => engine_updateKey _ _ s).bind fun _ => keeps_modify fun _ => rfl
  have hsigned : KeepsEngine (rotateSigned R request env) :=
    (keeps_requireMethod _ _).bind fun _ => hbegin.bind fun _ => (hcommit _).bind fun _ =>
      Proc.Leads.pure _
  exact hsigned.bind fun _ => Proc.Leads.pure _

theorem keeps_keyVerifyGitHub :
    KeepsEngine (handleKeyVerifyGitHub request env : Handler C Response) := by
  have hbegin : KeepsEngine (verifyGitHubBegin request : Handler C String) :=
    (keeps_requireObject _).bind fun _ => (Proc.Leads.failIf _ _).bind fun _ =>
      (Proc.Leads.failIf _ _).bind fun _ => (Proc.Leads.failIf _ _).bind fun _ =>
        (Proc.Leads.gets _).bind fun _ => (Proc.Leads.failIf _ _).bind fun _ => Proc.Leads.pure _
  have hfinish : ∀ sender, KeepsEngine (verifyGitHubFinish sender env : Handler C Response) :=
    fun _ => (Proc.Leads.ofExcept _).bind fun _ => (Proc.Leads.gets _).bind fun _ =>
      (Proc.Leads.failIf _ _).bind fun _ => (keeps_modify fun s => engine_updateKey _ _ s).bind
        fun _ => Proc.Leads.pure _
  exact (keeps_requireMethod _ _).bind fun _ => hbegin.bind fun _ => hfinish _

/-! ## The other writers -/

theorem keeps_triggerCallback : KeepsEngine (handleTriggerCallback R request env) :=
  (keeps_requireMethod _ _).bind fun _ => (keeps_requireObject _).bind fun _ =>
    (Proc.Leads.ofExcept _).bind fun _ => Proc.Leads.bind
      (keeps_update fun s => engine_publishEntry _ _ _ _ _ _ _ _ _ s) fun _ =>
        (keeps_persistResult _).bind fun _ => Proc.Leads.pure _

theorem keeps_pushEntry (i : Nat) (value : JsonValue) (counts : PushCounts) :
    KeepsEngine (pushEntry R request i value counts) := by
  refine (Proc.Leads.ofExcept _).bind fun incoming => ?_
  split
  · exact Proc.Leads.pure _
  · refine (Proc.Leads.failWith _).bind fun _ => ?_
    split
    · exact Proc.Leads.pure _
    · refine Proc.Leads.bind (keeps_update fun _ => rfl) fun existing => ?_
      cases existing with
      | some existing => exact Proc.Leads.pure _
      | none =>
        exact Proc.Leads.bind (keeps_update fun s => engine_publishEntry _ _ _ _ _ _ _ _ _ s)
          fun _ => (keeps_persistResult _).bind fun _ => Proc.Leads.pure _

theorem keeps_pushEntries (entries : List JsonValue) (i : Nat) (counts : PushCounts) :
    KeepsEngine (pushEntries R request entries i counts) := by
  induction entries generalizing i counts with
  | nil => exact Proc.Leads.pure _
  | cons value rest ih => exact (keeps_pushEntry i value counts).bind fun _ => ih _ _

theorem keeps_pushUntilAccepted (entries : List JsonValue) (i : Nat) (counts : PushCounts) :
    KeepsEngine (pushUntilAccepted R request entries i counts) := by
  induction entries generalizing i counts with
  | nil => exact (Proc.Leads.gets _).bind fun _ => Proc.Leads.pure _
  | cons value rest ih =>
    exact (keeps_pushEntry i value counts).bind fun _ => Proc.Leads.ite (ih _ _)
      (Proc.Leads.pure _)

theorem keeps_cacheExchangePush : KeepsEngine (handleCacheExchangePush R request) :=
  (keeps_requireMethod _ _).bind fun _ => (Proc.Leads.failWith _).bind fun _ =>
    (keeps_requireObject _).bind fun _ => (Proc.Leads.ofExcept _).bind fun _ =>
      (keeps_pushEntries _ _ _).bind fun _ => (Proc.Leads.gets _).bind fun _ => Proc.Leads.pure _

end UntouchedLemmas

open UntouchedLemmas

/-! ## Whole requests -/

/-- A request to another endpoint keeps the deliveries. -/
theorem keepsEngine_handle {endpoint : Endpoint} (hwebhook : endpoint ≠ .githubWebhook)
    (hretry : endpoint ≠ .githubWebhookDlqRetry) :
    KeepsEngine (endpoint.handle R request env) := by
  cases endpoint with
  | keyInfo => exact keeps_keyInfo request
  | keyRotate => exact keeps_keyRotate
  | keyVerifyGitHub => exact keeps_keyVerifyGitHub
  | githubWebhook => exact absurd rfl hwebhook
  | githubWebhookDlq =>
    exact (keeps_requireMethod _ _).bind fun _ => (Proc.Leads.gets _).bind fun _ =>
      Proc.Leads.pure _
  | githubWebhookDlqRetry => exact absurd rfl hretry
  | triggerCallback => exact keeps_triggerCallback
  | triggerResults =>
    exact (keeps_requireMethod _ _).bind fun _ => (keeps_requireRoom _).bind fun _ =>
      (keeps_readRoom _).bind fun _ => Proc.Leads.pure _
  | cacheExchangeDiscovery =>
    exact (keeps_requireMethod _ _).bind fun _ => (Proc.Leads.failWith _).bind fun _ =>
      Proc.Leads.pure _
  | cacheExchangePull =>
    exact (keeps_requireMethod _ _).bind fun _ => (Proc.Leads.failWith _).bind fun _ =>
      (Proc.Leads.failWith _).bind fun _ => (Proc.Leads.gets _).bind fun _ => Proc.Leads.pure _
  | cacheExchangePush => exact keeps_cacheExchangePush
  | cacheIssuesPull =>
    exact (keeps_requireMethod _ _).bind fun _ => (Proc.Leads.failWith _).bind fun _ =>
      (keeps_requireRoom _).bind fun _ => (Proc.Leads.gets _).bind fun _ => Proc.Leads.pure _
  | cacheIssuesSync =>
    exact (keeps_requireMethod _ _).bind fun _ => (Proc.Leads.failWith _).bind fun _ =>
      (keeps_requireRoom _).bind fun _ => Proc.Leads.bind (keeps_update fun _ => rfl) fun _ =>
        Proc.Leads.pure _
  | ws => exact keeps_webSocket request env
  | publish => exact keeps_publish
  | poll =>
    exact (keeps_requireMethod _ _).bind fun _ => (keeps_requireRoom _).bind fun _ =>
      (keeps_readRoom _).bind fun _ => Proc.Leads.pure _
  | inboxPending =>
    exact (keeps_requireMethod _ _).bind fun _ => (keeps_requireRoom _).bind fun _ =>
      (keeps_requireParam _ _).bind fun _ => (keeps_readRoom _).bind fun _ => Proc.Leads.pure _
  | inboxAck => exact keeps_inboxAck request
  | presenceHeartbeat => exact keeps_presenceHeartbeat request env
  | presence => exact keeps_presence request env
  | review => exact keeps_review

/-! ## Segments -/

/-- A delivery is published before anything is written to the engine. -/
theorem keepsEngine_applyBegin (event deliveryId : String) (requestBody : Body) :
    KeepsEngine (applyBegin R event deliveryId requestBody) := by
  refine (Proc.Leads.gets _).bind fun checked => ?_
  cases checked with
  | error result => exact Proc.Leads.pure _
  | ok mapped => exact (keeps_publishAndHand _).bind fun _ => Proc.Leads.pure _

theorem keepsEngine_begin (endpoint : Endpoint) : KeepsEngine (endpoint.begin R request env) := by
  rcases WritingLemmas.begin_cases (R := R) request env endpoint with hwrites | ⟨hreads, hbegin⟩
  · cases endpoint with
    | publish => exact keeps_publishArrive.bind fun _ => Proc.Leads.pure _
    | triggerCallback => exact (keeps_requireMethod _ _).bind fun _ => Proc.Leads.pure _
    | cacheExchangePush =>
      exact (keeps_requireMethod _ _).bind fun _ => (Proc.Leads.failWith _).bind fun _ =>
        Proc.Leads.pure _
    | githubWebhook =>
      exact (keeps_requireMethod _ _).bind fun _ => (Proc.Leads.failIf _ _).bind fun _ =>
        (Proc.Leads.failIf _ _).bind fun _ => Proc.Leads.pure _
    | githubWebhookDlqRetry =>
      refine (keeps_requireMethod _ _).bind fun _ => (keeps_requireParam _ _).bind fun _ =>
        (Proc.Leads.gets _).bind fun _ => (Proc.Leads.ofExcept _).bind fun _ =>
          (keepsEngine_applyBegin _ _ _).bind fun begun => ?_
      rcases begun with result | ⟨mapped, result⟩ <;> exact Proc.Leads.pure _
    | _ => cases hwrites
  · rw [hbegin]
    refine (keepsEngine_handle ?_ ?_).bind fun _ => Proc.Leads.pure _
    · rintro rfl
      cases hreads
    · rintro rfl
      cases hreads

theorem keepsEngine_fetchBegin : KeepsEngine (fetchBegin R request env) := by
  unfold fetchBegin
  refine Proc.Leads.ite (Proc.Leads.pure _) (Proc.Leads.ite (Proc.Leads.pure _) ?_)
  split
  · exact (Proc.Leads.failWith _).bind fun _ => keepsEngine_begin _
  · exact (Proc.Leads.failWith _).bind fun _ => Proc.Leads.pure _

/-- The segments of a delivery that write to the engine. -/
def Writing.settles : Writing → Bool
  | webhookPublish _ _ | webhookApply _ | retryPublish _ _ _ | retryApply _ _ => true
  | _ => false

theorem keepsEngine_resume {writing : Writing} (h : writing.settles = false) :
    KeepsEngine (writing.resume R request env) := by
  cases writing with
  | publishBody input => exact (keeps_publishBegin input).bind fun _ => Proc.Leads.pure _
  | publishVerify input payload pending =>
    exact (keeps_finishSignatureVerification pending).bind fun _ => Proc.Leads.pure _
  | publishReturn input payload pending =>
    exact (keeps_publishAndHand _).bind fun _ => Proc.Leads.pure _
  | publishPersist result => exact Proc.Leads.pure _
  | callbackBody =>
    exact (keeps_requireObject _).bind fun _ => (Proc.Leads.ofExcept _).bind fun _ =>
      (keeps_publishAndHand _).bind fun _ => Proc.Leads.pure _
  | callbackPersist input result => exact Proc.Leads.pure _
  | pushBody =>
    exact (keeps_requireObject _).bind fun _ => (Proc.Leads.ofExcept _).bind fun _ =>
      keeps_pushUntilAccepted _ _ _
  | pushPersist value rest i counts => exact keeps_pushUntilAccepted rest i counts
  | webhookBody =>
    refine (Proc.Leads.ofExcept _).bind fun _ => (keepsEngine_applyBegin _ _ _).bind fun begun => ?_
    rcases begun with result | ⟨mapped, result⟩ <;> exact Proc.Leads.pure _
  | webhookPublish mapped result => cases h
  | webhookApply result => cases h
  | retryPublish found mapped result => cases h
  | retryApply found result => cases h

end

end BitRelay
