import BitRelay.Exchange.Pushes

/-!
# Writers in flight

The five endpoints that write a message, cut where their handlers await
something: the body, the verification of a signature, the cache adapter. An
accepted message is in its room log, recorded for the exchange and handed to the
adapter within one segment; the request then waits for the adapter while others
run. A push waits once for each entry that it accepts. The other requests write
no message and are served in one step.

Results:
1. `complete_begin`: a request that nothing interrupts does what `fetch` does.
2. `takes_begin`, `takes_resume`: a segment accepts at most one message, and the
   request then waits for it.
-/

namespace BitRelay

/-! ## Where a writer waits -/

/-- A writer in flight, with the values it has computed so far. -/
inductive Writing
  | publishBody (input : PublishInput)
  | publishVerify (input : PublishInput) (payload : JsonValue) (pending : Option PendingSignature)
  | publishReturn (input : PublishInput) (payload : JsonValue) (pending : Option PendingSignature)
  | publishPersist (result : PublishResult)
  | callbackBody
  | callbackPersist (input : CallbackInput) (result : PublishResult)
  | pushBody
  | pushPersist (value : JsonValue) (rest : List JsonValue) (i : Nat) (counts : PushCounts)
  | webhookBody
  | webhookPublish (mapped : IssueSyncMappedEnvelope) (result : PublishResult)
  | webhookApply (result : IssueSyncApplyResult)
  | retryPublish (found : IssueSyncDlqEntry) (mapped : IssueSyncMappedEnvelope)
      (result : PublishResult)
  | retryApply (found : IssueSyncDlqEntry) (result : IssueSyncApplyResult)

/-- The response of a writer, or where it waits. -/
abbrev WritingProgress : Type := Response ⊕ Writing

/-- The message that was accepted. -/
def PublishResult.envelope? : PublishResult → Option Envelope
  | accepted envelope _ => some envelope
  | invalidTopic _ | known _ => none

section
variable {C : Type} (R : Relay C)

/-- The message of an entry of a push. -/
def pushedEnvelope (value : JsonValue) : Option Envelope :=
  match parseIncomingCacheExchangeEntry value R.config.cacheExchangeMaxHops with
  | .ok incoming => some incoming.write.envelope
  | .error _ => none

/-- The message whose writes to the adapter the request waits for. -/
def Writing.accepted : Writing → Option Envelope
  | publishPersist result | callbackPersist _ result | webhookPublish _ result
  | retryPublish _ _ result => result.envelope?
  | pushPersist value _ _ _ => pushedEnvelope R value
  | publishBody _ | publishVerify _ _ _ | publishReturn _ _ _ | callbackBody | pushBody
  | webhookBody | webhookApply _ | retryApply _ _ => none

/-- The message that a segment accepted. -/
def WritingProgress.accepted : WritingProgress → Option Envelope
  | .inr writing => writing.accepted R
  | .inl _ => none

/-! ## Segments -/

def CallbackInput.toResponse (input : CallbackInput) (result : PublishResult) : Response :=
  ⟨result.status, .obj [
    ("ok", .bool (result.status = 200)),
    ("accepted", .bool result.isAccepted),
    ("room", .str input.room),
    ("topic", .str "ci.result"),
    ("id", .str input.envelopeId),
    ("ref", .str input.ref),
    ("status", .str input.status),
    ("cursor", cursorJson result.cursor?)]⟩

/-- `publishIntoRoom`, `recordCacheExchange` and the call of `persistEnvelopeToCache`. -/
def publishAndHand (w : Write) : Handler C PublishResult := do
  let result ← Proc.update (ServiceState.write R w)
  Proc.modify (ServiceState.persistResult R result)
  return result

/-- What publish writes. -/
def PublishInput.write (input : PublishInput) (payload : JsonValue)
    (pending : Option PendingSignature) : Write where
  room := input.room
  sender := input.sender
  topic := input.topic
  id := input.id
  signature := (pending.map fun p => p.auth.signature).getD input.signatureFromQuery
  payload
  origin := R.config.relayNodeId
  hopCount := 0
  maxHops := R.config.cacheExchangeMaxHops

/-- What a trigger callback writes. -/
def CallbackInput.write (input : CallbackInput) : Write where
  room := input.room
  sender := "ci:callback"
  topic := "ci.result"
  id := input.envelopeId
  signature := ""
  payload := input.payload
  origin := R.config.relayNodeId
  hopCount := 0
  maxHops := R.config.cacheExchangeMaxHops

/-- What a webhook delivery writes. -/
def IssueSyncMappedEnvelope.write (mapped : IssueSyncMappedEnvelope) : Write where
  room := mapped.room
  sender := mapped.sender
  topic := mapped.topic
  id := mapped.envelopeId
  signature := ""
  payload := mapped.payload
  origin := R.config.relayNodeId
  hopCount := 0
  maxHops := R.config.cacheExchangeMaxHops

/-- Only an accepted message is waited for. -/
def answerOrWait (result : PublishResult) (response : Response) (writing : Writing) :
    WritingProgress :=
  if result.isAccepted then .inr writing else .inl response

/-- `applyDelivery`, up to the wait for `publish`. -/
def applyBegin (event deliveryId : String) (requestBody : Body) :
    Handler C (IssueSyncApplyResult ⊕ IssueSyncMappedEnvelope × PublishResult) := do
  let checked ← Proc.gets fun s => checkDelivery R event deliveryId requestBody s.githubIssueSync
  match checked with
  | .error result => pure (.inl result)
  | .ok mapped => do
    let result ← publishAndHand R (mapped.write R)
    return .inr (mapped, result)

/-- `applyDelivery`, after the wait. -/
def applyFinish (event deliveryId : String) (mapped : IssueSyncMappedEnvelope)
    (result : PublishResult) (nowSec : Int) : Handler C IssueSyncApplyResult :=
  if result.status ≠ 200 then
    pure (.failed ("publish failed: status=" ++ toString result.status))
  else do
    Proc.modify (ServiceState.settleDelivery (trim (trim deliveryId)) result.isAccepted nowSec)
    pure (.published (trim (trim deliveryId))
      (R.platform.toLowerCase (trim (R.platform.toLowerCase (trim event)))) result.isAccepted
      mapped result.cursor?)

def webhookEvent (request : Request) : String :=
  R.platform.toLowerCase (request.headerTrim "x-github-event")

/-- The webhook, once the delivery was applied. -/
def webhookAnswer (request : Request) (env : Env) :
    IssueSyncApplyResult → Handler C Response
  | .failed error => do
    let queued ← Proc.update (ServiceState.enqueueDlq (request.headerTrim "x-github-delivery")
      (webhookEvent R request) request.body error false (nowEpochSec env.nowMs))
    pure ⟨202, .obj [
      ("ok", .bool false),
      ("queued", .bool true),
      ("delivery_id", .str (request.headerTrim "x-github-delivery")),
      ("event", .str (webhookEvent R request)),
      ("error", .str error),
      ("retry_count", .ofNat queued.retryCount),
      ("next_retry_at", .ofInt queued.nextRetryAt)]⟩
  | result => pure ⟨200, .obj (appliedBody [("ok", .bool true)] true result)⟩

/-- The retry, once the delivery was applied. -/
def retryAnswer (request : Request) (env : Env) (found : IssueSyncDlqEntry) :
    IssueSyncApplyResult → Handler C Response
  | .failed error => do
    let queued ← Proc.update (ServiceState.enqueueDlq found.deliveryId found.event found.body error
      true (nowEpochSec env.nowMs))
    pure ⟨200, .obj [
      ("ok", .bool true),
      ("queued", .bool true),
      ("accepted", .bool false),
      ("delivery_id", .str queued.deliveryId),
      ("event", .str queued.event),
      ("error", .str queued.lastError),
      ("retry_count", .ofNat queued.retryCount),
      ("next_retry_at", .ofInt queued.nextRetryAt)]⟩
  | result => do
    Proc.modify fun s =>
      { s with githubIssueSync := s.githubIssueSync.removeDlq (request.paramTrim "delivery_id") }
    pure ⟨200, .obj (appliedBody [("ok", .bool true), ("queued", .bool false)] false result)⟩

/-- The loop over the entries of a push, up to the first one that is accepted. -/
def pushUntilAccepted (request : Request) :
    List JsonValue → Nat → PushCounts → Handler C WritingProgress
  | [], _, counts => do
    let cursor ← Proc.gets fun s => s.cacheExchangeCursor
    return .inl (pushResponse R counts cursor)
  | value :: rest, i, counts => do
    let counts' ← pushEntry R request i value counts
    if counts'.accepted = counts.accepted then pushUntilAccepted request rest (i + 1) counts'
    else return .inr (.pushPersist value rest (i + 1) counts')

/-- An endpoint, up to its first wait. -/
def Endpoint.begin (request : Request) (env : Env) : Endpoint → Handler C WritingProgress
  | publish => do
    let input ← publishArrive R request env
    return .inr (.publishBody input)
  | triggerCallback => do
    requireMethod request "POST"
    return .inr .callbackBody
  | cacheExchangePush => do
    requireMethod request "POST"
    Proc.failWith (checkPeerAuth R request)
    return .inr .pushBody
  | githubWebhook => do
    requireMethod request "POST"
    Proc.failIf (R.config.githubWebhookSecret = "")
      (toErrorResponse "github webhook secret is not configured" 503)
    Proc.failIf (request.headerTrim "x-github-delivery" = "")
      (toErrorResponse "missing github delivery id" 400)
    return .inr .webhookBody
  | githubWebhookDlqRetry => do
    requireMethod request "POST"
    let deliveryId ← requireParam request "delivery_id"
    let found ← Proc.gets fun s => s.githubIssueSync.getDlqEntry deliveryId
    let found ← Proc.ofExcept
      (found.elim (.error (toErrorResponse "delivery_id not found in dlq" 404)) .ok)
    let begun ← applyBegin R found.event found.deliveryId found.body
    match begun with
    | .inl result => return .inr (.retryApply found result)
    | .inr (mapped, result) => return .inr (.retryPublish found mapped result)
  | endpoint => do
    let response ← endpoint.handle R request env
    return .inl response

/-- `fetch`, up to the first wait of its handler. -/
def fetchBegin (request : Request) (env : Env) : Handler C WritingProgress :=
  if request.pathname = "/health" then pure (.inl healthResponse)
  else if request.pathname = "/" then pure (.inl ⟨200, .str "bit-relay"⟩)
  else
    match Endpoint.ofPath request.pathname with
    | some endpoint => do
      Proc.failWith (checkAuth R request)
      endpoint.begin R request env
    | none => do
      Proc.failWith (checkAuth R request)
      pure (.inl notFoundResponse)

/-- From one wait to the next. -/
def Writing.resume (request : Request) (env : Env) : Writing → Handler C WritingProgress
  | publishBody input => do
    let (payload, pending) ← publishBegin R request input env
    return .inr (.publishVerify input payload pending)
  | publishVerify input payload pending => do
    finishSignatureVerification R pending
    return .inr (.publishReturn input payload pending)
  | publishReturn input payload pending => do
    let result ← publishAndHand R (input.write R payload pending)
    return answerOrWait result result.toResponse (.publishPersist result)
  | publishPersist result => return .inl result.toResponse
  | callbackBody => do
    let parsed ← requireObject request
    let input ← Proc.ofExcept (parseCallback R request env parsed)
    let result ← publishAndHand R (input.write R)
    return answerOrWait result (input.toResponse result) (.callbackPersist input result)
  | callbackPersist input result => return .inl (input.toResponse result)
  | pushBody => do
    let parsed ← requireObject request
    let entries ← requireEntries parsed
    pushUntilAccepted R request entries 0 .zero
  | pushPersist _ rest i counts => pushUntilAccepted R request rest i counts
  | webhookBody => do
    Proc.ofExcept (checkWebhookSignature R request)
    let begun ← applyBegin R (webhookEvent R request) (request.headerTrim "x-github-delivery")
      request.body
    match begun with
    | .inl result => return .inr (.webhookApply result)
    | .inr (mapped, result) => return .inr (.webhookPublish mapped result)
  | webhookPublish mapped result => do
    let result ← applyFinish R (webhookEvent R request) (request.headerTrim "x-github-delivery")
      mapped result (nowEpochSec env.nowMs)
    return .inr (.webhookApply result)
  | webhookApply result => do
    let response ← webhookAnswer R request env result
    return .inl response
  | retryPublish found mapped result => do
    let result ← applyFinish R found.event found.deliveryId mapped result (nowEpochSec env.nowMs)
    return .inr (.retryApply found result)
  | retryApply found result => do
    let response ← retryAnswer request env found result
    return .inl response

/-! ## A writer that runs alone -/

/-- Resume a writer until it has its response, at most `n` times. -/
def completeWriting (request : Request) (env : Env) : Nat → WritingProgress → Handler C Response
  | _, .inl response => pure response
  | 0, .inr _ => Proc.answer notFoundResponse
  | n + 1, .inr writing => do
    let progress ← writing.resume R request env
    completeWriting request env n progress

/-- A push waits at most once for each of its entries. -/
def writingFuel (request : Request) : Nat :=
  ((request.body.json.bind (JsonValue.arrField? · "entries")).getD []).length + 4

variable {R}

namespace WritingLemmas

theorem complete_inl (request : Request) (env : Env) (n : Nat) (response : Response) :
    completeWriting R request env n (.inl response) = pure response := by
  cases n <;> rfl

/-- A request that need not wait for the adapter answers with the same response. -/
theorem complete_answerOrWait (request : Request) (env : Env) (n : Nat) (result : PublishResult)
    {response : Response} {writing : Writing}
    (h : writing.resume R request env = pure (.inl response)) :
    completeWriting R request env (n + 1) (answerOrWait result response writing) =
      pure response := by
  unfold answerOrWait
  split
  · rw [completeWriting, h, pure_bind]
    exact complete_inl request env n response
  · exact complete_inl request env (n + 1) response

theorem applyDelivery_eq (event deliveryId : String) (requestBody : Body) (nowSec : Int) :
    applyGitHubWebhookDelivery R event deliveryId requestBody nowSec = (do
      let begun ← applyBegin R event deliveryId requestBody
      match begun with
      | .inl result => pure result
      | .inr (mapped, result) => applyFinish R event deliveryId mapped result nowSec) := by
  unfold applyGitHubWebhookDelivery applyBegin
  rw [bind_assoc]
  refine bind_congr fun checked => ?_
  cases checked with
  | error result => rfl
  | ok mapped => rfl

theorem begin_publish (request : Request) (env : Env) (n : Nat) :
    Endpoint.publish.begin R request env >>= completeWriting R request env (n + 4) =
      handlePublish R request env := by
  simp only [Endpoint.begin, handlePublish, publishSigned, bind_assoc, pure_bind, completeWriting,
    Writing.resume]
  refine bind_congr fun input => bind_congr fun p => bind_congr fun _ => ?_
  simp only [publishAndHand, bind_assoc, pure_bind]
  refine bind_congr fun result => bind_congr fun _ => ?_
  exact complete_answerOrWait request env n result rfl

theorem begin_callback (request : Request) (env : Env) (n : Nat) :
    Endpoint.triggerCallback.begin R request env >>= completeWriting R request env (n + 4) =
      handleTriggerCallback R request env := by
  simp only [Endpoint.begin, handleTriggerCallback, bind_assoc, pure_bind, completeWriting,
    Writing.resume]
  refine bind_congr fun _ => bind_congr fun parsed => bind_congr fun input => ?_
  simp only [publishAndHand, bind_assoc, pure_bind]
  refine bind_congr fun result => bind_congr fun _ => ?_
  exact complete_answerOrWait request env (n + 2) result rfl

/-- The loop over the entries, wait by wait. -/
theorem pushUntilAccepted_complete (request : Request) (env : Env) (entries : List JsonValue)
    (i : Nat) (counts : PushCounts) {n : Nat} (hn : entries.length ≤ n) :
    pushUntilAccepted R request entries i counts >>= completeWriting R request env n = (do
      let counts ← pushEntries R request entries i counts
      let cursor ← Proc.gets fun s => s.cacheExchangeCursor
      return pushResponse R counts cursor) := by
  induction entries generalizing i counts n with
  | nil =>
    simp only [pushUntilAccepted, pushEntries, bind_assoc, pure_bind, complete_inl]
  | cons value rest ih =>
    simp only [pushUntilAccepted, pushEntries, bind_assoc]
    refine bind_congr fun counts' => ?_
    split
    · exact ih (i + 1) counts' ((Nat.le_succ _).trans hn)
    · obtain ⟨k, rfl⟩ := Nat.exists_eq_succ_of_ne_zero (n := n) (by
        rintro rfl
        exact absurd hn (Nat.not_succ_le_zero _))
      simp only [pure_bind, completeWriting, Writing.resume]
      exact ih (i + 1) counts' (Nat.le_of_succ_le_succ hn)

theorem begin_push (request : Request) (env : Env) {n : Nat} (hn : writingFuel request ≤ n) :
    Endpoint.cacheExchangePush.begin R request env >>= completeWriting R request env n =
      handleCacheExchangePush R request := by
  obtain ⟨k, rfl⟩ := Nat.exists_eq_add_of_le' ((Nat.le_add_left 1 _).trans hn)
  simp only [Endpoint.begin, handleCacheExchangePush, bind_assoc, pure_bind, completeWriting,
    Writing.resume]
  refine bind_congr fun _ => bind_congr fun _ => ?_
  unfold requireObject requireEntries
  split
  · next fields hbody =>
    simp only [pure_bind]
    cases hentries : (JsonValue.obj fields).arrField? "entries" with
    | none => rfl
    | some entries =>
      simp only [Option.elim_some, Proc.ofExcept, pure_bind]
      refine pushUntilAccepted_complete request env entries 0 .zero ?_
      unfold writingFuel at hn
      rw [hbody, Option.bind_some, hentries, Option.getD_some] at hn
      omega
  · rfl

theorem begin_webhook (request : Request) (env : Env) (n : Nat) :
    Endpoint.githubWebhook.begin R request env >>= completeWriting R request env (n + 4) =
      handleGitHubWebhook R request env := by
  simp only [Endpoint.begin, handleGitHubWebhook, applyDelivery_eq, bind_assoc, pure_bind,
    completeWriting, Writing.resume, webhookEvent]
  refine bind_congr fun _ => bind_congr fun _ => bind_congr fun _ => bind_congr fun _ =>
    bind_congr fun begun => ?_
  rcases begun with result | ⟨mapped, result⟩
  · simp only [pure_bind, completeWriting, Writing.resume, bind_assoc, bind_pure]
    rfl
  · simp only [pure_bind, completeWriting, Writing.resume, bind_assoc, bind_pure]
    rfl

theorem begin_retry (request : Request) (env : Env) (n : Nat) :
    Endpoint.githubWebhookDlqRetry.begin R request env >>= completeWriting R request env (n + 4) =
      handleGitHubWebhookDlqRetry R request env := by
  simp only [Endpoint.begin, handleGitHubWebhookDlqRetry, requireParam, applyDelivery_eq,
    bind_assoc, pure_bind]
  refine bind_congr fun _ => bind_congr fun _ => bind_congr fun _ => bind_congr fun found =>
    bind_congr fun begun => ?_
  rcases begun with result | ⟨mapped, result⟩
  · simp only [pure_bind, completeWriting, Writing.resume, bind_assoc, bind_pure]
    rfl
  · simp only [pure_bind, completeWriting, Writing.resume, bind_assoc, bind_pure]
    rfl

/-- An endpoint that writes no message answers in its first segment. -/
theorem begin_cases (request : Request) (env : Env) (endpoint : Endpoint) :
    endpoint.writes = true ∨
    endpoint.writes = false ∧
      endpoint.begin R request env = (do
        let response ← endpoint.handle R request env
        return .inl response) := by
  cases endpoint with
  | publish | triggerCallback | cacheExchangePush | githubWebhook | githubWebhookDlqRetry =>
    exact .inl rfl
  | _ => exact .inr ⟨rfl, rfl⟩

theorem begin_endpoint (request : Request) (env : Env) (endpoint : Endpoint) {n : Nat}
    (hn : writingFuel request ≤ n) :
    endpoint.begin R request env >>= completeWriting R request env n =
      endpoint.handle R request env := by
  obtain ⟨k, rfl⟩ := Nat.exists_eq_add_of_le' ((Nat.le_add_left 4 _).trans hn)
  rcases begin_cases (R := R) request env endpoint with hwrites | ⟨-, hbegin⟩
  · cases endpoint with
    | publish => exact begin_publish request env k
    | triggerCallback => exact begin_callback request env k
    | cacheExchangePush => exact begin_push request env hn
    | githubWebhook => exact begin_webhook request env k
    | githubWebhookDlqRetry => exact begin_retry request env k
    | _ => cases hwrites
  · simp only [hbegin, bind_assoc, pure_bind, complete_inl, bind_pure]

end WritingLemmas

open WritingLemmas

/-- A request that nothing interrupts does what `fetch` does. -/
theorem complete_begin (request : Request) (env : Env) {n : Nat} (hn : writingFuel request ≤ n) :
    fetchBegin R request env >>= completeWriting R request env n = fetch R request env := by
  unfold fetchBegin fetch
  by_cases hhealth : request.pathname = "/health"
  · simp only [if_pos hhealth, pure_bind, complete_inl]
  rw [if_neg hhealth, if_neg hhealth]
  by_cases hroot : request.pathname = "/"
  · simp only [if_pos hroot, pure_bind, complete_inl]
  rw [if_neg hroot, if_neg hroot]
  cases Endpoint.ofPath request.pathname with
  | none => simp only [bind_assoc, pure_bind, complete_inl]
  | some endpoint => simp only [bind_assoc, Endpoint.guarded, begin_endpoint request env _ hn]

/-! ## What a segment does -/

variable (R) in
/-- What the writers of a relay hand to `publishIntoRoom`. -/
def RelayWrite (w : Write) : Prop :=
  LocalWrite R w ∨ ∃ value incoming, PushedWrite R value incoming w

variable (R) in
/-- The logs stay, or the one message that was accepted is appended. -/
inductive Segment (s s' : ServiceState C) : Option Envelope → Prop
  | quiet (h : SameLog s s') : Segment s s' none
  | accepts (w : Write) (hw : RelayWrite R w) (h : Appended R w s s') :
      Segment s s' (some w.envelope)

/-- The fields of a publish that waits are the ones it was admitted with. -/
def Writing.Proper : Writing → Prop
  | publishBody input | publishVerify input _ _ | publishReturn input _ _ =>
    isValidRoomName input.room = true ∧ FreeText input.id ∧ FreeText input.sender
  | _ => True

def WritingProgress.Proper : WritingProgress → Prop
  | .inl _ => True
  | .inr writing => writing.Proper

variable (R) in
/-- A segment accepts at most one message, and the request then waits for it. -/
def Takes (x : Handler C WritingProgress) : Prop :=
  ∀ s, Proc.Triple (SameLog s) x
    (fun progress s' => Segment R s s' (WritingProgress.accepted R progress) ∧
      WritingProgress.Proper progress) (SameLog s)

variable {s : ServiceState C} {α : Type} {request : Request} {x : Handler C α}

namespace WritingLemmas

theorem triple_silent (h : Silent x) :
    Proc.Triple (SameLog s) x (fun _ => SameLog s) (SameLog s) := by
  intro s₁ hs
  have hsame := hs.trans (h s₁)
  refine ⟨fun a s' hr => ?_, fun e s' hr => ?_⟩
  · rw [hr] at hsame
    exact hsame
  · rw [hr] at hsame
    exact hsame

theorem triple_leads (h : Proc.Leads (Change R .unwritten) x) :
    Proc.Triple (SameLog s) x (fun _ => SameLog s) (SameLog s) :=
  triple_silent (silent_of_leads h)

/-- A fact about the value that does not depend on the state is kept. -/
theorem triple_fact {Q : α → Prop} (h : Silent x)
    (hQ : ∀ s a s', x.run s = (.ok a, s') → Q a) :
    Proc.Triple (SameLog s) x (fun a s' => Q a ∧ SameLog s s') (SameLog s) := by
  intro s₁ hs
  obtain ⟨hok, herror⟩ := triple_silent h s₁ hs
  exact ⟨fun a s' hr => ⟨hQ s₁ a s' hr, hok a s' hr⟩, herror⟩

/-- A silent segment ends in a response or in a wait for nothing that was accepted. -/
theorem takes_silent {f : α → WritingProgress} (h : Silent x)
    (haccepted : ∀ a, WritingProgress.accepted R (f a) = none)
    (hproper : ∀ a, WritingProgress.Proper (f a)) : Takes R (x >>= fun a => pure (f a)) := by
  intro s
  refine (triple_silent h).bind fun a => Proc.Triple.pure fun s' hs => ⟨?_, hproper a⟩
  rw [haccepted a]
  exact .quiet hs

variable (R) in
/-- How `publishIntoRoom` ended. -/
def Published (w : Write) (s s' : ServiceState C) (result : PublishResult) : Prop :=
  (result.isAccepted = false ∧ SameLog s s') ∨
  ∃ cursor, result = .accepted w.envelope cursor ∧ Appended R w s s'

theorem triple_publishAndHand (w : Write) {E : ServiceState C → Prop} :
    Proc.Triple (SameLog s) (publishAndHand R w) (fun result s' => Published R w s s' result) E := by
  refine Proc.Triple.bind (Q := fun result s' => Published R w s s' result)
    (Proc.Triple.update fun s₁ hs => ?_) fun result => ?_
  · rcases write_cases R w s₁ with ⟨-, hresult, hsame⟩ | ⟨-, -, hresult, hsame⟩ |
      ⟨cursor, hresult, happended⟩
    · rw [hresult]
      exact .inl ⟨rfl, hs.trans hsame⟩
    · rw [hresult]
      exact .inl ⟨rfl, hs.trans hsame⟩
    · exact .inr ⟨cursor, hresult, happended.congr hs (.refl _)⟩
  · refine Proc.Triple.bind (Q := fun _ s' => Published R w s s' result)
      (Proc.Triple.modify fun s₁ hs => ?_) fun _ => Proc.Triple.pure fun _ hs => hs
    have hpersist := persistResult_sameLog (R := R) result s₁
    rcases hs with ⟨hrefused, hsame⟩ | ⟨cursor, hresult, happended⟩
    · exact .inl ⟨hrefused, hsame.trans hpersist⟩
    · exact .inr ⟨cursor, hresult, happended.congr (.refl _) hpersist⟩

theorem Published.segment {w : Write} {s' : ServiceState C} {result : PublishResult}
    (h : Published R w s s' result) (hw : RelayWrite R w) : Segment R s s' result.envelope? := by
  rcases h with ⟨hrefused, hsame⟩ | ⟨cursor, rfl, happended⟩
  · cases result with
    | accepted envelope cursor => cases hrefused
    | known cursor => exact .quiet hsame
    | invalidTopic topic => exact .quiet hsame
  · exact .accepts w hw happended

theorem accepted_answerOrWait {result : PublishResult} {response : Response} {writing : Writing}
    (h : writing.accepted R = result.envelope?) :
    WritingProgress.accepted R (answerOrWait result response writing) = result.envelope? := by
  unfold answerOrWait
  cases result with
  | accepted envelope cursor => exact h
  | known cursor => rfl
  | invalidTopic topic => rfl

theorem proper_answerOrWait {result : PublishResult} {response : Response} {writing : Writing}
    (h : writing.Proper) : WritingProgress.Proper (answerOrWait result response writing) := by
  unfold answerOrWait
  split
  · exact h
  · trivial

/-- The end of a segment that publishes: the request answers, or waits for the message. -/
theorem triple_publish {w : Write} (hw : RelayWrite R w) {response : PublishResult → Response}
    {writing : PublishResult → Writing}
    (haccepted : ∀ result, (writing result).accepted R = result.envelope?)
    (hproper : ∀ result, (writing result).Proper) {E : ServiceState C → Prop} :
    Proc.Triple (SameLog s) (publishAndHand R w >>= fun result =>
        pure (answerOrWait result (response result) (writing result)))
      (fun progress s' => Segment R s s' (WritingProgress.accepted R progress) ∧
        WritingProgress.Proper progress) E := by
  refine (triple_publishAndHand w).bind fun result => Proc.Triple.pure fun s' hs => ⟨?_, ?_⟩
  · rw [accepted_answerOrWait (haccepted result)]
    exact hs.segment hw
  · exact proper_answerOrWait (hproper result)

/-- The message of a delivery that is being applied. -/
def begunEnvelope : IssueSyncApplyResult ⊕ IssueSyncMappedEnvelope × PublishResult →
    Option Envelope
  | .inl _ => none
  | .inr (_, result) => result.envelope?

theorem triple_applyBegin (event deliveryId : String) (requestBody : Body)
    {E : ServiceState C → Prop} :
    Proc.Triple (SameLog s) (applyBegin R event deliveryId requestBody)
      (fun begun s' => Segment R s s' (begunEnvelope begun)) E := by
  refine Proc.Triple.bind (Proc.Triple.gets _) fun checked => ?_
  cases checked with
  | error result => exact Proc.Triple.pure fun s' hs => .quiet hs.2
  | ok mapped =>
    intro s₁ hs
    obtain ⟨hroom, hid, hsender⟩ := WriteLemmas.checkDelivery_fields hs.1
    have hlocal : RelayWrite R (mapped.write R) :=
      .inl ⟨hroom, hid, hsender, rfl, rfl, rfl⟩
    exact ((triple_publishAndHand (mapped.write R)).bind fun result =>
      Proc.Triple.pure fun _ h => h.segment hlocal) s₁ hs.2

theorem silent_applyFinish (event deliveryId : String) (mapped : IssueSyncMappedEnvelope)
    (result : PublishResult) (nowSec : Int) :
    Silent (applyFinish R event deliveryId mapped result nowSec) := by
  unfold applyFinish
  split
  · exact silent_pure _
  · exact Silent.bind (silent_issueSync _) fun _ => silent_pure _

theorem silent_webhookAnswer (env : Env) (result : IssueSyncApplyResult) :
    Silent (webhookAnswer R request env result) := by
  cases result with
  | failed error =>
    exact (WriteLemmas.silent_enqueueDlq _ _ _ _ _ _).bind fun _ => silent_pure _
  | duplicate deliveryId event => exact silent_pure _
  | published deliveryId event accepted mapped cursor => exact silent_pure _

theorem silent_retryAnswer (env : Env) (found : IssueSyncDlqEntry)
    (result : IssueSyncApplyResult) :
    Silent (retryAnswer request env found result : Handler C Response) := by
  cases result with
  | failed error =>
    exact (WriteLemmas.silent_enqueueDlq _ _ _ _ _ _).bind fun _ => silent_pure _
  | duplicate deliveryId event => exact Silent.bind (silent_issueSync _) fun _ => silent_pure _
  | published deliveryId event accepted mapped cursor =>
    exact Silent.bind (silent_issueSync _) fun _ => silent_pure _

variable (R) in
/-- An entry of a push is counted as accepted when its message is appended. -/
def EntrySegment (value : JsonValue) (counts counts' : PushCounts) (s s' : ServiceState C) : Prop :=
  (counts'.accepted = counts.accepted ∧ SameLog s s') ∨
  (counts'.accepted ≠ counts.accepted ∧ Segment R s s' (pushedEnvelope R value))

theorem triple_importEntry {value : JsonValue} {incoming : IncomingExchangeEntry}
    (hw : PushedWrite R value incoming incoming.write) (counts : PushCounts)
    {E : ServiceState C → Prop} :
    Proc.Triple (SameLog s) (importEntry R incoming counts)
      (fun counts' s' => EntrySegment R value counts counts' s s') E := by
  refine Proc.Triple.bind (Q := fun _ => SameLog s) (Proc.Triple.update fun s₁ hs =>
    hs.trans (.of_messages rfl)) fun existing => ?_
  cases existing with
  | some existing =>
    refine Proc.Triple.pure fun s' hs => .inl ⟨?_, hs⟩
    cases classifyCacheExchangeCollision R.platform existing incoming.envelope <;> rfl
  | none =>
    show Proc.Triple (SameLog s) (publishAndHand R incoming.write >>= fun result =>
      pure (counts.record result)) _ E
    refine (triple_publishAndHand incoming.write).bind fun result => Proc.Triple.pure fun s' hs => ?_
    rcases hs with ⟨hrefused, hsame⟩ | ⟨cursor, rfl, happended⟩
    · refine .inl ⟨?_, hsame⟩
      cases result with
      | accepted envelope cursor => cases hrefused
      | known cursor => rfl
      | invalidTopic topic => rfl
    · refine .inr ⟨Nat.succ_ne_self _, ?_⟩
      unfold pushedEnvelope
      rw [hw.read]
      exact .accepts _ (.inr ⟨value, incoming, hw⟩) happended

theorem triple_pushEntry (request : Request) (i : Nat) (value : JsonValue) (counts : PushCounts) :
    Proc.Triple (SameLog s) (pushEntry R request i value counts)
      (fun counts' s' => EntrySegment R value counts counts' s s') (SameLog s) := by
  refine (Proc.Triple.ofExcept fun _ hs => hs).bind fun incoming => Proc.Triple.of_fact fun hread => ?_
  cases hname : refusesEntryName incoming with
  | some reason => exact Proc.Triple.pure fun _ hs => .inl ⟨rfl, hs⟩
  | none =>
    refine (Proc.Triple.failWith fun _ hs => hs).bind fun _ => Proc.Triple.of_fact fun _ => ?_
    cases hhops : refusesEntryHops R incoming with
    | some reason => exact Proc.Triple.pure fun _ hs => .inl ⟨rfl, hs⟩
    | none => exact triple_importEntry ⟨mapError_eq_ok hread, hname, hhops, rfl⟩ counts

theorem takes_pushUntilAccepted (request : Request) (entries : List JsonValue) (i : Nat)
    (counts : PushCounts) : Takes R (pushUntilAccepted R request entries i counts) := by
  intro s
  induction entries generalizing i counts with
  | nil =>
    exact (Proc.Triple.gets _).bind fun cursor => Proc.Triple.pure fun s' hs =>
      ⟨.quiet hs.2, trivial⟩
  | cons value rest ih =>
    refine (triple_pushEntry request i value counts).bind fun counts' => ?_
    refine Proc.Triple.ite (fun heq => ?_) fun hne => Proc.Triple.pure fun s' hs => ⟨?_, trivial⟩
    · refine (ih (i + 1) counts').conseq (fun s' hs => ?_) (fun _ _ h => h) fun _ h => h
      exact hs.elim And.right fun h => absurd heq h.1
    · exact hs.elim (fun h => absurd h.1 hne) And.right

end WritingLemmas

open WritingLemmas

theorem takes_begin (call : HostCall) (endpoint : Endpoint) :
    Takes R (endpoint.begin R call.request call.env) := by
  rcases begin_cases (R := R) call.request call.env endpoint with hwrites | ⟨hreads, hbegin⟩
  · cases endpoint with
    | publish =>
      intro s
      refine (triple_fact (silent_of_leads (leads_publishArrive call.env)) fun _ _ _ hr =>
        WriteLemmas.publishArrive_free call.uuid hr).bind fun input => ?_
      exact Proc.Triple.pure fun s' hs => ⟨.quiet hs.2, hs.1⟩
    | triggerCallback =>
      exact takes_silent (silent_of_leads (leads_requireMethod R _ _)) (fun _ => rfl)
        fun _ => trivial
    | cacheExchangePush =>
      intro s
      refine (triple_leads (leads_requireMethod R _ _)).bind fun _ =>
        (triple_silent (silent_of_same (Proc.Leads.failWith _))).bind fun _ =>
          Proc.Triple.pure fun s' hs => ⟨.quiet hs, trivial⟩
    | githubWebhook =>
      intro s
      refine (triple_leads (leads_requireMethod R _ _)).bind fun _ =>
        (triple_silent (silent_of_same (Proc.Leads.failIf _ _))).bind fun _ =>
          (triple_silent (silent_of_same (Proc.Leads.failIf _ _))).bind fun _ =>
            Proc.Triple.pure fun s' hs => ⟨.quiet hs, trivial⟩
    | githubWebhookDlqRetry =>
      intro s
      refine (triple_leads (leads_requireMethod R _ _)).bind fun _ =>
        (triple_leads (leads_requireParam R _ _)).bind fun deliveryId =>
          (triple_silent (silent_of_same (Proc.Leads.gets _))).bind fun found =>
            (triple_silent (silent_of_same (Proc.Leads.ofExcept _))).bind fun found =>
              (triple_applyBegin _ _ _).bind fun begun => ?_
      rcases begun with result | ⟨mapped, result⟩
      · exact Proc.Triple.pure fun s' hs => ⟨hs, trivial⟩
      · exact Proc.Triple.pure fun s' hs => ⟨hs, trivial⟩
    | _ => cases hwrites
  · rw [hbegin]
    exact takes_silent (silent_of_leads (WriteLemmas.leads_reader call.request call.env hreads))
      (fun _ => rfl) fun _ => trivial

theorem takes_fetchBegin (call : HostCall) : Takes R (fetchBegin R call.request call.env) := by
  intro s
  unfold fetchBegin
  refine Proc.Triple.ite (fun _ => Proc.Triple.pure fun s' hs => ⟨.quiet hs, trivial⟩) fun _ =>
    Proc.Triple.ite (fun _ => Proc.Triple.pure fun s' hs => ⟨.quiet hs, trivial⟩) fun _ => ?_
  split
  · next endpoint h =>
    exact (triple_silent (silent_of_same (Proc.Leads.failWith _))).bind fun _ =>
      takes_begin call endpoint s
  · exact (triple_silent (silent_of_same (Proc.Leads.failWith _))).bind fun _ =>
      Proc.Triple.pure fun s' hs => ⟨.quiet hs, trivial⟩

theorem takes_resume (request : Request) {env : Env} (huuid : FreeText env.randomUUID)
    {writing : Writing} (h : writing.Proper) : Takes R (writing.resume R request env) := by
  cases writing with
  | publishBody input =>
    intro s
    refine (triple_leads (leads_publishBegin trivial input env)).bind fun p => ?_
    exact Proc.Triple.pure fun s' hs => ⟨.quiet hs, h⟩
  | publishVerify input payload pending =>
    intro s
    refine Proc.Triple.bind (Q := fun _ => SameLog s) ?_ fun _ =>
      Proc.Triple.pure fun s' hs => ⟨.quiet hs, h⟩
    cases pending with
    | none => exact Proc.Triple.pure fun _ hs => hs
    | some pending => exact triple_leads (leads_finishSignature trivial pending)
  | publishReturn input payload pending =>
    obtain ⟨hroom, hid, hsender⟩ := h
    have hlocal : LocalWrite R (input.write R payload pending) :=
      ⟨hroom, hid, hsender, rfl, rfl, rfl⟩
    exact fun s => triple_publish (.inl hlocal) (fun _ => rfl) fun result =>
      show Writing.Proper (.publishPersist result) from trivial
  | publishPersist result => exact fun s => Proc.Triple.pure fun s' hs => ⟨.quiet hs, trivial⟩
  | callbackBody =>
    intro s
    refine (triple_leads (leads_requireObject R _)).bind fun parsed =>
      (Proc.Triple.ofExcept fun _ hs => hs).bind fun input => Proc.Triple.of_fact fun hinput => ?_
    have hlocal : LocalWrite R (input.write R) :=
      ⟨(parseCallback_ok R hinput).2.1, WriteLemmas.parseCallback_id huuid hinput,
        show FreeText "ci:callback" by decide, rfl, rfl, rfl⟩
    exact triple_publish (.inl hlocal) (fun _ => rfl) fun result =>
      show Writing.Proper (.callbackPersist input result) from trivial
  | callbackPersist input result =>
    exact fun s => Proc.Triple.pure fun s' hs => ⟨.quiet hs, trivial⟩
  | pushBody =>
    intro s
    exact (triple_leads (leads_requireObject R _)).bind fun parsed =>
      (triple_silent (silent_of_same (Proc.Leads.ofExcept _))).bind fun entries =>
        takes_pushUntilAccepted request entries 0 .zero s
  | pushPersist value rest i counts => exact takes_pushUntilAccepted request rest i counts
  | webhookBody =>
    intro s
    refine (triple_silent (silent_of_same (Proc.Leads.ofExcept _))).bind fun _ =>
      (triple_applyBegin _ _ _).bind fun begun => ?_
    rcases begun with result | ⟨mapped, result⟩
    · exact Proc.Triple.pure fun s' hs => ⟨hs, trivial⟩
    · exact Proc.Triple.pure fun s' hs => ⟨hs, trivial⟩
  | webhookPublish mapped result =>
    exact takes_silent (silent_applyFinish _ _ _ _ _) (fun _ => rfl) fun _ => trivial
  | webhookApply result =>
    exact takes_silent (silent_webhookAnswer env result) (fun _ => rfl) fun _ => trivial
  | retryPublish found mapped result =>
    exact takes_silent (silent_applyFinish _ _ _ _ _) (fun _ => rfl) fun _ => trivial
  | retryApply found result =>
    exact takes_silent (silent_retryAnswer env found result) (fun _ => rfl) fun _ => trivial

end

end BitRelay
