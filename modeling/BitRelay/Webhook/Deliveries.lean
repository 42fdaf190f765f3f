import BitRelay.Logs.System
import BitRelay.Webhook.Queue

/-!
# Deliveries in flight

A webhook and the retry of a queued delivery look the delivery up, publish its message, wait for
the cache, and only then remember the delivery. Until then a second request for the same delivery
is stopped by the room log alone, and the log may have dropped the message, or it is the log of
another room.

Results:
1. `deliveredBy_iff`: what a step delivers.
2. `delivered_appended`: a delivered message is one append to a room log and one exchange record.
3. `delivered_once_iff`: in a run without restores, and with as many delivery ids as the engine
   remembers, no message is delivered twice exactly if every delivery finds its id in its room log
   while an accepted message of that id waits for the cache.
4. `delivered_twice`: a run in which a delivery is published twice.
-/

namespace BitRelay

section
variable {C : Type} (A : Archive C)

/-! ## Definitions -/

/-- The message that a delivery in flight has brought into a room log. -/
def Writing.delivered : Writing → Option Envelope
  | webhookPublish _ result | retryPublish _ _ result => result.envelope?
  | _ => none

/-- The request whose segment the event runs. -/
def WritingEvent.taskOf (sys : WritingSystem C) : WritingEvent C → Option Nat
  | .arrive _ => some sys.next
  | .resume id _ => some id
  | .snapshot | .restore _ _ | .restart _ _ _ _ => none

/-- The message that a delivery brings into a room log in this step. -/
def WritingSystem.deliveredBy (sys : WritingSystem C) (event : WritingEvent C) : Option Envelope :=
  ((event.taskOf sys).bind (sys.step A event).tasks.get?).bind fun task => task.writing.delivered

/-- A system, and the messages that its deliveries have brought into the room logs. -/
structure Delivering (C : Type) where
  system : WritingSystem C
  delivered : List Envelope

namespace Delivering

def init (relay : Relay C) (cache : C) : Delivering C := ⟨.init relay cache, []⟩

def step (d : Delivering C) (event : WritingEvent C) : Delivering C :=
  ⟨d.system.step A event, d.delivered ++ (d.system.deliveredBy A event).toList⟩

end Delivering

/-- The retry looks for a queued delivery. -/
structure AdmitsRetry (R : Relay C) (request : Request) : Prop where
  path : request.pathname = Endpoint.githubWebhookDlqRetry.path
  authorized : checkAuth R request = none
  method : request.method = "POST"
  named : request.paramTrim "delivery_id" ≠ ""

/-- The event publishes this message: a webhook whose body is there, or a retry. -/
inductive WritingSystem.Hands (sys : WritingSystem C) :
    WritingEvent C → IssueSyncMappedEnvelope → Prop
  | webhook {id : Nat} {request : Request} (env : HostEnv) {mapped : IssueSyncMappedEnvelope}
      (task : sys.tasks.get? id = some ⟨request, .webhookBody⟩)
      (signed : checkWebhookSignature sys.relay request = .ok ())
      (checked : checkDelivery sys.relay (webhookEvent sys.relay request)
        (request.headerTrim "x-github-delivery") request.body sys.service.githubIssueSync =
          .ok mapped) :
      Hands sys (.resume id env) mapped
  | retry {call : HostCall} {found : IssueSyncDlqEntry} {mapped : IssueSyncMappedEnvelope}
      (admits : AdmitsRetry sys.relay call.request)
      (queued : sys.service.githubIssueSync.dlq.get? (call.request.paramTrim "delivery_id") =
        some found)
      (checked : checkDelivery sys.relay found.event found.deliveryId found.body
        sys.service.githubIssueSync = .ok mapped) :
      Hands sys (.arrive call) mapped

/-- While an accepted message waits for the cache, a delivery of its id finds it in the log. -/
def Delivering.Covers (d : Delivering C) (event : WritingEvent C) : Prop :=
  ∀ mapped, d.system.Hands event mapped →
    ∀ id task e, d.system.tasks.get? id = some task → task.writing.delivered = some e →
      e.id = mapped.envelopeId → d.system.service.Holds mapped.room mapped.envelopeId

/-- The delivery that a request in flight has looked up. -/
def WritingTask.deliveryId (task : WritingTask) : Option String :=
  match task.writing with
  | .webhookPublish _ _ | .webhookApply _ => some (task.request.headerTrim "x-github-delivery")
  | .retryPublish found _ _ | .retryApply found _ => some found.deliveryId
  | _ => none

variable {A} {R : Relay C} {request : Request} {env : Env} {s s' : ServiceState C}
  {sys : WritingSystem C}

open QueueLemmas UntouchedLemmas

namespace DeliveryLemmas

/-! ## What a segment waits for -/

/-- If the computation ends at a wait, it is one of these. -/
def Yields (Q : Writing → Prop) (x : Handler C WritingProgress) : Prop :=
  ∀ s writing s', x.run s = (.ok (.inr writing), s') → Q writing

section
variable {Q : Writing → Prop} {α : Type}

theorem Yields.bind {x : Handler C α} {f : α → Handler C WritingProgress}
    (h : ∀ a, Yields Q (f a)) : Yields Q (x >>= f) := by
  intro s writing s'' hrun
  obtain ⟨a, s', -, hrest⟩ := Proc.bind_ok hrun
  exact h a s' writing s'' hrest

theorem Yields.answer (response : Response) : Yields Q (pure (.inl response) : Handler C _) := by
  intro s writing s' hrun
  cases hrun

theorem Yields.wait {writing : Writing} (h : Q writing) :
    Yields Q (pure (.inr writing) : Handler C WritingProgress) := by
  intro s writing' s' hrun
  cases hrun
  exact h

theorem Yields.answerOrWait {result : PublishResult} {response : Response} {writing : Writing}
    (h : Q writing) : Yields Q (pure (answerOrWait result response writing) : Handler C _) := by
  unfold BitRelay.answerOrWait
  split
  · exact .wait h
  · exact .answer response

end

/-- The segments of a webhook or of a retry. -/
def ofDelivery : Writing → Bool
  | .webhookBody | .webhookPublish _ _ | .webhookApply _ | .retryPublish _ _ _
  | .retryApply _ _ => true
  | _ => false

theorem yields_pushUntilAccepted (request : Request) (entries : List JsonValue) (i : Nat)
    (counts : PushCounts) :
    Yields (fun writing => ofDelivery writing = false)
      (pushUntilAccepted R request entries i counts) := by
  induction entries generalizing i counts with
  | nil => exact .bind fun _ => .answer _
  | cons value rest ih =>
    refine .bind fun counts' => ?_
    split
    · exact ih _ _
    · exact .wait rfl

/-- Another writer does not become a delivery. -/
theorem yields_resume {writing : Writing} (h : ofDelivery writing = false) :
    Yields (fun writing => ofDelivery writing = false) (writing.resume R request env) := by
  cases writing with
  | publishBody input => exact .bind fun _ => .wait rfl
  | publishVerify input payload pending => exact .bind fun _ => .wait rfl
  | publishReturn input payload pending => exact .bind fun _ => .answerOrWait rfl
  | publishPersist result => exact .answer _
  | callbackBody => exact .bind fun _ => .bind fun _ => .bind fun _ => .answerOrWait rfl
  | callbackPersist input result => exact .answer _
  | pushBody => exact .bind fun _ => .bind fun _ => yields_pushUntilAccepted _ _ _ _
  | pushPersist value rest i counts => exact yields_pushUntilAccepted _ _ _ _
  | webhookBody => cases h
  | webhookPublish mapped result => cases h
  | webhookApply result => cases h
  | retryPublish found mapped result => cases h
  | retryApply found result => cases h

/-! ## Arrivals -/

theorem fetchBegin_endpoint {endpoint : Endpoint}
    (h : Endpoint.ofPath request.pathname = some endpoint) :
    fetchBegin R request env =
      (Proc.failWith (checkAuth R request) >>= fun _ => endpoint.begin R request env) := by
  have hhealth : request.pathname ≠ "/health" := by
    intro heq
    rw [heq] at h
    cases h
  have hroot : request.pathname ≠ "/" := by
    intro heq
    rw [heq] at h
    cases h
  unfold fetchBegin
  rw [if_neg hhealth, if_neg hroot, h]

theorem yields_fetchBegin
    (hwebhook : Endpoint.ofPath request.pathname ≠ some .githubWebhook)
    (hretry : Endpoint.ofPath request.pathname ≠ some .githubWebhookDlqRetry) :
    Yields (fun writing => ofDelivery writing = false) (fetchBegin R request env) := by
  cases hpath : Endpoint.ofPath request.pathname with
  | none =>
    unfold fetchBegin
    split
    · exact .answer _
    split
    · exact .answer _
    rw [hpath]
    exact .bind fun _ => .answer _
  | some endpoint =>
    rw [fetchBegin_endpoint hpath]
    refine .bind fun _ => ?_
    cases endpoint with
    | publish => exact .bind fun _ => .wait rfl
    | triggerCallback => exact .bind fun _ => .wait rfl
    | cacheExchangePush => exact .bind fun _ => .bind fun _ => .wait rfl
    | githubWebhook => exact absurd hpath hwebhook
    | githubWebhookDlqRetry => exact absurd hpath hretry
    | _ => exact .bind fun _ => .answer _

/-- A webhook that waits for its body has passed the checks before it. -/
theorem webhookBegin_cases (hpath : Endpoint.ofPath request.pathname = some .githubWebhook)
    {writing : Writing} (h : (fetchBegin R request env).run s = (.ok (.inr writing), s')) :
    writing = .webhookBody ∧
      (checkWebhookSignature R request = .ok () → AdmitsDelivery R request) := by
  rw [fetchBegin_endpoint hpath] at h
  obtain ⟨u, s1, h1, k1⟩ := Proc.bind_ok h
  obtain ⟨u, s2, h2, k2⟩ := Proc.bind_ok k1
  obtain ⟨u, s3, h3, k3⟩ := Proc.bind_ok k2
  obtain ⟨u, s4, h4, k4⟩ := Proc.bind_ok k3
  cases k4
  exact ⟨rfl, fun hsigned => ⟨Endpoint.path_of hpath, (Proc.failWith_ok h1).1,
    not_not.mp (Proc.failIf_ok h2).1, (Proc.failIf_ok h3).1, (Proc.failIf_ok h4).1, hsigned⟩⟩

/-- Where a retry waits. -/
def retryWaits (found : IssueSyncDlqEntry) :
    IssueSyncApplyResult ⊕ IssueSyncMappedEnvelope × PublishResult → Writing
  | .inl result => .retryApply found result
  | .inr (mapped, result) => .retryPublish found mapped result

/-- A retry is answered, or it has found a queued delivery and applies it. -/
theorem retryBegin_cases (hpath : Endpoint.ofPath request.pathname = some .githubWebhookDlqRetry)
    (env : Env) (s : ServiceState C) :
    (∃ response, (fetchBegin R request env).run s = (.error response, s) ∧
      ∀ found, AdmitsRetry R request →
        s.githubIssueSync.dlq.get? (request.paramTrim "delivery_id") ≠ some found) ∨
    ∃ found, AdmitsRetry R request ∧
      s.githubIssueSync.dlq.get? (request.paramTrim "delivery_id") = some found ∧
      (fetchBegin R request env).run s =
        (applyBegin R found.event found.deliveryId found.body >>= fun begun =>
          (pure (.inr (retryWaits found begun)) : Handler C WritingProgress)).run s := by
  rw [fetchBegin_endpoint hpath, Proc.run_bind]
  cases hauth : checkAuth R request with
  | some response =>
    exact .inl ⟨response, rfl, fun found h => by cases hauth.symm.trans h.authorized⟩
  | none =>
    simp only [Proc.run_failWith_none, Endpoint.begin, requireMethod, requireParam, Proc.run_bind,
      Proc.run_failIf, Proc.run_gets, IssueSyncState.getDlqEntry]
    by_cases hmethod : request.method = "POST"
    · by_cases hid : request.paramTrim "delivery_id" = ""
      · refine .inl ⟨toErrorResponse ("missing query: " ++ "delivery_id") 400, ?_,
          fun found h => absurd hid h.named⟩
        simp only [hmethod, hid, ne_eq, not_true_eq_false, if_false, if_true]
      · simp only [hmethod, hid, ne_eq, not_true_eq_false, if_false, Proc.run_pure]
        cases hfound : s.githubIssueSync.dlq.get? (request.paramTrim "delivery_id") with
        | none => exact .inl ⟨_, rfl, fun found _ h => by cases h⟩
        | some found =>
          refine .inr ⟨found, ⟨Endpoint.path_of hpath, hauth, hmethod, hid⟩, rfl, ?_⟩
          simp only [Option.elim_some, Proc.ofExcept, Proc.run_pure]
          rcases (applyBegin R found.event found.deliveryId found.body).run s with
            ⟨response | (result | ⟨mapped, result⟩), s'⟩ <;> rfl
    · refine .inl ⟨methodNotAllowedResponse, ?_, fun found h => absurd h.method hmethod⟩
      simp only [ne_eq, hmethod, not_false_eq_true, if_true]

/-! ## The body of a webhook -/

/-- Where a webhook waits when its body is there. -/
def webhookWaits :
    IssueSyncApplyResult ⊕ IssueSyncMappedEnvelope × PublishResult → Writing
  | .inl result => .webhookApply result
  | .inr (mapped, result) => .webhookPublish mapped result

theorem webhookBody_run (hsigned : checkWebhookSignature R request = .ok ()) (s : ServiceState C) :
    (Writing.webhookBody.resume R request env).run s =
      (applyBegin R (webhookEvent R request) (request.headerTrim "x-github-delivery")
        request.body >>= fun begun =>
          (pure (.inr (webhookWaits begun)) : Handler C WritingProgress)).run s := by
  unfold Writing.resume
  rw [hsigned]
  simp only [Proc.ofExcept, pure_bind, Proc.run_bind]
  rcases (applyBegin R (webhookEvent R request) (request.headerTrim "x-github-delivery")
    request.body).run s with ⟨response | (result | ⟨mapped, result⟩), s'⟩ <;> rfl

theorem webhookBody_refused {response : Response}
    (hsigned : checkWebhookSignature R request = .error response) (s : ServiceState C) :
    (Writing.webhookBody.resume R request env).run s = (.error response, s) := by
  unfold Writing.resume
  rw [hsigned]
  rfl

/-! ## What a step delivers -/

/-- The message that a segment has delivered when it ends. -/
def deliveredAt : Except Response WritingProgress → Option Envelope
  | .ok (.inr writing) => writing.delivered
  | .ok (.inl _) | .error _ => none

theorem get?_settle_self (id : Nat) (request : Request)
    (result : Except Response WritingProgress × ServiceState C) (sys : WritingSystem C) :
    ((sys.settle id request result).tasks.get? id).bind (fun task => task.writing.delivered) =
      deliveredAt result.1 := by
  match result with
  | (.ok (.inr writing), service) =>
    simp only [WritingSystem.settle, OrdMap.get?_set_self, Option.bind_some, deliveredAt]
  | (.ok (.inl response), service) =>
    simp only [WritingSystem.settle, OrdMap.get?_erase, if_true, Option.bind_none, deliveredAt]
  | (.error response, service) =>
    simp only [WritingSystem.settle, OrdMap.get?_erase, if_true, Option.bind_none, deliveredAt]

theorem step_resume {id : Nat} {task : WritingTask} (h : sys.tasks.get? id = some task)
    (env : HostEnv) : sys.step A (.resume id env) = sys.resumeTask id task env := by
  simp only [WritingSystem.step, h]

theorem step_resume_none {id : Nat} (h : sys.tasks.get? id = none) (env : HostEnv) :
    sys.step A (.resume id env) = sys := by
  simp only [WritingSystem.step, h]

variable (A) in
theorem deliveredBy_arrive (sys : WritingSystem C) (call : HostCall) :
    sys.deliveredBy A (.arrive call) =
      deliveredAt ((fetchBegin sys.relay call.request call.env).run sys.service).1 :=
  get?_settle_self sys.next call.request _ sys

variable (A) in
theorem deliveredBy_resume {id : Nat} {task : WritingTask} (h : sys.tasks.get? id = some task)
    (env : HostEnv) : sys.deliveredBy A (.resume id env) =
      deliveredAt ((task.writing.resume sys.relay task.request env.toEnv).run sys.service).1 := by
  rw [← get?_settle_self id task.request _ sys]
  unfold WritingSystem.deliveredBy
  rw [step_resume h]
  rfl

theorem deliveredAt_of_yields {x : Handler C WritingProgress}
    (h : Yields (fun writing => writing.delivered = none) x) (s : ServiceState C) :
    deliveredAt (x.run s).1 = none := by
  match hrun : x.run s with
  | (.ok (.inr writing), s') => exact h s writing s' hrun
  | (.ok (.inl response), s') => rfl
  | (.error response, s') => rfl

theorem delivered_eq_none {writing : Writing} (h : ofDelivery writing = false) :
    writing.delivered = none := by
  cases writing with
  | webhookPublish mapped result => cases h
  | retryPublish found mapped result => cases h
  | _ => rfl

theorem Yields.mono {Q Q' : Writing → Prop} {x : Handler C WritingProgress} (h : Yields Q x)
    (hQ : ∀ writing, Q writing → Q' writing) : Yields Q' x :=
  fun s writing s' hrun => hQ writing (h s writing s' hrun)

/-- Only a webhook whose body is there is published when it is resumed. -/
theorem yields_undelivered {writing : Writing} (h : writing ≠ .webhookBody) :
    Yields (fun writing => writing.delivered = none) (writing.resume R request env) := by
  cases hkind : ofDelivery writing with
  | false => exact (yields_resume hkind).mono fun _ => delivered_eq_none
  | true =>
    cases writing with
    | webhookBody => exact absurd rfl h
    | webhookPublish mapped result => exact .bind fun _ => .wait rfl
    | webhookApply result => exact .bind fun _ => .answer _
    | retryPublish found mapped result => exact .bind fun _ => .wait rfl
    | retryApply found result => exact .bind fun _ => .answer _
    | _ => cases hkind

/-- What is delivered by the segment that publishes. -/
theorem deliveredAt_apply {event deliveryId : String} {requestBody : Body}
    {waits : IssueSyncApplyResult ⊕ IssueSyncMappedEnvelope × PublishResult → Writing}
    (hleft : ∀ result, (waits (.inl result)).delivered = none)
    (hright : ∀ p, (waits (.inr p)).delivered = p.2.envelope?) (s : ServiceState C) (e : Envelope) :
    deliveredAt ((applyBegin R event deliveryId requestBody >>= fun begun =>
        (pure (.inr (waits begun)) : Handler C WritingProgress)).run s).1 = some e ↔
      ∃ mapped, checkDelivery R event deliveryId requestBody s.githubIssueSync = .ok mapped ∧
        ¬ s.Holds mapped.room mapped.envelopeId ∧ e = (mapped.write R).envelope := by
  rw [Proc.run_bind]
  rcases applyBegin_cases (R := R) event deliveryId requestBody s with
    ⟨result, hchecked, hrun⟩ | ⟨mapped, result, s', hchecked, hrun, -, -, hresult⟩
  · rw [hrun, hchecked]
    simp only [Proc.run_pure, deliveredAt, hleft]
    refine iff_of_false (fun h => by cases h) ?_
    rintro ⟨mapped, hok, -⟩
    cases hok
  · rw [hrun, hchecked]
    simp only [Proc.run_pure, deliveredAt, hright]
    rcases hresult with ⟨hholds, -, hnone⟩ | ⟨hfresh, -, hsome⟩
    · rw [hnone]
      refine iff_of_false (fun h => by cases h) ?_
      rintro ⟨mapped', hok, hfresh, -⟩
      cases hok
      exact hfresh hholds
    · rw [hsome]
      constructor
      · intro h
        cases h
        exact ⟨mapped, rfl, hfresh, rfl⟩
      · rintro ⟨mapped', hok, -, rfl⟩
        cases hok
        rfl

end DeliveryLemmas

open DeliveryLemmas

/-- A step delivers the message that it hands over, unless the id is in the log of its room. -/
theorem deliveredBy_iff (sys : WritingSystem C) (event : WritingEvent C) (e : Envelope) :
    sys.deliveredBy A event = some e ↔ ∃ mapped, sys.Hands event mapped ∧
      ¬ sys.service.Holds mapped.room mapped.envelopeId ∧ e = (mapped.write sys.relay).envelope := by
  have hidle : ∀ {event : WritingEvent C}, sys.deliveredBy A event = none →
      (∀ mapped, ¬ sys.Hands event mapped) → (sys.deliveredBy A event = some e ↔
        ∃ mapped, sys.Hands event mapped ∧ ¬ sys.service.Holds mapped.room mapped.envelopeId ∧
          e = (mapped.write sys.relay).envelope) := by
    intro event hnone hhands
    rw [hnone]
    exact iff_of_false (fun h => by cases h) fun ⟨mapped, h, _⟩ => hhands mapped h
  cases event with
  | arrive call =>
    by_cases hretry : Endpoint.ofPath call.request.pathname = some .githubWebhookDlqRetry
    · rcases retryBegin_cases (R := sys.relay) hretry call.env sys.service with
        ⟨response, hrun, hnone⟩ | ⟨found, hadmits, hfound, hrun⟩
      · refine hidle ?_ fun mapped h => ?_
        · rw [deliveredBy_arrive, hrun]
          rfl
        · cases h with
          | retry admits queued checked => exact hnone _ admits queued
      · rw [deliveredBy_arrive, hrun, deliveredAt_apply (fun _ => rfl) fun _ => rfl]
        constructor
        · rintro ⟨mapped, hchecked, hrest⟩
          exact ⟨mapped, .retry hadmits hfound hchecked, hrest⟩
        · rintro ⟨mapped, h, hrest⟩
          cases h with
          | retry admits queued checked =>
            cases hfound.symm.trans queued
            exact ⟨mapped, checked, hrest⟩
    · refine hidle ?_ fun mapped h => ?_
      · rw [deliveredBy_arrive]
        by_cases hwebhook : Endpoint.ofPath call.request.pathname = some .githubWebhook
        · refine deliveredAt_of_yields (fun s writing s' hrun => ?_) _
          rw [(webhookBegin_cases hwebhook hrun).1]
          rfl
        · exact deliveredAt_of_yields
            ((yields_fetchBegin hwebhook hretry).mono fun _ => delivered_eq_none) _
      · cases h with
        | retry admits queued checked =>
          rw [admits.path] at hretry
          exact hretry (Endpoint.ofPath_path _)
  | resume id env =>
    cases hget : sys.tasks.get? id with
    | none =>
      refine hidle ?_ fun mapped h => ?_
      · unfold WritingSystem.deliveredBy
        rw [step_resume_none hget]
        simp only [WritingEvent.taskOf, hget, Option.bind_some, Option.bind_none]
      · cases h with
        | webhook env task signed checked => cases hget.symm.trans task
    | some task =>
      obtain ⟨request, writing⟩ := task
      by_cases hbody : writing = .webhookBody
      · subst hbody
        cases hsigned : checkWebhookSignature sys.relay request with
        | error response =>
          refine hidle ?_ fun mapped h => ?_
          · rw [deliveredBy_resume A hget, webhookBody_refused hsigned]
            rfl
          · cases h with
            | webhook env task signed checked =>
              cases hget.symm.trans task
              cases hsigned.symm.trans signed
        | ok u =>
          rw [deliveredBy_resume A hget, webhookBody_run hsigned,
            deliveredAt_apply (fun _ => rfl) fun _ => rfl]
          constructor
          · rintro ⟨mapped, hchecked, hrest⟩
            exact ⟨mapped, .webhook env hget hsigned hchecked, hrest⟩
          · rintro ⟨mapped, h, hrest⟩
            cases h with
            | webhook env task signed checked =>
              cases hget.symm.trans task
              exact ⟨mapped, checked, hrest⟩
      · refine hidle ?_ fun mapped h => ?_
        · rw [deliveredBy_resume A hget]
          exact deliveredAt_of_yields (yields_undelivered hbody) _
        · cases h with
          | webhook env task signed checked =>
            cases hget.symm.trans task
            exact hbody rfl
  | snapshot => exact hidle rfl fun mapped h => by cases h
  | restore i nowMs => exact hidle rfl fun mapped h => by cases h
  | restart relay cache i nowMs => exact hidle rfl fun mapped h => by cases h

/-! ## The invariant -/

namespace DeliveryLemmas

/-- What a request in flight knows about its delivery. -/
structure TaskSound (R : Relay C) (ids : List String) (task : WritingTask) : Prop where
  body : task.writing = .webhookBody → checkWebhookSignature R task.request = .ok () →
    task.request.headerTrim "x-github-delivery" ∈ ids
  listed : ∀ deliveryId, task.deliveryId = some deliveryId →
    deliveryId ∈ ids ∧ Trimmed deliveryId
  named : ∀ e, task.writing.delivered = some e →
    ∃ deliveryId, task.deliveryId = some deliveryId ∧ e.id = "gh-" ++ deliveryId

/-- The engine knows listed deliveries only. -/
structure EngineListed (ids : List String) (engine : IssueSyncState) : Prop where
  remembered : ∀ deliveryId, engine.deliveryIds.has deliveryId = true → deliveryId ∈ ids
  queued : ∀ key found, engine.dlq.get? key = some found →
    found.deliveryId ∈ ids ∧ Trimmed found.deliveryId

/-- A delivered message belongs to a delivery that is remembered, or that waits for the cache. -/
structure DeliveringSound (R : Relay C) (ids : List String) (d : Delivering C) : Prop where
  relay : d.system.relay = R
  fresh : ∀ id, d.system.next ≤ id → d.system.tasks.get? id = none
  tasks : ∀ id task, d.system.tasks.get? id = some task → TaskSound R ids task
  engine : EngineListed ids d.system.service.githubIssueSync
  known : ∀ e ∈ d.delivered,
    (∃ deliveryId, e.id = "gh-" ++ deliveryId ∧
      d.system.service.githubIssueSync.deliveryIds.has deliveryId = true) ∨
    ∃ id task e', d.system.tasks.get? id = some task ∧ task.writing.delivered = some e' ∧
      e'.id = e.id
  waiting : ∀ id task e, d.system.tasks.get? id = some task → task.writing.delivered = some e →
    ∃ e' ∈ d.delivered, e'.id = e.id

variable {ids : List String} {engine : IssueSyncState}

/-! ### The engine -/

/-- As long as few deliveries are known, none is forgotten. -/
theorem has_rememberDeliveryId_of_listed (h : EngineListed ids engine)
    (hlength : ids.length ≤ MAX_GITHUB_WEBHOOK_DELIVERY_IDS) {deliveryId : String}
    (hid : deliveryId ∈ ids) {ts : Int} {other : String} :
    (engine.rememberDeliveryId deliveryId ts).deliveryIds.has other = true ↔
      other = deliveryId ∨ engine.deliveryIds.has other = true := by
  have hlisted : (engine.deliveryIds.set deliveryId ts).keys ⊆ ids := by
    intro key hkey
    rcases OrdMap.has_set.mp (OrdMap.has_iff_mem_keys.mpr hkey) with rfl | hold
    · exact hid
    · exact h.remembered key hold
  have hsize : (engine.deliveryIds.set deliveryId ts).size ≤ ids.length := by
    rw [OrdMap.size_eq_length_keys]
    exact (List.subperm_of_subset (engine.deliveryIds.set deliveryId ts).nodup hlisted).length_le
  unfold IssueSyncState.rememberDeliveryId
  dsimp only
  rw [Nat.sub_eq_zero_of_le (hsize.trans hlength), OrdMap.dropOldest_zero]
  exact OrdMap.has_set

theorem engineListed_removeDlq (h : EngineListed ids engine) (deliveryId : String) :
    EngineListed ids (engine.removeDlq deliveryId) := by
  refine ⟨fun other hhas => ?_, fun key found hget => ?_⟩
  · rw [removeDlq_deliveryIds] at hhas
    exact h.remembered other hhas
  · rw [get?_removeDlq, Option.ite_none_left_eq_some] at hget
    exact h.queued key found hget.2

theorem engineListed_settle (h : EngineListed ids engine) {deliveryId : String}
    (hid : deliveryId ∈ ids) (accepted : Bool) (nowSec : Int) :
    EngineListed ids (engine.settle deliveryId accepted nowSec) := by
  have hremembered : EngineListed ids (engine.rememberDeliveryId deliveryId nowSec) := by
    refine ⟨fun other hhas => ?_, fun key found hget => ?_⟩
    · rcases has_rememberDeliveryId hhas with rfl | hold
      · exact hid
      · exact h.remembered other hold
    · rw [rememberDeliveryId_dlq] at hget
      exact h.queued key found hget
  unfold IssueSyncState.settle
  dsimp only
  split
  · exact engineListed_removeDlq hremembered deliveryId
  · exact hremembered

theorem engineListed_enqueueDlq_of_cap {cap : Nat} (hcap : MAX_GITHUB_WEBHOOK_DLQ_ENTRIES = cap)
    (h : EngineListed ids engine) {deliveryId : String}
    (hid : deliveryId ∈ ids) (htrimmed : Trimmed deliveryId) (event : String) (body : Body)
    (error : String) (increment : Bool) (ts : Int) :
    EngineListed ids (engine.enqueueDlq deliveryId event body error increment ts).2 ∧
      (engine.enqueueDlq deliveryId event body error increment ts).2.deliveryIds =
        engine.deliveryIds := by
  unfold IssueSyncState.enqueueDlq
  rw [hcap]
  dsimp only
  refine ⟨⟨h.remembered, fun key found hget => ?_⟩, rfl⟩
  rw [OrdMap.get?_foldl_erase, Option.ite_none_left_eq_some, OrdMap.get?_set] at hget
  replace hget := hget.2
  split at hget
  · rw [← Option.some.inj hget]
    exact ⟨hid, htrimmed⟩
  · exact h.queued key found hget

theorem engineListed_enqueueDlq (h : EngineListed ids engine) {deliveryId : String}
    (hid : deliveryId ∈ ids) (htrimmed : Trimmed deliveryId) (event : String) (body : Body)
    (error : String) (increment : Bool) (ts : Int) :
    EngineListed ids (engine.enqueueDlq deliveryId event body error increment ts).2 ∧
      (engine.enqueueDlq deliveryId event body error increment ts).2.deliveryIds =
        engine.deliveryIds :=
  engineListed_enqueueDlq_of_cap rfl h hid htrimmed event body error increment ts

/-! ### One segment -/

/-- A segment ends and the invariant holds again: the engine knows no less, and what the request had
delivered before is remembered. -/
theorem sound_settle {delivered : List Envelope} (h : DeliveringSound R ids ⟨sys, delivered⟩)
    {id : Nat} (request : Request) {result : Except Response WritingProgress × ServiceState C}
    (hengine : EngineListed ids result.2.githubIssueSync)
    (hgrows : ∀ deliveryId, sys.service.githubIssueSync.deliveryIds.has deliveryId = true →
      result.2.githubIssueSync.deliveryIds.has deliveryId = true)
    (htask : ∀ writing, result.1 = .ok (.inr writing) → TaskSound R ids ⟨request, writing⟩)
    (hleft : ∀ task e, sys.tasks.get? id = some task → task.writing.delivered = some e →
      ∃ deliveryId, e.id = "gh-" ++ deliveryId ∧
        result.2.githubIssueSync.deliveryIds.has deliveryId = true)
    {next : Nat} (hnext : sys.next ≤ next) (hid : id < next) :
    DeliveringSound R ids ⟨{ sys.settle id request result with next },
      delivered ++ (deliveredAt result.1).toList⟩ := by
  have hself := get?_settle_self id request result sys
  have hother : ∀ other, other ≠ id →
      (sys.settle id request result).tasks.get? other = sys.tasks.get? other := by
    intro other hne
    match result with
    | (.ok (.inr writing), service) => exact OrdMap.get?_set_of_ne _ hne _
    | (.ok (.inl response), service) => exact (OrdMap.get?_erase _ _ _).trans (if_neg hne)
    | (.error response, service) => exact (OrdMap.get?_erase _ _ _).trans (if_neg hne)
  have hservice : (sys.settle id request result).service = result.2 := by
    match result with
    | (.ok (.inr writing), service) => rfl
    | (.ok (.inl response), service) => rfl
    | (.error response, service) => rfl
  have hrelay : (sys.settle id request result).relay = R := by
    refine Eq.trans ?_ h.relay
    match result with
    | (.ok (.inr writing), service) => rfl
    | (.ok (.inl response), service) => rfl
    | (.error response, service) => rfl
  have hnew : ∀ task, (sys.settle id request result).tasks.get? id = some task →
      TaskSound R ids task := by
    intro task hget
    match result with
    | (.ok (.inr writing), service) =>
      cases (OrdMap.get?_set_self _ _ _).symm.trans hget
      exact htask writing rfl
    | (.ok (.inl response), service) => cases ((OrdMap.get?_erase _ _ _).trans (if_pos rfl)).symm.trans hget
    | (.error response, service) => cases ((OrdMap.get?_erase _ _ _).trans (if_pos rfl)).symm.trans hget
  refine ⟨hrelay, fun other hle => ?_, fun other task hget => ?_, ?_, fun e he => ?_,
    fun other task e hget hdelivered => ?_⟩
  · refine (hother other ?_).trans (h.fresh other (hnext.trans hle))
    rintro rfl
    exact absurd hid (Nat.not_lt.mpr hle)
  · by_cases heq : other = id
    · subst heq
      exact hnew task hget
    · exact h.tasks other task ((hother other heq).symm.trans hget)
  · show EngineListed ids (sys.settle id request result).service.githubIssueSync
    rw [hservice]
    exact hengine
  · show (∃ deliveryId, _ ∧
        (sys.settle id request result).service.githubIssueSync.deliveryIds.has deliveryId = true) ∨
      ∃ other task e', (sys.settle id request result).tasks.get? other = some task ∧ _ ∧ _
    rw [hservice]
    rcases List.mem_append.mp he with hold | hfresh
    · rcases h.known e hold with ⟨deliveryId, hnamed, hhas⟩ | ⟨other, task, e', hget, hdelivered, heq⟩
      · exact .inl ⟨deliveryId, hnamed, hgrows deliveryId hhas⟩
      · by_cases hid' : other = id
        · subst hid'
          obtain ⟨deliveryId, hnamed, hhas⟩ := hleft task e' hget hdelivered
          exact .inl ⟨deliveryId, heq ▸ hnamed, hhas⟩
        · exact .inr ⟨other, task, e', (hother other hid').trans hget, hdelivered, heq⟩
    · -- The message that this segment delivers waits from now on.
      rw [Option.mem_toList] at hfresh
      rw [hfresh] at hself
      obtain ⟨task, hget, hdelivered⟩ := Option.bind_eq_some_iff.mp hself
      exact .inr ⟨id, task, e, hget, hdelivered, rfl⟩
  · by_cases heq : other = id
    · subst heq
      have hat : deliveredAt result.1 = some e :=
        hself.symm.trans (Option.bind_eq_some_iff.mpr ⟨task, hget, hdelivered⟩)
      exact ⟨e, List.mem_append_right _ (Option.mem_toList.mpr hat), rfl⟩
    · obtain ⟨e', he', hname⟩ := h.waiting other task e ((hother other heq).symm.trans hget) hdelivered
      exact ⟨e', List.mem_append_left _ he', hname⟩

/-- The same for a request in flight. -/
theorem sound_continue {delivered : List Envelope} (h : DeliveringSound R ids ⟨sys, delivered⟩)
    {id : Nat} {task : WritingTask} (hget : sys.tasks.get? id = some task)
    (result : Except Response WritingProgress × ServiceState C)
    (hengine : EngineListed ids result.2.githubIssueSync)
    (hgrows : ∀ deliveryId, sys.service.githubIssueSync.deliveryIds.has deliveryId = true →
      result.2.githubIssueSync.deliveryIds.has deliveryId = true)
    (htask : ∀ writing, result.1 = .ok (.inr writing) → TaskSound R ids ⟨task.request, writing⟩)
    (hleft : ∀ e, task.writing.delivered = some e → ∃ deliveryId, e.id = "gh-" ++ deliveryId ∧
      result.2.githubIssueSync.deliveryIds.has deliveryId = true) :
    DeliveringSound R ids ⟨sys.settle id task.request result,
      delivered ++ (deliveredAt result.1).toList⟩ := by
  have hid : id < sys.next := by
    refine Nat.lt_of_not_le fun hle => ?_
    cases (h.fresh id hle).symm.trans hget
  have hsound := sound_settle h task.request hengine hgrows htask
    (fun task' e hget' he => by
      cases hget.symm.trans hget'
      exact hleft e he) (Nat.le_refl _) hid
  have hsame : { sys.settle id task.request result with next := sys.next } =
      sys.settle id task.request result := by
    match result with
    | (.ok (.inr writing), service) => rfl
    | (.ok (.inl response), service) => rfl
    | (.error response, service) => rfl
  rw [hsame] at hsound
  exact hsound

/-! ### What a request learns -/

theorem taskSound_other {writing : Writing} (h : ofDelivery writing = false) (request : Request) :
    TaskSound R ids ⟨request, writing⟩ := by
  have hnone : WritingTask.deliveryId ⟨request, writing⟩ = none := by
    cases writing with
    | webhookPublish mapped result => cases h
    | webhookApply result => cases h
    | retryPublish found mapped result => cases h
    | retryApply found result => cases h
    | _ => rfl
  refine ⟨fun hbody => ?_, fun deliveryId hlisted => ?_, fun e hdelivered => ?_⟩
  · rw [show writing = .webhookBody from hbody] at h
    cases h
  · cases hnone.symm.trans hlisted
  · cases (delivered_eq_none h).symm.trans hdelivered

/-- The message that an application of the delivery brings has the id of the delivery. -/
theorem begun_named {event deliveryId : String} {requestBody : Body}
    {waits : IssueSyncApplyResult ⊕ IssueSyncMappedEnvelope × PublishResult → Writing}
    {writing : Writing}
    (h : (applyBegin R event deliveryId requestBody >>= fun begun =>
      (pure (.inr (waits begun)) : Handler C WritingProgress)).run s = (.ok (.inr writing), s')) :
    ∃ begun, writing = waits begun ∧ ∀ mapped result e, begun = .inr (mapped, result) →
      result.envelope? = some e → e.id = "gh-" ++ trim deliveryId := by
  rw [Proc.run_bind] at h
  rcases applyBegin_cases (R := R) event deliveryId requestBody s with
    ⟨result, -, hrun⟩ | ⟨mapped, result, s'', hchecked, hrun, -, -, hresult⟩
  · rw [hrun] at h
    cases h
    exact ⟨_, rfl, fun mapped result' e hbegun => by cases hbegun⟩
  · rw [hrun] at h
    cases h
    refine ⟨_, rfl, fun mapped' result' e hbegun he => ?_⟩
    cases hbegun
    rcases hresult with ⟨-, -, hnone⟩ | ⟨-, -, hsome⟩
    · cases hnone.symm.trans he
    · cases hsome.symm.trans he
      exact (checkDelivery_ok hchecked).2.2.2

theorem taskSound_webhook {request : Request}
    (hids : request.headerTrim "x-github-delivery" ∈ ids)
    {begun : IssueSyncApplyResult ⊕ IssueSyncMappedEnvelope × PublishResult}
    (hnamed : ∀ mapped result e, begun = .inr (mapped, result) → result.envelope? = some e →
      e.id = "gh-" ++ trim (request.headerTrim "x-github-delivery")) :
    TaskSound R ids ⟨request, webhookWaits begun⟩ := by
  have htrimmed : Trimmed (request.headerTrim "x-github-delivery") := trimmed_trim _
  have hdelivery : WritingTask.deliveryId ⟨request, webhookWaits begun⟩ =
      some (request.headerTrim "x-github-delivery") := by
    rcases begun with result | ⟨mapped, result⟩ <;> rfl
  refine ⟨fun hbody => ?_, fun deliveryId hlisted => ?_, fun e hdelivered => ?_⟩
  · rcases begun with result | ⟨mapped, result⟩ <;> cases hbody
  · cases hdelivery.symm.trans hlisted
    exact ⟨hids, htrimmed⟩
  · refine ⟨_, hdelivery, ?_⟩
    rcases begun with result | ⟨mapped, result⟩
    · cases hdelivered
    · rw [hnamed mapped result e rfl hdelivered, htrimmed]

theorem taskSound_retry {request : Request} {found : IssueSyncDlqEntry}
    (hids : found.deliveryId ∈ ids) (htrimmed : Trimmed found.deliveryId)
    {begun : IssueSyncApplyResult ⊕ IssueSyncMappedEnvelope × PublishResult}
    (hnamed : ∀ mapped result e, begun = .inr (mapped, result) → result.envelope? = some e →
      e.id = "gh-" ++ trim found.deliveryId) :
    TaskSound R ids ⟨request, retryWaits found begun⟩ := by
  have hdelivery : WritingTask.deliveryId ⟨request, retryWaits found begun⟩ =
      some found.deliveryId := by
    rcases begun with result | ⟨mapped, result⟩ <;> rfl
  refine ⟨fun hbody => ?_, fun deliveryId hlisted => ?_, fun e hdelivered => ?_⟩
  · rcases begun with result | ⟨mapped, result⟩ <;> cases hbody
  · cases hdelivery.symm.trans hlisted
    exact ⟨hids, htrimmed⟩
  · refine ⟨_, hdelivery, ?_⟩
    rcases begun with result | ⟨mapped, result⟩
    · cases hdelivered
    · rw [hnamed mapped result e rfl hdelivered, htrimmed]

theorem taskSound_webhookApply {request : Request}
    (hids : request.headerTrim "x-github-delivery" ∈ ids) (applied : IssueSyncApplyResult) :
    TaskSound R ids ⟨request, .webhookApply applied⟩ := by
  have hsound : TaskSound R ids ⟨request, webhookWaits (.inl applied)⟩ := by
    refine taskSound_webhook hids fun mapped result e hbegun => ?_
    cases hbegun
  exact hsound

theorem taskSound_retryApply {request : Request} {found : IssueSyncDlqEntry}
    (hids : found.deliveryId ∈ ids) (htrimmed : Trimmed found.deliveryId)
    (applied : IssueSyncApplyResult) : TaskSound R ids ⟨request, .retryApply found applied⟩ := by
  have hsound : TaskSound R ids ⟨request, retryWaits found (.inl applied)⟩ := by
    refine taskSound_retry hids htrimmed fun mapped result e hbegun => ?_
    cases hbegun
  exact hsound

/-! ### Steps -/

variable {delivered : List Envelope}

theorem sound_arrive (h : DeliveringSound R ids ⟨sys, delivered⟩) {call : HostCall}
    (hids : AdmitsDelivery R call.request →
      call.request.headerTrim "x-github-delivery" ∈ ids) :
    DeliveringSound R ids ⟨sys.step A (.arrive call),
      delivered ++ (sys.deliveredBy A (.arrive call)).toList⟩ := by
  obtain rfl : sys.relay = R := h.relay
  have hkept : ((fetchBegin sys.relay call.request call.env).run sys.service).2.githubIssueSync =
      sys.service.githubIssueSync := keepsEngine_fetchBegin.run sys.service
  rw [deliveredBy_arrive]
  refine sound_settle h _ ?_ ?_ ?_ ?_ (Nat.le_succ _) (Nat.lt_succ_self _)
  · rw [hkept]
    exact h.engine
  · intro deliveryId hhas
    rw [hkept]
    exact hhas
  · intro writing hwriting
    match hrun : (fetchBegin sys.relay call.request call.env).run sys.service with
    | (result, s') =>
      rw [hrun] at hwriting
      cases hwriting
      by_cases hretry : Endpoint.ofPath call.request.pathname = some .githubWebhookDlqRetry
      · rcases retryBegin_cases (R := sys.relay) hretry call.env sys.service with
          ⟨response, hrefused, -⟩ | ⟨found, -, hfound, hbegun⟩
        · cases hrefused.symm.trans hrun
        · obtain ⟨begun, rfl, hnamed⟩ := begun_named (hbegun.symm.trans hrun)
          obtain ⟨hlisted, htrimmed⟩ := h.engine.queued _ found hfound
          exact taskSound_retry hlisted htrimmed hnamed
      by_cases hwebhook : Endpoint.ofPath call.request.pathname = some .githubWebhook
      · obtain ⟨rfl, hadmits⟩ := webhookBegin_cases hwebhook hrun
        refine ⟨fun _ hsigned => hids (hadmits hsigned), fun deliveryId hlisted => ?_,
          fun e hdelivered => ?_⟩
        · cases hlisted
        · cases hdelivered
      · exact taskSound_other (yields_fetchBegin hwebhook hretry _ _ _ hrun) _
  · intro task e hget
    cases (h.fresh _ (Nat.le_refl _)).symm.trans hget

/-- A delivery that was published is remembered, or it has failed. -/
theorem applyFinish_run (event deliveryId : String) (mapped : IssueSyncMappedEnvelope)
    (result : PublishResult) (nowSec : Int) (s : ServiceState C) :
    ∃ applied s', (applyFinish R event deliveryId mapped result nowSec).run s = (.ok applied, s') ∧
      ((result.status ≠ 200 ∧ s'.githubIssueSync = s.githubIssueSync) ∨
        s'.githubIssueSync =
          s.githubIssueSync.settle (trim deliveryId) result.isAccepted nowSec) := by
  unfold applyFinish
  by_cases hstatus : result.status = 200
  · rw [if_neg (not_not.mpr hstatus)]
    refine ⟨_, _, rfl, .inr ?_⟩
    rw [trim_trim]
    rfl
  · rw [if_pos hstatus]
    exact ⟨_, _, rfl, .inl ⟨hstatus, rfl⟩⟩

/-- A request that waited for the cache remembers its delivery. -/
theorem sound_finish (h : DeliveringSound R ids ⟨sys, delivered⟩)
    (hlength : ids.length ≤ MAX_GITHUB_WEBHOOK_DELIVERY_IDS) {id : Nat} {task : WritingTask}
    (hget : sys.tasks.get? id = some task) {event deliveryId : String}
    {mapped : IssueSyncMappedEnvelope} {result : PublishResult} {nowSec : Int}
    {waits : IssueSyncApplyResult → Writing}
    (hdelivery : task.deliveryId = some deliveryId)
    (hdelivered : task.writing.delivered = result.envelope?)
    (hnext : ∀ applied, TaskSound R ids ⟨task.request, waits applied⟩ ∧
      (waits applied).delivered = none)
    {x : Handler C WritingProgress}
    (hx : x = applyFinish R event deliveryId mapped result nowSec >>= fun applied =>
      pure (.inr (waits applied))) :
    DeliveringSound R ids ⟨sys.settle id task.request (x.run sys.service), delivered⟩ := by
  obtain ⟨hid, htrimmed⟩ := (h.tasks id task hget).listed deliveryId hdelivery
  obtain ⟨applied, s', hrun, hengine⟩ := applyFinish_run (R := R) event deliveryId mapped result
    nowSec sys.service
  have hxrun : x.run sys.service = (.ok (.inr (waits applied)), s') := by
    rw [hx, Proc.run_bind, hrun]
    rfl
  rw [hxrun]
  rw [htrimmed] at hengine
  have hlisted : EngineListed ids s'.githubIssueSync := by
    rcases hengine with ⟨-, hkept⟩ | hsettled
    · rw [hkept]
      exact h.engine
    · rw [hsettled]
      exact engineListed_settle h.engine hid _ _
  have hsound := sound_continue h hget (.ok (.inr (waits applied)), s') hlisted ?_ ?_ ?_
  · simpa only [deliveredAt, (hnext applied).2, Option.toList_none, List.append_nil] using hsound
  · intro other hhas
    rcases hengine with ⟨-, hkept⟩ | hsettled
    · rw [hkept]
      exact hhas
    · rw [hsettled, settle_deliveryIds, has_rememberDeliveryId_of_listed h.engine hlength hid]
      exact .inr hhas
  · intro writing hwriting
    cases hwriting
    exact (hnext applied).1
  · intro e he
    obtain ⟨deliveryId', hdelivery', hname⟩ := (h.tasks id task hget).named e he
    cases hdelivery.symm.trans hdelivery'
    refine ⟨deliveryId, hname, ?_⟩
    rw [hdelivered] at he
    -- An accepted message has status 200.
    cases result with
    | accepted envelope cursor =>
      rcases hengine with ⟨hstatus, -⟩ | hsettled
      · exact absurd rfl hstatus
      · rw [hsettled, settle_deliveryIds, has_rememberDeliveryId_of_listed h.engine hlength hid]
        exact .inl rfl
    | known cursor => cases he
    | invalidTopic topic => cases he

/-- A request that ends leaves the engine with what it knows. -/
theorem sound_answer (h : DeliveringSound R ids ⟨sys, delivered⟩) {id : Nat} {task : WritingTask}
    (hget : sys.tasks.get? id = some task) (hdelivered : task.writing.delivered = none)
    {x : Handler C Response}
    (hengine : EngineListed ids (x.run sys.service).2.githubIssueSync ∧
      (x.run sys.service).2.githubIssueSync.deliveryIds =
        sys.service.githubIssueSync.deliveryIds) :
    DeliveringSound R ids ⟨sys.settle id task.request ((x >>= fun response =>
      (pure (.inl response) : Handler C WritingProgress)).run sys.service), delivered⟩ := by
  have hstate : ((x >>= fun response =>
      (pure (.inl response) : Handler C WritingProgress)).run sys.service).2 =
        (x.run sys.service).2 := Proc.run_bind_state (fun _ _ => rfl) _
  have hends : Yields (fun _ => False) (x >>= fun response =>
      (pure (.inl response) : Handler C WritingProgress)) := .bind fun _ => .answer _
  have hnone := deliveredAt_of_yields (hends.mono fun _ => False.elim) sys.service
  have hsound := sound_continue h hget ((x >>= fun response =>
    (pure (.inl response) : Handler C WritingProgress)).run sys.service) ?_ ?_ ?_ ?_
  · simpa only [hnone, Option.toList_none, List.append_nil] using hsound
  · rw [hstate]
    exact hengine.1
  · intro deliveryId hhas
    rw [hstate, hengine.2]
    exact hhas
  · intro writing hwriting
    exact (hends sys.service writing _ (Prod.ext hwriting rfl)).elim
  · intro e he
    cases hdelivered.symm.trans he

/-- A segment that does not settle a delivery keeps the engine. -/
theorem sound_unsettled (h : DeliveringSound sys.relay ids ⟨sys, delivered⟩) {id : Nat}
    {request : Request} {writing : Writing} (hget : sys.tasks.get? id = some ⟨request, writing⟩)
    {env : HostEnv} (hsettles : writing.settles = false)
    (hnext : ∀ writing', ((writing.resume sys.relay request env.toEnv).run sys.service).1 =
      .ok (.inr writing') → TaskSound sys.relay ids ⟨request, writing'⟩)
    (hnone : writing.delivered = none) :
    DeliveringSound sys.relay ids ⟨sys.resumeTask id ⟨request, writing⟩ env,
      delivered ++ (sys.deliveredBy A (.resume id env)).toList⟩ := by
  have hkept : ((writing.resume sys.relay request env.toEnv).run
      sys.service).2.githubIssueSync = sys.service.githubIssueSync :=
    (keepsEngine_resume hsettles).run sys.service
  rw [deliveredBy_resume A hget]
  refine sound_continue h hget _ ?_ ?_ hnext fun e he => ?_
  · rw [hkept]
    exact h.engine
  · intro deliveryId hhas
    rw [hkept]
    exact hhas
  · cases hnone.symm.trans he

/-- The segments that work on a delivery, one by one. -/
theorem sound_delivery (h : DeliveringSound sys.relay ids ⟨sys, delivered⟩)
    (hlength : ids.length ≤ MAX_GITHUB_WEBHOOK_DELIVERY_IDS) {id : Nat} {request : Request}
    {writing : Writing} (hget : sys.tasks.get? id = some ⟨request, writing⟩)
    (env : HostEnv) (hkind : ofDelivery writing = true) :
    DeliveringSound sys.relay ids ⟨sys.resumeTask id ⟨request, writing⟩ env,
      delivered ++ (sys.deliveredBy A (.resume id env)).toList⟩ := by
  have htask := h.tasks id _ hget
  have hsilent : writing ≠ .webhookBody → sys.deliveredBy A (.resume id env) = none := by
    intro hbody
    rw [deliveredBy_resume A hget]
    exact deliveredAt_of_yields (yields_undelivered hbody) _
  cases writing with
  | webhookBody =>
    refine sound_unsettled h hget rfl (fun writing' hrun => ?_) rfl
    cases hsigned : checkWebhookSignature sys.relay request with
    | error response =>
      rw [webhookBody_refused hsigned] at hrun
      cases hrun
    | ok u =>
      rw [webhookBody_run hsigned] at hrun
      obtain ⟨begun, rfl, hnamed⟩ := begun_named (Prod.ext hrun rfl)
      exact taskSound_webhook (htask.body rfl hsigned) hnamed
  | webhookPublish mapped result =>
    rw [hsilent (fun heq => by cases heq), Option.toList_none, List.append_nil]
    exact sound_finish h hlength hget rfl rfl
      (fun applied => ⟨taskSound_webhookApply (htask.listed _ rfl).1 applied, rfl⟩) rfl
  | webhookApply result =>
    rw [hsilent (fun heq => by cases heq), Option.toList_none, List.append_nil]
    obtain ⟨hid, htrimmed⟩ := htask.listed _ rfl
    refine sound_answer h hget rfl ?_
    rw [webhookAnswer_run]
    cases result with
    | failed error => exact engineListed_enqueueDlq h.engine hid htrimmed _ _ _ _ _
    | duplicate deliveryId event => exact ⟨h.engine, rfl⟩
    | published deliveryId event accepted mapped cursor => exact ⟨h.engine, rfl⟩
  | retryPublish found mapped result =>
    rw [hsilent (fun heq => by cases heq), Option.toList_none, List.append_nil]
    obtain ⟨hid, htrimmed⟩ := htask.listed _ rfl
    exact sound_finish h hlength hget rfl rfl
      (fun applied => ⟨taskSound_retryApply hid htrimmed applied, rfl⟩) rfl
  | retryApply found result =>
    rw [hsilent (fun heq => by cases heq), Option.toList_none, List.append_nil]
    obtain ⟨hid, htrimmed⟩ := htask.listed _ rfl
    refine sound_answer h hget rfl ?_
    rw [retryAnswer_run]
    cases result with
    | failed error => exact engineListed_enqueueDlq h.engine hid htrimmed _ _ _ _ _
    | duplicate deliveryId event =>
      exact ⟨engineListed_removeDlq h.engine _, removeDlq_deliveryIds⟩
    | published deliveryId event accepted mapped cursor =>
      exact ⟨engineListed_removeDlq h.engine _, removeDlq_deliveryIds⟩
  | _ => cases hkind

theorem sound_resume (h : DeliveringSound R ids ⟨sys, delivered⟩)
    (hlength : ids.length ≤ MAX_GITHUB_WEBHOOK_DELIVERY_IDS) (id : Nat) (env : HostEnv) :
    DeliveringSound R ids ⟨sys.step A (.resume id env),
      delivered ++ (sys.deliveredBy A (.resume id env)).toList⟩ := by
  obtain rfl : sys.relay = R := h.relay
  cases hget : sys.tasks.get? id with
  | none =>
    have hnone : sys.deliveredBy A (.resume id env) = none := by
      unfold WritingSystem.deliveredBy
      rw [step_resume_none hget]
      simp only [WritingEvent.taskOf, hget, Option.bind_some, Option.bind_none]
    rw [hnone, step_resume_none hget, Option.toList_none, List.append_nil]
    exact h
  | some task =>
    obtain ⟨request, writing⟩ := task
    rw [step_resume hget]
    cases hkind : ofDelivery writing with
    | true => exact sound_delivery h hlength hget env hkind
    | false =>
      refine sound_unsettled h hget ?_ (fun writing' hrun => ?_) (delivered_eq_none hkind)
      · cases writing with
        | webhookPublish mapped result => cases hkind
        | webhookApply result => cases hkind
        | retryPublish found mapped result => cases hkind
        | retryApply found result => cases hkind
        | _ => rfl
      · exact taskSound_other (yields_resume hkind sys.service writing' _ (Prod.ext hrun rfl)) _

/-! ### Runs -/

theorem sound_init (relay : Relay C) (cache : C) (ids : List String) :
    DeliveringSound relay ids (.init relay cache) := by
  refine ⟨rfl, fun _ _ => rfl, fun _ _ hget => ?_, ⟨fun _ hhas => ?_, fun _ _ hget => ?_⟩,
    fun _ he => absurd he List.not_mem_nil, fun _ _ _ hget => ?_⟩
  · cases hget
  · cases hhas
  · cases hget
  · cases hget

theorem sound_step {d : Delivering C} (h : DeliveringSound R ids d)
    (hlength : ids.length ≤ MAX_GITHUB_WEBHOOK_DELIVERY_IDS) {event : WritingEvent C}
    (hrestores : event.restores = false)
    (hids : ∀ call, event = .arrive call → AdmitsDelivery R call.request →
      call.request.headerTrim "x-github-delivery" ∈ ids) :
    DeliveringSound R ids (d.step A event) := by
  cases event with
  | arrive call => exact sound_arrive h (hids call rfl)
  | resume id env => exact sound_resume h hlength id env
  | snapshot =>
    have hsame : (d.delivered ++ (d.system.deliveredBy A .snapshot).toList) = d.delivered :=
      List.append_nil _
    unfold Delivering.step
    rw [hsame]
    exact ⟨h.relay, h.fresh, h.tasks, h.engine, h.known, h.waiting⟩
  | restore i nowMs => cases hrestores
  | restart relay cache i nowMs => cases hrestores

/-- A step delivers nothing twice exactly under the condition. -/
theorem nodup_step_iff {d : Delivering C} (h : DeliveringSound R ids d)
    (hnodup : (d.delivered.map Envelope.id).Nodup) (event : WritingEvent C) :
    ((d.step A event).delivered.map Envelope.id).Nodup ↔ d.Covers event := by
  have hback : ∀ mapped, d.system.Hands event mapped →
      ¬ d.system.service.Holds mapped.room mapped.envelopeId →
        d.system.deliveredBy A event = some (mapped.write d.system.relay).envelope :=
    fun mapped hhands hfresh => (deliveredBy_iff d.system event _).mpr ⟨mapped, hhands, hfresh, rfl⟩
  unfold Delivering.step
  cases hdelivered : d.system.deliveredBy A event with
  | none =>
    rw [Option.toList_none, List.append_nil]
    refine iff_of_true hnodup fun mapped hhands id task e _ _ _ => ?_
    by_contra hfresh
    cases hdelivered.symm.trans (hback mapped hhands hfresh)
  | some e =>
    rw [Option.toList_some, List.map_append, List.map_singleton, List.nodup_append,
      and_iff_right hnodup, and_iff_right (List.nodup_singleton _)]
    constructor
    · intro hnew mapped hhands id task e' hget hwaits hname
      by_contra hfresh
      cases hdelivered.symm.trans (hback mapped hhands hfresh)
      obtain ⟨e'', he'', hname'⟩ := h.waiting id task e' hget hwaits
      exact hnew _ (List.mem_map_of_mem he'') _ (List.mem_singleton_self _) (hname'.trans hname)
    · intro hcovers id hid id' hid' heq
      rw [List.mem_singleton] at hid'
      obtain ⟨e', he', rfl⟩ := List.mem_map.mp hid
      obtain ⟨mapped, hhands, hfresh, rfl⟩ := (deliveredBy_iff d.system event e).mp hdelivered
      have hname : e'.id = mapped.envelopeId := heq.trans hid'
      rcases h.known e' he' with ⟨deliveryId, hnamed, hhas⟩ | ⟨id, task, e'', hget, hwaits, hsame⟩
      · -- A remembered delivery is not handed over.
        obtain ⟨other, hother, hunknown⟩ : ∃ other, mapped.envelopeId = "gh-" ++ other ∧
            d.system.service.githubIssueSync.deliveryIds.has other = false := by
          cases hhands with
          | webhook env task signed checked =>
            obtain ⟨-, hunknown, -, hid⟩ := checkDelivery_ok checked
            exact ⟨_, hid, hunknown⟩
          | retry admits queued checked =>
            obtain ⟨-, hunknown, -, hid⟩ := checkDelivery_ok checked
            exact ⟨_, hid, hunknown⟩
        have hsame : deliveryId = other := by
          have hjoined : "gh-" ++ deliveryId = "gh-" ++ other :=
            hnamed.symm.trans (hname.trans hother)
          exact String.append_right_inj _ |>.mp hjoined
        rw [hsame, hunknown] at hhas
        cases hhas
      · exact hfresh (hcovers mapped hhands id task e'' hget hwaits (hsame.trans hname))

end DeliveryLemmas

/-! ## Results -/

variable (A) in
/-- In a run without restores and with as many deliveries as the engine remembers, no delivery is
published twice exactly if each of them is covered by the room log while another one of its id
waits for the cache. -/
theorem delivered_once_iff (relay : Relay C) (cache : C) (events : List (WritingEvent C))
    (hrestores : ∀ event ∈ events, event.restores = false) (ids : List String)
    (hlength : ids.length ≤ MAX_GITHUB_WEBHOOK_DELIVERY_IDS)
    (hids : ∀ call, .arrive call ∈ events → AdmitsDelivery relay call.request →
      call.request.headerTrim "x-github-delivery" ∈ ids) :
    ((runFrom (Delivering.step A) (.init relay cache) events).delivered.map Envelope.id).Nodup ↔
      Along (Delivering.step A) Delivering.Covers (.init relay cache) events := by
  suffices h : DeliveringSound relay ids (runFrom (Delivering.step A) (.init relay cache) events) ∧
      (((runFrom (Delivering.step A) (.init relay cache) events).delivered.map
        Envelope.id).Nodup ↔
      Along (Delivering.step A) Delivering.Covers (.init relay cache) events) from h.2
  induction events using List.reverseRecOn with
  | nil => exact ⟨sound_init relay cache ids, iff_of_true List.nodup_nil trivial⟩
  | append_singleton events event ih =>
    obtain ⟨hsound, hiff⟩ := ih (fun event hmem => hrestores event (List.mem_append_left _ hmem))
      fun call hmem => hids call (List.mem_append_left _ hmem)
    rw [runFrom_concat, along_concat, ← hiff]
    refine ⟨sound_step hsound hlength
      (hrestores event (List.mem_append_right _ (List.mem_singleton_self _))) fun call heq =>
        hids call (heq ▸ List.mem_append_right _ (List.mem_singleton_self _)), ?_⟩
    constructor
    · intro hnodup
      have hbefore : ((runFrom (Delivering.step A) (.init relay cache) events).delivered.map
          Envelope.id).Nodup := by
        refine hnodup.sublist (List.Sublist.map _ ?_)
        exact List.sublist_append_left _ _
      exact ⟨hbefore, (nodup_step_iff hsound hbefore event).mp hnodup⟩
    · rintro ⟨hbefore, hcovers⟩
      exact (nodup_step_iff hsound hbefore event).mpr hcovers

/-- A delivered message is the one that the step has accepted. -/
theorem history_delivered {event : WritingEvent C} {e : Envelope}
    (h : sys.deliveredBy A event = some e) :
    (sys.step A event).history = sys.history ++ [e] := by
  have hsettle : ∀ (id : Nat) (request : Request)
      (result : Except Response WritingProgress × ServiceState C), deliveredAt result.1 = some e →
        (sys.settle id request result).history = sys.history ++ [e] := by
    intro id request result hat
    match result with
    | (.ok (.inr writing), service) =>
      have haccepted : writing.accepted sys.relay = some e := by
        cases writing with
        | webhookPublish mapped result => exact hat
        | retryPublish found mapped result => exact hat
        | _ => cases hat
      show sys.history ++ (writing.accepted sys.relay).toList = _
      rw [haccepted]
      rfl
    | (.ok (.inl response), service) => cases hat
    | (.error response, service) => cases hat
  cases event with
  | arrive call =>
    rw [deliveredBy_arrive] at h
    exact hsettle _ _ _ h
  | resume id env =>
    cases hget : sys.tasks.get? id with
    | none =>
      unfold WritingSystem.deliveredBy at h
      rw [step_resume_none hget] at h
      simp only [WritingEvent.taskOf, hget, Option.bind_some, Option.bind_none] at h
      cases h
    | some task =>
      rw [deliveredBy_resume A hget] at h
      rw [step_resume hget]
      exact hsettle _ _ _ h
  | snapshot => cases h
  | restore i nowMs => cases h
  | restart relay cache i nowMs => cases h

variable (A) in
/-- In a run, a delivered message is one append to a room log and one exchange record. -/
theorem delivered_appended (relay : Relay C) (cache : C) (events : List (WritingEvent C))
    (event : WritingEvent C) {e : Envelope}
    (h : (WritingSystem.after A relay cache events).deliveredBy A event = some e) :
    ∃ w : Write, w.envelope = e ∧ Appended (WritingSystem.after A relay cache events).relay w
      (WritingSystem.after A relay cache events).service
      ((WritingSystem.after A relay cache events).step A event).service := by
  have hproper : (WritingSystem.after A relay cache events).ProperTasks :=
    properTasks_run relay cache events
  have hturn : Turn A event (WritingSystem.after A relay cache events)
      ((WritingSystem.after A relay cache events).step A event) := turn_step event hproper
  have hhistory := history_delivered h
  cases hturn with
  | segment accepted hrelay htaken hsegments hsegment =>
    have haccepted : accepted.toList = [e] :=
      List.append_cancel_left (hsegments.symm.trans hhistory)
    cases hsegment with
    | quiet hsame => cases haccepted
    | accepts w hw happended => exact ⟨w, List.singleton_inj.mp haccepted, happended⟩
  | snapshot hrelay hservice hsame htaken =>
    exact absurd (hsame.symm.trans hhistory) (by simp)
  | restored hrestores snapshot hmem nowMs before htaken hservice hhistory' =>
    cases event with
    | restore i nowMs => cases h
    | restart relay cache i nowMs => cases h
    | _ => cases hrestores

end

/-! ## A delivery that is published twice -/

/-- A relay that keeps one message of each room. -/
def tightRelay : Relay Unit :=
  { webhookWorker.relay with
    config := { webhookWorker.relay.config with
      maxMessagesPerRoom := 1
      maxMessagesPerRoom_pos := Nat.one_pos } }

def deliveryOf (deliveryId : String) : WritingEvent Unit :=
  .arrive ⟨⟨{ issueDelivery with
    headers := ("x-github-delivery", deliveryId) :: issueDelivery.headers }, .at 0⟩,
    freeText_uuid⟩

def proceed (id : Nat) : WritingEvent Unit := .resume id ⟨.at 0, freeText_uuid⟩

/-- Both deliveries are settled before `d1` comes again. -/
def separate : List (WritingEvent Unit) :=
  [deliveryOf "d1", proceed 0, proceed 0, deliveryOf "d2", proceed 1, proceed 1, deliveryOf "d1",
    proceed 2]

theorem separate_restores : ∀ event ∈ separate, event.restores = false := by
  intro event hevent
  simp only [separate, deliveryOf, proceed, List.mem_cons, List.not_mem_nil, or_false] at hevent
  rcases hevent with rfl | rfl | rfl | rfl | rfl | rfl | rfl | rfl <;> rfl

theorem separate_ids (call : HostCall) (h : .arrive call ∈ separate) :
    call.request.headerTrim "x-github-delivery" ∈ ["d1", "d2"] := by
  simp only [separate, deliveryOf, proceed, List.mem_cons, List.not_mem_nil, or_false,
    WritingEvent.arrive.injEq, reduceCtorEq, false_or] at h
  rcases h with rfl | rfl | rfl <;> decide

/-- In this run every delivery is covered. -/
theorem delivered_once_iff_separate :
    Along (Delivering.step .toy) Delivering.Covers (.init tightRelay ()) separate :=
  (delivered_once_iff .toy tightRelay () separate separate_restores ["d1", "d2"] (by decide)
    fun call h _ => separate_ids call h).mp (by decide +kernel)

/-- While `d1` waits for the cache, `d2` takes its place in the log, and `d1` comes again. -/
def overlapping : List (WritingEvent Unit) :=
  [deliveryOf "d1", proceed 0, deliveryOf "d2", proceed 1, deliveryOf "d1", proceed 2]

theorem delivered_twice :
    (runFrom (Delivering.step .toy) (.init tightRelay ()) overlapping).delivered.map Envelope.id =
      ["gh-d1", "gh-d2", "gh-d1"] := by
  decide +kernel

end BitRelay
