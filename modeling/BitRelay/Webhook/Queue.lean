import BitRelay.Webhook.Engine
import BitRelay.Webhook.Untouched
import BitRelay.WorkerRouting
import Mathlib.Data.List.Induction

/-!
# Processed or queued

A delivery that fails is queued, and one that is published is remembered as processed. The two
collections are written on different paths. The webhook queues a delivery whose event is blank
before it looks whether the delivery was processed, and it takes a delivery out of the queue only
if the room log accepted its message; the retry of a queued delivery does so as well when the log
already had it. A processed id is forgotten when 10000 others came after it.

Results:
1. `processed_or_queued_iff`: in a run from the empty service, no queued delivery was ever
   processed, exactly if no failing webhook is about a delivery that was processed before, and no
   webhook for a queued delivery finds its message in the room log.
2. `processed_and_queued`: a run in which a delivery is both.
-/

namespace BitRelay

open IssueSyncEngine IssueSyncEngine.EngineLemmas UntouchedLemmas

section
variable {C : Type} (R : Relay C)

/-! ## Definitions -/

/-- The webhook hands the request to the engine. -/
structure AdmitsDelivery (request : Request) : Prop where
  path : request.pathname = Endpoint.githubWebhook.path
  authorized : checkAuth R request = none
  method : request.method = "POST"
  configured : R.config.githubWebhookSecret ≠ ""
  named : request.headerTrim "x-github-delivery" ≠ ""
  signed : checkWebhookSignature R request = .ok ()

/-- A service and the ids of all deliveries that it has remembered so far. -/
structure Watched (C : Type) where
  service : ServiceState C
  processed : List String

namespace Watched

def init (cache : C) : Watched C := ⟨.init cache, []⟩

def serve (w : Watched C) (call : Call) : Watched C :=
  let service := serveCall R w.service call
  ⟨service, w.processed ++ service.githubIssueSync.deliveryIds.keys⟩

/-- No queued delivery was processed. -/
def Apart (w : Watched C) : Prop :=
  ∀ deliveryId ∈ w.processed, w.service.githubIssueSync.dlq.has deliveryId = false

/-- What the engine decides about the delivery of a request. -/
def checked (w : Watched C) (request : Request) :
    Except IssueSyncApplyResult IssueSyncMappedEnvelope :=
  checkDelivery R (webhookEvent R request) (request.headerTrim "x-github-delivery") request.body
    w.service.githubIssueSync

/-- A failing webhook is about a delivery that was not processed, and a webhook whose message is
in the room log is about one that is not queued. -/
def KeepsApart (w : Watched C) (call : Call) : Prop :=
  AdmitsDelivery R call.request →
    match w.checked R call.request with
    | .error (.failed _) => call.request.headerTrim "x-github-delivery" ∉ w.processed
    | .error _ => True
    | .ok mapped =>
      w.service.Holds mapped.room mapped.envelopeId →
        w.service.githubIssueSync.dlq.has (call.request.headerTrim "x-github-delivery") = false

end Watched

/-- The engine after a delivery was published. -/
def IssueSyncState.settle (engine : IssueSyncState) (deliveryId : String) (accepted : Bool)
    (nowSec : Int) : IssueSyncState :=
  let engine := engine.rememberDeliveryId deliveryId nowSec
  if accepted then engine.removeDlq deliveryId else engine

/-- A queue that the relay itself has filled. -/
structure QueueSound (engine : IssueSyncState) : Prop where
  wellFormed : WellFormed .relay engine
  named : ∀ deliveryId entry, engine.dlq.get? deliveryId = some entry →
    entry.deliveryId = deliveryId
  trimmed : ∀ deliveryId, engine.dlq.has deliveryId = true → Trimmed deliveryId ∧ deliveryId ≠ ""

variable {R} {request : Request} {env : Env} {s : ServiceState C} {engine : IssueSyncState}

namespace QueueLemmas

/-! ## The engine -/

section
variable {deliveryId : String} {ts : Int}

theorem has_rememberDeliveryId {other : String}
    (h : (engine.rememberDeliveryId deliveryId ts).deliveryIds.has other = true) :
    other = deliveryId ∨ engine.deliveryIds.has other = true := by
  unfold IssueSyncState.rememberDeliveryId at h
  exact OrdMap.has_set.mp (OrdMap.has_of_has_dropOldest h)

theorem rememberDeliveryId_dlq : (engine.rememberDeliveryId deliveryId ts).dlq = engine.dlq := by
  unfold IssueSyncState.rememberDeliveryId
  rfl

/-- A delivery that is not known yet is remembered as the newest one. -/
theorem has_rememberDeliveryId_self (h : engine.deliveryIds.has deliveryId = false) (ts : Int) :
    (engine.rememberDeliveryId deliveryId ts).deliveryIds.has deliveryId = true := by
  have hcap : 1 ≤ MAX_GITHUB_WEBHOOK_DELIVERY_IDS := by decide
  have hsize := OrdMap.size_set_le engine.deliveryIds deliveryId ts
  unfold IssueSyncState.rememberDeliveryId
  exact OrdMap.has_dropOldest_set h ts (by omega)

theorem removeDlq_deliveryIds : (engine.removeDlq deliveryId).deliveryIds = engine.deliveryIds := by
  unfold IssueSyncState.removeDlq
  split <;> rfl

theorem get?_removeDlq (other : String) : (engine.removeDlq deliveryId).dlq.get? other =
    if other = deliveryId then none else engine.dlq.get? other := by
  unfold IssueSyncState.removeDlq
  split
  · exact OrdMap.get?_erase _ _ _
  · next hnew =>
    split
    · next heq =>
      rw [heq]
      exact OrdMap.has_eq_false_iff.mp (eq_false_of_ne_true hnew)
    · rfl

/-- What the queue holds behind `enqueueDlq`: the new entry and some of the old ones. -/
theorem get?_enqueueDlq {L : Limits} {event : String} {body : Body} {error : String}
    {increment : Bool} (hempty : "" ∉ engine.dlqOrder) (hid : deliveryId ≠ "") {other : String}
    {entry : IssueSyncDlqEntry}
    (h : (enqueueDlq L engine deliveryId event body error increment ts).2.dlq.get? other =
      some entry) :
    (other = deliveryId ∧ entry.deliveryId = deliveryId) ∨
      engine.dlq.get? other = some entry := by
  unfold enqueueDlq at h
  dsimp only at h
  rw [shiftOverflow_eq, OrdMap.get?_foldl_erase, Option.ite_none_left_eq_some, OrdMap.get?_set] at h
  · by_cases heq : other = deliveryId
    · rw [if_pos heq] at h
      rw [← Option.some.inj h.2]
      exact .inl ⟨heq, rfl⟩
    · rw [if_neg heq] at h
      exact .inr h.2
  · split
    · exact hempty
    · rw [List.mem_append, List.mem_singleton, not_or]
      exact ⟨hempty, fun h => hid h.symm⟩

/-- The new entry is not one of those that are dropped. -/
theorem has_enqueueDlq {L : Limits} (h : WellFormed L engine) (hcap : 1 ≤ L.maxDlqEntries)
    (hempty : "" ∉ engine.dlqOrder) (hid : deliveryId ≠ "") (event : String) (body : Body)
    (error : String) (increment : Bool) :
    (enqueueDlq L engine deliveryId event body error increment ts).2.dlq.has deliveryId = true := by
  unfold enqueueDlq
  dsimp only
  cases hexisting : engine.dlq.get? deliveryId with
  | some existing =>
    have hoverflow : engine.dlqOrder.length - L.maxDlqEntries = 0 := Nat.sub_eq_zero_of_le h.capped
    simp only [Option.isSome_some, if_true, hoverflow, shiftOverflow]
    exact OrdMap.has_set.mpr (.inl rfl)
  | none =>
    have hnew : deliveryId ∉ engine.dlqOrder := by
      rw [← h.queued deliveryId, OrdMap.has_eq_false_iff.mpr hexisting]
      exact Bool.false_ne_true
    have hnames : "" ∉ engine.dlqOrder ++ [deliveryId] := by
      rw [List.mem_append, List.mem_singleton, not_or]
      exact ⟨hempty, fun h => hid h.symm⟩
    have hcapped := h.capped
    simp only [Option.isSome_none, Bool.false_eq_true, if_false]
    rw [shiftOverflow_eq _ hnames]
    unfold OrdMap.has
    rw [OrdMap.get?_foldl_erase, if_neg, OrdMap.get?_set_self]
    · rfl
    · -- At most as many ids are dropped as were queued before.
      rw [List.take_append_of_le_length (by rw [List.length_append, List.length_singleton]; omega)]
      exact fun hmem => hnew (List.mem_of_mem_take hmem)

end

/-! ## The queue of the relay -/

theorem notMem_dlqOrder (h : QueueSound engine) : "" ∉ engine.dlqOrder := fun hmem =>
  (h.trimmed "" ((h.wellFormed.queued "").mpr hmem)).2 rfl

theorem queueSound_removeDlq (h : QueueSound engine) (deliveryId : String) :
    QueueSound (engine.removeDlq deliveryId) := by
  refine ⟨wellFormed_removeDlq h.wellFormed deliveryId, fun other entry hget => ?_,
    fun other hhas => ?_⟩
  · rw [get?_removeDlq] at hget
    split at hget
    · cases hget
    · exact h.named other entry hget
  · unfold OrdMap.has at hhas
    rw [get?_removeDlq] at hhas
    split at hhas
    · cases hhas
    · exact h.trimmed other hhas

theorem queueSound_rememberDeliveryId (h : QueueSound engine) (deliveryId : String) (ts : Int) :
    QueueSound (engine.rememberDeliveryId deliveryId ts) := by
  refine ⟨?_, ?_, ?_⟩
  · rw [rememberDeliveryId_relay]
    exact wellFormed_rememberDeliveryId h.wellFormed deliveryId ts
  · rw [rememberDeliveryId_dlq]
    exact h.named
  · rw [rememberDeliveryId_dlq]
    exact h.trimmed

theorem queueSound_settle (h : QueueSound engine) (deliveryId : String) (accepted : Bool)
    (nowSec : Int) : QueueSound (engine.settle deliveryId accepted nowSec) := by
  have hremembered := queueSound_rememberDeliveryId h deliveryId nowSec
  unfold IssueSyncState.settle
  dsimp only
  split
  · exact queueSound_removeDlq hremembered deliveryId
  · exact hremembered

theorem queueSound_enqueueDlq (h : QueueSound engine) {deliveryId : String}
    (htrimmed : Trimmed deliveryId) (hid : deliveryId ≠ "") (event : String) (body : Body)
    (error : String) (increment : Bool) (ts : Int) :
    QueueSound (engine.enqueueDlq deliveryId event body error increment ts).2 := by
  rw [enqueueDlq_relay (notMem_dlqOrder h) hid]
  refine ⟨(wellFormed_enqueueDlq h.wellFormed deliveryId event body error increment ts).mpr ?_,
    fun other entry hget => ?_, fun other hhas => ?_⟩
  · -- No queued id is empty, and the new one is not.
    intro _ _ hhead
    rcases List.mem_append.mp (List.mem_of_mem_head? hhead) with hmem | hmem
    · exact notMem_dlqOrder h hmem
    · exact hid (List.mem_singleton.mp hmem).symm
  · rcases get?_enqueueDlq (notMem_dlqOrder h) hid hget with ⟨rfl, hentry⟩ | hold
    · exact hentry
    · exact h.named other entry hold
  · obtain ⟨entry, hentry⟩ := Option.isSome_iff_exists.mp hhas
    rcases get?_enqueueDlq (notMem_dlqOrder h) hid hentry with ⟨rfl, -⟩ | hold
    · exact ⟨htrimmed, hid⟩
    · exact h.trimmed other (Option.isSome_iff_exists.mpr ⟨entry, hold⟩)

/-! ## One delivery -/

/-- A delivery that is to be published is not known, and its message has its id. -/
theorem checkDelivery_ok {event deliveryId : String} {requestBody : Body}
    {mapped : IssueSyncMappedEnvelope}
    (h : checkDelivery R event deliveryId requestBody engine = .ok mapped) :
    trim deliveryId ≠ "" ∧ engine.deliveryIds.has (trim deliveryId) = false ∧
      isValidTopic mapped.topic = true ∧ mapped.envelopeId = "gh-" ++ trim deliveryId := by
  unfold checkDelivery at h
  simp only [trim_trim] at h
  split at h
  · cases h
  split at h
  · cases h
  split at h
  · cases h
  next hid =>
  split at h
  · cases h
  next hnew =>
  split at h
  · replace h := mapError_eq_ok h
    unfold mapGitHubDelivery at h
    dsimp only at h
    split at h
    · cases h
    split at h
    · cases h
    next htopic =>
    rw [← Except.ok.inj h]
    exact ⟨hid, eq_false_of_ne_true hnew, eq_true_of_ne_false htopic, rfl⟩
  · cases h

/-- A delivery is refused, or published; its message is accepted unless the log has its id. -/
theorem applyBegin_cases (event deliveryId : String) (requestBody : Body) (s : ServiceState C) :
    let run := (applyBegin R event deliveryId requestBody).run s
    (∃ result, checkDelivery R event deliveryId requestBody s.githubIssueSync = .error result ∧
      run = (.ok (.inl result), s)) ∨
    ∃ mapped result s', checkDelivery R event deliveryId requestBody s.githubIssueSync = .ok mapped ∧
      run = (.ok (.inr (mapped, result)), s') ∧ result.status = 200 ∧
      s'.githubIssueSync = s.githubIssueSync ∧
      ((s.Holds mapped.room mapped.envelopeId ∧ result.isAccepted = false ∧
          result.envelope? = none) ∨
        (¬ s.Holds mapped.room mapped.envelopeId ∧ result.isAccepted = true ∧
          result.envelope? = some (mapped.write R).envelope)) := by
  dsimp only
  unfold applyBegin
  rw [Proc.run_bind, Proc.run_gets]
  dsimp only
  cases hchecked : checkDelivery R event deliveryId requestBody s.githubIssueSync with
  | error result => exact .inl ⟨result, rfl, rfl⟩
  | ok mapped =>
    obtain ⟨-, -, htopic, -⟩ := checkDelivery_ok hchecked
    refine .inr ⟨mapped, (s.write R (mapped.write R)).1,
      ((publishAndHand R (mapped.write R)).run s).2, rfl, rfl, ?_⟩
    have hengine := (keeps_publishAndHand (R := R) (mapped.write R)).run s
    rcases write_cases R (mapped.write R) s with
      ⟨hbad, -, -⟩ | ⟨-, hholds, hresult, -⟩ | ⟨cursor, hresult, happended⟩
    · exact absurd (hbad.symm.trans htopic) Bool.false_ne_true
    · rw [hresult]
      exact ⟨rfl, hengine, .inl ⟨hholds, rfl, rfl⟩⟩
    · rw [hresult]
      exact ⟨rfl, hengine, .inr ⟨happended.fresh, rfl, rfl⟩⟩

/-- A delivery is refused, or published and remembered. -/
theorem apply_cases (event deliveryId : String) (requestBody : Body) (nowSec : Int)
    (s : ServiceState C) :
    let run := (applyGitHubWebhookDelivery R event deliveryId requestBody nowSec).run s
    (∃ result, checkDelivery R event deliveryId requestBody s.githubIssueSync = .error result ∧
      run = (.ok result, s)) ∨
    ∃ mapped accepted cursor event',
      checkDelivery R event deliveryId requestBody s.githubIssueSync = .ok mapped ∧
      (accepted = true ↔ ¬ s.Holds mapped.room mapped.envelopeId) ∧
      run.1 = .ok (.published (trim deliveryId) event' accepted mapped cursor) ∧
      run.2.githubIssueSync = s.githubIssueSync.settle (trim deliveryId) accepted nowSec := by
  dsimp only
  rw [WritingLemmas.applyDelivery_eq, Proc.run_bind]
  rcases applyBegin_cases (R := R) event deliveryId requestBody s with
    ⟨result, hchecked, hrun⟩ | ⟨mapped, result, s', hchecked, hrun, hstatus, hengine, hresult⟩
  · rw [hrun]
    exact .inl ⟨result, hchecked, rfl⟩
  · rw [hrun]
    refine .inr ⟨mapped, result.isAccepted, result.cursor?,
      R.platform.toLowerCase (trim (R.platform.toLowerCase (trim event))), hchecked, ?_, ?_⟩
    · rcases hresult with ⟨hholds, haccepted, -⟩ | ⟨hfresh, haccepted, -⟩
      · rw [haccepted]
        exact iff_of_false Bool.false_ne_true fun h => h hholds
      · exact iff_of_true haccepted hfresh
    · simp only [Proc.run_pure, applyFinish, hstatus, ne_eq, not_true_eq_false, if_false, trim_trim,
        Proc.run_bind, Proc.run_modify, ServiceState.settleDelivery, IssueSyncState.settle,
        true_and]
      rw [hengine]

/-! ## Requests -/

/-- What the answer of the webhook leaves in the engine. -/
theorem webhookAnswer_run (result : IssueSyncApplyResult) (s : ServiceState C) :
    ((webhookAnswer R request env result).run s).2.githubIssueSync =
      match result with
      | .failed error => (s.githubIssueSync.enqueueDlq (request.headerTrim "x-github-delivery")
          (webhookEvent R request) request.body error false (nowEpochSec env.nowMs)).2
      | .duplicate _ _ | .published _ _ _ _ _ => s.githubIssueSync := by
  cases result <;> rfl

/-- A webhook request is answered before the engine sees it, or it is admitted. -/
theorem webhook_cases (hpath : Endpoint.ofPath request.pathname = some .githubWebhook)
    (env : Env) (s : ServiceState C) :
    (¬ AdmitsDelivery R request ∧ (serve R request env s).2 = s) ∨
    (AdmitsDelivery R request ∧ (serve R request env s).2 =
      ((applyGitHubWebhookDelivery R (webhookEvent R request)
        (request.headerTrim "x-github-delivery") request.body (nowEpochSec env.nowMs) >>=
          webhookAnswer R request env).run s).2) := by
  rw [serve_endpoint hpath, serve_state]
  unfold Endpoint.guarded
  rw [Proc.run_bind]
  cases hauth : checkAuth R request with
  | some response => exact .inl ⟨fun h => Option.some_ne_none _ (hauth.symm.trans h.authorized), rfl⟩
  | none =>
    simp only [Proc.run_failWith_none, Endpoint.handle, handleGitHubWebhook, requireMethod,
      Proc.run_bind, Proc.run_failIf]
    by_cases hmethod : request.method = "POST"
    · by_cases hsecret : R.config.githubWebhookSecret = ""
      · refine .inl ⟨fun h => h.configured hsecret, ?_⟩
        simp only [hmethod, hsecret, ne_eq, not_true_eq_false, if_false, if_true]
      · by_cases hid : request.headerTrim "x-github-delivery" = ""
        · refine .inl ⟨fun h => h.named hid, ?_⟩
          simp only [hmethod, hsecret, hid, ne_eq, not_true_eq_false, if_false, if_true]
        · simp only [hmethod, hsecret, hid, ne_eq, not_true_eq_false, if_false]
          cases hsigned : checkWebhookSignature R request with
          | error response => exact .inl ⟨fun h => (by cases hsigned.symm.trans h.signed), rfl⟩
          | ok u =>
            exact .inr ⟨⟨Endpoint.path_of hpath, hauth, hmethod, hsecret, hid, hsigned⟩, rfl⟩
    · refine .inl ⟨fun h => hmethod h.method, ?_⟩
      simp only [ne_eq, hmethod, not_false_eq_true, if_true]

/-- What an admitted delivery leaves in the engine. -/
theorem delivered_engine (hpath : Endpoint.ofPath request.pathname = some .githubWebhook)
    (h : AdmitsDelivery R request) (env : Env) (s : ServiceState C) :
    (∃ error, checkDelivery R (webhookEvent R request) (request.headerTrim "x-github-delivery")
        request.body s.githubIssueSync = .error (.failed error) ∧
      (serve R request env s).2.githubIssueSync =
        (s.githubIssueSync.enqueueDlq (request.headerTrim "x-github-delivery")
          (webhookEvent R request) request.body error false (nowEpochSec env.nowMs)).2) ∨
    (∃ result, checkDelivery R (webhookEvent R request) (request.headerTrim "x-github-delivery")
        request.body s.githubIssueSync = .error result ∧ (∀ error, result ≠ .failed error) ∧
      (serve R request env s).2.githubIssueSync = s.githubIssueSync) ∨
    ∃ mapped accepted, checkDelivery R (webhookEvent R request)
        (request.headerTrim "x-github-delivery") request.body s.githubIssueSync = .ok mapped ∧
      (accepted = true ↔ ¬ s.Holds mapped.room mapped.envelopeId) ∧
      (serve R request env s).2.githubIssueSync =
        s.githubIssueSync.settle (request.headerTrim "x-github-delivery") accepted
          (nowEpochSec env.nowMs) := by
  have htrim : trim (request.headerTrim "x-github-delivery") =
      request.headerTrim "x-github-delivery" := trim_trim _
  rcases webhook_cases hpath env s with ⟨hrefused, -⟩ | ⟨-, hserve⟩
  · exact absurd h hrefused
  rw [hserve, Proc.run_bind]
  rcases apply_cases (R := R) (webhookEvent R request) (request.headerTrim "x-github-delivery")
    request.body (nowEpochSec env.nowMs) s with
    ⟨result, hchecked, hrun⟩ | ⟨mapped, accepted, cursor, event, hchecked, haccepted, hrun, hengine⟩
  · rw [hrun, hchecked]
    dsimp only
    rw [webhookAnswer_run]
    cases result with
    | failed error => exact .inl ⟨error, rfl, rfl⟩
    | duplicate deliveryId event =>
      exact .inr (.inl ⟨_, rfl, fun error h => (by cases h), rfl⟩)
    | published deliveryId event accepted mapped cursor =>
      exact .inr (.inl ⟨_, rfl, fun error h => (by cases h), rfl⟩)
  · refine .inr (.inr ⟨mapped, accepted, hchecked, haccepted, ?_⟩)
    match happlied : (applyGitHubWebhookDelivery R (webhookEvent R request)
        (request.headerTrim "x-github-delivery") request.body (nowEpochSec env.nowMs)).run s with
    | (.error response, s') =>
      rw [happlied] at hrun
      cases hrun
    | (.ok result, s') =>
      rw [happlied] at hrun hengine
      dsimp only at hrun hengine ⊢
      rw [Except.ok.inj hrun, webhookAnswer_run, hengine, htrim]

/-- What the retry of a queued delivery leaves in the engine. -/
theorem retryAnswer_run (found : IssueSyncDlqEntry) (result : IssueSyncApplyResult)
    (s : ServiceState C) :
    ((retryAnswer request env found result).run s).2.githubIssueSync =
      match result with
      | .failed error => (s.githubIssueSync.enqueueDlq found.deliveryId found.event found.body error
          true (nowEpochSec env.nowMs)).2
      | .duplicate _ _ | .published _ _ _ _ _ =>
        s.githubIssueSync.removeDlq (request.paramTrim "delivery_id") := by
  cases result <;> rfl

/-- A retry is answered before the engine sees it, or it applies a queued delivery. -/
theorem retry_cases (hpath : Endpoint.ofPath request.pathname = some .githubWebhookDlqRetry)
    (env : Env) (s : ServiceState C) :
    (serve R request env s).2 = s ∨
    ∃ found, s.githubIssueSync.dlq.get? (request.paramTrim "delivery_id") = some found ∧
      (serve R request env s).2 =
        ((applyGitHubWebhookDelivery R found.event found.deliveryId found.body
          (nowEpochSec env.nowMs) >>= retryAnswer request env found).run s).2 := by
  rw [serve_endpoint hpath, serve_state]
  unfold Endpoint.guarded
  rw [Proc.run_bind]
  cases hauth : checkAuth R request with
  | some response => exact .inl rfl
  | none =>
    simp only [Proc.run_failWith_none, Endpoint.handle, handleGitHubWebhookDlqRetry, requireMethod,
      requireParam, Proc.run_bind, Proc.run_failIf, Proc.run_gets, IssueSyncState.getDlqEntry]
    by_cases hmethod : request.method = "POST"
    · by_cases hid : request.paramTrim "delivery_id" = ""
      · left
        simp only [hmethod, hid, ne_eq, not_true_eq_false, if_false, if_true]
      · simp only [hmethod, hid, ne_eq, not_true_eq_false, if_false, Proc.run_pure]
        cases hfound : s.githubIssueSync.dlq.get? (request.paramTrim "delivery_id") with
        | none => exact .inl rfl
        | some found => exact .inr ⟨found, rfl, rfl⟩
    · left
      simp only [ne_eq, hmethod, not_false_eq_true, if_true]

/-- The engine behind a retry: a queued delivery is queued again, or leaves the queue, and then it
may have been remembered. -/
theorem retried_engine (hpath : Endpoint.ofPath request.pathname = some .githubWebhookDlqRetry)
    (h : QueueSound s.githubIssueSync) (env : Env) :
    (serve R request env s).2.githubIssueSync = s.githubIssueSync ∨
    ∃ deliveryId, s.githubIssueSync.dlq.has deliveryId = true ∧
      ((∃ event body error, (serve R request env s).2.githubIssueSync =
          (s.githubIssueSync.enqueueDlq deliveryId event body error true
            (nowEpochSec env.nowMs)).2) ∨
        (serve R request env s).2.githubIssueSync = s.githubIssueSync.removeDlq deliveryId ∨
        ∃ accepted, (serve R request env s).2.githubIssueSync =
          (s.githubIssueSync.settle deliveryId accepted (nowEpochSec env.nowMs)).removeDlq
            deliveryId) := by
  rcases retry_cases hpath env s with hserve | ⟨found, hfound, hserve⟩
  · exact .inl (by rw [hserve])
  have hqueued : s.githubIssueSync.dlq.has (request.paramTrim "delivery_id") = true :=
    Option.isSome_iff_exists.mpr ⟨found, hfound⟩
  have hnamed := h.named _ found hfound
  refine .inr ⟨request.paramTrim "delivery_id", hqueued, ?_⟩
  rw [hserve, Proc.run_bind]
  rcases apply_cases (R := R) found.event found.deliveryId found.body (nowEpochSec env.nowMs) s with
    ⟨result, -, hrun⟩ | ⟨mapped, accepted, cursor, event, -, -, hrun, hengine⟩
  · rw [hrun]
    dsimp only
    rw [retryAnswer_run]
    cases result with
    | failed error => exact .inl ⟨found.event, found.body, error, by rw [hnamed]⟩
    | duplicate deliveryId event => exact .inr (.inl rfl)
    | published deliveryId event accepted mapped cursor => exact .inr (.inl rfl)
  · match happlied : (applyGitHubWebhookDelivery R found.event found.deliveryId found.body
        (nowEpochSec env.nowMs)).run s with
    | (.error response, s') =>
      rw [happlied] at hrun
      cases hrun
    | (.ok result, s') =>
      rw [happlied] at hrun hengine
      dsimp only at hrun hengine ⊢
      refine .inr (.inr ⟨accepted, ?_⟩)
      have htrim : trim (request.paramTrim "delivery_id") = request.paramTrim "delivery_id" :=
        trim_trim _
      rw [Except.ok.inj hrun, retryAnswer_run, hengine, hnamed, htrim]

/-! ## Steps -/

theorem serveCall_kept {call : Call} (s : ServiceState C)
    (hwebhook : Endpoint.ofPath call.request.pathname ≠ some .githubWebhook)
    (hretry : Endpoint.ofPath call.request.pathname ≠ some .githubWebhookDlqRetry) :
    (serveCall R s call).githubIssueSync = s.githubIssueSync := by
  have hfetch : KeepsEngine (fetch R call.request call.env) := by
    unfold fetch
    refine Proc.Leads.ite (Proc.Leads.pure _) (Proc.Leads.ite (Proc.Leads.pure _) ?_)
    split
    · next endpoint hpath =>
      refine (Proc.Leads.failWith _).bind fun _ => keepsEngine_handle ?_ ?_
      · rintro rfl
        exact hwebhook hpath
      · rintro rfl
        exact hretry hpath
    · exact (Proc.Leads.failWith _).bind fun _ => Proc.Leads.pure _
  unfold serveCall serve
  rw [serve_state]
  exact hfetch.run s

/-- What the relay queues has a trimmed id, under which it is stored. -/
theorem queueSound_serveCall (h : QueueSound s.githubIssueSync) (call : Call) :
    QueueSound (serveCall R s call).githubIssueSync := by
  by_cases hwebhook : Endpoint.ofPath call.request.pathname = some .githubWebhook
  · by_cases hadmits : AdmitsDelivery R call.request
    · rcases delivered_engine hwebhook hadmits call.env s with
        ⟨error, -, hengine⟩ | ⟨result, -, -, hengine⟩ | ⟨mapped, accepted, -, -, hengine⟩
      · rw [serveCall, hengine]
        exact queueSound_enqueueDlq h (trimmed_trim _) hadmits.named _ _ _ _ _
      · rw [serveCall, hengine]
        exact h
      · rw [serveCall, hengine]
        exact queueSound_settle h _ _ _
    · rcases webhook_cases hwebhook call.env s with ⟨-, hserve⟩ | ⟨hadmits', -⟩
      · rw [serveCall, hserve]
        exact h
      · exact absurd hadmits' hadmits
  by_cases hretry : Endpoint.ofPath call.request.pathname = some .githubWebhookDlqRetry
  · rcases retried_engine hretry h call.env with hengine | ⟨deliveryId, hqueued, hengine⟩
    · rw [serveCall, hengine]
      exact h
    · obtain ⟨htrimmed, hid⟩ := h.trimmed deliveryId hqueued
      rcases hengine with ⟨event, body, error, hengine⟩ | hengine | ⟨accepted, hengine⟩
      · rw [serveCall, hengine]
        exact queueSound_enqueueDlq h htrimmed hid _ _ _ _ _
      · rw [serveCall, hengine]
        exact queueSound_removeDlq h deliveryId
      · rw [serveCall, hengine]
        exact queueSound_removeDlq (queueSound_settle h _ _ _) deliveryId
  · rw [serveCall_kept s hwebhook hretry]
    exact h

/-! ## The processed and the queued ids -/

theorem settle_deliveryIds {deliveryId : String} {accepted : Bool} {nowSec : Int} :
    (engine.settle deliveryId accepted nowSec).deliveryIds =
      (engine.rememberDeliveryId deliveryId nowSec).deliveryIds := by
  unfold IssueSyncState.settle
  dsimp only
  split
  · exact removeDlq_deliveryIds
  · rfl

theorem has_dlq_settle {deliveryId other : String} {accepted : Bool} {nowSec : Int} :
    (engine.settle deliveryId accepted nowSec).dlq.has other = true ↔
      engine.dlq.has other = true ∧ (accepted = true → other ≠ deliveryId) := by
  unfold IssueSyncState.settle OrdMap.has
  dsimp only
  cases accepted with
  | false => simp [rememberDeliveryId_dlq]
  | true =>
    simp only [if_true, get?_removeDlq, rememberDeliveryId_dlq]
    by_cases heq : other = deliveryId
    · simp [heq]
    · simp [heq]

theorem has_removeDlq {deliveryId other : String}
    (h : (engine.removeDlq deliveryId).dlq.has other = true) : engine.dlq.has other = true := by
  unfold OrdMap.has at h
  rw [get?_removeDlq] at h
  split at h
  · cases h
  · exact h

theorem not_has_removeDlq (deliveryId : String) :
    (engine.removeDlq deliveryId).dlq.has deliveryId = false := by
  rw [OrdMap.has_eq_false_iff, get?_removeDlq, if_pos rfl]

section
variable {deliveryId event : String} {body : Body} {error : String} {increment : Bool} {ts : Int}

theorem enqueueDlq_deliveryIds_of_limits (L : Limits) :
    (enqueueDlq L engine deliveryId event body error increment ts).2.deliveryIds =
      engine.deliveryIds := rfl

theorem enqueueDlq_deliveryIds (h : QueueSound engine) (hid : deliveryId ≠ "") :
    (engine.enqueueDlq deliveryId event body error increment ts).2.deliveryIds =
      engine.deliveryIds := by
  rw [enqueueDlq_relay (notMem_dlqOrder h) hid]
  exact enqueueDlq_deliveryIds_of_limits _

theorem has_of_has_enqueueDlq (h : QueueSound engine) (hid : deliveryId ≠ "") {other : String}
    (hhas : (engine.enqueueDlq deliveryId event body error increment ts).2.dlq.has other = true) :
    other = deliveryId ∨ engine.dlq.has other = true := by
  rw [enqueueDlq_relay (notMem_dlqOrder h) hid] at hhas
  obtain ⟨entry, hentry⟩ := Option.isSome_iff_exists.mp hhas
  rcases get?_enqueueDlq (notMem_dlqOrder h) hid hentry with ⟨heq, -⟩ | hold
  · exact .inl heq
  · exact .inr (Option.isSome_iff_exists.mpr ⟨entry, hold⟩)

theorem has_relay_enqueueDlq (h : QueueSound engine) (hid : deliveryId ≠ "") :
    (engine.enqueueDlq deliveryId event body error increment ts).2.dlq.has deliveryId = true := by
  have hcap : 1 ≤ Limits.relay.maxDlqEntries := by
    rw [← relay_maxDlqEntries]
    decide
  rw [enqueueDlq_relay (notMem_dlqOrder h) hid]
  exact has_enqueueDlq h.wellFormed hcap (notMem_dlqOrder h) hid _ _ _ _

end

/-- The history has what the service remembers. -/
structure WatchSound (w : Watched C) : Prop where
  queue : QueueSound w.service.githubIssueSync
  processed : ∀ deliveryId, w.service.githubIssueSync.deliveryIds.has deliveryId = true →
    deliveryId ∈ w.processed

theorem watchSound_init (cache : C) : WatchSound (Watched.init cache) := by
  refine ⟨⟨wellFormed_empty _, fun _ _ h => ?_, fun _ h => ?_⟩, fun _ h => ?_⟩ <;> cases h

theorem watchSound_serve {w : Watched C} (h : WatchSound w) (call : Call) :
    WatchSound (w.serve R call) :=
  ⟨queueSound_serveCall h.queue call, fun _ hhas =>
    List.mem_append_right _ (OrdMap.has_iff_mem_keys.mp hhas)⟩

/-- The deliveries stay apart if the queue has none that was processed before or is now. -/
theorem apart_serve {w : Watched C} {call : Call}
    (h : ∀ deliveryId, (serveCall R w.service call).githubIssueSync.dlq.has deliveryId = true →
      deliveryId ∉ w.processed ∧
        (serveCall R w.service call).githubIssueSync.deliveryIds.has deliveryId = false) :
    (w.serve R call).Apart := by
  intro deliveryId hmem
  refine eq_false_of_ne_true fun hqueued => ?_
  obtain ⟨hbefore, hnow⟩ := h deliveryId hqueued
  rcases List.mem_append.mp hmem with hmem | hmem
  · exact hbefore hmem
  · rw [OrdMap.has_iff_mem_keys.mpr hmem] at hnow
    cases hnow

/-- A queued delivery that was not processed. -/
theorem apart_of_has {w : Watched C} (h : w.Apart) (hsound : WatchSound w) {deliveryId : String}
    (hqueued : w.service.githubIssueSync.dlq.has deliveryId = true) :
    deliveryId ∉ w.processed ∧
      w.service.githubIssueSync.deliveryIds.has deliveryId = false := by
  have hnew : deliveryId ∉ w.processed := by
    intro hmem
    rw [h deliveryId hmem] at hqueued
    cases hqueued
  exact ⟨hnew, eq_false_of_ne_true fun hhas => hnew (hsound.processed deliveryId hhas)⟩

theorem apart_of_kept {w : Watched C} (hsound : WatchSound w) (h : w.Apart) {call : Call}
    (hkept : (serveCall R w.service call).githubIssueSync = w.service.githubIssueSync) :
    (w.serve R call).Apart := by
  refine apart_serve fun deliveryId hqueued => ?_
  rw [hkept] at hqueued ⊢
  exact apart_of_has h hsound hqueued

/-- A retry touches queued deliveries only. -/
theorem apart_retry {w : Watched C} (hsound : WatchSound w) (h : w.Apart) {call : Call}
    (hpath : Endpoint.ofPath call.request.pathname = some .githubWebhookDlqRetry) :
    (w.serve R call).Apart := by
  rcases retried_engine (R := R) hpath hsound.queue call.env with hkept | ⟨deliveryId, hqueued, hengine⟩
  · exact apart_of_kept hsound h hkept
  have hid := (hsound.queue.trimmed deliveryId hqueued).2
  refine apart_serve fun other hother => ?_
  unfold serveCall at hother ⊢
  rcases hengine with ⟨event, body, error, hengine⟩ | hengine | ⟨accepted, hengine⟩
  · rw [hengine] at hother ⊢
    rw [enqueueDlq_deliveryIds hsound.queue hid]
    rcases has_of_has_enqueueDlq hsound.queue hid hother with rfl | hold
    · exact apart_of_has h hsound hqueued
    · exact apart_of_has h hsound hold
  · rw [hengine] at hother ⊢
    rw [removeDlq_deliveryIds]
    exact apart_of_has h hsound (has_removeDlq hother)
  · rw [hengine] at hother ⊢
    have hne : other ≠ deliveryId := by
      rintro rfl
      rw [not_has_removeDlq] at hother
      cases hother
    obtain ⟨hnew, hunknown⟩ := apart_of_has h hsound (has_dlq_settle.mp (has_removeDlq hother)).1
    refine ⟨hnew, eq_false_of_ne_true fun hhas => ?_⟩
    rw [removeDlq_deliveryIds, settle_deliveryIds] at hhas
    rcases has_rememberDeliveryId hhas with heq | hhas
    · exact hne heq
    · rw [hhas] at hunknown
      cases hunknown

/-- An admitted webhook keeps the two apart exactly under the condition. -/
theorem apart_delivered_iff {w : Watched C} (hsound : WatchSound w) (h : w.Apart) {call : Call}
    (hpath : Endpoint.ofPath call.request.pathname = some .githubWebhook)
    (hadmits : AdmitsDelivery R call.request) :
    (w.serve R call).Apart ↔ w.KeepsApart R call := by
  have hself := watchSound_serve (R := R) hsound call
  unfold Watched.KeepsApart Watched.checked
  rcases delivered_engine hpath hadmits call.env w.service with
    ⟨error, hchecked, hengine⟩ | ⟨result, hchecked, hresult, hengine⟩ |
      ⟨mapped, accepted, hchecked, haccepted, hengine⟩
  · -- The delivery fails and is queued.
    rw [hchecked]
    constructor
    · intro hapart _ hmem
      have hqueued : (serve R call.request call.env w.service).2.githubIssueSync.dlq.has
          (call.request.headerTrim "x-github-delivery") = true := by
        rw [hengine]
        exact has_relay_enqueueDlq hsound.queue hadmits.named
      exact (apart_of_has hapart hself hqueued).1 (List.mem_append_left _ hmem)
    · intro hcond
      refine apart_serve fun other hother => ?_
      unfold serveCall at hother ⊢
      rw [hengine] at hother ⊢
      rw [enqueueDlq_deliveryIds hsound.queue hadmits.named]
      rcases has_of_has_enqueueDlq hsound.queue hadmits.named hother with rfl | hold
      · exact ⟨hcond hadmits, eq_false_of_ne_true fun hhas =>
          hcond hadmits (hsound.processed _ hhas)⟩
      · exact apart_of_has h hsound hold
  · rw [hchecked]
    refine iff_of_true (apart_of_kept hsound h hengine) fun _ => ?_
    cases result with
    | failed error => exact absurd rfl (hresult error)
    | duplicate deliveryId event => trivial
    | published deliveryId event accepted mapped cursor => trivial
  · -- The delivery is remembered, and leaves the queue if its message was accepted.
    obtain ⟨-, hunknown, -, -⟩ := checkDelivery_ok hchecked
    have htrim : trim (call.request.headerTrim "x-github-delivery") =
        call.request.headerTrim "x-github-delivery" := trim_trim _
    rw [htrim] at hunknown
    rw [hchecked]
    constructor
    · intro hapart _ hholds
      refine eq_false_of_ne_true fun hqueued => ?_
      have hstays : (w.serve R call).service.githubIssueSync.dlq.has
          (call.request.headerTrim "x-github-delivery") = true := by
        show (serve R call.request call.env w.service).2.githubIssueSync.dlq.has _ = true
        rw [hengine]
        exact has_dlq_settle.mpr ⟨hqueued, fun hacc => absurd hholds (haccepted.mp hacc)⟩
      have hnow := (apart_of_has hapart hself hstays).2
      have hremembered :
          (serve R call.request call.env w.service).2.githubIssueSync.deliveryIds.has
            (call.request.headerTrim "x-github-delivery") = true := by
        rw [hengine, settle_deliveryIds]
        exact has_rememberDeliveryId_self hunknown _
      exact Bool.false_ne_true (hnow.symm.trans hremembered)
    · intro hcond
      refine apart_serve fun other hother => ?_
      unfold serveCall at hother ⊢
      rw [hengine] at hother ⊢
      obtain ⟨hqueued, hne⟩ := has_dlq_settle.mp hother
      obtain ⟨hnew, hold⟩ := apart_of_has h hsound hqueued
      refine ⟨hnew, eq_false_of_ne_true fun hhas => ?_⟩
      rw [settle_deliveryIds] at hhas
      rcases has_rememberDeliveryId hhas with rfl | hhas
      · by_cases hholds : w.service.Holds mapped.room mapped.envelopeId
        · rw [hcond hadmits hholds] at hqueued
          cases hqueued
        · exact hne (haccepted.mpr hholds) rfl
      · rw [hhas] at hold
        cases hold

/-- A request keeps the queue apart from the processed deliveries exactly under the condition. -/
theorem apart_serve_iff {w : Watched C} (hsound : WatchSound w) (h : w.Apart) (call : Call) :
    (w.serve R call).Apart ↔ w.KeepsApart R call := by
  by_cases hwebhook : Endpoint.ofPath call.request.pathname = some .githubWebhook
  · by_cases hadmits : AdmitsDelivery R call.request
    · exact apart_delivered_iff hsound h hwebhook hadmits
    · refine iff_of_true (apart_of_kept hsound h ?_) fun hadmits' => absurd hadmits' hadmits
      rcases webhook_cases hwebhook call.env w.service with ⟨-, hserve⟩ | ⟨hadmits', -⟩
      · rw [serveCall, hserve]
      · exact absurd hadmits' hadmits
  · have hother : w.KeepsApart R call := by
      intro hadmits
      rw [hadmits.path] at hwebhook
      exact absurd rfl hwebhook
    refine iff_of_true ?_ hother
    by_cases hretry : Endpoint.ofPath call.request.pathname = some .githubWebhookDlqRetry
    · exact apart_retry hsound h hretry
    · exact apart_of_kept hsound h (serveCall_kept w.service hwebhook hretry)

/-! ## Runs -/

theorem service_watched (cache : C) (calls : List Call) :
    (runFrom (Watched.serve R) (.init cache) calls).service = afterCalls R cache calls := by
  induction calls using List.reverseRecOn with
  | nil => rfl
  | append_singleton calls call ih =>
    unfold afterCalls at ih ⊢
    rw [runFrom_concat, runFrom_concat, ← ih]
    rfl

/-- The history has the ids that were remembered in some state of the run. -/
theorem mem_processed (cache : C) (calls : List Call) (deliveryId : String) :
    deliveryId ∈ (runFrom (Watched.serve R) (.init cache) calls).processed ↔
      ∃ earlier, earlier <+: calls ∧
        (afterCalls R cache earlier).githubIssueSync.deliveryIds.has deliveryId = true := by
  induction calls using List.reverseRecOn with
  | nil =>
    refine iff_of_false List.not_mem_nil ?_
    rintro ⟨earlier, hearlier, hhas⟩
    rw [List.prefix_nil.mp hearlier] at hhas
    cases hhas
  | append_singleton calls call ih =>
    have hstep : (runFrom (Watched.serve R) (.init cache) (calls ++ [call])).processed =
        (runFrom (Watched.serve R) (.init cache) calls).processed ++
          (afterCalls R cache (calls ++ [call])).githubIssueSync.deliveryIds.keys := by
      rw [← service_watched, runFrom_concat]
      rfl
    rw [hstep, List.mem_append, ih, ← OrdMap.has_iff_mem_keys]
    constructor
    · rintro (⟨earlier, hearlier, hhas⟩ | hhas)
      · exact ⟨earlier, hearlier.trans (List.prefix_append _ _), hhas⟩
      · exact ⟨_, List.prefix_rfl, hhas⟩
    · rintro ⟨earlier, hearlier, hhas⟩
      rcases List.prefix_concat_iff.mp hearlier with rfl | hbefore
      · exact .inr hhas
      · exact .inl ⟨earlier, hbefore, hhas⟩

end QueueLemmas

open QueueLemmas

variable (R) in
/-- In a run from the empty service no queued delivery was ever processed, exactly if all webhook
requests meet the condition. -/
theorem processed_or_queued_iff (cache : C) (calls : List Call) :
    (∀ later, later <+: calls → ∀ earlier, earlier <+: later → ∀ deliveryId,
      (afterCalls R cache earlier).githubIssueSync.deliveryIds.has deliveryId = true →
        (afterCalls R cache later).githubIssueSync.dlq.has deliveryId = false) ↔
      Along (Watched.serve R) (Watched.KeepsApart R) (.init cache) calls := by
  have hrun : ∀ later, WatchSound (runFrom (Watched.serve R) (.init cache) later) := fun later =>
    runFrom_invariant (I := WatchSound) (fun _ call h => watchSound_serve h call) later
      (watchSound_init cache)
  have hsteps : (∀ later, later <+: calls →
      WatchSound (runFrom (Watched.serve R) (.init cache) later) ∧
        (runFrom (Watched.serve R) (.init cache) later).Apart) ↔
      Along (Watched.serve R) (Watched.KeepsApart R) (.init cache) calls := by
    refine prefixes_iff_along (P := fun w : Watched C => WatchSound w ∧ w.Apart)
      (fun w call h => ?_)
      ⟨watchSound_init cache, fun _ hmem => absurd hmem List.not_mem_nil⟩
    rw [and_iff_right (watchSound_serve h.1 call)]
    exact apart_serve_iff h.1 h.2 call
  rw [← hsteps]
  refine forall_congr' fun later => imp_congr_right fun _ => ?_
  rw [and_iff_right (hrun later)]
  unfold Watched.Apart
  constructor
  · intro h deliveryId hmem
    obtain ⟨earlier, hearlier, hhas⟩ := (mem_processed cache later deliveryId).mp hmem
    rw [service_watched]
    exact h earlier hearlier deliveryId hhas
  · intro h earlier hearlier deliveryId hhas
    have hqueue := h deliveryId ((mem_processed cache later deliveryId).mpr
      ⟨earlier, hearlier, hhas⟩)
    rw [service_watched] at hqueue
    exact hqueue

end

/-! ## A delivery that is processed and queued -/

/-- The delivery `d1` once more, without an event. -/
def eventlessDelivery : Request :=
  { issueDelivery with headers := issueDelivery.headers.tail }

/-- The second request is refused for its missing event before the engine looks for its id. -/
theorem processed_and_queued :
    (afterCalls webhookWorker.relay () [⟨issueDelivery, .at 0⟩,
      ⟨eventlessDelivery, .at 0⟩]).githubIssueSync.deliveryIds.has "d1" = true ∧
    (afterCalls webhookWorker.relay () [⟨issueDelivery, .at 0⟩,
      ⟨eventlessDelivery, .at 0⟩]).githubIssueSync.dlq.has "d1" = true := by
  decide +kernel

end BitRelay
