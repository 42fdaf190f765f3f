import BitRelay.Lib.Run
import BitRelay.Service.SignatureStage

/-!
# Requests in flight

The service is single-threaded, but a handler that awaits lets others run. A
publish, review, rotation or GitHub verification in flight is a `Phase`: the
await point where it stands, with the values it has computed so far. Between
two await points a request is one atomic step of the shared state.

The other requests never touch keys or nonces; they are served in one step.

Results:
1. `complete_start`: a request that runs alone through its phases does what
   `serve` does.
2. `triple_start`, `triple_resume`: what a step does to the nonce tables.
3. `leads_start`, `leads_resume`: only the last phase of a rotation replaces a
   key.
-/

namespace BitRelay

section
variable {C : Type} (R : Relay C)

/-! ## Phases -/

/-- Where a request in flight waits. -/
inductive Phase
  | publishBody (input : PublishInput)
  | publishVerify (input : PublishInput) (payload : JsonValue) (pending : Option PendingSignature)
  | publishReturn (input : PublishInput) (payload : JsonValue) (pending : Option PendingSignature)
  | publishPersist (result : PublishResult)
  | reviewVerify (input : ReviewInput) (pending : PendingSignature)
  | rotateBody
  | rotateVerify (pending : PendingRotate)
  | gitHubBody
  | gitHubKeys (sender : String)

/-- A request either has its response or waits. -/
abbrev Progress : Type := Response ⊕ Phase

def reviewStart (request : Request) (env : Env) : Handler C Progress := do
  let room ← requireRoom R request
  if request.method = "GET" then do
    let response ← handleReviewGet request room
    return .inl response
  else if request.method = "POST" then do
    let (input, pending) ← reviewBegin R request room env
    return .inr (.reviewVerify input pending)
  else Proc.answer methodNotAllowedResponse

/-- The endpoints that wait in the middle of a request. -/
def Endpoint.waits : Endpoint → Bool
  | publish | review | keyRotate | keyVerifyGitHub => true
  | _ => false

/-- An endpoint, up to its first await. -/
def Endpoint.start (request : Request) (env : Env) : Endpoint → Handler C Progress
  | publish => do
    let input ← publishArrive R request env
    return .inr (.publishBody input)
  | review => reviewStart R request env
  | keyRotate => do
    requireMethod request "POST"
    return .inr .rotateBody
  | keyVerifyGitHub => do
    requireMethod request "POST"
    return .inr .gitHubBody
  | endpoint => do
    let response ← endpoint.handle R request env
    return .inl response

/-- `fetch`, up to the first await of its handler. -/
def start (request : Request) (env : Env) : Handler C Progress :=
  if request.pathname = "/health" then pure (.inl healthResponse)
  else if request.pathname = "/" then pure (.inl ⟨200, .str "bit-relay"⟩)
  else
    match Endpoint.ofPath request.pathname with
    | some endpoint => do
      Proc.failWith (checkAuth R request)
      endpoint.start R request env
    | none => do
      Proc.failWith (checkAuth R request)
      pure (.inl notFoundResponse)

/-- From one await to the next. -/
def Phase.resume (request : Request) (env : Env) : Phase → Handler C Progress
  | publishBody input => do
    let (payload, pending) ← publishBegin R request input env
    return .inr (.publishVerify input payload pending)
  | publishVerify input payload pending => do
    finishSignatureVerification R pending
    return .inr (.publishReturn input payload pending)
  | publishReturn input payload pending => do
    let result ← publishCommit R input payload pending
    return .inr (.publishPersist result)
  | publishPersist result => do
    Proc.modify (ServiceState.persistResult R result)
    return .inl result.toResponse
  | reviewVerify input pending => do
    finishSignature R pending
    let response ← reviewCommit input pending
    return .inl response
  | rotateBody => do
    let pending ← rotateBegin R request env
    return .inr (.rotateVerify pending)
  | rotateVerify pending => do
    rotateCommit R pending
    return .inl pending.toResponse
  | gitHubBody => do
    let sender ← verifyGitHubBegin request
    return .inr (.gitHubKeys sender)
  | gitHubKeys sender => do
    let response ← verifyGitHubFinish sender env
    return .inl response

/-- The signed request whose verification a phase waits for. -/
def Phase.awaiting : Phase → Option SignedRequest
  | publishVerify _ _ pending => pending.map PendingSignature.signed
  | reviewVerify _ pending => some pending.signed
  | rotateVerify pending => some pending.signed
  | publishBody _ | publishReturn _ _ _ | publishPersist _ | rotateBody | gitHubBody
  | gitHubKeys _ => none

/-- The signature of a waiting publish or review verifies. -/
def PendingSignature.verifies (pending : PendingSignature) : Bool :=
  R.platform.verifyEd25519Signature pending.auth.publicKey pending.message pending.auth.signature

/-- Both signatures of a waiting rotation verify. -/
def PendingRotate.verifies (pending : PendingRotate) : Bool :=
  R.platform.verifyEd25519Signature pending.publicKey pending.fields.message
      pending.fields.oldSignature &&
    R.platform.verifyEd25519Signature pending.fields.newPublicKey pending.fields.message
      pending.fields.newSignature

/-- The rotation that a phase is about to commit. -/
def Phase.rotating : Phase → Option PendingRotate
  | rotateVerify pending => some pending
  | _ => none

/-! ## The system -/

structure Task where
  request : Request
  phase : Phase

/-- The service, the requests in flight, and the signed requests that passed so far. -/
structure InFlight (C : Type) where
  service : ServiceState C
  tasks : OrdMap Nat Task
  next : Nat
  passed : List SignedRequest

inductive InFlightEvent
  | arrive (request : Request) (env : Env)
  | resume (task : Nat) (env : Env)

namespace InFlight

def init (cache : C) : InFlight C := ⟨.init cache, ∅, 0, []⟩

def arrive (request : Request) (env : Env) (sys : InFlight C) : InFlight C :=
  match (start R request env).run sys.service with
  | (.ok (.inr phase), service) =>
    { sys with service, tasks := sys.tasks.set sys.next ⟨request, phase⟩, next := sys.next + 1 }
  | (.ok (.inl _), service) => { sys with service }
  | (.error _, service) => { sys with service }

/-- A request that gets past a verification has passed its signature stage. -/
def resumeTask (id : Nat) (task : Task) (env : Env) (sys : InFlight C) : InFlight C :=
  match (task.phase.resume R task.request env).run sys.service with
  | (.ok (.inr phase), service) =>
    { sys with
      service
      tasks := sys.tasks.set id ⟨task.request, phase⟩
      passed := sys.passed ++ task.phase.awaiting.toList }
  | (.ok (.inl _), service) =>
    { sys with
      service
      tasks := sys.tasks.erase id
      passed := sys.passed ++ task.phase.awaiting.toList }
  | (.error _, service) => { sys with service, tasks := sys.tasks.erase id }

def step (sys : InFlight C) : InFlightEvent → InFlight C
  | .arrive request env => sys.arrive R request env
  | .resume id env =>
    match sys.tasks.get? id with
    | none => sys
    | some task => sys.resumeTask R id task env

end InFlight

/-! ## A request that runs alone -/

/-- Resume a request until it has its response, at most `n` times. -/
def complete (request : Request) (env : Env) : Nat → Progress → Handler C Response
  | _, .inl response => pure response
  | 0, .inr _ => Proc.answer notFoundResponse
  | n + 1, .inr phase => do
    let progress ← phase.resume R request env
    complete request env n progress

variable {R}

namespace InFlightLemmas

theorem complete_inl (request : Request) (env : Env) (n : Nat) (response : Response) :
    complete R request env n (.inl response) = pure response := by
  cases n <;> rfl

theorem start_publish (request : Request) (env : Env) :
    Endpoint.publish.start R request env >>= complete R request env 4 =
      handlePublish R request env := by
  simp only [Endpoint.start, handlePublish, publishSigned, bind_assoc, pure_bind, complete,
    Phase.resume]

theorem start_review (request : Request) (env : Env) :
    Endpoint.review.start R request env >>= complete R request env 4 =
      handleReview R request env := by
  simp only [Endpoint.start, reviewStart, handleReview, bind_assoc]
  refine bind_congr fun room => ?_
  by_cases hget : request.method = "GET"
  · simp only [if_pos hget, bind_assoc, pure_bind, complete_inl, bind_pure]
  rw [if_neg hget, if_neg hget]
  by_cases hpost : request.method = "POST"
  · simp only [if_pos hpost, handleReviewPost, reviewSigned, bind_assoc, pure_bind, complete,
      Phase.resume, bind_pure]
  · simp only [if_neg hpost, Proc.answer_bind]

theorem start_keyRotate (request : Request) (env : Env) :
    Endpoint.keyRotate.start R request env >>= complete R request env 4 =
      handleKeyRotate R request env := by
  simp only [Endpoint.start, handleKeyRotate, rotateSigned, bind_assoc, pure_bind, complete,
    Phase.resume]

theorem start_keyVerifyGitHub (request : Request) (env : Env) :
    Endpoint.keyVerifyGitHub.start R request env >>= complete R request env 4 =
      handleKeyVerifyGitHub request env := by
  simp only [Endpoint.start, handleKeyVerifyGitHub, bind_assoc, pure_bind, complete,
    Phase.resume, bind_pure]

/-- An endpoint that waits for nothing answers in its first step. -/
theorem start_cases (request : Request) (env : Env) (endpoint : Endpoint) :
    endpoint.waits = true ∨
    endpoint.signs = false ∧
      endpoint.start R request env = (do
        let response ← endpoint.handle R request env
        return .inl response) := by
  cases endpoint with
  | publish | review | keyRotate | keyVerifyGitHub => exact .inl rfl
  | _ => exact .inr ⟨rfl, rfl⟩

theorem start_endpoint (request : Request) (env : Env) (endpoint : Endpoint) :
    endpoint.start R request env >>= complete R request env 4 =
      endpoint.handle R request env := by
  rcases start_cases (R := R) request env endpoint with hwaits | ⟨-, hstart⟩
  · cases endpoint with
    | publish => exact start_publish request env
    | review => exact start_review request env
    | keyRotate => exact start_keyRotate request env
    | keyVerifyGitHub => exact start_keyVerifyGitHub request env
    | _ => cases hwaits
  · simp only [hstart, bind_assoc, pure_bind, complete_inl, bind_pure]

end InFlightLemmas

open InFlightLemmas

/-- A request that nothing interrupts does what `fetch` does. -/
theorem complete_start (request : Request) (env : Env) :
    start R request env >>= complete R request env 4 = fetch R request env := by
  unfold start fetch
  by_cases hhealth : request.pathname = "/health"
  · simp only [if_pos hhealth, pure_bind, complete_inl]
  rw [if_neg hhealth, if_neg hhealth]
  by_cases hroot : request.pathname = "/"
  · simp only [if_pos hroot, pure_bind, complete_inl]
  rw [if_neg hroot, if_neg hroot]
  cases Endpoint.ofPath request.pathname with
  | none => simp only [bind_assoc, pure_bind, complete_inl]
  | some endpoint => simp only [bind_assoc, Endpoint.guarded, start_endpoint]

/-! ## The nonce tables -/

def Progress.awaiting : Progress → Option SignedRequest
  | .inl _ => none
  | .inr phase => phase.awaiting

variable {N : NoncesBySender} {now : Int} {request : Request}

/-- A request that came to wait for its verification is fresh; any other left the tables as they
were, or pruned. -/
def Checked (R : Relay C) (N : NoncesBySender) (now : Int) (progress : Progress)
    (s : ServiceState C) : Prop :=
  match progress.awaiting with
  | none => PrunedFrom R N now s
  | some x => Fresh R N now x s

theorem Checked.pruned {progress : Progress} {s : ServiceState C}
    (h : Checked R N now progress s) : PrunedFrom R N now s := by
  unfold Checked at h
  split at h
  · exact h
  · exact .inr ⟨_, h.pruned⟩

theorem Checked.fresh {progress : Progress} {s : ServiceState C}
    (h : Checked R N now progress s) {x : SignedRequest} (hx : progress.awaiting = some x) :
    Fresh R N now x s := by
  unfold Checked at h
  rw [hx] at h
  exact h

/-- The verification of `x` ended: its nonce is recorded, and the request waits for no other. -/
def Recorded (R : Relay C) (N : NoncesBySender) (x : SignedRequest) (nowSec : Int)
    (progress : Progress) (s : ServiceState C) : Prop :=
  progress.awaiting = none ∧
    s.noncesBySender = rememberNonce R.config.noncePolicy N x.sender x.nonce x.ts nowSec

namespace InFlightLemmas

/-- What is done quietly keeps the tables, and waits for no verification. -/
theorem triple_checked {α : Type} {x : Handler C α} {f : α → Progress}
    (h : Proc.Leads (Change R (Allowed.quiet : Allowed C)) x) (hf : ∀ a, (f a).awaiting = none) :
    Proc.Triple (fun s => s.noncesBySender = N) (x >>= fun a => pure (f a))
      (Checked R N now) (PrunedFrom R N now) := by
  refine (quiet_to_pruned h).bind fun a => Proc.Triple.pure fun s hs => ?_
  unfold Checked
  rw [hf a]
  exact .inl hs

theorem triple_reviewStart (env : Env) :
    Proc.Triple (fun s : ServiceState C => s.noncesBySender = N) (reviewStart R request env)
      (Checked R N (nowEpochSec env.nowMs)) (PrunedFrom R N (nowEpochSec env.nowMs)) := by
  refine (quiet_to_pruned (leads_requireRoom R _)).bind fun room => ?_
  refine Proc.Triple.ite (fun _ => ?_) fun _ => Proc.Triple.ite (fun _ => ?_) fun _ => ?_
  · exact triple_checked (leads_reviewGet R request room) fun _ => rfl
  · exact (triple_reviewBegin room env).bind fun p => Proc.Triple.pure fun s hs => hs.2
  · exact Proc.Triple.answer fun s hs => .inl hs

/-- The verdict is recorded without fail. -/
theorem triple_reviewCommit (input : ReviewInput) (pending : PendingSignature)
    {E : ServiceState C → Prop} :
    Proc.Triple (fun s : ServiceState C => s.noncesBySender = N) (reviewCommit input pending)
      (fun _ s => s.noncesBySender = N) E :=
  Proc.Triple.bind (Q := fun _ s => s.noncesBySender = N) (Proc.Triple.update fun _ hs => hs)
    fun _ => Proc.Triple.pure fun _ hs => hs

end InFlightLemmas

theorem triple_startEndpoint (env : Env) {endpoint : Endpoint}
    (h : Endpoint.ofPath request.pathname = some endpoint) :
    Proc.Triple (fun s : ServiceState C => s.noncesBySender = N) (endpoint.start R request env)
      (Checked R N (nowEpochSec env.nowMs)) (PrunedFrom R N (nowEpochSec env.nowMs)) := by
  rcases start_cases (R := R) request env endpoint with hwaits | ⟨hsigns, hstart⟩
  · cases endpoint with
    | publish => exact triple_checked (leads_publishArrive env) fun _ => rfl
    | review => exact triple_reviewStart env
    | keyRotate => exact triple_checked (leads_requireMethod R _ _) fun _ => rfl
    | keyVerifyGitHub => exact triple_checked (leads_requireMethod R _ _) fun _ => rfl
    | _ => cases hwaits
  · rw [hstart]
    refine triple_checked (leads_handle (quiet_grants fun e he => ?_) env h) fun _ => rfl
    rw [h] at he
    cases he
    exact hsigns

/-- The first step of a request. -/
theorem triple_start (request : Request) (env : Env) :
    Proc.Triple (fun s : ServiceState C => s.noncesBySender = N) (start R request env)
      (Checked R N (nowEpochSec env.nowMs)) (PrunedFrom R N (nowEpochSec env.nowMs)) := by
  unfold start
  refine Proc.Triple.ite (fun _ => Proc.Triple.pure fun s hs => .inl hs) fun _ =>
    Proc.Triple.ite (fun _ => Proc.Triple.pure fun s hs => .inl hs) fun _ => ?_
  split
  · next endpoint h =>
    exact (quiet_to_pruned (Proc.Leads.failWith _)).bind fun _ => triple_startEndpoint env h
  · exact triple_checked (Proc.Leads.failWith _) fun _ => rfl

/-- A step of a request that waits for no verification. -/
theorem triple_resume (request : Request) (env : Env) {phase : Phase} (h : phase.awaiting = none) :
    Proc.Triple (fun s : ServiceState C => s.noncesBySender = N) (phase.resume R request env)
      (Checked R N (nowEpochSec env.nowMs)) (PrunedFrom R N (nowEpochSec env.nowMs)) := by
  cases phase with
  | publishBody input =>
    refine (triple_publishBegin input env).bind fun p => Proc.Triple.pure fun s hs => ?_
    obtain ⟨payload, pending⟩ := p
    cases pending with
    | none => exact .inl hs
    | some pending => exact hs.2
  | publishVerify input payload pending =>
    cases pending with
    | none => exact triple_checked (x := pure ()) (Proc.Leads.pure _) fun _ => rfl
    | some pending => cases h
  | publishReturn input payload pending =>
    exact triple_checked (leads_publishEntry R fun _ => trivial) fun _ => rfl
  | publishPersist result => exact triple_checked (leads_persistResult R _) fun _ => rfl
  | reviewVerify input pending => cases h
  | rotateBody =>
    exact (triple_rotateBegin env).bind fun pending => Proc.Triple.pure fun s hs => hs.2
  | rotateVerify pending => cases h
  | gitHubBody => exact triple_checked leads_verifyGitHubBegin fun _ => rfl
  | gitHubKeys sender => exact triple_checked (leads_verifyGitHubFinish _ env) fun _ => rfl

/-- The step that ends a verification. -/
theorem triple_resume_awaiting (request : Request) (env : Env) {phase : Phase}
    {x : SignedRequest} (h : phase.awaiting = some x) : ∃ nowSec,
    Proc.Triple (fun s : ServiceState C => s.noncesBySender = N) (phase.resume R request env)
      (Recorded R N x nowSec) (fun s => s.noncesBySender = N) := by
  cases phase with
  | publishVerify input payload pending =>
    cases pending with
    | none => cases h
    | some pending =>
      cases h
      exact ⟨pending.nowSec, (triple_finishSignature pending).bind fun _ =>
        Proc.Triple.pure fun s hs => ⟨rfl, hs⟩⟩
  | reviewVerify input pending =>
    cases h
    exact ⟨pending.nowSec, (triple_finishSignature pending).bind fun _ =>
      (triple_reviewCommit input pending).bind fun _ => Proc.Triple.pure fun s hs => ⟨rfl, hs⟩⟩
  | rotateVerify pending =>
    cases h
    exact ⟨pending.nowSec, (triple_rotateCommit pending).bind fun _ =>
      Proc.Triple.pure fun s hs => ⟨rfl, hs⟩⟩
  | publishBody | publishReturn | publishPersist | rotateBody | gitHubBody | gitHubKeys => cases h

/-! ## The keys -/

/-- Everything but a new key is allowed. -/
def Allowed.unkeyed : Allowed C := ⟨fun _ _ => True, True, True, False⟩

namespace InFlightLemmas

theorem leads_answered {α β : Type} {A : Allowed C} {x : Handler C α} {f : α → β}
    (h : Proc.Leads (Change R A) x) : Proc.Leads (Change R A) (x >>= fun a => pure (f a)) :=
  h.bind fun _ => Proc.Leads.pure _

theorem leads_reviewStart {A : Allowed C} (hp : A.prunes) (env : Env) :
    Proc.Leads (Change R A) (reviewStart R request env) := by
  refine (leads_requireRoom R _).bind fun room => Proc.Leads.ite ?_ (Proc.Leads.ite ?_ ?_)
  · exact leads_answered (leads_reviewGet R request room)
  · exact leads_answered (leads_reviewBegin hp room env)
  · exact Proc.Leads.answer _

theorem leads_startEndpoint {A : Allowed C} (hp : A.prunes) (env : Env) {endpoint : Endpoint}
    (h : Endpoint.ofPath request.pathname = some endpoint)
    (hA : endpoint.signs = false → A.Grants R request) :
    Proc.Leads (Change R A) (endpoint.start R request env) := by
  rcases start_cases (R := R) request env endpoint with hwaits | ⟨hsigns, hstart⟩
  · cases endpoint with
    | publish => exact leads_answered (leads_publishArrive env)
    | review => exact leads_reviewStart hp env
    | keyRotate => exact leads_answered (leads_requireMethod R _ _)
    | keyVerifyGitHub => exact leads_answered (leads_requireMethod R _ _)
    | _ => cases hwaits
  · rw [hstart]
    exact leads_answered (leads_handle (hA hsigns) env h)

/-- An endpoint without a signature stage grants nothing that such a stage needs. -/
theorem grants_of_unsigned {A : Allowed C} (hA : ∀ s e, A.publishes s e) {endpoint : Endpoint}
    (h : Endpoint.ofPath request.pathname = some endpoint) (hsigns : endpoint.signs = false) :
    A.Grants R request where
  publishes s e _ := hA s e
  prunes other hother hs := by
    cases h.symm.trans hother
    cases hsigns.symm.trans hs
  signs other hother hs := by
    cases h.symm.trans hother
    cases hsigns.symm.trans hs
  rekeys hother := by
    cases h.symm.trans hother
    cases hsigns

end InFlightLemmas

/-- The first step of a request signs nothing. -/
theorem leads_startAs {A : Allowed C} (hp : A.prunes) (hA : ∀ s e, A.publishes s e) (env : Env) :
    Proc.Leads (Change R A) (start R request env) := by
  unfold start
  refine Proc.Leads.ite (Proc.Leads.pure _) (Proc.Leads.ite (Proc.Leads.pure _) ?_)
  split
  · next endpoint h =>
    exact (Proc.Leads.failWith _).bind fun _ =>
      leads_startEndpoint hp env h fun hsigns => grants_of_unsigned hA h hsigns
  · exact leads_answered (Proc.Leads.failWith _)

theorem leads_start (env : Env) :
    Proc.Leads (Change R (Allowed.unkeyed : Allowed C)) (start R request env) :=
  leads_startAs trivial (fun _ _ => trivial) env

/-- Only the last phase of a rotation replaces a key. -/
theorem leads_resume (env : Env) {phase : Phase} (h : phase.rotating = none) :
    Proc.Leads (Change R (Allowed.unkeyed : Allowed C)) (phase.resume R request env) := by
  cases phase with
  | publishBody input => exact leads_answered (leads_publishBegin trivial input env)
  | publishVerify input payload pending =>
    cases pending with
    | none => exact leads_answered (Proc.Leads.pure ())
    | some pending => exact leads_answered (leads_finishSignature trivial pending)
  | publishReturn input payload pending =>
    exact leads_answered (leads_publishEntry R fun _ => trivial)
  | publishPersist result => exact leads_answered (leads_persistResult R _)
  | reviewVerify input pending =>
    exact (leads_finishSignature trivial pending).bind fun _ =>
      leads_answered (leads_reviewCommit _ _)
  | rotateBody => exact leads_answered (leads_rotateBegin trivial env)
  | rotateVerify pending => cases h
  | gitHubBody => exact leads_answered leads_verifyGitHubBegin
  | gitHubKeys sender => exact leads_answered (leads_verifyGitHubFinish _ env)

end

end BitRelay
