import BitRelay.Service.Changes

/-!
# The signature stage

Publish, review and rotation check the timestamp and the nonce first, wait for
the verification, and record the nonce last. This module says what each of the
pieces does to the nonce tables, from given tables `N` at the time `now`.

Results:
1. `triple_publishBegin`, `triple_reviewBegin`, `triple_rotateBegin`: a request
   that waits for its verification is `Fresh`; one that was refused left the
   tables as they were, or pruned (`PrunedFrom`).
2. `triple_finishSignature`, `triple_rotateCommit`: a verified request records
   its nonce, a refused one leaves the tables alone.
3. `triple_signatureStage`, `serve_noncesBySender`: the same for a whole request
   that runs alone.
-/

namespace BitRelay

section
variable {C : Type} (R : Relay C)

/-! ## Definitions -/

/-- What identifies a signed request. -/
structure SignedRequest where
  sender : String
  nonce : String
  ts : Int
  deriving DecidableEq

def PendingSignature.signed (pending : PendingSignature) : SignedRequest :=
  ⟨pending.sender, pending.auth.nonce, pending.auth.timestampSec⟩

def PendingRotate.signed (pending : PendingRotate) : SignedRequest :=
  ⟨pending.fields.sender, pending.fields.nonce, pending.fields.ts⟩

/-- A handler up to the end of its signature stage: the signed request that passed, or `none`
when the request has no such stage. -/
def Endpoint.signatureStage (request : Request) (env : Env) :
    Endpoint → Handler C (Option SignedRequest)
  | publish => do
    let (_, _, pending) ← publishSigned R request env
    return pending.map PendingSignature.signed
  | review => do
    let room ← requireRoom R request
    if request.method = "POST" then do
      let (_, pending) ← reviewSigned R request room env
      return some pending.signed
    else return none
  | keyRotate => do
    let pending ← rotateSigned R request env
    return some pending.signed
  | _ => pure none

/-- `fetch` up to the end of the signature stage. -/
def signatureStage (request : Request) (env : Env) : Handler C (Option SignedRequest) := do
  Proc.failWith (checkAuth R request)
  match Endpoint.ofPath request.pathname with
  | some endpoint => endpoint.signatureStage R request env
  | none => pure none

/-- The signed request that passes its signature stage, when `request` is served in `s`. -/
def passes (request : Request) (env : Env) (s : ServiceState C) : Option SignedRequest :=
  match (signatureStage R request env).run s with
  | (.ok signed, _) => signed
  | (.error _, _) => none

/-- The tables are `N`, or `N` with the table of one sender pruned. -/
def PrunedFrom (N : NoncesBySender) (now : Int) (s : ServiceState C) : Prop :=
  s.noncesBySender = N ∨
    ∃ sender, s.noncesBySender = pruneSenderNonces R.config.noncePolicy N sender now

/-- The request is not stale, its nonce is new, and the table of its sender is pruned. -/
structure Fresh (N : NoncesBySender) (now : Int) (x : SignedRequest) (s : ServiceState C) :
    Prop where
  current : isStale now x.ts R.config.maxClockSkewSec = false
  unknown : (isReplayNonce R.config.noncePolicy N x.sender x.nonce now).1 = false
  named : trim x.nonce ≠ ""
  pruned : s.noncesBySender = pruneSenderNonces R.config.noncePolicy N x.sender now

/-- The request was fresh, and its nonce is recorded. -/
structure Accepted (N : NoncesBySender) (now : Int) (x : SignedRequest) (s : ServiceState C) :
    Prop where
  current : isStale now x.ts R.config.maxClockSkewSec = false
  unknown : (isReplayNonce R.config.noncePolicy N x.sender x.nonce now).1 = false
  named : trim x.nonce ≠ ""
  recorded : s.noncesBySender =
    rememberNonce R.config.noncePolicy N x.sender x.nonce x.ts now

variable {R}
variable {N : NoncesBySender} {now : Int}

/-! ## Frames -/

/-- Publishing and bookkeeping leave the nonce tables alone. -/
def Allowed.quiet : Allowed C := ⟨fun _ _ => True, False, False, False⟩

theorem Change.noncesBySender {A : Allowed C} {s s' : ServiceState C} (h : Change R A s s')
    (hp : ¬ A.prunes) (hs : ¬ A.signs) : s'.noncesBySender = s.noncesBySender := by
  cases h with
  | publish room sender topic id signature payload origin hopCount maxHops _ =>
    unfold ServiceState.publishEntry
    split
    split <;> rfl
  | annotateKey sender f _ =>
    unfold ServiceState.updateKey
    split <;> rfl
  | rekey sender f _ =>
    unfold ServiceState.updateKey
    split <;> rfl
  | prune _ _ _ h => exact absurd h hp
  | bindKey _ _ _ _ _ h => exact absurd h hs
  | remember _ _ _ _ h => exact absurd h hs
  | rates | room | issueSync | cache => rfl

/-- A quiet computation keeps the tables. -/
theorem triple_quiet {α : Type} {x : Handler C α}
    (h : Proc.Leads (Change R (Allowed.quiet : Allowed C)) x) :
    Proc.Triple (fun s => s.noncesBySender = N) x (fun _ s => s.noncesBySender = N)
      (fun s => s.noncesBySender = N) :=
  Proc.Triple.of_leads h fun _ _ hstep hs =>
    (hstep.noncesBySender (fun h => h) (fun h => h)).trans hs

theorem quiet_to_pruned {α : Type} {x : Handler C α}
    (h : Proc.Leads (Change R (Allowed.quiet : Allowed C)) x) :
    Proc.Triple (fun s => s.noncesBySender = N) x (fun _ s => s.noncesBySender = N)
      (PrunedFrom R N now) :=
  (triple_quiet h).conseq (fun _ hs => hs) (fun _ _ hs => hs) fun _ hs => .inl hs

/-! ## The nonce check -/

theorem checkReplay_fst (s : ServiceState C) (sender nonce : String) :
    (s.checkReplay R sender nonce now).1 =
      (isReplayNonce R.config.noncePolicy s.noncesBySender sender nonce now).1 := rfl

theorem checkReplay_noncesBySender (s : ServiceState C) (sender nonce : String) :
    (s.checkReplay R sender nonce now).2.noncesBySender =
      pruneSenderNonces R.config.noncePolicy s.noncesBySender sender now := rfl

theorem triple_checkFreshness (x : SignedRequest) (hname : trim x.nonce ≠ "") :
    Proc.Triple (fun s : ServiceState C => s.noncesBySender = N)
      (checkFreshness R x.sender x.nonce x.ts now) (fun _ s => Fresh R N now x s)
      (PrunedFrom R N now) := by
  refine (Proc.Triple.failIf fun s hs => .inl hs).bind fun _ => ?_
  refine Proc.Triple.of_fact fun hstale => ?_
  refine Proc.Triple.bind (Q := fun replayed s =>
    replayed = (isReplayNonce R.config.noncePolicy N x.sender x.nonce now).1 ∧
      s.noncesBySender = pruneSenderNonces R.config.noncePolicy N x.sender now)
    (Proc.Triple.update fun s hs => ?_) fun replayed => ?_
  · rw [checkReplay_fst, checkReplay_noncesBySender, hs]
    exact ⟨rfl, rfl⟩
  · refine (Proc.Triple.failIf fun s hs => .inr ⟨x.sender, hs.2⟩).conseq (fun _ hs => hs) ?_
      fun _ hs => hs
    rintro _ s ⟨hreplay, heq, hpruned⟩
    exact ⟨by simpa using hstale, by rw [← heq]; simpa using hreplay, hname, hpruned⟩

/-- What the headers of a signed request have passed. -/
theorem parsePublishAuthHeaders_ok {request : Request} {auth : PublishAuthHeaders}
    (h : parsePublishAuthHeaders request = .ok (some auth)) :
    auth.nonce = request.headerTrim "x-relay-nonce" ∧ auth.nonce ≠ "" ∧
      jsLength auth.nonce ≤ 256 ∧ 0 < auth.timestampSec := by
  unfold parsePublishAuthHeaders at h
  simp only at h
  split at h
  · cases h
  split at h
  · cases h
  next hall =>
    split at h
    · cases h
    split at h
    · cases h
    split at h
    · cases h
    next hts =>
      split at h
      · cases h
      next hlen =>
        cases h
        exact ⟨rfl, fun hnonce => hall (.inr (.inr (.inr hnonce))), by simpa using hlen,
          by simpa using hts⟩

/-- What the fields of a rotation have passed. -/
theorem parseRotateFields_ok {parsed : JsonValue} {fields : RotateFields}
    (h : parseRotateFields parsed = .ok fields) :
    fields.sender = trim (parsed.strField "sender") ∧ fields.sender ≠ "" ∧
      isLikelyBase64Url fields.newPublicKey = true ∧ 0 < fields.ts ∧
      fields.nonce = trim (parsed.strField "nonce") ∧ fields.nonce ≠ "" ∧
      jsLength fields.nonce ≤ 256 := by
  unfold parseRotateFields at h
  simp only at h
  split at h
  · cases h
  next hsender =>
    split at h
    · cases h
    next hkey =>
      split at h
      · cases h
      split at h
      · cases h
      next hts =>
        split at h
        · cases h
        next hnonce =>
          split at h
          · cases h
          cases h
          simp only [not_or, Bool.not_eq_false] at hkey hnonce
          exact ⟨rfl, hsender, hkey.2, by simpa using hts, rfl, hnonce.1, by simpa using hnonce.2⟩

/-- The nonce of parsed headers is not blank. -/
theorem parsePublishAuthHeaders_nonce {request : Request} {auth : PublishAuthHeaders}
    (h : parsePublishAuthHeaders request = .ok (some auth)) : trim auth.nonce ≠ "" := by
  obtain ⟨hnonce, hne, -, -⟩ := parsePublishAuthHeaders_ok h
  rw [hnonce, Request.headerTrim, trim_trim]
  exact fun hempty => hne (hnonce.trans hempty)

theorem parseRotateFields_nonce {parsed : JsonValue} {fields : RotateFields}
    (h : parseRotateFields parsed = .ok fields) : trim fields.nonce ≠ "" := by
  obtain ⟨-, -, -, -, hnonce, hne, -⟩ := parseRotateFields_ok h
  rw [hnonce, trim_trim, ← hnonce]
  exact hne

/-! ## Up to the wait -/

/-- What a request waiting for its verification has behind it. -/
def Waiting (R : Relay C) (N : NoncesBySender) (env : Env) (pending : PendingSignature)
    (s : ServiceState C) : Prop :=
  pending.nowSec = nowEpochSec env.nowMs ∧ Fresh R N (nowEpochSec env.nowMs) pending.signed s

theorem triple_beginSignature (sender message : String) (auth : PublishAuthHeaders) (env : Env)
    (hname : trim auth.nonce ≠ "") :
    Proc.Triple (fun s : ServiceState C => s.noncesBySender = N)
      (beginSignature R sender auth message (nowEpochSec env.nowMs))
      (fun pending s => Waiting R N env pending s) (PrunedFrom R N (nowEpochSec env.nowMs)) :=
  (triple_checkFreshness ⟨sender, auth.nonce, auth.timestampSec⟩ hname).bind fun _ =>
    Proc.Triple.pure fun _ hs => ⟨rfl, hs⟩

variable {request : Request}

theorem triple_publishBegin (input : PublishInput) (env : Env) :
    Proc.Triple (fun s : ServiceState C => s.noncesBySender = N)
      (publishBegin R request input env)
      (fun p s => match p.2 with
        | none => s.noncesBySender = N
        | some pending => Waiting R N env pending s)
      (PrunedFrom R N (nowEpochSec env.nowMs)) := by
  refine (Proc.Triple.failIf fun s hs => .inl hs).bind fun _ => Proc.Triple.of_fact fun _ => ?_
  refine (Proc.Triple.ofExcept fun s hs => .inl hs).bind fun parsed =>
    Proc.Triple.of_fact fun _ => ?_
  refine Proc.Triple.bind (Q := fun pending s => match pending with
    | none => s.noncesBySender = N
    | some pending => Waiting R N env pending s) ?_ fun pending => Proc.Triple.pure fun _ hs => hs
  refine (Proc.Triple.ofExcept fun s hs => .inl hs).bind fun auth =>
    Proc.Triple.of_fact fun hheaders => ?_
  cases auth with
  | none =>
    refine (Proc.Triple.failIf fun s hs => .inl hs).bind fun _ => Proc.Triple.pure fun _ hs => hs.2
  | some auth =>
    exact (triple_beginSignature _ _ auth env (parsePublishAuthHeaders_nonce hheaders)).bind
      fun _ => Proc.Triple.pure fun _ hs => hs

theorem triple_reviewBegin (room : String) (env : Env) :
    Proc.Triple (fun s : ServiceState C => s.noncesBySender = N)
      (reviewBegin R request room env) (fun p s => Waiting R N env p.2 s)
      (PrunedFrom R N (nowEpochSec env.nowMs)) := by
  refine (quiet_to_pruned (leads_requireParam R _ _)).bind fun sender => ?_
  refine (quiet_to_pruned (leads_requireParam R _ _)).bind fun prId => ?_
  refine (Proc.Triple.failIf fun s hs => .inl hs).bind fun _ => Proc.Triple.of_fact fun _ => ?_
  refine (Proc.Triple.ofExcept fun s hs => .inl hs).bind fun verdict =>
    Proc.Triple.of_fact fun _ => ?_
  refine (Proc.Triple.ofExcept fun s hs => .inl hs).bind fun presented =>
    Proc.Triple.of_fact fun hheaders => ?_
  refine (Proc.Triple.ofExcept fun s hs => .inl hs).bind fun auth =>
    Proc.Triple.of_fact fun hauth => ?_
  rw [elim_eq_ok hauth] at hheaders
  exact (triple_beginSignature _ _ auth env (parsePublishAuthHeaders_nonce hheaders)).bind
    fun _ => Proc.Triple.pure fun _ hs => hs

theorem triple_rotateBegin (env : Env) :
    Proc.Triple (fun s : ServiceState C => s.noncesBySender = N) (rotateBegin R request env)
      (fun pending s => pending.nowSec = nowEpochSec env.nowMs ∧
        Fresh R N (nowEpochSec env.nowMs) pending.signed s)
      (PrunedFrom R N (nowEpochSec env.nowMs)) := by
  refine (quiet_to_pruned (leads_requireObject R _)).bind fun parsed => ?_
  refine (Proc.Triple.ofExcept fun s hs => .inl hs).bind fun fields =>
    Proc.Triple.of_fact fun hfields => ?_
  refine (triple_checkFreshness ⟨fields.sender, fields.nonce, fields.ts⟩
    (parseRotateFields_nonce hfields)).bind fun _ => ?_
  refine (Proc.Triple.gets _).bind fun record => ?_
  exact (Proc.Triple.ofExcept fun s hs => .inr ⟨_, hs.2.pruned⟩).bind fun record =>
    Proc.Triple.of_fact fun _ => Proc.Triple.pure fun _ hs => ⟨rfl, hs.2⟩

/-! ## After the wait -/

theorem bindKey_noncesBySender (sender publicKey : String) (nowSec : Int) :
    Proc.Triple (fun s : ServiceState C => s.noncesBySender = N)
      (bindKey sender publicKey nowSec) (fun _ s => s.noncesBySender = N)
      (fun s => s.noncesBySender = N) := by
  refine (Proc.Triple.gets _).bind fun checked => ?_
  exact (Proc.Triple.ofExcept fun s hs => hs.2).bind fun keyRegistry =>
    Proc.Triple.of_fact fun _ => Proc.Triple.modify fun s hs => hs.2

theorem triple_finishSignature (pending : PendingSignature) :
    Proc.Triple (fun s : ServiceState C => s.noncesBySender = N) (finishSignature R pending)
      (fun _ s => s.noncesBySender = rememberNonce R.config.noncePolicy N pending.signed.sender
        pending.signed.nonce pending.signed.ts pending.nowSec)
      (fun s => s.noncesBySender = N) := by
  refine (Proc.Triple.failIf fun s hs => hs).bind fun _ => Proc.Triple.of_fact fun _ => ?_
  refine (bindKey_noncesBySender _ _ _).bind fun _ => Proc.Triple.modify fun s hs => ?_
  rw [← hs]
  rfl

theorem triple_rotateCommit (pending : PendingRotate) :
    Proc.Triple (fun s : ServiceState C => s.noncesBySender = N) (rotateCommit R pending)
      (fun _ s => s.noncesBySender = rememberNonce R.config.noncePolicy N pending.signed.sender
        pending.signed.nonce pending.signed.ts pending.nowSec)
      (fun s => s.noncesBySender = N) := by
  refine (Proc.Triple.failIf fun s hs => hs).bind fun _ => Proc.Triple.of_fact fun _ => ?_
  refine (Proc.Triple.failIf fun s hs => hs).bind fun _ => Proc.Triple.of_fact fun _ => ?_
  refine Proc.Triple.bind (Q := fun _ s => s.noncesBySender = N)
    (Proc.Triple.modify fun s hs => ?_) fun _ => Proc.Triple.modify fun s hs => ?_
  · unfold ServiceState.updateKey
    split <;> exact hs
  · rw [← hs]
    rfl

/-! ## A request that runs alone -/

theorem Fresh.accepted {x : SignedRequest} {s s' : ServiceState C} (h : Fresh R N now x s)
    (hs : s'.noncesBySender = rememberNonce R.config.noncePolicy s.noncesBySender x.sender x.nonce
      x.ts now) : Accepted R N now x s' :=
  ⟨h.current, h.unknown, h.named, by rw [hs, h.pruned, rememberNonce_pruneSenderNonces]⟩

/-- A verification on the tables of a waiting request: accepted, or pruned and refused. -/
theorem triple_verify {α : Type} {x : SignedRequest} {commit : Handler C α}
    (h : ∀ M : NoncesBySender, Proc.Triple (fun s => s.noncesBySender = M) commit
      (fun _ s => s.noncesBySender =
        rememberNonce R.config.noncePolicy M x.sender x.nonce x.ts now)
      (fun s => s.noncesBySender = M)) :
    Proc.Triple (Fresh R N now x) commit (fun _ => Accepted R N now x) (PrunedFrom R N now) := by
  intro s hs
  obtain ⟨hok, herror⟩ := h s.noncesBySender s rfl
  refine ⟨fun a s' hr => hs.accepted (hok a s' hr), fun e s' hr => .inr ⟨x.sender, ?_⟩⟩
  rw [herror e s' hr, hs.pruned]

theorem triple_publishSigned (env : Env) :
    Proc.Triple (fun s : ServiceState C => s.noncesBySender = N) (publishSigned R request env)
      (fun p s => match p.2.2 with
        | none => s.noncesBySender = N
        | some pending => Accepted R N (nowEpochSec env.nowMs) pending.signed s)
      (PrunedFrom R N (nowEpochSec env.nowMs)) := by
  refine (quiet_to_pruned (leads_publishArrive env)).bind fun input => ?_
  refine (triple_publishBegin input env).bind fun p => ?_
  obtain ⟨payload, pending⟩ := p
  cases pending with
  | none => exact Proc.Triple.pure fun _ hs => hs
  | some pending =>
    refine Proc.Triple.of_fact fun hnow => Proc.Triple.bind (triple_verify fun M => ?_)
      fun _ => Proc.Triple.pure fun _ hs => hs
    rw [← hnow]
    exact triple_finishSignature pending

theorem triple_reviewSigned (room : String) (env : Env) :
    Proc.Triple (fun s : ServiceState C => s.noncesBySender = N) (reviewSigned R request room env)
      (fun p s => Accepted R N (nowEpochSec env.nowMs) p.2.signed s)
      (PrunedFrom R N (nowEpochSec env.nowMs)) := by
  refine (triple_reviewBegin room env).bind fun p => ?_
  refine Proc.Triple.of_fact fun hnow => Proc.Triple.bind (triple_verify fun M => ?_)
    fun _ => Proc.Triple.pure fun _ hs => hs
  rw [← hnow]
  exact triple_finishSignature p.2

theorem triple_rotateSigned (env : Env) :
    Proc.Triple (fun s : ServiceState C => s.noncesBySender = N) (rotateSigned R request env)
      (fun pending s => Accepted R N (nowEpochSec env.nowMs) pending.signed s)
      (PrunedFrom R N (nowEpochSec env.nowMs)) := by
  refine (quiet_to_pruned (leads_requireMethod R _ _)).bind fun _ => ?_
  refine (triple_rotateBegin env).bind fun pending => ?_
  refine Proc.Triple.of_fact fun hnow => Proc.Triple.bind (triple_verify fun M => ?_)
    fun _ => Proc.Triple.pure fun _ hs => hs
  rw [← hnow]
  exact triple_rotateCommit pending

/-- The whole stage: the request is accepted, or the tables are at most pruned. -/
theorem triple_signatureStage (request : Request) (env : Env) :
    Proc.Triple (fun s : ServiceState C => s.noncesBySender = N) (signatureStage R request env)
      (fun signed s => match signed with
        | none => s.noncesBySender = N
        | some x => Accepted R N (nowEpochSec env.nowMs) x s)
      (PrunedFrom R N (nowEpochSec env.nowMs)) := by
  refine (Proc.Triple.failWith fun s hs => .inl hs).bind fun _ => Proc.Triple.of_fact fun _ => ?_
  cases Endpoint.ofPath request.pathname with
  | none => exact Proc.Triple.pure fun _ hs => hs
  | some endpoint =>
    cases endpoint with
    | publish =>
      refine (triple_publishSigned env).bind fun p => Proc.Triple.pure fun s hs => ?_
      obtain ⟨input, payload, pending⟩ := p
      cases pending <;> exact hs
    | review =>
      refine (quiet_to_pruned (leads_requireRoom R _)).bind fun room => ?_
      refine Proc.Triple.ite (fun _ => ?_) fun _ => Proc.Triple.pure fun _ hs => hs
      exact (triple_reviewSigned room env).bind fun p => Proc.Triple.pure fun _ hs => hs
    | keyRotate => exact (triple_rotateSigned env).bind fun _ => Proc.Triple.pure fun _ hs => hs
    | keyInfo | keyVerifyGitHub | githubWebhook | githubWebhookDlq | githubWebhookDlqRetry
    | triggerCallback | triggerResults | cacheExchangeDiscovery | cacheExchangePull
    | cacheExchangePush | cacheIssuesPull | cacheIssuesSync | ws | poll | inboxPending | inboxAck
    | presenceHeartbeat | presence => exact Proc.Triple.pure fun _ hs => hs

/-! ## The rest of the request -/

theorem leads_quiet_keeps {α : Type} {x : Handler C α}
    (h : Proc.Leads (Change R (Allowed.quiet : Allowed C)) x) (s : ServiceState C) :
    (x.run s).2.noncesBySender = s.noncesBySender :=
  h.keeps (I := fun s' => s'.noncesBySender = s.noncesBySender)
    (fun _ _ hstep hs => (hstep.noncesBySender (fun h => h) (fun h => h)).trans hs) rfl

/-- What follows quietly does not matter for the tables. -/
theorem bind_quiet {α β : Type} (x : Handler C α) {f : α → Handler C β}
    (hf : ∀ a, Proc.Leads (Change R (Allowed.quiet : Allowed C)) (f a)) (s : ServiceState C) :
    ((x >>= f).run s).2.noncesBySender = (x.run s).2.noncesBySender := by
  rw [Proc.run_bind]
  match x.run s with
  | (.ok a, s') => exact leads_quiet_keeps (hf a) s'
  | (.error e, s') => rfl

theorem quiet_grants (h : ∀ endpoint, Endpoint.ofPath request.pathname = some endpoint →
    endpoint.signs = false) : (Allowed.quiet : Allowed C).Grants R request where
  publishes _ _ _ := trivial
  prunes endpoint he hs := by
    rw [h endpoint he] at hs
    cases hs
  signs endpoint he hs := by
    rw [h endpoint he] at hs
    cases hs
  rekeys he := by
    have hs := h _ he
    cases hs

/-- Two continuations that leave the tables alike. -/
theorem bind_noncesBySender {α β γ : Type} (x : Handler C α) {f : α → Handler C β} {g : α → Handler C γ}
    (hfg : ∀ a s, ((f a).run s).2.noncesBySender = ((g a).run s).2.noncesBySender)
    (s : ServiceState C) :
    ((x >>= f).run s).2.noncesBySender = ((x >>= g).run s).2.noncesBySender := by
  rw [Proc.run_bind, Proc.run_bind]
  match x.run s with
  | (.ok a, s') => exact hfg a s'
  | (.error e, s') => rfl

theorem publish_noncesBySender (env : Env) (s : ServiceState C) :
    ((handlePublish R request env).run s).2.noncesBySender =
      ((Endpoint.publish.signatureStage R request env).run s).2.noncesBySender := by
  simp only [handlePublish, Endpoint.signatureStage]
  rw [bind_quiet (R := R) (publishSigned R request env),
    bind_quiet (R := R) (publishSigned R request env)]
  · exact fun _ => Proc.Leads.pure _
  · exact fun _ => (leads_publishEntry R fun _ => trivial).bind fun _ =>
      (leads_persistResult R _).bind fun _ => Proc.Leads.pure _

theorem keyRotate_noncesBySender (env : Env) (s : ServiceState C) :
    ((handleKeyRotate R request env).run s).2.noncesBySender =
      ((Endpoint.keyRotate.signatureStage R request env).run s).2.noncesBySender := by
  simp only [handleKeyRotate, Endpoint.signatureStage]
  rw [bind_quiet (R := R) (rotateSigned R request env),
    bind_quiet (R := R) (rotateSigned R request env)]
  · exact fun _ => Proc.Leads.pure _
  · exact fun _ => Proc.Leads.pure _

/-- A review that is read, or that no method matches, has no signature stage. -/
theorem review_noncesBySender (env : Env) (s : ServiceState C) :
    ((handleReview R request env).run s).2.noncesBySender =
      ((Endpoint.review.signatureStage R request env).run s).2.noncesBySender := by
  simp only [handleReview, Endpoint.signatureStage]
  apply bind_noncesBySender
  intro room s'
  by_cases hpost : request.method = "POST"
  · have hget : ¬ request.method = "GET" := by
      rw [hpost]
      decide
    rw [if_neg hget, if_pos hpost, if_pos hpost]
    unfold handleReviewPost
    rw [bind_quiet (R := R) (reviewSigned R request room env),
      bind_quiet (R := R) (reviewSigned R request room env)]
    · exact fun _ => Proc.Leads.pure _
    · exact fun _ => leads_reviewCommit _ _
  · rw [if_neg hpost, if_neg hpost]
    by_cases hget : request.method = "GET"
    · rw [if_pos hget]
      exact leads_quiet_keeps (leads_reviewGet R request room) s'
    · rw [if_neg hget]
      rfl

theorem handle_noncesBySender {env : Env} {endpoint : Endpoint}
    (h : Endpoint.ofPath request.pathname = some endpoint) (s : ServiceState C) :
    ((endpoint.handle R request env).run s).2.noncesBySender =
      ((endpoint.signatureStage R request env).run s).2.noncesBySender := by
  by_cases hsigns : endpoint.signs = true
  · cases endpoint with
    | publish => exact publish_noncesBySender env s
    | keyRotate => exact keyRotate_noncesBySender env s
    | review =>
      simp only [Endpoint.handle]
      exact review_noncesBySender env s
    | keyInfo | keyVerifyGitHub | githubWebhook | githubWebhookDlq | githubWebhookDlqRetry
    | triggerCallback | triggerResults | cacheExchangeDiscovery | cacheExchangePull
    | cacheExchangePush | cacheIssuesPull | cacheIssuesSync | ws | poll | inboxPending | inboxAck
    | presenceHeartbeat | presence => cases hsigns
  · have hquiet : (Allowed.quiet : Allowed C).Grants R request := by
      refine quiet_grants fun e he => ?_
      rw [h] at he
      cases he
      simpa using hsigns
    refine (leads_quiet_keeps (leads_handle hquiet env h) s).trans ?_
    cases endpoint with
    | publish | keyRotate | review => exact absurd rfl hsigns
    | keyInfo | keyVerifyGitHub | githubWebhook | githubWebhookDlq | githubWebhookDlqRetry
    | triggerCallback | triggerResults | cacheExchangeDiscovery | cacheExchangePull
    | cacheExchangePush | cacheIssuesPull | cacheIssuesSync | ws | poll | inboxPending | inboxAck
    | presenceHeartbeat | presence => rfl

/-- A request that runs alone leaves the nonce tables as its signature stage does. -/
theorem serve_noncesBySender (request : Request) (env : Env) (s : ServiceState C) :
    (serve R request env s).2.noncesBySender =
      ((signatureStage R request env).run s).2.noncesBySender := by
  have hnone : Endpoint.ofPath request.pathname = none →
      ((signatureStage R request env).run s).2.noncesBySender = s.noncesBySender := by
    intro h
    unfold signatureStage
    rw [h]
    exact leads_quiet_keeps (R := R) ((Proc.Leads.failWith _).bind fun _ => Proc.Leads.pure _) s
  unfold serve
  rw [serve_state]
  unfold fetch
  by_cases hhealth : request.pathname = "/health"
  · rw [if_pos hhealth, hnone (by rw [hhealth]; decide)]
    rfl
  rw [if_neg hhealth]
  by_cases hroot : request.pathname = "/"
  · rw [if_pos hroot, hnone (by rw [hroot]; decide)]
    rfl
  rw [if_neg hroot]
  unfold signatureStage
  cases hpath : Endpoint.ofPath request.pathname with
  | none =>
    simp only
    rw [bind_quiet (R := R) (Proc.failWith (checkAuth R request)),
      bind_quiet (R := R) (Proc.failWith (checkAuth R request))]
    · exact fun _ => Proc.Leads.pure _
    · exact fun _ => Proc.Leads.pure _
  | some endpoint =>
    unfold Endpoint.guarded
    exact bind_noncesBySender _ (fun _ s' => handle_noncesBySender hpath s') s

/-- The three things a request that runs alone can do to the nonce tables. -/
theorem serve_cases (request : Request) (env : Env) (s : ServiceState C) :
    (passes R request env s = none ∧
      PrunedFrom R s.noncesBySender (nowEpochSec env.nowMs) (serve R request env s).2) ∨
    ∃ x, passes R request env s = some x ∧
      Accepted R s.noncesBySender (nowEpochSec env.nowMs) x (serve R request env s).2 := by
  obtain ⟨hok, herror⟩ := triple_signatureStage (R := R) request env s rfl
  have hnonces := serve_noncesBySender (R := R) request env s
  unfold passes
  match hrun : (signatureStage R request env).run s with
  | (.error e, s') =>
    rw [hrun] at hnonces
    refine .inl ⟨rfl, ?_⟩
    rcases herror e s' hrun with h | ⟨sender, h⟩
    · exact .inl (hnonces.trans h)
    · exact .inr ⟨sender, hnonces.trans h⟩
  | (.ok none, s') =>
    rw [hrun] at hnonces
    exact .inl ⟨rfl, .inl (hnonces.trans (hok none s' hrun))⟩
  | (.ok (some x), s') =>
    rw [hrun] at hnonces
    obtain ⟨hcurrent, hunknown, hnamed, hrecorded⟩ := hok (some x) s' hrun
    exact .inr ⟨x, rfl, hcurrent, hunknown, hnamed, hnonces.trans hrecorded⟩

end

end BitRelay
