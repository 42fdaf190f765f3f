import BitRelay.KeyContinuity
import BitRelay.Worker.Objects

/-!
# One key across rooms

The registry of keys lives inside the object of a room, and the sender is one for all rooms. Trust
on first use holds for the requests of a sender that go to one object.

Results:
1. `serve_binds`: what an accepted request of a sender says about its key.
2. `serve_keeps_key`: only a rotation of the sender changes its key.
3. `serve_takes_key`: a request with the key in force is not refused for a mismatch.
4. `key_bound_of_one_object`: along every run through the worker a sender keeps to one key, if its
   publishes, reviews and rotations all go to one object.
-/

namespace BitRelay

/-! ## Signed requests -/

/-- The request is a publish or a review of the sender, with headers that present the key. -/
structure SignedBy (request : Request) (sender publicKey : String) : Prop where
  method : request.method = "POST"
  endpoint : Endpoint.ofPath request.pathname = some .publish ∨
    Endpoint.ofPath request.pathname = some .review
  sender : request.paramTrim "sender" = sender
  headers : ∃ auth, parsePublishAuthHeaders request = .ok (some auth) ∧ auth.publicKey = publicKey

/-- The request is a rotation of the sender to the key. -/
structure RotationOf (request : Request) (sender publicKey : String) : Prop where
  endpoint : Endpoint.ofPath request.pathname = some .keyRotate
  fields : ∃ parsed fields, request.body.json = some parsed ∧ parseRotateFields parsed = .ok fields ∧
    fields.sender = sender ∧ fields.newPublicKey = publicKey

/-- The refusal of a key that the sender is not bound to. -/
def keyMismatchResponse : Response := toErrorResponse "sender key mismatch" 409

/-- A request and its response. -/
structure Exchanged where
  request : Request
  response : Response

namespace Exchanged

def Accepts (x : Exchanged) (sender publicKey : String) : Prop :=
  SignedBy x.request sender publicKey ∧ x.response.status = 200

def Rotates (x : Exchanged) (sender publicKey : String) : Prop :=
  RotationOf x.request sender publicKey ∧ x.response.status = 200

/-- From here on the sender has this key. -/
def Binds (x : Exchanged) (sender publicKey : String) : Prop :=
  x.Accepts sender publicKey ∨ x.Rotates sender publicKey

end Exchanged

/-- Until the sender rotates its key, everything of it that is accepted carries the key that an
accepted request or a rotation has brought, and nothing with this key is a mismatch. -/
def KeyBound (trace : List Exchanged) (sender : String) : Prop :=
  ∀ before x between y after, trace = before ++ x :: (between ++ y :: after) →
    (∀ z ∈ between, ∀ publicKey, ¬ z.Rotates sender publicKey) →
    ∀ publicKey, x.Binds sender publicKey →
      (∀ publicKey', y.Accepts sender publicKey' → publicKey' = publicKey) ∧
      (SignedBy y.request sender publicKey → y.response ≠ keyMismatchResponse)

section
variable {C : Type}

/-- A request to the worker, and what it answers. -/
def Worker.exchange (W : Worker C) (w : WorkerState C) (arrival : Worker.Arrival) : Exchanged :=
  ⟨arrival.request, (W.fetch arrival.request arrival.env w).1⟩

/-- The requests of a run with their responses. -/
def Worker.exchanges (W : Worker C) : WorkerState C → List Worker.Arrival → List Exchanged
  | _, [] => []
  | w, arrival :: rest =>
    W.exchange w arrival :: W.exchanges (W.fetch arrival.request arrival.env w).2 rest

/-- The publishes, reviews and rotations of the sender go to the object of this name. -/
def OneObject (arrivals : List Worker.Arrival) (sender name : String) : Prop :=
  ∀ arrival ∈ arrivals, ∀ publicKey,
    SignedBy arrival.request sender publicKey ∨ RotationOf arrival.request sender publicKey →
      trim (resolveRelayRouteRoom arrival.request) = name

/-! ## One service -/

namespace CrossRoomLemmas

variable {R : Relay C} {request : Request} {env : Env} {s s' : ServiceState C}
  {sender publicKey : String}

/-! What the early answers are not: with the key in force, no mismatch. -/

/-- The answer is no success, and no mismatch either under the condition `c`. -/
def Refuses (c : Prop) (response : Response) : Prop :=
  response.status ≠ 200 ∧ (c → response ≠ keyMismatchResponse)

theorem refuses_of_status {c : Prop} {response : Response} (h : response.status ≠ 200)
    (h' : response.status ≠ 409) : Refuses c response :=
  ⟨h, fun _ heq => h' (by rw [heq]; rfl)⟩

theorem refuses_error {c : Prop} (message : String) {status : Nat} (h : status ≠ 200)
    (h' : status ≠ 409) : Refuses c (toErrorResponse message status) := refuses_of_status h h'

/-- Under the condition `c` the sender has this key. -/
def HasKey (c : Prop) (sender publicKey : String) (s : ServiceState C) : Prop :=
  c → s.keyRegistry.publicKeyOf sender = some publicKey

theorem hasKey_kept {α : Type} {c : Prop} {x : Handler C α}
    (h : Proc.Leads (Change R (Allowed.unkeyed : Allowed C)) x) {a : α}
    (hs : HasKey c sender publicKey s) (hrun : x.run s = (.ok a, s')) :
    HasKey c sender publicKey s' := by
  intro hc
  have hkept := KeyContinuityLemmas.keeps_key h (hs hc)
  rw [hrun] at hkept
  exact hkept

theorem parseAuth_status {response : Response}
    (h : parsePublishAuthHeaders request = .error response) : response.status = 400 := by
  unfold parsePublishAuthHeaders at h
  simp only at h
  split at h
  · cases h
  split at h
  · cases h
    rfl
  split at h
  · cases h
    rfl
  split at h
  · cases h
    rfl
  split at h
  · cases h
    rfl
  split at h
  · cases h
    rfl
  · cases h

theorem checkAuth_status {response : Response} (h : checkAuth R request = some response) :
    response.status = 401 := by
  unfold checkAuth at h
  simp only at h
  split at h
  · cases h
    rfl
  · cases h

theorem answers_requireRoom (c : Prop) (request : Request) :
    Proc.Answers (Refuses c) (requireRoom R request) := by
  refine .bind (.failIf (refuses_error _ (by decide) (by decide))) fun _ =>
    .bind (.failWith fun response h => ?_) fun _ => .pure _
  unfold checkRoomToken at h
  split at h
  · cases h
  · simp only at h
    split at h
    · cases h
      exact refuses_error _ (by decide) (by decide)
    · cases h

theorem answers_rateLimit (c : Prop) {table : ServiceState C → OrdMap String RateCounter}
    {store : ServiceState C → OrdMap String RateCounter → ServiceState C} {key : String}
    {now max windowMs : Nat} {error : String} :
    Proc.Answers (Refuses c) (rateLimit table store key now max windowMs error) :=
  .bind (.update _) fun _ => .failIf (refuses_error _ (by decide) (by decide))

theorem answers_publishArrive (c : Prop) (request : Request) (env : Env) :
    Proc.Answers (Refuses c) (publishArrive R request env) := by
  refine .bind (.failIf (refuses_error _ (by decide) (by decide))) fun _ =>
    .bind (.bind (.failIf (refuses_error _ (by decide) (by decide))) fun _ => .pure _) fun _ =>
    .bind (answers_requireRoom c request) fun _ => .bind ?_ fun _ =>
    .bind (answers_rateLimit c) fun _ => .bind (answers_rateLimit c) fun _ =>
    .bind (.failIf (refuses_error _ (by decide) (by decide))) fun _ => .pure _
  unfold ipRateLimit
  split
  · exact answers_rateLimit c
  · exact .pure _

theorem answers_checkFreshness (c : Prop) (sender nonce : String) (ts nowSec : Int) :
    Proc.Answers (Refuses c) (checkFreshness R sender nonce ts nowSec) := by
  refine .bind (.failIf (refuses_error _ (by decide) (by decide))) fun _ =>
    .bind (.update _) fun _ => .failIf ⟨by decide, fun _ => by decide⟩

theorem answers_publishBegin (c : Prop) (request : Request) (input : PublishInput) (env : Env) :
    Proc.Answers (Refuses c) (publishBegin R request input env) := by
  refine .bind (.failIf (refuses_error _ (by decide) (by decide))) fun _ =>
    .bind (.ofExcept fun response h => ?_) fun _ =>
    .bind (.bind (.ofExcept fun response h => ?_) fun auth => ?_) fun _ => .pure _
  · cases hbody : request.body.json with
    | some parsed =>
      rw [hbody] at h
      cases h
    | none =>
      rw [hbody] at h
      cases h
      exact refuses_error _ (by decide) (by decide)
  · have hstatus := parseAuth_status h
    exact refuses_of_status (by rw [hstatus]; decide) (by rw [hstatus]; decide)
  · cases auth with
    | none => exact .bind (.failIf (refuses_error _ (by decide) (by decide))) fun _ => .pure _
    | some auth =>
      exact .bind (.bind (answers_checkFreshness c _ _ _ _) fun _ => .pure _) fun _ => .pure _

/-- A verified signer whose key is in force is not refused for it. -/
theorem answers_finishSignature (c : Prop) (pending : PendingSignature) :
    Proc.AnswersFrom (HasKey c pending.sender pending.auth.publicKey) (Refuses c)
      (finishSignature R pending) := by
  refine .bind (Proc.Answers.answersFrom (.failIf (refuses_error _ (by decide) (by decide))) _)
    (Q := fun _ => HasKey c pending.sender pending.auth.publicKey) ?_ fun _ => ?_
  · intro s hs _ s' hrun
    obtain ⟨-, rfl⟩ := Proc.failIf_ok hrun
    exact hs
  · refine .bind (Q := fun _ _ => True) ?_ (fun _ _ _ _ _ => trivial) fun _ =>
      Proc.Answers.answersFrom (.modify _) _
    intro s hs response s' hrun
    unfold bindKey at hrun
    change ((Proc.ofExcept (ensureTofuKey s.keyRegistry pending.sender pending.auth.publicKey
      pending.nowSec) >>= fun keyRegistry => Proc.modify fun s => { s with keyRegistry } :
        Handler C Unit)).run s = _ at hrun
    cases hbind : ensureTofuKey s.keyRegistry pending.sender pending.auth.publicKey
        pending.nowSec with
    | ok keyRegistry =>
      rw [hbind] at hrun
      cases hrun
    | error refused =>
      rw [hbind] at hrun
      cases hrun
      unfold ensureTofuKey at hbind
      split at hbind
      · cases hbind
      · next record hrecord =>
        split at hbind
        · cases hbind
          exact refuses_error _ (by decide) (by decide)
        · split at hbind
          · next hmismatch =>
            cases hbind
            refine ⟨by decide, fun hc => absurd (hs hc) ?_⟩
            unfold KeyRegistry.publicKeyOf
            rw [hrecord, Option.map_some, Option.some.injEq]
            unfold timingSafeEqual at hmismatch
            exact of_decide_eq_false hmismatch
          · cases hbind

/-! Publish. -/

/-- The parameters of a publish, and with its headers the signer it waits for. -/
theorem publishBegin_signed {input : PublishInput} {payload : JsonValue}
    {pending : Option PendingSignature} {auth : PublishAuthHeaders}
    (hauth : parsePublishAuthHeaders request = .ok (some auth))
    (h : (publishBegin R request input env).run s = (.ok (payload, pending), s')) :
    ∃ p, pending = some p ∧ p.sender = input.sender ∧ p.auth = auth := by
  obtain ⟨_, s1, -, k1⟩ := Proc.bind_ok h
  obtain ⟨parsed, s2, -, k2⟩ := Proc.bind_ok k1
  obtain ⟨pending', s3, h3, k3⟩ := Proc.bind_ok k2
  cases k3
  obtain ⟨auth', s4, h4, k4⟩ := Proc.bind_ok h3
  obtain ⟨hheaders, -⟩ := Proc.ofExcept_ok h4
  rw [hauth] at hheaders
  cases hheaders
  obtain ⟨begun, s5, h5, k5⟩ := Proc.bind_ok k4
  obtain ⟨_, s6, -, k6⟩ := Proc.bind_ok h5
  cases k6
  cases k5
  exact ⟨_, rfl, rfl, rfl⟩

/-- A signed publish that passes its signature stage binds its sender to the key. -/
theorem publishSigned_binds {input : PublishInput} {payload : JsonValue}
    {pending : Option PendingSignature} {auth : PublishAuthHeaders}
    (hauth : parsePublishAuthHeaders request = .ok (some auth))
    (h : (publishSigned R request env).run s = (.ok (input, payload, pending), s')) :
    s'.keyRegistry.publicKeyOf (request.paramTrim "sender") = some auth.publicKey := by
  obtain ⟨input', s1, h1, k1⟩ := Proc.bind_ok h
  obtain ⟨⟨payload', pending'⟩, s2, h2, k2⟩ := Proc.bind_ok k1
  obtain ⟨p, rfl, hsender, rfl⟩ := publishBegin_signed hauth h2
  obtain ⟨_, s3, h3, k3⟩ := Proc.bind_ok k2
  cases k3
  obtain ⟨-, keyRegistry, hkey, rfl⟩ := finishSignature_ok h3
  obtain ⟨rfl, -⟩ := publishArrive_ok h1
  dsimp only at hsender
  rw [← hsender]
  exact (ensureTofuKey_ok hkey).1

/-- The refusals of a signed publish. -/
theorem answers_publishSigned (c : Prop) {auth : PublishAuthHeaders}
    (hauth : parsePublishAuthHeaders request = .ok (some auth)) (env : Env) :
    Proc.AnswersFrom (HasKey c (request.paramTrim "sender") auth.publicKey) (Refuses c)
      (publishSigned R request env) := by
  refine .bind (Proc.Answers.answersFrom (answers_publishArrive c request env) _)
    (Q := fun input s => input.sender = request.paramTrim "sender" ∧
      HasKey c (request.paramTrim "sender") auth.publicKey s) ?_ fun input => ?_
  · exact fun s hs input s' hrun =>
      ⟨congrArg PublishInput.sender (publishArrive_ok hrun).1, hasKey_kept (leads_publishArrive env) hs hrun⟩
  refine .bind (Proc.Answers.answersFrom (answers_publishBegin c request input env) _)
    (Q := fun begun s => ∃ p, begun.2 = some p ∧ HasKey c p.sender p.auth.publicKey s) ?_
    fun begun => ?_
  · rintro s ⟨hsender, hs⟩ ⟨payload, pending⟩ s' hrun
    obtain ⟨p, rfl, hp, rfl⟩ := publishBegin_signed hauth hrun
    refine ⟨p, rfl, ?_⟩
    rw [hp, hsender]
    exact hasKey_kept (leads_publishBegin trivial input env) hs hrun
  obtain ⟨payload, pending⟩ := begun
  rintro s ⟨p, rfl, hs⟩
  exact Proc.AnswersFrom.bind (Q := fun _ _ => True) (answers_finishSignature c p)
    (fun _ _ _ _ _ => trivial) (fun _ => Proc.Answers.answersFrom (.pure _) _) s hs

/-- A signature stage in front of what it admits. -/
structure Stage {α : Type} (c : Prop) (sender publicKey : String) (signed : Handler C α)
    (commit : α → Handler C Response) : Prop where
  refuses : Proc.AnswersFrom (HasKey c sender publicKey) (Refuses c) signed
  binds : ∀ s a s', signed.run s = (.ok a, s') →
    s'.keyRegistry.publicKeyOf sender = some publicKey
  commits : ∀ a s, ∃ response s', (commit a).run s = (.ok response, s') ∧
    response ≠ keyMismatchResponse ∧ s'.keyRegistry = s.keyRegistry

/-- A request is refused, or it binds its sender to the key. -/
theorem Stage.serve {α : Type} {c : Prop} {signed : Handler C α} {commit : α → Handler C Response}
    (h : Stage c sender publicKey signed commit) (R : Relay C) (request : Request)
    (hs : HasKey c sender publicKey s) :
    let served := Handler.serve (Proc.failWith (checkAuth R request) >>= fun _ =>
      signed >>= commit) s
    (c → served.1 ≠ keyMismatchResponse) ∧
      (served.1.status = 200 → served.2.keyRegistry.publicKeyOf sender = some publicKey) := by
  intro served
  cases hauth : checkAuth R request with
  | some refused =>
    have hserved : served = (refused, s) := by
      show Handler.serve (Proc.failWith (checkAuth R request) >>= fun _ => signed >>= commit) s = _
      rw [hauth]
      rfl
    rw [hserved]
    have hrefuses : Refuses c refused := by
      have hstatus := checkAuth_status hauth
      exact refuses_of_status (by rw [hstatus]; decide) (by rw [hstatus]; decide)
    exact ⟨hrefuses.2, fun h200 => absurd h200 hrefuses.1⟩
  | none =>
    have hserved : served = Handler.serve (signed >>= commit) s := by
      show Handler.serve (Proc.failWith (checkAuth R request) >>= fun _ => signed >>= commit) s = _
      rw [hauth]
      rfl
    rw [hserved]
    unfold Handler.serve
    match hrun : signed.run s with
    | (.error refused, s') =>
      rw [Proc.run_bind_of_error hrun]
      have hrefuses := h.refuses s hs refused s' hrun
      exact ⟨hrefuses.2, fun h200 => absurd h200 hrefuses.1⟩
    | (.ok a, s') =>
      rw [Proc.run_bind_of_ok hrun]
      obtain ⟨response, s'', hcommit, hne, hkeys⟩ := h.commits a s'
      rw [hcommit]
      refine ⟨fun _ => hne, fun _ => ?_⟩
      show s''.keyRegistry.publicKeyOf sender = _
      rw [hkeys]
      exact h.binds s a s' hrun

theorem toResponse_ne_mismatch (result : PublishResult) :
    result.toResponse ≠ keyMismatchResponse := by
  intro h
  have hstatus : result.status = 409 := congrArg Response.status h
  cases result with
  | invalidTopic _ => exact absurd hstatus (show (400 : Nat) ≠ 409 by decide)
  | known _ | accepted _ _ => exact absurd hstatus (show (200 : Nat) ≠ 409 by decide)

theorem persistResult_keyRegistry (R : Relay C) (result : PublishResult) (s : ServiceState C) :
    (ServiceState.persistResult R result s).keyRegistry = s.keyRegistry := by
  cases result <;> rfl

theorem stage_publish (c : Prop) {auth : PublishAuthHeaders}
    (hauth : parsePublishAuthHeaders request = .ok (some auth)) (env : Env) :
    Stage c (request.paramTrim "sender") auth.publicKey (publishSigned R request env) fun p =>
      publishCommit R p.1 p.2.1 p.2.2 >>= fun result =>
        Proc.modify (ServiceState.persistResult R result) >>= fun _ =>
          pure result.toResponse where
  refuses := answers_publishSigned c hauth env
  binds _ _ _ hrun := publishSigned_binds hauth hrun
  commits p s := by
    refine ⟨_, _, rfl, toResponse_ne_mismatch _, ?_⟩
    show (ServiceState.persistResult R _ _).keyRegistry = _
    rw [persistResult_keyRegistry]
    exact publishEntry_keyRegistry s _ _ _ _ _ _ _ _ _

/-! Reviews. -/

theorem reviewBegin_signed {room : String} {input : ReviewInput} {pending : PendingSignature}
    {auth : PublishAuthHeaders} (hauth : parsePublishAuthHeaders request = .ok (some auth))
    (h : (reviewBegin R request room env).run s = (.ok (input, pending), s')) :
    pending.sender = request.paramTrim "sender" ∧ pending.auth = auth := by
  obtain ⟨sender, s1, h1, k1⟩ := Proc.bind_ok h
  obtain ⟨_, s2, -, k2⟩ := Proc.bind_ok h1
  cases k2
  obtain ⟨_, s3, -, k3⟩ := Proc.bind_ok k1
  obtain ⟨_, s4, -, k4⟩ := Proc.bind_ok k3
  obtain ⟨_, s5, -, k5⟩ := Proc.bind_ok k4
  obtain ⟨presented, s6, h6, k6⟩ := Proc.bind_ok k5
  obtain ⟨hpresented, -⟩ := Proc.ofExcept_ok h6
  rw [hauth] at hpresented
  cases hpresented
  obtain ⟨auth', s7, h7, k7⟩ := Proc.bind_ok k6
  obtain ⟨hsome, -⟩ := Proc.ofExcept_ok h7
  cases hsome
  obtain ⟨pending', s8, h8, k8⟩ := Proc.bind_ok k7
  obtain ⟨_, s9, -, k9⟩ := Proc.bind_ok h8
  cases k9
  cases k8
  exact ⟨rfl, rfl⟩

theorem answers_reviewBegin (c : Prop) {auth : PublishAuthHeaders}
    (hauth : parsePublishAuthHeaders request = .ok (some auth)) (room : String) (env : Env) :
    Proc.Answers (Refuses c) (reviewBegin R request room env) := by
  refine .bind (.bind (.failIf (refuses_error _ (by decide) (by decide))) fun _ => .pure _)
    fun _ => .bind (.bind (.failIf (refuses_error _ (by decide) (by decide))) fun _ => .pure _)
    fun _ => .bind (.failIf (refuses_error _ (by decide) (by decide))) fun _ =>
    .bind (.ofExcept fun response h => ?_) fun _ => .bind (.ofExcept fun response h => ?_)
    fun presented => .bind (.ofExcept fun response h => ?_) fun _ =>
    .bind (.bind (answers_checkFreshness c _ _ _ _) fun _ => .pure _) fun _ => .pure _
  · cases hverdict : parseVerdict (request.paramTrim "verdict") with
    | some verdict =>
      rw [hverdict] at h
      cases h
    | none =>
      rw [hverdict] at h
      cases h
      exact refuses_error _ (by decide) (by decide)
  · rw [hauth] at h
    cases h
  · cases presented with
    | some _ => cases h
    | none =>
      cases h
      exact refuses_error _ (by decide) (by decide)

theorem stage_review (c : Prop) {auth : PublishAuthHeaders}
    (hauth : parsePublishAuthHeaders request = .ok (some auth)) (env : Env) :
    Stage c (request.paramTrim "sender") auth.publicKey
      (requireRoom R request >>= fun room => reviewSigned R request room env) fun p =>
      reviewCommit p.1 p.2 where
  refuses := by
    refine .bind (Proc.Answers.answersFrom (answers_requireRoom c request) _)
      (Q := fun _ => HasKey c (request.paramTrim "sender") auth.publicKey)
      (fun s hs room s' hrun => hasKey_kept (leads_requireRoom R request) hs hrun) fun room => ?_
    refine .bind (Proc.Answers.answersFrom (answers_reviewBegin c hauth room env) _)
      (Q := fun begun => HasKey c begun.2.sender begun.2.auth.publicKey) ?_ fun begun => ?_
    · rintro s hs ⟨input, pending⟩ s' hrun
      obtain ⟨hsender, hp⟩ := reviewBegin_signed hauth hrun
      rw [hsender, hp]
      exact hasKey_kept (leads_reviewBegin trivial room env) hs hrun
    · exact .bind (Q := fun _ _ => True) (answers_finishSignature c begun.2)
        (fun _ _ _ _ _ => trivial) fun _ => Proc.Answers.answersFrom (.pure _) _
  binds s p s' hrun := by
    obtain ⟨room, s1, -, k1⟩ := Proc.bind_ok hrun
    obtain ⟨⟨input, pending⟩, s2, h2, k2⟩ := Proc.bind_ok k1
    obtain ⟨hsender, hp⟩ := reviewBegin_signed hauth h2
    obtain ⟨_, s3, h3, k3⟩ := Proc.bind_ok k2
    cases k3
    obtain ⟨-, keyRegistry, hkey, rfl⟩ := finishSignature_ok h3
    rw [← hsender, ← hp]
    exact (ensureTofuKey_ok hkey).1
  commits p s := by
    refine ⟨_, _, rfl, fun h => ?_, rfl⟩
    have hstatus : (200 : Nat) = 409 := congrArg Response.status h
    cases hstatus

/-! Rotations. -/

theorem answers_rotateBegin (request : Request) (env : Env) :
    Proc.Answers (Refuses False) (rotateBegin R request env) := by
  refine .bind ?_ fun parsed => .bind (.ofExcept fun response h => ?_) fun fields =>
    .bind (answers_checkFreshness False _ _ _ _) fun _ => .bind (.gets _) fun record =>
    .bind (.ofExcept fun response h => ?_) fun _ => .pure _
  · unfold requireObject
    split
    · exact .pure _
    · exact .answer (refuses_error _ (by decide) (by decide))
  · unfold parseRotateFields at h
    simp only at h
    repeat' split at h
    all_goals cases h
    all_goals exact refuses_error _ (by decide) (by decide)
  · unfold activeKey at h
    repeat' split at h
    all_goals cases h
    all_goals exact refuses_error _ (by decide) (by decide)

theorem answers_rotateSigned (request : Request) (env : Env) :
    Proc.Answers (Refuses False) (rotateSigned R request env) :=
  .bind (.failIf (refuses_error _ (by decide) (by decide))) fun _ =>
    .bind (answers_rotateBegin request env) fun _ =>
    .bind (.bind (.failIf (refuses_error _ (by decide) (by decide))) fun _ =>
      .bind (.failIf (refuses_error _ (by decide) (by decide))) fun _ =>
      .bind (.modify _) fun _ => .modify _) fun _ => .pure _

/-- A rotation that goes through: the sender of its body has the new key, and nobody else loses
one. -/
theorem rotateSigned_ok (sender publicKey : String) {pending : PendingRotate}
    (h : (rotateSigned R request env).run s = (.ok pending, s')) :
    FieldsOf request pending.fields ∧
      s'.keyRegistry.publicKeyOf pending.fields.sender = some pending.fields.newPublicKey ∧
      (s.keyRegistry.publicKeyOf sender = some publicKey → sender ≠ pending.fields.sender →
        s'.keyRegistry.publicKeyOf sender = some publicKey) := by
  obtain ⟨_, s1, h1, k1⟩ := Proc.bind_ok h
  obtain ⟨-, rfl⟩ := Proc.failIf_ok h1
  obtain ⟨pending', s2, h2, k2⟩ := Proc.bind_ok k1
  obtain ⟨_, s3, h3, k3⟩ := Proc.bind_ok k2
  cases k3
  obtain ⟨hfields, hkey⟩ := KeyContinuityLemmas.rotateBegin_ok h2
  obtain ⟨-, -, f, hf, rfl⟩ := rotateCommit_ok h3
  refine ⟨hfields, ?_, fun hs hne => ?_⟩
  · show (s2.updateKey pending.fields.sender f).keyRegistry.publicKeyOf _ = _
    rw [KeyContinuityLemmas.publicKeyOf_rekey _ _ _ _ hf, if_pos rfl, hkey]
    rfl
  · show (s2.updateKey pending.fields.sender f).keyRegistry.publicKeyOf _ = _
    rw [KeyContinuityLemmas.publicKeyOf_rekey _ _ _ _ hf, if_neg hne]
    have hleads : Proc.Leads (Change R (Allowed.unkeyed : Allowed C)) (rotateBegin R request env) :=
      leads_rotateBegin trivial env
    have hkept := KeyContinuityLemmas.keeps_key hleads hs
    rw [h2] at hkept
    exact hkept

/-- A rotation that is refused takes no key away. -/
theorem rotateSigned_error {e : Response}
    (h : (rotateSigned R request env).run s = (.error e, s'))
    (hs : s.keyRegistry.publicKeyOf sender = some publicKey) :
    s'.keyRegistry.publicKeyOf sender = some publicKey := by
  have hkeep : Proc.Triple (fun s => s.keyRegistry.publicKeyOf sender = some publicKey)
      (rotateSigned R request env) (fun _ _ => True)
      (fun s => s.keyRegistry.publicKeyOf sender = some publicKey) := by
    have hchange : ∀ s s', Change R (Allowed.unkeyed : Allowed C) s s' →
        s.keyRegistry.publicKeyOf sender = some publicKey →
          s'.keyRegistry.publicKeyOf sender = some publicKey :=
      fun s s' hstep => hstep.publicKeyOf fun hrekeys => hrekeys
    refine (Proc.Triple.of_leads (leads_requireMethod R _ _) hchange).bind fun _ =>
      (Proc.Triple.of_leads (leads_rotateBegin trivial env) hchange).bind fun pending => ?_
    refine Proc.Triple.bind (Q := fun _ _ => True) ?_ fun _ => Proc.Triple.pure fun _ _ => trivial
    intro s hs
    refine ⟨fun _ _ _ => trivial, fun e s' hrun => ?_⟩
    rw [KeyContinuityLemmas.rotateCommit_error hrun]
    exact hs
  exact (hkeep s hs).2 e s' h

/-- The cases of a request to rotate. -/
theorem serve_keyRotate (R : Relay C) (env : Env) (s : ServiceState C) (sender publicKey : String)
    (hendpoint : Endpoint.ofPath request.pathname = some .keyRotate) :
    ((serve R request env s).1.status ≠ 200 ∧
      (s.keyRegistry.publicKeyOf sender = some publicKey →
        (serve R request env s).2.keyRegistry.publicKeyOf sender = some publicKey)) ∨
    ∃ pending, (serve R request env s).1 = PendingRotate.toResponse pending ∧
      (rotateSigned R request env).run s = (.ok pending, (serve R request env s).2) := by
  rw [serve_endpoint hendpoint]
  have hguarded : Endpoint.guarded R request env .keyRotate =
      (Proc.failWith (checkAuth R request) >>= fun _ => rotateSigned R request env >>= fun pending =>
        pure pending.toResponse) := rfl
  rw [hguarded]
  cases hauth : checkAuth R request with
  | some refused =>
    refine .inl ⟨?_, fun hs => hs⟩
    show refused.status ≠ 200
    rw [checkAuth_status hauth]
    decide
  | none =>
    have hserve : Handler.serve (Proc.failWith none >>= fun _ => rotateSigned R request env >>=
        fun pending => pure pending.toResponse) s =
      Handler.serve (rotateSigned R request env >>= fun pending => pure pending.toResponse) s := rfl
    rw [hserve]
    unfold Handler.serve
    match hrun : (rotateSigned R request env).run s with
    | (.error refused, s') =>
      rw [Proc.run_bind_of_error hrun]
      exact .inl ⟨(answers_rotateSigned request env s refused s' hrun).1,
        fun hs => rotateSigned_error hrun hs⟩
    | (.ok pending, s') =>
      rw [Proc.run_bind_of_ok hrun]
      exact .inr ⟨pending, rfl, rfl⟩

end CrossRoomLemmas

open CrossRoomLemmas

/-! ## One request -/

section
variable {R : Relay C} {request : Request} {env : Env} {s : ServiceState C}
  {sender publicKey : String}

theorem serve_signed (c : Prop) (h : SignedBy request sender publicKey)
    (hs : HasKey c sender publicKey s) :
    (c → (serve R request env s).1 ≠ keyMismatchResponse) ∧
      ((serve R request env s).1.status = 200 →
        (serve R request env s).2.keyRegistry.publicKeyOf sender = some publicKey) := by
  obtain ⟨hmethod, hendpoint, rfl, auth, hauth, rfl⟩ := h
  rcases hendpoint with hpublish | hreview
  · rw [serve_endpoint hpublish]
    have hstage := (stage_publish (R := R) c hauth env).serve R request hs
    exact hstage
  · rw [serve_endpoint hreview]
    have hhandle : handleReview R request env =
        (requireRoom R request >>= fun room => reviewSigned R request room env) >>= fun p =>
          reviewCommit p.1 p.2 := by
      unfold handleReview handleReviewPost
      rw [bind_assoc]
      refine bind_congr fun room => ?_
      rw [if_neg (by rw [hmethod]; decide), if_pos hmethod]
    have hstage := (stage_review (R := R) c hauth env).serve R request hs
    rw [← hhandle] at hstage
    exact hstage

/-- An accepted publish or review says which key its sender has. -/
theorem serve_binds (h : SignedBy request sender publicKey)
    (h200 : (serve R request env s).1.status = 200) :
    (serve R request env s).2.keyRegistry.publicKeyOf sender = some publicKey :=
  (serve_signed False h fun hfalse => hfalse.elim).2 h200

/-- With the key in force it is no mismatch. -/
theorem serve_takes_key (h : SignedBy request sender publicKey)
    (hs : s.keyRegistry.publicKeyOf sender = some publicKey) :
    (serve R request env s).1 ≠ keyMismatchResponse :=
  (serve_signed True h fun _ => hs).1 trivial

/-- A rotation that succeeds leaves the new key. -/
theorem serve_rotates (h : RotationOf request sender publicKey)
    (h200 : (serve R request env s).1.status = 200) :
    (serve R request env s).2.keyRegistry.publicKeyOf sender = some publicKey := by
  obtain ⟨hendpoint, parsed, fields, hbody, hparse, rfl, rfl⟩ := h
  rcases serve_keyRotate R env s fields.sender fields.newPublicKey hendpoint with
    ⟨hrefused, -⟩ | ⟨pending, -, hrun⟩
  · exact absurd h200 hrefused
  · obtain ⟨⟨parsed', hbody', hparse'⟩, hnew, -⟩ :=
      rotateSigned_ok fields.sender fields.newPublicKey hrun
    cases hbody.symm.trans hbody'
    cases hparse.symm.trans hparse'
    exact hnew

/-- Only a rotation of the sender that succeeds changes its key. -/
theorem serve_keeps_key (hs : s.keyRegistry.publicKeyOf sender = some publicKey)
    (h : ∀ newKey, RotationOf request sender newKey → (serve R request env s).1.status ≠ 200) :
    (serve R request env s).2.keyRegistry.publicKeyOf sender = some publicKey := by
  by_cases hendpoint : Endpoint.ofPath request.pathname = some .keyRotate
  · rcases serve_keyRotate R env s sender publicKey hendpoint with ⟨-, hkept⟩ | ⟨pending, hresponse, hrun⟩
    · exact hkept hs
    · obtain ⟨⟨parsed, hbody, hparse⟩, -, hother⟩ :=
        rotateSigned_ok sender publicKey hrun
      refine hother hs fun heq => ?_
      refine h pending.fields.newPublicKey
        ⟨hendpoint, parsed, pending.fields, hbody, hparse, heq.symm, rfl⟩ ?_
      rw [hresponse]
      rfl
  · have hchain := leads_serve (entitlement_grants R request) env s
    generalize (serve R request env s).2 = t at hchain ⊢
    induction hchain with
    | refl => exact hs
    | tail _ hstep ih => exact hstep.publicKeyOf hendpoint ih

end

/-! ## The worker -/

section
variable {W : Worker C} {w : WorkerState C} {arrival : Worker.Arrival} {sender publicKey name : String}

namespace CrossRoomLemmas

/-- A request to one of the key endpoints is turned away, or answered by one object. -/
theorem fetch_signed (hrequest : SignedBy arrival.request sender publicKey ∨
      RotationOf arrival.request sender publicKey)
    (hname : trim (resolveRelayRouteRoom arrival.request) = name) :
    W.fetch arrival.request arrival.env w = (invalidRoomResponse, w) ∨
    ((W.fetch arrival.request arrival.env w).1 =
        (serve (W.object name) arrival.request (arrival.env name) (w name)).1 ∧
      (W.fetch arrival.request arrival.env w).2 = Function.update w name
        (serve (W.object name) arrival.request (arrival.env name) (w name)).2) := by
  have hpath : arrival.request.pathname ∈
      ["/api/v1/publish", "/api/v1/review", "/api/v1/key/rotate"] := by
    rcases hrequest with h | h
    · rcases h.endpoint with hpublish | hreview
      · rw [Endpoint.path_of hpublish]
        decide
      · rw [Endpoint.path_of hreview]
        decide
    · rw [Endpoint.path_of h.endpoint]
      decide
  have hplain : ∀ pathname ∈ ["/api/v1/publish", "/api/v1/review", "/api/v1/key/rotate"],
      isElsewhere pathname = false ∧ pathname ≠ "/health" ∧ isRelayRoute pathname = true ∧
        pathname ≠ "/api/v1/cache/exchange/push" := by
    decide
  obtain ⟨helse, hhealth, hroute, hpush⟩ := hplain _ hpath
  have hentries : Worker.routesByEntries arrival.request = false := by
    unfold Worker.routesByEntries
    rw [beq_eq_false_iff_ne.mpr hpush]
    rfl
  have hfetch : W.fetch arrival.request arrival.env w =
      if isValidRoomName name = false then (invalidRoomResponse, w)
      else W.forward name arrival.request arrival.env w := by
    unfold Worker.fetch
    rw [if_neg (by rw [helse]; decide), if_neg hhealth, if_neg (by rw [hroute]; decide),
      if_neg (by rw [hentries]; decide)]
    simp only [hname]
  rw [hfetch]
  split
  · exact .inl rfl
  · exact .inr ⟨ObjectLemmas.forward_response _ _ _ _, WorkerLemmas.forward_state _ _ _ _⟩

/-- A request that binds the sender leaves the key in the object. -/
theorem key_of_binds (hone : OneObject [arrival] sender name)
    (h : (W.exchange w arrival).Binds sender publicKey) :
    ((W.fetch arrival.request arrival.env w).2 name).keyRegistry.publicKeyOf sender =
      some publicKey := by
  have hrequest : SignedBy arrival.request sender publicKey ∨
      RotationOf arrival.request sender publicKey := h.imp And.left And.left
  have hname := hone arrival List.mem_cons_self publicKey hrequest
  rcases fetch_signed (W := W) (w := w) hrequest hname with hrefused | ⟨hresponse, hstate⟩
  · have h200 : (W.fetch arrival.request arrival.env w).1.status = 200 := h.elim And.right And.right
    rw [hrefused] at h200
    exact absurd h200 (show (400 : Nat) ≠ 200 by decide)
  · rw [hstate, Function.update_self]
    rcases h with ⟨hsigned, h200⟩ | ⟨hrotation, h200⟩
    · exact serve_binds hsigned (hresponse ▸ h200)
    · exact serve_rotates hrotation (hresponse ▸ h200)

/-- Any other request leaves it there. -/
theorem key_kept (hone : OneObject [arrival] sender name)
    (hrotates : ∀ newKey, ¬ (W.exchange w arrival).Rotates sender newKey)
    (hkey : (w name).keyRegistry.publicKeyOf sender = some publicKey) :
    ((W.fetch arrival.request arrival.env w).2 name).keyRegistry.publicKeyOf sender =
      some publicKey := by
  by_cases hrotation : ∃ newKey, RotationOf arrival.request sender newKey
  · obtain ⟨newKey, hrotation⟩ := hrotation
    have hname := hone arrival List.mem_cons_self newKey (.inr hrotation)
    rcases fetch_signed (W := W) (w := w) (.inr hrotation) hname with hrefused | ⟨hresponse, hstate⟩
    · rw [hrefused]
      exact hkey
    · rw [hstate, Function.update_self]
      exact serve_keeps_key hkey fun newKey' hrotation' h200 =>
        hrotates newKey' ⟨hrotation', show (W.fetch _ _ _).1.status = 200 from hresponse ▸ h200⟩
  · -- No call at the object is a rotation of the sender.
    obtain ⟨calls, hcalls⟩ := fetch_at (W := W) arrival.request arrival.env w name
    rw [hcalls.state]
    have hnone : ∀ call ∈ calls, ∀ newKey, ¬ RotationOf call.request sender newKey := by
      intro call hcall newKey hcallRotation
      have hforwarded := (hcalls.forwarded call hcall).2.2
      have hentries : Worker.routesByEntries arrival.request = false := by
        unfold Worker.routesByEntries
        rw [← hforwarded.pathname, Endpoint.path_of hcallRotation.endpoint]
        rfl
      rw [hforwarded.whole hentries] at hcallRotation
      exact hrotation ⟨newKey, hcallRotation⟩
    clear hcalls
    generalize w name = s at hkey
    induction calls generalizing s with
    | nil => exact hkey
    | cons call rest ih =>
      refine ih (fun c hc => hnone c (List.mem_cons_of_mem _ hc)) _ ?_
      exact serve_keeps_key hkey fun newKey hcall =>
        absurd hcall (hnone call List.mem_cons_self newKey)

/-- A part of the trace is the trace of a part of the run. -/
theorem exchanges_split {arrivals : List Worker.Arrival} {before rest : List Exchanged}
    (h : W.exchanges w arrivals = before ++ rest) :
    ∃ earlier later, arrivals = earlier ++ later ∧ W.exchanges w earlier = before ∧
      W.exchanges (W.afterArrivals w earlier) later = rest := by
  induction before generalizing w arrivals with
  | nil => exact ⟨[], arrivals, rfl, rfl, h⟩
  | cons x before ih =>
    cases arrivals with
    | nil => cases h
    | cons arrival arrivals =>
      obtain ⟨hx, htail⟩ := List.cons.inj h
      obtain ⟨earlier, later, rfl, hearlier, hlater⟩ := ih htail
      refine ⟨arrival :: earlier, later, rfl, ?_, hlater⟩
      show W.exchange w arrival :: _ = _
      rw [hx, hearlier]

theorem exchanges_cons {arrivals : List Worker.Arrival} {x : Exchanged} {rest : List Exchanged}
    (h : W.exchanges w arrivals = x :: rest) :
    ∃ arrival later, arrivals = arrival :: later ∧ W.exchange w arrival = x ∧
      W.exchanges (W.fetch arrival.request arrival.env w).2 later = rest := by
  cases arrivals with
  | nil => cases h
  | cons arrival later =>
    obtain ⟨hx, hrest⟩ := List.cons.inj h
    exact ⟨arrival, later, rfl, hx, hrest⟩

/-- Along a part of a run without a rotation of the sender, its key stays. -/
theorem key_kept_along {arrivals : List Worker.Arrival} (hone : OneObject arrivals sender name)
    (hrotates : ∀ z ∈ W.exchanges w arrivals, ∀ newKey, ¬ z.Rotates sender newKey)
    (hkey : (w name).keyRegistry.publicKeyOf sender = some publicKey) :
    (W.afterArrivals w arrivals name).keyRegistry.publicKeyOf sender = some publicKey := by
  induction arrivals generalizing w with
  | nil => exact hkey
  | cons arrival rest ih =>
    refine ih (fun a ha => hone a (List.mem_cons_of_mem _ ha))
      (fun z hz => hrotates z (List.mem_cons_of_mem _ hz)) ?_
    exact key_kept (fun a ha => hone a (List.mem_singleton.mp ha ▸ List.mem_cons_self))
      (hrotates _ List.mem_cons_self) hkey

end CrossRoomLemmas

/-- Along every run through the worker a sender keeps to one key from rotation to rotation, if its
publishes, reviews and rotations all go to one object. -/
theorem key_bound_of_one_object (W : Worker C) (w : WorkerState C)
    (arrivals : List Worker.Arrival) (sender name : String)
    (hone : OneObject arrivals sender name) : KeyBound (W.exchanges w arrivals) sender := by
  intro before x between y after htrace hbetween publicKey hbinds
  obtain ⟨earlier, fromX, rfl, -, hfromX⟩ := exchanges_split htrace
  obtain ⟨a, behindX, rfl, rfl, hbehindX⟩ := exchanges_cons hfromX
  obtain ⟨middle, fromY, rfl, rfl, hfromY⟩ := exchanges_split hbehindX
  obtain ⟨b, last, rfl, rfl, -⟩ := exchanges_cons hfromY
  generalize W.afterArrivals w earlier = w₁ at *
  have hmem : ∀ arrival, arrival = a ∨ arrival ∈ middle ∨ arrival = b →
      arrival ∈ earlier ++ a :: (middle ++ b :: last) := by
    simp only [List.mem_append, List.mem_cons]
    tauto
  have hkey : ((W.fetch a.request a.env w₁).2 name).keyRegistry.publicKeyOf sender = some publicKey :=
    key_of_binds (fun c hc => hone c (hmem c (.inl (List.mem_singleton.mp hc)))) hbinds
  have hkey' := key_kept_along (fun c hc => hone c (hmem c (.inr (.inl hc)))) hbetween hkey
  have honeb : OneObject [b] sender name :=
    fun c hc => hone c (hmem c (.inr (.inr (List.mem_singleton.mp hc))))
  refine ⟨fun publicKey' haccepts => ?_, fun hsigned => ?_⟩
  · -- The request leaves its own key in the object, and it leaves the one that was there.
    have hnew := key_of_binds honeb (.inl haccepts)
    have hrotates : ∀ newKey, ¬ (W.exchange (W.afterArrivals
        (W.fetch a.request a.env w₁).2 middle) b).Rotates sender newKey := by
      rintro newKey ⟨hrotation, -⟩
      rcases haccepts.1.endpoint with h | h <;>
        exact absurd (h.symm.trans hrotation.endpoint) (by decide)
    exact Option.some.inj (hnew.symm.trans (key_kept honeb hrotates hkey'))
  · rcases fetch_signed (W := W) (.inl hsigned)
      (honeb b List.mem_cons_self publicKey (.inl hsigned)) with hrefused | ⟨hresponse, -⟩
    · show (W.fetch _ _ _).1 ≠ _
      rw [hrefused]
      exact fun h => absurd (congrArg Response.status h) (show (400 : Nat) ≠ 409 by decide)
    · show (W.fetch _ _ _).1 ≠ _
      rw [hresponse]
      exact serve_takes_key hsigned hkey'

end

end

/-! ## On the toy host -/

/-- A worker on the toy host, whose objects require signatures. -/
def tofuWorker : Worker Unit := ⟨.toy .default, fun name => name, fun _ => notFoundResponse⟩

/-- A publish of `alice` into a room, signed under a key. -/
def publishInto (room publicKey nonce : String) : Worker.Arrival where
  request := .post "/api/v1/publish" [("room", room), ("sender", "alice"), ("id", nonce)]
    (toyHeaders publicKey "1000" nonce) ⟨"null", some .null⟩
  env _ := .at 1000000

/-- A rotation of `alice` from `k1` to `k2`, without a room in its query. -/
def rotationOfAlice : Worker.Arrival := ⟨rotationTo "k2" "n9", fun _ => .at 1000000⟩

theorem signedBy_publishInto (room publicKey nonce : String)
    (h : parsePublishAuthHeaders (publishInto room publicKey nonce).request =
      .ok (some ⟨publicKey, publicKey, 1000, nonce⟩)) :
    SignedBy (publishInto room publicKey nonce).request "alice" publicKey where
  method := rfl
  endpoint := .inl (show Endpoint.ofPath "/api/v1/publish" = some .publish by decide)
  sender := show trim "alice" = "alice" by decide
  headers := ⟨_, h, rfl⟩

theorem oneObject_main : OneObject [publishInto "main" "k1" "n1", rotationOfAlice,
    publishInto "main" "k2" "n2"] "alice" "main" := by
  intro arrival harrival _ _
  have hall : ∀ arrival ∈ [publishInto "main" "k1" "n1", rotationOfAlice,
      publishInto "main" "k2" "n2"],
      trim (resolveRelayRouteRoom arrival.request) = "main" := by decide
  exact hall arrival harrival

theorem key_bound_in_main :
    KeyBound (tofuWorker.exchanges (fun _ => .init ()) [publishInto "main" "k1" "n1",
      rotationOfAlice, publishInto "main" "k2" "n2"]) "alice" :=
  key_bound_of_one_object tofuWorker (fun _ => .init ()) _ "alice" "main" oneObject_main

/-- Two rooms take two keys of `alice`. And when she rotates `k1`, which two rooms have, the object
of the other room goes on with `k1` and refuses `k2`. -/
theorem rooms_take_two_keys :
    ¬ KeyBound (tofuWorker.exchanges (fun _ => .init ())
      [publishInto "main" "k1" "n1", publishInto "lobby" "k2" "n2"]) "alice" ∧
    ¬ KeyBound (tofuWorker.exchanges (fun _ => .init ())
      [publishInto "main" "k1" "n1", publishInto "lobby" "k1" "n2", rotationOfAlice,
        publishInto "lobby" "k1" "n3"]) "alice" ∧
    ¬ KeyBound (tofuWorker.exchanges (fun _ => .init ())
      [publishInto "main" "k1" "n1", publishInto "lobby" "k1" "n2", rotationOfAlice,
        publishInto "lobby" "k2" "n4"]) "alice" := by
  have hnone : ∀ z ∈ ([] : List Exchanged), ∀ publicKey, ¬ z.Rotates "alice" publicKey :=
    fun z hz => absurd hz List.not_mem_nil
  have hrotation : RotationOf rotationOfAlice.request "alice" "k2" := by
    refine ⟨rfl, _, _, rfl, rfl, rfl, rfl⟩
  refine ⟨fun h => ?_, fun h => ?_, fun h => ?_⟩
  · have hsame := (h [] _ [] _ [] rfl hnone "k1"
      (.inl ⟨signedBy_publishInto "main" "k1" "n1" rfl, by decide⟩)).1 "k2"
      ⟨signedBy_publishInto "lobby" "k2" "n2" rfl, by decide⟩
    exact absurd hsame (by decide)
  · have hsame := (h [_, _] _ [] _ [] rfl hnone "k2" (.inr ⟨hrotation, by decide⟩)).1 "k1"
      ⟨signedBy_publishInto "lobby" "k1" "n3" rfl, by decide⟩
    exact absurd hsame (by decide)
  · exact (h [_, _] _ [] _ [] rfl hnone "k2" (.inr ⟨hrotation, by decide⟩)).2
      (signedBy_publishInto "lobby" "k2" "n4" rfl) (by decide)

end BitRelay
