import BitRelay.RateLimits
import BitRelay.Service.SignatureStage

/-!
# What a refused signed request leaves behind

Publish, review and key rotation check a request before they write anything down
about its sender. Publish looks at the topic last: a signed message with a topic
that is none is refused when its key is bound and its nonce recorded. A client
that corrects the topic and sends the message again has to take another nonce.

Results:
1. `review_intact`, `rotate_intact`: a refused review or rotation leaves the
   keys, the nonces and the logs as they were.
2. `publishSigned_intact`: so does a publish that is refused in its signature
   stage.
3. `refused_intact_iff`: a refused request leaves a trace exactly if it is a
   signed publish, well verified, to such a topic.
4. `nonce_spent`: the corrected request is refused as a replay.
-/

namespace BitRelay

section
variable {C : Type} (R : Relay C)

/-! ## Definitions -/

/-- The keys and the logs are as they were, and so are the nonces once the expired ones and those
above the cap are dropped. -/
structure Intact (nowSec : Int) (s s' : ServiceState C) : Prop where
  keys : s'.keyRegistry = s.keyRegistry
  nonces : ∀ sender, pruneNonces R.config.noncePolicy (s'.noncesBySender.getD sender ∅) nowSec =
    pruneNonces R.config.noncePolicy (s.noncesBySender.getD sender ∅) nowSec
  logs : ∀ room, (s'.roomOf room).messages = (s.roomOf room).messages

/-- A publish that passes its signature stage with the headers `auth`. -/
structure SignedPublish (request : Request) (env : Env) (s : ServiceState C) (rate : RateRequest)
    (parsed : JsonValue) (auth : PublishAuthHeaders) : Prop where
  gates : rateRequest? R request env = some rate
  rates : passesRates R s rate = true
  announced : exceedsContentLength R request = false
  size : jsonByteLength request.body.text ≤ R.config.publishPayloadMaxBytes
  body : request.body.json = some parsed
  headers : parsePublishAuthHeaders request = .ok (some auth)
  current : isStale (nowEpochSec env.nowMs) auth.timestampSec R.config.maxClockSkewSec = false
  unknown : (pruneNonces R.config.noncePolicy (s.noncesBySender.getD rate.sender ∅)
    (nowEpochSec env.nowMs)).has auth.nonce = false
  verified : R.platform.verifyEd25519Signature auth.publicKey
    (publishSigningMessage R rate.sender rate.room (publishId request env.randomUUID)
      (publishTopic request) (normalizePublishPayload parsed) auth) auth.signature = true
  key : ∀ record, s.keyRegistry.get? rate.sender = some record →
    record.status = .active ∧ record.publicKey = auth.publicKey

/-- The request is a signed publish to a topic that is none; its key or its nonce is news. -/
def LeavesTrace (request : Request) (env : Env) (s : ServiceState C) : Prop :=
  ∃ rate parsed auth, SignedPublish R request env s rate parsed auth ∧
    isValidTopic (publishTopic request) = false ∧
    ((∀ record, s.keyRegistry.get? rate.sender = some record →
        record.lastSeenAt ≠ nowEpochSec env.nowMs) ∨
      nowEpochSec env.nowMs - auth.timestampSec ≤ (R.config.noncePolicy.nonceTtlSec : Int) ∨
      R.config.noncePolicy.maxNoncesPerSender ≤ (pruneNonces R.config.noncePolicy
        (s.noncesBySender.getD rate.sender ∅) (nowEpochSec env.nowMs)).size)

end

namespace RefusalLemmas

/-! ## Nonces -/

section
variable {policy : NoncePolicy} {nonces : NonceTable} {nonce : String} {ts nowSec : Int}

/-- What is left of a pruned table and an expired nonce behind it. -/
theorem pruneNonces_recorded (hpruned : pruneNonces policy nonces nowSec = nonces)
    (hnew : nonces.has nonce = false) (hexpired : (policy.nonceTtlSec : Int) < nowSec - ts) :
    pruneNonces policy ((nonces.set nonce ts).dropOldest
      ((nonces.set nonce ts).size - policy.maxNoncesPerSender)) nowSec =
      nonces.dropOldest (nonces.size + 1 - policy.maxNoncesPerSender) := by
  have hpos := policy.maxNoncesPerSender_pos
  have hcap := size_pruneNonces_le policy nonces nowSec
  rw [hpruned] at hcap
  have hentries := OrdMap.entries_set_of_not_has hnew ts
  have hsize : (nonces.set nonce ts).size = nonces.size + 1 := by
    unfold OrdMap.size
    rw [hentries, List.length_append, List.length_singleton]
  have hfilter : ((nonces.set nonce ts).dropOldest ((nonces.set nonce ts).size -
      policy.maxNoncesPerSender)).filter (fun _ t =>
        !decide ((policy.nonceTtlSec : Int) < nowSec - t)) =
      nonces.dropOldest (nonces.size + 1 - policy.maxNoncesPerSender) := by
    apply OrdMap.ext
    show ((nonces.set nonce ts).entries.drop ((nonces.set nonce ts).size -
      policy.maxNoncesPerSender)).filter _ = nonces.entries.drop _
    rw [hsize, hentries, List.drop_append_of_le_length (by unfold OrdMap.size; omega),
      List.filter_append, List.filter_cons_of_neg, List.filter_nil, List.append_nil]
    · refine List.filter_eq_self.mpr fun e he => ?_
      have hmem := List.mem_of_mem_drop he
      rw [← hpruned] at hmem
      dsimp only
      rw [decide_eq_false (get?_of_pruneNonces (OrdMap.get?_eq_some_iff.mpr hmem)).2]
      rfl
    · dsimp only
      rw [decide_eq_true hexpired]
      decide
  unfold pruneNonces
  dsimp only
  rw [hfilter, OrdMap.size_dropOldest, show nonces.size - (nonces.size + 1 -
    policy.maxNoncesPerSender) - policy.maxNoncesPerSender = 0 by omega, OrdMap.dropOldest_zero]

/-- A remembered nonce goes unnoticed only if it has expired and pushes no other one out. -/
theorem remembered_unnoticed_iff {N : NoncesBySender} {sender : String}
    (hnew : (pruneNonces policy (N.getD sender ∅) nowSec).has nonce = false) :
    pruneNonces policy ((rememberNonce policy N sender nonce ts nowSec).getD sender ∅) nowSec =
        pruneNonces policy (N.getD sender ∅) nowSec ↔
      (policy.nonceTtlSec : Int) < nowSec - ts ∧
        (pruneNonces policy (N.getD sender ∅) nowSec).size < policy.maxNoncesPerSender := by
  have hrecorded : (rememberNonce policy N sender nonce ts nowSec).recorded? sender nonce = some ts :=
    recorded?_rememberNonce_self hnew
  unfold NoncesBySender.recorded? at hrecorded
  have hself := pruneNonces_pruneNonces policy (N.getD sender ∅) nowSec
  have hpos := policy.maxNoncesPerSender_pos
  have htable : (rememberNonce policy N sender nonce ts nowSec).getD sender ∅ =
      ((pruneNonces policy (N.getD sender ∅) nowSec).set nonce ts).dropOldest
        (((pruneNonces policy (N.getD sender ∅) nowSec).set nonce ts).size -
          policy.maxNoncesPerSender) := OrdMap.getD_set_self _ _ _ _
  constructor
  · intro hsame
    have hexpired : (policy.nonceTtlSec : Int) < nowSec - ts := by
      -- A live nonce would still be there.
      refine Decidable.by_contra fun hlive => ?_
      have hcap : ((rememberNonce policy N sender nonce ts nowSec).getD sender ∅).size ≤
          policy.maxNoncesPerSender := by
        rw [htable, OrdMap.size_dropOldest]
        omega
      have hkept := pruneNonces_get? hcap hrecorded hlive
      rw [hsame, OrdMap.has_eq_false_iff.mp hnew] at hkept
      cases hkept
    refine ⟨hexpired, ?_⟩
    rw [htable, pruneNonces_recorded hself hnew hexpired] at hsame
    have hsize := congrArg OrdMap.size hsame
    rw [OrdMap.size_dropOldest] at hsize
    omega
  · rintro ⟨hexpired, hroom⟩
    rw [htable, pruneNonces_recorded hself hnew hexpired, Nat.sub_eq_zero_of_le hroom,
      OrdMap.dropOldest_zero]

end

/-! ## Keys -/

theorem setEntries_of_lookup {κ ν : Type} [DecidableEq κ] {k : κ} {v : ν} {l : List (κ × ν)}
    (h : l.lookup k = some v) : OrdMap.setEntries k v l = l := by
  induction l with
  | nil => cases h
  | cons e rest ih =>
    obtain ⟨k', v'⟩ := e
    rw [OrdMap.lookup_cons_ite] at h
    unfold OrdMap.setEntries
    split at h
    · next heq =>
      cases h
      rw [if_pos heq.symm, heq]
    · next hne => rw [if_neg fun heq => hne heq.symm, ih h]

/-- Writing what is there already changes nothing. -/
theorem set_of_get? {κ ν : Type} [DecidableEq κ] {m : OrdMap κ ν} {k : κ} {v : ν}
    (h : m.get? k = some v) : m.set k v = m :=
  OrdMap.ext (setEntries_of_lookup h)

/-- The check of a key succeeds for a sender without a key, and for one that is active under it. -/
theorem ensureTofuKey_isOk_iff {registry : KeyRegistry} {sender publicKey : String}
    {nowSec : Int} :
    (∃ registry', ensureTofuKey registry sender publicKey nowSec = .ok registry') ↔
      ∀ record, registry.get? sender = some record →
        record.status = .active ∧ record.publicKey = publicKey := by
  unfold ensureTofuKey
  cases registry.get? sender with
  | none => exact ⟨fun _ _ h => (by cases h), fun _ => ⟨_, rfl⟩⟩
  | some record =>
    dsimp only
    constructor
    · rintro ⟨registry', hok⟩ record' hsome
      cases hsome
      split at hok
      · cases hok
      next hactive =>
        split at hok
        · cases hok
        next hkey => exact ⟨Decidable.not_not.mp hactive, by simpa [timingSafeEqual] using hkey⟩
    · intro h
      obtain ⟨hactive, hkey⟩ := h record rfl
      rw [if_neg (Decidable.not_not.mpr hactive),
        if_neg (by simpa [timingSafeEqual] using hkey)]
      exact ⟨_, rfl⟩

/-- The check leaves the registry as it is only if the sender was seen in the same second. -/
theorem ensureTofuKey_same_iff {registry registry' : KeyRegistry} {sender publicKey : String}
    {nowSec : Int} (h : ensureTofuKey registry sender publicKey nowSec = .ok registry') :
    registry' = registry ↔
      ∃ record, registry.get? sender = some record ∧ record.lastSeenAt = nowSec := by
  unfold ensureTofuKey at h
  cases hrecord : registry.get? sender with
  | none =>
    rw [hrecord] at h
    cases h
    refine ⟨fun hsame => ?_, fun hseen => ?_⟩
    · have hself := congrArg (OrdMap.get? · sender) hsame
      rw [OrdMap.get?_set_self, hrecord] at hself
      cases hself
    · obtain ⟨record, hnone, -⟩ := hseen
      cases hnone
  | some record =>
    rw [hrecord] at h
    dsimp only at h
    split at h
    · cases h
    split at h
    · cases h
    cases h
    constructor
    · intro hsame
      have hself := congrArg (fun m : KeyRegistry => m.get? sender) hsame
      rw [OrdMap.get?_set_self, hrecord] at hself
      exact ⟨record, rfl, (congrArg KeyRecord.lastSeenAt (Option.some.inj hself)).symm⟩
    · rintro ⟨record', hsome, rfl⟩
      obtain rfl := Option.some.inj hsome
      exact set_of_get? hrecord

/-! ## Segments -/

open TouchLemmas

section
variable {C : Type} {R : Relay C} {request : Request} {env : Env} {s s' s'' : ServiceState C}
  {nowSec : Int}

theorem intact_refl (s : ServiceState C) : Intact R nowSec s s :=
  ⟨rfl, fun _ => rfl, fun _ => rfl⟩

theorem intact_trans (h : Intact R nowSec s s') (h' : Intact R nowSec s' s'') :
    Intact R nowSec s s'' where
  keys := h'.keys.trans h.keys
  nonces sender := (h'.nonces sender).trans (h.nonces sender)
  logs room := (h'.logs room).trans (h.logs room)

/-- What prunes the nonces at most leaves them as they were. -/
theorem pruneNonces_of_prunedFrom {N : NoncesBySender} (h : PrunedFrom R N nowSec s)
    (sender : String) :
    pruneNonces R.config.noncePolicy (s.noncesBySender.getD sender ∅) nowSec =
      pruneNonces R.config.noncePolicy (N.getD sender ∅) nowSec := by
  rcases h with hsame | ⟨other, hpruned⟩
  · rw [hsame]
  · rw [hpruned]
    unfold pruneSenderNonces
    rcases Decidable.em (sender = other) with rfl | hne
    · rw [OrdMap.getD_set_self, pruneNonces_pruneNonces]
    · rw [OrdMap.getD_set_of_ne _ hne]

/-- A computation that writes to other parts leaves keys, nonces and logs alone. -/
theorem intact_of_touches {α : Type} {parts : List StatePart} {x : Handler C α}
    (h : Touches parts x) (keys : .keys ∉ parts) (nonces : .nonces ∉ parts)
    (messages : .messages ∉ parts) (s : ServiceState C) : Intact R nowSec s (x.run s).2 where
  keys := Touch.kept (h s) keys
  nonces sender := by rw [show (x.run s).2.noncesBySender = s.noncesBySender from
    Touch.kept (h s) nonces]
  logs := Touch.kept (h s) messages

/-- So does one that prunes nonces, and writes to no other of these parts. -/
theorem intact_of_prunes {α : Type} {x : Handler C α} (h : Touches [.nonces] x)
    {Q : α → ServiceState C → Prop}
    (htriple : Proc.Triple (fun t => t.noncesBySender = s.noncesBySender) x Q
      (PrunedFrom R s.noncesBySender nowSec))
    (hQ : ∀ a t, Q a t → PrunedFrom R s.noncesBySender nowSec t) :
    Intact R nowSec s (x.run s).2 where
  keys := show s.SamePart (x.run s).2 .keys from Touch.kept (h s) (by decide)
  nonces := by
    obtain ⟨hok, herror⟩ := htriple s rfl
    refine pruneNonces_of_prunedFrom ?_
    generalize x.run s = outcome at hok herror
    obtain ⟨result, t⟩ := outcome
    cases result with
    | ok a => exact hQ a t (hok a t rfl)
    | error r => exact herror r t rfl
  logs := show s.SamePart (x.run s).2 .messages from Touch.kept (h s) (by decide)

theorem intact_publishArrive (s : ServiceState C) :
    Intact R nowSec s ((publishArrive R request env).run s).2 :=
  have htouches : Touches [.rates] (publishArrive R request env) :=
    touches_publishArrive (by decide)
  intact_of_touches htouches (by decide) (by decide) (by decide) s

theorem prunedFrom_of_waiting {N : NoncesBySender} {pending : PendingSignature}
    (h : Waiting R N env pending s) : PrunedFrom R N (nowEpochSec env.nowMs) s :=
  .inr ⟨_, h.2.pruned⟩

theorem intact_publishBegin (input : PublishInput) (s : ServiceState C) :
    Intact R (nowEpochSec env.nowMs) s ((publishBegin R request input env).run s).2 := by
  refine intact_of_prunes (touches_publishBegin (by decide) input) (triple_publishBegin input env)
    fun p t hp => ?_
  obtain ⟨payload, pending⟩ := p
  cases pending with
  | none => exact .inl hp
  | some pending => exact prunedFrom_of_waiting hp

theorem intact_reviewBegin (room : String) (s : ServiceState C) :
    Intact R (nowEpochSec env.nowMs) s ((reviewBegin R request room env).run s).2 :=
  intact_of_prunes (touches_reviewBegin (by decide) room) (triple_reviewBegin room env)
    fun _ _ hp => prunedFrom_of_waiting hp

theorem intact_rotateBegin (s : ServiceState C) :
    Intact R (nowEpochSec env.nowMs) s ((rotateBegin R request env).run s).2 :=
  intact_of_prunes (touches_rotateBegin (by decide)) (triple_rotateBegin env)
    fun _ _ hp => .inr ⟨_, hp.2.pruned⟩

/-- The end of a signature stage refuses before it writes. -/
theorem finishSignature_error {pending : PendingSignature} {r : Response}
    (h : (finishSignature R pending).run s = (.error r, s')) : s' = s := by
  have htriple : Proc.Triple (fun t => t = s) (finishSignature R pending) (fun _ _ => True)
      (fun t => t = s) := by
    refine (Proc.Triple.failIf fun t ht => ht).bind fun _ => Proc.Triple.of_fact fun _ => ?_
    refine Proc.Triple.bind (Q := fun _ _ => True) ?_ fun _ => Proc.Triple.modify fun _ _ => trivial
    exact (Proc.Triple.gets _).bind fun _ => (Proc.Triple.ofExcept fun t ht => ht.2).bind fun _ =>
      Proc.Triple.modify fun _ _ => trivial
  exact (htriple s rfl).2 r s' h

theorem rotateCommit_error {pending : PendingRotate} {r : Response}
    (h : (rotateCommit R pending).run s = (.error r, s')) : s' = s := by
  have htriple : Proc.Triple (fun t => t = s) (rotateCommit R pending) (fun _ _ => True)
      (fun t => t = s) := by
    refine (Proc.Triple.failIf fun t ht => ht).bind fun _ => Proc.Triple.of_fact fun _ => ?_
    refine (Proc.Triple.failIf fun t ht => ht).bind fun _ => Proc.Triple.of_fact fun _ => ?_
    exact Proc.Triple.bind (Q := fun _ _ => True) (Proc.Triple.modify fun _ _ => trivial)
      fun _ => Proc.Triple.modify fun _ _ => trivial
  exact (htriple s rfl).2 r s' h

/-! ## The signature stage of publish -/

variable {rate : RateRequest} {parsed : JsonValue} {auth : PublishAuthHeaders}

/-- What publish hands on when its body is awaited. -/
def arrivedInput (request : Request) (env : Env) (rate : RateRequest) : PublishInput :=
  ⟨rate.sender, rate.room, publishTopic request, publishId request env.randomUUID,
    request.paramTrim "sig"⟩

theorem publishArrive_of_gates (h : rateRequest? R request env = some rate) :
    publishArrive R request env = (rateStage R rate >>= fun _ =>
      Proc.failIf (exceedsContentLength R request = true) (toErrorResponse "payload too large" 413)
        >>= fun _ => (pure (arrivedInput request env rate) : Handler C PublishInput)) := by
  unfold rateRequest? at h
  dsimp only at h
  split at h
  · next hgates =>
    obtain ⟨-, -, hmethod, hsender, hroom, htoken⟩ := hgates
    cases h
    simp only [publishArrive, requireMethod, requireParam, requireRoom, hmethod, hsender, hroom,
      htoken, Proc.failIf, Proc.failWith, ne_eq, not_true_eq_false, if_false, Bool.true_eq_false,
      pure_bind, bind_assoc, rateStage, arrivedInput]
  · cases h

/-- A publish that waits for its body: its gates are open, and it is counted. -/
theorem publishArrive_eq_ok (hpath : request.pathname = "/api/v1/publish")
    (hauth : checkAuth R request = none) {input : PublishInput} :
    (publishArrive R request env).run s = (.ok input, s') ↔
      ∃ rate, rateRequest? R request env = some rate ∧ passesRates R s rate = true ∧
        exceedsContentLength R request = false ∧ input = arrivedInput request env rate ∧
        s' = countedState R s rate := by
  have hgated : ∀ {rate}, rateRequest? R request env = some rate →
      ((publishArrive R request env).run s = (.ok input, s') ↔ passesRates R s rate = true ∧
        exceedsContentLength R request = false ∧ input = arrivedInput request env rate ∧
        s' = countedState R s rate) := by
    intro rate hrate
    obtain ⟨hstate, hpasses⟩ := run_rateStage (R := R) (s := s) (r := rate)
    rw [publishArrive_of_gates hrate, Proc.bind_eq_ok, ← hpasses]
    constructor
    · rintro ⟨_, s₁, hrun, hrest⟩
      obtain ⟨_, s₂, hsize, hend⟩ := Proc.bind_ok hrest
      obtain ⟨hannounced, rfl⟩ := Proc.failIf_ok hsize
      obtain ⟨rfl, rfl⟩ := Proc.pure_eq_ok.mp hend
      rw [hrun] at hstate ⊢
      exact ⟨rfl, eq_false_of_ne_true hannounced, rfl, hstate⟩
    · rintro ⟨hok, hannounced, rfl, rfl⟩
      refine ⟨(), countedState R s rate, Prod.ext hok hstate, ?_⟩
      rw [Proc.run_bind, Proc.run_failIf, if_neg (by rw [hannounced]; decide)]
      rfl
  constructor
  · intro h
    obtain ⟨_, s₁, hmethod, h₁⟩ := Proc.bind_ok h
    obtain ⟨hpost, rfl⟩ := Proc.failIf_ok hmethod
    obtain ⟨sender, s₂, hparam, h₂⟩ := Proc.bind_ok h₁
    obtain ⟨_, s₃, hname, h₃⟩ := Proc.bind_ok hparam
    obtain ⟨hsender, rfl⟩ := Proc.failIf_ok hname
    obtain ⟨rfl, rfl⟩ := Proc.pure_eq_ok.mp h₃
    obtain ⟨room, s₄, hroom, -⟩ := Proc.bind_ok h₂
    obtain ⟨_, s₅, hgate, h₅⟩ := Proc.bind_ok hroom
    obtain ⟨hvalid, rfl⟩ := Proc.failIf_ok hgate
    obtain ⟨_, s₆, htoken, -⟩ := Proc.bind_ok h₅
    have hrate : rateRequest? R request env = some ⟨request.paramTrim "sender",
        normalizeRoom (request.param "room"), extractClientIp request, env.arrivedMs⟩ :=
      if_pos ⟨hpath, hauth, Decidable.not_not.mp hpost, hsender, eq_true_of_ne_false hvalid,
        (Proc.failWith_ok htoken).1⟩
    exact ⟨_, hrate, (hgated hrate).mp h⟩
  · rintro ⟨rate, hrate, hrest⟩
    exact (hgated hrate).mpr hrest

/-- The nonce check of a request that is neither stale nor a replay. -/
theorem run_checkFreshness {sender nonce : String} {ts : Int}
    (hcurrent : isStale nowSec ts R.config.maxClockSkewSec = false)
    (hunknown : (pruneNonces R.config.noncePolicy (s.noncesBySender.getD sender ∅)
      nowSec).has nonce = false) :
    (checkFreshness R sender nonce ts nowSec).run s = (.ok (), (s.checkReplay R sender nonce
      nowSec).2) := by
  have hreplay : (s.checkReplay R sender nonce nowSec).1 = false := by
    rw [checkReplay_fst, isReplayNonce_fst]
    exact hunknown
  unfold checkFreshness
  rw [Proc.run_bind, Proc.run_failIf, if_neg (by rw [hcurrent]; decide)]
  dsimp only
  rw [Proc.run_bind, Proc.run_update, hreplay]
  rfl

/-- A publish that waits for its verification: its body and its headers are well formed, and its
nonce is new. -/
theorem publishBegin_eq_ok {input : PublishInput} {payload : JsonValue}
    {pending : PendingSignature} :
    (publishBegin R request input env).run s = (.ok (payload, some pending), s') ↔
      ∃ parsed auth, jsonByteLength request.body.text ≤ R.config.publishPayloadMaxBytes ∧
        request.body.json = some parsed ∧ parsePublishAuthHeaders request = .ok (some auth) ∧
        isStale (nowEpochSec env.nowMs) auth.timestampSec R.config.maxClockSkewSec = false ∧
        (pruneNonces R.config.noncePolicy (s.noncesBySender.getD input.sender ∅)
          (nowEpochSec env.nowMs)).has auth.nonce = false ∧
        payload = normalizePublishPayload parsed ∧
        pending = ⟨input.sender, auth, publishSigningMessage R input.sender input.room input.id
          input.topic (normalizePublishPayload parsed) auth, nowEpochSec env.nowMs⟩ ∧
        s' = (s.checkReplay R input.sender auth.nonce (nowEpochSec env.nowMs)).2 := by
  constructor
  · intro h
    obtain ⟨_, s₁, hgate, h₁⟩ := Proc.bind_ok h
    obtain ⟨hsize, rfl⟩ := Proc.failIf_ok hgate
    obtain ⟨parsed, s₂, hparse, h₂⟩ := Proc.bind_ok h₁
    obtain ⟨hbody, rfl⟩ := Proc.ofExcept_ok hparse
    obtain ⟨pending', s₃, hverify, h₃⟩ := Proc.bind_ok h₂
    cases h₃
    obtain ⟨auth, s₄, hpresented, h₄⟩ := Proc.bind_ok hverify
    obtain ⟨hheaders, rfl⟩ := Proc.ofExcept_ok hpresented
    cases auth with
    | none =>
      obtain ⟨_, s₅, -, h₅⟩ := Proc.bind_ok h₄
      cases h₅
    | some auth =>
      obtain ⟨begun, s₅, hbegin, h₅⟩ := Proc.bind_ok h₄
      obtain ⟨_, s₆, hfresh, h₆⟩ := Proc.bind_ok hbegin
      obtain ⟨hcurrent, hreplay, rfl⟩ := checkFreshness_ok hfresh
      cases h₆
      cases h₅
      rw [checkReplay_fst, isReplayNonce_fst] at hreplay
      exact ⟨parsed, auth, Nat.le_of_not_lt hsize, elim_eq_ok hbody, hheaders, hcurrent, hreplay,
        rfl, rfl, rfl⟩
  · rintro ⟨parsed, auth, hsize, hbody, hheaders, hcurrent, hunknown, rfl, rfl, rfl⟩
    unfold publishBegin beginSignatureVerification beginSignature
    rw [Proc.run_bind, Proc.run_failIf, if_neg (Nat.not_lt.mpr hsize)]
    dsimp only
    rw [hbody, hheaders]
    simp only [Option.elim_some, Proc.ofExcept, pure_bind, bind_assoc]
    rw [Proc.run_bind, run_checkFreshness hcurrent hunknown]
    rfl

/-- A verification passes when the signature is good and the key is the one of the sender. -/
theorem finishSignature_eq_ok {pending : PendingSignature} :
    (finishSignature R pending).run s = (.ok (), s') ↔
      R.platform.verifyEd25519Signature pending.auth.publicKey pending.message
        pending.auth.signature = true ∧
      ∃ registry, ensureTofuKey s.keyRegistry pending.sender pending.auth.publicKey
          pending.nowSec = .ok registry ∧
        s' = ServiceState.remember R pending.sender pending.auth.nonce pending.auth.timestampSec
          pending.nowSec { s with keyRegistry := registry } := by
  refine ⟨finishSignature_ok, ?_⟩
  rintro ⟨hverified, registry, hkey, rfl⟩
  unfold finishSignature bindKey
  rw [Proc.run_bind, Proc.run_failIf, if_neg (by rw [hverified]; decide)]
  dsimp only
  rw [Proc.run_bind, Proc.run_bind, Proc.run_gets]
  dsimp only
  rw [hkey]
  rfl

/-- The state behind the signature stage of a publish. -/
def signedState (R : Relay C) (env : Env) (s : ServiceState C) (rate : RateRequest)
    (auth : PublishAuthHeaders) (registry : KeyRegistry) : ServiceState C :=
  { countedState R s rate with
    keyRegistry := registry
    noncesBySender := rememberNonce R.config.noncePolicy s.noncesBySender rate.sender auth.nonce
      auth.timestampSec (nowEpochSec env.nowMs) }

theorem remember_checkReplay (registry : KeyRegistry) :
    ServiceState.remember R rate.sender auth.nonce auth.timestampSec (nowEpochSec env.nowMs)
      { ((countedState R s rate).checkReplay R rate.sender auth.nonce
          (nowEpochSec env.nowMs)).2 with keyRegistry := registry } =
      signedState R env s rate auth registry := by
  unfold ServiceState.remember signedState
  dsimp only
  rw [checkReplay_noncesBySender, rememberNonce_pruneSenderNonces]
  rfl

/-- A publish passes its signature stage with headers exactly if it is signed. -/
theorem publishSigned_eq_ok (hpath : request.pathname = "/api/v1/publish")
    (hauth : checkAuth R request = none) {input : PublishInput} {payload : JsonValue}
    {pending : PendingSignature} :
    (publishSigned R request env).run s = (.ok (input, payload, some pending), s') ↔
      ∃ rate parsed auth registry, SignedPublish R request env s rate parsed auth ∧
        ensureTofuKey s.keyRegistry rate.sender auth.publicKey (nowEpochSec env.nowMs) =
          .ok registry ∧
        input = arrivedInput request env rate ∧ payload = normalizePublishPayload parsed ∧
        pending = ⟨rate.sender, auth, publishSigningMessage R rate.sender rate.room
          (publishId request env.randomUUID) (publishTopic request)
          (normalizePublishPayload parsed) auth, nowEpochSec env.nowMs⟩ ∧
        s' = signedState R env s rate auth registry := by
  constructor
  · intro h
    obtain ⟨input', s₁, harrive, h₁⟩ := Proc.bind_ok h
    obtain ⟨rate, hgates, hrates, hannounced, rfl, rfl⟩ :=
      (publishArrive_eq_ok hpath hauth).mp harrive
    obtain ⟨⟨payload', pending'⟩, s₂, hbegin, h₂⟩ := Proc.bind_ok h₁
    obtain ⟨_, s₃, hfinish, h₃⟩ := Proc.bind_ok h₂
    cases h₃
    obtain ⟨parsed, auth, hsize, hbody, hheaders, hcurrent, hunknown, rfl, rfl, rfl⟩ :=
      publishBegin_eq_ok.mp hbegin
    obtain ⟨hverified, registry, hkey, rfl⟩ := finishSignature_eq_ok.mp hfinish
    have hrecord := ensureTofuKey_isOk_iff.mp ⟨registry, hkey⟩
    dsimp only [arrivedInput] at hunknown hverified hkey hrecord ⊢
    exact ⟨rate, parsed, auth, registry, ⟨hgates, hrates, hannounced, hsize, hbody, hheaders,
      hcurrent, hunknown, hverified, hrecord⟩, hkey, rfl, rfl, rfl, remember_checkReplay registry⟩
  · rintro ⟨rate, parsed, auth, registry, hsigned, hkey, rfl, rfl, rfl, rfl⟩
    have harrive : (publishArrive R request env).run s =
        (.ok (arrivedInput request env rate), countedState R s rate) :=
      (publishArrive_eq_ok hpath hauth).mpr
        ⟨rate, hsigned.gates, hsigned.rates, hsigned.announced, rfl, rfl⟩
    let waiting : PendingSignature := ⟨rate.sender, auth, publishSigningMessage R rate.sender
      rate.room (publishId request env.randomUUID) (publishTopic request)
      (normalizePublishPayload parsed) auth, nowEpochSec env.nowMs⟩
    have hbegin : (publishBegin R request (arrivedInput request env rate) env).run
        (countedState R s rate) = (.ok (normalizePublishPayload parsed, some waiting),
          ((countedState R s rate).checkReplay R rate.sender auth.nonce
            (nowEpochSec env.nowMs)).2) := by
      refine publishBegin_eq_ok.mpr ⟨parsed, auth, hsigned.size, hsigned.body, hsigned.headers,
        hsigned.current, hsigned.unknown, rfl, ?_, rfl⟩
      dsimp only [waiting, arrivedInput]
    have hfinish : (finishSignature R waiting).run
        ((countedState R s rate).checkReplay R rate.sender auth.nonce (nowEpochSec env.nowMs)).2 =
        (.ok (), signedState R env s rate auth registry) := by
      rw [← remember_checkReplay registry]
      exact finishSignature_eq_ok.mpr ⟨hsigned.verified, registry, hkey, rfl⟩
    unfold publishSigned
    rw [Proc.run_bind_of_ok harrive, Proc.run_bind_of_ok hbegin]
    exact Proc.run_bind_of_ok hfinish _

/-! ## Refusals -/

theorem triple_of_intact {α : Type} {x : Handler C α} (h : ∀ t, Intact R nowSec t (x.run t).2)
    (s : ServiceState C) :
    Proc.Triple (Intact R nowSec s) x (fun _ => Intact R nowSec s) (Intact R nowSec s) := by
  intro t ht
  have hrun := intact_trans ht (h t)
  refine ⟨fun a t' hok => ?_, fun r t' herror => ?_⟩
  · rw [hok] at hrun
    exact hrun
  · rw [herror] at hrun
    exact hrun

/-- A computation that refuses before it writes. -/
theorem triple_of_error {α : Type} {x : Handler C α}
    (h : ∀ t r t', x.run t = (.error r, t') → t' = t) (s : ServiceState C) :
    Proc.Triple (Intact R nowSec s) x (fun _ _ => True) (Intact R nowSec s) :=
  fun t ht => ⟨fun _ _ _ => trivial, fun r t' herror => h t r t' herror ▸ ht⟩

theorem triple_of_touches {α : Type} {x : Handler C α} (h : Touches [] x) (s : ServiceState C) :
    Proc.Triple (Intact R nowSec s) x (fun _ => Intact R nowSec s) (Intact R nowSec s) :=
  triple_of_intact (fun t => intact_of_touches h List.not_mem_nil List.not_mem_nil
    List.not_mem_nil t) s

/-- What a handler does behind the gate of the relay token. -/
theorem refused_of_triple {endpoint : Endpoint}
    (hpath : Endpoint.ofPath request.pathname = some endpoint)
    (h : Proc.Triple (Intact R nowSec s) (endpoint.handle R request env)
      (fun r t => r.status ≠ 200 → Intact R nowSec s t) (Intact R nowSec s))
    (hrefused : (serve R request env s).1.status ≠ 200) :
    Intact R nowSec s (serve R request env s).2 := by
  have hguarded : Proc.Triple (Intact R nowSec s) (Endpoint.guarded R request env endpoint)
      (fun r t => r.status ≠ 200 → Intact R nowSec s t) (Intact R nowSec s) :=
    (triple_of_touches (Proc.Leads.failWith _) s).bind fun _ => h
  obtain ⟨hok, herror⟩ := hguarded s (intact_refl s)
  rw [serve_endpoint hpath] at hrefused ⊢
  unfold Handler.serve at hrefused ⊢
  generalize (Endpoint.guarded R request env endpoint).run s = outcome at hok herror hrefused ⊢
  obtain ⟨result, t⟩ := outcome
  cases result with
  | ok r => exact hok r t rfl hrefused
  | error r => exact herror r t rfl

/-- A refused review. -/
theorem review_intact (hpath : Endpoint.ofPath request.pathname = some .review)
    (hrefused : (serve R request env s).1.status ≠ 200) :
    Intact R (nowEpochSec env.nowMs) s (serve R request env s).2 := by
  refine refused_of_triple hpath ?_ hrefused
  refine (triple_of_touches (touches_requireRoom request) s).bind fun room => ?_
  refine Proc.Triple.ite (fun _ => ?_) fun _ => Proc.Triple.ite (fun _ => ?_) fun _ => ?_
  · exact (triple_of_touches (touches_reviewGet request room) s).conseq (fun _ h => h)
      (fun _ _ h _ => h) fun _ h => h
  · refine Proc.Triple.bind (Q := fun _ _ => True) ?_ fun p => Proc.Triple.bind
      (Q := fun _ _ => True) (Proc.Triple.update fun _ _ => trivial) fun status =>
        Proc.Triple.pure fun _ _ hstatus => absurd rfl hstatus
    refine (triple_of_intact (intact_reviewBegin room) s).bind fun p => ?_
    exact (triple_of_error (fun _ _ _ => finishSignature_error) s).bind fun _ =>
      Proc.Triple.pure fun _ _ => trivial
  · exact Proc.Triple.answer fun _ h => h

/-- A refused rotation. -/
theorem rotate_intact (hpath : Endpoint.ofPath request.pathname = some .keyRotate)
    (hrefused : (serve R request env s).1.status ≠ 200) :
    Intact R (nowEpochSec env.nowMs) s (serve R request env s).2 := by
  refine refused_of_triple hpath ?_ hrefused
  refine Proc.Triple.bind (Q := fun _ _ => True) ?_ fun pending =>
    Proc.Triple.pure fun _ _ hstatus => absurd rfl hstatus
  refine (triple_of_touches (touches_requireMethod request "POST") s).bind fun _ => ?_
  refine (triple_of_intact intact_rotateBegin s).bind fun pending => ?_
  exact (triple_of_error (fun _ _ _ => rotateCommit_error) s).bind fun _ =>
    Proc.Triple.pure fun _ _ => trivial

/-! ## Publish -/

/-- Publish behind its signature stage. -/
def publishRest (R : Relay C) (input : PublishInput) (payload : JsonValue)
    (pending : Option PendingSignature) : Handler C Response := do
  let result ← publishCommit R input payload pending
  Proc.modify (ServiceState.persistResult R result)
  return result.toResponse

/-- Behind the signature stage publish refuses a topic that is none, and nothing else. -/
theorem publishRest_cases (input : PublishInput) (payload : JsonValue)
    (pending : Option PendingSignature) (s : ServiceState C) :
    (isValidTopic input.topic = true ∧
      ∃ r s', (publishRest R input payload pending).run s = (.ok r, s') ∧ r.status = 200) ∨
    isValidTopic input.topic = false ∧ ∃ r,
      (publishRest R input payload pending).run s = (.ok r, s.openRoom input.room) ∧
        r.status = 400 := by
  unfold publishRest publishCommit ServiceState.publishEntry
  dsimp only
  rw [Proc.run_bind, Proc.run_update]
  dsimp only
  rcases publishIntoRoom_cases (s.roomOf input.room) input.room input.sender input.topic input.id
    ((pending.map fun p => p.auth.signature).getD input.signatureFromQuery) payload
    R.config.maxMessagesPerRoom with ⟨htopic, heq⟩ | ⟨htopic, -, heq⟩ | ⟨htopic, -, heq⟩
  · rw [heq]
    exact .inr ⟨htopic, _, rfl, rfl⟩
  · rw [heq]
    exact .inl ⟨htopic, _, _, rfl, rfl⟩
  · rw [heq]
    exact .inl ⟨htopic, _, _, rfl, rfl⟩

theorem intact_openRoom (s : ServiceState C) (room : String) :
    Intact R nowSec s (s.openRoom room) :=
  ⟨rfl, fun _ => rfl, fun other => by rw [ServiceState.roomOf_openRoom]⟩

/-- The signature stage of a publish leaves a trace unless the key was seen in the same second and
the nonce goes unnoticed. -/
theorem intact_signedState_iff {registry : KeyRegistry}
    (h : SignedPublish R request env s rate parsed auth)
    (hkey : ensureTofuKey s.keyRegistry rate.sender auth.publicKey (nowEpochSec env.nowMs) =
      .ok registry) :
    Intact R (nowEpochSec env.nowMs) s (signedState R env s rate auth registry) ↔
      ¬ ((∀ record, s.keyRegistry.get? rate.sender = some record →
          record.lastSeenAt ≠ nowEpochSec env.nowMs) ∨
        nowEpochSec env.nowMs - auth.timestampSec ≤ (R.config.noncePolicy.nonceTtlSec : Int) ∨
        R.config.noncePolicy.maxNoncesPerSender ≤ (pruneNonces R.config.noncePolicy
          (s.noncesBySender.getD rate.sender ∅) (nowEpochSec env.nowMs)).size) := by
  have hseen := ensureTofuKey_same_iff hkey
  have hnonce := @remembered_unnoticed_iff R.config.noncePolicy auth.nonce auth.timestampSec
    (nowEpochSec env.nowMs) s.noncesBySender rate.sender h.unknown
  rw [not_or, not_or, Int.not_le, Nat.not_le, ← hnonce]
  constructor
  · intro hintact
    obtain ⟨record, hrecord, hlast⟩ := hseen.mp hintact.keys
    exact ⟨fun hall => hall record hrecord hlast, hintact.nonces rate.sender⟩
  · rintro ⟨hrecord, hunnoticed⟩
    refine ⟨hseen.mpr ?_, fun sender => ?_, fun room => rfl⟩
    · refine Classical.by_contradiction fun hnone => hrecord fun record hget hlast => ?_
      exact hnone ⟨record, hget, hlast⟩
    · rcases Decidable.em (sender = rate.sender) with rfl | hne
      · exact hunnoticed
      · unfold signedState rememberNonce
        dsimp only
        rw [OrdMap.getD_set_of_ne _ hne]

/-- What the signature stage of a publish leaves when it refuses, or finds no signature. -/
theorem publishSigned_intact (R : Relay C) (request : Request) (env : Env) (s : ServiceState C) :
    Proc.Triple (fun t => t = s) (publishSigned R request env)
      (fun p t => p.2.2 = none → Intact R (nowEpochSec env.nowMs) s t)
      (Intact R (nowEpochSec env.nowMs) s) := by
  refine Proc.Triple.conseq (P := Intact R (nowEpochSec env.nowMs) s) ?_
    (fun t ht => by rw [ht]; exact intact_refl s) (fun _ _ h => h) fun _ h => h
  refine (triple_of_intact intact_publishArrive s).bind fun input => ?_
  refine (triple_of_intact (intact_publishBegin input) s).bind fun p => ?_
  obtain ⟨payload, pending⟩ := p
  cases pending with
  | none => exact Proc.Triple.pure fun t ht _ => ht
  | some pending =>
    exact (triple_of_error (fun _ _ _ => finishSignature_error) s).bind fun _ =>
      Proc.Triple.pure fun t _ hnone => (by cases hnone)

/-- A request is a signed publish in one way only. -/
theorem signedPublish_unique {rate' : RateRequest} {parsed' : JsonValue}
    {auth' : PublishAuthHeaders} (h : SignedPublish R request env s rate parsed auth)
    (h' : SignedPublish R request env s rate' parsed' auth') : rate' = rate ∧ auth' = auth := by
  constructor
  · exact Option.some.inj (h'.gates.symm.trans h.gates)
  · exact Option.some.inj (Except.ok.inj (h'.headers.symm.trans h.headers))

theorem not_leavesTrace_of_path (hpath : request.pathname ≠ "/api/v1/publish") :
    ¬ LeavesTrace R request env s := by
  rintro ⟨rate, parsed, auth, hsigned, -⟩
  have hgates := hsigned.gates
  unfold rateRequest? at hgates
  dsimp only at hgates
  split at hgates
  · next h => exact hpath h.1
  · cases hgates

theorem not_leavesTrace_of_auth {r : Response} (hauth : checkAuth R request = some r) :
    ¬ LeavesTrace R request env s := by
  rintro ⟨rate, parsed, auth, hsigned, -⟩
  have hgates := hsigned.gates
  unfold rateRequest? at hgates
  dsimp only at hgates
  split at hgates
  · next h => cases hauth.symm.trans h.2.1
  · cases hgates

/-- A traced publish has passed its signature stage. -/
theorem signed_of_leavesTrace (hpathname : request.pathname = "/api/v1/publish")
    (hauth : checkAuth R request = none) (h : LeavesTrace R request env s) :
    ∃ input payload pending s',
      (publishSigned R request env).run s = (.ok (input, payload, some pending), s') := by
  obtain ⟨rate, parsed, auth, hsigned, -⟩ := h
  obtain ⟨registry, hkey⟩ := ensureTofuKey_isOk_iff.mpr hsigned.key
  exact ⟨_, _, _, _, (publishSigned_eq_ok hpathname hauth).mpr
    ⟨rate, parsed, auth, registry, hsigned, hkey, rfl, rfl, rfl, rfl⟩⟩

theorem intact_openRoom_iff {nowSec : Int} {t : ServiceState C} (room : String) :
    Intact R nowSec s (t.openRoom room) ↔ Intact R nowSec s t := by
  refine ⟨fun h => ⟨h.keys, h.nonces, fun other => ?_⟩, fun h =>
    intact_trans h (intact_openRoom _ _)⟩
  rw [← h.logs other, ServiceState.roomOf_openRoom]

/-- A signed publish that is refused behind its signature has left a trace, unless the key and the
nonce were there already. -/
theorem signed_intact_iff (hpathname : request.pathname = "/api/v1/publish")
    (hauth : checkAuth R request = none) {input : PublishInput} {payload : JsonValue}
    {pending : PendingSignature} {s' : ServiceState C}
    (hrun : (publishSigned R request env).run s = (.ok (input, payload, some pending), s')) :
    (((publishRest R input payload (some pending)).serve s').1.status ≠ 200 →
        Intact R (nowEpochSec env.nowMs) s ((publishRest R input payload (some pending)).serve s').2) ↔
      ¬ LeavesTrace R request env s := by
  obtain ⟨rate, parsed, auth, registry, hpublish, hkey, rfl, -, -, rfl⟩ :=
    (publishSigned_eq_ok hpathname hauth).mp hrun
  have hnews := intact_signedState_iff hpublish hkey
  unfold Handler.serve
  rcases publishRest_cases (arrivedInput request env rate) payload (some pending)
    (signedState R env s rate auth registry) with ⟨htopic, r, t, hrest, hstatus⟩ |
      ⟨htopic, r, hrest, hstatus⟩
  · dsimp only [arrivedInput] at htopic
    rw [hrest]
    refine iff_of_true (fun hrefused => absurd hstatus hrefused) ?_
    rintro ⟨_, _, _, _, hinvalid, -⟩
    cases hinvalid.symm.trans htopic
  · dsimp only [arrivedInput] at htopic
    rw [hrest]
    dsimp only
    rw [intact_openRoom_iff, hnews]
    have hstatus200 : r.status ≠ 200 := by
      rw [hstatus]
      decide
    constructor
    · rintro hkept ⟨rate', parsed', auth', hpublish', -, hnew⟩
      obtain ⟨rfl, rfl⟩ := signedPublish_unique hpublish hpublish'
      exact hkept hstatus200 hnew
    · exact fun hnone _ hnew => hnone ⟨rate, parsed, auth, hpublish, htopic, hnew⟩

theorem publish_intact_iff (hpath : Endpoint.ofPath request.pathname = some .publish) :
    ((serve R request env s).1.status ≠ 200 →
        Intact R (nowEpochSec env.nowMs) s (serve R request env s).2) ↔
      ¬ LeavesTrace R request env s := by
  have hpathname : request.pathname = "/api/v1/publish" := Endpoint.path_of hpath
  rw [serve_endpoint hpath]
  cases hauth : checkAuth R request with
  | some r =>
    have hrun : (Endpoint.publish.guarded R request env).serve s = (r, s) := by
      unfold Endpoint.guarded
      rw [hauth]
      rfl
    rw [hrun]
    exact iff_of_true (fun _ => intact_refl s) (not_leavesTrace_of_auth hauth)
  | none =>
    have hguarded : Endpoint.publish.guarded R request env =
        (publishSigned R request env >>= fun p => publishRest R p.1 p.2.1 p.2.2) := by
      unfold Endpoint.guarded
      rw [hauth]
      rfl
    rw [hguarded]
    obtain ⟨hok, herror⟩ := publishSigned_intact R request env s s rfl
    have htraced := fun htrace : LeavesTrace R request env s =>
      signed_of_leavesTrace hpathname hauth htrace
    unfold Handler.serve
    rw [Proc.run_bind]
    cases hrun : (publishSigned R request env).run s with
    | mk result s' =>
    rw [hrun] at hok herror htraced
    cases result with
    | error r =>
      refine iff_of_true (fun _ => herror r s' rfl) fun htrace => ?_
      obtain ⟨_, _, _, _, hpassed⟩ := htraced htrace
      cases hpassed
    | ok p =>
      obtain ⟨input, payload, pending⟩ := p
      cases pending with
      | none =>
        have hkept := hok _ s' rfl rfl
        refine iff_of_true (fun hrefused => ?_) fun htrace => ?_
        · dsimp only at hrefused ⊢
          rcases publishRest_cases input payload none s' with ⟨-, r, t, hrest, hstatus⟩ |
            ⟨-, r, hrest, -⟩
          · rw [hrest] at hrefused
            exact absurd hstatus hrefused
          · rw [hrest]
            exact intact_trans hkept (intact_openRoom s' input.room)
        · obtain ⟨_, _, _, _, hpassed⟩ := htraced htrace
          cases hpassed
      | some pending => exact signed_intact_iff hpathname hauth hrun

end

end RefusalLemmas

open RefusalLemmas

/-! ## Results -/

section
variable {C : Type} {R : Relay C} {request : Request}

/-- A refused publish, review or key rotation leaves keys, nonces and logs as they were, unless it
is a signed publish that passes every other check and has an invalid topic. -/
theorem refused_intact_iff
    (h : ∃ endpoint, Endpoint.ofPath request.pathname = some endpoint ∧ endpoint.signs = true)
    (env : Env) (s : ServiceState C) :
    ((serve R request env s).1.status ≠ 200 →
        Intact R (nowEpochSec env.nowMs) s (serve R request env s).2) ↔
      ¬ LeavesTrace R request env s := by
  obtain ⟨endpoint, hpath, hsigns⟩ := h
  cases endpoint with
  | publish => exact publish_intact_iff hpath
  | review =>
    refine iff_of_true (review_intact hpath) (not_leavesTrace_of_path fun hpublish => ?_)
    rw [hpublish] at hpath
    cases hpath
  | keyRotate =>
    refine iff_of_true (rotate_intact hpath) (not_leavesTrace_of_path fun hpublish => ?_)
    rw [hpublish] at hpath
    cases hpath
  | _ => cases hsigns

end

/-! ## On the toy host -/

/-- A signed publish by `alice` at second 1000, to the given topic. -/
def publishToTopic (topic : String) : Request :=
  .post "/api/v1/publish" [("sender", "alice"), ("id", "m1"), ("topic", topic)]
    (toyHeaders "k1" "1000" "n1") ⟨"null", some .null⟩

/-- The relay has a new key and a new nonce from a message that it refuses; the message with a
topic is then refused as a replay, though an empty relay takes it. -/
theorem nonce_spent :
    ((serve (.toy .default) (publishToTopic "not a topic") (.at 1000000) (.init ())).1.status ≠ 200 ∧
      ¬ Intact (.toy .default) (nowEpochSec (Env.at 1000000).nowMs) (.init ())
        (serve (.toy .default) (publishToTopic "not a topic") (.at 1000000) (.init ())).2) ∧
    (serve (.toy .default) (publishToTopic "notify") (.at 1000000)
      (serve (.toy .default) (publishToTopic "not a topic") (.at 1000000) (.init ())).2).1.status =
        409 ∧
    (serve (.toy .default) (publishToTopic "notify") (.at 1000000) (.init ())).1.status = 200 := by
  refine ⟨⟨by decide, fun hintact => ?_⟩, by decide, by decide⟩
  exact absurd hintact.keys (by decide)

/-- The same publish to a topic leaves nothing when it is refused. -/
theorem refused_intact_iff_notify :
    ((serve (.toy .default) (publishToTopic "notify") (.at 1000000) (.init ())).1.status ≠ 200 →
        Intact (.toy .default) (nowEpochSec (Env.at 1000000).nowMs) (.init ())
          (serve (.toy .default) (publishToTopic "notify") (.at 1000000) (.init ())).2) ↔
      ¬ LeavesTrace (.toy .default) (publishToTopic "notify") (.at 1000000) (.init ()) :=
  refused_intact_iff ⟨.publish, by decide, by decide⟩ (.at 1000000) (.init ())

end BitRelay
