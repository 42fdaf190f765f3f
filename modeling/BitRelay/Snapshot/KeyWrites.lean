import BitRelay.KeyContinuity
import BitRelay.Snapshot.Identity

/-!
# What requests write into the key registry

A request that waits for a verification carries the key it may write
(`Phase.writesKey`). Along its phases that key stays one that a restart accepts,
and no step of a request writes any other.

Results:
1. `start_sound`, `resume_sound`: the phases of a request write storable keys,
   and only requests after which the identity is saved come to wait.
2. `start_publicKeyOf`, `resume_keyStep`: the first step writes no key, and a
   later one only the key of its phase.
3. `resume_keeps`: a registered key stays, or the committed rotation replaces it.
-/

namespace BitRelay

section
variable {C : Type}

/-! ## Definitions -/

/-- The requests after which `RelayRoom` saves the identity. -/
def Request.savesIdentity (request : Request) : Bool :=
  request.pathname == "/api/v1/publish" || request.pathname == "/api/v1/key/rotate" ||
    request.pathname == "/api/v1/key/verify-github" ||
    (request.pathname == "/api/v1/review" && request.method == "POST")

/-- The sender and the key that the end of a verification writes. -/
def Phase.writesKey : Phase → Option (String × String)
  | publishVerify _ _ pending => pending.map fun p => (p.sender, p.auth.publicKey)
  | reviewVerify _ pending => some (pending.sender, pending.auth.publicKey)
  | rotateVerify pending => some (pending.fields.sender, pending.fields.newPublicKey)
  | publishBody _ | publishReturn _ _ _ | publishPersist _ | rotateBody | gitHubBody
  | gitHubKeys _ => none

/-- What holds of a phase of `request`. -/
structure SoundPhase (request : Request) (phase : Phase) : Prop where
  saves : request.savesIdentity = true
  named : ∀ input, phase = .publishBody input → trim input.sender ≠ ""
  storable : ∀ w, phase.writesKey = some w → StorableKey w.1 w.2

/-- A key after the step was there before it, or is the one in `written`. -/
def KeyStep (written : Option (String × String)) (s s' : ServiceState C) : Prop :=
  ∀ sender publicKey, s'.keyRegistry.publicKeyOf sender = some publicKey →
    s.keyRegistry.publicKeyOf sender = some publicKey ∨ written = some (sender, publicKey)

/-- Nothing is signed and no key is replaced. -/
def Allowed.unsigned : Allowed C := ⟨fun _ _ => True, True, False, False⟩

variable {R : Relay C} {request : Request} {env : Env} {s s' : ServiceState C}
variable {written : Option (String × String)}

namespace KeyWriteLemmas

/-! Keys that a restart accepts. -/

theorem storableKey_of_base64 {sender publicKey : String} (hsender : trim sender ≠ "")
    (hkey : isLikelyBase64Url publicKey = true) : StorableKey sender publicKey := by
  unfold isLikelyBase64Url at hkey
  simp only [Bool.and_eq_true, Bool.not_eq_true', List.isEmpty_eq_false_iff, List.all_eq_true] at hkey
  refine ⟨hsender, trimmed_of_nospace fun c hc => ?_, ?_⟩
  · refine isJsSpace_of_isNameChar ?_
    have hchar := hkey.2 c hc
    simp only [isBase64UrlChar, isNameChar, Bool.or_eq_true] at hchar ⊢
    rcases hchar with (halphanum | hunderscore) | hdash
    · exact .inl (.inl (.inl halphanum))
    · exact .inl (.inr hunderscore)
    · exact .inr hdash
  · rintro rfl
    exact hkey.1 rfl

theorem parsePublishAuthHeaders_key {auth : PublishAuthHeaders}
    (h : parsePublishAuthHeaders request = .ok (some auth)) :
    isLikelyBase64Url auth.publicKey = true := by
  unfold parsePublishAuthHeaders at h
  simp only at h
  split at h
  · cases h
  split at h
  · cases h
  split at h
  · cases h
  next hkey =>
    split at h
    · cases h
    split at h
    · cases h
    split at h
    · cases h
    cases h
    rw [not_or] at hkey
    simpa using hkey.1

theorem named_of_freeText {sender : String} (h : FreeText sender) : trim sender ≠ "" := by
  rw [h.2]
  exact h.1

/-! The first step. -/

theorem reviewBegin_storable {room : String} {input : ReviewInput} {pending : PendingSignature}
    (h : (reviewBegin R request room env).run s = (.ok (input, pending), s')) :
    StorableKey pending.sender pending.auth.publicKey := by
  obtain ⟨sender, s1, h1, k1⟩ := Proc.bind_ok h
  obtain ⟨_, s2, -, k2⟩ := Proc.bind_ok k1
  obtain ⟨_, s3, -, k3⟩ := Proc.bind_ok k2
  obtain ⟨_, s4, -, k4⟩ := Proc.bind_ok k3
  obtain ⟨presented, s5, h5, k5⟩ := Proc.bind_ok k4
  obtain ⟨auth, s6, h6, k6⟩ := Proc.bind_ok k5
  obtain ⟨begun, s7, h7, k7⟩ := Proc.bind_ok k6
  obtain ⟨_, s8, -, k8⟩ := Proc.bind_ok h7
  cases k8
  cases k7
  obtain ⟨hheaders, -⟩ := Proc.ofExcept_ok h5
  obtain ⟨hauth, -⟩ := Proc.ofExcept_ok h6
  cases presented with
  | none => cases hauth
  | some presented =>
    cases hauth
    exact storableKey_of_base64 (named_of_freeText (requireParam_ok h1).2.1) (parsePublishAuthHeaders_key hheaders)

theorem savesIdentity_of {endpoint : Endpoint}
    (h : Endpoint.ofPath request.pathname = some endpoint)
    (hendpoint : endpoint = .publish ∨ endpoint = .keyRotate ∨ endpoint = .keyVerifyGitHub ∨
      endpoint = .review ∧ request.method = "POST") : request.savesIdentity = true := by
  have hpath := Endpoint.path_of h
  unfold Request.savesIdentity
  rcases hendpoint with rfl | rfl | rfl | ⟨rfl, hpost⟩
  · rw [hpath]
    rfl
  · rw [hpath]
    rfl
  · rw [hpath]
    rfl
  · rw [hpath, hpost]
    rfl

end KeyWriteLemmas

open KeyWriteLemmas

/-! ## The phases -/

/-- A request that comes to wait. -/
theorem start_sound {phase : Phase} (h : (start R request env).run s = (.ok (.inr phase), s')) :
    SoundPhase request phase := by
  unfold start at h
  split at h
  · cases h
  split at h
  · cases h
  split at h
  · next endpoint hpath =>
    obtain ⟨_, s1, -, k1⟩ := Proc.bind_ok h
    rcases InFlightLemmas.start_cases (R := R) request env endpoint with hwaits | ⟨-, hstart⟩
    · cases endpoint with
      | publish =>
        obtain ⟨input, s2, h2, k2⟩ := Proc.bind_ok k1
        cases k2
        refine ⟨savesIdentity_of hpath (.inl rfl), fun other hother => ?_, fun w hw => by cases hw⟩
        cases hother
        exact named_of_freeText (publishArrive_ok h2).2.1
      | review =>
        obtain ⟨room, s2, -, k2⟩ := Proc.bind_ok k1
        split at k2
        · obtain ⟨response, s3, -, k3⟩ := Proc.bind_ok k2
          cases k3
        split at k2
        · next hpost =>
          obtain ⟨⟨input, pending⟩, s3, h3, k3⟩ := Proc.bind_ok k2
          cases k3
          refine ⟨savesIdentity_of hpath (.inr (.inr (.inr ⟨rfl, hpost⟩))),
            fun other hother => (by cases hother), fun w hw => ?_⟩
          cases hw
          exact reviewBegin_storable h3
        · cases k2
      | keyRotate =>
        obtain ⟨_, s2, -, k2⟩ := Proc.bind_ok k1
        cases k2
        exact ⟨savesIdentity_of hpath (.inr (.inl rfl)), fun _ hother => (by cases hother),
          fun _ hw => by cases hw⟩
      | keyVerifyGitHub =>
        obtain ⟨_, s2, -, k2⟩ := Proc.bind_ok k1
        cases k2
        exact ⟨savesIdentity_of hpath (.inr (.inr (.inl rfl))), fun _ hother => (by cases hother),
          fun _ hw => by cases hw⟩
      | _ => cases hwaits
    · rw [hstart] at k1
      obtain ⟨response, s2, -, k2⟩ := Proc.bind_ok k1
      cases k2
  · obtain ⟨_, s1, -, k1⟩ := Proc.bind_ok h
    cases k1

/-- A request that goes on waiting. -/
theorem resume_sound {phase next : Phase} (hphase : SoundPhase request phase)
    (h : (phase.resume R request env).run s = (.ok (.inr next), s')) : SoundPhase request next := by
  have hsaves := hphase.saves
  cases phase with
  | publishBody input =>
    obtain ⟨⟨payload, pending⟩, s1, h1, k1⟩ := Proc.bind_ok h
    cases k1
    refine ⟨hsaves, fun other hother => (by cases hother), fun w hw => ?_⟩
    rcases publishBegin_ok h1 with ⟨rfl, -, -⟩ | ⟨auth, hauth, rfl, -, -, -⟩
    · cases hw
    · cases hw
      exact storableKey_of_base64 (hphase.named input rfl) (parsePublishAuthHeaders_key hauth)
  | publishVerify | publishReturn | gitHubBody =>
    obtain ⟨a, s1, -, k1⟩ := Proc.bind_ok h
    cases k1
    exact ⟨hsaves, fun _ hother => (by cases hother), fun _ hw => by cases hw⟩
  | publishPersist | rotateVerify | gitHubKeys =>
    obtain ⟨a, s1, -, k1⟩ := Proc.bind_ok h
    cases k1
  | reviewVerify input pending =>
    obtain ⟨a, s1, -, k1⟩ := Proc.bind_ok h
    obtain ⟨b, s2, -, k2⟩ := Proc.bind_ok k1
    cases k2
  | rotateBody =>
    obtain ⟨pending, s1, h1, k1⟩ := Proc.bind_ok h
    cases k1
    refine ⟨hsaves, fun other hother => (by cases hother), fun w hw => ?_⟩
    cases hw
    obtain ⟨⟨parsed, -, hfields⟩, -⟩ := KeyContinuityLemmas.rotateBegin_ok h1
    obtain ⟨hsender, hne, hkey, -⟩ := parseRotateFields_ok hfields
    refine storableKey_of_base64 ?_ hkey
    rw [hsender, trim_trim, ← hsender]
    exact hne

/-! ## The registry -/

namespace KeyWriteLemmas

theorem KeyStep.refl (s : ServiceState C) : KeyStep written s s := fun _ _ h => .inl h

theorem KeyStep.trans {s'' : ServiceState C} (h : KeyStep written s s')
    (h' : KeyStep written s' s'') : KeyStep written s s'' := by
  intro sender publicKey hkey
  rcases h' sender publicKey hkey with hold | hwritten
  · exact h sender publicKey hold
  · exact .inr hwritten

theorem KeyStep.of_chain (h : Relation.ReflTransGen (KeyStep written) s s') :
    KeyStep written s s' := by
  induction h with
  | refl => exact KeyStep.refl s
  | tail _ hstep ih => exact KeyStep.trans ih hstep

theorem publicKeyOf_eq_of_change {A : Allowed C} (h : Change R A s s') (hs : ¬ A.signs)
    (hr : ¬ A.rekeys) (sender : String) :
    s'.keyRegistry.publicKeyOf sender = s.keyRegistry.publicKeyOf sender := by
  cases h with
  | publish room sender' topic id signature payload origin hopCount maxHops _ =>
    rw [publishEntry_keyRegistry]
  | annotateKey other f hf => exact publicKeyOf_updateKey s other sender f hf
  | bindKey _ _ _ _ _ h => exact absurd h hs
  | remember _ _ _ _ h => exact absurd h hs
  | rekey _ _ h => exact absurd h hr
  | rates | room | issueSync | cache | prune => rfl

theorem leads_keyStep {α : Type} {x : Handler C α}
    (h : Proc.Leads (Change R (Allowed.unsigned : Allowed C)) x) :
    Proc.Leads (KeyStep written) x :=
  h.mono fun s s' hstep sender publicKey hkey => by
    rw [publicKeyOf_eq_of_change hstep (fun h => h) (fun h => h)] at hkey
    exact .inl hkey

theorem keyStep_remember (s : ServiceState C) (sender nonce : String) (ts nowSec : Int) :
    KeyStep written s (s.remember R sender nonce ts nowSec) := fun _ _ h => .inl h

theorem keyStep_bindKey (sender publicKey : String) (nowSec : Int) :
    Proc.Leads (KeyStep (some (sender, publicKey)))
      (bindKey sender publicKey nowSec : Handler C Unit) := by
  refine Proc.Leads.bind_post (Q := fun checked s =>
    ensureTofuKey s.keyRegistry sender publicKey nowSec = checked)
    (Proc.Leads.gets _) ?_ fun checked => ?_
  · intro s a s' h
    simp only [Proc.run_gets, Prod.mk.injEq, Except.ok.injEq] at h
    rw [← h.1, ← h.2]
  · intro s hs
    cases checked with
    | error response => exact .refl
    | ok keyRegistry =>
      refine .single fun other key hkey => ?_
      obtain ⟨hnew, -, hrest⟩ := ensureTofuKey_ok hs
      by_cases hother : other = sender
      · subst hother
        exact .inr (by rw [Option.some.inj (hkey.symm.trans hnew)])
      · refine .inl ?_
        unfold KeyRegistry.publicKeyOf at hkey ⊢
        rw [← hrest other hother]
        exact hkey

theorem keyStep_finishSignature (pending : PendingSignature) :
    Proc.Leads (KeyStep (some (pending.sender, pending.auth.publicKey)))
      (finishSignature R pending) :=
  (Proc.Leads.failIf _ _).bind fun _ => (keyStep_bindKey _ _ _).bind fun _ =>
    Proc.Leads.modify fun s => keyStep_remember s _ _ _ _

theorem keyStep_updateKey (s : ServiceState C) (sender newKey : String) {f : KeyRecord → KeyRecord}
    (hf : ∀ record, (f record).publicKey = newKey) :
    KeyStep (some (sender, newKey)) s (s.updateKey sender f) := by
  intro other key hkey
  rw [KeyContinuityLemmas.publicKeyOf_rekey s sender other newKey hf] at hkey
  split at hkey
  · next h =>
    obtain ⟨old, -, rfl⟩ := Option.map_eq_some_iff.mp hkey
    exact .inr (by rw [h])
  · exact .inl hkey

theorem keyStep_rotateCommit (pending : PendingRotate) :
    Proc.Leads (KeyStep (some (pending.fields.sender, pending.fields.newPublicKey)))
      (rotateCommit R pending) :=
  (Proc.Leads.failIf _ _).bind fun _ => (Proc.Leads.failIf _ _).bind fun _ =>
    (Proc.Leads.modify fun s => keyStep_updateKey s pending.fields.sender
      pending.fields.newPublicKey fun _ => rfl).bind fun _ =>
        Proc.Leads.modify fun s => keyStep_remember s _ _ _ _

theorem keyStep_resume (env : Env) (phase : Phase) :
    Proc.Leads (KeyStep phase.writesKey) (phase.resume R request env) := by
  cases phase with
  | publishBody input =>
    exact leads_keyStep (InFlightLemmas.leads_answered (leads_publishBegin trivial input env))
  | publishVerify input payload pending =>
    cases pending with
    | none => exact leads_keyStep (R := R) (InFlightLemmas.leads_answered (Proc.Leads.pure ()))
    | some pending => exact (keyStep_finishSignature pending).bind fun _ => Proc.Leads.pure _
  | publishReturn input payload pending =>
    exact leads_keyStep (InFlightLemmas.leads_answered (leads_publishEntry R fun _ => trivial))
  | publishPersist result =>
    exact leads_keyStep (InFlightLemmas.leads_answered (leads_persistResult R _))
  | reviewVerify input pending =>
    exact (keyStep_finishSignature pending).bind fun _ =>
      leads_keyStep (R := R) (InFlightLemmas.leads_answered (leads_reviewCommit _ _))
  | rotateBody =>
    exact leads_keyStep (InFlightLemmas.leads_answered (leads_rotateBegin trivial env))
  | rotateVerify pending => exact (keyStep_rotateCommit pending).bind fun _ => Proc.Leads.pure _
  | gitHubBody => exact leads_keyStep (R := R) (InFlightLemmas.leads_answered leads_verifyGitHubBegin)
  | gitHubKeys sender =>
    exact leads_keyStep (R := R) (InFlightLemmas.leads_answered (leads_verifyGitHubFinish _ env))

end KeyWriteLemmas

/-- The first step of a request writes no key. -/
theorem start_publicKeyOf (R : Relay C) (request : Request) (env : Env) (s : ServiceState C)
    (sender : String) :
    ((start R request env).run s).2.keyRegistry.publicKeyOf sender =
      s.keyRegistry.publicKeyOf sender := by
  have hleads : Proc.Leads (Change R (Allowed.unsigned : Allowed C)) (start R request env) :=
    leads_startAs trivial (fun _ _ => trivial) env
  exact hleads.keeps (I := fun t => t.keyRegistry.publicKeyOf sender =
    s.keyRegistry.publicKeyOf sender) (fun _ _ hstep ht =>
      (publicKeyOf_eq_of_change hstep (fun h => h) (fun h => h) sender).trans ht) rfl

/-- A later step writes at most the key of its phase. -/
theorem resume_keyStep (R : Relay C) (request : Request) (env : Env) (phase : Phase)
    (s : ServiceState C) :
    KeyStep phase.writesKey s ((phase.resume R request env).run s).2 :=
  KeyStep.of_chain (keyStep_resume env phase s)

/-- A registered key stays, or a committed rotation of its sender replaces it. -/
theorem resume_keeps (R : Relay C) (request : Request) (env : Env) (phase : Phase)
    {sender publicKey : String} (hkey : s.keyRegistry.publicKeyOf sender = some publicKey) :
    ((phase.resume R request env).run s).2.keyRegistry.publicKeyOf sender = some publicKey ∨
    ∃ pending response, phase = .rotateVerify pending ∧ pending.fields.sender = sender ∧
      ((phase.resume R request env).run s).1 = .ok (.inl response) ∧
      ((phase.resume R request env).run s).2.keyRegistry.publicKeyOf sender =
        some pending.fields.newPublicKey := by
  cases hrotating : phase.rotating with
  | none => exact .inl (KeyContinuityLemmas.keeps_key (leads_resume env hrotating) hkey)
  | some pending =>
    have hphase : phase = .rotateVerify pending := by
      cases phase with
      | rotateVerify other =>
        cases hrotating
        rfl
      | _ => cases hrotating
    subst hphase
    have hrun : ((Phase.rotateVerify pending).resume R request env).run s =
        (rotateCommit R pending >>= fun _ => pure (Sum.inl pending.toResponse)).run s := rfl
    rw [hrun, Proc.run_bind]
    match hcommit : (rotateCommit R pending).run s with
    | (.error e, s1) =>
      rw [KeyContinuityLemmas.rotateCommit_error hcommit]
      exact .inl hkey
    | (.ok u, s1) =>
      obtain ⟨-, -, f, hf, rfl⟩ := rotateCommit_ok hcommit
      have hkeys := KeyContinuityLemmas.publicKeyOf_rekey s pending.fields.sender sender _ hf
      by_cases hsender : sender = pending.fields.sender
      · rw [if_pos hsender, ← hsender, hkey] at hkeys
        rw [← hsender]
        exact .inr ⟨pending, _, rfl, hsender.symm, rfl, hkeys⟩
      · rw [if_neg hsender, hkey] at hkeys
        exact .inl hkeys

end

end BitRelay
