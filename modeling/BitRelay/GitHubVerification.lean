import BitRelay.GitHubKeys
import BitRelay.Service.Parts

/-!
# What a GitHub verification vouches for

A verification reads the list of keys that GitHub has for the sender, waits for it, and then marks
the record of the sender as verified if its key is on the list. While it waits, other requests may
bind, rotate and verify keys. A rotation overwrites the record and takes the mark back, and the
verification compares the record as it is behind the wait; so a mark always belongs to the key that
was compared.

Results:
1. `unverified_start`, `verified_resume`: only the end of a verification marks a record.
2. `github_verification_sound`: a marked key is on a list that GitHub answered for the sender, and
   has been the marked key of the sender ever since.
-/

namespace BitRelay

/-! ## The list of keys -/

/-- `text.split('\n')` -/
def textLines (text : String) : List String := (text.toList.splitOn '\n').map String.ofList

def parseOpenSshEd25519Keys (text : String) : List Bytes :=
  (textLines text).filterMap parseOpenSshEd25519Line

/-- What comes of `fetchFn(...)` and of `res.text()`. -/
inductive GitHubAnswer
  | failed (message : String)
  | answered (status : Nat) (text : String)

def fetchGitHubEd25519Keys : GitHubAnswer → Except String (List Bytes)
  | .failed message => .error message
  | .answered status text =>
    if 200 ≤ status ∧ status ≤ 299 then .ok (parseOpenSshEd25519Keys text)
    else .error ("github returned " ++ toString status)

/-- A line of the list is an `ssh-ed25519` line that holds the key, in the wire format. -/
def ListsKey (text : String) (raw : Bytes) : Prop :=
  ∃ line ∈ textLines text, ∃ rest, HoldsBlob line (ed25519Wire raw ++ rest)

/-! ## The system -/

/-- An event of the requests in flight, with what GitHub answers to a verification that waits. -/
inductive GitHubEvent
  | arrive (request : Request) (env : Env)
  | resume (task : Nat) (env : Env) (answer : GitHubAnswer)

def GitHubEvent.inFlight : GitHubEvent → InFlightEvent
  | arrive request env => .arrive request env
  | resume task env answer => .resume task { env with githubKeys := fetchGitHubEd25519Keys answer }

section
variable {C : Type} (R : Relay C)

def InFlight.gitHubStep (sys : InFlight C) (event : GitHubEvent) : InFlight C :=
  sys.step R event.inFlight

/-- The system after a run from the empty service. -/
def InFlight.gitHubAfter (cache : C) (events : List GitHubEvent) : InFlight C :=
  runFrom (InFlight.gitHubStep R) (.init cache) events

/-- The record of the sender has this key, and is marked as verified. -/
def VerifiedAs (s : ServiceState C) (sender key : String) : Prop :=
  ∃ record, s.keyRegistry.get? sender = some record ∧ record.publicKey = key ∧
    record.githubVerifiedAt.isSome = true

instance (s : ServiceState C) (sender key : String) : Decidable (VerifiedAs s sender key) :=
  match h : s.keyRegistry.get? sender with
  | none => isFalse fun ⟨_, hget, _⟩ => by rw [h] at hget; cases hget
  | some record =>
    decidable_of_iff (record.publicKey = key ∧ record.githubVerifiedAt.isSome = true)
      ⟨fun hrecord => ⟨record, h, hrecord⟩, fun ⟨_, hget, hrecord⟩ =>
        Option.some.inj (h.symm.trans hget) ▸ hrecord⟩

/-- A key that is marked after the step was marked before it. -/
def KeepsUnverified (s s' : ServiceState C) : Prop :=
  ∀ sender key, VerifiedAs s' sender key → VerifiedAs s sender key

variable {R} {s s' : ServiceState C} {request : Request} {env : Env}

namespace GitHubVerificationLemmas

open TouchLemmas

/-! ## What a step marks -/

theorem unverified_of_chain (h : Relation.ReflTransGen KeepsUnverified s s') :
    KeepsUnverified s s' := by
  induction h with
  | refl => exact fun _ _ h => h
  | tail _ hstep ih => exact fun sender key h => ih sender key (hstep sender key h)

theorem unverified_of_registry (h : s'.keyRegistry = s.keyRegistry) : KeepsUnverified s s' := by
  intro sender key hverified
  unfold VerifiedAs at hverified ⊢
  rw [← h]
  exact hverified

theorem leads_of_touches {α : Type} {parts : List StatePart} {x : Handler C α}
    (h : Touches parts x) (hkeys : .keys ∉ parts) : Proc.Leads KeepsUnverified x :=
  h.mono fun _ _ hstep => unverified_of_registry (hstep .keys hkeys)

/-- A key that is bound is not marked, and one that was bound before stays as it is marked. -/
theorem unverified_ensureTofuKey {keyRegistry : KeyRegistry} {sender publicKey : String}
    {nowSec : Int} (h : ensureTofuKey s.keyRegistry sender publicKey nowSec = .ok keyRegistry) :
    KeepsUnverified s { s with keyRegistry } := by
  rintro other key ⟨record, hget, hkey, hverified⟩
  have hother : other ≠ sender → VerifiedAs s other key := fun hne =>
    ⟨record, ((ensureTofuKey_ok h).2.2 other hne).symm.trans hget, hkey, hverified⟩
  unfold ensureTofuKey at h
  split at h
  · cases h
    rcases Decidable.em (other = sender) with rfl | hne
    · rw [OrdMap.get?_set_self] at hget
      obtain rfl := Option.some.inj hget
      cases hverified
    · exact hother hne
  · next old hold =>
    split at h
    · cases h
    split at h
    · cases h
    cases h
    rcases Decidable.em (other = sender) with rfl | hne
    · rw [OrdMap.get?_set_self] at hget
      obtain rfl := Option.some.inj hget
      exact ⟨old, hold, hkey, hverified⟩
    · exact hother hne

theorem unverified_bindKey (sender publicKey : String) (nowSec : Int) :
    Proc.Leads KeepsUnverified (bindKey sender publicKey nowSec : Handler C Unit) := by
  refine Proc.Leads.bind_post (Q := fun checked s =>
    ensureTofuKey s.keyRegistry sender publicKey nowSec = checked)
    (Proc.Leads.gets _) ?_ fun checked => ?_
  · intro s a s' h
    simp only [Proc.run_gets, Prod.mk.injEq, Except.ok.injEq] at h
    rw [← h.1, ← h.2]
  · intro s hs
    cases checked with
    | error response => exact .refl
    | ok keyRegistry => exact .single (unverified_ensureTofuKey hs)

theorem unverified_finishSignature (pending : PendingSignature) :
    Proc.Leads KeepsUnverified (finishSignature R pending) :=
  (Proc.Leads.failIf _ _).bind fun _ => (unverified_bindKey _ _ _).bind fun _ =>
    Proc.Leads.modify fun _ => unverified_of_registry rfl

/-- A record that is overwritten without a mark. -/
theorem unverified_updateKey (s : ServiceState C) (sender : String) {f : KeyRecord → KeyRecord}
    (hf : ∀ record, (f record).githubVerifiedAt = none) :
    KeepsUnverified s (s.updateKey sender f) := by
  rintro other key ⟨record, hget, hkey, hverified⟩
  unfold ServiceState.updateKey at hget
  split at hget
  · exact ⟨record, hget, hkey, hverified⟩
  · next old hold =>
    rw [OrdMap.get?_set] at hget
    split at hget
    · rw [← Option.some.inj hget, hf] at hverified
      cases hverified
    · exact ⟨record, hget, hkey, hverified⟩

theorem unverified_rotateCommit (pending : PendingRotate) :
    Proc.Leads KeepsUnverified (rotateCommit R pending) :=
  (Proc.Leads.failIf _ _).bind fun _ => (Proc.Leads.failIf _ _).bind fun _ =>
    (Proc.Leads.modify fun s => unverified_updateKey s _ fun _ => rfl).bind fun _ =>
      Proc.Leads.modify fun _ => unverified_of_registry rfl

/-- The end of a verification marks the record, if its key is on the list. -/
theorem triple_verifyGitHubFinish (sender : String) (env : Env) (s : ServiceState C) :
    Proc.Triple (· = s) (verifyGitHubFinish sender env : Handler C Response)
      (fun _ t => ∃ keys f, env.githubKeys = .ok keys ∧
        matchesGitHubKey ((s.keyRegistry.publicKeyOf sender).getD "") keys = true ∧
        (∀ record : KeyRecord, (f record).publicKey = record.publicKey) ∧
        t = s.updateKey sender f) (· = s) := by
  refine (Proc.Triple.ofExcept fun _ h => h).bind fun keys => Proc.Triple.of_fact fun hkeys => ?_
  have hok : env.githubKeys = .ok keys := by
    cases hgot : env.githubKeys with
    | error message =>
      rw [hgot] at hkeys
      cases hkeys
    | ok got =>
      rw [hgot] at hkeys
      rw [Except.ok.inj hkeys]
  refine (Proc.Triple.gets _).bind fun publicKey => (Proc.Triple.failIf fun _ h => h.2).bind
    fun _ => Proc.Triple.of_fact fun hmatches => ?_
  refine Proc.Triple.bind (Proc.Triple.modify (Q := fun _ t => ∃ keys f, env.githubKeys = .ok keys ∧
    matchesGitHubKey ((s.keyRegistry.publicKeyOf sender).getD "") keys = true ∧
    (∀ record : KeyRecord, (f record).publicKey = record.publicKey) ∧
    t = s.updateKey sender f) ?_) fun _ => Proc.Triple.pure fun _ h => h
  rintro t ⟨rfl, rfl⟩
  refine ⟨keys, _, hok, eq_true_of_ne_false hmatches, fun _ => ?_, rfl⟩
  rfl

/-- A sender that is marked by the write was marked before, or it is the one written to. -/
theorem verified_updateKey {other sender key : String} {f : KeyRecord → KeyRecord}
    (hf : ∀ record, (f record).publicKey = record.publicKey)
    (h : VerifiedAs (s.updateKey other f) sender key) :
    VerifiedAs s sender key ∨ other = sender ∧ s.keyRegistry.publicKeyOf sender = some key := by
  obtain ⟨record, hget, hkey, hverified⟩ := h
  unfold ServiceState.updateKey at hget
  split at hget
  · exact .inl ⟨record, hget, hkey, hverified⟩
  · next old hold =>
    rw [OrdMap.get?_set] at hget
    split at hget
    · next hsame =>
      refine .inr ⟨hsame.symm, ?_⟩
      rw [hsame, KeyRegistry.publicKeyOf, hold, Option.map_some, ← hf old, Option.some.inj hget,
        hkey]
    · exact .inl ⟨record, hget, hkey, hverified⟩

end GitHubVerificationLemmas

open GitHubVerificationLemmas TouchLemmas

/-- The first step of a request marks no record. -/
theorem unverified_start (env : Env) : Proc.Leads KeepsUnverified (start R request env) := by
  unfold start
  refine Proc.Leads.ite (Proc.Leads.pure _) (Proc.Leads.ite (Proc.Leads.pure _) ?_)
  split
  · next endpoint h =>
    refine (Proc.Leads.failWith _).bind fun _ => ?_
    cases endpoint with
    | publish =>
      have htouches : Touches [.rates] (publishArrive R request env) :=
        touches_publishArrive (by decide)
      exact (leads_of_touches htouches (by decide)).bind fun _ => Proc.Leads.pure _
    | review =>
      have hroom : Touches [] (requireRoom R request) := touches_requireRoom _
      refine (leads_of_touches hroom (by decide)).bind fun room =>
        Proc.Leads.ite ?_ (Proc.Leads.ite ?_ (Proc.Leads.answer _))
      · have htouches : Touches [] (handleReviewGet request room : Handler C Response) :=
          touches_reviewGet _ _
        exact (leads_of_touches htouches (by decide)).bind fun _ => Proc.Leads.pure _
      · have htouches : Touches [.nonces] (reviewBegin R request room env) :=
          touches_reviewBegin (by decide) room
        exact (leads_of_touches htouches (by decide)).bind fun _ => Proc.Leads.pure _
    | keyRotate | keyVerifyGitHub =>
      have htouches (method : String) : Touches [] (requireMethod request method : Handler C Unit) :=
        touches_requireMethod _ _
      exact (leads_of_touches (htouches _) (by decide)).bind fun _ => Proc.Leads.pure _
    | _ => exact leads_of_touches (touches_start _) (by decide)
  · exact (Proc.Leads.failWith _).bind fun _ => Proc.Leads.pure _

/-- A later step marks a record only at the end of a verification. -/
theorem verified_resume (env : Env) (phase : Phase) {sender key : String}
    (h : VerifiedAs ((phase.resume R request env).run s).2 sender key) :
    VerifiedAs s sender key ∨ phase = .gitHubKeys sender ∧
      s.keyRegistry.publicKeyOf sender = some key ∧
      ∃ keys, env.githubKeys = .ok keys ∧ matchesGitHubKey key keys = true := by
  have hother : Proc.Leads KeepsUnverified (phase.resume R request env) →
      VerifiedAs s sender key := fun hleads => unverified_of_chain (hleads s) sender key h
  cases phase with
  | publishBody input =>
    exact .inl (hother (leads_of_touches (touches_resume _) (by simp [Phase.writesTo])))
  | publishVerify input payload pending =>
    refine .inl (hother ?_)
    cases pending with
    | none => exact Proc.Leads.pure _
    | some pending => exact (unverified_finishSignature pending).bind fun _ => Proc.Leads.pure _
  | publishReturn input payload pending =>
    exact .inl (hother (leads_of_touches (touches_resume _) (by simp [Phase.writesTo])))
  | publishPersist result =>
    exact .inl (hother (leads_of_touches (touches_resume _) (by simp [Phase.writesTo])))
  | reviewVerify input pending =>
    refine .inl (hother ((unverified_finishSignature pending).bind fun _ => ?_))
    have htouches : Touches [.reviews] (reviewCommit input pending : Handler C Response) :=
      touches_reviewCommit (by decide) input pending
    exact (leads_of_touches htouches (by decide)).bind fun _ => Proc.Leads.pure _
  | rotateBody => exact .inl (hother (leads_of_touches (touches_resume _) (by simp [Phase.writesTo])))
  | rotateVerify pending =>
    exact .inl (hother ((unverified_rotateCommit pending).bind fun _ => Proc.Leads.pure _))
  | gitHubBody => exact .inl (hother (leads_of_touches (touches_resume _) (by simp [Phase.writesTo])))
  | gitHubKeys other =>
    have htriple := triple_verifyGitHubFinish other env s s rfl
    have hstate : (((Phase.gitHubKeys other).resume R request env).run s).2 =
        ((verifyGitHubFinish other env).run s).2 :=
      Proc.run_bind_state (fun _ _ => rfl) s
    rw [hstate] at h
    match hrun : (verifyGitHubFinish other env).run s with
    | (.error response, t) =>
      rw [hrun, htriple.2 _ _ hrun] at h
      exact .inl h
    | (.ok response, t) =>
      obtain ⟨keys, f, hkeys, hmatches, hf, ht⟩ := htriple.1 _ _ hrun
      rw [hrun, ht] at h
      rcases verified_updateKey hf h with hold | ⟨rfl, hkey⟩
      · exact .inl hold
      · rw [hkey, Option.getD_some] at hmatches
        exact .inr ⟨rfl, hkey, keys, hkeys, hmatches⟩

/-! ## Runs -/

namespace GitHubVerificationLemmas

/-- A key is on the list that was read when the verification matches it. -/
theorem lists_of_matches {answer : GitHubAnswer} {keys : List Bytes} {key : String}
    (hkeys : fetchGitHubEd25519Keys answer = .ok keys) (hmatches : matchesGitHubKey key keys = true) :
    ∃ status text raw, answer = .answered status text ∧ 200 ≤ status ∧ status ≤ 299 ∧
      base64UrlDecode key = some raw ∧ raw.length = 32 ∧ ListsKey text raw := by
  cases answer with
  | failed message => cases hkeys
  | answered status text =>
    unfold fetchGitHubEd25519Keys at hkeys
    dsimp only at hkeys
    split at hkeys
    · next hstatus =>
      cases hkeys
      unfold matchesGitHubKey at hmatches
      split at hmatches
      · cases hmatches
      · next raw hraw =>
        rw [Bool.and_eq_true, decide_eq_true_eq, List.any_eq_true] at hmatches
        obtain ⟨hlength, listed, hlisted, hsame⟩ := hmatches
        rw [Bool.and_eq_true] at hsame
        obtain rfl := eq_of_beq hsame.2
        obtain ⟨line, hline, hparsed⟩ := List.mem_filterMap.mp hlisted
        obtain ⟨-, rest, hblob⟩ := parseOpenSshEd25519Line_eq_some_iff.mp hparsed
        exact ⟨status, text, raw, rfl, hstatus.1, hstatus.2, hraw, hlength, line, hline, rest, hblob⟩
    · cases hkeys

/-- A record that a step marks. -/
theorem marked_step {sys : InFlight C} {event : GitHubEvent} {sender key : String}
    (hbefore : ¬ VerifiedAs sys.service sender key)
    (hafter : VerifiedAs (sys.gitHubStep R event).service sender key) :
    ∃ id env answer request keys, event = .resume id env answer ∧
      sys.tasks.get? id = some ⟨request, .gitHubKeys sender⟩ ∧
      sys.service.keyRegistry.publicKeyOf sender = some key ∧
      fetchGitHubEd25519Keys answer = .ok keys ∧ matchesGitHubKey key keys = true := by
  cases event with
  | arrive request env =>
    change VerifiedAs (sys.arrive R request env).service sender key at hafter
    rw [service_arrive] at hafter
    exact absurd (unverified_of_chain (unverified_start env sys.service) sender key hafter) hbefore
  | resume id env answer =>
    change VerifiedAs (sys.step R (.resume id _)).service sender key at hafter
    unfold InFlight.step at hafter
    cases hget : sys.tasks.get? id with
    | none =>
      simp only [hget] at hafter
      exact absurd hafter hbefore
    | some task =>
      simp only [hget] at hafter
      rw [service_resumeTask] at hafter
      rcases verified_resume _ _ hafter with hold | ⟨hphase, hkey, keys, hkeys, hmatches⟩
      · exact absurd hold hbefore
      · obtain ⟨request, phase⟩ := task
        cases hphase
        exact ⟨id, env, answer, request, keys, rfl, hget, hkey, hkeys, hmatches⟩

end GitHubVerificationLemmas

/-- Whatever requests interleave, and whatever GitHub answers: a record that is marked as verified has
a key that decodes to 32 bytes, and some verification for the sender ended when this was the
registered key, with a list on which it is. Since then the record has been marked with this key. -/
theorem github_verification_sound (R : Relay C) (cache : C) (events : List GitHubEvent)
    (sender key : String)
    (h : VerifiedAs (InFlight.gitHubAfter R cache events).service sender key) :
    ∃ before id env status text after request raw,
      events = before ++ .resume id env (.answered status text) :: after ∧
      200 ≤ status ∧ status ≤ 299 ∧
      (InFlight.gitHubAfter R cache before).tasks.get? id = some ⟨request, .gitHubKeys sender⟩ ∧
      (InFlight.gitHubAfter R cache before).service.keyRegistry.publicKeyOf sender = some key ∧
      base64UrlDecode key = some raw ∧ raw.length = 32 ∧ ListsKey text raw ∧
      ∀ later, later <+: after → VerifiedAs (InFlight.gitHubAfter R cache
        (before ++ .resume id env (.answered status text) :: later)).service sender key := by
  have hinit : ¬ VerifiedAs (InFlight.init cache : InFlight C).service sender key := by
    rintro ⟨record, hget, -⟩
    cases hget
  obtain ⟨before, event, after, rfl, hbefore, hsince⟩ := gained_and_kept
    (P := fun sys : InFlight C => VerifiedAs sys.service sender key) hinit h
  have hgained := hsince [] List.nil_prefix
  rw [runFrom_append] at hgained
  obtain ⟨id, env, answer, request, keys, rfl, hget, hkey, hkeys, hmatches⟩ :=
    marked_step hbefore hgained
  obtain ⟨status, text, raw, rfl, hmin, hmax, hraw, hlength, hlists⟩ :=
    lists_of_matches hkeys hmatches
  exact ⟨before, id, env, status, text, after, request, raw, rfl, hmin, hmax, hget, hkey, hraw,
    hlength, hlists, hsince⟩

end

/-! ## On the toy host -/

/-- The key of 32 zeros. -/
def aliceKey : String := String.ofList (List.replicate 43 'A')

/-- The line of the key in the list of GitHub. -/
def aliceKeyLine : String :=
  "ssh-ed25519 AAAAC3NzaC1lZDI1NTE5AAAAI" ++ String.ofList (List.replicate 43 'A')

/-- `alice` publishes under her key, and it is verified. -/
def aliceVerified : List GitHubEvent := [
  .arrive (.post "/api/v1/publish" [("sender", "alice"), ("id", "m1")]
    (toyHeaders aliceKey "1000" "n1") ⟨"null", some .null⟩) (.at 1000000),
  .resume 0 (.at 1000000) (.failed ""),
  .resume 0 (.at 1000000) (.failed ""),
  .arrive (.post "/api/v1/key/verify-github" [] []
    ⟨"", some (.obj [("sender", .str "alice"), ("github_username", .str "alice")])⟩) (.at 1000000),
  .resume 1 (.at 1000000) (.failed ""),
  .resume 1 (.at 1000000) (.answered 200 (aliceKeyLine ++ "\n"))]

theorem github_verification_sound_alice :
    VerifiedAs (InFlight.gitHubAfter (.toy .default) () aliceVerified).service "alice" aliceKey ∧
    ∃ text raw, base64UrlDecode aliceKey = some raw ∧ ListsKey text raw := by
  have hverified : VerifiedAs (InFlight.gitHubAfter (.toy .default) () aliceVerified).service "alice"
      aliceKey := by decide +kernel
  obtain ⟨-, -, -, -, text, -, -, raw, -, -, -, -, -, hraw, -, hlists, -⟩ :=
    github_verification_sound (.toy .default) () aliceVerified "alice" aliceKey hverified
  exact ⟨hverified, text, raw, hraw, hlists⟩

end BitRelay
