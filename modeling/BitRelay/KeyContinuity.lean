import BitRelay.InFlight

/-!
# Key continuity

A rotation reads the sender's key, waits for two verifications, and overwrites
the record. The old signature was checked against the key it read. When another
rotation of the sender commits in between, the key in force is a different one,
and the second rotation replaces a key under which nothing was signed.

Results:
1. `key_continuity`: in any interleaving in which no two verifiable rotations of
   one sender to different keys wait together, a changed key was replaced by a
   rotation signed under it and under the new key.
2. `lost_rotation`: two that wait together break it.
-/

namespace BitRelay

section
variable {C : Type} (R : Relay C)

/-! ## Definitions -/

/-- The request is a rotation of `sender` to `newKey`, and its message is signed under `oldKey`
and under `newKey`. -/
def RotatedUnder (request : Request) (sender oldKey newKey : String) : Prop :=
  Endpoint.ofPath request.pathname = some .keyRotate ∧
  ∃ parsed fields, request.body.json = some parsed ∧ parseRotateFields parsed = .ok fields ∧
    fields.sender = sender ∧ fields.newPublicKey = newKey ∧
    R.platform.verifyEd25519Signature oldKey fields.message fields.oldSignature = true ∧
    R.platform.verifyEd25519Signature newKey fields.message fields.newSignature = true

/-- A key that the step changes is replaced by the rotation that takes the step, which was signed
under the key in force before it. -/
def KeyContinuous (sys : InFlight C) (event : InFlightEvent) : Prop :=
  ∀ sender oldKey newKey,
    sys.service.keyRegistry.publicKeyOf sender = some oldKey →
    (sys.step R event).service.keyRegistry.publicKeyOf sender = some newKey →
    oldKey ≠ newKey →
    ∃ id env task, event = .resume id env ∧ sys.tasks.get? id = some task ∧
      RotatedUnder R task.request sender oldKey newKey

/-- Verifiable rotations of one sender that wait together agree on the new key. -/
def RotationsAgree (sys : InFlight C) : Prop :=
  ∀ a ∈ sys.tasks.entries, ∀ b ∈ sys.tasks.entries,
    ∀ p ∈ a.2.phase.rotating, ∀ q ∈ b.2.phase.rotating,
      p.verifies R = true → q.verifies R = true → p.fields.sender = q.fields.sender →
        p.fields.newPublicKey = q.fields.newPublicKey

instance (sys : InFlight C) : Decidable (RotationsAgree R sys) :=
  inferInstanceAs (Decidable (∀ a ∈ sys.tasks.entries, ∀ b ∈ sys.tasks.entries,
    ∀ p ∈ a.2.phase.rotating, ∀ q ∈ b.2.phase.rotating, _))

/-! ## The invariant -/

/-- The fields of a waiting rotation are those of its request. -/
def FieldsOf (request : Request) (fields : RotateFields) : Prop :=
  ∃ parsed, request.body.json = some parsed ∧ parseRotateFields parsed = .ok fields

/-- A rotation in flight is one by its path, and when it verifies, the key it read is still in
force, or the key it brings is already. -/
structure SoundTask (service : ServiceState C) (task : Task) : Prop where
  arrived : task.phase = .rotateBody → Endpoint.ofPath task.request.pathname = some .keyRotate
  fields : ∀ p ∈ task.phase.rotating,
    Endpoint.ofPath task.request.pathname = some .keyRotate ∧ FieldsOf task.request p.fields
  current : ∀ p ∈ task.phase.rotating, p.verifies R = true →
    service.keyRegistry.publicKeyOf p.fields.sender = some p.publicKey ∨
      service.keyRegistry.publicKeyOf p.fields.sender = some p.fields.newPublicKey

def KeyInvariant (sys : InFlight C) : Prop :=
  ∀ e ∈ sys.tasks.entries, SoundTask R sys.service e.2

variable {R}

namespace KeyContinuityLemmas

/-! What brings a request to which phase. -/

theorem start_phase {request : Request} {env : Env} {s s' : ServiceState C} {phase : Phase}
    (h : (start R request env).run s = (.ok (.inr phase), s')) :
    phase.rotating = none ∧
      (phase = .rotateBody → Endpoint.ofPath request.pathname = some .keyRotate) := by
  unfold start at h
  split at h
  · cases h
  split at h
  · cases h
  split at h
  · next endpoint hpath =>
    obtain ⟨_, s1, -, k1⟩ := Proc.bind_ok h
    rcases InFlightLemmas.start_cases (R := R) request env endpoint with hwaits | ⟨-, hstart⟩
    · cases endpoint with
      | publish =>
        obtain ⟨input, s2, -, k2⟩ := Proc.bind_ok k1
        cases k2
        exact ⟨rfl, nofun⟩
      | review =>
        obtain ⟨room, s2, -, k2⟩ := Proc.bind_ok k1
        split at k2
        · obtain ⟨response, s3, -, k3⟩ := Proc.bind_ok k2
          cases k3
        split at k2
        · obtain ⟨p, s3, -, k3⟩ := Proc.bind_ok k2
          cases k3
          exact ⟨rfl, nofun⟩
        · cases k2
      | keyRotate =>
        obtain ⟨_, s2, -, k2⟩ := Proc.bind_ok k1
        cases k2
        exact ⟨rfl, fun _ => hpath⟩
      | keyVerifyGitHub =>
        obtain ⟨_, s2, -, k2⟩ := Proc.bind_ok k1
        cases k2
        exact ⟨rfl, nofun⟩
      | _ => cases hwaits
    · rw [hstart] at k1
      obtain ⟨response, s2, -, k2⟩ := Proc.bind_ok k1
      cases k2
  · obtain ⟨_, s1, -, k1⟩ := Proc.bind_ok h
    cases k1

theorem activeKey_ok {record : Option KeyRecord} {active : KeyRecord}
    (h : activeKey record = .ok active) : record = some active := by
  unfold activeKey at h
  split at h
  · cases h
  · split at h
    · cases h
    · cases h
      rfl

/-- A rotation that waits has read its fields from the body and the key from the registry. -/
theorem rotateBegin_ok {request : Request} {env : Env} {s s' : ServiceState C}
    {pending : PendingRotate} (h : (rotateBegin R request env).run s = (.ok pending, s')) :
    FieldsOf request pending.fields ∧
      s'.keyRegistry.publicKeyOf pending.fields.sender = some pending.publicKey := by
  obtain ⟨parsed, s1, h1, k1⟩ := Proc.bind_ok h
  obtain ⟨fields, s2, h2, k2⟩ := Proc.bind_ok k1
  obtain ⟨hfields, rfl⟩ := Proc.ofExcept_ok h2
  obtain ⟨_, s3, -, k3⟩ := Proc.bind_ok k2
  obtain ⟨record, s4, h4, k4⟩ := Proc.bind_ok k3
  cases h4
  obtain ⟨active, s5, h5, k5⟩ := Proc.bind_ok k4
  obtain ⟨hactive, rfl⟩ := Proc.ofExcept_ok h5
  cases k5
  refine ⟨⟨parsed, requireObject_ok h1, hfields⟩, ?_⟩
  have hrecord : OrdMap.get? s'.keyRegistry fields.sender = some active :=
    activeKey_ok hactive
  simp only [KeyRegistry.publicKeyOf, hrecord, Option.map_some]

theorem resume_phase {request : Request} {env : Env} {s s' : ServiceState C} {phase next : Phase}
    (h : (phase.resume R request env).run s = (.ok (.inr next), s')) :
    next ≠ .rotateBody ∧ ∀ p ∈ next.rotating, phase = .rotateBody ∧ FieldsOf request p.fields ∧
      s'.keyRegistry.publicKeyOf p.fields.sender = some p.publicKey := by
  cases phase with
  | publishBody | publishVerify | publishReturn | gitHubBody =>
    obtain ⟨a, s1, -, k1⟩ := Proc.bind_ok h
    cases k1
    exact ⟨nofun, nofun⟩
  | publishPersist | rotateVerify | gitHubKeys =>
    obtain ⟨a, s1, -, k1⟩ := Proc.bind_ok h
    cases k1
  | reviewVerify input pending =>
    obtain ⟨a, s1, -, k1⟩ := Proc.bind_ok h
    obtain ⟨b, s2, -, k2⟩ := Proc.bind_ok k1
    cases k2
  | rotateBody =>
    obtain ⟨pending, s1, h1, k1⟩ := Proc.bind_ok h
    cases k1
    refine ⟨nofun, fun p hp => ?_⟩
    cases hp
    exact ⟨rfl, rotateBegin_ok h1⟩

/-! What a step does to the keys. -/

/-- Without a rotation a registered key stays. -/
theorem keeps_key {α : Type} {x : Handler C α}
    (h : Proc.Leads (Change R (Allowed.unkeyed : Allowed C)) x) {s : ServiceState C}
    {sender key : String} (hkey : s.keyRegistry.publicKeyOf sender = some key) :
    (x.run s).2.keyRegistry.publicKeyOf sender = some key :=
  h.keeps (I := fun s => s.keyRegistry.publicKeyOf sender = some key)
    (fun _ _ hstep hs => hstep.publicKeyOf (fun h => h) hs) hkey

/-- Writing a new key into the record of a sender. -/
theorem publicKeyOf_rekey (s : ServiceState C) (sender other newKey : String)
    {f : KeyRecord → KeyRecord} (hf : ∀ record, (f record).publicKey = newKey) :
    (s.updateKey sender f).keyRegistry.publicKeyOf other =
      if other = sender then (s.keyRegistry.publicKeyOf sender).map fun _ => newKey
      else s.keyRegistry.publicKeyOf other := by
  unfold ServiceState.updateKey KeyRegistry.publicKeyOf
  by_cases h : other = sender
  · subst h
    rw [if_pos rfl]
    cases hget : s.keyRegistry.get? other with
    | none => rw [hget]; rfl
    | some record => simp [hf]
  · rw [if_neg h]
    cases hget : s.keyRegistry.get? sender with
    | none => rfl
    | some record => simp only [OrdMap.get?_set_of_ne _ h]

/-- A refused rotation changes nothing. -/
theorem rotateCommit_error {pending : PendingRotate} {s s' : ServiceState C} {e : Response}
    (h : (rotateCommit R pending).run s = (.error e, s')) : s' = s := by
  have hcommit : Proc.Triple (fun t => t = s) (rotateCommit R pending) (fun _ _ => True)
      (fun t => t = s) :=
    (Proc.Triple.failIf fun _ ht => ht).bind fun _ => Proc.Triple.of_fact fun _ =>
      (Proc.Triple.failIf fun _ ht => ht).bind fun _ => Proc.Triple.of_fact fun _ =>
        (Proc.Triple.modify fun _ _ => trivial).bind fun _ =>
          Proc.Triple.modify (P := fun _ => True) fun _ _ => trivial
  exact (hcommit s rfl).2 e s' h

end KeyContinuityLemmas

open KeyContinuityLemmas

/-! ## One step -/

/-- Registered keys stay. -/
def KeepsKeys (s s' : ServiceState C) : Prop :=
  ∀ sender key, s.keyRegistry.publicKeyOf sender = some key →
    s'.keyRegistry.publicKeyOf sender = some key

theorem SoundTask.mono {s s' : ServiceState C} (hkeys : KeepsKeys s s') {task : Task}
    (h : SoundTask R s task) : SoundTask R s' task :=
  ⟨h.arrived, h.fields, fun p hp hv => (h.current p hp hv).imp (hkeys _ _) (hkeys _ _)⟩

/-- The commit of a rotation: refused, or verified and written into the record. -/
theorem commit_cases (sys : InFlight C) (id : Nat) (request : Request) (pending : PendingRotate)
    (env : Env) :
    (sys.resumeTask R id ⟨request, .rotateVerify pending⟩ env).tasks = sys.tasks.erase id ∧
    ((sys.resumeTask R id ⟨request, .rotateVerify pending⟩ env).service = sys.service ∨
    pending.verifies R = true ∧ ∀ other,
      (sys.resumeTask R id ⟨request, .rotateVerify pending⟩ env).service.keyRegistry.publicKeyOf
        other = if other = pending.fields.sender then
          (sys.service.keyRegistry.publicKeyOf pending.fields.sender).map
            fun _ => pending.fields.newPublicKey
        else sys.service.keyRegistry.publicKeyOf other) := by
  unfold InFlight.resumeTask
  match hrun : ((Phase.rotateVerify pending).resume R request env).run sys.service with
  | (.ok (.inr phase), service) =>
    obtain ⟨_, s1, -, k1⟩ := Proc.bind_ok hrun
    cases k1
  | (.ok (.inl response), service) =>
    obtain ⟨_, s1, h1, k1⟩ := Proc.bind_ok hrun
    obtain ⟨hold, hnew, f, hf, hs1⟩ := rotateCommit_ok h1
    refine ⟨rfl, .inr ⟨?_, fun other => ?_⟩⟩
    · unfold PendingRotate.verifies
      rw [hold, hnew]
      rfl
    · rw [← publicKeyOf_rekey sys.service _ other _ hf]
      cases k1
      rw [hs1]
      rfl
  | (.error response, service) =>
    refine ⟨rfl, .inl ?_⟩
    change (rotateCommit R pending >>= fun _ => pure (Sum.inl pending.toResponse)).run sys.service =
      (.error response, service) at hrun
    rw [Proc.run_bind] at hrun
    match hcommit : (rotateCommit R pending).run sys.service with
    | (.ok u, s1) =>
      rw [hcommit] at hrun
      cases hrun
    | (.error e, s1) =>
      rw [hcommit] at hrun
      cases hrun
      exact rotateCommit_error hcommit

section Step
variable {sys : InFlight C} (hI : KeyInvariant R sys)

theorem continuous_of_keeps {event : InFlightEvent}
    (h : KeepsKeys sys.service (sys.step R event).service) : KeyContinuous R sys event := by
  intro sender oldKey newKey hold hnew hne
  rw [h sender oldKey hold] at hnew
  exact absurd (Option.some.inj hnew) hne

include hI

/-- A step that keeps the keys keeps the invariant, when the request it brings on is sound. -/
theorem invariant_of_keeps {service : ServiceState C} {tasks : OrdMap Nat Task} {next : Nat}
    {passed : List SignedRequest} (hkeys : KeepsKeys sys.service service)
    (htasks : ∀ e ∈ tasks.entries, e ∈ sys.tasks.entries ∨ SoundTask R service e.2) :
    KeyInvariant R { service, tasks, next, passed } := by
  intro e he
  rcases htasks e he with hold | hsound
  · exact (hI e hold).mono hkeys
  · exact hsound

theorem arrive_keys (request : Request) (env : Env) :
    KeepsKeys sys.service (sys.arrive R request env).service ∧
      KeyInvariant R (sys.arrive R request env) := by
  have hkeys : KeepsKeys sys.service ((start R request env).run sys.service).2 :=
    fun _ _ => keeps_key (leads_start env)
  unfold InFlight.arrive
  match hrun : (start R request env).run sys.service with
  | (.ok (.inr phase), service) =>
    rw [hrun] at hkeys
    refine ⟨hkeys, invariant_of_keeps hI hkeys fun e he => ?_⟩
    rcases OrdMap.mem_entries_set.mp he with rfl | ⟨-, hold⟩
    · obtain ⟨hrotating, harrived⟩ := start_phase hrun
      refine .inr ⟨harrived, fun p hp => ?_, fun p hp => ?_⟩
      all_goals
        rw [hrotating] at hp
        cases hp
    · exact .inl hold
  | (.ok (.inl response), service) =>
    rw [hrun] at hkeys
    exact ⟨hkeys, invariant_of_keeps hI hkeys fun _ he => .inl he⟩
  | (.error response, service) =>
    rw [hrun] at hkeys
    exact ⟨hkeys, invariant_of_keeps hI hkeys fun _ he => .inl he⟩

/-- A step of a request that does not commit a rotation. -/
theorem resume_keys {id : Nat} {task : Task} (env : Env) (htask : (id, task) ∈ sys.tasks.entries)
    (hnone : task.phase.rotating = none) :
    KeepsKeys sys.service (sys.resumeTask R id task env).service ∧
      KeyInvariant R (sys.resumeTask R id task env) := by
  have hkeys : KeepsKeys sys.service ((task.phase.resume R task.request env).run sys.service).2 :=
    fun _ _ => keeps_key (leads_resume env hnone)
  unfold InFlight.resumeTask
  match hrun : (task.phase.resume R task.request env).run sys.service with
  | (.ok (.inr phase), service) =>
    rw [hrun] at hkeys
    refine ⟨hkeys, invariant_of_keeps hI hkeys fun e he => ?_⟩
    rcases OrdMap.mem_entries_set.mp he with rfl | ⟨-, hold⟩
    · obtain ⟨hbody, hphase⟩ := resume_phase hrun
      refine .inr ⟨fun h => absurd h hbody, fun p hp => ?_, fun p hp _ => .inl (hphase p hp).2.2⟩
      obtain ⟨hfrom, hfields, -⟩ := hphase p hp
      exact ⟨(hI _ htask).arrived hfrom, hfields⟩
    · exact .inl hold
  | (.ok (.inl response), service) =>
    rw [hrun] at hkeys
    exact ⟨hkeys, invariant_of_keeps hI hkeys fun _ he => .inl (OrdMap.mem_entries_erase.mp he).2⟩
  | (.error response, service) =>
    rw [hrun] at hkeys
    exact ⟨hkeys, invariant_of_keeps hI hkeys fun _ he => .inl (OrdMap.mem_entries_erase.mp he).2⟩

/-- The commit of a rotation, when the verifiable rotations in flight agree. -/
theorem commit_keys {id : Nat} {request : Request} {pending : PendingRotate} (env : Env)
    (htask : (id, (⟨request, .rotateVerify pending⟩ : Task)) ∈ sys.tasks.entries)
    (hagree : RotationsAgree R sys) :
    KeyInvariant R (sys.resumeTask R id ⟨request, .rotateVerify pending⟩ env) := by
  obtain ⟨htasks, hcases⟩ := commit_cases (R := R) sys id request pending env
  intro e he
  rw [htasks] at he
  have hsound := hI e (OrdMap.mem_entries_erase.mp he).2
  rcases hcases with hservice | ⟨hverifies, hkeys⟩
  · rw [hservice]
    exact hsound
  · refine ⟨hsound.arrived, hsound.fields, fun q hq hv => ?_⟩
    rw [hkeys]
    by_cases hsender : q.fields.sender = pending.fields.sender
    · -- Both were in flight: the key just written is the one `q` brings.
      have hnew := hagree e (OrdMap.mem_entries_erase.mp he).2 _ htask q hq pending rfl hv
        hverifies hsender
      rw [if_pos hsender, hnew]
      right
      rw [← hsender]
      rcases hsound.current q hq hv with h | h <;> rw [h] <;> rfl
    · rw [if_neg hsender]
      exact hsound.current q hq hv

theorem commit_continuous {id : Nat} {request : Request} {pending : PendingRotate} (env : Env)
    (htask : sys.tasks.get? id = some ⟨request, .rotateVerify pending⟩) :
    KeyContinuous R sys (.resume id env) := by
  have hstep : sys.step R (.resume id env) =
      sys.resumeTask R id ⟨request, .rotateVerify pending⟩ env := by
    simp only [InFlight.step, htask]
  obtain ⟨-, hcases⟩ := commit_cases (R := R) sys id request pending env
  intro sender oldKey newKey hold hnew hne
  rw [hstep] at hnew
  rcases hcases with hservice | ⟨hverifies, hkeys⟩
  · rw [hservice, hold] at hnew
    exact absurd (Option.some.inj hnew) hne
  · rw [hkeys] at hnew
    by_cases hsender : sender = pending.fields.sender
    · rw [if_pos hsender, ← hsender, hold] at hnew
      have hnewKey : pending.fields.newPublicKey = newKey := Option.some.inj hnew
      have hsound := hI _ (OrdMap.get?_eq_some_iff.mp htask)
      obtain ⟨hpath, parsed, hbody, hparse⟩ := hsound.fields pending rfl
      have hcurrent : pending.publicKey = oldKey := by
        rcases hsound.current pending rfl hverifies with h | h
        · rw [← hsender, hold] at h
          exact (Option.some.inj h).symm
        · rw [← hsender, hold, hnewKey] at h
          exact absurd (Option.some.inj h) hne
      unfold PendingRotate.verifies at hverifies
      rw [Bool.and_eq_true, hcurrent, hnewKey] at hverifies
      exact ⟨id, env, _, rfl, htask, hpath, parsed, _, hbody, hparse, hsender.symm, hnewKey,
        hverifies⟩
    · rw [if_neg hsender, hold] at hnew
      exact absurd (Option.some.inj hnew) hne

/-- One step, in a state in which the verifiable rotations in flight agree. -/
theorem keyInvariant_step (hagree : RotationsAgree R sys) (event : InFlightEvent) :
    KeyContinuous R sys event ∧ KeyInvariant R (sys.step R event) := by
  cases event with
  | arrive request env =>
    obtain ⟨hkeys, hinv⟩ := arrive_keys hI request env
    exact ⟨continuous_of_keeps hkeys, hinv⟩
  | resume id env =>
    cases htask : sys.tasks.get? id with
    | none =>
      have hstep : sys.step R (.resume id env) = sys := by simp only [InFlight.step, htask]
      refine ⟨continuous_of_keeps ?_, ?_⟩
      · rw [hstep]
        exact fun _ _ h => h
      · rw [hstep]
        exact hI
    | some task =>
      have hmem := OrdMap.get?_eq_some_iff.mp htask
      have hstep : sys.step R (.resume id env) = sys.resumeTask R id task env := by
        simp only [InFlight.step, htask]
      cases hphase : task.phase.rotating with
      | none =>
        obtain ⟨hkeys, hinv⟩ := resume_keys hI env hmem hphase
        refine ⟨continuous_of_keeps ?_, ?_⟩
        · rw [hstep]
          exact hkeys
        · rw [hstep]
          exact hinv
      | some pending =>
        obtain ⟨request, phase⟩ := task
        obtain rfl : phase = .rotateVerify pending := by
          cases phase <;> cases hphase
          rfl
        refine ⟨commit_continuous hI env htask, ?_⟩
        rw [hstep]
        exact commit_keys hI env hmem hagree

end Step

/-! ## All runs -/

/-- In any interleaving in which verifiable rotations of one sender that wait together agree on
the new key, every step that changes a key is a rotation signed under the key in force before it
and under the new one. -/
theorem key_continuity (cache : C) (events : List InFlightEvent) (event : InFlightEvent)
    (hrun : Along (InFlight.step R) (fun sys _ => RotationsAgree R sys) (.init cache)
      (events ++ [event])) :
    KeyContinuous R (runFrom (InFlight.step R) (.init cache) events) event := by
  obtain ⟨hbefore, hagree⟩ := along_concat.mp hrun
  have hinit : KeyInvariant R (InFlight.init cache) := fun _ h => absurd h List.not_mem_nil
  have hI := hbefore.invariant
    (fun sys event hagree hI => (keyInvariant_step hI hagree event).2) hinit
  exact (keyInvariant_step hI hagree event).1

end

/-! ## On the toy host -/

/-- A publish by `alice` at second 1000, under the key `k1`. -/
def firstPublish : Request :=
  .post "/api/v1/publish" [("sender", "alice"), ("id", "m1")] (toyHeaders "k1" "1000" "n1")
    ⟨"null", some .null⟩

/-- A rotation of `alice`, signed under the key `k1` and under the new key. -/
def rotationTo (newKey nonce : String) : Request :=
  .post "/api/v1/key/rotate" [] [] ⟨"", some (.obj [
    ("sender", .str "alice"), ("new_public_key", .str newKey), ("ts", .ofNat 1000),
    ("nonce", .str nonce), ("old_signature", .str "k1"), ("new_signature", .str newKey)])⟩

/-- The publish runs to its end, then two rotations arrive and read their bodies. -/
def rotationsWaiting (newKey newKey' : String) : List InFlightEvent :=
  [.arrive firstPublish (.at 1000000)] ++ List.replicate 4 (.resume 0 (.at 1000000)) ++
    [.arrive (rotationTo newKey "n2") (.at 1000000),
      .arrive (rotationTo newKey' "n3") (.at 1000000),
      .resume 1 (.at 1000000), .resume 2 (.at 1000000)]

/-- Two rotations to one key. -/
theorem key_continuity_one_key :
    KeyContinuous (.toy .default) (runFrom (InFlight.step (.toy .default)) (.init ())
      (rotationsWaiting "k2" "k2")) (.resume 1 (.at 1000000)) :=
  key_continuity () (rotationsWaiting "k2" "k2") (.resume 1 (.at 1000000)) (by decide)

/-- Two rotations from `k1`, to `k2` and to `k3`: the second replaces `k2`, and nothing it carries
is signed under `k2`. -/
theorem lost_rotation :
    ¬ KeyContinuous (.toy .default) (runFrom (InFlight.step (.toy .default)) (.init ())
      (rotationsWaiting "k2" "k3" ++ [.resume 1 (.at 1000000)])) (.resume 2 (.at 1000000)) := by
  intro h
  obtain ⟨id, env, task, hevent, htask, -, parsed, fields, hbody, hfields, -, -, hold, -⟩ :=
    h "alice" "k2" "k3" (by decide) (by decide) (by decide)
  cases hevent
  have hrequest : ((runFrom (InFlight.step (.toy .default)) (.init ())
      (rotationsWaiting "k2" "k3" ++ [.resume 1 (.at 1000000)])).tasks.get? 2).map Task.request =
      some (rotationTo "k3" "n3") := by decide
  rw [htask, Option.map_some, Option.some.injEq] at hrequest
  rw [hrequest] at hbody
  cases hbody
  cases hfields
  exact absurd hold (by decide)

end BitRelay
