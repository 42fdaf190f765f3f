import BitRelay.Snapshot.KeyWrites

/-!
# The identity of a room object

A `RelayRoom` keeps its keys in memory, in its storage under the key of the
identity snapshot, and, when it was written by an older version, under the key
of the legacy snapshot. The constructor restores from the first or else from the
second and deletes the second; a request saves the identity before it is
answered. The object can be restarted between any two of these steps.

The legacy keys are deleted before they are saved under the new key, so there is
a time in which a restart loses them. A key whose sender is named `__proto__`
is lost by the next save.

Results:
1. `identity_survives`: in every run that has no restart while legacy keys wait
   to be saved, and saves no sender `__proto__`, a known or answered key is
   known from then on, or its rotated successor.
2. `legacy_keys_lost`: without the condition keys are lost.
-/

namespace BitRelay

section
variable {C : Type} (R : Relay C)

/-! ## The storage -/

/-- The storage of the object: `relay_identity_v1` and `relay_snapshot_v1`. -/
structure RoomStorage where
  identity : Option JsonValue
  legacy : Option JsonValue

/-- `value && typeof value === 'object'` -/
def storedObject? : Option JsonValue → Option JsonValue
  | some (.obj fields) => some (.obj fields)
  | some (.arr items) => some (.arr items)
  | _ => none

/-- `legacyData.keys_by_sender || legacyData.nonces_by_sender` -/
def hasIdentity (legacyData : JsonValue) : Bool :=
  ((legacyData.get? "keys_by_sender").map JsonValue.truthy).getD false ||
    ((legacyData.get? "nonces_by_sender").map JsonValue.truthy).getD false

/-- The keys that the next start will restore. -/
def RoomStorage.keyRegistry (storage : RoomStorage) : KeyRegistry :=
  match storedObject? storage.identity with
  | some identity => restoreKeysFrom (identity.get? "keys_by_sender")
  | none =>
    match storedObject? storage.legacy with
    | some legacy =>
      if hasIdentity legacy = true then restoreKeysFrom (legacy.get? "keys_by_sender") else ∅
    | none => ∅

/-! ## The object -/

/-- What `restore` in the constructor waits for. -/
inductive Restoring
  | readIdentity
  | readLegacy
  | deleteLegacy
  | ready
  deriving DecidableEq

/-- Where a call of `fetch` stands: in the service, after it, or after the identity was saved. -/
inductive CallStage
  | serving (phase : Phase)
  | returned (response : Response)
  | saved (response : Response)

def CallStage.of : Except Response Progress → CallStage
  | .ok (.inr phase) => .serving phase
  | .ok (.inl response) => .returned response
  | .error response => .returned response

/-- A call, with the senders and keys that it made known. -/
structure RoomCall where
  request : Request
  stage : CallStage
  established : List (String × String)

/-- The object. Its last three fields are history: the senders and keys that were known after a
start or whose establishing request was answered, the rotations, each with the key it replaced, and
whether legacy keys wait to be saved. -/
structure RelayRoom (C : Type) where
  storage : RoomStorage
  restoring : Restoring
  service : ServiceState C
  calls : OrdMap Nat RoomCall
  next : Nat
  owed : List (String × String)
  rotated : List (String × String × String)
  migrating : Bool

inductive RoomEvent
  | restart
  | restore (nowMs : Nat)
  | arrive (request : Request) (env : Env)
  | resume (call : Nat) (env : Env)
  | save (call : Nat)
  | answer (call : Nat)

def KeyRegistry.known (keyRegistry : KeyRegistry) : List (String × String) :=
  keyRegistry.entries.map fun e => (e.1, e.2.publicKey)

/-- The keys that a step made known. -/
def newKeys (before after : KeyRegistry) : List (String × String) :=
  after.known.filter fun e => before.publicKeyOf e.1 ≠ some e.2

/-- The rotation that a step committed. -/
def committedRotation (before : KeyRegistry) (phase : Phase) (result : Except Response Progress) :
    List (String × String × String) :=
  match phase, result with
  | .rotateVerify pending, .ok _ =>
    ((before.publicKeyOf pending.fields.sender).map fun old =>
      (pending.fields.sender, old, pending.fields.newPublicKey)).toList
  | _, _ => []

namespace RelayRoom

/-- The object as it is constructed on a storage. -/
def construct (storage : RoomStorage) (cache : C) : RelayRoom C :=
  ⟨storage, .readIdentity, .init cache, ∅, 0, [], [], false⟩

/-- The end of `restore`. -/
def started (service : ServiceState C) (o : RelayRoom C) : RelayRoom C :=
  { o with
    restoring := .ready
    service
    owed := o.owed ++ service.keyRegistry.known }

/-- From one wait of `restore` to the next. -/
def restore (nowMs : Nat) (o : RelayRoom C) : RelayRoom C :=
  match o.restoring with
  | .readIdentity =>
    match storedObject? o.storage.identity with
    | some identity => o.started (o.service.restoreIdentity R nowMs identity)
    | none => { o with restoring := .readLegacy }
  | .readLegacy =>
    match storedObject? o.storage.legacy with
    | some legacy =>
      { o with
        restoring := .deleteLegacy
        service :=
          if hasIdentity legacy = true then o.service.restoreIdentity R nowMs legacy
          else o.service }
    | none => o.started o.service
  | .deleteLegacy =>
    { o.started o.service with
      storage := { o.storage with legacy := none }
      migrating := !o.service.keyRegistry.entries.isEmpty }
  | .ready => o

/-- `fetch`, up to the first wait of the service. -/
def arrive (request : Request) (env : Env) (o : RelayRoom C) : RelayRoom C :=
  if o.restoring = .ready then
    let (result, service) := (start R request env).run o.service
    { o with
      service
      calls := o.calls.set o.next ⟨request, .of result, []⟩
      next := o.next + 1 }
  else o

def resume (id : Nat) (env : Env) (o : RelayRoom C) : RelayRoom C :=
  match o.calls.get? id with
  | some ⟨request, .serving phase, established⟩ =>
    let (result, service) := (phase.resume R request env).run o.service
    { o with
      service
      calls := o.calls.set id
        ⟨request, .of result, established ++ newKeys o.service.keyRegistry service.keyRegistry⟩
      rotated := o.rotated ++ committedRotation o.service.keyRegistry phase result }
  | _ => o

/-- After the service has returned: the identity is saved, if the request asks for it. -/
def save (id : Nat) (o : RelayRoom C) : RelayRoom C :=
  match o.calls.get? id with
  | some ⟨request, .returned response, established⟩ =>
    let calls := o.calls.set id ⟨request, .saved response, established⟩
    if request.savesIdentity = true then
      { o with
        calls
        storage := { o.storage with identity := some o.service.identitySnapshot }
        migrating := false }
    else { o with calls }
  | _ => o

def answer (id : Nat) (o : RelayRoom C) : RelayRoom C :=
  match o.calls.get? id with
  | some ⟨_, .saved _, established⟩ =>
    { o with calls := o.calls.erase id, owed := o.owed ++ established }
  | _ => o

/-- The object is gone, with the calls it had, and is constructed again on its storage. -/
def restart (o : RelayRoom C) : RelayRoom C :=
  { o with
    restoring := .readIdentity
    service := .init o.service.cache
    calls := ∅
    migrating := false }

def step (o : RelayRoom C) : RoomEvent → RelayRoom C
  | .restart => o.restart
  | .restore nowMs => o.restore R nowMs
  | .arrive request env => o.arrive R request env
  | .resume id env => o.resume R id env
  | .save id => o.save id
  | .answer id => o.answer id

end RelayRoom

/-! ## The property -/

/-- The key came from `publicKey` by rotations of the sender. -/
def Successor (rotated : List (String × String × String)) (sender publicKey : String) :
    String → Prop :=
  Relation.ReflTransGen (fun old new => (sender, old, new) ∈ rotated) publicKey

/-- The sender has this key, or a rotated successor. -/
def KnownIn (keyRegistry : KeyRegistry) (rotated : List (String × String × String))
    (e : String × String) : Prop :=
  ∃ publicKey, keyRegistry.publicKeyOf e.1 = some publicKey ∧ Successor rotated e.1 e.2 publicKey

/-- When the object is up, everything it owes is known. -/
def Remembers (o : RelayRoom C) : Prop :=
  o.restoring = .ready → ∀ e ∈ o.owed, KnownIn o.service.keyRegistry o.rotated e

/-- No restart while legacy keys wait to be saved, and no save while a key is registered under the
name `__proto__`. -/
def SafeStep (o : RelayRoom C) : RoomEvent → Prop
  | .restart => o.migrating = false
  | .save _ => o.service.keyRegistry.publicKeyOf "__proto__" = none
  | .restore _ | .arrive _ _ | .resume _ _ | .answer _ => True

instance (o : RelayRoom C) (event : RoomEvent) : Decidable (SafeStep o event) :=
  match event with
  | .restart | .save _ => inferInstanceAs (Decidable (_ = _))
  | .restore _ | .arrive _ _ | .resume _ _ | .answer _ => inferInstanceAs (Decidable True)

/-! ## The invariant -/

/-- What the stages of `restore` have found and restored so far. -/
def RestoredSoFar (o : RelayRoom C) : Prop :=
  match o.restoring with
  | .readIdentity => o.service.keyRegistry = ∅
  | .readLegacy => storedObject? o.storage.identity = none ∧ o.service.keyRegistry = ∅
  | .deleteLegacy => storedObject? o.storage.identity = none ∧
      o.service.keyRegistry = o.storage.keyRegistry
  | .ready => True

/-- Memory knows everything owed and established, and so does the storage, unless legacy keys wait
to be saved. -/
structure RoomInvariant (o : RelayRoom C) : Prop where
  restored : RestoredSoFar o
  idle : o.restoring ≠ .ready → o.calls = ∅ ∧ o.migrating = false
  storable : o.service.keyRegistry.Storable
  phases : ∀ c ∈ o.calls.entries, ∀ phase, c.2.stage = .serving phase →
    SoundPhase c.2.request phase
  quiet : ∀ c ∈ o.calls.entries, c.2.request.savesIdentity = false → c.2.established = []
  established : ∀ c ∈ o.calls.entries, ∀ e ∈ c.2.established,
    KnownIn o.service.keyRegistry o.rotated e
  known : Remembers o
  stored : o.migrating = false → ∀ e ∈ o.owed, KnownIn o.storage.keyRegistry o.rotated e
  saved : ∀ c ∈ o.calls.entries, ∀ response, c.2.stage = .saved response →
    ∀ e ∈ c.2.established, o.migrating = false ∧ KnownIn o.storage.keyRegistry o.rotated e

variable {R} {o : RelayRoom C}

namespace IdentityLemmas

/-! Known keys. -/

theorem Successor.mono {rotated rotated' : List (String × String × String)}
    {sender publicKey key : String} (h : Successor rotated sender publicKey key)
    (hrotated : rotated ⊆ rotated') : Successor rotated' sender publicKey key :=
  Relation.ReflTransGen.mono (fun _ _ hmem => hrotated hmem) _ _ h

theorem KnownIn.mono {K K' : KeyRegistry} {rotated rotated' : List (String × String × String)}
    {e : String × String} (h : KnownIn K rotated e)
    (hkeys : ∀ publicKey, K.publicKeyOf e.1 = some publicKey → K'.publicKeyOf e.1 = some publicKey)
    (hrotated : rotated ⊆ rotated') : KnownIn K' rotated' e := by
  obtain ⟨publicKey, hkey, hsuccessor⟩ := h
  exact ⟨publicKey, hkeys publicKey hkey, Successor.mono hsuccessor hrotated⟩

theorem knownIn_of_mem {K : KeyRegistry} (rotated : List (String × String × String))
    {e : String × String} (h : e ∈ K.known) : KnownIn K rotated e := by
  obtain ⟨⟨sender, key⟩, hmem, rfl⟩ := List.mem_map.mp h
  refine ⟨key.publicKey, ?_, .refl⟩
  exact publicKeyOf_eq_some_iff.mpr ⟨key, OrdMap.get?_eq_some_iff.mpr hmem, rfl⟩

theorem not_knownIn_empty {rotated : List (String × String × String)} {e : String × String} :
    ¬ KnownIn ∅ rotated e := by
  rintro ⟨publicKey, hkey, -⟩
  cases hkey

theorem storable_empty : KeyRegistry.Storable ∅ := by
  intro sender publicKey h
  cases h

/-! The storage. -/

theorem storable_storage (storage : RoomStorage) : storage.keyRegistry.Storable := by
  unfold RoomStorage.keyRegistry
  split
  · exact storable_restoreKeysFrom _
  · split
    · split
      · exact storable_restoreKeysFrom _
      · exact storable_empty
    · exact storable_empty

/-- What a save stores, the next start restores. -/
theorem keyRegistry_saved (storage : RoomStorage) (s : ServiceState C) :
    RoomStorage.keyRegistry { storage with identity := some s.identitySnapshot } =
      restoreKeys (objectEntries s.keyRegistry.entries) :=
  restoreKeysFrom_toJson _

/-- A save keeps what memory knows, without the sender that a plain object cannot hold. -/
theorem KnownIn.save {s : ServiceState C} {rotated : List (String × String × String)}
    {e : String × String} (h : KnownIn s.keyRegistry rotated e) (hstorable : s.keyRegistry.Storable)
    (hproto : s.keyRegistry.publicKeyOf "__proto__" = none) (storage : RoomStorage) :
    KnownIn (RoomStorage.keyRegistry { storage with identity := some s.identitySnapshot })
      rotated e := by
  rw [keyRegistry_saved]
  refine KnownIn.mono h (fun publicKey hkey => ?_) fun _ hmem => hmem
  refine publicKeyOf_restoreKeys hstorable hkey ?_
  intro hname
  rw [hname, hproto] at hkey
  cases hkey

/-! The service. -/

theorem storable_of_eq {K K' : KeyRegistry} (hK : K.Storable)
    (h : ∀ sender, K'.publicKeyOf sender = K.publicKeyOf sender) : K'.Storable :=
  fun sender publicKey hkey => hK sender publicKey (h sender ▸ hkey)

theorem storable_of_keyStep {phase : Phase} {request : Request} {s s' : ServiceState C}
    (hphase : SoundPhase request phase) (hs : s.keyRegistry.Storable)
    (h : KeyStep phase.writesKey s s') : s'.keyRegistry.Storable := by
  intro sender publicKey hkey
  rcases h sender publicKey hkey with hold | hwritten
  · exact hs sender publicKey hold
  · exact hphase.storable (sender, publicKey) hwritten

/-- A step of a waiting request keeps what is known, up to the rotation it commits. -/
theorem KnownIn.resume {s : ServiceState C} {rotated : List (String × String × String)}
    {e : String × String} (h : KnownIn s.keyRegistry rotated e) (request : Request) (env : Env)
    (phase : Phase) :
    KnownIn ((phase.resume R request env).run s).2.keyRegistry
      (rotated ++ committedRotation s.keyRegistry phase ((phase.resume R request env).run s).1)
      e := by
  obtain ⟨publicKey, hkey, hsuccessor⟩ := h
  have hold : Successor (rotated ++ committedRotation s.keyRegistry phase
      ((phase.resume R request env).run s).1) e.1 e.2 publicKey :=
    Successor.mono hsuccessor fun _ hmem => List.mem_append_left _ hmem
  rcases resume_keeps R request env phase hkey with hkept | ⟨pending, response, rfl, hsender, hok, hnew⟩
  · exact ⟨publicKey, hkept, hold⟩
  · refine ⟨pending.fields.newPublicKey, hnew, hold.tail (List.mem_append_right _ ?_)⟩
    rw [hok]
    simp only [committedRotation, hsender, hkey, Option.map_some, Option.toList_some,
      List.mem_singleton]

end IdentityLemmas

open IdentityLemmas

/-! ## One step -/

section Step
variable (hI : RoomInvariant o)
include hI

theorem RoomInvariant.restart (hsafe : o.migrating = false) : RoomInvariant o.restart where
  restored := rfl
  idle _ := ⟨rfl, rfl⟩
  storable := storable_empty
  phases c hc := absurd hc List.not_mem_nil
  quiet c hc := absurd hc List.not_mem_nil
  established c hc := absurd hc List.not_mem_nil
  known h := by cases h
  stored _ := hI.stored hsafe
  saved c hc := absurd hc List.not_mem_nil

/-- The end of `restore`, with the service that the storage gives. -/
theorem RoomInvariant.started {service : ServiceState C} (hstarting : o.restoring ≠ .ready)
    (hservice : service.keyRegistry = o.storage.keyRegistry) :
    RoomInvariant (o.started service) := by
  obtain ⟨hcalls, hmigrating⟩ := hI.idle hstarting
  have hnone : ∀ c, c ∉ (o.started service).calls.entries := by
    intro c hc
    rw [show (o.started service).calls = ∅ from hcalls] at hc
    exact List.not_mem_nil hc
  have hknown : ∀ e ∈ (o.started service).owed, KnownIn service.keyRegistry o.rotated e := by
    intro e he
    rcases List.mem_append.mp he with hold | hnew
    · rw [hservice]
      exact hI.stored hmigrating e hold
    · exact knownIn_of_mem _ hnew
  refine ⟨trivial, fun h => absurd rfl h, ?_, ?_, ?_, ?_, fun _ => hknown, fun _ e he => ?_, ?_⟩
  · show service.keyRegistry.Storable
    rw [hservice]
    exact storable_storage _
  · exact fun c hc => absurd hc (hnone c)
  · exact fun c hc => absurd hc (hnone c)
  · exact fun c hc => absurd hc (hnone c)
  · show KnownIn o.storage.keyRegistry o.rotated e
    rw [← hservice]
    exact hknown e he
  · exact fun c hc => absurd hc (hnone c)

/-- The legacy snapshot is deleted: what it held is known, but no longer stored. -/
theorem RoomInvariant.deleteLegacy (hstage : o.restoring = .deleteLegacy) :
    RoomInvariant { o.started o.service with
      storage := { o.storage with legacy := none }
      migrating := !o.service.keyRegistry.entries.isEmpty } := by
  have hstarting : o.restoring ≠ .ready := by
    rw [hstage]
    decide
  have hrestored := hI.restored
  simp only [RestoredSoFar, hstage] at hrestored
  have hstarted := hI.started hstarting hrestored.2
  refine ⟨trivial, fun h => absurd rfl h, hstarted.storable, hstarted.phases, hstarted.quiet,
    hstarted.established, hstarted.known, fun hmigrating e he => ?_, fun c hc => ?_⟩
  · -- Without a restored key nothing is owed.
    have hempty : o.service.keyRegistry = ∅ := by
      refine OrdMap.ext (List.isEmpty_iff.mp ?_)
      simpa using hmigrating
    have hknown := hstarted.known rfl e he
    rw [show (o.started o.service).service.keyRegistry = ∅ from hempty] at hknown
    exact absurd hknown not_knownIn_empty
  · rw [show (o.started o.service).calls = ∅ from (hI.idle hstarting).1] at hc
    exact absurd hc List.not_mem_nil

theorem RoomInvariant.restore (nowMs : Nat) : RoomInvariant (o.restore R nowMs) := by
  have hrestored := hI.restored
  unfold RelayRoom.restore
  split
  · next hstage =>
    have hstarting : o.restoring ≠ .ready := by
      rw [hstage]
      decide
    simp only [RestoredSoFar, hstage] at hrestored
    split
    · next identity hidentity =>
      refine hI.started hstarting ?_
      unfold RoomStorage.keyRegistry
      rw [hidentity]
      rfl
    · next hidentity =>
      exact ⟨⟨hidentity, hrestored⟩, fun _ => hI.idle hstarting, hI.storable, hI.phases, hI.quiet,
        hI.established, fun h => (by cases h), hI.stored, hI.saved⟩
  · next hstage =>
    have hstarting : o.restoring ≠ .ready := by
      rw [hstage]
      decide
    simp only [RestoredSoFar, hstage] at hrestored
    obtain ⟨hidentity, hempty⟩ := hrestored
    split
    · next legacy hlegacy =>
      have hservice : (if hasIdentity legacy = true then o.service.restoreIdentity R nowMs legacy
          else o.service).keyRegistry = o.storage.keyRegistry := by
        unfold RoomStorage.keyRegistry
        rw [hidentity, hlegacy]
        show _ = if hasIdentity legacy = true then _ else _
        split
        · rfl
        · exact hempty
      obtain ⟨hcalls, hmigrating⟩ := hI.idle hstarting
      have hnone : ∀ c, c ∉ o.calls.entries := by
        intro c hc
        rw [hcalls] at hc
        exact List.not_mem_nil hc
      refine ⟨⟨hidentity, hservice⟩, fun _ => ⟨hcalls, hmigrating⟩, ?_, hI.phases, hI.quiet,
        fun c hc => absurd hc (hnone c), fun h => (by cases h), hI.stored, hI.saved⟩
      show (if hasIdentity legacy = true then o.service.restoreIdentity R nowMs legacy
          else o.service).keyRegistry.Storable
      rw [hservice]
      exact storable_storage _
    · next hlegacy =>
      refine hI.started hstarting ?_
      unfold RoomStorage.keyRegistry
      rw [hidentity, hlegacy]
      exact hempty
  · next hstage => exact hI.deleteLegacy hstage
  · exact hI

theorem RoomInvariant.arrive (request : Request) (env : Env) :
    RoomInvariant (o.arrive R request env) := by
  unfold RelayRoom.arrive
  split
  · next hready =>
    have hkeys := start_publicKeyOf R request env o.service
    match hrun : (start R request env).run o.service with
    | (result, service) =>
      rw [hrun] at hkeys
      have hknown : ∀ e, KnownIn o.service.keyRegistry o.rotated e →
          KnownIn service.keyRegistry o.rotated e := fun e he =>
        KnownIn.mono he (fun publicKey hkey => (hkeys e.1).trans hkey) fun _ hmem => hmem
      refine ⟨?_, fun h => absurd hready h, storable_of_eq hI.storable hkeys, ?_, ?_, ?_,
        fun _ e he => hknown e (hI.known hready e he), hI.stored, ?_⟩
      · show RestoredSoFar _
        simp only [RestoredSoFar, hready]
      · intro c hc phase hphase
        rcases OrdMap.mem_entries_set.mp hc with rfl | ⟨-, hold⟩
        · cases result with
          | error response => cases hphase
          | ok progress =>
            cases progress with
            | inl response => cases hphase
            | inr other =>
              cases hphase
              exact start_sound hrun
        · exact hI.phases c hold phase hphase
      · intro c hc hquiet
        rcases OrdMap.mem_entries_set.mp hc with rfl | ⟨-, hold⟩
        · rfl
        · exact hI.quiet c hold hquiet
      · intro c hc e he
        rcases OrdMap.mem_entries_set.mp hc with rfl | ⟨-, hold⟩
        · exact absurd he List.not_mem_nil
        · exact hknown e (hI.established c hold e he)
      · intro c hc response hsaved e he
        rcases OrdMap.mem_entries_set.mp hc with rfl | ⟨-, hold⟩
        · exact absurd he List.not_mem_nil
        · exact hI.saved c hold response hsaved e he
  · exact hI

theorem RoomInvariant.ready {c : Nat × RoomCall} (hc : c ∈ o.calls.entries) :
    o.restoring = .ready := by
  by_contra h
  rw [(hI.idle h).1] at hc
  exact List.not_mem_nil hc

theorem RoomInvariant.resume (id : Nat) (env : Env) : RoomInvariant (o.resume R id env) := by
  unfold RelayRoom.resume
  split
  · next request phase established hget =>
    have hcall := OrdMap.get?_eq_some_iff.mp hget
    have hready := hI.ready hcall
    have hphase := hI.phases _ hcall phase rfl
    have hkeys := resume_keyStep R request env phase o.service
    have hknown : ∀ e, KnownIn o.service.keyRegistry o.rotated e → _ :=
      fun e he => KnownIn.resume (R := R) he request env phase
    match hrun : (phase.resume R request env).run o.service with
    | (result, service) =>
      rw [hrun] at hkeys hknown
      refine ⟨?_, fun h => absurd hready h, storable_of_keyStep hphase hI.storable hkeys, ?_, ?_, ?_,
        fun _ e he => hknown e (hI.known hready e he), fun hmigrating e he => ?_, ?_⟩
      · show RestoredSoFar _
        simp only [RestoredSoFar, hready]
      · intro c hc next hnext
        rcases OrdMap.mem_entries_set.mp hc with rfl | ⟨-, hold⟩
        · cases result with
          | error response => cases hnext
          | ok progress =>
            cases progress with
            | inl response => cases hnext
            | inr other =>
              cases hnext
              exact resume_sound hphase hrun
        · exact hI.phases c hold next hnext
      · intro c hc hquiet
        rcases OrdMap.mem_entries_set.mp hc with rfl | ⟨-, hold⟩
        · exact Bool.noConfusion (hquiet.symm.trans hphase.saves)
        · exact hI.quiet c hold hquiet
      · intro c hc e he
        rcases OrdMap.mem_entries_set.mp hc with rfl | ⟨-, hold⟩
        · rcases List.mem_append.mp he with hearlier | hnew
          · exact hknown e (hI.established _ hcall e hearlier)
          · exact knownIn_of_mem _ (List.mem_of_mem_filter hnew)
        · exact hknown e (hI.established c hold e he)
      · exact KnownIn.mono (hI.stored hmigrating e he) (fun _ h => h)
          fun _ hmem => List.mem_append_left _ hmem
      · intro c hc response hsaved e he
        rcases OrdMap.mem_entries_set.mp hc with rfl | ⟨-, hold⟩
        · cases result with
          | error _ => cases hsaved
          | ok progress => cases progress <;> cases hsaved
        · obtain ⟨hmigrating, hstored⟩ := hI.saved c hold response hsaved e he
          exact ⟨hmigrating, KnownIn.mono hstored (fun _ h => h)
            fun _ hmem => List.mem_append_left _ hmem⟩
  · exact hI

theorem RoomInvariant.save (id : Nat)
    (hproto : o.service.keyRegistry.publicKeyOf "__proto__" = none) :
    RoomInvariant (o.save id) := by
  unfold RelayRoom.save
  split
  · next request response established hget =>
    have hcall := OrdMap.get?_eq_some_iff.mp hget
    have hready := hI.ready hcall
    -- The call is the same but for its stage.
    have hcalls : ∀ c ∈ (o.calls.set id ⟨request, .saved response, established⟩).entries,
        ∃ d ∈ o.calls.entries, c.2.request = d.2.request ∧ c.2.established = d.2.established ∧
          (c.2.stage = .saved response ∨ c = d) := by
      intro c hc
      rcases OrdMap.mem_entries_set.mp hc with rfl | ⟨-, hold⟩
      · exact ⟨_, hcall, rfl, rfl, .inl rfl⟩
      · exact ⟨c, hold, rfl, rfl, .inr rfl⟩
    have hphases : ∀ c ∈ (o.calls.set id ⟨request, .saved response, established⟩).entries,
        ∀ phase, c.2.stage = .serving phase → SoundPhase c.2.request phase := by
      intro c hc phase hphase
      obtain ⟨d, hd, -, -, hstage | rfl⟩ := hcalls c hc
      · cases hstage.symm.trans hphase
      · exact hI.phases c hd phase hphase
    have hquiet : ∀ c ∈ (o.calls.set id ⟨request, .saved response, established⟩).entries,
        c.2.request.savesIdentity = false → c.2.established = [] := by
      intro c hc hsaves
      obtain ⟨d, hd, hrequest, hsame, -⟩ := hcalls c hc
      rw [hsame]
      exact hI.quiet d hd (hrequest ▸ hsaves)
    have hestablished : ∀ c ∈ (o.calls.set id ⟨request, .saved response, established⟩).entries,
        ∀ e ∈ c.2.established, KnownIn o.service.keyRegistry o.rotated e := by
      intro c hc e he
      obtain ⟨d, hd, -, hsame, -⟩ := hcalls c hc
      exact hI.established d hd e (hsame ▸ he)
    simp only
    split
    · have hsave : ∀ e, KnownIn o.service.keyRegistry o.rotated e → _ :=
        fun e he => KnownIn.save he hI.storable hproto o.storage
      refine ⟨?_, fun h => absurd hready h, hI.storable, hphases, hquiet, hestablished, hI.known,
        fun _ e he => hsave e (hI.known hready e he), fun c hc response' _ e he => ⟨rfl, ?_⟩⟩
      · show RestoredSoFar _
        simp only [RestoredSoFar, hready]
      · exact hsave e (hestablished c hc e he)
    · next hsaves =>
      refine ⟨hI.restored, fun h => absurd hready h, hI.storable, hphases, hquiet, hestablished,
        hI.known, hI.stored, fun c hc response' hsaved e he => ?_⟩
      rcases OrdMap.mem_entries_set.mp hc with rfl | ⟨-, hold⟩
      · have hnone := hI.quiet _ hcall (by simpa using hsaves)
        rw [show established = [] from hnone] at he
        exact absurd he List.not_mem_nil
      · exact hI.saved c hold response' hsaved e he
  · exact hI

theorem RoomInvariant.answer (id : Nat) : RoomInvariant (o.answer id) := by
  unfold RelayRoom.answer
  split
  · next request response established hget =>
    have hcall := OrdMap.get?_eq_some_iff.mp hget
    have hready := hI.ready hcall
    have hold : ∀ c ∈ (o.calls.erase id).entries, c ∈ o.calls.entries :=
      fun c hc => (OrdMap.mem_entries_erase.mp hc).2
    refine ⟨hI.restored, fun h => absurd hready h, hI.storable,
      fun c hc => hI.phases c (hold c hc), fun c hc => hI.quiet c (hold c hc),
      fun c hc => hI.established c (hold c hc), fun _ e he => ?_, fun hmigrating e he => ?_,
      fun c hc => hI.saved c (hold c hc)⟩
    · rcases List.mem_append.mp he with howed | hnew
      · exact hI.known hready e howed
      · exact hI.established _ hcall e hnew
    · rcases List.mem_append.mp he with howed | hnew
      · exact hI.stored hmigrating e howed
      · exact (hI.saved _ hcall response rfl e hnew).2
  · exact hI

end Step

theorem RoomInvariant.step (o : RelayRoom C) (event : RoomEvent) (hsafe : SafeStep o event)
    (hI : RoomInvariant o) : RoomInvariant (o.step R event) := by
  cases event with
  | restart => exact hI.restart hsafe
  | restore nowMs => exact hI.restore nowMs
  | arrive request env => exact hI.arrive request env
  | resume id env => exact hI.resume id env
  | save id => exact hI.save id hsafe
  | answer id => exact hI.answer id

/-! ## All runs -/

/-- From any content of the storage, in every run of requests, crashes and restarts whose steps are
safe: what was known after some start, or established by a request that was answered, is known
whenever the object is up, with the same key or its rotated successor. -/
theorem identity_survives (R : Relay C) (storage : RoomStorage) (cache : C)
    (events : List RoomEvent)
    (hrun : Along (RelayRoom.step R) SafeStep (.construct storage cache) events) :
    Remembers (runFrom (RelayRoom.step R) (.construct storage cache) events) := by
  have hinit : RoomInvariant (RelayRoom.construct storage cache) := {
    restored := rfl
    idle := fun _ => ⟨rfl, rfl⟩
    storable := storable_empty
    phases := fun c hc => absurd hc List.not_mem_nil
    quiet := fun c hc => absurd hc List.not_mem_nil
    established := fun c hc => absurd hc List.not_mem_nil
    known := fun h => by cases h
    stored := fun _ e he => absurd he List.not_mem_nil
    saved := fun c hc => absurd hc List.not_mem_nil }
  exact (hrun.invariant (fun o event hsafe hI => hI.step o event hsafe) hinit).known

end

/-! ## On the toy host -/

/-- A storage that an older version wrote: the key `k1` of `alice`. -/
def legacyStorage : RoomStorage where
  identity := none
  legacy := some (.obj [
    ("keys_by_sender", .obj [("alice", .obj [("public_key", .str "k1")])]),
    ("nonces_by_sender", .obj [])])

/-- A publish of a sender, until it is answered. -/
def publishUntilAnswered (sender : String) : List RoomEvent :=
  .arrive (.post "/api/v1/publish" [("sender", sender), ("id", "m1")]
    (toyHeaders "k2" "1000" "n1") ⟨"null", some .null⟩) (.at 1000000) ::
  (List.replicate 4 (.resume 0 (.at 1000000)) ++ [.save 0, .answer 0])

def restoreSteps (n : Nat) : List RoomEvent := List.replicate n (.restore 1000000)

/-- The legacy keys are restored, a publish of `bob` saves them, and the object starts again. -/
def migration : List RoomEvent :=
  restoreSteps 3 ++ publishUntilAnswered "bob" ++ [.restart] ++ restoreSteps 1

theorem identity_survives_migration :
    Remembers (runFrom (RelayRoom.step (.toy .default)) (.construct legacyStorage ()) migration) :=
  identity_survives (.toy .default) legacyStorage () migration (by decide +kernel)

/-- Restarted before a save, the object has lost the key of `alice`. And a publish of `__proto__`
is answered, but its key is not stored. -/
theorem legacy_keys_lost :
    ¬ Remembers (runFrom (RelayRoom.step (.toy .default)) (.construct legacyStorage ())
      (restoreSteps 3 ++ [.restart] ++ restoreSteps 2)) ∧
    ¬ Remembers (runFrom (RelayRoom.step (.toy .default)) (.construct ⟨none, none⟩ ())
      (restoreSteps 2 ++ publishUntilAnswered "__proto__" ++ [.restart] ++ restoreSteps 1)) := by
  refine ⟨fun h => ?_, fun h => ?_⟩
  · obtain ⟨publicKey, hkey, -⟩ := h (by decide +kernel) ("alice", "k1") (by decide +kernel)
    have hnone : (runFrom (RelayRoom.step (.toy .default)) (.construct legacyStorage ())
        (restoreSteps 3 ++ [.restart] ++ restoreSteps 2)).service.keyRegistry.publicKeyOf "alice" =
        none := by decide +kernel
    cases hnone.symm.trans hkey
  · obtain ⟨publicKey, hkey, -⟩ := h (by decide +kernel) ("__proto__", "k2") (by decide +kernel)
    have hnone : (runFrom (RelayRoom.step (.toy .default)) (.construct ⟨none, none⟩ ())
        (restoreSteps 2 ++ publishUntilAnswered "__proto__" ++ [.restart] ++
          restoreSteps 1)).service.keyRegistry.publicKeyOf "__proto__" = none := by decide +kernel
    cases hnone.symm.trans hkey

end BitRelay
