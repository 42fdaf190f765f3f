import BitRelay.Cache.StoreView
import BitRelay.Cache.Writes

/-!
# What the store drops under the persistence task

The calls of the persistence task over a store with a time to live and a bound on the bytes. A put
drops every record that has expired and behind it the oldest records beyond the bound, the new one
included; a get drops the record that it finds expired. Apart from that a put sets one record and
a get leaves the store alone.

Results:
1. `call_putEnvelope` to `call_putCursor`: what one step of the task does, stage by stage, under
   every policy.
2. `record?_persistStep`: the record under a key after one step: dropped, put or as before.
3. `not_drops_unlimited`: without limits nothing is dropped.
-/

namespace BitRelay

variable {A : CacheAdapterOptions} {envelope : Envelope} {roomCursorHint : Option Int}
  {s : CacheAdapterState} {storageKey : String} {nowSec : Nat}

/-! ## Definitions -/

namespace CacheAdapterState

/-- The record under the storage key is there and has expired. -/
def expired (s : CacheAdapterState) (nowSec : Nat) (storageKey : String) : Bool :=
  (s.record? storageKey).any fun record =>
    isExpiredByPolicy record.metadata s.cacheStore.policy nowSec

/-- The object under a key, if it has not expired. -/
def live? (s : CacheAdapterState) (nowSec : Nat) (key : String) : Option CacheStoreObject :=
  if s.expired nowSec (toStorageKey .object key) then none else s.object? key

/-- The put of a request in front of the bound on the bytes. -/
def filed (s : CacheAdapterState) (request : CacheStorePutRequest) (nowSec : Nat) :
    MemoryCacheStore :=
  (s.cacheStore.pruneExpiredRecords nowSec).setRecord request.storageKey request.stored

def afterPut (A : CacheAdapterOptions) (s : CacheAdapterState) (request : CacheStorePutRequest)
    (nowSec : Nat) : CacheAdapterState :=
  { s with cacheStore := (s.filed request nowSec).enforceMaxBytesLimit A.collation }

def afterGet (s : CacheAdapterState) (nowSec : Nat) (key : String) : CacheAdapterState :=
  if s.expired nowSec (toStorageKey .object key) then
    { s with cacheStore :=
      { s.cacheStore with records := s.cacheStore.records.erase (toStorageKey .object key) } }
  else s

/-- The put drops what it does not put itself, or evicts. -/
def putDrops (A : CacheAdapterOptions) (s : CacheAdapterState) (request : CacheStorePutRequest)
    (nowSec : Nat) (storageKey : String) : Bool :=
  (decide (storageKey ≠ request.storageKey) && s.expired nowSec storageKey) ||
    decide (storageKey ∈ (s.filed request nowSec).overflow A.collation)

end CacheAdapterState

section
variable (A envelope)

/-- The put that a stage makes. -/
def PersistStage.request? (nowSec : Nat) : PersistStage → Option CacheStorePutRequest
  | putEnvelope => some (envelopeRequest A envelope nowSec)
  | putEvent issueCursor updatedAt => some (issueEventRequest A envelope issueCursor updatedAt)
  | putSnapshot issueCursor updatedAt => some (issueSnapshotRequest A envelope issueCursor updatedAt)
  | putCursor issueCursor updatedAt => some (issueCursorRequest A envelope issueCursor updatedAt)
  | _ => none

/-- The key that a stage looks up. -/
def PersistStage.lookup? : PersistStage → Option String
  | readCursor => some (issueCursorStorageKey envelope.room)
  | readSnapshot _ _ =>
    some (issueSnapshotStorageKey envelope.room (extractIssueIdFromEnvelope envelope))
  | _ => none

/-- The put that a step carries out. -/
def carriedPut (p : CacheAdapterState × PersistTask) (answer : StoreAnswer) :
    Option CacheStorePutRequest :=
  if answer.ok then p.2.stage.request? A envelope answer.nowSec else none

/-- The step leaves no record under the storage key, though there was one or it put one. -/
def Drops (p : CacheAdapterState × PersistTask) (answer : StoreAnswer) (storageKey : String) :
    Bool :=
  answer.ok &&
    ((p.2.stage.request? A envelope answer.nowSec).any (fun request =>
        p.1.putDrops A request answer.nowSec storageKey) ||
      (p.2.stage.lookup? envelope).any fun key =>
        decide (storageKey = toStorageKey .object key) && p.1.expired answer.nowSec storageKey)

/-- The record under the storage key behind a step: dropped, put or as before. -/
def recordBehind (p : CacheAdapterState × PersistTask) (answer : StoreAnswer)
    (storageKey : String) : Option CacheStoreObject :=
  if Drops A envelope p answer storageKey then none
  else match carriedPut A envelope p answer with
    | some request => if storageKey = request.storageKey then some request.stored
      else p.1.record? storageKey
    | none => p.1.record? storageKey

end

/-! ## Calls -/

namespace CacheAdapterState

theorem record?_afterPut (A : CacheAdapterOptions) (s : CacheAdapterState)
    (request : CacheStorePutRequest) (nowSec : Nat) (storageKey : String) :
    (s.afterPut A request nowSec).record? storageKey =
      if s.putDrops A request nowSec storageKey then none
      else if storageKey = request.storageKey then some request.stored
      else s.record? storageKey := by
  have hrecord : (s.afterPut A request nowSec).record? storageKey =
      if storageKey ∈ (s.filed request nowSec).overflow A.collation then none
      else if storageKey = request.storageKey then some request.stored
      else (s.record? storageKey).filter fun record =>
        !isExpiredByPolicy record.metadata s.cacheStore.policy nowSec := by
    unfold record? afterPut
    dsimp only
    rw [MemoryCacheStore.records_enforceMaxBytesLimit, OrdMap.get?_foldl_erase]
    split
    · rfl
    · show ((OrdMap.filter _ _).set _ _).get? _ = _
      rw [OrdMap.get?_set, OrdMap.get?_filter]
  rw [hrecord]
  unfold putDrops expired
  by_cases hevicted : storageKey ∈ (s.filed request nowSec).overflow A.collation
  · simp [hevicted]
  · by_cases hkey : storageKey = request.storageKey
    · subst hkey
      simp
    · cases hfound : s.record? storageKey with
      | none => simp [hevicted, hkey]
      | some record =>
        cases hexpired : isExpiredByPolicy record.metadata s.cacheStore.policy nowSec <;>
          simp [hevicted, hkey, hexpired]

theorem record?_afterGet (s : CacheAdapterState) (nowSec : Nat) (key storageKey : String) :
    (s.afterGet nowSec key).record? storageKey =
      if storageKey = toStorageKey .object key ∧ s.expired nowSec storageKey = true then none
      else s.record? storageKey := by
  unfold afterGet
  split
  · next hexpired =>
    show (OrdMap.erase _ _).get? storageKey = _
    rw [OrdMap.get?_erase]
    by_cases hkey : storageKey = toStorageKey .object key
    · rw [if_pos hkey, if_pos ⟨hkey, hkey ▸ hexpired⟩]
    · rw [if_neg hkey, if_neg fun hboth => hkey hboth.1]
      rfl
  · next hlive =>
    rw [if_neg]
    rintro ⟨hkey, hexpired⟩
    exact hlive (hkey ▸ hexpired)

end CacheAdapterState

/-- A put that is carried out; what comes behind it runs on the new state. -/
theorem put_call {request : CacheStorePutRequest} (hkey : FreeText request.key)
    (hat : request.updatedAt.isSome = true) (s : CacheAdapterState) (answer : StoreAnswer)
    (f : CacheAdapterState → Option (CacheAdapterState × PersistStage)) :
    (putCacheJsonObject A request s answer).bind f =
      if answer.ok then f (s.afterPut A request answer.nowSec) else none := by
  obtain ⟨updatedAt, hat⟩ := Option.isSome_iff_exists.mp hat
  have hstored : MemoryCacheStore.recordOf request request.key answer.nowSec = request.stored := by
    simp only [CacheStorePutRequest.stored, MemoryCacheStore.recordOf, hat, Option.getD_some]
  unfold putCacheJsonObject MemoryCacheStore.put
  rw [normalizeKey_trimmed hkey.2 hkey.1]
  cases answer.ok with
  | false => rfl
  | true =>
    simp only [bind, Except.bind, pure, Except.pure, hstored]
    rfl

theorem get_call {key : String} (hkey : FreeText key) (s : CacheAdapterState)
    (answer : StoreAnswer) :
    getCacheObject key s answer =
      if answer.ok then some (s.live? answer.nowSec key, s.afterGet answer.nowSec key)
      else none := by
  unfold getCacheObject MemoryCacheStore.get CacheAdapterState.live? CacheAdapterState.afterGet
    CacheAdapterState.expired CacheAdapterState.object? CacheAdapterState.record?
  rw [normalizeKey_trimmed hkey.2 hkey.1]
  cases answer.ok with
  | false => rfl
  | true =>
    simp only [bind, Except.bind, pure, Except.pure, if_true]
    cases hfound : s.cacheStore.records.get? (toStorageKey .object key) with
    | none => simp [Except.toOption]
    | some found =>
      cases hexpired : isExpiredByPolicy found.metadata s.cacheStore.policy answer.nowSec <;>
        simp [hexpired, Except.toOption]

/-! ## Stages -/

namespace PersistStage

variable (h : envelope.Storable) (s : CacheAdapterState) (answer : StoreAnswer)
include h

theorem call_putEnvelope : putEnvelope.step A envelope roomCursorHint s answer =
    if answer.ok then some (s.afterPut A (envelopeRequest A envelope answer.nowSec) answer.nowSec,
      if isIssueTopic envelope.topic then readCursor else persisted)
    else none :=
  put_call (freeText_envelopeKey (freeText_room h.room) h.id) rfl s answer _

theorem call_readCursor : readCursor.step A envelope roomCursorHint s answer =
    some (if answer.ok then s.afterGet answer.nowSec (issueCursorStorageKey envelope.room) else s,
      cursorRead (s.issueCursorByRoom.getD envelope.room 0) (cursorOf envelope.room
        (if answer.ok then s.live? answer.nowSec (issueCursorStorageKey envelope.room)
          else none))) := by
  have hcursors : (s.afterGet answer.nowSec (issueCursorStorageKey
      envelope.room)).issueCursorByRoom = s.issueCursorByRoom := by
    unfold CacheAdapterState.afterGet
    split <;> rfl
  simp only [step, get_call (freeText_cursor (freeText_room h.room))]
  cases answer.ok with
  | false => rfl
  | true =>
    simp only [if_true, Option.getD_some, hcursors]

theorem call_putEvent (issueCursor updatedAt : Nat) :
    (putEvent issueCursor updatedAt).step A envelope roomCursorHint s answer =
    if answer.ok then
      some (s.afterPut A (issueEventRequest A envelope issueCursor updatedAt) answer.nowSec,
        readSnapshot issueCursor updatedAt)
    else none :=
  put_call (freeText_event issueCursor h.id) rfl s answer _

theorem call_readSnapshot (issueCursor updatedAt : Nat) :
    (readSnapshot issueCursor updatedAt).step A envelope roomCursorHint s answer =
    some (if answer.ok then s.afterGet answer.nowSec (issueSnapshotStorageKey envelope.room
        (extractIssueIdFromEnvelope envelope)) else s,
      if updatesSnapshot A envelope (if answer.ok then s.live? answer.nowSec
        (issueSnapshotStorageKey envelope.room (extractIssueIdFromEnvelope envelope)) else none)
      then putSnapshot issueCursor updatedAt else putCursor issueCursor updatedAt) := by
  simp only [step, get_call (freeText_snapshot (freeText_extractIssueId h.id))]
  cases answer.ok with
  | false => rfl
  | true => rfl

theorem call_putSnapshot (issueCursor updatedAt : Nat) :
    (putSnapshot issueCursor updatedAt).step A envelope roomCursorHint s answer =
    if answer.ok then
      some (s.afterPut A (issueSnapshotRequest A envelope issueCursor updatedAt) answer.nowSec,
        putCursor issueCursor updatedAt)
    else none :=
  put_call (freeText_snapshot (freeText_extractIssueId h.id)) rfl s answer _

theorem call_putCursor (issueCursor updatedAt : Nat) :
    (putCursor issueCursor updatedAt).step A envelope roomCursorHint s answer =
    if answer.ok then
      some (s.afterPut A (issueCursorRequest A envelope issueCursor updatedAt) answer.nowSec,
        persisted)
    else none :=
  put_call (freeText_cursor (freeText_room h.room)) rfl s answer _

end PersistStage

/-! ## One step -/

namespace DropLemmas

variable {stage : PersistStage} {attempt : Nat} {answer : StoreAnswer} {next : PersistStage}

theorem record?_ofPut {request : CacheStorePutRequest}
    (hrequest : stage.request? A envelope answer.nowSec = some request)
    (hlookup : stage.lookup? envelope = none)
    (hstep : stage.step A envelope roomCursorHint s answer =
      if answer.ok then some (s.afterPut A request answer.nowSec, next) else none)
    (storageKey : String) :
    (persistStep A envelope roomCursorHint (s, ⟨attempt, stage⟩) answer).1.record? storageKey =
      recordBehind A envelope (s, ⟨attempt, stage⟩) answer storageKey := by
  unfold persistStep recordBehind Drops carriedPut
  simp only [hstep, hrequest, hlookup]
  cases answer.ok with
  | false => rfl
  | true =>
    simp only [if_true, CacheAdapterState.record?_afterPut, Option.any_some, Option.any_none,
      Bool.or_false, Bool.true_and]

theorem record?_ofGet {key : String} (hrequest : stage.request? A envelope answer.nowSec = none)
    (hlookup : stage.lookup? envelope = some key)
    (hstep : stage.step A envelope roomCursorHint s answer =
      some (if answer.ok then s.afterGet answer.nowSec key else s, next)) (storageKey : String) :
    (persistStep A envelope roomCursorHint (s, ⟨attempt, stage⟩) answer).1.record? storageKey =
      recordBehind A envelope (s, ⟨attempt, stage⟩) answer storageKey := by
  unfold persistStep recordBehind Drops carriedPut
  simp only [hstep, hrequest, hlookup]
  cases answer.ok with
  | false => rfl
  | true =>
    simp only [if_true, CacheAdapterState.record?_afterGet, Option.any_some, Option.any_none,
      Bool.false_or, Bool.true_and, Bool.and_eq_true, decide_eq_true_eq]

theorem recordBehind_noCall (hrequest : stage.request? A envelope answer.nowSec = none)
    (hlookup : stage.lookup? envelope = none) (storageKey : String) :
    recordBehind A envelope (s, ⟨attempt, stage⟩) answer storageKey = s.record? storageKey := by
  unfold recordBehind Drops carriedPut
  simp only [hrequest, hlookup, Option.any_none, Bool.or_false, Bool.and_false, ite_self,
    Bool.false_eq_true, if_false]

end DropLemmas

open DropLemmas

/-- The record under a storage key behind one step of the task: dropped, put or as before. -/
theorem record?_persistStep (h : envelope.Storable) (p : CacheAdapterState × PersistTask)
    (answer : StoreAnswer) (storageKey : String) :
    (persistStep A envelope roomCursorHint p answer).1.record? storageKey =
      recordBehind A envelope p answer storageKey := by
  obtain ⟨s, attempt, stage⟩ := p
  cases stage with
  | putEnvelope => exact record?_ofPut rfl rfl (PersistStage.call_putEnvelope h s answer) _
  | readCursor => exact record?_ofGet rfl rfl (PersistStage.call_readCursor h s answer) _
  | putEvent c u => exact record?_ofPut rfl rfl (PersistStage.call_putEvent h s answer c u) _
  | readSnapshot c u =>
    exact record?_ofGet rfl rfl (PersistStage.call_readSnapshot h s answer c u) _
  | putSnapshot c u => exact record?_ofPut rfl rfl (PersistStage.call_putSnapshot h s answer c u) _
  | putCursor c u => exact record?_ofPut rfl rfl (PersistStage.call_putCursor h s answer c u) _
  | cursorRead inMemory cached => exact (recordBehind_noCall rfl rfl _).symm
  | persisted => exact (recordBehind_noCall rfl rfl _).symm
  | failed => exact (recordBehind_noCall rfl rfl _).symm

/-- A record that is not dropped is put or as before. -/
theorem record?_of_kept (h : envelope.Storable) {p : CacheAdapterState × PersistTask}
    {answer : StoreAnswer} (hkept : Drops A envelope p answer storageKey = false) :
    (persistStep A envelope roomCursorHint p answer).1.record? storageKey =
      match carriedPut A envelope p answer with
      | some request => if storageKey = request.storageKey then some request.stored
        else p.1.record? storageKey
      | none => p.1.record? storageKey := by
  rw [record?_persistStep h, recordBehind, hkept, if_neg Bool.false_ne_true]

/-- A put of another key leaves a record that is not dropped. -/
theorem record?_of_other (h : envelope.Storable) {p : CacheAdapterState × PersistTask}
    {answer : StoreAnswer} (hkept : Drops A envelope p answer storageKey = false)
    (hother : ∀ request, carriedPut A envelope p answer = some request →
      storageKey ≠ request.storageKey) :
    (persistStep A envelope roomCursorHint p answer).1.record? storageKey =
      p.1.record? storageKey := by
  rw [record?_of_kept h hkept]
  cases hput : carriedPut A envelope p answer with
  | none => rfl
  | some request => exact if_neg (hother request hput)

/-! ## Without limits -/

theorem policy_afterPut (A : CacheAdapterOptions) (s : CacheAdapterState)
    (request : CacheStorePutRequest) (nowSec : Nat) :
    (s.afterPut A request nowSec).cacheStore.policy = s.cacheStore.policy :=
  MemoryCacheStore.policy_enforceMaxBytesLimit A.collation _

theorem policy_afterGet (s : CacheAdapterState) (nowSec : Nat) (key : String) :
    (s.afterGet nowSec key).cacheStore.policy = s.cacheStore.policy := by
  unfold CacheAdapterState.afterGet
  split <;> rfl

/-- No step changes the policy. -/
theorem policy_persistStep (h : envelope.Storable) (p : CacheAdapterState × PersistTask)
    (answer : StoreAnswer) :
    (persistStep A envelope roomCursorHint p answer).1.cacheStore.policy =
      p.1.cacheStore.policy := by
  obtain ⟨s, attempt, stage⟩ := p
  unfold persistStep
  cases stage with
  | putEnvelope =>
    rw [PersistStage.call_putEnvelope h]
    cases answer.ok with
    | false => rfl
    | true => exact policy_afterPut A s _ _
  | readCursor =>
    rw [PersistStage.call_readCursor h]
    cases answer.ok with
    | false => rfl
    | true => exact policy_afterGet s _ _
  | putEvent c u =>
    rw [PersistStage.call_putEvent h]
    cases answer.ok with
    | false => rfl
    | true => exact policy_afterPut A s _ _
  | readSnapshot c u =>
    rw [PersistStage.call_readSnapshot h]
    cases answer.ok with
    | false => rfl
    | true => exact policy_afterGet s _ _
  | putSnapshot c u =>
    rw [PersistStage.call_putSnapshot h]
    cases answer.ok with
    | false => rfl
    | true => exact policy_afterPut A s _ _
  | putCursor c u =>
    rw [PersistStage.call_putCursor h]
    cases answer.ok with
    | false => rfl
    | true => exact policy_afterPut A s _ _
  | cursorRead inMemory cached => rfl
  | persisted => rfl
  | failed => rfl

theorem not_expired_unlimited (hs : s.Unlimited) (nowSec : Nat) (storageKey : String) :
    s.expired nowSec storageKey = false := by
  have hs : s.cacheStore.policy = .unlimited := hs
  unfold CacheAdapterState.expired
  rw [hs]
  cases s.record? storageKey <;> rfl

theorem not_drops_unlimited (hs : s.Unlimited) (task : PersistTask) (answer : StoreAnswer)
    (storageKey : String) : Drops A envelope (s, task) answer storageKey = false := by
  have hput : ∀ request, s.putDrops A request answer.nowSec storageKey = false := by
    intro request
    have hpolicy : (s.filed request answer.nowSec).policy = .unlimited := hs
    unfold CacheAdapterState.putDrops MemoryCacheStore.overflow
      Stores.EquivalenceLemmas.evictedKeys
    rw [not_expired_unlimited hs, hpolicy]
    simp [CacheStorePolicy.unlimited]
  unfold Drops
  simp only [hput, not_expired_unlimited hs, Bool.and_false]
  simp

end BitRelay
