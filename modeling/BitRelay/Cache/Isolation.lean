import BitRelay.Cache.Drops

/-!
# Rooms in the cache

Raw envelopes stand under `room/id`, the records of the issue projection under
`issue/events/…`, `issue/snapshots/…` and `issue/cursors/…`, and all but the raw issue
envelopes are of the kind `object`. So a room named `issue` shares its keys with the
projections of all rooms: the id of an envelope there can spell the rest of such a key.
Besides, every put drops what has expired and what is beyond the bound on the bytes,
whosever it is.

Results:
1. `room_of_projectionKeys`: the projections of two rooms share no key.
2. `isolated_iff_spares`: a persistence leaves the objects of the other rooms alone if and
   only if each of its steps does.
3. `isolated_iff`: and, without a bound on the bytes, if and only if none of them has
   expired and the envelope does not meet such an id.
-/

namespace BitRelay

/-! ## Whose object it is -/

/-- The key of an issue event, of a snapshot or of the cursor record of the room. -/
inductive ProjectionKey (room : String) : String → Prop
  | event (cursor : Nat) (id : String) : ProjectionKey room (issueEventStorageKey room cursor id)
  | snapshot (issueId : String) : ProjectionKey room (issueSnapshotStorageKey room issueId)
  | cursor : ProjectionKey room (issueCursorStorageKey room)

/-- The storage key of a raw envelope or of a record of the issue projection of the room. -/
inductive RoomKey (room : String) : String → Prop
  | raw (kind : CacheStoreKind) (id : String) :
    RoomKey room (toStorageKey kind (envelopeStorageKey room id))
  | projection {key : String} (h : ProjectionKey room key) :
    RoomKey room (toStorageKey .object key)

/-- A stored object that belongs to the room. -/
structure BelongsTo (owner storageKey : String) (record : CacheStoreObject) : Prop where
  valid : isValidRoomName owner = true
  room : record.metadata.room = some owner
  key : RoomKey owner storageKey

/-- The object belongs to a room other than the envelope's. -/
def OfOthers (envelope : Envelope) (storageKey : String) (record : CacheStoreObject) : Prop :=
  ∃ room, BelongsTo room storageKey record ∧ room ≠ envelope.room

section
variable (A : CacheAdapterOptions) (envelope : Envelope) (roomCursorHint : Option Int)
  (s : CacheAdapterState)

/-- Persisting the envelope leaves the objects of the other rooms alone, when the store answers
so. -/
def Isolated (answers : List StoreAnswer) : Prop := ∀ storageKey record,
  s.record? storageKey = some record → OfOthers envelope storageKey record →
    (persistRun A envelope roomCursorHint s answers).1.record? storageKey = some record

/-- The step neither drops an object of another room nor puts a record in its place. -/
def SparesOthers (p : CacheAdapterState × PersistTask) (answer : StoreAnswer) : Prop :=
  ∀ storageKey record, p.1.record? storageKey = some record →
    OfOthers envelope storageKey record →
      Drops A envelope p answer storageKey = false ∧
        ∀ request, carriedPut A envelope p answer = some request → storageKey ≠ request.storageKey

/-- No object of another room has expired. -/
def OthersLive (nowSec : Nat) : Prop := ∀ storageKey record,
  s.record? storageKey = some record → OfOthers envelope storageKey record →
    isExpiredByPolicy record.metadata s.cacheStore.policy nowSec = false

/-- An object of the room `issue` stands under the key. -/
def HeldByIssue (key : String) : Prop :=
  ∃ record, s.object? key = some record ∧ record.metadata.room = some "issue"

/-- The cursor that the event of the envelope gets. -/
def cursorAt (nowSec : Nat) : Nat :=
  nextIssueCursor roomCursorHint (max (s.issueCursorByRoom.getD envelope.room 0)
    (cursorOf envelope.room (s.live? nowSec (issueCursorStorageKey envelope.room))))

/-- A raw object of the room `issue` does not take the place of a record of another room's
projection, and the projection of another room does not write over an object of `issue`. -/
structure KeysFree (nowSec : Nat) : Prop where
  raw : isIssueTopic envelope.topic = false → envelope.room = "issue" → ∀ record room,
    s.object? (envelopeStorageKey "issue" envelope.id) = some record →
      BelongsTo room (toStorageKey .object (envelopeStorageKey "issue" envelope.id)) record →
        room = "issue"
  event : isIssueTopic envelope.topic = true → envelope.room ≠ "issue" →
    ¬ HeldByIssue s (issueEventStorageKey envelope.room
      (cursorAt envelope roomCursorHint s nowSec) envelope.id)
  snapshot : isIssueTopic envelope.topic = true → envelope.room ≠ "issue" →
    updatesSnapshot A envelope (s.live? nowSec (issueSnapshotStorageKey envelope.room
      (extractIssueIdFromEnvelope envelope))) = true →
        ¬ HeldByIssue s (issueSnapshotStorageKey envelope.room (extractIssueIdFromEnvelope envelope))
  cursor : isIssueTopic envelope.topic = true → envelope.room ≠ "issue" →
    ¬ HeldByIssue s (issueCursorStorageKey envelope.room)

end

namespace IsolationLemmas

open WriteLemmas

variable {A : CacheAdapterOptions} {envelope : Envelope} {roomCursorHint : Option Int}
  {s : CacheAdapterState} {nowSec : Nat} {room room' storageKey : String}

/-! ## Projection keys -/

/-- What stands between the first and the second slash of a projection key, and behind it. -/
theorem projectionKey_parts {key : String} (h : ProjectionKey room key) :
    ∃ family rest, '/' ∉ family.toList ∧ key = envelopeStorageKey "issue" (family ++ "/" ++ rest) ∧
      ((family = "cursors" ∧ rest = room) ∨
        family ≠ "cursors" ∧ ∃ suffix, rest = room ++ "/" ++ suffix) := by
  cases h with
  | event cursor id =>
    refine ⟨"events", room ++ "/" ++ issueEventSuffix cursor id, by decide, ?_,
      .inr ⟨by decide, _, rfl⟩⟩
    rw [issueEventStorageKey_eq, String.append_assoc, String.append_assoc]
  | snapshot issueId =>
    refine ⟨"snapshots", room ++ "/" ++ issueId, by decide, ?_, .inr ⟨by decide, _, rfl⟩⟩
    rw [issueSnapshotStorageKey_eq, String.append_assoc, String.append_assoc]
  | cursor => exact ⟨"cursors", room, by decide, issueCursorStorageKey_eq room, .inl ⟨rfl, rfl⟩⟩

/-- The projections of two rooms share no key. -/
theorem room_of_projectionKeys {key : String} (hroom : isValidRoomName room = true)
    (hroom' : isValidRoomName room' = true) (h : ProjectionKey room key)
    (h' : ProjectionKey room' key) : room = room' := by
  obtain ⟨family, rest, hfamily, hkey, hrest⟩ := projectionKey_parts h
  obtain ⟨family', rest', hfamily', hkey', hrest'⟩ := projectionKey_parts h'
  obtain ⟨-, hid⟩ := envelopeStorageKey_inj (by decide) (by decide) (hkey.symm.trans hkey')
  obtain ⟨rfl, rfl⟩ := slash_inj hfamily hfamily' hid
  rcases hrest with ⟨hcursors, rfl⟩ | ⟨hnot, suffix, rfl⟩
  · rcases hrest' with ⟨-, hrest'⟩ | ⟨hnot', -⟩
    · exact hrest'
    · exact absurd hcursors hnot'
  · rcases hrest' with ⟨hcursors, -⟩ | ⟨-, suffix', hrest'⟩
    · exact absurd hcursors hnot
    · exact (slash_inj (slash_notMem_room hroom) (slash_notMem_room hroom') hrest').1

/-- A projection key is the key of a raw envelope of the room `issue` only. -/
theorem room_of_rawKey {id : String} (hroom : isValidRoomName room = true)
    (h : ProjectionKey room' (envelopeStorageKey room id)) : room = "issue" := by
  obtain ⟨family, rest, -, hkey, -⟩ := projectionKey_parts h
  exact (envelopeStorageKey_inj (slash_notMem_room hroom) (by decide) hkey).1

theorem roomKey_cases {kind : CacheStoreKind} {key : String}
    (h : RoomKey room (toStorageKey kind key)) :
    (∃ id, key = envelopeStorageKey room id) ∨ kind = .object ∧ ProjectionKey room key := by
  generalize heq : toStorageKey kind key = storageKey at h
  cases h with
  | raw kind' id => exact .inl ⟨id, (toStorageKey_inj heq).2⟩
  | projection h =>
    obtain ⟨hkind, hkey⟩ := toStorageKey_inj heq
    exact .inr ⟨hkind, hkey ▸ h⟩

/-! ## What a step does to the objects of the others -/

/-- Every put is for the room of the envelope. -/
theorem room_of_carriedPut (h : envelope.Storable) {p : CacheAdapterState × PersistTask}
    {answer : StoreAnswer} {request : CacheStorePutRequest}
    (hrequest : carriedPut A envelope p answer = some request) :
    request.stored.metadata.room = some envelope.room := by
  have hne : envelope.room ≠ "" := (freeText_room h.room).1
  have hfilter : (some envelope.room).filter (· ≠ "") = some envelope.room := by simp [hne]
  have hstage : p.2.stage.request? A envelope answer.nowSec = some request := by
    unfold carriedPut at hrequest
    split at hrequest
    · exact hrequest
    · cases hrequest
  cases hcase : p.2.stage with
  | putEnvelope | putEvent _ _ | putSnapshot _ _ | putCursor _ _ =>
    rw [hcase] at hstage
    cases hstage
    exact hfilter
  | readCursor | cursorRead _ _ | readSnapshot _ _ | persisted | failed =>
    rw [hcase] at hstage
    cases hstage

theorem not_ofOthers_stored (h : envelope.Storable) {p : CacheAdapterState × PersistTask}
    {answer : StoreAnswer} {request : CacheStorePutRequest}
    (hrequest : carriedPut A envelope p answer = some request) :
    ¬ OfOthers envelope storageKey request.stored := by
  rintro ⟨room, hbelongs, hne⟩
  exact hne (Option.some.inj (hbelongs.room.symm.trans (room_of_carriedPut h hrequest)))

/-- An object of another room behind a step was there before it, and the step has spared it. -/
theorem others_behind (h : envelope.Storable) {p : CacheAdapterState × PersistTask}
    {answer : StoreAnswer} {record : CacheStoreObject}
    (hrecord : (persistStep A envelope roomCursorHint p answer).1.record? storageKey = some record)
    (hothers : OfOthers envelope storageKey record) :
    p.1.record? storageKey = some record ∧ Drops A envelope p answer storageKey = false ∧
      ∀ request, carriedPut A envelope p answer = some request →
        storageKey ≠ request.storageKey := by
  rw [record?_persistStep h, recordBehind] at hrecord
  cases hdrops : Drops A envelope p answer storageKey with
  | true =>
    rw [hdrops] at hrecord
    cases hrecord
  | false =>
    rw [hdrops, if_neg Bool.false_ne_true] at hrecord
    cases hput : carriedPut A envelope p answer with
    | none =>
      rw [hput] at hrecord
      exact ⟨hrecord, rfl, fun request heq => absurd heq.symm (Option.some_ne_none request)⟩
    | some request =>
      rw [hput] at hrecord
      have hother : storageKey ≠ request.storageKey := by
        rintro rfl
        dsimp only at hrecord
        rw [if_pos rfl] at hrecord
        cases hrecord
        exact not_ofOthers_stored h hput hothers
      dsimp only at hrecord
      rw [if_neg hother] at hrecord
      refine ⟨hrecord, rfl, fun request' heq => ?_⟩
      cases heq
      exact hother

/-- What another room has at the end of a run, it had at its beginning. -/
theorem others_of_run (h : envelope.Storable) {record : CacheStoreObject}
    (hothers : OfOthers envelope storageKey record) (answers : List StoreAnswer)
    (p : CacheAdapterState × PersistTask)
    (hrecord : (runFrom (persistStep A envelope roomCursorHint) p answers).1.record? storageKey =
      some record) : p.1.record? storageKey = some record := by
  induction answers generalizing p with
  | nil => exact hrecord
  | cons answer rest ih => exact (others_behind h (ih _ hrecord) hothers).1

theorem along_of_isolated (h : envelope.Storable) (answers : List StoreAnswer)
    (p : CacheAdapterState × PersistTask)
    (hisolated : ∀ storageKey record, p.1.record? storageKey = some record →
      OfOthers envelope storageKey record →
        (runFrom (persistStep A envelope roomCursorHint) p answers).1.record? storageKey =
          some record) :
    Along (persistStep A envelope roomCursorHint) (SparesOthers A envelope) p answers := by
  induction answers generalizing p with
  | nil => trivial
  | cons answer rest ih =>
    refine ⟨fun storageKey record hrecord hothers => ?_, ih _ fun storageKey record hrecord
      hothers => hisolated _ _ (others_behind h hrecord hothers).1 hothers⟩
    have hend := hisolated _ _ hrecord hothers
    exact (others_behind h (others_of_run h hothers rest _ hend) hothers).2

end IsolationLemmas

open IsolationLemmas

section
variable {A : CacheAdapterOptions} {envelope : Envelope} {roomCursorHint : Option Int}
  {s : CacheAdapterState}

/-- A persistence leaves the objects of the other rooms alone if and only if each of its steps
does, however the store answers. -/
theorem isolated_iff_spares (h : envelope.Storable) (answers : List StoreAnswer) :
    Isolated A envelope roomCursorHint s answers ↔
      Along (persistStep A envelope roomCursorHint) (SparesOthers A envelope) (s, .start)
        answers := by
  refine ⟨along_of_isolated h answers (s, .start), fun hspares => ?_⟩
  exact hspares.invariant
    (I := fun p : CacheAdapterState × PersistTask => ∀ storageKey record,
      s.record? storageKey = some record → OfOthers envelope storageKey record →
        p.1.record? storageKey = some record)
    (fun p answer hstep hkept storageKey record hrecord hothers => by
      have hnow := hkept storageKey record hrecord hothers
      obtain ⟨hdrops, hother⟩ := hstep storageKey record hnow hothers
      rw [record?_of_other h hdrops hother, hnow])
    (fun _ _ hrecord _ => hrecord)

end

/-! ## Without a bound on the bytes -/

namespace IsolationLemmas

open WriteLemmas

/-- No object of another room stands under the storage key. -/
def FreeAt (envelope : Envelope) (s : CacheAdapterState) (storageKey : String) : Prop :=
  ∀ record, s.record? storageKey = some record → ¬ OfOthers envelope storageKey record

/-- The steps of the task from a stage on, none of whose calls throws, spare the others. -/
def SparesFrom (A : CacheAdapterOptions) (envelope : Envelope) (roomCursorHint : Option Int)
    (nowSec : Nat) (s : CacheAdapterState) (stage : PersistStage) (n : Nat) : Prop :=
  Along (persistStep A envelope roomCursorHint) (SparesOthers A envelope) (s, ⟨0, stage⟩)
    (List.replicate n ⟨true, nowSec⟩)

variable {A : CacheAdapterOptions} {envelope : Envelope} {roomCursorHint : Option Int}
  {s s' : CacheAdapterState} {nowSec : Nat} {storageKey key : String}
  {p : CacheAdapterState × PersistTask} {answer : StoreAnswer} {stage stage' : PersistStage}

theorem live?_eq (s : CacheAdapterState) (nowSec : Nat) (key : String) :
    s.live? nowSec key = (s.record? (toStorageKey .object key)).filter fun record =>
      !isExpiredByPolicy record.metadata s.cacheStore.policy nowSec := by
  unfold CacheAdapterState.live? CacheAdapterState.expired CacheAdapterState.object?
  cases s.record? (toStorageKey .object key) with
  | none => rfl
  | some record =>
    rw [Option.any_some, Option.filter_some]
    cases isExpiredByPolicy record.metadata s.cacheStore.policy nowSec <;> rfl

theorem putDrops_eq (hmax : s.cacheStore.policy.maxBytes = none) (request : CacheStorePutRequest)
    (nowSec : Nat) (storageKey : String) : s.putDrops A request nowSec storageKey =
      (decide (storageKey ≠ request.storageKey) && s.expired nowSec storageKey) := by
  have hpolicy : (s.filed request nowSec).policy.maxBytes = none := hmax
  unfold CacheAdapterState.putDrops MemoryCacheStore.overflow Stores.EquivalenceLemmas.evictedKeys
  rw [hpolicy]
  simp

/-- What is dropped has expired. -/
theorem expired_of_drops (hmax : p.1.cacheStore.policy.maxBytes = none)
    (h : Drops A envelope p answer storageKey = true) :
    p.1.expired answer.nowSec storageKey = true := by
  unfold Drops at h
  simp only [putDrops_eq hmax, Bool.and_eq_true, Bool.or_eq_true, Option.any_eq_true] at h
  rcases h.2 with ⟨_, -, -, hexpired⟩ | ⟨_, -, -, hexpired⟩ <;> exact hexpired

theorem not_expired_of_live (hlive : OthersLive envelope s nowSec) {record : CacheStoreObject}
    (hrecord : s.record? storageKey = some record) (hothers : OfOthers envelope storageKey record) :
    s.expired nowSec storageKey = false := by
  unfold CacheAdapterState.expired
  rw [hrecord, Option.any_some, hlive storageKey record hrecord hothers]

/-! ### What the steps keep -/

theorem othersLive_step (h : envelope.Storable) (hlive : OthersLive envelope p.1 nowSec) :
    OthersLive envelope (persistStep A envelope roomCursorHint p answer).1 nowSec := by
  intro storageKey record hrecord hothers
  rw [policy_persistStep h]
  exact hlive _ _ (others_behind h hrecord hothers).1 hothers

theorem freeAt_step (h : envelope.Storable) (hspares : SparesOthers A envelope p answer)
    (storageKey : String) :
    FreeAt envelope (persistStep A envelope roomCursorHint p answer).1 storageKey ↔
      FreeAt envelope p.1 storageKey := by
  constructor
  · intro hfree record hrecord hothers
    obtain ⟨hdrops, hother⟩ := hspares _ _ hrecord hothers
    exact hfree record (by rw [record?_of_other h hdrops hother, hrecord]) hothers
  · exact fun hfree record hrecord hothers =>
      hfree record (others_behind h hrecord hothers).1 hothers

theorem live?_step (h : envelope.Storable) (hmax : p.1.cacheStore.policy.maxBytes = none)
    (hother : ∀ request, carriedPut A envelope p answer = some request →
      toStorageKey .object key ≠ request.storageKey) :
    (persistStep A envelope roomCursorHint p answer).1.live? answer.nowSec key =
      p.1.live? answer.nowSec key := by
  rw [live?_eq, live?_eq, policy_persistStep h]
  cases hdrops : Drops A envelope p answer (toStorageKey .object key) with
  | false => rw [record?_of_other h hdrops hother]
  | true =>
    have hexpired := expired_of_drops hmax hdrops
    rw [record?_persistStep h, recordBehind, hdrops, if_pos rfl, Option.filter_none]
    unfold CacheAdapterState.expired at hexpired
    obtain ⟨record, hrecord, hold⟩ := (Option.any_eq_true _ _).mp hexpired
    rw [hrecord, Option.filter_some, hold]
    rfl

/-! ### When a step spares the others -/

theorem spares_put (hmax : s.cacheStore.policy.maxBytes = none) {request : CacheStorePutRequest}
    (hrequest : stage.request? A envelope nowSec = some request)
    (hlookup : stage.lookup? envelope = none) :
    SparesOthers A envelope (s, ⟨0, stage⟩) ⟨true, nowSec⟩ ↔
      OthersLive envelope s nowSec ∧ FreeAt envelope s request.storageKey := by
  have hcarried : carriedPut A envelope (s, ⟨0, stage⟩) ⟨true, nowSec⟩ = some request := hrequest
  have hdrops : ∀ storageKey, Drops A envelope (s, ⟨0, stage⟩) ⟨true, nowSec⟩ storageKey =
      (decide (storageKey ≠ request.storageKey) && s.expired nowSec storageKey) := by
    intro storageKey
    unfold Drops
    simp only [hrequest, hlookup, Option.any_some, Option.any_none, Bool.or_false, Bool.true_and,
      putDrops_eq hmax]
  constructor
  · intro hspares
    refine ⟨fun storageKey record hrecord hothers => ?_, fun record hrecord hothers => ?_⟩
    · obtain ⟨hkept, hother⟩ := hspares _ _ hrecord hothers
      rw [hdrops, decide_eq_true (hother _ hcarried), Bool.true_and] at hkept
      unfold CacheAdapterState.expired at hkept
      rwa [hrecord, Option.any_some] at hkept
    · exact (hspares _ _ hrecord hothers).2 _ hcarried rfl
  · rintro ⟨hlive, hfree⟩ storageKey record hrecord hothers
    refine ⟨?_, fun request' hrequest' => ?_⟩
    · rw [hdrops, not_expired_of_live hlive hrecord hothers, Bool.and_false]
    · rw [hcarried] at hrequest'
      cases hrequest'
      rintro rfl
      exact hfree record hrecord hothers

theorem spares_other (hlive : OthersLive envelope s nowSec)
    (hrequest : stage.request? A envelope nowSec = none) :
    SparesOthers A envelope (s, ⟨0, stage⟩) ⟨true, nowSec⟩ := by
  intro storageKey record hrecord hothers
  refine ⟨?_, fun request hcarried => ?_⟩
  · unfold Drops
    simp only [hrequest, Option.any_none, Bool.false_or, Bool.true_and,
      not_expired_of_live hlive hrecord hothers, Bool.and_false]
    cases stage.lookup? envelope <;> rfl
  · have hnone : (none : Option CacheStorePutRequest) = some request := hrequest ▸ hcarried
    cases hnone

/-! ### The walk through the stages -/

theorem sparesFrom_succ {n : Nat}
    (hstep : stage.step A envelope roomCursorHint s ⟨true, nowSec⟩ = some (s', stage')) :
    SparesFrom A envelope roomCursorHint nowSec s stage (n + 1) ↔
      SparesOthers A envelope (s, ⟨0, stage⟩) ⟨true, nowSec⟩ ∧
        SparesFrom A envelope roomCursorHint nowSec s' stage' n := by
  have hnext : persistStep A envelope roomCursorHint (s, ⟨0, stage⟩) ⟨true, nowSec⟩ =
      (s', ⟨0, stage'⟩) := persistStep_of_some hstep
  unfold SparesFrom
  rw [List.replicate_succ]
  show _ ∧ Along _ _ (persistStep _ _ _ _ _) _ ↔ _
  rw [hnext]

/-- What the walk knows about the store. -/
structure Walks (envelope : Envelope) (s : CacheAdapterState) (nowSec : Nat) : Prop where
  storable : envelope.Storable
  unbounded : s.cacheStore.policy.maxBytes = none
  live : OthersLive envelope s nowSec

theorem Walks.next (h : Walks envelope s nowSec)
    (hstep : stage.step A envelope roomCursorHint s ⟨true, nowSec⟩ = some (s', stage')) :
    Walks envelope s' nowSec := by
  have hnext : (persistStep A envelope roomCursorHint (s, ⟨0, stage⟩) ⟨true, nowSec⟩).1 = s' :=
    congrArg Prod.fst (persistStep_of_some hstep)
  refine ⟨h.storable, ?_, ?_⟩
  · rw [← hnext, policy_persistStep h.storable]
    exact h.unbounded
  · rw [← hnext]
    exact othersLive_step h.storable h.live

/-- A put on the way: it spares the others when its key is free, and then what is free stays. -/
theorem sparesFrom_put (h : Walks envelope s nowSec) {request : CacheStorePutRequest} {n : Nat}
    (hrequest : stage.request? A envelope nowSec = some request)
    (hlookup : stage.lookup? envelope = none)
    (hstep : stage.step A envelope roomCursorHint s ⟨true, nowSec⟩ = some (s', stage')) {P : Prop}
    (hrest : (∀ storageKey, FreeAt envelope s' storageKey ↔ FreeAt envelope s storageKey) →
      (SparesFrom A envelope roomCursorHint nowSec s' stage' n ↔ P)) :
    SparesFrom A envelope roomCursorHint nowSec s stage (n + 1) ↔
      FreeAt envelope s request.storageKey ∧ P := by
  rw [sparesFrom_succ hstep, spares_put h.unbounded hrequest hlookup, and_iff_right h.live]
  refine and_congr_right fun hfree => hrest fun storageKey => ?_
  have hspares := (spares_put h.unbounded hrequest hlookup).mpr ⟨h.live, hfree⟩
  have hnext : (persistStep A envelope roomCursorHint (s, ⟨0, stage⟩) ⟨true, nowSec⟩).1 = s' :=
    congrArg Prod.fst (persistStep_of_some hstep)
  rw [← hnext]
  exact freeAt_step h.storable hspares storageKey

/-- A step without a put spares the others. -/
theorem sparesFrom_other (h : Walks envelope s nowSec) {n : Nat}
    (hrequest : stage.request? A envelope nowSec = none)
    (hstep : stage.step A envelope roomCursorHint s ⟨true, nowSec⟩ = some (s', stage')) {P : Prop}
    (hrest : (∀ storageKey, FreeAt envelope s' storageKey ↔ FreeAt envelope s storageKey) →
      (SparesFrom A envelope roomCursorHint nowSec s' stage' n ↔ P)) :
    SparesFrom A envelope roomCursorHint nowSec s stage (n + 1) ↔ P := by
  have hspares := spares_other (A := A) h.live hrequest
  have hnext : (persistStep A envelope roomCursorHint (s, ⟨0, stage⟩) ⟨true, nowSec⟩).1 = s' :=
    congrArg Prod.fst (persistStep_of_some hstep)
  rw [sparesFrom_succ hstep, and_iff_right hspares]
  refine hrest fun storageKey => ?_
  rw [← hnext]
  exact freeAt_step h.storable hspares storageKey

/-- A lookup finds the same behind a step that does not put the key. -/
theorem live?_next (h : Walks envelope s nowSec)
    (hstep : stage.step A envelope roomCursorHint s ⟨true, nowSec⟩ = some (s', stage'))
    (hother : ∀ request, stage.request? A envelope nowSec = some request →
      toStorageKey .object key ≠ request.storageKey) :
    s'.live? nowSec key = s.live? nowSec key := by
  have hnext : (persistStep A envelope roomCursorHint (s, ⟨0, stage⟩) ⟨true, nowSec⟩).1 = s' :=
    congrArg Prod.fst (persistStep_of_some hstep)
  rw [← hnext]
  exact live?_step h.storable h.unbounded hother

theorem sparesFrom_persisted (h : Walks envelope s nowSec) (n : Nat) :
    SparesFrom A envelope roomCursorHint nowSec s .persisted n := by
  induction n with
  | zero => trivial
  | succ n ih => exact (sparesFrom_succ rfl).mpr ⟨spares_other h.live rfl, ih⟩

section
variable (envelope) (issueCursor : Nat)

def eventAt : String :=
  toStorageKey .object (issueEventStorageKey envelope.room issueCursor envelope.id)

def snapshotAt : String :=
  toStorageKey .object (issueSnapshotStorageKey envelope.room (extractIssueIdFromEnvelope envelope))

def cursorRecordAt : String := toStorageKey .object (issueCursorStorageKey envelope.room)

/-- Whether the snapshot is written over what a lookup finds. -/
def takesSnapshot (A : CacheAdapterOptions) (s : CacheAdapterState) (nowSec : Nat) : Bool :=
  updatesSnapshot A envelope (s.live? nowSec (issueSnapshotStorageKey envelope.room
    (extractIssueIdFromEnvelope envelope)))

end

theorem sparesFrom_putCursor (h : Walks envelope s nowSec) (n c u : Nat) :
    SparesFrom A envelope roomCursorHint nowSec s (.putCursor c u) (n + 1) ↔
      FreeAt envelope s (cursorRecordAt envelope) := by
  have hstep : PersistStage.step A envelope roomCursorHint s ⟨true, nowSec⟩ (.putCursor c u) =
      some (_, .persisted) := PersistStage.call_putCursor h.storable s ⟨true, nowSec⟩ c u
  refine (sparesFrom_put h rfl rfl hstep (P := True) fun _ => ?_).trans (and_iff_left trivial)
  exact iff_true_intro (sparesFrom_persisted (h.next hstep) n)

theorem sparesFrom_putSnapshot (h : Walks envelope s nowSec) (n c u : Nat) :
    SparesFrom A envelope roomCursorHint nowSec s (.putSnapshot c u) (n + 2) ↔
      FreeAt envelope s (snapshotAt envelope) ∧ FreeAt envelope s (cursorRecordAt envelope) := by
  have hstep : PersistStage.step A envelope roomCursorHint s ⟨true, nowSec⟩ (.putSnapshot c u) =
      some (_, .putCursor c u) := PersistStage.call_putSnapshot h.storable s ⟨true, nowSec⟩ c u
  exact sparesFrom_put h rfl rfl hstep fun hsame =>
    (sparesFrom_putCursor (h.next hstep) n c u).trans (hsame _)

theorem sparesFrom_readSnapshot (h : Walks envelope s nowSec) (n c u : Nat) :
    SparesFrom A envelope roomCursorHint nowSec s (.readSnapshot c u) (n + 3) ↔
      (takesSnapshot envelope A s nowSec = true → FreeAt envelope s (snapshotAt envelope)) ∧
        FreeAt envelope s (cursorRecordAt envelope) := by
  have hstep : PersistStage.step A envelope roomCursorHint s ⟨true, nowSec⟩ (.readSnapshot c u) =
      some (s.afterGet nowSec (issueSnapshotStorageKey envelope.room (extractIssueIdFromEnvelope
        envelope)), if takesSnapshot envelope A s nowSec then .putSnapshot c u else .putCursor c u) :=
    PersistStage.call_readSnapshot h.storable s ⟨true, nowSec⟩ c u
  refine sparesFrom_other h rfl hstep fun hsame => ?_
  have hnext := h.next hstep
  cases takesSnapshot envelope A s nowSec with
  | true =>
    rw [if_pos rfl, sparesFrom_putSnapshot hnext n c u, hsame, hsame]
    exact and_congr_left' ⟨fun hfree _ => hfree, fun hfree => hfree rfl⟩
  | false =>
    rw [if_neg Bool.false_ne_true, sparesFrom_putCursor hnext (n + 1) c u, hsame]
    exact (and_iff_right fun heq => absurd heq Bool.false_ne_true).symm

theorem sparesFrom_putEvent (h : Walks envelope s nowSec) (n c u : Nat) :
    SparesFrom A envelope roomCursorHint nowSec s (.putEvent c u) (n + 4) ↔
      FreeAt envelope s (eventAt envelope c) ∧
        (takesSnapshot envelope A s nowSec = true → FreeAt envelope s (snapshotAt envelope)) ∧
          FreeAt envelope s (cursorRecordAt envelope) := by
  have hstep : PersistStage.step A envelope roomCursorHint s ⟨true, nowSec⟩ (.putEvent c u) =
      some (_, .readSnapshot c u) := PersistStage.call_putEvent h.storable s ⟨true, nowSec⟩ c u
  refine sparesFrom_put h rfl rfl hstep fun hsame => ?_
  have htakes : takesSnapshot envelope A (s.afterPut A (issueEventRequest A envelope c u) nowSec)
      nowSec = takesSnapshot envelope A s nowSec := by
    unfold takesSnapshot
    rw [live?_next h hstep fun request hrequest => ?_]
    cases hrequest
    exact fun heq => event_ne_snapshot (toStorageKey_inj heq).2.symm
  rw [sparesFrom_readSnapshot (h.next hstep) n c u, hsame, hsame]
  exact and_congr_left' (by rw [htakes])

theorem sparesFrom_readCursor (h : Walks envelope s nowSec) (n : Nat) :
    SparesFrom A envelope roomCursorHint nowSec s .readCursor (n + 6) ↔
      FreeAt envelope s (eventAt envelope (cursorAt envelope roomCursorHint s nowSec)) ∧
        (takesSnapshot envelope A s nowSec = true → FreeAt envelope s (snapshotAt envelope)) ∧
          FreeAt envelope s (cursorRecordAt envelope) := by
  have hstep : PersistStage.step A envelope roomCursorHint s ⟨true, nowSec⟩ .readCursor =
      some (s.afterGet nowSec (issueCursorStorageKey envelope.room),
        .cursorRead (s.issueCursorByRoom.getD envelope.room 0) (cursorOf envelope.room
          (s.live? nowSec (issueCursorStorageKey envelope.room)))) :=
    PersistStage.call_readCursor h.storable s ⟨true, nowSec⟩
  refine sparesFrom_other h rfl hstep fun hsame => ?_
  have hnext := h.next hstep
  have htakes : takesSnapshot envelope A (s.afterGet nowSec (issueCursorStorageKey envelope.room))
      nowSec = takesSnapshot envelope A s nowSec := by
    unfold takesSnapshot
    rw [live?_next h hstep fun request hrequest => nomatch hrequest]
  generalize s.afterGet nowSec (issueCursorStorageKey envelope.room) = t at hsame hnext htakes
  -- Between the two calls the cursor is taken, which the store does not see.
  generalize hcursors : (t.issueCursorByRoom.set envelope.room _).set envelope.room _ = cursors
  have hread : PersistStage.step A envelope roomCursorHint t ⟨true, nowSec⟩ (.cursorRead
      (s.issueCursorByRoom.getD envelope.room 0) (cursorOf envelope.room
        (s.live? nowSec (issueCursorStorageKey envelope.room)))) =
      some (⟨t.cacheStore, cursors⟩, .putEvent (cursorAt envelope roomCursorHint s nowSec) nowSec) :=
    hcursors ▸ rfl
  refine sparesFrom_other hnext rfl hread fun _ => ?_
  rw [sparesFrom_putEvent (hnext.next hread) n]
  show FreeAt envelope t _ ∧ (takesSnapshot envelope A t nowSec = true → FreeAt envelope t _) ∧
    FreeAt envelope t _ ↔ _
  rw [hsame, hsame, hsame, htakes]

/-! ### Whose keys are met -/

/-- The keys of the projection of a room are met by the room `issue` only. -/
theorem freeAt_projection (h : envelope.Storable) (hkey : ProjectionKey envelope.room key) :
    FreeAt envelope s (toStorageKey .object key) ↔
      (envelope.room ≠ "issue" → ¬ HeldByIssue s key) := by
  constructor
  · rintro hfree hne ⟨record, hrecord, hroom⟩
    obtain ⟨family, rest, -, hraw, -⟩ := projectionKey_parts hkey
    have hissue : RoomKey "issue" (toStorageKey .object key) := by
      rw [hraw]
      exact .raw _ _
    exact hfree record hrecord ⟨"issue", ⟨by decide, hroom, hissue⟩, hne.symm⟩
  · rintro hheld record hrecord ⟨room, ⟨hvalid, hroom, hroomKey⟩, hne⟩
    rcases roomKey_cases hroomKey with ⟨id, hid⟩ | ⟨-, hother⟩
    · have hissue : room = "issue" := room_of_rawKey hvalid (hid ▸ hkey)
      subst hissue
      exact hheld hne.symm ⟨record, hrecord, hroom⟩
    · exact hne (room_of_projectionKeys hvalid h.room hother hkey)

/-- The key of the raw envelope is met by the projections of the other rooms only, and only in the
room `issue`. -/
theorem freeAt_raw (h : envelope.Storable) :
    FreeAt envelope s (envelopeRequest A envelope nowSec).storageKey ↔
      (isIssueTopic envelope.topic = false → envelope.room = "issue" → ∀ record room,
        s.object? (envelopeStorageKey "issue" envelope.id) = some record →
          BelongsTo room (toStorageKey .object (envelopeStorageKey "issue" envelope.id)) record →
            room = "issue") := by
  have hrequest : (envelopeRequest A envelope nowSec).storageKey = toStorageKey
      (if isIssueTopic envelope.topic then .issue else .object)
        (envelopeStorageKey envelope.room envelope.id) := rfl
  constructor
  · intro hfree htopic hissue record room hrecord hbelongs
    by_contra hne
    rw [hrequest, htopic, if_neg Bool.false_ne_true, hissue] at hfree
    exact hfree record hrecord ⟨room, hbelongs, fun heq => hne (heq.trans hissue)⟩
  · rintro hraw record hrecord ⟨room, hbelongs, hne⟩
    rw [hrequest] at hrecord hbelongs
    rcases roomKey_cases hbelongs.key with ⟨id, hid⟩ | ⟨hkind, hkey⟩
    · exact hne (envelopeStorageKey_inj (slash_notMem_room h.room)
        (slash_notMem_room hbelongs.valid) hid).1.symm
    · have hissue := room_of_rawKey h.room hkey
      cases htopic : isIssueTopic envelope.topic with
      | true =>
        rw [htopic] at hkind
        cases hkind
      | false =>
        rw [htopic, if_neg Bool.false_ne_true, hissue] at hrecord hbelongs
        exact hne ((hraw htopic hissue record room hrecord hbelongs).trans hissue.symm)

/-- The keys that the task meets are free. -/
theorem keysFree_iff (h : envelope.Storable) :
    KeysFree A envelope roomCursorHint s nowSec ↔
      FreeAt envelope s (envelopeRequest A envelope nowSec).storageKey ∧
        (isIssueTopic envelope.topic = true →
          FreeAt envelope s (eventAt envelope (cursorAt envelope roomCursorHint s nowSec)) ∧
            (takesSnapshot envelope A s nowSec = true → FreeAt envelope s (snapshotAt envelope)) ∧
              FreeAt envelope s (cursorRecordAt envelope)) := by
  rw [freeAt_raw h]
  unfold eventAt snapshotAt cursorRecordAt takesSnapshot
  simp only [freeAt_projection h (.event _ _), freeAt_projection h (.snapshot _),
    freeAt_projection h .cursor]
  constructor
  · rintro ⟨hraw, hevent, hsnapshot, hcursor⟩
    exact ⟨hraw, fun htopic => ⟨hevent htopic, fun htakes hne => hsnapshot htopic hne htakes,
      hcursor htopic⟩⟩
  · rintro ⟨hraw, hrest⟩
    exact ⟨hraw, fun htopic => (hrest htopic).1, fun htopic hne htakes =>
      (hrest htopic).2.1 htakes hne, fun htopic => (hrest htopic).2.2⟩

end IsolationLemmas

section
variable {A : CacheAdapterOptions} {envelope : Envelope} {roomCursorHint : Option Int}
  {s : CacheAdapterState} {nowSec : Nat}

open WriteLemmas

/-- Without a bound on the bytes, a persistence whose calls the store answers spares the others if
and only if nothing of theirs has expired and the keys are free. -/
theorem spares_iff_keysFree (h : envelope.Storable) (hmax : s.cacheStore.policy.maxBytes = none) :
    SparesFrom A envelope roomCursorHint nowSec s .putEnvelope 7 ↔
      OthersLive envelope s nowSec ∧ KeysFree A envelope roomCursorHint s nowSec := by
  have hstep : PersistStage.step A envelope roomCursorHint s ⟨true, nowSec⟩ .putEnvelope =
      some (s.afterPut A (envelopeRequest A envelope nowSec) nowSec,
        if isIssueTopic envelope.topic then .readCursor else .persisted) :=
    PersistStage.call_putEnvelope h s ⟨true, nowSec⟩
  have hwalk : OthersLive envelope s nowSec →
      (SparesFrom A envelope roomCursorHint nowSec s .putEnvelope 7 ↔
        KeysFree A envelope roomCursorHint s nowSec) := by
    intro hlive
    have hwalks : Walks envelope s nowSec := ⟨h, hmax, hlive⟩
    rw [keysFree_iff h]
    refine sparesFrom_put hwalks rfl rfl hstep fun hsame => ?_
    have hnext := hwalks.next hstep
    cases htopic : isIssueTopic envelope.topic with
    | false =>
      rw [htopic] at hstep
      exact iff_of_true (sparesFrom_persisted hnext 6) fun heq => absurd heq Bool.false_ne_true
    | true =>
      -- The raw put is of another kind, so the lookups find what they found before.
      have hlookup : ∀ key, (s.afterPut A (envelopeRequest A envelope nowSec) nowSec).live? nowSec
          key = s.live? nowSec key := by
        intro key
        refine live?_next hwalks hstep fun request hrequest heq => ?_
        cases hrequest
        have hkind := (toStorageKey_inj (show toStorageKey .object key = toStorageKey
          (if isIssueTopic envelope.topic then .issue else .object) _ from heq)).1
        rw [htopic] at hkind
        cases hkind
      have hcursor : cursorAt envelope roomCursorHint (s.afterPut A (envelopeRequest A envelope
          nowSec) nowSec) nowSec = cursorAt envelope roomCursorHint s nowSec := by
        unfold cursorAt
        rw [hlookup]
        rfl
      have htakes : takesSnapshot envelope A (s.afterPut A (envelopeRequest A envelope nowSec)
          nowSec) nowSec = takesSnapshot envelope A s nowSec := by
        unfold takesSnapshot
        rw [hlookup]
      rw [if_pos rfl, sparesFrom_readCursor hnext 0, hsame, hsame, hsame, hcursor, htakes]
      exact ⟨fun hfree _ => hfree, fun hfree => hfree rfl⟩
  constructor
  · intro hspares
    have hlive := ((spares_put hmax rfl rfl).mp ((sparesFrom_succ hstep).mp hspares).1).1
    exact ⟨hlive, (hwalk hlive).mp hspares⟩
  · exact fun ⟨hlive, hfree⟩ => (hwalk hlive).mpr hfree

end

/-! ## On the toy host -/

def toyIssue : Envelope := ⟨"main", "x", "alice", "issue", .null, none⟩

/-- The id of a message in the room `issue` spells the key of the first event of `main`. -/
def toyShadow : Envelope :=
  ⟨"issue", "events/main/000000000001-x", "mallory", "notify", .null, none⟩

/-- A store in which records live for a minute. -/
def minuteStore : CacheAdapterState := ⟨⟨⟨some 60, none⟩, ∅⟩, ∅⟩

def lobbyIssue : Envelope := ⟨"lobby", "x", "bob", "issue", .null, none⟩

end BitRelay
