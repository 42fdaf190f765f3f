import BitRelay.Cache.Writes
import BitRelay.Lib.OffsetReader

/-!
# Pulling the issues of a room

A client pulls the issues of a room page by page, each time from the cursor of the
last answer, while issue envelopes are persisted. The cursor is an offset in the
listing of the room, which is sorted by key. An envelope whose key goes in front of
the offset moves the ones behind it: the next pull returns one of them again, and the
new one is never returned.

Results:
1. `pullIssues_eq`: a pull returns a page of the sorted listing.
2. `pulls_sound_of_behind`: when every new envelope of the room sorts behind what the
   client has seen, no envelope is returned twice and a pull that is not full has
   returned everything.
-/

namespace BitRelay

/-! ## Runs -/

/-- An envelope on an issue topic, as the relay admits it. -/
structure IssueMessage where
  envelope : Envelope
  storable : envelope.Storable
  topic : isValidTopic envelope.topic = true
  issue : isIssueTopic envelope.topic = true
  sender : trim envelope.sender ≠ ""

def IssueMessage.key (message : IssueMessage) : String :=
  envelopeStorageKey message.envelope.room message.envelope.id

/-- An envelope as it reads back from the store. -/
def Envelope.readBack (envelope : Envelope) : Envelope :=
  { envelope with payload := envelope.payload.normalize }

structure IssuePuller where
  adapter : CacheAdapterState
  /-- the envelopes persisted so far, with the times -/
  persisted : List (IssueMessage × Nat)
  after : Nat
  /-- what the pulls have returned so far -/
  returned : List Envelope

inductive IssuePullEvent
  | persist (message : IssueMessage) (roomCursorHint : Option Int) (nowSec : Nat)
  | pull (limit nowSec : Nat)

section
variable (A : CacheAdapterOptions) (room : String)

/-- The client after the adapter persisted a message. -/
def IssuePuller.persist (p : IssuePuller) (adapter : CacheAdapterState) (message : IssueMessage)
    (nowSec : Nat) : IssuePuller :=
  { p with
    adapter
    persisted := p.persisted ++ [(message, nowSec)] }

def IssuePuller.step (p : IssuePuller) : IssuePullEvent → IssuePuller
  | .persist message roomCursorHint nowSec =>
    p.persist (persistEnvelope A message.envelope roomCursorHint p.adapter nowSec) message nowSec
  | .pull limit nowSec =>
    let (result, adapter) := pullIssues A p.adapter room p.after limit nowSec
    { p with
      adapter
      after := result.nextCursor.toNat
      returned := p.returned ++ result.envelopes }

/-- No id is used for two envelopes of a room. -/
def FreshId (p : IssuePuller) : IssuePullEvent → Prop
  | .persist message _ _ => ∀ e ∈ p.persisted,
      e.1.envelope.room = message.envelope.room → e.1.envelope.id ≠ message.envelope.id
  | .pull _ _ => True

/-- A new envelope of the room sorts behind every envelope the client has seen. -/
def SortsBehind (p : IssuePuller) : IssuePullEvent → Prop
  | .persist message _ _ => message.envelope.room = room → ∀ e ∈ p.returned,
      A.collation.le (envelopeStorageKey room e.id) message.key = true
  | .pull _ _ => True

/-- A pull returns nothing again, and a pull that is not full has returned everything. -/
def PullSound (p : IssuePuller) : IssuePullEvent → Prop
  | .persist _ _ _ => True
  | .pull limit nowSec =>
    let result := (pullIssues A p.adapter room p.after limit nowSec).1
    ((p.returned ++ result.envelopes).map Envelope.id).Nodup ∧
      (result.envelopes.length < limit → ∀ e ∈ p.persisted, e.1.envelope.room = room →
        e.1.envelope.readBack ∈ p.returned ++ result.envelopes)

instance (p : IssuePuller) (event : IssuePullEvent) : Decidable (FreshId p event) := by
  cases event <;> unfold FreshId <;> infer_instance

instance (p : IssuePuller) (event : IssuePullEvent) : Decidable (SortsBehind A room p event) := by
  cases event <;> unfold SortsBehind <;> infer_instance

instance (p : IssuePuller) (event : IssuePullEvent) : Decidable (PullSound A room p event) := by
  cases event <;> unfold PullSound <;> infer_instance

/-- A client that has not pulled yet, over an empty store. -/
def IssuePuller.init : IssuePuller := ⟨⟨⟨.unlimited, ∅⟩, ∅⟩, [], 0, []⟩

end

namespace PullLemmas

open WriteLemmas

variable {A : CacheAdapterOptions} {room : String} {s : CacheAdapterState} {p : IssuePuller}

/-! ## The records of the room -/

/-- Whether a record is listed for the room. -/
def listedIn (room : String) (record : CacheStoreObject) : Bool :=
  record.metadata.kind == .issue && record.metadata.room == some room

def issueRecords (s : CacheAdapterState) (room : String) : List CacheStoreObject :=
  s.cacheStore.records.values.filter (listedIn room)

/-- Every record stands under its own kind and key. -/
def Keyed (s : CacheAdapterState) : Prop := ∀ storageKey record,
  s.record? storageKey = some record →
    storageKey = toStorageKey record.metadata.kind record.metadata.key

theorem keyed_store (h : Keyed s) (request : CacheStorePutRequest) : Keyed (s.store request) := by
  intro storageKey record hrecord
  rw [CacheAdapterState.record?_store] at hrecord
  split at hrecord
  · next heq =>
    cases hrecord
    exact heq
  · exact h storageKey record hrecord

/-- The put of an object leaves the issue records alone. -/
theorem issueRecords_store_object (h : Keyed s) {request : CacheStorePutRequest}
    (hkind : request.kind = .object) (room : String) :
    issueRecords (s.store request) room = issueRecords s room := by
  refine OrdMap.filter_values_set ?_ fun record hrecord => ?_
  · show ((request.kind == .issue) && _) = false
    rw [hkind]
    rfl
  · have hkey := (toStorageKey_inj (h _ record hrecord)).1
    rw [hkind] at hkey
    unfold listedIn
    rw [← hkey]
    rfl

theorem record?_store_object {request : CacheStorePutRequest} (hkind : request.kind = .object)
    (key : String) : (s.store request).record? (toStorageKey .issue key) =
      s.record? (toStorageKey .issue key) := by
  refine CacheAdapterState.record?_store_of_ne s fun heq => ?_
  have hissue := (toStorageKey_inj (show toStorageKey .issue key =
    toStorageKey request.kind request.key from heq)).1
  rw [hkind] at hissue
  cases hissue

theorem kind_of_mem_projectionRequests {envelope : Envelope} {roomCursorHint : Option Int}
    {nowSec : Nat} {request : CacheStorePutRequest}
    (h : request ∈ projectionRequests A envelope roomCursorHint s nowSec) :
    request.kind = .object := by
  unfold projectionRequests at h
  simp only [List.mem_cons, List.mem_append, List.not_mem_nil, or_false] at h
  rcases h with rfl | h | rfl
  · rfl
  · split at h
    · rw [List.mem_singleton.mp h]
      rfl
    · cases h
  · rfl

theorem foldl_store_objects {requests : List CacheStorePutRequest}
    (hkind : ∀ request ∈ requests, request.kind = .object) (h : Keyed s) :
    Keyed (requests.foldl CacheAdapterState.store s) ∧
      (∀ room, issueRecords (requests.foldl CacheAdapterState.store s) room =
        issueRecords s room) ∧
      ∀ key, (requests.foldl CacheAdapterState.store s).record? (toStorageKey .issue key) =
        s.record? (toStorageKey .issue key) := by
  induction requests generalizing s with
  | nil => exact ⟨h, fun _ => rfl, fun _ => rfl⟩
  | cons request rest ih =>
    have hrequest := hkind request List.mem_cons_self
    obtain ⟨hkeyed, hrecords, hlookup⟩ :=
      ih (fun r hr => hkind r (List.mem_cons_of_mem _ hr)) (keyed_store h request)
    refine ⟨hkeyed, fun room => ?_, fun key => ?_⟩
    · exact (hrecords room).trans (issueRecords_store_object h hrequest room)
    · exact (hlookup key).trans (record?_store_object hrequest key)

/-! ## Messages and their records -/

/-- The record of a message. -/
def storedMessage (A : CacheAdapterOptions) (e : IssueMessage × Nat) : CacheStoreObject :=
  (envelopeRequest A e.1.envelope e.2).stored

theorem storedMessage_kind (e : IssueMessage × Nat) :
    (storedMessage A e).metadata.kind = .issue := by
  show (if isIssueTopic e.1.envelope.topic then CacheStoreKind.issue else .object) = .issue
  rw [e.1.issue, if_pos rfl]

theorem storedMessage_key (e : IssueMessage × Nat) :
    (storedMessage A e).metadata.key = e.1.key := rfl

theorem storageKey_message (e : IssueMessage × Nat) :
    (envelopeRequest A e.1.envelope e.2).storageKey = toStorageKey .issue e.1.key := by
  show toStorageKey (if isIssueTopic e.1.envelope.topic then .issue else .object) e.1.key = _
  rw [e.1.issue, if_pos rfl]

theorem storedMessage_room (e : IssueMessage × Nat) :
    (storedMessage A e).metadata.room = some e.1.envelope.room := by
  have hne : e.1.envelope.room ≠ "" := (freeText_room e.1.storable.room).1
  show (some e.1.envelope.room).filter (· ≠ "") = some e.1.envelope.room
  simp [hne]

theorem listedIn_storedMessage (e : IssueMessage × Nat) (room : String) :
    listedIn room (storedMessage A e) = (e.1.envelope.room == room) := by
  unfold listedIn
  rw [storedMessage_kind, storedMessage_room]
  rfl

/-- The envelope of a message reads back. -/
theorem parseEnvelopeRecord_message (message : IssueMessage) :
    parseEnvelopeRecord message.envelope.toJson.normalize = some message.envelope.readBack := by
  obtain ⟨envelope, storable, topic, issue, sender⟩ := message
  have hid : trim envelope.id ≠ "" := by
    rw [show trim envelope.id = envelope.id from storable.id.2]
    exact storable.id.1
  have hroom : envelope.toJson.normalize.strField "room" = envelope.room := rfl
  have hidField : envelope.toJson.normalize.strField "id" = envelope.id := rfl
  have hsender : envelope.toJson.normalize.strField "sender" = envelope.sender := rfl
  have htopic : envelope.toJson.normalize.strField "topic" = envelope.topic := rfl
  have hpayload : envelope.toJson.normalize.get? "payload" = some envelope.payload.normalize := rfl
  have hsignature : envelope.toJson.normalize.get? "signature" =
      some (JsonValue.ofString? envelope.signature) := by
    show some (JsonValue.ofString? envelope.signature).normalize = _
    cases envelope.signature <;> rfl
  have hfields : envelope.toJson.normalize.fields?.isSome = true := rfl
  obtain ⟨fields, hfields⟩ := Option.isSome_iff_exists.mp hfields
  unfold parseEnvelopeRecord
  rw [hroom, hidField, hsender, htopic, hpayload, hsignature, hfields]
  simp only [Option.bind_eq_bind, Option.bind_some, storable.room, topic, hid, sender, or_self,
    Bool.true_eq_false, if_false]
  obtain ⟨room, id, sender, topic, payload, signature⟩ := envelope
  cases signature with
  | none => rfl
  | some text => rfl

/-- A stored message reads back. -/
theorem parse_storedMessage (e : IssueMessage × Nat) :
    parseCachedIssueEnvelope (storedMessage A e) = some e.1.envelope.readBack :=
  parseEnvelopeRecord_message e.1

/-! ## The listing as a sorted list of messages -/

section
variable (A : CacheAdapterOptions) (room : String)

def messageLe (a b : IssueMessage × Nat) : Prop := A.collation.le a.1.key b.1.key = true

instance : DecidableRel (messageLe A) := fun a b =>
  inferInstanceAs (Decidable (A.collation.le a.1.key b.1.key = true))

instance : Std.Total (messageLe A) := ⟨fun a b => A.collation.total a.1.key b.1.key⟩

instance : IsTrans (IssueMessage × Nat) (messageLe A) :=
  ⟨fun a b c => A.collation.trans a.1.key b.1.key c.1.key⟩

/-- The messages of the room in the order they were persisted. -/
def roomMessages (p : IssuePuller) : List (IssueMessage × Nat) :=
  p.persisted.filter fun e => e.1.envelope.room == room

/-- The client as a reader of the sorted listing. -/
def reader (p : IssuePuller) : OffsetReader (IssueMessage × Nat) :=
  ⟨(roomMessages room p).insertionSort (messageLe A), p.after⟩

structure PullInvariant (p : IssuePuller) : Prop where
  unlimited : p.adapter.Unlimited
  keyed : Keyed p.adapter
  records : issueRecords p.adapter room = (roomMessages room p).map (storedMessage A)
  /-- an issue record belongs to a message that was persisted -/
  known : ∀ key record, p.adapter.record? (toStorageKey .issue key) = some record →
    ∃ e ∈ p.persisted, key = e.1.key
  distinct : (p.persisted.map fun e => e.1.key).Nodup
  offset : p.after ≤ (reader A room p).items.length
  returned : p.returned = (reader A room p).seen.map fun e => e.1.envelope.readBack

end

theorem pullInvariant_init : PullInvariant A room .init where
  unlimited := rfl
  keyed storageKey record h := by cases h
  records := rfl
  known key record h := by cases h
  distinct := List.nodup_nil
  offset := Nat.le_refl 0
  returned := rfl

theorem mem_items {e : IssueMessage × Nat} :
    e ∈ (reader A room p).items ↔ e ∈ p.persisted ∧ e.1.envelope.room = room := by
  show e ∈ (roomMessages room p).insertionSort (messageLe A) ↔ _
  rw [List.mem_insertionSort, roomMessages, List.mem_filter, beq_iff_eq]

/-- A message of the room is found under its key. -/
theorem record?_of_mem (h : PullInvariant A room p) {e : IssueMessage × Nat}
    (he : e ∈ (reader A room p).items) :
    p.adapter.record? (toStorageKey .issue e.1.key) = some (storedMessage A e) := by
  obtain ⟨hmem, hroom⟩ := mem_items.mp he
  have hstored : storedMessage A e ∈ issueRecords p.adapter room := by
    rw [h.records]
    exact List.mem_map_of_mem (List.mem_filter.mpr ⟨hmem, beq_iff_eq.mpr hroom⟩)
  obtain ⟨⟨storageKey, record⟩, hentry, hvalue⟩ := List.mem_map.mp (List.mem_filter.mp hstored).1
  cases hvalue
  have hget : p.adapter.record? storageKey = some (storedMessage A e) :=
    OrdMap.get?_eq_some_iff.mpr hentry
  have hkey := h.keyed storageKey _ hget
  rw [storedMessage_kind, storedMessage_key] at hkey
  rw [← hkey]
  exact hget

/-- The loop over the listed entries returns every envelope of the page. -/
theorem readIssueEntries_page (h : PullInvariant A room p) (nowSec : Nat)
    {page : List (IssueMessage × Nat)} (hpage : ∀ e ∈ page, e ∈ (reader A room p).items) :
    readIssueEntries room nowSec (page.map fun e => (storedMessage A e).metadata)
      p.adapter.cacheStore =
        (page.map fun e => e.1.envelope.readBack, p.adapter.cacheStore) := by
  induction page with
  | nil => rfl
  | cons e rest ih =>
    have hrest := ih fun e' he' => hpage e' (List.mem_cons_of_mem _ he')
    have he := hpage e List.mem_cons_self
    have hfree : FreeText e.1.key :=
      freeText_envelopeKey (freeText_room e.1.storable.room) e.1.storable.id
    have hget : p.adapter.cacheStore.get .issue (storedMessage A e).metadata.key nowSec =
        .ok (some (storedMessage A e), p.adapter.cacheStore) := by
      rw [MemoryCacheStore.get_unlimited h.unlimited, storedMessage_key,
        normalizeKey_trimmed hfree.2 hfree.1]
      exact congrArg (fun found => Except.ok (found, p.adapter.cacheStore)) (record?_of_mem h he)
    have hroom : e.1.envelope.readBack.room = room := (mem_items.mp he).2
    have hissue : isIssueTopic e.1.envelope.readBack.topic = true := e.1.issue
    unfold readIssueEntries
    simp only [List.map_cons, hget, hrest, Option.bind_some, parse_storedMessage, hroom, hissue,
      and_self, if_true]

theorem listed_eq (h : PullInvariant A room p) (hroom : room ≠ "")
    (query : CacheStoreListQuery) (hkind : query.kind = some .issue) (hpre : query.pre = none)
    (hquery : query.room = some room) :
    ((p.adapter.cacheStore.records.values.map CacheStoreObject.metadata).filter fun metadata =>
      MemoryCacheStore.metadataMatchesQuery metadata query) =
      (roomMessages room p).map fun e => (storedMessage A e).metadata := by
  have hmatch : ((fun metadata => MemoryCacheStore.metadataMatchesQuery metadata query) ∘
      CacheStoreObject.metadata) = listedIn room := by
    funext record
    have hne : (room == "") = false := beq_eq_false_iff_ne.mpr hroom
    simp only [Function.comp, MemoryCacheStore.metadataMatchesQuery, hkind, hpre, hquery,
      Option.all_some, Option.all_none, Bool.and_true, hne, Bool.false_or]
    rfl
  rw [List.filter_map, hmatch]
  show (issueRecords p.adapter room).map _ = _
  rw [h.records, List.map_map]
  rfl

/-- A page of the listing is a page of the reader. -/
theorem paginate_eq (limit : Nat) (query : CacheStoreListQuery)
    (hlimit : query.limit = some (max 1 limit)) (hcursor : query.cursor = some (toString p.after)) :
    paginateMetadata A.collation ((roomMessages room p).map fun e => (storedMessage A e).metadata)
      query =
      ⟨((reader A room p).page (max 1 limit)).map fun e => (storedMessage A e).metadata,
        if ((reader A room p).read (max 1 limit)).offset < (reader A room p).items.length then
          some (toString ((reader A room p).read (max 1 limit)).offset) else none⟩ := by
  have hsorted : ((roomMessages room p).map fun e => (storedMessage A e).metadata).insertionSort
      (fun a b => A.collation.metadataLe a b) =
      (reader A room p).items.map fun e => (storedMessage A e).metadata := by
    refine (List.map_insertionSort _ _ _ _ fun a _ b _ => ?_).symm
    unfold Collation.metadataLe
    rw [storedMessage_kind, storedMessage_kind, if_pos rfl]
    exact Iff.rfl
  have hstart : normalizeOffset query.cursor = p.after := by
    rw [hcursor]
    unfold normalizeOffset
    rw [Option.getD_some, parseInt10_toString, Option.getD_some,
      Int.max_eq_right (Int.natCast_nonneg p.after), Int.toNat_natCast]
  have htake : max 1 (query.limit.getD DEFAULT_LIST_LIMIT) = max 1 limit := by
    rw [hlimit, Option.getD_some]
    omega
  unfold paginateMetadata
  simp only [hsorted, hstart, htake, ← List.map_drop, ← List.map_take, List.length_map]
  rfl

end PullLemmas

open PullLemmas

variable {A : CacheAdapterOptions} {room : String} {p : IssuePuller}

/-- A pull returns a page of the sorted listing, and the cursor behind it. -/
theorem pullIssues_eq (h : PullInvariant A room p) (hroom : isValidRoomName room = true)
    (limit nowSec : Nat) :
    pullIssues A p.adapter room p.after limit nowSec =
      (⟨((reader A room p).read (max 1 limit)).offset,
        ((reader A room p).page (max 1 limit)).map fun e => e.1.envelope.readBack⟩, p.adapter) := by
  have hpage : ∀ e ∈ (reader A room p).page (max 1 limit), e ∈ (reader A room p).items :=
    fun e he => List.mem_of_mem_drop (List.mem_of_mem_take he)
  unfold pullIssues
  rw [MemoryCacheStore.list_unlimited A.collation h.unlimited,
    listed_eq h (freeText_room hroom).1 _ rfl rfl rfl, paginate_eq limit _ rfl rfl]
  simp only [readIssueEntries_page h nowSec hpage, List.length_map]
  split
  · rfl
  · next cursor hcursor =>
    split at hcursor
    · cases hcursor
      rw [parseInt10_toString]
      rfl
    · cases hcursor

/-! ## Steps -/

namespace PullLemmas

open WriteLemmas

variable {message : IssueMessage} {nowSec : Nat}

/-- The key of a fresh message is not in use. -/
theorem key_ne_of_fresh {roomCursorHint : Option Int}
    (hfresh : FreshId p (.persist message roomCursorHint nowSec)) {e : IssueMessage × Nat}
    (he : e ∈ p.persisted) : e.1.key ≠ message.key := by
  intro heq
  obtain ⟨hroom, hid⟩ := envelopeStorageKey_inj (slash_notMem_room e.1.storable.room)
    (slash_notMem_room message.storable.room) heq
  exact hfresh e he hroom hid

/-- What the put of the envelope does to the issue records. -/
theorem issueRecords_storeMessage (h : PullInvariant A room p) {roomCursorHint : Option Int}
    (hfresh : FreshId p (.persist message roomCursorHint nowSec)) :
    issueRecords (p.adapter.store (envelopeRequest A message.envelope nowSec)) room =
      issueRecords p.adapter room ++
        if message.envelope.room = room then [storedMessage A (message, nowSec)] else [] := by
  have hnew : p.adapter.cacheStore.records.has
      (envelopeRequest A message.envelope nowSec).storageKey = false := by
    rw [storageKey_message (message, nowSec), OrdMap.has_eq_false_iff]
    cases hfound : p.adapter.record? (toStorageKey .issue message.key) with
    | none => exact hfound
    | some record =>
      obtain ⟨e, he, hkey⟩ := h.known _ record hfound
      exact absurd hkey.symm (key_ne_of_fresh hfresh he)
  show ((p.adapter.cacheStore.records.set _ _).values).filter (listedIn room) = _
  have hlisted := listedIn_storedMessage (A := A) (message, nowSec) room
  unfold storedMessage at hlisted
  rw [OrdMap.values_set_of_not_has hnew, List.filter_append, List.filter_singleton,
    Bool.cond_eq_ite, hlisted]
  simp only [beq_iff_eq]
  rfl

theorem roomMessages_persist (adapter : CacheAdapterState) :
    roomMessages room (p.persist adapter message nowSec) =
      roomMessages room p ++ if message.envelope.room = room then [(message, nowSec)] else [] := by
  show (p.persisted ++ [(message, nowSec)]).filter _ = _
  rw [List.filter_append, List.filter_singleton, Bool.cond_eq_ite]
  simp only [beq_iff_eq]
  rfl

/-- The reader after a persist: the message goes behind its equals, or is of another room. -/
theorem reader_persist (adapter : CacheAdapterState) :
    reader A room (p.persist adapter message nowSec) =
      if message.envelope.room = room then (reader A room p).insert (messageLe A) (message, nowSec)
      else reader A room p := by
  unfold reader
  rw [roomMessages_persist]
  split
  · rw [insertionSort_concat]
    rfl
  · rw [List.append_nil]
    rfl

theorem mem_seen {e : IssueMessage × Nat} (he : e ∈ (reader A room p).seen) :
    e ∈ (reader A room p).items :=
  List.mem_of_mem_take he

theorem seen_reader_persist (h : PullInvariant A room p) {roomCursorHint : Option Int}
    (hbehind : SortsBehind A room p (.persist message roomCursorHint nowSec))
    (adapter : CacheAdapterState) :
    (reader A room (p.persist adapter message nowSec)).seen = (reader A room p).seen := by
  rw [reader_persist]
  split
  · next hroom =>
    refine OffsetReader.seen_insert h.offset fun e he => ?_
    have hreturned : e.1.envelope.readBack ∈ p.returned := by
      rw [h.returned]
      exact List.mem_map_of_mem he
    have hle := hbehind hroom _ hreturned
    have heRoom := (mem_items.mp (mem_seen he)).2
    unfold messageLe IssueMessage.key
    rw [heRoom]
    exact hle
  · rfl

/-- What a persist does to the records: those of the projection are objects. -/
theorem record?_persist (h : PullInvariant A room p) (message : IssueMessage) (nowSec : Nat)
    (roomCursorHint : Option Int) :
    Keyed (persistEnvelope A message.envelope roomCursorHint p.adapter nowSec) ∧
      (∀ room, issueRecords (persistEnvelope A message.envelope roomCursorHint p.adapter nowSec)
        room = issueRecords (p.adapter.store (envelopeRequest A message.envelope nowSec)) room) ∧
      ∀ key, (persistEnvelope A message.envelope roomCursorHint p.adapter nowSec).record?
        (toStorageKey .issue key) = (p.adapter.store (envelopeRequest A message.envelope
          nowSec)).record? (toStorageKey .issue key) := by
  have hstore := cacheStore_persistEnvelope (A := A) h.unlimited message.storable roomCursorHint
    nowSec
  unfold persistRequests at hstore
  rw [message.issue, if_pos rfl, List.foldl_cons] at hstore
  have hobjects : ∀ request ∈ projectionRequests A message.envelope roomCursorHint p.adapter nowSec,
      request.kind = .object := fun _ => kind_of_mem_projectionRequests
  obtain ⟨hkeyed, hrecords, hlookup⟩ := foldl_store_objects hobjects
    (keyed_store h.keyed (envelopeRequest A message.envelope nowSec))
  generalize persistEnvelope A message.envelope roomCursorHint p.adapter nowSec = adapter at hstore ⊢
  obtain ⟨store, cursors⟩ := adapter
  have hstore : store = _ := hstore
  subst hstore
  exact ⟨hkeyed, hrecords, hlookup⟩

theorem pullInvariant_persist (h : PullInvariant A room p) {roomCursorHint : Option Int}
    (hfresh : FreshId p (.persist message roomCursorHint nowSec))
    (hbehind : SortsBehind A room p (.persist message roomCursorHint nowSec)) :
    PullInvariant A room (p.step A room (.persist message roomCursorHint nowSec)) := by
  show PullInvariant A room (p.persist _ message nowSec)
  obtain ⟨hkeyed, hrecords, hlookup⟩ := record?_persist (A := A) h message nowSec roomCursorHint
  have hunlimited := unlimited_persistEnvelope (A := A) h.unlimited message.storable roomCursorHint
    nowSec
  generalize persistEnvelope A message.envelope roomCursorHint p.adapter nowSec = adapter at *
  refine ⟨hunlimited, hkeyed, ?_, fun key record hrecord => ?_, ?_, ?_, ?_⟩
  · refine (hrecords room).trans ?_
    rw [issueRecords_storeMessage h hfresh, roomMessages_persist, List.map_append, h.records]
    split
    · rfl
    · rfl
  · have hfound : (p.adapter.store (envelopeRequest A message.envelope nowSec)).record?
        (toStorageKey .issue key) = some record := (hlookup key).symm.trans hrecord
    rw [CacheAdapterState.record?_store, storageKey_message (message, nowSec)] at hfound
    split at hfound
    · next hkey =>
      exact ⟨(message, nowSec), List.mem_append_right _ List.mem_cons_self,
        (toStorageKey_inj hkey).2⟩
    · obtain ⟨e, he, hkey⟩ := h.known key record hfound
      exact ⟨e, List.mem_append_left _ he, hkey⟩
  · show ((p.persisted ++ [(message, nowSec)]).map fun e => e.1.key).Nodup
    rw [List.map_append]
    refine List.nodup_append.mpr ⟨h.distinct, List.nodup_singleton _, ?_⟩
    rintro key hkey _ hmessage rfl
    obtain ⟨e, he, heq⟩ := List.mem_map.mp hkey
    exact key_ne_of_fresh hfresh he (heq.trans (List.mem_singleton.mp hmessage))
  · rw [reader_persist]
    split
    · exact OffsetReader.offset_insert_le (show (reader A room p).offset ≤ _ from h.offset) _
    · exact h.offset
  · rw [seen_reader_persist h hbehind]
    exact h.returned

theorem pullInvariant_pull (h : PullInvariant A room p) (hroom : isValidRoomName room = true)
    (limit nowSec : Nat) : PullInvariant A room (p.step A room (.pull limit nowSec)) := by
  have hstep : p.step A room (.pull limit nowSec) = { p with
      after := ((reader A room p).read (max 1 limit)).offset
      returned := p.returned ++
        ((reader A room p).page (max 1 limit)).map fun e => e.1.envelope.readBack } := by
    simp only [IssuePuller.step, pullIssues_eq h hroom, Int.toNat_natCast]
  rw [hstep]
  refine ⟨h.unlimited, h.keyed, h.records, h.known, h.distinct,
    OffsetReader.offset_read_le h.offset _, ?_⟩
  have hseen := (reader A room p).seen_read (max 1 limit)
  show p.returned ++ _ = ((reader A room p).read (max 1 limit)).seen.map _
  rw [hseen, List.map_append, h.returned]

/-- Under the invariant, a pull returns nothing again and misses nothing at the end. -/
theorem pullSound_of_invariant (h : PullInvariant A room p) (hroom : isValidRoomName room = true)
    (limit nowSec : Nat) : PullSound A room p (.pull limit nowSec) := by
  have hreturned : p.returned ++ (pullIssues A p.adapter room p.after limit nowSec).1.envelopes =
      ((reader A room p).read (max 1 limit)).seen.map fun e => e.1.envelope.readBack := by
    have hseen := (reader A room p).seen_read (max 1 limit)
    rw [pullIssues_eq h hroom, hseen, List.map_append, h.returned]
  refine ⟨?_, fun hshort e he heroom => ?_⟩
  · rw [hreturned, List.map_map]
    have hitems : ((reader A room p).items.map fun e => e.1.envelope.id).Nodup := by
      have hperm := List.perm_insertionSort (messageLe A) (roomMessages room p)
      refine (hperm.map _).nodup_iff.mpr ?_
      have hkeys : ((roomMessages room p).map fun e => e.1.key).Nodup :=
        h.distinct.sublist (List.filter_sublist.map _)
      refine List.Nodup.of_map (envelopeStorageKey room) ?_
      have hmap : ((roomMessages room p).map fun e => e.1.envelope.id).map
          (envelopeStorageKey room) = (roomMessages room p).map fun e => e.1.key := by
        rw [List.map_map]
        refine List.map_congr_left fun e he => ?_
        have heroom : e.1.envelope.room = room := beq_iff_eq.mp (List.mem_filter.mp he).2
        show envelopeStorageKey room _ = envelopeStorageKey e.1.envelope.room _
        rw [heroom]
      rw [hmap]
      exact hkeys
    exact hitems.sublist ((List.take_sublist _ _).map _)
  · rw [hreturned]
    rw [pullIssues_eq h hroom, List.length_map] at hshort
    have hlimit : max 1 limit = limit := by omega
    rw [hlimit] at hshort ⊢
    rw [OffsetReader.seen_of_short hshort]
    exact List.mem_map_of_mem (mem_items.mpr ⟨he, heroom⟩)

end PullLemmas

/-- When every new envelope of the room sorts behind what the client has seen, every pull is
sound. -/
theorem pulls_sound_of_behind (hroom : isValidRoomName room = true) {events : List IssuePullEvent}
    (hfresh : Along (IssuePuller.step A room) FreshId .init events)
    (hbehind : Along (IssuePuller.step A room) (SortsBehind A room) .init events) :
    Along (IssuePuller.step A room) (PullSound A room) .init events := by
  have hrun : ∀ (events : List IssuePullEvent) (p : IssuePuller), PullInvariant A room p →
      Along (IssuePuller.step A room) FreshId p events →
      Along (IssuePuller.step A room) (SortsBehind A room) p events →
      Along (IssuePuller.step A room) (PullSound A room) p events := by
    intro events
    induction events with
    | nil => exact fun _ _ _ _ => trivial
    | cons event rest ih =>
      intro p h hfresh hbehind
      cases event with
      | persist message roomCursorHint nowSec =>
        exact ⟨trivial, ih _ (pullInvariant_persist h hfresh.1 hbehind.1) hfresh.2 hbehind.2⟩
      | pull limit nowSec =>
        exact ⟨pullSound_of_invariant h hroom limit nowSec,
          ih _ (pullInvariant_pull h hroom limit nowSec) hfresh.2 hbehind.2⟩
  exact hrun events .init pullInvariant_init hfresh hbehind

/-! ## On the toy host -/

theorem isValidRoomName_main : isValidRoomName "main" = true := by decide

theorem isValidTopic_issue : isValidTopic "issue" = true := by decide

theorem isIssueTopic_issue : isIssueTopic "issue" = true := by decide

theorem trim_alice_ne : trim "alice" ≠ "" := by decide

theorem freeText_a : FreeText "a" := by decide

theorem freeText_b : FreeText "b" := by decide

def toyIssueMessage (id : String) (hid : FreeText id) : IssueMessage where
  envelope := ⟨"main", id, "alice", "issue", .null, none⟩
  storable := ⟨isValidRoomName_main, hid⟩
  topic := isValidTopic_issue
  issue := isIssueTopic_issue
  sender := trim_alice_ne

/-- Two messages in the order of their ids. -/
theorem pulls_sound_in_order :
    Along (IssuePuller.step .toy "main") (PullSound .toy "main") .init
      [.persist (toyIssueMessage "a" freeText_a) none 1, .pull 10 1,
        .persist (toyIssueMessage "b" freeText_b) none 2, .pull 1 2] :=
  pulls_sound_of_behind (by decide) (by decide) (by decide)

/-- The second message sorts before the first one, which the client has seen: the next pull
returns the first one again. -/
theorem pull_returns_again :
    let events := [.persist (toyIssueMessage "b" freeText_b) none 1, .pull 10 1,
      .persist (toyIssueMessage "a" freeText_a) none 2, .pull 10 2]
    Along (IssuePuller.step .toy "main") FreshId .init events ∧
      ¬ Along (IssuePuller.step .toy "main") (PullSound .toy "main") .init events := by
  decide

end BitRelay
