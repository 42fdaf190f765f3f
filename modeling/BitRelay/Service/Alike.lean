import BitRelay.Lib.Coupling
import BitRelay.Service.Fetch

/-!
# States that answer alike

Two states of a service are alike when the answers to later requests cannot
tell them apart, but for a rate limit: the counters of the three rate limits
are not compared, and an answer 429 to a publish ends the comparison. The nonce
tables are compared by what is left of them when they are next pruned, and
payloads and cached issues by what a client gets to see of them (`PayloadView`,
`CacheView`).

Results:
1. `alike_handle`: every handler takes alike states to alike answers and alike
   states.
2. `alike_serve`: so does a request, unless a rate limit refuses it.
-/

namespace BitRelay

/-! ## Views -/

/-- What a client gets to see of a payload. -/
structure PayloadView (P : Platform) where
  view : JsonValue → JsonValue
  view_arr : ∀ items, view (.arr items) = .arr (items.map view)
  view_obj : ∀ fields, view (.obj fields) = .obj (fields.map fun e => (e.1, view e.2))
  canonicalize : ∀ v w, view v = view w → canonicalizeJson P v = canonicalizeJson P w

/-- Everything is seen as it is. -/
def PayloadView.exact (P : Platform) : PayloadView P where
  view v := v
  view_arr items := by rw [List.map_id']
  view_obj fields := by rw [List.map_id']
  canonicalize _ _ h := congrArg _ h

/-- Cache states that give the same pages, now and later. -/
structure CacheView {C : Type} (A : CacheAdapter C) where
  alike : C → C → Prop
  persist : ∀ c d envelope hint, alike c d →
    alike (A.persistEnvelope c envelope hint) (A.persistEnvelope d envelope hint)
  pull : ∀ c d room after limit, alike c d →
    A.pullIssues c room after limit = A.pullIssues d room after limit
  sync : ∀ c d room after limit snapshotLimit, alike c d →
    (A.syncIssues c room after limit snapshotLimit).1 =
        (A.syncIssues d room after limit snapshotLimit).1 ∧
      alike (A.syncIssues c room after limit snapshotLimit).2
        (A.syncIssues d room after limit snapshotLimit).2

def CacheView.exact {C : Type} (A : CacheAdapter C) : CacheView A where
  alike := (· = ·)
  persist := by
    rintro c _ envelope hint rfl
    rfl
  pull := by
    rintro c _ room after limit rfl
    rfl
  sync := by
    rintro c _ room after limit snapshotLimit rfl
    exact ⟨rfl, rfl⟩

section
variable {C : Type} {R : Relay C} (V : PayloadView R.platform) (K : CacheView R.cacheAdapter)

def Envelope.seen (envelope : Envelope) : Envelope :=
  { envelope with payload := V.view envelope.payload }

def PresenceRecord.seen (record : PresenceRecord) : PresenceRecord :=
  { record with metadata := V.view record.metadata }

def CacheExchangeRecord.seen (record : CacheExchangeRecord) : CacheExchangeRecord :=
  { record with envelope := record.envelope.seen V }

def CacheExchangeEntry.seen (entry : CacheExchangeEntry) : CacheExchangeEntry :=
  { entry with payload := V.view entry.payload }

/-! ## Alike -/

structure RoomState.Alike (x y : RoomState) : Prop where
  messages : x.messages.map (Envelope.seen V) = y.messages.map (Envelope.seen V)
  acks : ∀ consumer, x.acksByConsumer.getD consumer ∅ = y.acksByConsumer.getD consumer ∅
  presence : x.presenceByParticipant.mapValues (PresenceRecord.seen V) =
    y.presenceByParticipant.mapValues (PresenceRecord.seen V)
  reviews : ∀ prId, x.reviewsByPr.getD prId ∅ = y.reviewsByPr.getD prId ∅

structure IssueSyncState.Alike (x y : IssueSyncState) : Prop where
  deliveryIds : x.deliveryIds = y.deliveryIds
  dlq : x.dlq.Agree y.dlq
  dlqOrder : x.dlqOrder = y.dlqOrder

/-- The two tables are the same whenever they are next pruned. -/
def NonceTable.Alike (policy : NoncePolicy) (nowSec : Int) (x y : NonceTable) : Prop :=
  ∀ later, nowSec ≤ later → pruneNonces policy x later = pruneNonces policy y later

structure ServiceState.Alike (nowSec : Int) (s t : ServiceState C) : Prop where
  rooms : ∀ room, (s.roomOf room).Alike V (t.roomOf room)
  keys : s.keyRegistry.Agree t.keyRegistry
  nonces : ∀ sender, NonceTable.Alike R.config.noncePolicy nowSec
    (s.noncesBySender.getD sender ∅) (t.noncesBySender.getD sender ∅)
  records : s.cacheExchangeRecords.map (CacheExchangeRecord.seen V) =
    t.cacheExchangeRecords.map (CacheExchangeRecord.seen V)
  cursor : s.cacheExchangeCursor = t.cacheExchangeCursor
  githubIssueSync : s.githubIssueSync.Alike t.githubIssueSync
  cache : K.alike s.cache t.cache

structure Response.Alike (r r' : Response) : Prop where
  status : r.status = r'.status
  body : V.view r.body = V.view r'.body

/-- Alike states and answers; an odd answer ends the comparison. -/
def alikeCoupling (odd : Response → Prop) (nowSec : Int) :
    Proc.Coupling Response (ServiceState C) where
  state := ServiceState.Alike V K nowSec
  answer := Response.Alike V
  odd
  answer_refl _ := ⟨rfl, rfl⟩

end

/-! ## Helpers -/

namespace AlikeLemmas

section
variable {C : Type} {R : Relay C} {V : PayloadView R.platform} {K : CacheView R.cacheAdapter}
  {odd : Response → Prop} {nowSec : Int} {s t : ServiceState C}

/-- Two texts that are made of the views are the same. -/
theorem map_eq_of_views {α β γ : Type} {view : α → β} {f : α → γ} (g : β → γ)
    (hf : ∀ a, f a = g (view a)) {l l' : List α} (h : l.map view = l'.map view) :
    l.map f = l'.map f := by
  have hmap : ∀ l : List α, l.map f = (l.map view).map g := by
    intro l
    rw [List.map_map]
    exact List.map_congr_left fun a _ => hf a
  rw [hmap, hmap, h]

theorem length_eq_of_views {α β : Type} {view : α → β} {l l' : List α}
    (h : l.map view = l'.map view) : l.length = l'.length := by
  rw [← List.length_map view, h, List.length_map]

theorem view_obj_congr {fields fields' : List (String × JsonValue)}
    (h : fields.map (fun e => (e.1, V.view e.2)) = fields'.map fun e => (e.1, V.view e.2)) :
    V.view (.obj fields) = V.view (.obj fields') := by
  rw [V.view_obj, V.view_obj, h]

theorem view_arr_congr {items items' : List JsonValue} (h : items.map V.view = items'.map V.view) :
    V.view (.arr items) = V.view (.arr items') := by
  rw [V.view_arr, V.view_arr, h]

/-- The sanitized envelope, of what is seen of it. -/
theorem view_sanitizeEnvelope (e : Envelope) :
    (sanitizeEnvelope e).map (fun p => (p.1, V.view p.2)) =
      [("room", V.view (.str (e.seen V).room)), ("id", V.view (.str (e.seen V).id)),
        ("sender", V.view (.str (e.seen V).sender)), ("topic", V.view (.str (e.seen V).topic)),
        ("payload", (e.seen V).payload)] := rfl

theorem view_envelopes {l l' : List Envelope}
    (h : l.map (Envelope.seen V) = l'.map (Envelope.seen V)) :
    V.view (.arr (l.map fun item => .obj (sanitizeEnvelope item))) =
      V.view (.arr (l'.map fun item => .obj (sanitizeEnvelope item))) := by
  refine view_arr_congr ?_
  rw [List.map_map, List.map_map]
  exact map_eq_of_views (fun e : Envelope => .obj [("room", V.view (.str e.room)),
    ("id", V.view (.str e.id)), ("sender", V.view (.str e.sender)),
    ("topic", V.view (.str e.topic)), ("payload", e.payload)])
    (fun e => by
      show V.view (.obj (sanitizeEnvelope e)) = _
      rw [V.view_obj, view_sanitizeEnvelope]) h

theorem alike_of_body {body body' : JsonValue} {status : Nat} (h : V.view body = V.view body') :
    Response.Alike V ⟨status, body⟩ ⟨status, body'⟩ := ⟨rfl, h⟩

theorem alike_refl (r : Response) : Response.Alike V r r := ⟨rfl, rfl⟩

/-! Writes to alike states. -/

theorem putRoom (h : s.Alike V K nowSec t) (room : String) {x y : RoomState}
    (hxy : x.Alike V y) : (s.putRoom room x).Alike V K nowSec (t.putRoom room y) := by
  refine ⟨fun other => ?_, h.keys, h.nonces, h.records, h.cursor, h.githubIssueSync, h.cache⟩
  by_cases hother : other = room
  · subst hother
    rw [ServiceState.roomOf_putRoom_self, ServiceState.roomOf_putRoom_self]
    exact hxy
  · rw [ServiceState.roomOf_putRoom_of_ne s hother, ServiceState.roomOf_putRoom_of_ne t hother]
    exact h.rooms other

theorem openRoom (h : s.Alike V K nowSec t) (room : String) :
    (s.openRoom room).Alike V K nowSec (t.openRoom room) :=
  putRoom h room (h.rooms room)

theorem mono (h : s.Alike V K nowSec t) {later : Int} (hle : nowSec ≤ later) :
    s.Alike V K later t :=
  ⟨h.rooms, h.keys, fun sender time htime => h.nonces sender time (hle.trans htime), h.records,
    h.cursor, h.githubIssueSync, h.cache⟩

/-! Readers of a room. -/

theorem alike_requireRoom (request : Request) :
    Proc.Coupled (alikeCoupling V K odd nowSec) (· = ·) (requireRoom R request)
      (requireRoom R request) :=
  (Proc.Coupled.failIf _ _).bind_eq fun _ => (Proc.Coupled.failWith _).bind_eq fun _ =>
    Proc.Coupled.pure rfl

theorem alike_requireParam (request : Request) (key : String) :
    Proc.Coupled (alikeCoupling V K odd nowSec) (· = ·) (requireParam request key : Handler C String)
      (requireParam request key) :=
  (Proc.Coupled.failIf _ _).bind_eq fun _ => Proc.Coupled.pure rfl

theorem alike_requireObject (request : Request) :
    Proc.Coupled (alikeCoupling V K odd nowSec) (· = ·) (requireObject request : Handler C JsonValue)
      (requireObject request) := by
  unfold requireObject
  split
  · exact Proc.Coupled.pure rfl
  · exact Proc.Coupled.answer (alike_refl _)

theorem alike_readRoom (room : String) :
    Proc.Coupled (alikeCoupling V K odd nowSec) (RoomState.Alike V)
      (readRoom room : Handler C RoomState) (readRoom room) :=
  Proc.Coupled.update fun _ _ h => ⟨h.rooms room, openRoom h room⟩

theorem view_poll {x y : RoomState} (h : x.Alike V y) (room : String) (after limit : Nat) :
    V.view (pollFromRoom x room after limit) = V.view (pollFromRoom y room after limit) := by
  have hpage : (pollPage x.messages after limit).map (Envelope.seen V) =
      (pollPage y.messages after limit).map (Envelope.seen V) := by
    unfold pollPage
    rw [List.map_take, List.map_drop, h.messages, ← List.map_drop, ← List.map_take]
  refine view_obj_congr ?_
  simp only [List.map_cons, List.map_nil, view_envelopes hpage, length_eq_of_views hpage]

theorem alike_poll (request : Request) :
    Proc.Coupled (alikeCoupling V K odd nowSec) (Response.Alike V) (handlePoll R request)
      (handlePoll R request) :=
  (Proc.Coupled.failIf _ _).bind_eq fun _ => (alike_requireRoom request).bind_eq fun room =>
    (alike_readRoom room).bind fun _ _ hxy => Proc.Coupled.pure
      (alike_of_body (view_poll hxy room _ _))

/-- The loop over the messages sees their topics and what is seen of them. -/
theorem view_triggerLoop (limit : Nat) {l l' : List Envelope}
    (h : l.map (Envelope.seen V) = l'.map (Envelope.seen V)) {results results' : List JsonValue}
    (hresults : results.map V.view = results'.map V.view) (i next : Nat) :
    (triggerLoop limit l i results next).1.map V.view =
        (triggerLoop limit l' i results' next).1.map V.view ∧
      (triggerLoop limit l i results next).2 = (triggerLoop limit l' i results' next).2 := by
  induction l generalizing l' results results' i next with
  | nil =>
    obtain rfl := List.map_eq_nil_iff.mp h.symm
    exact ⟨hresults, rfl⟩
  | cons e rest ih =>
    obtain ⟨e', rest', rfl, he, hrest⟩ := List.map_eq_cons_iff.mp h.symm
    have htopic : (e'.seen V).topic = (e.seen V).topic := by rw [he]
    have hentry : V.view (.obj (("cursor", .ofNat (i + 1)) :: sanitizeEnvelope e)) =
        V.view (.obj (("cursor", .ofNat (i + 1)) :: sanitizeEnvelope e')) := by
      refine view_obj_congr ?_
      rw [List.map_cons, List.map_cons, view_sanitizeEnvelope, view_sanitizeEnvelope, he]
    have happend : (results ++ [JsonValue.obj
          (("cursor", .ofNat (i + 1)) :: sanitizeEnvelope e)]).map V.view =
        (results' ++ [JsonValue.obj
          (("cursor", .ofNat (i + 1)) :: sanitizeEnvelope e')]).map V.view := by
      rw [List.map_append, List.map_append, hresults, List.map_singleton, List.map_singleton,
        hentry]
    unfold triggerLoop
    rw [show e'.topic = e.topic from htopic]
    split
    · exact ih hrest.symm hresults _ _
    · simp only [length_eq_of_views happend]
      split
      · exact ⟨happend, rfl⟩
      · exact ih hrest.symm happend _ _

theorem alike_triggerResults (request : Request) :
    Proc.Coupled (alikeCoupling V K odd nowSec) (Response.Alike V) (handleTriggerResults R request)
      (handleTriggerResults R request) := by
  refine (Proc.Coupled.failIf _ _).bind_eq fun _ => (alike_requireRoom request).bind_eq fun room =>
    (alike_readRoom room).bind fun x y hxy => Proc.Coupled.pure ?_
  have hdrop : (x.messages.drop (normalizeAfter (request.param "after") 0)).map
        (Envelope.seen V) =
      (y.messages.drop (normalizeAfter (request.param "after") 0)).map (Envelope.seen V) := by
    rw [List.map_drop, List.map_drop, hxy.messages]
  obtain ⟨hresults, hnext⟩ := view_triggerLoop (normalizeLimit (request.param "limit") 100) hdrop
    (rfl : ([] : List JsonValue).map V.view = [].map V.view)
    (normalizeAfter (request.param "after") 0) (normalizeAfter (request.param "after") 0)
  have hempty := length_eq_of_views hresults
  refine alike_of_body (view_obj_congr ?_)
  simp only [List.map_cons, List.map_nil, view_arr_congr hresults, ne_eq,
    ← List.length_eq_zero_iff, hempty, hnext]

theorem view_inboxPending {x y : RoomState} (h : x.Alike V y) (room consumer : String)
    (limit : Nat) : V.view (inboxPendingFromRoom x room consumer limit) =
      V.view (inboxPendingFromRoom y room consumer limit) := by
  have hfilter : ∀ (acked : OrdSet String) (l : List Envelope),
      (l.filter fun item => !acked.has item.id).map (Envelope.seen V) =
        (l.map (Envelope.seen V)).filter fun item => !acked.has item.id := by
    intro acked l
    rw [List.filter_map]
    rfl
  have hpending : (x.messages.filter fun item =>
        !(x.acksByConsumer.getD consumer ∅).has item.id).map (Envelope.seen V) =
      (y.messages.filter fun item => !(y.acksByConsumer.getD consumer ∅).has item.id).map
        (Envelope.seen V) := by
    rw [hfilter, hfilter, h.messages, h.acks consumer]
  have hpage : ((x.messages.filter fun item =>
        !(x.acksByConsumer.getD consumer ∅).has item.id).take limit).map (Envelope.seen V) =
      ((y.messages.filter fun item =>
        !(y.acksByConsumer.getD consumer ∅).has item.id).take limit).map (Envelope.seen V) := by
    rw [List.map_take, hpending, ← List.map_take]
  refine view_obj_congr ?_
  simp only [List.map_cons, List.map_nil, view_envelopes hpage, length_eq_of_views hpage,
    length_eq_of_views hpending]

theorem alike_inboxPending (request : Request) :
    Proc.Coupled (alikeCoupling V K odd nowSec) (Response.Alike V) (handleInboxPending R request)
      (handleInboxPending R request) :=
  (Proc.Coupled.failIf _ _).bind_eq fun _ => (alike_requireRoom request).bind_eq fun room =>
    (alike_requireParam request _).bind_eq fun consumer => (alike_readRoom room).bind
      fun _ _ hxy => Proc.Coupled.pure (alike_of_body (view_inboxPending hxy room consumer _))

/-! Acknowledgements and presence. -/

theorem alike_ackIntoRoom {x y : RoomState} (h : x.Alike V y) (room consumer : String)
    (body : Body) : (ackIntoRoom x room consumer body).1 = (ackIntoRoom y room consumer body).1 ∧
      (ackIntoRoom x room consumer body).2.Alike V (ackIntoRoom y room consumer body).2 := by
  unfold ackIntoRoom
  rw [h.acks consumer]
  split
  · exact ⟨rfl, h⟩
  · refine ⟨rfl, h.messages, fun other => ?_, h.presence, h.reviews⟩
    simp only [OrdMap.getD, OrdMap.get?_set]
    split
    · rfl
    · exact h.acks other

theorem alike_inboxAck (request : Request) :
    Proc.Coupled (alikeCoupling V K odd nowSec) (Response.Alike V) (handleInboxAck R request)
      (handleInboxAck R request) := by
  refine (Proc.Coupled.failIf _ _).bind_eq fun _ => (alike_requireRoom request).bind_eq fun room =>
    (alike_requireParam request _).bind_eq fun consumer => Proc.Coupled.update fun s t hst => ?_
  obtain ⟨hresponse, hroom⟩ := alike_ackIntoRoom (hst.rooms room) room consumer request.body
  exact ⟨hresponse ▸ alike_refl _, putRoom hst room hroom⟩

theorem alike_presenceHeartbeat (request : Request) (env : Env) :
    Proc.Coupled (alikeCoupling V K odd nowSec) (Response.Alike V)
      (handlePresenceHeartbeat R request env) (handlePresenceHeartbeat R request env) := by
  refine (Proc.Coupled.failIf _ _).bind_eq fun _ => (alike_requireRoom request).bind_eq fun room =>
    (alike_requireParam request _).bind_eq fun participant =>
      (Proc.Coupled.ofExcept _).bind_eq fun heartbeat => ?_
  refine Proc.Coupled.bind_eq (Proc.Coupled.update fun s t hst => ⟨?_, putRoom hst room ?_⟩)
    fun isNew => Proc.Coupled.pure (alike_refl _)
  · show (!_) = (!_)
    rw [← OrdMap.has_mapValues _ (PresenceRecord.seen V), (hst.rooms room).presence,
      OrdMap.has_mapValues]
  · refine ⟨(hst.rooms room).messages, (hst.rooms room).acks, ?_, (hst.rooms room).reviews⟩
    rw [OrdMap.mapValues_set, OrdMap.mapValues_set, (hst.rooms room).presence]

theorem alike_prunePresence {x y : RoomState} (h : x.Alike V y) (nowSec : Int) (ttlSec : Nat) :
    (prunePresence x nowSec ttlSec).Alike V (prunePresence y nowSec ttlSec) := by
  have hview : ∀ m : OrdMap String PresenceRecord,
      (m.filter fun _ record => decide (nowSec - record.lastHeartbeat < ttlSec)).mapValues
          (PresenceRecord.seen V) =
        (m.mapValues (PresenceRecord.seen V)).filter fun _ record =>
          decide (nowSec - record.lastHeartbeat < ttlSec) :=
    fun m => OrdMap.mapValues_filter fun _ _ => rfl
  refine ⟨h.messages, h.acks, ?_, h.reviews⟩
  simp only [prunePresence, hview, h.presence]

theorem view_participants {x y : RoomState} (h : x.Alike V y) :
    V.view (.arr (x.presenceByParticipant.values.map PresenceRecord.toJson)) =
      V.view (.arr (y.presenceByParticipant.values.map PresenceRecord.toJson)) := by
  have hvalues : x.presenceByParticipant.values.map (PresenceRecord.seen V) =
      y.presenceByParticipant.values.map (PresenceRecord.seen V) := by
    rw [← OrdMap.values_mapValues, h.presence, OrdMap.values_mapValues]
  refine view_arr_congr ?_
  rw [List.map_map, List.map_map]
  refine map_eq_of_views (fun r : PresenceRecord => .obj [
    ("participant_id", V.view (.str r.participantId)),
    ("status", V.view (.str r.status)),
    ("metadata", r.metadata),
    ("last_heartbeat", V.view (.ofInt r.lastHeartbeat))]) (fun r => ?_) hvalues
  show V.view (PresenceRecord.toJson r) = _
  rw [PresenceRecord.toJson, V.view_obj]
  rfl

theorem alike_presence (request : Request) (env : Env) :
    Proc.Coupled (alikeCoupling V K odd nowSec) (Response.Alike V) (handlePresence R request env)
      (handlePresence R request env) := by
  refine (alike_requireRoom request).bind_eq fun room =>
    Proc.Coupled.ite (fun _ => ?_) fun _ => Proc.Coupled.ite (fun _ => ?_) fun _ =>
      Proc.Coupled.answer (alike_refl _)
  · refine Proc.Coupled.bind (V := RoomState.Alike V) (Proc.Coupled.update fun s t hst => ?_)
      fun x y hxy => Proc.Coupled.pure (alike_of_body (view_obj_congr ?_))
    · exact ⟨alike_prunePresence (hst.rooms room) _ _,
        putRoom hst room (alike_prunePresence (hst.rooms room) _ _)⟩
    · simp only [List.map_cons, List.map_nil, view_participants hxy]
  · refine (alike_requireParam request _).bind_eq fun participant =>
      Proc.Coupled.bind_eq (Proc.Coupled.update fun s t hst => ⟨?_, putRoom hst room ?_⟩)
        fun removed => Proc.Coupled.pure (alike_refl _)
    · show OrdMap.has _ _ = OrdMap.has _ _
      rw [← OrdMap.has_mapValues _ (PresenceRecord.seen V), (hst.rooms room).presence,
        OrdMap.has_mapValues]
    · refine ⟨(hst.rooms room).messages, (hst.rooms room).acks, ?_, (hst.rooms room).reviews⟩
      rw [OrdMap.mapValues_erase, OrdMap.mapValues_erase, (hst.rooms room).presence]

theorem alike_review_get (request : Request) (room : String) :
    Proc.Coupled (alikeCoupling V K odd nowSec) (Response.Alike V)
      (handleReviewGet request room : Handler C Response) (handleReviewGet request room) :=
  (alike_requireParam request _).bind_eq fun prId => (Proc.Coupled.failIf _ _).bind_eq fun _ =>
    (alike_readRoom room).bind fun x y hxy => Proc.Coupled.pure (by
      rw [hxy.reviews prId]
      exact alike_refl _)

theorem alike_ws (request : Request) (env : Env) :
    Proc.Coupled (alikeCoupling V K odd nowSec) (Response.Alike V) (handleWebSocket R request env)
      (handleWebSocket R request env) :=
  (Proc.Coupled.failIf _ _).bind_eq fun _ => (alike_readRoom _).bind fun _ _ _ =>
    (Proc.Coupled.failWith _).bind_eq fun _ => (Proc.Coupled.failIf _ _).bind_eq fun _ =>
      (Proc.Coupled.failIf _ _).bind_eq fun _ => Proc.Coupled.pure (alike_refl _)

/-! The log and the exchange. -/

theorem alike_publishIntoRoom {x y : RoomState} (h : x.Alike V y)
    (room sender topic id signature : String) (payload : JsonValue) (maxMessages : Nat) :
    (publishIntoRoom x room sender topic id signature payload maxMessages).1 =
        (publishIntoRoom y room sender topic id signature payload maxMessages).1 ∧
      (publishIntoRoom x room sender topic id signature payload maxMessages).2.Alike V
        (publishIntoRoom y room sender topic id signature payload maxMessages).2 := by
  have hany : (x.messages.any fun item => item.id == id) =
      y.messages.any fun item => item.id == id := by
    have hview : ∀ l : List Envelope, (l.any fun item => item.id == id) =
        (l.map (Envelope.seen V)).any fun item => item.id == id := by
      intro l
      rw [List.any_map]
      rfl
    rw [hview, h.messages, ← hview]
  have hpush : ∀ e : Envelope, (pushMessage x.messages e maxMessages).map (Envelope.seen V) =
      (pushMessage y.messages e maxMessages).map (Envelope.seen V) := by
    intro e
    simp only [pushMessage, List.map_drop, List.map_append, h.messages, List.length_append,
      length_eq_of_views h.messages]
  unfold publishIntoRoom
  rw [hany, length_eq_of_views h.messages]
  split
  · exact ⟨rfl, h⟩
  · split
    · exact ⟨rfl, h⟩
    · simp only [length_eq_of_views (hpush _)]
      exact ⟨trivial, hpush _, h.acks, h.presence, h.reviews⟩

theorem alike_recordCacheExchange (h : s.Alike V K nowSec t) (envelope : Envelope)
    (origin : String) (hopCount maxHops : Nat) :
    (s.recordCacheExchange R envelope origin hopCount maxHops).Alike V K nowSec
      (t.recordCacheExchange R envelope origin hopCount maxHops) := by
  refine ⟨h.rooms, h.keys, h.nonces, ?_, congrArg (· + 1) h.cursor, h.githubIssueSync, h.cache⟩
  simp only [ServiceState.recordCacheExchange, List.map_drop, List.map_append, h.records,
    h.cursor, List.length_append, length_eq_of_views h.records]

theorem alike_publishEntry (h : s.Alike V K nowSec t) (room sender topic id signature : String)
    (payload : JsonValue) (origin : String) (hopCount maxHops : Nat) :
    (s.publishEntry R room sender topic id signature payload origin hopCount maxHops).1 =
        (t.publishEntry R room sender topic id signature payload origin hopCount maxHops).1 ∧
      (s.publishEntry R room sender topic id signature payload origin hopCount maxHops).2.Alike
        V K nowSec
        (t.publishEntry R room sender topic id signature payload origin hopCount maxHops).2 := by
  obtain ⟨hresult, hroom⟩ := alike_publishIntoRoom (h.rooms room) room sender topic id signature
    payload R.config.maxMessagesPerRoom
  have hput := putRoom h room hroom
  unfold ServiceState.publishEntry
  simp only [hresult]
  split
  · exact ⟨rfl, alike_recordCacheExchange hput _ _ _ _⟩
  · exact ⟨rfl, hput⟩
  · exact ⟨rfl, hput⟩

theorem alike_persistResult (h : s.Alike V K nowSec t) (result : PublishResult) :
    (s.persistResult R result).Alike V K nowSec (t.persistResult R result) := by
  cases result with
  | accepted envelope cursor =>
    exact ⟨h.rooms, h.keys, h.nonces, h.records, h.cursor, h.githubIssueSync,
      K.persist _ _ _ _ h.cache⟩
  | invalidTopic topic => exact h
  | known cursor => exact h

/-- Publish into a room, hand the message to the cache, and go on with the result. -/
theorem alike_publishInto {α : Type} {W : α → α → Prop} (room sender topic id signature : String)
    (payload : JsonValue) (origin : String) (hopCount maxHops : Nat)
    {f : PublishResult → Handler C α}
    (hf : ∀ result, Proc.Coupled (alikeCoupling V K odd nowSec) W (f result) (f result)) :
    Proc.Coupled (alikeCoupling V K odd nowSec) W
      (Proc.update (ServiceState.publishEntry R room sender topic id signature payload origin
        hopCount maxHops) >>= fun result =>
          Proc.modify (ServiceState.persistResult R result) >>= fun _ => f result)
      (Proc.update (ServiceState.publishEntry R room sender topic id signature payload origin
        hopCount maxHops) >>= fun result =>
          Proc.modify (ServiceState.persistResult R result) >>= fun _ => f result) :=
  Proc.Coupled.bind_eq (Proc.Coupled.update fun _ _ hst => alike_publishEntry hst _ _ _ _ _ _ _ _ _)
    fun result => Proc.Coupled.bind_eq
      (Proc.Coupled.modify rfl fun _ _ hst => alike_persistResult hst result) fun _ => hf result

theorem alike_triggerCallback (request : Request) (env : Env) :
    Proc.Coupled (alikeCoupling V K odd nowSec) (Response.Alike V)
      (handleTriggerCallback R request env) (handleTriggerCallback R request env) :=
  (Proc.Coupled.failIf _ _).bind_eq fun _ => (alike_requireObject request).bind_eq fun _ =>
    (Proc.Coupled.ofExcept _).bind_eq fun _ => alike_publishInto _ _ _ _ _ _ _ _ _ fun _ =>
      Proc.Coupled.pure (alike_refl _)

theorem alike_findEnvelopeById {x y : RoomState} (h : x.Alike V y) (id : String) :
    (findEnvelopeById x id).map (Envelope.seen V) =
      (findEnvelopeById y id).map (Envelope.seen V) := by
  have hview : ∀ l : List Envelope, (l.find? fun item => item.id == id).map (Envelope.seen V) =
      (l.map (Envelope.seen V)).find? fun item => item.id == id := by
    intro l
    rw [List.find?_map]
    rfl
  unfold findEnvelopeById
  rw [hview, hview, h.messages]

/-- What is seen of an envelope decides how a second one with its id counts. -/
theorem classify_of_seen {e e' : Envelope} (h : e.seen V = e'.seen V) (incoming : Envelope) :
    classifyCacheExchangeCollision R.platform e incoming =
      classifyCacheExchangeCollision R.platform e' incoming := by
  have hsender : (e.seen V).sender = (e'.seen V).sender := by rw [h]
  have htopic : (e.seen V).topic = (e'.seen V).topic := by rw [h]
  have hsignature : (e.seen V).signature = (e'.seen V).signature := by rw [h]
  have hpayload : (e.seen V).payload = (e'.seen V).payload := by rw [h]
  have hcanonical : envelopeCanonicalSignature R.platform e =
      envelopeCanonicalSignature R.platform e' := by
    unfold envelopeCanonicalSignature
    rw [show e.sender = e'.sender from hsender, show e.topic = e'.topic from htopic,
      show e.signature = e'.signature from hsignature, V.canonicalize _ _ hpayload]
  unfold classifyCacheExchangeCollision
  rw [hcanonical]

theorem alike_importEntry (incoming : IncomingExchangeEntry) (counts : PushCounts) :
    Proc.Coupled (alikeCoupling V K odd nowSec) (· = ·) (importEntry R incoming counts)
      (importEntry R incoming counts) := by
  refine Proc.Coupled.bind (V := fun e e' => e.map (Envelope.seen V) = e'.map (Envelope.seen V))
    (Proc.Coupled.update fun s t hst => ⟨?_, openRoom hst incoming.room⟩) fun e e' he => ?_
  · exact alike_findEnvelopeById (hst.rooms incoming.room) incoming.id
  · cases e with
    | none =>
      cases e' with
      | none => exact alike_publishInto _ _ _ _ _ _ _ _ _ fun _ => Proc.Coupled.pure rfl
      | some e' => cases he
    | some e =>
      cases e' with
      | none => cases he
      | some e' =>
        refine Proc.Coupled.pure ?_
        rw [classify_of_seen (Option.some.inj he)]

theorem alike_pushEntry (request : Request) (i : Nat) (value : JsonValue) (counts : PushCounts) :
    Proc.Coupled (alikeCoupling V K odd nowSec) (· = ·) (pushEntry R request i value counts)
      (pushEntry R request i value counts) := by
  refine (Proc.Coupled.ofExcept _).bind_eq fun incoming => ?_
  split
  · exact Proc.Coupled.pure rfl
  · refine (Proc.Coupled.failWith _).bind_eq fun _ => ?_
    split
    · exact Proc.Coupled.pure rfl
    · exact alike_importEntry incoming counts

theorem alike_pushEntries (request : Request) (entries : List JsonValue) (i : Nat)
    (counts : PushCounts) :
    Proc.Coupled (alikeCoupling V K odd nowSec) (· = ·) (pushEntries R request entries i counts)
      (pushEntries R request entries i counts) := by
  induction entries generalizing i counts with
  | nil => exact Proc.Coupled.pure rfl
  | cons value rest ih =>
    exact (alike_pushEntry request i value counts).bind_eq fun counts => ih (i + 1) counts

theorem alike_cacheExchangePush (request : Request) :
    Proc.Coupled (alikeCoupling V K odd nowSec) (Response.Alike V) (handleCacheExchangePush R request)
      (handleCacheExchangePush R request) :=
  (Proc.Coupled.failIf _ _).bind_eq fun _ => (Proc.Coupled.failWith _).bind_eq fun _ =>
    (alike_requireObject request).bind_eq fun _ => (Proc.Coupled.ofExcept _).bind_eq
      fun entries => (alike_pushEntries request entries 0 .zero).bind_eq fun _ =>
        Proc.Coupled.bind_eq (Proc.Coupled.gets_eq fun _ _ hst => hst.cursor) fun _ =>
          Proc.Coupled.pure (alike_refl _)

/-- The page of a pull is taken by what is seen of the records. -/
theorem view_selectLoop (args : SelectExchangeEntriesArgs) (limit : Nat)
    {l l' : List CacheExchangeRecord}
    (h : l.map (CacheExchangeRecord.seen V) = l'.map (CacheExchangeRecord.seen V))
    {entries entries' : List CacheExchangeEntry}
    (hentries : entries.map (CacheExchangeEntry.seen V) = entries'.map (CacheExchangeEntry.seen V))
    (next : Nat) :
    (selectLoop args limit l entries next).1.map (CacheExchangeEntry.seen V) =
        (selectLoop args limit l' entries' next).1.map (CacheExchangeEntry.seen V) ∧
      (selectLoop args limit l entries next).2 = (selectLoop args limit l' entries' next).2 := by
  induction l generalizing l' entries entries' next with
  | nil =>
    obtain rfl := List.map_eq_nil_iff.mp h.symm
    exact ⟨hentries, rfl⟩
  | cons r rest ih =>
    obtain ⟨r', rest', rfl, hr, hrest⟩ := List.map_eq_cons_iff.mp h.symm
    have hcursor : (r'.seen V).cursor = (r.seen V).cursor := by rw [hr]
    have hexports : exportsRecord args (r'.seen V) = exportsRecord args (r.seen V) := by rw [hr]
    have hentry : exportEntry (r'.seen V) = exportEntry (r.seen V) := by rw [hr]
    have happend : (entries ++ [exportEntry r]).map (CacheExchangeEntry.seen V) =
        (entries' ++ [exportEntry r']).map (CacheExchangeEntry.seen V) := by
      rw [List.map_append, List.map_append, hentries]
      exact congrArg (fun e => _ ++ [e]) hentry.symm
    unfold selectLoop
    rw [show r'.cursor = r.cursor from hcursor,
      show exportsRecord args r' = exportsRecord args r from hexports]
    split
    · exact ih hrest.symm hentries _
    · split
      · simp only [length_eq_of_views happend]
        split
        · exact ⟨happend, rfl⟩
        · exact ih hrest.symm happend _
      · exact ih hrest.symm hentries _

theorem view_entries {l l' : List CacheExchangeEntry}
    (h : l.map (CacheExchangeEntry.seen V) = l'.map (CacheExchangeEntry.seen V)) :
    V.view (.arr (l.map CacheExchangeEntry.toJson)) =
      V.view (.arr (l'.map CacheExchangeEntry.toJson)) := by
  refine view_arr_congr ?_
  rw [List.map_map, List.map_map]
  refine map_eq_of_views (fun e : CacheExchangeEntry => .obj [
    ("cursor", V.view (.ofNat e.cursor)),
    ("room", V.view (.str e.room)),
    ("id", V.view (.str e.id)),
    ("sender", V.view (.str e.sender)),
    ("topic", V.view (.str e.topic)),
    ("payload", e.payload),
    ("signature", V.view (.ofString? e.signature)),
    ("origin", V.view (.str e.origin)),
    ("hop_count", V.view (.ofNat e.hopCount)),
    ("max_hops", V.view (.ofNat e.maxHops))]) (fun e => ?_) h
  show V.view (CacheExchangeEntry.toJson e) = _
  rw [CacheExchangeEntry.toJson, V.view_obj]
  rfl

theorem alike_cacheExchangePull (request : Request) :
    Proc.Coupled (alikeCoupling V K odd nowSec) (Response.Alike V) (handleCacheExchangePull R request)
      (handleCacheExchangePull R request) := by
  refine (Proc.Coupled.failIf _ _).bind_eq fun _ => (Proc.Coupled.failWith _).bind_eq fun _ =>
    (Proc.Coupled.failWith _).bind_eq fun _ => Proc.Coupled.bind
      (V := fun page page' => page.1.map (CacheExchangeEntry.seen V) =
        page'.1.map (CacheExchangeEntry.seen V) ∧ page.2 = page'.2)
      (Proc.Coupled.gets fun s t hst => view_selectLoop _ _ hst.records rfl _) ?_
  rintro ⟨entries, next⟩ ⟨entries', next'⟩ ⟨hentries, rfl⟩
  refine Proc.Coupled.pure (alike_of_body (view_obj_congr ?_))
  simp only [List.map_cons, List.map_nil, view_entries hentries, length_eq_of_views hentries]

/-! Cached issues. -/

theorem alike_cacheIssuePull (request : Request) :
    Proc.Coupled (alikeCoupling V K odd nowSec) (Response.Alike V) (handleCacheIssuePull R request)
      (handleCacheIssuePull R request) :=
  (Proc.Coupled.failIf _ _).bind_eq fun _ => (Proc.Coupled.failWith _).bind_eq fun _ =>
    (alike_requireRoom request).bind_eq fun room => Proc.Coupled.bind_eq
      (Proc.Coupled.gets_eq fun _ _ hst => K.pull _ _ room _ _ hst.cache) fun _ =>
        Proc.Coupled.pure (alike_refl _)

theorem alike_cacheIssueSync (request : Request) :
    Proc.Coupled (alikeCoupling V K odd nowSec) (Response.Alike V) (handleCacheIssueSync R request)
      (handleCacheIssueSync R request) := by
  refine (Proc.Coupled.failIf _ _).bind_eq fun _ => (Proc.Coupled.failWith _).bind_eq fun _ =>
    (alike_requireRoom request).bind_eq fun room => Proc.Coupled.bind_eq
      (Proc.Coupled.update fun s t hst => ?_) fun _ => Proc.Coupled.pure (alike_refl _)
  obtain ⟨hresult, hcache⟩ := K.sync _ _ room (normalizeAfter (request.param "after") 0)
    (normalizeLimit (request.param "limit") 100)
    (normalizeLimit (request.param "snapshot_limit") 100) hst.cache
  exact ⟨hresult, hst.rooms, hst.keys, hst.nonces, hst.records, hst.cursor, hst.githubIssueSync,
    hcache⟩

/-! Webhook deliveries. -/

theorem withIssueSync (h : s.Alike V K nowSec t) {x y : IssueSyncState} (hxy : x.Alike y) :
    ServiceState.Alike V K nowSec { s with githubIssueSync := x }
      { t with githubIssueSync := y } :=
  ⟨h.rooms, h.keys, h.nonces, h.records, h.cursor, hxy, h.cache⟩

theorem alike_removeDlq {x y : IssueSyncState} (h : x.Alike y) (deliveryId : String) :
    (x.removeDlq deliveryId).Alike (y.removeDlq deliveryId) := by
  unfold IssueSyncState.removeDlq
  rw [h.dlq.has deliveryId]
  split
  · exact ⟨h.deliveryIds, h.dlq.erase deliveryId, congrArg (List.erase · deliveryId) h.dlqOrder⟩
  · exact h

theorem alike_enqueueDlq {x y : IssueSyncState} (h : x.Alike y) (deliveryId event : String)
    (body : Body) (error : String) (incrementRetry : Bool) (nowSec : Int) :
    (x.enqueueDlq deliveryId event body error incrementRetry nowSec).1 =
        (y.enqueueDlq deliveryId event body error incrementRetry nowSec).1 ∧
      (x.enqueueDlq deliveryId event body error incrementRetry nowSec).2.Alike
        (y.enqueueDlq deliveryId event body error incrementRetry nowSec).2 := by
  obtain ⟨deliveryIds, dlq, dlqOrder⟩ := x
  obtain ⟨deliveryIds', dlq', dlqOrder'⟩ := y
  obtain ⟨rfl, hdlq, rfl⟩ : deliveryIds = deliveryIds' ∧ dlq.Agree dlq' ∧ dlqOrder = dlqOrder' :=
    ⟨h.deliveryIds, h.dlq, h.dlqOrder⟩
  simp only [IssueSyncState.enqueueDlq, hdlq deliveryId]
  refine ⟨trivial, ?_⟩
  constructor
  · rfl
  · dsimp only
    exact (hdlq.set deliveryId _).eraseAll _
  · rfl

theorem alike_rememberDeliveryId {x y : IssueSyncState} (h : x.Alike y) (deliveryId : String)
    (ts : Int) : (x.rememberDeliveryId deliveryId ts).Alike (y.rememberDeliveryId deliveryId ts) := by
  obtain ⟨deliveryIds, dlq, dlqOrder⟩ := x
  obtain ⟨deliveryIds', dlq', dlqOrder'⟩ := y
  obtain rfl : deliveryIds = deliveryIds' := h.deliveryIds
  exact ⟨rfl, h.dlq, h.dlqOrder⟩

theorem alike_settleDelivery (h : s.Alike V K nowSec t) (deliveryId : String) (accepted : Bool)
    (ts : Int) : (s.settleDelivery deliveryId accepted ts).Alike V K nowSec
      (t.settleDelivery deliveryId accepted ts) := by
  have hremember := alike_rememberDeliveryId h.githubIssueSync deliveryId ts
  unfold ServiceState.settleDelivery
  refine withIssueSync h ?_
  split
  · exact alike_removeDlq hremember deliveryId
  · exact hremember

theorem alike_applyDelivery (event deliveryId : String) (body : Body) (ts : Int) :
    Proc.Coupled (alikeCoupling V K odd nowSec) (· = ·)
      (applyGitHubWebhookDelivery R event deliveryId body ts)
      (applyGitHubWebhookDelivery R event deliveryId body ts) := by
  refine Proc.Coupled.bind_eq (Proc.Coupled.gets_eq fun s t hst => ?_) fun checked => ?_
  · unfold checkDelivery
    rw [hst.githubIssueSync.deliveryIds]
  · cases checked with
    | error result => exact Proc.Coupled.pure rfl
    | ok mapped =>
      refine alike_publishInto _ _ _ _ _ _ _ _ _ fun result =>
        Proc.Coupled.ite (fun _ => Proc.Coupled.pure rfl) fun _ => Proc.Coupled.bind_eq
          (Proc.Coupled.modify rfl fun _ _ hst => alike_settleDelivery hst _ _ _) fun _ =>
            Proc.Coupled.pure rfl

theorem alike_enqueue (deliveryId event : String) (body : Body) (error : String)
    (incrementRetry : Bool) (ts : Int) :
    Proc.Coupled (alikeCoupling V K odd nowSec) (· = ·)
      (Proc.update (ServiceState.enqueueDlq deliveryId event body error incrementRetry ts) :
        Handler C IssueSyncDlqEntry)
      (Proc.update (ServiceState.enqueueDlq deliveryId event body error incrementRetry ts)) := by
  refine Proc.Coupled.update fun s t hst => ?_
  obtain ⟨hentry, hengine⟩ := alike_enqueueDlq hst.githubIssueSync deliveryId event body error
    incrementRetry ts
  exact ⟨hentry, withIssueSync hst hengine⟩

theorem alike_githubWebhook (request : Request) (env : Env) :
    Proc.Coupled (alikeCoupling V K odd nowSec) (Response.Alike V) (handleGitHubWebhook R request env)
      (handleGitHubWebhook R request env) := by
  refine (Proc.Coupled.failIf _ _).bind_eq fun _ => (Proc.Coupled.failIf _ _).bind_eq fun _ =>
    (Proc.Coupled.failIf _ _).bind_eq fun _ => (Proc.Coupled.ofExcept _).bind_eq fun _ =>
      (alike_applyDelivery _ _ _ _).bind_eq fun result => ?_
  cases result with
  | failed error =>
    exact (alike_enqueue _ _ _ _ _ _).bind_eq fun _ => Proc.Coupled.pure (alike_refl _)
  | duplicate deliveryId event => exact Proc.Coupled.pure (alike_refl _)
  | published deliveryId event accepted mapped cursor => exact Proc.Coupled.pure (alike_refl _)

theorem alike_dlqRetry (request : Request) (env : Env) :
    Proc.Coupled (alikeCoupling V K odd nowSec) (Response.Alike V)
      (handleGitHubWebhookDlqRetry R request env) (handleGitHubWebhookDlqRetry R request env) := by
  refine (Proc.Coupled.failIf _ _).bind_eq fun _ => (alike_requireParam request _).bind_eq
    fun deliveryId => Proc.Coupled.bind_eq
      (Proc.Coupled.gets_eq fun _ _ hst => hst.githubIssueSync.dlq deliveryId) fun found =>
        (Proc.Coupled.ofExcept _).bind_eq fun found =>
          (alike_applyDelivery _ _ _ _).bind_eq fun result => ?_
  have hremove : ∀ response : Response, Proc.Coupled (alikeCoupling V K odd nowSec) (Response.Alike V)
      (Proc.modify (fun s : ServiceState C =>
        { s with githubIssueSync := s.githubIssueSync.removeDlq deliveryId }) >>= fun _ =>
          pure response)
      (Proc.modify (fun s : ServiceState C =>
        { s with githubIssueSync := s.githubIssueSync.removeDlq deliveryId }) >>= fun _ =>
          pure response) :=
    fun response => Proc.Coupled.bind_eq (Proc.Coupled.modify rfl fun _ _ hst =>
      withIssueSync hst (alike_removeDlq hst.githubIssueSync deliveryId)) fun _ =>
        Proc.Coupled.pure (alike_refl _)
  cases result with
  | failed error =>
    exact (alike_enqueue _ _ _ _ _ _).bind_eq fun _ => Proc.Coupled.pure (alike_refl _)
  | duplicate deliveryId event => exact hremove _
  | published deliveryId event accepted mapped cursor => exact hremove _

theorem alike_dlqList (request : Request) :
    Proc.Coupled (alikeCoupling V K odd nowSec) (Response.Alike V)
      (handleGitHubWebhookDlqList request : Handler C Response)
      (handleGitHubWebhookDlqList request) := by
  refine (Proc.Coupled.failIf _ _).bind_eq fun _ => Proc.Coupled.bind_eq
    (Proc.Coupled.gets_eq fun s t hst => ?_) fun _ => Proc.Coupled.pure (alike_refl _)
  have hget : s.githubIssueSync.dlq.get? = t.githubIssueSync.dlq.get? :=
    funext hst.githubIssueSync.dlq
  unfold IssueSyncState.listDlq
  rw [hst.githubIssueSync.dlqOrder, hget]

/-! Keys. -/

theorem withKeys (h : s.Alike V K nowSec t) {x y : KeyRegistry} (hxy : x.Agree y) :
    ServiceState.Alike V K nowSec { s with keyRegistry := x } { t with keyRegistry := y } :=
  ⟨h.rooms, hxy, h.nonces, h.records, h.cursor, h.githubIssueSync, h.cache⟩

theorem alike_updateKey (h : s.Alike V K nowSec t) (sender : String) (f : KeyRecord → KeyRecord) :
    (s.updateKey sender f).Alike V K nowSec (t.updateKey sender f) := by
  unfold ServiceState.updateKey
  rw [h.keys sender]
  split
  · exact h
  · exact withKeys h (h.keys.set sender _)

/-- The same refusal, or registries that agree. -/
def SameOutcome (r r' : Except Response KeyRegistry) : Prop :=
  (∃ e, r = .error e ∧ r' = .error e) ∨ ∃ x y, r = .ok x ∧ r' = .ok y ∧ x.Agree y

theorem sameOutcome_ensureTofuKey {x y : KeyRegistry} (h : x.Agree y) (sender publicKey : String)
    (ts : Int) : SameOutcome (ensureTofuKey x sender publicKey ts)
      (ensureTofuKey y sender publicKey ts) := by
  unfold ensureTofuKey
  rw [h sender]
  split
  · exact .inr ⟨_, _, rfl, rfl, h.set sender _⟩
  · split
    · exact .inl ⟨_, rfl, rfl⟩
    · split
      · exact .inl ⟨_, rfl, rfl⟩
      · exact .inr ⟨_, _, rfl, rfl, h.set sender _⟩

theorem alike_bindKey (sender publicKey : String) (ts : Int) :
    Proc.Coupled (alikeCoupling V K odd nowSec) (· = ·) (bindKey sender publicKey ts : Handler C Unit)
      (bindKey sender publicKey ts) := by
  refine Proc.Coupled.bind (V := SameOutcome) (Proc.Coupled.gets fun s t hst =>
    sameOutcome_ensureTofuKey hst.keys sender publicKey ts) ?_
  rintro r r' (⟨e, rfl, rfl⟩ | ⟨x, y, rfl, rfl, hxy⟩)
  · exact fun s t hst => .error (alike_refl e) hst
  · exact fun s t hst => .ok rfl (withKeys hst hxy)

theorem alike_keyInfo (request : Request) :
    Proc.Coupled (alikeCoupling V K odd nowSec) (Response.Alike V)
      (handleKeyInfo request : Handler C Response) (handleKeyInfo request) :=
  (Proc.Coupled.failIf _ _).bind_eq fun _ => (alike_requireParam request _).bind_eq fun sender =>
    Proc.Coupled.bind_eq (Proc.Coupled.gets_eq fun _ _ hst => hst.keys sender) fun _ =>
      (Proc.Coupled.ofExcept _).bind_eq fun _ => Proc.Coupled.pure (alike_refl _)

theorem alike_verifyGitHub (request : Request) (env : Env) :
    Proc.Coupled (alikeCoupling V K odd nowSec) (Response.Alike V)
      (handleKeyVerifyGitHub request env : Handler C Response)
      (handleKeyVerifyGitHub request env) := by
  have hbegin : Proc.Coupled (alikeCoupling V K odd nowSec) (· = ·)
      (verifyGitHubBegin request : Handler C String) (verifyGitHubBegin request) :=
    (alike_requireObject request).bind_eq fun _ => (Proc.Coupled.failIf _ _).bind_eq fun _ =>
      (Proc.Coupled.failIf _ _).bind_eq fun _ => (Proc.Coupled.failIf _ _).bind_eq fun _ =>
        Proc.Coupled.bind_eq (Proc.Coupled.gets_eq fun _ _ hst => hst.keys _) fun _ =>
          (Proc.Coupled.failIf _ _).bind_eq fun _ => Proc.Coupled.pure rfl
  refine (Proc.Coupled.failIf _ _).bind_eq fun _ => hbegin.bind_eq fun sender =>
    (Proc.Coupled.ofExcept _).bind_eq fun keys => Proc.Coupled.bind_eq
      (Proc.Coupled.gets_eq fun s t hst => ?_) fun _ => (Proc.Coupled.failIf _ _).bind_eq fun _ =>
        Proc.Coupled.bind_eq (Proc.Coupled.modify rfl fun _ _ hst =>
          alike_updateKey hst sender _) fun _ => Proc.Coupled.pure (alike_refl _)
  unfold KeyRegistry.publicKeyOf
  rw [hst.keys sender]

/-! Nonces. -/

/-- Write the table of a sender. -/
theorem withNonces (h : s.Alike V K nowSec t) (sender : String) (nonces : NonceTable) :
    ServiceState.Alike V K nowSec
      { s with noncesBySender := s.noncesBySender.set sender nonces }
      { t with noncesBySender := t.noncesBySender.set sender nonces } := by
  refine ⟨h.rooms, h.keys, fun other later hlater => ?_, h.records, h.cursor, h.githubIssueSync,
    h.cache⟩
  simp only [OrdMap.getD, OrdMap.get?_set]
  split
  · rfl
  · exact h.nonces other later hlater

theorem alike_checkReplay (h : s.Alike V K nowSec t) (sender nonce : String) :
    (s.checkReplay R sender nonce nowSec).1 = (t.checkReplay R sender nonce nowSec).1 ∧
      (s.checkReplay R sender nonce nowSec).2.Alike V K nowSec
        (t.checkReplay R sender nonce nowSec).2 := by
  have hprune := h.nonces sender nowSec le_rfl
  unfold ServiceState.checkReplay isReplayNonce pruneSenderNonces
  simp only [OrdMap.getD_set_self, hprune]
  exact ⟨trivial, withNonces h sender _⟩

theorem alike_remember (h : s.Alike V K nowSec t) (sender nonce : String) (ts : Int) :
    (s.remember R sender nonce ts nowSec).Alike V K nowSec
      (t.remember R sender nonce ts nowSec) := by
  have hprune := h.nonces sender nowSec le_rfl
  unfold ServiceState.remember rememberNonce
  rw [hprune]
  exact withNonces h sender _

theorem alike_checkFreshness (sender nonce : String) (ts : Int) :
    Proc.Coupled (alikeCoupling V K odd nowSec) (· = ·)
      (checkFreshness R sender nonce ts nowSec) (checkFreshness R sender nonce ts nowSec) :=
  (Proc.Coupled.failIf _ _).bind_eq fun _ => Proc.Coupled.bind_eq
    (Proc.Coupled.update fun _ _ hst => alike_checkReplay hst sender nonce) fun _ =>
      Proc.Coupled.failIf _ _

/-- The wait of a signature stage, begun at the time of the comparison. -/
theorem alike_beginSignature (sender : String) (auth : PublishAuthHeaders) (message : String) :
    Proc.Coupled (alikeCoupling V K odd nowSec) (fun p p' => p = p' ∧ p.nowSec = nowSec)
      (beginSignature R sender auth message nowSec)
      (beginSignature R sender auth message nowSec) :=
  (alike_checkFreshness _ _ _).bind_eq fun _ => Proc.Coupled.pure ⟨rfl, rfl⟩

theorem alike_finishSignature {pending : PendingSignature} (hnow : pending.nowSec = nowSec) :
    Proc.Coupled (alikeCoupling V K odd nowSec) (· = ·) (finishSignature R pending)
      (finishSignature R pending) := by
  subst hnow
  exact (Proc.Coupled.failIf _ _).bind_eq fun _ => (alike_bindKey _ _ _).bind_eq fun _ =>
    Proc.Coupled.modify rfl fun _ _ hst => alike_remember hst _ _ _

theorem alike_keyRotate (request : Request) (env : Env) :
    Proc.Coupled (alikeCoupling V K odd (nowEpochSec env.nowMs)) (Response.Alike V)
      (handleKeyRotate R request env) (handleKeyRotate R request env) := by
  have hbegin : Proc.Coupled (alikeCoupling V K odd (nowEpochSec env.nowMs))
      (fun p p' => p = p' ∧ p.nowSec = nowEpochSec env.nowMs) (rotateBegin R request env)
      (rotateBegin R request env) :=
    (alike_requireObject request).bind_eq fun _ => (Proc.Coupled.ofExcept _).bind_eq fun fields =>
      (alike_checkFreshness _ _ _).bind_eq fun _ => Proc.Coupled.bind_eq
        (Proc.Coupled.gets_eq fun _ _ hst => hst.keys fields.sender) fun _ =>
          (Proc.Coupled.ofExcept _).bind_eq fun _ => Proc.Coupled.pure ⟨rfl, rfl⟩
  have hcommit : ∀ pending : PendingRotate, pending.nowSec = nowEpochSec env.nowMs →
      Proc.Coupled (alikeCoupling V K odd (nowEpochSec env.nowMs)) (· = ·) (rotateCommit R pending)
        (rotateCommit R pending) := by
    intro pending hnow
    rw [← hnow]
    exact (Proc.Coupled.failIf _ _).bind_eq fun _ => (Proc.Coupled.failIf _ _).bind_eq fun _ =>
      Proc.Coupled.bind_eq (Proc.Coupled.modify rfl fun _ _ hst => alike_updateKey hst _ _)
        fun _ => Proc.Coupled.modify rfl fun _ _ hst => alike_remember hst _ _ _
  have hsigned : Proc.Coupled (alikeCoupling V K odd (nowEpochSec env.nowMs)) (· = ·)
      (rotateSigned R request env) (rotateSigned R request env) := by
    refine (Proc.Coupled.failIf _ _).bind_eq fun _ => hbegin.bind fun pending pending' h => ?_
    obtain ⟨rfl, hnow⟩ := h
    exact (hcommit pending hnow).bind_eq fun _ => Proc.Coupled.pure rfl
  exact hsigned.bind_eq fun pending => Proc.Coupled.pure (alike_refl _)

/-! Reviews. -/

theorem alike_submitReview (h : s.Alike V K nowSec t) (input : ReviewInput) (ts : Int) :
    (s.submitReview input ts).1 = (t.submitReview input ts).1 ∧
      (s.submitReview input ts).2.Alike V K nowSec (t.submitReview input ts).2 := by
  have hroom := h.rooms input.room
  simp only [ServiceState.submitReview, hroom.reviews input.prId]
  refine ⟨trivial, putRoom h input.room ⟨hroom.messages, hroom.acks, hroom.presence, fun prId => ?_⟩⟩
  simp only [OrdMap.getD, OrdMap.get?_set]
  split
  · rfl
  · exact hroom.reviews prId

theorem alike_review_post (request : Request) (room : String) (env : Env) :
    Proc.Coupled (alikeCoupling V K odd (nowEpochSec env.nowMs)) (Response.Alike V)
      (handleReviewPost R request room env) (handleReviewPost R request room env) := by
  have hbegin : Proc.Coupled (alikeCoupling V K odd (nowEpochSec env.nowMs))
      (fun p p' => p = p' ∧ p.2.nowSec = nowEpochSec env.nowMs) (reviewBegin R request room env)
      (reviewBegin R request room env) :=
    (alike_requireParam request _).bind_eq fun _ => (alike_requireParam request _).bind_eq
      fun _ => (Proc.Coupled.failIf _ _).bind_eq fun _ => (Proc.Coupled.ofExcept _).bind_eq
        fun _ => (Proc.Coupled.ofExcept _).bind_eq fun _ => (Proc.Coupled.ofExcept _).bind_eq
          fun auth => (alike_beginSignature _ auth _).bind fun pending pending' h => by
            obtain ⟨rfl, hnow⟩ := h
            exact Proc.Coupled.pure ⟨rfl, hnow⟩
  have hsigned : Proc.Coupled (alikeCoupling V K odd (nowEpochSec env.nowMs)) (· = ·)
      (reviewSigned R request room env) (reviewSigned R request room env) := by
    refine hbegin.bind fun p p' h => ?_
    obtain ⟨rfl, hnow⟩ := h
    exact (alike_finishSignature hnow).bind_eq fun _ => Proc.Coupled.pure rfl
  exact hsigned.bind_eq fun p => Proc.Coupled.bind_eq
    (Proc.Coupled.update fun _ _ hst => alike_submitReview hst p.1 _) fun _ =>
      Proc.Coupled.pure (alike_refl _)

/-! Publish. -/

/-- A rate limit counts in its own table: where the counters differ, its answer may too. -/
theorem alike_rateLimit (hodd : ∀ error, odd (toErrorResponse error 429))
    {table : ServiceState C → OrdMap String RateCounter}
    {store : ServiceState C → OrdMap String RateCounter → ServiceState C}
    (hstore : ∀ s t x y, ServiceState.Alike V K nowSec s t → (store s x).Alike V K nowSec (store t y))
    (key : String) (now max windowMs : Nat) (error : String) :
    Proc.Coupled (alikeCoupling V K odd nowSec) (· = ·) (rateLimit table store key now max windowMs error)
      (rateLimit table store key now max windowMs error) := by
  refine Proc.Coupled.bind (V := fun _ _ => True)
    (Proc.Coupled.update fun s t hst => ⟨trivial, hstore s t _ _ hst⟩) fun a b _ s t hst => ?_
  rw [Proc.run_failIf, Proc.run_failIf]
  split
  · exact .oddLeft (hodd error)
  · split
    · exact .oddRight (hodd error)
    · exact .ok rfl hst

theorem alike_publishArrive (hodd : ∀ error, odd (toErrorResponse error 429))
    (request : Request) (env : Env) :
    Proc.Coupled (alikeCoupling V K odd nowSec) (· = ·) (publishArrive R request env)
      (publishArrive R request env) := by
  refine (Proc.Coupled.failIf _ _).bind_eq fun _ => (alike_requireParam request _).bind_eq
    fun sender => (alike_requireRoom request).bind_eq fun room => Proc.Coupled.bind_eq ?_ fun _ =>
      Proc.Coupled.bind_eq ?_ fun _ => Proc.Coupled.bind_eq ?_ fun _ =>
        (Proc.Coupled.failIf _ _).bind_eq fun _ => Proc.Coupled.pure rfl
  · unfold ipRateLimit
    refine Proc.Coupled.ite (fun _ => alike_rateLimit hodd (fun s t x y h => ?_) _ _ _ _ _) fun _ =>
      Proc.Coupled.pure rfl
    exact ⟨h.rooms, h.keys, h.nonces, h.records, h.cursor, h.githubIssueSync, h.cache⟩
  · refine alike_rateLimit hodd (fun s t x y h => ?_) _ _ _ _ _
    exact ⟨h.rooms, h.keys, h.nonces, h.records, h.cursor, h.githubIssueSync, h.cache⟩
  · refine alike_rateLimit hodd (fun s t x y h => ?_) _ _ _ _ _
    exact ⟨h.rooms, h.keys, h.nonces, h.records, h.cursor, h.githubIssueSync, h.cache⟩

theorem alike_publishBegin (request : Request) (input : PublishInput) (env : Env) :
    Proc.Coupled (alikeCoupling V K odd (nowEpochSec env.nowMs))
      (fun p p' => p = p' ∧ ∀ pending, p.2 = some pending →
        pending.nowSec = nowEpochSec env.nowMs)
      (publishBegin R request input env) (publishBegin R request input env) := by
  refine (Proc.Coupled.failIf _ _).bind_eq fun _ => (Proc.Coupled.ofExcept _).bind_eq fun parsed =>
    Proc.Coupled.bind (V := fun p p' => p = p' ∧ ∀ pending, p = some pending →
      pending.nowSec = nowEpochSec env.nowMs) ?_ fun p p' h => ?_
  · refine (Proc.Coupled.ofExcept _).bind_eq fun auth => ?_
    cases auth with
    | none =>
      refine (Proc.Coupled.failIf _ _).bind_eq fun _ => Proc.Coupled.pure ⟨rfl, ?_⟩
      rintro pending ⟨⟩
    | some auth =>
      refine (alike_beginSignature _ auth _).bind fun pending pending' h => ?_
      obtain ⟨rfl, hnow⟩ := h
      refine Proc.Coupled.pure ⟨rfl, ?_⟩
      rintro _ ⟨⟩
      exact hnow
  · obtain ⟨rfl, hnow⟩ := h
    exact Proc.Coupled.pure ⟨rfl, hnow⟩

theorem alike_publish (hodd : ∀ error, odd (toErrorResponse error 429)) (request : Request)
    (env : Env) :
    Proc.Coupled (alikeCoupling V K odd (nowEpochSec env.nowMs)) (Response.Alike V)
      (handlePublish R request env) (handlePublish R request env) := by
  have hfinish : ∀ pending : Option PendingSignature,
      (∀ p, pending = some p → p.nowSec = nowEpochSec env.nowMs) →
      Proc.Coupled (alikeCoupling V K odd (nowEpochSec env.nowMs)) (· = ·)
        (finishSignatureVerification R pending) (finishSignatureVerification R pending) := by
    intro pending hnow
    cases pending with
    | none => exact Proc.Coupled.pure rfl
    | some pending => exact alike_finishSignature (hnow pending rfl)
  have hsigned : Proc.Coupled (alikeCoupling V K odd (nowEpochSec env.nowMs)) (· = ·)
      (publishSigned R request env) (publishSigned R request env) := by
    refine (alike_publishArrive hodd request env).bind_eq fun input =>
      (alike_publishBegin request input env).bind fun p p' h => ?_
    obtain ⟨rfl, hnow⟩ := h
    exact (hfinish p.2 hnow).bind_eq fun _ => Proc.Coupled.pure rfl
  exact hsigned.bind_eq fun p => alike_publishInto _ _ _ _ _ _ _ _ _ fun _ =>
    Proc.Coupled.pure (alike_refl _)

end

end AlikeLemmas

open AlikeLemmas

/-! ## One request -/

section
variable {C : Type} {R : Relay C} {V : PayloadView R.platform} {K : CacheView R.cacheAdapter}
  {odd : Response → Prop}

theorem alike_handle (request : Request) (env : Env) (endpoint : Endpoint)
    (hodd : endpoint = .publish → ∀ error, odd (toErrorResponse error 429)) :
    Proc.Coupled (alikeCoupling V K odd (nowEpochSec env.nowMs)) (Response.Alike V)
      (endpoint.handle R request env) (endpoint.handle R request env) := by
  cases endpoint with
  | keyInfo => exact alike_keyInfo request
  | keyRotate => exact alike_keyRotate request env
  | keyVerifyGitHub => exact alike_verifyGitHub request env
  | githubWebhook => exact alike_githubWebhook request env
  | githubWebhookDlq => exact alike_dlqList request
  | githubWebhookDlqRetry => exact alike_dlqRetry request env
  | triggerCallback => exact alike_triggerCallback request env
  | triggerResults => exact alike_triggerResults request
  | cacheExchangeDiscovery =>
    exact (Proc.Coupled.failIf _ _).bind_eq fun _ => (Proc.Coupled.failWith _).bind_eq fun _ =>
      Proc.Coupled.pure (alike_refl _)
  | cacheExchangePull => exact alike_cacheExchangePull request
  | cacheExchangePush => exact alike_cacheExchangePush request
  | cacheIssuesPull => exact alike_cacheIssuePull request
  | cacheIssuesSync => exact alike_cacheIssueSync request
  | ws => exact alike_ws request env
  | publish => exact alike_publish (hodd rfl) request env
  | poll => exact alike_poll request
  | inboxPending => exact alike_inboxPending request
  | inboxAck => exact alike_inboxAck request
  | presenceHeartbeat => exact alike_presenceHeartbeat request env
  | presence => exact alike_presence request env
  | review =>
    refine (alike_requireRoom request).bind_eq fun room =>
      Proc.Coupled.ite (fun _ => alike_review_get request room) fun _ =>
        Proc.Coupled.ite (fun _ => alike_review_post request room env) fun _ =>
          Proc.Coupled.answer (alike_refl _)

theorem alike_fetch (request : Request) (env : Env)
    (hodd : request.pathname = Endpoint.publish.path →
      ∀ error, odd (toErrorResponse error 429)) :
    Proc.Coupled (alikeCoupling V K odd (nowEpochSec env.nowMs)) (Response.Alike V)
      (fetch R request env) (fetch R request env) := by
  unfold fetch
  refine Proc.Coupled.ite (fun _ => Proc.Coupled.pure (alike_refl _)) fun _ =>
    Proc.Coupled.ite (fun _ => Proc.Coupled.pure (alike_refl _)) fun _ => ?_
  split
  · next endpoint hendpoint =>
    refine (Proc.Coupled.failWith _).bind_eq fun _ => alike_handle request env endpoint fun h => ?_
    rw [h] at hendpoint
    exact hodd (Endpoint.path_of hendpoint)
  · exact (Proc.Coupled.failWith _).bind_eq fun _ => Proc.Coupled.pure (alike_refl _)

/-- Alike states answer a request alike, and stay alike, unless it is a publish that a rate limit
refuses in one of them. -/
theorem alike_serve {request : Request} {env : Env} {s t : ServiceState C}
    (hst : s.Alike V K (nowEpochSec env.nowMs) t)
    (hrates : request.pathname = Endpoint.publish.path →
      (serve R request env s).1.status ≠ 429 ∧ (serve R request env t).1.status ≠ 429) :
    (serve R request env s).1.Alike V (serve R request env t).1 ∧
      (serve R request env s).2.Alike V K (nowEpochSec env.nowMs) (serve R request env t).2 := by
  have hfetch : Proc.Coupled (alikeCoupling V K (fun response =>
      request.pathname = Endpoint.publish.path ∧ response.status = 429) (nowEpochSec env.nowMs))
      (Response.Alike V) (fetch R request env) (fetch R request env) :=
    alike_fetch request env fun hpath _ => ⟨hpath, rfl⟩
  have h := hfetch s t hst
  unfold serve Handler.serve at hrates ⊢
  generalize (fetch R request env).run s = r at h hrates ⊢
  generalize (fetch R request env).run t = r' at h hrates ⊢
  cases h with
  | ok hanswer hst' => exact ⟨hanswer, hst'⟩
  | error hanswer hst' => exact ⟨hanswer, hst'⟩
  | oddLeft hodd => exact absurd hodd.2 (hrates hodd.1).1
  | oddRight hodd => exact absurd hodd.2 (hrates hodd.1).2

end

end BitRelay
