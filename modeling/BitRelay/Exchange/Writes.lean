import BitRelay.Lib.CursorLog
import BitRelay.Js.FreeText
import BitRelay.Service.Changes

/-!
# Writes into the log and the exchange

Five endpoints end in `publishIntoRoom`, and each of them records what was
accepted for the exchange. `Write` is what they hand over; `LogStep` is what a
request other than a push, or one entry of a push, can do to the room logs and to
the exchange records: nothing, or append one message.

Results:
1. `write_cases`: a write is refused, finds its id known, or is appended to the log and to the
   exchange records.
2. `once_fetch`: the requests other than a push write at most one message, a message of this relay
   with hop count 0.
3. `once_pushEntry`: a pushed entry writes what it says, under the origin and the hop count it
   came with.
-/

namespace BitRelay

/-! ## Writes -/

/-- `NODE_ID_PATTERN.test(nodeId)` -/
def isValidNodeId (nodeId : String) : Bool := matchesName Char.isAlphanum isNameChar 63 nodeId

/-- A relay, with what the normalisation of its options guarantees to its peers. -/
structure PeerRelay (C : Type) extends Relay C where
  nodeId_valid : isValidNodeId config.relayNodeId = true
  maxHops_pos : 1 ≤ config.cacheExchangeMaxHops

/-- The arguments of `publishIntoRoom` and of `recordCacheExchange`. -/
structure Write where
  room : String
  sender : String
  topic : String
  id : String
  signature : String
  payload : JsonValue
  origin : String
  hopCount : Nat
  maxHops : Nat

namespace Write

def envelope (w : Write) : Envelope where
  room := w.room
  id := w.id
  sender := w.sender
  topic := w.topic
  payload := w.payload
  signature := storedSignature w.signature

def record (w : Write) (cursor : Nat) : CacheExchangeRecord where
  cursor
  envelope := w.envelope
  origin := w.origin
  hopCount := w.hopCount
  maxHops := w.maxHops

/-- The fields of a write are such that a peer can read them. -/
structure Sound (w : Write) : Prop where
  room : isValidRoomName w.room = true
  id : FreeText w.id
  sender : FreeText w.sender
  origin : FreeText w.origin
  hopCount : w.hopCount < w.maxHops

end Write

section
variable {C : Type}

def ServiceState.write (R : Relay C) (w : Write) (s : ServiceState C) :
    PublishResult × ServiceState C :=
  s.publishEntry R w.room w.sender w.topic w.id w.signature w.payload w.origin w.hopCount w.maxHops

/-- The id is in the log of the room. -/
def ServiceState.Holds (s : ServiceState C) (room id : String) : Prop :=
  ∃ m ∈ (s.roomOf room).messages, m.id = id

/-- The room logs and the exchange records are the same. -/
structure SameLog (s s' : ServiceState C) : Prop where
  messages : ∀ room, (s'.roomOf room).messages = (s.roomOf room).messages
  records : s'.cacheExchangeRecords = s.cacheExchangeRecords
  cursor : s'.cacheExchangeCursor = s.cacheExchangeCursor

/-- The write is accepted: it goes to the end of its room log and of the exchange records, and both
are cut to their caps. -/
structure Appended (R : Relay C) (w : Write) (s s' : ServiceState C) : Prop where
  topic : isValidTopic w.topic = true
  fresh : ¬ s.Holds w.room w.id
  messages : (s'.roomOf w.room).messages =
    pushMessage (s.roomOf w.room).messages w.envelope R.config.maxMessagesPerRoom
  others : ∀ room, room ≠ w.room → (s'.roomOf room).messages = (s.roomOf room).messages
  cursor : s'.cacheExchangeCursor = s.cacheExchangeCursor + 1
  records : s'.cacheExchangeRecords =
    (s.cacheExchangeRecords ++ [w.record (s.cacheExchangeCursor + 1)]).drop
      (s.cacheExchangeRecords.length + 1 - R.config.cacheExchangeMaxRecords)

variable {R : Relay C} {s s' s'' : ServiceState C} {w : Write}

theorem SameLog.refl (s : ServiceState C) : SameLog s s := ⟨fun _ => rfl, rfl, rfl⟩

theorem SameLog.trans (h : SameLog s s') (h' : SameLog s' s'') : SameLog s s'' where
  messages room := (h'.messages room).trans (h.messages room)
  records := h'.records.trans h.records
  cursor := h'.cursor.trans h.cursor

/-- What changes no log before and after a write does not matter to it. -/
theorem Appended.congr {s₁ s₂ : ServiceState C} (h : Appended R w s₁ s₂) (hbefore : SameLog s s₁)
    (hafter : SameLog s₂ s') : Appended R w s s' where
  topic := h.topic
  fresh := by
    rintro ⟨m, hm, hid⟩
    exact h.fresh ⟨m, hbefore.messages w.room ▸ hm, hid⟩
  messages := by rw [hafter.messages, h.messages, hbefore.messages]
  others room hroom := by rw [hafter.messages, h.others room hroom, hbefore.messages]
  cursor := by rw [hafter.cursor, h.cursor, hbefore.cursor]
  records := by rw [hafter.records, h.records, hbefore.records, hbefore.cursor]

theorem SameLog.of_messages {room : String} {roomState : RoomState}
    (h : roomState.messages = (s.roomOf room).messages) : SameLog s (s.putRoom room roomState) := by
  refine ⟨fun other => ?_, rfl, rfl⟩
  by_cases hother : other = room
  · subst hother
    rw [ServiceState.roomOf_putRoom_self, h]
  · rw [ServiceState.roomOf_putRoom_of_ne s hother]

/-- The three ends of a write. -/
theorem write_cases (R : Relay C) (w : Write) (s : ServiceState C) :
    (isValidTopic w.topic = false ∧ (s.write R w).1 = .invalidTopic w.topic ∧
      SameLog s (s.write R w).2) ∨
    (isValidTopic w.topic = true ∧ s.Holds w.room w.id ∧
      (s.write R w).1 = .known (s.roomOf w.room).messages.length ∧
      SameLog s (s.write R w).2) ∨
    ∃ cursor, (s.write R w).1 = .accepted w.envelope cursor ∧ Appended R w s (s.write R w).2 := by
  have hcases := publishIntoRoom_cases (s.roomOf w.room) w.room w.sender w.topic w.id w.signature
    w.payload R.config.maxMessagesPerRoom
  unfold ServiceState.write ServiceState.publishEntry
  rcases hcases with ⟨htopic, heq⟩ | ⟨htopic, hknown, heq⟩ | ⟨htopic, hfresh, heq⟩
  · rw [heq]
    exact .inl ⟨htopic, rfl, .of_messages rfl⟩
  · rw [heq]
    exact .inr (.inl ⟨htopic, hknown, rfl, .of_messages rfl⟩)
  · rw [heq]
    refine .inr (.inr ⟨_, rfl, htopic, fun ⟨m, hm, hid⟩ => hfresh m hm hid, ?_, ?_, rfl, ?_⟩)
    · exact congrArg RoomState.messages (ServiceState.roomOf_putRoom_self s w.room _)
    · intro room hroom
      exact congrArg RoomState.messages (ServiceState.roomOf_putRoom_of_ne s hroom _)
    · show (s.cacheExchangeRecords ++ [w.record (s.cacheExchangeCursor + 1)]).drop
        ((s.cacheExchangeRecords ++ [w.record _]).length - _) = _
      rw [List.length_append]
      rfl

/-- Behind a write its id is in the log, when the topic is valid. -/
theorem holds_write (h : isValidTopic w.topic = true) : (s.write R w).2.Holds w.room w.id := by
  have hcap := R.config.maxMessagesPerRoom_pos
  rcases write_cases R w s with ⟨hbad, -, -⟩ | ⟨-, ⟨m, hm, hid⟩, -, hsame⟩ | ⟨_, -, happended⟩
  · rw [h] at hbad
    cases hbad
  · exact ⟨m, hsame.messages w.room ▸ hm, hid⟩
  · refine ⟨w.envelope, ?_, rfl⟩
    rw [happended.messages]
    -- The cap is at least one, so the last message stays.
    unfold pushMessage
    simp only [List.length_append, List.length_cons, List.length_nil]
    rw [List.drop_append_of_le_length (by omega)]
    exact List.mem_append_right _ List.mem_cons_self

/-! ## What a request does to the logs -/

/-- Every change but a message. -/
def Allowed.unwritten : Allowed C := ⟨fun _ _ => False, True, True, True⟩

variable (R) in
/-- The logs stay, or one write that satisfies `W` is appended to them. -/
inductive LogStep (W : Write → Prop) (s s' : ServiceState C) : Prop
  | same (h : SameLog s s')
  | appended (w : Write) (hw : W w) (h : Appended R w s s')

variable (R) in
/-- The computation writes at most one message. -/
def WritesOnce {α : Type} (W : Write → Prop) (x : Handler C α) : Prop :=
  ∀ s, LogStep R W s (x.run s).2

/-- The computation writes no message. -/
def Silent {α : Type} (x : Handler C α) : Prop := ∀ s, SameLog s (x.run s).2

variable (R) in
/-- A message of this relay. -/
structure LocalWrite (w : Write) : Prop where
  room : isValidRoomName w.room = true
  id : FreeText w.id
  sender : FreeText w.sender
  origin : w.origin = R.config.relayNodeId
  hopCount : w.hopCount = 0
  maxHops : w.maxHops = R.config.cacheExchangeMaxHops

variable (R) in
/-- A message of this relay, as far as the UUID of the host goes. -/
def LocalWriteAt (env : Env) (w : Write) : Prop := FreeText env.randomUUID → LocalWrite R w

def IncomingExchangeEntry.write (incoming : IncomingExchangeEntry) : Write where
  room := incoming.room
  sender := incoming.sender
  topic := incoming.topic
  id := incoming.id
  signature := incoming.signature.getD ""
  payload := incoming.payload
  origin := incoming.origin
  hopCount := incoming.hopCount
  maxHops := incoming.maxHops

variable (R) in
/-- What an entry of a push writes, when it is not refused. -/
structure PushedWrite (value : JsonValue) (incoming : IncomingExchangeEntry) (w : Write) :
    Prop where
  read : parseIncomingCacheExchangeEntry value R.config.cacheExchangeMaxHops = .ok incoming
  name : refusesEntryName incoming = none
  hops : refusesEntryHops R incoming = none
  write : w = incoming.write

/-- The endpoints that write a message. -/
def Endpoint.writes : Endpoint → Bool
  | publish | triggerCallback | cacheExchangePush | githubWebhook | githubWebhookDlqRetry => true
  | _ => false

/-- A call whose host gives proper UUIDs. -/
structure HostCall extends Call where
  uuid : FreeText env.randomUUID

theorem Change.sameLog (h : Change R .unwritten s s') : SameLog s s' := by
  cases h with
  | room room roomState hlog => exact .of_messages hlog
  | publish room sender topic id signature payload origin hopCount maxHops hA => exact hA.elim
  | annotateKey sender f _ =>
    unfold ServiceState.updateKey
    split <;> exact ⟨fun _ => rfl, rfl, rfl⟩
  | rekey sender f _ =>
    unfold ServiceState.updateKey
    split <;> exact ⟨fun _ => rfl, rfl, rfl⟩
  | rates | issueSync | cache | prune | bindKey | remember => exact ⟨fun _ => rfl, rfl, rfl⟩

theorem LogStep.mono {W W' : Write → Prop} (h : LogStep R W s s') (hW : ∀ w, W w → W' w) :
    LogStep R W' s s' := by
  cases h with
  | same h => exact .same h
  | appended w hw h => exact .appended w (hW w hw) h

theorem logStep_write {W : Write → Prop} (h : W w) (s : ServiceState C) :
    LogStep R W s (s.write R w).2 := by
  rcases write_cases R w s with ⟨-, -, hsame⟩ | ⟨-, -, -, hsame⟩ | ⟨_, -, happended⟩
  · exact .same hsame
  · exact .same hsame
  · exact .appended w h happended

theorem persistResult_sameLog (result : PublishResult) (s : ServiceState C) :
    SameLog s (s.persistResult R result) := by
  cases result <;> exact ⟨fun _ => rfl, rfl, rfl⟩

variable {W W' : Write → Prop} {α β : Type} {request : Request} {x : Handler C α}
  {f : α → Handler C β}

/-! ## Computations that write at most once -/

theorem silent_of_same (h : Proc.Leads SameLog x) : Silent x := fun s =>
  h.keeps (I := SameLog s) (fun _ _ hsame hs => hs.trans hsame) (SameLog.refl s)

theorem silent_of_leads (h : Proc.Leads (Change R .unwritten) x) : Silent x :=
  silent_of_same (h.mono fun _ _ hchange => hchange.sameLog)

theorem silent_pure (a : α) : Silent (Pure.pure a : Handler C α) := fun s => .refl s

theorem silent_persist (result : PublishResult) :
    Silent (Proc.modify (ServiceState.persistResult R result) : Handler C Unit) :=
  persistResult_sameLog result

theorem sameLog_issueSync (s : ServiceState C) (githubIssueSync : IssueSyncState) :
    SameLog s { s with githubIssueSync } :=
  ⟨fun _ => rfl, rfl, rfl⟩

theorem silent_issueSync (f : ServiceState C → IssueSyncState) :
    Silent (Proc.modify fun s => { s with githubIssueSync := f s } : Handler C Unit) :=
  fun s => sameLog_issueSync s (f s)

theorem Silent.bind (hx : Silent x) (hf : ∀ a, Silent (f a)) : Silent (x >>= f) := by
  intro s
  have h := hx s
  rw [Proc.run_bind]
  match hs : x.run s with
  | (.ok a, s') =>
    rw [hs] at h
    exact h.trans (hf a s')
  | (.error e, s') =>
    rw [hs] at h
    exact h

theorem Silent.once (h : Silent x) : WritesOnce R W x := fun s => .same (h s)

theorem WritesOnce.mono (h : WritesOnce R W x) (hW : ∀ w, W w → W' w) : WritesOnce R W' x :=
  fun s => (h s).mono hW

theorem once_write {w : Write} (h : W w) :
    WritesOnce R W (Proc.update (ServiceState.write R w) : Handler C PublishResult) :=
  fun s => logStep_write h s

/-- What precedes the write ensures what the write needs. -/
theorem once_of_silent {Q : α → ServiceState C → Prop} (hx : Silent x)
    (hQ : ∀ s a s', x.run s = (.ok a, s') → Q a s')
    (hf : ∀ a s, Q a s → LogStep R W s ((f a).run s).2) : WritesOnce R W (x >>= f) := by
  intro s
  have h := hx s
  rw [Proc.run_bind]
  match hs : x.run s with
  | (.ok a, s') =>
    rw [hs] at h
    cases hf a s' (hQ s a s' hs) with
    | same h' => exact .same (h.trans h')
    | appended w hw h' => exact .appended w hw (h'.congr h (.refl _))
  | (.error e, s') =>
    rw [hs] at h
    exact .same h

theorem Silent.bind_once (hx : Silent x) (hf : ∀ a, WritesOnce R W (f a)) :
    WritesOnce R W (x >>= f) :=
  once_of_silent (Q := fun _ _ => True) hx (fun _ _ _ _ => trivial) fun a s _ => hf a s

theorem WritesOnce.bind_silent (hx : WritesOnce R W x) (hf : ∀ a, Silent (f a)) :
    WritesOnce R W (x >>= f) := by
  intro s
  have h := hx s
  rw [Proc.run_bind]
  match hs : x.run s with
  | (.ok a, s') =>
    rw [hs] at h
    cases h with
    | same h => exact .same (h.trans (hf a s'))
    | appended w hw h => exact .appended w hw (h.congr (.refl _) (hf a s'))
  | (.error e, s') =>
    rw [hs] at h
    exact h

theorem WritesOnce.ofExcept_bind {e : Except Response β} {g : β → Handler C α}
    (h : ∀ b, e = .ok b → WritesOnce R W (g b)) : WritesOnce R W (Proc.ofExcept e >>= g) := by
  cases e with
  | ok b => exact h b rfl
  | error response => exact fun s => .same (.refl s)

namespace WriteLemmas

/-- The endpoints that write no message. -/
theorem leads_reader (request : Request) (env : Env) {endpoint : Endpoint}
    (h : endpoint.writes = false) :
    Proc.Leads (Change R .unwritten) (endpoint.handle R request env) := by
  cases endpoint with
  | keyInfo => exact leads_keyInfo R request
  | keyRotate => exact leads_keyRotate trivial trivial trivial env
  | keyVerifyGitHub =>
    exact (leads_requireMethod R _ _).bind fun _ => leads_verifyGitHubBegin.bind fun _ =>
      leads_verifyGitHubFinish _ env
  | githubWebhookDlq => exact leads_dlqList R request
  | triggerResults => exact leads_triggerResults R request
  | cacheExchangeDiscovery => exact leads_cacheExchangeDiscovery R request
  | cacheExchangePull => exact leads_cacheExchangePull R request
  | cacheIssuesPull => exact leads_cacheIssuePull R request
  | cacheIssuesSync => exact leads_cacheIssueSync R request
  | ws => exact leads_webSocket R request env
  | poll => exact leads_poll R request
  | inboxPending => exact leads_inboxPending R request
  | inboxAck => exact leads_inboxAck R request
  | presenceHeartbeat => exact leads_presenceHeartbeat R request env
  | presence => exact leads_presence R request env
  | review =>
    exact (leads_requireRoom R _).bind fun room => Proc.Leads.ite (leads_reviewGet R request room)
      (Proc.Leads.ite (leads_reviewPost trivial trivial room env) (Proc.Leads.answer _))
  | publish | triggerCallback | cacheExchangePush | githubWebhook | githubWebhookDlqRetry => cases h

/-! ### The fields of a message of this relay -/

theorem publishArrive_free {env : Env} (huuid : FreeText env.randomUUID) {input : PublishInput}
    (h : (publishArrive R request env).run s = (.ok input, s')) :
    isValidRoomName input.room = true ∧ FreeText input.id ∧ FreeText input.sender := by
  obtain ⟨-, hsender, hroom, -⟩ := publishArrive_ok h
  exact ⟨hroom, publishArrive_id huuid h, hsender⟩

theorem parseCallback_id {env : Env} (huuid : FreeText env.randomUUID) {parsed : JsonValue}
    {input : CallbackInput} (h : parseCallback R request env parsed = .ok input) :
    FreeText input.envelopeId := by
  have hstart : ∀ id, FreeText id → FreeText ("ci-" ++ id) := by
    intro id hid
    rw [show ("ci-" : String) = "ci" ++ "-" from rfl]
    exact freeText_append (by decide) hid
  unfold parseCallback at h
  simp only at h
  generalize hid : (if trim (parsed.strField "id") ≠ "" then trim (parsed.strField "id")
    else if trim (parsed.strField "external_id") ≠ "" then
      "ci-" ++ trim (parsed.strField "external_id")
    else "ci-" ++ env.randomUUID) = id at h
  generalize (if trim (parsed.strField "room") ≠ "" then trim (parsed.strField "room")
    else deriveRoomFromIncomingRef (trim (parsed.strField "ref"))) = room at h
  have hfree : FreeText id := by
    rw [← hid]
    split
    · next hid => exact freeText_trim hid
    · split
      · next hext => exact hstart _ (freeText_trim hext)
      · exact hstart _ huuid
  split at h
  · cases h
  split at h
  · cases h
  split at h
  · cases h
  split at h
  · cases h
  · rw [← Except.ok.inj h]
    exact hfree

theorem mapGitHubDelivery_fields {P : Platform} {event deliveryId : String} {parsed : JsonValue}
    {mapped : IssueSyncMappedEnvelope} (hid : FreeText deliveryId)
    (h : mapGitHubDelivery P event deliveryId parsed = .ok mapped) :
    isValidRoomName mapped.room = true ∧ FreeText mapped.envelopeId ∧ FreeText mapped.sender := by
  have hroom : ∀ name, isValidRoomName (normalizeGitHubRoomName name) = true := by
    intro name
    unfold normalizeGitHubRoomName
    simp only
    split
    · next hvalid => exact hvalid
    · decide
  have hsender : FreeText (readGitHubSender parsed) := by
    unfold readGitHubSender
    simp only
    split
    · next hlogin =>
      rw [show ("github:" : String) = "github" ++ ":" from rfl]
      exact freeText_append (by decide) (freeText_trim hlogin)
    · decide
  have hfields : mapped.room = normalizeGitHubRoomName (readGitHubRepositoryFullName parsed) ∧
      mapped.envelopeId = "gh-" ++ deliveryId ∧ mapped.sender = readGitHubSender parsed := by
    unfold mapGitHubDelivery at h
    simp only at h
    split at h
    · cases h
    split at h
    · cases h
    · simp only [Except.ok.injEq] at h
      subst h
      simp only [and_self]
  rw [hfields.1, hfields.2.1, hfields.2.2, show ("gh-" : String) = "gh" ++ "-" from rfl]
  exact ⟨hroom _, freeText_append (by decide) hid, hsender⟩

theorem checkDelivery_fields {event deliveryId : String} {requestBody : Body}
    {engine : IssueSyncState} {mapped : IssueSyncMappedEnvelope}
    (h : checkDelivery R event deliveryId requestBody engine = .ok mapped) :
    isValidRoomName mapped.room = true ∧ FreeText mapped.envelopeId ∧ FreeText mapped.sender := by
  unfold checkDelivery at h
  simp only at h
  split at h
  · cases h
  split at h
  · cases h
  split at h
  · cases h
  next hid =>
  split at h
  · cases h
  split at h
  · refine mapGitHubDelivery_fields ?_ (mapError_eq_ok h)
    rw [trim_trim] at hid ⊢
    exact freeText_trim hid
  · cases h

/-! ### The writers -/

theorem once_publish (env : Env) :
    WritesOnce R (LocalWriteAt R env) (handlePublish R request env) := by
  refine once_of_silent (Q := fun p _ => FreeText env.randomUUID →
    isValidRoomName p.1.room = true ∧ FreeText p.1.id ∧ FreeText p.1.sender)
    (silent_of_leads (leads_publishSigned trivial trivial env)) ?_ ?_
  · rintro s ⟨input, payload, pending⟩ s' h
    obtain ⟨arrived, s1, h1, k1⟩ := Proc.bind_ok h
    obtain ⟨begun, s2, -, k2⟩ := Proc.bind_ok k1
    obtain ⟨_, s3, -, k3⟩ := Proc.bind_ok k2
    cases k3
    exact fun huuid => publishArrive_free huuid h1
  · rintro ⟨input, payload, pending⟩ s hinput
    have hlocal : LocalWriteAt R env ⟨input.room, input.sender, input.topic, input.id,
        (pending.map fun p => p.auth.signature).getD input.signatureFromQuery, payload,
        R.config.relayNodeId, 0, R.config.cacheExchangeMaxHops⟩ := fun huuid =>
      let ⟨hroom, hid, hsender⟩ := hinput huuid
      ⟨hroom, hid, hsender, rfl, rfl, rfl⟩
    exact ((once_write hlocal).bind_silent fun result => (silent_persist result).bind fun _ =>
      silent_pure _) s

theorem once_triggerCallback (env : Env) :
    WritesOnce R (LocalWriteAt R env) (handleTriggerCallback R request env) := by
  refine (silent_of_leads (leads_requireMethod R _ _)).bind_once fun _ =>
    (silent_of_leads (leads_requireObject R _)).bind_once fun parsed =>
      WritesOnce.ofExcept_bind fun input hinput => ?_
  have hlocal : LocalWriteAt R env ⟨input.room, "ci:callback", "ci.result", input.envelopeId, "",
      input.payload, R.config.relayNodeId, 0, R.config.cacheExchangeMaxHops⟩ := fun huuid =>
    ⟨(parseCallback_ok R hinput).2.1, parseCallback_id huuid hinput,
      show FreeText "ci:callback" by decide, rfl, rfl, rfl⟩
  exact (once_write hlocal).bind_silent fun result => (silent_persist result).bind fun _ =>
    silent_pure _

theorem once_applyDelivery (event deliveryId : String) (requestBody : Body) (nowSec : Int) :
    WritesOnce R (LocalWrite R)
      (applyGitHubWebhookDelivery R event deliveryId requestBody nowSec) := by
  refine once_of_silent (Q := fun checked s =>
    checked = checkDelivery R event deliveryId requestBody s.githubIssueSync)
    (fun s => .refl s) ?_ ?_
  · intro s a s' h
    simp only [Proc.run_gets, Prod.mk.injEq, Except.ok.injEq] at h
    rw [← h.1, ← h.2]
  · intro checked s hs
    cases checked with
    | error result => exact .same (.refl s)
    | ok mapped =>
      obtain ⟨hroom, hid, hsender⟩ := checkDelivery_fields hs.symm
      have hlocal : LocalWrite R ⟨mapped.room, mapped.sender, mapped.topic, mapped.envelopeId, "",
          mapped.payload, R.config.relayNodeId, 0, R.config.cacheExchangeMaxHops⟩ :=
        ⟨hroom, hid, hsender, rfl, rfl, rfl⟩
      refine (once_write hlocal).bind_silent (fun result => (silent_persist result).bind fun _ =>
        ?_) s
      split
      · exact silent_pure _
      · exact Silent.bind (silent_issueSync _) fun _ => silent_pure _

theorem silent_enqueueDlq (deliveryId event : String) (body : Body) (error : String)
    (incrementRetry : Bool) (nowSec : Int) :
    Silent (Proc.update (ServiceState.enqueueDlq deliveryId event body error incrementRetry nowSec) :
      Handler C IssueSyncDlqEntry) := by
  intro s
  exact sameLog_issueSync s _

theorem once_githubWebhook (env : Env) :
    WritesOnce R (LocalWrite R) (handleGitHubWebhook R request env) := by
  refine (silent_of_leads (leads_requireMethod R _ _)).bind_once fun _ =>
    (silent_of_same (Proc.Leads.failIf _ _)).bind_once fun _ =>
      (silent_of_same (Proc.Leads.failIf _ _)).bind_once fun _ =>
        (silent_of_same (Proc.Leads.ofExcept _)).bind_once fun _ =>
          (once_applyDelivery _ _ _ _).bind_silent fun result => ?_
  split
  · exact (silent_enqueueDlq _ _ _ _ _ _).bind fun _ => silent_pure _
  · exact silent_pure _

theorem once_dlqRetry (env : Env) :
    WritesOnce R (LocalWrite R) (handleGitHubWebhookDlqRetry R request env) := by
  refine (silent_of_leads (leads_requireMethod R _ _)).bind_once fun _ =>
    (silent_of_leads (leads_requireParam R _ _)).bind_once fun _ =>
      (silent_of_same (Proc.Leads.gets _)).bind_once fun _ =>
        (silent_of_same (Proc.Leads.ofExcept _)).bind_once fun _ =>
          (once_applyDelivery _ _ _ _).bind_silent fun result => ?_
  split
  · exact (silent_enqueueDlq _ _ _ _ _ _).bind fun _ => silent_pure _
  · exact Silent.bind (silent_issueSync _) fun _ => silent_pure _

end WriteLemmas

open WriteLemmas

/-- An entry of a push writes what it says, when it is not refused. -/
theorem once_pushEntry (request : Request) (i : Nat) (value : JsonValue) (counts : PushCounts) :
    WritesOnce R (fun w => ∃ incoming, PushedWrite R value incoming w)
      (pushEntry R request i value counts) := by
  refine WritesOnce.ofExcept_bind fun incoming hincoming => ?_
  cases hname : refusesEntryName incoming with
  | some reason => exact (silent_pure _).once
  | none =>
    refine (silent_of_same (Proc.Leads.failWith _)).bind_once fun _ => ?_
    cases hhops : refusesEntryHops R incoming with
    | some reason => exact (silent_pure _).once
    | none =>
      have hpushed : PushedWrite R value incoming incoming.write :=
        ⟨mapError_eq_ok hincoming, hname, hhops, rfl⟩
      have hopen : Silent (Proc.update fun s => (findEnvelopeById (s.roomOf incoming.room)
          incoming.id, s.openRoom incoming.room) : Handler C (Option Envelope)) :=
        fun s => .of_messages rfl
      refine hopen.bind_once fun existing => ?_
      cases existing with
      | some existing => exact (silent_pure _).once
      | none =>
        have hwrite : WritesOnce R (fun w => ∃ incoming, PushedWrite R value incoming w)
            (Proc.update (ServiceState.write R incoming.write) : Handler C PublishResult) :=
          once_write ⟨incoming, hpushed⟩
        exact WritesOnce.bind_silent hwrite fun result => (silent_persist result).bind fun _ =>
          silent_pure _

theorem leads_pushedEntries (request : Request) (entries : List JsonValue) (i : Nat)
    (counts : PushCounts) :
    Proc.Leads (LogStep R fun w => ∃ value ∈ entries, ∃ incoming, PushedWrite R value incoming w)
      (pushEntries R request entries i counts) := by
  induction entries generalizing i counts with
  | nil => exact Proc.Leads.pure _
  | cons value rest ih =>
    refine Proc.Leads.bind (fun s => .single ?_) fun counts => ?_
    · exact (once_pushEntry request i value counts s).mono fun w hw =>
        ⟨value, List.mem_cons_self, hw⟩
    · refine (ih (i + 1) counts).mono fun s s' hstep => hstep.mono ?_
      rintro w ⟨v, hv, hw⟩
      exact ⟨v, List.mem_cons_of_mem _ hv, hw⟩

/-- The requests other than a push write one message of this relay at most. -/
theorem once_call (call : Call)
    (hpath : call.request.pathname ≠ Endpoint.cacheExchangePush.path) :
    WritesOnce R (LocalWriteAt R call.env) (fetch R call.request call.env) := by
  unfold fetch
  split
  · exact (silent_pure _).once
  split
  · exact (silent_pure _).once
  split
  · next endpoint h =>
    refine (silent_of_same (Proc.Leads.failWith _)).bind_once fun _ => ?_
    cases endpoint with
    | publish => exact once_publish call.env
    | triggerCallback => exact once_triggerCallback call.env
    | githubWebhook => exact (once_githubWebhook call.env).mono fun _ hlocal _ => hlocal
    | githubWebhookDlqRetry => exact (once_dlqRetry call.env).mono fun _ hlocal _ => hlocal
    | cacheExchangePush => exact absurd (Endpoint.path_of h) hpath
    | _ => exact (silent_of_leads (leads_reader call.request call.env rfl)).once
  · exact ((silent_of_same (Proc.Leads.failWith _)).bind fun _ => silent_pure _).once

theorem once_fetch (call : HostCall)
    (hpath : call.request.pathname ≠ Endpoint.cacheExchangePush.path) :
    WritesOnce R (LocalWrite R) (fetch R call.request call.env) :=
  (once_call call.toCall hpath).mono fun _ hlocal => hlocal call.uuid

/-- The path is one of an endpoint that writes a message. -/
def isWriterPath (pathname : String) : Bool := (Endpoint.ofPath pathname).any Endpoint.writes

theorem silent_fetch (call : Call) (hpath : isWriterPath call.request.pathname = false) :
    Silent (fetch R call.request call.env) := by
  unfold isWriterPath at hpath
  unfold fetch
  split
  · exact silent_pure _
  split
  · exact silent_pure _
  split
  · next endpoint h =>
    rw [h] at hpath
    refine Silent.bind (silent_of_same (Proc.Leads.failWith _)) fun _ => ?_
    exact silent_of_leads (leads_reader call.request call.env hpath)
  · exact (silent_of_same (Proc.Leads.failWith _)).bind fun _ => silent_pure _

/-- Every request writes messages of this relay or what the entries of its body say. -/
theorem leads_fetch_any (call : HostCall) :
    Proc.Leads (LogStep R fun w => LocalWrite R w ∨ ∃ value incoming, PushedWrite R value incoming w)
      (fetch R call.request call.env) := by
  by_cases hpath : call.request.pathname = Endpoint.cacheExchangePush.path
  · have hsilent : ∀ {α : Type} {x : Handler C α}, Proc.Leads (Change R .unwritten) x →
        Proc.Leads (LogStep R fun w => LocalWrite R w ∨
          ∃ value incoming, PushedWrite R value incoming w) x :=
      fun h => h.mono fun _ _ hchange => .same hchange.sameLog
    unfold fetch
    refine Proc.Leads.ite (Proc.Leads.pure _) (Proc.Leads.ite (Proc.Leads.pure _) ?_)
    rw [hpath, show Endpoint.ofPath Endpoint.cacheExchangePush.path = some .cacheExchangePush from rfl]
    refine (Proc.Leads.failWith _).bind fun _ => (hsilent (leads_requireMethod R _ _)).bind
      fun _ => (Proc.Leads.failWith _).bind fun _ => (hsilent (leads_requireObject R _)).bind
        fun parsed => (Proc.Leads.ofExcept _).bind fun entries => Proc.Leads.bind ?_ fun _ =>
          (Proc.Leads.gets _).bind fun _ => Proc.Leads.pure _
    refine (leads_pushedEntries call.request entries 0 .zero).mono fun s s' hstep => hstep.mono ?_
    rintro w ⟨value, -, hw⟩
    exact .inr ⟨value, hw⟩
  · exact fun s => .single ((once_fetch call hpath s).mono fun w hw => .inl hw)

end

end BitRelay
