import BitRelay.Logs.Writing
import Mathlib.Data.List.Induction

/-!
# Callbacks of one run

A trigger callback names the message that it publishes after its `external_id`, unless it brings an
`id` of its own. All callbacks of one run of a job then have the same message id, and the room log
takes the first of them only. Callbacks without both ids get a fresh UUID each.

Results:
1. `serve_callback`, `answered_callback`: which callbacks are answered with 200, and what they do.
2. `log_callbacks`: the room log after callbacks with the same `external_id`.
3. `callbacks_visible_iff`: the last status is shown, in order, exactly if there is no
   `external_id` or the last status is the first one.
4. `last_status_lost`: a run whose last status is not shown.
-/

namespace BitRelay

section
variable {C : Type}

/-! ## Definitions -/

/-- A callback for the room that is answered with 200, with this `external_id` and without an
`id`. -/
structure AcceptedCallback (R : Relay C) (room externalId : String) extends Call where
  fields : List (String × JsonValue)
  input : CallbackInput
  path : toCall.request.pathname = Endpoint.triggerCallback.path
  method : toCall.request.method = "POST"
  authorized : checkAuth R toCall.request = none
  body : toCall.request.body.json = some (.obj fields)
  admitted : parseCallback R toCall.request toCall.env (.obj fields) = .ok input
  toRoom : input.room = room
  external : (JsonValue.obj fields).strField "external_id" = externalId
  unnamed : trim ((JsonValue.obj fields).strField "id") = ""

/-- A request for the results of the room from cursor 0. -/
structure ReadsResults (R : Relay C) (request : Request) (room : String) : Prop where
  path : request.pathname = Endpoint.triggerResults.path
  method : request.method = "GET"
  authorized : checkAuth R request = none
  named : normalizeRoom (request.param "room") = room
  valid : isValidRoomName room = true
  roomToken : checkRoomToken R request room = none
  start : normalizeAfter (request.param "after") 0 = 0

def payloadOf (item : JsonValue) : JsonValue := (item.get? "payload").getD .null

/-- The payloads of the entries that a response lists. -/
def shownPayloads (response : Response) : List JsonValue :=
  ((response.body.arrField? "results").getD []).map payloadOf

variable {R : Relay C} {room externalId : String} {request : Request} {env : Env}
  {s : ServiceState C}

/-- The status that a callback reports. -/
def AcceptedCallback.status (c : AcceptedCallback R room externalId) : String :=
  R.platform.toLowerCase (trim ((JsonValue.obj c.fields).strField "status"))

/-- The message of a callback. -/
def AcceptedCallback.envelope (c : AcceptedCallback R room externalId) : Envelope where
  room
  id := c.input.envelopeId
  sender := "ci:callback"
  topic := "ci.result"
  payload := c.input.payload
  signature := none

namespace CallbackLemmas

/-! ## One callback -/

theorem parseCallback_fields {fields : List (String × JsonValue)} {input : CallbackInput}
    (h : parseCallback R request env (.obj fields) = .ok input)
    (hid : trim ((JsonValue.obj fields).strField "id") = "") :
    input.payload.strField "status" =
        R.platform.toLowerCase (trim ((JsonValue.obj fields).strField "status")) ∧
      input.envelopeId = if trim ((JsonValue.obj fields).strField "external_id") ≠ ""
        then "ci-" ++ trim ((JsonValue.obj fields).strField "external_id")
        else "ci-" ++ env.randomUUID := by
  unfold parseCallback at h
  simp only at h
  generalize (if trim ((JsonValue.obj fields).strField "room") ≠ "" then _ else _) = room at h
  generalize trim ((JsonValue.obj fields).strField "ref") = ref at h
  generalize R.platform.toLowerCase (trim ((JsonValue.obj fields).strField "status")) = status at h
  by_cases href : ref = ""
  · rw [if_pos href] at h
    cases h
  rw [if_neg href] at h
  by_cases hstatus : status = ""
  · rw [if_pos hstatus] at h
    cases h
  rw [if_neg hstatus] at h
  by_cases hvalid : isValidRoomName room = false
  · rw [if_pos hvalid] at h
    cases h
  rw [if_neg hvalid] at h
  cases htoken : checkRoomToken R request room with
  | some response =>
    simp only [htoken] at h
    cases h
  | none =>
    simp only [htoken, hid, ne_eq, not_true_eq_false, if_false] at h
    rw [← Except.ok.inj h]
    constructor
    · rfl
    · simp only [ne_eq]

end CallbackLemmas

open CallbackLemmas

theorem AcceptedCallback.envelopeId_eq (c : AcceptedCallback R room externalId) :
    c.input.envelopeId = if trim externalId ≠ "" then "ci-" ++ trim externalId
      else "ci-" ++ c.env.randomUUID := by
  rw [(parseCallback_fields c.admitted c.unnamed).2, c.external]

theorem AcceptedCallback.status_eq (c : AcceptedCallback R room externalId) :
    c.input.payload.strField "status" = c.status :=
  (parseCallback_fields c.admitted c.unnamed).1

namespace CallbackLemmas

/-- A callback that passes its checks. -/
theorem serve_admitted {fields : List (String × JsonValue)} {input : CallbackInput}
    (hpath : request.pathname = Endpoint.triggerCallback.path) (hmethod : request.method = "POST")
    (hauth : checkAuth R request = none) (hbody : request.body.json = some (.obj fields))
    (hparse : parseCallback R request env (.obj fields) = .ok input) (s : ServiceState C) :
    serve R request env s =
      (input.toResponse (s.write R (input.write R)).1,
        ((s.write R (input.write R)).2).persistResult R (s.write R (input.write R)).1) := by
  have hendpoint : Endpoint.ofPath request.pathname = some .triggerCallback := by
    rw [hpath]
    rfl
  have hpost : (requireMethod request "POST" : Handler C Unit) = pure () := by
    unfold requireMethod Proc.failIf
    rw [if_neg (not_not.mpr hmethod)]
  have hobject : (requireObject request : Handler C JsonValue) = pure (.obj fields) := by
    unfold requireObject
    rw [hbody]
  rw [serve_endpoint hendpoint]
  unfold Endpoint.guarded Endpoint.handle handleTriggerCallback
  dsimp only
  rw [hauth, hpost, hobject]
  simp only [pure_bind, hparse]
  rfl

/-- What the write of a callback does to the log of its room. -/
theorem write_callback (input : CallbackInput) (s : ServiceState C) :
    (s.write R (input.write R)).1.status = 200 ∧
      ((s.Holds input.room input.envelopeId ∧ SameLog s (s.write R (input.write R)).2) ∨
        Appended R (input.write R) s (s.write R (input.write R)).2) := by
  rcases write_cases R (input.write R) s with
    ⟨htopic, -, -⟩ | ⟨-, hholds, hresult, hsame⟩ | ⟨cursor, hresult, happended⟩
  · exact absurd htopic (show isValidTopic "ci.result" ≠ false by decide)
  · exact ⟨by rw [hresult]; rfl, .inl ⟨hholds, hsame⟩⟩
  · exact ⟨by rw [hresult]; rfl, .inr happended⟩

end CallbackLemmas

/-- A callback is answered with 200, and its message is appended unless its id is in the log. -/
theorem serve_callback (c : AcceptedCallback R room externalId) (s : ServiceState C) :
    (serve R c.request c.env s).1.status = 200 ∧
      ((s.Holds room c.input.envelopeId ∧
          ((serveCall R s c.toCall).roomOf room).messages = (s.roomOf room).messages) ∨
        (¬ s.Holds room c.input.envelopeId ∧
          ((serveCall R s c.toCall).roomOf room).messages =
            pushMessage (s.roomOf room).messages c.envelope R.config.maxMessagesPerRoom)) := by
  have henvelope : (c.input.write R).envelope = c.envelope := by
    unfold Write.envelope AcceptedCallback.envelope CallbackInput.write
    dsimp only
    rw [c.toRoom]
    rfl
  have hserve := serve_admitted c.path c.method c.authorized c.body c.admitted s
  have hpersist := persistResult_sameLog (R := R) (s.write R (c.input.write R)).1
    (s.write R (c.input.write R)).2
  obtain ⟨hstatus, hlog⟩ := write_callback (R := R) c.input s
  unfold serveCall
  rw [hserve]
  rcases hlog with ⟨hholds, hsame⟩ | happended
  · rw [c.toRoom] at hholds
    exact ⟨hstatus, .inl ⟨hholds, (hpersist.messages room).trans (hsame.messages room)⟩⟩
  · have hroom : (c.input.write R).room = room := c.toRoom
    have hfresh : ¬ s.Holds (c.input.write R).room c.input.envelopeId := happended.fresh
    have hmessages := happended.messages
    rw [hroom] at hfresh
    rw [hroom, henvelope] at hmessages
    exact ⟨hstatus, .inr ⟨hfresh, (hpersist.messages room).trans hmessages⟩⟩

namespace CallbackLemmas

theorem checkAuth_refuses {response : Response} (h : checkAuth R request = some response) :
    response.status ≠ 200 := by
  unfold checkAuth at h
  simp only at h
  split at h
  · cases h
    decide
  · cases h

theorem parseCallback_refuses {parsed : JsonValue} {response : Response}
    (h : parseCallback R request env parsed = .error response) : response.status ≠ 200 := by
  unfold parseCallback at h
  simp only at h
  generalize (if trim (parsed.strField "room") ≠ "" then _ else _) = room at h
  split at h
  · cases h
    decide
  split at h
  · cases h
    decide
  split at h
  · cases h
    decide
  · rcases checkRoomToken_cases R request room with hnone | hsome
    · simp only [hnone] at h
      cases h
    · simp only [hsome] at h
      cases h
      decide

end CallbackLemmas

/-- A callback is answered with 200 exactly if it passes its checks, whatever the state is. -/
theorem answered_callback (hpath : request.pathname = Endpoint.triggerCallback.path)
    (hmethod : request.method = "POST") (env : Env) (s : ServiceState C) :
    (serve R request env s).1.status = 200 ↔
      checkAuth R request = none ∧ ∃ fields input, request.body.json = some (.obj fields) ∧
        parseCallback R request env (.obj fields) = .ok input := by
  constructor
  · have hendpoint : Endpoint.ofPath request.pathname = some .triggerCallback := by
      rw [hpath]
      rfl
    rw [serve_endpoint hendpoint, serve_response]
    unfold Endpoint.guarded Endpoint.handle handleTriggerCallback requireMethod requireObject
    rw [Proc.run_bind]
    cases hauth : checkAuth R request with
    | some response =>
      intro hstatus
      exact absurd hstatus (checkAuth_refuses hauth)
    | none =>
      simp only [Proc.run_failWith_none, Proc.run_bind, Proc.run_failIf, hmethod, ne_eq,
        not_true_eq_false, if_false]
      cases hjson : request.body.json with
      | none => exact fun hstatus => absurd hstatus (show 400 ≠ 200 by decide)
      | some parsed =>
        cases parsed with
        | obj fields =>
          simp only [Proc.run_pure]
          cases hparse : parseCallback R request env (.obj fields) with
          | error response =>
            intro hstatus
            exact absurd hstatus (parseCallback_refuses hparse)
          | ok input => exact fun _ => ⟨trivial, fields, input, rfl, hparse⟩
        | null | bool _ | num _ | str _ | arr _ =>
          exact fun hstatus => absurd hstatus (show 400 ≠ 200 by decide)
  · rintro ⟨hauth, fields, input, hbody, hparse⟩
    rw [serve_admitted hpath hmethod hauth hbody hparse s]
    exact (write_callback input s).1

/-! ## Callbacks one after another -/

namespace CallbackLemmas

/-- A callback with an `external_id` finds its id in a log that is not empty. -/
theorem log_named (hexternal : trim externalId ≠ "") (hcap : 0 < R.config.maxMessagesPerRoom)
    {s : ServiceState C} (hempty : (s.roomOf room).messages = [])
    (callbacks : List (AcceptedCallback R room externalId)) :
    ((runFrom (serveCall R) s (callbacks.map (·.toCall))).roomOf room).messages =
      (callbacks.take 1).map (·.envelope) := by
  induction callbacks using List.reverseRecOn with
  | nil => exact hempty
  | append_singleton before c ih =>
    rw [List.map_append, List.map_singleton, runFrom_concat]
    generalize runFrom (serveCall R) s (before.map (·.toCall)) = s' at ih ⊢
    rcases (serve_callback c s').2 with ⟨hholds, hmessages⟩ | ⟨hfresh, hmessages⟩
    · rw [hmessages, ih]
      cases before with
      | nil =>
        obtain ⟨m, hm, -⟩ := hholds
        rw [ih] at hm
        exact absurd hm List.not_mem_nil
      | cons first rest => rfl
    · cases before with
      | nil =>
        rw [hmessages, ih]
        unfold pushMessage
        simp only [List.take_nil, List.map_nil, List.nil_append, List.length_singleton]
        rw [Nat.sub_eq_zero_of_le hcap, List.drop_zero]
        rfl
      | cons first rest =>
        -- The first callback has the same id.
        refine absurd ⟨first.envelope, ?_, ?_⟩ hfresh
        · rw [ih]
          exact List.mem_singleton_self _
        · show first.input.envelopeId = c.input.envelopeId
          rw [first.envelopeId_eq, c.envelopeId_eq, if_pos hexternal, if_pos hexternal]

/-- Callbacks with fresh ids are all appended. -/
theorem log_unnamed (hexternal : trim externalId = "") {s : ServiceState C}
    (hempty : (s.roomOf room).messages = [])
    (callbacks : List (AcceptedCallback R room externalId))
    (hcap : callbacks.length ≤ R.config.maxMessagesPerRoom)
    (huuid : (callbacks.map (·.env.randomUUID)).Nodup) :
    ((runFrom (serveCall R) s (callbacks.map (·.toCall))).roomOf room).messages =
      callbacks.map (·.envelope) := by
  induction callbacks using List.reverseRecOn with
  | nil => exact hempty
  | append_singleton before c ih =>
    rw [List.length_append, List.length_singleton] at hcap
    rw [List.map_append, List.map_singleton, List.nodup_append] at huuid
    obtain ⟨hbefore, -, hapart⟩ := huuid
    specialize ih (by omega) hbefore
    rw [List.map_append, List.map_singleton, runFrom_concat]
    generalize runFrom (serveCall R) s (before.map (·.toCall)) = s' at ih ⊢
    rcases (serve_callback c s').2 with ⟨⟨m, hm, hid⟩, -⟩ | ⟨-, hmessages⟩
    · rw [ih] at hm
      obtain ⟨c', hc', rfl⟩ := List.mem_map.mp hm
      refine absurd ?_ (hapart _ (List.mem_map_of_mem hc') _ (List.mem_singleton_self _))
      have hids : "ci-" ++ c'.env.randomUUID = "ci-" ++ c.env.randomUUID := by
        have heq : c'.input.envelopeId = c.input.envelopeId := hid
        rwa [c'.envelopeId_eq, c.envelopeId_eq, if_neg (not_not.mpr hexternal),
          if_neg (not_not.mpr hexternal)] at heq
      exact String.append_right_inj _ |>.mp hids
    · rw [hmessages, ih]
      unfold pushMessage
      have hfits : (before.map (·.envelope) ++ [c.envelope]).length -
          R.config.maxMessagesPerRoom = 0 := by
        rw [List.length_append, List.length_map, List.length_singleton]
        omega
      simp only [hfits, List.drop_zero, List.map_append, List.map_singleton]

end CallbackLemmas

/-- The callbacks whose messages are new to the room log: one of an `external_id`. -/
def keptCallbacks (callbacks : List (AcceptedCallback R room externalId)) :
    List (AcceptedCallback R room externalId) :=
  if trim externalId = "" then callbacks else callbacks.take 1

theorem log_callbacks {s : ServiceState C} (hempty : (s.roomOf room).messages = [])
    (callbacks : List (AcceptedCallback R room externalId))
    (hcap : (keptCallbacks callbacks).length ≤ R.config.maxMessagesPerRoom)
    (huuid : trim externalId = "" → (callbacks.map (·.env.randomUUID)).Nodup) :
    ((runFrom (serveCall R) s (callbacks.map (·.toCall))).roomOf room).messages =
      (keptCallbacks callbacks).map (·.envelope) := by
  unfold keptCallbacks at hcap ⊢
  by_cases hexternal : trim externalId = ""
  · rw [if_pos hexternal] at hcap ⊢
    exact log_unnamed hexternal hempty callbacks hcap (huuid hexternal)
  · rw [if_neg hexternal] at hcap ⊢
    cases callbacks with
    | nil => exact hempty
    | cons first rest => exact log_named hexternal hcap hempty _

/-! ## The results -/

namespace CallbackLemmas

theorem payloadOf_sanitized (cursor : Nat) (envelope : Envelope) :
    payloadOf (.obj (("cursor", .ofNat cursor) :: sanitizeEnvelope envelope)) =
      envelope.payload := by
  rfl

/-- The loop lists all messages of callbacks as long as they are within the limit. -/
theorem payloads_triggerLoop {limit : Nat} {messages : List Envelope}
    (htopic : ∀ m ∈ messages, m.topic = "ci.result") (i : Nat) (results : List JsonValue)
    (next : Nat) (hlimit : results.length + messages.length ≤ limit) :
    (triggerLoop limit messages i results next).1.map payloadOf =
      results.map payloadOf ++ messages.map (·.payload) := by
  induction messages generalizing i results next with
  | nil => simp only [triggerLoop, List.map_nil, List.append_nil]
  | cons m rest ih =>
    obtain ⟨hm, hrest⟩ := List.forall_mem_cons.mp htopic
    rw [List.length_cons] at hlimit
    unfold triggerLoop
    rw [if_neg (not_not.mpr hm)]
    dsimp only
    have hlisted :
        (results ++ [JsonValue.obj (("cursor", .ofNat (i + 1)) :: sanitizeEnvelope m)]).map payloadOf =
          results.map payloadOf ++ [m.payload] := by
      rw [List.map_append, List.map_singleton, payloadOf_sanitized]
    by_cases hfull : limit ≤ (results ++
        [JsonValue.obj (("cursor", .ofNat (i + 1)) :: sanitizeEnvelope m)]).length
    · -- The limit is reached with the last message only.
      rw [if_pos hfull]
      rw [List.length_append, List.length_singleton] at hfull
      have hlast : rest = [] := List.length_eq_zero_iff.mp (by omega)
      rw [hlisted, hlast]
      rfl
    · rw [if_neg hfull, ih hrest, hlisted, List.append_assoc]
      · rfl
      · rw [List.length_append, List.length_singleton]
        omega

/-- The payloads that the results show are those of the room log. -/
theorem shown_of_log (hreads : ReadsResults R request room) {s : ServiceState C}
    {messages : List Envelope} (hlog : (s.roomOf room).messages = messages)
    (htopic : ∀ m ∈ messages, m.topic = "ci.result")
    (hlimit : messages.length ≤ normalizeLimit (request.param "limit") 100) :
    shownPayloads (serve R request env s).1 = messages.map (·.payload) := by
  have hendpoint : Endpoint.ofPath request.pathname = some .triggerResults := by
    rw [hreads.path]
    rfl
  have hget : (requireMethod request "GET" : Handler C Unit) = pure () := by
    unfold requireMethod Proc.failIf
    rw [if_neg (not_not.mpr hreads.method)]
  have hroom : (requireRoom R request : Handler C String) = pure room := by
    have hopen : ¬ isValidRoomName room = false := by
      rw [hreads.valid]
      decide
    unfold requireRoom Proc.failIf
    dsimp only
    rw [hreads.named, if_neg hopen, hreads.roomToken]
    rfl
  have hbody : (serve R request env s).1.body.arrField? "results" =
      some (triggerLoop (normalizeLimit (request.param "limit") 100) messages 0 [] 0).1 := by
    rw [serve_endpoint hendpoint]
    unfold Endpoint.guarded Endpoint.handle handleTriggerResults
    dsimp only
    rw [hreads.authorized, hget, hroom, hreads.start, ← hlog]
    rfl
  unfold shownPayloads
  rw [hbody, Option.getD_some, payloads_triggerLoop htopic 0 [] 0]
  · rfl
  · rwa [List.length_nil, Nat.zero_add]

end CallbackLemmas

/-- What the results show after the callbacks. -/
theorem shown_callbacks {s : ServiceState C} (hempty : (s.roomOf room).messages = [])
    (callbacks : List (AcceptedCallback R room externalId))
    (hcap : (keptCallbacks callbacks).length ≤ R.config.maxMessagesPerRoom)
    (huuid : trim externalId = "" → (callbacks.map (·.env.randomUUID)).Nodup)
    (hreads : ReadsResults R request room)
    (hlimit : (keptCallbacks callbacks).length ≤ normalizeLimit (request.param "limit") 100)
    (env : Env) :
    shownPayloads (serve R request env
        (runFrom (serveCall R) s (callbacks.map (·.toCall)))).1 =
      (keptCallbacks callbacks).map (·.input.payload) := by
  rw [shown_of_log hreads (log_callbacks hempty callbacks hcap huuid), List.map_map]
  · rfl
  · intro m hm
    obtain ⟨c, -, rfl⟩ := List.mem_map.mp hm
    rfl
  · rwa [List.length_map]

/-- The results show the last status, and the callbacks in their order, exactly if the callbacks
come without an `external_id` or the last status is the first one. -/
theorem callbacks_visible_iff {s : ServiceState C} (hempty : (s.roomOf room).messages = [])
    (callbacks : List (AcceptedCallback R room externalId))
    (hcap : (keptCallbacks callbacks).length ≤ R.config.maxMessagesPerRoom)
    (huuid : trim externalId = "" → (callbacks.map (·.env.randomUUID)).Nodup)
    (hreads : ReadsResults R request room)
    (hlimit : (keptCallbacks callbacks).length ≤ normalizeLimit (request.param "limit") 100)
    (env : Env) :
    let shown := shownPayloads (serve R request env
      (runFrom (serveCall R) s (callbacks.map (·.toCall)))).1
    ((∀ last, callbacks.getLast? = some last →
        ∃ payload ∈ shown, payload.strField "status" = last.status) ∧
      shown.Sublist (callbacks.map (·.input.payload))) ↔
      trim externalId = "" ∨ ∀ first last, callbacks.head? = some first →
        callbacks.getLast? = some last → first.status = last.status := by
  intro shown
  have hshown : shown = (keptCallbacks callbacks).map (·.input.payload) :=
    shown_callbacks hempty callbacks hcap huuid hreads hlimit env
  have horder : (keptCallbacks callbacks).Sublist callbacks := by
    unfold keptCallbacks
    split
    · exact List.Sublist.refl _
    · exact List.take_sublist _ _
  have hstatus : ∀ status, (∃ payload ∈ shown, payload.strField "status" = status) ↔
      ∃ c ∈ keptCallbacks callbacks, c.status = status := by
    intro status
    rw [hshown]
    constructor
    · rintro ⟨payload, hpayload, hstatus⟩
      obtain ⟨c, hc, rfl⟩ := List.mem_map.mp hpayload
      exact ⟨c, hc, c.status_eq.symm.trans hstatus⟩
    · rintro ⟨c, hc, hstatus⟩
      exact ⟨_, List.mem_map_of_mem hc, c.status_eq.trans hstatus⟩
  have hordered : shown.Sublist (callbacks.map (·.input.payload)) := hshown ▸ horder.map _
  simp only [hstatus, hordered, and_true]
  by_cases hexternal : trim externalId = ""
  · refine iff_of_true (fun last hlast => ⟨last, ?_, rfl⟩) (.inl hexternal)
    unfold keptCallbacks
    rw [if_pos hexternal]
    exact List.mem_of_getLast? hlast
  · rw [or_iff_right hexternal]
    unfold keptCallbacks
    simp only [if_neg hexternal]
    cases callbacks with
    | nil =>
      exact iff_of_true (fun last hlast => by cases hlast) fun first _ hfirst => by cases hfirst
    | cons first rest =>
      constructor
      · intro h first' last hfirst hlast
        obtain ⟨c, hc, hcstatus⟩ := h last hlast
        rw [← Option.some.inj hfirst, ← hcstatus, List.mem_singleton.mp hc]
      · intro h last hlast
        exact ⟨first, List.mem_singleton_self _, h first last rfl hlast⟩

end

/-! ## A run whose end is not shown -/

/-- The body of a callback of the run `run-1`. -/
def runFields (status : String) : List (String × JsonValue) :=
  [("ref", .str "refs/relay/incoming/main/job"), ("status", .str status),
    ("external_id", .str "run-1")]

/-- A callback of the run `run-1`, on the toy host. -/
def runCallback (status : String) : Request where
  method := "POST"
  pathname := "/api/v1/trigger/callback"
  query := []
  headers := []
  body := Platform.toy.stringify (.obj (runFields status))

def resultsRequest : Request where
  method := "GET"
  pathname := "/api/v1/trigger/results"
  query := [("room", "main")]
  headers := []
  body := ⟨"", none⟩

/-- The callback `queued` of the run. -/
def queuedRun : AcceptedCallback (.toy .default) "main" "run-1" where
  request := runCallback "queued"
  env := .at 0
  fields := runFields "queued"
  input := {
    room := "main"
    ref := "refs/relay/incoming/main/job"
    status := "queued"
    envelopeId := "ci-run-1"
    payload := .obj [
      ("source", .str "ci"),
      ("ref", .str "refs/relay/incoming/main/job"),
      ("status", .str "queued"),
      ("logs_url", .str ""),
      ("artifact_url", .str ""),
      ("external_id", .str "run-1"),
      ("provider", .str ""),
      ("received_at", .ofInt 0)] }
  path := rfl
  method := rfl
  authorized := by decide
  body := by decide +kernel
  admitted := by rfl
  toRoom := rfl
  external := by decide
  unnamed := by decide

/-- Two callbacks of one run, `queued` and `success`: both are answered with 200, and the results
show `queued` only. -/
theorem last_status_lost :
    let R := Relay.toy .default
    let first := serve R (runCallback "queued") (.at 0) (.init ())
    let second := serve R (runCallback "success") (.at 1000) first.2
    first.1.status = 200 ∧ second.1.status = 200 ∧
      (shownPayloads (serve R resultsRequest (.at 2000) second.2).1).map
        (·.strField "status") = ["queued"] := by
  decide +kernel

/-- A run whose last callback repeats the first one is shown. -/
theorem callbacks_visible_iff_repeated :
    let R := Relay.toy .default
    let calls := [queuedRun, queuedRun].map (·.toCall)
    ∃ payload ∈ shownPayloads (serve R resultsRequest (.at 0)
        (runFrom (serveCall R) (.init ()) calls)).1, payload.strField "status" = "queued" :=
  ((callbacks_visible_iff (s := .init ()) rfl [queuedRun, queuedRun] (by decide)
    (fun h => absurd h (by decide))
    ⟨rfl, rfl, by decide, by decide, by decide, by decide, by decide⟩ (by decide) (.at 0)).mpr
      (.inr fun first last hfirst hlast => by
        rw [← Option.some.inj hfirst, ← Option.some.inj hlast]
        rfl)).1 queuedRun rfl

end BitRelay
