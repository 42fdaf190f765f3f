import BitRelay.Logs.System

/-!
# Where a message comes from

A segment of a push writes the entry in front of those that it has still to take, under the origin
and the hop count that came with it. Every other segment writes a message of the relay itself, if it
writes one.

Results:
1. `sourced_fetchBegin`, `sourced_resume`: what a segment writes, and where it comes from.
2. `serves_arrive`, `serves_resume`: the same for a step of a relay with requests in flight.
-/

namespace BitRelay

/-! ## Entries ahead -/

/-- The entries in the body of a push. -/
def pushedEntries (request : Request) : List JsonValue :=
  (request.body.json.bind (JsonValue.arrField? · "entries")).getD []

/-- The entries that a push in flight has still to take; the other requests take none. -/
def Writing.ahead (request : Request) : Writing → Option (List JsonValue)
  | .pushBody => some (pushedEntries request)
  | .pushPersist _ rest _ _ => some rest
  | _ => none

def WritingProgress.ahead (request : Request) : WritingProgress → Option (List JsonValue)
  | .inl _ => none
  | .inr writing => writing.ahead request

section
variable {C : Type} (R : Relay C) (request : Request)

/-- What a segment has written, if it had these entries ahead. -/
inductive Sourced (ahead : List JsonValue) (s s' : ServiceState C) : WritingProgress → Prop
  | own {progress : WritingProgress} (hahead : progress.ahead request = none)
      (h : LogStep R (LocalWrite R) s s') : Sourced ahead s s' progress
  | entry {value : JsonValue} {rest : List JsonValue} {i : Nat} {counts : PushCounts}
      {incoming : IncomingExchangeEntry} {w : Write} (hahead : value :: rest <:+ ahead)
      (hw : PushedWrite R value incoming w) (h : Appended R w s s') :
      Sourced ahead s s' (.inr (.pushPersist value rest i counts))

/-- The computation is such a segment. -/
def TakesFrom (ahead : List JsonValue) (x : Handler C WritingProgress) : Prop :=
  ∀ s, Proc.Triple (SameLog s) x (fun progress s' => Sourced R request ahead s s' progress)
    (SameLog s)

/-- How a request arrives: a push waits for its body, and the others begin. -/
def Arrives (s s' : ServiceState C) (progress : WritingProgress) : Prop :=
  Sourced R request [] s s' progress ∨
  request.pathname = Endpoint.cacheExchangePush.path ∧ progress = .inr .pushBody ∧ SameLog s s'

variable {R} {request} {s s' : ServiceState C} {ahead : List JsonValue}
  {progress : WritingProgress}

namespace SourceLemmas

open WritingLemmas

/-! ## Messages of the relay -/

theorem sourced_same (hahead : progress.ahead request = none) (h : SameLog s s') :
    Sourced R request ahead s s' progress :=
  .own hahead (.same h)

theorem takesFrom_silent {α : Type} {x : Handler C α} {f : α → WritingProgress} (h : Silent x)
    (hahead : ∀ a, (f a).ahead request = none) :
    TakesFrom R request ahead (x >>= fun a => pure (f a)) :=
  fun _ => (triple_silent h).bind fun a => Proc.Triple.pure fun _ hs => sourced_same (hahead a) hs

theorem takesFrom_pure (h : progress.ahead request = none) :
    TakesFrom R request ahead (pure progress) :=
  fun _ => Proc.Triple.pure fun _ hs => sourced_same h hs

theorem triple_publishOwn {w : Write} (hw : LocalWrite R w) {E : ServiceState C → Prop} :
    Proc.Triple (SameLog s) (publishAndHand R w) (fun _ s' => LogStep R (LocalWrite R) s s') E := by
  refine (triple_publishAndHand w).conseq (fun _ hs => hs) (fun result s' hs => ?_) fun _ h => h
  rcases hs with ⟨-, hsame⟩ | ⟨cursor, -, happended⟩
  · exact .same hsame
  · exact .appended w hw happended

theorem ahead_answerOrWait {result : PublishResult} {response : Response} {writing : Writing}
    (h : writing.ahead request = none) :
    WritingProgress.ahead request (answerOrWait result response writing) = none := by
  unfold answerOrWait
  split
  · exact h
  · rfl

theorem takesFrom_publish {w : Write} (hw : LocalWrite R w) {response : PublishResult → Response}
    {writing : PublishResult → Writing} (hahead : ∀ result, (writing result).ahead request = none)
    (s : ServiceState C) :
    Proc.Triple (SameLog s) (publishAndHand R w >>= fun result =>
        pure (answerOrWait result (response result) (writing result)))
      (fun progress s' => Sourced R request ahead s s' progress) (SameLog s) :=
  (triple_publishOwn hw).bind fun result => Proc.Triple.pure fun _ hs =>
    .own (ahead_answerOrWait (hahead result)) hs

theorem triple_applyOwn (event deliveryId : String) (requestBody : Body)
    {E : ServiceState C → Prop} :
    Proc.Triple (SameLog s) (applyBegin R event deliveryId requestBody)
      (fun _ s' => LogStep R (LocalWrite R) s s') E := by
  refine Proc.Triple.bind (Proc.Triple.gets _) fun checked => ?_
  cases checked with
  | error result => exact Proc.Triple.pure fun _ hs => .same hs.2
  | ok mapped =>
    intro s₁ hs
    obtain ⟨hroom, hid, hsender⟩ := WriteLemmas.checkDelivery_fields hs.1
    have hlocal : LocalWrite R (mapped.write R) := ⟨hroom, hid, hsender, rfl, rfl, rfl⟩
    have hpublish : Proc.Triple (SameLog s) (publishAndHand R (mapped.write R) >>= fun result =>
        pure (Sum.inr (mapped, result) : IssueSyncApplyResult ⊕ _))
        (fun _ s' => LogStep R (LocalWrite R) s s') E :=
      (triple_publishOwn hlocal).bind fun _ => Proc.Triple.pure fun _ h => h
    exact hpublish s₁ hs.2

/-! ## Entries of a push -/

/-- An entry is counted as accepted when it is written. -/
theorem triple_importedEntry {incoming : IncomingExchangeEntry} (counts : PushCounts)
    {E : ServiceState C → Prop} :
    Proc.Triple (SameLog s) (importEntry R incoming counts)
      (fun counts' s' => counts'.accepted = counts.accepted ∧ SameLog s s' ∨
        counts'.accepted ≠ counts.accepted ∧ Appended R incoming.write s s') E := by
  refine Proc.Triple.bind (Q := fun _ => SameLog s) (Proc.Triple.update fun s₁ hs =>
    hs.trans (.of_messages rfl)) fun existing => ?_
  cases existing with
  | some existing =>
    refine Proc.Triple.pure fun s' hs => .inl ⟨?_, hs⟩
    cases classifyCacheExchangeCollision R.platform existing incoming.envelope with
    | duplicate => rfl
    | conflict => rfl
  | none =>
    show Proc.Triple (SameLog s) (publishAndHand R incoming.write >>= fun result =>
      pure (counts.record result)) _ E
    refine (triple_publishAndHand incoming.write).bind fun result => Proc.Triple.pure fun s' hs => ?_
    rcases hs with ⟨hrefused, hsame⟩ | ⟨cursor, rfl, happended⟩
    · refine .inl ⟨?_, hsame⟩
      cases result with
      | accepted envelope cursor => cases hrefused
      | known cursor => rfl
      | invalidTopic topic => rfl
    · exact .inr ⟨Nat.succ_ne_self _, happended⟩

theorem triple_takenEntry (request : Request) (i : Nat) (value : JsonValue) (counts : PushCounts) :
    Proc.Triple (SameLog s) (pushEntry R request i value counts)
      (fun counts' s' => counts'.accepted = counts.accepted ∧ SameLog s s' ∨
        counts'.accepted ≠ counts.accepted ∧
          ∃ incoming w, PushedWrite R value incoming w ∧ Appended R w s s') (SameLog s) := by
  refine (Proc.Triple.ofExcept fun _ hs => hs).bind fun incoming => Proc.Triple.of_fact fun hread => ?_
  cases hname : refusesEntryName incoming with
  | some reason => exact Proc.Triple.pure fun _ hs => .inl ⟨rfl, hs⟩
  | none =>
    refine (Proc.Triple.failWith fun _ hs => hs).bind fun _ => Proc.Triple.of_fact fun _ => ?_
    cases hhops : refusesEntryHops R incoming with
    | some reason => exact Proc.Triple.pure fun _ hs => .inl ⟨rfl, hs⟩
    | none =>
      refine (triple_importedEntry counts).conseq (fun _ hs => hs) (fun counts' s' hs => ?_)
        fun _ h => h
      have hpushed : PushedWrite R value incoming incoming.write :=
        ⟨mapError_eq_ok hread, hname, hhops, rfl⟩
      exact hs.imp_right fun ⟨haccepted, happended⟩ =>
        ⟨haccepted, incoming, incoming.write, hpushed, happended⟩

/-- The loop stops behind the first entry that is written. -/
theorem takesFrom_pushUntilAccepted (request : Request) (entries : List JsonValue)
    (hentries : entries <:+ ahead) (i : Nat) (counts : PushCounts) :
    TakesFrom R request ahead (pushUntilAccepted R request entries i counts) := by
  intro s
  induction entries generalizing i counts with
  | nil =>
    exact (Proc.Triple.gets _).bind fun cursor => Proc.Triple.pure fun s' hs =>
      sourced_same rfl hs.2
  | cons value rest ih =>
    refine (triple_takenEntry request i value counts).bind fun counts' => ?_
    refine Proc.Triple.ite (fun heq => ?_) fun hne => Proc.Triple.pure fun s' hs => ?_
    · have hrest := ih ((List.suffix_cons value rest).trans hentries) (i + 1) counts'
      refine hrest.conseq (fun s' hs => ?_) (fun _ _ h => h) fun _ h => h
      exact hs.elim And.right fun h => absurd heq h.1
    · rcases hs with ⟨heq, -⟩ | ⟨-, incoming, w, hw, happended⟩
      · exact absurd heq hne
      · exact .entry hentries hw happended

/-- The body of a push is read as its entries. -/
theorem takesFrom_pushBody (request : Request) (env : Env) :
    TakesFrom R request (pushedEntries request) (Writing.pushBody.resume R request env) := by
  intro s
  show Proc.Triple _ (requireObject request >>= fun parsed => requireEntries parsed >>= fun entries =>
    pushUntilAccepted R request entries 0 .zero) _ _
  unfold requireObject
  split
  · next fields hjson =>
    refine Proc.Triple.bind (Q := fun entries s' =>
      (JsonValue.obj fields).arrField? "entries" = some entries ∧ SameLog s s') ?_ fun entries =>
        Proc.Triple.of_fact fun hentries => ?_
    · unfold requireEntries
      cases (JsonValue.obj fields).arrField? "entries" with
      | none => exact Proc.Triple.answer fun _ hs => hs
      | some entries => exact Proc.Triple.pure fun _ hs => ⟨rfl, hs⟩
    · refine takesFrom_pushUntilAccepted request entries ?_ 0 .zero s
      unfold pushedEntries
      rw [hjson, Option.bind_some, hentries]
      exact List.suffix_rfl
  · exact Proc.Triple.answer fun _ hs => hs

end SourceLemmas

open SourceLemmas WritingLemmas

/-- A segment of a request in flight. -/
theorem sourced_resume (request : Request) {env : Env} (huuid : FreeText env.randomUUID)
    {writing : Writing} (h : writing.Proper) :
    TakesFrom R request ((writing.ahead request).getD []) (writing.resume R request env) := by
  cases writing with
  | publishBody input =>
    exact takesFrom_silent (silent_of_leads (leads_publishBegin trivial input env)) fun _ => rfl
  | publishVerify input payload pending =>
    refine takesFrom_silent (x := finishSignatureVerification R pending) ?_ fun _ => rfl
    cases pending with
    | none => exact silent_pure _
    | some pending => exact silent_of_leads (leads_finishSignature trivial pending)
  | publishReturn input payload pending =>
    obtain ⟨hroom, hid, hsender⟩ := h
    have hlocal : LocalWrite R (input.write R payload pending) :=
      ⟨hroom, hid, hsender, rfl, rfl, rfl⟩
    exact takesFrom_publish hlocal fun _ => rfl
  | publishPersist result => exact takesFrom_pure rfl
  | callbackBody =>
    intro s
    refine (triple_leads (leads_requireObject R _)).bind fun parsed =>
      (Proc.Triple.ofExcept fun _ hs => hs).bind fun input => Proc.Triple.of_fact fun hinput => ?_
    have hlocal : LocalWrite R (input.write R) :=
      ⟨(parseCallback_ok R hinput).2.1, WriteLemmas.parseCallback_id huuid hinput,
        show FreeText "ci:callback" by decide, rfl, rfl, rfl⟩
    exact takesFrom_publish hlocal (fun _ => rfl) s
  | callbackPersist input result => exact takesFrom_pure rfl
  | pushBody => exact takesFrom_pushBody request env
  | pushPersist value rest i counts =>
    exact takesFrom_pushUntilAccepted request rest List.suffix_rfl i counts
  | webhookBody =>
    intro s
    refine (triple_silent (silent_of_same (Proc.Leads.ofExcept _))).bind fun _ =>
      (triple_applyOwn _ _ _).bind fun begun => ?_
    rcases begun with result | ⟨mapped, result⟩
    · exact Proc.Triple.pure fun _ hs => .own rfl hs
    · exact Proc.Triple.pure fun _ hs => .own rfl hs
  | webhookPublish mapped result =>
    exact takesFrom_silent (silent_applyFinish _ _ _ _ _) fun _ => rfl
  | webhookApply result => exact takesFrom_silent (silent_webhookAnswer env result) fun _ => rfl
  | retryPublish found mapped result =>
    exact takesFrom_silent (silent_applyFinish _ _ _ _ _) fun _ => rfl
  | retryApply found result =>
    exact takesFrom_silent (silent_retryAnswer env found result) fun _ => rfl

/-- The first segment of a request. -/
theorem sourced_begin (call : HostCall) {endpoint : Endpoint}
    (hpath : Endpoint.ofPath call.request.pathname = some endpoint) (s : ServiceState C) :
    Proc.Triple (SameLog s) (endpoint.begin R call.request call.env)
      (fun progress s' => Arrives R call.request s s' progress) (SameLog s) := by
  have hown : ∀ {x : Handler C WritingProgress}, TakesFrom R call.request [] x →
      Proc.Triple (SameLog s) x (fun progress s' => Arrives R call.request s s' progress)
        (SameLog s) :=
    fun h => (h s).conseq (fun _ hs => hs) (fun _ _ hs => .inl hs) fun _ hs => hs
  rcases begin_cases (R := R) call.request call.env endpoint with hwrites | ⟨hreads, hbegin⟩
  · cases endpoint with
    | publish =>
      exact hown (takesFrom_silent (silent_of_leads (leads_publishArrive call.env)) fun _ => rfl)
    | triggerCallback =>
      exact hown (takesFrom_silent (silent_of_leads (leads_requireMethod R _ _)) fun _ => rfl)
    | cacheExchangePush =>
      refine (triple_leads (leads_requireMethod R _ _)).bind fun _ =>
        (triple_silent (silent_of_same (Proc.Leads.failWith _))).bind fun _ =>
          Proc.Triple.pure fun s' hs => .inr ⟨Endpoint.path_of hpath, rfl, hs⟩
    | githubWebhook =>
      refine (triple_leads (leads_requireMethod R _ _)).bind fun _ =>
        (triple_silent (silent_of_same (Proc.Leads.failIf _ _))).bind fun _ =>
          hown (takesFrom_silent (silent_of_same (Proc.Leads.failIf _ _)) fun _ => rfl)
    | githubWebhookDlqRetry =>
      refine (triple_leads (leads_requireMethod R _ _)).bind fun _ =>
        (triple_leads (leads_requireParam R _ _)).bind fun deliveryId =>
          (triple_silent (silent_of_same (Proc.Leads.gets _))).bind fun found =>
            (triple_silent (silent_of_same (Proc.Leads.ofExcept _))).bind fun found =>
              (triple_applyOwn _ _ _).bind fun begun => ?_
      rcases begun with result | ⟨mapped, result⟩
      · exact Proc.Triple.pure fun s' hs => .inl (.own rfl hs)
      · exact Proc.Triple.pure fun s' hs => .inl (.own rfl hs)
    | _ => cases hwrites
  · rw [hbegin]
    exact hown (takesFrom_silent
      (silent_of_leads (WriteLemmas.leads_reader call.request call.env hreads)) fun _ => rfl)

theorem sourced_fetchBegin (call : HostCall) (s : ServiceState C) :
    Proc.Triple (SameLog s) (fetchBegin R call.request call.env)
      (fun progress s' => Arrives R call.request s s' progress) (SameLog s) := by
  unfold fetchBegin
  refine Proc.Triple.ite (fun _ => Proc.Triple.pure fun s' hs => .inl (sourced_same rfl hs)) fun _ =>
    Proc.Triple.ite (fun _ => Proc.Triple.pure fun s' hs => .inl (sourced_same rfl hs)) fun _ => ?_
  split
  · next endpoint h =>
    exact (triple_silent (silent_of_same (Proc.Leads.failWith _))).bind fun _ =>
      sourced_begin call h s
  · exact (triple_silent (silent_of_same (Proc.Leads.failWith _))).bind fun _ =>
      Proc.Triple.pure fun s' hs => .inl (sourced_same rfl hs)

/-! ## Steps of a relay -/

/-- Where a request waits, if it does. -/
def WritingProgress.waiting : WritingProgress → Option Writing
  | .inl _ => none
  | .inr writing => some writing

/-- The request with this id has gone on, and the others are where they were. -/
structure GoesOn (id : Nat) (request : Request) (progress : WritingProgress)
    (sys sys' : WritingSystem C) : Prop where
  task : sys'.tasks.get? id = progress.waiting.map (WritingTask.mk request)
  others : ∀ other, other ≠ id → sys'.tasks.get? other = sys.tasks.get? other

variable {sys : WritingSystem C}

open WritingSystem

theorem goesOn_settle (request : Request) {x : Handler C WritingProgress}
    {Q : WritingProgress → ServiceState C → Prop}
    (hx : Proc.Triple (SameLog sys.service) x Q (SameLog sys.service))
    (herror : ∀ response s', SameLog sys.service s' → Q (.inl response) s') (id : Nat) :
    ∃ progress, Q progress (sys.settle id request (x.run sys.service)).service ∧
      GoesOn id request progress sys (sys.settle id request (x.run sys.service)) := by
  obtain ⟨hok, hfails⟩ := hx sys.service (.refl _)
  match hrun : x.run sys.service with
  | (.ok (.inr writing), service) =>
    exact ⟨.inr writing, hok _ _ hrun, OrdMap.get?_set_self _ _ _,
      fun other hother => OrdMap.get?_set_of_ne _ hother _⟩
  | (.ok (.inl response), service) =>
    refine ⟨.inl response, hok _ _ hrun, ?_, fun other hother => ?_⟩
    · exact (OrdMap.get?_erase _ _ _).trans (if_pos rfl)
    · exact (OrdMap.get?_erase _ _ _).trans (if_neg hother)
  | (.error response, service) =>
    refine ⟨.inl response, herror _ _ (hfails _ _ hrun), ?_, fun other hother => ?_⟩
    · exact (OrdMap.get?_erase _ _ _).trans (if_pos rfl)
    · exact (OrdMap.get?_erase _ _ _).trans (if_neg hother)

theorem serves_arrive (call : HostCall) (sys : WritingSystem C) :
    ∃ progress, Arrives sys.relay call.request sys.service (sys.arrive call).service progress ∧
      GoesOn sys.next call.request progress sys (sys.arrive call) := by
  obtain ⟨progress, harrives, htask, hothers⟩ := goesOn_settle call.request
    (sourced_fetchBegin call sys.service) (fun _ _ hs => .inl (sourced_same rfl hs)) sys.next
  exact ⟨progress, harrives, htask, hothers⟩

theorem serves_resume (A : Archive C) {id : Nat} {task : WritingTask} (env : HostEnv)
    (htask : sys.tasks.get? id = some task) (hproper : task.writing.Proper) :
    ∃ progress, Sourced sys.relay task.request ((task.writing.ahead task.request).getD [])
        sys.service (sys.step A (.resume id env)).service progress ∧
      GoesOn id task.request progress sys (sys.step A (.resume id env)) := by
  have hstep : sys.step A (.resume id env) = sys.resumeTask id task env := by
    simp only [WritingSystem.step, htask]
  rw [hstep]
  exact goesOn_settle task.request (sourced_resume task.request env.uuid hproper sys.service)
    (fun _ _ hs => sourced_same rfl hs) id

end

end BitRelay
