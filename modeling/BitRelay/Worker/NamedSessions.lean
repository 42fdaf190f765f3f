import BitRelay.Exchange.TokenGates
import BitRelay.GitServe.Invariant
import BitRelay.Worker.Objects

/-!
# Named sessions

A session is registered under `sender/repo` when the key of the sender is verified on GitHub. The
worker asks an object named `__default__` for the key, and it sends no token along; `deno_main` asks
its own service.

Results:
1. `deno_session_named`: a verified sender gets its name from `deno_main`.
2. `worker_session_unnamed`: from the worker nobody does.
-/

namespace BitRelay

/-! ## Session ids -/

def SESSION_ID_CHARS : List Char :=
  "ABCDEFGHIJKLMNOPQRSTUVWXYZabcdefghijklmnopqrstuvwxyz0123456789".toList

/-- `generateSessionId`, with the bytes of `crypto.getRandomValues`. -/
def generateSessionId (bytes : Fin 8 → UInt8) : String :=
  String.ofList ((List.ofFn bytes).map fun b =>
    SESSION_ID_CHARS.getD (b.toNat % SESSION_ID_CHARS.length) 'A')

/-- `keyInfoRes.status === 200 && keyRecord?.github_verified_at` -/
def verifiedOnGitHub (keyInfoRes : Response) : Bool :=
  keyInfoRes.status == 200 &&
    (((keyInfoRes.body.get? "key").bind (·.get? "github_verified_at")).map JsonValue.truthy).getD false

/-- The id of a new session; only with both parameters is there a question about the key. -/
def registeredSessionId (request : Request) (keyInfo : String → Response)
    (bytes : Fin 8 → UInt8) : String :=
  let sender := (request.param "sender").getD ""
  let repo := (request.param "repo").getD ""
  if sender ≠ "" ∧ repo ≠ "" then
    if verifiedOnGitHub (keyInfo sender) = true then sender ++ "/" ++ repo
    else generateSessionId bytes
  else generateSessionId bytes

/-! ## Registration -/

def registerRequest : GitServeRequest := ⟨⟨"POST", "/register", [], [], ⟨"", none⟩⟩, some []⟩

/-- The answer of the session, with its id in it. -/
def withSessionId (sessionId : String) (answer : GitAnswer) : Option Response :=
  match answer with
  | .json ⟨status, .obj fields⟩ =>
    if fields.lookup "ok" = some (.bool true) then
      some ⟨200, .obj (fields ++ [("session_id", .str sessionId)])⟩
    else some ⟨status, .obj fields⟩
  | _ => none

/-- A registration in the session of this id, which has a past. -/
def registerSession (H : GitServeHost) (past : String → List GitServeEvent) (now : Nat)
    (sessionId : String) : Option Response :=
  let session := GitServe.after H (past sessionId)
  ((session.fetch H registerRequest now).answers.get? session.nextCall).bind
    (withSessionId sessionId)

/-- The request of the worker for the key of a sender. -/
def workerKeyInfo (sender : String) : Request :=
  ⟨"GET", "/api/v1/key/info", [("sender", sender)], [], ⟨"", none⟩⟩

section
variable {C : Type}

/-- `POST /api/v1/serve/register` of the worker, with both bindings. -/
def Worker.serveRegister (W : Worker C) (H : GitServeHost) (past : String → List GitServeEvent)
    (now : Nat) (bytes : Fin 8 → UInt8) (request : Request) (env : WorkerEnv)
    (w : WorkerState C) : Option Response :=
  registerSession H past now (registeredSessionId request
    (fun sender => (W.forward "__default__" (workerKeyInfo sender) env w).1) bytes)

/-- `POST /api/v1/serve/register` of `deno_main`. -/
def denoServeRegister (R : Relay C) (H : GitServeHost) (past : String → List GitServeEvent)
    (now : Nat) (bytes : Fin 8 → UInt8) (request : Request) (env : Env) (s : ServiceState C) :
    Option Response :=
  registerSession H past now (registeredSessionId request
    (fun sender => (serve R (localKeyInfo R sender) env s).1) bytes)

/-- The response names the session. -/
def Registers (response : Option Response) (sessionId : String) : Prop :=
  ∃ answered, response = some answered ∧ answered.status = 200 ∧
    answered.body.get? "session_id" = some (.str sessionId)

namespace NamedSessionLemmas

/-- A registration always succeeds. -/
theorem registers_registerSession (H : GitServeHost) (past : String → List GitServeEvent)
    (now : Nat) (sessionId : String) :
    Registers (registerSession H past now sessionId) sessionId := by
  unfold registerSession
  generalize hsession : GitServe.after H (past sessionId) = session
  have hsound : GitServe.Sound H session := hsession ▸ GitServe.sound_after H _
  have hopen : session.answers.get? session.nextCall = none := by
    cases h : session.answers.get? session.nextCall with
    | none => rfl
    | some answer => exact absurd (hsound.answers _ _ h) (lt_irrefl _)
  have hanswer : (session.fetch H registerRequest now).answers.get? session.nextCall =
      some (.json ⟨200, .obj [("ok", .bool true),
        ("session_token", .str (H.sessionToken session.nextCall))]⟩) := by
    unfold GitServe.fetch
    simp only
    rw [if_pos ⟨rfl, rfl⟩]
    unfold GitServe.handleRegister GitServe.settle GitServe.resetSessionTimer
    simp only
    rw [OrdMap.get?_setNew, if_pos rfl]
    cases htimer : session.sessionTimer with
    | none => exact congrArg (fun o => some (Option.getD o _)) hopen
    | some id => exact congrArg (fun o => some (Option.getD o _)) hopen
  simp only [hanswer]
  exact ⟨_, rfl, rfl, rfl⟩

theorem registers_unique {response : Option Response} {sessionId sessionId' : String}
    (h : Registers response sessionId) (h' : Registers response sessionId') :
    sessionId = sessionId' := by
  obtain ⟨answered, hanswered, -, hid⟩ := h
  obtain ⟨answered', hanswered', -, hid'⟩ := h'
  cases hanswered.symm.trans hanswered'
  cases hid.symm.trans hid'
  rfl

/-- No generated id has a slash. -/
theorem slash_notMem_generateSessionId (bytes : Fin 8 → UInt8) :
    '/' ∉ (generateSessionId bytes).toList := by
  unfold generateSessionId
  rw [String.toList_ofList]
  intro h
  obtain ⟨b, -, hb⟩ := List.mem_map.mp h
  have hchars : ∀ n, SESSION_ID_CHARS.getD n 'A' ≠ '/' := by
    intro n
    rw [List.getD_eq_getElem?_getD]
    cases hn : SESSION_ID_CHARS[n]? with
    | none => decide
    | some c =>
      have hall : (SESSION_ID_CHARS.all fun c => decide (c ≠ '/')) = true := by decide
      exact of_decide_eq_true (List.all_eq_true.mp hall c (List.mem_of_getElem? hn))
  exact hchars _ hb

theorem generateSessionId_ne_named (bytes : Fin 8 → UInt8) (sender repo : String) :
    generateSessionId bytes ≠ sender ++ "/" ++ repo := by
  intro h
  refine slash_notMem_generateSessionId bytes ?_
  rw [h]
  simp [String.toList_append]

variable {request : Request} {keyInfo : String → Response} {bytes : Fin 8 → UInt8}

theorem registeredSessionId_unverified (h : ∀ sender, verifiedOnGitHub (keyInfo sender) = false) :
    registeredSessionId request keyInfo bytes = generateSessionId bytes := by
  unfold registeredSessionId
  simp only
  split
  · rw [h, if_neg Bool.false_ne_true]
  · rfl

/-- A service without keys shows none. -/
theorem keyInfo_of_no_keys (request : Request) {s : ServiceState C} (h : s.keyRegistry = ∅) :
    ((handleKeyInfo request : Handler C Response).serve s).1.status ≠ 200 := by
  have herror : Proc.Answers (fun response : Response => response.status ≠ 200)
      (handleKeyInfo request : Handler C Response) := by
    unfold handleKeyInfo requireMethod requireParam
    refine .bind (.failIf ?_) fun _ => .bind (.bind (.failIf ?_) fun _ => .pure _) fun sender =>
      .bind (.gets _) fun record => .bind (.ofExcept fun response hresponse => ?_) fun _ => .pure _
    · exact show (405 : Nat) ≠ 200 by decide
    · exact show (400 : Nat) ≠ 200 by decide
    · cases record with
      | some record => cases hresponse
      | none =>
        cases hresponse
        exact show (404 : Nat) ≠ 200 by decide
  have hnever : ∀ response s', (handleKeyInfo request : Handler C Response).run s ≠
      (.ok response, s') := by
    intro response s' hrun
    unfold handleKeyInfo at hrun
    obtain ⟨_, s₁, hmethod, hrun₁⟩ := Proc.bind_ok hrun
    obtain ⟨-, rfl⟩ := Proc.failIf_ok hmethod
    obtain ⟨sender, s₂, hparam, hrun₂⟩ := Proc.bind_ok hrun₁
    obtain ⟨_, s₃, hpresent, hsender⟩ := Proc.bind_ok hparam
    obtain ⟨-, rfl⟩ := Proc.failIf_ok hpresent
    cases hsender
    obtain ⟨record, s₄, hrecord, hrun₃⟩ := Proc.bind_ok hrun₂
    cases hrecord
    obtain ⟨record, s₅, hrecord, -⟩ := Proc.bind_ok hrun₃
    simp only [h] at hrecord
    cases (Proc.ofExcept_ok hrecord).1
  unfold Handler.serve
  match hrun : (handleKeyInfo request : Handler C Response).run s with
  | (.error response, s') => exact herror s response s' hrun
  | (.ok response, s') => exact absurd hrun (hnever response s')

/-- It does not vouch for anybody. -/
theorem verifiedOnGitHub_of_no_keys (R : Relay C) (sender : String) (env : Env)
    {s : ServiceState C} (h : s.keyRegistry = ∅) :
    verifiedOnGitHub (serve R (workerKeyInfo sender) env s).1 = false := by
  have hserve : serve R (workerKeyInfo sender) env s =
      (Proc.failWith (checkAuth R (workerKeyInfo sender)) >>= fun _ =>
        handleKeyInfo (workerKeyInfo sender) : Handler C Response).serve s := rfl
  have hstatus : (serve R (workerKeyInfo sender) env s).1.status ≠ 200 := by
    rw [hserve]
    rcases TokenGateLemmas.checkAuth_cases R (workerKeyInfo sender) with hopen | hshut
    · rw [hopen, TokenGateLemmas.serve_failWith_none]
      exact keyInfo_of_no_keys _ h
    · rw [hshut]
      exact show (401 : Nat) ≠ 200 by decide
  unfold verifiedOnGitHub
  rw [beq_eq_false_iff_ne.mpr hstatus]
  rfl

/-- The service of a process shows the key of a sender to the process. -/
theorem keyInfo_of_key (request : Request) (hmethod : request.method = "GET") {sender : String}
    (hparam : request.paramTrim "sender" = sender) (hne : sender ≠ "") {s : ServiceState C}
    {record : KeyRecord} (h : s.keyRegistry.get? sender = some record) {verifiedAt : Int}
    (hverified : record.githubVerifiedAt = some verifiedAt) :
    ∃ key, ((handleKeyInfo request : Handler C Response).serve s).1.status = 200 ∧
      ((handleKeyInfo request : Handler C Response).serve s).1.body.get? "key" = some key ∧
      key.get? "github_verified_at" = some (.ofInt verifiedAt) := by
  have hrun : (handleKeyInfo request : Handler C Response).run s = (.ok ⟨200, .obj [
      ("ok", .bool true),
      ("sender", .str sender),
      ("key", .obj [
        ("public_key", .str record.publicKey),
        ("status", .str (if record.status = .active then "active" else "revoked")),
        ("first_seen_at", .ofInt record.firstSeenAt),
        ("last_seen_at", .ofInt record.lastSeenAt),
        ("rotated_at", .ofInt? record.rotatedAt),
        ("revoked_at", .ofInt? record.revokedAt),
        ("github_username", .ofString? record.githubUsername),
        ("github_verified_at", .ofInt? record.githubVerifiedAt)])]⟩, s) := by
    have hget : (requireMethod request "GET" : Handler C Unit) = pure () := by
      unfold requireMethod Proc.failIf
      rw [if_neg (not_not.mpr hmethod)]
    have hsender : (requireParam request "sender" : Handler C String) = pure sender := by
      unfold requireParam Proc.failIf
      rw [hparam, if_neg hne]
      rfl
    unfold handleKeyInfo
    rw [hget, hsender]
    show ((Proc.ofExcept ((s.keyRegistry.get? sender).elim _ _) >>= fun _ => _ :
      Handler C Response)).run s = _
    rw [h]
    rfl
  unfold Handler.serve
  rw [hrun, hverified]
  exact ⟨_, rfl, rfl, rfl⟩

end NamedSessionLemmas

open NamedSessionLemmas

/-! ## The two entry points -/

/-- The key of a verified sender gives its name to the session. -/
theorem deno_session_named (R : DenoRelay C) (H : GitServeHost) (past : String → List GitServeEvent)
    (now : Nat) (bytes : Fin 8 → UInt8) {request : Request} (env : Env) (s : ServiceState C)
    {sender repo : String} (hsender : request.param "sender" = some sender)
    (hrepo : request.param "repo" = some repo) (hfree : FreeText sender) (hne : repo ≠ "")
    {record : KeyRecord} (hkey : s.keyRegistry.get? sender = some record) {verifiedAt : Int}
    (hverified : record.githubVerifiedAt = some verifiedAt) (hlater : verifiedAt ≠ 0) :
    Registers (denoServeRegister R.toRelay H past now bytes request env s)
      (sender ++ "/" ++ repo) := by
  have hserve : serve R.toRelay (localKeyInfo R.toRelay sender) env s =
      (Proc.failWith (checkAuth R.toRelay (localKeyInfo R.toRelay sender)) >>= fun _ =>
        handleKeyInfo (localKeyInfo R.toRelay sender) : Handler C Response).serve s := rfl
  rw [TokenGateLemmas.checkAuth_localKeyInfo, TokenGateLemmas.serve_failWith_none] at hserve
  obtain ⟨key, hstatus, hbody, hat⟩ := keyInfo_of_key (localKeyInfo R.toRelay sender) rfl
    (show trim sender = sender from hfree.2) hfree.1 hkey hverified
  have hvouches : verifiedOnGitHub (serve R.toRelay (localKeyInfo R.toRelay sender) env s).1 =
      true := by
    unfold verifiedOnGitHub
    rw [hserve, hstatus, hbody, Option.bind_some, hat]
    show decide (JsNumber.ofInt verifiedAt ≠ .ofInt 0 ∧ JsNumber.ofInt verifiedAt ≠ .negZero) = true
    rw [decide_eq_true_eq]
    refine ⟨fun heq => hlater ?_, fun heq => by cases heq⟩
    have htrunc := congrArg JsNumber.truncInt? heq
    rw [JsNumber.truncInt?_ofInt, JsNumber.truncInt?_ofInt] at htrunc
    exact Option.some.inj htrunc
  have hid : registeredSessionId request
      (fun sender => (serve R.toRelay (localKeyInfo R.toRelay sender) env s).1) bytes =
        sender ++ "/" ++ repo := by
    unfold registeredSessionId
    simp only [hsender, hrepo, Option.getD_some]
    rw [if_pos ⟨hfree.1, hne⟩, if_pos hvouches]
  unfold denoServeRegister
  rw [hid]
  exact registers_registerSession H past now _

/-- Whatever requests have gone through the worker, it gives every session a generated id. -/
theorem worker_session_unnamed (W : Worker C) (cache : C) (arrivals : List Worker.Arrival)
    (H : GitServeHost) (past : String → List GitServeEvent) (now : Nat) (bytes : Fin 8 → UInt8)
    (request : Request) (env : WorkerEnv) (sender repo : String) :
    Registers (W.serveRegister H past now bytes request env
      (W.afterArrivals (fun _ => .init cache) arrivals)) (generateSessionId bytes) ∧
    ¬ Registers (W.serveRegister H past now bytes request env
      (W.afterArrivals (fun _ => .init cache) arrivals)) (sender ++ "/" ++ repo) := by
  have hid : registeredSessionId request (fun sender => (W.forward "__default__"
      (workerKeyInfo sender) env (W.afterArrivals (fun _ => .init cache) arrivals)).1) bytes =
        generateSessionId bytes := by
    refine registeredSessionId_unverified fun sender => ?_
    rw [ObjectLemmas.forward_response, untouched_of_invalid (by decide)]
    exact verifiedOnGitHub_of_no_keys _ sender _ rfl
  have hregisters : Registers (W.serveRegister H past now bytes request env
      (W.afterArrivals (fun _ => .init cache) arrivals)) (generateSessionId bytes) := by
    unfold Worker.serveRegister
    rw [hid]
    exact registers_registerSession H past now _
  exact ⟨hregisters, fun h => generateSessionId_ne_named bytes sender repo (registers_unique hregisters h)⟩

end

/-! ## On the toy host -/

/-- The key of 32 zero bytes. -/
def zeroKey : String := String.ofList (List.replicate 43 'A')

def zeroKeyPublish : Request :=
  .post "/api/v1/publish" [("sender", "alice"), ("id", "m1")] (toyHeaders zeroKey "1000" "n1")
    ⟨"null", some .null⟩

def verifyAlice : Request :=
  .post "/api/v1/key/verify-github" [] []
    ⟨"", some (.obj [("sender", .str "alice"), ("github_username", .str "alice")])⟩

def registerAlice : Request :=
  .post "/api/v1/serve/register" [("sender", "alice"), ("repo", "repo")] [] ⟨"", none⟩

/-- On GitHub, `alice` has the key. -/
def zeroKeyEnv : Env := { Env.at 1000000 with githubKeys := .ok [List.replicate 32 0] }

def toyKeyWorker : Worker Unit := ⟨.toy .default, fun name => name, fun _ => notFoundResponse⟩

/-- The objects behind the worker when `alice` has published and is verified. -/
def verifiedWorker : WorkerState Unit :=
  toyKeyWorker.afterArrivals (fun _ => .init ())
    [⟨zeroKeyPublish, fun _ => zeroKeyEnv⟩, ⟨verifyAlice, fun _ => zeroKeyEnv⟩]

/-- The service of the process after the same requests. -/
def verifiedService : ServiceState Unit :=
  afterCalls (DenoRelay.toyTokens "" "" (by decide) (by decide)).toRelay ()
    [⟨zeroKeyPublish, zeroKeyEnv⟩, ⟨verifyAlice, zeroKeyEnv⟩]

/-- `alice` publishes and is verified through the worker. Her session gets a generated id, and from
`deno_main`, after the same requests, it gets her name. -/
theorem verified_sender_unnamed :
    (toyKeyWorker.fetch zeroKeyPublish (fun _ => zeroKeyEnv) (fun _ => .init ())).1.status = 200 ∧
    (toyKeyWorker.fetch verifyAlice (fun _ => zeroKeyEnv) (toyKeyWorker.fetch zeroKeyPublish
      (fun _ => zeroKeyEnv) (fun _ => .init ())).2).1.body.get? "verified" = some (.bool true) ∧
    Registers (toyKeyWorker.serveRegister GitServe.toyHost (fun _ => []) 0 (fun _ => 0)
      registerAlice (fun _ => zeroKeyEnv) verifiedWorker) "AAAAAAAA" ∧
    Registers (denoServeRegister (DenoRelay.toyTokens "" "" (by decide) (by decide)).toRelay
      GitServe.toyHost (fun _ => []) 0 (fun _ => 0) registerAlice zeroKeyEnv verifiedService)
      "alice/repo" := by
  have hworker : registeredSessionId registerAlice (fun sender => (toyKeyWorker.forward
      "__default__" (workerKeyInfo sender) (fun _ => zeroKeyEnv) verifiedWorker).1) (fun _ => 0) =
        "AAAAAAAA" := by
    decide +kernel
  have hdeno : registeredSessionId registerAlice
      (fun sender => (serve (DenoRelay.toyTokens "" "" (by decide) (by decide)).toRelay
        (localKeyInfo (DenoRelay.toyTokens "" "" (by decide) (by decide)).toRelay sender) zeroKeyEnv
        verifiedService).1) (fun _ => 0) = "alice/repo" := by
    decide +kernel
  refine ⟨by decide +kernel, by decide +kernel, ?_, ?_⟩
  · unfold Worker.serveRegister
    rw [hworker]
    exact NamedSessionLemmas.registers_registerSession _ _ _ _
  · unfold denoServeRegister
    rw [hdeno]
    exact NamedSessionLemmas.registers_registerSession _ _ _ _

end BitRelay
