import BitRelay.Exchange.Peering

/-!
# Token gates

The endpoints for peers stand behind two gates that read one header: the gate of the relay's own
token, and the gate of the token for peers. The process puts the first token into the requests to
its own service, and the worker of another relay puts the second one into its requests.

Results:
1. `admits_bearer_iff`: the tokens that pass the gates of an endpoint for peers.
2. `startsCacheSyncWorker_iff`: the worker starts only if the relay lets its own discovery through.
3. `tokens_consistent_iff`: with two different tokens either the process or a peer is locked out.
-/

namespace BitRelay

section
variable {C : Type}

/-! ## Requests -/

/-- The request of `resolveLocalRelayNodeId`. -/
def localDiscovery (R : Relay C) : Request :=
  createInternalServiceRequest R.config.authToken
    ⟨"GET", "/api/v1/cache/exchange/discovery", [], [], ⟨"", none⟩⟩

/-- The request for the key of a sender, when a session is registered. -/
def localKeyInfo (R : Relay C) (sender : String) : Request :=
  createInternalServiceRequest R.config.authToken
    ⟨"GET", "/api/v1/key/info", [("sender", sender)], [], ⟨"", none⟩⟩

/-- The request of `fetchPeerDiscovery`. -/
def peerDiscovery (peerSyncAuthToken : String) : Request where
  method := "GET"
  pathname := "/api/v1/cache/exchange/discovery"
  query := []
  headers := if peerSyncAuthToken ≠ "" then [("authorization", "Bearer " ++ peerSyncAuthToken)]
    else []
  body := ⟨"", none⟩

/-! ## The start of the worker -/

def resolveLocalRelayNodeId (R : Relay C) (env : Env) (s : ServiceState C) : Option String :=
  let response := (serve R (localDiscovery R) env s).1
  if response.status ≠ 200 then none else asString (response.body.get? "node_id")

/-- Without peers, or without a node id, `startCacheSyncWorker` returns before it makes a worker. -/
def startsCacheSyncWorker (R : Relay C) (peers : List String) (env : Env) (s : ServiceState C) :
    Bool :=
  peers ≠ [] && (resolveLocalRelayNodeId R env s).isSome

/-! ## Consistent tokens -/

/-- No gate answers 401 to the request. -/
def Admits (R : Relay C) (env : Env) (s : ServiceState C) (request : Request) : Prop :=
  (serve R request env s).1.status ≠ 401

/-- The gates let the process and its peers through. -/
structure TokensConsistent (R : Relay C) (env : Env) (s : ServiceState C) : Prop where
  localDiscovery : Admits R env s (localDiscovery R)
  localPush : ∀ entries, Admits R env s (localPush R entries)
  localKeyInfo : ∀ sender, Admits R env s (localKeyInfo R sender)
  peerDiscovery : Admits R env s (peerDiscovery R.config.peerAuthToken)
  peerPull : ∀ nodeId after limit,
    Admits R env s (peerPull R.config.peerAuthToken nodeId after limit)

/-- Both gates take the token that a request presents. -/
def BearerPasses (R : Relay C) (token : String) : Prop :=
  (R.config.authToken = "" ∨ R.config.authToken = token) ∧
    (R.config.peerAuthToken = "" ∨ R.config.peerAuthToken = token)

namespace TokenGateLemmas

variable {R : Relay C} {request : Request}

theorem gate_eq_none_iff {c : Prop} [Decidable c] {response : Response} :
    (if c then some response else none) = none ↔ ¬ c := by
  split
  · next hc => exact ⟨(by rintro ⟨⟩), fun h => absurd hc h⟩
  · next hc => exact ⟨fun _ => hc, fun _ => rfl⟩

/-- A gate opens if it asks for no token or for the one that is presented. -/
theorem opens_iff (expected presented : String) :
    ¬ (expected ≠ "" ∧ (presented = "" ∨ timingSafeEqual presented expected = false)) ↔
      expected = "" ∨ expected = presented := by
  unfold timingSafeEqual
  rw [decide_eq_false_iff_not]
  constructor
  · intro h
    by_contra hnot
    obtain ⟨hne, hunequal⟩ := not_or.mp hnot
    exact h ⟨hne, .inr fun heq => hunequal heq.symm⟩
  · rintro (h | rfl) ⟨hne, hwrong⟩
    · exact hne h
    · exact hwrong.elim hne fun hunequal => hunequal rfl

theorem checkAuth_eq_none_iff (h : shouldRequireAuth request.pathname = true) :
    checkAuth R request = none ↔
      R.config.authToken = "" ∨ R.config.authToken = extractPresentedToken request := by
  unfold checkAuth
  simp only [h, true_and]
  exact gate_eq_none_iff.trans (opens_iff _ _)

theorem checkPeerAuth_eq_none_iff :
    checkPeerAuth R request = none ↔
      R.config.peerAuthToken = "" ∨ R.config.peerAuthToken = extractPresentedToken request := by
  unfold checkPeerAuth
  exact gate_eq_none_iff.trans (opens_iff _ _)

theorem checkAuth_cases (R : Relay C) (request : Request) :
    checkAuth R request = none ∨ checkAuth R request = some unauthorizedResponse := by
  unfold checkAuth
  simp only
  split
  · exact .inr rfl
  · exact .inl rfl

theorem checkPeerAuth_cases (R : Relay C) (request : Request) :
    checkPeerAuth R request = none ∨ checkPeerAuth R request = some unauthorizedResponse := by
  unfold checkPeerAuth
  simp only
  split
  · exact .inr rfl
  · exact .inl rfl

/-! The token that a request presents. -/

theorem extractPresentedToken_bearer {token : String} (h : Trimmed token)
    (hheader : request.header "authorization" =
      if token ≠ "" then some ("Bearer " ++ token) else none) :
    extractPresentedToken request = token := by
  unfold extractPresentedToken Request.headerTrim
  rw [hheader]
  by_cases hempty : token = ""
  · rw [if_neg (not_not.mpr hempty), hempty]
    rfl
  · have hfree : FreeText token := ⟨hempty, h⟩
    have hbearer : FreeText ("Bearer " ++ token) := by
      rw [show ("Bearer " : String) = "Bearer" ++ " " from rfl]
      exact freeText_append (by decide) hfree
    rw [if_pos hempty, Option.getD_some, show trim ("Bearer " ++ token) = _ from hbearer.2]
    exact PeeringLemmas.stripBearer_bearer hfree

theorem presents_internal (R : DenoRelay C) {request : Request} (h : request.headers = []) :
    extractPresentedToken (createInternalServiceRequest R.config.authToken request) =
      R.config.authToken := by
  refine extractPresentedToken_bearer R.authToken_trimmed ?_
  unfold Request.header createInternalServiceRequest withRelayAuthHeaders
  simp only [h]
  by_cases hempty : R.config.authToken = ""
  · rw [if_neg (fun hnot => hnot.1 hempty), if_neg (not_not.mpr hempty)]
    rfl
  · rw [if_pos ⟨hempty, rfl⟩, if_pos hempty]
    rfl

theorem presents_localDiscovery (R : DenoRelay C) :
    extractPresentedToken (localDiscovery R.toRelay) = R.config.authToken := presents_internal R rfl

theorem presents_peerDiscovery {token : String} (h : Trimmed token) :
    extractPresentedToken (peerDiscovery token) = token := by
  refine extractPresentedToken_bearer h ?_
  show List.lookup "authorization" (if token ≠ "" then [("authorization", "Bearer " ++ token)] else [])
    = _
  split <;> rfl

theorem presents_peerPull {token : String} (h : Trimmed token) (nodeId : String)
    (after limit : Nat) : extractPresentedToken (peerPull token nodeId after limit) = token := by
  refine extractPresentedToken_bearer h ?_
  show List.lookup "authorization" (if token ≠ "" then [("authorization", "Bearer " ++ token)] else [])
    = _
  split <;> rfl

/-! ## Handlers behind the gates -/

/-- A handler behind the two gates. -/
def gated (R : Relay C) (request : Request) (x : Handler C Response) : Handler C Response := do
  Proc.failWith (checkAuth R request)
  Proc.failWith (checkPeerAuth R request)
  x

/-- The response is not the refusal of a gate. -/
def Passed (response : Response) : Prop := response.status ≠ 401

theorem serve_passed {x : Handler C Response} (h : Proc.Answers Passed x)
    (hok : ∀ s response s', x.run s = (.ok response, s') → Passed response) (s : ServiceState C) :
    Passed (x.serve s).1 := by
  unfold Handler.serve
  match hrun : x.run s with
  | (.ok response, s') => exact hok s response s' hrun
  | (.error response, s') => exact h s response s' hrun

theorem serve_failWith_none (f : Unit → Handler C Response) (s : ServiceState C) :
    ((Proc.failWith none >>= f : Handler C Response).serve s) = (f ()).serve s := rfl

/-- With a token that both gates take the handler answers. -/
theorem serve_gated_of_passes (x : Handler C Response) (s : ServiceState C)
    (hauth : shouldRequireAuth request.pathname = true)
    (h : BearerPasses R (extractPresentedToken request)) :
    (gated R request x).serve s = x.serve s := by
  unfold BearerPasses at h
  rw [← checkAuth_eq_none_iff hauth, ← checkPeerAuth_eq_none_iff] at h
  unfold gated
  rw [h.1, h.2]
  rfl

/-- With another token one of the gates does. -/
theorem serve_gated_of_not_passes (x : Handler C Response) (s : ServiceState C)
    (hauth : shouldRequireAuth request.pathname = true)
    (h : ¬ BearerPasses R (extractPresentedToken request)) :
    (gated R request x).serve s = (unauthorizedResponse, s) := by
  unfold BearerPasses at h
  rw [← checkAuth_eq_none_iff hauth, ← checkPeerAuth_eq_none_iff] at h
  unfold gated
  rcases checkAuth_cases R request with hopen | hshut
  · rcases checkPeerAuth_cases R request with hopen' | hshut'
    · exact absurd ⟨hopen, hopen'⟩ h
    · rw [hopen, hshut']
      rfl
  · rw [hshut]
    rfl

theorem serve_gated_iff {x : Handler C Response} {s : ServiceState C} (hx : Passed (x.serve s).1)
    (hauth : shouldRequireAuth request.pathname = true) :
    Passed ((gated R request x).serve s).1 ↔ BearerPasses R (extractPresentedToken request) := by
  constructor
  · intro hpassed
    by_contra hnot
    rw [serve_gated_of_not_passes x s hauth hnot] at hpassed
    exact hpassed rfl
  · intro h
    rw [serve_gated_of_passes x s hauth h]
    exact hx

theorem pushEntry_passed (R : Relay C) (request : Request) (i : Nat) (value : JsonValue)
    (counts : PushCounts) : Proc.Answers Passed (pushEntry R request i value counts) := by
  unfold pushEntry
  refine .bind (.ofExcept fun response h => ?_) fun incoming => ?_
  · cases hparse : parseIncomingCacheExchangeEntry value R.config.cacheExchangeMaxHops with
    | ok incoming =>
      rw [hparse] at h
      cases h
    | error error =>
      rw [hparse] at h
      cases h
      exact show (400 : Nat) ≠ 401 by decide
  · cases refusesEntryName incoming with
    | some reason => exact .pure _
    | none =>
      refine .bind (.failWith fun response h => ?_) fun _ => ?_
      · rcases checkRoomToken_cases R request incoming.room with hopen | hshut
        · rw [hopen] at h
          cases h
        · rw [hshut] at h
          cases h
          exact show (403 : Nat) ≠ 401 by decide
      · cases refusesEntryHops R incoming with
        | some reason => exact .pure _
        | none =>
          refine .bind (.update _) fun existing => ?_
          cases existing with
          | some existing => exact .pure _
          | none => exact .bind (.update _) fun _ => .bind (.modify _) fun _ => .pure _

theorem pushEntries_passed (R : Relay C) (request : Request) (values : List JsonValue) (i : Nat)
    (counts : PushCounts) : Proc.Answers Passed (pushEntries R request values i counts) := by
  induction values generalizing i counts with
  | nil => exact .pure _
  | cons value rest ih => exact .bind (pushEntry_passed R request i value counts) fun counts => ih _ _

theorem checkAuth_localKeyInfo (R : DenoRelay C) (sender : String) :
    checkAuth R.toRelay (localKeyInfo R.toRelay sender) = none := by
  rw [checkAuth_eq_none_iff (show shouldRequireAuth "/api/v1/key/info" = true by decide)]
  exact .inr (presents_internal R rfl).symm

/-- The key of a sender is shown, or the answer is 400, 404 or 405. -/
theorem keyInfo_passed (request : Request) (s : ServiceState C) :
    Passed ((handleKeyInfo request : Handler C Response).serve s).1 := by
  unfold handleKeyInfo requireMethod requireParam
  refine serve_passed (.bind (.failIf ?_) fun _ => .bind (.bind (.failIf ?_) fun _ => .pure _)
    fun sender => .bind (.gets _) fun record => .bind (.ofExcept fun response h => ?_)
    fun _ => .pure _) (fun s response s' hrun => ?_) s
  · exact show (405 : Nat) ≠ 401 by decide
  · exact show (400 : Nat) ≠ 401 by decide
  · cases record with
    | some record => cases h
    | none =>
      cases h
      exact show (404 : Nat) ≠ 401 by decide
  · obtain ⟨_, _, -, hrun⟩ := Proc.bind_ok hrun
    obtain ⟨_, _, -, hrun⟩ := Proc.bind_ok hrun
    obtain ⟨_, _, -, hrun⟩ := Proc.bind_ok hrun
    obtain ⟨_, _, -, hrun⟩ := Proc.bind_ok hrun
    cases hrun
    exact show (200 : Nat) ≠ 401 by decide

end TokenGateLemmas

open TokenGateLemmas

/-! ## What a bearer passes -/

section
variable (R : DenoRelay C) (env : Env) (s : ServiceState C)

/-- A request to an endpoint for peers passes with a token that both gates take. -/
theorem admits_bearer_iff (request : Request) {x : Handler C Response}
    (hserve : serve R.toRelay request env s = (gated R.toRelay request x).serve s)
    (hx : Passed (x.serve s).1) (hauth : shouldRequireAuth request.pathname = true) :
    Admits R.toRelay env s request ↔
      BearerPasses R.toRelay (extractPresentedToken request) := by
  unfold Admits
  rw [hserve]
  exact serve_gated_iff hx hauth

/-- Behind the gates the discovery names the relay. -/
theorem localDiscovery_gated : ∃ response, response.status = 200 ∧
    response.body.get? "node_id" = some (.str R.config.relayNodeId) ∧
    serve R.toRelay (localDiscovery R.toRelay) env s =
      (gated R.toRelay (localDiscovery R.toRelay) (pure response)).serve s := by
  refine ⟨okResponse _, ?_, ?_, rfl⟩
  · rfl
  · rfl

theorem admits_localDiscovery : Admits R.toRelay env s (localDiscovery R.toRelay) ↔
    BearerPasses R.toRelay R.config.authToken := by
  obtain ⟨response, hstatus, -, hserve⟩ := localDiscovery_gated R env s
  have hpassed : Passed response := by
    unfold Passed
    rw [hstatus]
    decide
  have hiff := admits_bearer_iff R env s (localDiscovery R.toRelay) hserve hpassed
    (show shouldRequireAuth "/api/v1/cache/exchange/discovery" = true by decide)
  rw [presents_localDiscovery R] at hiff
  exact hiff

theorem admits_peerDiscovery {token : String} (h : Trimmed token) :
    Admits R.toRelay env s (peerDiscovery token) ↔ BearerPasses R.toRelay token := by
  have hiff := admits_bearer_iff R env s (peerDiscovery token) (x := pure _) rfl
    (show (200 : Nat) ≠ 401 by decide)
    (show shouldRequireAuth "/api/v1/cache/exchange/discovery" = true by decide)
  rw [presents_peerDiscovery h] at hiff
  exact hiff

theorem admits_peerPull {token : String} (h : Trimmed token) (nodeId : String)
    (after limit : Nat) :
    Admits R.toRelay env s (peerPull token nodeId after limit) ↔ BearerPasses R.toRelay token := by
  have hiff := admits_bearer_iff R env s (peerPull token nodeId after limit)
    (x := Proc.gets _ >>= fun _ => pure _) rfl (show (200 : Nat) ≠ 401 by decide)
    (show shouldRequireAuth "/api/v1/cache/exchange/pull" = true by decide)
  rw [presents_peerPull h] at hiff
  exact hiff

theorem admits_localPush (entries : List JsonValue) :
    Admits R.toRelay env s (localPush R.toRelay entries) ↔
      BearerPasses R.toRelay R.config.authToken := by
  let loop : Handler C Response := do
    let parsed ← requireObject (localPush R.toRelay entries)
    let values ← requireEntries parsed
    let counts ← pushEntries R.toRelay (localPush R.toRelay entries) values 0 .zero
    let cursor ← Proc.gets fun s => s.cacheExchangeCursor
    return pushResponse R.toRelay counts cursor
  have hloop : Passed (loop.serve s).1 := by
    refine serve_passed (.bind (.pure _) fun parsed => .bind (.ofExcept fun response h => ?_)
      fun values => .bind (pushEntries_passed _ _ _ _ _) fun counts =>
      .bind (.gets _) fun cursor => .pure _) (fun s response s' hrun => ?_) s
    · cases hlist : parsed.arrField? "entries" with
      | some values =>
        rw [hlist] at h
        cases h
      | none =>
        rw [hlist] at h
        cases h
        exact show (400 : Nat) ≠ 401 by decide
    · obtain ⟨_, _, -, hrun⟩ := Proc.bind_ok hrun
      obtain ⟨_, _, -, hrun⟩ := Proc.bind_ok hrun
      obtain ⟨_, _, -, hrun⟩ := Proc.bind_ok hrun
      obtain ⟨_, _, -, hrun⟩ := Proc.bind_ok hrun
      cases hrun
      exact show (200 : Nat) ≠ 401 by decide
  have hiff := admits_bearer_iff R env s (localPush R.toRelay entries) (x := loop) rfl hloop
    (show shouldRequireAuth "/api/v1/cache/exchange/push" = true by decide)
  rw [PeeringLemmas.extractPresentedToken_localPush] at hiff
  exact hiff

/-- Only the relay's own token guards the keys. -/
theorem admits_localKeyInfo (sender : String) :
    Admits R.toRelay env s (localKeyInfo R.toRelay sender) := by
  have hserve : serve R.toRelay (localKeyInfo R.toRelay sender) env s =
      (Proc.failWith (checkAuth R.toRelay (localKeyInfo R.toRelay sender)) >>= fun _ =>
        handleKeyInfo (localKeyInfo R.toRelay sender) : Handler C Response).serve s := rfl
  unfold Admits
  rw [hserve, checkAuth_localKeyInfo, serve_failWith_none]
  exact keyInfo_passed _ s

/-! ## The start of the worker -/

/-- The worker starts if the relay answers its own discovery. -/
theorem startsCacheSyncWorker_iff (peers : List String) :
    startsCacheSyncWorker R.toRelay peers env s = true ↔
      peers ≠ [] ∧ BearerPasses R.toRelay R.config.authToken := by
  unfold startsCacheSyncWorker
  rw [Bool.and_eq_true, decide_eq_true_eq]
  refine and_congr_right fun _ => ?_
  constructor
  · intro hsome
    refine (admits_localDiscovery R env s).mp fun hrefused => ?_
    unfold resolveLocalRelayNodeId at hsome
    simp only at hsome
    rw [if_pos (by rw [hrefused]; decide)] at hsome
    cases hsome
  · intro hpasses
    obtain ⟨response, hstatus, hid, hserve⟩ := localDiscovery_gated R env s
    rw [← presents_localDiscovery R] at hpasses
    have hresponse : (serve R.toRelay (localDiscovery R.toRelay) env s).1 = response := by
      rw [hserve, serve_gated_of_passes _ s
        (show shouldRequireAuth "/api/v1/cache/exchange/discovery" = true by decide) hpasses]
      rfl
    have hnode := trimmed_of_isValidRoomName R.nodeId_valid
    have htrim : trim R.config.relayNodeId = R.config.relayNodeId := hnode.1
    unfold resolveLocalRelayNodeId
    simp only [hresponse, hstatus, hid]
    unfold asString
    rw [if_neg (by decide)]
    simp only [htrim]
    rw [if_pos hnode.2]
    rfl

/-! ## Both tokens -/

theorem bearerPasses_auth_iff : BearerPasses R.toRelay R.config.authToken ↔
    R.config.peerAuthToken = "" ∨ R.config.peerAuthToken = R.config.authToken :=
  and_iff_right (.inr rfl)

theorem bearerPasses_peer_iff : BearerPasses R.toRelay R.config.peerAuthToken ↔
    R.config.authToken = "" ∨ R.config.authToken = R.config.peerAuthToken :=
  and_iff_left (.inr rfl)

theorem tokensConsistent_iff :
    TokensConsistent R.toRelay env s ↔ R.config.peerAuthToken = R.config.authToken := by
  constructor
  · intro h
    have hlocal := (admits_localDiscovery R env s).mp h.localDiscovery
    have hpeer := (admits_peerDiscovery R env s R.peerAuthToken_trimmed).mp h.peerDiscovery
    rcases (bearerPasses_auth_iff R).mp hlocal with hempty | heq
    · rcases (bearerPasses_peer_iff R).mp hpeer with hempty' | heq
      · exact hempty.trans hempty'.symm
      · exact heq.symm
    · exact heq
  · intro heq
    have hlocal := (bearerPasses_auth_iff R).mpr (.inr heq)
    have hpeer := (bearerPasses_peer_iff R).mpr (.inr heq.symm)
    exact ⟨(admits_localDiscovery R env s).mpr hlocal,
      fun entries => (admits_localPush R env s entries).mpr hlocal,
      fun sender => admits_localKeyInfo R env s sender,
      (admits_peerDiscovery R env s R.peerAuthToken_trimmed).mpr hpeer,
      fun nodeId after limit =>
        (admits_peerPull R env s R.peerAuthToken_trimmed nodeId after limit).mpr hpeer⟩

/-- The process and its peers pass exactly when the two tokens are one. Among the tokens with which
the worker starts, those fail where only the relay's own token is set: the peers have no token then. -/
theorem tokens_consistent_iff (peers : List String) :
    (TokensConsistent R.toRelay env s ↔ R.config.peerAuthToken = R.config.authToken) ∧
    ((startsCacheSyncWorker R.toRelay peers env s = true → TokensConsistent R.toRelay env s) ↔
      (peers = [] ∨ R.config.peerAuthToken ≠ "" ∨ R.config.authToken = "")) := by
  refine ⟨tokensConsistent_iff R env s, ?_⟩
  rw [startsCacheSyncWorker_iff, tokensConsistent_iff, bearerPasses_auth_iff]
  constructor
  · intro h
    by_contra hnot
    obtain ⟨hpeers, hrest⟩ := not_or.mp hnot
    obtain ⟨hpeer, hauth⟩ := not_or.mp hrest
    have hempty := not_not.mp hpeer
    exact hauth ((h ⟨hpeers, .inl hempty⟩).symm.trans hempty)
  · rintro (hpeers | hpeer | hauth) ⟨hsome, hempty | heq⟩
    · exact absurd hpeers hsome
    · exact heq
    · exact absurd hempty hpeer
    · exact heq
    · exact hempty.trans hauth.symm
    · exact heq

end

end

/-! ## On the toy host -/

/-- A relay on the toy host with the two tokens. -/
def DenoRelay.toyTokens (authToken peerAuthToken : String) (hauth : Trimmed authToken)
    (hpeer : Trimmed peerAuthToken) : DenoRelay Unit where
  toRelay := .toy { RelayConfig.default with
    authToken := authToken
    peerAuthToken := peerAuthToken
    relayNodeId := "relay-b" }
  nodeId_valid := isValidNodeId_relayB
  maxHops_pos := show 1 ≤ RelayConfig.default.cacheExchangeMaxHops by decide
  authToken_trimmed := hauth
  peerAuthToken_trimmed := hpeer

instance {C : Type} (R : Relay C) (env : Env) (s : ServiceState C) (request : Request) :
    Decidable (Admits R env s request) :=
  inferInstanceAs (Decidable (_ ≠ _))

/-- With two tokens the relay refuses the worker of its own process, although the peers' token is
set. With its own token alone the worker starts, and a peer that has no token to send is refused. -/
theorem tokens_lock_out :
    ¬ Admits (DenoRelay.toyTokens "a" "p" (by decide) (by decide)).toRelay (.at 0) (.init ())
      (localDiscovery (DenoRelay.toyTokens "a" "p" (by decide) (by decide)).toRelay) ∧
    ¬ Admits (DenoRelay.toyTokens "a" "p" (by decide) (by decide)).toRelay (.at 0) (.init ())
      (peerDiscovery "p") ∧
    startsCacheSyncWorker (DenoRelay.toyTokens "a" "" (by decide) (by decide)).toRelay
      ["http://relay-a"] (.at 0) (.init ()) = true ∧
    ¬ Admits (DenoRelay.toyTokens "a" "" (by decide) (by decide)).toRelay (.at 0) (.init ())
      (peerDiscovery "") := by
  decide

end BitRelay
