import BitRelay.GitCache.Relay

/-!
# Sessions that share an entry

The key of the git cache does not hold all of a request: the slash of a session id becomes two
underscores, the method is taken in upper case, and the body counts for POST and PUT only. So
`alice/x__y` and `alice__x/y` share their entries.

Results:
1. `cache_isolated`: in a run in which no request reads an entry whose key confuses it with another
   request, an answer from the cache was stored for the same request.
2. `sessions_share_entry`: the answer of one session is served under the id of another one.
-/

namespace BitRelay

/-- Two requests are the same, up to the order of their parameters and the session token. -/
structure SameGitRequest (r r' : GitRelayRequest) : Prop where
  session : r.sessionId = r'.sessionId
  method : r.method = r'.method
  path : r.request.request.pathname = r'.request.request.pathname
  query : (withoutToken r.request.request.query).Perm (withoutToken r'.request.request.query)
  body : r.request.bytes = r'.request.bytes

/-- The entry holds the answer that the session of the call `c` gave to it. -/
structure StoredBy (H : GitRelayHost) (s : GitRelay) (record : GitCacheRecord) (c : GitRelayCall) :
    Prop where
  call : s.calls[record.storedBy]? = some c
  answer : ∃ response : GitAnswer, c.phase = .answered (.live response) ∧
    response.status = some 200 ∧
    record = H.cache.record c.toRequest.sessionId record.storedBy response

/-- An answer from the cache was stored by a call with the same request. -/
def CacheIsolated (H : GitRelayHost) (s : GitRelay) : Prop :=
  ∀ (n : Nat) (c : GitRelayCall) (record : GitCacheRecord), s.calls[n]? = some c →
    c.phase = .answered (.cached record) →
    ∃ c', StoredBy H s record c' ∧ SameGitRequest c'.toRequest c.toRequest

/-- Requests that share a key have the same session, method and body. -/
def KeyTells (r r' : GitRelayRequest) : Prop :=
  r.SameCacheKey r' →
    r.sessionId = r'.sessionId ∧ r.method = r'.method ∧ r.request.bytes = r'.request.bytes

/-- When a request reads the cache, its key tells it from every request that its session answered
with status 200 before. -/
def ReadsOwn (s : GitRelay) : GitRelayEvent → Prop
  | .call n (.keyed _) => ∀ c, s.calls[n]? = some c → ∀ (m : Nat) (c' : GitRelayCall)
      (response : GitAnswer), s.calls[m]? = some c' → c'.phase = .answered (.live response) →
      response.status = some 200 → KeyTells c'.toRequest c.toRequest
  | _ => True

/-- Every entry that is there or was read is the answer of a call to the request it is for. -/
structure IsolationInvariant (H : GitRelayHost) (s : GitRelay) : Prop where
  sound : RelaySound H s
  cache : ∀ key record, s.cache.get? key = some record →
    ∃ c, StoredBy H s record c ∧ c.toRequest.storageKey H.cache = some key
  read : ∀ (n : Nat) (c : GitRelayCall) (record : GitCacheRecord), s.calls[n]? = some c →
    c.cached = some record →
    ∃ c', StoredBy H s record c' ∧ SameGitRequest c'.toRequest c.toRequest

namespace IsolationLemmas

variable {H : GitRelayHost} {s : GitRelay} {c c' : GitRelayCall} {record : GitCacheRecord}

/-- Requests that agree in the key and in what it leaves out are the same. -/
theorem same_of_key {r r' : GitRelayRequest} (hr : r.Admitted) (hr' : r'.Admitted)
    (hkey : r.SameCacheKey r') (htells : KeyTells r r') : SameGitRequest r r' := by
  obtain ⟨hsession, hmethod, hbody⟩ := htells hkey
  refine ⟨hsession, hmethod, ?_, ?_, hbody⟩
  · rw [hr.pathname, hr'.pathname, hsession, hkey.path]
  · have hsorted := hkey.query
    unfold sortParams at hsorted
    have hperm := List.perm_insertionSort (fun p q => codeUnitLe p.1 q.1 = true)
      (withoutToken r.request.request.query)
    rw [hsorted] at hperm
    exact hperm.symm.trans (List.perm_insertionSort _ _)

theorem storedBy_step (event : GitRelayEvent) (h : StoredBy H s record c) :
    StoredBy H (s.step H event) record c := by
  obtain ⟨response, hphase, hstatus, hrecord⟩ := h.answer
  refine ⟨?_, response, hphase, hstatus, hrecord⟩
  obtain ⟨c', hc', hsame | hstep⟩ := GitRelayLemmas.call_kept (H := H) event h.call
  · rwa [hsame] at hc'
  · exact absurd hstep (GitRelayLemmas.not_callStep_answered hphase)

/-- What a call has read stays, unless it reads now. -/
theorem cached_callStep (h : CallStep H s c c') (hcached : c'.cached = some record) :
    c.cached = some record ∨
      (c.phase = .hashing ∧ ∃ key, c.toRequest.storageKey H.cache = some key ∧
        s.cache.get? key = some record) := by
  cases h with
  | keyed hphase hread => exact .inr ⟨hphase, hread record hcached⟩
  | _ => exact .inl hcached

theorem isolationInvariant_step (event : GitRelayEvent) (hcond : ReadsOwn s event)
    (h : IsolationInvariant H s) : IsolationInvariant H (s.step H event) := by
  have hsound := GitRelayLemmas.relaySound_step event h.sound
  refine ⟨hsound, fun key record hget => ?_, fun n c' record hc' hcached => ?_⟩
  · rcases GitRelayLemmas.cache_of_step hget with hold | ⟨n, c, response, hc, hphase, hkey, rfl, hc'⟩
    · obtain ⟨c, hstored, hkey⟩ := h.cache key record hold
      exact ⟨c, storedBy_step event hstored, hkey⟩
    · have hstatus := (h.sound n c hc).phase
      unfold PhaseSound at hstatus
      rw [hphase] at hstatus
      exact ⟨_, ⟨hc', response, rfl, hstatus.2, rfl⟩, hkey⟩
  · have hkept : ∀ c, s.calls[n]? = some c → c.toRequest = c'.toRequest →
        c.cached = some record →
        ∃ d, StoredBy H (s.step H event) record d ∧ SameGitRequest d.toRequest c'.toRequest := by
      intro c hc hsame hold
      obtain ⟨d, hstored, hrequest⟩ := h.read n c record hc hold
      exact ⟨d, storedBy_step event hstored, hsame ▸ hrequest⟩
    rcases GitRelayLemmas.callStep_of_step hc' with hold | ⟨c, hc, hstep, move, rfl⟩ |
      ⟨-, client, found, -, -, rfl⟩
    · exact hkept c' hold rfl hcached
    · have hrequest := GitRelayLemmas.toRequest_callStep hstep
      rcases cached_callStep hstep hcached with hold | ⟨hphase, key, hkey, hget⟩
      · exact hkept c hc hrequest.symm hold
      · obtain ⟨d, hstored, hstorage⟩ := h.cache key record hget
        obtain ⟨response, hanswered, hstatus, -⟩ := hstored.answer
        have hmoved : s.step H (.call n move) ≠ s := by
          intro hsame
          rw [hsame, hc] at hc'
          have hnone := (h.sound n c hc).phase
          unfold PhaseSound at hnone
          rw [hphase] at hnone
          rw [← Option.some.inj hc', hnone.1] at hcached
          cases hcached
        obtain ⟨failed, rfl⟩ := GitRelayLemmas.keyed_of_hashing hc hphase hmoved
        have htells : KeyTells d.toRequest c.toRequest :=
          hcond c hc _ d response hstored.call hanswered hstatus
        have hadmitted := (h.sound _ d hstored.call).admitted
        have hkeys := (GitRelayRequest.storageKey_eq_iff hadmitted (h.sound n c hc).admitted
          hstorage).mp hkey
        exact ⟨d, storedBy_step _ hstored,
          hrequest ▸ same_of_key hadmitted (h.sound n c hc).admitted hkeys htells⟩
    · cases hcached

end IsolationLemmas

open IsolationLemmas

/-- In a run whose requests read no entry under a key that confuses them with another request, what
is served from the cache was stored for the same request. -/
theorem cache_isolated (H : GitRelayHost) (events : List GitRelayEvent)
    (h : Along (GitRelay.step H) ReadsOwn (GitRelay.init ∅) events) :
    CacheIsolated H (GitRelay.run H ∅ events) := by
  have hinit : IsolationInvariant H (GitRelay.init ∅) := by
    refine ⟨relaySound_run H ∅ [], fun key record hget => ?_, fun n c record hc => ?_⟩
    · cases hget
    · cases hc
  have hinv : IsolationInvariant H (GitRelay.run H ∅ events) :=
    h.invariant (fun _ event hcond hinv => isolationInvariant_step event hcond hinv) hinit
  intro n c record hc hphase
  exact hinv.read n c record hc (GitRelayLemmas.cached_answered (hinv.sound n c hc).phase hphase).1

/-! ## Two sessions with one entry -/

/-- A host whose hash keeps all of its input, for runs on fixed inputs. -/
def toyGitRelayHost : GitRelayHost where
  cache := { sha256 := id, sha256_injective := fun _ _ h => h, stringify := fun _ => "" }
  serve _ := GitServe.toyHost

/-- The path is cloned, and the session `alice/x__y` is there: the serve side answers, and the
answer is stored. -/
def storedHead (get : GitClientRequest) : List GitRelayEvent := [
  .opened "alice/x__y",
  .session "alice/x__y" (.fetch ⟨.post "/register" [] [] ⟨"", none⟩, none⟩ 0),
  .request get,
  .call 0 (.keyed false),
  .call 0 (.looked 1),
  .session "alice/x__y" (.fetch ⟨.post "/respond" [("session_token", "r")] []
    (Platform.toy.stringify (.obj [("request_id", .str "rr")])), none⟩ 2),
  .session "alice/x__y" (.bodyRead 2 3),
  .call 0 .settled,
  .call 0 (.stored false)]

def getHead : GitClientRequest where
  request := ⟨.get "/git/alice/x__y/HEAD" [], some []⟩
  method := by decide
  path := by decide

def getOtherHead : GitClientRequest where
  request := ⟨.get "/git/alice__x/y/HEAD" [], some []⟩
  method := by decide
  path := by decide

/-- A second request that reads the cache. -/
def readAgain (get : GitClientRequest) : List GitRelayEvent :=
  storedHead getHead ++ [.request get, .call 1 (.keyed false), .call 1 (.looked 4)]

/-- The condition holds where all calls have the request of the one that reads. -/
theorem IsolationLemmas.readsOwn_of_alike {s : GitRelay} {r : GitRelayRequest} {n : Nat}
    {failed : Bool} (h : (s.calls.all fun c => c.toRequest = r) = true) :
    ReadsOwn s (.call n (.keyed failed)) := by
  intro c hc m c' response hc' _ _ _
  have hall := List.all_eq_true.mp h
  have hsame := of_decide_eq_true (hall c (List.mem_of_getElem? hc))
  have hsame' := of_decide_eq_true (hall c' (List.mem_of_getElem? hc'))
  rw [hsame, hsame']
  exact ⟨rfl, rfl, rfl⟩

theorem cache_isolated_readAgain :
    Along (GitRelay.step toyGitRelayHost) ReadsOwn (GitRelay.init ∅) (readAgain getHead) ∧
      CacheIsolated toyGitRelayHost (GitRelay.run toyGitRelayHost ∅ (readAgain getHead)) := by
  have hown : Along (GitRelay.step toyGitRelayHost) ReadsOwn (GitRelay.init ∅)
      (readAgain getHead) := by
    refine ⟨trivial, trivial, trivial, ?_, trivial, trivial, trivial, trivial, trivial, trivial, ?_,
      trivial, trivial⟩
    · exact IsolationLemmas.readsOwn_of_alike
        (r := ⟨getHead.request, "alice/x__y", "HEAD"⟩) (by decide +kernel)
    · exact IsolationLemmas.readsOwn_of_alike
        (r := ⟨getHead.request, "alice/x__y", "HEAD"⟩) (by decide +kernel)
  exact ⟨hown, cache_isolated toyGitRelayHost (readAgain getHead) hown⟩

/-- `alice__x/y` is served what the session `alice/x__y` has answered. -/
theorem sessions_share_entry :
    ¬ ∀ (H : GitRelayHost) (events : List GitRelayEvent),
      CacheIsolated H (GitRelay.run H ∅ events) := by
  intro h
  have hisolated := h toyGitRelayHost (readAgain getOtherHead)
  have hcalls : ∃ c c' record, (GitRelay.run toyGitRelayHost ∅ (readAgain getOtherHead)).calls =
      [c, c'] ∧ c'.phase = .answered (.cached record) ∧ record.storedBy = 0 ∧
      c.toRequest.sessionId ≠ c'.toRequest.sessionId :=
    ⟨⟨⟨getHead.request, "alice/x__y", "HEAD"⟩, none, some 1, .answered (.live (.raw ⟨200, ∅, none⟩))⟩,
      ⟨⟨getOtherHead.request, "alice__x/y", "HEAD"⟩, some ⟨[], none, "", "alice/x__y", 0⟩, none,
        .answered (.cached ⟨[], none, "", "alice/x__y", 0⟩)⟩, _,
      by decide +kernel, rfl, rfl, by decide⟩
  obtain ⟨c, c', record, hall, hphase, hstored, hne⟩ := hcalls
  obtain ⟨d, hd, hsame⟩ := hisolated 1 c' record (by rw [hall]; rfl) hphase
  have hcall := hd.call
  rw [hall, hstored] at hcall
  cases hcall
  exact hne hsame.session

end BitRelay
