import BitRelay.Service.Changes
import Mathlib.Data.List.Induction

/-!
# Sender authenticity

With required signatures, who can make a message appear under a sender's name?
Of the four writers of a room log only publish goes through the signature
stage. The callback and the webhook write under names of their own. The push of
a peer is guarded by the peer token instead, and writes its entries under the
names they carry: an exchange entry has no key, timestamp or nonce to verify.

Results:
1. `admitted_or_pushed`: every message under a name that the relay does not
   assign was admitted by a signed publish, or came in an entry of a push that
   passed the peer token and the room token.
2. `pushed_without_signature`: the second case cannot be dropped.
-/

namespace BitRelay

section
variable {C : Type} (R : Relay C)

/-! ## Definitions -/

/-- The senders that the relay itself writes. -/
def RelayAssigned (sender : String) : Prop :=
  sender = "ci:callback" ∨ startsWith sender "github:" = true

instance (sender : String) : Decidable (RelayAssigned sender) := by
  unfold RelayAssigned
  infer_instance

/-- The request is a publish whose headers sign this message under the sender's key. -/
def SignedAdmission (request : Request) (keyRegistry : KeyRegistry) (e : Envelope) : Prop :=
  request.pathname = "/api/v1/publish" ∧
  ∃ auth, parsePublishAuthHeaders request = .ok (some auth) ∧
    keyRegistry.publicKeyOf e.sender = some auth.publicKey ∧
    R.platform.verifyEd25519Signature auth.publicKey
      (publishSigningMessage R e.sender e.room e.id e.topic e.payload auth) auth.signature = true

/-- The request is a push past its tokens, and one of its entries is this message. -/
def PushedAdmission (request : Request) (e : Envelope) : Prop :=
  request.pathname = "/api/v1/cache/exchange/push" ∧
  checkPeerAuth R request = none ∧
  checkRoomToken R request e.room = none ∧
  ∃ parsed entries value incoming, request.body.json = some parsed ∧
    parsed.arrField? "entries" = some entries ∧ value ∈ entries ∧
    parseIncomingCacheExchangeEntry value R.config.cacheExchangeMaxHops = .ok incoming ∧
    e = { incoming.envelope with signature := storedSignature (incoming.signature.getD "") }

/-- `call` is the request of the run that brought `e` into the log of `room`: it was not there
before the call and is there after it. -/
def BroughtBy (cache : C) (calls : List Call) (room : String) (e : Envelope) (before : List Call)
    (call : Call) : Prop :=
  (before ++ [call]) <+: calls ∧
  e ∉ ((afterCalls R cache before).roomOf room).messages ∧
  e ∈ ((afterCalls R cache (before ++ [call])).roomOf room).messages

/-- The message was admitted by a signed publish of the run. -/
def AdmittedBySignature (cache : C) (calls : List Call) (room : String) (e : Envelope) : Prop :=
  ∃ before call, BroughtBy R cache calls room e before call ∧
    SignedAdmission R call.request (afterCalls R cache (before ++ [call])).keyRegistry e

/-! ## One request -/

variable {R}
variable {request : Request}

theorem publicKeyOf_of_chain {A : Allowed C} {s s' : ServiceState C}
    (h : Relation.ReflTransGen (Change R A) s s') (hA : ¬ A.rekeys) {sender publicKey : String}
    (hkey : s.keyRegistry.publicKeyOf sender = some publicKey) :
    s'.keyRegistry.publicKeyOf sender = some publicKey := by
  induction h with
  | refl => exact hkey
  | tail _ hstep ih => exact hstep.publicKeyOf hA ih

/-- The grounds for a message that one request brings into a log. -/
theorem grounds_of_new (hreq : R.config.requireSignatures = true) (env : Env) (s : ServiceState C)
    {room : String} {e : Envelope} (hrelay : ¬ RelayAssigned e.sender)
    (hold : e ∉ (s.roomOf room).messages)
    (hnew : e ∈ ((serve R request env s).2.roomOf room).messages) :
    SignedAdmission R request (serve R request env s).2.keyRegistry e ∨
      PushedAdmission R request e := by
  have hchain := leads_serve (entitlement_grants R request) env s
  rcases admission_of_chain hchain hnew with h | ⟨s1, hadm, -, hrest⟩
  · exact absurd h hold
  · cases hadm with
    | signed auth hpath hheaders hverified hregistered =>
      have hno : ¬ (entitlement R request).rekeys := by
        intro hrotate
        have : Endpoint.ofPath "/api/v1/publish" = some .keyRotate := by
          rw [← hpath]
          exact hrotate
        exact absurd this (by decide)
      exact .inl ⟨hpath, auth, hheaders, publicKeyOf_of_chain hrest hno hregistered, hverified⟩
    | unsigned _ h =>
      rw [hreq] at h
      cases h
    | callback _ _ _ _ h => exact absurd (.inl h) hrelay
    | webhook _ h => exact absurd (.inr h) hrelay
    | pushed parsed value entries incoming hpath hpeer hbody hentries hmem hincoming htoken
        henvelope =>
      have hroom : e.room = incoming.room := by
        rw [henvelope]
        rfl
      refine .inr ⟨hpath, hpeer, by rw [hroom]; exact htoken, parsed, entries, value, incoming,
        hbody, hentries, hmem, hincoming, henvelope⟩

/-! ## All runs -/

/-- Every message of a log was brought there by some request of the run. -/
theorem broughtBy_of_mem (cache : C) (calls : List Call) {room : String} {e : Envelope}
    (hmem : e ∈ ((afterCalls R cache calls).roomOf room).messages) :
    ∃ before call, BroughtBy R cache calls room e before call := by
  induction calls using List.reverseRecOn with
  | nil => exact absurd hmem (by simp [afterCalls, ServiceState.init, ServiceState.roomOf,
      OrdMap.getD, createRoomState])
  | append_singleton calls call ih =>
    by_cases hold : e ∈ ((afterCalls R cache calls).roomOf room).messages
    · obtain ⟨before, c, hpre, h⟩ := ih hold
      exact ⟨before, c, hpre.trans (List.prefix_append _ _), h⟩
    · exact ⟨calls, call, List.prefix_rfl, hold, hmem⟩

/-- In every run with required signatures, a message under a name that the relay does not assign
was admitted by a signed publish, under the key then registered for its sender, or by a push past
its tokens. -/
theorem admitted_or_pushed (hreq : R.config.requireSignatures = true) (cache : C)
    (calls : List Call) (room : String) (e : Envelope)
    (hmem : e ∈ ((afterCalls R cache calls).roomOf room).messages)
    (hrelay : ¬ RelayAssigned e.sender) :
    ∃ before call, BroughtBy R cache calls room e before call ∧
      (SignedAdmission R call.request (afterCalls R cache (before ++ [call])).keyRegistry e ∨
        PushedAdmission R call.request e) := by
  obtain ⟨before, call, hbrought⟩ := broughtBy_of_mem cache calls hmem
  refine ⟨before, call, hbrought, ?_⟩
  obtain ⟨-, hold, hnew⟩ := hbrought
  unfold afterCalls at hnew ⊢
  rw [runFrom_concat] at hnew ⊢
  exact grounds_of_new hreq call.env _ hrelay hold hnew

end

/-! ## On the toy host -/

/-- A publish by `alice`, signed. -/
def signedCall : Call where
  request := .post "/api/v1/publish" [("sender", "alice"), ("id", "m1")]
    (toyHeaders "k1" "1000" "n1") ⟨"null", some .null⟩
  env := .at 1000000

/-- A push of one entry under the name `alice`, without any signature. -/
def unsignedPushCall : Call where
  request := .post "/api/v1/cache/exchange/push" [] []
    ⟨"", some (.obj [("entries", .arr [.obj [
      ("room", .str "main"), ("id", .str "m1"), ("sender", .str "alice"), ("topic", .str "notify"),
      ("payload", .null), ("origin", .str "peer"), ("hop_count", .ofNat 0)]])])⟩
  env := .at 1000000

def messageOfAlice : Envelope :=
  { room := "main", id := "m1", sender := "alice", topic := "notify", payload := .null
    signature := none }

theorem admitted_or_pushed_signedCall :
    ∃ before call,
      BroughtBy (.toy .default) () [signedCall] "main"
        { messageOfAlice with signature := some "k1" } before call ∧
      (SignedAdmission (.toy .default) call.request
          (afterCalls (.toy .default) () (before ++ [call])).keyRegistry
          { messageOfAlice with signature := some "k1" } ∨
        PushedAdmission (.toy .default) call.request
          { messageOfAlice with signature := some "k1" }) :=
  admitted_or_pushed rfl () [signedCall] "main" _ (by decide) (by decide)

/-- A push brings an unsigned message under the name of any sender into a log, although
signatures are required. -/
theorem pushed_without_signature :
    (Relay.toy .default).config.requireSignatures = true ∧
    messageOfAlice ∈
      ((afterCalls (.toy .default) () [unsignedPushCall]).roomOf "main").messages ∧
    ¬ RelayAssigned messageOfAlice.sender ∧
    ¬ AdmittedBySignature (.toy .default) () [unsignedPushCall] "main" messageOfAlice := by
  refine ⟨rfl, by decide, by decide, ?_⟩
  rintro ⟨before, call, ⟨hpre, -, -⟩, hpath, -⟩
  -- The run has one request, and it is not a publish.
  have hmem : call ∈ [unsignedPushCall] := hpre.subset (by simp)
  rw [List.mem_singleton.mp hmem] at hpath
  exact absurd hpath (by decide)

end BitRelay
