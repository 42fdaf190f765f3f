import BitRelay.Confidentiality
import BitRelay.Exchange.Writes

/-!
# Room tokens and writes

Every handler that writes into a room checks the token of that room first, each
with its own derivation of the room: from the query, from the body, from a git
ref, or from every entry of a batch. So a request without the token of a room
leaves its messages, acknowledgements, presence and reviews alone. Webhook
deliveries of GitHub carry no token; their signature is checked instead.

The exchange log is one for all rooms, and so is its cap: an accepted message of
another room may drop the oldest records of this one.

Results:
1. `room_spared`: without the token of room `r` the room stays as it is, and the
   exchange log gets records of other rooms only.
2. `cap_drops_records`: the records of `r` may go, over the common cap.
-/

namespace BitRelay

section
variable {C : Type} (R : Relay C)

/-! ## Definitions -/

/-- A webhook delivery whose signature verifies, or a retry of a queued one. -/
def FromGitHub (request : Request) : Prop :=
  (request.pathname = "/api/v1/github/webhook" ∧ R.config.githubWebhookSecret ≠ "" ∧
    checkWebhookSignature R request = .ok ()) ∨
  request.pathname = "/api/v1/github/webhook/dlq/retry"

/-- The log of the exchange, cut to its cap. -/
def capRecords (records : List CacheExchangeRecord) : List CacheExchangeRecord :=
  records.drop (records.length - R.config.cacheExchangeMaxRecords)

/-- The exchange records of a room. -/
def ServiceState.recordsOf (room : String) (s : ServiceState C) : List CacheExchangeRecord :=
  s.cacheExchangeRecords.filter fun record => record.envelope.room = room

/-- Room `r` is the same, and the exchange log is the same or has records of other rooms at its
end. -/
structure SparesRoom (r : String) (s s' : ServiceState C) : Prop where
  room : s'.roomOf r = s.roomOf r
  records : s'.cacheExchangeRecords = s.cacheExchangeRecords ∨
    ∃ others ≠ [], (∀ record ∈ others, record.envelope.room ≠ r) ∧
      s'.cacheExchangeRecords = capRecords R (s.cacheExchangeRecords ++ others)

variable {R} {r : String} {s s' s'' : ServiceState C}

namespace SparesRoom

theorem refl (s : ServiceState C) : SparesRoom R r s s := ⟨rfl, .inl rfl⟩

theorem capRecords_append (l l' : List CacheExchangeRecord) :
    capRecords R (capRecords R l ++ l') = capRecords R (l ++ l') := by
  unfold capRecords
  have hle : l.length - R.config.cacheExchangeMaxRecords ≤ l.length := Nat.sub_le _ _
  rw [← List.drop_append_of_le_length hle, List.drop_drop, List.length_drop, List.length_append]
  congr 1
  omega

theorem trans (h : SparesRoom R r s s') (h' : SparesRoom R r s' s'') : SparesRoom R r s s'' where
  room := h'.room.trans h.room
  records := by
    rcases h'.records with hsame' | ⟨others', hne', hothers', hrecords'⟩
    · rw [hsame']
      exact h.records
    · rcases h.records with hsame | ⟨others, hne, hothers, hrecords⟩
      · rw [hsame] at hrecords'
        exact .inr ⟨others', hne', hothers', hrecords'⟩
      · refine .inr ⟨others ++ others', fun hnil => hne' (List.append_eq_nil_iff.mp hnil).2, ?_, ?_⟩
        · intro record hrecord
          exact (List.mem_append.mp hrecord).elim (hothers record) (hothers' record)
        · rw [hrecords', hrecords, capRecords_append, List.append_assoc]

/-- The records of the room can only go from the front. -/
theorem recordsOf_suffix (h : SparesRoom R r s s') : s'.recordsOf r <:+ s.recordsOf r := by
  unfold ServiceState.recordsOf
  rcases h.records with hsame | ⟨others, -, hothers, hrecords⟩
  · exact ⟨[], by rw [hsame, List.nil_append]⟩
  · have hnone : others.filter (fun record => record.envelope.room = r) = [] := by
      refine List.filter_eq_nil_iff.mpr fun record hrecord => ?_
      simpa using hothers record hrecord
    have hsuffix := (List.drop_suffix ((s.cacheExchangeRecords ++ others).length -
      R.config.cacheExchangeMaxRecords) (s.cacheExchangeRecords ++ others)).filter
        fun record => decide (record.envelope.room = r)
    rw [List.filter_append, hnone, List.append_nil] at hsuffix
    rw [hrecords]
    exact hsuffix

/-- What touches neither a room nor the exchange log. -/
theorem of_quiet (hrooms : s'.rooms = s.rooms)
    (hrecords : s'.cacheExchangeRecords = s.cacheExchangeRecords) : SparesRoom R r s s' := by
  refine ⟨?_, .inl hrecords⟩
  unfold ServiceState.roomOf
  rw [hrooms]

theorem of_putRoom {room : String} (hne : room ≠ r) (s : ServiceState C) (roomState : RoomState) :
    SparesRoom R r s (s.putRoom room roomState) :=
  ⟨ServiceState.roomOf_putRoom_of_ne s hne.symm roomState, .inl rfl⟩

/-- Opening a room writes nothing into it, not even into `r` itself. -/
theorem of_openRoom (s : ServiceState C) (room : String) : SparesRoom R r s (s.openRoom room) :=
  ⟨ServiceState.roomOf_openRoom s room r, .inl rfl⟩

theorem of_publishEntry {room : String} (hne : room ≠ r) (s : ServiceState C)
    (sender topic id signature : String) (payload : JsonValue) (origin : String)
    (hopCount maxHops : Nat) :
    SparesRoom R r s (s.publishEntry R room sender topic id signature payload origin hopCount
      maxHops).2 := by
  have hcases := publishIntoRoom_cases (s.roomOf room) room sender topic id signature payload
    R.config.maxMessagesPerRoom
  unfold ServiceState.publishEntry
  rcases hcases with ⟨-, heq⟩ | ⟨-, -, heq⟩ | ⟨-, -, heq⟩
  · rw [heq]
    exact of_putRoom hne s _
  · rw [heq]
    exact of_putRoom hne s _
  · rw [heq]
    refine ⟨ServiceState.roomOf_putRoom_of_ne s hne.symm _,
      .inr ⟨[_], List.cons_ne_nil _ _, fun record hrecord => ?_, rfl⟩⟩
    rw [List.mem_singleton.mp hrecord]
    exact hne

end SparesRoom

open SparesRoom

/-! ## Parts of the handlers -/

section Request
variable {token : String} (htoken : R.config.roomTokens.get? r = some token)
variable {request : Request} (hno : readRoomToken request ≠ token)

namespace WriteProtectionLemmas

theorem spares_requireParam (request : Request) (key : String) :
    Proc.Leads (SparesRoom R r) (requireParam request key : Handler C String) :=
  (Proc.Leads.failIf _ _).bind fun _ => Proc.Leads.pure _

theorem spares_requireObject (request : Request) :
    Proc.Leads (SparesRoom R r) (requireObject request : Handler C JsonValue) := by
  unfold requireObject
  split
  · exact Proc.Leads.pure _
  · exact Proc.Leads.answer _

theorem spares_readRoom (room : String) :
    Proc.Leads (SparesRoom R r) (readRoom room : Handler C RoomState) :=
  Proc.Leads.update fun s => .single (of_openRoom s room)

theorem spares_persist (result : PublishResult) :
    Proc.Leads (SparesRoom R r)
      (Proc.modify (ServiceState.persistResult R result) : Handler C Unit) :=
  Proc.Leads.modify fun s => by cases result <;> exact of_quiet rfl rfl

theorem spares_updateKey (s : ServiceState C) (sender : String) (f : KeyRecord → KeyRecord) :
    SparesRoom R r s (s.updateKey sender f) := by
  refine of_quiet (updateKey_rooms s sender f) ?_
  unfold ServiceState.updateKey
  split <;> rfl

/-- Publishing into another room, up to the end of the request. -/
theorem spares_publishInto {α : Type} {room : String} (hne : room ≠ r)
    (sender topic id signature : String) (payload : JsonValue) (origin : String)
    (hopCount maxHops : Nat) (f : PublishResult → α) :
    Proc.Leads (SparesRoom R r) (do
      let result ← Proc.update (ServiceState.publishEntry R room sender topic id signature payload
        origin hopCount maxHops)
      Proc.modify (ServiceState.persistResult R result)
      return f result : Handler C α) :=
  (Proc.Leads.update fun s => .single (of_publishEntry hne s _ _ _ _ _ _ _ _)).bind
    fun result => (spares_persist result).bind fun _ => Proc.Leads.pure _

include htoken hno in
/-- Behind the token check the room is not `r`. -/
theorem spares_requireRoom {α : Type} {k : String → Handler C α}
    (h : ∀ room, room ≠ r → Proc.Leads (SparesRoom R r) (k room)) :
    Proc.Leads (SparesRoom R r) (requireRoom R request >>= k) := by
  unfold requireRoom
  simp only [bind_assoc, pure_bind]
  exact Proc.Leads.failIf_bind fun _ => Proc.Leads.failWith_bind fun hchecked =>
    h _ (room_ne_of_checked htoken hno hchecked)

theorem parseCallback_checked {env : Env} {parsed : JsonValue} {input : CallbackInput}
    (h : parseCallback R request env parsed = .ok input) :
    checkRoomToken R request input.room = none := by
  unfold parseCallback at h
  simp only at h
  generalize (if trim (parsed.strField "room") ≠ "" then trim (parsed.strField "room")
    else deriveRoomFromIncomingRef (trim (parsed.strField "ref"))) = room at h
  split at h
  · cases h
  split at h
  · cases h
  split at h
  · cases h
  split at h
  · cases h
  · next hchecked =>
    rw [← Except.ok.inj h]
    exact hchecked

/-! Publish. -/

theorem spares_rateLimit {table : ServiceState C → OrdMap String RateCounter}
    {store : ServiceState C → OrdMap String RateCounter → ServiceState C}
    (h : ∀ s m, SparesRoom R r s (store s m)) (key : String) (now max windowMs : Nat)
    (error : String) :
    Proc.Leads (SparesRoom R r) (rateLimit table store key now max windowMs error) :=
  (Proc.Leads.update fun s => .single (h s _)).bind fun _ => Proc.Leads.failIf _ _

include htoken hno in
theorem spares_publishArrive (env : Env) :
    Proc.Leads (SparesRoom R r) (publishArrive R request env) := by
  refine (Proc.Leads.failIf _ _).bind fun _ => (spares_requireParam _ _).bind fun _ =>
    spares_requireRoom htoken hno fun room _ => ?_
  refine Proc.Leads.bind ?_ fun _ => Proc.Leads.bind ?_ fun _ => Proc.Leads.bind ?_ fun _ =>
    (Proc.Leads.failIf _ _).bind fun _ => Proc.Leads.pure _
  · unfold ipRateLimit
    split
    · refine spares_rateLimit (fun _ _ => ?_) _ _ _ _ _
      exact of_quiet rfl rfl
    · exact Proc.Leads.pure _
  · refine spares_rateLimit (fun _ _ => ?_) _ _ _ _ _
    exact of_quiet rfl rfl
  · refine spares_rateLimit (fun _ _ => ?_) _ _ _ _ _
    exact of_quiet rfl rfl

theorem spares_checkFreshness (sender nonce : String) (ts nowSec : Int) :
    Proc.Leads (SparesRoom R r) (checkFreshness R sender nonce ts nowSec) := by
  refine (Proc.Leads.failIf _ _).bind fun _ =>
    (Proc.Leads.update fun _ => .single ?_).bind fun _ => Proc.Leads.failIf _ _
  exact of_quiet rfl rfl

theorem spares_publishBegin (input : PublishInput) (env : Env) :
    Proc.Leads (SparesRoom R r) (publishBegin R request input env) := by
  refine (Proc.Leads.failIf _ _).bind fun _ => (Proc.Leads.ofExcept _).bind fun _ =>
    Proc.Leads.bind ?_ fun _ => Proc.Leads.pure _
  refine (Proc.Leads.ofExcept _).bind fun auth => ?_
  cases auth with
  | none => exact (Proc.Leads.failIf _ _).bind fun _ => Proc.Leads.pure _
  | some auth =>
    exact ((spares_checkFreshness _ _ _ _).bind fun _ => Proc.Leads.pure _).bind fun _ =>
      Proc.Leads.pure _

theorem spares_finishSignature (pending : PendingSignature) :
    Proc.Leads (SparesRoom R r) (finishSignature R pending) := by
  have hbind : Proc.Leads (SparesRoom R r)
      (bindKey pending.sender pending.auth.publicKey pending.nowSec : Handler C Unit) :=
    (Proc.Leads.gets _).bind fun _ => (Proc.Leads.ofExcept _).bind fun _ =>
      Proc.Leads.modify fun _ => of_quiet rfl rfl
  exact (Proc.Leads.failIf _ _).bind fun _ => hbind.bind fun _ =>
    Proc.Leads.modify fun _ => of_quiet rfl rfl

theorem spares_finishVerification (pending : Option PendingSignature) :
    Proc.Leads (SparesRoom R r) (finishSignatureVerification R pending) := by
  cases pending with
  | none => exact Proc.Leads.pure _
  | some pending => exact spares_finishSignature pending

include htoken hno in
theorem spares_publish (env : Env) :
    Proc.Leads (SparesRoom R r) (handlePublish R request env) := by
  simp only [handlePublish, publishSigned, bind_assoc, pure_bind]
  refine Proc.Leads.bind_post (Q := fun input _ => input.room ≠ r)
    (spares_publishArrive htoken hno env)
    (fun s input s' h => room_ne_of_checked htoken hno (publishArrive_ok h).2.2.2)
    fun input s hne => ?_
  have hrest : Proc.Leads (SparesRoom R r) (publishBegin R request input env >>= fun p =>
      finishSignatureVerification R p.2 >>= fun _ => publishCommit R input p.1 p.2 >>=
        fun result => Proc.modify (ServiceState.persistResult R result) >>= fun _ =>
          pure result.toResponse) :=
    (spares_publishBegin input env).bind fun p => (spares_finishVerification p.2).bind fun _ =>
      spares_publishInto hne _ _ _ _ _ _ _ _ _
  exact hrest s

/-! Reviews. -/

theorem spares_reviewBegin (room : String) (env : Env) :
    Proc.Leads (SparesRoom R r) (reviewBegin R request room env) :=
  (spares_requireParam _ _).bind fun _ => (spares_requireParam _ _).bind fun _ =>
    (Proc.Leads.failIf _ _).bind fun _ => (Proc.Leads.ofExcept _).bind fun _ =>
      (Proc.Leads.ofExcept _).bind fun _ => (Proc.Leads.ofExcept _).bind fun _ =>
        ((spares_checkFreshness _ _ _ _).bind fun _ => Proc.Leads.pure _).bind fun _ =>
          Proc.Leads.pure _

theorem reviewBegin_room {room : String} {env : Env} {p : ReviewInput × PendingSignature}
    (h : (reviewBegin R request room env).run s = (.ok p, s')) : p.1.room = room := by
  obtain ⟨_, s1, -, k1⟩ := Proc.bind_ok h
  obtain ⟨_, s2, -, k2⟩ := Proc.bind_ok k1
  obtain ⟨_, s3, -, k3⟩ := Proc.bind_ok k2
  obtain ⟨_, s4, -, k4⟩ := Proc.bind_ok k3
  obtain ⟨_, s5, -, k5⟩ := Proc.bind_ok k4
  obtain ⟨_, s6, -, k6⟩ := Proc.bind_ok k5
  obtain ⟨_, s7, -, k7⟩ := Proc.bind_ok k6
  cases k7
  rfl

theorem spares_reviewPost {room : String} (hne : room ≠ r) (env : Env) :
    Proc.Leads (SparesRoom R r) (handleReviewPost R request room env) := by
  simp only [handleReviewPost, reviewSigned, bind_assoc, pure_bind]
  refine Proc.Leads.bind_post (Q := fun p _ => p.1.room = room) (spares_reviewBegin room env)
    (fun s p s' h => reviewBegin_room h) fun p s hroom => ?_
  have hrest : Proc.Leads (SparesRoom R r) (finishSignature R p.2 >>= fun _ =>
      reviewCommit p.1 p.2 : Handler C Response) :=
    (spares_finishSignature p.2).bind fun _ =>
      (Proc.Leads.update fun s => .single (of_putRoom (hroom ▸ hne) s _)).bind fun _ =>
        Proc.Leads.pure _
  exact hrest s

/-! Pushes. -/

include htoken hno in
theorem spares_pushEntry (i : Nat) (value : JsonValue) (counts : PushCounts) :
    Proc.Leads (SparesRoom R r) (pushEntry R request i value counts) := by
  refine (Proc.Leads.ofExcept _).bind fun incoming => ?_
  cases refusesEntryName incoming with
  | some reason => exact Proc.Leads.pure _
  | none =>
    refine Proc.Leads.failWith_bind fun hchecked => ?_
    have hne := room_ne_of_checked htoken hno hchecked
    cases refusesEntryHops R incoming with
    | some reason => exact Proc.Leads.pure _
    | none =>
      refine (Proc.Leads.update fun s => .single (of_openRoom s incoming.room)).bind
        fun existing => ?_
      cases existing with
      | some existing => exact Proc.Leads.pure _
      | none => exact spares_publishInto hne _ _ _ _ _ _ _ _ _

include htoken hno in
theorem spares_pushEntries (entries : List JsonValue) (i : Nat) (counts : PushCounts) :
    Proc.Leads (SparesRoom R r) (pushEntries R request entries i counts) := by
  induction entries generalizing i counts with
  | nil => exact Proc.Leads.pure _
  | cons value rest ih =>
    exact (spares_pushEntry htoken hno i value counts).bind fun counts => ih (i + 1) counts

end WriteProtectionLemmas

open WriteProtectionLemmas

/-! ## One request -/

include htoken hno in
theorem spares_handle (env : Env) {endpoint : Endpoint}
    (hpath : Endpoint.ofPath request.pathname = some endpoint) (hgithub : ¬ FromGitHub R request) :
    Proc.Leads (SparesRoom R r) (endpoint.handle R request env) := by
  cases endpoint with
  | keyInfo =>
    exact (Proc.Leads.failIf _ _).bind fun _ => (spares_requireParam _ _).bind fun _ =>
      (Proc.Leads.gets _).bind fun _ => (Proc.Leads.ofExcept _).bind fun _ => Proc.Leads.pure _
  | keyRotate =>
    have hbegin : Proc.Leads (SparesRoom R r) (rotateBegin R request env) :=
      (spares_requireObject _).bind fun _ => (Proc.Leads.ofExcept _).bind fun _ =>
        (spares_checkFreshness _ _ _ _).bind fun _ => (Proc.Leads.gets _).bind fun _ =>
          (Proc.Leads.ofExcept _).bind fun _ => Proc.Leads.pure _
    have hcommit : ∀ pending, Proc.Leads (SparesRoom R r) (rotateCommit R pending) := fun _ =>
      (Proc.Leads.failIf _ _).bind fun _ => (Proc.Leads.failIf _ _).bind fun _ =>
        (Proc.Leads.modify fun s => spares_updateKey s _ _).bind fun _ =>
          Proc.Leads.modify fun _ => of_quiet rfl rfl
    exact Proc.Leads.bind ((Proc.Leads.failIf _ _).bind fun _ => hbegin.bind fun _ =>
      (hcommit _).bind fun _ => Proc.Leads.pure _) fun _ => Proc.Leads.pure _
  | keyVerifyGitHub =>
    refine (Proc.Leads.failIf _ _).bind fun _ => Proc.Leads.bind ?_ fun sender => ?_
    · exact (spares_requireObject _).bind fun _ => (Proc.Leads.failIf _ _).bind fun _ =>
        (Proc.Leads.failIf _ _).bind fun _ => (Proc.Leads.failIf _ _).bind fun _ =>
          (Proc.Leads.gets _).bind fun _ => (Proc.Leads.failIf _ _).bind fun _ =>
            Proc.Leads.pure _
    · exact (Proc.Leads.ofExcept _).bind fun _ => (Proc.Leads.gets _).bind fun _ =>
        (Proc.Leads.failIf _ _).bind fun _ =>
          (Proc.Leads.modify fun s => spares_updateKey s _ _).bind fun _ => Proc.Leads.pure _
  | githubWebhook =>
    -- Without a verified signature the delivery is refused.
    refine (Proc.Leads.failIf _ _).bind fun _ => Proc.Leads.failIf_bind fun hsecret =>
      (Proc.Leads.failIf _ _).bind fun _ => Proc.Leads.ofExcept_bind fun u hverified => ?_
    exact absurd (.inl ⟨Endpoint.path_of hpath, hsecret, hverified⟩) hgithub
  | githubWebhookDlq =>
    exact (Proc.Leads.failIf _ _).bind fun _ => (Proc.Leads.gets _).bind fun _ => Proc.Leads.pure _
  | githubWebhookDlqRetry => exact absurd (.inr (Endpoint.path_of hpath)) hgithub
  | triggerCallback =>
    refine (Proc.Leads.failIf _ _).bind fun _ => (spares_requireObject _).bind fun parsed =>
      Proc.Leads.ofExcept_bind fun input hinput => ?_
    exact spares_publishInto (room_ne_of_checked htoken hno (parseCallback_checked hinput))
      _ _ _ _ _ _ _ _ _
  | triggerResults =>
    exact (Proc.Leads.failIf _ _).bind fun _ => spares_requireRoom htoken hno fun room _ =>
      (spares_readRoom room).bind fun _ => Proc.Leads.pure _
  | cacheExchangeDiscovery =>
    exact (Proc.Leads.failIf _ _).bind fun _ => (Proc.Leads.failWith _).bind fun _ =>
      Proc.Leads.pure _
  | cacheExchangePull =>
    exact (Proc.Leads.failIf _ _).bind fun _ => (Proc.Leads.failWith _).bind fun _ =>
      (Proc.Leads.failWith _).bind fun _ => (Proc.Leads.gets _).bind fun _ => Proc.Leads.pure _
  | cacheExchangePush =>
    refine (Proc.Leads.failIf _ _).bind fun _ => (Proc.Leads.failWith _).bind fun _ =>
      (spares_requireObject _).bind fun parsed => (Proc.Leads.ofExcept _).bind fun entries => ?_
    exact (spares_pushEntries htoken hno entries 0 .zero).bind fun _ =>
      (Proc.Leads.gets _).bind fun _ => Proc.Leads.pure _
  | cacheIssuesPull =>
    exact (Proc.Leads.failIf _ _).bind fun _ => (Proc.Leads.failWith _).bind fun _ =>
      spares_requireRoom htoken hno fun room _ => (Proc.Leads.gets _).bind fun _ =>
        Proc.Leads.pure _
  | cacheIssuesSync =>
    refine (Proc.Leads.failIf _ _).bind fun _ => (Proc.Leads.failWith _).bind fun _ =>
      spares_requireRoom htoken hno fun room _ =>
        (Proc.Leads.update fun _ => .single ?_).bind fun _ => Proc.Leads.pure _
    exact of_quiet rfl rfl
  | ws =>
    -- The room is opened before its token is checked.
    exact (Proc.Leads.failIf _ _).bind fun _ => (spares_readRoom _).bind fun _ =>
      (Proc.Leads.failWith _).bind fun _ => (Proc.Leads.failIf _ _).bind fun _ =>
        (Proc.Leads.failIf _ _).bind fun _ => Proc.Leads.pure _
  | publish => exact spares_publish htoken hno env
  | poll =>
    exact (Proc.Leads.failIf _ _).bind fun _ => spares_requireRoom htoken hno fun room _ =>
      (spares_readRoom room).bind fun _ => Proc.Leads.pure _
  | inboxPending =>
    exact (Proc.Leads.failIf _ _).bind fun _ => spares_requireRoom htoken hno fun room _ =>
      (spares_requireParam _ _).bind fun _ => (spares_readRoom room).bind fun _ =>
        Proc.Leads.pure _
  | inboxAck =>
    exact (Proc.Leads.failIf _ _).bind fun _ => spares_requireRoom htoken hno fun room hne =>
      (spares_requireParam _ _).bind fun _ =>
        Proc.Leads.update fun s => .single (of_putRoom hne s _)
  | presenceHeartbeat =>
    exact (Proc.Leads.failIf _ _).bind fun _ => spares_requireRoom htoken hno fun room hne =>
      (spares_requireParam _ _).bind fun _ => (Proc.Leads.ofExcept _).bind fun _ =>
        (Proc.Leads.update fun s => .single (of_putRoom hne s _)).bind fun _ => Proc.Leads.pure _
  | presence =>
    refine spares_requireRoom htoken hno fun room hne => Proc.Leads.ite ?_ (Proc.Leads.ite ?_ ?_)
    · exact (Proc.Leads.update fun s => .single (of_putRoom hne s _)).bind fun _ =>
        Proc.Leads.pure _
    · exact (spares_requireParam _ _).bind fun _ =>
        (Proc.Leads.update fun s => .single (of_putRoom hne s _)).bind fun _ => Proc.Leads.pure _
    · exact Proc.Leads.answer _
  | review =>
    refine spares_requireRoom htoken hno fun room hne => Proc.Leads.ite ?_
      (Proc.Leads.ite (spares_reviewPost hne env) (Proc.Leads.answer _))
    exact (spares_requireParam _ _).bind fun _ => (Proc.Leads.failIf _ _).bind fun _ =>
      (spares_readRoom room).bind fun _ => Proc.Leads.pure _

include htoken hno in
/-- Whatever a request without the token of room `r` does, in whatever state: the room is the same
after it, and of the records of the room only the oldest can go, over the cap of the exchange. -/
theorem room_spared (hgithub : ¬ FromGitHub R request) (env : Env) (s : ServiceState C) :
    SparesRoom R r s (serve R request env s).2 ∧
      (serve R request env s).2.recordsOf r <:+ s.recordsOf r := by
  have hleads : Proc.Leads (SparesRoom R r) (fetch R request env) := by
    unfold fetch
    refine Proc.Leads.ite (Proc.Leads.pure _) (Proc.Leads.ite (Proc.Leads.pure _) ?_)
    split
    · next endpoint hpath =>
      exact (Proc.Leads.failWith _).bind fun _ => spares_handle htoken hno env hpath hgithub
    · exact (Proc.Leads.failWith _).bind fun _ => Proc.Leads.pure _
  have hspares : SparesRoom R r s (serve R request env s).2 := by
    unfold serve
    rw [serve_state]
    exact hleads.keeps (I := SparesRoom R r s) (fun _ _ hstep hs => hs.trans hstep) (.refl s)
  exact ⟨hspares, hspares.recordsOf_suffix⟩

end Request

end

/-! ## On the toy host -/

/-- A relay whose room `main` has the token `secret`, and whose exchange holds one record. -/
def oneRecordConfig : RelayConfig := { guardedConfig with
  requireSignatures := false
  cacheExchangeMaxRecords := 1
  cacheExchangeMaxRecords_pos := Nat.one_pos }

/-- A publish with a room token. -/
def publishWithToken (room token : String) : Request :=
  .post "/api/v1/publish" [("room", room), ("sender", "alice"), ("id", "m1")]
    [("x-room-token", token)] ⟨"null", some .null⟩

theorem room_spared_lobby :
    SparesRoom (.toy oneRecordConfig) "main" (.init ())
      (serve (.toy oneRecordConfig) (publishWithToken "lobby" "") (.at 0) (.init ())).2 ∧
    (serve (.toy oneRecordConfig) (publishWithToken "lobby" "") (.at 0) (.init ())).2.recordsOf
      "main" <:+ (ServiceState.init ()).recordsOf "main" :=
  room_spared (R := .toy oneRecordConfig) rfl (by decide)
    (by rintro (⟨h, -⟩ | h) <;> exact absurd h (by decide)) (.at 0) (.init ())

/-- A message of `lobby`, published without the token of `main`, drops the exchange record of
`main`. -/
theorem cap_drops_records :
    readRoomToken (publishWithToken "lobby" "") ≠ "secret" ∧
    ¬ FromGitHub (.toy oneRecordConfig) (publishWithToken "lobby" "") ∧
    let before := afterCalls (.toy oneRecordConfig) () [⟨publishWithToken "main" "secret", .at 0⟩]
    let after := (serve (.toy oneRecordConfig) (publishWithToken "lobby" "") (.at 0) before).2
    (before.recordsOf "main").length = 1 ∧ after.recordsOf "main" = [] := by
  refine ⟨by decide, ?_, by decide, by decide⟩
  rintro (⟨h, -⟩ | h) <;> exact absurd h (by decide)

end BitRelay
