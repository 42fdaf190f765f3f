import BitRelay.Service.Alike
import BitRelay.Replay

/-!
# What refused publishers leave behind

A publish that is refused for its signature (401) has been counted by the rate
limits and has pruned a nonce table. Both stay: the relay counts a request
before it looks at its signature. What the request does not touch is everything
else, and the pruned table is the table as it would be pruned anyway.

Two runs are compared: all requests, and the same without some of the publishes
that were answered 401. The other requests get the same answers in both, as long
as the rate limits refuse the same ones of them and the clock does not run back.

Results:
1. `alike_of_refused`: a refused publish leaves a state that answers as before.
2. `refused_publishes_deletable`: the two runs.
3. `refused_publishes_interfere`: neither condition can be dropped.
-/

namespace BitRelay

section
variable {C : Type} (R : Relay C)

/-! ## Two runs -/

/-- The answers to the requests, in their order. -/
def answersOf : ServiceState C → List Call → List Response
  | _, [] => []
  | s, call :: rest =>
    let (response, s') := serve R call.request call.env s
    response :: answersOf s' rest

/-- A request of a run, and whether it is deleted from it. -/
structure MarkedCall where
  call : Call
  deleted : Bool

/-- The requests that are not deleted. -/
def remaining (calls : List MarkedCall) : List Call :=
  (calls.filter fun m => !m.deleted).map MarkedCall.call

/-- The answers to the requests that are not deleted, in the run of all requests. -/
def remainingAnswers : ServiceState C → List MarkedCall → List Response
  | _, [] => []
  | s, m :: rest =>
    let (response, s') := serve R m.call.request m.call.env s
    if m.deleted then remainingAnswers s' rest else response :: remainingAnswers s' rest

/-- A request that is deleted is a publish, and it is answered 401. -/
def DeletesRefused (s : ServiceState C) (m : MarkedCall) : Prop :=
  m.deleted = true → m.call.request.pathname = "/api/v1/publish" ∧
    (serve R m.call.request m.call.env s).1.status = 401

instance (s : ServiceState C) (m : MarkedCall) : Decidable (DeletesRefused R s m) :=
  inferInstanceAs (Decidable (_ → _))

def ServiceState.serveMarked (s : ServiceState C) (m : MarkedCall) : ServiceState C :=
  serveCall R s m.call

/-- The clock does not run back from one request to a later one. -/
def ClockRuns (calls : List MarkedCall) : Prop :=
  calls.Pairwise fun m m' => m.call.env.nowMs ≤ m'.call.env.nowMs

instance (calls : List MarkedCall) : Decidable (ClockRuns calls) :=
  inferInstanceAs (Decidable (List.Pairwise _ calls))

/-- The answer of a rate limit; it names the limit that refuses the request. -/
def Response.rateRefusal? (response : Response) : Option Response :=
  if response.status = 429 then some response else none

/-- The rate limits refuse the same requests of both runs. -/
def SameRefusals (answers answers' : List Response) : Prop :=
  answers.map Response.rateRefusal? = answers'.map Response.rateRefusal?

instance (answers answers' : List Response) : Decidable (SameRefusals answers answers') :=
  inferInstanceAs (Decidable (_ = _))

/-! ## What a refused publish changes -/

/-- What publish does before it looks at the signature. -/
inductive LimitStep (nowSec : Int) : ServiceState C → ServiceState C → Prop
  | rates (s : ServiceState C) (senderRateCounts ipRateCounts roomRateCounts) :
      LimitStep nowSec s { s with senderRateCounts, ipRateCounts, roomRateCounts }
  | prune (s : ServiceState C) (sender nonce : String) :
      LimitStep nowSec s (s.checkReplay R sender nonce nowSec).2

/-- No table is above the cap. -/
def NoncesCapped (s : ServiceState C) : Prop :=
  ∀ sender, (s.noncesBySender.getD sender ∅).size ≤ R.config.noncePolicy.maxNoncesPerSender

variable {R}

namespace InterferenceLemmas

section
variable {V : PayloadView R.platform} {K : CacheView R.cacheAdapter} {nowSec : Int}
  {s s' t : ServiceState C} {request : Request}

/-- Within the cap, a table that is pruned now is pruned later as it would have been. -/
theorem pruneNonces_later {policy : NoncePolicy} {nonces : NonceTable}
    (hsize : nonces.size ≤ policy.maxNoncesPerSender) {later : Int} (hle : nowSec ≤ later) :
    pruneNonces policy (pruneNonces policy nonces nowSec) later =
      pruneNonces policy nonces later := by
  have hfilter := OrdMap.size_filter_le nonces
    fun _ ts => !decide ((policy.nonceTtlSec : Int) < nowSec - ts)
  have hnow : pruneNonces policy nonces nowSec =
      nonces.filter fun _ ts => !decide ((policy.nonceTtlSec : Int) < nowSec - ts) := by
    simp only [pruneNonces]
    rw [Nat.sub_eq_zero_of_le (hfilter.trans hsize), OrdMap.dropOldest_zero]
  have hboth : (pruneNonces policy nonces nowSec).filter
        (fun _ ts => !decide ((policy.nonceTtlSec : Int) < later - ts)) =
      nonces.filter fun _ ts => !decide ((policy.nonceTtlSec : Int) < later - ts) := by
    rw [hnow]
    apply OrdMap.ext
    show List.filter _ (List.filter _ _) = List.filter _ _
    rw [List.filter_filter]
    refine List.filter_congr fun e _ => ?_
    -- What has not expired later has not expired now.
    by_cases hlive : (policy.nonceTtlSec : Int) < later - e.2
    · simp [hlive]
    · have hlive' : ¬ (policy.nonceTtlSec : Int) < nowSec - e.2 := by omega
      simp [hlive, hlive']
  rw [pruneNonces, hboth, pruneNonces]

theorem capped_of_limitStep (h : LimitStep R nowSec s s') (hs : NoncesCapped R s) :
    NoncesCapped R s' := by
  cases h with
  | rates => exact hs
  | prune sender nonce =>
    intro other
    show ((s.noncesBySender.set sender (pruneNonces _ _ nowSec)).getD other ∅).size ≤ _
    rw [OrdMap.getD, OrdMap.get?_set]
    split
    · exact size_pruneNonces_le _ _ _
    · exact hs other

theorem alike_of_limitStep (h : LimitStep R nowSec s s') (hs : NoncesCapped R s)
    (hst : s.Alike V K nowSec t) : s'.Alike V K nowSec t := by
  cases h with
  | rates =>
    exact ⟨hst.rooms, hst.keys, hst.nonces, hst.records, hst.cursor, hst.githubIssueSync,
      hst.cache⟩
  | prune sender nonce =>
    refine ⟨hst.rooms, hst.keys, fun other later hle => ?_, hst.records, hst.cursor,
      hst.githubIssueSync, hst.cache⟩
    show pruneNonces _ ((s.noncesBySender.set sender (pruneNonces _ _ nowSec)).getD other ∅)
      later = _
    rw [OrdMap.getD, OrdMap.get?_set]
    split
    · next hother =>
      subst hother
      rw [Option.getD_some, pruneNonces_later (hs other) hle]
      exact hst.nonces other later hle
    · exact hst.nonces other later hle

theorem limits_rateLimit {table : ServiceState C → OrdMap String RateCounter}
    {store : ServiceState C → OrdMap String RateCounter → ServiceState C}
    (h : ∀ s m, LimitStep R nowSec s (store s m)) (key : String) (now max windowMs : Nat)
    (error : String) :
    Proc.Leads (LimitStep R nowSec) (rateLimit table store key now max windowMs error) :=
  (Proc.Leads.update fun s => .single (h s _)).bind fun _ => Proc.Leads.failIf _ _

theorem limits_publishArrive (env : Env) :
    Proc.Leads (LimitStep R nowSec) (publishArrive R request env) := by
  have hroom : Proc.Leads (LimitStep R nowSec) (requireRoom R request) :=
    (Proc.Leads.failIf _ _).bind fun _ => (Proc.Leads.failWith _).bind fun _ => Proc.Leads.pure _
  have hsender : Proc.Leads (LimitStep R nowSec)
      (requireParam request "sender" : Handler C String) :=
    (Proc.Leads.failIf _ _).bind fun _ => Proc.Leads.pure _
  refine (Proc.Leads.failIf _ _).bind fun _ => hsender.bind fun _ => hroom.bind fun _ =>
    Proc.Leads.bind ?_ fun _ => Proc.Leads.bind ?_ fun _ => Proc.Leads.bind ?_ fun _ =>
      (Proc.Leads.failIf _ _).bind fun _ => Proc.Leads.pure _
  · unfold ipRateLimit
    split
    · exact limits_rateLimit (fun s m => .rates s s.senderRateCounts m s.roomRateCounts) _ _ _ _ _
    · exact Proc.Leads.pure _
  · exact limits_rateLimit (fun s m => .rates s m s.ipRateCounts s.roomRateCounts) _ _ _ _ _
  · exact limits_rateLimit (fun s m => .rates s s.senderRateCounts s.ipRateCounts m) _ _ _ _ _

theorem limits_publishBegin (input : PublishInput) (env : Env) :
    Proc.Leads (LimitStep R (nowEpochSec env.nowMs)) (publishBegin R request input env) := by
  refine (Proc.Leads.failIf _ _).bind fun _ => (Proc.Leads.ofExcept _).bind fun _ =>
    Proc.Leads.bind ?_ fun _ => Proc.Leads.pure _
  refine (Proc.Leads.ofExcept _).bind fun auth => ?_
  cases auth with
  | none => exact (Proc.Leads.failIf _ _).bind fun _ => Proc.Leads.pure _
  | some auth =>
    have hfresh : Proc.Leads (LimitStep R (nowEpochSec env.nowMs))
        (checkFreshness R input.sender auth.nonce auth.timestampSec (nowEpochSec env.nowMs)) :=
      (Proc.Leads.failIf _ _).bind fun _ =>
        (Proc.Leads.update fun s => .single (.prune s input.sender auth.nonce)).bind fun _ =>
          Proc.Leads.failIf _ _
    exact (hfresh.bind fun _ => Proc.Leads.pure _).bind fun _ => Proc.Leads.pure _

/-- Every early answer of publish comes before it writes anything but limits; a publish that ends
normally is answered neither 401 nor 429. -/
theorem triple_publish (env : Env) {P : ServiceState C → Prop}
    (hP : ∀ s s', LimitStep R (nowEpochSec env.nowMs) s s' → P s → P s') :
    Proc.Triple P (handlePublish R request env)
      (fun response _ => ¬ (response.status = 401 ∨ response.status = 429)) P := by
  have hfinish : ∀ pending, Proc.Triple P (finishSignatureVerification R pending)
      (fun _ _ => True) P := by
    intro pending
    cases pending with
    | none => exact .pure fun _ _ => trivial
    | some pending =>
      refine .bind (.failIf fun _ h => h) fun _ => .bind (Q := fun _ _ => True) ?_ fun _ =>
        .modify fun _ _ => trivial
      refine .bind (.gets _) fun _ => .bind (.ofExcept fun _ h => h.2.2) fun _ =>
        .modify fun _ _ => trivial
  refine .bind (Q := fun _ _ => True) ?_ fun _ => .bind (Q := fun _ _ => True) ?_ fun result => ?_
  · refine .bind (.of_leads (limits_publishArrive env) hP) fun input =>
      .bind (.of_leads (limits_publishBegin input env) hP) fun _ => .bind (hfinish _) fun _ =>
        .pure fun _ _ => trivial
  · exact .update fun _ _ => trivial
  · refine .bind (.modify (Q := fun _ _ => True) fun _ _ => trivial) fun _ => .pure fun _ _ => ?_
    show ¬ (result.status = 401 ∨ result.status = 429)
    cases result with
    | invalidTopic topic => exact show ¬ ((400 : Nat) = 401 ∨ 400 = 429) by decide
    | known cursor => exact show ¬ ((200 : Nat) = 401 ∨ 200 = 429) by decide
    | accepted envelope cursor => exact show ¬ ((200 : Nat) = 401 ∨ 200 = 429) by decide

theorem capped_serve (request : Request) (env : Env) (hs : NoncesCapped R s) :
    NoncesCapped R (serve R request env s).2 := by
  refine serve_keeps (I := NoncesCapped R) (fun s s' hstep hs => ?_) request env hs
  have hwrite : ∀ (sender : String) (nonces : NonceTable),
      nonces.size ≤ R.config.noncePolicy.maxNoncesPerSender →
      ∀ other, ((s.noncesBySender.set sender nonces).getD other ∅).size ≤
        R.config.noncePolicy.maxNoncesPerSender := by
    intro sender nonces hsize other
    rw [OrdMap.getD, OrdMap.get?_set]
    split
    · exact hsize
    · exact hs other
  cases hstep with
  | publish room sender topic id signature payload origin hopCount maxHops _ =>
    unfold ServiceState.publishEntry
    split
    split <;> exact hs
  | annotateKey sender f _ =>
    unfold ServiceState.updateKey
    split <;> exact hs
  | rekey sender f _ =>
    unfold ServiceState.updateKey
    split <;> exact hs
  | prune sender nonce nowSec _ => exact hwrite sender _ (size_pruneNonces_le _ _ _)
  | remember sender nonce ts nowSec _ =>
    refine hwrite sender _ ?_
    rw [OrdMap.size_dropOldest]
    omega
  | rates | room | issueSync | cache | bindKey => exact hs

end

end InterferenceLemmas

open InterferenceLemmas

/-- A publish that is answered 401 or 429 leaves a state that answers as before. -/
theorem alike_of_refused {V : PayloadView R.platform} {K : CacheView R.cacheAdapter}
    {request : Request} {env : Env} {s t : ServiceState C} (hs : NoncesCapped R s)
    (hst : s.Alike V K (nowEpochSec env.nowMs) t)
    (hpath : request.pathname = "/api/v1/publish")
    (hrefused : (serve R request env s).1.status = 401 ∨ (serve R request env s).1.status = 429) :
    (serve R request env s).2.Alike V K (nowEpochSec env.nowMs) t := by
  have hsteps : ∀ s s', LimitStep R (nowEpochSec env.nowMs) s s' →
      NoncesCapped R s ∧ s.Alike V K (nowEpochSec env.nowMs) t →
      NoncesCapped R s' ∧ s'.Alike V K (nowEpochSec env.nowMs) t :=
    fun s s' hstep h => ⟨capped_of_limitStep hstep h.1, alike_of_limitStep hstep h.1 h.2⟩
  have htriple : Proc.Triple
      (fun s => NoncesCapped R s ∧ s.Alike V K (nowEpochSec env.nowMs) t) (fetch R request env)
      (fun response _ => ¬ (response.status = 401 ∨ response.status = 429))
      (fun s => NoncesCapped R s ∧ s.Alike V K (nowEpochSec env.nowMs) t) := by
    have hendpoint : Endpoint.ofPath "/api/v1/publish" = some .publish := by decide
    unfold fetch
    rw [hpath, if_neg (by decide), if_neg (by decide), hendpoint]
    exact .bind (.failWith fun _ h => h) fun _ =>
      (triple_publish env hsteps).conseq (fun _ h => h.2) (fun _ _ h => h) fun _ h => h
  obtain ⟨hok, herror⟩ := htriple s ⟨hs, hst⟩
  unfold serve Handler.serve at hrefused ⊢
  match hrun : (fetch R request env).run s with
  | (.ok response, s') =>
    rw [hrun] at hrefused
    exact absurd hrefused (hok response s' hrun)
  | (.error response, s') => exact (herror response s' hrun).2

/-! ## All runs -/

theorem alike_symm {nowSec : Int} {s t : ServiceState C}
    (h : s.Alike (.exact R.platform) (.exact R.cacheAdapter) nowSec t) :
    t.Alike (.exact R.platform) (.exact R.cacheAdapter) nowSec s where
  rooms room := ⟨(h.rooms room).messages.symm, fun consumer => ((h.rooms room).acks consumer).symm,
    (h.rooms room).presence.symm, fun prId => ((h.rooms room).reviews prId).symm⟩
  keys sender := (h.keys sender).symm
  nonces sender later hle := (h.nonces sender later hle).symm
  records := h.records.symm
  cursor := h.cursor.symm
  githubIssueSync := ⟨h.githubIssueSync.deliveryIds.symm,
    fun deliveryId => (h.githubIssueSync.dlq deliveryId).symm, h.githubIssueSync.dlqOrder.symm⟩
  cache := Eq.symm h.cache

theorem rateRefusal?_eq_some_iff {response refusal : Response} :
    response.rateRefusal? = some refusal ↔ response.status = 429 ∧ response = refusal := by
  unfold Response.rateRefusal?
  split
  · next hstatus => simp [hstatus]
  · next hstatus => simp [hstatus]

/-- A request that the rate limits judge alike in alike states is answered alike. -/
theorem alike_of_sameRefusal {request : Request} {env : Env} {s t : ServiceState C}
    (hs : NoncesCapped R s) (ht : NoncesCapped R t)
    (hst : s.Alike (.exact R.platform) (.exact R.cacheAdapter) (nowEpochSec env.nowMs) t)
    (hsame : (serve R request env s).1.rateRefusal? = (serve R request env t).1.rateRefusal?) :
    (serve R request env s).1 = (serve R request env t).1 ∧
      (serve R request env s).2.Alike (.exact R.platform) (.exact R.cacheAdapter)
        (nowEpochSec env.nowMs) (serve R request env t).2 := by
  by_cases hrefused : request.pathname = Endpoint.publish.path ∧
      (serve R request env s).1.status = 429
  · -- Both states have counted the request, and nothing else.
    obtain ⟨hpath, hstatus⟩ := hrefused
    rw [rateRefusal?_eq_some_iff.mpr ⟨hstatus, rfl⟩] at hsame
    obtain ⟨hstatus', hanswer⟩ := rateRefusal?_eq_some_iff.mp hsame.symm
    have hleft := alike_of_refused hs hst hpath (.inr hstatus)
    exact ⟨hanswer.symm, alike_symm (alike_of_refused ht (alike_symm hleft) hpath (.inr hstatus'))⟩
  · have hrates : request.pathname = Endpoint.publish.path →
        (serve R request env s).1.status ≠ 429 ∧ (serve R request env t).1.status ≠ 429 := by
      intro hpath
      refine ⟨fun hstatus => hrefused ⟨hpath, hstatus⟩, fun hstatus => hrefused ⟨hpath, ?_⟩⟩
      rw [rateRefusal?_eq_some_iff.mpr ⟨hstatus, rfl⟩] at hsame
      exact (rateRefusal?_eq_some_iff.mp hsame).1
    obtain ⟨hanswer, hstate⟩ := alike_serve hst hrates
    refine ⟨?_, hstate⟩
    have hstatus := hanswer.status
    have hbody : (serve R request env s).1.body = (serve R request env t).1.body := hanswer.body
    generalize (serve R request env s).1 = r at hstatus hbody ⊢
    generalize (serve R request env t).1 = r' at hstatus hbody ⊢
    cases r
    cases r'
    exact congrArg₂ Response.mk hstatus hbody

theorem remainingAnswers_eq {calls : List MarkedCall} {s t : ServiceState C} {nowSec : Int}
    (hs : NoncesCapped R s) (ht : NoncesCapped R t)
    (hst : s.Alike (.exact R.platform) (.exact R.cacheAdapter) nowSec t)
    (hnow : ∀ m ∈ calls, nowSec ≤ nowEpochSec m.call.env.nowMs) (hclock : ClockRuns calls)
    (hdeleted : Along (ServiceState.serveMarked R) (DeletesRefused R) s calls)
    (hsame : SameRefusals (remainingAnswers R s calls) (answersOf R t (remaining calls))) :
    remainingAnswers R s calls = answersOf R t (remaining calls) := by
  induction calls generalizing s t nowSec with
  | nil => rfl
  | cons m rest ih =>
    obtain ⟨hrefused, hdeleted⟩ := hdeleted
    obtain ⟨hlater, hclock⟩ := List.pairwise_cons.mp hclock
    have hst' := AlikeLemmas.mono hst (hnow m List.mem_cons_self)
    have hnow' : ∀ m' ∈ rest, nowEpochSec m.call.env.nowMs ≤ nowEpochSec m'.call.env.nowMs :=
      fun m' hm' => ReplayLemmas.nowEpochSec_mono (hlater m' hm')
    have hcapped := capped_serve m.call.request m.call.env hs
    by_cases hmark : m.deleted = true
    · obtain ⟨hpath, hstatus⟩ := hrefused hmark
      have hremaining : remaining (m :: rest) = remaining rest := by
        simp only [remaining, List.filter_cons, hmark, Bool.not_true, Bool.false_eq_true, if_false]
      simp only [remainingAnswers, hmark, if_true, hremaining] at hsame ⊢
      exact ih hcapped ht (alike_of_refused hs hst' hpath (.inl hstatus)) hnow' hclock hdeleted
        hsame
    · have hremaining : remaining (m :: rest) = m.call :: remaining rest := by
        simp only [remaining, List.filter_cons, hmark, Bool.not_false, if_true, List.map_cons]
      simp only [remainingAnswers, hmark, Bool.false_eq_true, if_false, hremaining, answersOf]
        at hsame ⊢
      obtain ⟨hfirst, hsame⟩ := List.cons.inj hsame
      obtain ⟨hresponse, hstate⟩ := alike_of_sameRefusal hs ht hst' hfirst
      have hcapped' := capped_serve m.call.request m.call.env ht
      rw [hresponse, ih hcapped hcapped' hstate hnow' hclock hdeleted hsame]

end

/-! ## On the toy host -/

/-- A publish by `alice`, signed with `key` under `signature`. -/
def publishSignedBy (signature timestamp nonce : String) : Request :=
  .post "/api/v1/publish" [("sender", "alice"), ("id", nonce)]
    [("x-relay-public-key", "k1"), ("x-relay-signature", signature),
      ("x-relay-timestamp", timestamp), ("x-relay-nonce", nonce)] ⟨"null", some .null⟩

/-- Someone else publishes as `alice`, and `alice` publishes after that. -/
def forgedThenSigned : List MarkedCall := [
  ⟨⟨publishSignedBy "other" "1000" "n1", .at 1000000⟩, true⟩,
  ⟨⟨publishSignedBy "k1" "1000" "n2", .at 1000000⟩, false⟩]

/-- A relay that admits one publish per sender and window. -/
def onePublishConfig : RelayConfig := { RelayConfig.default with publishLimitPerWindow := 1 }

/-- `alice` publishes at second 1000; someone publishes as `alice` when that nonce has expired, and
the clock runs back before the first request comes a second time. -/
def replayedBehindClock : List MarkedCall := [
  ⟨⟨publishSignedBy "k1" "1000" "n1", .at 1000000⟩, false⟩,
  ⟨⟨publishSignedBy "other" "2000" "n2", .at 2000000⟩, true⟩,
  ⟨⟨publishSignedBy "k1" "1000" "n1", .at 1000000⟩, false⟩]

end BitRelay
