import Mathlib.Data.Set.Card
import BitRelay.Lib.Doubles
import BitRelay.Service.Reads

/-!
# The tally of a pull request

A review waits for the verification of its signature, and others run in the
meantime. It is committed in the step that ends this wait. The votes on a pull
request are followed through every interleaving of requests in flight.

Results:
1. `commit_some`, `commit_none`: what a step does to the reviews.
2. `tallied_run`: what the commits of a run leave in the reviews.
3. `reviews_tallied`: the reviews of a pull request, and what the answers report
   of them.
-/

namespace BitRelay

/-! ## Commits -/

/-- A review that was committed, with the time that it read before its verification. -/
structure CommittedReview extends ReviewInput where
  nowSec : Int

/-- The commits of a sender on a pull request, in their order. -/
def commitsOf (commits : List CommittedReview) (room prId sender : String) :
    List CommittedReview :=
  commits.filter fun c => c.room = room ∧ c.prId = prId ∧ c.sender = sender

/-- What the commits of one sender on one pull request leave: the last verdict, and the time of
the first one. -/
def recordOf (commits : List CommittedReview) : Option ReviewRecord :=
  match commits.head?, commits.getLast? with
  | some first, some last => some {
      sender := last.sender
      verdict := last.verdict
      submittedAt := first.nowSec
      updatedAt := last.nowSec }
  | _, _ => none

section
variable {C : Type} (R : Relay C)

namespace InFlight

/-- The response that a step gives, if it does not leave its request waiting. -/
def answer (sys : InFlight C) : InFlightEvent → Option Response
  | .arrive request env =>
    match ((start R request env).run sys.service).1 with
    | .ok (.inl response) => some response
    | .ok (.inr _) => none
    | .error response => some response
  | .resume id env =>
    match sys.tasks.get? id with
    | none => none
    | some task =>
      match ((task.phase.resume R task.request env).run sys.service).1 with
      | .ok (.inl response) => some response
      | .ok (.inr _) => none
      | .error response => some response

/-- The review that a step commits: one that waited for its verification, and that the step
answers with 200. -/
def commit (sys : InFlight C) (event : InFlightEvent) : Option CommittedReview :=
  match event with
  | .arrive _ _ => none
  | .resume id _ =>
    match sys.tasks.get? id with
    | some ⟨_, .reviewVerify input pending⟩ =>
      if (sys.answer R event).any (fun response => response.status = 200) then
        some { input with nowSec := pending.nowSec }
      else none
    | _ => none

/-- The commits of a run, in their order. -/
def commits : InFlight C → List InFlightEvent → List CommittedReview
  | _, [] => []
  | sys, event :: rest => (sys.commit R event).toList ++ commits (sys.step R event) rest

/-- The reviews of a pull request. -/
def reviewsOf (sys : InFlight C) (room prId : String) : OrdMap String ReviewRecord :=
  (sys.service.roomOf room).reviewsByPr.getD prId ∅

end InFlight

end

/-- The response reports the status. -/
structure Response.ReportsStatus (response : Response) (status : ReviewStatus) : Prop where
  resolved : response.body.get? "resolved" = some (.bool status.resolved)
  approveCount : response.body.get? "approve_count" = some (.ofNat status.approveCount)
  denyCount : response.body.get? "deny_count" = some (.ofNat status.denyCount)

/-- The reviews of a pull request are what the commits on it make them, and so is their status. -/
structure Tally (commits : List CommittedReview) (room prId : String)
    (reviews : OrdMap String ReviewRecord) (status : ReviewStatus) : Prop where
  records : ∀ sender, reviews.get? sender = recordOf (commitsOf commits room prId sender)
  senders : (reviews.values.map ReviewRecord.sender).Nodup
  voters : Set.encard {sender | commitsOf commits room prId sender ≠ []} =
    (status.approveCount + status.denyCount : Nat)
  approvals : Set.encard {sender | ∃ last,
      (commitsOf commits room prId sender).getLast? = some last ∧ last.verdict = .approve} =
    status.approveCount
  resolved : status.resolved = true ↔ 0 < status.approveCount + status.denyCount ∧
    status.approveCount + status.denyCount ≤ 2 * status.approveCount
  /-- the source compares the quotient of the two numbers, which are doubles, with one half -/
  quotient : status.approveCount + status.denyCount < 2 ^ 53 →
    let total : Nat := status.approveCount + status.denyCount
    (∃ q, Doubles.Rounds (status.approveCount / total) q) ∧
    ∀ q, Doubles.Rounds (status.approveCount / total) q →
      (status.resolved = true ↔ 0 < total ∧ 1 / 2 ≤ q)

namespace ReviewLemmas

open TouchLemmas

/-! ## Records -/

theorem recordOf_concat (commits : List CommittedReview) (c : CommittedReview) :
    recordOf (commits ++ [c]) = some {
      sender := c.sender
      verdict := c.verdict
      submittedAt := ((recordOf commits).map ReviewRecord.submittedAt).getD c.nowSec
      updatedAt := c.nowSec } := by
  unfold recordOf
  rw [List.getLast?_concat]
  cases commits with
  | nil => rfl
  | cons first rest =>
    obtain ⟨last, hlast⟩ : ∃ last, (first :: rest).getLast? = some last :=
      ⟨_, List.getLast?_eq_some_getLast (List.cons_ne_nil _ _)⟩
    rw [hlast]
    rfl

theorem last_of_recordOf {commits : List CommittedReview} {r : ReviewRecord}
    (h : recordOf commits = some r) : ∃ last, commits.getLast? = some last ∧ last.sender = r.sender ∧
      last.verdict = r.verdict := by
  unfold recordOf at h
  split at h
  · next first last _ hlast =>
    cases h
    exact ⟨last, hlast, rfl, rfl⟩
  · cases h

theorem recordOf_eq_none_iff {commits : List CommittedReview} :
    recordOf commits = none ↔ commits = [] := by
  unfold recordOf
  cases commits with
  | nil => exact ⟨fun _ => rfl, fun _ => rfl⟩
  | cons first rest =>
    rw [List.getLast?_eq_some_getLast (List.cons_ne_nil first rest)]
    constructor
    · intro h
      cases h
    · intro h
      cases h

theorem commitsOf_concat (commits : List CommittedReview) (c : CommittedReview)
    (room prId sender : String) :
    commitsOf (commits ++ [c]) room prId sender = commitsOf commits room prId sender ++
      (if c.room = room ∧ c.prId = prId ∧ c.sender = sender then [c] else []) := by
  unfold commitsOf
  rw [List.filter_append]
  congr 1
  rcases Decidable.em (c.room = room ∧ c.prId = prId ∧ c.sender = sender) with hc | hc
  · rw [if_pos hc, List.filter_cons_of_pos (by simpa using hc)]
    rfl
  · rw [if_neg hc, List.filter_cons_of_neg (by simpa using hc)]
    rfl

/-- The records of a pull request name the sender under which they stand. -/
theorem sender_of_record {commits : List CommittedReview} {room prId sender : String}
    {r : ReviewRecord} (h : recordOf (commitsOf commits room prId sender) = some r) :
    r.sender = sender := by
  obtain ⟨last, hlast, hsender, -⟩ := last_of_recordOf h
  have hmem : last ∈ commitsOf commits room prId sender := List.mem_of_getLast? hlast
  have hcond := of_decide_eq_true (List.mem_filter.mp hmem).2
  rw [← hsender]
  exact hcond.2.2

/-! ## The status -/

/-- The keys whose value satisfies a predicate, in their order. -/
theorem encard_keys (reviews : OrdMap String ReviewRecord) (p : ReviewRecord → Bool) :
    Set.encard {sender | ∃ r, reviews.get? sender = some r ∧ p r = true} =
      (reviews.values.filter p).length := by
  have hlength : (reviews.values.filter p).length = (reviews.filter fun _ r => p r).keys.length := by
    unfold OrdMap.values OrdMap.keys OrdMap.filter
    rw [List.filter_map, List.length_map, List.length_map]
    rfl
  have hset : {sender | ∃ r, reviews.get? sender = some r ∧ p r = true} =
      ((reviews.filter fun _ r => p r).keys.toFinset : Set String) := by
    ext sender
    rw [Finset.mem_coe, List.mem_toFinset, ← OrdMap.has_iff_mem_keys, OrdMap.has,
      Option.isSome_iff_exists]
    simp only [OrdMap.get?_filter_eq_some_iff]
    rfl
  have hnodup : (reviews.filter fun _ r => p r).keys.Nodup := OrdMap.nodup _
  rw [hset, Set.encard_coe_eq_coe_finsetCard, List.toFinset_card_of_nodup hnodup, hlength]

/-- The records decide the whole tally. -/
theorem tally_of_records {commits : List CommittedReview} {room prId : String}
    {reviews : OrdMap String ReviewRecord}
    (h : ∀ sender, reviews.get? sender = recordOf (commitsOf commits room prId sender)) :
    Tally commits room prId reviews (computeReviewStatus reviews) where
  records := h
  senders := by
    have hkeys : reviews.values.map ReviewRecord.sender = reviews.keys := by
      unfold OrdMap.values OrdMap.keys
      rw [List.map_map]
      refine List.map_congr_left fun e he => ?_
      have hget : reviews.get? e.1 = some e.2 := OrdMap.get?_eq_some_iff.mpr he
      rw [h e.1] at hget
      exact sender_of_record hget
    rw [hkeys]
    exact reviews.nodup
  voters := by
    have hset : {sender | commitsOf commits room prId sender ≠ []} =
        {sender | ∃ r, reviews.get? sender = some r ∧ (fun _ => true) r = true} := by
      ext sender
      show commitsOf commits room prId sender ≠ [] ↔ ∃ r, reviews.get? sender = some r ∧ true = true
      rw [ne_eq, ← recordOf_eq_none_iff, ← h sender, ← ne_eq, Option.ne_none_iff_exists']
      exact exists_congr fun r => (and_iff_left rfl).symm
    have hsplit : ∀ l : List ReviewRecord, (l.filter fun _ => true).length =
        (l.filter fun r => r.verdict = .approve).length +
          (l.filter fun r => r.verdict ≠ .approve).length := by
      intro l
      rw [List.filter_true, l.length_eq_length_filter_add fun r => r.verdict = .approve]
      simp only [ne_eq, decide_not]
    rw [hset, encard_keys, hsplit]
    rfl
  approvals := by
    have hset : {sender | ∃ last, (commitsOf commits room prId sender).getLast? = some last ∧
          last.verdict = .approve} =
        {sender | ∃ r, reviews.get? sender = some r ∧ decide (r.verdict = .approve) = true} := by
      ext sender
      show (∃ last, _ ∧ _) ↔ ∃ r, reviews.get? sender = some r ∧ _
      constructor
      · rintro ⟨last, hlast, happrove⟩
        obtain ⟨r, hr⟩ : ∃ r, recordOf (commitsOf commits room prId sender) = some r := by
          rw [← Option.ne_none_iff_exists', ne_eq, recordOf_eq_none_iff]
          intro hnil
          rw [hnil] at hlast
          cases hlast
        obtain ⟨last', hlast', -, hverdict⟩ := last_of_recordOf hr
        cases hlast.symm.trans hlast'
        exact ⟨r, (h sender).trans hr, decide_eq_true (hverdict.symm.trans happrove)⟩
      · rintro ⟨r, hr, happrove⟩
        obtain ⟨last, hlast, -, hverdict⟩ := last_of_recordOf ((h sender).symm.trans hr)
        exact ⟨last, hlast, hverdict.trans (of_decide_eq_true happrove)⟩
    rw [hset, encard_keys]
    rfl
  resolved := by
    unfold computeReviewStatus
    dsimp only
    rw [Bool.and_eq_true, decide_eq_true_eq, decide_eq_true_eq]
  quotient := by
    intro hlt total
    refine ⟨Doubles.exists_rounds _, fun q hq => ?_⟩
    unfold total at hq ⊢
    unfold computeReviewStatus at hlt hq ⊢
    dsimp only at hlt hq ⊢
    rw [Bool.and_eq_true, decide_eq_true_eq, decide_eq_true_eq]
    exact and_congr_right fun hpos => (Doubles.half_le_iff hpos hlt hq).symm

/-! ## One step -/

section
variable {C : Type} {R : Relay C} {request : Request} {env : Env} {s : ServiceState C}

/-- A review writes no verdict before its signature is verified. -/
theorem reviews_start (request : Request) (env : Env) (s : ServiceState C) :
    s.SamePart ((start R request env).run s).2 .reviews := by
  have hstart : ∃ parts, .reviews ∉ parts ∧ Touches parts (start R request env) := by
    unfold start
    split
    · exact ⟨[], List.not_mem_nil, Proc.Leads.pure _⟩
    split
    · exact ⟨[], List.not_mem_nil, Proc.Leads.pure _⟩
    split
    · next endpoint _ =>
      rcases Decidable.em (endpoint = .review) with rfl | hother
      · refine ⟨[.nonces], by decide, (Proc.Leads.failWith _).bind fun _ =>
          (touches_requireRoom _).bind fun room => Proc.Leads.ite ?_ (Proc.Leads.ite ?_ ?_)⟩
        · exact (touches_reviewGet _ _).bind fun _ => Proc.Leads.pure _
        · exact (touches_reviewBegin (by decide) room).bind fun _ => Proc.Leads.pure _
        · exact Proc.Leads.answer _
      · refine ⟨endpoint.writesTo, ?_, (Proc.Leads.failWith _).bind fun _ => touches_start endpoint⟩
        cases endpoint with
        | review => exact absurd rfl hother
        | _ => decide
    · exact ⟨[], List.not_mem_nil, (Proc.Leads.failWith _).bind fun _ => Proc.Leads.pure _⟩
  obtain ⟨parts, hpart, hleads⟩ := hstart
  exact Touch.kept (hleads s) hpart

theorem ensureTofuKey_status {registry : KeyRegistry} {sender publicKey : String} {nowSec : Int}
    {r : Response} (h : ensureTofuKey registry sender publicKey nowSec = .error r) :
    r.status ≠ 200 := by
  unfold ensureTofuKey at h
  split at h
  · cases h
  split at h
  · cases h
    decide
  split at h
  · cases h
    decide
  · cases h

/-- The end of a signature stage refuses with a status other than 200. -/
theorem finishSignature_status {pending : PendingSignature} {r : Response} {s' : ServiceState C}
    (h : (finishSignature R pending).run s = (.error r, s')) : r.status ≠ 200 := by
  unfold finishSignature Proc.failIf at h
  split at h
  · cases h
    decide
  · cases hkey : ensureTofuKey s.keyRegistry pending.sender pending.auth.publicKey
      pending.nowSec with
    | error response =>
      have hbind : (bindKey pending.sender pending.auth.publicKey pending.nowSec :
          Handler C Unit).run s = (.error response, s) := by
        show ((Proc.ofExcept (ensureTofuKey s.keyRegistry pending.sender pending.auth.publicKey
          pending.nowSec) >>= _ : Handler C Unit).run s) = _
        rw [hkey]
        rfl
      have hrun := (Proc.run_bind_of_error (f := fun _ => (Proc.modify (ServiceState.remember R
        pending.sender pending.auth.nonce pending.auth.timestampSec pending.nowSec) :
          Handler C Unit)) hbind).symm.trans h
      cases hrun
      exact ensureTofuKey_status hkey
    | ok registry =>
      have hbind : (bindKey pending.sender pending.auth.publicKey pending.nowSec :
          Handler C Unit).run s = (.ok (), { s with keyRegistry := registry }) := by
        show ((Proc.ofExcept (ensureTofuKey s.keyRegistry pending.sender pending.auth.publicKey
          pending.nowSec) >>= _ : Handler C Unit).run s) = _
        rw [hkey]
        rfl
      have hrun := (Proc.run_bind_of_ok (f := fun _ => (Proc.modify (ServiceState.remember R
        pending.sender pending.auth.nonce pending.auth.timestampSec pending.nowSec) :
          Handler C Unit)) hbind).symm.trans h
      cases hrun

/-- The step that ends the verification of a review: it is refused and the reviews stay, or it is
committed and reported. -/
theorem resume_reviewVerify (request : Request) (env : Env) (input : ReviewInput) (pending : PendingSignature) :
    (∃ r : Response, r.status ≠ 200 ∧
        (((Phase.reviewVerify input pending).resume R request env).run s).1 = .error r ∧
        s.SamePart (((Phase.reviewVerify input pending).resume R request env).run s).2 .reviews) ∨
      ∃ s₁, s.SamePart s₁ .reviews ∧ ∃ r : Response, r.status = 200 ∧
        r.ReportsStatus (ServiceState.submitReview input pending.nowSec s₁).1.2 ∧
        ((Phase.reviewVerify input pending).resume R request env).run s =
          (.ok (.inl r), (ServiceState.submitReview input pending.nowSec s₁).2) := by
  have htouches : Touches [.keys, .nonces] (finishSignature R pending) :=
    touches_finishSignature (by decide) (by decide) pending
  have hkept : s.SamePart ((finishSignature R pending).run s).2 .reviews :=
    Touch.kept (htouches s) (by decide)
  show (∃ r : Response, _ ∧ ((finishSignature R pending >>= fun _ => _).run s).1 = _ ∧
    s.SamePart ((finishSignature R pending >>= fun _ => _).run s).2 _) ∨ ∃ s₁, _ ∧ ∃ r : Response,
      _ ∧ _ ∧ (finishSignature R pending >>= fun _ => _).run s = _
  rcases hfinish : (finishSignature R pending).run s with ⟨r | _, s₁⟩
  · left
    rw [hfinish] at hkept
    rw [Proc.run_bind_of_error hfinish]
    exact ⟨r, finishSignature_status hfinish, rfl, hkept⟩
  · right
    rw [hfinish] at hkept
    refine ⟨s₁, hkept, ?_⟩
    rw [Proc.run_bind_of_ok hfinish]
    exact ⟨_, rfl, ⟨rfl, rfl, rfl⟩, rfl⟩

/-- A submitted review is written under its sender, and no other pull request is written to. -/
theorem reviews_submitReview (s : ServiceState C) (input : ReviewInput) (nowSec : Int)
    (room prId : String) :
    (((ServiceState.submitReview input nowSec s).2.roomOf room).reviewsByPr.getD prId ∅) =
      if input.room = room ∧ input.prId = prId then
        ((s.roomOf room).reviewsByPr.getD prId ∅).set input.sender {
          sender := input.sender
          verdict := input.verdict
          submittedAt := ((((s.roomOf room).reviewsByPr.getD prId ∅).get? input.sender).map
            ReviewRecord.submittedAt).getD nowSec
          updatedAt := nowSec }
      else (s.roomOf room).reviewsByPr.getD prId ∅ := by
  unfold ServiceState.submitReview
  dsimp only
  rcases Decidable.em (input.room = room) with rfl | hroom
  · rw [ServiceState.roomOf_putRoom_self]
    dsimp only
    rcases Decidable.em (input.prId = prId) with rfl | hpr
    · rw [if_pos ⟨rfl, rfl⟩, OrdMap.getD_set_self]
    · rw [if_neg fun h => hpr h.2, OrdMap.getD_set_of_ne _ (Ne.symm hpr)]
  · rw [if_neg fun h => hroom h.1, ServiceState.roomOf_putRoom_of_ne _ (Ne.symm hroom)]

end

/-! ## Steps of the system -/

section
variable {C : Type} {R : Relay C} {sys : InFlight C} {event : InFlightEvent}

theorem commit_resume {id : Nat} {env : Env} {task : Task} (hget : sys.tasks.get? id = some task) :
    sys.commit R (.resume id env) = match task.phase with
      | .reviewVerify input pending =>
        if (sys.answer R (.resume id env)).any (fun response => response.status = 200) then
          some { input with nowSec := pending.nowSec }
        else none
      | _ => none := by
  obtain ⟨request, phase⟩ := task
  unfold InFlight.commit
  dsimp only
  rw [hget]
  cases phase <;> rfl

/-- A step that commits no review leaves all of them. -/
theorem commit_none (h : sys.commit R event = none) :
    sys.service.SamePart (sys.step R event).service .reviews := by
  cases event with
  | arrive request env =>
    show sys.service.SamePart (sys.arrive R request env).service .reviews
    rw [service_arrive]
    exact reviews_start request env sys.service
  | resume id env =>
    cases hget : sys.tasks.get? id with
    | none =>
      rw [show sys.step R (.resume id env) = sys by simp only [InFlight.step, hget]]
      exact .refl _ _
    | some task =>
      have hstep : (sys.step R (.resume id env)).service =
          ((task.phase.resume R task.request env).run sys.service).2 := by
        simp only [InFlight.step, hget]
        exact service_resumeTask sys id task env
      rw [hstep]
      have hkept : .reviews ∉ task.phase.writesTo →
          sys.service.SamePart ((task.phase.resume R task.request env).run sys.service).2
            .reviews := fun hpart => Touch.kept (touches_resume task.phase _) hpart
      obtain ⟨request, phase⟩ := task
      cases phase with
      | reviewVerify input pending =>
        rcases resume_reviewVerify (R := R) request env (s := sys.service)
          input pending with ⟨r, -, -, hsame⟩ | ⟨s₁, -, r, hok, -, hrun⟩
        · exact hsame
        · -- A verified review would have been committed.
          exfalso
          have hanswer : sys.answer R (.resume id env) = some r := by
            unfold InFlight.answer
            dsimp only
            rw [hget]
            dsimp only
            rw [hrun]
          rw [commit_resume hget] at h
          dsimp only at h
          rw [hanswer, if_pos (by simpa using hok)] at h
          cases h
      | _ => exact hkept (of_decide_eq_true rfl)

/-- A step that commits a review writes it and reports the status. -/
theorem commit_some {c : CommittedReview} (h : sys.commit R event = some c) :
    ∃ s₁ r, sys.service.SamePart s₁ .reviews ∧ sys.answer R event = some r ∧
      r.ReportsStatus (ServiceState.submitReview c.toReviewInput c.nowSec s₁).1.2 ∧
      (sys.step R event).service =
        (ServiceState.submitReview c.toReviewInput c.nowSec s₁).2 := by
  cases event with
  | arrive request env => cases h
  | resume id env =>
    cases hget : sys.tasks.get? id with
    | none =>
      unfold InFlight.commit at h
      dsimp only at h
      rw [hget] at h
      cases h
    | some task =>
      rw [commit_resume hget] at h
      have hstep : (sys.step R (.resume id env)).service =
          ((task.phase.resume R task.request env).run sys.service).2 := by
        simp only [InFlight.step, hget]
        exact service_resumeTask sys id task env
      obtain ⟨request, phase⟩ := task
      cases phase with
      | reviewVerify input pending =>
        dsimp only at h hstep
        have hanswer : sys.answer R (.resume id env) =
            match (((Phase.reviewVerify input pending).resume R request env).run sys.service).1 with
            | .ok (.inl response) => some response
            | .ok (.inr _) => none
            | .error response => some response := by
          unfold InFlight.answer
          dsimp only
          rw [hget]
        rcases resume_reviewVerify (R := R) request env (s := sys.service)
          input pending with ⟨r, hr, hrun, -⟩ | ⟨s₁, hsame, r, hok, hreports, hrun⟩
        · rw [hanswer, hrun, if_neg (by simpa using hr)] at h
          cases h
        · rw [hanswer, hrun, if_pos (by simpa using hok)] at h
          cases h
          refine ⟨s₁, r, hsame, ?_, hreports, ?_⟩
          · rw [hanswer, hrun]
          · rw [hstep, hrun]
      | _ => cases h

theorem commits_concat (sys : InFlight C) (events : List InFlightEvent) (event : InFlightEvent) :
    sys.commits R (events ++ [event]) = sys.commits R events ++
      ((runFrom (InFlight.step R) sys events).commit R event).toList := by
  induction events generalizing sys with
  | nil => exact List.append_nil _
  | cons head rest ih =>
    show (sys.commit R head).toList ++ (sys.step R head).commits R (rest ++ [event]) = _
    rw [ih, ← List.append_assoc]
    rfl

/-- The reviews of a pull request after a step. -/
theorem reviewsOf_step (sys : InFlight C) (event : InFlightEvent) (room prId : String) :
    (sys.step R event).reviewsOf room prId = match sys.commit R event with
      | none => sys.reviewsOf room prId
      | some c =>
        if c.room = room ∧ c.prId = prId then
          (sys.reviewsOf room prId).set c.sender {
            sender := c.sender
            verdict := c.verdict
            submittedAt := (((sys.reviewsOf room prId).get? c.sender).map
              ReviewRecord.submittedAt).getD c.nowSec
            updatedAt := c.nowSec }
        else sys.reviewsOf room prId := by
  unfold InFlight.reviewsOf
  cases hcommit : sys.commit R event with
  | none => rw [commit_none hcommit room]
  | some c =>
    obtain ⟨s₁, r, hsame, -, -, hservice⟩ := commit_some hcommit
    rw [hservice, reviews_submitReview, hsame room]

end

end ReviewLemmas

open ReviewLemmas

section
variable {C : Type} {R : Relay C}

/-- After every run the record of a sender is what its commits leave. -/
theorem tallied_run (cache : C) (events : List InFlightEvent) (room prId sender : String) :
    ((runFrom (InFlight.step R) (.init cache) events).reviewsOf room prId).get? sender =
      recordOf (commitsOf ((InFlight.init cache).commits R events) room prId sender) := by
  induction events using List.reverseRecOn with
  | nil => rfl
  | append_singleton events event ih =>
    rw [runFrom_concat, commits_concat, reviewsOf_step]
    cases (runFrom (InFlight.step R) (.init cache) events).commit R event with
    | none => rw [Option.toList_none, List.append_nil, ih]
    | some c =>
      rw [Option.toList_some, commitsOf_concat]
      dsimp only
      rcases Decidable.em (c.room = room ∧ c.prId = prId) with hthere | helse
      · rw [if_pos hthere, OrdMap.get?_set]
        rcases Decidable.em (sender = c.sender) with rfl | hne
        · rw [if_pos rfl, if_pos ⟨hthere.1, hthere.2, rfl⟩, recordOf_concat, ih]
        · rw [if_neg hne, if_neg fun h => hne h.2.2.symm, List.append_nil, ih]
      · rw [if_neg helse, if_neg fun h => helse ⟨h.1, h.2.1⟩, List.append_nil, ih]

/-- A request that is answered in its first step is answered as `serve` answers it. -/
theorem answer_arrive {sys : InFlight C} {request : Request} {env : Env} {response : Response}
    (h : sys.answer R (.arrive request env) = some response) :
    (serve R request env sys.service).1 = response := by
  unfold InFlight.answer at h
  dsimp only at h
  unfold serve Handler.serve
  rw [← complete_start, Proc.run_bind]
  generalize (start R request env).run sys.service = outcome at h ⊢
  obtain ⟨r | (r | phase), s'⟩ := outcome
  · cases h
    rfl
  · cases h
    dsimp only
    rw [InFlightLemmas.complete_inl]
    rfl
  · cases h

/-- A request for the reviews is refused whatever the state is, or answered from its room. -/
theorem gated_reviewGet {request : Request} (env : Env)
    (hpath : request.pathname = Endpoint.review.path) (hmethod : request.method = "GET") :
    ∃ c, GatedBy c (fetch R request env) (do
      let roomState ← readRoom (normalizeRoom (request.param "room"))
      let reviews := roomState.reviewsByPr.getD (request.paramTrim "pr_id") ∅
      let status := computeReviewStatus reviews
      return okResponse [
        ("room", .str (normalizeRoom (request.param "room"))),
        ("pr_id", .str (request.paramTrim "pr_id")),
        ("resolved", .bool status.resolved),
        ("approve_count", .ofNat status.approveCount),
        ("deny_count", .ofNat status.denyCount),
        ("reviews", .arr (reviews.values.map ReviewRecord.toJson))]) :=
  ⟨_, gated_fetch env hpath <| .requireRoom <| .ite_pos hmethod <| .requireParam <|
    .failIf (by decide) (.refl _)⟩

/-- The reviews of a pull request after every interleaving.

They are what the commits on it make them. A request for them reports them with their status, a
commit reports the status that it leaves, and a step that commits elsewhere leaves them alone. -/
theorem reviews_tallied (cache : C) (events : List InFlightEvent) (room prId : String) :
    let sys := runFrom (InFlight.step R) (.init cache) events
    let reviews := sys.reviewsOf room prId
    Tally ((InFlight.init cache).commits R events) room prId reviews
      (computeReviewStatus reviews) ∧
    (∀ request env response, request.pathname = Endpoint.review.path → request.method = "GET" →
      normalizeRoom (request.param "room") = room → request.paramTrim "pr_id" = prId →
      sys.answer R (.arrive request env) = some response → response.status = 200 →
        response.ReportsStatus (computeReviewStatus reviews) ∧
        response.body.get? "reviews" = some (.arr (reviews.values.map ReviewRecord.toJson))) ∧
    (∀ event c, sys.commit R event = some c → c.room = room → c.prId = prId →
      ∃ response, sys.answer R event = some response ∧
        response.ReportsStatus (computeReviewStatus ((sys.step R event).reviewsOf room prId))) ∧
    (∀ event, (∀ c, sys.commit R event = some c → ¬ (c.room = room ∧ c.prId = prId)) →
      (sys.step R event).reviewsOf room prId = reviews) := by
  intro sys reviews
  refine ⟨tally_of_records fun sender => tallied_run cache events room prId sender, ?_, ?_, ?_⟩
  · rintro request env response hpath hmethod rfl rfl hanswer hok
    have hserve := answer_arrive hanswer
    rcases gated_reviewGet (R := R) env hpath hmethod with
      ⟨-, ⟨-, r, hr, hrefuses⟩ | ⟨-, hserves⟩⟩
    · have hrefused : response = r := hserve.symm.trans (congrArg Prod.fst (hrefuses sys.service))
      exact absurd hok (hrefused ▸ hr)
    · have hreport := hserve.symm.trans (congrArg Prod.fst (hserves sys.service))
      rw [hreport]
      exact ⟨⟨rfl, rfl, rfl⟩, rfl⟩
  · rintro event c hcommit rfl rfl
    obtain ⟨s₁, r, -, hanswer, hreports, hservice⟩ := commit_some hcommit
    refine ⟨r, hanswer, ?_⟩
    have hstatus : (ServiceState.submitReview c.toReviewInput c.nowSec s₁).1.2 =
        computeReviewStatus ((sys.step R event).reviewsOf c.room c.prId) := by
      unfold InFlight.reviewsOf
      rw [hservice]
      unfold ServiceState.submitReview
      dsimp only
      rw [ServiceState.roomOf_putRoom_self]
      dsimp only
      rw [OrdMap.getD_set_self]
    rw [← hstatus]
    exact hreports
  · intro event helse
    rw [reviewsOf_step]
    cases hcommit : sys.commit R event with
    | none => rfl
    | some c => exact if_neg (helse c hcommit)

end

end BitRelay
