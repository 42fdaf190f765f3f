import BitRelay.Lib.FixedWindow
import BitRelay.Service.Parts

/-!
# The rate limits of publish

A publish passes three fixed-window counters, of its client address, its sender and its room, and
leaves at the first one that refuses it. The counters are followed through all runs of the requests
in flight.

Results:
1. `run_rateStage`: which counters a request reaches, and what it leaves in them.
2. `refuses_start`: the answer of publish says which counter refused it.
3. `tableHits_eq`: the hits of a counter are those of a fixed-window counter.
4. `publish_rates_bounded`: what the answers to the publishes of a run keep to, in any interval of
   the length of a window, and when a counter admits again.
-/

namespace BitRelay

open FixedWindow (Windowed Reopens windowStart decisions)

/-! ## The stage -/

/-- A publish that is about to be counted. -/
structure RateRequest where
  sender : String
  room : String
  clientIp : String
  atMs : Nat

inductive RateTable
  | ip
  | sender
  | room
  deriving DecidableEq

/-- The key under which a table counts a request. -/
def RateTable.key (r : RateRequest) : RateTable → String
  | ip => r.clientIp
  | sender => r.sender
  | room => r.room

def RateTable.limit (config : RelayConfig) : RateTable → Nat
  | ip => config.ipPublishLimitPerWindow
  | sender => config.publishLimitPerWindow
  | room => config.roomPublishLimitPerWindow

/-- The answer with which the counter of a table refuses. -/
def RateTable.refusal : RateTable → Response
  | ip => toErrorResponse "ip rate limit exceeded" 429
  | sender => toErrorResponse "sender rate limit exceeded" 429
  | room => toErrorResponse "room rate limit exceeded" 429

/-- The tables whose counters come first. -/
def RateTable.earlier : RateTable → List RateTable
  | ip => []
  | sender => [ip]
  | room => [ip, sender]

def RateTable.counts {C : Type} (s : ServiceState C) : RateTable → OrdMap String RateCounter
  | ip => s.ipRateCounts
  | sender => s.senderRateCounts
  | room => s.roomRateCounts

section
variable {C : Type} (R : Relay C)

/-- The three counters of `publishArrive`. -/
def rateStage (r : RateRequest) : Handler C Unit := do
  ipRateLimit R r.clientIp r.atMs
  senderRateLimit R r.sender r.atMs
  roomRateLimit R r.room r.atMs

/-- The request of a publish whose gates are open. -/
def rateRequest? (request : Request) (env : Env) : Option RateRequest :=
  let room := normalizeRoom (request.param "room")
  if request.pathname = "/api/v1/publish" ∧ checkAuth R request = none ∧ request.method = "POST" ∧
      request.paramTrim "sender" ≠ "" ∧ isValidRoomName room = true ∧
      checkRoomToken R request room = none
  then some ⟨request.paramTrim "sender", room, extractClientIp request, env.arrivedMs⟩
  else none

namespace RateTable

/-- What the counter of a table says of a request. -/
def verdict (s : ServiceState C) (r : RateRequest) (table : RateTable) : RateCounter × Bool :=
  fallbackRateLimit ((table.counts s).get? (table.key r)) r.atMs (table.limit R.config)
    R.config.publishWindowMs

/-- The request gets as far as the counter of the table. -/
def reached (s : ServiceState C) (r : RateRequest) : RateTable → Bool
  | ip => r.clientIp != ""
  | sender => r.clientIp == "" || (verdict R s r ip).2
  | room => (r.clientIp == "" || (verdict R s r ip).2) && (verdict R s r sender).2

/-- The table after a request. -/
def after (s : ServiceState C) (r : RateRequest) (table : RateTable) :
    OrdMap String RateCounter :=
  if table.reached R s r then (table.counts s).set (table.key r) (table.verdict R s r).1
  else table.counts s

end RateTable

/-- The request gets past the rate stage. -/
def passesRates (s : ServiceState C) (r : RateRequest) : Bool :=
  RateTable.reached R s r .room && (RateTable.verdict R s r .room).2

/-! ## The requests of a run -/

/-- The counter of the table refuses a publish that is answered so. -/
def RateTable.refuses (table : RateTable) : Except Response Progress → Bool
  | .error response => decide (response = table.refusal)
  | .ok _ => false

/-- A publish whose gates are open, and what the service does with it until its first await. -/
structure RateArrival where
  rate : RateRequest
  answer : Except Response Progress

namespace RateArrival

/-- No counter refuses the publish. -/
def passes (a : RateArrival) : Bool :=
  [RateTable.ip, .sender, .room].all fun table => !table.refuses a.answer

/-- The publish gets as far as the counter of the table; there is none for a blank address. -/
def reaches (table : RateTable) (a : RateArrival) : Bool :=
  (table != .ip || a.rate.clientIp != "") && table.earlier.all fun t => !t.refuses a.answer

end RateArrival

def InFlightEvent.rateArrival? (s : ServiceState C) : InFlightEvent → Option RateArrival
  | .arrive request env => (rateRequest? R request env).map fun rate =>
    ⟨rate, ((start R request env).run s).1⟩
  | .resume _ _ => none

/-- The publishes of a run whose gates are open. -/
def rateArrivals (sys : InFlight C) : List InFlightEvent → List RateArrival
  | [] => []
  | event :: events =>
    (event.rateArrival? R sys.service).toList ++ rateArrivals (sys.step R event) events

/-- The publishes that reach the counter of a key, and whether it lets them on. -/
def counterHits (table : RateTable) (key : String) (arrivals : List RateArrival) :
    List (Nat × Bool) :=
  arrivals.filterMap fun a =>
    if table.key a.rate = key ∧ a.reaches table = true then
      some (a.rate.atMs, !table.refuses a.answer)
    else none

/-! The same by what the tables hold. -/

def InFlightEvent.rateRequest? : InFlightEvent → Option RateRequest
  | .arrive request env => BitRelay.rateRequest? R request env
  | .resume _ _ => none

/-- The requests that are counted in a run, each with the state that it meets. -/
def countedRequests (sys : InFlight C) : List InFlightEvent → List (RateRequest × ServiceState C)
  | [] => []
  | event :: events =>
    ((event.rateRequest? R).map fun r => (r, sys.service)).toList ++
      countedRequests (sys.step R event) events

/-- The requests that reach the counter of a key, with its decisions. -/
def tableHits (table : RateTable) (key : String) (requests : List (RateRequest × ServiceState C)) :
    List (Nat × Bool) :=
  requests.filterMap fun a =>
    if table.key a.1 = key ∧ table.reached R a.2 a.1 = true then
      some (a.1.atMs, (table.verdict R a.2 a.1).2)
    else none

variable {R}
variable {s : ServiceState C} {r : RateRequest}

namespace RateLemmas

/-! ## One request -/

theorem run_rateLimit (table : ServiceState C → OrdMap String RateCounter)
    (store : ServiceState C → OrdMap String RateCounter → ServiceState C) (key : String)
    (now max windowMs : Nat) (error : String) (s : ServiceState C) :
    (rateLimit table store key now max windowMs error).run s =
      (if (fallbackRateLimit ((table s).get? key) now max windowMs).2 = true then .ok ()
        else .error (toErrorResponse error 429),
        store s ((table s).set key (fallbackRateLimit ((table s).get? key) now max windowMs).1)) := by
  unfold rateLimit
  rw [Proc.run_bind, Proc.run_update]
  dsimp only
  rw [Proc.run_failIf]
  cases (fallbackRateLimit ((table s).get? key) now max windowMs).2 <;> rfl

end RateLemmas

open RateLemmas

variable (R s r) in
/-- The state behind the rate stage. -/
def countedState : ServiceState C :=
  { s with
    ipRateCounts := RateTable.after R s r .ip
    senderRateCounts := RateTable.after R s r .sender
    roomRateCounts := RateTable.after R s r .room }

theorem counts_countedState (table : RateTable) :
    table.counts (countedState R s r) = table.after R s r := by
  cases table <;> rfl

namespace RateLemmas

theorem after_of_reached {table : RateTable} (h : table.reached R s r = true) :
    table.after R s r = (table.counts s).set (table.key r) (table.verdict R s r).1 :=
  if_pos h

theorem after_of_missed {table : RateTable} (h : table.reached R s r = false) :
    table.after R s r = table.counts s := by
  unfold RateTable.after
  rw [h]
  rfl

theorem run_ipRateLimit (r : RateRequest) (s : ServiceState C) :
    (ipRateLimit R r.clientIp r.atMs).run s =
      (if (r.clientIp == "" || (RateTable.verdict R s r .ip).2) = true then .ok ()
        else .error RateTable.ip.refusal, { s with ipRateCounts := RateTable.after R s r .ip }) := by
  unfold ipRateLimit RateTable.after RateTable.reached
  by_cases hclient : r.clientIp = ""
  · simp only [hclient, ne_eq, not_true_eq_false, if_false, bne_self_eq_false, Bool.false_eq_true,
      beq_self_eq_true, Bool.true_or, if_true]
    rfl
  · have hbne : (r.clientIp != "") = true := bne_iff_ne.mpr hclient
    have hbeq : (r.clientIp == "") = false := beq_eq_false_iff_ne.mpr hclient
    rw [if_pos hclient, run_rateLimit, hbne, hbeq, if_pos rfl, Bool.false_or]
    rfl

theorem run_senderRateLimit (ipRateCounts) :
    (senderRateLimit R r.sender r.atMs).run { s with ipRateCounts } =
      (if (RateTable.verdict R s r .sender).2 = true then .ok ()
        else .error RateTable.sender.refusal,
        { s with
          ipRateCounts
          senderRateCounts :=
            s.senderRateCounts.set r.sender (RateTable.verdict R s r .sender).1 }) :=
  run_rateLimit _ _ _ _ _ _ _ _

theorem run_roomRateLimit (ipRateCounts senderRateCounts) :
    (roomRateLimit R r.room r.atMs).run { s with ipRateCounts, senderRateCounts } =
      (if (RateTable.verdict R s r .room).2 = true then .ok ()
        else .error RateTable.room.refusal,
        { s with
          ipRateCounts
          senderRateCounts
          roomRateCounts := s.roomRateCounts.set r.room (RateTable.verdict R s r .room).1 }) :=
  run_rateLimit _ _ _ _ _ _ _ _

end RateLemmas

/-- A request counts in the tables that it reaches, and the first one that refuses it answers. -/
theorem answer_rateStage : (rateStage R r).run s =
    (if (r.clientIp == "" || (RateTable.verdict R s r .ip).2) = false then .error RateTable.ip.refusal
      else if (RateTable.verdict R s r .sender).2 = false then .error RateTable.sender.refusal
      else if (RateTable.verdict R s r .room).2 = false then .error RateTable.room.refusal
      else .ok (), countedState R s r) := by
  unfold rateStage countedState
  rw [Proc.run_bind, run_ipRateLimit]
  cases hfirst : r.clientIp == "" || (RateTable.verdict R s r .ip).2 with
  | false =>
    have hsender : RateTable.reached R s r .sender = false := hfirst
    have hroom : RateTable.reached R s r .room = false := by
      unfold RateTable.reached
      rw [hfirst, Bool.false_and]
    rw [after_of_missed hsender, after_of_missed hroom]
    rfl
  | true =>
    have hsender : RateTable.reached R s r .sender = true := hfirst
    have hreached : RateTable.reached R s r .room = (RateTable.verdict R s r .sender).2 := by
      unfold RateTable.reached
      rw [hfirst, Bool.true_and]
    rw [if_pos rfl]
    dsimp only
    rw [Proc.run_bind, run_senderRateLimit, after_of_reached hsender]
    cases hsecond : (RateTable.verdict R s r .sender).2 with
    | false =>
      rw [after_of_missed (hreached.trans hsecond)]
      rfl
    | true =>
      rw [if_pos rfl]
      dsimp only
      rw [run_roomRateLimit, after_of_reached (hreached.trans hsecond)]
      cases (RateTable.verdict R s r .room).2 <;> rfl

/-- A request counts in the tables that it reaches, and gets on if the last one allows it. -/
theorem run_rateStage : ((rateStage R r).run s).2 = countedState R s r ∧
    (((rateStage R r).run s).1 = .ok () ↔ passesRates R s r = true) := by
  rw [answer_rateStage]
  refine ⟨rfl, ?_⟩
  unfold passesRates RateTable.reached
  cases r.clientIp == "" || (RateTable.verdict R s r .ip).2 <;>
    cases (RateTable.verdict R s r .sender).2 <;>
      cases (RateTable.verdict R s r .room).2 <;> simp

/-! ## One step -/

variable {request : Request} {env : Env}

namespace RateLemmas

/-- What publish does once its gates are open. -/
theorem start_counted (h : rateRequest? R request env = some r) :
    ∃ input, start R request env = (rateStage R r >>= fun _ =>
      Proc.failIf (exceedsContentLength R request = true) (toErrorResponse "payload too large" 413)
        >>= fun _ => (pure (.inr (.publishBody input)) : Handler C Progress)) := by
  unfold rateRequest? at h
  dsimp only at h
  split at h
  · next hgates =>
    obtain ⟨hpath, hauth, hmethod, hsender, hroom, htoken⟩ := hgates
    cases h
    refine ⟨⟨request.paramTrim "sender", normalizeRoom (request.param "room"),
      publishTopic request, publishId request env.randomUUID, request.paramTrim "sig"⟩, ?_⟩
    unfold start
    rw [hpath, if_neg (by decide), if_neg (by decide)]
    show (Proc.failWith (checkAuth R request) >>= fun _ => Endpoint.publish.start R request env) = _
    simp only [hauth, Endpoint.start, publishArrive, requireMethod, requireParam, requireRoom,
      hmethod, hsender, hroom, htoken, Proc.failIf, Proc.failWith, ne_eq, not_true_eq_false,
      if_false, Bool.true_eq_false, pure_bind, bind_assoc, rateStage]
  · cases h

/-- A publish whose gates are open leaves the tables as the rate stage does. -/
theorem counts_start (h : rateRequest? R request env = some r) (table : RateTable) :
    table.counts ((start R request env).run s).2 = table.after R s r := by
  obtain ⟨input, hstart⟩ := start_counted h
  have hrest : ((start R request env).run s).2 = ((rateStage R r).run s).2 := by
    rw [hstart]
    refine Proc.run_bind_state (fun _ s' => ?_) s
    rw [Proc.run_bind, Proc.run_failIf]
    cases exceedsContentLength R request <;> rfl
  rw [hrest, run_rateStage.1, counts_countedState]

/-- The counter of a table answers the publishes that reach it and that it does not allow. -/
theorem refuses_start (h : rateRequest? R request env = some r) (table : RateTable) :
    table.refuses ((start R request env).run s).1 =
      (table.reached R s r && !(table.verdict R s r).2) := by
  obtain ⟨input, hstart⟩ := start_counted h
  have hown : ∀ table' : RateTable,
      decide (table'.refusal = table.refusal) = decide (table' = table) := by
    intro table'
    cases table' <;> cases table <;> decide
  have hlarge : decide (toErrorResponse "payload too large" 413 = table.refusal) = false := by
    cases table <;> decide
  rw [hstart, Proc.run_bind, answer_rateStage]
  -- The address first, then the sender, then the room.
  cases hfirst : r.clientIp == "" || (RateTable.verdict R s r .ip).2 with
  | false =>
    obtain ⟨hclient, hip⟩ := Bool.or_eq_false_iff.mp hfirst
    simp only [if_true, RateTable.refuses, hown]
    cases table <;> simp [RateTable.reached, hclient, hip, bne]
  | true =>
    have hip : (RateTable.reached R s r .ip && !(RateTable.verdict R s r .ip).2) = false := by
      unfold RateTable.reached
      revert hfirst
      cases hclient : r.clientIp == "" <;>
        cases (RateTable.verdict R s r .ip).2 <;> simp [bne, hclient]
    cases hsecond : (RateTable.verdict R s r .sender).2 with
    | false =>
      simp only [Bool.true_eq_false, if_false, if_true, RateTable.refuses, hown]
      cases table with
      | ip => simp [hip]
      | sender => simp [RateTable.reached, hfirst, hsecond]
      | room => simp [RateTable.reached, hfirst, hsecond]
    | true =>
      cases hthird : (RateTable.verdict R s r .room).2 with
      | false =>
        simp only [Bool.true_eq_false, if_false, if_true, RateTable.refuses, hown]
        cases table with
        | ip => simp [hip]
        | sender => simp [hsecond]
        | room => simp [RateTable.reached, hfirst, hsecond, hthird]
      | true =>
        have hrest : (table.reached R s r && !(table.verdict R s r).2) = false := by
          cases table with
          | ip => exact hip
          | sender => rw [hsecond, Bool.not_true, Bool.and_false]
          | room => rw [hthird, Bool.not_true, Bool.and_false]
        rw [hrest]
        simp only [Bool.true_eq_false, if_false]
        rw [Proc.run_bind, Proc.run_failIf]
        cases exceedsContentLength R request with
        | true => exact hlarge
        | false => rfl

/-- The gates of publish keep the state. -/
theorem run_publishArrive_barred
    (h : ¬ (request.method = "POST" ∧ request.paramTrim "sender" ≠ "" ∧
      isValidRoomName (normalizeRoom (request.param "room")) = true ∧
      checkRoomToken R request (normalizeRoom (request.param "room")) = none)) :
    ((publishArrive R request env).run s).2 = s := by
  unfold publishArrive requireMethod requireParam requireRoom
  by_cases hmethod : request.method = "POST"
  · by_cases hsender : request.paramTrim "sender" = ""
    · simp only [hmethod, hsender, Proc.failIf, ne_eq, not_true_eq_false, if_false, if_true,
        pure_bind, Proc.answer_bind]
      rfl
    · cases hroom : isValidRoomName (normalizeRoom (request.param "room")) with
      | false =>
        simp only [hmethod, hsender, hroom, Proc.failIf, ne_eq, not_true_eq_false, if_false,
          if_true, pure_bind, Proc.answer_bind]
        rfl
      | true =>
        cases htoken : checkRoomToken R request (normalizeRoom (request.param "room")) with
        | some response =>
          simp only [hmethod, hsender, hroom, htoken, Proc.failIf, Proc.failWith, ne_eq,
            not_true_eq_false, if_false, Bool.true_eq_false, pure_bind, Proc.answer_bind]
          rfl
        | none => exact absurd ⟨hmethod, hsender, hroom, htoken⟩ h
  · simp only [hmethod, Proc.failIf, ne_eq, not_false_eq_true, if_true, Proc.answer_bind]
    rfl

/-- Any other request keeps the tables. -/
theorem rates_start_other (h : rateRequest? R request env = none) :
    s.SamePart ((start R request env).run s).2 .rates := by
  unfold start
  by_cases hhealth : request.pathname = "/health"
  · rw [if_pos hhealth]
    exact .refl s _
  by_cases hroot : request.pathname = "/"
  · rw [if_neg hhealth, if_pos hroot]
    exact .refl s _
  rw [if_neg hhealth, if_neg hroot]
  cases hauth : checkAuth R request with
  | some response => split <;> exact .refl s _
  | none =>
    split
    · next endpoint hpath =>
      by_cases hpublish : endpoint = .publish
      · subst hpublish
        have hsame : ((publishArrive R request env).run s).2 = s := by
          refine run_publishArrive_barred fun hgates => ?_
          unfold rateRequest? at h
          rw [if_pos ⟨Endpoint.path_of hpath, hauth, hgates⟩] at h
          cases h
        have hrun : ((Proc.failWith none >>= fun _ => Endpoint.publish.start R request env).run
            s).2 = s := by
          refine Eq.trans ?_ hsame
          exact Proc.run_bind_state (x := publishArrive R request env)
            (f := fun input => (pure (.inr (.publishBody input)) : Handler C Progress))
            (fun _ _ => rfl) s
        rw [hrun]
        exact .refl s _
      · refine Touch.kept (((Proc.Leads.failWith none).bind fun _ => touches_start endpoint) s) ?_
        cases endpoint with
        | publish => exact absurd rfl hpublish
        | _ => decide
    · exact .refl s _

end RateLemmas

open RateLemmas

/-! ## A run -/

/-- A step changes the tables as its request is counted. -/
theorem counts_step (sys : InFlight C) (event : InFlightEvent) (table : RateTable) :
    table.counts (sys.step R event).service =
      match event.rateRequest? R with
      | some r => table.after R sys.service r
      | none => table.counts sys.service := by
  have hsame : ∀ {s s' : ServiceState C}, s.SamePart s' .rates → table.counts s' = table.counts s := by
    rintro s s' ⟨hsender, hip, hroom⟩
    cases table with
    | ip => exact hip
    | sender => exact hsender
    | room => exact hroom
  cases event with
  | arrive request env =>
    show table.counts (sys.arrive R request env).service = _
    rw [service_arrive]
    cases hrate : InFlightEvent.rateRequest? R (.arrive request env) with
    | some r => exact counts_start hrate table
    | none => exact hsame (rates_start_other hrate)
  | resume id env =>
    show table.counts (sys.step R (.resume id env)).service = table.counts sys.service
    cases hget : sys.tasks.get? id with
    | none => simp only [InFlight.step, hget]
    | some task =>
      simp only [InFlight.step, hget]
      rw [service_resumeTask]
      refine hsame (Touch.kept (touches_resume task.phase _) ?_)
      cases task.phase <;> exact of_decide_eq_true rfl

/-- The counter of the library. -/
def RateCounter.toCounter (counter : RateCounter) : FixedWindow.Counter :=
  ⟨counter.count, counter.windowStart⟩

/-- A verdict is a hit of a fixed-window counter. -/
theorem verdict_eq (s : ServiceState C) (r : RateRequest) (table : RateTable) :
    (table.verdict R s r).1.toCounter = FixedWindow.hit R.config.publishWindowMs
      (((table.counts s).get? (table.key r)).map RateCounter.toCounter) r.atMs ∧
    (table.verdict R s r).2 =
      decide ((table.verdict R s r).1.toCounter.count ≤ table.limit R.config) := by
  refine ⟨?_, rfl⟩
  unfold RateTable.verdict fallbackRateLimit FixedWindow.hit
  cases (table.counts s).get? (table.key r) with
  | none => rfl
  | some entry =>
    show RateCounter.toCounter (if R.config.publishWindowMs ≤ r.atMs - entry.windowStart then
      ⟨1, r.atMs⟩ else ⟨entry.count + 1, entry.windowStart⟩) = _
    rw [apply_ite RateCounter.toCounter]
    rfl

variable (R) in
/-- The counter of a key, and the hits of the requests that reach it. -/
theorem tableHits_eq (table : RateTable) (key : String) (sys : InFlight C)
    (events : List InFlightEvent) :
    let hits := tableHits R table key (countedRequests R sys events)
    let counter := ((table.counts sys.service).get? key).map RateCounter.toCounter
    hits = decisions R.config.publishWindowMs (table.limit R.config) counter (hits.map Prod.fst) ∧
      ((table.counts (runFrom (InFlight.step R) sys events).service).get? key).map
          RateCounter.toCounter =
        FixedWindow.counterAfter R.config.publishWindowMs counter (hits.map Prod.fst) := by
  induction events generalizing sys with
  | nil => exact ⟨rfl, rfl⟩
  | cons event events ih =>
    intro hits counter
    obtain ⟨hrest, hlast⟩ := ih (sys.step R event)
    have hcounts := counts_step (R := R) sys event table
    cases hrate : event.rateRequest? R with
    | none =>
      rw [hrate] at hcounts
      have hhits : hits = tableHits R table key (countedRequests R (sys.step R event) events) := by
        show tableHits R table key (_ ++ _) = _
        rw [hrate]
        rfl
      rw [hcounts] at hrest hlast
      rw [hhits]
      exact ⟨hrest, hlast⟩
    | some r =>
      rw [hrate] at hcounts
      have hrequests : countedRequests R sys (event :: events) =
          (r, sys.service) :: countedRequests R (sys.step R event) events := by
        rw [countedRequests, hrate]
        rfl
      by_cases hhit : table.key r = key ∧ table.reached R sys.service r = true
      · -- The request is a hit of the counter.
        have hhits : hits = (r.atMs, (table.verdict R sys.service r).2) ::
            tableHits R table key (countedRequests R (sys.step R event) events) := by
          show tableHits R table key (countedRequests R sys (event :: events)) = _
          rw [hrequests]
          exact List.filterMap_cons_some (if_pos hhit)
        have hcounter : ((table.counts (sys.step R event).service).get? key).map
            RateCounter.toCounter =
              some (FixedWindow.hit R.config.publishWindowMs counter r.atMs) := by
          rw [hcounts]
          dsimp only
          rw [after_of_reached hhit.2, ← hhit.1, OrdMap.get?_set_self, Option.map_some,
            (verdict_eq sys.service r table).1, hhit.1]
        have hallowed : (table.verdict R sys.service r).2 = decide
            ((FixedWindow.hit R.config.publishWindowMs counter r.atMs).count ≤
              table.limit R.config) := by
          rw [(verdict_eq sys.service r table).2, (verdict_eq sys.service r table).1, hhit.1]
        rw [hcounter] at hrest hlast
        rw [hhits]
        refine ⟨?_, hlast⟩
        rw [List.map_cons, decisions, ← hrest, hallowed]
      · have hhits : hits = tableHits R table key (countedRequests R (sys.step R event) events) := by
          show tableHits R table key (countedRequests R sys (event :: events)) = _
          rw [hrequests]
          exact List.filterMap_cons_none (if_neg hhit)
        have hcounter : (table.counts (sys.step R event).service).get? key =
            (table.counts sys.service).get? key := by
          rw [hcounts]
          dsimp only
          unfold RateTable.after
          split
          · next hreached =>
            exact OrdMap.get?_set_of_ne _ (fun heq => hhit ⟨heq.symm, hreached⟩) _
          · rfl
        rw [hcounter] at hrest hlast
        rw [hhits]
        exact ⟨hrest, hlast⟩

/-! ## The bounds -/

namespace RateLemmas

variable (R) in
/-- A publish by its answer, and by what the tables hold. -/
theorem arrival_eq (h : rateRequest? R request env = some r) (table : RateTable) :
    let a : RateArrival := ⟨r, ((start R request env).run s).1⟩
    a.reaches table = table.reached R s r ∧
      (a.reaches table = true → (!table.refuses a.answer) = (table.verdict R s r).2) := by
  intro a
  have hrefuses : ∀ t : RateTable,
      t.refuses a.answer = (t.reached R s r && !(t.verdict R s r).2) :=
    fun t => refuses_start h t
  have hrate : a.rate = r := rfl
  have hip : RateTable.reached R s r .ip = (r.clientIp != "") := rfl
  have hreaches : a.reaches table = table.reached R s r := by
    unfold RateArrival.reaches
    cases table with
    | ip => simp [RateTable.earlier, RateTable.reached, hrate]
    | sender =>
      simp only [RateTable.earlier, List.all_cons, List.all_nil, hrefuses, hip]
      unfold RateTable.reached
      cases hclient : r.clientIp == "" <;> simp [bne, hclient]
    | room =>
      simp only [RateTable.earlier, List.all_cons, List.all_nil, hrefuses, hip]
      unfold RateTable.reached
      cases hclient : r.clientIp == "" <;>
        cases (RateTable.verdict R s r .ip).2 <;> simp [bne, hclient]
  refine ⟨hreaches, fun h => ?_⟩
  rw [hrefuses, ← hreaches, h, Bool.true_and, Bool.not_not]

end RateLemmas

variable (R) in
/-- The hits of a counter by the answers are those by the tables. -/
theorem counterHits_eq (table : RateTable) (key : String) (sys : InFlight C)
    (events : List InFlightEvent) : counterHits table key (rateArrivals R sys events) =
      tableHits R table key (countedRequests R sys events) := by
  induction events generalizing sys with
  | nil => rfl
  | cons event events ih =>
    unfold counterHits tableHits at ih ⊢
    rw [rateArrivals, countedRequests, List.filterMap_append, List.filterMap_append, ih]
    congr 1
    cases event with
    | resume id env => rfl
    | arrive request env =>
      dsimp only [InFlightEvent.rateArrival?, InFlightEvent.rateRequest?]
      cases hrate : BitRelay.rateRequest? R request env with
      | none => rfl
      | some r =>
        obtain ⟨hreaches, hallowed⟩ := arrival_eq R (s := sys.service) hrate table
        simp only [Option.map_some, Option.toList_some, List.filterMap_cons, List.filterMap_nil]
        by_cases hhit : table.key r = key ∧ table.reached R sys.service r = true
        · rw [if_pos ⟨hhit.1, hreaches.trans hhit.2⟩, if_pos hhit,
            hallowed (hreaches.trans hhit.2)]
        · rw [if_neg fun h => hhit ⟨h.1, hreaches.symm.trans h.2⟩, if_neg hhit]

/-- The publishes of a key that pass are among the allowed hits of its counter. -/
theorem countP_passes_le (table : RateTable) (key : String) (hkey : table = .ip → key ≠ "")
    (arrivals : List RateArrival) (p : Nat → Bool) :
    arrivals.countP (fun a => decide (table.key a.rate = key) && (a.passes && p a.rate.atMs)) ≤
      (counterHits table key arrivals).countP fun h => h.2 && p h.1 := by
  induction arrivals with
  | nil => exact Nat.zero_le _
  | cons a arrivals ih =>
    rw [List.countP_cons]
    by_cases hcounted : table.key a.rate = key ∧ a.passes = true ∧ p a.rate.atMs = true
    · obtain ⟨hsame, hpasses, hp⟩ := hcounted
      have hnone : ∀ t : RateTable, t.refuses a.answer = false := by
        intro t
        have hmem : t ∈ [RateTable.ip, .sender, .room] := by cases t <;> decide
        simpa using List.all_eq_true.mp hpasses t hmem
      have hreaches : a.reaches table = true := by
        unfold RateArrival.reaches
        rw [Bool.and_eq_true]
        refine ⟨?_, List.all_eq_true.mpr fun t _ => by rw [hnone t]; rfl⟩
        cases table with
        | ip =>
          have hclient : a.rate.clientIp ≠ "" := fun hempty => hkey rfl (hsame.symm.trans hempty)
          rw [bne_iff_ne.mpr hclient, Bool.or_true]
        | sender => rfl
        | room => rfl
      have hhits : counterHits table key (a :: arrivals) =
          (a.rate.atMs, true) :: counterHits table key arrivals := by
        refine List.filterMap_cons_some ?_
        rw [if_pos ⟨hsame, hreaches⟩, hnone]
        rfl
      rw [hhits, List.countP_cons, hsame, hpasses, hp]
      simp only [decide_true, Bool.and_self, if_true]
      exact Nat.add_le_add_right ih 1
    · have hnot : (decide (table.key a.rate = key) && (a.passes && p a.rate.atMs)) = false := by
        rw [Bool.eq_false_iff]
        intro h
        simp only [Bool.and_eq_true, decide_eq_true_eq] at h
        exact hcounted h
      rw [hnot]
      refine Nat.le_trans ih ?_
      refine List.Sublist.countP_le ?_
      exact (List.sublist_cons_self a arrivals).filterMap _

theorem times_sublist (table : RateTable) (key : String) (arrivals : List RateArrival) :
    ((counterHits table key arrivals).map Prod.fst).Sublist (arrivals.map (·.rate.atMs)) := by
  induction arrivals with
  | nil => exact .slnil
  | cons a arrivals ih =>
    unfold counterHits at ih ⊢
    rw [List.filterMap_cons]
    by_cases hhit : table.key a.rate = key ∧ a.reaches table = true
    · rw [if_pos hhit]
      exact ih.cons_cons _
    · rw [if_neg hhit]
      exact ih.cons _

/-- What the counter of a key does to the publishes of a run. -/
structure RatesBounded (config : RelayConfig) (table : RateTable) (key : String)
    (arrivals : List RateArrival) (s : ServiceState C) : Prop where
  /-- Any half-open interval of the length of a window: at most twice the limit gets past. -/
  interval : ∀ t, arrivals.countP (fun a => decide (table.key a.rate = key) &&
      (a.passes &&
        (decide (t ≤ a.rate.atMs) && decide (a.rate.atMs < t + config.publishWindowMs)))) ≤
    2 * table.limit config
  /-- In each window the first requests up to the limit are allowed, and no other. -/
  windows : Windowed config.publishWindowMs (table.limit config) (counterHits table key arrivals)
  start : ((table.counts s).get? key).map RateCounter.windowStart =
    windowStart config.publishWindowMs ((counterHits table key arrivals).map Prod.fst)
  /-- Once the window is over, the next request is allowed. -/
  readmits : ∀ before now allowed after,
    counterHits table key arrivals = before ++ (now, allowed) :: after →
      Reopens config.publishWindowMs (before.map Prod.fst) now → allowed = true
  /-- A refused request leaves the start of the window where it was. -/
  refused : ∀ before now after,
    counterHits table key arrivals = before ++ (now, false) :: after →
      windowStart config.publishWindowMs (before.map Prod.fst ++ [now]) =
        windowStart config.publishWindowMs (before.map Prod.fst)

/-- The limits after `Math.max(1, …)`. -/
def RelayConfig.NormalLimits (config : RelayConfig) : Prop :=
  ∀ table : RateTable, 0 < table.limit config

/-- The rate limits of publish in every run of requests whose publish times do not decrease, by
what the service answers. -/
theorem publish_rates_bounded (R : Relay C) (hlimits : R.config.NormalLimits) (cache : C)
    (events : List InFlightEvent)
    (hsorted : ((rateArrivals R (.init cache) events).map (·.rate.atMs)).Pairwise (· ≤ ·))
    (table : RateTable) (key : String) (hkey : table = .ip → key ≠ "") :
    RatesBounded R.config table key (rateArrivals R (.init cache) events)
      (runFrom (InFlight.step R) (.init cache) events).service := by
  obtain ⟨hhits, hcounter⟩ := tableHits_eq R table key (.init cache) events
  -- No counter is set at the beginning.
  have hnone : ((table.counts (InFlight.init cache).service).get? key).map RateCounter.toCounter =
      none := by
    cases table <;> rfl
  rw [hnone, ← counterHits_eq] at hhits hcounter
  have htimes : ((counterHits table key (rateArrivals R (.init cache) events)).map
      Prod.fst).Pairwise (· ≤ ·) :=
    hsorted.sublist (times_sublist table key _)
  have hwindows : Windowed R.config.publishWindowMs (table.limit R.config)
      (counterHits table key (rateArrivals R (.init cache) events)) := by
    rw [hhits]
    exact FixedWindow.windowed_decisions htimes
  refine ⟨fun t => ?_, hwindows, ?_, ?_, ?_⟩
  · exact Nat.le_trans (countP_passes_le table key hkey _ fun now =>
      decide (t ≤ now) && decide (now < t + R.config.publishWindowMs))
        (hwindows.countP_le htimes t)
  · rw [← FixedWindow.start_counterAfter, ← hcounter, Option.map_map]
    rfl
  · intro before now allowed after heq hreopens
    exact FixedWindow.allowed_of_reopens (hlimits table) (hhits.symm.trans heq) hreopens
  · intro before now after heq
    exact FixedWindow.windowStart_of_refused (hlimits table) (hhits.symm.trans heq)

/-- Two publishes of one sender within a second. -/
def twoPublishes : List InFlightEvent :=
  let request := Request.post "/api/v1/publish" [("sender", "alice")] [] ⟨"null", some .null⟩
  [.arrive request (.at 0), .arrive request (.at 1000)]

theorem publish_rates_bounded_two :
    RatesBounded RelayConfig.default .sender "alice"
      (rateArrivals (.toy .default) (.init ()) twoPublishes)
      (runFrom (InFlight.step (.toy .default)) (.init ()) twoPublishes).service :=
  publish_rates_bounded (.toy .default) (by intro table; cases table <;> decide) () twoPublishes
    (by decide +kernel) .sender "alice" (by decide)

end

end BitRelay
