import BitRelay.Lib.OffsetReader
import BitRelay.Service.Reads
import BitRelay.Webhook.Deliveries

/-!
# Paging through the queue of failed deliveries

A client lists the queue page after page and retries entries that it was shown.
The cursor counts entries of the queue as it is now. A retry that takes an entry
out moves the others up, and the first entry behind the cursor moves in front of
it, where no later page looks.

Results:
1. `serve_dlqList`: what a page answers.
2. `dlqOrder_retry`: a retry leaves the order as it is, or takes its entry out.
3. `shown_iff`: a walk has shown every entry that stayed in the queue exactly
   when no retry took an entry out while there were entries behind the cursor.
4. `entry_missed`: a walk that misses an entry.
-/

namespace BitRelay

open IssueSyncEngine IssueSyncEngine.EngineLemmas QueueLemmas

/-! ## Walks -/

/-- A relay, the cursor that the client goes on from, the ids of the entries it was shown, and
whether a page came back empty. -/
structure DlqWalk (C : Type) where
  service : ServiceState C
  cursor : Nat
  shown : List String
  ended : Bool

inductive DlqWalkEvent
  | page (call : Call)
  | retry (call : Call)

/-- The ids of the entries that a response lists. -/
def Response.listedIds (response : Response) : List String :=
  ((response.body.arrField? "entries").getD []).map fun entry => entry.strField "delivery_id"

section
variable {C : Type} (R : Relay C)

/-- The retry takes its entry out of the queue: the engine does not find it failing again. -/
def TakesOut (s : ServiceState C) (request : Request) : Prop :=
  AdmitsRetry R request ∧ ∃ found,
    s.githubIssueSync.dlq.get? (request.paramTrim "delivery_id") = some found ∧
    ∀ error, checkDelivery R found.event found.deliveryId found.body s.githubIssueSync ≠
      .error (.failed error)

namespace DlqWalk

/-- A walk begins at `after=0`. -/
def start (s : ServiceState C) : DlqWalk C := ⟨s, 0, [], false⟩

/-- The walk goes on when the page was answered. -/
def step (walk : DlqWalk C) : DlqWalkEvent → DlqWalk C
  | .page call =>
    let (response, service) := serve R call.request call.env walk.service
    if response.status = 200 then
      { service
        cursor := (asNonNegativeInt (response.body.get? "next_cursor")).getD walk.cursor
        shown := walk.shown ++ response.listedIds
        ended := walk.ended || response.listedIds.isEmpty }
    else { walk with service }
  | .retry call => { walk with service := serveCall R walk.service call }

/-- Pages go on from the cursor, and only entries that were shown are retried. -/
def Permits (walk : DlqWalk C) : DlqWalkEvent → Prop
  | .page call => call.request.pathname = Endpoint.githubWebhookDlq.path ∧
      normalizeAfter (call.request.param "after") 0 = walk.cursor
  | .retry call => call.request.pathname = Endpoint.githubWebhookDlqRetry.path ∧
      call.request.paramTrim "delivery_id" ∈ walk.shown

instance (walk : DlqWalk C) : (event : DlqWalkEvent) → Decidable (walk.Permits event)
  | .page _ => inferInstanceAs (Decidable (_ ∧ _))
  | .retry _ => inferInstanceAs (Decidable (_ ∧ _))

/-- A retry takes an entry out while there are entries behind the cursor. -/
def Slips (walk : DlqWalk C) : DlqWalkEvent → Prop
  | .page _ => False
  | .retry call => walk.cursor < walk.service.githubIssueSync.dlqOrder.length ∧
      TakesOut R walk.service call.request

/-- The queue as the client reads it. -/
def reader (walk : DlqWalk C) : OffsetReader String :=
  ⟨walk.service.githubIssueSync.dlqOrder, walk.cursor⟩

/-- The invariant of a walk: of the entries that were shown, those that are still queued are in
front of the cursor. -/
structure Sound (walk : DlqWalk C) : Prop where
  queue : QueueSound walk.service.githubIssueSync
  front : ∀ id ∈ walk.shown, id ∈ walk.reader.items → id ∈ walk.reader.seen
  ended : walk.ended = true → walk.reader.items.length ≤ walk.cursor

/-- Every entry in front of the cursor was shown. -/
def Covers (walk : DlqWalk C) : Prop := ∀ id ∈ walk.reader.seen, id ∈ walk.shown

end DlqWalk

end

namespace DlqPagingLemmas

section
variable {C : Type} {R : Relay C} {request : Request} {env : Env} {s : ServiceState C}
  {engine : IssueSyncState}

/-! ## Pages -/

def dlqPage (listed : List IssueSyncDlqEntry × Nat) : Response :=
  okResponse [
    ("next_cursor", .ofNat listed.2),
    ("entries", .arr (listed.1.map fun entry => .obj [
      ("delivery_id", .str entry.deliveryId),
      ("event", .str entry.event),
      ("retry_count", .ofNat entry.retryCount),
      ("created_at", .ofInt entry.createdAt),
      ("updated_at", .ofInt entry.updatedAt),
      ("next_retry_at", .ofInt entry.nextRetryAt),
      ("last_error", .str entry.lastError)]))]

theorem dlqPage_status (listed : List IssueSyncDlqEntry × Nat) : (dlqPage listed).status = 200 := rfl

theorem dlqPage_nextCursor (listed : List IssueSyncDlqEntry × Nat) :
    asNonNegativeInt ((dlqPage listed).body.get? "next_cursor") = some listed.2 :=
  asNonNegativeInt_ofNat listed.2

theorem dlqPage_listedIds (listed : List IssueSyncDlqEntry × Nat) :
    (dlqPage listed).listedIds = listed.1.map IssueSyncDlqEntry.deliveryId := by
  unfold Response.listedIds
  show List.map _ (List.map _ _) = _
  rw [List.map_map]
  rfl

/-- A page is refused whatever the state is, or lists the queue from its cursor on. -/
theorem serve_dlqList (hpath : request.pathname = Endpoint.githubWebhookDlq.path) (env : Env) :
    (∃ r : Response, r.status ≠ 200 ∧ ∀ s, serve R request env s = (r, s)) ∨
    ∀ s, serve R request env s =
      (dlqPage (s.githubIssueSync.listDlq (normalizeAfter (request.param "after") 0)
        (normalizeLimit (request.param "limit") 100)), s) := by
  have hgate := gated_fetch (R := R) env hpath <| .requireMethod <| .refl (do
    let listed ← Proc.gets fun s : ServiceState C =>
      s.githubIssueSync.listDlq (normalizeAfter (request.param "after") 0)
        (normalizeLimit (request.param "limit") 100)
    return dlqPage listed)
  rcases hgate with ⟨-, hrefuses⟩ | ⟨-, hserves⟩
  · exact .inl hrefuses
  · exact .inr hserves

/-- The entries behind a list of queued ids have these ids. -/
theorem map_deliveryId_filterMap (h : QueueSound engine) {ids : List String}
    (hids : ∀ id ∈ ids, id ∈ engine.dlqOrder) :
    (ids.filterMap engine.dlq.get?).map IssueSyncDlqEntry.deliveryId = ids := by
  induction ids with
  | nil => rfl
  | cons id rest ih =>
    obtain ⟨hid, hrest⟩ := List.forall_mem_cons.mp hids
    obtain ⟨entry, hentry⟩ := Option.isSome_iff_exists.mp ((h.wellFormed.queued id).mpr hid)
    rw [List.filterMap_cons, hentry, List.map_cons, ih hrest, h.named id entry hentry]

/-- A page of a walk that is answered reads on from the cursor. -/
theorem step_page {walk : DlqWalk C} (hqueue : QueueSound walk.service.githubIssueSync)
    {call : Call} (hpermits : walk.Permits (.page call)) :
    walk.step R (.page call) = walk ∨
      ∃ limit, 1 ≤ limit ∧ walk.step R (.page call) =
        { walk with
          cursor := (walk.reader.read limit).offset
          shown := walk.shown ++ walk.reader.page limit
          ended := walk.ended || (walk.reader.page limit).isEmpty } := by
  obtain ⟨hpath, hafter⟩ := hpermits
  rcases serve_dlqList (R := R) hpath call.env with ⟨r, hr, hrefuses⟩ | hserves
  · left
    dsimp only [DlqWalk.step]
    rw [hrefuses]
    exact if_neg hr
  · refine .inr ⟨_, normalizeLimit_pos (call.request.param "limit") 100, ?_⟩
    have hids : ∀ id ∈ (walk.service.githubIssueSync.dlqOrder.drop walk.cursor).take
        (normalizeLimit (call.request.param "limit") 100),
        id ∈ walk.service.githubIssueSync.dlqOrder :=
      fun id hid => List.mem_of_mem_drop (List.mem_of_mem_take hid)
    have hlisted := map_deliveryId_filterMap hqueue hids
    dsimp only [DlqWalk.step]
    rw [hserves, hafter, listDlq_eq hqueue.wellFormed.queued]
    dsimp only
    rw [if_pos (dlqPage_status _), dlqPage_nextCursor, dlqPage_listedIds, Option.getD_some, hlisted]
    rfl

/-! ## Retries -/

theorem enqueueDlq_dlqOrder_of_limits {L : Limits} (h : WellFormed L engine) {deliveryId : String}
    (hqueued : engine.dlq.has deliveryId = true) (event : String) (body : Body) (error : String)
    (increment : Bool) (ts : Int) :
    (enqueueDlq L engine deliveryId event body error increment ts).2.dlqOrder =
      engine.dlqOrder := by
  have hsome : (engine.dlq.get? deliveryId).isSome = true := hqueued
  unfold enqueueDlq
  dsimp only
  rw [if_pos hsome, Nat.sub_eq_zero_of_le h.capped]
  rfl

/-- A delivery that is queued already stays where it is. -/
theorem enqueueDlq_dlqOrder (h : QueueSound engine) {deliveryId : String}
    (hqueued : engine.dlq.has deliveryId = true) (event : String) (body : Body) (error : String)
    (increment : Bool) (ts : Int) :
    (engine.enqueueDlq deliveryId event body error increment ts).2.dlqOrder = engine.dlqOrder := by
  rw [enqueueDlq_relay (notMem_dlqOrder h) (h.trimmed deliveryId hqueued).2]
  exact enqueueDlq_dlqOrder_of_limits h.wellFormed hqueued _ _ _ _ _

theorem removeDlq_dlqOrder (h : QueueSound engine) (deliveryId : String) :
    (engine.removeDlq deliveryId).dlqOrder = engine.dlqOrder.erase deliveryId := by
  unfold IssueSyncState.removeDlq
  split
  · rfl
  · next hnew =>
    rw [h.wellFormed.queued] at hnew
    exact (List.erase_of_not_mem hnew).symm

/-- What was remembered is not queued any more after the retry, accepted or not. -/
theorem settle_removeDlq_dlqOrder (h : QueueSound engine) (deliveryId : String) (accepted : Bool)
    (nowSec : Int) :
    ((engine.settle deliveryId accepted nowSec).removeDlq deliveryId).dlqOrder =
      engine.dlqOrder.erase deliveryId := by
  rw [removeDlq_dlqOrder (queueSound_settle h deliveryId accepted nowSec)]
  have hremembered := queueSound_rememberDeliveryId h deliveryId nowSec
  have horder : (engine.rememberDeliveryId deliveryId nowSec).dlqOrder = engine.dlqOrder := by
    unfold IssueSyncState.rememberDeliveryId
    rfl
  unfold IssueSyncState.settle
  generalize engine.rememberDeliveryId deliveryId nowSec = remembered at hremembered horder ⊢
  cases accepted with
  | true =>
    show ((remembered.removeDlq deliveryId).dlqOrder).erase deliveryId = _
    rw [removeDlq_dlqOrder hremembered, horder]
    exact List.erase_of_not_mem h.wellFormed.distinct.not_mem_erase
  | false => exact congrArg (List.erase · deliveryId) horder

/-- A retry is refused whatever the state is, or looks for its entry. -/
theorem serve_dlqRetry (hpath : request.pathname = Endpoint.githubWebhookDlqRetry.path)
    (env : Env) (s : ServiceState C) :
    (¬ AdmitsRetry R request ∧ (serve R request env s).2 = s) ∨
    AdmitsRetry R request ∧ (serve R request env s).2 =
      match s.githubIssueSync.dlq.get? (request.paramTrim "delivery_id") with
      | none => s
      | some found => ((applyGitHubWebhookDelivery R found.event found.deliveryId found.body
          (nowEpochSec env.nowMs) >>= retryAnswer request env found).run s).2 := by
  have hgate := gated_fetch (R := R) env hpath <| .requireMethod <| .requireParam <| .refl (do
    let found ← Proc.gets fun s : ServiceState C =>
      s.githubIssueSync.getDlqEntry (request.paramTrim "delivery_id")
    let found ← Proc.ofExcept
      (found.elim (.error (toErrorResponse "delivery_id not found in dlq" 404)) .ok)
    let result ← applyGitHubWebhookDelivery R found.event found.deliveryId found.body
      (nowEpochSec env.nowMs)
    retryAnswer request env found result)
  rcases hgate with ⟨hshut, r, -, hrefuses⟩ | ⟨⟨hauth, hpost, hid, -⟩, hserves⟩
  · refine .inl ⟨fun hadmits => hshut ?_, by rw [show serve R request env s = (r, s) from hrefuses s]⟩
    exact ⟨hadmits.authorized, hadmits.method, hadmits.named, trivial⟩
  · refine .inr ⟨⟨hpath, hauth, hpost, hid⟩, ?_⟩
    unfold serve
    rw [hserves, serve_state, Proc.run_bind, Proc.run_gets]
    dsimp only [IssueSyncState.getDlqEntry]
    cases s.githubIssueSync.dlq.get? (request.paramTrim "delivery_id") with
    | none => rfl
    | some found => rfl

/-- A retry leaves the order as it is, or takes its entry out. -/
theorem dlqOrder_retry (hpath : request.pathname = Endpoint.githubWebhookDlqRetry.path)
    (h : QueueSound s.githubIssueSync) (env : Env) :
    (TakesOut R s request ∧ (serve R request env s).2.githubIssueSync.dlqOrder =
        s.githubIssueSync.dlqOrder.erase (request.paramTrim "delivery_id")) ∨
    ¬ TakesOut R s request ∧
      (serve R request env s).2.githubIssueSync.dlqOrder = s.githubIssueSync.dlqOrder := by
  rcases serve_dlqRetry (R := R) hpath env s with ⟨hno, hserve⟩ | ⟨hadmits, hserve⟩
  · exact .inr ⟨fun htakes => hno htakes.1, by rw [hserve]⟩
  cases hfound : s.githubIssueSync.dlq.get? (request.paramTrim "delivery_id") with
  | none =>
    rw [hfound] at hserve
    refine .inr ⟨?_, by rw [hserve]⟩
    rintro ⟨-, found, hsome, -⟩
    cases hfound.symm.trans hsome
  | some found =>
    rw [hfound] at hserve
    dsimp only at hserve
    have hnamed := h.named _ found hfound
    have hqueued : s.githubIssueSync.dlq.has (request.paramTrim "delivery_id") = true :=
      Option.isSome_iff_exists.mpr ⟨found, hfound⟩
    have htakes : TakesOut R s request ↔ ∀ error,
        checkDelivery R found.event found.deliveryId found.body s.githubIssueSync ≠
          .error (.failed error) := by
      refine ⟨?_, fun hok => ⟨hadmits, found, hfound, hok⟩⟩
      rintro ⟨-, found', hfound', hok⟩
      rw [Option.some.inj (hfound.symm.trans hfound')]
      exact hok
    rw [hserve, Proc.run_bind, htakes]
    rcases apply_cases (R := R) found.event found.deliveryId found.body (nowEpochSec env.nowMs) s with
      ⟨result, hchecked, hrun⟩ | ⟨mapped, accepted, cursor, event, hchecked, -, hrun, hengine⟩
    · rw [hrun, hchecked]
      dsimp only
      rw [retryAnswer_run]
      cases result with
      | failed error =>
        refine .inr ⟨fun hok => hok error rfl, ?_⟩
        dsimp only
        rw [hnamed, enqueueDlq_dlqOrder h hqueued]
      | duplicate deliveryId event =>
        exact .inl ⟨fun error heq => (by cases heq), removeDlq_dlqOrder h _⟩
      | published deliveryId event accepted mapped cursor =>
        exact .inl ⟨fun error heq => (by cases heq), removeDlq_dlqOrder h _⟩
    · refine .inl ⟨fun error heq => (by cases hchecked.symm.trans heq), ?_⟩
      have htrim : trim (request.paramTrim "delivery_id") = request.paramTrim "delivery_id" :=
        trim_trim _
      generalize (applyGitHubWebhookDelivery R found.event found.deliveryId found.body
        (nowEpochSec env.nowMs)).run s = outcome at hrun hengine ⊢
      obtain ⟨applied, s'⟩ := outcome
      obtain rfl := hrun
      dsimp only at hengine ⊢
      rw [retryAnswer_run, hengine, hnamed, htrim]
      exact settle_removeDlq_dlqOrder h _ _ _

/-! ## Steps of a walk -/

section
variable {walk : DlqWalk C}

theorem queued_iff (h : walk.Sound) (id : String) :
    walk.service.githubIssueSync.dlq.has id = true ↔ id ∈ walk.reader.items :=
  h.queue.wellFormed.queued id

/-- What was not read yet is not among what was seen. -/
theorem not_mem_seen_of_mem_drop (h : walk.Sound) {id : String}
    (hid : id ∈ walk.reader.items.drop walk.cursor) : id ∉ walk.reader.seen := by
  have hnodup : (walk.reader.items.take walk.cursor ++ walk.reader.items.drop walk.cursor).Nodup := by
    rw [List.take_append_drop]
    exact h.queue.wellFormed.distinct
  exact fun hseen => (List.nodup_append.mp hnodup).2.2 id hseen id hid rfl

theorem mem_seen_of_takesOut (h : walk.Sound) {call : Call} (hpermits : walk.Permits (.retry call))
    (htakes : TakesOut R walk.service call.request) :
    call.request.paramTrim "delivery_id" ∈ walk.reader.seen := by
  obtain ⟨-, found, hfound, -⟩ := htakes
  exact h.front _ hpermits.2 ((queued_iff h _).mp (Option.isSome_iff_exists.mpr ⟨found, hfound⟩))

/-- A retry takes its entry out of what the client reads, or changes nothing of it. -/
theorem reader_retry (h : walk.Sound) {call : Call} (hpermits : walk.Permits (.retry call)) :
    (TakesOut R walk.service call.request ∧ (walk.step R (.retry call)).reader =
        walk.reader.erase (call.request.paramTrim "delivery_id")) ∨
    ¬ TakesOut R walk.service call.request ∧
      (walk.step R (.retry call)).reader = walk.reader := by
  refine (dlqOrder_retry (R := R) hpermits.1 h.queue call.env).imp (And.imp_right fun heq => ?_)
    (And.imp_right fun heq => ?_)
  · exact congrArg (OffsetReader.mk · walk.cursor) heq
  · exact congrArg (OffsetReader.mk · walk.cursor) heq

theorem sound_page (h : walk.Sound) {limit : Nat} (hlimit : 1 ≤ limit) :
    DlqWalk.Sound { walk with
      cursor := (walk.reader.read limit).offset
      shown := walk.shown ++ walk.reader.page limit
      ended := walk.ended || (walk.reader.page limit).isEmpty } := by
  refine ⟨h.queue, fun id hid hitem => ?_, fun hended => ?_⟩
  · show id ∈ (walk.reader.read limit).seen
    rw [OffsetReader.seen_read]
    rcases List.mem_append.mp hid with hold | hnew
    · exact List.mem_append_left _ (h.front id hold hitem)
    · exact List.mem_append_right _ hnew
  · show walk.reader.items.length ≤ walk.cursor + (walk.reader.page limit).length
    rcases (Bool.or_eq_true _ _).mp hended with hold | hempty
    · exact (h.ended hold).trans (Nat.le_add_right _ _)
    · -- A page of at least one entry is empty behind the end only.
      have hlength := congrArg List.length (List.isEmpty_iff.mp hempty)
      unfold OffsetReader.page at hlength
      rw [List.length_take, List.length_drop, List.length_nil] at hlength
      have hrest : walk.reader.items.length - walk.reader.offset = 0 := by
        rcases Nat.min_eq_zero_iff.mp hlength with hzero | hzero
        · exact absurd hzero (Nat.ne_of_gt hlimit)
        · exact hzero
      exact (Nat.le_of_sub_eq_zero hrest).trans (Nat.le_add_right _ _)

theorem sound_retry (h : walk.Sound) {call : Call} (hpermits : walk.Permits (.retry call)) :
    (walk.step R (.retry call)).Sound := by
  refine ⟨queueSound_serveCall h.queue call, ?_, ?_⟩
  · rcases reader_retry (R := R) h hpermits with ⟨htakes, hreader⟩ | ⟨-, hreader⟩
    · rw [hreader, OffsetReader.seen_erase (mem_seen_of_takesOut h hpermits htakes)]
      intro id hid hitem
      obtain ⟨hne, hmem⟩ := h.queue.wellFormed.distinct.mem_erase_iff.mp hitem
      exact List.mem_append_left _ ((List.mem_erase_of_ne hne).mpr (h.front id hid hmem))
    · rw [hreader]
      exact h.front
  · intro hended
    have hlength := h.ended hended
    rcases reader_retry (R := R) h hpermits with ⟨-, hreader⟩ | ⟨-, hreader⟩
    · rw [hreader]
      exact List.length_erase_le.trans hlength
    · rw [hreader]
      exact hlength

theorem sound_step (h : walk.Sound) {event : DlqWalkEvent} (hpermits : walk.Permits event) :
    (walk.step R event).Sound := by
  cases event with
  | page call =>
    rcases step_page (R := R) h.queue hpermits with hstep | ⟨limit, hlimit, hstep⟩
    · rw [hstep]
      exact h
    · rw [hstep]
      exact sound_page h hlimit
  | retry call => exact sound_retry h hpermits

/-- Nothing enters the queue during a walk. -/
theorem mem_items_of_step (h : walk.Sound) {event : DlqWalkEvent} (hpermits : walk.Permits event)
    {id : String} (hid : id ∈ (walk.step R event).reader.items) : id ∈ walk.reader.items := by
  cases event with
  | page call =>
    rcases step_page (R := R) h.queue hpermits with hstep | ⟨limit, -, hstep⟩
    · rwa [hstep] at hid
    · rw [hstep] at hid
      exact hid
  | retry call =>
    rcases reader_retry (R := R) h hpermits with ⟨-, hreader⟩ | ⟨-, hreader⟩
    · rw [hreader] at hid
      exact List.mem_of_mem_erase hid
    · rwa [hreader] at hid

/-- A step leaves an entry unread in front of the cursor exactly when there was one, or when one
slips there. -/
theorem covers_step (h : walk.Sound) {event : DlqWalkEvent} (hpermits : walk.Permits event) :
    (walk.step R event).Covers ↔ walk.Covers ∧ ¬ walk.Slips R event := by
  cases event with
  | page call =>
    rw [and_iff_left (show ¬ walk.Slips R (.page call) from id)]
    rcases step_page (R := R) h.queue hpermits with hstep | ⟨limit, -, hstep⟩
    · rw [hstep]
    · rw [hstep]
      show (∀ id ∈ (walk.reader.read limit).seen, id ∈ walk.shown ++ walk.reader.page limit) ↔ _
      rw [OffsetReader.seen_read]
      constructor
      · intro hcovers id hseen
        refine (List.mem_append.mp (hcovers id (List.mem_append_left _ hseen))).resolve_right ?_
        exact fun hpage => not_mem_seen_of_mem_drop h (List.mem_of_mem_take hpage) hseen
      · intro hcovers id hid
        rcases List.mem_append.mp hid with hseen | hpage
        · exact List.mem_append_left _ (hcovers id hseen)
        · exact List.mem_append_right _ hpage
  | retry call =>
    rcases reader_retry (R := R) h hpermits with ⟨htakes, hreader⟩ | ⟨hkeeps, hreader⟩
    case inr =>
      rw [and_iff_left fun hslips : walk.Slips R (.retry call) => hkeeps hslips.2]
      unfold DlqWalk.Covers
      rw [hreader]
      rfl
    have hmem := mem_seen_of_takesOut h hpermits htakes
    unfold DlqWalk.Covers
    rw [hreader, OffsetReader.seen_erase hmem]
    show (∀ id ∈ _, id ∈ walk.shown) ↔ _
    constructor
    · intro hcovers
      refine ⟨fun id hseen => ?_, fun hslips => ?_⟩
      · rcases Decidable.em (id = call.request.paramTrim "delivery_id") with rfl | hne
        · exact hpermits.2
        · exact hcovers id (List.mem_append_left _ ((List.mem_erase_of_ne hne).mpr hseen))
      · -- The first entry behind the cursor would have been shown.
        have hlt : walk.cursor < walk.reader.items.length := hslips.1
        have hfirst : walk.reader.items[walk.cursor] ∈ walk.reader.items.drop walk.cursor := by
          rw [List.drop_eq_getElem_cons hlt]
          exact List.mem_cons_self
        have hslipped : walk.reader.items[walk.cursor] ∈
            (walk.reader.items.drop walk.reader.offset).take 1 := by
          show _ ∈ (walk.reader.items.drop walk.cursor).take 1
          rw [List.drop_eq_getElem_cons hlt]
          exact List.mem_cons_self
        have hshown := hcovers _ (List.mem_append_right _ hslipped)
        exact not_mem_seen_of_mem_drop h hfirst (h.front _ hshown (List.mem_of_mem_drop hfirst))
    · rintro ⟨hcovers, hstays⟩ id hid
      rcases List.mem_append.mp hid with hseen | hslipped
      · exact hcovers id (List.mem_of_mem_erase hseen)
      · have hlong : walk.reader.items.length ≤ walk.reader.offset :=
          Nat.le_of_not_lt fun hlt => hstays ⟨hlt, htakes⟩
        rw [List.drop_of_length_le hlong] at hslipped
        cases hslipped

/-! ## Runs -/

theorem sound_run (h : walk.Sound) {events : List DlqWalkEvent}
    (hpermits : Along (DlqWalk.step R) DlqWalk.Permits walk events) :
    (runFrom (DlqWalk.step R) walk events).Sound :=
  hpermits.invariant (fun _ _ hstep hsound => sound_step hsound hstep) h

theorem covers_run (h : walk.Sound) {events : List DlqWalkEvent}
    (hpermits : Along (DlqWalk.step R) DlqWalk.Permits walk events) :
    (runFrom (DlqWalk.step R) walk events).Covers ↔ walk.Covers ∧
      Along (DlqWalk.step R) (fun walk event => ¬ walk.Slips R event) walk events := by
  induction events generalizing walk with
  | nil => exact (and_iff_left trivial).symm
  | cons event rest ih =>
    rw [runFrom_cons, ih (sound_step h hpermits.1) hpermits.2, covers_step h hpermits.1, and_assoc]
    rfl

theorem mem_items_of_run (h : walk.Sound) {events : List DlqWalkEvent}
    (hpermits : Along (DlqWalk.step R) DlqWalk.Permits walk events) {id : String}
    (hid : id ∈ (runFrom (DlqWalk.step R) walk events).reader.items) :
    id ∈ walk.reader.items := by
  induction events generalizing walk with
  | nil => exact hid
  | cons event rest ih =>
    exact mem_items_of_step h hpermits.1 (ih (sound_step h hpermits.1) hpermits.2 hid)

theorem walkSound_start (h : QueueSound s.githubIssueSync) : (DlqWalk.start s).Sound :=
  ⟨h, fun _ hid => absurd hid List.not_mem_nil, fun hended => by cases hended⟩

theorem covers_start (s : ServiceState C) : (DlqWalk.start s).Covers :=
  fun _ hid => absurd hid List.not_mem_nil

/-- An entry that is queued at the end was queued all the time. -/
theorem stays_iff (h : walk.Sound) {events : List DlqWalkEvent}
    (hpermits : Along (DlqWalk.step R) DlqWalk.Permits walk events) (id : String) :
    (∀ before, before <+: events → (runFrom (DlqWalk.step R) walk
        before).service.githubIssueSync.dlq.has id = true) ↔
      id ∈ (runFrom (DlqWalk.step R) walk events).reader.items := by
  constructor
  · exact fun hall => (queued_iff (sound_run h hpermits) id).mp (hall events List.prefix_rfl)
  · rintro hid before ⟨rest, rfl⟩
    obtain ⟨hbefore, hrest⟩ := along_append.mp hpermits
    have hsound := sound_run h hbefore
    rw [runFrom_append] at hid
    exact (queued_iff hsound id).mpr (mem_items_of_run hsound hrest hid)

end

end

end DlqPagingLemmas

open DlqPagingLemmas

section
variable {C : Type} {R : Relay C}

/-- Requests fill the queue soundly. -/
theorem queueSound_afterCalls (cache : C) (calls : List Call) :
    QueueSound (afterCalls R cache calls).githubIssueSync :=
  runFrom_invariant (I := fun s : ServiceState C => QueueSound s.githubIssueSync)
    (fun _ call h => queueSound_serveCall h call) calls (watchSound_init cache).queue

/-- A walk over a queue that the relay has filled, up to a page that came back empty.

It has shown every entry that was queued all the time exactly when no retry took an entry out while
there were entries behind the cursor. -/
theorem shown_iff {s : ServiceState C} {events : List DlqWalkEvent}
    (h : QueueSound s.githubIssueSync)
    (hpermits : Along (DlqWalk.step R) DlqWalk.Permits (.start s) events)
    (hended : (runFrom (DlqWalk.step R) (.start s) events).ended = true) :
    (∀ id, (∀ before, before <+: events → (runFrom (DlqWalk.step R) (.start s)
        before).service.githubIssueSync.dlq.has id = true) →
      id ∈ (runFrom (DlqWalk.step R) (.start s) events).shown) ↔
      Along (DlqWalk.step R) (fun walk event => ¬ walk.Slips R event) (.start s) events := by
  have hstart := walkSound_start (C := C) h
  have hsound := sound_run hstart hpermits
  have hcovers := covers_run hstart hpermits
  rw [and_iff_right (covers_start s)] at hcovers
  rw [← hcovers]
  -- Behind the last page there is nothing left.
  have hall : (runFrom (DlqWalk.step R) (.start s) events).reader.seen =
      (runFrom (DlqWalk.step R) (.start s) events).reader.items :=
    List.take_of_length_le (hsound.ended hended)
  unfold DlqWalk.Covers
  rw [hall]
  exact forall_congr' fun id => imp_congr_left (stays_iff hstart hpermits id)

end

/-! ## On the toy host -/

/-- The relay of `webhookWorker` when it takes unsigned messages. -/
def openWebhookRelay : Relay Unit :=
  ⟨{ webhookWorker.relay.config with requireSignatures := false }, webhookWorker.relay.platform,
    .noStore⟩

/-- A delivery whose body is no JSON. -/
def brokenDelivery (deliveryId : String) : Request :=
  { issueDelivery with
    headers := [("x-github-event", "issues"), ("x-github-delivery", deliveryId),
      ("x-hub-signature-256", "sha256=" ++ String.ofList (List.replicate 64 'a'))]
    body := ⟨"", none⟩ }

/-- Both `d1` and `d2` are queued. Then `d1` is delivered well, but its message is in the room log
already, so that it stays queued. -/
def queueTwoDeliveries : List Call :=
  let message := Request.post Endpoint.publish.path [("room", "octo-repo"), ("sender", "alice"),
    ("topic", "notes"), ("id", "gh-d1")] [] (Platform.toy.stringify (.obj []))
  [⟨message, .at 0⟩, ⟨brokenDelivery "d1", .at 0⟩, ⟨brokenDelivery "d2", .at 0⟩,
    ⟨issueDelivery, .at 0⟩]

/-- Pages of one entry. After the first one `d1` is retried. -/
def walkWithRetry (cursors : List String) : List DlqWalkEvent :=
  let page (after : String) : DlqWalkEvent := .page
    ⟨.get Endpoint.githubWebhookDlq.path [("after", after), ("limit", "1")], .at 0⟩
  let retry : DlqWalkEvent := .retry
    ⟨.post Endpoint.githubWebhookDlqRetry.path [("delivery_id", "d1")] [] ⟨"", none⟩, .at 0⟩
  page "0" :: retry :: cursors.map page

/-- The retry takes `d1` out, and `d2` has slipped in front of the cursor. -/
theorem entry_missed :
    let start := DlqWalk.start (afterCalls openWebhookRelay () queueTwoDeliveries)
    let run := runFrom (DlqWalk.step openWebhookRelay) start
    Along (DlqWalk.step openWebhookRelay) DlqWalk.Permits start (walkWithRetry ["1"]) ∧
    (run (walkWithRetry ["1"])).ended = true ∧
    ((walkWithRetry ["1"]).inits.all fun before =>
      (run before).service.githubIssueSync.dlq.has "d2") = true ∧
    "d2" ∉ (run (walkWithRetry ["1"])).shown := by
  decide +kernel

/-- A queue with two deliveries that fail again and again. -/
def twoFailing : ServiceState Unit :=
  let fails (deliveryId : String) (s : ServiceState Unit) :=
    (s.enqueueDlq deliveryId "issues" ⟨"", none⟩ "invalid json payload" false 0).2
  fails "d2" (fails "d1" (.init ()))

theorem queueSound_twoFailing : QueueSound twoFailing.githubIssueSync := by
  have hempty : QueueSound (ServiceState.init ()).githubIssueSync := (watchSound_init ()).queue
  exact queueSound_enqueueDlq (queueSound_enqueueDlq hempty (show trim "d1" = "d1" by decide)
    (by decide) _ _ _ _ _) (show trim "d2" = "d2" by decide) (by decide) _ _ _ _ _

/-- The retry of `d1` fails, and the walk goes on to the end. -/
theorem shown_iff_failing :
    let run := runFrom (DlqWalk.step (.toy .default)) (.start twoFailing)
    let events := walkWithRetry ["1", "2"]
    (∀ id, (∀ before, before <+: events →
        (run before).service.githubIssueSync.dlq.has id = true) → id ∈ (run events).shown) ↔
      Along (DlqWalk.step (.toy .default)) (fun walk event => ¬ walk.Slips (.toy .default) event)
        (.start twoFailing) events :=
  shown_iff queueSound_twoFailing (by decide) (by decide)

end BitRelay
