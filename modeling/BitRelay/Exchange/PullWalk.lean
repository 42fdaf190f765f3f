import BitRelay.Exchange.Peering
import BitRelay.Exchange.TokenGates
import BitRelay.Logs.Suffix
import BitRelay.Snapshot.HandEdited

/-!
# Walking over the exchange log

A peer pulls page after page and goes on from the cursor it was told, while others publish and
push. It keeps its peer id and its room filter and may ask for another limit each time. The
relay may have been put back to a snapshot before the walk begins.

Results:
1. `exchangeLog_run`: in every reachable state the cursors of the records ascend.
2. `serve_pull`: what a relay answers to a pull.
3. `pull_walk_enumerates`: as long as no record is trimmed, a walk has returned exactly the
   records that pass the filters up to its position, each once and in order, and a page
   that is not full ends with the last of them.
-/

namespace BitRelay

/-! ## Walks -/

/-- A relay, the cursor that a peer goes on from, and the entries it was sent. -/
structure PullWalk (C : Type) where
  system : WritingSystem C
  position : Nat
  returned : List JsonValue

inductive WalkEvent (C : Type)
  | other (event : WritingEvent C)
  | pull (request : Request) (env : Env)

section
variable {C : Type} (A : Archive C)

namespace PullWalk

/-- A walk begins at `after=0`. -/
def start (system : WritingSystem C) : PullWalk C := ⟨system, 0, []⟩

def response (walk : PullWalk C) (request : Request) (env : Env) : Response :=
  (serve walk.system.relay request env walk.system.service).1.wire

/-- The entries of the response. -/
def pulled (walk : PullWalk C) (request : Request) (env : Env) : List JsonValue :=
  ((walk.response request env).body.arrField? "entries").getD []

/-- The `next_cursor` of the response. -/
def nextCursor (walk : PullWalk C) (request : Request) (env : Env) : Nat :=
  (asNonNegativeInt ((walk.response request env).body.get? "next_cursor")).getD walk.position

/-- The walk goes on when the pull succeeds. -/
def step (walk : PullWalk C) : WalkEvent C → PullWalk C
  | .other event => { walk with system := walk.system.step A event }
  | .pull request env =>
    let service := (serve walk.system.relay request env walk.system.service).2
    if (walk.response request env).status = 200 then
      { system := { walk.system with service }
        position := walk.nextCursor request env
        returned := walk.returned ++ walk.pulled request env }
    else { walk with system := { walk.system with service } }

variable (peer room : Option String)

/-- The request is the next pull of the walk. -/
structure Continues (walk : PullWalk C) (request : Request) : Prop where
  pathname : request.pathname = "/api/v1/cache/exchange/pull"
  after : (pullArgs request).after = walk.position
  peer : (pullArgs request).peer = peer
  room : (pullArgs request).room = room

/-- Other requests put no snapshot back and trim no record; pulls go on where the walk is. -/
def Permits (walk : PullWalk C) : WalkEvent C → Prop
  | .other event => event.restores = false ∧
      ∀ record ∈ walk.system.service.cacheExchangeRecords,
        record ∈ (walk.system.step A event).service.cacheExchangeRecords
  | .pull request _ => walk.Continues peer room request

instance (walk : PullWalk C) (request : Request) :
    Decidable (walk.Continues peer room request) :=
  decidable_of_iff (request.pathname = "/api/v1/cache/exchange/pull" ∧
      (pullArgs request).after = walk.position ∧ (pullArgs request).peer = peer ∧
      (pullArgs request).room = room)
    ⟨fun ⟨h, h', h'', h'''⟩ => ⟨h, h', h'', h'''⟩, fun ⟨h, h', h'', h'''⟩ => ⟨h, h', h'', h'''⟩⟩

instance (walk : PullWalk C) : (event : WalkEvent C) → Decidable (walk.Permits A peer room event)
  | .other _ => inferInstanceAs (Decidable (_ ∧ _))
  | .pull request _ => inferInstanceAs (Decidable (walk.Continues peer room request))

/-- The records that pass the filters. -/
def eligible (walk : PullWalk C) : List CacheExchangeRecord :=
  walk.system.service.cacheExchangeRecords.filter (exportsRecord ⟨0, 1, peer, room⟩)

/-- The walk has returned the eligible records up to its position, in order. -/
structure Enumerates (walk : PullWalk C) : Prop where
  ascending : (walk.eligible peer room).Pairwise fun r r' => r.cursor < r'.cursor
  returned : walk.returned = ((walk.eligible peer room).filter fun record =>
    record.cursor ≤ walk.position).map fun record => (exportEntry record).wire
  once : walk.returned.Nodup

/-- One page: the position moves when there is anything behind it, and a page that is not full
completes the walk. -/
structure Advances (walk : PullWalk C) (request : Request) (env : Env) : Prop where
  position_le : walk.position ≤ walk.nextCursor request env
  position_lt : (∃ record ∈ walk.system.service.cacheExchangeRecords,
    walk.position < record.cursor) → walk.position < walk.nextCursor request env
  length_le : (walk.pulled request env).length ≤ (pullArgs request).limit
  complete : (walk.pulled request env).length < (pullArgs request).limit →
    walk.returned ++ walk.pulled request env =
      (walk.eligible peer room).map fun record => (exportEntry record).wire

/-- The invariant of a walk. -/
structure Sound (walk : PullWalk C) : Prop where
  tasks : walk.system.ProperTasks
  log : ExchangeLog walk.system.service.cacheExchangeRecords
    walk.system.service.cacheExchangeCursor
  position_le : walk.position ≤ walk.system.service.cacheExchangeCursor
  enumerates : walk.Enumerates peer room

end PullWalk

/-! ## Reachable relays -/

/-- The cursors of the records ascend, and those of every service that was snapshotted do. -/
def WritingSystem.LogsAscend (sys : WritingSystem C) : Prop :=
  ExchangeLog sys.service.cacheExchangeRecords sys.service.cacheExchangeCursor ∧
  ∀ snapshot ∈ sys.taken, ∃ s : ServiceState C, snapshot.value = s.snapshot A ∧
    ExchangeLog s.cacheExchangeRecords s.cacheExchangeCursor

variable {A} {R : Relay C} {s s' : ServiceState C} {w : Write}

namespace WalkLemmas

/-- The exchange part of a snapshot. -/
theorem objField?_snapshot (s : ServiceState C) :
    (s.snapshot A).objField? "cache_exchange" =
      if s.cacheExchangeRecords = [] ∧ s.cacheExchangeCursor = 0 then none
      else some (.obj [
        ("cursor", .ofNat s.cacheExchangeCursor),
        ("records", .arr (s.cacheExchangeRecords.map CacheExchangeRecord.toSnapshot))]) := by
  have hget : (s.snapshot A).get? "cache_exchange" = (exchangeToSnapshot s ++
      cursorsToSnapshot A s.cache ++ webhookToSnapshot s.githubIssueSync).lookup
        "cache_exchange" := rfl
  have hrest : (cursorsToSnapshot A s.cache ++ webhookToSnapshot s.githubIssueSync).lookup
      "cache_exchange" = none := by
    unfold cursorsToSnapshot webhookToSnapshot
    simp only
    split <;> split <;> rfl
  unfold JsonValue.objField?
  rw [hget, List.append_assoc]
  unfold exchangeToSnapshot
  rcases Decidable.em (s.cacheExchangeRecords = [] ∧ s.cacheExchangeCursor = 0) with hempty | hsome
  · rw [if_pos hempty, if_pos hempty, List.nil_append, hrest]
  · rw [if_neg hsome, if_neg hsome]
    rfl

theorem soundRecords_toSnapshot {records : List CacheExchangeRecord}
    (h : CursorLog.Ascending CacheExchangeRecord.cursor records) (cacheExchangeMaxRecords : Nat) :
    SoundRecords cacheExchangeMaxRecords (records.map CacheExchangeRecord.toSnapshot) := by
  have hsub : (newestKept cacheExchangeMaxRecords KeepsRecord
      (records.map CacheExchangeRecord.toSnapshot)).Sublist
        (records.map CacheExchangeRecord.toSnapshot) :=
    (List.drop_sublist _ _).trans List.filter_sublist
  have hcursor : ∀ record : CacheExchangeRecord,
      (record.toSnapshot.truncField? "cursor").getD 0 = record.cursor := by
    intro record
    show ((JsNumber.ofInt (record.cursor : Int)).truncInt?).getD 0 = _
    rw [JsNumber.truncInt?_ofInt, Option.getD_some]
  refine List.Pairwise.sublist hsub (List.pairwise_map.mpr (h.sorted.imp fun hlt => ?_))
  rw [hcursor, hcursor]
  exact Int.ofNat_lt.mpr hlt

/-- A snapshot of a service with ascending cursors is restored to one. -/
theorem exchangeLog_restore_snapshot {before : ServiceState C} {nowMs : Nat}
    (h : ExchangeLog s.cacheExchangeRecords s.cacheExchangeCursor) :
    ExchangeLog (before.restore R A nowMs (s.snapshot A)).cacheExchangeRecords
      (before.restore R A nowMs (s.snapshot A)).cacheExchangeCursor := by
  refine HandEditedLemmas.exchangeLog_restore fun cacheExchange records hobject harray => ?_
  rw [objField?_snapshot] at hobject
  split at hobject
  · cases hobject
  · obtain rfl := Option.some.inj hobject
    obtain rfl := Option.some.inj harray
    exact soundRecords_toSnapshot h.ascending _

theorem exchangeLog_segment {accepted : Option Envelope}
    (h : ExchangeLog s.cacheExchangeRecords s.cacheExchangeCursor)
    (hsegment : Segment R s s' accepted) :
    ExchangeLog s'.cacheExchangeRecords s'.cacheExchangeCursor := by
  cases hsegment with
  | quiet hsame =>
    rw [hsame.records, hsame.cursor]
    exact h
  | accepts w _ happended =>
    rw [happended.records, happended.cursor]
    exact h.append rfl _

theorem logsAscend_turn {event : WritingEvent C} {sys sys' : WritingSystem C}
    (hturn : Turn A event sys sys') (h : sys.LogsAscend A) : sys'.LogsAscend A := by
  obtain ⟨hlog, htaken⟩ := h
  cases hturn with
  | segment accepted relay taken history hsegment =>
    refine ⟨exchangeLog_segment hlog hsegment, ?_⟩
    rw [taken]
    exact htaken
  | snapshot relay service history taken =>
    unfold WritingSystem.LogsAscend
    rw [service, taken]
    refine ⟨hlog, fun snapshot hmem => ?_⟩
    rcases List.mem_append.mp hmem with hold | hnew
    · exact htaken snapshot hold
    · rw [List.mem_singleton.mp hnew]
      exact ⟨sys.service, rfl, hlog⟩
  | restored hrestores snapshot hmem nowMs before taken service history =>
    obtain ⟨s, hvalue, hs⟩ := htaken snapshot hmem
    unfold WritingSystem.LogsAscend
    rw [service, taken, hvalue]
    exact ⟨exchangeLog_restore_snapshot hs, htaken⟩

end WalkLemmas

open WalkLemmas

/-- However the relay came to its state, the cursors of its records ascend. -/
theorem exchangeLog_run (A : Archive C) (relay : Relay C) (cache : C)
    (events : List (WritingEvent C)) :
    (WritingSystem.after A relay cache events).LogsAscend A :=
  run_of_turns (fun _ _ _ => logsAscend_turn)
    ⟨(logsSound_init (R := relay) cache).exchange, fun _ h => absurd h List.not_mem_nil⟩ events

end

/-! ## Pulls -/

section
variable {C : Type} {R : Relay C} {request : Request} {env : Env} {s : ServiceState C}

namespace WalkLemmas

theorem serve_failWith (refused : Option Response) (x : Handler C Response)
    (s : ServiceState C) :
    ((Proc.failWith refused >>= fun _ => x) : Handler C Response).serve s =
      match refused with
      | some response => (response, s)
      | none => x.serve s := by
  cases refused with
  | some response => rfl
  | none => rfl

theorem checkPullRoom_cases (R : Relay C) (request : Request) :
    checkPullRoom R request = none ∨ checkPullRoom R request = some invalidRoomResponse ∨
      checkPullRoom R request = some (toErrorResponse "forbidden" 403) := by
  unfold checkPullRoom
  split
  · exact .inl rfl
  · next room _ =>
    split
    · exact .inr (.inl rfl)
    · exact (checkRoomToken_cases R request room).imp_right .inr

end WalkLemmas

open WalkLemmas TokenGateLemmas

/-- A pull changes nothing. When it is answered with 200 the response is a page of the records. -/
theorem serve_pull (hpath : request.pathname = "/api/v1/cache/exchange/pull") :
    (serve R request env s).2 = s ∧ ((serve R request env s).1.status = 200 →
      let page := selectCacheExchangeEntries s.cacheExchangeRecords (pullArgs request)
      (serve R request env s).1 = okResponse [
        ("protocol", .str "cache.exchange.v1"),
        ("node_id", .str R.config.relayNodeId),
        ("next_cursor", .ofNat page.2),
        ("returned_count", .ofNat page.1.length),
        ("entries", .arr (page.1.map CacheExchangeEntry.toJson))]) := by
  have hendpoint : Endpoint.ofPath request.pathname = some .cacheExchangePull := by
    rw [hpath]
    decide
  have hserve : serve R request env s = (Proc.failWith (checkAuth R request) >>= fun _ =>
      Proc.failIf (request.method ≠ "GET") methodNotAllowedResponse >>= fun _ =>
      Proc.failWith (checkPeerAuth R request) >>= fun _ =>
      Proc.failWith (checkPullRoom R request) >>= fun _ =>
      Proc.gets (fun s => selectCacheExchangeEntries s.cacheExchangeRecords (pullArgs request)) >>=
        fun page => pure (okResponse [
          ("protocol", .str "cache.exchange.v1"),
          ("node_id", .str R.config.relayNodeId),
          ("next_cursor", .ofNat page.2),
          ("returned_count", .ofNat page.1.length),
          ("entries", .arr (page.1.map CacheExchangeEntry.toJson))]) :
        Handler C Response).serve s := serve_endpoint hendpoint
  -- Each gate lets the request through or refuses it with a status of its own.
  rw [hserve, serve_failWith]
  rcases checkAuth_cases R request with hauth | hauth
  case inr => exact hauth ▸ ⟨rfl, fun h => by cases h⟩
  rw [hauth]
  show ((Proc.failIf _ _ >>= _ : Handler C Response).serve s).2 = s ∧ _
  rw [Proc.failIf]
  split
  case isTrue => exact ⟨rfl, fun h => by cases h⟩
  rw [pure_bind, serve_failWith]
  rcases checkPeerAuth_cases R request with hpeer | hpeer
  case inr => exact hpeer ▸ ⟨rfl, fun h => by cases h⟩
  rw [hpeer]
  simp only [serve_failWith]
  rcases checkPullRoom_cases R request with hroom | hroom | hroom
  case inr.inl => exact hroom ▸ ⟨rfl, fun h => by cases h⟩
  case inr.inr => exact hroom ▸ ⟨rfl, fun h => by cases h⟩
  rw [hroom]
  exact ⟨rfl, fun _ => rfl⟩

/-! ## The invariant of a walk -/

variable {A : Archive C} {peer room : Option String} {walk : PullWalk C}

namespace WalkLemmas

/-- Only the peer and the room of a pull filter. -/
theorem exportsRecord_of_continues (h : walk.Continues peer room request) :
    exportsRecord (pullArgs request) = exportsRecord ⟨0, 1, peer, room⟩ := by
  funext record
  unfold exportsRecord
  rw [h.peer, h.room]

/-- A log that keeps all of its records is cut nowhere, unless it had none. -/
theorem appended_of_kept {records records' : List CacheExchangeRecord} {record : CacheExchangeRecord}
    {n : Nat} (hsorted : records.Pairwise fun r r' => r.cursor < r'.cursor)
    (hlt : ∀ r ∈ records, r.cursor < record.cursor)
    (happended : records' = (records ++ [record]).drop n) (hkept : ∀ r ∈ records, r ∈ records') :
    records' = records ++ [record] ∨ records = [] ∧ records' = [] := by
  subst happended
  cases n with
  | zero => exact .inl rfl
  | succ n =>
    cases records with
    | nil => exact .inr ⟨rfl, List.drop_eq_nil_of_le (by simp)⟩
    | cons first rest =>
      -- The first record would be one of those behind it.
      have hmem : first ∈ rest ++ [record] :=
        List.mem_of_mem_drop (hkept first List.mem_cons_self)
      rcases List.mem_append.mp hmem with hrest | hrecord
      · exact absurd ((List.pairwise_cons.mp hsorted).1 first hrest) (Nat.lt_irrefl _)
      · rw [List.mem_singleton] at hrecord
        subst hrecord
        exact absurd (hlt _ List.mem_cons_self) (Nat.lt_irrefl _)

/-- What is appended behind the position is not among what the walk has returned. -/
theorem enumerates_concat {records records' : List CacheExchangeRecord}
    {record : CacheExchangeRecord} {position : Nat} (hlt : position < record.cursor)
    (h : records' = records ++ [record] ∨ records = [] ∧ records' = [])
    (keep : CacheExchangeRecord → Bool) :
    (records'.filter keep).filter (fun r => r.cursor ≤ position) =
      (records.filter keep).filter fun r => r.cursor ≤ position := by
  rcases h with rfl | ⟨rfl, rfl⟩
  · have hnone : ([record].filter keep).filter (fun r => decide (r.cursor ≤ position)) = [] := by
      refine List.filter_eq_nil_iff.mpr fun r hr => ?_
      rw [List.mem_singleton.mp (List.mem_filter.mp hr).1, decide_eq_true_eq]
      exact Nat.not_le.mpr hlt
    rw [List.filter_append, List.filter_append, hnone, List.append_nil]
  · rfl

theorem nodup_wire {records : List CacheExchangeRecord}
    (h : records.Pairwise fun r r' => r.cursor < r'.cursor) :
    (records.map fun record => (exportEntry record).wire).Nodup := by
  refine List.Nodup.of_map entryCursor ?_
  have hcursors : (records.map fun record => (exportEntry record).wire).map entryCursor =
      records.map fun record => some record.cursor := by
    rw [List.map_map]
    exact List.map_congr_left fun record _ => PeeringLemmas.entryCursor_wire (exportEntry record)
  rw [hcursors]
  exact List.pairwise_map.mpr (h.imp fun hlt heq => absurd (Option.some.inj heq) (Nat.ne_of_lt hlt))

theorem enumerates_of_returned
    (hlog : CursorLog.Ascending CacheExchangeRecord.cursor walk.system.service.cacheExchangeRecords)
    (hreturned : walk.returned = ((walk.eligible peer room).filter fun record =>
      record.cursor ≤ walk.position).map fun record => (exportEntry record).wire) :
    walk.Enumerates peer room := by
  have hsorted := hlog.sorted.sublist (List.filter_sublist (p := exportsRecord ⟨0, 1, peer, room⟩))
  refine ⟨hsorted, hreturned, ?_⟩
  rw [hreturned]
  exact nodup_wire (hsorted.sublist List.filter_sublist)

end WalkLemmas

open WalkLemmas

theorem sound_start (A : Archive C) (relay : Relay C) (cache : C) (events : List (WritingEvent C)) :
    (PullWalk.start (WritingSystem.after A relay cache events)).Sound peer room := by
  have hlog := (exchangeLog_run A relay cache events).1
  refine ⟨properTasks_run relay cache events, hlog, Nat.zero_le _,
    enumerates_of_returned hlog.ascending ?_⟩
  have hnone : (((PullWalk.start (WritingSystem.after A relay cache events)).eligible peer
      room).filter fun record => decide (record.cursor ≤ 0)) = [] := by
    refine List.filter_eq_nil_iff.mpr fun record hrecord => ?_
    rw [decide_eq_true_eq, Nat.not_le]
    exact hlog.ascending.pos record (List.mem_filter.mp hrecord).1
  exact (congrArg (List.map fun record => (exportEntry record).wire) hnone).symm

/-- An event besides the walk keeps what the walk has returned. -/
theorem sound_other {event : WritingEvent C} (h : walk.Sound peer room)
    (hpermits : walk.Permits A peer room (.other event)) :
    (walk.step A (.other event)).Sound peer room := by
  obtain ⟨hrestores, hkept⟩ := hpermits
  obtain ⟨hturn, htasks⟩ := WritingSystemLemmas.turn_and_proper (A := A) event h.tasks
  have hsame : ∀ system : WritingSystem C, system.ProperTasks →
      system.service.cacheExchangeRecords = walk.system.service.cacheExchangeRecords →
      system.service.cacheExchangeCursor = walk.system.service.cacheExchangeCursor →
      ({ walk with system } : PullWalk C).Sound peer room := by
    intro system htasks hrecords hcursor
    refine ⟨htasks, ?_, hcursor ▸ h.position_le, enumerates_of_returned ?_ ?_⟩
    · show ExchangeLog system.service.cacheExchangeRecords system.service.cacheExchangeCursor
      rw [hrecords, hcursor]
      exact h.log
    · exact hrecords ▸ h.log.ascending
    · show walk.returned = ((system.service.cacheExchangeRecords.filter _).filter _).map _
      rw [hrecords]
      exact h.enumerates.returned
  cases hturn with
  | segment accepted relay taken history hsegment =>
    have hlog := exchangeLog_segment h.log hsegment
    cases hsegment with
    | quiet hquiet => exact hsame _ htasks hquiet.records hquiet.cursor
    | accepts w _ happended =>
      have hlt : walk.position < (w.record
          (walk.system.service.cacheExchangeCursor + 1)).cursor :=
        Nat.lt_succ_of_le h.position_le
      have hrecords := appended_of_kept h.log.ascending.sorted
        (fun r hr => Nat.lt_succ_of_le (h.log.cursor_le r hr)) happended.records hkept
      refine ⟨htasks, hlog, ?_, enumerates_of_returned hlog.ascending ?_⟩
      · exact (h.position_le.trans (Nat.le_succ _)).trans_eq happended.cursor.symm
      · exact h.enumerates.returned.trans
          (congrArg (List.map _) (enumerates_concat hlt hrecords _).symm)
  | snapshot relay service history taken =>
    exact hsame _ htasks (congrArg _ service) (congrArg _ service)
  | restored hevent => exact absurd (hrestores.symm.trans hevent) Bool.false_ne_true

/-- The pages of a pull. -/
theorem isPage_pull (h : walk.Sound peer room) (hcontinues : walk.Continues peer room request)
    (hstatus : (walk.response request env).status = 200) :
    ∃ items, CursorLog.IsPage CacheExchangeRecord.cursor (exportsRecord ⟨0, 1, peer, room⟩)
        walk.system.service.cacheExchangeRecords walk.position (pullArgs request).limit items
        (walk.nextCursor request env) ∧
      walk.pulled request env = items.map fun record => (exportEntry record).wire := by
  have hresponse := (serve_pull (R := walk.system.relay) (s := walk.system.service)
    hcontinues.pathname).2 hstatus
  obtain ⟨items, hitems, hpage⟩ := isPage_select h.log.ascending (pullArgs request)
  rw [exportsRecord_of_continues hcontinues, hcontinues.after,
    Nat.max_eq_right (show 1 ≤ (pullArgs request).limit from normalizeLimit_pos _ _)] at hpage
  refine ⟨items, ?_, ?_⟩
  · have hnext : walk.nextCursor request env =
        (selectCacheExchangeEntries walk.system.service.cacheExchangeRecords
          (pullArgs request)).2 := by
      unfold PullWalk.nextCursor PullWalk.response Response.wire
      rw [hresponse, JsonValue.get?_normalize]
      show (asNonNegativeInt (some (JsonValue.ofNat _))).getD _ = _
      rw [asNonNegativeInt_ofNat, Option.getD_some]
    rw [hnext]
    exact hpage
  · unfold PullWalk.pulled PullWalk.response Response.wire
    rw [hresponse]
    show (some (JsonValue.normalizeItems _)).getD [] = _
    rw [Option.getD_some, JsonValue.normalizeItems_eq_map, hitems, List.map_map, List.map_map]
    rfl

theorem advances_pull (h : walk.Sound peer room) (hcontinues : walk.Continues peer room request)
    (hstatus : (walk.response request env).status = 200) :
    walk.Advances peer room request env := by
  obtain ⟨items, hpage, hpulled⟩ := isPage_pull h hcontinues hstatus
  have hlength : (walk.pulled request env).length = items.length := by
    rw [hpulled, List.length_map]
  refine ⟨hpage.le, ?_, hlength ▸ hpage.length_le, fun hshort => ?_⟩
  · rintro ⟨record, hrecord, hlt⟩
    rcases Nat.lt_or_ge items.length (pullArgs request).limit with hshort | hfull
    · exact hlt.trans_le (hpage.complete hshort record hrecord)
    · have hpos : 0 < items.length := (normalizeLimit_pos _ _).trans hfull
      obtain ⟨-, -, hafter, hle⟩ := hpage.mem_iff.mp (List.getElem_mem hpos)
      exact hafter.trans_le hle
  · rw [hlength] at hshort
    rw [h.enumerates.returned, hpulled, ← List.map_append]
    refine congrArg (List.map _) ((hpage.append_filter h.log.ascending.sorted).trans ?_)
    refine List.filter_eq_self.mpr fun record hrecord => decide_eq_true ?_
    exact hpage.complete hshort record (List.mem_filter.mp hrecord).1

theorem sound_pull (h : walk.Sound peer room)
    (hpermits : walk.Permits A peer room (.pull request env)) :
    (walk.step A (.pull request env)).Sound peer room := by
  have hcontinues : walk.Continues peer room request := hpermits
  have hservice : (serve walk.system.relay request env walk.system.service).2 =
      walk.system.service := (serve_pull hcontinues.pathname).1
  unfold PullWalk.step
  simp only [hservice]
  split
  · next hstatus =>
    obtain ⟨items, hpage, hpulled⟩ := isPage_pull h hcontinues hstatus
    refine ⟨h.tasks, h.log, ?_, enumerates_of_returned h.log.ascending ?_⟩
    · rcases hpage.next_mem with hnext | ⟨record, hrecord, hnext⟩
      · exact hnext.trans_le h.position_le
      · exact hnext.symm.trans_le (h.log.cursor_le record hrecord)
    · show walk.returned ++ walk.pulled request env = _
      rw [h.enumerates.returned, hpulled, ← List.map_append]
      exact congrArg (List.map _) (hpage.append_filter h.log.ascending.sorted)
  · exact h

theorem walk_step {event : WalkEvent C} (h : walk.Sound peer room)
    (hpermits : walk.Permits A peer room event) : (walk.step A event).Sound peer room := by
  cases event with
  | other event => exact sound_other h hpermits
  | pull request env => exact sound_pull h hpermits

end

/-- A walk over the log of a reachable relay, with other requests between its pulls, has returned
each eligible record up to its position once and in order. A pull that is answered moves the
position, never back, and when its page is not full every eligible record has been returned. -/
theorem pull_walk_enumerates {C : Type} (A : Archive C) (relay : Relay C) (cache : C)
    (events : List (WritingEvent C)) (peer room : Option String) (steps : List (WalkEvent C))
    (h : Along (PullWalk.step A) (PullWalk.Permits A peer room)
      (.start (WritingSystem.after A relay cache events)) steps) :
    let walk := runFrom (PullWalk.step A) (.start (WritingSystem.after A relay cache events)) steps
    walk.Enumerates peer room ∧ ∀ request env, walk.Continues peer room request →
      (walk.response request env).status = 200 → walk.Advances peer room request env := by
  intro walk
  have hsound : walk.Sound peer room := h.invariant
    (fun _ _ hpermits hwalk => walk_step hwalk hpermits) (sound_start A relay cache events)
  exact ⟨hsound.enumerates, fun request env => advances_pull hsound⟩

/-! ## On the toy host -/

def toyPull (after limit : String) : Request :=
  .get "/api/v1/cache/exchange/pull" [("after", after), ("limit", limit), ("peer", "relay-c")]

/-- A push of one message. -/
def pushOf (id origin : String) : WritingEvent Unit :=
  .arrive ⟨⟨toyPush [.obj [
    ("room", .str "main"), ("id", .str id), ("sender", .str "alice"), ("topic", .str "notify"),
    ("payload", .null), ("origin", .str origin), ("hop_count", .ofNat 1)]], .at 0⟩, freeText_uuid⟩

/-- After a restore, pages of one entry, with two more messages behind the first page. -/
def toyWalk : List (WalkEvent Unit) := [
  .pull (toyPull "0" "1") (.at 0),
  .other (pushOf "m2" "relay-c"), .other (.resume 1 ⟨.at 0, freeText_uuid⟩),
  .other (pushOf "m3" "relay-b"), .other (.resume 2 ⟨.at 0, freeText_uuid⟩),
  .pull (toyPull "1" "1") (.at 0)]

/-- The message of the peer itself is passed over. -/
theorem pull_walk_enumerates_toy :
    let walk := runFrom (PullWalk.step .toy)
      (.start (WritingSystem.after .toy (.toy .default) () toyRestore)) toyWalk
    walk.position = 3 ∧ walk.returned.length = 2 ∧ walk.Enumerates (some "relay-c") none ∧
      walk.Advances (some "relay-c") none (toyPull "3" "5") (.at 0) := by
  have hwalk := pull_walk_enumerates .toy (.toy .default) () toyRestore (some "relay-c") none toyWalk
    (by decide +kernel)
  exact ⟨by decide +kernel, by decide +kernel, hwalk.1,
    hwalk.2 (toyPull "3" "5") (.at 0) (by decide +kernel) (by decide +kernel)⟩

end BitRelay
