import BitRelay.Exchange.SyncWorker
import BitRelay.Lib.Run

/-!
# No record is lost between peers

`SyncSystem` is the worker among peers whose exchange lists grow at any time. A pull can be answered
long before its answer arrives, and pulls and pushes can fail.

Results:
1. `SyncInvariant.step`: the cursor of a peer stands behind records that have been pushed.
2. `sync_loses_nothing`: the worker loses no record, its cursors never go back, and a failure costs
   one peer its turn.
-/

namespace BitRelay

/-! ## Peers -/

/-- The exchange list of a peer. -/
structure ExchangeList where
  records : List CacheExchangeRecord
  ascending : CursorLog.Ascending CacheExchangeRecord.cursor records

/-- A record goes to the end of the list, under a cursor above the others. -/
def ExchangeList.append (list : ExchangeList) (record : CacheExchangeRecord) : ExchangeList :=
  if h : 0 < record.cursor ∧ ∀ other ∈ list.records, other.cursor < record.cursor then
    ⟨list.records ++ [record], list.ascending.concat h.1 h.2⟩
  else list

/-- A call of `pushToLocal` that resolved. -/
structure ResolvedPush where
  peer : String
  entries : List CacheExchangeEntry

structure SyncSystem where
  worker : CacheSyncWorker CacheExchangeEntry
  lists : String → ExchangeList
  /-- the answer of the peer that is on its way to the worker -/
  answer : Option (CacheSyncPullResult CacheExchangeEntry)
  pushed : List ResolvedPush

inductive SyncEvent
  | append (peer : String) (record : CacheExchangeRecord)
  | syncOnce
  | peerAnswers
  | pullResolves
  | pullRejects
  | pushResolves
  | pushRejects

namespace SyncSystem

def init (peers : List String) (limit : Option JsNumber) (lists : String → ExchangeList) :
    SyncSystem :=
  ⟨.createCacheSyncWorker peers limit, lists, none, []⟩

/-- The arguments of a pull of the worker; an empty node id is no filter. -/
def pullArgs (localNodeId : String) (after limit : Nat) : SelectExchangeEntriesArgs where
  after
  limit
  peer := if localNodeId = "" then none else some localNodeId
  room := none

/-- The worker goes on, and the answer it was waiting for is used up. -/
def settle (sys : SyncSystem) (worker : CacheSyncWorker CacheExchangeEntry) : SyncSystem :=
  { sys with worker, answer := none }

def step (localNodeId : String) (sys : SyncSystem) : SyncEvent → SyncSystem
  | .append peer record =>
    { sys with lists := fun p => if p = peer then (sys.lists p).append record else sys.lists p }
  | .syncOnce => { sys with worker := sys.worker.syncOnce.2 }
  | .peerAnswers =>
    match sys.worker.inFlight with
    | some ⟨peer, _, .pulling after, _⟩ =>
      let (entries, nextCursor) := selectCacheExchangeEntries (sys.lists peer).records
        (pullArgs localNodeId after sys.worker.limit)
      { sys with answer := some (sys.answer.getD ⟨entries, .ofNat nextCursor⟩) }
    | _ => sys
  | .pullResolves =>
    match sys.answer with
    | some answer => sys.settle (sys.worker.pullSettles (some answer)).2
    | none => sys
  | .pullRejects => sys.settle (sys.worker.pullSettles none).2
  | .pushResolves =>
    match sys.worker.inFlight with
    | some ⟨peer, _, .pushing _ entries _, _⟩ =>
      { sys with
        worker := (sys.worker.pushSettles true).2
        pushed := sys.pushed ++ [⟨peer, entries⟩] }
    | _ => sys
  | .pushRejects => { sys with worker := (sys.worker.pushSettles false).2 }

end SyncSystem

/-! ## What the cursor of a peer stands for -/

/-- The record passes the filters of a pull of the worker. -/
def eligible (localNodeId : String) (record : CacheExchangeRecord) : Bool :=
  exportsRecord (SyncSystem.pullArgs localNodeId 0 0) record

/-- The position is the start of the list or the cursor of a record on it. -/
def ExchangeList.Has (list : ExchangeList) (position : Nat) : Prop :=
  position = 0 ∨ ∃ record ∈ list.records, record.cursor = position

/-- The entries are those of the list behind `after`, up to `next`. -/
structure Fetched (localNodeId : String) (list : ExchangeList) (after : Nat)
    (entries : List CacheExchangeEntry) (next : Nat) : Prop where
  segment : ∃ items, entries = items.map exportEntry ∧
    CursorLog.IsSegment CacheExchangeRecord.cursor (eligible localNodeId) list.records after items
      next
  has : list.Has next

namespace SyncSystem

/-- The entry was part of a push for the peer that resolved. -/
def Pushed (sys : SyncSystem) (peer : String) (entry : CacheExchangeEntry) : Prop :=
  ∃ push ∈ sys.pushed, push.peer = peer ∧ entry ∈ push.entries

end SyncSystem

/-- What a round has in hand. -/
def RoundInvariant (localNodeId : String) (sys : SyncSystem)
    (round : SyncRound CacheExchangeEntry) : Prop :=
  match round.stage with
  | .pulling after => after = sys.worker.cursorFor round.peer
  | .pushing after entries next => after = sys.worker.cursorFor round.peer ∧
      Fetched localNodeId (sys.lists round.peer) after entries next

/-- The cursor of a peer stands behind records that have been pushed, and what is under way goes on
from there. -/
structure SyncInvariant (localNodeId : String) (sys : SyncSystem) : Prop where
  has : ∀ peer, (sys.lists peer).Has (sys.worker.cursorFor peer)
  covers : ∀ peer, CursorLog.Covers CacheExchangeRecord.cursor (eligible localNodeId)
    (sys.lists peer).records (sys.worker.cursorFor peer) fun record =>
      sys.Pushed peer (exportEntry record)
  answer : ∀ answer ∈ sys.answer, ∃ round after next, sys.worker.inFlight = some round ∧
    round.stage = .pulling after ∧ answer.nextCursor = .ofNat next ∧
    Fetched localNodeId (sys.lists round.peer) after answer.entries next
  round : ∀ round ∈ sys.worker.inFlight, RoundInvariant localNodeId sys round

namespace SyncLemmas

open CacheSyncWorker SyncWorkerLemmas

/-! ### Lists that grow -/

variable {localNodeId : String} {list : ExchangeList} {sys : SyncSystem}
  {record : CacheExchangeRecord} {after next : Nat} {entries : List CacheExchangeEntry}

theorem append_cases (list : ExchangeList) (record : CacheExchangeRecord) :
    list.append record = list ∨
      ((list.append record).records = list.records ++ [record] ∧ 0 < record.cursor ∧
        ∀ other ∈ list.records, other.cursor < record.cursor) := by
  unfold ExchangeList.append
  split
  · next h => exact .inr ⟨rfl, h⟩
  · exact .inl rfl

theorem lt_of_has {position : Nat} (h : list.Has position) (hpos : 0 < record.cursor)
    (habove : ∀ other ∈ list.records, other.cursor < record.cursor) :
    position < record.cursor := by
  rcases h with rfl | ⟨other, hother, rfl⟩
  · exact hpos
  · exact habove other hother

theorem has_append {position : Nat} (h : list.Has position) (record : CacheExchangeRecord) :
    (list.append record).Has position := by
  rcases append_cases list record with heq | ⟨heq, -, -⟩
  · rw [heq]
    exact h
  · rcases h with rfl | ⟨other, hother, hcursor⟩
    · exact .inl rfl
    · refine .inr ⟨other, ?_, hcursor⟩
      rw [heq]
      exact List.mem_append_left _ hother

theorem covers_append {position : Nat} {P : CacheExchangeRecord → Prop} (h : list.Has position)
    (hcovers : CursorLog.Covers CacheExchangeRecord.cursor (eligible localNodeId) list.records
      position P) (record : CacheExchangeRecord) :
    CursorLog.Covers CacheExchangeRecord.cursor (eligible localNodeId)
      (list.append record).records position P := by
  rcases append_cases list record with heq | ⟨heq, hpos, habove⟩
  · rw [heq]
    exact hcovers
  · rw [heq]
    exact hcovers.concat (lt_of_has h hpos habove)

theorem fetched_append (h : Fetched localNodeId list after entries next)
    (record : CacheExchangeRecord) :
    Fetched localNodeId (list.append record) after entries next := by
  refine ⟨?_, has_append h.has record⟩
  rcases append_cases list record with heq | ⟨heq, hpos, habove⟩
  · rw [heq]
    exact h.segment
  · obtain ⟨items, hentries, hsegment⟩ := h.segment
    rw [heq]
    exact ⟨items, hentries, hsegment.concat (lt_of_has h.has hpos habove)⟩

variable (localNodeId) in
/-- The answer of a peer to a pull from a position on its list. -/
theorem fetched_select (h : list.Has after) (limit : Nat) :
    Fetched localNodeId list after
      (selectCacheExchangeEntries list.records (SyncSystem.pullArgs localNodeId after limit)).1
      (selectCacheExchangeEntries list.records (SyncSystem.pullArgs localNodeId after limit)).2 := by
  obtain ⟨items, hitems, hpage⟩ := isPage_select list.ascending
    (SyncSystem.pullArgs localNodeId after limit)
  refine ⟨⟨items, hitems, hpage.toIsSegment⟩, ?_⟩
  rcases hpage.next_mem with hnext | ⟨record, hrecord, hcursor⟩
  · rw [hnext]
    exact h
  · exact .inr ⟨record, hrecord, hcursor⟩

/-! ### Steps -/

variable (sys) in
/-- The worker goes on to its next peer, from cursors that stand behind pushed records. -/
theorem invariant_nextPeer {w : CacheSyncWorker CacheExchangeEntry}
    (hhas : ∀ peer, (sys.lists peer).Has (w.cursorFor peer))
    (hcovers : ∀ peer, CursorLog.Covers CacheExchangeRecord.cursor (eligible localNodeId)
      (sys.lists peer).records (w.cursorFor peer) fun record =>
        sys.Pushed peer (exportEntry record))
    (summary : CacheSyncSummary) (peers : List String) :
    SyncInvariant localNodeId { sys with worker := (w.nextPeer summary peers).2, answer := none } where
  has peer := by
    show (sys.lists peer).Has ((w.nextPeer summary peers).2.cursorFor peer)
    rw [cursorFor_nextPeer]
    exact hhas peer
  covers peer := by
    show CursorLog.Covers _ _ _ ((w.nextPeer summary peers).2.cursorFor peer) _
    rw [cursorFor_nextPeer]
    exact hcovers peer
  answer _ hanswer := by cases hanswer
  round round hround := by
    have hstage := stage_nextPeer hround
    unfold RoundInvariant
    rw [hstage]
    show w.cursorFor round.peer = (w.nextPeer summary peers).2.cursorFor round.peer
    rw [cursorFor_nextPeer]

theorem invariant_failPeer (h : SyncInvariant localNodeId sys)
    (round : SyncRound CacheExchangeEntry) :
    SyncInvariant localNodeId
      { sys with worker := (sys.worker.failPeer round).2, answer := none } :=
  invariant_nextPeer _ h.has h.covers _ _

/-- A turn ends: the entries that were fetched have been pushed, and the cursor moves behind
them. -/
theorem invariant_finishPeer (h : SyncInvariant localNodeId sys)
    (round : SyncRound CacheExchangeEntry) (hafter : after = sys.worker.cursorFor round.peer)
    (hfetched : Fetched localNodeId (sys.lists round.peer) after entries next)
    {pushed : List ResolvedPush} (hkeeps : ∀ push ∈ sys.pushed, push ∈ pushed)
    (hpushed : ∀ entry ∈ entries, ∃ push ∈ pushed, push.peer = round.peer ∧ entry ∈ push.entries)
    (shown : List CacheExchangeEntry) :
    SyncInvariant localNodeId { sys with
      worker := (sys.worker.finishPeer round after shown next).2, answer := none, pushed } := by
  obtain ⟨items, hentries, hsegment⟩ := hfetched.segment
  have hmax : max after next = next := Nat.max_eq_right hsegment.le
  have hmono : ∀ peer entry, sys.Pushed peer entry →
      ({ sys with pushed } : SyncSystem).Pushed peer entry := by
    rintro peer entry ⟨push, hpush, hpeer, hentry⟩
    exact ⟨push, hkeeps push hpush, hpeer, hentry⟩
  have hcursor : ∀ peer, ({ sys.worker with
      cursors := sys.worker.cursors.set round.peer (max after next) } :
      CacheSyncWorker CacheExchangeEntry).cursorFor peer =
        if peer = round.peer then next else sys.worker.cursorFor peer := by
    intro peer
    rw [cursorFor_set, hmax]
  refine invariant_nextPeer { sys with pushed } (fun peer => ?_) (fun peer => ?_) _ _
  · rw [hcursor]
    split
    · next heq => exact heq ▸ hfetched.has
    · exact h.has peer
  · rw [hcursor]
    split
    · next heq =>
      subst heq
      refine CursorLog.Covers.segment (hafter ▸ (h.covers round.peer).mono fun record => hmono _ _)
        hsegment fun record hrecord => ?_
      exact hpushed _ (hentries ▸ List.mem_map_of_mem hrecord)
    · exact (h.covers peer).mono fun record => hmono _ _

theorem invariant_append (h : SyncInvariant localNodeId sys) (peer : String)
    (record : CacheExchangeRecord) :
    SyncInvariant localNodeId (sys.step localNodeId (.append peer record)) := by
  have hlists : ∀ p, (sys.step localNodeId (.append peer record)).lists p = sys.lists p ∨
      (sys.step localNodeId (.append peer record)).lists p = (sys.lists p).append record := by
    intro p
    show (if p = peer then _ else _) = _ ∨ (if p = peer then _ else _) = _
    split
    · exact .inr rfl
    · exact .inl rfl
  have hfetched : ∀ p after entries next, Fetched localNodeId (sys.lists p) after entries next →
      Fetched localNodeId ((sys.step localNodeId (.append peer record)).lists p) after entries
        next := by
    intro p after entries next hp
    rcases hlists p with heq | heq <;> rw [heq]
    · exact hp
    · exact fetched_append hp record
  refine ⟨fun p => ?_, fun p => ?_, fun answer hanswer => ?_, fun round hround => ?_⟩
  · rcases hlists p with heq | heq <;> rw [heq]
    · exact h.has p
    · exact has_append (h.has p) record
  · rcases hlists p with heq | heq <;> rw [heq]
    · exact h.covers p
    · exact covers_append (h.has p) (h.covers p) record
  · obtain ⟨round, after, next, hround, hstage, hcursor, hf⟩ := h.answer answer hanswer
    exact ⟨round, after, next, hround, hstage, hcursor, hfetched _ _ _ _ hf⟩
  · have hold := h.round round hround
    unfold RoundInvariant at hold ⊢
    split at hold
    · exact hold
    · exact ⟨hold.1, hfetched _ _ _ _ hold.2⟩

theorem invariant_syncOnce (h : SyncInvariant localNodeId sys) :
    SyncInvariant localNodeId (sys.step localNodeId .syncOnce) := by
  obtain ⟨worker, lists, answer, pushed⟩ := sys
  cases hround : worker.inFlight with
  | some round =>
    have hskip : (worker.syncOnce).2 = worker := by
      unfold syncOnce
      rw [hround]
    show SyncInvariant localNodeId ⟨worker.syncOnce.2, lists, answer, pushed⟩
    rw [hskip]
    exact h
  | none =>
    -- Nothing is under way, so no answer is either.
    have hnone : answer = none := by
      cases answer with
      | none => rfl
      | some a =>
        obtain ⟨round, _, _, hsome, -⟩ := h.answer a rfl
        exact absurd (hround.symm.trans hsome) (by simp)
    have hnext : worker.syncOnce.2 = (worker.nextPeer ⟨false, 0, 0, 0, []⟩ worker.peers).2 := by
      unfold syncOnce
      rw [hround]
    show SyncInvariant localNodeId ⟨worker.syncOnce.2, lists, answer, pushed⟩
    rw [hnext, hnone]
    exact invariant_nextPeer ⟨worker, lists, answer, pushed⟩ h.has h.covers _ _

theorem invariant_peerAnswers (h : SyncInvariant localNodeId sys) :
    SyncInvariant localNodeId (sys.step localNodeId .peerAnswers) := by
  simp only [SyncSystem.step]
  split
  · next peer rest after summary hround =>
    refine ⟨h.has, h.covers, fun answer hanswer => ?_, h.round⟩
    cases hold : sys.answer with
    | some old =>
      have hsame : answer = old := by
        simpa [hold] using hanswer.symm
      exact h.answer answer (by rw [hold, hsame]; rfl)
    | none =>
      have hafter : after = sys.worker.cursorFor peer := h.round _ hround
      have hselected := fetched_select localNodeId (hafter ▸ h.has peer)
        sys.worker.limit
      have hnew := Option.some.inj hanswer
      simp only [hold, Option.getD_none] at hnew
      subst hnew
      exact ⟨_, after, _, hround, rfl, rfl, hselected⟩
  · exact h

theorem invariant_pullResolves (h : SyncInvariant localNodeId sys) :
    SyncInvariant localNodeId (sys.step localNodeId .pullResolves) := by
  simp only [SyncSystem.step]
  split
  · next answer hanswer =>
    obtain ⟨round, after, next, hround, hstage, hcursor, hfetched⟩ := h.answer answer hanswer
    have hafter : after = sys.worker.cursorFor round.peer := by
      have hold := h.round round hround
      unfold RoundInvariant at hold
      rw [hstage] at hold
      exact hold
    have hsettles : (sys.worker.pullSettles (some answer)).2 = if answer.entries.isEmpty then
        (sys.worker.finishPeer round after [] next).2
      else { sys.worker with inFlight := some { round with
        stage := .pushing after answer.entries next } } := by
      unfold pullSettles
      simp only [hround, hstage, hcursor, toCursor_ofNat]
      split <;> rfl
    unfold SyncSystem.settle
    rw [hsettles]
    split
    · next hempty =>
      have hnil : answer.entries = [] := List.isEmpty_iff.mp hempty
      exact invariant_finishPeer h round hafter hfetched (fun push hpush => hpush)
        (fun entry hentry => by rw [hnil] at hentry; cases hentry) []
    · refine ⟨h.has, h.covers, fun _ hnone => (by cases hnone), fun round' hround' => ?_⟩
      cases hround'
      exact ⟨hafter, hfetched⟩
  · exact h

theorem invariant_pullRejects (h : SyncInvariant localNodeId sys) :
    SyncInvariant localNodeId (sys.step localNodeId .pullRejects) := by
  have hdrop : SyncInvariant localNodeId { sys with answer := none } :=
    ⟨h.has, h.covers, fun _ hnone => (by cases hnone), h.round⟩
  show SyncInvariant localNodeId { sys with worker := (sys.worker.pullSettles none).2, answer := none }
  unfold pullSettles
  split
  · exact hdrop
  · next round hround =>
    cases hstage : round.stage with
    | pulling after => exact invariant_failPeer h round
    | pushing after entries next => exact hdrop

theorem pushing_invariant (h : SyncInvariant localNodeId sys) {round : SyncRound CacheExchangeEntry}
    (hround : sys.worker.inFlight = some round) (hstage : round.stage = .pushing after entries next) :
    after = sys.worker.cursorFor round.peer ∧
      Fetched localNodeId (sys.lists round.peer) after entries next ∧ sys.answer = none := by
  have hold := h.round round hround
  unfold RoundInvariant at hold
  rw [hstage] at hold
  refine ⟨hold.1, hold.2, ?_⟩
  cases hanswer : sys.answer with
  | none => rfl
  | some answer =>
    obtain ⟨round', _, _, hround', hstage', -⟩ := h.answer answer hanswer
    rw [hround] at hround'
    cases hround'
    rw [hstage] at hstage'
    cases hstage'

theorem invariant_pushResolves (h : SyncInvariant localNodeId sys) :
    SyncInvariant localNodeId (sys.step localNodeId .pushResolves) := by
  simp only [SyncSystem.step]
  split
  · next peer rest after entries next summary hround =>
    obtain ⟨hafter, hfetched, hnone⟩ := pushing_invariant h hround rfl
    have hsettles : (sys.worker.pushSettles true).2 = (sys.worker.finishPeer
        ⟨peer, rest, .pushing after entries next, summary⟩ after entries next).2 := by
      unfold pushSettles
      simp only [hround, if_true]
    rw [hsettles, hnone]
    refine invariant_finishPeer h _ hafter hfetched
      (fun push hpush => List.mem_append_left _ hpush) (fun entry hentry => ?_) entries
    exact ⟨⟨peer, entries⟩, List.mem_append_right _ List.mem_cons_self, rfl, hentry⟩
  · exact h

theorem invariant_pushRejects (h : SyncInvariant localNodeId sys) :
    SyncInvariant localNodeId (sys.step localNodeId .pushRejects) := by
  show SyncInvariant localNodeId { sys with worker := (sys.worker.pushSettles false).2 }
  unfold pushSettles
  split
  · exact h
  · next round hround =>
    cases hstage : round.stage with
    | pulling after => exact h
    | pushing after entries next =>
      obtain ⟨-, -, hnone⟩ := pushing_invariant h hround hstage
      have hfail := invariant_failPeer h round
      rw [← hnone] at hfail
      exact hfail

end SyncLemmas

open SyncLemmas SyncWorkerLemmas

theorem SyncInvariant.step {localNodeId : String} {sys : SyncSystem}
    (h : SyncInvariant localNodeId sys) (event : SyncEvent) :
    SyncInvariant localNodeId (sys.step localNodeId event) := by
  cases event with
  | append peer record => exact invariant_append h peer record
  | syncOnce => exact invariant_syncOnce h
  | peerAnswers => exact invariant_peerAnswers h
  | pullResolves => exact invariant_pullResolves h
  | pullRejects => exact invariant_pullRejects h
  | pushResolves => exact invariant_pushResolves h
  | pushRejects => exact invariant_pushRejects h

theorem syncInvariant_init (localNodeId : String) (peers : List String) (limit : Option JsNumber)
    (lists : String → ExchangeList) :
    SyncInvariant localNodeId (.init peers limit lists) := by
  have hzero : ∀ peer, (SyncSystem.init peers limit lists).worker.cursorFor peer = 0 := by
    intro peer
    show ((OrdMap.ofList _).get? peer).getD 0 = 0
    cases hget : (OrdMap.ofList ((CacheSyncWorker.normalizePeers peers).map fun p => (p, 0))).get?
        peer with
    | none => rfl
    | some n =>
      obtain ⟨p, -, heq⟩ := List.mem_map.mp (OrdMap.mem_of_get?_ofList hget)
      cases heq
      rfl
  refine ⟨fun peer => .inl (hzero peer), fun peer => ?_, fun _ h => (by cases h), fun _ h => by cases h⟩
  rw [hzero]
  exact CursorLog.covers_zero (lists peer).ascending

/-! ## The worker loses nothing -/

/-- The call that a round at this stage waits for rejects. -/
def SyncEvent.Fails {E : Type} : SyncEvent → SyncStage E → Prop
  | .pullRejects, .pulling _ => True
  | .pushRejects, .pushing _ _ _ => True
  | _, _ => False

/-- A failure costs the peer its turn: no cursor moves, and the next peer is pulled. -/
theorem step_fails {localNodeId : String} {sys : SyncSystem} {event : SyncEvent}
    {round : SyncRound CacheExchangeEntry} (hround : sys.worker.inFlight = some round)
    (hfails : event.Fails round.stage) :
    (∀ peer, (sys.step localNodeId event).worker.cursorFor peer = sys.worker.cursorFor peer) ∧
      (sys.step localNodeId event).worker.remaining = round.rest := by
  have hfail : (sys.step localNodeId event).worker = (sys.worker.failPeer round).2 := by
    cases hstage : round.stage with
    | pulling after =>
      rw [hstage] at hfails
      cases event with
      | pullRejects =>
        show (sys.worker.pullSettles none).2 = _
        simp only [CacheSyncWorker.pullSettles, hround, hstage]
      | _ => exact hfails.elim
    | pushing after entries next =>
      rw [hstage] at hfails
      cases event with
      | pushRejects =>
        show (sys.worker.pushSettles false).2 = _
        simp only [CacheSyncWorker.pushSettles, hround, hstage, Bool.false_eq_true, if_false]
      | _ => exact hfails.elim
  rw [hfail]
  exact ⟨cursorFor_nextPeer _ _ _, remaining_nextPeer _ _ _⟩

/-- What a round remembers of the cursor of its peer is that cursor. -/
theorem SyncInvariant.after_eq {localNodeId : String} {sys : SyncSystem}
    (h : SyncInvariant localNodeId sys) {round : SyncRound CacheExchangeEntry}
    (hround : sys.worker.inFlight = some round) :
    match round.stage with
    | .pulling after | .pushing after _ _ => after = sys.worker.cursorFor round.peer := by
  have hold := h.round round hround
  unfold RoundInvariant at hold
  split at hold
  · exact hold
  · exact hold.1

theorem cursorFor_step_le {localNodeId : String} {sys : SyncSystem}
    (h : SyncInvariant localNodeId sys) (event : SyncEvent) (peer : String) :
    sys.worker.cursorFor peer ≤ (sys.step localNodeId event).worker.cursorFor peer := by
  have hpull : ∀ answer, sys.worker.cursorFor peer ≤
      (sys.worker.pullSettles answer).2.cursorFor peer := by
    intro answer
    unfold CacheSyncWorker.pullSettles
    split
    · exact Nat.le_refl _
    · next round hround =>
      have hafter := h.after_eq hround
      split
      · exact Nat.le_refl _
      · exact (cursorFor_nextPeer _ _ _ _).ge
      · next after pulled hstage =>
        rw [hstage] at hafter
        dsimp only
        split
        · exact cursorFor_finishPeer_le _ _ hafter _ _ _
        · exact Nat.le_refl _
  have hpush : ∀ ok, sys.worker.cursorFor peer ≤
      (sys.worker.pushSettles ok).2.cursorFor peer := by
    intro ok
    unfold CacheSyncWorker.pushSettles
    split
    · exact Nat.le_refl _
    · next round hround =>
      have hafter := h.after_eq hround
      split
      · exact Nat.le_refl _
      · next after entries next hstage =>
        rw [hstage] at hafter
        split
        · exact cursorFor_finishPeer_le _ _ hafter _ _ _
        · exact (cursorFor_nextPeer _ _ _ _).ge
  cases event with
  | append _ _ => exact Nat.le_refl _
  | syncOnce =>
    show _ ≤ sys.worker.syncOnce.2.cursorFor peer
    unfold CacheSyncWorker.syncOnce
    split
    · exact Nat.le_refl _
    · exact (cursorFor_nextPeer _ _ _ _).ge
  | peerAnswers =>
    simp only [SyncSystem.step]
    split <;> exact Nat.le_refl _
  | pullResolves =>
    simp only [SyncSystem.step]
    split
    · exact hpull _
    · exact Nat.le_refl _
  | pullRejects => exact hpull none
  | pushResolves =>
    simp only [SyncSystem.step]
    split
    · exact hpush true
    · exact Nat.le_refl _
  | pushRejects => exact hpush false

/-- **The worker loses nothing.** After any run, every record up to the cursor of its peer that the
peer exports to this node has been part of a push that resolved; the cursors never go back; and
where a pull or a push fails, no cursor moves and the peers that follow get their turn. -/
theorem sync_loses_nothing (localNodeId : String) (peers : List String) (limit : Option JsNumber)
    (lists : String → ExchangeList) (events : List SyncEvent) :
    let sys := runFrom (SyncSystem.step localNodeId) (.init peers limit lists) events
    (∀ peer, ∀ record ∈ (sys.lists peer).records, record.cursor ≤ sys.worker.cursorFor peer →
      record.origin ≠ localNodeId → record.hopCount < record.maxHops →
      sys.Pushed peer (exportEntry record)) ∧
    (∀ event peer,
      sys.worker.cursorFor peer ≤ (sys.step localNodeId event).worker.cursorFor peer) ∧
    ∀ round ∈ sys.worker.inFlight, ∀ event : SyncEvent, event.Fails round.stage →
      (∀ peer, (sys.step localNodeId event).worker.cursorFor peer = sys.worker.cursorFor peer) ∧
      (sys.step localNodeId event).worker.remaining = round.rest := by
  intro sys
  have hinv : SyncInvariant localNodeId sys :=
    runFrom_invariant (fun _ event h => h.step event) events (syncInvariant_init _ _ _ _)
  refine ⟨fun peer record hrecord hle horigin hhops => ?_, cursorFor_step_le hinv,
    fun round hround event hfails => step_fails hround hfails⟩
  refine hinv.covers peer record hrecord ?_ hle
  show exportsRecord _ record = true
  unfold exportsRecord SyncSystem.pullArgs
  split <;> simp [horigin, hhops]

end BitRelay
