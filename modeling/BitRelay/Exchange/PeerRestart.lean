import BitRelay.Exchange.Peering
import BitRelay.Lib.Run

/-!
# A peer that restarts

A relay without a snapshot starts its exchange counter at 0 again, while the worker of its peer
keeps the cursor it had reached: it asks for what is behind that cursor, and it never goes back.

`RestartSystem` is the worker of one relay and a peer that serves any requests, and that restarts
with empty memory between two rounds.

Results:
1. `RestartInvariant.step`: while no message is written below the worker's cursor, the records up to
   it have been pushed.
2. `round_pushes_all`: then a round that returns fewer entries than its limit has pushed every record
   of the peer that is for this relay.
-/

namespace BitRelay

/-- The worker, the peer, and the entries of the pushes that resolved. -/
structure RestartSystem (C : Type) where
  worker : CacheSyncWorker JsonValue
  peer : ServiceState C
  pushed : List JsonValue

/-- A round reaches the peer, or it does not; its push resolves, or it does not. -/
inductive RestartEvent
  | call (call : HostCall)
  | restart
  | round (reached : Option Env) (push : Bool)

section
variable {C D : Type} (P : PeerRelay C) (cache : C) (L : PeerRelay D) (url token : String)

namespace RestartSystem

def init (limit : Option JsNumber) : RestartSystem C :=
  ⟨.createCacheSyncWorker [url] limit, .init cache, []⟩

/-- The pull of a round. -/
def pullRequest (sys : RestartSystem C) : Request :=
  peerPull token L.config.relayNodeId (sys.worker.cursorFor url) sys.worker.limit

def pullResponse (sys : RestartSystem C) (env : Env) : Response × ServiceState C :=
  serve P.toRelay (sys.pullRequest L url token) env sys.peer

def pulled (sys : RestartSystem C) (env : Env) : Option (CacheSyncPullResult JsonValue) :=
  pullFromPeer (sys.worker.cursorFor url) (.answered (sys.pullResponse P L url token env).1.wire)

def step (sys : RestartSystem C) : RestartEvent → RestartSystem C
  | .call call => { sys with peer := serveCall P.toRelay sys.peer call.toCall }
  | .restart => { sys with peer := .init cache }
  | .round none push =>
    let (worker, entries) := sys.worker.turn ⟨false, 0, 0, 0, []⟩ url [] none push
    { sys with worker, pushed := sys.pushed ++ entries }
  | .round (some env) push =>
    let (worker, entries) := sys.worker.turn ⟨false, 0, 0, 0, []⟩ url []
      (sys.pulled P L url token env) push
    { worker, peer := (sys.pullResponse P L url token env).2, pushed := sys.pushed ++ entries }

/-- The entry of the record was part of a push that resolved. -/
def Pushed (sys : RestartSystem C) (record : CacheExchangeRecord) : Prop :=
  (exportEntry record).wire ∈ sys.pushed

/-- The round goes through, and its pull returns fewer entries than the limit. -/
structure ShortRound (sys : RestartSystem C) (env : Env) (push : Bool) : Prop where
  answered : (sys.pullResponse P L url token env).1.status = 200
  short : ∀ result ∈ sys.pulled P L url token env, result.entries.length < sys.worker.limit
  pushed : push = true

end RestartSystem

/-- A request that can write a message meets a peer whose counter is not below the worker's
cursor. -/
def WritesAhead (sys : RestartSystem C) : RestartEvent → Prop
  | .call call => isWriterPath call.request.pathname = true →
      sys.worker.cursorFor url ≤ sys.peer.cacheExchangeCursor
  | _ => True

/-- The record is for this relay: it is from another one and has hops left. -/
def forRelay (record : CacheExchangeRecord) : Bool :=
  exportsRecord (peerPullArgs L.config.relayNodeId 0 0) record

structure RestartInvariant (sys : RestartSystem C) : Prop where
  records : RecordsInvariant sys.peer
  covers : CursorLog.Covers CacheExchangeRecord.cursor (forRelay L) sys.peer.cacheExchangeRecords
    (sys.worker.cursorFor url) sys.Pushed

namespace RestartLemmas

open SyncWorkerLemmas

variable {P cache L url token}

theorem forRelay_iff (record : CacheExchangeRecord) :
    forRelay L record = true ↔
      record.origin ≠ L.config.relayNodeId ∧ record.hopCount < record.maxHops := by
  have hnode := trimmed_of_isValidRoomName L.nodeId_valid
  have htrim : trim L.config.relayNodeId = L.config.relayNodeId := hnode.1
  unfold forRelay exportsRecord peerPullArgs
  rw [htrim, if_pos hnode.2]
  simp

/-- What holds of the records of the peer while its counter is not below the cursor. -/
structure Ahead (L : PeerRelay D) (position : Nat) (Pushed : CacheExchangeRecord → Prop)
    (s : ServiceState C) : Prop where
  records : RecordsInvariant s
  le : position ≤ s.cacheExchangeCursor
  covers : CursorLog.Covers CacheExchangeRecord.cursor (forRelay L) s.cacheExchangeRecords position
    Pushed

/-- A record that is written gets a cursor above the worker's. -/
theorem Ahead.step {position : Nat} {Pushed : CacheExchangeRecord → Prop} {s s' : ServiceState C}
    {W : Write → Prop} (hW : ∀ w, W w → w.Sound) (hstep : LogStep P.toRelay W s s')
    (h : Ahead L position Pushed s) : Ahead L position Pushed s' := by
  refine ⟨h.records.step hW hstep, ?_, ?_⟩
  · cases hstep with
    | same hsame =>
      rw [hsame.cursor]
      exact h.le
    | appended w hw happended =>
      rw [happended.cursor]
      exact Nat.le_succ_of_le h.le
  · cases hstep with
    | same hsame =>
      rw [hsame.records]
      exact h.covers
    | appended w hw happended =>
      rw [happended.records]
      intro record hrecord
      exact h.covers.concat (Nat.lt_succ_of_le h.le) record (List.mem_of_mem_drop hrecord)

theorem sound_of_any {R : PeerRelay C} {w : Write} (h : LocalWrite R.toRelay w ∨
    ∃ value incoming, PushedWrite R.toRelay value incoming w) : w.Sound := by
  rcases h with hlocal | ⟨value, incoming, hpushed⟩
  · exact RecordLemmas.sound_of_local hlocal
  · exact RecordLemmas.sound_of_pushed hpushed

theorem invariant_call {sys : RestartSystem C} (h : RestartInvariant L url sys) (call : HostCall)
    (hahead : WritesAhead url sys (.call call)) :
    RestartInvariant L url (sys.step P cache L url token (.call call)) := by
  have hstate : (sys.step P cache L url token (.call call)).peer =
      ((fetch P.toRelay call.request call.env).run sys.peer).2 := serve_state _ _
  cases hpath : isWriterPath call.request.pathname with
  | false =>
    have hsame : SameLog sys.peer (sys.step P cache L url token (.call call)).peer := by
      rw [hstate]
      exact silent_fetch call.toCall hpath sys.peer
    refine ⟨h.records.sameLog hsame, ?_⟩
    rw [hsame.records]
    exact h.covers
  | true =>
    have hend : Ahead L (sys.worker.cursorFor url) sys.Pushed
        (sys.step P cache L url token (.call call)).peer := by
      rw [hstate]
      exact (leads_fetch_any call).keeps (fun _ _ hstep hs => hs.step (fun _ => sound_of_any) hstep)
        ⟨h.records, hahead hpath, h.covers⟩
    exact ⟨hend.records, hend.covers⟩

theorem invariant_restart {sys : RestartSystem C} :
    RestartInvariant L url (sys.step P cache L url token .restart) :=
  ⟨recordsInvariant_init cache, fun _ hrecord => absurd hrecord List.not_mem_nil⟩

theorem sameLog_pullResponse (sys : RestartSystem C) (env : Env) :
    SameLog sys.peer (sys.pullResponse P L url token env).2 := by
  have hsilent := silent_fetch (R := P.toRelay) ⟨sys.pullRequest L url token, env⟩ rfl sys.peer
  rw [← serve_state] at hsilent
  exact hsilent

variable (cache) in
/-- A pull that was answered moves the cursor to the end of a page that has been pushed, if the push
goes through. -/
theorem turn_of_answered {sys : RestartSystem C} (hrecords : RecordsInvariant sys.peer) {env : Env}
    (h : (sys.pullResponse P L url token env).1.status = 200) (push : Bool) :
    ∃ items next,
      CursorLog.IsPage CacheExchangeRecord.cursor (forRelay L) sys.peer.cacheExchangeRecords
        (sys.worker.cursorFor url) (max 1 sys.worker.limit) items next ∧
      (∃ result ∈ sys.pulled P L url token env, result.entries.length = items.length) ∧
      (sys.step P cache L url token (.round (some env) push)).worker.cursorFor url =
        (if items = [] ∨ push then next else sys.worker.cursorFor url) ∧
      (push = true → ∀ record ∈ items,
        (sys.step P cache L url token (.round (some env) push)).Pushed record) := by
  obtain ⟨items, next, hpage, hanswer, hnext⟩ := pullAnswer_serve hrecords P.toRelay h
  obtain ⟨hpull, hentries⟩ := pullFromPeer_answered hanswer
  have hpulled : sys.pulled P L url token env = some (parseCacheExchangePullBody
      (sys.pullResponse P L url token env).1.wire.body) := hpull
  obtain ⟨hcursor, hpushed⟩ := turn_of_pulled sys.worker ⟨false, 0, 0, 0, []⟩ url []
    (parseCacheExchangePullBody (sys.pullResponse P L url token env).1.wire.body) push
  change (parseCacheExchangePullBody (sys.pullResponse P L url token env).1.wire.body).entries =
    _ at hentries
  refine ⟨items, next, hpage, ⟨_, hpulled, ?_⟩, ?_, fun hpush record hrecord => ?_⟩
  · rw [hentries, List.length_map]
  · show (sys.worker.turn _ url [] (sys.pulled P L url token env) push).1.cursorFor url = _
    rw [hpulled, hcursor, hentries]
    have hmax : max (sys.worker.cursorFor url) (CacheSyncWorker.toCursor (parseCacheExchangePullBody
        (sys.pullResponse P L url token env).1.wire.body).nextCursor (sys.worker.cursorFor url)) =
        next := by
      rw [show CacheSyncWorker.toCursor (parseCacheExchangePullBody
        (sys.pullResponse P L url token env).1.wire.body).nextCursor _ = next from hnext]
      exact Nat.max_eq_right hpage.le
    simp only [hmax, List.isEmpty_iff, List.map_eq_nil_iff]
  · show (exportEntry record).wire ∈ sys.pushed ++
      (sys.worker.turn _ url [] (sys.pulled P L url token env) push).2
    rw [hpulled, hpushed, if_pos hpush, hentries]
    exact List.mem_append_right _ (List.mem_map_of_mem hrecord)

theorem turn_of_unanswered {sys : RestartSystem C} {env : Env}
    (h : (sys.pullResponse P L url token env).1.status ≠ 200) (push : Bool) :
    (sys.step P cache L url token (.round (some env) push)).worker.cursorFor url =
      sys.worker.cursorFor url := by
  have hpulled : sys.pulled P L url token env = none := by
    unfold RestartSystem.pulled pullFromPeer
    simp only
    rw [if_pos (.inl h)]
  show (sys.worker.turn _ url [] (sys.pulled P L url token env) push).1.cursorFor url = _
  rw [hpulled]
  exact (turn_none _ _ _ _ _ _).1

theorem invariant_round {sys : RestartSystem C} (h : RestartInvariant L url sys)
    (reached : Option Env) (push : Bool) :
    RestartInvariant L url (sys.step P cache L url token (.round reached push)) := by
  have hmono : ∀ record, sys.Pushed record →
      (sys.step P cache L url token (.round reached push)).Pushed record := by
    intro record hrecord
    cases reached <;> exact List.mem_append_left _ hrecord
  cases reached with
  | none =>
    refine ⟨h.records, ?_⟩
    have hcursor : (sys.step P cache L url token (.round none push)).worker.cursorFor url =
        sys.worker.cursorFor url := (turn_none sys.worker _ url [] push url).1
    rw [hcursor]
    exact h.covers.mono hmono
  | some env =>
    have hsame : SameLog sys.peer (sys.step P cache L url token (.round (some env) push)).peer :=
      sameLog_pullResponse sys env
    refine ⟨h.records.sameLog hsame, ?_⟩
    rw [hsame.records]
    by_cases hstatus : (sys.pullResponse P L url token env).1.status = 200
    · obtain ⟨items, next, hpage, -, hcursor, hpushed⟩ :=
        turn_of_answered cache h.records hstatus push
      rw [hcursor]
      split
      · next hmoved =>
        refine (h.covers.mono hmono).segment hpage.toIsSegment fun record hrecord => ?_
        rcases hmoved with hnil | hpush
        · rw [hnil] at hrecord
          cases hrecord
        · exact hpushed hpush record hrecord
      · exact h.covers.mono hmono
    · rw [turn_of_unanswered hstatus]
      exact h.covers.mono hmono

end RestartLemmas

open RestartLemmas

variable {L url} in
theorem RestartInvariant.step {sys : RestartSystem C} (h : RestartInvariant L url sys)
    (event : RestartEvent) (hahead : WritesAhead url sys event) :
    RestartInvariant L url (sys.step P cache L url token event) := by
  cases event with
  | call call => exact invariant_call h call hahead
  | restart => exact invariant_restart
  | round reached push => exact invariant_round h reached push

theorem restartInvariant_init (limit : Option JsNumber) :
    RestartInvariant L url (.init cache url limit) :=
  ⟨recordsInvariant_init cache, fun _ hrecord => absurd hrecord List.not_mem_nil⟩

/-- **A peer that restarts.** While the peer writes no message below the worker's cursor, a round
that returns fewer entries than its limit has pushed every record of the peer that is for this
relay. -/
theorem round_pushes_all (limit : Option JsNumber) (events : List RestartEvent)
    (h : Along (RestartSystem.step P cache L url token) (WritesAhead url) (.init cache url limit)
      events) :
    let sys := runFrom (RestartSystem.step P cache L url token) (.init cache url limit) events
    ∀ env push, sys.ShortRound P L url token env push →
      ∀ record ∈ (sys.step P cache L url token (.round (some env) push)).peer.cacheExchangeRecords,
        record.origin ≠ L.config.relayNodeId → record.hopCount < record.maxHops →
        (sys.step P cache L url token (.round (some env) push)).Pushed record := by
  intro sys env push hround record hrecord horigin hhops
  have hinv : RestartInvariant L url sys :=
    h.invariant (fun _ event hahead hinv => hinv.step P cache token event hahead)
      (restartInvariant_init cache L url limit)
  have hafter := hinv.step P cache token (.round (some env) push) trivial
  obtain ⟨items, next, hpage, ⟨result, hresult, hlength⟩, hcursor, -⟩ :=
    turn_of_answered cache hinv.records hround.answered push
  have hsame : SameLog sys.peer (sys.pullResponse P L url token env).2 :=
    sameLog_pullResponse sys env
  refine hafter.covers record hrecord ((forRelay_iff record).mpr ⟨horigin, hhops⟩) ?_
  rw [hcursor, if_pos (.inr hround.pushed)]
  -- A page that is not full reaches to the end of the list.
  refine hpage.complete ?_ record (hsame.records ▸ hrecord)
  rw [← hlength]
  exact (hround.short result hresult).trans_le (Nat.le_max_right _ _)

end

/-! ## On the toy host -/

def toyPeer : PeerRelay Unit := .toy "relay-a" (by decide) 3 (by decide)

def toyLocal : PeerRelay Unit := .toy "relay-b" isValidNodeId_relayB 3 (by decide)

/-- Two messages, one before and one behind a round. -/
theorem round_pushes_all_twice :
    let sys := runFrom (RestartSystem.step toyPeer () toyLocal "http://relay-a" "")
      (.init () "http://relay-a" none)
      [.call (toyPublish "m1"), .round (some (.at 0)) true, .call (toyPublish "m2")]
    ∀ env push, sys.ShortRound toyPeer toyLocal "http://relay-a" "" env push →
      ∀ record ∈ (sys.step toyPeer () toyLocal "http://relay-a" ""
        (.round (some env) push)).peer.cacheExchangeRecords,
        record.origin ≠ "relay-b" → record.hopCount < record.maxHops →
        (sys.step toyPeer () toyLocal "http://relay-a" "" (.round (some env) push)).Pushed record :=
  round_pushes_all toyPeer () toyLocal "http://relay-a" "" none
    [.call (toyPublish "m1"), .round (some (.at 0)) true, .call (toyPublish "m2")]
    ⟨fun _ => by decide, trivial, fun _ => by decide, trivial⟩

/-- The peer restarts behind a round and takes `m2` under the cursor that `m1` had: the next round
goes through, returns nothing, and `m2` has not been pushed. -/
theorem restarted_peer_unseen :
    let sys := runFrom (RestartSystem.step toyPeer () toyLocal "http://relay-a" "")
      (.init () "http://relay-a" none)
      [.call (toyPublish "m1"), .round (some (.at 0)) true, .restart, .call (toyPublish "m2")]
    sys.ShortRound toyPeer toyLocal "http://relay-a" "" (.at 0) true ∧
    ∃ record ∈ (sys.step toyPeer () toyLocal "http://relay-a" ""
      (.round (some (.at 0)) true)).peer.cacheExchangeRecords,
      record.origin ≠ "relay-b" ∧ record.hopCount < record.maxHops ∧
      ¬ (exportEntry record).wire ∈ (sys.step toyPeer () toyLocal "http://relay-a" ""
        (.round (some (.at 0)) true)).pushed := by
  refine ⟨⟨by decide, fun result hresult => ?_, rfl⟩, by decide⟩
  have hshort : ∀ pulled : Option (CacheSyncPullResult JsonValue), result ∈ pulled →
      (pulled.all fun result => decide (result.entries.length < 200)) = true →
      result.entries.length < 200 := by
    rintro _ rfl h
    exact of_decide_eq_true h
  exact hshort _ hresult (by decide)

end BitRelay
