import BitRelay.Exchange.PeerRestart
import BitRelay.Exchange.PullWalk
import BitRelay.Lib.CatchUp
import BitRelay.RoomLogs
import Mathlib.Data.List.Dedup

/-!
# A mesh of relays

Relays of one repository know each other by their URLs, and beside each of them runs the peer-sync
worker over all the others. Publishes, the answers to pulls, the pushes into the own relay and their
failures come in any order. A relay serves one request at a time.

The mesh keeps three history variables: the messages that were published, for each worker and peer
the turns that went through since the last publish, and whether a worker has had its answer since
then.

Results:
1. `NodeSound.appended`, `pushed_grows`: what a message and a push do to a relay.
2. `Mesh.sound_step`: what one step preserves.
3. `mesh_converges`: when nothing is trimmed and every worker has had enough turns for every peer
   since the last publish, each relay has in each room exactly the ids that were published.
-/

namespace BitRelay

/-! ## The mesh -/

/-- A relay, the worker beside it, and the answer that is on its way to the worker. -/
structure MeshNode (C : Type) where
  service : ServiceState C
  worker : CacheSyncWorker JsonValue
  answer : Option (CacheSyncPullResult JsonValue)

structure Mesh (C : Type) where
  node : String → MeshNode C
  published : List (String × String)
  /-- the turns of a worker for a peer since the last publish -/
  rounds : String → String → Nat
  /-- the worker has had the answer of its turn since the last publish -/
  fresh : String → Bool

inductive MeshEvent
  /-- any request but a push -/
  | request (n : String) (call : HostCall)
  | syncOnce (n : String)
  | peerAnswers (n : String) (env : Env)
  | pullResolves (n : String)
  | pullRejects (n : String)
  /-- the relay serves the push, and its response arrives or not -/
  | pushServed (n : String) (env : Env) (arrives : Bool)
  | pushRejects (n : String)

/-- The relay that the event happens at. -/
def MeshEvent.at : MeshEvent → String
  | request n _ | syncOnce n | peerAnswers n _ | pullResolves n | pullRejects n | pushServed n _ _
  | pushRejects n => n

/-- The room and the id of a message. -/
def CacheExchangeRecord.message (record : CacheExchangeRecord) : String × String :=
  (record.envelope.room, record.envelope.id)

/-- The worker has pulled entries for this peer, and pushes them. -/
def CacheSyncWorker.pushes (w : CacheSyncWorker JsonValue) : Option (String × List JsonValue) :=
  match w.inFlight with
  | some ⟨peer, _, .pushing _ entries _, _⟩ => some (peer, entries)
  | _ => none

/-- The worker waits for the answer of this peer to a pull from `after`. -/
def CacheSyncWorker.pulls (w : CacheSyncWorker JsonValue) : Option (String × Nat) :=
  match w.inFlight with
  | some ⟨peer, _, .pulling after, _⟩ => some (peer, after)
  | _ => none

namespace Mesh

section
variable {C : Type} (members : List String) (relay : String → DenoRelay C)
  (token : String → String)

def init (cache : String → C) (limit : String → Option JsNumber) : Mesh C where
  node n := ⟨.init (cache n), .createCacheSyncWorker (members.filter (· ≠ n)) (limit n), none⟩
  published := []
  rounds _ _ := 0
  fresh _ := false

def service (mesh : Mesh C) (n : String) : ServiceState C := (mesh.node n).service

def worker (mesh : Mesh C) (n : String) : CacheSyncWorker JsonValue := (mesh.node n).worker

def records (mesh : Mesh C) (n : String) : List CacheExchangeRecord :=
  (mesh.service n).cacheExchangeRecords

def set (mesh : Mesh C) (n : String) (node : MeshNode C) : Mesh C :=
  { mesh with node := Function.update mesh.node n node }

/-- The worker goes on, and the answer it was waiting for is used up. -/
def settle (mesh : Mesh C) (n : String) (worker : CacheSyncWorker JsonValue) : Mesh C :=
  mesh.set n { mesh.node n with worker, answer := none }

/-- A turn of the worker for the peer has gone through. -/
def count (mesh : Mesh C) (n peer : String) : Mesh C :=
  if mesh.fresh n then
    { mesh with rounds := fun m p =>
        if m = n ∧ p = peer then mesh.rounds m p + 1 else mesh.rounds m p }
  else mesh

/-- A request is served; when it writes a message, that is the last one published. -/
def request (mesh : Mesh C) (n : String) (call : HostCall) : Mesh C :=
  if call.request.pathname = Endpoint.cacheExchangePush.path then mesh
  else
    let before := mesh.service n
    let after := serveCall (relay n).toRelay before call.toCall
    let mesh := mesh.set n { mesh.node n with service := after }
    if after.cacheExchangeCursor = before.cacheExchangeCursor then mesh
    else
      { mesh with
        published := mesh.published ++
          (after.cacheExchangeRecords.getLast?.map CacheExchangeRecord.message).toList
        rounds := fun _ _ => 0
        fresh := fun _ => false }

/-- The peer whose turn it is answers the pull. -/
def peerAnswers (mesh : Mesh C) (n : String) (env : Env) : Mesh C :=
  match (mesh.worker n).pulls, (mesh.node n).answer with
  | some (peer, after), none =>
    let (response, service) := serve (relay peer).toRelay
      (peerPull (token n) (relay n).config.relayNodeId after (mesh.worker n).limit) env
      (mesh.service peer)
    let mesh := mesh.set peer { mesh.node peer with service }
    { mesh.set n { mesh.node n with answer := pullFromPeer after (.answered response.wire) } with
      fresh := fun m => m = n || mesh.fresh m }
  | _, _ => mesh

def pullResolves (mesh : Mesh C) (n : String) : Mesh C :=
  match (mesh.worker n).pulls, (mesh.node n).answer with
  | some (peer, _), some answer =>
    let mesh := mesh.settle n ((mesh.worker n).pullSettles (some answer)).2
    if answer.entries.isEmpty then mesh.count n peer else mesh
  | _, _ => mesh

def pullRejects (mesh : Mesh C) (n : String) : Mesh C :=
  match (mesh.worker n).pulls with
  | some _ => mesh.settle n ((mesh.worker n).pullSettles none).2
  | none => mesh

def pushServed (mesh : Mesh C) (n : String) (env : Env) (arrives : Bool) : Mesh C :=
  match (mesh.worker n).pushes with
  | some (peer, entries) =>
    let (ok, service) := pushEntriesToLocal (relay n).toRelay env entries (mesh.service n)
    let mesh := mesh.set n { mesh.node n with service }
    let mesh := mesh.settle n ((mesh.worker n).pushSettles (ok && arrives)).2
    if ok && arrives then mesh.count n peer else mesh
  | none => mesh

def pushRejects (mesh : Mesh C) (n : String) : Mesh C :=
  match (mesh.worker n).pushes with
  | some _ => mesh.settle n ((mesh.worker n).pushSettles false).2
  | none => mesh

def step (mesh : Mesh C) (event : MeshEvent) : Mesh C :=
  if event.at ∈ members then
    match event with
    | .request n call => mesh.request relay n call
    | .syncOnce n => mesh.set n { mesh.node n with worker := (mesh.worker n).syncOnce.2 }
    | .peerAnswers n env => mesh.peerAnswers relay token n env
    | .pullResolves n => mesh.pullResolves n
    | .pullRejects n => mesh.pullRejects n
    | .pushServed n env arrives => mesh.pushServed relay n env arrives
    | .pushRejects n => mesh.pushRejects n
  else mesh

def after (cache : String → C) (limit : String → Option JsNumber) (events : List MeshEvent) :
    Mesh C :=
  runFrom (step members relay token) (init members cache limit) events

/-- The number of ids that were published in the room. -/
def idsIn (published : List (String × String)) (room : String) : Nat :=
  (published.filter fun message => message.1 = room).dedup.length

/-- No relay needs to trim: its caps are not below the numbers of published ids, of each room for
its logs and of all rooms for its records. -/
def WithinCaps (mesh : Mesh C) : Prop :=
  ∀ n ∈ members, (∀ room, idsIn mesh.published room ≤ (relay n).config.maxMessagesPerRoom) ∧
    mesh.published.dedup.length ≤ (relay n).config.cacheExchangeMaxRecords

end

end Mesh

/-! ## One relay -/

section
variable {C : Type}

/-- The record is of a message that the relay has published itself. -/
structure PeerRelay.Published (R : PeerRelay C) (record : CacheExchangeRecord) : Prop where
  origin : record.origin = R.config.relayNodeId
  hopCount : record.hopCount = 0
  maxHops : record.maxHops = R.config.cacheExchangeMaxHops

/-- The caps of the relay leave room for all the published messages. -/
structure Roomy (R : Relay C) (published : List (String × String)) : Prop where
  log : ∀ room, Mesh.idsIn published room ≤ R.config.maxMessagesPerRoom
  records : published.dedup.length ≤ R.config.cacheExchangeMaxRecords

/-- The relay holds published messages only, and its records are of messages it holds. -/
structure NodeSound (R : Relay C) (published : List (String × String)) (s : ServiceState C) :
    Prop where
  records : RecordsInvariant s
  logs : LogsSound R s
  distinct : (s.cacheExchangeRecords.map CacheExchangeRecord.message).Nodup
  held : ∀ record ∈ s.cacheExchangeRecords, s.Holds record.envelope.room record.envelope.id
  known : ∀ room id, s.Holds room id → (room, id) ∈ published

/-- The logs have kept everything, and the new records are behind the old ones. -/
structure LogsGrown (s s' : ServiceState C) (new : List CacheExchangeRecord) : Prop where
  records : s'.cacheExchangeRecords = s.cacheExchangeRecords ++ new
  behind : ∀ record ∈ new, s.cacheExchangeCursor < record.cursor
  cursor : s.cacheExchangeCursor ≤ s'.cacheExchangeCursor
  holds : ∀ room id, s.Holds room id → s'.Holds room id

variable {R : Relay C} {published published' : List (String × String)} {s s' s'' : ServiceState C}
  {w : Write} {new new' : List CacheExchangeRecord}

namespace MeshLemmas

theorem length_le_dedup {α : Type} [DecidableEq α] {l l' : List α} (hnodup : l.Nodup)
    (hsubset : l ⊆ l') : l.length ≤ l'.dedup.length :=
  (List.subperm_of_subset hnodup fun _ ha => List.mem_dedup.mpr (hsubset ha)).length_le

theorem length_dedup_mono {α : Type} [DecidableEq α] {l l' : List α} (hsubset : l ⊆ l') :
    l.dedup.length ≤ l'.dedup.length :=
  length_le_dedup (List.nodup_dedup l) fun _ ha => hsubset (List.mem_dedup.mp ha)

theorem grown_same (h : SameLog s s') : LogsGrown s s' [] where
  records := h.records.trans (List.append_nil _).symm
  behind _ hmem := absurd hmem List.not_mem_nil
  cursor := h.cursor.ge
  holds room id := (PushLemmas.holds_congr h room id).mpr

theorem grown_trans (h : LogsGrown s s' new) (h' : LogsGrown s' s'' new') : LogsGrown s s'' (new ++ new') where
  records := by rw [h'.records, h.records, List.append_assoc]
  behind record hrecord := by
    rcases List.mem_append.mp hrecord with hold | hnew
    · exact h.behind record hold
    · exact h.cursor.trans_lt (h'.behind record hnew)
  cursor := h.cursor.trans h'.cursor
  holds room id hholds := h'.holds room id (h.holds room id hholds)

end MeshLemmas

open MeshLemmas

theorem NodeSound.init (R : Relay C) (cache : C) : NodeSound R [] (.init cache) where
  records := recordsInvariant_init cache
  logs := logsSound_init cache
  distinct := List.nodup_nil
  held _ h := absurd h List.not_mem_nil
  known _ _ h := by
    obtain ⟨m, hm, -⟩ := h
    exact absurd hm List.not_mem_nil

theorem NodeSound.mono (h : NodeSound R published s) (hsubset : published ⊆ published') :
    NodeSound R published' s :=
  { h with known := fun room id hholds => hsubset (h.known room id hholds) }

theorem NodeSound.sameLog (h : NodeSound R published s) (hsame : SameLog s s') :
    NodeSound R published s' where
  records := h.records.sameLog hsame
  logs := h.logs.sameLog hsame
  distinct := by
    rw [hsame.records]
    exact h.distinct
  held record hrecord := by
    rw [hsame.records] at hrecord
    exact (PushLemmas.holds_congr hsame _ _).mpr (h.held record hrecord)
  known room id hholds := h.known room id ((PushLemmas.holds_congr hsame room id).mp hholds)

namespace MeshLemmas

/-- The records of a relay are at most as many as the published messages. -/
theorem length_le_published (h : NodeSound R published s) :
    s.cacheExchangeRecords.length ≤ published.dedup.length := by
  rw [← List.length_map CacheExchangeRecord.message]
  refine length_le_dedup h.distinct fun message hmessage => ?_
  obtain ⟨record, hrecord, rfl⟩ := List.mem_map.mp hmessage
  exact h.known _ _ (h.held record hrecord)

/-- While there is room a log keeps all of its messages. -/
theorem messages_appended (h : NodeSound R published s) (happended : Appended R w s s')
    (hmem : (w.room, w.id) ∈ published) (hroomy : Roomy R published) :
    (s'.roomOf w.room).messages = (s.roomOf w.room).messages ++ [w.envelope] := by
  have hids : ((s.roomOf w.room).messages ++ [w.envelope]).map Envelope.id =
      (s.roomOf w.room).messages.map Envelope.id ++ [w.id] := by
    rw [List.map_append]
    rfl
  have hnodup : (((s.roomOf w.room).messages ++ [w.envelope]).map Envelope.id).Nodup := by
    rw [hids]
    refine List.Nodup.append (h.logs.rooms w.room).distinct (List.nodup_singleton _) ?_
    intro id hold hnew
    obtain ⟨m, hm, hid⟩ := List.mem_map.mp hold
    rw [List.mem_singleton] at hnew
    exact happended.fresh ⟨m, hm, hid.trans hnew⟩
  have hlength : ((s.roomOf w.room).messages ++ [w.envelope]).length ≤
      Mesh.idsIn published w.room := by
    have hpairs : (((s.roomOf w.room).messages ++ [w.envelope]).map Envelope.id).map
        (Prod.mk w.room) ⊆ published.filter fun message => message.1 = w.room := by
      intro message hmessage
      rw [hids] at hmessage
      obtain ⟨id, hid, rfl⟩ := List.mem_map.mp hmessage
      refine List.mem_filter.mpr ⟨?_, decide_eq_true rfl⟩
      rcases List.mem_append.mp hid with hold | hnew
      · obtain ⟨m, hm, rfl⟩ := List.mem_map.mp hold
        exact h.known _ _ ⟨m, hm, rfl⟩
      · rw [List.mem_singleton.mp hnew]
        exact hmem
    have hle := length_le_dedup (hnodup.map (Prod.mk_right_injective w.room)) hpairs
    rw [List.length_map, List.length_map] at hle
    exact hle
  rw [happended.messages]
  unfold pushMessage
  dsimp only
  rw [Nat.sub_eq_zero_of_le (hlength.trans (hroomy.log w.room)), List.drop_zero]

theorem records_appended (h : NodeSound R published s) (happended : Appended R w s s')
    (hmem : (w.room, w.id) ∈ published) (hroomy : Roomy R published) :
    s'.cacheExchangeRecords = s.cacheExchangeRecords ++ [w.record (s.cacheExchangeCursor + 1)] ∧
      (s'.cacheExchangeRecords.map CacheExchangeRecord.message).Nodup := by
  have hnodup : ((s.cacheExchangeRecords ++ [w.record (s.cacheExchangeCursor + 1)]).map
      CacheExchangeRecord.message).Nodup := by
    rw [List.map_append]
    refine List.Nodup.append h.distinct (List.nodup_singleton _) ?_
    intro message hold hnew
    obtain ⟨record, hrecord, rfl⟩ := List.mem_map.mp hold
    obtain ⟨hroom, hid⟩ := Prod.mk.inj (List.mem_singleton.mp hnew)
    have hholds := h.held record hrecord
    rw [hroom, hid] at hholds
    exact happended.fresh hholds
  have hlength : s.cacheExchangeRecords.length + 1 ≤ published.dedup.length := by
    have hsubset : (s.cacheExchangeRecords ++ [w.record (s.cacheExchangeCursor + 1)]).map
        CacheExchangeRecord.message ⊆ published := by
      intro message hmessage
      obtain ⟨record, hrecord, rfl⟩ := List.mem_map.mp hmessage
      rcases List.mem_append.mp hrecord with hold | hnew
      · exact h.known _ _ (h.held record hold)
      · rw [List.mem_singleton.mp hnew]
        exact hmem
    have hle := length_le_dedup hnodup hsubset
    rw [List.length_map, List.length_append] at hle
    exact hle
  have hrecords := happended.records
  rw [Nat.sub_eq_zero_of_le (hlength.trans hroomy.records), List.drop_zero] at hrecords
  rw [hrecords]
  exact ⟨rfl, hnodup⟩

end MeshLemmas

/-- A message that is accepted while there is room is added to what the relay holds. -/
theorem NodeSound.appended (h : NodeSound R published s) (happended : Appended R w s s')
    (hw : w.Sound) (hmem : (w.room, w.id) ∈ published) (hroomy : Roomy R published) :
    NodeSound R published s' ∧ LogsGrown s s' [w.record (s.cacheExchangeCursor + 1)] := by
  have hmessages := messages_appended h happended hmem hroomy
  obtain ⟨hrecords, hdistinct⟩ := records_appended h happended hmem hroomy
  have hholds : ∀ room id, s'.Holds room id ↔ s.Holds room id ∨ (room, id) = (w.room, w.id) := by
    intro room id
    unfold ServiceState.Holds
    rcases Decidable.em (room = w.room) with rfl | hroom
    · rw [hmessages]
      constructor
      · rintro ⟨m, hm, hid⟩
        rcases List.mem_append.mp hm with hold | hnew
        · exact .inl ⟨m, hold, hid⟩
        · rw [List.mem_singleton.mp hnew] at hid
          exact .inr (hid ▸ rfl)
      · rintro (⟨m, hm, hid⟩ | hpair)
        · exact ⟨m, List.mem_append_left _ hm, hid⟩
        · exact ⟨w.envelope, List.mem_append_right _ List.mem_cons_self, (Prod.mk.inj hpair).2.symm⟩
    · rw [happended.others room hroom]
      exact ⟨.inl, fun h => h.resolve_right fun hpair => hroom (Prod.mk.inj hpair).1⟩
  constructor
  · refine ⟨h.records.appended happended hw, h.logs.appended happended, hdistinct,
      fun record hrecord => ?_, fun room id hheld => ?_⟩
    · rw [hrecords] at hrecord
      rcases List.mem_append.mp hrecord with hold | hnew
      · exact (hholds _ _).mpr (.inl (h.held record hold))
      · rw [List.mem_singleton.mp hnew]
        exact (hholds _ _).mpr (.inr rfl)
    · rcases (hholds room id).mp hheld with hold | hpair
      · exact h.known room id hold
      · rw [hpair]
        exact hmem
  · refine ⟨hrecords, fun record hrecord => ?_, ?_, fun room id hold => (hholds room id).mpr (.inl hold)⟩
    · rw [List.mem_singleton.mp hrecord]
      exact Nat.lt_succ_self _
    · rw [happended.cursor]
      exact Nat.le_succ _

/-! ## A push of the worker -/

/-- The relay lets the pushes of its own worker through, and no room has a token. -/
structure DenoRelay.Unguarded (R : DenoRelay C) : Prop where
  peerToken : R.config.peerAuthToken = "" ∨ R.config.peerAuthToken = R.config.authToken
  rooms : ∀ room, R.config.roomTokens.get? room = none

/-- The record goes on to another relay and can be taken there. -/
def PeerRelay.Takes (R : PeerRelay C) (record : CacheExchangeRecord) : Prop :=
  record.origin ≠ R.config.relayNodeId ∧ record.hopCount + 1 < record.maxHops

namespace MeshLemmas

open RecordLemmas

variable {L : DenoRelay C} {items : List CacheExchangeRecord} {record : CacheExchangeRecord}

/-- What the pushed entries have done so far. -/
structure PushedSoFar (L : DenoRelay C) (published : List (String × String)) (s s' : ServiceState C)
    (done : List JsonValue) : Prop where
  sound : NodeSound L.toRelay published s'
  grown : ∃ new, LogsGrown s s' new ∧ ∀ record ∈ new, ¬ L.Published record
  holds : ∀ record : CacheExchangeRecord, (exportEntry record).wire ∈ done → record.Sound →
    L.Takes record → s'.Holds record.envelope.room record.envelope.id

theorem refusesEntry_arrival (hsound : record.Sound) (h : L.Takes record) :
    refusesEntry L.toRelay record.arrival = none := by
  unfold refusesEntry
  rw [refusesEntryName_eq_none_iff.mpr ⟨hsound.room, hsound.topic⟩, Option.none_or]
  exact refusesEntryHops_eq_none_iff.mpr h

/-- One more entry of a page whose messages were published. -/
theorem pushedSoFar_step (hroomy : Roomy L.toRelay published)
    (hitems : ∀ record ∈ items, record.Sound ∧ record.message ∈ published)
    {done : List JsonValue} {value : JsonValue} {s₁ s₂ : ServiceState C}
    (hstep : EntryStep L.toRelay value s₁ s₂)
    (hvalue : value ∈ items.map fun record => (exportEntry record).wire)
    (h : PushedSoFar L published s s₁ done) : PushedSoFar L published s s₂ (done ++ [value]) := by
  obtain ⟨item, hitem, rfl⟩ := List.mem_map.mp hvalue
  obtain ⟨hsound, hmessage⟩ := hitems item hitem
  obtain ⟨new, hgrown, hforeign⟩ := h.grown
  have hone : NodeSound L.toRelay published s₂ ∧
      ∃ new', LogsGrown s₁ s₂ new' ∧ ∀ record ∈ new', ¬ L.Published record := by
    cases hstep.log with
    | same hsame =>
      exact ⟨h.sound.sameLog hsame, [], grown_same hsame, fun _ hmem => absurd hmem List.not_mem_nil⟩
    | appended w hw happended =>
      obtain ⟨incoming, hpushed⟩ := hw
      have hincoming : incoming = item.arrival := by
        have hread := parse_wire hsound L.config.cacheExchangeMaxHops
        rw [hpushed.read] at hread
        exact Except.ok.inj hread
      have hwrite : w = item.arrival.write := hincoming ▸ hpushed.write
      have hmem : (w.room, w.id) ∈ published := by
        rw [hwrite]
        exact hmessage
      obtain ⟨hsound', hgrown'⟩ := h.sound.appended happended (sound_of_pushed hpushed) hmem hroomy
      refine ⟨hsound', _, hgrown', fun record hrecord hown => ?_⟩
      -- The origin of what is written is another relay.
      rw [List.mem_singleton.mp hrecord] at hown
      have horigin : incoming.origin = L.config.relayNodeId := by
        rw [hpushed.write] at hown
        exact hown.origin
      exact (refusesEntryHops_eq_none_iff.mp hpushed.hops).1 horigin
  obtain ⟨hsound', new', hgrown', hforeign'⟩ := hone
  refine ⟨hsound', ⟨new ++ new', grown_trans hgrown hgrown', fun record hrecord => ?_⟩,
    fun record hrecord hrecordSound htakes => ?_⟩
  · rcases List.mem_append.mp hrecord with hold | hnew
    · exact hforeign record hold
    · exact hforeign' record hnew
  · rcases List.mem_append.mp hrecord with hold | hnew
    · exact hgrown'.holds _ _ (h.holds record hold hrecordSound htakes)
    · have hread := parse_wire hrecordSound L.config.cacheExchangeMaxHops
      rw [List.mem_singleton.mp hnew] at hread
      exact hstep.holds _ hread (refusesEntry_arrival hrecordSound htakes)

/-- A push of a page goes through, and behind it the relay holds what it takes of the page. -/
theorem pushed_grows (hunguarded : L.Unguarded) (hroomy : Roomy L.toRelay published)
    (hitems : ∀ record ∈ items, record.Sound ∧ record.message ∈ published)
    (hs : NodeSound L.toRelay published s) (env : Env) :
    ∃ s', pushEntriesToLocal L.toRelay env (items.map fun record => (exportEntry record).wire) s =
        (true, s') ∧
      PushedSoFar L published s s' (items.map fun record => (exportEntry record).wire) := by
  have hread : ∀ value ∈ items.map fun record => (exportEntry record).wire, ∃ incoming,
      parseIncomingCacheExchangeEntry value L.config.cacheExchangeMaxHops = .ok incoming := by
    intro value hvalue
    obtain ⟨record, hrecord, rfl⟩ := List.mem_map.mp hvalue
    exact ⟨_, parse_wire (hitems record hrecord).1 _⟩
  have hunblocked : Unblocked L.toRelay (items.map fun record => (exportEntry record).wire) :=
    ⟨hunguarded.peerToken, fun _ _ incoming _ _ => hunguarded.rooms incoming.room⟩
  obtain ⟨s', hpush, hdone⟩ := pushEntriesToLocal_open (R := L) env hread
    (P := fun done s₁ => (∀ value ∈ done, value ∈ items.map fun record => (exportEntry record).wire) →
      PushedSoFar L published s s₁ done)
    (fun done value s₁ s₂ hstep hdone hall => pushedSoFar_step hroomy hitems hstep
      (hall value (List.mem_append_right _ List.mem_cons_self))
      (hdone fun v hv => hall v (List.mem_append_left _ hv)))
    hunblocked s fun _ => ⟨hs, ⟨[], grown_same (.refl s), fun _ hmem => absurd hmem List.not_mem_nil⟩,
      fun _ hmem => absurd hmem List.not_mem_nil⟩
  refine ⟨s', hpush, ?_⟩
  have hwire : (items.map fun record => (exportEntry record).wire).map JsonValue.normalize =
      items.map fun record => (exportEntry record).wire := by
    rw [List.map_map]
    exact List.map_congr_left fun record _ => wire_normalize (exportEntry record)
  rw [hwire] at hdone
  exact hdone fun _ hvalue => hvalue

end MeshLemmas

/-! ## The invariant -/

variable (members : List String) (relay : String → DenoRelay C)

/-- The entries are a page of the records of the peer. When the worker has had them since the last
publish and they are no full page, every message of the peer itself is up to their end. -/
structure Mesh.Page (mesh : Mesh C) (n peer : String) (after : Nat) (entries : List JsonValue)
    (next : Nat) (items : List CacheExchangeRecord) : Prop where
  entries : entries = items.map fun record => (exportEntry record).wire
  segment : CursorLog.IsSegment CacheExchangeRecord.cursor (forRelay (relay n).toPeerRelay)
    (mesh.records peer) after items next
  le : next ≤ (mesh.service peer).cacheExchangeCursor
  short : mesh.fresh n = true → items.length < (mesh.worker n).limit →
    CursorLog.Marks CacheExchangeRecord.cursor (relay peer).Published (mesh.records peer) next

/-- What a worker has in hand. -/
def Mesh.StageSound (mesh : Mesh C) (n : String) (w : CacheSyncWorker JsonValue)
    (answer : Option (CacheSyncPullResult JsonValue)) (round : SyncRound JsonValue) : Prop :=
  match round.stage with
  | .pulling after => after = w.cursorFor round.peer ∧ ∀ result ∈ answer, ∃ items,
      mesh.Page relay n round.peer after result.entries
        (CacheSyncWorker.toCursor result.nextCursor after) items
  | .pushing after entries next => answer = none ∧ after = w.cursorFor round.peer ∧
      ∃ items, mesh.Page relay n round.peer after entries next items

structure Mesh.Sound (mesh : Mesh C) : Prop where
  nodes : ∀ n, NodeSound (relay n).toRelay mesh.published (mesh.service n)
  sourced : ∀ message ∈ mesh.published, ∃ n ∈ members, ∃ record ∈ mesh.records n,
    record.message = message ∧ (relay n).Published record
  position : ∀ n peer, (mesh.worker n).cursorFor peer ≤ (mesh.service peer).cacheExchangeCursor
  covers : ∀ n peer, CursorLog.Covers CacheExchangeRecord.cursor (forRelay (relay n).toPeerRelay)
    (mesh.records peer) ((mesh.worker n).cursorFor peer) fun record => (relay n).Takes record →
      (mesh.service n).Holds record.envelope.room record.envelope.id
  progress : ∀ n peer, CursorLog.Progress CacheExchangeRecord.cursor
    (forRelay (relay n).toPeerRelay) (relay peer).Published (mesh.records peer)
    (mesh.worker n).limit ((mesh.worker n).cursorFor peer) (mesh.rounds n peer)
  stage : ∀ n, ∀ round ∈ (mesh.worker n).inFlight,
    mesh.StageSound relay n (mesh.worker n) (mesh.node n).answer round
  idle : ∀ n, (mesh.worker n).inFlight = none → (mesh.node n).answer = none

variable {members relay} {mesh : Mesh C} {n : String}

namespace MeshLemmas

open CursorLog CacheSyncWorker SyncWorkerLemmas

/-! ### A relay whose logs have grown -/

theorem node_set_self (mesh : Mesh C) (n : String) (node : MeshNode C) :
    (mesh.set n node).node n = node := Function.update_self _ _ _

theorem node_set_of_ne {m : String} (h : m ≠ n) (node : MeshNode C) :
    (mesh.set n node).node m = mesh.node m := Function.update_of_ne h _ _

/-- The mesh behind a change of the logs of one relay. -/
structure GrownAt (mesh mesh' : Mesh C) (n : String) (new : List CacheExchangeRecord) : Prop where
  grown : LogsGrown (mesh.service n) (mesh'.service n) new
  others : ∀ m, m ≠ n → mesh'.service m = mesh.service m
  worker : ∀ m, mesh'.worker m = mesh.worker m
  answer : ∀ m, (mesh'.node m).answer = (mesh.node m).answer

variable {mesh' : Mesh C}

theorem grownAt_all (h : GrownAt mesh mesh' n new) (m : String) :
    ∃ new', LogsGrown (mesh.service m) (mesh'.service m) new' ∧
      ∀ record ∈ new', m = n ∧ record ∈ new := by
  rcases Decidable.em (m = n) with rfl | hm
  · exact ⟨new, h.grown, fun record hrecord => ⟨rfl, hrecord⟩⟩
  · rw [h.others m hm]
    exact ⟨[], grown_same (.refl _), fun record hrecord => absurd hrecord List.not_mem_nil⟩

/-- The invariant when the logs of one relay have grown: by messages from other relays, or by a
published one, with which the count of the turns begins again. -/
theorem sound_grown (h : mesh.Sound members relay) (hgrown : GrownAt mesh mesh' n new)
    (hnode : NodeSound (relay n).toRelay mesh'.published (mesh'.service n))
    (hpublished : mesh.published ⊆ mesh'.published)
    (hsourced : ∀ message ∈ mesh'.published, message ∈ mesh.published ∨ n ∈ members ∧
      ∃ record ∈ mesh'.records n, record.message = message ∧ (relay n).Published record)
    (hcounts : ((∀ record ∈ new, ¬ (relay n).Published record) ∧ mesh'.rounds = mesh.rounds ∧
        mesh'.fresh = mesh.fresh) ∨
      (mesh'.rounds = fun _ _ => 0) ∧ mesh'.fresh = fun _ => false) :
    mesh'.Sound members relay := by
  have hall := grownAt_all hgrown
  have hrecords : ∀ m, mesh.records m ⊆ mesh'.records m := by
    intro m record hrecord
    obtain ⟨new', hnew, -⟩ := hall m
    unfold Mesh.records
    rw [hnew.records]
    exact List.mem_append_left _ hrecord
  have hpage : ∀ m peer after entries next items, mesh.Page relay m peer after entries next items →
      mesh'.Page relay m peer after entries next items := by
    intro m peer after entries next items hpage
    obtain ⟨new', hnew, hmem⟩ := hall peer
    refine ⟨hpage.entries, ?_, hpage.le.trans hnew.cursor, fun hfresh hshort => ?_⟩
    · unfold Mesh.records
      rw [hnew.records]
      exact hpage.segment.append fun record hrecord => hpage.le.trans_lt (hnew.behind record hrecord)
    · rcases hcounts with ⟨hnone, -, hsame⟩ | ⟨-, hreset⟩
      · rw [hsame] at hfresh
        rw [hgrown.worker] at hshort
        unfold Mesh.records
        rw [hnew.records]
        refine (hpage.short hfresh hshort).append fun record hrecord hown => ?_
        obtain ⟨rfl, hrecord⟩ := hmem record hrecord
        exact hnone record hrecord hown
      · rw [hreset] at hfresh
        cases hfresh
  refine ⟨fun m => ?_, fun message hmessage => ?_, fun m peer => ?_, fun m peer => ?_,
    fun m peer => ?_, fun m round hround => ?_, fun m hidle => ?_⟩
  · rcases Decidable.em (m = n) with rfl | hm
    · exact hnode
    · rw [hgrown.others m hm]
      exact (h.nodes m).mono hpublished
  · rcases hsourced message hmessage with hold | ⟨hmember, record, hrecord, hfound⟩
    · obtain ⟨m, hm, record, hrecord, hfound⟩ := h.sourced message hold
      exact ⟨m, hm, record, hrecords m hrecord, hfound⟩
    · exact ⟨n, hmember, record, hrecord, hfound⟩
  · obtain ⟨new', hnew, -⟩ := hall peer
    rw [hgrown.worker]
    exact (h.position m peer).trans hnew.cursor
  · obtain ⟨new', hnew, -⟩ := hall peer
    obtain ⟨_, hholds, -⟩ := hall m
    rw [hgrown.worker]
    unfold Mesh.records
    rw [hnew.records]
    refine Covers.append ((h.covers m peer).mono fun record hrecord htakes =>
      hholds.holds _ _ (hrecord htakes)) fun record hrecord => ?_
    exact (h.position m peer).trans_lt (hnew.behind record hrecord)
  · obtain ⟨new', hnew, hmem⟩ := hall peer
    rw [hgrown.worker]
    rcases hcounts with ⟨hnone, hsame, -⟩ | ⟨hreset, -⟩
    · rw [hsame]
      unfold Mesh.records
      rw [hnew.records]
      refine (h.progress m peer).append (fun record hrecord =>
        (h.position m peer).trans_lt (hnew.behind record hrecord)) fun record hrecord hown => ?_
      obtain ⟨rfl, hrecord⟩ := hmem record hrecord
      exact hnone record hrecord hown
    · rw [hreset]
      exact .zero
  · rw [hgrown.worker] at hround
    have hstage := h.stage m round hround
    unfold Mesh.StageSound at hstage ⊢
    rw [hgrown.worker, hgrown.answer]
    split
    · next after heq =>
      rw [heq] at hstage
      refine ⟨hstage.1, fun result hresult => ?_⟩
      obtain ⟨items, hitems⟩ := hstage.2 result hresult
      exact ⟨items, hpage _ _ _ _ _ _ hitems⟩
    · next after entries next heq =>
      rw [heq] at hstage
      obtain ⟨hanswer, hafter, items, hitems⟩ := hstage
      exact ⟨hanswer, hafter, items, hpage _ _ _ _ _ _ hitems⟩
  · rw [hgrown.worker] at hidle
    rw [hgrown.answer]
    exact h.idle m hidle

/-! ### A worker that goes on -/

/-- The mesh behind a step of one worker that moves no log. -/
structure MovedAt (mesh mesh' : Mesh C) (n : String) : Prop where
  service : ∀ m, mesh'.service m = mesh.service m
  published : mesh'.published = mesh.published
  fresh : ∀ m, m ≠ n → mesh'.fresh m = mesh.fresh m
  others : ∀ m, m ≠ n → mesh'.node m = mesh.node m
  rounds : ∀ m, m ≠ n → mesh'.rounds m = mesh.rounds m
  limit : (mesh'.worker n).limit = (mesh.worker n).limit

theorem worker_moved {m : String} (h : MovedAt mesh mesh' n) (hm : m ≠ n) :
    mesh'.worker m = mesh.worker m := by
  unfold Mesh.worker
  rw [h.others m hm]

theorem limit_moved (h : MovedAt mesh mesh' n) (m : String) :
    (mesh'.worker m).limit = (mesh.worker m).limit := by
  rcases Decidable.em (m = n) with rfl | hm
  · exact h.limit
  · rw [worker_moved h hm]

theorem records_moved (h : MovedAt mesh mesh' n) (m : String) : mesh'.records m = mesh.records m := by
  unfold Mesh.records
  rw [h.service]

theorem page_moved (h : MovedAt mesh mesh' n) {m peer : String} {after next : Nat}
    {entries : List JsonValue} {items : List CacheExchangeRecord}
    (hsame : mesh'.fresh m = mesh.fresh m)
    (hpage : mesh.Page relay m peer after entries next items) :
    mesh'.Page relay m peer after entries next items := by
  refine ⟨hpage.entries, ?_, ?_, fun hfresh hshort => ?_⟩
  · rw [records_moved h]
    exact hpage.segment
  · rw [h.service]
    exact hpage.le
  · rw [hsame] at hfresh
    rw [limit_moved h] at hshort
    rw [records_moved h]
    exact hpage.short hfresh hshort

/-- The invariant when a worker has gone on to what is again a sound stage. -/
theorem sound_moved (h : mesh.Sound members relay) (hmoved : MovedAt mesh mesh' n)
    (hposition : ∀ peer, (mesh'.worker n).cursorFor peer ≤ (mesh.service peer).cacheExchangeCursor)
    (hcovers : ∀ peer, Covers CacheExchangeRecord.cursor (forRelay (relay n).toPeerRelay)
      (mesh.records peer) ((mesh'.worker n).cursorFor peer) fun record => (relay n).Takes record →
        (mesh.service n).Holds record.envelope.room record.envelope.id)
    (hprogress : ∀ peer, CursorLog.Progress CacheExchangeRecord.cursor (forRelay (relay n).toPeerRelay)
      (relay peer).Published (mesh.records peer) (mesh.worker n).limit
      ((mesh'.worker n).cursorFor peer) (mesh'.rounds n peer))
    (hstage : ∀ round ∈ (mesh'.worker n).inFlight,
      mesh'.StageSound relay n (mesh'.worker n) (mesh'.node n).answer round)
    (hidle : (mesh'.worker n).inFlight = none → (mesh'.node n).answer = none) :
    mesh'.Sound members relay := by
  refine ⟨fun m => ?_, fun message hmessage => ?_, fun m peer => ?_, fun m peer => ?_,
    fun m peer => ?_, fun m round hround => ?_, fun m hnone => ?_⟩
  · rw [hmoved.service, hmoved.published]
    exact h.nodes m
  · rw [hmoved.published] at hmessage
    obtain ⟨m, hm, record, hrecord, hfound⟩ := h.sourced message hmessage
    refine ⟨m, hm, record, ?_, hfound⟩
    rw [records_moved hmoved]
    exact hrecord
  · rw [hmoved.service]
    rcases Decidable.em (m = n) with rfl | hm
    · exact hposition peer
    · rw [worker_moved hmoved hm]
      exact h.position m peer
  · rw [records_moved hmoved, hmoved.service]
    rcases Decidable.em (m = n) with rfl | hm
    · exact hcovers peer
    · rw [worker_moved hmoved hm]
      exact h.covers m peer
  · rw [records_moved hmoved, limit_moved hmoved]
    rcases Decidable.em (m = n) with rfl | hm
    · exact hprogress peer
    · rw [worker_moved hmoved hm, hmoved.rounds m hm]
      exact h.progress m peer
  · rcases Decidable.em (m = n) with rfl | hm
    · exact hstage round hround
    · rw [worker_moved hmoved hm] at hround
      have hold := h.stage m round hround
      unfold Mesh.StageSound at hold ⊢
      rw [worker_moved hmoved hm, hmoved.others m hm]
      split
      · next after heq =>
        rw [heq] at hold
        refine ⟨hold.1, fun result hresult => ?_⟩
        obtain ⟨items, hitems⟩ := hold.2 result hresult
        exact ⟨items, page_moved hmoved (hmoved.fresh m hm) hitems⟩
      · next after entries next heq =>
        rw [heq] at hold
        obtain ⟨hanswer, hafter, items, hitems⟩ := hold
        exact ⟨hanswer, hafter, items, page_moved hmoved (hmoved.fresh m hm) hitems⟩
  · rcases Decidable.em (m = n) with rfl | hm
    · exact hidle hnone
    · rw [worker_moved hmoved hm] at hnone
      rw [hmoved.others m hm]
      exact h.idle m hnone

theorem limit_nextPeer (w : CacheSyncWorker JsonValue) (summary : CacheSyncSummary)
    (peers : List String) : (w.nextPeer summary peers).2.limit = w.limit := by
  cases peers with
  | nil => rfl
  | cons peer rest => rfl

theorem limit_finishPeer (w : CacheSyncWorker JsonValue) (round : SyncRound JsonValue) (after : Nat)
    (entries : List JsonValue) (next : Nat) :
    (w.finishPeer round after entries next).2.limit = w.limit := limit_nextPeer _ _ _

/-- A worker at the head of its loop has nothing in hand. -/
theorem stage_head {w : CacheSyncWorker JsonValue} {summary : CacheSyncSummary}
    {peers : List String} :
    ∀ round ∈ (w.nextPeer summary peers).2.inFlight,
      mesh.StageSound relay n (w.nextPeer summary peers).2 none round := by
  intro round hround
  have hstage := stage_nextPeer hround
  unfold Mesh.StageSound
  rw [hstage]
  refine ⟨(cursorFor_nextPeer w summary peers round.peer).symm, fun result hresult => ?_⟩
  cases hresult

/-- A worker goes on to the head of its loop from the cursors that it had. -/
theorem sound_head (h : mesh.Sound members relay) (hmoved : MovedAt mesh mesh' n)
    (hrounds : mesh'.rounds = mesh.rounds) (hanswer : (mesh'.node n).answer = none)
    {w : CacheSyncWorker JsonValue} {summary : CacheSyncSummary} {peers : List String}
    (hworker : mesh'.worker n = (w.nextPeer summary peers).2)
    (hcursors : ∀ peer, w.cursorFor peer = (mesh.worker n).cursorFor peer) :
    mesh'.Sound members relay := by
  have hsame : ∀ peer, (mesh'.worker n).cursorFor peer = (mesh.worker n).cursorFor peer := by
    intro peer
    rw [hworker, cursorFor_nextPeer, hcursors]
  refine sound_moved h hmoved (fun peer => ?_) (fun peer => ?_) (fun peer => ?_)
    (fun round hround => ?_) fun _ => hanswer
  · rw [hsame]
    exact h.position n peer
  · rw [hsame]
    exact h.covers n peer
  · rw [hsame, hrounds]
    exact h.progress n peer
  · rw [hworker] at hround ⊢
    rw [hanswer]
    exact stage_head round hround

/-- The turn of a worker goes through: what it fetched is at the relay, and its cursor stands behind
the page. -/
theorem sound_finish (h : mesh.Sound members relay) (hmoved : MovedAt mesh mesh' n)
    (hanswer : (mesh'.node n).answer = none) {round : SyncRound JsonValue} {after next : Nat}
    {entries shown : List JsonValue} {items : List CacheExchangeRecord}
    (hworker : mesh'.worker n = ((mesh.worker n).finishPeer round after shown next).2)
    (hafter : after = (mesh.worker n).cursorFor round.peer)
    (hpage : mesh.Page relay n round.peer after entries next items)
    (hholds : ∀ record ∈ items, (relay n).Takes record →
      (mesh.service n).Holds record.envelope.room record.envelope.id)
    (hrounds : ∀ peer, mesh'.rounds n peer =
      if mesh.fresh n = true ∧ peer = round.peer then mesh.rounds n peer + 1
      else mesh.rounds n peer) :
    mesh'.Sound members relay := by
  have hcursor : ∀ peer, (mesh'.worker n).cursorFor peer =
      if peer = round.peer then next else (mesh.worker n).cursorFor peer := by
    intro peer
    rw [hworker]
    unfold finishPeer
    rw [cursorFor_nextPeer, cursorFor_set, Nat.max_eq_right hpage.segment.le]
  refine sound_moved h hmoved (fun peer => ?_) (fun peer => ?_) (fun peer => ?_)
    (fun other hother => ?_) fun _ => hanswer
  · rw [hcursor]
    split
    · next heq => exact heq ▸ hpage.le
    · exact h.position n peer
  · rw [hcursor]
    split
    · next heq =>
      subst heq
      exact (hafter ▸ h.covers n round.peer).segment hpage.segment hholds
    · exact h.covers n peer
  · rw [hcursor, hrounds]
    split
    · next heq =>
      subst heq
      have hprogress := h.progress n round.peer
      rw [← hafter] at hprogress
      split
      · next hfresh => exact hprogress.page hpage.segment (hpage.short hfresh.1)
      · exact hprogress.move hpage.segment
    · next hne =>
      rw [if_neg fun hboth => hne hboth.2]
      exact h.progress n peer
  · rw [hworker] at hother ⊢
    rw [hanswer]
    exact stage_head other hother

/-! ### Events of a worker -/

theorem moved_set (node : MeshNode C) (hservice : node.service = mesh.service n)
    (hlimit : node.worker.limit = (mesh.worker n).limit) : MovedAt mesh (mesh.set n node) n where
  service m := by
    unfold Mesh.service
    rcases Decidable.em (m = n) with rfl | hm
    · rw [node_set_self]
      exact hservice
    · rw [node_set_of_ne hm]
  published := rfl
  fresh _ _ := rfl
  others _ hm := node_set_of_ne hm _
  rounds _ _ := rfl
  limit := by
    unfold Mesh.worker
    rw [node_set_self]
    exact hlimit

theorem moved_settle {w : CacheSyncWorker JsonValue} (hlimit : w.limit = (mesh.worker n).limit) :
    MovedAt mesh (mesh.settle n w) n := moved_set _ rfl hlimit

theorem moved_count (h : MovedAt mesh mesh' n) (peer : String) :
    MovedAt mesh (mesh'.count n peer) n := by
  unfold Mesh.count
  split
  · refine { h with rounds := fun m hm => ?_ }
    rw [← h.rounds m hm]
    funext p
    exact if_neg fun hboth => hm hboth.1
  · exact h

theorem rounds_count (mesh : Mesh C) (n peer p : String) :
    (mesh.count n peer).rounds n p =
      if mesh.fresh n = true ∧ p = peer then mesh.rounds n p + 1 else mesh.rounds n p := by
  unfold Mesh.count
  split
  · next hfresh =>
    show (if n = n ∧ p = peer then _ else _) = _
    simp only [hfresh, true_and]
  · next hstale => rw [if_neg fun hboth => hstale hboth.1]

theorem node_count (mesh : Mesh C) (n peer : String) : (mesh.count n peer).node = mesh.node := by
  unfold Mesh.count
  split
  · rfl
  · rfl

theorem node_settle_self (mesh : Mesh C) (n : String) (w : CacheSyncWorker JsonValue) :
    (mesh.settle n w).node n = { mesh.node n with worker := w, answer := none } :=
  node_set_self _ _ _

theorem pulls_eq_some {w : CacheSyncWorker JsonValue} {peer : String} {after : Nat}
    (h : w.pulls = some (peer, after)) :
    ∃ rest summary, w.inFlight = some ⟨peer, rest, .pulling after, summary⟩ := by
  unfold CacheSyncWorker.pulls at h
  split at h
  · next heq =>
    obtain ⟨rfl, rfl⟩ := Prod.mk.inj (Option.some.inj h)
    exact ⟨_, _, heq⟩
  · cases h

theorem pushes_eq_some {w : CacheSyncWorker JsonValue} {peer : String} {entries : List JsonValue}
    (h : w.pushes = some (peer, entries)) :
    ∃ rest after next summary,
      w.inFlight = some ⟨peer, rest, .pushing after entries next, summary⟩ := by
  unfold CacheSyncWorker.pushes at h
  split at h
  · next heq =>
    obtain ⟨rfl, rfl⟩ := Prod.mk.inj (Option.some.inj h)
    exact ⟨_, _, _, _, heq⟩
  · cases h

theorem sound_fail (h : mesh.Sound members relay) (round : SyncRound JsonValue) :
    (mesh.settle n ((mesh.worker n).failPeer round).2).Sound members relay := by
  have hworker : (mesh.settle n ((mesh.worker n).failPeer round).2).worker n =
      ((mesh.worker n).failPeer round).2 := by
    unfold Mesh.worker
    rw [node_settle_self]
  refine sound_head h (moved_settle (limit_nextPeer _ _ _)) rfl ?_ hworker fun _ => rfl
  rw [node_settle_self]

theorem sound_pullRejects (h : mesh.Sound members relay) (n : String) :
    (mesh.pullRejects n).Sound members relay := by
  unfold Mesh.pullRejects
  split
  · next pull hpulls =>
    obtain ⟨peer, after⟩ := pull
    obtain ⟨rest, summary, hflight⟩ := pulls_eq_some hpulls
    have hfails : (mesh.worker n).pullSettles none =
        (mesh.worker n).failPeer ⟨peer, rest, .pulling after, summary⟩ := by
      unfold pullSettles
      rw [hflight]
    rw [hfails]
    exact sound_fail h _
  · exact h

theorem sound_pushRejects (h : mesh.Sound members relay) (n : String) :
    (mesh.pushRejects n).Sound members relay := by
  unfold Mesh.pushRejects
  split
  · next push hpushes =>
    obtain ⟨peer, entries⟩ := push
    obtain ⟨rest, after, next, summary, hflight⟩ := pushes_eq_some hpushes
    have hfails : (mesh.worker n).pushSettles false =
        (mesh.worker n).failPeer ⟨peer, rest, .pushing after entries next, summary⟩ := by
      unfold pushSettles
      rw [hflight]
      rfl
    rw [hfails]
    exact sound_fail h _
  · exact h

theorem sound_syncOnce (h : mesh.Sound members relay) (n : String) :
    (mesh.set n { mesh.node n with worker := (mesh.worker n).syncOnce.2 }).Sound members relay := by
  cases hflight : (mesh.worker n).inFlight with
  | some round =>
    have hskips : (mesh.worker n).syncOnce.2 = mesh.worker n := by
      unfold syncOnce
      rw [hflight]
    have hsame : mesh.set n { mesh.node n with worker := (mesh.worker n).syncOnce.2 } = mesh := by
      rw [hskips]
      show { mesh with node := Function.update mesh.node n (mesh.node n) } = mesh
      rw [Function.update_eq_self]
    rw [hsame]
    exact h
  | none =>
    have hstarts : (mesh.worker n).syncOnce.2 =
        ((mesh.worker n).nextPeer ⟨false, 0, 0, 0, []⟩ (mesh.worker n).peers).2 := by
      unfold syncOnce
      rw [hflight]
    have hworker : (mesh.set n { mesh.node n with worker := (mesh.worker n).syncOnce.2 }).worker n =
        ((mesh.worker n).nextPeer ⟨false, 0, 0, 0, []⟩ (mesh.worker n).peers).2 := by
      unfold Mesh.worker at hstarts ⊢
      rw [node_set_self]
      exact hstarts
    refine sound_head h (moved_set _ rfl ?_) rfl ?_ hworker fun _ => rfl
    · show (mesh.worker n).syncOnce.2.limit = _
      rw [hstarts]
      exact limit_nextPeer _ _ _
    · rw [node_set_self]
      exact h.idle n hflight

theorem worker_settle_self (mesh : Mesh C) (n : String) (w : CacheSyncWorker JsonValue) :
    (mesh.settle n w).worker n = w :=
  congrArg MeshNode.worker (node_settle_self mesh n w)

theorem sound_finishTurn (round : SyncRound JsonValue) (h : mesh.Sound members relay)
    {after next : Nat} {entries shown : List JsonValue} {items : List CacheExchangeRecord}
    (hafter : after = (mesh.worker n).cursorFor round.peer)
    (hpage : mesh.Page relay n round.peer after entries next items)
    (hholds : ∀ record ∈ items, (relay n).Takes record →
      (mesh.service n).Holds record.envelope.room record.envelope.id) :
    ((mesh.settle n ((mesh.worker n).finishPeer round after shown next).2).count n
      round.peer).Sound members relay := by
  have hsettled : MovedAt mesh (mesh.settle n ((mesh.worker n).finishPeer round after shown next).2)
      n := moved_settle (limit_finishPeer (mesh.worker n) round after shown next)
  have hmoved := moved_count hsettled round.peer
  have hnone : (((mesh.settle n ((mesh.worker n).finishPeer round after shown next).2).count n
      round.peer).node n).answer = none := by
    rw [node_count, node_settle_self]
  have hworker : ((mesh.settle n ((mesh.worker n).finishPeer round after shown next).2).count n
      round.peer).worker n = ((mesh.worker n).finishPeer round after shown next).2 := by
    rw [← worker_settle_self mesh n ((mesh.worker n).finishPeer round after shown next).2]
    unfold Mesh.worker
    rw [node_count, node_settle_self]
  exact sound_finish h hmoved hnone hworker hafter hpage hholds (rounds_count _ n round.peer)

/-- The worker has its page and waits for the push. -/
theorem sound_waits (h : mesh.Sound members relay) {w : CacheSyncWorker JsonValue}
    {round : SyncRound JsonValue} {after next : Nat} {entries : List JsonValue}
    {items : List CacheExchangeRecord} (hlimit : w.limit = (mesh.worker n).limit)
    (hcursors : ∀ peer, w.cursorFor peer = (mesh.worker n).cursorFor peer)
    (hflight : w.inFlight = some round) (hstage : round.stage = .pushing after entries next)
    (hafter : after = (mesh.worker n).cursorFor round.peer)
    (hpage : mesh.Page relay n round.peer after entries next items) :
    (mesh.settle n w).Sound members relay := by
  have hmoved : MovedAt mesh (mesh.settle n w) n := moved_settle hlimit
  have hnone : ((mesh.settle n w).node n).answer = none := by
    rw [node_settle_self]
  refine sound_moved h hmoved (fun peer => ?_) (fun peer => ?_) (fun peer => ?_)
    (fun other hother => ?_) fun _ => hnone
  · rw [worker_settle_self, hcursors]
    exact h.position n peer
  · rw [worker_settle_self, hcursors]
    exact h.covers n peer
  · rw [worker_settle_self, hcursors]
    exact h.progress n peer
  · rw [worker_settle_self, hflight] at hother
    rw [worker_settle_self, hnone, ← Option.some.inj hother]
    unfold Mesh.StageSound
    rw [hstage, hcursors]
    exact ⟨rfl, hafter, items, page_moved hmoved rfl hpage⟩

theorem sound_pullResolves (h : mesh.Sound members relay) (n : String) :
    (mesh.pullResolves n).Sound members relay := by
  unfold Mesh.pullResolves
  split
  · next peer after answer hpulls hanswer =>
    obtain ⟨rest, summary, hflight⟩ := pulls_eq_some hpulls
    have hstage := h.stage n _ hflight
    unfold Mesh.StageSound at hstage
    obtain ⟨hafter, hresults⟩ := hstage
    obtain ⟨items, hpage⟩ := hresults answer hanswer
    cases hempty : answer.entries.isEmpty with
    | true =>
      -- Nothing was returned: the turn is over without a push.
      have hsettles : (mesh.worker n).pullSettles (some answer) =
          (mesh.worker n).finishPeer ⟨peer, rest, .pulling after, summary⟩ after []
            (toCursor answer.nextCursor after) := by
        unfold pullSettles
        rw [hflight]
        show (if answer.entries.isEmpty = true then _ else _) = _
        rw [if_pos hempty]
      rw [hsettles, if_pos rfl]
      have hitems : items = [] :=
        List.map_eq_nil_iff.mp (hpage.entries.symm.trans (List.isEmpty_iff.mp hempty))
      refine sound_finishTurn ⟨peer, rest, .pulling after, summary⟩ h hafter hpage
        fun record hrecord => ?_
      rw [hitems] at hrecord
      exact absurd hrecord List.not_mem_nil
    | false =>
      have hsettles : ((mesh.worker n).pullSettles (some answer)).2 = { mesh.worker n with
          inFlight := some ⟨peer, rest, .pushing after answer.entries
            (toCursor answer.nextCursor after), summary⟩ } := by
        unfold pullSettles
        rw [hflight]
        show (if answer.entries.isEmpty = true then _ else _ : Option _ × _).2 = _
        rw [hempty, if_neg Bool.false_ne_true]
      rw [hsettles, if_neg Bool.false_ne_true]
      exact sound_waits h rfl (fun _ => rfl) rfl rfl hafter hpage
  · exact h

theorem grownAt_set {s' : ServiceState C} (h : LogsGrown (mesh.service n) s' new) :
    GrownAt mesh (mesh.set n { mesh.node n with service := s' }) n new where
  grown := by
    unfold Mesh.service at h ⊢
    rw [node_set_self]
    exact h
  others m hm := by
    unfold Mesh.service
    rw [node_set_of_ne hm]
  worker m := by
    unfold Mesh.worker
    rcases Decidable.em (m = n) with rfl | hm
    · rw [node_set_self]
    · rw [node_set_of_ne hm]
  answer m := by
    rcases Decidable.em (m = n) with rfl | hm
    · rw [node_set_self]
    · rw [node_set_of_ne hm]

theorem service_set (mesh : Mesh C) (n : String) (s' : ServiceState C) :
    (mesh.set n { mesh.node n with service := s' }).service n = s' := by
  unfold Mesh.service
  rw [node_set_self]

theorem worker_set (mesh : Mesh C) (n : String) (s' : ServiceState C) :
    (mesh.set n { mesh.node n with service := s' }).worker n = mesh.worker n := by
  unfold Mesh.worker
  rw [node_set_self]

/-- A page of a peer has published messages only. -/
theorem published_of_page (h : mesh.Sound members relay) {peer : String} {after next : Nat}
    {entries : List JsonValue} {items : List CacheExchangeRecord}
    (hpage : mesh.Page relay n peer after entries next items) :
    ∀ record ∈ items, record.Sound ∧ record.message ∈ mesh.published := by
  intro record hrecord
  have hmem := (hpage.segment.mem_iff.mp hrecord).1
  have hnode := h.nodes peer
  exact ⟨hnode.records.sound record hmem, hnode.known _ _ (hnode.held record hmem)⟩

theorem sound_pushServed (h : mesh.Sound members relay) (hunguarded : (relay n).Unguarded)
    (hroomy : Roomy (relay n).toRelay mesh.published) (env : Env) (arrives : Bool) :
    (mesh.pushServed relay n env arrives).Sound members relay := by
  unfold Mesh.pushServed
  split
  · next peer entries hpushes =>
    obtain ⟨rest, after, next, summary, hflight⟩ := pushes_eq_some hpushes
    have hstage := h.stage n _ hflight
    unfold Mesh.StageSound at hstage
    obtain ⟨-, -, items, hpage⟩ := hstage
    obtain ⟨s', hpush, hpushed⟩ := pushed_grows hunguarded hroomy (published_of_page h hpage)
      (h.nodes n) env
    rw [← hpage.entries] at hpush hpushed
    rw [hpush]
    obtain ⟨new, hgrown, hforeign⟩ := hpushed.grown
    have hsound : (mesh.set n { mesh.node n with service := s' }).Sound members relay := by
      refine sound_grown h (grownAt_set hgrown) ?_ (List.Subset.refl _)
        (fun message hmessage => .inl hmessage) (.inl ⟨hforeign, rfl, rfl⟩)
      rw [service_set]
      exact hpushed.sound
    have hservice := service_set mesh n s'
    have hworker := worker_set mesh n s'
    dsimp only
    generalize mesh.set n { mesh.node n with service := s' } = mesh' at hsound hservice hworker
    rw [← hworker] at hflight
    have hstage' := hsound.stage n _ hflight
    unfold Mesh.StageSound at hstage'
    obtain ⟨-, hafter, items', hpage'⟩ := hstage'
    have hholds : ∀ record ∈ items', (relay n).Takes record →
        (mesh'.service n).Holds record.envelope.room record.envelope.id := by
      intro record hrecord htakes
      rw [hservice]
      refine hpushed.holds record ?_ (published_of_page hsound hpage' record hrecord).1 htakes
      rw [hpage'.entries]
      exact List.mem_map_of_mem hrecord
    cases arrives with
    | true =>
      have hsettles : (mesh'.worker n).pushSettles true =
          (mesh'.worker n).finishPeer ⟨peer, rest, .pushing after entries next, summary⟩ after entries
            next := by
        unfold pushSettles
        rw [hflight]
        rfl
      rw [Bool.and_true, if_pos rfl, hsettles]
      exact sound_finishTurn ⟨peer, rest, .pushing after entries next, summary⟩ hsound
        hafter hpage' hholds
    | false =>
      have hsettles : (mesh'.worker n).pushSettles false =
          (mesh'.worker n).failPeer ⟨peer, rest, .pushing after entries next, summary⟩ := by
        unfold pushSettles
        rw [hflight]
        rfl
      rw [Bool.and_false, if_neg Bool.false_ne_true, hsettles]
      exact sound_fail hsound _
  · exact h

theorem moved_answer (mesh : Mesh C) (n : String) (answer : Option (CacheSyncPullResult JsonValue)) :
    MovedAt mesh { mesh.set n { mesh.node n with answer := answer } with
      fresh := fun m => m = n || mesh.fresh m } n := by
  have hset : MovedAt mesh (mesh.set n { mesh.node n with answer := answer }) n :=
    moved_set { mesh.node n with answer := answer } rfl rfl
  refine { hset with fresh := fun m hm => ?_ }
  show (decide (m = n) || mesh.fresh m) = mesh.fresh m
  rw [decide_eq_false hm, Bool.false_or]

/-- What a pull gives the worker is a page of the records of its peer. -/
theorem page_pulled (h : mesh.Sound members relay) (hmoved : MovedAt mesh mesh' n) {peer : String}
    {after : Nat} (hafter : after = (mesh.worker n).cursorFor peer) {token : String} {env : Env}
    {result : CacheSyncPullResult JsonValue}
    (hresult : pullFromPeer after (.answered (serve (relay peer).toRelay
      (peerPull token (relay n).config.relayNodeId after (mesh.worker n).limit) env
        (mesh.service peer)).1.wire) = some result) :
    ∃ items, mesh'.Page relay n peer after result.entries
      (CacheSyncWorker.toCursor result.nextCursor after) items := by
  have hrecords := (h.nodes peer).records
  have hstatus : (serve (relay peer).toRelay
      (peerPull token (relay n).config.relayNodeId after (mesh.worker n).limit) env
        (mesh.service peer)).1.status = 200 := by
    by_contra hstatus
    unfold pullFromPeer at hresult
    cases hresult.symm.trans (if_pos (.inl hstatus))
  obtain ⟨items, next, hpage, hpulled, hnext⟩ :=
    pullAnswer_serve hrecords (relay n).toRelay hstatus
  obtain ⟨hbody, hentries⟩ := pullFromPeer_answered hpulled
  rw [hbody] at hresult
  rw [← Option.some.inj hresult, hnext]
  refine ⟨items, hentries, ?_, ?_, fun _ hshort => ?_⟩
  · rw [records_moved hmoved]
    exact hpage.toIsSegment
  · rw [hmoved.service]
    rcases hpage.next_mem with heq | ⟨record, hrecord, heq⟩
    · rw [heq, hafter]
      exact h.position n peer
    · rw [← heq]
      exact hrecords.cursor_le record hrecord
  · rw [records_moved hmoved]
    rw [hmoved.limit] at hshort
    exact fun record hrecord _ =>
      hpage.complete (hshort.trans_le (Nat.le_max_right _ _)) record hrecord

/-- An answer changes nothing but what the worker has in hand. -/
theorem sound_answered (h : mesh.Sound members relay) {peer : String} {after : Nat}
    {rest : List String} {summary : CacheSyncSummary}
    (hflight : (mesh.worker n).inFlight = some ⟨peer, rest, .pulling after, summary⟩)
    {answer : Option (CacheSyncPullResult JsonValue)}
    (hpage : ∀ mesh', MovedAt mesh mesh' n → ∀ result ∈ answer, ∃ items,
      mesh'.Page relay n peer after result.entries
        (CacheSyncWorker.toCursor result.nextCursor after) items) :
    Mesh.Sound members relay { mesh.set n { mesh.node n with answer := answer } with
      fresh := fun m => m = n || mesh.fresh m } := by
  have hmoved := moved_answer mesh n answer
  have hnode : ({ mesh.set n { mesh.node n with answer := answer } with
      fresh := fun m => m = n || mesh.fresh m } : Mesh C).node n =
        { mesh.node n with answer := answer } := node_set_self _ _ _
  have hrounds : ({ mesh.set n { mesh.node n with answer := answer } with
      fresh := fun m => m = n || mesh.fresh m } : Mesh C).rounds = mesh.rounds := rfl
  generalize ({ mesh.set n { mesh.node n with answer := answer } with
    fresh := fun m => m = n || mesh.fresh m } : Mesh C) = mesh' at hmoved hnode hrounds ⊢
  have hworker : mesh'.worker n = mesh.worker n := by
    unfold Mesh.worker
    rw [hnode]
  have hgiven : (mesh'.node n).answer = answer := by
    rw [hnode]
  refine sound_moved h hmoved (fun p => ?_) (fun p => ?_) (fun p => ?_) (fun round hround => ?_)
    fun hnone => ?_
  · rw [hworker]
    exact h.position n p
  · rw [hworker]
    exact h.covers n p
  · rw [hworker, hrounds]
    exact h.progress n p
  · have hstage := h.stage n _ hflight
    unfold Mesh.StageSound at hstage
    rw [hworker, hflight] at hround
    rw [hworker, hgiven, ← Option.some.inj hround]
    exact ⟨hstage.1, hpage mesh' hmoved⟩
  · rw [hworker, hflight] at hnone
    cases hnone

/-- The peer answers: the worker gets a page of its records, or nothing. -/
theorem sound_peerAnswers (h : mesh.Sound members relay) (token : String → String) (n : String)
    (env : Env) : (mesh.peerAnswers relay token n env).Sound members relay := by
  unfold Mesh.peerAnswers
  split
  · next peer after hpulls hidle =>
    obtain ⟨rest, summary, hflight⟩ := pulls_eq_some hpulls
    have hstage := h.stage n _ hflight
    unfold Mesh.StageSound at hstage
    generalize hrequest : peerPull (token n) (relay n).config.relayNodeId after
      (mesh.worker n).limit = request
    have hpath : request.pathname = "/api/v1/cache/exchange/pull" := hrequest ▸ rfl
    have hservice : (serve (relay peer).toRelay request env (mesh.service peer)).2 =
        mesh.service peer := (serve_pull hpath).1
    dsimp only
    -- A pull leaves the peer as it was.
    have hsame : mesh.set peer { mesh.node peer with
        service := (serve (relay peer).toRelay request env (mesh.service peer)).2 } = mesh := by
      rw [hservice]
      show { mesh with node := Function.update mesh.node peer (mesh.node peer) } = mesh
      rw [Function.update_eq_self]
    rw [hsame]
    refine sound_answered h hflight fun mesh' hmoved result hresult => ?_
    rw [← hrequest] at hresult
    exact page_pulled h hmoved hstage.1 hresult
  · exact h

/-- The message that a request has written is the last record. -/
theorem getLast?_appended {R : Relay C} {s s' : ServiceState C} (h : Appended R w s s') :
    s'.cacheExchangeRecords.getLast? = some (w.record (s.cacheExchangeCursor + 1)) := by
  have hcap := R.config.cacheExchangeMaxRecords_pos
  have hle : s.cacheExchangeRecords.length + 1 - R.config.cacheExchangeMaxRecords ≤
      s.cacheExchangeRecords.length := by
    omega
  rw [h.records, List.drop_append_of_le_length hle]
  exact List.getLast?_concat

theorem sound_request (h : mesh.Sound members relay) (hmember : n ∈ members) (call : HostCall)
    (hroomy : Roomy (relay n).toRelay (mesh.request relay n call).published) :
    (mesh.request relay n call).Sound members relay := by
  unfold Mesh.request at hroomy ⊢
  split
  · exact h
  next hpath =>
  rw [if_neg hpath] at hroomy
  dsimp only at hroomy ⊢
  have hstep : LogStep (relay n).toRelay (LocalWrite (relay n).toRelay) (mesh.service n)
      (serveCall (relay n).toRelay (mesh.service n) call.toCall) := by
    have hstate : serveCall (relay n).toRelay (mesh.service n) call.toCall =
        ((fetch (relay n).toRelay call.request call.env).run (mesh.service n)).2 :=
      serve_state _ _
    rw [hstate]
    exact once_fetch call hpath (mesh.service n)
  generalize serveCall (relay n).toRelay (mesh.service n) call.toCall = s' at hstep hroomy ⊢
  cases hstep with
  | same hsame =>
    rw [if_pos hsame.cursor]
    refine sound_grown h (grownAt_set (grown_same hsame)) ?_ (List.Subset.refl _)
      (fun message hmessage => .inl hmessage)
      (.inl ⟨fun _ hmem => absurd hmem List.not_mem_nil, rfl, rfl⟩)
    rw [service_set]
    exact (h.nodes n).sameLog hsame
  | appended w hw happended =>
    have hmoved : s'.cacheExchangeCursor ≠ (mesh.service n).cacheExchangeCursor := by
      rw [happended.cursor]
      exact Nat.succ_ne_self _
    rw [if_neg hmoved, getLast?_appended happended] at hroomy
    rw [if_neg hmoved, getLast?_appended happended]
    -- The message is published, and the count of the turns begins again.
    have hsubset : mesh.published ⊆ mesh.published ++ [(w.room, w.id)] :=
      List.subset_append_left _ _
    obtain ⟨hsound, hgrown⟩ := ((h.nodes n).mono hsubset).appended happended
      (RecordLemmas.sound_of_local hw) (List.mem_append_right _ List.mem_cons_self) hroomy
    have hat := grownAt_set hgrown
    refine sound_grown h ⟨hat.grown, hat.others, hat.worker, hat.answer⟩ ?_ hsubset
      (fun message hmessage => ?_) (.inr ⟨rfl, rfl⟩)
    · have hservice := service_set mesh n s'
      unfold Mesh.service at hservice ⊢
      rw [hservice]
      exact hsound
    · rcases List.mem_append.mp hmessage with hold | hnew
      · exact .inl hold
      · refine .inr ⟨hmember, w.record ((mesh.service n).cacheExchangeCursor + 1), ?_,
          (List.mem_singleton.mp hnew).symm, hw.origin, hw.hopCount, hw.maxHops⟩
        have hservice := service_set mesh n s'
        unfold Mesh.records Mesh.service at *
        rw [hservice, hgrown.records]
        exact List.mem_append_right _ List.mem_cons_self

theorem cursorFor_createCacheSyncWorker (peers : List String) (limit : Option JsNumber)
    (peer : String) :
    (createCacheSyncWorker peers limit : CacheSyncWorker JsonValue).cursorFor peer = 0 := by
  show ((OrdMap.ofList ((normalizePeers peers).map fun peer => (peer, 0))).get? peer).getD 0 = 0
  cases hget : (OrdMap.ofList ((normalizePeers peers).map fun peer => (peer, 0))).get? peer with
  | none => rfl
  | some v =>
    obtain ⟨_, _, heq⟩ := List.mem_map.mp (OrdMap.mem_of_get?_ofList hget)
    exact (Prod.mk.inj heq).2.symm

theorem sound_init (members : List String) (relay : String → DenoRelay C) (cache : String → C)
    (limit : String → Option JsNumber) : (Mesh.init members cache limit).Sound members relay where
  nodes n := .init _ _
  sourced _ hmessage := absurd hmessage List.not_mem_nil
  position n peer := (cursorFor_createCacheSyncWorker _ (limit n) peer).le
  covers n peer := by
    have hzero : ((Mesh.init members cache limit).worker n).cursorFor peer = 0 :=
      cursorFor_createCacheSyncWorker _ (limit n) peer
    rw [hzero]
    exact covers_zero (recordsInvariant_init (cache peer)).ascending
  progress _ _ := .zero
  stage _ _ hround := by cases hround
  idle _ _ := rfl

/-! ### The published messages -/

theorem published_count (mesh : Mesh C) (n peer : String) :
    (mesh.count n peer).published = mesh.published := by
  unfold Mesh.count
  split
  · rfl
  · rfl

theorem published_request (mesh : Mesh C) (n : String) (call : HostCall) :
    mesh.published <+: (mesh.request relay n call).published := by
  unfold Mesh.request
  split
  · exact List.prefix_rfl
  · dsimp only
    split
    · exact List.prefix_rfl
    · exact List.prefix_append _ _

/-- Only a request publishes a message. -/
theorem published_step (mesh : Mesh C) (token : String → String) (event : MeshEvent) :
    mesh.published <+: (mesh.step members relay token event).published := by
  unfold Mesh.step
  split
  · cases event with
    | request n call => exact published_request mesh n call
    | syncOnce n => exact List.prefix_rfl
    | peerAnswers n env =>
      show _ <+: (mesh.peerAnswers relay token n env).published
      unfold Mesh.peerAnswers
      split
      · exact List.prefix_rfl
      · exact List.prefix_rfl
    | pullResolves n =>
      show _ <+: (mesh.pullResolves n).published
      unfold Mesh.pullResolves
      split
      · dsimp only
        split
        · rw [published_count]
          exact List.prefix_rfl
        · exact List.prefix_rfl
      · exact List.prefix_rfl
    | pullRejects n =>
      show _ <+: (mesh.pullRejects n).published
      unfold Mesh.pullRejects
      split
      · exact List.prefix_rfl
      · exact List.prefix_rfl
    | pushServed n env arrives =>
      show _ <+: (mesh.pushServed relay n env arrives).published
      unfold Mesh.pushServed
      split
      · dsimp only
        split
        · rw [published_count]
          exact List.prefix_rfl
        · exact List.prefix_rfl
      · exact List.prefix_rfl
    | pushRejects n =>
      show _ <+: (mesh.pushRejects n).published
      unfold Mesh.pushRejects
      split
      · exact List.prefix_rfl
      · exact List.prefix_rfl
  · exact List.prefix_rfl

theorem published_run (mesh : Mesh C) (token : String → String) (events : List MeshEvent) :
    mesh.published <+: (runFrom (Mesh.step members relay token) mesh events).published := by
  induction events generalizing mesh with
  | nil => exact List.prefix_rfl
  | cons event rest ih => exact (published_step mesh token event).trans (ih _)

theorem withinCaps_mono (h : mesh'.WithinCaps members relay)
    (hgrows : mesh.published <+: mesh'.published) : mesh.WithinCaps members relay := by
  intro n hn
  refine ⟨fun room => le_trans ?_ ((h n hn).1 room), le_trans ?_ (h n hn).2⟩
  · exact length_dedup_mono (hgrows.filter _).subset
  · exact length_dedup_mono hgrows.subset

theorem roomy_of_withinCaps (h : mesh.WithinCaps members relay) (hn : n ∈ members) :
    Roomy (relay n).toRelay mesh.published := ⟨(h n hn).1, (h n hn).2⟩

end MeshLemmas

open MeshLemmas

theorem Mesh.sound_step {token : String → String} {event : MeshEvent}
    (hunguarded : ∀ n ∈ members, (relay n).Unguarded)
    (hcaps : (mesh.step members relay token event).WithinCaps members relay)
    (h : mesh.Sound members relay) : (mesh.step members relay token event).Sound members relay := by
  have hbefore := withinCaps_mono hcaps (published_step mesh token event)
  unfold Mesh.step at hcaps ⊢
  split
  · next hmember =>
    rw [if_pos hmember] at hcaps
    cases event with
    | request n call => exact sound_request h hmember call (roomy_of_withinCaps hcaps hmember)
    | syncOnce n => exact sound_syncOnce h n
    | peerAnswers n env => exact sound_peerAnswers h token n env
    | pullResolves n => exact sound_pullResolves h n
    | pullRejects n => exact sound_pullRejects h n
    | pushServed n env arrives =>
      exact sound_pushServed h (hunguarded n hmember) (roomy_of_withinCaps hbefore hmember) env
        arrives
    | pushRejects n => exact sound_pushRejects h n
  · exact h

theorem Mesh.sound_run {token : String → String} (hunguarded : ∀ n ∈ members, (relay n).Unguarded)
    (events : List MeshEvent) (h : mesh.Sound members relay)
    (hcaps : (runFrom (Mesh.step members relay token) mesh events).WithinCaps members relay) :
    (runFrom (Mesh.step members relay token) mesh events).Sound members relay := by
  induction events generalizing mesh with
  | nil => exact h
  | cons event rest ih =>
    have hbefore := withinCaps_mono hcaps
      (published_run (mesh.step members relay token event) token rest)
    exact ih (Mesh.sound_step hunguarded hbefore h) hcaps

/-- A message that a relay has published is at every other relay whose worker has had enough turns
for that relay since. -/
theorem holds_of_rounds {p : String} (h : mesh.Sound members relay)
    (hid : (relay p).config.relayNodeId ≠ (relay n).config.relayNodeId)
    (hhops : 2 ≤ (relay p).config.cacheExchangeMaxHops)
    (hrounds : mesh.published.dedup.length ≤ mesh.rounds n p * (mesh.worker n).limit)
    {record : CacheExchangeRecord} (hrecord : record ∈ mesh.records p)
    (hown : (relay p).Published record) :
    (mesh.service n).Holds record.envelope.room record.envelope.id := by
  have hforeign : ∀ record : CacheExchangeRecord, (relay p).Published record →
      record.origin ≠ (relay n).config.relayNodeId ∧ record.hopCount + 1 < record.maxHops := by
    intro record hown
    rw [hown.origin, hown.hopCount, hown.maxHops]
    exact ⟨hid, hhops⟩
  have hkeep : ∀ record : CacheExchangeRecord, (relay p).Published record →
      forRelay (relay n).toPeerRelay record = true := by
    intro record hown
    obtain ⟨horigin, htakes⟩ := hforeign record hown
    exact (RestartLemmas.forRelay_iff record).mpr ⟨horigin, Nat.lt_of_succ_lt htakes⟩
  have hpassed := (h.progress n p).done (fun record _ hown => hkeep record hown)
    ((length_le_published (h.nodes p)).trans hrounds) record hrecord hown
  exact h.covers n p record hrecord (hkeep record hown) hpassed (hforeign record hown)

/-- While no relay has to trim, every relay holds published ids only; and when each worker has had
enough turns for every other relay since the last publish, each relay holds all of them. -/
theorem mesh_converges (members : List String) (relay : String → DenoRelay C)
    (token : String → String) (cache : String → C) (limit : String → Option JsNumber)
    (events : List MeshEvent)
    (hids : ∀ n ∈ members, ∀ p ∈ members,
      (relay n).config.relayNodeId = (relay p).config.relayNodeId → n = p)
    (hhops : ∀ n ∈ members, 2 ≤ (relay n).config.cacheExchangeMaxHops)
    (hunguarded : ∀ n ∈ members, (relay n).Unguarded) :
    let mesh := Mesh.after members relay token cache limit events
    mesh.WithinCaps members relay →
      (∀ n ∈ members, ∀ room id,
        (mesh.service n).Holds room id → (room, id) ∈ mesh.published) ∧
      ∀ n ∈ members,
        (∀ p ∈ members, p ≠ n →
          mesh.published.dedup.length ≤ mesh.rounds n p * (mesh.worker n).limit) →
        ∀ room id, (mesh.service n).Holds room id ↔ (room, id) ∈ mesh.published := by
  intro mesh hcaps
  have hsound : mesh.Sound members relay :=
    Mesh.sound_run hunguarded events (sound_init members relay cache limit) hcaps
  refine ⟨fun n _ room id => (hsound.nodes n).known room id, fun n hn hrounds room id =>
    ⟨(hsound.nodes n).known room id, fun hmessage => ?_⟩⟩
  obtain ⟨p, hp, record, hrecord, hfound, hown⟩ := hsound.sourced _ hmessage
  obtain ⟨rfl, rfl⟩ := Prod.mk.inj hfound
  rcases Decidable.em (p = n) with rfl | hne
  · exact (hsound.nodes p).held record hrecord
  · exact holds_of_rounds hsound (fun heq => hne (hids p hp n hn heq)) (hhops p hp)
      (hrounds p hp hne) hrecord hown

end

/-! ## On the toy host -/

theorem trimmed_empty : Trimmed "" := by decide

def DenoRelay.toyOf (nodeId : String) (hnode : isValidNodeId nodeId = true) : DenoRelay Unit where
  toPeerRelay := .toy nodeId hnode 3 toyHops_pos
  authToken_trimmed := trimmed_empty
  peerAuthToken_trimmed := trimmed_empty

def toyMembers : List String := ["http://relay-a", "http://relay-b"]

def toyRelays (n : String) : DenoRelay Unit :=
  if n = "http://relay-b" then .toyOf "relay-b" isValidNodeId_relayB
  else .toyOf "relay-a" isValidNodeId_relayA

/-- The first relay publishes a message. The first push of the second one does not come through. -/
def toyMeshRun : List MeshEvent := [
  .syncOnce "http://relay-b",
  .request "http://relay-a" (toyPublish "m1"),
  .peerAnswers "http://relay-b" (.at 0),
  .pullResolves "http://relay-b",
  .pushServed "http://relay-b" (.at 0) false,
  .syncOnce "http://relay-a",
  .peerAnswers "http://relay-a" (.at 0),
  .syncOnce "http://relay-b",
  .pullResolves "http://relay-a",
  .peerAnswers "http://relay-b" (.at 0),
  .pullResolves "http://relay-b",
  .pushServed "http://relay-b" (.at 0) true]

theorem mesh_converges_toy :
    let mesh := Mesh.after toyMembers toyRelays (fun _ => "") (fun _ => ()) (fun _ => none) toyMeshRun
    mesh.published = [("main", "m1")] ∧
    (∀ n ∈ toyMembers, ∀ room id,
      (mesh.service n).Holds room id → (room, id) ∈ mesh.published) ∧
    ∀ n ∈ toyMembers, ∀ room id, (mesh.service n).Holds room id ↔ (room, id) ∈ mesh.published := by
  intro mesh
  have hpublished : mesh.published = [("main", "m1")] := by decide +kernel
  have hcaps : mesh.WithinCaps toyMembers toyRelays := by
    unfold Mesh.WithinCaps
    rw [hpublished]
    intro n hn
    have hroomy : 1 ≤ (toyRelays n).config.maxMessagesPerRoom ∧
        1 ≤ (toyRelays n).config.cacheExchangeMaxRecords := by
      rcases List.mem_pair.mp hn with rfl | rfl
      · decide
      · decide
    refine ⟨fun room => le_trans ?_ hroomy.1, hroomy.2⟩
    exact (List.dedup_sublist _).length_le.trans (List.length_filter_le _ _)
  have hrounds : ∀ n ∈ toyMembers, ∀ p ∈ toyMembers, p ≠ n →
      mesh.published.dedup.length ≤ mesh.rounds n p * (mesh.worker n).limit := by decide +kernel
  have hunguarded : ∀ n ∈ toyMembers, (toyRelays n).Unguarded := by
    intro n hn
    rcases List.mem_pair.mp hn with rfl | rfl
    · exact ⟨.inl rfl, fun _ => rfl⟩
    · exact ⟨.inl rfl, fun _ => rfl⟩
  obtain ⟨hknown, hall⟩ := mesh_converges toyMembers toyRelays (fun _ => "") (fun _ => ())
    (fun _ => none) toyMeshRun (by decide) (by decide) hunguarded hcaps
  exact ⟨hpublished, hknown, fun n hn => hall n hn (hrounds n hn)⟩

end BitRelay
