import BitRelay.Exchange.PullWalk
import BitRelay.Logs.ExchangeRecords
import BitRelay.Logs.Sources

/-!
# A network of relays

Any number of relays publish, answer pulls and take pushes. What a pull returned is a parcel from
then on: it can be pushed to any relay, late, in any batch and any number of times, but not
forged. The network keeps two history variables that no relay sees: for each record where its
message was published and by how many pushes it came, and the same for each parcel.

Results:
1. `traced_step`: what one step preserves.
2. `copies_are_traced`: a record knows its publisher and the number of its pushes, whatever was
   delivered, and no copy comes back to its publisher or is pushed on for ever.
3. `recorded_once`: while the room logs keep all of their messages, a relay records a message once.
4. `copies_are_published`: a relay holds no message that its publisher has not accepted.
-/

namespace BitRelay

/-! ## The network -/

/-- Where a message was published, and by how many pushes it came. -/
structure Travel (N : Type) where
  publisher : N
  transfers : Nat
  deriving DecidableEq

def Travel.next {N : Type} (t : Travel N) : Travel N := ⟨t.publisher, t.transfers + 1⟩

/-- An entry that a pull returned, as a peer reads it. -/
structure Parcel (N : Type) where
  value : JsonValue
  travel : Travel N

structure Network (N C : Type) where
  node : N → WritingSystem C
  parcels : List (Parcel N)
  /-- the parcels that a push in flight has still to take -/
  cargo : N → Nat → List (Parcel N)
  /-- the travel of the record with a cursor -/
  travel : N → Nat → Travel N

inductive NetworkEvent (N : Type)
  /-- a request arrives; a push delivers the batch -/
  | arrive (node : N) (call : HostCall) (batch : List Nat)
  | resume (node : N) (task : Nat) (env : HostEnv)

/-- The parcels from the one on that the push has just taken. -/
def takenParcels {N : Type} (cargo : List (Parcel N)) : Option WritingTask → List (Parcel N)
  | some ⟨_, .pushPersist _ rest _ _⟩ => cargo.drop (cargo.length - (rest.length + 1))
  | _ => []

/-- How a record came that was written with these parcels at hand. -/
def arrivedBy {N : Type} (n : N) : List (Parcel N) → Travel N
  | [] => ⟨n, 0⟩
  | parcel :: _ => parcel.travel.next

namespace Network

section
variable {N C : Type} [DecidableEq N]

/-- The relays before the first request. -/
def init (relay : N → PeerRelay C) (cache : N → C) : Network N C where
  node n := .init (relay n).toRelay (cache n)
  parcels := []
  cargo _ _ := []
  travel n _ := ⟨n, 0⟩

def records (net : Network N C) (n : N) : List CacheExchangeRecord :=
  (net.node n).service.cacheExchangeRecords

/-- The parcels in the response to a pull. -/
def exported (net : Network N C) (n : N) (call : HostCall) : List (Parcel N) :=
  let sys := net.node n
  let response := (serve sys.relay call.request call.env sys.service).1.wire
  if call.request.pathname = Endpoint.cacheExchangePull.path ∧ response.status = 200 then
    ((response.body.arrField? "entries").getD []).map fun value =>
      ⟨value, net.travel n ((entryCursor value).getD 0)⟩
  else []

/-- A relay has gone on: the next record it writes came like this. -/
def advance (net : Network N C) (n : N) (sys : WritingSystem C) (id : Nat)
    (cargo : List (Parcel N)) (next : Travel N) : Network N C where
  node m := if m = n then sys else net.node m
  parcels := net.parcels
  cargo m i := if m = n ∧ i = id then cargo else net.cargo m i
  travel m cursor :=
    if m = n ∧ cursor = (net.node n).service.cacheExchangeCursor + 1 then next
    else net.travel m cursor

/-- A push whose entries are not those of its batch would be forged; it is no step. -/
def arrive (net : Network N C) (n : N) (call : HostCall) (batch : List (Parcel N)) :
    Network N C :=
  if call.request.pathname = Endpoint.cacheExchangePush.path ∧
      pushedEntries call.request ≠ batch.map Parcel.value then net
  else
    { net.advance n ((net.node n).arrive call) (net.node n).next batch ⟨n, 0⟩ with
      parcels := net.parcels ++ net.exported n call }

def resume (A : Archive C) (net : Network N C) (n : N) (id : Nat) (env : HostEnv) :
    Network N C :=
  let sys := (net.node n).step A (.resume id env)
  let taken := takenParcels (net.cargo n id) (sys.tasks.get? id)
  net.advance n sys id taken.tail (arrivedBy n taken)

def step (A : Archive C) (net : Network N C) : NetworkEvent N → Network N C
  | .arrive n call batch => net.arrive n call (batch.filterMap (net.parcels[·]?))
  | .resume n id env => net.resume A n id env

def after (A : Archive C) (relay : N → PeerRelay C) (cache : N → C)
    (events : List (NetworkEvent N)) : Network N C :=
  runFrom (step A) (init relay cache) events

/-- No room log of the relay has dropped a message: none was accepted over its cap. -/
def KeepsLogs (net : Network N C) (n : N) : Prop :=
  ∀ room, ((net.node n).historyOf room).length ≤ (net.node n).relay.config.maxMessagesPerRoom

end

end Network

/-! ## The invariant -/

section
variable {N C : Type} (relay : N → PeerRelay C)

/-- The record is a copy that has come this way. -/
structure Travel.Traces (net : Network N C) (t : Travel N) (record : CacheExchangeRecord) :
    Prop where
  sound : record.Sound
  origin : record.origin = (relay t.publisher).config.relayNodeId
  hopCount : record.hopCount = t.transfers
  published : record.envelope.stored ∈ (net.node t.publisher).history.map Envelope.stored

/-- The record of a relay was published there, or it came from another relay. -/
structure Network.Holds (net : Network N C) (n : N) (t : Travel N)
    (record : CacheExchangeRecord) : Prop extends t.Traces relay net record where
  own : t.transfers = 0 → t.publisher = n
  foreign : t.transfers ≠ 0 → record.origin ≠ (relay n).config.relayNodeId

/-- The parcel is the wire form of a record. -/
def Parcel.Genuine (net : Network N C) (parcel : Parcel N) : Prop :=
  ∃ record : CacheExchangeRecord, parcel.value = (exportEntry record).wire ∧
    parcel.travel.Traces relay net record

/-- A relay in the network has come where it is without a restore. -/
def Network.Reached (A : Archive C) (cache : N → C) (net : Network N C) (n : N) : Prop :=
  ∃ events : List (WritingEvent C), (∀ event ∈ events, event.restores = false) ∧
    net.node n = WritingSystem.after A (relay n).toRelay (cache n) events

/-- The invariant of the network. -/
structure Network.Traced (A : Archive C) (cache : N → C) (net : Network N C) : Prop where
  relays : ∀ n, (net.node n).relay = (relay n).toRelay
  reached : ∀ n, net.Reached relay A cache n
  holds : ∀ n, ∀ record ∈ net.records n, net.Holds relay n (net.travel n record.cursor) record
  parcels : ∀ parcel ∈ net.parcels, parcel.Genuine relay net
  cargo : ∀ n id task entries, (net.node n).tasks.get? id = some task →
    task.writing.ahead task.request = some entries →
    entries = (net.cargo n id).map Parcel.value ∧
      ∀ parcel ∈ net.cargo n id, parcel.Genuine relay net

variable {relay} {A : Archive C} {cache : N → C} {net net' : Network N C} {n : N}
  {record : CacheExchangeRecord}

namespace NetworkLemmas

open WalkLemmas SuffixLemmas RecordLemmas WritingSystem

/-! ## Copies -/

theorem traces_mono {t : Travel N} (h : t.Traces relay net record)
    (hhistory : ∀ m, (net.node m).history <+: (net'.node m).history) :
    t.Traces relay net' record :=
  { h with published := ((hhistory t.publisher).map _).subset h.published }

theorem holds_mono {t : Travel N} (h : net.Holds relay n t record)
    (hhistory : ∀ m, (net.node m).history <+: (net'.node m).history) :
    net'.Holds relay n t record :=
  { traces_mono h.toTraces hhistory with own := h.own, foreign := h.foreign }

theorem genuine_mono {parcel : Parcel N} (h : parcel.Genuine relay net)
    (hhistory : ∀ m, (net.node m).history <+: (net'.node m).history) :
    parcel.Genuine relay net' := by
  obtain ⟨record, hvalue, htraces⟩ := h
  exact ⟨record, hvalue, traces_mono htraces hhistory⟩

/-- A message of the relay is a copy that was never pushed. -/
theorem holds_own {w : Write} (hw : LocalWrite (relay n).toRelay w)
    (htopic : isValidTopic w.topic = true) (cursor : Nat)
    (hpublished : w.envelope ∈ (net.node n).history) :
    net.Holds relay n ⟨n, 0⟩ (w.record cursor) where
  sound := sound_record (sound_of_local hw) htopic cursor
  origin := hw.origin
  hopCount := hw.hopCount
  published := List.mem_map_of_mem hpublished
  own _ := rfl
  foreign h := absurd rfl h

theorem storedSignature_getD {signature : Option String}
    (h : ∀ text ∈ signature, FreeText text) : storedSignature (signature.getD "") = signature := by
  cases signature with
  | none => rfl
  | some text =>
    obtain ⟨hne, htrimmed⟩ := h text rfl
    have htrim : trim text = text := htrimmed
    unfold storedSignature
    rw [Option.getD_some, htrim, if_pos hne]

/-- The message of an exported record is the one that its importer writes. -/
theorem stored_arrival (h : record.Sound) :
    record.arrival.write.envelope.stored = record.envelope.stored := by
  have hsignature := storedSignature_getD h.signature
  unfold Envelope.stored Write.envelope IncomingExchangeEntry.write CacheExchangeRecord.arrival
  dsimp only
  rw [hsignature, JsonValue.normalize_normalize]

/-- A parcel that a relay takes is a copy that came by one more push. -/
theorem holds_pushed {parcel : Parcel N} (hgenuine : parcel.Genuine relay net)
    {incoming : IncomingExchangeEntry} {w : Write}
    (hw : PushedWrite (relay n).toRelay parcel.value incoming w)
    (htopic : isValidTopic w.topic = true) (cursor : Nat) :
    net.Holds relay n parcel.travel.next (w.record cursor) := by
  obtain ⟨exported, hvalue, htraces⟩ := hgenuine
  have hread := parse_wire htraces.sound (relay n).config.cacheExchangeMaxHops
  rw [← hvalue, hw.read] at hread
  have hincoming : incoming = exported.arrival := Except.ok.inj hread
  obtain ⟨hloop, -⟩ := refusesEntryHops_eq_none_iff.mp hw.hops
  have hwrite : w = exported.arrival.write := hincoming ▸ hw.write
  have henvelope : (w.record cursor).envelope.stored = exported.envelope.stored := by
    rw [hwrite]
    exact stored_arrival htraces.sound
  refine ⟨⟨sound_record (sound_of_pushed hw) htopic cursor, ?_, ?_, ?_⟩, ?_, fun _ => ?_⟩
  · rw [hwrite]
    exact htraces.origin
  · rw [hwrite]
    exact congrArg Nat.succ htraces.hopCount
  · rw [henvelope]
    exact htraces.published
  · exact fun h => absurd h (Nat.succ_ne_zero _)
  · rw [hwrite]
    rw [hincoming] at hloop
    exact hloop

/-! ## What a step records -/

variable {sys : WritingSystem C} {event : WritingEvent C}

/-- Without a restore the accepted messages stay, and a record that is new is one of them. -/
theorem recorded_step (hproper : sys.ProperTasks) (hevent : event.restores = false) :
    sys.history <+: (sys.step A event).history ∧
    ∀ record ∈ (sys.step A event).service.cacheExchangeRecords,
      record ∈ sys.service.cacheExchangeRecords ∨
        record.envelope ∈ (sys.step A event).history := by
  cases turn_step (A := A) event hproper with
  | segment accepted relay taken history hsegment =>
    refine ⟨history ▸ List.prefix_append _ _, fun record hrecord => ?_⟩
    cases hsegment with
    | quiet hsame => exact .inl (hsame.records ▸ hrecord)
    | accepts w hw happended =>
      rw [happended.records] at hrecord
      rcases List.mem_append.mp (List.mem_of_mem_drop hrecord) with hold | hnew
      · exact .inl hold
      · rw [List.mem_singleton.mp hnew, history]
        exact .inr (List.mem_append_right _ List.mem_cons_self)
  | snapshot relay service history taken =>
    rw [service, history]
    exact ⟨List.prefix_rfl, fun record hrecord => .inl hrecord⟩
  | restored hrestores =>
    rw [hevent] at hrestores
    cases hrestores

/-- What a segment has recorded, if the next record comes like this. -/
theorem recorded_appended {R : Relay C} {w : Write} {s s' : ServiceState C}
    (h : Appended R w s s') (hrecord : record ∈ s'.cacheExchangeRecords) :
    record ∈ s.cacheExchangeRecords ∨ record = w.record (s.cacheExchangeCursor + 1) := by
  rw [h.records] at hrecord
  rcases List.mem_append.mp (List.mem_of_mem_drop hrecord) with hold | hnew
  · exact .inl hold
  · exact .inr (List.mem_singleton.mp hnew)

theorem reached_step (h : net.Reached relay A cache n) (hevent : event.restores = false) :
    ∃ events : List (WritingEvent C), (∀ e ∈ events, e.restores = false) ∧
      (net.node n).step A event =
        WritingSystem.after A (relay n).toRelay (cache n) events := by
  obtain ⟨events, hevents, hnode⟩ := h
  refine ⟨events ++ [event], fun e he => ?_, ?_⟩
  · rcases List.mem_append.mp he with hold | hnew
    · exact hevents e hold
    · rw [List.mem_singleton.mp hnew]
      exact hevent
  · rw [after_concat, hnode]

/-! ## Parcels -/

variable {cargo : List (Parcel N)}

theorem traced_parcels (h : net.Traced relay A cache) {parcels : List (Parcel N)}
    (hparcels : ∀ parcel ∈ parcels, parcel.Genuine relay net) :
    ({ net with parcels } : Network N C).Traced relay A cache :=
  have hgrows : ∀ m, (net.node m).history <+: (net.node m).history := fun _ => List.prefix_rfl
  ⟨h.relays, h.reached, fun m record hrecord => holds_mono (h.holds m record hrecord) hgrows,
    fun parcel hparcel => genuine_mono (hparcels parcel hparcel) hgrows,
    fun m i task entries hget hahead => (h.cargo m i task entries hget hahead).imp_right
      fun hall parcel hparcel => genuine_mono (hall parcel hparcel) hgrows⟩

/-- The entries of a pull are wire forms of records. -/
theorem genuine_exported (h : net.Traced relay A cache) (n : N) (call : HostCall) :
    ∀ parcel ∈ net.exported n call, parcel.Genuine relay net := by
  intro parcel hparcel
  unfold Network.exported at hparcel
  dsimp only at hparcel
  split at hparcel
  · next hpull =>
    obtain ⟨hpath, hstatus⟩ := hpull
    have hresponse := (serve_pull hpath).2 hstatus
    obtain ⟨events, -, hnode⟩ := h.reached n
    have hascending : CursorLog.Ascending CacheExchangeRecord.cursor (net.records n) := by
      unfold Network.records
      rw [hnode]
      exact (exchangeLog_run A (relay n).toRelay (cache n) events).1.ascending
    obtain ⟨items, hitems, hpage⟩ := isPage_select hascending (pullArgs call.request)
    have hentries : ((serve (net.node n).relay call.request call.env
        (net.node n).service).1.wire.body.arrField? "entries").getD [] =
        items.map fun record => (exportEntry record).wire := by
      unfold Response.wire
      rw [hresponse]
      show (some (JsonValue.normalizeItems _)).getD [] = _
      unfold Network.records at hitems
      rw [Option.getD_some, JsonValue.normalizeItems_eq_map, hitems, List.map_map, List.map_map]
      rfl
    rw [hentries, List.map_map] at hparcel
    obtain ⟨record, hrecord, rfl⟩ := List.mem_map.mp hparcel
    have hheld := h.holds n record (hpage.mem_iff.mp hrecord).1
    refine ⟨record, rfl, ?_⟩
    show (net.travel n ((entryCursor (exportEntry record).wire).getD 0)).Traces relay net record
    rw [PeeringLemmas.entryCursor_wire]
    exact hheld.toTraces
  · exact absurd hparcel List.not_mem_nil

theorem ahead_of_task {request : Request} {progress : WritingProgress} {sys sys' : WritingSystem C}
    {task : WritingTask} {id : Nat} (h : GoesOn id request progress sys sys')
    (htask : sys'.tasks.get? id = some task) :
    task.writing.ahead task.request = progress.ahead request := by
  have hget := h.task
  rw [htask] at hget
  cases progress with
  | inl response => cases hget
  | inr writing =>
    cases hget
    rfl

/-- Without entries ahead no parcel is taken. -/
theorem takenParcels_of_ahead {request : Request} {progress : WritingProgress}
    {sys sys' : WritingSystem C} {id : Nat} (h : GoesOn id request progress sys sys')
    (hahead : progress.ahead request = none) (cargo : List (Parcel N)) :
    takenParcels cargo (sys'.tasks.get? id) = [] := by
  cases hget : sys'.tasks.get? id with
  | none => rfl
  | some task =>
    have hnone := (ahead_of_task h hget).trans hahead
    obtain ⟨request', writing⟩ := task
    cases writing with
    | pushPersist value rest i counts => cases hnone
    | _ => rfl

/-- The entries that a push took and has still to take are its last parcels. -/
theorem takenParcels_of_suffix {value : JsonValue} {rest : List JsonValue}
    (h : value :: rest <:+ cargo.map Parcel.value) (request : Request) (i : Nat)
    (counts : PushCounts) :
    ∃ parcel ∈ cargo, ∃ left, takenParcels cargo (some ⟨request, .pushPersist value rest i counts⟩) =
      parcel :: left ∧ parcel.value = value ∧ left.map Parcel.value = rest ∧
        ∀ other ∈ left, other ∈ cargo := by
  have hdrop := List.suffix_iff_eq_drop.mp h
  rw [List.length_map, List.length_cons, ← List.map_drop] at hdrop
  have htaken : takenParcels cargo (some ⟨request, .pushPersist value rest i counts⟩) =
      cargo.drop (cargo.length - (rest.length + 1)) := rfl
  rw [htaken]
  have hmem : ∀ other ∈ cargo.drop (cargo.length - (rest.length + 1)), other ∈ cargo :=
    fun other hother => List.mem_of_mem_drop hother
  cases hcases : cargo.drop (cargo.length - (rest.length + 1)) with
  | nil =>
    rw [hcases] at hdrop
    cases hdrop
  | cons parcel left =>
    rw [hcases] at hdrop hmem
    obtain ⟨hvalue, hrest⟩ := List.cons.inj hdrop
    exact ⟨parcel, hmem parcel List.mem_cons_self, left, rfl, hvalue.symm, hrest.symm,
      fun other hother => hmem other (List.mem_cons_of_mem _ hother)⟩

theorem proper_of_traced (h : net.Traced relay A cache) (n : N) : (net.node n).ProperTasks := by
  obtain ⟨events, -, hnode⟩ := h.reached n
  rw [hnode]
  exact properTasks_run _ _ events

/-! ## A step of one relay -/

section
variable [DecidableEq N] {id : Nat} {t : Travel N}

theorem node_advance_self (net : Network N C) (n : N) (sys : WritingSystem C) (id : Nat)
    (cargo : List (Parcel N)) (t : Travel N) : (net.advance n sys id cargo t).node n = sys :=
  if_pos rfl

theorem node_advance_of_ne {m : N} (h : m ≠ n) (sys : WritingSystem C) (id : Nat)
    (cargo : List (Parcel N)) (t : Travel N) :
    (net.advance n sys id cargo t).node m = net.node m :=
  if_neg h

theorem history_advance (event : WritingEvent C) (h : net.Traced relay A cache) (hevent : event.restores = false)
    (hsys : (net.node n).step A event = sys) (m : N) :
    (net.node m).history <+: ((net.advance n sys id cargo t).node m).history := by
  rcases Decidable.em (m = n) with rfl | hm
  · rw [node_advance_self, ← hsys]
    exact (recorded_step (proper_of_traced h m) hevent).1
  · rw [node_advance_of_ne hm]

/-- One relay goes on: the invariant holds when the parcels at hand are genuine and the new records
come like this. -/
theorem traced_advance (event : WritingEvent C) (h : net.Traced relay A cache) (hevent : event.restores = false)
    (hsys : (net.node n).step A event = sys)
    (hnew : ∀ record ∈ sys.service.cacheExchangeRecords, record ∈ net.records n ∨
      record.cursor = (net.node n).service.cacheExchangeCursor + 1 ∧
        (net.advance n sys id cargo t).Holds relay n t record)
    (hothers : ∀ other, other ≠ id → sys.tasks.get? other = (net.node n).tasks.get? other)
    (htask : ∀ task entries, sys.tasks.get? id = some task →
      task.writing.ahead task.request = some entries → entries = cargo.map Parcel.value)
    (hcargo : ∀ parcel ∈ cargo, parcel.Genuine relay net) :
    (net.advance n sys id cargo t).Traced relay A cache := by
  obtain ⟨events, hevents, hnode⟩ := h.reached n
  have hproper := proper_of_traced h n
  have hlog : ExchangeLog (net.records n) (net.node n).service.cacheExchangeCursor := by
    unfold Network.records
    rw [hnode]
    exact (exchangeLog_run A (relay n).toRelay (cache n) events).1
  have hgrows : ∀ m, (net.node m).history <+: ((net.advance n sys id cargo t).node m).history :=
    history_advance event h hevent hsys
  refine ⟨fun m => ?_, fun m => ?_, fun m record hrecord => ?_, fun parcel hparcel =>
    genuine_mono (h.parcels parcel hparcel) hgrows, fun m i task entries hget hahead => ?_⟩
  · rcases Decidable.em (m = n) with rfl | hm
    · rw [node_advance_self, ← hsys, relay_step hproper hevent]
      exact h.relays m
    · rw [node_advance_of_ne hm]
      exact h.relays m
  · rcases Decidable.em (m = n) with rfl | hm
    · unfold Network.Reached
      rw [node_advance_self, ← hsys]
      exact reached_step (h.reached m) hevent
    · unfold Network.Reached
      rw [node_advance_of_ne hm]
      exact h.reached m
  · have hold : record ∈ net.records m →
        (m = n → record.cursor ≠ (net.node n).service.cacheExchangeCursor + 1) →
        (net.advance n sys id cargo t).Holds relay m
          ((net.advance n sys id cargo t).travel m record.cursor) record := by
      intro hmem hcursor
      have htravel : (net.advance n sys id cargo t).travel m record.cursor =
          net.travel m record.cursor := if_neg fun hboth => hcursor hboth.1 hboth.2
      rw [htravel]
      exact holds_mono (h.holds m record hmem) hgrows
    rcases Decidable.em (m = n) with rfl | hm
    · unfold Network.records at hrecord
      rw [node_advance_self] at hrecord
      rcases hnew record hrecord with hmem | ⟨hcursor, hholds⟩
      · exact hold hmem fun _ => Nat.ne_of_lt (Nat.lt_succ_of_le (hlog.cursor_le record hmem))
      · have htravel : (net.advance m sys id cargo t).travel m record.cursor = t :=
          if_pos ⟨rfl, hcursor⟩
        rw [htravel]
        exact hholds
    · unfold Network.records at hrecord
      rw [node_advance_of_ne hm] at hrecord
      exact hold hrecord fun heq => absurd heq hm
  · have hkept : ¬ (m = n ∧ i = id) → (net.node m).tasks.get? i = some task →
        entries = ((net.advance n sys id cargo t).cargo m i).map Parcel.value ∧
          ∀ parcel ∈ (net.advance n sys id cargo t).cargo m i,
            parcel.Genuine relay (net.advance n sys id cargo t) := by
      intro hne hget
      have hsame : (net.advance n sys id cargo t).cargo m i = net.cargo m i := if_neg hne
      obtain ⟨hentries, hall⟩ := h.cargo m i task entries hget hahead
      rw [hsame]
      exact ⟨hentries, fun parcel hparcel => genuine_mono (hall parcel hparcel) hgrows⟩
    rcases Decidable.em (m = n) with rfl | hm
    · rw [node_advance_self] at hget
      rcases Decidable.em (i = id) with rfl | hi
      · have hsame : (net.advance m sys i cargo t).cargo m i = cargo := if_pos ⟨rfl, rfl⟩
        rw [hsame]
        exact ⟨htask task entries hget hahead, fun parcel hparcel =>
          genuine_mono (hcargo parcel hparcel) hgrows⟩
      · exact hkept (fun hboth => hi hboth.2) (hothers i hi ▸ hget)
    · rw [node_advance_of_ne hm] at hget
      exact hkept (fun hboth => hm hboth.1) hget

/-! ## Steps of the network -/

/-- What a segment that writes a message of the relay has recorded. -/
theorem holds_of_own (event : WritingEvent C) (h : net.Traced relay A cache) (hevent : event.restores = false)
    (hsys : (net.node n).step A event = sys)
    (hstep : LogStep (relay n).toRelay (LocalWrite (relay n).toRelay) (net.node n).service
      sys.service) :
    ∀ record ∈ sys.service.cacheExchangeRecords, record ∈ net.records n ∨
      record.cursor = (net.node n).service.cacheExchangeCursor + 1 ∧
        (net.advance n sys id cargo ⟨n, 0⟩).Holds relay n ⟨n, 0⟩ record := by
  intro record hrecord
  cases hstep with
  | same hsame =>
    rw [hsame.records] at hrecord
    exact .inl hrecord
  | appended w hw happended =>
    rcases recorded_appended happended hrecord with hold | hnew
    · exact .inl hold
    · rcases (recorded_step (A := A) (proper_of_traced h n) hevent).2 record (hsys ▸ hrecord) with
        hold | hpublished
      · exact .inl hold
      · rw [hnew] at hpublished ⊢
        refine .inr ⟨rfl, holds_own hw happended.topic _ ?_⟩
        rw [node_advance_self, ← hsys]
        exact hpublished

theorem traced_arrive (h : net.Traced relay A cache) (n : N) (call : HostCall)
    {batch : List (Parcel N)} (hbatch : ∀ parcel ∈ batch, parcel.Genuine relay net) :
    (net.arrive n call batch).Traced relay A cache := by
  unfold Network.arrive
  split
  · exact h
  next hgenuine =>
  obtain ⟨progress, harrives, hgoes⟩ := serves_arrive call (net.node n)
  rw [h.relays n] at harrives
  have hadvance : (net.advance n ((net.node n).arrive call) (net.node n).next batch
      ⟨n, 0⟩).Traced relay A cache := by
    refine traced_advance (.arrive call) h rfl rfl ?_ hgoes.others ?_ hbatch
    · rcases harrives with hsourced | ⟨-, -, hsame⟩
      · cases hsourced with
        | own hahead hstep => exact holds_of_own (.arrive call) h rfl rfl hstep
        | entry hahead hw happended => cases List.suffix_nil.mp hahead
      · intro record hrecord
        rw [hsame.records] at hrecord
        exact .inl hrecord
    · intro task entries hget hahead
      rw [ahead_of_task hgoes hget] at hahead
      rcases harrives with hsourced | ⟨hpath, rfl, -⟩
      · cases hsourced with
        | own hnone hstep =>
          rw [hnone] at hahead
          cases hahead
        | entry hsuffix hw happended => cases List.suffix_nil.mp hsuffix
      · -- The push waits for its body, whose entries are those of the batch.
        have hentries : pushedEntries call.request = batch.map Parcel.value :=
          not_not.mp fun hne => hgenuine ⟨hpath, hne⟩
        exact (Option.some.inj hahead).symm.trans hentries
  have hgrows : ∀ m, (net.node m).history <+: ((net.advance n ((net.node n).arrive call)
      (net.node n).next batch ⟨n, 0⟩).node m).history := history_advance (.arrive call) h rfl rfl
  refine traced_parcels hadvance fun parcel hparcel => ?_
  rcases List.mem_append.mp hparcel with hold | hnew
  · exact genuine_mono (h.parcels parcel hold) hgrows
  · exact genuine_mono (genuine_exported h n call parcel hnew) hgrows

theorem traced_resume (h : net.Traced relay A cache) (n : N) (id : Nat) (env : HostEnv) :
    (net.resume A n id env).Traced relay A cache := by
  unfold Network.resume
  dsimp only
  cases htask : (net.node n).tasks.get? id with
  | none =>
    have hstep : (net.node n).step A (.resume id env) = net.node n := by
      simp only [WritingSystem.step, htask]
    rw [hstep, htask]
    refine traced_advance (.resume id env) h rfl hstep (fun record hrecord => .inl hrecord)
      (fun other _ => rfl) (fun task entries hget => ?_) fun parcel hparcel => ?_
    · rw [htask] at hget
      cases hget
    · exact absurd hparcel List.not_mem_nil
  | some task =>
    obtain ⟨progress, hsourced, hgoes⟩ := serves_resume A env htask
      (proper_of_traced h n id task htask)
    rw [h.relays n] at hsourced
    generalize hsys : (net.node n).step A (.resume id env) = sys at hsourced hgoes
    cases hsourced with
    | own hahead hstep =>
      rw [takenParcels_of_ahead hgoes hahead]
      refine traced_advance (.resume id env) h rfl hsys (holds_of_own _ h rfl hsys hstep)
        hgoes.others (fun task' entries hget hsome => ?_) fun parcel hparcel => ?_
      · rw [ahead_of_task hgoes hget, hahead] at hsome
        cases hsome
      · exact absurd hparcel List.not_mem_nil
    | @entry value rest i counts incoming w hsuffix hw happended =>
      -- What the push has ahead is what its parcels say.
      cases hahead : task.writing.ahead task.request with
      | none =>
        rw [hahead] at hsuffix
        cases List.suffix_nil.mp hsuffix
      | some entries =>
        obtain ⟨hentries, hgenuine⟩ := h.cargo n id task entries htask hahead
        rw [hahead, Option.getD_some, hentries] at hsuffix
        obtain ⟨parcel, hparcel, left, htaken, rfl, hleft, hrest⟩ :=
          takenParcels_of_suffix hsuffix task.request i counts
        have hget : sys.tasks.get? id = some ⟨task.request, .pushPersist parcel.value rest i counts⟩ :=
          hgoes.task
        rw [hget, htaken]
        refine traced_advance (.resume id env) h rfl hsys (fun record hrecord => ?_)
          hgoes.others (fun task' entries' hget' hsome => ?_) fun other hother =>
            hgenuine other (hrest other hother)
        · rcases recorded_appended happended hrecord with hold | hnew
          · exact .inl hold
          · rw [hnew]
            have hgrows : ∀ m, (net.node m).history <+:
                ((net.advance n sys id left parcel.travel.next).node m).history :=
              history_advance _ h rfl hsys
            exact .inr ⟨rfl, holds_pushed (genuine_mono (hgenuine parcel hparcel) hgrows) hw
              happended.topic _⟩
        · rw [ahead_of_task hgoes hget'] at hsome
          rw [List.tail_cons, hleft]
          exact (Option.some.inj hsome).symm

end

/-! ## One record for a message -/

/-- Messages that have distinct ids in each room are distinct. -/
theorem nodup_of_rooms {messages : List Envelope}
    (h : ∀ room, ((messages.filter fun e => e.room = room).map Envelope.id).Nodup) :
    (messages.map fun e => (e.room, e.id)).Nodup := by
  induction messages with
  | nil => exact List.nodup_nil
  | cons e rest ih =>
    have hrest : ∀ room, ((rest.filter fun e => e.room = room).map Envelope.id).Nodup :=
      fun room => (h room).sublist (((List.sublist_cons_self e rest).filter _).map _)
    refine List.nodup_cons.mpr ⟨fun hmem => ?_, ih hrest⟩
    obtain ⟨other, hother, hpair⟩ := List.mem_map.mp hmem
    obtain ⟨hroom, hid⟩ := Prod.mk.inj hpair
    have hhead := h e.room
    have hfilter : (e :: rest).filter (fun e' => decide (e'.room = e.room)) =
        e :: rest.filter fun e' => e'.room = e.room := List.filter_cons_of_pos (decide_eq_true rfl)
    rw [hfilter, List.map_cons, List.nodup_cons] at hhead
    exact hhead.1 (List.mem_map.mpr
      ⟨other, List.mem_filter.mpr ⟨hother, decide_eq_true hroom⟩, hid⟩)

theorem normalised_of_restores {event : WritingEvent C} (h : event.restores = false) :
    event.Normalised := by
  cases event with
  | restart relay cache i nowMs => cases h
  | arrive | resume | snapshot | restore => trivial

/-- A relay whose logs keep all of their messages records each of them once. -/
theorem recorded_once (h : net.Traced relay A cache) (hkeeps : net.KeepsLogs n) :
    ((net.records n).map fun record => (record.envelope.room, record.envelope.id)).Nodup := by
  obtain ⟨events, hevents, hnode⟩ := h.reached n
  have hrelay := h.relays n
  unfold Network.KeepsLogs at hkeeps
  unfold Network.records
  rw [hrelay, hnode] at hkeeps
  rw [hnode]
  have hrooms : ∀ room, (((WritingSystem.after A (relay n).toRelay (cache n) events).history.filter
      fun e => e.room = room).map Envelope.id).Nodup := by
    intro room
    have hlog := newest_run (A := A) (R := (relay n).toRelay) (cache n) events hevents room
    unfold newestMessages at hlog
    rw [Nat.sub_eq_zero_of_le (hkeeps room), List.drop_zero] at hlog
    have hdistinct := ((follows_run (A := A) (R := (relay n).toRelay) (cache n) events).1.log
      room).distinct
    change ((logOf _ room).map Envelope.id).Nodup at hdistinct
    rw [hlog] at hdistinct
    exact hdistinct
  have hsuffix := (agrees_run (A := A) (cache n) (relay n).nodeId_valid fun event hevent =>
    normalised_of_restores (hevents event hevent)).service.suffix
  have hpairs := hsuffix.map fun e : Envelope => (e.room, e.id)
  rw [List.map_map, List.map_map] at hpairs
  exact (nodup_of_rooms hrooms).sublist hpairs.sublist

end NetworkLemmas

open NetworkLemmas

variable [DecidableEq N]

theorem traced_step (h : net.Traced relay A cache) (event : NetworkEvent N) :
    (net.step A event).Traced relay A cache := by
  cases event with
  | arrive n call batch =>
    refine traced_arrive h n call fun parcel hparcel => h.parcels parcel ?_
    obtain ⟨i, -, hget⟩ := List.mem_filterMap.mp hparcel
    exact List.mem_of_getElem? hget
  | resume n id env => exact traced_resume h n id env

theorem traced_after (A : Archive C) (relay : N → PeerRelay C) (cache : N → C)
    (events : List (NetworkEvent N)) :
    (Network.after A relay cache events).Traced relay A cache := by
  refine runFrom_invariant (I := Network.Traced relay A cache)
    (fun net event h => traced_step h event) events ?_
  refine ⟨fun _ => rfl, fun n => ⟨[], fun _ h => absurd h List.not_mem_nil, rfl⟩, fun n record h =>
    absurd h List.not_mem_nil, fun parcel h => absurd h List.not_mem_nil, ?_⟩
  rintro n id task entries ⟨⟩

/-- Whatever was published, pulled and pushed: each record of a relay is within its hops, its hop
count is the number of pushes by which its message came, and its origin is the relay that published
it. What came by a push has another origin than the relay itself. As long as the room logs of the
relay have dropped nothing, it has recorded each message once. -/
theorem copies_are_traced (A : Archive C) (relay : N → PeerRelay C) (cache : N → C)
    (events : List (NetworkEvent N)) (n : N) :
    let net := Network.after A relay cache events
    (∀ record ∈ net.records n,
      let t := net.travel n record.cursor
      record.hopCount < record.maxHops ∧ record.hopCount = t.transfers ∧
      record.origin = (relay t.publisher).config.relayNodeId ∧
      (t.transfers = 0 ↔ t.publisher = n) ∧
      (t.transfers ≠ 0 → record.origin ≠ (relay n).config.relayNodeId)) ∧
    (net.KeepsLogs n →
      ((net.records n).map fun record => (record.envelope.room, record.envelope.id)).Nodup) := by
  have htraced := traced_after A relay cache events
  refine ⟨fun record hrecord => ?_, recorded_once htraced⟩
  have hholds := htraced.holds n record hrecord
  refine ⟨hholds.sound.hopCount, hholds.hopCount, hholds.origin, ⟨hholds.own, fun hpublisher => ?_⟩,
    hholds.foreign⟩
  have horigin := hholds.origin
  rw [hpublisher] at horigin
  exact not_not.mp fun hne => hholds.foreign hne horigin

/-- A relay holds no message that the relay it names as the origin has not accepted: room, id,
sender, topic and signature are the same, and the payload is up to what JSON keeps of it. -/
theorem copies_are_published (A : Archive C) (relay : N → PeerRelay C) (cache : N → C)
    (events : List (NetworkEvent N)) (n : N) :
    let net := Network.after A relay cache events
    ∀ record ∈ net.records n, ∃ publisher, record.origin = (relay publisher).config.relayNodeId ∧
      ∃ e ∈ (net.node publisher).history, e.stored = record.envelope.stored := by
  intro net record hrecord
  have hholds := (traced_after A relay cache events).holds n record hrecord
  exact ⟨_, hholds.origin, List.mem_map.mp hholds.published⟩

end

/-! ## On the toy host -/

def toyPair (second : Bool) : PeerRelay Unit :=
  if second then .toy "relay-b" isValidNodeId_relayB 3 toyHops_pos
  else .toy "relay-a" isValidNodeId_relayA 3 toyHops_pos

/-- The first relay publishes a message, which a pull returns; then it is pushed to the second. -/
def toyTravel : List (NetworkEvent Bool) := [
  .arrive false (toyPublish "m1") [],
  .resume false 0 ⟨.at 0, freeText_uuid⟩,
  .resume false 0 ⟨.at 0, freeText_uuid⟩,
  .resume false 0 ⟨.at 0, freeText_uuid⟩,
  .arrive false ⟨⟨toyPull "0" "10", .at 0⟩, freeText_uuid⟩ [],
  .arrive true ⟨⟨toyPush [(exportEntry ⟨1, ⟨"main", "m1", "alice", "notify", .null, none⟩,
    "relay-a", 0, 3⟩).wire], .at 0⟩, freeText_uuid⟩ [0],
  .resume true 0 ⟨.at 0, freeText_uuid⟩]

example :
    let net := Network.after .toy toyPair (fun _ => ()) toyTravel
    (net.records true).map (fun record => (record.origin, record.hopCount,
      net.travel true record.cursor)) = [("relay-a", 1, ⟨false, 1⟩)] := by decide +kernel

end BitRelay
