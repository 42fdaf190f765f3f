import BitRelay.Js.Numerals
import BitRelay.RoomLogs
import BitRelay.Snapshot.Service

/-!
# Restoring a snapshot that nobody checked

`restore` accepts any JSON value and looks at each field on its own. What the
later requests rely on holds of several fields together: that the ids of a log
are distinct, that its messages belong to their room, that cursors ascend. The
records of the exchange have their rooms and topics checked when they are read;
the messages of the rooms have not.

Results:
1. `roomLog_restoreMessages_iff`, `exchangeLog_restoreRecords_iff`: what a part
   of a snapshot has to be like.
2. `restored_logs_sound_iff`: the logs are sound after a restore and after every
   sequence of requests within the exact cursors, exactly when the snapshot is sound.
3. `damaged_logs`: a snapshot that is not.
-/

namespace BitRelay

/-! ## Sound snapshots -/

/-- The newest `n` of the items that satisfy `p`. -/
def newestKept (n : Nat) (p : JsonValue → Prop) [DecidablePred p] (items : List JsonValue) :
    List JsonValue :=
  let kept := items.filter fun item => p item
  kept.drop (kept.length - n)

/-- The messages of a room, as later requests rely on them. -/
structure SoundMessages (maxMessagesPerRoom : Nat) (room : String) (messages : List JsonValue) :
    Prop where
  distinct : ((newestKept maxMessagesPerRoom KeepsMessage messages).map
    (JsonValue.strField · "id")).Nodup
  labelled : ∀ m ∈ newestKept maxMessagesPerRoom KeepsMessage messages, ∀ label,
    m.get? "room" = some (.str label) → label = room
  topics : ∀ m ∈ newestKept maxMessagesPerRoom KeepsMessage messages,
    isValidTopic (m.strField "topic") = true

/-- The cursors of the records ascend. -/
def SoundRecords (cacheExchangeMaxRecords : Nat) (records : List JsonValue) : Prop :=
  (newestKept cacheExchangeMaxRecords KeepsRecord records).Pairwise fun r r' =>
    (r.truncField? "cursor").getD 0 < (r'.truncField? "cursor").getD 0

/-- Every part of the snapshot that is not skipped is sound. -/
structure SoundSnapshot {C : Type} (R : Relay C) (v : JsonValue) : Prop where
  rooms : ∀ e ∈ JsonValue.entries (v.get? "rooms"), isValidRoomName e.1 = true →
    (e.2.objField? "acks_by_consumer").isSome = true →
    ∀ messages, e.2.arrField? "messages" = some messages →
      SoundMessages R.config.maxMessagesPerRoom e.1 messages
  exchange : ∀ cacheExchange records, v.objField? "cache_exchange" = some cacheExchange →
    cacheExchange.arrField? "records" = some records →
      SoundRecords R.config.cacheExchangeMaxRecords records

/-! ## Cursors in doubles -/

/-- The counter behind `n - before` steps of doubles from `before` on. -/
def doubleCursor (before n : Nat) : Nat :=
  if n ≤ before then n else incDouble^[n - before] before

/-- How many messages a request can write: a push one for each of its entries. -/
def Call.writes (call : Call) : Nat :=
  if call.request.pathname = Endpoint.cacheExchangePush.path then
    ((call.request.body.json.bind (·.arrField? "entries")).getD []).length
  else if isWriterPath call.request.pathname then 1 else 0

section
variable {C : Type} (R : Relay C)

def ServiceState.countInDoubles (before : Nat) (s : ServiceState C) : ServiceState C :=
  { s with
    cacheExchangeRecords := s.cacheExchangeRecords.map fun record =>
      { record with cursor := doubleCursor before record.cursor }
    cacheExchangeCursor := doubleCursor before s.cacheExchangeCursor }

/-- A request, with `cacheExchangeCursor += 1` as doubles are added. No handler looks at the
cursors of the records that it appends. -/
def serveInDoubles (s : ServiceState C) (call : Call) : ServiceState C :=
  (serveCall R s call).countInDoubles s.cacheExchangeCursor

/-- The counter has room for what the request can write, as far as doubles count by one. -/
def CountsExactly (s : ServiceState C) (call : Call) : Prop :=
  call.writes = 0 ∨ s.cacheExchangeCursor + call.writes ≤ MAX_EXACT_INTEGER

end

/-! ## The parts -/

namespace HandEditedLemmas

/-- A part is cut before or after it is read. -/
theorem drop_map_newest {α : Type} (n : Nat) (p : JsonValue → Prop) [DecidablePred p]
    (f : JsonValue → α) (items : List JsonValue) :
    ((items.filter fun item => p item).map f).drop
        (((items.filter fun item => p item).map f).length - n) =
      (newestKept n p items).map f := by
  simp only [newestKept, List.length_map, List.map_drop]

theorem restoreMessages_eq (room : String) (messages : List JsonValue) (maxMessagesPerRoom : Nat) :
    restoreMessages room messages maxMessagesPerRoom =
      (newestKept maxMessagesPerRoom KeepsMessage messages).map (readMessage room) :=
  drop_map_newest _ _ _ _

theorem length_newestKept_le (n : Nat) (p : JsonValue → Prop) [DecidablePred p]
    (items : List JsonValue) : (newestKept n p items).length ≤ n := by
  simp only [newestKept, List.length_drop]
  omega

theorem of_mem_newestKept {n : Nat} {p : JsonValue → Prop} [DecidablePred p]
    {items : List JsonValue} {item : JsonValue} (h : item ∈ newestKept n p items) : p item := by
  have hmem := List.mem_of_mem_drop h
  exact of_decide_eq_true (List.mem_filter.mp hmem).2

theorem readMessage_room_iff {room : String} {m : JsonValue} :
    (readMessage room m).room = room ↔ ∀ label, m.get? "room" = some (.str label) → label = room := by
  unfold readMessage
  simp only
  split
  · next label hlabel =>
    constructor
    · intro h other hother
      rw [hlabel] at hother
      cases hother
      exact h
    · exact fun h => h label hlabel
  · next hnone =>
    exact ⟨fun _ label hlabel => absurd hlabel (hnone label), fun _ => rfl⟩

end HandEditedLemmas

open HandEditedLemmas

theorem roomLog_restoreMessages_iff {maxMessagesPerRoom : Nat} {room : String}
    {messages : List JsonValue} :
    RoomLog maxMessagesPerRoom room (restoreMessages room messages maxMessagesPerRoom) ↔
      SoundMessages maxMessagesPerRoom room messages := by
  have hids : ((newestKept maxMessagesPerRoom KeepsMessage messages).map (readMessage room)).map
        Envelope.id =
      (newestKept maxMessagesPerRoom KeepsMessage messages).map (JsonValue.strField · "id") := by
    rw [List.map_map]
    rfl
  rw [restoreMessages_eq]
  constructor
  · rintro ⟨hdistinct, -, hlabelled, htopics⟩
    refine ⟨hids ▸ hdistinct, fun m hm => ?_, fun m hm => ?_⟩
    · exact readMessage_room_iff.mp (hlabelled _ (List.mem_map_of_mem hm))
    · exact htopics _ (List.mem_map_of_mem hm)
  · rintro ⟨hdistinct, hlabelled, htopics⟩
    refine ⟨hids ▸ hdistinct, ?_, fun e he => ?_, fun e he => ?_⟩
    · rw [List.length_map]
      exact length_newestKept_le _ _ _
    · obtain ⟨m, hm, rfl⟩ := List.mem_map.mp he
      exact readMessage_room_iff.mpr (hlabelled m hm)
    · obtain ⟨m, hm, rfl⟩ := List.mem_map.mp he
      exact htopics m hm

theorem exchangeLog_restoreRecords_iff {C : Type} {R : Relay C} {cacheExchange : JsonValue}
    {records : List JsonValue} :
    ExchangeLog (restoreRecords R cacheExchange records).1
        (restoreRecords R cacheExchange records).2 ↔
      SoundRecords R.config.cacheExchangeMaxRecords records := by
  have hrecords : (restoreRecords R cacheExchange records).1 =
      (newestKept R.config.cacheExchangeMaxRecords KeepsRecord records).map (readRecord R) :=
    drop_map_newest _ _ _ _
  have hpos : ∀ r ∈ newestKept R.config.cacheExchangeMaxRecords KeepsRecord records,
      0 < (r.truncField? "cursor").getD 0 := fun r hr => (of_mem_newestKept hr).2.1
  have hmax : ∀ (l : List Nat) (n k : Nat), k ≤ n ∨ k ∈ l → k ≤ l.foldl max n := by
    intro l
    induction l with
    | nil => exact fun n k h => h.elim id fun h => absurd h List.not_mem_nil
    | cons x rest ih =>
      intro n k h
      refine ih (max n x) k ?_
      rcases h with h | h
      · exact .inl (h.trans (Nat.le_max_left n x))
      · rcases List.mem_cons.mp h with rfl | h
        · exact .inl (Nat.le_max_right n k)
        · exact .inr h
  constructor
  · rintro ⟨⟨hsorted, -⟩, -⟩
    rw [hrecords, List.pairwise_map] at hsorted
    refine hsorted.imp_of_mem fun {r r'} hr hr' hlt => ?_
    have h := hpos r hr
    have h' := hpos r' hr'
    change ((r.truncField? "cursor").getD 0).toNat < ((r'.truncField? "cursor").getD 0).toNat at hlt
    omega
  · intro hsound
    refine ⟨⟨?_, fun record hrecord => ?_⟩, fun record hrecord => ?_⟩
    · rw [hrecords, List.pairwise_map]
      refine hsound.imp_of_mem fun {r r'} hr hr' hlt => ?_
      have h := hpos r hr
      have h' := hpos r' hr'
      show ((r.truncField? "cursor").getD 0).toNat < ((r'.truncField? "cursor").getD 0).toNat
      omega
    · rw [hrecords] at hrecord
      obtain ⟨r, hr, rfl⟩ := List.mem_map.mp hrecord
      have h := hpos r hr
      show 0 < ((r.truncField? "cursor").getD 0).toNat
      omega
    · -- The counter is at least the largest cursor that was read, kept or not.
      have hmem := List.mem_of_mem_drop hrecord
      exact (hmax _ 0 _ (.inr (List.mem_map_of_mem hmem))).trans (Nat.le_max_right _ _)

/-! ## The service -/

section
variable {C : Type} {R : Relay C} {A : Archive C}

open RestoreLemmas

namespace HandEditedLemmas

theorem exchangeLog_recordRooms {s : ServiceState C}
    (h : ExchangeLog s.cacheExchangeRecords s.cacheExchangeCursor) :
    ExchangeLog (s.recordRooms R).cacheExchangeRecords (s.recordRooms R).cacheExchangeCursor := by
  unfold ServiceState.recordRooms
  generalize s.rooms.values.flatMap RoomState.messages = messages
  induction messages generalizing s with
  | nil => exact h
  | cons e rest ih => exact ih (h.append rfl _)

/-- The exchange log after a restore. -/
theorem exchangeLog_restore {nowMs : Nat} {v : JsonValue} {s : ServiceState C}
    (h : ∀ cacheExchange records, v.objField? "cache_exchange" = some cacheExchange →
      cacheExchange.arrField? "records" = some records →
        SoundRecords R.config.cacheExchangeMaxRecords records) :
    ExchangeLog (s.restore R A nowMs v).cacheExchangeRecords
      (s.restore R A nowMs v).cacheExchangeCursor := by
  unfold ServiceState.restore
  simp only
  split
  · next records cursor hexchange =>
    obtain ⟨cacheExchange, hobject, hrecords⟩ := Option.bind_eq_some_iff.mp hexchange
    obtain ⟨values, harray, heq⟩ := Option.map_eq_some_iff.mp hrecords
    have hlog : ExchangeLog (restoreRecords R cacheExchange values).1
        (restoreRecords R cacheExchange values).2 :=
      exchangeLog_restoreRecords_iff.mpr (h cacheExchange values hobject harray)
    rw [heq] at hlog
    exact hlog
  · exact exchangeLog_recordRooms (logsSound_init (R := R) s.cache).exchange

theorem logsSound_restore {nowMs : Nat} {v : JsonValue} {s : ServiceState C}
    (h : SoundSnapshot R v) : LogsSound R (s.restore R A nowMs v) := by
  refine ⟨fun room => ?_, ?_⟩
  · unfold ServiceState.roomOf OrdMap.getD
    rw [restore_rooms]
    cases hget : (restoreRooms R (nowEpochSec nowMs) (v.get? "rooms")).get? room with
    | none => exact RoomLog.empty _ room
    | some roomState =>
      obtain ⟨e, he, hrestored⟩ := List.mem_filterMap.mp (OrdMap.mem_of_get?_ofList hget)
      have hname : room = e.1 := restoreRoom_name hrestored
      obtain ⟨hvalid, hacks, messages, hmessages, hlog⟩ := restoreRoom_messages hrestored
      change RoomLog _ room roomState.messages
      change roomState.messages = _ at hlog
      rw [hlog, hname]
      exact roomLog_restoreMessages_iff.mpr (h.rooms e he hvalid hacks messages hmessages)
  · exact exchangeLog_restore h.exchange

theorem soundSnapshot_of_logsSound {nowMs : Nat} {v : JsonValue} {s : ServiceState C}
    (hkeys : ((JsonValue.entries (v.get? "rooms")).map Prod.fst).Nodup)
    (h : LogsSound R (s.restore R A nowMs v)) : SoundSnapshot R v := by
  refine ⟨fun e he hvalid hacks messages hmessages => ?_,
    fun cacheExchange records hobject harray => ?_⟩
  · have hroom : ∃ roomState, restoreRoom R.config.maxMessagesPerRoom R.config.presenceTtlSec
        (nowEpochSec nowMs) e = some (e.1, roomState) ∧
        roomState.messages = restoreMessages e.1 messages R.config.maxMessagesPerRoom := by
      unfold restoreRoom
      simp only [hmessages]
      rw [if_pos ⟨hvalid, hacks⟩]
      exact ⟨_, rfl, rfl⟩
    obtain ⟨roomState, hrestored, hlog⟩ := hroom
    have hget : (s.restore R A nowMs v).rooms.get? e.1 = some roomState := by
      rw [restore_rooms]
      exact OrdMap.get?_ofList_of_mem (nodup_restoreRooms hkeys)
        (List.mem_filterMap.mpr ⟨e, he, hrestored⟩)
    have hsound := h.rooms e.1
    unfold ServiceState.roomOf OrdMap.getD at hsound
    rw [hget, Option.getD_some, hlog] at hsound
    exact roomLog_restoreMessages_iff.mp hsound
  · have hexchange := h.exchange
    unfold ServiceState.restore at hexchange
    simp only [hobject, Option.bind_some, harray, Option.map_some] at hexchange
    exact exchangeLog_restoreRecords_iff.mp hexchange

/-- A computation that moves the counter by `n` at most. -/
def MovesBy {α : Type} (n : Nat) (x : Handler C α) : Prop :=
  ∀ s, (x.run s).2.cacheExchangeCursor ≤ s.cacheExchangeCursor + n

theorem MovesBy.bind {α β : Type} {x : Handler C α} {f : α → Handler C β} {m n : Nat}
    (hx : MovesBy m x) (hf : ∀ a s s', x.run s = (.ok a, s') → MovesBy n (f a)) :
    MovesBy (m + n) (x >>= f) := by
  intro s
  have h := hx s
  rw [Proc.run_bind]
  match hrun : x.run s with
  | (.ok a, s') =>
    rw [hrun] at h
    have h' := hf a s s' hrun s'
    calc (((f a).run s').2).cacheExchangeCursor ≤ s'.cacheExchangeCursor + n := h'
      _ ≤ s.cacheExchangeCursor + m + n := Nat.add_le_add_right h n
      _ = s.cacheExchangeCursor + (m + n) := Nat.add_assoc _ _ _
  | (.error e, s') =>
    rw [hrun] at h
    exact h.trans (Nat.add_le_add_left (Nat.le_add_right m n) _)

theorem movesBy_of_silent {α : Type} {x : Handler C α} (h : Silent x) (n : Nat) : MovesBy n x := by
  intro s
  rw [(h s).cursor]
  exact Nat.le_add_right _ n

theorem movesBy_of_once {α : Type} {W : Write → Prop} {x : Handler C α}
    (h : WritesOnce R W x) : MovesBy 1 x := by
  intro s
  cases h s with
  | same hsame =>
    rw [hsame.cursor]
    exact Nat.le_succ _
  | appended w _ happended => exact happended.cursor.le

theorem movesBy_pushEntries (request : Request) (entries : List JsonValue) (i : Nat)
    (counts : PushCounts) : MovesBy entries.length (pushEntries R request entries i counts) := by
  induction entries generalizing i counts with
  | nil => exact fun s => Nat.le_refl _
  | cons value rest ih =>
    rw [List.length_cons, Nat.add_comm]
    exact MovesBy.bind (movesBy_of_once (once_pushEntry request i value counts)) fun counts _ _ _ =>
      ih (i + 1) counts

theorem movesBy_after {α β : Type} {x : Handler C α} {f : α → Handler C β} {n : Nat}
    (hx : Silent x) (hf : ∀ a s s', x.run s = (.ok a, s') → MovesBy n (f a)) :
    MovesBy n (x >>= f) :=
  Nat.zero_add n ▸ (movesBy_of_silent hx 0).bind hf

theorem movesBy_push (request : Request) :
    MovesBy ((request.body.json.bind (·.arrField? "entries")).getD []).length
      (handleCacheExchangePush R request) := by
  refine movesBy_after (silent_of_leads (leads_requireMethod R _ _)) fun _ _ _ _ =>
    movesBy_after (silent_of_same (Proc.Leads.failWith _)) fun _ _ _ _ =>
      movesBy_after (silent_of_leads (leads_requireObject R _)) fun parsed s s' hparsed =>
        movesBy_after (silent_of_same (Proc.Leads.ofExcept _)) fun entries s₁ s₁' hentries => ?_
  have hlist : (request.body.json.bind (·.arrField? "entries")).getD [] = entries := by
    have hjson : request.body.json = some parsed := by
      unfold requireObject at hparsed
      split at hparsed
      · next fields hjson =>
        cases hparsed
        exact hjson
      · cases hparsed
    obtain ⟨hread, -⟩ := Proc.ofExcept_ok hentries
    rw [hjson, Option.bind_some]
    cases harray : parsed.arrField? "entries" with
    | none =>
      rw [harray] at hread
      cases hread
    | some list =>
      rw [harray] at hread
      cases hread
      rfl
  rw [hlist]
  exact MovesBy.bind (n := 0) (movesBy_pushEntries request entries 0 .zero) fun counts _ _ _ =>
    movesBy_of_silent ((silent_of_same (Proc.Leads.gets _)).bind fun _ => silent_pure _) 0

theorem movesBy_call (call : Call) : MovesBy call.writes (fetch R call.request call.env) := by
  unfold Call.writes
  split
  · next hpath =>
    unfold fetch
    rw [hpath, show Endpoint.ofPath Endpoint.cacheExchangePush.path = some .cacheExchangePush from rfl]
    split
    · exact movesBy_of_silent (silent_pure _) _
    split
    · exact movesBy_of_silent (silent_pure _) _
    exact movesBy_after (silent_of_same (Proc.Leads.failWith _)) fun _ _ _ _ =>
      movesBy_push call.request
  · next hpath =>
    split
    · exact movesBy_of_once (once_call call hpath)
    · next hreader => exact movesBy_of_silent (silent_fetch call (Bool.eq_false_of_not_eq_true hreader)) 0

theorem cursor_serveCall_le (s : ServiceState C) (call : Call) :
    (serveCall R s call).cacheExchangeCursor ≤ s.cacheExchangeCursor + call.writes := by
  have h := movesBy_call (R := R) call s
  unfold serveCall serve Handler.serve
  match hrun : (fetch R call.request call.env).run s with
  | (.ok response, s') =>
    rw [hrun] at h
    exact h
  | (.error response, s') =>
    rw [hrun] at h
    exact h

theorem iterate_incDouble {n k : Nat} (h : n + k ≤ MAX_EXACT_INTEGER) :
    incDouble^[k] n = n + k := by
  induction k generalizing n with
  | zero => rfl
  | succ k ih =>
    rw [Function.iterate_succ_apply, incDouble_of_lt (by omega), ih (by omega)]
    omega

/-- Up to the exact integers doubles are counted as whole numbers are. -/
theorem doubleCursor_exact {before n : Nat} (h : n ≤ max before MAX_EXACT_INTEGER) :
    doubleCursor before n = n := by
  unfold doubleCursor
  split
  · rfl
  · next hlt =>
    rw [iterate_incDouble] <;> omega

theorem logsSound_serveInDoubles {s : ServiceState C} {call : Call} (hs : LogsSound R s)
    (h : CountsExactly s call) : LogsSound R (serveInDoubles R s call) := by
  have hnext : LogsSound R (serveCall R s call) := logsSound_serve call.request call.env hs
  have hcount : (serveCall R s call).cacheExchangeCursor ≤
      max s.cacheExchangeCursor MAX_EXACT_INTEGER := by
    have hmoved := cursor_serveCall_le (R := R) s call
    rcases h with h | h
    · rw [h] at hmoved
      exact hmoved.trans (Nat.le_max_left _ _)
    · exact (hmoved.trans h).trans (Nat.le_max_right _ _)
  have hrecords : (serveCall R s call).cacheExchangeRecords.map (fun record =>
      { record with cursor := doubleCursor s.cacheExchangeCursor record.cursor }) =
        (serveCall R s call).cacheExchangeRecords := by
    refine (List.map_congr_left fun record hrecord => ?_).trans (List.map_id _)
    rw [doubleCursor_exact ((hnext.exchange.cursor_le record hrecord).trans hcount)]
    rfl
  have hsame : serveInDoubles R s call = serveCall R s call := by
    unfold serveInDoubles ServiceState.countInDoubles
    rw [hrecords, doubleCursor_exact hcount]
  rw [hsame]
  exact hnext

end HandEditedLemmas

/-- The logs are sound after a restore of `v`, and after every sequence of requests behind it that
finds room below the exact cursors, exactly when `v` is a sound snapshot. The keys of an object
are distinct. -/
theorem restored_logs_sound_iff {v : JsonValue}
    (hkeys : ((JsonValue.entries (v.get? "rooms")).map Prod.fst).Nodup) (nowMs : Nat)
    (s : ServiceState C) :
    (∀ calls, Along (serveInDoubles R) CountsExactly (s.restore R A nowMs v) calls →
      LogsSound R (runFrom (serveInDoubles R) (s.restore R A nowMs v) calls)) ↔
      SoundSnapshot R v := by
  constructor
  · exact fun h => soundSnapshot_of_logsSound hkeys (h [] trivial)
  · exact fun h calls hcalls => hcalls.invariant (I := LogsSound R)
      (fun _ _ hexact hs => logsSound_serveInDoubles hs hexact) (logsSound_restore h)

end

/-! ## On the toy host -/

theorem restored_logs_sound_iff_null :
    (∀ calls, Along (serveInDoubles (.toy .default)) CountsExactly
        ((ServiceState.init ()).restore (.toy .default) .toy 0 .null) calls →
      LogsSound (.toy .default) (runFrom (serveInDoubles (.toy .default))
        ((ServiceState.init ()).restore (.toy .default) .toy 0 .null) calls)) ↔
      SoundSnapshot (.toy .default) .null :=
  restored_logs_sound_iff (R := .toy .default) (A := .toy) (v := .null) List.nodup_nil 0 (.init ())

/-- A snapshot with one room `main`. -/
def roomSnapshot (messages : List JsonValue) : JsonValue := .obj [("rooms", .obj [("main", .obj [
  ("messages", .arr messages), ("acks_by_consumer", .obj [])])])]

def messageWith (id topic : String) : JsonValue :=
  .obj [("id", .str id), ("sender", .str "alice"), ("topic", .str topic)]

/-- A snapshot without records whose counter is where doubles stop to count by one. -/
def exhaustedSnapshot : JsonValue := .obj [("rooms", .obj []),
  ("cache_exchange", .obj [("cursor", .ofNat MAX_EXACT_INTEGER), ("records", .arr [])])]

def callbackCall (id : String) : Call where
  request := .post "/api/v1/trigger/callback" [] [] ⟨"",
    some (.obj [("ref", .str "x"), ("status", .str "ok"), ("id", .str id)])⟩
  env := .at 0

/-- Two messages with one id, a message whose topic no request could have used, and two records
under one cursor behind a restore that has spent the counter. -/
theorem damaged_logs :
    ¬ LogsSound (.toy .default) ((ServiceState.init ()).restore (.toy .default) .toy 0
      (roomSnapshot [messageWith "m1" "notify", messageWith "m1" "notify"])) ∧
    ¬ LogsSound (.toy .default) ((ServiceState.init ()).restore (.toy .default) .toy 0
      (roomSnapshot [messageWith "m1" "no topic"])) ∧
    ¬ LogsSound (.toy .default) (runFrom (serveInDoubles (.toy .default))
      ((ServiceState.init ()).restore (.toy .default) .toy 0 exhaustedSnapshot)
        [callbackCall "c1", callbackCall "c2"]) := by
  refine ⟨fun h => ?_, fun h => ?_, fun h => ?_⟩
  · exact absurd (h.rooms "main").distinct (by decide +kernel)
  · exact absurd (h.rooms "main").topics (by decide +kernel)
  · have hrecords := h.exchange.ascending.sorted
    revert hrecords
    decide +kernel

end BitRelay
