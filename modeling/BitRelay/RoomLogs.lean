import BitRelay.Exchange.Records

/-!
# Room logs

What publishing keeps of a room log, whoever publishes: its ids are distinct, it
is within the cap, every message is labelled with the room it is stored under,
and every topic is valid. Distinctness rests on a check against the messages
that are still there; the oldest ones are dropped at the other end.

Results:
1. `RoomLog.push`, `RoomLog.newest`: an accepted message and a cut keep it.
2. `LogsSound.step`: so does every write into the log and the exchange.
3. `logsSound_serve`: so does every request.
-/

namespace BitRelay

/-! ## Definitions -/

/-- The log of a room. -/
structure RoomLog (maxMessagesPerRoom : Nat) (room : String) (messages : List Envelope) :
    Prop where
  distinct : (messages.map Envelope.id).Nodup
  capped : messages.length ≤ maxMessagesPerRoom
  labelled : ∀ e ∈ messages, e.room = room
  topics : ∀ e ∈ messages, isValidTopic e.topic = true

instance (maxMessagesPerRoom : Nat) (room : String) (messages : List Envelope) :
    Decidable (RoomLog maxMessagesPerRoom room messages) :=
  decidable_of_iff ((messages.map Envelope.id).Nodup ∧ messages.length ≤ maxMessagesPerRoom ∧
      (∀ e ∈ messages, e.room = room) ∧ ∀ e ∈ messages, isValidTopic e.topic = true)
    ⟨fun ⟨h, h', h'', h'''⟩ => ⟨h, h', h'', h'''⟩,
      fun ⟨h, h', h'', h'''⟩ => ⟨h, h', h'', h'''⟩⟩

/-- The exchange records: ascending cursors, none above the counter. -/
structure ExchangeLog (records : List CacheExchangeRecord) (cursor : Nat) : Prop where
  ascending : CursorLog.Ascending CacheExchangeRecord.cursor records
  cursor_le : ∀ record ∈ records, record.cursor ≤ cursor

section
variable {C : Type} (R : Relay C)

/-- Every log of the service. -/
structure LogsSound (s : ServiceState C) : Prop where
  rooms : ∀ room, RoomLog R.config.maxMessagesPerRoom room (s.roomOf room).messages
  exchange : ExchangeLog s.cacheExchangeRecords s.cacheExchangeCursor

variable {R} {maxMessagesPerRoom : Nat} {room : String} {messages : List Envelope} {e : Envelope}
  {s s' : ServiceState C} {w : Write}

/-! ## One log -/

theorem RoomLog.empty (maxMessagesPerRoom : Nat) (room : String) :
    RoomLog maxMessagesPerRoom room [] :=
  ⟨List.nodup_nil, Nat.zero_le _, fun _ h => absurd h List.not_mem_nil,
    fun _ h => absurd h List.not_mem_nil⟩

/-- A log that is good but for its cap is good when it is cut. -/
theorem RoomLog.newest (hdistinct : (messages.map Envelope.id).Nodup)
    (hlabelled : ∀ e ∈ messages, e.room = room)
    (htopics : ∀ e ∈ messages, isValidTopic e.topic = true) :
    RoomLog maxMessagesPerRoom room (messages.drop (messages.length - maxMessagesPerRoom)) := by
  refine ⟨hdistinct.sublist ((List.drop_sublist _ _).map _), ?_,
    fun e he => hlabelled e (List.mem_of_mem_drop he),
    fun e he => htopics e (List.mem_of_mem_drop he)⟩
  rw [List.length_drop]
  omega

theorem RoomLog.push (h : RoomLog maxMessagesPerRoom room messages)
    (hfresh : ∀ m ∈ messages, m.id ≠ e.id) (hroom : e.room = room)
    (htopic : isValidTopic e.topic = true) :
    RoomLog maxMessagesPerRoom room (pushMessage messages e maxMessagesPerRoom) := by
  refine RoomLog.newest ?_ (fun m hm => ?_) fun m hm => ?_
  · rw [List.map_append, List.nodup_append]
    refine ⟨h.distinct, List.nodup_singleton _, fun id hid id' hid' => ?_⟩
    obtain ⟨m, hm, rfl⟩ := List.mem_map.mp hid
    rw [List.mem_singleton.mp hid']
    exact hfresh m hm
  · rcases List.mem_append.mp hm with hm | hm
    · exact h.labelled m hm
    · rw [List.mem_singleton.mp hm]
      exact hroom
  · rcases List.mem_append.mp hm with hm | hm
    · exact h.topics m hm
    · rw [List.mem_singleton.mp hm]
      exact htopic

/-! ## All logs -/

theorem logsSound_init (cache : C) : LogsSound R (ServiceState.init cache) where
  rooms room := RoomLog.empty _ room
  exchange := ⟨⟨List.Pairwise.nil, fun _ h => absurd h List.not_mem_nil⟩,
    fun _ h => absurd h List.not_mem_nil⟩

theorem LogsSound.sameLog (h : LogsSound R s) (hsame : SameLog s s') : LogsSound R s' := by
  refine ⟨fun room => ?_, ?_⟩
  · rw [hsame.messages]
    exact h.rooms room
  · rw [hsame.records, hsame.cursor]
    exact h.exchange

theorem ExchangeLog.append {records : List CacheExchangeRecord} {cursor : Nat}
    (h : ExchangeLog records cursor) {record : CacheExchangeRecord}
    (hrecord : record.cursor = cursor + 1) (n : Nat) :
    ExchangeLog ((records ++ [record]).drop n) (cursor + 1) := by
  have hascending : CursorLog.Ascending CacheExchangeRecord.cursor (records ++ [record]) :=
    h.ascending.concat (by rw [hrecord]; exact Nat.succ_pos _) fun r hr => by
      rw [hrecord]
      exact Nat.lt_succ_of_le (h.cursor_le r hr)
  refine ⟨⟨hascending.sorted.sublist (List.drop_sublist _ _),
    fun r hr => hascending.pos r (List.mem_of_mem_drop hr)⟩, fun r hr => ?_⟩
  rcases List.mem_append.mp (List.mem_of_mem_drop hr) with hold | hnew
  · exact Nat.le_succ_of_le (h.cursor_le r hold)
  · rw [List.mem_singleton.mp hnew, hrecord]

theorem LogsSound.appended (h : LogsSound R s) (happended : Appended R w s s') :
    LogsSound R s' := by
  refine ⟨fun room => ?_, ?_⟩
  · by_cases hroom : room = w.room
    · subst hroom
      rw [happended.messages]
      exact (h.rooms w.room).push (fun m hm hid => happended.fresh ⟨m, hm, hid⟩) rfl
        happended.topic
    · rw [happended.others room hroom]
      exact h.rooms room
  · rw [happended.records, happended.cursor]
    exact h.exchange.append rfl _

theorem LogsSound.step {W : Write → Prop} (h : LogsSound R s) (hstep : LogStep R W s s') :
    LogsSound R s' := by
  cases hstep with
  | same hsame => exact h.sameLog hsame
  | appended w _ happended => exact h.appended happended

/-- Whatever changes the state, the logs stay or a message is appended. -/
theorem Change.logStep {A : Allowed C} (h : Change R A s s') :
    LogStep R (fun _ => True) s s' := by
  cases h with
  | room room roomState hlog => exact .same (.of_messages hlog)
  | publish room sender topic id signature payload origin hopCount maxHops _ =>
    exact logStep_write (w := ⟨room, sender, topic, id, signature, payload, origin, hopCount,
      maxHops⟩) trivial s
  | annotateKey sender f _ =>
    unfold ServiceState.updateKey
    split <;> exact .same ⟨fun _ => rfl, rfl, rfl⟩
  | rekey sender f _ =>
    unfold ServiceState.updateKey
    split <;> exact .same ⟨fun _ => rfl, rfl, rfl⟩
  | rates | issueSync | cache | prune | bindKey | remember =>
    exact .same ⟨fun _ => rfl, rfl, rfl⟩

/-- Every request keeps the logs in order. -/
theorem logsSound_serve (request : Request) (env : Env) (h : LogsSound R s) :
    LogsSound R (serve R request env s).2 :=
  serve_keeps (I := LogsSound R) (fun _ _ hchange hs => hs.step hchange.logStep) request env h

end

end BitRelay
