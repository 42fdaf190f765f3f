import BitRelay.CanonicalJson
import BitRelay.Exchange.TokenGates
import BitRelay.Lib.Shards
import BitRelay.Snapshot.Rooms
import BitRelay.WorkerRouting

/-!
# A push that the worker takes apart

A push without a room in its query is taken apart by the rooms of its entries. Each object
gets its own entries, written as JSON once more, and the worker adds up the answers. An
entry only meets the log of its own room, so the parts together do what the whole push does at a
single service with all rooms.

The payloads of the parts were written and read once more, so logs are compared up to what
`JSON.stringify` keeps.

Results:
1. `run_pushEntries`: a push is a batch over the logs, split by room.
2. `split_push_agrees`: the counts and the logs of the split push are those of the whole.
-/

namespace BitRelay

/-! ## One entry -/

/-- What a push does with an entry. -/
inductive EntryOutcome
  | rejected (reason : CacheExchangeRejectionReason)
  | collided (collision : CacheExchangeCollision)
  | accepted
  deriving DecidableEq

section
variable {C : Type} (R : Relay C)

/-- The body of the loop, on the log of the room of the entry. -/
def entryStep (incoming : IncomingExchangeEntry) (messages : List Envelope) :
    EntryOutcome × List Envelope :=
  match refusesEntry R incoming with
  | some reason => (.rejected reason, messages)
  | none =>
    match messages.find? fun e => e.id == incoming.id with
    | some existing =>
      (.collided (classifyCacheExchangeCollision R.platform existing incoming.envelope), messages)
    | none =>
      (.accepted, pushMessage messages incoming.write.envelope R.config.maxMessagesPerRoom)

def PushCounts.tally (counts : PushCounts) : EntryOutcome → PushCounts
  | .rejected reason => counts.reject reason
  | .collided collision => counts.collide collision
  | .accepted => { counts with accepted := counts.accepted + 1 }

def EntryOutcome.isRejected : EntryOutcome → Bool
  | rejected _ => true
  | collided _ | accepted => false

def ServiceState.logs (s : ServiceState C) : String → List Envelope :=
  fun room => (s.roomOf room).messages

/-- The logs as JSON text keeps them. -/
def ServiceState.storedLogs (s : ServiceState C) : String → List Envelope :=
  fun room => (s.roomOf room).messages.map Envelope.stored

/-- An entry as JSON text keeps it. -/
def IncomingExchangeEntry.stored (incoming : IncomingExchangeEntry) : IncomingExchangeEntry :=
  { incoming with payload := incoming.payload.normalize }

/-- The entries that can be read, as JSON text keeps them. -/
def readEntries (entries : List JsonValue) : List IncomingExchangeEntry :=
  entries.filterMap fun value =>
    (parseIncomingCacheExchangeEntry value R.config.cacheExchangeMaxHops).toOption.map
      IncomingExchangeEntry.stored

variable {R} {request : Request} {value : JsonValue} {incoming : IncomingExchangeEntry}
  {counts : PushCounts} {s s' : ServiceState C} {messages : List Envelope}

namespace SplitLemmas

theorem logs_of_sameLog (h : SameLog s s') : s'.logs = s.logs := funext h.messages

theorem logs_of_appended {w : Write} (h : Appended R w s s') :
    s'.logs = Function.update s.logs w.room
      (pushMessage (s.logs w.room) w.envelope R.config.maxMessagesPerRoom) := by
  funext room
  rcases Decidable.em (room = w.room) with heq | hne
  · subst heq
    rw [Function.update_self]
    exact h.messages
  · rw [Function.update_of_ne hne]
    exact h.others room hne

theorem run_import (hnone : refusesEntry R incoming = none) (counts : PushCounts)
    (s : ServiceState C) :
    ∃ s', (importEntry R incoming counts).run s =
        (.ok (counts.tally (entryStep R incoming (s.logs incoming.room)).1), s') ∧
      s'.logs = Function.update s.logs incoming.room
        (entryStep R incoming (s.logs incoming.room)).2 := by
  have htopic : isValidTopic incoming.topic = true :=
    (RecordLemmas.refusesEntryName_eq_none_iff.mp (Option.or_eq_none_iff.mp hnone).1).2
  have hopen : SameLog s (s.openRoom incoming.room) := .of_messages rfl
  unfold entryStep importEntry
  rw [hnone, Proc.run_bind, Proc.run_update]
  dsimp only
  have hfind : findEnvelopeById (s.roomOf incoming.room) incoming.id =
    (s.logs incoming.room).find? fun e => e.id == incoming.id := rfl
  cases hfound : (s.logs incoming.room).find? fun e => e.id == incoming.id with
  | some existing =>
    rw [hfind, hfound]
    exact ⟨_, rfl, (logs_of_sameLog hopen).trans (Function.update_eq_self _ _).symm⟩
  | none =>
    rw [hfind, hfound]
    have hfresh : ¬ (s.openRoom incoming.room).Holds incoming.room incoming.id := by
      rintro ⟨e, he, hid⟩
      rw [hopen.messages] at he
      exact absurd (beq_iff_eq.mpr hid) (List.find?_eq_none.mp hfound e he)
    rcases write_cases R incoming.write (s.openRoom incoming.room) with
      ⟨hbad, -, -⟩ | ⟨-, hholds, -, -⟩ | ⟨cursor, hresult, happended⟩
    · exact absurd (hbad.symm.trans htopic) Bool.false_ne_true
    · exact absurd hholds hfresh
    · refine ⟨((s.openRoom incoming.room).write R incoming.write).2.persistResult R
        ((s.openRoom incoming.room).write R incoming.write).1, ?_, ?_⟩
      · have hcount : counts.record ((s.openRoom incoming.room).write R incoming.write).1 =
            counts.tally .accepted := by
          rw [hresult]
          rfl
        show (Except.ok (counts.record ((s.openRoom incoming.room).write R incoming.write).1), _) = _
        rw [hcount]
        rfl
      · rw [logs_of_sameLog (persistResult_sameLog _ _), logs_of_appended happended,
          logs_of_sameLog hopen]
        rfl

/-- An entry that is not barred, as a step on the log of its room. -/
theorem run_pushEntry
    (hread : parseIncomingCacheExchangeEntry value R.config.cacheExchangeMaxHops = .ok incoming)
    (hopen : ¬ Barred R request incoming) (i : Nat) (counts : PushCounts) (s : ServiceState C) :
    ∃ s', (pushEntry R request i value counts).run s =
        (.ok (counts.tally (entryStep R incoming (s.logs incoming.room)).1), s') ∧
      s'.logs = Function.update s.logs incoming.room
        (entryStep R incoming (s.logs incoming.room)).2 := by
  have hrejected : ∀ reason, refusesEntry R incoming = some reason →
      entryStep R incoming (s.logs incoming.room) = (.rejected reason, s.logs incoming.room) := by
    intro reason hreason
    unfold entryStep
    rw [hreason]
  simp only [pushEntry, hread, Except.mapError, Proc.ofExcept, pure_bind]
  cases hname : refusesEntryName incoming with
  | some reason =>
    have hstep := hrejected reason (by unfold refusesEntry; rw [hname]; rfl)
    rw [hstep]
    exact ⟨s, rfl, (Function.update_eq_self _ _).symm⟩
  | none =>
    have htoken : checkRoomToken R request incoming.room = none := by
      by_contra htoken
      exact hopen ⟨hname, htoken⟩
    rw [htoken]
    cases hhops : refusesEntryHops R incoming with
    | some reason =>
      have hstep := hrejected reason (by unfold refusesEntry; rw [hname, hhops]; rfl)
      rw [hstep]
      exact ⟨s, rfl, (Function.update_eq_self _ _).symm⟩
    | none => exact run_import (by unfold refusesEntry; rw [hname, hhops]; rfl) counts s

/-! ### What JSON text keeps -/

theorem classify_stored
    (hzero : R.platform.renderNumber .negZero = R.platform.renderNumber (.finite 0))
    (existing incoming : Envelope) :
    classifyCacheExchangeCollision R.platform existing.stored incoming.stored =
      classifyCacheExchangeCollision R.platform existing incoming := by
  have hcanonical : ∀ e : Envelope, envelopeCanonicalSignature R.platform e.stored =
      envelopeCanonicalSignature R.platform e := by
    intro e
    unfold envelopeCanonicalSignature Envelope.stored
    rw [canonicalizeJson_normalize hzero]
  unfold classifyCacheExchangeCollision
  rw [hcanonical, hcanonical]

theorem pushMessage_stored (messages : List Envelope) (e : Envelope) (maxMessagesPerRoom : Nat) :
    pushMessage (messages.map Envelope.stored) e.stored maxMessagesPerRoom =
      (pushMessage messages e maxMessagesPerRoom).map Envelope.stored := by
  unfold pushMessage
  simp only [List.map_drop, List.map_append, List.length_append, List.length_map, List.map_cons,
    List.map_nil]
  rfl

/-- The step does the same with what JSON text keeps. -/
theorem entryStep_stored
    (hzero : R.platform.renderNumber .negZero = R.platform.renderNumber (.finite 0))
    (incoming : IncomingExchangeEntry) (messages : List Envelope) :
    entryStep R incoming.stored (messages.map Envelope.stored) =
      ((entryStep R incoming messages).1, (entryStep R incoming messages).2.map Envelope.stored) := by
  have hrefuses : refusesEntry R incoming.stored = refusesEntry R incoming := rfl
  have hfind : ((messages.map Envelope.stored).find? fun e => e.id == incoming.stored.id) =
      (messages.find? fun e => e.id == incoming.id).map Envelope.stored := List.find?_map
  unfold entryStep
  rw [hrefuses, hfind]
  cases refusesEntry R incoming with
  | some reason => rfl
  | none =>
    cases messages.find? fun e => e.id == incoming.id with
    | some existing =>
      exact congrArg (fun c => (EntryOutcome.collided c, messages.map Envelope.stored))
        (classify_stored hzero existing incoming.envelope)
    | none =>
      have hwrite : incoming.stored.write.envelope = incoming.write.envelope.stored := by
        dsimp only [IncomingExchangeEntry.stored, IncomingExchangeEntry.write, Write.envelope,
          Envelope.stored]
      dsimp only [Option.map_none]
      rw [hwrite, pushMessage_stored]

theorem storedLogs_update (hlogs : s'.logs = Function.update s.logs incoming.room messages) :
    s'.storedLogs =
      Function.update s.storedLogs incoming.room (messages.map Envelope.stored) := by
  funext room
  show (s'.logs room).map Envelope.stored = _
  rw [hlogs]
  rcases Decidable.em (room = incoming.room) with heq | hne
  · subst heq
    rw [Function.update_self, Function.update_self]
  · rw [Function.update_of_ne hne, Function.update_of_ne hne]
    rfl

theorem readEntries_cons {rest : List JsonValue}
    (hread : parseIncomingCacheExchangeEntry value R.config.cacheExchangeMaxHops = .ok incoming) :
    readEntries R (value :: rest) = incoming.stored :: readEntries R rest := by
  unfold readEntries
  rw [List.filterMap_cons, hread]
  rfl

end SplitLemmas

open SplitLemmas

/-- The loop of a push is a batch over the logs. -/
theorem run_pushEntries
    (hzero : R.platform.renderNumber .negZero = R.platform.renderNumber (.finite 0))
    {entries : List JsonValue} (hopen : ∀ value ∈ entries, Open R request value) (i : Nat)
    (counts : PushCounts) (s : ServiceState C) :
    let done := Shards.runAll IncomingExchangeEntry.room (entryStep R) (readEntries R entries)
      s.storedLogs
    ∃ s', (pushEntries R request entries i counts).run s =
      (.ok (done.1.foldl PushCounts.tally counts), s') ∧ s'.storedLogs = done.2 := by
  induction entries generalizing i counts s with
  | nil => exact ⟨s, rfl, rfl⟩
  | cons value rest ih =>
    obtain ⟨incoming, hread, hbarred⟩ := hopen value List.mem_cons_self
    obtain ⟨s₁, hrun, hlogs⟩ := run_pushEntry hread hbarred i counts s
    obtain ⟨s₂, hrest, hdone⟩ := ih (fun v hv => hopen v (List.mem_cons_of_mem _ hv)) (i + 1)
      (counts.tally (entryStep R incoming (s.logs incoming.room)).1) s₁
    have hstep : entryStep R incoming.stored (s.storedLogs incoming.room) =
        ((entryStep R incoming (s.logs incoming.room)).1,
          (entryStep R incoming (s.logs incoming.room)).2.map Envelope.stored) :=
      entryStep_stored hzero incoming (s.logs incoming.room)
    have hstored : s₁.storedLogs = Function.update s.storedLogs incoming.room
        (entryStep R incoming.stored (s.storedLogs incoming.room)).2 := by
      rw [hstep]
      exact storedLogs_update hlogs
    have hcons : Shards.runAll IncomingExchangeEntry.room (entryStep R)
        (readEntries R (value :: rest)) s.storedLogs =
          ((entryStep R incoming (s.logs incoming.room)).1 ::
            (Shards.runAll IncomingExchangeEntry.room (entryStep R) (readEntries R rest)
              s₁.storedLogs).1,
            (Shards.runAll IncomingExchangeEntry.room (entryStep R) (readEntries R rest)
              s₁.storedLogs).2) := by
      have houtcome : (entryStep R incoming (s.logs incoming.room)).1 =
          (entryStep R incoming.stored (s.storedLogs incoming.room)).1 := by rw [hstep]
      rw [readEntries_cons hread, hstored, houtcome]
      rfl
    refine ⟨s₂, ?_, ?_⟩
    · unfold pushEntries
      rw [Proc.run_bind_of_ok hrun, hcons]
      exact hrest
    · rw [hcons]
      exact hdone

end

/-! ## Counting the outcomes -/

/-- A count that is left out when it is zero. -/
def positive? (n : Nat) : Option Nat := if n = 0 then none else some n

/-- The counts are those of the outcomes. -/
structure PushCounts.Tallies (counts : PushCounts) (outcomes : List EntryOutcome) : Prop where
  accepted : counts.accepted = outcomes.count .accepted
  duplicates : counts.duplicates = outcomes.count (.collided .duplicate)
  conflicts : counts.conflicts = outcomes.count (.collided .conflict)
  rejected : counts.rejected = outcomes.countP EntryOutcome.isRejected
  reasons : ∀ reason,
    counts.rejectionCounts.get? reason = positive? (outcomes.count (.rejected reason))

/-- The outcome is a rejection for the reason of this name. -/
def EntryOutcome.named (name : String) : EntryOutcome → Bool
  | rejected reason => reason.toString == name
  | collided _ | accepted => false

/-- The response reports the outcomes. -/
structure Response.Reports (response : Response) (outcomes : List EntryOutcome) : Prop where
  status : response.status = 200
  accepted : response.body.get? "accepted" = some (.ofNat (outcomes.count .accepted))
  duplicates : response.body.get? "duplicates" =
    some (.ofNat (outcomes.count (.collided .duplicate)))
  conflicts : response.body.get? "conflicts" =
    some (.ofNat (outcomes.count (.collided .conflict)))
  rejected : response.body.get? "rejected" =
    some (.ofNat (outcomes.countP EntryOutcome.isRejected))
  reasons : ∃ fields, response.body.get? "rejection_counts" = some (.obj fields) ∧
    (fields.map Prod.fst).Nodup ∧ ∀ name, fields.lookup name =
      (positive? (outcomes.countP (EntryOutcome.named name))).map .ofNat

/-- The sums of the worker are those of the outcomes. -/
structure PushTotals.Sums (totals : PushTotals) (outcomes : List EntryOutcome) : Prop where
  accepted : totals.accepted = outcomes.count .accepted
  duplicates : totals.duplicates = outcomes.count (.collided .duplicate)
  conflicts : totals.conflicts = outcomes.count (.collided .conflict)
  rejected : totals.rejected = outcomes.countP EntryOutcome.isRejected
  reasons : ∀ name, totals.rejectionCounts.get? name =
    (positive? (outcomes.countP (EntryOutcome.named name))).map Int.ofNat

namespace SplitLemmas

variable {outcomes outcomes' : List EntryOutcome} {response : Response} {counts : PushCounts}
  {totals : PushTotals}

theorem tallies_tally (h : counts.Tallies outcomes) (outcome : EntryOutcome) :
    (counts.tally outcome).Tallies (outcomes ++ [outcome]) := by
  obtain ⟨haccepted, hduplicates, hconflicts, hrejected, hreasons⟩ := h
  cases outcome with
  | accepted =>
    refine ⟨?_, ?_, ?_, ?_, fun reason => ?_⟩ <;>
      simp [PushCounts.tally, EntryOutcome.isRejected, haccepted, hduplicates, hconflicts,
        hrejected, hreasons]
  | collided collision =>
    cases collision with
    | duplicate =>
      refine ⟨?_, ?_, ?_, ?_, fun reason => ?_⟩ <;>
        simp [PushCounts.tally, PushCounts.collide, EntryOutcome.isRejected, haccepted,
          hduplicates, hconflicts, hrejected, hreasons]
    | conflict =>
      refine ⟨?_, ?_, ?_, ?_, fun reason => ?_⟩ <;>
        simp [PushCounts.tally, PushCounts.collide, EntryOutcome.isRejected, haccepted,
          hduplicates, hconflicts, hrejected, hreasons]
  | rejected reason =>
    refine ⟨?_, ?_, ?_, ?_, fun other => ?_⟩
    case refine_5 =>
      show (counts.rejectionCounts.set reason _).get? other = _
      rw [OrdMap.get?_set]
      split
      · next heq =>
        subst heq
        have hget : counts.rejectionCounts.getD other 0 = outcomes.count (.rejected other) := by
          unfold OrdMap.getD
          rw [hreasons]
          unfold positive?
          split
          · next hzero => exact hzero.symm
          · rfl
        rw [hget, List.count_append, List.count_singleton_self]
        exact (if_neg (Nat.succ_ne_zero _)).symm
      · next hne =>
        have hother : [EntryOutcome.rejected reason].count (.rejected other) = 0 :=
          List.count_eq_zero.mpr fun hmem =>
            hne (EntryOutcome.rejected.inj (List.mem_singleton.mp hmem))
        rw [List.count_append, hother, hreasons]
        rfl
    all_goals
      simp [PushCounts.tally, PushCounts.reject, EntryOutcome.isRejected, haccepted, hduplicates,
        hconflicts, hrejected]

theorem tallies_foldl (h : counts.Tallies outcomes) (outcomes' : List EntryOutcome) :
    (outcomes'.foldl PushCounts.tally counts).Tallies (outcomes ++ outcomes') := by
  induction outcomes' generalizing counts outcomes with
  | nil => exact (List.append_nil outcomes).symm ▸ h
  | cons outcome rest ih =>
    have hrest := ih (tallies_tally h outcome)
    rw [List.append_assoc] at hrest
    exact hrest

theorem tallies_zero : PushCounts.zero.Tallies [] := ⟨rfl, rfl, rfl, rfl, fun _ => rfl⟩

theorem sums_zero : PushTotals.zero.Sums [] := ⟨rfl, rfl, rfl, rfl, fun _ => rfl⟩

/-! ### A response of an object -/

theorem reason_toString_inj {reason reason' : CacheExchangeRejectionReason}
    (h : reason.toString = reason'.toString) : reason = reason' := by
  cases reason <;> cases reason' <;> first | rfl | exact absurd h (by decide)

theorem countP_named (outcomes : List EntryOutcome) (reason : CacheExchangeRejectionReason) :
    outcomes.countP (EntryOutcome.named reason.toString) = outcomes.count (.rejected reason) := by
  unfold List.count
  refine List.countP_congr fun outcome _ => ?_
  cases outcome with
  | rejected other =>
    rw [EntryOutcome.named, beq_iff_eq, beq_iff_eq, EntryOutcome.rejected.injEq]
    exact ⟨reason_toString_inj, congrArg _⟩
  | collided collision => simp [EntryOutcome.named]
  | accepted => simp [EntryOutcome.named]

theorem countP_named_of_ne (outcomes : List EntryOutcome) {name : String}
    (h : ∀ reason : CacheExchangeRejectionReason, reason.toString ≠ name) :
    outcomes.countP (EntryOutcome.named name) = 0 := by
  refine List.countP_eq_zero.mpr fun outcome _ => ?_
  cases outcome with
  | rejected reason => simpa [EntryOutcome.named] using h reason
  | collided collision => simp [EntryOutcome.named]
  | accepted => simp [EntryOutcome.named]

theorem lookup_map_key {κ κ' α β : Type} [BEq κ] [LawfulBEq κ] [BEq κ'] [LawfulBEq κ']
    {f : κ → κ'} (hf : ∀ k k', f k = f k' → k = k') (g : α → β) (l : List (κ × α)) (k : κ) :
    (l.map fun e => (f e.1, g e.2)).lookup (f k) = (l.lookup k).map g := by
  induction l with
  | nil => rfl
  | cons e rest ih =>
    rw [List.map_cons, List.lookup_cons, List.lookup_cons]
    cases hkey : k == e.1 with
    | true => rw [beq_iff_eq.mp hkey, beq_self_eq_true]; rfl
    | false =>
      have hne : (f k == f e.1) = false := beq_eq_false_iff_ne.mpr fun heq =>
        beq_eq_false_iff_ne.mp hkey (hf k e.1 heq)
      rw [hne]
      exact ih

theorem lookup_map_key_none {κ κ' α β : Type} [BEq κ'] [LawfulBEq κ'] {f : κ → κ'} {k' : κ'}
    (h : ∀ k, f k ≠ k') (g : α → β) (l : List (κ × α)) :
    (l.map fun e => (f e.1, g e.2)).lookup k' = none := by
  induction l with
  | nil => rfl
  | cons e rest ih =>
    rw [List.map_cons, List.lookup_cons, beq_eq_false_iff_ne.mpr (h e.1).symm]
    exact ih

theorem reports_pushResponse {C : Type} (h : counts.Tallies outcomes) (R : Relay C) (cursor : Nat) :
    (pushResponse R counts cursor).Reports outcomes := by
  obtain ⟨haccepted, hduplicates, hconflicts, hrejected, hreasons⟩ := h
  refine ⟨rfl, ?_, ?_, ?_, ?_, _, rfl, ?_, fun name => ?_⟩
  · exact congrArg (fun n => some (JsonValue.ofNat n)) haccepted
  · exact congrArg (fun n => some (JsonValue.ofNat n)) hduplicates
  · exact congrArg (fun n => some (JsonValue.ofNat n)) hconflicts
  · exact congrArg (fun n => some (JsonValue.ofNat n)) hrejected
  · rw [List.map_map]
    show (counts.rejectionCounts.entries.map (CacheExchangeRejectionReason.toString ∘
      Prod.fst)).Nodup
    rw [← List.map_map]
    exact counts.rejectionCounts.nodup.map fun _ _ => reason_toString_inj
  · rcases Classical.em (∃ reason : CacheExchangeRejectionReason, reason.toString = name) with
      ⟨reason, rfl⟩ | hnone
    · rw [lookup_map_key fun _ _ => reason_toString_inj, countP_named]
      exact congrArg (Option.map JsonValue.ofNat) (hreasons reason)
    · have hne := fun reason heq => hnone ⟨reason, heq⟩
      rw [lookup_map_key_none hne, countP_named_of_ne outcomes hne]
      rfl

/-! ### The sums of the worker -/

/-- What the counts of a response add to the ones so far. -/
theorem get?_addRejections {fields : List (String × JsonValue)} (hnodup : (fields.map Prod.fst).Nodup)
    {f : String → Option Nat} (hf : ∀ name, fields.lookup name = (f name).map .ofNat)
    (counts : OrdMap String Int) (name : String) :
    (PushTotals.addRejections counts fields).get? name =
      (f name).elim (counts.get? name) fun n => some (counts.getD name 0 + n) := by
  induction fields generalizing f counts with
  | nil =>
    have hnone : f name = none := Option.map_eq_none_iff.mp (hf name).symm
    rw [hnone]
    rfl
  | cons e rest ih =>
    obtain ⟨reason, value⟩ := e
    obtain ⟨hnot, hrest⟩ := List.nodup_cons.mp hnodup
    obtain ⟨n, hn, hvalue⟩ : ∃ n, f reason = some n ∧ JsonValue.ofNat n = value := by
      refine Option.map_eq_some_iff.mp ((hf reason).symm.trans ?_)
      rw [List.lookup_cons, beq_self_eq_true]
    subst hvalue
    have hrestNone : rest.lookup reason = none := by
      refine List.lookup_eq_none_iff.mpr fun e he => ?_
      rw [bne_iff_ne]
      intro heq
      have hmem : e.1 ∈ rest.map Prod.fst := List.mem_map_of_mem he
      exact hnot (heq ▸ hmem)
    have hf' : ∀ name, rest.lookup name =
        (if name = reason then none else f name).map JsonValue.ofNat := by
      intro name
      split
      · next heq => rw [heq, hrestNone]; rfl
      · next hne =>
        rw [← hf name, List.lookup_cons, beq_eq_false_iff_ne.mpr hne]
    have hadd : PushTotals.addRejections counts ((reason, .ofNat n) :: rest) =
        PushTotals.addRejections (counts.set reason (counts.getD reason 0 + n)) rest := by
      have htrunc : (JsNumber.ofNat n).truncInt? = some (n : Int) := JsNumber.truncInt?_ofInt n
      rw [JsonValue.ofNat, PushTotals.addRejections, htrunc]
      show PushTotals.addRejections (counts.set reason (_ + max 0 (n : Int))) rest = _
      rw [max_eq_right (Int.natCast_nonneg n)]
    rw [hadd, ih hrest hf']
    split
    · next heq =>
      subst heq
      rw [hn]
      exact OrdMap.get?_set_self _ _ _
    · next hne =>
      rw [OrdMap.get?_set_of_ne _ hne, OrdMap.getD_set_of_ne _ hne]

theorem countField_of_get {body : JsonValue} {key : String} {n : Nat}
    (h : body.get? key = some (.ofNat n)) : PushTotals.countField body key = n := by
  have hnum : body.numField? key = some (.ofNat n) := by
    unfold JsonValue.numField?
    rw [h]
    rfl
  unfold PushTotals.countField
  rw [hnum, Option.bind_some, show (JsNumber.ofNat n).truncInt? = some (n : Int) from
    JsNumber.truncInt?_ofInt n, Option.getD_some]
  exact max_eq_right (Int.natCast_nonneg n)

theorem positive?_add (a b : Nat) :
    (positive? b).elim ((positive? a).map Int.ofNat)
        (fun n => some (((positive? a).map Int.ofNat).getD 0 + n)) =
      (positive? (a + b)).map Int.ofNat := by
  unfold positive?
  cases b with
  | zero => rfl
  | succ b =>
    cases a with
    | zero =>
      simp only [Nat.zero_add, Nat.succ_ne_zero, if_false, if_true, Option.elim_some,
        Option.map_none, Option.getD_none, Option.map_some]
      exact congrArg some (Int.zero_add _)
    | succ a =>
      simp only [Nat.succ_ne_zero, Nat.add_succ, if_false, Option.elim_some, Option.map_some,
        Option.getD_some]
      rfl

theorem sums_add (h : totals.Sums outcomes) (hreports : response.Reports outcomes') :
    (totals.add response.body).Sums (outcomes ++ outcomes') := by
  obtain ⟨fields, hfields, hnodup, hlookup⟩ := hreports.reasons
  have hcounts : ((response.body.objField? "rejection_counts").bind
      JsonValue.fields?).getD [] = fields := by
    unfold JsonValue.objField?
    rw [hfields]
    rfl
  refine ⟨?_, ?_, ?_, ?_, fun name => ?_⟩
  · show totals.accepted + PushTotals.countField response.body "accepted" = _
    rw [countField_of_get hreports.accepted, h.accepted, List.count_append, Int.natCast_add]
  · show totals.duplicates + PushTotals.countField response.body "duplicates" = _
    rw [countField_of_get hreports.duplicates, h.duplicates, List.count_append, Int.natCast_add]
  · show totals.conflicts + PushTotals.countField response.body "conflicts" = _
    rw [countField_of_get hreports.conflicts, h.conflicts, List.count_append, Int.natCast_add]
  · show totals.rejected + PushTotals.countField response.body "rejected" = _
    rw [countField_of_get hreports.rejected, h.rejected, List.countP_append, Int.natCast_add]
  · show (PushTotals.addRejections totals.rejectionCounts _).get? name = _
    rw [hcounts, get?_addRejections hnodup hlookup, OrdMap.getD, h.reasons, List.countP_append]
    exact positive?_add _ _

theorem reports_toResponse (h : totals.Sums outcomes) : totals.toResponse.Reports outcomes := by
  refine ⟨rfl, ?_, ?_, ?_, ?_, _, rfl, ?_, fun name => ?_⟩
  · exact congrArg (fun n => some (JsonValue.ofInt n)) h.accepted
  · exact congrArg (fun n => some (JsonValue.ofInt n)) h.duplicates
  · exact congrArg (fun n => some (JsonValue.ofInt n)) h.conflicts
  · exact congrArg (fun n => some (JsonValue.ofInt n)) h.rejected
  · rw [List.map_map]
    exact totals.rejectionCounts.nodup
  · rw [OrdMap.lookup_map_snd]
    show (totals.rejectionCounts.get? name).map JsonValue.ofInt = _
    rw [h.reasons, Option.map_map]
    rfl

/-- The order of the outcomes does not show. -/
theorem reports_perm (h : response.Reports outcomes) (hperm : outcomes.Perm outcomes') :
    response.Reports outcomes' := by
  obtain ⟨fields, hfields, hnodup, hlookup⟩ := h.reasons
  refine ⟨h.status, ?_, ?_, ?_, ?_, fields, hfields, hnodup, fun name => ?_⟩
  · rw [← hperm.count_eq]; exact h.accepted
  · rw [← hperm.count_eq]; exact h.duplicates
  · rw [← hperm.count_eq]; exact h.conflicts
  · rw [← hperm.countP_eq]; exact h.rejected
  · rw [← hperm.countP_eq]; exact hlookup name

end SplitLemmas

/-! ## The parts -/

section
variable {C : Type} {R : Relay C} {W : Worker C} {request request' : Request}
  {entries : List JsonValue}

/-- The room that the worker reads from an entry. -/
def entryRoom (value : JsonValue) : String := trim (value.strField "room")

/-- The log of every room, in the object of that name. -/
def WorkerState.storedLogs (w : WorkerState C) : String → List Envelope :=
  fun room => (w room).storedLogs room

/-- The request to the object of a group. -/
def groupRequest (P : Platform) (request : Request) (room : String) (part : List JsonValue) :
    Request :=
  { request with
    query := setParam "room" room request.query
    body := P.stringify (.obj [("entries", .arr part)]) }

/-- The entry can be read and is not barred, and its room is valid. -/
def Forwardable (R : Relay C) (request : Request) (value : JsonValue) : Prop :=
  ∃ incoming, parseIncomingCacheExchangeEntry value R.config.cacheExchangeMaxHops = .ok incoming ∧
    isValidRoomName incoming.room = true ∧ ¬ Barred R request incoming

namespace SplitLemmas

theorem room_of_read {value : JsonValue} {incoming : IncomingExchangeEntry}
    (h : parseIncomingCacheExchangeEntry value R.config.cacheExchangeMaxHops = .ok incoming) :
    entryRoom value = incoming.room := WorkerLemmas.room_of_parse h

theorem readEntries_append (l l' : List JsonValue) :
    readEntries R (l ++ l') = readEntries R l ++ readEntries R l' := List.filterMap_append

/-- What is read of the entries of a room. -/
theorem readEntries_filter (h : ∀ value ∈ entries, Forwardable R request value) (room : String) :
    readEntries R (entries.filter fun value => entryRoom value = room) =
      Shards.part IncomingExchangeEntry.room (readEntries R entries) room := by
  induction entries with
  | nil => rfl
  | cons value rest ih =>
    obtain ⟨incoming, hread, -, -⟩ := h value List.mem_cons_self
    have hrest := ih fun v hv => h v (List.mem_cons_of_mem _ hv)
    have hroom : incoming.stored.room = entryRoom value := (room_of_read hread).symm
    rw [readEntries_cons hread]
    rcases Decidable.em (entryRoom value = room) with heq | hne
    · rw [List.filter_cons, if_pos (decide_eq_true heq), readEntries_cons hread,
        Shards.part_cons_self (hroom.trans heq), hrest]
    · rw [List.filter_cons, if_neg (by simp [hne]), Shards.part_cons_of_ne (hroom ▸ hne), hrest]

/-- An entry that was written and read once more is read as before. -/
theorem readEntries_normalize (h : ∀ value ∈ entries, Forwardable R request value) :
    readEntries R (entries.map JsonValue.normalize) = readEntries R entries := by
  induction entries with
  | nil => rfl
  | cons value rest ih =>
    obtain ⟨incoming, hread, -, -⟩ := h value List.mem_cons_self
    have hstored : incoming.stored.stored = incoming.stored :=
      congrArg (fun payload => { incoming with payload })
        (JsonValue.normalize_normalize incoming.payload)
    rw [List.map_cons, readEntries_cons (parse_normalize hread), readEntries_cons hread,
      ih fun v hv => h v (List.mem_cons_of_mem _ hv)]
    exact congrArg (· :: _) hstored

theorem open_of_forwardable {value : JsonValue} (h : Forwardable R request value)
    (htoken : readRoomToken request' = readRoomToken request) : Open R request' value := by
  obtain ⟨incoming, hread, -, hbarred⟩ := h
  refine ⟨incoming, hread, fun hbars => hbarred ⟨hbars.1, ?_⟩⟩
  have htokens := hbars.2
  unfold checkRoomToken at htokens ⊢
  rwa [htoken] at htokens

theorem open_normalize {value : JsonValue} (h : Open R request value) :
    Open R request value.normalize := by
  obtain ⟨incoming, hread, hbarred⟩ := h
  exact ⟨_, parse_normalize hread, hbarred⟩

theorem lookup_setParam {key key' : String} (h : key' ≠ key) (value : String)
    (query : List (String × String)) :
    (setParam key value query).lookup key' = query.lookup key' := by
  have hfilter : ∀ l : List (String × String),
      (l.filter fun p => decide (p.1 ≠ key)).lookup key' = l.lookup key' := by
    intro l
    induction l with
    | nil => rfl
    | cons p rest ih =>
      rcases Decidable.em (p.1 = key) with heq | hne
      · rw [List.filter_cons_of_neg (by simp [heq]), ih, List.lookup_cons,
          beq_eq_false_iff_ne.mpr (heq ▸ h)]
      · rw [List.filter_cons_of_pos (by simp [hne]), List.lookup_cons, List.lookup_cons, ih]
  induction query with
  | nil => rw [setParam, List.lookup_cons, beq_eq_false_iff_ne.mpr h]
  | cons p rest ih =>
    obtain ⟨k, v⟩ := p
    unfold setParam
    split
    · next heq =>
      subst heq
      rw [List.lookup_cons, List.lookup_cons, beq_eq_false_iff_ne.mpr h, hfilter]
    · rw [List.lookup_cons, List.lookup_cons, ih]

end SplitLemmas

open SplitLemmas

/-- A push that no gate refuses, at one service. -/
theorem serve_reports
    (hzero : R.platform.renderNumber .negZero = R.platform.renderNumber (.finite 0))
    (hpush : PushRequest R request entries) (hopen : ∀ value ∈ entries, Open R request value)
    (env : Env) (s : ServiceState C) :
    let done := Shards.runAll IncomingExchangeEntry.room (entryStep R) (readEntries R entries)
      s.storedLogs
    (serve R request env s).1.Reports done.1 ∧ (serve R request env s).2.storedLogs = done.2 := by
  obtain ⟨s', hrun, hlogs⟩ := run_pushEntries hzero hopen 0 .zero s
  rw [serve_push hpush, hrun]
  exact ⟨reports_pushResponse (tallies_foldl tallies_zero _) R _, hlogs⟩

/-- A push of which every entry is for the room of one object. -/
theorem forward_whole (hnode : ∀ name, W.nodeId name = W.relay.config.relayNodeId)
    (hzero : W.relay.platform.renderNumber .negZero = W.relay.platform.renderNumber (.finite 0))
    {name : String} (hpush : PushRequest W.relay request entries)
    (hopen : ∀ value ∈ entries, Open W.relay request value)
    (hrooms : ∀ incoming ∈ readEntries W.relay entries, incoming.room = name)
    (env : WorkerEnv) (w : WorkerState C) :
    let done := Shards.runAll IncomingExchangeEntry.room (entryStep W.relay)
      (readEntries W.relay entries) w.storedLogs
    (W.forward name request env w).1.Reports done.1 ∧
      WorkerState.storedLogs (W.forward name request env w).2 = done.2 := by
  have hobject : W.object name = W.relay := by
    unfold Worker.object
    rw [hnode name]
  obtain ⟨hreports, hlogs⟩ := serve_reports hzero hpush hopen (env name) (w name)
  have hforward : W.forward name request env w = ((serve W.relay request (env name) (w name)).1,
      Function.update w name (serve W.relay request (env name) (w name)).2) := by
    unfold Worker.forward
    rw [hobject]
  rw [hforward]
  constructor
  · have hwhole : (Shards.runAll IncomingExchangeEntry.room (entryStep W.relay)
        (readEntries W.relay entries) w.storedLogs).1 = _ :=
      Shards.runAll_eq_runCell hrooms w.storedLogs
    have hown : (Shards.runAll IncomingExchangeEntry.room (entryStep W.relay)
        (readEntries W.relay entries) (w name).storedLogs).1 = _ :=
      Shards.runAll_eq_runCell hrooms (w name).storedLogs
    rw [hown] at hreports
    rw [hwhole]
    exact hreports
  · funext room
    show (Function.update w name _ room).storedLogs room = _
    rcases Decidable.em (room = name) with heq | hne
    · subst heq
      rw [Function.update_self, hlogs, Shards.cell_runAll, Shards.cell_runAll]
      rfl
    · have hnone : Shards.part IncomingExchangeEntry.room (readEntries W.relay entries) room = [] :=
        List.filter_eq_nil_iff.mpr fun incoming hincoming => by
          rw [hrooms incoming hincoming, decide_eq_true_eq]
          exact Ne.symm hne
      rw [Function.update_of_ne hne, Shards.cell_runAll, hnone]
      rfl

/-! ## The loop of the worker -/

namespace SplitLemmas

theorem room_of_mem_readEntries (h : ∀ value ∈ entries, Forwardable R request value)
    {incoming : IncomingExchangeEntry} (hmem : incoming ∈ readEntries R entries) :
    ∃ value ∈ entries, entryRoom value = incoming.room := by
  obtain ⟨value, hvalue, hsome⟩ := List.mem_filterMap.mp hmem
  obtain ⟨found, hread, -, -⟩ := h value hvalue
  rw [hread] at hsome
  obtain rfl := Option.some.inj hsome
  exact ⟨value, hvalue, (room_of_read hread).trans rfl⟩

theorem pushRequest_group (h : PushRequest R request entries) (P : Platform) (room : String)
    (part : List JsonValue) :
    PushRequest R (groupRequest P request room part) (part.map JsonValue.normalize) := by
  refine ⟨h.path, h.method, h.auth, h.peerAuth, _, rfl, ?_⟩
  show some (JsonValue.normalizeItems part) = _
  rw [JsonValue.normalizeItems_eq_map]

theorem readRoomToken_setParam (request : Request) (room : String) :
    readRoomToken { request with query := setParam "room" room request.query } =
      readRoomToken request := by
  have hparam : (setParam "room" room request.query).lookup "room_token" =
      request.query.lookup "room_token" := lookup_setParam (by decide) room request.query
  unfold readRoomToken Request.paramTrim Request.param
  rw [hparam]
  rfl

theorem groupEntries_getD {grouped grouped' : OrdMap String (List JsonValue)}
    (h : groupEntries entries grouped = some grouped') (room : String) :
    grouped'.getD room [] =
      grouped.getD room [] ++ entries.filter fun value => entryRoom value = room := by
  induction entries generalizing grouped with
  | nil =>
    cases h
    exact (List.append_nil _).symm
  | cons value rest ih =>
    unfold groupEntries at h
    split at h
    · cases h
    simp only at h
    split at h
    · cases h
    rw [ih h]
    rcases Decidable.em (entryRoom value = room) with heq | hne
    · subst heq
      rw [List.filter_cons, if_pos (decide_eq_true rfl)]
      show (grouped.set (entryRoom value) _).getD (entryRoom value) [] ++ _ = _
      rw [OrdMap.getD_set_self, List.append_assoc]
      rfl
    · rw [List.filter_cons, if_neg (by simp [hne]),
        OrdMap.getD_set_of_ne _ (show room ≠ trim (value.strField "room") from Ne.symm hne)]

/-- The entries of a room among those of groups that hold their own. -/
theorem filter_groups {groups : List (String × List JsonValue)}
    (hnodup : (groups.map Prod.fst).Nodup)
    (hown : ∀ g ∈ groups, ∀ value ∈ g.2, entryRoom value = g.1) (room : String) :
    (groups.flatMap Prod.snd).filter (fun value => entryRoom value = room) =
      (groups.lookup room).getD [] := by
  induction groups with
  | nil => rfl
  | cons g rest ih =>
    obtain ⟨hnot, hrest⟩ := List.nodup_cons.mp hnodup
    have hown' := ih hrest fun g' hg' => hown g' (List.mem_cons_of_mem _ hg')
    rw [List.flatMap_cons, List.filter_append, hown', List.lookup_cons]
    cases hkey : room == g.1 with
    | true =>
      obtain rfl := beq_iff_eq.mp hkey
      have hnone : rest.lookup g.1 = none := by
        refine List.lookup_eq_none_iff.mpr fun g' hg' => bne_iff_ne.mpr fun heq => ?_
        have hmem : g'.1 ∈ rest.map Prod.fst := List.mem_map_of_mem hg'
        exact hnot (heq ▸ hmem)
      rw [hnone, List.filter_eq_self.mpr fun value hvalue =>
        decide_eq_true (hown g List.mem_cons_self value hvalue)]
      exact List.append_nil _
    | false =>
      rw [List.filter_eq_nil_iff.mpr fun value hvalue => ?_]
      · exact List.nil_append _
      · rw [hown g List.mem_cons_self value hvalue, decide_eq_true_eq]
        exact Ne.symm (beq_eq_false_iff_ne.mp hkey)

/-- The groups are the parts of the batch. -/
theorem filter_grouped {grouped : OrdMap String (List JsonValue)}
    (h : groupEntries entries ∅ = some grouped) (room : String) :
    (grouped.entries.flatMap Prod.snd).filter (fun value => entryRoom value = room) =
      entries.filter fun value => entryRoom value = room := by
  have hown := WorkerLemmas.groupEntries_rooms h fun g hg => absurd hg List.not_mem_nil
  exact (filter_groups grouped.nodup hown room).trans (groupEntries_getD h room)

end SplitLemmas

/-- The loop over the groups is a batch over the entries of all groups. -/
theorem run_forwardGroups (hnode : ∀ name, W.nodeId name = W.relay.config.relayNodeId)
    (hzero : W.relay.platform.renderNumber .negZero = W.relay.platform.renderNumber (.finite 0))
    (hpush : PushRequest W.relay request entries) {groups : List (String × List JsonValue)}
    (hread : ∀ g ∈ groups, ∀ value ∈ g.2, Forwardable W.relay request value)
    (hown : ∀ g ∈ groups, ∀ value ∈ g.2, entryRoom value = g.1) (env : WorkerEnv)
    {totals : PushTotals} {outcomes : List EntryOutcome} (hsums : totals.Sums outcomes)
    (w : WorkerState C) :
    let done := Shards.runAll IncomingExchangeEntry.room (entryStep W.relay)
      (readEntries W.relay (groups.flatMap Prod.snd)) w.storedLogs
    (W.forwardGroups request env groups totals w).1.Reports (outcomes ++ done.1) ∧
      WorkerState.storedLogs (W.forwardGroups request env groups totals w).2 = done.2 := by
  induction groups generalizing totals outcomes w with
  | nil => exact ⟨(List.append_nil outcomes).symm ▸ reports_toResponse hsums, rfl⟩
  | cons g rest ih =>
    obtain ⟨room, part⟩ := g
    have hpart := hread (room, part) List.mem_cons_self
    have hopen : ∀ value ∈ part.map JsonValue.normalize,
        Open W.relay (groupRequest W.relay.platform request room part) value := by
      intro value hvalue
      obtain ⟨original, horiginal, rfl⟩ := List.mem_map.mp hvalue
      exact open_normalize (open_of_forwardable (hpart original horiginal)
        (readRoomToken_setParam request room))
    have hrooms : ∀ incoming ∈ readEntries W.relay (part.map JsonValue.normalize),
        incoming.room = room := by
      intro incoming hincoming
      rw [readEntries_normalize hpart] at hincoming
      obtain ⟨value, hvalue, hroom⟩ := room_of_mem_readEntries hpart hincoming
      exact hroom.symm.trans (hown (room, part) List.mem_cons_self value hvalue)
    obtain ⟨hreports, hlogs⟩ := forward_whole hnode hzero
      (pushRequest_group hpush W.relay.platform room part) hopen hrooms env w
    rw [readEntries_normalize hpart] at hreports hlogs
    have hforward : W.forwardGroups request env ((room, part) :: rest) totals w =
        W.forwardGroups request env rest
          (totals.add (W.forward room (groupRequest W.relay.platform request room part) env w).1.body)
          (W.forward room (groupRequest W.relay.platform request room part) env w).2 :=
      if_neg (not_not.mpr hreports.status)
    have hrest := ih (fun g' hg' => hread g' (List.mem_cons_of_mem _ hg'))
      (fun g' hg' => hown g' (List.mem_cons_of_mem _ hg')) (sums_add hsums hreports)
      (W.forward room (groupRequest W.relay.platform request room part) env w).2
    rw [hlogs] at hrest
    rw [hforward, List.flatMap_cons, readEntries_append, Shards.runAll_append]
    dsimp only
    rw [← List.append_assoc]
    exact hrest

/-! ## The whole push and its parts -/

/-- Two responses with the same counts. -/
structure Response.SameCounts (a b : Response) : Prop where
  status : a.status = b.status
  counts : ∀ key ∈ ["accepted", "duplicates", "conflicts", "rejected"],
    a.body.get? key = b.body.get? key
  rejectionCounts : ∀ reason, (a.body.objField? "rejection_counts").bind (JsonValue.get? · reason) =
    (b.body.objField? "rejection_counts").bind (JsonValue.get? · reason)

namespace SplitLemmas

variable {a b : Response} {outcomes : List EntryOutcome}

theorem sameCounts_of_reports (ha : a.Reports outcomes) (hb : b.Reports outcomes) :
    a.SameCounts b := by
  refine ⟨ha.status.trans hb.status.symm, fun key hkey => ?_, fun reason => ?_⟩
  · simp only [List.mem_cons, List.not_mem_nil, or_false] at hkey
    rcases hkey with rfl | rfl | rfl | rfl
    · exact ha.accepted.trans hb.accepted.symm
    · exact ha.duplicates.trans hb.duplicates.symm
    · exact ha.conflicts.trans hb.conflicts.symm
    · exact ha.rejected.trans hb.rejected.symm
  · have hget : ∀ {r : Response}, r.Reports outcomes →
        (r.body.objField? "rejection_counts").bind (JsonValue.get? · reason) =
          (positive? (outcomes.countP (EntryOutcome.named reason))).map .ofNat := by
      intro r hr
      obtain ⟨fields, hfields, -, hlookup⟩ := hr.reasons
      unfold JsonValue.objField?
      rw [hfields]
      exact hlookup reason
    exact (hget ha).trans (hget hb).symm

/-- A gate in front of the push answers as it would for the parts. -/
theorem serve_push_refused {env : Env} {s : ServiceState C}
    (hpath : request.pathname = Endpoint.cacheExchangePush.path) (hmethod : request.method = "POST")
    (h : ¬ (checkAuth R request = none ∧ checkPeerAuth R request = none)) :
    serve R request env s = (unauthorizedResponse, s) := by
  have hendpoint : Endpoint.ofPath request.pathname = some .cacheExchangePush := by
    rw [hpath]
    rfl
  rw [serve_endpoint hendpoint]
  show (Proc.failWith (checkAuth R request) >>= fun _ => handleCacheExchangePush R request :
    Handler C Response).serve s = _
  rcases TokenGateLemmas.checkAuth_cases R request with hauth | hauth
  case inr => rw [hauth]; rfl
  have hpeer := (TokenGateLemmas.checkPeerAuth_cases R request).resolve_left fun hnone =>
    h ⟨hauth, hnone⟩
  have hpost : (requireMethod request "POST" : Handler C Unit) = pure () := by
    unfold requireMethod Proc.failIf
    rw [if_neg (not_not.mpr hmethod)]
  unfold handleCacheExchangePush
  rw [hauth, hpost, hpeer]
  rfl

theorem forward_refused {env : WorkerEnv} {w : WorkerState C} {name : String}
    (hnode : W.nodeId name = W.relay.config.relayNodeId)
    (hpath : request.pathname = Endpoint.cacheExchangePush.path) (hmethod : request.method = "POST")
    (h : ¬ (checkAuth W.relay request = none ∧ checkPeerAuth W.relay request = none)) :
    W.forward name request env w = (unauthorizedResponse, w) := by
  have hobject : W.object name = W.relay := by
    unfold Worker.object
    rw [hnode]
  unfold Worker.forward
  rw [hobject, serve_push_refused hpath hmethod h]
  exact congrArg _ (Function.update_eq_self name w)

theorem fetch_push {env : WorkerEnv} {w : WorkerState C}
    (hroute : Worker.routesByEntries request = true) :
    W.fetch request env w = W.routePush request env w := by
  have hparts := hroute
  unfold Worker.routesByEntries at hparts
  simp only [Bool.and_eq_true, beq_iff_eq] at hparts
  unfold Worker.fetch
  rw [hparts.1.1, if_neg (by decide), if_neg (by decide), if_neg (by decide), if_pos hroute]

/-! ### The cases of the router -/

theorem routePush_none {env : WorkerEnv} {w : WorkerState C} (h : pushGroups request.body = none) :
    W.routePush request env w = W.forward DEFAULT_ROOM request env w := by
  unfold Worker.routePush
  rw [h]

theorem routePush_one {env : WorkerEnv} {w : WorkerState C} {room : String} {part : List JsonValue}
    (h : pushGroups request.body = some [(room, part)]) :
    W.routePush request env w =
      W.forward room { request with query := setParam "room" room request.query } env w := by
  unfold Worker.routePush
  rw [h]

theorem routePush_many {env : WorkerEnv} {w : WorkerState C} {g g' : String × List JsonValue}
    {rest : List (String × List JsonValue)}
    (h : pushGroups request.body = some (g :: g' :: rest)) :
    W.routePush request env w = W.forwardGroups request env (g :: g' :: rest) .zero w := by
  unfold Worker.routePush
  rw [h]

theorem forwardGroups_cons {env : WorkerEnv} {w : WorkerState C} {totals : PushTotals}
    (g : String × List JsonValue) (rest : List (String × List JsonValue)) :
    W.forwardGroups request env (g :: rest) totals w =
      let forwarded := W.forward g.1 (groupRequest W.relay.platform request g.1 g.2) env w
      if forwarded.1.status ≠ 200 then forwarded
      else W.forwardGroups request env rest (totals.add forwarded.1.body) forwarded.2 := rfl

/-- The parts of the groups are the parts of the batch. -/
theorem part_groups (hread : ∀ value ∈ entries, Forwardable R request value)
    {grouped : OrdMap String (List JsonValue)} (hgrouped : groupEntries entries ∅ = some grouped) :
    (∀ g ∈ grouped.entries, ∀ value ∈ g.2, Forwardable R request value) ∧
      ∀ room, Shards.part IncomingExchangeEntry.room
          (readEntries R (grouped.entries.flatMap Prod.snd)) room =
        Shards.part IncomingExchangeEntry.room (readEntries R entries) room := by
  have hall : ∀ value ∈ grouped.entries.flatMap Prod.snd, Forwardable R request value := by
    intro value hvalue
    have hmem : value ∈ (grouped.entries.flatMap Prod.snd).filter
        fun other => entryRoom other = entryRoom value :=
      List.mem_filter.mpr ⟨hvalue, decide_eq_true rfl⟩
    rw [filter_grouped hgrouped] at hmem
    exact hread value (List.mem_filter.mp hmem).1
  refine ⟨fun g hg value hvalue => hall value (List.mem_flatMap.mpr ⟨g, hg, hvalue⟩),
    fun room => ?_⟩
  rw [← readEntries_filter hall, ← readEntries_filter hread, filter_grouped hgrouped]

end SplitLemmas

/-- A push that no gate refuses, at the worker: a batch over the same logs. -/
theorem routePush_reports (hnode : ∀ name, W.nodeId name = W.relay.config.relayNodeId)
    (hzero : W.relay.platform.renderNumber .negZero = W.relay.platform.renderNumber (.finite 0))
    (hpush : PushRequest W.relay request entries)
    (hread : ∀ value ∈ entries, Forwardable W.relay request value)
    {grouped : OrdMap String (List JsonValue)} (hgrouped : groupEntries entries ∅ = some grouped)
    (hgroups : pushGroups request.body =
      if grouped.entries = [] then none else some grouped.entries)
    (env : WorkerEnv) (w : WorkerState C) :
    let done := Shards.runAll IncomingExchangeEntry.room (entryStep W.relay)
      (readEntries W.relay entries) w.storedLogs
    (W.routePush request env w).1.Reports done.1 ∧
      WorkerState.storedLogs (W.routePush request env w).2 = done.2 := by
  obtain ⟨hparts, hpart⟩ := part_groups hread hgrouped
  have hown := WorkerLemmas.groupEntries_rooms hgrouped fun g hg => absurd hg List.not_mem_nil
  cases hlist : grouped.entries with
  | nil =>
    have hnil : entries = [] := by
      by_contra hne
      exact WorkerLemmas.groupEntries_ne_nil hgrouped hne hlist
    subst hnil
    rw [routePush_none (hgroups.trans (if_pos hlist))]
    exact forward_whole hnode hzero hpush (fun _ h => absurd h List.not_mem_nil)
      (fun _ h => absurd h List.not_mem_nil) env w
  | cons g rest =>
    rw [hlist, if_neg (List.cons_ne_nil g rest)] at hgroups
    cases rest with
    | nil =>
      obtain ⟨room, part⟩ := g
      have hpush' : PushRequest W.relay
          { request with query := setParam "room" room request.query } entries :=
        ⟨hpush.path, hpush.method, hpush.auth, hpush.peerAuth, hpush.body⟩
      have hrooms : ∀ incoming ∈ readEntries W.relay entries, incoming.room = room := by
        intro incoming hincoming
        obtain ⟨value, hvalue, hroom⟩ := room_of_mem_readEntries hread hincoming
        obtain ⟨g, hg, hname⟩ :=
          WorkerLemmas.groupEntries_complete hgrouped (.inr ⟨value, hvalue, hroom⟩)
        rw [hlist, List.mem_singleton] at hg
        rw [hg] at hname
        exact hname.symm
      rw [routePush_one hgroups]
      exact forward_whole hnode hzero hpush' (fun value hvalue =>
        open_of_forwardable (hread value hvalue) (readRoomToken_setParam request room)) hrooms env w
    | cons g' rest =>
      rw [hlist] at hparts hown hpart
      obtain ⟨hreports, hlogs⟩ := run_forwardGroups hnode hzero hpush hparts hown env sums_zero w
      obtain ⟨hsame, hperm⟩ : _ ∧ List.Perm _ (Shards.runAll IncomingExchangeEntry.room
          (entryStep W.relay) (readEntries W.relay entries) w.storedLogs).1 :=
        Shards.runAll_of_parts hpart w.storedLogs
      rw [routePush_many hgroups]
      exact ⟨reports_perm hreports hperm, hlogs.trans hsame⟩

/-- A push that the worker takes apart by rooms has the same counts and leaves the same logs as at
one service that holds all rooms. -/
theorem split_push_agrees (W : Worker C)
    (hzero : W.relay.platform.renderNumber .negZero = W.relay.platform.renderNumber (.finite 0))
    (hnode : ∀ name, W.nodeId name = W.relay.config.relayNodeId) {request : Request}
    (hroute : Worker.routesByEntries request = true) {parsed : JsonValue}
    (hbody : request.body.json = some parsed) {entries : List JsonValue}
    (hentries : parsed.arrField? "entries" = some entries)
    (hread : ∀ value ∈ entries, Forwardable W.relay request value) (wenv : WorkerEnv) (env : Env)
    {w : WorkerState C} {s : ServiceState C}
    (hlogs : ∀ room, ((w room).roomOf room).messages.map Envelope.stored =
      (s.roomOf room).messages.map Envelope.stored) :
    (W.fetch request wenv w).1.SameCounts (serve W.relay request env s).1 ∧
      ∀ room, (((W.fetch request wenv w).2 room).roomOf room).messages.map Envelope.stored =
        ((serve W.relay request env s).2.roomOf room).messages.map Envelope.stored := by
  have hparts := hroute
  unfold Worker.routesByEntries at hparts
  simp only [Bool.and_eq_true, beq_iff_eq] at hparts
  obtain ⟨⟨hpath, hmethod⟩, -⟩ := hparts
  have hcells : w.storedLogs = s.storedLogs := funext hlogs
  have hgrouped : (groupEntries entries ∅).isSome = true :=
    (WorkerLemmas.groupEntries_isSome ∅).mpr fun value hvalue => by
      obtain ⟨incoming, hincoming, hroom, -⟩ := hread value hvalue
      refine ⟨fun hnone => ?_, ?_⟩
      · have hobject := (parseIncomingCacheExchangeEntry_ok_iff.mp hincoming).object
        rw [hnone] at hobject
        cases hobject
      · rw [show trim (value.strField "room") = incoming.room from room_of_read hincoming]
        exact hroom
  obtain ⟨grouped, hgrouped⟩ := Option.isSome_iff_exists.mp hgrouped
  have hgroups : pushGroups request.body =
      if grouped.entries = [] then none else some grouped.entries := by
    have hparse : request.body.json.bind parseCacheExchangeEntriesByRoom = some grouped := by
      rw [hbody, Option.bind_some]
      unfold parseCacheExchangeEntriesByRoom
      rw [hentries, Option.bind_some, hgrouped]
    unfold pushGroups
    rw [hparse]
  rw [fetch_push hroute]
  rcases Classical.em (checkAuth W.relay request = none ∧ checkPeerAuth W.relay request = none) with
    ⟨hauth, hpeer⟩ | hrefused
  · have hpush : PushRequest W.relay request entries :=
      ⟨hpath, hmethod, hauth, hpeer, parsed, hbody, hentries⟩
    obtain ⟨hreports, hstored⟩ :=
      routePush_reports hnode hzero hpush hread hgrouped hgroups wenv w
    obtain ⟨hreports', hstored'⟩ := serve_reports hzero hpush
      (fun value hvalue => open_of_forwardable (hread value hvalue) rfl) env s
    rw [hcells] at hreports hstored
    exact ⟨sameCounts_of_reports hreports hreports',
      fun room => congrFun (hstored.trans hstored'.symm) room⟩
  · have hroutePush : W.routePush request wenv w = (unauthorizedResponse, w) := by
      cases hlist : grouped.entries with
      | nil =>
        rw [routePush_none (hgroups.trans (if_pos hlist))]
        exact forward_refused (hnode _) hpath hmethod hrefused
      | cons g rest =>
        rw [hlist, if_neg (List.cons_ne_nil g rest)] at hgroups
        cases rest with
        | nil =>
          rw [routePush_one hgroups]
          exact forward_refused (hnode _) hpath hmethod hrefused
        | cons g' rest =>
          have hfirst : W.forward g.1 (groupRequest W.relay.platform request g.1 g.2) wenv w =
              (unauthorizedResponse, w) := forward_refused (hnode _) hpath hmethod hrefused
          rw [routePush_many hgroups, forwardGroups_cons, hfirst]
          rfl
    rw [hroutePush, serve_push_refused hpath hmethod hrefused]
    exact ⟨⟨rfl, fun _ _ => rfl, fun _ => rfl⟩, hlogs⟩

end

/-! ## On the toy host -/

/-- A worker whose objects all carry the node id of the options. -/
def toySplitWorker : Worker Unit where
  relay := .toy .default
  nodeId _ := (Relay.toy .default).config.relayNodeId
  elsewhere _ := notFoundResponse

def toySplitEntry (room id topic : String) : JsonValue := .obj [
  ("room", .str room), ("id", .str id), ("sender", .str "alice"), ("topic", .str topic),
  ("payload", .num .posInf), ("origin", .str "relay-b"), ("hop_count", .ofNat 1)]

/-- Two rooms in turn, with a duplicate and a topic that is refused. -/
def toySplitEntries : List JsonValue := [
  toySplitEntry "main" "a" "notify", toySplitEntry "lobby" "a" "notify",
  toySplitEntry "main" "a" "notify", toySplitEntry "lobby" "b" "no topic"]

theorem forwardable_toySplitEntries :
    ∀ value ∈ toySplitEntries, Forwardable toySplitWorker.relay (toyPush toySplitEntries) value := by
  intro value hvalue
  simp only [toySplitEntries, List.mem_cons, List.not_mem_nil, or_false] at hvalue
  rcases hvalue with rfl | rfl | rfl | rfl <;>
    exact ⟨_, rfl, by decide, fun h => h.2 rfl⟩

theorem split_push_agrees_toy :
    (toySplitWorker.fetch (toyPush toySplitEntries) (fun _ => .at 0) fun _ => .init ()).1.SameCounts
        (serve toySplitWorker.relay (toyPush toySplitEntries) (.at 0) (.init ())).1 ∧
      ∀ room, (((toySplitWorker.fetch (toyPush toySplitEntries) (fun _ => .at 0)
          fun _ => .init ()).2 room).roomOf room).messages.map Envelope.stored =
        ((serve toySplitWorker.relay (toyPush toySplitEntries) (.at 0)
          (.init ())).2.roomOf room).messages.map Envelope.stored :=
  split_push_agrees toySplitWorker rfl (fun _ => rfl) (by decide) rfl rfl
    forwardable_toySplitEntries _ _ fun _ => rfl

end BitRelay
