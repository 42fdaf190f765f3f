import BitRelay.Exchange.Peering
import Mathlib.Data.List.Dedup

/-!
# One entry blocks a batch

The worker pushes a pulled batch as a whole, and takes any status but 200 for a failure of all of
it. One entry for a room with a token ends the push with 403, and the worker stays where it is.

Results:
1. `batchInvariant_step`: an entry behind the others leaves what they left in the room logs.
2. `replicates_iff`: a batch is replicated, and the cursor moves behind it, if it is empty, or is
   not blocked and names no room more messages than it keeps; and only then, but for batches that
   name messages the room holds already.
-/

namespace BitRelay

section
variable {C : Type}

/-! ## Replication -/

/-- A turn of the worker, from the head of its loop: the peer is pulled, and the relay, which is in
the state `s` by then, serves the push. -/
def syncPeer (R : Relay C) (env : Env) (w : CacheSyncWorker JsonValue) (summary : CacheSyncSummary)
    (peer : String) (rest : List String) (outcome : PullOutcome) (s : ServiceState C) :
    CacheSyncWorker JsonValue × ServiceState C :=
  let pulling := (w.nextPeer summary (peer :: rest)).2
  let pulled := (pulling.pullSettles (pullFromPeer (w.cursorFor peer) outcome)).2
  match pulled.inFlight with
  | some ⟨_, _, .pushing _ entries _, _⟩ =>
    let (ok, s') := pushEntriesToLocal R env entries s
    ((pulled.pushSettles ok).2, s')
  | _ => (pulled, s)

/-- The relay accepts the entry when it is pushed on its own. -/
def AcceptsAlone (R : Relay C) (env : Env) (s : ServiceState C) (value : JsonValue) : Prop :=
  (serve R (localPush R [value]) env s).1.status = 200 ∧
    (serve R (localPush R [value]) env s).1.body.get? "accepted" = some (.ofNat 1)

instance (R : Relay C) (env : Env) (s : ServiceState C) (value : JsonValue) :
    Decidable (AcceptsAlone R env s value) :=
  inferInstanceAs (Decidable (_ ∧ _))

/-- Behind a turn from the state `s`: what the relay would have accepted alone is in its logs, and
the cursor has moved behind the batch. -/
structure Replicated (R : Relay C) (env : Env) (entries : List JsonValue) (peer : String)
    (s : ServiceState C) (turn : CacheSyncWorker JsonValue × ServiceState C) : Prop where
  present : ∀ value ∈ entries, AcceptsAlone R env s value → ∀ incoming,
    parseIncomingCacheExchangeEntry value R.config.cacheExchangeMaxHops = .ok incoming →
    turn.2.Holds incoming.room incoming.id
  advanced : ∀ value ∈ entries, ∀ n ∈ entryCursor value, n ≤ turn.1.cursorFor peer

section
variable (R : Relay C) (s : ServiceState C) (room : String) (entries : List JsonValue)

/-- The id that an entry brings to the room, unless it is refused. -/
def takenId (value : JsonValue) : Option String :=
  match parseIncomingCacheExchangeEntry value R.config.cacheExchangeMaxHops with
  | .ok incoming =>
    if refusesEntry R incoming = none ∧ incoming.room = room then some incoming.id else none
  | .error _ => none

/-- The ids that a batch brings to the room, each once. -/
def takenIds : List String := (entries.filterMap (takenId R room)).dedup

instance (room id : String) : Decidable (s.Holds room id) :=
  inferInstanceAs (Decidable (∃ _ ∈ _, _))

/-- Those of them that are new to the room. -/
def freshIds : List String := (takenIds R room entries).filter fun id => decide ¬ s.Holds room id

/-- The messages that a batch brings to a room fit into its log. -/
def FitsRooms : Prop :=
  ∀ room, (takenIds R room entries).length ≤ R.config.maxMessagesPerRoom

/-- The new messages that a batch brings to a room fit into its log. -/
def FitsFresh : Prop :=
  ∀ room, (freshIds R s room entries).length ≤ R.config.maxMessagesPerRoom

/-- No entry names a message that its room holds. -/
def NamesNew : Prop := ∀ room, ∀ id ∈ takenIds R room entries, ¬ s.Holds room id

end

/-! ## The room logs behind a batch -/

/-- The room log is a part of the one of `s₀` followed by new messages with ids of the list. -/
def Grown (s₀ s : ServiceState C) (room : String) (ids : List String) : Prop :=
  ∃ kept new, (s.roomOf room).messages = kept ++ new ∧
    (∀ m ∈ kept, m ∈ (s₀.roomOf room).messages) ∧ (new.map Envelope.id).Nodup ∧
    ∀ m ∈ new, m.id ∈ ids

namespace BlockingLemmas

variable {R : Relay C} {s₀ s s' : ServiceState C} {room id : String} {ids : List String}
  {entries : List JsonValue} {value : JsonValue}

theorem fitsRooms_of_fresh (hnew : NamesNew R s entries) (h : FitsFresh R s entries) :
    FitsRooms R entries := by
  intro room
  have hall : freshIds R s room entries = takenIds R room entries :=
    List.filter_eq_self.mpr fun id hid => decide_eq_true (hnew room id hid)
  rw [← hall]
  exact h room

theorem mem_takenIds :
    id ∈ takenIds R room entries ↔ ∃ value ∈ entries, takenId R room value = some id := by
  unfold takenIds
  rw [List.mem_dedup, List.mem_filterMap]

theorem takenId_eq_some {incoming : IncomingExchangeEntry}
    (hread : parseIncomingCacheExchangeEntry value R.config.cacheExchangeMaxHops = .ok incoming)
    (hnone : refusesEntry R incoming = none) :
    takenId R incoming.room value = some incoming.id := by
  unfold takenId
  rw [hread]
  exact if_pos ⟨hnone, rfl⟩

theorem exists_of_takenId (h : takenId R room value = some id) : ∃ incoming,
    parseIncomingCacheExchangeEntry value R.config.cacheExchangeMaxHops = .ok incoming ∧
      refusesEntry R incoming = none ∧ incoming.room = room ∧ incoming.id = id := by
  unfold takenId at h
  split at h
  · next incoming hread =>
    split at h
    · next htaken => exact ⟨incoming, hread, htaken.1, htaken.2, Option.some.inj h⟩
    · cases h
  · cases h

theorem takenIds_length_le {entries' : List JsonValue} (h : entries ⊆ entries') (room : String) :
    (takenIds R room entries).length ≤ (takenIds R room entries').length := by
  refine (List.subperm_of_subset (List.nodup_dedup _) fun id hid => ?_).length_le
  obtain ⟨value, hvalue, htaken⟩ := mem_takenIds.mp hid
  exact mem_takenIds.mpr ⟨value, h hvalue, htaken⟩

theorem grown_mono {ids' : List String} (h : Grown s₀ s room ids) (hle : ids ⊆ ids') :
    Grown s₀ s room ids' := by
  obtain ⟨kept, new, hmessages, hkept, hnodup, hids⟩ := h
  exact ⟨kept, new, hmessages, hkept, hnodup, fun m hm => hle (hids m hm)⟩

/-- A message that finds its place among the new ones pushes out old ones only. -/
theorem grown_push (kept : List Envelope) {new : List Envelope} {cap : Nat} (envelope : Envelope)
    (h : new.length + 1 ≤ cap) :
    ∃ k, pushMessage (kept ++ new) envelope cap = kept.drop k ++ (new ++ [envelope]) := by
  refine ⟨(kept ++ new ++ [envelope]).length - cap, ?_⟩
  unfold pushMessage
  rw [List.append_assoc, List.drop_append_of_le_length]
  simp only [List.length_append, List.length_cons, List.length_nil]
  omega

/-- One more message with an id of the list leaves what was new there. -/
theorem grown_logStep {W : Write → Prop} (hstep : LogStep R W s s')
    (hW : ∀ w, W w → w.room = room → w.id ∈ ids) (hfit : ids.length ≤ R.config.maxMessagesPerRoom)
    (h : Grown s₀ s room ids) :
    Grown s₀ s' room ids ∧ ∀ id, ¬ s₀.Holds room id → s.Holds room id → s'.Holds room id := by
  obtain ⟨kept, new, hmessages, hkept, hnodup, hids⟩ := h
  cases hstep with
  | same hsame =>
    refine ⟨⟨kept, new, (hsame.messages room).trans hmessages, hkept, hnodup, hids⟩, ?_⟩
    exact fun id _ hholds => (PushLemmas.holds_congr hsame room id).mpr hholds
  | appended w hw happended =>
    by_cases hroom : room = w.room
    · subst hroom
      have hnodup' : ((new ++ [w.envelope]).map Envelope.id).Nodup := by
        rw [List.map_append, List.nodup_append]
        refine ⟨hnodup, List.nodup_singleton _, fun id hid id' hid' heq => ?_⟩
        obtain ⟨m, hm, rfl⟩ := List.mem_map.mp hid
        obtain rfl := List.mem_singleton.mp hid'
        exact happended.fresh ⟨m, hmessages ▸ List.mem_append_right _ hm, heq⟩
      have hids' : ∀ m ∈ new ++ [w.envelope], m.id ∈ ids := by
        intro m hm
        rcases List.mem_append.mp hm with hm | hm
        · exact hids m hm
        · rw [List.mem_singleton.mp hm]
          exact hW w hw rfl
      -- The new messages are as many as their ids.
      have hlength : (new ++ [w.envelope]).length ≤ ids.length := by
        have hsub := (List.subperm_of_subset hnodup' fun id hid => by
          obtain ⟨m, hm, rfl⟩ := List.mem_map.mp hid
          exact hids' m hm : ((new ++ [w.envelope]).map Envelope.id).Subperm ids).length_le
        rwa [List.length_map] at hsub
      rw [List.length_append] at hlength
      obtain ⟨k, hpush⟩ := grown_push kept w.envelope (hlength.trans hfit)
      have hnew : (s'.roomOf w.room).messages = kept.drop k ++ (new ++ [w.envelope]) := by
        rw [happended.messages, hmessages, hpush]
      refine ⟨⟨_, _, hnew, fun m hm => hkept m (List.mem_of_mem_drop hm), hnodup', hids'⟩, ?_⟩
      rintro id hfresh ⟨m, hm, hid⟩
      rw [hmessages] at hm
      rcases List.mem_append.mp hm with hold | hm
      · exact absurd ⟨m, hkept m hold, hid⟩ hfresh
      · refine ⟨m, ?_, hid⟩
        rw [hnew]
        exact List.mem_append_right _ (List.mem_append_left _ hm)
    · have hsame := happended.others room hroom
      refine ⟨⟨kept, new, hsame.trans hmessages, hkept, hnodup, hids⟩, ?_⟩
      rintro id _ ⟨m, hm, hid⟩
      exact ⟨m, hsame ▸ hm, hid⟩

/-- The room log has not changed, or it is cut to its cap. -/
def Cut (R : Relay C) (s₀ s : ServiceState C) (room : String) : Prop :=
  (s.roomOf room).messages = (s₀.roomOf room).messages ∨
    (s.roomOf room).messages.length ≤ R.config.maxMessagesPerRoom

theorem cut_logStep {W : Write → Prop} (hstep : LogStep R W s s') (h : Cut R s₀ s room) :
    Cut R s₀ s' room := by
  have hother : (s'.roomOf room).messages = (s.roomOf room).messages → Cut R s₀ s' room :=
    fun hsame => by
      unfold Cut
      rw [hsame]
      exact h
  cases hstep with
  | same hsame => exact hother (hsame.messages room)
  | appended w _ happended =>
    by_cases hroom : room = w.room
    · subst hroom
      refine .inr ?_
      rw [happended.messages]
      unfold pushMessage
      rw [List.length_drop]
      omega
    · exact hother (happended.others room hroom)

end BlockingLemmas

open BlockingLemmas

/-- Behind the entries `done` of a batch that fits into the rooms: the new messages are all there,
and so is every entry that is not refused and whose id was not known. -/
structure BatchInvariant (R : Relay C) (s₀ : ServiceState C) (done : List JsonValue)
    (s : ServiceState C) : Prop where
  grown : ∀ room, Grown s₀ s room (takenIds R room done)
  holds : ∀ value ∈ done, ∀ incoming,
    parseIncomingCacheExchangeEntry value R.config.cacheExchangeMaxHops = .ok incoming →
    refusesEntry R incoming = none → ¬ s₀.Holds incoming.room incoming.id →
    s.Holds incoming.room incoming.id

theorem batchInvariant_step {R : Relay C} {s₀ s s' : ServiceState C} {done : List JsonValue}
    {value : JsonValue} (hstep : EntryStep R value s s')
    (h : FitsRooms R done → BatchInvariant R s₀ done s) (hfits : FitsRooms R (done ++ [value])) :
    BatchInvariant R s₀ (done ++ [value]) s' := by
  have hsub : done ⊆ done ++ [value] := List.subset_append_left _ _
  have hinv := h fun room => (takenIds_length_le hsub room).trans (hfits room)
  have hids : ∀ room, takenIds R room done ⊆ takenIds R room (done ++ [value]) := by
    intro room id hid
    obtain ⟨v, hv, htaken⟩ := mem_takenIds.mp hid
    exact mem_takenIds.mpr ⟨v, hsub hv, htaken⟩
  -- A write into the room is one for an entry that the room takes.
  have htaken : ∀ room w, (∃ incoming, PushedWrite R value incoming w) → w.room = room →
      w.id ∈ takenIds R room (done ++ [value]) := by
    rintro room w ⟨incoming, hpushed⟩ rfl
    have hnone : refusesEntry R incoming = none := by
      unfold refusesEntry
      rw [hpushed.name, hpushed.hops]
      rfl
    rw [hpushed.write]
    exact mem_takenIds.mpr ⟨value, by simp, takenId_eq_some hpushed.read hnone⟩
  have hroom : ∀ room, Grown s₀ s' room (takenIds R room (done ++ [value])) ∧
      ∀ id, ¬ s₀.Holds room id → s.Holds room id → s'.Holds room id := fun room =>
    grown_logStep hstep.log (htaken room) (hfits room) (grown_mono (hinv.grown room) (hids room))
  refine ⟨fun room => (hroom room).1, fun v hv incoming hincoming hnone hfresh => ?_⟩
  rcases List.mem_append.mp hv with hv | hv
  · exact (hroom _).2 _ hfresh (hinv.holds v hv incoming hincoming hnone hfresh)
  · rw [List.mem_singleton.mp hv] at hincoming
    exact hstep.holds incoming hincoming hnone

/-! ## A turn of the worker -/

namespace BlockingLemmas

open SyncWorkerLemmas PeeringLemmas

theorem ofNat_inj {m n : Nat} (h : JsonValue.ofNat m = JsonValue.ofNat n) : m = n := by
  have htrunc := congrArg JsNumber.truncInt? (JsonValue.num.inj h)
  unfold JsNumber.ofNat at htrunc
  rw [JsNumber.truncInt?_ofInt, JsNumber.truncInt?_ofInt] at htrunc
  exact Int.ofNat.inj (Option.some.inj htrunc)

/-- What is accepted alone: what is not refused and whose id is not in the log yet. -/
theorem acceptsAlone_iff {R : DenoRelay C} {env : Env} {s : ServiceState C} {value : JsonValue}
    {incoming : IncomingExchangeEntry} (h : Unblocked R.toRelay [value])
    (hread : parseIncomingCacheExchangeEntry value R.config.cacheExchangeMaxHops = .ok incoming) :
    AcceptsAlone R.toRelay env s value ↔
      refusesEntry R.toRelay incoming = none ∧ ¬ s.Holds incoming.room incoming.id := by
  have hpush := pushRequest_localPush R [value] h.peerToken
  obtain ⟨other, hother, hopen⟩ := (open_localPush_iff [value] hread).mpr
    (h.rooms value List.mem_cons_self incoming hread)
  cases (parse_normalize hread).symm.trans hother
  unfold AcceptsAlone
  rcases pushEntry_cases hother hopen 0 .zero s with
    ⟨reason, hrefused, hrun⟩ | ⟨hnone, counts, s', hrun, himported⟩
  · rw [serve_push_single hpush env hrun]
    constructor
    · rintro ⟨-, haccepted⟩
      exact (Nat.zero_ne_one (ofNat_inj (Option.some.inj haccepted))).elim
    · rintro ⟨hnone, -⟩
      cases hrefused.symm.trans hnone
  · rw [serve_push_single hpush env hrun]
    constructor
    · rintro ⟨-, haccepted⟩
      exact ⟨hnone, himported.accepted.mp (ofNat_inj (Option.some.inj haccepted))⟩
    · rintro ⟨-, hfresh⟩
      exact ⟨rfl, congrArg (fun n => some (JsonValue.ofNat n)) (himported.accepted.mpr hfresh)⟩

theorem unblocked_singleton {R : Relay C} {entries : List JsonValue} (h : Unblocked R entries)
    {value : JsonValue} (hvalue : value ∈ entries) : Unblocked R [value] := by
  refine ⟨h.peerToken, fun v hv => ?_⟩
  rw [List.mem_singleton.mp hv]
  exact h.rooms value hvalue

theorem takenIds_normalize {R : Relay C} {entries : List JsonValue}
    (hread : ∀ value ∈ entries, ∃ incoming,
      parseIncomingCacheExchangeEntry value R.config.cacheExchangeMaxHops = .ok incoming)
    (room : String) :
    takenIds R room (entries.map JsonValue.normalize) = takenIds R room entries := by
  unfold takenIds
  rw [List.filterMap_map]
  refine congrArg List.dedup (List.filterMap_congr fun value hvalue => ?_)
  obtain ⟨incoming, hincoming⟩ := hread value hvalue
  have hnormal := parse_normalize hincoming
  unfold takenId
  simp only [Function.comp_apply, hincoming, hnormal]
  rfl

/-- The turn in which a batch was pulled ends as its push does. -/
theorem syncPeer_answered {R : Relay C} {w : CacheSyncWorker JsonValue} {peer : String}
    {response : Response} {entries : List JsonValue}
    (h : PullAnswer R (w.cursorFor peer) response entries) (hne : entries ≠ []) (env : Env)
    (summary : CacheSyncSummary) (rest : List String) (s : ServiceState C) :
    (syncPeer R env w summary peer rest (.answered response) s).2 =
      (pushEntriesToLocal R env entries s).2 ∧
    (syncPeer R env w summary peer rest (.answered response) s).1.cursorFor peer =
      if (pushEntriesToLocal R env entries s).1 then
        max (w.cursorFor peer) (CacheSyncWorker.toCursor
          (parseCacheExchangePullBody response.body).nextCursor (w.cursorFor peer))
      else w.cursorFor peer := by
  obtain ⟨hpull, hentries⟩ := pullFromPeer_answered h
  have hempty : entries.isEmpty = false := List.isEmpty_eq_false_iff.mpr hne
  unfold syncPeer
  rw [hpull]
  unfold CacheSyncWorker.pullSettles CacheSyncWorker.nextPeer
  simp only [hentries, hempty, Bool.false_eq_true, if_false]
  refine ⟨trivial, ?_⟩
  unfold CacheSyncWorker.pushSettles
  simp only
  split
  · unfold CacheSyncWorker.finishPeer
    rw [cursorFor_nextPeer, cursorFor_set, if_pos rfl]
  · exact cursorFor_nextPeer _ _ _ _

end BlockingLemmas

namespace BlockingLemmas

variable {R : DenoRelay C} {env : Env} {w : CacheSyncWorker JsonValue} {summary : CacheSyncSummary}
  {peer : String} {rest : List String} {s : ServiceState C} {response : Response}
  {entries : List JsonValue} (h : PullAnswer R.toRelay (w.cursorFor peer) response entries)
  (hne : entries ≠ [])
include h hne

/-- A batch that is blocked leaves the cursor in front of its entries. -/
theorem unblocked_of_replicated (hreplicated : Replicated R.toRelay env entries peer s
      (syncPeer R.toRelay env w summary peer rest (.answered response) s)) :
    Unblocked R.toRelay entries := by
  by_contra hblocked
  obtain ⟨-, hcursor⟩ := syncPeer_answered h hne env summary rest s
  rw [pushEntriesToLocal_blocked h.wellFormed hblocked s] at hcursor
  obtain ⟨value, hvalue⟩ := List.exists_mem_of_ne_nil _ hne
  obtain ⟨n, hn, hlt, -⟩ := h.cursor value hvalue
  have hle := hreplicated.advanced value hvalue n hn
  rw [hcursor] at hle
  exact absurd hle (Nat.not_le.mpr hlt)

/-- The new messages that are all there fit into the log. -/
theorem fitsFresh_of_replicated (hunblocked : Unblocked R.toRelay entries)
    (hreplicated : Replicated R.toRelay env entries peer s
      (syncPeer R.toRelay env w summary peer rest (.answered response) s)) :
    FitsFresh R.toRelay s entries := by
  intro room
  obtain ⟨hstate, -⟩ := syncPeer_answered h hne env summary rest s
  obtain ⟨s', hpush, hcut⟩ := pushEntriesToLocal_open env h.wellFormed
    (P := fun _ s' => Cut R.toRelay s s' room)
    (fun done value s₁ s₂ hstep hcut => cut_logStep hstep.log hcut) hunblocked s (.inl rfl)
  rw [hpush] at hstate
  have hpresent : ∀ id ∈ freshIds R.toRelay s room entries, ¬ s.Holds room id ∧
      s'.Holds room id := by
    intro id hid
    obtain ⟨htaken, hfresh⟩ := List.mem_filter.mp hid
    have hfresh := of_decide_eq_true hfresh
    obtain ⟨value, hvalue, htaken⟩ := mem_takenIds.mp htaken
    obtain ⟨incoming, hincoming, hnone, rfl, rfl⟩ := exists_of_takenId htaken
    have halone : AcceptsAlone R.toRelay env s value :=
      (acceptsAlone_iff (unblocked_singleton hunblocked hvalue) hincoming).mpr ⟨hnone, hfresh⟩
    have hheld := hreplicated.present value hvalue halone incoming hincoming
    rw [hstate] at hheld
    exact ⟨hfresh, hheld⟩
  rcases hcut with hsame | hlength
  · -- Nothing has come in, so there was nothing new.
    cases hids : freshIds R.toRelay s room entries with
    | nil => exact Nat.zero_le _
    | cons id rest =>
      obtain ⟨hfresh, m, hm, hmid⟩ := hpresent id (by simp [hids])
      exact absurd ⟨m, hsame ▸ hm, hmid⟩ hfresh
  · have hnodup : (freshIds R.toRelay s room entries).Nodup := (List.nodup_dedup _).filter _
    have hsub : (freshIds R.toRelay s room entries).length ≤
        ((s'.roomOf room).messages.map Envelope.id).length :=
      (List.subperm_of_subset hnodup fun id hid => by
        obtain ⟨-, m, hm, hmid⟩ := hpresent id hid
        exact List.mem_map.mpr ⟨m, hm, hmid⟩).length_le
    rw [List.length_map] at hsub
    exact hsub.trans hlength

theorem replicated_of_fits (hunblocked : Unblocked R.toRelay entries)
    (hfits : FitsRooms R.toRelay entries) : Replicated R.toRelay env entries peer s
      (syncPeer R.toRelay env w summary peer rest (.answered response) s) := by
  obtain ⟨hstate, hcursor⟩ := syncPeer_answered h hne env summary rest s
  obtain ⟨s', hpush, hinv⟩ := pushEntriesToLocal_open env h.wellFormed
    (P := fun done s' => FitsRooms R.toRelay done → BatchInvariant R.toRelay s done s')
    (fun done value s₁ s₂ hstep hP hfits => batchInvariant_step hstep hP hfits) hunblocked s
    (fun _ => ⟨fun room => ⟨_, [], (List.append_nil _).symm, fun m hm => hm, List.nodup_nil,
      fun _ hm => absurd hm List.not_mem_nil⟩, fun _ hv => absurd hv List.not_mem_nil⟩)
  have hbatch := hinv fun room => by
    rw [takenIds_normalize h.wellFormed]
    exact hfits room
  rw [hpush] at hstate hcursor
  refine ⟨fun value hvalue haccepts incoming hincoming => ?_, fun value hvalue n hn => ?_⟩
  · obtain ⟨hnone, hfresh⟩ :=
      (acceptsAlone_iff (unblocked_singleton hunblocked hvalue) hincoming).mp haccepts
    rw [hstate]
    exact hbatch.holds _ (List.mem_map_of_mem hvalue)
      { incoming with payload := incoming.payload.normalize } (parse_normalize hincoming) hnone
      hfresh
  · obtain ⟨m, hm, -, hle⟩ := h.cursor value hvalue
    cases hm.symm.trans hn
    rw [hcursor, if_pos rfl]
    exact hle.trans (Nat.le_max_right _ _)

end BlockingLemmas

/-- **One entry blocks a batch.** A batch is replicated if it is empty, or the relay lets its own
push through (it asks for no other peer token, and no entry of the batch is for a room with a token)
and the batch names no room more messages than its log keeps; and only then, if it names no message
that its room holds already. -/
theorem replicates_iff (R : DenoRelay C) (env : Env) (w : CacheSyncWorker JsonValue)
    (summary : CacheSyncSummary) (peer : String) (rest : List String) (s : ServiceState C)
    {response : Response} {entries : List JsonValue}
    (h : PullAnswer R.toRelay (w.cursorFor peer) response entries) :
    let turn := syncPeer R.toRelay env w summary peer rest (.answered response) s
    (Replicated R.toRelay env entries peer s turn →
      entries = [] ∨ Unblocked R.toRelay entries ∧ FitsFresh R.toRelay s entries) ∧
    (entries = [] ∨ Unblocked R.toRelay entries ∧ FitsRooms R.toRelay entries →
      Replicated R.toRelay env entries peer s turn) ∧
    (NamesNew R.toRelay s entries → (Replicated R.toRelay env entries peer s turn ↔
      entries = [] ∨ Unblocked R.toRelay entries ∧ FitsRooms R.toRelay entries)) := by
  intro turn
  have hneeds : Replicated R.toRelay env entries peer s turn →
      entries = [] ∨ Unblocked R.toRelay entries ∧ FitsFresh R.toRelay s entries := by
    intro hreplicated
    by_cases hne : entries = []
    · exact .inl hne
    · have hunblocked := unblocked_of_replicated h hne hreplicated
      exact .inr ⟨hunblocked, fitsFresh_of_replicated h hne hunblocked hreplicated⟩
  have henough : entries = [] ∨ Unblocked R.toRelay entries ∧ FitsRooms R.toRelay entries →
      Replicated R.toRelay env entries peer s turn := by
    intro hcondition
    by_cases hne : entries = []
    · subst hne
      exact ⟨fun _ hv => absurd hv List.not_mem_nil, fun _ hv => absurd hv List.not_mem_nil⟩
    · obtain ⟨hunblocked, hfits⟩ := hcondition.resolve_left hne
      exact replicated_of_fits h hne hunblocked hfits
  refine ⟨hneeds, henough, fun hnew => ⟨fun hreplicated => ?_, henough⟩⟩
  exact (hneeds hreplicated).imp_right (And.imp_right (fitsRooms_of_fresh hnew))

end

/-! ## On the toy host -/

/-- A relay with the node id `relay-b` and one room with a token. -/
def DenoRelay.toy : DenoRelay Unit where
  toRelay := .toy { RelayConfig.default with
    requireSignatures := false
    roomTokens := (∅ : OrdMap String String).set "secret" "t"
    roomTokens_normal := by
      intro room token h
      rw [OrdMap.get?_set] at h
      split at h
      · next heq =>
        cases h
        rw [heq]
        decide
      · cases h
    relayNodeId := "relay-b"
    cacheExchangeMaxHops := 3 }
  nodeId_valid := by decide
  maxHops_pos := by decide
  authToken_trimmed := by decide
  peerAuthToken_trimmed := by decide

/-- The record of a peer that took a message into a room. -/
def toyRecord (cursor : Nat) (room : String) : CacheExchangeRecord :=
  ⟨cursor, ⟨room, "m1", "alice", "notify", .null, none⟩, "relay-a", 0, 3⟩

theorem toyRecord_sound (cursor : Nat) {room : String} (h : isValidRoomName room = true) :
    (toyRecord cursor room).Sound where
  room := h
  topic := show isValidTopic "notify" = true by decide
  id := show FreeText "m1" by decide
  sender := show FreeText "alice" by decide
  signature _ hnone := by cases hnone
  origin := show FreeText "relay-a" by decide
  hopCount := show 0 < 3 by decide

def toyRecords (rooms : List String) : List CacheExchangeRecord :=
  rooms.mapIdx fun i room => toyRecord (i + 1) room

def toyEntries (rooms : List String) : List JsonValue :=
  (toyRecords rooms).map fun record => (exportEntry record).wire

def toyAnswer (rooms : List String) : Response :=
  ⟨200, .obj [("next_cursor", .ofNat rooms.length), ("entries", .arr (toyEntries rooms))]⟩

/-- The worker of a relay with one peer, before its first round. -/
def toyWorker : CacheSyncWorker JsonValue := .createCacheSyncWorker ["http://relay-a"] none

def toyTurn (rooms : List String) : CacheSyncWorker JsonValue × ServiceState Unit :=
  syncPeer DenoRelay.toy.toRelay (.at 0) toyWorker ⟨false, 0, 0, 0, []⟩ "http://relay-a" []
    (.answered (toyAnswer rooms)) (.init ())

theorem pullAnswer_toyAnswer {rooms : List String} (h : ∀ room ∈ rooms, isValidRoomName room = true) :
    PullAnswer DenoRelay.toy.toRelay (toyWorker.cursorFor "http://relay-a") (toyAnswer rooms)
      (toyEntries rooms) := by
  have hrecord : ∀ value ∈ toyEntries rooms, ∃ record : CacheExchangeRecord,
      record.Sound ∧ value = (exportEntry record).wire ∧ 0 < record.cursor ∧
        record.cursor ≤ rooms.length := by
    intro value hvalue
    obtain ⟨record, hrecord, rfl⟩ := List.mem_map.mp hvalue
    obtain ⟨i, hi, rfl⟩ := List.mem_mapIdx.mp hrecord
    exact ⟨_, toyRecord_sound _ (h _ (List.getElem_mem hi)), rfl, Nat.succ_pos i, hi⟩
  refine ⟨rfl, rfl, fun value hvalue => ?_, fun value hvalue => ?_⟩
  · obtain ⟨record, hsound, rfl, -, -⟩ := hrecord value hvalue
    exact ⟨_, parse_wire hsound _⟩
  · obtain ⟨record, -, rfl, hpos, hle⟩ := hrecord value hvalue
    exact ⟨record.cursor, PeeringLemmas.entryCursor_wire _, hpos,
      hle.trans_eq (PeeringLemmas.nextCursor_of_body _ rfl).symm⟩

theorem replicates_iff_main :
    (Replicated DenoRelay.toy.toRelay (.at 0) (toyEntries ["main", "other"]) "http://relay-a"
      (.init ()) (toyTurn ["main", "other"]) →
        toyEntries ["main", "other"] = [] ∨
          Unblocked DenoRelay.toy.toRelay (toyEntries ["main", "other"]) ∧
            FitsFresh DenoRelay.toy.toRelay (.init ()) (toyEntries ["main", "other"])) ∧
    (toyEntries ["main", "other"] = [] ∨
      Unblocked DenoRelay.toy.toRelay (toyEntries ["main", "other"]) ∧
        FitsRooms DenoRelay.toy.toRelay (toyEntries ["main", "other"]) →
        Replicated DenoRelay.toy.toRelay (.at 0) (toyEntries ["main", "other"]) "http://relay-a"
          (.init ()) (toyTurn ["main", "other"])) ∧
    (NamesNew DenoRelay.toy.toRelay (.init ()) (toyEntries ["main", "other"]) →
      (Replicated DenoRelay.toy.toRelay (.at 0) (toyEntries ["main", "other"]) "http://relay-a"
          (.init ()) (toyTurn ["main", "other"]) ↔
        toyEntries ["main", "other"] = [] ∨
          Unblocked DenoRelay.toy.toRelay (toyEntries ["main", "other"]) ∧
            FitsRooms DenoRelay.toy.toRelay (toyEntries ["main", "other"]))) :=
  replicates_iff DenoRelay.toy (.at 0) toyWorker ⟨false, 0, 0, 0, []⟩ "http://relay-a" []
    (.init ()) (pullAnswer_toyAnswer (by decide))

/-- The second message of the batch would be accepted alone. It stands behind one for a room with a
token, and so it is not taken, and the worker stays where it is. -/
theorem guarded_entry_blocks :
    PullAnswer DenoRelay.toy.toRelay (toyWorker.cursorFor "http://relay-a")
      (toyAnswer ["secret", "main"]) (toyEntries ["secret", "main"]) ∧
    AcceptsAlone DenoRelay.toy.toRelay (.at 0) (.init ())
      ((toyEntries ["secret", "main"]).getD 1 .null) ∧
    ¬ (toyTurn ["secret", "main"]).2.Holds "main" "m1" ∧
    (toyTurn ["secret", "main"]).1.cursorFor "http://relay-a" = 0 :=
  ⟨pullAnswer_toyAnswer (by decide), by decide⟩

end BitRelay
