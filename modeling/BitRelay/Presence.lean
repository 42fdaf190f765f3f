import BitRelay.Interference
import BitRelay.Service.Reads

/-!
# What reading presence changes

A record of presence expires when its participant sends no heartbeat for a
while. It is deleted when the room is next read. Until then a heartbeat finds it
and is an update, and a deletion finds it and removes it. So a read can be
noticed: by the participants whose records had expired, until the next read of
the room.

Results:
1. `serve_presence`: a request about presence is refused whatever the state is,
   or it is one of three operations on the records of its room.
2. `answers_lag`: the run with a read and the run without it, side by side.
3. `reads_unseen_iff`: when a read changes no answer, and that reads at many
   places change none.
4. `read_seen`: an expired participant is told that it joined, or that it did
   not, as the room was read or not.
-/

namespace BitRelay

/-! ## Requests about presence -/

section
variable {C : Type} (R : Relay C)

/-- The request shows the tokens of the relay and of its room, and names a room. -/
def Request.Admitted (request : Request) : Prop :=
  checkAuth R request = none ∧
    isValidRoomName (normalizeRoom (request.param "room")) = true ∧
    checkRoomToken R request (normalizeRoom (request.param "room")) = none

/-- The request lists the presence of the room. -/
def Request.ReadsPresence (request : Request) (room : String) : Prop :=
  request.Admitted R ∧ request.pathname = Endpoint.presence.path ∧ request.method = "GET" ∧
    normalizeRoom (request.param "room") = room

/-- The request is a heartbeat of the participant in the room, or deletes the participant. -/
def Request.WritesPresence (request : Request) (room participant : String) : Prop :=
  request.Admitted R ∧
    (request.pathname = Endpoint.presenceHeartbeat.path ∧ request.method = "POST" ∧
        (∃ heartbeat, parseHeartbeat R request = .ok heartbeat) ∨
      request.pathname = Endpoint.presence.path ∧ request.method = "DELETE") ∧
    normalizeRoom (request.param "room") = room ∧
    request.paramTrim "participant" = participant ∧ participant ≠ ""

/-- The record has expired. -/
def ExpiredAt (nowSec : Int) (record : PresenceRecord) : Prop :=
  (R.config.presenceTtlSec : Int) ≤ nowSec - record.lastHeartbeat

/-- The calls hold a heartbeat or a deletion, before the room is next read, of a participant whose
record in `s` had expired when `read` was served. -/
def MeetsExpired (s : ServiceState C) (read : Call) (calls : List Call) : Prop :=
  let room := normalizeRoom (read.request.param "room")
  read.request.ReadsPresence R room ∧ ∃ pre call post participant record,
    calls = pre ++ call :: post ∧ call.request.WritesPresence R room participant ∧
    (s.roomOf room).presenceByParticipant.get? participant = some record ∧
    ExpiredAt R (nowEpochSec read.env.nowMs) record ∧
    ∀ other ∈ pre, ¬ other.request.ReadsPresence R room

end

/-! ## Operations -/

/-- What a request about presence does to the records of its room. -/
inductive PresenceOp
  | heartbeat (record : PresenceRecord)
  | delete (participant : String)
  | read (nowSec : Int)

namespace PresenceOp

/-- The participant whose record is written. -/
def writes : PresenceOp → Option String
  | heartbeat record => some record.participantId
  | delete participant => some participant
  | read _ => none

def apply (ttlSec : Nat) (records : OrdMap String PresenceRecord) :
    PresenceOp → OrdMap String PresenceRecord
  | heartbeat record => records.set record.participantId record
  | delete participant => records.erase participant
  | read nowSec => records.filter fun _ record =>
      decide (nowSec - record.lastHeartbeat < (ttlSec : Int))

def answer (room : String) (ttlSec : Nat) (records : OrdMap String PresenceRecord) :
    PresenceOp → Response
  | heartbeat record => okResponse [
      ("participant", .str record.participantId),
      ("status", .str record.status),
      ("event", .str (if !records.has record.participantId then "joined" else "updated"))]
  | delete participant => okResponse [
      ("participant", .str participant),
      ("removed", .bool (records.has participant))]
  | read nowSec => okResponse [
      ("room", .str room),
      ("participants", .arr (((read nowSec).apply ttlSec records).values.map
        PresenceRecord.toJson))]

/-- The operation is the one of the request. -/
def Of {C : Type} (R : Relay C) (request : Request) (env : Env) (op : PresenceOp) : Prop :=
  let room := normalizeRoom (request.param "room")
  match op with
  | heartbeat record => request.WritesPresence R room record.participantId ∧
      request.pathname = Endpoint.presenceHeartbeat.path
  | delete participant => request.WritesPresence R room participant ∧
      request.pathname = Endpoint.presence.path
  | read nowSec => request.ReadsPresence R room ∧ nowSec = nowEpochSec env.nowMs

end PresenceOp

namespace PresenceLemmas

open ReadsLemmas TouchLemmas

/-! ## One request -/

section
variable {C : Type} {R : Relay C} {request : Request} {env : Env}

/-- The request is refused whatever the state is, and neither reads nor writes presence. -/
structure Refused (R : Relay C) (request : Request) (env : Env) : Prop where
  noRead : ∀ other, ¬ request.ReadsPresence R other
  noWrite : ∀ other participant, ¬ request.WritesPresence R other participant
  answer : ∃ r : Response, ∀ s, serve R request env s = (r, s)

/-- The request is served as an operation on the records of its room. -/
structure Served (R : Relay C) (request : Request) (env : Env) (op : PresenceOp) : Prop where
  of : op.Of R request env
  serve : ∀ s, serve R request env s =
    (op.answer (normalizeRoom (request.param "room")) R.config.presenceTtlSec
        (s.roomOf (normalizeRoom (request.param "room"))).presenceByParticipant,
      s.putRoom (normalizeRoom (request.param "room"))
        { s.roomOf (normalizeRoom (request.param "room")) with
          presenceByParticipant := op.apply R.config.presenceTtlSec
            (s.roomOf (normalizeRoom (request.param "room"))).presenceByParticipant })

theorem paths_ne : Endpoint.presence.path ≠ Endpoint.presenceHeartbeat.path := by
  decide

/-- What writes presence on the path of heartbeats is a heartbeat that is read. -/
theorem heartbeat_of_writes (hpath : request.pathname = Endpoint.presenceHeartbeat.path)
    {other participant : String} (h : request.WritesPresence R other participant) :
    request.method = "POST" ∧ ∃ heartbeat, parseHeartbeat R request = .ok heartbeat := by
  obtain ⟨-, hbeat | hdelete, -⟩ := h
  · exact hbeat.2
  · exact absurd (hdelete.1.symm.trans hpath) paths_ne

theorem serve_heartbeat (env : Env) (hpath : request.pathname = Endpoint.presenceHeartbeat.path) :
    Refused R request env ∨ ∃ op, Served R request env op := by
  have hnoRead : ∀ other, ¬ request.ReadsPresence R other :=
    fun other hreads => paths_ne (hreads.2.1.symm.trans hpath)
  cases hparse : parseHeartbeat R request with
  | error r =>
    have hnoWrite : ∀ other participant, ¬ request.WritesPresence R other participant := by
      intro other participant hwrites
      obtain ⟨-, heartbeat, hok⟩ := heartbeat_of_writes hpath hwrites
      cases hparse.symm.trans hok
    have hgate : ∃ c, GatedBy c (fetch R request env) (Proc.answer r) := by
      refine ⟨_, gated_fetch env hpath <| .requireMethod <| .requireRoom <| .requireParam <|
        .of_eq ?_ (.refl _)⟩
      rw [hparse]
      rfl
    rcases hgate with ⟨c, ⟨-, r', -, hrefuses⟩ | ⟨-, hserves⟩⟩
    · exact .inl ⟨hnoRead, hnoWrite, r', hrefuses⟩
    · exact .inl ⟨hnoRead, hnoWrite, r, hserves⟩
  | ok parsed =>
    obtain ⟨status, metadata⟩ := parsed
    have hgate := gated_fetch (R := R) env hpath <| .requireMethod <| .requireRoom <|
      .requireParam <| .of_eq (congrArg (fun parsed => Proc.ofExcept parsed >>= _) hparse)
        (.refl _)
    rcases hgate with ⟨hshut, r, -, hrefuses⟩ | ⟨⟨hauth, hpost, hroom, hparam, -⟩, hserves⟩
    · refine .inl ⟨hnoRead, fun other participant hwrites => hshut ?_, r, hrefuses⟩
      have hpost := (heartbeat_of_writes hpath hwrites).1
      obtain ⟨⟨hauth, hroom⟩, -, -, rfl, hparam⟩ := hwrites
      exact ⟨hauth, hpost, hroom, hparam, trivial⟩
    · exact .inr ⟨.heartbeat ⟨request.paramTrim "participant", status, metadata,
        nowEpochSec env.nowMs⟩, ⟨⟨⟨hauth, hroom⟩, .inl ⟨hpath, hpost, _, hparse⟩, rfl, rfl,
        hparam⟩, hpath⟩, hserves⟩

/-- A deletion that has passed the gates of its path. -/
theorem serve_deletion (hpath : request.pathname = Endpoint.presence.path)
    (hdelete : request.method = "DELETE") (hopen : request.Admitted R)
    (hserves : ∀ s, serve R request env s = Handler.serve
      (handlePresenceDelete request (normalizeRoom (request.param "room"))) s) :
    Refused R request env ∨ ∃ op, Served R request env op := by
  generalize hname : normalizeRoom (request.param "room") = room at hserves
  have hparam : GatedBy (request.paramTrim "participant" ≠ "" ∧ True)
      (handlePresenceDelete request room : Handler C Response) (do
        let removed ← Proc.update fun s =>
          let roomState := s.roomOf room
          (roomState.presenceByParticipant.has (request.paramTrim "participant"),
            s.putRoom room { roomState with
              presenceByParticipant := roomState.presenceByParticipant.erase
                (request.paramTrim "participant") })
        return okResponse [
          ("participant", .str (request.paramTrim "participant")),
          ("removed", .bool removed)]) := .requireParam (.refl _)
  subst hname
  rcases hparam with ⟨hshut, r, -, hrefuses⟩ | ⟨⟨hparam, -⟩, hremoves⟩
  · refine .inl ⟨fun other hreads => ?_, fun other participant hwrites => hshut ?_, r,
      fun s => (hserves s).trans (hrefuses s)⟩
    · exact absurd (hreads.2.2.1.symm.trans hdelete) (by decide)
    · obtain ⟨-, -, -, rfl, hparam⟩ := hwrites
      exact ⟨hparam, trivial⟩
  · exact .inr ⟨.delete (request.paramTrim "participant"), ⟨⟨hopen, .inr ⟨hpath, hdelete⟩, rfl,
      rfl, hparam⟩, hpath⟩, fun s => (hserves s).trans (hremoves s)⟩

theorem serve_participants (env : Env) (hpath : request.pathname = Endpoint.presence.path) :
    Refused R request env ∨ ∃ op, Served R request env op := by
  have hgate := gated_fetch (R := R) env hpath <| .requireRoom <|
    .refl (if request.method = "GET" then
        handlePresenceGet R (normalizeRoom (request.param "room")) env
      else if request.method = "DELETE" then
        handlePresenceDelete request (normalizeRoom (request.param "room"))
      else Proc.answer methodNotAllowedResponse)
  rcases hgate with ⟨hshut, r, -, hrefuses⟩ | ⟨⟨hauth, hroom, -⟩, hserves⟩
  · refine .inl ⟨fun other hreads => hshut ?_, fun other participant hwrites => hshut ?_, r,
      hrefuses⟩
    · exact ⟨hreads.1.1, hreads.1.2, trivial⟩
    · exact ⟨hwrites.1.1, hwrites.1.2, trivial⟩
  rcases Decidable.em (request.method = "GET") with hget | hget
  · rw [if_pos hget] at hserves
    exact .inr ⟨.read (nowEpochSec env.nowMs), ⟨⟨⟨hauth, hroom⟩, hpath, hget, rfl⟩, rfl⟩, hserves⟩
  rw [if_neg hget] at hserves
  rcases Decidable.em (request.method = "DELETE") with hdelete | hdelete
  · rw [if_pos hdelete] at hserves
    exact serve_deletion hpath hdelete ⟨hauth, hroom⟩ hserves
  · rw [if_neg hdelete] at hserves
    refine .inl ⟨fun other hreads => hget hreads.2.2.1, fun other participant hwrites => ?_,
      methodNotAllowedResponse, hserves⟩
    obtain ⟨-, hbeat | hdeletes, -⟩ := hwrites
    · exact paths_ne (hpath.symm.trans hbeat.1)
    · exact hdelete hdeletes.2

/-- A request about presence is refused whatever the state is, or it is an operation on the records
of its room. -/
theorem serve_presence (env : Env) (hpath : request.pathname = Endpoint.presenceHeartbeat.path ∨
      request.pathname = Endpoint.presence.path) :
    Refused R request env ∨ ∃ op, Served R request env op := by
  rcases hpath with hbeat | hpresence
  · exact serve_heartbeat env hbeat
  · exact serve_participants env hpresence

end

/-! ## Records that are gone -/

/-- A write under a key that a filter keeps goes through the filter. -/
theorem filter_setEntries {κ ν : Type} [DecidableEq κ] {p : κ → Bool} {k : κ} (hk : p k = true)
    (v : ν) (l : List (κ × ν)) :
    (OrdMap.setEntries k v l).filter (fun e => p e.1) =
      OrdMap.setEntries k v (l.filter fun e => p e.1) := by
  induction l with
  | nil => exact List.filter_cons_of_pos hk
  | cons e rest ih =>
    obtain ⟨k', v'⟩ := e
    rcases Decidable.em (k' = k) with rfl | hne
    · simp [OrdMap.setEntries, hk]
    · cases hp : p k' with
      | true => simp [OrdMap.setEntries, hne, hp, ih]
      | false => simp [OrdMap.setEntries, hne, hp, ih]

/-- The records without those of the listed participants. -/
def without (gone : List String) (records : OrdMap String PresenceRecord) :
    OrdMap String PresenceRecord :=
  records.filter fun participant _ => decide (participant ∉ gone)

theorem has_without (gone : List String) (records : OrdMap String PresenceRecord)
    (participant : String) :
    (without gone records).has participant =
      (decide (participant ∉ gone) && records.has participant) := by
  rw [Bool.eq_iff_iff, Bool.and_eq_true, OrdMap.has_iff_mem_keys, OrdMap.has_iff_mem_keys]
  unfold without OrdMap.filter OrdMap.keys
  rw [List.mem_map, List.mem_map]
  constructor
  · rintro ⟨e, he, rfl⟩
    obtain ⟨hmem, hkeep⟩ := List.mem_filter.mp he
    exact ⟨hkeep, e, hmem, rfl⟩
  · rintro ⟨hkeep, e, hmem, rfl⟩
    exact ⟨e, List.mem_filter.mpr ⟨hmem, hkeep⟩, rfl⟩

variable {gone : List String} {records : OrdMap String PresenceRecord} {ttlSec : Nat}

/-- What is written about a participant that is still there is written, and answered, alike. -/
theorem apply_without_of_writes {op : PresenceOp} {participant : String} (ttlSec : Nat)
    (records : OrdMap String PresenceRecord)
    (hwrites : op.writes = some participant) (hkept : participant ∉ gone) (room : String) :
    op.answer room ttlSec (without gone records) = op.answer room ttlSec records ∧
      op.apply ttlSec (without gone records) = without gone (op.apply ttlSec records) := by
  have hhas : (without gone records).has participant = records.has participant := by
    rw [has_without, decide_eq_true hkept, Bool.true_and]
  cases op with
  | heartbeat record =>
    obtain rfl : record.participantId = participant := Option.some.inj hwrites
    refine ⟨?_, OrdMap.ext ?_⟩
    · unfold PresenceOp.answer
      dsimp only
      rw [hhas]
    · exact (filter_setEntries (p := fun k => decide (k ∉ gone)) (decide_eq_true hkept) record
        records.entries).symm
  | delete other =>
    obtain rfl : other = participant := Option.some.inj hwrites
    refine ⟨?_, OrdMap.ext ?_⟩
    · unfold PresenceOp.answer
      dsimp only
      rw [hhas]
    · show List.filter _ (List.filter _ _) = List.filter _ (List.filter _ _)
      rw [List.filter_filter, List.filter_filter]
      exact List.filter_congr fun e _ => Bool.and_comm _ _
  | read nowSec => cases hwrites

/-- What is written about a participant that is gone is answered in another way. -/
theorem answer_without_of_gone {op : PresenceOp} {participant : String}
    (hwrites : op.writes = some participant) (hgone : participant ∈ gone)
    (hhas : records.has participant = true) (room : String) :
    op.answer room ttlSec (without gone records) ≠ op.answer room ttlSec records := by
  have hmissing : (without gone records).has participant = false := by
    rw [has_without, decide_eq_false fun hkept => hkept hgone, Bool.false_and]
  intro heq
  cases op with
  | heartbeat record =>
    obtain rfl : record.participantId = participant := Option.some.inj hwrites
    have hevent := congrArg (fun r : Response => r.body.get? "event") heq
    unfold PresenceOp.answer at hevent
    dsimp only at hevent
    rw [hmissing, hhas] at hevent
    have hname : some (JsonValue.str "joined") = some (.str "updated") := hevent
    exact absurd hname (by decide)
  | delete other =>
    obtain rfl : other = participant := Option.some.inj hwrites
    have hremoved := congrArg (fun r : Response => r.body.get? "removed") heq
    unfold PresenceOp.answer at hremoved
    dsimp only at hremoved
    rw [hmissing, hhas] at hremoved
    have hflag : some (JsonValue.bool false) = some (.bool true) := hremoved
    exact absurd hflag (by decide)
  | read nowSec => cases hwrites

/-- A read finds nothing of expired records, whether they are gone or not. -/
theorem apply_read_without {nowSec : Int}
    (hexpired : ∀ participant ∈ gone, ∀ record, records.get? participant = some record →
      (ttlSec : Int) ≤ nowSec - record.lastHeartbeat) :
    (PresenceOp.read nowSec).apply ttlSec (without gone records) =
      (PresenceOp.read nowSec).apply ttlSec records := by
  refine OrdMap.ext ?_
  show List.filter _ (List.filter _ _) = List.filter _ _
  rw [List.filter_filter]
  refine List.filter_congr fun e he => ?_
  dsimp only
  rcases Decidable.em (e.1 ∈ gone) with hgone | hkept
  · have hold := hexpired e.1 hgone e.2 (OrdMap.get?_eq_some_iff.mpr he)
    rw [decide_eq_false (Int.not_lt.mpr hold), Bool.false_and]
  · rw [decide_eq_true hkept, Bool.and_true]

/-! ## Two runs -/

section
variable {C : Type} {R : Relay C}

/-- The first state is the second one, read a while ago: the records of the listed participants
are gone from the room, and they have expired. -/
structure Lag (R : Relay C) (room : String) (gone : List String) (nowSec : Int)
    (s t : ServiceState C) : Prop where
  rest : Touch [.presence] s t
  elsewhere : ∀ other, other ≠ room →
    (s.roomOf other).presenceByParticipant = (t.roomOf other).presenceByParticipant
  here : (s.roomOf room).presenceByParticipant =
    without gone (t.roomOf room).presenceByParticipant
  expired : ∀ participant ∈ gone, ∃ record,
    (t.roomOf room).presenceByParticipant.get? participant = some record ∧
      ExpiredAt R nowSec record

variable {room : String} {gone : List String} {nowSec : Int} {s t : ServiceState C}

theorem Lag.mono (h : Lag R room gone nowSec s t) {later : Int} (hle : nowSec ≤ later) :
    Lag R room gone later s t where
  rest := h.rest
  elsewhere := h.elsewhere
  here := h.here
  expired participant hgone := by
    obtain ⟨record, hget, hold⟩ := h.expired participant hgone
    unfold ExpiredAt at hold ⊢
    exact ⟨record, hget, by omega⟩

theorem answersOf_cons (s : ServiceState C) (call : Call) (rest : List Call) :
    answersOf R s (call :: rest) = (serve R call.request call.env s).1 ::
      answersOf R (serveCall R s call) rest := rfl

/-- States that differ in nothing answer alike from now on. -/
theorem answersOf_congr (h : Touch [] s t) (calls : List Call) :
    answersOf R s calls = answersOf R t calls := by
  induction calls generalizing s t with
  | nil => rfl
  | cons call rest ih =>
    obtain ⟨hanswer, hstate⟩ := reads_serve (R := R) call.env
      (fun _ _ part _ => List.not_mem_nil) h
    rw [answersOf_cons, answersOf_cons, hanswer]
    exact congrArg _ (ih hstate)

/-- Without a record that is gone the two states are the same. -/
theorem Lag.same (h : Lag R room [] nowSec s t) : Touch [] s t := by
  intro part _
  cases part with
  | presence =>
    intro other
    rcases Decidable.em (other = room) with rfl | hne
    · have hall : without [] (t.roomOf other).presenceByParticipant =
          (t.roomOf other).presenceByParticipant :=
        OrdMap.ext (List.filter_eq_self.mpr fun _ _ => decide_eq_true List.not_mem_nil)
      exact (h.here.trans hall).symm
    · exact (h.elsewhere other hne).symm
  | _ => exact h.rest _ (by decide)

/-- A request that is not about presence is answered alike, and the lag stays. -/
theorem lag_serve_other (h : Lag R room gone nowSec s t) {request : Request} (env : Env)
    (hbeat : request.pathname ≠ Endpoint.presenceHeartbeat.path)
    (hpresence : request.pathname ≠ Endpoint.presence.path) :
    (serve R request env s).1 = (serve R request env t).1 ∧
      Lag R room gone nowSec (serve R request env s).2 (serve R request env t).2 := by
  have hreads : ∀ endpoint, Endpoint.ofPath request.pathname = some endpoint →
      ∀ part ∈ endpoint.readsFrom, part ∉ [StatePart.presence] := by
    intro endpoint hendpoint part hpart hmem
    obtain rfl := List.mem_singleton.mp hmem
    cases endpoint with
    | presenceHeartbeat => exact hbeat (Endpoint.path_of hendpoint)
    | presence => exact hpresence (Endpoint.path_of hendpoint)
    | _ => exact absurd hpart (by decide)
  have hkept : ∀ u : ServiceState C, u.SamePart (serve R request env u).2 .presence := by
    intro u
    refine serve_touches request env u fun endpoint hendpoint hpart => ?_
    cases endpoint with
    | presenceHeartbeat => exact hbeat (Endpoint.path_of hendpoint)
    | presence => exact hpresence (Endpoint.path_of hendpoint)
    | _ => exact absurd hpart (by decide)
  obtain ⟨hanswer, hstate⟩ := reads_serve (R := R) env hreads h.rest
  refine ⟨hanswer, hstate, fun other hne => ?_, ?_, fun participant hgone => ?_⟩
  · rw [hkept s other, hkept t other, h.elsewhere other hne]
  · rw [hkept s room, hkept t room, h.here]
  · rw [hkept t room]
    exact h.expired participant hgone

/-- The same operation on both sides, in another room. -/
theorem lag_putRoom_other (h : Lag R room gone nowSec s t) {other : String} (hne : other ≠ room)
    (records : OrdMap String PresenceRecord) :
    Lag R room gone nowSec
      (s.putRoom other { s.roomOf other with presenceByParticipant := records })
      (t.putRoom other { t.roomOf other with presenceByParticipant := records }) := by
  have hrooms := apart_roomOf h.rest other
  refine ⟨apart_putRoom h.rest other ⟨hrooms.messages, hrooms.acks, fun _ => rfl, hrooms.reviews⟩,
    fun third hthird => ?_, ?_, fun participant hgone => ?_⟩
  · rcases Decidable.em (third = other) with rfl | hapart
    · rw [ServiceState.roomOf_putRoom_self, ServiceState.roomOf_putRoom_self]
    · rw [ServiceState.roomOf_putRoom_of_ne s hapart, ServiceState.roomOf_putRoom_of_ne t hapart,
        h.elsewhere third hthird]
  · rw [ServiceState.roomOf_putRoom_of_ne s hne.symm, ServiceState.roomOf_putRoom_of_ne t hne.symm,
      h.here]
  · rw [ServiceState.roomOf_putRoom_of_ne t hne.symm]
    exact h.expired participant hgone

/-- In the room itself the records may be replaced by ones that lag as well. -/
theorem lag_putRoom_self (h : Lag R room gone nowSec s t) {gone' : List String} {nowSec' : Int}
    {records records' : OrdMap String PresenceRecord} (hrecords : records = without gone' records')
    (hexpired : ∀ participant ∈ gone', ∃ record, records'.get? participant = some record ∧
      ExpiredAt R nowSec' record) :
    Lag R room gone' nowSec'
      (s.putRoom room { s.roomOf room with presenceByParticipant := records })
      (t.putRoom room { t.roomOf room with presenceByParticipant := records' }) := by
  have hrooms := apart_roomOf h.rest room
  refine ⟨apart_putRoom h.rest room ⟨hrooms.messages, hrooms.acks,
    fun hnot => absurd List.mem_cons_self hnot, hrooms.reviews⟩, fun other hne => ?_, ?_, ?_⟩
  · rw [ServiceState.roomOf_putRoom_of_ne s hne, ServiceState.roomOf_putRoom_of_ne t hne,
      h.elsewhere other hne]
  · rw [ServiceState.roomOf_putRoom_self, ServiceState.roomOf_putRoom_self]
    exact hrecords
  · rw [ServiceState.roomOf_putRoom_self]
    exact hexpired

/-- One of the listed participants is written about before the room is next read. -/
def WritesGone (R : Relay C) (room : String) (gone : List String) : List Call → Prop
  | [] => False
  | call :: rest => (∃ participant ∈ gone, call.request.WritesPresence R room participant) ∨
      ¬ call.request.ReadsPresence R room ∧ WritesGone R room gone rest

/-- A call that neither writes about one of them nor reads the room passes the question on. -/
theorem writesGone_cons {call : Call} {rest : List Call}
    (hwrites : ∀ participant ∈ gone, ¬ call.request.WritesPresence R room participant)
    (hreads : ¬ call.request.ReadsPresence R room) :
    WritesGone R room gone (call :: rest) ↔ WritesGone R room gone rest := by
  constructor
  · rintro (⟨participant, hgone, hwrite⟩ | ⟨-, hlater⟩)
    · exact absurd hwrite (hwrites participant hgone)
    · exact hlater
  · exact fun hlater => .inr ⟨hreads, hlater⟩

theorem writesPresence_of {request : Request} {env : Env} {op : PresenceOp}
    (hof : op.Of R request env) (hroom : normalizeRoom (request.param "room") = room)
    (participant : String) :
    request.WritesPresence R room participant ↔ op.writes = some participant := by
  subst hroom
  have hone : ∀ {other}, request.WritesPresence R (normalizeRoom (request.param "room")) other →
      (request.WritesPresence R (normalizeRoom (request.param "room")) participant ↔
        some other = some participant) := by
    intro other hwrites
    constructor
    · rintro ⟨-, -, -, rfl, -⟩
      exact congrArg some hwrites.2.2.2.1.symm
    · intro h
      cases h
      exact hwrites
  cases op with
  | heartbeat record => exact hone hof.1
  | delete other => exact hone hof.1
  | read nowSec =>
    refine ⟨?_, fun h => by cases h⟩
    rintro ⟨-, hbeat | hdelete, -⟩
    · exact absurd (hof.1.2.1.symm.trans hbeat.1) (by decide)
    · exact absurd (hof.1.2.2.1.symm.trans hdelete.2) (by decide)

theorem readsPresence_of {request : Request} {env : Env} {op : PresenceOp}
    (hof : op.Of R request env) (hroom : normalizeRoom (request.param "room") = room) :
    request.ReadsPresence R room ↔ op.writes = none := by
  subst hroom
  cases op with
  | heartbeat record =>
    refine ⟨fun hreads => ?_, fun h => by cases h⟩
    exact absurd (hreads.2.1.symm.trans hof.2) (by decide)
  | delete participant =>
    refine ⟨fun hreads => ?_, fun h => by cases h⟩
    obtain ⟨⟨-, hbeat | hdelete, -⟩, hpath⟩ := hof
    · exact absurd (hpath.symm.trans hbeat.1) (by decide)
    · exact absurd (hreads.2.2.1.symm.trans hdelete.2) (by decide)
  | read nowSec => exact ⟨fun _ => rfl, fun _ => hof.1⟩

/-- What is written about one participant leaves the records of the others. -/
theorem get?_apply_of_ne {op : PresenceOp} {participant other : String}
    (hwrites : op.writes = some participant) (hne : other ≠ participant) (ttlSec : Nat)
    (records : OrdMap String PresenceRecord) :
    (op.apply ttlSec records).get? other = records.get? other := by
  cases op with
  | heartbeat record =>
    obtain rfl : record.participantId = participant := Option.some.inj hwrites
    exact OrdMap.get?_set_of_ne _ hne _
  | delete gone =>
    obtain rfl : gone = participant := Option.some.inj hwrites
    exact (OrdMap.get?_erase _ _ _).trans (if_neg hne)
  | read nowSec => cases hwrites

/-- A call that is answered alike and keeps the lag leaves the question to the calls behind it. -/
theorem answers_lag_of_same {call : Call} {rest : List Call}
    (hanswer : (serve R call.request call.env s).1 = (serve R call.request call.env t).1)
    (hwrites : ∀ participant ∈ gone, ¬ call.request.WritesPresence R room participant)
    (hreads : ¬ call.request.ReadsPresence R room)
    (hrest : answersOf R (serveCall R s call) rest = answersOf R (serveCall R t call) rest ↔
      ¬ WritesGone R room gone rest) :
    answersOf R s (call :: rest) = answersOf R t (call :: rest) ↔
      ¬ WritesGone R room gone (call :: rest) := by
  rw [answersOf_cons, answersOf_cons, hanswer, writesGone_cons hwrites hreads, ← hrest]
  exact ⟨fun heq => (List.cons.inj heq).2, fun heq => congrArg _ heq⟩

/-- A write about a participant that is gone is answered otherwise. -/
theorem answer_lag_of_gone (h : Lag R room gone nowSec s t) {call : Call} {op : PresenceOp}
    (hserved : Served R call.request call.env op)
    (hroom : normalizeRoom (call.request.param "room") = room) {participant : String}
    (hwrites : op.writes = some participant) (hgone : participant ∈ gone) :
    (serve R call.request call.env s).1 ≠ (serve R call.request call.env t).1 := by
  obtain ⟨record, hget, -⟩ := h.expired participant hgone
  have hhas : (t.roomOf room).presenceByParticipant.has participant = true :=
    Option.isSome_iff_exists.mpr ⟨record, hget⟩
  intro hsame
  rw [hserved.serve s, hserved.serve t, hroom, h.here] at hsame
  exact answer_without_of_gone hwrites hgone hhas room hsame

/-- A write about another participant is answered alike, and keeps the lag. -/
theorem lag_of_kept (h : Lag R room gone nowSec s t) {call : Call} {op : PresenceOp}
    (hserved : Served R call.request call.env op)
    (hroom : normalizeRoom (call.request.param "room") = room) {participant : String}
    (hwrites : op.writes = some participant) (hkept : participant ∉ gone) :
    (serve R call.request call.env s).1 = (serve R call.request call.env t).1 ∧
      Lag R room gone nowSec (serveCall R s call) (serveCall R t call) := by
  obtain ⟨hanswer, happly⟩ := apply_without_of_writes R.config.presenceTtlSec
    (t.roomOf room).presenceByParticipant hwrites hkept room
  unfold serveCall
  rw [hserved.serve s, hserved.serve t, hroom, h.here, hanswer, happly]
  refine ⟨rfl, lag_putRoom_self h rfl fun other hgone => ?_⟩
  rw [get?_apply_of_ne hwrites fun heq => hkept (heq ▸ hgone)]
  exact h.expired other hgone

/-- A later read would prune what is gone, and is answered alike; nothing lags behind it. -/
theorem lag_of_later_read (h : Lag R room gone nowSec s t) {call : Call} {nowSec' : Int}
    (hserved : Served R call.request call.env (.read nowSec'))
    (hroom : normalizeRoom (call.request.param "room") = room) (hnow : nowSec ≤ nowSec') :
    (serve R call.request call.env s).1 = (serve R call.request call.env t).1 ∧
      Lag R room [] nowSec (serveCall R s call) (serveCall R t call) := by
  have hpruned : (PresenceOp.read nowSec').apply R.config.presenceTtlSec
        (s.roomOf room).presenceByParticipant =
      (PresenceOp.read nowSec').apply R.config.presenceTtlSec
        (t.roomOf room).presenceByParticipant := by
    rw [h.here]
    refine apply_read_without fun participant hgone record hget => ?_
    obtain ⟨old, hold, hexpired⟩ := (h.mono hnow).expired participant hgone
    rw [Option.some.inj (hget.symm.trans hold)]
    exact hexpired
  unfold serveCall
  rw [hserved.serve s, hserved.serve t, hroom, hpruned]
  refine ⟨?_, lag_putRoom_self h (OrdMap.ext ?_) fun participant hgone => ?_⟩
  · unfold PresenceOp.answer
    dsimp only
    rw [hpruned]
  · exact (List.filter_eq_self.mpr fun _ _ => decide_eq_true List.not_mem_nil).symm
  · cases hgone

/-- With and without the read, the calls are answered alike exactly when none of the participants
that are gone is written about before the room is next read. -/
theorem answers_lag {calls : List Call} (h : Lag R room gone nowSec s t)
    (hclock : ∀ call ∈ calls, nowSec ≤ nowEpochSec call.env.nowMs) :
    answersOf R s calls = answersOf R t calls ↔ ¬ WritesGone R room gone calls := by
  induction calls generalizing s t with
  | nil => exact ⟨fun _ hfalse => hfalse, fun _ => rfl⟩
  | cons call rest ih =>
    have hrest : ∀ call ∈ rest, nowSec ≤ nowEpochSec call.env.nowMs :=
      fun c hc => hclock c (List.mem_cons_of_mem _ hc)
    rcases Decidable.em (call.request.pathname = Endpoint.presenceHeartbeat.path ∨
      call.request.pathname = Endpoint.presence.path) with hpath | hpath
    case inr =>
      obtain ⟨hbeat, hpresence⟩ := not_or.mp hpath
      obtain ⟨hanswer, hlag⟩ := lag_serve_other h call.env hbeat hpresence
      refine answers_lag_of_same hanswer (fun participant _ hwrites => ?_)
        (fun hreads => hpresence hreads.2.1) (ih hlag hrest)
      exact hpath (hwrites.2.1.imp And.left And.left)
    rcases serve_presence (R := R) call.env hpath with ⟨hnoRead, hnoWrite, r, hrefuses⟩ | ⟨op, hserved⟩
    · refine answers_lag_of_same ?_ (fun participant _ => hnoWrite room participant) (hnoRead room)
        (ih ?_ hrest)
      · rw [hrefuses s, hrefuses t]
      · unfold serveCall
        rw [hrefuses s, hrefuses t]
        exact h
    rcases Decidable.em (normalizeRoom (call.request.param "room") = room) with hroom | hother
    case inr =>
      refine answers_lag_of_same ?_ (fun _ _ hwrites => hother hwrites.2.2.1)
        (fun hreads => hother hreads.2.2.2) (ih ?_ hrest)
      · rw [hserved.serve s, hserved.serve t, h.elsewhere _ hother]
      · unfold serveCall
        rw [hserved.serve s, hserved.serve t, h.elsewhere _ hother]
        exact lag_putRoom_other h hother _
    cases hwrites : op.writes with
    | some participant =>
      have hwrite := (writesPresence_of hserved.of hroom participant).mpr hwrites
      rcases Decidable.em (participant ∈ gone) with hgone | hkept
      · refine ⟨fun heq => ?_, fun hnone => ?_⟩
        · exact absurd (List.cons.inj heq).1 (answer_lag_of_gone h hserved hroom hwrites hgone)
        · exact absurd (.inl ⟨participant, hgone, hwrite⟩) hnone
      · obtain ⟨hanswer, hlag⟩ := lag_of_kept h hserved hroom hwrites hkept
        refine answers_lag_of_same hanswer (fun other hgone hother => ?_) (fun hreads => ?_)
          (ih hlag hrest)
        · have hsame := (writesPresence_of hserved.of hroom other).mp hother
          rw [hwrites] at hsame
          exact hkept (Option.some.inj hsame ▸ hgone)
        · have hnone := (readsPresence_of hserved.of hroom).mp hreads
          rw [hwrites] at hnone
          cases hnone
    | none =>
      -- The room is read, and the two runs agree from here on.
      have hread := (readsPresence_of hserved.of hroom).mpr hwrites
      cases op with
      | heartbeat record => cases hwrites
      | delete participant => cases hwrites
      | read nowSec' =>
        obtain ⟨hanswer, hlag⟩ := lag_of_later_read h hserved hroom
          (hserved.of.2 ▸ hclock call List.mem_cons_self)
        refine ⟨?_, fun _ => ?_⟩
        · rintro - (⟨participant, -, hwrite⟩ | ⟨hnot, -⟩)
          · cases hwrites.symm.trans ((writesPresence_of hserved.of hroom participant).mp hwrite)
          · exact hnot hread
        · rw [answersOf_cons, answersOf_cons, answersOf_congr hlag.same, hanswer]

/-- The participants whose records a read at that time deletes. -/
def expiredIn (R : Relay C) (nowSec : Int) (records : OrdMap String PresenceRecord) :
    List String :=
  (records.filter fun _ record =>
    decide ((R.config.presenceTtlSec : Int) ≤ nowSec - record.lastHeartbeat)).keys

theorem mem_expiredIn {records : OrdMap String PresenceRecord} {participant : String} :
    participant ∈ expiredIn R nowSec records ↔
      ∃ record, records.get? participant = some record ∧ ExpiredAt R nowSec record := by
  unfold expiredIn
  rw [← OrdMap.has_iff_mem_keys, OrdMap.has, Option.isSome_iff_exists]
  refine exists_congr fun record => ?_
  rw [OrdMap.get?_filter_eq_some_iff, decide_eq_true_eq]
  rfl

/-- A read leaves a state that lags behind by the expired records. -/
theorem lag_of_read {read : Call} (hread : read.request.ReadsPresence R room) :
    Lag R room (expiredIn R (nowEpochSec read.env.nowMs) (t.roomOf room).presenceByParticipant)
      (nowEpochSec read.env.nowMs) (serveCall R t read) t := by
  have hrest : Touch [.presence] t (serveCall R t read) := by
    refine touch_serve _ _ _ fun endpoint hendpoint => ?_
    rw [hread.2.1, Endpoint.ofPath_path] at hendpoint
    cases hendpoint
    decide
  rcases serve_presence (R := R) read.env (.inr hread.2.1) with
    ⟨hnoRead, -⟩ | ⟨op, hof, hserves⟩
  · exact absurd hread (hnoRead room)
  · rw [hread.2.2.2] at hserves
    have hwrites := (readsPresence_of hof hread.2.2.2).mp hread
    cases op with
    | heartbeat record => cases hwrites
    | delete participant => cases hwrites
    | read nowSec' =>
      obtain rfl := hof.2
      refine ⟨touch_symm hrest, fun other hne => ?_, ?_, fun participant hgone =>
        mem_expiredIn.mp hgone⟩
      · unfold serveCall
        rw [hserves t, ServiceState.roomOf_putRoom_of_ne t hne]
      · unfold serveCall
        rw [hserves t, ServiceState.roomOf_putRoom_self]
        refine OrdMap.ext (List.filter_congr fun e he => ?_)
        dsimp only
        have hget := OrdMap.get?_eq_some_iff.mpr he
        rw [Bool.eq_iff_iff, decide_eq_true_eq, decide_eq_true_eq, mem_expiredIn, ← Int.not_le]
        refine not_congr ⟨fun hold => ⟨e.2, hget, hold⟩, ?_⟩
        rintro ⟨record, hrecord, hold⟩
        rw [Option.some.inj (hget.symm.trans hrecord)]
        exact hold

theorem writesGone_iff {calls : List Call} :
    WritesGone R room gone calls ↔ ∃ pre call post, calls = pre ++ call :: post ∧
      (∃ participant ∈ gone, call.request.WritesPresence R room participant) ∧
      ∀ other ∈ pre, ¬ other.request.ReadsPresence R room := by
  induction calls with
  | nil =>
    refine ⟨fun h => h.elim, ?_⟩
    rintro ⟨pre, call, post, hsplit, -⟩
    exact absurd hsplit.symm (by simp)
  | cons head rest ih =>
    constructor
    · rintro (hwrites | ⟨hreads, hlater⟩)
      · exact ⟨[], head, rest, rfl, hwrites, fun other hother => absurd hother List.not_mem_nil⟩
      · obtain ⟨pre, call, post, rfl, hwrites, hfree⟩ := ih.mp hlater
        exact ⟨head :: pre, call, post, rfl, hwrites, List.forall_mem_cons.mpr ⟨hreads, hfree⟩⟩
    · rintro ⟨pre, call, post, hsplit, hwrites, hfree⟩
      cases pre with
      | nil =>
        obtain ⟨rfl, -⟩ := List.cons.inj hsplit
        exact .inl hwrites
      | cons first pre' =>
        obtain ⟨rfl, rfl⟩ := List.cons.inj hsplit
        obtain ⟨hreads, hfree'⟩ := List.forall_mem_cons.mp hfree
        exact .inr ⟨hreads, ih.mpr ⟨pre', call, post, rfl, hwrites, hfree'⟩⟩

theorem meetsExpired_iff {read : Call} {calls : List Call}
    (hread : read.request.ReadsPresence R room) :
    MeetsExpired R t read calls ↔ WritesGone R room
      (expiredIn R (nowEpochSec read.env.nowMs) (t.roomOf room).presenceByParticipant) calls := by
  obtain rfl := hread.2.2.2
  rw [writesGone_iff]
  constructor
  · rintro ⟨-, pre, call, post, participant, record, hsplit, hwrites, hget, hold, hfree⟩
    exact ⟨pre, call, post, hsplit,
      ⟨participant, mem_expiredIn.mpr ⟨record, hget, hold⟩, hwrites⟩, hfree⟩
  · rintro ⟨pre, call, post, hsplit, ⟨participant, hgone, hwrites⟩, hfree⟩
    obtain ⟨record, hget, hold⟩ := mem_expiredIn.mp hgone
    exact ⟨hread, pre, call, post, participant, record, hsplit, hwrites, hget, hold, hfree⟩

end

end PresenceLemmas

open PresenceLemmas ReadsLemmas TouchLemmas

section
variable {C : Type} {R : Relay C}

/-- One read, in front of calls that no earlier clock meets. -/
theorem answers_after_read {s : ServiceState C} {read : Call} {calls : List Call}
    (hpath : read.request.pathname = Endpoint.presence.path) (hget : read.request.method = "GET")
    (hclock : ∀ call ∈ calls, read.env.nowMs ≤ call.env.nowMs) :
    answersOf R (serveCall R s read) calls = answersOf R s calls ↔
      ¬ MeetsExpired R s read calls := by
  rcases serve_presence (R := R) read.env (.inr hpath) with
    ⟨hnoRead, -, r, hrefuses⟩ | ⟨op, hof, -⟩
  · -- A read that is refused changes nothing.
    refine ⟨fun _ hmeets => hnoRead _ hmeets.1, fun _ => ?_⟩
    unfold serveCall
    rw [hrefuses s]
  · have hread : read.request.ReadsPresence R (normalizeRoom (read.request.param "room")) := by
      refine (readsPresence_of hof rfl).mpr ?_
      cases op with
      | heartbeat record => exact absurd (hpath.symm.trans hof.2) (by decide)
      | delete participant =>
        obtain ⟨⟨-, hbeat | hdelete, -⟩, -⟩ := hof
        · exact absurd (hpath.symm.trans hbeat.1) (by decide)
        · exact absurd (hget.symm.trans hdelete.2) (by decide)
      | read nowSec => rfl
    rw [meetsExpired_iff hread]
    exact answers_lag (lag_of_read hread) fun call hcall =>
      ReplayLemmas.nowEpochSec_mono (hclock call hcall)

/-- Reads at many places, taken out from the last one on. -/
theorem remaining_unseen {s : ServiceState C} {calls : List MarkedCall} (hclock : ClockRuns calls)
    (hreads : ∀ m ∈ calls, m.deleted = true →
      m.call.request.pathname = Endpoint.presence.path ∧ m.call.request.method = "GET")
    (hmeets : ∀ before m after, calls = before ++ m :: after → m.deleted = true →
      ¬ MeetsExpired R (runFrom (ServiceState.serveMarked R) s before) m.call (remaining after)) :
    remainingAnswers R s calls = answersOf R s (remaining calls) := by
  induction calls generalizing s with
  | nil => rfl
  | cons m rest ih =>
    obtain ⟨hlater, hclock'⟩ := List.pairwise_cons.mp hclock
    have hrest : remainingAnswers R (serveCall R s m.call) rest =
        answersOf R (serveCall R s m.call) (remaining rest) := by
      refine ih hclock' (fun m' hm' => hreads m' (List.mem_cons_of_mem _ hm')) ?_
      intro before m' after hsplit
      exact hmeets (m :: before) m' after (congrArg (m :: ·) hsplit)
    cases hmark : m.deleted with
    | true =>
      have hremaining : remaining (m :: rest) = remaining rest := by
        simp only [remaining, List.filter_cons, hmark, Bool.not_true, Bool.false_eq_true, if_false]
      have hfull : remainingAnswers R s (m :: rest) =
          remainingAnswers R (serveCall R s m.call) rest := by
        simp only [remainingAnswers, hmark, if_true, serveCall]
      obtain ⟨hpath, hget⟩ := hreads m List.mem_cons_self hmark
      have hnext : ∀ call ∈ remaining rest, m.call.env.nowMs ≤ call.env.nowMs := by
        intro call hcall
        obtain ⟨m', hm', rfl⟩ := List.mem_map.mp hcall
        exact hlater m' (List.mem_filter.mp hm').1
      rw [hremaining, hfull, hrest]
      exact (answers_after_read hpath hget hnext).mpr (hmeets [] m rest rfl hmark)
    | false =>
      have hremaining : remaining (m :: rest) = m.call :: remaining rest := by
        simp only [remaining, List.filter_cons, hmark, Bool.not_false, if_true, List.map_cons]
      have hfull : remainingAnswers R s (m :: rest) = (serve R m.call.request m.call.env s).1 ::
          remainingAnswers R (serveCall R s m.call) rest := by
        simp only [remainingAnswers, hmark, Bool.false_eq_true, if_false, serveCall]
      rw [hremaining, hfull, hrest, answersOf_cons]

/-- Calls of any kind are served one at a time under a clock that does not run back.

A read of presence that is put somewhere into a run changes no answer of the other calls exactly
when no participant whose record it found expired sends a heartbeat, or is deleted, before the room
is next read. So reads may be put into a run, or taken out of it, at as many places as one likes
where this is so. -/
theorem reads_unseen_iff (cache : C) :
    (∀ (before after : List Call) (read : Call),
      (before ++ read :: after).Pairwise (fun c c' => c.env.nowMs ≤ c'.env.nowMs) →
      read.request.pathname = Endpoint.presence.path → read.request.method = "GET" →
      (answersOf R (afterCalls R cache (before ++ [read])) after =
          answersOf R (afterCalls R cache before) after ↔
        ¬ MeetsExpired R (afterCalls R cache before) read after)) ∧
    ∀ calls : List MarkedCall, ClockRuns calls →
      (∀ m ∈ calls, m.deleted = true →
        m.call.request.pathname = Endpoint.presence.path ∧ m.call.request.method = "GET") →
      (∀ before m after, calls = before ++ m :: after → m.deleted = true →
        ¬ MeetsExpired R (afterCalls R cache (before.map MarkedCall.call)) m.call
          (remaining after)) →
      remainingAnswers R (.init cache) calls = answersOf R (.init cache) (remaining calls) := by
  constructor
  · intro before after read hclock hpath hget
    have hlater := (List.pairwise_cons.mp (List.pairwise_append.mp hclock).2.1).1
    rw [show afterCalls R cache (before ++ [read]) =
      serveCall R (afterCalls R cache before) read from runFrom_concat _ _ _ _]
    exact answers_after_read hpath hget hlater
  · intro calls hclock hreads hmeets
    have hrun : ∀ before : List MarkedCall, runFrom (ServiceState.serveMarked R) (.init cache) before =
        afterCalls R cache (before.map MarkedCall.call) := by
      intro before
      unfold afterCalls runFrom
      rw [List.foldl_map]
      rfl
    refine remaining_unseen hclock hreads fun before m after hsplit hmark => ?_
    rw [hrun]
    exact hmeets before m after hsplit hmark

end

/-! ## On the toy host -/

/-- `alice` sends a heartbeat, the room is read when it has expired, and `alice` sends another. -/
def readBetweenHeartbeats : List MarkedCall :=
  let beat := Request.post Endpoint.presenceHeartbeat.path [("participant", "alice")] []
    ⟨"", none⟩
  [⟨⟨beat, .at 0⟩, false⟩, ⟨⟨.get Endpoint.presence.path [], .at 60000⟩, true⟩,
    ⟨⟨beat, .at 60000⟩, false⟩]

/-- With the read `alice` joins again, without it `alice` is updated. -/
theorem read_seen : ClockRuns readBetweenHeartbeats ∧
    remainingAnswers (.toy .default) (.init ()) readBetweenHeartbeats ≠
      answersOf (.toy .default) (.init ()) (remaining readBetweenHeartbeats) := by
  decide +kernel

end BitRelay
