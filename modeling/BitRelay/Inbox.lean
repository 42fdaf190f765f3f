import Mathlib.Data.Set.Card
import BitRelay.Service.Reads

/-!
# The inbox of a consumer

The inbox shows what is left of the log of a room without the messages that the
consumer has acknowledged. An acknowledgement names its ids in the field `id` of
its body, in the list `ids`, or in both.

Results:
1. `parseAckIds_cases`, `has_ackAll`, `newlyAcked_eq`: what one acknowledgement
   names, and what it adds.
2. `has_acks_iff`: after every run the set of a consumer is the union of its
   successful acknowledgements.
3. `touch_dropAcks`: nothing else in the state depends on acknowledgements.
4. `inbox_exact`: what the inbox shows and what an acknowledgement counts.
-/

namespace BitRelay

/-! ## What is acknowledged -/

/-- The id is the text `id` of the body, or a text in its list `ids`, trimmed; a blank text names
nothing. -/
def Body.Names (body : Body) (id : String) : Prop :=
  id ≠ "" ∧ ∃ fields text, body.json = some (.obj fields) ∧ trim text = id ∧
    ((JsonValue.obj fields).get? "id" = some (.str text) ∨
      ∃ items, (JsonValue.obj fields).get? "ids" = some (.arr items) ∧ .str text ∈ items)

/-- The request is about the inbox of the consumer in the room. -/
structure Request.ForInbox (request : Request) (endpoint : Endpoint) (room consumer : String) :
    Prop where
  path : request.pathname = endpoint.path
  room : normalizeRoom (request.param "room") = room
  consumer : request.paramTrim "consumer" = consumer

section
variable {C : Type} (R : Relay C) (cache : C)

/-- One of the calls was a successful acknowledgement of the consumer that names the id. -/
def Acked (calls : List Call) (room consumer id : String) : Prop :=
  ∃ before call after, calls = before ++ call :: after ∧
    call.request.ForInbox .inboxAck room consumer ∧
    (serve R call.request call.env (afterCalls R cache before)).1.status = 200 ∧
    call.request.body.Names id

open Classical in
/-- The messages of the log whose ids the consumer has not acknowledged, in their order. -/
noncomputable def unacked (calls : List Call) (room consumer : String) : List Envelope :=
  ((afterCalls R cache calls).roomOf room).messages.filter fun m =>
    decide (¬ Acked R cache calls room consumer m.id)

/-- The calls that are no acknowledgements, in their order. -/
def dropAcks (calls : List Call) : List Call :=
  calls.filter fun call => call.request.pathname ≠ Endpoint.inboxAck.path

end

namespace InboxLemmas

/-! ## One body -/

theorem mem_collectAckId {ids : List String} {item : JsonValue} {id : String} :
    id ∈ collectAckId ids item ↔ id ∈ ids ∨ id ≠ "" ∧ ∃ text, item = .str text ∧ trim text = id := by
  cases item with
  | str s =>
    show id ∈ (if trim s = "" ∨ trim s ∈ ids then ids else ids ++ [trim s]) ↔ _
    split
    · next hskip =>
      refine ⟨.inl, fun h => h.elim (fun hid => hid) ?_⟩
      rintro ⟨hne, text, heq, rfl⟩
      obtain rfl := JsonValue.str.inj heq
      exact hskip.resolve_left hne
    · next hnew =>
      rw [List.mem_append, List.mem_singleton]
      refine or_congr_right ⟨?_, ?_⟩
      · rintro rfl
        exact ⟨fun hblank => hnew (.inl hblank), s, rfl, rfl⟩
      · rintro ⟨-, text, heq, rfl⟩
        rw [JsonValue.str.inj heq]
  | _ =>
    refine ⟨.inl, fun h => h.elim (fun hid => hid) ?_⟩
    rintro ⟨-, text, heq, -⟩
    cases heq

theorem mem_foldl_collectAckId {items : List JsonValue} {ids : List String} {id : String} :
    id ∈ items.foldl collectAckId ids ↔
      id ∈ ids ∨ id ≠ "" ∧ ∃ text, .str text ∈ items ∧ trim text = id := by
  induction items generalizing ids with
  | nil =>
    refine ⟨.inl, fun h => h.elim (fun hid => hid) ?_⟩
    rintro ⟨-, text, hmem, -⟩
    cases hmem
  | cons item rest ih =>
    rw [List.foldl_cons, ih, mem_collectAckId, or_assoc]
    refine or_congr_right ⟨?_, ?_⟩
    · rintro (⟨hne, text, rfl, htrim⟩ | ⟨hne, text, hmem, htrim⟩)
      · exact ⟨hne, text, List.mem_cons_self, htrim⟩
      · exact ⟨hne, text, List.mem_cons_of_mem _ hmem, htrim⟩
    · rintro ⟨hne, text, hmem, htrim⟩
      rcases List.mem_cons.mp hmem with heq | hrest
      · exact .inl ⟨hne, text, heq.symm, htrim⟩
      · exact .inr ⟨hne, text, hrest, htrim⟩

theorem nodup_foldl_collectAckId {items : List JsonValue} {ids : List String} (h : ids.Nodup) :
    (items.foldl collectAckId ids).Nodup := by
  induction items generalizing ids with
  | nil => exact h
  | cons item rest ih =>
    refine ih ?_
    cases item with
    | str s =>
      show (if trim s = "" ∨ trim s ∈ ids then ids else ids ++ [trim s]).Nodup
      split
      · exact h
      · next hnew =>
        refine List.nodup_append.mpr ⟨h, List.nodup_singleton _, ?_⟩
        intro a ha b hb hab
        rw [hab, List.mem_singleton.mp hb] at ha
        exact hnew (.inr ha)
    | _ => exact h

/-- The first id of the list: the field `id`, unless it is blank or no text. -/
theorem mem_single {parsed : JsonValue} {id : String} :
    id ∈ (if trim (parsed.strField "id") ≠ "" then [trim (parsed.strField "id")] else []) ↔
      id ≠ "" ∧ ∃ text, parsed.get? "id" = some (.str text) ∧ trim text = id := by
  have hfield : ∀ text, parsed.get? "id" = some (.str text) → parsed.strField "id" = text := by
    intro text htext
    unfold JsonValue.strField
    rw [htext]
  constructor
  · intro hmem
    split at hmem
    · next hne =>
      obtain rfl := List.mem_singleton.mp hmem
      refine ⟨hne, parsed.strField "id", ?_, rfl⟩
      unfold JsonValue.strField at hne ⊢
      split
      · next s hs => exact hs
      · next hother =>
        exfalso
        revert hne
        split
        · next s hs => exact absurd hs (hother s)
        · exact fun h => h rfl
    · cases hmem
  · rintro ⟨hne, text, htext, rfl⟩
    rw [hfield text htext, if_pos hne]
    exact List.mem_singleton_self _

theorem mem_arrField {parsed : JsonValue} {item : JsonValue} :
    item ∈ (parsed.arrField? "ids").getD [] ↔
      ∃ items, parsed.get? "ids" = some (.arr items) ∧ item ∈ items := by
  unfold JsonValue.arrField?
  split
  · next items hitems =>
    rw [hitems]
    refine ⟨fun h => ⟨items, rfl, h⟩, ?_⟩
    rintro ⟨items', heq, hmem⟩
    cases heq
    exact hmem
  · next hother =>
    refine ⟨fun h => (List.not_mem_nil h).elim, ?_⟩
    rintro ⟨items, hitems, -⟩
    exact absurd hitems (hother items)

/-- The collected ids are what the body names, each once; a body without any is refused. -/
theorem parseAckIds_cases (body : Body) :
    (∃ error, parseAckIds body = .error error ∧ ∀ id, ¬ body.Names id) ∨
      ∃ ids, parseAckIds body = .ok ids ∧ ids.Nodup ∧ ∀ id, id ∈ ids ↔ body.Names id := by
  unfold parseAckIds Body.Names
  cases hjson : body.json with
  | none =>
    refine .inl ⟨_, rfl, ?_⟩
    rintro id ⟨-, fields, text, hobj, -⟩
    cases hobj
  | some parsed =>
    cases parsed with
    | obj fields =>
      dsimp only
      rw [if_neg (show ¬ (JsonValue.obj fields).fields?.isNone = true from Bool.false_ne_true)]
      generalize hids : ((JsonValue.obj fields).arrField? "ids").getD [] = items
      generalize hfirst : (if trim ((JsonValue.obj fields).strField "id") ≠ "" then
        [trim ((JsonValue.obj fields).strField "id")] else []) = first
      have hnamed : ∀ id, id ∈ items.foldl collectAckId first ↔
          id ≠ "" ∧ ∃ fields' text, some (JsonValue.obj fields) = some (.obj fields') ∧
            trim text = id ∧ ((JsonValue.obj fields').get? "id" = some (.str text) ∨
              ∃ items, (JsonValue.obj fields').get? "ids" = some (.arr items) ∧
                .str text ∈ items) := by
        intro id
        rw [mem_foldl_collectAckId, ← hids, ← hfirst, mem_single]
        simp only [mem_arrField]
        constructor
        · rintro (⟨hne, text, htext, htrim⟩ | ⟨hne, text, htext, htrim⟩)
          · exact ⟨hne, fields, text, rfl, htrim, .inl htext⟩
          · exact ⟨hne, fields, text, rfl, htrim, .inr htext⟩
        · rintro ⟨hne, fields', text, heq, htrim, hwhere⟩
          cases heq
          exact hwhere.imp (fun h => ⟨hne, text, h, htrim⟩) fun h => ⟨hne, text, h, htrim⟩
      have hnodup : (items.foldl collectAckId first).Nodup := by
        refine nodup_foldl_collectAckId ?_
        rw [← hfirst]
        split
        · exact List.nodup_singleton _
        · exact List.nodup_nil
      split
      · next hempty =>
        refine .inl ⟨_, rfl, fun id hid => ?_⟩
        have hmem := (hnamed id).mpr hid
        rw [hempty] at hmem
        cases hmem
      · exact .inr ⟨_, rfl, hnodup, hnamed⟩
    | _ =>
      refine .inl ⟨_, rfl, ?_⟩
      rintro id ⟨-, fields, text, hobj, -⟩
      cases hobj

/-! ## One acknowledgement -/

theorem foldl_ackAll_has (ids : List String) (acc : OrdSet String × Nat) (id : String) :
    (ids.foldl (fun (acc : OrdSet String × Nat) id =>
      if acc.1.has id then acc else (acc.1.set id (), acc.2 + 1)) acc).1.has id = true ↔
      acc.1.has id = true ∨ id ∈ ids := by
  induction ids generalizing acc with
  | nil => exact ⟨.inl, fun h => h.elim (fun hid => hid) fun hid => (List.not_mem_nil hid).elim⟩
  | cons head rest ih =>
    rw [List.foldl_cons, ih, List.mem_cons]
    split
    · next hhead =>
      refine ⟨fun h => h.imp_right .inr, ?_⟩
      rintro (hold | rfl | hrest)
      · exact .inl hold
      · exact .inl hhead
      · exact .inr hrest
    · rw [OrdMap.has_set, or_assoc, or_left_comm]

theorem has_ackAll (set : OrdSet String) (ids : List String) (id : String) :
    (ackAll set ids).1.has id = true ↔ set.has id = true ∨ id ∈ ids :=
  foldl_ackAll_has ids (set, 0) id

theorem foldl_ackAll_count {ids : List String} (hnodup : ids.Nodup)
    (acc : OrdSet String × Nat) :
    (ids.foldl (fun (acc : OrdSet String × Nat) id =>
      if acc.1.has id then acc else (acc.1.set id (), acc.2 + 1)) acc).2 =
      acc.2 + (ids.filter fun id => !acc.1.has id).length := by
  induction ids generalizing acc with
  | nil => rfl
  | cons head rest ih =>
    obtain ⟨hhead, hrest⟩ := List.nodup_cons.mp hnodup
    rw [List.foldl_cons]
    cases hhas : acc.1.has head with
    | true =>
      rw [if_pos rfl, List.filter_cons_of_neg (by rw [hhas]; decide)]
      exact ih hrest acc
    | false =>
      rw [if_neg Bool.false_ne_true, List.filter_cons_of_pos (by rw [hhas]; rfl),
        List.length_cons, ih hrest]
      -- The head does not come again, so the rest is new to both sets or to neither.
      have hfilter : (rest.filter fun id => !(acc.1.set head ()).has id) =
          rest.filter fun id => !acc.1.has id := by
        refine List.filter_congr fun id hid => ?_
        have hne : id ≠ head := fun heq => hhead (heq ▸ hid)
        unfold OrdMap.has
        rw [OrdMap.get?_set_of_ne _ hne]
      rw [hfilter, Nat.add_assoc, Nat.add_comm 1]

/-- Distinct ids are counted when they are new to the set. -/
theorem newlyAcked_eq (set : OrdSet String) {ids : List String} (hnodup : ids.Nodup) :
    (ackAll set ids).2 = (ids.filter fun id => !set.has id).length :=
  (foldl_ackAll_count hnodup (set, 0)).trans (Nat.zero_add _)

/-- A list without repetitions that holds a set says how large the set is. -/
theorem encard_eq_length {ids : List String} (hnodup : ids.Nodup) {P : String → Prop}
    (h : ∀ id, id ∈ ids ↔ P id) : Set.encard {id | P id} = ids.length := by
  have hset : {id | P id} = (ids.toFinset : Set String) := by
    ext id
    rw [Finset.mem_coe, List.mem_toFinset, h id]
    rfl
  rw [hset, Set.encard_coe_eq_coe_finsetCard, List.toFinset_card_of_nodup hnodup]

/-! ## One request -/

section
variable {C : Type} {R : Relay C} {request : Request} {env : Env}

/-- A request for pending messages is refused whatever the state is, or answered from its room. -/
theorem gated_inboxPending (env : Env) (hpath : request.pathname = Endpoint.inboxPending.path) :
    ∃ c, GatedBy c (fetch R request env) (do
      let roomState ← readRoom (normalizeRoom (request.param "room"))
      return ⟨200, inboxPendingFromRoom roomState (normalizeRoom (request.param "room"))
        (request.paramTrim "consumer") (normalizeLimit (request.param "limit") 100)⟩) :=
  ⟨_, gated_fetch env hpath <| .requireMethod <| .requireRoom <| .requireParam (.refl _)⟩

theorem gated_inboxAck (env : Env) (hpath : request.pathname = Endpoint.inboxAck.path) :
    ∃ c, GatedBy c (fetch R request env) (Proc.update fun s =>
      let room := normalizeRoom (request.param "room")
      let (response, roomState) := ackIntoRoom (s.roomOf room) room
        (request.paramTrim "consumer") request.body
      (response, s.putRoom room roomState)) :=
  ⟨_, gated_fetch env hpath <| .requireMethod <| .requireRoom <| .requireParam (.refl _)⟩

/-- What an acknowledgement that is let through does to its room. -/
theorem ackIntoRoom_cases (roomState : RoomState) (room consumer : String) (body : Body) :
    (∃ error, ackIntoRoom roomState room consumer body = (toErrorResponse error 400, roomState) ∧
        ∀ id, ¬ body.Names id) ∨
      ∃ ids, ids.Nodup ∧ (∀ id, id ∈ ids ↔ body.Names id) ∧
        let acked := ackAll (roomState.acksByConsumer.getD consumer ∅) ids
        ackIntoRoom roomState room consumer body =
          (⟨200, .obj [
            ("ok", .bool true),
            ("room", .str room),
            ("consumer", .str consumer),
            ("newly_acked", .ofNat acked.2),
            ("acked_total", .ofNat acked.1.size),
            ("requested_count", .ofNat ids.length)]⟩,
          { roomState with
            acksByConsumer := roomState.acksByConsumer.set consumer acked.1 }) := by
  unfold ackIntoRoom
  rcases parseAckIds_cases body with ⟨error, hparse, hnone⟩ | ⟨ids, hparse, hnodup, hnames⟩
  · rw [hparse]
    exact .inl ⟨error, rfl, hnone⟩
  · rw [hparse]
    exact .inr ⟨ids, hnodup, hnames, rfl⟩

/-- A request adds to the set of a consumer what it acknowledges, and takes nothing away. -/
theorem has_serve_iff (request : Request) (env : Env) (s : ServiceState C)
    (room consumer id : String) :
    (((serve R request env s).2.roomOf room).acksByConsumer.getD consumer ∅).has id = true ↔
      ((s.roomOf room).acksByConsumer.getD consumer ∅).has id = true ∨
        request.ForInbox .inboxAck room consumer ∧ (serve R request env s).1.status = 200 ∧
          request.body.Names id := by
  rcases Decidable.em (request.pathname = Endpoint.inboxAck.path) with hpath | hpath
  · rcases gated_inboxAck (R := R) env hpath with
      ⟨-, ⟨-, r, hr, hrefuses⟩ | ⟨-, hserves⟩⟩
    · rw [show serve R request env s = (r, s) from hrefuses s]
      exact ⟨.inl, fun h => h.elim (fun hold => hold) fun hack => absurd hack.2.1 hr⟩
    · generalize hroom' : normalizeRoom (request.param "room") = room' at hserves
      generalize hconsumer' : request.paramTrim "consumer" = consumer' at hserves
      have hserve : serve R request env s =
          ((ackIntoRoom (s.roomOf room') room' consumer' request.body).1,
            s.putRoom room' (ackIntoRoom (s.roomOf room') room' consumer' request.body).2) :=
        hserves s
      rw [hserve]
      rcases ackIntoRoom_cases (s.roomOf room') room' consumer' request.body with
        ⟨error, hack, hnone⟩ | ⟨ids, -, hnames, hack⟩
      · -- The body names nothing: the room is written back as it was.
        rw [hack]
        show (((s.openRoom room').roomOf room).acksByConsumer.getD consumer ∅).has id = true ↔ _
        rw [ServiceState.roomOf_openRoom]
        exact ⟨.inl, fun h => h.elim (fun hold => hold) fun hack => absurd hack.2.2 (hnone id)⟩
      · rw [hack]
        rcases Decidable.em (room = room' ∧ consumer = consumer') with ⟨rfl, rfl⟩ | hother
        · rw [ServiceState.roomOf_putRoom_self]
          show (((s.roomOf room).acksByConsumer.set consumer _).getD consumer ∅).has id = true ↔ _
          rw [OrdMap.getD_set_self, has_ackAll, hnames]
          exact or_congr_right ⟨fun h => ⟨⟨hpath, hroom', hconsumer'⟩, rfl, h⟩, fun h => h.2.2⟩
        · -- Another room, or another consumer of the same room.
          have hkept : ((s.putRoom room' { s.roomOf room' with
                acksByConsumer := (s.roomOf room').acksByConsumer.set consumer'
                  (ackAll ((s.roomOf room').acksByConsumer.getD consumer' ∅) ids).1 }).roomOf
                room).acksByConsumer.getD consumer ∅ =
              (s.roomOf room).acksByConsumer.getD consumer ∅ := by
            rcases Decidable.em (room = room') with rfl | hne
            · rw [ServiceState.roomOf_putRoom_self]
              exact OrdMap.getD_set_of_ne _ (fun heq => hother ⟨rfl, heq⟩) _ _
            · rw [ServiceState.roomOf_putRoom_of_ne s hne]
          rw [hkept]
          refine ⟨.inl, fun h => h.elim (fun hold => hold) fun hack => ?_⟩
          exact (hother ⟨hack.1.room.symm.trans hroom', hack.1.consumer.symm.trans hconsumer'⟩).elim
  · have hsame : s.SamePart (serve R request env s).2 .acks := by
      refine serve_touches request env s fun endpoint hendpoint hmem => ?_
      cases endpoint with
      | inboxAck => exact hpath (Endpoint.path_of hendpoint)
      | _ => exact absurd hmem (by decide)
    rw [hsame room]
    exact ⟨.inl, fun h => h.elim (fun hold => hold) fun hack => absurd hack.1.path hpath⟩

/-! ## Runs -/

theorem acked_concat {cache : C} {calls : List Call} {call : Call} {room consumer id : String} :
    Acked R cache (calls ++ [call]) room consumer id ↔
      Acked R cache calls room consumer id ∨
        call.request.ForInbox .inboxAck room consumer ∧
          (serve R call.request call.env (afterCalls R cache calls)).1.status = 200 ∧
          call.request.body.Names id := by
  constructor
  · rintro ⟨before, last, after, heq, hack⟩
    rcases List.eq_nil_or_concat after with rfl | ⟨after', call', rfl⟩
    · obtain ⟨rfl, hlast⟩ := List.append_inj' heq rfl
      obtain rfl := List.singleton_inj.mp hlast
      exact .inr hack
    · rw [List.concat_eq_append, ← List.cons_append, ← List.append_assoc] at heq
      obtain ⟨rfl, -⟩ := List.append_inj' heq rfl
      exact .inl ⟨before, last, after', rfl, hack⟩
  · rintro (⟨before, last, after, rfl, hack⟩ | hack)
    · exact ⟨before, last, after ++ [call], by rw [List.append_assoc, List.cons_append], hack⟩
    · exact ⟨calls, call, [], rfl, hack⟩

end

end InboxLemmas

open InboxLemmas ReadsLemmas TouchLemmas

section
variable {C : Type} {R : Relay C}

/-- After every run, the set that is kept for a consumer is the union of its successful
acknowledgements. -/
theorem has_acks_iff (cache : C) (calls : List Call) (room consumer id : String) :
    (((afterCalls R cache calls).roomOf room).acksByConsumer.getD consumer ∅).has id = true ↔
      Acked R cache calls room consumer id := by
  induction calls using List.reverseRecOn with
  | nil =>
    constructor
    · intro h
      cases h
    · rintro ⟨before, call, after, heq, -⟩
      exact absurd heq.symm (by simp)
  | append_singleton calls call ih =>
    have hrun : afterCalls R cache (calls ++ [call]) =
        (serve R call.request call.env (afterCalls R cache calls)).2 :=
      runFrom_concat _ _ _ _
    rw [hrun, has_serve_iff, ih, acked_concat]

/-- Services that differ in acknowledgements only still do so after a run from whose second copy
the acknowledgements are left out. -/
theorem touch_dropAcks {s t : ServiceState C} (h : Touch [.acks] s t) (calls : List Call) :
    Touch [.acks] (runFrom (serveCall R) s calls) (runFrom (serveCall R) t (dropAcks calls)) := by
  induction calls generalizing s t with
  | nil => exact h
  | cons call rest ih =>
    have hwrites : ∀ u : ServiceState C,
        (call.request.pathname = Endpoint.inboxAck.path ∨
          call.request.pathname = Endpoint.inboxPending.path) →
        Touch [.acks] u (serveCall R u call) := by
      intro u hpath
      refine touch_serve _ _ _ fun endpoint hendpoint => ?_
      rcases hpath with hpath | hpath
      · rw [hpath, Endpoint.ofPath_path] at hendpoint
        cases hendpoint
        decide
      · rw [hpath, Endpoint.ofPath_path] at hendpoint
        cases hendpoint
        decide
    unfold dropAcks
    rcases Decidable.em (call.request.pathname = Endpoint.inboxAck.path) with hack | hack
    · rw [List.filter_cons_of_neg (by simpa using hack)]
      exact ih (touch_trans (touch_symm (hwrites s (.inl hack))) h)
    · rw [List.filter_cons_of_pos (by simpa using hack)]
      refine ih ?_
      rcases Decidable.em (call.request.pathname = Endpoint.inboxPending.path) with hpend | hpend
      · -- Reading the inbox changes neither of the two.
        exact touch_trans (touch_symm (hwrites s (.inr hpend)))
          (touch_trans h (hwrites t (.inr hpend)))
      · refine (reads_serve _ (fun endpoint hendpoint part hpart hmem => ?_) h).2
        obtain rfl := List.mem_singleton.mp hmem
        cases endpoint with
        | inboxAck => exact hack (Endpoint.path_of hendpoint)
        | inboxPending => exact hpend (Endpoint.path_of hendpoint)
        | _ => exact absurd hpart (by decide)

/-- A request for pending messages is refused whatever the state is, or answered from its room. -/
theorem serve_inboxPending {request : Request} {room consumer : String}
    (h : request.ForInbox .inboxPending room consumer) (env : Env) :
    (∃ r : Response, r.status ≠ 200 ∧ ∀ s, serve R request env s = (r, s)) ∨
      ∀ s, (serve R request env s).1 = ⟨200, inboxPendingFromRoom (s.roomOf room) room consumer
        (normalizeLimit (request.param "limit") 100)⟩ := by
  obtain ⟨hpath, rfl, rfl⟩ := h
  obtain ⟨c, hgated⟩ := gated_inboxPending (R := R) env hpath
  exact hgated.imp And.right fun h s => congrArg Prod.fst (h.2 s)

/-- The listing depends on the log of the room and on the ids that the consumer acknowledged. -/
theorem inboxPendingFromRoom_congr {x y : RoomState} {consumer : String}
    (hlog : x.messages = y.messages)
    (hacks : ∀ id, (x.acksByConsumer.getD consumer ∅).has id =
      (y.acksByConsumer.getD consumer ∅).has id) (room : String) (limit : Nat) :
    inboxPendingFromRoom x room consumer limit = inboxPendingFromRoom y room consumer limit := by
  have hpending : (x.messages.filter fun item => !(x.acksByConsumer.getD consumer ∅).has item.id) =
      y.messages.filter fun item => !(y.acksByConsumer.getD consumer ∅).has item.id := by
    rw [hlog]
    exact List.filter_congr fun m _ => congrArg Bool.not (hacks m.id)
  unfold inboxPendingFromRoom
  dsimp only
  rw [hpending]

/-- What the listing is made from. -/
theorem unacked_eq (cache : C) (calls : List Call) (room consumer : String) :
    unacked R cache calls room consumer =
      ((afterCalls R cache calls).roomOf room).messages.filter fun item =>
        !(((afterCalls R cache calls).roomOf room).acksByConsumer.getD consumer ∅).has item.id := by
  classical
  refine List.filter_congr fun m _ => ?_
  rw [Bool.eq_iff_iff, decide_eq_true_eq, Bool.not_eq_true', Bool.eq_false_iff]
  exact not_congr (has_acks_iff cache calls room consumer m.id).symm

/-- The inbox of a consumer in a room, after every run.

A request for pending messages that is answered lists the messages of the log that the consumer has
not acknowledged, in log order, up to its limit, and counts them all. An acknowledgement that is
answered counts the ids it names that were not acknowledged before, and all acknowledged ids. Two
runs that differ in acknowledgements only, and in which the consumer acknowledged the same ids, show
the same inbox. -/
theorem inbox_exact (cache : C) (calls : List Call) (room consumer : String) :
    (∀ request env, request.ForInbox .inboxPending room consumer →
      let response := (serve R request env (afterCalls R cache calls)).1
      let pending := unacked R cache calls room consumer
      response.status = 200 →
        response.body.get? "pending_count" = some (.ofNat pending.length) ∧
        response.body.get? "envelopes" = some (envelopesJson
          (pending.take (normalizeLimit (request.param "limit") 100))) ∧
        (pending.length ≤ normalizeLimit (request.param "limit") 100 →
          response.body.get? "envelopes" = some (envelopesJson pending))) ∧
    (∀ call : Call, call.request.ForInbox .inboxAck room consumer →
      let response := (serve R call.request call.env (afterCalls R cache calls)).1
      response.status = 200 → ∃ newlyAcked ackedTotal : Nat,
        response.body.get? "newly_acked" = some (.ofNat newlyAcked) ∧
        response.body.get? "acked_total" = some (.ofNat ackedTotal) ∧
        Set.encard {id | call.request.body.Names id ∧ ¬ Acked R cache calls room consumer id} =
          newlyAcked ∧
        Set.encard {id | Acked R cache (calls ++ [call]) room consumer id} = ackedTotal) ∧
    (∀ calls', dropAcks calls' = dropAcks calls →
      (∀ id, Acked R cache calls' room consumer id ↔ Acked R cache calls room consumer id) →
      ∀ request env, request.ForInbox .inboxPending room consumer →
        (serve R request env (afterCalls R cache calls')).1 =
          (serve R request env (afterCalls R cache calls)).1) := by
  refine ⟨?_, ?_, ?_⟩
  · intro request env hrequest response pending hok
    rcases serve_inboxPending (R := R) hrequest env with ⟨r, hr, hrefuses⟩ | hserves
    · exact absurd ((congrArg (fun p => p.1.status) (hrefuses _)).symm.trans hok) hr
    · have hresponse : response = ⟨200, inboxPendingFromRoom _ room consumer _⟩ := hserves _
      have hpending : pending = _ := unacked_eq cache calls room consumer
      rw [hresponse, hpending]
      refine ⟨rfl, rfl, fun hlimit => ?_⟩
      rw [← List.take_of_length_le hlimit]
      rfl
  · intro call hack response hok
    obtain ⟨hpath, hroom, hconsumer⟩ := hack
    rcases gated_inboxAck (R := R) call.env hpath with
      ⟨-, ⟨-, r, hr, hrefuses⟩ | ⟨-, hserves⟩⟩
    · exact absurd ((congrArg (fun p => p.1.status) (hrefuses _)).symm.trans hok) hr
    · rw [hroom, hconsumer] at hserves
      have hresponse : response = (ackIntoRoom ((afterCalls R cache calls).roomOf room) room
          consumer call.request.body).1 := congrArg Prod.fst (hserves _)
      rcases ackIntoRoom_cases ((afterCalls R cache calls).roomOf room) room consumer
        call.request.body with ⟨error, hack, -⟩ | ⟨ids, hnodup, hnames, hack⟩
      · rw [hresponse, hack] at hok
        cases hok
      · rw [hresponse, hack]
        refine ⟨_, _, rfl, rfl, ?_, ?_⟩
        · rw [newlyAcked_eq _ hnodup]
          refine encard_eq_length (hnodup.filter _) fun id => ?_
          rw [List.mem_filter, hnames, Bool.not_eq_true', Bool.eq_false_iff]
          exact and_congr_right fun _ => not_congr (has_acks_iff cache calls room consumer id)
        · rw [OrdMap.size_eq_length_keys]
          refine encard_eq_length (OrdMap.nodup _) fun id => ?_
          rw [← OrdMap.keys, ← OrdMap.has_iff_mem_keys, has_ackAll, hnames, acked_concat,
            has_acks_iff]
          exact or_congr_right ⟨fun h => ⟨⟨hpath, hroom, hconsumer⟩, hok, h⟩, fun h => h.2.2⟩
  · intro calls' hdrop hsame request env hrequest
    have hacks : ∀ id,
        (((afterCalls R cache calls').roomOf room).acksByConsumer.getD consumer ∅).has id =
          (((afterCalls R cache calls).roomOf room).acksByConsumer.getD consumer ∅).has id := by
      intro id
      rw [Bool.eq_iff_iff, has_acks_iff, has_acks_iff, hsame]
    have hlog : ((afterCalls R cache calls').roomOf room).messages =
        ((afterCalls R cache calls).roomOf room).messages := by
      have hleft := touch_dropAcks (R := R) (touch_refl (.init cache)) calls'
      have hright := touch_dropAcks (R := R) (touch_refl (.init cache)) calls
      rw [hdrop] at hleft
      exact touch_trans hright (touch_symm hleft) .messages (by decide) room
    rcases serve_inboxPending (R := R) hrequest env with ⟨r, -, hrefuses⟩ | hserves
    · rw [hrefuses, hrefuses]
    · rw [hserves, hserves, inboxPendingFromRoom_congr hlog hacks]

end

end BitRelay
