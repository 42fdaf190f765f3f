import BitRelay.Exchange.Writes

/-!
# Exchange records

What holds of the exchange records in every state of a relay, the page of them that a pull returns,
and how a peer reads an exported entry.

Results:
1. `recordsInvariant_afterCalls`: the records have ascending cursors and fields that a peer can read.
2. `isPage_select`: a pull returns the records behind `after` that pass its filters, up to the limit.
3. `parse_wire`: a peer reads an exported entry as the record, one hop further.
-/

namespace BitRelay

/-! ## The records of a relay -/

/-- A peer can read the record. -/
structure CacheExchangeRecord.Sound (record : CacheExchangeRecord) : Prop where
  room : isValidRoomName record.envelope.room = true
  topic : isValidTopic record.envelope.topic = true
  id : FreeText record.envelope.id
  sender : FreeText record.envelope.sender
  signature : ∀ signature ∈ record.envelope.signature, FreeText signature
  origin : FreeText record.origin
  hopCount : record.hopCount < record.maxHops

section
variable {C : Type}

structure RecordsInvariant (s : ServiceState C) : Prop where
  ascending : CursorLog.Ascending CacheExchangeRecord.cursor s.cacheExchangeRecords
  cursor_le : ∀ record ∈ s.cacheExchangeRecords, record.cursor ≤ s.cacheExchangeCursor
  sound : ∀ record ∈ s.cacheExchangeRecords, record.Sound

variable {R : Relay C} {s s' : ServiceState C} {w : Write}

namespace RecordLemmas

theorem sound_record (h : w.Sound) (htopic : isValidTopic w.topic = true) (cursor : Nat) :
    (w.record cursor).Sound := by
  refine ⟨h.room, htopic, h.id, h.sender, fun signature hsignature => ?_, h.origin, h.hopCount⟩
  change signature ∈ storedSignature w.signature at hsignature
  unfold storedSignature at hsignature
  split at hsignature
  · next hne =>
    rw [← Option.some.inj hsignature]
    exact freeText_trim hne
  · cases hsignature

theorem sound_of_local {R : PeerRelay C} (h : LocalWrite R.toRelay w) : w.Sound := by
  have hnode : FreeText R.config.relayNodeId := (trimmed_of_isValidRoomName R.nodeId_valid).symm
  refine ⟨h.room, h.id, h.sender, h.origin ▸ hnode, ?_⟩
  rw [h.hopCount, h.maxHops]
  exact R.maxHops_pos

theorem freeText_asString {value : Option JsonValue} {text : String}
    (h : asString value = some text) : FreeText text := by
  obtain ⟨raw, -, rfl, hne⟩ := asString_eq_some_iff.mp h
  exact freeText_trim hne

theorem refusesEntryName_eq_none_iff {incoming : IncomingExchangeEntry} :
    refusesEntryName incoming = none ↔
      isValidRoomName incoming.room = true ∧ isValidTopic incoming.topic = true := by
  unfold refusesEntryName
  cases isValidRoomName incoming.room <;> cases isValidTopic incoming.topic <;> simp

theorem refusesEntryHops_eq_none_iff {incoming : IncomingExchangeEntry} :
    refusesEntryHops R incoming = none ↔
      incoming.origin ≠ R.config.relayNodeId ∧ incoming.hopCount < incoming.maxHops := by
  unfold refusesEntryHops
  split
  · next heq => simp [heq]
  · next hne =>
    split
    · next hge => simp [Nat.not_lt.mpr hge]
    · next hlt => simp [hne, Nat.not_le.mp hlt]

theorem sound_of_pushed {value : JsonValue} {incoming : IncomingExchangeEntry}
    (h : PushedWrite R value incoming w) : w.Sound := by
  have hread := parseIncomingCacheExchangeEntry_ok_iff.mp h.read
  rw [h.write]
  exact ⟨(refusesEntryName_eq_none_iff.mp h.name).1, freeText_asString hread.id,
    freeText_asString hread.sender, freeText_asString hread.origin,
    (refusesEntryHops_eq_none_iff.mp h.hops).2⟩

end RecordLemmas

open RecordLemmas

theorem recordsInvariant_init (cache : C) : RecordsInvariant (ServiceState.init cache) where
  ascending := ⟨List.Pairwise.nil, fun _ h => absurd h List.not_mem_nil⟩
  cursor_le _ h := absurd h List.not_mem_nil
  sound _ h := absurd h List.not_mem_nil

theorem RecordsInvariant.sameLog (h : RecordsInvariant s) (hsame : SameLog s s') :
    RecordsInvariant s' := by
  refine ⟨?_, ?_, ?_⟩
  · rw [hsame.records]
    exact h.ascending
  · rw [hsame.records, hsame.cursor]
    exact h.cursor_le
  · rw [hsame.records]
    exact h.sound

theorem RecordsInvariant.appended (h : RecordsInvariant s) (happended : Appended R w s s')
    (hw : w.Sound) : RecordsInvariant s' := by
  have hascending : CursorLog.Ascending CacheExchangeRecord.cursor
      (s.cacheExchangeRecords ++ [w.record (s.cacheExchangeCursor + 1)]) :=
    h.ascending.concat (Nat.succ_pos _) fun record hrecord =>
      Nat.lt_succ_of_le (h.cursor_le record hrecord)
  have hmem : ∀ record ∈ s'.cacheExchangeRecords, record ∈ s.cacheExchangeRecords ∨
      record = w.record (s.cacheExchangeCursor + 1) := by
    intro record hrecord
    rw [happended.records] at hrecord
    rcases List.mem_append.mp (List.mem_of_mem_drop hrecord) with hold | hnew
    · exact .inl hold
    · exact .inr (List.mem_singleton.mp hnew)
  refine ⟨?_, fun record hrecord => ?_, fun record hrecord => ?_⟩
  · rw [happended.records]
    exact ⟨hascending.sorted.sublist (List.drop_sublist _ _),
      fun record hrecord => hascending.pos record (List.mem_of_mem_drop hrecord)⟩
  · rw [happended.cursor]
    rcases hmem record hrecord with hold | rfl
    · exact Nat.le_succ_of_le (h.cursor_le record hold)
    · exact Nat.le_refl _
  · rcases hmem record hrecord with hold | rfl
    · exact h.sound record hold
    · exact sound_record hw happended.topic _

theorem RecordsInvariant.step {W : Write → Prop} (hW : ∀ w, W w → w.Sound)
    (hstep : LogStep R W s s') (h : RecordsInvariant s) : RecordsInvariant s' := by
  cases hstep with
  | same hsame => exact h.sameLog hsame
  | appended w hw happended => exact h.appended happended (hW w hw)

/-- The state after requests that are processed one at a time, with proper UUIDs. -/
def afterHostCalls (R : Relay C) (cache : C) (calls : List HostCall) : ServiceState C :=
  runFrom (fun s call => serveCall R s call.toCall) (.init cache) calls

/-- The invariant holds after every sequence of requests. -/
theorem recordsInvariant_afterCalls (R : PeerRelay C) (cache : C) (calls : List HostCall) :
    RecordsInvariant (afterHostCalls R.toRelay cache calls) := by
  refine runFrom_invariant (I := RecordsInvariant) (fun s call hs => ?_) _
    (recordsInvariant_init cache)
  show RecordsInvariant ((fetch R.toRelay call.request call.env).serve s).2
  rw [serve_state]
  have hsound : ∀ w, (LocalWrite R.toRelay w ∨
      ∃ value incoming, PushedWrite R.toRelay value incoming w) → w.Sound := by
    rintro w (hlocal | ⟨value, incoming, hpushed⟩)
    · exact sound_of_local hlocal
    · exact sound_of_pushed hpushed
  exact (leads_fetch_any call).keeps (fun s s' hstep hs => hs.step hsound hstep) hs

end

/-! ## The page of a pull -/

namespace RecordLemmas

open CursorLog

/-- What the loop does from a point at which `entries` have been collected and the cursor stands at
`n`: it collects `items` of the records, and leaves the cursor at `next`. -/
structure Selection (args : SelectExchangeEntriesArgs) (limit : Nat)
    (records : List CacheExchangeRecord) (entries : List CacheExchangeEntry) (n : Nat)
    (items : List CacheExchangeRecord) (next : Nat) : Prop where
  loop : selectLoop args limit records entries n = (entries ++ items.map exportEntry, next)
  le : n ≤ next
  filtered : items = records.filter fun x => exportsRecord args x && decide (args.after < x.cursor) &&
    decide (x.cursor ≤ next)
  fits : entries.length + items.length ≤ limit
  complete : entries.length + items.length < limit → ∀ x ∈ records, x.cursor ≤ next
  reached : next = n ∨ ∃ x ∈ records, x.cursor = next

section
variable {args : SelectExchangeEntriesArgs} {limit n next : Nat} {record : CacheExchangeRecord}
  {rest items : List CacheExchangeRecord} {entries : List CacheExchangeEntry}

theorem reached_cons {m : Nat} (h : next = m ∨ ∃ x ∈ rest, x.cursor = next)
    (hm : m = n ∨ record.cursor = m) : next = n ∨ ∃ x ∈ record :: rest, x.cursor = next := by
  rcases h with rfl | ⟨x, hx, hnext⟩
  · exact hm.imp id fun hrecord => ⟨record, List.mem_cons_self, hrecord⟩
  · exact .inr ⟨x, List.mem_cons_of_mem _ hx, hnext⟩

/-- A record that was read before is passed over. -/
theorem selection_read (h : Selection args limit rest entries n items next)
    (hskip : record.cursor ≤ args.after) (hafter : args.after ≤ n) :
    Selection args limit (record :: rest) entries n items next where
  loop := by
    unfold selectLoop
    rw [if_pos hskip, h.loop]
  le := h.le
  filtered := by
    have hout : decide (args.after < record.cursor) = false :=
      decide_eq_false (Nat.not_lt.mpr hskip)
    rw [List.filter_cons_of_neg (by simp [hout])]
    exact h.filtered
  fits := h.fits
  complete hshort := List.forall_mem_cons.mpr
    ⟨hskip.trans (hafter.trans h.le), h.complete hshort⟩
  reached := reached_cons h.reached (.inl rfl)

variable (hnew : args.after < record.cursor) (hn : n ≤ record.cursor)
include hnew hn

/-- A record that does not pass the filters moves the cursor. -/
theorem selection_hidden (h : Selection args limit rest entries record.cursor items next)
    (hexports : exportsRecord args record = false) :
    Selection args limit (record :: rest) entries n items next where
  loop := by
    unfold selectLoop
    rw [if_neg (Nat.not_le.mpr hnew), hexports, if_neg (by decide), h.loop]
  le := hn.trans h.le
  filtered := by
    rw [List.filter_cons_of_neg (by simp [hexports])]
    exact h.filtered
  fits := h.fits
  complete hshort := List.forall_mem_cons.mpr ⟨h.le, h.complete hshort⟩
  reached := reached_cons h.reached (.inr rfl)

/-- A record fills the page: what follows stays for the next one. -/
theorem selection_full (hexports : exportsRecord args record = true)
    (hfirst : ∀ x ∈ rest, record.cursor < x.cursor) (hfull : entries.length + 1 = limit) :
    Selection args limit (record :: rest) entries n [record] record.cursor where
  loop := by
    unfold selectLoop
    rw [if_neg (Nat.not_le.mpr hnew), if_pos hexports]
    have hlength : limit ≤ (entries ++ [exportEntry record]).length := by
      rw [List.length_append]
      exact hfull.ge
    exact if_pos hlength
  le := hn
  filtered := by
    have hrest : rest.filter (fun x => exportsRecord args x &&
        decide (args.after < x.cursor) && decide (x.cursor ≤ record.cursor)) = [] := by
      rw [List.filter_eq_nil_iff]
      intro x hx
      have hout := Nat.not_le.mpr (hfirst x hx)
      simp [hout]
    rw [List.filter_cons_of_pos (by simp [hexports, hnew]), hrest]
  fits := hfull.le
  complete hshort := absurd hfull hshort.ne
  reached := .inr ⟨record, List.mem_cons_self, rfl⟩

/-- A record is collected, and the page has room left. -/
theorem selection_taken (hexports : exportsRecord args record = true)
    (hroom : entries.length + 1 < limit)
    (h : Selection args limit rest (entries ++ [exportEntry record]) record.cursor items next) :
    Selection args limit (record :: rest) entries n (record :: items) next := by
  have hlength : (entries ++ [exportEntry record]).length = entries.length + 1 :=
    List.length_append
  have hcount : entries.length + (record :: items).length =
      (entries ++ [exportEntry record]).length + items.length := by
    rw [hlength, List.length_cons]
    omega
  refine ⟨?_, hn.trans h.le, ?_, ?_, fun hshort => ?_, reached_cons h.reached (.inr rfl)⟩
  · unfold selectLoop
    rw [if_neg (Nat.not_le.mpr hnew), if_pos hexports]
    show (if limit ≤ (entries ++ [exportEntry record]).length then _ else _) = _
    rw [hlength, if_neg (Nat.not_le.mpr hroom), h.loop, List.map_cons, List.append_assoc,
      List.singleton_append]
  · rw [List.filter_cons_of_pos (by simp [hexports, hnew, h.le]), ← h.filtered]
  · rw [hcount]
    exact h.fits
  · rw [hcount] at hshort
    exact List.forall_mem_cons.mpr ⟨h.le, h.complete hshort⟩

end

theorem selectLoop_spec (args : SelectExchangeEntriesArgs) (limit : Nat) :
    ∀ (records : List CacheExchangeRecord) (entries : List CacheExchangeEntry) (n : Nat),
      records.Pairwise (fun x y => x.cursor < y.cursor) → args.after ≤ n →
      (∀ x ∈ records, args.after < x.cursor → n < x.cursor) → entries.length < limit →
      ∃ items next, Selection args limit records entries n items next := by
  intro records
  induction records with
  | nil =>
    intro entries n _ _ _ hlimit
    refine ⟨[], n, ?_, Nat.le_refl n, rfl, Nat.le_of_lt hlimit, ?_, .inl rfl⟩
    · show (entries, n) = (entries ++ [], n)
      rw [List.append_nil]
    · exact fun _ _ hx => absurd hx List.not_mem_nil
  | cons record rest ih =>
    intro entries n hsorted hafter hbehind hlimit
    obtain ⟨hfirst, hsorted⟩ := List.pairwise_cons.mp hsorted
    by_cases hskip : record.cursor ≤ args.after
    · obtain ⟨items, next, h⟩ := ih entries n hsorted hafter
        (fun x hx => hbehind x (List.mem_cons_of_mem _ hx)) hlimit
      exact ⟨items, next, selection_read h hskip hafter⟩
    · have hnew : args.after < record.cursor := Nat.not_le.mp hskip
      have hn := (hbehind record List.mem_cons_self hnew).le
      have hlater : ∀ x ∈ rest, args.after < x.cursor → record.cursor < x.cursor :=
        fun x hx _ => hfirst x hx
      cases hexports : exportsRecord args record with
      | false =>
        obtain ⟨items, next, h⟩ := ih entries record.cursor hsorted hnew.le hlater hlimit
        exact ⟨items, next, selection_hidden hnew hn h hexports⟩
      | true =>
        rcases (Nat.succ_le_of_lt hlimit).eq_or_lt with hfull | hroom
        · exact ⟨[record], record.cursor, selection_full hnew hn hexports hfirst hfull⟩
        · obtain ⟨items, next, h⟩ := ih (entries ++ [exportEntry record]) record.cursor hsorted
            hnew.le hlater (List.length_append.trans_lt hroom)
          exact ⟨record :: items, next, selection_taken hnew hn hexports hroom h⟩

end RecordLemmas

open RecordLemmas

/-- A pull returns a page of the records that pass its filters. -/
theorem isPage_select {records : List CacheExchangeRecord}
    (h : CursorLog.Ascending CacheExchangeRecord.cursor records) (args : SelectExchangeEntriesArgs) :
    ∃ items, (selectCacheExchangeEntries records args).1 = items.map exportEntry ∧
      CursorLog.IsPage CacheExchangeRecord.cursor (exportsRecord args) records args.after
        (max 1 args.limit) items (selectCacheExchangeEntries records args).2 := by
  obtain ⟨items, next, heq, hle, hitems, hlen, hcomplete, hnext⟩ := selectLoop_spec args
    (max 1 args.limit) records [] args.after h.sorted (Nat.le_refl _) (fun _ _ hx => hx)
    (show 0 < max 1 args.limit by omega)
  have hselect : selectCacheExchangeEntries records args = (items.map exportEntry, next) := heq
  simp only [List.length_nil, Nat.zero_add] at hlen hcomplete
  rw [hselect]
  exact ⟨items, rfl, ⟨hle, hitems⟩, hlen, hcomplete, hnext⟩

/-! ## Exported entries at a peer -/

/-- An entry as `JSON.parse` reads it from a response. -/
def CacheExchangeEntry.wire (entry : CacheExchangeEntry) : JsonValue := entry.toJson.normalize

/-- An exported record as its importer reads it. -/
def CacheExchangeRecord.arrival (record : CacheExchangeRecord) : IncomingExchangeEntry where
  room := record.envelope.room
  id := record.envelope.id
  sender := record.envelope.sender
  topic := record.envelope.topic
  payload := record.envelope.payload.normalize
  signature := record.envelope.signature
  origin := record.origin
  hopCount := record.hopCount + 1
  maxHops := record.maxHops

namespace RecordLemmas

theorem freeText_topic {topic : String} (h : isValidTopic topic = true) : FreeText topic := by
  have hname : ∀ c, isLowerNameChar c = true → isNameChar c = true := by
    intro c hc
    unfold isLowerNameChar at hc
    unfold isNameChar
    rw [isAlphanum_eq]
    simp only [Bool.or_eq_true] at hc ⊢
    tauto
  obtain ⟨c, cs, hlist, hc, -, hcs⟩ := matchesName_chars h
  refine ⟨?_, trimmed_of_nospace fun d hd => isJsSpace_of_isNameChar (hname d ?_)⟩
  · rintro rfl
    cases hlist
  · rw [hlist, List.mem_cons] at hd
    rcases hd with rfl | hd
    · simp [isLowerNameChar, hc]
    · exact hcs d hd

theorem asString_map_normalize (value : Option JsonValue) :
    asString (value.map JsonValue.normalize) = asString value := by
  cases value with
  | none => rfl
  | some v =>
    cases v with
    | num n => cases n <;> rfl
    | null | bool _ | str _ | arr _ | obj _ => rfl

theorem asNonNegativeInt_map_normalize (value : Option JsonValue) :
    asNonNegativeInt (value.map JsonValue.normalize) = asNonNegativeInt value := by
  cases value with
  | none => rfl
  | some v =>
    cases v with
    | num n => cases n <;> rfl
    | null | bool _ | str _ | arr _ | obj _ => rfl

theorem normalizeSignature_map_normalize (value : Option JsonValue) :
    normalizeSignature (value.map JsonValue.normalize) = normalizeSignature value := by
  cases value with
  | none => rfl
  | some v =>
    cases v with
    | num n => cases n <;> rfl
    | null | bool _ | str _ | arr _ | obj _ => rfl

theorem asString_normalize {text : String} (h : FreeText text) :
    asString (some (JsonValue.str text).normalize) = some text :=
  asString_eq_some_iff.mpr ⟨text, rfl, h.2, h.1⟩

theorem asNonNegativeInt_normalize (n : Nat) :
    asNonNegativeInt (some (JsonValue.ofNat n).normalize) = some n := asNonNegativeInt_ofNat n

theorem normalizeSignature_normalize {signature : Option String}
    (h : ∀ s ∈ signature, FreeText s) :
    normalizeSignature (some (JsonValue.ofString? signature).normalize) = signature := by
  cases signature with
  | none => rfl
  | some s =>
    have hfree := h s rfl
    show (if trim s ≠ "" then some (trim s) else none) = some s
    rw [show trim s = s from hfree.2, if_pos hfree.1]

end RecordLemmas

/-- An entry that was sent once more reads the same, but for the numbers in its payload. -/
theorem parse_normalize {value : JsonValue} {defaultMaxHops : Nat}
    {incoming : IncomingExchangeEntry}
    (h : parseIncomingCacheExchangeEntry value defaultMaxHops = .ok incoming) :
    parseIncomingCacheExchangeEntry value.normalize defaultMaxHops =
      .ok { incoming with payload := incoming.payload.normalize } := by
  have hread := parseIncomingCacheExchangeEntry_ok_iff.mp h
  have hobject : value.normalize.fields?.isSome = true := by
    have hobj := hread.object
    cases value with
    | obj fields => rfl
    | null | bool _ | num _ | str _ | arr _ => cases hobj
  refine parseIncomingCacheExchangeEntry_ok_iff.mpr ⟨hobject, ?_, ?_, ?_, ?_, ?_, ?_, ?_, ?_,
    hread.maxHops_pos, ?_⟩ <;> rw [JsonValue.get?_normalize]
  · exact (asString_map_normalize _).trans hread.room
  · exact (asString_map_normalize _).trans hread.id
  · exact (asString_map_normalize _).trans hread.sender
  · exact (asString_map_normalize _).trans hread.topic
  · exact congrArg (Option.map JsonValue.normalize) hread.payload
  · exact (asString_map_normalize _).trans hread.origin
  · exact (asNonNegativeInt_map_normalize _).trans hread.hopCount
  · rw [asNonNegativeInt_map_normalize]
    exact hread.maxHops
  · exact (normalizeSignature_map_normalize _).trans hread.signature

/-- A peer reads the wire form of an exported record, one hop further. -/
theorem parse_wire {record : CacheExchangeRecord} (h : record.Sound) (defaultMaxHops : Nat) :
    parseIncomingCacheExchangeEntry (exportEntry record).wire defaultMaxHops =
      .ok record.arrival := by
  have hget : ∀ key, (exportEntry record).wire.get? key =
      ((exportEntry record).toJson.get? key).map JsonValue.normalize :=
    fun key => JsonValue.get?_normalize _ key
  refine parseIncomingCacheExchangeEntry_ok_iff.mpr ⟨rfl, ?_, ?_, ?_, ?_, ?_, ?_, ?_, ?_, ?_, ?_⟩
  · rw [hget]
    exact asString_normalize (trimmed_of_isValidRoomName h.room).symm
  · rw [hget]
    exact asString_normalize h.id
  · rw [hget]
    exact asString_normalize h.sender
  · rw [hget]
    exact asString_normalize (freeText_topic h.topic)
  · rw [hget]
    rfl
  · rw [hget]
    exact asString_normalize h.origin
  · rw [hget]
    exact asNonNegativeInt_normalize _
  · rw [hget]
    exact congrArg (fun o => Option.getD o defaultMaxHops) (asNonNegativeInt_normalize record.maxHops)
  · exact (Nat.zero_le _).trans_lt h.hopCount
  · rw [hget]
    exact normalizeSignature_normalize h.signature

/-- A value that was sent once more reads as before. -/
theorem wire_normalize (entry : CacheExchangeEntry) : entry.wire.normalize = entry.wire :=
  JsonValue.normalize_normalize _

end BitRelay
