import BitRelay.Exchange.Pushes

/-!
# The hop limit

A pull exports the records whose hop count is below their limit, one hop further. A push takes an
entry only when its hop count is below the limit, too. So the last hop that a record has left is
exported and then rejected.

Results:
1. `takes_exported_iff`: an exported entry is taken by a peer if and only if its record had at least
   two hops left.
-/

namespace BitRelay

/-- The push went through and rejected nothing: its entries were accepted, or found duplicate or
conflicting. -/
def TakesAll (response : Response) : Prop :=
  response.status = 200 ∧ response.body.get? "rejected" = some (.ofNat 0) ∧
    response.body.get? "rejection_counts" = some (.obj [])

instance (response : Response) : Decidable (TakesAll response) :=
  inferInstanceAs (Decidable (_ ∧ _ ∧ _))

/-- The hop limit is one of the reasons that the response counts. -/
def RejectsHops (response : Response) : Prop :=
  ∃ counts, response.body.get? "rejection_counts" = some counts ∧
    counts.get? CacheExchangeRejectionReason.maxHopsReached.toString = some (.ofNat 1)

section
variable {C D : Type}

namespace HopLimitLemmas

variable {R : Relay D} {request : Request} {record : CacheExchangeRecord}

theorem refusesEntry_arrival (hsound : record.Sound)
    (hnode : R.config.relayNodeId ≠ record.origin) :
    refusesEntry R record.arrival =
      if record.hopCount + 1 < record.maxHops then none else some .maxHopsReached := by
  have hname : refusesEntryName record.arrival = none :=
    RecordLemmas.refusesEntryName_eq_none_iff.mpr ⟨hsound.room, hsound.topic⟩
  unfold refusesEntry
  rw [hname]
  show (if record.origin = R.config.relayNodeId then some CacheExchangeRejectionReason.loopOrigin
    else if record.maxHops ≤ record.hopCount + 1 then some .maxHopsReached else none) = _
  rw [if_neg hnode.symm]
  split
  · next hge => rw [if_neg (Nat.not_lt.mpr hge)]
  · next hlt => rw [if_pos (Nat.not_le.mp hlt)]

theorem not_rejectsHops {response : Response} (h : TakesAll response) : ¬ RejectsHops response := by
  rintro ⟨counts, hcounts, hhops⟩
  rw [h.2.2] at hcounts
  rw [← Option.some.inj hcounts] at hhops
  cases hhops

variable (hsound : record.Sound) (hnode : R.config.relayNodeId ≠ record.origin)
  (hpush : PushRequest R request [(exportEntry record).wire])
  (htoken : checkRoomToken R request record.envelope.room = none) (env : Env) (s : ServiceState D)
include hsound hnode hpush htoken

theorem takes_of_hops_left (h : record.hopCount + 1 < record.maxHops) :
    TakesAll (serve R request env s).1 := by
  have hrefuses := refusesEntry_arrival hsound hnode
  rw [if_pos h] at hrefuses
  rcases pushEntry_cases (parse_wire hsound _) (fun hbarred => hbarred.2 htoken) 0 .zero s with
    ⟨reason, hreason, -⟩ | ⟨-, counts, s', hrun, himported⟩
  · rw [hrefuses] at hreason
    cases hreason
  · rw [serve_push_single hpush env hrun]
    refine ⟨rfl, ?_, ?_⟩
    · show some (JsonValue.ofNat counts.rejected) = some (JsonValue.ofNat 0)
      rw [himported.rejected]
      rfl
    · show some (JsonValue.obj (counts.rejectionCounts.entries.map _)) = some (JsonValue.obj [])
      rw [himported.rejectionCounts]
      rfl

theorem rejects_of_last_hop (h : ¬ record.hopCount + 1 < record.maxHops) :
    RejectsHops (serve R request env s).1 := by
  have hrefuses := refusesEntry_arrival hsound hnode
  rw [if_neg h] at hrefuses
  rcases pushEntry_cases (parse_wire hsound _) (fun hbarred => hbarred.2 htoken) 0 .zero s with
    ⟨reason, hreason, hrun⟩ | ⟨hnone, -⟩
  · rw [hrefuses] at hreason
    cases hreason
    rw [serve_push_single hpush env hrun]
    exact ⟨_, rfl, rfl⟩
  · rw [hrefuses] at hnone
    cases hnone

end HopLimitLemmas

open HopLimitLemmas

/-- An entry that a relay exports in a reachable state is taken by every other relay if and only if
its record has at least two hops left; else the push rejects it for its hops. -/
theorem takes_exported_iff (R : PeerRelay C) (cache : C) (calls : List HostCall)
    (args : SelectExchangeEntriesArgs) {entry : CacheExchangeEntry}
    (hentry : entry ∈ (selectCacheExchangeEntries
      (afterHostCalls R.toRelay cache calls).cacheExchangeRecords args).1)
    (importer : Relay D) (hnode : importer.config.relayNodeId ≠ entry.origin) {request : Request}
    (hpush : PushRequest importer request [entry.wire])
    (htoken : checkRoomToken importer request entry.room = none) (env : Env) (s : ServiceState D) :
    ∃ record ∈ (afterHostCalls R.toRelay cache calls).cacheExchangeRecords,
      entry = exportEntry record ∧
      (TakesAll (serve importer request env s).1 ↔ record.hopCount + 1 < record.maxHops) ∧
      (RejectsHops (serve importer request env s).1 ↔ ¬ record.hopCount + 1 < record.maxHops) := by
  have hinvariant := recordsInvariant_afterCalls R cache calls
  obtain ⟨items, hselect, hpage⟩ := isPage_select hinvariant.ascending args
  rw [hselect] at hentry
  obtain ⟨record, hitem, rfl⟩ := List.mem_map.mp hentry
  have hrecord := (hpage.mem_iff.mp hitem).1
  have hsound := hinvariant.sound record hrecord
  refine ⟨record, hrecord, rfl, ?_⟩
  by_cases h : record.hopCount + 1 < record.maxHops
  · have htakes := takes_of_hops_left hsound hnode hpush htoken env s h
    exact ⟨⟨fun _ => h, fun _ => htakes⟩,
      fun hrejects => absurd hrejects (not_rejectsHops htakes), fun hnot => absurd h hnot⟩
  · have hrejects := rejects_of_last_hop hsound hnode hpush htoken env s h
    exact ⟨⟨fun htakes => absurd hrejects (not_rejectsHops htakes), fun hlt => absurd hlt h⟩,
      fun _ => h, fun _ => hrejects⟩

end

/-! ## On the toy host -/

/-- The entry that a peer is sent for the first message of a relay. -/
def toyExport (maxHops : Nat) : CacheExchangeEntry where
  cursor := 1
  room := "main"
  id := "m1"
  sender := "alice"
  topic := "notify"
  payload := .null
  signature := none
  origin := "relay-a"
  hopCount := 1
  maxHops

/-- With a limit of three hops the first peer takes the message. -/
theorem takes_exported_three :
    ∃ record ∈ (afterHostCalls (PeerRelay.toy "relay-a" (by decide) 3 (by decide)).toRelay ()
        [toyPublish "m1"]).cacheExchangeRecords,
      toyExport 3 = exportEntry record ∧
      (TakesAll (serve (PeerRelay.toy "relay-b" (by decide) 3 (by decide)).toRelay
        (toyPush [(toyExport 3).wire]) (.at 0) (.init ())).1 ↔
          record.hopCount + 1 < record.maxHops) ∧
      (RejectsHops (serve (PeerRelay.toy "relay-b" (by decide) 3 (by decide)).toRelay
        (toyPush [(toyExport 3).wire]) (.at 0) (.init ())).1 ↔
          ¬ record.hopCount + 1 < record.maxHops) :=
  takes_exported_iff (PeerRelay.toy "relay-a" (by decide) 3 (by decide)) () [toyPublish "m1"]
    ⟨0, 100, some "relay-b", none⟩ (by decide)
    (PeerRelay.toy "relay-b" (by decide) 3 (by decide)).toRelay (by decide)
    ⟨rfl, rfl, by decide, by decide, _, rfl, rfl⟩ (by decide) (.at 0) (.init ())

/-- With a limit of one hop the message is exported, and every peer rejects it. -/
theorem one_hop_rejected :
    toyExport 1 ∈ (selectCacheExchangeEntries (afterHostCalls
      (PeerRelay.toy "relay-a" (by decide) 1 (by decide)).toRelay ()
        [toyPublish "m1"]).cacheExchangeRecords ⟨0, 100, some "relay-b", none⟩).1 ∧
    (serve (PeerRelay.toy "relay-b" (by decide) 1 (by decide)).toRelay
      (toyPush [(toyExport 1).wire]) (.at 0) (.init ())).1.body.get? "rejection_counts" =
        some (.obj [("max_hops_reached", .ofNat 1)]) := by
  decide

end BitRelay
