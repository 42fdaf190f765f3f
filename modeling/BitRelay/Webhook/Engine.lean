import BitRelay.Lib.Run
import BitRelay.Snapshot.Service
import Mathlib.Data.List.Dedup

/-!
# The issue sync engine

`createIssueSyncEngine` of `issue_sync_engine.ts` with any limits and any callbacks. It keeps the
processed delivery ids, capped, and a queue of failed deliveries in two structures: a map of the
entries and the list of their ids in the order of their arrival. `IssueSync.lean` has the engine
as the relay configures it.

`applyDelivery` awaits its `publish`; all that it does to the engine, it does after that wait and
in one piece, so it is one step here.

`restore` fills the structures from a JSON value without the checks of the operations: an id that
is listed twice in `dlq` enters the list twice, and the processed ids are not capped. The list is
also left behind by an entry whose id is empty: the loop that drops the oldest entries takes an
empty id for the end of the list.

Results:
1. `walk_of_queued`: a walk through a well-formed queue shows each entry once.
2. `well_formed_iff`: the engine stays well-formed in a run exactly as long as no snapshot is
   restored that lists an id twice or holds too much, and no empty id is dropped.
3. `restore_duplicate`: a run after which it is not.
4. `rememberDeliveryId_relay`, `enqueueDlq_relay`: the relay's engine is this one under the relay's
   limits.
-/

namespace BitRelay

namespace IssueSyncEngine

/-! ## Options -/

structure IssueSyncEngineOptions where
  maxDeliveryIds : Option JsNumber
  maxDlqEntries : Option JsNumber
  retryBaseSec : Option JsNumber

def DEFAULT_MAX_DELIVERY_IDS : Nat := 10000

def DEFAULT_MAX_DLQ_ENTRIES : Nat := 10000

def DEFAULT_RETRY_BASE_SEC : Nat := 30

def normalizePositiveInt (raw : Option JsNumber) (fallback : Nat) : Nat :=
  match raw with
  | some (.finite q) =>
    if q ≤ 0 then fallback else ((JsNumber.finite q).truncInt?.map Int.toNat).getD fallback
  | _ => fallback

/-- The constants of an engine. -/
structure Limits where
  maxDeliveryIds : Nat
  maxDlqEntries : Nat
  retryBaseSec : Nat

def Limits.ofOptions (options : IssueSyncEngineOptions) : Limits where
  maxDeliveryIds := normalizePositiveInt options.maxDeliveryIds DEFAULT_MAX_DELIVERY_IDS
  maxDlqEntries := normalizePositiveInt options.maxDlqEntries DEFAULT_MAX_DLQ_ENTRIES
  retryBaseSec := normalizePositiveInt options.retryBaseSec DEFAULT_RETRY_BASE_SEC

/-- The limits of the relay. -/
def Limits.relay : Limits :=
  ⟨MAX_GITHUB_WEBHOOK_DELIVERY_IDS, MAX_GITHUB_WEBHOOK_DLQ_ENTRIES, GITHUB_WEBHOOK_RETRY_BASE_SEC⟩

/-! ## Operations -/

section
variable (L : Limits)

def rememberDeliveryId (engine : IssueSyncState) (deliveryId : String) (ts : Int) :
    IssueSyncState :=
  let deliveryIds := engine.deliveryIds.set deliveryId ts
  { engine with deliveryIds := deliveryIds.dropOldest (deliveryIds.size - L.maxDeliveryIds) }

def computeNextRetryAt (currentSec : Int) (retryCount : Nat) : Int :=
  currentSec + (min 3600 (L.retryBaseSec * max 1 (2 ^ retryCount)) : Nat)

/-- The loop that shifts the oldest ids off the list; an empty id ends it. -/
def shiftOverflow : Nat → List String → OrdMap String IssueSyncDlqEntry →
    List String × OrdMap String IssueSyncDlqEntry
  | 0, dlqOrder, dlq => (dlqOrder, dlq)
  | _ + 1, [], dlq => ([], dlq)
  | overflow + 1, removed :: rest, dlq =>
    if removed = "" then (rest, dlq) else shiftOverflow overflow rest (dlq.erase removed)

def enqueueDlq (engine : IssueSyncState) (deliveryId event : String) (body : Body) (error : String)
    (incrementRetry : Bool) (currentSec : Int) : IssueSyncDlqEntry × IssueSyncState :=
  let existing := engine.dlq.get? deliveryId
  let increment := if incrementRetry then 1 else 0
  let retryCount := (existing.map IssueSyncDlqEntry.retryCount).getD 0 + increment
  let entry : IssueSyncDlqEntry := {
    deliveryId, event, body
    createdAt := (existing.map IssueSyncDlqEntry.createdAt).getD currentSec
    updatedAt := currentSec
    retryCount
    nextRetryAt := computeNextRetryAt L currentSec retryCount
    lastError := error }
  let dlqOrder :=
    if existing.isSome then engine.dlqOrder else engine.dlqOrder ++ [deliveryId]
  let (dlqOrder, dlq) := shiftOverflow (dlqOrder.length - L.maxDlqEntries) dlqOrder
    (engine.dlq.set deliveryId entry)
  (entry, { engine with dlq, dlqOrder })

structure IssueSyncMapInput where
  event : String
  deliveryId : String
  requestBody : Body
  parsed : JsonValue

structure IssueSyncPublishResult where
  status : Nat
  accepted : Bool
  cursor : Option Nat

structure ApplyArgs where
  event : String
  deliveryId : String
  requestBody : Body
  map : IssueSyncMapInput → Except String IssueSyncMappedEnvelope
  /-- what the promise of `publish` resolves to -/
  publish : IssueSyncMappedEnvelope → IssueSyncPublishResult

inductive ApplyResult
  | duplicate (deliveryId event : String)
  | published (deliveryId event : String) (accepted : Bool) (mapped : IssueSyncMappedEnvelope)
      (cursor : Option Nat)
  | failed (deliveryId event error : String)

def applyDelivery (P : Platform) (engine : IssueSyncState) (args : ApplyArgs) (nowSec : Int) :
    ApplyResult × IssueSyncState :=
  let event := P.toLowerCase (trim args.event)
  let deliveryId := trim args.deliveryId
  if event = "" then (.failed deliveryId event "missing issue sync event", engine)
  else if deliveryId = "" then (.failed deliveryId event "missing issue sync delivery id", engine)
  else if engine.deliveryIds.has deliveryId then (.duplicate deliveryId event, engine)
  else
    match args.requestBody.json with
    | some (.obj fields) =>
      match args.map ⟨event, deliveryId, args.requestBody, .obj fields⟩ with
      | .error error => (.failed deliveryId event error, engine)
      | .ok mapped =>
        let published := args.publish mapped
        if published.status ≠ 200 then
          (.failed deliveryId event ("publish failed: status=" ++ toString published.status), engine)
        else
          let engine := rememberDeliveryId L engine deliveryId nowSec
          (.published deliveryId event published.accepted mapped published.cursor,
            if published.accepted then engine.removeDlq deliveryId else engine)
    | _ => (.failed deliveryId event "invalid json payload", engine)

/-! ## Restoring -/

/-- A queued delivery of a snapshot; `none` is skipped. -/
def restoreEntry (parseBody : String → Option JsonValue) (nowSec : Int) (value : JsonValue) :
    Option IssueSyncDlqEntry :=
  let deliveryId := trim (value.strField "delivery_id")
  let text := value.strField "body"
  let createdAt := (value.countField? "created_at").getD 0
  let retryCount := (value.countField? "retry_count").getD 0
  if deliveryId ≠ "" then some {
    deliveryId
    event := trim (value.strField "event")
    body := ⟨text, parseBody text⟩
    createdAt
    updatedAt := (value.countField? "updated_at").getD createdAt
    retryCount
    nextRetryAt := ((value.countField? "next_retry_at").map fun n => (n : Int)).getD
      (computeNextRetryAt L nowSec retryCount)
    lastError := value.strField "last_error" }
  else none

/-- The loop over `dlq`; it ends when the list is full. -/
def restoreQueue (parseBody : String → Option JsonValue) (nowSec : Int) :
    List JsonValue → OrdMap String IssueSyncDlqEntry → List String →
      OrdMap String IssueSyncDlqEntry × List String
  | [], dlq, dlqOrder => (dlq, dlqOrder)
  | value :: rest, dlq, dlqOrder =>
    match restoreEntry L parseBody nowSec value with
    | none => restoreQueue parseBody nowSec rest dlq dlqOrder
    | some entry =>
      let dlq := dlq.set entry.deliveryId entry
      let dlqOrder := dlqOrder ++ [entry.deliveryId]
      if L.maxDlqEntries ≤ dlqOrder.length then (dlq, dlqOrder)
      else restoreQueue parseBody nowSec rest dlq dlqOrder

def restore (parseBody : String → Option JsonValue) (nowSec : Int) (snapshotData : JsonValue) :
    IssueSyncState :=
  let (dlq, dlqOrder) :=
    restoreQueue L parseBody nowSec ((snapshotData.arrField? "dlq").getD []) ∅ []
  { deliveryIds := OrdMap.ofList
      ((JsonValue.entries (snapshotData.get? "deliveries")).filterMap restoreDelivery)
    dlq
    dlqOrder }

end

/-! ## Runs -/

inductive Call
  | enqueueDlq (deliveryId event : String) (body : Body) (error : String) (incrementRetry : Bool)
      (nowSec : Int)
  | removeDlq (deliveryId : String)
  | applyDelivery (args : ApplyArgs) (nowSec : Int)
  | restore (snapshotData : JsonValue) (nowSec : Int)

def step (L : Limits) (P : Platform) (parseBody : String → Option JsonValue)
    (engine : IssueSyncState) : Call → IssueSyncState
  | .enqueueDlq deliveryId event body error incrementRetry nowSec =>
    (enqueueDlq L engine deliveryId event body error incrementRetry nowSec).2
  | .removeDlq deliveryId => engine.removeDlq deliveryId
  | .applyDelivery args nowSec => (applyDelivery L P engine args nowSec).2
  | .restore snapshotData nowSec => restore L parseBody nowSec snapshotData

/-- The entries that a walk shows, one page after the other. -/
def walkDlq (engine : IssueSyncState) : List Nat → Nat → List IssueSyncDlqEntry
  | [], _ => []
  | limit :: limits, after =>
    (engine.listDlq after limit).1 ++ walkDlq engine limits (engine.listDlq after limit).2

/-- The two structures agree, are within the limits, and a walk from the start that is long enough
shows each entry once. -/
structure WellFormed (L : Limits) (engine : IssueSyncState) : Prop where
  distinct : engine.dlqOrder.Nodup
  queued : ∀ deliveryId, engine.dlq.has deliveryId = true ↔ deliveryId ∈ engine.dlqOrder
  capped : engine.dlqOrder.length ≤ L.maxDlqEntries
  remembered : engine.deliveryIds.size ≤ L.maxDeliveryIds
  walked : ∀ limits : List Nat, engine.dlqOrder.length ≤ limits.sum →
    (walkDlq engine limits 0).Perm engine.dlq.values

/-- The ids of the deliveries that a snapshot lists as processed. -/
def processedIds (snapshotData : JsonValue) : List String :=
  ((JsonValue.entries (snapshotData.get? "deliveries")).filterMap restoreDelivery).map Prod.fst

/-- The ids of the deliveries that a snapshot lists as queued. -/
def queuedIds (snapshotData : JsonValue) : List String :=
  (((snapshotData.arrField? "dlq").getD []).map fun value =>
    trim (value.strField "delivery_id")).filter (· ≠ "")

/-- A restored snapshot keeps to the limits and names no queued delivery twice in the part that is
read; an empty id is not the one that a full queue drops. -/
def KeepsWellFormed (L : Limits) (engine : IssueSyncState) : Call → Prop
  | .enqueueDlq deliveryId _ _ _ _ _ =>
    engine.dlq.has deliveryId = false → L.maxDlqEntries ≤ engine.dlqOrder.length →
      (engine.dlqOrder ++ [deliveryId]).head? ≠ some ""
  | .restore snapshotData _ =>
    (processedIds snapshotData).dedup.length ≤ L.maxDeliveryIds ∧
    ((queuedIds snapshotData).take (max 1 L.maxDlqEntries)).Nodup ∧
    ((queuedIds snapshotData).take (max 1 L.maxDlqEntries)).length ≤ L.maxDlqEntries
  | _ => True

namespace EngineLemmas

variable {L : Limits} {P : Platform} {parseBody : String → Option JsonValue}
  {engine : IssueSyncState}

/-! ### Walking -/

theorem filterMap_get?_of_has {m : OrdMap String IssueSyncDlqEntry} (ids : List String)
    (h : ∀ id ∈ ids, m.has id = true) : (ids.filterMap m.get?).length = ids.length := by
  induction ids with
  | nil => rfl
  | cons id rest ih =>
    obtain ⟨entry, hentry⟩ := Option.isSome_iff_exists.mp (h id List.mem_cons_self)
    rw [List.filterMap_cons, hentry, List.length_cons, List.length_cons,
      ih fun id' hid' => h id' (List.mem_cons_of_mem _ hid')]

theorem filterMap_keys (m : OrdMap String IssueSyncDlqEntry) :
    m.keys.filterMap m.get? = m.values := by
  unfold OrdMap.keys OrdMap.values
  rw [List.filterMap_map]
  have hget : ∀ e ∈ m.entries, (m.get? ∘ Prod.fst) e = some e.2 := fun e he =>
    OrdMap.get?_eq_some_iff.mpr he
  rw [List.filterMap_congr hget]
  change m.entries.filterMap (some ∘ Prod.snd) = _
  rw [List.filterMap_eq_map]

/-- A page of a well-formed queue has an entry for each of its ids. -/
theorem listDlq_eq (hqueued : ∀ id, engine.dlq.has id = true ↔ id ∈ engine.dlqOrder)
    (after limit : Nat) : engine.listDlq after limit =
      (((engine.dlqOrder.drop after).take limit).filterMap engine.dlq.get?,
        after + ((engine.dlqOrder.drop after).take limit).length) := by
  have hlength := filterMap_get?_of_has (m := engine.dlq)
    ((engine.dlqOrder.drop after).take limit) fun id hid =>
      (hqueued id).mpr (List.mem_of_mem_drop (List.mem_of_mem_take hid))
  unfold IssueSyncState.listDlq
  simp only [hlength, ite_self]

theorem walkDlq_eq (hqueued : ∀ id, engine.dlq.has id = true ↔ id ∈ engine.dlqOrder)
    (limits : List Nat) (after : Nat) : walkDlq engine limits after =
      ((engine.dlqOrder.drop after).take limits.sum).filterMap engine.dlq.get? := by
  induction limits generalizing after with
  | nil => simp [walkDlq]
  | cons limit rest ih =>
    have hnext : engine.dlqOrder.drop (after + ((engine.dlqOrder.drop after).take limit).length) =
        (engine.dlqOrder.drop after).drop limit := by
      rw [List.drop_drop, List.length_take, List.length_drop]
      rcases Nat.le_total limit (engine.dlqOrder.length - after) with hle | hge
      · rw [Nat.min_eq_left hle]
      · -- The last page ends the list.
        rw [Nat.min_eq_right hge, List.drop_of_length_le (by omega),
          List.drop_of_length_le (by omega)]
    unfold walkDlq
    rw [listDlq_eq hqueued, ih]
    simp only [hnext]
    rw [← List.filterMap_append, ← List.take_add, List.sum_cons]

theorem order_perm_keys (hdistinct : engine.dlqOrder.Nodup)
    (hqueued : ∀ id, engine.dlq.has id = true ↔ id ∈ engine.dlqOrder) :
    engine.dlqOrder.Perm engine.dlq.keys := by
  refine (List.perm_ext_iff_of_nodup hdistinct engine.dlq.nodup).mpr fun id => ?_
  rw [← hqueued id]
  exact OrdMap.has_iff_mem_keys

end EngineLemmas

open EngineLemmas

/-- A walk through a well-formed queue shows each entry once. -/
theorem walk_of_queued {engine : IssueSyncState} (hdistinct : engine.dlqOrder.Nodup)
    (hqueued : ∀ id, engine.dlq.has id = true ↔ id ∈ engine.dlqOrder) {limits : List Nat}
    (hlong : engine.dlqOrder.length ≤ limits.sum) :
    (walkDlq engine limits 0).Perm engine.dlq.values := by
  rw [walkDlq_eq hqueued, List.drop_zero, List.take_of_length_le hlong, ← filterMap_keys]
  exact (order_perm_keys hdistinct hqueued).filterMap _

theorem WellFormed.mk' {L : Limits} {engine : IssueSyncState} (hdistinct : engine.dlqOrder.Nodup)
    (hqueued : ∀ id, engine.dlq.has id = true ↔ id ∈ engine.dlqOrder)
    (hcapped : engine.dlqOrder.length ≤ L.maxDlqEntries)
    (hremembered : engine.deliveryIds.size ≤ L.maxDeliveryIds) : WellFormed L engine :=
  ⟨hdistinct, hqueued, hcapped, hremembered, fun _ => walk_of_queued hdistinct hqueued⟩

theorem wellFormed_empty (L : Limits) : WellFormed L .empty :=
  .mk' List.nodup_nil (fun _ => ⟨nofun, nofun⟩) (Nat.zero_le _) (Nat.zero_le _)

namespace EngineLemmas

variable {L : Limits} {P : Platform} {parseBody : String → Option JsonValue}
  {engine : IssueSyncState}

/-! ### What the operations keep -/

theorem wellFormed_rememberDeliveryId (h : WellFormed L engine) (deliveryId : String) (ts : Int) :
    WellFormed L (rememberDeliveryId L engine deliveryId ts) := by
  refine .mk' h.distinct h.queued h.capped ?_
  unfold rememberDeliveryId
  simp only [OrdMap.size_dropOldest]
  omega

theorem wellFormed_removeDlq (h : WellFormed L engine) (deliveryId : String) :
    WellFormed L (engine.removeDlq deliveryId) := by
  unfold IssueSyncState.removeDlq
  split
  · refine .mk' (h.distinct.erase deliveryId) (fun other => ?_)
      (List.length_erase_le.trans h.capped) h.remembered
    rw [h.distinct.mem_erase_iff, ← h.queued other]
    simp only [OrdMap.has, OrdMap.get?_erase]
    by_cases heq : other = deliveryId
    · simp [heq]
    · simp [heq]
  · exact h

theorem wellFormed_applyDelivery (h : WellFormed L engine) (args : ApplyArgs) (nowSec : Int) :
    WellFormed L (applyDelivery L P engine args nowSec).2 := by
  unfold applyDelivery
  dsimp only
  split
  · exact h
  split
  · exact h
  split
  · exact h
  split
  · split
    · exact h
    · split
      · exact h
      · have hremembered := wellFormed_rememberDeliveryId h (trim args.deliveryId) nowSec
        dsimp only
        split
        · exact wellFormed_removeDlq hremembered _
        · exact hremembered
  · exact h

theorem wellFormed_enqueueDlq (h : WellFormed L engine) (deliveryId event : String) (body : Body)
    (error : String) (incrementRetry : Bool) (nowSec : Int) :
    WellFormed L (enqueueDlq L engine deliveryId event body error incrementRetry nowSec).2 ↔
      KeepsWellFormed L engine (.enqueueDlq deliveryId event body error incrementRetry nowSec) := by
  unfold enqueueDlq KeepsWellFormed
  dsimp only
  generalize hentry : (IssueSyncDlqEntry.mk deliveryId event body _ _ _ _ _) = entry
  cases hexisting : engine.dlq.get? deliveryId with
  | some existing =>
    have hhas : engine.dlq.has deliveryId = true := by
      unfold OrdMap.has
      rw [hexisting]
      rfl
    have hoverflow : engine.dlqOrder.length - L.maxDlqEntries = 0 := Nat.sub_eq_zero_of_le h.capped
    simp only [Option.isSome_some, if_true, hoverflow, shiftOverflow, hhas]
    refine iff_of_true (.mk' h.distinct (fun other => ?_) h.capped h.remembered) fun h => by cases h
    rw [OrdMap.has_set, ← h.queued other]
    refine or_iff_right_of_imp fun heq => ?_
    rw [heq]
    exact hhas
  | none =>
    have hhas : engine.dlq.has deliveryId = false := OrdMap.has_eq_false_iff.mpr hexisting
    have hnew : deliveryId ∉ engine.dlqOrder := by
      rw [← h.queued deliveryId, hhas]
      exact Bool.false_ne_true
    have hdistinct : (engine.dlqOrder ++ [deliveryId]).Nodup :=
      h.distinct.append (List.nodup_singleton _) (by simpa using hnew)
    have hqueued : ∀ other, (engine.dlq.set deliveryId entry).has other = true ↔
        other ∈ engine.dlqOrder ++ [deliveryId] := by
      intro other
      rw [OrdMap.has_set, h.queued other, List.mem_append, List.mem_singleton]
      exact or_comm
    simp only [Option.isSome_none, Bool.false_eq_true, if_false, hhas, List.length_append,
      List.length_singleton]
    rcases Nat.lt_or_ge engine.dlqOrder.length L.maxDlqEntries with hlt | hge
    · have hoverflow : engine.dlqOrder.length + 1 - L.maxDlqEntries = 0 := by omega
      simp only [hoverflow, shiftOverflow]
      refine iff_of_true (.mk' hdistinct hqueued ?_ h.remembered)
        fun _ hge => absurd hge (Nat.not_le.mpr hlt)
      rw [List.length_append]
      exact hlt
    · -- The queue is full, so the oldest id is shifted off the list.
      have hlength : engine.dlqOrder.length = L.maxDlqEntries := Nat.le_antisymm h.capped hge
      have hoverflow : engine.dlqOrder.length + 1 - L.maxDlqEntries = 1 := by omega
      simp only [hoverflow, true_implies, hge]
      cases horder : engine.dlqOrder ++ [deliveryId] with
      | nil => simp at horder
      | cons removed rest =>
        rw [horder] at hdistinct hqueued
        obtain ⟨hremoved, hrest⟩ := List.nodup_cons.mp hdistinct
        have hcapped : rest.length ≤ L.maxDlqEntries := by
          have hlong := congrArg List.length horder
          rw [List.length_append, List.length_singleton, List.length_cons] at hlong
          omega
        simp only [shiftOverflow, List.head?_cons, ne_eq, Option.some.injEq]
        by_cases hempty : removed = ""
        · -- The list loses the empty id and the map keeps its entry.
          simp only [hempty, if_true, not_true_eq_false, iff_false]
          intro hbroken
          have hkept : (engine.dlq.set deliveryId entry).has removed = true :=
            (hqueued removed).mpr List.mem_cons_self
          exact hremoved ((hbroken.queued removed).mp hkept)
        · simp only [hempty, if_false, not_false_eq_true, iff_true]
          refine .mk' hrest (fun other => ?_) hcapped h.remembered
          have hother := hqueued other
          unfold OrdMap.has at hother ⊢
          rw [OrdMap.get?_erase]
          by_cases heq : other = removed
          · rw [if_pos heq, heq]
            exact iff_of_false Bool.false_ne_true hremoved
          · rw [if_neg heq, hother, List.mem_cons]
            exact or_iff_right heq

/-! ### What a snapshot is read as -/

variable (L parseBody) in
theorem restoreEntry_ids (nowSec : Int) (values : List JsonValue) :
    (values.filterMap (restoreEntry L parseBody nowSec)).map IssueSyncDlqEntry.deliveryId =
      (values.map fun value => trim (value.strField "delivery_id")).filter (· ≠ "") := by
  induction values with
  | nil => rfl
  | cons value rest ih =>
    rw [List.filterMap_cons, List.map_cons, List.filter_cons]
    unfold restoreEntry
    dsimp only
    split
    · next hnone =>
      split at hnone
      · cases hnone
      · next hempty =>
        rw [if_neg (by simpa using hempty)]
        exact ih
    · next entry hsome =>
      split at hsome
      · next hne =>
        rw [if_pos (by simpa using hne), List.map_cons, ← Option.some.inj hsome]
        exact congrArg _ ih
      · cases hsome

variable (L parseBody) in
/-- The loop stores the entries up to the limit, in their order. -/
theorem restoreQueue_eq (nowSec : Int) (values : List JsonValue)
    (dlq : OrdMap String IssueSyncDlqEntry) (dlqOrder : List String)
    (hroom : dlqOrder.length < max 1 L.maxDlqEntries) :
    restoreQueue L parseBody nowSec values dlq dlqOrder =
      ((((values.filterMap (restoreEntry L parseBody nowSec)).take
          (max 1 L.maxDlqEntries - dlqOrder.length)).map fun entry =>
            (entry.deliveryId, entry)).foldl (fun m e => m.set e.1 e.2) dlq,
        dlqOrder ++ ((values.filterMap (restoreEntry L parseBody nowSec)).map
          IssueSyncDlqEntry.deliveryId).take (max 1 L.maxDlqEntries - dlqOrder.length)) := by
  induction values generalizing dlq dlqOrder with
  | nil => simp [restoreQueue]
  | cons value rest ih =>
    unfold restoreQueue
    rw [List.filterMap_cons]
    cases restoreEntry L parseBody nowSec value with
    | none => exact ih dlq dlqOrder hroom
    | some entry =>
      obtain ⟨n, hn⟩ : ∃ n, max 1 L.maxDlqEntries - dlqOrder.length = n + 1 :=
        ⟨max 1 L.maxDlqEntries - dlqOrder.length - 1, by omega⟩
      simp only [hn, List.take_succ_cons, List.map_cons, List.foldl_cons, List.length_append,
        List.length_singleton]
      split
      · -- The list is full.
        have hzero : n = 0 := by omega
        subst hzero
        simp
      · have hlength : (dlqOrder ++ [entry.deliveryId]).length = dlqOrder.length + 1 := by simp
        rw [ih _ _ (by rw [hlength]; omega), hlength]
        have hn' : max 1 L.maxDlqEntries - (dlqOrder.length + 1) = n := by omega
        rw [hn', List.append_assoc]
        rfl

theorem size_ofList {ν : Type} (l : List (String × ν)) :
    (OrdMap.ofList l).size = (l.map Prod.fst).dedup.length := by
  rw [OrdMap.size_eq_length_keys]
  refine List.Perm.length_eq ((List.perm_ext_iff_of_nodup (OrdMap.ofList l).nodup
    (List.nodup_dedup _)).mpr fun k => ?_)
  rw [List.mem_dedup]
  refine OrdMap.has_iff_mem_keys.symm.trans (OrdMap.has_foldl_set.trans ?_)
  exact or_iff_right nofun

theorem wellFormed_restore (nowSec : Int) (snapshotData : JsonValue) :
    WellFormed L (restore L parseBody nowSec snapshotData) ↔
      KeepsWellFormed L engine (.restore snapshotData nowSec) := by
  have hqueue := restoreQueue_eq L parseBody nowSec
    ((snapshotData.arrField? "dlq").getD []) ∅ [] (by simp)
  rw [restoreEntry_ids, List.nil_append, List.length_nil, Nat.sub_zero] at hqueue
  have horder : (restore L parseBody nowSec snapshotData).dlqOrder =
      (queuedIds snapshotData).take (max 1 L.maxDlqEntries) := by
    unfold restore
    rw [hqueue]
    rfl
  have hqueued : ∀ id, (restore L parseBody nowSec snapshotData).dlq.has id = true ↔
      id ∈ (restore L parseBody nowSec snapshotData).dlqOrder := by
    intro id
    rw [horder]
    unfold restore
    rw [hqueue]
    refine OrdMap.has_foldl_set.trans ((or_iff_right nofun).trans ?_)
    rw [List.map_map]
    unfold queuedIds
    rw [← restoreEntry_ids L parseBody nowSec, ← List.map_take]
    rfl
  have hsize : (restore L parseBody nowSec snapshotData).deliveryIds.size =
      (processedIds snapshotData).dedup.length := by
    unfold restore
    exact size_ofList _
  constructor
  · intro h
    have hremembered := h.remembered
    have hdistinct := h.distinct
    have hcapped := h.capped
    rw [hsize] at hremembered
    rw [horder] at hdistinct hcapped
    exact ⟨hremembered, hdistinct, hcapped⟩
  · rintro ⟨hremembered, hdistinct, hcapped⟩
    rw [← hsize] at hremembered
    rw [← horder] at hdistinct hcapped
    exact .mk' hdistinct hqueued hcapped hremembered

end EngineLemmas

/-! ## Results -/

/-- A call leaves a well-formed engine well-formed exactly if it meets the condition. -/
theorem wellFormed_step {L : Limits} {P : Platform} {parseBody : String → Option JsonValue}
    {engine : IssueSyncState} (h : WellFormed L engine) (call : Call) :
    WellFormed L (step L P parseBody engine call) ↔ KeepsWellFormed L engine call := by
  cases call with
  | enqueueDlq deliveryId event body error incrementRetry nowSec =>
    exact wellFormed_enqueueDlq h deliveryId event body error incrementRetry nowSec
  | removeDlq deliveryId => exact iff_of_true (wellFormed_removeDlq h deliveryId) trivial
  | applyDelivery args nowSec => exact iff_of_true (wellFormed_applyDelivery h args nowSec) trivial
  | restore snapshotData nowSec => exact wellFormed_restore nowSec snapshotData

/-- The engine is well-formed in all states of a run exactly if every call meets the condition. -/
theorem well_formed_iff (options : IssueSyncEngineOptions) (P : Platform)
    (parseBody : String → Option JsonValue) (calls : List Call) :
    (∀ before, before <+: calls → WellFormed (.ofOptions options)
      (runFrom (step (.ofOptions options) P parseBody) .empty before)) ↔
      Along (step (.ofOptions options) P parseBody) (KeepsWellFormed (.ofOptions options)) .empty
        calls :=
  prefixes_iff_along (P := WellFormed (.ofOptions options)) (fun _ call h => wellFormed_step h call)
    (wellFormed_empty _)

/-- A snapshot that lists one id twice. -/
def duplicateSnapshot : JsonValue :=
  .obj [("dlq", .arr [.obj [("delivery_id", .str "a")], .obj [("delivery_id", .str "a")]])]

theorem restore_duplicate :
    (step (.ofOptions ⟨none, none, none⟩) .toy (fun _ => none) .empty
      (.restore duplicateSnapshot 0)).dlqOrder = ["a", "a"] ∧
    ¬ ∀ before, before <+: [Call.restore duplicateSnapshot 0] →
      WellFormed (.ofOptions ⟨none, none, none⟩)
        (runFrom (step (.ofOptions ⟨none, none, none⟩) .toy fun _ => none) .empty before) := by
  have horder : (step (.ofOptions ⟨none, none, none⟩) .toy (fun _ => none) .empty
      (.restore duplicateSnapshot 0)).dlqOrder = ["a", "a"] := by
    decide +kernel
  refine ⟨horder, fun h => ?_⟩
  have hdistinct := (h _ List.prefix_rfl).distinct
  rw [runFrom_cons, runFrom_nil, horder] at hdistinct
  exact absurd hdistinct (by decide)

/-- The loop drops the oldest ids, unless one of them is empty. -/
theorem shiftOverflow_eq (overflow : Nat) {dlqOrder : List String} (h : "" ∉ dlqOrder)
    (dlq : OrdMap String IssueSyncDlqEntry) : shiftOverflow overflow dlqOrder dlq =
      (dlqOrder.drop overflow, (dlqOrder.take overflow).foldl (fun m id => m.erase id) dlq) := by
  induction overflow generalizing dlqOrder dlq with
  | zero => rfl
  | succ overflow ih =>
    cases dlqOrder with
    | nil => rfl
    | cons removed rest =>
      rw [List.mem_cons, not_or] at h
      rw [shiftOverflow, if_neg fun hempty => h.1 hempty.symm]
      exact ih h.2 _

/-- The relay's queue is this one under limits that are the relay's, as long as no id is empty. -/
theorem enqueueDlq_eq {L : Limits} (hmax : MAX_GITHUB_WEBHOOK_DLQ_ENTRIES = L.maxDlqEntries)
    (hretry : IssueSyncState.computeNextRetryAt = computeNextRetryAt L) {engine : IssueSyncState}
    (horder : "" ∉ engine.dlqOrder) {deliveryId : String} (hid : deliveryId ≠ "") (event : String)
    (body : Body) (error : String) (incrementRetry : Bool) (currentSec : Int) :
    engine.enqueueDlq deliveryId event body error incrementRetry currentSec =
      enqueueDlq L engine deliveryId event body error incrementRetry currentSec := by
  have hnew : "" ∉ if (engine.dlq.get? deliveryId).isSome then engine.dlqOrder
      else engine.dlqOrder ++ [deliveryId] := by
    split
    · exact horder
    · simp only [List.mem_append, List.mem_singleton, not_or]
      exact ⟨horder, fun h => hid h.symm⟩
  unfold IssueSyncState.enqueueDlq enqueueDlq
  rw [hretry, hmax]
  dsimp only
  rw [shiftOverflow_eq _ hnew]

theorem rememberDeliveryId_eq {L : Limits} (hmax : MAX_GITHUB_WEBHOOK_DELIVERY_IDS = L.maxDeliveryIds)
    (engine : IssueSyncState) (deliveryId : String) (ts : Int) :
    engine.rememberDeliveryId deliveryId ts = rememberDeliveryId L engine deliveryId ts := by
  unfold IssueSyncState.rememberDeliveryId rememberDeliveryId
  rw [hmax]

theorem relay_maxDeliveryIds :
    MAX_GITHUB_WEBHOOK_DELIVERY_IDS = Limits.relay.maxDeliveryIds := rfl

theorem rememberDeliveryId_relay (engine : IssueSyncState) (deliveryId : String) (ts : Int) :
    engine.rememberDeliveryId deliveryId ts = rememberDeliveryId .relay engine deliveryId ts :=
  rememberDeliveryId_eq relay_maxDeliveryIds engine deliveryId ts

theorem relay_maxDlqEntries : MAX_GITHUB_WEBHOOK_DLQ_ENTRIES = Limits.relay.maxDlqEntries := rfl

theorem relay_nextRetryAt :
    IssueSyncState.computeNextRetryAt = computeNextRetryAt Limits.relay := rfl

theorem enqueueDlq_relay {engine : IssueSyncState} (horder : "" ∉ engine.dlqOrder)
    {deliveryId : String} (hid : deliveryId ≠ "") (event : String) (body : Body) (error : String)
    (incrementRetry : Bool) (currentSec : Int) :
    engine.enqueueDlq deliveryId event body error incrementRetry currentSec =
      enqueueDlq .relay engine deliveryId event body error incrementRetry currentSec :=
  enqueueDlq_eq relay_maxDlqEntries relay_nextRetryAt horder hid event body error incrementRetry
    currentSec

end IssueSyncEngine

end BitRelay
