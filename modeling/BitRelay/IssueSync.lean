import Mathlib.Algebra.Order.Ring.Nat
import BitRelay.Http
import BitRelay.Lib.OrdMap

/-!
# Webhook deliveries

The engine that remembers which deliveries were applied and queues the ones
that failed (`issue_sync_engine.ts`), with the limits the relay gives it.
-/

namespace BitRelay

structure IssueSyncDlqEntry where
  deliveryId : String
  event : String
  body : Body
  createdAt : Int
  updatedAt : Int
  retryCount : Nat
  nextRetryAt : Int
  lastError : String
  deriving DecidableEq

structure IssueSyncState where
  deliveryIds : OrdMap String Int
  dlq : OrdMap String IssueSyncDlqEntry
  dlqOrder : List String
  deriving DecidableEq

structure IssueSyncMappedEnvelope where
  room : String
  sender : String
  topic : String
  issueId : String
  action : String
  envelopeId : String
  payload : JsonValue
  deriving DecidableEq

inductive IssueSyncApplyResult
  | duplicate (deliveryId event : String)
  | published (deliveryId event : String) (accepted : Bool) (mapped : IssueSyncMappedEnvelope)
      (cursor : Option Nat)
  | failed (error : String)

def MAX_GITHUB_WEBHOOK_DELIVERY_IDS : Nat := 10000

def MAX_GITHUB_WEBHOOK_DLQ_ENTRIES : Nat := 10000

def GITHUB_WEBHOOK_RETRY_BASE_SEC : Nat := 30

namespace IssueSyncState

def empty : IssueSyncState := ⟨∅, ∅, []⟩

def rememberDeliveryId (engine : IssueSyncState) (deliveryId : String) (ts : Int) :
    IssueSyncState :=
  let deliveryIds := engine.deliveryIds.set deliveryId ts
  { engine with
    deliveryIds := deliveryIds.dropOldest (deliveryIds.size - MAX_GITHUB_WEBHOOK_DELIVERY_IDS) }

def computeNextRetryAt (currentSec : Int) (retryCount : Nat) : Int :=
  currentSec + (min 3600 (GITHUB_WEBHOOK_RETRY_BASE_SEC * max 1 (2 ^ retryCount)) : Nat)

/-- Queue a failed delivery; beyond the cap the oldest ones are dropped. -/
def enqueueDlq (engine : IssueSyncState) (deliveryId event : String) (body : Body) (error : String)
    (incrementRetry : Bool) (currentSec : Int) : IssueSyncDlqEntry × IssueSyncState :=
  let existing := engine.dlq.get? deliveryId
  let increment := if incrementRetry then 1 else 0
  let retryCount := (existing.map IssueSyncDlqEntry.retryCount).getD 0 + increment
  let entry : IssueSyncDlqEntry := {
    deliveryId, event, body
    createdAt := (existing.map IssueSyncDlqEntry.createdAt).getD currentSec
    updatedAt := currentSec
    retryCount
    nextRetryAt := computeNextRetryAt currentSec retryCount
    lastError := error }
  let dlqOrder :=
    if existing.isSome then engine.dlqOrder else engine.dlqOrder ++ [deliveryId]
  let overflow := dlqOrder.length - MAX_GITHUB_WEBHOOK_DLQ_ENTRIES
  (entry, { engine with
    dlq := (dlqOrder.take overflow).foldl (fun m id => m.erase id) (engine.dlq.set deliveryId entry)
    dlqOrder := dlqOrder.drop overflow })

def removeDlq (engine : IssueSyncState) (deliveryId : String) : IssueSyncState :=
  if engine.dlq.has deliveryId then
    { engine with
      dlq := engine.dlq.erase deliveryId
      dlqOrder := engine.dlqOrder.erase deliveryId }
  else engine

def getDlqEntry (engine : IssueSyncState) (deliveryId : String) : Option IssueSyncDlqEntry :=
  engine.dlq.get? deliveryId

def listDlq (engine : IssueSyncState) (after limit : Nat) : List IssueSyncDlqEntry × Nat :=
  let pageIds := (engine.dlqOrder.drop after).take limit
  let entries := pageIds.filterMap engine.dlq.get?
  let next := after + pageIds.length
  (entries, if next < engine.dlqOrder.length then next else after + entries.length)

end IssueSyncState

end BitRelay
