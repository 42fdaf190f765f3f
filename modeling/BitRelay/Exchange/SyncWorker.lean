import BitRelay.Exchange.Records
import BitRelay.Lib.OrdMap

/-!
# The peer-sync worker

The worker of `cache_sync_worker.ts` goes through its peers, pulls the entries behind the cursor it
keeps for a peer, pushes them to the local relay, and moves the cursor. It awaits the pull and the
push: its state between two awaits is a `SyncRound`.

Results:
1. `cursorFor_nextPeer`, `remaining_nextPeer`: the head of the loop moves no cursor.
2. `cursorFor_finishPeer_le`: the end of a turn moves no cursor back.
3. `turn_of_pulled`: what a turn that nothing comes between pushes, and where its cursor goes.
-/

namespace BitRelay

/-! ## The worker -/

structure CacheSyncPullResult (E : Type) where
  entries : List E
  nextCursor : JsNumber

structure CacheSyncSummary where
  skipped : Bool
  processedPeers : Nat
  pulledEntries : Nat
  pushedEntries : Nat
  failedPeers : List String

/-- Where a round waits. -/
inductive SyncStage (E : Type)
  | pulling (after : Nat)
  | pushing (after : Nat) (entries : List E) (nextCursor : Nat)

/-- A `syncOnce` that is running: the peer whose turn it is, and the peers that follow. -/
structure SyncRound (E : Type) where
  peer : String
  rest : List String
  stage : SyncStage E
  summary : CacheSyncSummary

structure CacheSyncWorker (E : Type) where
  peers : List String
  limit : Nat
  cursors : OrdMap String Nat
  inFlight : Option (SyncRound E)

namespace CacheSyncWorker

def DEFAULT_SYNC_LIMIT : Nat := 200

def normalizeLimit (raw : Option JsNumber) : Nat :=
  match raw.bind JsNumber.truncInt? with
  | none => DEFAULT_SYNC_LIMIT
  | some n => (max 1 n).toNat

def normalizePeers (raw : List String) : List String :=
  raw.foldl (fun dedupe peer =>
    if trim peer = "" ∨ trim peer ∈ dedupe then dedupe else dedupe ++ [trim peer]) []

def toCursor (value : JsNumber) (fallback : Nat) : Nat :=
  match value.truncInt? with
  | none => fallback
  | some n => (max 0 n).toNat

variable {E : Type}

def createCacheSyncWorker (peers : List String) (limit : Option JsNumber) : CacheSyncWorker E where
  peers := normalizePeers peers
  limit := normalizeLimit limit
  cursors := OrdMap.ofList ((normalizePeers peers).map fun peer => (peer, 0))
  inFlight := none

def cursorFor (w : CacheSyncWorker E) (peer : String) : Nat := w.cursors.getD peer 0

/-- The head of the loop over the peers; behind the last one the round ends with its summary. -/
def nextPeer (w : CacheSyncWorker E) (summary : CacheSyncSummary) :
    List String → Option CacheSyncSummary × CacheSyncWorker E
  | [] => (some summary, { w with inFlight := none })
  | peer :: rest =>
    (none, { w with inFlight := some ⟨peer, rest, .pulling (w.cursorFor peer), summary⟩ })

/-- A call of `syncOnce`; while another one is running it is skipped. -/
def syncOnce (w : CacheSyncWorker E) : Option CacheSyncSummary × CacheSyncWorker E :=
  match w.inFlight with
  | some _ => (some ⟨true, 0, 0, 0, []⟩, w)
  | none => w.nextPeer ⟨false, 0, 0, 0, []⟩ w.peers

/-- The end of a turn, when the pull and the push went through. -/
def finishPeer (w : CacheSyncWorker E) (round : SyncRound E) (after : Nat) (entries : List E)
    (nextCursor : Nat) : Option CacheSyncSummary × CacheSyncWorker E :=
  { w with cursors := w.cursors.set round.peer (max after nextCursor) }.nextPeer
    { round.summary with
      pushedEntries := round.summary.pushedEntries + entries.length
      processedPeers := round.summary.processedPeers + 1
      pulledEntries := round.summary.pulledEntries + entries.length } round.rest

/-- `catch { summary.failedPeers.push(peer); }` -/
def failPeer (w : CacheSyncWorker E) (round : SyncRound E) :
    Option CacheSyncSummary × CacheSyncWorker E :=
  w.nextPeer { round.summary with failedPeers := round.summary.failedPeers ++ [round.peer] }
    round.rest

/-- `pullFromPeer` resolves, or rejects. -/
def pullSettles (w : CacheSyncWorker E) (answer : Option (CacheSyncPullResult E)) :
    Option CacheSyncSummary × CacheSyncWorker E :=
  match w.inFlight with
  | none => (none, w)
  | some round =>
    match round.stage, answer with
    | .pushing _ _ _, _ => (none, w)
    | .pulling _, none => w.failPeer round
    | .pulling after, some pulled =>
      let nextCursor := toCursor pulled.nextCursor after
      if pulled.entries.isEmpty then w.finishPeer round after [] nextCursor
      else
        let round := { round with stage := .pushing after pulled.entries nextCursor }
        (none, { w with inFlight := some round })

/-- `pushToLocal` resolves, or rejects. -/
def pushSettles (w : CacheSyncWorker E) (ok : Bool) :
    Option CacheSyncSummary × CacheSyncWorker E :=
  match w.inFlight with
  | none => (none, w)
  | some round =>
    match round.stage with
    | .pulling _ => (none, w)
    | .pushing after entries nextCursor =>
      if ok then w.finishPeer round after entries nextCursor else w.failPeer round

/-- A turn that nothing comes between, from the head of the loop: the pull ends, and so does the push
of what it returned. The entries are those of a push that resolved. -/
def turn (w : CacheSyncWorker E) (summary : CacheSyncSummary) (peer : String) (rest : List String)
    (pulled : Option (CacheSyncPullResult E)) (push : Bool) : CacheSyncWorker E × List E :=
  let settled := ((w.nextPeer summary (peer :: rest)).2.pullSettles pulled).2
  match settled.inFlight with
  | some ⟨_, _, .pushing _ entries _, _⟩ =>
    ((settled.pushSettles push).2, if push then entries else [])
  | _ => (settled, [])

/-- The peers that a running round has still to process. -/
def remaining (w : CacheSyncWorker E) : List String :=
  w.inFlight.elim [] fun round => round.peer :: round.rest

end CacheSyncWorker

namespace SyncWorkerLemmas

open CacheSyncWorker

variable {E : Type} {w : CacheSyncWorker E} {summary : CacheSyncSummary}
  {peers : List String} {round : SyncRound E}

theorem nextPeer_cursors (w : CacheSyncWorker E) (summary : CacheSyncSummary)
    (peers : List String) : (w.nextPeer summary peers).2.cursors = w.cursors := by
  cases peers <;> rfl

theorem cursorFor_nextPeer (w : CacheSyncWorker E) (summary : CacheSyncSummary)
    (peers : List String) (peer : String) :
    (w.nextPeer summary peers).2.cursorFor peer = w.cursorFor peer := by
  unfold cursorFor
  rw [nextPeer_cursors]

theorem remaining_nextPeer (w : CacheSyncWorker E) (summary : CacheSyncSummary)
    (peers : List String) : (w.nextPeer summary peers).2.remaining = peers := by
  cases peers <;> rfl

/-- A turn starts with a pull from the cursor of its peer. -/
theorem stage_nextPeer (h : (w.nextPeer summary peers).2.inFlight = some round) :
    round.stage = .pulling (w.cursorFor round.peer) := by
  cases peers with
  | nil => cases h
  | cons peer rest =>
    cases h
    rfl

theorem cursorFor_set (w : CacheSyncWorker E) (peer other : String) (n : Nat) :
    ({ w with cursors := w.cursors.set peer n } : CacheSyncWorker E).cursorFor other =
      if other = peer then n else w.cursorFor other := by
  unfold cursorFor OrdMap.getD
  rw [OrdMap.get?_set]
  split <;> rfl

theorem cursorFor_finishPeer_le (w : CacheSyncWorker E) (round : SyncRound E)
    {after : Nat} (hafter : after = w.cursorFor round.peer) (entries : List E) (next : Nat)
    (peer : String) : w.cursorFor peer ≤ (w.finishPeer round after entries next).2.cursorFor peer := by
  unfold finishPeer
  rw [cursorFor_nextPeer, cursorFor_set]
  split
  · next heq =>
    rw [heq, ← hafter]
    exact Nat.le_max_left _ _
  · exact Nat.le_refl _

/-- A turn moves the cursor of its peer unless the pull or the push failed. -/
theorem turn_of_pulled (w : CacheSyncWorker E) (summary : CacheSyncSummary) (peer : String)
    (rest : List String) (pulled : CacheSyncPullResult E) (push : Bool) :
    ((w.turn summary peer rest (some pulled) push).1.cursorFor peer =
      if pulled.entries.isEmpty ∨ push then
        max (w.cursorFor peer) (toCursor pulled.nextCursor (w.cursorFor peer))
      else w.cursorFor peer) ∧
    (w.turn summary peer rest (some pulled) push).2 = if push then pulled.entries else [] := by
  have hfinish : ∀ (w' : CacheSyncWorker E) (round : SyncRound E) (after next : Nat)
      (entries : List E), (w'.finishPeer round after entries next).2.cursorFor round.peer =
        max after next := by
    intro w' round after next entries
    unfold finishPeer
    rw [cursorFor_nextPeer, cursorFor_set, if_pos rfl]
  unfold turn pullSettles nextPeer
  simp only
  cases hempty : pulled.entries.isEmpty with
  | true =>
    have hnil : pulled.entries = [] := List.isEmpty_iff.mp hempty
    simp only [if_true, true_or, hnil, ite_self]
    -- Nothing is pushed, and the loop goes on with the next peer.
    cases rest with
    | nil => exact ⟨hfinish _ ⟨peer, [], .pulling _, summary⟩ _ _ [], rfl⟩
    | cons next rest => exact ⟨hfinish _ ⟨peer, next :: rest, .pulling _, summary⟩ _ _ [], rfl⟩
  | false =>
    simp only [Bool.false_eq_true, if_false, false_or, and_true]
    unfold pushSettles
    simp only
    split
    · exact hfinish _ _ _ _ _
    · exact cursorFor_nextPeer _ _ _ _

theorem turn_none (w : CacheSyncWorker E) (summary : CacheSyncSummary) (peer : String)
    (rest : List String) (push : Bool) (other : String) :
    (w.turn summary peer rest none push).1.cursorFor other = w.cursorFor other ∧
      (w.turn summary peer rest none push).2 = [] := by
  cases rest with
  | nil => exact ⟨rfl, rfl⟩
  | cons next rest => exact ⟨rfl, rfl⟩

theorem toCursor_ofNat (n fallback : Nat) : toCursor (.ofNat n) fallback = n := by
  unfold toCursor JsNumber.ofNat
  rw [JsNumber.truncInt?_ofInt]
  simp

end SyncWorkerLemmas

end BitRelay
