import BitRelay.Lib.Run
import BitRelay.Service.SignatureStage

/-!
# Sequential replay protection

Requests are processed one at a time under a clock that does not run back, and
between two requests the identity tables may be saved and restored. A signed
request that passed once is refused from then on: its nonce is in its sender's
table, or its timestamp has left the clock-skew window.

Three mechanisms can remove a nonce. Expiry removes it only after its timestamp
has left the window, when the time to live is at least the skew. A restart keeps
what has not expired. The cap of a sender's table drops the oldest nonce, fresh
or not: this is the one way to reopen the door, and the condition of the result
excludes it.

Results:
1. `accepted_nodup`: no signed request passes twice, as long as the cap drops
   only nonces whose timestamp has left the window.
2. `replay_after_eviction`: without that condition a replay passes.
-/

namespace BitRelay

section
variable {C : Type} (R : Relay C)

/-! ## Definitions -/

/-- A service with its clock, and the signed requests that passed so far. -/
structure Ledger (C : Type) where
  service : ServiceState C
  clock : Nat
  accepted : List SignedRequest

inductive ReplayEvent
  | call (call : Call)
  | restart (nowMs : Nat)

def ReplayEvent.nowMs : ReplayEvent → Nat
  | call c => c.env.nowMs
  | restart nowMs => nowMs

/-- `restoreIdentity(identitySnapshot())` -/
def ServiceState.restartIdentity (nowMs : Nat) (s : ServiceState C) : ServiceState C :=
  let snapshot := identitySnapshot s.keyRegistry s.noncesBySender
  { s with
    keyRegistry := restoreKeys snapshot.keysBySender
    noncesBySender := restoreNoncesBySender R.config.noncePolicy.nonceTtlSec (nowEpochSec nowMs)
      snapshot.noncesBySender }

def Ledger.init (cache : C) : Ledger C := ⟨.init cache, 0, []⟩

def Ledger.step (ledger : Ledger C) : ReplayEvent → Ledger C
  | .call c => {
      service := serveCall R ledger.service c
      clock := c.env.nowMs
      accepted := ledger.accepted ++ (passes R c.request c.env ledger.service).toList }
  | .restart nowMs =>
    { ledger with service := ledger.service.restartIdentity R nowMs, clock := nowMs }

/-- The timestamp lies before the clock-skew window. -/
def LeftWindow (now ts : Int) : Prop := (R.config.maxClockSkewSec : Int) < now - ts

instance (now ts : Int) : Decidable (LeftWindow R now ts) :=
  inferInstanceAs (Decidable (_ < _))

/-- Recording this request makes the cap drop only nonces outside the window. -/
def CapDropsOldOnes (s : ServiceState C) (x : SignedRequest) (now : Int) : Prop :=
  ∀ e ∈ evictedByCap R.config.noncePolicy s.noncesBySender x.sender x.nonce x.ts now,
    LeftWindow R now e.2

instance (s : ServiceState C) (x : SignedRequest) (now : Int) :
    Decidable (CapDropsOldOnes R s x now) :=
  inferInstanceAs (Decidable (∀ e ∈ evictedByCap _ _ _ _ _ _, _))

/-- No recorded name is one that a plain object cannot hold. -/
def NoProtoNames (s : ServiceState C) : Prop :=
  ∀ e ∈ s.noncesBySender.entries,
    e.1 ≠ "__proto__" ∧ ∀ nonce ∈ e.2.keys, nonce ≠ "__proto__"

instance (s : ServiceState C) : Decidable (NoProtoNames s) :=
  inferInstanceAs (Decidable (∀ e ∈ s.noncesBySender.entries, _))

/-- The clock does not run back, the cap drops only nonces outside the window, and a restart
meets no name that the snapshot cannot hold. -/
def ReplayCondition (ledger : Ledger C) (event : ReplayEvent) : Prop :=
  ledger.clock ≤ event.nowMs ∧
  match event with
  | .call c => ∀ x ∈ passes R c.request c.env ledger.service,
      CapDropsOldOnes R ledger.service x (nowEpochSec c.env.nowMs)
  | .restart _ => NoProtoNames ledger.service

instance (ledger : Ledger C) (event : ReplayEvent) : Decidable (ReplayCondition R ledger event) :=
  match event with
  | .call _ => inferInstanceAs (Decidable (_ ∧ ∀ x ∈ passes _ _ _ _, _))
  | .restart _ => inferInstanceAs (Decidable (_ ∧ NoProtoNames _))

/-! ## The invariant -/

structure ReplayInvariant (ledger : Ledger C) : Prop where
  nodup : ledger.accepted.Nodup
  remembered : ∀ x ∈ ledger.accepted,
    ledger.service.noncesBySender.recorded? x.sender x.nonce = some x.ts ∨
      LeftWindow R (nowEpochSec ledger.clock) x.ts
  named : ∀ x ∈ ledger.accepted, trim x.nonce ≠ ""
  sized : ∀ sender nonces, ledger.service.noncesBySender.get? sender = some nonces →
    nonces.size ≤ R.config.noncePolicy.maxNoncesPerSender

variable {R}

namespace ReplayLemmas

theorem nowEpochSec_mono {a b : Nat} (h : a ≤ b) : nowEpochSec a ≤ nowEpochSec b := by
  unfold nowEpochSec
  omega

theorem leftWindow_mono {now now' ts : Int} (h : now ≤ now') (hl : LeftWindow R now ts) :
    LeftWindow R now' ts := by
  unfold LeftWindow at *
  omega

/-- A timestamp outside the window is stale. -/
theorem not_leftWindow_of_current {now ts : Int}
    (h : isStale now ts R.config.maxClockSkewSec = false) : ¬ LeftWindow R now ts := by
  unfold isStale at h
  unfold LeftWindow
  simp only [decide_eq_false_iff_not] at h
  omega

theorem leftWindow_of_expired (httl : R.config.maxClockSkewSec ≤ R.config.noncePolicy.nonceTtlSec)
    {now ts : Int} (h : (R.config.noncePolicy.nonceTtlSec : Int) < now - ts) :
    LeftWindow R now ts := by
  unfold LeftWindow
  omega

theorem size_getD_le {N : NoncesBySender} {max : Nat}
    (h : ∀ sender nonces, N.get? sender = some nonces → nonces.size ≤ max) (sender : String) :
    (N.getD sender ∅).size ≤ max := by
  unfold OrdMap.getD
  cases hs : N.get? sender with
  | none => exact Nat.zero_le _
  | some nonces => exact h sender nonces hs

theorem sized_set {N : NoncesBySender} {max : Nat}
    (h : ∀ sender nonces, N.get? sender = some nonces → nonces.size ≤ max) {sender : String}
    {nonces : NonceTable} (hn : nonces.size ≤ max) :
    ∀ other t, OrdMap.get? (N.set sender nonces) other = some t → t.size ≤ max := by
  intro other t ht
  rw [OrdMap.get?_set] at ht
  split at ht
  · cases ht
    exact hn
  · exact h other t ht

/-- Pruning keeps a recorded nonce, or its timestamp has left the window. -/
theorem recorded?_prune (httl : R.config.maxClockSkewSec ≤ R.config.noncePolicy.nonceTtlSec)
    {N : NoncesBySender}
    (hsized : ∀ sender nonces, N.get? sender = some nonces →
      nonces.size ≤ R.config.noncePolicy.maxNoncesPerSender)
    (sender : String) {other nonce : String} {now ts : Int} (h : N.recorded? other nonce = some ts) :
    (pruneSenderNonces R.config.noncePolicy N sender now).recorded? other nonce = some ts ∨
      LeftWindow R now ts := by
  unfold pruneSenderNonces
  rw [recorded?_set]
  by_cases hs : other = sender
  · subst hs
    rw [if_pos rfl]
    by_cases hexp : (R.config.noncePolicy.nonceTtlSec : Int) < now - ts
    · exact .inr (leftWindow_of_expired httl hexp)
    · exact .inl (pruneNonces_get? (size_getD_le hsized other) h hexp)
  · rw [if_neg hs]
    exact .inl h

theorem names_of_recorded {s : ServiceState C} (h : NoProtoNames s) {sender nonce : String}
    {ts : Int} (hrec : s.noncesBySender.recorded? sender nonce = some ts) :
    sender ≠ "__proto__" ∧ nonce ≠ "__proto__" := by
  unfold NoncesBySender.recorded? OrdMap.getD at hrec
  cases hs : s.noncesBySender.get? sender with
  | none =>
    rw [hs] at hrec
    cases hrec
  | some nonces =>
    rw [hs, Option.getD_some] at hrec
    obtain ⟨hsender, hnonces⟩ := h _ (OrdMap.get?_eq_some_iff.mp hs)
    refine ⟨hsender, hnonces nonce (OrdMap.has_iff_mem_keys.mp ?_)⟩
    unfold OrdMap.has
    rw [hrec]
    rfl

end ReplayLemmas

open ReplayLemmas

/-! ## One step -/

section Step
variable {ledger : Ledger C} (hI : ReplayInvariant R ledger)
  (httl : R.config.maxClockSkewSec ≤ R.config.noncePolicy.nonceTtlSec)
include hI httl

/-- A request that did not pass. -/
theorem ReplayInvariant.refused {s' : ServiceState C} {nowMs : Nat} (hclock : ledger.clock ≤ nowMs)
    (h : PrunedFrom R ledger.service.noncesBySender (nowEpochSec nowMs) s') :
    ReplayInvariant R { ledger with service := s', clock := nowMs } := by
  have hmono := nowEpochSec_mono hclock
  refine ⟨hI.nodup, fun x hx => ?_, hI.named, ?_⟩
  · rcases hI.remembered x hx with hrec | hleft
    · rcases h with h | ⟨sender, h⟩
      · exact .inl (by rw [h]; exact hrec)
      · rcases recorded?_prune httl hI.sized _ hrec with hkept | hleft
        · exact .inl (by rw [h]; exact hkept)
        · exact .inr hleft
    · exact .inr (leftWindow_mono hmono hleft)
  · rcases h with h | ⟨sender, h⟩
    · rw [h]
      exact hI.sized
    · rw [h]
      exact sized_set hI.sized (size_pruneNonces_le _ _ _)

/-- A request that passes did not pass before: its nonce is new and its timestamp current. -/
theorem accepted_is_new {x : SignedRequest} {s' : ServiceState C} {nowMs : Nat}
    (hclock : ledger.clock ≤ nowMs)
    (h : Accepted R ledger.service.noncesBySender (nowEpochSec nowMs) x s') :
    x ∉ ledger.accepted := by
  intro hmem
  have hcurrent := not_leftWindow_of_current h.current
  rcases hI.remembered x hmem with hrec | hleft
  · rcases recorded?_prune httl hI.sized x.sender hrec with hkept | hleft
    · have hunknown := h.unknown
      rw [isReplayNonce_fst, OrdMap.has_eq_false_iff] at hunknown
      unfold pruneSenderNonces at hkept
      rw [recorded?_set, if_pos rfl, hunknown] at hkept
      cases hkept
    · exact hcurrent hleft
  · exact hcurrent (leftWindow_mono (nowEpochSec_mono hclock) hleft)

/-- A request that passed. -/
theorem ReplayInvariant.accepted {x : SignedRequest} {s' : ServiceState C} {nowMs : Nat}
    (hclock : ledger.clock ≤ nowMs)
    (hcap : CapDropsOldOnes R ledger.service x (nowEpochSec nowMs))
    (h : Accepted R ledger.service.noncesBySender (nowEpochSec nowMs) x s') :
    ReplayInvariant R ⟨s', nowMs, ledger.accepted ++ [x]⟩ := by
  have hunknown := h.unknown
  rw [isReplayNonce_fst] at hunknown
  have hmono := nowEpochSec_mono hclock
  refine ⟨?_, ?_, ?_, ?_⟩
  · refine List.nodup_append.mpr ⟨hI.nodup, List.nodup_singleton x, fun a ha b hb hab => ?_⟩
    rw [List.mem_singleton.mp hb] at hab
    exact accepted_is_new hI httl hclock h (hab ▸ ha)
  · intro y hy
    rcases List.mem_append.mp hy with hold | hnew
    · rcases hI.remembered y hold with hrec | hleft
      · rw [show (Ledger.mk s' nowMs (ledger.accepted ++ [x])).service.noncesBySender =
          s'.noncesBySender from rfl, h.recorded]
        by_cases hexp : y.sender = x.sender ∧
            (R.config.noncePolicy.nonceTtlSec : Int) < nowEpochSec nowMs - y.ts
        · exact .inr (leftWindow_of_expired httl hexp.2)
        · have hpruned : y.sender = x.sender → (pruneNonces R.config.noncePolicy
              (ledger.service.noncesBySender.getD x.sender ∅) (nowEpochSec nowMs)).get? y.nonce =
              some y.ts := by
            intro hs
            refine pruneNonces_get? (size_getD_le hI.sized x.sender) ?_ fun hn => hexp ⟨hs, hn⟩
            rw [← hs]
            exact hrec
          have hne : y.sender = x.sender → y.nonce ≠ x.nonce := by
            intro hs hn
            have hget := hpruned hs
            rw [hn, OrdMap.has_eq_false_iff.mp hunknown] at hget
            cases hget
          rcases recorded?_rememberNonce hne hpruned hrec with ⟨-, hdropped⟩ | hkept
          · exact .inr (hcap _ hdropped)
          · exact .inl hkept
      · exact .inr (leftWindow_mono hmono hleft)
    · rw [List.mem_singleton.mp hnew]
      refine .inl ?_
      rw [show (Ledger.mk s' nowMs (ledger.accepted ++ [x])).service.noncesBySender =
        s'.noncesBySender from rfl, h.recorded]
      exact recorded?_rememberNonce_self hunknown
  · intro y hy
    rcases List.mem_append.mp hy with hold | hnew
    · exact hI.named y hold
    · rw [List.mem_singleton.mp hnew]
      exact h.named
  · intro sender nonces hget
    rw [show (Ledger.mk s' nowMs (ledger.accepted ++ [x])).service.noncesBySender =
      s'.noncesBySender from rfl, h.recorded] at hget
    refine sized_set hI.sized ?_ sender nonces hget
    rw [OrdMap.size_dropOldest]
    omega

/-- A restart on the service's own snapshot. -/
theorem ReplayInvariant.restart {nowMs : Nat} (hclock : ledger.clock ≤ nowMs)
    (hproto : NoProtoNames ledger.service) :
    ReplayInvariant R
      { ledger with service := ledger.service.restartIdentity R nowMs, clock := nowMs } := by
  refine ⟨hI.nodup, fun x hx => ?_, hI.named, fun sender nonces hget => ?_⟩
  · rcases hI.remembered x hx with hrec | hleft
    · by_cases hexp : (R.config.noncePolicy.nonceTtlSec : Int) < nowEpochSec nowMs - x.ts
      · exact .inr (leftWindow_of_expired httl hexp)
      · obtain ⟨hsender, hnonce⟩ := names_of_recorded hproto hrec
        exact .inl (recorded?_restore hrec hexp (hI.named x hx) hsender hnonce)
    · exact .inr (leftWindow_mono (nowEpochSec_mono hclock) hleft)
  · obtain ⟨old, hold, hle⟩ := size_restore_le hget
    exact hle.trans (hI.sized sender old hold)

theorem ReplayInvariant.step {event : ReplayEvent} (h : ReplayCondition R ledger event) :
    ReplayInvariant R (ledger.step R event) := by
  obtain ⟨hclock, hcond⟩ := h
  cases event with
  | call c =>
    rcases serve_cases c.request c.env ledger.service with ⟨hnone, hpruned⟩ | ⟨x, hx, haccepted⟩
    · have hstep : ledger.step R (.call c) =
          { ledger with service := (serve R c.request c.env ledger.service).2
                        clock := c.env.nowMs } := by
        rw [Ledger.step, hnone, Option.toList_none, List.append_nil]
        rfl
      rw [hstep]
      exact hI.refused httl hclock hpruned
    · have hstep : ledger.step R (.call c) =
          ⟨(serve R c.request c.env ledger.service).2, c.env.nowMs, ledger.accepted ++ [x]⟩ := by
        rw [Ledger.step, hx, Option.toList_some]
        rfl
      rw [hstep]
      exact hI.accepted httl hclock (hcond x hx) haccepted
  | restart nowMs => exact hI.restart httl hclock hcond

end Step

/-! ## All runs -/

/-- No signed request passes its signature stage twice, in any run of requests and restarts whose
cap drops only nonces outside the clock-skew window. -/
theorem accepted_nodup (httl : R.config.maxClockSkewSec ≤ R.config.noncePolicy.nonceTtlSec)
    (cache : C) (events : List ReplayEvent)
    (hrun : Along (Ledger.step R) (ReplayCondition R) (.init cache) events) :
    (runFrom (Ledger.step R) (.init cache) events).accepted.Nodup := by
  have hinit : ReplayInvariant R (Ledger.init cache) :=
    ⟨List.nodup_nil, fun _ h => absurd h List.not_mem_nil, fun _ h => absurd h List.not_mem_nil,
      fun _ _ h => by cases h⟩
  exact (hrun.invariant (fun _ _ hcond hI => hI.step httl hcond) hinit).nodup

end

/-! ## On the toy host -/

/-- A publish by `alice` at second 1000, with the given nonce. -/
def publishWithNonce (nonce : String) : ReplayEvent := .call {
  request := .post "/api/v1/publish" [("sender", "alice"), ("id", "m1")]
    (toyHeaders "k1" "1000" nonce) ⟨"null", some .null⟩
  env := .at 1000000 }

/-- The same request twice, with a restart in between: the second one is refused. -/
theorem accepted_nodup_same_request :
    (runFrom (Ledger.step (.toy .default)) (.init ())
      [publishWithNonce "n1", .restart 1000000, publishWithNonce "n1"]).accepted.Nodup :=
  accepted_nodup (by decide) () [publishWithNonce "n1", .restart 1000000, publishWithNonce "n1"]
    (by decide)

/-- A relay that keeps one nonce for each sender. -/
def oneNonceConfig : RelayConfig := { RelayConfig.default with noncePolicy := ⟨600, 1, by decide⟩ }

/-- The cap drops a fresh nonce, and the replay of its request passes. -/
theorem replay_after_eviction :
    oneNonceConfig.maxClockSkewSec ≤ oneNonceConfig.noncePolicy.nonceTtlSec ∧
    Along (Ledger.step (.toy oneNonceConfig)) (fun ledger event => ledger.clock ≤ event.nowMs)
      (.init ()) [publishWithNonce "n1", publishWithNonce "n2", publishWithNonce "n1"] ∧
    ¬ (runFrom (Ledger.step (.toy oneNonceConfig)) (.init ())
      [publishWithNonce "n1", publishWithNonce "n2", publishWithNonce "n1"]).accepted.Nodup := by
  decide

end BitRelay
