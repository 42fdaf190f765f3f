import BitRelay.Http
import BitRelay.Signing
import BitRelay.Lib.OrdMap
import BitRelay.Lib.PlainObject

/-!
# Keys and nonces

The key a sender is bound to on first use, the nonces a sender has used, and
the snapshot of both (`memory_handler.ts`).

Results:
1. `ensureTofuKey_ok`: after a successful check the sender is bound to the key
   that was presented.
2. `recorded?_rememberNonce_self`, `recorded?_rememberNonce`: a new nonce is
   recorded, and an old one is lost only by expiry or by the cap.
3. `recorded?_restore`: a restart on the service's own snapshot keeps the nonces
   that have not expired.
-/

namespace BitRelay

/-! ## Signature headers -/

structure PublishAuthHeaders where
  publicKey : String
  signature : String
  timestampSec : Int
  nonce : String
  deriving DecidableEq

/-- `null` when none of the four headers is there, an error when only some are. -/
def parsePublishAuthHeaders (request : Request) : Except Response (Option PublishAuthHeaders) :=
  let publicKey := request.headerTrim "x-relay-public-key"
  let signature := request.headerTrim "x-relay-signature"
  let timestampRaw := request.headerTrim "x-relay-timestamp"
  let nonce := request.headerTrim "x-relay-nonce"
  if publicKey = "" ∧ signature = "" ∧ timestampRaw = "" ∧ nonce = "" then .ok none
  else if publicKey = "" ∨ signature = "" ∨ timestampRaw = "" ∨ nonce = "" then
    .error (toErrorResponse "incomplete signature headers" 400)
  else if isLikelyBase64Url publicKey = false ∨ isLikelyBase64Url signature = false then
    .error (toErrorResponse "invalid signature headers" 400)
  else
    match parseInt10 timestampRaw with
    | none => .error (toErrorResponse "invalid signature timestamp" 400)
    | some timestampSec =>
      if timestampSec ≤ 0 then .error (toErrorResponse "invalid signature timestamp" 400)
      else if 256 < jsLength nonce then .error (toErrorResponse "invalid nonce" 400)
      else .ok (some { publicKey, signature, timestampSec, nonce })

/-- Signature headers that are valid on the toy host. -/
def toyHeaders (publicKey timestamp nonce : String) : List (String × String) := [
  ("x-relay-public-key", publicKey),
  ("x-relay-signature", publicKey),
  ("x-relay-timestamp", timestamp),
  ("x-relay-nonce", nonce)]

/-- `Math.floor(nowMs / 1000)` -/
def nowEpochSec (nowMs : Nat) : Int := (nowMs / 1000 : Nat)

/-- `Math.abs(nowSec - ts) > maxClockSkewSec` -/
def isStale (nowSec ts : Int) (maxClockSkewSec : Nat) : Bool :=
  decide (maxClockSkewSec < (nowSec - ts).natAbs)

/-! ## Keys -/

inductive KeyStatus
  | active
  | revoked
  deriving DecidableEq

structure KeyRecord where
  publicKey : String
  status : KeyStatus
  firstSeenAt : Int
  lastSeenAt : Int
  rotatedAt : Option Int
  revokedAt : Option Int
  githubUsername : Option String
  githubVerifiedAt : Option Int
  deriving DecidableEq

abbrev KeyRegistry := OrdMap String KeyRecord

/-- The public key registered for a sender. -/
def KeyRegistry.publicKeyOf (keyRegistry : KeyRegistry) (sender : String) : Option String :=
  (keyRegistry.get? sender).map KeyRecord.publicKey

/-- Trust on first use: bind the sender to the key, or check the key it is bound to. -/
def ensureTofuKey (keyRegistry : KeyRegistry) (sender publicKey : String) (nowSec : Int) :
    Except Response KeyRegistry :=
  match keyRegistry.get? sender with
  | none => .ok (keyRegistry.set sender {
      publicKey, status := .active, firstSeenAt := nowSec, lastSeenAt := nowSec
      rotatedAt := none, revokedAt := none, githubUsername := none, githubVerifiedAt := none })
  | some record =>
    if record.status ≠ .active then .error (toErrorResponse "sender key revoked" 403)
    else if timingSafeEqual record.publicKey publicKey = false then
      .error (toErrorResponse "sender key mismatch" 409)
    else .ok (keyRegistry.set sender { record with lastSeenAt := nowSec })

/-- After the check the sender is bound to the presented key, and a sender that was bound before
keeps its key. -/
theorem ensureTofuKey_ok {keyRegistry keyRegistry' : KeyRegistry} {sender publicKey : String}
    {nowSec : Int} (h : ensureTofuKey keyRegistry sender publicKey nowSec = .ok keyRegistry') :
    keyRegistry'.publicKeyOf sender = some publicKey ∧
    (keyRegistry.publicKeyOf sender = none ∨ keyRegistry.publicKeyOf sender = some publicKey) ∧
    (∀ other, other ≠ sender → keyRegistry'.get? other = keyRegistry.get? other) := by
  unfold ensureTofuKey at h
  unfold KeyRegistry.publicKeyOf
  split at h
  · next hnone =>
    cases h
    refine ⟨by simp, .inl (by rw [hnone]; rfl), ?_⟩
    intro other hne
    exact OrdMap.get?_set_of_ne _ hne _
  · next record hsome =>
    split at h
    · cases h
    · split at h
      · cases h
      · next hkey =>
        cases h
        have hkey' : record.publicKey = publicKey := by simpa [timingSafeEqual] using hkey
        refine ⟨by simp [hkey'], .inr (by rw [hsome]; simp [hkey']), ?_⟩
        intro other hne
        exact OrdMap.get?_set_of_ne _ hne _

/-! ## Nonces -/

abbrev NonceTable := OrdMap String Int

abbrev NoncesBySender := OrdMap String NonceTable

/-- How long a nonce is kept, and how many a sender may have. -/
structure NoncePolicy where
  nonceTtlSec : Nat
  maxNoncesPerSender : Nat
  maxNoncesPerSender_pos : 1 ≤ maxNoncesPerSender

/-- Forget the expired nonces, then the oldest ones above the cap. -/
def pruneNonces (policy : NoncePolicy) (nonces : NonceTable) (nowSec : Int) : NonceTable :=
  let live := nonces.filter fun _ ts => !decide ((policy.nonceTtlSec : Int) < nowSec - ts)
  live.dropOldest (live.size - policy.maxNoncesPerSender)

def pruneSenderNonces (policy : NoncePolicy) (noncesBySender : NoncesBySender) (sender : String)
    (nowSec : Int) : NoncesBySender :=
  noncesBySender.set sender (pruneNonces policy (noncesBySender.getD sender ∅) nowSec)

/-- Whether the nonce is known, with the pruned tables. -/
def isReplayNonce (policy : NoncePolicy) (noncesBySender : NoncesBySender) (sender nonce : String)
    (nowSec : Int) : Bool × NoncesBySender :=
  let pruned := pruneSenderNonces policy noncesBySender sender nowSec
  ((pruned.getD sender ∅).has nonce, pruned)

def rememberNonce (policy : NoncePolicy) (noncesBySender : NoncesBySender) (sender nonce : String)
    (ts nowSec : Int) : NoncesBySender :=
  let added := (pruneNonces policy (noncesBySender.getD sender ∅) nowSec).set nonce ts
  noncesBySender.set sender (added.dropOldest (added.size - policy.maxNoncesPerSender))

/-- The timestamp under which a sender's nonce is recorded. -/
def NoncesBySender.recorded? (noncesBySender : NoncesBySender) (sender nonce : String) :
    Option Int :=
  (noncesBySender.getD sender ∅).get? nonce

theorem recorded?_set (noncesBySender : NoncesBySender) (sender : String) (nonces : NonceTable)
    (other nonce : String) :
    NoncesBySender.recorded? (noncesBySender.set sender nonces) other nonce =
      if other = sender then nonces.get? nonce else noncesBySender.recorded? other nonce := by
  unfold NoncesBySender.recorded? OrdMap.getD
  rw [OrdMap.get?_set]
  split <;> rfl

/-- Within the cap, pruning only forgets what has expired. -/
theorem pruneNonces_get? {policy : NoncePolicy} {nonces : NonceTable} {nowSec : Int}
    (hsize : nonces.size ≤ policy.maxNoncesPerSender) {nonce : String} {ts : Int}
    (h : nonces.get? nonce = some ts) (hlive : ¬ (policy.nonceTtlSec : Int) < nowSec - ts) :
    (pruneNonces policy nonces nowSec).get? nonce = some ts := by
  have hfilter := OrdMap.size_filter_le nonces
    fun _ ts => !decide ((policy.nonceTtlSec : Int) < nowSec - ts)
  simp only [pruneNonces]
  rw [Nat.sub_eq_zero_of_le (Nat.le_trans hfilter hsize), OrdMap.dropOldest_zero,
    OrdMap.get?_filter_eq_some_iff]
  exact ⟨h, by simpa using hlive⟩

theorem get?_of_pruneNonces {policy : NoncePolicy} {nonces : NonceTable} {nowSec : Int}
    {nonce : String} {ts : Int} (h : (pruneNonces policy nonces nowSec).get? nonce = some ts) :
    nonces.get? nonce = some ts ∧ ¬ (policy.nonceTtlSec : Int) < nowSec - ts := by
  have hfilter := OrdMap.get?_dropOldest_of_some h
  rw [OrdMap.get?_filter_eq_some_iff] at hfilter
  exact ⟨hfilter.1, by simpa using hfilter.2⟩

theorem size_pruneNonces_le (policy : NoncePolicy) (nonces : NonceTable) (nowSec : Int) :
    (pruneNonces policy nonces nowSec).size ≤ policy.maxNoncesPerSender := by
  unfold pruneNonces
  rw [OrdMap.size_dropOldest]
  omega

/-- Pruning twice at one time is pruning once. -/
theorem pruneNonces_pruneNonces (policy : NoncePolicy) (nonces : NonceTable) (nowSec : Int) :
    pruneNonces policy (pruneNonces policy nonces nowSec) nowSec =
      pruneNonces policy nonces nowSec := by
  have hsize := size_pruneNonces_le policy nonces nowSec
  have hlive : ((pruneNonces policy nonces nowSec).filter fun _ ts =>
      !decide ((policy.nonceTtlSec : Int) < nowSec - ts)) = pruneNonces policy nonces nowSec := by
    apply OrdMap.ext
    refine List.filter_eq_self.mpr fun e he => ?_
    have hget := OrdMap.get?_eq_some_iff.mpr he
    simpa using (get?_of_pruneNonces hget).2
  rw [pruneNonces, hlive, Nat.sub_eq_zero_of_le hsize, OrdMap.dropOldest_zero]

theorem rememberNonce_pruneSenderNonces (policy : NoncePolicy) (noncesBySender : NoncesBySender)
    (sender nonce : String) (ts nowSec : Int) :
    rememberNonce policy (pruneSenderNonces policy noncesBySender sender nowSec) sender nonce ts
      nowSec = rememberNonce policy noncesBySender sender nonce ts nowSec := by
  simp only [rememberNonce, pruneSenderNonces, OrdMap.getD_set_self, pruneNonces_pruneNonces,
    OrdMap.set_set]

theorem isReplayNonce_fst (policy : NoncePolicy) (noncesBySender : NoncesBySender)
    (sender nonce : String) (nowSec : Int) :
    (isReplayNonce policy noncesBySender sender nonce nowSec).1 =
      (pruneNonces policy (noncesBySender.getD sender ∅) nowSec).has nonce := by
  simp only [isReplayNonce, pruneSenderNonces, OrdMap.getD_set_self]

/-- The nonces that the cap drops when a new one is recorded. -/
def evictedByCap (policy : NoncePolicy) (noncesBySender : NoncesBySender) (sender nonce : String)
    (ts nowSec : Int) : List (String × Int) :=
  let added := (pruneNonces policy (noncesBySender.getD sender ∅) nowSec).set nonce ts
  added.entries.take (added.size - policy.maxNoncesPerSender)

/-- A recorded nonce is there, unless the cap is full of newer ones. -/
theorem recorded?_rememberNonce_self {policy : NoncePolicy} {noncesBySender : NoncesBySender}
    {sender nonce : String} {ts nowSec : Int}
    (hnew : (pruneNonces policy (noncesBySender.getD sender ∅) nowSec).has nonce = false) :
    (rememberNonce policy noncesBySender sender nonce ts nowSec).recorded? sender nonce =
      some ts := by
  unfold rememberNonce
  rw [recorded?_set, if_pos rfl, OrdMap.get?_eq_some_iff]
  have hentries := OrdMap.entries_set_of_not_has hnew ts
  have hsize := size_pruneNonces_le policy (noncesBySender.getD sender ∅) nowSec
  have hpos := policy.maxNoncesPerSender_pos
  -- The new entry is the last one, and the cap leaves at least one.
  simp only [OrdMap.dropOldest, OrdMap.size, hentries, List.length_append, List.length_singleton]
  rw [List.drop_append_of_le_length]
  · simp
  · unfold OrdMap.size at hsize
    omega

/-- What was recorded is dropped by the cap, or has expired, or is still there. -/
theorem recorded?_rememberNonce {policy : NoncePolicy} {noncesBySender : NoncesBySender}
    {sender nonce other name : String} {ts nowSec t : Int}
    (hne : other = sender → name ≠ nonce)
    (hpruned : other = sender →
      (pruneNonces policy (noncesBySender.getD sender ∅) nowSec).get? name = some t)
    (h : noncesBySender.recorded? other name = some t) :
    (other = sender ∧ (name, t) ∈ evictedByCap policy noncesBySender sender nonce ts nowSec) ∨
    (rememberNonce policy noncesBySender sender nonce ts nowSec).recorded? other name =
      some t := by
  unfold rememberNonce
  rw [recorded?_set]
  by_cases hs : other = sender
  · rw [if_pos hs]
    have hset : ((pruneNonces policy (noncesBySender.getD sender ∅) nowSec).set nonce ts).get? name =
        some t := by
      rw [OrdMap.get?_set_of_ne _ (hne hs)]
      exact hpruned hs
    rcases OrdMap.mem_take_or_get?_dropOldest hset _ with hmem | hkept
    · exact .inl ⟨hs, hmem⟩
    · exact .inr hkept
  · rw [if_neg hs]
    exact .inr h

/-- Pruning records nothing. -/
theorem recorded?_of_prune {policy : NoncePolicy} {noncesBySender : NoncesBySender}
    {sender other name : String} {nowSec t : Int}
    (h : (pruneSenderNonces policy noncesBySender sender nowSec).recorded? other name = some t) :
    noncesBySender.recorded? other name = some t := by
  unfold pruneSenderNonces at h
  rw [recorded?_set] at h
  split at h
  · next hs =>
    rw [hs]
    exact (get?_of_pruneNonces h).1
  · exact h

/-- Recording a nonce records no other. -/
theorem recorded?_of_remember {policy : NoncePolicy} {noncesBySender : NoncesBySender}
    {sender nonce other name : String} {ts nowSec t : Int}
    (h : (rememberNonce policy noncesBySender sender nonce ts nowSec).recorded? other name =
      some t) :
    (other = sender ∧ name = nonce) ∨ noncesBySender.recorded? other name = some t := by
  unfold rememberNonce at h
  rw [recorded?_set] at h
  split at h
  · next hs =>
    have hadded := OrdMap.get?_dropOldest_of_some h
    rw [OrdMap.get?_set] at hadded
    split at hadded
    · next hn => exact .inl ⟨hs, hn⟩
    · rw [hs]
      exact .inr (get?_of_pruneNonces hadded).1
  · exact .inr h

/-- A nonce that passes the check is not recorded, before and after it. -/
theorem recorded?_eq_none_of_unknown {policy : NoncePolicy} {noncesBySender : NoncesBySender}
    {sender nonce : String} {nowSec : Int}
    (h : (isReplayNonce policy noncesBySender sender nonce nowSec).1 = false) :
    (pruneSenderNonces policy noncesBySender sender nowSec).recorded? sender nonce = none := by
  rw [isReplayNonce_fst, OrdMap.has_eq_false_iff] at h
  unfold pruneSenderNonces
  rw [recorded?_set, if_pos rfl, h]

theorem unknown_of_unrecorded {policy : NoncePolicy} {noncesBySender : NoncesBySender}
    {sender nonce : String} {nowSec : Int}
    (h : noncesBySender.recorded? sender nonce = none) :
    (pruneNonces policy (noncesBySender.getD sender ∅) nowSec).has nonce = false := by
  rw [OrdMap.has_eq_false_iff]
  cases hget : (pruneNonces policy (noncesBySender.getD sender ∅) nowSec).get? nonce with
  | none => rfl
  | some ts =>
    unfold NoncesBySender.recorded? at h
    rw [(get?_of_pruneNonces hget).1] at h
    cases h

/-! ## Snapshots -/

/-- The two plain objects of a snapshot, as their entries. -/
structure IdentitySnapshot where
  keysBySender : List (String × KeyRecord)
  noncesBySender : List (String × List (String × Int))

def identitySnapshot (keyRegistry : KeyRegistry) (noncesBySender : NoncesBySender) :
    IdentitySnapshot where
  keysBySender := objectEntries keyRegistry.entries
  noncesBySender := objectEntries
    (noncesBySender.entries.map fun e => (e.1, objectEntries e.2.entries))

/-- The keys `restoreIdentity` accepts: a sender and a key that are not blank. -/
def restoreKeys (keysBySender : List (String × KeyRecord)) : KeyRegistry :=
  OrdMap.ofList ((keysBySender.filter fun e => trim e.1 ≠ "" ∧ trim e.2.publicKey ≠ "").map
    fun e => (e.1, { e.2 with publicKey := trim e.2.publicKey }))

/-- The nonces `restoreIdentity` accepts: not blank and not expired. -/
def restoreNonces (nonceTtlSec : Nat) (nowSec : Int) (nonces : List (String × Int)) : NonceTable :=
  OrdMap.ofList (nonces.filter fun e =>
    trim e.1 ≠ "" ∧ ¬ (nonceTtlSec : Int) < nowSec - e.2)

def restoreNoncesBySender (nonceTtlSec : Nat) (nowSec : Int)
    (noncesBySender : List (String × List (String × Int))) : NoncesBySender :=
  OrdMap.ofList ((noncesBySender.map fun e => (e.1, restoreNonces nonceTtlSec nowSec e.2)).filter
    fun e => 0 < e.2.size)

/-- A restart on the service's own snapshot keeps a nonce that has not expired. The name
`__proto__` is the exception: a plain object cannot hold it. -/
theorem recorded?_restore {keyRegistry : KeyRegistry} {noncesBySender : NoncesBySender}
    {nonceTtlSec : Nat} {nowSec ts : Int} {sender nonce : String}
    (h : noncesBySender.recorded? sender nonce = some ts)
    (hlive : ¬ (nonceTtlSec : Int) < nowSec - ts) (hblank : trim nonce ≠ "")
    (hsender : sender ≠ "__proto__") (hnonce : nonce ≠ "__proto__") :
    (restoreNoncesBySender nonceTtlSec nowSec
      (identitySnapshot keyRegistry noncesBySender).noncesBySender).recorded? sender nonce =
      some ts := by
  unfold NoncesBySender.recorded? OrdMap.getD at h
  cases htable : noncesBySender.get? sender with
  | none =>
    rw [htable] at h
    cases h
  | some nonces =>
    rw [htable, Option.getD_some] at h
    -- The table of the sender, restored from its entries in the snapshot.
    have hinner : (restoreNonces nonceTtlSec nowSec (objectEntries nonces.entries)).get? nonce =
        some ts := by
      refine OrdMap.get?_ofList_of_mem ?_ ?_
      · exact (nodup_objectEntries nonces.nodup).sublist (List.filter_sublist.map _)
      · rw [List.mem_filter, mem_objectEntries]
        refine ⟨⟨OrdMap.get?_eq_some_iff.mp h, hnonce⟩, ?_⟩
        exact decide_eq_true ⟨hblank, hlive⟩
    have houter : (sender, objectEntries nonces.entries) ∈
        (identitySnapshot keyRegistry noncesBySender).noncesBySender := by
      refine mem_objectEntries.mpr ⟨List.mem_map.mpr ⟨(sender, nonces), ?_, rfl⟩, hsender⟩
      exact OrdMap.get?_eq_some_iff.mp htable
    have hkeys : ((identitySnapshot keyRegistry noncesBySender).noncesBySender.map
        Prod.fst).Nodup := by
      refine nodup_objectEntries ?_
      rw [List.map_map]
      exact noncesBySender.nodup
    have hsize : 0 < (restoreNonces nonceTtlSec nowSec (objectEntries nonces.entries)).size := by
      have hmem := OrdMap.get?_eq_some_iff.mp hinner
      exact List.length_pos_of_mem hmem
    have hrestored : (restoreNoncesBySender nonceTtlSec nowSec
        (identitySnapshot keyRegistry noncesBySender).noncesBySender).get? sender =
        some (restoreNonces nonceTtlSec nowSec (objectEntries nonces.entries)) := by
      refine OrdMap.get?_ofList_of_mem ?_ ?_
      · refine List.Nodup.sublist (List.filter_sublist.map _) ?_
        rw [List.map_map]
        exact hkeys
      · rw [List.mem_filter]
        exact ⟨List.mem_map.mpr ⟨_, houter, rfl⟩, by simpa using hsize⟩
    unfold NoncesBySender.recorded? OrdMap.getD
    rw [hrestored, Option.getD_some]
    exact hinner

/-- A restored table is no larger than the one in the snapshot. -/
theorem size_restore_le {keyRegistry : KeyRegistry} {noncesBySender : NoncesBySender}
    {nonceTtlSec : Nat} {nowSec : Int} {sender : String} {nonces : NonceTable}
    (h : (restoreNoncesBySender nonceTtlSec nowSec
      (identitySnapshot keyRegistry noncesBySender).noncesBySender).get? sender = some nonces) :
    ∃ old, noncesBySender.get? sender = some old ∧ nonces.size ≤ old.size := by
  have hmem := (List.mem_filter.mp (OrdMap.mem_of_get?_ofList h)).1
  obtain ⟨⟨sender', entries⟩, hentries, heq⟩ := List.mem_map.mp hmem
  cases heq
  obtain ⟨⟨sender'', old⟩, hold, heq⟩ := List.mem_map.mp (mem_objectEntries.mp hentries).1
  cases heq
  refine ⟨old, OrdMap.get?_eq_some_iff.mpr hold, ?_⟩
  have hrestore := OrdMap.size_ofList_le ((objectEntries old.entries).filter fun e =>
    trim e.1 ≠ "" ∧ ¬ (nonceTtlSec : Int) < nowSec - e.2)
  have hfilter := List.length_filter_le (fun e : String × Int =>
    decide (trim e.1 ≠ "" ∧ ¬ (nonceTtlSec : Int) < nowSec - e.2)) (objectEntries old.entries)
  have hobject := length_objectEntries_le old.entries
  exact hrestore.trans (hfilter.trans hobject)

end BitRelay
