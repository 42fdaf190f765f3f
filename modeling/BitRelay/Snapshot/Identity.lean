import BitRelay.Service.State

/-!
# The identity snapshot as a JSON value

`identitySnapshot` hands the storage a plain object, and `restoreIdentity` reads
one back field by field: what it finds may have been written by an older
version, or by hand. On the keys of the service's own snapshots it is `restoreKeys`.

Results:
1. `storable_restoreKeysFrom`: whatever is read back, a restored key and its
   sender are not blank, and the key is trimmed.
2. `restoreKeysFrom_toJson`: on the keys of a snapshot it is the restart of their
   table.
3. `publicKeyOf_restoreKeys`: a restart keeps the keys, except the one of a
   sender `__proto__`.
-/

namespace BitRelay

/-! ## Reading -/

/-- `Object.entries(v)`, of a plain object. -/
def JsonValue.entries (v : Option JsonValue) : List (String × JsonValue) :=
  (v.bind JsonValue.fields?).getD []

/-- A record of `keys_by_sender`; `none` is skipped. -/
def parseKeyRecord (value : JsonValue) : Option KeyRecord :=
  let publicKey := trim (value.strField "public_key")
  if value.fields?.isSome ∧ publicKey ≠ "" then some {
    publicKey
    status := if value.strField "status" = "revoked" then .revoked else .active
    firstSeenAt := (value.truncField? "first_seen_at").getD 0
    lastSeenAt := (value.truncField? "last_seen_at").getD 0
    rotatedAt := value.truncField? "rotated_at"
    revokedAt := value.truncField? "revoked_at"
    githubUsername := match value.get? "github_username" with
      | some (.str name) => some name
      | _ => none
    githubVerifiedAt := value.truncField? "github_verified_at" }
  else none

/-- The key of a sender; a blank sender is skipped. -/
def parseKeyEntry (e : String × JsonValue) : Option (String × KeyRecord) :=
  if trim e.1 ≠ "" then (parseKeyRecord e.2).map fun key => (e.1, key) else none

/-- `keyRegistry` after `restoreIdentity` -/
def restoreKeysFrom (keysBySender : Option JsonValue) : KeyRegistry :=
  OrdMap.ofList ((JsonValue.entries keysBySender).filterMap parseKeyEntry)

/-- The timestamp of a nonce; an infinity is skipped. -/
def parseNonceEntry (e : String × JsonValue) : Option (String × Int) :=
  match e.2 with
  | .num n => n.truncInt?.map fun ts => (e.1, ts)
  | _ => none

/-- `noncesBySender` after `restoreIdentity` -/
def restoreNoncesFrom (nonceTtlSec : Nat) (nowSec : Int) (noncesBySender : Option JsonValue) :
    NoncesBySender :=
  restoreNoncesBySender nonceTtlSec nowSec
    ((JsonValue.entries noncesBySender).filterMap fun e => e.2.fields?.map fun nonces =>
      (e.1, nonces.filterMap parseNonceEntry))

/-- `restoreIdentity` -/
def ServiceState.restoreIdentity {C : Type} (R : Relay C) (nowMs : Nat) (snapshot : JsonValue)
    (s : ServiceState C) : ServiceState C :=
  { s with
    keyRegistry := restoreKeysFrom (snapshot.get? "keys_by_sender")
    noncesBySender := restoreNoncesFrom R.config.noncePolicy.nonceTtlSec (nowEpochSec nowMs)
      (snapshot.get? "nonces_by_sender") }

/-! ## Writing -/

/-- A record of `keys_by_sender`. -/
def KeyRecord.toSnapshot (key : KeyRecord) : JsonValue := .obj [
  ("public_key", .str key.publicKey),
  ("status", .str (if key.status = .active then "active" else "revoked")),
  ("first_seen_at", .ofInt key.firstSeenAt),
  ("last_seen_at", .ofInt key.lastSeenAt),
  ("rotated_at", .ofInt? key.rotatedAt),
  ("revoked_at", .ofInt? key.revokedAt),
  ("github_username", .ofString? key.githubUsername),
  ("github_verified_at", .ofInt? key.githubVerifiedAt)]

def keysToJson (keysBySender : List (String × KeyRecord)) : JsonValue :=
  .obj (keysBySender.map fun e => (e.1, e.2.toSnapshot))

def noncesToJson (noncesBySender : List (String × List (String × Int))) : JsonValue :=
  .obj (noncesBySender.map fun e => (e.1, .obj (e.2.map fun n => (n.1, .ofInt n.2))))

def IdentitySnapshot.toJson (snapshot : IdentitySnapshot) : JsonValue := .obj [
  ("keys_by_sender", keysToJson snapshot.keysBySender),
  ("nonces_by_sender", noncesToJson snapshot.noncesBySender)]

/-- `identitySnapshot()` -/
def ServiceState.identitySnapshot {C : Type} (s : ServiceState C) : JsonValue :=
  (BitRelay.identitySnapshot s.keyRegistry s.noncesBySender).toJson

/-! ## Reading what was written -/

theorem truncField?_ofInt {v : JsonValue} {key : String} {n : Int}
    (h : v.get? key = some (.ofInt n)) : v.truncField? key = some n := by
  simp only [JsonValue.truncField?, JsonValue.numField?, h, JsonValue.ofInt, Option.bind_some,
    JsNumber.truncInt?_ofInt]

theorem truncField?_ofInt? {v : JsonValue} {key : String} {n : Option Int}
    (h : v.get? key = some (.ofInt? n)) : v.truncField? key = n := by
  cases n with
  | none => simp only [JsonValue.truncField?, JsonValue.numField?, h, JsonValue.ofInt?,
      Option.bind_none]
  | some n => exact truncField?_ofInt h

/-- A key record is read back as it was, with its key trimmed. -/
theorem parseKeyRecord_toSnapshot (key : KeyRecord) :
    parseKeyRecord key.toSnapshot =
      if trim key.publicKey ≠ "" then some { key with publicKey := trim key.publicKey }
      else none := by
  obtain ⟨publicKey, status, firstSeenAt, lastSeenAt, rotatedAt, revokedAt, username, verifiedAt⟩ := key
  have hkey : (KeyRecord.toSnapshot ⟨publicKey, status, firstSeenAt, lastSeenAt, rotatedAt,
      revokedAt, username, verifiedAt⟩).strField "public_key" = publicKey := rfl
  have hfields : (KeyRecord.toSnapshot ⟨publicKey, status, firstSeenAt, lastSeenAt, rotatedAt,
      revokedAt, username, verifiedAt⟩).fields?.isSome = true := rfl
  unfold parseKeyRecord
  simp only [hkey, hfields, true_and]
  split
  · rw [truncField?_ofInt (n := firstSeenAt) rfl, truncField?_ofInt (n := lastSeenAt) rfl,
      truncField?_ofInt? (n := rotatedAt) rfl, truncField?_ofInt? (n := revokedAt) rfl,
      truncField?_ofInt? (n := verifiedAt) rfl]
    cases status <;> cases username <;> rfl
  · rfl

theorem restoreKeysFrom_toJson (keysBySender : List (String × KeyRecord)) :
    restoreKeysFrom (some (keysToJson keysBySender)) = restoreKeys keysBySender := by
  unfold restoreKeysFrom restoreKeys
  congr 1
  simp only [JsonValue.entries, keysToJson, JsonValue.fields?, Option.bind_some, Option.getD_some]
  induction keysBySender with
  | nil => rfl
  | cons e rest ih =>
    rw [List.map_cons, List.filterMap_cons, ih, parseKeyEntry, parseKeyRecord_toSnapshot]
    by_cases hsender : trim e.1 = ""
    · simp [hsender]
    · by_cases hkey : trim e.2.publicKey = ""
      · simp [hsender, hkey]
      · simp [hsender, hkey]

/-! ## The keys -/

/-- A sender and a key that a restart accepts and leaves as they are. -/
structure StorableKey (sender publicKey : String) : Prop where
  named : trim sender ≠ ""
  trimmed : Trimmed publicKey
  nonempty : publicKey ≠ ""

/-- All registered keys are such. -/
def KeyRegistry.Storable (keyRegistry : KeyRegistry) : Prop :=
  ∀ sender publicKey, keyRegistry.publicKeyOf sender = some publicKey →
    StorableKey sender publicKey

theorem publicKeyOf_eq_some_iff {keyRegistry : KeyRegistry} {sender publicKey : String} :
    keyRegistry.publicKeyOf sender = some publicKey ↔
      ∃ key, keyRegistry.get? sender = some key ∧ key.publicKey = publicKey := by
  simp only [KeyRegistry.publicKeyOf, Option.map_eq_some_iff]

/-- Whatever is read back, what is restored could be stored again. -/
theorem storable_restoreKeysFrom (keysBySender : Option JsonValue) :
    (restoreKeysFrom keysBySender).Storable := by
  intro sender publicKey h
  obtain ⟨key, hget, rfl⟩ := publicKeyOf_eq_some_iff.mp h
  obtain ⟨e, -, he⟩ := List.mem_filterMap.mp (OrdMap.mem_of_get?_ofList hget)
  unfold parseKeyEntry at he
  split at he
  · next hsender =>
    obtain ⟨record, hrecord, heq⟩ := Option.map_eq_some_iff.mp he
    cases heq
    simp only [parseKeyRecord] at hrecord
    split at hrecord
    · next hkey =>
      cases hrecord
      exact ⟨hsender, trimmed_trim _, hkey.2⟩
    · cases hrecord
  · cases he

/-- A restart on the service's own snapshot keeps the key of a sender. The name `__proto__` is the
exception: a plain object cannot hold it. -/
theorem publicKeyOf_restoreKeys {keyRegistry : KeyRegistry} (hstorable : keyRegistry.Storable)
    {sender publicKey : String} (h : keyRegistry.publicKeyOf sender = some publicKey)
    (hproto : sender ≠ "__proto__") :
    (restoreKeys (objectEntries keyRegistry.entries)).publicKeyOf sender = some publicKey := by
  obtain ⟨named, trimmed, nonempty⟩ := hstorable sender publicKey h
  obtain ⟨key, hget, rfl⟩ := publicKeyOf_eq_some_iff.mp h
  have htrim : trim key.publicKey = key.publicKey := trimmed
  refine publicKeyOf_eq_some_iff.mpr ⟨key, OrdMap.get?_ofList_of_mem ?_ ?_, rfl⟩
  · rw [List.map_map]
    exact (nodup_objectEntries keyRegistry.nodup).sublist (List.filter_sublist.map _)
  · refine List.mem_map.mpr ⟨(sender, key), List.mem_filter.mpr ⟨?_, ?_⟩, ?_⟩
    · exact mem_objectEntries.mpr ⟨OrdMap.get?_eq_some_iff.mp hget, hproto⟩
    · refine decide_eq_true ⟨named, ?_⟩
      show trim key.publicKey ≠ ""
      rw [htrim]
      exact nonempty
    · show (sender, { key with publicKey := trim key.publicKey }) = (sender, key)
      rw [htrim]

end BitRelay
