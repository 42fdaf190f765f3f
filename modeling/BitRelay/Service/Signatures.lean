import BitRelay.Service.State

/-!
# Signed requests

The handlers of publish, review, key rotation and GitHub key verification, cut
where the source awaits something: the body, the payload hash and the
verification, the keys of GitHub. Between two cuts nothing else can run, so the
pieces are the atomic steps of an interleaving; a handler that runs alone is
their sequence.
-/

namespace BitRelay

section
variable {C : Type} (R : Relay C)

/-! ## The signature stage of publish and review -/

/-- A request past its nonce check, with the message whose signature it waits for. -/
structure PendingSignature where
  sender : String
  auth : PublishAuthHeaders
  message : String
  nowSec : Int

/-- `isReplayNonce` on the service state. -/
def ServiceState.checkReplay (sender nonce : String) (nowSec : Int) (s : ServiceState C) :
    Bool × ServiceState C :=
  let (replayed, noncesBySender) :=
    isReplayNonce R.config.noncePolicy s.noncesBySender sender nonce nowSec
  (replayed, { s with noncesBySender })

/-- `rememberNonce` on the service state. -/
def ServiceState.remember (sender nonce : String) (ts nowSec : Int) (s : ServiceState C) :
    ServiceState C :=
  { s with
    noncesBySender := rememberNonce R.config.noncePolicy s.noncesBySender sender nonce ts nowSec }

/-- The clock check and the nonce check, in this order. -/
def checkFreshness (sender nonce : String) (ts nowSec : Int) : Handler C Unit := do
  Proc.failIf (isStale nowSec ts R.config.maxClockSkewSec = true)
    (toErrorResponse "stale signature timestamp" 401)
  let replayed ← Proc.update (ServiceState.checkReplay R sender nonce nowSec)
  Proc.failIf (replayed = true) (toErrorResponse "replayed nonce" 409)

def beginSignature (sender : String) (auth : PublishAuthHeaders) (message : String)
    (nowSec : Int) : Handler C PendingSignature := do
  checkFreshness R sender auth.nonce auth.timestampSec nowSec
  return { sender, auth, message, nowSec }

/-- `ensureTofuKey` on the service state. -/
def bindKey (sender publicKey : String) (nowSec : Int) : Handler C Unit := do
  let checked ← Proc.gets fun s => ensureTofuKey s.keyRegistry sender publicKey nowSec
  let keyRegistry ← Proc.ofExcept checked
  Proc.modify fun s => { s with keyRegistry }

/-- The verified request binds its sender's key and records its nonce. -/
def finishSignature (pending : PendingSignature) : Handler C Unit := do
  Proc.failIf (R.platform.verifyEd25519Signature pending.auth.publicKey pending.message
    pending.auth.signature = false) (toErrorResponse "invalid signature" 401)
  bindKey pending.sender pending.auth.publicKey pending.nowSec
  Proc.modify (ServiceState.remember R pending.sender pending.auth.nonce
    pending.auth.timestampSec pending.nowSec)

/-! ## Publish -/

structure PublishInput where
  sender : String
  room : String
  topic : String
  id : String
  signatureFromQuery : String

/-- One rate limit: count the request and refuse it above the maximum. -/
def rateLimit (table : ServiceState C → OrdMap String RateCounter)
    (store : ServiceState C → OrdMap String RateCounter → ServiceState C)
    (key : String) (now max windowMs : Nat) (error : String) : Handler C Unit := do
  let allowed ← Proc.update fun s =>
    let (next, allowed) := fallbackRateLimit ((table s).get? key) now max windowMs
    (allowed, store s ((table s).set key next))
  Proc.failIf (allowed = false) (toErrorResponse error 429)

def ipRateLimit (clientIp : String) (now : Nat) : Handler C Unit :=
  if clientIp ≠ "" then
    rateLimit (fun s => s.ipRateCounts) (fun s ipRateCounts => { s with ipRateCounts })
      clientIp now R.config.ipPublishLimitPerWindow R.config.publishWindowMs "ip rate limit exceeded"
  else pure ()

def senderRateLimit (sender : String) (now : Nat) : Handler C Unit :=
  rateLimit (fun s => s.senderRateCounts) (fun s senderRateCounts => { s with senderRateCounts })
    sender now R.config.publishLimitPerWindow R.config.publishWindowMs "sender rate limit exceeded"

def roomRateLimit (room : String) (now : Nat) : Handler C Unit :=
  rateLimit (fun s => s.roomRateCounts) (fun s roomRateCounts => { s with roomRateCounts })
    room now R.config.roomPublishLimitPerWindow R.config.publishWindowMs "room rate limit exceeded"

/-- `Number.isFinite(contentLength) && contentLength > publishPayloadMaxBytes` -/
def exceedsContentLength (request : Request) : Bool :=
  match R.platform.toNumber ((request.header "content-length").getD "") with
  | some (.finite q) => decide ((R.config.publishPayloadMaxBytes : Rat) < q)
  | _ => false

def publishTopic (request : Request) : String :=
  let topic := trim ((request.param "topic").getD "notify")
  if topic ≠ "" then topic else "notify"

def publishId (request : Request) (randomUUID : String) : String :=
  let id := trim ((request.param "id").getD randomUUID)
  if id ≠ "" then id else randomUUID

/-- Publish, up to the wait for its body. -/
def publishArrive (request : Request) (env : Env) : Handler C PublishInput := do
  requireMethod request "POST"
  let sender ← requireParam request "sender"
  let room ← requireRoom R request
  ipRateLimit R (extractClientIp request) env.arrivedMs
  senderRateLimit R sender env.arrivedMs
  roomRateLimit R room env.arrivedMs
  Proc.failIf (exceedsContentLength R request = true) (toErrorResponse "payload too large" 413)
  return {
    sender, room
    topic := publishTopic request
    id := publishId request env.randomUUID
    signatureFromQuery := request.paramTrim "sig" }

/-- `normalizePublishPayload`: a wrapper `{payload, auth?}` is opened, a typed one is kept. -/
def normalizePublishPayload (parsed : JsonValue) : JsonValue :=
  match parsed, parsed.get? "payload", parsed.get? "kind" with
  | .obj _, some _, some (.str _) => parsed
  | .obj _, some payload, _ => payload
  | _, _, _ => parsed

def publishSigningMessage (sender room id topic : String) (payload : JsonValue)
    (auth : PublishAuthHeaders) : String :=
  buildPublishSigningMessage {
    sender, room, id, topic
    ts := auth.timestampSec
    nonce := auth.nonce
    payloadHash := R.platform.sha256Hex (canonicalizeJson R.platform payload) }

/-- `handleSignatureVerification`, up to the wait for the verification; `none` is a request
without signature headers, where signatures are not required. -/
def beginSignatureVerification (request : Request) (input : PublishInput) (payload : JsonValue)
    (nowSec : Int) : Handler C (Option PendingSignature) := do
  let auth ← Proc.ofExcept (parsePublishAuthHeaders request)
  match auth with
  | none => do
    Proc.failIf (R.config.requireSignatures = true)
      (toErrorResponse "missing signature headers" 401)
    return none
  | some auth => do
    let message :=
      publishSigningMessage R input.sender input.room input.id input.topic payload auth
    let pending ← beginSignature R input.sender auth message nowSec
    return some pending

/-- Publish, from its body to the wait for the verification. -/
def publishBegin (request : Request) (input : PublishInput) (env : Env) :
    Handler C (JsonValue × Option PendingSignature) := do
  Proc.failIf (R.config.publishPayloadMaxBytes < jsonByteLength request.body.text)
    (toErrorResponse "payload too large" 413)
  let parsed ← Proc.ofExcept
    (request.body.json.elim (.error (toErrorResponse "invalid json payload" 400)) .ok)
  let payload := normalizePublishPayload parsed
  let pending ← beginSignatureVerification R request input payload (nowEpochSec env.nowMs)
  return (payload, pending)

/-- `handleSignatureVerification`, after the wait. -/
def finishSignatureVerification : Option PendingSignature → Handler C Unit
  | none => pure ()
  | some pending => finishSignature R pending

/-- Publish, up to the end of its signature stage. -/
def publishSigned (request : Request) (env : Env) :
    Handler C (PublishInput × JsonValue × Option PendingSignature) := do
  let input ← publishArrive R request env
  let (payload, pending) ← publishBegin R request input env
  finishSignatureVerification R pending
  return (input, payload, pending)

/-- The message goes into its room, with the verified signature or the one of the query. -/
def publishCommit (input : PublishInput) (payload : JsonValue)
    (pending : Option PendingSignature) : Handler C PublishResult :=
  let signature := (pending.map fun p => p.auth.signature).getD input.signatureFromQuery
  Proc.update (ServiceState.publishEntry R input.room input.sender input.topic input.id signature
    payload R.config.relayNodeId 0 R.config.cacheExchangeMaxHops)

def PublishResult.toResponse (result : PublishResult) : Response := ⟨result.status, result.body⟩

def handlePublish (request : Request) (env : Env) : Handler C Response := do
  let (input, payload, pending) ← publishSigned R request env
  let result ← publishCommit R input payload pending
  Proc.modify (ServiceState.persistResult R result)
  return result.toResponse

/-! ## Review -/

structure ReviewInput where
  room : String
  sender : String
  prId : String
  verdict : ReviewVerdict

/-- A review, up to the wait for its verification. The signature is always required. -/
def reviewBegin (request : Request) (room : String) (env : Env) :
    Handler C (ReviewInput × PendingSignature) := do
  let sender ← requireParam request "sender"
  let prId ← requireParam request "pr_id"
  Proc.failIf (isValidPrId prId = false) (toErrorResponse "invalid pr_id" 400)
  let verdict ← Proc.ofExcept
    ((parseVerdict (request.paramTrim "verdict")).elim
      (.error (toErrorResponse "invalid verdict" 400)) .ok)
  let presented ← Proc.ofExcept (parsePublishAuthHeaders request)
  let auth ← Proc.ofExcept
    (presented.elim (.error (toErrorResponse "missing signature headers" 401)) .ok)
  let message := buildReviewSigningMessage {
    sender, room, prId
    verdict := verdict.toString
    ts := auth.timestampSec
    nonce := auth.nonce }
  let pending ← beginSignature R sender auth message (nowEpochSec env.nowMs)
  return ({ room, sender, prId, verdict }, pending)

/-- Write the verdict of a sender; its first submission keeps its time. -/
def ServiceState.submitReview (input : ReviewInput) (nowSec : Int) (s : ServiceState C) :
    (Bool × ReviewStatus) × ServiceState C :=
  let roomState := s.roomOf input.room
  let prReviews := roomState.reviewsByPr.getD input.prId ∅
  let existing := prReviews.get? input.sender
  let prReviews := prReviews.set input.sender {
    sender := input.sender
    verdict := input.verdict
    submittedAt := (existing.map ReviewRecord.submittedAt).getD nowSec
    updatedAt := nowSec }
  let roomState :=
    { roomState with reviewsByPr := roomState.reviewsByPr.set input.prId prReviews }
  ((existing.isSome, computeReviewStatus prReviews), s.putRoom input.room roomState)

/-- The verdict is recorded, and its status is reported. -/
def reviewCommit (input : ReviewInput) (pending : PendingSignature) : Handler C Response := do
  let (updated, status) ← Proc.update (ServiceState.submitReview input pending.nowSec)
  return ⟨200, .obj [
    ("ok", .bool true),
    ("room", .str input.room),
    ("pr_id", .str input.prId),
    ("sender", .str input.sender),
    ("verdict", .str input.verdict.toString),
    ("event", .str (if updated then "updated" else "submitted")),
    ("resolved", .bool status.resolved),
    ("approve_count", .ofNat status.approveCount),
    ("deny_count", .ofNat status.denyCount)]⟩

/-- A review, up to the end of its signature stage. -/
def reviewSigned (request : Request) (room : String) (env : Env) :
    Handler C (ReviewInput × PendingSignature) := do
  let (input, pending) ← reviewBegin R request room env
  finishSignature R pending
  return (input, pending)

def handleReviewPost (request : Request) (room : String) (env : Env) : Handler C Response := do
  let (input, pending) ← reviewSigned R request room env
  reviewCommit input pending

/-! ## Key rotation -/

structure RotateFields where
  sender : String
  newPublicKey : String
  ts : Int
  nonce : String
  oldSignature : String
  newSignature : String

/-- A rotation past its nonce check: `publicKey` is the key it read. -/
structure PendingRotate where
  fields : RotateFields
  publicKey : String
  nowSec : Int

/-- The body fields of a rotation; the first bad one is named. -/
def parseRotateFields (parsed : JsonValue) : Except Response RotateFields :=
  let sender := trim (parsed.strField "sender")
  let newPublicKey := trim (parsed.strField "new_public_key")
  let ts := match parsed.get? "ts" with
    | some (.num n) => n.truncInt?
    | some (.str text) => parseInt10 text
    | _ => none
  let nonce := trim (parsed.strField "nonce")
  let oldSignature := trim (parsed.strField "old_signature")
  let newSignature := trim (parsed.strField "new_signature")
  if sender = "" then .error (toErrorResponse "missing field: sender" 400)
  else if newPublicKey = "" ∨ isLikelyBase64Url newPublicKey = false then
    .error (toErrorResponse "invalid field: new_public_key" 400)
  else
    match ts with
    | none => .error (toErrorResponse "invalid field: ts" 400)
    | some ts =>
      if ts ≤ 0 then .error (toErrorResponse "invalid field: ts" 400)
      else if nonce = "" ∨ 256 < jsLength nonce then
        .error (toErrorResponse "invalid field: nonce" 400)
      else if oldSignature = "" ∨ newSignature = "" ∨ isLikelyBase64Url oldSignature = false ∨
          isLikelyBase64Url newSignature = false then
        .error (toErrorResponse "invalid signature payload" 400)
      else .ok { sender, newPublicKey, ts, nonce, oldSignature, newSignature }

def RotateFields.message (fields : RotateFields) : String :=
  buildRotateSigningMessage {
    sender := fields.sender
    newPublicKey := fields.newPublicKey
    ts := fields.ts
    nonce := fields.nonce }

/-- The record of a sender that may rotate its key. -/
def activeKey (record : Option KeyRecord) : Except Response KeyRecord :=
  match record with
  | none => .error (toErrorResponse "sender key not found" 404)
  | some record =>
    if record.status ≠ .active then .error (toErrorResponse "sender key revoked" 403)
    else .ok record

/-- A rotation, from its body to the wait for the two verifications. -/
def rotateBegin (request : Request) (env : Env) : Handler C PendingRotate := do
  let parsed ← requireObject request
  let fields ← Proc.ofExcept (parseRotateFields parsed)
  let nowSec := nowEpochSec env.nowMs
  checkFreshness R fields.sender fields.nonce fields.ts nowSec
  let record ← Proc.gets fun s => s.keyRegistry.get? fields.sender
  let record ← Proc.ofExcept (activeKey record)
  return { fields, publicKey := record.publicKey, nowSec }

/-- Write to the record of a sender. -/
def ServiceState.updateKey (sender : String) (f : KeyRecord → KeyRecord) (s : ServiceState C) :
    ServiceState C :=
  match s.keyRegistry.get? sender with
  | none => s
  | some record => { s with keyRegistry := s.keyRegistry.set sender (f record) }

/-- A rotation, after the wait: the record is overwritten, whatever it holds by now. -/
def rotateCommit (pending : PendingRotate) : Handler C Unit := do
  let fields := pending.fields
  Proc.failIf (R.platform.verifyEd25519Signature pending.publicKey fields.message
    fields.oldSignature = false) (toErrorResponse "invalid old signature" 401)
  Proc.failIf (R.platform.verifyEd25519Signature fields.newPublicKey fields.message
    fields.newSignature = false) (toErrorResponse "invalid new signature" 401)
  Proc.modify (ServiceState.updateKey fields.sender fun record =>
    { record with
      publicKey := fields.newPublicKey
      rotatedAt := some pending.nowSec
      lastSeenAt := pending.nowSec
      githubUsername := none
      githubVerifiedAt := none })
  Proc.modify (ServiceState.remember R fields.sender fields.nonce fields.ts pending.nowSec)

/-- A rotation, up to the end of its signature stage. -/
def rotateSigned (request : Request) (env : Env) : Handler C PendingRotate := do
  requireMethod request "POST"
  let pending ← rotateBegin R request env
  rotateCommit R pending
  return pending

def PendingRotate.toResponse (pending : PendingRotate) : Response := ⟨200, .obj [
  ("ok", .bool true),
  ("sender", .str pending.fields.sender),
  ("public_key", .str pending.fields.newPublicKey),
  ("rotated_at", .ofInt pending.nowSec)]⟩

def handleKeyRotate (request : Request) (env : Env) : Handler C Response := do
  let pending ← rotateSigned R request env
  return pending.toResponse

/-! ## GitHub key verification -/

/-- `matchesGitHubKey`: the decoded key is one of the 32-byte keys. -/
def matchesGitHubKey (publicKey : String) (keys : List Bytes) : Bool :=
  match base64UrlDecode publicKey with
  | none => false
  | some relayBytes =>
    decide (relayBytes.length = 32) && keys.any fun key => key.length == 32 && relayBytes == key

/-- The sender of a verification, up to the wait for the keys. -/
def verifyGitHubBegin (request : Request) : Handler C String := do
  let parsed ← requireObject request
  let sender := trim (parsed.strField "sender")
  let githubUsername := trim (parsed.strField "github_username")
  Proc.failIf (sender = "") (toErrorResponse "missing field: sender" 400)
  Proc.failIf (githubUsername = "") (toErrorResponse "missing field: github_username" 400)
  Proc.failIf (sender ≠ githubUsername) (toErrorResponse "sender must match github_username" 400)
  let record ← Proc.gets fun s => s.keyRegistry.get? sender
  Proc.failIf (record = none) (toErrorResponse "sender key not found" 404)
  return sender

/-- A verification, after the wait: the record is compared as it is by now. -/
def verifyGitHubFinish (sender : String) (env : Env) : Handler C Response := do
  let keys ← Proc.ofExcept (env.githubKeys.mapError fun error =>
    toErrorResponse ("github key fetch failed: " ++ error) 502)
  let publicKey ← Proc.gets fun s => (s.keyRegistry.publicKeyOf sender).getD ""
  Proc.failIf (matchesGitHubKey publicKey keys = false) ⟨200, .obj [
    ("ok", .bool false),
    ("verified", .bool false),
    ("error", .str "key not found in github keys"),
    ("sender", .str sender),
    ("github_username", .str sender)]⟩
  let nowSec := nowEpochSec env.nowMs
  Proc.modify (ServiceState.updateKey sender fun record =>
    { record with githubUsername := some sender, githubVerifiedAt := some nowSec })
  return ⟨200, .obj [
    ("ok", .bool true),
    ("verified", .bool true),
    ("sender", .str sender),
    ("github_username", .str sender),
    ("github_verified_at", .ofInt nowSec)]⟩

def handleKeyVerifyGitHub (request : Request) (env : Env) : Handler C Response := do
  requireMethod request "POST"
  let sender ← verifyGitHubBegin request
  verifyGitHubFinish sender env

def handleKeyInfo (request : Request) : Handler C Response := do
  requireMethod request "GET"
  let sender ← requireParam request "sender"
  let record ← Proc.gets fun s => s.keyRegistry.get? sender
  let record ← Proc.ofExcept
    (record.elim (.error (toErrorResponse "sender key not found" 404)) .ok)
  return ⟨200, .obj [
    ("ok", .bool true),
    ("sender", .str sender),
    ("key", .obj [
      ("public_key", .str record.publicKey),
      ("status", .str (if record.status = .active then "active" else "revoked")),
      ("first_seen_at", .ofInt record.firstSeenAt),
      ("last_seen_at", .ofInt record.lastSeenAt),
      ("rotated_at", .ofInt? record.rotatedAt),
      ("revoked_at", .ofInt? record.revokedAt),
      ("github_username", .ofString? record.githubUsername),
      ("github_verified_at", .ofInt? record.githubVerifiedAt)])]⟩

end

end BitRelay
