import BitRelay.IssueSync
import BitRelay.Platform

/-!
# GitHub webhooks

How a webhook payload becomes an envelope: the topic from the event and the
action, the room from the repository name, the sender from the login
(`memory_handler.ts`).
-/

namespace BitRelay

/-- `/^sha256=([a-fA-F0-9]{64})$/`, in lower case. -/
def parseGitHubSignatureHeader (value : String) : Option String :=
  let trimmed := trim value
  let digits := sliceFrom trimmed 7
  let isHex := fun c : Char => c.isDigit || (c.toLower ∈ ['a', 'b', 'c', 'd', 'e', 'f'])
  if startsWith trimmed "sha256=" ∧ digits.toList.length = 64 ∧ digits.toList.all isHex then
    some (String.ofList (digits.toList.map Char.toLower))
  else none

/-- `repository.full_name` with `/` as `-`, or the default room when that is no room name. -/
def normalizeGitHubRoomName (repositoryFullName : Option String) : String :=
  let normalized := replaceChar (trim (repositoryFullName.getD "")) '/' '-'
  if isValidRoomName normalized then normalized else DEFAULT_ROOM

def readGitHubRepositoryFullName (payload : JsonValue) : Option String :=
  match payload.objField? "repository" with
  | none => none
  | some repository =>
    let fullName := trim (repository.strField "full_name")
    if fullName ≠ "" then some fullName else none

def readGitHubIssueNumber (payload : JsonValue) : Option Int :=
  match (payload.objField? "issue").bind fun issue => issue.numField? "number" with
  | none => none
  | some raw =>
    match raw.truncInt? with
    | none => none
    | some value => if 0 < value then some value else none

def readGitHubIssueUpdatedAtMs (P : Platform) (payload : JsonValue) : Option Int :=
  match payload.objField? "issue" with
  | none => none
  | some issue =>
    let updatedAt := trim (issue.strField "updated_at")
    if updatedAt = "" then none
    else
      match P.dateParse updatedAt with
      | none => none
      | some normalized => if 0 ≤ normalized then some normalized else none

def readGitHubSender (payload : JsonValue) : String :=
  let login := trim (((payload.objField? "sender").map fun s => s.strField "login").getD "")
  if login ≠ "" then "github:" ++ login else "github:webhook"

/-- `action.toLowerCase().replaceAll(/[^a-z0-9._-]/g, '_')`, one `_` for each code unit. -/
def sanitizeAction (P : Platform) (action : String) : String :=
  String.ofList ((P.toLowerCase action).toList.flatMap fun c =>
    if isLowerNameChar c then [c] else (charUnits c).map fun _ => '_')

def validTopic? (candidate : String) : Option String :=
  if isValidTopic candidate then some candidate else none

def mapGitHubWebhookTopic (P : Platform) (event action : String) : Option String :=
  if event = "issues" then
    if action = "opened" then some "issue"
    else if action = "reopened" then some "issue.reopened"
    else if action = "edited" then some "issue.updated"
    else if action = "closed" then some "issue.closed"
    else if action = "labeled" ∨ action = "unlabeled" then some "issue.label"
    else if action ≠ "" then validTopic? ("issue." ++ sanitizeAction P action)
    else some "issue"
  else if event = "issue_comment" then
    validTopic? ("issue.comment." ++ sanitizeAction P (if action ≠ "" then action else "created"))
  else if event = "label" then some "issue.label"
  else none

def buildGitHubIssueId (repositoryFullName : Option String) (issueNumber : Option Int)
    (deliveryId : String) : String :=
  match repositoryFullName, issueNumber with
  | some fullName, some n => fullName ++ "#" ++ toString n
  | none, some n => "issue#" ++ toString n
  | _, none => "delivery:" ++ deliveryId

/-- `typeof v[key] === 'number' ? Math.trunc(v[key]) : 0` -/
def truncField (v : JsonValue) (key : String) : JsonValue :=
  match v.numField? key with
  | some n => .num n.trunc
  | none => .ofNat 0

def buildGitHubIssuePayload (deliveryId event action issueId : String)
    (repositoryFullName : Option String) (parsed : JsonValue) : List (String × JsonValue) :=
  let issue := match parsed.objField? "issue" with
    | none => []
    | some issue => [("issue", JsonValue.obj [
        ("number", truncField issue "number"),
        ("title", .str (issue.strField "title")),
        ("state", .str (issue.strField "state")),
        ("html_url", .str (issue.strField "html_url")),
        ("updated_at", .str (issue.strField "updated_at"))])]
  let comment := match parsed.objField? "comment" with
    | none => []
    | some comment => [("comment", JsonValue.obj [
        ("id", truncField comment "id"),
        ("body", .str (comment.strField "body")),
        ("html_url", .str (comment.strField "html_url"))])]
  let label := match parsed.objField? "label" with
    | none => []
    | some label => [("label", JsonValue.obj [
        ("name", .str (label.strField "name")),
        ("color", .str (label.strField "color"))])]
  [("source", .str "github"),
    ("delivery_id", .str deliveryId),
    ("event", .str event),
    ("action", .str action),
    ("issue_id", .str issueId),
    ("repository", .str (repositoryFullName.getD ""))] ++ issue ++ comment ++ label

/-- The `map` callback of `applyGitHubWebhookDelivery`. -/
def mapGitHubDelivery (P : Platform) (event deliveryId : String) (parsed : JsonValue) :
    Except String IssueSyncMappedEnvelope :=
  let action := P.toLowerCase (trim (parsed.strField "action"))
  match mapGitHubWebhookTopic P event action with
  | none => .error "unsupported github webhook event/action"
  | some topic =>
    if isValidTopic topic = false then .error "unsupported github webhook event/action"
    else
      let repositoryFullName := readGitHubRepositoryFullName parsed
      let issueNumber := readGitHubIssueNumber parsed
      let issueId := buildGitHubIssueId repositoryFullName issueNumber deliveryId
      let payload := buildGitHubIssuePayload deliveryId event action issueId repositoryFullName
        parsed
      let sourceUpdatedAt := match readGitHubIssueUpdatedAtMs P parsed with
        | none => []
        | some ms => [("source_updated_at_ms", JsonValue.ofInt ms)]
      .ok {
        room := normalizeGitHubRoomName repositoryFullName
        sender := readGitHubSender parsed
        topic, issueId, action
        envelopeId := "gh-" ++ deliveryId
        payload := .obj (payload ++ sourceUpdatedAt) }

/-- The relay names every sender of a webhook envelope itself. -/
theorem readGitHubSender_startsWith (payload : JsonValue) :
    startsWith (readGitHubSender payload) "github:" = true := by
  unfold readGitHubSender
  simp only
  split
  · simp [startsWith]
  · decide

theorem mapGitHubDelivery_sender {P : Platform} {event deliveryId : String} {parsed : JsonValue}
    {mapped : IssueSyncMappedEnvelope}
    (h : mapGitHubDelivery P event deliveryId parsed = .ok mapped) :
    startsWith mapped.sender "github:" = true := by
  have hsender : mapped.sender = readGitHubSender parsed := by
    unfold mapGitHubDelivery at h
    simp only at h
    split at h
    · cases h
    · split at h
      · cases h
      · simp only [Except.ok.injEq] at h
        rw [← h]
  rw [hsender]
  exact readGitHubSender_startsWith parsed

end BitRelay
