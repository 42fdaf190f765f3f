import BitRelay.Lib.Run
import BitRelay.Service.Readers
import BitRelay.Service.Writers

/-!
# Dispatch

`fetch`: the open endpoints, the relay token, then one handler for each path.
-/

namespace BitRelay

inductive Endpoint
  | keyInfo
  | keyRotate
  | keyVerifyGitHub
  | githubWebhook
  | githubWebhookDlq
  | githubWebhookDlqRetry
  | triggerCallback
  | triggerResults
  | cacheExchangeDiscovery
  | cacheExchangePull
  | cacheExchangePush
  | cacheIssuesPull
  | cacheIssuesSync
  | ws
  | publish
  | poll
  | inboxPending
  | inboxAck
  | presenceHeartbeat
  | presence
  | review
  deriving DecidableEq

/-- The paths, in the order in which `fetch` compares. -/
def Endpoint.routes : List (String × Endpoint) := [
  ("/api/v1/key/info", keyInfo),
  ("/api/v1/key/rotate", keyRotate),
  ("/api/v1/key/verify-github", keyVerifyGitHub),
  ("/api/v1/github/webhook", githubWebhook),
  ("/api/v1/github/webhook/dlq", githubWebhookDlq),
  ("/api/v1/github/webhook/dlq/retry", githubWebhookDlqRetry),
  ("/api/v1/trigger/callback", triggerCallback),
  ("/api/v1/trigger/results", triggerResults),
  ("/api/v1/cache/exchange/discovery", cacheExchangeDiscovery),
  ("/api/v1/cache/exchange/pull", cacheExchangePull),
  ("/api/v1/cache/exchange/push", cacheExchangePush),
  ("/api/v1/cache/issues/pull", cacheIssuesPull),
  ("/api/v1/cache/issues/sync", cacheIssuesSync),
  ("/ws", ws),
  ("/api/v1/publish", publish),
  ("/api/v1/poll", poll),
  ("/api/v1/inbox/pending", inboxPending),
  ("/api/v1/inbox/ack", inboxAck),
  ("/api/v1/presence/heartbeat", presenceHeartbeat),
  ("/api/v1/presence", presence),
  ("/api/v1/review", review)]

/-- The endpoint of a path. -/
def Endpoint.ofPath (pathname : String) : Option Endpoint := routes.lookup pathname

/-- The endpoints whose requests pass a signature stage. -/
def Endpoint.signs : Endpoint → Bool
  | publish | review | keyRotate => true
  | _ => false

def Endpoint.path : Endpoint → String
  | keyInfo => "/api/v1/key/info"
  | keyRotate => "/api/v1/key/rotate"
  | keyVerifyGitHub => "/api/v1/key/verify-github"
  | githubWebhook => "/api/v1/github/webhook"
  | githubWebhookDlq => "/api/v1/github/webhook/dlq"
  | githubWebhookDlqRetry => "/api/v1/github/webhook/dlq/retry"
  | triggerCallback => "/api/v1/trigger/callback"
  | triggerResults => "/api/v1/trigger/results"
  | cacheExchangeDiscovery => "/api/v1/cache/exchange/discovery"
  | cacheExchangePull => "/api/v1/cache/exchange/pull"
  | cacheExchangePush => "/api/v1/cache/exchange/push"
  | cacheIssuesPull => "/api/v1/cache/issues/pull"
  | cacheIssuesSync => "/api/v1/cache/issues/sync"
  | ws => "/ws"
  | publish => "/api/v1/publish"
  | poll => "/api/v1/poll"
  | inboxPending => "/api/v1/inbox/pending"
  | inboxAck => "/api/v1/inbox/ack"
  | presenceHeartbeat => "/api/v1/presence/heartbeat"
  | presence => "/api/v1/presence"
  | review => "/api/v1/review"

/-- Every endpoint has one path. -/
theorem Endpoint.path_of {pathname : String} {endpoint : Endpoint}
    (h : Endpoint.ofPath pathname = some endpoint) : pathname = endpoint.path := by
  have hmem := (OrdMap.lookup_eq_some_iff (by decide)).mp h
  have hroutes : ∀ route ∈ Endpoint.routes, route.1 = route.2.path := by decide
  exact hroutes _ hmem

theorem Endpoint.ofPath_path (endpoint : Endpoint) :
    Endpoint.ofPath endpoint.path = some endpoint := by
  cases endpoint <;> rfl

/-- A request together with what it meets. -/
structure Call where
  request : Request
  env : Env

section
variable {C : Type} (R : Relay C)

def handleReview (request : Request) (env : Env) : Handler C Response := do
  let room ← requireRoom R request
  if request.method = "GET" then handleReviewGet request room
  else if request.method = "POST" then handleReviewPost R request room env
  else Proc.answer methodNotAllowedResponse

def Endpoint.handle (request : Request) (env : Env) : Endpoint → Handler C Response
  | keyInfo => handleKeyInfo request
  | keyRotate => handleKeyRotate R request env
  | keyVerifyGitHub => handleKeyVerifyGitHub request env
  | githubWebhook => handleGitHubWebhook R request env
  | githubWebhookDlq => handleGitHubWebhookDlqList request
  | githubWebhookDlqRetry => handleGitHubWebhookDlqRetry R request env
  | triggerCallback => handleTriggerCallback R request env
  | triggerResults => handleTriggerResults R request
  | cacheExchangeDiscovery => handleCacheExchangeDiscovery R request
  | cacheExchangePull => handleCacheExchangePull R request
  | cacheExchangePush => handleCacheExchangePush R request
  | cacheIssuesPull => handleCacheIssuePull R request
  | cacheIssuesSync => handleCacheIssueSync R request
  | ws => handleWebSocket R request env
  | publish => handlePublish R request env
  | poll => handlePoll R request
  | inboxPending => handleInboxPending R request
  | inboxAck => handleInboxAck R request
  | presenceHeartbeat => handlePresenceHeartbeat R request env
  | presence => handlePresence R request env
  | review => handleReview R request env

/-- The handler of an endpoint, behind the relay token. -/
def Endpoint.guarded (request : Request) (env : Env) (endpoint : Endpoint) :
    Handler C Response := do
  Proc.failWith (checkAuth R request)
  endpoint.handle R request env

def fetch (request : Request) (env : Env) : Handler C Response :=
  if request.pathname = "/health" then pure healthResponse
  else if request.pathname = "/" then pure ⟨200, .str "bit-relay"⟩
  else
    match Endpoint.ofPath request.pathname with
    | some endpoint => endpoint.guarded R request env
    | none => do
      Proc.failWith (checkAuth R request)
      pure notFoundResponse

/-- Process one request to its end. -/
def serve (request : Request) (env : Env) (s : ServiceState C) : Response × ServiceState C :=
  (fetch R request env).serve s

def serveCall (s : ServiceState C) (call : Call) : ServiceState C :=
  (serve R call.request call.env s).2

/-- The state after requests that are processed one at a time, from the empty service. -/
def afterCalls (cache : C) (calls : List Call) : ServiceState C :=
  runFrom (serveCall R) (.init cache) calls

end

end BitRelay
