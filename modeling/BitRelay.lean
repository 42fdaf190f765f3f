import BitRelay.Lib.OrdMap
import BitRelay.Lib.Proc
import BitRelay.Lib.Coupling
import BitRelay.Lib.Run
import BitRelay.Lib.Doubles
import BitRelay.Lib.CappedLog
import BitRelay.Lib.Lines
import BitRelay.Js.Text
import BitRelay.Js.Json
import BitRelay.Js.Base64
import BitRelay.Js.Web
import BitRelay.Platform
import BitRelay.Signing
import BitRelay.Http
import BitRelay.CacheExchange
import BitRelay.Room
import BitRelay.Lib.PlainObject
import BitRelay.Identity
import BitRelay.IssueSync
import BitRelay.GitHubWebhook
import BitRelay.Service.State
import BitRelay.Service.Signatures
import BitRelay.Service.Writers
import BitRelay.Service.Readers
import BitRelay.Service.Fetch
import BitRelay.Service.Changes
import BitRelay.Service.Alike
import BitRelay.Authenticity
import BitRelay.Service.SignatureStage
import BitRelay.Replay
import BitRelay.InFlight
import BitRelay.ConcurrentReplay
import BitRelay.KeyContinuity
import BitRelay.Confidentiality
import BitRelay.Poll
import BitRelay.SigningMessages
import BitRelay.Worker
import BitRelay.WorkerRouting
import BitRelay.Worker.Objects
import BitRelay.GitServe.Session
import BitRelay.GitServe.Invariant
import BitRelay.GitServe.NoDrop
import BitRelay.GitServe.Restart
import BitRelay.GitServe.Routes
import BitRelay.Lib.StableSort
import BitRelay.Js.Numerals
import BitRelay.Cache.Store
import BitRelay.Js.FreeText
import BitRelay.Cache.Projection
import BitRelay.Cache.Adapter
import BitRelay.Cache.Writes
import BitRelay.Cache.Retries
import BitRelay.Lib.OffsetReader
import BitRelay.Cache.IssuePull
import BitRelay.Cache.Isolation
import BitRelay.Lib.CursorLog
import BitRelay.Exchange.Writes
import BitRelay.Exchange.Records
import BitRelay.Exchange.Pushes
import BitRelay.Exchange.HopLimit
import BitRelay.Exchange.SyncWorker
import BitRelay.Exchange.SyncLoss
import BitRelay.Exchange.Peering
import BitRelay.Exchange.Blocking
import BitRelay.Exchange.PeerRestart
import BitRelay.Exchange.TokenGates
import BitRelay.Worker.NamedSessions
import BitRelay.Worker.CrossRoomKeys
import BitRelay.Snapshot.Identity
import BitRelay.Snapshot.KeyWrites
import BitRelay.Snapshot.Rooms
import BitRelay.Snapshot.Service
import BitRelay.RoomLogs
import BitRelay.Snapshot.HandEdited
import BitRelay.Logs.Writing
import BitRelay.Logs.System
import BitRelay.Logs.Suffix
import BitRelay.Worker.IdentityStorage
import BitRelay.WriteProtection
import BitRelay.Interference
import BitRelay.Inbox
import BitRelay.Reviews
import BitRelay.Lib.Champion
import BitRelay.Cache.IssueSnapshots
import BitRelay.Cache.SyncIssues
import BitRelay.Cache.CursorRuns
import BitRelay.Cache.RecordedCursors
import BitRelay.Cache.CursorTable
import BitRelay.GitServe.Steps
import BitRelay.GitServe.Answers
import BitRelay.GitServe.Expiry
import BitRelay.GitServe.Wakeups
import BitRelay.GitServe.Tokens
import BitRelay.Js.ByteScan
import BitRelay.GitServe.RefScan
import BitRelay.GitServe.CompatPush
import BitRelay.GitCache.Key
import BitRelay.GitCache.Relay
import BitRelay.GitCache.Isolation
import BitRelay.GitCache.Live
import BitRelay.GitCache.Pushes
import BitRelay.Cache.Equivalence
import BitRelay.Webhook.Engine
import BitRelay.Webhook.Untouched
import BitRelay.Webhook.Queue
import BitRelay.Webhook.Deliveries
import BitRelay.Exchange.PushErrors
import BitRelay.TriggerResults
import BitRelay.Lib.FixedWindow
import BitRelay.Service.Parts
import BitRelay.Service.Reads
import BitRelay.RateLimits
import BitRelay.Lib.LongestFit
import BitRelay.Cache.Retention
import BitRelay.Cache.Listing
import BitRelay.Lib.Delimited
import BitRelay.Js.CodeUnits
import BitRelay.Js.JsonData
import BitRelay.CanonicalJson
import BitRelay.Exchange.Collisions
import BitRelay.Cache.ReadBack
import BitRelay.Exchange.PullWalk
import BitRelay.Lib.Shards
import BitRelay.Worker.SplitPush
import BitRelay.Cache.LoadLoop
import BitRelay.Cache.EventKeys
import BitRelay.Cache.SyncPages
import BitRelay.Lib.Fields
import BitRelay.GitHubKeys
import BitRelay.Exchange.RepositoryIds
import BitRelay.Exchange.RepositoryAffinity
import BitRelay.Presence
import BitRelay.Webhook.DlqPaging
import BitRelay.Refusals
import BitRelay.Lib.Promises
import BitRelay.Cache.PersistenceQueue
import BitRelay.Logs.ExchangeRecords
import BitRelay.GitHubVerification
import BitRelay.Logs.Sources
import BitRelay.Exchange.Network
import BitRelay.Lib.CatchUp
import BitRelay.Exchange.Mesh
import BitRelay.Lib.Subscribers
import BitRelay.LiveFeed
