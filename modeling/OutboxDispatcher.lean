import OutboxDispatcher.Lib.Base64
import OutboxDispatcher.Lib.Boards
import OutboxDispatcher.Lib.Buffered
import OutboxDispatcher.Lib.Checks
import OutboxDispatcher.Lib.Cidr
import OutboxDispatcher.Lib.Floats
import OutboxDispatcher.Lib.Hex
import OutboxDispatcher.Lib.Paging
import OutboxDispatcher.Lib.SocketAddr
import OutboxDispatcher.Lib.Runs
import OutboxDispatcher.Lib.Tables
import OutboxDispatcher.Lib.Text
import OutboxDispatcher.Lib.Traces
import OutboxDispatcher.Lib.JsonValue
import OutboxDispatcher.Schema
import OutboxDispatcher.Callbacks.Fields
import OutboxDispatcher.Callbacks.Parse
import OutboxDispatcher.Callbacks.Agreement
import OutboxDispatcher.Callbacks.Limits
import OutboxDispatcher.Callbacks.Headers
import OutboxDispatcher.Callbacks.Types
import OutboxDispatcher.Callbacks.Messages
import OutboxDispatcher.Callbacks.Hosts
import OutboxDispatcher.Repo.Database
import OutboxDispatcher.Repo.Statements
import OutboxDispatcher.Repo.Truncate
import OutboxDispatcher.Repo.SweepLookup
import OutboxDispatcher.Repo.SweepOnce
import OutboxDispatcher.Scheduler.Pass
import OutboxDispatcher.Scheduler.Partition
import OutboxDispatcher.Retry
import OutboxDispatcher.Config
import OutboxDispatcher.Callbacks.Accepted
import OutboxDispatcher.Dispatch
import OutboxDispatcher.System
import OutboxDispatcher.Repo.PoisonGuard
import OutboxDispatcher.System.Effects
import OutboxDispatcher.System.History
import OutboxDispatcher.System.Rows
import OutboxDispatcher.System.Sweep
import OutboxDispatcher.System.Counts
import OutboxDispatcher.Dispatch.Exclusion
import OutboxDispatcher.Scheduler.Completeness
import OutboxDispatcher.Scheduler.Rescan
import OutboxDispatcher.Scheduler.Batches
import OutboxDispatcher.Scheduler.Recovery
import OutboxDispatcher.Scheduler.Confluence
import OutboxDispatcher.Scheduler.Rejected
import OutboxDispatcher.Scheduler.Stall
import OutboxDispatcher.Retention
import OutboxDispatcher.Retention.Drain
import OutboxDispatcher.Ranges
import OutboxDispatcher.Retention.Workers
import OutboxDispatcher.Dispatch.StaleWriteBack
import OutboxDispatcher.Dispatch.Limbo
import OutboxDispatcher.System.Completion
import OutboxDispatcher.Dispatch.Success
import OutboxDispatcher.Dispatch.Abandon
import OutboxDispatcher.Dispatch.AttemptCount
import OutboxDispatcher.Dispatch.DueAtLock
import OutboxDispatcher.Dispatch.Exhaustion
import OutboxDispatcher.Dispatch.Solo
import OutboxDispatcher.Dispatch.Serial
import OutboxDispatcher.Dispatch.Redelivery
import OutboxDispatcher.Dispatch.Identity
import OutboxDispatcher.Dispatch.Expiry
import OutboxDispatcher.Dispatch.Lifecycle
import OutboxDispatcher.Dispatch.Cycles
import OutboxDispatcher.Keys
import OutboxDispatcher.Keys.Load
import OutboxDispatcher.Keys.Secrets
import OutboxDispatcher.Http.Signing
import OutboxDispatcher.Http.Client
import OutboxDispatcher.Http.Replay
import OutboxDispatcher.Http.Headers
import OutboxDispatcher.Observability
import OutboxDispatcher.Admin
import OutboxDispatcher.Admin.Auth
import OutboxDispatcher.Lib.Handlers
import OutboxDispatcher.Admin.Requests
import OutboxDispatcher.Admin.Totals
import OutboxDispatcher.Replicas
import OutboxDispatcher.Replicas.Effects
import OutboxDispatcher.Replicas.Ownership
import OutboxDispatcher.Replicas.Lone
import OutboxDispatcher.Replicas.Locks
import OutboxDispatcher.Replicas.Progress
import OutboxDispatcher.Replicas.Timing
import OutboxDispatcher.Replicas.Readiness
import OutboxDispatcher.Replicas.Stream
import OutboxDispatcher.Replicas.Waiting
