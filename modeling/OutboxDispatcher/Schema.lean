import OutboxDispatcher.Lib.JsonValue
import OutboxDispatcher.Lib.Text
import Mathlib.Data.Int.DivMod

/-! # The data model

The rows of the two tables, the callback targets parsed from an event, and the configuration of the
dispatch loop. Instants are nanoseconds since the Unix epoch, durations nanoseconds; the database
and the replicas read one clock (two in `Dispatch/Expiry`), and Postgres' rounding to microseconds
is left out. Ids and counters are integers (`BIGSERIAL`, `INT`), unsigned settings naturals.

Left out are the settings nothing here reads, the intervals and the channel of the wake loop. -/

namespace OutboxDispatcher.Schema

open OutboxDispatcher.Lib.JsonValue OutboxDispatcher.Lib.Text

/-- An instant, in nanoseconds since the Unix epoch. -/
abbrev Time := ℤ

/-- A `std::time::Duration`, in nanoseconds. -/
abbrev Duration := ℕ

/-- `Duration::from_secs`. -/
def fromSecs (n : ℕ) : ℕ := n * 10 ^ 9

abbrev Uuid := BitVec 128

/-- How the dispatcher decides that a delivery is finished. -/
inductive CompletionMode
  | managed
  | external
  deriving DecidableEq, Repr

def CompletionMode.asStr : CompletionMode → String
  | .managed => "managed"
  | .external => "external"

/-- One delivery target, parsed from `outbox_events.callbacks`. -/
structure CallbackTarget where
  name : String
  url : String
  mode : CompletionMode
  signingKeyId : Option String
  headers : List (String × String)
  maxAttempts : ℕ
  backoff : List Duration
  timeout : Duration
  externalCompletionTimeout : Option Duration
  maxCompletionCycles : ℕ
  deriving DecidableEq

/-- The settings of the dispatch loop. -/
structure DispatchConfig where
  batchSize : ℤ := 50
  dispatchConcurrency : ℕ := 16
  scheduleBatchSize : ℤ := 500
  maxAttempts : ℕ := 6
  backoff : List Duration := [30, 120, 600, 3600, 21600, 86400].map fromSecs
  handlerTimeout : Duration := fromSecs 30
  lockBuffer : Duration := fromSecs 10
  maxCompletionCycles : ℕ := 20
  payloadSizeLimitBytes : ℤ := 1048576
  allowInsecureUrls : Bool := false
  allowUnsignedCallbacks : Bool := false
  allowPrivateIpTargets : Bool := false
  maxCallbacksPerEvent : ℕ := 32

/-- A row of `outbox_events`. -/
structure RawEvent where
  id : ℤ
  eventId : Uuid
  kind : String
  aggregateType : String
  aggregateId : Uuid
  payload : Json
  metadata : Json
  callbacks : Json
  actorId : Option Uuid := none
  correlationId : Option Uuid := none
  causationId : Option Uuid := none
  createdAt : Time

/-- The column `payload_size_bytes` of the query: `octet_length(payload::text)`. -/
def RawEvent.payloadSizeBytes (e : RawEvent) : ℤ := byteLen e.payload.text

/-- A row of `outbox_deliveries`. -/
structure DeliveryRow where
  id : ℤ
  eventId : Uuid
  callbackName : String
  completionMode : CompletionMode
  attempts : ℤ := 0
  lastError : Option String := none
  lastAttemptAt : Option Time := none
  availableAt : Time
  lockedUntil : Option Time := none
  dispatchedAt : Option Time := none
  processedAt : Option Time := none
  completionCycles : ℤ := 0
  deadLetter : Bool := false
  createdAt : Time
  deriving DecidableEq

/-- The key of `UNIQUE (event_id, callback_name)`. -/
def DeliveryRow.key (r : DeliveryRow) : Uuid × String := (r.eventId, r.callbackName)

/-- The columns that no statement changes once the row is inserted. -/
def DeliveryRow.ident (r : DeliveryRow) : ℤ × Uuid × String × CompletionMode × Time :=
  (r.id, r.eventId, r.callbackName, r.completionMode, r.createdAt)

/-- `processed_at` is set or the row is dead-lettered. -/
def DeliveryRow.terminal (r : DeliveryRow) : Bool := r.processedAt.isSome || r.deadLetter

structure PageParams where
  limit : ℤ
  cursor : Option ℤ
  callbackName : Option String

/-- A dead-lettered delivery in the admin list. -/
structure DeadLetterRow where
  deliveryId : ℤ
  eventId : Uuid
  eventKind : String
  callbackName : String
  completionMode : CompletionMode
  attempts : ℤ
  lastError : Option String
  lastAttemptAt : Option Time
  createdAt : Time
  deriving DecidableEq

/-- A delivery in the admin list that waits for its receiver. -/
structure ExternalPendingRow where
  deliveryId : ℤ
  eventId : Uuid
  eventKind : String
  callbackName : String
  attempts : ℤ
  dispatchedAt : Time
  createdAt : Time
  deriving DecidableEq

/-- A delivery row joined with its event, ready to be dispatched. -/
structure DueDelivery where
  deliveryId : ℤ
  eventId : Uuid
  attempts : ℤ
  target : CallbackTarget
  kind : String
  aggregateType : String
  aggregateId : Uuid
  payload : Json
  metadata : Json
  actorId : Option Uuid
  correlationId : Option Uuid
  causationId : Option Uuid
  createdAt : Time

/-- What `Callback::deliver` is given. -/
structure EventForDelivery where
  deliveryId : ℤ
  eventId : Uuid
  kind : String
  callbackName : String
  mode : CompletionMode
  aggregateType : String
  aggregateId : Uuid
  payload : Json
  metadata : Json
  actorId : Option Uuid
  correlationId : Option Uuid
  causationId : Option Uuid
  createdAt : Time
  /-- The current attempt, from one. -/
  attempt : ℤ

/-- The outcome of an admin retry request. -/
inductive RetryOutcome
  | reset
  | notFound
  | locked
  deriving DecidableEq, Repr

structure SweepReport where
  reset : ℕ := 0
  exhausted : ℕ := 0
  deriving DecidableEq, Repr

/-- What `delete_terminal_events` reports. -/
structure RetentionDeleted where
  processed : ℕ := 0
  deadLetter : ℕ := 0
  deriving DecidableEq, Repr

/-- `as i32` on an unsigned number of 32 bits. -/
def asI32 (n : ℕ) : ℤ := Int.bmod n (2 ^ 32)

end OutboxDispatcher.Schema
