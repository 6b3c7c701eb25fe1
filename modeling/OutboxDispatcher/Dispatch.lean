import OutboxDispatcher.Retry
import OutboxDispatcher.Scheduler.Pass

/-! # Dispatching one delivery

A row of a fetched batch goes through `fetch_due_deliveries`' loop, where its target is parsed
again, and then through `dispatch_one`: compute the lock, take it, call the receiver, write the
result back. Each of these is a step of its own here, since any other process may act between two of
them. Of the steps that run a statement the caller may get an error, whether the statement was
applied or not; `dispatch_one` logs it and returns.

A replica works through the rows of its batch in order and with bounded concurrency; here every row
is on its own, so every interleaving of a replica is one of these. -/

namespace OutboxDispatcher.Dispatch

open OutboxDispatcher.Schema OutboxDispatcher.Callbacks.Fields OutboxDispatcher.Retry
open OutboxDispatcher.Repo.Database OutboxDispatcher.Repo.Statements OutboxDispatcher.Scheduler.Pass

/-- What `dispatch_one` sees of `callback.deliver` under its timeout. -/
inductive CallbackResult
  | ok
  | transient (reason : String) (retryAfter : Option Duration)
  | timeout
  deriving DecidableEq, Repr

/-- The write-back of a failed attempt; `none` when computing `available_at` panics. -/
def failureStmt (now : Time) (jitter : ℚ) (due : DueDelivery) (reason : String)
    (retryAfter : Option Duration) : Option Stmt := do
  let nextAttempt := due.attempts + 1
  let nextAvailable ← computeNextAvailableAt now jitter nextAttempt retryAfter due.target.backoff
  return .markFailure reason nextAvailable (nextAttempt ≥ asI32 due.target.maxAttempts)

def writeBackStmt (now : Time) (jitter : ℚ) (due : DueDelivery) : CallbackResult → Option Stmt
  | .ok =>
    match due.target.mode with
    | .managed => some .markDispatchedManaged
    | .external => some .markDispatchedExternal
  | .transient reason retryAfter => failureStmt now jitter due reason retryAfter
  | .timeout => failureStmt now jitter due "callback timeout" none

/-- The error text and the `Retry-After` of a failed call. -/
def CallbackResult.failure? : CallbackResult → Option (String × Option Duration)
  | .ok => none
  | .transient reason retryAfter => some (reason, retryAfter)
  | .timeout => some ("callback timeout", none)

inductive WriteBack (now : Time) (jitter : ℚ) (due : DueDelivery) (result : CallbackResult) :
    Stmt → Prop
  | managed (h : result = .ok) (hm : due.target.mode = .managed) :
      WriteBack now jitter due result .markDispatchedManaged
  | external (h : result = .ok) (hm : due.target.mode = .external) :
      WriteBack now jitter due result .markDispatchedExternal
  | failure (reason : String) (retryAfter : Option Duration) (availableAt : Time)
      (h : result.failure? = some (reason, retryAfter))
      (ht : computeNextAvailableAt now jitter (due.attempts + 1) retryAfter due.target.backoff =
        some availableAt) :
      WriteBack now jitter due result
        (.markFailure reason availableAt (due.attempts + 1 ≥ asI32 due.target.maxAttempts))

theorem writeBack_of_stmt {now : Time} {jitter : ℚ} {due : DueDelivery} {result : CallbackResult}
    {stmt : Stmt} (h : writeBackStmt now jitter due result = some stmt) :
    WriteBack now jitter due result stmt := by
  have hfail : ∀ reason retryAfter, result.failure? = some (reason, retryAfter) →
      failureStmt now jitter due reason retryAfter = some stmt →
      WriteBack now jitter due result stmt := by
    intro reason retryAfter hr hf
    simp only [failureStmt, Option.bind_eq_bind, Option.bind_eq_some_iff, Option.pure_def,
      Option.some.injEq] at hf
    obtain ⟨t, ht, rfl⟩ := hf
    exact .failure reason retryAfter t hr ht
  cases result with
  | ok =>
    unfold writeBackStmt at h
    cases hm : due.target.mode with
    | managed => rw [hm] at h; cases h; exact .managed rfl hm
    | external => rw [hm] at h; cases h; exact .external rfl hm
  | transient reason retryAfter => exact hfail _ _ rfl h
  | timeout => exact hfail _ _ rfl h

/-- `lock_until`: the clock, the timeout of the callback and the buffer; `none` when an addition
panics. -/
def computeLockUntil (now : Time) (timeout lockBuffer : Duration) : Option Time := do
  let timeoutAt ← addDuration now timeout
  addDuration timeoutAt lockBuffer

def buildEventForDelivery (due : DueDelivery) : EventForDelivery where
  deliveryId := due.deliveryId
  eventId := due.eventId
  kind := due.kind
  callbackName := due.target.name
  mode := due.target.mode
  aggregateType := due.aggregateType
  aggregateId := due.aggregateId
  payload := due.payload
  metadata := due.metadata
  actorId := due.actorId
  correlationId := due.correlationId
  causationId := due.causationId
  createdAt := due.createdAt
  attempt := due.attempts + 1

/-- How far a fetched row has come. -/
inductive Phase
  /-- In the batch, not examined yet. -/
  | fetched
  /-- Its target is parsed. -/
  | ready (due : DueDelivery)
  /-- `lock_until` is computed. -/
  | locking (due : DueDelivery) (lockUntil : Time)
  /-- `lock_delivery` has returned true. -/
  | locked (due : DueDelivery) (lockUntil : Time)
  /-- The receiver is being called. -/
  | delivering (due : DueDelivery) (lockUntil : Time)
  /-- The call is over, the write-back is not made yet. -/
  | writing (due : DueDelivery) (lockUntil : Time) (stmt : Stmt)

namespace Phase

def due? : Phase → Option DueDelivery
  | fetched => none
  | ready due | locking due _ | locked due _ | delivering due _ | writing due _ _ => some due

/-- The lock the task holds: it is between a successful `lock_delivery` and its write-back. -/
def held? : Phase → Option Time
  | locked _ lockUntil | delivering _ lockUntil | writing _ lockUntil _ => some lockUntil
  | _ => none

end Phase

/-- A row some dispatcher has fetched and is working on. -/
structure Task where
  tid : ℕ
  row : DueDeliveryRow
  phase : Phase

inductive TaskAction
  /-- The loop of `fetch_due_deliveries` reaches the row. -/
  | examine (fault : Fault)
  | computeLock
  | lock (fault : Fault)
  | deliver
  /-- The receiver answers, or the timeout is over. -/
  | respond (result : CallbackResult) (jitter : ℚ)
  | writeBack (fault : Fault)
  | crash

/-- What an observer of the dispatchers and of the admin API sees. -/
inductive Obs
  /-- `lock_delivery` of the task has taken the row `d`. -/
  | locked (tid : ℕ) (d : ℤ)
  /-- A call of the receiver starts. -/
  | deliver (tid : ℕ) (event : EventForDelivery)
  | respond (tid : ℕ) (d : ℤ) (result : CallbackResult)
  /-- The write-back of the task has been applied. -/
  | wroteBack (tid : ℕ) (d : ℤ) (stmt : Stmt)
  /-- An admin retry has reset the row. -/
  | retryReset (d : ℤ)
  /-- The sweep has reset the row for another delivery. -/
  | sweepReset (d : ℤ)
  /-- A pass has made all writes of the event. -/
  | scheduled (r : ℕ) (u : Uuid)

/-- What a step of a task does: the database, the task's next phase (`none` when it is over), and
what can be seen. -/
abbrev TaskEffect := Db × Option Phase × List Obs

section

variable [Crates]

/-- One step of a task; `none` when the action is not possible. -/
def Task.step (config : DispatchConfig) (now : Time) (db : Db) (t : Task) (a : TaskAction) :
    Option TaskEffect :=
  match t.phase, a with
  | _, .crash => some (db, none, [])
  | .fetched, .examine fault =>
    match examineRow config t.row with
    | .ok due => some (db, some (.ready due), [])
    | .error reason =>
      if fault = .lost then some (db, none, [])
      else some ((Stmt.deadLetterPoison reason).exec db now t.row.deliveryId, none, [])
  | .ready due, .computeLock =>
    some (db, (computeLockUntil now due.target.timeout config.lockBuffer).map (.locking due ·), [])
  | .locking due lockUntil, .lock fault =>
    if fault = .lost then some (db, none, [])
    else
      let (db', got) := lockDelivery db now due.deliveryId lockUntil
      some (db', if fault = .ok ∧ got then some (.locked due lockUntil) else none,
        if got then [.locked t.tid due.deliveryId] else [])
  | .locked due lockUntil, .deliver =>
    some (db, some (.delivering due lockUntil), [.deliver t.tid (buildEventForDelivery due)])
  | .delivering due lockUntil, .respond result jitter =>
    some (db, (writeBackStmt now jitter due result).map (.writing due lockUntil ·),
      [.respond t.tid due.deliveryId result])
  | .writing due _ stmt, .writeBack fault =>
    if fault = .lost then some (db, none, [])
    else some (stmt.exec db now due.deliveryId, none, [.wroteBack t.tid due.deliveryId stmt])
  | _, _ => none

end

end OutboxDispatcher.Dispatch
