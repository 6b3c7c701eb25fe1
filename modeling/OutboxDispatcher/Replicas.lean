import OutboxDispatcher.Config
import OutboxDispatcher.Lib.Buffered
import OutboxDispatcher.System

/-! # Replicas

The system of `System` leaves open who takes a step, and when. Here its processes are what they are
in the binary: replicas that run the loop of `run_scheduler_with_cycle_tracker`, and rescans. A
cycle of the loop drains the notifications, makes a scheduling pass, then `dispatch_due`, then the
sweep if its interval is over; a pass that fails ends the cycle with a sleep. `dispatch_due`
examines all rows of its batch, works through the ones that are left with bounded concurrency, and
returns when the last of them is done.

A replica is at what it awaits (`Stage`); what it computes between two awaits is done at one
instant. The statements it awaits are steps of the system, each at one moment. All its tasks are
part of the one future of the loop, so they are dropped together when the process ends: by a signal,
by a crash, or by a panic of one of them. -/

namespace OutboxDispatcher.Replicas

open OutboxDispatcher.Lib.Buffered OutboxDispatcher.Schema OutboxDispatcher.Callbacks.Fields
open OutboxDispatcher.Config OutboxDispatcher.Repo.Statements OutboxDispatcher.Scheduler.Pass
open OutboxDispatcher.Dispatch OutboxDispatcher.System

/-- The settings of the loop: those of its steps, and its two intervals. -/
structure LoopConfig where
  dispatch : DispatchConfig := {}
  pollInterval : Duration := fromSecs 5
  externalTimeoutSweepInterval : Duration := fromSecs 60

/-- `From<DispatchSettings> for DispatchConfig`, with the intervals. -/
def LoopConfig.ofSettings (s : DispatchSettings) : LoopConfig where
  dispatch := s.toConfig
  pollInterval := fromSecs s.pollIntervalSecs.toNat
  externalTimeoutSweepInterval := fromSecs s.externalTimeoutSweepIntervalSecs.toNat

/-! ### The loop -/

/-- What the loop awaits. -/
inductive Stage
  /-- `select!`. -/
  | waiting
  /-- `try_recv`, again and again. -/
  | draining
  /-- The statements of `schedule_new_deliveries`. -/
  | scheduling
  /-- The sleep after a failed pass. -/
  | backingOff (wakeAt : Time)
  /-- The query of `fetch_due_deliveries`. -/
  | fetching
  /-- Its loop: the tasks whose rows are not examined yet, and the ones that have a target. -/
  | examining (rows ready : List ℕ)
  /-- The stream of `dispatch_due`. -/
  | streaming (stream : Buffer ℕ)
  /-- `sweep_hung_external`. -/
  | sweeping
  deriving DecidableEq

def Stage.tasks : Stage → List ℕ
  | .examining rows ready => rows ++ ready
  | .streaming stream => stream.items
  | _ => []

/-- A process that runs the loop; its cursor is the one of its scheduling process. -/
structure Replica where
  stage : Stage := .waiting
  nextPoll : Time
  lastSweep : Time
  consecutiveErrors : ℕ := 0
  /-- The token is cancelled. -/
  shutdown : Bool := false
  listenerStatus : Bool := true
  /-- In milliseconds, 0 before the end of the first cycle. -/
  lastCycleAt : ℤ := 0

/-- `DateTime::timestamp_millis`. -/
def timestampMillis (t : Time) : ℤ := t / 10 ^ 6

/-- `consecutive_errors.saturating_add(1)`, of 32 bits. -/
def countError (consecutiveErrors : ℕ) : ℕ := min (consecutiveErrors + 1) (2 ^ 32 - 1)

/-- The sleep after a failed pass: 100 ms, doubled with each of the first six errors, and never
longer than the poll interval. -/
def backoffOf (pollInterval : Duration) (consecutiveErrors : ℕ) : Duration :=
  min pollInterval (min (100 * 2 ^ min consecutiveErrors 6) (2 ^ 64 - 1) * 10 ^ 6)

namespace Replica

def passFailed (config : LoopConfig) (now : Time) (p : Replica) : Replica :=
  let consecutiveErrors := countError p.consecutiveErrors
  { p with
    consecutiveErrors
    stage := .backingOff (now + backoffOf config.pollInterval consecutiveErrors) }

def passDone (p : Replica) : Replica := { p with stage := .fetching, consecutiveErrors := 0 }

/-- The last lines of the loop. -/
def endCycle (config : LoopConfig) (now : Time) (p : Replica) : Replica :=
  { p with
    stage := .waiting, nextPoll := now + config.pollInterval, lastCycleAt := timestampMillis now }

/-- `dispatch_due` has returned: the sweep follows, if its interval is over. -/
def dispatchDone (config : LoopConfig) (now : Time) (p : Replica) : Replica :=
  if now - p.lastSweep ≥ config.externalTimeoutSweepInterval then { p with stage := .sweeping }
  else p.endCycle config now

/-- The rows of the batch from here on, or the stream when they are all examined. -/
def examine (p : Replica) (rows ready : List ℕ) : Replica :=
  { p with stage := if rows.isEmpty then .streaming ⟨ready, []⟩ else .examining rows ready }

end Replica

def dropTask (s : Sys) (tid : ℕ) : Sys := { s with tasks := setPhase s.tasks tid none }

/-- The process `r` ends, and its tasks with it. -/
def kill (s : Sys) (r : ℕ) (tids : List ℕ) : Sys :=
  { tids.foldl dropTask s with scheds := Function.update s.scheds r .down }

def alive (s : Sys) (tid : ℕ) : Bool := (s.tasks.get tid).isSome

inductive Act
  /-- The process starts, and `recover_cursor` returns. -/
  | start
  /-- The token is cancelled, by a signal or by the admin server. -/
  | cancel
  /-- `select!` finds the token cancelled. -/
  | stop
  /-- `select!` gets a notification, or the error of a connection that is lost. -/
  | recv (ok : Bool)
  /-- `select!` gets the poll timer. -/
  | pollTimer
  /-- `try_recv` returns: with one more notification, or because the connection is lost. -/
  | tryRecv (found : Bool)
  /-- The query of the pass returns. -/
  | fetchNew (ok : Bool)
  | write (fault : Fault)
  /-- The event of the pass is done. -/
  | nextEvent
  /-- The sleep after a failed pass is over. -/
  | wake
  /-- The query for due deliveries returns. -/
  | fetchDue (ok : Bool)
  | task (tid : ℕ) (a : TaskAction)
  /-- The stream is drained. -/
  | streamDone
  | sweep (fault : Fault)
  | crash

section

variable [Crates]

namespace Replica

/-- A step of a task in the stream. It is started when there is room; it ends when its statement
says so, and a task that ends when it computes a time has panicked. -/
def streamStep (config : LoopConfig) (r : ℕ) (s : Sys) (p : Replica) (stream : Buffer ℕ) (tid : ℕ) :
    TaskAction → Option (Sys × Option Replica)
  | .computeLock => do
    let (next, stream) ← stream.start config.dispatch.dispatchConcurrency
    if next = tid then
      let s' ← System.step config.dispatch s (.task tid .computeLock)
      if alive s' tid then return (s', some { p with stage := .streaming stream })
      else return (kill s' r stream.items, none)
    else none
  | .respond result jitter =>
    if tid ∈ stream.running then do
      let s' ← System.step config.dispatch s (.task tid (.respond result jitter))
      if alive s' tid then return (s', some p) else return (kill s' r stream.items, none)
    else none
  | .crash => none
  | a =>
    if tid ∈ stream.running then do
      let s' ← System.step config.dispatch s (.task tid a)
      if alive s' tid then return (s', some p)
      else return (s', some { p with stage := .streaming (stream.finish tid) })
    else none

/-- A step of a running replica, the process `r`; `none` when the action is not possible. -/
def step (config : LoopConfig) (r : ℕ) (s : Sys) (p : Replica) (a : Act) :
    Option (Sys × Option Replica) :=
  match p.stage, a with
  | _, .cancel => some (s, some { p with shutdown := true })
  | stage, .crash => some (kill s r stage.tasks, none)
  | .waiting, .stop => if p.shutdown then some (kill s r [], none) else none
  | .waiting, .recv ok =>
    if p.shutdown then none else some (s, some { p with stage := .draining, listenerStatus := ok })
  | .waiting, .pollTimer =>
    if !p.shutdown && p.nextPoll ≤ s.now then some (s, some { p with stage := .draining }) else none
  | .draining, .tryRecv found =>
    some (s, some (if found then p else { p with stage := .scheduling }))
  | .scheduling, .fetchNew ok =>
    match s.scheds r with
    | .idle cursor =>
      match ok, fetchNewEvents s.db cursor config.dispatch.scheduleBatchSize with
      | true, some [] => some (s, some p.passDone)
      | true, some (_ :: _) => (System.step config.dispatch s (.sched r .poll)).map (·, some p)
      | _, _ => some (s, some (p.passFailed config s.now))
    | _ => none
  | .scheduling, .write fault => do
    let s' ← System.step config.dispatch s (.sched r (.write fault))
    match s'.scheds r with
    | .running _ _ => return (s', some p)
    | _ => return (s', some (p.passFailed config s.now))
  | .scheduling, .nextEvent => do
    let s' ← System.step config.dispatch s (.sched r .next)
    match s'.scheds r with
    | .running _ _ => return (s', some p)
    | _ => return (s', some p.passDone)
  | .backingOff wakeAt, .wake =>
    if wakeAt ≤ s.now then
      some (s, some { p with stage := .waiting, nextPoll := s.now + config.pollInterval })
    else none
  | .fetching, .fetchDue ok =>
    match if ok then System.step config.dispatch s .fetch else none with
    | none => some (s, some (p.dispatchDone config s.now))
    | some s' => some (s', some (p.examine (.range' s.nextTid (s'.nextTid - s.nextTid)) []))
  | .examining (next :: rows) ready, .task tid (.examine fault) =>
    if next = tid then do
      let s' ← System.step config.dispatch s (.task tid (.examine fault))
      return (s', some (p.examine rows (if alive s' tid then ready ++ [tid] else ready)))
    else none
  | .streaming stream, .task tid a => p.streamStep config r s stream tid a
  | .streaming stream, .streamDone =>
    if stream.items.isEmpty then some (s, some (p.dispatchDone config s.now)) else none
  | .sweeping, .sweep fault =>
    let s' := if fault = .lost then s else (System.step config.dispatch s .sweep).getD s
    some (s', some ({ p with lastSweep := s.now }.endCycle config s.now))
  | _, _ => none

end Replica

/-! ### The processes together -/

structure Cluster where
  sys : Sys
  replicas : ℕ → Option Replica

def boot (now : Time) : Cluster where
  sys := init now fun _ => .down
  replicas := fun _ => none

/-- What the processes have no part in: the clock, publishers, receivers, operators, retention. -/
def isOutside : System.Action → Bool
  | .sched _ _ | .fetch | .task _ _ | .sweep => false
  | _ => true

inductive Action
  | outside (a : System.Action)
  /-- A process that is no replica: a rescan. -/
  | rescan (k : ℕ) (a : SchedAction)
  | replica (r : ℕ) (a : Act)

/-- One step; `none` when the action is not possible. -/
def step (config : LoopConfig) (c : Cluster) : Action → Option Cluster
  | .outside a =>
    if isOutside a then (System.step config.dispatch c.sys a).map ({ c with sys := · }) else none
  | .rescan k a =>
    if (c.replicas k).isNone ∧ a ≠ .recover then
      (System.step config.dispatch c.sys (.sched k a)).map ({ c with sys := · })
    else none
  | .replica r a =>
    match c.replicas r, a with
    | none, .start => do
      let s ← System.step config.dispatch c.sys (.sched r .recover)
      let p : Replica := { nextPoll := s.now + config.pollInterval, lastSweep := s.now }
      return { sys := s, replicas := Function.update c.replicas r (some p) }
    | none, _ => none
    | some p, a => do
      let (s, p') ← p.step config r c.sys a
      return { sys := s, replicas := Function.update c.replicas r p' }

end

end OutboxDispatcher.Replicas
