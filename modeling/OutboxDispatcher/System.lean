import OutboxDispatcher.Dispatch
import OutboxDispatcher.Lib.Runs

/-! # The system

Any number of scheduling processes and dispatchers on one database, with publishers, the sweeper,
the retention worker, the admin API and the receivers. A step is one statement or one local action
of one of them, in any order; an admin or sweep request that fails changes nothing and is no step.
Every statement is made at one moment here; `System/Phases` takes those apart that are not.

Publishers draw the id of an event when they insert it, and the event becomes visible when they
commit. Event ids (UUIDs) are not used twice.

Three components only record the past, for the statements about runs: `committed` (the events that
have ever been visible), `issued` (the delivery rows as they were inserted) and `trace` (newest
first). No step reads them, except that `committed` keeps UUIDs from being used twice. -/

namespace OutboxDispatcher.System

open OutboxDispatcher.Lib.JsonValue OutboxDispatcher.Lib.Runs OutboxDispatcher.Lib.Tables
open OutboxDispatcher.Schema
open OutboxDispatcher.Callbacks.Fields OutboxDispatcher.Repo.Database
open OutboxDispatcher.Repo.Statements OutboxDispatcher.Scheduler.Pass OutboxDispatcher.Dispatch

/-- The state of everything. -/
structure Sys where
  now : Time
  db : Db
  /-- The next value of `outbox_events_id_seq`. -/
  eventSeq : ℤ
  /-- The events of publishers' open transactions. -/
  uncommitted : List RawEvent
  committed : List RawEvent
  issued : List DeliveryRow
  scheds : ℕ → Sched
  tasks : Table Task.tid
  nextTid : ℕ
  trace : List Obs

def init (now : Time) (scheds : ℕ → Sched) : Sys where
  now := now
  db := .empty
  eventSeq := 1
  uncommitted := []
  committed := []
  issued := []
  scheds := scheds
  tasks := .empty
  nextTid := 0
  trace := []

inductive Action
  | tick (d : ℕ)
  /-- A publisher inserts the event; its id is drawn from the sequence. -/
  | publish (e : RawEvent)
  | commit (id : ℤ)
  | rollback (id : ℤ)
  | sched (r : ℕ) (a : SchedAction)
  /-- A dispatcher runs the query of `fetch_due_deliveries`. -/
  | fetch
  | task (tid : ℕ) (a : TaskAction)
  | sweep
  | retry (d : ℤ)
  /-- By the admin API or the receiver. -/
  | complete (d : ℤ)
  | abandon (d : ℤ)
  | retention (deadLetterCutoff processedCutoff : Time) (batchLimit : ℤ)

/-- The delivery that an operator retries in the step. -/
def retries? : Action → Option ℤ
  | .retry d => some d
  | _ => none

/-- The tasks of a fetched batch, with the task ids from `n` on. -/
def newTasks (n : ℕ) (rows : List DueDeliveryRow) : List Task :=
  rows.zipIdx.map fun (row, i) => { tid := n + i, row, phase := .fetched }

/-- More tasks, under ids that are not used. -/
def addTasks (tasks : Table Task.tid) : List Task → Table Task.tid
  | [] => tasks
  | t :: ts =>
    if h : ∀ t' ∈ tasks.rows, t'.tid ≠ t.tid then addTasks (tasks.push t h) ts
      else addTasks tasks ts

def setPhase (tasks : Table Task.tid) (tid : ℕ) : Option Phase → Table Task.tid
  | none => tasks.filter (·.tid != tid)
  | some phase => tasks.modify (fun t => if t.tid = tid then { t with phase } else t) fun t => by
      split_ifs <;> rfl

theorem mem_addTasks {t : Task} : ∀ {tasks : Table Task.tid} (ts : List Task),
    t ∈ (addTasks tasks ts).rows → t ∈ tasks.rows ∨ t ∈ ts
  | _, [], h => .inl h
  | tasks, t' :: ts, h => by
    unfold addTasks at h
    split_ifs at h with hf
    · rcases mem_addTasks ts h with h | h
      · rw [Table.rows_push, List.mem_append, List.mem_singleton] at h
        rcases h with h | rfl
        · exact .inl h
        · exact .inr (by simp)
      · exact .inr (List.mem_cons_of_mem _ h)
    · rcases mem_addTasks ts h with h | h
      · exact .inl h
      · exact .inr (List.mem_cons_of_mem _ h)

theorem mem_addTasks_of_mem {t : Task} : ∀ {tasks : Table Task.tid} (ts : List Task),
    t ∈ tasks.rows → t ∈ (addTasks tasks ts).rows
  | _, [], h => h
  | tasks, t' :: ts, h => by
    unfold addTasks
    split_ifs with hf
    · exact mem_addTasks_of_mem ts (by simp [h])
    · exact mem_addTasks_of_mem ts h

theorem mem_newTasks {t : Task} {n : ℕ} {rows : List DueDeliveryRow} (h : t ∈ newTasks n rows) :
    n ≤ t.tid ∧ t.tid < n + rows.length ∧ t.row ∈ rows ∧ t.phase = .fetched := by
  obtain ⟨⟨row, i⟩, hm, rfl⟩ := List.mem_map.mp h
  obtain ⟨-, hlt, hrow⟩ := List.mem_zipIdx hm
  refine ⟨Nat.le_add_right n i, by simpa using hlt, ?_, rfl⟩
  rw [hrow]; exact List.getElem_mem _

/-- After a step of the task `tid` the others are there, and it is when it has a next phase. -/
theorem mem_setPhase {tasks : Table Task.tid} {tid : ℕ} {phase : Option Phase} {t : Task} :
    t ∈ (setPhase tasks tid phase).rows ↔
      (t ∈ tasks.rows ∧ t.tid ≠ tid) ∨
        ∃ t₀ ∈ tasks.rows, t₀.tid = tid ∧ ∃ p, phase = some p ∧ t = { t₀ with phase := p } := by
  cases phase with
  | none => simp [setPhase]
  | some p =>
    simp only [setPhase, Table.rows_modify, List.mem_map, Option.some.injEq, exists_eq_left']
    constructor
    · rintro ⟨t₀, ht₀, rfl⟩
      by_cases hid : t₀.tid = tid
      · exact .inr ⟨t₀, ht₀, hid, by simp [hid]⟩
      · simp only [hid, if_false]
        exact .inl ⟨ht₀, hid⟩
    · rintro (⟨ht, hid⟩ | ⟨t₀, ht₀, hid, rfl⟩)
      · exact ⟨t, ht, by simp [hid]⟩
      · exact ⟨t₀, ht₀, by simp [hid]⟩

/-- The rows that the sweep resets for another delivery. -/
def sweptRows (db : Db) (now : Time) (maxCompletionCycles : ℤ) : List ℤ :=
  (db.deliveries.rows.filter fun r =>
    (hungLimit db now maxCompletionCycles r).join.isSome &&
      !((sweepUpdate db now maxCompletionCycles).set r).deadLetter).map (·.id)

section

variable [Crates]

/-- What a step of a scheduling process makes visible: the event is done. -/
def schedObs (r : ℕ) : Sched → SchedAction → List Obs
  | .running _ l, .next => [.scheduled r l.event.eventId]
  | _, _ => []

/-- One step; `none` when the action is not possible. -/
def step (config : DispatchConfig) (s : Sys) : Action → Option Sys
  | .tick d => some { s with now := s.now + d }
  | .publish e =>
    if (s.committed ++ s.uncommitted).all (·.eventId != e.eventId) then
      some { s with
        uncommitted := s.uncommitted ++ [{ e with id := s.eventSeq }], eventSeq := s.eventSeq + 1 }
    else none
  | .commit id => do
    let e ← s.uncommitted.find? (·.id = id)
    let db ← s.db.commitEvent e
    return { s with
      db, uncommitted := s.uncommitted.filter (·.id != id), committed := s.committed ++ [e] }
  | .rollback id => some { s with uncommitted := s.uncommitted.filter (·.id != id) }
  | .sched r a => do
    let (db, sched) ← (s.scheds r).step config s.now s.db a
    return { s with
      db, scheds := Function.update s.scheds r sched
      issued := s.issued ++ db.deliveries.rows.drop s.db.deliveries.rows.length
      trace := schedObs r (s.scheds r) a ++ s.trace }
  | .fetch => do
    let rows ← selectDue s.db s.now config.batchSize
    return { s with
      tasks := addTasks s.tasks (newTasks s.nextTid rows), nextTid := s.nextTid + rows.length }
  | .task tid a => do
    let t ← s.tasks.get tid
    let (db, phase, obs) ← t.step config s.now s.db a
    return { s with db, tasks := setPhase s.tasks tid phase, trace := obs ++ s.trace }
  | .sweep => do
    let maxCycles := asI32 config.maxCompletionCycles
    let (db, _) ← resetHungExternal s.db s.now maxCycles
    return { s with
      db, trace := (sweptRows s.db s.now maxCycles).map .sweepReset ++ s.trace }
  | .retry d =>
    let (db, outcome) := retryDelivery s.db s.now d
    some { s with db, trace := (if outcome = .reset then [.retryReset d] else []) ++ s.trace }
  | .complete d => some { s with db := (completeDelivery s.db s.now d).1 }
  | .abandon d => some { s with db := (abandonDelivery s.db s.now d).1 }
  | .retention deadLetterCutoff processedCutoff batchLimit => do
    let (db, _) ← deleteTerminalEvents s.db deadLetterCutoff processedCutoff batchLimit
    return { s with db }

end

/-! ### Sample inputs -/

/-- A callback element with the fields it must have, and more. -/
def sampleCallback (name : String) (fields : List (String × Json)) : Json :=
  .obj (("name", .str name) :: ("signing_key_id", .str "k1") ::
    ("url", .str "https://example.com/hook") :: fields)

def sampleEvent (u : Uuid) (callbacks : List Json) : RawEvent where
  id := 0
  eventId := u
  kind := "user.registered@v1"
  aggregateType := "user"
  aggregateId := 7
  payload := .obj []
  metadata := .obj []
  callbacks := .arr callbacks
  createdAt := 0

def oneScheduler : ℕ → Sched := fun r => if r = 0 then .idle 0 else .down

end OutboxDispatcher.System
