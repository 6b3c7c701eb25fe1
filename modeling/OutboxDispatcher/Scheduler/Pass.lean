import OutboxDispatcher.Repo.Statements

/-! # Scheduling passes

A pass of `schedule_new_deliveries` fetches the events above the cursor and makes one or two writes
for each: rows for the accepted callbacks, then dead-lettered rows for the rejected ones, or
dead-lettered rows for all of them when the payload is too large or the array is rejected as a
whole. The cursor moves past an event only when its writes have succeeded, and a failure keeps the
cursor the pass was called with.

* `scheduleNewDeliveries` is the pass with a database that does not fail, and `rescan` the loop over
  such passes.
* `Sched.step` is the same pass one write at a time, where a write may fail, be applied without an
  answer, or be cut off by a crash.
* `eventRows` lists all rows the writes of an event ask for. Their names are the keys of the
  elements of its array (`perm_eventRows`), so an event whose rows are all there is fully scheduled.
  -/

namespace OutboxDispatcher.Scheduler.Pass

open OutboxDispatcher.Lib.Checks OutboxDispatcher.Lib.JsonValue OutboxDispatcher.Schema
open OutboxDispatcher.Callbacks.Fields OutboxDispatcher.Callbacks.Parse
open OutboxDispatcher.Repo.Database OutboxDispatcher.Repo.Database.Db
  OutboxDispatcher.Repo.Statements

/-! ### The writes of an event -/

/-- A write of the scheduler. -/
inductive Write
  | ensure (callbacks : List CallbackTarget)
  | createInvalid (entries : List (String × String))

namespace Write

/-- The write for the event `u`; it fails when the event is gone. -/
def exec (db : Db) (now : Time) (u : Uuid) : Write → Option Db
  | .ensure callbacks => ensureDeliveries db now u callbacks
  | .createInvalid entries => createInvalidDeliveries db now u entries

def rows : Write → List NewDelivery
  | .ensure callbacks => callbacks.map pendingRow
  | .createInvalid entries => entries.map invalidRow

/-- A write is the `INSERT` of its rows; without rows nothing is sent. -/
theorem exec_eq (w : Write) (db : Db) (now : Time) (u : Uuid) : w.exec db now u =
    if w.rows.isEmpty then some db else db.insertDeliveries now u w.rows := by
  cases w with
  | ensure callbacks => simp [exec, ensureDeliveries, rows]
  | createInvalid entries => simp [exec, createInvalidDeliveries, rows]

theorem exec_cases {w : Write} {db db' : Db} {now : Time} {u : Uuid}
    (h : w.exec db now u = some db') :
    (db' = db ∧ w.rows = []) ∨ InsertSpec db db' now u w.rows := by
  rw [exec_eq] at h
  split_ifs at h with he
  · exact .inl ⟨(Option.some.inj h).symm, by simpa using he⟩
  · exact .inr (insertDeliveries_spec h)

theorem exists_exec (w : Write) {db : Db} (now : Time) {e : RawEvent} (he : e ∈ db.events.rows) :
    ∃ db', w.exec db now e.eventId = some db' := by
  have hu : ∃ e' ∈ db.events.rows, e'.eventId = e.eventId := ⟨e, he, rfl⟩
  rw [exec_eq, insertDeliveries, if_pos hu]
  split_ifs <;> exact ⟨_, rfl⟩

theorem hasRow_exec {w : Write} {db db' : Db} {now : Time} {u : Uuid}
    (h : w.exec db now u = some db') : ∀ n ∈ w.rows, db'.HasRow u n.callbackName := by
  rcases exec_cases h with ⟨-, hnil⟩ | hi
  · simp [hnil]
  · exact fun n hn => (hi.hasRow _ _).mpr (.inr ⟨rfl, n, hn, rfl⟩)

end Write

section

variable [Crates]

/-- The body of the loop of `schedule_new_deliveries`: the writes it makes for the event. -/
def eventWrites (config : DispatchConfig) (e : RawEvent) : List Write :=
  if e.payloadSizeBytes > config.payloadSizeLimitBytes then
    let reason := payloadTooLargeError e.payloadSizeBytes config.payloadSizeLimitBytes
    [.createInvalid ((extractCallbackNames e.callbacks).map (·, reason))]
  else
    let parsed := parseCallbacks e.callbacks config
    if parsed.valid.isEmpty && parsed.invalid.all (·.1 == "<root>") then
      if e.callbacks.isArray then
        let reasonMsg := (parsed.invalid.head?.map (·.2.2)).getD
          "invalid_callback: unspecified array-level rejection"
        [.createInvalid ((extractCallbackNames e.callbacks).map (·, reasonMsg))]
      else []
    else
      (if parsed.valid.isEmpty then [] else [.ensure parsed.valid]) ++
        if parsed.invalid.isEmpty then []
        else [.createInvalid (parsed.invalid.map fun (name, _, msg) => (name, msg))]

/-- The rows the writes of an event ask for, in order. -/
def eventRows (config : DispatchConfig) (e : RawEvent) : List NewDelivery :=
  (eventWrites config e).flatMap Write.rows

/-! ### The pass without failures -/

def scheduleEvent (config : DispatchConfig) (now : Time) (db : Db) (e : RawEvent) : Option Db :=
  (eventWrites config e).foldlM (fun db w => w.exec db now e.eventId) db

/-- The loop over the events; the cursor is the id of the last one. -/
def scheduleEvents (config : DispatchConfig) (now : Time) : Db → ℤ → List RawEvent → Option (Db × ℤ)
  | db, newCursor, [] => some (db, newCursor)
  | db, _, e :: rest => do
    let db' ← scheduleEvent config now db e
    scheduleEvents config now db' e.id rest

def scheduleNewDeliveries (config : DispatchConfig) (now : Time) (db : Db) (cursor : ℤ) :
    Option (Db × ℤ) := do
  let newEvents ← fetchNewEvents db cursor config.scheduleBatchSize
  scheduleEvents config now db cursor newEvents

/-- The loop of the `rescan` command: passes until one finds nothing. -/
def rescan (config : DispatchConfig) (now : Time) : ℕ → Db → ℤ → Option (Db × ℤ)
  | 0, _, _ => none
  | fuel + 1, db, currentCursor => do
    let (db', newCursor) ← scheduleNewDeliveries config now db currentCursor
    if newCursor = currentCursor then return (db', currentCursor)
    else rescan config now fuel db' newCursor

/-! ### The pass one write at a time -/

/-- How a statement ends for its caller. -/
inductive Fault
  | ok
  /-- It is not applied, and the caller gets an error. -/
  | lost
  /-- It is applied, and the caller gets an error. -/
  | unacked
  deriving DecidableEq, Repr

/-- The loop of a pass at some iteration. -/
structure Loop where
  /-- The event of this iteration. -/
  event : RawEvent
  /-- Its writes that are not made yet. -/
  writes : List Write
  /-- The events after it. -/
  rest : List RawEvent

/-- A process that schedules: a replica or a rescan. -/
inductive Sched
  | down
  /-- Between two passes. -/
  | idle (cursor : ℤ)
  /-- In a pass that was called with `cursor`. -/
  | running (cursor : ℤ) (loop : Loop)

inductive SchedAction
  /-- It starts at `recover_cursor()`. -/
  | recover
  /-- A rescan starts, at the cursor its `--since` gives. -/
  | rescan (cursor : ℤ)
  /-- A pass begins. -/
  | poll
  /-- The next write of the event. -/
  | write (fault : Fault)
  /-- The event is done, its writes have succeeded. -/
  | next
  | crash
  deriving DecidableEq, Repr

/-- The loop at its next event. -/
def Loop.start (config : DispatchConfig) (e : RawEvent) (rest : List RawEvent) : Loop :=
  { event := e, writes := eventWrites config e, rest }

/-- One step of the process; `none` when the action is not possible. -/
def Sched.step (config : DispatchConfig) (now : Time) (db : Db) : Sched → SchedAction →
    Option (Db × Sched)
  | .down, .recover => some (db, .idle (recoverCursor db))
  | .down, .rescan cursor => some (db, .idle cursor)
  | .idle cursor, .poll =>
    match fetchNewEvents db cursor config.scheduleBatchSize with
    | some (e :: rest) => some (db, .running cursor (.start config e rest))
    | _ => some (db, .idle cursor)
  | .running cursor l, .write fault =>
    match l.writes with
    | [] => none
    | w :: writes =>
      match fault, w.exec db now l.event.eventId with
      | .ok, some db' => some (db', .running cursor { l with writes })
      | .unacked, some db' => some (db', .idle cursor)
      | _, _ => some (db, .idle cursor)
  | .running cursor l, .next =>
    match l.writes, l.rest with
    | [], [] => some (db, .idle l.event.id)
    | [], e :: rest => some (db, .running cursor (.start config e rest))
    | _ :: _, _ => none
  | _, .crash => some (db, .down)
  | _, _ => none

end

/-! ### The rows of an event are its elements -/

/-- Every element of the event's array has its row. -/
def FullyScheduled (db : Db) (e : RawEvent) : Prop :=
  ∀ name ∈ extractCallbackNames e.callbacks, db.HasRow e.eventId name

instance (db : Db) (e : RawEvent) : Decidable (FullyScheduled db e) :=
  inferInstanceAs (Decidable (∀ name ∈ extractCallbackNames e.callbacks, db.HasRow e.eventId name))

section

variable [Crates] {config : DispatchConfig} {e : RawEvent} {name : String}

/-- Of an array within the limit, the keys of targets and rejections together are those of the
elements. -/
theorem perm_parseElements (config : DispatchConfig) (array : List Json) :
    ((parseElements config [] array.zipIdx).valid.map (·.name) ++
      (parseElements config [] array.zipIdx).invalid.map (·.1)).Perm
      (extractCallbackNames (.arr array)) := by
  rw [parseElements_eq]
  refine (perm_split (·.name) (·.1) (verdicts config [] array.zipIdx)).trans (.of_eq ?_)
  exact keys_verdicts config [] array.zipIdx

/-- **The rows of an event have the keys of its elements**, whichever branch handles it. -/
theorem perm_eventRows (config : DispatchConfig) (e : RawEvent) :
    ((eventRows config e).map (·.callbackName)).Perm (extractCallbackNames e.callbacks) := by
  have hall : ∀ reason : String, ([Write.createInvalid
      ((extractCallbackNames e.callbacks).map (·, reason))].flatMap Write.rows).map
        (·.callbackName) = extractCallbackNames e.callbacks := by
    intro reason
    simp [Write.rows, invalidRow, Function.comp_def]
  unfold eventRows eventWrites
  dsimp only
  split
  · exact .of_eq (hall _)
  split
  · split
    · exact .of_eq (hall _)
    · next harr =>
      rcases hj : e.callbacks.asArray with _ | array
      · simp [extractCallbackNames, hj]
      · simp [Json.isArray, hj] at harr
  · -- the value is an array within the limit, otherwise all of `invalid` is `<root>`
    next hroot =>
    rcases hj : e.callbacks.asArray with _ | array
    · simp [parseCallbacks, hj] at hroot
    · by_cases hl : array.length > config.maxCallbacksPerEvent
      · simp [parseCallbacks, hj, hl] at hroot
      · have hp : parseCallbacks e.callbacks config = parseElements config [] array.zipIdx := by
          simp [parseCallbacks, hj, hl]
        rw [hp, Json.asArray_eq_some hj]
        refine .trans (.of_eq ?_) (perm_parseElements config array)
        generalize parseElements config [] array.zipIdx = parsed
        obtain ⟨valid, invalid⟩ := parsed
        cases valid <;> cases invalid <;>
          simp [Write.rows, pendingRow, invalidRow, Function.comp_def]

theorem mem_names_eventRows (config : DispatchConfig) :
    name ∈ (eventRows config e).map (·.callbackName) ↔ name ∈ extractCallbackNames e.callbacks :=
  (perm_eventRows config e).mem_iff

/-- An event is fully scheduled when every row its writes ask for is there. -/
theorem fullyScheduled_iff (config : DispatchConfig) {db : Db} : FullyScheduled db e ↔
    ∀ n ∈ eventRows config e, db.HasRow e.eventId n.callbackName := by
  unfold FullyScheduled
  constructor
  · exact fun h n hn => h _ ((mem_names_eventRows config).mp (List.mem_map_of_mem hn))
  · intro h name hname
    obtain ⟨n, hn, rfl⟩ := List.mem_map.mp ((mem_names_eventRows config).mpr hname)
    exact h n hn

end

end OutboxDispatcher.Scheduler.Pass
