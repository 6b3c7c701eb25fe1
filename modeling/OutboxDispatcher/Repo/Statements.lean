import OutboxDispatcher.Callbacks.Parse
import OutboxDispatcher.Repo.Database

/-! # The statements of the repository

Each method of `PgRepo` that the dispatcher, the sweeper, the retention worker and the admin API
call, as a function of the database and of `now()`. The statements that write one delivery row by
its id are values of one type, `Stmt`, with the condition and the assignments of its `UPDATE`; a
method returns what its statement makes of the database. A method that may raise returns an option.
-/

namespace OutboxDispatcher.Repo.Statements

open OutboxDispatcher.Lib.JsonValue OutboxDispatcher.Lib.Tables OutboxDispatcher.Lib.Text
open OutboxDispatcher.Schema OutboxDispatcher.Callbacks.Fields OutboxDispatcher.Callbacks.Parse
open OutboxDispatcher.Repo.Database OutboxDispatcher.Repo.Database.Db

/-! ### Error texts -/

/-- The loop of `truncate_at_char_boundary`: the last boundary at or below a byte. -/
def boundaryBelow (cs : List Char) : ℕ → ℕ
  | 0 => 0
  | i + 1 => if isCharBoundary cs (i + 1) then i + 1 else boundaryBelow cs i

def truncateAtCharBoundary (s : String) (maxBytes : ℕ) : String :=
  if s.utf8ByteSize ≤ maxBytes then s
  else .ofList (takeBytes s.toList (boundaryBelow s.toList maxBytes))

/-! ### Updates of one row -/

/-- The statements that write one row by its id. -/
inductive Stmt
  | lockDelivery (lockUntil : Time)
  | markDispatchedManaged
  | markDispatchedExternal
  | markFailure (error : String) (availableAt : Time) (deadLetter : Bool)
  /-- The poison-pill guard of `fetch_due_deliveries`. -/
  | deadLetterPoison (reason : String)
  | retryDelivery
  /-- Also the receiver's own completion. -/
  | completeDelivery
  | abandonDelivery
  deriving DecidableEq

/-- `locked_until IS NULL OR locked_until < now()`. -/
def unlocked (now : Time) (r : DeliveryRow) : Bool := r.lockedUntil.all (· < now)

namespace Stmt

/-- What the `WHERE` clause asks beside the id. -/
def guard (now : Time) (r : DeliveryRow) : Stmt → Bool
  | lockDelivery _ => unlocked now r && r.dispatchedAt.isNone && !r.deadLetter
  | retryDelivery => unlocked now r
  | _ => true

/-- The `SET` clause. -/
def assign (now : Time) (r : DeliveryRow) : Stmt → DeliveryRow
  | lockDelivery lockUntil =>
    { r with lockedUntil := some lockUntil, attempts := r.attempts + 1, lastAttemptAt := some now }
  | markDispatchedManaged =>
    { r with dispatchedAt := some now, processedAt := some now, lockedUntil := none }
  | markDispatchedExternal => { r with dispatchedAt := some now, lockedUntil := none }
  | markFailure error availableAt deadLetter =>
    { r with lastError := some (truncateAtCharBoundary error 4096), availableAt, deadLetter,
             lockedUntil := none }
  | deadLetterPoison reason =>
    { r with deadLetter := true, lastError := some (truncateAtCharBoundary reason 4096),
             lockedUntil := none }
  | retryDelivery =>
    { r with attempts := 0, lastError := none, availableAt := now, dispatchedAt := none,
             processedAt := none, completionCycles := 0, deadLetter := false, lockedUntil := none }
  | completeDelivery => { r with processedAt := some (r.processedAt.getD now) }
  | abandonDelivery => { r with deadLetter := true, lastError := some "abandoned by operator" }

theorem ident_assign (now : Time) (r : DeliveryRow) (c : Stmt) :
    (c.assign now r).ident = r.ident := by
  cases c <;> rfl

def rowUpdate (c : Stmt) (now : Time) (id : ℤ) : RowUpdate where
  set r := if r.id = id ∧ c.guard now r then c.assign now r else r
  ident_set r := by
    split_ifs
    · exact c.ident_assign now r
    · rfl

def exec (c : Stmt) (db : Db) (now : Time) (id : ℤ) : Db := db.update (c.rowUpdate now id)

/-- `rows_affected() == 1`. -/
def affects (c : Stmt) (db : Db) (now : Time) (id : ℤ) : Bool :=
  (db.deliveries.get id).any (c.guard now ·)

variable (c : Stmt) {db : Db} {now : Time} {id d : ℤ} {r : DeliveryRow}

/-- A statement changes the row it names, when its guard holds. -/
theorem get_exec : (c.exec db now id).deliveries.get d =
    (db.deliveries.get d).map fun r => if d = id ∧ c.guard now r then c.assign now r else r := by
  rw [exec, get_update]
  rcases h : db.deliveries.get d with _ | r
  · rfl
  · simp only [Option.map_some, rowUpdate, Table.key_of_get h]

theorem get_exec_of_guard (hg : ∀ r ∈ db.deliveries.get id, c.guard now r) :
    (c.exec db now id).deliveries.get id = (db.deliveries.get id).map (c.assign now) := by
  rw [get_exec]
  exact Option.map_congr fun r hr => if_pos ⟨rfl, hg r hr⟩

theorem guard_lockDelivery_iff {lockUntil : Time} : (lockDelivery lockUntil).guard now r ↔
    unlocked now r ∧ r.dispatchedAt = none ∧ r.deadLetter = false := by
  simp only [guard, Bool.and_eq_true, Option.isNone_iff_eq_none, Bool.not_eq_true', and_assoc]

theorem affects_iff : c.affects db now id ↔ ∃ r, db.deliveries.get id = some r ∧ c.guard now r := by
  unfold affects
  cases db.deliveries.get id <;> simp

/-- A statement that affects no row leaves the database as it was. -/
theorem exec_eq_self (h : ¬c.affects db now id) : c.exec db now id = db := by
  refine db_ext rfl ?_ rfl
  refine (List.map_congr_left fun r hr => ?_).trans (List.map_id _)
  refine if_neg fun hc => h ?_
  exact c.affects_iff.mpr ⟨r, Table.get_eq_some_iff.mpr ⟨hr, hc.1⟩, hc.2⟩

end Stmt

def lockDelivery (db : Db) (now : Time) (id : ℤ) (lockUntil : Time) : Db × Bool :=
  let c := Stmt.lockDelivery lockUntil
  (c.exec db now id, c.affects db now id)

def markDispatchedManaged (db : Db) (now : Time) (id : ℤ) : Db :=
  Stmt.markDispatchedManaged.exec db now id

def markDispatchedExternal (db : Db) (now : Time) (id : ℤ) : Db :=
  Stmt.markDispatchedExternal.exec db now id

def markFailure (db : Db) (now : Time) (id : ℤ) (error : String) (availableAt : Time)
    (deadLetter : Bool) : Db := (Stmt.markFailure error availableAt deadLetter).exec db now id

def retryDelivery (db : Db) (now : Time) (id : ℤ) : Db × RetryOutcome :=
  let c := Stmt.retryDelivery
  (c.exec db now id,
    if c.affects db now id then .reset
    else if (db.deliveries.get id).isSome then .locked else .notFound)

def completeDelivery (db : Db) (now : Time) (id : ℤ) : Db × Bool :=
  (Stmt.completeDelivery.exec db now id, Stmt.completeDelivery.affects db now id)

def abandonDelivery (db : Db) (now : Time) (id : ℤ) : Db × Bool :=
  (Stmt.abandonDelivery.exec db now id, Stmt.abandonDelivery.affects db now id)

/-! ### Queries -/

/-- `LIMIT n`; a negative limit raises. -/
def limit {ρ : Type} (n : ℤ) (l : List ρ) : Option (List ρ) :=
  if n < 0 then none else some (l.take n.toNat)

theorem limit_eq_some {ρ : Type} {n : ℤ} {l l' : List ρ} :
    limit n l = some l' ↔ 0 ≤ n ∧ l.take n.toNat = l' := by
  unfold limit
  split_ifs with hn
  · exact iff_of_false (by simp) fun h => not_lt.mpr h.1 hn
  · rw [Option.some.injEq]
    exact (and_iff_right (not_lt.mp hn)).symm

section

variable [Crates]

/-- The JSON columns of the event can be read. Only numbers are not held as they are stored, and of
those the checks of a callback accept none, so it is the stored callbacks that are parsed. -/
def decodes (e : RawEvent) : Bool :=
  (Crates.decode e.payload).isSome && (Crates.decode e.metadata).isSome &&
    (Crates.decode e.callbacks).isSome

/-- What is held of a value that can be read. -/
def held (v : Json) : Json := (Crates.decode v).getD v

/-- The rows of a query with the JSON columns of an event: one that cannot be read fails them all.
-/
def decodeRows {ρ : Type} (event : ρ → RawEvent) (rows : List ρ) : Option (List ρ) :=
  if rows.all fun row => decodes (event row) then some rows else none

theorem decodeRows_eq_some {ρ : Type} {event : ρ → RawEvent} {rows rows' : List ρ} :
    decodeRows event rows = some rows' ↔ (∀ row ∈ rows, decodes (event row)) ∧ rows = rows' := by
  unfold decodeRows
  split_ifs with h
  · rw [Option.some.injEq]
    exact (and_iff_right (List.all_eq_true.mp h)).symm
  · exact iff_of_false (by simp) fun hall => h (List.all_eq_true.mpr hall.1)

end

/-! ### Scheduling -/

/-- The events above the cursor, in the order of their ids. -/
def above (db : Db) (c : ℤ) : List RawEvent :=
  orderBy (fun a b => a.id ≤ b.id) (db.events.rows.filter (c < ·.id))

theorem mem_above {db : Db} {c : ℤ} {e : RawEvent} :
    e ∈ above db c ↔ e ∈ db.events.rows ∧ c < e.id := by
  rw [above, mem_orderBy, List.mem_filter, decide_eq_true_eq]

section

variable [Crates]

def fetchNewEvents (db : Db) (afterId n : ℤ) : Option (List RawEvent) := do
  let rows ← limit n (above db afterId)
  decodeRows id rows

theorem fetchNewEvents_eq_some {db : Db} {c n : ℤ} {es : List RawEvent} :
    fetchNewEvents db c n = some es ↔
      0 ≤ n ∧ (above db c).take n.toNat = es ∧ ∀ e ∈ es, decodes e := by
  simp only [fetchNewEvents, Option.bind_eq_bind, Option.bind_eq_some_iff, limit_eq_some,
    decodeRows_eq_some, id]
  constructor
  · rintro ⟨es, ⟨hn, hes⟩, hdec, rfl⟩
    exact ⟨hn, hes, hdec⟩
  · rintro ⟨hn, hes, hdec⟩
    exact ⟨es, ⟨hn, hes⟩, hdec, rfl⟩

theorem mem_fetchNewEvents {db : Db} {c n : ℤ} {es : List RawEvent}
    (h : fetchNewEvents db c n = some es) {e : RawEvent} (he : e ∈ es) :
    e ∈ db.events.rows ∧ c < e.id := by
  obtain ⟨-, rfl, -⟩ := fetchNewEvents_eq_some.mp h
  exact mem_above.mp (List.mem_of_mem_take he)

end

/-- A pending row for an accepted target. -/
def pendingRow (t : CallbackTarget) : NewDelivery :=
  { callbackName := t.name, completionMode := t.mode }

/-- A dead-lettered row for a name and a reason. -/
def invalidRow (entry : String × String) : NewDelivery :=
  { callbackName := entry.1, completionMode := .managed, deadLetter := true,
    lastError := some (truncateAtCharBoundary entry.2 4096) }

def ensureDeliveries (db : Db) (now : Time) (u : Uuid) (callbacks : List CallbackTarget) :
    Option Db :=
  if callbacks.isEmpty then some db else db.insertDeliveries now u (callbacks.map pendingRow)

def createInvalidDelivery (db : Db) (now : Time) (u : Uuid) (callbackName reason : String) :
    Option Db :=
  db.insertDeliveries now u [invalidRow (callbackName, reason)]

def createInvalidDeliveries (db : Db) (now : Time) (u : Uuid) (entries : List (String × String)) :
    Option Db :=
  if entries.isEmpty then some db else db.insertDeliveries now u (entries.map invalidRow)

/-- The event of the row inserted last, or 0. -/
def recoverCursor (db : Db) : ℤ :=
  match (orderBy (fun a b => b.id ≤ a.id) db.deliveries.rows).head? with
  | none => 0
  | some r => ((db.event? r.eventId).map RawEvent.id).getD 0

/-! ### Due deliveries -/

/-- A row of the query of `fetch_due_deliveries`, with the event joined to it. -/
structure DueDeliveryRow where
  deliveryId : ℤ
  eventId : Uuid
  attempts : ℤ
  callbackName : String
  event : RawEvent

/-- The `WHERE` clause of the query. -/
def isDue (now : Time) (r : DeliveryRow) : Bool :=
  r.dispatchedAt.isNone && r.processedAt.isNone && !r.deadLetter && r.availableAt ≤ now &&
    unlocked now r

theorem isDue_iff_columns {now : Time} {r : DeliveryRow} : isDue now r ↔
    r.dispatchedAt = none ∧ r.processedAt = none ∧ r.deadLetter = false ∧ r.availableAt ≤ now ∧
      unlocked now r := by
  simp only [isDue, Bool.and_eq_true, Option.isNone_iff_eq_none, Bool.not_eq_true',
    decide_eq_true_eq, and_assoc]

/-- `ORDER BY d.available_at, d.id`. -/
def dueOrder (a b : DeliveryRow) : Bool :=
  a.availableAt < b.availableAt || (a.availableAt == b.availableAt && a.id ≤ b.id)

def dueRows (db : Db) (now : Time) : List DeliveryRow :=
  orderBy dueOrder (db.deliveries.rows.filter (isDue now))

def joined (db : Db) (r : DeliveryRow) : Option DueDeliveryRow :=
  (db.event? r.eventId).map fun e =>
    { deliveryId := r.id, eventId := r.eventId, attempts := r.attempts,
      callbackName := r.callbackName, event := e }

section

variable [Crates]

def selectDue (db : Db) (now : Time) (batchSize : ℤ) : Option (List DueDeliveryRow) := do
  let rows ← limit batchSize (dueRows db now)
  decodeRows (·.event) (rows.filterMap (joined db))

theorem selectDue_eq_some {db : Db} {now : Time} {n : ℤ} {rows : List DueDeliveryRow} :
    selectDue db now n = some rows ↔ 0 ≤ n ∧
      ((dueRows db now).take n.toNat).filterMap (joined db) = rows ∧ ∀ row ∈ rows,
      decodes row.event := by
  simp only [selectDue, Option.bind_eq_bind, Option.bind_eq_some_iff, limit_eq_some,
    decodeRows_eq_some]
  constructor
  · rintro ⟨l, ⟨hn, rfl⟩, hdec, rfl⟩
    exact ⟨hn, rfl, hdec⟩
  · rintro ⟨hn, rfl, hdec⟩
    exact ⟨_, ⟨hn, rfl⟩, hdec, rfl⟩

theorem mem_selectDue {db : Db} {now : Time} {n : ℤ} {rows : List DueDeliveryRow}
    (h : selectDue db now n = some rows) {row : DueDeliveryRow} (hr : row ∈ rows) :
    ∃ r ∈ db.deliveries.rows, isDue now r ∧ ∃ e ∈ db.events.rows,
    (e.eventId = r.eventId ∧ decodes e) ∧
      row = ⟨r.id, r.eventId, r.attempts, r.callbackName, e⟩ := by
  obtain ⟨-, rfl, hdec⟩ := selectDue_eq_some.mp h
  have hdecode := hdec row hr
  obtain ⟨r, hm, hrow⟩ := List.mem_filterMap.mp hr
  obtain ⟨e, he, hrow⟩ := Option.map_eq_some_iff.mp hrow
  obtain ⟨he, hk⟩ := event?_eq_some.mp he
  obtain ⟨hm, hdue⟩ := List.mem_filter.mp (mem_orderBy.mp (List.mem_of_mem_take hm))
  subst hrow
  exact ⟨r, hm, hdue, e, he, ⟨hk, hdecode⟩, rfl⟩

theorem selectDue_nodup {db : Db} {now : Time} {n : ℤ} {rows : List DueDeliveryRow}
    (h : selectDue db now n = some rows) : (rows.map (·.deliveryId)).Nodup := by
  obtain ⟨-, rfl, -⟩ := selectDue_eq_some.mp h
  have hids : (((dueRows db now).take n.toNat).map (·.id)).Nodup := by
    refine ((List.take_sublist _ _).map _).nodup ?_
    refine ((List.perm_insertionSort _ _).map _).nodup_iff.mpr ?_
    exact (List.filter_sublist.map _).nodup db.deliveries.nodup
  refine nodup_filterMap (fun r row hrow => ?_) hids
  obtain ⟨e, -, rfl⟩ := Option.map_eq_some_iff.mp hrow
  rfl

end

/-- `crate::error::Error`, the two variants of it that are stored. -/
inductive Error
  | invalidData (msg : String)
  | callbackTargetMissing (msg : String)
  deriving DecidableEq, Repr

def Error.display : Error → String
  | .invalidData msg => s!"Invalid data: {msg}"
  | .callbackTargetMissing msg => s!"Callback target missing: {msg}"

section

variable [Crates]

def extractCallbackTarget (callbacks : Json) (callbackName : String) (config : DispatchConfig) :
    Except Error CallbackTarget :=
  (validateNamedCallback callbacks callbackName config).mapError fun
    | .invalid reason => .invalidData (s!"callback '{callbackName}' failed structural " ++
        s!"revalidation at dispatch time: {reason}")
    | .notFound => .callbackTargetMissing
        s!"callback '{callbackName}' not found in event callbacks array"

/-- The body of the loop over the due rows: the delivery, or the reason it is dead-lettered with. -/
def examineRow (config : DispatchConfig) (row : DueDeliveryRow) : Except String DueDelivery :=
  match extractCallbackTarget row.event.callbacks row.callbackName config with
  | .ok target => .ok
    { deliveryId := row.deliveryId, eventId := row.eventId, attempts := row.attempts, target,
      kind := row.event.kind, aggregateType := row.event.aggregateType,
      aggregateId := row.event.aggregateId, payload := held row.event.payload,
      metadata := held row.event.metadata, actorId := row.event.actorId,
      correlationId := row.event.correlationId, causationId := row.event.causationId,
      createdAt := row.event.createdAt }
  | .error err => .error ("invalid callback spec: " ++ err.display)

structure Examined (config : DispatchConfig) (row : DueDeliveryRow) (due : DueDelivery) : Prop where
  deliveryId : due.deliveryId = row.deliveryId
  attempts : due.attempts = row.attempts
  target : extractCallbackTarget row.event.callbacks row.callbackName config = .ok due.target

theorem examined_of_examineRow {config : DispatchConfig} {row : DueDeliveryRow} {due : DueDelivery}
    (h : examineRow config row = .ok due) : Examined config row due := by
  unfold examineRow at h
  split at h
  · next target ht => cases h; exact ⟨rfl, rfl, ht⟩
  · cases h

end

/-! ### The sweep -/

/-- `text::int` on a nullable text. -/
def castInt : Option String → Option (Option ℤ)
  | none => some none
  | some s => (Json.int4? s).map some

/-- The lateral subquery: the timeout and the cycle limit of the first element with the name, if it
has a timeout. -/
def sweepTarget (callbacks : Json) (name : String) (maxCompletionCycles : ℤ) :
    Option (Option (ℤ × ℤ)) :=
  match (callbacks.asArray.getD []).find? (·.field "name" = some name) with
  | none => some none
  | some cb => do
    let timeout ← castInt (cb.field "external_completion_timeout_seconds")
    let cycles ← castInt (cb.field "max_completion_cycles")
    return timeout.map fun t => (t, cycles.getD maxCompletionCycles)

/-- External, dispatched, neither processed nor dead-lettered. -/
def externalPending (r : DeliveryRow) : Bool :=
  r.completionMode = .external && r.dispatchedAt.isSome && r.processedAt.isNone && !r.deadLetter

theorem externalPending_iff {r : DeliveryRow} : externalPending r ↔ r.completionMode = .external ∧
    r.dispatchedAt.isSome ∧ r.processedAt = none ∧ r.deadLetter = false := by
  simp only [externalPending, Bool.and_eq_true, Option.isNone_iff_eq_none, Bool.not_eq_true',
    decide_eq_true_eq, and_assoc]

/-- The cycle limit of a hung row; `none` inside when the row is not hung. -/
def hungLimit (db : Db) (now : Time) (maxCompletionCycles : ℤ) (r : DeliveryRow) :
    Option (Option ℤ) :=
  match r.dispatchedAt, db.event? r.eventId with
  | some t, some e =>
    if externalPending r then
      (sweepTarget e.callbacks r.callbackName maxCompletionCycles).map fun target =>
        target.bind fun (timeout, cycles) => if t + timeout * 10 ^ 9 < now then some cycles
          else none
    else some none
  | _, _ => some none

/-- A hung row is external, dispatched, and neither processed nor dead-lettered. -/
theorem externalPending_of_hungLimit {db : Db} {now : Time} {m c : ℤ} {r : DeliveryRow}
    (h : hungLimit db now m r = some (some c)) : r.completionMode = .external ∧
      r.dispatchedAt.isSome ∧ r.processedAt = none ∧ r.deadLetter = false := by
  refine externalPending_iff.mp ?_
  unfold hungLimit at h
  split at h
  · split_ifs at h with hp
    · exact hp
    · cases h
  · cases h

/-- A row that is hung stays so while nobody writes it. -/
theorem hungLimit_mono {db : Db} {t now : Time} {m c : ℤ} {r : DeliveryRow}
    (h : hungLimit db t m r = some (some c)) (ht : t ≤ now) :
    hungLimit db now m r = some (some c) := by
  unfold hungLimit at h ⊢
  split at h
  · split_ifs at h ⊢ with hp
    · obtain ⟨target, htarget, hlimit⟩ := Option.map_eq_some_iff.mp h
      obtain ⟨⟨timeout, cycles⟩, rfl, hlate⟩ := Option.bind_eq_some_iff.mp hlimit
      dsimp only at hlate
      split_ifs at hlate with hlt
      cases hlate
      rw [htarget, Option.map_some, Option.bind_some]
      exact congrArg some (if_pos (hlt.trans_le ht))
    · cases h
  · cases h

/-- The assignments of the sweep to a hung row. -/
def sweepRow (now : Time) (maxCycles : ℤ) (r : DeliveryRow) : DeliveryRow :=
  if r.completionCycles + 1 ≥ maxCycles then
    { r with completionCycles := r.completionCycles + 1,
             lastError := some "external_completion_cycles_exhausted", deadLetter := true,
             lockedUntil := none }
  else
    { r with completionCycles := r.completionCycles + 1, dispatchedAt := none, availableAt := now,
             attempts := 0, lastError := none, deadLetter := false, lockedUntil := none }

def sweepUpdate (db : Db) (now : Time) (maxCompletionCycles : ℤ) : RowUpdate where
  set r :=
    match (hungLimit db now maxCompletionCycles r).join with
    | some maxCycles => sweepRow now maxCycles r
    | none => r
  ident_set r := by
    split
    · unfold sweepRow; split_ifs <;> rfl
    · rfl

/-- The casts for the row succeed, and so does `completion_cycles + 1`, an `INT4`, if it is hung. -/
def sweepable (db : Db) (now : Time) (maxCompletionCycles : ℤ) (r : DeliveryRow) : Bool :=
  (hungLimit db now maxCompletionCycles r).any fun limit =>
    limit.isNone || r.completionCycles + 1 < 2 ^ 31

/-- The sweep as one statement; it raises when a cast or an addition does. -/
def resetHungExternal (db : Db) (now : Time) (maxCompletionCycles : ℤ) :
    Option (Db × SweepReport) :=
  if db.deliveries.rows.all (sweepable db now maxCompletionCycles) then
    let hung := db.deliveries.rows.filter fun r =>
      (hungLimit db now maxCompletionCycles r).join.isSome
    let swept := hung.map (sweepUpdate db now maxCompletionCycles).set
    some (db.update (sweepUpdate db now maxCompletionCycles),
      { reset := swept.countP (!·.deadLetter), exhausted := swept.countP (·.deadLetter) })
  else none

/-! ### Retention -/

def rowsOf (db : Db) (e : RawEvent) : List DeliveryRow :=
  db.deliveries.rows.filter (·.eventId = e.eventId)

/-- An event with a dead-lettered row is kept for the longer time. -/
def anyDeadLetter (db : Db) (e : RawEvent) : Bool := (rowsOf db e).any (·.deadLetter)

/-- The `WHERE` clause of the candidates. -/
def deletable (db : Db) (deadLetterCutoff processedCutoff : Time) (e : RawEvent) : Bool :=
  (rowsOf db e).all (·.terminal) &&
    e.createdAt < if anyDeadLetter db e then deadLetterCutoff else processedCutoff

def terminalEvents (db : Db) (deadLetterCutoff processedCutoff : Time) (batchLimit : ℤ) :
    Option (List RawEvent) :=
  limit batchLimit (orderBy (fun a b => a.id ≤ b.id)
    (db.events.rows.filter (deletable db deadLetterCutoff processedCutoff)))

def deleteTerminalEvents (db : Db) (deadLetterCutoff processedCutoff : Time) (batchLimit : ℤ) :
    Option (Db × RetentionDeleted) := do
  let candidates ← terminalEvents db deadLetterCutoff processedCutoff batchLimit
  return (db.deleteEvents fun e => candidates.any (·.id == e.id),
    { processed := candidates.countP (!anyDeadLetter db ·),
      deadLetter := candidates.countP (anyDeadLetter db ·) })

/-! ### Lists of the admin API -/

/-- `outbox_deliveries JOIN outbox_events`. -/
def withEvents (db : Db) : List (DeliveryRow × RawEvent) :=
  db.deliveries.rows.filterMap fun r => (db.event? r.eventId).map (r, ·)

/-- A page of the rows that satisfy a condition, the largest id first. A column that is read as `NOT
NULL` raises when it is null. -/
def listPage {ι : Type} (db : Db) (page : PageParams) (condition : DeliveryRow → Bool)
    (item : DeliveryRow → RawEvent → Option ι) : Option (List ι) := do
  let rows ← limit page.limit (orderBy (fun a b => b.1.id ≤ a.1.id)
    ((withEvents db).filter fun p => condition p.1 && page.cursor.all (p.1.id < ·) &&
      page.callbackName.all (p.1.callbackName = ·)))
  rows.mapM fun p => item p.1 p.2

def DeadLetterRow.ofRow (r : DeliveryRow) (e : RawEvent) : Option DeadLetterRow :=
  some { deliveryId := r.id, eventId := r.eventId, eventKind := e.kind,
         callbackName := r.callbackName, completionMode := r.completionMode,
         attempts := r.attempts, lastError := r.lastError, lastAttemptAt := r.lastAttemptAt,
         createdAt := r.createdAt }

def ExternalPendingRow.ofRow (r : DeliveryRow) (e : RawEvent) : Option ExternalPendingRow :=
  r.dispatchedAt.map fun dispatchedAt =>
    { deliveryId := r.id, eventId := r.eventId, eventKind := e.kind, callbackName := r.callbackName,
      attempts := r.attempts, dispatchedAt, createdAt := r.createdAt }

def listDeadLetters (db : Db) (page : PageParams) : Option (List DeadLetterRow) :=
  listPage db page (·.deadLetter) DeadLetterRow.ofRow

/-- `EXTRACT(EPOCH FROM (now() - d.dispatched_at)) > $3`, in nanoseconds. -/
def olderThan (now : Time) (age : Option Duration) (r : DeliveryRow) : Bool :=
  age.all fun age => r.dispatchedAt.any fun t => age < now - t

def listExternalPending (db : Db) (now : Time) (page : PageParams) (age : Option Duration) :
    Option (List ExternalPendingRow) :=
  listPage db page (fun r => externalPending r && olderThan now age r) ExternalPendingRow.ofRow

end OutboxDispatcher.Repo.Statements
