import OutboxDispatcher.Repo.PoisonGuard

/-! # One delivery after another

`dispatch_due` with all its awaits, but without its concurrency: the query, the loop over the rows,
and then `dispatch_one` for one delivery after the other. What the outside decides about a delivery
(how the statements end, the clock at each of them, the answer of the receiver) is its `Script`.

Each delivery has its row for itself: the ids of a batch are all different, and no statement writes
a row but its own. So what becomes of a row is a function of the row and of its script (`onRow`),
and the whole is these functions side by side (`get_dispatchDue`). -/

namespace OutboxDispatcher.Dispatch.Serial

open OutboxDispatcher.Lib.Checks OutboxDispatcher.Lib.Tables OutboxDispatcher.Schema
  OutboxDispatcher.Callbacks.Fields
open OutboxDispatcher.Repo.Database OutboxDispatcher.Repo.Database.Db
  OutboxDispatcher.Repo.Statements
open OutboxDispatcher.Repo.PoisonGuard OutboxDispatcher.Scheduler.Pass OutboxDispatcher.Dispatch

/-- What befalls a delivery on its way. -/
structure Script where
  examineAt : Time
  examineFault : Fault := .ok
  computeAt : Time
  lockAt : Time
  lockFault : Fault := .ok
  result : CallbackResult := .ok
  jitter : ℚ := 0
  respondAt : Time
  writeAt : Time
  writeFault : Fault := .ok

section

variable [Crates]

/-- A turn of the loop of `fetch_due_deliveries`. An update that fails is logged. -/
def examineTurn (config : DispatchConfig) (script : ℤ → Script) (acc : Db × List DueDelivery)
    (row : DueDeliveryRow) : Db × List DueDelivery :=
  match examineRow config row with
  | .ok due => (acc.1, acc.2 ++ [due])
  | .error reason =>
    let x := script row.deliveryId
    (if x.examineFault = .lost then acc.1
      else (Stmt.deadLetterPoison reason).exec acc.1 x.examineAt row.deliveryId, acc.2)

/-- The end of `dispatch_one`, when the call is over. -/
def writeResult (x : Script) (db : Db) (due : DueDelivery) : Option Db := do
  let stmt ← writeBackStmt x.respondAt x.jitter due x.result
  return if x.writeFault = .lost then db else stmt.exec db x.writeAt due.deliveryId

/-- `dispatch_one`; `none` when it panics. -/
def dispatchOne (config : DispatchConfig) (x : Script) (db : Db) (due : DueDelivery) :
    Option Db := do
  let lockUntil ← computeLockUntil x.computeAt due.target.timeout config.lockBuffer
  if x.lockFault = .lost then return db
  let (db, got) := lockDelivery db x.lockAt due.deliveryId lockUntil
  if x.lockFault = .ok ∧ got then writeResult x db due else return db

/-- `dispatch_due`, one delivery after the other. -/
def dispatchDue (config : DispatchConfig) (script : ℤ → Script) (db : Db) (now : Time) :
    Option Db := do
  let rows ← selectDue db now config.batchSize
  let (db, due) := rows.foldl (examineTurn config script) (db, [])
  due.foldlM (fun db due => dispatchOne config (script due.deliveryId) db due) db

/-! ### One row -/

def writeRow (x : Script) (due : DueDelivery) (r : DeliveryRow) : Option DeliveryRow := do
  let stmt ← writeBackStmt x.respondAt x.jitter due x.result
  return if x.writeFault = .lost then r else stmt.assign x.writeAt r

def dispatchRow (config : DispatchConfig) (x : Script) (due : DueDelivery) (r : DeliveryRow) :
    Option DeliveryRow := do
  let lockUntil ← computeLockUntil x.computeAt due.target.timeout config.lockBuffer
  let lock := Stmt.lockDelivery lockUntil
  match x.lockFault, lock.guard x.lockAt r with
  | .ok, true => writeRow x due (lock.assign x.lockAt r)
  | .unacked, true => some (lock.assign x.lockAt r)
  | _, _ => some r

/-- What becomes of a row of the batch. -/
def onRow (config : DispatchConfig) (x : Script) (row : DueDeliveryRow) (r : DeliveryRow) :
    Option DeliveryRow :=
  match examineRow config row with
  | .ok due => dispatchRow config x due r
  | .error reason =>
    some (if x.examineFault = .lost then r else (Stmt.deadLetterPoison reason).assign x.examineAt r)

end

/-- The write-back of `dispatch_one` asks nothing of the row. -/
theorem guard_writeBack {now now' : Time} {jitter : ℚ} {due : DueDelivery} {result : CallbackResult}
    {stmt : Stmt} (h : writeBackStmt now jitter due result = some stmt) (r : DeliveryRow) :
    stmt.guard now' r = true := by
  cases writeBack_of_stmt h <;> rfl

variable {config : DispatchConfig} {x : Script} {db db' : Db} {due : DueDelivery} {d : ℤ}

theorem get_exec_of_ne {c : Stmt} {now : Time} {id : ℤ} (h : d ≠ id) :
    (c.exec db now id).deliveries.get d = db.deliveries.get d := by
  rw [Stmt.get_exec]
  cases db.deliveries.get d <;> simp [h]

theorem get_exec_self {c : Stmt} {now : Time} {r : DeliveryRow} (hr : db.deliveries.get d = some r)
    (hg : c.guard now r = true) : (c.exec db now d).deliveries.get d = some (c.assign now r) := by
  have hguard : ∀ r' ∈ db.deliveries.get d, c.guard now r' := by simpa [hr] using hg
  rw [c.get_exec_of_guard hguard, hr]
  rfl

theorem get_exec_refused {c : Stmt} {now : Time} {r : DeliveryRow}
    (hr : db.deliveries.get d = some r)
    (hg : c.guard now r = false) : (c.exec db now d).deliveries.get d = some r := by
  rw [Stmt.get_exec, hr]
  simp [hg]

theorem get_writeResult_of_ne (h : writeResult x db due = some db') (hne : d ≠ due.deliveryId) :
    db'.deliveries.get d = db.deliveries.get d := by
  obtain ⟨stmt, -, h⟩ := Option.bind_eq_some_iff.mp h
  cases h
  split_ifs
  · rfl
  · exact get_exec_of_ne hne

theorem get_writeResult {r r' : DeliveryRow} (hr : db.deliveries.get due.deliveryId = some r)
    (h : writeRow x due r = some r') :
    ∃ db', writeResult x db due = some db' ∧ db'.deliveries.get due.deliveryId = some r' := by
  obtain ⟨stmt, hs, h⟩ := Option.bind_eq_some_iff.mp h
  cases h
  refine ⟨_, by rw [writeResult, hs]; rfl, ?_⟩
  split_ifs
  · exact hr
  · exact get_exec_self hr (guard_writeBack hs r)

theorem get_dispatchOne_of_ne (h : dispatchOne config x db due = some db')
    (hne : d ≠ due.deliveryId) : db'.deliveries.get d = db.deliveries.get d := by
  obtain ⟨u, -, h⟩ := Option.bind_eq_some_iff.mp h
  split_ifs at h with hlost
  · cases h
    rfl
  · dsimp only [lockDelivery] at h
    split_ifs at h with hgot
    · rw [get_writeResult_of_ne h hne, get_exec_of_ne hne]
    · cases h
      exact get_exec_of_ne hne

theorem get_dispatchOne {r r' : DeliveryRow} (hr : db.deliveries.get due.deliveryId = some r)
    (h : dispatchRow config x due r = some r') : ∃ db', dispatchOne config x db due = some db' ∧
    db'.deliveries.get due.deliveryId = some r' := by
  obtain ⟨u, hu, h⟩ := Option.bind_eq_some_iff.mp h
  have haff : (Stmt.lockDelivery u).affects db x.lockAt due.deliveryId =
      (Stmt.lockDelivery u).guard x.lockAt r := by simp [Stmt.affects, hr]
  unfold dispatchOne
  rw [hu]
  simp only [Option.bind_eq_bind, Option.bind_some, lockDelivery, haff]
  dsimp only at h
  cases hg : (Stmt.lockDelivery u).guard x.lockAt r with
  | false =>
    have hsame : r' = r := by
      rw [hg] at h
      cases hf : x.lockFault <;> rw [hf] at h <;> exact (Option.some.inj h).symm
    subst hsame
    by_cases hlost : x.lockFault = .lost
    · exact ⟨db, by rw [if_pos hlost]; rfl, hr⟩
    · exact ⟨_, by rw [if_neg hlost, if_neg (by simp)]; rfl, get_exec_refused hr hg⟩
  | true =>
    have hlocked := get_exec_self hr hg
    rw [hg] at h
    cases hf : x.lockFault with
    | lost =>
      rw [hf] at h
      cases h
      exact ⟨db, rfl, hr⟩
    | unacked =>
      rw [hf] at h
      cases h
      exact ⟨_, rfl, hlocked⟩
    | ok =>
      rw [hf] at h
      exact get_writeResult hlocked h

/-! ### The batch -/

variable {script : ℤ → Script}

/-- The deliveries one after another, each on its own row. -/
theorem get_foldlM : ∀ (dues : List DueDelivery) (db : Db), (dues.map (·.deliveryId)).Nodup →
    (∀ due ∈ dues, ∃ r r', db.deliveries.get due.deliveryId = some r ∧
      dispatchRow config (script due.deliveryId) due r = some r') →
    ∃ db', dues.foldlM (fun db due => dispatchOne config (script due.deliveryId) db due) db =
      some db' ∧ (∀ due ∈ dues, db'.deliveries.get due.deliveryId =
        (db.deliveries.get due.deliveryId).bind (dispatchRow config (script due.deliveryId) due)) ∧
      ∀ d, (∀ due ∈ dues, due.deliveryId ≠ d) → db'.deliveries.get d = db.deliveries.get d
  | [], db, _, _ => ⟨db, rfl, by simp, fun _ _ => rfl⟩
  | due :: dues, db, hnodup, h => by
    rw [List.map_cons, List.nodup_cons] at hnodup
    have hne : ∀ due' ∈ dues, due'.deliveryId ≠ due.deliveryId :=
      fun due' hm heq => hnodup.1 (List.mem_map.mpr ⟨due', hm, heq⟩)
    obtain ⟨r, r', hr, hrow⟩ := h due List.mem_cons_self
    obtain ⟨db₁, h₁, hr₁⟩ := get_dispatchOne hr hrow
    have hsame : ∀ d, d ≠ due.deliveryId → db₁.deliveries.get d = db.deliveries.get d :=
      fun d => get_dispatchOne_of_ne h₁
    obtain ⟨db₂, h₂, hdone, hother⟩ := get_foldlM dues db₁ hnodup.2 fun due' hm => by
      rw [hsame _ (hne due' hm)]
      exact h due' (List.mem_cons_of_mem _ hm)
    refine ⟨db₂, by rw [List.foldlM_cons, h₁]; exact h₂, ?_, fun d hd => ?_⟩
    · intro due' hm
      rcases List.mem_cons.mp hm with rfl | hm
      · rw [hother _ hne, hr₁, hr, Option.bind_some, hrow]
      · rw [hdone due' hm, hsame _ (hne due' hm)]
    · rw [hother d fun due' hm => hd due' (List.mem_cons_of_mem _ hm),
        hsame d (hd due List.mem_cons_self).symm]

variable [Crates]

theorem get_examineTurn {acc : Db × List DueDelivery} {row : DueDeliveryRow}
    (h : row.deliveryId = d → ∃ due, examineRow config row = .ok due) :
    (examineTurn config script acc row).1.deliveries.get d = acc.1.deliveries.get d := by
  unfold examineTurn
  cases hex : examineRow config row with
  | ok due => rfl
  | error reason =>
    have hne : d ≠ row.deliveryId := by
      intro heq
      obtain ⟨due, hok⟩ := h heq.symm
      rw [hex] at hok
      cases hok
    dsimp only
    split_ifs
    · rfl
    · exact get_exec_of_ne hne

/-- The loop over the rows: what it returns, and the rows that it writes. -/
theorem get_examineTurns : ∀ (rows : List DueDeliveryRow) (acc : Db × List DueDelivery),
    (rows.map (·.deliveryId)).Nodup →
    (rows.foldl (examineTurn config script) acc).2 =
        acc.2 ++ rows.filterMap (fun row => (examineRow config row).toOption) ∧
      (∀ row ∈ rows, ∀ reason, examineRow config row = .error reason →
        (rows.foldl (examineTurn config script) acc).1.deliveries.get row.deliveryId =
          (acc.1.deliveries.get row.deliveryId).bind (onRow config (script row.deliveryId) row)) ∧
      ∀ d, (∀ row ∈ rows, row.deliveryId = d → ∃ due, examineRow config row = .ok due) →
        (rows.foldl (examineTurn config script) acc).1.deliveries.get d = acc.1.deliveries.get d
  | [], acc, _ => by simp
  | first :: rows, acc, hnodup => by
    rw [List.map_cons, List.nodup_cons] at hnodup
    obtain ⟨hdue, hbad, hgood⟩ :=
      get_examineTurns rows (examineTurn config script acc first) hnodup.2
    rw [List.foldl_cons]
    refine ⟨?_, fun row hm reason hex => ?_, fun d hd => ?_⟩
    · rw [hdue]
      cases hex : examineRow config first with
      | ok due =>
        rw [List.filterMap_cons_some (by rw [hex]; rfl)]
        simp [examineTurn, hex]
      | error reason =>
        rw [List.filterMap_cons_none (by rw [hex]; rfl)]
        simp [examineTurn, hex]
    · rcases List.mem_cons.mp hm with rfl | hrest
      · rw [hgood _ fun row' hm' heq => absurd (List.mem_map.mpr ⟨row', hm', heq⟩) hnodup.1]
        unfold examineTurn onRow
        rw [hex]
        dsimp only
        cases hr : acc.1.deliveries.get row.deliveryId with
        | none => split_ifs <;> simp [Stmt.get_exec, hr]
        | some r => split_ifs <;> simp [Stmt.get_exec, Stmt.guard, hr]
      · rw [hbad row hrest reason hex,
          get_examineTurn fun heq => absurd (List.mem_map.mpr ⟨row, hrest, heq.symm⟩) hnodup.1]
    · rw [hgood d fun row hm => hd row (List.mem_cons_of_mem _ hm),
        get_examineTurn (hd first List.mem_cons_self)]

/-- **One after another**: if no delivery panics, each row of the batch becomes what its script
says. -/
theorem get_dispatchDue (script : ℤ → Script) {now : Time} {rows : List DueDeliveryRow}
    (hsel : selectDue db now config.batchSize = some rows)
    (h : ∀ row ∈ rows, ∃ r r', db.deliveries.get row.deliveryId = some r ∧
      onRow config (script row.deliveryId) row r = some r') :
    ∃ db', dispatchDue config script db now = some db' ∧ ∀ row ∈ rows,
      db'.deliveries.get row.deliveryId =
        (db.deliveries.get row.deliveryId).bind (onRow config (script row.deliveryId) row) := by
  have hnodup := selectDue_nodup hsel
  obtain ⟨hdue, hbad, hgood⟩ := @get_examineTurns config script _ rows (db, []) hnodup
  rw [List.nil_append] at hdue
  generalize hturns : rows.foldl (examineTurn config script) (db, []) = turns at hdue hbad hgood
  obtain ⟨db₁, dues⟩ := turns
  dsimp only at hdue hbad hgood
  -- The deliveries that are left are those of the rows that pass.
  have hmem : ∀ due ∈ dues, ∃ row ∈ rows, examineRow config row = .ok due ∧
      due.deliveryId = row.deliveryId := by
    intro due hm
    rw [hdue] at hm
    obtain ⟨row, hrow, hex⟩ := List.mem_filterMap.mp hm
    have hok := eq_ok_of_toOption hex
    exact ⟨row, hrow, hok, (examined_of_examineRow hok).deliveryId⟩
  have hinj : ∀ row ∈ rows, ∀ row' ∈ rows, row.deliveryId = row'.deliveryId → row = row' :=
    fun row hm row' hm' => List.inj_on_of_nodup_map hnodup hm hm'
  have hpass : ∀ row ∈ rows, ∀ due, examineRow config row = .ok due →
      db₁.deliveries.get row.deliveryId = db.deliveries.get row.deliveryId := by
    intro row hm due hex
    refine hgood _ fun row' hm' heq => ?_
    rw [hinj row' hm' row hm heq]
    exact ⟨due, hex⟩
  have hids : (dues.map (·.deliveryId)).Nodup := by
    rw [hdue]
    refine nodup_filterMap (fun row due hex => ?_) hnodup
    exact (examined_of_examineRow (eq_ok_of_toOption hex)).deliveryId
  obtain ⟨db₂, h₂, hdone, hother⟩ := get_foldlM dues db₁ hids fun due hm => by
    obtain ⟨row, hrow, hex, hid⟩ := hmem due hm
    obtain ⟨r, r', hr, hon⟩ := h row hrow
    rw [onRow, hex] at hon
    exact ⟨r, r', by rw [hid, hpass row hrow due hex, hr], by rw [hid]; exact hon⟩
  refine ⟨db₂, ?_, fun row hrow => ?_⟩
  · unfold dispatchDue
    rw [hsel, Option.bind_eq_bind, Option.bind_some, hturns]
    exact h₂
  · cases hex : examineRow config row with
    | ok due =>
      have hm : due ∈ dues := by
        rw [hdue]
        exact List.mem_filterMap.mpr ⟨row, hrow, by rw [hex]; rfl⟩
      have hid : due.deliveryId = row.deliveryId := (examined_of_examineRow hex).deliveryId
      have hrow' :
          onRow config (script row.deliveryId) row =
          dispatchRow config (script row.deliveryId) due := by
        funext r
        rw [onRow, hex]
      have hd := hdone due hm
      rw [hid] at hd
      rw [hd, hpass row hrow due hex, hrow']
    | error reason =>
      rw [hother _ fun due hm heq => ?_, hbad row hrow reason hex]
      obtain ⟨row', hm', hok, hid⟩ := hmem due hm
      rw [hinj row' hm' row hrow (hid.symm.trans heq), hex] at hok
      cases hok

end OutboxDispatcher.Dispatch.Serial
