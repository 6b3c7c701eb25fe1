import OutboxDispatcher.Dispatch.Serial
import OutboxDispatcher.Dispatch.Solo
import OutboxDispatcher.Replicas.Progress

/-! # The order in the stream does not matter

While a replica works through its batch, its tasks take their steps in any order that
`buffer_unordered` gives them, and other processes act in between. As long as nobody else writes the
rows of the batch, they end as if the replica had taken one delivery after another
(`Dispatch.Serial.dispatchDue`), for some times within the run, some faults and jitters, and with
the answers that were observed.

Every task is somewhere on the way that its script describes (`OnWay`), and what it leaves behind is
what the script makes of its row (`Over`). -/

namespace OutboxDispatcher.Replicas.Stream

open OutboxDispatcher.Lib.Buffered OutboxDispatcher.Lib.Runs OutboxDispatcher.Lib.Tables
open OutboxDispatcher.Schema OutboxDispatcher.Callbacks.Fields OutboxDispatcher.Repo.Database
open OutboxDispatcher.Repo.Statements OutboxDispatcher.Scheduler.Pass OutboxDispatcher.Dispatch
open OutboxDispatcher.Dispatch.Serial OutboxDispatcher.Dispatch.Solo OutboxDispatcher.System
open OutboxDispatcher.System.Effects OutboxDispatcher.System.History OutboxDispatcher.System.Rows
open OutboxDispatcher.Replicas OutboxDispatcher.Replicas.Effects OutboxDispatcher.Replicas.Ownership
open OutboxDispatcher.Replicas.Progress

/-! ### One task -/

def times (x : Script) : List Time := [x.examineAt, x.computeAt, x.lockAt, x.respondAt, x.writeAt]

def Within (lo hi : Time) (x : Script) : Prop := ∀ t ∈ times x, lo ≤ t ∧ t ≤ hi

theorem Within.mono {lo hi hi' : Time} {x : Script} (h : Within lo hi x) (hle : hi ≤ hi') :
    Within lo hi' x :=
  fun t ht => ⟨(h t ht).1, (h t ht).2.trans hle⟩

theorem Within.update {lo now : Time} {x x' : Script} (h : Within lo now x) (hlo : lo ≤ now)
    (ht : ∀ t ∈ times x', t = now ∨ t ∈ times x) : Within lo now x' := by
  intro t hm
  rcases ht t hm with rfl | hm
  · exact ⟨hlo, le_refl _⟩
  · exact h t hm

/-- A task from the number `n` on has heard the answer of the script. -/
def Answered (n : ℕ) (trace : List Obs) (d : ℤ) (x : Script) : Prop :=
  ∃ tid, n ≤ tid ∧ Obs.respond tid d x.result ∈ trace

theorem Answered.append {n : ℕ} {trace : List Obs} {d : ℤ} {x : Script} (h : Answered n trace d x)
    (obs : List Obs) : Answered n (obs ++ trace) d x := by
  obtain ⟨tid, hle, hm⟩ := h
  exact ⟨tid, hle, List.mem_append_right _ hm⟩

section

variable [Crates]

/-- The lock is taken, and the receiver is called. -/
structure Locked (config : DispatchConfig) (x : Script) (row : DueDeliveryRow) (r₀ : DeliveryRow)
    (due : DueDelivery) (lockUntil : Time) : Prop where
  examined : examineRow config row = .ok due
  computed : computeLockUntil x.computeAt due.target.timeout config.lockBuffer = some lockUntil
  fault : x.lockFault = .ok
  guard : (Stmt.lockDelivery lockUntil).guard x.lockAt r₀ = true

/-- How far the row `r₀` has come by the script when its task is in this phase. -/
def Midway (config : DispatchConfig) (x : Script) (row : DueDeliveryRow) (r₀ r : DeliveryRow) :
    Phase → Prop
  | .fetched => r = r₀
  | .ready due => examineRow config row = .ok due ∧ r = r₀
  | .locking due lockUntil => examineRow config row = .ok due ∧
      computeLockUntil x.computeAt due.target.timeout config.lockBuffer = some lockUntil ∧ r = r₀
  | .locked due lockUntil | .delivering due lockUntil =>
      Locked config x row r₀ due lockUntil ∧ r = (Stmt.lockDelivery lockUntil).assign x.lockAt r₀
  | .writing due lockUntil stmt =>
      Locked config x row r₀ due lockUntil ∧ r = (Stmt.lockDelivery lockUntil).assign x.lockAt r₀ ∧
        writeBackStmt x.respondAt x.jitter due x.result = some stmt

/-- The task is on the way of a script, from the row as it was in `db₀`. -/
def OnWay (config : DispatchConfig) (lo : Time) (n : ℕ) (db₀ : Db) (now : Time) (db : Db)
    (trace : List Obs) (t : Task) : Prop :=
  ∃ x r₀ r, db₀.deliveries.get t.row.deliveryId = some r₀ ∧
  db.deliveries.get t.row.deliveryId = some r ∧
    Within lo now x ∧ Midway config x t.row r₀ r t.phase ∧
    ∀ due lockUntil stmt, t.phase = .writing due lockUntil stmt →
    Answered n trace t.row.deliveryId x

/-- The row is what a script has made of it. -/
def Over (config : DispatchConfig) (lo : Time) (n : ℕ) (db₀ : Db) (now : Time) (db : Db)
    (trace : List Obs) (row : DueDeliveryRow) : Prop :=
  ∃ x r₀ r, db₀.deliveries.get row.deliveryId = some r₀ ∧
  db.deliveries.get row.deliveryId = some r ∧
    Within lo now x ∧ onRow config x row r₀ = some r ∧
    ∀ due lockUntil, Locked config x row r₀ due lockUntil → Answered n trace row.deliveryId x

variable {config : DispatchConfig} {lo now : Time} {n : ℕ} {db₀ db db' : Db} {trace : List Obs}
  {t : Task} {b : TaskAction} {obs : List Obs}

/-- **A step of a task** is a step on its way. -/
theorem onWay_step {q : Phase} (hn : n ≤ t.tid) (hlo : lo ≤ now)
    (h : OnWay config lo n db₀ now db trace t) (hs : TaskStep config now db t b db' (some q) obs) :
    OnWay config lo n db₀ now db' (obs ++ trace) { t with phase := q } := by
  obtain ⟨x, r₀, r, hr₀, hr, hin, hmid, -⟩ := h
  generalize hq : some q = o at hs
  cases hs with
  | examined fault due hp hex =>
    cases hq
    rw [hp] at hmid
    exact ⟨x, r₀, r, hr₀, hr, hin, ⟨hex, hmid⟩, by simp⟩
  | computeLock due u hp hu =>
    cases hq
    rw [hp] at hmid
    exact ⟨{ x with computeAt := now }, r₀, r, hr₀, hr, hin.update hlo (by simp [times]),
      ⟨hmid.1, hu, hmid.2⟩, by simp⟩
  | lock due u hp hg =>
    cases hq
    rw [hp] at hmid
    obtain ⟨hex, hu, rfl⟩ := hmid
    have hid : due.deliveryId = t.row.deliveryId := (examined_of_examineRow hex).deliveryId
    have hguard : (Stmt.lockDelivery u).guard now r = true := by
      rw [hid] at hg
      simpa [Stmt.affects, hr] using hg
    refine ⟨{ x with lockAt := now, lockFault := .ok }, r, _, hr₀, ?_,
      hin.update hlo (by simp [times]),
      ⟨⟨hex, hu, rfl, hguard⟩, rfl⟩, by simp⟩
    rw [hid]
    exact get_exec_self hr hguard
  | deliver due u hp =>
    cases hq
    rw [hp] at hmid
    exact ⟨x, r₀, r, hr₀, hr, hin, hmid, by simp⟩
  | respond due u result jitter hp =>
    obtain ⟨stmt, hstmt, rfl⟩ := Option.map_eq_some_iff.mp hq.symm
    rw [hp] at hmid
    obtain ⟨⟨hex, hu, hf, hg⟩, rfl⟩ := hmid
    have hid : due.deliveryId = t.row.deliveryId := (examined_of_examineRow hex).deliveryId
    exact ⟨{ x with respondAt := now, result, jitter }, r₀, _, hr₀, hr,
      hin.update hlo (by simp [times]),
      ⟨⟨hex, hu, hf, hg⟩, rfl, hstmt⟩, fun _ _ _ _ => ⟨t.tid, hn, by simp [hid]⟩⟩
  | _ => cases hq

section

variable {x : Script} {row : DueDeliveryRow} {due : DueDelivery} {u : Time} {r : DeliveryRow}

theorem onRow_of_computed (hex : examineRow config row = .ok due)
    (hu : computeLockUntil x.computeAt due.target.timeout config.lockBuffer = some u)
    (r : DeliveryRow) : onRow config x row r =
      match x.lockFault, (Stmt.lockDelivery u).guard x.lockAt r with
      | .ok, true => writeRow x due ((Stmt.lockDelivery u).assign x.lockAt r)
      | .unacked, true => some ((Stmt.lockDelivery u).assign x.lockAt r)
      | _, _ => some r := by
  rw [onRow, hex]
  dsimp only
  rw [dispatchRow, hu]
  rfl

theorem onRow_lost (hex : examineRow config row = .ok due)
    (hu : computeLockUntil x.computeAt due.target.timeout config.lockBuffer = some u)
    (hf : x.lockFault = .lost) : onRow config x row r = some r := by
  rw [onRow_of_computed hex hu, hf]

theorem onRow_unacked (hex : examineRow config row = .ok due)
    (hu : computeLockUntil x.computeAt due.target.timeout config.lockBuffer = some u)
    (hf : x.lockFault = .unacked) (hg : (Stmt.lockDelivery u).guard x.lockAt r = true) :
    onRow config x row r = some ((Stmt.lockDelivery u).assign x.lockAt r) := by
  rw [onRow_of_computed hex hu, hf, hg]

/-- A task with its lock, and the write-back that it makes or loses. -/
theorem onRow_of_locked {stmt : Stmt} (hl : Locked config x row r due u)
    (hstmt : writeBackStmt x.respondAt x.jitter due x.result = some stmt) {r' : DeliveryRow}
    (hr : (if x.writeFault = .lost then (Stmt.lockDelivery u).assign x.lockAt r
      else stmt.assign x.writeAt ((Stmt.lockDelivery u).assign x.lockAt r)) = r') :
    onRow config x row r = some r' := by
  rw [onRow_of_computed hl.examined hl.computed, hl.fault, hl.guard]
  dsimp only
  rw [writeRow, hstmt, ← hr]
  rfl

end

theorem OnWay.congr {now' : Time} {db' : Db} (h : OnWay config lo n db₀ now db trace t)
    (hnow : now ≤ now')
    (hdb : db'.deliveries.get t.row.deliveryId = db.deliveries.get t.row.deliveryId)
    (obs : List Obs) : OnWay config lo n db₀ now' db' (obs ++ trace) t := by
  obtain ⟨x, r₀, r, hr₀, hr, hin, hmid, hans⟩ := h
  exact ⟨x, r₀, r, hr₀, hdb.trans hr, hin.mono hnow, hmid, fun due u stmt hp =>
    (hans due u stmt hp).append obs⟩

/-- A row that cannot be read is never locked. -/
theorem not_locked_of_error {x : Script} {row : DueDeliveryRow} {r₀ : DeliveryRow}
    {due : DueDelivery} {u : Time} {reason : String} (hex : examineRow config row = .error reason) :
    ¬Locked config x row r₀ due u := by
  intro hl
  have hok := hl.examined
  rw [hex] at hok
  cases hok

section

variable {reason : String} {due : DueDelivery} {u : Time} {stmt : Stmt} {trace' : List Obs}

theorem over_poison_lost (h : OnWay config lo n db₀ now db trace t) (hp : t.phase = .fetched)
    (hex : examineRow config t.row = .error reason) : Over config lo n db₀ now db trace' t.row := by
  obtain ⟨x, r₀, r, hr₀, hr, hin, hmid, -⟩ := h
  rw [hp] at hmid
  subst hmid
  exact ⟨{ x with examineFault := .lost }, r, r, hr₀, hr, hin, by rw [onRow, hex]; rfl,
    fun _ _ hl => absurd hl (not_locked_of_error hex)⟩

theorem over_poisoned (hlo : lo ≤ now) (h : OnWay config lo n db₀ now db trace t)
    (hp : t.phase = .fetched) (hex : examineRow config t.row = .error reason) :
    Over config lo n db₀ now ((Stmt.deadLetterPoison reason).exec db now t.row.deliveryId) trace'
      t.row := by
  obtain ⟨x, r₀, r, hr₀, hr, hin, hmid, -⟩ := h
  rw [hp] at hmid
  subst hmid
  exact ⟨{ x with examineAt := now, examineFault := .ok }, r, _, hr₀, get_exec_self hr rfl,
    hin.update hlo (by simp [times]), by rw [onRow, hex]; rfl,
    fun _ _ hl => absurd hl (not_locked_of_error hex)⟩

/-- A lock that is lost or refused: to the row it is all one. -/
theorem over_lock_lost (h : OnWay config lo n db₀ now db trace t) (hp : t.phase = .locking due u)
    (hdb : db'.deliveries.get t.row.deliveryId = db.deliveries.get t.row.deliveryId) :
    Over config lo n db₀ now db' trace' t.row := by
  obtain ⟨x, r₀, r, hr₀, hr, hin, hmid, -⟩ := h
  rw [hp] at hmid
  obtain ⟨hex, hu, rfl⟩ := hmid
  refine ⟨{ x with lockFault := .lost }, r, r, hr₀, hdb.trans hr, hin, onRow_lost hex hu rfl,
    fun _ _ hl => ?_⟩
  cases hl.fault

theorem over_lockUnacked (hlo : lo ≤ now) (h : OnWay config lo n db₀ now db trace t)
    (hp : t.phase = .locking due u)
    (hg : (Stmt.lockDelivery u).affects db now t.row.deliveryId = true) :
    Over config lo n db₀ now ((Stmt.lockDelivery u).exec db now t.row.deliveryId) trace' t.row := by
  obtain ⟨x, r₀, r, hr₀, hr, hin, hmid, -⟩ := h
  rw [hp] at hmid
  obtain ⟨hex, hu, rfl⟩ := hmid
  have hguard : (Stmt.lockDelivery u).guard now r = true := by simpa [Stmt.affects, hr] using hg
  refine ⟨{ x with lockAt := now, lockFault := .unacked }, r, _, hr₀, get_exec_self hr hguard,
    hin.update hlo (by simp [times]), onRow_unacked hex hu rfl hguard, fun _ _ hl => ?_⟩
  cases hl.fault

theorem over_write_lost (h : OnWay config lo n db₀ now db trace t)
    (hp : t.phase = .writing due u stmt) : Over config lo n db₀ now db trace t.row := by
  obtain ⟨x, r₀, r, hr₀, hr, hin, hmid, hans⟩ := h
  rw [hp] at hmid
  obtain ⟨⟨hex, hu, hf, hg⟩, rfl, hstmt⟩ := hmid
  refine ⟨{ x with writeFault := .lost }, r₀, _, hr₀, hr, hin, ?_, fun _ _ _ => hans due u stmt hp⟩
  apply onRow_of_locked
  exacts [⟨hex, hu, hf, hg⟩, hstmt, rfl]

theorem over_wroteBack (hlo : lo ≤ now) (h : OnWay config lo n db₀ now db trace t)
    (hp : t.phase = .writing due u stmt) :
    Over config lo n db₀ now (stmt.exec db now t.row.deliveryId) (obs ++ trace) t.row := by
  obtain ⟨x, r₀, r, hr₀, hr, hin, hmid, hans⟩ := h
  rw [hp] at hmid
  obtain ⟨⟨hex, hu, hf, hg⟩, rfl, hstmt⟩ := hmid
  refine ⟨{ x with writeAt := now, writeFault := .ok }, r₀, _, hr₀,
    get_exec_self hr (guard_writeBack hstmt _), hin.update hlo (by simp [times]), ?_,
    fun _ _ _ => (hans due u stmt hp).append _⟩
  apply onRow_of_locked
  exacts [⟨hex, hu, hf, hg⟩, hstmt, rfl]

theorem OnWay.deliveryId (h : OnWay config lo n db₀ now db trace t)
    (hdue : t.phase.due? = some due) : due.deliveryId = t.row.deliveryId := by
  obtain ⟨x, r₀, r, -, -, -, hmid, -⟩ := h
  suffices hex : examineRow config t.row = .ok due from (examined_of_examineRow hex).deliveryId
  cases hp : t.phase <;> rw [hp] at hmid hdue <;> cases hdue
  case ready => exact hmid.1
  case locking => exact hmid.1
  all_goals exact hmid.1.examined

end

/-- **The last step of a task** is the end of its way, unless it panics. -/
theorem over_of_step (hlo : lo ≤ now) (h : OnWay config lo n db₀ now db trace t)
    (hs : TaskStep config now db t b db' none obs) (hb : isStatement b)
    (hpoison : ∀ fault, b = .examine fault → ∃ reason, examineRow config t.row = .error reason) :
    Over config lo n db₀ now db' (obs ++ trace) t.row := by
  generalize hq : (none : Option Phase) = o at hs
  cases hs with
  | dropped b hd =>
    unfold drops at hd
    split at hd
    · cases hb
    · next hp =>
      obtain ⟨reason, hex⟩ := hpoison _ rfl
      exact over_poison_lost h hp hex
    · next due u hp => exact over_lock_lost h hp rfl
    · next due u stmt hp => exact over_write_lost h hp
    · cases hd
  | poisoned fault reason hp hex => exact over_poisoned hlo h hp hex
  | lockUnacked due u hp hg =>
    rw [h.deliveryId (by rw [hp]; rfl)] at hg ⊢
    exact over_lockUnacked hlo h hp hg
  | lockRefused fault due u hp hg =>
    rw [h.deliveryId (by rw [hp]; rfl)] at hg ⊢
    exact over_lock_lost h hp (by rw [Stmt.exec_eq_self _ (by simp [hg])])
  | wroteBack fault due u stmt hp hf =>
    rw [h.deliveryId (by rw [hp]; rfl)]
    exact over_wroteBack hlo h hp
  | lockPanicked | respond => cases hb
  | _ => cases hq

theorem Over.congr {now' : Time} {db' : Db} {row : DueDeliveryRow}
    (h : Over config lo n db₀ now db trace row) (hnow : now ≤ now')
    (hdb : db'.deliveries.get row.deliveryId = db.deliveries.get row.deliveryId) (obs : List Obs) :
    Over config lo n db₀ now' db' (obs ++ trace) row := by
  obtain ⟨x, r₀, r, hr₀, hr, hin, hon, hans⟩ := h
  exact ⟨x, r₀, r, hr₀, hdb.trans hr, hin.mono hnow, hon,
    fun due u hl => (hans due u hl).append obs⟩

/-! ### The tasks of the batch -/

/-- The tasks with these numbers are on their way, each with a row of its own, and the other rows
are done. -/
structure Serving (config : DispatchConfig) (lo : Time) (n : ℕ) (db₀ : Db)
    (rows : List DueDeliveryRow) (s : Sys) (tids : List ℕ) : Prop where
  since : lo ≤ s.now
  row : ∀ t ∈ s.tasks.rows, t.tid ∈ tids → n ≤ t.tid ∧ t.row ∈ rows
  inj : ∀ t ∈ s.tasks.rows, ∀ t' ∈ s.tasks.rows, t.tid ∈ tids → t'.tid ∈ tids → t.row = t'.row →
    t = t'
  onWay : ∀ t ∈ s.tasks.rows, t.tid ∈ tids → OnWay config lo n db₀ s.now s.db s.trace t
  served : ∀ row ∈ rows, (∀ t ∈ s.tasks.rows, t.tid ∈ tids → t.row ≠ row) →
    Over config lo n db₀ s.now s.db s.trace row

variable {rows : List DueDeliveryRow} {s s' : Sys} {tids tids' : List ℕ}

theorem serving_fetch (hlt : ∀ t ∈ s.tasks.rows, t.tid < s.nextTid)
    (hsel : selectDue s.db s.now config.batchSize = some rows)
    (h : System.step config s .fetch = some s') :
    Serving config s.now s.nextTid s.db rows s' (.range' s.nextTid rows.length) := by
  cases step_cases h with
  | fetch rows' hsel' =>
    obtain rfl : rows = rows' := Option.some.inj (hsel.symm.trans hsel')
    have hnew : ∀ t ∈ (addTasks s.tasks (newTasks s.nextTid rows)).rows,
        t.tid ∈ List.range' s.nextTid rows.length → t ∈ newTasks s.nextTid rows := by
      intro t ht hm
      refine (mem_addTasks _ ht).resolve_left fun hold => ?_
      have hlt' := hlt t hold
      have hle := (List.mem_range'_1.mp hm).1
      omega
    refine ⟨le_refl _, fun t ht hm => ?_, fun t ht t' ht' hm hm' hrow => ?_, fun t ht hm => ?_,
      fun row hrow hno => ?_⟩
    · obtain ⟨hle, -, hrow, -⟩ := mem_newTasks (hnew t ht hm)
      exact ⟨hle, hrow⟩
    · exact newTasks_inj (selectDue_nodup hsel) (hnew t ht hm) (hnew t' ht' hm') (by rw [hrow])
    · obtain ⟨-, -, hrow, hp⟩ := mem_newTasks (hnew t ht hm)
      obtain ⟨r, hr, -, e, -, -, hcols⟩ := mem_selectDue hsel hrow
      have hget : s.db.deliveries.get t.row.deliveryId = some r := by
        rw [hcols]
        exact Table.get_of_mem hr
      refine ⟨⟨s.now, .ok, s.now, s.now, .ok, .ok, 0, s.now, s.now, .ok⟩, r, r, hget, hget, ?_, ?_,
        ?_⟩
      · simp [Within, times]
      · rw [hp]
        rfl
      · simp [hp]
    · obtain ⟨t, ht, htid, rfl⟩ := exists_task_of_fetched hlt hrow
      exact absurd rfl (hno t ht htid)

/-- **A step of somebody else**, who leaves the rows of the batch alone. -/
theorem serving_other (hi : Serving config lo n db₀ rows s tids) (hnow : s.now ≤ s'.now)
    (htrace : ∃ obs, s'.trace = obs ++ s.trace)
    (htasks : ∀ t, t.tid ∈ tids → (t ∈ s'.tasks.rows ↔ t ∈ s.tasks.rows))
    (hdb : ∀ row ∈ rows, s'.db.deliveries.get row.deliveryId = s.db.deliveries.get row.deliveryId) :
    Serving config lo n db₀ rows s' tids := by
  obtain ⟨obs, htrace⟩ := htrace
  refine ⟨hi.since.trans hnow, fun t ht hm => ?_, fun t ht t' ht' hm hm' => ?_, fun t ht hm => ?_,
    fun row hrow hno => ?_⟩
  · exact hi.row t ((htasks t hm).mp ht) hm
  · exact hi.inj t ((htasks t hm).mp ht) t' ((htasks t' hm').mp ht') hm hm'
  · have ht := (htasks t hm).mp ht
    rw [htrace]
    exact (hi.onWay t ht hm).congr hnow (hdb _ (hi.row t ht hm).2) obs
  · rw [htrace]
    exact (hi.served row hrow fun t ht hm => hno t ((htasks t hm).mpr ht) hm).congr hnow
      (hdb row hrow) obs

theorem get_of_taskStep {phase : Option Phase} {d : ℤ}
    (hs : TaskStep config now db t b db' phase obs)
    (hdue : ∀ due, t.phase.due? = some due → due.deliveryId = t.row.deliveryId)
    (hne : d ≠ t.row.deliveryId) : db'.deliveries.get d = db.deliveries.get d := by
  cases hs with
  | poisoned => exact get_exec_of_ne hne
  | lock due u hp | lockUnacked due u hp | lockRefused fault due u hp
  | wroteBack fault due u stmt hp =>
    have hid := hdue due (by rw [hp]; rfl)
    exact get_exec_of_ne (hid ▸ hne)
  | _ => rfl

/-- A row that passes stays in the batch. -/
theorem alive_of_examined {tid : ℕ} {fault : Fault} {due : DueDelivery}
    (h : System.step config s (.task tid (.examine fault)) = some s') (ht : t ∈ s.tasks.rows)
    (htid : t.tid = tid) (hex : examineRow config t.row = .ok due) : alive s' tid := by
  subst htid
  simp only [System.step, Option.bind_eq_bind, Option.bind_eq_some_iff, Option.pure_def] at h
  obtain ⟨t', hget, ⟨db, phase, obs⟩, hs, h⟩ := h
  rw [Table.get_of_mem ht, Option.some.injEq] at hget
  subst hget
  obtain rfl := (Option.some.inj h).symm
  have hphase : phase = some (.ready due) := by
    unfold Task.step at hs
    cases hp : t.phase <;> simp [hp, hex] at hs
    exact hs.2.1.symm
  refine alive_iff.mpr ⟨{ t with phase := .ready due }, ?_, rfl⟩
  exact mem_setPhase.mpr (.inr ⟨t, ht, rfl, _, hphase, rfl⟩)

omit [Crates] in
theorem not_alive_of_dropped {tid : ℕ} (h : s'.tasks = setPhase s.tasks tid none) :
    ¬alive s' tid := by
  intro ha
  obtain ⟨t, ht, hid⟩ := alive_iff.mp ha
  rw [h] at ht
  rcases mem_setPhase.mp ht with ⟨-, hne⟩ | ⟨_, _, _, q, hq, _⟩
  · exact hne hid
  · cases hq

/-- The row of a task that ends. -/
theorem over_of_ended (hlo : lo ≤ s.now) (h : OnWay config lo n db₀ s.now s.db s.trace t)
    (ht : t ∈ s.tasks.rows) (hstep : System.step config s (.task t.tid b) = some s')
    (htasks : s'.tasks = setPhase s.tasks t.tid none)
    (hs : TaskStep config s.now s.db t b db none obs) (hend : alive s' t.tid ∨ isStatement b) :
    Over config lo n db₀ s.now db (obs ++ s.trace) t.row := by
  have hgone : ¬alive s' t.tid := not_alive_of_dropped htasks
  refine over_of_step hlo h hs (hend.resolve_left hgone) fun fault hb => ?_
  subst hb
  cases hex : examineRow config t.row with
  | ok due => exact absurd (alive_of_examined hstep ht rfl hex) hgone
  | error reason => exact ⟨reason, rfl⟩

/-- After a step of the task `t` a task of the batch is another one, with another row, or the task
itself in its next phase. -/
theorem Serving.origin (hi : Serving config lo n db₀ rows s tids) {t' : Task} {phase : Option Phase}
    (ht : t ∈ s.tasks.rows) (hm : t.tid ∈ tids) (ht' : t' ∈ (setPhase s.tasks t.tid phase).rows)
    (hm' : t'.tid ∈ tids) :
    (t' ∈ s.tasks.rows ∧ t'.row ≠ t.row) ∨ ∃ q, phase = some q ∧ t' = { t with phase := q } := by
  rcases mem_setPhase.mp ht' with ⟨hold, hne⟩ | ⟨t₀, ht₀, hid, q, hq, rfl⟩
  · exact .inl ⟨hold, fun hrow => hne (congrArg Task.tid (hi.inj t' hold t ht hm' hm hrow))⟩
  · rw [Table.eq_of_key ht₀ ht hid]
    exact .inr ⟨q, hq, rfl⟩

/-- **A step of one of the tasks.** -/
theorem serving_task (hw : WF config s) (hi : Serving config lo n db₀ rows s tids)
    (hnodup : (rows.map (·.deliveryId)).Nodup) {tid : ℕ} (hm : tid ∈ tids)
    (h : System.step config s (.task tid b) = some s') (hend : alive s' tid ∨ isStatement b)
    (htids : ∀ t ∈ s'.tasks.rows, t.tid ∈ tids' ↔ t.tid ∈ tids) :
    Serving config lo n db₀ rows s' tids' := by
  cases step_cases h with
  | task t b db phase obs ht hs =>
    have hkeep : ∀ row ∈ rows, row ≠ t.row →
        db.deliveries.get row.deliveryId = s.db.deliveries.get row.deliveryId := by
      intro row hrow hne
      refine get_of_taskStep hs (fun due hd => (hw.examined ht hd).deliveryId) fun heq => hne ?_
      exact List.inj_on_of_nodup_map hnodup hrow (hi.row t ht hm).2 heq
    refine ⟨hi.since, fun t' ht' hm' => ?_, fun t₁ ht₁ t₂ ht₂ hm₁ hm₂ hrow => ?_,
      fun t' ht' hm' => ?_, fun row hrow hno => ?_⟩
    · have hin := (htids t' ht').mp hm'
      rcases hi.origin ht hm ht' hin with ⟨hold, -⟩ | ⟨q, -, rfl⟩
      · exact hi.row t' hold hin
      · exact hi.row t ht hm
    · have hin₁ := (htids t₁ ht₁).mp hm₁
      have hin₂ := (htids t₂ ht₂).mp hm₂
      rcases hi.origin ht hm ht₁ hin₁ with ⟨hold₁, hne₁⟩ | ⟨q₁, hq₁, rfl⟩ <;>
        rcases hi.origin ht hm ht₂ hin₂ with ⟨hold₂, hne₂⟩ | ⟨q₂, hq₂, rfl⟩
      · exact hi.inj t₁ hold₁ t₂ hold₂ hin₁ hin₂ hrow
      · exact absurd hrow hne₁
      · exact absurd hrow.symm hne₂
      · rw [hq₁, Option.some.injEq] at hq₂
        rw [hq₂]
    · have hin := (htids t' ht').mp hm'
      rcases hi.origin ht hm ht' hin with ⟨hold, hne⟩ | ⟨q, rfl, rfl⟩
      · exact (hi.onWay t' hold hin).congr (le_refl _) (hkeep _ (hi.row t' hold hin).2 hne) obs
      · exact onWay_step (hi.row t ht hm).1 hi.since (hi.onWay t ht hm) hs
    · by_cases hown : row = t.row
      · subst hown
        cases phase with
        | some q =>
          have ht' : { t with phase := q } ∈ (setPhase s.tasks t.tid (some q)).rows :=
            mem_setPhase.mpr (.inr ⟨t, ht, rfl, q, rfl, rfl⟩)
          exact (hno { t with phase := q } ht' ((htids _ ht').mpr hm) rfl).elim
        | none => exact over_of_ended hi.since (hi.onWay t ht hm) ht h rfl hs hend
      · refine (hi.served row hrow fun t' ht' hm' heq => ?_).congr (le_refl _)
          (hkeep row hrow hown) obs
        have hne : t'.tid ≠ t.tid :=
          fun hid => hown (heq.symm.trans (by rw [Table.eq_of_key ht' ht hid]))
        have hmem : t' ∈ (setPhase s.tasks t.tid phase).rows := mem_setPhase.mpr (.inl ⟨ht', hne⟩)
        exact hno t' hmem ((htids t' hmem).mpr hm') heq

end

/-! ### The replica -/

/-- What happens in the replica while it works through its batch. -/
def inBatch : Act → Bool
  | .task _ _ | .cancel => true
  | _ => false

/-- The rows of the batch are left alone. -/
def RowsKept (rows : List DueDeliveryRow) (c c' : Cluster) : Prop :=
  ∀ row ∈ rows, c'.sys.db.deliveries.get row.deliveryId = c.sys.db.deliveries.get row.deliveryId

instance (rows : List DueDeliveryRow) (c c' : Cluster) : Decidable (RowsKept rows c c') :=
  inferInstanceAs (Decidable (∀ row ∈ rows, _ = _))

/-- The replica goes on with its batch, or somebody else acts and leaves the rows of the batch
alone. -/
def OwnBatch (r : ℕ) (rows : List DueDeliveryRow) (c : Cluster) (a : Action) (c' : Cluster) :
    Prop :=
  match a with
  | .replica r' b => if r' = r then inBatch b = true else RowsKept rows c c'
  | _ => RowsKept rows c c'

instance (r : ℕ) (rows : List DueDeliveryRow) (c : Cluster) (a : Action) (c' : Cluster) :
    Decidable (OwnBatch r rows c a c') :=
  match a with
  | .replica r' b =>
    inferInstanceAs (Decidable (if r' = r then inBatch b = true else RowsKept rows c c'))
  | .outside _ | .rescan _ _ => inferInstanceAs (Decidable (RowsKept rows c c'))

theorem ownBatch_cases {r : ℕ} {rows : List DueDeliveryRow} {c c' : Cluster} {a : Action}
    (h : OwnBatch r rows c a c') :
    (∃ b, a = .replica r b ∧ inBatch b) ∨ (∀ b, a ≠ .replica r b) ∧ RowsKept rows c c' := by
  unfold OwnBatch at h
  split at h
  · next r' b =>
    split_ifs at h with hr
    · exact .inl ⟨b, by rw [hr], h⟩
    · exact .inr ⟨fun b' heq => hr (Action.replica.inj heq).1, h⟩
  · next hne => exact .inr ⟨fun b heq => hne _ _ heq, h⟩

section

variable [Crates] {config : LoopConfig} {c c' : Cluster} {a : Action} {r : ℕ} {p p' : Replica}

/-- **Somebody else's step** leaves the tasks of the replica alone. -/
theorem mem_tasks_of_other (hlt : ∀ t ∈ c.sys.tasks.rows, t.tid < c.sys.nextTid)
    (hi : Owned config c)
    (h : ClusterStep config c a c') (hp : c.replicas r = some p) (hne : ∀ b, a ≠ .replica r b)
    {t : Task} (ht : t.tid ∈ p.stage.tasks) : t ∈ c'.sys.tasks.rows ↔ t ∈ c.sys.tasks.rows := by
  cases h with
  | outside b s hb hs =>
    rw [tasks_of_step hs (by rintro rfl; cases hb) (by rintro _ _ rfl; cases hb)]
  | rescan k b s hk _ hs | start k s hk hs => rw [tasks_of_step hs (by simp) (by simp)]
  | replica k b q s q' hk hs =>
    have hkr : r ≠ k := by
      rintro rfl
      exact hne _ rfl
    have hover := handover_of_step hlt hs (hi.holding k q hk)
    have hforeign : t.tid ∉ q.stage.tasks := fun hm => hkr (hi.apart r k p q t.tid hp hk ht hm)
    refine ⟨fun hm => ?_, fun hm => hover.frame t hm hforeign⟩
    rcases hover.origin t hm with ⟨hold, -⟩ | ⟨p₁, rfl, hin⟩
    · exact hold
    · rcases hover.fresh p₁ rfl t.tid hin with hin | hle
      · exact absurd hin hforeign
      · obtain ⟨t₀, ht₀, hid⟩ := (hi.holding r p hp).task t.tid ht
        have hlt' := hlt t₀ ht₀
        omega

/-- A step of the replica in its batch is one of its tasks, or the token is cancelled. -/
theorem task_of_inBatch {s s' : Sys} {b : Act} (h : ReplicaStep config r s p b s' (some p'))
    (hb : inBatch b) : (s' = s ∧ p'.stage = p.stage) ∨
      ∃ tid b', tid ∈ p.stage.tasks ∧ System.step config.dispatch s (.task tid b') = some s' ∧
        (alive s' tid ∨ isStatement b') := by
  generalize hq : some p' = q at h
  cases h with
  | cancel => cases hq; exact .inl ⟨rfl, rfl⟩
  | examined tid fault rows ready s' hp hs =>
    exact .inr ⟨tid, _, by simp [hp, Stage.tasks], hs, .inr rfl⟩
  | started tid stream stream' s' hp hst hs ha =>
    refine .inr ⟨tid, _, ?_, hs, .inl ha⟩
    rw [hp]
    exact List.mem_append_left _ (by simp [(Buffer.start_eq_some hst).2.1])
  | advanced tid b' stream s' hp hm hs ha =>
    exact .inr ⟨tid, b', by rw [hp]; exact List.mem_append_right _ hm, hs, .inl ha⟩
  | finished tid b' stream s' hp hm hst hs ha =>
    exact .inr ⟨tid, b', by rw [hp]; exact List.mem_append_right _ hm, hs, .inr hst⟩
  | crash | stop | startPanicked | responsePanicked => cases hq
  | _ => cases hb

theorem ClusterStep.past (h : ClusterStep config c a c') :
    c.sys.now ≤ c'.sys.now ∧ ∃ obs, c'.sys.trace = obs ++ c.sys.trace := by
  refine h.moves.invariant (fun s => c.sys.now ≤ s.now ∧ ∃ obs, s.trace = obs ++ c.sys.trace)
    ⟨le_refl _, [], rfl⟩ (fun b s' _ hs => ?_) fun s tids hi => ?_
  · obtain ⟨obs, htrace, -⟩ := trace_step hs
    exact ⟨now_le hs, obs, htrace⟩
  · rw [kill_eq]
    exact hi

variable {lo now : Time} {n : ℕ} {db₀ : Db} {rows : List DueDeliveryRow}
  {ok : Cluster → Action → Cluster → Prop}

/-- **One step of the processes** while the replica works through its batch. -/
theorem serving_step (hw : WF config.dispatch c.sys) (hi : Owned config c)
    (hnodup : (rows.map (·.deliveryId)).Nodup)
    (hs : ∀ p, c.replicas r = some p → Serving config.dispatch lo n db₀ rows c.sys p.stage.tasks)
    (h : ClusterStep config c a c') (ho : OwnBatch r rows c a c') (hp' : c'.replicas r = some p') :
    Serving config.dispatch lo n db₀ rows c'.sys p'.stage.tasks := by
  rcases replica_cases hw.tasks.tid_lt hi h hp' with ⟨hne, hp, -, -⟩ | ⟨rfl, -, -, -⟩ |
    ⟨b, p, rfl, hp, hstep⟩
  · have hkeep : RowsKept rows c c' := by
      rcases ownBatch_cases ho with ⟨b, rfl, -⟩ | ⟨-, hkeep⟩
      · exact absurd rfl (hne b)
      · exact hkeep
    obtain ⟨hnow, htrace⟩ := ClusterStep.past h
    exact serving_other (hs p' hp) hnow htrace (fun t =>
      mem_tasks_of_other hw.tasks.tid_lt hi h hp hne) hkeep
  · rcases ownBatch_cases ho with ⟨b, heq, hb⟩ | ⟨hne, -⟩
    · cases heq
      cases hb
    · exact absurd rfl (hne _)
  · have hb : inBatch b := by
      rcases ownBatch_cases ho with ⟨b', heq, hb⟩ | ⟨hne, -⟩
      · cases heq
        exact hb
      · exact absurd rfl (hne b)
    have hover := handover_of_step hw.tasks.tid_lt hstep (hi.holding r p hp)
    rcases task_of_inBatch hstep hb with ⟨hsys, hstage⟩ | ⟨tid, b', hm, htask, hend⟩
    · rw [hsys, hstage]
      exact hs p hp
    · refine serving_task hw (hs p hp) hnodup hm htask hend fun t ht =>
        ⟨fun hin => ?_, fun hin => ?_⟩
      · refine (hover.fresh p' rfl t.tid hin).resolve_right fun hle => ?_
        have hlt : t.tid < c.sys.nextTid := by
          rcases (step_cases htask).tasks ht with ⟨hold, -⟩ | ⟨hf, -⟩ | ⟨t₀, ht₀, _, _, _, heq, -⟩
          · exact hw.tasks.tid_lt t hold
          · cases hf
          · rw [heq]
            exact hw.tasks.tid_lt t₀ ht₀
        omega
      · rcases hover.origin t ht with ⟨-, hnot⟩ | ⟨p₁, hp₁, hin'⟩
        · exact absurd hin hnot
        · cases hp₁
          exact hin'

theorem serving_fetched (hw : WF config.dispatch c.sys)
    (hsel : selectDue c.sys.db c.sys.now config.dispatch.batchSize = some rows)
    (h : ClusterStep config c (.replica r (.fetchDue true)) c') (hp' : c'.replicas r = some p') :
    Serving config.dispatch c.sys.now c.sys.nextTid c.sys.db rows c'.sys p'.stage.tasks := by
  have hsome : System.step config.dispatch c.sys .fetch = some { c.sys with
      tasks := addTasks c.sys.tasks (newTasks c.sys.nextTid rows)
      nextTid := c.sys.nextTid + rows.length } := by
    rw [System.step, hsel]
    rfl
  cases h with
  | replica _ _ p s q hk hs =>
    dsimp only at hp' ⊢
    rw [Function.update_self] at hp'
    subst hp'
    cases hs with
    | fetchDueFailed ok hp hnone =>
      rw [hnone rfl] at hsome
      cases hsome
    | fetchDue s' hp hs =>
      have hnext : s.nextTid - c.sys.nextTid = rows.length := by
        rw [hs, Option.some.injEq] at hsome
        rw [hsome]
        exact Nat.add_sub_cancel_left ..
      rw [tasks_examine, List.append_nil, hnext]
      exact serving_fetch hw.tasks.tid_lt hsel hs

theorem serving_of_run (h : Run (step config) anyStep (boot now) c)
    (hsel : selectDue c.sys.db c.sys.now config.dispatch.batchSize = some rows) {c₁ : Cluster}
    (hfetch : step config c (.replica r (.fetchDue true)) = some c₁)
    (hrun : Run (step config) (OwnBatch r rows) c₁ c') (hp' : c'.replicas r = some p') :
    Serving config.dispatch c.sys.now c.sys.nextTid c.sys.db rows c'.sys p'.stage.tasks := by
  induction hrun generalizing p' with
  | refl => exact serving_fetched (wf_of_cluster h) hsel (clusterStep_of_step hfetch) hp'
  | tail hrun hs ho ih =>
    have hreach : Run (step config) anyStep (boot now) _ :=
      (h.tail hfetch trivial).trans (hrun.mono fun _ _ _ _ => trivial)
    exact serving_step (wf_of_cluster hreach) (owned_of_run hreach) (selectDue_nodup hsel)
      (fun p hp => ih hp) (clusterStep_of_step hs) ho hp'

/-- **The order in the stream does not matter.** A replica fetches a batch and works through it, in
whatever order; others act in between, but leave the rows of the batch alone. When the stream is
drained, these rows are as if the replica had taken one delivery after another: with some faults and
jitters, at times within the run, and with answers that were given in it. -/
theorem stream_is_serial (h : Run (step config) ok (boot now) c)
    (hsel : selectDue c.sys.db c.sys.now config.dispatch.batchSize = some rows) {c₁ : Cluster}
    (hfetch : step config c (.replica r (.fetchDue true)) = some c₁)
    (hrun : Run (step config) (OwnBatch r rows) c₁ c') (hp' : c'.replicas r = some p')
    (hdone : p'.stage.tasks = []) :
    ∃ (script : ℤ → Script) (db : Db), dispatchDue config.dispatch script c.sys.db c.sys.now =
      some db ∧
      (∀ row ∈ rows, c'.sys.db.deliveries.get row.deliveryId = db.deliveries.get row.deliveryId) ∧
      (∀ d, Within c.sys.now c'.sys.now (script d)) ∧
      ∀ row ∈ rows, ∀ r₀ due lockUntil, c.sys.db.deliveries.get row.deliveryId = some r₀ →
        Locked config.dispatch (script row.deliveryId) row r₀ due lockUntil →
        Answered c.sys.nextTid c'.sys.trace row.deliveryId (script row.deliveryId) := by
  have hi := serving_of_run (h.mono fun _ _ _ _ => trivial) hsel hfetch hrun hp'
  have hover :
      ∀ row ∈ rows, Over config.dispatch c.sys.now c.sys.nextTid c.sys.db c'.sys.now c'.sys.db
      c'.sys.trace row := fun row hrow => hi.served row hrow (by simp [hdone])
  -- One script for each delivery of the batch; the others do not matter.
  have hscript : ∀ d, ∃ x, Within c.sys.now c'.sys.now x ∧ ∀ row ∈ rows, row.deliveryId = d →
      ∃ r₀ r, c.sys.db.deliveries.get d = some r₀ ∧ c'.sys.db.deliveries.get d = some r ∧
        onRow config.dispatch x row r₀ = some r ∧
        ∀ due u, Locked config.dispatch x row r₀ due u →
        Answered c.sys.nextTid c'.sys.trace d x := by
    intro d
    by_cases hd : ∃ row ∈ rows, row.deliveryId = d
    · obtain ⟨row, hrow, rfl⟩ := hd
      obtain ⟨x, r₀, r, hr₀, hr, hin, hon, hans⟩ := hover row hrow
      refine ⟨x, hin, fun row' hrow' hid => ?_⟩
      rw [List.inj_on_of_nodup_map (selectDue_nodup hsel) hrow' hrow hid]
      exact ⟨r₀, r, hr₀, hr, hon, hans⟩
    · refine ⟨⟨c.sys.now, .ok, c.sys.now, c.sys.now, .ok, .ok, 0, c.sys.now, c.sys.now, .ok⟩, ?_,
        ?_⟩
      · simp [Within, times, hi.since]
      · exact fun row hrow hid => absurd ⟨row, hrow, hid⟩ hd
  choose script hin hrows using hscript
  obtain ⟨db, hdb, hget⟩ := get_dispatchDue script hsel fun row hrow => by
    obtain ⟨r₀, r, hr₀, -, hon, -⟩ := hrows row.deliveryId row hrow rfl
    exact ⟨r₀, r, hr₀, hon⟩
  refine ⟨script, db, hdb, fun row hrow => ?_, hin, fun row hrow r₀ due u hr₀ hl => ?_⟩
  · obtain ⟨r₀, r, hr₀, hr, hon, -⟩ := hrows row.deliveryId row hrow rfl
    rw [hget row hrow, hr₀, hr, Option.bind_some, hon]
  · obtain ⟨r₁, r, hr₁, -, -, hans⟩ := hrows row.deliveryId row hrow rfl
    rw [hr₀, Option.some.injEq] at hr₁
    subst hr₁
    exact hans due u hl

end

/-- Two deliveries at the same time: the second is locked first, the first times out, and the
write-back of the second is lost. -/
def crossed : List Action :=
  [.replica 0 (.task 0 (.examine .ok)), .replica 0 (.task 1 (.examine .ok)),
    .replica 0 (.task 0 .computeLock),
    .replica 0 (.task 1 .computeLock), .replica 0 (.task 1 (.lock .ok)), .outside (.tick 5),
    .replica 0 (.task 0 (.lock .ok)), .replica 0 (.task 0 .deliver), .replica 0 (.task 1 .deliver),
    .replica 0 (.task 1 (.respond .ok 0)), .outside (.publish (sampleEvent 2 [])),
    .replica 0 (.task 0 (.respond .timeout 0)), .replica 0 (.task 0 (.writeBack .ok)),
    .replica 0 (.task 1 (.writeBack .lost))]

theorem stream_is_serial_crossed :
    ∃ c c₁ c' p' rows, Run (@step sampleCrates {}) anyStep (boot 0) c ∧
    @selectDue sampleCrates c.sys.db c.sys.now 50 = some rows ∧ rows.length = 2 ∧
    @step sampleCrates {} c (.replica 0 (.fetchDue true)) = some c₁ ∧
    Run (@step sampleCrates {}) (OwnBatch 0 rows) c₁ c' ∧ c'.replicas 0 = some p' ∧
    p'.stage.tasks = [] ∧
    ∃ (script : ℤ → Script) (db : Db), @dispatchDue sampleCrates {} script c.sys.db c.sys.now =
      some db ∧
      ∀ row ∈ rows, c'.sys.db.deliveries.get row.deliveryId = db.deliveries.get row.deliveryId := by
  obtain ⟨c, hrun, hsome⟩ : ∃ c, Run (@step sampleCrates {}) anyStep (boot 0) c ∧
      ((@selectDue sampleCrates c.sys.db c.sys.now 50).bind fun rows =>
        (@step sampleCrates {} c (.replica 0 (.fetchDue true))).bind fun c₁ =>
          (exec (@step sampleCrates {}) (OwnBatch 0 rows) crossed c₁).bind fun c' =>
            (c'.replicas 0).bind fun p' => if rows.length = 2 ∧ p'.stage.tasks = [] then some ()
              else none).isSome :=
    Run.exists_of_exec (twoDue.take 8) (by decide +kernel)
  obtain ⟨_, hsome⟩ := Option.isSome_iff_exists.mp hsome
  obtain ⟨rows, hsel, hsome⟩ := Option.bind_eq_some_iff.mp hsome
  obtain ⟨c₁, hfetch, hsome⟩ := Option.bind_eq_some_iff.mp hsome
  obtain ⟨c', hexec, hsome⟩ := Option.bind_eq_some_iff.mp hsome
  obtain ⟨p', hp', hsome⟩ := Option.bind_eq_some_iff.mp hsome
  split_ifs at hsome with hc
  have hrun' := Run.of_exec crossed hexec
  obtain ⟨script, db, hdb, hrows, -⟩ :=
    @stream_is_serial sampleCrates {} c c' 0 p' 0 rows anyStep hrun hsel c₁ hfetch
    hrun' hp' hc.2
  exact ⟨c, c₁, c', p', rows, hrun, hsel, hc.1, hfetch, hrun', hp', hc.2, script, db, hdb, hrows⟩

end OutboxDispatcher.Replicas.Stream
