import OutboxDispatcher.System.Rows

/-! # Statements that are not made at once

Under READ COMMITTED two of the statements decide by a snapshot and write later.

`reset_hung_external` selects the hung rows. Its `UPDATE` then takes them one by one, waits for
whoever is writing the row, and asks again only that the id is the same; what it assigns was decided
by the snapshot. `delete_terminal_events` selects the events. Its `DELETE` takes those that are
still there, with all the rows that they have by then.

`Phased` puts this over `Sys`: in place of the sweep and the retention at once, any number of sweeps
read and update, and any number of workers select and delete, and between any two of these steps the
system goes on. The other statements write one row under a condition that is asked again when the
row is free, or only insert or read; they are made at one moment.

* `sweep_of_read`, `retention_of_select`: a statement that is not interrupted is the one at once.
* `phased_cases`: as long as nobody writes a row between the read and the update of it, every step
  is one of the cases of `Step`, or leaves the system alone.
* `invariant_of_lifted`: the invariants of the system under a condition are therefore those of the
  phased system under this condition and that one. -/

namespace OutboxDispatcher.System.Phases

open OutboxDispatcher.Lib.Runs OutboxDispatcher.Lib.Tables OutboxDispatcher.Schema
open OutboxDispatcher.Callbacks.Fields OutboxDispatcher.Repo.Database
open OutboxDispatcher.Repo.Database.Db OutboxDispatcher.Repo.Statements
open OutboxDispatcher.Scheduler.Pass OutboxDispatcher.Dispatch OutboxDispatcher.System
open OutboxDispatcher.System.Effects OutboxDispatcher.System.History OutboxDispatcher.System.Rows

/-! ### The sweep in two phases -/

/-- A row of `to_update`: the delivery as it was read, and the limit of its callback. -/
structure ToUpdate where
  row : DeliveryRow
  maxCycles : ℤ

/-- The common table expression; `none` when a cast raises, or an addition for one of its rows, so
that the statement has no effect. -/
def toUpdate (db : Db) (now : Time) (maxCompletionCycles : ℤ) : Option (List ToUpdate) :=
  if db.deliveries.rows.all (sweepable db now maxCompletionCycles) then
    some (db.deliveries.rows.filterMap fun r =>
      (hungLimit db now maxCompletionCycles r).join.map (⟨r, ·⟩))
  else none

namespace ToUpdate

/-- The `SET` clause: everything is taken from `to_update`. -/
def assign (now : Time) (u : ToUpdate) (r : DeliveryRow) : DeliveryRow :=
  if u.row.completionCycles + 1 ≥ u.maxCycles then
    { r with completionCycles := u.row.completionCycles + 1, dispatchedAt := u.row.dispatchedAt,
             availableAt := u.row.availableAt, attempts := u.row.attempts,
             lastError := some "external_completion_cycles_exhausted", deadLetter := true,
             lockedUntil := none }
  else
    { r with completionCycles := u.row.completionCycles + 1, dispatchedAt := none,
             availableAt := now, attempts := 0, lastError := none, deadLetter := false,
             lockedUntil := none }

/-- The update of the row, whatever it has become. -/
def rowUpdate (now : Time) (u : ToUpdate) : RowUpdate where
  set r := if r.id = u.row.id then u.assign now r else r
  ident_set r := by
    unfold assign
    split_ifs <;> rfl

/-- What is seen of it. -/
def obs (u : ToUpdate) (db : Db) : List Obs :=
  if (db.deliveries.get u.row.id).isSome ∧ u.row.completionCycles + 1 < u.maxCycles then
    [.sweepReset u.row.id]
  else []

theorem mem_obs {u : ToUpdate} {db : Db} {o : Obs} (h : o ∈ u.obs db) :
    o = .sweepReset u.row.id ∧ (db.deliveries.get u.row.id).isSome := by
  unfold obs at h
  split_ifs at h with hc
  · exact ⟨List.mem_singleton.mp h, hc.1⟩
  · cases h

def apply (now : Time) (u : ToUpdate) (s : Sys) : Sys :=
  { s with db := s.db.update (u.rowUpdate now), trace := u.obs s.db ++ s.trace }

/-- Nothing but a reset is seen of an update. -/
theorem countP_apply (now : Time) (u : ToUpdate) (s : Sys) {q : Obs → Bool}
    (hq : ∀ d, q (.sweepReset d) = false) : (u.apply now s).trace.countP q = s.trace.countP q := by
  show (u.obs s.db ++ s.trace).countP q = _
  rw [List.countP_append, Nat.add_eq_right, List.countP_eq_zero]
  intro o ho
  rw [(mem_obs ho).1, hq]
  exact Bool.false_ne_true

theorem get_apply (now : Time) (u : ToUpdate) (s : Sys) (d : ℤ) :
    (u.apply now s).db.deliveries.get d = (s.db.deliveries.get d).map (u.rowUpdate now).set :=
  get_update ..

/-- On the row as it was read this is the sweep at once. -/
theorem assign_row (now : Time) (u : ToUpdate) :
    u.assign now u.row = sweepRow now u.maxCycles u.row := by
  unfold assign sweepRow
  split_ifs <;> rfl

end ToUpdate

/-! ### All updates at once -/

/-- The updates of a list of rows, one after the other. -/
def updateAll (now : Time) (us : List ToUpdate) (db : Db) : Db :=
  us.foldl (fun db u => db.update (u.rowUpdate now)) db

theorem updateAll_spec (now : Time) : ∀ (us : List ToUpdate) (db : Db),
    (updateAll now us db).events = db.events ∧ (updateAll now us db).deliverySeq = db.deliverySeq ∧
      (updateAll now us db).deliveries.rows =
        db.deliveries.rows.map fun r => us.foldl (fun r u => (u.rowUpdate now).set r) r
  | [], db => ⟨rfl, rfl, (List.map_id _).symm⟩
  | u :: us, db => by
    obtain ⟨he, hs, hr⟩ := updateAll_spec now us (db.update (u.rowUpdate now))
    refine ⟨he, hs, ?_⟩
    show (updateAll now us (db.update (u.rowUpdate now))).deliveries.rows = _
    rw [hr, rows_update, List.map_map]
    rfl

theorem foldl_set_of_ne (now : Time) {r : DeliveryRow} : ∀ {us : List ToUpdate},
    (∀ u ∈ us, u.row.id ≠ r.id) → us.foldl (fun r u => (u.rowUpdate now).set r) r = r
  | [], _ => rfl
  | u :: us, h => by
    have hset : (u.rowUpdate now).set r = r := if_neg (h u (List.mem_cons_self ..)).symm
    rw [List.foldl_cons, hset]
    exact foldl_set_of_ne now fun u' hu' => h u' (List.mem_cons_of_mem _ hu')

theorem foldl_set_of_mem (now : Time) {v : ToUpdate} : ∀ {us : List ToUpdate},
    (us.map (·.row.id)).Nodup → v ∈ us →
      us.foldl (fun r u => (u.rowUpdate now).set r) v.row = sweepRow now v.maxCycles v.row
  | u :: us, hn, hm => by
    rw [List.map_cons, List.nodup_cons] at hn
    rw [List.foldl_cons]
    rcases List.mem_cons.mp hm with rfl | hm
    · have hset : (v.rowUpdate now).set v.row = sweepRow now v.maxCycles v.row :=
        (if_pos rfl).trans (v.assign_row now)
      rw [hset]
      refine foldl_set_of_ne now fun u hu heq => hn.1 (List.mem_map.mpr ⟨u, hu, heq.trans ?_⟩)
      rw [← hset, RowUpdate.id_set]
    · have hne : v.row.id ≠ u.row.id := fun heq => hn.1 (heq ▸ List.mem_map_of_mem hm)
      have hset : (u.rowUpdate now).set v.row = v.row := if_neg hne
      rw [hset]
      exact foldl_set_of_mem now hn.2 hm

theorem toUpdate_eq_some {db : Db} {now : Time} {m : ℤ} {us : List ToUpdate}
    (h : toUpdate db now m = some us) :
    (us.map (·.row.id)).Nodup ∧ ∀ u, u ∈ us ↔
      u.row ∈ db.deliveries.rows ∧ hungLimit db now m u.row = some (some u.maxCycles) := by
  unfold toUpdate at h
  split_ifs at h
  cases h
  constructor
  · refine nodup_filterMap (fun r u hu => ?_) db.deliveries.nodup
    obtain ⟨_, -, rfl⟩ := Option.map_eq_some_iff.mp hu
    rfl
  · intro u
    simp only [List.mem_filterMap, Option.map_eq_some_iff, Option.join_eq_some_iff]
    constructor
    · rintro ⟨r, hr, c, hc, rfl⟩
      exact ⟨hr, hc⟩
    · exact fun ⟨hr, hc⟩ => ⟨u.row, hr, u.maxCycles, hc, rfl⟩

/-- **All updates of a sweep at once are the atomic sweep.** -/
theorem updateAll_toUpdate {db : Db} {now : Time} {m : ℤ} {us : List ToUpdate}
    (h : toUpdate db now m = some us) : updateAll now us db = db.update (sweepUpdate db now m) := by
  obtain ⟨hn, hm⟩ := toUpdate_eq_some h
  obtain ⟨he, hs, hr⟩ := updateAll_spec now us db
  refine db_ext he ?_ hs
  rw [hr, rows_update]
  refine List.map_congr_left fun r hrm => ?_
  rcases hh : (hungLimit db now m r).join with _ | maxCycles
  · have hne : ∀ u ∈ us, u.row.id ≠ r.id := by
      intro u hu heq
      obtain ⟨hur, hlim⟩ := (hm u).mp hu
      rw [Table.eq_of_key hur hrm heq] at hlim
      rw [hlim] at hh
      cases hh
    rw [foldl_set_of_ne now hne]
    simp [sweepUpdate, hh]
  · have hu : (⟨r, maxCycles⟩ : ToUpdate) ∈ us := (hm _).mpr ⟨hrm, Option.join_eq_some_iff.mp hh⟩
    rw [foldl_set_of_mem now hn hu]
    simp [sweepUpdate, hh]

/-! ### The system -/

/-- A sweep under way: its parameter `$1`, and the rows it has yet to update. -/
structure Pending where
  now : Time
  rows : List ToUpdate

/-- A deletion under way: its parameters, and the events it has selected. -/
structure Deletion where
  deadLetterCutoff : Time
  processedCutoff : Time
  batchLimit : ℤ
  events : List RawEvent

/-- The system, the sweep of each replica and the deletion of each worker. -/
structure Phased where
  base : Sys
  sweeps : ℕ → Pending
  deletions : ℕ → Option Deletion

inductive PhasedAction
  | base (a : Action)
  /-- The replica selects the hung rows. -/
  | read (p : ℕ)
  /-- It updates one of them. -/
  | update (p : ℕ) (d : ℤ)
  /-- The worker selects the events. -/
  | select (p : ℕ) (deadLetterCutoff processedCutoff : Time) (batchLimit : ℤ)
  /-- It deletes them. -/
  | delete (p : ℕ)

/-- The actions of the system that are made in two phases. -/
def inPhases : Action → Bool
  | .sweep | .retention _ _ _ => true
  | _ => false

section

variable [Crates]

/-- One step; what is made in two phases is not made at once. -/
def phasedStep (config : DispatchConfig) (w : Phased) : PhasedAction → Option Phased
  | .base a =>
    if inPhases a then none else (step config w.base a).map fun s => { w with base := s }
  | .read p =>
    if (w.sweeps p).rows.isEmpty then
      (toUpdate w.base.db w.base.now (asI32 config.maxCompletionCycles)).map fun rows =>
        { w with sweeps := Function.update w.sweeps p ⟨w.base.now, rows⟩ }
    else none
  | .update p d =>
    ((w.sweeps p).rows.find? (·.row.id = d)).map fun u =>
      { w with
        base := u.apply (w.sweeps p).now w.base
        sweeps := Function.update w.sweeps p
          { w.sweeps p with rows := (w.sweeps p).rows.filter (·.row.id ≠ d) } }
  | .select p deadLetterCutoff processedCutoff batchLimit =>
    (terminalEvents w.base.db deadLetterCutoff processedCutoff batchLimit).map fun events =>
      { w with
        deletions := Function.update w.deletions p
          (some ⟨deadLetterCutoff, processedCutoff, batchLimit, events⟩) }
  | .delete p =>
    (w.deletions p).map fun x =>
      { w with
        base := { w.base with db := w.base.db.deleteEvents fun e => x.events.any (·.id == e.id) }
        deletions := Function.update w.deletions p none }

/-- **What a step does.** -/
inductive PhasedStep (config : DispatchConfig) (w : Phased) : PhasedAction → Phased → Prop
  | base (a : Action) (s : Sys) (hs : step config w.base a = some s) (ha : inPhases a = false) :
      PhasedStep config w (.base a) { w with base := s }
  | read (p : ℕ) (rows : List ToUpdate)
      (h : toUpdate w.base.db w.base.now (asI32 config.maxCompletionCycles) = some rows) :
      PhasedStep config w (.read p)
        { w with sweeps := Function.update w.sweeps p ⟨w.base.now, rows⟩ }
  | update (p : ℕ) (u : ToUpdate) (hu : u ∈ (w.sweeps p).rows) :
      PhasedStep config w (.update p u.row.id)
        { w with
          base := u.apply (w.sweeps p).now w.base
          sweeps := Function.update w.sweeps p
            { w.sweeps p with rows := (w.sweeps p).rows.filter (·.row.id ≠ u.row.id) } }
  | select (p : ℕ) (x : Deletion)
      (h : terminalEvents w.base.db x.deadLetterCutoff x.processedCutoff x.batchLimit =
        some x.events) :
      PhasedStep config w (.select p x.deadLetterCutoff x.processedCutoff x.batchLimit)
        { w with deletions := Function.update w.deletions p (some x) }
  | delete (p : ℕ) (x : Deletion) (h : w.deletions p = some x) :
      PhasedStep config w (.delete p)
        { w with
          base := { w.base with db := w.base.db.deleteEvents fun e => x.events.any (·.id == e.id) }
          deletions := Function.update w.deletions p none }

variable {config : DispatchConfig} {w w' : Phased} {a : PhasedAction}

theorem phasedStep_cases (h : phasedStep config w a = some w') : PhasedStep config w a w' := by
  cases a with
  | base b =>
    dsimp only [phasedStep] at h
    split_ifs at h with hb
    obtain ⟨s, hs, rfl⟩ := Option.map_eq_some_iff.mp h
    exact .base b s hs (by simpa using hb)
  | read p =>
    dsimp only [phasedStep] at h
    split_ifs at h
    obtain ⟨rows, hr, rfl⟩ := Option.map_eq_some_iff.mp h
    exact .read p rows hr
  | update p d =>
    obtain ⟨u, hu, rfl⟩ := Option.map_eq_some_iff.mp h
    have hd : u.row.id = d := by simpa using List.find?_some hu
    subst hd
    exact .update p u (List.mem_of_find?_eq_some hu)
  | select p deadLetterCutoff processedCutoff batchLimit =>
    obtain ⟨events, he, rfl⟩ := Option.map_eq_some_iff.mp h
    exact .select p ⟨deadLetterCutoff, processedCutoff, batchLimit, events⟩ he
  | delete p =>
    obtain ⟨x, hx, rfl⟩ := Option.map_eq_some_iff.mp h
    exact .delete p x hx

def start (now : Time) (scheds : ℕ → Sched) : Phased where
  base := init now scheds
  sweeps := fun _ => ⟨now, []⟩
  deletions := fun _ => none

/-! ### Statements that are not interrupted -/

theorem run_updates (p : ℕ) : ∀ (us : List ToUpdate) {w : Phased}, (w.sweeps p).rows = us →
    (us.map (·.row.id)).Nodup → ∃ w', Run (phasedStep config) anyStep w w' ∧
      w'.base.db = updateAll (w.sweeps p).now us w.base.db
  | [], w, _, _ => ⟨w, .refl, rfl⟩
  | u :: us, w, hrows, hn => by
    rw [List.map_cons, List.nodup_cons] at hn
    have hfind : (w.sweeps p).rows.find? (·.row.id = u.row.id) = some u := by simp [hrows]
    have hrest : (w.sweeps p).rows.filter (·.row.id ≠ u.row.id) = us := by
      have hus : us.filter (·.row.id ≠ u.row.id) = us :=
        List.filter_eq_self.mpr fun v hv =>
          decide_eq_true fun heq => hn.1 (heq ▸ List.mem_map_of_mem hv)
      rw [hrows, List.filter_cons_of_neg (by simp), hus]
    obtain ⟨w₁, hstep, hsweep, hdb₁⟩ : ∃ w₁, phasedStep config w (.update p u.row.id) = some w₁ ∧
        w₁.sweeps p = ⟨(w.sweeps p).now, us⟩ ∧
        w₁.base.db = w.base.db.update (u.rowUpdate (w.sweeps p).now) :=
      ⟨_, congrArg (Option.map _) hfind, by simp only [Function.update_self, hrest], rfl⟩
    obtain ⟨w', hrun, hdb⟩ := run_updates p us (by rw [hsweep]) hn.2
    refine ⟨w', (Run.refl.tail hstep trivial).trans hrun, ?_⟩
    rw [hdb, hsweep, hdb₁]
    rfl

/-- **A sweep that is not interrupted is the one at once.** -/
theorem sweep_of_read {p : ℕ} (hidle : (w.sweeps p).rows = []) {s : Sys}
    (h : step config w.base .sweep = some s) :
    ∃ w', Run (phasedStep config) anyStep w w' ∧ w'.base.db = s.db := by
  obtain ⟨⟨db, report⟩, hreset, hs⟩ := Option.bind_eq_some_iff.mp h
  cases hs
  unfold resetHungExternal at hreset
  split_ifs at hreset with hcasts
  cases hreset
  obtain ⟨us, hread⟩ : ∃ us,
      toUpdate w.base.db w.base.now (asI32 config.maxCompletionCycles) = some us :=
      ⟨_, if_pos hcasts⟩
  have hstep : phasedStep config w (.read p) =
      some { w with sweeps := Function.update w.sweeps p ⟨w.base.now, us⟩ } := by
    rw [phasedStep, if_pos (by simp [hidle]), hread]
    rfl
  obtain ⟨w', hrun, hdb⟩ := run_updates p us
    (w := { w with sweeps := Function.update w.sweeps p ⟨w.base.now, us⟩ })
    (by simp only [Function.update_self]) (toUpdate_eq_some hread).1
  refine ⟨w', (Run.refl.tail hstep trivial).trans hrun, ?_⟩
  rw [hdb]
  simp only [Function.update_self]
  exact updateAll_toUpdate hread

/-- **A retention that is not interrupted is the one at once.** -/
theorem retention_of_select (p : ℕ) {deadLetterCutoff processedCutoff : Time} {batchLimit : ℤ}
    {s : Sys}
    (h : step config w.base (.retention deadLetterCutoff processedCutoff batchLimit) = some s) :
    ∃ w', Run (phasedStep config) anyStep w w' ∧ w'.base = s := by
  obtain ⟨⟨db, report⟩, hdel, hs⟩ := Option.bind_eq_some_iff.mp h
  cases hs
  obtain ⟨events, he, hdb⟩ := Option.bind_eq_some_iff.mp hdel
  cases hdb
  obtain ⟨w₁, hselect, hbase, hx⟩ : ∃ w₁,
      phasedStep config w (.select p deadLetterCutoff processedCutoff batchLimit) = some w₁ ∧
        w₁.base = w.base ∧
        w₁.deletions p = some ⟨deadLetterCutoff, processedCutoff, batchLimit, events⟩ :=
    ⟨_, congrArg (Option.map _) he, rfl, Function.update_self ..⟩
  have hdelete := congrArg (Option.map fun x : Deletion => ({ w₁ with
    base := { w₁.base with db := w₁.base.db.deleteEvents fun e => x.events.any (·.id == e.id) }
    deletions := Function.update w₁.deletions p none } : Phased)) hx
  refine ⟨_, (Run.refl.tail hselect trivial).tail (a := .delete p) hdelete trivial, ?_⟩
  rw [hbase]

/-! ### What the steps keep -/

/-- An update of columns leaves what is known of the past. -/
theorem wf_update {s : Sys} (hw : WF config s) (f : RowUpdate) (trace : List Obs) :
    WF config { s with db := s.db.update f, trace } where
  events :=
    ⟨hw.events.seq_pos, hw.events.ids, hw.events.ids_nodup, hw.events.uuids_nodup,
      hw.events.visible⟩
  issued := by
    refine ⟨hw.issued.ids_lt, hw.issued.ids_nodup, hw.issued.event, fun r hr => ?_,
      fun i hi e he hk => ?_⟩
    · rw [rows_update, List.mem_map] at hr
      obtain ⟨r₀, hr₀, rfl⟩ := hr
      obtain ⟨i, hi, hid⟩ := hw.issued.row r₀ hr₀
      exact ⟨i, hi, hid.trans (f.ident_set r₀).symm⟩
    · exact (hasRow_update ..).mpr (hw.issued.present i hi e he hk)
  scheds := fun r c l hr => ⟨(hw.scheds r c l hr).committed,
    (hw.scheds r c l hr).decoded, (hw.scheds r c l hr).made⟩
  tasks := ⟨hw.tasks.tid_lt, fun t ht => ⟨(hw.tasks.source t ht).event,
    (hw.tasks.source t ht).eventId,
    (hw.tasks.source t ht).decoded, (hw.tasks.source t ht).issued⟩, hw.tasks.due, hw.tasks.stmt⟩

theorem wf_deleteEvents {s : Sys} (hw : WF config s) (p : RawEvent → Bool) :
    WF config { s with db := s.db.deleteEvents p } :=
  wf_step hw (.retention 0 0 0 p)

/-- A row that is dispatched is not locked. -/
def Released (s : Sys) : Prop :=
  ∀ d r, s.db.deliveries.get d = some r → r.dispatchedAt.isSome → r.lockedUntil = none

theorem released_step {s s' : Sys} {b : Action} (hw : WF config s) (hi : Released s)
    (h : Step config s b s') : Released s' := by
  intro d r' hr' hd
  have hrow := row_step h d
  generalize ho : s.db.deliveries.get d = o at hrow
  rw [hr'] at hrow
  cases hrow with
  | keep => exact hi d r' ho hd
  | inserted => cases hd
  | poisoned => rfl
  | locked t fault due u r ht hp _ hg =>
    have hnone : r.dispatchedAt = none := (Stmt.guard_lockDelivery_iff.mp hg).2.1
    have hsome : r.dispatchedAt.isSome := hd
    rw [hnone] at hsome
    cases hsome
  | wroteBack t fault due u stmt r ht hp =>
    rcases (hw.tasks.stmt t ht due u stmt hp).cases with rfl | ⟨rfl, -⟩ |
      ⟨error, availableAt, deadLetter, rfl⟩
    all_goals rfl
  | swept maxCycles r =>
    unfold sweepRow
    split_ifs <;> rfl
  | retried => rfl
  | completed r => exact hi d r ho hd
  | abandoned r => exact hi d r ho hd

omit [Crates] in
theorem released_apply {s : Sys} (hi : Released s) (now : Time) (u : ToUpdate) :
    Released (u.apply now s) := by
  intro d r' hr' hd
  rw [ToUpdate.get_apply, Option.map_eq_some_iff] at hr'
  obtain ⟨r, hr, rfl⟩ := hr'
  unfold ToUpdate.rowUpdate ToUpdate.assign at hd ⊢
  dsimp only at hd ⊢
  split_ifs at hd ⊢
  · rfl
  · rfl
  · exact hi d r hr hd

/-- A selected row is that of an event, and was hung then. -/
def Selected (config : DispatchConfig) (s : Sys) (now : Time) (u : ToUpdate) : Prop :=
  ∃ e ∈ s.committed, e.eventId = u.row.eventId ∧ ∀ db : Db, db.event? u.row.eventId = some e →
    hungLimit db now (asI32 config.maxCompletionCycles) u.row = some (some u.maxCycles)

/-- **The invariant.** -/
structure PhasedWF (config : DispatchConfig) (w : Phased) : Prop where
  wf : WF config w.base
  released : Released w.base
  selected : ∀ p, ∀ u ∈ (w.sweeps p).rows, Selected config w.base (w.sweeps p).now u
  external : ∀ p, ∀ u ∈ (w.sweeps p).rows, u.row.completionMode = .external ∧
    ∃ i ∈ w.base.issued, i.ident = u.row.ident
  past : ∀ p, ∀ u ∈ (w.sweeps p).rows, (w.sweeps p).now ≤ w.base.now

omit [Crates] in
/-- The sweep looks only at the row and at its event. -/
theorem hungLimit_congr {db db' : Db} {now : Time} {m : ℤ} {r : DeliveryRow}
    (h : db.event? r.eventId = db'.event? r.eventId) :
    hungLimit db now m r = hungLimit db' now m r := by
  unfold hungLimit
  rw [h]

theorem event_of_row {s : Sys} (hw : WF config s) {d : ℤ} {r : DeliveryRow}
    (hr : s.db.deliveries.get d = some r) :
    ∃ e ∈ s.committed, e.eventId = r.eventId ∧ s.db.event? r.eventId = some e := by
  obtain ⟨e, he, hk⟩ := s.db.references r (Table.get_eq_some_iff.mp hr).1
  exact ⟨e, hw.events.visible e he, hk, event?_eq_some.mpr ⟨he, hk⟩⟩

/-- A row that a sweep has to update was selected before, or it has just been read. -/
theorem PhasedStep.pending (h : PhasedStep config w a w') {p : ℕ} {u : ToUpdate}
    (hu : u ∈ (w'.sweeps p).rows) :
    (u ∈ (w.sweeps p).rows ∧ (w'.sweeps p).now = (w.sweeps p).now) ∨
      (w'.base = w.base ∧ (w'.sweeps p).now = w.base.now ∧ u.row ∈ w.base.db.deliveries.rows ∧
        hungLimit w.base.db w.base.now (asI32 config.maxCompletionCycles) u.row =
          some (some u.maxCycles)) := by
  cases h with
  | base | select | delete => exact .inl ⟨hu, rfl⟩
  | read q rows hread =>
    dsimp only at hu ⊢
    by_cases hq : p = q
    · subst hq
      simp only [Function.update_self] at hu ⊢
      exact .inr ⟨trivial, trivial, ((toUpdate_eq_some hread).2 u).mp hu⟩
    · simp only [Function.update_of_ne hq] at hu ⊢
      exact .inl ⟨hu, trivial⟩
  | update q v hv =>
    dsimp only at hu ⊢
    by_cases hq : p = q
    · subst hq
      simp only [Function.update_self] at hu ⊢
      exact .inl ⟨(List.mem_filter.mp hu).1, trivial⟩
    · simp only [Function.update_of_ne hq] at hu ⊢
      exact .inl ⟨hu, trivial⟩

theorem PhasedStep.now_le (h : PhasedStep config w a w') : w.base.now ≤ w'.base.now := by
  cases h with
  | base b s hs => exact Rows.now_le (step_cases hs)
  | read | update | select | delete => exact le_rfl

theorem PhasedStep.committed_subset (h : PhasedStep config w a w') {e : RawEvent}
    (he : e ∈ w.base.committed) : e ∈ w'.base.committed := by
  cases h with
  | base b s hs => exact History.committed_subset (step_cases hs) he
  | read | update | select | delete => exact he

theorem PhasedStep.issued_subset (h : PhasedStep config w a w') {i : DeliveryRow}
    (hi : i ∈ w.base.issued) : i ∈ w'.base.issued := by
  cases h with
  | base b s hs => exact History.issued_subset (step_cases hs) hi
  | read | update | select | delete => exact hi

theorem PhasedStep.wf (hw : WF config w.base) (h : PhasedStep config w a w') :
    WF config w'.base := by
  cases h with
  | base b s hs => exact wf_step hw (step_cases hs)
  | read | select => exact hw
  | update p u => exact wf_update hw _ _
  | delete p x => exact wf_deleteEvents hw _

theorem phasedWF_step (hi : PhasedWF config w) (h : PhasedStep config w a w') :
    PhasedWF config w' where
  wf := h.wf hi.wf
  released := by
    cases h with
    | base b s hs => exact released_step hi.wf hi.released (step_cases hs)
    | read | select => exact hi.released
    | update p u => exact released_apply hi.released _ u
    | delete p x => exact fun d r hr => hi.released d r (get_of_deleteEvents hr)
  selected := by
    intro p u hu
    rcases h.pending hu with ⟨hold, hnow⟩ | ⟨hbase, hnow, hrow, hlim⟩
    · obtain ⟨e, he, hk, hlim⟩ := hi.selected p u hold
      exact ⟨e, h.committed_subset he, hk, by rwa [hnow]⟩
    · obtain ⟨e, he, hk, hev⟩ := event_of_row hi.wf (Table.get_of_mem hrow)
      rw [hnow]
      exact ⟨e, hbase ▸ he, hk, fun db hdb => (hungLimit_congr (hdb.trans hev.symm)).trans hlim⟩
  external := by
    intro p u hu
    rcases h.pending hu with ⟨hold, -⟩ | ⟨hbase, -, hrow, hlim⟩
    · obtain ⟨hmode, i, hm, hid⟩ := hi.external p u hold
      exact ⟨hmode, i, h.issued_subset hm, hid⟩
    · rw [hbase]
      exact ⟨(externalPending_of_hungLimit hlim).1, hi.wf.issued.row _ hrow⟩
  past := by
    intro p u hu
    rcases h.pending hu with ⟨hold, hnow⟩ | ⟨hbase, hnow, -⟩
    · rw [hnow]
      exact (hi.past p u hold).trans h.now_le
    · rw [hnow, hbase]

theorem phasedWF_start (now : Time) {scheds : ℕ → Sched} (hq : Quiet scheds) :
    PhasedWF config (start now scheds) where
  wf := wf_init now hq
  released := fun d r hr => by cases hr
  selected := by simp [start]
  external := by simp [start]
  past := by simp [start]

theorem phasedWF_of_run {ok : Phased → PhasedAction → Phased → Prop} {w₀ : Phased}
    (h0 : PhasedWF config w₀) (h : Run (phasedStep config) ok w₀ w) : PhasedWF config w :=
  h.invariant (PhasedWF config) h0 fun _ _ _ hi hs _ => phasedWF_step hi (phasedStep_cases hs)

/-! ### Steps of the system -/

/-- Nobody has written the row since the sweep read it. -/
def Untouched (w : Phased) : PhasedAction → Prop
  | .update p d =>
    ∀ u ∈ (w.sweeps p).rows, u.row.id = d → ∀ r ∈ w.base.db.deliveries.get d, r = u.row
  | _ => True

instance (w : Phased) (a : PhasedAction) : Decidable (Untouched w a) :=
  match a with
  | .update p d => inferInstanceAs (Decidable (∀ u ∈ (w.sweeps p).rows, u.row.id = d →
      ∀ r ∈ w.base.db.deliveries.get d, r = u.row))
  | .base _ | .read _ | .select _ _ _ _ | .delete _ => .isTrue trivial

/-- The action of the system that the step stands for. -/
def moves? (w : Phased) : PhasedAction → Option Action
  | .base a => some a
  | .read _ | .select _ _ _ _ => none
  | .update _ _ => some .sweep
  | .delete p => (w.deletions p).map fun x =>
    .retention x.deadLetterCutoff x.processedCutoff x.batchLimit

omit [Crates] in
theorem eq_base_of_moves? {b : Action} (h : moves? w a = some b) (hb : inPhases b = false) :
    a = .base b := by
  cases a with
  | base b' => rw [Option.some.inj h]
  | read | select => cases h
  | update =>
    cases h
    cases hb
  | delete p =>
    obtain ⟨x, -, rfl⟩ := Option.map_eq_some_iff.mp h
    cases hb

/-- A row that nobody has written is hung as it was. -/
theorem hung_of_untouched (hi : PhasedWF config w) {p : ℕ} {u : ToUpdate}
    (hu : u ∈ (w.sweeps p).rows) (hr : w.base.db.deliveries.get u.row.id = some u.row) :
    hungLimit w.base.db (w.sweeps p).now (asI32 config.maxCompletionCycles) u.row =
      some (some u.maxCycles) := by
  obtain ⟨e, he, hk, hlim⟩ := hi.selected p u hu
  obtain ⟨e', he', hk', hev⟩ := event_of_row hi.wf hr
  rw [hi.wf.events.eq_of_eventId he' he (hk'.trans hk.symm)] at hev
  exact hlim w.base.db hev

theorem sweeps_rowUpdate (hi : PhasedWF config w) {p : ℕ} {u : ToUpdate}
    (hu : u ∈ (w.sweeps p).rows) (hun : Untouched w (.update p u.row.id)) :
    Sweeps w.base.db (w.sweeps p).now (asI32 config.maxCompletionCycles)
      (u.rowUpdate (w.sweeps p).now) (u.obs w.base.db) where
  row := by
    intro r hr
    by_cases hid : r.id = u.row.id
    · have hget : w.base.db.deliveries.get u.row.id = some r := Table.get_eq_some_iff.mpr ⟨hr, hid⟩
      obtain rfl := hun u hu rfl r hget
      refine .inr ⟨u.maxCycles, hung_of_untouched hi hu hget, ?_, ?_⟩
      · exact (if_pos rfl).trans (u.assign_row _)
      · simp [ToUpdate.obs, hget]
    · exact .inl ⟨if_neg hid, fun ho => hid (Obs.sweepReset.inj (ToUpdate.mem_obs ho).1)⟩
  obs := by
    intro o ho
    obtain ⟨rfl, hsome⟩ := ToUpdate.mem_obs ho
    obtain ⟨r, hr⟩ := Option.isSome_iff_exists.mp hsome
    obtain ⟨hm, hid⟩ := Table.get_eq_some_iff.mp hr
    exact ⟨r, hm, by rw [hid]⟩

/-- What a step does to the system: nothing, a step of it, or the update of a row that may have been
written since it was read. -/
theorem base_cases (h : PhasedStep config w a w') :
    (moves? w a = none ∧ w'.base = w.base) ∨
      (∃ b, moves? w a = some b ∧ Step config w.base b w'.base) ∨
      ∃ p, ∃ u ∈ (w.sweeps p).rows, a = .update p u.row.id ∧
        w'.base = u.apply (w.sweeps p).now w.base := by
  cases h with
  | base b s hs => exact .inr (.inl ⟨b, rfl, step_cases hs⟩)
  | read => exact .inl ⟨rfl, rfl⟩
  | update p u hm => exact .inr (.inr ⟨p, u, hm, rfl, rfl⟩)
  | select => exact .inl ⟨rfl, rfl⟩
  | delete p x hx => exact .inr (.inl ⟨_, by rw [moves?, hx]; rfl, .retention _ _ _ _⟩)

theorem PhasedStep.deliverySeq_le (h : PhasedStep config w a w') :
    w.base.db.deliverySeq ≤ w'.base.db.deliverySeq := by
  rcases base_cases h with ⟨-, hsame⟩ | ⟨b, -, hs⟩ | ⟨p, u, -, -, hbase⟩
  · rw [hsame]
  · exact Rows.deliverySeq_le hs
  · rw [hbase]
    exact le_rfl

/-- **Every step is one of the system**, or leaves it alone, where nobody has written the row. -/
theorem phased_cases (hi : PhasedWF config w) (h : PhasedStep config w a w') (hu : Untouched w a) :
    (moves? w a = none ∧ w'.base = w.base) ∨
      ∃ b, moves? w a = some b ∧ Step config w.base b w'.base := by
  rcases base_cases h with hsame | hmove | ⟨p, u, hm, rfl, hbase⟩
  · exact .inl hsame
  · exact .inr hmove
  · rw [hbase]
    exact .inr ⟨.sweep, rfl, .sweep _ _ _ (hi.past p u hm) (sweeps_rowUpdate hi hm hu)⟩

/-- What stands under the id of a row that a sweep has selected is external as that row was. -/
theorem external_of_selected (hi : PhasedWF config w) {p : ℕ} {u : ToUpdate}
    (hu : u ∈ (w.sweeps p).rows) {r : DeliveryRow}
    (hr : w.base.db.deliveries.get u.row.id = some r) : r.completionMode = .external := by
  obtain ⟨hmode, i, hm, hid⟩ := hi.external p u hu
  have hiu : i.id = u.row.id := congrArg (·.1) hid
  have hru : r.ident = u.row.ident := (ident_of_get hi.wf hm (hiu ▸ hr)).trans hid
  have hcm : r.completionMode = u.row.completionMode := congrArg (·.2.2.2.1) hru
  exact hcm.trans hmode

/-- **Invariants over every run** are those that the steps of the system keep, and the updates of a
sweep, also of a row that has been written since it was read. -/
theorem phased_invariant {ok : Phased → PhasedAction → Phased → Prop} (I : Sys → Prop)
    {w₀ : Phased} (hw₀ : PhasedWF config w₀) (h0 : I w₀.base)
    (hstep : ∀ w a b w', PhasedWF config w → I w.base → moves? w a = some b →
      Step config w.base b w'.base → ok w a w' → I w'.base)
    (hupdate : ∀ w p, PhasedWF config w → I w.base → ∀ u ∈ (w.sweeps p).rows,
      I (u.apply (w.sweeps p).now w.base))
    (h : Run (phasedStep config) ok w₀ w) : PhasedWF config w ∧ I w.base := by
  refine h.invariant (fun w => PhasedWF config w ∧ I w.base) ⟨hw₀, h0⟩ ?_
  rintro w a w' ⟨hi, hw⟩ hs hok
  refine ⟨phasedWF_step hi (phasedStep_cases hs), ?_⟩
  rcases base_cases (phasedStep_cases hs) with ⟨-, hsame⟩ | ⟨b, hb, hmove⟩ | ⟨p, u, hu, -, hbase⟩
  · rwa [hsame]
  · exact hstep w a b w' hi hw hb hmove hok
  · rw [hbase]
    exact hupdate w p hi hw u hu

/-- The step is no admin retry that resets the row `d`. -/
def NotReset (d : ℤ) (w : Phased) (a : PhasedAction) (_ : Phased) : Prop :=
  (moves? w a).bind retries? = some d → (retryDelivery w.base.db w.base.now d).2 ≠ .reset

instance (d : ℤ) (w : Phased) (a : PhasedAction) (w' : Phased) : Decidable (NotReset d w a w') :=
  inferInstanceAs (Decidable (_ → _))

omit [Crates] in
/-- A step that is no such retry does not reset the row by one. -/
theorem not_retried {d : ℤ} (hno : NotReset d w a w') (ha : moves? w a = some (.retry d))
    {r : DeliveryRow}
    (hr : w.base.db.deliveries.get d = some r) : ¬Stmt.retryDelivery.guard w.base.now r := by
  intro hg
  have haff : Stmt.retryDelivery.affects w.base.db w.base.now d :=
    (Stmt.affects_iff _).mpr ⟨r, hr, hg⟩
  exact hno (by rw [ha]; rfl) (by simp [retryDelivery, haff])

/-- The condition on the steps of the system, and that nobody writes a row under a sweep. -/
def Lifted (ok : Sys → Action → Sys → Prop) (w : Phased) (a : PhasedAction) (w' : Phased) : Prop :=
  Untouched w a ∧ ∀ b ∈ moves? w a, ok w.base b w'.base

instance (ok : Sys → Action → Sys → Prop) [∀ s a s', Decidable (ok s a s')] (w : Phased)
    (a : PhasedAction) (w' : Phased) : Decidable (Lifted ok w a w') :=
  inferInstanceAs (Decidable (_ ∧ _))

/-- **Invariants of the system** under a condition hold in the phased system. -/
theorem invariant_of_lifted {ok : Sys → Action → Sys → Prop} (I : Sys → Prop) {now : Time}
    {scheds : ℕ → Sched} (hq : Quiet scheds) (h0 : I (init now scheds))
    (hstep : ∀ s a s', I s → Step config s a s' → ok s a s' → I s')
    (h : Run (phasedStep config) (Lifted ok) (start now scheds) w) : I w.base := by
  have hinv : PhasedWF config w ∧ I w.base := by
    refine h.invariant (fun w => PhasedWF config w ∧ I w.base) ⟨phasedWF_start now hq, h0⟩ ?_
    rintro w a w' ⟨hi, hw⟩ hs ⟨hu, hok⟩
    refine ⟨phasedWF_step hi (phasedStep_cases hs), ?_⟩
    rcases phased_cases hi (phasedStep_cases hs) hu with ⟨-, hsame⟩ | ⟨b, hb, hmove⟩
    · rw [hsame]
      exact hw
    · exact hstep _ _ _ hw hmove (hok b hb)
  exact hinv.2

end

end OutboxDispatcher.System.Phases
