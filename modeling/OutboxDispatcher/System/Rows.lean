import OutboxDispatcher.System.History

/-! # What a step can do to a delivery row, and what is seen of it

`row_step` lists, for one delivery id, every way the row under it can change in a step: who writes
it, with which statement, and under which condition. A row that is inserted is under a new id, and
no other step but retention takes a row away. `trace_step` lists what a step adds to the trace, and
when. -/

namespace OutboxDispatcher.System.Rows

open OutboxDispatcher.Lib.Tables OutboxDispatcher.Schema OutboxDispatcher.Callbacks.Fields
open OutboxDispatcher.Repo.Database OutboxDispatcher.Repo.Database.Db
  OutboxDispatcher.Repo.Statements
open OutboxDispatcher.Scheduler.Pass OutboxDispatcher.Dispatch OutboxDispatcher.System
open OutboxDispatcher.System.Effects OutboxDispatcher.System.History

/-- The row `d` is reset for another delivery. -/
def isReset (d : ℤ) : Obs → Bool
  | .retryReset d' | .sweepReset d' => d' = d
  | _ => false

variable [Crates]

/-- The row under the id `d`, before and after a step. -/
inductive RowStep (config : DispatchConfig) (s : Sys) (d : ℤ) :
    Action → Option DeliveryRow → Option DeliveryRow → Prop
  | keep (a : Action) (r : Option DeliveryRow) : RowStep config s d a r r
  | inserted (p : ℕ) (b : SchedAction) (u : Uuid) (n : NewDelivery) (hd : s.db.deliverySeq ≤ d) :
      RowStep config s d (.sched p b) none (some (n.row d u s.now))
  | poisoned (t : Task) (fault : Fault) (reason : String) (r : DeliveryRow) (ht : t ∈ s.tasks.rows)
      (hp : t.phase = .fetched) (hd : t.row.deliveryId = d)
      (he : examineRow config t.row = .error reason) :
      RowStep config s d (.task t.tid (.examine fault)) (some r)
        (some ((Stmt.deadLetterPoison reason).assign s.now r))
  | locked (t : Task) (fault : Fault) (due : DueDelivery) (lockUntil : Time) (r : DeliveryRow)
      (ht : t ∈ s.tasks.rows) (hp : t.phase = .locking due lockUntil) (hd : due.deliveryId = d)
      (hg : (Stmt.lockDelivery lockUntil).guard s.now r) :
      RowStep config s d (.task t.tid (.lock fault)) (some r)
        (some ((Stmt.lockDelivery lockUntil).assign s.now r))
  | wroteBack (t : Task) (fault : Fault) (due : DueDelivery) (lockUntil : Time) (stmt : Stmt)
      (r : DeliveryRow) (ht : t ∈ s.tasks.rows) (hp : t.phase = .writing due lockUntil stmt)
      (hd : due.deliveryId = d) (hf : fault ≠ .lost) (hg : stmt.guard s.now r) :
      RowStep config s d (.task t.tid (.writeBack fault)) (some r) (some (stmt.assign s.now r))
  | swept (maxCycles : ℤ) (r : DeliveryRow)
      (h : hungLimit s.db s.now (asI32 config.maxCompletionCycles) r = some (some maxCycles))
      (t : Time) (ht : t ≤ s.now) :
      RowStep config s d .sweep (some r) (some (sweepRow t maxCycles r))
  | retried (r : DeliveryRow) (hg : Stmt.retryDelivery.guard s.now r) :
      RowStep config s d (.retry d) (some r) (some (Stmt.retryDelivery.assign s.now r))
  | completed (r : DeliveryRow) :
      RowStep config s d (.complete d) (some r) (some (Stmt.completeDelivery.assign s.now r))
  | abandoned (r : DeliveryRow) :
      RowStep config s d (.abandon d) (some r) (some (Stmt.abandonDelivery.assign s.now r))
  | deleted (deadLetterCutoff processedCutoff : Time) (n : ℤ) (r : DeliveryRow) :
      RowStep config s d (.retention deadLetterCutoff processedCutoff n) (some r) none

variable {config : DispatchConfig} {s s' : Sys} {a : Action}

theorem rowStep_exec {c : Stmt} {d id : ℤ}
    (h : ∀ r, d = id → s.db.deliveries.get d = some r → c.guard s.now r →
      RowStep config s d a (some r) (some (c.assign s.now r))) :
    RowStep config s d a (s.db.deliveries.get d) ((c.exec s.db s.now id).deliveries.get d) := by
  rw [Stmt.get_exec]
  rcases hr : s.db.deliveries.get d with _ | r
  · exact .keep _ _
  · rw [Option.map_some]
    split_ifs with hc
    · exact h r hc.1 hr hc.2
    · exact .keep _ _

theorem rowStep_insert {db' : Db} {u : Uuid} {new : List NewDelivery} {p : ℕ} {b : SchedAction}
    (h : InsertSpec s.db db' s.now u new) (d : ℤ) :
    RowStep config s d (.sched p b) (s.db.deliveries.get d) (db'.deliveries.get d) := by
  rcases hr : s.db.deliveries.get d with _ | r
  · rcases hr' : db'.deliveries.get d with _ | r'
    · exact .keep _ _
    · rcases h.get_cases hr' with hold | ⟨hid, hi⟩
      · rw [hr] at hold; cases hold
      · obtain ⟨n, -, hn⟩ := hi.first
        rw [hn, hid]
        exact .inserted p b u n (hid ▸ hi.fresh)
  · rw [h.get_of_some hr]; exact .keep _ _

theorem rowStep_task {t : Task} {b : TaskAction} {db' : Db} {phase : Option Phase} {obs : List Obs}
    (ht : t ∈ s.tasks.rows) (h : TaskStep config s.now s.db t b db' phase obs) (d : ℤ) :
    RowStep config s d (.task t.tid b) (s.db.deliveries.get d) (db'.deliveries.get d) := by
  cases h with
  | poisoned fault reason hp he =>
    exact rowStep_exec fun r hd _ _ => .poisoned t fault reason r ht hp hd.symm he
  | lock due lockUntil hp | lockUnacked due lockUntil hp | lockRefused fault due lockUntil hp =>
    exact rowStep_exec fun r hd _ hg => .locked t _ due lockUntil r ht hp hd.symm hg
  | wroteBack fault due lockUntil stmt hp hf =>
    exact rowStep_exec fun r hd _ hg => .wroteBack t fault due lockUntil stmt r ht hp hd.symm hf hg
  | _ => exact .keep _ _

/-- **Every step does one of these to a row.** -/
theorem row_step (h : Step config s a s') (d : ℤ) :
    RowStep config s d a (s.db.deliveries.get d) (s'.db.deliveries.get d) := by
  cases h with
  | commit e db he hc =>
    rw [show db.deliveries = s.db.deliveries from hc.deliveries]; exact .keep _ _
  | sched p b db sch hs =>
    rcases schedStep_inserts hs with rfl | ⟨c, l, w, writes, -, -, hi⟩
    · exact .keep _ _
    · exact rowStep_insert hi d
  | task t b db phase obs ht hs => exact rowStep_task ht hs d
  | sweep t f obs ht hsw =>
    show RowStep config s d .sweep _ ((s.db.update f).deliveries.get d)
    rw [get_update]
    rcases hr : s.db.deliveries.get d with _ | r
    · exact .keep _ _
    · rw [Option.map_some]
      rcases hsw.row r (Table.mem_of_get hr) with ⟨hset, -⟩ | ⟨maxCycles, hl, hset, -⟩
      · rw [hset]
        exact .keep _ _
      · rw [hset]
        exact .swept maxCycles r (hungLimit_mono hl ht) t ht
  | retry d' => exact rowStep_exec fun r hd _ hg => hd ▸ .retried r hg
  | complete d' => exact rowStep_exec fun r hd _ _ => hd ▸ .completed r
  | abandon d' => exact rowStep_exec fun r hd _ _ => hd ▸ .abandoned r
  | retention deadLetterCutoff processedCutoff n p =>
    rcases hr' : (s.db.deleteEvents _).deliveries.get d with _ | r'
    · rcases hr : s.db.deliveries.get d with _ | r
      · exact .keep _ _
      · exact .deleted _ _ _ r
    · rw [get_of_deleteEvents hr']; exact .keep _ _
  | _ => exact .keep _ _

/-! ### The clock and the sequence -/

theorem now_le (h : Step config s a s') : s.now ≤ s'.now := by
  cases h with
  | tick d => exact Int.le_add_of_nonneg_right (Int.natCast_nonneg d)
  | _ => exact le_rfl

theorem deliverySeq_le (h : Step config s a s') : s.db.deliverySeq ≤ s'.db.deliverySeq := by
  by_cases ha : ∀ r b, a ≠ .sched r b
  · exact (noInsert_step h ha).1.seq.ge
  · push Not at ha
    obtain ⟨r, b, rfl⟩ := ha
    rcases Step.sched_inserts h with hdb | ⟨c, l, w, writes, -, -, hi⟩
    · rw [hdb]
    · exact hi.seq_le

/-! ### The trace -/

/-- What an observation says of the step it belongs to. -/
inductive ObsStep (s s' : Sys) : Action → Obs → Prop
  | locked (t : Task) (fault : Fault) (due : DueDelivery) (lockUntil : Time) (ht : t ∈ s.tasks.rows)
      (hp : t.phase = .locking due lockUntil)
      (hg : (Stmt.lockDelivery lockUntil).affects s.db s.now due.deliveryId)
      (hdb : s'.db = (Stmt.lockDelivery lockUntil).exec s.db s.now due.deliveryId) :
      ObsStep s s' (.task t.tid (.lock fault)) (.locked t.tid due.deliveryId)
  | deliver (t : Task) (due : DueDelivery) (lockUntil : Time) (ht : t ∈ s.tasks.rows)
      (hp : t.phase = .locked due lockUntil) :
      ObsStep s s' (.task t.tid .deliver) (.deliver t.tid (buildEventForDelivery due))
  | respond (t : Task) (due : DueDelivery) (lockUntil : Time) (result : CallbackResult) (jitter : ℚ)
      (ht : t ∈ s.tasks.rows) (hp : t.phase = .delivering due lockUntil) :
      ObsStep s s' (.task t.tid (.respond result jitter)) (.respond t.tid due.deliveryId result)
  | wroteBack (t : Task) (fault : Fault) (due : DueDelivery) (lockUntil : Time) (stmt : Stmt)
      (ht : t ∈ s.tasks.rows) (hp : t.phase = .writing due lockUntil stmt) (hf : fault ≠ .lost)
      (hdb : s'.db = stmt.exec s.db s.now due.deliveryId) :
      ObsStep s s' (.task t.tid (.writeBack fault)) (.wroteBack t.tid due.deliveryId stmt)
  | sweepReset (d : ℤ) : ObsStep s s' .sweep (.sweepReset d)
  | retryReset (d : ℤ) (hg : Stmt.retryDelivery.affects s.db s.now d) :
      ObsStep s s' (.retry d) (.retryReset d)
  | scheduled (p : ℕ) (c : ℤ) (l : Loop) (hs : s.scheds p = .running c l) (hw : l.writes = []) :
      ObsStep s s' (.sched p .next) (.scheduled p l.event.eventId)

/-- **What a step adds to the trace.** -/
theorem trace_step (h : Step config s a s') :
    ∃ obs, s'.trace = obs ++ s.trace ∧ ∀ o ∈ obs, ObsStep s s' a o := by
  cases h with
  | sched p b db sch hs =>
    refine ⟨_, rfl, fun o ho => ?_⟩
    generalize hsch : s.scheds p = old at hs ho
    cases hs with
    | next c l e rest hw hr | finish c l hw hr =>
      rw [schedObs, List.mem_singleton] at ho
      rw [ho]
      exact .scheduled p c l hsch hw
    | _ => simp [schedObs] at ho
  | task t b db phase obs ht hs =>
    refine ⟨obs, rfl, fun o ho => ?_⟩
    cases hs with
    | lock due lockUntil hp hg | lockUnacked due lockUntil hp hg =>
      rw [List.mem_singleton.mp ho]; exact .locked t _ due lockUntil ht hp hg rfl
    | deliver due lockUntil hp =>
      rw [List.mem_singleton.mp ho]; exact .deliver t due lockUntil ht hp
    | respond due lockUntil result jitter hp =>
      rw [List.mem_singleton.mp ho]; exact .respond t due lockUntil result jitter ht hp
    | wroteBack fault due lockUntil stmt hp hf =>
      rw [List.mem_singleton.mp ho]; exact .wroteBack t fault due lockUntil stmt ht hp hf rfl
    | _ => simp at ho
  | sweep t f obs ht hsw =>
    refine ⟨obs, rfl, fun o ho => ?_⟩
    obtain ⟨r, -, rfl⟩ := hsw.obs o ho
    exact .sweepReset r.id
  | retry d =>
    refine ⟨_, rfl, fun o ho => ?_⟩
    split_ifs at ho with hg
    · rw [List.mem_singleton.mp ho]; exact .retryReset d hg
    · simp at ho
  | _ => exact ⟨[], rfl, by simp⟩

def newObs (s s' : Sys) : List Obs := s'.trace.take (s'.trace.length - s.trace.length)

omit [Crates] in
theorem newObs_eq {obs : List Obs} (htr : s'.trace = obs ++ s.trace) : newObs s s' = obs := by
  rw [newObs, htr]
  simp

/-- A row that the sweep resets for another delivery is seen. -/
theorem mem_obs_sweep {d : ℤ} {obs : List Obs} {r r' : DeliveryRow} (h : Step config s .sweep s')
    (htr : s'.trace = obs ++ s.trace) (hr : s.db.deliveries.get d = some r)
    (hr' : s'.db.deliveries.get d = some r') (hd : r.dispatchedAt.isSome)
    (hd' : r'.dispatchedAt = none) : .sweepReset d ∈ obs := by
  cases h with
  | sweep t f obs' ht hsw =>
    rw [← List.append_cancel_right htr]
    rw [get_update, hr, Option.map_some, Option.some.injEq] at hr'
    obtain ⟨hm, rfl⟩ := Table.get_eq_some_iff.mp hr
    rcases hsw.row r hm with ⟨hset, -⟩ | ⟨maxCycles, -, hset, hseen⟩
    · rw [← hr', hset] at hd'
      rw [hd'] at hd
      cases hd
    · refine hseen.mpr (not_le.mp fun hc => ?_)
      rw [← hr', hset, sweepRow, if_pos hc] at hd'
      rw [show r.dispatchedAt = none from hd'] at hd
      cases hd

/-- A retry that resets a row is seen. -/
theorem mem_obs_retry {d : ℤ} {obs : List Obs} {r : DeliveryRow} (h : Step config s (.retry d) s')
    (htr : s'.trace = obs ++ s.trace) (hr : s.db.deliveries.get d = some r)
    (hg : Stmt.retryDelivery.guard s.now r) : .retryReset d ∈ obs := by
  have haff : Stmt.retryDelivery.affects s.db s.now d := (Stmt.affects_iff _).mpr ⟨r, hr, hg⟩
  cases h with
  | retry =>
    rw [if_pos haff] at htr
    simp [← List.append_cancel_right htr]

/-! ### Locks -/

/-- The lock that the step takes: by whom, and for which delivery. -/
def locks? (s : Sys) : Action → Option (Task × DueDelivery)
  | .task tid (.lock fault) => do
    let t ← s.tasks.get tid
    match t.phase with
    | .locking due lockUntil =>
      if fault ≠ .lost ∧ (lockDelivery s.db s.now due.deliveryId lockUntil).2 then some (t, due)
      else none
    | _ => none
  | _ => none

omit [Crates] in
theorem locks?_eq_some {t : Task} {due : DueDelivery} (h : locks? s a = some (t, due)) :
    t ∈ s.tasks.rows ∧ ∃ fault u r, a = .task t.tid (.lock fault) ∧ fault ≠ .lost ∧
      t.phase = .locking due u ∧ s.db.deliveries.get due.deliveryId = some r ∧
      (Stmt.lockDelivery u).guard s.now r := by
  unfold locks? at h
  split at h
  · next tid fault =>
    obtain ⟨t', ht', h⟩ := Option.bind_eq_some_iff.mp h
    split at h
    · next due' u hp =>
      split_ifs at h with hg
      cases h
      obtain ⟨hf, hg⟩ := hg
      obtain ⟨r, hr, hg⟩ := (Stmt.affects_iff _).mp hg
      exact ⟨Table.mem_of_get ht', fault, u, r, by rw [Table.key_of_get ht'], hf, hp, hr, hg⟩
    · cases h
  · cases h

end OutboxDispatcher.System.Rows
