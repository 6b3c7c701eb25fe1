import OutboxDispatcher.System

/-! # What a step can do

One inversion lemma for each machine: the scheduling process (`SchedStep`), the task of a dispatcher
(`TaskStep`), the whole system (`Step`). They list every case of the step functions with its guards,
and the invariants of the following modules are proved by cases on them.

`DbStep` says it about the database alone: unless an event is committed, the delivery rows are left
alone, updated or inserted, or events are deleted. -/

namespace OutboxDispatcher.System.Effects

open OutboxDispatcher.Lib.Tables OutboxDispatcher.Schema OutboxDispatcher.Callbacks.Fields
open OutboxDispatcher.Repo.Database OutboxDispatcher.Repo.Database.Db
  OutboxDispatcher.Repo.Statements
open OutboxDispatcher.Scheduler.Pass OutboxDispatcher.Dispatch OutboxDispatcher.System

section

variable [Crates] {config : DispatchConfig}

/-! ### Scheduling processes -/

/-- The cases of `Sched.step`. -/
inductive SchedStep (config : DispatchConfig) (now : Time) (db : Db) :
    Sched → SchedAction → Db → Sched → Prop
  | recover : SchedStep config now db .down .recover db (.idle (recoverCursor db))
  | rescan (c : ℤ) : SchedStep config now db .down (.rescan c) db (.idle c)
  /-- There is nothing above the cursor, or the query fails. -/
  | pollEmpty (c : ℤ) : SchedStep config now db (.idle c) .poll db (.idle c)
  | poll (c : ℤ) (e : RawEvent) (rest : List RawEvent)
      (h : fetchNewEvents db c config.scheduleBatchSize = some (e :: rest)) :
      SchedStep config now db (.idle c) .poll db (.running c (.start config e rest))
  | write (c : ℤ) (l : Loop) (w : Write) (writes : List Write) (db' : Db)
      (hw : l.writes = w :: writes) (h : w.exec db now l.event.eventId = some db') :
      SchedStep config now db (.running c l) (.write .ok) db' (.running c { l with writes })
  | writeUnacked (c : ℤ) (l : Loop) (w : Write) (writes : List Write) (db' : Db)
      (hw : l.writes = w :: writes) (h : w.exec db now l.event.eventId = some db') :
      SchedStep config now db (.running c l) (.write .unacked) db' (.idle c)
  /-- The write fails, and the pass with it. -/
  | writeFailed (c : ℤ) (l : Loop) (fault : Fault) :
      SchedStep config now db (.running c l) (.write fault) db (.idle c)
  | next (c : ℤ) (l : Loop) (e : RawEvent) (rest : List RawEvent) (hw : l.writes = [])
      (hr : l.rest = e :: rest) :
      SchedStep config now db (.running c l) .next db (.running c (.start config e rest))
  | finish (c : ℤ) (l : Loop) (hw : l.writes = []) (hr : l.rest = []) :
      SchedStep config now db (.running c l) .next db (.idle l.event.id)
  | crash (sch : Sched) : SchedStep config now db sch .crash db .down

theorem schedStep_of_step {now : Time} {db db' : Db} {sch sch' : Sched} {a : SchedAction}
    (h : sch.step config now db a = some (db', sch')) : SchedStep config now db sch a db' sch' := by
  cases sch with
  | down =>
    cases a <;> simp only [Sched.step, Option.some.injEq, Prod.mk.injEq, reduceCtorEq] at h <;>
      obtain ⟨rfl, rfl⟩ := h <;> constructor
  | idle c =>
    cases a with
    | poll =>
      simp only [Sched.step] at h
      split at h
      · next e rest hf =>
        obtain ⟨rfl, rfl⟩ := Prod.mk.inj (Option.some.inj h)
        exact .poll c e rest hf
      · obtain ⟨rfl, rfl⟩ := Prod.mk.inj (Option.some.inj h)
        exact .pollEmpty c
    | crash =>
      obtain ⟨rfl, rfl⟩ := Prod.mk.inj (Option.some.inj h)
      exact .crash _
    | _ => simp [Sched.step] at h
  | running c l =>
    cases a with
    | write fault =>
      simp only [Sched.step] at h
      split at h
      · cases h
      · next w writes hw =>
        split at h
        · next db₁ hx =>
          obtain ⟨rfl, rfl⟩ := Prod.mk.inj (Option.some.inj h)
          exact .write c l w writes _ hw hx
        · next db₁ hx =>
          obtain ⟨rfl, rfl⟩ := Prod.mk.inj (Option.some.inj h)
          exact .writeUnacked c l w writes _ hw hx
        · obtain ⟨rfl, rfl⟩ := Prod.mk.inj (Option.some.inj h)
          exact .writeFailed c l _
    | next =>
      simp only [Sched.step] at h
      split at h
      · next hw hr =>
        obtain ⟨rfl, rfl⟩ := Prod.mk.inj (Option.some.inj h)
        exact .finish c l hw hr
      · next e rest hw hr =>
        obtain ⟨rfl, rfl⟩ := Prod.mk.inj (Option.some.inj h)
        exact .next c l e rest hw hr
      · cases h
    | crash =>
      obtain ⟨rfl, rfl⟩ := Prod.mk.inj (Option.some.inj h)
      exact .crash _
    | _ => simp [Sched.step] at h

/-! ### Tasks -/

/-- The task ends without having done anything: a crash, or a statement that is not applied. -/
def drops : Phase → TaskAction → Bool
  | _, .crash | .fetched, .examine .lost | .locking _ _, .lock .lost
  | .writing _ _ _, .writeBack .lost =>
    true
  | _, _ => false

/-- The cases of `Task.step`. -/
inductive TaskStep (config : DispatchConfig) (now : Time) (db : Db) (t : Task) :
    TaskAction → Db → Option Phase → List Obs → Prop
  | dropped (a : TaskAction) (h : drops t.phase a) : TaskStep config now db t a db none []
  | examined (fault : Fault) (due : DueDelivery) (hp : t.phase = .fetched)
      (h : examineRow config t.row = .ok due) :
      TaskStep config now db t (.examine fault) db (some (.ready due)) []
  | poisoned (fault : Fault) (reason : String) (hp : t.phase = .fetched)
      (h : examineRow config t.row = .error reason) :
      TaskStep config now db t (.examine fault)
        ((Stmt.deadLetterPoison reason).exec db now t.row.deliveryId) none []
  | computeLock (due : DueDelivery) (lockUntil : Time) (hp : t.phase = .ready due)
      (h : computeLockUntil now due.target.timeout config.lockBuffer = some lockUntil) :
      TaskStep config now db t .computeLock db (some (.locking due lockUntil)) []
  | lockPanicked (due : DueDelivery) (hp : t.phase = .ready due)
      (h : computeLockUntil now due.target.timeout config.lockBuffer = none) :
      TaskStep config now db t .computeLock db none []
  | lock (due : DueDelivery) (lockUntil : Time) (hp : t.phase = .locking due lockUntil)
      (hg : (Stmt.lockDelivery lockUntil).affects db now due.deliveryId) :
      TaskStep config now db t (.lock .ok)
        ((Stmt.lockDelivery lockUntil).exec db now due.deliveryId)
        (some (.locked due lockUntil)) [.locked t.tid due.deliveryId]
  | lockUnacked (due : DueDelivery) (lockUntil : Time) (hp : t.phase = .locking due lockUntil)
      (hg : (Stmt.lockDelivery lockUntil).affects db now due.deliveryId) :
      TaskStep config now db t (.lock .unacked)
        ((Stmt.lockDelivery lockUntil).exec db now due.deliveryId) none
        [.locked t.tid due.deliveryId]
  | lockRefused (fault : Fault) (due : DueDelivery) (lockUntil : Time)
      (hp : t.phase = .locking due lockUntil)
      (hg : (Stmt.lockDelivery lockUntil).affects db now due.deliveryId = false) :
      TaskStep config now db t (.lock fault)
        ((Stmt.lockDelivery lockUntil).exec db now due.deliveryId) none []
  | deliver (due : DueDelivery) (lockUntil : Time) (hp : t.phase = .locked due lockUntil) :
      TaskStep config now db t .deliver db (some (.delivering due lockUntil))
        [.deliver t.tid (buildEventForDelivery due)]
  | respond (due : DueDelivery) (lockUntil : Time) (result : CallbackResult) (jitter : ℚ)
      (hp : t.phase = .delivering due lockUntil) :
      TaskStep config now db t (.respond result jitter) db
        ((writeBackStmt now jitter due result).map (.writing due lockUntil ·))
        [.respond t.tid due.deliveryId result]
  | wroteBack (fault : Fault) (due : DueDelivery) (lockUntil : Time) (stmt : Stmt)
      (hp : t.phase = .writing due lockUntil stmt) (hf : fault ≠ .lost) :
      TaskStep config now db t (.writeBack fault) (stmt.exec db now due.deliveryId) none
        [.wroteBack t.tid due.deliveryId stmt]

/-- The steps a task has before it. -/
def left : Phase → ℕ
  | .fetched => 6
  | .ready _ => 5
  | .locking _ _ => 4
  | .locked _ _ => 3
  | .delivering _ _ => 2
  | .writing _ _ _ => 1

omit [Crates] in
theorem left_pos (p : Phase) : 0 < left p := by
  cases p <;> exact Nat.succ_pos _

/-- **One step of a task** takes one of its steps, or more. -/
theorem left_step {now : Time} {db db' : Db} {t : Task} {b : TaskAction} {phase : Option Phase}
    {obs : List Obs} (h : TaskStep config now db t b db' phase obs) :
    (phase.map left).getD 0 < left t.phase := by
  cases h with
  | respond due u result jitter hp =>
    rw [hp]
    cases writeBackStmt now jitter due result <;> simp [left]
  | examined _ _ hp | computeLock _ _ hp | lock _ _ hp | deliver _ _ hp => simp [hp, left]
  | _ => exact left_pos _

/-- A task that is not yet past a phase was not past it before its step. -/
theorem earlier_of_taskStep {now : Time} {db db' : Db} {t : Task} {b : TaskAction} {p : Phase}
    {obs : List Obs} {n : ℕ} {early : Phase → Prop} (hearly : ∀ p, early p ↔ n ≤ left p)
    (h : TaskStep config now db t b db' (some p) obs) (hp : early p) : early t.phase :=
  (hearly _).mpr (((hearly p).mp hp).trans (left_step h).le)

theorem taskStep_of_step {now : Time} {db db' : Db} {t : Task} {a : TaskAction}
    {phase : Option Phase} {obs : List Obs} (h : t.step config now db a = some (db', phase, obs)) :
    TaskStep config now db t a db' phase obs := by
  unfold Task.step at h
  split at h
  · cases h; exact .dropped _ (by simp [drops])
  · next hp =>
    split at h
    · next due hd => cases h; exact .examined _ due hp hd
    · next reason hd =>
      split_ifs at h with hf
      · cases h; exact .dropped _ (by rw [hp, hf]; rfl)
      · cases h; exact .poisoned _ reason hp hd
  · next due hp =>
    cases hu : computeLockUntil now due.target.timeout config.lockBuffer with
    | none =>
      rw [hu] at h
      cases h; exact .lockPanicked due hp hu
    | some lockUntil =>
      rw [hu] at h
      cases h; exact .computeLock due lockUntil hp hu
  · next due lockUntil fault hp =>
    simp only [lockDelivery] at h
    by_cases hlost : fault = .lost
    · rw [if_pos hlost] at h
      cases h; exact .dropped _ (by rw [hp, hlost]; rfl)
    rw [if_neg hlost] at h
    cases hg : (Stmt.lockDelivery lockUntil).affects db now due.deliveryId with
    | false =>
      simp only [hg, Bool.false_eq_true, and_false, if_false] at h
      cases h; exact .lockRefused _ due lockUntil hp hg
    | true =>
      cases fault with
      | ok => simp only [hg, if_true, and_true] at h; cases h; exact .lock due lockUntil hp hg
      | lost => exact absurd rfl hlost
      | unacked =>
        simp only [hg, if_true, reduceCtorEq, false_and, if_false] at h
        cases h; exact .lockUnacked due lockUntil hp hg
  · next due lockUntil hp => cases h; exact .deliver due lockUntil hp
  · next due lockUntil result jitter hp => cases h; exact .respond due lockUntil result jitter hp
  · next due lockUntil stmt fault hp =>
    split_ifs at h with hf
    · cases h; exact .dropped _ (by rw [hp, hf]; rfl)
    · cases h; exact .wroteBack _ due lockUntil stmt hp hf
  · cases h

/-! ### The sweep -/

omit [Crates] in
/-- Which rows the sweep is seen to reset. -/
theorem mem_sweptRows {now : Time} {db : Db} {m d : ℤ} {r : DeliveryRow}
    (hr : db.deliveries.get d = some r) : d ∈ sweptRows db now m ↔
      ∃ maxCycles, hungLimit db now m r = some (some maxCycles) ∧
        ¬r.completionCycles + 1 ≥ maxCycles := by
  obtain ⟨hm, hid⟩ := Table.get_eq_some_iff.mp hr
  have hone : ∀ r' ∈ db.deliveries.rows, r'.id = d → r' = r := fun r' hr' hd =>
    Table.eq_of_key hr' hm (hd.trans hid.symm)
  have hlive : ∀ maxCycles, (hungLimit db now m r).join = some maxCycles →
      (((sweepUpdate db now m).set r).deadLetter = false ↔
      ¬r.completionCycles + 1 ≥ maxCycles) := by
    intro maxCycles hj
    simp only [sweepUpdate, hj, sweepRow]
    by_cases hc : r.completionCycles + 1 ≥ maxCycles <;> simp [hc]
  simp only [sweptRows, List.mem_map, List.mem_filter, Bool.and_eq_true, Bool.not_eq_true']
  constructor
  · rintro ⟨r', ⟨hr', hsome, hdead⟩, hd⟩
    obtain rfl := hone r' hr' hd
    obtain ⟨maxCycles, hj⟩ := Option.isSome_iff_exists.mp hsome
    exact ⟨maxCycles, Option.join_eq_some_iff.mp hj, (hlive maxCycles hj).mp hdead⟩
  · rintro ⟨maxCycles, hl, hc⟩
    have hj : (hungLimit db now m r).join = some maxCycles := Option.join_eq_some_iff.mpr hl
    exact ⟨r, ⟨hm, by rw [hj]; rfl, (hlive maxCycles hj).mpr hc⟩, hid⟩

/-- What a sweep at the time `t` does: a row is left alone, or it is hung and gets what a sweep
assigns. What is seen are the rows that are reset for another delivery. -/
structure Sweeps (db : Db) (t : Time) (maxCompletionCycles : ℤ) (f : RowUpdate) (obs : List Obs) :
    Prop where
  row : ∀ r ∈ db.deliveries.rows, (f.set r = r ∧ .sweepReset r.id ∉ obs) ∨
    ∃ maxCycles, hungLimit db t maxCompletionCycles r = some (some maxCycles) ∧
      f.set r = sweepRow t maxCycles r ∧
      (.sweepReset r.id ∈ obs ↔ r.completionCycles + 1 < maxCycles)
  obs : ∀ o ∈ obs, ∃ r ∈ db.deliveries.rows, o = .sweepReset r.id

omit [Crates] in
theorem sweeps_sweepUpdate (db : Db) (now : Time) (m : ℤ) :
    Sweeps db now m (sweepUpdate db now m) ((sweptRows db now m).map .sweepReset) where
  row := by
    intro r hr
    have hseen : .sweepReset r.id ∈ (sweptRows db now m).map Obs.sweepReset ↔
        ∃ maxCycles, hungLimit db now m r = some (some maxCycles) ∧
        ¬r.completionCycles + 1 ≥ maxCycles := by
      rw [← mem_sweptRows (Table.get_of_mem hr)]
      simp
    rw [hseen]
    rcases hl : (hungLimit db now m r).join with _ | c
    · refine .inl ⟨by simp [sweepUpdate, hl], fun ⟨c, hc, _⟩ => ?_⟩
      rw [hc] at hl
      cases hl
    · have hlim := Option.join_eq_some_iff.mp hl
      exact .inr ⟨c, hlim, by simp [sweepUpdate, hl], by simp [hlim]⟩
  obs := by
    intro o ho
    obtain ⟨d, hd, rfl⟩ := List.mem_map.mp ho
    obtain ⟨r, hr, rfl⟩ := List.mem_map.mp hd
    exact ⟨r, (List.mem_filter.mp hr).1, rfl⟩

/-! ### The system -/

/-- The cases of `step`, and more than these: a sweep may be of an earlier time and leave out hung
rows, and retention may delete any events. So it is with the statements of `System/Phases`, which
are not made at once. -/
inductive Step (config : DispatchConfig) (s : Sys) : Action → Sys → Prop
  | tick (d : ℕ) : Step config s (.tick d) { s with now := s.now + d }
  | publish (e : RawEvent) (h : ∀ e' ∈ s.committed ++ s.uncommitted, e'.eventId ≠ e.eventId) :
      Step config s (.publish e) { s with
        uncommitted := s.uncommitted ++ [{ e with id := s.eventSeq }], eventSeq := s.eventSeq + 1 }
  | commit (e : RawEvent) (db : Db) (he : e ∈ s.uncommitted) (h : CommitSpec s.db db e) :
      Step config s (.commit e.id) { s with
        db, uncommitted := s.uncommitted.filter (·.id != e.id), committed := s.committed ++ [e] }
  | rollback (id : ℤ) :
      Step config s (.rollback id) { s with uncommitted := s.uncommitted.filter (·.id != id) }
  | sched (r : ℕ) (a : SchedAction) (db : Db) (sch : Sched)
      (h : SchedStep config s.now s.db (s.scheds r) a db sch) :
      Step config s (.sched r a) { s with
        db, scheds := Function.update s.scheds r sch
        issued := s.issued ++ db.deliveries.rows.drop s.db.deliveries.rows.length
        trace := schedObs r (s.scheds r) a ++ s.trace }
  | fetch (rows : List DueDeliveryRow) (h : selectDue s.db s.now config.batchSize = some rows) :
      Step config s .fetch { s with
        tasks := addTasks s.tasks (newTasks s.nextTid rows), nextTid := s.nextTid + rows.length }
  | task (t : Task) (a : TaskAction) (db : Db) (phase : Option Phase) (obs : List Obs)
      (ht : t ∈ s.tasks.rows) (h : TaskStep config s.now s.db t a db phase obs) :
      Step config s (.task t.tid a) { s with
        db, tasks := setPhase s.tasks t.tid phase, trace := obs ++ s.trace }
  | sweep (t : Time) (f : RowUpdate) (obs : List Obs) (ht : t ≤ s.now)
      (h : Sweeps s.db t (asI32 config.maxCompletionCycles) f obs) :
      Step config s .sweep { s with db := s.db.update f, trace := obs ++ s.trace }
  | retry (d : ℤ) : Step config s (.retry d) { s with
      db := Stmt.retryDelivery.exec s.db s.now d
      trace := (if Stmt.retryDelivery.affects s.db s.now d then [.retryReset d] else []) ++
        s.trace }
  | complete (d : ℤ) :
      Step config s (.complete d) { s with db := Stmt.completeDelivery.exec s.db s.now d }
  | abandon (d : ℤ) :
      Step config s (.abandon d) { s with db := Stmt.abandonDelivery.exec s.db s.now d }
  | retention (deadLetterCutoff processedCutoff : Time) (batchLimit : ℤ) (p : RawEvent → Bool) :
      Step config s (.retention deadLetterCutoff processedCutoff batchLimit) { s with
        db := s.db.deleteEvents p }

/-- The sweep that is made at once. -/
theorem eq_of_sweep {s s' : Sys} (h : step config s .sweep = some s') : s' = { s with
    db := s.db.update (sweepUpdate s.db s.now (asI32 config.maxCompletionCycles))
    trace := (sweptRows s.db s.now (asI32 config.maxCompletionCycles)).map .sweepReset ++
        s.trace } := by
  simp only [step, resetHungExternal, Option.bind_eq_bind, Option.bind_eq_some_iff,
    Option.pure_def] at h
  obtain ⟨⟨db, report⟩, hr, h⟩ := h
  split_ifs at hr
  cases hr; cases h
  rfl

/-- **Every step is one of these.** -/
theorem step_cases {s s' : Sys} {a : Action} (h : step config s a = some s') :
    Step config s a s' := by
  cases a with
  | tick d => cases h; exact .tick d
  | publish e =>
    simp only [step] at h
    split_ifs at h with hf
    cases h
    exact .publish e (by simpa [or_imp, forall_and] using hf)
  | commit id =>
    simp only [step, Option.bind_eq_bind, Option.bind_eq_some_iff, Option.pure_def] at h
    obtain ⟨e, he, db, hdb, h⟩ := h
    cases h
    obtain rfl : e.id = id := by simpa using List.find?_some he
    exact .commit e db (List.mem_of_find?_eq_some he) (commitEvent_spec hdb)
  | rollback id => cases h; exact .rollback id
  | sched r a =>
    simp only [step, Option.bind_eq_bind, Option.bind_eq_some_iff, Option.pure_def] at h
    obtain ⟨⟨db, sch⟩, hs, h⟩ := h
    cases h
    exact .sched r a db sch (schedStep_of_step hs)
  | fetch =>
    simp only [step, Option.bind_eq_bind, Option.bind_eq_some_iff, Option.pure_def] at h
    obtain ⟨rows, hr, h⟩ := h
    cases h
    exact .fetch rows hr
  | task tid a =>
    simp only [step, Option.bind_eq_bind, Option.bind_eq_some_iff, Option.pure_def] at h
    obtain ⟨t, ht, ⟨db, phase, obs⟩, hs, h⟩ := h
    cases h
    obtain rfl := Table.key_of_get ht
    exact .task t a db phase obs (Table.mem_of_get ht) (taskStep_of_step hs)
  | sweep =>
    rw [eq_of_sweep h]
    exact .sweep s.now _ _ le_rfl (sweeps_sweepUpdate ..)
  | retry d =>
    have hout : (retryDelivery s.db s.now d).2 = .reset ↔
        Stmt.retryDelivery.affects s.db s.now d := by
      simp only [retryDelivery]
      split_ifs <;> simp_all
    simp only [step, hout] at h
    cases h
    exact .retry d
  | complete d => cases h; exact .complete d
  | abandon d => cases h; exact .abandon d
  | retention deadLetterCutoff processedCutoff batchLimit =>
    simp only [step, deleteTerminalEvents, Option.bind_eq_bind, Option.bind_eq_some_iff,
      Option.pure_def] at h
    obtain ⟨⟨db, deleted⟩, ⟨candidates, hc, hd⟩, h⟩ := h
    cases hd; cases h
    exact .retention _ _ _ _

/-! ### One process at a time -/

/-- A scheduling process stays as it is, or the step is its own. -/
theorem Step.scheds {s s' : Sys} {a : Action} (h : Step config s a s') (r : ℕ) :
    s'.scheds r = s.scheds r ∨
      ∃ b, a = .sched r b ∧ SchedStep config s.now s.db (s.scheds r) b s'.db (s'.scheds r) := by
  cases h with
  | sched r' b db sch hs =>
    by_cases hr : r = r'
    · subst hr
      exact .inr ⟨b, rfl, by simpa using hs⟩
    · exact .inl (Function.update_of_ne hr _ _)
  | _ => exact .inl rfl

theorem Step.of_task {s s' : Sys} {t : Task} {b : TaskAction} (h : Step config s (.task t.tid b) s')
    (ht : t ∈ s.tasks.rows) : ∃ phase obs, TaskStep config s.now s.db t b s'.db phase obs ∧
      s'.tasks = setPhase s.tasks t.tid phase ∧ s'.trace = obs ++ s.trace := by
  generalize ha : Action.task t.tid b = a at h
  cases h with
  | task t₁ b₁ db phase obs ht₁ hs =>
    obtain ⟨hid, rfl⟩ := Action.task.inj ha
    obtain rfl := Table.eq_of_key ht ht₁ hid
    exact ⟨phase, obs, hs, rfl, rfl⟩
  | _ => cases ha

theorem Step.tasks_of_ne {s s' : Sys} {a : Action} (h : Step config s a s') {t : Task}
    (ht : t ∈ s.tasks.rows) (ha : ∀ b, a ≠ .task t.tid b) : t ∈ s'.tasks.rows := by
  cases h with
  | fetch rows hf => exact mem_addTasks_of_mem _ ht
  | task t₀ b db phase obs ht₀ hs =>
    exact mem_setPhase.mpr (.inl ⟨ht, fun hid => ha b (by rw [hid])⟩)
  | _ => exact ht

/-- A task was there before, or it has just been fetched, or the step is its own. -/
theorem Step.tasks {s s' : Sys} {a : Action} (h : Step config s a s') {t : Task}
    (ht : t ∈ s'.tasks.rows) :
    (t ∈ s.tasks.rows ∧ ∀ b, a ≠ .task t.tid b) ∨
      (a = .fetch ∧ t.phase = .fetched ∧ s.nextTid ≤ t.tid ∧ t.tid < s'.nextTid ∧
        ∃ r ∈ s.db.deliveries.rows, isDue s.now r ∧ ∃ e ∈ s.db.events.rows,
        (e.eventId = r.eventId ∧ decodes e) ∧
          t.row = ⟨r.id, r.eventId, r.attempts, r.callbackName, e⟩) ∨
      ∃ t₀ ∈ s.tasks.rows, ∃ b obs, a = .task t₀.tid b ∧ t = { t₀ with phase := t.phase } ∧
        TaskStep config s.now s.db t₀ b s'.db (some t.phase) obs ∧ s'.trace = obs ++ s.trace := by
  cases h with
  | fetch rows hf =>
    rcases mem_addTasks _ ht with ht | ht
    · exact .inl ⟨ht, fun b hb => nomatch hb⟩
    · obtain ⟨hle, hlt, hrow, hp⟩ := mem_newTasks ht
      exact .inr (.inl ⟨rfl, hp, hle, hlt, mem_selectDue hf hrow⟩)
  | task t₀ b db phase obs ht₀ hs =>
    rcases mem_setPhase.mp ht with ⟨ht, hne⟩ | ⟨t₁, ht₁, hid, p, rfl, rfl⟩
    · exact .inl ⟨ht, fun b hb => hne (Action.task.inj hb).1.symm⟩
    · obtain rfl := Table.eq_of_key ht₁ ht₀ hid
      exact .inr (.inr ⟨t₁, ht₁, b, obs, rfl, rfl, hs, rfl⟩)
  | _ => exact .inl ⟨ht, fun b hb => nomatch hb⟩

/-! ### The database -/

/-- What a step can do to the tables. -/
inductive DbStep (now : Time) (db : Db) : Db → Prop
  | same : DbStep now db db
  | update (f : RowUpdate) : DbStep now db (db.update f)
  | insert (u : Uuid) (new : List NewDelivery) (db' : Db) (h : InsertSpec db db' now u new) :
      DbStep now db db'
  | delete (p : RawEvent → Bool) : DbStep now db (db.deleteEvents p)

theorem SchedStep.dbStep {now : Time} {db db' : Db} {sch sch' : Sched} {a : SchedAction}
    (h : SchedStep config now db sch a db' sch') : DbStep now db db' := by
  cases h with
  | write c l w writes db' hw hx =>
    rcases Write.exec_cases hx with ⟨rfl, -⟩ | hi
    · exact .same
    · exact .insert _ _ _ hi
  | writeUnacked c l w writes db' hw hx =>
    rcases Write.exec_cases hx with ⟨rfl, -⟩ | hi
    · exact .same
    · exact .insert _ _ _ hi
  | _ => exact .same

theorem TaskStep.dbStep {now : Time} {db db' : Db} {t : Task} {a : TaskAction}
    {phase : Option Phase}
    {obs : List Obs} (h : TaskStep config now db t a db' phase obs) : DbStep now db db' := by
  cases h with
  | poisoned | lock | lockUnacked | lockRefused | wroteBack => exact .update _
  | _ => exact .same

/-- **Every step does one of these to the tables**, or it commits an event. -/
theorem Step.dbStep {s s' : Sys} {a : Action} (h : Step config s a s') :
    DbStep s.now s.db s'.db ∨
      ∃ e ∈ s.uncommitted, a = .commit e.id ∧ CommitSpec s.db s'.db e ∧
        s'.committed = s.committed ++ [e] := by
  cases h with
  | commit e db he hc => exact .inr ⟨e, he, rfl, hc, rfl⟩
  | sched r a db sch hs => exact .inl hs.dbStep
  | task t a db phase obs ht hs => exact .inl hs.dbStep
  | sweep | retry | complete | abandon => exact .inl (.update _)
  | retention => exact .inl (.delete _)
  | _ => exact .inl .same

end

end OutboxDispatcher.System.Effects
