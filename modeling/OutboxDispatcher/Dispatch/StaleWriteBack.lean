import OutboxDispatcher.Dispatch.Exclusion
import OutboxDispatcher.System.Phases

/-! # Write-backs that come too late

`mark_dispatched_managed`, `mark_dispatched_external` and `mark_failure` name the row by its id
alone. A dispatcher whose lock has expired, and whose row another one has locked since, still writes
to it: it clears the other's lock, or writes its own outcome over the other's.

* `stale_writeBack`: as long as a write-back is made before the lock of its dispatcher expires, or
  not at all, this does not happen. Dispatchers may be as late as they like, and others may lock the
  row meanwhile: whoever is superseded does not touch the database, and who writes back finds the
  row under its own lock.
* `stale_writeBack_harmful`: a late failure clears the lock of the dispatcher at work, and
  dead-letters a row that was delivered. -/

namespace OutboxDispatcher.Dispatch.StaleWriteBack

open OutboxDispatcher.Lib.JsonValue OutboxDispatcher.Lib.Runs OutboxDispatcher.Lib.Tables
open OutboxDispatcher.Lib.Traces OutboxDispatcher.Schema OutboxDispatcher.Callbacks.Fields
open OutboxDispatcher.Repo.Database OutboxDispatcher.Repo.Statements OutboxDispatcher.Scheduler.Pass
open OutboxDispatcher.Dispatch OutboxDispatcher.Dispatch.Exclusion OutboxDispatcher.System
open OutboxDispatcher.System.Effects OutboxDispatcher.System.History OutboxDispatcher.System.Rows
open OutboxDispatcher.System.Phases

/-! ### Stale write-backs -/

/-- The task whose lock on the row `d` was the last to succeed. -/
def lastLocker? (d : ℤ) (trace : List Obs) : Option ℕ :=
  trace.findSome? fun
    | .locked tid d' => if d' = d then some tid else none
    | _ => none

/-- Another task has locked the row `d` since. -/
def Superseded (s : Sys) (tid : ℕ) (d : ℤ) : Prop :=
  ∃ tid' ∈ lastLocker? d s.trace, tid' ≠ tid

instance (s : Sys) (tid : ℕ) (d : ℤ) : Decidable (Superseded s tid d) :=
  inferInstanceAs (Decidable (∃ tid' ∈ lastLocker? d s.trace, tid' ≠ tid))

/-- The write-back that the step applies: by whom, for which delivery, and which statement. -/
def writesBack? (s : Sys) : Action → Option (Task × DueDelivery × Stmt)
  | .task tid (.writeBack fault) => do
    let t ← s.tasks.get tid
    match t.phase with
    | .writing due _ stmt => if fault = .lost then none else some (t, due, stmt)
    | _ => none
  | _ => none

/-- A write-back that is applied is in time: the lock of its task has not expired. -/
def Prompt (s : Sys) (a : Action) (_ : Sys) : Prop :=
  ∀ x ∈ writesBack? s a, ∀ u ∈ x.1.phase.held?, s.now ≤ u

instance (s : Sys) (a : Action) (s' : Sys) : Decidable (Prompt s a s') :=
  inferInstanceAs (Decidable (∀ x ∈ writesBack? s a, ∀ u ∈ x.1.phase.held?, s.now ≤ u))

theorem lastLocker?_append (d : ℤ) (obs trace : List Obs) :
    lastLocker? d (obs ++ trace) = (lastLocker? d obs).or (lastLocker? d trace) :=
  List.findSome?_append

theorem mem_of_lastLocker? {d : ℤ} {trace : List Obs} {tid : ℕ}
    (h : lastLocker? d trace = some tid) : .locked tid d ∈ trace := by
  obtain ⟨o, ho, hx⟩ := List.exists_of_findSome?_eq_some h
  split at hx
  · next tid' d' =>
    split_ifs at hx with hd
    cases hx
    exact hd ▸ ho
  · cases hx

section

variable [Crates] {config : DispatchConfig} {s s' : Sys} {a : Action}

omit [Crates] in
theorem writesBack?_eq_some {t : Task} {due : DueDelivery} {stmt : Stmt}
    (hx : writesBack? s a = some (t, due, stmt)) :
    t ∈ s.tasks.rows ∧ ∃ u fault, t.phase = .writing due u stmt ∧ fault ≠ .lost ∧
      a = .task t.tid (.writeBack fault) := by
  unfold writesBack? at hx
  split at hx
  · next tid fault =>
    obtain ⟨t', ht', hx⟩ := Option.bind_eq_some_iff.mp hx
    split at hx
    · next due' u stmt' hp =>
      split_ifs at hx with hf
      cases hx
      exact ⟨Table.mem_of_get ht', u, fault, hp, hf, by rw [Table.key_of_get ht']⟩
    · cases hx
  · cases hx

omit [Crates] in
theorem writesBack?_of_writing {t : Task} {due : DueDelivery} {u : Time} {stmt : Stmt}
    {fault : Fault}
    (ht : t ∈ s.tasks.rows) (hp : t.phase = .writing due u stmt) (hf : fault ≠ .lost) :
    writesBack? s (.task t.tid (.writeBack fault)) = some (t, due, stmt) := by
  simp [writesBack?, Table.get_of_mem ht, hp, hf]

theorem writeBack_db {t : Task} {due : DueDelivery} {stmt : Stmt}
    (hs : step config s a = some s') (hx : writesBack? s a = some (t, due, stmt)) :
    s'.db = stmt.exec s.db s.now due.deliveryId := by
  obtain ⟨ht, u, fault, hp, hf, rfl⟩ := writesBack?_eq_some hx
  simp only [step, Table.get_of_mem ht, Task.step, hp, hf, if_false, Option.bind_eq_bind,
    Option.bind_some, Option.pure_def, Option.some.injEq] at hs
  rw [← hs]

/-! ### Runs with prompt write-backs -/

/-- A success for the managed row `d` was written back, and no operator has reset the row since. -/
def ManagedDone (d : ℤ) : List Obs → Prop :=
  Since (fun o => ∃ tid, o = .wroteBack tid d .markDispatchedManaged) (· = .retryReset d)

structure Recorded (s : Sys) : Prop where
  /-- A task whose lock has not expired was the last to lock its row. -/
  last : ∀ t d u, Holds s t d u → s.now ≤ u → lastLocker? d s.trace = some t.tid
  /-- And the row is under its lock. -/
  row : ∀ t d u, Holds s t d u → s.now ≤ u → ∀ r, s.db.deliveries.get d = some r →
    r.lockedUntil = some u ∧ r.dispatchedAt = none
  done : ∀ d, ManagedDone d s.trace → d < s.db.deliverySeq ∧
    ∀ r ∈ s.db.deliveries.get d, r.dispatchedAt.isSome ∧ r.processedAt.isSome

/-- Nobody locks a row under a lock that has not expired. -/
theorem lastLocker?_step (h : Step config s a s') {d : ℤ} {u : Time} (hu : s.now ≤ u)
    (hrow : ∀ r, s.db.deliveries.get d = some r → r.lockedUntil = some u ∧ r.dispatchedAt = none) :
    lastLocker? d s'.trace = lastLocker? d s.trace := by
  obtain ⟨obs, htr, hobs⟩ := trace_step h
  rcases hnew : lastLocker? d obs with _ | tid
  · rw [htr, lastLocker?_append, hnew, Option.none_or]
  · have ho := hobs _ (mem_of_lastLocker? hnew)
    generalize hoo : Obs.locked tid d = o at ho
    cases ho with
    | locked t fault due v ht hp hg =>
      obtain ⟨-, rfl⟩ := Obs.locked.inj hoo
      obtain ⟨r, hr, hg⟩ := (Stmt.affects_iff _).mp hg
      exact absurd (Stmt.guard_lockDelivery_iff.mp hg).1 (not_unlocked (hrow r hr).1 hu)
    | _ => cases hoo

/-- The task that writes back is the last that has locked the row. -/
theorem last_of_prompt (hw : WF config s) (hi : Recorded s) (hok : Prompt s a s') {t : Task}
    {due : DueDelivery} {stmt : Stmt} (hx : writesBack? s a = some (t, due, stmt)) :
    lastLocker? due.deliveryId s.trace = some t.tid ∧
      ∀ r, s.db.deliveries.get due.deliveryId = some r →
        r.lockedUntil = t.phase.held? ∧ r.dispatchedAt = none := by
  obtain ⟨ht, u, fault, hp, -, -⟩ := writesBack?_eq_some hx
  have hheld : t.phase.held? = some u := by rw [hp]; rfl
  have hhold := holds_writing hw ht hp
  have hu : s.now ≤ u := hok _ hx u hheld
  rw [hheld]
  exact ⟨hi.last t _ u hhold hu, hi.row t _ u hhold hu⟩

theorem held_step (hw : WF config s) (hi : Recorded s) (h : Step config s a s')
    (hok : Prompt s a s') {t : Task} {d : ℤ} {u : Time} (ht : Holds s' t d u) (hu : s'.now ≤ u) :
    lastLocker? d s'.trace = some t.tid ∧ ∀ r', s'.db.deliveries.get d = some r' →
      r'.lockedUntil = some u ∧ r'.dispatchedAt = none := by
  have hle : s.now ≤ u := (now_le h).trans hu
  rcases holds_step hw h ht with ⟨t₀, hold, htid, hown⟩ | ⟨b, r, -, -, hg, hlock, htr⟩
  · have hlast := hi.last t₀ d u hold hle
    have hrow := hi.row t₀ d u hold hle
    refine ⟨by rw [lastLocker?_step h hle hrow, hlast, htid], fun r' hr' => ?_⟩
    refine held_row_step hw h hold hle hrow (fun t' ht' due v stmt hp hd fault hf => ?_) hr'
    -- whoever writes back has locked the row last, and that is this task
    rintro rfl
    have hlast' := (last_of_prompt hw hi hok (writesBack?_of_writing ht' hp hf)).1
    rw [hd, hlast, Option.some.injEq] at hlast'
    exact hown fault (by rw [hlast'])
  · refine ⟨by simp [htr, lastLocker?], fun r' hr' => ?_⟩
    rw [hlock] at hr'
    cases hr'
    exact ⟨rfl, (Stmt.guard_lockDelivery_iff.mp hg).2.1⟩

theorem done_step (hw : WF config s) (hi : Recorded s) (h : Step config s a s') {d : ℤ}
    (hd : ManagedDone d s'.trace) : d < s'.db.deliverySeq ∧
      ∀ r' ∈ s'.db.deliveries.get d, r'.dispatchedAt.isSome ∧ r'.processedAt.isSome := by
  obtain ⟨obs, htr, hobs⟩ := trace_step h
  rw [htr] at hd
  rcases since_append hd with ⟨o, ho, tid, rfl⟩ | ⟨hd, hno⟩
  · have hstep := hobs _ ho
    generalize hoo : Obs.wroteBack tid d .markDispatchedManaged = o at hstep
    cases hstep with
    | wroteBack t fault due lockUntil stmt ht hp hf hdb =>
      cases hoo
      refine ⟨(held_issued hw (holds_writing hw ht hp)).trans_le (deliverySeq_le h),
        fun r' hr' => ?_⟩
      rw [hdb, Stmt.get_exec] at hr'
      obtain ⟨r, -, rfl⟩ := Option.map_eq_some_iff.mp hr'
      simp [Stmt.guard, Stmt.assign]
    | _ => cases hoo
  · obtain ⟨hlt, hrow₀⟩ := hi.done d hd
    refine ⟨hlt.trans_le (deliverySeq_le h), fun r' hr' => ?_⟩
    have hrow := row_step h d
    rw [hr'] at hrow
    generalize hr : s.db.deliveries.get d = old at hrow hrow₀
    generalize hn : some r' = n at hrow
    cases hrow with
    | keep => subst hn; exact hrow₀ r' rfl
    | inserted p b u' n hle => exact absurd hlt (not_lt.mpr hle)
    | poisoned _ _ _ r | abandoned r => cases hn; exact hrow₀ r rfl
    | locked t fault due lockUntil r ht hp hid hg =>
      have := hrow₀ r rfl
      simp_all [Stmt.guard]
    | wroteBack t fault due lockUntil stmt r ht hp hid hf hg =>
      have := hrow₀ r rfl
      cases hn
      rcases (hw.tasks.stmt t ht due lockUntil stmt hp).cases
        with rfl | ⟨rfl, -⟩ | ⟨_, _, _, rfl⟩ <;>
        simp_all [Stmt.assign]
    | swept maxCycles r hl =>
      obtain ⟨-, -, hproc, -⟩ := externalPending_of_hungLimit hl
      have := hrow₀ r rfl
      simp_all
    | retried r hg => exact absurd rfl (hno _ (mem_obs_retry h htr hr hg))
    | completed r => cases hn; exact ⟨(hrow₀ r rfl).1, rfl⟩
    | deleted => cases hn

theorem recorded_step (hw : WF config s) (hi : Recorded s) (h : Step config s a s')
    (hok : Prompt s a s') : Recorded s' where
  last := fun _ _ _ ht hu => (held_step hw hi h hok ht hu).1
  row := fun _ _ _ ht hu => (held_step hw hi h hok ht hu).2
  done := fun _ hd => done_step hw hi h hd

omit [Crates] in
theorem recorded_init (now : Time) (scheds : ℕ → Sched) : Recorded (init now scheds) where
  last := fun t d u h => by simp [Holds, init] at h
  row := fun t d u h => by simp [Holds, init] at h
  done := fun d h => absurd h not_since_nil

/-- A task that holds its row and does not write back leaves the database alone. -/
theorem db_of_holder (h : Step config s a s') {t : Task} {d : ℤ} {u : Time} (ht : Holds s t d u)
    {b : TaskAction} (ha : a = .task t.tid b) (hx : writesBack? s a = none) : s'.db = s.db := by
  subst ha
  obtain ⟨phase, obs, hs, -, -⟩ := h.of_task ht.1
  have hheld := ht.2.2
  generalize s'.db = db' at hs
  cases hs with
  | poisoned _ _ hp | lock _ _ hp | lockUnacked _ _ hp | lockRefused _ _ _ hp =>
    rw [hp] at hheld
    cases hheld
  | wroteBack fault due v stmt hp hf =>
    rw [writesBack?_of_writing ht.1 hp hf] at hx
    cases hx
  | dropped | examined | computeLock | lockPanicked | deliver | respond => rfl

/-- **Stale write-backs.** In every run in which a write-back is applied before the lock of its task
expires, or not at all, and nobody writes a row between the read and the update of a sweep: who
writes back was the last to lock the row, and finds it under its own lock and not dispatched.
Whoever is superseded does nothing to the database. And when a managed success was recorded and no
operator has reset the row, no write-back changes it. -/
theorem stale_writeBack {now : Time} {scheds : ℕ → Sched} (hq : Quiet scheds) {w : Phased}
    (h : Run (phasedStep config) (Lifted Prompt) (start now scheds) w)
    (hs : step config w.base a = some s') (hok : Prompt w.base a s') :
    (∀ t due stmt, writesBack? w.base a = some (t, due, stmt) →
      ¬Superseded w.base t.tid due.deliveryId ∧
        ∀ r ∈ w.base.db.deliveries.get due.deliveryId,
          r.lockedUntil = t.phase.held? ∧ r.dispatchedAt = none) ∧
    (∀ t d u b, Holds w.base t d u → Superseded w.base t.tid d → a = .task t.tid b →
      s'.db = w.base.db) ∧
    ∀ t due stmt, writesBack? w.base a = some (t, due, stmt) →
      ManagedDone due.deliveryId w.base.trace →
        s'.db.deliveries.get due.deliveryId = w.base.db.deliveries.get due.deliveryId := by
  obtain ⟨hw, hi⟩ : WF config w.base ∧ Recorded w.base :=
    invariant_of_lifted (fun s => WF config s ∧ Recorded s) hq
      ⟨wf_init now hq, recorded_init now scheds⟩
      (fun _ _ _ hi hs hok => ⟨wf_step hi.1 hs, recorded_step hi.1 hi.2 hs hok⟩) h
  have hfirst : ∀ t due stmt, writesBack? w.base a = some (t, due, stmt) →
      ¬Superseded w.base t.tid due.deliveryId := by
    rintro t due stmt hx ⟨tid', htid', hne⟩
    rw [(last_of_prompt hw hi hok hx).1] at htid'
    exact hne (Option.some.inj htid').symm
  refine ⟨fun t due stmt hx => ⟨hfirst t due stmt hx, (last_of_prompt hw hi hok hx).2⟩,
    fun t d u b ht hsup ha => ?_, fun t due stmt hx hdone => ?_⟩
  · refine db_of_holder (step_cases hs) ht ha ?_
    rcases hx : writesBack? w.base a with _ | ⟨t₁, due, stmt⟩
    · rfl
    · -- the step is the task's own write-back
      obtain ⟨ht₁, v, fault, hp, -, ha'⟩ := writesBack?_eq_some hx
      obtain rfl := Table.eq_of_key ht₁ ht.1 (Action.task.inj (ha'.symm.trans ha)).1
      have hid : due.deliveryId = d := (holds_writing hw ht₁ hp).2.1.symm.trans ht.2.1
      exact absurd (hid ▸ hsup) (hfirst t₁ due stmt hx)
  · -- the row is gone: it would be dispatched and not dispatched
    have hnone : w.base.db.deliveries.get due.deliveryId = none := by
      refine Option.eq_none_iff_forall_ne_some.mpr fun r hr => ?_
      have hdisp := ((hi.done _ hdone).2 r hr).1
      rw [((last_of_prompt hw hi hok hx).2 r hr).2] at hdisp
      cases hdisp
    rw [writeBack_db hs hx, Stmt.get_exec, hnone, Option.map_none]

end

/-! ### Two dispatchers on one row -/

/-- The task 0 calls the receiver until its lock has long expired, and the task 1 locks the row and
calls the receiver too. The callback is given up after one failed attempt. -/
def expiredLock : List Action :=
  [.publish (sampleEvent 1 [sampleCallback "hook_a" [("max_attempts", .int 1)]]), .commit 1,
    .sched 0 .poll, .sched 0 (.write .ok), .sched 0 .next, .fetch, .fetch, .task 0 (.examine .ok),
    .task 1 (.examine .ok), .task 0 .computeLock, .task 0 (.lock .ok), .task 0 .deliver,
    .tick (fromSecs 3600), .task 1 .computeLock, .task 1 (.lock .ok), .task 1 .deliver]

/-- The task 1 records its success, and the call of the task 0 fails. -/
def lateFailure : List Action :=
  expiredLock ++ [.task 1 (.respond .ok 0), .task 1 (.writeBack .ok), .task 0 (.respond .timeout 0)]

/-- The late write-back is lost. -/
theorem stale_writeBack_lost :
    ∃ w s', Run (@phasedStep sampleCrates {}) (Lifted Prompt) (start 0 oneScheduler) w ∧
      @step sampleCrates {} w.base (.task 0 (.writeBack .lost)) = some s' ∧
      (w.base.db.deliveries.get 1).any (·.processedAt.isSome) ∧ Superseded w.base 0 1 ∧
      s'.db = w.base.db := by
  have hex : ∃ w, Run (@phasedStep sampleCrates {}) (Lifted Prompt) (start 0 oneScheduler) w ∧
      (w.base.db.deliveries.get 1).any (·.processedAt.isSome) ∧ Superseded w.base 0 1 ∧
      ((@step sampleCrates {} w.base (.task 0 (.writeBack .lost))).isSome ∧
        (writesBack? w.base (.task 0 (.writeBack .lost))).isNone) ∧
      (w.base.tasks.get 0).any fun t => t.row.deliveryId = 1 ∧ t.phase.held?.isSome :=
    Run.exists_of_exec (lateFailure.map .base) (by decide +kernel)
  obtain ⟨w, hrun, hdone, hsup, ⟨hstep, hnone⟩, ht⟩ := hex
  obtain ⟨s', hs'⟩ := Option.isSome_iff_exists.mp hstep
  obtain ⟨t, ht, hx⟩ := (Option.any_eq_true _ _).mp ht
  obtain ⟨hid, hheld⟩ := of_decide_eq_true hx
  obtain ⟨u, hu⟩ := Option.isSome_iff_exists.mp hheld
  have htid : t.tid = 0 := Table.key_of_get ht
  have hprompt : Prompt w.base (.task 0 (.writeBack .lost)) s' := by
    rw [Prompt, Option.isNone_iff_eq_none.mp hnone]
    simp
  refine ⟨w, s', hrun, hs', hdone, hsup, ?_⟩
  exact (@stale_writeBack sampleCrates {} s' _ 0 _ quiet_oneScheduler w hrun hs' hprompt).2.1
    t 1 u _
    ⟨Table.mem_of_get ht, hid, hu⟩ (by rwa [htid]) (by rw [htid])

/-- **The late failure of the task 0** clears the lock of the task 1, which is still at work; and
when the task 1 has recorded its success, it dead-letters the row. -/
theorem stale_writeBack_harmful :
    (∃ s, Run (@step sampleCrates {}) (fun _ a _ => retries? a = none) (init 0 oneScheduler) s ∧
      Superseded s 0 1 ∧ (s.db.deliveries.get 1).any (·.lockedUntil.isSome) ∧
      ∃ s', @step sampleCrates {} s (.task 0 (.writeBack .ok)) = some s' ∧
        (s'.db.deliveries.get 1).any (·.lockedUntil.isNone)) ∧
    ∃ s, Run (@step sampleCrates {}) (fun _ a _ => retries? a = none) (init 0 oneScheduler) s ∧
      Superseded s 0 1 ∧
      (s.db.deliveries.get 1).any (fun r => r.processedAt.isSome && !r.deadLetter) ∧
      ∃ s', @step sampleCrates {} s (.task 0 (.writeBack .ok)) = some s' ∧
        (s'.db.deliveries.get 1).any (fun r => r.processedAt.isSome && r.deadLetter) := by
  have hlock :
      ∃ s, Run (@step sampleCrates {}) (fun _ a _ => retries? a = none) (init 0 oneScheduler) s ∧
      Superseded s 0 1 ∧ (s.db.deliveries.get 1).any (·.lockedUntil.isSome) ∧
      (@step sampleCrates {} s (.task 0 (.writeBack .ok))).any fun s' =>
        (s'.db.deliveries.get 1).any (·.lockedUntil.isNone) :=
    Run.exists_of_exec (expiredLock ++ [.task 0 (.respond .timeout 0)]) (by decide +kernel)
  have hdead :
      ∃ s, Run (@step sampleCrates {}) (fun _ a _ => retries? a = none) (init 0 oneScheduler) s ∧
      Superseded s 0 1 ∧
      (s.db.deliveries.get 1).any (fun r => r.processedAt.isSome && !r.deadLetter) ∧
      (@step sampleCrates {} s (.task 0 (.writeBack .ok))).any fun s' =>
        (s'.db.deliveries.get 1).any (fun r => r.processedAt.isSome && r.deadLetter) :=
    Run.exists_of_exec lateFailure (by decide +kernel)
  obtain ⟨s, hrun, hsup, hold, hnew⟩ := hlock
  obtain ⟨s₁, hrun₁, hsup₁, hold₁, hnew₁⟩ := hdead
  exact ⟨⟨s, hrun, hsup, hold, (Option.any_eq_true _ _).mp hnew⟩,
    s₁, hrun₁, hsup₁, hold₁, (Option.any_eq_true _ _).mp hnew₁⟩

end OutboxDispatcher.Dispatch.StaleWriteBack
