import OutboxDispatcher.Dispatch.Solo

/-! # The attempt numbers a receiver sees

A request carries the number of the attempt, one more than the count in the row when it was fetched.
With one dispatcher and no retries by hand the count only grows, up to the sweep: a row that is
reset for another delivery starts again from zero, and the second webhook is numbered like the
first.

* `attempts_increase`: the numbers sent for a delivery increase as long as no sweep resets it.
* `attempts_start_again`: a callback that is not completed in time is called twice with the number
  1. -/

namespace OutboxDispatcher.Dispatch.Redelivery

open OutboxDispatcher.Lib.Runs OutboxDispatcher.Lib.Tables OutboxDispatcher.Schema
open OutboxDispatcher.Callbacks.Fields OutboxDispatcher.Repo.Database
  OutboxDispatcher.Repo.Database.Db
open OutboxDispatcher.Repo.Statements OutboxDispatcher.Scheduler.Pass OutboxDispatcher.Dispatch
open OutboxDispatcher.Dispatch.Solo OutboxDispatcher.System OutboxDispatcher.System.Effects
open OutboxDispatcher.System.History OutboxDispatcher.System.Rows

/-- The number that goes to the receiver of `d`. -/
def sent? (d : ℤ) : Obs → Option ℤ
  | .deliver _ event => if event.deliveryId = d then some event.attempt else none
  | _ => none

def sent (d : ℤ) (s : Sys) : List ℤ := s.trace.filterMap (sent? d)

/-- The numbers increase, from one on. -/
def Increasing (attempts : List ℤ) : Prop := attempts.Pairwise (· > ·) ∧ ∀ n ∈ attempts, 1 ≤ n

/-- One dispatcher, which fetches when it is done with its batch, and no retries by hand. It may
crash, and its statements may fail. -/
def OneDispatcher (s : Sys) : Action → Prop
  | .fetch => s.tasks.rows = []
  | .retry _ => False
  | _ => True

instance (s : Sys) (a : Action) : Decidable (OneDispatcher s a) :=
  match a with
  | .fetch => List.instDecidableEqNil s.tasks.rows
  | .retry _ => .isFalse id
  | .tick _ | .publish _ | .commit _ | .rollback _ | .sched _ _ | .task _ _ | .sweep | .complete _
  | .abandon _ | .retention _ _ _ => .isTrue trivial

/-- A sweep finds the row `d` hung in its last cycle only. -/
def LastCycle (config : DispatchConfig) (d : ℤ) (s : Sys) : Action → Prop
  | .sweep => ∀ r ∈ s.db.deliveries.get d,
    ∀ maxCycles ∈ (hungLimit s.db s.now (asI32 config.maxCompletionCycles) r).join,
      maxCycles ≤ r.completionCycles + 1
  | _ => True

instance (config : DispatchConfig) (d : ℤ) (s : Sys) (a : Action) :
    Decidable (LastCycle config d s a) :=
  match a with
  | .sweep => inferInstanceAs (Decidable (∀ r ∈ s.db.deliveries.get d,
      ∀ maxCycles ∈ (hungLimit s.db s.now (asI32 config.maxCompletionCycles) r).join,
        maxCycles ≤ r.completionCycles + 1))
  | .tick _ | .publish _ | .commit _ | .rollback _ | .sched _ _ | .fetch | .task _ _ | .retry _
  | .complete _ | .abandon _ | .retention _ _ _ => .isTrue trivial

/-- The task has yet to call the receiver. -/
def waiting : Phase → Bool
  | .fetched | .ready _ | .locking _ _ | .locked _ _ => true
  | .delivering _ _ | .writing _ _ _ => false

structure TaskAnnounced (s : Sys) (d : ℤ) (t : Task) : Prop where
  nonneg : 0 ≤ t.row.attempts
  le_row : ∀ r, s.db.deliveries.get d = some r → t.row.attempts ≤ r.attempts
  waiting : waiting t.phase → ∀ n ∈ sent d s, n ≤ t.row.attempts
  locked : ∀ due u, t.phase = .locked due u →
    ∀ r, s.db.deliveries.get d = some r → t.row.attempts + 1 ≤ r.attempts

/-- **The invariant.** The count of the row, and that of a task which has yet to call, are at least
what the receiver has been told. -/
structure Announced (s : Sys) (d : ℤ) : Prop where
  single : Single s
  fresh : s.db.deliverySeq ≤ d → sent d s = []
  nonneg : ∀ r, s.db.deliveries.get d = some r → 0 ≤ r.attempts
  row : ∀ r, s.db.deliveries.get d = some r → ∀ n ∈ sent d s, n ≤ r.attempts
  task : ∀ t ∈ s.tasks.rows, t.row.deliveryId = d → TaskAnnounced s d t
  increasing : Increasing (sent d s)

section

variable [Crates] {config : DispatchConfig} {s s' : Sys} {a : Action} {d : ℤ}

omit [Crates] in
theorem sent_append {obs : List Obs} (htr : s'.trace = obs ++ s.trace) :
    sent d s' = obs.filterMap (sent? d) ++ sent d s := by
  rw [sent, htr, List.filterMap_append]
  rfl

/-- A number is sent by the task at the delivery that holds the lock. -/
theorem sent_step (hw : WF config s) (h : Step config s a s') (d : ℤ) :
    sent d s' = sent d s ∨
      ∃ t ∈ s.tasks.rows, t.row.deliveryId = d ∧ a = .task t.tid .deliver ∧ s'.db = s.db ∧
        (∃ due u, t.phase = .locked due u) ∧ sent d s' = (t.row.attempts + 1) :: sent d s := by
  obtain ⟨obs, htr, hobs⟩ := trace_step h
  rw [sent_append htr]
  by_cases hnone : obs.filterMap (sent? d) = []
  · rw [hnone]
    exact .inl rfl
  · -- something is sent, so the step is the call of a task
    obtain ⟨n, hn⟩ := List.exists_mem_of_ne_nil _ hnone
    obtain ⟨o, ho, hon⟩ := List.mem_filterMap.mp hn
    cases hobs o ho with
    | deliver t due u ht hp =>
      have hx := hw.examined ht (show t.phase.due? = some due by rw [hp]; rfl)
      have hd : due.deliveryId = d := by
        by_contra hne
        simp [sent?, buildEventForDelivery, hne] at hon
      refine .inr ⟨t, ht, hx.deliveryId.symm.trans hd, rfl, ?_⟩
      obtain ⟨phase, obs', hstep, -, htr'⟩ := h.of_task ht
      obtain rfl : obs = obs' := List.append_cancel_right (htr.symm.trans htr')
      generalize s'.db = db' at hstep
      cases hstep with
      | dropped => cases ho
      | deliver due' u' hp' =>
        obtain ⟨rfl, -⟩ := Phase.locked.inj (hp.symm.trans hp')
        refine ⟨rfl, ⟨due, u, hp⟩, ?_⟩
        rw [← hx.attempts]
        simp [sent?, buildEventForDelivery, hd]
    | _ => cases hon

omit [Crates] in
theorem attempts_writeBack {due : DueDelivery} {stmt : Stmt} (h : StmtWF due stmt) (now : Time)
    (r : DeliveryRow) : (stmt.assign now r).attempts = r.attempts := by
  rcases h.cases with rfl | ⟨rfl, -⟩ | ⟨error, availableAt, deadLetter, rfl⟩
  all_goals rfl

omit [Crates] in
theorem attempts_sweepRow {now : Time} {maxCycles : ℤ} {r : DeliveryRow}
    (h : maxCycles ≤ r.completionCycles + 1) :
    (sweepRow now maxCycles r).attempts = r.attempts := by
  rw [sweepRow, if_pos h]

theorem attempts_mono (hw : WF config s) (h : Step config s a s') (hone : OneDispatcher s a)
    (hlast : LastCycle config d s a) {r' : DeliveryRow} (hr' : s'.db.deliveries.get d = some r') :
    (∃ r, s.db.deliveries.get d = some r ∧ r.attempts ≤ r'.attempts) ∨
      (s.db.deliverySeq ≤ d ∧ r'.attempts = 0) := by
  have hrow := row_step h d
  generalize ho : s.db.deliveries.get d = o at hrow
  rw [hr'] at hrow
  cases hrow with
  | keep => exact .inl ⟨r', rfl, le_rfl⟩
  | inserted p b u n hd => exact .inr ⟨hd, rfl⟩
  | poisoned t fault reason r => exact .inl ⟨r, rfl, le_rfl⟩
  | locked t fault due u r => exact .inl ⟨r, rfl, (Int.lt_succ r.attempts).le⟩
  | wroteBack t fault due u stmt r ht hp =>
    exact .inl ⟨r, rfl, (attempts_writeBack (hw.tasks.stmt t ht due u stmt hp) s.now r).ge⟩
  | swept maxCycles r hh =>
    have hle := hlast r ho maxCycles (by rw [hh]; rfl)
    exact .inl ⟨r, rfl, (attempts_sweepRow hle).ge⟩
  | retried r => exact absurd hone id
  | completed r => exact .inl ⟨r, rfl, le_rfl⟩
  | abandoned r => exact .inl ⟨r, rfl, le_rfl⟩

theorem attempts_grow (hw : WF config s) (h : Step config s a s') (hone : OneDispatcher s a)
    (hlast : LastCycle config d s a) (hd : d < s.db.deliverySeq) {r' : DeliveryRow}
    (hr' : s'.db.deliveries.get d = some r') :
    ∃ r, s.db.deliveries.get d = some r ∧ r.attempts ≤ r'.attempts := by
  rcases attempts_mono hw h hone hlast hr' with hr | ⟨hfresh, -⟩
  · exact hr
  · omega

omit [Crates] in
theorem waiting_iff (p : Phase) : waiting p ↔ 3 ≤ left p := by
  cases p <;> simp [waiting, left]

/-- The lock has counted one more. -/
theorem count_of_locked {t : Task} {b : TaskAction} {now : Time} {db db' : Db} {due : DueDelivery}
    {u : Time} {obs : List Obs} (h : TaskStep config now db t b db' (some (.locked due u)) obs) :
    t.phase = .locking due u ∧ ∃ r r', db.deliveries.get due.deliveryId = some r ∧
      db'.deliveries.get due.deliveryId = some r' ∧ r'.attempts = r.attempts + 1 := by
  generalize hphase : some (Phase.locked due u) = phase at h
  cases h with
  | lock due' u' hp hg =>
    cases hphase
    obtain ⟨r, hr, hg⟩ := (Stmt.affects_iff _).mp hg
    exact ⟨hp, r, _, hr, by rw [Stmt.get_exec, hr, Option.map_some, if_pos ⟨rfl, hg⟩], rfl⟩
  | respond due u result jitter =>
    obtain ⟨stmt, -, hw⟩ := Option.map_eq_some_iff.mp hphase.symm
    cases hw
  | _ => cases hphase

/-- **Tasks, when nothing is sent.** -/
theorem taskTold_step (hw : WF config s) (hi : Announced s d) (h : Step config s a s')
    (hone : OneDispatcher s a) (hlast : LastCycle config d s a) (hsent : sent d s' = sent d s)
    {t : Task} (ht : t ∈ s'.tasks.rows) (hd : t.row.deliveryId = d) : TaskAnnounced s' d t := by
  have hlt : ∀ t₀ ∈ s.tasks.rows, t₀.row.deliveryId = d → d < s.db.deliverySeq :=
    fun t₀ ht₀ hd₀ => hd₀ ▸ hw.tasks.id_lt hw.issued ht₀
  rcases h.tasks ht with ⟨hold, -⟩ | ⟨rfl, hp, -, -, r, hr, -, e, -, -, heq⟩ |
    ⟨t₀, ht₀, b, obs, rfl, heq, hs, -⟩
  · obtain ⟨hnonneg, hrow, hwait, hlock⟩ := hi.task t hold hd
    refine ⟨hnonneg, fun r' hr' => ?_, fun hp => hsent ▸ hwait hp, fun due u hp r' hr' => ?_⟩
    · obtain ⟨r, hr, hle⟩ := attempts_grow hw h hone hlast (hlt t hold hd) hr'
      exact (hrow r hr).trans hle
    · obtain ⟨r, hr, hle⟩ := attempts_grow hw h hone hlast (hlt t hold hd) hr'
      exact (hlock due u hp r hr).trans hle
  · have hget : s.db.deliveries.get d = some r := Table.get_eq_some_iff.mpr ⟨hr, by rw [← hd, heq]⟩
    have hatt : t.row.attempts = r.attempts := by rw [heq]
    refine ⟨hatt ▸ hi.nonneg r hget, fun r' hr' => ?_, fun _ => ?_, fun due u hp' => ?_⟩
    · have hid : r.id = d := by rw [← hd, heq]
      obtain ⟨r₀, hr₀, hle⟩ := attempts_grow hw h hone hlast (hid ▸ s.db.seq_fresh r hr) hr'
      rw [hatt, Option.some.inj (hget.symm.trans hr₀)]
      exact hle
    · rw [hsent, hatt]
      exact hi.row r hget
    · rw [hp] at hp'
      cases hp'
  · have hrow : t.row = t₀.row := by rw [heq]
    have hd₀ : t₀.row.deliveryId = d := by rw [← hd, hrow]
    obtain ⟨hnonneg, hle₀, hwait, -⟩ := hi.task t₀ ht₀ hd₀
    refine ⟨hrow ▸ hnonneg, fun r' hr' => ?_, fun hp => ?_, fun due u hp r' hr' => ?_⟩
    · obtain ⟨r, hr, hle⟩ := attempts_grow hw h hone hlast (hlt t₀ ht₀ hd₀) hr'
      rw [hrow]
      exact (hle₀ r hr).trans hle
    · rw [hsent, hrow]
      exact hwait (earlier_of_taskStep waiting_iff hs hp)
    · rw [hp] at hs
      obtain ⟨hp₀, r, r₁, hr, hr₁, hcount⟩ := count_of_locked hs
      have hx := hw.examined ht₀ (show t₀.phase.due? = some due by rw [hp₀]; rfl)
      rw [hx.deliveryId, hd₀] at hr hr₁
      cases hr₁.symm.trans hr'
      rw [hrow, hcount]
      exact Int.add_le_add_right (hle₀ r hr) 1

/-- The task that calls the receiver is the only one at the delivery. -/
theorem delivering_of_deliver {t t' : Task} (hs : Single s)
    (h : Step config s (.task t.tid .deliver) s')
    (ht : t ∈ s.tasks.rows) (hd : t.row.deliveryId = d) (ht' : t' ∈ s'.tasks.rows)
    (hd' : t'.row.deliveryId = d) : t'.row = t.row ∧ ∃ due u, t'.phase = .delivering due u := by
  rcases h.tasks ht' with ⟨hold, hne⟩ | ⟨hf, -⟩ | ⟨t₀, ht₀, b, obs, ha, heq, hstep, -⟩
  · rw [hs t' hold t ht (hd'.trans hd.symm)] at hne
    exact absurd rfl (hne .deliver)
  · cases hf
  · obtain ⟨htid, rfl⟩ := Action.task.inj ha
    obtain rfl := Table.eq_of_key ht ht₀ htid
    refine ⟨by rw [heq], ?_⟩
    generalize hphase : some t'.phase = phase at hstep
    generalize s'.db = db' at hstep
    cases hstep with
    | dropped => cases hphase
    | deliver due u => exact ⟨due, u, Option.some.inj hphase⟩

/-- **The step.** -/
theorem announced_step (hw : WF config s) (hi : Announced s d) (h : Step config s a s')
    (hone : OneDispatcher s a) (hlast : LastCycle config d s a) : Announced s' d := by
  have hsingle : Single s' := single_step hi.single h (by rintro rfl; exact hone)
  have hnonneg : ∀ r', s'.db.deliveries.get d = some r' → 0 ≤ r'.attempts := by
    intro r' hr'
    rcases attempts_mono hw h hone hlast hr' with ⟨r, hr, hle⟩ | ⟨-, hzero⟩
    · exact (hi.nonneg r hr).trans hle
    · exact hzero.ge
  rcases sent_step hw h d with hsent | ⟨t, ht, hd, rfl, hdb, ⟨due, u, hp⟩, hsent⟩
  · refine ⟨hsingle, fun hd => ?_, hnonneg, fun r' hr' => ?_,
      fun t ht hd => taskTold_step hw hi h hone hlast hsent ht hd, hsent ▸ hi.increasing⟩
    · rw [hsent]
      exact hi.fresh ((deliverySeq_le h).trans hd)
    · rw [hsent]
      rcases attempts_mono hw h hone hlast hr' with ⟨r, hr, hle⟩ | ⟨hfresh, -⟩
      · exact fun n hn => (hi.row r hr n hn).trans hle
      · simp [hi.fresh hfresh]
  · obtain ⟨hnn, hle₀, hwait, hlock⟩ := hi.task t ht hd
    have hle : ∀ n ∈ sent d s, n ≤ t.row.attempts := hwait (by rw [hp]; rfl)
    refine ⟨hsingle, fun hfresh => ?_, hnonneg, fun r' hr' => ?_, fun t' ht' hd' => ?_, ?_⟩
    · have hlt := hw.tasks.id_lt hw.issued ht
      rw [hdb] at hfresh
      omega
    · rw [hdb] at hr'
      rw [hsent, List.forall_mem_cons]
      exact ⟨hlock due u hp r' hr', hi.row r' hr'⟩
    · obtain ⟨hrow, due', u', hp'⟩ := delivering_of_deliver hi.single h ht hd ht' hd'
      rw [← hrow] at hnn hle₀
      refine ⟨hnn, fun r hr => hle₀ r (hdb ▸ hr), fun hw => ?_, fun due u hl => ?_⟩
      · rw [hp'] at hw
        cases hw
      · rw [hp'] at hl
        cases hl
    · rw [hsent]
      refine ⟨List.pairwise_cons.mpr ⟨fun n hn => ?_, hi.increasing.1⟩,
        List.forall_mem_cons.mpr ⟨?_, hi.increasing.2⟩⟩
      · exact Int.lt_add_one_of_le (hle n hn)
      · exact Int.add_le_add_right hnn 1

omit [Crates] in
theorem announced_init (now : Time) (scheds : ℕ → Sched) (d : ℤ) :
    Announced (init now scheds) d where
  single := single_init now scheds
  fresh _ := rfl
  nonneg r hr := by cases hr
  row r hr := by cases hr
  task t ht := by simp [init] at ht
  increasing := ⟨List.Pairwise.nil, by simp [sent, init]⟩

/-- **The numbers sent for a delivery increase** in every run of one dispatcher, any number of
schedulers and the sweeper without retries by hand, as long as no sweep finds the delivery hung
before its last cycle. -/
theorem attempts_increase {now : Time} {scheds : ℕ → Sched} (hq : Quiet scheds) (d : ℤ)
    (h : Run (step config) (fun s a _ => OneDispatcher s a ∧
      LastCycle config d s a) (init now scheds) s) :
    Increasing (sent d s) := by
  have hinv : WF config s ∧ Announced s d := by
    refine h.invariant (fun s => WF config s ∧ Announced s d) ⟨wf_init now hq,
      announced_init now scheds d⟩ ?_
    rintro s a s' ⟨hw, hi⟩ hs ⟨hone, hlast⟩
    exact ⟨wf_step hw (step_cases hs), announced_step hw hi (step_cases hs) hone hlast⟩
  exact hinv.2.increasing

end

/-- The event with one external callback is scheduled, and its delivery is fetched, locked and made.
-/
def firstCall (maxCycles : ℤ) : List Action :=
  [.publish (sampleEvent 1 [sampleCallback "hook_a" [("mode", .str "external"),
      ("external_completion_timeout_seconds", .int 60),
      ("max_completion_cycles", .int maxCycles)]]),
    .commit 1, .sched 0 .poll, .sched 0 (.write .ok), .sched 0 .next, .fetch,
    .task 0 (.examine .ok), .task 0 .computeLock, .task 0 (.lock .ok), .task 0 .deliver]

/-- It is fetched, locked and made again. -/
def secondCall : List Action :=
  [.fetch, .task 1 (.examine .ok), .task 1 .computeLock, .task 1 (.lock .ok), .task 1 .deliver]

/-- The dispatcher crashes during the call, and repeats it when the lock has expired; the callback
is not completed in time, and has one cycle only. -/
theorem attempts_increase_crash :
    ∃ s, Run (@step sampleCrates {}) (fun s a _ => OneDispatcher s a ∧ LastCycle {} 1 s a)
        (init 0 oneScheduler) s ∧ sent 1 s = [2, 1] ∧ Increasing (sent 1 s) := by
  have hex : ∃ s, Run (@step sampleCrates {}) (fun s a _ => OneDispatcher s a ∧ LastCycle {} 1 s a)
      (init 0 oneScheduler) s ∧ sent 1 s = [2, 1] :=
    Run.exists_of_exec (firstCall 1 ++ [.task 0 .crash, .tick (fromSecs 600)] ++ secondCall ++
      [.task 1 (.respond .ok 0), .task 1 (.writeBack .ok), .tick (fromSecs 61),
        .sweep]) (by decide +kernel)
  obtain ⟨s, hrun, hsent⟩ := hex
  exact ⟨s, hrun, hsent, @attempts_increase sampleCrates _ _ _ _ quiet_oneScheduler 1 hrun⟩

/-- The callback is not completed in time, and the webhook that repeats it carries the number 1
again. -/
theorem attempts_start_again :
    ∃ s, Run (@step sampleCrates {}) (fun s a _ => OneDispatcher s a) (init 0 oneScheduler) s ∧
      sent 1 s = [1, 1] ∧ ¬Increasing (sent 1 s) := by
  have hex :
      ∃ s, Run (@step sampleCrates {}) (fun s a _ => OneDispatcher s a) (init 0 oneScheduler) s ∧
      sent 1 s = [1, 1] :=
    Run.exists_of_exec (firstCall 20 ++ [.task 0 (.respond .ok 0), .task 0 (.writeBack .ok),
      .tick (fromSecs 61), .sweep] ++ secondCall) (by decide +kernel)
  obtain ⟨s, hrun, hsent⟩ := hex
  refine ⟨s, hrun, hsent, fun hinc => ?_⟩
  have hlt := hinc.1
  rw [hsent] at hlt
  exact absurd hlt (by decide)

end OutboxDispatcher.Dispatch.Redelivery
