import OutboxDispatcher.Dispatch.StaleWriteBack
import OutboxDispatcher.System.Counts

/-! # Is a locked row still due?

`fetch_due_deliveries` and `lock_delivery` both ask whether a row is to be delivered, the second one
of a row that may have waited in its batch for minutes. The lock asks less: it does not look at
`processed_at` and `available_at` (`isDue_iff`).

* `granted_due`: as long as rows are not completed, and failures of other dispatchers not recorded,
  while a dispatcher has the row in its batch, a granted lock means that the row is due, and calls
  are made for rows that are not completed and not before their time.
* `granted_not_due`: the two interleavings in which the lock is granted on a row that is not due. -/

namespace OutboxDispatcher.Dispatch.DueAtLock

open OutboxDispatcher.Lib.Runs OutboxDispatcher.Lib.Tables OutboxDispatcher.Schema
open OutboxDispatcher.Callbacks.Fields OutboxDispatcher.Repo.Database
  OutboxDispatcher.Repo.Statements
open OutboxDispatcher.Scheduler.Pass OutboxDispatcher.Dispatch OutboxDispatcher.Dispatch.Exclusion
open OutboxDispatcher.Dispatch.StaleWriteBack OutboxDispatcher.System
  OutboxDispatcher.System.Effects
open OutboxDispatcher.System.History OutboxDispatcher.System.Rows OutboxDispatcher.System.Counts

/-- **What the lock does not ask.** -/
theorem isDue_iff (now u : Time) (r : DeliveryRow) : isDue now r ↔
    (Stmt.lockDelivery u).guard now r ∧ r.processedAt = none ∧ r.availableAt ≤ now := by
  rw [isDue_iff_columns, Stmt.guard_lockDelivery_iff]
  tauto

/-! ### Considerate steps -/

def beforeLock : Phase → Bool
  | .fetched | .ready _ | .locking _ _ => true
  | _ => false

/-- The task has locked its row and not called the receiver yet. -/
def beforeCall : Phase → Bool
  | .locked _ _ => true
  | _ => false

def completes? : Action → Option ℤ
  | .complete d => some d
  | _ => none

/-- A failure after which the row is to be delivered again, later. -/
def postpones : Stmt → Bool
  | .markFailure _ _ deadLetter => !deadLetter
  | _ => false

/-- A row is not completed while a task is between its fetch and its call; and a task does not write
to a row that another one has locked and is about to call, nor does it postpone one that another one
is about to lock. -/
def Considerate (s : Sys) (a : Action) (_ : Sys) : Prop :=
  (∀ d ∈ completes? a, ∀ t ∈ s.tasks.rows, t.row.deliveryId = d →
    beforeLock t.phase = false ∧ beforeCall t.phase = false) ∧
  ∀ x ∈ writesBack? s a, ∀ t ∈ s.tasks.rows, t.row.deliveryId = x.2.1.deliveryId →
    beforeCall t.phase = false ∧ (postpones x.2.2 → beforeLock t.phase = false)

instance (s : Sys) (a : Action) (s' : Sys) : Decidable (Considerate s a s') :=
  inferInstanceAs (Decidable (_ ∧ _))

/-- The row is neither completed nor postponed. -/
def Current (now : Time) (r : DeliveryRow) : Prop := r.processedAt = none ∧ r.availableAt ≤ now

theorem Current.mono {now now' : Time} {r : DeliveryRow} (h : Current now r) (hle : now ≤ now') :
    Current now' r := ⟨h.1, h.2.trans hle⟩

/-- The rows that tasks are about to lock or to call for. -/
structure InTime (s : Sys) : Prop where
  waiting : ∀ t ∈ s.tasks.rows, beforeLock t.phase → ∀ r ∈ s.db.deliveries.get t.row.deliveryId,
    r.dispatchedAt = none → r.deadLetter = false → Current s.now r
  locked : ∀ t ∈ s.tasks.rows, beforeCall t.phase → ∀ r ∈ s.db.deliveries.get t.row.deliveryId,
    Current s.now r

section

variable [Crates] {config : DispatchConfig} {s s' : Sys} {a : Action}

/-- A row that a task waits for, after a step of somebody else. -/
theorem waiting_row_step (hw : WF config s) (hi : InTime s) (h : Step config s a s')
    (hok : Considerate s a s') {t : Task} (ht : t ∈ s.tasks.rows) (hp : beforeLock t.phase)
    {r' : DeliveryRow} (hr' : s'.db.deliveries.get t.row.deliveryId = some r')
    (hdisp : r'.dispatchedAt = none) (hdead : r'.deadLetter = false) : Current s.now r' := by
  have hold := hi.waiting t ht hp
  have hissued := hw.tasks.id_lt hw.issued ht
  have hrow := row_step h t.row.deliveryId
  rw [hr'] at hrow
  generalize hd : t.row.deliveryId = d at hrow hold hissued
  generalize hr : s.db.deliveries.get d = o at hrow hold
  generalize hn : some r' = n at hrow
  cases hrow with
  | keep => subst hn; exact hold r' rfl hdisp hdead
  | inserted p b u n hle => exact absurd hissued (not_lt.mpr hle)
  | poisoned | abandoned => cases hn; cases hdead
  | locked t' fault due u r => cases hn; exact hold r rfl hdisp hdead
  | wroteBack t' fault due u stmt r ht' hp' hid hf hg =>
    have hx := writesBack?_of_writing ht' hp' hf
    cases hn
    rcases (hw.tasks.stmt t' ht' due u stmt hp').cases
      with rfl | ⟨rfl, -⟩ | ⟨error, availableAt, dead, rfl⟩
    · cases hdisp
    · cases hdisp
    · have hlate :=
        (hok.2 _ hx t ht (hd.trans hid.symm)).2 (by simpa [postpones, Stmt.assign] using hdead)
      rw [hp] at hlate
      cases hlate
  | swept maxCycles r hl t₁ hle =>
    obtain ⟨-, -, hproc, -⟩ := externalPending_of_hungLimit hl
    cases hn
    by_cases hc : r.completionCycles + 1 ≥ maxCycles
    · simp [sweepRow, hc] at hdead
    · simpa [sweepRow, hc, Current, hproc] using hle
  | retried r => cases hn; exact ⟨rfl, le_rfl⟩
  | completed r =>
    have hnot := (hok.1 d rfl t ht hd).1
    rw [hp] at hnot
    cases hnot
  | deleted => cases hn

/-- A row that a task has locked, after a step of somebody else. -/
theorem locked_row_step (hw : WF config s) (hi : InTime s) (h : Step config s a s')
    (hok : Considerate s a s') {t : Task} (ht : t ∈ s.tasks.rows) (hp : beforeCall t.phase)
    {r' : DeliveryRow} (hr' : s'.db.deliveries.get t.row.deliveryId = some r') :
    Current s.now r' := by
  have hold := hi.locked t ht hp
  have hissued := hw.tasks.id_lt hw.issued ht
  have hrow := row_step h t.row.deliveryId
  rw [hr'] at hrow
  generalize hd : t.row.deliveryId = d at hrow hold hissued
  generalize hr : s.db.deliveries.get d = o at hrow hold
  generalize hn : some r' = n at hrow
  cases hrow with
  | keep => subst hn; exact hold r' rfl
  | inserted p b u n hle => exact absurd hissued (not_lt.mpr hle)
  | poisoned t' fault reason r | locked t' fault due u r | abandoned r => cases hn; exact hold r rfl
  | wroteBack t' fault due u stmt r ht' hp' hid hf hg =>
    have hx := writesBack?_of_writing ht' hp' hf
    have hlate := (hok.2 _ hx t ht (hd.trans hid.symm)).1
    rw [hp] at hlate
    cases hlate
  | swept maxCycles r hl t₁ hle =>
    obtain ⟨hproc, hav⟩ := hold r rfl
    cases hn
    by_cases hc : r.completionCycles + 1 ≥ maxCycles
    · simpa [sweepRow, hc, Current, hproc] using hav
    · simpa [sweepRow, hc, Current, hproc] using hle
  | retried r => cases hn; exact ⟨rfl, le_rfl⟩
  | completed r =>
    have hnot := (hok.1 d rfl t ht hd).2
    rw [hp] at hnot
    cases hnot
  | deleted => cases hn

omit [Crates] in
theorem beforeLock_iff (p : Phase) : beforeLock p ↔ 4 ≤ left p := by
  cases p <;> simp [beforeLock, left]

theorem taskStep_beforeCall {now : Time} {db db' : Db} {t : Task} {b : TaskAction} {p : Phase}
    {obs : List Obs} (h : TaskStep config now db t b db' (some p) obs) (hp : beforeCall p) :
    ∃ due u, t.phase = .locking due u ∧ (Stmt.lockDelivery u).affects db now due.deliveryId ∧
      db' = (Stmt.lockDelivery u).exec db now due.deliveryId := by
  generalize hq : some p = q at h
  cases h with
  | dropped | poisoned | lockPanicked | lockUnacked | lockRefused | wroteBack => cases hq
  | examined | computeLock | deliver => cases hq; cases hp
  | lock due u hph hg => exact ⟨due, u, hph, hg, rfl⟩
  | respond due u result jitter hph =>
    obtain ⟨stmt, -, rfl⟩ := Option.map_eq_some_iff.mp hq.symm
    cases hp

theorem inTime_step (hw : WF config s) (hi : InTime s) (h : Step config s a s')
    (hok : Considerate s a s') : InTime s' := by
  have hle := now_le h
  constructor
  · intro t ht hp r' hr' hdisp hdead
    rcases h.tasks ht with ⟨hold, -⟩ | ⟨ha, -, -, -, r, hr, hdue, e, -, -, hrow⟩ |
      ⟨t₀, ht₀, b, obs, -, heq, hs, -⟩
    · exact (waiting_row_step hw hi h hok hold hp hr' hdisp hdead).mono hle
    · rw [hrow] at hr'
      subst ha
      cases h with
      | fetch rows hf =>
        obtain rfl : r = r' := Option.some.inj ((Table.get_of_mem hr).symm.trans hr')
        exact ((isDue_iff s.now 0 r).mp hdue).2
    · rw [heq] at hr'
      exact (waiting_row_step hw hi h hok ht₀ (earlier_of_taskStep beforeLock_iff hs hp) hr' hdisp
        hdead).mono hle
  · intro t ht hp r' hr'
    rcases h.tasks ht with ⟨hold, -⟩ | ⟨-, hf, -⟩ | ⟨t₀, ht₀, b, obs, -, heq, hs, -⟩
    · exact (locked_row_step hw hi h hok hold hp hr').mono hle
    · rw [hf] at hp
      cases hp
    · obtain ⟨due, u, hph, hg, hdb⟩ := taskStep_beforeCall hs hp
      have hid : due.deliveryId = t₀.row.deliveryId :=
        (hw.examined ht₀ (by rw [hph]; rfl)).deliveryId
      obtain ⟨r, hr, hg⟩ := (Stmt.affects_iff _).mp hg
      rw [heq, hdb, hid, Stmt.get_exec, ← hid, hr, Option.map_some, if_pos ⟨rfl, hg⟩] at hr'
      cases hr'
      -- the lock asks for the two columns under which a waiting row is in time
      obtain ⟨-, hdisp, hlive⟩ := Stmt.guard_lockDelivery_iff.mp hg
      exact (hi.waiting t₀ ht₀ (by rw [hph]; rfl) r (hid ▸ hr) hdisp hlive).mono hle

omit [Crates] in
theorem inTime_init (now : Time) (scheds : ℕ → Sched) : InTime (init now scheds) :=
  ⟨by simp [init], by simp [init]⟩

/-- **A granted lock means that the row is due**, in every run of considerate steps: in every state,
a row on which the lock is granted satisfies all that the query for due rows asks; and when a
receiver is called, the row is not completed, and its `available_at` has come. -/
theorem granted_due {now : Time} {scheds : ℕ → Sched} (hq : Quiet scheds)
    (h : Run (step config) Considerate (init now scheds) s) :
    (∀ a t due, locks? s a = some (t, due) →
      ∃ r, s.db.deliveries.get due.deliveryId = some r ∧ isDue s.now r) ∧
    ∀ a s', step config s a = some s' → ∀ tid event, .deliver tid event ∈ newObs s s' →
      ∀ r ∈ s.db.deliveries.get event.deliveryId, r.processedAt = none ∧ r.availableAt ≤ s.now := by
  have hinv : WF config s ∧ InTime s :=
    h.invariant (fun s => WF config s ∧ InTime s) ⟨wf_init now hq, inTime_init now scheds⟩
      fun s a s' hi hs hok =>
      ⟨wf_step hi.1 (step_cases hs), inTime_step hi.1 hi.2 (step_cases hs) hok⟩
  obtain ⟨hw, hi⟩ := hinv
  constructor
  · intro a t due hl
    obtain ⟨ht, fault, u, r, -, -, hp, hr, hg⟩ := locks?_eq_some hl
    have hid : due.deliveryId = t.row.deliveryId := (hw.examined ht (by rw [hp]; rfl)).deliveryId
    refine ⟨r, hr, (isDue_iff s.now u r).mpr ⟨hg, ?_⟩⟩
    obtain ⟨-, hdisp, hlive⟩ := Stmt.guard_lockDelivery_iff.mp hg
    exact hi.waiting t ht (by rw [hp]; rfl) r (hid ▸ hr) hdisp hlive
  · intro a s' hs tid event ho r hr
    obtain ⟨obs, htr, hobs⟩ := trace_step (step_cases hs)
    rw [newObs_eq htr] at ho
    obtain ⟨t, ht, due, u, hp, rfl, -⟩ := obs_deliver (hobs _ ho)
    have hid : due.deliveryId = t.row.deliveryId := (hw.examined ht (by rw [hp]; rfl)).deliveryId
    exact hi.locked t ht (by rw [hp]; rfl) r (hid ▸ hr)

end

/-! ### A row that waits in a batch -/

/-- A row is scheduled, and two dispatchers fetch it. -/
def twoBatches : List Action :=
  [.publish (sampleEvent 1 [sampleCallback "hook_a" []]), .commit 1, .sched 0 .poll,
    .sched 0 (.write .ok), .sched 0 .next, .fetch, .fetch, .task 0 (.examine .ok),
    .task 1 (.examine .ok), .task 0 .computeLock, .task 1 .computeLock]

/-- The second dispatcher is refused the lock; the first one's call fails, and a minute later it
fetches the row again. -/
theorem granted_due_nextAttempt :
    ∃ s, Run (@step sampleCrates {}) Considerate (init 0 oneScheduler) s ∧
      ∃ t due, locks? s (.task 2 (.lock .ok)) = some (t, due) ∧
        ∃ r, s.db.deliveries.get due.deliveryId = some r ∧ isDue s.now r := by
  have hex : ∃ s, Run (@step sampleCrates {}) Considerate (init 0 oneScheduler) s ∧
      (locks? s (.task 2 (.lock .ok))).isSome :=
    Run.exists_of_exec (twoBatches ++ [.task 0 (.lock .ok), .task 1 (.lock .ok), .task 0 .deliver,
      .task 0 (.respond .timeout 0), .task 0 (.writeBack .ok), .tick (fromSecs 60), .fetch,
      .task 2 (.examine .ok), .task 2 .computeLock]) (by decide +kernel)
  obtain ⟨s, hrun, hl⟩ := hex
  obtain ⟨⟨t, due⟩, hl⟩ := Option.isSome_iff_exists.mp hl
  exact ⟨s, hrun, t, due, hl,
    (@granted_due sampleCrates {} s 0 _ quiet_oneScheduler hrun).1 _ t due hl⟩

/-- **The lock is granted on rows that are not due.** While the first dispatcher has the row in its
batch, the receiver completes the delivery; or the second dispatcher calls, fails, and postpones the
row by the backoff. The first one takes the lock, and calls. -/
theorem granted_not_due :
    (∃ s, Run (@step sampleCrates {}) anyStep (init 0 oneScheduler) s ∧
      (locks? s (.task 0 (.lock .ok))).isSome ∧
      (s.db.deliveries.get 1).any (fun r => r.processedAt.isSome ∧ isDue s.now r = false) ∧
      ∃ s', Run (@step sampleCrates {}) anyStep s s' ∧ calls 1 s'.trace = calls 1 s.trace + 1) ∧
    ∃ s, Run (@step sampleCrates {}) anyStep (init 0 oneScheduler) s ∧
      (locks? s (.task 0 (.lock .ok))).isSome ∧
      (s.db.deliveries.get 1).any (fun r => r.availableAt = s.now + fromSecs 30 ∧
        isDue s.now r = false) ∧
      ∃ s', Run (@step sampleCrates {}) anyStep s s' ∧ calls 1 s'.trace = calls 1 s.trace + 1 := by
  have hcompleted : ∃ s, Run (@step sampleCrates {}) anyStep (init 0 oneScheduler) s ∧
      (locks? s (.task 0 (.lock .ok))).isSome ∧
      (s.db.deliveries.get 1).any (fun r => r.processedAt.isSome ∧ isDue s.now r = false) ∧
      (exec (@step sampleCrates {}) anyStep [.task 0 (.lock .ok), .task 0 .deliver] s).any fun s' =>
        calls 1 s'.trace = calls 1 s.trace + 1 :=
    Run.exists_of_exec (twoBatches ++ [.complete 1]) (by decide +kernel)
  have hpostponed : ∃ s, Run (@step sampleCrates {}) anyStep (init 0 oneScheduler) s ∧
      (locks? s (.task 0 (.lock .ok))).isSome ∧
      (s.db.deliveries.get 1).any
        (fun r => r.availableAt = s.now + fromSecs 30 ∧ isDue s.now r = false) ∧
      (exec (@step sampleCrates {}) anyStep [.task 0 (.lock .ok), .task 0 .deliver] s).any fun s' =>
        calls 1 s'.trace = calls 1 s.trace + 1 :=
    Run.exists_of_exec (twoBatches ++ [.task 1 (.lock .ok), .task 1 .deliver,
      .task 1 (.respond .timeout 0), .task 1 (.writeBack .ok)]) (by decide +kernel)
  obtain ⟨s, hrun, hl, hr, hafter⟩ := hcompleted
  obtain ⟨s₁, hrun₁, hl₁, hr₁, hafter₁⟩ := hpostponed
  obtain ⟨s', hs', hcall⟩ := (Option.any_eq_true _ _).mp hafter
  obtain ⟨s₁', hs₁', hcall₁⟩ := (Option.any_eq_true _ _).mp hafter₁
  exact ⟨⟨s, hrun, hl, hr, s', Run.of_exec _ hs', of_decide_eq_true hcall⟩,
    s₁, hrun₁, hl₁, hr₁, s₁', Run.of_exec _ hs₁', of_decide_eq_true hcall₁⟩

end OutboxDispatcher.Dispatch.DueAtLock
