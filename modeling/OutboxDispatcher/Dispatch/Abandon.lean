import OutboxDispatcher.Dispatch.Exclusion
import OutboxDispatcher.System.Counts
import OutboxDispatcher.System.Phases

/-! # Abandoned deliveries

`abandon_delivery` dead-letters a row whatever a dispatcher or a sweep is doing with it. The lock
refuses a dead-lettered row, but a dispatcher that has locked it before goes on: it may be about to
call the receiver, and when its call fails, `mark_failure` assigns `dead_letter` once more, from its
own count of attempts. And a sweep that has selected the row before resets it.

* `abandon_sticky`: when no dispatcher is at such a point and no sweep has selected the row, an
  abandoned row stays dead-lettered, and its receiver is not called, until an operator retries it.
* `abandon_undone`: a failure that is recorded after the row was abandoned brings it back, and so
  does the update of a sweep. -/

namespace OutboxDispatcher.Dispatch.Abandon

open OutboxDispatcher.Lib.Runs OutboxDispatcher.Lib.Tables OutboxDispatcher.Schema
open OutboxDispatcher.Callbacks.Fields OutboxDispatcher.Repo.Database
  OutboxDispatcher.Repo.Statements
open OutboxDispatcher.Scheduler.Pass OutboxDispatcher.Dispatch OutboxDispatcher.Dispatch.Exclusion
open OutboxDispatcher.System OutboxDispatcher.System.Effects OutboxDispatcher.System.History
open OutboxDispatcher.System.Rows OutboxDispatcher.System.Counts OutboxDispatcher.System.Phases

/-- A task in this phase may still call the receiver, or record a failure that is not the last one.
-/
def revives : Phase → Bool
  | .locked _ _ => true
  | .delivering due _ => due.attempts + 1 < asI32 due.target.maxAttempts
  | .writing _ _ (.markFailure _ _ deadLetter) => !deadLetter
  | _ => false

def Unrevived (s : Sys) (d : ℤ) : Prop :=
  ∀ t ∈ s.tasks.rows, t.row.deliveryId = d → revives t.phase = false

instance (s : Sys) (d : ℤ) : Decidable (Unrevived s d) :=
  inferInstanceAs (Decidable (∀ t ∈ s.tasks.rows, t.row.deliveryId = d → revives t.phase = false))

/-- No sweep has selected the row `d` and not updated it yet. -/
def Unselected (w : Phased) (d : ℤ) : Prop := ∀ p, ∀ u ∈ (w.sweeps p).rows, u.row.id ≠ d

/-- The row `d` is out of the queue: dead-lettered or gone for good, and no task can bring it back.
-/
structure Shelved (s : Sys) (d : ℤ) : Prop where
  issued : d < s.db.deliverySeq
  row : ∀ r ∈ s.db.deliveries.get d, r.deadLetter
  tasks : Unrevived s d

section

variable [Crates] {config : DispatchConfig} {s s' : Sys} {a : Action} {d : ℤ}

omit [Crates] in
/-- The failure of a call that was the last one dead-letters the row. -/
theorem not_revives_writing {now : Time} {jitter : ℚ} {due : DueDelivery} {u : Time}
    {result : CallbackResult} {stmt : Stmt} (h : writeBackStmt now jitter due result = some stmt)
    (hlast : revives (.delivering due u) = false) : revives (.writing due u stmt) = false := by
  cases writeBack_of_stmt h with
  | managed | external => rfl
  | failure =>
    simp only [revives, decide_eq_false_iff_not, not_lt] at hlast
    simpa [revives] using hlast

theorem shelved_row_step (hw : WF config s) (hi : Shelved s d) (h : Step config s a s')
    (hno : a = .retry d → ∀ r ∈ s.db.deliveries.get d, ¬Stmt.retryDelivery.guard s.now r)
    {r' : DeliveryRow} (hr' : s'.db.deliveries.get d = some r') :
    r'.deadLetter := by
  have hrow := row_step h d
  rw [hr'] at hrow
  have hold := hi.row
  generalize hr : s.db.deliveries.get d = o at hrow hold
  generalize hn : some r' = n at hrow
  cases hrow with
  | keep => subst hn; exact hold r' rfl
  | inserted p b u n hd => exact absurd hi.issued (not_lt.mpr hd)
  | poisoned | abandoned => cases hn; rfl
  | locked t fault due lockUntil r ht hp hid hg =>
    have hdead := hold r rfl
    simp [Stmt.guard, hdead] at hg
  | wroteBack t fault due lockUntil stmt r ht hp hid hf hg =>
    have hdead := hold r rfl
    have hrow' : t.row.deliveryId = d := (holds_writing hw ht hp).2.1.trans hid
    have hlate := hi.tasks t ht hrow'
    rw [hp] at hlate
    cases hn
    rcases (hw.tasks.stmt t ht due lockUntil stmt hp).cases with rfl | ⟨rfl, -⟩ | ⟨_, _, _, rfl⟩
    · exact hdead
    · exact hdead
    · simpa [revives, Stmt.assign] using hlate
  | swept maxCycles r hl =>
    obtain ⟨-, -, -, hlive⟩ := externalPending_of_hungLimit hl
    have hdead := hold r rfl
    rw [hlive] at hdead
    cases hdead
  | retried r hg => exact absurd hg (hno rfl r hr)
  | completed r => cases hn; exact hold r rfl
  | deleted => cases hn

theorem unrevived_step (hw : WF config s) (hi : Shelved s d) (h : Step config s a s') :
    Unrevived s' d := by
  intro t ht hd
  rcases h.tasks ht with ⟨hold, -⟩ | ⟨-, hf, -⟩ | ⟨t₀, ht₀, b, obs, -, heq, hs, -⟩
  · exact hi.tasks t hold hd
  · rw [hf]; rfl
  · have hd₀ : t₀.row.deliveryId = d := by rw [← hd, heq]
    have hlate := hi.tasks t₀ ht₀ hd₀
    generalize hq : some t.phase = q at hs
    generalize s'.db = db' at hs
    cases hs with
    | dropped | poisoned | lockPanicked | lockUnacked | lockRefused | wroteBack => cases hq
    | examined | computeLock => rw [Option.some.inj hq]; rfl
    | lock due lockUntil hp hg =>
      have hid : due.deliveryId = t₀.row.deliveryId :=
        (hw.examined ht₀ (by rw [hp]; rfl)).deliveryId
      obtain ⟨r, hr, hg⟩ := (Stmt.affects_iff _).mp hg
      rw [hid, hd₀] at hr
      simp [Stmt.guard, hi.row r hr] at hg
    | deliver due lockUntil hp => rw [hp] at hlate; cases hlate
    | respond due lockUntil result jitter hp =>
      obtain ⟨stmt, hstmt, hph⟩ := Option.map_eq_some_iff.mp hq.symm
      rw [← hph]
      rw [hp] at hlate
      exact not_revives_writing hstmt hlate

theorem shelved_step (hw : WF config s) (hi : Shelved s d) (h : Step config s a s')
    (hno : a = .retry d → ∀ r ∈ s.db.deliveries.get d, ¬Stmt.retryDelivery.guard s.now r) :
    Shelved s' d where
  issued := hi.issued.trans_le (deliverySeq_le h)
  row := fun _ hr => shelved_row_step hw hi h hno hr
  tasks := unrevived_step hw hi h

theorem calls_of_shelved (hw : WF config s) (hi : Shelved s d) (h : Step config s a s') :
    calls d s'.trace = calls d s.trace := by
  obtain ⟨obs, htr, hobs⟩ := trace_step h
  have hnone : ∀ o ∈ obs, isCall d o = false := by
    intro o ho
    by_contra hcall
    rw [Bool.not_eq_false] at hcall
    obtain ⟨t, ht, due, u, hp, hid, -⟩ := obs_call (hobs o ho) hcall
    have hlate := hi.tasks t ht ((hw.examined ht (by rw [hp]; rfl)).deliveryId.symm.trans hid)
    rw [hp] at hlate
    cases hlate
  rw [htr, calls, List.countP_append, List.countP_eq_zero.mpr (by simpa using hnone), Nat.zero_add,
    calls]

theorem shelved_abandon (h : Step config s (.abandon d) s')
    (hres : (abandonDelivery s.db s.now d).2) (hfree : Unrevived s d) : Shelved s' d := by
  obtain ⟨r, hr, -⟩ := (Stmt.affects_iff _).mp hres
  obtain ⟨hm, hid⟩ := Table.get_eq_some_iff.mp hr
  cases h with
  | abandon =>
    refine ⟨?_, fun r' hr' => ?_, hfree⟩
    · exact hid ▸ s.db.seq_fresh r hm
    · rw [Stmt.get_exec, hr] at hr'
      cases hr'
      simp [Stmt.guard, Stmt.assign]

omit [Crates] in
/-- A row that the sweep does not update. -/
theorem shelved_apply (hi : Shelved s d) (now : Time) {u : ToUpdate} (hu : u.row.id ≠ d) :
    Shelved (u.apply now s) d := by
  refine ⟨hi.issued, fun r' hr' => ?_, hi.tasks⟩
  rw [ToUpdate.get_apply, Option.mem_map] at hr'
  obtain ⟨r, hr, rfl⟩ := hr'
  have hid : r.id ≠ u.row.id := (Table.get_eq_some_iff.mp hr).2 ▸ hu.symm
  rw [show (u.rowUpdate now).set r = r from if_neg hid]
  exact hi.row r hr

omit [Crates] in
theorem calls_apply (now : Time) (u : ToUpdate) :
    calls d (u.apply now s).trace = calls d s.trace := by
  unfold ToUpdate.apply ToUpdate.obs calls
  dsimp only
  split_ifs <;> simp [isCall]

variable {w w' : Phased} {b : PhasedAction}

/-- A sweep does not select a row that is dead-lettered. -/
theorem unselected_step (hi : Shelved w.base d) (hu : Unselected w d)
    (h : PhasedStep config w b w') : Unselected w' d := by
  intro p u hm hid
  rcases h.pending hm with ⟨hold, -⟩ | ⟨-, -, hrow, hlim⟩
  · exact hu p u hold hid
  · obtain ⟨-, -, -, hlive⟩ := externalPending_of_hungLimit hlim
    have hdead := hi.row u.row (hid ▸ Table.get_of_mem hrow)
    rw [hlive] at hdead
    cases hdead

/-- **One step** leaves the row where it is. -/
theorem phasedShelved_step (hw : WF config w.base) (hi : Shelved w.base d) (hu : Unselected w d)
    (h : PhasedStep config w b w') (hno : NotReset d w b w') :
    Shelved w'.base d ∧ calls d w'.base.trace = calls d w.base.trace := by
  rcases base_cases h with ⟨-, hsame⟩ | ⟨a, ha, hs⟩ | ⟨p, u, hm, -, hbase⟩
  · rw [hsame]
    exact ⟨hi, rfl⟩
  · refine ⟨shelved_step hw hi hs fun heq r hr => ?_, calls_of_shelved hw hi hs⟩
    exact not_retried hno (heq ▸ ha) hr
  · rw [hbase]
    exact ⟨shelved_apply hi _ (hu p u hm), calls_apply _ u⟩

/-- **Abandoned deliveries stay abandoned.** In every state of every run: when an operator abandons
a row while no dispatcher is about to call its receiver or to record a failure that is not the last
one, and no sweep has selected it, then whatever happens next, the row is dead-lettered and no call
for it starts, until an admin retry resets it. -/
theorem abandon_sticky {now : Time} {scheds : ℕ → Sched} (hq : Quiet scheds)
    (h : Run (phasedStep config) anyStep (start now scheds) w)
    (hs : phasedStep config w (.base (.abandon d)) = some w')
    (hres : (abandonDelivery w.base.db w.base.now d).2) (hfree : Unrevived w.base d)
    (hsel : Unselected w d) {w'' : Phased} (h' : Run (phasedStep config) (NotReset d) w' w'') :
    (∀ r ∈ w''.base.db.deliveries.get d, r.deadLetter) ∧
      calls d w''.base.trace = calls d w'.base.trace := by
  have hwf := phasedWF_of_run (phasedWF_start now hq) h
  have hshelved : Shelved w'.base d ∧ Unselected w' d := by
    cases phasedStep_cases hs with
    | base _ s hstep => exact ⟨shelved_abandon (step_cases hstep) hres hfree, hsel⟩
  have hinv : (PhasedWF config w'' ∧ Shelved w''.base d ∧ Unselected w'' d) ∧
      calls d w''.base.trace = calls d w'.base.trace := by
    refine h'.invariant (fun x => (PhasedWF config x ∧ Shelved x.base d ∧ Unselected x d) ∧
      calls d x.base.trace = calls d w'.base.trace)
      ⟨⟨phasedWF_step hwf (phasedStep_cases hs), hshelved⟩, rfl⟩ ?_
    rintro x b x' ⟨⟨hx, hi, hu⟩, hcalls⟩ hstep hno
    have hcases := phasedStep_cases hstep
    obtain ⟨hi', hcalls'⟩ := phasedShelved_step hx.wf hi hu hcases hno
    exact ⟨⟨phasedWF_step hx hcases, hi', unselected_step hi hu hcases⟩, hcalls'.trans hcalls⟩
  exact ⟨hinv.1.2.1.row, hinv.2⟩

def NoRead (_ : Phased) (b : PhasedAction) (_ : Phased) : Prop :=
  match b with
  | .read _ => False
  | _ => True

instance (w : Phased) (b : PhasedAction) (w' : Phased) : Decidable (NoRead w b w') := by
  unfold NoRead
  split <;> infer_instance

theorem unselected_of_noRead {now : Time} {scheds : ℕ → Sched}
    (h : Run (phasedStep config) NoRead (start now scheds) w) : Unselected w d := by
  have hnone : ∀ p, (w.sweeps p).rows = [] := by
    refine h.invariant (fun w => ∀ p, (w.sweeps p).rows = []) (fun _ =>
      rfl) fun x b x' hi hs hno p => ?_
    refine List.eq_nil_iff_forall_not_mem.mpr fun u hu => ?_
    cases phasedStep_cases hs with
    | base | select | delete => simp [hi p] at hu
    | read => exact hno
    | update q v hv => simp [hi q] at hv
  intro p u hu
  simp [hnone p] at hu

end

/-- A dispatcher calls the receiver of a callback that is given up after so many attempts. -/
def calling (maxAttempts : ℤ) : List PhasedAction :=
  [.publish (sampleEvent 1 [sampleCallback "hook_a" [("max_attempts", .int maxAttempts)]]),
    .commit 1,
    .sched 0 .poll, .sched 0 (.write .ok), .sched 0 .next, .fetch, .task 0 (.examine .ok),
    .task 0 .computeLock, .task 0 (.lock .ok), .task 0 .deliver].map .base

/-- The call fails, and so does the next one: a minute later the row is fetched again. -/
def failing : List PhasedAction :=
  [.task 0 (.respond .timeout 0), .task 0 (.writeBack .ok), .tick (fromSecs 60), .fetch,
    .task 1 (.examine .ok), .task 1 .computeLock, .task 1 (.lock .ok), .task 1 .deliver].map .base

/-- The call is the only one: the row is abandoned during it, it times out, and the row stays. -/
theorem abandon_sticky_lastCall :
    ∃ w, Run (@phasedStep sampleCrates {}) anyStep (start 0 oneScheduler) w ∧
      ∃ w', @phasedStep sampleCrates {} w (.base (.abandon 1)) = some w' ∧
        (abandonDelivery w.base.db w.base.now 1).2 ∧ Unrevived w.base 1 ∧ Unselected w 1 ∧
        ∃ w'', Run (@phasedStep sampleCrates {}) (NotReset 1) w' w'' ∧
          w''.base.trace.length = w'.base.trace.length + 2 ∧
          (w''.base.db.deliveries.get 1).isSome ∧
          (∀ r ∈ w''.base.db.deliveries.get 1, r.deadLetter) ∧
          calls 1 w''.base.trace = calls 1 w'.base.trace := by
  have hex : ∃ w, Run (@phasedStep sampleCrates {}) NoRead (start 0 oneScheduler) w ∧
      ((abandonDelivery w.base.db w.base.now 1).2 ∧ Unrevived w.base 1) ∧
      ((@phasedStep sampleCrates {} w (.base (.abandon 1))).any fun w' =>
        (exec (@phasedStep sampleCrates {}) (NotReset 1) (failing.take 2) w').any fun w'' =>
          w''.base.trace.length = w'.base.trace.length + 2 ∧
            (w''.base.db.deliveries.get 1).isSome) :=
    Run.exists_of_exec (calling 1) (by decide +kernel)
  obtain ⟨w, hquiet, ⟨hres, hfree⟩, hafter⟩ := hex
  have hsel : Unselected w 1 := @unselected_of_noRead sampleCrates {} 1 w 0 _ hquiet
  have hrun : Run (@phasedStep sampleCrates {}) anyStep _ w := hquiet.mono fun _ _ _ _ => trivial
  obtain ⟨w', hw', hafter⟩ := (Option.any_eq_true _ _).mp hafter
  obtain ⟨w'', hw'', hrow⟩ := (Option.any_eq_true _ _).mp hafter
  have hrun' := Run.of_exec _ hw''
  obtain ⟨hlen, hsome⟩ := of_decide_eq_true hrow
  exact ⟨w, hrun, w', hw', hres, hfree, hsel, w'', hrun', hlen, hsome,
    @abandon_sticky sampleCrates {} 1 w w' 0 _ quiet_oneScheduler hrun hw' hres hfree hsel w''
      hrun'⟩

/-- The delivery of an external callback has been made, and is hung; the sweep selects it. -/
def selecting : List PhasedAction :=
  ([.publish (sampleEvent 1 [sampleCallback "hook_a" [("mode", .str "external"),
        ("external_completion_timeout_seconds", .int 60), ("max_completion_cycles", .int 2)]]),
    .commit 1, .sched 0 .poll, .sched 0 (.write .ok), .sched 0 .next, .fetch,
    .task 0 (.examine .ok),
    .task 0 .computeLock, .task 0 (.lock .ok), .task 0 .deliver, .task 0 (.respond .ok 0),
    .task 0 (.writeBack .ok), .tick (fromSecs 61)].map .base) ++ [.read 0]

/-- The sweep updates the row, and it is delivered again. -/
def resetting : List PhasedAction :=
  .update 0 1 :: [.fetch, .task 1 (.examine .ok), .task 1 .computeLock, .task 1 (.lock .ok),
    .task 1 .deliver].map .base

/-- The row is abandoned in this state and comes back, and its receiver is called a second time,
although no operator has retried it. -/
def Undone (w : Phased) : Prop :=
  (abandonDelivery w.base.db w.base.now 1).2 ∧
    ∃ w', @phasedStep sampleCrates {} w (.base (.abandon 1)) = some w' ∧
      ∃ w'', Run (@phasedStep sampleCrates {}) (NotReset 1) w' w'' ∧
        (∃ r ∈ w''.base.db.deliveries.get 1, r.deadLetter = false) ∧
        calls 1 w'.base.trace = 1 ∧ calls 1 w''.base.trace = 2

theorem undone_of_exec {w : Phased} (after : List PhasedAction)
    (hres : (abandonDelivery w.base.db w.base.now 1).2)
    (h : (@phasedStep sampleCrates {} w (.base (.abandon 1))).any fun w' =>
      (exec (@phasedStep sampleCrates {}) (NotReset 1) after w').any fun w'' =>
        (∃ r ∈ w''.base.db.deliveries.get 1, r.deadLetter = false) ∧
          calls 1 w'.base.trace = 1 ∧ calls 1 w''.base.trace = 2) : Undone w := by
  obtain ⟨w', hw', h⟩ := (Option.any_eq_true _ _).mp h
  obtain ⟨w'', hw'', hrow⟩ := (Option.any_eq_true _ _).mp h
  exact ⟨hres, w', hw', w'', Run.of_exec _ hw'', of_decide_eq_true hrow⟩

/-- **What brings an abandoned row back**: the failure of an earlier attempt, and, when no
dispatcher has it, a sweep that has selected it before. -/
theorem abandon_undone :
    (∃ w, Run (@phasedStep sampleCrates {}) anyStep (start 0 oneScheduler) w ∧ Undone w) ∧
      ∃ w, Run (@phasedStep sampleCrates {}) anyStep (start 0 oneScheduler) w ∧
        w.base.tasks.rows.isEmpty ∧ Undone w := by
  constructor
  · have hex : ∃ w, Run (@phasedStep sampleCrates {}) anyStep (start 0 oneScheduler) w ∧
        (abandonDelivery w.base.db w.base.now 1).2 ∧
        (@phasedStep sampleCrates {} w (.base (.abandon 1))).any fun w' =>
          (exec (@phasedStep sampleCrates {}) (NotReset 1) failing w').any fun w'' =>
            (∃ r ∈ w''.base.db.deliveries.get 1, r.deadLetter = false) ∧
              calls 1 w'.base.trace = 1 ∧ calls 1 w''.base.trace = 2 :=
      Run.exists_of_exec (calling 2) (by decide +kernel)
    obtain ⟨w, hrun, hres, hafter⟩ := hex
    exact ⟨w, hrun, undone_of_exec failing hres hafter⟩
  · have hex : ∃ w, Run (@phasedStep sampleCrates {}) anyStep (start 0 oneScheduler) w ∧
        w.base.tasks.rows.isEmpty ∧ (abandonDelivery w.base.db w.base.now 1).2 ∧
        (@phasedStep sampleCrates {} w (.base (.abandon 1))).any fun w' =>
          (exec (@phasedStep sampleCrates {}) (NotReset 1) resetting w').any fun w'' =>
            (∃ r ∈ w''.base.db.deliveries.get 1, r.deadLetter = false) ∧
              calls 1 w'.base.trace = 1 ∧ calls 1 w''.base.trace = 2 :=
      Run.exists_of_exec selecting (by decide +kernel)
    obtain ⟨w, hrun, hidle, hres, hafter⟩ := hex
    exact ⟨w, hrun, hidle, undone_of_exec resetting hres hafter⟩

end OutboxDispatcher.Dispatch.Abandon
