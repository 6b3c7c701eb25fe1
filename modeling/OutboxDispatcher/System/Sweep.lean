import OutboxDispatcher.System.Phases

/-! # The sweep acts on what it has read

A row that the sweep has selected may be completed, locked or reset by somebody else before it is
updated, and the update does not ask.

* `sweep_acts_on_hung`: every row it updates is hung at that moment, as long as nobody has written
  the row since it was read.
* `sweep_acts_on_stale`: it resets a delivery that has been completed, and clears the lock of a
  dispatcher. -/

namespace OutboxDispatcher.System.Sweep

open OutboxDispatcher.Lib.Runs OutboxDispatcher.Lib.Tables OutboxDispatcher.Schema
open OutboxDispatcher.Callbacks.Fields OutboxDispatcher.Repo.Database
open OutboxDispatcher.Repo.Statements OutboxDispatcher.Scheduler.Pass OutboxDispatcher.Dispatch
open OutboxDispatcher.System OutboxDispatcher.System.History OutboxDispatcher.System.Phases

/-- The row that the step updates is hung; so it is not processed, and nobody has it locked. -/
def ActsOnHung (config : DispatchConfig) (w : Phased) : PhasedAction → Prop
  | .update p d => ∀ r ∈ w.base.db.deliveries.get d,
    (∃ m, hungLimit w.base.db (w.sweeps p).now (asI32 config.maxCompletionCycles) r =
      some (some m)) ∧ r.processedAt = none ∧ r.lockedUntil = none
  | _ => True

/-- **The sweep acts only on rows that are still hung**, in every run in which nobody writes a row
between the read and the update of it. -/
theorem sweep_acts_on_hung [Crates] {config : DispatchConfig} {w w' : Phased} {a : PhasedAction}
    {now : Time} {scheds : ℕ → Sched} (hq : Quiet scheds)
    (h : Run (phasedStep config) (fun w a _ => Untouched w a) (start now scheds) w)
    (hs : phasedStep config w a = some w') (hu : Untouched w a) : ActsOnHung config w a := by
  have hi := phasedWF_of_run (phasedWF_start now hq) h
  cases phasedStep_cases hs with
  | base | read | select | delete => trivial
  | update p u hm =>
    intro r hr
    obtain rfl := hu u hm rfl r hr
    have hung := hung_of_untouched hi hm hr
    obtain ⟨-, hdisp, hproc, -⟩ := externalPending_of_hungLimit hung
    exact ⟨⟨u.maxCycles, hung⟩, hproc, hi.released _ _ hr hdisp⟩

/-! ### Interleavings -/

/-- An external delivery is made, and its timeout passes. -/
def hungDelivery : List PhasedAction :=
  [.publish (sampleEvent 1 [sampleCallback "hook_a" [("mode", .str "external"),
      ("external_completion_timeout_seconds", .int 60), ("max_completion_cycles", .int 2)]]),
    .commit 1, .sched 0 .poll, .sched 0 (.write .ok), .sched 0 .next, .fetch,
    .task 0 (.examine .ok),
    .task 0 .computeLock, .task 0 (.lock .ok), .task 0 .deliver, .task 0 (.respond .ok 0),
    .task 0 (.writeBack .ok), .tick (fromSecs 61)].map .base

theorem sweep_acts_on_hung_later :
    ∃ w w', Run (@phasedStep sampleCrates {}) (fun w a _ =>
      Untouched w a) (start 0 oneScheduler) w ∧
      @phasedStep sampleCrates {} w (.update 0 1) = some w' ∧ (w.base.db.deliveries.get 1).isSome ∧
      ActsOnHung {} w (.update 0 1) := by
  have hex :
      ∃ w, Run (@phasedStep sampleCrates {}) (fun w a _ => Untouched w a) (start 0 oneScheduler) w ∧
      (@phasedStep sampleCrates {} w (.update 0 1)).isSome ∧ (w.base.db.deliveries.get 1).isSome ∧
      Untouched w (.update 0 1) :=
    Run.exists_of_exec (hungDelivery ++ [.read 0, .base .fetch, .base (.tick 5)])
      (by decide +kernel)
  obtain ⟨w, hrun, hstep, hrow, hun⟩ := hex
  obtain ⟨w', hstep⟩ := Option.isSome_iff_exists.mp hstep
  exact ⟨w, w', hrun, hstep, hrow,
    @sweep_acts_on_hung sampleCrates _ _ _ _ _ _ quiet_oneScheduler hrun hstep hun⟩

/-- The receiver completes the delivery after it was selected, and the sweep resets it all the same.
And of two sweeps that have selected it the second clears the lock of the dispatcher that was let in
by the first, while the call is under way. -/
theorem sweep_acts_on_stale :
    (∃ w w', Run (@phasedStep sampleCrates {}) anyStep (start 0 oneScheduler) w ∧
      @phasedStep sampleCrates {} w (.update 0 1) = some w' ∧ ¬ActsOnHung {} w (.update 0 1) ∧
      (w.base.db.deliveries.get 1).any (fun r => r.processedAt.isSome ∧ r.dispatchedAt.isSome) ∧
      (w'.base.db.deliveries.get 1).any (fun r => r.processedAt.isSome ∧ r.dispatchedAt.isNone)) ∧
    (∃ w w', Run (@phasedStep sampleCrates {}) anyStep (start 0 oneScheduler) w ∧
      @phasedStep sampleCrates {} w (.update 0 1) = some w' ∧ ¬ActsOnHung {} w (.update 0 1) ∧
      (w.base.db.deliveries.get 1).any (fun r => r.lockedUntil.any (w.base.now < ·)) ∧
      (w'.base.db.deliveries.get 1).any (·.lockedUntil.isNone)) := by
  constructor
  · have hex : ∃ w, Run (@phasedStep sampleCrates {}) anyStep (start 0 oneScheduler) w ∧
        (w.base.db.deliveries.get 1).any (fun r => r.processedAt.isSome ∧ r.dispatchedAt.isSome) ∧
        (@phasedStep sampleCrates {} w (.update 0 1)).any fun w' =>
          (w'.base.db.deliveries.get 1).any (fun r => r.processedAt.isSome ∧
            r.dispatchedAt.isNone) :=
      Run.exists_of_exec (hungDelivery ++ [.read 0, .base (.complete 1)]) (by decide +kernel)
    obtain ⟨w, hrun, hbefore, hafter⟩ := hex
    obtain ⟨w', hstep, hafter⟩ := (Option.any_eq_true _ _).mp hafter
    refine ⟨w, w', hrun, hstep, fun hact => ?_, hbefore, hafter⟩
    obtain ⟨r, hr, hp⟩ := (Option.any_eq_true _ _).mp hbefore
    have hsome := (of_decide_eq_true hp).1
    rw [(hact r hr).2.1] at hsome
    cases hsome
  · have hex : ∃ w, Run (@phasedStep sampleCrates {}) anyStep (start 0 oneScheduler) w ∧
        (w.base.db.deliveries.get 1).any (fun r => r.lockedUntil.any (w.base.now < ·)) ∧
        (@phasedStep sampleCrates {} w (.update 0 1)).any fun w' =>
          (w'.base.db.deliveries.get 1).any (·.lockedUntil.isNone) :=
      Run.exists_of_exec (hungDelivery ++ [.read 0, .read 1, .update 1 1, .base .fetch,
        .base (.task 1 (.examine .ok)), .base (.task 1 .computeLock), .base (.task 1 (.lock .ok)),
        .base (.task 1 .deliver)]) (by decide +kernel)
    obtain ⟨w, hrun, hbefore, hafter⟩ := hex
    obtain ⟨w', hstep, hafter⟩ := (Option.any_eq_true _ _).mp hafter
    refine ⟨w, w', hrun, hstep, fun hact => ?_, hbefore, hafter⟩
    obtain ⟨r, hr, hl⟩ := (Option.any_eq_true _ _).mp hbefore
    rw [(hact r hr).2.2] at hl
    cases hl

end OutboxDispatcher.System.Sweep
