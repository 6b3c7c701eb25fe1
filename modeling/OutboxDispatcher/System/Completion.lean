import OutboxDispatcher.Dispatch.Limbo
import OutboxDispatcher.System.Phases

/-! # A completion is kept

An external delivery is completed by its receiver, who may be earlier than the dispatcher's record
of the call, and in the middle of a sweep. `processed_at` then stays as it was set, whatever the
dispatchers, the sweeps, the schedulers and the operators do, until a retry resets the delivery
(`completion_kept`). Only one of the write-backs would change it, and that one is for managed
deliveries: the mode a dispatcher acts on is the stored one (`mode_or_downgraded`). -/

namespace OutboxDispatcher.System.Completion

open OutboxDispatcher.Lib.Runs OutboxDispatcher.Lib.Tables OutboxDispatcher.Schema
open OutboxDispatcher.Callbacks.Fields OutboxDispatcher.Repo.Database
  OutboxDispatcher.Repo.Database.Db
open OutboxDispatcher.Repo.Statements OutboxDispatcher.Scheduler.Pass
  OutboxDispatcher.Scheduler.Confluence
open OutboxDispatcher.Dispatch OutboxDispatcher.Dispatch.Limbo OutboxDispatcher.System
open OutboxDispatcher.System.Effects OutboxDispatcher.System.History OutboxDispatcher.System.Rows
open OutboxDispatcher.System.Phases

section

variable [Crates] {config : DispatchConfig} {w w' : Phased} {a : PhasedAction}

structure CompletionWF (config : DispatchConfig) (w : Phased) : Prop where
  wf : WF config w.base
  issued : Issued config w.base

theorem completionWF_step (hi : CompletionWF config w) (h : PhasedStep config w a w') :
    CompletionWF config w' := by
  obtain ⟨hw, hiss⟩ := hi
  suffices hbase : WF config w'.base ∧ Issued config w'.base from ⟨hbase.1, hbase.2⟩
  rcases base_cases h with ⟨-, hsame⟩ | ⟨b, -, hs⟩ | ⟨p, u, -, -, hbase⟩
  · rw [hsame]
    exact ⟨hw, hiss⟩
  · exact ⟨wf_step hw hs, issued_step hw hiss hs⟩
  · rw [hbase]
    exact ⟨wf_update hw _ _, issued_apply hiss _ u⟩

theorem completionWF_of_run {ok : Phased → PhasedAction → Phased → Prop} {now : Time}
    {scheds : ℕ → Sched} (hq : Quiet scheds) (h : Run (phasedStep config) ok (start now scheds) w) :
    CompletionWF config w :=
  h.invariant (CompletionWF config) ⟨wf_init now hq, issued_init now scheds⟩
    fun _ _ _ hi hs _ => completionWF_step hi (phasedStep_cases hs)

/-- The delivery is external, and was completed at `t`. -/
def Completed (t : Time) (r : DeliveryRow) : Prop := r.completionMode = .external ∧
    r.processedAt = some t

/-- The record of a call leaves the completion of an external delivery. -/
theorem completed_writeBack (hi : CompletionWF config w) {t : Task} (ht : t ∈ w.base.tasks.rows)
    {due : DueDelivery} {u : Time} {stmt : Stmt} (hp : t.phase = .writing due u stmt)
    {r : DeliveryRow}
    (hr : w.base.db.deliveries.get due.deliveryId = some r) {c : Time} (hc : Completed c r)
    (now : Time) : Completed c (stmt.assign now r) := by
  have hstmt := hi.wf.tasks.stmt t ht due u stmt hp
  rcases hstmt.cases with rfl | ⟨rfl, -⟩ | ⟨error, availableAt, deadLetter, rfl⟩
  · -- the dispatcher acts on the mode that is stored
    have hmanaged := hstmt.managed
    rcases mode_or_downgraded hi.wf hi.issued ht (by rw [hp]; rfl) hr with hmode | ⟨hmode, -⟩
    · rw [hmanaged, hc.1] at hmode
      cases hmode
    · rw [hc.1] at hmode
      cases hmode
  · exact hc
  · exact hc

/-- **One step.** -/
theorem completed_step (hi : CompletionWF config w) (h : PhasedStep config w a w')
    {d : ℤ} {c : Time}
    {r r' : DeliveryRow} (hno : NotReset d w a w') (hr : w.base.db.deliveries.get d = some r)
    (hc : Completed c r) (hr' : w'.base.db.deliveries.get d = some r') : Completed c r' := by
  rcases base_cases h with ⟨-, hsame⟩ | ⟨b, hb, hs⟩ | ⟨p, u, -, -, hbase⟩
  · rw [hsame, hr] at hr'
    exact Option.some.inj hr' ▸ hc
  · have hrow := row_step hs d
    rw [hr, hr'] at hrow
    cases hrow with
    | keep => exact hc
    | poisoned => exact hc
    | locked => exact hc
    | wroteBack t fault due u stmt _ ht hp hd => exact completed_writeBack hi ht hp (hd ▸ hr) hc _
    | swept maxCycles =>
      unfold sweepRow
      split_ifs <;> exact hc
    | retried _ hg => exact absurd hg (not_retried hno hb hr)
    | completed =>
      refine ⟨hc.1, ?_⟩
      show some (r.processedAt.getD w.base.now) = some c
      rw [hc.2]
      rfl
    | abandoned => exact hc
  · rw [hbase, ToUpdate.get_apply, hr, Option.map_some, Option.some.injEq] at hr'
    subst hr'
    unfold ToUpdate.rowUpdate ToUpdate.assign
    dsimp only
    split_ifs <;> exact hc

theorem row_before (h : PhasedStep config w a w') {d : ℤ} (hd : d < w.base.db.deliverySeq)
    {r' : DeliveryRow} (hr' : w'.base.db.deliveries.get d = some r') :
    ∃ r, w.base.db.deliveries.get d = some r := by
  rcases base_cases h with ⟨-, hsame⟩ | ⟨b, -, hs⟩ | ⟨p, u, -, -, hbase⟩
  · exact ⟨r', hsame ▸ hr'⟩
  · have hrow := row_step hs d
    rw [hr'] at hrow
    generalize w.base.db.deliveries.get d = o at hrow
    cases hrow with
    | inserted p b u n hfresh => omega
    | _ => exact ⟨_, rfl⟩
  · rw [hbase, ToUpdate.get_apply, Option.map_eq_some_iff] at hr'
    obtain ⟨r, hr, -⟩ := hr'
    exact ⟨r, hr⟩

/-- **A completion is never lost.** Once the delivery of an external callback has been completed, at
whatever moment, no step of the dispatchers, sweeps, schedulers, receivers and operators changes the
time of it, until a retry returns `Reset`. -/
theorem completion_kept {now : Time} {scheds : ℕ → Sched} (hq : Quiet scheds)
    (h : Run (phasedStep config) anyStep (start now scheds) w) {i r : DeliveryRow}
    (hi : i ∈ w.base.issued) (hext : i.completionMode = .external)
    (hr : w.base.db.deliveries.get i.id = some r) {t : Time} (ht : r.processedAt = some t)
    (h' : Run (phasedStep config) (NotReset i.id) w w') :
    ∀ r', w'.base.db.deliveries.get i.id = some r' → r'.processedAt = some t := by
  have hw := completionWF_of_run hq h
  have hmode : r.completionMode = .external :=
    (congrArg (·.2.2.2.1) (ident_of_get hw.wf hi hr)).trans hext
  have hinv : CompletionWF config w' ∧ i.id < w'.base.db.deliverySeq ∧
      ∀ r', w'.base.db.deliveries.get i.id = some r' → Completed t r' := by
    refine h'.invariant (fun w' => CompletionWF config w' ∧ i.id < w'.base.db.deliverySeq ∧
      ∀ r', w'.base.db.deliveries.get i.id = some r' → Completed t r') ⟨hw, ?_, fun r' hr' => ?_⟩ ?_
    · exact hw.wf.issued.ids_lt i hi
    · cases hr.symm.trans hr'
      exact ⟨hmode, ht⟩
    · rintro v a v' ⟨hv, hlt, hrow⟩ hs hno
      have hstep := phasedStep_cases hs
      refine ⟨completionWF_step hv hstep, hlt.trans_le hstep.deliverySeq_le, fun r' hr' => ?_⟩
      obtain ⟨r, hr⟩ := row_before hstep hlt hr'
      exact completed_step hv hstep hno hr (hrow r hr) hr'
  exact fun r' hr' => (hinv.2.2 r' hr').2

end

/-- The receiver completes the delivery before it answers. -/
def completedEarly : List PhasedAction :=
  [.publish (sampleEvent 1 [sampleCallback "hook_a" [("mode", .str "external"),
      ("external_completion_timeout_seconds", .int 60)]]),
    .commit 1, .sched 0 .poll, .sched 0 (.write .ok), .sched 0 .next, .fetch,
    .task 0 (.examine .ok),
    .task 0 .computeLock, .task 0 (.lock .ok), .task 0 .deliver, .tick 5, .complete 1].map .base

/-- The answer is recorded, a sweep passes, and an operator completes the delivery again. -/
def afterwards : List PhasedAction :=
  [.base (.tick 5), .base (.task 0 (.respond .ok 0)), .base (.task 0 (.writeBack .ok)),
    .base (.tick (fromSecs 61)), .read 0, .base (.complete 1), .base (.abandon 1)]

theorem completion_kept_early :
    ∃ w w' r', Run (@phasedStep sampleCrates {}) anyStep (start 0 oneScheduler) w ∧
      Run (@phasedStep sampleCrates {}) (NotReset 1) w w' ∧
      w'.base.db.deliveries.get 1 = some r' ∧ r'.dispatchedAt = some 10 ∧
      r'.processedAt = some 5 := by
  have hex : ∃ w, Run (@phasedStep sampleCrates {}) anyStep (start 0 oneScheduler) w ∧
      (∃ i ∈ w.base.issued, i.id = 1 ∧ i.completionMode = .external) ∧
      (w.base.db.deliveries.get 1).any (·.processedAt = some 5) ∧
      (exec (@phasedStep sampleCrates {}) (NotReset 1) afterwards w).any fun w' =>
        (w'.base.db.deliveries.get 1).any (·.dispatchedAt = some 10) :=
    Run.exists_of_exec completedEarly (by decide +kernel)
  obtain ⟨w, hrun, ⟨i, hi, hid, hext⟩, hrow, hlater⟩ := hex
  obtain ⟨r, hr, ht⟩ := (Option.any_eq_true _ _).mp hrow
  obtain ⟨w', hexec, hrow'⟩ := (Option.any_eq_true _ _).mp hlater
  have hrun' := Run.of_exec afterwards hexec
  obtain ⟨r', hr', hdisp⟩ := (Option.any_eq_true _ _).mp hrow'
  rw [← hid] at hr hr' hrun'
  refine ⟨w, w', r', hrun, hid ▸ hrun', hid ▸ hr', of_decide_eq_true hdisp, ?_⟩
  exact @completion_kept sampleCrates _ _ _ _ _ quiet_oneScheduler hrun _ _ hi hext hr _
    (of_decide_eq_true ht) hrun' r' hr'

end OutboxDispatcher.System.Completion
