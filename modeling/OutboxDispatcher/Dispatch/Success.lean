import OutboxDispatcher.Dispatch.Exclusion
import OutboxDispatcher.System.Phases

/-! # Successes are never made up

`dispatched_at` is written by the two statements that record a success, copied or cleared by the
sweep, which may copy what it has read some time ago, and cleared by an admin retry; `processed_at`
is also written by a completion. Whatever the interleaving, and however late or lost the write-backs
are, a row that says it was dispatched has had a call that succeeded, and a row that says it was
processed has had one or was completed by its receiver or an operator.

The invariant goes through the tasks and the sweeps: a task that is about to record a success has
had the answer, and so has a row that a sweep has read as dispatched. -/

namespace OutboxDispatcher.Dispatch.Success

open OutboxDispatcher.Lib.Runs OutboxDispatcher.Lib.Tables OutboxDispatcher.Schema
open OutboxDispatcher.Callbacks.Fields OutboxDispatcher.Repo.Database
  OutboxDispatcher.Repo.Statements
open OutboxDispatcher.Scheduler.Pass OutboxDispatcher.Dispatch OutboxDispatcher.Dispatch.Exclusion
open OutboxDispatcher.System OutboxDispatcher.System.Effects OutboxDispatcher.System.History
open OutboxDispatcher.System.Rows OutboxDispatcher.System.Phases

/-- A call of the receiver for the delivery `d` has returned `Ok(())`. -/
def Answered (d : ℤ) (trace : List Obs) : Prop := ∃ tid, .respond tid d .ok ∈ trace

theorem Answered.append {d : ℤ} {trace : List Obs} (h : Answered d trace) (obs : List Obs) :
    Answered d (obs ++ trace) := by
  obtain ⟨tid, ho⟩ := h
  exact ⟨tid, List.mem_append_right _ ho⟩

def logged [Crates] (config : DispatchConfig) : Phased × List PhasedAction → PhasedAction →
    Option (Phased × List PhasedAction) := recorded (phasedStep config) fun _ a _ => [a]

structure Honest (s : Sys) (log : List PhasedAction) : Prop where
  writing : ∀ t ∈ s.tasks.rows, ∀ due u stmt, t.phase = .writing due u stmt → isSuccess stmt →
    Answered due.deliveryId s.trace
  dispatched : ∀ d, ∀ r ∈ s.db.deliveries.get d, r.dispatchedAt.isSome → Answered d s.trace
  processed : ∀ d, ∀ r ∈ s.db.deliveries.get d, r.processedAt.isSome →
    Answered d s.trace ∨ .base (.complete d) ∈ log

structure PhasedHonest (w : Phased) (log : List PhasedAction) : Prop extends Honest w.base log where
  read : ∀ p, ∀ u ∈ (w.sweeps p).rows, u.row.dispatchedAt.isSome → Answered u.row.id w.base.trace

/-- Only a call that succeeded is written back as a success. -/
theorem ok_of_isSuccess {now : Time} {jitter : ℚ} {due : DueDelivery} {result : CallbackResult}
    {stmt : Stmt} (h : writeBackStmt now jitter due result = some stmt) (hs : isSuccess stmt) :
    result = .ok := by
  cases writeBack_of_stmt h with
  | managed hok | external hok => exact hok
  | failure => cases hs

section

variable [Crates] {config : DispatchConfig} {s s' : Sys} {b : Action} {w w' : Phased}
  {a : PhasedAction} {log log' : List PhasedAction}

theorem writing_step (hi : Honest s log) (h : Step config s b s') {t : Task}
    (ht : t ∈ s'.tasks.rows)
    {due : DueDelivery} {u : Time} {stmt : Stmt} (hp : t.phase = .writing due u stmt)
    (hs : isSuccess stmt) : Answered due.deliveryId s'.trace := by
  rcases h.tasks ht with ⟨ht, -⟩ | ⟨-, hf, -⟩ | ⟨t₀, ht₀, b, obs, -, -, hstep, htr⟩
  · obtain ⟨obs, htr, -⟩ := trace_step h
    rw [htr]
    exact (hi.writing t ht due u stmt hp hs).append obs
  · rw [hf] at hp
    cases hp
  · rw [hp] at hstep
    generalize hq : some (Phase.writing due u stmt) = q at hstep
    generalize s'.db = db' at hstep
    cases hstep with
    | respond due' lockUntil result jitter hph =>
      obtain ⟨stmt', hstmt, heq⟩ := Option.map_eq_some_iff.mp hq.symm
      cases heq
      rw [htr, ok_of_isSuccess hstmt hs]
      exact ⟨t₀.tid, List.mem_append_left _ (List.mem_singleton_self _)⟩
    | _ => cases hq

/-- A row after a step: its success is an old one, or a task has just recorded it. -/
theorem row_honest_step (hw : WF config s) (hi : Honest s log) (h : Step config s b s')
    (hlog : log ⊆ log') (hc : ∀ d, b = .complete d → .base (.complete d) ∈ log') {d : ℤ}
    {r' : DeliveryRow} (hr' : s'.db.deliveries.get d = some r') :
    (r'.dispatchedAt.isSome → Answered d s'.trace) ∧
      (r'.processedAt.isSome → Answered d s'.trace ∨ .base (.complete d) ∈ log') := by
  obtain ⟨obs, htr, -⟩ := trace_step h
  have hold : ∀ r, s.db.deliveries.get d = some r →
      (r.dispatchedAt.isSome → Answered d s'.trace) ∧
        (r.processedAt.isSome → Answered d s'.trace ∨ .base (.complete d) ∈ log') := by
    intro r hr
    rw [htr]
    refine ⟨fun hd => (hi.dispatched d r hr hd).append obs, fun hp => ?_⟩
    exact (hi.processed d r hr hp).imp (fun ho => ho.append obs) fun hc => hlog hc
  have hrow := row_step h d
  rw [hr'] at hrow
  generalize hr : s.db.deliveries.get d = o at hrow hold
  generalize hn : some r' = n at hrow
  cases hrow with
  | keep => subst hn; exact hold r' rfl
  | inserted p b u n hd =>
    cases hn
    simp [Db.NewDelivery.row]
  | poisoned t fault reason r => cases hn; exact hold r rfl
  | locked t fault due lockUntil r => cases hn; exact hold r rfl
  | wroteBack t fault due lockUntil stmt r ht hp hid hf hg =>
    cases hn
    have hans : isSuccess stmt → Answered d s'.trace := fun hs => by
      rw [htr, ← hid]
      exact (hi.writing t ht due lockUntil stmt hp hs).append obs
    rcases (hw.tasks.stmt t ht due lockUntil stmt hp).cases with rfl | ⟨rfl, -⟩ | ⟨_, _, _, rfl⟩
    · exact ⟨fun _ => hans rfl, fun _ => .inl (hans rfl)⟩
    · exact ⟨fun _ => hans rfl, (hold r rfl).2⟩
    · exact hold r rfl
  | swept maxCycles r hl =>
    cases hn
    have hrest := hold r rfl
    by_cases hlast : r.completionCycles + 1 ≥ maxCycles
    · simpa [sweepRow, hlast] using hrest
    · exact ⟨by simp [sweepRow, hlast], by simpa [sweepRow, hlast] using hrest.2⟩
  | retried r hg =>
    cases hn
    simp [Stmt.assign]
  | completed r =>
    cases hn
    exact ⟨(hold r rfl).1, fun _ => .inr (hc _ rfl)⟩
  | abandoned r => cases hn; exact hold r rfl
  | deleted => cases hn

theorem honest_step (hw : WF config s) (hi : Honest s log) (h : Step config s b s')
    (hlog : log ⊆ log') (hc : ∀ d, b = .complete d → .base (.complete d) ∈ log') :
    Honest s' log' where
  writing := fun _ ht _ _ _ hp hs => writing_step hi h ht hp hs
  dispatched := fun _ _ hr => (row_honest_step hw hi h hlog hc hr).1
  processed := fun _ _ hr => (row_honest_step hw hi h hlog hc hr).2

omit [Crates] in
theorem honest_apply (hi : Honest s log) (hlog : log ⊆ log') (now : Time) {u : ToUpdate}
    (hu : u.row.dispatchedAt.isSome → Answered u.row.id s.trace) : Honest (u.apply now s) log' := by
  refine ⟨fun t ht due v stmt hp hs => (hi.writing t ht due v stmt hp hs).append _,
    fun d r' hr' hd => ?_, fun d r' hr' hp => ?_⟩
  · rw [ToUpdate.get_apply, Option.mem_map] at hr'
    obtain ⟨r, hr, rfl⟩ := hr'
    have hid := (Table.get_eq_some_iff.mp hr).2
    unfold ToUpdate.rowUpdate ToUpdate.assign at hd
    dsimp only at hd
    split_ifs at hd with heq hlast
    · rw [← hid, heq]
      exact (hu hd).append _
    · cases hd
    · exact (hi.dispatched d r hr hd).append _
  · rw [ToUpdate.get_apply, Option.mem_map] at hr'
    obtain ⟨r, hr, rfl⟩ := hr'
    have hkept : ((u.rowUpdate now).set r).processedAt = r.processedAt := by
      unfold ToUpdate.rowUpdate ToUpdate.assign
      dsimp only
      split_ifs <;> rfl
    rw [hkept] at hp
    exact (hi.processed d r hr hp).imp (fun ho => ho.append _) fun hc => hlog hc

theorem answered_step (h : PhasedStep config w a w') {d : ℤ} (hd : Answered d w.base.trace) :
    Answered d w'.base.trace := by
  rcases base_cases h with ⟨-, hsame⟩ | ⟨b, -, hs⟩ | ⟨p, u, -, -, hbase⟩
  · rwa [hsame]
  · obtain ⟨obs, htr, -⟩ := trace_step hs
    rw [htr]
    exact hd.append obs
  · rw [hbase]
    exact hd.append _

theorem phasedHonest_step (hw : WF config w.base) (hi : PhasedHonest w log)
    (h : PhasedStep config w a w') : PhasedHonest w' (a :: log) := by
  have hlog : log ⊆ a :: log := List.subset_cons_self a log
  refine ⟨?_, fun p u hu hd => ?_⟩
  · rcases base_cases h with ⟨-, hsame⟩ | ⟨b, hb, hs⟩ | ⟨p, u, hu, -, hbase⟩
    · rw [hsame]
      exact ⟨hi.writing, hi.dispatched,
        fun d r hr hp => (hi.processed d r hr hp).imp_right fun hc => hlog hc⟩
    · refine honest_step hw hi.toHonest hs hlog fun d hd => ?_
      subst hd
      rw [eq_base_of_moves? hb rfl]
      exact List.mem_cons_self
    · rw [hbase]
      exact honest_apply hi.toHonest hlog _ (hi.read p u hu)
  · rcases h.pending hu with ⟨hold, -⟩ | ⟨hbase, -, hrow, -⟩
    · exact answered_step h (hi.read p u hold hd)
    · rw [hbase]
      exact hi.dispatched _ _ (Table.get_of_mem hrow) hd

/-- **Success is never recorded without an `Ok(())`.** In every state that any interleaving reaches,
a row with `dispatched_at` has had a call that returned it, and a row with `processed_at` has had
one or a completion, by the admin API or the receiver. -/
theorem success_answered {now : Time} {scheds : ℕ → Sched} (hq : Quiet scheds)
    (h : Run (logged config) anyStep (start now scheds, []) (w, log)) :
    ∀ r ∈ w.base.db.deliveries.rows,
      (r.dispatchedAt.isSome → ∃ tid, .respond tid r.id .ok ∈ w.base.trace) ∧
        (r.processedAt.isSome →
          (∃ tid, .respond tid r.id .ok ∈ w.base.trace) ∨ .base (.complete r.id) ∈ log) := by
  have hinv : PhasedWF config w ∧ PhasedHonest w log :=
    h.invariant (fun p => PhasedWF config p.1 ∧ PhasedHonest p.1 p.2)
      ⟨phasedWF_start now hq, ⟨⟨by simp [start, init], by simp [start, init, Db.empty, Table.get],
        by simp [start, init, Db.empty, Table.get]⟩, by simp [start]⟩⟩
      fun p a p' hi hs _ => by
        obtain ⟨hs, hl⟩ := recorded_eq_some.mp hs
        have hstep := phasedStep_cases hs
        rw [hl]
        exact ⟨phasedWF_step hi.1 hstep, phasedHonest_step hi.1.wf hi.2 hstep⟩
  intro r hr
  have hget := Table.get_of_mem hr
  exact ⟨hinv.2.dispatched r.id r hget, hinv.2.processed r.id r hget⟩

end

/-- Two deliveries: one succeeds, is read by a sweep as hung for the last time, retried, and then
updated; the other is completed by its receiver while its call is going on, and fails. -/
def sweptAfterRetry : List PhasedAction :=
  ([.publish (sampleEvent 1 [sampleCallback "hook_a" [("mode", .str "external"),
        ("external_completion_timeout_seconds", .int 60), ("max_completion_cycles", .int 1)],
      sampleCallback "hook_b" []]), .commit 1,
    .sched 0 .poll, .sched 0 (.write .ok), .sched 0 .next, .fetch, .task 0 (.examine .ok),
    .task 1 (.examine .ok), .task 0 .computeLock, .task 0 (.lock .ok), .task 1 .computeLock,
    .task 1 (.lock .ok), .task 0 .deliver, .task 1 .deliver, .task 0 (.respond .ok 0), .complete 2,
    .task 1 (.respond .timeout 0), .task 0 (.writeBack .ok), .task 1 (.writeBack .ok),
    .tick (fromSecs 61)].map .base) ++ [.read 0, .base (.retry 1), .update 0 1]

theorem success_answered_sweptAfterRetry :
    ∃ p, Run (@logged sampleCrates {}) anyStep (start 0 oneScheduler, []) p ∧
      (p.1.base.db.deliveries.rows.map fun r => (r.dispatchedAt.isSome, r.processedAt.isSome)) =
        [(true, false), (false, true)] ∧
      ∀ r ∈ p.1.base.db.deliveries.rows,
        (r.dispatchedAt.isSome → ∃ tid, .respond tid r.id .ok ∈ p.1.base.trace) ∧
          (r.processedAt.isSome →
            (∃ tid, .respond tid r.id .ok ∈ p.1.base.trace) ∨ .base (.complete r.id) ∈ p.2) := by
  have hex : ∃ p, Run (@logged sampleCrates {}) anyStep (start 0 oneScheduler, []) p ∧
      (p.1.base.db.deliveries.rows.map fun r => (r.dispatchedAt.isSome, r.processedAt.isSome)) =
        [(true, false), (false, true)] := Run.exists_of_exec sweptAfterRetry (by decide +kernel)
  obtain ⟨⟨w, log⟩, hrun, hrows⟩ := hex
  exact ⟨(w, log), hrun, hrows, @success_answered sampleCrates {} w log 0 _ quiet_oneScheduler hrun⟩

end OutboxDispatcher.Dispatch.Success
