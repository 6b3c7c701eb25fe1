import OutboxDispatcher.Dispatch.Exclusion
import OutboxDispatcher.Replicas.Ownership

/-! # No lock is left behind

A row that is locked and in nobody's hands has to wait until its lock expires. That happens after a
crash, a panic, or a statement that goes wrong half way, and only then: as long as the replicas end
by `stop`, their locks are acknowledged and their write-backs are not lost (`Graceful`), every lock
in the table is the lock of a task that is in progress. Since a replica stops only between two
cycles, it leaves no lock when it does. -/

namespace OutboxDispatcher.Replicas.Locks

open OutboxDispatcher.Lib.Runs OutboxDispatcher.Lib.Tables OutboxDispatcher.Schema
open OutboxDispatcher.Callbacks.Fields OutboxDispatcher.Repo.Database
  OutboxDispatcher.Repo.Statements
open OutboxDispatcher.Scheduler.Pass OutboxDispatcher.Dispatch OutboxDispatcher.Dispatch.Exclusion
open OutboxDispatcher.System OutboxDispatcher.System.Effects OutboxDispatcher.System.History
open OutboxDispatcher.System.Rows OutboxDispatcher.Replicas OutboxDispatcher.Replicas.Effects
open OutboxDispatcher.Replicas.Ownership

/-- Replicas end by `stop` only, a lock that is taken is acknowledged, and no write-back is lost. -/
def Graceful (c' : Cluster) : Action → Prop
  | .replica _ .stop => True
  | .replica _ (.task _ (.lock .unacked)) | .replica _ (.task _ (.writeBack .lost)) => False
  | .replica r _ => (c'.replicas r).isSome
  | _ => True

instance (c' : Cluster) (a : Action) : Decidable (Graceful c' a) := by
  unfold Graceful
  split <;> infer_instance

def AllHeld (s : Sys) : Prop :=
  ∀ d r u, s.db.deliveries.get d = some r → r.lockedUntil = some u → ∃ t, Holds s t d u

/-- A task that has a lock does not end but by its write-back. -/
def EndsWell (s' : Sys) : System.Action → Prop
  | .task _ (.lock .unacked) | .task _ (.writeBack .lost) => False
  | .task tid (.respond _ _) | .task tid .crash => alive s' tid
  | _ => True

section

variable [Crates] {config : DispatchConfig} {s s' : Sys} {a : System.Action}

omit [Crates] in
theorem lockedUntil_writeBack {due : DueDelivery} {stmt : Stmt} (h : StmtWF due stmt) (now : Time)
    (r : DeliveryRow) : stmt.guard now r ∧ (stmt.assign now r).lockedUntil = none := by
  obtain ⟨now, jitter, result, hstmt⟩ := h
  cases writeBack_of_stmt hstmt <;> exact ⟨rfl, rfl⟩

/-- A task that holds a row goes on holding it, or has cleared the lock. -/
theorem holds_or_cleared (hw : WF config s) (h : Step config s a s') (hend : EndsWell s' a)
    {t : Task} {d : ℤ} {u : Time} (ht : Holds s t d u) :
    (∃ t', Holds s' t' d u) ∨ ∀ r', s'.db.deliveries.get d = some r' → r'.lockedUntil = none := by
  by_cases hown : ∀ b, a ≠ .task t.tid b
  · exact .inl ⟨t, h.tasks_of_ne ht.1 hown, ht.2⟩
  push Not at hown
  obtain ⟨b, rfl⟩ := hown
  obtain ⟨phase, obs, hst, htasks, -⟩ := h.of_task ht.1
  obtain ⟨hm, hd, hheld⟩ := ht
  have hgoes : ∀ p : Phase, phase = some p → p.held? = some u → ∃ t', Holds s' t' d u := by
    rintro p rfl hp
    refine ⟨{ t with phase := p }, ?_, hd, hp⟩
    rw [htasks]
    exact mem_setPhase.mpr (.inr ⟨t, hm, rfl, p, rfl, rfl⟩)
  have hgone : phase = none → ¬alive s' t.tid := by
    rintro rfl halive
    obtain ⟨t', ht', hid⟩ := alive_iff.mp halive
    rw [htasks] at ht'
    rcases mem_setPhase.mp ht' with ⟨-, hne⟩ | ⟨-, -, -, p, hp, -⟩
    · exact hne hid
    · cases hp
  generalize hdb : s'.db = db at hst
  cases hst with
  | dropped b hdrop =>
    cases b with
    | crash => exact absurd hend (hgone rfl)
    | writeBack fault => cases fault <;> cases hp : t.phase <;> simp_all [drops, EndsWell]
    | _ => cases hp : t.phase <;> simp_all [drops, Phase.held?]
  | examined _ _ hp | poisoned _ _ hp | computeLock _ _ hp | lockPanicked _ hp | lock _ _ hp
  | lockUnacked _ _ hp | lockRefused _ _ _ hp => rw [hp] at hheld; cases hheld
  | deliver due v hp => rw [hp] at hheld; exact .inl (hgoes _ rfl hheld)
  | respond due v result jitter hp =>
    rw [hp] at hheld
    rcases hstmt : writeBackStmt s.now jitter due result with _ | stmt
    · exact absurd hend (hgone (by rw [hstmt]; rfl))
    · exact .inl (hgoes (.writing due v stmt) (by rw [hstmt]; rfl) hheld)
  | wroteBack fault due v stmt hp hf =>
    refine .inr fun r' hr' => ?_
    have hid : due.deliveryId = d := (hw.examined hm (by rw [hp]; rfl)).deliveryId.trans hd
    rw [Stmt.get_exec] at hr'
    obtain ⟨r, -, rfl⟩ := Option.map_eq_some_iff.mp hr'
    obtain ⟨hguard, hclear⟩ := lockedUntil_writeBack (hw.tasks.stmt t hm due v stmt hp) s.now r
    rw [if_pos ⟨hid.symm, hguard⟩]
    exact hclear

/-- **One step**: a lock that is in the table has a holder. -/
theorem allHeld_step (hw : WF config s) (hi : AllHeld s) (h : Step config s a s')
    (hend : EndsWell s' a) : AllHeld s' := by
  intro d r' u hr' hu
  have hkeep : ∀ r, s.db.deliveries.get d = some r → r.lockedUntil = some u →
      ∃ t, Holds s' t d u := by
    intro r hr hu'
    obtain ⟨t, ht⟩ := hi d r u hr hu'
    rcases holds_or_cleared hw h hend ht with ht' | hclear
    · exact ht'
    · rw [hclear r' hr'] at hu
      cases hu
  have hrow := row_step h d
  rw [hr'] at hrow
  generalize hr : s.db.deliveries.get d = old at hrow hkeep
  generalize hn : some r' = new at hrow
  cases hrow with
  | keep => subst hn; exact hkeep r' rfl hu
  | inserted | poisoned => cases hn; cases hu
  | retried => cases hn; cases hu
  | swept maxCycles r =>
    cases hn
    rw [sweepRow] at hu
    split_ifs at hu
  | wroteBack t fault due v stmt r ht hp =>
    cases hn
    rw [(lockedUntil_writeBack (hw.tasks.stmt t ht due v stmt hp) s.now r).2] at hu
    cases hu
  | completed r | abandoned r => cases hn; exact hkeep r rfl hu
  | deleted => cases hn
  | locked t fault due v r ht hp hd hg =>
    cases hn
    cases hu
    obtain ⟨phase, obs, hst, htasks, -⟩ := h.of_task ht
    have haff : (Stmt.lockDelivery u).affects s.db s.now due.deliveryId :=
      (Stmt.affects_iff _).mpr ⟨r, hd ▸ hr, hg⟩
    have hid : t.row.deliveryId = d := (hw.examined ht (by rw [hp]; rfl)).deliveryId.symm.trans hd
    have hphase : phase = some (.locked due u) := by
      generalize hdb : s'.db = db at hst
      cases hst with
      | dropped =>
        -- the row would be as before, but the lock counts an attempt
        rw [hdb, hr] at hr'
        have hsame : r.attempts = r.attempts + 1 :=
          congrArg DeliveryRow.attempts (Option.some.inj hr')
        omega
      | lock due' v hp' => rw [hp] at hp'; cases hp'; rfl
      | lockUnacked => exact hend.elim
      | lockRefused _ due' v hp' hno =>
        rw [hp] at hp'
        cases hp'
        rw [haff] at hno
        cases hno
    refine ⟨{ t with phase := .locked due u }, ?_, hid, rfl⟩
    rw [htasks, hphase]
    exact mem_setPhase.mpr (.inr ⟨t, ht, rfl, _, rfl, rfl⟩)

end

section

variable [Crates] {config : LoopConfig} {now : Time} {c c' : Cluster} {a : Action}

omit [Crates] in
theorem survives_of_graceful {r : ℕ} {b : Act} (hg : Graceful c' (.replica r b)) (hb : b ≠ .stop) :
    (c'.replicas r).isSome := by
  unfold Graceful at hg
  split at hg
  · next heq => cases heq; exact absurd rfl hb
  · exact hg.elim
  · exact hg.elim
  · next heq => cases heq; exact hg
  · next hne => exact absurd rfl (hne r b)

omit [Crates] in
theorem endsWell_of_graceful {r tid : ℕ} {b : TaskAction}
    (hg : Graceful c' (.replica r (.task tid b)))
    (h : alive c'.sys tid ∨ isStatement b) : EndsWell c'.sys (.task tid b) := by
  cases b with
  | lock fault | writeBack fault =>
    cases fault with
    | lost | unacked => first | exact hg.elim | trivial
    | ok => trivial
  | respond | crash =>
    rcases h with h | h
    · exact h
    · cases h
  | _ => trivial

/-- A graceful step is at most one step of the system, and tasks end well in it. -/
theorem step_of_graceful (h : ClusterStep config c a c') (hg : Graceful c' a) :
    (c'.sys.db = c.sys.db ∧ c'.sys.tasks = c.sys.tasks) ∨
      ∃ b, Step config.dispatch c.sys b c'.sys ∧ EndsWell c'.sys b := by
  have hother : ∀ {s : Sys} {b : System.Action}, System.step config.dispatch c.sys b = some s →
      (∀ tid b', b ≠ .task tid b') → Step config.dispatch c.sys b s ∧ EndsWell s b := by
    intro s b hs hb
    refine ⟨step_cases hs, ?_⟩
    cases b with
    | task tid b' => exact absurd rfl (hb tid b')
    | _ => trivial
  cases h with
  | outside b s hb hs =>
    refine .inr ⟨b, hother hs ?_⟩
    rintro tid b' rfl
    cases hb
  | rescan k b s _ _ hs => exact .inr ⟨_, hother hs (by simp)⟩
  | start r s _ hs => exact .inr ⟨_, hother hs (by simp)⟩
  | replica r b p s p' hr hs =>
    have hdies : b ≠ .stop → p' ≠ none := by
      rintro hb rfl
      have := survives_of_graceful hg hb
      simp at this
    cases hs with
    | cancel | recv | pollTimer | drained | drainEnded | passEmpty | fetchNewFailed | wake
    | fetchDueFailed
    | streamDone | sweepFailed =>
      exact .inl ⟨rfl, rfl⟩
    | crash | startPanicked | responsePanicked => exact absurd rfl (hdies (by simp))
    | stop => exact .inl ⟨by rw [kill_eq], by rw [kill_eq]; rfl⟩
    | passStarted _ _ _ _ _ _ _ hs | wrote _ _ _ _ _ hs | writeFailed _ _ _ hs
    | nextEvent _ _ _ _ hs
    | passDone _ _ hs | fetchDue _ _ hs | swept _ _ _ _ hs => exact .inr ⟨_, hother hs (by simp)⟩
    | examined tid fault rows ready _ _ hs => exact .inr ⟨_, step_cases hs, trivial⟩
    | started tid _ _ _ _ _ hs => exact .inr ⟨_, step_cases hs, trivial⟩
    | advanced _ _ _ _ _ _ hs halive =>
      exact .inr ⟨_, step_cases hs, endsWell_of_graceful hg (.inl halive)⟩
    | finished _ _ _ _ _ _ hst hs =>
      exact .inr ⟨_, step_cases hs, endsWell_of_graceful hg (.inr hst)⟩

/-- **No lock is left behind.** As long as replicas end by `stop` and neither a lock nor a
write-back goes wrong half way: a row is locked only while some running replica has a task between
the lock and the write-back, and when no replica has a task in hand, no row is locked. -/
theorem graceful_leaves_no_lock (h : Run (step config) (fun _ a c' => Graceful c' a) (boot now) c) :
    (∀ d r u, c.sys.db.deliveries.get d = some r → r.lockedUntil = some u →
      ∃ t, Holds c.sys t d u ∧ ∃ k p, c.replicas k = some p ∧ t.tid ∈ p.stage.tasks) ∧
      ((∀ k p, c.replicas k = some p → p.stage.tasks = []) →
        ∀ r ∈ c.sys.db.deliveries.rows, r.lockedUntil = none) := by
  have hi : AllHeld c.sys := by
    induction h with
    | refl =>
      intro d r u hr
      simp [boot, init, Db.empty, Table.get, Table.empty] at hr
    | tail h hs ho ih =>
      rcases step_of_graceful (clusterStep_of_step hs) ho with ⟨hdb, htasks⟩ | ⟨b, hst, hend⟩
      · intro d r u hr hu
        rw [hdb] at hr
        obtain ⟨t, ht⟩ := ih d r u hr hu
        exact ⟨t, htasks ▸ ht.1, ht.2⟩
      · exact allHeld_step (wf_of_cluster h) ih hst hend
  have howned := owned_of_run h
  have hheld : ∀ d r u, c.sys.db.deliveries.get d = some r → r.lockedUntil = some u →
      ∃ t, Holds c.sys t d u ∧ ∃ k p, c.replicas k = some p ∧ t.tid ∈ p.stage.tasks := by
    intro d r u hr hu
    obtain ⟨t, ht⟩ := hi d r u hr hu
    exact ⟨t, ht, howned.owner t ht.1⟩
  refine ⟨hheld, fun hidle r hr => ?_⟩
  rcases hu : r.lockedUntil with _ | u
  · rfl
  · obtain ⟨t, -, k, p, hp, hm⟩ := hheld r.id r u (Table.get_eq_some_iff.mpr ⟨hr, rfl⟩) hu
    rw [hidle k p hp] at hm
    cases hm

end

/-- The replica `0` stops after a call that took longer than its lock, and the replica `1` takes the
row over. -/
def takenOver : List Action :=
  [.outside (.publish (sampleEvent 1 [sampleCallback "hook_a" []])), .outside (.commit 1),
    .replica 0 .start,
    .replica 0 (.recv true), .replica 0 (.tryRecv false), .replica 0 (.fetchNew true),
    .replica 0 (.write .ok), .replica 0 .nextEvent,
    .replica 0 (.fetchDue true), .replica 0 (.task 0 (.examine .ok)),
    .replica 0 (.task 0 .computeLock),
    .replica 0 (.task 0 (.lock .ok)), .replica 0 (.task 0 .deliver), .outside (.tick 3600000000000),
    .replica 0 .cancel, .replica 0 (.task 0 (.respond .timeout 0)),
    .replica 0 (.task 0 (.writeBack .ok)),
    .replica 0 .streamDone, .replica 0 (.sweep .ok), .replica 0 .stop,
    .outside (.tick 3600000000000),
    .replica 1 .start, .replica 1 (.recv true), .replica 1 (.tryRecv false),
    .replica 1 (.fetchNew true), .replica 1 (.fetchDue true),
    .replica 1 (.task 1 (.examine .ok)), .replica 1 (.task 1 .computeLock),
    .replica 1 (.task 1 (.lock .ok))]

theorem graceful_leaves_no_lock_takenOver :
    ∃ c, Run (@step sampleCrates {}) (fun _ a c' => Graceful c' a) (boot 0) c ∧
      ∃ r ∈ c.sys.db.deliveries.get 1, ∃ u ∈ r.lockedUntil, r.attempts = 2 ∧
        ∃ t, Holds c.sys t 1 u ∧ ∃ k p, c.replicas k = some p ∧ t.tid ∈ p.stage.tasks := by
  obtain ⟨c, hrun, r, hr, u, hu, hattempts⟩ :
      ∃ c, Run (@step sampleCrates {}) (fun _ a c' => Graceful c' a) (boot 0) c ∧
        ∃ r ∈ c.sys.db.deliveries.get 1, ∃ u ∈ r.lockedUntil, r.attempts = 2 :=
    Run.exists_of_exec takenOver (by decide +kernel)
  exact ⟨c, hrun, r, hr, u, hu, hattempts,
    (@graceful_leaves_no_lock sampleCrates {} 0 c hrun).1 1 r u hr hu⟩

end OutboxDispatcher.Replicas.Locks
