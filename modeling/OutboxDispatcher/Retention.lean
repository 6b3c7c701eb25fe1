import OutboxDispatcher.Retention.Drain
import OutboxDispatcher.System.History

/-! # What retention deletes

`delete_terminal_events` asks that no delivery of the event is pending. Of an event without rows
this is true as well, so an event that is not scheduled yet goes once it is old enough, and so does
one that is scheduled in part while all of its rows are done. `retention_safe` says when nothing of
this kind happens, `unscheduled_deleted` shows it happening. -/

namespace OutboxDispatcher.Retention

open OutboxDispatcher.Lib.Runs OutboxDispatcher.Lib.Tables OutboxDispatcher.Schema
open OutboxDispatcher.Callbacks.Fields OutboxDispatcher.Repo.Database
  OutboxDispatcher.Repo.Database.Db
open OutboxDispatcher.Repo.Statements OutboxDispatcher.Callbacks.Parse
  OutboxDispatcher.Scheduler.Pass
open OutboxDispatcher.System OutboxDispatcher.System.Effects OutboxDispatcher.System.History
open OutboxDispatcher.Retention.Drain

/-- The event is in the database before the statement and not after it. -/
def Deleted (db db' : Db) (e : RawEvent) : Prop := e ∈ db.events.rows ∧ e ∉ db'.events.rows

/-- The event is older than the retention that applies to it. -/
def PastCutoff (db : Db) (deadLetterCutoff processedCutoff : Time) (e : RawEvent) : Prop :=
  e.createdAt < if anyDeadLetter db e then deadLetterCutoff else processedCutoff

variable {db db' : Db} {deadLetterCutoff processedCutoff : Time} {e : RawEvent}

theorem deletable_iff : deletable db deadLetterCutoff processedCutoff e ↔
    (∀ r ∈ rowsOf db e, r.terminal) ∧ PastCutoff db deadLetterCutoff processedCutoff e := by
  simp [deletable, PastCutoff]

theorem deletable_of_deleted {n : ℤ} {report : RetentionDeleted}
    (h : deleteTerminalEvents db deadLetterCutoff processedCutoff n = some (db', report))
    (hd : Deleted db db' e) : deletable db deadLetterCutoff processedCutoff e := by
  rcases lt_or_ge n 0 with hneg | hn
  · -- a negative limit raises
    rw [deleteTerminalEvents, terminalEvents, limit, if_pos hneg] at h
    cases h
  · obtain ⟨report', hcall, -⟩ := deleteTerminalEvents_eq db deadLetterCutoff processedCutoff hn
    rw [hcall, Option.some.injEq, Prod.mk.injEq] at h
    obtain ⟨rfl, -⟩ := h
    have hremoved := removed_without (mem_of_mem_batch db deadLetterCutoff processedCutoff n.toNat)
    have hbatch : e ∈ (eligible db deadLetterCutoff processedCutoff).take n.toNat := by
      by_contra hnot
      exact hd.2 ((hremoved.events e).mpr ⟨hd.1, hnot⟩)
    exact (mem_eligible.mp (List.mem_of_mem_take hbatch)).2

/-- With a limit that is large enough every candidate is deleted. -/
theorem deleted_of_deletable (he : e ∈ db.events.rows)
    (hdel : deletable db deadLetterCutoff processedCutoff e) :
    ∃ db' report, deleteTerminalEvents db deadLetterCutoff processedCutoff db.events.rows.length =
      some (db', report) ∧ Deleted db db' e := by
  obtain ⟨report, hcall, -⟩ :=
    deleteTerminalEvents_eq db deadLetterCutoff processedCutoff
      (Int.natCast_nonneg db.events.rows.length)
  refine ⟨_, report, hcall, he, fun hm => ?_⟩
  have hremoved :=
    removed_without (mem_of_mem_batch db deadLetterCutoff processedCutoff db.events.rows.length)
  refine ((hremoved.events e).mp hm).2 ?_
  rw [List.take_of_length_le (length_eligible_le db deadLetterCutoff processedCutoff)]
  exact mem_eligible.mpr ⟨he, hdel⟩

/-- Every event that is past its cutoff is fully scheduled or has a row that is not terminal. -/
def SafeCutoffs (db : Db) (deadLetterCutoff processedCutoff : Time) : Prop :=
  ∀ e ∈ db.events.rows, PastCutoff db deadLetterCutoff processedCutoff e →
    FullyScheduled db e ∨ ∃ r ∈ rowsOf db e, ¬r.terminal

instance (db : Db) (deadLetterCutoff processedCutoff : Time) :
    Decidable (SafeCutoffs db deadLetterCutoff processedCutoff) :=
  inferInstanceAs (Decidable (∀ e ∈ db.events.rows,
    (e.createdAt < if anyDeadLetter db e then deadLetterCutoff else processedCutoff) →
      FullyScheduled db e ∨ ∃ r ∈ rowsOf db e, ¬r.terminal))

/-- **Exactly then** the events that are deleted, whatever the limit, are fully scheduled and all of
their rows are terminal. -/
theorem safeCutoffs_iff (db : Db) (deadLetterCutoff processedCutoff : Time) :
    (∀ n db' report, deleteTerminalEvents db deadLetterCutoff processedCutoff n =
      some (db', report) →
      ∀ e, Deleted db db' e → FullyScheduled db e ∧ ∀ r ∈ rowsOf db e, r.terminal) ↔
    SafeCutoffs db deadLetterCutoff processedCutoff := by
  constructor
  · intro h e he hpast
    by_cases hterm : ∀ r ∈ rowsOf db e, r.terminal
    · obtain ⟨db', report, hdb', hd⟩ := deleted_of_deletable he (deletable_iff.mpr ⟨hterm, hpast⟩)
      exact .inl (h _ db' report hdb' e hd).1
    · push Not at hterm
      exact .inr hterm
  · intro h n db' report hdb' e hd
    obtain ⟨hterm, hpast⟩ := deletable_iff.mp (deletable_of_deleted hdb' hd)
    rcases h e hd.1 hpast with hfull | ⟨r, hr, hnot⟩
    · exact ⟨hfull, hterm⟩
    · exact absurd (hterm r hr) hnot

/-! ### Runs -/

def retains? : Action → Option (Time × Time)
  | .retention deadLetterCutoff processedCutoff _ => some (deadLetterCutoff, processedCutoff)
  | _ => none

/-- The retention runs at safe cutoffs. -/
def SafeRetention (s : Sys) (a : Action) (_ : Sys) : Prop :=
  ∀ c ∈ retains? a, SafeCutoffs s.db c.1 c.2

instance (s : Sys) (a : Action) (s' : Sys) : Decidable (SafeRetention s a s') :=
  inferInstanceAs (Decidable (∀ c ∈ retains? a, SafeCutoffs s.db c.1 c.2))

/-- Each element of the event's array has had its row. -/
def HadRows (s : Sys) (e : RawEvent) : Prop :=
  ∀ name ∈ extractCallbackNames e.callbacks, ∃ i ∈ s.issued, i.key = (e.eventId, name)

section

variable [Crates] {config : DispatchConfig} {s s' : Sys} {a : Action}

theorem hadRows_of_fullyScheduled (hw : WF config s) (h : FullyScheduled s.db e) : HadRows s e := by
  intro name hname
  obtain ⟨r, hr, hk⟩ := h name hname
  obtain ⟨i, hi, hid⟩ := hw.issued.row r hr
  simp only [DeliveryRow.ident, Prod.mk.injEq] at hid
  exact ⟨i, hi, by rw [← hk]; simp [DeliveryRow.key, hid]⟩

/-- A step that takes an event away is a retention, and the event was fully scheduled. -/
theorem fullyScheduled_of_gone (hs : step config s a = some s') (hok : SafeRetention s a s')
    (he : e ∈ s.db.events.rows) (hgone : e ∉ s'.db.events.rows) : FullyScheduled s.db e := by
  cases step_cases hs with
  | commit e' db he' hc => exact absurd (by simp [hc.rows, he]) hgone
  | sched p b db sch hsch =>
    rcases schedStep_inserts hsch with rfl | ⟨c, l, w, writes, -, -, hi⟩
    · exact absurd he hgone
    · exact absurd (hi.events ▸ he) hgone
  | task t b db phase obs ht htask =>
    cases htask <;> exact absurd he hgone
  | retention deadLetterCutoff processedCutoff n p =>
    obtain ⟨⟨db', report⟩, hdel, hs⟩ := Option.bind_eq_some_iff.mp hs
    obtain ⟨rfl⟩ : db' = s.db.deleteEvents p := congrArg Sys.db (Option.some.inj hs)
    exact ((safeCutoffs_iff _ _ _).mpr (hok _ rfl) n _ _ hdel e ⟨he, hgone⟩).1
  | _ => exact absurd he hgone

theorem visible_of_committed (h : Step config s a s') (he : e ∈ s'.committed) :
    e ∈ s.committed ∨ e ∈ s'.db.events.rows := by
  cases h with
  | commit e' db he' hc =>
    rcases List.mem_append.mp he with he | he
    · exact .inl he
    · exact .inr (by simp [hc.rows, List.mem_singleton.mp he])
  | _ => exact .inl he

theorem hadRows_step (hw : WF config s) (hs : step config s a = some s')
    (hok : SafeRetention s a s') (hi : ∀ e ∈ s.committed, e ∈ s.db.events.rows ∨ HadRows s e) :
    ∀ e ∈ s'.committed, e ∈ s'.db.events.rows ∨ HadRows s' e := by
  have hmono : ∀ e, HadRows s e → HadRows s' e := fun e hrows name hname => by
    obtain ⟨i, hm, hk⟩ := hrows name hname
    exact ⟨i, issued_subset (step_cases hs) hm, hk⟩
  intro e he
  rcases visible_of_committed (step_cases hs) he with he | hvis'
  · by_cases hvis' : e ∈ s'.db.events.rows
    · exact .inl hvis'
    · rcases hi e he with hvis | hrows
      · exact .inr
          (hmono e (hadRows_of_fullyScheduled hw (fullyScheduled_of_gone hs hok hvis hvis')))
      · exact .inr (hmono e hrows)
  · exact .inl hvis'

/-- **When retention destroys no undelivered work.** In every state that is reached, and for all
cutoffs: the events that are deleted are fully scheduled and all of their rows are terminal if and
only if every event that is past its cutoff is fully scheduled or has a row that is not terminal.
And in every run in which the retention runs at such cutoffs only, each element of an event that is
gone has had its row. -/
theorem retention_safe {now : Time} {scheds : ℕ → Sched} (hq : Quiet scheds) :
    (∀ s, Run (step config) anyStep (init now scheds) s → ∀ deadLetterCutoff processedCutoff,
      (∀ n db' report, deleteTerminalEvents s.db deadLetterCutoff processedCutoff n =
        some (db', report) →
        ∀ e, Deleted s.db db' e → FullyScheduled s.db e ∧ ∀ r ∈ rowsOf s.db e, r.terminal) ↔
      SafeCutoffs s.db deadLetterCutoff processedCutoff) ∧
    ∀ s, Run (step config) SafeRetention (init now scheds) s →
      ∀ e ∈ s.committed, e ∈ s.db.events.rows ∨ HadRows s e := by
  refine ⟨fun s _ => safeCutoffs_iff s.db, fun s h => ?_⟩
  have hinv : WF config s ∧ ∀ e ∈ s.committed, e ∈ s.db.events.rows ∨ HadRows s e :=
    h.invariant (fun s => WF config s ∧ ∀ e ∈ s.committed, e ∈ s.db.events.rows ∨ HadRows s e)
      ⟨wf_init now hq, by simp [init]⟩ fun s a s' hi hs hok =>
        ⟨wf_step hi.1 (step_cases hs), hadRows_step hi.1 hs hok hi.2⟩
  exact hinv.2

end

/-- An event is delivered, and eight days later the worker deletes it. -/
def eightDays : List Action :=
  [.publish (sampleEvent 1 [sampleCallback "hook_a" []]), .commit 1, .sched 0 .poll,
    .sched 0 (.write .ok), .sched 0 .next, .fetch, .task 0 (.examine .ok), .task 0 .computeLock,
    .task 0 (.lock .ok), .task 0 .deliver, .task 0 (.respond .ok 0), .task 0 (.writeBack .ok),
    .tick (fromSecs (8 * 86400)), .retention (-fromSecs (22 * 86400)) (fromSecs 86400) 1000]

theorem retention_safe_eightDays :
    ∃ s, Run (@step sampleCrates {}) SafeRetention (init 0 oneScheduler) s ∧
      s.db.events.rows = [] ∧ ∃ e ∈ s.committed, HadRows s e := by
  have hex : ∃ s, Run (@step sampleCrates {}) SafeRetention (init 0 oneScheduler) s ∧
      s.db.events.rows = [] ∧ s.committed ≠ [] := Run.exists_of_exec eightDays (by decide +kernel)
  obtain ⟨s, hrun, hrows, hne⟩ := hex
  obtain ⟨e, he⟩ := List.exists_mem_of_ne_nil _ hne
  rcases (@retention_safe sampleCrates {} 0 _ quiet_oneScheduler).2 s hrun e he with hvis | hrows'
  · simp [hrows] at hvis
  · exact ⟨s, hrun, hrows, e, he, hrows'⟩

/-- The scheduler is down for 31 days after an event is published. -/
def longOutage : List Action :=
  [.publish (sampleEvent 1 [sampleCallback "hook_a" []]), .commit 1, .sched 0 .crash,
    .tick (fromSecs (31 * 86400))]

/-- The worker's next run, with the default retention of 30 and 7 days, deletes the event, and none
of its callbacks has a row. -/
theorem unscheduled_deleted :
    ∃ s, Run (@step sampleCrates {}) anyStep (init 0 oneScheduler) s ∧
      ∃ db' report, deleteTerminalEvents s.db (s.now - fromSecs (30 * 86400))
        (s.now - fromSecs (7 * 86400)) 1000 = some (db', report) ∧
          ∃ e, Deleted s.db db' e ∧ s.db.deliveries.rows = [] ∧ ¬FullyScheduled s.db e := by
  have hex : ∃ s, Run (@step sampleCrates {}) anyStep (init 0 oneScheduler) s ∧
      s.db.deliveries.rows = [] ∧ (∃ e ∈ s.db.events.rows, ¬FullyScheduled s.db e) ∧
      (deleteTerminalEvents s.db (s.now - fromSecs (30 * 86400)) (s.now - fromSecs (7 * 86400))
        1000).any
        (·.1.events.rows.isEmpty) := Run.exists_of_exec longOutage (by decide +kernel)
  obtain ⟨s, hrun, hrows, ⟨e, he, hnot⟩, hdel⟩ := hex
  rcases hd :
    deleteTerminalEvents s.db (s.now - fromSecs (30 * 86400)) (s.now - fromSecs (7 * 86400))
    1000 with _ | ⟨db', report⟩
  · rw [hd] at hdel; cases hdel
  · rw [hd] at hdel
    have hnil : db'.events.rows = [] := by simpa using hdel
    exact ⟨s, hrun, db', report, hd, e, ⟨he, by simp [hnil]⟩, hrows, hnot⟩

end OutboxDispatcher.Retention
