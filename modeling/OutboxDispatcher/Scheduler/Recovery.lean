import OutboxDispatcher.Scheduler.Completeness

/-! # Restarts

`recover_cursor` returns the event of the newest delivery row. That is a sound place to resume from
when every row vouches for the events up to its own: `RowsVouch`. A process that works in order from
a sound cursor keeps this, but only at the granularity of its statements: an event with accepted and
rejected callbacks takes two of them, and between the two its first rows vouch for it too early. A
rescan that starts ahead of what is scheduled breaks it as well. Without these two, recovery is
sound in every state (`recoverCursor_sound`); with either of them it is not
(`recoverCursor_unsound`). -/

namespace OutboxDispatcher.Scheduler.Recovery

open OutboxDispatcher.Lib.JsonValue OutboxDispatcher.Lib.Runs OutboxDispatcher.Lib.Tables
open OutboxDispatcher.Schema OutboxDispatcher.Callbacks.Fields OutboxDispatcher.Callbacks.Parse
open OutboxDispatcher.Repo.Database OutboxDispatcher.Repo.Database.Db
  OutboxDispatcher.Repo.Statements
open OutboxDispatcher.Scheduler.Pass OutboxDispatcher.Scheduler.Completeness
  OutboxDispatcher.Dispatch
open OutboxDispatcher.System OutboxDispatcher.System.Effects OutboxDispatcher.System.History

/-- A row is there only when every event up to its own is fully scheduled. -/
def RowsVouch (db : Db) : Prop :=
  ∀ r ∈ db.deliveries.rows, ∀ e ∈ db.events.rows, e.eventId = r.eventId → Upto db e.id

/-- The cursor after a restart is that of some row, or 0. -/
theorem recoverCursor_cases (db : Db) : recoverCursor db = 0 ∨
    ∃ r ∈ db.deliveries.rows, ∃ e ∈ db.events.rows, e.eventId = r.eventId ∧
    recoverCursor db = e.id := by
  unfold recoverCursor
  split
  · exact .inl rfl
  · next r hr =>
    have hm : r ∈ db.deliveries.rows := mem_orderBy.mp (List.mem_of_mem_head? hr)
    obtain ⟨e, he, hk⟩ := db.references r hm
    refine .inr ⟨r, hm, e, he, hk, ?_⟩
    rw [event?_eq_some.mpr ⟨he, hk⟩]
    rfl

section

variable [Crates] {config : DispatchConfig} {s s' : Sys} {a : Action}

theorem upto_zero (hw : WF config s) : Upto s.db 0 := fun e he hle => by
  have := (hw.events.ids e (List.mem_append_left _ (hw.events.visible e he))).1
  omega

theorem recoverCursor_upto (hw : WF config s) (hv : RowsVouch s.db) :
    Upto s.db (recoverCursor s.db) := by
  rcases recoverCursor_cases s.db with h | ⟨r, hr, e, he, hk, h⟩
  · rw [h]; exact upto_zero hw
  · rw [h]; exact hv r hr e he hk

theorem recoverCursor_notAhead (hw : WF config s) : NotAhead s (recoverCursor s.db) := by
  rcases recoverCursor_cases s.db with h | ⟨r, hr, e, he, hk, h⟩
  · exact .inl h.le
  · exact .inr ⟨e, hw.events.visible e he, h.le⟩

/-! ### Rows that are inserted -/

/-- The first write of the event asks for a row of each element. -/
def OneWrite (config : DispatchConfig) (e : RawEvent) : Prop :=
  ∀ w ∈ (eventWrites config e).head?, ∀ name ∈ extractCallbackNames e.callbacks,
    ∃ n ∈ w.rows, n.callbackName = name

instance (config : DispatchConfig) (e : RawEvent) : Decidable (OneWrite config e) :=
  inferInstanceAs (Decidable (∀ w ∈ (eventWrites config e).head?,
    ∀ name ∈ extractCallbackNames e.callbacks, ∃ n ∈ w.rows, n.callbackName = name))

/-- Such an event is fully scheduled once a write is made. -/
theorem fullyScheduled_of_oneWrite (hw : WF config s) {l : Loop} (hl : LoopWF config s l)
    (hone : OneWrite config l.event) (hne : l.writes ≠ eventWrites config l.event)
    (he : l.event ∈ s.db.events.rows) : FullyScheduled s.db l.event := by
  obtain ⟨made, heq, hmade⟩ := hw.hasRow_made hl he
  cases made with
  | nil => exact absurd heq.symm hne
  | cons w made =>
    intro name hname
    obtain ⟨n, hn, rfl⟩ := hone w (by simp [heq]) name hname
    exact hmade w (List.mem_cons_self ..) n hn

/-- The rows a write adds vouch for the events up to theirs. -/
theorem upto_write (hw : WF config s) (h : Step config s a s') {p : ℕ} {c : ℤ} {l : Loop}
    {w : Write} {writes : List Write} (hs : s.scheds p = .running c l) (hp : PassOk s.db c l)
    (hone : OneWrite config l.event) (hwr : l.writes = w :: writes)
    (hi : InsertSpec s.db s'.db s.now l.event.eventId w.rows) (hvis : l.event ∈ s'.db.events.rows) :
    Upto s'.db l.event.id := by
  have hw' := wf_step hw h
  have hl : LoopWF config s' { l with writes } := ((hw.scheds p c l hs).step h).write hw'.issued hwr
    fun n hn => (hi.hasRow _ _).mpr (.inr ⟨rfl, n, hn, rfl⟩)
  have hne : writes ≠ eventWrites config l.event := by
    obtain ⟨made, heq, -⟩ := (hw.scheds p c l hs).made
    intro hcontra
    have := congrArg List.length (hcontra.trans heq)
    simp only [List.length_append, hwr, List.length_cons] at this
    omega
  have hdone : FullyScheduled s'.db l.event :=
    fullyScheduled_of_oneWrite (l := { l with writes }) hw' hl hone hne hvis
  intro x hx hle
  rcases lt_or_eq_of_le hle with hlt | heq
  · have hstep : DbStep s.now s.db s'.db := .insert _ _ _ hi
    exact fullyScheduled_dbStep hstep hx (hp.before x (mem_events_dbStep hstep hx) hlt)
  · rwa [Table.eq_of_key hx hvis heq]

/-! ### The invariant -/

/-- The cursor of the rescan that starts. -/
def rescans? : Action → Option ℤ
  | .sched _ (.rescan c) => some c
  | _ => none

/-- Events become visible in the order of their ids and take one write each, and a rescan starts
where everything is scheduled. -/
structure Orderly (config : DispatchConfig) (s : Sys) (a : Action) (s' : Sys) : Prop where
  commitLast : CommitLast s a
  oneWrite : ∀ e ∈ s'.committed, OneWrite config e
  rescan : ∀ c ∈ rescans? a, Upto s.db c ∧ NotAhead s c

structure Sound (config : DispatchConfig) (s : Sys) : Prop where
  wf : WF config s
  oneWrite : ∀ e ∈ s.committed, OneWrite config e
  covered : ∀ p, Covered s.db (s.scheds p)
  notAhead : ∀ p, ∀ c ∈ cursor? (s.scheds p), NotAhead s c
  rows : RowsVouch s.db

theorem sound_init (now : Time) {scheds : ℕ → Sched} (hq : Quiet scheds)
    (h0 : ∀ p, ∀ c ∈ cursor? (scheds p), c ≤ 0) : Sound config (init now scheds) where
  wf := wf_init now hq
  oneWrite := fun e he => by simp [init] at he
  covered := covered_init now hq
  notAhead := fun p c hc => .inl (h0 p c hc)
  rows := fun r hr => by simp [init, Db.empty] at hr

/-- Where a process starts, everything is scheduled. -/
theorem Sound.start (hi : Sound config s) (h : Step config s a s') (hok : Orderly config s a s')
    {p : ℕ} {c : ℤ} (hdown : s.scheds p = .down) (hidle : s'.scheds p = .idle c) :
    Upto s.db c ∧ NotAhead s c := by
  rcases h.scheds p with hs | ⟨b, rfl, hs⟩
  · rw [hs, hdown] at hidle; cases hidle
  · rw [hdown, hidle] at hs
    generalize s'.db = db' at hs
    cases hs with
    | recover => exact ⟨recoverCursor_upto hi.wf hi.rows, recoverCursor_notAhead hi.wf⟩
    | rescan => exact hok.rescan c rfl

theorem Sound.commitAbove (hi : Sound config s) (h : Step config s a s') (hlast : CommitLast s a)
    (p : ℕ) : CommitAbove p s a :=
  fun _ hid x hx => (notAhead_horizon hi.wf (hi.notAhead p) x hx).lt hi.wf h hlast hid

omit [Crates] in
theorem upto_dbStep {now : Time} {db db' : Db} (h : DbStep now db db') {c : ℤ} (hc : Upto db c) :
    Upto db' c :=
  fun e he hle => fullyScheduled_dbStep h he (hc e (mem_events_dbStep h he) hle)

/-- The rows that were there before keep vouching. -/
theorem upto_step (h : Step config s a s') (hlast : CommitLast s a) {e : RawEvent}
    (he : e ∈ s.committed) (hu : Upto s.db e.id) : Upto s'.db e.id := by
  rcases h.dbStep with hd | ⟨e', he', rfl, hc, -⟩
  · exact upto_dbStep hd hu
  · have hlt : e.id < e'.id := hlast e'.id rfl e he
    have hcov : Covered s'.db (.idle e.id) :=
      covered_commit hc (fun x hx => by cases hx; exact hlt) hu
    exact hcov

theorem rowsVouch_step (hi : Sound config s) (h : Step config s a s')
    (hok : Orderly config s a s') : RowsVouch s'.db := by
  have hold : ∀ r ∈ s.db.deliveries.rows, ∀ e ∈ s'.db.events.rows, e.eventId = r.eventId →
      Upto s'.db e.id := by
    intro r hr e he hk
    obtain ⟨e₀, he₀, hk₀⟩ := s.db.references r hr
    have hcom := hi.wf.events.visible e₀ he₀
    have heq : e = e₀ := (wf_step hi.wf h).events.eq_of_eventId
      ((wf_step hi.wf h).events.visible e he) (committed_subset h hcom) (hk.trans hk₀.symm)
    exact heq ▸ upto_step h hok.commitLast hcom (hi.rows r hr e₀ he₀ hk₀)
  by_cases ha : ∀ p b, a ≠ .sched p b
  · intro r hr e he hk
    obtain ⟨r₀, hr₀, hid⟩ := (noInsert_step h ha).1.rows r hr
    simp only [DeliveryRow.ident, Prod.mk.injEq] at hid
    exact hold r₀ hr₀ e he (hk.trans hid.2.1.symm)
  · push Not at ha
    obtain ⟨p, b, rfl⟩ := ha
    intro r hr e he hk
    rcases Step.sched_inserts h with hdb | ⟨c, l, w, writes, hsch, hwr, hins⟩
    · exact hold r (hdb ▸ hr) e he hk
    obtain ⟨added, hrows, hadd⟩ := hins.rows
    rw [hrows, List.mem_append] at hr
    rcases hr with hr | hr
    · exact hold r hr e he hk
    · -- a new row is one of the event the process is at
      have hcov : PassOk s.db c l := by
        have := hi.covered p
        rwa [hsch] at this
      have hcom := (hi.wf.scheds p c l hsch).committed _ (List.mem_cons_self ..)
      have heq : e = l.event := (wf_step hi.wf h).events.eq_of_eventId
        ((wf_step hi.wf h).events.visible e he) (committed_subset h hcom)
        (hk.trans (hadd r hr).eventId)
      subst heq
      exact upto_write hi.wf h hsch hcov (hi.oneWrite _ hcom) hwr hins he

theorem sound_step (hi : Sound config s) (h : Step config s a s') (hok : Orderly config s a s') :
    Sound config s' where
  wf := wf_step hi.wf h
  oneWrite := hok.oneWrite
  covered := fun p => covered_step hi.wf h (hi.covered p) (hi.commitAbove h hok.commitLast p)
    fun _ hdown hidle => (hi.start h hok hdown hidle).1
  notAhead := fun p => notAhead_step hi.wf h (hi.notAhead p)
    fun _ hdown hidle => (hi.start h hok hdown hidle).2
  rows := rowsVouch_step hi h hok

/-- **Cursor recovery is sound** in orderly runs, with any number of schedulers, rescans, crashes,
failures and restarts, and beside everything else that goes on: every visible event up to
`recover_cursor()` has a row for each element of its array. -/
theorem recoverCursor_sound {now : Time} {scheds : ℕ → Sched} (hq : Quiet scheds)
    (h0 : ∀ p, ∀ c ∈ cursor? (scheds p), c ≤ 0)
    (h : Run (step config) (Orderly config) (init now scheds) s) :
    Upto s.db (recoverCursor s.db) := by
  have hi : Sound config s := h.invariant (Sound config) (sound_init now hq h0)
    fun s a s' hi hs hok => sound_step hi (step_cases hs) hok
  exact recoverCursor_upto hi.wf hi.rows

end

instance [Crates] (config : DispatchConfig) (s : Sys) (a : Action) (s' : Sys) :
    Decidable (Orderly config s a s') :=
  decidable_of_iff (CommitLast s a ∧ (∀ e ∈ s'.committed, OneWrite config e) ∧
    ∀ c ∈ rescans? a, Upto s.db c ∧ NotAhead s c)
    ⟨fun ⟨h1, h2, h3⟩ => ⟨h1, h2, h3⟩, fun ⟨h1, h2, h3⟩ => ⟨h1, h2, h3⟩⟩

/-- A scheduler and a rescan from the start take turns on two events, and the scheduler crashes in
between. -/
def takingTurns : List Action :=
  [.publish (sampleEvent 1 [sampleCallback "hook_a" [], sampleCallback "hook_b" []]), .commit 1,
    .publish (sampleEvent 2 [.int 3]), .commit 2, .sched 1 (.rescan 0), .sched 0 .poll,
    .sched 1 .poll, .sched 1 (.write .ok), .sched 1 .next, .sched 0 (.write .ok), .sched 0 .crash,
    .sched 0 .recover, .sched 0 .poll, .sched 1 (.write .ok), .sched 1 .next, .sched 0 .crash]

theorem recoverCursor_sound_takingTurns :
    ∃ s, Run (@step sampleCrates {}) (@Orderly sampleCrates {}) (init 0 oneScheduler) s ∧
      recoverCursor s.db = 2 ∧ Upto s.db (recoverCursor s.db) := by
  have hex : ∃ s, Run (@step sampleCrates {}) (@Orderly sampleCrates {}) (init 0 oneScheduler) s ∧
      recoverCursor s.db = 2 := Run.exists_of_exec takingTurns (by decide +kernel)
  obtain ⟨s, hrun, hcur⟩ := hex
  refine ⟨s, hrun, hcur, @recoverCursor_sound sampleCrates _ _ _ _ quiet_oneScheduler ?_ hrun⟩
  intro p c hc
  unfold oneScheduler at hc
  split_ifs at hc
  · cases hc; exact le_rfl
  · cases hc

/-- A crash between the two writes of an event with an accepted and a rejected callback. -/
def crashBetweenWrites : List Action :=
  [.publish (sampleEvent 1 [sampleCallback "hook_a" [], .int 3]), .commit 1, .sched 0 .poll,
    .sched 0 (.write .ok), .sched 0 .crash]

/-- A rescan since the second of two events, while the first is not scheduled yet. -/
def rescanAhead : List Action :=
  [.publish (sampleEvent 1 [sampleCallback "hook_a" []]), .commit 1,
    .publish (sampleEvent 2 [sampleCallback "hook_a" []]), .commit 2, .sched 1 (.rescan 1),
    .sched 1 .poll, .sched 1 (.write .ok), .sched 1 .next]

/-- **Otherwise it is not**: with two writes for one event, or with a rescan, `recover_cursor()` can
be past an event that has an element without a row. -/
theorem recoverCursor_unsound :
    (∃ s, Run (@step sampleCrates {}) (fun s a _ => CommitLast s a ∧ rescans? a = none)
      (init 0 oneScheduler) s ∧ ¬Upto s.db (recoverCursor s.db)) ∧
    ∃ s, Run (@step sampleCrates {})
      (fun s a s' => CommitLast s a ∧ ∀ e ∈ s'.committed, @OneWrite sampleCrates {} e)
      (init 0 oneScheduler) s ∧ ¬Upto s.db (recoverCursor s.db) :=
  ⟨Run.exists_of_exec crashBetweenWrites (by decide +kernel),
    Run.exists_of_exec rescanAhead (by decide +kernel)⟩

end OutboxDispatcher.Scheduler.Recovery
