import OutboxDispatcher.Scheduler.Rescan
import OutboxDispatcher.System.Rows

/-! # The rows do not depend on who schedules

Replicas and rescans may work on the same events at the same time, fail, and start again from older
cursors. The rows they leave are those of one process that never fails: of the entries of an event
with one name the first wins, and this survives every interleaving, because a process that comes to
a later entry has already made the write with the first one.

* `asExpected_inserted`: a row that is inserted is that of the first entry of its name.
* `rescan_unscheduled`: what a rescan from the start leaves.
* `scheduling_confluent`: every run in which the events are processed leaves the same. -/

namespace OutboxDispatcher.Scheduler.Confluence

open OutboxDispatcher.Lib.JsonValue OutboxDispatcher.Lib.Runs OutboxDispatcher.Lib.Tables
open OutboxDispatcher.Schema OutboxDispatcher.Callbacks.Fields OutboxDispatcher.Callbacks.Parse
open OutboxDispatcher.Repo.Database OutboxDispatcher.Repo.Database.Db
  OutboxDispatcher.Repo.Statements
open OutboxDispatcher.Scheduler.Pass OutboxDispatcher.Scheduler.Completeness
open OutboxDispatcher.Scheduler.Rescan OutboxDispatcher.Dispatch
open OutboxDispatcher.System OutboxDispatcher.System.Effects OutboxDispatcher.System.History
open OutboxDispatcher.System.Rows

/-! ### The columns that scheduling decides -/

/-- Event, name, completion mode, dead letter, last error. -/
abbrev Columns := Uuid × String × CompletionMode × Bool × Option String

def columns (r : DeliveryRow) : Columns :=
  (r.eventId, r.callbackName, r.completionMode, r.deadLetter, r.lastError)

/-- The columns that a row of the event `u` for the entry `n` is inserted with. -/
def newColumns (u : Uuid) (n : NewDelivery) : Columns :=
  (u, n.callbackName, n.completionMode, n.deadLetter, n.lastError)

/-- The event that a process is done with. -/
def scheduled? : Obs → Option Uuid
  | .scheduled _ u => some u
  | _ => none

/-- Some process has made all writes of the event. -/
def Processed (s : Sys) (e : RawEvent) : Prop := ∃ o ∈ s.trace, scheduled? o = some e.eventId

instance (s : Sys) (e : RawEvent) : Decidable (Processed s e) :=
  inferInstanceAs (Decidable (∃ o ∈ s.trace, scheduled? o = some e.eventId))

def unscheduled (db : Db) : Db :=
  { db with
    deliveries := .empty
    key_nodup := Db.empty.key_nodup
    references := by simp
    seq_fresh := by simp }

section

variable [Crates] {config : DispatchConfig}

/-- The row has the columns of the first entry of the event with its name. -/
def AsExpected (config : DispatchConfig) (e : RawEvent) (r : DeliveryRow) : Prop :=
  ∃ n, (eventRows config e).find? (·.callbackName = r.callbackName) = some n ∧
    columns r = newColumns e.eventId n

/-- The columns of all first entries of the events of `db`. -/
def Expected (config : DispatchConfig) (db : Db) (t : Columns) : Prop :=
  ∃ e ∈ db.events.rows, ∃ name n, (eventRows config e).find? (·.callbackName = name) = some n ∧
    t = newColumns e.eventId n

/-- **The first entry wins.** A row inserted by a write is that of the first entry of its name in
the whole event, since the rows of the writes before are there. -/
theorem asExpected_inserted {db : Db} {now : Time} {e : RawEvent} {made writes : List Write}
    {w : Write} {r : DeliveryRow} (heq : eventWrites config e = made ++ w :: writes)
    (hmade : ∀ w ∈ made, ∀ n ∈ w.rows, db.HasRow e.eventId n.callbackName)
    (hi : Inserted db now e.eventId w.rows r) : AsExpected config e r := by
  obtain ⟨n, hn, hr⟩ := hi.first
  have hbefore : (made.flatMap Write.rows).find? (·.callbackName = r.callbackName) = none := by
    refine List.find?_eq_none.mpr fun n' hn' hname => hi.absent ?_
    obtain ⟨w', hw', hn'⟩ := List.mem_flatMap.mp hn'
    rw [← of_decide_eq_true hname]
    exact hmade w' hw' n' hn'
  refine ⟨n, ?_, by rw [hr]; rfl⟩
  rw [eventRows, heq, List.flatMap_append, List.find?_append, hbefore, List.flatMap_cons,
    List.find?_append, hn]
  rfl

/-- Rows that are as expected, one for each entry, have the expected columns. -/
theorem mem_columns_iff {db : Db} {rows : List DeliveryRow}
    (hfirst : ∀ r ∈ rows, ∀ e ∈ db.events.rows, e.eventId = r.eventId → AsExpected config e r)
    (hall : ∀ e ∈ db.events.rows, ∀ n ∈ eventRows config e,
      ∃ r ∈ rows, r.key = (e.eventId, n.callbackName)) (t : Columns) :
    (∃ r ∈ rows, (∃ e ∈ db.events.rows, e.eventId = r.eventId) ∧ columns r = t) ↔
      Expected config db t := by
  constructor
  · rintro ⟨r, hr, ⟨e, he, hk⟩, rfl⟩
    obtain ⟨n, hn, hcol⟩ := hfirst r hr e he hk
    exact ⟨e, he, _, n, hn, hcol⟩
  · rintro ⟨e, he, name, n, hn, rfl⟩
    have hname : n.callbackName = name := by simpa using List.find?_some hn
    obtain ⟨r, hr, hk⟩ := hall e he n (List.mem_of_find?_eq_some hn)
    obtain ⟨hu, hrn⟩ := Prod.mk.inj hk
    obtain ⟨n', hn', hcol⟩ := hfirst r hr e he hu.symm
    rw [hrn, hname, hn] at hn'
    cases hn'
    exact ⟨r, hr, ⟨e, he, hu.symm⟩, hcol⟩

/-! ### One process that does not fail -/

def AllExpected (config : DispatchConfig) (db : Db) : Prop :=
  ∀ r ∈ db.deliveries.rows, ∀ e ∈ db.events.rows, e.eventId = r.eventId → AsExpected config e r

def RowsExpected (config : DispatchConfig) (e : RawEvent) (db : Db) : Prop :=
  ∀ r ∈ db.deliveries.rows, r.eventId = e.eventId → AsExpected config e r

theorem rowsExpected_exec {db db' : Db} {now : Time} {e e₀ : RawEvent} {made writes : List Write}
    {w : Write} (heq : eventWrites config e = made ++ w :: writes) (he : e ∈ db.events.rows)
    (he₀ : e₀ ∈ db.events.rows) (hx : RowsExpected config e₀ db)
    (hmade : ∀ w ∈ made, ∀ n ∈ w.rows, db.HasRow e.eventId n.callbackName)
    (hw : w.exec db now e.eventId = some db') : RowsExpected config e₀ db' := by
  rcases Write.exec_cases hw with ⟨rfl, -⟩ | hi
  · exact hx
  · obtain ⟨added, hrows, hadd⟩ := hi.rows
    intro r hr hk
    rw [hrows, List.mem_append] at hr
    rcases hr with hr | hr
    · exact hx r hr hk
    · rw [event_eq he₀ he (hk.symm.trans (hadd r hr).eventId)]
      exact asExpected_inserted heq hmade (hadd r hr)

theorem rowsExpected_writes {now : Time} {e e₀ : RawEvent} :
    ∀ (writes made : List Write) {db db' : Db},
    eventWrites config e = made ++ writes → e ∈ db.events.rows → e₀ ∈ db.events.rows →
    RowsExpected config e₀ db → (∀ w ∈ made, ∀ n ∈ w.rows, db.HasRow e.eventId n.callbackName) →
    writes.foldlM (fun db w => w.exec db now e.eventId) db = some db' →
    db'.events = db.events ∧ RowsExpected config e₀ db'
  | [], _, _, _, _, _, _, hx, _, hdb => by
    cases hdb
    exact ⟨rfl, hx⟩
  | w :: writes, made, db, db', heq, he, he₀, hx, hmade, hdb => by
    simp only [List.foldlM_cons, Option.bind_eq_bind, Option.bind_eq_some_iff] at hdb
    obtain ⟨db₁, hdb₁, hdb'⟩ := hdb
    obtain ⟨hev, hrow⟩ := exec_hasRow hdb₁
    have hmade₁ : ∀ w' ∈ made ++ [w], ∀ n ∈ w'.rows, db₁.HasRow e.eventId n.callbackName := by
      intro w' hw' n hn
      rcases List.mem_append.mp hw' with hw' | hw'
      · exact (hrow _ _).mpr (.inl (hmade w' hw' n hn))
      · rw [List.mem_singleton.mp hw'] at hn
        exact Write.hasRow_exec hdb₁ n hn
    obtain ⟨hev', hx'⟩ := rowsExpected_writes writes (made ++ [w]) (by simpa using heq) (hev ▸ he)
      (hev ▸ he₀) (rowsExpected_exec heq he he₀ hx hmade hdb₁) hmade₁ hdb'
    exact ⟨hev'.trans hev, hx'⟩

theorem rowsExpected_scheduleEvent {now : Time} {e₀ : RawEvent} (db db' : Db) (e : RawEvent)
    (he : e ∈ db.events.rows) (h : scheduleEvent config now db e = some db')
    (hx : e₀ ∈ db.events.rows ∧ RowsExpected config e₀ db) :
    e₀ ∈ db'.events.rows ∧ RowsExpected config e₀ db' := by
  obtain ⟨hev, hx'⟩ := rowsExpected_writes (eventWrites config e) [] rfl he hx.1 hx.2 (by simp) h
  exact ⟨hev ▸ hx.1, hx'⟩

theorem allExpected_scheduleEvent {now : Time} (db db' : Db) (e : RawEvent)
    (he : e ∈ db.events.rows)
    (h : scheduleEvent config now db e = some db') (hx : AllExpected config db) :
    AllExpected config db' := by
  intro r hr e₀ he₀ hk
  obtain ⟨db₁, hdb₁, hadds⟩ := scheduleEvent_spec config now he
  obtain rfl := Option.some.inj (hdb₁.symm.trans h)
  have he₀' : e₀ ∈ db.events.rows := hadds.events ▸ he₀
  exact (rowsExpected_scheduleEvent db db₁ e he h
    ⟨he₀', fun r hr hk => hx r hr e₀ he₀' hk.symm⟩).2 r hr hk.symm

/-! ### Any number of processes -/

variable {s s' : Sys} {a : Action}

/-- What the runs keep: an issued row is that of the first entry of its name, and an event that some
process has left can be read, and all its rows have been issued. -/
structure Issued (config : DispatchConfig) (s : Sys) : Prop where
  first : ∀ i ∈ s.issued, ∃ e ∈ s.committed, e.eventId = i.eventId ∧ AsExpected config e i
  done : ∀ o ∈ s.trace, ∀ u, scheduled? o = some u → ∃ e ∈ s.committed, e.eventId = u ∧
    decodes e ∧ ∀ n ∈ eventRows config e, ∃ i ∈ s.issued, i.key = (u, n.callbackName)

theorem issued_cases (h : Step config s a s') {i : DeliveryRow} (hi : i ∈ s'.issued) :
    i ∈ s.issued ∨ ∃ p c l w writes, s.scheds p = .running c l ∧ l.writes = w :: writes ∧
      (∃ e ∈ s.db.events.rows, e.eventId = l.event.eventId) ∧
      Inserted s.db s.now l.event.eventId w.rows i ∧ i ∈ s'.db.deliveries.rows := by
  cases h with
  | sched p b db sch hs =>
    rcases List.mem_append.mp hi with hi | hi
    · exact .inl hi
    rcases schedStep_inserts hs with rfl | ⟨c, l, w, writes, hsch, hwr, hins⟩
    · simp at hi
    · obtain ⟨added, hrows, hadd⟩ := hins.rows
      rw [hrows, List.drop_left] at hi
      exact .inr ⟨p, c, l, w, writes, hsch, hwr, hins.exists_event, hadd i hi, by simp [hrows, hi]⟩
  | _ => exact .inl hi

theorem issued_step (hw : WF config s) (hi : Issued config s) (h : Step config s a s') :
    Issued config s' := by
  constructor
  · intro i hm
    rcases issued_cases h hm with hm | ⟨p, c, l, w, writes, hsch, hwr, ⟨e, he, hk⟩, hins, -⟩
    · obtain ⟨e, he, hx⟩ := hi.first i hm
      exact ⟨e, committed_subset h he, hx⟩
    · have hl := hw.scheds p c l hsch
      have hcom := hl.committed _ (List.mem_cons_self ..)
      obtain rfl := hw.events.eq_of_eventId (hw.events.visible e he) hcom hk
      obtain ⟨made, heq, hmade⟩ := hw.hasRow_made hl he
      exact ⟨l.event, committed_subset h hcom, hins.eventId.symm,
        asExpected_inserted (hwr ▸ heq) hmade hins⟩
  · intro o ho u hou
    obtain ⟨obs, htr, hobs⟩ := trace_step h
    rw [htr, List.mem_append] at ho
    rcases ho with ho | ho
    · have hstep := hobs _ ho
      cases hstep with
      | scheduled p c l hs hwr =>
        cases hou
        have hl := (hw.scheds p c l hs).step h
        obtain ⟨made, heq, hmade⟩ := hl.made
        refine ⟨l.event, hl.committed _ (List.mem_cons_self ..), rfl,
          hl.decoded _ (List.mem_cons_self ..), fun n hn => ?_⟩
        obtain ⟨w, hwm, hn⟩ := List.mem_flatMap.mp hn
        rw [heq, hwr, List.append_nil] at hwm
        exact hmade w hwm n hn
      | _ => cases hou
    · obtain ⟨e, he, hk, hdec, hall⟩ := hi.done o ho u hou
      refine ⟨e, committed_subset h he, hk, hdec, fun n hn => ?_⟩
      obtain ⟨i, hm, hkey⟩ := hall n hn
      exact ⟨i, issued_subset h hm, hkey⟩

theorem issued_init (now : Time) (scheds : ℕ → Sched) : Issued config (init now scheds) :=
  ⟨fun i hm => by simp [init] at hm, fun o ho => by simp [init] at ho⟩

theorem issued_of_run {now : Time} {scheds : ℕ → Sched} (hq : Quiet scheds)
    (h : Run (step config) anyStep (init now scheds) s) : WF config s ∧ Issued config s :=
  h.invariant (fun s => WF config s ∧ Issued config s) ⟨wf_init now hq, issued_init now scheds⟩
    fun _ _ _ hi hs _ => ⟨wf_step hi.1 (step_cases hs), issued_step hi.1 hi.2 (step_cases hs)⟩

omit [Crates] in
theorem mem_rows_unscheduled {db : Db} {r : DeliveryRow} :
    r ∉ (unscheduled db).deliveries.rows := by
  simp [unscheduled]

/-- A rescan from the start, of the events of a state and without failures. -/
theorem rescan_unscheduled (hw : WF config s) (now' : Time) (hb : 0 < config.scheduleBatchSize)
    (hdec : ∀ e ∈ s.db.events.rows, decodes e) :
    ∃ db' c', rescan config now' (s.db.events.rows.length + 1) (unscheduled s.db) 0 =
      some (db', c') ∧ ∀ t, t ∈ db'.deliveries.rows.map columns ↔ Expected config s.db t := by
  have hnone : AllExpected config (unscheduled s.db) := fun r hr => absurd hr mem_rows_unscheduled
  obtain ⟨db', c', hr, hx, hexp⟩ := rescan_spec (c := 0) now' allExpected_scheduleEvent hb
    (s.db.events.rows.length + 1) hnone (Nat.lt_succ_of_le (List.length_filter_le _ _))
    fun e he => hdec e (mem_above.mp he).1
  refine ⟨db', c', hr, fun t => ?_⟩
  have hall : ∀ e ∈ db'.events.rows, ∀ n ∈ eventRows config e,
      ∃ r ∈ db'.deliveries.rows, r.key = (e.eventId, n.callbackName) := by
    intro e he
    rw [hx.events] at he
    have hpos := (hw.events.ids e (List.mem_append_left _ (hw.events.visible e he))).1
    exact (fullyScheduled_iff config).mp
      (hx.fullyScheduled (List.mem_filter.mpr ⟨he, by simpa using hpos⟩))
  have hcol := mem_columns_iff hexp hall t
  have hdb : Expected config db' t ↔ Expected config s.db t := by
    unfold Expected; rw [hx.events]; rfl
  rw [← hdb, ← hcol, List.mem_map]
  constructor
  · rintro ⟨r, hr, rfl⟩
    exact ⟨r, hr, db'.references r hr, rfl⟩
  · rintro ⟨r, hr, -, rfl⟩
    exact ⟨r, hr, rfl⟩

/-- **Scheduling is idempotent and confluent.** In every state that any number of replicas, rescans
and dispatchers reach in any interleaving, with any failures: a scheduling step leaves every row as
it is; and once every event has been left by some process, the columns with which the rows of the
events were inserted are those of a rescan from the start that does not fail. -/
theorem scheduling_confluent {now : Time} {scheds : ℕ → Sched} (hq : Quiet scheds)
    (h : Run (step config) anyStep (init now scheds) s) (hb : 0 < config.scheduleBatchSize)
    (now' : Time) : (∀ p b s', step config s (.sched p b) = some s' →
      ∀ r ∈ s.db.deliveries.rows, r ∈ s'.db.deliveries.rows) ∧
    ((∀ e ∈ s.db.events.rows, Processed s e) →
      ∃ db' c', rescan config now' (s.db.events.rows.length + 1) (unscheduled s.db) 0 =
        some (db', c') ∧ ∀ t, t ∈ db'.deliveries.rows.map columns ↔
          ∃ i ∈ s.issued, (∃ e ∈ s.db.events.rows, e.eventId = i.eventId) ∧ columns i = t) := by
  obtain ⟨hw, hi⟩ := issued_of_run hq h
  constructor
  · intro p b s' hs r hr
    rcases Step.sched_inserts (step_cases hs) with hdb | ⟨c, l, w, writes, -, -, hins⟩
    · rwa [hdb]
    · obtain ⟨added, hrows, -⟩ := hins.rows
      simp [hrows, hr]
  · intro hdone
    have hleft : ∀ e ∈ s.db.events.rows, decodes e ∧ ∀ n ∈ eventRows config e,
        ∃ i ∈ s.issued, i.key = (e.eventId, n.callbackName) := by
      intro e he
      obtain ⟨o, ho, hou⟩ := hdone e he
      obtain ⟨e', he', hk', hall⟩ := hi.done o ho _ hou
      obtain rfl := hw.events.eq_of_eventId he' (hw.events.visible e he) hk'
      exact hall
    obtain ⟨db', c', hr, hcol⟩ := rescan_unscheduled hw now' hb fun e he => (hleft e he).1
    refine ⟨db', c', hr,
      fun t => (hcol t).trans (mem_columns_iff ?_ (fun e he => (hleft e he).2) t).symm⟩
    intro i hm e he hk
    obtain ⟨e', he', hk', hx⟩ := hi.first i hm
    rwa [hw.events.eq_of_eventId (hw.events.visible e he) he' (hk.trans hk'.symm)]

end

/-- A name occurs among the accepted and the rejected callbacks of one event. Two processes work on
the event at the same time, the first one fails between its writes, and a row is dispatched before
the second one comes to the write it repeats. -/
def overlapping : List Action :=
  [.publish (sampleEvent 1 [sampleCallback "hook_a" [], sampleCallback "hook_a" [], .int 3]),
    .commit 1, .sched 1 (.rescan 0), .sched 0 .poll, .sched 1 .poll, .sched 0 (.write .ok), .fetch,
    .task 0 (.examine .ok), .task 0 .computeLock, .task 0 (.lock .ok), .task 0 .deliver,
    .task 0 (.respond .ok 0), .task 0 (.writeBack .ok), .sched 1 (.write .ok),
    .sched 0 (.write .lost), .sched 1 (.write .ok), .sched 1 .next]

theorem scheduling_confluent_overlapping :
    ∃ s, Run (@step sampleCrates {}) anyStep (init 0 oneScheduler) s ∧
      (∀ e ∈ s.db.events.rows, Processed s e) ∧ s.issued.length = 2 ∧
      ∃ db' c', @rescan sampleCrates {} 0 (s.db.events.rows.length + 1) (unscheduled s.db) 0 =
        some (db', c') ∧ ∀ t, t ∈ db'.deliveries.rows.map columns ↔
          ∃ i ∈ s.issued, (∃ e ∈ s.db.events.rows, e.eventId = i.eventId) ∧ columns i = t := by
  have hex : ∃ s, Run (@step sampleCrates {}) anyStep (init 0 oneScheduler) s ∧
      (∀ e ∈ s.db.events.rows, Processed s e) ∧ s.issued.length = 2 :=
    Run.exists_of_exec overlapping (by decide +kernel)
  obtain ⟨s, hrun, hdone, hlen⟩ := hex
  exact ⟨s, hrun, hdone, hlen,
    (@scheduling_confluent sampleCrates _ _ _ _ quiet_oneScheduler hrun (by decide) 0).2 hdone⟩

end OutboxDispatcher.Scheduler.Confluence
