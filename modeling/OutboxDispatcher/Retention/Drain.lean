import OutboxDispatcher.System

/-! # Draining the eligible events

`delete_terminal_events` takes the eligible events in batches, lowest id first. What is deleted does
not change what is said of another event: its rows stay, and with them its class and its cutoff. So
of the list of eligible events (`eligible`) a call takes the first `batch_limit`, and the next one
goes on with the rest (`eligible_after`), until nothing is left.

* `oldestTerminalEventAgeSeconds`: the query for the gauge, with its own condition, which is the
  same (`isTerminalEvent_eq`).
* `retention_drains`: what one call does, and what repeated calls do. -/

namespace OutboxDispatcher.Retention.Drain

open OutboxDispatcher.Lib.Tables OutboxDispatcher.Schema
open OutboxDispatcher.Repo.Database OutboxDispatcher.Repo.Database.Db
  OutboxDispatcher.Repo.Statements
open OutboxDispatcher.System

/-! ### The queries -/

/-- The condition of the query for the oldest event, as it is written there. -/
def isTerminalEvent (db : Db) (deadLetterCutoff processedCutoff : Time) (e : RawEvent) : Bool :=
  !(db.deliveries.rows.any fun d =>
      d.eventId = e.eventId && d.processedAt.isNone && d.deadLetter = false) &&
    e.createdAt < if db.deliveries.rows.any fun d => d.eventId = e.eventId && d.deadLetter = true
      then deadLetterCutoff else processedCutoff

/-- `EXTRACT(EPOCH FROM (now() - MIN(e.created_at)))`, without its rounding to a `float8`. -/
def oldestTerminalEventAgeSeconds (db : Db) (now deadLetterCutoff processedCutoff : Time) :
    Option ℚ :=
  ((db.events.rows.filter (isTerminalEvent db deadLetterCutoff processedCutoff)).map
    RawEvent.createdAt).min?.map fun t => ((now - t : ℤ) : ℚ) / 10 ^ 9

def eligible (db : Db) (deadLetterCutoff processedCutoff : Time) : List RawEvent :=
  orderBy (fun a b =>
    a.id ≤ b.id) (db.events.rows.filter (deletable db deadLetterCutoff processedCutoff))

/-- The call, repeated until it deletes nothing. -/
def drain (deadLetterCutoff processedCutoff : Time) (batchLimit : ℤ) : ℕ → Db → Option Db
  | 0, _ => none
  | fuel + 1, db => do
    let (db', deleted) ← deleteTerminalEvents db deadLetterCutoff processedCutoff batchLimit
    if deleted.processed + deleted.deadLetter = 0 then return db'
    else drain deadLetterCutoff processedCutoff batchLimit fuel db'

/-- From `db` to `db'` these events have gone, with their rows, and nothing else has. -/
structure Removed (db db' : Db) (es : List RawEvent) : Prop where
  events : ∀ e, e ∈ db'.events.rows ↔ e ∈ db.events.rows ∧ e ∉ es
  rows : ∀ r, r ∈ db'.deliveries.rows ↔ r ∈ db.deliveries.rows ∧ ∀ e ∈ es, e.eventId ≠ r.eventId

theorem Removed.trans {db db' db'' : Db} {es es' : List RawEvent} (h : Removed db db' es)
    (h' : Removed db' db'' es') : Removed db db'' (es ++ es') := by
  constructor
  · intro e
    rw [h'.events, h.events, List.mem_append, not_or, and_assoc]
  · intro r
    rw [h'.rows, h.rows, List.forall_mem_append, and_assoc]

variable {db db' : Db} {deadLetterCutoff processedCutoff : Time}

/-- **The two queries have one condition.** -/
theorem isTerminalEvent_eq (db : Db) (deadLetterCutoff processedCutoff : Time) :
    isTerminalEvent db deadLetterCutoff processedCutoff =
    deletable db deadLetterCutoff processedCutoff := by
  funext e
  have hterminal : (!(db.deliveries.rows.any fun d =>
      d.eventId = e.eventId && d.processedAt.isNone && d.deadLetter = false)) =
        (rowsOf db e).all (·.terminal) := by
    rw [rowsOf, List.all_filter, List.not_any_eq_all_not]
    refine congrArg (db.deliveries.rows.all ·) (funext fun d => ?_)
    by_cases hd : d.eventId = e.eventId <;> cases hp : d.processedAt <;> cases hl : d.deadLetter <;>
      simp [DeliveryRow.terminal, hd, hp, hl]
  have hdead : (db.deliveries.rows.any fun d => d.eventId = e.eventId && d.deadLetter = true) =
      anyDeadLetter db e := by
    rw [anyDeadLetter, rowsOf, List.any_filter]
    simp
  rw [isTerminalEvent, deletable, hterminal, hdead]

theorem mem_eligible {e : RawEvent} : e ∈ eligible db deadLetterCutoff processedCutoff ↔
    e ∈ db.events.rows ∧ deletable db deadLetterCutoff processedCutoff e := by
  rw [eligible, mem_orderBy, List.mem_filter]

theorem length_eligible_le (db : Db) (deadLetterCutoff processedCutoff : Time) :
    (eligible db deadLetterCutoff processedCutoff).length ≤ db.events.rows.length := by
  rw [eligible, length_orderBy]
  exact List.length_filter_le _ _

theorem eligible_lt (db : Db) (deadLetterCutoff processedCutoff : Time) :
    (eligible db deadLetterCutoff processedCutoff).Pairwise fun a b => a.id < b.id :=
  orderBy_lt ((List.Sublist.map _ List.filter_sublist).nodup db.events.nodup)

theorem oldest_eq_none_iff (now : Time) :
    oldestTerminalEventAgeSeconds db now deadLetterCutoff processedCutoff = none ↔
      eligible db deadLetterCutoff processedCutoff = [] := by
  rw [oldestTerminalEventAgeSeconds, isTerminalEvent_eq, Option.map_eq_none_iff,
    List.min?_eq_none_iff,
    List.map_eq_nil_iff, ← List.length_eq_zero_iff, ← List.length_eq_zero_iff, eligible,
    length_orderBy]

/-! ### One call -/

/-- The database after the batch is deleted. -/
def without (db : Db) (batch : List RawEvent) : Db :=
  db.deleteEvents fun e => batch.any (·.id == e.id)

theorem any_id_iff {batch : List RawEvent} (hb : ∀ e ∈ batch, e ∈ db.events.rows) {e : RawEvent}
    (he : e ∈ db.events.rows) : batch.any (·.id == e.id) ↔ e ∈ batch := by
  rw [List.any_eq_true]
  constructor
  · rintro ⟨e', he', hid⟩
    rwa [← Table.eq_of_key (hb e' he') he (beq_iff_eq.mp hid)]
  · exact fun hm => ⟨e, hm, beq_self_eq_true _⟩

theorem removed_without {batch : List RawEvent} (hb : ∀ e ∈ batch, e ∈ db.events.rows) :
    Removed db (without db batch) batch := by
  constructor
  · intro e
    rw [without, mem_events_deleteEvents]
    refine and_congr_right fun he => ?_
    rw [← any_id_iff hb he, Bool.not_eq_true]
  · intro r
    rw [without, mem_rows_deleteEvents]
    refine and_congr_right fun _ => ⟨fun h e he => ?_, fun h e he hp => ?_⟩
    · exact h e (hb e he) ((any_id_iff hb (hb e he)).mpr he)
    · exact h e ((any_id_iff hb he).mp hp)

theorem rowsOf_without {batch : List RawEvent} (hb : ∀ e ∈ batch, e ∈ db.events.rows) {e : RawEvent}
    (he : e ∈ db.events.rows) (hm : e ∉ batch) : rowsOf (without db batch) e = rowsOf db e := by
  unfold rowsOf without deleteEvents
  rw [Table.rows_filter, List.filter_filter]
  refine List.filter_congr fun r _ => ?_
  by_cases hr : r.eventId = e.eventId
  · have hnone :
        (db.events.rows.any fun e' => batch.any (·.id == e'.id) && e'.eventId == r.eventId) =
        false := by
      rw [List.any_eq_false]
      intro e' he' hp
      rw [Bool.and_eq_true, beq_iff_eq] at hp
      have heq : e' = e := event_eq he' he (hp.2.trans hr)
      exact hm ((any_id_iff hb he).mp (heq ▸ hp.1))
    rw [hnone, Bool.not_false, Bool.and_true]
  · simp [hr]

/-- **What is deleted does not change what is said of the others.** -/
theorem eligible_without {batch : List RawEvent} (hb : ∀ e ∈ batch, e ∈ db.events.rows) :
    eligible (without db batch) deadLetterCutoff processedCutoff =
      (eligible db deadLetterCutoff processedCutoff).filter fun e => !batch.any (·.id == e.id) := by
  have hfilter : (without db batch).events.rows.filter
      (deletable (without db batch) deadLetterCutoff processedCutoff) =
        (db.events.rows.filter (deletable db deadLetterCutoff processedCutoff)).filter
          fun e => !batch.any (·.id == e.id) := by
    show (db.events.rows.filter fun e => !batch.any (·.id == e.id)).filter _ = _
    rw [List.filter_filter, List.filter_filter]
    refine List.filter_congr fun e he => ?_
    by_cases hm : e ∈ batch
    · simp [(any_id_iff hb he).mpr hm]
    · rw [deletable, anyDeadLetter, rowsOf_without hb he hm, Bool.and_comm]
      rfl
  rw [eligible, hfilter,
    orderBy_filter ((List.Sublist.map _ List.filter_sublist).nodup db.events.nodup)]
  rfl

theorem mem_of_mem_batch (db : Db) (deadLetterCutoff processedCutoff : Time) (n : ℕ) :
    ∀ e ∈ (eligible db deadLetterCutoff processedCutoff).take n, e ∈ db.events.rows :=
  fun _ he => (mem_eligible.mp (List.mem_of_mem_take he)).1

theorem eligible_after (db : Db) (deadLetterCutoff processedCutoff : Time) (n : ℕ) :
    eligible (without db ((eligible db deadLetterCutoff processedCutoff).take n)) deadLetterCutoff
      processedCutoff = (eligible db deadLetterCutoff processedCutoff).drop n := by
  rw [eligible_without (mem_of_mem_batch db deadLetterCutoff processedCutoff n)]
  exact filter_not_take (eligible_lt db deadLetterCutoff processedCutoff) n

theorem terminalEvents_eq (db : Db) (deadLetterCutoff processedCutoff : Time) {n : ℤ} (hn : 0 ≤ n) :
    terminalEvents db deadLetterCutoff processedCutoff n =
      some ((eligible db deadLetterCutoff processedCutoff).take n.toNat) :=
  if_neg (by omega)

theorem deleteTerminalEvents_eq (db : Db) (deadLetterCutoff processedCutoff : Time) {n : ℤ}
    (hn : 0 ≤ n) : ∃ report, deleteTerminalEvents db deadLetterCutoff processedCutoff n =
        some (without db ((eligible db deadLetterCutoff processedCutoff).take n.toNat), report) ∧
      report.processed + report.deadLetter =
        min n.toNat (eligible db deadLetterCutoff processedCutoff).length ∧
      report.deadLetter =
        ((eligible db deadLetterCutoff processedCutoff).take n.toNat).countP
        (anyDeadLetter db ·) := by
  refine ⟨_, by rw [deleteTerminalEvents, terminalEvents_eq _ _ _ hn]; rfl, ?_, rfl⟩
  rw [countP_not_add_countP, List.length_take]

/-! ### Repeated calls -/

/-- **The calls end**, with every event that was eligible gone. -/
theorem drain_spec {n : ℤ} (hn : 1 ≤ n) (fuel : ℕ) {db : Db}
    (hf : (eligible db deadLetterCutoff processedCutoff).length < fuel) :
    ∃ db', drain deadLetterCutoff processedCutoff n fuel db = some db' ∧
      Removed db db' (eligible db deadLetterCutoff processedCutoff) ∧
      eligible db' deadLetterCutoff processedCutoff = [] := by
  induction fuel generalizing db with
  | zero => exact absurd hf (Nat.not_lt_zero _)
  | succ fuel ih =>
    obtain ⟨report, hcall, hsum, -⟩ :=
      deleteTerminalEvents_eq db deadLetterCutoff processedCutoff (by omega : 0 ≤ n)
    have hafter := eligible_after db deadLetterCutoff processedCutoff n.toNat
    have hremoved := removed_without (mem_of_mem_batch db deadLetterCutoff processedCutoff n.toNat)
    have hdrain : drain deadLetterCutoff processedCutoff n (fuel + 1) db =
        if report.processed + report.deadLetter = 0 then
          some (without db ((eligible db deadLetterCutoff processedCutoff).take n.toNat))
        else drain deadLetterCutoff processedCutoff n fuel
          (without db ((eligible db deadLetterCutoff processedCutoff).take n.toNat)) := by
      rw [drain, hcall]
      rfl
    rw [hdrain, hsum]
    split_ifs with hzero
    · -- a call that deletes nothing has found nothing
      have hnil : eligible db deadLetterCutoff processedCutoff = [] := by
        rw [← List.length_eq_zero_iff]
        omega
      refine ⟨_, rfl, ?_, ?_⟩
      · rwa [hnil, List.take_nil] at hremoved ⊢
      · rw [hafter, hnil, List.drop_nil]
    · obtain ⟨db', hdb', hrest, hempty⟩ := ih (by rw [hafter, List.length_drop]; omega)
      refine ⟨db', hdb', ?_, hempty⟩
      rw [hafter] at hrest
      have hboth := hremoved.trans hrest
      rwa [List.take_append_drop] at hboth

/-- **Retention drains exactly the eligible events.** A call deletes the first `min(batch_limit,
eligible)` of them by id, with their rows and nothing else, and reports their number and how many
had a dead letter; calls that are repeated end, and all that was eligible has gone then, and nothing
else; and the query for the gauge finds no event iff none is eligible. -/
theorem retention_drains (db : Db) (deadLetterCutoff processedCutoff : Time) (n : ℤ) (hn : 1 ≤ n) :
    (∃ db' report, deleteTerminalEvents db deadLetterCutoff processedCutoff n = some (db', report) ∧
      Removed db db' ((eligible db deadLetterCutoff processedCutoff).take n.toNat) ∧
      report.processed + report.deadLetter =
        min n.toNat (eligible db deadLetterCutoff processedCutoff).length ∧
      report.deadLetter =
        ((eligible db deadLetterCutoff processedCutoff).take n.toNat).countP (anyDeadLetter db ·)) ∧
    (∀ fuel, (eligible db deadLetterCutoff processedCutoff).length < fuel →
      ∃ db', drain deadLetterCutoff processedCutoff n fuel db = some db' ∧
        Removed db db' (eligible db deadLetterCutoff processedCutoff) ∧
        eligible db' deadLetterCutoff processedCutoff = []) ∧
    ∀ now, oldestTerminalEventAgeSeconds db now deadLetterCutoff processedCutoff = none ↔
      eligible db deadLetterCutoff processedCutoff = [] := by
  refine ⟨?_, fun fuel hf => drain_spec hn fuel hf, oldest_eq_none_iff⟩
  obtain ⟨report, hcall, hsum, hdead⟩ :=
    deleteTerminalEvents_eq db deadLetterCutoff processedCutoff (by omega : 0 ≤ n)
  exact ⟨_, report, hcall,
    removed_without (mem_of_mem_batch db deadLetterCutoff processedCutoff n.toNat), hsum, hdead⟩

/-- Two events at the epoch, the first delivered and the second with a dead letter. -/
def sampleTerminal : Db where
  events := ⟨[{ sampleEvent 1 [sampleCallback "hook_a" []] with id := 1, createdAt := 0 },
    { sampleEvent 2 [sampleCallback "hook_a" []] with id := 2, createdAt := 0 }], by simp⟩
  deliveries :=
    ⟨[{ id := 1, eventId := 1, callbackName := "hook_a", completionMode := .managed,
        availableAt := 0, processedAt := some 0, createdAt := 0 },
      { id := 2, eventId := 2, callbackName := "hook_a", completionMode := .managed,
        availableAt := 0, deadLetter := true, createdAt := 0 }], by simp⟩
  deliverySeq := 3
  eventId_nodup := by simp [sampleEvent]
  callbacks_nonempty := by simp [sampleEvent, callbacksNonempty]
  key_nodup := by simp [DeliveryRow.key]
  references := by simp [sampleEvent]
  seq_fresh := by simp

/-- One event at a time, the third call finds nothing. -/
theorem retention_drains_two :
    (∃ db' report, deleteTerminalEvents sampleTerminal 10 10 1 = some (db', report) ∧
      report.processed + report.deadLetter = 1 ∧ report.deadLetter = 0) ∧
    ∃ db', drain 10 10 1 3 sampleTerminal = some db' ∧ db'.events.rows = [] := by
  obtain ⟨⟨db', report, hcall, -, hsum, hdead⟩, hdrain, -⟩ :=
    retention_drains sampleTerminal 10 10 1 (by decide)
  refine ⟨⟨db', report, hcall, hsum.trans (by decide +kernel), hdead.trans (by decide +kernel)⟩, ?_⟩
  obtain ⟨db'', heq, hremoved, -⟩ := hdrain 3 (by decide +kernel)
  refine ⟨db'', heq, List.eq_nil_iff_forall_not_mem.mpr fun e he => ?_⟩
  obtain ⟨hmem, hnot⟩ := (hremoved.events e).mp he
  have hall : ∀ e ∈ sampleTerminal.events.rows, deletable sampleTerminal 10 10 e := by
    decide +kernel
  exact hnot (mem_eligible.mpr ⟨hmem, hall e hmem⟩)

end OutboxDispatcher.Retention.Drain
