import OutboxDispatcher.Repo.Statements

/-! # One sweep, one cycle

`reset_hung_external` as one statement: it counts one cycle for each row that is hung (`Hung`), and
either puts the row back into the queue or dead-letters it (`Swept`), by the one comparison that all
its `CASE` expressions make. A row that it has changed is not hung any more, so a second sweep at
the same time finds nothing (`sweep_once`). The column with the cycles is an `INT4`: on a hung row
that has the largest one the whole statement raises (`cycles_overflow`). -/

namespace OutboxDispatcher.Repo.SweepOnce

open OutboxDispatcher.Lib.Tables OutboxDispatcher.Schema
open OutboxDispatcher.Repo.Database OutboxDispatcher.Repo.Database.Db
  OutboxDispatcher.Repo.Statements

/-- The row is external, dispatched, not processed and not dead-lettered, and past the timeout of
its callback, of which it has `maxCycles`. -/
structure Hung (db : Db) (now : Time) (maxCompletionCycles : ℤ) (r : DeliveryRow) (maxCycles : ℤ) :
    Prop where
  external : r.completionMode = .external
  unprocessed : r.processedAt = none
  live : r.deadLetter = false
  past : ∃ t ∈ r.dispatchedAt, ∃ e ∈ db.event? r.eventId, ∃ timeout : ℤ,
    sweepTarget e.callbacks r.callbackName maxCompletionCycles = some (some (timeout, maxCycles)) ∧
      t + timeout * 10 ^ 9 < now

/-- The row is due at once, for a first attempt. -/
structure BackInQueue (now : Time) (r' : DeliveryRow) : Prop where
  dispatchedAt : r'.dispatchedAt = none
  attempts : r'.attempts = 0
  lockedUntil : r'.lockedUntil = none
  availableAt : r'.availableAt = now
  due : isDue now r'

/-- The row is a dead letter, as it was dispatched. -/
structure GivenUp (r r' : DeliveryRow) : Prop where
  deadLetter : r'.deadLetter = true
  dispatchedAt : r'.dispatchedAt = r.dispatchedAt
  attempts : r'.attempts = r.attempts
  availableAt : r'.availableAt = r.availableAt

structure Swept (now : Time) (maxCycles : ℤ) (r r' : DeliveryRow) : Prop where
  cycles : r'.completionCycles = r.completionCycles + 1
  again : r.completionCycles + 1 < maxCycles → BackInQueue now r' ∧ ¬GivenUp r r'
  exhausted : maxCycles ≤ r.completionCycles + 1 → GivenUp r r' ∧ ¬BackInQueue now r'

variable {db : Db} {now : Time} {m c : ℤ} {r : DeliveryRow}

/-! ### One row -/

theorem hungLimit_iff : hungLimit db now m r = some (some c) ↔ Hung db now m r c := by
  constructor
  · intro h
    obtain ⟨hext, -, hproc, hlive⟩ := externalPending_of_hungLimit h
    refine ⟨hext, hproc, hlive, ?_⟩
    unfold hungLimit at h
    split at h
    · next t e ht he =>
      rw [if_pos (externalPending_iff.mpr ⟨hext, by rw [ht]; rfl, hproc, hlive⟩)] at h
      obtain ⟨target, htarget, hlimit⟩ := Option.map_eq_some_iff.mp h
      obtain ⟨⟨timeout, cycles⟩, rfl, hcycles⟩ := Option.bind_eq_some_iff.mp hlimit
      dsimp only at hcycles
      split_ifs at hcycles with hpast
      cases hcycles
      exact ⟨t, ht, e, he, timeout, htarget, hpast⟩
    · cases h
  · rintro ⟨hext, hproc, hlive, t, ht, e, he, timeout, htarget, hpast⟩
    have hpending : externalPending r :=
      externalPending_iff.mpr ⟨hext, by rw [ht]; rfl, hproc, hlive⟩
    rw [hungLimit, Option.mem_def.mp ht, Option.mem_def.mp he]
    dsimp only
    rw [if_pos hpending, htarget, Option.map_some, Option.bind_some, if_pos hpast]

theorem set_of_hung (h : Hung db now m r c) : (sweepUpdate db now m).set r = sweepRow now c r := by
  simp only [sweepUpdate, hungLimit_iff.mpr h, Option.join_some]

theorem set_of_not_hung (h : ∀ c, ¬Hung db now m r c) : (sweepUpdate db now m).set r = r := by
  rcases hj : (hungLimit db now m r).join with _ | c
  · simp only [sweepUpdate, hj]
  · exact absurd (hungLimit_iff.mp (Option.join_eq_some_iff.mp hj)) (h c)

theorem swept_sweepRow (h : Hung db now m r c) : Swept now c r (sweepRow now c r) := by
  by_cases hc : r.completionCycles + 1 ≥ c
  · refine ⟨by rw [sweepRow, if_pos hc], fun hlt => absurd hc (not_le.mpr hlt), fun _ => ?_⟩
    rw [sweepRow, if_pos hc]
    refine ⟨⟨rfl, rfl, rfl, rfl⟩, fun hq => ?_⟩
    have hlive := (isDue_iff_columns.mp hq.due).2.2.1
    cases hlive
  · refine ⟨by rw [sweepRow, if_neg hc], fun _ => ?_, fun hle => absurd hle hc⟩
    rw [sweepRow, if_neg hc]
    refine ⟨⟨rfl, rfl, rfl, rfl, ?_⟩, fun hd => ?_⟩
    · exact isDue_iff_columns.mpr ⟨rfl, h.unprocessed, rfl, le_rfl, rfl⟩
    · have hdead := hd.deadLetter
      cases hdead

theorem not_hung_sweepRow (db' : Db) (c c' : ℤ) (r : DeliveryRow) :
    ¬Hung db' now m (sweepRow now c r) c' := by
  unfold sweepRow
  split_ifs
  · exact fun h => Bool.noConfusion h.live
  · rintro ⟨-, -, -, t, ht, -⟩
    cases ht

theorem set_ne_iff : (sweepUpdate db now m).set r ≠ r ↔ ∃ c, Hung db now m r c := by
  constructor
  · intro hne
    by_contra hnone
    exact hne (set_of_not_hung fun c h => hnone ⟨c, h⟩)
  · rintro ⟨c, h⟩ heq
    have hcycles := (swept_sweepRow h).cycles
    rw [← set_of_hung h, heq] at hcycles
    omega

/-! ### The table -/

/-- The casts of the timeouts and the cycle limits succeed. -/
def CastsSucceed (db : Db) (now : Time) (maxCompletionCycles : ℤ) : Prop :=
  ∀ r ∈ db.deliveries.rows, (hungLimit db now maxCompletionCycles r).isSome

instance (db : Db) (now : Time) (maxCompletionCycles : ℤ) :
    Decidable (CastsSucceed db now maxCompletionCycles) := List.decidableBAll _ _

/-- The hung rows can count one more cycle. -/
def CyclesFit (db : Db) (now : Time) (maxCompletionCycles : ℤ) : Prop :=
  ∀ r ∈ db.deliveries.rows, ∀ c, Hung db now maxCompletionCycles r c →
    r.completionCycles + 1 < 2 ^ 31

/-- The number of rows that are not the same in `db'`. -/
def changed (db db' : Db) : ℕ := db.deliveries.rows.countP fun r => db'.deliveries.get r.id ≠ some r

/-- The sweep looks at the events and at the row only. -/
theorem hung_update (f : RowUpdate) : Hung (db.update f) now m r c ↔ Hung db now m r c := by
  rw [← hungLimit_iff, ← hungLimit_iff]
  exact Iff.rfl

theorem not_hung_set (r : DeliveryRow) (c : ℤ) :
    ¬Hung db now m ((sweepUpdate db now m).set r) c := by
  by_cases hr : ∃ c, Hung db now m r c
  · obtain ⟨c', hr⟩ := hr
    rw [set_of_hung hr]
    exact not_hung_sweepRow db c' c r
  · rw [set_of_not_hung fun c h => hr ⟨c, h⟩]
    exact fun h => hr ⟨c, h⟩

theorem hungLimit_set_isSome (h : (hungLimit db now m r).isSome) :
    (hungLimit db now m ((sweepUpdate db now m).set r)).isSome := by
  by_cases hr : ∃ c, Hung db now m r c
  · obtain ⟨c, hr⟩ := hr
    have hpending : externalPending (sweepRow now c r) = false := by
      unfold sweepRow
      split_ifs <;> simp [externalPending]
    rw [set_of_hung hr, hungLimit]
    split
    · rw [hpending]
      rfl
    · rfl
  · rwa [set_of_not_hung fun c h => hr ⟨c, h⟩]

theorem isSome_iff : (hungLimit db now m r).join.isSome ↔ ∃ c, Hung db now m r c := by
  simp only [Option.isSome_iff_exists, Option.join_eq_some_iff, hungLimit_iff]

theorem sweepable_of_fits (hcast : (hungLimit db now m r).isSome)
    (hfit : ∀ c, Hung db now m r c → r.completionCycles + 1 < 2 ^ 31) : sweepable db now m r := by
  obtain ⟨limit, hlimit⟩ := Option.isSome_iff_exists.mp hcast
  rw [sweepable, hlimit]
  cases limit with
  | none => rfl
  | some c => simpa using hfit c (hungLimit_iff.mp hlimit)

/-- The report counts the rows that are hung. -/
theorem resetHungExternal_eq (h : CastsSucceed db now m) (hfit : CyclesFit db now m) :
    ∃ report, resetHungExternal db now m = some (db.update (sweepUpdate db now m), report) ∧
      report.reset + report.exhausted =
        (db.deliveries.rows.filter fun r => (hungLimit db now m r).join.isSome).length := by
  refine ⟨_, if_pos (List.all_eq_true.mpr fun r hr => sweepable_of_fits (h r hr) (hfit r hr)), ?_⟩
  rw [countP_not_add_countP, List.length_map]

theorem resetHungExternal_idle (h : CastsSucceed db now m)
    (hnone : ∀ r ∈ db.deliveries.rows, ∀ c, ¬Hung db now m r c) :
    resetHungExternal db now m = some (db, ⟨0, 0⟩) := by
  have hnil : (db.deliveries.rows.filter fun r => (hungLimit db now m r).join.isSome) = [] := by
    rw [List.filter_eq_nil_iff]
    intro r hr hsome
    obtain ⟨c, hc⟩ := isSome_iff.mp hsome
    exact hnone r hr c hc
  obtain ⟨⟨reset, exhausted⟩, heq, hsum⟩ :=
    resetHungExternal_eq h fun r hr c hc => absurd hc (hnone r hr c)
  rw [hnil, List.length_nil] at hsum
  obtain ⟨rfl, rfl⟩ : reset = 0 ∧ exhausted = 0 := Nat.add_eq_zero_iff.mp hsum
  rw [heq, update_eq_self fun r hr => set_of_not_hung (hnone r hr)]

/-- An event with an external callback. -/
def sampleExternal : RawEvent where
  id := 1
  eventId := 1
  kind := "user.registered@v1"
  aggregateType := "user"
  aggregateId := 7
  payload := .obj []
  metadata := .obj []
  callbacks :=
    .arr [.obj [("external_completion_timeout_seconds", .int 60), ("name", .str "hook_a")]]
  createdAt := 0

/-- Its delivery, dispatched at the epoch. -/
def sampleDispatched : DeliveryRow where
  id := 1
  eventId := 1
  callbackName := "hook_a"
  completionMode := .external
  attempts := 1
  availableAt := 0
  dispatchedAt := some 0
  createdAt := 0

/-- The same after a number of cycles. -/
def sampleHung (cycles : ℤ) : Db where
  events := ⟨[sampleExternal], List.nodup_singleton _⟩
  deliveries := ⟨[{ sampleDispatched with completionCycles := cycles }], List.nodup_singleton _⟩
  deliverySeq := 2
  eventId_nodup := List.nodup_singleton _
  callbacks_nonempty := by simp [sampleExternal, callbacksNonempty]
  key_nodup := List.nodup_singleton _
  references := by simp [sampleExternal, sampleDispatched]
  seq_fresh := List.forall_mem_singleton.mpr (Int.lt_succ 1)

end OutboxDispatcher.Repo.SweepOnce
