import OutboxDispatcher.Dispatch.Serial
import OutboxDispatcher.Replicas.Lone

/-! # How long a delivery waits

The query of `fetch_due_deliveries` takes the rows by `available_at`, and whatever is done to a row
puts it behind the rows that are late already: a new row, a row that an operator retries, the sweep
resets or a failed attempt postpones is due now or later. So the rows ahead of a late row only get
fewer, and a batch without it takes `batch_size` of them away. How the receivers answer does not
matter, nor what the rest of the system does; only the statements of the replica must not be lost,
since a row whose write-back is lost keeps its place. -/

namespace OutboxDispatcher.Replicas.Waiting

open OutboxDispatcher.Lib.Buffered OutboxDispatcher.Lib.Runs OutboxDispatcher.Lib.Tables
open OutboxDispatcher.Schema OutboxDispatcher.Callbacks.Fields OutboxDispatcher.Retry
open OutboxDispatcher.Repo.Database OutboxDispatcher.Repo.Statements
  OutboxDispatcher.Repo.PoisonGuard
open OutboxDispatcher.Scheduler.Pass OutboxDispatcher.Dispatch OutboxDispatcher.Dispatch.Serial
open OutboxDispatcher.Dispatch.Solo OutboxDispatcher.System OutboxDispatcher.System.Effects
open OutboxDispatcher.System.History OutboxDispatcher.System.Rows OutboxDispatcher.Replicas
open OutboxDispatcher.Replicas.Effects OutboxDispatcher.Replicas.Ownership
  OutboxDispatcher.Replicas.Lone

/-! ### The rows ahead -/

/-- The row `x` is not finished, and comes before `r` in the order of the query. -/
def ahead (r x : DeliveryRow) : Bool := pending x && before x r

def inHand (s : Sys) (d : ℤ) : Bool := s.tasks.rows.any (·.row.deliveryId = d)

/-- The deliveries ahead of `r` that are in nobody's hands. -/
def free (r : DeliveryRow) (s : Sys) : Finset ℤ :=
  ((s.db.deliveries.rows.filter fun x => ahead r x && !inHand s x.id).map (·.id)).toFinset

theorem inHand_iff {s : Sys} {d : ℤ} : inHand s d ↔ ∃ t ∈ s.tasks.rows, t.row.deliveryId = d := by
  simp [inHand]

theorem ahead_iff {r x : DeliveryRow} : ahead r x ↔
    x.dispatchedAt = none ∧ x.processedAt = none ∧ x.deadLetter = false ∧ before x r := by
  simp only [ahead, pending, Bool.and_eq_true, Option.isNone_iff_eq_none, Bool.not_eq_true',
    and_assoc]

/-- What is not due before `r` is not ahead of it. -/
theorem availableAt_of_ahead {r x : DeliveryRow} (h : ahead r x) :
    x.availableAt ≤ r.availableAt := by
  have hb := (ahead_iff.mp h).2.2.2
  simp only [before, Bool.or_eq_true, decide_eq_true_eq, Bool.and_eq_true, beq_iff_eq] at hb
  rcases hb with hlt | ⟨heq, -⟩
  · exact le_of_lt hlt
  · exact le_of_eq heq

theorem mem_free {r : DeliveryRow} {s : Sys} {d : ℤ} : d ∈ free r s ↔
    ∃ x, s.db.deliveries.get d = some x ∧ ahead r x ∧ inHand s d = false := by
  simp only [free, List.mem_toFinset, List.mem_map, List.mem_filter, Bool.and_eq_true,
    Bool.not_eq_true']
  constructor
  · rintro ⟨x, ⟨hx, ha, hh⟩, rfl⟩
    exact ⟨x, Table.get_of_mem hx, ha, hh⟩
  · rintro ⟨x, hx, ha, hh⟩
    obtain ⟨hm, rfl⟩ := Table.get_eq_some_iff.mp hx
    exact ⟨x, ⟨hm, ha, hh⟩, rfl⟩

theorem card_free {r : DeliveryRow} {s : Sys} (h : s.tasks.rows = []) :
    (free r s).card = s.db.deliveries.rows.countP (ahead r) := by
  have hnone : ∀ d, inHand s d = false := by simp [inHand, h]
  have hnodup :
    ((s.db.deliveries.rows.filter fun x => ahead r x && !inHand s x.id).map (·.id)).Nodup :=
    (List.filter_sublist.map _).nodup s.db.deliveries.nodup
  rw [free, List.toFinset_card_of_nodup hnodup, List.length_map, List.countP_eq_length_filter]
  simp [hnone]

/-- The row waits: it is late, and it is not what keeps a task from its lock. A failure that is
still to be written back is due later. -/
structure Waits (r : DeliveryRow) (s : Sys) : Prop where
  row : s.db.deliveries.get r.id = some r
  due : isDue s.now r
  late : r.availableAt < s.now
  unlocked : ∀ t ∈ s.tasks.rows, t.phase.held? = none →
    ∀ x, s.db.deliveries.get t.row.deliveryId = some x → unlocked s.now x
  later : ∀ t ∈ s.tasks.rows, ∀ due u error availableAt deadLetter,
    t.phase = .writing due u (.markFailure error availableAt deadLetter) →
    r.availableAt < availableAt

/-- The statement is applied and answered. -/
def faultless : TaskAction → Bool
  | .examine fault | .lock fault | .writeBack fault => fault = .ok
  | .crash => false
  | _ => true

/-- Nothing goes wrong in a task. -/
def GoesWell (s' : Sys) : System.Action → Prop
  | .task tid b => faultless b ∧ (alive s' tid ∨ isStatement b)
  | _ => True

section

variable [Crates] {config : DispatchConfig} {s s' : Sys} {a : System.Action} {r : DeliveryRow}
  {d : ℤ}

omit [Crates] in
theorem unlocked_mono {now now' : Time} {x : DeliveryRow} (h : unlocked now x) (hle : now ≤ now') :
    unlocked now' x := by
  unfold Repo.Statements.unlocked at h ⊢
  cases hl : x.lockedUntil with
  | none => rfl
  | some u =>
    rw [hl] at h
    simp only [Option.all_some, decide_eq_true_eq] at h ⊢
    exact lt_of_lt_of_le h hle

omit [Crates] in
theorem isDue_mono {now now' : Time} {x : DeliveryRow} (h : isDue now x) (hle : now ≤ now') :
    isDue now' x := by
  obtain ⟨hd, hp, hdead, ha, hu⟩ := isDue_iff_columns.mp h
  exact isDue_iff_columns.mpr ⟨hd, hp, hdead, ha.trans hle, unlocked_mono hu hle⟩

omit [Crates] in
/-- A retry is due when the attempt is over, or later. -/
theorem le_availableAt {now availableAt : Time} {jitter : ℚ} {attempt : ℤ}
    {retryAfter : Option Duration} {schedule : List Duration}
    (h : computeNextAvailableAt now jitter attempt retryAfter schedule = some availableAt) :
    now ≤ availableAt := by
  obtain ⟨total, -, h⟩ := Option.bind_eq_some_iff.mp h
  unfold addDuration at h
  split_ifs at h
  cases h
  exact Int.le_add_of_nonneg_right (Int.natCast_nonneg _)

/-- **What a step writes is not ahead of a late row**, unless it was before. -/
theorem ahead_of_step (hw : WF config s) (hi : Waits r s) (hs : System.step config s a = some s')
    {x' : DeliveryRow} (hx' : s'.db.deliveries.get d = some x') (ha : ahead r x') :
    ∃ x, s.db.deliveries.get d = some x ∧ ahead r x := by
  have hle := availableAt_of_ahead ha
  obtain ⟨hdisp, hproc, hdead, hb⟩ := ahead_iff.mp ha
  have hlate := hi.late
  have hrow := row_step (step_cases hs) d
  rw [hx'] at hrow
  generalize hy : s.db.deliveries.get d = y at hrow
  generalize hy' : some x' = y' at hrow
  cases hrow with
  | keep => subst hy'; exact ⟨x', rfl, ha⟩
  | inserted p b u n hd =>
    cases hy'
    exact absurd (lt_of_le_of_lt hle hlate) (lt_irrefl _)
  | poisoned => cases hy'; cases hdead
  | locked t fault due u x ht hp hid hg =>
    cases hy'
    exact ⟨x, rfl, ahead_iff.mpr ⟨hdisp, hproc, hdead, hb⟩⟩
  | wroteBack t fault due u stmt x ht hp hid hf hg =>
    cases hy'
    rcases (hw.tasks.stmt t ht due u stmt hp).cases with rfl | ⟨rfl, -⟩ |
      ⟨error, availableAt, deadLetter, rfl⟩
    · cases hdisp
    · cases hdisp
    · exact absurd (lt_of_le_of_lt hle (hi.later t ht _ _ _ _ _ hp)) (lt_irrefl _)
  | swept maxCycles x hl t =>
    obtain rfl := Option.some.inj hy'
    unfold sweepRow at hdead hle
    split_ifs at hdead hle with hc
    -- it is available from the moment of the sweep on
    rw [eq_of_sweep hs] at hx'
    rw [Db.get_update, hy, Option.map_some, Option.some.injEq] at hx'
    have hav := congrArg DeliveryRow.availableAt hx'
    simp only [sweepUpdate, hl, Option.join_some, sweepRow, if_neg hc] at hav
    exact absurd ((hav ▸ hle).trans_lt hlate) (lt_irrefl _)
  | retried x hg =>
    cases hy'
    exact absurd (lt_of_le_of_lt hle hlate) (lt_irrefl _)
  | completed x =>
    cases hy'
    cases hproc
  | abandoned x => cases hy'; cases hdead
  | deleted => cases hy'

omit [Crates] in
theorem not_drops {phase : Phase} {b : TaskAction} (h : faultless b) : drops phase b = false := by
  unfold drops
  split <;> first | rfl | cases h

/-- **A task that has ended has put its row behind a late one.** -/
theorem behind_of_ended (hw : WF config s) (hi : Waits r s) {t : Task} (ht : t ∈ s.tasks.rows)
    {b : TaskAction} (h : Step config s (.task t.tid b) s') (hs : GoesWell s' (.task t.tid b))
    (hgone : ¬alive s' t.tid)
    {x' : DeliveryRow} (hx' : s'.db.deliveries.get t.row.deliveryId = some x') (hp : pending x') :
    r.availableAt < x'.availableAt := by
  obtain ⟨phase, obs, hst, htasks, -⟩ := h.of_task ht
  have hnone : phase = none := by
    cases phase with
    | none => rfl
    | some q =>
      refine absurd (alive_iff.mpr ⟨{ t with phase := q }, ?_, rfl⟩) hgone
      rw [htasks]
      exact mem_setPhase.mpr (.inr ⟨t, ht, rfl, q, rfl, rfl⟩)
  obtain ⟨hfault, hend⟩ := hs
  have hstmt := hend.resolve_left hgone
  simp only [pending, Bool.and_eq_true, Option.isNone_iff_eq_none, Bool.not_eq_true'] at hp
  obtain ⟨⟨hdisp, hproc⟩, hdead⟩ := hp
  subst hnone
  generalize s'.db = db' at hst hx'
  generalize hq : (none : Option Phase) = q at hst
  cases hst with
  | dropped _ hd => rw [not_drops hfault] at hd; cases hd
  | poisoned fault reason hph =>
    obtain ⟨x, hx, hassign⟩ := Option.map_eq_some_iff.mp ((Stmt.get_exec _).symm.trans hx')
    rw [if_pos ⟨rfl, rfl⟩] at hassign
    rw [← hassign] at hdead
    cases hdead
  | lockPanicked | respond => cases hstmt
  | lockUnacked => cases hfault
  | lockRefused fault due u hph hg =>
    have hid : due.deliveryId = t.row.deliveryId := (hw.examined ht (by rw [hph]; rfl)).deliveryId
    rw [hid] at hg hx'
    obtain ⟨x, hx, hassign⟩ := Option.map_eq_some_iff.mp ((Stmt.get_exec _).symm.trans hx')
    have hguard : (Stmt.lockDelivery u).guard s.now x = false := by
      simpa [Stmt.affects, hx] using hg
    rw [if_neg (by simp [hguard])] at hassign
    subst hassign
    have hun := hi.unlocked t ht (by rw [hph]; rfl) x hx
    rw [Stmt.guard_lockDelivery_iff.mpr ⟨hun, hdisp, hdead⟩] at hguard
    cases hguard
  | wroteBack fault due u stmt hph =>
    have hid : due.deliveryId = t.row.deliveryId := (hw.examined ht (by rw [hph]; rfl)).deliveryId
    have hwf := hw.tasks.stmt t ht due u stmt hph
    rw [hid] at hx'
    obtain ⟨x, hx, hassign⟩ := Option.map_eq_some_iff.mp ((Stmt.get_exec _).symm.trans hx')
    rcases hwf.cases with rfl | ⟨rfl, -⟩ | ⟨error, availableAt, deadLetter, rfl⟩
    · rw [if_pos ⟨rfl, rfl⟩] at hassign
      rw [← hassign] at hdisp
      cases hdisp
    · rw [if_pos ⟨rfl, rfl⟩] at hassign
      rw [← hassign] at hdisp
      cases hdisp
    · rw [if_pos ⟨rfl, rfl⟩] at hassign
      rw [← hassign]
      exact hi.later t ht _ _ _ _ _ hph
  | _ => cases hq

/-- A task that is at a delivery stays at it, until it has put the row behind a late one. -/
theorem inHand_step (hw : WF config s) (hi : Waits r s) (h : Step config s a s')
    (hs : GoesWell s' a) (hh : inHand s d)
    {x' : DeliveryRow} (hx' : s'.db.deliveries.get d = some x') (hp : pending x')
    (hle : x'.availableAt ≤ r.availableAt) : inHand s' d := by
  obtain ⟨t, ht, rfl⟩ := inHand_iff.mp hh
  by_cases hown : ∀ b, a ≠ .task t.tid b
  · exact inHand_iff.mpr ⟨t, h.tasks_of_ne ht hown, rfl⟩
  push Not at hown
  obtain ⟨b, rfl⟩ := hown
  by_cases halive : alive s' t.tid
  · obtain ⟨phase, obs, -, htasks, -⟩ := h.of_task ht
    obtain ⟨t', ht', hid⟩ := alive_iff.mp halive
    rw [htasks] at ht'
    rcases mem_setPhase.mp ht' with ⟨-, hne⟩ | ⟨t₀, ht₀, hid₀, q, hq, rfl⟩
    · exact absurd hid hne
    · refine inHand_iff.mpr ⟨{ t₀ with phase := q }, by rw [htasks]; exact ht', ?_⟩
      rw [Table.eq_of_key ht₀ ht hid₀]
  · exact absurd (behind_of_ended hw hi ht h hs halive hx' hp) (not_lt_of_ge hle)

/-- **The rows that are free and ahead get fewer.** -/
theorem free_step (hw : WF config s) (hi : Waits r s) (h : System.step config s a = some s')
    (hs : GoesWell s' a) : free r s' ⊆ free r s := by
  intro d hd
  obtain ⟨x', hx', hahead, hfree⟩ := mem_free.mp hd
  obtain ⟨x, hx, hx_ahead⟩ := ahead_of_step hw hi h hx' hahead
  refine mem_free.mpr ⟨x, hx, hx_ahead, ?_⟩
  by_contra hin
  have hpend : pending x' := (Bool.and_eq_true_iff.mp hahead).1
  rw [inHand_step hw hi (step_cases h) hs (by simpa using hin) hx' hpend (availableAt_of_ahead
    hahead)] at hfree
  cases hfree

/-- A row that waits for its lock is not locked by anybody else. -/
theorem unlocked_step (hw : WF config s) (hs : Single s) (hi : Waits r s) (h : Step config s a s')
    {t : Task} (ht : t ∈ s.tasks.rows) (hheld : t.phase.held? = none) (ha : ∀ b, a ≠ .task t.tid b)
    {x' : DeliveryRow}
    (hx' : s'.db.deliveries.get t.row.deliveryId = some x') : unlocked s.now x' := by
  have hcleared : ∀ x : DeliveryRow, x.lockedUntil = none → unlocked s.now x := by
    intro x hx
    rw [Repo.Statements.unlocked, hx]
    rfl
  have hrow := row_step h t.row.deliveryId
  have hbefore := hi.unlocked t ht hheld
  rw [hx'] at hrow
  generalize s.db.deliveries.get t.row.deliveryId = y at hrow hbefore
  generalize hy' : some x' = y' at hrow
  cases hrow with
  | keep => exact hbefore x' hy'.symm
  | inserted | poisoned | retried =>
    cases hy'
    exact hcleared _ rfl
  | locked t₀ fault due u x ht₀ hp hid hg =>
    have heq : t₀.row.deliveryId = t.row.deliveryId :=
      (hw.examined ht₀ (by rw [hp]; rfl)).deliveryId.symm.trans hid
    rw [hs t₀ ht₀ t ht heq] at ha
    exact absurd rfl (ha _)
  | wroteBack t₀ fault due u stmt x ht₀ hp =>
    cases hy'
    rcases (hw.tasks.stmt t₀ ht₀ due u stmt hp).cases with rfl | ⟨rfl, -⟩ | ⟨_, _, _, rfl⟩ <;>
      exact hcleared _ rfl
  | swept maxCycles x =>
    cases hy'
    unfold sweepRow
    split_ifs <;> exact hcleared _ rfl
  | completed x | abandoned x =>
    cases hy'
    exact hbefore x rfl
  | deleted => cases hy'

/-- **A row that nobody writes goes on waiting.** -/
theorem waits_step (hw : WF config s) (hs : Single s) (hi : Waits r s) (h : Step config s a s')
    (hrow : s'.db.deliveries.get r.id = some r) : Waits r s' := by
  have hnow := now_le h
  refine ⟨hrow, isDue_mono hi.due hnow, lt_of_lt_of_le hi.late hnow, fun t ht hheld x' hx' => ?_,
    fun t ht due u error availableAt deadLetter hp => ?_⟩
  · refine unlocked_mono ?_ hnow
    rcases h.tasks ht with ⟨hold, hne⟩ | ⟨rfl, -, -, -, x, hx, hdue, e, -, -, hcols⟩ |
      ⟨t₀, ht₀, b, obs, rfl, heq, hst, -⟩
    · exact unlocked_step hw hs hi h hold hheld hne hx'
    · cases h with
      | fetch rows hsel =>
        have hget : s.db.deliveries.get t.row.deliveryId = some x := by
          rw [hcols]
          exact Table.get_of_mem hx
        cases hget.symm.trans hx'
        exact (isDue_iff_columns.mp hdue).2.2.2.2
    · have hrow₀ : t₀.row = t.row := by rw [heq]
      rw [← hrow₀] at hx'
      generalize t.phase = q at hheld hst
      generalize s'.db = db' at hst hx'
      generalize hq : some q = o at hst
      cases hst with
      | examined fault due hp | computeLock due u hp =>
        exact hi.unlocked t₀ ht₀ (by rw [hp]; rfl) x' hx'
      | lock | deliver => cases hq; cases hheld
      | respond =>
        obtain ⟨stmt, -, rfl⟩ := Option.map_eq_some_iff.mp hq.symm
        cases hheld
      | _ => cases hq
  · rcases h.tasks ht with ⟨hold, -⟩ | ⟨-, hf, -⟩ | ⟨t₀, ht₀, b, obs, -, -, hst, -⟩
    · exact hi.later t hold _ _ _ _ _ hp
    · rw [hf] at hp
      cases hp
    · rw [hp] at hst
      generalize s'.db = db' at hst
      generalize hq : some (Phase.writing due u (.markFailure error availableAt deadLetter)) =
        o at hst
      cases hst with
      | respond due₀ u₀ result jitter =>
        obtain ⟨stmt, hstmt, heq⟩ := Option.map_eq_some_iff.mp hq.symm
        obtain ⟨rfl, rfl, rfl⟩ := Phase.writing.inj heq
        generalize hs : Stmt.markFailure error availableAt deadLetter = stmt at hstmt
        cases writeBack_of_stmt hstmt with
        | failure reason retryAfter t hr hc =>
          cases hs
          exact lt_of_lt_of_le hi.late (le_availableAt hc)
        | _ => cases hs
      | _ => cases hq

omit [Crates] in
theorem batch_nodup (db : Db) (now : Time) (n : ℤ) : ((batch db now n).map (·.id)).Nodup := by
  refine ((List.take_sublist _ _).map _).nodup ?_
  refine ((List.perm_insertionSort _ _).map _).nodup_iff.mpr ?_
  exact (List.filter_sublist.map _).nodup db.deliveries.nodup

/-- **A batch** takes the row, or as many of those ahead of it as it has room for. -/
theorem free_fetch (hw : WF config s) (hi : Waits r s) (h : System.step config s .fetch = some s')
    (hidle : s.tasks.rows = []) :
    inHand s' r.id ∨ (free r s').card + config.batchSize.toNat ≤ (free r s).card := by
  have hsub := free_step hw hi h trivial
  cases step_cases h with
  | fetch rows hsel =>
    -- The rows of the batch are in hand after the step.
    have htaken : ∀ x ∈ batch s.db s.now config.batchSize, inHand { s with
        tasks := addTasks s.tasks (newTasks s.nextTid rows), nextTid :=
            s.nextTid + rows.length } x.id := by
      intro x hx
      obtain ⟨e, -, -, hjoin, -⟩ := exists_joined config (mem_of_mem_batch hx).1
      obtain ⟨-, hrows, -⟩ := selectDue_iff.mp hsel
      have hrow : _ ∈ rows := hrows ▸ List.mem_filterMap.mpr ⟨x, hx, hjoin⟩
      obtain ⟨t, ht, -, heq⟩ := exists_task_of_fetched hw.tasks.tid_lt hrow
      exact inHand_iff.mpr ⟨t, ht, by rw [heq]⟩
    by_cases hin : r ∈ batch s.db s.now config.batchSize
    · exact .inl (htaken r hin)
    right
    obtain ⟨hbefore, hlen⟩ := take_of_notMem (dueRows_sorted s.db s.now)
      (mem_dueRows.mpr ⟨Table.mem_of_get hi.row, hi.due⟩) hin
    let ids := ((batch s.db s.now config.batchSize).map (·.id)).toFinset
    have hids : ids.card = config.batchSize.toNat := by
      rw [List.toFinset_card_of_nodup (batch_nodup _ _ _), List.length_map]
      exact hlen
    have hfree : ids ⊆ free r s := by
      intro d hd
      obtain ⟨x, hx, rfl⟩ := List.mem_map.mp (List.mem_toFinset.mp hd)
      obtain ⟨hm, hdue⟩ := mem_of_mem_batch hx
      obtain ⟨hdisp, hproc, hdead, -⟩ := isDue_iff_columns.mp hdue
      exact mem_free.mpr ⟨x, Table.get_of_mem hm, ahead_iff.mpr ⟨hdisp, hproc, hdead, hbefore x hx⟩,
        by simp [inHand, hidle]⟩
    have hdisj : Disjoint (free r { s with
        tasks := addTasks s.tasks (newTasks s.nextTid rows), nextTid :=
            s.nextTid + rows.length }) ids := by
      refine Finset.disjoint_left.mpr fun d hd hd' => ?_
      obtain ⟨x, hx, rfl⟩ := List.mem_map.mp (List.mem_toFinset.mp hd')
      obtain ⟨-, -, -, hfree⟩ := mem_free.mp hd
      rw [htaken x hx] at hfree
      cases hfree
    rw [← hids, ← Finset.card_union_of_disjoint hdisj]
    exact Finset.card_le_card (Finset.union_subset hsub hfree)

end

/-! ### The replica -/

/-- The replica is in `dispatch_due`, and has a batch. -/
def dispatching : Stage → Bool
  | .examining _ _ | .streaming _ => true
  | _ => false

/-- What the batch in hand takes away from the rows ahead. -/
def taken (n : ℕ) (s : Sys) (d : ℤ) (stage : Stage) : ℕ :=
  if dispatching stage && !inHand s d then n else 0

/-- No statement of a task is lost. -/
def wellAct : Act → Bool
  | .task _ b => faultless b
  | _ => true

/-- `dispatch_due` has worked through a batch. -/
def isStreamDone : Action → Bool
  | .replica _ .streamDone => true
  | _ => false

/-- There is one replica, it keeps running, and the statements of its tasks are not lost. -/
def Steady (c' : Cluster) : Action → Prop
  | .replica r b => r = 0 ∧ wellAct b ∧ (c'.replicas 0).isSome
  | _ => True

instance (c' : Cluster) (a : Action) : Decidable (Steady c' a) :=
  match a with
  | .replica r b => inferInstanceAs (Decidable (r = 0 ∧ wellAct b ∧ (c'.replicas 0).isSome))
  | .outside _ | .rescan _ _ => inferInstanceAs (Decidable True)

section

variable [Crates] {config : LoopConfig} {k : ℕ} {s s' : Sys} {p p' : Replica} {b : Act}

omit [Crates] in
theorem dispatching_dispatchDone (now : Time) :
    dispatching (p.dispatchDone config now).stage = false := by
  unfold Replica.dispatchDone
  split_ifs <;> rfl

/-- The steps of a replica, as far as its batch is concerned. -/
theorem replicaStep_kinds (h : ReplicaStep config k s p b s' (some p')) (hb : wellAct b) :
    (b = .streamDone ∧ s' = s ∧ p.stage.tasks = [] ∧ dispatching p.stage ∧
      dispatching p'.stage = false) ∨
      (b ≠ .streamDone ∧ p.stage = .fetching ∧ System.step config.dispatch s .fetch = some s') ∨
      (b ≠ .streamDone ∧ (dispatching p'.stage → dispatching p.stage) ∧
        (s' = s ∨ ∃ a, a ≠ .fetch ∧ System.step config.dispatch s a = some s' ∧
        GoesWell s' a)) := by
  generalize hq : some p' = q at h
  cases h with
  | streamDone stream hp hd =>
    cases hq
    exact .inl ⟨rfl, rfl, by rw [hp]; exact hd, by rw [hp]; rfl, dispatching_dispatchDone _⟩
  | fetchDue s' hp hs => exact .inr (.inl ⟨by simp, hp, hs⟩)
  | fetchDueFailed ok hp =>
    cases hq
    exact .inr (.inr ⟨by simp, by simp [dispatching_dispatchDone], .inl rfl⟩)
  | cancel | drained => cases hq; exact .inr (.inr ⟨by simp, id, .inl rfl⟩)
  | crash | stop | startPanicked | responsePanicked => cases hq
  | recv | pollTimer | drainEnded | passEmpty | fetchNewFailed | wake | sweepFailed =>
    cases hq
    exact .inr
      (.inr ⟨by simp, by simp [dispatching, Replica.passDone, Replica.passFailed, Replica.endCycle],
      .inl rfl⟩)
  | passStarted cursor e rest s' hp hc he hs | wrote fault c l s' hp hs | nextEvent c l s' hp hs =>
    cases hq
    exact .inr (.inr ⟨by simp, id, .inr ⟨_, by simp, hs, trivial⟩⟩)
  | writeFailed fault s' hp hs | passDone s' hp hs | swept fault s' hp hf hs =>
    cases hq
    exact .inr
      (.inr ⟨by simp, by simp [dispatching, Replica.passDone, Replica.passFailed, Replica.endCycle],
      .inr ⟨_, by simp, hs, trivial⟩⟩)
  | examined tid fault rows ready s' hp hs =>
    exact .inr (.inr ⟨by simp, fun _ => by rw [hp]; rfl, .inr ⟨_, by simp, hs, hb, .inr rfl⟩⟩)
  | started tid stream stream' s' hp hst hs ha =>
    exact .inr (.inr ⟨by simp, fun _ => by rw [hp]; rfl, .inr ⟨_, by simp, hs, hb, .inl ha⟩⟩)
  | advanced tid b' stream s' hp hm hs ha =>
    exact .inr (.inr ⟨by simp, fun _ => by rw [hp]; rfl, .inr ⟨_, by simp, hs, hb, .inl ha⟩⟩)
  | finished tid b' stream s' hp hm hst hs ha =>
    exact .inr (.inr ⟨by simp, fun _ => by rw [hp]; rfl, .inr ⟨_, by simp, hs, hb, .inr hst⟩⟩)

omit [Crates] in
theorem isStreamDone_of_ne (h : b ≠ .streamDone) : isStreamDone (.replica k b) = false := by
  cases b <;> first | rfl | exact absurd rfl h

omit [Crates] in
theorem taken_le (n : ℕ) (s : Sys) (d : ℤ) (stage : Stage) : taken n s d stage ≤ n := by
  unfold taken
  split_ifs <;> simp

omit [Crates] in
theorem taken_mono {n : ℕ} {d : ℤ} {stage stage' : Stage}
    (hst : dispatching stage' → dispatching stage)
    (hh : inHand s d → inHand s' d) : taken n s' d stage' ≤ taken n s d stage := by
  unfold taken
  by_cases h : dispatching stage' && !inHand s' d
  · rw [Bool.and_eq_true, Bool.not_eq_true'] at h
    have hfree : inHand s d = false := by
      by_contra hin
      rw [hh (by simpa using hin)] at h
      cases h.2
    simp [h.1, h.2, hst h.1, hfree]
  · rw [if_neg h]
    exact Nat.zero_le _

variable {now : Time} {c c' : Cluster} {a : Action} {r : DeliveryRow}

/-- What is left of the rows ahead, with what the batch in hand has taken. -/
def rest (n : ℕ) (r : DeliveryRow) (s : Sys) (p : Replica) : ℕ :=
  (free r s).card + taken n s r.id p.stage

/-- A step of the system, with the replica where it was or out of its batch. -/
theorem rest_step {b : System.Action} (hw : WF config.dispatch s) (hi : Waits r s)
    (h : System.step config.dispatch s b = some s') (hs : GoesWell s' b)
    (hrow : s'.db.deliveries.get r.id = some r)
    (hst : dispatching p'.stage → dispatching p.stage) (n : ℕ) : rest n r s' p' ≤ rest n r s p := by
  obtain ⟨hdisp, hproc, hdead, -⟩ := isDue_iff_columns.mp hi.due
  have hpend : pending r := by simp [pending, hdisp, hproc, hdead]
  refine Nat.add_le_add (Finset.card_le_card (free_step hw hi h hs)) (taken_mono hst fun hh => ?_)
  exact inHand_step hw hi (step_cases h) hs hh hrow hpend (le_refl _)

omit [Crates] in
theorem rest_streamDone (n : ℕ) (hidle : s.tasks.rows = []) (hin : dispatching p.stage)
    (hout : dispatching p'.stage = false) : n + rest n r s p' ≤ rest n r s p := by
  have hfree : inHand s r.id = false := by simp [inHand, hidle]
  simp [rest, taken, hin, hout, hfree, Nat.add_comm]

theorem rest_fetch (hw : WF config.dispatch s) (hi : Waits r s)
    (h : System.step config.dispatch s .fetch = some s') (hidle : s.tasks.rows = []) :
    rest config.dispatch.batchSize.toNat r s' p' ≤ rest config.dispatch.batchSize.toNat r s p := by
  rcases free_fetch hw hi h hidle with hh | hle
  · have hsub := Finset.card_le_card (free_step hw hi h trivial)
    have hnone : taken config.dispatch.batchSize.toNat s' r.id p'.stage = 0 := by simp [taken, hh]
    unfold rest
    omega
  · have htaken := taken_le config.dispatch.batchSize.toNat s' r.id p'.stage
    unfold rest
    omega

/-- **One step of the processes**: a batch that is worked through has taken its rows away. -/
theorem rest_cluster (hrun : Run (step config) (fun _ a _ => OneReplica a) (boot now) c)
    (hi : Waits r c.sys)
    (hp : c.replicas 0 = some p) (h : ClusterStep config c a c') (hst : Steady c' a)
    (hrow : c'.sys.db.deliveries.get r.id = some r) :
    Waits r c'.sys ∧ ∃ p', c'.replicas 0 = some p' ∧
      (if isStreamDone a then config.dispatch.batchSize.toNat else 0) +
        rest config.dispatch.batchSize.toNat r c'.sys p' ≤
        rest config.dispatch.batchSize.toNat r c.sys p := by
  have hw := wf_of_cluster hrun
  have hsingle := single_of_run (fun _ _ _ ho => ho) hrun
  have hsys : ∀ {s : Sys} {b : System.Action}, System.step config.dispatch c.sys b = some s →
      s.db.deliveries.get r.id = some r → Waits r s :=
    fun hs hrow => waits_step hw hsingle hi (step_cases hs) hrow
  cases h with
  | outside b s hb hs =>
    have hwell : GoesWell s b := by
      cases b <;> trivial
    refine ⟨hsys hs hrow, p, hp, ?_⟩
    simpa [isStreamDone] using rest_step hw hi hs hwell hrow id _
  | rescan k b s hk _ hs =>
    refine ⟨hsys hs hrow, p, hp, ?_⟩
    simpa [isStreamDone] using rest_step hw hi hs trivial hrow id _
  | start k s hk hs =>
    rw [hst.1, hp] at hk
    cases hk
  | replica k b q s q' hk hs =>
    obtain ⟨rfl, hwell, hsome⟩ := hst
    rw [hp] at hk
    cases hk
    dsimp only at hsome hrow ⊢
    rw [Function.update_self] at hsome ⊢
    obtain ⟨p', rfl⟩ := Option.isSome_iff_exists.mp hsome
    rcases replicaStep_kinds hs hwell with ⟨rfl, rfl, hnil, hin, hout⟩ | ⟨hne, hf, hfetch⟩ |
      ⟨hne, hstage, hsame⟩
    · have hidle := idle_of_tasks (fun _ _ _ ho => ho) hrun hp hnil
      exact ⟨hi, p', rfl, rest_streamDone _ hidle hin hout⟩
    · have hidle :=
        idle_of_fetch (fun _ _ _ ho => ho) hrun (.replica 0 p (.fetchDue true) _ hp (.fetch hf))
      refine ⟨hsys hfetch hrow, p', rfl, ?_⟩
      rw [isStreamDone_of_ne hne]
      simpa using rest_fetch hw hi hfetch hidle
    · rw [isStreamDone_of_ne hne]
      rcases hsame with rfl | ⟨b', -, hstep, hwell'⟩
      · refine ⟨hi, p', rfl, ?_⟩
        have := @taken_mono c.sys c.sys config.dispatch.batchSize.toNat r.id p.stage p'.stage hstage
          id
        simp [rest]
        omega
      · refine ⟨hsys hstep hrow, p', rfl, ?_⟩
        simpa using rest_step hw hi hstep hwell' hrow hstage _

/-- **How long a delivery waits.** There is one replica and it is in `select!`; a row is due and
late. From then on the replica keeps running and loses no statement of a task; the receivers answer
what they like, and publishers, operators, the sweep, retention and rescans do what they like. As
long as nobody has written the row, the batches that `dispatch_due` has worked through have had no
more rows in all than were unfinished and ahead of it at first. So after as many batches as these
rows fill, and one more, it has had its turn. -/
theorem waiting_bounded (h : Run (step config) (fun _ a _ => OneReplica a) (boot now) c)
    (hp : c.replicas 0 = some p) (hst : p.stage = .waiting)
    (hrow : c.sys.db.deliveries.get r.id = some r)
    (hdue : isDue c.sys.now r) (hlate : r.availableAt < c.sys.now) {l : List Action}
    (hpath : Path (fun c a c' => step config c a = some c' ∧ Steady c' a ∧
      c'.sys.db.deliveries.get r.id = some r) c l c') :
    l.countP isStreamDone * config.dispatch.batchSize.toNat ≤ c.sys.db.deliveries.rows.countP
    (ahead r) := by
  have hidle : c.sys.tasks.rows = [] := idle_of_tasks (fun _ _ _ ho => ho) h hp (by rw [hst]; rfl)
  have hinv : Run (step config) (fun _ a _ => OneReplica a) (boot now) c' ∧ Waits r c'.sys ∧
      ∃ p', c'.replicas 0 = some p' ∧ l.countP isStreamDone * config.dispatch.batchSize.toNat +
        rest config.dispatch.batchSize.toNat r c'.sys p' ≤ c.sys.db.deliveries.rows.countP
        (ahead r) := by
    induction hpath with
    | nil =>
      refine ⟨h, ⟨hrow, hdue, hlate, by simp [hidle], by simp [hidle]⟩, p, hp, ?_⟩
      simp [rest, taken, hst, dispatching, card_free hidle]
    | @cons c₁ c₂ l a hpath hstep ih =>
      obtain ⟨hrun, hi, p₁, hp₁, hle⟩ := ih
      obtain ⟨hs, hsteady, hrow'⟩ := hstep
      obtain ⟨hi', p', hp', hle'⟩ := rest_cluster hrun hi hp₁ (clusterStep_of_step hs) hsteady hrow'
      have hone : OneReplica a := by
        unfold OneReplica
        split
        · exact hsteady.1
        · trivial
      refine ⟨hrun.tail hs hone, hi', p', hp', ?_⟩
      rw [List.countP_cons, Nat.add_mul]
      split_ifs at hle' ⊢ <;> omega
  obtain ⟨-, -, p', -, hle⟩ := hinv
  omega

end

/-- Batches of one. -/
def oneByOne : LoopConfig := { dispatch := { batchSize := 1 } }

/-- Two rows are late, and the replica is in `select!`: its query for them has failed. -/
def twoLate : List Action := twoDue.take 8 ++ [.replica 0 (.fetchDue false), .outside (.tick 1)]

/-- A batch with the first of them, whose receiver does not answer. -/
def firstTimesOut : List Action :=
  [.replica 0 (.recv true), .replica 0 (.tryRecv false), .replica 0 (.fetchNew true),
    .replica 0 (.fetchDue true),
    .replica 0 (.task 0 (.examine .ok)), .replica 0 (.task 0 .computeLock),
    .replica 0 (.task 0 (.lock .ok)),
    .replica 0 (.task 0 .deliver), .outside (.publish (sampleEvent 2 [])),
    .replica 0 (.task 0 (.respond .timeout 0)), .replica 0 (.task 0 (.writeBack .ok)),
    .replica 0 .streamDone]

theorem waiting_bounded_twoLate :
    ∃ c p r c', Run (@step sampleCrates oneByOne) (fun _ a _ => OneReplica a) (boot 0) c ∧
    c.replicas 0 = some p ∧ p.stage = .waiting ∧ c.sys.db.deliveries.get r.id = some r ∧
    isDue c.sys.now r ∧ r.availableAt < c.sys.now ∧
    Path (fun c a c' => @step sampleCrates oneByOne c a = some c' ∧ Steady c' a ∧
      c'.sys.db.deliveries.get r.id = some r) c firstTimesOut.reverse c' ∧
    firstTimesOut.reverse.countP isStreamDone = 1 ∧
    firstTimesOut.reverse.countP isStreamDone * 1 ≤ c.sys.db.deliveries.rows.countP (ahead r) := by
  obtain ⟨c, hrun, hsome⟩ :
      ∃ c, Run (@step sampleCrates oneByOne) (fun _ a _ => OneReplica a) (boot 0) c ∧
      ((c.replicas 0).bind fun p => (c.sys.db.deliveries.get 2).bind fun r =>
        if p.stage = .waiting ∧ isDue c.sys.now r ∧ r.availableAt < c.sys.now ∧ r.id = 2 then
          exec (@step sampleCrates oneByOne) (fun _ a c' => Steady c' a ∧
            c'.sys.db.deliveries.get r.id = some r) firstTimesOut c
        else none).isSome := Run.exists_of_exec twoLate (by decide +kernel)
  obtain ⟨c', hsome⟩ := Option.isSome_iff_exists.mp hsome
  obtain ⟨p, hp, hsome⟩ := Option.bind_eq_some_iff.mp hsome
  obtain ⟨r, hr, hsome⟩ := Option.bind_eq_some_iff.mp hsome
  split_ifs at hsome with hc
  obtain ⟨hst, hdue, hlate, hid⟩ := hc
  rw [← hid] at hr
  have hpath := Path.of_exec firstTimesOut .nil hsome
  rw [List.append_nil] at hpath
  exact ⟨c, p, r, c', hrun, hp, hst, hr, hdue, hlate, hpath, by decide,
    @waiting_bounded sampleCrates oneByOne p 0 c c' r hrun hp hst hr hdue hlate _ hpath⟩

end OutboxDispatcher.Replicas.Waiting
