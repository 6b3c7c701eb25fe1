import OutboxDispatcher.Dispatch.Solo
import OutboxDispatcher.Dispatch.Exclusion
import OutboxDispatcher.Replicas.Ownership

/-! # A deployment with one replica

With several replicas the lock of a row excludes others only until it expires, so the guarantees
rest on the clock (`Timely`). With one replica they do not: `dispatch_due` returns when its stream
is at its end, so a batch is fetched only when nothing of the last one is in anybody's hands
(`idle_of_fetch`), and the locks are never what keeps two tasks apart. The replica may crash, panic
and come back as often as it likes, its statements may fail or be applied without an answer, and the
receivers may take as long as they like. -/

namespace OutboxDispatcher.Replicas.Lone

open OutboxDispatcher.Lib.Runs OutboxDispatcher.Lib.Tables OutboxDispatcher.Lib.Traces
open OutboxDispatcher.Schema OutboxDispatcher.Callbacks.Fields OutboxDispatcher.Repo.Database
open OutboxDispatcher.Repo.Statements OutboxDispatcher.Scheduler.Pass OutboxDispatcher.Dispatch
open OutboxDispatcher.Dispatch.Exclusion OutboxDispatcher.Dispatch.Solo
open OutboxDispatcher.System OutboxDispatcher.System.Effects OutboxDispatcher.System.History
open OutboxDispatcher.System.Rows OutboxDispatcher.Replicas OutboxDispatcher.Replicas.Effects
open OutboxDispatcher.Replicas.Ownership

/-- Only the process `0` is ever started as a replica. -/
def OneReplica : Action → Prop
  | .replica r .start => r = 0
  | _ => True

instance : DecidablePred OneReplica := fun a => by
  unfold OneReplica
  split <;> infer_instance

section

variable [Crates] {config : LoopConfig} {now : Time} {c : Cluster}
  {ok : Cluster → Action → Cluster → Prop}

theorem eq_zero_of_running (hok : ∀ c a c', ok c a c' → OneReplica a)
    (h : Run (step config) ok (boot now) c) : ∀ r p, c.replicas r = some p → r = 0 := by
  refine h.invariant (fun c => ∀ r p, c.replicas r = some p →
    r = 0) (fun r p hp => by simp [boot] at hp) ?_
  intro c a c' hi hs ho r p hp
  have hupdate : ∀ {r' : ℕ} {p' : Option Replica}, r' = 0 →
      Function.update c.replicas r' p' r = some p → r = 0 := by
    intro r' p' hr' hp
    by_cases hr : r = r'
    · exact hr.trans hr'
    · rw [Function.update_of_ne hr] at hp
      exact hi r p hp
  cases clusterStep_of_step hs with
  | outside | rescan => exact hi r p hp
  | start r' => exact hupdate (hok _ _ _ ho) hp
  | replica r' a p₀ s p' hr' => exact hupdate (hi r' p₀ hr') hp

/-- When the replica has no task, there is none. -/
theorem idle_of_tasks (hok : ∀ c a c', ok c a c' → OneReplica a)
    (h : Run (step config) ok (boot now) c) {r : ℕ}
    {p : Replica} (hp : c.replicas r = some p) (hnil : p.stage.tasks = []) :
    c.sys.tasks.rows = [] := by
  have hzero := eq_zero_of_running hok h
  refine List.eq_nil_iff_forall_not_mem.mpr fun t ht => ?_
  obtain ⟨r', p', hp', hm⟩ := (owned_of_run h).owner t ht
  rw [hzero r' p' hp', ← hzero r p hp, hp] at hp'
  cases hp'
  rw [hnil] at hm
  cases hm

/-- **A batch is fetched when the last one is done with.** -/
theorem idle_of_fetch (hok : ∀ c a c', ok c a c' → OneReplica a)
    (h : Run (step config) ok (boot now) c)
    {a : Action} (hc : Cause c a .fetch) : c.sys.tasks.rows = [] := by
  cases hc with
  | outside _ hb => cases hb
  | replica r p a _ hp hd =>
    cases hd with
    | fetch hstage => exact idle_of_tasks hok h hp (by rw [hstage]; rfl)

theorem single_of_run (hok : ∀ c a c', ok c a c' → OneReplica a)
    (h : Run (step config) ok (boot now) c) : Single c.sys := by
  refine system_invariant Single (single_init now _) (fun s r tids hi t ht t' ht' => ?_)
    (fun c a c' b s' hc _ hb hi hst => ?_) h
  · exact hi t (mem_tasks_kill.mp ht).1 t' (mem_tasks_kill.mp ht').1
  · exact single_step hi hst fun hf => idle_of_fetch hok hc (hf ▸ hb)

end

/-! ### After a success -/

/-- What a success means for a delivery: its row is dispatched or gone for good, and no task is at
it. -/
structure Done (s : Sys) (d : ℤ) : Prop where
  issued : d < s.db.deliverySeq
  row : ∀ r, s.db.deliveries.get d = some r → r.dispatchedAt.isSome
  free : ∀ t ∈ s.tasks.rows, t.row.deliveryId ≠ d

theorem Done.settledRow {s : Sys} {d : ℤ} (h : Done s d) : SettledRow s d :=
  ⟨h.issued, h.row, fun t _ ht => h.free t ht.1 ht.2.1⟩

structure Calm (s : Sys) : Prop where
  single : Single s
  settled : ∀ d, Settled d s.trace → Done s d
  noRedelivery : NoRedelivery s.trace

section

variable [Crates] {config : DispatchConfig} {s s' : Sys} {a : System.Action}

/-- After its write-back a task is gone, whatever became of the statement. -/
theorem writeBack_ends {now : Time} {db db' : Db} {t : Task} {fault : Fault} {phase : Option Phase}
    {obs : List Obs} (h : TaskStep config now db t (.writeBack fault) db' phase obs) :
    phase = none := by
  cases h <;> rfl

theorem done_success (hw : WF config s) (hs : Single s) (h : Step config s a s') {d : ℤ} {o : Obs}
    (ho : ObsStep s s' a o) (hsucc : IsSuccess d o) : Done s' d := by
  obtain ⟨tid, stmt, hstmt, rfl⟩ := hsucc
  generalize hoo : Obs.wroteBack tid d stmt = o at ho
  cases ho with
  | wroteBack t fault due lockUntil stmt' ht hp hf hdb =>
    cases hoo
    have hid := (hw.examined ht (by rw [hp]; rfl)).deliveryId
    refine ⟨?_, fun r' hr' => ?_, fun t' ht' hd => ?_⟩
    · rw [hid]
      exact (hw.tasks.id_lt hw.issued ht).trans_le (deliverySeq_le h)
    · rw [hdb, Stmt.get_exec] at hr'
      obtain ⟨r, -, rfl⟩ := Option.map_eq_some_iff.mp hr'
      cases stmt <;> simp_all [isSuccess, Stmt.guard, Stmt.assign]
    · rcases h.tasks ht' with ⟨hold, hne⟩ | ⟨hf, -⟩ | ⟨t₀, ht₀, b, obs, ha, -, hst, -⟩
      · -- it would have been at the delivery before, and so be the one that is done
        rw [hs t' hold t ht (hd.trans hid)] at hne
        exact hne _ rfl
      · cases hf
      · obtain ⟨-, rfl⟩ := System.Action.task.inj ha
        cases writeBack_ends hst
  | _ => cases hoo

/-- Every other step leaves the delivery alone, unless it resets it. -/
theorem done_step (hw : WF config s) (h : Step config s a s') {d : ℤ} (hd : Done s d)
    {obs : List Obs}
    (htr : s'.trace = obs ++ s.trace) (hno : ∀ o ∈ obs, ¬isReset d o) : Done s' d := by
  have hrow := settledRow_step hw h hd.settledRow htr hno
  refine ⟨hrow.issued, hrow.row, fun t ht hid => ?_⟩
  rcases h.tasks ht with ⟨hold, -⟩ | ⟨-, -, -, -, r, hr, hdue, e, -, -, heq⟩ |
    ⟨t₀, ht₀, -, -, -, heq, -⟩
  · exact hd.free t hold hid
  · -- only rows that are not dispatched are fetched
    have hget : s.db.deliveries.get d = some r :=
      Table.get_eq_some_iff.mpr ⟨hr, by rw [← hid, heq]⟩
    have := hd.row r hget
    simp [(isDue_iff_columns.mp hdue).1] at this
  · refine hd.free t₀ ht₀ ?_
    rw [← hid, heq]

theorem calm_step (hw : WF config s) (hi : Calm s) (h : Step config s a s')
    (ha : a = .fetch → s.tasks.rows = []) : Calm s' := by
  obtain ⟨obs, htr, hobs⟩ := trace_step h
  refine ⟨single_step hi.single h ha, fun d hset => ?_, ?_⟩
  · rw [htr] at hset
    rcases since_append hset with ⟨o, ho, hsucc⟩ | ⟨hset, hno⟩
    · exact done_success hw hi.single h (hobs o ho) hsucc
    · exact done_step hw h (hi.settled d hset) htr hno
  · intro l tid event l' heq hset
    rw [htr] at heq
    rcases List.append_eq_append_iff.mp heq with ⟨m, rfl, hm⟩ | ⟨m, rfl, hm⟩
    · exact hi.noRedelivery m tid event l' hm hset
    · cases m with
      | nil => exact hi.noRedelivery [] tid event l' (by simpa using hm.symm) hset
      | cons o m =>
        rw [List.cons_append, List.cons.injEq] at hm
        obtain ⟨rfl, rfl⟩ := hm
        -- the call is of this step, so the success is not, and the caller is at the delivery
        obtain ⟨t, ht, due, u, hp, rfl, ha⟩ := obs_deliver (hobs (.deliver tid event) (by simp))
        rcases since_append hset with ⟨o, ho, hsucc⟩ | ⟨hset, -⟩
        · obtain ⟨tid', fault, ha'⟩ := obs_success (hobs o (by simp [ho])) hsucc
          rw [ha] at ha'
          cases ha'
        · exact (hi.settled _ hset).free t ht (hw.examined ht (by rw [hp]; rfl)).deliveryId.symm

omit [Crates] in
theorem calm_kill {r : ℕ} {tids : List ℕ} (hi : Calm s) : Calm (kill s r tids) := by
  have hmem : ∀ t ∈ (kill s r tids).tasks.rows, t ∈ s.tasks.rows :=
    fun t ht => (mem_tasks_kill.mp ht).1
  have htrace : (kill s r tids).trace = s.trace := by rw [kill_eq]
  have hdb : (kill s r tids).db = s.db := by rw [kill_eq]
  refine ⟨fun t ht t' ht' => hi.single t (hmem t ht) t' (hmem t' ht'), fun d hset => ?_, ?_⟩
  · have hd := hi.settled d (htrace ▸ hset)
    exact ⟨hdb ▸ hd.issued, hdb ▸ hd.row, fun t ht => hd.free t (hmem t ht)⟩
  · rw [htrace]
    exact hi.noRedelivery

end

section

variable [Crates] {config : LoopConfig} {now : Time} {c : Cluster}

end

/-- The replica crashes in a call and comes back when the lock has expired, and the second call
takes longer than the lock lasts. -/
def lateCall : List Action :=
  [.outside (.publish (sampleEvent 1 [sampleCallback "hook_a" []])), .outside (.commit 1),
    .replica 0 .start,
    .replica 0 (.recv true), .replica 0 (.tryRecv false), .replica 0 (.fetchNew true),
    .replica 0 (.write .ok), .replica 0 .nextEvent,
    .replica 0 (.fetchDue true), .replica 0 (.task 0 (.examine .ok)),
    .replica 0 (.task 0 .computeLock),
    .replica 0 (.task 0 (.lock .ok)), .replica 0 (.task 0 .deliver), .replica 0 .crash,
    .outside (.tick 3600000000000), .replica 0 .start, .replica 0 (.recv true),
    .replica 0 (.tryRecv false), .replica 0 (.fetchNew true),
    .replica 0 (.fetchDue true), .replica 0 (.task 1 (.examine .ok)),
    .replica 0 (.task 1 .computeLock),
    .replica 0 (.task 1 (.lock .ok)), .replica 0 (.task 1 .deliver), .outside (.tick 3600000000000)]

/-- The late call succeeds, and an operator has the event delivered again. -/
def retriedAfterSuccess : List Action :=
  lateCall ++ [.replica 0 (.task 1 (.respond .ok 0)), .replica 0 (.task 1 (.writeBack .ok)),
    .replica 0 .streamDone,
    .replica 0 (.sweep .ok), .outside (.retry 1), .replica 0 (.recv true),
    .replica 0 (.tryRecv false), .replica 0 (.fetchNew true),
    .replica 0 (.fetchDue true), .replica 0 (.task 2 (.examine .ok)),
    .replica 0 (.task 2 .computeLock),
    .replica 0 (.task 2 (.lock .ok)), .replica 0 (.task 2 .deliver)]

/-- No operator resets a row that a task is at. -/
def Patient (c : Cluster) : Action → Prop
  | .outside (.retry d) => ∀ t ∈ c.sys.tasks.rows, t.row.deliveryId ≠ d
  | _ => True

instance (c : Cluster) (a : Action) : Decidable (Patient c a) := by
  unfold Patient
  split <;> infer_instance

/-- The row is as the task that is at it believes: not dispatched, with the attempts that were
fetched and the one of the task's own lock, and with that lock. -/
structure InHand (t : Task) (r : DeliveryRow) : Prop where
  undispatched : r.dispatchedAt = none
  attempts : r.attempts = t.row.attempts + if t.phase.held?.isSome then 1 else 0
  lock : ∀ u, t.phase.held? = some u → r.lockedUntil = some u

theorem InHand.congr {t t' : Task} {r : DeliveryRow} (h : InHand t r) (hrow : t'.row = t.row)
    (hp : t'.phase.held? = t.phase.held?) : InHand t' r :=
  ⟨h.undispatched, by rw [hrow, hp]; exact h.attempts, by rw [hp]; exact h.lock⟩

/-- Every row that is still there is as the task that is at it believes. -/
def Known (s : Sys) : Prop :=
  ∀ t ∈ s.tasks.rows, ∀ r, s.db.deliveries.get t.row.deliveryId = some r → InHand t r

section

variable [Crates] {config : DispatchConfig} {s s' : Sys} {a : System.Action}

theorem inHand_other (hw : WF config s) (hs : Single s) (hk : Known s) (h : Step config s a s')
    (hretry : ∀ d, a = .retry d → ∀ t ∈ s.tasks.rows, t.row.deliveryId ≠ d) {t : Task}
    (ht : t ∈ s.tasks.rows) (hne : ∀ b, a ≠ .task t.tid b) {r' : DeliveryRow}
    (hr' : s'.db.deliveries.get t.row.deliveryId = some r') : InHand t r' := by
  have hrow := row_step h t.row.deliveryId
  rw [hr'] at hrow
  have hold := hk t ht
  have hother : ∀ t' ∈ s.tasks.rows, ∀ b, t'.row.deliveryId = t.row.deliveryId →
      a ≠ .task t'.tid b := by
    intro t' ht' b hd
    rw [hs t' ht' t ht hd]
    exact hne b
  have hdue : ∀ t' ∈ s.tasks.rows, ∀ due, t'.phase.due? = some due →
    due.deliveryId = t'.row.deliveryId :=
    fun t' ht' due hp => (hw.examined ht' hp).deliveryId
  generalize hr : s.db.deliveries.get t.row.deliveryId = old at hrow hold
  generalize hn : some r' = new at hrow
  cases hrow with
  | keep => subst hn; exact hold r' rfl
  | inserted p b u n hd => exact absurd (hw.tasks.id_lt hw.issued ht) (not_lt.mpr hd)
  | poisoned t' fault reason r ht' hp hd => exact absurd rfl (hother t' ht' _ hd)
  | locked t' fault due u r ht' hp hd =>
    exact absurd rfl (hother t' ht' _ ((hdue t' ht' due (by rw [hp]; rfl)).symm.trans hd))
  | wroteBack t' fault due u stmt r ht' hp hd =>
    exact absurd rfl (hother t' ht' _ ((hdue t' ht' due (by rw [hp]; rfl)).symm.trans hd))
  | swept maxCycles r hl =>
    obtain ⟨-, hdisp, -⟩ := externalPending_of_hungLimit hl
    simp [(hold r rfl).undispatched] at hdisp
  | retried r => exact absurd rfl (hretry _ rfl t ht)
  | completed r | abandoned r =>
    cases hn
    exact ⟨(hold r rfl).undispatched, (hold r rfl).attempts, (hold r rfl).lock⟩
  | deleted => cases hn

theorem inHand_own (hw : WF config s) (hk : Known s) {t₀ t : Task} (ht₀ : t₀ ∈ s.tasks.rows)
    {b : TaskAction} {obs : List Obs} (hrow : t.row = t₀.row)
    (h : TaskStep config s.now s.db t₀ b s'.db (some t.phase) obs) {r' : DeliveryRow}
    (hr' : s'.db.deliveries.get t.row.deliveryId = some r') : InHand t r' := by
  have hold := hk t₀ ht₀
  rw [hrow] at hr'
  generalize hdb : s'.db = db at h hr'
  generalize hph : some t.phase = phase at h
  cases h with
  | dropped | poisoned | lockPanicked | lockUnacked | lockRefused | wroteBack => cases hph
  | examined fault due hp | computeLock due u hp | deliver due u hp =>
    refine (hold r' hr').congr hrow ?_
    rw [Option.some.inj hph, hp]
    rfl
  | respond due u result jitter hp =>
    obtain ⟨stmt, -, hph⟩ := Option.map_eq_some_iff.mp hph.symm
    exact (hold r' hr').congr hrow (by rw [← hph, hp]; rfl)
  | lock due u hp hg =>
    have hid : due.deliveryId = t₀.row.deliveryId := (hw.examined ht₀ (by rw [hp]; rfl)).deliveryId
    rw [hid] at hg hr'
    obtain ⟨r, hr, hg⟩ := (Stmt.affects_iff _).mp hg
    rw [Stmt.get_exec, hr, Option.map_some, if_pos ⟨rfl, hg⟩] at hr'
    cases hr'
    have hin := hold r hr
    have hattempts : r.attempts = t₀.row.attempts := by simpa [hp, Phase.held?] using hin.attempts
    refine ⟨hin.undispatched, ?_, fun v hv => ?_⟩
    · rw [Option.some.inj hph, hrow]
      simp [Stmt.assign, Phase.held?, hattempts]
    · rw [Option.some.inj hph] at hv
      cases hv
      rfl

theorem known_step (hw : WF config s) (hs : Single s) (hk : Known s) (h : Step config s a s')
    (hretry : ∀ d, a = .retry d → ∀ t ∈ s.tasks.rows, t.row.deliveryId ≠ d) : Known s' := by
  intro t ht r' hr'
  rcases h.tasks ht with ⟨hold, hne⟩ | ⟨rfl, hp, -, -, r, hr, hdue, e, -, -, heq⟩ |
    ⟨t₀, ht₀, b, obs, -, heq, hst, -⟩
  · exact inHand_other hw hs hk h hretry hold hne hr'
  · have hsame : s'.db = s.db := by
      cases h
      rfl
    have hget : s.db.deliveries.get t.row.deliveryId = some r :=
      Table.get_eq_some_iff.mpr ⟨hr, by rw [heq]⟩
    rw [hsame, hget] at hr'
    cases hr'
    exact ⟨(isDue_iff_columns.mp hdue).1, by simp [heq, hp, Phase.held?],
      fun u hu => by simp [hp, Phase.held?] at hu⟩
  · exact inHand_own hw hk ht₀ (by rw [heq]) hst hr'

omit [Crates] in
theorem known_kill {r : ℕ} {tids : List ℕ} (hk : Known s) : Known (kill s r tids) := by
  intro t ht
  have hdb : (kill s r tids).db = s.db := by rw [kill_eq]
  rw [hdb]
  exact hk t (mem_tasks_kill.mp ht).1

end

section

variable [Crates] {config : LoopConfig} {now : Time} {c : Cluster}

end

end OutboxDispatcher.Replicas.Lone
