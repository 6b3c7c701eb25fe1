import OutboxDispatcher.Replicas.Effects

/-! # Whose task it is

Every task belongs to one replica, the one that has fetched its row, and is in the hands of it:
among the rows that are still to be examined, in the queue of the stream, or in progress. A step of
a replica leaves the tasks of the others alone (`Handover`).

So at most `dispatch_concurrency` of the tasks of a replica are between the start of `dispatch_one`
and its end, and a replica that is not in `dispatch_due` has none at all. -/

namespace OutboxDispatcher.Replicas.Ownership

open OutboxDispatcher.Lib.Buffered OutboxDispatcher.Lib.Runs OutboxDispatcher.Lib.Tables
open OutboxDispatcher.Schema OutboxDispatcher.Callbacks.Fields
open OutboxDispatcher.Repo.Statements OutboxDispatcher.Scheduler.Pass OutboxDispatcher.Dispatch
open OutboxDispatcher.System OutboxDispatcher.System.Effects OutboxDispatcher.System.History
open OutboxDispatcher.Replicas OutboxDispatcher.Replicas.Effects

/-! ### The tasks of a replica -/

/-- `dispatch_one` of the task has begun. -/
def started : Phase → Bool
  | .fetched | .ready _ => false
  | _ => true

/-- The task has come as far as its place says. -/
def InPlace : Stage → Task → Prop
  | .examining rows ready, t =>
    (t.tid ∈ rows → t.phase = .fetched) ∧ (t.tid ∈ ready → ∃ due, t.phase = .ready due)
  | .streaming stream, t =>
    (t.tid ∈ stream.queue → ∃ due, t.phase = .ready due) ∧
      (t.tid ∈ stream.running → started t.phase)
  | _, _ => True

/-- The places of a stage: no task has two, and the stream has room for what is in progress. -/
structure Orderly (n : ℕ) (stage : Stage) : Prop where
  nodup : stage.tasks.Nodup
  room : ∀ stream, stage = .streaming stream → stream.running.length ≤ n

structure Holding (n : ℕ) (s : Sys) (stage : Stage) : Prop where
  orderly : Orderly n stage
  task : ∀ tid ∈ stage.tasks, ∃ t ∈ s.tasks.rows, t.tid = tid
  inPlace : ∀ t ∈ s.tasks.rows, t.tid ∈ stage.tasks → InPlace stage t

structure Owned (config : LoopConfig) (c : Cluster) : Prop where
  holding : ∀ r p, c.replicas r = some p → Holding config.dispatch.dispatchConcurrency c.sys p.stage
  apart : ∀ r r' p p' tid, c.replicas r = some p → c.replicas r' = some p' → tid ∈ p.stage.tasks →
    tid ∈ p'.stage.tasks → r = r'
  owner : ∀ t ∈ c.sys.tasks.rows, ∃ r p, c.replicas r = some p ∧ t.tid ∈ p.stage.tasks

theorem orderly_of_nil {n : ℕ} {stage : Stage} (h : stage.tasks = []) : Orderly n stage := by
  refine ⟨by simp [h], fun stream hs => ?_⟩
  rw [hs] at h
  have hrun : stream.running = [] := (List.append_eq_nil_iff.mp h).2
  simp [hrun]

theorem holding_of_nil {n : ℕ} {s : Sys} {stage : Stage} (h : stage.tasks = []) :
    Holding n s stage :=
  ⟨orderly_of_nil h, by simp [h], by simp [h]⟩

theorem tasks_dispatchDone (config : LoopConfig) (now : Time) (p : Replica) :
    (p.dispatchDone config now).stage.tasks = [] := by
  unfold Replica.dispatchDone
  split_ifs <;> rfl

theorem tasks_examine (p : Replica) (rows ready : List ℕ) :
    (p.examine rows ready).stage.tasks = rows ++ ready := by
  unfold Replica.examine
  cases rows with
  | nil => simp [Stage.tasks, Buffer.items]
  | cons tid rows => rfl

/-! ### What a step does to the tasks -/

/-- A step of a replica: the tasks that are not its own stay as they are, and it has the others. -/
structure Handover (n : ℕ) (s : Sys) (stage : Stage) (s' : Sys) (p' : Option Replica) : Prop where
  frame : ∀ t ∈ s.tasks.rows, t.tid ∉ stage.tasks → t ∈ s'.tasks.rows
  origin : ∀ t ∈ s'.tasks.rows,
    (t ∈ s.tasks.rows ∧ t.tid ∉ stage.tasks) ∨ ∃ p₁, p' = some p₁ ∧ t.tid ∈ p₁.stage.tasks
  fresh : ∀ p₁, p' = some p₁ → ∀ tid ∈ p₁.stage.tasks, tid ∈ stage.tasks ∨ s.nextTid ≤ tid
  holding : ∀ p₁, p' = some p₁ → Holding n s' p₁.stage

variable {n : ℕ} {s s' : Sys} {stage : Stage} {p₁ : Replica}

theorem handover_keep (ht : s'.tasks = s.tasks) (hp : p₁.stage.tasks = stage.tasks)
    (hh : Holding n s' p₁.stage) : Handover n s stage s' (some p₁) where
  frame t hm _ := by rw [ht]; exact hm
  origin t hm := by
    rw [ht] at hm
    by_cases hown : t.tid ∈ stage.tasks
    · exact .inr ⟨p₁, rfl, hp ▸ hown⟩
    · exact .inl ⟨hm, hown⟩
  fresh p hp' tid hm := by
    cases hp'
    exact .inl (hp ▸ hm)
  holding p hp' := by
    cases hp'
    exact hh

theorem handover_idle (ht : s'.tasks = s.tasks) (hs : stage.tasks = []) (hp : p₁.stage.tasks = []) :
    Handover n s stage s' (some p₁) :=
  handover_keep ht (hp.trans hs.symm) (holding_of_nil hp)

theorem handover_kill (r : ℕ) : Handover n s stage (kill s r stage.tasks) none where
  frame _ hm hown := mem_tasks_kill.mpr ⟨hm, hown⟩
  origin _ hm := .inl (mem_tasks_kill.mp hm)
  fresh _ hp := nomatch hp
  holding _ hp := nomatch hp

theorem alive_iff {tid : ℕ} : alive s tid ↔ ∃ t ∈ s.tasks.rows, t.tid = tid := by
  unfold alive
  constructor
  · intro h
    obtain ⟨t, ht⟩ := Option.isSome_iff_exists.mp h
    exact ⟨t, Table.mem_of_get ht, Table.key_of_get ht⟩
  · rintro ⟨t, ht, rfl⟩
    rw [Table.get_of_mem ht]
    rfl

section

variable [Crates] {config : DispatchConfig} {tid : ℕ} {b : TaskAction}

theorem mem_tasks_of_ne (h : System.step config s (.task tid b) = some s') {t : Task}
    (hne : t.tid ≠ tid) : t ∈ s'.tasks.rows ↔ t ∈ s.tasks.rows := by
  have hstep := step_cases h
  constructor
  · intro ht
    rcases hstep.tasks ht with ⟨hold, -⟩ | ⟨hf, -⟩ | ⟨t₀, -, b', -, ha, heq, -⟩
    · exact hold
    · cases hf
    · cases ha
      exact absurd (congrArg Task.tid heq) hne
  · exact fun ht => hstep.tasks_of_ne ht fun b' ha => hne (Action.task.inj ha).1.symm

theorem taskStep_of_step (h : System.step config s (.task tid b) = some s') {t : Task}
    (ht : t ∈ s'.tasks.rows) (htid : t.tid = tid) : ∃ t₀ ∈ s.tasks.rows, t₀.tid = tid ∧ ∃ db' obs,
      TaskStep config s.now s.db t₀ b db' (some t.phase) obs := by
  rcases (step_cases h).tasks ht with ⟨-, hne⟩ | ⟨hf, -⟩ | ⟨t₀, ht₀, b', obs, ha, -, hs, -⟩
  · exact absurd (by rw [htid]) (hne b)
  · cases hf
  · cases ha
    exact ⟨t₀, ht₀, rfl, _, obs, hs⟩

/-- A task of the replica makes a step, and keeps or gives up its place. -/
theorem handover_task (h : System.step config s (.task tid b) = some s') (hh : Holding n s stage)
    (hm : tid ∈ stage.tasks)
    (hset : ∀ x, x ∈ p₁.stage.tasks ↔ x ∈ stage.tasks ∧ (x = tid → alive s' tid))
    (ho : Orderly n p₁.stage)
    (hother : ∀ t, t.tid ≠ tid → t.tid ∈ p₁.stage.tasks → InPlace stage t → InPlace p₁.stage t)
    (hown : ∀ t₀ ∈ s.tasks.rows, t₀.tid = tid → InPlace stage t₀ → ∀ t db' obs, t.tid = tid →
      TaskStep config s.now s.db t₀ b db' (some t.phase) obs → InPlace p₁.stage t) :
    Handover n s stage s' (some p₁) where
  frame t ht hnot := (mem_tasks_of_ne h (fun heq => hnot (heq ▸ hm))).mpr ht
  origin t ht := by
    by_cases htid : t.tid = tid
    · exact .inr ⟨p₁, rfl, (hset _).mpr ⟨htid ▸ hm, fun _ => alive_iff.mpr ⟨t, ht, htid⟩⟩⟩
    · have hold := (mem_tasks_of_ne h htid).mp ht
      by_cases hin : t.tid ∈ stage.tasks
      · exact .inr ⟨p₁, rfl, (hset _).mpr ⟨hin, fun heq => absurd heq htid⟩⟩
      · exact .inl ⟨hold, hin⟩
  fresh p hp x hx := by
    cases hp
    exact .inl ((hset x).mp hx).1
  holding p hp := by
    cases hp
    refine ⟨ho, fun x hx => ?_, fun t ht hin => ?_⟩
    · obtain ⟨hin, halive⟩ := (hset x).mp hx
      by_cases hxt : x = tid
      · obtain ⟨t, ht, htid⟩ := alive_iff.mp (halive hxt)
        exact ⟨t, ht, htid.trans hxt.symm⟩
      · obtain ⟨t, ht, rfl⟩ := hh.task x hin
        exact ⟨t, (mem_tasks_of_ne h hxt).mpr ht, rfl⟩
    · by_cases htid : t.tid = tid
      · obtain ⟨t₀, ht₀, htid₀, db', obs, hs⟩ := taskStep_of_step h ht htid
        exact hown t₀ ht₀ htid₀ (hh.inPlace t₀ ht₀ (htid₀ ▸ hm)) t db' obs htid hs
      · have hold := (mem_tasks_of_ne h htid).mp ht
        exact hother t htid hin (hh.inPlace t hold ((hset _).mp hin).1)

theorem ready_of_examine {now : Time} {db db' : Repo.Database.Db} {t : Task} {fault : Fault}
    {q : Phase} {obs : List Obs} (h : TaskStep config now db t (.examine fault) db' (some q) obs) :
    ∃ due, q = .ready due := by
  generalize hq : some q = o at h
  cases h with
  | examined fault due hp hx => cases hq; exact ⟨due, rfl⟩
  | _ => cases hq

/-- Once `dispatch_one` has begun it goes on. -/
theorem started_of_taskStep {now : Time} {db db' : Repo.Database.Db} {t : Task} {q : Phase}
    {obs : List Obs}
    (h : TaskStep config now db t b db' (some q) obs) (hb : b = .computeLock ∨ started t.phase) :
    started q := by
  generalize hq : some q = o at h
  cases h with
  | examined fault due hp hx =>
    rcases hb with hb | hb
    · cases hb
    · rw [hp] at hb
      cases hb
  | computeLock due u hp => cases hq; rfl
  | lock due u hp => cases hq; rfl
  | deliver due u hp => cases hq; rfl
  | respond due u result jitter hp =>
    obtain ⟨stmt, -, rfl⟩ := Option.map_eq_some_iff.mp hq.symm
    rfl
  | _ => cases hq

theorem handover_examine {p : Replica} {fault : Fault} {rows ready : List ℕ}
    (h : System.step config s (.task tid (.examine fault)) = some s')
    (hh : Holding n s (.examining (tid :: rows) ready)) :
    Handover n s (.examining (tid :: rows) ready) s'
      (some (p.examine rows (if alive s' tid then ready ++ [tid] else ready))) := by
  have hnodup : (tid :: (rows ++ ready)).Nodup := hh.orderly.nodup
  rw [List.nodup_cons] at hnodup
  have hset :
      ∀ x, x ∈ (p.examine rows (if alive s' tid then ready ++ [tid] else ready)).stage.tasks ↔
      x ∈ (Stage.examining (tid :: rows) ready).tasks ∧ (x = tid → alive s' tid) := by
    intro x
    rw [tasks_examine]
    simp only [Stage.tasks, List.cons_append, List.mem_cons, List.mem_append]
    have hne : (x ∈ rows ∨ x ∈ ready) → x ≠ tid :=
      fun hx heq => hnodup.1 (heq ▸ List.mem_append.mpr hx)
    split_ifs with ha
    · simp only [List.mem_append, List.mem_singleton]
      tauto
    · tauto
  have hplace : ∀ t, (t.tid ∈ rows → t.phase = .fetched) →
      (t.tid ∈ (if alive s' tid then ready ++ [tid] else ready) → ∃ due, t.phase = .ready due) →
      InPlace (p.examine rows (if alive s' tid then ready ++ [tid] else ready)).stage t := by
    intro t hrows hready
    unfold Replica.examine
    cases rows with
    | nil => exact ⟨hready, by simp⟩
    | cons x rows => exact ⟨hrows, hready⟩
  refine handover_task h hh (by simp [Stage.tasks]) hset ⟨?_, fun stream hs => ?_⟩ ?_ ?_
  · rw [tasks_examine]
    split_ifs with ha
    · rw [← List.append_assoc]
      exact (List.perm_append_singleton tid _).nodup_iff.mpr (List.nodup_cons.mpr hnodup)
    · exact hnodup.2
  · unfold Replica.examine at hs
    cases rows with
    | nil => cases hs; simp
    | cons x rows => cases hs
  · intro t htid _ hold
    refine hplace t (fun hm => hold.1 (List.mem_cons_of_mem _ hm)) fun hm => hold.2 ?_
    split_ifs at hm with ha
    · exact (List.mem_append.mp hm).resolve_right fun hx => htid (List.mem_singleton.mp hx)
    · exact hm
  · rintro t₀ - htid₀ - t db' obs htid hs
    refine hplace t (fun hm => ?_) fun _ => ready_of_examine hs
    exact absurd (List.mem_append_left _ (htid ▸ hm)) hnodup.1

theorem handover_start {p : Replica} {stream stream' : Buffer ℕ}
    (hn : stream.start n = some (tid, stream'))
    (h : System.step config s (.task tid .computeLock) = some s') (ha : alive s' tid)
    (hh : Holding n s (.streaming stream)) :
    Handover n s (.streaming stream) s' (some { p with stage := .streaming stream' }) := by
  obtain ⟨-, hq, hr⟩ := Buffer.start_eq_some hn
  have hperm : stream'.items.Perm stream.items := Buffer.perm_start hn
  have hnodup : stream.items.Nodup := hh.orderly.nodup
  refine handover_task h hh ?_ (fun x => ?_) ⟨hperm.nodup_iff.mpr hnodup, ?_⟩ ?_ ?_
  · show tid ∈ stream.queue ++ stream.running
    simp [hq]
  · show x ∈ stream'.items ↔ x ∈ stream.items ∧ _
    rw [hperm.mem_iff]
    exact ⟨fun hx => ⟨hx, fun _ => ha⟩, fun hx => hx.1⟩
  · rintro _ ⟨⟩
    exact Buffer.length_running_start hn
  · intro t htid hin hold
    refine ⟨fun hm => hold.1 (by simp [hq, hm]), fun hm => hold.2 ?_⟩
    rw [hr, List.mem_append, List.mem_singleton] at hm
    exact hm.resolve_right htid
  · rintro t₀ - - - t db' obs htid hs
    refine ⟨fun hm => ?_, fun _ => started_of_taskStep hs (.inl rfl)⟩
    have hitems : (tid :: (stream'.queue ++ stream.running)).Nodup := by
      rw [Buffer.items, hq] at hnodup
      exact hnodup
    exact absurd (List.mem_append_left _ (htid ▸ hm)) (List.nodup_cons.mp hitems).1

theorem handover_advance {p : Replica} {stream : Buffer ℕ} (hp : p.stage = .streaming stream)
    (hm : tid ∈ stream.running) (h : System.step config s (.task tid b) = some s')
    (ha : alive s' tid)
    (hh : Holding n s (.streaming stream)) : Handover n s (.streaming stream) s' (some p) := by
  have hitems : tid ∈ stream.items := List.mem_append_right _ hm
  have hdisj := (List.nodup_append.mp hh.orderly.nodup).2.2
  refine handover_task h hh hitems (fun x => ?_) (hp ▸ hh.orderly) ?_ ?_
  · rw [hp]
    exact ⟨fun hx => ⟨hx, fun _ => ha⟩, fun hx => hx.1⟩
  · intro t _ _ hold
    rw [hp]
    exact hold
  · rintro t₀ - htid₀ hold t db' obs htid hs
    rw [hp]
    refine ⟨fun hq => ?_, fun _ => started_of_taskStep hs (.inr (hold.2 (htid₀ ▸ hm)))⟩
    exact absurd rfl (hdisj tid (htid ▸ hq) tid hm)

theorem handover_finish {p : Replica} {stream : Buffer ℕ} (hm : tid ∈ stream.running)
    (h : System.step config s (.task tid b) = some s') (ha : alive s' tid = false)
    (hh : Holding n s (.streaming stream)) : Handover n s (.streaming stream) s'
    (some { p with stage := .streaming (stream.finish tid) }) := by
  have hnodup : stream.items.Nodup := hh.orderly.nodup
  refine handover_task h hh (List.mem_append_right _ hm) (fun x => ?_)
    ⟨Buffer.nodup_finish hnodup, ?_⟩ ?_ ?_
  · show x ∈ (stream.finish tid).items ↔ x ∈ stream.items ∧ _
    rw [Buffer.mem_items_finish hnodup hm, ha]
    simp
  · rintro _ ⟨⟩
    exact Buffer.length_running_finish (hh.orderly.room stream rfl)
  · intro t htid _ hold
    exact ⟨hold.1, fun hr => hold.2 (List.mem_of_mem_filter hr)⟩
  · rintro t₀ - - - t db' obs htid -
    refine ⟨fun hq => ?_, fun hr => ?_⟩
    · exact absurd rfl ((List.nodup_append.mp hnodup).2.2 tid (htid ▸ hq) tid hm)
    · exact absurd htid (of_decide_eq_true (List.mem_filter.mp hr).2)

theorem handover_panic {r : ℕ} {tids : List ℕ} (h : System.step config s (.task tid b) = some s')
    (hm : tid ∈ stage.tasks) (htids : tids.Perm stage.tasks) :
    Handover n s stage (kill s' r tids) none where
  frame t ht hown := by
    refine mem_tasks_kill.mpr ⟨?_, fun hin => hown (htids.mem_iff.mp hin)⟩
    exact (mem_tasks_of_ne h fun heq => hown (heq ▸ hm)).mpr ht
  origin t ht := by
    obtain ⟨ht, hin⟩ := mem_tasks_kill.mp ht
    have hown : t.tid ∉ stage.tasks := fun hx => hin (htids.mem_iff.mpr hx)
    exact .inl ⟨(mem_tasks_of_ne h fun heq => hown (heq ▸ hm)).mp ht, hown⟩
  fresh _ hp := nomatch hp
  holding _ hp := nomatch hp

omit [Crates] in
theorem mem_addTasks_of_fresh {t : Task} : ∀ {tasks : Table Task.tid} (ts : List Task),
    (ts.map (·.tid)).Nodup → (∀ t' ∈ tasks.rows, ∀ t ∈ ts, t'.tid ≠ t.tid) → t ∈ ts →
      t ∈ (addTasks tasks ts).rows
  | _, [], _, _, h => nomatch h
  | tasks, x :: ts, hnodup, hfresh, h => by
    rw [List.map_cons, List.nodup_cons] at hnodup
    have hx : ∀ t' ∈ tasks.rows, t'.tid ≠ x.tid := fun t' ht' => hfresh t' ht' x (by simp)
    unfold addTasks
    rw [dif_pos hx]
    rcases List.mem_cons.mp h with rfl | h
    · exact mem_addTasks_of_mem ts (by simp)
    · refine mem_addTasks_of_fresh ts hnodup.2 (fun t' ht' t₁ ht₁ => ?_) h
      rw [Table.rows_push, List.mem_append, List.mem_singleton] at ht'
      rcases ht' with ht' | rfl
      · exact hfresh t' ht' t₁ (List.mem_cons_of_mem _ ht₁)
      · exact fun heq => hnodup.1 (List.mem_map.mpr ⟨t₁, ht₁, heq.symm⟩)

omit [Crates] in
theorem tids_newTasks (first : ℕ) (rows : List DueDeliveryRow) :
    (newTasks first rows).map (·.tid) = List.range' first rows.length := by
  unfold newTasks
  rw [List.map_map]
  refine List.ext_getElem (by simp) fun i hi hi' => ?_
  simp

omit [Crates] in
theorem mem_addTasks_newTasks (hlt : ∀ t ∈ s.tasks.rows, t.tid < s.nextTid)
    {rows : List DueDeliveryRow} {t : Task} (ht : t ∈ newTasks s.nextTid rows) :
    t ∈ (addTasks s.tasks (newTasks s.nextTid rows)).rows := by
  refine mem_addTasks_of_fresh _ ?_ (fun t' ht' t₁ ht₁ => ?_) ht
  · rw [tids_newTasks]
    exact List.nodup_range'
  · have hold := hlt t' ht'
    have hle := (mem_newTasks ht₁).1
    omega

omit [Crates] in
theorem exists_task_of_fetched (hlt : ∀ t ∈ s.tasks.rows, t.tid < s.nextTid)
    {rows : List DueDeliveryRow} {row : DueDeliveryRow} (h : row ∈ rows) :
    ∃ t ∈ (addTasks s.tasks (newTasks s.nextTid rows)).rows,
      t.tid ∈ List.range' s.nextTid rows.length ∧ t.row = row := by
  obtain ⟨i, hi, rfl⟩ := List.getElem_of_mem h
  have ht : (⟨s.nextTid + i, rows[i], .fetched⟩ : Task) ∈ newTasks s.nextTid rows :=
    List.mem_map.mpr ⟨(rows[i], i), List.mk_mem_zipIdx_iff_getElem?.mpr (by simp), rfl⟩
  exact ⟨_, mem_addTasks_newTasks hlt ht,
    List.mem_range'_1.mpr ⟨Nat.le_add_right _ _, by simpa using hi⟩, rfl⟩

/-- The numbers that a fetch has given out are those of its tasks. -/
theorem exists_task_of_fetch (hlt : ∀ t ∈ s.tasks.rows, t.tid < s.nextTid)
    (h : Step config s .fetch s') {x : ℕ}
    (hx : x ∈ List.range' s.nextTid (s'.nextTid - s.nextTid)) : ∃ t ∈ s'.tasks.rows, t.tid = x := by
  cases h with
  | fetch rows hsel =>
    have hx' : x ∈ (newTasks s.nextTid rows).map (·.tid) := by
      rw [tids_newTasks]
      simpa using hx
    obtain ⟨t, ht, rfl⟩ := List.mem_map.mp hx'
    exact ⟨t, mem_addTasks_newTasks hlt ht, rfl⟩

theorem tasks_of_fetch (h : Step config s .fetch s') {t : Task} (ht : t ∈ s'.tasks.rows) :
    t ∈ s.tasks.rows ∨ (t.phase = .fetched ∧ s.nextTid ≤ t.tid ∧ t.tid < s'.nextTid) := by
  rcases h.tasks ht with ⟨hold, -⟩ | ⟨-, hp, hle, hlt, -⟩ | ⟨t₀, -, b, -, ha, -⟩
  · exact .inl hold
  · exact .inr ⟨hp, hle, hlt⟩
  · cases ha

theorem handover_fetch {p : Replica} (hlt : ∀ t ∈ s.tasks.rows, t.tid < s.nextTid)
    (h : System.step config s .fetch = some s') (hs : stage.tasks = []) :
    Handover n s stage s' (some (p.examine (.range' s.nextTid (s'.nextTid - s.nextTid)) [])) := by
  have hstep := step_cases h
  have htasks : (p.examine (.range' s.nextTid (s'.nextTid - s.nextTid)) []).stage.tasks =
      .range' s.nextTid (s'.nextTid - s.nextTid) := by rw [tasks_examine, List.append_nil]
  have hrange : ∀ {x}, x ∈ List.range' s.nextTid (s'.nextTid - s.nextTid) ↔
      s.nextTid ≤ x ∧ x < s'.nextTid := by
    intro x
    rw [List.mem_range'_1]
    omega
  refine ⟨fun t ht _ => hstep.tasks_of_ne ht (by simp), fun t ht => ?_, ?_, ?_⟩
  · rcases tasks_of_fetch hstep ht with hold | ⟨-, hnew⟩
    · exact .inl ⟨hold, by simp [hs]⟩
    · exact .inr ⟨_, rfl, by rw [htasks]; exact hrange.mpr hnew⟩
  · rintro _ ⟨⟩ x hx
    rw [htasks] at hx
    exact .inr (hrange.mp hx).1
  · rintro _ ⟨⟩
    refine ⟨⟨by rw [htasks]; exact List.nodup_range', fun stream hst => ?_⟩, fun x hx => ?_,
      fun t ht hx => ?_⟩
    · unfold Replica.examine at hst
      dsimp only at hst
      split_ifs at hst
      cases hst
      simp
    · rw [htasks] at hx
      exact exists_task_of_fetch hlt hstep hx
    · rw [htasks] at hx
      have hphase : t.phase = .fetched := by
        rcases tasks_of_fetch hstep ht with hold | ⟨hp, -⟩
        · have hold' := hlt t hold
          have hle := (hrange.mp hx).1
          omega
        · exact hp
      unfold Replica.examine
      dsimp only
      split_ifs with he
      · rw [List.isEmpty_iff.mp he] at hx
        cases hx
      · exact ⟨fun _ => hphase, by simp⟩

/-- Only fetches and steps of tasks touch the tasks. -/
theorem tasks_of_step {a : System.Action} (h : System.step config s a = some s') (hf : a ≠ .fetch)
    (ht : ∀ tid b, a ≠ .task tid b) : s'.tasks = s.tasks := by
  cases step_cases h with
  | fetch => exact absurd rfl hf
  | task t b => exact absurd rfl (ht t.tid b)
  | _ => rfl

end

/-! ### Every run -/

section

variable [Crates] {config : LoopConfig}

/-- **A step of a replica** hands its tasks over. -/
theorem handover_of_step {r : ℕ} {p : Replica} {a : Act} {p' : Option Replica}
    (hlt : ∀ t ∈ s.tasks.rows, t.tid < s.nextTid) (h : ReplicaStep config r s p a s' p')
    (hh : Holding config.dispatch.dispatchConcurrency s p.stage) :
    Handover config.dispatch.dispatchConcurrency s p.stage s' p' := by
  have hkeep : ∀ {b : System.Action}, System.step config.dispatch s b = some s' → b ≠ .fetch →
      (∀ tid a, b ≠ .task tid a) → s'.tasks = s.tasks := fun hs => tasks_of_step hs
  cases h with
  | cancel | drained => exact handover_keep rfl rfl hh
  | crash => exact handover_kill r
  | stop hp => rw [hp]; exact handover_kill r
  | recv ok hp | pollTimer hp | drainEnded hp | passEmpty cursor hp | fetchNewFailed ok cursor hp
  | wake wakeAt hp
  | sweepFailed fault hp => rw [hp]; exact handover_idle rfl rfl rfl
  | passStarted cursor e rest s' hp hc he hs | wrote fault c l s' hp hs
  | nextEvent c l s' hp hs =>
    rw [hp]
    exact handover_idle (hkeep hs (by simp) (by simp)) rfl (by rw [hp]; rfl)
  | writeFailed fault s' hp hs | passDone s' hp hs | swept fault s' hp hf hs =>
    rw [hp]
    exact handover_idle (hkeep hs (by simp) (by simp)) rfl rfl
  | fetchDueFailed ok hp => rw [hp]; exact handover_idle rfl rfl (tasks_dispatchDone _ _ _)
  | streamDone stream hp hd => rw [hp]; exact handover_idle rfl hd (tasks_dispatchDone _ _ _)
  | fetchDue s' hp hs => exact handover_fetch hlt hs (by rw [hp]; rfl)
  | examined tid fault rows ready s' hp hs =>
    rw [hp] at hh ⊢
    exact handover_examine hs hh
  | started tid stream stream' s' hp hst hs ha =>
    rw [hp] at hh ⊢
    exact handover_start hst hs ha hh
  | startPanicked tid stream stream' s' hp hst hs =>
    rw [hp]
    have hq := (Buffer.start_eq_some hst).2.1
    exact handover_panic hs (by simp [Stage.tasks, Buffer.items, hq]) (Buffer.perm_start hst)
  | advanced tid a stream s' hp hm hs ha =>
    rw [hp] at hh ⊢
    exact handover_advance hp hm hs ha hh
  | responsePanicked tid result jitter stream s' hp hm hs =>
    rw [hp]
    exact handover_panic hs (List.mem_append_right _ hm) (.refl _)
  | finished tid a stream s' hp hm hst hs ha =>
    rw [hp] at hh ⊢
    exact handover_finish hm hs ha hh

omit [Crates] in
theorem Holding.congr (h : Holding n s stage) (ht : s'.tasks = s.tasks) : Holding n s' stage := by
  refine ⟨h.orderly, ?_, ?_⟩ <;> rw [ht]
  · exact h.task
  · exact h.inPlace

omit [Crates] in
/-- What a replica hands over does not concern the others. -/
theorem owned_of_handover {c : Cluster} {r : ℕ} {p' : Option Replica}
    (hlt : ∀ t ∈ c.sys.tasks.rows, t.tid < c.sys.nextTid) (hi : Owned config c)
    (hr : ∀ tid, tid ∈ stage.tasks ↔ ∃ p, c.replicas r = some p ∧ tid ∈ p.stage.tasks)
    (h : Handover config.dispatch.dispatchConcurrency c.sys stage s' p') :
    Owned config { sys := s', replicas := Function.update c.replicas r p' } := by
  have hforeign : ∀ r' p tid, r' ≠ r → c.replicas r' = some p → tid ∈ p.stage.tasks →
      tid ∉ stage.tasks ∧ tid < c.sys.nextTid := by
    intro r' p tid hne hp hm
    constructor
    · intro hin
      obtain ⟨p₀, hp₀, hin⟩ := (hr tid).mp hin
      exact hne (hi.apart r' r p p₀ tid hp hp₀ hm hin)
    · obtain ⟨t, ht, rfl⟩ := (hi.holding r' p hp).task tid hm
      exact hlt t ht
  have hfresh : ∀ r' p p₁ tid, r' ≠ r → c.replicas r' = some p → tid ∈ p.stage.tasks →
      p' = some p₁ → tid ∉ p₁.stage.tasks := by
    intro r' p p₁ tid hne hp hm hp₁ hin
    obtain ⟨hnot, hlt'⟩ := hforeign r' p tid hne hp hm
    rcases h.fresh p₁ hp₁ tid hin with hin | hle
    · exact hnot hin
    · omega
  refine ⟨fun r' p hp => ?_, fun r₁ r₂ p₁ p₂ tid h₁ h₂ hm₁ hm₂ => ?_, fun t ht => ?_⟩
  · by_cases hrr : r' = r
    · subst hrr
      exact h.holding p (by simpa using hp)
    · have hp : c.replicas r' = some p := by simpa [hrr] using hp
      have hold := hi.holding r' p hp
      refine ⟨hold.orderly, fun tid hm => ?_, fun t ht hm => ?_⟩
      · obtain ⟨t, ht, rfl⟩ := hold.task tid hm
        exact ⟨t, h.frame t ht (hforeign r' p t.tid hrr hp hm).1, rfl⟩
      · rcases h.origin t ht with ⟨ht, -⟩ | ⟨p₁, hp₁, hin⟩
        · exact hold.inPlace t ht hm
        · exact absurd hin (hfresh r' p p₁ t.tid hrr hp hm hp₁)
  · by_cases hr₁ : r₁ = r <;> by_cases hr₂ : r₂ = r
    · rw [hr₁, hr₂]
    · subst hr₁
      exact absurd hm₁ (hfresh r₂ p₂ p₁ tid hr₂ (by simpa [hr₂] using h₂) hm₂ (by simpa using h₁))
    · subst hr₂
      exact absurd hm₂ (hfresh r₁ p₁ p₂ tid hr₁ (by simpa [hr₁] using h₁) hm₁ (by simpa using h₂))
    · exact hi.apart r₁ r₂ p₁ p₂ tid (by simpa [hr₁] using h₁) (by simpa [hr₂] using h₂) hm₁ hm₂
  · rcases h.origin t ht with ⟨ht, hnot⟩ | ⟨p₁, rfl, hin⟩
    · obtain ⟨r', p, hp, hm⟩ := hi.owner t ht
      have hne : r' ≠ r := by
        rintro rfl
        exact hnot ((hr _).mpr ⟨p, hp, hm⟩)
      exact ⟨r', p, by simpa [hne] using hp, hm⟩
    · exact ⟨r, p₁, by simp, hin⟩

theorem owned_step {c c' : Cluster} {a : Action}
    (hlt : ∀ t ∈ c.sys.tasks.rows, t.tid < c.sys.nextTid)
    (hi : Owned config c) (h : ClusterStep config c a c') : Owned config c' := by
  cases h with
  | outside a s ha hs =>
    have ht : s.tasks = c.sys.tasks :=
      tasks_of_step hs (by rintro rfl; cases ha) (by rintro _ _ rfl; cases ha)
    exact ⟨fun r p hr => (hi.holding r p hr).congr ht, hi.apart, fun t hm => hi.owner t (ht ▸ hm)⟩
  | rescan k a s hk ha hs =>
    have ht : s.tasks = c.sys.tasks := tasks_of_step hs (by simp) (by simp)
    exact ⟨fun r p hr => (hi.holding r p hr).congr ht, hi.apart, fun t hm => hi.owner t (ht ▸ hm)⟩
  | start r s hr hs =>
    have ht : s.tasks = c.sys.tasks := tasks_of_step hs (by simp) (by simp)
    refine owned_of_handover hlt hi (fun tid => ?_) (@handover_idle _ _ _ .waiting _ ht rfl rfl)
    simp [hr, Stage.tasks]
  | replica r a p s p' hr hs =>
    refine owned_of_handover hlt hi (fun tid => ?_) (handover_of_step hlt hs (hi.holding r p hr))
    simp [hr]

omit [Crates] in
theorem owned_boot (now : Time) : Owned config (boot now) where
  holding _ _ hr := nomatch hr
  apart _ _ _ _ _ hr := nomatch hr
  owner _ ht := nomatch ht

omit [Crates] in
theorem quiet_down : Quiet fun _ => .down := fun _ _ _ h => nomatch h

theorem wf_of_cluster {now : Time} {c : Cluster} {ok : Cluster → Action → Cluster → Prop}
    (h : Run (step config) ok (boot now) c) : WF config.dispatch c.sys :=
  wf_of_run (wf_init now quiet_down) (system_run h)

/-- **Every task has its replica**, in every state of every run. -/
theorem owned_of_run {now : Time} {c : Cluster} {ok : Cluster → Action → Cluster → Prop}
    (h : Run (step config) ok (boot now) c) : Owned config c := by
  induction h with
  | refl => exact owned_boot now
  | tail h hs _ ih => exact owned_step (wf_of_cluster h).tasks.tid_lt ih (clusterStep_of_step hs)

/-- **Invariants of the system under the processes**: what every step keeps that some process or the
outside makes, and what does not need the tasks of a process that ends. -/
theorem system_invariant {now : Time} {c : Cluster} {ok : Cluster → Action → Cluster → Prop}
    (I : Sys → Prop) (h0 : I (boot now).sys) (hkill : ∀ s r tids, I s → I (kill s r tids))
    (hstep : ∀ c a c' b s', Run (step config) ok (boot now) c → ok c a c' → Cause c a b → I c.sys →
      Step config.dispatch c.sys b s' → I s') (h : Run (step config) ok (boot now) c) :
      I c.sys := by
  induction h with
  | refl => exact h0
  | tail h hs ho ih =>
    exact (clusterStep_of_step hs).moves.invariant I ih (fun b s' hb hst =>
      hstep _ _ _ b s' h ho hb ih hst) fun s => hkill s _

/-- **The processes are part of the system.** Whatever replicas and rescans do, the system can do;
and each task is in the hands of one replica, which still runs. -/
theorem processes_refine_system {now : Time} {c : Cluster} {ok : Cluster → Action → Cluster → Prop}
    (h : Run (step config) ok (boot now) c) :
    Run (System.step config.dispatch) anyStep (init now fun _ => .down) c.sys ∧
      (∀ t ∈ c.sys.tasks.rows, ∃! r, ∃ p, c.replicas r = some p ∧ t.tid ∈ p.stage.tasks) ∧
      ∀ r p tid, c.replicas r = some p → tid ∈ p.stage.tasks → ∃ t ∈ c.sys.tasks.rows,
      t.tid = tid := by
  have hi := owned_of_run h
  refine ⟨system_run h, fun t ht => ?_, fun r p tid hp => (hi.holding r p hp).task tid⟩
  obtain ⟨r, p, hp, hm⟩ := hi.owner t ht
  exact ⟨r, ⟨p, hp, hm⟩, fun r' ⟨p', hp', hm'⟩ => hi.apart r' r p' p t.tid hp' hp hm' hm⟩

/-! ### Bounded concurrency -/

/-- How many tasks of a replica are between the start of `dispatch_one` and its end. -/
def inProgress (s : Sys) (p : Replica) : ℕ :=
  s.tasks.rows.countP fun t => started t.phase && decide (t.tid ∈ p.stage.tasks)

omit [Crates] in
theorem mem_running {t : Task} (h : InPlace stage t) (hs : started t.phase)
    (hm : t.tid ∈ stage.tasks) : ∃ stream, stage = .streaming stream ∧ t.tid ∈ stream.running := by
  have hready : ¬∃ due, t.phase = .ready due := by
    rintro ⟨due, hp⟩
    rw [hp] at hs
    cases hs
  cases stage with
  | examining rows ready =>
    rcases List.mem_append.mp hm with hm | hm
    · rw [h.1 hm] at hs
      cases hs
    · exact absurd (h.2 hm) hready
  | streaming stream =>
    rcases List.mem_append.mp hm with hm | hm
    · exact absurd (h.1 hm) hready
    · exact ⟨stream, rfl, hm⟩
  | _ => cases hm

omit [Crates] in
theorem inProgress_le {p : Replica} (h : Holding n s p.stage) : inProgress s p ≤ n := by
  unfold inProgress
  rw [List.countP_eq_length_filter]
  have hrun : ∀ t ∈ s.tasks.rows.filter fun t => started t.phase && decide (t.tid ∈ p.stage.tasks),
      ∃ stream, p.stage = .streaming stream ∧ t.tid ∈ stream.running := by
    intro t ht
    obtain ⟨ht, hc⟩ := List.mem_filter.mp ht
    rw [Bool.and_eq_true, decide_eq_true_eq] at hc
    exact mem_running (h.inPlace t ht hc.2) hc.1 hc.2
  generalize hl : (s.tasks.rows.filter fun t => started t.phase && decide (t.tid ∈ p.stage.tasks)) =
    l at hrun
  have hnodup : (l.map (·.tid)).Nodup := by
    rw [← hl]
    exact (List.filter_sublist.map _).nodup s.tasks.nodup
  cases l with
  | nil => exact Nat.zero_le _
  | cons t l =>
    -- all of them are in the one stream, under different ids
    obtain ⟨stream, hs, -⟩ := hrun t (by simp)
    have hsub : (t :: l).map (·.tid) ⊆ stream.running := by
      intro tid htid
      obtain ⟨t', ht', rfl⟩ := List.mem_map.mp htid
      obtain ⟨stream', hs', hm⟩ := hrun t' ht'
      rw [hs] at hs'
      cases hs'
      exact hm
    calc (t :: l).length = ((t :: l).map (·.tid)).length := (List.length_map _).symm
      _ ≤ stream.running.length := (hnodup.subperm hsub).length_le
      _ ≤ n := h.orderly.room stream hs

/-- **Bounded concurrency.** In every state that the processes reach, at most `dispatch_concurrency`
tasks of a replica are in progress, and so of `k` replicas together at most `k` times as many. -/
theorem concurrency_bounded {now : Time} {c : Cluster} {ok : Cluster → Action → Cluster → Prop}
    (h : Run (step config) ok (boot now) c) :
    (∀ r p, c.replicas r = some p → inProgress c.sys p ≤ config.dispatch.dispatchConcurrency) ∧
      ∀ R : Finset ℕ, (∀ r p, c.replicas r = some p → r ∈ R) →
        c.sys.tasks.rows.countP (started ·.phase) ≤
        R.card * config.dispatch.dispatchConcurrency := by
  have hi := owned_of_run h
  have hle : ∀ r p, c.replicas r = some p →
    inProgress c.sys p ≤ config.dispatch.dispatchConcurrency :=
    fun r p hp => inProgress_le (hi.holding r p hp)
  refine ⟨hle, fun R hR => ?_⟩
  have hcount : ∀ r ∈ R, (c.sys.tasks.rows.countP fun t => (c.replicas r).any fun p =>
      started t.phase && decide (t.tid ∈ p.stage.tasks)) ≤ config.dispatch.dispatchConcurrency := by
    intro r _
    rcases hp : c.replicas r with _ | p
    · simp
    · exact hle r p hp
  calc c.sys.tasks.rows.countP (started ·.phase)
      ≤ ∑ r ∈ R, c.sys.tasks.rows.countP fun t => (c.replicas r).any fun p =>
          started t.phase && decide (t.tid ∈ p.stage.tasks) := by
        refine countP_le_sum R fun t ht hs => ?_
        obtain ⟨r, p, hp, hm⟩ := hi.owner t ht
        exact ⟨r, hR r p hp, by simp [hp, hs, hm]⟩
    _ ≤ R.card * config.dispatch.dispatchConcurrency := by
        simpa using Finset.sum_le_card_nsmul R _ _ hcount

end

def narrow : LoopConfig := { dispatch := { dispatchConcurrency := 1 } }

/-- A replica has two deliveries in hand and has started the first. -/
def twoDue : List Action :=
  [.outside (.publish (sampleEvent 1 [sampleCallback "hook_a" [], sampleCallback "hook_b" []])),
    .outside (.commit 1), .replica 0 .start, .replica 0 (.recv true), .replica 0 (.tryRecv false),
    .replica 0 (.fetchNew true),
    .replica 0 (.write .ok), .replica 0 .nextEvent, .replica 0 (.fetchDue true),
    .replica 0 (.task 0 (.examine .ok)), .replica 0 (.task 1 (.examine .ok)),
    .replica 0 (.task 0 .computeLock)]

theorem processes_refine_system_of_twoDue :
    ∃ c, Run (@step sampleCrates narrow) anyStep (boot 0) c ∧
    c.sys.tasks.rows.length = 2 ∧ ∀ t ∈ c.sys.tasks.rows, ∃! r, ∃ p, c.replicas r = some p ∧
      t.tid ∈ p.stage.tasks := by
  obtain ⟨c, hrun, hlen⟩ : ∃ c, Run (@step sampleCrates narrow) anyStep (boot 0) c ∧
    c.sys.tasks.rows.length = 2 :=
    Run.exists_of_exec twoDue (by decide +kernel)
  exact ⟨c, hrun, hlen, (@processes_refine_system sampleCrates narrow 0 c _ hrun).2.1⟩

theorem concurrency_bounded_of_twoDue : ∃ c, Run (@step sampleCrates narrow) anyStep (boot 0) c ∧
    (∃ p, c.replicas 0 = some p ∧ inProgress c.sys p = 1) ∧
    ∀ r p, c.replicas r = some p → inProgress c.sys p ≤ 1 := by
  obtain ⟨c, hrun, hc⟩ : ∃ c, Run (@step sampleCrates narrow) anyStep (boot 0) c ∧
      ((c.replicas 0).map (inProgress c.sys)) = some 1 :=
      Run.exists_of_exec twoDue (by decide +kernel)
  exact ⟨c, hrun, Option.map_eq_some_iff.mp hc,
    (@concurrency_bounded sampleCrates narrow 0 c _ hrun).1⟩

end OutboxDispatcher.Replicas.Ownership
