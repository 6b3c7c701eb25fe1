import OutboxDispatcher.Replicas.Ownership

/-! # A cycle comes to its end

`work` counts the steps that a replica has before it until it is back in `select!`: the end of the
drain, what is left of the pass, the query for due rows, six steps for every row of a batch, the end
of the stream and the sweep. Every step of the replica takes some of it (`work_step`), unless it
drains one more notification, and no step of anybody else adds to it (`work_other`). So from one
`select!` to the next there are at most `cycleWork` steps, and the notifications that are drained,
whatever the outside does meanwhile.

And a replica waits in one place only for something that need not come, as long as
`dispatch_concurrency` is not zero (a stream with `buffer_unordered(0)` would never poll its first
future): `try_recv` returns when there is a notification or the connection is lost, so the drain
lasts until the connection is lost. -/

namespace OutboxDispatcher.Replicas.Progress

open OutboxDispatcher.Lib.Buffered OutboxDispatcher.Lib.Runs OutboxDispatcher.Lib.Tables
open OutboxDispatcher.Schema OutboxDispatcher.Callbacks.Fields OutboxDispatcher.Repo.Database
open OutboxDispatcher.Repo.Statements OutboxDispatcher.Scheduler.Pass OutboxDispatcher.Dispatch
open OutboxDispatcher.System OutboxDispatcher.System.Effects OutboxDispatcher.System.History
open OutboxDispatcher.Replicas OutboxDispatcher.Replicas.Effects OutboxDispatcher.Replicas.Ownership

/-! ### The measure -/

def load (s : Sys) (tid : ℕ) : ℕ := ((s.tasks.get tid).map (left ·.phase)).getD 0

/-- The steps that are left of the pass: at most two writes and one more for each event. -/
def passWork (config : DispatchConfig) : Sched → ℕ
  | .down => 0
  | .idle _ => 3 * config.scheduleBatchSize.toNat + 1
  | .running _ l => l.writes.length + 1 + 3 * l.rest.length

/-- The query for due rows, the rows, and what follows. -/
def dispatchWork (config : DispatchConfig) : ℕ := 6 * config.batchSize.toNat + 3

/-- What the stage has before it beside the tasks. -/
def stageWork (config : DispatchConfig) (sch : Sched) : Stage → ℕ
  | .waiting => 0
  | .draining => passWork config sch + dispatchWork config + 1
  | .scheduling => passWork config sch + dispatchWork config
  | .backingOff _ => 1
  | .fetching => dispatchWork config
  | .examining _ _ | .streaming _ => 2
  | .sweeping => 1

def work (config : DispatchConfig) (r : ℕ) (s : Sys) (p : Replica) : ℕ :=
  stageWork config (s.scheds r) p.stage + ∑ tid ∈ p.stage.tasks.toFinset, load s tid

def cycleWork (config : DispatchConfig) : ℕ :=
  3 * config.scheduleBatchSize.toNat + 6 * config.batchSize.toNat + 5

section

variable {config : DispatchConfig} {s s' : Sys}

theorem load_of_mem {t : Task} (ht : t ∈ s.tasks.rows) : load s t.tid = left t.phase := by
  rw [load, Table.get_of_mem ht]
  rfl

theorem load_congr {tid : ℕ} {t : Task} (ht : t ∈ s.tasks.rows) (ht' : t ∈ s'.tasks.rows)
    (htid : t.tid = tid) : load s' tid = load s tid := by
  rw [← htid, load_of_mem ht, load_of_mem ht']

variable [Crates]

theorem length_fetchNewEvents {db : Db} {c n : ℤ} {es : List RawEvent}
    (h : fetchNewEvents db c n = some es) : es.length ≤ n.toNat := by
  obtain ⟨-, rfl, -⟩ := fetchNewEvents_eq_some.mp h
  exact List.length_take_le _ _

theorem length_selectDue {db : Db} {now : Time} {n : ℤ} {rows : List DueDeliveryRow}
    (h : selectDue db now n = some rows) : rows.length ≤ n.toNat := by
  obtain ⟨-, rfl, -⟩ := selectDue_eq_some.mp h
  exact (List.length_filterMap_le _ _).trans (List.length_take_le _ _)

/-- An event has at most two writes: one for its accepted callbacks and one for the others. -/
theorem length_eventWrites (config : DispatchConfig) (e : RawEvent) :
    (eventWrites config e).length ≤ 2 := by
  unfold eventWrites
  dsimp only
  split_ifs <;> simp

theorem load_step {tid : ℕ} {b : TaskAction} (h : System.step config s (.task tid b) = some s') :
    load s' tid < load s tid := by
  generalize ha : System.Action.task tid b = a at h
  cases step_cases h with
  | task t b db phase obs ht hst =>
    cases ha
    rw [load_of_mem ht]
    refine lt_of_eq_of_lt ?_ (left_step hst)
    cases phase with
    | none =>
      have hnone : (setPhase s.tasks t.tid none).get t.tid = none := by
        refine Table.get_eq_none_iff.mpr fun t' ht' hid => ?_
        rcases mem_setPhase.mp ht' with ⟨-, hne⟩ | ⟨-, -, -, p, hp, -⟩
        · exact hne hid
        · cases hp
      simp [load, hnone]
    | some p =>
      have hget : (setPhase s.tasks t.tid (some p)).get t.tid = some { t with phase := p } :=
        Table.get_of_mem (mem_setPhase.mpr (.inr ⟨t, ht, rfl, p, rfl, rfl⟩))
      simp [load, hget]
  | _ => cases ha

theorem load_of_ne {tid tid' : ℕ} {b : TaskAction}
    (h : System.step config s (.task tid b) = some s')
    (hne : tid' ≠ tid) (ht : ∃ t ∈ s.tasks.rows, t.tid = tid') : load s' tid' = load s tid' := by
  obtain ⟨t, ht, rfl⟩ := ht
  refine load_congr ht ((step_cases h).tasks_of_ne ht fun b' hb => ?_) rfl
  exact hne (System.Action.task.inj hb).1.symm

/-- **A step of one of the tasks** of a replica, which keeps at most those tasks. -/
theorem sum_load_step {tid : ℕ} {b : TaskAction} {tids tids' : List ℕ}
    (h : System.step config s (.task tid b) = some s') (hm : tid ∈ tids)
    (hsub : ∀ x ∈ tids', x ∈ tids) (hex : ∀ x ∈ tids, ∃ t ∈ s.tasks.rows, t.tid = x) :
    ∑ x ∈ tids'.toFinset, load s' x < ∑ x ∈ tids.toFinset, load s x := by
  have hle : ∀ x ∈ tids, load s' x ≤ load s x := by
    intro x hx
    by_cases hxt : x = tid
    · rw [hxt]
      exact (load_step h).le
    · exact (load_of_ne h hxt (hex x hx)).le
  calc ∑ x ∈ tids'.toFinset, load s' x
      ≤ ∑ x ∈ tids.toFinset, load s' x :=
        Finset.sum_le_sum_of_subset fun x hx =>
          List.mem_toFinset.mpr (hsub x (List.mem_toFinset.mp hx))
    _ < ∑ x ∈ tids.toFinset, load s x :=
        Finset.sum_lt_sum (fun x hx => hle x (List.mem_toFinset.mp hx))
          ⟨tid, List.mem_toFinset.mpr hm, load_step h⟩

/-! ### The scheduling process of a replica -/

/-- The scheduling process of a replica is there, and in a pass only when the replica is. -/
structure Poised (s : Sys) (r : ℕ) (p : Replica) : Prop where
  up : s.scheds r ≠ .down
  idle : p.stage ≠ .scheduling → ∃ cursor, s.scheds r = .idle cursor
  rows : ∀ ready, p.stage ≠ .examining [] ready

/-- The writes of an event and its successors take less than the event had before it. -/
theorem passWork_start (config : DispatchConfig) (e : RawEvent) (rest : List RawEvent)
    (cursor : ℤ) :
    passWork config (.running cursor (.start config e rest)) ≤ 3 * (e :: rest).length := by
  have hle := length_eventWrites config e
  simp only [passWork, Loop.start, List.length_cons]
  omega

/-- **One step of the pass** takes some of its work. -/
theorem passWork_step {now : Time} {db db' : Db} {sch sch' : Sched} {b : SchedAction}
    {c : ℤ} {l : Loop}
    (h : SchedStep config now db sch b db' sch') (hb : b ≠ .crash) (hr : sch' = .running c l) :
    passWork config sch' < passWork config sch := by
  cases h with
  | recover | rescan | pollEmpty | writeUnacked | writeFailed | finish => cases hr
  | crash => exact absurd rfl hb
  | poll cursor e rest he =>
    have hlen : (e :: rest).length ≤ config.scheduleBatchSize.toNat := length_fetchNewEvents he
    have := passWork_start config e rest cursor
    show _ < 3 * config.scheduleBatchSize.toNat + 1
    omega
  | write cursor l w writes db' hw =>
    simp only [passWork, hw, List.length_cons]
    omega
  | next cursor l e rest hw hrest =>
    have := passWork_start config e rest cursor
    simp only [passWork, hw, hrest, List.length_cons] at this ⊢
    omega

end

/-! ### The steps of a replica -/

section

variable {config : LoopConfig} {s s' : Sys} {r : ℕ} {p p' : Replica}

theorem passWork_pos (config : DispatchConfig) {sch : Sched} (h : sch ≠ .down) :
    0 < passWork config sch := by
  cases sch with
  | down => exact absurd rfl h
  | idle => exact Nat.succ_pos _
  | running => simp only [passWork]; omega

theorem work_of_nil {config : DispatchConfig} {stage : Stage} (hp : p.stage = stage)
    (h : stage.tasks = []) : work config r s p = stageWork config (s.scheds r) stage := by
  simp [work, hp, h]

theorem work_endCycle (now : Time) : work config.dispatch r s (p.endCycle config now) = 0 := rfl

/-- After `dispatch_due` there is at most the sweep. -/
theorem work_dispatchDone (now : Time) :
    work config.dispatch r s (p.dispatchDone config now) ≤ 1 := by
  unfold Replica.dispatchDone
  split_ifs
  · exact le_rfl
  · rw [work_endCycle]
    exact Nat.zero_le 1

theorem stageWork_examine {config : DispatchConfig} {sch : Sched} (rows ready : List ℕ) :
    stageWork config sch (p.examine rows ready).stage = 2 := by
  unfold Replica.examine
  split_ifs <;> rfl

theorem load_le (s : Sys) (tid : ℕ) : load s tid ≤ 6 := by
  unfold load
  rcases s.tasks.get tid with _ | t
  · exact Nat.zero_le 6
  · obtain ⟨_, _, phase⟩ := t
    cases phase <;> simp [left]

variable [Crates]

theorem work_fetchDue (h : System.step config.dispatch s .fetch = some s') :
    work config.dispatch r s' (p.examine (.range' s.nextTid (s'.nextTid - s.nextTid)) []) <
      dispatchWork config.dispatch := by
  have hlen : s'.nextTid - s.nextTid ≤ config.dispatch.batchSize.toNat := by
    cases step_cases h with
    | fetch rows hsel =>
      have := length_selectDue hsel
      simp only [Nat.add_sub_cancel_left]
      exact this
  have hsum : ∑ tid ∈ (List.range' s.nextTid (s'.nextTid - s.nextTid) ++ []).toFinset, load s' tid ≤
      (s'.nextTid - s.nextTid) * 6 := by
    calc ∑ tid ∈ (List.range' s.nextTid (s'.nextTid - s.nextTid) ++ []).toFinset, load s' tid
        ≤ (List.range' s.nextTid (s'.nextTid - s.nextTid) ++ []).toFinset.card * 6 := by
          simpa using Finset.sum_le_card_nsmul _ _ 6 fun tid _ => load_le s' tid
      _ ≤ (s'.nextTid - s.nextTid) * 6 :=
          Nat.mul_le_mul_right 6 ((List.toFinset_card_le _).trans (by simp))
  rw [work, stageWork_examine, tasks_examine, dispatchWork]
  omega

theorem schedStep_own {b : SchedAction} (h : System.step config.dispatch s (.sched r b) = some s') :
    SchedStep config.dispatch s.now s.db (s.scheds r) b s'.db (s'.scheds r) := by
  generalize ha : System.Action.sched r b = a at h
  cases step_cases h with
  | sched k b' db sch hst =>
    cases ha
    simp only [Function.update_self]
    exact hst
  | _ => cases ha

theorem passWork_lt {b : SchedAction} {c : ℤ} {l : Loop} (hb : b ≠ .crash)
    (h : System.step config.dispatch s (.sched r b) = some s')
    (hr : s'.scheds r = .running c l) :
    passWork config.dispatch (s'.scheds r) < passWork config.dispatch (s.scheds r) :=
  passWork_step (schedStep_own h) hb hr

/-- The pass starts when there is something above the cursor. -/
theorem scheds_poll {cursor : ℤ} {e : RawEvent} {rest : List RawEvent}
    (hc : s.scheds r = .idle cursor)
    (he : fetchNewEvents s.db cursor config.dispatch.scheduleBatchSize = some (e :: rest))
    (h : System.step config.dispatch s (.sched r .poll) = some s') :
    s'.scheds r = .running cursor (.start config.dispatch e rest) := by
  simp only [System.step, hc, Sched.step, he, Option.bind_eq_bind, Option.bind_some,
    Option.pure_def, Option.some.injEq] at h
  rw [← h]
  exact Function.update_self ..

omit [Crates] in
/-- The end of the pass leaves no more than the work of `dispatch_due`. -/
theorem work_pass_ended (hpo : Poised s r p) (hp : p.stage = .scheduling)
    (h : work config.dispatch r s' p' ≤ dispatchWork config.dispatch) :
    work config.dispatch r s' p' < work config.dispatch r s p := by
  have hpos := passWork_pos config.dispatch hpo.up
  rw [work_of_nil hp rfl]
  show _ < passWork config.dispatch (s.scheds r) + dispatchWork config.dispatch
  omega

theorem work_pass_goes_on {b : SchedAction} {c : ℤ} {l : Loop} (hp : p.stage = .scheduling)
    (hb : b ≠ .crash) (h : System.step config.dispatch s (.sched r b) = some s')
    (hr : s'.scheds r = .running c l) :
    work config.dispatch r s' p < work config.dispatch r s p := by
  rw [work_of_nil hp rfl, work_of_nil hp rfl]
  exact Nat.add_lt_add_right (passWork_lt hb h hr) _

/-- **A step of one of its tasks**, as long as the stage has no more before it. -/
theorem work_task {n tid : ℕ} {b : TaskAction} (hh : Holding n s p.stage)
    (h : System.step config.dispatch s (.task tid b) = some s') (hm : tid ∈ p.stage.tasks)
    (hsub : ∀ x ∈ p'.stage.tasks, x ∈ p.stage.tasks)
    (hle : stageWork config.dispatch (s'.scheds r) p'.stage ≤
      stageWork config.dispatch (s.scheds r) p.stage) :
    work config.dispatch r s' p' < work config.dispatch r s p :=
  add_lt_add_of_le_of_lt hle (sum_load_step h hm hsub hh.task)

theorem work_examined {n tid : ℕ} {fault : Fault} {rows ready : List ℕ} (hh : Holding n s p.stage)
    (hp : p.stage = .examining (tid :: rows) ready)
    (h : System.step config.dispatch s (.task tid (.examine fault)) = some s') :
    work config.dispatch r s' (p.examine rows (if alive s' tid then ready ++ [tid] else ready)) <
      work config.dispatch r s p := by
  refine work_task hh h (by simp [hp, Stage.tasks]) (fun x hx => ?_)
    (by rw [stageWork_examine, hp]; rfl)
  rw [tasks_examine] at hx
  rw [hp]
  simp only [Stage.tasks, List.cons_append, List.mem_cons, List.mem_append] at hx ⊢
  split_ifs at hx with halive
  · simp only [List.mem_append, List.mem_singleton] at hx
    tauto
  · tauto

theorem work_started {n tid : ℕ} {stream stream' : Buffer ℕ} (hh : Holding n s p.stage)
    (hp : p.stage = .streaming stream)
    (hstart : stream.start config.dispatch.dispatchConcurrency = some (tid, stream'))
    (h : System.step config.dispatch s (.task tid .computeLock) = some s') :
    work config.dispatch r s' { p with stage := .streaming stream' } <
    work config.dispatch r s p := by
  refine work_task hh h ?_ (fun x hx => ?_) (by rw [hp]; rfl)
  · rw [hp]
    exact List.mem_append_left _ (by simp [(Buffer.start_eq_some hstart).2.1])
  · rw [hp]
    exact (Buffer.perm_start hstart).subset hx

theorem work_finished {n tid : ℕ} {b : TaskAction} {stream : Buffer ℕ} (hh : Holding n s p.stage)
    (hp : p.stage = .streaming stream) (hm : tid ∈ stream.running)
    (h : System.step config.dispatch s (.task tid b) = some s') :
    work config.dispatch r s' { p with stage := .streaming (stream.finish tid) } <
      work config.dispatch r s p := by
  refine work_task hh h ?_ (fun x hx => ?_) (by rw [hp]; rfl)
  · rw [hp]
    exact List.mem_append_right _ hm
  · have hnodup := hh.orderly.nodup
    rw [hp] at hnodup ⊢
    exact ((Buffer.mem_items_finish hnodup hm).mp hx).1

/-- The steps after which the replica is where it was: the token is cancelled, or one more
notification is drained. -/
def idles : Act → Bool
  | .cancel | .tryRecv true => true
  | _ => false

/-- **A step of the replica takes some of its work**, unless it is in `select!` or drains. -/
theorem work_step {n : ℕ} {a : Act} (h : ReplicaStep config r s p a s' (some p'))
    (hh : Holding n s p.stage) (hpo : Poised s r p) (ha : idles a = false)
    (hp : p.stage ≠ .waiting) : work config.dispatch r s' p' < work config.dispatch r s p := by
  have hdone := @work_dispatchDone config s r p s.now
  have hdispatch : 3 ≤ dispatchWork config.dispatch := Nat.le_add_left 3 _
  generalize hq : some p' = q at h
  cases h with
  | cancel | drained => cases ha
  | crash | stop | startPanicked | responsePanicked => cases hq
  | recv _ hst | pollTimer hst => exact absurd hst hp
  | drainEnded hst =>
    cases hq
    rw [work_of_nil hst rfl, work_of_nil rfl rfl]
    exact Nat.lt_succ_self _
  | passEmpty _ hst | passDone _ hst =>
    cases hq
    exact work_pass_ended hpo hst (work_of_nil rfl rfl).le
  | fetchNewFailed _ _ hst | writeFailed _ _ hst =>
    cases hq
    refine work_pass_ended hpo hst ?_
    rw [work_of_nil rfl rfl]
    show 1 ≤ dispatchWork config.dispatch
    omega
  | passStarted cursor e rest _ hst hc he hs =>
    cases hq
    exact work_pass_goes_on hst (by simp) hs (scheds_poll hc he hs)
  | wrote _ _ _ _ hst hs hr | nextEvent _ _ _ hst hs hr =>
    cases hq
    exact work_pass_goes_on hst (by simp) hs hr
  | wake _ hst =>
    cases hq
    rw [work_of_nil hst rfl, work_of_nil rfl rfl]
    exact Nat.one_pos
  | fetchDueFailed _ hst =>
    cases hq
    rw [work_of_nil hst rfl]
    show _ < dispatchWork config.dispatch
    omega
  | fetchDue _ hst hs =>
    cases hq
    rw [work_of_nil hst rfl]
    exact work_fetchDue hs
  | examined _ _ _ _ _ hst hs =>
    cases hq
    exact work_examined hh hst hs
  | started _ _ _ _ hst hstart hs =>
    cases hq
    exact work_started hh hst hstart hs
  | advanced _ _ _ _ hst hm hs =>
    cases hq
    refine work_task hh hs ?_ (fun x hx => hx) (by rw [hst]; rfl)
    rw [hst]
    exact List.mem_append_right _ hm
  | finished _ _ _ _ hst hm _ hs =>
    cases hq
    exact work_finished hh hst hm hs
  | streamDone _ hst =>
    cases hq
    have h2 : 2 ≤ work config.dispatch r s p := by
      rw [work, hst]
      exact Nat.le_add_right 2 _
    omega
  | swept _ _ hst | sweepFailed _ hst =>
    cases hq
    rw [work_of_nil hst rfl, work_endCycle]
    exact Nat.one_pos

/-! ### What the others do -/

theorem scheds_same {b : System.Action} {k : ℕ} (h : Step config.dispatch s b s')
    (hb : ∀ b', b ≠ .sched k b') : s'.scheds k = s.scheds k := by
  rcases h.scheds k with hsame | ⟨b', hb', -⟩
  · exact hsame
  · exact absurd hb' (hb b')

theorem scheds_of_ne {a : Act} {q : Option Replica} (h : ReplicaStep config r s p a s' q) {k : ℕ}
    (hk : k ≠ r) : s'.scheds k = s.scheds k := by
  refine h.moves.invariant (fun s' => s'.scheds k = s.scheds k) rfl
    (fun b s' hb hst => ?_) fun s₁ tids hs₁ => ?_
  · refine scheds_same hst fun b' hb' => ?_
    cases hb <;> cases hb' <;> exact hk rfl
  · rw [kill_eq, ← hs₁]
    exact Function.update_of_ne hk ..

omit [Crates] in
theorem work_congr {config : DispatchConfig} (hs : s'.scheds r = s.scheds r)
    (ht : ∀ tid ∈ p.stage.tasks, load s' tid = load s tid) :
    work config r s' p = work config r s p := by
  rw [work, work, hs]
  exact congrArg _ (Finset.sum_congr rfl fun tid htid => ht tid (List.mem_toFinset.mp htid))

/-- **A step of somebody else** leaves the replica and its work alone. -/
theorem work_other {c c' : Cluster} {a : Action}
    (hlt : ∀ t ∈ c.sys.tasks.rows, t.tid < c.sys.nextTid)
    (hi : Owned config c) (h : ClusterStep config c a c') (hp : c.replicas r = some p)
    (hne : ∀ b, a ≠ .replica r b) :
    c'.replicas r = some p ∧ c'.sys.scheds r = c.sys.scheds r ∧
      work config.dispatch r c'.sys p = work config.dispatch r c.sys p := by
  have hsame : ∀ {s : Sys} {b : System.Action}, System.step config.dispatch c.sys b = some s →
      b ≠ .fetch → (∀ tid b', b ≠ .task tid b') → (∀ b', b ≠ .sched r b') →
      s.scheds r = c.sys.scheds r ∧
      work config.dispatch r s p = work config.dispatch r c.sys p := by
    intro s b hs hf ht hb
    have hsched := scheds_same (step_cases hs) hb
    refine ⟨hsched, work_congr hsched fun tid _ => ?_⟩
    rw [load, load, tasks_of_step hs hf ht]
  cases h with
  | outside b s hb hs =>
    refine ⟨hp, hsame hs (fun hf => ?_) (fun tid b' hb' => ?_) fun b' hb' => ?_⟩
    all_goals
      subst_vars
      cases hb
  | rescan k b s hk _ hs =>
    refine ⟨hp, hsame hs (by simp) (by simp) fun b' hb' => ?_⟩
    rw [(System.Action.sched.inj hb').1, hp] at hk
    cases hk
  | start k s hk hs =>
    have hkr : r ≠ k := by
      rintro rfl
      exact hne _ rfl
    refine ⟨(Function.update_of_ne hkr ..).trans hp, hsame hs (by simp) (by simp) fun b' hb' => ?_⟩
    exact hkr (System.Action.sched.inj hb').1.symm
  | replica k b q s q' hk hs =>
    have hkr : r ≠ k := by
      rintro rfl
      exact hne _ rfl
    have hsched := scheds_of_ne hs hkr
    refine ⟨(Function.update_of_ne hkr ..).trans hp, hsched, work_congr hsched fun tid htid => ?_⟩
    obtain ⟨t, ht, rfl⟩ := (hi.holding r p hp).task tid htid
    refine load_congr ht ((handover_of_step hlt hs (hi.holding k q hk)).frame t ht fun hm => ?_) rfl
    exact hkr (hi.apart r k p q t.tid hp hk htid hm)

/-! ### The scheduling process over a run -/

theorem idle_of_ended {b : SchedAction} (h : System.step config.dispatch s (.sched r b) = some s')
    (hb : b ≠ .crash)
    (hr : ∀ c l, s'.scheds r ≠ .running c l) : ∃ cursor, s'.scheds r = .idle cursor := by
  have hst := schedStep_own h
  generalize s'.scheds r = sch', s.scheds r = sch, s'.db = db' at hst hr ⊢
  cases hst with
  | recover | rescan c | pollEmpty c | writeUnacked c | writeFailed c | finish => exact ⟨_, rfl⟩
  | poll c e rest | write c l | next c l e rest => exact absurd rfl (hr c _)
  | crash => exact absurd rfl hb

theorem poised_step {a : Act} (h : ReplicaStep config r s p a s' (some p')) (hpo : Poised s r p) :
    Poised s' r p' := by
  have hother : ∀ {b : System.Action}, System.step config.dispatch s b = some s' →
      (∀ b', b ≠ .sched r b') → s'.scheds r = s.scheds r := fun hs => scheds_same (step_cases hs)
  -- outside a pass the process is left alone
  have hkeep : s'.scheds r = s.scheds r → p.stage ≠ .scheduling →
    (∀ ready, p'.stage ≠ .examining [] ready) →
      Poised s' r p' :=
        fun hsame hst hrows => ⟨hsame ▸ hpo.up, fun _ => hsame ▸ hpo.idle hst, hrows⟩
  have hidle : ∀ {cursor : ℤ}, s'.scheds r = .idle cursor →
    (∀ ready, p'.stage ≠ .examining [] ready) →
      Poised s' r p' := fun hc hrows => ⟨by simp [hc], fun _ => ⟨_, hc⟩, hrows⟩
  have hrun : ∀ {c : ℤ} {l : Loop}, s'.scheds r = .running c l → p'.stage = .scheduling →
    Poised s' r p' :=
    fun hc hst => ⟨by simp [hc], fun hne => absurd hst hne, by simp [hst]⟩
  have hdone : ∀ ready, (p.dispatchDone config s.now).stage ≠ .examining [] ready := by
    intro ready
    unfold Replica.dispatchDone
    split_ifs <;> simp [Replica.endCycle]
  have hexam : ∀ rows ready ready', (p.examine rows ready).stage ≠ .examining [] ready' := by
    intro rows ready ready'
    cases rows <;> simp [Replica.examine]
  generalize hq : some p' = q at h
  cases h with
  | crash | stop | startPanicked | responsePanicked => cases hq
  | cancel | drained => cases hq; exact ⟨hpo.up, hpo.idle, hpo.rows⟩
  | recv _ hst | pollTimer hst => cases hq; exact hkeep rfl (by simp [hst]) (by simp)
  | drainEnded => cases hq; exact ⟨hpo.up, fun hne => absurd rfl hne, by simp⟩
  | passEmpty cursor _ hc | fetchNewFailed _ cursor _ hc =>
    cases hq; exact hidle hc (by simp [Replica.passDone, Replica.passFailed])
  | passStarted cursor e rest _ hst hc he hs => cases hq; exact hrun (scheds_poll hc he hs) hst
  | wrote _ _ _ _ hst _ hr | nextEvent _ _ _ hst _ hr => cases hq; exact hrun hr hst
  | writeFailed _ _ _ hs hr | passDone _ _ hs hr =>
    cases hq
    obtain ⟨cursor, hc⟩ := idle_of_ended hs (by simp) hr
    exact hidle hc (by simp [Replica.passDone, Replica.passFailed])
  | wake _ hst => cases hq; exact hkeep rfl (by simp [hst]) (by simp)
  | fetchDueFailed _ hst | streamDone _ hst => cases hq; exact hkeep rfl (by simp [hst]) hdone
  | fetchDue _ hst hs => cases hq; exact hkeep (hother hs (by simp)) (by simp [hst]) (hexam _ _)
  | examined _ _ _ _ _ hst hs =>
    cases hq; exact hkeep (hother hs (by simp)) (by simp [hst]) (hexam _ _)
  | started _ _ _ _ hst _ hs =>
    cases hq; exact hkeep (hother hs (by simp)) (by simp [hst]) (by simp)
  | advanced _ _ _ _ hst _ hs =>
    cases hq; exact hkeep (hother hs (by simp)) (by simp [hst]) (by simp [hst])
  | finished _ _ _ _ hst _ _ hs =>
    cases hq; exact hkeep (hother hs (by simp)) (by simp [hst]) (by simp)
  | swept _ _ hst _ hs =>
    cases hq; exact hkeep (hother hs (by simp)) (by simp [hst]) (by simp [Replica.endCycle])
  | sweepFailed _ hst => cases hq; exact hkeep rfl (by simp [hst]) (by simp [Replica.endCycle])

end

/-! ### A replica in a run -/

section

variable [Crates] {config : LoopConfig} {r : ℕ} {p p' : Replica} {c c' : Cluster} {a : Action}
  {now : Time} {ok : Cluster → Action → Cluster → Prop}

/-- **What a step is for a replica** that runs after it: the step of somebody else, its start, or
its own. -/
theorem replica_cases (hlt : ∀ t ∈ c.sys.tasks.rows, t.tid < c.sys.nextTid) (hi : Owned config c)
    (h : ClusterStep config c a c') (hp' : c'.replicas r = some p') :
    ((∀ b, a ≠ .replica r b) ∧ c.replicas r = some p' ∧ c'.sys.scheds r = c.sys.scheds r ∧
        work config.dispatch r c'.sys p' = work config.dispatch r c.sys p') ∨
      (a = .replica r .start ∧ c.replicas r = none ∧
        p' = { nextPoll := c'.sys.now + config.pollInterval, lastSweep := c'.sys.now } ∧
        ∃ cursor, c'.sys.scheds r = .idle cursor) ∨
      ∃ b p, a = .replica r b ∧ c.replicas r = some p ∧
      ReplicaStep config r c.sys p b c'.sys (some p') := by
  by_cases hne : ∀ b, a ≠ .replica r b
  · have hupdate : ∀ {k : ℕ} {q : Option Replica} {b : Act}, a = .replica k b →
        Function.update c.replicas k q r = some p' → c.replicas r = some p' := by
      rintro k q b rfl hp
      rwa [Function.update_of_ne fun hkr => hne b (by rw [hkr])] at hp
    have hp : c.replicas r = some p' := by
      cases h with
      | outside | rescan => exact hp'
      | start | replica => exact hupdate rfl hp'
    exact .inl ⟨hne, hp, (work_other hlt hi h hp hne).2⟩
  · push Not at hne
    obtain ⟨b, rfl⟩ := hne
    right
    cases h with
    | start _ s hk hs =>
      have hst := schedStep_own hs
      dsimp only at hp' ⊢
      rw [Function.update_self] at hp'
      cases hp'
      refine .inl ⟨rfl, hk, rfl, ?_⟩
      generalize s.scheds r = sch', c.sys.scheds r = sch, s.db = db' at hst ⊢
      cases hst
      exact ⟨_, rfl⟩
    | replica _ _ q s q' hk hs =>
      dsimp only at hp' ⊢
      rw [Function.update_self] at hp'
      subst hp'
      exact .inr ⟨b, q, rfl, hk, hs⟩

theorem poised_of_run (h : Run (step config) ok (boot now) c) (hp : c.replicas r = some p) :
    Poised c.sys r p := by
  induction h generalizing p with
  | refl => simp [boot] at hp
  | tail h hs _ ih =>
    rcases replica_cases (wf_of_cluster h).tasks.tid_lt (owned_of_run h) (clusterStep_of_step hs) hp
      with ⟨-, hold, hsame, -⟩ | ⟨-, -, rfl, cursor, hc⟩ | ⟨b, q, -, hq, hstep⟩
    · exact ⟨hsame ▸ (ih hold).up, fun hne => hsame ▸ (ih hold).idle hne, (ih hold).rows⟩
    · exact ⟨by simp [hc], fun _ => ⟨cursor, hc⟩, by simp⟩
    · exact poised_step hstep (ih hq)

/-- **Its own steps**: the replica leaves `select!` with the work of a whole cycle, or takes some of
its work. -/
theorem work_own {n : ℕ} {s s' : Sys} {b : Act} (h : ReplicaStep config r s p b s' (some p'))
    (hh : Holding n s p.stage) (hpo : Poised s r p) (hb : idles b = false) :
    (p.stage = .waiting ∧ work config.dispatch r s' p' = cycleWork config.dispatch) ∨
      (p.stage ≠ .waiting ∧ work config.dispatch r s' p' < work config.dispatch r s p) := by
  by_cases hst : p.stage = .waiting
  · refine .inl ⟨hst, ?_⟩
    obtain ⟨cursor, hc⟩ := hpo.idle (by simp [hst])
    have hleave : ∀ q : Replica, q.stage = .draining →
        work config.dispatch r s q = cycleWork config.dispatch := by
      intro q hq
      rw [work_of_nil hq rfl, hc]
      simp only [stageWork, passWork, dispatchWork, cycleWork]
      omega
    generalize hq : some p' = q at h
    cases h with
    | recv | pollTimer => cases hq; exact hleave _ rfl
    | cancel => cases hb
    | _ => simp_all
  · exact .inr ⟨hst, work_step h hh hpo hb hst⟩

theorem work_idles {s s' : Sys} {b : Act} (h : ReplicaStep config r s p b s' (some p'))
    (hb : idles b = true) :
    p'.stage = p.stage ∧ work config.dispatch r s' p' = work config.dispatch r s p := by
  generalize hq : some p' = q at h
  cases h with
  | cancel | drained =>
    cases hq
    exact ⟨rfl, rfl⟩
  | _ => cases hb

/-- In every state that is reached a replica has at most the work of a cycle before it. -/
theorem work_le_of_run (h : Run (step config) ok (boot now) c) (hp : c.replicas r = some p) :
    work config.dispatch r c.sys p ≤ cycleWork config.dispatch := by
  induction h generalizing p with
  | refl => simp [boot] at hp
  | tail h hs _ ih =>
    have hi := owned_of_run h
    rcases replica_cases (wf_of_cluster h).tasks.tid_lt hi (clusterStep_of_step hs) hp with
      ⟨-, hold, -, hsame⟩ | ⟨-, -, rfl, -⟩ | ⟨b, q, -, hq, hstep⟩
    · exact hsame.le.trans (ih hold)
    · exact Nat.zero_le _
    · cases hb : idles b with
      | true =>
        rw [(work_idles hstep hb).2]
        exact ih hq
      | false =>
        rcases work_own hstep (hi.holding r q hq) (poised_of_run h hq) hb with ⟨-, hw⟩ | ⟨-, hw⟩
        · exact hw.le
        · exact hw.le.trans (ih hq)

/-- The step is one of the loop of the replica `r`. Not counted are the notifications that it
drains, and the token, which may be cancelled any number of times. -/
def isOwn (r : ℕ) : Action → Bool
  | .replica k b => k == r && !idles b
  | _ => false

omit [Crates] in
theorem isOwn_of_ne (h : ∀ b, a ≠ .replica r b) : isOwn r a = false := by
  cases a with
  | outside | rescan => rfl
  | replica k b =>
    have hk : (k == r) = false := beq_false_of_ne fun hk => h b (by rw [hk])
    rw [isOwn, hk, Bool.false_and]

omit [Crates] in
theorem isOwn_self (b : Act) : isOwn r (.replica r b) = !idles b := by
  rw [isOwn, beq_self_eq_true, Bool.true_and]

/-- The replica `r` runs and is not in `select!`. -/
def Busy (r : ℕ) (c : Cluster) : Prop := ∃ p ∈ c.replicas r, p.stage ≠ .waiting

instance (r : ℕ) : DecidablePred (Busy r) := fun c =>
  inferInstanceAs (Decidable (∃ p ∈ c.replicas r, p.stage ≠ .waiting))

/-- **A cycle is bounded.** From any state that is reached, a replica that does not come back to
`select!` makes at most three steps for each event of a scheduling batch, six for each row of a
dispatch batch, and six more, besides one for every notification that it drains, whatever the other
replicas, the receivers, the publishers and the operators do meanwhile. -/
theorem cycle_bounded (h : Run (step config) ok (boot now) c) {l : List Action}
    (hpath : Path (fun c a c' => step config c a = some c' ∧ Busy r c') c l c') :
    l.countP (isOwn r) ≤
      3 * config.dispatch.scheduleBatchSize.toNat + 6 * config.dispatch.batchSize.toNat + 6 := by
  have hinv : Run (step config) anyStep (boot now) c' ∧
      (∀ p, c'.replicas r = some p → p.stage ≠ .waiting →
        l.countP (isOwn r) + work config.dispatch r c'.sys p ≤ cycleWork config.dispatch + 1) ∧
      (¬Busy r c' → l.countP (isOwn r) = 0) := by
    induction hpath with
    | nil =>
      refine ⟨h.mono fun _ _ _ _ => trivial, fun p hp _ => ?_, fun _ => rfl⟩
      have := work_le_of_run h hp
      simp only [List.countP_nil]
      omega
    | @cons c₁ c₂ l a hpath hstep ih =>
      obtain ⟨hrun, hbusy, hidle⟩ := ih
      obtain ⟨hs, hb₂⟩ := hstep
      have hi := owned_of_run hrun
      refine ⟨hrun.tail hs trivial, fun p hp hst => ?_, fun hno => absurd hb₂ hno⟩
      rw [List.countP_cons]
      rcases replica_cases (wf_of_cluster hrun).tasks.tid_lt hi (clusterStep_of_step hs) hp with
        ⟨hne, hold, -, hsame⟩ | ⟨-, -, rfl, -⟩ | ⟨b, q, rfl, hq, hown⟩
      · have := hbusy p hold hst
        simp only [isOwn_of_ne hne, Bool.false_eq_true, if_false]
        omega
      · exact absurd rfl hst
      · rw [isOwn_self]
        cases hb : idles b with
        | true =>
          obtain ⟨hstage, hsame⟩ := work_idles hown hb
          have := hbusy q hq (hstage ▸ hst)
          simp only [Bool.not_true, Bool.false_eq_true, if_false]
          omega
        | false =>
          simp only [Bool.not_false, if_true]
          rcases work_own hown (hi.holding r q hq) (poised_of_run hrun hq) hb
            with ⟨hwait, hw⟩ | ⟨hwait, hw⟩
          · have hzero := hidle fun ⟨q', hq', hne⟩ => by
              rw [hq] at hq'
              cases hq'
              exact hne hwait
            omega
          · have := hbusy q hq hwait
            omega
  obtain ⟨-, hbusy, hidle⟩ := hinv
  by_cases hb : Busy r c'
  · obtain ⟨p, hp, hst⟩ := hb
    have := hbusy p hp hst
    unfold cycleWork at this
    omega
  · rw [hidle hb]
    exact Nat.zero_le _

end

/-- A batch of one for the passes and of one for the deliveries. -/
def smallBatches : LoopConfig := { dispatch := { scheduleBatchSize := 1, batchSize := 1 } }

def selecting : List Action :=
  [.outside (.publish (sampleEvent 1 [sampleCallback "hook_a" []])), .outside (.commit 1),
    .replica 0 .start]

/-- The steps of a cycle, up to the write-back. -/
def wholeCycle : List Action :=
  [.replica 0 (.recv true), .replica 0 (.tryRecv true), .replica 0 (.tryRecv false),
    .replica 0 (.fetchNew true), .replica 0 (.write .ok), .replica 0 .nextEvent,
    .replica 0 (.fetchDue true), .replica 0 (.task 0 (.examine .ok)),
    .replica 0 (.task 0 .computeLock),
    .replica 0 (.task 0 (.lock .ok)), .replica 0 (.task 0 .deliver), .replica 0 .cancel,
    .replica 0 (.task 0 (.respond .ok 0)), .replica 0 (.task 0 (.writeBack .ok))]

theorem cycle_bounded_wholeCycle :
    ∃ c c', Run (@step sampleCrates smallBatches) anyStep (boot 0) c ∧
    Path (fun c a c' => @step sampleCrates smallBatches c a = some c' ∧
      Busy 0 c') c wholeCycle.reverse c' ∧
    wholeCycle.reverse.countP (isOwn 0) = 12 ∧ wholeCycle.reverse.countP (isOwn 0) ≤
    3 * 1 + 6 * 1 + 6 := by
  obtain ⟨c, hrun, hsome⟩ : ∃ c, Run (@step sampleCrates smallBatches) anyStep (boot 0) c ∧
      (exec (@step sampleCrates smallBatches) (fun _ _ c' => Busy 0 c') wholeCycle c).isSome :=
    Run.exists_of_exec selecting (by decide +kernel)
  obtain ⟨c', hexec⟩ := Option.isSome_iff_exists.mp hsome
  have hpath := Path.of_exec wholeCycle .nil hexec
  rw [List.append_nil] at hpath
  exact ⟨c, c', hrun, hpath, by decide,
    @cycle_bounded sampleCrates smallBatches 0 c c' 0 _ hrun _ hpath⟩

/-! ### No deadlock -/

/-- The step of a replica with which nothing is wrong: queries and statements succeed, receivers
accept. -/
def healthy : Act → Bool
  | .fetchNew ok | .fetchDue ok => ok
  | .write fault | .sweep fault | .task _ (.examine fault) | .task _ (.lock fault)
  | .task _ (.writeBack fault) =>
    fault = .ok
  | .nextEvent | .wake | .streamDone | .task _ .computeLock | .task _ .deliver
  | .task _ (.respond .ok _) => true
  | _ => false

def nextAction : Phase → TaskAction
  | .fetched => .examine .ok
  | .ready _ => .computeLock
  | .locking _ _ => .lock .ok
  | .locked _ _ => .deliver
  | .delivering _ _ => .respond .ok 0
  | .writing _ _ _ => .writeBack .ok

section

variable [Crates] {config : LoopConfig} {s : Sys} {r : ℕ} {p : Replica}

omit [Crates] in
theorem healthy_nextAction (tid : ℕ) (phase : Phase) :
    healthy (.task tid (nextAction phase)) = true := by
  cases phase <;> rfl

theorem exists_task_step (config : DispatchConfig) {t : Task} (ht : t ∈ s.tasks.rows) :
    ∃ s', System.step config s (.task t.tid (nextAction t.phase)) = some s' := by
  have hsome : (t.step config s.now s.db (nextAction t.phase)).isSome := by
    obtain ⟨tid, row, phase⟩ := t
    cases phase with
    | fetched => cases hx : examineRow config row <;> simp [nextAction, Task.step, hx]
    | _ => simp [nextAction, Task.step]
  obtain ⟨⟨db, phase, obs⟩, he⟩ := Option.isSome_iff_exists.mp hsome
  exact ⟨{ s with db, tasks := setPhase s.tasks t.tid phase, trace := obs ++ s.trace }, by
    simp [System.step, Table.get_of_mem ht, he]⟩

/-- A stream that is not drained can go on, if there is room for a single task. -/
theorem exists_stream_step {stream : Buffer ℕ} {n : ℕ}
    (hn : 0 < config.dispatch.dispatchConcurrency)
    (hh : Holding n s (.streaming stream)) (hd : stream.items ≠ []) :
    ∃ tid b, healthy (.task tid b) ∧ (p.streamStep config r s stream tid b).isSome := by
  rcases hrun : stream.running with _ | ⟨tid, rest⟩
  · -- nothing is in progress, so there is room for the next one
    have hq : stream.queue ≠ [] := fun hq => hd (by rw [Buffer.items, hq, hrun]; rfl)
    obtain ⟨tid, stream', hstart⟩ := Buffer.exists_start hn hrun hq
    have hm : tid ∈ stream.queue := by simp [(Buffer.start_eq_some hstart).2.1]
    obtain ⟨t, ht, rfl⟩ := hh.task tid (List.mem_append_left _ hm)
    obtain ⟨due, hp⟩ := (hh.inPlace t ht (List.mem_append_left _ hm)).1 hm
    obtain ⟨s', hs⟩ := exists_task_step config.dispatch ht
    rw [hp] at hs
    refine ⟨t.tid, .computeLock, rfl, ?_⟩
    simp only [nextAction] at hs
    simp only [Replica.streamStep, hstart, hs, Option.bind_eq_bind, Option.bind_some, if_true]
    split_ifs <;> rfl
  · have hm : tid ∈ stream.running := by simp [hrun]
    obtain ⟨t, ht, rfl⟩ := hh.task tid (List.mem_append_right _ hm)
    have hst := (hh.inPlace t ht (List.mem_append_right _ hm)).2 hm
    obtain ⟨s', hs⟩ := exists_task_step config.dispatch ht
    refine ⟨t.tid, nextAction t.phase, healthy_nextAction _ _, ?_⟩
    cases hp : t.phase with
    | fetched | ready => rw [hp] at hst; cases hst
    | _ =>
      rw [hp, nextAction] at hs
      simp only [nextAction, Replica.streamStep, hm, hs, Option.bind_eq_bind, Option.bind_some,
        if_true]
      split_ifs <;> rfl

/-- **A replica can always go on**: outside `select!`, the drain and the sleep after an error there
is a step that it can make with nothing wrong. -/
theorem exists_step {n : ℕ} (hn : 0 < config.dispatch.dispatchConcurrency)
    (hh : Holding n s p.stage)
    (hpo : Poised s r p) (hp : p.stage ≠ .waiting) (hd : p.stage ≠ .draining)
    (hwake : ∀ wakeAt, p.stage = .backingOff wakeAt → wakeAt ≤ s.now) :
    ∃ b, healthy b ∧ (p.step config r s b).isSome := by
  have hup := hpo.up
  have hrows := hpo.rows
  cases hst : p.stage with
  | waiting => exact absurd hst hp
  | draining => exact absurd hst hd
  | scheduling =>
    rcases hsch : s.scheds r with _ | cursor | ⟨cursor, l⟩
    · exact absurd hsch hup
    · refine ⟨.fetchNew true, rfl, ?_⟩
      simp only [Replica.step, hst, hsch]
      rcases he : fetchNewEvents s.db cursor config.dispatch.scheduleBatchSize
        with _ | _ | ⟨e, rest⟩
      · rfl
      · rfl
      · simp [System.step, hsch, Sched.step, he]
    · rcases hw : l.writes with _ | ⟨w, writes⟩
      · have hsome : (System.step config.dispatch s (.sched r .next)).isSome := by
          cases hrest : l.rest <;> simp [System.step, hsch, Sched.step, hw, hrest]
        obtain ⟨s', hs⟩ := Option.isSome_iff_exists.mp hsome
        refine ⟨.nextEvent, rfl, ?_⟩
        simp only [Replica.step, hst, hs, Option.bind_eq_bind, Option.bind_some]
        split <;> rfl
      · have hsome : (System.step config.dispatch s (.sched r (.write .ok))).isSome := by
          cases hx : w.exec s.db s.now l.event.eventId <;>
            simp [System.step, hsch, Sched.step, hw, hx]
        obtain ⟨s', hs⟩ := Option.isSome_iff_exists.mp hsome
        refine ⟨.write .ok, rfl, ?_⟩
        simp only [Replica.step, hst, hs, Option.bind_eq_bind, Option.bind_some]
        split <;> rfl
  | backingOff wakeAt =>
    refine ⟨.wake, rfl, ?_⟩
    simp [Replica.step, hst, hwake wakeAt hst]
  | fetching =>
    refine ⟨.fetchDue true, rfl, ?_⟩
    simp only [Replica.step, hst]
    split <;> rfl
  | examining rows ready =>
    rcases rows with _ | ⟨tid, rows⟩
    · exact absurd hst (hrows ready)
    · rw [hst] at hh
      obtain ⟨t, ht, rfl⟩ := hh.task tid (by simp [Stage.tasks])
      obtain ⟨s', hs⟩ := exists_task_step config.dispatch ht
      rw [(hh.inPlace t ht (by simp [Stage.tasks])).1 (by simp)] at hs
      refine ⟨.task t.tid (.examine .ok), rfl, ?_⟩
      simp only [nextAction] at hs
      simp [Replica.step, hst, hs]
  | streaming stream =>
    by_cases hd : stream.items = []
    · refine ⟨.streamDone, rfl, ?_⟩
      simp [Replica.step, hst, hd]
    · rw [hst] at hh
      obtain ⟨tid, b, hb, hs⟩ := exists_stream_step hn hh hd
      refine ⟨.task tid b, hb, ?_⟩
      simpa only [Replica.step, hst] using hs
  | sweeping =>
    refine ⟨.sweep .ok, rfl, ?_⟩
    simp [Replica.step, hst]

end

/-- The replica `r` goes on with nothing wrong, and time passes. -/
def GoesOn (r : ℕ) : Action → Prop
  | .replica k b => k = r ∧ healthy b
  | .outside (.tick _) => True
  | _ => False

section

variable [Crates] {config : LoopConfig} {r : ℕ} {p : Replica} {c : Cluster} {now : Time}
  {ok : Cluster → Action → Cluster → Prop}

theorem exists_awake (h : Run (step config) anyStep (boot now) c) (hp : c.replicas r = some p) :
    ∃ c', Run (step config) anyStep (boot now) c' ∧
    Run (step config) (fun _ a _ => GoesOn r a) c c' ∧
      c'.replicas r = some p ∧ work config.dispatch r c'.sys p = work config.dispatch r c.sys p ∧
      ∀ wakeAt, p.stage = .backingOff wakeAt → wakeAt ≤ c'.sys.now := by
  by_cases hst : ∃ wakeAt, p.stage = .backingOff wakeAt
  · obtain ⟨wakeAt, hst⟩ := hst
    have hs : step config c (.outside (.tick (wakeAt - c.sys.now).toNat)) =
        some { c with sys := { c.sys with now := c.sys.now + (wakeAt - c.sys.now).toNat } } := rfl
    obtain ⟨hp', -, hw⟩ :=
      work_other (wf_of_cluster h).tasks.tid_lt (owned_of_run h) (clusterStep_of_step hs) hp
        (by simp)
    refine ⟨_, h.tail hs trivial, Run.refl.tail hs trivial, hp', hw, fun w hst' => ?_⟩
    rw [hst] at hst'
    cases hst'
    show wakeAt ≤ c.sys.now + ((wakeAt - c.sys.now).toNat : ℤ)
    have := Int.self_le_toNat (wakeAt - c.sys.now)
    linarith
  · push Not at hst
    exact ⟨c, h, .refl, hp, rfl, fun wakeAt hw => absurd hw (hst wakeAt)⟩

theorem alive_of_phase {config : DispatchConfig} {s s' : Sys} {t : Task} {b : TaskAction}
    (ht : t ∈ s.tasks.rows) (hs : System.step config s (.task t.tid b) = some s')
    (h : ∀ db' phase obs, TaskStep config s.now s.db t b db' phase obs → phase.isSome) :
    alive s' t.tid := by
  obtain ⟨phase, obs, hst, htasks, -⟩ := (step_cases hs).of_task ht
  obtain ⟨p, rfl⟩ := Option.isSome_iff_exists.mp (h _ _ _ hst)
  refine alive_iff.mpr ⟨{ t with phase := p }, ?_, rfl⟩
  rw [htasks]
  exact mem_setPhase.mpr (.inr ⟨t, ht, rfl, p, rfl, rfl⟩)

/-- With nothing wrong a replica ends only because it cannot compute a lock. -/
theorem unlockable_of_ended {s s' : Sys} {n : ℕ} {b : Act} (h : ReplicaStep config r s p b s' none)
    (hh : Holding n s p.stage) (hb : healthy b) : ∃ t ∈ s.tasks.rows, ∃ due, t.phase = .ready due ∧
      computeLockUntil s.now due.target.timeout config.dispatch.lockBuffer = none := by
  generalize hq : (none : Option Replica) = q at h
  cases h with
  | crash | stop => cases hb
  | startPanicked tid stream stream' s₁ hst hstart hs halive =>
    rw [hst] at hh
    have hm : tid ∈ stream.queue := by simp [(Buffer.start_eq_some hstart).2.1]
    obtain ⟨t, ht, rfl⟩ := hh.task tid (List.mem_append_left _ hm)
    obtain ⟨due, hp⟩ := (hh.inPlace t ht (List.mem_append_left _ hm)).1 hm
    refine ⟨t, ht, due, hp, ?_⟩
    by_contra hu
    have hgoes : alive s₁ t.tid := by
      refine alive_of_phase ht hs fun db' phase obs hstep => ?_
      cases hstep with
      | dropped _ hdrop => simp [drops] at hdrop
      | computeLock => rfl
      | lockPanicked due' hp' hu' =>
        rw [hp] at hp'
        cases hp'
        exact absurd hu' hu
    rw [hgoes] at halive
    cases halive
  | responsePanicked tid result jitter stream s₁ hst hm hs halive =>
    rw [hst] at hh
    obtain ⟨t, ht, rfl⟩ := hh.task tid (List.mem_append_right _ hm)
    cases result with
    | ok =>
      have hgoes : alive s₁ t.tid := by
        refine alive_of_phase ht hs fun db' phase obs hstep => ?_
        cases hstep with
        | dropped _ hdrop => simp [drops] at hdrop
        | respond due u => cases hmode : due.target.mode <;> simp [writeBackStmt, hmode]
      rw [hgoes] at halive
      cases halive
    | transient | timeout => cases hb
  | _ => cases hq

theorem draining_of_step {s s' : Sys} {b : Act} {p' : Replica}
    (h : ReplicaStep config r s p b s' (some p')) (hp' : p'.stage = .draining) :
    p.stage = .waiting ∨ p.stage = .draining := by
  generalize hq : some p' = q at h
  cases h with
  | recv _ hp | pollTimer hp => exact .inl hp
  | drained hp => exact .inr hp
  | cancel =>
    cases hq
    exact .inr hp'
  | fetchDueFailed | streamDone =>
    cases hq
    unfold Replica.dispatchDone at hp'
    split_ifs at hp'
    cases hp'
  | fetchDue | examined =>
    cases hq
    unfold Replica.examine at hp'
    dsimp only at hp'
    split_ifs at hp'
  | passStarted _ _ _ _ hp | wrote _ _ _ _ hp | nextEvent _ _ _ hp | advanced _ _ _ _ hp =>
    cases hq
    rw [hp] at hp'
    cases hp'
  | crash | stop | startPanicked | responsePanicked => cases hq
  | _ =>
    cases hq
    cases hp'

/-- Outside the drain a replica can go on by itself until it is back in `select!`. -/
theorem completes_of_not_draining (hn : 0 < config.dispatch.dispatchConcurrency)
    (h : Run (step config) anyStep (boot now) c) (hp : c.replicas r = some p)
    (hd : p.stage ≠ .draining) :
    ∃ c', Run (step config) (fun _ a _ => GoesOn r a) c c' ∧
      ((∃ p', c'.replicas r = some p' ∧ p'.stage = .waiting) ∨
        ∃ t ∈ c'.sys.tasks.rows, ∃ due, t.phase = .ready due ∧
          computeLockUntil c'.sys.now due.target.timeout config.dispatch.lockBuffer = none) := by
  -- by induction on the work that is left
  induction hm : work config.dispatch r c.sys p using Nat.strong_induction_on generalizing c p with
  | _ m ih =>
    by_cases hst : p.stage = .waiting
    · exact ⟨c, .refl, .inl ⟨p, hp, hst⟩⟩
    obtain ⟨c₁, hrun₁, hgo₁, hp₁, hw₁, hwake⟩ := exists_awake h hp
    have hh := (owned_of_run hrun₁).holding r p hp₁
    have hpo := poised_of_run hrun₁ hp₁
    obtain ⟨b, hb, hsome⟩ := exists_step hn hh hpo hst hd hwake
    obtain ⟨⟨s', q⟩, hs⟩ := Option.isSome_iff_exists.mp hsome
    have hstep : step config c₁ (.replica r b) =
        some { sys := s', replicas := Function.update c₁.replicas r q } := by
      simp [step, hp₁, hs]
    replace hs := replicaStep_of_step hs
    cases q with
    | none => exact ⟨c₁, hgo₁, .inr (unlockable_of_ended hs hh hb)⟩
    | some p' =>
      have hidle : idles b = false := by
        cases b with
        | cancel | tryRecv => cases hb
        | _ => rfl
      have hlt : work config.dispatch r s' p' < m := by
        rw [← hm, ← hw₁]
        exact work_step hs hh hpo hidle hst
      have hd' : p'.stage ≠ .draining := fun hp' => by
        rcases draining_of_step hs hp' with hp | hp
        · exact hst hp
        · exact hd hp
      obtain ⟨c', hgo', hend⟩ :=
        ih _ hlt (hrun₁.tail hstep trivial) (Function.update_self ..) hd' rfl
      exact ⟨c', (hgo₁.tail hstep ⟨rfl, hb⟩).trans hgo', hend⟩

/-- What leaves the replica `r` in the drain: whatever is not the end of the drain or of the
process. -/
def Connected (r : ℕ) (_ : Cluster) (a : Action) (_ : Cluster) : Prop :=
  a ≠ .replica r (.tryRecv false) ∧ a ≠ .replica r .crash

theorem draining_step {c' : Cluster} {a : Action} (h : ClusterStep config c a c')
    (ha : Connected r c a c') (hi : ∃ p, c.replicas r = some p ∧ p.stage = .draining) :
    ∃ p, c'.replicas r = some p ∧ p.stage = .draining := by
  obtain ⟨p, hp, hst⟩ := hi
  cases h with
  | outside | rescan => exact ⟨p, hp, hst⟩
  | start k s hk =>
    rcases eq_or_ne r k with rfl | hne
    · rw [hp] at hk
      cases hk
    · exact ⟨p, (Function.update_of_ne hne ..).trans hp, hst⟩
  | replica k b q s q' hk hs =>
    rcases eq_or_ne r k with rfl | hne
    · obtain rfl := Option.some.inj (hp.symm.trans hk)
      cases hs with
      | cancel => exact ⟨_, Function.update_self .., hst⟩
      | drained => exact ⟨p, Function.update_self .., hst⟩
      | drainEnded => exact absurd rfl ha.1
      | crash => exact absurd rfl ha.2
      | _ => simp_all
    · exact ⟨p, (Function.update_of_ne hne ..).trans hp, hst⟩

/-- **Where a replica may wait.** From every state that is reached, and whatever has gone wrong
before, a replica that is not in the drain can go on by itself with healthy steps until it is back
in `select!`, as long as `dispatch_concurrency` is not zero; unless it comes to a delivery whose
lock it cannot compute, where it panics. In the drain it stays, whatever happens, until the
connection is lost or the process ends; neither the poll timer nor the token is looked at there. -/
theorem cycle_completes (hn : 0 < config.dispatch.dispatchConcurrency)
    (h : Run (step config) ok (boot now) c) (hp : c.replicas r = some p) :
    (p.stage ≠ .draining → ∃ c', Run (step config) (fun _ a _ => GoesOn r a) c c' ∧
      ((∃ p', c'.replicas r = some p' ∧ p'.stage = .waiting) ∨
        ∃ t ∈ c'.sys.tasks.rows, ∃ due, t.phase = .ready due ∧
          computeLockUntil c'.sys.now due.target.timeout config.dispatch.lockBuffer = none)) ∧
      (p.stage = .draining → ∀ c', Run (step config) (Connected r) c c' →
        ∃ p', c'.replicas r = some p' ∧ p'.stage = .draining) :=
  ⟨completes_of_not_draining hn (h.mono fun _ _ _ _ => trivial) hp, fun hst _ hrun =>
    hrun.invariant (fun c => ∃ p, c.replicas r = some p ∧ p.stage = .draining) ⟨p, hp, hst⟩
      fun _ _ _ hi hs ho => draining_step (clusterStep_of_step hs) ho hi⟩

end

/-- A replica that can go on, and one that waits in the drain until well after its next poll. -/
theorem cycle_completes_waits :
    (∃ c, Run (@step sampleCrates smallBatches) anyStep (boot 0) c ∧ Busy 0 c ∧
      ∃ c', Run (@step sampleCrates smallBatches) (fun _ a _ => GoesOn 0 a) c c' ∧
        ((∃ p', c'.replicas 0 = some p' ∧ p'.stage = .waiting) ∨
          ∃ t ∈ c'.sys.tasks.rows, ∃ due, t.phase = .ready due ∧
            computeLockUntil c'.sys.now due.target.timeout smallBatches.dispatch.lockBuffer =
              none)) ∧
      ∃ c c' p', Run (@step sampleCrates smallBatches) anyStep (boot 0) c ∧
        Run (@step sampleCrates smallBatches) (Connected 0) c c' ∧ c'.replicas 0 = some p' ∧
        p'.stage = .draining := by
  constructor
  · obtain ⟨c, hrun, ⟨p, hp, hst⟩, hd⟩ :
        ∃ c, Run (@step sampleCrates smallBatches) anyStep (boot 0) c ∧
        Busy 0 c ∧ ∀ p ∈ c.replicas 0, p.stage ≠ .draining :=
      Run.exists_of_exec (selecting ++ wholeCycle) (by decide +kernel)
    exact ⟨c, hrun, ⟨p, hp, hst⟩,
      (@cycle_completes sampleCrates smallBatches 0 p c 0 _ (by decide) hrun hp).1 (hd p hp)⟩
  · obtain ⟨c, hrun, p, hp, hd⟩ : ∃ c, Run (@step sampleCrates smallBatches) anyStep (boot 0) c ∧
        ∃ p ∈ c.replicas 0, p.stage = .draining :=
      Run.exists_of_exec (selecting ++ [.replica 0 (.recv true)]) (by decide +kernel)
    have htick : Run (@step sampleCrates smallBatches) (Connected 0) c
        { c with sys := { c.sys with now := c.sys.now + (3600000000000 : ℕ) } } :=
      Run.refl.tail (a := .outside (.tick 3600000000000)) rfl ⟨by simp, by simp⟩
    obtain ⟨p', hp', hst'⟩ :=
      (@cycle_completes sampleCrates smallBatches 0 p c 0 _ (by decide) hrun hp).2 hd _ htick
    exact ⟨c, _, p', hrun, htick, hp', hst'⟩

end OutboxDispatcher.Replicas.Progress
