import OutboxDispatcher.Replicas
import OutboxDispatcher.System.Rows

/-! # What a step of a replica can do

`ReplicaStep` lists the cases of `Replica.step` with their guards, `ClusterStep` those of `step`.
What they do to the system is at most one step of it, and then perhaps the end of the process
(`Moves`); so every run of the processes is a run of the system (`system_run`). -/

namespace OutboxDispatcher.Replicas.Effects

open OutboxDispatcher.Lib.Buffered OutboxDispatcher.Lib.Runs OutboxDispatcher.Lib.Tables
open OutboxDispatcher.Schema OutboxDispatcher.Callbacks.Fields
open OutboxDispatcher.Repo.Statements OutboxDispatcher.Scheduler.Pass OutboxDispatcher.Dispatch
open OutboxDispatcher.System OutboxDispatcher.System.Effects OutboxDispatcher.System.History
open OutboxDispatcher.Replicas

variable [Crates]

/-- The steps of a started task that are none of its computations of a time. -/
def isStatement : TaskAction → Bool
  | .computeLock | .respond _ _ | .crash => false
  | _ => true

/-- The cases of `Replica.step`. -/
inductive ReplicaStep (config : LoopConfig) (r : ℕ) (s : Sys) (p : Replica) :
    Act → Sys → Option Replica → Prop
  | cancel : ReplicaStep config r s p .cancel s (some { p with shutdown := true })
  | crash : ReplicaStep config r s p .crash (kill s r p.stage.tasks) none
  | stop (hp : p.stage = .waiting) (hs : p.shutdown = true) :
      ReplicaStep config r s p .stop (kill s r []) none
  | recv (ok : Bool) (hp : p.stage = .waiting) (hs : p.shutdown = false) :
      ReplicaStep config r s p (.recv ok) s
        (some { p with stage := .draining, listenerStatus := ok })
  | pollTimer (hp : p.stage = .waiting) (hs : p.shutdown = false) (ht : p.nextPoll ≤ s.now) :
      ReplicaStep config r s p .pollTimer s (some { p with stage := .draining })
  | drained (hp : p.stage = .draining) : ReplicaStep config r s p (.tryRecv true) s (some p)
  | drainEnded (hp : p.stage = .draining) :
      ReplicaStep config r s p (.tryRecv false) s (some { p with stage := .scheduling })
  | passEmpty (cursor : ℤ) (hp : p.stage = .scheduling) (hc : s.scheds r = .idle cursor)
      (he : fetchNewEvents s.db cursor config.dispatch.scheduleBatchSize = some []) :
      ReplicaStep config r s p (.fetchNew true) s (some p.passDone)
  | passStarted (cursor : ℤ) (e : RawEvent) (rest : List RawEvent) (s' : Sys)
      (hp : p.stage = .scheduling) (hc : s.scheds r = .idle cursor)
      (he : fetchNewEvents s.db cursor config.dispatch.scheduleBatchSize = some (e :: rest))
      (h : System.step config.dispatch s (.sched r .poll) = some s') :
      ReplicaStep config r s p (.fetchNew true) s' (some p)
  | fetchNewFailed (ok : Bool) (cursor : ℤ) (hp : p.stage = .scheduling)
      (hc : s.scheds r = .idle cursor) :
      ReplicaStep config r s p (.fetchNew ok) s (some (p.passFailed config s.now))
  | wrote (fault : Fault) (c : ℤ) (l : Loop) (s' : Sys) (hp : p.stage = .scheduling)
      (h : System.step config.dispatch s (.sched r (.write fault)) = some s')
      (hr : s'.scheds r = .running c l) : ReplicaStep config r s p (.write fault) s' (some p)
  | writeFailed (fault : Fault) (s' : Sys) (hp : p.stage = .scheduling)
      (h : System.step config.dispatch s (.sched r (.write fault)) = some s')
      (hr : ∀ c l, s'.scheds r ≠ .running c l) :
      ReplicaStep config r s p (.write fault) s' (some (p.passFailed config s.now))
  | nextEvent (c : ℤ) (l : Loop) (s' : Sys) (hp : p.stage = .scheduling)
      (h : System.step config.dispatch s (.sched r .next) = some s')
      (hr : s'.scheds r = .running c l) : ReplicaStep config r s p .nextEvent s' (some p)
  | passDone (s' : Sys) (hp : p.stage = .scheduling)
      (h : System.step config.dispatch s (.sched r .next) = some s')
      (hr : ∀ c l, s'.scheds r ≠ .running c l) :
      ReplicaStep config r s p .nextEvent s' (some p.passDone)
  | wake (wakeAt : Time) (hp : p.stage = .backingOff wakeAt) (ht : wakeAt ≤ s.now) :
      ReplicaStep config r s p .wake s
        (some { p with stage := .waiting, nextPoll := s.now + config.pollInterval })
  | fetchDueFailed (ok : Bool) (hp : p.stage = .fetching)
      (h : ok = true → System.step config.dispatch s .fetch = none) :
      ReplicaStep config r s p (.fetchDue ok) s (some (p.dispatchDone config s.now))
  | fetchDue (s' : Sys) (hp : p.stage = .fetching)
      (h : System.step config.dispatch s .fetch = some s') :
      ReplicaStep config r s p (.fetchDue true) s'
        (some (p.examine (.range' s.nextTid (s'.nextTid - s.nextTid)) []))
  | examined (tid : ℕ) (fault : Fault) (rows ready : List ℕ) (s' : Sys)
      (hp : p.stage = .examining (tid :: rows) ready)
      (h : System.step config.dispatch s (.task tid (.examine fault)) = some s') :
      ReplicaStep config r s p (.task tid (.examine fault)) s'
        (some (p.examine rows (if alive s' tid then ready ++ [tid] else ready)))
  | started (tid : ℕ) (stream stream' : Buffer ℕ) (s' : Sys) (hp : p.stage = .streaming stream)
      (hs : stream.start config.dispatch.dispatchConcurrency = some (tid, stream'))
      (h : System.step config.dispatch s (.task tid .computeLock) = some s') (ha : alive s' tid) :
      ReplicaStep config r s p (.task tid .computeLock) s'
        (some { p with stage := .streaming stream' })
  | startPanicked (tid : ℕ) (stream stream' : Buffer ℕ) (s' : Sys)
      (hp : p.stage = .streaming stream)
      (hs : stream.start config.dispatch.dispatchConcurrency = some (tid, stream'))
      (h : System.step config.dispatch s (.task tid .computeLock) = some s')
      (ha : alive s' tid = false) :
      ReplicaStep config r s p (.task tid .computeLock) (kill s' r stream'.items) none
  | advanced (tid : ℕ) (a : TaskAction) (stream : Buffer ℕ) (s' : Sys)
      (hp : p.stage = .streaming stream)
      (hm : tid ∈ stream.running) (h : System.step config.dispatch s (.task tid a) = some s')
      (ha : alive s' tid) : ReplicaStep config r s p (.task tid a) s' (some p)
  | responsePanicked (tid : ℕ) (result : CallbackResult) (jitter : ℚ) (stream : Buffer ℕ) (s' : Sys)
      (hp : p.stage = .streaming stream) (hm : tid ∈ stream.running)
      (h : System.step config.dispatch s (.task tid (.respond result jitter)) = some s')
      (ha : alive s' tid = false) :
      ReplicaStep config r s p (.task tid (.respond result jitter)) (kill s' r stream.items) none
  | finished (tid : ℕ) (a : TaskAction) (stream : Buffer ℕ) (s' : Sys)
      (hp : p.stage = .streaming stream) (hm : tid ∈ stream.running) (hst : isStatement a)
      (h : System.step config.dispatch s (.task tid a) = some s') (ha : alive s' tid = false) :
      ReplicaStep config r s p (.task tid a) s'
        (some { p with stage := .streaming (stream.finish tid) })
  | streamDone (stream : Buffer ℕ) (hp : p.stage = .streaming stream) (hd : stream.items = []) :
      ReplicaStep config r s p .streamDone s (some (p.dispatchDone config s.now))
  | swept (fault : Fault) (s' : Sys) (hp : p.stage = .sweeping) (hf : fault ≠ .lost)
      (h : System.step config.dispatch s .sweep = some s') :
      ReplicaStep config r s p (.sweep fault) s'
        (some ({ p with lastSweep := s.now }.endCycle config s.now))
  | sweepFailed (fault : Fault) (hp : p.stage = .sweeping) :
      ReplicaStep config r s p (.sweep fault) s
        (some ({ p with lastSweep := s.now }.endCycle config s.now))

variable {config : LoopConfig} {r : ℕ} {s s' : Sys} {p : Replica} {p' : Option Replica} {a : Act}

theorem replicaStep_of_stream {stream : Buffer ℕ} (hp : p.stage = .streaming stream) {tid : ℕ}
    {b : TaskAction} (h : p.streamStep config r s stream tid b = some (s', p')) :
    ReplicaStep config r s p (.task tid b) s' p' := by
  have hrun : ∀ s₁, tid ∈ stream.running → System.step config.dispatch s (.task tid b) = some s₁ →
      isStatement b → (if alive s₁ tid then (s₁, some p)
        else (s₁, some { p with stage := .streaming (stream.finish tid) })) = (s', p') →
      ReplicaStep config r s p (.task tid b) s' p' := by
    intro s₁ hm hs hst heq
    split_ifs at heq with ha
    · cases heq
      exact .advanced tid b stream _ hp hm hs ha
    · cases heq
      exact .finished tid b stream _ hp hm hst hs (by simpa using ha)
  cases b with
  | computeLock =>
    simp only [Replica.streamStep, Option.bind_eq_bind, Option.bind_eq_some_iff,
      Option.pure_def] at h
    obtain ⟨⟨next, stream'⟩, hst, h⟩ := h
    dsimp only at h
    split_ifs at h with hn
    obtain ⟨s₁, hs, h⟩ := Option.bind_eq_some_iff.mp h
    subst hn
    split_ifs at h with ha
    · cases h
      exact .started next stream stream' _ hp hst hs ha
    · cases h
      exact .startPanicked next stream stream' s₁ hp hst hs (by simpa using ha)
  | respond result jitter =>
    simp only [Replica.streamStep] at h
    split_ifs at h with hm
    obtain ⟨s₁, hs, h⟩ := Option.bind_eq_some_iff.mp h
    split_ifs at h with ha
    · cases h
      exact .advanced tid _ stream _ hp hm hs ha
    · cases h
      exact .responsePanicked tid result jitter stream s₁ hp hm hs (by simpa using ha)
  | crash => cases h
  | examine fault | lock fault | deliver | writeBack fault =>
    simp only [Replica.streamStep] at h
    split_ifs at h with hm
    obtain ⟨s₁, hs, h⟩ := Option.bind_eq_some_iff.mp h
    refine hrun s₁ hm hs rfl ?_
    split_ifs at h ⊢ <;> exact Option.some.inj h

/-- **Every step of a replica is one of these.** -/
theorem replicaStep_of_step (h : p.step config r s a = some (s', p')) :
    ReplicaStep config r s p a s' p' := by
  unfold Replica.step at h
  split at h
  · cases h; exact .cancel
  · cases h; exact .crash
  · next hp =>
    split_ifs at h with hs
    cases h; exact .stop hp hs
  · next ok hp =>
    split_ifs at h with hs
    cases h; exact .recv ok hp (by simpa using hs)
  · next hp =>
    split_ifs at h with hs
    cases h
    rw [Bool.and_eq_true, Bool.not_eq_true', decide_eq_true_eq] at hs
    exact .pollTimer hp hs.1 hs.2
  · next found hp =>
    cases h
    cases found with
    | true => exact .drained hp
    | false => exact .drainEnded hp
  · next ok hp =>
    split at h
    · next cursor hc =>
      split at h
      · next he => cases h; exact .passEmpty cursor hp hc he
      · next e rest he =>
        obtain ⟨s₁, hs, h⟩ := Option.map_eq_some_iff.mp h
        cases h; exact .passStarted cursor e rest _ hp hc he hs
      · cases h; exact .fetchNewFailed _ cursor hp hc
    · cases h
  · next fault hp =>
    obtain ⟨s₁, hs, h⟩ := Option.bind_eq_some_iff.mp h
    split at h
    · next c l hr => cases h; exact .wrote fault c l _ hp hs hr
    · next hr => cases h; exact .writeFailed fault _ hp hs hr
  · next hp =>
    obtain ⟨s₁, hs, h⟩ := Option.bind_eq_some_iff.mp h
    split at h
    · next c l hr => cases h; exact .nextEvent c l _ hp hs hr
    · next hr => cases h; exact .passDone _ hp hs hr
  · next wakeAt hp =>
    split_ifs at h with ht
    cases h; exact .wake wakeAt hp ht
  · next ok hp =>
    split at h
    · next hs => cases h; exact .fetchDueFailed ok hp fun hok => by simpa [hok] using hs
    · next s₁ hs =>
      split_ifs at hs with hok
      subst hok
      cases h; exact .fetchDue _ hp hs
  · next next rows ready tid fault hp =>
    split_ifs at h with hn
    obtain ⟨s₁, hs, h⟩ := Option.bind_eq_some_iff.mp h
    subst hn
    cases h; exact .examined next fault rows ready _ hp hs
  · next stream tid b hp => exact replicaStep_of_stream hp h
  · next stream hp =>
    split_ifs at h with hd
    cases h; exact .streamDone stream hp (by simpa using hd)
  · next fault hp =>
    cases h
    split_ifs with hf
    · exact .sweepFailed fault hp
    · rcases hs : System.step config.dispatch s .sweep with _ | s₁
      · exact .sweepFailed fault hp
      · exact .swept fault s₁ hp hf hs
  · cases h

/-- The cases of `step`. -/
inductive ClusterStep (config : LoopConfig) (c : Cluster) : Action → Cluster → Prop
  | outside (a : System.Action) (s : Sys) (ha : isOutside a)
      (h : System.step config.dispatch c.sys a = some s) :
      ClusterStep config c (.outside a) { c with sys := s }
  | rescan (k : ℕ) (a : SchedAction) (s : Sys) (hk : c.replicas k = none) (ha : a ≠ .recover)
      (h : System.step config.dispatch c.sys (.sched k a) = some s) :
      ClusterStep config c (.rescan k a) { c with sys := s }
  | start (r : ℕ) (s : Sys) (hr : c.replicas r = none)
      (h : System.step config.dispatch c.sys (.sched r .recover) = some s) :
      ClusterStep config c (.replica r .start)
        { sys := s
          replicas := Function.update c.replicas r
            (some { nextPoll := s.now + config.pollInterval, lastSweep := s.now }) }
  | replica (r : ℕ) (a : Act) (p : Replica) (s : Sys) (p' : Option Replica)
      (hr : c.replicas r = some p) (h : ReplicaStep config r c.sys p a s p') :
      ClusterStep config c (.replica r a) { sys := s, replicas := Function.update c.replicas r p' }

theorem clusterStep_of_step {c c' : Cluster} {a : Action} (h : step config c a = some c') :
    ClusterStep config c a c' := by
  cases a with
  | outside a =>
    simp only [step] at h
    split_ifs at h with ha
    obtain ⟨s, hs, rfl⟩ := Option.map_eq_some_iff.mp h
    exact .outside a s ha hs
  | rescan k a =>
    simp only [step] at h
    split_ifs at h with ha
    obtain ⟨s, hs, rfl⟩ := Option.map_eq_some_iff.mp h
    exact .rescan k a s (by simpa using ha.1) ha.2 hs
  | replica r a =>
    simp only [step] at h
    split at h
    · next hr =>
      obtain ⟨s, hs, h⟩ := Option.bind_eq_some_iff.mp h
      cases h
      exact .start r s hr hs
    · cases h
    · next p hr =>
      obtain ⟨⟨s, p'⟩, hs, h⟩ := Option.bind_eq_some_iff.mp h
      cases h
      exact .replica r _ p s p' hr (replicaStep_of_step hs)

/-! ### The system under the processes -/

/-- The step of the system that a replica makes: only its stage lets it through. -/
inductive Drives (r : ℕ) (p : Replica) : Act → System.Action → Prop
  | poll (hp : p.stage = .scheduling) : Drives r p (.fetchNew true) (.sched r .poll)
  | write (fault : Fault) (hp : p.stage = .scheduling) :
      Drives r p (.write fault) (.sched r (.write fault))
  | next (hp : p.stage = .scheduling) : Drives r p .nextEvent (.sched r .next)
  | fetch (hp : p.stage = .fetching) : Drives r p (.fetchDue true) .fetch
  | task (tid : ℕ) (b : TaskAction) (hm : tid ∈ p.stage.tasks) :
      Drives r p (.task tid b) (.task tid b)
  | sweep (fault : Fault) (hp : p.stage = .sweeping) : Drives r p (.sweep fault) .sweep

/-- Whose step of the system it is. -/
inductive Cause (c : Cluster) : Action → System.Action → Prop
  | outside (b : System.Action) (hb : isOutside b) : Cause c (.outside b) b
  | rescan (k : ℕ) (b : SchedAction) (hk : c.replicas k = none) : Cause c (.rescan k b) (.sched k b)
  | start (r : ℕ) : Cause c (.replica r .start) (.sched r .recover)
  | replica (r : ℕ) (p : Replica) (a : Act) (b : System.Action) (hp : c.replicas r = some p)
      (h : Drives r p a b) : Cause c (.replica r a) b

def actor : Action → ℕ
  | .outside _ => 0
  | .rescan k _ => k
  | .replica r _ => r

/-- At most one step of the system, and then perhaps the end of the process `r`. -/
inductive Moves (config : DispatchConfig) (may : System.Action → Prop) (r : ℕ) (s : Sys) :
    Sys → Prop
  | stay : Moves config may r s s
  | step (b : System.Action) (s' : Sys) (hb : may b) (h : System.step config s b = some s') :
      Moves config may r s s'
  | killed (tids : List ℕ) : Moves config may r s (kill s r tids)
  | panicked (b : System.Action) (s₁ : Sys) (tids : List ℕ) (hb : may b)
      (h : System.step config s b = some s₁) : Moves config may r s (kill s₁ r tids)

theorem ReplicaStep.moves (h : ReplicaStep config r s p a s' p') :
    Moves config.dispatch (Drives r p a) r s s' := by
  have hrun : ∀ {stream : Buffer ℕ} {tid : ℕ}, p.stage = .streaming stream → tid ∈ stream.running →
      tid ∈ p.stage.tasks := fun hp hm => by rw [hp]; exact List.mem_append_right _ hm
  have hqueue : ∀ {stream stream' : Buffer ℕ} {tid : ℕ}, p.stage = .streaming stream →
      stream.start config.dispatch.dispatchConcurrency = some (tid, stream') →
      tid ∈ p.stage.tasks := by
    intro stream stream' tid hp hst
    rw [hp]
    exact List.mem_append_left _ (by simp [(Buffer.start_eq_some hst).2.1])
  cases h with
  | crash | stop => exact .killed _
  | passStarted _ _ _ _ hp _ _ hs => exact .step _ _ (.poll hp) hs
  | wrote _ _ _ _ hp hs | writeFailed _ _ hp hs => exact .step _ _ (.write _ hp) hs
  | nextEvent _ _ _ hp hs | passDone _ hp hs => exact .step _ _ (.next hp) hs
  | fetchDue _ hp hs => exact .step _ _ (.fetch hp) hs
  | examined _ _ _ _ _ hp hs => exact .step _ _ (.task _ _ (by simp [hp, Stage.tasks])) hs
  | started _ _ _ _ hp hst hs => exact .step _ _ (.task _ _ (hqueue hp hst)) hs
  | startPanicked _ _ _ _ hp hst hs => exact .panicked _ _ _ (.task _ _ (hqueue hp hst)) hs
  | advanced _ _ _ _ hp hm hs | finished _ _ _ _ hp hm _ hs =>
    exact .step _ _ (.task _ _ (hrun hp hm)) hs
  | responsePanicked _ _ _ _ _ hp hm hs => exact .panicked _ _ _ (.task _ _ (hrun hp hm)) hs
  | swept _ _ hp _ hs => exact .step _ _ (.sweep _ hp) hs
  | _ => exact .stay

theorem Moves.mono {config : DispatchConfig} {may may' : System.Action → Prop}
    (h : Moves config may r s s') (himp : ∀ b, may b → may' b) : Moves config may' r s s' := by
  cases h with
  | stay => exact .stay
  | step b s' hb h => exact .step b s' (himp b hb) h
  | killed tids => exact .killed tids
  | panicked b s₁ tids hb h => exact .panicked b s₁ tids (himp b hb) h

theorem ClusterStep.moves {c c' : Cluster} {a : Action} (h : ClusterStep config c a c') :
    Moves config.dispatch (Cause c a) (actor a) c.sys c'.sys := by
  cases h with
  | outside b s hb hs => exact .step _ s (.outside b hb) hs
  | rescan k b s hk _ hs => exact .step _ s (.rescan k b hk) hs
  | start r s _ hs => exact .step _ s (.start r) hs
  | replica r a p s p' hr hs => exact hs.moves.mono fun b hb => .replica r p a b hr hb

section Kill

variable {config : DispatchConfig}

omit [Crates] in
theorem foldl_dropTask (tids : List ℕ) (s : Sys) :
    tids.foldl dropTask s = { s with tasks := (tids.foldl dropTask s).tasks } := by
  induction tids generalizing s with
  | nil => rfl
  | cons tid tids ih => exact (ih (dropTask s tid)).trans rfl

omit [Crates] in
/-- The end of a process leaves everything but its tasks and its cursor. -/
theorem kill_eq (s : Sys) (r : ℕ) (tids : List ℕ) : kill s r tids =
    { s with
      tasks := (tids.foldl dropTask s).tasks
      scheds := Function.update s.scheds r .down } := by
  unfold kill
  rw [foldl_dropTask]

omit [Crates] in
theorem mem_tasks_kill {s : Sys} {r : ℕ} {tids : List ℕ} {t : Task} :
    t ∈ (kill s r tids).tasks.rows ↔ t ∈ s.tasks.rows ∧ t.tid ∉ tids := by
  show t ∈ (tids.foldl dropTask s).tasks.rows ↔ _
  induction tids generalizing s with
  | nil => simp
  | cons tid tids ih =>
    rw [List.foldl_cons, ih, dropTask, setPhase, Table.rows_filter, List.mem_filter, List.mem_cons,
      not_or]
    simp only [bne_iff_ne, and_assoc, ne_eq]

/-- A task that is dropped is one that crashes. -/
theorem run_dropTask (s : Sys) (tid : ℕ) : Run (System.step config) anyStep s (dropTask s tid) := by
  rcases ht : s.tasks.get tid with _ | t
  · have hsame : dropTask s tid = s := by
      have hrows : s.tasks.filter (·.tid != tid) = s.tasks := by
        have hne := Table.get_eq_none_iff.mp ht
        generalize s.tasks = tasks at hne
        obtain ⟨rows, nodup⟩ := tasks
        simp only [Table.filter, Table.mk.injEq]
        exact List.filter_eq_self.mpr fun t hm => by simpa using hne t hm
      unfold dropTask setPhase
      rw [hrows]
    rw [hsame]
    exact .refl
  · refine Run.refl.tail (a := .task tid .crash) ?_ trivial
    simp only [System.step, ht, Option.bind_eq_bind, Option.bind_some]
    unfold Task.step
    cases t.phase <;> rfl

/-- **The end of a process** is the crash of its tasks and of its scheduling. -/
theorem run_kill (s : Sys) (r : ℕ) (tids : List ℕ) :
    Run (System.step config) anyStep s (kill s r tids) := by
  have hfold : ∀ (tids : List ℕ) (s : Sys),
      Run (System.step config) anyStep s (tids.foldl dropTask s) := by
    intro tids
    induction tids with
    | nil => exact fun s => .refl
    | cons tid tids ih => exact fun s => (run_dropTask s tid).trans (ih _)
  refine (hfold tids s).trans (Run.refl.tail (a := .sched r .crash) ?_ trivial)
  have hcrash : ∀ s : Sys, System.step config s (.sched r .crash) =
      some { s with scheds := Function.update s.scheds r .down } := by
    intro s
    simp only [System.step]
    cases hr : s.scheds r <;> simp [Sched.step, schedObs]
  rw [hcrash, foldl_dropTask, kill_eq]

end Kill

theorem Moves.run {config : DispatchConfig} {may : System.Action → Prop}
    (h : Moves config may r s s') : Run (System.step config) anyStep s s' := by
  cases h with
  | stay => exact .refl
  | step b s' _ h => exact Run.refl.tail h trivial
  | killed tids => exact run_kill s r tids
  | panicked b s₁ tids _ h => exact (Run.refl.tail h trivial).trans (run_kill s₁ r tids)

/-- What holds of the system is kept, if the steps that may be made keep it and the end of a process
does. -/
theorem Moves.invariant {config : DispatchConfig} {may : System.Action → Prop} (I : Sys → Prop)
    (h : Moves config may r s s') (hi : I s) (hstep : ∀ b s', may b → Step config s b s' → I s')
    (hkill : ∀ s tids, I s → I (kill s r tids)) : I s' := by
  cases h with
  | stay => exact hi
  | step b s' hb h => exact hstep b s' hb (step_cases h)
  | killed tids => exact hkill s tids hi
  | panicked b s₁ tids hb h => exact hkill s₁ tids (hstep b s₁ hb (step_cases h))

/-- **The processes are part of the system**: whatever they do, the system can do. -/
theorem system_run {c₀ c : Cluster} {ok : Cluster → Action → Cluster → Prop}
    (h : Run (step config) ok c₀ c) : Run (System.step config.dispatch) anyStep c₀.sys c.sys := by
  induction h with
  | refl => exact .refl
  | tail _ hs _ ih => exact ih.trans (clusterStep_of_step hs).moves.run

end OutboxDispatcher.Replicas.Effects
