import OutboxDispatcher.System.Counts

/-! # One dispatcher, seen from one delivery

A dispatcher works through its batch before it fetches again, and a batch has no row twice. So as
long as it is the only dispatcher, no delivery is in two hands, and of the whole system only two
things matter for a delivery: its row and the task that is at it, if there is one. `View` is this
pair, and `view_step` says what a step of the system can do to it when the dispatcher does not crash
and no statement of it fails.

`marks` is what happens to the delivery in a step: it is locked, called, answered, written back, or
found hung by the sweep. -/

namespace OutboxDispatcher.Dispatch.Solo

open OutboxDispatcher.Lib.Runs OutboxDispatcher.Lib.Tables OutboxDispatcher.Schema
open OutboxDispatcher.Callbacks.Fields OutboxDispatcher.Retry OutboxDispatcher.Repo.Database
open OutboxDispatcher.Repo.Database.Db
open OutboxDispatcher.Repo.Statements OutboxDispatcher.Scheduler.Pass OutboxDispatcher.Dispatch
open OutboxDispatcher.System OutboxDispatcher.System.Effects OutboxDispatcher.System.History
open OutboxDispatcher.System.Rows OutboxDispatcher.System.Counts

/-! ### One dispatcher -/

instance : DecidablePred InJitterRange := fun _ => inferInstanceAs (Decidable (_ ∧ _))

/-- The task neither crashes nor panics, and its statements succeed. -/
def smooth (now : Time) : Phase → TaskAction → Bool
  | _, .crash => false
  | _, .examine fault | _, .lock fault | _, .writeBack fault => fault = .ok
  | .delivering due _, .respond result jitter =>
    InJitterRange jitter && (writeBackStmt now jitter due result).isSome
  | _, _ => true

/-- There is one dispatcher: it fetches when it is done with its batch, and nothing goes wrong in
it. -/
def Alone (s : Sys) : Action → Prop
  | .fetch => s.tasks.rows = []
  | .task tid b => ∀ t ∈ s.tasks.get tid, smooth s.now t.phase b
  | _ => True

instance (s : Sys) (a : Action) : Decidable (Alone s a) :=
  match a with
  | .fetch => decidable_of_iff (s.tasks.rows.isEmpty) List.isEmpty_iff
  | .task tid b => inferInstanceAs (Decidable (∀ t ∈ s.tasks.get tid, smooth s.now t.phase b))
  | .tick _ | .publish _ | .commit _ | .rollback _ | .sched _ _ | .sweep | .retry _ | .complete _
  | .abandon _ | .retention _ _ _ => .isTrue trivial

theorem Alone.idle {s : Sys} {a : Action} (ha : Alone s a) : a = .fetch → s.tasks.rows = [] := by
  rintro rfl
  exact ha

/-! ### One delivery -/

inductive Mark
  | locked
  /-- A call of the receiver starts. -/
  | call (attempt : ℤ)
  | answer (result : CallbackResult)
  | wroteBack
  /-- The sweep finds the row hung, and resets it for another delivery or not. -/
  | timedOut (again : Bool)
  deriving DecidableEq

def mark? (d : ℤ) : Obs → Option Mark
  | .locked _ d' => if d' = d then some .locked else none
  | .deliver _ event => if event.deliveryId = d then some (.call event.attempt) else none
  | .respond _ d' result => if d' = d then some (.answer result) else none
  | .wroteBack _ d' _ => if d' = d then some .wroteBack else none
  | _ => none

def marks (config : DispatchConfig) (d : ℤ) (s : Sys) (a : Action) (s' : Sys) : List Mark :=
  match a with
  | .sweep =>
    match (s.db.deliveries.get d).bind fun r =>
      (hungLimit s.db s.now (asI32 config.maxCompletionCycles) r).join with
    | some _ => [.timedOut ((s'.db.deliveries.get d).all (!·.deadLetter))]
    | none => []
  | _ => (newObs s s').filterMap (mark? d)

/-- A delivery: the task that is at it, and its row. -/
structure View where
  task : Option Task
  row : Option DeliveryRow

def view (s : Sys) (d : ℤ) : View :=
  ⟨s.tasks.rows.find? (·.row.deliveryId = d), s.db.deliveries.get d⟩

/-! ### Nothing is fetched twice -/

theorem newTasks_inj {n : ℕ} {rows : List DueDeliveryRow} (h : (rows.map (·.deliveryId)).Nodup)
    {t t' : Task} (ht : t ∈ newTasks n rows) (ht' : t' ∈ newTasks n rows)
    (hd : t.row.deliveryId = t'.row.deliveryId) : t = t' := by
  obtain ⟨⟨row, i⟩, hm, rfl⟩ := List.mem_map.mp ht
  obtain ⟨⟨row', j⟩, hm', rfl⟩ := List.mem_map.mp ht'
  have hi : rows[i]? = some row := List.mk_mem_zipIdx_iff_getElem?.mp hm
  have hj : rows[j]? = some row' := List.mk_mem_zipIdx_iff_getElem?.mp hm'
  have hlt : i < (rows.map (·.deliveryId)).length := by
    rw [List.length_map]
    exact (List.getElem?_eq_some_iff.mp hi).1
  have hij : i = j := by
    refine (List.getElem?_inj hlt h).mp ?_
    rw [List.getElem?_map, List.getElem?_map, hi, hj, Option.map_some, Option.map_some]
    exact congrArg some hd
  subst hij
  rw [hi, Option.some.injEq] at hj
  rw [hj]

/-- No two tasks are at one delivery. -/
def Single (s : Sys) : Prop :=
  ∀ t ∈ s.tasks.rows, ∀ t' ∈ s.tasks.rows, t.row.deliveryId = t'.row.deliveryId → t = t'

section

variable [Crates] {config : DispatchConfig} {s s' : Sys} {a : Action} {d : ℤ}

theorem origin_of_mem (h : Step config s a s') (ha : a ≠ .fetch) {t : Task}
    (ht : t ∈ s'.tasks.rows) : ∃ t₀ ∈ s.tasks.rows, t₀.tid = t.tid ∧ t₀.row = t.row := by
  rcases h.tasks ht with ⟨hold, -⟩ | ⟨hf, -⟩ | ⟨t₀, ht₀, b, obs, -, heq, -⟩
  · exact ⟨t, hold, rfl, rfl⟩
  · exact absurd hf ha
  · exact ⟨t₀, ht₀, by rw [heq], by rw [heq]⟩

theorem single_step (hs : Single s) (h : Step config s a s') (ha : a = .fetch → s.tasks.rows = []) :
    Single s' := by
  intro t ht t' ht' hd
  by_cases hf : a = .fetch
  · subst hf
    cases h with
    | fetch rows hsel =>
      have hnone := ha rfl
      rcases mem_addTasks _ ht with ht | ht
      · simp [hnone] at ht
      rcases mem_addTasks _ ht' with ht' | ht'
      · simp [hnone] at ht'
      exact newTasks_inj (selectDue_nodup hsel) ht ht' hd
  · obtain ⟨t₀, ht₀, htid, hrow⟩ := origin_of_mem h hf ht
    obtain ⟨t₁, ht₁, htid', hrow'⟩ := origin_of_mem h hf ht'
    have heq : t₀ = t₁ := hs t₀ ht₀ t₁ ht₁ (by rw [hrow, hrow', hd])
    exact Table.eq_of_key ht ht' (by rw [← htid, ← htid', heq])

omit [Crates] in
theorem single_init (now : Time) (scheds : ℕ → Sched) : Single (init now scheds) := by
  intro t ht
  simp [init] at ht

/-! ### Steps, seen from a delivery -/

omit [Crates] in
theorem task_eq_some (hs : Single s) {t : Task} :
    (view s d).task = some t ↔ t ∈ s.tasks.rows ∧ t.row.deliveryId = d := by
  show s.tasks.rows.find? (·.row.deliveryId = d) = some t ↔ _
  constructor
  · intro h
    exact ⟨List.mem_of_find?_eq_some h, by simpa using List.find?_some h⟩
  · rintro ⟨ht, hd⟩
    rcases hf : s.tasks.rows.find? (·.row.deliveryId = d) with _ | t'
    · simpa [hd] using List.find?_eq_none.mp hf t ht
    · have hd' : t'.row.deliveryId = d := by simpa using List.find?_some hf
      rw [hf, hs t' (List.mem_of_find?_eq_some hf) t ht (hd'.trans hd.symm)]

/-- **What a step does to a delivery.** -/
inductive ViewStep (config : DispatchConfig) (s : Sys) (d : ℤ) : Action → View → List Mark → View →
    Prop
  | keep (a : Action) (v : View) : ViewStep config s d a v [] v
  | inserted (p : ℕ) (b : SchedAction) (u : Uuid) (n : NewDelivery) (hd : s.db.deliverySeq ≤ d) :
      ViewStep config s d (.sched p b) ⟨none, none⟩ [] ⟨none, some (n.row d u s.now)⟩
  | fetched (t : Task) (r : DeliveryRow) (hp : t.phase = .fetched) (hdue : isDue s.now r)
      (ha : t.row.attempts = r.attempts) :
      ViewStep config s d .fetch ⟨none, some r⟩ [] ⟨some t, some r⟩
  | examined (t : Task) (due : DueDelivery) (r : Option DeliveryRow) (hp : t.phase = .fetched)
      (h : examineRow config t.row = .ok due) :
      ViewStep config s d (.task t.tid (.examine .ok)) ⟨some t, r⟩ []
        ⟨some { t with phase := .ready due }, r⟩
  | poisoned (t : Task) (reason : String) (r : Option DeliveryRow) (hp : t.phase = .fetched)
      (h : examineRow config t.row = .error reason) :
      ViewStep config s d (.task t.tid (.examine .ok)) ⟨some t, r⟩ []
        ⟨none, r.map ((Stmt.deadLetterPoison reason).assign s.now)⟩
  | computeLock (t : Task) (due : DueDelivery) (u : Time) (r : Option DeliveryRow)
      (hp : t.phase = .ready due) :
      ViewStep config s d (.task t.tid .computeLock) ⟨some t, r⟩ []
        ⟨some { t with phase := .locking due u }, r⟩
  | lockPanicked (t : Task) (due : DueDelivery) (r : Option DeliveryRow)
      (hp : t.phase = .ready due) :
      ViewStep config s d (.task t.tid .computeLock) ⟨some t, r⟩ [] ⟨none, r⟩
  | lock (t : Task) (due : DueDelivery) (u : Time) (r : DeliveryRow) (hp : t.phase = .locking due u)
      (hg : (Stmt.lockDelivery u).guard s.now r) :
      ViewStep config s d (.task t.tid (.lock .ok)) ⟨some t, some r⟩ [.locked]
        ⟨some { t with phase := .locked due u }, some ((Stmt.lockDelivery u).assign s.now r)⟩
  | lockRefused (t : Task) (due : DueDelivery) (u : Time) (r : Option DeliveryRow)
      (hp : t.phase = .locking due u) :
      ViewStep config s d (.task t.tid (.lock .ok)) ⟨some t, r⟩ [] ⟨none, r⟩
  | call (t : Task) (due : DueDelivery) (u : Time) (r : Option DeliveryRow)
      (hp : t.phase = .locked due u) :
      ViewStep config s d (.task t.tid .deliver) ⟨some t, r⟩ [.call (due.attempts + 1)]
        ⟨some { t with phase := .delivering due u }, r⟩
  | answer (t : Task) (due : DueDelivery) (u : Time) (r : Option DeliveryRow)
      (result : CallbackResult)
      (jitter : ℚ) (stmt : Stmt) (hp : t.phase = .delivering due u) (hj : InJitterRange jitter)
      (hw : WriteBack s.now jitter due result stmt) :
      ViewStep config s d (.task t.tid (.respond result jitter)) ⟨some t, r⟩ [.answer result]
        ⟨some { t with phase := .writing due u stmt }, r⟩
  | wroteBack (t : Task) (due : DueDelivery) (u : Time) (stmt : Stmt) (r : Option DeliveryRow)
      (hp : t.phase = .writing due u stmt) :
      ViewStep config s d (.task t.tid (.writeBack .ok)) ⟨some t, r⟩ [.wroteBack]
        ⟨none, r.map (stmt.assign s.now)⟩
  | swept (t : Option Task) (r : DeliveryRow) (maxCycles : ℤ)
      (h : hungLimit s.db s.now (asI32 config.maxCompletionCycles) r = some (some maxCycles)) :
      ViewStep config s d .sweep ⟨t, some r⟩ [.timedOut (r.completionCycles + 1 < maxCycles)]
        ⟨t, some (sweepRow s.now maxCycles r)⟩
  | retried (t : Option Task) (r : DeliveryRow) :
      ViewStep config s d (.retry d) ⟨t, some r⟩ [] ⟨t, some (Stmt.retryDelivery.assign s.now r)⟩
  | completed (t : Option Task) (r : DeliveryRow) :
      ViewStep config s d (.complete d) ⟨t, some r⟩ [] ⟨t,
        some (Stmt.completeDelivery.assign s.now r)⟩
  | abandoned (t : Option Task) (r : DeliveryRow) :
      ViewStep config s d (.abandon d) ⟨t, some r⟩ [] ⟨t,
        some (Stmt.abandonDelivery.assign s.now r)⟩
  | deleted (t : Option Task) (r : DeliveryRow) (deadLetterCutoff processedCutoff : Time) (n : ℤ) :
      ViewStep config s d (.retention deadLetterCutoff processedCutoff n) ⟨t, some r⟩ [] ⟨t, none⟩

def OwnStep (s : Sys) (d : ℤ) (a : Action) : Prop :=
  ∃ t ∈ s.tasks.rows, t.row.deliveryId = d ∧ ∃ b, a = .task t.tid b

theorem task_of_not_own (hs : Single s) (hs' : Single s') (h : Step config s a s') (hf : a ≠ .fetch)
    (hown : ¬OwnStep s d a) : (view s' d).task = (view s d).task := by
  have hne : ∀ t ∈ s.tasks.rows, t.row.deliveryId = d → ∀ b, a ≠ .task t.tid b :=
    fun t ht hd b ha => hown ⟨t, ht, hd, b, ha⟩
  refine Option.ext fun t => ?_
  rw [task_eq_some hs', task_eq_some hs]
  constructor
  · rintro ⟨ht, hd⟩
    rcases h.tasks ht with ⟨hold, -⟩ | ⟨hf', -⟩ | ⟨t₀, ht₀, b, obs, ha, heq, -⟩
    · exact ⟨hold, hd⟩
    · exact absurd hf' hf
    · exact absurd ha (hne t₀ ht₀ (by rw [← hd, heq]) b)
  · rintro ⟨ht, hd⟩
    exact ⟨h.tasks_of_ne ht (hne t ht hd), hd⟩

omit [Crates] in
theorem task_of_own {t : Task} {phase : Option Phase} (hs : Single s) (hs' : Single s')
    (htasks : s'.tasks = setPhase s.tasks t.tid phase) (ht : t ∈ s.tasks.rows)
    (hd : t.row.deliveryId = d) : (view s' d).task = phase.map fun p => { t with phase := p } := by
  refine Option.ext fun t' => ?_
  rw [task_eq_some hs', htasks, mem_setPhase, Option.map_eq_some_iff]
  constructor
  · rintro ⟨⟨ht', hne⟩ | ⟨t₀, ht₀, hid, p, hp, rfl⟩, hd'⟩
    · exact absurd (congrArg Task.tid (hs t' ht' t ht (hd'.trans hd.symm))) hne
    · exact ⟨p, hp, by rw [Table.eq_of_key ht₀ ht hid]⟩
  · rintro ⟨p, hp, rfl⟩
    exact ⟨.inr ⟨t, ht, rfl, p, hp, rfl⟩, hd⟩

/-- What the other tasks do is not about the delivery. -/
theorem mark?_eq_none (hw : WF config s) (hown : ¬OwnStep s d a) {o : Obs} (h : ObsStep s s' a o) :
    mark? d o = none := by
  have hne : ∀ t ∈ s.tasks.rows, ∀ due, t.phase.due? = some due → (∃ b, a = .task t.tid b) →
      due.deliveryId ≠ d := by
    rintro t ht due hdue ⟨b, ha⟩ hd
    exact hown ⟨t, ht, (hw.examined ht hdue).deliveryId.symm.trans hd, b, ha⟩
  cases h with
  | locked t fault due u ht hp => simp [mark?, hne t ht due (by rw [hp]; rfl) ⟨_, rfl⟩]
  | deliver t due u ht hp =>
    simp [mark?, buildEventForDelivery, hne t ht due (by rw [hp]; rfl) ⟨_, rfl⟩]
  | respond t due u result jitter ht hp => simp [mark?, hne t ht due (by rw [hp]; rfl) ⟨_, rfl⟩]
  | wroteBack t fault due u stmt ht hp => simp [mark?, hne t ht due (by rw [hp]; rfl) ⟨_, rfl⟩]
  | sweepReset | retryReset | scheduled => rfl

theorem marks_of_not_own (hw : WF config s) (h : Step config s a s') (hown : ¬OwnStep s d a)
    (hsw : a ≠ .sweep) : marks config d s a s' = [] := by
  obtain ⟨obs, htr, hobs⟩ := trace_step h
  have hnil : (newObs s s').filterMap (mark? d) = [] := by
    rw [newObs_eq htr, List.filterMap_eq_nil_iff]
    exact fun o ho => mark?_eq_none hw hown (hobs o ho)
  cases a with
  | sweep => exact absurd rfl hsw
  | _ => exact hnil

/-- Of a delivery that is not there yet there is nothing to be seen. -/
theorem view_of_fresh (hw : WF config s) (hd : s.db.deliverySeq ≤ d) : view s d = ⟨none, none⟩ := by
  have htask : s.tasks.rows.find? (·.row.deliveryId = d) = none := by
    refine List.find?_eq_none.mpr fun t ht htd => ?_
    have hlt := hw.tasks.id_lt hw.issued ht
    have hid : t.row.deliveryId = d := by simpa using htd
    omega
  have hrow : s.db.deliveries.get d = none := by
    refine Table.get_eq_none_iff.mpr fun r hr hid => ?_
    have hlt := s.db.seq_fresh r hr
    omega
  rw [view, htask, hrow]

theorem view_sweep (h : step config s .sweep = some s') (d : ℤ) :
    ViewStep config s d .sweep (view s d) (marks config d s .sweep s') (view s' d) := by
  rw [eq_of_sweep h]
  unfold view marks
  dsimp only
  rw [get_update]
  rcases s.db.deliveries.get d with _ | r
  · exact .keep _ _
  · simp only [Option.bind_some, Option.map_some, sweepUpdate]
    rcases hh : (hungLimit s.db s.now (asI32 config.maxCompletionCycles) r).join with _ | maxCycles
    · exact .keep _ _
    · have hagain : (!(sweepRow s.now maxCycles r).deadLetter) =
          decide (r.completionCycles + 1 < maxCycles) := by
        unfold sweepRow
        by_cases hc : r.completionCycles + 1 ≥ maxCycles
        · simp [hc, not_lt.mpr hc]
        · simp [hc, not_le.mp hc]
      simp only [Option.all_some, hagain]
      exact .swept _ r maxCycles (Option.join_eq_some_iff.mp hh)

theorem view_fetch (hs' : Single s') (h : Step config s .fetch s') (ha : Alone s .fetch) (d : ℤ) :
    ViewStep config s d .fetch (view s d) (marks config d s .fetch s') (view s' d) := by
  have hnone : (view s d).task = none := by
    show s.tasks.rows.find? _ = none
    rw [show s.tasks.rows = [] from ha]
    rfl
  have hrow : (view s' d).row = (view s d).row ∧ marks config d s .fetch s' = [] := by
    cases h with
    | fetch => exact ⟨rfl, by simp [marks, newObs]⟩
  rw [hrow.2]
  rcases ht : (view s' d).task with _ | t
  · have heq : view s' d = view s d := by
      show View.mk (view s' d).task (view s' d).row = View.mk (view s d).task (view s d).row
      rw [ht, hrow.1, hnone]
    rw [heq]
    exact .keep _ _
  · obtain ⟨htm, hd⟩ := (task_eq_some hs').mp ht
    have hold : s.tasks.rows = [] := ha
    rcases h.tasks htm with ⟨hm, -⟩ | ⟨-, hp, -, -, r, hr, hdue, e, -, -, heq⟩ | ⟨t₀, ht₀, -⟩
    · simp [hold] at hm
    · have hget : s.db.deliveries.get d = some r :=
        Table.get_eq_some_iff.mpr ⟨hr, by rw [← hd, heq]⟩
      have hv : view s d = ⟨none, some r⟩ := by
        show View.mk (view s d).task (s.db.deliveries.get d) = _
        rw [hnone, hget]
      have hv' : view s' d = ⟨some t, some r⟩ := by
        show View.mk (view s' d).task (view s' d).row = _
        rw [ht, hrow.1, hv]
      rw [hv, hv']
      exact .fetched t r hp hdue (by rw [heq])
    · simp [hold] at ht₀

/-- A step in which neither the task of the delivery nor the sweep acts. -/
theorem view_other (hw : WF config s) (hs : Single s) (hs' : Single s') (h : Step config s a s')
    (hf : a ≠ .fetch) (hsw : a ≠ .sweep) (hown : ¬OwnStep s d a) :
    ViewStep config s d a (view s d) (marks config d s a s') (view s' d) := by
  rw [marks_of_not_own hw h hown hsw]
  have htask := task_of_not_own hs hs' h hf hown
  show ViewStep config s d a ⟨(view s d).task, s.db.deliveries.get d⟩ []
    ⟨(view s' d).task, s'.db.deliveries.get d⟩
  rw [htask]
  have hrow := row_step h d
  have hown' : ∀ {t : Task} {due : DueDelivery} {b : TaskAction}, t ∈ s.tasks.rows →
      t.phase.due? = some due → due.deliveryId = d → a ≠ .task t.tid b :=
    fun ht hdue hd ha => hown ⟨_, ht, (hw.examined ht hdue).deliveryId.symm.trans hd, _, ha⟩
  generalize hr : s.db.deliveries.get d = o at hrow
  generalize s'.db.deliveries.get d = o' at hrow
  cases hrow with
  | keep => exact .keep _ _
  | inserted p b u n hd =>
    rw [congrArg View.task (view_of_fresh hw hd)]
    exact .inserted p b u n hd
  | poisoned t fault reason r ht hp hd => exact absurd ⟨t, ht, hd, _, rfl⟩ hown
  | locked t fault due u r ht hp hd => exact absurd rfl (hown' ht (by rw [hp]; rfl) hd)
  | wroteBack t fault due u stmt r ht hp hd => exact absurd rfl (hown' ht (by rw [hp]; rfl) hd)
  | swept => exact absurd rfl hsw
  | retried r => exact .retried _ r
  | completed r => exact .completed _ r
  | abandoned r => exact .abandoned _ r
  | deleted deadLetterCutoff processedCutoff n r => exact .deleted _ r _ _ n

omit [Crates] in
theorem not_smooth_of_drops {now : Time} {p : Phase} {b : TaskAction} (h : drops p b) :
    smooth now p b = false := by
  unfold drops at h
  split at h <;> simp_all [smooth]

section

variable {t : Task} {due : DueDelivery} {u : Time}

theorem viewStep_lock (hp : t.phase = .locking due u) (hd : due.deliveryId = d)
    (hg : (Stmt.lockDelivery u).affects s.db s.now due.deliveryId) :
    ViewStep config s d (.task t.tid (.lock .ok)) ⟨some t, s.db.deliveries.get d⟩
      ([.locked t.tid due.deliveryId].filterMap (mark? d))
      ⟨some { t with phase := .locked due u },
        ((Stmt.lockDelivery u).exec s.db s.now due.deliveryId).deliveries.get d⟩ := by
  subst hd
  obtain ⟨r, hr, hgr⟩ := (Stmt.affects_iff _).mp hg
  rw [Stmt.get_exec, hr]
  simp only [Option.map_some, hgr, and_self, if_true, List.filterMap_cons, mark?,
    List.filterMap_nil]
  exact .lock t due u r hp hgr

theorem viewStep_lockRefused (hp : t.phase = .locking due u) (hd : due.deliveryId = d)
    (hg : (Stmt.lockDelivery u).affects s.db s.now due.deliveryId = false) :
    ViewStep config s d (.task t.tid (.lock .ok)) ⟨some t, s.db.deliveries.get d⟩ []
      ⟨none, ((Stmt.lockDelivery u).exec s.db s.now due.deliveryId).deliveries.get d⟩ := by
  subst hd
  rw [Stmt.exec_eq_self _ (by simp [hg])]
  exact .lockRefused t due u _ hp

theorem viewStep_call (hp : t.phase = .locked due u) (hd : due.deliveryId = d) :
    ViewStep config s d (.task t.tid .deliver) ⟨some t, s.db.deliveries.get d⟩
      ([.deliver t.tid (buildEventForDelivery due)].filterMap (mark? d))
      ⟨some { t with phase := .delivering due u }, s.db.deliveries.get d⟩ := by
  subst hd
  simp only [List.filterMap_cons, mark?, buildEventForDelivery, if_true, List.filterMap_nil]
  exact .call t due u _ hp

theorem viewStep_answer {result : CallbackResult} {jitter : ℚ} (hp : t.phase = .delivering due u)
    (hd : due.deliveryId = d) (hsmooth : smooth s.now t.phase (.respond result jitter)) :
    ViewStep config s d (.task t.tid (.respond result jitter)) ⟨some t, s.db.deliveries.get d⟩
      ([.respond t.tid due.deliveryId result].filterMap (mark? d))
      ⟨((writeBackStmt s.now jitter due result).map (.writing due u ·)).map fun p =>
        { t with phase := p }, s.db.deliveries.get d⟩ := by
  rw [hp] at hsmooth
  obtain ⟨hj, hsome⟩ := Bool.and_eq_true_iff.mp hsmooth
  obtain ⟨stmt, hstmt⟩ := Option.isSome_iff_exists.mp hsome
  subst hd
  simp only [List.filterMap_cons, mark?, if_true, List.filterMap_nil, hstmt, Option.map_some]
  exact .answer t due u _ result jitter stmt hp (of_decide_eq_true hj) (writeBack_of_stmt hstmt)

theorem viewStep_writeBack {stmt : Stmt} (hw : WF config s) (ht : t ∈ s.tasks.rows)
    (hp : t.phase = .writing due u stmt) (hd : due.deliveryId = d) :
    ViewStep config s d (.task t.tid (.writeBack .ok)) ⟨some t, s.db.deliveries.get d⟩
      ([.wroteBack t.tid due.deliveryId stmt].filterMap (mark? d))
      ⟨none, (stmt.exec s.db s.now due.deliveryId).deliveries.get d⟩ := by
  have hg : ∀ r, stmt.guard s.now r := by
    intro r
    rcases (hw.tasks.stmt t ht due u stmt hp).cases with rfl | ⟨rfl, -⟩ | ⟨_, _, _, rfl⟩ <;> rfl
  subst hd
  rw [Stmt.get_exec_of_guard _ fun r _ => hg r]
  simp only [List.filterMap_cons, mark?, if_true, List.filterMap_nil]
  exact .wroteBack t due u stmt _ hp

/-- **A smooth step of the task of the delivery.** -/
theorem viewStep_of_taskStep {b : TaskAction} {db' : Db} {phase : Option Phase} {obs : List Obs}
    (hw : WF config s) (ht : t ∈ s.tasks.rows) (hd : t.row.deliveryId = d)
    (hsmooth : smooth s.now t.phase b) (h : TaskStep config s.now s.db t b db' phase obs) :
    ViewStep config s d (.task t.tid b) ⟨some t, s.db.deliveries.get d⟩ (obs.filterMap (mark? d))
      ⟨phase.map fun p => { t with phase := p }, db'.deliveries.get d⟩ := by
  have hid : ∀ {due : DueDelivery}, t.phase.due? = some due → due.deliveryId = d :=
    fun hdue => (hw.examined ht hdue).deliveryId.trans hd
  cases h with
  | dropped _ hdrop => simp [not_smooth_of_drops hdrop] at hsmooth
  | examined fault due hp hx =>
    rw [hp] at hsmooth
    obtain rfl : fault = .ok := of_decide_eq_true hsmooth
    exact .examined t due _ hp hx
  | poisoned fault reason hp hx =>
    rw [hp] at hsmooth
    obtain rfl : fault = .ok := of_decide_eq_true hsmooth
    rw [hd, Stmt.get_exec_of_guard _ fun _ _ => rfl]
    exact .poisoned t reason _ hp hx
  | computeLock due u hp => exact .computeLock t due u _ hp
  | lockPanicked due hp => exact .lockPanicked t due _ hp
  | lock due u hp hg => exact viewStep_lock hp (hid (by rw [hp]; rfl)) hg
  | lockUnacked due u hp =>
    rw [hp] at hsmooth
    cases hsmooth
  | lockRefused fault due u hp hg =>
    rw [hp] at hsmooth
    obtain rfl : fault = .ok := of_decide_eq_true hsmooth
    exact viewStep_lockRefused hp (hid (by rw [hp]; rfl)) hg
  | deliver due u hp => exact viewStep_call hp (hid (by rw [hp]; rfl))
  | respond due u result jitter hp => exact viewStep_answer hp (hid (by rw [hp]; rfl)) hsmooth
  | wroteBack fault due u stmt hp hf =>
    rw [hp] at hsmooth
    obtain rfl : fault = .ok := of_decide_eq_true hsmooth
    exact viewStep_writeBack hw ht hp (hid (by rw [hp]; rfl))

end

theorem view_own (hw : WF config s) (hs : Single s) (hs' : Single s') (h : Step config s a s')
    (ha : Alone s a) (hown : OwnStep s d a) :
    ViewStep config s d a (view s d) (marks config d s a s') (view s' d) := by
  obtain ⟨t, ht, hd, b, rfl⟩ := hown
  obtain ⟨phase, obs, hstep, htasks, htr⟩ := h.of_task ht
  have hv : view s d = ⟨some t, s.db.deliveries.get d⟩ := by
    rw [← (task_eq_some hs).mpr ⟨ht, hd⟩]
    rfl
  have hv' : view s' d = ⟨phase.map fun p => { t with phase := p }, s'.db.deliveries.get d⟩ := by
    rw [← task_of_own hs hs' htasks ht hd]
    rfl
  have hm : marks config d s (.task t.tid b) s' = obs.filterMap (mark? d) := by
    rw [← newObs_eq htr]
    rfl
  rw [hv, hv', hm]
  exact viewStep_of_taskStep hw ht hd (ha t (Table.get_of_mem ht)) hstep

/-- **Every step does one of these to a delivery.** -/
theorem view_step (hw : WF config s) (hs : Single s) (hstep : step config s a = some s')
    (ha : Alone s a)
    (d : ℤ) : ViewStep config s d a (view s d) (marks config d s a s') (view s' d) := by
  have h := step_cases hstep
  have hs' := single_step hs h ha.idle
  by_cases hown : OwnStep s d a
  · exact view_own hw hs hs' h ha hown
  by_cases hf : a = .fetch
  · subst hf
    exact view_fetch hs' h ha d
  by_cases hsw : a = .sweep
  · subst hsw
    exact view_sweep hstep d
  exact view_other hw hs hs' h hf hsw hown

/-! ### The target of a delivery

Said of all states up to one: what holds of the rows and events of a state holds of those before it.
-/

/-- The callback of the delivery `d` is `target`, as soon as the delivery is there. -/
def TargetIs (config : DispatchConfig) (s : Sys) (d : ℤ) (target : CallbackTarget) : Prop :=
  ∀ i ∈ s.issued, i.id = d → ∀ e ∈ s.committed, e.eventId = i.eventId →
    extractCallbackTarget e.callbacks i.callbackName config = .ok target

theorem targetIs_before {target : CallbackTarget} (h : Step config s a s')
    (ht : TargetIs config s' d target) : TargetIs config s d target :=
  fun i hi hid e he hev => ht i (issued_subset h hi) hid e (committed_subset h he) hev

theorem targetIs_of_hasTarget {target : CallbackTarget} (hw : WF config s)
    (ht : HasTarget config s d target) : TargetIs config s d target := by
  intro i hi hid e he hev
  obtain ⟨j, hj, e', he', hjd, hev', hx⟩ := ht
  obtain rfl : i = j := List.inj_on_of_nodup_map hw.issued.ids_nodup hi hj (hid.trans hjd.symm)
  obtain rfl := hw.events.eq_of_eventId he he' (hev.trans hev'.symm)
  exact hx

/-- What a task at a delivery knows of it: the target, and the attempts that were fetched. -/
structure Knows (config : DispatchConfig) (target : CallbackTarget) (t : Task) : Prop where
  examined : ∃ due, examineRow config t.row = .ok due
  due : ∀ due, t.phase.due? = some due → due.target = target ∧ due.attempts = t.row.attempts

theorem knows_of_targetIs {target : CallbackTarget} (hw : WF config s)
    (ht : TargetIs config s d target) {t : Task} (hv : (view s d).task = some t) :
    Knows config target t := by
  have hm : t ∈ s.tasks.rows := List.mem_of_find?_eq_some hv
  have hd : t.row.deliveryId = d := by simpa using List.find?_some hv
  have hsrc := hw.tasks.source t hm
  obtain ⟨i, hi, hid, hev, hname⟩ := hsrc.issued
  have hx := ht i hi (hid.trans hd) _ hsrc.event (hsrc.eventId.trans hev.symm)
  rw [hname] at hx
  constructor
  · unfold examineRow
    rw [hx]
    exact ⟨_, rfl⟩
  · intro due hdue
    have hex := hw.examined hm hdue
    exact ⟨Except.ok.inj (hex.target.symm.trans hx), hex.attempts⟩

theorem issued_of_inserted {p : ℕ} {b : SchedAction} (h : Step config s (.sched p b) s')
    {r : DeliveryRow} (hr : s.db.deliveries.get d = none) (hr' : s'.db.deliveries.get d = some r) :
    r ∈ s'.issued := by
  obtain ⟨hm, hid⟩ := Table.get_eq_some_iff.mp hr'
  cases h with
  | sched _ _ db sch hs =>
    rcases schedStep_inserts hs with rfl | ⟨c, l, w, writes, -, -, hins⟩
    · rw [hr] at hr'
      cases hr'
    · obtain ⟨added, hrows, -⟩ := hins.rows
      have hdrop : db.deliveries.rows.drop s.db.deliveries.rows.length = added := by simp [hrows]
      refine List.mem_append_right _ ?_
      rw [hdrop]
      rcases List.mem_append.mp (hrows ▸ hm) with hold | hnew
      · exact absurd hid (Table.get_eq_none_iff.mp hr r hold)
      · exact hnew

/-! ### What has happened to a delivery -/

/-- The system with a record of what happens to the delivery `d`, and when. -/
def observed (config : DispatchConfig) (d : ℤ) : Sys × List (Time × Mark) → Action →
    Option (Sys × List (Time × Mark)) :=
  recorded (step config) fun s a s' => (marks config d s a s').map (s.now, ·)

/-- What is known of every run with one dispatcher: nothing happens to a delivery before it is
there. -/
structure Seen (config : DispatchConfig) (d : ℤ) (p : Sys × List (Time × Mark)) : Prop where
  wf : WF config p.1
  single : Single p.1
  fresh : p.1.db.deliverySeq ≤ d → p.2 = []

theorem marks_of_fresh {v' : View} {marks : List Mark}
    (h : ViewStep config s d a ⟨none, none⟩ marks v') : marks = [] := by
  cases h <;> rfl

theorem seen_init (now : Time) {scheds : ℕ → Sched} (hq : Quiet scheds) :
    Seen config d (init now scheds, []) :=
  ⟨wf_init now hq, single_init now scheds, fun _ => rfl⟩

theorem seen_step {p p' : Sys × List (Time × Mark)} (hi : Seen config d p)
    (h : observed config d p a = some p') (ha : Alone p.1 a) : Seen config d p' := by
  obtain ⟨hs, hrec⟩ := recorded_eq_some.mp h
  have hstep := step_cases hs
  refine ⟨wf_step hi.wf hstep, single_step hi.single hstep ha.idle, fun hd => ?_⟩
  have hd₀ := (deliverySeq_le hstep).trans hd
  have hview := view_step hi.wf hi.single hs ha d
  rw [view_of_fresh hi.wf hd₀] at hview
  rw [hrec, marks_of_fresh hview, hi.fresh hd₀]
  rfl

end

end OutboxDispatcher.Dispatch.Solo
