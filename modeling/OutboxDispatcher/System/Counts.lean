import OutboxDispatcher.Callbacks.Limits
import OutboxDispatcher.Lib.Traces
import OutboxDispatcher.System.Rows

/-! # Counting attempts

The column `attempts` counts the locks on a row since the row was inserted or last reset, by an
admin retry or by the sweep (`counted_of_run`). The lock is what counts: an attempt that crashes
before its call, or is never written back, is one of them.

`HasTarget` says which target a delivery has: the callback of its event that carries its name. The
event and the name never change, so every task that works on the delivery has parsed this one. -/

namespace OutboxDispatcher.System.Counts

open OutboxDispatcher.Lib.Checks OutboxDispatcher.Lib.Runs OutboxDispatcher.Lib.Tables
open OutboxDispatcher.Lib.Traces OutboxDispatcher.Schema OutboxDispatcher.Callbacks.Fields
open OutboxDispatcher.Callbacks.Limits OutboxDispatcher.Repo.Database
open OutboxDispatcher.Repo.Database.Db OutboxDispatcher.Repo.Statements
  OutboxDispatcher.Scheduler.Pass
open OutboxDispatcher.Dispatch OutboxDispatcher.System OutboxDispatcher.System.Effects
open OutboxDispatcher.System.History OutboxDispatcher.System.Rows

/-! ### What is counted -/

def isCall (d : ℤ) : Obs → Bool
  | .deliver _ event => event.deliveryId = d
  | _ => false

def isLock (d : ℤ) : Obs → Bool
  | .locked _ d' => d' = d
  | _ => false

def calls (d : ℤ) (trace : List Obs) : ℕ := trace.countP (isCall d)

/-- The calls for the delivery `d` since its row was reset. -/
def callsSince (d : ℤ) : List Obs → ℕ := countSince (isCall d) (isReset d)

/-- The locks on the row `d` since it was reset. -/
def locksSince (d : ℤ) : List Obs → ℕ := countSince (isLock d) (isReset d)

@[simp] theorem locksSince_locked (tid : ℕ) (d : ℤ) (trace : List Obs) :
    locksSince d (.locked tid d :: trace) = locksSince d trace + 1 := by
  simp [locksSince, countSince, isReset, isLock]

@[simp] theorem callsSince_locked (tid : ℕ) (d d' : ℤ) (trace : List Obs) :
    callsSince d (.locked tid d' :: trace) = callsSince d trace := by
  simp [callsSince, countSince, isReset, isCall]

/-! ### The column -/

variable [Crates] {config : DispatchConfig} {s s' : Sys} {a : Action} {d : ℤ}

/-- What a step does to the number of attempts of a row, and what is seen of it. -/
inductive AttemptStep (d : ℤ) (obs : List Obs) (r r' : DeliveryRow) : Prop
  | same (h : r'.attempts = r.attempts) (hl : ∀ o ∈ obs, isLock d o = false)
      (hr : ∀ o ∈ obs, isReset d o = false)
  | lock (h : r'.attempts = r.attempts + 1) (tid : ℕ) (hobs : obs = [.locked tid d])
  | reset (h : r'.attempts = 0) (hl : ∀ o ∈ obs, isLock d o = false) (hr : ∃ o ∈ obs, isReset d o)

omit [Crates] in
/-- A statement that leaves the column alone. -/
theorem attemptStep_exec {c : Stmt} {db : Db} {now : Time} {id : ℤ} {r r' : DeliveryRow}
    {obs : List Obs}
    (hc : ∀ now r, (c.assign now r).attempts = r.attempts) (hr : db.deliveries.get d = some r)
    (hr' : (c.exec db now id).deliveries.get d = some r') (hl : ∀ o ∈ obs, isLock d o = false)
    (hres : ∀ o ∈ obs, isReset d o = false) : AttemptStep d obs r r' := by
  rw [Stmt.get_exec, hr] at hr'
  cases hr'
  refine .same ?_ hl hres
  dsimp only
  split_ifs
  · exact hc _ _
  · rfl

theorem attemptStep_task (hw : WF config s) {t : Task} {b : TaskAction} {db : Db}
    {phase : Option Phase}
    {obs : List Obs} (ht : t ∈ s.tasks.rows) (h : TaskStep config s.now s.db t b db phase obs)
    {r r' : DeliveryRow} (hr : s.db.deliveries.get d = some r)
    (hr' : db.deliveries.get d = some r') : AttemptStep d obs r r' := by
  have hsame : r' = r → (∀ o ∈ obs, isLock d o = false) → (∀ o ∈ obs, isReset d o = false) →
      AttemptStep d obs r r' := fun heq hl hres => .same (by rw [heq]) hl hres
  cases h with
  | poisoned fault reason => exact attemptStep_exec (fun _ _ => rfl) hr hr' (by simp) (by simp)
  | lock due lockUntil hp hg | lockUnacked due lockUntil hp hg =>
    by_cases hd : d = due.deliveryId
    · subst hd
      obtain ⟨r₀, hr₀, hg⟩ := (Stmt.affects_iff _).mp hg
      rw [hr, Option.some.injEq] at hr₀
      subst hr₀
      rw [Stmt.get_exec, hr, Option.map_some, if_pos ⟨rfl, hg⟩] at hr'
      cases hr'
      exact .lock rfl t.tid rfl
    · rw [Stmt.get_exec, hr] at hr'
      cases hr'
      exact hsame (by simp [hd]) (by simpa [isLock] using Ne.symm hd) (by simp [isReset])
  | lockRefused fault due lockUntil hp hg =>
    refine hsame ?_ (by simp) (by simp)
    rw [Stmt.get_exec, hr] at hr'
    cases hr'
    refine if_neg fun hc => ?_
    have haff := (Stmt.affects_iff (.lockDelivery lockUntil)).mpr ⟨r, hc.1 ▸ hr, hc.2⟩
    rw [haff] at hg
    cases hg
  | wroteBack fault due lockUntil stmt hp hf =>
    refine attemptStep_exec (fun now r => ?_) hr hr' (by simp [isLock]) (by simp [isReset])
    rcases (hw.tasks.stmt t ht due lockUntil stmt hp).cases with rfl | ⟨rfl, -⟩ | ⟨_, _, _, rfl⟩ <;>
      rfl
  | dropped | examined | computeLock | lockPanicked =>
    exact hsame (Option.some.inj (hr'.symm.trans hr)) (by simp) (by simp)
  | deliver | respond =>
    exact hsame (Option.some.inj (hr'.symm.trans hr)) (by simp [isLock]) (by simp [isReset])

omit [Crates] in
theorem attemptStep_sweep {m : ℤ} {t : Time} {f : RowUpdate} {obs : List Obs} {r r' : DeliveryRow}
    (h : Sweeps s.db t m f obs) (hr : s.db.deliveries.get d = some r)
    (hr' : (s.db.update f).deliveries.get d = some r') : AttemptStep d obs r r' := by
  rw [get_update, hr, Option.map_some, Option.some.injEq] at hr'
  subst hr'
  obtain ⟨hm, rfl⟩ := Table.get_eq_some_iff.mp hr
  have hl : ∀ o ∈ obs, isLock r.id o = false := fun o ho => by
    obtain ⟨r', -, rfl⟩ := h.obs o ho
    rfl
  have hres : .sweepReset r.id ∉ obs → ∀ o ∈ obs, isReset r.id o = false := fun hno o ho => by
    obtain ⟨r', -, rfl⟩ := h.obs o ho
    exact decide_eq_false fun hid => hno (hid ▸ ho)
  rcases h.row r hm with ⟨hset, hno⟩ | ⟨maxCycles, -, hset, hseen⟩
  · exact .same (by rw [hset]) hl (hres hno)
  · by_cases hc : r.completionCycles + 1 ≥ maxCycles
    · exact .same (by rw [hset, sweepRow, if_pos hc]) hl (hres fun ho =>
        absurd (hseen.mp ho) (not_lt.mpr hc))
    · refine .reset (by rw [hset, sweepRow, if_neg hc]) hl ⟨_, hseen.mpr (not_le.mp hc), ?_⟩
      simp [isReset]

/-- **What a step does to the number of attempts**, and what is seen of it. -/
theorem attempts_step (hw : WF config s) (h : Step config s a s') {obs : List Obs}
    (htr : s'.trace = obs ++ s.trace) {r r' : DeliveryRow} (hr : s.db.deliveries.get d = some r)
    (hr' : s'.db.deliveries.get d = some r') : AttemptStep d obs r r' := by
  cases h with
  | commit e db he hc =>
    have hobs : obs = [] := List.self_eq_append_left.mp htr
    have heq : r' = r := by
      rw [show db.deliveries = s.db.deliveries from hc.deliveries, hr] at hr'
      exact (Option.some.inj hr').symm
    exact .same (by rw [heq]) (by simp [hobs]) (by simp [hobs])
  | sched p b db sch hs =>
    rw [← List.append_cancel_right htr]
    have heq : r' = r := by
      rcases schedStep_inserts hs with rfl | ⟨c, l, w, writes, -, -, hi⟩
      · exact Option.some.inj (hr'.symm.trans hr)
      · exact Option.some.inj (hr'.symm.trans (hi.get_of_some hr))
    have hobs : ∀ o ∈ schedObs p (s.scheds p) b, isLock d o = false ∧ isReset d o = false := by
      intro o ho
      unfold schedObs at ho
      split at ho
      · rw [List.mem_singleton.mp ho]
        exact ⟨rfl, rfl⟩
      · simp at ho
    exact .same (by rw [heq]) (fun o ho => (hobs o ho).1) (fun o ho => (hobs o ho).2)
  | task t b db phase obs' ht hs =>
    rw [← List.append_cancel_right htr]
    exact attemptStep_task hw ht hs hr hr'
  | sweep t f obs' ht hsw =>
    rw [← List.append_cancel_right htr]
    exact attemptStep_sweep hsw hr hr'
  | retry d' =>
    rw [← List.append_cancel_right htr]
    rw [Stmt.get_exec, hr, Option.map_some, Option.some.injEq] at hr'
    subst hr'
    by_cases hc : d = d' ∧ Stmt.retryDelivery.guard s.now r
    · obtain ⟨rfl, hg⟩ := hc
      have haff := (Stmt.affects_iff .retryDelivery).mpr ⟨r, hr, hg⟩
      exact .reset (by simp [hg, Stmt.assign]) (by simp [haff, isLock]) (by simp [haff, isReset])
    · refine .same (by rw [if_neg hc]) ?_ ?_
      · split_ifs <;> simp [isLock]
      · split_ifs with haff
        · obtain ⟨r₀, hr₀, hg⟩ := (Stmt.affects_iff _).mp haff
          have hne : d' ≠ d := fun hd => hc ⟨hd.symm, by
            rw [hd, hr, Option.some.injEq] at hr₀
            exact hr₀ ▸ hg⟩
          simpa [isReset] using hne
        · simp
  | complete d' | abandon d' =>
    have hobs : obs = [] := List.self_eq_append_left.mp htr
    exact attemptStep_exec (fun _ _ => rfl) hr hr' (by simp [hobs]) (by simp [hobs])
  | retention deadLetterCutoff processedCutoff n p =>
    have hobs : obs = [] := List.self_eq_append_left.mp htr
    have heq : r' = r := Option.some.inj ((get_of_deleteEvents hr').symm.trans hr)
    exact .same (by rw [heq]) (by simp [hobs]) (by simp [hobs])
  | _ =>
    have hobs : obs = [] := List.self_eq_append_left.mp htr
    have heq : r' = r := Option.some.inj (hr'.symm.trans hr)
    exact .same (by rw [heq]) (by simp [hobs]) (by simp [hobs])

/-- The column counts the locks, and only rows that have been issued are locked. -/
structure Counted (s : Sys) : Prop where
  issued : ∀ tid d, .locked tid d ∈ s.trace → d < s.db.deliverySeq
  attempts : ∀ d, ∀ r ∈ s.db.deliveries.get d, r.attempts = locksSince d s.trace

omit [Crates] in
/-- A step in which the receiver of the delivery `d` is called. -/
theorem obs_call {o : Obs} (h : ObsStep s s' a o) (hc : isCall d o) :
    ∃ t ∈ s.tasks.rows, ∃ due u, t.phase = .locked due u ∧ due.deliveryId = d ∧
      a = .task t.tid .deliver := by
  cases h with
  | deliver t due u ht hp => exact ⟨t, ht, due, u, hp, of_decide_eq_true hc, rfl⟩
  | _ => simp [isCall] at hc

omit [Crates] in
theorem obs_locked {tid : ℕ} (h : ObsStep s s' a (.locked tid d)) :
    ∃ t ∈ s.tasks.rows, ∃ fault due lockUntil, t.tid = tid ∧ a = .task t.tid (.lock fault) ∧
      t.phase = .locking due lockUntil ∧ due.deliveryId = d ∧
      (Stmt.lockDelivery lockUntil).affects s.db s.now d := by
  generalize ho : Obs.locked tid d = o at h
  cases h with
  | locked t fault due lockUntil ht hp hg =>
    obtain ⟨rfl, rfl⟩ := Obs.locked.inj ho
    exact ⟨t, ht, fault, due, lockUntil, rfl, rfl, hp, rfl, hg⟩
  | _ => cases ho

/-- The step in which a lock is seen. -/
theorem locks?_of_obs (h : Step config s a s') {obs : List Obs} (htr : s'.trace = obs ++ s.trace)
    {tid : ℕ} (ho : .locked tid d ∈ obs) :
    ∃ t ∈ s.tasks.rows, ∃ due u r, locks? s a = some (t, due) ∧ t.tid = tid ∧
      t.phase = .locking due u ∧ due.deliveryId = d ∧ s.db.deliveries.get d = some r ∧
      s'.db.deliveries.get d = some ((Stmt.lockDelivery u).assign s.now r) := by
  have hact : ∃ tid' b, a = .task tid' b := by
    obtain ⟨obs', htr', hobs⟩ := trace_step h
    rw [htr] at htr'
    obtain rfl := List.append_cancel_right htr'
    obtain ⟨t, -, fault, -, -, -, ha, -⟩ := obs_locked (hobs _ ho)
    exact ⟨t.tid, _, ha⟩
  cases h with
  | task t b db phase obs' ht hs =>
    rw [← List.append_cancel_right htr] at ho
    cases hs with
    | lock due u hp hg | lockUnacked due u hp hg =>
      obtain ⟨rfl, rfl⟩ := Obs.locked.inj (List.mem_singleton.mp ho)
      obtain ⟨r, hr, hgr⟩ := (Stmt.affects_iff _).mp hg
      refine ⟨t, ht, due, u, r, ?_, rfl, hp, rfl, hr, ?_⟩
      · simp [locks?, Table.get_of_mem ht, hp, lockDelivery, hg]
      · simp [Stmt.get_exec, hr, hgr]
    | _ => simp at ho
  | _ =>
    obtain ⟨_, _, ha⟩ := hact
    cases ha

omit [Crates] in
theorem locksSince_eq_zero {trace : List Obs} (h : ∀ tid, .locked tid d ∉ trace) :
    locksSince d trace = 0 := by
  rw [locksSince, countSince, List.countP_eq_zero]
  intro o ho hl
  have hmem := (List.takeWhile_prefix _).subset ho
  cases o with
  | locked tid d' =>
    obtain rfl : d' = d := by simpa [isLock] using hl
    exact h tid hmem
  | _ => simp [isLock] at hl

theorem counted_step (hw : WF config s) (hi : Counted s) (h : Step config s a s') : Counted s' := by
  obtain ⟨obs, htr, hobs⟩ := trace_step h
  constructor
  · intro tid d ho
    rw [htr, List.mem_append] at ho
    refine lt_of_lt_of_le ?_ (deliverySeq_le h)
    rcases ho with ho | ho
    · obtain ⟨t, -, fault, due, u, -, -, -, -, hg⟩ := obs_locked (hobs _ ho)
      obtain ⟨r, hr, -⟩ := (Stmt.affects_iff _).mp hg
      obtain ⟨hm, hid⟩ := Table.get_eq_some_iff.mp hr
      exact hid ▸ s.db.seq_fresh r hm
    · exact hi.issued tid d ho
  · intro d r' hr'
    rw [htr]
    rcases hr : s.db.deliveries.get d with _ | r
    · -- the row is new, so its id has not been locked before
      have hrow := row_step h d
      rw [hr, hr'] at hrow
      cases hrow with
      | inserted p b u n hd =>
        rw [locksSince_eq_zero]
        · rfl
        · intro tid ho
          rcases List.mem_append.mp ho with ho | ho
          · obtain ⟨_, -, _, _, _, -, ha, -⟩ := obs_locked (hobs _ ho)
            cases ha
          · exact absurd (hi.issued tid d ho) (not_lt.mpr hd)
    · have hold := hi.attempts d r hr
      cases attempts_step hw h htr hr hr' with
      | same heq hl hres =>
        rw [heq, hold, locksSince, countSince_append hres,
          List.countP_eq_zero.mpr (by simpa using hl)]
        simp
      | lock heq tid hone =>
        rw [heq, hold, locksSince, hone, countSince_append (by simp [isReset])]
        simp [isLock, add_comm]
      | reset heq hl hres => rw [heq, locksSince, countSince_append_reset hres hl]; rfl

omit [Crates] in
theorem counted_init (now : Time) (scheds : ℕ → Sched) : Counted (init now scheds) :=
  ⟨by simp [init], by simp [init, Db.empty, Table.get]⟩

/-- **The column `attempts`** is the number of locks since the row was inserted or reset. -/
theorem counted_of_run {ok : Sys → Action → Sys → Prop} {now : Time} {scheds : ℕ → Sched}
    (hq : Quiet scheds) (h : Run (step config) ok (init now scheds) s) : Counted s :=
  (h.invariant (fun s => WF config s ∧ Counted s) ⟨wf_init now hq, counted_init now scheds⟩
    fun _ _ _ hi hs _ => ⟨wf_step hi.1 (step_cases hs), counted_step hi.1 hi.2 (step_cases hs)⟩).2

/-! ### One step -/

/-- What a step adds to the counts of the delivery `d`. -/
inductive CountStep (s : Sys) (d : ℤ) (a : Action) (s' : Sys) : Prop
  | quiet (hl : locksSince d s'.trace = locksSince d s.trace)
      (hc : callsSince d s'.trace = callsSince d s.trace) (hn : calls d s'.trace = calls d s.trace)
  | lock (t : Task) (due : DueDelivery) (h : locks? s a = some (t, due)) (hd : due.deliveryId = d)
      (hl : locksSince d s'.trace = locksSince d s.trace + 1)
      (hc : callsSince d s'.trace = callsSince d s.trace) (hn : calls d s'.trace = calls d s.trace)
  | call (t : Task) (due : DueDelivery) (u : Time) (ht : t ∈ s.tasks.rows)
      (hp : t.phase = .locked due u) (hd : due.deliveryId = d) (ha : a = .task t.tid .deliver)
      (hl : locksSince d s'.trace = locksSince d s.trace)
      (hc : callsSince d s'.trace = callsSince d s.trace + 1)
      (hn : calls d s'.trace = calls d s.trace + 1)
  /-- By an operator or by the sweep: nobody's lock is on the row. -/
  | reset (r : DeliveryRow) (hr : s.db.deliveries.get d = some r)
      (hfree : unlocked s.now r ∨ r.dispatchedAt.isSome) (hl : locksSince d s'.trace = 0)
      (hc : callsSince d s'.trace = 0) (hn : calls d s'.trace = calls d s.trace)

/-- A step of a task makes at most one observation. -/
theorem obs_task {tid : ℕ} {b : TaskAction} (h : Step config s (.task tid b) s') {obs : List Obs}
    (htr : s'.trace = obs ++ s.trace) {o : Obs} (ho : o ∈ obs) : obs = [o] := by
  cases h with
  | task t _ db phase obs' ht hs =>
    rw [← List.append_cancel_right htr] at ho ⊢
    cases hs with
    | lock | lockUnacked | deliver | respond | wroteBack => rw [List.mem_singleton.mp ho]
    | _ => simp at ho

theorem obs_reset (h : Step config s a s') {obs : List Obs} (htr : s'.trace = obs ++ s.trace)
    {o : Obs} (ho : o ∈ obs) (hr : isReset d o) :
    (∃ r, s.db.deliveries.get d = some r ∧ (unlocked s.now r ∨ r.dispatchedAt.isSome)) ∧
      ∀ o ∈ obs, isLock d o = false ∧ isCall d o = false := by
  obtain ⟨obs', htr', hobs⟩ := trace_step h
  obtain rfl : obs = obs' := List.append_cancel_right (htr.symm.trans htr')
  have hstep := hobs o ho
  cases hstep with
  | retryReset d' hg =>
    obtain rfl : d' = d := by simpa [isReset] using hr
    obtain ⟨r, hget, hg⟩ := (Stmt.affects_iff _).mp hg
    refine ⟨⟨r, hget, .inl hg⟩, fun o ho => ?_⟩
    cases hobs o ho
    exact ⟨rfl, rfl⟩
  | sweepReset d' =>
    obtain rfl : d' = d := by simpa [isReset] using hr
    refine ⟨?_, fun o ho => ?_⟩
    · cases h with
      | sweep t f obs' ht hsw =>
        rw [← List.append_cancel_right htr] at ho
        obtain ⟨r, hm, heq⟩ := hsw.obs _ ho
        cases heq
        rcases hsw.row r hm with ⟨-, hno⟩ | ⟨c, hlim, -, -⟩
        · exact absurd ho hno
        · exact ⟨r, Table.get_of_mem hm, .inr (externalPending_of_hungLimit hlim).2.1⟩
    · cases hobs o ho
      exact ⟨rfl, rfl⟩
  | _ => simp [isReset] at hr

/-- **What a step adds to the counts.** -/
theorem count_step (h : Step config s a s') (d : ℤ) : CountStep s d a s' := by
  obtain ⟨obs, htr, hobs⟩ := trace_step h
  by_cases hres : ∃ o ∈ obs, isReset d o
  · obtain ⟨o, ho, hr⟩ := hres
    obtain ⟨⟨r, hget, hfree⟩, hnone⟩ := obs_reset h htr ho hr
    refine .reset r hget hfree ?_ ?_ ?_
    · rw [htr, locksSince, countSince_append_reset ⟨o, ho, hr⟩ fun o ho => (hnone o ho).1]
    · rw [htr, callsSince, countSince_append_reset ⟨o, ho, hr⟩ fun o ho => (hnone o ho).2]
    · rw [htr, calls, List.countP_append,
        List.countP_eq_zero.mpr fun o ho => by simp [(hnone o ho).2]]
      simp [calls]
  push Not at hres
  have hres : ∀ o ∈ obs, isReset d o = false := fun o ho => by simpa using hres o ho
  have hl : locksSince d s'.trace = obs.countP (isLock d) + locksSince d s.trace := by
    rw [htr, locksSince, countSince_append hres]
  have hc : callsSince d s'.trace = obs.countP (isCall d) + callsSince d s.trace := by
    rw [htr, callsSince, countSince_append hres]
  have hn : calls d s'.trace = obs.countP (isCall d) + calls d s.trace := by
    rw [htr, calls, List.countP_append, calls]
  by_cases hlock : ∃ tid, .locked tid d ∈ obs
  · obtain ⟨tid, ho⟩ := hlock
    obtain ⟨t, ht, due, u, r, hlk, -, hp, hd, -⟩ := locks?_of_obs h htr ho
    obtain ⟨-, fault, -, -, rfl, -⟩ := locks?_eq_some hlk
    rw [obs_task h htr ho] at hl hc hn
    exact .lock t due hlk hd (by simpa [isLock, add_comm] using hl) (by simpa [isCall] using hc)
      (by simpa [isCall] using hn)
  by_cases hcall : ∃ o ∈ obs, isCall d o
  · obtain ⟨o, ho, hco⟩ := hcall
    obtain ⟨t, ht, due, u, hp, hd, rfl⟩ := obs_call (hobs o ho) hco
    have hone := obs_task h htr ho
    have hnl : isLock d o = false := by
      cases o <;> first | rfl | cases hco
    rw [hone] at hl hc hn
    exact .call t due u ht hp hd rfl (by simpa [hnl] using hl) (by simpa [hco, add_comm] using hc)
      (by simpa [hco, add_comm] using hn)
  have hl0 : obs.countP (isLock d) = 0 := List.countP_eq_zero.mpr fun o ho hlo => hlock <| by
    cases o with
    | locked tid d' =>
      obtain rfl : d' = d := by simpa [isLock] using hlo
      exact ⟨tid, ho⟩
    | _ => cases hlo
  have hc0 : obs.countP (isCall d) = 0 := List.countP_eq_zero.mpr fun o ho hco => hcall ⟨o, ho, hco⟩
  exact .quiet (by rw [hl, hl0, Nat.zero_add]) (by rw [hc, hc0, Nat.zero_add])
    (by rw [hn, hc0, Nat.zero_add])

/-! ### The target of a delivery -/

/-- The delivery `d` is for the callback `target` of its event. -/
def HasTarget (config : DispatchConfig) (s : Sys) (d : ℤ) (target : CallbackTarget) : Prop :=
  ∃ i ∈ s.issued, ∃ e ∈ s.committed, i.id = d ∧ e.eventId = i.eventId ∧
    extractCallbackTarget e.callbacks i.callbackName config = .ok target

theorem hasTarget_step {target : CallbackTarget} (h : Step config s a s')
    (ht : HasTarget config s d target) : HasTarget config s' d target := by
  obtain ⟨i, hi, e, he, hid, hev, hx⟩ := ht
  exact ⟨i, issued_subset h hi, e, committed_subset h he, hid, hev, hx⟩

theorem hasTarget_unique (hw : WF config s) {target target' : CallbackTarget}
    (ht : HasTarget config s d target) (ht' : HasTarget config s d target') : target = target' := by
  obtain ⟨i, hi, e, he, hid, hev, hx⟩ := ht
  obtain ⟨j, hj, e', he', hjd, hev', hx'⟩ := ht'
  obtain rfl : i = j := List.inj_on_of_nodup_map hw.issued.ids_nodup hi hj (hid.trans hjd.symm)
  obtain rfl := hw.events.eq_of_eventId he he' (hev.trans hev'.symm)
  exact Except.ok.inj (hx.symm.trans hx')

theorem validTarget_of_hasTarget (hc : ValidConfig config) {target : CallbackTarget}
    (ht : HasTarget config s d target) : ValidTarget target := by
  obtain ⟨i, -, e, -, -, -, hx⟩ := ht
  exact validTarget_of_validate hc (mapError_eq_ok.mp hx)

/-- Every task that works on a delivery has parsed its target. -/
theorem hasTarget_of_task (hw : WF config s) {t : Task} (ht : t ∈ s.tasks.rows) {due : DueDelivery}
    (hd : t.phase.due? = some due) : HasTarget config s t.row.deliveryId due.target := by
  have hsrc := hw.tasks.source t ht
  obtain ⟨i, hi, hid, hev, hname⟩ := hsrc.issued
  refine ⟨i, hi, t.row.event, hsrc.event, hid, hsrc.eventId.trans hev.symm, ?_⟩
  rw [hname]
  exact (hw.examined ht hd).target

/-- The targets that a delivery can have, to be evaluated. -/
def targets (config : DispatchConfig) (s : Sys) (d : ℤ) : List CallbackTarget :=
  (s.issued.filter (·.id = d)).flatMap fun i =>
    (s.committed.filter (·.eventId = i.eventId)).filterMap
    fun e => (extractCallbackTarget e.callbacks i.callbackName config).toOption

theorem hasTarget_of_mem_targets {target : CallbackTarget} (h : target ∈ targets config s d) :
    HasTarget config s d target := by
  simp only [targets, List.mem_flatMap, List.mem_filter, List.mem_filterMap, decide_eq_true_eq] at h
  obtain ⟨i, ⟨hi, hid⟩, e, ⟨he, hev⟩, hx⟩ := h
  refine ⟨i, hi, e, he, hid, hev, ?_⟩
  cases hok : extractCallbackTarget e.callbacks i.callbackName config with
  | ok target' =>
    rw [hok] at hx
    exact congrArg _ (Option.some.inj hx)
  | error => simp [hok, Except.toOption] at hx

end OutboxDispatcher.System.Counts
