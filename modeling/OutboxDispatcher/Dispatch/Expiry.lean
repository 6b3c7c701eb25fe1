import OutboxDispatcher.System.Counts
import OutboxDispatcher.System.Phases

/-! # How long a crash can hold a delivery up

A dispatcher that crashes between its lock and its write-back leaves the lock in the table; nobody
clears it, and the row waits until it has expired. `lock_until` was computed from the dispatcher's
clock before the lock was taken, and the row says when it was taken, by the clock of the database:
so what a lock is good for can be read off the row, in every state of every run, and with it when a
delivery that is not finished is due at the latest. No row is locked without a record of the
attempt.

The two clocks are two here. In a step in which a process reads its own clock (`readsClock`) it may
read something else than the database would; `skewedStep` says what. What matters is how far the
processes are ahead. -/

namespace OutboxDispatcher.Dispatch.Expiry

open OutboxDispatcher.Lib.Runs OutboxDispatcher.Lib.Tables OutboxDispatcher.Schema
open OutboxDispatcher.Callbacks.Fields OutboxDispatcher.Repo.Database
open OutboxDispatcher.Repo.Database.Db OutboxDispatcher.Repo.Statements
  OutboxDispatcher.Scheduler.Pass
open OutboxDispatcher.Retry OutboxDispatcher.Dispatch OutboxDispatcher.System
open OutboxDispatcher.System.Effects OutboxDispatcher.System.History OutboxDispatcher.System.Rows
open OutboxDispatcher.System.Counts OutboxDispatcher.System.Phases

/-! ### Clocks of the processes -/

/-- `Utc::now()`: for the end of a lock, for the time of the next attempt, and for `$1` of the
sweep. (The cutoffs of retention are any times.) -/
def readsClock : PhasedAction → Bool
  | .base (.task _ .computeLock) | .base (.task _ (.respond _ _)) | .read _ => true
  | _ => false

def atTime (t : Time) (w : Phased) : Phased := { w with base := { w.base with now := t } }

section

variable [Crates]

/-- One step, in which the clock of the process is `δ` ahead of the one of the database. -/
def skewedStep (config : DispatchConfig) (w : Phased) (a : PhasedAction × ℤ) : Option Phased :=
  if readsClock a.1 then
    (phasedStep config (atTime (w.base.now + a.2) w) a.1).map (atTime w.base.now)
  else phasedStep config w a.1

/-- No process is ahead of the database by more than `ε`. -/
def Ahead (ε : Duration) (_ : Phased) (a : PhasedAction × ℤ) (_ : Phased) : Prop := a.2 ≤ ε

instance (ε : Duration) (w : Phased) (a : PhasedAction × ℤ) (w' : Phased) :
    Decidable (Ahead ε w a w') :=
  inferInstanceAs (Decidable (_ ≤ _))

variable {config : DispatchConfig} {s s' : Sys} {w w' : Phased} {ε : Duration}

/-- With clocks that agree it is the system as it was. -/
theorem skewedStep_zero (w : Phased) (a : PhasedAction) :
    skewedStep config w (a, 0) = phasedStep config w a := by
  unfold skewedStep
  split_ifs with ha
  · have hsame : atTime (w.base.now + 0) w = w := by rw [Int.add_zero]; rfl
    rw [hsame]
    rcases h : phasedStep config w a with _ | w'
    · rfl
    · have hnow : w'.base.now = w.base.now := by
        cases phasedStep_cases h with
        | base b s hs =>
          cases step_cases hs with
          | tick => cases ha
          | _ => rfl
        | _ => rfl
      rw [Option.map_some, atTime, ← hnow]
  · rfl

/-- The clock is no part of what is known of the past. -/
theorem wf_setNow (hw : WF config s) (t : Time) : WF config { s with now := t } where
  events := ⟨hw.events.seq_pos, hw.events.ids, hw.events.ids_nodup, hw.events.uuids_nodup,
    hw.events.visible⟩
  issued :=
    ⟨hw.issued.ids_lt, hw.issued.ids_nodup, hw.issued.event, hw.issued.row, hw.issued.present⟩
  scheds := fun r c l hr => ⟨(hw.scheds r c l hr).committed, (hw.scheds r c l hr).decoded,
    (hw.scheds r c l hr).made⟩
  tasks := ⟨hw.tasks.tid_lt, fun t ht => ⟨(hw.tasks.source t ht).event,
    (hw.tasks.source t ht).eventId,
    (hw.tasks.source t ht).decoded, (hw.tasks.source t ht).issued⟩, hw.tasks.due, hw.tasks.stmt⟩

/-! ### The lock before it is taken -/

omit [Crates] in
theorem computeLockUntil_eq {now u : Time} {timeout lockBuffer : Duration}
    (h : computeLockUntil now timeout lockBuffer = some u) : u = now + timeout + lockBuffer := by
  unfold computeLockUntil at h
  obtain ⟨v, hv, hu⟩ := Option.bind_eq_some_iff.mp h
  unfold addDuration at hv hu
  split_ifs at hv hu
  cases hv
  exact (Option.some.inj hu).symm

/-- The locks that are about to be asked for are not for longer than the timeout and the buffer from
`latest`. -/
def Computed (config : DispatchConfig) (latest : Time) (tasks : Table Task.tid) : Prop :=
  ∀ t ∈ tasks.rows, ∀ due u, t.phase = .locking due u →
    u ≤ latest + due.target.timeout + config.lockBuffer

omit [Crates] in
theorem Computed.mono {latest latest' : Time} {tasks : Table Task.tid}
    (h : Computed config latest tasks) (hle : latest ≤ latest') : Computed config latest' tasks :=
  fun t ht due u hp => (h t ht due u hp).trans (by gcongr)

theorem computed_of_taskStep {now : Time} {db db' : Db} {t : Task} {b : TaskAction} {obs : List Obs}
    {due : DueDelivery} {u : Time}
    (h : TaskStep config now db t b db' (some (.locking due u)) obs) :
    u = now + due.target.timeout + config.lockBuffer := by
  generalize hq : some (Phase.locking due u) = q at h
  cases h with
  | computeLock due' u' _ hu =>
    cases hq
    exact computeLockUntil_eq hu
  | respond due' u' result jitter =>
    obtain ⟨stmt, -, heq⟩ := Option.map_eq_some_iff.mp hq.symm
    cases heq
  | _ => cases hq

theorem computed_step {latest : Time} {a : Action} (hi : Computed config latest s.tasks)
    (h : Step config s a s') (hnow : s.now ≤ latest) : Computed config latest s'.tasks := by
  intro t ht due u hp
  rcases h.tasks ht with ⟨ht, -⟩ | ⟨-, hf, -⟩ | ⟨t₀, ht₀, b, obs, ha, -, hs, -⟩
  · exact hi t ht due u hp
  · rw [hf] at hp
    cases hp
  · rw [hp] at hs
    rw [computed_of_taskStep hs]
    gcongr

/-! ### The lock on the row -/

/-- A lock until `u` on the row is from the last attempt that the row records, and for no longer
than the timeout of its callback, the buffer and the skew. -/
def Dated (config : DispatchConfig) (ε : Duration) (s : Sys) (d : ℤ) (r : DeliveryRow) (u : Time) :
    Prop :=
  ∃ target t, HasTarget config s d target ∧ r.lastAttemptAt = some t ∧ t ≤ s.now ∧
    u ≤ t + target.timeout + config.lockBuffer + ε

def AllDated (config : DispatchConfig) (ε : Duration) (s : Sys) : Prop :=
  ∀ d r u, s.db.deliveries.get d = some r → r.lockedUntil = some u → Dated config ε s d r u

theorem allDated_step {a : Action} (hw : WF config s) (hc : Computed config (s.now + ε) s.tasks)
    (hi : AllDated config ε s) (h : Step config s a s') : AllDated config ε s' := by
  intro d r' u hr' hu
  have hrow := row_step h d
  have hnow : s.now ≤ s'.now := now_le h
  rw [hr'] at hrow
  -- a row that keeps its lock and its record of the attempt
  have hold : ∀ r, s.db.deliveries.get d = some r → r.lockedUntil = some u →
      r'.lastAttemptAt = r.lastAttemptAt → Dated config ε s' d r' u := by
    intro r hr hl hlast
    obtain ⟨target, t, htarget, ht, hle, hu⟩ := hi d r u hr hl
    exact ⟨target, t, hasTarget_step h htarget, hlast.trans ht, hle.trans hnow, hu⟩
  generalize hr : s.db.deliveries.get d = r₀ at hrow hold
  cases hrow with
  | keep => exact hold r' rfl hu rfl
  | inserted => cases hu
  | poisoned => cases hu
  | locked t fault due lockUntil r ht hp hd hg =>
    have hdue : t.phase.due? = some due := by rw [hp]; rfl
    obtain rfl : lockUntil = u := Option.some.inj hu
    have hid : t.row.deliveryId = d := (hw.examined ht hdue).deliveryId.symm.trans hd
    refine ⟨due.target, s.now, hasTarget_step h (hid ▸ hasTarget_of_task hw ht hdue), rfl, hnow, ?_⟩
    have hle := hc t ht due lockUntil hp
    linarith
  | wroteBack t fault due lockUntil stmt r ht hp hd hf hg =>
    rcases (hw.tasks.stmt t ht due lockUntil stmt hp).cases with rfl | ⟨rfl, -⟩ | ⟨_, _, _, rfl⟩ <;>
      cases hu
  | swept maxCycles r hh =>
    unfold sweepRow at hu
    split_ifs at hu
  | retried => cases hu
  | completed r | abandoned r => exact hold r rfl hu rfl

theorem allDated_clock {t : Time} {b : Action} (hi : AllDated config ε s)
    (hb : readsClock (.base b)) (h : Step config { s with now := t } b s') :
    AllDated config ε { s' with now := s.now } := by
  intro d r' u hr' hu
  have hrow := row_step h d
  generalize hr : s.db.deliveries.get d = r₀ at hrow
  have hr' : s'.db.deliveries.get d = some r' := hr'
  rw [hr'] at hrow
  cases hrow with
  | keep =>
    obtain ⟨target, t', htarget, ht, hle, hu⟩ := hi d r' u hr hu
    have htarget' : HasTarget config s' d target := hasTarget_step h htarget
    exact ⟨target, t', htarget', ht, hle, hu⟩
  | _ => cases hb

/-- The update of a sweep takes the lock away. -/
theorem allDated_apply (hi : AllDated config ε s) (now : Time) (v : ToUpdate) :
    AllDated config ε (v.apply now s) := by
  intro d r' u hr' hu
  rw [ToUpdate.get_apply, Option.map_eq_some_iff] at hr'
  obtain ⟨r, hr, rfl⟩ := hr'
  unfold ToUpdate.rowUpdate ToUpdate.assign at hu ⊢
  dsimp only at hu ⊢
  split_ifs at hu ⊢
  exact hi d r u hr hu

/-! ### Every run -/

structure Bounded (config : DispatchConfig) (ε : Duration) (s : Sys) : Prop where
  wf : WF config s
  computed : Computed config (s.now + ε) s.tasks
  dated : AllDated config ε s

theorem bounded_step {a : PhasedAction} (hi : Bounded config ε w.base)
    (h : PhasedStep config w a w') : Bounded config ε w'.base := by
  refine ⟨h.wf hi.wf, ?_, ?_⟩ <;>
    rcases base_cases h with ⟨-, hsame⟩ | ⟨b, -, hs⟩ | ⟨p, v, -, -, hbase⟩
  · rw [hsame]
    exact hi.computed
  · exact (computed_step hi.computed hs (by simp)).mono (by gcongr; exact now_le hs)
  · rw [hbase]
    exact hi.computed
  · rw [hsame]
    exact hi.dated
  · exact allDated_step hi.wf hi.computed hi.dated hs
  · rw [hbase]
    exact allDated_apply hi.dated _ v

theorem bounded_clock {a : PhasedAction} {δ : ℤ} (hi : Bounded config ε w.base) (hδ : δ ≤ ε)
    (ha : readsClock a) (h : PhasedStep config (atTime (w.base.now + δ) w) a w') :
    Bounded config ε (atTime w.base.now w').base := by
  have hw : WF config (atTime (w.base.now + δ) w).base := wf_setNow hi.wf _
  refine ⟨wf_setNow (h.wf hw) _, ?_, ?_⟩ <;>
    rcases base_cases h with ⟨-, hsame⟩ | ⟨b, hb, hs⟩ | ⟨p, v, -, rfl, -⟩
  · rw [atTime, hsame]
    exact hi.computed
  · have hc : Computed config (w.base.now + ε) (atTime (w.base.now + δ) w).base.tasks := hi.computed
    have hc' : Computed config (w.base.now + ε) w'.base.tasks :=
      computed_step hc hs (Int.add_le_add_left hδ _)
    exact hc'
  · cases ha
  · rw [atTime, hsame]
    exact hi.dated
  · cases a with
    | base b' =>
      cases hb
      exact allDated_clock hi.dated ha hs
    | read => cases hb
    | update | select | delete => cases ha
  · cases ha

/-- **No delivery is out of reach.** In every state of every run, with any number of dispatchers
that may crash anywhere, and whose clocks are ahead of the one of the database by `ε` at most: a
lock on a row is from an attempt that the row records, and expires the timeout of its callback, the
buffer and `ε` after it at the latest. A delivery that is not finished is therefore due from the
moment on when it is available and so much time has passed since the last attempt. -/
theorem lock_bounded {now : Time} {scheds : ℕ → Sched} (hq : Quiet scheds)
    (h : Run (skewedStep config) (Ahead ε) (start now scheds) w) {d : ℤ} {r : DeliveryRow}
    (hr : w.base.db.deliveries.get d = some r) :
    (∀ u, r.lockedUntil = some u → Dated config ε w.base d r u) ∧
      ∀ T, r.dispatchedAt = none → r.processedAt = none → r.deadLetter = false → r.availableAt ≤ T →
        (∀ target t, HasTarget config w.base d target → r.lastAttemptAt = some t →
          t + target.timeout + config.lockBuffer + ε < T) → isDue T r := by
  have hinv := h.invariant (Bounded config ε ·.base)
    ⟨wf_init now hq, by simp [Computed, start, init],
      by simp [AllDated, start, init, Db.empty, Table.get]⟩ fun w a w' hi hs hδ => by
      unfold skewedStep at hs
      split_ifs at hs with ha
      · obtain ⟨w₁, h₁, rfl⟩ := Option.map_eq_some_iff.mp hs
        exact bounded_clock hi hδ ha (phasedStep_cases h₁)
      · exact bounded_step hi (phasedStep_cases hs)
  refine ⟨fun u hu => hinv.dated d r u hr hu, fun T hdisp hproc hdead hav hlast => ?_⟩
  refine isDue_iff_columns.mpr ⟨hdisp, hproc, hdead, hav, ?_⟩
  unfold unlocked
  rcases hu : r.lockedUntil with _ | u
  · rfl
  · obtain ⟨target, t, htarget, ht, -, hle⟩ := hinv.dated d r u hr hu
    have hlt : u < T := hle.trans_lt (hlast target t htarget ht)
    simpa using hlt

end

/-- The dispatcher is three seconds ahead and a second late with its lock, and crashes during the
call. -/
def crashAfterLock : List (PhasedAction × ℤ) :=
  ([.publish (sampleEvent 1 [sampleCallback "hook_a" []]), .commit 1, .sched 0 .poll,
    .sched 0 (.write .ok), .sched 0 .next, .fetch, .task 0 (.examine .ok), .task 0 .computeLock,
    .tick (fromSecs 1), .task 0 (.lock .ok), .task 0 .deliver, .task 0 .crash] : List Action).map
    fun a => (.base a, fromSecs 3)

theorem lock_bounded_crash :
    ∃ w r u, Run (@skewedStep sampleCrates {}) (Ahead (fromSecs 3)) (start 0 oneScheduler) w ∧
      w.base.tasks.rows.length = 0 ∧ w.base.db.deliveries.get 1 = some r ∧ r.lockedUntil = some u ∧
      u = fromSecs 43 ∧ @Dated sampleCrates {} (fromSecs 3) w.base 1 r u := by
  obtain ⟨w, hrun, hlen, hsome⟩ :
      ∃ w, Run (@skewedStep sampleCrates {}) (Ahead (fromSecs 3)) (start 0 oneScheduler) w ∧
        w.base.tasks.rows.length = 0 ∧
        (w.base.db.deliveries.get 1).bind (·.lockedUntil) = some (fromSecs 43) :=
    Run.exists_of_exec crashAfterLock (by decide +kernel)
  obtain ⟨r, hr, hu⟩ := Option.bind_eq_some_iff.mp hsome
  exact ⟨w, r, _, hrun, hlen, hr, hu, rfl,
    (@lock_bounded sampleCrates {} w _ 0 _ quiet_oneScheduler hrun 1 r hr).1 _ hu⟩

end OutboxDispatcher.Dispatch.Expiry
