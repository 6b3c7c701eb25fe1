import OutboxDispatcher.Lib.Traces
import OutboxDispatcher.Replicas.Progress

/-! # When a replica does what

The loop keeps four variables beside its cursor: `consecutive_errors`, `last_sweep`, `next_poll` and
`last_cycle_at`. Here they are compared with what has happened: `marks` records, with the time, when
the replica was started, heard from its listener, failed or finished a pass, swept, and ended a
cycle. The record is part of no step.

* `Clocked`: what the variables say is what the record says.
* `Timed`: what this means for the record. After the `k`-th failed pass in a row there is no pass
  for `min(poll_interval, 100 ms · 2^min(k, 6))`; two sweeps are at least a sweep interval apart,
  also over restarts; and when a cycle ends, the last sweep or the start is less than a sweep
  interval ago. -/

namespace OutboxDispatcher.Replicas.Timing

open OutboxDispatcher.Lib.Runs OutboxDispatcher.Lib.Traces OutboxDispatcher.Schema
open OutboxDispatcher.Callbacks.Fields OutboxDispatcher.Scheduler.Pass OutboxDispatcher.Dispatch
open OutboxDispatcher.System OutboxDispatcher.System.Effects OutboxDispatcher.System.History
open OutboxDispatcher.System.Rows OutboxDispatcher.Replicas OutboxDispatcher.Replicas.Effects
open OutboxDispatcher.Replicas.Ownership OutboxDispatcher.Replicas.Progress

/-! ### The record -/

inductive Mark
  | started
  /-- The listener has a notification, or has lost its connection. -/
  | heard (ok : Bool)
  | passFailed
  | passDone
  | swept
  | cycleEnded
  deriving DecidableEq

/-- What the loop has done from one await to the next, the newest first. -/
def stageMarks : Stage → Stage → List Mark
  | .scheduling, .backingOff _ => [.passFailed]
  | .scheduling, .fetching => [.passDone]
  | .sweeping, .waiting => [.cycleEnded, .swept]
  | .fetching, .waiting | .streaming _, .waiting => [.cycleEnded]
  | _, _ => []

def stepMarks (p p' : Replica) : Act → List Mark
  | .recv ok => [.heard ok]
  | _ => stageMarks p.stage p'.stage

def marks (r : ℕ) (c : Cluster) (a : Action) (c' : Cluster) : List (Time × Mark) :=
  match a with
  | .replica k b =>
    if k = r then
      match c.replicas r, c'.replicas r with
      | none, some _ => [(c'.sys.now, .started)]
      | some p, some p' => (stepMarks p p' b).map (c.sys.now, ·)
      | _, none => []
    else []
  | _ => []

/-- The marks that say how passes end, and the start. -/
def isPass : Mark → Bool
  | .started | .passFailed | .passDone => true
  | _ => false

/-- A pass that is done, or the start, sets `consecutive_errors` to zero. -/
def clearsErrors : Mark → Bool
  | .started | .passDone => true
  | _ => false

/-- A sweep, or the start, sets `last_sweep`. -/
def isSweep : Mark → Bool
  | .started | .swept => true
  | _ => false

def failures (record : List (Time × Mark)) : ℕ :=
  countSince (fun x => x.2 = .passFailed) (fun x => clearsErrors x.2) record

/-- The record since the replica was started. -/
def life (record : List (Time × Mark)) : List (Time × Mark) :=
  record.takeWhile fun x => x.2 ≠ .started

def lastCycle (record : List (Time × Mark)) : Option Time :=
  ((life record).find? fun x => x.2 = .cycleEnded).map (·.1)

def lastSwept (record : List (Time × Mark)) : Option Time :=
  (record.find? fun x => isSweep x.2).map (·.1)

/-- What the listener has said last in this life. -/
def lastHeard (record : List (Time × Mark)) : Option Bool :=
  (life record).findSome? fun x => match x.2 with
    | .heard ok => some ok
    | _ => none

/-! ### One step of the loop -/

/-- What a step does to the variables of the loop, and what it records. -/
inductive Beat (config : LoopConfig) (now : Time) (p : Replica) : List Mark → Replica → Prop
  | quiet (stage : Stage) (nextPoll : Time) (shutdown : Bool)
      (hstage : stage = p.stage ∨ ∀ w, stage ≠ .backingOff w ∧ stage ≠ .sweeping)
      (hwake : ∀ w, p.stage = .backingOff w → stage = p.stage ∨ w ≤ now) :
      Beat config now p [] { p with stage, nextPoll, shutdown }
  | heard (ok : Bool) (hp : p.stage = .waiting) :
      Beat config now p [.heard ok] { p with stage := .draining, listenerStatus := ok }
  | passFailed (hp : p.stage = .scheduling) :
      Beat config now p [.passFailed] (p.passFailed config now)
  | passDone (hp : p.stage = .scheduling) : Beat config now p [.passDone] p.passDone
  | sweepDue (hp : ∀ w, p.stage ≠ .backingOff w)
      (hd : now - p.lastSweep ≥ config.externalTimeoutSweepInterval) :
      Beat config now p [] { p with stage := .sweeping }
  | cycleEnded (hp : ∀ w, p.stage ≠ .backingOff w)
      (hd : ¬now - p.lastSweep ≥ config.externalTimeoutSweepInterval) :
      Beat config now p [.cycleEnded] (p.endCycle config now)
  | swept (hp : p.stage = .sweeping) :
      Beat config now p [.cycleEnded, .swept] ({ p with lastSweep := now }.endCycle config now)

section

variable [Crates] {config : LoopConfig} {r : ℕ} {s s' : Sys} {p p' : Replica} {a : Act}

omit [Crates] in
theorem beat_dispatchDone {now : Time}
    (hp : p.stage = .fetching ∨ ∃ stream, p.stage = .streaming stream) :
    Beat config now p (stageMarks p.stage (p.dispatchDone config now).stage)
    (p.dispatchDone config now) := by
  have hne : ∀ w, p.stage ≠ .backingOff w := by
    rcases hp with hp | ⟨stream, hp⟩ <;> simp [hp]
  unfold Replica.dispatchDone
  split_ifs with hd
  · have hmarks : stageMarks p.stage .sweeping = [] := by
      rcases hp with hp | ⟨stream, hp⟩ <;> rw [hp] <;> rfl
    rw [hmarks]
    exact .sweepDue hne hd
  · have hmarks : stageMarks p.stage (p.endCycle config now).stage = [.cycleEnded] := by
      rcases hp with hp | ⟨stream, hp⟩ <;> rw [hp] <;> rfl
    rw [hmarks]
    exact .cycleEnded hne hd

omit [Crates] in
theorem stageMarks_self (stage : Stage) : stageMarks stage stage = [] := by
  cases stage <;> rfl

omit [Crates] in
theorem beat_within {now : Time} {stage : Stage} (hp : ∀ w, p.stage ≠ .backingOff w)
    (hm : stageMarks p.stage stage = []) (hstage : ∀ w, stage ≠ .backingOff w ∧ stage ≠ .sweeping) :
    Beat config now p (stageMarks p.stage stage) { p with stage } := by
  rw [hm]
  exact .quiet stage _ _ (.inr hstage) fun w hw => absurd hw (hp w)

omit [Crates] in
theorem beat_same {now : Time} {shutdown : Bool} :
    Beat config now p (stageMarks p.stage p.stage) { p with shutdown } := by
  rw [stageMarks_self]
  exact .quiet p.stage _ _ (.inl rfl) fun w _ => .inl rfl

/-- **Every step of the loop is one of these.** -/
theorem beat_of_step (h : ReplicaStep config r s p a s' (some p')) :
    Beat config s.now p (stepMarks p p' a) p' := by
  have hexam : ∀ rows ready, (p.stage = .fetching ∨ ∃ rows ready, p.stage = .examining rows ready) →
      Beat config s.now p (stageMarks p.stage (p.examine rows ready).stage)
      (p.examine rows ready) := by
    intro rows ready hp
    unfold Replica.examine
    rcases hp with hp | ⟨rows', ready', hp⟩ <;> split_ifs <;>
      exact beat_within (by simp [hp]) (by rw [hp]; rfl) (by simp)
  generalize hq : some p' = q at h
  cases h with
  | crash | stop | startPanicked | responsePanicked => cases hq
  | cancel | drained => cases hq; exact beat_same
  | recv ok hp => cases hq; exact .heard ok hp
  | pollTimer hp | drainEnded hp =>
    cases hq
    exact beat_within (by simp [hp]) (by rw [hp]; rfl) (by simp)
  | passEmpty _ hp | passDone _ hp =>
    cases hq
    rw [stepMarks, hp]
    · exact .passDone hp
    · simp
  | fetchNewFailed _ _ hp | writeFailed _ _ hp => 
    cases hq
    rw [stepMarks, hp]
    · exact .passFailed hp
    · simp
  | passStarted | wrote | nextEvent | advanced => cases hq; exact beat_same
  | wake w hp hw =>
    cases hq
    rw [stepMarks, hp]
    · exact .quiet .waiting _ _ (.inr (by simp)) fun w' hw' =>
        .inr (by rw [hp] at hw'; cases hw'; exact hw)
    · simp
  | fetchDueFailed _ hp => cases hq; exact beat_dispatchDone (.inl hp)
  | streamDone _ hp => cases hq; exact beat_dispatchDone (.inr ⟨_, hp⟩)
  | fetchDue _ hp => cases hq; exact hexam _ _ (.inl hp)
  | examined _ _ _ _ _ hp => cases hq; exact hexam _ _ (.inr ⟨_, _, hp⟩)
  | started _ _ _ _ hp | finished _ _ _ _ hp =>
    cases hq
    exact beat_within (by simp [hp]) (by rw [hp]; rfl) (by simp)
  | swept _ _ hp | sweepFailed _ hp =>
    cases hq
    rw [stepMarks, hp]
    · exact .swept hp
    · simp

end

/-! ### The variables and the record -/

section

variable {t : Time} {m : Mark} {record : List (Time × Mark)}

def passes (record : List (Time × Mark)) : List (Time × Mark) := record.filter fun x => isPass x.2

theorem passes_cons : passes ((t, m) :: record) = if isPass m then (t, m) :: passes record
    else passes record := by
  rw [passes, List.filter_cons]
  rfl

theorem failures_cons : failures ((t, m) :: record) =
    if clearsErrors m then 0 else (if m = .passFailed then 1 else 0) + failures record := by
  rw [failures, countSince_cons]
  simp only [decide_eq_true_eq]
  rfl

/-- Only the ends of passes count. -/
theorem failures_passes (record : List (Time × Mark)) :
    failures (passes record) = failures record := by
  induction record with
  | nil => rfl
  | cons x record ih =>
    obtain ⟨t, m⟩ := x
    rw [passes_cons]
    cases m <;> simp [isPass, failures_cons, clearsErrors, ih]

theorem lastCycle_cons : lastCycle ((t, m) :: record) =
    if m = .started then none else if m = .cycleEnded then some t else lastCycle record := by
  cases m <;> simp [lastCycle, life]

theorem lastHeard_cons : lastHeard ((t, m) :: record) =
    match m with
    | .started => none
    | .heard ok => some ok
    | _ => lastHeard record := by
  cases m <;> simp [lastHeard, life]

theorem lastSwept_cons : lastSwept ((t, m) :: record) = if isSweep m then some t
    else lastSwept record := by
  rw [lastSwept, List.find?_cons]
  cases isSweep m <;> simp [lastSwept]

end

/-- The variables of the loop say what the record says. -/
structure Clocked (config : LoopConfig) (now : Time) (p : Replica) (record : List (Time × Mark)) :
    Prop where
  errors : p.consecutiveErrors = min (failures record) (2 ^ 32 - 1)
  rested : ∀ t l, passes record = (t, .passFailed) :: l →
    p.stage = .backingOff (t + backoffOf config.pollInterval p.consecutiveErrors) ∨
      t + backoffOf config.pollInterval p.consecutiveErrors ≤ now
  sweep : lastSwept record = some p.lastSweep
  overdue : p.stage = .sweeping → p.lastSweep + config.externalTimeoutSweepInterval ≤ now
  cycle : p.lastCycleAt = ((lastCycle record).map timestampMillis).getD 0
  listener : p.listenerStatus = (lastHeard record).getD true

section

variable {config : LoopConfig} {now now' : Time} {p p' : Replica} {record : List (Time × Mark)}
  {ms : List Mark}

theorem Clocked.mono (h : Clocked config now p record) (hle : now ≤ now') :
    Clocked config now' p record :=
  { h with
    rested := fun t l hl => (h.rested t l hl).imp_right fun hr => hr.trans hle
    overdue := fun hs => (h.overdue hs).trans hle }

/-- Outside its sleep the replica has rested. -/
theorem Clocked.awake (h : Clocked config now p record) (hp : ∀ w, p.stage ≠ .backingOff w)
    {t : Time} {l : List (Time × Mark)} (hl : passes record = (t, .passFailed) :: l) :
    t + backoffOf config.pollInterval p.consecutiveErrors ≤ now :=
  (h.rested t l hl).resolve_left (hp _)

theorem clocked_start (config : LoopConfig) (now nextPoll : Time) (record : List (Time × Mark)) :
    Clocked config now { nextPoll, lastSweep := now } ((now, .started) :: record) where
  errors := by simp [failures_cons, clearsErrors]
  rested := fun t l hl => by simp [passes_cons, isPass] at hl
  sweep := by simp [lastSwept_cons, isSweep]
  overdue := fun hs => by cases hs
  cycle := by simp [lastCycle_cons]
  listener := by simp [lastHeard_cons]

/-- After a pass that has failed the replica sleeps. -/
theorem Clocked.passFailed (h : Clocked config now p record) :
    Clocked config now (p.passFailed config now) ((now, .passFailed) :: record) where
  errors := by
    have := h.errors
    simp only [Replica.passFailed, countError, failures_cons, clearsErrors, Bool.false_eq_true,
      if_false, if_true]
    omega
  rested := fun t l hl => by
    simp only [passes_cons, isPass, if_true, List.cons.injEq, Prod.mk.injEq, and_true] at hl
    rw [← hl.1]
    exact .inl rfl
  sweep := by simpa [lastSwept_cons, isSweep, Replica.passFailed] using h.sweep
  overdue := fun hs => by cases hs
  cycle := by simpa [lastCycle_cons, Replica.passFailed] using h.cycle
  listener := by simpa [lastHeard_cons, Replica.passFailed] using h.listener

/-- **One step**: the variables go with the record. -/
theorem clocked_beat (h : Clocked config now p record) (hb : Beat config now p ms p') :
    Clocked config now p' (ms.map (now, ·) ++ record) := by
  cases hb with
  | quiet stage nextPoll shutdown hstage hwake =>
    refine { h with rested := fun t l hl => ?_, overdue := fun hs => ?_ }
    · rcases h.rested t l hl with hw | hr
      · rcases hwake _ hw with hsame | hle
        · exact .inl (hsame.trans hw)
        · exact .inr hle
      · exact .inr hr
    · rcases hstage with hsame | hne
      · exact h.overdue (hsame.symm.trans hs)
      · exact absurd hs (hne 0).2
  | heard ok hp =>
    exact {
      errors := by simpa [failures_cons, clearsErrors] using h.errors
      rested :=
        fun t l hl => .inr (h.awake (by simp [hp]) (by simpa [passes_cons, isPass] using hl))
      sweep := by simpa [lastSwept_cons, isSweep] using h.sweep
      overdue := fun hs => by cases hs
      cycle := by simpa [lastCycle_cons] using h.cycle
      listener := by simp [lastHeard_cons] }
  | passFailed hp => exact h.passFailed
  | passDone hp =>
    exact {
      errors := by simp [failures_cons, clearsErrors, Replica.passDone]
      rested := fun t l hl => by simp [passes_cons, isPass] at hl
      sweep := by simpa [lastSwept_cons, isSweep, Replica.passDone] using h.sweep
      overdue := fun hs => by cases hs
      cycle := by simpa [lastCycle_cons, Replica.passDone] using h.cycle
      listener := by simpa [lastHeard_cons, Replica.passDone] using h.listener }
  | sweepDue hp hd =>
    refine { h with rested := fun t l hl => .inr (h.awake hp hl), overdue := fun _ => ?_ }
    show p.lastSweep + _ ≤ now
    linarith
  | cycleEnded hp hd =>
    exact {
      errors := by simpa [failures_cons, clearsErrors, Replica.endCycle] using h.errors
      rested := fun t l hl => .inr (h.awake hp (by simpa [passes_cons, isPass] using hl))
      sweep := by simpa [lastSwept_cons, isSweep, Replica.endCycle] using h.sweep
      overdue := fun hs => by cases hs
      cycle := by simp [lastCycle_cons, Replica.endCycle]
      listener := by simpa [lastHeard_cons, Replica.endCycle] using h.listener }
  | swept hp =>
    exact {
      errors := by simpa [failures_cons, clearsErrors, Replica.endCycle] using h.errors
      rested :=
        fun t l hl => .inr (h.awake (by simp [hp]) (by simpa [passes_cons, isPass] using hl))
      sweep := by simp [lastSwept_cons, isSweep, Replica.endCycle]
      overdue := fun hs => by cases hs
      cycle := by simp [lastCycle_cons, Replica.endCycle]
      listener := by simpa [lastHeard_cons, Replica.endCycle] using h.listener }

/-! ### What the record shows -/

/-- The times of a record are as they have to be. -/
structure Timed (config : LoopConfig) (now : Time) (record : List (Time × Mark)) : Prop where
  le_now : ∀ x ∈ record, x.1 ≤ now
  sorted : record.Pairwise fun x y => y.1 ≤ x.1
  paced : ∀ l t' m' t l', passes record = l ++ (t', m') :: (t, .passFailed) :: l' → m' ≠ .started →
    t + backoffOf config.pollInterval (failures ((t, .passFailed) :: l')) ≤ t'
  sweeps : record.Pairwise fun x y => x.2 = .swept → isSweep y.2 →
    y.1 + (config.externalTimeoutSweepInterval : ℤ) ≤ x.1
  covered : ∀ l t l', record = l ++ (t, .cycleEnded) :: l' →
    ∃ y ∈ l', isSweep y.2 ∧ (t < y.1 + (config.externalTimeoutSweepInterval : ℤ) ∨ t = y.1)

theorem Timed.mono (h : Timed config now record) (hle : now ≤ now') : Timed config now' record :=
  { h with le_now := fun x hx => (h.le_now x hx).trans hle }

theorem timed_cons {m : Mark} (h : Timed config now record)
    (hpaced : m ≠ .started → isPass m → ∀ t l, passes record = (t, .passFailed) :: l →
      t + backoffOf config.pollInterval (failures ((t, .passFailed) :: l)) ≤ now)
    (hsweep : m = .swept → ∀ y ∈ record, isSweep y.2 →
      y.1 + (config.externalTimeoutSweepInterval : ℤ) ≤ now)
    (hcycle : m = .cycleEnded →
      ∃ y ∈ record, isSweep y.2 ∧ (now < y.1 + (config.externalTimeoutSweepInterval : ℤ) ∨
        now = y.1)) :
    Timed config now ((now, m) :: record) where
  le_now := by simpa using h.le_now
  sorted := List.pairwise_cons.mpr ⟨h.le_now, h.sorted⟩
  paced := by
    intro l t' m' t l' heq hm'
    rw [passes_cons] at heq
    split_ifs at heq with hm
    · cases l with
      | nil =>
        simp only [List.nil_append, List.cons.injEq, Prod.mk.injEq] at heq
        obtain ⟨⟨rfl, rfl⟩, heq⟩ := heq
        exact hpaced hm' hm t l' heq
      | cons x l =>
        simp only [List.cons_append, List.cons.injEq] at heq
        exact h.paced l t' m' t l' heq.2 hm'
    · exact h.paced l t' m' t l' heq hm'
  sweeps := List.pairwise_cons.mpr ⟨fun y hy hm => hsweep hm y hy, h.sweeps⟩
  covered := by
    intro l t l' heq
    cases l with
    | nil =>
      simp only [List.nil_append, List.cons.injEq, Prod.mk.injEq] at heq
      obtain ⟨⟨rfl, rfl⟩, rfl⟩ := heq
      exact hcycle rfl
    | cons x l =>
      simp only [List.cons_append, List.cons.injEq] at heq
      exact h.covered l t l' heq.2

theorem le_lastSwept (h : record.Pairwise fun x y => y.1 ≤ x.1) {t : Time}
    (ht : lastSwept record = some t) : ∀ y ∈ record, isSweep y.2 → y.1 ≤ t := by
  induction record with
  | nil => simp
  | cons x record ih =>
    obtain ⟨hx, hrest⟩ := List.pairwise_cons.mp h
    rw [lastSwept_cons] at ht
    intro y hy hs
    split_ifs at ht with hm
    · cases ht
      rcases List.mem_cons.mp hy with rfl | hy
      · exact le_rfl
      · exact hx y hy
    · rcases List.mem_cons.mp hy with rfl | hy
      · exact absurd hs hm
      · exact ih hrest ht y hy hs

theorem mem_of_lastSwept {t : Time} (ht : lastSwept record = some t) :
    ∃ y ∈ record, isSweep y.2 ∧ y.1 = t := by
  obtain ⟨y, hy, rfl⟩ := Option.map_eq_some_iff.mp ht
  exact ⟨y, List.mem_of_find?_eq_some hy, by simpa using List.find?_some hy, rfl⟩

/-- The sleep does not depend on the bound of the counter. -/
theorem backoffOf_min (pollInterval : Duration) (n : ℕ) :
    backoffOf pollInterval (min n (2 ^ 32 - 1)) = backoffOf pollInterval n := by
  have hmin : min (min n (2 ^ 32 - 1)) 6 = min n 6 := by omega
  rw [backoffOf, backoffOf, hmin]

/-- **One step**: the record stays as it has to be. -/
theorem timed_beat (hc : Clocked config now p record) (h : Timed config now record)
    (hb : Beat config now p ms p') : Timed config now (ms.map (now, ·) ++ record) := by
  have hrest : p.stage = .scheduling → ∀ t l, passes record = (t, .passFailed) :: l →
      t + backoffOf config.pollInterval (failures ((t, .passFailed) :: l)) ≤ now := by
    intro hp t l hl
    rw [← hl, failures_passes, ← backoffOf_min, ← hc.errors]
    exact hc.awake (by simp [hp]) hl
  obtain ⟨y, hy, hys, hyt⟩ := mem_of_lastSwept hc.sweep
  cases hb with
  | quiet | sweepDue => exact h
  | heard ok hp => exact timed_cons h (by simp [isPass]) (by simp) (by simp)
  | passFailed hp | passDone hp => exact timed_cons h (fun _ _ => hrest hp) (by simp) (by simp)
  | cycleEnded hp hd =>
    refine timed_cons h (by simp [isPass]) (by simp) fun _ => ⟨y, hy, hys, .inl ?_⟩
    rw [hyt]
    linarith
  | swept hp =>
    have hswept : Timed config now ((now, .swept) :: record) := by
      refine timed_cons h (by simp [isPass]) (fun _ z hz hzs => ?_) (by simp)
      have hle := le_lastSwept h.sorted hc.sweep z hz hzs
      have := hc.overdue hp
      linarith
    exact timed_cons hswept (by simp [isPass]) (by simp) fun _ =>
      ⟨(now, .swept), by simp, rfl, .inr rfl⟩

/-- The multiplication of the sleep never saturates. -/
theorem backoffOf_eq (pollInterval : Duration) (n : ℕ) :
    backoffOf pollInterval n = min pollInterval (100 * 2 ^ min n 6 * 10 ^ 6) := by
  have hpow : 2 ^ min n 6 ≤ 2 ^ 6 := Nat.pow_le_pow_right (by norm_num) (by omega)
  have hsat : min (100 * 2 ^ min n 6) (2 ^ 64 - 1) = 100 * 2 ^ min n 6 := by
    refine min_eq_left ?_
    norm_num at hpow ⊢
    omega
  rw [backoffOf, hsat]

end

/-! ### Every run -/

section

variable [Crates] {config : LoopConfig} {r : ℕ} {c c' : Cluster} {a : Action} {now : Time}
  {record : List (Time × Mark)}
  {ok : Cluster × List (Time × Mark) → Action → Cluster × List (Time × Mark) → Prop}

theorem now_le_step (h : ClusterStep config c a c') : c.sys.now ≤ c'.sys.now := by
  refine h.moves.invariant (fun s => c.sys.now ≤ s.now) le_rfl (fun b s' _ hst =>
    now_le hst) fun s tids hs => ?_
  rw [kill_eq]
  exact hs

omit [Crates] in
theorem marks_of_ne (h : ∀ b, a ≠ .replica r b) : marks r c a c' = [] := by
  cases a with
  | outside | rescan => rfl
  | replica k b => exact if_neg fun hk => h b (by rw [hk])

omit [Crates] in
theorem marks_of_none (h : c'.replicas r = none) : marks r c a c' = [] := by
  cases a with
  | outside | rescan => rfl
  | replica k b =>
    simp [marks, h]

/-- **The record of every run**: it is as it has to be, and the variables of the loop say what it
says. -/
theorem timed_of_run (h : Run (recorded (step config) (marks r)) ok (boot now, []) (c, record)) :
    Run (step config) anyStep (boot now) c ∧ Timed config c.sys.now record ∧
      ∀ p, c.replicas r = some p → Clocked config c.sys.now p record := by
  refine h.invariant (fun x => Run (step config) anyStep (boot now) x.1 ∧
    Timed config x.1.sys.now x.2 ∧
    ∀ p, x.1.replicas r = some p → Clocked config x.1.sys.now p x.2) ?_ ?_
  · exact ⟨.refl, ⟨by simp, by simp, by simp [passes], by simp, by simp⟩, by simp [boot]⟩
  · rintro ⟨c, record⟩ a ⟨c', record'⟩ ⟨hrun, htimed, hclocked⟩ hs -
    obtain ⟨hs, hrec⟩ := recorded_eq_some.mp hs
    dsimp only at hs hrec hrun htimed hclocked ⊢
    have hcs := clusterStep_of_step hs
    have hle := now_le_step hcs
    refine ⟨hrun.tail hs trivial, ?_⟩
    rcases hp' : c'.replicas r with _ | p'
    · rw [hrec, marks_of_none hp']
      exact ⟨htimed.mono hle, fun p hp => by cases hp⟩
    · rcases replica_cases (wf_of_cluster hrun).tasks.tid_lt (owned_of_run hrun) hcs hp' with
        ⟨hne, hold, -⟩ | ⟨rfl, hnone, rfl, -⟩ | ⟨b, p, rfl, hp, hstep⟩
      · rw [hrec, marks_of_ne hne]
        refine ⟨htimed.mono hle, fun p hp => ?_⟩
        cases hp
        exact (hclocked p' hold).mono hle
      · have hm : marks r c (.replica r .start) c' = [(c'.sys.now, .started)] := by
          simp [marks, hnone, hp']
        rw [hrec, hm]
        refine ⟨timed_cons (htimed.mono hle) (by simp) (by simp) (by simp), fun p hp => ?_⟩
        cases hp
        exact clocked_start ..
      · have hm : marks r c (.replica r b) c' = (stepMarks p p' b).map (c.sys.now, ·) := by
          simp [marks, hp, hp']
        have hb := beat_of_step hstep
        rw [hrec, hm]
        refine ⟨(timed_beat (hclocked p hp) htimed hb).mono hle, fun q hq => ?_⟩
        cases hq
        exact (clocked_beat (hclocked p hp) hb).mono hle

/-- **Failed passes back off.** In every run the counter of a replica is the number of passes that
have failed in a row, up to the bound of 32 bits, and after a failed pass that is the `k`-th in a
row the next one ends no earlier than 100 ms times `2^k` later, for at most six doublings and never
more than the poll interval. Only a restart of the process is not held up. -/
theorem failed_passes_back_off
    (h : Run (recorded (step config) (marks r)) ok (boot now, []) (c, record)) :
    (∀ p, c.replicas r = some p → p.consecutiveErrors = min (failures record) (2 ^ 32 - 1)) ∧
      ∀ l t' m' t l', passes record = l ++ (t', m') :: (t, .passFailed) :: l' → m' ≠ .started →
        t + (min config.pollInterval
          (100 * 2 ^ min (failures ((t, .passFailed) :: l')) 6 * 10 ^ 6) : ℕ) ≤ t' := by
  obtain ⟨-, htimed, hclocked⟩ := timed_of_run h
  refine ⟨fun p hp => (hclocked p hp).errors, fun l t' m' t l' heq hm => ?_⟩
  rw [← backoffOf_eq]
  exact htimed.paced l t' m' t l' heq hm

/-- **Sweeps keep their interval.** In every run two sweeps of a replica are at least the sweep
interval apart, as is a sweep from the start of the process, also when the process is restarted
between them; and whenever a cycle ends, it has swept, or the last sweep or the start is less than
the interval ago. -/
theorem sweeps_keep_interval
    (h : Run (recorded (step config) (marks r)) ok (boot now, []) (c, record)) :
    (record.Pairwise fun x y => x.2 = .swept → isSweep y.2 →
      y.1 + (config.externalTimeoutSweepInterval : ℤ) ≤ x.1) ∧
      ∀ l t l', record = l ++ (t, .cycleEnded) :: l' →
        ∃ y ∈ l', isSweep y.2 ∧ (t < y.1 + (config.externalTimeoutSweepInterval : ℤ) ∨ t = y.1) :=
  ⟨(timed_of_run h).2.1.sweeps, (timed_of_run h).2.1.covered⟩

end

/-- Two passes fail one after the other. -/
def outage : List Action :=
  [.replica 0 .start, .replica 0 (.recv true), .replica 0 (.tryRecv false),
    .replica 0 (.fetchNew false), .outside (.tick 200000000),
    .replica 0 .wake, .replica 0 (.recv true), .replica 0 (.tryRecv false),
    .replica 0 (.fetchNew false)]

theorem failed_passes_back_off_outage :
    ∃ c record, Run (recorded (@step sampleCrates {}) (marks 0)) anyStep (boot 0, []) (c, record) ∧
      passes record = [(200000000, .passFailed), (0, .passFailed), (0, .started)] ∧
      0 + (min (fromSecs 5) (100 * 2 ^ min 1 6 * 10 ^ 6) : ℕ) ≤ (200000000 : ℤ) := by
  obtain ⟨⟨c, record⟩, hrun, hrec⟩ : ∃ x : Cluster × List (Time × Mark),
      Run (recorded (@step sampleCrates {}) (marks 0)) anyStep (boot 0, []) x ∧
        passes x.2 = [(200000000, .passFailed), (0, .passFailed), (0, .started)] :=
    Run.exists_of_exec outage (by decide +kernel)
  refine ⟨c, record, hrun, hrec, ?_⟩
  exact (@failed_passes_back_off sampleCrates {} 0 c 0 record _ hrun).2 [] _ _ 0 [(0, .started)]
    hrec (by simp)

/-- A minute after its start the replica sweeps. -/
def quietMinute : List Action :=
  [.replica 0 .start, .outside (.tick 60000000000), .replica 0 .pollTimer,
    .replica 0 (.tryRecv false), .replica 0 (.fetchNew true),
    .replica 0 (.fetchDue true), .replica 0 .streamDone, .replica 0 (.sweep .ok)]

theorem sweeps_keep_interval_quietMinute :
    ∃ c record, Run (recorded (@step sampleCrates {}) (marks 0)) anyStep (boot 0, []) (c, record) ∧
      record.map (·.2) = [.cycleEnded, .swept, .passDone, .started] ∧
      record.Pairwise fun x y => x.2 = .swept → isSweep y.2 → y.1 + (fromSecs 60 : ℤ) ≤ x.1 := by
  obtain ⟨⟨c, record⟩, hrun, hrec⟩ : ∃ x : Cluster × List (Time × Mark),
      Run (recorded (@step sampleCrates {}) (marks 0)) anyStep (boot 0, []) x ∧
        x.2.map (·.2) = [.cycleEnded, .swept, .passDone, .started] :=
    Run.exists_of_exec quietMinute (by decide +kernel)
  exact ⟨c, record, hrun, hrec, (@sweeps_keep_interval sampleCrates {} 0 c 0 record _ hrun).1⟩

end OutboxDispatcher.Replicas.Timing
