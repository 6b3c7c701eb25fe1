import OutboxDispatcher.Replicas.Timing

/-! # Readiness

`/ready` reads three things: whether the database answers a ping, what the loop has last noted of
its listener, and when it has last ended a cycle, in milliseconds since the epoch with 0 for
"never". A cycle ends only when its pass has succeeded and `dispatch_due` has returned, so a replica
whose passes fail, or that is stuck in a call, stops to be ready two poll intervals later. -/

namespace OutboxDispatcher.Replicas.Readiness

open OutboxDispatcher.Lib.Runs OutboxDispatcher.Schema OutboxDispatcher.Callbacks.Fields
open OutboxDispatcher.Config OutboxDispatcher.System OutboxDispatcher.Replicas
  OutboxDispatcher.Replicas.Effects
open OutboxDispatcher.Replicas.Timing

/-- `as i64`. -/
def asI64 (n : ℕ) : ℤ := Int.bmod n (2 ^ 64)

/-- `i64::saturating_sub`. -/
def saturatingSub (a b : ℤ) : ℤ := max (-2 ^ 63) (min (a - b) (2 ^ 63 - 1))

/-- `Duration::as_millis`. -/
def asMillis (d : Duration) : ℕ := d / 10 ^ 6

/-- The deadline that `main` gives to the admin server: two poll intervals. -/
def readyDeadline (pollIntervalSecs : UInt64) : Duration :=
  fromSecs (min (pollIntervalSecs.toNat * 2) (2 ^ 64 - 1))

structure ReadyResponse where
  statusCode : ℕ
  status : String
  dbReachable : Bool
  listenerUp : Bool
  lastCycleOk : Bool

/-- The handler of `/ready` in the process of the replica; `ping` says whether the database answers.
-/
def ready (readyDeadline : Duration) (p : Replica) (now : Time) (ping : Bool) : ReadyResponse :=
  let dbReachable := ping
  let listenerUp := p.listenerStatus
  let stored := p.lastCycleAt
  let lastCycleOk :=
    stored ≠ 0 && saturatingSub (timestampMillis now) stored ≤ asI64 (asMillis readyDeadline)
  let allOk := dbReachable && listenerUp && lastCycleOk
  { statusCode := if allOk then 200 else 503
    status := if allOk then "ready" else "not_ready"
    dbReachable, listenerUp, lastCycleOk }

theorem ready_iff {deadline : Duration} {p : Replica} {now : Time} {ping : Bool} :
    (ready deadline p now ping).statusCode = 200 ↔ ping ∧ p.listenerStatus ∧ p.lastCycleAt ≠ 0 ∧
      saturatingSub (timestampMillis now) p.lastCycleAt ≤ asI64 (asMillis deadline) := by
  simp [ready, and_assoc]

theorem asI64_of_lt {n : ℕ} (h : n < 2 ^ 63) : asI64 n = n := by
  unfold asI64
  exact Int.bmod_eq_of_le (by omega) (by omega)

/-- The deadline fits into 64 bits, unless the poll interval is more than a hundred million years.
-/
theorem asI64_readyDeadline {secs : UInt64} (h : secs.toNat < 2 ^ 52) :
    asI64 (asMillis (readyDeadline secs)) = (secs.toNat * 2000 : ℕ) := by
  have hmillis : asMillis (readyDeadline secs) = secs.toNat * 2000 := by
    rw [asMillis, readyDeadline, fromSecs]
    omega
  calc asI64 (asMillis (readyDeadline secs)) = asI64 (secs.toNat * 2000) := congrArg asI64 hmillis
    _ = (secs.toNat * 2000 : ℕ) := asI64_of_lt (by omega)

theorem saturatingSub_le_iff {a b : ℤ} {n : ℕ} (hn : n < 2 ^ 63 - 1) : saturatingSub a b ≤ n ↔
    a - b ≤ n := by
  unfold saturatingSub
  omega

/-! ### Every run -/

section

variable [Crates] {config : LoopConfig} {r : ℕ} {c : Cluster} {now : Time}
  {record : List (Time × Mark)}
  {ok : Cluster × List (Time × Mark) → Action → Cluster × List (Time × Mark) → Prop}

omit [Crates] in
theorem le_marks {c' : Cluster} {a : Action} (hle : c.sys.now ≤ c'.sys.now) :
    ∀ x ∈ marks r c a c', c.sys.now ≤ x.1 := by
  intro x hx
  unfold marks at hx
  split at hx
  · split_ifs at hx with hk
    · split at hx
      · rw [List.mem_singleton.mp hx]
        exact hle
      · obtain ⟨m, -, rfl⟩ := List.mem_map.mp hx
        exact le_rfl
      · cases hx
    · cases hx
  · cases hx

theorem le_record (h : Run (recorded (step config) (marks r)) ok (boot now, []) (c, record)) :
    now ≤ c.sys.now ∧ ∀ x ∈ record, now ≤ x.1 := by
  refine h.invariant (fun y => now ≤ y.1.sys.now ∧ ∀ x ∈ y.2, now ≤ x.1) ⟨le_rfl, by simp⟩ ?_
  rintro ⟨c, record⟩ a ⟨c', record'⟩ ⟨hc, hrec⟩ hs -
  obtain ⟨hs, heq⟩ := recorded_eq_some.mp hs
  dsimp only at hs heq hc hrec ⊢
  have hle := now_le_step (clusterStep_of_step hs)
  refine ⟨hc.trans hle, fun x hx => ?_⟩
  rw [heq] at hx
  rcases List.mem_append.mp hx with hx | hx
  · exact hc.trans (le_marks hle x hx)
  · exact hrec x hx

omit [Crates] in
theorem mem_of_lastCycle {t : Time} (h : lastCycle record = some t) :
    (t, .cycleEnded) ∈ record := by
  obtain ⟨x, hx, rfl⟩ := Option.map_eq_some_iff.mp h
  have hm : x.2 = .cycleEnded := by simpa using List.find?_some hx
  rw [← hm]
  exact (List.takeWhile_prefix _).subset (List.mem_of_find?_eq_some hx)

/-- **`/ready` tells whether the loop is alive.** In every run that begins after the epoch the
answer is 200 exactly when the database answers, the listener has not lost its connection since it
was last heard of, and the process has ended a cycle, the last one at most two poll intervals ago,
in whole milliseconds. So a listener that is connected again but gets no notification keeps the
replica from being ready. -/
theorem ready_tells_last_cycle {settings : DispatchSettings}
    (hpoll : settings.pollIntervalSecs.toNat < 2 ^ 52) (hepoch : 10 ^ 6 ≤ now)
    (h : Run (recorded (step (.ofSettings settings)) (marks r)) ok (boot now, []) (c, record))
    {p : Replica} (hp : c.replicas r = some p) (ping : Bool) :
    (ready (readyDeadline settings.pollIntervalSecs) p c.sys.now ping).statusCode = 200 ↔
      ping ∧ lastHeard record ≠ some false ∧ ∃ t, lastCycle record = some t ∧
        timestampMillis c.sys.now - timestampMillis t ≤
        (settings.pollIntervalSecs.toNat * 2000 : ℕ) := by
  have hclocked := (timed_of_run h).2.2 p hp
  have hlistener : p.listenerStatus = true ↔ lastHeard record ≠ some false := by
    rw [hclocked.listener]
    rcases lastHeard record with _ | _ | _ <;> simp
  rw [ready_iff, hlistener, asI64_readyDeadline hpoll, saturatingSub_le_iff (by omega),
    hclocked.cycle]
  rcases hc : lastCycle record with _ | t
  · simp
  · have ht : now ≤ t := (le_record h).2 _ (mem_of_lastCycle hc)
    have hne : timestampMillis t ≠ 0 := by
      have : 1 ≤ timestampMillis t := Int.le_ediv_of_mul_le (by norm_num) (by linarith)
      omega
    simp [hne]

end

/-- The replica has ended a cycle; ten seconds pass, and the next pass fails. -/
def stalled : List Action :=
  [.replica 0 .start, .replica 0 (.recv true), .replica 0 (.tryRecv false),
    .replica 0 (.fetchNew true), .replica 0 (.fetchDue true),
    .replica 0 .streamDone, .outside (.tick 10000000000), .replica 0 .pollTimer,
    .replica 0 (.tryRecv false), .replica 0 (.fetchNew false)]

theorem ready_tells_last_cycle_stalled :
    ∃ c record p, Run (recorded (@step sampleCrates (.ofSettings sampleApp.dispatch)) (marks 0))
      anyStep
        (boot 1000000, []) (c, record) ∧ c.replicas 0 = some p ∧ c.sys.now = 10001000000 ∧
      ((ready (readyDeadline 5) p c.sys.now true).statusCode = 200 ↔
        true ∧ lastHeard record ≠ some false ∧ ∃ t, lastCycle record = some t ∧
          timestampMillis c.sys.now - timestampMillis t ≤ (5 * 2000 : ℕ)) := by
  obtain ⟨⟨c, record⟩, hrun, p, hp, hnow⟩ : ∃ x : Cluster × List (Time × Mark),
      Run (recorded (@step sampleCrates (.ofSettings sampleApp.dispatch)) (marks 0)) anyStep
        (boot 1000000, []) x ∧ ∃ p ∈ x.1.replicas 0, x.1.sys.now = 10001000000 :=
    Run.exists_of_exec stalled (by decide +kernel)
  exact ⟨c, record, p, hrun, hp, hnow,
    @ready_tells_last_cycle sampleCrates 0 c 1000000 record _ sampleApp.dispatch (by decide)
      (by norm_num) hrun p hp true⟩

end OutboxDispatcher.Replicas.Readiness
