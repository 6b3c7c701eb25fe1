import OutboxDispatcher.Dispatch.Solo
import OutboxDispatcher.Repo.SweepLookup

/-! # How often an external delivery is made

An external delivery has two counters in its row. `attempts` counts the calls of a cycle; a cycle
ends with a success, and when the receiver does not complete the delivery in time, the sweep starts
another one with no attempts made. `completion_cycles` counts those timeouts, and the last one
dead-letters the row.

The sweep reads `max_completion_cycles` from the array of the event once more, by a query of its
own. When all names are strings, it finds the element that the dispatcher has parsed
(`hungLimit_eq`), and the two counters bound the number of calls together (`external_bounded`). -/

namespace OutboxDispatcher.Dispatch.Cycles

open OutboxDispatcher.Lib.Checks OutboxDispatcher.Lib.JsonValue OutboxDispatcher.Lib.Runs
open OutboxDispatcher.Lib.Tables OutboxDispatcher.Lib.Traces OutboxDispatcher.Schema
open OutboxDispatcher.Callbacks.Fields OutboxDispatcher.Callbacks.Parse
open OutboxDispatcher.Callbacks.Limits OutboxDispatcher.Repo.Database
  OutboxDispatcher.Repo.Database.Db
open OutboxDispatcher.Repo.Statements OutboxDispatcher.Repo.SweepLookup
  OutboxDispatcher.Scheduler.Pass
open OutboxDispatcher.Dispatch OutboxDispatcher.Dispatch.Solo OutboxDispatcher.System
  OutboxDispatcher.System.Effects
open OutboxDispatcher.System.History OutboxDispatcher.System.Rows
open OutboxDispatcher.System.Counts
  (HasTarget targets hasTarget_of_mem_targets validTarget_of_hasTarget)

/-! ### The limit that the sweep reads -/

section

variable [Crates] {config : DispatchConfig} {target : CallbackTarget}

/-- Every element of the array has a string for a name. -/
def StringNames (callbacks : Json) : Prop :=
  ∀ v ∈ callbacks.asArray.getD [], (v.strField "name").isSome

instance : DecidablePred StringNames := fun callbacks =>
  inferInstanceAs (Decidable (∀ v ∈ callbacks.asArray.getD [], (v.strField "name").isSome))

omit [Crates] in
theorem unshadowed_of_stringNames {callbacks : Json} (h : StringNames callbacks) (name : String) :
    Unshadowed callbacks name := by
  intro v hm
  obtain ⟨s, hs⟩ := Option.isSome_iff_exists.mp (h v ((List.takeWhile_sublist _).subset hm))
  obtain ⟨w, hw, hstr⟩ := Option.bind_eq_some_iff.mp hs
  unfold boolNamed
  rw [hw]
  cases w with
  | bool b => cases hstr
  | _ => rfl

theorem sweepTarget_eq (hc : ValidConfig config) {callbacks : Json} {name : String}
    (hn : StringNames callbacks) (hv : validateNamedCallback callbacks name config = .ok target)
    {timeout cycles : ℤ} (h : sweepTarget callbacks name (asI32 config.maxCompletionCycles) =
      some (some (timeout, cycles))) :
    cycles = target.maxCompletionCycles := by
  obtain ⟨x, hx, hlim⟩ := sweepTarget_of_unshadowed hc hv (unshadowed_of_stringNames hn name)
  rw [h] at hx
  cases hx
  obtain ⟨d, -, heq⟩ := Option.map_eq_some_iff.mp hlim.symm
  exact (Prod.mk.inj heq).2.symm

/-- The event of the delivery `d` names its callbacks by strings. -/
def StringNamed (s : Sys) (d : ℤ) : Prop :=
  ∀ i ∈ s.issued, i.id = d → ∀ e ∈ s.committed, e.eventId = i.eventId → StringNames e.callbacks

instance (s : Sys) (d : ℤ) : Decidable (StringNamed s d) :=
  inferInstanceAs (Decidable (∀ i ∈ s.issued, i.id = d → ∀ e ∈ s.committed, e.eventId = i.eventId →
    StringNames e.callbacks))

variable {s s' : Sys} {a : Action} {d : ℤ}

/-- **The sweep's limit** is that of the target. -/
theorem hungLimit_eq (hc : ValidConfig config) (hw : WF config s) (ht : TargetIs config s d target)
    (hn : StringNamed s d) {r : DeliveryRow} (hr : s.db.deliveries.get d = some r) {maxCycles : ℤ}
    (h : hungLimit s.db s.now (asI32 config.maxCompletionCycles) r = some (some maxCycles)) :
    maxCycles = target.maxCompletionCycles := by
  obtain ⟨hm, hid⟩ := Table.get_eq_some_iff.mp hr
  obtain ⟨i, hi, hident⟩ := hw.issued.row r hm
  simp only [DeliveryRow.ident, Prod.mk.injEq] at hident
  obtain ⟨hiid, hiev, hiname, -⟩ := hident
  unfold hungLimit at h
  split at h
  · next t e _ he =>
    obtain ⟨hev, hk⟩ := event?_eq_some.mp he
    split_ifs at h
    · obtain ⟨x, hx, hbind⟩ := Option.map_eq_some_iff.mp h
      obtain ⟨⟨timeout, cycles⟩, rfl, hlim⟩ := Option.bind_eq_some_iff.mp hbind
      dsimp only at hlim
      split_ifs at hlim
      cases hlim
      have hcom := hw.events.visible e hev
      have hids : i.id = d := hiid.trans hid
      have hval := mapError_eq_ok.mp (ht i hi hids e hcom (hk.trans hiev.symm))
      rw [hiname] at hval
      exact sweepTarget_eq hc (hn i hi hids e hcom (hk.trans hiev.symm)) hval hx
    · cases h
  · cases h

end

/-! ### What is counted -/

def isCall : Time × Mark → Bool
  | (_, .call _) => true
  | _ => false

/-- The sweep finds the row hung. -/
def isTimeout : Time × Mark → Bool
  | (_, .timedOut _) => true
  | _ => false

/-- The sweep resets the row for another delivery. -/
def isRepeat : Time × Mark → Bool
  | (_, .timedOut again) => again
  | _ => false

def calls (record : List (Time × Mark)) : ℕ := record.countP isCall

def timeouts (record : List (Time × Mark)) : ℕ := record.countP isTimeout

def resets (record : List (Time × Mark)) : ℕ := record.countP isRepeat

def cycleCalls (record : List (Time × Mark)) : ℕ := countSince isCall isTimeout record

theorem counts_of_plain {x : Time × Mark} (record : List (Time × Mark)) (hc : isCall x = false)
    (ht : isTimeout x = false) : calls (x :: record) = calls record ∧
      timeouts (x :: record) = timeouts record ∧ resets (x :: record) = resets record ∧
      cycleCalls (x :: record) = cycleCalls record := by
  have hr : isRepeat x = false := by
    obtain ⟨t, mark⟩ := x
    cases mark <;> first | rfl | cases ht
  refine ⟨by simp [calls, hc], by simp [timeouts, ht], by simp [resets, hr], ?_⟩
  rw [cycleCalls, countSince_cons]
  simp [hc, ht, cycleCalls]

theorem counts_of_call (record : List (Time × Mark)) (now : Time) (attempt : ℤ) :
    calls ((now, .call attempt) :: record) = calls record + 1 ∧
      timeouts ((now, .call attempt) :: record) = timeouts record ∧
      resets ((now, .call attempt) :: record) = resets record ∧
      cycleCalls ((now, .call attempt) :: record) = cycleCalls record + 1 := by
  refine ⟨List.countP_cons_of_pos rfl, List.countP_cons_of_neg nofun, List.countP_cons_of_neg nofun,
    ?_⟩
  rw [cycleCalls, countSince_cons, cycleCalls]
  simp [isTimeout, isCall, Nat.add_comm]

theorem counts_of_timedOut (record : List (Time × Mark)) (now : Time) (again : Bool) :
    calls ((now, .timedOut again) :: record) = calls record ∧
      timeouts ((now, .timedOut again) :: record) = timeouts record + 1 ∧
      resets ((now, .timedOut again) :: record) = resets record + again.toNat ∧
      cycleCalls ((now, .timedOut again) :: record) = 0 := by
  refine ⟨List.countP_cons_of_neg nofun, List.countP_cons_of_pos rfl, ?_, ?_⟩
  · cases again
    · exact List.countP_cons_of_neg nofun
    · exact List.countP_cons_of_pos rfl
  · rw [cycleCalls, countSince_cons]
    rfl

/-! ### The two counters -/

/-- The task at the delivery and the row, when `n` calls have been made in this cycle. -/
def InCycle (maxAttempts n : ℕ) (row : Option DeliveryRow) : Option Task → Prop
  | none =>
    ∀ r ∈ row, r.deadLetter = false → r.dispatchedAt = none → r.attempts = n ∧ n < maxAttempts
  | some t =>
    (∀ r ∈ row, r.deadLetter = false ∧ r.dispatchedAt = none) ∧
      match t.phase with
      | .fetched | .ready _ | .locking _ _ =>
        t.row.attempts = n ∧ n < maxAttempts ∧ ∀ r ∈ row, r.attempts = n
      | .locked _ _ => t.row.attempts = n ∧ n < maxAttempts ∧ ∀ r ∈ row, r.attempts = n + 1
      | .delivering _ _ => t.row.attempts + 1 = n ∧ ∀ r ∈ row, r.attempts = n
      | .writing _ _ stmt =>
        (stmt = .markDispatchedManaged ∨ stmt = .markDispatchedExternal ∨
          ∃ reason availableAt, stmt = .markFailure reason availableAt (maxAttempts ≤ n)) ∧
        ∀ r ∈ row, r.attempts = n

/-- The last timeout has been found, and the row is dead-lettered for it. -/
structure Exhausted (maxCycles : ℕ) (v : View) (record : List (Time × Mark)) : Prop where
  timeouts : timeouts record = maxCycles
  resets : resets record + 1 = maxCycles
  calls : cycleCalls record = 0
  idle : v.task = none
  row : ∀ r ∈ v.row, r.deadLetter ∧ r.lastError = some "external_completion_cycles_exhausted"

structure Bounded (target : CallbackTarget) (v : View) (record : List (Time × Mark)) : Prop where
  task : InCycle target.maxAttempts (cycleCalls record) v.row v.task
  cycle : cycleCalls record ≤ target.maxAttempts
  total : calls record ≤ target.maxAttempts * timeouts record + cycleCalls record
  column : ∀ r ∈ v.row, r.completionCycles = timeouts record
  limit : (timeouts record < target.maxCompletionCycles ∧ resets record = timeouts record) ∨
    Exhausted target.maxCompletionCycles v record
  /-- After a timeout the row is reset or dead-lettered. -/
  last : ∀ t again l, record = (t, .timedOut again) :: l →
    (again ↔ timeouts record < target.maxCompletionCycles) ∧
      (again → ∀ r ∈ v.row, r.deadLetter = false)

section

variable {target : CallbackTarget} {v v' : View} {record : List (Time × Mark)}

theorem Bounded.lt_of_live (h : Bounded target v record) {r : DeliveryRow} (hr : v.row = some r)
    (hlive : r.deadLetter = false) :
    timeouts record < target.maxCompletionCycles ∧ resets record = timeouts record := by
  rcases h.limit with hlt | hx
  · exact hlt
  · have hdead := (hx.row r hr).1
    rw [hlive] at hdead
    cases hdead

theorem Bounded.lt_of_busy (h : Bounded target v record) {t : Task} (ht : v.task = some t) :
    timeouts record < target.maxCompletionCycles ∧ resets record = timeouts record := by
  rcases h.limit with hlt | hx
  · exact hlt
  · have hidle := hx.idle
    rw [ht] at hidle
    cases hidle

/-- Nothing happens that is seen: the row keeps what the sweep has written. -/
theorem Bounded.unmarked (h : Bounded target v record)
    (htask : InCycle target.maxAttempts (cycleCalls record) v'.row v'.task)
    (hrow : ∀ r' ∈ v'.row, ∃ r ∈ v.row, r'.completionCycles = r.completionCycles ∧
      r'.deadLetter = r.deadLetter ∧ r'.lastError = r.lastError)
    (hidle : v.task = none → (∀ r ∈ v.row, r.deadLetter) → v'.task = none) :
    Bounded target v' record where
  task := htask
  cycle := h.cycle
  total := h.total
  column := fun r' hr' => by
    obtain ⟨r, hr, hcyc, -⟩ := hrow r' hr'
    rw [hcyc, h.column r hr]
  limit := by
    refine h.limit.imp_right fun hx => ⟨hx.timeouts, hx.resets, hx.calls, ?_, fun r' hr' => ?_⟩
    · exact hidle hx.idle fun r hr => (hx.row r hr).1
    · obtain ⟨r, hr, -, hdead, herr⟩ := hrow r' hr'
      rw [hdead, herr]
      exact hx.row r hr
  last := fun t again l heq => by
    obtain ⟨hagain, hlive⟩ := h.last t again l heq
    refine ⟨hagain, fun ha r' hr' => ?_⟩
    obtain ⟨r, hr, -, hdead, -⟩ := hrow r' hr'
    rw [hdead]
    exact hlive ha r hr

theorem Bounded.marked (h : Bounded target v record) {t : Task} (hbusy : v.task = some t)
    {x : Time × Mark} (hc : isCall x = false) (ht : isTimeout x = false)
    (htask : InCycle target.maxAttempts (cycleCalls record) v'.row v'.task)
    (hcol : ∀ r' ∈ v'.row, ∃ r ∈ v.row, r'.completionCycles = r.completionCycles) :
    Bounded target v' (x :: record) := by
  obtain ⟨hcalls, htimeouts, hresets, hcycle⟩ := counts_of_plain record hc ht
  refine ⟨by rwa [hcycle], by rw [hcycle]; exact h.cycle, ?_, fun r' hr' => ?_, ?_, ?_⟩
  · rw [hcalls, htimeouts, hcycle]
    exact h.total
  · obtain ⟨r, hr, hcyc⟩ := hcol r' hr'
    rw [hcyc, htimeouts, h.column r hr]
  · rw [htimeouts, hresets]
    exact .inl (h.lt_of_busy hbusy)
  · rintro t' again l heq
    cases heq
    cases ht

/-- The call is the next one of its cycle. -/
theorem Bounded.called (h : Bounded target v record) {t : Task} {due : DueDelivery} {u now : Time}
    (hbusy : v.task = some t) (hp : t.phase = .locked due u) (attempt : ℤ) :
    Bounded target ⟨some { t with phase := .delivering due u }, v.row⟩
      ((now, .call attempt) :: record) := by
  have htask := h.task
  rw [hbusy] at htask
  simp only [InCycle, hp] at htask
  obtain ⟨hlive, hatt, hlt, hrow⟩ := htask
  obtain ⟨hcalls, htimeouts, hresets, hcycle⟩ := counts_of_call record now attempt
  refine ⟨?_, ?_, ?_, ?_, ?_, nofun⟩
  · rw [hcycle]
    refine ⟨hlive, ?_, fun r hr => ?_⟩
    · simp [hatt]
    · simp [hrow r hr]
  · omega
  · have := h.total
    rw [hcalls, hcycle, htimeouts]
    omega
  · rw [htimeouts]
    exact h.column
  · rw [htimeouts, hresets]
    exact .inl (h.lt_of_busy hbusy)

/-- A timeout ends the cycle: it had its calls. -/
theorem Bounded.total_of_timedOut (h : Bounded target v record) (now : Time) (again : Bool) :
    calls ((now, .timedOut again) :: record) ≤
      target.maxAttempts * timeouts ((now, .timedOut again) :: record) +
        cycleCalls ((now, .timedOut again) :: record) := by
  obtain ⟨hcalls, htimeouts, -, hcycle⟩ := counts_of_timedOut record now again
  have hcyc := h.cycle
  have htot := h.total
  rw [hcalls, htimeouts, hcycle, Nat.mul_add, Nat.mul_one]
  omega

theorem Bounded.again (hm : 1 ≤ target.maxAttempts) (h : Bounded target v record) {now : Time}
    {r : DeliveryRow} (hlt : timeouts record + 1 < target.maxCompletionCycles)
    (hresets : resets record = timeouts record) (hcol : r.completionCycles = timeouts record + 1)
    (hatt : r.attempts = 0) (hlive : r.deadLetter = false) :
    Bounded target ⟨none, some r⟩ ((now, .timedOut true) :: record) := by
  obtain ⟨-, htimeouts, hresets', hcycle⟩ := counts_of_timedOut record now true
  rw [Bool.toNat_true] at hresets'
  refine ⟨?_, by omega, h.total_of_timedOut now true, ?_, .inl (by omega), ?_⟩
  · rintro r' ⟨⟩ - -
    rw [hcycle]
    exact ⟨hatt, hm⟩
  · rintro r' ⟨⟩
    rw [htimeouts]
    exact hcol
  · rintro t again l ⟨⟩
    refine ⟨by simp only [htimeouts, true_iff]; omega, ?_⟩
    rintro - r' ⟨⟩
    exact hlive

theorem Bounded.exhausted (h : Bounded target v record) {now : Time} {r : DeliveryRow}
    (heq : timeouts record + 1 = target.maxCompletionCycles)
    (hresets : resets record = timeouts record)
    (hcol : r.completionCycles = timeouts record + 1) (hdead : r.deadLetter)
    (herr : r.lastError = some "external_completion_cycles_exhausted") :
    Bounded target ⟨none, some r⟩ ((now, .timedOut false) :: record) := by
  obtain ⟨-, htimeouts, hresets', hcycle⟩ := counts_of_timedOut record now false
  rw [Bool.toNat_false] at hresets'
  refine ⟨?_, by omega, h.total_of_timedOut now false, ?_,
    .inr ⟨by omega, by omega, hcycle, rfl, ?_⟩, ?_⟩
  · rintro r' ⟨⟩ hlive
    rw [hdead] at hlive
    cases hlive
  · rintro r' ⟨⟩
    rw [htimeouts]
    exact hcol
  · rintro r' ⟨⟩
    exact ⟨hdead, herr⟩
  · rintro t again l ⟨⟩
    refine ⟨by simp only [htimeouts, Bool.false_eq_true, false_iff]; omega, nofun⟩

theorem Bounded.swept (hm : 1 ≤ target.maxAttempts) (h : Bounded target v record) {r : DeliveryRow}
    (hr : v.row = some r) (hdisp : r.dispatchedAt.isSome) (hlive : r.deadLetter = false)
    (now : Time) : Bounded target ⟨v.task, some (sweepRow now target.maxCompletionCycles r)⟩
      ((now, .timedOut (r.completionCycles + 1 < target.maxCompletionCycles)) :: record) := by
  -- what is dispatched is in nobody's hands
  have hidle : v.task = none := by
    have htask := h.task
    rcases hv : v.task with _ | t
    · rfl
    · rw [hv] at htask
      simp [(htask.1 r hr).2] at hdisp
  obtain ⟨hlt, hresets⟩ := h.lt_of_live hr hlive
  have hcol : r.completionCycles = timeouts record := h.column r hr
  rw [hidle]
  by_cases hagain : r.completionCycles + 1 < target.maxCompletionCycles
  · rw [decide_eq_true hagain, sweepRow, if_neg (not_le.mpr hagain)]
    exact h.again hm (by omega) hresets (congrArg (· + 1) hcol) rfl rfl
  · rw [decide_eq_false hagain, sweepRow, if_pos (not_lt.mp hagain)]
    exact h.exhausted (by omega) hresets (congrArg (· + 1) hcol) rfl rfl

/-- Of the row only these columns matter to the task. -/
theorem InCycle.of_row {m n : ℕ} {row row' : Option DeliveryRow} {t : Option Task}
    (h : InCycle m n row t) (hrow : ∀ r' ∈ row', ∃ r ∈ row, r'.attempts = r.attempts ∧
      r'.deadLetter = r.deadLetter ∧ r'.dispatchedAt = r.dispatchedAt) : InCycle m n row' t := by
  have hatt : ∀ k : ℤ, (∀ r ∈ row, r.attempts = k) → ∀ r' ∈ row', r'.attempts = k := by
    intro k hk r' hr'
    obtain ⟨r, hr, heq, -⟩ := hrow r' hr'
    rw [heq, hk r hr]
  cases t with
  | none =>
    intro r' hr' hdead hdisp
    obtain ⟨r, hr, heq, hdead', hdisp'⟩ := hrow r' hr'
    rw [heq]
    exact h r hr (hdead' ▸ hdead) (hdisp' ▸ hdisp)
  | some t =>
    obtain ⟨hlive, hphase⟩ := h
    refine ⟨fun r' hr' => ?_, ?_⟩
    · obtain ⟨r, hr, -, hdead, hdisp⟩ := hrow r' hr'
      rw [hdead, hdisp]
      exact hlive r hr
    · split at hphase
      case h_5 | h_6 => exact ⟨hphase.1, hatt _ hphase.2⟩
      all_goals exact ⟨hphase.1, hphase.2.1, hatt _ hphase.2.2⟩

end

section

variable [Crates] {config : DispatchConfig} {s s' : Sys} {a : Action} {d : ℤ}
  {target : CallbackTarget} {v v' : View} {record : List (Time × Mark)}

/-- Nobody but the dispatcher, the sweep and the receiver writes the row. -/
def Unadministered (d : ℤ) (a : Action) : Prop := a ≠ .retry d ∧ a ≠ .abandon d

instance (d : ℤ) : DecidablePred (Unadministered d)
  | .retry d' => decidable_of_iff (d' ≠ d) (by simp [Unadministered])
  | .abandon d' => decidable_of_iff (d' ≠ d) (by simp [Unadministered])
  | .tick _ | .publish _ | .commit _ | .rollback _ | .sched _ _ | .fetch | .task _ _ | .sweep
  | .complete _ | .retention _ _ _ => .isTrue (by simp [Unadministered])

omit [Crates] in
/-- A due row is waiting for the next attempt of its cycle. -/
theorem inCycle_fetched {m n : ℕ} {now : Time} {t : Task} {r : DeliveryRow}
    (h : InCycle m n (some r) none) (hp : t.phase = .fetched) (hdue : isDue now r)
    (ha : t.row.attempts = r.attempts) : InCycle m n (some r) (some t) := by
  obtain ⟨hdisp, -, hdead, -⟩ := isDue_iff_columns.mp hdue
  obtain ⟨hatt, hlt⟩ := h r rfl hdead hdisp
  simp only [InCycle, hp]
  refine ⟨?_, ha.trans hatt, hlt, ?_⟩
  · rintro r' ⟨⟩
    exact ⟨hdead, hdisp⟩
  · rintro r' ⟨⟩
    exact hatt

omit [Crates] in
theorem inCycle_lock {m n : ℕ} {now : Time} {t : Task} {due : DueDelivery} {u : Time}
    {r : DeliveryRow} (h : InCycle m n (some r) (some t)) (hp : t.phase = .locking due u) :
    InCycle m n (some ((Stmt.lockDelivery u).assign now r))
    (some { t with phase := .locked due u }) := by
  simp only [InCycle, hp] at h
  obtain ⟨hlive, hatt, hlt, hrow⟩ := h
  refine ⟨?_, hatt, hlt, ?_⟩
  · rintro r' ⟨⟩
    exact hlive r rfl
  · rintro r' ⟨⟩
    exact congrArg (· + 1) (hrow r rfl)

theorem inCycle_answer (hv : ValidTarget target) {n : ℕ} {row : Option DeliveryRow} {t : Task}
    {due : DueDelivery} {u now : Time} {result : CallbackResult} {jitter : ℚ} {stmt : Stmt}
    (hk : Knows config target t) (h : InCycle target.maxAttempts n row (some t))
    (hp : t.phase = .delivering due u) (hw : WriteBack now jitter due result stmt) :
    InCycle target.maxAttempts n row (some { t with phase := .writing due u stmt }) := by
  simp only [InCycle, hp] at h
  obtain ⟨hlive, hatt, hrow⟩ := h
  obtain ⟨htarget, hdue⟩ := hk.due due (by rw [hp]; rfl)
  refine ⟨hlive, ?_, hrow⟩
  cases hw with
  | managed => exact .inl rfl
  | external => exact .inr (.inl rfl)
  | failure reason retryAfter availableAt hr hc =>
    refine .inr (.inr ⟨reason, availableAt, ?_⟩)
    rw [hdue, hatt, htarget, hv.asI32_maxAttempts]
    simp

omit [Crates] in
theorem inCycle_writeBack {m n : ℕ} {row : Option DeliveryRow} {t : Task} {due : DueDelivery}
    {u now : Time} {stmt : Stmt} (h : InCycle m n row (some t))
    (hp : t.phase = .writing due u stmt) : InCycle m n (row.map (stmt.assign now)) none := by
  simp only [InCycle, hp] at h
  obtain ⟨-, hstmt, hrow⟩ := h
  intro r' hr' hdead hdisp
  obtain ⟨r, hr, rfl⟩ := Option.map_eq_some_iff.mp hr'
  rcases hstmt with rfl | rfl | ⟨reason, availableAt, rfl⟩
  · cases hdisp
  · cases hdisp
  · exact ⟨hrow r hr, not_le.mp (of_decide_eq_false hdead)⟩

omit [Crates] in
theorem bounded_nil (hv : ValidTarget target) {row : Option DeliveryRow}
    (hrow : ∀ r ∈ row, r.attempts = 0 ∧ r.completionCycles = 0) :
    Bounded target ⟨none, row⟩ [] where
  task := fun r hr _ _ => ⟨(hrow r hr).1, hv.maxAttempts.1⟩
  cycle := Nat.zero_le _
  total := Nat.zero_le _
  column := fun r hr => (hrow r hr).2
  limit := .inl ⟨hv.maxCompletionCycles.1, rfl⟩
  last := nofun

/-- **One step** keeps the counters. -/
theorem bounded_step (hv : ValidTarget target) {marks : List Mark}
    (h : ViewStep config s d a v marks v') (ha : Unadministered d a)
    (hk : ∀ t ∈ v.task, Knows config target t)
    (hlim : ∀ r ∈ v.row, ∀ maxCycles,
      hungLimit s.db s.now (asI32 config.maxCompletionCycles) r = some (some maxCycles) →
        maxCycles = target.maxCompletionCycles)
    (hfresh : s.db.deliverySeq ≤ d → record = []) (hi : Bounded target v record) :
    Bounded target v' (marks.map (s.now, ·) ++ record) := by
  have htask := hi.task
  cases h with
  | keep => exact hi
  | inserted p b u n hd =>
    rw [hfresh hd]
    refine bounded_nil hv ?_
    rintro r ⟨⟩
    exact ⟨rfl, rfl⟩
  | fetched t r hp hdue hatt =>
    refine hi.unmarked (inCycle_fetched htask hp hdue hatt) (fun r' hr' =>
      ⟨r', hr', rfl, rfl, rfl⟩) ?_
    intro _ hdead
    simp [isDue_iff_columns, hdead r rfl] at hdue
  | examined t due r hp | computeLock t due _ r hp =>
    simp only [InCycle, hp] at htask
    exact hi.unmarked htask (fun r' hr' => ⟨r', hr', rfl, rfl, rfl⟩) nofun
  | poisoned t reason r hp hx =>
    obtain ⟨due, hdue⟩ := (hk t rfl).examined
    rw [hx] at hdue
    cases hdue
  | lock t due u r hp =>
    refine hi.marked rfl rfl rfl (inCycle_lock htask hp) ?_
    rintro r' ⟨⟩
    exact ⟨r, rfl, rfl⟩
  | lockPanicked t due r hp | lockRefused t due _ r hp =>
    simp only [InCycle, hp] at htask
    obtain ⟨-, -, hlt, hrow⟩ := htask
    exact hi.unmarked (fun r' hr' _ _ => ⟨hrow r' hr', hlt⟩) (fun r' hr' =>
      ⟨r', hr', rfl, rfl, rfl⟩) nofun
  | call t due u r hp => exact hi.called rfl hp _
  | answer t due u r result jitter stmt hp hj hw =>
    exact hi.marked rfl rfl rfl (inCycle_answer hv (hk t rfl) htask hp hw)
      fun r' hr' => ⟨r', hr', rfl⟩
  | wroteBack t due u stmt r hp =>
    refine hi.marked rfl rfl rfl (inCycle_writeBack htask hp) fun r' hr' => ?_
    obtain ⟨r₀, hr₀, rfl⟩ := Option.map_eq_some_iff.mp hr'
    refine ⟨r₀, hr₀, ?_⟩
    simp only [InCycle, hp] at htask
    rcases htask.2.1 with rfl | rfl | ⟨reason, availableAt, rfl⟩ <;> rfl
  | swept t r maxCycles hl =>
    obtain rfl := hlim r rfl maxCycles hl
    obtain ⟨-, hdisp, -, hlive⟩ := externalPending_of_hungLimit hl
    exact hi.swept hv.maxAttempts.1 rfl hdisp hlive s.now
  | retried => exact absurd rfl ha.1
  | completed t r =>
    refine hi.unmarked (htask.of_row ?_) ?_ fun hidle _ => hidle
    · rintro r' ⟨⟩
      exact ⟨r, rfl, rfl, rfl, rfl⟩
    · rintro r' ⟨⟩
      exact ⟨r, rfl, rfl, rfl, rfl⟩
  | abandoned => exact absurd rfl ha.2
  | deleted t r => exact hi.unmarked (htask.of_row (by simp)) (by simp) fun hidle _ => hidle

/-! ### Every run -/

/-- There is one dispatcher, in which nothing goes wrong, and no operator writes the row. -/
def Unattended (d : ℤ) (p : Sys × List (Time × Mark)) (a : Action) (_ : Sys × List (Time × Mark)) :
    Prop := Alone p.1 a ∧ Unadministered d a

instance (d : ℤ) (p : Sys × List (Time × Mark)) (a : Action) (p' : Sys × List (Time × Mark)) :
    Decidable (Unattended d p a p') := inferInstanceAs (Decidable (_ ∧ _))

/-- The counters of the delivery have been right all the time. -/
structure Counted (config : DispatchConfig) (d : ℤ) (target : CallbackTarget)
    (p : Sys × List (Time × Mark)) : Prop extends Seen config d p where
  bounded : TargetIs config p.1 d target → StringNamed p.1 d → Bounded target (view p.1 d) p.2

theorem stringNamed_before (h : Step config s a s') (hn : StringNamed s' d) : StringNamed s d :=
  fun i hi hid e he hev => hn i (issued_subset h hi) hid e (committed_subset h he) hev

theorem counted_step (hc : ValidConfig config) (hv : ValidTarget target)
    {p p' : Sys × List (Time × Mark)} (hi : Counted config d target p)
    (h : observed config d p a = some p') (hok : Unattended d p a p') :
    Counted config d target p' := by
  refine ⟨seen_step hi.toSeen h hok.1, fun ht hn => ?_⟩
  obtain ⟨hs, hrec⟩ := recorded_eq_some.mp h
  have hstep := step_cases hs
  have ht₀ := targetIs_before hstep ht
  have hn₀ := stringNamed_before hstep hn
  rw [hrec]
  refine bounded_step hv (view_step hi.wf hi.single hs hok.1 d) hok.2
    (fun t hmem => knows_of_targetIs hi.wf ht₀ hmem) (fun r hr maxCycles hl => ?_) hi.fresh
    (hi.bounded ht₀ hn₀)
  exact hungLimit_eq hc hi.wf ht₀ hn₀ hr hl

theorem counted_of_run (hc : ValidConfig config) (hv : ValidTarget target) {now : Time}
    {scheds : ℕ → Sched} (hq : Quiet scheds) {p : Sys × List (Time × Mark)}
    (h : Run (observed config d) (Unattended d) (init now scheds, []) p) :
    Counted config d target p := by
  refine h.invariant (Counted config d target) ?_ fun _ _ _ hi hs hok =>
    counted_step hc hv hi hs hok
  refine ⟨seen_init now hq, fun _ _ => ?_⟩
  exact bounded_nil hv (by simp [init, Db.empty, Table.get])

/-- **The work for an external delivery is bounded.** There is one dispatcher, it does not crash and
its statements succeed; the callbacks of the event are named by strings, and no operator writes the
row. Then in every state reached, whatever the receiver has answered and completed and whenever the
sweep has run:

* the sweep has reset the row less than `max_completion_cycles` times;
* the receiver has been called at most `max_attempts` times in each cycle;
* a row that is not dead-lettered has cycles left;
* a timeout has dead-lettered the row iff it was the last one, and the row says so from then on. -/
theorem external_bounded (hc : ValidConfig config) {now : Time} {scheds : ℕ → Sched}
    (hq : Quiet scheds) {p : Sys × List (Time × Mark)}
    (h : Run (observed config d) (Unattended d) (init now scheds, []) p)
    (ht : HasTarget config p.1 d target) (hn : StringNamed p.1 d) :
    resets p.2 + 1 ≤ target.maxCompletionCycles ∧
    timeouts p.2 ≤ target.maxCompletionCycles ∧
    calls p.2 ≤ target.maxAttempts * target.maxCompletionCycles ∧
    ∀ r, p.1.db.deliveries.get d = some r →
      r.completionCycles = timeouts p.2 ∧
      (r.deadLetter = false → r.completionCycles < target.maxCompletionCycles) ∧
      (timeouts p.2 = target.maxCompletionCycles →
        r.deadLetter ∧ r.lastError = some "external_completion_cycles_exhausted") ∧
      ∀ t again l, p.2 = (t, .timedOut again) :: l →
        (r.deadLetter ↔ timeouts p.2 = target.maxCompletionCycles) := by
  have hv := validTarget_of_hasTarget hc ht
  have hi := counted_of_run hc hv hq h
  have hb := hi.bounded (targetIs_of_hasTarget hi.wf ht) hn
  have hcycle := hb.cycle
  have htotal := hb.total
  have hexhausted : timeouts p.2 = target.maxCompletionCycles →
      Exhausted target.maxCompletionCycles (view p.1 d) p.2 := by
    intro heq
    rcases hb.limit with hlt | hx
    · omega
    · exact hx
  refine ⟨?_, ?_, ?_, fun r hr => ⟨hb.column r hr, fun hlive => ?_, fun heq => ?_, ?_⟩⟩
  · rcases hb.limit with hlt | hx
    · omega
    · exact hx.resets.le
  · rcases hb.limit with hlt | hx
    · omega
    · exact hx.timeouts.le
  · rcases hb.limit with hlt | hx
    · calc calls p.2 ≤ target.maxAttempts * timeouts p.2 + target.maxAttempts := by omega
        _ = target.maxAttempts * (timeouts p.2 + 1) := rfl
        _ ≤ target.maxAttempts * target.maxCompletionCycles := Nat.mul_le_mul_left _ hlt.1
    · rw [hx.calls, hx.timeouts] at htotal
      exact htotal
  · rw [hb.column r hr]
    exact_mod_cast (hb.lt_of_live hr hlive).1
  · exact (hexhausted heq).row r hr
  · intro t again l heq
    obtain ⟨hagain, hlive⟩ := hb.last t again l heq
    refine ⟨fun hdead => ?_, fun hm => ((hexhausted hm).row r hr).1⟩
    rcases hb.limit with hlt | hx
    · have hno := hlive (hagain.mpr hlt.1) r hr
      rw [hno] at hdead
      cases hdead
    · exact hx.timeouts

end

/-- An external delivery is made and not completed, and once more. -/
def twoTimeouts : List Action :=
  [.publish (sampleEvent 1 [sampleCallback "hook_a" [("mode", .str "external"),
      ("max_attempts", .int 1),
      ("external_completion_timeout_seconds", .int 60), ("max_completion_cycles", .int 2)]]),
    .commit 1, .sched 0 .poll, .sched 0 (.write .ok), .sched 0 .next, .fetch,
    .task 0 (.examine .ok),
    .task 0 .computeLock, .task 0 (.lock .ok), .task 0 .deliver, .task 0 (.respond .ok 0),
    .task 0 (.writeBack .ok), .tick (fromSecs 61), .sweep, .fetch, .task 1 (.examine .ok),
    .task 1 .computeLock, .task 1 (.lock .ok), .task 1 .deliver, .task 1 (.respond .ok 0),
    .task 1 (.writeBack .ok), .tick (fromSecs 61), .sweep]

theorem external_bounded_twoTimeouts :
    ∃ p, Run (@observed sampleCrates {} 1) (Unattended 1) (init 0 oneScheduler, []) p ∧
      resets p.2 = 1 ∧ calls p.2 = 2 ∧ ∃ r, p.1.db.deliveries.get 1 = some r ∧
        r.completionCycles = 2 ∧ r.deadLetter ∧
        r.lastError = some "external_completion_cycles_exhausted" := by
  have hex : ∃ p, Run (@observed sampleCrates {} 1) (Unattended 1) (init 0 oneScheduler, []) p ∧
      resets p.2 = 1 ∧ calls p.2 = 2 ∧ timeouts p.2 = 2 ∧ StringNamed p.1 1 ∧
      (p.1.db.deliveries.get 1).isSome ∧
      (@targets sampleCrates {} p.1 1).any fun target => target.maxCompletionCycles = 2 :=
    Run.exists_of_exec twoTimeouts (by decide +kernel)
  obtain ⟨p, hrun, hresets, hcalls, htimeouts, hn, hr, hx⟩ := hex
  obtain ⟨target, hmem, hx⟩ := List.any_eq_true.mp hx
  have hmax : target.maxCompletionCycles = 2 := of_decide_eq_true hx
  have ht := @hasTarget_of_mem_targets sampleCrates _ _ _ _ hmem
  obtain ⟨r, hr⟩ := Option.isSome_iff_exists.mp hr
  obtain ⟨-, -, -, hrow⟩ := @external_bounded sampleCrates {} 1 target validConfig_default 0 _
    quiet_oneScheduler p hrun ht hn
  obtain ⟨hcol, -, hdead, -⟩ := hrow r hr
  rw [htimeouts] at hcol
  exact ⟨p, hrun, hresets, hcalls, r, hr, hcol, hdead (htimeouts.trans hmax.symm)⟩

end OutboxDispatcher.Dispatch.Cycles
