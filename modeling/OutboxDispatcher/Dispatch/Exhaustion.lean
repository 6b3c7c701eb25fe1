import OutboxDispatcher.Dispatch.AttemptCount
import OutboxDispatcher.System.Phases

/-! # The number of attempts under crashes

The lock counts an attempt; that the attempts are used up is noticed when a failure is written back,
and only by the dispatcher whose failure it is. A dispatcher that crashes during the last attempt,
or cannot record its outcome, leaves a row whose `attempts` has reached the limit and which is
fetched, locked and delivered again when the lock has expired, as often as this happens.

* `attempts_bounded`: as long as the outcome of every last attempt is recorded, dispatchers hold no
  row past its lock and lock with a count that is current, and nobody writes a row between the read
  and the update of a sweep, no row is locked more often than the limit allows, whatever happens in
  the attempts before the last one.
* `attempts_unbounded`: a crash during the only attempt, and a second call. -/

namespace OutboxDispatcher.Dispatch.Exhaustion

open OutboxDispatcher.Lib.Runs OutboxDispatcher.Lib.Tables OutboxDispatcher.Schema
open OutboxDispatcher.Callbacks.Fields OutboxDispatcher.Callbacks.Limits
open OutboxDispatcher.Repo.Database OutboxDispatcher.Repo.Statements OutboxDispatcher.Scheduler.Pass
open OutboxDispatcher.Dispatch OutboxDispatcher.Dispatch.Exclusion
open OutboxDispatcher.Dispatch.AttemptCount OutboxDispatcher.System OutboxDispatcher.System.Effects
open OutboxDispatcher.System.History OutboxDispatcher.System.Rows OutboxDispatcher.System.Counts
open OutboxDispatcher.System.Phases

/-! ### Lost attempts -/

/-- The attempt that a task in this phase loses by the action: it crashes after its lock, does not
learn that it has the lock, panics, or cannot write back. -/
def lost? (db : Db) (now : Time) : Phase → TaskAction → Option DueDelivery
  | .locking due u, .lock .unacked =>
    if (lockDelivery db now due.deliveryId u).2 then some due else none
  | .locked due _, .crash | .delivering due _, .crash | .writing due _ _, .crash => some due
  | .delivering due _, .respond result jitter =>
    if (writeBackStmt now jitter due result).isNone then some due else none
  | .writing due _ _, .writeBack .lost => some due
  | _, _ => none

/-- The attempt whose outcome is lost in the step. -/
def loses? (s : Sys) : Action → Option DueDelivery
  | .task tid b => (s.tasks.get tid).bind fun t => lost? s.db s.now t.phase b
  | _ => none

def isLast (due : DueDelivery) : Bool := asI32 due.target.maxAttempts ≤ due.attempts + 1

/-- No task holds a row past the expiry of its lock, no lock is taken with an old count, and the
outcome of a last attempt is not lost. -/
def Accountable (s : Sys) (a : Action) (s' : Sys) : Prop :=
  Timely s' ∧ (∀ x ∈ locks? s a, ∀ r ∈ s.db.deliveries.get x.2.deliveryId,
    r.attempts = x.2.attempts) ∧ ∀ due ∈ loses? s a, isLast due = false

instance (s : Sys) (a : Action) (s' : Sys) : Decidable (Accountable s a s') :=
  inferInstanceAs (Decidable (_ ∧ _ ∧ _))

/-! ### The invariant -/

def OnlyTarget [Crates] (config : DispatchConfig) (s : Sys) (d : ℤ) (target : CallbackTarget) :
    Prop :=
  ∀ target', HasTarget config s d target' → target' = target

structure Bounded (s : Sys) (d : ℤ) (maxAttempts : ℕ) : Prop where
  /-- Whoever holds the row makes the attempt that was counted last. -/
  held : ∀ t u, Holds s t d u → locksSince d s.trace = t.row.attempts + 1
  limit : locksSince d s.trace ≤ maxAttempts
  /-- A row whose attempts are used up is not to be delivered, or the last attempt is under way. -/
  spent : locksSince d s.trace = maxAttempts → ∀ r ∈ s.db.deliveries.get d,
    r.deadLetter ∨ r.dispatchedAt.isSome ∨ ∃ t u, Holds s t d u
  calls : callsSince d s.trace ≤ locksSince d s.trace
  /-- A dispatcher that is about to call has counted an attempt for it. -/
  next : ∀ t due u, t ∈ s.tasks.rows → t.phase = .locked due u → due.deliveryId = d →
    callsSince d s.trace < locksSince d s.trace

section

variable [Crates] {config : DispatchConfig} {s s' : Sys} {a : Action} {d : ℤ}

omit [Crates] in
theorem lost?_of_drops {db : Db} {now : Time} {p : Phase} {b : TaskAction} {u : Time}
    (hp : p.held? = some u) (hd : drops p b) : ∃ due, p.due? = some due ∧
    lost? db now p b = some due := by
  cases p with
  | fetched | ready | locking => cases hp
  | locked due | delivering due =>
    cases b with
    | crash => exact ⟨due, rfl, rfl⟩
    | _ => simp [drops] at hd
  | writing due u stmt =>
    cases b with
    | crash => exact ⟨due, rfl, rfl⟩
    | writeBack fault =>
      cases fault with
      | lost => exact ⟨due, rfl, rfl⟩
      | _ => simp [drops] at hd
    | _ => simp [drops] at hd

/-- A task that holds its row goes on, loses its attempt, or writes back. -/
theorem taskStep_holder {now : Time} {db db' : Db} {t : Task} {b : TaskAction}
    {phase : Option Phase}
    {obs : List Obs} {u : Time} (h : TaskStep config now db t b db' phase obs)
    (hp : t.phase.held? = some u) :
    (∃ p, phase = some p ∧ p.held? = some u) ∨
      (∃ due, t.phase.due? = some due ∧ lost? db now t.phase b = some due) ∨
      ∃ due stmt, t.phase = .writing due u stmt ∧ db' = stmt.exec db now due.deliveryId := by
  cases h with
  | dropped _ hd => exact .inr (.inl (lost?_of_drops hp hd))
  | examined _ _ hph | poisoned _ _ hph | computeLock _ _ hph | lockPanicked _ hph | lock _ _ hph
  | lockUnacked _ _ hph
  | lockRefused _ _ _ hph =>
    rw [hph] at hp
    cases hp
  | deliver due u' hph =>
    rw [hph] at hp
    exact .inl ⟨_, rfl, hp⟩
  | respond due u' result jitter hph =>
    rcases hw : writeBackStmt now jitter due result with _ | stmt
    · exact .inr (.inl ⟨due, by rw [hph]; rfl, by rw [hph]; simp [lost?, hw]⟩)
    · rw [hph] at hp
      exact .inl ⟨.writing due u' stmt, rfl, hp⟩
  | wroteBack fault due u' stmt hph hf =>
    rw [hph] at hp
    cases hp
    exact .inr (.inr ⟨due, stmt, hph, rfl⟩)

theorem holder_step (h : Step config s a s') {t : Task} {u : Time} (ht : Holds s t d u) :
    (∃ t' u', Holds s' t' d u') ∨ (∃ due, t.phase.due? = some due ∧ loses? s a = some due) ∨
      ∃ due stmt, t.phase = .writing due u stmt ∧ s'.db = stmt.exec s.db s.now due.deliveryId := by
  by_cases ha : ∀ b, a ≠ .task t.tid b
  · exact .inl ⟨t, u, h.tasks_of_ne ht.1 ha, ht.2⟩
  push Not at ha
  obtain ⟨b, rfl⟩ := ha
  obtain ⟨phase, obs, hs, htasks, -⟩ := h.of_task ht.1
  rcases taskStep_holder hs ht.2.2 with ⟨p, hp, hu⟩ | ⟨due, hd, hl⟩ | hwrote
  · refine .inl ⟨{ t with phase := p }, u, ?_, ht.2.1, hu⟩
    rw [htasks]
    exact mem_setPhase.mpr (.inr ⟨t, ht.1, rfl, p, hp, rfl⟩)
  · exact .inr (.inl ⟨due, hd, by rw [loses?, Table.get_of_mem ht.1, Option.bind_some, hl]⟩)
  · exact .inr (.inr hwrote)

/-- What is known before a step of a run that is accountable. -/
structure Orderly (config : DispatchConfig) (s : Sys) : Prop where
  wf : WF config s
  timely : Timely s
  excl : Excl s
  counted : Counted s

theorem orderly_step (hk : Orderly config s) (h : Step config s a s') (ht : Timely s') :
    Orderly config s' :=
  ⟨wf_step hk.wf h, ht, excl_step hk.wf hk.excl h ht, counted_step hk.wf hk.counted h⟩

omit [Crates] in
theorem not_holds_of_reset (hx : Excl s) (ht : Timely s) {r : DeliveryRow}
    (hr : s.db.deliveries.get d = some r) (hfree : unlocked s.now r ∨ r.dispatchedAt.isSome)
    {t : Task} {u : Time} : ¬Holds s t d u := by
  intro hold
  obtain ⟨hlock, hdisp⟩ := hx.row t d u r hold hr
  rcases hfree with hfree | hfree
  · exact not_unlocked hlock (ht t d u hold) hfree
  · rw [hdisp] at hfree
    cases hfree

/-- Where the lock is granted nobody holds the row, and there are attempts left. -/
theorem lock_free {maxAttempts : ℕ} (hk : Orderly config s) (hi : Bounded s d maxAttempts)
    {t : Task} {due : DueDelivery} (hl : locks? s a = some (t, due)) (hd : due.deliveryId = d) :
    (∀ t u, ¬Holds s t d u) ∧ locksSince d s.trace < maxAttempts := by
  obtain ⟨ht, fault, u, r, -, -, hp, hr, hg⟩ := locks?_eq_some hl
  rw [hd] at hr
  have hfree : ∀ t u, ¬Holds s t d u := fun t' u' hold =>
    not_guard_of_holds hk.excl hold (hk.timely t' d u' hold) hr hg
  refine ⟨hfree, lt_of_le_of_ne hi.limit fun heq => ?_⟩
  obtain ⟨-, hnone, hlive⟩ := Stmt.guard_lockDelivery_iff.mp hg
  rcases hi.spent heq r hr with hdead | hdisp | ⟨t', u', hold⟩
  · rw [hlive] at hdead
    cases hdead
  · rw [hnone] at hdisp
    cases hdisp
  · exact hfree t' u' hold

theorem lock_current (hk : Orderly config s) (hok : Accountable s a s') {t : Task}
    {due : DueDelivery} (hl : locks? s a = some (t, due)) (hd : due.deliveryId = d) :
    locksSince d s.trace = t.row.attempts := by
  obtain ⟨ht, fault, u, r, -, -, hp, hr, -⟩ := locks?_eq_some hl
  have hcur := hok.2.1 _ hl r hr
  rw [hd] at hr
  have hx : Examined config t.row due := hk.wf.examined ht (by rw [hp]; rfl)
  rw [← hk.counted.attempts d r hr, hcur, hx.attempts]

theorem held_step {maxAttempts : ℕ} (hk : Orderly config s) (hi : Bounded s d maxAttempts)
    (h : Step config s a s') (hok : Accountable s a s') {t : Task} {u : Time}
    (ht : Holds s' t d u) : locksSince d s'.trace = t.row.attempts + 1 := by
  rcases holds_step hk.wf h ht with ⟨t₀, hold, htid, -⟩ | ⟨b, r, ha, hr, -, -, htr⟩
  · rw [row_of_tid hk.wf h ht.1 hold.1 htid, ← hi.held t₀ u hold]
    cases count_step h d with
    | quiet hl | call _ _ _ _ _ _ _ hl => rw [hl]
    | lock t₁ due hlk hd => exact absurd hold ((lock_free hk hi hlk hd).1 t₀ u)
    | reset r hr hfree => exact absurd hold (not_holds_of_reset hk.excl hk.timely hr hfree)
  · have htr' : s'.trace = [.locked t.tid d] ++ s.trace := htr
    obtain ⟨t₁, ht₁, due, u₁, r₁, hlk, htid, -, hd, -⟩ :=
      locks?_of_obs h htr' (List.mem_singleton_self _)
    have hcur := lock_current hk hok hlk hd
    rw [row_of_tid hk.wf h ht.1 ht₁ htid, ← hcur, htr, locksSince_locked]
    rfl

theorem next_step {maxAttempts : ℕ} (hk : Orderly config s) (hi : Bounded s d maxAttempts)
    (h : Step config s a s') {t : Task} {due : DueDelivery} {u : Time}
    (ht : t ∈ s'.tasks.rows) (hp : t.phase = .locked due u) (hd : due.deliveryId = d) :
    callsSince d s'.trace < locksSince d s'.trace := by
  rcases h.tasks ht with ⟨hold, hne⟩ | ⟨-, hf, -⟩ | ⟨t₀, ht₀, b, obs, -, heq, hs, htr⟩
  · have hholds : Holds s t d u :=
      ⟨hold, (hk.wf.examined hold (by rw [hp]; rfl)).deliveryId.symm.trans hd, by rw [hp]; rfl⟩
    have hlt := hi.next t due u hold hp hd
    cases count_step h d with
    | quiet hl hc => rwa [hl, hc]
    | lock t₁ due₁ _ _ hl hc => omega
    | call t₁ due₁ u₁ ht₁ hp₁ hd₁ ha =>
      have hholds₁ : Holds s t₁ d u₁ :=
        ⟨ht₁, (hk.wf.examined ht₁ (by rw [hp₁]; rfl)).deliveryId.symm.trans hd₁, by rw [hp₁]; rfl⟩
      rw [hk.excl.unique t t₁ d u u₁ hholds hholds₁] at hne
      exact absurd ha (hne _)
    | reset r hr hfree => exact absurd hholds (not_holds_of_reset hk.excl hk.timely hr hfree)
  · rw [hf] at hp
    cases hp
  · rw [hp] at hs
    generalize hq : some (Phase.locked due u) = q at hs
    generalize s'.db = db' at hs
    cases hs with
    | lock due' u' hph hg =>
      cases hq
      rw [htr, hd, List.singleton_append, locksSince_locked, callsSince_locked]
      have := hi.calls
      omega
    | respond due' u' result jitter hph =>
      obtain ⟨stmt, -, hcontra⟩ := Option.map_eq_some_iff.mp hq.symm
      cases hcontra
    | _ => cases hq

theorem calls_step {maxAttempts : ℕ} (hi : Bounded s d maxAttempts) (h : Step config s a s') :
    callsSince d s'.trace ≤ locksSince d s'.trace := by
  have hle := hi.calls
  cases count_step h d with
  | quiet hl hc => rwa [hl, hc]
  | lock _ _ _ _ hl hc => omega
  | call t due u ht hp hd _ hl hc =>
    have := hi.next t due u ht hp hd
    omega
  | reset _ _ _ hl hc => rw [hl, hc]

theorem limit_step {maxAttempts : ℕ} (hk : Orderly config s) (hi : Bounded s d maxAttempts)
    (h : Step config s a s') : locksSince d s'.trace ≤ maxAttempts := by
  cases count_step h d with
  | quiet hl | call _ _ _ _ _ _ _ hl => exact hl ▸ hi.limit
  | lock t due hlk hd hl =>
    have hlt := (lock_free hk hi hlk hd).2
    omega
  | reset _ _ _ hl => omega

/-- The task that is granted the lock holds the row, unless it does not learn of it. -/
theorem lock_step (h : Step config s a s') {t : Task} {due : DueDelivery}
    (hl : locks? s a = some (t, due)) :
    (∃ t' u, Holds s' t' t.row.deliveryId u) ∨ loses? s a = some due := by
  obtain ⟨ht, fault, u, r, ha, hf, hp, hr, hg⟩ := locks?_eq_some hl
  have haff : (Stmt.lockDelivery u).affects s.db s.now due.deliveryId :=
    (Stmt.affects_iff _).mpr ⟨r, hr, hg⟩
  subst ha
  obtain ⟨phase, obs, hs, htasks, -⟩ := h.of_task ht
  generalize s'.db = db' at hs
  cases hs with
  | dropped _ hd =>
    rw [hp] at hd
    cases fault with
    | lost => exact absurd rfl hf
    | ok | unacked => cases hd
  | lock due' u' hph =>
    refine .inl ⟨{ t with phase := .locked due' u' }, u', ?_, rfl, rfl⟩
    rw [htasks]
    exact mem_setPhase.mpr (.inr ⟨t, ht, rfl, _, rfl, rfl⟩)
  | lockUnacked due' u' hph hg' =>
    refine .inr ?_
    rw [loses?, Table.get_of_mem ht, Option.bind_some, hp]
    simp [lost?, lockDelivery, haff]
  | lockRefused _ due' u' hph hg' =>
    rw [hp] at hph
    cases hph
    rw [haff] at hg'
    cases hg'

/-- A row whose attempts are used up, when nobody holds it and the step does not count. -/
theorem spent_row_step {maxAttempts : ℕ} (hk : Orderly config s) (hcount' : Counted s')
    (h : Step config s a s') (hpos : 1 ≤ maxAttempts) (hfull : locksSince d s.trace = maxAttempts)
    (hfull' : locksSince d s'.trace = maxAttempts) (hfree : ∀ t u, ¬Holds s t d u)
    (hold : ∀ r ∈ s.db.deliveries.get d, r.deadLetter ∨ r.dispatchedAt.isSome) {r' : DeliveryRow}
    (hr' : s'.db.deliveries.get d = some r') : r'.deadLetter ∨ r'.dispatchedAt.isSome := by
  have hatt : r'.attempts ≠ 0 := by
    rw [hcount'.attempts d r' hr', hfull']
    omega
  have hissued : ¬s.db.deliverySeq ≤ d := by
    intro hle
    have hzero : locksSince d s.trace = 0 := locksSince_eq_zero fun tid ho =>
      absurd (hk.counted.issued tid d ho) (not_lt.mpr hle)
    omega
  have hrow := row_step h d
  rw [hr'] at hrow
  generalize hr : s.db.deliveries.get d = o at hrow hold
  generalize hn : some r' = n at hrow
  cases hrow with
  | keep => subst hn; exact hold r' rfl
  | inserted p b u n hle => exact absurd hle hissued
  | poisoned | abandoned => cases hn; exact .inl rfl
  | locked t fault due u r ht hp hid hg =>
    obtain ⟨-, hnone, hlive⟩ := Stmt.guard_lockDelivery_iff.mp hg
    have hspent := hold r rfl
    simp [hnone, hlive] at hspent
  | wroteBack t fault due u stmt r ht hp hid =>
    exact absurd (hid ▸ holds_writing hk.wf ht hp) (hfree t u)
  | swept maxCycles r hl =>
    cases hn
    by_cases hc : r.completionCycles + 1 ≥ maxCycles
    · exact .inl (by simp [sweepRow, hc])
    · simp [sweepRow, hc] at hatt
  | retried r => cases hn; exact absurd rfl hatt
  | completed r => cases hn; exact hold r rfl
  | deleted => cases hn

/-- A last attempt whose outcome is recorded leaves a row that is not to be delivered. -/
theorem spent_writeBack {target : CallbackTarget} (hw : WF config s) (hv : ValidTarget target)
    (honly : OnlyTarget config s d target) {t : Task} {due : DueDelivery} {u : Time} {stmt : Stmt}
    (ht : Holds s t d u) (hp : t.phase = .writing due u stmt)
    (hfull : (target.maxAttempts : ℤ) = t.row.attempts + 1)
    (hdb : s'.db = stmt.exec s.db s.now due.deliveryId) {r' : DeliveryRow}
    (hr' : s'.db.deliveries.get d = some r') : r'.deadLetter ∨ r'.dispatchedAt.isSome := by
  have hx : Examined config t.row due := hw.examined ht.1 (by rw [hp]; rfl)
  have htarget : due.target = target :=
    honly _ (ht.2.1 ▸ hasTarget_of_task hw ht.1 (by rw [hp]; rfl))
  have hstmt := hw.tasks.stmt t ht.1 due u stmt hp
  have hid : due.deliveryId = d := hx.deliveryId.trans ht.2.1
  rw [hdb, hid, Stmt.get_exec] at hr'
  obtain ⟨r, -, rfl⟩ := Option.map_eq_some_iff.mp hr'
  rcases hstmt.cases with rfl | ⟨rfl, -⟩ | ⟨error, availableAt, dead, rfl⟩
  · exact .inr (by simp [Stmt.guard, Stmt.assign])
  · exact .inr (by simp [Stmt.guard, Stmt.assign])
  · have hdead : dead = true := by
      rw [hstmt.deadLetter_iff, htarget, hv.asI32_maxAttempts, hx.attempts]
      omega
    exact .inl (by simp [Stmt.guard, Stmt.assign, hdead])

theorem spent_step {target : CallbackTarget} (hk : Orderly config s) (hcount' : Counted s')
    (hv : ValidTarget target) (honly : OnlyTarget config s d target)
    (hi : Bounded s d target.maxAttempts) (h : Step config s a s') (hok : Accountable s a s')
    (hfull' : locksSince d s'.trace = target.maxAttempts) {r' : DeliveryRow}
    (hr' : s'.db.deliveries.get d = some r') :
    r'.deadLetter ∨ r'.dispatchedAt.isSome ∨ ∃ t u, Holds s' t d u := by
  have hpos := hv.maxAttempts.1
  -- the outcome of a last attempt is not lost
  have hkept : ∀ t due, t ∈ s.tasks.rows → t.row.deliveryId = d → t.phase.due? = some due →
      (target.maxAttempts : ℤ) = t.row.attempts + 1 → loses? s a ≠ some due := by
    intro t due ht hd hdue hlast hlost
    have hx : Examined config t.row due := hk.wf.examined ht hdue
    have htarget : due.target = target := honly _ (hd ▸ hasTarget_of_task hk.wf ht hdue)
    have hnot := hok.2.2 due hlost
    rw [isLast, htarget, hv.asI32_maxAttempts, hx.attempts, ← hlast] at hnot
    simp at hnot
  have hquiet : locksSince d s.trace = target.maxAttempts →
      r'.deadLetter ∨ r'.dispatchedAt.isSome ∨ ∃ t u, Holds s' t d u := by
    intro hfull
    by_cases hheld : ∃ t u, Holds s t d u
    · obtain ⟨t, u, hold⟩ := hheld
      have hlast : (target.maxAttempts : ℤ) = t.row.attempts + 1 := hfull ▸ hi.held t u hold
      rcases holder_step h hold with hnext | ⟨due, hdue, hlost⟩ | ⟨due, stmt, hp, hdb⟩
      · exact .inr (.inr hnext)
      · exact absurd hlost (hkept t due hold.1 hold.2.1 hdue hlast)
      · rcases spent_writeBack hk.wf hv honly hold hp hlast hdb hr' with hdead | hdisp
        · exact .inl hdead
        · exact .inr (.inl hdisp)
    · push Not at hheld
      have hold : ∀ r ∈ s.db.deliveries.get d, r.deadLetter ∨ r.dispatchedAt.isSome := by
        intro r hr
        rcases hi.spent hfull r hr with hdead | hdisp | ⟨t, u, hx⟩
        · exact .inl hdead
        · exact .inr hdisp
        · exact absurd hx (hheld t u)
      rcases spent_row_step hk hcount' h hpos hfull hfull' hheld hold hr' with hdead | hdisp
      · exact .inl hdead
      · exact .inr (.inl hdisp)
  cases count_step h d with
  | quiet hl | call _ _ _ _ _ _ _ hl => exact hquiet (hl ▸ hfull')
  | lock t due hlk hd hl =>
    have hcur := lock_current hk hok hlk hd
    obtain ⟨ht, fault, u, r, -, -, hp, -⟩ := locks?_eq_some hlk
    have hid : t.row.deliveryId = d :=
      (hk.wf.examined ht (by rw [hp]; rfl)).deliveryId.symm.trans hd
    rcases lock_step h hlk with ⟨t', u', hold⟩ | hlost
    · exact .inr (.inr ⟨t', u', hid ▸ hold⟩)
    · exact absurd hlost (hkept t due ht hid (by rw [hp]; rfl) (by omega))
  | reset _ _ _ hl => omega

theorem bounded_step {target : CallbackTarget} (hk : Orderly config s) (hv : ValidTarget target)
    (honly : OnlyTarget config s d target) (hi : Bounded s d target.maxAttempts)
    (h : Step config s a s') (hok : Accountable s a s') : Bounded s' d target.maxAttempts where
  held := fun _ _ ht => held_step hk hi h hok ht
  limit := limit_step hk hi h
  spent := fun hfull _ hr =>
    spent_step hk (counted_step hk.wf hk.counted h) hv honly hi h hok hfull hr
  calls := calls_step hi h
  next := fun _ _ _ ht hp hd => next_step hk hi h ht hp hd

omit [Crates] in
theorem bounded_init (now : Time) (scheds : ℕ → Sched) (d : ℤ) (n : ℕ) :
    Bounded (init now scheds) d n where
  held := fun t u h => by simp [Holds, init] at h
  limit := Nat.zero_le _
  spent := fun _ r hr => by simp [init, Db.empty, Table.get] at hr
  calls := le_rfl
  next := fun t due u h => by simp [init] at h

/-- **Attempts are bounded.** In every run in which no task holds a row past the expiry of its lock,
no lock is taken with an old count, the outcomes of last attempts are not lost, and no row is
written between the read and the update of a sweep, whatever else crashes or fails: since its row
was inserted or reset, the receiver of a delivery has been called at most `max_attempts` times, and
a row whose `attempts` has reached the limit is not locked again. -/
theorem attempts_bounded {now : Time} {scheds : ℕ → Sched} (hq : Quiet scheds)
    (hc : ValidConfig config) {w : Phased}
    (h : Run (phasedStep config) (Lifted Accountable) (start now scheds) w)
    {target : CallbackTarget} (ht : HasTarget config w.base d target) :
    callsSince d w.base.trace ≤ target.maxAttempts ∧
      ∀ a t due, locks? w.base a = some (t, due) → due.deliveryId = d →
        ∀ r ∈ w.base.db.deliveries.get d, r.attempts < target.maxAttempts := by
  have hv := validTarget_of_hasTarget hc ht
  have hinv : Orderly config w.base ∧
      (OnlyTarget config w.base d target → Bounded w.base d target.maxAttempts) := by
    refine invariant_of_lifted (fun s => Orderly config s ∧
      (OnlyTarget config s d target → Bounded s d target.maxAttempts)) hq ?_ ?_ h
    · have hsafe := safe_init now scheds
      exact ⟨⟨wf_init now hq, hsafe.timely, hsafe.excl, counted_init now scheds⟩,
        fun _ => bounded_init now scheds d _⟩
    · rintro s a s' ⟨hk, hi⟩ hs hok
      refine ⟨orderly_step hk hs hok.1, fun honly => ?_⟩
      have honly₀ : OnlyTarget config s d target := fun target' ht' =>
        honly target' (hasTarget_step hs ht')
      exact bounded_step hk hv honly₀ (hi honly₀) hs hok
  obtain ⟨hk, hi⟩ := hinv
  have hb := hi fun target' ht' => hasTarget_unique hk.wf ht' ht
  refine ⟨hb.calls.trans hb.limit, fun a t due hl hd r hr => ?_⟩
  rw [hk.counted.attempts d r hr]
  exact_mod_cast (lock_free hk hb hl hd).2

end

/-! ### A crash during a call -/

/-- The dispatcher crashes during its call; an hour later the lock has expired, and the row is
fetched and delivered again. -/
def crashDuringCall (maxAttempts : ℤ) : List PhasedAction :=
  [.publish (sampleEvent 1 [sampleCallback "hook_a" [("max_attempts", .int maxAttempts)]]),
    .commit 1,
    .sched 0 .poll, .sched 0 (.write .ok), .sched 0 .next, .fetch, .task 0 (.examine .ok),
    .task 0 .computeLock, .task 0 (.lock .ok), .task 0 .deliver, .task 0 .crash,
    .tick (fromSecs 3600),
    .fetch, .task 1 (.examine .ok), .task 1 .computeLock, .task 1 (.lock .ok),
    .task 1 .deliver].map .base

/-- Two attempts are allowed. -/
theorem attempts_bounded_crash :
    ∃ w, Run (@phasedStep sampleCrates {}) (Lifted Accountable) (start 0 oneScheduler) w ∧
      ∃ target, @HasTarget sampleCrates {} w.base 1 target ∧ target.maxAttempts = 2 ∧
        callsSince 1 w.base.trace = 2 ∧ callsSince 1 w.base.trace ≤ target.maxAttempts := by
  have hex : ∃ w, Run (@phasedStep sampleCrates {}) (Lifted Accountable) (start 0 oneScheduler) w ∧
      callsSince 1 w.base.trace = 2 ∧
      (w.base.tasks.get 1).any fun t => t.row.deliveryId = 1 ∧
        t.phase.due?.any fun due => due.target.maxAttempts = 2 :=
    Run.exists_of_exec (crashDuringCall 2) (by decide +kernel)
  obtain ⟨w, hrun, hcalls, ht⟩ := hex
  obtain ⟨t, ht, hx⟩ := (Option.any_eq_true _ _).mp ht
  obtain ⟨hid, hx⟩ := of_decide_eq_true hx
  obtain ⟨due, hdue, hmax⟩ := (Option.any_eq_true _ _).mp hx
  have hw := @PhasedWF.wf sampleCrates {} w
    (@phasedWF_of_run sampleCrates {} w _ _
      (@phasedWF_start sampleCrates {} 0 _ quiet_oneScheduler) hrun)
  have htarget := @hasTarget_of_task sampleCrates {} w.base hw t (Table.mem_of_get ht) due hdue
  rw [hid] at htarget
  exact ⟨w, hrun, due.target, htarget, of_decide_eq_true hmax, hcalls,
    (@attempts_bounded sampleCrates {} 1 0 _ quiet_oneScheduler validConfig_default w
      hrun _ htarget).1⟩

/-- **The crash of the only attempt is not noticed**: `max_attempts` is 1, `attempts` has reached
it, the row is locked once more, and the receiver is called a second time. -/
theorem attempts_unbounded :
    ∃ w, Run (@phasedStep sampleCrates {}) anyStep (start 0 oneScheduler) w ∧
      (∃ t ∈ w.base.tasks.rows, t.row.deliveryId = 1 ∧ ∃ due, t.phase.due? = some due ∧
        due.target.maxAttempts = 1) ∧
      (w.base.db.deliveries.get 1).any (fun r => r.attempts = 2) ∧
      callsSince 1 w.base.trace = 2 := by
  have hex : ∃ w, Run (@phasedStep sampleCrates {}) anyStep (start 0 oneScheduler) w ∧
      ((w.base.tasks.get 1).any fun t => t.row.deliveryId = 1 ∧
        t.phase.due?.any fun due => due.target.maxAttempts = 1) ∧
      (w.base.db.deliveries.get 1).any (fun r => r.attempts = 2) ∧
      callsSince 1 w.base.trace = 2 :=
    Run.exists_of_exec (crashDuringCall 1) (by decide +kernel)
  obtain ⟨w, hrun, ht, hr, hcalls⟩ := hex
  obtain ⟨t, ht, hx⟩ := (Option.any_eq_true _ _).mp ht
  obtain ⟨hid, hx⟩ := of_decide_eq_true hx
  obtain ⟨due, hdue, hmax⟩ := (Option.any_eq_true _ _).mp hx
  exact ⟨w, hrun, ⟨t, Table.mem_of_get ht, hid, due, hdue, of_decide_eq_true hmax⟩, hr, hcalls⟩

end OutboxDispatcher.Dispatch.Exhaustion
