import OutboxDispatcher.Dispatch.Solo

/-! # The life of a managed delivery

`Next` is the specification: what may happen to a managed delivery with `max_attempts` attempts and
a backoff schedule, one thing after the other. Its calls are numbered from one. A failed call makes
it due again in the window of the schedule, and the last one dead-letters it; a successful one ends
it.

With one dispatcher that does not fail, and as long as nobody else writes the row, every delivery
goes such a way (`follows_of_run`). The count that was fetched, the column, the index into the
schedule and the test for the last attempt are the same number then. `managed_lifecycle` reads this
off in the terms of the row and of what has happened to it. -/

namespace OutboxDispatcher.Dispatch.Lifecycle

open OutboxDispatcher.Lib.Runs OutboxDispatcher.Lib.Tables OutboxDispatcher.Schema
open OutboxDispatcher.Callbacks.Fields OutboxDispatcher.Callbacks.Limits OutboxDispatcher.Retry
open OutboxDispatcher.Repo.Database OutboxDispatcher.Repo.Database.Db
  OutboxDispatcher.Repo.Statements
open OutboxDispatcher.Scheduler.Pass OutboxDispatcher.Dispatch OutboxDispatcher.Dispatch.Solo
open OutboxDispatcher.System OutboxDispatcher.System.Effects OutboxDispatcher.System.History
  OutboxDispatcher.System.Rows
open OutboxDispatcher.System.Counts

/-! ### The specification -/

/-- Where a delivery is in its life. -/
inductive Stage
  | waiting
  /-- Locked for a call. -/
  | taken
  | calling
  /-- The call has failed, which is not written back yet. -/
  | failed
  | succeeded
  | delivered
  | dead
  deriving DecidableEq

/-- A delivery after this number of calls. -/
structure Life where
  calls : ℕ
  /-- When it is due. -/
  availableAt : Time
  stage : Stage

/-- What may happen next, and when. -/
inductive Next (maxAttempts : ℕ) (backoff : List Duration) : Life → Time × Mark → Life → Prop
  | lock (k : ℕ) (due t : Time) (h : due ≤ t) :
      Next maxAttempts backoff ⟨k, due, .waiting⟩ (t, .locked) ⟨k, due, .taken⟩
  | call (k : ℕ) (due t : Time) (h : due ≤ t) :
      Next maxAttempts backoff ⟨k, due, .taken⟩ (t, .call (k + 1)) ⟨k + 1, due, .calling⟩
  | failure (k : ℕ) (due t : Time) (result : CallbackResult) (reason : String)
      (retryAfter : Option Duration) (due' : Time) (h : result.failure? = some (reason, retryAfter))
      (hw : InWindow t (retryDelay backoff k retryAfter) due') :
      Next maxAttempts backoff ⟨k, due, .calling⟩ (t, .answer result) ⟨k, due', .failed⟩
  | success (k : ℕ) (due t : Time) :
      Next maxAttempts backoff ⟨k, due, .calling⟩ (t, .answer .ok) ⟨k, due, .succeeded⟩
  | again (k : ℕ) (due t : Time) (h : k < maxAttempts) :
      Next maxAttempts backoff ⟨k, due, .failed⟩ (t, .wroteBack) ⟨k, due, .waiting⟩
  | bury (due t : Time) :
      Next maxAttempts backoff ⟨maxAttempts, due, .failed⟩ (t, .wroteBack) ⟨maxAttempts, due, .dead⟩
  | finish (k : ℕ) (due t : Time) :
      Next maxAttempts backoff ⟨k, due, .succeeded⟩ (t, .wroteBack) ⟨k, due, .delivered⟩

/-! ### What has happened -/

def callNumber? : Time × Mark → Option ℤ
  | (_, .call attempt) => some attempt
  | _ => none

def failure? : Time × Mark → Option (Time × Option Duration)
  | (t, .answer result) => result.failure?.map fun f => (t, f.2)
  | _ => none

/-- The numbers of the calls, in the order in which they were made. -/
def callNumbers (record : List (Time × Mark)) : List ℤ := record.reverse.filterMap callNumber?

def failures (record : List (Time × Mark)) : ℕ := record.countP fun x => (failure? x).isSome

def lastFailure (record : List (Time × Mark)) : Option (Time × Option Duration) :=
  record.findSome? failure?

def Answered (record : List (Time × Mark)) : Prop := ∃ t, (t, .answer .ok) ∈ record

/-- The last thing that has happened is a write-back. -/
def WrittenBack (record : List (Time × Mark)) : Prop := ∃ t l, record = (t, .wroteBack) :: l

/-! ### What follows from the specification -/

section

variable {m : ℕ} {b : List Duration} {due₀ : Time} {record : List (Time × Mark)} {life : Life}

theorem callNumbers_of_path (h : Path (Next m b) ⟨0, due₀, .waiting⟩ record life) :
    callNumbers record = (List.range life.calls).map fun k : ℕ => (k : ℤ) + 1 := by
  induction h with
  | nil => rfl
  | cons h hn ih =>
    rw [callNumbers, List.reverse_cons, List.filterMap_append, ← callNumbers, ih]
    cases hn with
    | call k => simp [callNumber?, List.range_succ]
    | _ => simp [callNumber?]

/-- Before a call there is an attempt left, and a delivery is buried when there is none. -/
theorem calls_le_of_path (hm : 1 ≤ m) (h : Path (Next m b) ⟨0, due₀, .waiting⟩ record life) :
    life.calls ≤ m ∧ (life.stage = .waiting ∨ life.stage = .taken → life.calls < m) ∧
      (life.stage = .dead → life.calls = m) := by
  induction h with
  | nil => exact ⟨Nat.zero_le _, fun _ => hm, nofun⟩
  | cons h hn ih =>
    cases hn with
    | call => exact ⟨ih.2.1 (.inr rfl), by simp, nofun⟩
    | again k due t hk => exact ⟨ih.1, fun _ => hk, nofun⟩
    | lock => exact ⟨ih.1, fun _ => ih.2.1 (.inl rfl), nofun⟩
    | bury => exact ⟨le_rfl, by simp, fun _ => rfl⟩
    | failure | success | finish => exact ⟨ih.1, by simp, nofun⟩

/-- Every call has failed, except for one that is running or has succeeded. -/
theorem failures_of_path (h : Path (Next m b) ⟨0, due₀, .waiting⟩ record life) :
    life.calls = failures record + match life.stage with
      | .calling | .succeeded | .delivered => 1
      | _ => 0 := by
  induction h with
  | nil => rfl
  | cons h hn ih =>
    rw [failures, List.countP_cons, ← failures]
    cases hn with
    | failure k due t result reason retryAfter due' hr => simpa [failure?, hr] using ih
    | call => simpa [failure?] using ih
    | success => simpa [failure?, CallbackResult.failure?] using ih
    | lock | again | bury | finish => simpa [failure?] using ih

theorem answered_iff_of_path (h : Path (Next m b) ⟨0, due₀, .waiting⟩ record life) :
    Answered record ↔ life.stage = .succeeded ∨ life.stage = .delivered := by
  induction h with
  | nil => simp [Answered]
  | @cons life life' l x h hn ih =>
    have hcons : Answered (x :: l) ↔ x.2 = .answer .ok ∨ Answered l := by
      obtain ⟨t, mark⟩ := x
      simp [Answered, exists_or, eq_comm]
    rw [hcons, ih]
    cases hn with
    | failure k due t result reason retryAfter due' hr =>
      have hne : result ≠ .ok := by rintro rfl; cases hr
      simp [hne]
    | _ => simp

theorem writtenBack_of_path (h : Path (Next m b) ⟨0, due₀, .waiting⟩ record life) :
    (life.stage = .delivered ∨ life.stage = .dead → WrittenBack record) ∧
      (WrittenBack record →
        life.stage = .waiting ∨ life.stage = .delivered ∨ life.stage = .dead) := by
  cases h with
  | nil => simp [WrittenBack]
  | cons h hn => cases hn <;> simp [WrittenBack]

/-- It is buried when the last failure is written back. -/
theorem dead_iff_of_path (hm : 1 ≤ m) (h : Path (Next m b) ⟨0, due₀, .waiting⟩ record life) :
    life.stage = .dead ↔ WrittenBack record ∧ failures record = m := by
  obtain ⟨hle, hlt, hdead⟩ := calls_le_of_path hm h
  obtain ⟨hwb, hstage⟩ := writtenBack_of_path h
  have hf := failures_of_path h
  constructor
  · intro hd
    simp only [hd] at hf
    exact ⟨hwb (.inr hd), hf.symm.trans (hdead hd)⟩
  · rintro ⟨hw, hm⟩
    rcases hstage hw with hs | hs | hs
    · simp only [hs] at hf
      have := hlt (.inl hs)
      omega
    · simp only [hs] at hf
      omega
    · exact hs

/-- It is delivered when the success is written back. -/
theorem delivered_iff_of_path (h : Path (Next m b) ⟨0, due₀, .waiting⟩ record life) :
    life.stage = .delivered ↔ WrittenBack record ∧ Answered record := by
  obtain ⟨hwb, hstage⟩ := writtenBack_of_path h
  rw [answered_iff_of_path h]
  constructor
  · intro hd
    exact ⟨hwb (.inl hd), .inr hd⟩
  · rintro ⟨hw, hs | hs⟩
    · rcases hstage hw with h | h | h <;> rw [hs] at h <;> cases h
    · exact hs

/-- The delivery is due in the window of its last failure. -/
theorem inWindow_of_path (h : Path (Next m b) ⟨0, due₀, .waiting⟩ record life) {t : Time}
    {retryAfter : Option Duration} (hl : lastFailure record = some (t, retryAfter)) :
    InWindow t (retryDelay b (failures record) retryAfter) life.availableAt := by
  induction h with
  | nil => cases hl
  | cons h hn ih =>
    rw [lastFailure, List.findSome?_cons, ← lastFailure] at hl
    have hk := failures_of_path (h.cons hn)
    cases hn with
    | failure k due t' result reason retryAfter' due' hr hw =>
      simp only [failure?, hr, Option.map_some, Option.some.injEq, Prod.mk.injEq] at hl
      obtain ⟨rfl, rfl⟩ := hl
      rw [← show k = failures _ from hk]
      exact hw
    | success =>
      simp only [failure?, CallbackResult.failure?, Option.map_none] at hl
      rw [failures, List.countP_cons, ← failures]
      simpa [failure?, CallbackResult.failure?] using ih hl
    | lock | call | again | bury | finish =>
      simp only [failure?] at hl
      rw [failures, List.countP_cons, ← failures]
      simpa [failure?] using ih hl

theorem stage_of_path (h : Path (Next m b) ⟨0, due₀, .waiting⟩ record life)
    (hlast : ∀ x ∈ record.head?, failure? x = none) : life.stage ≠ .failed := by
  cases h with
  | nil => nofun
  | cons h hn =>
    cases hn with
    | failure k due t result reason retryAfter due' hr => simp [failure?, hr] at hlast
    | _ => nofun

theorem due_of_path (h : Path (Next m b) ⟨0, due₀, .waiting⟩ record life) {t : Time} {n : ℤ}
    {l : List (Time × Mark)} (hr : record = (t, .call n) :: l) : life.availableAt ≤ t := by
  cases h with
  | nil => cases hr
  | cons h hn =>
    cases hn with
    | call k due t' hdue =>
      cases hr
      exact hdue
    | _ => cases hr

/-- After a success there is only its write-back. -/
theorem after_success {k : ℕ} {due : Time} {l : List (Time × Mark)}
    (h : Path (Next m b) ⟨k, due, .succeeded⟩ l life) :
    (life.stage = .succeeded ∨ life.stage = .delivered) ∧ ∀ x ∈ l, x.2 = .wroteBack := by
  induction h with
  | nil => exact ⟨.inl rfl, by simp⟩
  | cons h hn ih =>
    cases hn with
    | finish => exact ⟨.inr rfl, by simpa using ih.2⟩
    | _ => simp at ih

theorem after_answered (h : Path (Next m b) ⟨0, due₀, .waiting⟩ record life) {t : Time}
    {l l' : List (Time × Mark)} (hr : record = l ++ (t, .answer .ok) :: l') :
    ∀ x ∈ l, x.2 = .wroteBack := by
  subst hr
  obtain ⟨life₁, h₁, h₂⟩ := h.split
  cases h₁ with
  | cons h₁ hn =>
    cases hn with
    | success => exact (after_success h₂).2
    | failure k due t' result reason retryAfter due' hf => cases hf

end

/-! ### The system follows it -/

/-- The row of a delivery at this point of its life. -/
structure Shows (life : Life) (r : DeliveryRow) : Prop where
  attempts : r.attempts = life.calls + if life.stage = .taken then 1 else 0
  deadLetter : r.deadLetter ↔ life.stage = .dead
  dispatched : r.dispatchedAt.isSome ↔ life.stage = .delivered
  processed : r.processedAt.isSome ↔ life.stage = .delivered
  availableAt : life.stage ≠ .failed → r.availableAt = life.availableAt

/-- Neither dead-lettered nor dispatched nor processed. -/
def Pending (r : DeliveryRow) : Prop :=
  r.deadLetter = false ∧ r.dispatchedAt = none ∧ r.processedAt = none

theorem Shows.pending {life : Life} {r : DeliveryRow} (h : Shows life r)
    (hdead : life.stage ≠ .dead) (hdel : life.stage ≠ .delivered) : Pending r := by
  refine ⟨by simpa [hdead] using h.deadLetter, ?_, ?_⟩
  · simpa [hdel] using h.dispatched
  · simpa [hdel] using h.processed

theorem shows_of_pending {life : Life} {r : DeliveryRow} (h : Pending r)
    (hdead : life.stage ≠ .dead) (hdel : life.stage ≠ .delivered)
    (hatt : r.attempts = life.calls + if life.stage = .taken then 1 else 0)
    (hav : life.stage ≠ .failed → r.availableAt = life.availableAt) : Shows life r :=
  ⟨hatt, by simp [h.1, hdead], by simp [h.2.1, hdel], by simp [h.2.2, hdel], hav⟩

def Attends (maxAttempts : ℕ) (now : Time) (life : Life) : Option Task → Prop
  | none => life.stage = .waiting ∨ life.stage = .delivered ∨ life.stage = .dead
  | some t =>
    match t.phase with
    | .fetched | .ready _ | .locking _ _ =>
      life.stage = .waiting ∧ t.row.attempts = life.calls ∧ life.availableAt ≤ now
    | .locked _ _ => life.stage = .taken ∧ t.row.attempts = life.calls ∧ life.availableAt ≤ now
    | .delivering _ _ => life.stage = .calling ∧ t.row.attempts + 1 = life.calls
    | .writing _ _ stmt =>
      (stmt = .markDispatchedManaged ∧ life.stage = .succeeded) ∨
        ∃ reason, stmt = .markFailure reason life.availableAt (maxAttempts ≤ life.calls) ∧
          life.stage = .failed

structure Tracks (maxAttempts : ℕ) (now : Time) (v : View) (life : Life) : Prop where
  row : ∀ r ∈ v.row, Shows life r
  task : Attends maxAttempts now life v.task

theorem Tracks.later {m : ℕ} {now now' : ℤ} {v : View} {life : Life} (h : Tracks m now v life)
    (hle : now ≤ now') : Tracks m now' v life := by
  refine ⟨h.row, ?_⟩
  have ht := h.task
  unfold Attends at ht ⊢
  split at ht
  · exact ht
  · split at ht
    case h_5 | h_6 => exact ht
    all_goals exact ⟨ht.1, ht.2.1, le_trans ht.2.2 hle⟩

section

variable [Crates] {config : DispatchConfig} {s s' : Sys} {a : Action} {d : ℤ}

def NoOperator (d : ℤ) (a : Action) : Prop := a ≠ .retry d ∧ a ≠ .complete d ∧ a ≠ .abandon d

instance (d : ℤ) : DecidablePred (NoOperator d)
  | .retry d' => decidable_of_iff (d' ≠ d) (by simp [NoOperator])
  | .complete d' => decidable_of_iff (d' ≠ d) (by simp [NoOperator])
  | .abandon d' => decidable_of_iff (d' ≠ d) (by simp [NoOperator])
  | .tick _ | .publish _ | .commit _ | .rollback _ | .sched _ _ | .fetch | .task _ _ | .sweep
  | .retention _ _ _ => .isTrue (by simp [NoOperator])

/-- The delivery stays where it is, or goes one step on. -/
def Moves (target : CallbackTarget) (now : Time) (life : Life) (marks : List Mark) (v' : View) :
    Prop :=
  (marks = [] ∧ Tracks target.maxAttempts now v' life) ∨
    ∃ x life', marks = [x] ∧ Next target.maxAttempts target.backoff life (now, x) life' ∧
      Tracks target.maxAttempts now v' life'

variable {target : CallbackTarget} {now : Time} {k : ℕ} {due₁ : Time} {stage : Stage} {t : Task}

omit [Crates] in
/-- The stage changes, and the row does not. -/
theorem shows_of_shows {r : DeliveryRow} {k' : ℕ} {due' : Time} {stage' : Stage}
    (h : Shows ⟨k, due₁, stage⟩ r) (hp : stage ≠ .dead ∧ stage ≠ .delivered)
    (hp' : stage' ≠ .dead ∧ stage' ≠ .delivered)
    (hatt : k + (if stage = .taken then 1 else 0) = k' + if stage' = .taken then 1 else 0)
    (hav : stage' ≠ .failed → stage ≠ .failed ∧ due' = due₁) : Shows ⟨k', due', stage'⟩ r := by
  refine shows_of_pending (h.pending hp.1 hp.2) hp'.1 hp'.2 ?_ fun hne => ?_
  · rw [h.attempts]
    exact_mod_cast hatt
  · rw [h.availableAt (hav hne).1, (hav hne).2]

omit [Crates] in
theorem moves_fetch {r : DeliveryRow} (hrow : Shows ⟨k, due₁, stage⟩ r)
    (htask : Attends target.maxAttempts now ⟨k, due₁, stage⟩ none) (hp : t.phase = .fetched)
    (hdue : isDue now r) (hatt : t.row.attempts = r.attempts) :
    Moves target now ⟨k, due₁, stage⟩ [] ⟨some t, some r⟩ := by
  obtain ⟨hdisp, -, hdead, havail, -⟩ := isDue_iff_columns.mp hdue
  have hstage : stage = .waiting := by
    rcases htask with h | h | h
    · exact h
    · simpa [hdisp] using hrow.dispatched.mpr h
    · simpa [hdead] using hrow.deadLetter.mpr h
  subst hstage
  have hdue₁ : r.availableAt = due₁ := hrow.availableAt nofun
  refine .inl ⟨rfl, fun r' hr' => Option.some.inj hr' ▸ hrow, ?_⟩
  simp only [Attends, hp]
  exact ⟨trivial, by simpa using hatt.trans hrow.attempts, hdue₁ ▸ havail⟩

omit [Crates] in
theorem moves_lock {r : DeliveryRow} {due : DueDelivery} {u : Time}
    (hrow : Shows ⟨k, due₁, stage⟩ r)
    (htask : Attends target.maxAttempts now ⟨k, due₁, stage⟩ (some t))
    (hp : t.phase = .locking due u) : Moves target now ⟨k, due₁, stage⟩ [.locked]
      ⟨some { t with phase := .locked due u }, some ((Stmt.lockDelivery u).assign now r)⟩ := by
  simp only [Attends, hp] at htask
  obtain ⟨rfl, hatt, hav⟩ := htask
  have hatts : r.attempts = k := by simpa using hrow.attempts
  have hpend : Pending ((Stmt.lockDelivery u).assign now r) := hrow.pending nofun nofun
  refine .inr ⟨_, ⟨k, due₁, .taken⟩, rfl, .lock k due₁ now hav, ?_, rfl, hatt, hav⟩
  rintro r' ⟨⟩
  exact shows_of_pending hpend nofun nofun (by simp [Stmt.assign, hatts]) fun _ =>
    hrow.availableAt nofun

theorem moves_call {row : Option DeliveryRow} {due : DueDelivery} {u : Time}
    (hk : Knows config target t) (ht : Tracks target.maxAttempts now ⟨some t, row⟩ ⟨k, due₁, stage⟩)
    (hp : t.phase = .locked due u) : Moves target now ⟨k, due₁, stage⟩ [.call (due.attempts + 1)]
      ⟨some { t with phase := .delivering due u }, row⟩ := by
  obtain ⟨hrow, htask⟩ := ht
  simp only [Attends, hp] at htask
  obtain ⟨rfl, hatt, hav⟩ := htask
  have hdue := (hk.due due (by rw [hp]; rfl)).2
  rw [hdue, hatt]
  refine .inr ⟨_, ⟨k + 1, due₁, .calling⟩, rfl, .call k due₁ now hav, fun r hr => ?_, rfl, ?_⟩
  · exact shows_of_shows (hrow r hr) (by simp) (by simp) (by simp) (by simp)
  · simp [hatt]

theorem moves_answer (hv : ValidTarget target) (hm : target.mode = .managed)
    {row : Option DeliveryRow} {due : DueDelivery} {u : Time} {result : CallbackResult} {jitter : ℚ}
    {stmt : Stmt} (hk : Knows config target t)
    (ht : Tracks target.maxAttempts now ⟨some t, row⟩ ⟨k, due₁, stage⟩)
    (hpos : stage = .calling → 1 ≤ k) (hp : t.phase = .delivering due u) (hj : InJitterRange jitter)
    (hw : WriteBack now jitter due result stmt) : Moves target now ⟨k, due₁, stage⟩ [.answer result]
      ⟨some { t with phase := .writing due u stmt }, row⟩ := by
  obtain ⟨hrow, htask⟩ := ht
  simp only [Attends, hp] at htask
  obtain ⟨rfl, hatt⟩ := htask
  obtain ⟨htarget, hdue⟩ := hk.due due (by rw [hp]; rfl)
  have hcalls : due.attempts + 1 = k := by rw [hdue, hatt]
  cases hw with
  | managed hr hmode =>
    subst hr
    refine .inr ⟨_, ⟨k, due₁, .succeeded⟩, rfl, .success k due₁ now, fun r hr => ?_,
      .inl ⟨rfl, rfl⟩⟩
    exact shows_of_shows (hrow r hr) (by simp) (by simp) (by simp) (by simp)
  | external hr hmode =>
    rw [htarget, hm] at hmode
    cases hmode
  | failure reason retryAfter availableAt hr hc =>
    rw [hcalls, htarget] at hc
    have hwin := inWindow_of_compute (hpos rfl) hv.backoff.nonempty hj hc
    refine .inr ⟨_, ⟨k, availableAt, .failed⟩, rfl,
      .failure k due₁ now result reason retryAfter availableAt hr hwin, fun r hr => ?_, ?_⟩
    · exact shows_of_shows (hrow r hr) (by simp) (by simp) (by simp) (by simp)
    · refine .inr ⟨reason, ?_, rfl⟩
      rw [hcalls, htarget, hv.asI32_maxAttempts]
      simp

omit [Crates] in
theorem moves_writeBack {row : Option DeliveryRow} {due : DueDelivery} {u : Time} {stmt : Stmt}
    (ht : Tracks target.maxAttempts now ⟨some t, row⟩ ⟨k, due₁, stage⟩)
    (hle : k ≤ target.maxAttempts) (hp : t.phase = .writing due u stmt) :
    Moves target now ⟨k, due₁, stage⟩ [.wroteBack] ⟨none, row.map (stmt.assign now)⟩ := by
  obtain ⟨hrow, htask⟩ := ht
  simp only [Attends, hp] at htask
  rcases htask with ⟨rfl, rfl⟩ | ⟨reason, rfl, rfl⟩
  · refine .inr ⟨_, ⟨k, due₁, .delivered⟩, rfl, .finish k due₁ now, fun r' hr' => ?_,
      .inr (.inl rfl)⟩
    obtain ⟨r, hr, rfl⟩ := Option.map_eq_some_iff.mp hr'
    have hs := hrow r hr
    have hdead := (hs.pending (by simp) (by simp)).1
    exact ⟨by simpa [Stmt.assign] using hs.attempts, by simp [Stmt.assign, hdead],
      by simp [Stmt.assign], by simp [Stmt.assign], fun _ => hs.availableAt (by simp)⟩
  · by_cases hlast : k = target.maxAttempts
    · subst hlast
      refine .inr ⟨_, ⟨_, due₁, .dead⟩, rfl, .bury due₁ now, fun r' hr' => ?_, .inr (.inr rfl)⟩
      obtain ⟨r, hr, rfl⟩ := Option.map_eq_some_iff.mp hr'
      have hs := hrow r hr
      obtain ⟨-, hdisp, hproc⟩ := hs.pending (by simp) (by simp)
      exact ⟨by simpa [Stmt.assign] using hs.attempts, by simp [Stmt.assign],
        by simp [Stmt.assign, hdisp], by simp [Stmt.assign, hproc], fun _ => rfl⟩
    · have hlt : k < target.maxAttempts := lt_of_le_of_ne hle hlast
      refine .inr ⟨_, ⟨k, due₁, .waiting⟩, rfl, .again k due₁ now hlt, fun r' hr' => ?_, .inl rfl⟩
      obtain ⟨r, hr, rfl⟩ := Option.map_eq_some_iff.mp hr'
      have hs := hrow r hr
      obtain ⟨-, hdisp, hproc⟩ := hs.pending (by simp) (by simp)
      exact shows_of_pending ⟨by simpa [Stmt.assign] using hlt, hdisp, hproc⟩ (by simp) (by simp)
        (by simpa [Stmt.assign] using hs.attempts) fun _ => rfl

/-- **One step** leaves the delivery where it is or takes it on, unless its row is inserted. -/
theorem moves_step (hv : ValidTarget target) (hm : target.mode = .managed) {v v' : View}
    {marks : List Mark} (h : ViewStep config s d a v marks v') (ha : NoOperator d a)
    (hk : ∀ t ∈ v.task, Knows config target t) {life : Life} (hle : life.calls ≤ target.maxAttempts)
    (hpos : life.stage = .calling → 1 ≤ life.calls) (ht : Tracks target.maxAttempts s.now v life) :
    Moves target s.now life marks v' ∨
      ∃ p b u, ∃ n : NewDelivery, a = .sched p b ∧ s.db.deliverySeq ≤ d ∧ marks = [] ∧
        v' = ⟨none, some (n.row d u s.now)⟩ := by
  obtain ⟨hrow, htask⟩ := id ht
  obtain ⟨k, due₁, stage⟩ := life
  cases h with
  | keep => exact .inl (.inl ⟨rfl, ht⟩)
  | inserted p b u n hd => exact .inr ⟨p, b, u, n, rfl, hd, rfl, rfl⟩
  | fetched t r hp hdue hatt => exact .inl (moves_fetch (hrow r rfl) htask hp hdue hatt)
  | examined t due r hp hx | computeLock t due _ r hp =>
    simp only [Attends, hp] at htask
    exact .inl (.inl ⟨rfl, hrow, htask⟩)
  | poisoned t reason r hp hx =>
    obtain ⟨due, hdue⟩ := (hk t rfl).examined
    rw [hx] at hdue
    cases hdue
  | lock t due u r hp hg => exact .inl (moves_lock (hrow r rfl) htask hp)
  | lockPanicked t due r hp | lockRefused t due _ r hp =>
    simp only [Attends, hp] at htask
    exact .inl (.inl ⟨rfl, hrow, .inl htask.1⟩)
  | call t due u r hp => exact .inl (moves_call (hk t rfl) ht hp)
  | answer t due u r result jitter stmt hp hj hw =>
    exact .inl (moves_answer hv hm (hk t rfl) ht hpos hp hj hw)
  | wroteBack t due u stmt r hp => exact .inl (moves_writeBack ht hle hp)
  | swept t r maxCycles hl =>
    -- a hung row is dispatched and not processed
    have hs := hrow r rfl
    obtain ⟨-, hdisp, hnone, -⟩ := externalPending_of_hungLimit hl
    have hproc := hs.processed.mpr (hs.dispatched.mp hdisp)
    simp [hnone] at hproc
  | retried => exact absurd rfl ha.1
  | completed => exact absurd rfl ha.2.1
  | abandoned => exact absurd rfl ha.2.2
  | deleted t r => exact .inl (.inl ⟨rfl, by simp, htask⟩)

/-! ### Every run -/

/-- There is one dispatcher, in which nothing goes wrong, and nobody else writes the row. -/
def Solitary (d : ℤ) (p : Sys × List (Time × Mark)) (a : Action) (_ : Sys × List (Time × Mark)) :
    Prop := Alone p.1 a ∧ NoOperator d a

instance (d : ℤ) (p : Sys × List (Time × Mark)) (a : Action) (p' : Sys × List (Time × Mark)) :
    Decidable (Solitary d p a p') := inferInstanceAs (Decidable (_ ∧ _))

def BornPending (s : Sys) (d : ℤ) : Prop := ∀ i ∈ s.issued, i.id = d → i.deadLetter = false

instance (s : Sys) (d : ℤ) : Decidable (BornPending s d) :=
  inferInstanceAs (Decidable (∀ i ∈ s.issued, i.id = d → i.deadLetter = false))

/-- The delivery has gone a way that the specification allows. -/
structure Follows (config : DispatchConfig) (d : ℤ) (target : CallbackTarget)
    (p : Sys × List (Time × Mark)) : Prop extends Seen config d p where
  path : TargetIs config p.1 d target → BornPending p.1 d → ∃ due₀ life,
    Path (Next target.maxAttempts target.backoff) ⟨0, due₀, .waiting⟩ p.2 life ∧
      Tracks target.maxAttempts p.1.now (view p.1 d) life

theorem follows_path_step (hv : ValidTarget target) (hm : target.mode = .managed)
    {record : List (Time × Mark)} (hi : Follows config d target (s, record))
    (hs : step config s a = some s') (ha : Alone s a) (hu : NoOperator d a)
    (ht : TargetIs config s' d target) (hb : BornPending s' d) :
    ∃ due₀ life, Path (Next target.maxAttempts target.backoff) ⟨0, due₀, .waiting⟩
      ((marks config d s a s').map (s.now, ·) ++ record) life ∧
      Tracks target.maxAttempts s'.now (view s' d) life := by
  have h := step_cases hs
  have ht₀ := targetIs_before h ht
  obtain ⟨due₀, life, hpath, htracks⟩ := hi.path ht₀ fun i hm' => hb i (issued_subset h hm')
  have hknows : ∀ t ∈ (view s d).task, Knows config target t :=
    fun t hmem => knows_of_targetIs hi.wf ht₀ hmem
  have hpos : life.stage = .calling → 1 ≤ life.calls := by
    intro hc
    have hf := failures_of_path hpath
    simp only [hc] at hf
    omega
  rcases moves_step hv hm (view_step hi.wf hi.single hs ha d) hu hknows
    (calls_le_of_path hv.maxAttempts.1 hpath).1 hpos htracks with
    (⟨hmarks, htr⟩ | ⟨x, life', hmarks, hnext, htr⟩) | ⟨p, b, u, n, rfl, hd, hmarks, hview⟩
  · exact ⟨due₀, life, by simpa [hmarks] using hpath, htr.later (now_le h)⟩
  · exact ⟨due₀, life', by simpa [hmarks] using hpath.cons hnext, htr.later (now_le h)⟩
  · -- the life of the delivery begins
    have hrec : record = [] := hi.fresh hd
    have hnone : s.db.deliveries.get d = none := congrArg View.row (view_of_fresh hi.wf hd)
    have hget : s'.db.deliveries.get d = some (n.row d u s.now) := congrArg View.row hview
    have hdead : n.deadLetter = false := hb _ (issued_of_inserted h hnone hget) rfl
    refine ⟨s.now, ⟨0, s.now, .waiting⟩, by rw [hmarks, hrec]; exact .nil, ?_⟩
    rw [hview]
    refine ⟨fun r hr => ?_, .inl rfl⟩
    obtain rfl := Option.some.inj hr
    exact shows_of_pending ⟨hdead, rfl, rfl⟩ nofun nofun rfl fun _ => rfl

theorem follows_step (hv : ValidTarget target) (hm : target.mode = .managed)
    {p p' : Sys × List (Time × Mark)} (hi : Follows config d target p)
    (h : observed config d p a = some p') (hok : Solitary d p a p') :
    Follows config d target p' := by
  refine ⟨seen_step hi.toSeen h hok.1, fun ht hb => ?_⟩
  obtain ⟨hs, hrec⟩ := recorded_eq_some.mp h
  rw [hrec]
  exact follows_path_step hv hm hi hs hok.1 hok.2 ht hb

/-- **Every managed delivery follows the specification.** -/
theorem follows_of_run (hv : ValidTarget target) (hm : target.mode = .managed) {now : Time}
    {scheds : ℕ → Sched} (hq : Quiet scheds) {p : Sys × List (Time × Mark)}
    (h : Run (observed config d) (Solitary d) (init now scheds, []) p) :
    Follows config d target p := by
  refine h.invariant (Follows config d target) ?_ fun _ _ _ hi hs hok =>
    follows_step hv hm hi hs hok
  refine ⟨seen_init now hq, fun _ _ => ⟨0, ⟨0, 0, .waiting⟩, .nil, ?_, .inl rfl⟩⟩
  simp [view, init, Db.empty, Table.get]

/-- **The life of a managed delivery.** There is one dispatcher, it does not crash and its
statements succeed; the row was inserted to be delivered, and nobody else writes it. Then in every
state reached:

* the calls are numbered from one on, and there are at most `max_attempts` of them;
* after a success there is no call;
* the row is dead-lettered iff `max_attempts` failures have been written back, dispatched iff a
  success has, and processed iff it is dispatched;
* after the last failure the row is due in the window of the schedule, and it was due when it was
  called. -/
theorem managed_lifecycle {now : Time} {scheds : ℕ → Sched} (hq : Quiet scheds)
    {p : Sys × List (Time × Mark)}
    (h : Run (observed config d) (Solitary d) (init now scheds, []) p)
    (ht : HasTarget config p.1 d target) (hb : BornPending p.1 d) (hv : ValidTarget target)
    (hm : target.mode = .managed) :
    (∃ n ≤ target.maxAttempts, callNumbers p.2 = (List.range n).map fun k : ℕ => (k : ℤ) + 1) ∧
    (∀ l t l', p.2 = l ++ (t, .answer .ok) :: l' → ∀ x ∈ l, x.2 = .wroteBack) ∧
    ∀ r, p.1.db.deliveries.get d = some r →
      (r.deadLetter ↔ WrittenBack p.2 ∧ failures p.2 = target.maxAttempts) ∧
      (r.dispatchedAt.isSome ↔ WrittenBack p.2 ∧ Answered p.2) ∧
      (r.processedAt.isSome ↔ WrittenBack p.2 ∧ Answered p.2) ∧
      (∀ t retryAfter, lastFailure p.2 = some (t, retryAfter) →
        (∀ x ∈ p.2.head?, failure? x = none) →
          InWindow t (retryDelay target.backoff (failures p.2) retryAfter) r.availableAt) ∧
      ∀ t n l, p.2 = (t, .call n) :: l → r.availableAt ≤ t := by
  have hi := follows_of_run hv hm hq h
  obtain ⟨due₀, life, hpath, htracks⟩ := hi.path (targetIs_of_hasTarget hi.wf ht) hb
  refine ⟨⟨life.calls, (calls_le_of_path hv.maxAttempts.1 hpath).1, callNumbers_of_path hpath⟩,
    fun l t l' heq => after_answered hpath heq, fun r hr => ?_⟩
  have hs := htracks.row r hr
  refine ⟨?_, ?_, ?_, fun t retryAfter hlast hhead => ?_, fun t n l heq => ?_⟩
  · rw [hs.deadLetter, dead_iff_of_path hv.maxAttempts.1 hpath]
  · rw [hs.dispatched, delivered_iff_of_path hpath]
  · rw [hs.processed, delivered_iff_of_path hpath]
  · rw [hs.availableAt (stage_of_path hpath hhead)]
    exact inWindow_of_path hpath hlast
  · have hhead : ∀ x ∈ p.2.head?, failure? x = none := by simp [heq, failure?]
    rw [hs.availableAt (stage_of_path hpath hhead)]
    exact due_of_path hpath heq

end

/-- Both attempts of a delivery fail, the first with a `Retry-After` of two minutes. -/
def twoFailures : List Action :=
  [.publish (sampleEvent 1 [sampleCallback "hook_a" [("max_attempts", .int 2)]]), .commit 1,
    .sched 0 .poll, .sched 0 (.write .ok), .sched 0 .next, .fetch, .task 0 (.examine .ok),
    .task 0 .computeLock, .task 0 (.lock .ok), .task 0 .deliver,
    .task 0 (.respond (.transient "503" (some (fromSecs 120))) (1 / 8)), .task 0 (.writeBack .ok),
    .tick (fromSecs 135), .fetch, .task 1 (.examine .ok), .task 1 .computeLock, .task 1 (.lock .ok),
    .task 1 .deliver, .task 1 (.respond .timeout 0), .task 1 (.writeBack .ok)]

theorem managed_lifecycle_twoFailures :
    ∃ p, Run (@observed sampleCrates {} 1) (Solitary 1) (init 0 oneScheduler, []) p ∧
      callNumbers p.2 = [1, 2] ∧ ∃ r, p.1.db.deliveries.get 1 = some r ∧ r.deadLetter := by
  have hex : ∃ p, Run (@observed sampleCrates {} 1) (Solitary 1) (init 0 oneScheduler, []) p ∧
      callNumbers p.2 = [1, 2] ∧ failures p.2 = 2 ∧ p.2.head?.any (·.2 = .wroteBack) ∧
      (p.1.db.deliveries.get 1).isSome ∧ BornPending p.1 1 ∧
      (@targets sampleCrates {} p.1 1).any fun target => target.mode = .managed ∧
      target.maxAttempts = 2 :=
    Run.exists_of_exec twoFailures (by decide +kernel)
  obtain ⟨p, hrun, hcalls, hfail, hhead, hr, hb, hx⟩ := hex
  obtain ⟨target, hmem, hx⟩ := List.any_eq_true.mp hx
  obtain ⟨hmode, hmax⟩ := of_decide_eq_true hx
  have ht := @hasTarget_of_mem_targets sampleCrates _ _ _ _ hmem
  have hv := @validTarget_of_hasTarget sampleCrates _ _ _ validConfig_default _ ht
  obtain ⟨r, hr⟩ := Option.isSome_iff_exists.mp hr
  have hwb : WrittenBack p.2 := by
    obtain ⟨⟨t, mark⟩, hx, hmark⟩ := (Option.any_eq_true _ _).mp hhead
    obtain ⟨l, hl⟩ := List.head?_eq_some_iff.mp hx
    obtain rfl : mark = .wroteBack := of_decide_eq_true hmark
    exact ⟨t, l, hl⟩
  have hlife :=
    @managed_lifecycle sampleCrates {} 1 target 0 _ quiet_oneScheduler p hrun ht hb hv hmode
  exact ⟨p, hrun, hcalls, r, hr, (hlife.2.2 r hr).1.mpr ⟨hwb, hfail.trans hmax.symm⟩⟩

end OutboxDispatcher.Dispatch.Lifecycle
