import OutboxDispatcher.Dispatch.StaleWriteBack
import OutboxDispatcher.System.Counts

/-! # The attempt a dispatcher believes to make

`lock_delivery` counts the attempt in the row, but does not return the count. `dispatch_one` goes on
with the value it read when it fetched the row: it is what the receiver is told, what the backoff is
computed from, and what decides on the dead letter. Between the two the row waits in a batch, where
another dispatcher may make its own attempt, and the sweep or an operator may reset the row.

* `deadLetter_by_true_count`: as long as a lock is granted only to a dispatcher since whose fetch
  nobody has locked or reset the row, the two counts agree, and rows are dead-lettered by the true
  one.
* `deadLetter_by_stale_count`: a row that was reset while it waited in a batch is dead-lettered on
  its first new attempt. -/

namespace OutboxDispatcher.Dispatch.AttemptCount

open OutboxDispatcher.Lib.Runs OutboxDispatcher.Lib.Tables OutboxDispatcher.Lib.Traces
open OutboxDispatcher.Schema OutboxDispatcher.Callbacks.Fields OutboxDispatcher.Callbacks.Limits
open OutboxDispatcher.Repo.Database OutboxDispatcher.Repo.Statements OutboxDispatcher.Scheduler.Pass
open OutboxDispatcher.Dispatch OutboxDispatcher.Dispatch.Exclusion
open OutboxDispatcher.Dispatch.StaleWriteBack OutboxDispatcher.System
  OutboxDispatcher.System.Effects
open OutboxDispatcher.System.History OutboxDispatcher.System.Rows OutboxDispatcher.System.Counts

/-! ### A record of fetches, locks and resets -/

/-- What bears on the number of attempts. -/
inductive Entry
  /-- The row of the task is fetched. -/
  | fetched (tid : ℕ)
  /-- The task locks the row `d`, and leaves this in its column `attempts`. -/
  | locked (tid : ℕ) (d : ℤ) (attempts : ℤ)
  | reset (d : ℤ)
  deriving DecidableEq

def touches (d : ℤ) : Entry → Bool
  | .fetched _ => false
  | .locked _ d' _ | .reset d' => d' = d

def isLockBy (tid : ℕ) (d : ℤ) : Entry → Bool
  | .locked tid' d' _ => tid' = tid && d' = d
  | _ => false

def entryOf (s' : Sys) : Obs → Option Entry
  | .locked tid d => some (.locked tid d (((s'.db.deliveries.get d).map (·.attempts)).getD 0))
  | .retryReset d | .sweepReset d => some (.reset d)
  | _ => none

def entries (s : Sys) (a : Action) (s' : Sys) : List Entry :=
  match a with
  | .fetch => (s'.tasks.rows.filter (s.nextTid ≤ ·.tid)).map fun t => .fetched t.tid
  | _ => (newObs s s').filterMap (entryOf s')

def audited [Crates] (config : DispatchConfig) : Sys × List Entry → Action →
    Option (Sys × List Entry) := recorded (step config) entries

/-- A failure that dead-letters the row. -/
def exhausts : Stmt → Bool
  | .markFailure _ _ deadLetter => deadLetter
  | _ => false

/-- Since the dispatcher fetched the row nobody has locked or reset it, when it is granted the lock;
and the row is not reset between the lock and the record of the last failure. -/
def Undisturbed (p : Sys × List Entry) (a : Action) (_ : Sys × List Entry) : Prop :=
  (∀ x ∈ locks? p.1 a, Since (· = .fetched x.1.tid) (touches x.2.deliveryId ·) p.2) ∧
    ∀ x ∈ writesBack? p.1 a, exhausts x.2.2 →
      Since (isLockBy x.1.tid x.2.1.deliveryId ·) (· = .reset x.2.1.deliveryId) p.2

instance (p : Sys × List Entry) (a : Action) (p' : Sys × List Entry) :
    Decidable (Undisturbed p a p') :=
  inferInstanceAs (Decidable (_ ∧ _))

/-! ### What a step records -/

section

variable [Crates] {config : DispatchConfig} {s s' : Sys} {a : Action} {d : ℤ}

omit [Crates] in
theorem mem_entries_of_obs {obs : List Obs} {o : Obs} {e : Entry} (ha : a ≠ .fetch)
    (htr : s'.trace = obs ++ s.trace) (ho : o ∈ obs) (he : entryOf s' o = some e) :
    e ∈ entries s a s' := by
  have hmem : e ∈ (newObs s s').filterMap (entryOf s') := by
    rw [newObs_eq htr]
    exact List.mem_filterMap.mpr ⟨o, ho, he⟩
  cases a with
  | fetch => exact absurd rfl ha
  | _ => exact hmem

theorem entries_cases (h : Step config s a s') {e : Entry} (he : e ∈ entries s a s') :
    (a = .fetch ∧ ∃ t ∈ s'.tasks.rows, s.nextTid ≤ t.tid ∧ e = .fetched t.tid) ∨
      ∃ obs, s'.trace = obs ++ s.trace ∧ ∃ o ∈ obs, entryOf s' o = some e := by
  obtain ⟨obs, htr, -⟩ := trace_step h
  have hseen : e ∈ (newObs s s').filterMap (entryOf s') →
      ∃ obs, s'.trace = obs ++ s.trace ∧ ∃ o ∈ obs, entryOf s' o = some e := by
    intro hm
    rw [newObs_eq htr] at hm
    exact ⟨obs, htr, List.mem_filterMap.mp hm⟩
  cases a with
  | fetch =>
    obtain ⟨t, ht, rfl⟩ := List.mem_map.mp he
    obtain ⟨ht, hle⟩ := List.mem_filter.mp ht
    exact .inl ⟨rfl, t, ht, of_decide_eq_true hle, rfl⟩
  | _ => exact .inr (hseen he)

/-- A lock in the record is the lock of the step, and counts one more attempt. -/
theorem locked_entry (h : Step config s a s') {tid : ℕ} {n : ℤ}
    (he : .locked tid d n ∈ entries s a s') :
    ∃ t ∈ s.tasks.rows, ∃ due u r, locks? s a = some (t, due) ∧ t.tid = tid ∧
      t.phase = .locking due u ∧ due.deliveryId = d ∧ s.db.deliveries.get d = some r ∧
      n = r.attempts + 1 ∧ ∃ r', s'.db.deliveries.get d = some r' ∧ r'.attempts = n := by
  rcases entries_cases h he with ⟨-, t, -, -, heq⟩ | ⟨obs, htr, o, ho, heq⟩
  · cases heq
  · cases o with
    | locked tid' d' =>
      obtain ⟨rfl, rfl, hn⟩ := Entry.locked.inj (Option.some.inj heq)
      obtain ⟨t, ht, due, u, r, hl, hid, hp, hd, hr, hr'⟩ := locks?_of_obs h htr ho
      have hn : n = r.attempts + 1 := by rw [← hn, hr']; rfl
      exact ⟨t, ht, due, u, r, hl, hid, hp, hd, hr, hn, _, hr', hn.symm⟩
    | _ => cases heq

theorem attempts_of_untouched (hw : WF config s) (h : Step config s a s')
    (hno : ∀ e ∈ entries s a s', ¬touches d e) {r r' : DeliveryRow}
    (hr : s.db.deliveries.get d = some r) (hr' : s'.db.deliveries.get d = some r') :
    r'.attempts = r.attempts := by
  obtain ⟨obs, htr, hobs⟩ := trace_step h
  have hfetch : ∀ o ∈ obs, a ≠ .fetch := by
    rintro o ho rfl
    cases hobs o ho
  have hnot : ∀ o ∈ obs, ∀ e, entryOf s' o = some e → ¬touches d e := fun o ho e he =>
    hno e (mem_entries_of_obs (hfetch o ho) htr ho he)
  cases attempts_step hw h htr hr hr' with
  | same heq => exact heq
  | lock _ tid hone =>
    have ho : Obs.locked tid d ∈ obs := by simp [hone]
    exact absurd (by simp [touches]) (hnot _ ho _ rfl)
  | reset _ _ hres =>
    obtain ⟨o, ho, hres⟩ := hres
    cases o with
    | retryReset d' | sweepReset d' =>
      exact absurd (by simpa [isReset, touches] using hres) (hnot _ ho _ rfl)
    | _ => simp [isReset] at hres

/-- Where no reset is recorded, the count does not start again. -/
theorem locksSince_le (h : Step config s a s') (hno : .reset d ∉ entries s a s') :
    locksSince d s.trace ≤ locksSince d s'.trace := by
  obtain ⟨obs, htr, hobs⟩ := trace_step h
  have hnot : ∀ o ∈ obs, isReset d o = false := by
    intro o ho
    by_contra hres
    have hfetch : a ≠ .fetch := by
      rintro rfl
      cases hobs o ho
    cases o with
    | retryReset d' | sweepReset d' =>
      obtain rfl : d' = d := by simpa [isReset] using hres
      exact hno (mem_entries_of_obs hfetch htr ho rfl)
    | _ => simp [isReset] at hres
  rw [htr, locksSince, countSince_append hnot]
  exact Nat.le_add_left _ _

/-! ### The invariant -/

/-- What the record says of the tasks and of the receivers' calls. -/
structure Audit (s : Sys) (log : List Entry) : Prop where
  /-- A row that waits for its lock undisturbed has the count that was fetched. -/
  waiting : ∀ t ∈ s.tasks.rows, t.phase.held? = none →
    Since (· = .fetched t.tid) (touches t.row.deliveryId ·) log →
      ∀ r ∈ s.db.deliveries.get t.row.deliveryId, r.attempts = t.row.attempts
  held : ∀ t d u, Holds s t d u → .locked t.tid d (t.row.attempts + 1) ∈ log
  call : ∀ tid event, .deliver tid event ∈ s.trace →
    .locked tid event.deliveryId event.attempt ∈ log
  /-- A task locks once. -/
  once : ∀ tid d n, .locked tid d n ∈ log →
    tid < s.nextTid ∧ ∀ t ∈ s.tasks.rows, t.tid = tid → t.phase.held?.isSome
  unique : ∀ tid d n d' n', .locked tid d n ∈ log → .locked tid d' n' ∈ log → d = d' ∧ n = n'
  count : ∀ tid d, Since (isLockBy tid d ·) (· = .reset d) log →
    ∃ n : ℤ, .locked tid d n ∈ log ∧ n ≤ locksSince d s.trace

theorem row_of_tid (hw : WF config s) (h : Step config s a s') {t t₀ : Task}
    (ht : t ∈ s'.tasks.rows) (ht₀ : t₀ ∈ s.tasks.rows) (hid : t₀.tid = t.tid) : t.row = t₀.row := by
  rcases h.tasks ht with ⟨hold, -⟩ | ⟨-, -, hle, -⟩ | ⟨t₁, ht₁, b, obs, -, heq, -⟩
  · rw [Table.eq_of_key ht₀ hold hid]
  · exact absurd (hw.tasks.tid_lt t₀ ht₀) (not_lt.mpr (hid ▸ hle))
  · have hid₁ : t₁.tid = t₀.tid := by rw [hid, heq]
    rw [heq, Table.eq_of_key ht₁ ht₀ hid₁]

omit [Crates] in
theorem held?_eq_none_iff (p : Phase) : p.held? = none ↔ 4 ≤ left p := by
  cases p <;> simp [Phase.held?, left]

theorem waiting_step {log : List Entry} (hw : WF config s) (hi : Audit s log)
    (h : Step config s a s') {t : Task} (ht : t ∈ s'.tasks.rows) (hwait : t.phase.held? = none)
    (hsince : Since (· = .fetched t.tid) (touches t.row.deliveryId ·) (entries s a s' ++ log))
    {r' : DeliveryRow} (hr' : s'.db.deliveries.get t.row.deliveryId = some r') :
    r'.attempts = t.row.attempts := by
  -- the task was waiting before, or it has been fetched in this step
  have hcases : (∃ t₀ ∈ s.tasks.rows, t₀.tid = t.tid ∧ t₀.row = t.row ∧ t₀.phase.held? = none) ∨
      (a = .fetch ∧ ∃ r ∈ s.db.deliveries.rows, t.row.deliveryId = r.id ∧
      t.row.attempts = r.attempts) := by
    rcases h.tasks ht with ⟨hold, -⟩ | ⟨ha, -, -, -, r, hr, -, e, -, -, hrow⟩ |
      ⟨t₀, ht₀, b, obs, -, heq, hs, -⟩
    · exact .inl ⟨t, hold, rfl, rfl, hwait⟩
    · exact .inr ⟨ha, r, hr, by rw [hrow], by rw [hrow]⟩
    · exact .inl ⟨t₀, ht₀, by rw [heq], by rw [heq], earlier_of_taskStep held?_eq_none_iff hs hwait⟩
  rcases hcases with ⟨t₀, ht₀, hid, hrow, hwait₀⟩ | ⟨rfl, r, hr, hd, hn⟩
  · rw [← hrow] at hr' hsince ⊢
    rw [← hid] at hsince
    rcases since_append hsince with ⟨e, he, rfl⟩ | ⟨hold, hno⟩
    · rcases entries_cases h he with ⟨-, t₁, -, hle, heq⟩ | ⟨obs, -, o, -, heq⟩
      · rw [← Entry.fetched.inj heq] at hle
        exact absurd (hw.tasks.tid_lt t₀ ht₀) (not_lt.mpr hle)
      · cases o <;> simp [entryOf] at heq
    · have hlt := hw.tasks.id_lt hw.issued ht₀
      rcases hr : s.db.deliveries.get t₀.row.deliveryId with _ | r
      · have hrs := row_step h t₀.row.deliveryId
        rw [hr, hr'] at hrs
        cases hrs with
        | inserted p b u n hle => exact absurd hlt (not_lt.mpr hle)
      · rw [attempts_of_untouched hw h hno hr hr']
        exact hi.waiting t₀ ht₀ hwait₀ hold r hr
  · cases h with
    | fetch rows hf =>
      rw [hd] at hr'
      rw [hn, ← Option.some.inj ((Table.get_of_mem hr).symm.trans hr')]

/-- The lock of an undisturbed dispatcher leaves the count it believes in. -/
theorem held_step {log : List Entry} (hw : WF config s) (hi : Audit s log) (h : Step config s a s')
    (hok : ∀ x ∈ locks? s a, Since (· = .fetched x.1.tid) (touches x.2.deliveryId ·) log)
    {t : Task} {u : Time} (ht : Holds s' t d u) :
    .locked t.tid d (t.row.attempts + 1) ∈ entries s a s' ++ log := by
  rcases holds_step hw h ht with ⟨t₀, hold, htid, -⟩ | ⟨b, r, ha, hr, -, hr', htr⟩
  · rw [← htid, row_of_tid hw h ht.1 hold.1 htid]
    exact List.mem_append_right _ (hi.held t₀ d u hold)
  · have htr : s'.trace = [.locked t.tid d] ++ s.trace := htr
    obtain ⟨t₁, ht₁, due, u₁, r₁, hl, htid, hp, hd, -, -⟩ :=
      locks?_of_obs h htr (List.mem_singleton_self _)
    have hid : t₁.row.deliveryId = d := (hw.examined ht₁ (by rw [hp]; rfl)).deliveryId.symm.trans hd
    have hcount : r.attempts = t₁.row.attempts := by
      refine hi.waiting t₁ ht₁ (by rw [hp]; rfl) ?_ r (hid ▸ hr)
      rw [hid, ← hd]
      exact hok (t₁, due) hl
    refine List.mem_append_left _
      (mem_entries_of_obs (by simp [ha]) htr (List.mem_singleton_self _) ?_)
    rw [entryOf, hr', row_of_tid hw h ht.1 ht₁ htid, ← hcount]
    rfl

theorem call_step {log : List Entry} (hw : WF config s) (hi : Audit s log) (h : Step config s a s')
    {tid : ℕ} {event : EventForDelivery} (ho : .deliver tid event ∈ s'.trace) :
    .locked tid event.deliveryId event.attempt ∈ entries s a s' ++ log := by
  obtain ⟨obs, htr, hobs⟩ := trace_step h
  rw [htr, List.mem_append] at ho
  refine List.mem_append_right _ ?_
  rcases ho with ho | ho
  · have hstep := hobs _ ho
    generalize hoo : Obs.deliver tid event = o at hstep
    cases hstep with
    | deliver t due u ht hp =>
      obtain ⟨rfl, rfl⟩ := Obs.deliver.inj hoo
      have hx : Examined config t.row due := hw.examined ht (by rw [hp]; rfl)
      have hheld := hi.held t _ u ⟨ht, hx.deliveryId.symm, by rw [hp]; rfl⟩
      rw [← hx.attempts] at hheld
      exact hheld
    | _ => cases hoo
  · exact hi.call tid event ho

theorem held_of_lock {now : Time} {db db' : Db} {t : Task} {fault : Fault} {p : Phase}
    {obs : List Obs}
    (h : TaskStep config now db t (.lock fault) db' (some p) obs) : p.held?.isSome := by
  generalize hq : some p = q at h
  cases h with
  | lock => cases hq; rfl
  | _ => cases hq

/-- After its lock a task holds the row, as long as it is there. -/
theorem once_step {log : List Entry} (hw : WF config s) (hi : Audit s log) (h : Step config s a s')
    {tid : ℕ} {n : ℤ} (he : .locked tid d n ∈ entries s a s' ++ log) :
    tid < s'.nextTid ∧ ∀ t ∈ s'.tasks.rows, t.tid = tid → t.phase.held?.isSome := by
  rcases List.mem_append.mp he with he | he
  · obtain ⟨t₀, ht₀, due, u, r, hl, rfl, -⟩ := locked_entry h he
    obtain ⟨-, fault, -, -, rfl, -⟩ := locks?_eq_some hl
    refine ⟨(hw.tasks.tid_lt t₀ ht₀).trans_le (nextTid_le h), fun t ht hid => ?_⟩
    rcases h.tasks ht with ⟨-, hne⟩ | ⟨ha, -⟩ | ⟨t₁, -, b, obs, ha, -, hs, -⟩
    · exact absurd rfl (hid ▸ hne (.lock fault))
    · cases ha
    · rw [← (Action.task.inj ha).2] at hs
      exact held_of_lock hs
  · obtain ⟨hlt, hheld⟩ := hi.once tid d n he
    refine ⟨hlt.trans_le (nextTid_le h), fun t ht hid => ?_⟩
    rcases h.tasks ht with ⟨hold, -⟩ | ⟨-, -, hle, -⟩ | ⟨t₁, ht₁, b, obs, -, heq, hs, -⟩
    · exact hheld t hold hid
    · exact absurd hlt (not_lt.mpr (hid ▸ hle))
    · have hold := hheld t₁ ht₁ (by rw [← hid, heq])
      by_contra hnone
      rw [earlier_of_taskStep held?_eq_none_iff hs (by simpa using hnone)] at hold
      cases hold

theorem unique_step {log : List Entry} (hi : Audit s log) (h : Step config s a s') {tid : ℕ}
    {d' n n' : ℤ} (he : .locked tid d n ∈ entries s a s' ++ log)
    (he' : .locked tid d' n' ∈ entries s a s' ++ log) : d = d' ∧ n = n' := by
  -- a task that locks now has not locked before
  have hnew : ∀ {d n d' n'}, .locked tid d n ∈ entries s a s' → .locked tid d' n' ∉ log := by
    intro d n d' n' he he'
    obtain ⟨t, ht, due, u, r, -, htid, hp, -⟩ := locked_entry h he
    have hheld := (hi.once tid d' n' he').2 t ht htid
    rw [hp] at hheld
    cases hheld
  rcases List.mem_append.mp he with he | he <;> rcases List.mem_append.mp he' with he' | he'
  · obtain ⟨t, -, due, u, r, hl, -, -, hd, hr, hn, -⟩ := locked_entry h he
    obtain ⟨t', -, due', u', r', hl', -, -, hd', hr', hn', -⟩ := locked_entry h he'
    rw [hl] at hl'
    cases hl'
    rw [hd] at hd'
    subst hd'
    rw [hr] at hr'
    cases hr'
    exact ⟨rfl, hn.trans hn'.symm⟩
  · exact absurd he' (hnew he)
  · exact absurd he (hnew he')
  · exact hi.unique tid d n d' n' he he'

theorem count_step {log : List Entry} (hi : Audit s log) (hcount : Counted s')
    (h : Step config s a s')
    {tid : ℕ} (hs : Since (isLockBy tid d ·) (· = .reset d) (entries s a s' ++ log)) :
    ∃ n : ℤ, .locked tid d n ∈ entries s a s' ++ log ∧ n ≤ locksSince d s'.trace := by
  rcases since_append hs with ⟨e, he, hby⟩ | ⟨hold, hno⟩
  · cases e with
    | locked tid' d' n =>
      obtain ⟨rfl, rfl⟩ : tid' = tid ∧ d' = d := by simpa [isLockBy] using hby
      obtain ⟨-, -, -, -, -, -, -, -, -, -, -, r', hr', hn⟩ := locked_entry h he
      exact ⟨n, List.mem_append_left _ he, by rw [← hn, hcount.attempts _ r' hr']⟩
    | _ => cases hby
  · obtain ⟨n, he, hle⟩ := hi.count tid d hold
    have hgrow := locksSince_le h (fun hr => hno _ hr rfl)
    exact ⟨n, List.mem_append_right _ he, hle.trans (by exact_mod_cast hgrow)⟩

theorem audit_step {log : List Entry} (hw : WF config s) (hcount : Counted s') (hi : Audit s log)
    (h : Step config s a s')
    (hok : ∀ x ∈ locks? s a, Since (· = .fetched x.1.tid) (touches x.2.deliveryId ·) log) :
    Audit s' (entries s a s' ++ log) where
  waiting := fun _ ht hwait hs _ hr => waiting_step hw hi h ht hwait hs hr
  held := fun _ _ _ ht => held_step hw hi h hok ht
  call := fun _ _ ho => call_step hw hi h ho
  once := fun _ _ _ he => once_step hw hi h he
  unique := fun _ _ _ _ _ he he' => unique_step hi h he he'
  count := fun _ _ hs => count_step hi hcount h hs

omit [Crates] in
theorem audit_init (now : Time) (scheds : ℕ → Sched) : Audit (init now scheds) [] where
  waiting := by simp [init]
  held := fun t d u h => by simp [Holds, init] at h
  call := by simp [init]
  once := by simp
  unique := by simp
  count := fun _ _ h => absurd h not_since_nil

theorem audit_of_run {now : Time} {scheds : ℕ → Sched} (hq : Quiet scheds) {p : Sys × List Entry}
    (h : Run (audited config) Undisturbed (init now scheds, []) p) :
    WF config p.1 ∧ Counted p.1 ∧ Audit p.1 p.2 := by
  refine h.invariant (fun p => WF config p.1 ∧ Counted p.1 ∧ Audit p.1 p.2)
    ⟨wf_init now hq, counted_init now scheds, audit_init now scheds⟩ ?_
  rintro p a p' ⟨hw, hcount, hi⟩ hs hok
  obtain ⟨hs, hlog⟩ := recorded_eq_some.mp hs
  have hstep := step_cases hs
  have hcount' := counted_step hw hcount hstep
  exact ⟨wf_step hw hstep, hcount', hlog ▸ audit_step hw hcount' hi hstep hok.1⟩

/-- **Dead letters by the true count.** In every run in which locks are granted only to dispatchers
since whose fetch nobody has locked or reset the row, and rows are not reset between a lock and the
record of the last failure: a task locks once, and the attempt its receiver is told is the column as
that lock left it; when the call fails, the row is to be dead-lettered iff that column has reached
the limit; and a failure that dead-letters a row comes after as many attempts, since the row was
inserted or reset, as the limit says. -/
theorem deadLetter_by_true_count {now : Time} {scheds : ℕ → Sched} (hq : Quiet scheds)
    (hc : ValidConfig config) {p : Sys × List Entry}
    (h : Run (audited config) Undisturbed (init now scheds, []) p) :
    (∀ tid d n d' n', .locked tid d n ∈ p.2 → .locked tid d' n' ∈ p.2 → d = d' ∧ n = n') ∧
    (∀ tid event, .deliver tid event ∈ p.1.trace →
      .locked tid event.deliveryId event.attempt ∈ p.2) ∧
    (∀ t ∈ p.1.tasks.rows, ∀ due u error availableAt deadLetter,
      t.phase = .writing due u (.markFailure error availableAt deadLetter) →
        ∃ n : ℤ, .locked t.tid due.deliveryId n ∈ p.2 ∧ (deadLetter ↔ due.target.maxAttempts ≤ n)) ∧
    ∀ a p', audited config p a = some p' → Undisturbed p a p' → ∀ t due stmt,
      writesBack? p.1 a = some (t, due, stmt) → exhausts stmt →
        due.target.maxAttempts ≤ locksSince due.deliveryId p.1.trace := by
  obtain ⟨hw, -, hi⟩ := audit_of_run hq h
  have hfailed : ∀ t ∈ p.1.tasks.rows, ∀ due u error availableAt deadLetter,
      t.phase = .writing due u (.markFailure error availableAt deadLetter) →
        .locked t.tid due.deliveryId (due.attempts + 1) ∈ p.2 ∧
          (deadLetter ↔ (due.target.maxAttempts : ℤ) ≤ due.attempts + 1) := by
    intro t ht due u error availableAt deadLetter hp
    have hheld := hi.held t _ u (holds_writing hw ht hp)
    have htarget := validTarget_of_hasTarget hc (hasTarget_of_task hw ht (by rw [hp]; rfl))
    have hx : Examined config t.row due := hw.examined ht (by rw [hp]; rfl)
    rw [← hx.attempts] at hheld
    refine ⟨hheld, ?_⟩
    rw [← htarget.asI32_maxAttempts]
    exact (hw.tasks.stmt t ht due u _ hp).deadLetter_iff
  refine ⟨hi.unique, hi.call, fun t ht due u error availableAt deadLetter hp =>
    ⟨_, hfailed t ht due u error availableAt deadLetter hp⟩, ?_⟩
  intro a p' _ hok t due stmt hx hex
  obtain ⟨ht, u, fault, hp, -, -⟩ := writesBack?_eq_some hx
  obtain ⟨n, hlocked, hle⟩ := hi.count _ _ (hok.2 _ hx hex)
  cases stmt with
  | markFailure error availableAt deadLetter =>
    obtain ⟨hown, hdead⟩ := hfailed t ht due u error availableAt deadLetter hp
    obtain ⟨-, rfl⟩ := hi.unique _ _ _ _ _ hlocked hown
    exact_mod_cast (hdead.mp hex).trans hle
  | _ => cases hex

end

/-! ### Two attempts -/

/-- The callback is given up after two attempts, and the first one fails. -/
def firstFailure : List Action :=
  [.publish (sampleEvent 1 [sampleCallback "hook_a" [("max_attempts", .int 2)]]), .commit 1,
    .sched 0 .poll, .sched 0 (.write .ok), .sched 0 .next, .fetch, .task 0 (.examine .ok),
    .task 0 .computeLock, .task 0 (.lock .ok), .task 0 .deliver, .task 0 (.respond .timeout 0),
    .task 0 (.writeBack .ok), .tick (fromSecs 60)]

/-- A minute later two dispatchers fetch the row. One is refused the lock; the call of the other
fails, and its failure is the last one. -/
def secondFailure : List Action :=
  [.fetch, .fetch, .task 1 (.examine .ok), .task 2 (.examine .ok), .task 1 .computeLock,
    .task 1 (.lock .ok), .task 2 .computeLock, .task 2 (.lock .ok), .task 1 .deliver,
    .task 1 (.respond .timeout 0)]

theorem deadLetter_by_true_count_secondFailure :
    ∃ p, Run (@audited sampleCrates {}) Undisturbed (init 0 oneScheduler, []) p ∧
      ∃ p' t due stmt, @audited sampleCrates {} p (.task 1 (.writeBack .ok)) = some p' ∧
        Undisturbed p (.task 1 (.writeBack .ok)) p' ∧
        writesBack? p.1 (.task 1 (.writeBack .ok)) = some (t, due, stmt) ∧ exhausts stmt ∧
        due.target.maxAttempts = 2 ∧ 2 ≤ locksSince due.deliveryId p.1.trace := by
  have hex : ∃ p, Run (@audited sampleCrates {}) Undisturbed (init 0 oneScheduler, []) p ∧
      (@audited sampleCrates {} p (.task 1 (.writeBack .ok))).any
        (Undisturbed p (.task 1 (.writeBack .ok)) ·) ∧
      (writesBack? p.1 (.task 1 (.writeBack .ok))).any fun x =>
        exhausts x.2.2 ∧ x.2.1.target.maxAttempts = 2 :=
    Run.exists_of_exec (firstFailure ++ secondFailure) (by decide +kernel)
  obtain ⟨p, hrun, hstep, hx⟩ := hex
  obtain ⟨p', hp', hok⟩ := (Option.any_eq_true _ _).mp hstep
  obtain ⟨⟨t, due, stmt⟩, hw, hx⟩ := (Option.any_eq_true _ _).mp hx
  obtain ⟨hexh, hmax⟩ := of_decide_eq_true hx
  have htrue :=
    (@deadLetter_by_true_count sampleCrates {} 0 _ quiet_oneScheduler validConfig_default p
    hrun).2.2.2 _ p' hp' (of_decide_eq_true hok) t due stmt hw hexh
  exact ⟨p, hrun, p', t, due, stmt, hp', of_decide_eq_true hok, hw, hexh, hmax, hmax ▸ htrue⟩

/-- A dispatcher fetches the row, an operator resets it, and the dispatcher goes on: it locks the
row, and its call fails. -/
def resetInBatch : List Action :=
  [.fetch, .task 1 (.examine .ok), .retry 1, .task 1 .computeLock, .task 1 (.lock .ok),
    .task 1 .deliver, .task 1 (.respond .timeout 0)]

/-- The task tells the receiver of `d` that this is the attempt `n`. -/
def tells (tid : ℕ) (d n : ℤ) : Obs → Bool
  | .deliver tid' event => tid' = tid ∧ event.deliveryId = d ∧ event.attempt = n
  | _ => false

theorem deliver_of_tells {tid : ℕ} {d n : ℤ} {o : Obs} (h : tells tid d n o) :
    ∃ event, o = .deliver tid event ∧ event.deliveryId = d ∧ event.attempt = n := by
  cases o with
  | deliver tid' event =>
    obtain ⟨rfl, hd, hn⟩ := of_decide_eq_true h
    exact ⟨event, rfl, hd, hn⟩
  | _ => cases h

/-- **The count that was fetched decides.** The lock leaves the column at 1, the receiver is told
that the attempt is the second, and the row, which may have two attempts, is dead-lettered after
one. -/
theorem deadLetter_by_stale_count :
    ∃ p, Run (@audited sampleCrates {}) anyStep (init 0 oneScheduler, []) p ∧ .locked 1 1 1 ∈ p.2 ∧
      (∃ event, .deliver 1 event ∈ p.1.trace ∧ event.deliveryId = 1 ∧ event.attempt = 2) ∧
      locksSince 1 p.1.trace = 1 ∧
      ∃ t due stmt, writesBack? p.1 (.task 1 (.writeBack .ok)) = some (t, due, stmt) ∧ t.tid = 1 ∧
        due.target.maxAttempts = 2 ∧ exhausts stmt ∧
        ∃ s', @step sampleCrates {} p.1 (.task 1 (.writeBack .ok)) = some s' ∧
          (s'.db.deliveries.get 1).any fun r => r.attempts = 1 ∧ r.deadLetter := by
  have hex : ∃ p, Run (@audited sampleCrates {}) anyStep (init 0 oneScheduler, []) p ∧
      .locked 1 1 1 ∈ p.2 ∧ p.1.trace.any (tells 1 1 2) ∧ locksSince 1 p.1.trace = 1 ∧
      ((writesBack? p.1 (.task 1 (.writeBack .ok))).any fun x =>
        x.1.tid = 1 ∧ x.2.1.target.maxAttempts = 2 ∧ exhausts x.2.2) ∧
      (@step sampleCrates {} p.1 (.task 1 (.writeBack .ok))).any fun s' =>
        (s'.db.deliveries.get 1).any fun r => r.attempts = 1 ∧ r.deadLetter :=
    Run.exists_of_exec (firstFailure ++ resetInBatch) (by decide +kernel)
  obtain ⟨p, hrun, hlock, hcall, hone, hx, hs⟩ := hex
  refine ⟨p, hrun, hlock, ?_, hone, ?_⟩
  · obtain ⟨o, ho, hcall⟩ := List.any_eq_true.mp hcall
    obtain ⟨event, rfl, hd, hatt⟩ := deliver_of_tells hcall
    exact ⟨event, ho, hd, hatt⟩
  · obtain ⟨⟨t, due, stmt⟩, hw, hx⟩ := (Option.any_eq_true _ _).mp hx
    obtain ⟨htid, hmax, hexh⟩ := of_decide_eq_true hx
    exact ⟨t, due, stmt, hw, htid, hmax, hexh, (Option.any_eq_true _ _).mp hs⟩

end OutboxDispatcher.Dispatch.AttemptCount
