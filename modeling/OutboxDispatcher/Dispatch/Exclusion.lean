import OutboxDispatcher.Lib.Traces
import OutboxDispatcher.System.Rows

/-! # No two dispatchers work on one delivery

Under the assumption that a dispatcher is done with a row before the lock it took on it expires
(`Timely`), the lock excludes: at most one task is between a successful `lock_delivery` and its
write-back for any delivery, and after a success that was written back the receiver is not called
again until the row is reset.

The invariant ties the three things together: as long as a task holds a row, the row carries the
lock of that very task and is not dispatched. Of the statements that write rows only some look at
`locked_until`; the others leave it alone, need `dispatched_at` set (the sweep), belong to the
holder itself (the write-backs), or cannot reach the row at all: the poison-pill guard fires for a
callback that does not parse, and a held row's callback has parsed. -/

namespace OutboxDispatcher.Dispatch.Exclusion

open OutboxDispatcher.Lib.Runs OutboxDispatcher.Lib.Tables OutboxDispatcher.Lib.Traces
open OutboxDispatcher.Schema OutboxDispatcher.Callbacks.Fields OutboxDispatcher.Repo.Database
open OutboxDispatcher.Repo.Statements OutboxDispatcher.Scheduler.Pass OutboxDispatcher.Dispatch
open OutboxDispatcher.System OutboxDispatcher.System.Effects OutboxDispatcher.System.History
open OutboxDispatcher.System.Rows

/-- The task is between a successful `lock_delivery` on the row `d` and its write-back, and the lock
it computed expires at `lockUntil`. -/
def Holds (s : Sys) (t : Task) (d : ℤ) (lockUntil : Time) : Prop :=
  t ∈ s.tasks.rows ∧ t.row.deliveryId = d ∧ t.phase.held? = some lockUntil

/-- No task holds a row past the expiry of its lock. -/
def Timely (s : Sys) : Prop := ∀ t d lockUntil, Holds s t d lockUntil → s.now ≤ lockUntil

theorem timely_iff {s : Sys} :
    Timely s ↔ ∀ t ∈ s.tasks.rows, t.phase.held?.all (s.now ≤ ·) := by
  constructor
  · intro h t ht
    rcases hp : t.phase.held? with _ | u
    · rfl
    · simpa using h t _ u ⟨ht, rfl, hp⟩
  · rintro h t d u ⟨ht, -, hp⟩
    simpa [hp] using h t ht

instance : DecidablePred Timely := fun _ => decidable_of_iff' _ timely_iff

structure Excl (s : Sys) : Prop where
  row : ∀ t d lockUntil r, Holds s t d lockUntil → s.db.deliveries.get d = some r →
    r.lockedUntil = some lockUntil ∧ r.dispatchedAt = none
  unique : ∀ t t' d u u', Holds s t d u → Holds s t' d u' → t = t'

theorem held_due {p : Phase} {u : Time} (h : p.held? = some u) : ∃ due, p.due? = some due := by
  cases p <;> simp_all [Phase.held?, Phase.due?]

theorem not_unlocked {now u : Time} {r : DeliveryRow} (hr : r.lockedUntil = some u) (hu : now ≤ u) :
    ¬unlocked now r := by
  simpa [unlocked, hr] using hu

section

variable [Crates] {config : DispatchConfig} {s s' : Sys} {a : Action}

/-! ### Who can write a held row -/

/-- Whether a row's callback parses depends on the delivery only. -/
theorem examineRow_agree (hw : WF config s) {t t' : Task} (ht : t ∈ s.tasks.rows)
    (ht' : t' ∈ s.tasks.rows) (hd : t.row.deliveryId = t'.row.deliveryId) {due : DueDelivery}
    {reason : String} (h : examineRow config t.row = .ok due)
    (h' : examineRow config t'.row = .error reason) : False := by
  obtain ⟨i, hi, hid, hie, hin⟩ := (hw.tasks.source t ht).issued
  obtain ⟨j, hj, hjd, hje, hjn⟩ := (hw.tasks.source t' ht').issued
  have hij : i = j :=
    List.inj_on_of_nodup_map hw.issued.ids_nodup hi hj (hid.trans (hd.trans hjd.symm))
  subst hij
  have hev : t.row.event = t'.row.event := by
    refine hw.events.eq_of_eventId (hw.tasks.source t ht).event (hw.tasks.source t' ht').event ?_
    rw [(hw.tasks.source t ht).eventId, (hw.tasks.source t' ht').eventId, ← hie, ← hje]
  unfold examineRow at h h'
  rw [← hev, ← hjn, hin] at h'
  split at h
  · next target hx => rw [hx] at h'; cases h'
  · cases h

theorem held_due_ok (hw : WF config s) {t : Task} {d : ℤ} {u : Time} (h : Holds s t d u) :
    ∃ due, examineRow config t.row = .ok due := by
  obtain ⟨due, hd⟩ := held_due h.2.2
  exact ⟨due, hw.tasks.due t h.1 due hd⟩

theorem held_issued (hw : WF config s) {t : Task} {d : ℤ} {u : Time} (h : Holds s t d u) :
    d < s.db.deliverySeq := by
  rw [← h.2.1]
  exact hw.tasks.id_lt hw.issued h.1

theorem holds_writing (hw : WF config s) {t : Task} {due : DueDelivery} {u : Time} {stmt : Stmt}
    (ht : t ∈ s.tasks.rows) (hp : t.phase = .writing due u stmt) : Holds s t due.deliveryId u :=
  ⟨ht, (hw.examined ht (by rw [hp]; rfl)).deliveryId.symm, by rw [hp]; rfl⟩

/-- **A held row** is left alone in the columns of the lock, except by a write-back. -/
theorem held_row_step (hw : WF config s) (h : Step config s a s') {t : Task} {d : ℤ} {u : Time}
    (ht : Holds s t d u) (hu : s.now ≤ u)
    (hold : ∀ r, s.db.deliveries.get d = some r → r.lockedUntil = some u ∧ r.dispatchedAt = none)
    (hnot : ∀ t' ∈ s.tasks.rows, ∀ due v stmt, t'.phase = .writing due v stmt → due.deliveryId = d →
      ∀ fault, fault ≠ .lost → a ≠ .task t'.tid (.writeBack fault))
    {r' : DeliveryRow} (hr' : s'.db.deliveries.get d = some r') :
    r'.lockedUntil = some u ∧ r'.dispatchedAt = none := by
  have hrow := row_step h d
  rw [hr'] at hrow
  generalize hr : s.db.deliveries.get d = o at hrow hold
  generalize hn : some r' = n at hrow
  cases hrow with
  | keep => subst hn; exact hold r' rfl
  | inserted p b u' n hd => exact absurd (held_issued hw ht) (not_lt.mpr hd)
  | poisoned t' fault reason r ht' hp hd he =>
    obtain ⟨due, hok⟩ := held_due_ok hw ht
    exact (examineRow_agree hw ht.1 ht' (ht.2.1.trans hd.symm) hok he).elim
  | locked t' fault due lockUntil r ht' hp hd hg =>
    exact absurd (Stmt.guard_lockDelivery_iff.mp hg).1 (not_unlocked (hold r rfl).1 hu)
  | wroteBack t' fault due lockUntil stmt r ht' hp hd hf hg =>
    exact absurd rfl (hnot t' ht' due lockUntil stmt hp hd fault hf)
  | swept maxCycles r hl =>
    obtain ⟨-, hdisp, -⟩ := externalPending_of_hungLimit hl
    simp [(hold r rfl).2] at hdisp
  | retried r hg => exact absurd hg (not_unlocked (hold r rfl).1 hu)
  | completed r => cases hn; exact hold r rfl
  | abandoned r => cases hn; exact hold r rfl
  | deleted => cases hn

theorem taskStep_held {now : Time} {db db' : Db} {t : Task} {b : TaskAction} {p : Phase}
    {obs : List Obs} {u : Time} (h : TaskStep config now db t b db' (some p) obs)
    (hp : p.held? = some u) :
    (t.phase.held? = some u ∧ ∀ fault, b ≠ .writeBack fault) ∨
      ∃ due, t.phase = .locking due u ∧ (Stmt.lockDelivery u).affects db now due.deliveryId ∧
        db' = (Stmt.lockDelivery u).exec db now due.deliveryId ∧
        obs = [.locked t.tid due.deliveryId] := by
  generalize hq : some p = q at h
  cases h with
  | dropped | poisoned | lockPanicked | lockUnacked | lockRefused | wroteBack => cases hq
  | examined | computeLock => cases hq; cases hp
  | lock due lockUntil hph hg => cases hq; cases hp; exact .inr ⟨due, hph, hg, rfl, rfl⟩
  | deliver due lockUntil hph =>
    cases hq; cases hp
    exact .inl ⟨by rw [hph]; rfl, fun fault hf => nomatch hf⟩
  | respond due lockUntil result jitter hph =>
    obtain ⟨stmt, -, rfl⟩ := Option.map_eq_some_iff.mp hq.symm
    cases hp
    exact .inl ⟨by rw [hph]; rfl, fun fault hf => nomatch hf⟩

/-- Who holds a row after a step: whoever held it before, or the task that has just locked it. -/
theorem holds_step (hw : WF config s) (h : Step config s a s') {t : Task} {d : ℤ} {u : Time}
    (ht : Holds s' t d u) :
    (∃ t₀, Holds s t₀ d u ∧ t₀.tid = t.tid ∧ ∀ fault, a ≠ .task t₀.tid (.writeBack fault)) ∨
      ∃ b r, a = .task t.tid b ∧ s.db.deliveries.get d = some r ∧
        (Stmt.lockDelivery u).guard s.now r ∧
        s'.db.deliveries.get d = some ((Stmt.lockDelivery u).assign s.now r) ∧
        s'.trace = .locked t.tid d :: s.trace := by
  rcases h.tasks ht.1 with ⟨hold, hne⟩ | ⟨-, hf, -⟩ | ⟨t₀, ht₀, b, obs, ha, heq, hs, htr⟩
  · exact .inl ⟨t, ⟨hold, ht.2⟩, rfl, fun fault => hne _⟩
  · rw [Holds, hf] at ht; exact absurd ht.2.2 (by simp [Phase.held?])
  · have hd : t₀.row.deliveryId = d := by rw [← ht.2.1, heq]
    have htid : t₀.tid = t.tid := by rw [heq]
    rcases taskStep_held hs ht.2.2 with ⟨hh, hb⟩ | ⟨due, hp, hg, hdb, hobs⟩
    · refine .inl ⟨t₀, ⟨ht₀, hd, hh⟩, htid, fun fault hf => hb fault ?_⟩
      rw [ha] at hf
      exact (Action.task.inj hf).2
    · have hid : due.deliveryId = d :=
        (hw.examined ht₀ (by rw [hp]; rfl)).deliveryId.trans hd
      rw [hid] at hg hdb hobs
      obtain ⟨r, hr, hg⟩ := (Stmt.affects_iff _).mp hg
      refine .inr ⟨b, r, htid ▸ ha, hr, hg, ?_, by rw [htr, hobs, htid]; rfl⟩
      rw [hdb, Stmt.get_exec, hr]
      simp [hg]

omit [Crates] in
theorem not_guard_of_holds (hx : Excl s) {t : Task} {d : ℤ} {u v : Time} {r : DeliveryRow}
    (ht : Holds s t d u) (hu : s.now ≤ u) (hr : s.db.deliveries.get d = some r) :
    ¬(Stmt.lockDelivery v).guard s.now r :=
  fun hg => not_unlocked (hx.row _ _ _ _ ht hr).1 hu (Stmt.guard_lockDelivery_iff.mp hg).1

theorem excl_step (hw : WF config s) (hx : Excl s) (h : Step config s a s') (htime : Timely s') :
    Excl s' := by
  have hle : ∀ {t d u}, Holds s' t d u → s.now ≤ u := fun ht => (now_le h).trans (htime _ _ _ ht)
  constructor
  · intro t d u r' ht hr'
    rcases holds_step hw h ht with ⟨t₀, hold, -, hown⟩ | ⟨b, r, -, hr, hg, hlock, -⟩
    · refine held_row_step hw h hold (hle ht) (fun r => hx.row t₀ d u r hold) ?_ hr'
      intro t' ht' due v stmt hp hd fault _
      rw [← hx.unique t₀ t' d u v hold (hd ▸ holds_writing hw ht' hp)]
      exact hown fault
    · rw [hlock] at hr'
      cases hr'
      exact ⟨rfl, (Stmt.guard_lockDelivery_iff.mp hg).2.1⟩
  · intro t t' d u u' ht ht'
    refine Table.eq_of_key ht.1 ht'.1 ?_
    rcases holds_step hw h ht with ⟨t₀, hold, htid, -⟩ | ⟨b, r, ha, hr, hg, -⟩ <;>
      rcases holds_step hw h ht' with ⟨t₀', hold', htid', -⟩ | ⟨b', r', ha', hr', hg', -⟩
    · rw [← htid, ← htid', hx.unique t₀ t₀' d u u' hold hold']
    · exact absurd hg' (not_guard_of_holds hx hold (hle ht) hr')
    · exact absurd hg (not_guard_of_holds hx hold' (hle ht') hr)
    · exact (Action.task.inj (ha.symm.trans ha')).1

end

/-! ### After a success -/

def isSuccess : Stmt → Bool
  | .markDispatchedManaged | .markDispatchedExternal => true
  | _ => false

/-- The observation says that a success for the row `d` is written back. -/
def IsSuccess (d : ℤ) (o : Obs) : Prop := ∃ tid stmt, isSuccess stmt ∧ o = .wroteBack tid d stmt

/-- A success for the row `d` was written back, and the row has not been reset since. -/
def Settled (d : ℤ) : List Obs → Prop := Since (IsSuccess d) (isReset d ·)

/-- What a success means for the row: it is dispatched or gone for good, and nobody holds it. -/
structure SettledRow (s : Sys) (d : ℤ) : Prop where
  issued : d < s.db.deliverySeq
  row : ∀ r, s.db.deliveries.get d = some r → r.dispatchedAt.isSome
  free : ∀ t u, ¬Holds s t d u

/-- Receivers are not called again after a success, until a reset. -/
def NoRedelivery (trace : List Obs) : Prop :=
  ∀ l tid event l', trace = l ++ .deliver tid event :: l' → ¬Settled event.deliveryId l'

/-- The invariant of the runs in which every state is `Timely`. -/
structure Safe (s : Sys) : Prop where
  timely : Timely s
  excl : Excl s
  settled : ∀ d, Settled d s.trace → SettledRow s d
  noRedelivery : NoRedelivery s.trace

section

variable [Crates] {config : DispatchConfig} {s s' : Sys} {a : Action}

theorem settledRow_success (hw : WF config s) (hs : Safe s) (h : Step config s a s')
    {d : ℤ} {o : Obs} (ho : ObsStep s s' a o) (hsucc : IsSuccess d o) : SettledRow s' d := by
  obtain ⟨tid, stmt, hstmt, rfl⟩ := hsucc
  generalize hoo : Obs.wroteBack tid d stmt = o at ho
  cases ho with
  | wroteBack t fault due lockUntil stmt' ht hp hf hdb =>
    cases hoo
    have hhold := holds_writing hw ht hp
    refine ⟨?_, fun r' hr' => ?_, fun t' u' ht' => ?_⟩
    · exact (held_issued hw hhold).trans_le (deliverySeq_le h)
    · rw [hdb, Stmt.get_exec] at hr'
      obtain ⟨r, -, rfl⟩ := Option.map_eq_some_iff.mp hr'
      cases stmt <;> simp_all [isSuccess, Stmt.guard, Stmt.assign]
    · rcases holds_step hw h ht' with ⟨t₀, hold, -, hown⟩ | ⟨b, r, -, hr, hg, -⟩
      · have := hs.excl.unique _ _ _ _ _ hhold hold
        subst this
        exact hown fault rfl
      · exact not_guard_of_holds hs.excl hhold (hs.timely _ _ _ hhold) hr hg
  | _ => cases hoo

/-- Every other step leaves a settled row alone, unless it resets it. -/
theorem settledRow_step (hw : WF config s) (h : Step config s a s') {d : ℤ} (hd : SettledRow s d)
    {obs : List Obs} (htr : s'.trace = obs ++ s.trace) (hno : ∀ o ∈ obs, ¬isReset d o) :
    SettledRow s' d := by
  refine ⟨hd.issued.trans_le (deliverySeq_le h), fun r' hr' => ?_, fun t u ht => ?_⟩
  · have hrow := row_step h d
    rw [hr'] at hrow
    have hold := hd.row
    generalize hr : s.db.deliveries.get d = old at hrow hold
    generalize hn : some r' = n at hrow
    cases hrow with
    | keep => subst hn; exact hold r' rfl
    | inserted p b u' n hle => exact absurd hd.issued (not_lt.mpr hle)
    | poisoned t fault reason r => cases hn; exact hold r rfl
    | locked t fault due lockUntil r ht hp hid hg =>
      have := hold r rfl
      simp_all [Stmt.guard]
    | wroteBack t fault due lockUntil stmt r ht hp hid hf hg =>
      exact absurd (hid ▸ holds_writing hw ht hp) (hd.free t lockUntil)
    | swept maxCycles r hl t =>
      cases hn
      by_cases hc : r.completionCycles + 1 ≥ maxCycles
      · simpa [sweepRow, hc] using hold r rfl
      · have hdisp : (sweepRow t maxCycles r).dispatchedAt = none := by simp [sweepRow, hc]
        exact absurd (decide_eq_true rfl) (hno _ (mem_obs_sweep h htr hr hr' (hold r rfl) hdisp))
    | retried r hg => exact absurd (decide_eq_true rfl) (hno _ (mem_obs_retry h htr hr hg))
    | completed r => cases hn; exact hold r rfl
    | abandoned r => cases hn; exact hold r rfl
    | deleted => cases hn
  · rcases holds_step hw h ht with ⟨t₀, hold, -⟩ | ⟨b, r, -, hr, hg, -⟩
    · exact hd.free t₀ u hold
    · have := hd.row r hr
      simp_all [Stmt.guard]

omit [Crates] in
theorem obs_deliver {tid : ℕ} {event : EventForDelivery} (h : ObsStep s s' a (.deliver tid event)) :
    ∃ t ∈ s.tasks.rows, ∃ due u, t.phase = .locked due u ∧ event = buildEventForDelivery due ∧
      a = .task t.tid .deliver := by
  generalize ho : Obs.deliver tid event = o at h
  cases h with
  | deliver t due u ht hp =>
    cases ho
    exact ⟨t, ht, due, u, hp, rfl, rfl⟩
  | _ => cases ho

omit [Crates] in
theorem obs_success {d : ℤ} {o : Obs} (h : ObsStep s s' a o) (hs : IsSuccess d o) :
    ∃ tid fault, a = .task tid (.writeBack fault) := by
  obtain ⟨tid, stmt, -, rfl⟩ := hs
  generalize ho : Obs.wroteBack tid d stmt = o at h
  cases h with
  | wroteBack t fault => exact ⟨t.tid, fault, rfl⟩
  | _ => cases ho

theorem noRedelivery_step (hw : WF config s) (hs : Safe s) {obs : List Obs}
    (htr : s'.trace = obs ++ s.trace) (hobs : ∀ o ∈ obs, ObsStep s s' a o) :
    NoRedelivery s'.trace := by
  intro l tid event l' heq hset
  rw [htr] at heq
  rcases List.append_eq_append_iff.mp heq with ⟨m, rfl, hm⟩ | ⟨m, rfl, hm⟩
  · exact hs.noRedelivery m tid event l' hm hset
  · cases m with
    | nil => exact hs.noRedelivery [] tid event l' (by simpa using hm.symm) hset
    | cons o m =>
      rw [List.cons_append, List.cons.injEq] at hm
      obtain ⟨rfl, rfl⟩ := hm
      -- the call is of this step, so the success is not, and the caller holds the row
      obtain ⟨t, ht, due, u, hp, rfl, ha⟩ := obs_deliver (hobs (.deliver tid event) (by simp))
      rcases since_append hset with ⟨o, ho, hsucc⟩ | ⟨hset, -⟩
      · obtain ⟨tid', fault, ha'⟩ := obs_success (hobs o (by simp [ho])) hsucc
        rw [ha] at ha'
        cases ha'
      · have hid : due.deliveryId = t.row.deliveryId :=
          (hw.examined ht (by rw [hp]; rfl)).deliveryId
        exact (hs.settled _ hset).free t u ⟨ht, hid.symm, by rw [hp]; rfl⟩

omit [Crates] in
theorem safe_init (now : Time) (scheds : ℕ → Sched) : Safe (init now scheds) where
  timely := fun t d u h => by simp [Holds, init] at h
  excl := ⟨fun t d u r h => by simp [Holds, init] at h,
    fun t t' d u u' h => by simp [Holds, init] at h⟩
  settled := fun d h => absurd h not_since_nil
  noRedelivery := fun l tid event l' heq => by simp [init] at heq

theorem safe_step (hw : WF config s) (hs : Safe s) (h : Step config s a s') (ht : Timely s') :
    Safe s' := by
  obtain ⟨obs, htr, hobs⟩ := trace_step h
  refine ⟨ht, excl_step hw hs.excl h ht, fun d hset => ?_, noRedelivery_step hw hs htr hobs⟩
  rw [htr] at hset
  rcases since_append hset with ⟨o, ho, hsucc⟩ | ⟨hset, hno⟩
  · exact settledRow_success hw hs h (hobs o ho) hsucc
  · exact settledRow_step hw h (hs.settled d hset) htr hno

/-- **No duplicate dispatch.** Whatever the replicas, publishers, sweeps, operators and receivers
do, as long as no task holds a row past the expiry of the lock it computed: at most one task is
between a successful `lock_delivery` and its write-back for any delivery, and between a success that
was written back and a later call of the receiver for the same delivery the row has been reset, by
an admin retry or by the sweep. -/
theorem no_duplicate_dispatch {now : Time} {scheds : ℕ → Sched} (hq : Quiet scheds)
    (h : Run (step config) (fun _ _ s' => Timely s') (init now scheds) s) :
    (∀ t t' d u u', Holds s t d u → Holds s t' d u' → t = t') ∧
      ∀ l tid event l' tid' stmt l'',
        s.trace = l ++ .deliver tid event :: (l' ++ .wroteBack tid' event.deliveryId stmt :: l'') →
          isSuccess stmt → ∃ o ∈ l', isReset event.deliveryId o := by
  have hinv : WF config s ∧ Safe s :=
    h.invariant (fun s => WF config s ∧ Safe s) ⟨wf_init now hq, safe_init now scheds⟩
      fun s a s' hi hs ht => ⟨wf_step hi.1 (step_cases hs), safe_step hi.1 hi.2 (step_cases hs) ht⟩
  refine ⟨hinv.2.excl.unique, fun l tid event l' tid' stmt l'' heq hstmt => ?_⟩
  by_contra hno
  push Not at hno
  exact hinv.2.noRedelivery l tid event _ heq ⟨l', _, l'', rfl, ⟨tid', stmt, hstmt, rfl⟩, hno⟩

end

/-- Two dispatchers fetch the same row; one locks it and succeeds, an operator resets the row, and
the other one, still at work on its batch, delivers again. -/
def twoDispatchers : List Action :=
  [.publish (sampleEvent 1 [sampleCallback "hook_a" []]), .commit 1, .sched 0 .poll,
    .sched 0 (.write .ok), .sched 0 .next, .fetch, .fetch, .task 0 (.examine .ok),
    .task 1 (.examine .ok), .task 0 .computeLock, .task 0 (.lock .ok), .task 0 .deliver,
    .task 0 (.respond .ok 0), .tick 5, .task 0 (.writeBack .ok), .retry 1, .task 1 .computeLock,
    .task 1 (.lock .ok), .task 1 .deliver]

theorem no_duplicate_dispatch_twoDispatchers :
    ∃ s, Run (@step sampleCrates {}) (fun _ _ s' => Timely s') (init 0 oneScheduler) s ∧
      s.trace.length = 8 ∧ (∀ t t' d u u', Holds s t d u → Holds s t' d u' → t = t') ∧
      ∀ l tid event l' tid' stmt l'',
        s.trace = l ++ .deliver tid event :: (l' ++ .wroteBack tid' event.deliveryId stmt :: l'') →
          isSuccess stmt → ∃ o ∈ l', isReset event.deliveryId o := by
  have hex : ∃ s, Run (@step sampleCrates {}) (fun _ _ s' => Timely s') (init 0 oneScheduler) s ∧
      s.trace.length = 8 := Run.exists_of_exec twoDispatchers (by decide +kernel)
  obtain ⟨s, hrun, hlen⟩ := hex
  exact ⟨s, hrun, hlen, @no_duplicate_dispatch sampleCrates _ _ _ _ quiet_oneScheduler hrun⟩

end OutboxDispatcher.Dispatch.Exclusion
