import Mathlib.Data.List.Pairwise
import OutboxDispatcher.System.History

/-! # What lies behind a cursor

`Covered` is the invariant of a scheduling process: every visible event up to its cursor has a row
for each element of its array, and in a pass so has every event before the one the loop is at, while
the batch leaves no visible event out. Failures do not matter, since a pass that fails keeps its
cursor. Only two things can break it: an event that becomes visible behind the process
(`CommitAbove` excludes it), and a start at a cursor that is too far ahead.

* `upto_cursor_of_ahead`: a process that is never restarted skips nothing if no event commits behind
  it.
* `complete_under_failures`: events that become visible in the order of their ids never do. -/

namespace OutboxDispatcher.Scheduler.Completeness

open OutboxDispatcher.Lib.Runs OutboxDispatcher.Lib.Tables OutboxDispatcher.Schema
open OutboxDispatcher.Callbacks.Fields OutboxDispatcher.Callbacks.Parse
open OutboxDispatcher.Repo.Database OutboxDispatcher.Repo.Database.Db
  OutboxDispatcher.Repo.Statements
open OutboxDispatcher.Scheduler.Pass OutboxDispatcher.Dispatch OutboxDispatcher.System
open OutboxDispatcher.System.Effects OutboxDispatcher.System.History

/-! ### Cursors -/

/-- The cursor of a process; a pass keeps the one it was called with until it returns. -/
def cursor? : Sched → Option ℤ
  | .down => none
  | .idle c | .running c _ => some c

def lastEvent (l : Loop) : RawEvent := (l.event :: l.rest).getLast (by simp)

/-- The furthest the cursor can get without another query. -/
def horizon? : Sched → Option ℤ
  | .down => none
  | .idle c => some c
  | .running _ l => some (lastEvent l).id

theorem event_le_last {l : Loop} (hs : (l.event :: l.rest).Pairwise fun a b => a.id < b.id)
    {e : RawEvent} (he : e ∈ l.event :: l.rest) : e.id ≤ (lastEvent l).id :=
  (hs.imp le_of_lt).rel_getLast_of_rel_getLast_getLast he le_rfl

/-- Every visible event up to `c` is fully scheduled. -/
def Upto (db : Db) (c : ℤ) : Prop := ∀ e ∈ db.events.rows, e.id ≤ c → FullyScheduled db e

instance (db : Db) (c : ℤ) : Decidable (Upto db c) :=
  inferInstanceAs (Decidable (∀ e ∈ db.events.rows, e.id ≤ c → FullyScheduled db e))

/-- A pass that was called with the cursor `c`. -/
structure PassOk (db : Db) (c : ℤ) (l : Loop) : Prop where
  lt : c < l.event.id
  sorted : (l.event :: l.rest).Pairwise fun a b => a.id < b.id
  /-- The batch leaves no event out. -/
  noGap : ∀ e ∈ db.events.rows, e.id ≤ (lastEvent l).id → e.id < l.event.id ∨ e ∈ l.event :: l.rest
  before : ∀ e ∈ db.events.rows, e.id < l.event.id → FullyScheduled db e

/-- The invariant of a scheduling process. -/
def Covered (db : Db) : Sched → Prop
  | .down => True
  | .idle c => Upto db c
  | .running c l => PassOk db c l

variable {db db' : Db}

theorem PassOk.upto {c : ℤ} {l : Loop} (h : PassOk db c l) : Upto db c :=
  fun e he hle => h.before e he (lt_of_le_of_lt hle h.lt)

theorem Covered.upto {sch : Sched} (h : Covered db sch) {c : ℤ} (hc : cursor? sch = some c) :
    Upto db c := by
  cases sch with
  | down => cases hc
  | idle => cases hc; exact h
  | running => cases hc; exact PassOk.upto h

theorem upto_empty (c : ℤ) : Upto .empty c := fun e he => by simp [Db.empty] at he

theorem covered_init (now : Time) {scheds : ℕ → Sched} (hq : Quiet scheds) (p : ℕ) :
    Covered (init now scheds).db ((init now scheds).scheds p) := by
  show Covered .empty (scheds p)
  rcases hs : scheds p with _ | c | ⟨c, l⟩
  · trivial
  · exact upto_empty c
  · exact absurd hs (hq p c l)

/-! ### Steps of others -/

theorem fullyScheduled_dbStep {now : Time} (h : DbStep now db db') {e : RawEvent}
    (he : e ∈ db'.events.rows) (hf : FullyScheduled db e) : FullyScheduled db' e :=
  fun name hn => hasRow_dbStep h he (hf name hn)

theorem covered_dbStep {now : Time} (h : DbStep now db db') {sch : Sched}
    (hc : Covered db sch) : Covered db' sch := by
  have hvis : ∀ e ∈ db'.events.rows, e ∈ db.events.rows := fun e he => mem_events_dbStep h he
  cases sch with
  | down => trivial
  | idle c => exact fun e he hle => fullyScheduled_dbStep h he (hc e (hvis e he) hle)
  | running c l =>
    obtain ⟨lt, sorted, noGap, before⟩ := hc
    exact ⟨lt, sorted, fun e he => noGap e (hvis e he),
      fun e he hlt => fullyScheduled_dbStep h he (before e (hvis e he) hlt)⟩

/-- An event that becomes visible ahead of the process. -/
theorem covered_commit {e : RawEvent} (h : CommitSpec db db' e) {sch : Sched}
    (hlt : ∀ x, horizon? sch = some x → x < e.id) (hc : Covered db sch) :
    Covered db' sch := by
  have hrow : ∀ u name, db'.HasRow u name ↔ db.HasRow u name := fun u name => by
    unfold HasRow; rw [h.deliveries]
  have hfull : ∀ e', FullyScheduled db' e' ↔ FullyScheduled db e' := fun e' => by
    simp only [FullyScheduled, hrow]
  have hvis : ∀ e' ∈ db'.events.rows, e' ∈ db.events.rows ∨ e' = e := fun e' he' => by
    simpa [h.rows] using he'
  cases sch with
  | down => trivial
  | idle c =>
    intro e' he' hle
    rcases hvis e' he' with he' | rfl
    · exact (hfull e').mpr (hc e' he' hle)
    · have := hlt c rfl; omega
  | running c l =>
    obtain ⟨lt, sorted, noGap, before⟩ := hc
    have hlast : (lastEvent l).id < e.id := hlt _ rfl
    have hfirst := event_le_last sorted (List.mem_cons_self ..)
    refine ⟨lt, sorted, fun e' he' hle => ?_, fun e' he' hlt' => ?_⟩
    · rcases hvis e' he' with he' | rfl
      · exact noGap e' he' hle
      · omega
    · rcases hvis e' he' with he' | rfl
      · exact (hfull e').mpr (before e' he' hlt')
      · omega

/-! ### Steps of its own -/

/-- The query returns the first visible events above the cursor, in order. -/
theorem fetchNewEvents_spec [Crates] {c n : ℤ} {l : List RawEvent}
    (h : fetchNewEvents db c n = some l) : l.Pairwise (fun a b => a.id < b.id) ∧
      ∀ x ∈ db.events.rows, c < x.id → ∀ y ∈ l, x.id ≤ y.id → x ∈ l := by
  obtain ⟨-, rfl, -⟩ := fetchNewEvents_eq_some.mp h
  have hs : (above db c).Pairwise fun a b => a.id < b.id :=
    orderBy_lt ((List.Sublist.map _ List.filter_sublist).nodup db.events.nodup)
  refine ⟨hs.sublist (List.take_sublist _ _), fun x hx hc y hy hle => mem_take_of_le hs ?_ hy hle⟩
  exact mem_above.mpr ⟨hx, hc⟩

theorem PassOk.finish {c : ℤ} {l : Loop} (h : PassOk db c l)
    (hdone : l.event ∈ db.events.rows → FullyScheduled db l.event) (hr : l.rest = []) :
    Upto db l.event.id := by
  intro x hx hle
  have hlast : lastEvent l = l.event := by simp [lastEvent, hr]
  rcases h.noGap x hx (hlast ▸ hle) with hlt | hm
  · exact h.before x hx hlt
  · rw [hr, List.mem_singleton] at hm
    exact hm ▸ hdone (hm ▸ hx)

section

variable [Crates] {config : DispatchConfig}

theorem passOk_poll {c n : ℤ} {e : RawEvent} {rest : List RawEvent}
    (h : fetchNewEvents db c n = some (e :: rest)) (hc : Upto db c) :
    PassOk db c (.start config e rest) := by
  obtain ⟨hs, hall⟩ := fetchNewEvents_spec h
  have hgap : ∀ x ∈ db.events.rows, ∀ y ∈ e :: rest, x.id ≤ y.id → x.id ≤ c ∨ x ∈ e :: rest :=
    fun x hx y hy hle => (le_or_gt x.id c).imp_right fun hcx => hall x hx hcx y hy hle
  have hlt : c < e.id := (mem_fetchNewEvents h (List.mem_cons_self ..)).2
  refine ⟨hlt, hs, fun x hx hle => ?_, fun x hx hxe => ?_⟩
  · exact (hgap x hx _ (List.getLast_mem _) hle).imp_left fun hxc => lt_of_le_of_lt hxc hlt
  · rcases hgap x hx e (List.mem_cons_self ..) hxe.le with hxc | hm
    · exact hc x hx hxc
    · rcases List.mem_cons.mp hm with rfl | hm
      · exact absurd hxe (lt_irrefl _)
      · exact absurd hxe (List.rel_of_pairwise_cons hs hm).not_gt

theorem PassOk.next {c : ℤ} {l : Loop} {e : RawEvent} {rest : List RawEvent}
    (h : PassOk db c l) (hdone : l.event ∈ db.events.rows → FullyScheduled db l.event)
    (hr : l.rest = e :: rest) : PassOk db c (.start config e rest) := by
  obtain ⟨lt, sorted, noGap, before⟩ := h
  have hlast : lastEvent (.start config e rest) = lastEvent l := by simp [lastEvent, Loop.start, hr]
  rw [hr] at sorted noGap
  obtain ⟨hlt, hs⟩ := List.pairwise_cons.mp sorted
  have he : l.event.id < e.id := hlt e (List.mem_cons_self ..)
  have hcase : ∀ x ∈ db.events.rows, x.id ≤ (lastEvent l).id →
      x.id < l.event.id ∨ x = l.event ∨ x ∈ e :: rest := fun x hx hle =>
    (noGap x hx hle).imp_right List.mem_cons.mp
  refine ⟨lt.trans he, hs, fun x hx hle => ?_, fun x hx hxe => ?_⟩
  · rcases hcase x hx (hlast ▸ hle) with hlt' | rfl | hm
    · exact .inl (hlt'.trans he)
    · exact .inl he
    · exact .inr hm
  · have hel : e.id ≤ (lastEvent l).id := by
      rw [← hlast]; exact event_le_last hs (List.mem_cons_self ..)
    rcases hcase x hx (hxe.le.trans hel) with hlt' | rfl | hm
    · exact before x hx hlt'
    · exact hdone hx
    · rcases List.mem_cons.mp hm with rfl | hm
      · exact absurd hxe (lt_irrefl _)
      · exact absurd hxe (List.rel_of_pairwise_cons hs hm).not_gt

/-- **A step of the process**, which must not start at a cursor that is too far ahead, and must have
scheduled an event when it leaves it. -/
theorem covered_schedStep {now : Time} {sch sch' : Sched} {a : SchedAction}
    (h : SchedStep config now db sch a db' sch') (hc : Covered db sch)
    (hstart : ∀ c, sch = .down → sch' = .idle c → Upto db c)
    (hdone : ∀ c l, sch = .running c l → l.writes = [] → l.event ∈ db.events.rows →
      FullyScheduled db l.event) : Covered db' sch' := by
  have hsame := covered_dbStep h.dbStep hc
  cases h with
  | recover => exact hstart _ rfl rfl
  | rescan c => exact hstart _ rfl rfl
  | pollEmpty c => exact hc
  | poll c e rest hf => exact passOk_poll hf hc
  | write c l w writes _ hw hx =>
    obtain ⟨lt, sorted, noGap, before⟩ := hsame
    exact ⟨lt, sorted, noGap, before⟩
  | writeUnacked c l w writes _ hw hx => exact PassOk.upto hsame
  | writeFailed c l fault => exact PassOk.upto hc
  | next c l e rest hw hr => exact PassOk.next hc (hdone c l rfl hw) hr
  | finish c l hw hr => exact PassOk.finish hc (hdone c l rfl hw) hr
  | crash => trivial

/-! ### Runs -/

def commits? : Action → Option ℤ
  | .commit id => some id
  | _ => none

def isStart (p : ℕ) : Action → Bool
  | .sched r .recover | .sched r (.rescan _) => r = p
  | _ => false

/-- The step commits no event behind the process `p`: its id is above the cursor, and above every id
of the batch the process is working on. -/
def CommitAbove (p : ℕ) (s : Sys) (a : Action) : Prop :=
  ∀ id ∈ commits? a, ∀ x ∈ horizon? (s.scheds p), x < id

instance (p : ℕ) (s : Sys) (a : Action) : Decidable (CommitAbove p s a) :=
  inferInstanceAs (Decidable (∀ id ∈ commits? a, ∀ x ∈ horizon? (s.scheds p), x < id))

variable {s s' : Sys} {a : Action} {p : ℕ}

/-- When all writes of the event are made, it is fully scheduled. -/
theorem fullyScheduled_done (hw : WF config s) {c : ℤ} {l : Loop} (hs : s.scheds p = .running c l)
    (hwr : l.writes = []) (he : l.event ∈ s.db.events.rows) : FullyScheduled s.db l.event := by
  obtain ⟨made, heq, hmade⟩ := hw.hasRow_made (hw.scheds p c l hs) he
  rw [hwr, List.append_nil] at heq
  refine (fullyScheduled_iff config).mpr fun n hn => ?_
  obtain ⟨w, hwm, hn⟩ := List.mem_flatMap.mp hn
  exact hmade w (heq ▸ hwm) n hn

/-- **One step of the system.** -/
theorem covered_step (hw : WF config s) (h : Step config s a s') (hc : Covered s.db (s.scheds p))
    (habove : CommitAbove p s a)
    (hstart : ∀ c, s.scheds p = .down → s'.scheds p = .idle c → Upto s.db c) :
    Covered s'.db (s'.scheds p) := by
  rcases h.scheds p with hs | ⟨b, rfl, hs⟩
  · rw [hs]
    rcases h.dbStep with hd | ⟨e, he, rfl, hcommit, -⟩
    · exact covered_dbStep hd hc
    · exact covered_commit hcommit (fun x hx => habove e.id rfl x hx) hc
  · exact covered_schedStep hs hc hstart fun c l => fullyScheduled_done hw

theorem not_started (h : Step config s a s') (hno : isStart p a = false)
    (hdown : s.scheds p = .down) : s'.scheds p = .down := by
  rcases h.scheds p with hs | ⟨b, rfl, hs⟩
  · rw [hs, hdown]
  · rw [hdown] at hs
    generalize s'.db = db', s'.scheds p = sch' at hs
    cases hs with
    | recover | rescan => simp [isStart] at hno
    | crash => rfl

/-- The assumption of the runs of one process: it is not restarted, and no event commits behind it.
-/
def Ahead (p : ℕ) (s : Sys) (a : Action) (_ : Sys) : Prop := isStart p a = false ∧ CommitAbove p s a

instance (p : ℕ) (s : Sys) (a : Action) (s' : Sys) : Decidable (Ahead p s a s') :=
  inferInstanceAs (Decidable (isStart p a = false ∧ CommitAbove p s a))

theorem covered_ahead (hw : WF config s) (h : Step config s a s') (hc : Covered s.db (s.scheds p))
    (hok : Ahead p s a s') : Covered s'.db (s'.scheds p) :=
  covered_step hw h hc hok.2 fun c hdown hidle => by
    rw [not_started h hok.1 hdown] at hidle
    cases hidle

/-- **What lies behind the cursor is scheduled**, in every run in which no event commits behind the
process: the visible events up to its cursor have a row for each element of their arrays, whatever
fails, and whatever the other processes do. -/
theorem upto_cursor_of_ahead {now : Time} {scheds : ℕ → Sched} (hq : Quiet scheds)
    (h : Run (step config) (Ahead p) (init now scheds) s) :
    ∀ c ∈ cursor? (s.scheds p), Upto s.db c := by
  have hinv : WF config s ∧ Covered s.db (s.scheds p) :=
    h.invariant (fun s => WF config s ∧ Covered s.db (s.scheds p)) ⟨wf_init now hq,
      covered_init now hq p⟩ fun s a s' hi hs hok =>
        ⟨wf_step hi.1 (step_cases hs), covered_ahead hi.1 (step_cases hs) hi.2 hok⟩
  exact fun c hcur => hinv.2.upto hcur

end

/-- Two publishers; the one that draws the smaller id commits after the pass that follows the
other's commit. -/
def lateCommit : List Action :=
  [.publish (sampleEvent 1 [sampleCallback "hook_a" []]),
    .publish (sampleEvent 2 [sampleCallback "hook_a" []]), .commit 2, .sched 0 .poll,
    .sched 0 (.write .ok), .sched 0 .next, .commit 1]

/-- The cursor is past the first event then, and it has no row. -/
theorem lateCommit_skipped :
    ∃ s, Run (@step sampleCrates {}) (fun _ a _ => isStart 0 a = false) (init 0 oneScheduler) s ∧
      ∃ c ∈ cursor? (s.scheds 0), ¬Upto s.db c :=
  Run.exists_of_exec lateCommit (by decide +kernel)

/-- The first event has an element that is accepted and one that is rejected. A pass fails at the
first of its two writes, which is applied, and the next one at the second; in the meantime the other
event commits. -/
def failedPass : List Action :=
  [.publish (sampleEvent 1 [sampleCallback "hook_a" [], .int 3]),
    .publish (sampleEvent 2 [sampleCallback "hook_a" []]), .commit 1, .sched 0 .poll,
    .sched 0 (.write .unacked), .sched 0 .poll, .sched 0 (.write .ok), .commit 2,
    .sched 0 (.write .lost), .sched 0 .poll, .sched 0 (.write .ok), .sched 0 (.write .ok),
    .sched 0 .next, .sched 0 (.write .ok), .sched 0 .next]

theorem upto_cursor_failedPass :
    ∃ s, Run (@step sampleCrates {}) (Ahead 0) (init 0 oneScheduler) s ∧
      cursor? (s.scheds 0) = some 2 ∧ ∀ c ∈ cursor? (s.scheds 0), Upto s.db c := by
  have hex : ∃ s, Run (@step sampleCrates {}) (Ahead 0) (init 0 oneScheduler) s ∧
      cursor? (s.scheds 0) = some 2 := Run.exists_of_exec failedPass (by decide +kernel)
  obtain ⟨s, hrun, hcur⟩ := hex
  exact ⟨s, hrun, hcur, @upto_cursor_of_ahead sampleCrates _ _ _ _ _ quiet_oneScheduler hrun⟩

section

variable [Crates] {config : DispatchConfig} {s s' : Sys} {a : Action} {p : ℕ}

/-! ### Events that become visible in order -/

/-- The step commits no event before one that has been visible. -/
def CommitLast (s : Sys) (a : Action) : Prop := ∀ id ∈ commits? a, ∀ e ∈ s.committed, e.id < id

instance (s : Sys) (a : Action) : Decidable (CommitLast s a) :=
  inferInstanceAs (Decidable (∀ id ∈ commits? a, ∀ e ∈ s.committed, e.id < id))

/-- The cursor is not ahead of the events that have been visible. -/
def NotAhead (s : Sys) (c : ℤ) : Prop := c ≤ 0 ∨ ∃ e ∈ s.committed, c ≤ e.id

instance (s : Sys) (c : ℤ) : Decidable (NotAhead s c) :=
  inferInstanceAs (Decidable (c ≤ 0 ∨ ∃ e ∈ s.committed, c ≤ e.id))

theorem NotAhead.step (h : Step config s a s') {c : ℤ} (hc : NotAhead s c) : NotAhead s' c :=
  hc.imp_right fun ⟨e, he, hle⟩ => ⟨e, committed_subset h he, hle⟩

/-- An event that commits last commits above every such cursor. -/
theorem NotAhead.lt (hw : WF config s) (h : Step config s a s') (hlast : CommitLast s a) {c id : ℤ}
    (hc : NotAhead s c) (hid : id ∈ commits? a) : c < id := by
  rcases hc with hle | ⟨e, he, hle⟩
  · cases h with
    | commit e db he =>
      cases hid
      exact lt_of_le_of_lt hle (hw.events.ids e (List.mem_append_right _ he)).1
    | _ => cases hid
  · exact lt_of_le_of_lt hle (hlast id hid e he)

theorem notAhead_horizon (hw : WF config s) (hk : ∀ c ∈ cursor? (s.scheds p), NotAhead s c) :
    ∀ x ∈ horizon? (s.scheds p), NotAhead s x := by
  intro x hx
  rcases hs : s.scheds p with _ | c | ⟨c, l⟩ <;> rw [hs] at hx
  · cases hx
  · exact hk x (hs ▸ hx)
  · cases hx
    exact .inr ⟨_, (hw.scheds p c l hs).committed _ (List.getLast_mem _), le_rfl⟩

theorem notAhead_step (hw : WF config s) (h : Step config s a s')
    (hk : ∀ c ∈ cursor? (s.scheds p), NotAhead s c)
    (hstart : ∀ c, s.scheds p = .down → s'.scheds p = .idle c → NotAhead s c) :
    ∀ c ∈ cursor? (s'.scheds p), NotAhead s' c := by
  intro c hc
  refine NotAhead.step h ?_
  rcases h.scheds p with hs | ⟨b, rfl, hs⟩
  · exact hk c (hs ▸ hc)
  · generalize hold : s.scheds p = old at hs hk hstart
    generalize s'.db = db', s'.scheds p = sch' at hs hc hstart
    cases hs with
    | recover => cases hc; exact hstart _ rfl rfl
    | rescan => cases hc; exact hstart _ rfl rfl
    | crash => cases hc
    | finish c' l hw' hr =>
      cases hc
      exact .inr ⟨l.event, (hw.scheds p c' l hold).committed _ (List.mem_cons_self ..), le_rfl⟩
    | _ => cases hc; exact hk _ rfl

/-- The assumption of the runs of one process over events that become visible in the order of their
ids. -/
def InOrder (p : ℕ) (s : Sys) (a : Action) (_ : Sys) : Prop := isStart p a = false ∧ CommitLast s a

instance (p : ℕ) (s : Sys) (a : Action) (s' : Sys) : Decidable (InOrder p s a s') :=
  inferInstanceAs (Decidable (isStart p a = false ∧ CommitLast s a))

theorem cursor_le_step (h : Step config s a s') (hc : Covered s.db (s.scheds p))
    {c c' : ℤ} (hcur : c ∈ cursor? (s.scheds p)) (hcur' : c' ∈ cursor? (s'.scheds p)) : c ≤ c' := by
  rcases h.scheds p with hs | ⟨b, rfl, hs⟩
  · rw [hs] at hcur'
    exact (Option.mem_unique hcur hcur').le
  · generalize s.scheds p = old at hs hc hcur
    generalize s'.db = db', s'.scheds p = sch' at hs hcur'
    cases hs with
    | recover | rescan => cases hcur
    | crash => cases hcur'
    | finish c l hw hr =>
      cases hcur; cases hcur'
      exact (PassOk.lt hc).le
    | _ => cases hcur; cases hcur'; exact le_rfl

structure Progress (config : DispatchConfig) (p : ℕ) (s : Sys) : Prop where
  wf : WF config s
  covered : Covered s.db (s.scheds p)
  notAhead : ∀ c ∈ cursor? (s.scheds p), NotAhead s c

theorem progress_init (now : Time) {scheds : ℕ → Sched} (hq : Quiet scheds)
    (h0 : scheds p = .idle 0) : Progress config p (init now scheds) := by
  refine ⟨wf_init now hq, covered_init now hq p, fun c hc => ?_⟩
  rw [show (init now scheds).scheds p = .idle 0 from h0] at hc
  cases hc
  exact .inl le_rfl

theorem Progress.commitAbove (hi : Progress config p s) (h : Step config s a s')
    (hlast : CommitLast s a) : CommitAbove p s a :=
  fun _ hid x hx => (notAhead_horizon hi.wf hi.notAhead x hx).lt hi.wf h hlast hid

theorem progress_step (hi : Progress config p s) (h : Step config s a s') (hok : InOrder p s a s') :
    Progress config p s' := by
  have hnostart : ∀ c, s.scheds p = .down → s'.scheds p = .idle c → False := fun c hdown hidle => by
    rw [not_started h hok.1 hdown] at hidle
    cases hidle
  exact ⟨wf_step hi.wf h, covered_ahead hi.wf h hi.covered ⟨hok.1, hi.commitAbove h hok.2⟩,
    notAhead_step hi.wf h hi.notAhead fun c hdown hidle => (hnostart c hdown hidle).elim⟩

theorem cursor_le_run (hi : Progress config p s) (h : Run (step config) (InOrder p) s s') {c c' : ℤ}
    (hcur : c ∈ cursor? (s.scheds p)) (hcur' : c' ∈ cursor? (s'.scheds p)) : c ≤ c' := by
  have hinv : Progress config p s' ∧ ∀ c' ∈ cursor? (s'.scheds p), c ≤ c' :=
    h.invariant (fun s' => Progress config p s' ∧ ∀ c' ∈ cursor? (s'.scheds p), c ≤ c')
      ⟨hi, fun c' hc' => (Option.mem_unique hcur hc').le⟩ fun s a s' hi hs hok => by
        have hs := step_cases hs
        refine ⟨progress_step hi.1 hs hok, fun c' hc' => ?_⟩
        rcases hmid : cursor? (s.scheds p) with _ | m
        · -- without a cursor the process is down, and it stays down
          rcases hsch : s.scheds p with _ | _ | _ <;> rw [hsch] at hmid
          · rw [not_started hs hok.1 hsch] at hc'; cases hc'
          · cases hmid
          · cases hmid
        · exact (hi.2 m hmid).trans (cursor_le_step hs hi.1.covered hmid hc')
  exact hinv.2 c' hcur'

/-- **Scheduling is complete up to the cursor.** A process starts at cursor 0 and is not restarted,
and events become visible in the order of their ids. Whatever statement fails, and at whatever point
of a pass: the events up to the cursor have a row for each element of their arrays, and the cursor
never decreases. -/
theorem complete_under_failures {now : Time} {scheds : ℕ → Sched} (hq : Quiet scheds)
    (h0 : scheds p = .idle 0) (h : Run (step config) (InOrder p) (init now scheds) s) :
    (∀ c ∈ cursor? (s.scheds p), Upto s.db c) ∧
      ∀ s', Run (step config) (InOrder p) s s' →
        ∀ c ∈ cursor? (s.scheds p), ∀ c' ∈ cursor? (s'.scheds p), c ≤ c' := by
  have hi : Progress config p s := h.invariant (Progress config p) (progress_init now hq h0)
    fun s a s' hi hs hok => progress_step hi (step_cases hs) hok
  exact ⟨fun c hc => hi.covered.upto hc, fun s' h' c hc c' hc' => cursor_le_run hi h' hc hc'⟩

end

theorem complete_under_failures_failedPass :
    ∃ s, Run (@step sampleCrates {}) (InOrder 0) (init 0 oneScheduler) s ∧
      cursor? (s.scheds 0) = some 2 ∧ (∀ c ∈ cursor? (s.scheds 0), Upto s.db c) ∧
      ∀ s', Run (@step sampleCrates {}) (InOrder 0) s s' →
        ∀ c ∈ cursor? (s.scheds 0), ∀ c' ∈ cursor? (s'.scheds 0), c ≤ c' := by
  have hex : ∃ s, Run (@step sampleCrates {}) (InOrder 0) (init 0 oneScheduler) s ∧
      cursor? (s.scheds 0) = some 2 := Run.exists_of_exec failedPass (by decide +kernel)
  obtain ⟨s, hrun, hcur⟩ := hex
  exact ⟨s, hrun, hcur,
    @complete_under_failures sampleCrates _ _ _ _ _ quiet_oneScheduler rfl hrun⟩

end OutboxDispatcher.Scheduler.Completeness
