import Mathlib.Data.Finset.Card
import OutboxDispatcher.Ranges
import OutboxDispatcher.Retention.Drain
import OutboxDispatcher.System.Phases

/-! # The retention worker

Every replica runs a worker, when it is configured: it sleeps, computes its cutoffs, deletes one
batch, asks for the age of the oldest event that is left for the gauge, and sleeps again, whether or
not a statement has failed. A cycle deletes no more than a batch, so with a backlog an event has to
wait; meanwhile more events become old enough, operators bring finished ones back, and publishers
commit late.

What is deleted first are the events with the lowest ids, and ids are given out in increasing order.
So the deletions an old event can wait for are bounded by the number of events before it at that
time (`below`), whatever becomes of these and of the later ones.

The deletions of different workers may overlap: two that select before either deletes select the
same batch, and the second finds nothing left of it. The deletions of one worker follow one another,
and the bound is for these. -/

namespace OutboxDispatcher.Retention.Workers

open OutboxDispatcher.Lib.Runs OutboxDispatcher.Lib.Tables OutboxDispatcher.Schema
open OutboxDispatcher.Callbacks.Fields OutboxDispatcher.Repo.Database
open OutboxDispatcher.Repo.Database.Db OutboxDispatcher.Repo.Statements OutboxDispatcher.Config
open OutboxDispatcher.Ranges OutboxDispatcher.Scheduler.Pass OutboxDispatcher.Retention.Drain
open OutboxDispatcher.Dispatch OutboxDispatcher.System OutboxDispatcher.System.Effects
open OutboxDispatcher.System.History OutboxDispatcher.System.Rows OutboxDispatcher.System.Phases

/-! ### The loop -/

inductive Stage
  | sleeping (wake : Time)
  /-- The cutoffs are computed, the deletion is not sent yet. -/
  | deleting (deadLetterCutoff processedCutoff : Time)
  /-- The deletion is being executed, under the number `p`. -/
  | awaiting (p : ℕ) (deadLetterCutoff processedCutoff : Time)
  /-- The deletion has succeeded, the query for the gauge is not made yet. -/
  | measuring (deadLetterCutoff processedCutoff : Time)

structure Worker where
  stage : Stage
  /-- Not set yet, or the age of the oldest event, `NaN` for none. -/
  gauge : Option (Option ℚ) := none

inductive Act
  | wake
  /-- The deletion reaches the database, or it does not. -/
  | send (ok : Bool)
  /-- It has been executed, or an error is reported, executed or not. -/
  | reply (ok : Bool)
  | measure (ok : Bool)
  /-- The branch of `select!` for the shutdown. -/
  | cancel

/-- `tokio::time::sleep(interval)`. -/
def Worker.sleep (config : RetentionConfig) (now : Time) (w : Worker) : Worker :=
  { w with stage := .sleeping (now + fromSecs config.cleanupIntervalSecs.toNat) }

structure Fleet where
  sys : Phased
  workers : ℕ → Option Worker
  /-- No statement has had this number. -/
  next : ℕ

inductive Action
  /-- Also the second phase of a deletion, whether its worker still runs or not. -/
  | system (a : PhasedAction)
  /-- With a random delay, in seconds. -/
  | start (k : ℕ) (delay : ℕ)
  | crash (k : ℕ)
  | worker (k : ℕ) (a : Act)

/-- Deletions are begun by the workers. -/
def isSelect : PhasedAction → Bool
  | .select _ _ _ _ => true
  | _ => false

section

variable [Crates]

/-- A step of the worker, with a number for its statement: the system, and the worker unless it is
over. A panic ends it as well. -/
def Worker.step (dispatch : DispatchConfig) (config : RetentionConfig) (s : Phased) (next : ℕ)
    (w : Worker) (a : Act) : Option (Phased × Option Worker) :=
  match w.stage, a with
  | .sleeping _, .cancel => some (s, none)
  | .sleeping wake, .wake =>
    if wake ≤ s.base.now then
      some (s, do
        let processedCutoff ← cutoff s.base.now config.processedRetentionDays
        let deadLetterCutoff ← cutoff s.base.now config.deadLetterRetentionDays
        return { w with stage := .deleting deadLetterCutoff processedCutoff })
    else none
  | .deleting deadLetterCutoff processedCutoff, .send ok =>
    match phasedStep dispatch s
        (.select next deadLetterCutoff processedCutoff config.batchLimit.toInt64.toInt), ok with
    | some s', true =>
      some (s', some { w with stage := .awaiting next deadLetterCutoff processedCutoff })
    | _, _ => some (s, some (w.sleep config s.base.now))
  | .awaiting p deadLetterCutoff processedCutoff, .reply ok =>
    if ok then
      if (s.deletions p).isNone then
        some (s, some { w with stage := .measuring deadLetterCutoff processedCutoff })
      else none
    else some (s, some (w.sleep config s.base.now))
  | .measuring deadLetterCutoff processedCutoff, .measure ok =>
    let age := oldestTerminalEventAgeSeconds s.base.db s.base.now deadLetterCutoff processedCutoff
    some (s, some (Worker.sleep config s.base.now (if ok then { w with gauge := some age } else w)))
  | _, _ => none

def step (dispatch : DispatchConfig) (config : RetentionConfig) (c : Fleet) : Action → Option Fleet
  | .system a =>
    if isSelect a then none else (phasedStep dispatch c.sys a).map ({ c with sys := · })
  | .start k delay =>
    if (c.workers k).isNone ∧ config.enabled ∧
        (if config.cleanupIntervalSecs > 0 then delay < config.cleanupIntervalSecs.toNat
          else delay = 0) then
      some { c with
        workers := Function.update c.workers k
          (some { stage := .sleeping (c.sys.base.now + fromSecs delay) }) }
    else none
  | .crash k => some { c with workers := Function.update c.workers k none }
  | .worker k a => do
    let w ← c.workers k
    let (sys, w') ← w.step dispatch config c.sys c.next a
    return { sys, workers := Function.update c.workers k w', next := c.next + 1 }

end

def boot (now : Time) (scheds : ℕ → Sched) : Fleet where
  sys := start now scheds
  workers := fun _ => none
  next := 0

/-! ### What a step can do -/

section

variable [Crates] {dispatch : DispatchConfig} {config : RetentionConfig}

/-- The cases of a worker's step. -/
inductive WorkerStep (dispatch : DispatchConfig) (config : RetentionConfig) (s : Phased) (next : ℕ)
    (w : Worker) : Act → Phased → Option Worker → Prop
  | cancelled : WorkerStep dispatch config s next w .cancel s none
  | panicked : WorkerStep dispatch config s next w .wake s none
  | woke (w' : Worker) (deadLetterCutoff processedCutoff : Time)
      (hp : cutoff s.base.now config.processedRetentionDays = some processedCutoff)
      (hd : cutoff s.base.now config.deadLetterRetentionDays = some deadLetterCutoff)
      (hw' : w'.stage = .deleting deadLetterCutoff processedCutoff) :
      WorkerStep dispatch config s next w .wake s (some w')
  | unsent (w' : Worker) (ok : Bool) (wake : Time) (hw' : w'.stage = .sleeping wake) :
      WorkerStep dispatch config s next w (.send ok) s (some w')
  | sent (s' : Phased) (w' : Worker) (deadLetterCutoff processedCutoff : Time)
      (hw : w.stage = .deleting deadLetterCutoff processedCutoff)
      (hs : phasedStep dispatch s (.select next deadLetterCutoff processedCutoff
        config.batchLimit.toInt64.toInt) = some s')
      (hw' : w'.stage = .awaiting next deadLetterCutoff processedCutoff) :
      WorkerStep dispatch config s next w (.send true) s' (some w')
  | answered (w' : Worker) (p : ℕ) (deadLetterCutoff processedCutoff : Time)
      (hw : w.stage = .awaiting p deadLetterCutoff processedCutoff) (hd : s.deletions p = none)
      (hw' : w'.stage = .measuring deadLetterCutoff processedCutoff) :
      WorkerStep dispatch config s next w (.reply true) s (some w')
  | failed (w' : Worker) (wake : Time) (hw' : w'.stage = .sleeping wake) :
      WorkerStep dispatch config s next w (.reply false) s (some w')
  | measured (w' : Worker) (ok : Bool) (wake : Time) (hw' : w'.stage = .sleeping wake) :
      WorkerStep dispatch config s next w (.measure ok) s (some w')

theorem workerStep_of_step {s s' : Phased} {next : ℕ} {w : Worker} {w' : Option Worker} {a : Act}
    (h : w.step dispatch config s next a = some (s', w')) :
    WorkerStep dispatch config s next w a s' w' := by
  unfold Worker.step at h
  split at h
  · cases h
    exact .cancelled
  · split_ifs at h
    obtain ⟨rfl, rfl⟩ := Prod.mk.inj (Option.some.inj h)
    rcases hp : cutoff s.base.now config.processedRetentionDays with _ | pc
    · exact .panicked
    · rcases hd : cutoff s.base.now config.deadLetterRetentionDays with _ | dc
      · exact .panicked
      · exact .woke _ dc pc hp hd rfl
  · next dc pc ok hw =>
    split at h
    · next s₁ _ hs =>
      cases h
      exact .sent s' _ dc pc hw hs rfl
    · cases h
      exact .unsent _ _ _ rfl
  · next p dc pc ok hw =>
    split_ifs at h with hok hd
    · cases h
      rw [hok]
      exact .answered _ p dc pc hw (Option.isNone_iff_eq_none.mp hd) rfl
    · cases h
      rw [Bool.eq_false_of_not_eq_true hok]
      exact .failed _ _ rfl
  · cases h
    exact .measured _ _ _ rfl
  · cases h

/-- A worker that is about to delete has just computed its cutoffs. -/
theorem cutoffs_of_workerStep {s s' : Phased} {next : ℕ} {w w' : Worker} {b : Act}
    {deadLetterCutoff processedCutoff : Time}
    (h : WorkerStep dispatch config s next w b s' (some w'))
    (hst : w'.stage = .deleting deadLetterCutoff processedCutoff) :
    cutoff s.base.now config.processedRetentionDays = some processedCutoff ∧
      cutoff s.base.now config.deadLetterRetentionDays = some deadLetterCutoff := by
  cases h with
  | woke _ dc pc hp hd hw' =>
    rw [hst] at hw'
    cases hw'
    exact ⟨hp, hd⟩
  | unsent _ _ _ hw' | sent _ _ _ _ _ _ hw' | answered _ _ _ _ _ _ hw' | failed _ _ hw'
  | measured _ _ _ hw' =>
    rw [hst] at hw'
    cases hw'

/-- What a worker does to the system is to begin a deletion. -/
theorem select_of_workerStep {s s' : Phased} {next : ℕ} {w : Worker} {w' : Option Worker} {b : Act}
    (h : WorkerStep dispatch config s next w b s' w') :
    s' = s ∨ ∃ deadLetterCutoff processedCutoff n,
      phasedStep dispatch s (.select next deadLetterCutoff processedCutoff n) = some s' := by
  cases h with
  | sent _ _ dc pc _ hs => exact .inr ⟨dc, pc, _, hs⟩
  | _ => exact .inl rfl

variable {c c' : Fleet} {a : Action}

/-- The cases of a step. -/
inductive FleetStep (dispatch : DispatchConfig) (config : RetentionConfig) (c : Fleet) :
    Action → Fleet → Prop
  | system (a : PhasedAction) (s : Phased) (ha : isSelect a = false)
      (hs : phasedStep dispatch c.sys a = some s) :
      FleetStep dispatch config c (.system a) { c with sys := s }
  | started (k delay : ℕ) (w : Worker)
      (hw : w.stage = .sleeping (c.sys.base.now + fromSecs delay)) :
      FleetStep dispatch config c (.start k delay)
        { c with workers := Function.update c.workers k (some w) }
  | crashed (k : ℕ) :
      FleetStep dispatch config c (.crash k) { c with workers := Function.update c.workers k none }
  | worker (k : ℕ) (b : Act) (w : Worker) (s : Phased) (w' : Option Worker)
      (hk : c.workers k = some w) (h : WorkerStep dispatch config c.sys c.next w b s w') :
      FleetStep dispatch config c (.worker k b)
        { sys := s, workers := Function.update c.workers k w', next := c.next + 1 }

theorem fleetStep_of_step (h : step dispatch config c a = some c') :
    FleetStep dispatch config c a c' := by
  cases a with
  | system a =>
    dsimp only [step] at h
    split_ifs at h with hsel
    obtain ⟨s, hs, rfl⟩ := Option.map_eq_some_iff.mp h
    exact .system a s (by simpa using hsel) hs
  | start k delay =>
    obtain ⟨-, h⟩ := Option.ite_none_right_eq_some.mp h
    cases h
    exact .started k delay _ rfl
  | crash k =>
    cases h
    exact .crashed k
  | worker k b =>
    obtain ⟨w, hk, h⟩ := Option.bind_eq_some_iff.mp h
    obtain ⟨⟨s, w'⟩, hs, h⟩ := Option.bind_eq_some_iff.mp h
    cases h
    exact .worker k b w s w' hk (workerStep_of_step hs)

/-- **The workers take steps of the system.** -/
theorem system_of_step (h : FleetStep dispatch config c a c') :
    c'.sys = c.sys ∨ ∃ a, phasedStep dispatch c.sys a = some c'.sys := by
  cases h with
  | system a s ha hs => exact .inr ⟨a, hs⟩
  | started | crashed => exact .inl rfl
  | worker k b w s w' hk h =>
    rcases select_of_workerStep h with heq | ⟨dc, pc, n, hs⟩
    · exact .inl heq
    · exact .inr ⟨_, hs⟩

/-- A statement that has been sent stays as it is until it is executed. -/
theorem deletions_of_step (h : FleetStep dispatch config c a c') {p : ℕ} (hp : p < c.next) :
    c'.sys.deletions p = c.sys.deletions p ∨ a = .system (.delete p) := by
  cases h with
  | system a s ha hs =>
    cases phasedStep_cases hs with
    | base | read | update => exact .inl rfl
    | select => cases ha
    | delete q x hx =>
      rcases eq_or_ne p q with rfl | hne
      · exact .inr rfl
      · exact .inl (Function.update_of_ne hne _ _)
  | started | crashed => exact .inl rfl
  | worker k b w s w' hk h =>
    refine .inl ?_
    rcases select_of_workerStep h with heq | ⟨dc, pc, n, hs⟩
    · rw [heq]
    · obtain ⟨events, -, hs⟩ := Option.map_eq_some_iff.mp hs
      cases hs
      exact Function.update_of_ne hp.ne _ _

/-- A worker is as it was, or it has just been started, or the step is its own. -/
theorem workers_of_step (h : FleetStep dispatch config c a c') {k : ℕ} {w : Worker}
    (hk : c'.workers k = some w) :
    c.workers k = some w ∨ (∃ t, w.stage = .sleeping t) ∨
      ∃ b w₀, a = .worker k b ∧ c.workers k = some w₀ ∧
        WorkerStep dispatch config c.sys c.next w₀ b c'.sys (some w) := by
  have hupdate : ∀ {k' : ℕ} {w' : Option Worker}, Function.update c.workers k' w' k = some w →
      c.workers k = some w ∨ k = k' ∧ w' = some w := by
    intro k' w' hu
    rcases eq_or_ne k k' with rfl | hne
    · exact .inr ⟨rfl, by rwa [Function.update_self] at hu⟩
    · exact .inl (by rwa [Function.update_of_ne hne] at hu)
  cases h with
  | system => exact .inl hk
  | started k' delay w' hw' =>
    rcases hupdate hk with hk | ⟨-, hw⟩
    · exact .inl hk
    · cases hw
      exact .inr (.inl ⟨_, hw'⟩)
  | crashed k' =>
    rcases hupdate hk with hk | ⟨-, hw⟩
    · exact .inl hk
    · cases hw
  | worker k' b w₀ s w' hw₀ h =>
    rcases hupdate hk with hk | ⟨rfl, rfl⟩
    · exact .inl hk
    · exact .inr (.inr ⟨b, w₀, rfl, hw₀, h⟩)

theorem next_le (h : FleetStep dispatch config c a c') : c.next ≤ c'.next := by
  cases h with
  | system | started | crashed => exact le_rfl
  | worker => exact Nat.le_succ _

theorem system_of_run {ok : Fleet → Action → Fleet → Prop} {now : Time} {scheds : ℕ → Sched}
    (h : Run (step dispatch config) ok (boot now scheds) c) :
    Run (phasedStep dispatch) anyStep (start now scheds) c.sys :=
  h.invariant (fun c => Run (phasedStep dispatch) anyStep (start now scheds) c.sys) .refl
    fun c a c' hi hs _ => by
      rcases system_of_step (fleetStep_of_step hs) with heq | ⟨b, hb⟩
      · rw [heq]
        exact hi
      · exact hi.tail hb trivial

/-! ### The events before an event -/

/-- The ids below that of `e`, of events that are there or may yet be committed. -/
def below (e : RawEvent) (s : Sys) : Finset ℤ :=
  (((s.db.events.rows ++ s.uncommitted).map (·.id)).filter (· < e.id)).toFinset

omit [Crates] in
theorem mem_below {e : RawEvent} {s : Sys} {n : ℤ} :
    n ∈ below e s ↔ n < e.id ∧ ∃ e' ∈ s.db.events.rows ++ s.uncommitted, e'.id = n := by
  simp only [below, List.mem_toFinset, List.mem_filter, List.mem_map, decide_eq_true_eq]
  exact and_comm

theorem mem_uncommitted_step {s s' : Sys} {a : System.Action} (h : Step dispatch s a s')
    {e : RawEvent} (he : e ∈ s'.uncommitted) : e ∈ s.uncommitted ∨ e.id = s.eventSeq := by
  cases h with
  | publish e₀ hf =>
    rcases List.mem_append.mp he with he | he
    · exact .inl he
    · exact .inr (by rw [List.mem_singleton.mp he])
  | commit | rollback => exact .inl (List.mem_of_mem_filter he)
  | _ => exact .inl he

/-- What is published later comes later. -/
theorem below_step {s s' : Sys} {a : System.Action} {e : RawEvent} (hw : EventsWF s)
    (he : e ∈ s.committed) (h : Step dispatch s a s') : below e s' ⊆ below e s := by
  intro n hn
  obtain ⟨hlt, e', he', rfl⟩ := mem_below.mp hn
  refine mem_below.mpr ⟨hlt, ?_⟩
  rcases List.mem_append.mp he' with he' | he'
  · rcases mem_events_step h he' with he' | ⟨-, hun, -⟩
    · exact ⟨e', List.mem_append_left _ he', rfl⟩
    · exact ⟨e', List.mem_append_right _ hun, rfl⟩
  · rcases mem_uncommitted_step h he' with he' | hid
    · exact ⟨e', List.mem_append_right _ he', rfl⟩
    · have hseq := (hw.ids e (List.mem_append_left _ he)).2
      omega

theorem below_phasedStep {s s' : Phased} {a : PhasedAction} {e : RawEvent} (hw : EventsWF s.base)
    (he : e ∈ s.base.committed) (h : phasedStep dispatch s a = some s') :
    below e s'.base ⊆ below e s.base := by
  rcases base_cases (phasedStep_cases h) with ⟨-, hsame⟩ | ⟨b, -, hstep⟩ | ⟨p, u, -, -, hbase⟩
  · rw [hsame]
  · exact below_step hw he hstep
  · rw [hbase]
    exact Finset.Subset.refl _

/-! ### A deletion -/

/-- What the deletion `p` is good for, that was begun when the ids `B` were before `e`: it takes `e`
or `n` of them, and once it is done they are gone. -/
def Takes (e : RawEvent) (n : ℕ) (B : Finset ℤ) (s : Phased) (p : ℕ) : Prop :=
  match s.deletions p with
  | some x =>
    e ∈ x.events ∨ ∃ S ⊆ B, S.card = n ∧ ∀ i ∈ S, ∃ b ∈ x.events, b.id = i ∧ b ∈ s.base.committed
  | none => (below e s.base).card + n ≤ B.card

/-- **A deletion selects** an event that it could select, or a batch of events before it. -/
theorem takes_select {s s' : Phased} {e : RawEvent} {p : ℕ}
    {deadLetterCutoff processedCutoff : Time} {n : ℕ} (hw : EventsWF s.base)
    (h : phasedStep dispatch s (.select p deadLetterCutoff processedCutoff n) = some s')
    (he : e ∈ s.base.db.events.rows)
    (hdel : deletable s.base.db deadLetterCutoff processedCutoff e) :
    Takes e n (below e s.base) s' p := by
  dsimp only [phasedStep] at h
  obtain ⟨events, hevents, h⟩ := Option.map_eq_some_iff.mp h
  have heq : events = (eligible s.base.db deadLetterCutoff processedCutoff).take n :=
    Option.some.inj (hevents.symm.trans (terminalEvents_eq _ _ _ (Int.natCast_nonneg n)))
  cases h
  simp only [Takes, Function.update_self]
  by_cases hm : e ∈ events
  · exact .inl hm
  · rw [heq] at hm ⊢
    have hsorted := eligible_lt s.base.db deadLetterCutoff processedCutoff
    obtain ⟨hlt, hlen⟩ := take_of_notMem hsorted (mem_eligible.mpr ⟨he, hdel⟩) hm
    have hmem := mem_of_mem_batch s.base.db deadLetterCutoff processedCutoff n
    refine .inr
      ⟨(((eligible s.base.db deadLetterCutoff processedCutoff).take n).map (·.id)).toFinset,
      fun i hi => ?_, ?_, fun i hi => ?_⟩
    · obtain ⟨b, hb, rfl⟩ := List.mem_map.mp (List.mem_toFinset.mp hi)
      exact mem_below.mpr ⟨hlt b hb, b, List.mem_append_left _ (hmem b hb), rfl⟩
    · have hids := (hsorted.sublist (List.take_sublist n _)).imp fun h => h.ne
      rw [List.toFinset_card_of_nodup (List.pairwise_map.mpr hids), List.length_map]
      exact hlen
    · obtain ⟨b, hb, rfl⟩ := List.mem_map.mp (List.mem_toFinset.mp hi)
      exact ⟨b, hb, rfl, hw.visible b (hmem b hb)⟩

/-- **It deletes** what is left of them. -/
theorem takes_delete {s s' : Phased} {e : RawEvent} {p n : ℕ} {B : Finset ℤ} (hw : EventsWF s.base)
    (hB : below e s.base ⊆ B) (hi : Takes e n B s p)
    (h : phasedStep dispatch s (.delete p) = some s') (hstay : e ∈ s'.base.db.events.rows) :
    Takes e n B s' p := by
  obtain ⟨x, hx, h⟩ := Option.map_eq_some_iff.mp h
  cases h
  simp only [Takes, hx] at hi
  simp only [Takes, Function.update_self]
  rw [mem_events_deleteEvents] at hstay
  rcases hi with hi | ⟨S, hS, rfl, hids⟩
  · have hyes : x.events.any (·.id == e.id) = true :=
      List.any_eq_true.mpr ⟨e, hi, beq_self_eq_true _⟩
    rw [hstay.2] at hyes
    cases hyes
  · -- an id of the batch is neither that of an event that is left nor that of one to come
    have hdisj : Disjoint (below e { s.base with
        db := s.base.db.deleteEvents fun e => x.events.any (·.id == e.id) }) S := by
      refine Finset.disjoint_left.mpr fun i hi hiS => ?_
      obtain ⟨-, e', he', rfl⟩ := mem_below.mp hi
      obtain ⟨b, hb, hid, hcom⟩ := hids _ hiS
      rcases List.mem_append.mp he' with he' | he'
      · have hyes : x.events.any (·.id == e'.id) = true :=
          List.any_eq_true.mpr ⟨b, hb, beq_iff_eq.mpr hid⟩
        rw [(mem_events_deleteEvents.mp he').2] at hyes
        cases hyes
      · have hnd := hw.ids_nodup
        rw [List.map_append, List.nodup_append] at hnd
        exact hnd.2.2 _ (List.mem_map_of_mem hcom) _ (List.mem_map_of_mem he') hid
    rw [← Finset.card_union_of_disjoint hdisj]
    refine Finset.card_le_card (Finset.union_subset (fun i hi => hB ?_) hS)
    obtain ⟨hlt, e', he', rfl⟩ := mem_below.mp hi
    refine mem_below.mpr ⟨hlt, e', ?_, rfl⟩
    rcases List.mem_append.mp he' with he' | he'
    · exact List.mem_append_left _ (mem_events_deleteEvents.mp he').1
    · exact List.mem_append_right _ he'

omit [Crates] in
theorem Takes.mono {s s' : Phased} {e : RawEvent} {p n : ℕ} {B : Finset ℤ} (hi : Takes e n B s p)
    (hd : s'.deletions p = s.deletions p) (hbelow : below e s'.base ⊆ below e s.base)
    (hcom : s.base.committed ⊆ s'.base.committed) : Takes e n B s' p := by
  unfold Takes at hi ⊢
  rw [hd]
  split
  · next x hx =>
    rw [hx] at hi
    rcases hi with hi | ⟨S, hS, hcard, hids⟩
    · exact .inl hi
    · refine .inr ⟨S, hS, hcard, fun i hi => ?_⟩
      obtain ⟨b, hb, hid, hb'⟩ := hids i hi
      exact ⟨b, hb, hid, hcom hb'⟩
  · next hx =>
    rw [hx] at hi
    exact (Nat.add_le_add_right (Finset.card_le_card hbelow) n).trans hi

/-! ### Catching up -/

/-- All deliveries of the event are terminal. -/
def Finished (db : Db) (e : RawEvent) : Bool := (rowsOf db e).all (·.terminal)

def PastWindow (config : RetentionConfig) (now : Time) (e : RawEvent) : Prop :=
  ∀ days ∈ [config.processedRetentionDays, config.deadLetterRetentionDays],
    ∃ t ∈ cutoff now days, e.createdAt < t

instance (config : RetentionConfig) (now : Time) (e : RawEvent) :
    Decidable (PastWindow config now e) :=
  -- by the list, which has two elements, and not by all the values of a `u64`
  @List.decidableBAll _ (fun days => ∃ t ∈ cutoff now days, e.createdAt < t)
    (fun days => Option.decidableExistsMem (cutoff now days)) _

omit [Crates] in
theorem cutoff_mono {now now' t t' : Time} {days : UInt64} (h : cutoff now days = some t)
    (h' : cutoff now' days = some t') (hle : now ≤ now') : t ≤ t' := by
  obtain ⟨delta, hdelta, ht⟩ := Option.bind_eq_some_iff.mp h
  obtain ⟨delta', hdelta', ht'⟩ := Option.bind_eq_some_iff.mp h'
  obtain rfl : delta = delta' := Option.some.inj (hdelta.symm.trans hdelta')
  rw [← (subTimeDelta_eq_some.mp ht).2, ← (subTimeDelta_eq_some.mp ht').2]
  exact Int.sub_le_sub_right hle delta

omit [Crates] in
theorem PastWindow.lt {now now' t : Time} {e : RawEvent} {days : UInt64}
    (h : PastWindow config now e)
    (hm : days ∈ [config.processedRetentionDays, config.deadLetterRetentionDays]) (hle : now ≤ now')
    (ht : cutoff now' days = some t) : e.createdAt < t := by
  obtain ⟨t₀, ht₀, hlt⟩ := h days hm
  exact hlt.trans_le (cutoff_mono ht₀ ht hle)

/-- The worker, if it is about to delete, will find the event old enough. -/
def Aimed (e : RawEvent) (k : ℕ) (c : Fleet) : Prop :=
  ∀ w deadLetterCutoff processedCutoff, c.workers k = some w →
    w.stage = .deleting deadLetterCutoff processedCutoff →
      e.createdAt < deadLetterCutoff ∧ e.createdAt < processedCutoff

theorem aimed_step {e : RawEvent} {k : ℕ} {now : Time} (hpast : PastWindow config now e)
    (hle : now ≤ c.sys.base.now) (hi : Aimed e k c) (h : FleetStep dispatch config c a c') :
    Aimed e k c' := by
  intro w dc pc hk hst
  rcases workers_of_step h hk with hk | ⟨t, ht⟩ | ⟨b, w₀, -, hw₀, hstep⟩
  · exact hi w dc pc hk hst
  · rw [hst] at ht
    cases ht
  · obtain ⟨hp, hd⟩ := cutoffs_of_workerStep hstep hst
    exact ⟨hpast.lt (by simp) hle hd, hpast.lt (by simp) hle hp⟩

/-- The worker is told that its deletion is done. -/
def isDone (k : ℕ) : Action → Bool
  | .worker k' (.reply ok) => k' = k ∧ ok
  | _ => false

omit [Crates] in
theorem deletable_of_past {db : Db} {e : RawEvent} {deadLetterCutoff processedCutoff : Time}
    (hf : Finished db e) (hd : e.createdAt < deadLetterCutoff)
    (hp : e.createdAt < processedCutoff) : deletable db deadLetterCutoff processedCutoff e := by
  unfold deletable
  rw [Bool.and_eq_true, decide_eq_true_iff]
  refine ⟨hf, ?_⟩
  split_ifs
  · exact hd
  · exact hp

/-- The deletions that worker `k` has been told of have taken `spent` of the events before `e`, of
which there were `total`; and the one that it waits for is good for the rest. -/
def Budget (e : RawEvent) (k n spent total : ℕ) (c : Fleet) : Prop :=
  ∃ B, below e c.sys.base ⊆ B ∧ spent + B.card ≤ total ∧
    ∀ w p deadLetterCutoff processedCutoff, c.workers k = some w →
      w.stage = .awaiting p deadLetterCutoff processedCutoff → p < c.next ∧ Takes e n B c.sys p

omit [Crates] in
theorem Budget.card_le {e : RawEvent} {k n spent total : ℕ} (h : Budget e k n spent total c) :
    spent + (below e c.sys.base).card ≤ total := by
  obtain ⟨B, hB, hle, -⟩ := h
  have := Finset.card_le_card hB
  omega

omit [Crates] in
/-- When it waits for none, what is left is what counts. -/
theorem budget_of_idle {e : RawEvent} {k n spent total : ℕ}
    (hle : spent + (below e c.sys.base).card ≤ total)
    (hidle : ∀ w p dc pc, c.workers k = some w → w.stage ≠ .awaiting p dc pc) :
    Budget e k n spent total c :=
  ⟨_, Finset.Subset.refl _, hle, fun w p dc pc hk hst => absurd hst (hidle w p dc pc hk)⟩

theorem budget_others {e : RawEvent} {k n spent total : ℕ} (hw : PhasedWF dispatch c.sys)
    (he : e ∈ c.sys.base.db.events.rows) (hi : Budget e k n spent total c)
    (h : FleetStep dispatch config c a c') (hstay : e ∈ c'.sys.base.db.events.rows)
    (hk : ∀ w p dc pc, c'.workers k = some w → w.stage = .awaiting p dc pc → c.workers k = some w) :
    Budget e k n spent total c' := by
  obtain ⟨B, hB, hle, htakes⟩ := hi
  have hcom := hw.wf.events.visible e he
  have hbelow : below e c'.sys.base ⊆ below e c.sys.base := by
    rcases system_of_step h with heq | ⟨b, hb⟩
    · rw [heq]
    · exact below_phasedStep hw.wf.events hcom hb
  refine ⟨B, hbelow.trans hB, hle, fun w p dc pc hk' hst => ?_⟩
  obtain ⟨hp, hi⟩ := htakes w p dc pc (hk w p dc pc hk' hst) hst
  refine ⟨hp.trans_le (next_le h), ?_⟩
  rcases deletions_of_step h hp with hd | rfl
  · refine hi.mono hd hbelow fun b hb => ?_
    rcases system_of_step h with heq | ⟨b, hs⟩
    · rwa [heq]
    · exact (phasedStep_cases hs).committed_subset hb
  · cases h with
    | system _ s _ hs => exact takes_delete hw.wf.events hB hi hs hstay

theorem budget_own {e : RawEvent} {k spent total : ℕ} {b : Act} {w : Worker} {w' : Option Worker}
    (hb : config.batchLimit.toNat < 2 ^ 63) (hw : PhasedWF dispatch c.sys) (haim : Aimed e k c)
    (he : e ∈ c.sys.base.db.events.rows) (hf : Finished c.sys.base.db e)
    (hi : Budget e k config.batchLimit.toNat spent total c) (hk : c.workers k = some w)
    (h : WorkerStep dispatch config c.sys c.next w b c'.sys w') (hk' : c'.workers k = w')
    (hnext : c.next < c'.next) :
    Budget e k config.batchLimit.toNat
      (spent + if isDone k (.worker k b) then config.batchLimit.toNat else 0) total c' := by
  have hcard := hi.card_le
  generalize hs : c'.sys = s at h
  cases h with
  | cancelled | panicked =>
    refine budget_of_idle (hs ▸ hcard) fun _ _ _ _ hk₁ => ?_
    rw [hk'] at hk₁
    cases hk₁
  | woke _ _ _ _ _ hw' | unsent _ _ _ hw' | failed _ _ hw' | measured _ _ _ hw' =>
    refine budget_of_idle (by simpa [isDone, hs] using hcard) fun _ _ _ _ hk₁ hst => ?_
    obtain rfl := Option.some.inj (hk'.symm.trans hk₁)
    rw [hw'] at hst
    cases hst
  | sent _ w' dc pc hst hsel hw' =>
    obtain ⟨hdc, hpc⟩ := haim w dc pc hk hst
    have hlimit : config.batchLimit.toInt64.toInt = config.batchLimit.toNat := by
      rcases toInt64_cases config.batchLimit with ⟨-, hlimit⟩ | ⟨hbig, -⟩
      · exact hlimit
      · omega
    rw [hlimit] at hsel
    have hsub := below_phasedStep hw.wf.events (hw.wf.events.visible e he) hsel
    refine ⟨below e c.sys.base, hs ▸ hsub, hcard, fun _ _ _ _ hk₁ hst₁ => ?_⟩
    obtain rfl := Option.some.inj (hk'.symm.trans hk₁)
    rw [hw'] at hst₁
    cases hst₁
    exact ⟨hnext, hs ▸ takes_select hw.wf.events hsel he (deletable_of_past hf hdc hpc)⟩
  | answered w' p dc pc hst hd hw' =>
    obtain ⟨B, hB, hle, htakes⟩ := hi
    have hdone := (htakes w p dc pc hk hst).2
    simp only [Takes, hd] at hdone
    refine budget_of_idle ?_ fun _ _ _ _ hk₁ hst₁ => ?_
    · rw [hs, if_pos (by simp [isDone])]
      omega
    · obtain rfl := Option.some.inj (hk'.symm.trans hk₁)
      rw [hw'] at hst₁
      cases hst₁

/-- **Every deletion the worker is told of has taken a batch of the events before `e`**, and nothing
adds to them. -/
theorem budget_step {e : RawEvent} {k spent total : ℕ} (hb : config.batchLimit.toNat < 2 ^ 63)
    (hw : PhasedWF dispatch c.sys) (haim : Aimed e k c) (he : e ∈ c.sys.base.db.events.rows)
    (hf : Finished c.sys.base.db e) (hi : Budget e k config.batchLimit.toNat spent total c)
    (h : FleetStep dispatch config c a c') (hstay : e ∈ c'.sys.base.db.events.rows) :
    Budget e k config.batchLimit.toNat
      (spent + if isDone k a then config.batchLimit.toNat else 0) total c' := by
  by_cases ha : ∃ b, a = .worker k b
  · obtain ⟨b, rfl⟩ := ha
    cases h with
    | worker _ _ w s w' hk h =>
      exact budget_own hb hw haim he hf hi hk h (Function.update_self ..) (Nat.lt_succ_self _)
  · have hdone : isDone k a = false := by
      unfold isDone
      split
      · exact decide_eq_false fun h => ha ⟨_, by rw [h.1]⟩
      · rfl
    rw [hdone]
    refine budget_others hw he hi h hstay fun w p dc pc hk hst => ?_
    rcases workers_of_step h hk with hk | ⟨t, ht⟩ | ⟨b, w₀, rfl, -, -⟩
    · exact hk
    · rw [ht] at hst
      cases hst
    · exact absurd ⟨b, rfl⟩ ha

theorem stays_of_id {e : RawEvent} (hw : PhasedWF dispatch c.sys)
    (he : e ∈ c.sys.base.db.events.rows)
    (h : FleetStep dispatch config c a c') (hw' : PhasedWF dispatch c'.sys)
    (hsome : (c'.sys.base.db.events.get e.id).isSome) : e ∈ c'.sys.base.db.events.rows := by
  obtain ⟨e', he'⟩ := Option.isSome_iff_exists.mp hsome
  obtain ⟨hm, hid⟩ := Table.get_eq_some_iff.mp he'
  have hc : e ∈ c'.sys.base.committed := by
    rcases system_of_step h with heq | ⟨b, hb⟩
    · rw [heq]
      exact hw.wf.events.visible e he
    · exact (phasedStep_cases hb).committed_subset (hw.wf.events.visible e he)
  have heq : e' = e := List.inj_on_of_nodup_map hw'.wf.events.ids_nodup
    (List.mem_append_left _ (hw'.wf.events.visible e' hm)) (List.mem_append_left _ hc) hid
  exact heq ▸ hm

/-- The worker has no deletion before it or under way. -/
def Stage.isIdle : Stage → Bool
  | .sleeping _ | .measuring _ _ => true
  | _ => false

/-- **Retention catches up.** An event is past its windows, and worker `k` is between two deletions,
or does not run. From then on, with any number of workers, which fail, crash and start again,
however their deletions overlap, and whatever publishers, dispatchers and operators do to other
events: as long as the event is finished and still there, the deletions that worker `k` has been
told of have taken no more events in all than were before it at first. So it is deleted after as
many as these fill, and one more. -/
theorem retention_catches_up {e : RawEvent} {now : Time} {scheds : ℕ → Sched} (hq : Quiet scheds)
    (h : Run (step dispatch config) anyStep (boot now scheds) c)
    (hb : config.batchLimit.toNat < 2 ^ 63)
    (he : c.sys.base.db.events.get e.id = some e) (hpast : PastWindow config c.sys.base.now e)
    {k : ℕ} (hidle : ∀ w, c.workers k = some w → w.stage.isIdle) {l : List Action}
    (hpath : Path (fun c a c' => step dispatch config c a = some c' ∧ Finished c.sys.base.db e ∧
      (c'.sys.base.db.events.get e.id).isSome) c l c') :
    l.countP (isDone k) * config.batchLimit.toNat ≤ (below e c.sys.base).card := by
  have hw := phasedWF_of_run (phasedWF_start now hq) (system_of_run h)
  replace he := Table.mem_of_get he
  have hinv : PhasedWF dispatch c'.sys ∧ c.sys.base.now ≤ c'.sys.base.now ∧ Aimed e k c' ∧
      e ∈ c'.sys.base.db.events.rows ∧
      Budget e k config.batchLimit.toNat (l.countP (isDone k) * config.batchLimit.toNat)
        (below e c.sys.base).card c' := by
    induction hpath with
    | nil =>
      refine ⟨hw, le_rfl, fun w dc pc hk hst => ?_, he,
        budget_of_idle (by simp) fun w p dc pc hk hst => ?_⟩
      all_goals
        have hi := hidle w hk
        rw [hst] at hi
        cases hi
    | @cons c₁ c₂ l a hpath hstep ih =>
      obtain ⟨hw₁, hnow, haim, he₁, hbudget⟩ := ih
      obtain ⟨hs, hf, hstay⟩ := hstep
      replace hs := fleetStep_of_step hs
      have hw₂ : PhasedWF dispatch c₂.sys := by
        rcases system_of_step hs with heq | ⟨b, hb⟩
        · rwa [heq]
        · exact phasedWF_step hw₁ (phasedStep_cases hb)
      have hstay := stays_of_id hw₁ he₁ hs hw₂ hstay
      have hbudget := budget_step hb hw₁ haim he₁ hf hbudget hs hstay
      refine ⟨hw₂, ?_, aimed_step hpast hnow haim hs, hstay, ?_⟩
      · rcases system_of_step hs with heq | ⟨b, hb⟩
        · rwa [heq]
        · exact hnow.trans (phasedStep_cases hb).now_le
      · rw [List.countP_cons, Nat.add_mul]
        split_ifs at hbudget ⊢ <;> simpa using hbudget
  have hcard := hinv.2.2.2.2.card_le
  omega

theorem run_of_system {now : Time} {scheds : ℕ → Sched} {s : Phased}
    {ok : Phased → PhasedAction → Phased → Prop} (hok : ∀ s a s', ok s a s' → isSelect a = false)
    (h : Run (phasedStep dispatch) ok (start now scheds) s) :
    Run (step dispatch config) anyStep (boot now scheds) ⟨s, fun _ => none, 0⟩ := by
  induction h with
  | refl => exact .refl
  | @tail s s' a _ hs ho ih =>
    refine ih.tail (a := .system a) ?_ trivial
    simp only [step, hok s a s' ho, hs]
    rfl

end

/-- Two events whose deliveries an operator has abandoned, a month later. -/
def twoOld : List PhasedAction :=
  ([.publish (sampleEvent 1 [sampleCallback "hook_a" []]), .commit 1,
    .publish (sampleEvent 2 [sampleCallback "hook_a" []]), .commit 2, .sched 0 .poll,
    .sched 0 (.write .ok), .sched 0 .next, .sched 0 (.write .ok), .sched 0 .next, .abandon 1,
    .abandon 2, .tick (fromSecs (31 * 86400))] : List System.Action).map .base

/-- One event at a time. -/
def oneByOne : RetentionConfig := { enabled := true, batchLimit := 1 }

/-- Two workers begin their deletions at the same time, and both are told that they are done. -/
def overlapping : List Action :=
  [.start 0 0, .start 1 0, .worker 0 .wake, .worker 1 .wake, .worker 0 (.send true),
    .worker 1 (.send true), .system (.delete 2), .system (.delete 3), .worker 0 (.reply true),
    .worker 1 (.reply true)]

/-- They have taken one event together: the bound is for each of them. -/
theorem retention_catches_up_overlapping :
    ∃ c e c', Run (@step sampleCrates {} oneByOne) anyStep (boot 0 oneScheduler) c ∧
      c.sys.base.db.events.get e.id = some e ∧ e.id = 2 ∧
      Path (fun c a c' => @step sampleCrates {} oneByOne c a = some c' ∧ Finished c.sys.base.db e ∧
        (c'.sys.base.db.events.get e.id).isSome) c overlapping.reverse c' ∧
      overlapping.reverse.countP (isDone 0) = 1 ∧ overlapping.reverse.countP (isDone 1) = 1 ∧
      (∀ k, overlapping.reverse.countP (isDone k) * 1 ≤ (below e c.sys.base).card) ∧
      c'.sys.base.db.events.rows.length = 1 := by
  obtain ⟨s, hrun, hsome⟩ :
      ∃ s, Run (@phasedStep sampleCrates {}) (fun _ a _ =>
        isSelect a = false) (start 0 oneScheduler) s ∧
        ((s.base.db.events.get 2).bind fun e => if e.id = 2 ∧ PastWindow oneByOne s.base.now e then
          (exec (@step sampleCrates {} oneByOne)
            (fun c _ c' => Finished c.sys.base.db e ∧ (c'.sys.base.db.events.get e.id).isSome)
            overlapping ⟨s, fun _ => none, 0⟩).bind fun c' =>
              if c'.sys.base.db.events.rows.length = 1 then some () else none
          else none).isSome := Run.exists_of_exec twoOld (by decide +kernel)
  obtain ⟨_, hsome⟩ := Option.isSome_iff_exists.mp hsome
  obtain ⟨e, he, hsome⟩ := Option.bind_eq_some_iff.mp hsome
  obtain ⟨⟨hid, hpast⟩, hsome⟩ := Option.ite_none_right_eq_some.mp hsome
  obtain ⟨c', hexec, hsome⟩ := Option.bind_eq_some_iff.mp hsome
  obtain ⟨hlen, -⟩ := Option.ite_none_right_eq_some.mp hsome
  rw [← hid] at he
  have hrun' := @run_of_system sampleCrates {} oneByOne 0 oneScheduler s _ (fun _ _ _ h => h) hrun
  have hpath := Path.of_exec overlapping .nil hexec
  rw [List.append_nil] at hpath
  exact ⟨_, e, c', hrun', he, hid, hpath, by decide, by decide, fun k =>
    @retention_catches_up sampleCrates {} oneByOne _ c' e 0 _ quiet_oneScheduler hrun'
      (by decide) he
      hpast k (fun _ h => by cases h) _ hpath, hlen⟩

end OutboxDispatcher.Retention.Workers
