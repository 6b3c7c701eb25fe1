import Mathlib.Data.Finset.Card
import OutboxDispatcher.Callbacks.Agreement
import OutboxDispatcher.Dispatch.Redelivery
import OutboxDispatcher.System.Counts
import OutboxDispatcher.System.Phases

/-! # What a receiver can go by

Delivery is at least once, and receivers are told to be idempotent. That needs three things of the
dispatchers, in every interleaving: a call tells the event that its publisher committed, with the
payload and the metadata as the dispatcher holds them when it has read them; calls that are one
delivery carry one delivery id, which no other event or callback ever gets; and apart from the
attempt they are the same message. The event and its callback name are unique in the table, but the
table forgets: when retention has deleted an event, nothing in it stops a scheduling pass that is
still at the event from inserting its rows under new ids. The reference to the event does, as its
UUID is not used again.

So deletion is final. The rows of a deleted event do not come back, nobody takes a lock on them any
more, and of the tasks that had fetched them only those call that had taken their lock by then.

The runs are those of `System/Phases`: a deletion takes the events that it selected earlier, and a
sweep may write to a row what it read of it earlier, neither of which inserts a row or calls. -/

namespace OutboxDispatcher.Dispatch.Identity

open OutboxDispatcher.Lib.Runs OutboxDispatcher.Lib.Tables OutboxDispatcher.Lib.Checks
open OutboxDispatcher.Lib.JsonValue OutboxDispatcher.Schema OutboxDispatcher.Callbacks.Fields
open OutboxDispatcher.Callbacks.Parse OutboxDispatcher.Callbacks.Agreement
open OutboxDispatcher.Repo.Database OutboxDispatcher.Repo.Database.Db
  OutboxDispatcher.Repo.Statements
open OutboxDispatcher.Scheduler.Pass OutboxDispatcher.Dispatch OutboxDispatcher.System
open OutboxDispatcher.System.Effects OutboxDispatcher.System.History OutboxDispatcher.System.Rows
open OutboxDispatcher.System.Counts OutboxDispatcher.System.Phases
  OutboxDispatcher.Dispatch.Redelivery

section

variable [Crates] {config : DispatchConfig} {s s' : Sys} {a : Action}

/-! ### A pair of event and callback is issued once -/

/-- No two of the rows ever inserted are for one event and one callback. -/
def Keyed (s : Sys) : Prop := (s.issued.map DeliveryRow.key).Nodup

omit [Crates] in
/-- A row that is inserted is for a pair that has never been issued: a row of the pair would still
be there, as its event is. -/
theorem key_of_inserted (hi : IssuedWF s) {u : Uuid} {new : List NewDelivery} {r i : DeliveryRow}
    (hev : ∃ e ∈ s.db.events.rows, e.eventId = u) (hr : Inserted s.db s.now u new r)
    (hm : i ∈ s.issued) : i.key ≠ r.key := by
  intro hk
  obtain ⟨hu, hname⟩ := Prod.mk.inj hk
  obtain ⟨e, he, hek⟩ := hev
  have hrow := hi.present i hm e he (by rw [hek, hu, hr.eventId])
  rw [hek, hname] at hrow
  exact hr.absent hrow

theorem keyed_step (hi : IssuedWF s) (hk : Keyed s) (h : Step config s a s') : Keyed s' := by
  cases h with
  | sched p b db sch hs =>
    rcases schedStep_inserts hs with rfl | ⟨c, l, w, writes, -, -, hins⟩
    · simpa [Keyed] using hk
    · obtain ⟨added, hrows, hadd⟩ := hins.rows
      have hdrop : db.deliveries.rows.drop s.db.deliveries.rows.length = added := by simp [hrows]
      have hnew : (added.map DeliveryRow.key).Nodup := by
        have hnd := db.key_nodup
        rw [hrows, List.map_append, List.nodup_append] at hnd
        exact hnd.2.1
      show ((s.issued ++ db.deliveries.rows.drop s.db.deliveries.rows.length).map
        DeliveryRow.key).Nodup
      rw [hdrop, List.map_append]
      refine hk.append hnew fun k hk hk' => ?_
      obtain ⟨i, hm, rfl⟩ := List.mem_map.mp hk
      obtain ⟨r, hr, heq⟩ := List.mem_map.mp hk'
      exact key_of_inserted hi hins.exists_event (hadd r hr) hm heq.symm
  | _ => exact hk

/-! ### What a call tells -/

/-- The message for a callback of an event: what the publisher committed, with the JSON columns as
they are held, and which delivery and attempt this is. -/
def message (e : RawEvent) (d : ℤ) (target : CallbackTarget) (attempt : ℤ) : EventForDelivery where
  deliveryId := d
  eventId := e.eventId
  kind := e.kind
  callbackName := target.name
  mode := target.mode
  aggregateType := e.aggregateType
  aggregateId := e.aggregateId
  payload := held e.payload
  metadata := held e.metadata
  actorId := e.actorId
  correlationId := e.correlationId
  causationId := e.causationId
  createdAt := e.createdAt
  attempt := attempt

/-- The message tells the delivery `i` of the event `e`, which can be read. -/
structure Tells (config : DispatchConfig) (e : RawEvent) (i : DeliveryRow) (ev : EventForDelivery) :
    Prop where
  eventId : i.eventId = e.eventId
  decoded : decodes e
  target : ∃ t, validateNamedCallback e.callbacks i.callbackName config = .ok t ∧
    ev = message e i.id t ev.attempt

/-- Every call tells a delivery that has been issued of an event that has been committed. -/
def Told (config : DispatchConfig) (s : Sys) : Prop :=
  ∀ tid ev, .deliver tid ev ∈ s.trace → ∃ e ∈ s.committed, ∃ i ∈ s.issued, Tells config e i ev

theorem validate_of_extract {callbacks : Json} {name : String} {t : CallbackTarget}
    (h : extractCallbackTarget callbacks name config = .ok t) :
    validateNamedCallback callbacks name config = .ok t := mapError_eq_ok.mp h

theorem message_of_examineRow {row : DueDeliveryRow} {due : DueDelivery}
    (h : examineRow config row = .ok due) (hid : row.event.eventId = row.eventId) :
    buildEventForDelivery due = message row.event row.deliveryId due.target (due.attempts + 1) := by
  unfold examineRow at h
  split at h
  · cases h
    simp [buildEventForDelivery, message, hid]
  · cases h

theorem tells_of_task (hw : WF config s) {t : Task} (ht : t ∈ s.tasks.rows) {due : DueDelivery}
    (hd : t.phase.due? = some due) :
    ∃ e ∈ s.committed, ∃ i ∈ s.issued, Tells config e i (buildEventForDelivery due) := by
  have hex := hw.tasks.due t ht due hd
  obtain ⟨hev, hid, hdec, i, hi, hdel, hu, hname⟩ := hw.tasks.source t ht
  have htarget := validate_of_extract (examined_of_examineRow hex).target
  rw [← hname] at htarget
  refine ⟨t.row.event, hev, i, hi, hu.trans hid.symm, hdec, due.target, htarget, ?_⟩
  rw [hdel]
  exact message_of_examineRow hex hid

theorem told_step (hw : WF config s) (hi : Told config s) (h : Step config s a s') :
    Told config s' := by
  intro tid ev ho
  have hmono : ∀ ev, (∃ e ∈ s.committed, ∃ i ∈ s.issued, Tells config e i ev) →
      ∃ e ∈ s'.committed, ∃ i ∈ s'.issued, Tells config e i ev := by
    rintro ev ⟨e, he, i, hi, ht⟩
    exact ⟨e, committed_subset h he, i, issued_subset h hi, ht⟩
  obtain ⟨obs, htr, hobs⟩ := trace_step h
  rw [htr, List.mem_append] at ho
  rcases ho with ho | ho
  · have hstep := hobs _ ho
    generalize hoo : Obs.deliver tid ev = o at hstep
    cases hstep with
    | deliver t due u ht hp =>
      obtain ⟨rfl, rfl⟩ := Obs.deliver.inj hoo
      exact hmono _ (tells_of_task hw ht (by rw [hp]; rfl))
    | _ => cases hoo
  · exact hmono ev (hi tid ev ho)

/-- A sweep calls nobody. -/
theorem told_apply (hi : Told config s) (now : Time) (u : ToUpdate) :
    Told config (u.apply now s) := by
  intro tid ev ho
  rcases List.mem_append.mp ho with ho | ho
  · cases (ToUpdate.mem_obs ho).1
  · exact hi tid ev ho

variable {w w' : Phased}

theorem keyed_told_of_run {ok : Phased → PhasedAction → Phased → Prop} {now : Time}
    {scheds : ℕ → Sched} (hq : Quiet scheds) (h : Run (phasedStep config) ok (start now scheds) w) :
    PhasedWF config w ∧ Keyed w.base ∧ Told config w.base :=
  phased_invariant (fun s => Keyed s ∧ Told config s) (phasedWF_start now hq)
    ⟨by simp [Keyed, start, init], by simp [Told, start, init]⟩
    (fun _ _ _ _ hp hi _ hs _ => ⟨keyed_step hp.wf.issued hi.1 hs, told_step hp.wf hi.2 hs⟩)
    (fun _ _ _ hi u _ => ⟨hi.1, told_apply hi.2 _ u⟩) h

theorem Tells.event_unique (he : EventsWF s) {e e' : RawEvent} (hc : e ∈ s.committed)
    (hc' : e' ∈ s.committed)
    {i i' : DeliveryRow} {ev ev' : EventForDelivery} (h : Tells config e i ev)
    (h' : Tells config e' i' ev') (hu : ev.eventId = ev'.eventId) : e = e' := by
  obtain ⟨t, -, hm⟩ := h.target
  obtain ⟨t', -, hm'⟩ := h'.target
  rw [hm, hm'] at hu
  exact he.eq_of_eventId hc hc' hu

theorem Tells.callbackName {e : RawEvent} {i : DeliveryRow} {ev : EventForDelivery}
    (h : Tells config e i ev) : ev.callbackName = i.callbackName := by
  obtain ⟨t, ht, hm⟩ := h.target
  rw [hm]
  exact (mem_valid_of_validate ht).1

theorem Tells.deliveryId {e : RawEvent} {i : DeliveryRow} {ev : EventForDelivery}
    (h : Tells config e i ev) : ev.deliveryId = i.id := by
  obtain ⟨t, -, hm⟩ := h.target
  rw [hm]
  rfl

theorem Tells.uuid {e : RawEvent} {i : DeliveryRow} {ev : EventForDelivery}
    (h : Tells config e i ev) : ev.eventId = i.eventId := by
  obtain ⟨t, -, hm⟩ := h.target
  rw [hm, h.eventId]
  rfl

/-- Two messages for one delivery differ in the attempt only. -/
theorem Tells.eq_of_id {e : RawEvent} {i : DeliveryRow} {ev ev' : EventForDelivery}
    (h : Tells config e i ev) (h' : Tells config e i ev') :
    { ev with attempt := ev'.attempt } = ev' := by
  obtain ⟨t, ht, hm⟩ := h.target
  obtain ⟨t', ht', hm'⟩ := h'.target
  obtain rfl : t = t' := Except.ok.inj (ht.symm.trans ht')
  rw [hm, hm']
  rfl

/-- **One delivery, one message.** In every run, with any number of dispatchers, scheduling
processes and sweeps, whatever fails and whatever retention deletes: every call tells a delivery of
an event that was committed, and two calls have one delivery id exactly when they are for one event
and one callback; then they differ in the attempt at most. -/
theorem calls_identified {now : Time} {scheds : ℕ → Sched} (hq : Quiet scheds)
    (h : Run (phasedStep config) anyStep (start now scheds) w) {tid tid' : ℕ}
    {ev ev' : EventForDelivery} (ho : .deliver tid ev ∈ w.base.trace)
    (ho' : .deliver tid' ev' ∈ w.base.trace) :
    (∃ e ∈ w.base.committed, ∃ i ∈ w.base.issued, Tells config e i ev) ∧
      (ev.deliveryId = ev'.deliveryId ↔ ev.eventId = ev'.eventId ∧
        ev.callbackName = ev'.callbackName) ∧
      (ev.deliveryId = ev'.deliveryId → { ev with attempt := ev'.attempt } = ev') := by
  obtain ⟨hp, hk, ht⟩ := keyed_told_of_run hq h
  have hw := hp.wf
  obtain ⟨e, he, i, hi, h1⟩ := ht tid ev ho
  obtain ⟨e', he', i', hi', h2⟩ := ht tid' ev' ho'
  -- either way it is one issued row
  have hrow : ev.deliveryId = ev'.deliveryId → i = i' := fun hd =>
    List.inj_on_of_nodup_map hw.issued.ids_nodup hi hi' (by rwa [← h1.deliveryId, ← h2.deliveryId])
  have hkey : ev.eventId = ev'.eventId → ev.callbackName = ev'.callbackName → i = i' := fun hu hn =>
    List.inj_on_of_nodup_map hk hi hi' <| by
      rw [h1.uuid, h2.uuid] at hu
      rw [h1.callbackName, h2.callbackName] at hn
      simp [DeliveryRow.key, hu, hn]
  refine ⟨⟨e, he, i, hi, h1⟩, ⟨fun hd => ?_, fun hu => ?_⟩, fun hd => ?_⟩
  · obtain rfl := hrow hd
    exact ⟨h1.uuid.trans h2.uuid.symm, h1.callbackName.trans h2.callbackName.symm⟩
  · obtain rfl := hkey hu.1 hu.2
    exact h1.deliveryId.trans h2.deliveryId.symm
  · obtain rfl := hrow hd
    obtain rfl := h1.event_unique hw.events he he' h2 (h1.uuid.trans h2.uuid.symm)
    exact h1.eq_of_id h2

end

theorem deliver_of_sent? {d n : ℤ} {o : Obs} (h : sent? d o = some n) :
    ∃ tid ev, o = .deliver tid ev ∧ ev.deliveryId = d ∧ ev.attempt = n := by
  cases o with
  | deliver tid ev =>
    have h : (if ev.deliveryId = d then some ev.attempt else none) = some n := h
    split_ifs at h with hd
    exact ⟨tid, ev, rfl, hd, Option.some.inj h⟩
  | _ => cases h

/-- The dispatcher crashes during the call and repeats it. -/
theorem calls_identified_crash :
    ∃ w tid tid' ev ev', Run (@phasedStep sampleCrates {}) anyStep (start 0 oneScheduler) w ∧
    .deliver tid ev ∈ w.base.trace ∧ .deliver tid' ev' ∈ w.base.trace ∧ ev.attempt = 1 ∧
    ev'.attempt = 2 ∧ ev.deliveryId = ev'.deliveryId ∧
    { ev with attempt := ev'.attempt } = ev' := by
  have hex : ∃ w, Run (@phasedStep sampleCrates {}) anyStep (start 0 oneScheduler) w ∧
      ∃ o ∈ w.base.trace, ∃ o' ∈ w.base.trace, sent? 1 o = some 1 ∧ sent? 1 o' = some 2 :=
    Run.exists_of_exec (List.map .base
      (firstCall 1 ++ [.task 0 .crash, .tick (fromSecs 600)] ++ secondCall)) (by decide +kernel)
  obtain ⟨w, hrun, o, ho, o', ho', hsent, hsent'⟩ := hex
  obtain ⟨tid, ev, rfl, hd, hn⟩ := deliver_of_sent? hsent
  obtain ⟨tid', ev', rfl, hd', hn'⟩ := deliver_of_sent? hsent'
  have hid : ev.deliveryId = ev'.deliveryId := hd.trans hd'.symm
  exact ⟨w, tid, tid', ev, ev', hrun, ho, ho', hn, hn', hid,
    (@calls_identified sampleCrates {} w 0 _ quiet_oneScheduler hrun tid tid' ev ev' ho ho').2.2
      hid⟩

/-! ### Deletion is final -/

section

variable [Crates] {config : DispatchConfig} {s s' : Sys} {a : Action}

/-- The row `d` has been there and is there no more. -/
structure Gone (s : Sys) (d : ℤ) : Prop where
  issued : d < s.db.deliverySeq
  deleted : s.db.deliveries.get d = none

theorem gone_step {d : ℤ} (hg : Gone s d) (h : Step config s a s') : Gone s' d := by
  refine ⟨hg.issued.trans_le (deliverySeq_le h), ?_⟩
  have hrow := row_step h d
  rw [hg.deleted] at hrow
  generalize hr : s'.db.deliveries.get d = r' at hrow
  cases hrow with
  | keep => rfl
  | inserted p b u n hd => exact absurd hg.issued (not_lt.mpr hd)

omit [Crates] in
theorem gone_apply {d : ℤ} (hg : Gone s d) (now : Time) (u : ToUpdate) : Gone (u.apply now s) d :=
  ⟨hg.issued, by rw [ToUpdate.get_apply, hg.deleted, Option.map_none]⟩

def isArmed (d : ℤ) (t : Task) : Bool :=
  t.row.deliveryId = d && match t.phase with
    | .locked _ _ => true
    | _ => false

/-- The tasks that have locked the row `d` and not called yet. -/
def armed (d : ℤ) (s : Sys) : Finset ℕ := ((s.tasks.rows.filter (isArmed d)).map (·.tid)).toFinset

omit [Crates] in
theorem isArmed_iff {d : ℤ} {t : Task} : isArmed d t ↔ t.row.deliveryId = d ∧
    ∃ due u, t.phase = .locked due u := by
  unfold isArmed
  rw [Bool.and_eq_true, decide_eq_true_iff]
  refine and_congr_right fun _ => ?_
  cases t.phase <;> simp

omit [Crates] in
theorem mem_armed {d : ℤ} {tid : ℕ} : tid ∈ armed d s ↔ ∃ t ∈ s.tasks.rows, t.tid = tid ∧
    isArmed d t := by
  simp only [armed, List.mem_toFinset, List.mem_map, List.mem_filter]
  constructor
  · rintro ⟨t, ⟨ht, ha⟩, hid⟩
    exact ⟨t, ht, hid, ha⟩
  · rintro ⟨t, ht, hid, ha⟩
    exact ⟨t, ⟨ht, ha⟩, hid⟩

/-- A task that has locked and not called yet had already, if it cannot have locked just now. -/
theorem isArmed_of_taskStep {now : Time} {db db' : Db} {t : Task} {b : TaskAction} {p : Phase}
    {obs : List Obs}
    {d : ℤ} (h : TaskStep config now db t b db' (some p) obs) (hd : ∀ due, t.phase.due? = some due →
      due.deliveryId = t.row.deliveryId) (hgone : db.deliveries.get d = none)
    (ha : isArmed d { t with phase := p }) : False := by
  obtain ⟨hid, due, u, hp⟩ := isArmed_iff.mp ha
  obtain rfl : p = .locked due u := hp
  generalize hq : some (Phase.locked due u) = q at h
  cases h with
  | lock due' u' hph hg =>
    cases hq
    obtain ⟨r, hr, -⟩ := (Stmt.affects_iff _).mp hg
    rw [hd due (by rw [hph]; rfl), show t.row.deliveryId = d from hid, hgone] at hr
    cases hr
  | respond due' u' result jitter hph =>
    obtain ⟨stmt, -, heq⟩ := Option.map_eq_some_iff.mp hq.symm
    cases heq
  | _ => cases hq

theorem armed_step {d : ℤ} (hw : WF config s) (hg : Gone s d) (h : Step config s a s') :
    armed d s' ⊆ armed d s ∧ ∀ tid b, a = .task tid b → tid ∉ armed d s' := by
  have hstep : ∀ t ∈ s'.tasks.rows, isArmed d t → t ∈ s.tasks.rows ∧ ∀ b, a ≠ .task t.tid b := by
    intro t ht ha
    rcases h.tasks ht with ⟨ht, hne⟩ | ⟨-, hf, -⟩ | ⟨t₀, ht₀, b, obs, -, heq, hs, -⟩
    · exact ⟨ht, hne⟩
    · obtain ⟨-, due, u, hp⟩ := isArmed_iff.mp ha
      rw [hf] at hp
      cases hp
    · rw [heq] at ha
      exact (isArmed_of_taskStep hs (fun due hd => (hw.examined ht₀ hd).deliveryId) hg.deleted
        ha).elim
  constructor
  · intro tid htid
    obtain ⟨t, ht, rfl, ha⟩ := mem_armed.mp htid
    exact mem_armed.mpr ⟨t, (hstep t ht ha).1, rfl, ha⟩
  · intro tid b hact htid
    obtain ⟨t, ht, rfl, ha⟩ := mem_armed.mp htid
    exact (hstep t ht ha).2 b hact

/-- A call for a deleted row uses up one of the tasks that have locked it. -/
theorem calls_step {d : ℤ} (hw : WF config s) (hg : Gone s d) (h : Step config s a s') :
    calls d s'.trace + (armed d s').card ≤ calls d s.trace + (armed d s).card := by
  obtain ⟨hsub, hout⟩ := armed_step hw hg h
  have hle := Finset.card_le_card hsub
  cases count_step h d with
  | quiet _ _ hn | lock _ _ _ _ _ _ hn => omega
  | call t due u ht hp hd ha _ _ hn =>
    have hmem : t.tid ∈ armed d s := mem_armed.mpr ⟨t, ht, rfl, isArmed_iff.mpr
      ⟨(hw.examined ht (by rw [hp]; rfl)).deliveryId.symm.trans hd, due, u, hp⟩⟩
    have hlt : (armed d s').card < (armed d s).card :=
      Finset.card_lt_card ⟨hsub, fun hback => hout t.tid _ ha (hback hmem)⟩
    omega
  | reset r hr =>
    rw [hg.deleted] at hr
    cases hr

theorem locks_step {d : ℤ} (hg : Gone s d) (h : Step config s a s') :
    s'.trace.countP (isLock d) = s.trace.countP (isLock d) := by
  obtain ⟨obs, htr, hobs⟩ := trace_step h
  rw [htr, List.countP_append, Nat.add_eq_right, List.countP_eq_zero]
  intro o ho hl
  cases o with
  | locked tid d' =>
    obtain rfl : d' = d := by simpa [isLock] using hl
    obtain ⟨t, -, _, due, u, -, -, -, -, haff⟩ := obs_locked (hobs _ ho)
    obtain ⟨r, hr, -⟩ := (Stmt.affects_iff _).mp haff
    rw [hg.deleted] at hr
    cases hr
  | _ => cases hl

/-- What is left to happen to the row `d` that is gone: of the calls so far and the tasks that can
still make one there are not more, and nobody locks it. -/
structure Final (d : ℤ) (locks atMost : ℕ) (s : Sys) : Prop where
  gone : Gone s d
  locks_eq : s.trace.countP (isLock d) = locks
  calls_le : calls d s.trace + (armed d s).card ≤ atMost

theorem final_step {d : ℤ} {locks atMost : ℕ} (hw : WF config s) (hf : Final d locks atMost s)
    (h : Step config s a s') : Final d locks atMost s' where
  gone := gone_step hf.gone h
  locks_eq := (locks_step hf.gone h).trans hf.locks_eq
  calls_le := (calls_step hw hf.gone h).trans hf.calls_le

omit [Crates] in
theorem final_apply {d : ℤ} {locks atMost : ℕ} (hf : Final d locks atMost s) (now : Time)
    (u : ToUpdate) : Final d locks atMost (u.apply now s) where
  gone := gone_apply hf.gone now u
  locks_eq := (u.countP_apply now s fun _ => rfl).trans hf.locks_eq
  calls_le := by
    have hcalls : calls d (u.apply now s).trace = calls d s.trace :=
      u.countP_apply now s fun _ => rfl
    rw [hcalls]
    exact hf.calls_le

variable {w w' : Phased}

/-- **Deletion is final.** When retention has taken the row of a delivery away, then in whatever
follows the row does not come back, no other row is ever inserted for its event and callback (though
a scheduling process may still be at the event), nobody takes a lock on it, and at most those tasks
call its receiver, each of them once, that had locked the row before and had not called yet. -/
theorem deletion_final {now : Time} {scheds : ℕ → Sched} (hq : Quiet scheds)
    (h : Run (phasedStep config) anyStep (start now scheds) w) {i : DeliveryRow}
    (hi : i ∈ w.base.issued) (hdel : w.base.db.deliveries.get i.id = none)
    (h' : Run (phasedStep config) anyStep w w') :
    w'.base.db.deliveries.get i.id = none ∧ (∀ j ∈ w'.base.issued, j.key = i.key → j = i) ∧
      w'.base.trace.countP (isLock i.id) = w.base.trace.countP (isLock i.id) ∧
      calls i.id w'.base.trace ≤ calls i.id w.base.trace + (armed i.id w.base).card := by
  obtain ⟨hp, -⟩ := keyed_told_of_run hq h
  obtain ⟨-, hf, hi'⟩ := phased_invariant (fun s => Final i.id
      (w.base.trace.countP (isLock i.id)) (calls i.id w.base.trace + (armed i.id w.base).card) s ∧
      i ∈ s.issued)
    hp ⟨⟨⟨hp.wf.issued.ids_lt i hi, hdel⟩, rfl, le_rfl⟩, hi⟩
    (fun _ _ _ _ hp hi _ hs _ => ⟨final_step hp.wf hi.1 hs, issued_subset hs hi.2⟩)
    (fun _ _ _ hi u _ => ⟨final_apply hi.1 _ u, hi.2⟩) h'
  obtain ⟨-, hk, -⟩ := keyed_told_of_run hq (h.trans h')
  exact ⟨hf.gone.deleted, fun j hj heq => List.inj_on_of_nodup_map hk hj hi' heq, hf.locks_eq,
    (Nat.le_add_right ..).trans hf.calls_le⟩

end

/-- An event of 31 days ago is scheduled at last; a task has locked its row when an operator
abandons it, and the retention worker, with windows of 30 and 7 days, deletes the event. -/
def deletedUnderTask : List PhasedAction :=
  List.map .base [.publish (sampleEvent 1 [sampleCallback "hook_a" []]), .commit 1,
    .tick (fromSecs (31 * 86400)), .sched 0 .poll, .sched 0 (.write .ok), .sched 0 .next, .fetch,
    .task 0 (.examine .ok), .task 0 .computeLock, .task 0 (.lock .ok), .abandon 1] ++
  [.select 0 (fromSecs 86400) (fromSecs (24 * 86400)) 1000, .delete 0]

/-- The task calls the receiver nevertheless; its write-back finds nothing. -/
theorem deletion_final_lateCall :
    ∃ w i w', Run (@phasedStep sampleCrates {}) anyStep (start 0 oneScheduler) w ∧
    i ∈ w.base.issued ∧ w.base.db.deliveries.get i.id = none ∧
    Run (@phasedStep sampleCrates {}) anyStep w w' ∧ (armed i.id w.base).card = 1 ∧
    calls i.id w.base.trace = 0 ∧ calls i.id w'.base.trace = 1 ∧
    w'.base.db.deliveries.get i.id = none ∧ (∀ j ∈ w'.base.issued, j.key = i.key → j = i) ∧
    calls i.id w'.base.trace ≤ calls i.id w.base.trace + (armed i.id w.base).card := by
  obtain ⟨w, hrun, hsome⟩ : ∃ w,
      Run (@phasedStep sampleCrates {}) anyStep (start 0 oneScheduler) w ∧
      (w.base.issued.head?.bind fun i =>
        (exec (@phasedStep sampleCrates {}) anyStep (List.map .base [.task 0 .deliver,
          .task 0 (.respond .ok 0), .task 0 (.writeBack .ok)]) w).bind fun w' =>
            if w.base.db.deliveries.get i.id = none ∧ (armed i.id w.base).card = 1 ∧
              calls i.id w.base.trace = 0 ∧ calls i.id w'.base.trace = 1
            then some () else none).isSome :=
    Run.exists_of_exec deletedUnderTask (by decide +kernel)
  obtain ⟨_, hsome⟩ := Option.isSome_iff_exists.mp hsome
  obtain ⟨i, hi, hsome⟩ := Option.bind_eq_some_iff.mp hsome
  obtain ⟨w', hexec, hsome⟩ := Option.bind_eq_some_iff.mp hsome
  split_ifs at hsome with hc
  obtain ⟨hdel, hcard, hcalls, hcalls'⟩ := hc
  have hrun' := Run.of_exec _ hexec
  obtain ⟨hget, huniq, -, hle⟩ := @deletion_final sampleCrates {} w w' 0 _ quiet_oneScheduler hrun i
    (List.mem_of_mem_head? hi) hdel hrun'
  exact ⟨w, i, w', hrun, List.mem_of_mem_head? hi, hdel, hrun', hcard, hcalls, hcalls', hget, huniq,
    hle⟩

end OutboxDispatcher.Dispatch.Identity
