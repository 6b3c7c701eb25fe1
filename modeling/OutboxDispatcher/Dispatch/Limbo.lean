import OutboxDispatcher.Callbacks.Agreement
import OutboxDispatcher.Dispatch.Exclusion
import OutboxDispatcher.Scheduler.Confluence
import OutboxDispatcher.System.Phases

/-! # No delivery is left in limbo

A row that is dispatched, but neither processed nor dead-lettered, waits for its receiver; only the
external ones are swept, listed and counted. Which of the two successes a dispatcher writes back
depends on the mode it parses from the event again, the row has the mode it was inserted with, and
the rows of rejected callbacks are all inserted as managed.

The two modes differ for one kind of row only (`mode_of_find`): the event's payload is over the
limit, so that all of its callbacks are rejected unread, and the callback itself is a valid external
one. Such a row is dead-lettered and out of reach, until an operator retries it: no sweep revives
it either, also not with what it has read earlier, as the sweep reads external rows only. Without
such retries no delivery ends in limbo (`no_limbo`), with one it does (`retry_limbo`). -/

namespace OutboxDispatcher.Dispatch.Limbo

open OutboxDispatcher.Lib.Checks OutboxDispatcher.Lib.JsonValue OutboxDispatcher.Lib.Runs
open OutboxDispatcher.Lib.Tables
open OutboxDispatcher.Schema OutboxDispatcher.Callbacks.Fields OutboxDispatcher.Callbacks.Parse
open OutboxDispatcher.Callbacks.Agreement OutboxDispatcher.Repo.Database
  OutboxDispatcher.Repo.Database.Db
open OutboxDispatcher.Repo.Statements OutboxDispatcher.Scheduler.Pass
  OutboxDispatcher.Scheduler.Confluence
open OutboxDispatcher.Dispatch OutboxDispatcher.Dispatch.Exclusion OutboxDispatcher.System
open OutboxDispatcher.System.Effects OutboxDispatcher.System.History OutboxDispatcher.System.Rows
open OutboxDispatcher.System.Phases

section

variable [Crates] {config : DispatchConfig}

/-! ### The two modes -/

/-- The event is rejected for its size, and the callback of this name is a valid external one. -/
def Downgraded (config : DispatchConfig) (e : RawEvent) (name : String) : Prop :=
  e.payloadSizeBytes > config.payloadSizeLimitBytes ∧
    ∃ t ∈ (validateNamedCallback e.callbacks name config).toOption, t.mode = .external

instance (config : DispatchConfig) (e : RawEvent) (name : String) :
    Decidable (Downgraded config e name) :=
  inferInstanceAs (Decidable (e.payloadSizeBytes > config.payloadSizeLimitBytes ∧
    ∃ t ∈ (validateNamedCallback e.callbacks name config).toOption, t.mode = .external))

/-- The entries of an event that is rejected for its size. -/
theorem eventRows_tooLarge {e : RawEvent} (h : e.payloadSizeBytes > config.payloadSizeLimitBytes)
    {n : NewDelivery} (hn : n ∈ eventRows config e) : n.completionMode = .managed ∧
    n.deadLetter := by
  simp only [eventRows, eventWrites, h, if_true, List.flatMap_cons, List.flatMap_nil,
    List.append_nil, Write.rows, List.map_map, List.mem_map] at hn
  obtain ⟨name, -, rfl⟩ := hn
  exact ⟨rfl, rfl⟩

/-- **The stored mode is the mode of the target**, or the row is one of a rejected event. -/
theorem mode_of_find {e : RawEvent} {name : String} {n : NewDelivery} {target : CallbackTarget}
    (hn : (eventRows config e).find? (·.callbackName = name) = some n)
    (hv : validateNamedCallback e.callbacks name config = .ok target) :
    target.mode = n.completionMode ∨ Downgraded config e name := by
  by_cases hsize : e.payloadSizeBytes > config.payloadSizeLimitBytes
  · have hm := (eventRows_tooLarge hsize (List.mem_of_find?_eq_some hn)).1
    rcases htm : target.mode with _ | _
    · exact .inl hm.symm
    · exact .inr ⟨hsize, target, by rw [hv]; rfl, htm⟩
  · obtain ⟨t, ht, rfl⟩ := exists_valid_of_validate hv
    have hne : (parseCallbacks e.callbacks config).valid.isEmpty = false := by
      cases hl : (parseCallbacks e.callbacks config).valid with
      | nil => rw [hl] at ht; cases ht
      | cons => rfl
    -- the accepted targets come first, and of this name there is only `t`
    have hrows : ∃ rest, eventRows config e =
        (parseCallbacks e.callbacks config).valid.map pendingRow ++ rest := by
      simp only [eventRows, eventWrites, hsize, if_false, hne, Bool.false_and, Bool.false_eq_true,
        List.cons_append, List.nil_append, List.flatMap_cons, Write.rows]
      exact ⟨_, rfl⟩
    obtain ⟨rest, hrows⟩ := hrows
    rw [hrows, List.find?_append, List.find?_map] at hn
    rcases hf : (parseCallbacks e.callbacks config).valid.find?
      ((fun n : NewDelivery => decide (n.callbackName = t.name)) ∘ pendingRow) with _ | t'
    · exact absurd (List.find?_eq_none.mp hf t ht) (by simp [pendingRow])
    · rw [hf, Option.map_some, Option.some_or, Option.some.injEq] at hn
      have hfound := List.find?_some hf
      have hname : t'.name = t.name := of_decide_eq_true hfound
      have htarget : target = t' :=
        eq_of_validate (by rw [hname]; exact hv) (List.mem_of_find?_eq_some hf)
      rw [← hn, htarget]
      exact .inl rfl

/-! ### The invariant -/

variable {s s' : Sys} {a : Action}

/-- The step retries no delivery of a downgraded callback. -/
def NoDowngradedRetry (config : DispatchConfig) (s : Sys) (a : Action) (_ : Sys) : Prop :=
  ∀ d ∈ retries? a, ∀ r ∈ s.db.deliveries.get d, ∀ e ∈ s.db.events.rows, e.eventId = r.eventId →
    ¬Downgraded config e r.callbackName

instance (config : DispatchConfig) (s : Sys) (a : Action) (s' : Sys) :
    Decidable (NoDowngradedRetry config s a s') :=
  inferInstanceAs (Decidable (∀ d ∈ retries? a, ∀ r ∈ s.db.deliveries.get d, ∀ e ∈ s.db.events.rows,
    e.eventId = r.eventId → ¬Downgraded config e r.callbackName))

/-- The deliveries of downgraded callbacks stay out of reach, and no row is in limbo. -/
structure ModesWF (config : DispatchConfig) (s : Sys) : Prop where
  dead : ∀ i ∈ s.issued, ∀ e ∈ s.committed, e.eventId = i.eventId →
    Downgraded config e i.callbackName → ∀ r ∈ s.db.deliveries.get i.id, r.deadLetter
  idle : ∀ i ∈ s.issued, ∀ e ∈ s.committed, e.eventId = i.eventId →
    Downgraded config e i.callbackName → ∀ t ∈ s.tasks.rows, t.row.deliveryId ≠ i.id
  rows : ∀ r ∈ s.db.deliveries.rows, r.dispatchedAt.isSome →
    r.processedAt.isSome ∨ r.completionMode = .external

/-- **The mode that a dispatcher acts on is the stored one**, or the row is a managed one of a
downgraded callback. -/
theorem mode_or_downgraded (hw : WF config s) (hx : Issued config s) {t : Task}
    (ht : t ∈ s.tasks.rows) {due : DueDelivery} (hd : t.phase.due? = some due) {r : DeliveryRow}
    (hr : s.db.deliveries.get due.deliveryId = some r) :
    due.target.mode = r.completionMode ∨ (r.completionMode = .managed ∧ ∃ i ∈ s.issued,
      i.id = t.row.deliveryId ∧ ∃ e ∈ s.committed, e.eventId = i.eventId ∧
        Downgraded config e i.callbackName) := by
  have hex := hw.tasks.due t ht due hd
  have hsrc := hw.tasks.source t ht
  obtain ⟨i, hm, hid, hie, hin⟩ := hsrc.issued
  rw [(examined_of_examineRow hex).deliveryId, ← hid] at hr
  have hmode : r.completionMode = i.completionMode := congrArg (·.2.2.2.1) (ident_of_get hw hm hr)
  -- the event of the issued row is the one that was fetched with it
  obtain ⟨e, he, hk, n, hn, hcol⟩ := hx.first i hm
  obtain rfl := hw.events.eq_of_eventId he hsrc.event (hk.trans (hie.trans hsrc.eventId.symm))
  have hin' : i.completionMode = n.completionMode := congrArg (·.2.2.1) hcol
  have hval : validateNamedCallback t.row.event.callbacks i.callbackName config =
      .ok due.target := by
    unfold examineRow at hex
    rw [hin]
    split at hex
    · next target htar =>
      cases hex
      exact mapError_eq_ok.mp htar
    · cases hex
  rcases mode_of_find hn hval with h | hdown
  · exact .inl (by rw [h, hmode, hin'])
  · have hmanaged := (eventRows_tooLarge hdown.1 (List.mem_of_find?_eq_some hn)).1
    exact .inr ⟨by rw [hmode, hin', hmanaged], i, hm, hid, _, he, hk, hdown⟩

theorem mode_eq (hw : WF config s) (hx : Issued config s) (hi : ModesWF config s) {t : Task}
    (ht : t ∈ s.tasks.rows) {due : DueDelivery} (hd : t.phase.due? = some due) {r : DeliveryRow}
    (hr : s.db.deliveries.get due.deliveryId = some r) : due.target.mode = r.completionMode := by
  rcases mode_or_downgraded hw hx ht hd hr with h | ⟨-, i, hm, hid, e, he, hk, hdown⟩
  · exact h
  · exact absurd hid.symm (hi.idle i hm e he hk hdown t ht)

/-! ### Steps -/

theorem issued_before_or_new (hw : WF config s) (h : Step config s a s') {i : DeliveryRow}
    (hi : i ∈ s'.issued) {e : RawEvent} (he : e ∈ s'.committed) (hk : e.eventId = i.eventId) :
    (i ∈ s.issued ∧ e ∈ s.committed) ∨ (i ∈ s'.db.deliveries.rows ∧ s.db.deliverySeq ≤ i.id) := by
  rcases issued_cases h hi with hm | ⟨p, c, l, w, writes, -, -, -, hins, hrow⟩
  · obtain ⟨e₀, he₀, hk₀⟩ := hw.issued.event i hm
    have heq := (wf_step hw h).events.eq_of_eventId he (committed_subset h he₀) (hk.trans hk₀.symm)
    exact .inl ⟨hm, heq ▸ he₀⟩
  · exact .inr ⟨hrow, hins.fresh⟩

theorem task_deliveryId_lt (hw : WF config s) (h : Step config s a s') {t : Task}
    (ht : t ∈ s'.tasks.rows) : t.row.deliveryId < s.db.deliverySeq := by
  have hold : ∀ t₀ ∈ s.tasks.rows, t₀.row.deliveryId < s.db.deliverySeq := fun t₀ ht₀ => by
    obtain ⟨i, hi, hid, -⟩ := (hw.tasks.source t₀ ht₀).issued
    exact hid ▸ hw.issued.ids_lt i hi
  rcases h.tasks ht with ⟨ht, -⟩ | ⟨-, -, -, -, r, hr, -, e, -, -, hrow⟩ |
    ⟨t₀, ht₀, _, _, -, heq, -⟩
  · exact hold t ht
  · rw [hrow]; exact s.db.seq_fresh r hr
  · rw [heq]; exact hold t₀ ht₀

theorem dead_step (hw : WF config s) (hx : Issued config s') (hi : ModesWF config s)
    (h : Step config s a s') (hok : NoDowngradedRetry config s a s') {i : DeliveryRow}
    (hm : i ∈ s'.issued) {e : RawEvent} (he : e ∈ s'.committed) (hk : e.eventId = i.eventId)
    (hdown : Downgraded config e i.callbackName) :
    ∀ r' ∈ s'.db.deliveries.get i.id, r'.deadLetter := by
  intro r' hr'
  have hw' := wf_step hw h
  rcases issued_before_or_new hw h hm he hk with ⟨hm, he⟩ | ⟨hrow, -⟩
  · have hdead := hi.dead i hm e he hk hdown
    have hidle := hi.idle i hm e he hk hdown
    have hstep := row_step h i.id
    rw [Option.mem_def.mp hr'] at hstep
    generalize hr : s.db.deliveries.get i.id = old at hstep hdead
    generalize hn : some r' = n at hstep
    cases hstep with
    | keep => subst hn; exact hdead r' rfl
    | inserted p b u n hd => exact absurd (hw.issued.ids_lt i hm) (not_lt.mpr hd)
    | poisoned t fault reason r => cases hn; rfl
    | locked t fault due lockUntil r ht hp hid hg =>
      have := hdead r rfl
      simp_all [Stmt.guard]
    | wroteBack t fault due lockUntil stmt r ht hp hid hf hg =>
      exact absurd ((holds_writing hw ht hp).2.1.trans hid) (hidle t ht)
    | swept maxCycles r hl =>
      obtain ⟨-, -, -, hlive⟩ := externalPending_of_hungLimit hl
      simp [hdead r rfl] at hlive
    | retried r hg =>
      -- such a row is not retried
      obtain ⟨e', he', hk'⟩ := s.db.references r (Table.mem_of_get hr)
      have hid := ident_of_get hw hm hr
      simp only [DeliveryRow.ident, Prod.mk.injEq] at hid
      obtain rfl := hw.events.eq_of_eventId (hw.events.visible e' he') he
        (hk'.trans (hid.2.1.trans hk.symm))
      exact absurd (hid.2.2.1 ▸ hdown) (hok i.id rfl r hr e' he' hk')
    | completed r => cases hn; exact hdead r rfl
    | abandoned r => cases hn; rfl
    | deleted => cases hn
  · obtain rfl : i = r' := Option.some.inj ((Table.get_of_mem hrow).symm.trans hr')
    obtain ⟨e', he', hk', n, hn, hcol⟩ := hx.first i hm
    obtain rfl := hw'.events.eq_of_eventId he he' (hk.trans hk'.symm)
    have hdl : i.deadLetter = n.deadLetter := congrArg (·.2.2.2.1) hcol
    rw [hdl]
    exact (eventRows_tooLarge hdown.1 (List.mem_of_find?_eq_some hn)).2

theorem idle_step (hw : WF config s) (hi : ModesWF config s) (h : Step config s a s')
    {i : DeliveryRow}
    (hm : i ∈ s'.issued) {e : RawEvent} (he : e ∈ s'.committed) (hk : e.eventId = i.eventId)
    (hdown : Downgraded config e i.callbackName) :
    ∀ t ∈ s'.tasks.rows, t.row.deliveryId ≠ i.id := by
  intro t ht hid
  rcases issued_before_or_new hw h hm he hk with ⟨hm, he⟩ | ⟨-, hfresh⟩
  · rcases h.tasks ht with ⟨ht, -⟩ | ⟨-, -, -, -, r, hr, hdue, e', -, -, hrow⟩ |
      ⟨t₀, ht₀, _, _, -, heq, -⟩
    · exact hi.idle i hm e he hk hdown t ht hid
    · -- a row that is fetched is not dead-lettered
      have hget : s.db.deliveries.get i.id = some r := by
        rw [← hid, hrow]; exact Table.get_of_mem hr
      have hdead := hi.dead i hm e he hk hdown r hget
      simp [isDue_iff_columns, hdead] at hdue
    · exact hi.idle i hm e he hk hdown t₀ ht₀ (by rw [← hid, heq])
  · exact absurd (hid ▸ task_deliveryId_lt hw h ht) (not_lt.mpr hfresh)

theorem rows_step (hw : WF config s) (hx : Issued config s) (hi : ModesWF config s)
    (h : Step config s a s') : ∀ r' ∈ s'.db.deliveries.rows, r'.dispatchedAt.isSome →
      r'.processedAt.isSome ∨ r'.completionMode = .external := by
  intro r' hm' hdisp
  have hstep := row_step h r'.id
  rw [Table.get_of_mem hm'] at hstep
  have hold : ∀ r, s.db.deliveries.get r'.id = some r → r.dispatchedAt.isSome →
      r.processedAt.isSome ∨ r.completionMode = .external :=
      fun r hr => hi.rows r (Table.mem_of_get hr)
  generalize hd : r'.id = d at hstep hold
  generalize hr : s.db.deliveries.get d = old at hstep hold
  generalize hn : some r' = n at hstep
  cases hstep with
  | keep => subst hn; exact hold r' rfl hdisp
  | inserted => cases hn; cases hdisp
  | poisoned _ _ _ r | locked _ _ _ _ r | abandoned r => cases hn; exact hold r rfl hdisp
  | wroteBack t fault due lockUntil stmt r ht hp hid hf hg =>
    cases hn
    rcases (hw.tasks.stmt t ht due lockUntil stmt hp).cases with rfl | ⟨rfl, hext⟩ | ⟨_, _, _, rfl⟩
    · exact .inl rfl
    · have hmode := mode_eq hw hx hi ht (by rw [hp]; rfl) (hid ▸ hr)
      exact .inr (hmode.symm.trans hext)
    · exact hold r rfl hdisp
  | swept maxCycles r hl =>
    obtain ⟨hmode, -⟩ := externalPending_of_hungLimit hl
    cases hn
    exact .inr (by unfold sweepRow; split_ifs <;> exact hmode)
  | retried r hg => cases hn; cases hdisp
  | completed r => cases hn; exact .inl rfl
  | deleted => cases hn

theorem modesWF_init (now : Time) (scheds : ℕ → Sched) : ModesWF config (init now scheds) where
  dead := fun i hm => by simp [init] at hm
  idle := fun i hm => by simp [init] at hm
  rows := fun r hr => by simp [init, Db.empty] at hr

theorem modesWF_step (hw : WF config s) (hx : Issued config s) (hi : ModesWF config s)
    (h : Step config s a s') (hok : NoDowngradedRetry config s a s') : ModesWF config s' where
  dead := fun _ hm _ he hk hdown => dead_step hw (issued_step hw hx h) hi h hok hm he hk hdown
  idle := fun _ hm _ he hk hdown => idle_step hw hi h hm he hk hdown
  rows := rows_step hw hx hi h

/-! ### Updates of a sweep -/

theorem issued_apply (hx : Issued config s) (now : Time) (u : ToUpdate) :
    Issued config (u.apply now s) := by
  refine ⟨hx.first, fun o ho v hv => ?_⟩
  rcases List.mem_append.mp ho with ho | ho
  · -- a reset is no end of scheduling
    rw [(ToUpdate.mem_obs ho).1] at hv
    cases hv
  · exact hx.done o ho v hv

variable {w : Phased} {p : ℕ} {u : ToUpdate}

/-- The rows of downgraded callbacks are managed, and a sweep has selected external ones only. -/
theorem not_downgraded_of_selected (hp : PhasedWF config w) (hx : Issued config w.base)
    (hu : u ∈ (w.sweeps p).rows) {i : DeliveryRow} (hm : i ∈ w.base.issued) (hid : i.id = u.row.id)
    {e : RawEvent} (he : e ∈ w.base.committed) (hk : e.eventId = i.eventId) :
    ¬Downgraded config e i.callbackName := by
  intro hdown
  obtain ⟨hmode, j, hj, hji⟩ := hp.external p u hu
  have hjid : j.id = i.id := (congrArg (·.1) hji).trans hid.symm
  obtain rfl := List.inj_on_of_nodup_map hp.wf.issued.ids_nodup hj hm hjid
  obtain ⟨e', he', hk', n, hn, hcol⟩ := hx.first j hj
  obtain rfl := hp.wf.events.eq_of_eventId he he' (hk.trans hk'.symm)
  have hext : j.completionMode = .external := (congrArg (·.2.2.2.1) hji).trans hmode
  have hcm : j.completionMode = n.completionMode := congrArg (·.2.2.1) hcol
  rw [hcm, (eventRows_tooLarge hdown.1 (List.mem_of_find?_eq_some hn)).1] at hext
  cases hext

theorem modesWF_apply (hp : PhasedWF config w) (hx : Issued config w.base)
    (hi : ModesWF config w.base) (hu : u ∈ (w.sweeps p).rows) :
    ModesWF config (u.apply (w.sweeps p).now w.base) where
  dead := by
    intro i hm e he hk hdown r' hr'
    have hne : i.id ≠ u.row.id := fun hid => not_downgraded_of_selected hp hx hu hm hid he hk hdown
    rw [Option.mem_def, ToUpdate.get_apply, Option.map_eq_some_iff] at hr'
    obtain ⟨r, hr, rfl⟩ := hr'
    have hset : (u.rowUpdate (w.sweeps p).now).set r = r :=
      if_neg ((Table.get_eq_some_iff.mp hr).2.trans_ne hne)
    rw [hset]
    exact hi.dead i hm e he hk hdown r hr
  idle := hi.idle
  rows := by
    intro r' hm' hdisp
    rw [ToUpdate.apply, rows_update, List.mem_map] at hm'
    obtain ⟨r, hr, rfl⟩ := hm'
    by_cases hid : r.id = u.row.id
    · have hext := external_of_selected hp hu (Table.get_eq_some_iff.mpr ⟨hr, hid⟩)
      refine .inr (Eq.trans ?_ hext)
      exact congrArg (·.2.2.2.1) ((u.rowUpdate (w.sweeps p).now).ident_set r)
    · have hset : (u.rowUpdate (w.sweeps p).now).set r = r := if_neg hid
      rw [hset] at hdisp ⊢
      exact hi.rows r hr hdisp

/-- **No delivery ends in limbo**, in every run in which no delivery of a downgraded callback is
retried: a row that is dispatched, not processed and not dead-lettered is external, and the mode
that a dispatcher acts on is the one its row has. Sweeps may update rows that have been written
since they were read. -/
theorem no_limbo {now : Time} {scheds : ℕ → Sched} (hq : Quiet scheds)
    (h : Run (phasedStep config)
      (fun w a w' => ∀ b ∈ moves? w a, NoDowngradedRetry config w.base b w'.base)
      (start now scheds) w) :
    (∀ r ∈ w.base.db.deliveries.rows, r.dispatchedAt.isSome → r.processedAt = none →
      r.deadLetter = false → r.completionMode = .external) ∧
    ∀ t ∈ w.base.tasks.rows, ∀ due ∈ t.phase.due?, ∀ r ∈ w.base.db.deliveries.get due.deliveryId,
      due.target.mode = r.completionMode := by
  obtain ⟨hp, hx, hi⟩ := phased_invariant (fun s => Issued config s ∧ ModesWF config s)
    (phasedWF_start now hq) ⟨issued_init now scheds, modesWF_init now scheds⟩
    (fun w a b w' hp hi hb hs hok => ⟨issued_step hp.wf hi.1 hs,
      modesWF_step hp.wf hi.1 hi.2 hs (hok b hb)⟩)
    (fun w p hp hi u hu => ⟨issued_apply hi.1 _ u, modesWF_apply hp hi.1 hi.2 hu⟩) h
  refine ⟨fun r hr hdisp hproc _ => ?_, fun t ht due hd r hr => mode_eq hp.wf hx hi ht hd hr⟩
  rcases hi.rows r hr hdisp with h | h
  · rw [hproc] at h; cases h
  · exact h

end

/-! ### An event that is too large, with an external callback -/

/-- The smallest limit that the configuration may have. -/
def smallLimit : DispatchConfig := { payloadSizeLimitBytes := 1024 }

def externalCallback : Json :=
  sampleCallback "hook_a" [("mode", .str "external"),
    ("external_completion_timeout_seconds", .int 60)]

/-- An event with that callback, whose payload is an array of 342 ones: 1026 bytes of text. -/
def largeEvent (u : Uuid) : RawEvent :=
  { sampleEvent u [externalCallback] with payload := .arr (.replicate 342 (.int 1)) }

/-- The event is scheduled, an operator retries its delivery, and a dispatcher makes it, with
success. -/
def retriedDelivery (e : RawEvent) : List PhasedAction :=
  List.map .base [.publish e, .commit 1, .sched 0 .poll, .sched 0 (.write .ok),
    .sched 0 .next, .retry 1, .fetch, .task 0 (.examine .ok), .task 0 .computeLock,
    .task 0 (.lock .ok), .task 0 .deliver, .task 0 (.respond .ok 0), .task 0 (.writeBack .ok)]

/-- The event is small enough, and an operator retries its delivery before it is made. -/
theorem no_limbo_smallEvent :
    ∃ w, Run (@phasedStep sampleCrates smallLimit)
      (fun w a w' => ∀ b ∈ moves? w a, @NoDowngradedRetry sampleCrates smallLimit w.base b w'.base)
      (start 0 oneScheduler) w ∧
      (∃ r ∈ w.base.db.deliveries.rows, r.dispatchedAt.isSome ∧ r.processedAt = none ∧
        r.deadLetter = false) ∧
      (∀ r ∈ w.base.db.deliveries.rows, r.dispatchedAt.isSome → r.processedAt = none →
        r.deadLetter = false → r.completionMode = .external) ∧
      ∀ t ∈ w.base.tasks.rows, ∀ due ∈ t.phase.due?,
        ∀ r ∈ w.base.db.deliveries.get due.deliveryId, due.target.mode = r.completionMode := by
  have hex : ∃ w, Run (@phasedStep sampleCrates smallLimit)
      (fun w a w' => ∀ b ∈ moves? w a, @NoDowngradedRetry sampleCrates smallLimit w.base b w'.base)
      (start 0 oneScheduler) w ∧ ∃ r ∈ w.base.db.deliveries.rows,
        r.dispatchedAt.isSome ∧ r.processedAt = none ∧ r.deadLetter = false :=
    Run.exists_of_exec (retriedDelivery (sampleEvent 1 [externalCallback])) (by decide +kernel)
  obtain ⟨w, hrun, hrow⟩ := hex
  exact ⟨w, hrun, hrow, @no_limbo sampleCrates smallLimit w 0 _ quiet_oneScheduler hrun⟩

/-- **A retry of the rejected row** is dispatched as external, and the row stays managed: the sweep
and the listing of the external deliveries do not see it, and nothing else does. -/
theorem retry_limbo :
    ∃ w, Run (@phasedStep sampleCrates smallLimit) (fun _ _ w' => Timely w'.base)
        (start 0 oneScheduler) w ∧
      ∃ r ∈ w.base.db.deliveries.rows, r.dispatchedAt.isSome ∧ r.processedAt = none ∧
        r.deadLetter = false ∧ r.completionMode = .managed :=
  Run.exists_of_exec (retriedDelivery (largeEvent 1)) (by decide +kernel)

end OutboxDispatcher.Dispatch.Limbo
