import OutboxDispatcher.System.Effects

/-! # What the past determines

The invariants that need no assumption on the environment. Ids and UUIDs of events are never used
twice, so an event is determined by its UUID even after retention has deleted it; the id of a
delivery determines its event and its callback name, whether its row is there or not; and what a
scheduling process or a dispatcher has read is still true of these. `wf_of_run` is the form the
other modules use. -/

namespace OutboxDispatcher.System.History

open OutboxDispatcher.Lib.Runs OutboxDispatcher.Lib.Tables OutboxDispatcher.Schema
open OutboxDispatcher.Callbacks.Fields OutboxDispatcher.Repo.Database
  OutboxDispatcher.Repo.Database.Db
open OutboxDispatcher.Repo.Statements OutboxDispatcher.Scheduler.Pass OutboxDispatcher.Dispatch
open OutboxDispatcher.System OutboxDispatcher.System.Effects

/-! ### Events -/

structure EventsWF (s : Sys) : Prop where
  seq_pos : 0 < s.eventSeq
  ids : ∀ e ∈ s.committed ++ s.uncommitted, 0 < e.id ∧ e.id < s.eventSeq
  ids_nodup : ((s.committed ++ s.uncommitted).map (·.id)).Nodup
  uuids_nodup : ((s.committed ++ s.uncommitted).map (·.eventId)).Nodup
  visible : ∀ e ∈ s.db.events.rows, e ∈ s.committed

section

variable {s : Sys} {e e' : RawEvent}

theorem EventsWF.eq_of_eventId (h : EventsWF s) (he : e ∈ s.committed) (he' : e' ∈ s.committed)
    (heq : e.eventId = e'.eventId) : e = e' :=
  List.inj_on_of_nodup_map h.uuids_nodup (List.mem_append_left _ he) (List.mem_append_left _ he')
    heq

theorem mem_events_dbStep {now : Time} {db db' : Db} (h : DbStep now db db')
    (he : e ∈ db'.events.rows) : e ∈ db.events.rows := by
  cases h with
  | same | update => exact he
  | insert u new _ hi => exact hi.events ▸ he
  | delete p => exact (mem_events_deleteEvents.mp he).1

theorem hasRow_dbStep {now : Time} {db db' : Db} (h : DbStep now db db') (he : e ∈ db'.events.rows)
    {name : String} (hr : db.HasRow e.eventId name) : db'.HasRow e.eventId name := by
  cases h with
  | same => exact hr
  | update f => simpa using hr
  | insert u new _ hi => exact (hi.hasRow _ _).mpr (.inl hr)
  | delete p => exact hasRow_deleteEvents he hr

/-- An entry moves from the second list to the end of the first. -/
theorem nodup_map_move {α κ : Type} {f : α → κ} {l l' : List α} {x : α} {p : α → Bool}
    (h : ((l ++ l').map f).Nodup) (hx : x ∈ l') (hp : p x = false) :
    (((l ++ [x]) ++ l'.filter p).map f).Nodup := by
  simp only [List.map_append, List.nodup_append, List.map_cons, List.map_nil] at h ⊢
  obtain ⟨hl, hl', hd⟩ := h
  have hsub : ∀ k ∈ (l'.filter p).map f, k ∈ l'.map f := fun k hk =>
    (List.Sublist.map f List.filter_sublist).subset hk
  refine ⟨⟨hl, by simp, fun k hk k' hk' => ?_⟩, (List.Sublist.map f List.filter_sublist).nodup hl',
    ?_⟩
  · rw [List.mem_singleton.mp hk']
    exact hd k hk _ (List.mem_map_of_mem hx)
  · intro k hk k' hk' heq
    rcases List.mem_append.mp hk with hk | hk
    · exact hd k hk k' (hsub k' hk') heq
    · obtain ⟨y, hy, rfl⟩ := List.mem_map.mp hk'
      obtain ⟨hy, hpy⟩ := List.mem_filter.mp hy
      have hxy : x = y :=
        List.inj_on_of_nodup_map hl' hx hy ((List.mem_singleton.mp hk).symm.trans heq)
      rw [← hxy, hp] at hpy
      cases hpy

end

variable [Crates] {config : DispatchConfig} {s s' : Sys} {a : Action}

theorem committed_subset (h : Step config s a s') {e : RawEvent} (he : e ∈ s.committed) :
    e ∈ s'.committed := by
  cases h with
  | commit => exact List.mem_append_left _ he
  | _ => exact he

/-- An event that is visible was visible before, or it has just been committed. -/
theorem mem_events_step (h : Step config s a s') {e : RawEvent} (he : e ∈ s'.db.events.rows) :
    e ∈ s.db.events.rows ∨
    (a = .commit e.id ∧ e ∈ s.uncommitted ∧ s'.committed = s.committed ++ [e]) := by
  rcases h.dbStep with hd | ⟨e', he', ha, hc, hcom⟩
  · exact .inl (mem_events_dbStep hd he)
  · rw [hc.rows, List.mem_append, List.mem_singleton] at he
    rcases he with he | rfl
    · exact .inl he
    · exact .inr ⟨ha, he', hcom⟩

theorem eventsWF_step (hi : EventsWF s) (h : Step config s a s') : EventsWF s' := by
  have hvis : ∀ e ∈ s'.db.events.rows, e ∈ s'.committed := fun e he => by
    rcases mem_events_step h he with he | ⟨-, -, hcom⟩
    · exact committed_subset h (hi.visible e he)
    · simp [hcom]
  cases h with
  | publish e hf =>
    refine ⟨by have := hi.seq_pos; simp only; omega, fun e' he' => ?_, ?_, ?_, hvis⟩
    · rw [← List.append_assoc, List.mem_append, List.mem_singleton] at he'
      rcases he' with he' | rfl
      · have := hi.ids e' he'; simp only; omega
      · have := hi.seq_pos; simp only; omega
    · rw [← List.append_assoc, List.map_append]
      refine hi.ids_nodup.append (by simp) fun k hk hk' => ?_
      obtain ⟨e', he', rfl⟩ := List.mem_map.mp hk
      have h1 := (hi.ids e' he').2
      have h2 : e'.id = s.eventSeq := by simpa using hk'
      omega
    · rw [← List.append_assoc, List.map_append]
      refine hi.uuids_nodup.append (by simp) fun k hk hk' => ?_
      obtain ⟨e', he', rfl⟩ := List.mem_map.mp hk
      exact hf e' he' (by simpa using hk')
  | commit e db he hc =>
    refine ⟨hi.seq_pos, fun e' he' => hi.ids e' ?_, nodup_map_move hi.ids_nodup he (by simp),
      nodup_map_move hi.uuids_nodup he (by simp), hvis⟩
    simp only [List.mem_append, List.mem_singleton, List.mem_filter] at he' ⊢
    rcases he' with (he' | rfl) | he'
    · exact .inl he'
    · exact .inr he
    · exact .inr he'.1
  | rollback id =>
    have hsub : (s.committed ++ s.uncommitted.filter (·.id != id)).Sublist
        (s.committed ++ s.uncommitted) := List.filter_sublist.append_left _
    exact ⟨hi.seq_pos, fun e he => hi.ids e (hsub.subset he), (hsub.map _).nodup hi.ids_nodup,
      (hsub.map _).nodup hi.uuids_nodup, hvis⟩
  | _ => exact ⟨hi.seq_pos, hi.ids, hi.ids_nodup, hi.uuids_nodup, hvis⟩

/-! ### Delivery rows -/

structure IssuedWF (s : Sys) : Prop where
  ids_lt : ∀ i ∈ s.issued, i.id < s.db.deliverySeq
  ids_nodup : (s.issued.map (·.id)).Nodup
  event : ∀ i ∈ s.issued, ∃ e ∈ s.committed, e.eventId = i.eventId
  row : ∀ r ∈ s.db.deliveries.rows, ∃ i ∈ s.issued, i.ident = r.ident
  /-- Rows go only with their event. -/
  present : ∀ i ∈ s.issued, ∀ e ∈ s.db.events.rows, e.eventId = i.eventId →
    s.db.HasRow e.eventId i.callbackName

/-- Every row of `db'` is a row of `db` with other columns, and no id is drawn. -/
structure NoInsert (db db' : Db) : Prop where
  seq : db'.deliverySeq = db.deliverySeq
  rows : ∀ r ∈ db'.deliveries.rows, ∃ r₀ ∈ db.deliveries.rows, r₀.ident = r.ident

omit [Crates] in
theorem noInsert_refl (db : Db) : NoInsert db db := ⟨rfl, fun r hr => ⟨r, hr, rfl⟩⟩

omit [Crates] in
theorem noInsert_update (db : Db) (f : RowUpdate) : NoInsert db (db.update f) := by
  refine ⟨rfl, fun r hr => ?_⟩
  obtain ⟨r₀, hr₀, rfl⟩ := List.mem_map.mp hr
  exact ⟨r₀, hr₀, (f.ident_set r₀).symm⟩

/-- Only scheduling inserts rows. -/
theorem noInsert_step (h : Step config s a s') (ha : ∀ r b, a ≠ .sched r b) :
    NoInsert s.db s'.db ∧ s'.issued = s.issued := by
  cases h with
  | commit e db he hc =>
    exact ⟨⟨hc.seq, fun r hr => ⟨r, by rwa [← hc.deliveries], rfl⟩⟩, rfl⟩
  | sched r b => exact absurd rfl (ha r b)
  | task t b db phase obs ht hs =>
    refine ⟨?_, rfl⟩
    cases hs with
    | poisoned | lock | lockUnacked | lockRefused | wroteBack => exact noInsert_update _ _
    | _ => exact noInsert_refl _
  | sweep | retry | complete | abandon => exact ⟨noInsert_update _ _, rfl⟩
  | retention => exact ⟨⟨rfl, fun r hr => ⟨r, (mem_rows_deleteEvents.mp hr).1, rfl⟩⟩, rfl⟩
  | _ => exact ⟨noInsert_refl _, rfl⟩

/-- A step of a scheduling process leaves the tables alone or inserts rows of the event it is at. -/
theorem schedStep_inserts {now : Time} {db db' : Db} {sch sch' : Sched} {a : SchedAction}
    (h : SchedStep config now db sch a db' sch') :
    db' = db ∨ ∃ c l w writes, sch = .running c l ∧ l.writes = w :: writes ∧
      InsertSpec db db' now l.event.eventId w.rows := by
  cases h with
  | write c l w writes db' hw hx | writeUnacked c l w writes db' hw hx =>
    rcases Write.exec_cases hx with ⟨rfl, -⟩ | hi
    · exact .inl rfl
    · exact .inr ⟨c, l, w, writes, rfl, hw, hi⟩
  | _ => exact .inl rfl

theorem Step.sched_inserts {p : ℕ} {b : SchedAction} (h : Step config s (.sched p b) s') :
    s'.db = s.db ∨ ∃ c l w writes, s.scheds p = .running c l ∧ l.writes = w :: writes ∧
      InsertSpec s.db s'.db s.now l.event.eventId w.rows := by
  cases h with
  | sched _ _ db sch hs => exact schedStep_inserts hs

theorem issued_subset (h : Step config s a s') {i : DeliveryRow} (hi : i ∈ s.issued) :
    i ∈ s'.issued := by
  cases h with
  | sched => exact List.mem_append_left _ hi
  | _ => exact hi

/-- A row that has been issued is there as long as its event is. -/
theorem present_step (he : EventsWF s) (hi : IssuedWF s) (h : Step config s a s') {i : DeliveryRow}
    (hm : i ∈ s.issued) {e : RawEvent} (hev : e ∈ s'.db.events.rows) (hk : e.eventId = i.eventId) :
    s'.db.HasRow e.eventId i.callbackName := by
  have hvis : e ∈ s.db.events.rows := by
    rcases mem_events_step h hev with hev | ⟨-, hun, -⟩
    · exact hev
    · -- the UUID of an event that has just been committed is new
      obtain ⟨e', he', hk'⟩ := hi.event i hm
      have hnd := he.uuids_nodup
      rw [List.map_append, List.nodup_append] at hnd
      exact absurd (hk'.trans hk.symm)
        (hnd.2.2 _ (List.mem_map_of_mem he') _ (List.mem_map_of_mem hun))
  have hrow := hi.present i hm e hvis hk
  rcases h.dbStep with hd | ⟨e', -, -, hc, -⟩
  · exact hasRow_dbStep hd hev hrow
  · unfold HasRow
    rw [hc.deliveries]
    exact hrow

theorem issuedWF_step (he : EventsWF s) (hi : IssuedWF s) (h : Step config s a s') :
    IssuedWF s' := by
  by_cases ha : ∀ r b, a ≠ .sched r b
  · obtain ⟨hn, hiss⟩ := noInsert_step h ha
    refine ⟨fun i hm => ?_, hiss ▸ hi.ids_nodup, fun i hm => ?_, fun r hr => ?_,
      fun i hm e => present_step he hi h (hiss ▸ hm)⟩
    · rw [hn.seq]; exact hi.ids_lt i (hiss ▸ hm)
    · obtain ⟨e, hec, hk⟩ := hi.event i (hiss ▸ hm)
      exact ⟨e, committed_subset h hec, hk⟩
    · obtain ⟨r₀, hr₀, hid⟩ := hn.rows r hr
      obtain ⟨i, hm, hid'⟩ := hi.row r₀ hr₀
      exact ⟨i, hiss ▸ hm, hid'.trans hid⟩
  · push Not at ha
    obtain ⟨r, b, rfl⟩ := ha
    have hpres := fun i (hm : i ∈ s.issued) e => present_step he hi h hm (e := e)
    cases h with
    | sched _ _ db sch hs =>
      rcases schedStep_inserts hs with rfl | ⟨c, l, w, writes, -, -, hins⟩
      · simpa using ⟨hi.ids_lt, hi.ids_nodup, hi.event, hi.row, hpres⟩
      · obtain ⟨added, hrows, hadd⟩ := hins.rows
        have hdrop : db.deliveries.rows.drop s.db.deliveries.rows.length = added := by simp [hrows]
        refine ⟨fun i hm => ?_, ?_, fun i hm => ?_, fun r hr => ?_, fun i hm e hev hk => ?_⟩ <;>
          simp only [hdrop] at *
        · rcases List.mem_append.mp hm with hm | hm
          · exact (hi.ids_lt i hm).trans_le hins.seq_le
          · exact db.seq_fresh i (by simp [hrows, hm])
        · have hnd := db.deliveries.nodup
          rw [hrows, List.map_append, List.nodup_append] at hnd
          rw [List.map_append]
          refine hi.ids_nodup.append hnd.2.1 fun k hk hk' => ?_
          obtain ⟨i, hm, rfl⟩ := List.mem_map.mp hk
          obtain ⟨j, hj, heq⟩ := List.mem_map.mp hk'
          have h1 := hi.ids_lt i hm
          have h2 := (hadd j hj).fresh
          omega
        · rcases List.mem_append.mp hm with hm | hm
          · exact hi.event i hm
          · obtain ⟨e, hev, hk⟩ := hins.exists_event
            exact ⟨e, he.visible e hev, hk.trans (hadd i hm).eventId.symm⟩
        · rw [hrows, List.mem_append] at hr
          rcases hr with hr | hr
          · obtain ⟨i, hm, hid⟩ := hi.row r hr
            exact ⟨i, List.mem_append_left _ hm, hid⟩
          · exact ⟨r, List.mem_append_right _ hr, rfl⟩
        · rcases List.mem_append.mp hm with hm | hm
          · exact hpres i hm e hev hk
          · exact ⟨i, by simp [hrows, hm], by simp [DeliveryRow.key, hk]⟩

/-! ### Scheduling processes and tasks -/

/-- A scheduling process in a pass: it has read events that have been visible, and the writes it
has made for the event it is at have left their rows. -/
structure LoopWF (config : DispatchConfig) (s : Sys) (l : Loop) : Prop where
  committed : ∀ e ∈ l.event :: l.rest, e ∈ s.committed
  decoded : ∀ e ∈ l.event :: l.rest, decodes e
  made : ∃ made, eventWrites config l.event = made ++ l.writes ∧ ∀ w ∈ made, ∀ n ∈ w.rows,
    ∃ i ∈ s.issued, i.key = (l.event.eventId, n.callbackName)

def SchedsWF (config : DispatchConfig) (s : Sys) : Prop :=
  ∀ r c l, s.scheds r = .running c l → LoopWF config s l

/-- The row that was fetched: its event, which could be read, and the issued row it is. -/
structure SourceWF (s : Sys) (row : DueDeliveryRow) : Prop where
  event : row.event ∈ s.committed
  eventId : row.event.eventId = row.eventId
  decoded : decodes row.event
  issued : ∃ i ∈ s.issued, i.id = row.deliveryId ∧ i.eventId = row.eventId ∧
    i.callbackName = row.callbackName

/-- A write-back is what `dispatch_one` makes of some result of the call. -/
def StmtWF (due : DueDelivery) (stmt : Stmt) : Prop :=
  ∃ now jitter result, writeBackStmt now jitter due result = some stmt

omit [Crates] in
theorem StmtWF.cases {due : DueDelivery} {stmt : Stmt} (h : StmtWF due stmt) :
    stmt = .markDispatchedManaged ∨ (stmt = .markDispatchedExternal ∧ due.target.mode = .external) ∨
      ∃ error availableAt deadLetter, stmt = .markFailure error availableAt deadLetter := by
  obtain ⟨now, jitter, result, h⟩ := h
  cases writeBack_of_stmt h with
  | managed => exact .inl rfl
  | external _ hm => exact .inr (.inl ⟨rfl, hm⟩)
  | failure => exact .inr (.inr ⟨_, _, _, rfl⟩)

omit [Crates] in
theorem StmtWF.managed {due : DueDelivery} (h : StmtWF due .markDispatchedManaged) :
    due.target.mode = .managed := by
  obtain ⟨now, jitter, result, h⟩ := h
  cases writeBack_of_stmt h with
  | managed _ hm => exact hm

omit [Crates] in
/-- A failure dead-letters the row when the attempt is the last one by the dispatcher's own count.
-/
theorem StmtWF.deadLetter_iff {due : DueDelivery} {error : String} {availableAt : Time}
    {deadLetter : Bool} (h : StmtWF due (.markFailure error availableAt deadLetter)) :
    deadLetter ↔ asI32 due.target.maxAttempts ≤ due.attempts + 1 := by
  obtain ⟨now, jitter, result, h⟩ := h
  cases writeBack_of_stmt h with
  | failure => exact decide_eq_true_iff

/-- Tasks and what they know. -/
structure TasksWF (config : DispatchConfig) (s : Sys) : Prop where
  tid_lt : ∀ t ∈ s.tasks.rows, t.tid < s.nextTid
  source : ∀ t ∈ s.tasks.rows, SourceWF s t.row
  due : ∀ t ∈ s.tasks.rows, ∀ due, t.phase.due? = some due → examineRow config t.row = .ok due
  stmt : ∀ t ∈ s.tasks.rows, ∀ due lockUntil stmt, t.phase = .writing due lockUntil stmt →
    StmtWF due stmt

theorem TasksWF.id_lt (h : TasksWF config s) (hi : IssuedWF s) {t : Task} (ht : t ∈ s.tasks.rows) :
    t.row.deliveryId < s.db.deliverySeq := by
  obtain ⟨i, hm, hid, -⟩ := (h.source t ht).issued
  rw [← hid]
  exact hi.ids_lt i hm

theorem LoopWF.step {l : Loop} (hl : LoopWF config s l) (h : Step config s a s') :
    LoopWF config s' l := by
  obtain ⟨hcom, hdec, made, heq, hmade⟩ := hl
  refine ⟨fun e he => committed_subset h (hcom e he), hdec, made, heq, fun w hw n hn => ?_⟩
  obtain ⟨i, hi, hk⟩ := hmade w hw n hn
  exact ⟨i, issued_subset h hi, hk⟩

theorem LoopWF.start {e : RawEvent} {rest : List RawEvent} (h : ∀ e' ∈ e :: rest, e' ∈ s.committed)
    (hdec : ∀ e' ∈ e :: rest, decodes e') : LoopWF config s (.start config e rest) :=
  ⟨h, hdec, [], rfl, by simp⟩

theorem LoopWF.write {l : Loop} {w : Write} {writes : List Write} (hl : LoopWF config s l)
    (hi : IssuedWF s) (hw : l.writes = w :: writes)
    (hrow : ∀ n ∈ w.rows, s.db.HasRow l.event.eventId n.callbackName) :
    LoopWF config s { l with writes } := by
  obtain ⟨hcom, hdec, made, heq, hmade⟩ := hl
  refine ⟨hcom, hdec, made ++ [w], by simp [heq, hw], fun w' hw' n hn => ?_⟩
  rcases List.mem_append.mp hw' with hw' | hw'
  · exact hmade w' hw' n hn
  · obtain rfl := List.mem_singleton.mp hw'
    obtain ⟨r, hr, hk⟩ := hrow n hn
    obtain ⟨i, hm, hid⟩ := hi.row r hr
    simp only [DeliveryRow.ident, Prod.mk.injEq] at hid
    exact ⟨i, hm, by rw [← hk]; simp [DeliveryRow.key, hid]⟩

theorem schedsWF_step (he : EventsWF s) (hi : SchedsWF config s) (h : Step config s a s')
    (hiss : IssuedWF s') : SchedsWF config s' := by
  intro r c l hr
  rcases h.scheds r with hs | ⟨b, rfl, hs⟩
  · exact (hi r c l (hs ▸ hr)).step h
  · rw [hr] at hs
    have hold := fun c l (hsch : s.scheds r = .running c l) => (hi r c l hsch).step h
    generalize hsch : s.scheds r = old at hs hold
    generalize hdb : s'.db = db' at hs
    cases hs with
    | poll c e rest hf =>
      obtain ⟨-, -, hdec⟩ := fetchNewEvents_eq_some.mp hf
      exact .start (fun e' he' => committed_subset h (he.visible e' (mem_fetchNewEvents hf he').1))
        hdec
    | write c l w writes db' hw hx =>
      exact (hold c l rfl).write hiss hw (hdb ▸ Write.hasRow_exec hx)
    | next c l e rest hw hrest =>
      have hmem : ∀ e' ∈ e :: rest, e' ∈ l.event :: l.rest := fun e' he' =>
        List.mem_cons_of_mem _ (hrest ▸ he')
      exact .start (fun e' he' => (hold c l rfl).committed e' (hmem e' he'))
        fun e' he' => (hold c l rfl).decoded e' (hmem e' he')

theorem SourceWF.step {row : DueDeliveryRow} (hw : SourceWF s row) (h : Step config s a s') :
    SourceWF s' row := by
  obtain ⟨i, hi, hk⟩ := hw.issued
  exact ⟨committed_subset h hw.event, hw.eventId, hw.decoded, i, issued_subset h hi, hk⟩

/-- The delivery a task works on is what examining its row gave. -/
theorem taskStep_due {now : Time} {db db' : Db} {t : Task} {b : TaskAction} {p : Phase}
    {obs : List Obs} (h : TaskStep config now db t b db' (some p) obs) {due : DueDelivery}
    (hd : p.due? = some due) : t.phase.due? = some due ∨ examineRow config t.row = .ok due := by
  generalize hq : some p = q at h
  cases h with
  | dropped | poisoned | lockPanicked | lockUnacked | lockRefused | wroteBack => cases hq
  | examined fault due' hp hex =>
    cases hq; cases hd
    exact .inr hex
  | computeLock due' _ hp | lock due' _ hp | deliver due' _ hp =>
    cases hq; cases hd
    exact .inl (by rw [hp]; rfl)
  | respond due' lockUntil result jitter hp =>
    obtain ⟨stmt, -, rfl⟩ := Option.map_eq_some_iff.mp hq.symm
    cases hd
    exact .inl (by rw [hp]; rfl)

theorem taskStep_stmt {now : Time} {db db' : Db} {t : Task} {b : TaskAction} {obs : List Obs}
    {due : DueDelivery} {lockUntil : Time} {stmt : Stmt}
    (h : TaskStep config now db t b db' (some (.writing due lockUntil stmt)) obs) :
    StmtWF due stmt := by
  generalize hq : some (Phase.writing due lockUntil stmt) = q at h
  cases h with
  | respond due' lockUntil' result jitter hp =>
    obtain ⟨stmt', hs, heq⟩ := Option.map_eq_some_iff.mp hq.symm
    cases heq
    exact ⟨now, jitter, result, hs⟩
  | _ => cases hq

theorem nextTid_le (h : Step config s a s') : s.nextTid ≤ s'.nextTid := by
  cases h with
  | fetch => exact Nat.le_add_right _ _
  | _ => exact le_rfl

theorem tasksWF_step (he : EventsWF s) (hiss : IssuedWF s) (hi : TasksWF config s)
    (h : Step config s a s') : TasksWF config s' := by
  have hmono := nextTid_le h
  refine ⟨fun t ht => ?_, fun t ht => ?_, fun t ht due hd => ?_,
    fun t ht due lockUntil stmt hp => ?_⟩ <;>
    rcases h.tasks ht with ⟨ht, -⟩ | ⟨-, hf, -, hlt, r, hr, -, e, hev, ⟨hk, hdec⟩, hrow⟩ |
      ⟨t₀, ht₀, b, obs, -, heq, hs, -⟩
  · exact (hi.tid_lt t ht).trans_le hmono
  · exact hlt
  · rw [heq]; exact (hi.tid_lt t₀ ht₀).trans_le hmono
  · exact (hi.source t ht).step h
  · rw [hrow]
    obtain ⟨i, hm, hid⟩ := hiss.row r hr
    simp only [DeliveryRow.ident, Prod.mk.injEq] at hid
    refine SourceWF.step ⟨he.visible e hev, hk, hdec, i, hm, hid.1, hid.2.1, hid.2.2.1⟩ h
  · rw [heq]; exact (hi.source t₀ ht₀).step h
  · exact hi.due t ht due hd
  · rw [hf] at hd; cases hd
  · rw [heq]
    rcases taskStep_due hs hd with hd | hex
    · exact hi.due t₀ ht₀ due hd
    · exact hex
  · exact hi.stmt t ht due lockUntil stmt hp
  · rw [hf] at hp; cases hp
  · rw [hp] at hs; exact taskStep_stmt hs

/-! ### Every run -/

structure WF (config : DispatchConfig) (s : Sys) : Prop where
  events : EventsWF s
  issued : IssuedWF s
  scheds : SchedsWF config s
  tasks : TasksWF config s

theorem WF.examined (hw : WF config s) {t : Task} (ht : t ∈ s.tasks.rows) {due : DueDelivery}
    (hd : t.phase.due? = some due) : Examined config t.row due :=
  examined_of_examineRow (hw.tasks.due t ht due hd)

/-- The row under the id of an issued row is that row. -/
theorem ident_of_get (hw : WF config s) {i r : DeliveryRow} (hi : i ∈ s.issued)
    (hr : s.db.deliveries.get i.id = some r) : r.ident = i.ident := by
  obtain ⟨hm, hid⟩ := Table.get_eq_some_iff.mp hr
  obtain ⟨j, hj, hji⟩ := hw.issued.row r hm
  have hjid : j.id = i.id := (congrArg (·.1) hji).trans hid
  rw [← hji, List.inj_on_of_nodup_map hw.issued.ids_nodup hj hi hjid]

/-- No process is in a pass at first. -/
def Quiet (scheds : ℕ → Sched) : Prop := ∀ r c l, scheds r ≠ .running c l

omit [Crates] in
theorem quiet_oneScheduler : Quiet oneScheduler := fun r c l h => by
  unfold oneScheduler at h
  split_ifs at h

theorem wf_init (now : Time) {scheds : ℕ → Sched} (hq : Quiet scheds) :
    WF config (init now scheds) where
  events :=
    ⟨by simp [init], by simp [init], by simp [init], by simp [init], by simp [init, Db.empty]⟩
  issued :=
    ⟨by simp [init], by simp [init], by simp [init], by simp [init, Db.empty], by simp [init]⟩
  scheds := fun r c l h => absurd h (hq r c l)
  tasks := ⟨by simp [init], by simp [init], by simp [init], by simp [init]⟩

theorem wf_step (hi : WF config s) (h : Step config s a s') : WF config s' where
  events := eventsWF_step hi.events h
  issued := issuedWF_step hi.events hi.issued h
  scheds := schedsWF_step hi.events hi.scheds h (issuedWF_step hi.events hi.issued h)
  tasks := tasksWF_step hi.events hi.issued hi.tasks h

/-- The rows of the writes that a process has made are there, unless the event is gone. -/
theorem WF.hasRow_made (hw : WF config s) {l : Loop} (hl : LoopWF config s l)
    (he : l.event ∈ s.db.events.rows) : ∃ made, eventWrites config l.event = made ++ l.writes ∧
      ∀ w ∈ made, ∀ n ∈ w.rows, s.db.HasRow l.event.eventId n.callbackName := by
  obtain ⟨made, heq, hmade⟩ := hl.made
  refine ⟨made, heq, fun w hwm n hn => ?_⟩
  obtain ⟨i, hi, hk⟩ := hmade w hwm n hn
  obtain ⟨hu, hname⟩ := Prod.mk.inj hk
  exact hname ▸ hw.issued.present i hi _ he hu.symm

/-- **The past determines what is known of it**, in every state of every run. -/
theorem wf_of_run {ok : Sys → Action → Sys → Prop} {s₀ : Sys} (h0 : WF config s₀)
    (h : Run (step config) ok s₀ s) : WF config s :=
  h.invariant (WF config) h0 fun _ _ _ hi hs _ => wf_step hi (step_cases hs)

end OutboxDispatcher.System.History
