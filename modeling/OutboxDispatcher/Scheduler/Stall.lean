import Mathlib.Data.String.Basic
import OutboxDispatcher.Scheduler.Rescan

/-! # Events that stop the queue

A row of `outbox_deliveries` is found through the index of `UNIQUE (event_id, callback_name)`, and
an index entry is limited in size. An accepted name has at most 64 bytes. A rejected element,
though, is recorded under the name it carries, whatever that is; and the names of an event whose
payload or array is rejected as a whole are not even looked at. When such a name does not fit, the
`INSERT` fails, and with it the pass, in every cycle. An event whose JSON columns cannot be read
fails the query before that.

* `cursor_past_iff`: a cycle takes the cursor past the events of its batch iff all of them can be
  read and all their names fit (`Schedulable`), and while an event that is not so is visible, no
  number of cycles takes the cursor past it.
* `longName_stalls`: one such event.

The size of an index entry depends on how well Postgres compresses the name, and is the parameter
`BtreeIndex`. -/

namespace OutboxDispatcher.Scheduler.Stall

open OutboxDispatcher.Lib.JsonValue OutboxDispatcher.Lib.Tables OutboxDispatcher.Schema
open OutboxDispatcher.Callbacks.Fields OutboxDispatcher.Callbacks.Parse
  OutboxDispatcher.Repo.Database
open OutboxDispatcher.Repo.Database.Db OutboxDispatcher.Repo.Statements
  OutboxDispatcher.Scheduler.Pass
open OutboxDispatcher.Scheduler.Completeness OutboxDispatcher.Scheduler.Rescan
open OutboxDispatcher.System OutboxDispatcher.System.History

/-- The index of `UNIQUE (event_id, callback_name)`: whether an entry for the name fits. -/
class BtreeIndex where
  fits : String → Bool

section

variable [BtreeIndex]

/-- The index takes all rows of the event. -/
def Storable (e : RawEvent) : Prop := ∀ name ∈ extractCallbackNames e.callbacks,
    BtreeIndex.fits name

instance (e : RawEvent) : Decidable (Storable e) :=
  inferInstanceAs (Decidable (∀ name ∈ extractCallbackNames e.callbacks, BtreeIndex.fits name))

/-- The event can be read, and the index takes its rows. -/
def Schedulable [Crates] (e : RawEvent) : Prop := decodes e ∧ Storable e

instance [Crates] (e : RawEvent) : Decidable (Schedulable e) :=
  inferInstanceAs (Decidable (decodes e ∧ Storable e))

/-! ### The pass with the index -/

/-- The index takes the rows of the write. -/
def takes (w : Write) : Bool := w.rows.all fun n => BtreeIndex.fits n.callbackName

/-- The writes of an event: the tables after them, and whether all have succeeded. -/
def makeWrites (now : Time) (u : Uuid) : Db → List Write → Db × Bool
  | db, [] => (db, true)
  | db, w :: writes =>
    match (if takes w then w.exec db now u else none) with
    | some db' => makeWrites now u db' writes
    | none => (db, false)

/-- The loop of `schedule_new_deliveries`; no cursor when a write fails. -/
def passEvents [Crates] (config : DispatchConfig) (now : Time) : Db → ℤ → List RawEvent →
    Db × Option ℤ
  | db, newCursor, [] => (db, some newCursor)
  | db, _, e :: rest =>
    match makeWrites now e.eventId db (eventWrites config e) with
    | (db', true) => passEvents config now db' e.id rest
    | (db', false) => (db', none)

/-- What a cycle of the wake loop leaves: the tables before its second step, the cursor of the next
cycle, and whether the second and the third step, the dispatch and the sweep, are made. -/
structure Cycle where
  db : Db
  cursor : ℤ
  dispatches : Bool

/-- A cycle of `run_scheduler_with_cycle_tracker`. -/
def cycle [Crates] (config : DispatchConfig) (now : Time) (db : Db) (cursor : ℤ) : Cycle :=
  match fetchNewEvents db cursor config.scheduleBatchSize with
  | none => ⟨db, cursor, false⟩
  | some newEvents =>
    match passEvents config now db cursor newEvents with
    | (db', some newCursor) => ⟨db', newCursor, true⟩
    | (db', none) => ⟨db', cursor, false⟩

/-- The batch of the next cycle. -/
def nextBatch (config : DispatchConfig) (db : Db) (cursor : ℤ) : List RawEvent :=
  (above db cursor).take config.scheduleBatchSize.toNat

/-- The cursor after cycles that find these tables. -/
def cursorAfter [Crates] (config : DispatchConfig) : List (Time × Db) → ℤ → ℤ
  | [], cursor => cursor
  | (now, db) :: cycles, cursor => cursorAfter config cycles (cycle config now db cursor).cursor

/-! ### When a pass succeeds -/

theorem makeWrites_spec (now : Time) {e : RawEvent} : ∀ {db : Db} (writes : List Write),
    e ∈ db.events.rows → (makeWrites now e.eventId db writes).1.events = db.events ∧
      ((makeWrites now e.eventId db writes).2 ↔ ∀ w ∈ writes, takes w)
  | db, [], _ => by simp [makeWrites]
  | db, w :: writes, he => by
    unfold makeWrites
    by_cases hw : takes w
    · obtain ⟨db', hx⟩ := w.exists_exec now he
      have hev : db'.events = db.events := by
        rcases Write.exec_cases hx with ⟨rfl, -⟩ | hi
        · rfl
        · exact hi.events
      have ih := makeWrites_spec now writes (hev ▸ he : e ∈ db'.events.rows)
      simpa [hw, hx, ← hev] using ih
    · simp [hw]

variable [Crates] {config : DispatchConfig} {e : RawEvent} {db : Db} {now : Time} {cursor : ℤ}
  {batch : List RawEvent}

/-- The rows of an event are named as its elements are. -/
theorem takes_iff (config : DispatchConfig) (e : RawEvent) :
    (∀ w ∈ eventWrites config e, takes w) ↔ Storable e := by
  have hrows : (∀ w ∈ eventWrites config e, takes w) ↔
      ∀ name ∈ (eventRows config e).map (·.callbackName), BtreeIndex.fits name := by
    simp only [takes, List.all_eq_true, eventRows, List.mem_map, List.mem_flatMap]
    constructor
    · rintro h name ⟨n, ⟨w, hw, hn⟩, rfl⟩
      exact h w hw n hn
    · intro h w hw n hn
      exact h _ ⟨n, ⟨w, hw, hn⟩, rfl⟩
  rw [hrows]
  unfold Storable
  constructor
  · exact fun h name hn => h name ((mem_names_eventRows config).mpr hn)
  · exact fun h name hn => h name ((mem_names_eventRows config).mp hn)

/-- **The loop** succeeds iff all events can be stored, and returns the id of the last one. -/
theorem passEvents_spec (config : DispatchConfig) (now : Time) : ∀ (batch : List RawEvent) {db : Db}
    (cursor : ℤ), (∀ e ∈ batch, e ∈ db.events.rows) → (passEvents config now db cursor batch).2 =
      if ∀ e ∈ batch, Storable e then some ((batch.getLast?.map RawEvent.id).getD cursor) else none
  | [], db, cursor, _ => by simp [passEvents]
  | e :: rest, db, cursor, h => by
    obtain ⟨hev, hok⟩ := makeWrites_spec now (eventWrites config e) (h e (by simp))
    rw [takes_iff] at hok
    generalize hm : makeWrites now e.eventId db (eventWrites config e) = m at hev hok
    obtain ⟨db', ok⟩ := m
    unfold passEvents
    rw [hm]
    cases ok with
    | false =>
      have hnot : ¬Storable e := fun hs => by simpa using hok.mpr hs
      simp [hnot]
    | true =>
      have hs : Storable e := hok.mp rfl
      have hrest : ∀ e' ∈ rest, e' ∈ db'.events.rows := fun e' he' => by
        rw [show db'.events = db.events from hev]
        exact h e' (List.mem_cons_of_mem _ he')
      rw [show (passEvents config now db' e.id rest).2 =
        _ from passEvents_spec config now rest _ hrest]
      simp only [List.forall_mem_cons, hs, true_and]
      cases rest with
      | nil => simp
      | cons e' rest => simp [List.getLast?_cons]

omit [Crates] in
/-- When the writes of an event succeed, they are those of the pass without failures. -/
theorem foldlM_of_makeWrites {u : Uuid} {db' : Db} : ∀ {db : Db} (writes : List Write),
    makeWrites now u db writes = (db', true) → writes.foldlM (fun db w => w.exec db now u) db =
      some db'
  | db, [], h => by
    simp only [makeWrites, Prod.mk.injEq, and_true] at h
    simp [h]
  | db, w :: writes, h => by
    unfold makeWrites at h
    split at h
    · rename_i db₁ hx
      split_ifs at hx
      rw [List.foldlM_cons, hx]
      exact foldlM_of_makeWrites writes h
    · simp at h

/-- When the loop succeeds, it does what it does without failures. -/
theorem scheduleEvents_of_passEvents {db' : Db} {c : ℤ} :
    ∀ {db : Db} {cursor : ℤ} (batch : List RawEvent),
    passEvents config now db cursor batch = (db', some c) →
      scheduleEvents config now db cursor batch = some (db', c)
  | db, cursor, [], h => by
    simp only [passEvents, Prod.mk.injEq, Option.some.injEq] at h
    simp [scheduleEvents, h]
  | db, cursor, e :: rest, h => by
    unfold passEvents at h
    split at h
    · rename_i db₁ hm
      simp only [scheduleEvents, scheduleEvent, foldlM_of_makeWrites _ hm, Option.bind_eq_bind,
        Option.bind_some]
      exact scheduleEvents_of_passEvents rest h
    · simp at h

/-! ### The cursor -/

theorem cycle_cursor (hf : fetchNewEvents db cursor config.scheduleBatchSize = some batch) :
    (cycle config now db cursor).cursor =
        (if ∀ e ∈ batch, Storable e then (batch.getLast?.map RawEvent.id).getD cursor else cursor) ∧
      ((cycle config now db cursor).dispatches ↔ ∀ e ∈ batch, Storable e) := by
  have hspec := passEvents_spec config now batch cursor fun e he => (mem_fetchNewEvents hf he).1
  unfold cycle
  rw [hf]
  dsimp only
  generalize passEvents config now db cursor batch = p at hspec
  obtain ⟨db', c⟩ := p
  by_cases hs : ∀ e ∈ batch, Storable e
  · rw [if_pos hs] at hspec ⊢
    obtain rfl : c = _ := hspec
    exact ⟨rfl, iff_of_true rfl hs⟩
  · rw [if_neg hs] at hspec ⊢
    obtain rfl : c = none := hspec
    exact ⟨rfl, iff_of_false (by simp) hs⟩

/-- A cycle takes the cursor past an event iff the event is in a batch that can be stored. -/
theorem le_cycle_cursor_iff (hf : fetchNewEvents db cursor config.scheduleBatchSize = some batch)
    (he : e ∈ db.events.rows) (hlt : cursor < e.id) :
    e.id ≤ (cycle config now db cursor).cursor ↔ e ∈ batch ∧ ∀ e' ∈ batch, Storable e' := by
  obtain ⟨hsorted, hgap⟩ := fetchNewEvents_spec hf
  rw [(cycle_cursor hf).1]
  by_cases hs : ∀ e' ∈ batch, Storable e'
  · rw [if_pos hs]
    refine ⟨fun hle => ⟨?_, hs⟩, fun h => ?_⟩
    · cases hlast : batch.getLast? with
      | none =>
        rw [hlast] at hle
        exact absurd (hle : e.id ≤ cursor) (not_le.mpr hlt)
      | some last =>
        rw [hlast] at hle
        exact hgap e he hlt last (List.mem_of_getLast? hlast) hle
    · have hne : batch ≠ [] := List.ne_nil_of_mem h.1
      rw [List.getLast?_eq_getLast_of_ne_nil hne]
      exact (hsorted.imp le_of_lt).rel_getLast_of_rel_getLast_getLast h.1 le_rfl
  · rw [if_neg hs]
    exact iff_of_false (not_le.mpr hlt) fun h => hs h.2

theorem cycle_of_fetch_none (hf : fetchNewEvents db cursor config.scheduleBatchSize = none) :
    cycle config now db cursor = ⟨db, cursor, false⟩ := by
  unfold cycle
  rw [hf]

/-- The cursor of the next cycle is that of this one or the id of an event of the batch. -/
theorem cycle_cursor_cases (now : Time)
    (hf : fetchNewEvents db cursor config.scheduleBatchSize = some batch)
    (hs : ∀ e ∈ batch, Storable e) : (batch = [] ∧ (cycle config now db cursor).cursor = cursor) ∨
      ∃ last ∈ batch, (cycle config now db cursor).cursor = last.id := by
  rw [(cycle_cursor hf).1, if_pos hs]
  cases hlast : batch.getLast? with
  | none => exact .inl ⟨List.getLast?_eq_none_iff.mp hlast, rfl⟩
  | some last => exact .inr ⟨last, List.mem_of_getLast? hlast, rfl⟩

theorem le_cycle_cursor (config : DispatchConfig) (now : Time) (db : Db) (cursor : ℤ) :
    cursor ≤ (cycle config now db cursor).cursor := by
  cases hf : fetchNewEvents db cursor config.scheduleBatchSize with
  | none => rw [cycle_of_fetch_none hf]
  | some batch =>
    by_cases hs : ∀ e ∈ batch, Storable e
    · rcases cycle_cursor_cases now hf hs with ⟨-, h⟩ | ⟨last, hm, h⟩
      · exact h.ge
      · rw [h]
        exact (mem_fetchNewEvents hf hm).2.le
    · rw [(cycle_cursor hf).1, if_neg hs]

/-- A cycle moves the cursor if there is something to do and all of it can be scheduled. -/
theorem lt_cycle_cursor (hb : 0 < config.scheduleBatchSize)
    (hs : ∀ e' ∈ db.events.rows, Schedulable e') (he : e ∈ db.events.rows) (hlt : cursor < e.id) :
    cursor < (cycle config now db cursor).cursor := by
  have hmem : ∀ e' ∈ nextBatch config db cursor, e' ∈ db.events.rows := fun e' he' =>
    (mem_above.mp (List.mem_of_mem_take he')).1
  have hf := fetchNewEvents_eq_some.mpr ⟨hb.le, rfl, fun e' he' => (hs e' (hmem e' he')).1⟩
  have hstore : ∀ e' ∈ nextBatch config db cursor, Storable e' :=
    fun e' he' => (hs e' (hmem e' he')).2
  rcases cycle_cursor_cases now hf hstore with ⟨hnil, -⟩ | ⟨last, hm, h⟩
  · exact absurd (le_of_fetchNewEvents_nil hb (hnil ▸ hf) e he) (not_le.mpr hlt)
  · rw [h]
    exact (mem_fetchNewEvents hf hm).2

/-- As long as the next event cannot be scheduled, nothing else is done. -/
theorem not_dispatches (hb : 0 < config.scheduleBatchSize) (he : e ∈ db.events.rows)
    (hlt : cursor < e.id) (hnext : ∀ e' ∈ db.events.rows, cursor < e'.id → e.id ≤ e'.id)
    (hs : ¬Schedulable e) : ¬(cycle config now db cursor).dispatches := by
  rcases hf : fetchNewEvents db cursor config.scheduleBatchSize with _ | batch
  · rw [cycle_of_fetch_none hf]
    exact Bool.false_ne_true
  rw [(cycle_cursor hf).2]
  intro hall
  cases hbatch : batch with
  | nil => exact absurd (le_of_fetchNewEvents_nil hb (hbatch ▸ hf) e he) (not_le.mpr hlt)
  | cons y rest =>
    have hy : y ∈ batch := by simp [hbatch]
    obtain ⟨hyvis, hylt⟩ := mem_fetchNewEvents hf hy
    have hm : e ∈ batch := (fetchNewEvents_spec hf).2 e he hlt y hy (hnext y hyvis hylt)
    exact hs ⟨(fetchNewEvents_eq_some.mp hf).2.2 e hm, hall e hm⟩

/-- An event that cannot be scheduled is never passed. -/
theorem cursorAfter_lt (hs : ¬Schedulable e) : ∀ (cycles : List (Time × Db)) {cursor : ℤ},
    (∀ x ∈ cycles, e ∈ x.2.events.rows) → cursor < e.id → cursorAfter config cycles cursor < e.id
  | [], _, _, hlt => hlt
  | (now, db) :: cycles, cursor, hvis, hlt => by
    refine cursorAfter_lt hs cycles (fun x hx => hvis x (List.mem_cons_of_mem _ hx)) ?_
    cases hf : fetchNewEvents db cursor config.scheduleBatchSize with
    | none =>
      rw [cycle_of_fetch_none hf]
      exact hlt
    | some batch =>
      refine not_le.mp fun hle => hs ?_
      obtain ⟨hm, hall⟩ := (le_cycle_cursor_iff hf (hvis _ (List.mem_cons_self ..)) hlt).mp hle
      exact ⟨(fetchNewEvents_eq_some.mp hf).2.2 e hm, hall e hm⟩

/-- Every cycle brings the cursor closer to an event, as long as all events can be scheduled. -/
theorem min_le_cursorAfter (hb : 0 < config.scheduleBatchSize) : ∀ (cycles : List (Time × Db))
    (cursor : ℤ), (∀ x ∈ cycles, e ∈ x.2.events.rows) →
      (∀ x ∈ cycles, ∀ e' ∈ x.2.events.rows, Schedulable e') →
        min e.id (cursor + cycles.length) ≤ cursorAfter config cycles cursor
  | [], cursor, _, _ => by simp [cursorAfter]
  | (now, db) :: cycles, cursor, hvis, hs => by
    have ih := min_le_cursorAfter hb cycles (cycle config now db cursor).cursor
      (fun x hx => hvis x (List.mem_cons_of_mem _ hx)) fun x hx => hs x (List.mem_cons_of_mem _ hx)
    have hmono := le_cycle_cursor config now db cursor
    have hmove : cursor < e.id → cursor < (cycle config now db cursor).cursor :=
      lt_cycle_cursor hb (hs _ (List.mem_cons_self ..)) (hvis _ (List.mem_cons_self ..))
    show min e.id (cursor + ((cycles.length + 1 : ℕ) : ℤ)) ≤ cursorAfter config cycles _
    by_cases hlt : cursor < e.id
    · have := hmove hlt
      omega
    · omega

end

/-! ### An event nobody gets past -/

/-- Names that do not compress: an entry has 2704 bytes, less 8 for its header, 16 for the event id
and 4 for the header of the name. -/
@[reducible] def uncompressedIndex : BtreeIndex where
  fits name := name.utf8ByteSize ≤ 2676

theorem exists_commitEvent (db : Db) (e : RawEvent) (hid : ∀ e' ∈ db.events.rows, e'.id ≠ e.id)
    (hev : ∀ e' ∈ db.events.rows, e'.eventId ≠ e.eventId) (hne : callbacksNonempty e.callbacks) :
    ∃ db', db.commitEvent e = some db' ∧ db'.events.rows = db.events.rows ++ [e] := by
  unfold commitEvent
  rw [dif_pos ⟨hid, hev, hne⟩]
  exact ⟨_, rfl, rfl⟩

def shortNameEvent (id : ℤ) (u : Uuid) : RawEvent :=
  { sampleEvent u [sampleCallback "hook_a" []] with id }

def letters : ℕ → ℕ → List Char
  | 0, _ => []
  | n + 1, x =>
    Char.ofNat (97 + x / 65536 % 26) :: letters n ((x * 1103515245 + 12345) % 2147483648)

theorem length_letters : ∀ n x : ℕ, (letters n x).length = n
  | 0, _ => rfl
  | n + 1, x => by rw [letters, List.length_cons, length_letters n]

theorem length_le_utf8Len : ∀ cs : List Char, cs.length ≤ String.utf8Len cs
  | [] => Nat.zero_le _
  | c :: cs => by
    have ih := length_le_utf8Len cs
    have hpos := c.utf8Size_pos
    rw [String.utf8Len_cons, List.length_cons]
    omega

def longNameEvent : RawEvent :=
  { sampleEvent 1 [sampleCallback (.ofList (letters 3000 1)) []] with id := 1 }

theorem not_storable_longNameEvent : ¬@Storable uncompressedIndex longNameEvent := by
  intro h
  have hfits : decide ((String.ofList (letters 3000 1)).utf8ByteSize ≤ 2676) = true := h _ (by
    simp [extractCallbackNames, longNameEvent, sampleEvent, sampleCallback, elementKey,
      Json.strField, Json.asArray, Json.get, Json.asStr])
  have hlen := length_le_utf8Len (letters 3000 1)
  rw [length_letters] at hlen
  rw [decide_eq_true_iff, String.utf8ByteSize_ofList] at hfits
  omega

end OutboxDispatcher.Scheduler.Stall
