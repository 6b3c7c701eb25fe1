import OutboxDispatcher.Lib.Tables
import OutboxDispatcher.Schema

/-! # The database

The two tables with the constraints of the schema as fields, so that no operation can break them:
the primary keys, `UNIQUE (event_id)`, `UNIQUE (event_id, callback_name)`, the foreign key, the
check that `callbacks` is a non-empty array, and a delivery sequence that is ahead of every id.

There are four kinds of writes, and every statement of the repository is one of them:

* `Db.update` changes columns of delivery rows, never the identifying ones;
* `Db.insertDeliveries` is `INSERT … ON CONFLICT (event_id, callback_name) DO NOTHING`;
* `Db.deleteEvents` deletes events and, by `ON DELETE CASCADE`, their rows;
* `Db.commitEvent` makes a publisher's event visible. -/

namespace OutboxDispatcher.Repo.Database

open OutboxDispatcher.Lib.JsonValue OutboxDispatcher.Lib.Tables OutboxDispatcher.Schema

/-- `CHECK (jsonb_typeof(callbacks) = 'array' AND jsonb_array_length(callbacks) > 0)`. -/
def callbacksNonempty : Json → Bool
  | .arr (_ :: _) => true
  | _ => false

/-- The tables, and the next value of `outbox_deliveries_id_seq`. -/
structure Db where
  events : Table RawEvent.id
  deliveries : Table DeliveryRow.id
  deliverySeq : ℤ
  eventId_nodup : (events.rows.map RawEvent.eventId).Nodup
  callbacks_nonempty : ∀ e ∈ events.rows, callbacksNonempty e.callbacks
  key_nodup : (deliveries.rows.map DeliveryRow.key).Nodup
  references : ∀ r ∈ deliveries.rows, ∃ e ∈ events.rows, e.eventId = r.eventId
  seq_fresh : ∀ r ∈ deliveries.rows, r.id < deliverySeq

namespace Db

/-- The tables after the migrations. -/
def empty : Db where
  events := .empty
  deliveries := .empty
  deliverySeq := 1
  eventId_nodup := by simp
  callbacks_nonempty := by simp
  key_nodup := by simp
  references := by simp
  seq_fresh := by simp

def event? (db : Db) (u : Uuid) : Option RawEvent := db.events.rows.find? (·.eventId = u)

def HasRow (db : Db) (u : Uuid) (name : String) : Prop :=
  ∃ r ∈ db.deliveries.rows, r.key = (u, name)

instance (db : Db) (u : Uuid) (name : String) : Decidable (db.HasRow u name) :=
  inferInstanceAs (Decidable (∃ r ∈ db.deliveries.rows, r.key = (u, name)))

section Lookup

variable {db : Db} {e e' : RawEvent} {u : Uuid}

theorem event_eq (he : e ∈ db.events.rows) (he' : e' ∈ db.events.rows)
    (h : e.eventId = e'.eventId) : e = e' := List.inj_on_of_nodup_map db.eventId_nodup he he' h

theorem event?_eq_some : db.event? u = some e ↔ e ∈ db.events.rows ∧ e.eventId = u := by
  refine ⟨fun h => ⟨List.mem_of_find?_eq_some h, by simpa using List.find?_some h⟩, ?_⟩
  rintro ⟨he, rfl⟩
  rcases h : db.event? e.eventId with _ | e'
  · exact absurd (List.find?_eq_none.mp h e he) (by simp)
  · have he' : e'.eventId = e.eventId := by simpa using List.find?_some h
    rw [event_eq (List.mem_of_find?_eq_some h) he he']

end Lookup

/-! ### Updates -/

/-- A change of columns that keeps the identifying ones. -/
structure RowUpdate where
  set : DeliveryRow → DeliveryRow
  ident_set : ∀ r, (set r).ident = r.ident

namespace RowUpdate

variable (f : RowUpdate) (r : DeliveryRow)

@[simp] theorem id_set : (f.set r).id = r.id := congrArg (·.1) (f.ident_set r)

@[simp] theorem eventId_set : (f.set r).eventId = r.eventId := congrArg (·.2.1) (f.ident_set r)

@[simp] theorem callbackName_set : (f.set r).callbackName = r.callbackName :=
  congrArg (·.2.2.1) (f.ident_set r)

@[simp] theorem key_set : (f.set r).key = r.key := by simp [DeliveryRow.key]

end RowUpdate

/-- `UPDATE outbox_deliveries`: every row is replaced by its image. -/
def update (db : Db) (f : RowUpdate) : Db where
  events := db.events
  deliveries := db.deliveries.modify f.set f.id_set
  deliverySeq := db.deliverySeq
  eventId_nodup := db.eventId_nodup
  callbacks_nonempty := db.callbacks_nonempty
  key_nodup := by
    have h : DeliveryRow.key ∘ f.set = DeliveryRow.key := funext f.key_set
    rw [Table.rows_modify, List.map_map, h]; exact db.key_nodup
  references := by
    simp only [Table.rows_modify, List.mem_map]
    rintro _ ⟨r, hr, rfl⟩
    simpa using db.references r hr
  seq_fresh := by
    simp only [Table.rows_modify, List.mem_map]
    rintro _ ⟨r, hr, rfl⟩
    simpa using db.seq_fresh r hr

section Update

variable (db : Db) (f : RowUpdate)

@[simp] theorem events_update : (db.update f).events = db.events := rfl

@[simp] theorem rows_update : (db.update f).deliveries.rows = db.deliveries.rows.map f.set := rfl

@[simp] theorem get_update (d : ℤ) :
    (db.update f).deliveries.get d = (db.deliveries.get d).map f.set :=
  Table.get_modify f.set f.id_set d

@[simp] theorem hasRow_update (u : Uuid) (name : String) :
    (db.update f).HasRow u name ↔ db.HasRow u name := by
  simp [HasRow]

variable {db f} in
theorem update_eq_self (h : ∀ r ∈ db.deliveries.rows, f.set r = r) : db.update f = db := by
  have hrows : db.deliveries.modify f.set f.id_set = db.deliveries :=
    Table.modify_eq_self f.id_set h
  unfold update
  congr

end Update

/-! ### Insertions -/

/-- The columns a scheduling statement gives; the others have their defaults. -/
structure NewDelivery where
  callbackName : String
  completionMode : CompletionMode
  deadLetter : Bool := false
  lastError : Option String := none
  deriving DecidableEq

/-- The row that is inserted at the instant `now` under the id `id`. -/
def NewDelivery.row (n : NewDelivery) (id : ℤ) (u : Uuid) (now : Time) : DeliveryRow where
  id := id
  eventId := u
  callbackName := n.callbackName
  completionMode := n.completionMode
  deadLetter := n.deadLetter
  lastError := n.lastError
  availableAt := now
  createdAt := now

/-- One row of the `INSERT`. The id is drawn before the conflict is found, so it is lost then. -/
def insertOne (now : Time) (u : Uuid) (db : Db) (n : NewDelivery) : Db :=
  if h : (∃ e ∈ db.events.rows, e.eventId = u) ∧ ¬db.HasRow u n.callbackName then
    { db with
      deliveries := db.deliveries.push (n.row db.deliverySeq u now)
        fun r hr => ne_of_lt (db.seq_fresh r hr)
      deliverySeq := db.deliverySeq + 1
      key_nodup := by
        rw [Table.rows_push, List.map_append]
        refine db.key_nodup.append (by simp) fun k hk hk' => h.2 ?_
        obtain ⟨r, hr, rfl⟩ := List.mem_map.mp hk
        exact ⟨r, hr, List.mem_singleton.mp hk'⟩
      references := by
        simp only [Table.rows_push, List.mem_append, List.mem_singleton]
        rintro r (hr | rfl)
        · exact db.references r hr
        · exact h.1
      seq_fresh := by
        simp only [Table.rows_push, List.mem_append, List.mem_singleton]
        rintro r (hr | rfl)
        · exact (db.seq_fresh r hr).trans (Int.lt_succ _)
        · exact Int.lt_succ db.deliverySeq }
  else
    { db with
      deliverySeq := db.deliverySeq + 1
      seq_fresh := fun r hr => (db.seq_fresh r hr).trans (Int.lt_succ _) }

/-- `INSERT … SELECT … FROM UNNEST … ON CONFLICT DO NOTHING`. It fails when the event is gone: the
foreign key. -/
def insertDeliveries (db : Db) (now : Time) (u : Uuid) (new : List NewDelivery) : Option Db :=
  if ∃ e ∈ db.events.rows, e.eventId = u then some (new.foldl (insertOne now u) db) else none

section Insert

variable {now : Time} {u : Uuid}

@[simp] theorem events_insertOne (db : Db) (n : NewDelivery) :
    (insertOne now u db n).events = db.events := by
  unfold insertOne; split_ifs <;> rfl

@[simp] theorem deliverySeq_insertOne (db : Db) (n : NewDelivery) :
    (insertOne now u db n).deliverySeq = db.deliverySeq + 1 := by
  unfold insertOne; split_ifs <;> rfl

theorem rows_insertOne (db : Db) (n : NewDelivery) : (insertOne now u db n).deliveries.rows =
    if (∃ e ∈ db.events.rows, e.eventId = u) ∧ ¬db.HasRow u n.callbackName then
      db.deliveries.rows ++ [n.row db.deliverySeq u now] else db.deliveries.rows := by
  unfold insertOne; split_ifs <;> rfl

theorem hasRow_insertOne (now : Time) {db : Db} (hu : ∃ e ∈ db.events.rows, e.eventId = u)
    (n : NewDelivery) (w : Uuid) (name : String) : (insertOne now u db n).HasRow w name ↔
      db.HasRow w name ∨ (w = u ∧ name = n.callbackName) := by
  unfold HasRow
  rw [rows_insertOne]
  split_ifs with h
  · simp only [List.mem_append, List.mem_singleton]
    constructor
    · rintro ⟨r, hr | rfl, hk⟩
      · exact .inl ⟨r, hr, hk⟩
      · obtain ⟨rfl, rfl⟩ := Prod.mk.inj hk
        exact .inr ⟨rfl, rfl⟩
    · rintro (⟨r, hr, hk⟩ | ⟨rfl, rfl⟩)
      · exact ⟨r, .inl hr, hk⟩
      · exact ⟨_, .inr rfl, rfl⟩
  · have h : db.HasRow u n.callbackName := by
      by_contra hn; exact h ⟨hu, hn⟩
    constructor
    · exact .inl
    · rintro (hr | ⟨rfl, rfl⟩)
      · exact hr
      · exact h

/-- The rows an `INSERT` adds: of the entries with one name the first, where no row was. -/
structure Inserted (db : Db) (now : Time) (u : Uuid) (new : List NewDelivery) (r : DeliveryRow) :
    Prop where
  fresh : db.deliverySeq ≤ r.id
  absent : ¬db.HasRow u r.callbackName
  first : ∃ n, new.find? (·.callbackName = r.callbackName) = some n ∧ r = n.row r.id u now

structure InsertSpec (db db' : Db) (now : Time) (u : Uuid) (new : List NewDelivery) : Prop where
  events : db'.events = db.events
  seq_le : db.deliverySeq ≤ db'.deliverySeq
  exists_event : ∃ e ∈ db.events.rows, e.eventId = u
  rows : ∃ added, db'.deliveries.rows = db.deliveries.rows ++ added ∧
    ∀ r ∈ added, Inserted db now u new r
  hasRow : ∀ w name, db'.HasRow w name ↔
    db.HasRow w name ∨ (w = u ∧ ∃ n ∈ new, n.callbackName = name)

theorem foldl_insertOne {db : Db} (hu : ∃ e ∈ db.events.rows, e.eventId = u) :
    ∀ new : List NewDelivery, InsertSpec db (new.foldl (insertOne now u) db) now u new := by
  intro new
  induction new generalizing db with
  | nil => exact ⟨rfl, le_rfl, hu, ⟨[], by simp⟩, by simp⟩
  | cons n new ih =>
    have hu' : ∃ e ∈ (insertOne now u db n).events.rows, e.eventId = u := by simpa using hu
    have h := ih hu'
    have hrow := hasRow_insertOne now hu n
    refine ⟨h.events.trans (by simp), ?_, hu, ?_, fun w name => ?_⟩
    · have := h.seq_le
      simp only [deliverySeq_insertOne] at this
      exact (by omega : db.deliverySeq ≤ db.deliverySeq + 1).trans this
    · obtain ⟨added, hrows, hadd⟩ := h.rows
      -- a row added later has another name than `n`, whose row is there by then
      have hlater : ∀ r ∈ added, Inserted db now u (n :: new) r := fun r hr => by
        have hi := hadd r hr
        have habs := hi.absent
        rw [hrow] at habs
        push Not at habs
        refine ⟨?_, habs.1, ?_⟩
        · have := hi.fresh; simp only [deliverySeq_insertOne] at this; omega
        · obtain ⟨m, hm, hr⟩ := hi.first
          refine ⟨m, ?_, hr⟩
          rwa [List.find?_cons_of_neg]
          simpa using Ne.symm (habs.2 rfl)
      rw [rows_insertOne] at hrows
      split_ifs at hrows with hc
      · refine ⟨n.row db.deliverySeq u now :: added, by simpa using hrows, fun r hr => ?_⟩
        rcases List.mem_cons.mp hr with rfl | hr
        · exact ⟨le_rfl, hc.2, n, by simp [NewDelivery.row], rfl⟩
        · exact hlater r hr
      · exact ⟨added, hrows, hlater⟩
    · rw [show (n :: new).foldl (insertOne now u) db =
        new.foldl (insertOne now u) (insertOne now u db n) from rfl, h.hasRow, hrow]
      simp only [List.mem_cons, exists_eq_or_imp]
      constructor
      · rintro ((hw | ⟨hw, rfl⟩) | ⟨hw, hn⟩)
        · exact .inl hw
        · exact .inr ⟨hw, .inl rfl⟩
        · exact .inr ⟨hw, .inr hn⟩
      · rintro (hw | ⟨hw, rfl | hn⟩)
        · exact .inl (.inl hw)
        · exact .inl (.inr ⟨hw, rfl⟩)
        · exact .inr ⟨hw, hn⟩

/-- **The scheduling statement.** -/
theorem insertDeliveries_spec {db db' : Db} {new : List NewDelivery}
    (h : db.insertDeliveries now u new = some db') : InsertSpec db db' now u new := by
  unfold insertDeliveries at h
  split_ifs at h with hu
  cases h
  exact foldl_insertOne hu new

theorem InsertSpec.get_of_some {db db' : Db} {new : List NewDelivery} {d : ℤ} {r : DeliveryRow}
    (h : InsertSpec db db' now u new) (hr : db.deliveries.get d = some r) :
    db'.deliveries.get d = some r := by
  obtain ⟨added, hrows, -⟩ := h.rows
  obtain ⟨hm, hk⟩ := Table.get_eq_some_iff.mp hr
  exact Table.get_eq_some_iff.mpr ⟨by simp [hrows, hm], hk⟩

theorem InsertSpec.get_cases {db db' : Db} {new : List NewDelivery} {d : ℤ} {r : DeliveryRow}
    (h : InsertSpec db db' now u new) (hr : db'.deliveries.get d = some r) :
    db.deliveries.get d = some r ∨ (r.id = d ∧ Inserted db now u new r) := by
  obtain ⟨added, hrows, hadd⟩ := h.rows
  obtain ⟨hm, hk⟩ := Table.get_eq_some_iff.mp hr
  rw [hrows, List.mem_append] at hm
  rcases hm with hm | hm
  · exact .inl (Table.get_eq_some_iff.mpr ⟨hm, hk⟩)
  · exact .inr ⟨hk, hadd r hm⟩

theorem Inserted.eventId {db : Db} {new : List NewDelivery} {r : DeliveryRow}
    (h : Inserted db now u new r) : r.eventId = u := by
  obtain ⟨n, -, hr⟩ := h.first
  rw [hr]; rfl

end Insert

/-! ### Deletions and commits -/

/-- A database is its two tables and the sequence. -/
theorem db_ext {db db' : Db} (he : db'.events = db.events)
    (hr : db'.deliveries.rows = db.deliveries.rows) (hs : db'.deliverySeq = db.deliverySeq) :
    db' = db := by
  obtain ⟨events, ⟨rows, _⟩, seq, _, _, _, _, _⟩ := db
  obtain ⟨events', ⟨rows', _⟩, seq', _, _, _, _, _⟩ := db'
  cases he
  cases hr
  cases hs
  rfl

/-- `DELETE FROM outbox_events`, which cascades to the rows of the deleted events. -/
def deleteEvents (db : Db) (p : RawEvent → Bool) : Db where
  events := db.events.filter (!p ·)
  deliveries := db.deliveries.filter fun r =>
    !db.events.rows.any fun e => p e && e.eventId == r.eventId
  deliverySeq := db.deliverySeq
  eventId_nodup := (List.Sublist.map _ List.filter_sublist).nodup db.eventId_nodup
  callbacks_nonempty := fun e he => db.callbacks_nonempty e (List.mem_of_mem_filter he)
  key_nodup := (List.Sublist.map _ List.filter_sublist).nodup db.key_nodup
  references := by
    intro r hr
    obtain ⟨hr, hp⟩ := List.mem_filter.mp hr
    obtain ⟨e, he, hk⟩ := db.references r hr
    simp only [Bool.not_eq_true', List.any_eq_false, Bool.and_eq_true, beq_iff_eq, not_and] at hp
    exact ⟨e, List.mem_filter.mpr ⟨he, by simpa using fun h => hp e he h hk⟩, hk⟩
  seq_fresh := fun r hr => db.seq_fresh r (List.mem_of_mem_filter hr)

/-- A publisher's transaction commits: the event becomes visible, if the constraints hold. -/
def commitEvent (db : Db) (e : RawEvent) : Option Db :=
  if h : (∀ e' ∈ db.events.rows, e'.id ≠ e.id) ∧ (∀ e' ∈ db.events.rows, e'.eventId ≠ e.eventId) ∧
      callbacksNonempty e.callbacks then
    some { db with
      events := db.events.push e h.1
      eventId_nodup := by
        rw [Table.rows_push, List.map_append]
        refine db.eventId_nodup.append (by simp) fun k hk hk' => ?_
        obtain ⟨e', he', rfl⟩ := List.mem_map.mp hk
        exact h.2.1 e' he' (List.mem_singleton.mp hk')
      callbacks_nonempty := by
        simp only [Table.rows_push, List.mem_append, List.mem_singleton]
        rintro e' (he' | rfl)
        · exact db.callbacks_nonempty e' he'
        · exact h.2.2
      references := fun r hr => by
        obtain ⟨e', he', hk⟩ := db.references r hr
        exact ⟨e', by simp [he'], hk⟩ }
  else none

section Delete

variable {db : Db} {p : RawEvent → Bool} {e : RawEvent} {r : DeliveryRow} {d : ℤ}

theorem mem_events_deleteEvents :
    e ∈ (db.deleteEvents p).events.rows ↔ e ∈ db.events.rows ∧ p e = false := by
  simp [deleteEvents]

theorem mem_rows_deleteEvents : r ∈ (db.deleteEvents p).deliveries.rows ↔
    r ∈ db.deliveries.rows ∧ ∀ e ∈ db.events.rows, p e → e.eventId ≠ r.eventId := by
  simp [deleteEvents]

theorem get_of_deleteEvents (h : (db.deleteEvents p).deliveries.get d = some r) :
    db.deliveries.get d = some r := by
  obtain ⟨hm, hk⟩ := Table.get_eq_some_iff.mp h
  exact Table.get_eq_some_iff.mpr ⟨(mem_rows_deleteEvents.mp hm).1, hk⟩

theorem hasRow_deleteEvents (he : e ∈ (db.deleteEvents p).events.rows) {name : String}
    (h : db.HasRow e.eventId name) : (db.deleteEvents p).HasRow e.eventId name := by
  obtain ⟨r, hr, hk⟩ := h
  obtain ⟨he, hp⟩ := mem_events_deleteEvents.mp he
  refine ⟨r, mem_rows_deleteEvents.mpr ⟨hr, fun e' he' hp' heq => ?_⟩, hk⟩
  have hr' : r.eventId = e.eventId := congrArg (·.1) hk
  rw [event_eq he' he (heq.trans hr')] at hp'
  simp [hp] at hp'

end Delete

structure CommitSpec (db db' : Db) (e : RawEvent) : Prop where
  rows : db'.events.rows = db.events.rows ++ [e]
  deliveries : db'.deliveries = db.deliveries
  seq : db'.deliverySeq = db.deliverySeq
  fresh : ∀ e' ∈ db.events.rows, e'.eventId ≠ e.eventId

theorem commitEvent_spec {db db' : Db} {e : RawEvent} (h : db.commitEvent e = some db') :
    CommitSpec db db' e := by
  unfold commitEvent at h
  split_ifs at h with hc
  cases h
  exact ⟨rfl, rfl, rfl, hc.2.1⟩

end Db

end OutboxDispatcher.Repo.Database
