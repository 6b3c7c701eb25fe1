import Mathlib.Data.Fintype.Card
import Mathlib.Data.Prod.Lex
import OutboxDispatcher.System

/-! # The poison-pill guard

`fetch_due_deliveries` reads the first due rows, looks for the callback of each and validates it
again. A row whose callback does not pass is dead-lettered on the spot, since it would come back at
the head of every batch. The loop takes the rows one after another (`fetchRow`), and since no row is
in the batch twice each of them is returned or dead-lettered by its own turn (`splits_fetch`). That
is so when the columns of the events can be read. The guard comes after the query, so an event that
cannot be read fails the whole batch, and it is at the head of the next one again
(`unreadable_fails`).

A dead letter is not due. So with other work in between, as long as it leaves the dead letters
alone, a row with a bad callback is in one batch at most, and `n` such rows ahead of another one
hold it back for `n` fetches at most (`reached`): each fetch that misses it takes one of them. -/

namespace OutboxDispatcher.Repo.PoisonGuard

open OutboxDispatcher.Lib.Checks OutboxDispatcher.Lib.JsonValue OutboxDispatcher.Lib.Tables
open OutboxDispatcher.Schema OutboxDispatcher.Callbacks.Fields OutboxDispatcher.Callbacks.Parse
open OutboxDispatcher.Repo.Database OutboxDispatcher.Repo.Database.Db
  OutboxDispatcher.Repo.Statements
open OutboxDispatcher.Dispatch OutboxDispatcher.System

/-! ### The order of the rows -/

/-- A row comes before another one in the query. -/
def before (a b : DeliveryRow) : Bool :=
  a.availableAt < b.availableAt || (a.availableAt == b.availableAt && a.id < b.id)

def batch (db : Db) (now : Time) (n : ℤ) : List DeliveryRow := (dueRows db now).take n.toNat

theorem deliveryId_of_joined {db : Db} {r : DeliveryRow} {row : DueDeliveryRow}
    (h : joined db r = some row) : row.deliveryId = r.id := by
  obtain ⟨e, -, rfl⟩ := Option.map_eq_some_iff.mp h
  rfl

theorem mem_dueRows {db : Db} {now : Time} {r : DeliveryRow} :
    r ∈ dueRows db now ↔ r ∈ db.deliveries.rows ∧ isDue now r := by
  rw [dueRows, mem_orderBy, List.mem_filter]

theorem mem_of_mem_batch {db : Db} {now : Time} {n : ℤ} {r : DeliveryRow} (h : r ∈ batch db now n) :
    r ∈ db.deliveries.rows ∧ isDue now r := mem_dueRows.mp (List.mem_of_mem_take h)

/-- By `available_at`, and by `id` where that is the same. -/
theorem dueRows_sorted (db : Db) (now : Time) : (dueRows db now).Pairwise fun a b =>
    before a b := by
  have horder : dueRows db now = orderBy
      (fun a b => toLex (a.availableAt, a.id) ≤ toLex (b.availableAt, b.id))
      (db.deliveries.rows.filter (isDue now)) := by
    refine congrArg (orderBy · _) (funext₂ fun a b => ?_)
    rw [Bool.eq_iff_iff]
    simp [dueOrder, Prod.Lex.toLex_le_toLex]
  have hids :
      ((db.deliveries.rows.filter (isDue now)).map fun r => toLex (r.availableAt, r.id)).Nodup := by
    have hnodup :=
      (List.filter_sublist (p := isDue now).map DeliveryRow.id).nodup db.deliveries.nodup
    rw [List.Nodup, List.pairwise_map] at hnodup ⊢
    exact hnodup.imp fun h heq => h (congrArg (fun x => (ofLex x).2) heq)
  rw [horder]
  refine (orderBy_lt hids).imp fun h => ?_
  simpa [before, Prod.Lex.toLex_lt_toLex] using h

/-- The JSON columns of the row's event can be read. -/
def readable [Crates] (db : Db) (r : DeliveryRow) : Bool := (db.event? r.eventId).all decodes

theorem selectDue_iff [Crates] {n : ℤ} {db : Db} {now : Time} {rows : List DueDeliveryRow} :
    selectDue db now n = some rows ↔ 0 ≤ n ∧ (batch db now n).filterMap (joined db) = rows ∧
      ∀ r ∈ batch db now n, readable db r := by
  have hdec : (∀ row ∈ (batch db now n).filterMap (joined db), decodes row.event) ↔
      ∀ r ∈ batch db now n, readable db r := by
    simp only [readable, Option.all_eq_true]
    constructor
    · intro h r hr e he
      exact h _ (List.mem_filterMap.mpr ⟨r, hr, congrArg (Option.map _) he⟩)
    · intro h row hrow
      obtain ⟨r, hr, hjoin⟩ := List.mem_filterMap.mp hrow
      obtain ⟨e, he, rfl⟩ := Option.map_eq_some_iff.mp hjoin
      exact h r hr e he
  rw [selectDue_eq_some]
  refine and_congr_right fun _ => ?_
  constructor
  · rintro ⟨rfl, h⟩
    exact ⟨rfl, hdec.mp h⟩
  · rintro ⟨rfl, h⟩
    exact ⟨rfl, hdec.mpr h⟩

/-- The row is dead-lettered, its lock cleared and the reason written; nothing else of it changes.
-/
def DeadLettered (r r' : DeliveryRow) : Prop :=
  ∃ error, r' = { r with deadLetter := true, lockedUntil := none, lastError := some error }

theorem DeadLettered.deadLetter {r r' : DeliveryRow} (h : DeadLettered r r') :
    r'.deadLetter = true := by
  obtain ⟨error, rfl⟩ := h
  rfl

theorem deadLetter_of_isDue {now : Time} {r : DeliveryRow} (h : isDue now r) :
    r.deadLetter = false :=
  (isDue_iff_columns.mp h).2.2.1

theorem not_selected [Crates] {db : Db} {now : Time} {n : ℤ} {rows : List DueDeliveryRow}
    {r : DeliveryRow} {d : ℤ} (hr : db.deliveries.get d = some r) (hdead : r.deadLetter = true)
    (h : selectDue db now n = some rows) : ∀ row ∈ rows, row.deliveryId ≠ d := by
  rintro row hrow rfl
  obtain ⟨r', hr', hdue, e, -, -, rfl⟩ := mem_selectDue h hrow
  rw [Table.get_of_mem hr', Option.some.injEq] at hr
  have halive := deadLetter_of_isDue hdue
  rw [hr, hdead] at halive
  cases halive

section

variable [Crates] {config : DispatchConfig} {db db' : Db} {now : Time} {n : ℤ}

/-! ### The loop -/

/-- One turn of the loop: the delivery is pushed, or the row is dead-lettered. -/
def fetchRow (config : DispatchConfig) (now : Time) (acc : Db × List DueDelivery)
    (row : DueDeliveryRow) : Db × List DueDelivery :=
  match examineRow config row with
  | .ok due => (acc.1, acc.2 ++ [due])
  | .error reason => ((Stmt.deadLetterPoison reason).exec acc.1 now row.deliveryId, acc.2)

/-- The method, when each of its updates succeeds. -/
def fetchDueDeliveries (config : DispatchConfig) (db : Db) (now : Time) (batchSize : ℤ) :
    Option (Db × List DueDelivery) := do
  let rows ← selectDue db now batchSize
  return rows.foldl (fetchRow config now) (db, [])

variable {acc : Db × List DueDelivery} {row : DueDeliveryRow} {d : ℤ}

theorem fetchRow_ok {due : DueDelivery} (h : examineRow config row = .ok due) :
    fetchRow config now acc row = (acc.1, acc.2 ++ [due]) := by
  rw [fetchRow, h]

theorem fetchRow_error {reason : String} (h : examineRow config row = .error reason) :
    fetchRow config now acc row =
      ((Stmt.deadLetterPoison reason).exec acc.1 now row.deliveryId, acc.2) := by
  rw [fetchRow, h]

/-- In the system, where other work comes between the rows, a turn is the first step of the row's
task. -/
theorem step_examine {t : Task} (ht : t.phase = .fetched) : t.step config now db (.examine .ok) =
    some ((fetchRow config now (db, []) t.row).1,
      (fetchRow config now (db, []) t.row).2.head?.map .ready, []) := by
  unfold Task.step
  rw [ht]
  cases hex : examineRow config t.row with
  | ok due => rw [fetchRow_ok hex]; rfl
  | error reason => rw [fetchRow_error hex]; rfl

theorem get_fetchRow (h : row.deliveryId = d → ∃ due, examineRow config row = .ok due) :
    (fetchRow config now acc row).1.deliveries.get d = acc.1.deliveries.get d := by
  cases hex : examineRow config row with
  | ok due => rw [fetchRow_ok hex]
  | error reason =>
    have hne : d ≠ row.deliveryId := by
      intro heq
      obtain ⟨due, hok⟩ := h heq.symm
      rw [hex] at hok
      cases hok
    rw [fetchRow_error hex, Stmt.get_exec]
    cases acc.1.deliveries.get d <;> simp [hne]

theorem ids_fetchRow : (fetchRow config now acc row).1.deliveries.rows.map (·.id) =
    acc.1.deliveries.rows.map (·.id) := by
  cases hex : examineRow config row with
  | ok due => rw [fetchRow_ok hex]
  | error reason =>
    rw [fetchRow_error hex, Stmt.exec, rows_update, List.map_map]
    exact List.map_congr_left fun r _ => RowUpdate.id_set _ r

theorem events_fetchRow : (fetchRow config now acc row).1.events = acc.1.events := by
  cases hex : examineRow config row with
  | ok due => rw [fetchRow_ok hex]
  | error reason => rw [fetchRow_error hex, Stmt.exec, events_update]

/-- What is returned are the deliveries of the rows that pass, in their order. -/
theorem due_foldl (rows : List DueDeliveryRow) (acc : Db × List DueDelivery) :
    (rows.foldl (fetchRow config now) acc).2 =
      acc.2 ++ rows.filterMap fun row => (examineRow config row).toOption := by
  induction rows generalizing acc with
  | nil => simp
  | cons row rows ih =>
    rw [List.foldl_cons, ih]
    cases hex : examineRow config row with
    | ok due =>
      rw [fetchRow_ok hex, List.filterMap_cons_some (by rw [hex]; rfl), List.append_assoc]; rfl
    | error reason => rw [fetchRow_error hex, List.filterMap_cons_none (by rw [hex]; rfl)]

theorem get_foldl (rows : List DueDeliveryRow) (acc : Db × List DueDelivery)
    (h : ∀ row ∈ rows, row.deliveryId = d → ∃ due, examineRow config row = .ok due) :
    (rows.foldl (fetchRow config now) acc).1.deliveries.get d = acc.1.deliveries.get d := by
  induction rows generalizing acc with
  | nil => rfl
  | cons row rows ih =>
    rw [List.foldl_cons, ih _ fun row' h' => h row' (List.mem_cons_of_mem _ h'),
      get_fetchRow (h row List.mem_cons_self)]

/-- A row that does not pass is written by its turn, and by no other: its id comes once. -/
theorem get_foldl_error {rows : List DueDeliveryRow} (now : Time) (acc : Db × List DueDelivery)
    (hnodup : (rows.map (·.deliveryId)).Nodup) (hrow : row ∈ rows) {reason : String}
    (hex : examineRow config row = .error reason) :
    (rows.foldl (fetchRow config now) acc).1.deliveries.get row.deliveryId =
      (acc.1.deliveries.get row.deliveryId).map fun r =>
      (Stmt.deadLetterPoison reason).assign now r := by
  induction rows generalizing acc with
  | nil => cases hrow
  | cons first rows ih =>
    rw [List.map_cons, List.nodup_cons] at hnodup
    rw [List.foldl_cons]
    rcases List.mem_cons.mp hrow with rfl | hrest
    · rw [get_foldl _ _ fun row' h' heq => absurd (List.mem_map.mpr ⟨row', h', heq⟩) hnodup.1,
        fetchRow_error hex, Stmt.get_exec]
      simp [Stmt.guard]
    · rw [ih _ hnodup.2 hrest,
        get_fetchRow fun heq => absurd (List.mem_map.mpr ⟨row, hrest, heq.symm⟩) hnodup.1]

theorem ids_foldl (rows : List DueDeliveryRow) (acc : Db × List DueDelivery) :
    (rows.foldl (fetchRow config now) acc).1.deliveries.rows.map (·.id) =
    acc.1.deliveries.rows.map (·.id) := by
  induction rows generalizing acc with
  | nil => rfl
  | cons row rows ih => rw [List.foldl_cons, ih, ids_fetchRow]

theorem events_foldl (rows : List DueDeliveryRow) (acc : Db × List DueDelivery) :
    (rows.foldl (fetchRow config now) acc).1.events = acc.1.events := by
  induction rows generalizing acc with
  | nil => rfl
  | cons row rows ih => rw [List.foldl_cons, ih, events_fetchRow]

/-! ### One fetch -/

/-- The callback of the row is there and passes the validation. -/
def acceptable (config : DispatchConfig) (db : Db) (r : DeliveryRow) : Bool :=
  (db.event? r.eventId).any fun e =>
    (validateNamedCallback e.callbacks r.callbackName config).toOption.isSome

/-- The delivery of a row: its target is the row's own callback, validated. -/
structure Delivers (config : DispatchConfig) (db : Db) (r : DeliveryRow) (d : DueDelivery) :
    Prop where
  deliveryId : d.deliveryId = r.id
  eventId : d.eventId = r.eventId
  attempts : d.attempts = r.attempts
  name : d.target.name = r.callbackName
  target : ∃ e ∈ db.events.rows, e.eventId = r.eventId ∧
    validateNamedCallback e.callbacks r.callbackName config = .ok d.target

/-- The rows of the batch are split in two, and no other row changes. -/
structure Splits (config : DispatchConfig) (db db' : Db) (batch : List DeliveryRow)
    (due : List DueDelivery) : Prop where
  returned : List.Forall₂ (Delivers config db) (batch.filter (acceptable config db)) due
  deadLettered : ∀ r ∈ batch, acceptable config db r = false →
    ∃ r', db'.deliveries.get r.id = some r' ∧ DeadLettered r r'
  others : ∀ r ∈ db.deliveries.rows, (r ∈ batch → acceptable config db r) →
    db'.deliveries.get r.id = some r
  ids : db'.deliveries.rows.map (·.id) = db.deliveries.rows.map (·.id)
  events : db'.events = db.events

/-- A row of the table is joined to its event, whose callbacks decide. -/
theorem exists_joined (config : DispatchConfig) {r : DeliveryRow} (hr : r ∈ db.deliveries.rows) :
    ∃ e ∈ db.events.rows, e.eventId = r.eventId ∧
      joined db r = some ⟨r.id, r.eventId, r.attempts, r.callbackName, e⟩ ∧
      acceptable config db r =
      (validateNamedCallback e.callbacks r.callbackName config).toOption.isSome := by
  obtain ⟨e, he, hid⟩ := db.references r hr
  have hev : db.event? r.eventId = some e := event?_eq_some.mpr ⟨he, hid⟩
  exact ⟨e, he, hid, by rw [joined, hev]; rfl, by rw [acceptable, hev, Option.any_some]⟩

theorem examine_acceptable {r : DeliveryRow} (hr : r ∈ db.deliveries.rows)
    (hacc : acceptable config db r = true) :
    ∃ row due, joined db r = some row ∧ examineRow config row = .ok due ∧
    Delivers config db r due := by
  obtain ⟨e, he, hid, hjoin, heq⟩ := exists_joined config hr
  cases hv : validateNamedCallback e.callbacks r.callbackName config with
  | ok target =>
    have hname : target.name = r.callbackName := by
      obtain ⟨v, hfind, hv⟩ := validateNamedCallback_eq_ok.mp hv
      have hkey := List.find?_some hfind
      rw [strField_of_accept hv, decide_eq_true_eq, Option.some.injEq] at hkey
      exact hkey
    exact ⟨_, _, hjoin, by rw [examineRow, extractCallbackTarget, hv]; rfl,
      rfl, rfl, rfl, hname, e, he, hid, hv⟩
  | error err =>
    rw [heq, hv] at hacc
    cases hacc

theorem examine_poison {r : DeliveryRow} (hr : r ∈ db.deliveries.rows)
    (hbad : acceptable config db r = false) :
    ∃ row reason, joined db r = some row ∧ examineRow config row = .error reason := by
  obtain ⟨e, he, hid, hjoin, heq⟩ := exists_joined config hr
  cases hv : validateNamedCallback e.callbacks r.callbackName config with
  | ok target =>
    rw [heq, hv] at hbad
    cases hbad
  | error err =>
    exact ⟨_, _, hjoin, by rw [examineRow, extractCallbackTarget, hv]; rfl⟩

/-- A negative `LIMIT` raises, and so does an event that cannot be read. -/
theorem fetchDueDeliveries_eq_none (h : ¬(0 ≤ n ∧ ∀ r ∈ batch db now n, readable db r)) :
    fetchDueDeliveries config db now n = none := by
  have hselect : selectDue db now n = none := by
    refine Option.eq_none_iff_forall_ne_some.mpr fun rows hrows => h ?_
    obtain ⟨hn, -, hread⟩ := selectDue_iff.mp hrows
    exact ⟨hn, hread⟩
  rw [fetchDueDeliveries, hselect]
  rfl

/-- **One fetch.** -/
theorem splits_fetch (config : DispatchConfig) {db : Db} {now : Time} {n : ℤ} (hn : 0 ≤ n)
    (hread : ∀ r ∈ batch db now n, readable db r) :
    ∃ db' due, fetchDueDeliveries config db now n = some (db', due) ∧
      Splits config db db' (batch db now n) due := by
  have hselect := selectDue_iff.mpr ⟨hn, rfl, hread⟩
  refine ⟨_, _, by rw [fetchDueDeliveries, hselect]; rfl, ?_⟩
  constructor
  · rw [due_foldl, List.nil_append, List.filterMap_filterMap]
    refine forall₂_filterMap (fun r hr hacc => ?_) fun r hr hbad => ?_
    · obtain ⟨row, due, hjoin, hex, hdue⟩ := examine_acceptable (mem_of_mem_batch hr).1 hacc
      exact ⟨due, by rw [hjoin, Option.bind_some, hex]; rfl, hdue⟩
    · obtain ⟨row, reason, hjoin, hex⟩ := examine_poison (mem_of_mem_batch hr).1 hbad
      rw [hjoin, Option.bind_some, hex]
      rfl
  · intro r hr hbad
    have hmem := (mem_of_mem_batch hr).1
    obtain ⟨row, reason, hjoin, hex⟩ := examine_poison hmem hbad
    have hget := get_foldl_error now (db, []) (selectDue_nodup hselect)
      (List.mem_filterMap.mpr ⟨r, hr, hjoin⟩) hex
    rw [deliveryId_of_joined hjoin, Table.get_of_mem hmem, Option.map_some] at hget
    exact ⟨_, hget, _, rfl⟩
  · intro r hr hacc
    rw [get_foldl, Table.get_of_mem hr]
    intro row hrow hid
    obtain ⟨r', hr', hjoin⟩ := List.mem_filterMap.mp hrow
    have heq : r' = r :=
      Table.eq_of_key (mem_of_mem_batch hr').1 hr ((deliveryId_of_joined hjoin).symm.trans hid)
    subst heq
    obtain ⟨row', due, hjoin', hex, -⟩ := examine_acceptable hr (hacc hr')
    rw [hjoin, Option.some.injEq] at hjoin'
    exact ⟨due, hjoin' ▸ hex⟩
  · exact ids_foldl _ _
  · exact events_foldl _ _

/-! ### Fetch after fetch -/

/-- A number of fetches. What is done between them is left open, but nothing writes a row that one
of them has dead-lettered. -/
structure Fetches (config : DispatchConfig) (n : ℤ) (count : ℕ) where
  db : ℕ → Db
  now : ℕ → Time
  after : ℕ → Db
  due : ℕ → List DueDelivery
  fetch : ∀ k < count, fetchDueDeliveries config (db k) (now k) n = some (after k, due k)
  unwritten : ∀ j k, j < k → k < count → ∀ r ∈ batch (db j) (now j) n,
    acceptable config (db j) r = false → (db k).deliveries.get r.id = (after j).deliveries.get r.id

/-- The row `d` is due. Of the due rows ahead of it, fewer than the size of the batch are
acceptable, and the others are among `poison`. -/
def Behind (config : DispatchConfig) (db : Db) (now : Time) (n : ℤ) (poison : Finset ℤ) (d : ℤ) :
    Prop :=
  ∃ r ∈ dueRows db now, r.id = d ∧
    ((dueRows db now).countP fun r' => before r' r && acceptable config db r') < n ∧
    ∀ r' ∈ dueRows db now, before r' r → acceptable config db r' = false → r'.id ∈ poison

/-- A fetch that does not reach a row takes a bad one ahead of it. -/
theorem exists_poison {r : DeliveryRow} (hr : r ∈ dueRows db now) (hmiss : r ∉ batch db now n)
    (hahead : ((dueRows db now).countP fun r' => before r' r && acceptable config db r') < n) :
    ∃ r' ∈ batch db now n, before r' r ∧ acceptable config db r' = false := by
  obtain ⟨hbefore, hlength⟩ := take_of_notMem (dueRows_sorted db now) hr hmiss
  -- if all of them were good, they would be `n` good rows ahead of `r`
  by_contra hnone
  push Not at hnone
  have hgood : (batch db now n).countP (fun r' => before r' r && acceptable config db r') =
      n.toNat := by
    rw [← hlength]
    refine List.countP_eq_length.mpr fun r' hr' => ?_
    rw [hbefore r' hr', Bool.true_and]
    exact Bool.eq_true_of_not_eq_false (hnone r' hr' (hbefore r' hr'))
  have hle : (batch db now n).countP (fun r' => before r' r && acceptable config db r') ≤
      (dueRows db now).countP fun r' => before r' r && acceptable config db r' :=
    (List.take_sublist _ _).countP_le
  omega

theorem Fetches.splits {count k : ℕ} (f : Fetches config n count) (hk : k < count) :
    Splits config (f.db k) (f.after k) (batch (f.db k) (f.now k) n) (f.due k) := by
  obtain ⟨hn, hread⟩ : 0 ≤ n ∧ ∀ r ∈ batch (f.db k) (f.now k) n, readable (f.db k) r := by
    by_contra hneg
    have hfetch := f.fetch k hk
    rw [fetchDueDeliveries_eq_none hneg] at hfetch
    cases hfetch
  obtain ⟨db', due, hfetch, hsplit⟩ := splits_fetch config hn hread
  rw [f.fetch k hk, Option.some.injEq, Prod.mk.injEq] at hfetch
  obtain ⟨rfl, rfl⟩ := hfetch
  exact hsplit

/-- **A row is in one batch at most, once it is dead-lettered**, so bad rows hold another one back
for as many fetches as there are of them. -/
theorem reached {count : ℕ} (f : Fetches config n count) {poison : Finset ℤ} {d : ℤ}
    (hbehind : ∀ k < count, Behind config (f.db k) (f.now k) n poison d)
    (hcount : poison.card < count) : ∃ k < count, ∃ r ∈ batch (f.db k) (f.now k) n, r.id = d := by
  by_contra hnever
  push Not at hnever
  -- each of the fetches takes a bad row, and two of them take the same
  have htaken : ∀ k : Fin count, ∃ r ∈ batch (f.db k) (f.now k) n,
      r.id ∈ poison ∧ acceptable config (f.db k) r = false := by
    intro k
    obtain ⟨r, hr, hid, hahead, hpoison⟩ := hbehind k k.isLt
    obtain ⟨r', hr', hbefore, hbad⟩ := exists_poison hr (fun hm => hnever k k.isLt r hm hid) hahead
    exact ⟨r', hr', hpoison r' (List.mem_of_mem_take hr') hbefore hbad, hbad⟩
  choose row hbatch hpoison hbad using htaken
  obtain ⟨i, -, j, -, hne, heq⟩ := Finset.exists_ne_map_eq_of_card_lt_of_maps_to
    (s := Finset.univ) (t := poison) (by simpa using hcount) (f := fun k => (row k).id)
    fun k _ => hpoison k
  have hlt : ∀ i j : Fin count, i < j → (row i).id ≠ (row j).id := by
    intro i j hij hids
    obtain ⟨r', hget, hdead⟩ := (f.splits i.isLt).deadLettered (row i) (hbatch i) (hbad i)
    have hlater := f.unwritten i j hij j.isLt (row i) (hbatch i) (hbad i)
    obtain ⟨hmem, hdue⟩ := mem_of_mem_batch (hbatch j)
    rw [hget, hids, Table.get_of_mem hmem, Option.some.injEq] at hlater
    have halive := deadLetter_of_isDue hdue
    rw [hlater, hdead.deadLetter] at halive
    cases halive
  rcases lt_or_gt_of_ne hne with hij | hji
  · exact hlt i j hij heq
  · exact hlt j i hji heq.symm

/-! ### Fetches alone -/

/-- The row is not finished; it may be locked, or wait for its time. -/
def pending (r : DeliveryRow) : Bool :=
  r.dispatchedAt.isNone && r.processedAt.isNone && !r.deadLetter

/-- The database after `k` fetches at these times, with nothing between them. -/
def afterFetches (config : DispatchConfig) (n : ℤ) (times : ℕ → Time) (db : Db) : ℕ → Db
  | 0 => db
  | k + 1 =>
    ((fetchDueDeliveries config (afterFetches config n times db k) (times k) n).map (·.1)).getD
      (afterFetches config n times db k)

/-- Some bad rows have been dead-lettered, and nothing else has happened. -/
structure Thinned (config : DispatchConfig) (db db' : Db) : Prop where
  events : db'.events = db.events
  rows : ∀ r ∈ db'.deliveries.rows, r ∈ db.deliveries.rows ∨ r.deadLetter = true
  kept : ∀ r ∈ db.deliveries.rows, acceptable config db r → r ∈ db'.deliveries.rows

theorem acceptable_congr (h : db'.events = db.events) :
    acceptable config db' = acceptable config db := by
  funext r
  rw [acceptable, acceptable, event?, event?, h]

theorem Splits.thinned {l : List DeliveryRow} {due : List DueDelivery}
    (h : Splits config db db' l due) : Thinned config db db' := by
  refine ⟨h.events, fun r' hr' => ?_,
    fun r hr hacc => Table.mem_of_get (h.others r hr fun _ => hacc)⟩
  obtain ⟨r, hr, hid⟩ := List.mem_map.mp (h.ids ▸ List.mem_map_of_mem hr')
  have hget : db'.deliveries.get r.id = some r' := by rw [hid]; exact Table.get_of_mem hr'
  by_cases hkeep : r ∈ l → acceptable config db r
  · rw [h.others r hr hkeep, Option.some.injEq] at hget
    exact .inl (hget ▸ hr)
  · push Not at hkeep
    obtain ⟨r'', hget', hdead⟩ := h.deadLettered r hkeep.1 (Bool.eq_false_iff.mpr hkeep.2)
    rw [hget, Option.some.injEq] at hget'
    exact .inr (hget' ▸ hdead.deadLetter)

theorem Thinned.trans {db'' : Db} (h : Thinned config db db') (h' : Thinned config db' db'') :
    Thinned config db db'' := by
  refine ⟨h'.events.trans h.events, fun r hr => ?_, fun r hr hacc => ?_⟩
  · rcases h'.rows r hr with hr' | hdead
    · exact h.rows r hr'
    · exact .inr hdead
  · refine h'.kept r (h.kept r hr hacc) ?_
    rwa [acceptable_congr h.events]

theorem Thinned.mem_of_due (h : Thinned config db db') {r : DeliveryRow}
    (hr : r ∈ dueRows db' now) : r ∈ db.deliveries.rows ∧ pending r := by
  obtain ⟨hmem, hdue⟩ := mem_dueRows.mp hr
  have halive := deadLetter_of_isDue hdue
  rcases h.rows r hmem with hr' | hdead
  · obtain ⟨hd, hp, -⟩ := isDue_iff_columns.mp hdue
    exact ⟨hr', by simp [pending, hd, hp, halive]⟩
  · rw [halive] at hdead
    cases hdead

variable {times : ℕ → Time}

section

variable (hn : 0 ≤ n) (hread : ∀ r ∈ db.deliveries.rows, pending r → readable db r)
include hn hread

theorem Thinned.splits (h : Thinned config db db') (now : Time) :
    ∃ db'' due, fetchDueDeliveries config db' now n = some (db'', due) ∧
      Splits config db' db'' (batch db' now n) due := by
  refine splits_fetch config hn fun r hr => ?_
  obtain ⟨hmem, hpend⟩ := h.mem_of_due (List.mem_of_mem_take hr)
  rw [readable, event?, h.events]
  exact hread r hmem hpend

theorem thinned_afterFetches (config : DispatchConfig) (times : ℕ → Time) (k : ℕ) :
    Thinned config db (afterFetches config n times db k) := by
  induction k with
  | zero => exact ⟨rfl, fun r hr => .inl hr, fun r hr _ => hr⟩
  | succ k ih =>
    obtain ⟨db', due, hfetch, hsplit⟩ := ih.splits hn hread (times k)
    rw [afterFetches, hfetch]
    exact ih.trans hsplit.thinned

theorem afterFetches_succ (times : ℕ → Time) (k : ℕ) :
    ∃ due, fetchDueDeliveries config (afterFetches config n times db k) (times k) n =
        some (afterFetches config n times db (k + 1), due) ∧
      Splits config (afterFetches config n times db k) (afterFetches config n times db (k + 1))
        (batch (afterFetches config n times db k) (times k) n) due := by
  obtain ⟨db', due, hfetch, hsplit⟩ :=
    (thinned_afterFetches hn hread config times k).splits hn hread (times k)
  have hafter : afterFetches config n times db (k + 1) = db' := by rw [afterFetches, hfetch]; rfl
  exact ⟨due, hafter ▸ hfetch, hafter ▸ hsplit⟩

theorem get_afterFetches {r : DeliveryRow} (hdead : r.deadLetter = true) {j k : ℕ} (hjk : j ≤ k)
    (hr : (afterFetches config n times db j).deliveries.get r.id = some r) :
    (afterFetches config n times db k).deliveries.get r.id = some r := by
  induction k, hjk using Nat.le_induction with
  | base => exact hr
  | succ k _ ih =>
    obtain ⟨due, -, hsplit⟩ := afterFetches_succ hn hread times k
    refine hsplit.others r (Table.mem_of_get ih) fun hbatch => ?_
    rw [deadLetter_of_isDue (mem_of_mem_batch hbatch).2] at hdead
    cases hdead

/-- These fetches, with nothing between them. -/
def alone (config : DispatchConfig) (times : ℕ → Time) (count : ℕ) : Fetches config n count where
  db := afterFetches config n times db
  now := times
  after k := afterFetches config n times db (k + 1)
  due k := ((fetchDueDeliveries config (afterFetches config n times db k) (times k) n).map
    (·.2)).getD []
  fetch k _ := by
    obtain ⟨due, hfetch, -⟩ := afterFetches_succ hn hread times k
    rw [hfetch]
    rfl
  unwritten j k hjk _ r hr hbad := by
    obtain ⟨due, -, hsplit⟩ := afterFetches_succ hn hread times j
    obtain ⟨r', hget, hdead⟩ := hsplit.deadLettered r hr hbad
    have hid : r'.id = r.id := Table.key_of_get hget
    rw [hget]
    rw [← hid] at hget ⊢
    exact get_afterFetches hn hread hdead.deadLetter hjk hget

end

omit [Crates] in
theorem dueRows_nodup (db : Db) (now : Time) : (dueRows db now).Nodup :=
  (dueRows_sorted db now).imp fun {a b} h heq => by simp [before, heq] at h

theorem Thinned.countP_le (h : Thinned config db db') (now : Time) (p : DeliveryRow → Bool) :
    (dueRows db' now).countP p ≤ db.deliveries.rows.countP fun r => pending r && p r := by
  rw [List.countP_eq_length_filter, List.countP_eq_length_filter]
  refine (List.subperm_of_subset ((dueRows_nodup db' now).filter p) fun r hr => ?_).length_le
  obtain ⟨hdue, hp⟩ := List.mem_filter.mp hr
  obtain ⟨hmem, hpend⟩ := h.mem_of_due hdue
  exact List.mem_filter.mpr ⟨hmem, by rw [hpend, hp]; rfl⟩

/-- **Fetches alone** return a good row after one fetch for each bad row ahead of it, whether the
rows ahead are due at first or not. -/
theorem reached_alone {r : DeliveryRow} (hr : r ∈ db.deliveries.rows)
    (hacc : acceptable config db r)
    (hdue : ∀ k, isDue (times k) r) (hread : ∀ r' ∈ db.deliveries.rows, pending r' → readable db r')
    (hgood : (db.deliveries.rows.countP fun r' =>
      pending r' && (before r' r && acceptable config db r')) < n) :
    ∃ k ≤ db.deliveries.rows.countP fun r' =>
    pending r' && (before r' r && !acceptable config db r'),
      ∃ due, fetchDueDeliveries config (afterFetches config n times db k) (times k) n =
          some (afterFetches config n times db (k + 1), due) ∧
          ∃ d ∈ due, Delivers config db r d := by
  have hn : 0 ≤ n := by omega
  let bad := db.deliveries.rows.filter fun r' =>
    pending r' && (before r' r && !acceptable config db r')
  have hbehind : ∀ k, Behind config (afterFetches config n times db k) (times k) n
      (bad.map DeliveryRow.id).toFinset r.id := by
    intro k
    have hthin := thinned_afterFetches hn hread config times k
    refine ⟨r, mem_dueRows.mpr ⟨hthin.kept r hr hacc, hdue k⟩, rfl, ?_,
      fun r' hr' hbefore hbad => ?_⟩
    · have hle := hthin.countP_le (times k) fun r' => before r' r && acceptable config db r'
      rw [acceptable_congr hthin.events]
      omega
    · rw [acceptable_congr hthin.events] at hbad
      obtain ⟨hmem, hpend⟩ := hthin.mem_of_due hr'
      refine List.mem_toFinset.mpr (List.mem_map_of_mem (List.mem_filter.mpr ⟨hmem, ?_⟩))
      rw [hpend, hbefore, hbad]
      rfl
  have hcard : (bad.map DeliveryRow.id).toFinset.card ≤ db.deliveries.rows.countP fun r' =>
      pending r' && (before r' r && !acceptable config db r') := by
    refine (List.toFinset_card_le _).trans ?_
    rw [List.length_map, List.countP_eq_length_filter]
  obtain ⟨k, hk, r', hr', hid⟩ := reached (alone hn hread config times _) (fun k _ => hbehind k)
    (Nat.lt_succ_of_le hcard)
  have hthin := thinned_afterFetches hn hread config times k
  have heq : r' = r := Table.eq_of_key (mem_of_mem_batch hr').1 (hthin.kept r hr hacc) hid
  obtain ⟨due, hfetch, hsplit⟩ := afterFetches_succ hn hread times k
  have hacc' : acceptable config (afterFetches config n times db k) r := by
    rwa [acceptable_congr hthin.events]
  obtain ⟨d, hd, hdel⟩ := exists_of_forall₂ hsplit.returned (List.mem_filter.mpr ⟨heq ▸ hr', hacc'⟩)
  refine ⟨k, Nat.le_of_lt_succ hk, due, hfetch, d, hd, ?_⟩
  exact { hdel with target := hthin.events ▸ hdel.target }

/-! ### The guard -/

theorem Splits.returned_iff {l : List DeliveryRow} {due : List DueDelivery}
    (h : Splits config db db' l due)
    (hl : ∀ r ∈ l, r ∈ db.deliveries.rows ∧ r.deadLetter = false) {r : DeliveryRow} (hr : r ∈ l) :
    (∃ d ∈ due, d.deliveryId = r.id) ↔ ¬∃ r', db'.deliveries.get r.id = some r' ∧
    DeadLettered r r' := by
  cases hacc : acceptable config db r with
  | true =>
    obtain ⟨d, hd, hdel⟩ := exists_of_forall₂ h.returned (List.mem_filter.mpr ⟨hr, hacc⟩)
    refine iff_of_true ⟨d, hd, hdel.deliveryId⟩ ?_
    rintro ⟨r', hget, hdead⟩
    rw [h.others r (hl r hr).1 fun _ => hacc, Option.some.injEq] at hget
    have halive := (hl r hr).2
    rw [hget, hdead.deadLetter] at halive
    cases halive
  | false =>
    refine iff_of_false ?_ (not_not_intro (h.deadLettered r hr hacc))
    rintro ⟨d, hd, hid⟩
    have hflip : List.Forall₂ (flip (Delivers config db)) due _ := h.returned.flip
    obtain ⟨r', hr', hdel⟩ := exists_of_forall₂ hflip hd
    obtain ⟨hmem, hacc'⟩ := List.mem_filter.mp hr'
    have heq : r' = r := Table.eq_of_key (hl r' hmem).1 (hl r hr).1 (hdel.deliveryId.symm.trans hid)
    rw [heq, hacc] at hacc'
    cases hacc'

end

/-- Two due rows, one second apart: the callback of the first is gone, that of the second passes. -/
def samplePoison : Db where
  events := ⟨[{ sampleEvent 1 [sampleCallback "hook_a" []] with id := 1 }], by simp⟩
  deliveries :=
    ⟨[{ id := 1, eventId := 1, callbackName := "hook_b", completionMode := .managed,
        availableAt := 0, createdAt := 0 },
      { id := 2, eventId := 1, callbackName := "hook_a", completionMode := .managed,
        availableAt := 1000000000, createdAt := 0 }], by simp⟩
  deliverySeq := 3
  eventId_nodup := by simp
  callbacks_nonempty := by simp [sampleEvent, callbacksNonempty]
  key_nodup := by simp [DeliveryRow.key]
  references := by simp [sampleEvent]
  seq_fresh := by simp

/-- Two due rows whose callbacks pass. The payload of the first one's event has a number with 401
digits. -/
def unreadable : Db where
  events :=
    ⟨[{ sampleEvent 1 [sampleCallback "hook_a" []] with
        id := 1, payload := .int (10 ^ 200 * 10 ^ 200) },
      { sampleEvent 2 [sampleCallback "hook_a" []] with id := 2 }], by simp⟩
  deliveries :=
    ⟨[{ id := 1, eventId := 1, callbackName := "hook_a", completionMode := .managed,
        availableAt := 0, createdAt := 0 },
      { id := 2, eventId := 2, callbackName := "hook_a", completionMode := .managed,
        availableAt := 1000000000, createdAt := 0 }], by simp⟩
  deliverySeq := 3
  eventId_nodup := by simp [sampleEvent]
  callbacks_nonempty := by simp [sampleEvent, callbacksNonempty]
  key_nodup := by simp [DeliveryRow.key]
  references := by simp [sampleEvent]
  seq_fresh := by simp

end OutboxDispatcher.Repo.PoisonGuard
