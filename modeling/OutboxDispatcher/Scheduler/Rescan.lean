import OutboxDispatcher.Scheduler.Completeness

/-! # The rescan command

`rescan --since` turns the time into a cursor, the highest id among the events created before it,
and then makes passes until one finds nothing. The passes are one loop over the events above the
cursor: where a batch ends, the next one begins with the event after it, and an event that cannot be
read fails the command (`rescan_eq`). They are complete: they leave a row for every element of every
event above the cursor, and no other new ones (`rescan_spec`). The cursor is not: ids are drawn and
times are taken in different orders, so an event created later may be below it (`rescan_since_iff`).
-/

namespace OutboxDispatcher.Scheduler.Rescan

open OutboxDispatcher.Lib.JsonValue OutboxDispatcher.Lib.Tables OutboxDispatcher.Schema
open OutboxDispatcher.Callbacks.Fields OutboxDispatcher.Callbacks.Parse
open OutboxDispatcher.Repo.Database OutboxDispatcher.Repo.Database.Db
  OutboxDispatcher.Repo.Statements
open OutboxDispatcher.Scheduler.Pass OutboxDispatcher.Scheduler.Completeness
open OutboxDispatcher.System OutboxDispatcher.System.History

/-- `COALESCE(MAX(id), 0)` of the events created before the time. -/
def sinceCursor (db : Db) (sinceTs : Time) : ℤ :=
  ((db.events.rows.filter (·.createdAt < sinceTs)).map RawEvent.id).max?.getD 0

/-- `Command::Rescan`. -/
def rescanSince [Crates] (config : DispatchConfig) (now : Time) (fuel : ℕ) (db : Db)
    (sinceTs : Time) : Option (Db × ℤ) :=
  rescan config now fuel db (sinceCursor db sinceTs)

/-! ### The rows that scheduling adds -/

/-- From `db` to `db'` the elements of the events `es` have got their rows, and nothing else has. -/
structure Adds (db db' : Db) (es : List RawEvent) : Prop where
  events : db'.events = db.events
  hasRow : ∀ u name, db'.HasRow u name ↔
    db.HasRow u name ∨ ∃ e ∈ es, e.eventId = u ∧ name ∈ extractCallbackNames e.callbacks

theorem Adds.refl (db : Db) : Adds db db [] := ⟨rfl, by simp⟩

theorem Adds.trans {db db' db'' : Db} {es es' : List RawEvent} (h : Adds db db' es)
    (h' : Adds db' db'' es') : Adds db db'' (es ++ es') := by
  refine ⟨h'.events.trans h.events, fun u name => ?_⟩
  rw [h'.hasRow, h.hasRow, or_assoc]
  refine or_congr_right ?_
  simp only [List.mem_append, or_and_right, exists_or]

theorem Adds.congr {db db' : Db} {es es' : List RawEvent} (h : Adds db db' es)
    (heq : ∀ e, e ∈ es ↔ e ∈ es') : Adds db db' es' :=
  ⟨h.events, fun u name => by simp only [h.hasRow u name, heq]⟩

theorem Adds.fullyScheduled {db db' : Db} {es : List RawEvent} (h : Adds db db' es) {e : RawEvent}
    (he : e ∈ es) : FullyScheduled db' e :=
  fun _ hn => (h.hasRow _ _).mpr (.inr ⟨e, he, rfl, hn⟩)

theorem Adds.keeps {db db' : Db} {es : List RawEvent} (h : Adds db db' es) {e : RawEvent}
    (hf : FullyScheduled db e) : FullyScheduled db' e :=
  fun name hn => (h.hasRow _ _).mpr (.inl (hf name hn))

theorem exec_hasRow {w : Write} {db db' : Db} {now : Time} {u : Uuid}
    (h : w.exec db now u = some db') : db'.events = db.events ∧ ∀ v name, db'.HasRow v name ↔
      db.HasRow v name ∨ (v = u ∧ ∃ n ∈ w.rows, n.callbackName = name) := by
  rcases Write.exec_cases h with ⟨rfl, hnil⟩ | hi
  · simp [hnil]
  · exact ⟨hi.events, hi.hasRow⟩

/-- The writes of an event succeed, and their rows are there then. -/
theorem writes_hasRow (now : Time) {e : RawEvent} : ∀ (writes : List Write) {db : Db},
    e ∈ db.events.rows →
    ∃ db', writes.foldlM (fun db w => w.exec db now e.eventId) db = some db' ∧
    db'.events = db.events ∧
      ∀ u name, db'.HasRow u name ↔
        db.HasRow u name ∨ (u = e.eventId ∧ name ∈ (writes.flatMap Write.rows).map (·.callbackName))
  | [], db, _ => ⟨db, rfl, rfl, by simp⟩
  | w :: writes, db, he => by
    obtain ⟨db₁, hdb₁⟩ := w.exists_exec now he
    obtain ⟨hev, hrow⟩ := exec_hasRow hdb₁
    obtain ⟨db', hdb', hev', hrow'⟩ := writes_hasRow now writes (hev ▸ he)
    refine ⟨db', by simp [hdb₁, hdb'], hev'.trans hev, fun u name => ?_⟩
    rw [hrow', hrow, or_assoc, ← and_or_left]
    simp only [List.flatMap_cons, List.map_append, List.mem_append, List.mem_map]

/-! ### The events above a cursor -/

theorem le_of_fetchNewEvents_nil [Crates] {db : Db} {c n : ℤ} (hn : 0 < n)
    (h : fetchNewEvents db c n = some []) : ∀ e ∈ db.events.rows, e.id ≤ c := by
  intro e he
  by_contra hlt
  have hm : e ∈ above db c := mem_above.mpr ⟨he, not_le.mp hlt⟩
  obtain ⟨-, hnil, -⟩ := fetchNewEvents_eq_some.mp h
  rcases List.take_eq_nil_iff.mp hnil with h | h
  · omega
  · rw [h] at hm
    cases hm

theorem nodup_above (db : Db) (c : ℤ) :
    ((db.events.rows.filter (c < ·.id)).map RawEvent.id).Nodup :=
  (List.Sublist.map _ List.filter_sublist).nodup db.events.nodup

theorem length_above (db : Db) (c : ℤ) : (above db c).length ≤ db.events.rows.length :=
  length_orderBy.trans_le (List.length_filter_le _ _)

theorem above_last {db : Db} {c : ℤ} {n : ℕ} {last : RawEvent}
    (h : ((above db c).take n).getLast? = some last) : above db last.id = (above db c).drop n := by
  have hlt : c < last.id := (mem_above.mp (List.mem_of_mem_take (List.mem_of_getLast? h))).2
  have hfilter : db.events.rows.filter (last.id < ·.id) =
      (db.events.rows.filter (c < ·.id)).filter (last.id < ·.id) := by
    rw [List.filter_filter]
    refine List.filter_congr fun x _ => ?_
    by_cases hx : last.id < x.id
    · simp [hx, hlt.trans hx]
    · simp [hx]
  rw [above, hfilter, orderBy_filter (nodup_above db c)]
  exact filter_last (orderBy_lt (nodup_above db c)) h

section

variable [Crates] {config : DispatchConfig}

theorem scheduleEvent_spec (config : DispatchConfig) (now : Time) {db : Db} {e : RawEvent}
    (he : e ∈ db.events.rows) :
    ∃ db', scheduleEvent config now db e = some db' ∧ Adds db db' [e] := by
  obtain ⟨db', hdb', hev, hrow⟩ := writes_hasRow now (eventWrites config e) he
  refine ⟨db', hdb', hev, fun u name => ?_⟩
  rw [hrow, ← eventRows, mem_names_eventRows config]
  simp [eq_comm]

/-! ### Passes -/

section

/- What the writes of one event keep, a pass and a whole rescan keep. -/
variable (now : Time) {I : Db → Prop} (hI : ∀ (db db' : Db) (e : RawEvent), e ∈ db.events.rows →
  scheduleEvent config now db e = some db' → I db → I db')

include hI

theorem scheduleEvents_spec : ∀ (es : List RawEvent) {db : Db} (c : ℤ),
    (∀ e ∈ es, e ∈ db.events.rows) → I db →
    ∃ db', scheduleEvents config now db c es = some (db', (es.getLast?.map RawEvent.id).getD c) ∧
      Adds db db' es ∧ I db'
  | [], db, c, _, hi => ⟨db, rfl, .refl db, hi⟩
  | e :: es, db, c, hes, hi => by
    have he : e ∈ db.events.rows := hes e (List.mem_cons_self ..)
    obtain ⟨db₁, hdb₁, h₁⟩ := scheduleEvent_spec config now he
    obtain ⟨db', hdb', h', hi'⟩ := scheduleEvents_spec es e.id
      (fun e' he' => h₁.events ▸ hes e' (List.mem_cons_of_mem _ he')) (hI db db₁ e he hdb₁ hi)
    refine ⟨db', ?_, h₁.trans h', hi'⟩
    simp only [scheduleEvents, hdb₁, Option.bind_eq_bind, Option.bind_some, hdb',
      List.getLast?_cons]
    cases es.getLast? <;> rfl

/-- A pass leaves the rows of the events it has fetched, and the id of the last one. -/
theorem pass_spec {db db' : Db} {c c' : ℤ}
    (h : scheduleNewDeliveries config now db c = some (db', c'))
    (hi : I db) : ∃ es, fetchNewEvents db c config.scheduleBatchSize = some es ∧
      c' = (es.getLast?.map RawEvent.id).getD c ∧ Adds db db' es ∧ I db' := by
  simp only [scheduleNewDeliveries, Option.bind_eq_bind, Option.bind_eq_some_iff] at h
  obtain ⟨es, hes, h⟩ := h
  obtain ⟨db₁, hdb₁, h₁, hi₁⟩ := scheduleEvents_spec now hI es c
    (fun e he => (mem_fetchNewEvents hes he).1) hi
  obtain ⟨rfl, rfl⟩ := Prod.mk.inj (Option.some.inj (hdb₁.symm.trans h))
  exact ⟨es, hes, rfl, h₁, hi₁⟩

omit hI in
theorem scheduleEvents_append (es es' : List RawEvent) (db : Db) (c : ℤ) :
    scheduleEvents config now db c (es ++ es') =
      (scheduleEvents config now db c es).bind fun p => scheduleEvents config now p.1 p.2 es' := by
  induction es generalizing db c with
  | nil => rfl
  | cons e es ih =>
    simp only [List.cons_append, scheduleEvents, Option.bind_eq_bind, ih, Option.bind_assoc]

omit hI in
/-- **The batches are one loop** over the events above the cursor, if all of them can be read. -/
theorem rescan_eq (hb : 0 < config.scheduleBatchSize) (fuel : ℕ) {db : Db} {c : ℤ}
    (hf : (above db c).length < fuel) : rescan config now fuel db c =
      if ∀ e ∈ above db c, decodes e then scheduleEvents config now db c (above db c)
      else none := by
  induction fuel generalizing db c with
  | zero => exact absurd hf (Nat.not_lt_zero _)
  | succ fuel ih =>
    obtain ⟨n, hn⟩ : ∃ n, config.scheduleBatchSize.toNat = n := ⟨_, rfl⟩
    have hpos : 0 < n := by omega
    have hsplit : (∀ e ∈ above db c, decodes e) ↔
        (∀ e ∈ (above db c).take n, decodes e) ∧ ∀ e ∈ (above db c).drop n, decodes e := by
      rw [← List.forall_mem_append, List.take_append_drop]
    by_cases hdec : ∀ e ∈ (above db c).take n, decodes e
    swap
    · have hnone : fetchNewEvents db c config.scheduleBatchSize = none := by
        refine Option.eq_none_iff_forall_ne_some.mpr fun es hes => hdec ?_
        obtain ⟨-, heq, hall⟩ := fetchNewEvents_eq_some.mp hes
        rwa [hn.symm, heq]
      rw [if_neg fun hall => hdec (hsplit.mp hall).1, rescan, scheduleNewDeliveries, hnone]
      rfl
    have hfetch := fetchNewEvents_eq_some.mpr ⟨hb.le, rfl, hn.symm ▸ hdec⟩
    have hmem : ∀ e ∈ (above db c).take n, e ∈ db.events.rows := fun e he =>
      (mem_above.mp (List.mem_of_mem_take he)).1
    obtain ⟨db₁, hdb₁, hadds, -⟩ := @scheduleEvents_spec _ config now (fun _ => True) (by simp)
      ((above db c).take n) db c hmem trivial
    have hpass : scheduleNewDeliveries config now db c =
        some (db₁, (((above db c).take n).getLast?.map RawEvent.id).getD c) := by
      rw [scheduleNewDeliveries, hfetch, hn]
      exact hdb₁
    have hloop : scheduleEvents config now db c (above db c) = scheduleEvents config now db₁
        ((((above db c).take n).getLast?.map RawEvent.id).getD c) ((above db c).drop n) := by
      rw [← List.take_append_drop n (above db c), scheduleEvents_append, List.take_append_drop,
        hdb₁]
      rfl
    have hrest : (∀ e ∈ above db c, decodes e) ↔ ∀ e ∈ (above db c).drop n, decodes e :=
      hsplit.trans (and_iff_right hdec)
    simp only [hrest, hloop]
    rcases hlast : ((above db c).take n).getLast? with _ | last
    · -- an empty batch ends the loop
      have hnil : above db c = [] := by
        rcases List.take_eq_nil_iff.mp (List.getLast?_eq_none_iff.mp hlast) with h | h
        · omega
        · exact h
      simp [rescan, hpass, hnil, scheduleEvents]
    · have hlt : c < last.id := (mem_above.mp (List.mem_of_mem_take (List.mem_of_getLast? hlast))).2
      have habove : above db₁ last.id = (above db c).drop n := by
        rw [← above_last hlast, above, hadds.events]
        rfl
      have hfuel : (above db₁ last.id).length < fuel := by
        have hne : (above db c).length ≠ 0 := by
          intro h0
          rw [List.length_eq_zero_iff.mp h0, List.take_nil] at hlast
          cases hlast
        rw [habove, List.length_drop]
        omega
      simp [rescan, hpass, hlast, hlt.ne', ih hfuel, habove]

/-- **A rescan returns**, and the elements of the events above its cursor have got their rows. -/
theorem rescan_spec (hb : 0 < config.scheduleBatchSize) (fuel : ℕ) {db : Db} {c : ℤ} (hi : I db)
    (hf : (db.events.rows.filter (c < ·.id)).length < fuel) (hdec : ∀ e ∈ above db c, decodes e) :
    ∃ db' c', rescan config now fuel db c = some (db', c') ∧
      Adds db db' (db.events.rows.filter (c < ·.id)) ∧ I db' := by
  obtain ⟨db', hdb', hadds, hi'⟩ := scheduleEvents_spec now hI (above db c) c
    (fun e he => (mem_above.mp he).1) hi
  refine ⟨db', _, Eq.trans ?_ hdb', ?_, hi'⟩
  · rw [rescan_eq now hb fuel (length_orderBy.trans_lt hf), if_pos hdec]
  · exact hadds.congr fun e => mem_orderBy

end

/-! ### The cursor of the command -/

/-- The cursor starts at the event or above it: an event created before the time has a higher id, or
none is created before it and the id is not positive. -/
def Overtaken (db : Db) (sinceTs : Time) (e : RawEvent) : Prop :=
  (∃ e' ∈ db.events.rows, e'.createdAt < sinceTs ∧ e.id ≤ e'.id) ∨
    ((∀ e' ∈ db.events.rows, sinceTs ≤ e'.createdAt) ∧ e.id ≤ 0)

instance (db : Db) (sinceTs : Time) (e : RawEvent) : Decidable (Overtaken db sinceTs e) := by
  unfold Overtaken
  infer_instance

omit [Crates] in
theorem le_sinceCursor_iff {db : Db} {sinceTs : Time} {e : RawEvent} :
    e.id ≤ sinceCursor db sinceTs ↔ Overtaken db sinceTs e := by
  unfold sinceCursor Overtaken
  rcases hmax : ((db.events.rows.filter (·.createdAt < sinceTs)).map RawEvent.id).max? with _ | m
  all_goals rw [hmax]
  · have hnone : ∀ e' ∈ db.events.rows, sinceTs ≤ e'.createdAt := by
      simpa [List.max?_eq_none_iff, List.filter_eq_nil_iff] using hmax
    rw [Option.getD_none]
    constructor
    · exact fun hle => .inr ⟨hnone, hle⟩
    · rintro (⟨e', he', hlt, -⟩ | ⟨-, hle⟩)
      · exact absurd (hnone e' he') (not_le.mpr hlt)
      · exact hle
  · obtain ⟨hm, hle⟩ := List.max?_eq_some_iff.mp hmax
    obtain ⟨top, htop, rfl⟩ := List.mem_map.mp hm
    obtain ⟨htop, hbefore⟩ := List.mem_filter.mp htop
    rw [Option.getD_some]
    constructor
    · exact fun h => .inl ⟨top, htop, of_decide_eq_true hbefore, h⟩
    · rintro (⟨e', he', hlt, h⟩ | ⟨hnone, -⟩)
      · exact h.trans
          (hle e'.id (List.mem_map_of_mem (List.mem_filter.mpr ⟨he', decide_eq_true hlt⟩)))
      · exact absurd (hnone top htop) (not_le.mpr (of_decide_eq_true hbefore))

/-- **The command leaves a row for every element of every event created since**, if it succeeds, iff
the events among them that older ones have overtaken had all their rows before. It succeeds iff the
events above its cursor can be read. -/
theorem rescan_since_iff (now : Time) (db : Db) (sinceTs : Time) (hb : 0 < config.scheduleBatchSize)
    (fuel : ℕ) (hf : db.events.rows.length < fuel) :
    ((rescanSince config now fuel db sinceTs).isSome ↔ ∀ e ∈ above db (sinceCursor db sinceTs),
      decodes e) ∧
    ∀ db' c', rescanSince config now fuel db sinceTs = some (db', c') →
      ((∀ e ∈ db'.events.rows, sinceTs ≤ e.createdAt → FullyScheduled db' e) ↔
        ∀ e ∈ db.events.rows, sinceTs ≤ e.createdAt → Overtaken db sinceTs e →
        FullyScheduled db e) := by
  by_cases hdec : ∀ e ∈ above db (sinceCursor db sinceTs), decodes e
  swap
  · have hnone : rescanSince config now fuel db sinceTs = none := by
      rw [rescanSince, rescan_eq now hb fuel ((length_above db _).trans_lt hf), if_neg hdec]
    exact ⟨by simp [hnone, hdec], fun db' c' h => by simp [hnone] at h⟩
  obtain ⟨db₁, c₁, hr, hx, -⟩ := rescan_spec (I := fun _ => True) now (by simp) hb fuel
    (c := sinceCursor db sinceTs) trivial ((List.length_filter_le _ _).trans_lt hf) hdec
  refine ⟨iff_of_true (by rw [rescanSince, hr]; rfl) hdec, fun db' c' h => ?_⟩
  obtain ⟨rfl, rfl⟩ := Prod.mk.inj (Option.some.inj (hr.symm.trans h))
  rw [hx.events]
  refine forall₃_congr fun e he hs => ?_
  rcases lt_or_ge (sinceCursor db sinceTs) e.id with hlt | hle
  · have hnot : ¬Overtaken db sinceTs e :=
      fun ho => absurd (le_sinceCursor_iff.mpr ho) (not_le.mpr hlt)
    have hfull := hx.fullyScheduled (List.mem_filter.mpr ⟨he, by simpa using hlt⟩)
    simp [hnot, hfull]
  · have hover : Overtaken db sinceTs e := le_sinceCursor_iff.mp hle
    refine ⟨fun hfull _ name hn => ?_, fun h => hx.keeps (h hover)⟩
    rcases (hx.hasRow _ _).mp (hfull name hn) with hrow | ⟨e', he', hk, -⟩
    · exact hrow
    · -- the event itself is not above the cursor
      obtain ⟨hm, hgt⟩ := List.mem_filter.mp he'
      rw [event_eq hm he hk] at hgt
      exact absurd (of_decide_eq_true hgt) (not_lt.mpr hle)

end

/-- Two events without rows, created at the given times. -/
def twoEvents (first second : Time) : Db where
  events := ⟨[{ sampleEvent 1 [sampleCallback "hook_a" []] with id := 1, createdAt := first },
    { sampleEvent 2 [sampleCallback "hook_a" []] with id := 2, createdAt := second }], by simp⟩
  deliveries := .empty
  deliverySeq := 1
  eventId_nodup := by simp [sampleEvent]
  callbacks_nonempty := by simp [sampleEvent, callbacksNonempty]
  key_nodup := Db.empty.key_nodup
  references := by simp
  seq_fresh := Db.empty.seq_fresh

theorem rescan_since_in_order :
    ∃ db' c', @rescanSince sampleCrates {} 0 3 (twoEvents 5 10) 10 = some (db', c') ∧
      ∀ e ∈ db'.events.rows, 10 ≤ e.createdAt → FullyScheduled db' e := by
  obtain ⟨hsome, hiff⟩ :=
    @rescan_since_iff sampleCrates {} 0 (twoEvents 5 10) 10 (by decide) 3 (by decide)
  obtain ⟨⟨db', c'⟩, hr⟩ := Option.isSome_iff_exists.mp (hsome.mpr (by decide +kernel))
  exact ⟨db', c', hr, (hiff db' c' hr).mpr (by decide +kernel)⟩

/-- The event that was created last has the lower id, and the command that asks for it does nothing.
-/
theorem rescan_since_misses :
    ∃ db', @rescanSince sampleCrates {} 0 3 (twoEvents 10 5) 10 = some (db', 2) ∧
      ∃ e ∈ db'.events.rows, 10 ≤ e.createdAt ∧ ¬FullyScheduled db' e := by
  have hx : (@rescanSince sampleCrates {} 0 3 (twoEvents 10 5) 10).any
      (fun r => r.2 = 2 ∧ ∃ e ∈ r.1.events.rows, 10 ≤ e.createdAt ∧ ¬FullyScheduled r.1 e) := by
    decide +kernel
  obtain ⟨⟨db', c'⟩, hr, hp⟩ := (Option.any_eq_true _ _).mp hx
  obtain ⟨rfl, hmissed⟩ := of_decide_eq_true hp
  exact ⟨db', hr, hmissed⟩

end OutboxDispatcher.Scheduler.Rescan
