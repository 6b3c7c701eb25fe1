import Mathlib.Data.List.Dedup
import OutboxDispatcher.Lib.Boards
import OutboxDispatcher.Lib.Floats
import OutboxDispatcher.Repo.Statements

/-! # The queue gauges

`fetch_stats` counts the rows of the delivery table for each callback. Every interval
`run_stats_sampler` publishes the counts as gauges, and sets the gauges of the callbacks it
published the last time and does not find any more to zero. `tick` is one round of its loop, as far
as it sets gauges: the histogram of ages it records next to them is left out, and no other part of
the dispatcher sets them.

The gauges of a callback, read together, are a board in the sense of `Lib/Boards`, and a round is a
tick of that board (`board_tick`). So the gauges of every callback that was ever published show the
counts of the last statistics, 0 for a callback without rows. -/

namespace OutboxDispatcher.Observability

open OutboxDispatcher.Lib.Boards OutboxDispatcher.Lib.Floats OutboxDispatcher.Lib.Tables
open OutboxDispatcher.Schema OutboxDispatcher.Repo.Database OutboxDispatcher.Repo.Statements

/-! ### The statistics -/

structure CallbackStats where
  pendingManaged : ℤ
  pendingExternal : ℤ
  externalPending : ℤ
  deadLettered : ℤ
  deriving DecidableEq

/-- The counts by callback are a `HashMap`: a table in the order of its iteration. -/
structure Stats where
  eventsTotal : ℤ
  deliveriesPending : ℤ
  deliveriesExternalPending : ℤ
  deliveriesDeadLettered : ℤ
  /-- `None` if nothing is pending. -/
  oldestPendingAgeSeconds : Option F64
  callbacks : Snapshot String CallbackStats

/-- Neither dispatched nor processed nor dead-lettered. -/
def pending (r : DeliveryRow) : Bool :=
  r.dispatchedAt.isNone && r.processedAt.isNone && !r.deadLetter

def callbackStats (rows : List DeliveryRow) : CallbackStats where
  pendingManaged := rows.countP fun r => r.completionMode = .managed && pending r
  pendingExternal := rows.countP fun r => r.completionMode = .external && pending r
  externalPending := rows.countP externalPending
  deadLettered := rows.countP (·.deadLetter)

/-- `GROUP BY callback_name`. -/
def groupByCallback (rows : List DeliveryRow) : Snapshot String CallbackStats where
  rows := (rows.map (·.callbackName)).dedup.map fun name =>
    (name, callbackStats (rows.filter (·.callbackName = name)))
  nodup := by
    rw [List.map_map]
    show ((rows.map (·.callbackName)).dedup.map id).Nodup
    rw [List.map_id]
    exact List.nodup_dedup _

/-- `now() - MIN(e.created_at)` over the pending rows, in seconds. -/
def oldestPendingAge (db : Db) (now : Time) : Option F64 :=
  (((withEvents db).filter (pending ·.1)).map (·.2.createdAt)).min?.map fun t =>
    .num (((now - t : ℤ) : ℚ) / 10 ^ 9)

/-- The three statements are no transaction, so each sees a database of its own. -/
def fetchStats (counted totalled grouped : Db) (now : Time) : Stats where
  eventsTotal := counted.events.rows.length
  deliveriesPending := (withEvents totalled).countP (pending ·.1)
  deliveriesExternalPending := (withEvents totalled).countP (externalPending ·.1)
  deliveriesDeadLettered := (withEvents totalled).countP (·.1.deadLetter)
  oldestPendingAgeSeconds := oldestPendingAge totalled now
  callbacks := groupByCallback grouped.deliveries.rows

/-! ### The gauges -/

/-- The gauges with their labels. -/
inductive Series
  | lagSeconds
  | pendingDeliveries (callback : String) (mode : CompletionMode)
  | externalPendingDeliveries (callback : String)
  deriving DecidableEq

/-- The values that are exported; a gauge that was never set has none. -/
abbrev Gauges := Series → Option F64

/-- `metrics::gauge!(…).set(value)`. -/
def set (g : Gauges) (series : Series) (value : F64) : Gauges :=
  Function.update g series (some value)

def setLagSeconds (g : Gauges) (value : F64) : Gauges := set g .lagSeconds value

def setPendingDeliveries (g : Gauges) (callback : String) (mode : CompletionMode) (value : F64) :
    Gauges :=
  set g (.pendingDeliveries callback mode) value

def setExternalPendingDeliveries (g : Gauges) (callback : String) (value : F64) : Gauges :=
  set g (.externalPendingDeliveries callback) value

/-- The body of the loop over the callbacks. -/
def publish (g : Gauges) (entry : String × CallbackStats) : Gauges :=
  let g := setPendingDeliveries g entry.1 .managed (ofInt entry.2.pendingManaged)
  let g := setPendingDeliveries g entry.1 .external (ofInt entry.2.pendingExternal)
  setExternalPendingDeliveries g entry.1 (ofInt entry.2.externalPending)

/-- The body of the loop over the stale callbacks. -/
def zeroOut (g : Gauges) (stale : String) : Gauges :=
  let g := setPendingDeliveries g stale .managed (.num 0)
  let g := setPendingDeliveries g stale .external (.num 0)
  setExternalPendingDeliveries g stale (.num 0)

/-- The task between two rounds, with the gauges of the process. -/
structure Sampler where
  lastCallbacks : List String
  gauges : Gauges

/-- One round of `run_stats_sampler`; `none` when `fetch_stats` fails. -/
def tick (s : Sampler) : Option Stats → Sampler
  | none => s
  | some stats =>
    let gauges := setLagSeconds s.gauges (stats.oldestPendingAgeSeconds.getD .nan)
    let gauges := stats.callbacks.rows.foldl publish gauges
    let nowSeen := stats.callbacks.rows.map Prod.fst
    { lastCallbacks := nowSeen
      gauges := (s.lastCallbacks.filter (· ∉ nowSeen)).foldl zeroOut gauges }

def run (gauges : Gauges) (ticks : List (Option Stats)) : Sampler := ticks.foldl tick ⟨[], gauges⟩

/-! ### The gauges as a board -/

/-- What the three gauges of a callback show. -/
abbrev Reading := Option F64 × Option F64 × Option F64

def reading (g : Gauges) (name : String) : Reading :=
  (g (.pendingDeliveries name .managed), g (.pendingDeliveries name .external),
    g (.externalPendingDeliveries name))

def CallbackStats.reading (c : CallbackStats) : Reading :=
  (some (ofInt c.pendingManaged), some (ofInt c.pendingExternal), some (ofInt c.externalPending))

def zeroReading : Reading := (some (.num 0), some (.num 0), some (.num 0))

def Stats.snapshot (stats : Stats) : Snapshot String Reading where
  rows := stats.callbacks.rows.map fun entry => (entry.1, entry.2.reading)
  nodup := by
    rw [List.map_map]
    exact stats.callbacks.nodup

def Sampler.board (s : Sampler) : Board String Reading := ⟨reading s.gauges, s.lastCallbacks⟩

theorem reading_setLagSeconds (g : Gauges) (v : F64) (name : String) :
    reading (setLagSeconds g v) name = reading g name := by
  simp [reading, setLagSeconds, set]

theorem reading_publish (g : Gauges) (entry : String × CallbackStats) (name : String) :
    reading (publish g entry) name = if name = entry.1 then entry.2.reading
    else reading g name := by
  unfold reading publish setPendingDeliveries setExternalPendingDeliveries set
  split_ifs with h
  · simp [h, CallbackStats.reading]
  · simp [h]

theorem reading_zeroOut (g : Gauges) (stale name : String) :
    reading (zeroOut g stale) name = if name = stale then zeroReading else reading g name := by
  unfold reading zeroOut setPendingDeliveries setExternalPendingDeliveries set
  split_ifs with h
  · simp [h, zeroReading]
  · simp [h]

/-- The loop over the callbacks, in whatever order they come. -/
theorem reading_foldl_publish (t : Snapshot String CallbackStats) (g : Gauges) (name : String) :
    reading (t.rows.foldl publish g) name =
      ((t.get name).map fun entry => entry.2.reading).getD (reading g name) := by
  obtain ⟨rows, nodup⟩ := t
  unfold Table.get
  dsimp only
  induction rows generalizing g with
  | nil => rfl
  | cons entry rows ih =>
    rw [List.map_cons, List.nodup_cons] at nodup
    rw [List.foldl_cons, ih _ nodup.2, reading_publish, List.find?_cons]
    by_cases h : name = entry.1
    · -- no later entry has the name
      have hlater : rows.find? (·.1 = name) = none := by
        refine List.find?_eq_none.mpr fun e he => ?_
        intro heq
        exact nodup.1 (h ▸ List.mem_map.mpr ⟨e, he, of_decide_eq_true heq⟩)
      rw [hlater, if_pos h, decide_eq_true h.symm]
      rfl
    · rw [if_neg h, decide_eq_false (Ne.symm h)]

/-- The loop over the stale callbacks, in whatever order they come. -/
theorem reading_foldl_zeroOut (stale : List String) (g : Gauges) (name : String) :
    reading (stale.foldl zeroOut g) name = if name ∈ stale then zeroReading
    else reading g name := by
  induction stale generalizing g with
  | nil => simp
  | cons s stale ih =>
    rw [List.foldl_cons, ih, reading_zeroOut]
    by_cases h : name = s
    · simp [h]
    · simp [h]

theorem get_snapshot (stats : Stats) (name : String) : stats.snapshot.get name =
    (stats.callbacks.get name).map fun entry => (entry.1, entry.2.reading) := by
  unfold Table.get Stats.snapshot
  rw [List.find?_map]
  rfl

/-- **A round is a tick of the board.** -/
theorem board_tick (s : Sampler) (o : Option Stats) :
    (tick s o).board = s.board.tick zeroReading (o.map Stats.snapshot) := by
  cases o with
  | none => rfl
  | some stats =>
    have hlast : stats.snapshot.rows.map Prod.fst = stats.callbacks.rows.map Prod.fst := by
      unfold Stats.snapshot
      rw [List.map_map]
      rfl
    have hshown :
        reading (tick s (some stats)).gauges =
        (s.board.refresh zeroReading stats.snapshot).shown := by
      funext name
      unfold tick Board.refresh Snapshot.value
      dsimp only
      rw [reading_foldl_zeroOut, reading_foldl_publish, reading_setLagSeconds, get_snapshot]
      have hseen : name ∈ stats.callbacks.rows.map Prod.fst ↔ (stats.callbacks.get name).isSome :=
        isSome_get_iff.symm
      rcases hget : stats.callbacks.get name with _ | entry
      · rw [hget] at hseen
        have hnot : name ∉ stats.callbacks.rows.map Prod.fst := fun h => by simpa using hseen.mp h
        simp [hnot, Sampler.board]
      · rw [hget] at hseen
        have hmem : name ∈ stats.callbacks.rows.map Prod.fst := hseen.mpr rfl
        simp [hmem]
    show Board.mk _ _ = Board.mk _ _
    rw [hshown, hlast]
    rfl

theorem board_run (g : Gauges) (ticks : List (Option Stats)) : (run g ticks).board =
    (ticks.map (Option.map Stats.snapshot)).foldl (Board.tick zeroReading) ⟨reading g, []⟩ := by
  induction ticks using List.reverseRecOn with
  | nil => rfl
  | append_singleton ticks o ih =>
    rw [run, List.foldl_append, List.map_append, List.foldl_append, ← ih]
    exact board_tick _ o

/-! ### What is shown -/

def Appeared (ticks : List (Option Stats)) (name : String) : Prop :=
  ∃ stats, some stats ∈ ticks ∧ (stats.callbacks.get name).isSome

/-- A count for a callback, 0 when it is not in the statistics. -/
def Stats.count (stats : Stats) (name : String) (column : CallbackStats → ℤ) : ℤ :=
  ((stats.callbacks.get name).map fun entry => column entry.2).getD 0

/-- The gauge is set to the count: exactly, as long as an `f64` has it. -/
def Shows (gauge : Option F64) (n : ℤ) : Prop :=
  gauge = some (ofInt n) ∧ (n.natAbs ≤ 2 ^ 53 → gauge = some (.num n))

structure ShowsCounts (g : Gauges) (stats : Stats) (name : String) : Prop where
  managed : Shows (g (.pendingDeliveries name .managed)) (stats.count name (·.pendingManaged))
  external : Shows (g (.pendingDeliveries name .external)) (stats.count name (·.pendingExternal))
  awaiting : Shows (g (.externalPendingDeliveries name)) (stats.count name (·.externalPending))

theorem shows_ofInt {gauge : Option F64} {n : ℤ} (h : gauge = some (ofInt n)) : Shows gauge n :=
  ⟨h, fun hn => by rw [h, ofInt_eq_num hn]⟩

theorem value_snapshot (stats : Stats) (name : String) : stats.snapshot.value zeroReading name =
    (some (ofInt (stats.count name (·.pendingManaged))),
      some (ofInt (stats.count name (·.pendingExternal))),
      some (ofInt (stats.count name (·.externalPending)))) := by
  have hzero : ofInt 0 = .num 0 := ofInt_eq_num (Nat.zero_le _)
  unfold Snapshot.value Stats.count
  rw [get_snapshot]
  rcases stats.callbacks.get name with _ | entry
  · show zeroReading = (some (ofInt 0), some (ofInt 0), some (ofInt 0))
    rw [hzero]
    rfl
  · rfl

theorem showsCounts_run (g : Gauges) {ticks : List (Option Stats)} {stats : Stats} {name : String}
    (h : Appeared (ticks ++ [some stats]) name) :
    ShowsCounts (run g (ticks ++ [some stats])).gauges stats name := by
  have hlisted : Listed (ticks.map (Option.map Stats.snapshot) ++ [some stats.snapshot]) name := by
    obtain ⟨stats', hmem, hsome⟩ := h
    refine ⟨stats'.snapshot, ?_, by rw [get_snapshot, Option.isSome_map]; exact hsome⟩
    have hmap := List.mem_map_of_mem (f := Option.map Stats.snapshot) hmem
    rwa [List.map_append] at hmap
  have hboard := congrArg (Board.shown · name) (board_run g (ticks ++ [some stats]))
  rw [List.map_append] at hboard
  have hshown := hboard.trans (shown_run (reading g) hlisted)
  rw [value_snapshot] at hshown
  exact ⟨shows_ofInt (congrArg (·.1) hshown), shows_ofInt (congrArg (·.2.1) hshown),
    shows_ofInt (congrArg (·.2.2) hshown)⟩

/-- **No phantom backlog.** Whatever the rounds before were, and whichever of them failed, after a
successful round the gauges of every callback that ever appeared show the counts of its statistics,
0 when the callback is not among them. A failed round changes no gauge. -/
theorem gauges_show_counts (g : Gauges) (ticks : List (Option Stats)) :
    (∀ (stats : Stats) (name : String), Appeared (ticks ++ [some stats]) name →
      ShowsCounts (run g (ticks ++ [some stats])).gauges stats name) ∧
    (run g (ticks ++ [none])).gauges = (run g ticks).gauges := by
  refine ⟨fun stats name h => showsCounts_run g h, ?_⟩
  rw [run, List.foldl_append]
  rfl

/-! ### From the table to the gauges -/

/-- A count of the statistics is a count of rows of the table, also for a callback without rows. -/
theorem count_fetchStats (counted totalled grouped : Db) (now : Time) (name : String)
    {column : CallbackStats → ℤ} (hzero : column (callbackStats []) = 0) :
    (fetchStats counted totalled grouped now).count name column =
      column (callbackStats (grouped.deliveries.rows.filter (·.callbackName = name))) := by
  unfold Stats.count fetchStats
  dsimp only
  generalize grouped.deliveries.rows = rows
  by_cases h : name ∈ rows.map (·.callbackName)
  · have hget : (groupByCallback rows).get name =
        some (name, callbackStats (rows.filter (·.callbackName = name))) :=
      Table.get_eq_some_iff.mpr ⟨List.mem_map.mpr ⟨name, List.mem_dedup.mpr h, rfl⟩, rfl⟩
    rw [hget]
    rfl
  · have hnone : (groupByCallback rows).get name = none := by
      refine List.find?_eq_none.mpr fun entry he heq => ?_
      obtain ⟨name', hname', rfl⟩ := List.mem_map.mp he
      exact h (of_decide_eq_true heq ▸ List.mem_dedup.mp hname')
    have hempty : rows.filter (·.callbackName = name) = [] := by
      refine List.filter_eq_nil_iff.mpr fun r hr heq => ?_
      exact h (List.mem_map.mpr ⟨r, hr, of_decide_eq_true heq⟩)
    rw [hnone, hempty, hzero]
    rfl

/-- **The gauges count rows.** After a round that reads the table, the gauges of a callback that
ever appeared show how many of its rows wait for the dispatcher, by mode, and how many for the
receiver. -/
theorem gauges_show_rows (g : Gauges) {ticks : List (Option Stats)} {counted totalled grouped : Db}
    {now : Time} {name : String}
    (h : Appeared (ticks ++ [some (fetchStats counted totalled grouped now)]) name) :
    let gauges := (run g (ticks ++ [some (fetchStats counted totalled grouped now)])).gauges
    let rows := grouped.deliveries.rows.filter (·.callbackName = name)
    Shows (gauges (.pendingDeliveries name .managed))
        (rows.countP fun r => r.completionMode = .managed && pending r) ∧
      Shows (gauges (.pendingDeliveries name .external))
        (rows.countP fun r => r.completionMode = .external && pending r) ∧
      Shows (gauges (.externalPendingDeliveries name)) (rows.countP externalPending) := by
  have hshow := showsCounts_run g h
  have hcount := @count_fetchStats counted totalled grouped now name
  refine ⟨?_, ?_, ?_⟩
  · have hmanaged := hshow.managed
    rwa [hcount rfl] at hmanaged
  · have hexternal := hshow.external
    rwa [hcount rfl] at hexternal
  · have hawaiting := hshow.awaiting
    rwa [hcount rfl] at hawaiting

end OutboxDispatcher.Observability
