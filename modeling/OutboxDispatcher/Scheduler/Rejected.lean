import OutboxDispatcher.Callbacks.Agreement
import OutboxDispatcher.Callbacks.Messages
import OutboxDispatcher.Repo.Truncate
import OutboxDispatcher.Scheduler.Confluence

/-! # Rejected callbacks as dead letters

The rejections of an array are written after its targets, under the names of the elements. A row of
that name that a target has is in the way: `ON CONFLICT DO NOTHING` drops the dead letter, and what
was rejected is nowhere to be seen. So every rejection is shown exactly when no rejected element has
the name of a target (`rejected_shown_iff`), which excludes every duplicate. -/

namespace OutboxDispatcher.Scheduler.Rejected

open OutboxDispatcher.Lib.JsonValue OutboxDispatcher.Lib.Text OutboxDispatcher.Schema
open OutboxDispatcher.Callbacks.Fields OutboxDispatcher.Callbacks.Parse
open OutboxDispatcher.Callbacks.Agreement OutboxDispatcher.Callbacks.Messages
open OutboxDispatcher.Repo.Database OutboxDispatcher.Repo.Statements OutboxDispatcher.Repo.Truncate
open OutboxDispatcher.Scheduler.Pass OutboxDispatcher.Scheduler.Completeness
open OutboxDispatcher.Scheduler.Rescan OutboxDispatcher.Scheduler.Confluence
open OutboxDispatcher.System OutboxDispatcher.System.History

/-- The event has a dead letter under the name, with the error of a rejection. -/
def ShownDead (db : Db) (e : RawEvent) (name : String) : Prop :=
  ∃ r ∈ db.deliveries.rows, r.key = (e.eventId, name) ∧ r.deadLetter ∧
    r.lastError.any (startsWith · "invalid_callback:")

instance (db : Db) (e : RawEvent) (name : String) : Decidable (ShownDead db e name) :=
  inferInstanceAs (Decidable (∃ r ∈ db.deliveries.rows, r.key = (e.eventId, name) ∧ r.deadLetter ∧
    r.lastError.any (startsWith · "invalid_callback:")))

/-- A dead letter keeps the beginning of its reason. -/
theorem startsWith_invalidRow {name msg : String} (h : Says msg) :
    (invalidRow (name, msg)).lastError.any (startsWith · "invalid_callback:") :=
  startsWith_truncate (by decide) h

section

variable [Crates] {config : DispatchConfig} {e : RawEvent}

/-- No target has the name under which a whole array is rejected. -/
theorem root_not_valid {json : Json} {t : CallbackTarget}
    (h : t ∈ (parseCallbacks json config).valid) : t.name ≠ "<root>" := by
  obtain ⟨v, -, hv⟩ := exists_element h
  obtain ⟨-, hname, -⟩ := parseOneCallback_eq_ok.mp ((accept_eq_some 0).mp hv)
  intro hroot
  rw [hroot] at hname
  exact absurd hname (by decide)

/-- The rows of an event within the limit, unless its array is rejected as a whole. -/
theorem eventRows_eq (hpay : e.payloadSizeBytes ≤ config.payloadSizeLimitBytes)
    (hroot : ((parseCallbacks e.callbacks config).valid.isEmpty &&
      (parseCallbacks e.callbacks config).invalid.all (·.1 == "<root>")) = false) :
    eventRows config e = (parseCallbacks e.callbacks config).valid.map pendingRow ++
      (parseCallbacks e.callbacks config).invalid.map fun r => invalidRow (r.1, r.2.2) := by
  unfold eventRows eventWrites
  rw [if_neg (not_lt.mpr hpay)]
  dsimp only
  rw [hroot, if_neg Bool.false_ne_true]
  generalize parseCallbacks e.callbacks config = parsed
  obtain ⟨valid, invalid⟩ := parsed
  cases valid <;> cases invalid <;> simp [Write.rows, Function.comp_def]

/-- The first entry of the name of a target is the target's. -/
theorem live_of_target
      (hrows : eventRows config e = (parseCallbacks e.callbacks config).valid.map pendingRow ++
      (parseCallbacks e.callbacks config).invalid.map fun r => invalidRow (r.1, r.2.2))
    {t : CallbackTarget} (ht : t ∈ (parseCallbacks e.callbacks config).valid) {row : DeliveryRow}
    (hname : t.name = row.callbackName) (hx : AsExpected config e row) :
    row.deadLetter = false := by
  obtain ⟨n, hfind, hcol⟩ := hx
  have hsome : (((parseCallbacks e.callbacks config).valid.map pendingRow).find?
      (·.callbackName = row.callbackName)).isSome :=
    List.find?_isSome.mpr ⟨_, List.mem_map_of_mem ht, decide_eq_true hname⟩
  obtain ⟨n', hn'⟩ := Option.isSome_iff_exists.mp hsome
  rw [hrows, List.find?_append, hn', Option.some_or, Option.some.injEq] at hfind
  obtain ⟨t', -, ht'⟩ := List.mem_map.mp (List.mem_of_find?_eq_some hn')
  have hdead : row.deadLetter = n.deadLetter := congrArg (·.2.2.2.1) hcol
  rw [hdead, ← hfind, ← ht']
  rfl

/-- The first entry of another name is that of a rejection. -/
theorem dead_of_apart
      (hrows : eventRows config e = (parseCallbacks e.callbacks config).valid.map pendingRow ++
      (parseCallbacks e.callbacks config).invalid.map fun r => invalidRow (r.1, r.2.2))
    {row : DeliveryRow}
    (hapart : row.callbackName ∉ (parseCallbacks e.callbacks config).valid.map (·.name))
    (hx : AsExpected config e row) :
    row.deadLetter ∧ row.lastError.any (startsWith · "invalid_callback:") := by
  obtain ⟨n, hfind, hcol⟩ := hx
  have hname : n.callbackName = row.callbackName := by simpa using List.find?_some hfind
  have hn := List.mem_of_find?_eq_some hfind
  rw [hrows, List.mem_append] at hn
  rcases hn with hn | hn
  · obtain ⟨t, ht, rfl⟩ := List.mem_map.mp hn
    exact absurd (List.mem_map.mpr ⟨t, ht, hname⟩) hapart
  · obtain ⟨r, hr, rfl⟩ := List.mem_map.mp hn
    have hdead : row.deadLetter = true := congrArg (·.2.2.2.1) hcol
    have herr : row.lastError = (invalidRow (r.1, r.2.2)).lastError := congrArg (·.2.2.2.2) hcol
    exact ⟨hdead, herr ▸ startsWith_invalidRow (says_invalid hr)⟩

variable {db db' : Db} {c c' : ℤ} {now : Time}

/-- The event is among those of the pass that has moved the cursor past it. -/
theorem mem_batch {es : List RawEvent}
    (hes : fetchNewEvents db c config.scheduleBatchSize = some es)
    (he : e ∈ db.events.rows) (hlt : c < e.id) (hle : e.id ≤ (es.getLast?.map RawEvent.id).getD c) :
    e ∈ es := by
  rcases hlast : es.getLast? with _ | last
  · rw [hlast] at hle
    exact absurd hle (not_le.mpr hlt)
  · rw [hlast] at hle
    exact (fetchNewEvents_spec hes).2 e he hlt last (List.mem_of_getLast? hlast) hle

/-- **Every rejected callback of an event is shown as a dead letter** by the pass that schedules the
event, if and only if no rejected element has the name of a target. -/
theorem rejected_shown_iff (he : e ∈ db.events.rows)
    (hpay : e.payloadSizeBytes ≤ config.payloadSizeLimitBytes)
    (hnone : ∀ r ∈ db.deliveries.rows, r.eventId ≠ e.eventId)
    (h : scheduleNewDeliveries config now db c = some (db', c')) (hlt : c < e.id)
    (hle : e.id ≤ c') :
    (∀ r ∈ (parseCallbacks e.callbacks config).invalid, r.1 ≠ "<root>" → ShownDead db' e r.1) ↔
      ∀ r ∈ (parseCallbacks e.callbacks config).invalid,
        r.1 ∉ (parseCallbacks e.callbacks config).valid.map (·.name) := by
  obtain ⟨es, hes, rfl, hadds, -, hexp⟩ := pass_spec now rowsExpected_scheduleEvent h
    ⟨he, fun r hr hk => absurd hk (hnone r hr)⟩
  have hfull : FullyScheduled db' e := hadds.fullyScheduled (mem_batch hes he hlt hle)
  cases hroot : (parseCallbacks e.callbacks config).valid.isEmpty &&
      (parseCallbacks e.callbacks config).invalid.all (·.1 == "<root>") with
  | true =>
    -- the array is rejected as a whole, under no name
    rw [Bool.and_eq_true, List.isEmpty_iff, List.all_eq_true] at hroot
    refine ⟨fun _ r _ => by simp [hroot.1], fun _ r hr hne => ?_⟩
    exact absurd (beq_iff_eq.mp (hroot.2 r hr)) hne
  | false =>
    have hrows := eventRows_eq hpay hroot
    constructor
    · intro hshown r hr hname
      obtain ⟨t, ht, hn⟩ := List.mem_map.mp hname
      obtain ⟨row, hrow, hk, hdead, -⟩ := hshown r hr (hn ▸ root_not_valid ht)
      obtain ⟨hu, hrn⟩ := Prod.mk.inj hk
      have hlive := live_of_target hrows ht (hn.trans hrn.symm) (hexp row hrow hu)
      exact Bool.false_ne_true (hlive.symm.trans hdead)
    · intro hapart r hr _
      have hmem : r.1 ∈ (eventRows config e).map (·.callbackName) := by
        rw [hrows, List.map_append]
        exact List.mem_append_right _ (List.mem_map.mpr ⟨_, List.mem_map_of_mem hr, rfl⟩)
      obtain ⟨row, hrow, hk⟩ := hfull r.1 ((mem_names_eventRows config).mp hmem)
      obtain ⟨hu, hrn⟩ := Prod.mk.inj hk
      exact ⟨row, hrow, hk, dead_of_apart hrows (hrn ▸ hapart r hr) (hexp row hrow hu)⟩

end

def unscheduledEvent (first : Json) (rest : List Json) : Db where
  events := ⟨[{ sampleEvent 1 (first :: rest) with id := 1 }], by simp⟩
  deliveries := .empty
  deliverySeq := 1
  eventId_nodup := by simp
  callbacks_nonempty := by simp [sampleEvent, callbacksNonempty]
  key_nodup := Db.empty.key_nodup
  references := by simp
  seq_fresh := Db.empty.seq_fresh

/-- A target and a number: the number is shown, under its position. -/
theorem rejected_shown_number :
    ∃ db' c',
    @scheduleNewDeliveries sampleCrates {} 0
      (unscheduledEvent (sampleCallback "hook_a" []) [.int 3]) 0 =
        some (db', c') ∧
      ∃ e ∈ (unscheduledEvent (sampleCallback "hook_a" []) [.int 3]).events.rows,
        (@parseCallbacks sampleCrates e.callbacks {}).invalid.map (·.1) = ["[1]"] ∧
        ∀ r ∈ (@parseCallbacks sampleCrates e.callbacks {}).invalid, r.1 ≠ "<root>" →
        ShownDead db' e r.1 := by
  have hpass : (@scheduleNewDeliveries sampleCrates {} 0
      (unscheduledEvent (sampleCallback "hook_a" []) [.int 3]) 0).any (·.2 = 1) := by decide +kernel
  obtain ⟨⟨db', c'⟩, hpass, hc⟩ := (Option.any_eq_true _ _).mp hpass
  obtain rfl : c' = 1 := of_decide_eq_true hc
  refine ⟨db', 1, hpass, _, List.mem_singleton.mpr rfl, by decide +kernel, ?_⟩
  exact (@rejected_shown_iff sampleCrates {} _ _ _ _ _ _ (List.mem_singleton.mpr rfl)
    (by decide +kernel)
    (by simp [unscheduledEvent]) hpass (by decide) (by decide)).mpr (by decide +kernel)

/-- The second element of the name is rejected as a duplicate, and the row of the name is the
pending one of the first. -/
theorem duplicate_not_shown :
    ∃ db' c', @scheduleNewDeliveries sampleCrates {} 0
        (unscheduledEvent (sampleCallback "hook_a" []) [sampleCallback "hook_a" []]) 0 =
          some (db', c') ∧
      ∃ e ∈ (unscheduledEvent (sampleCallback "hook_a" [])
        [sampleCallback "hook_a" []]).events.rows,
        0 < e.id ∧ e.id ≤ c' ∧ e.payloadSizeBytes ≤ ({} : DispatchConfig).payloadSizeLimitBytes ∧
        ∃ r ∈ (@parseCallbacks sampleCrates e.callbacks {}).invalid, r.1 ≠ "<root>" ∧
        ¬ShownDead db' e r.1 := by
  have hx : (@scheduleNewDeliveries sampleCrates {} 0
      (unscheduledEvent (sampleCallback "hook_a" []) [sampleCallback "hook_a" []]) 0).any (fun p =>
        ∃ e ∈ (unscheduledEvent (sampleCallback "hook_a" [])
          [sampleCallback "hook_a" []]).events.rows,
          0 < e.id ∧ e.id ≤ p.2 ∧ e.payloadSizeBytes ≤ ({} : DispatchConfig).payloadSizeLimitBytes ∧
          ∃ r ∈ (@parseCallbacks sampleCrates e.callbacks {}).invalid, r.1 ≠ "<root>" ∧
            ¬ShownDead p.1 e r.1) := by
    decide +kernel
  obtain ⟨⟨db', c'⟩, hpass, hp⟩ := (Option.any_eq_true _ _).mp hx
  exact ⟨db', c', hpass, of_decide_eq_true hp⟩

end OutboxDispatcher.Scheduler.Rejected
