import OutboxDispatcher.Admin
import OutboxDispatcher.Observability

/-! # The statistics and the lists

An operator sees the same deliveries in two ways: as numbers in `/v1/stats`, in all and by callback,
and one by one in the lists, page by page. They come from four statements with conditions of their
own, three of them joined with the events and one grouped by callback. On one and the same database
they agree: the totals are the sums over the callbacks, and each number is that of the items a
client lists who follows the cursors, whatever its limit. -/

namespace OutboxDispatcher.Admin.Totals

open OutboxDispatcher.Lib.Boards OutboxDispatcher.Lib.Tables OutboxDispatcher.Schema
open OutboxDispatcher.Repo.Database OutboxDispatcher.Repo.Database.Db
  OutboxDispatcher.Repo.Statements
open OutboxDispatcher.Observability OutboxDispatcher.Admin

/-! ### The totals -/

theorem map_fst_withEvents (db : Db) : (withEvents db).map Prod.fst = db.deliveries.rows := by
  unfold withEvents
  rw [List.map_filterMap]
  refine (List.filterMap_congr fun r hr => ?_).trans List.filterMap_some
  obtain ⟨e, he⟩ := db.references r hr
  rw [event?_eq_some.mpr he]
  rfl

theorem countP_withEvents (db : Db) (p : DeliveryRow → Bool) :
    (withEvents db).countP (p ·.1) = db.deliveries.rows.countP p := by
  rw [← map_fst_withEvents, List.countP_map]
  rfl

/-! ### The counts by callback -/

theorem sum_groupByCallback {column : CallbackStats → ℤ} {p : DeliveryRow → Bool}
    (h : ∀ rows, column (callbackStats rows) = rows.countP p) (rows : List DeliveryRow) :
    ((groupByCallback rows).rows.map fun entry => column entry.2).sum = rows.countP p := by
  have hsum := sum_countP_groups (·.callbackName) p (List.nodup_dedup (rows.map (·.callbackName)))
    fun r hr => List.mem_dedup.mpr (List.mem_map_of_mem hr)
  have hcast := map_list_sum (Nat.castAddMonoidHom ℤ)
    ((rows.map (·.callbackName)).dedup.map fun name =>
      (rows.filter (·.callbackName = name)).countP p)
  rw [hsum] at hcast
  refine Eq.trans ?_ hcast.symm
  unfold groupByCallback
  rw [List.map_map, List.map_map]
  exact congrArg List.sum (List.map_congr_left fun name _ => h _)

theorem countP_pending (rows : List DeliveryRow) : rows.countP pending =
    (rows.countP fun r => r.completionMode = .managed && pending r) +
      rows.countP fun r => r.completionMode = .external && pending r := by
  induction rows with
  | nil => rfl
  | cons r rows ih =>
    simp only [List.countP_cons, ih]
    cases r.completionMode <;> cases pending r <;> simp <;> omega

/-! ### The lists -/

/-- A client that meets the same table all along lists every row that matches. -/
theorem length_of_listsOnce {ι : Type} {m : Moment} {condition : Time → DeliveryRow → Bool}
    {callbackName : Option String} {deliveryId : ι → ℤ} {pages : List (List ι)}
    (h : ListsOnce (fun _ => m) condition callbackName deliveryId pages) : pages.flatten.length =
      m.db.deliveries.rows.countP fun r =>
      condition m.now r && callbackName.all (r.callbackName = ·) := by
  have hshown : (pages.flatten.map deliveryId).Nodup := h.decreasing.imp fun hlt => ne_of_gt hlt
  have hrows : ((m.db.deliveries.rows.filter fun r =>
      condition m.now r && callbackName.all (r.callbackName = ·)).map (·.id)).Nodup :=
    (List.filter_sublist.map _).nodup m.db.deliveries.nodup
  have hmatch : ∀ id, Matches m.db (condition m.now) callbackName id ↔
      id ∈ (m.db.deliveries.rows.filter fun r =>
        condition m.now r && callbackName.all (r.callbackName = ·)).map (·.id) := by
    intro id
    simp only [Matches, List.mem_map, List.mem_filter, Table.get_eq_some_iff, Bool.and_eq_true,
      Option.all_eq_true, Option.mem_def, decide_eq_true_eq]
    constructor
    · rintro ⟨r, ⟨hr, hid⟩, hc⟩
      exact ⟨r, ⟨hr, hc⟩, hid⟩
    · rintro ⟨r, ⟨hr, hc⟩, hid⟩
      exact ⟨r, ⟨hr, hid⟩, hc⟩
  have hperm := (List.perm_ext_iff_of_nodup hshown hrows).mpr fun id => by
    rw [← hmatch]
    constructor
    · intro hid
      obtain ⟨x, hx, rfl⟩ := List.mem_map.mp hid
      obtain ⟨items, hitems, hx⟩ := List.mem_flatten.mp hx
      obtain ⟨i, hi⟩ := List.mem_iff_getElem?.mp hitems
      exact h.sound i items hi x hx
    · intro hid
      exact List.count_pos_iff.mp (by rw [h.once id fun _ _ => hid]; exact Nat.one_pos)
  rw [List.countP_eq_length_filter, ← List.length_map (f := deliveryId), hperm.length_eq,
    List.length_map]

/-- The statistics when nothing happens between their statements. -/
def statsAt (m : Moment) : Stats := fetchStats m.db m.db m.db m.now

theorem all_none {p : DeliveryRow → Bool} {rows : List DeliveryRow} :
    (rows.countP fun r => p r && (none : Option String).all (r.callbackName = ·)) =
    rows.countP p := by
  simp

theorem count_statsAt (m : Moment) (name : String) {column : CallbackStats → ℤ}
    {p : DeliveryRow → Bool}
    (h : ∀ rows, column (callbackStats rows) = rows.countP p) : (statsAt m).count name column =
      m.db.deliveries.rows.countP fun r => p r && (some name).all (r.callbackName = ·) := by
  rw [statsAt, count_fetchStats _ _ _ _ _ (h []), h, List.countP_filter]
  rfl

theorem follow_deadLetters (m : Moment) (limit : ℤ) (callbackName : Option String) :
    ∃ pages, (∀ fuel > 2 ^ 64, followDeadLetters (fun _ => m) callbackName limit fuel =
      some pages) ∧ pages.flatten.length =
        m.db.deliveries.rows.countP fun r =>
        r.deadLetter && callbackName.all (r.callbackName = ·) := by
  obtain ⟨pages, hpages, hlists⟩ := listsOnce_deadLetters (fun _ => m) callbackName limit
  exact ⟨pages, hpages, length_of_listsOnce hlists⟩

theorem follow_externalPending (m : Moment) (limit : ℤ) (callbackName : Option String) :
    ∃ pages, (∀ fuel > 2 ^ 64, followExternalPending (fun _ => m) callbackName none limit fuel =
      some pages) ∧ pages.flatten.length =
        m.db.deliveries.rows.countP fun r =>
        externalPending r && callbackName.all (r.callbackName = ·) := by
  obtain ⟨pages, hpages, hlists⟩ :=
    @listsOnce_externalPending (fun _ => m) callbackName limit none none rfl
  refine ⟨pages, hpages, (length_of_listsOnce hlists).trans (congrArg (List.countP · _) ?_)⟩
  funext r
  simp [olderThan]

/-- **The statistics and the lists agree.** At one moment the dead letters and the deliveries that
wait for their completion are as many in the statistics, in all and for every callback, as on the
pages of their lists, whatever the limit; and the totals are the sums over the callbacks. -/
theorem stats_agree_with_lists (m : Moment) (limit : ℤ) :
    (∃ pages, (∀ fuel > 2 ^ 64, followDeadLetters (fun _ => m) none limit fuel = some pages) ∧
      (pages.flatten.length : ℤ) = (statsAt m).deliveriesDeadLettered) ∧
    (∀ name, ∃ pages, (∀ fuel > 2 ^ 64, followDeadLetters (fun _ => m) (some name) limit fuel =
      some pages) ∧ (pages.flatten.length : ℤ) = (statsAt m).count name (·.deadLettered)) ∧
    (∃ pages, (∀ fuel > 2 ^ 64, followExternalPending (fun _ => m) none none limit fuel =
      some pages) ∧ (pages.flatten.length : ℤ) = (statsAt m).deliveriesExternalPending) ∧
    (∀ name, ∃ pages,
      (∀ fuel > 2 ^ 64, followExternalPending (fun _ => m) (some name) none limit fuel =
        some pages) ∧
      (pages.flatten.length : ℤ) = (statsAt m).count name (·.externalPending)) ∧
    (statsAt m).deliveriesDeadLettered = ((statsAt m).callbacks.rows.map (·.2.deadLettered)).sum ∧
    (statsAt m).deliveriesExternalPending =
      ((statsAt m).callbacks.rows.map (·.2.externalPending)).sum ∧
    (statsAt m).deliveriesPending =
      ((statsAt m).callbacks.rows.map fun entry =>
      entry.2.pendingManaged + entry.2.pendingExternal).sum := by
  have htotal : ∀ p : DeliveryRow → Bool, (((withEvents m.db).countP (p ·.1) : ℕ) : ℤ) =
      m.db.deliveries.rows.countP p := fun p => congrArg Nat.cast (countP_withEvents m.db p)
  refine ⟨?_, fun name => ?_, ?_, fun name => ?_, ?_, ?_, ?_⟩
  · obtain ⟨pages, hpages, hlen⟩ := follow_deadLetters m limit none
    exact ⟨pages, hpages, by rw [hlen, all_none]; exact (htotal _).symm⟩
  · obtain ⟨pages, hpages, hlen⟩ := follow_deadLetters m limit (some name)
    exact ⟨pages, hpages, by rw [hlen, count_statsAt m name fun _ => rfl]⟩
  · obtain ⟨pages, hpages, hlen⟩ := follow_externalPending m limit none
    exact ⟨pages, hpages, by rw [hlen, all_none]; exact (htotal _).symm⟩
  · obtain ⟨pages, hpages, hlen⟩ := follow_externalPending m limit (some name)
    exact ⟨pages, hpages, by rw [hlen, count_statsAt m name fun _ => rfl]⟩
  · exact (htotal _).trans (sum_groupByCallback (fun _ => rfl) _).symm
  · exact (htotal _).trans (sum_groupByCallback (fun _ => rfl) _).symm
  · have hmodes :
        ∀ rows, (callbackStats rows).pendingManaged + (callbackStats rows).pendingExternal =
        rows.countP pending := fun rows => by rw [countP_pending, Nat.cast_add]; rfl
    exact (htotal pending).trans
      (@sum_groupByCallback (fun c => c.pendingManaged + c.pendingExternal) _ hmodes _).symm

end OutboxDispatcher.Admin.Totals
