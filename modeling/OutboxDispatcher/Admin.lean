import OutboxDispatcher.Lib.Floats
import OutboxDispatcher.Lib.Paging
import OutboxDispatcher.Repo.Statements

/-! # The lists of the admin API

`/v1/dead-letters` and `/v1/external-pending` return the rows that satisfy a condition page by page.
The handler clamps the limit, the statement takes the rows below the cursor, and the handler names
the last id of a full page as the next cursor.

A client follows the cursors. Each of its requests meets the table as it is then, in the meantime
anything may have happened to it. A request returns a page in the sense of `Lib/Paging`
(`isPage_respond`), and so a walk lists no id twice, lists every id that matched all along, and
ends. -/

namespace OutboxDispatcher.Admin

open OutboxDispatcher.Lib.Floats OutboxDispatcher.Lib.Paging OutboxDispatcher.Lib.Tables
open OutboxDispatcher.Schema OutboxDispatcher.Repo.Database OutboxDispatcher.Repo.Database.Db
open OutboxDispatcher.Repo

/-! ### The handlers -/

/-- What both handlers return. -/
structure ListResponse (ι : Type) where
  items : List ι
  nextCursor : Option ℤ

/-- `q.limit.clamp(1, 200)`. -/
def clampLimit (limit : ℤ) : ℤ := max 1 (min limit 200)

def respond {ι : Type} (limit : ℤ) (deliveryId : ι → ℤ) (items : List ι) : ListResponse ι where
  items := items
  nextCursor := if items.length = limit then items.getLast?.map deliveryId else none

structure DeadLettersQuery where
  callbackName : Option String
  before : Option ℤ
  limit : ℤ := 50

/-- The response, or `none` for an internal error. -/
def listDeadLetters (db : Db) (q : DeadLettersQuery) : Option (ListResponse DeadLetterRow) :=
  let limit := clampLimit q.limit
  let page : PageParams := { limit, cursor := q.before, callbackName := q.callbackName }
  (Statements.listDeadLetters db page).map (respond limit (·.deliveryId))

structure ExternalPendingQuery where
  callbackName : Option String
  olderThanSecs : Option F64
  before : Option ℤ
  limit : ℤ := 50

/-- The response, or `none` for an internal error and for a panic of the handler. -/
def listExternalPending (db : Db) (now : Time) (q : ExternalPendingQuery) :
    Option (ListResponse ExternalPendingRow) := do
  let limit := clampLimit q.limit
  let page : PageParams := { limit, cursor := q.before, callbackName := q.callbackName }
  let olderThan ← q.olderThanSecs.mapM durationFromSecs
  let items ← Statements.listExternalPending db now page olderThan
  return respond limit (·.deliveryId) items

/-! ### A page of the table -/

section Page

variable {ι : Type} {db : Db} {condition : DeliveryRow → Bool}
  {item : DeliveryRow → RawEvent → Option ι}

theorem clampLimit_pos (limit : ℤ) : 1 ≤ clampLimit limit := le_max_left _ _

theorem mem_withEvents {p : DeliveryRow × RawEvent} : p ∈ Statements.withEvents db ↔
    p.1 ∈ db.deliveries.rows ∧ db.event? p.1.eventId = some p.2 := by
  unfold Statements.withEvents
  rw [List.mem_filterMap]
  constructor
  · rintro ⟨r, hr, hp⟩
    obtain ⟨e, he, rfl⟩ := Option.map_eq_some_iff.mp hp
    exact ⟨hr, he⟩
  · rintro ⟨hr, he⟩
    exact ⟨p.1, hr, by rw [he]; rfl⟩

theorem withEvents_nodup (db : Db) : ((Statements.withEvents db).map (·.1.id)).Nodup := by
  refine nodup_filterMap (fun r p hp => ?_) db.deliveries.nodup
  obtain ⟨e, -, rfl⟩ := Option.map_eq_some_iff.mp hp
  rfl

/-- The rows that satisfy the condition and have the callback that is asked for. -/
def candidates (db : Db) (condition : DeliveryRow → Bool) (callbackName : Option String) :
    List (DeliveryRow × RawEvent) :=
  (Statements.withEvents db).filter fun p =>
  condition p.1 && callbackName.all (p.1.callbackName = ·)

theorem mem_candidates {callbackName : Option String} {p : DeliveryRow × RawEvent} :
    p ∈ candidates db condition callbackName ↔ p.1 ∈ db.deliveries.rows ∧
      db.event? p.1.eventId = some p.2 ∧ condition p.1 ∧ ∀ name ∈ callbackName,
      p.1.callbackName = name := by
  unfold candidates
  rw [List.mem_filter, mem_withEvents, Bool.and_eq_true, Option.all_eq_true, and_assoc]
  simp only [Option.mem_def, decide_eq_true_eq]

theorem candidates_nodup (db : Db) (condition : DeliveryRow → Bool) (callbackName : Option String) :
    ((candidates db condition callbackName).map (·.1.id)).Nodup :=
  (List.filter_sublist.map _).nodup (withEvents_nodup db)

theorem listPage_eq (n : ℕ) (cursor : Option ℤ) (callbackName : Option String) :
    Statements.listPage db { limit := n, cursor, callbackName } condition item =
      (page (·.1.id) n cursor (candidates db condition callbackName)).mapM fun p =>
      item p.1 p.2 := by
  have hfilter :
      ((Statements.withEvents db).filter fun p => condition p.1 && cursor.all (p.1.id < ·) &&
      callbackName.all (p.1.callbackName = ·)) =
        (candidates db condition callbackName).filter fun p => cursor.all (p.1.id < ·) := by
    rw [candidates, List.filter_filter]
    refine List.filter_congr fun p _ => ?_
    rw [Bool.and_comm (condition p.1), Bool.and_assoc]
  unfold Statements.listPage Statements.limit page
  rw [if_neg (by simp), hfilter]
  rfl

def Lists (db : Db) (condition : DeliveryRow → Bool) (item : DeliveryRow → RawEvent → Option ι)
    (callbackName : Option String) (x : ι) : Prop :=
  ∃ p, p ∈ candidates db condition callbackName ∧ item p.1 p.2 = some x

/-- **A request returns a page.** -/
theorem isPage_respond {deliveryId : ι → ℤ} (hitem : ∀ r e, condition r → ∃ x, item r e = some x)
    (hid : ∀ r e x, item r e = some x → deliveryId x = r.id) (limit : ℤ) (cursor : Option ℤ)
    (callbackName : Option String) :
    ∃ items, Statements.listPage db { limit := clampLimit limit, cursor, callbackName } condition
      item = some items ∧ IsPage deliveryId (Lists db condition item callbackName) cursor items
        (respond (clampLimit limit) deliveryId items).nextCursor := by
  obtain ⟨n, hn, hpos⟩ : ∃ n : ℕ, clampLimit limit = n ∧ 0 < n := by
    have h := clampLimit_pos limit
    exact ⟨(clampLimit limit).toNat, by omega, by omega⟩
  have hpage := @isPage_page _ _ _ _ n cursor _ (candidates_nodup db condition callbackName) hpos
  obtain ⟨items, hmapM, hshown⟩ :=
    mapM_forall₂ (f := fun p : DeliveryRow × RawEvent => item p.1 p.2)
    fun p hp => hitem p.1 p.2 (mem_candidates.mp (hpage.sound p hp).1).2.2.1
  have hkey : ∀ (p : DeliveryRow × RawEvent) x, item p.1 p.2 = some x → deliveryId x = p.1.id :=
    fun p x h => hid p.1 p.2 x h
  refine ⟨items, by rw [hn, listPage_eq, hmapM], ?_⟩
  have hnext : (respond (clampLimit limit) deliveryId items).nextCursor =
      nextCursor deliveryId n items := by
    simp [respond, nextCursor, hn]
  rw [hnext, nextCursor_of_forall₂ hshown hkey]
  exact hpage.forall₂ hshown hkey fun p x y hx hy => Option.some.inj (hx.symm.trans hy)

end Page

/-! ### Following the cursors -/

/-- What a request meets: the tables, with ids of type `bigint`, and `now()`. -/
structure Moment where
  db : Db
  now : Time
  bigint : ∀ r ∈ db.deliveries.rows, -2 ^ 63 ≤ r.id ∧ r.id < 2 ^ 63

/-- The first request is without a cursor, each later one has the cursor of the response before; the
items of the pages up to the first response without a cursor. -/
def follow {ι : Type} (request : ℕ → Option ℤ → Option (ListResponse ι)) (fuel : ℕ) :
    Option (List (List ι)) :=
  walk (fun i before => (request i before).map fun response =>
    (response.items, response.nextCursor)) fuel 0 none

/-- A delivery is to be listed: there is a row with its id that satisfies the condition and has the
callback that is asked for. -/
def Matches (db : Db) (condition : DeliveryRow → Bool) (callbackName : Option String) (id : ℤ) :
    Prop :=
  ∃ r, db.deliveries.get id = some r ∧ condition r ∧ ∀ name ∈ callbackName, r.callbackName = name

/-- Nothing is listed twice or lost: the ids decrease, what is on a page matched when the page was
read, and an id that matched at every request is there once. -/
structure ListsOnce {ι : Type} (moments : ℕ → Moment) (condition : Time → DeliveryRow → Bool)
    (callbackName : Option String) (deliveryId : ι → ℤ) (pages : List (List ι)) : Prop where
  decreasing : (pages.flatten.map deliveryId).Pairwise (· > ·)
  sound : ∀ i items, pages[i]? = some items → ∀ x ∈ items,
    Matches (moments i).db (condition (moments i).now) callbackName (deliveryId x)
  once : ∀ id,
    (∀ i < pages.length, Matches (moments i).db (condition (moments i).now) callbackName id) →
    (pages.flatten.map deliveryId).count id = 1

section Follow

variable {ι : Type} {item : DeliveryRow → RawEvent → Option ι} {deliveryId : ι → ℤ}
variable {moments : ℕ → Moment} {condition : Time → DeliveryRow → Bool}
  {callbackName : Option String}

theorem matches_iff_lists {db : Db} {condition : DeliveryRow → Bool}
    (hitem : ∀ r e, condition r → ∃ x, item r e = some x)
    (hid : ∀ r e x, item r e = some x → deliveryId x = r.id) {id : ℤ} :
    Matches db condition callbackName id ↔ ∃ x, Lists db condition item callbackName x ∧
    deliveryId x = id := by
  constructor
  · rintro ⟨r, hr, hc, hname⟩
    obtain ⟨hmem, hkey⟩ := Table.get_eq_some_iff.mp hr
    obtain ⟨e, he⟩ := db.references r hmem
    obtain ⟨x, hx⟩ := hitem r e hc
    exact ⟨x, ⟨(r, e), mem_candidates.mpr ⟨hmem, event?_eq_some.mpr he, hc, hname⟩, hx⟩,
      (hid r e x hx).trans hkey⟩
  · rintro ⟨x, ⟨p, hp, hx⟩, hkey⟩
    obtain ⟨hmem, -, hc, hname⟩ := mem_candidates.mp hp
    exact ⟨p.1, Table.get_eq_some_iff.mpr ⟨hmem, (hid p.1 p.2 x hx).symm.trans hkey⟩, hc, hname⟩

theorem bigint_of_lists {i : ℕ} (hid : ∀ r e x, item r e = some x → deliveryId x = r.id) {x : ι}
    (h : Lists (moments i).db (condition (moments i).now) item callbackName x) :
    -2 ^ 63 ≤ deliveryId x ∧ deliveryId x < 2 ^ 63 := by
  obtain ⟨p, hp, hx⟩ := h
  rw [hid p.1 p.2 x hx]
  exact (moments i).bigint p.1 (mem_candidates.mp hp).1

theorem listsOnce_of_listing (hitem : ∀ now r e, condition now r → ∃ x, item r e = some x)
    (hid : ∀ r e x, item r e = some x → deliveryId x = r.id) {pages : List (List ι)}
    (h : Listing deliveryId (fun i =>
      Lists (moments i).db (condition (moments i).now) item callbackName) 0 none
      pages) : ListsOnce moments condition callbackName deliveryId pages := by
  have hdecreasing : (pages.flatten.map deliveryId).Pairwise (· > ·) :=
    List.pairwise_map.mpr h.decreasing
  refine ⟨hdecreasing, fun i items hi x hx => ?_, fun id hall => ?_⟩
  · have hmatch := h.sound i items hi x hx
    rw [Nat.zero_add] at hmatch
    exact (matches_iff_lists (hitem _) hid).mpr ⟨x, hmatch, rfl⟩
  · obtain ⟨x, hx, rfl⟩ := h.complete id (fun c hc => by cases hc) fun i hi => by
      rw [Nat.zero_add]
      exact (matches_iff_lists (hitem _) hid).mp (hall i hi)
    exact List.count_eq_one_of_mem (hdecreasing.imp fun h => ne_of_gt h) (List.mem_map_of_mem hx)

/-- **Following the cursors of one of the lists.** There are at most as many requests as ids and one
more. -/
theorem listsOnce_follow (hitem : ∀ now r e, condition now r → ∃ x, item r e = some x)
    (hid : ∀ r e x, item r e = some x → deliveryId x = r.id) {limit : ℤ}
    {request : ℕ → Option ℤ → Option (ListResponse ι)}
    (hrequest : ∀ i before, request i before = (Statements.listPage (moments i).db
      { limit := clampLimit limit, cursor := before, callbackName } (condition (moments i).now)
        item).map (respond (clampLimit limit) deliveryId)) :
    ∃ pages, (∀ fuel > 2 ^ 64, follow request fuel = some pages) ∧
      ListsOnce moments condition callbackName deliveryId pages := by
  have hpage : ∀ i before, ∃ items next, ((request i before).map fun response =>
      (response.items, response.nextCursor)) = some (items, next) ∧ IsPage deliveryId
        (Lists (moments i).db (condition (moments i).now) item callbackName) before items next := by
    intro i before
    obtain ⟨items, hitems, hp⟩ :=
      @isPage_respond _ (moments i).db _ _ _ (hitem (moments i).now) hid limit
      before callbackName
    exact ⟨items, _, by rw [hrequest, hitems]; rfl, hp⟩
  -- the ids ranked from the smallest `bigint` on
  obtain ⟨pages, hwalk, hlisting⟩ := @exists_listing _ _ _ _ _ _ (2 ^ 64) 0 none hpage
    (fun id => (id + 2 ^ 63).toNat)
    (fun i x c hx hlt => by
      have := bigint_of_lists hid hx
      omega)
    (fun x hx _ => by
      have := bigint_of_lists hid hx
      omega)
  exact ⟨pages, hwalk, listsOnce_of_listing hitem hid hlisting⟩

end Follow

/-- The requests of a client that follows `/v1/dead-letters`. -/
def followDeadLetters (moments : ℕ → Moment) (callbackName : Option String) (limit : ℤ) (fuel : ℕ) :
    Option (List (List DeadLetterRow)) :=
  follow (fun i before => listDeadLetters (moments i).db { callbackName, before, limit }) fuel

/-- The requests of a client that follows `/v1/external-pending`. -/
def followExternalPending (moments : ℕ → Moment) (callbackName : Option String)
    (olderThanSecs : Option F64) (limit : ℤ) (fuel : ℕ) : Option (List (List ExternalPendingRow)) :=
  follow (fun i before => listExternalPending (moments i).db (moments i).now
    { callbackName, olderThanSecs, before, limit }) fuel

theorem listsOnce_deadLetters (moments : ℕ → Moment) (callbackName : Option String) (limit : ℤ) :
    ∃ pages, (∀ fuel > 2 ^ 64, followDeadLetters moments callbackName limit fuel = some pages) ∧
      ListsOnce moments (fun _ r => r.deadLetter) callbackName DeadLetterRow.deliveryId pages := by
  refine @listsOnce_follow _ Statements.DeadLetterRow.ofRow _ moments (fun _ r => r.deadLetter) _
    (fun _ r e _ => ⟨_, rfl⟩) ?_ limit _ fun _ _ => rfl
  rintro r e x ⟨⟩
  rfl

theorem listsOnce_externalPending (moments : ℕ → Moment) (callbackName : Option String) (limit : ℤ)
    {olderThanSecs : Option F64} {age : Option Duration}
    (hage : olderThanSecs.mapM durationFromSecs = some age) :
    ∃ pages, (∀ fuel > 2 ^ 64, followExternalPending moments callbackName olderThanSecs limit fuel =
      some pages) ∧
      ListsOnce moments (fun now r =>
        Statements.externalPending r && Statements.olderThan now age r) callbackName
        ExternalPendingRow.deliveryId pages := by
  refine @listsOnce_follow _ Statements.ExternalPendingRow.ofRow _ moments
    (fun now r => Statements.externalPending r && Statements.olderThan now age r) _ ?_ ?_ limit _ ?_
  · intro now r e hc
    rw [Bool.and_eq_true, Statements.externalPending_iff] at hc
    obtain ⟨t, ht⟩ := Option.isSome_iff_exists.mp hc.1.2.1
    exact ⟨_, by rw [Statements.ExternalPendingRow.ofRow, ht]; rfl⟩
  · intro r e x hx
    obtain ⟨t, -, rfl⟩ := Option.map_eq_some_iff.mp hx
    rfl
  · intro i before
    unfold listExternalPending
    rw [hage, Option.map_eq_bind]
    rfl

/-- **Pagination loses and repeats nothing.** Whatever the limit, the callback asked for and the
tables that the requests meet, a client that follows the cursors of one of the two lists comes to an
end, and has listed decreasing ids, each that matched all along once. A threshold of age that is no
duration is refused by every request. -/
theorem following_cursors_lists_once (moments : ℕ → Moment) (callbackName : Option String)
    (limit : ℤ) :
    (∃ pages, (∀ fuel > 2 ^ 64, followDeadLetters moments callbackName limit fuel = some pages) ∧
      ListsOnce moments (fun _ r => r.deadLetter) callbackName DeadLetterRow.deliveryId pages) ∧
    ∀ olderThanSecs : Option F64,
      match olderThanSecs.mapM durationFromSecs with
      | some age => ∃ pages,
        (∀ fuel > 2 ^ 64, followExternalPending moments callbackName olderThanSecs limit fuel =
          some pages) ∧
          ListsOnce moments (fun now r =>
            Statements.externalPending r && Statements.olderThan now age r)
            callbackName ExternalPendingRow.deliveryId pages
      | none => ∀ i before, listExternalPending (moments i).db (moments i).now
          { callbackName, olderThanSecs, before, limit } = none := by
  refine ⟨listsOnce_deadLetters moments callbackName limit, fun olderThanSecs => ?_⟩
  rcases hage : olderThanSecs.mapM durationFromSecs with _ | age
  · intro i before
    unfold listExternalPending
    rw [hage]
    rfl
  · exact listsOnce_externalPending moments callbackName limit hage

end OutboxDispatcher.Admin
