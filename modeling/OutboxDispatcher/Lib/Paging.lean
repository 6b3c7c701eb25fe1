import OutboxDispatcher.Lib.Tables
import Mathlib.Order.OrderDual

/-! # Pages by a key

A listing is read page by page, the largest key first. A page has at most `limit` items below the
cursor; when it is full it names its last key as the next cursor, and when it is not the reader
stops. The items may be others at every request.

* `isPage_page`: what a page is, whatever the items are (`IsPage`).
* `listing_walk`: over a whole walk the keys decrease, so that none is read twice, and a key that
  was there at every request is read.
* `isSome_walk`: the walk ends, if the keys can be ranked by numbers below a bound.
* `exists_listing` has both for a client. -/

namespace OutboxDispatcher.Lib.Paging

open OutboxDispatcher.Lib.Tables

variable {ρ κ : Type} [LinearOrder κ]

/-- `WHERE key < cursor ORDER BY key DESC LIMIT limit`. -/
def page (key : ρ → κ) (limit : ℕ) (cursor : Option κ) (l : List ρ) : List ρ :=
  (orderBy (fun a b => key b ≤ key a) (l.filter fun r => cursor.all (key r < ·))).take limit

/-- The last key of a full page. -/
def nextCursor (key : ρ → κ) (limit : ℕ) (items : List ρ) : Option κ :=
  if items.length = limit then items.getLast?.map key else none

/-- The page after the cursor: no item is left out between the two cursors. -/
structure IsPage (key : ρ → κ) (matching : ρ → Prop) (cursor : Option κ) (items : List ρ)
    (next : Option κ) : Prop where
  decreasing : items.Pairwise fun a b => key b < key a
  sound : ∀ r ∈ items, matching r ∧ ∀ c ∈ cursor, key r < c
  complete : ∀ r, matching r → (∀ c ∈ cursor, key r < c) → (∀ c ∈ next, c ≤ key r) → r ∈ items
  next_mem : ∀ c ∈ next, ∃ r ∈ items, key r = c
  next_le : ∀ c ∈ next, ∀ r ∈ items, c ≤ key r

section Page

variable {key : ρ → κ} {limit : ℕ} {cursor : Option κ} {l : List ρ}

theorem orderBy_gt (h : (l.map key).Nodup) :
    (orderBy (fun a b => key b ≤ key a) l).Pairwise fun a b => key b < key a :=
  @orderBy_lt ρ κᵒᵈ _ (fun r => OrderDual.toDual (key r)) l h

theorem page_decreasing (h : (l.map key).Nodup) :
    (page key limit cursor l).Pairwise fun a b => key b < key a :=
  (orderBy_gt ((List.filter_sublist.map key).nodup h)).sublist (List.take_sublist _ _)

theorem mem_of_mem_page {r : ρ} (h : r ∈ page key limit cursor l) :
    r ∈ l ∧ ∀ c ∈ cursor, key r < c := by
  have hmem := List.mem_filter.mp (mem_orderBy.mp (List.mem_of_mem_take h))
  refine ⟨hmem.1, fun c hc => ?_⟩
  have hall := hmem.2
  rw [hc] at hall
  exact of_decide_eq_true hall

omit [LinearOrder κ] in
theorem mem_nextCursor {items : List ρ} {c : κ} (h : c ∈ nextCursor key limit items) :
    items.length = limit ∧ ∃ init last, items = init ++ [last] ∧ key last = c := by
  unfold nextCursor at h
  split_ifs at h with hfull
  · obtain ⟨last, hlast, hkey⟩ := Option.map_eq_some_iff.mp h
    obtain ⟨init, hinit⟩ := List.getLast?_eq_some_iff.mp hlast
    exact ⟨hfull, init, last, hinit, hkey⟩
  · cases h

omit [LinearOrder κ] in
/-- A page without a next cursor is not full, or it would name its last key. -/
theorem length_lt_of_nextCursor {items : List ρ} (hlimit : 0 < limit) (hle : items.length ≤ limit)
    (h : nextCursor key limit items = none) : items.length < limit := by
  refine lt_of_le_of_ne hle fun hfull => ?_
  rw [nextCursor, if_pos hfull, Option.map_eq_none_iff, List.getLast?_eq_none_iff] at h
  rw [h, List.length_nil] at hfull
  omega

/-- **A page is what it should be**, also when it is full and nothing is behind it. -/
theorem isPage_page (hnodup : (l.map key).Nodup) (hlimit : 0 < limit) : IsPage key (· ∈ l) cursor
    (page key limit cursor l) (nextCursor key limit (page key limit cursor l)) where
  decreasing := page_decreasing hnodup
  sound _ hr := mem_of_mem_page hr
  complete r hr hcursor hnext := by
    have hfilter : r ∈ l.filter fun r => cursor.all (key r < ·) := by
      refine List.mem_filter.mpr ⟨hr, ?_⟩
      cases cursor with
      | none => rfl
      | some c => exact decide_eq_true (hcursor c rfl)
    have hordered :
      r ∈ orderBy (fun a b => key b ≤ key a) (l.filter fun r => cursor.all (key r < ·)) :=
      mem_orderBy.mpr hfilter
    rcases hc : nextCursor key limit (page key limit cursor l) with _ | c
    · -- everything is on the page
      have hlt : (page key limit cursor l).length < limit :=
        length_lt_of_nextCursor hlimit (List.length_take_le _ _) hc
      rw [page, List.length_take, min_lt_iff] at hlt
      rw [page, List.take_of_length_le (hlt.resolve_left (lt_irrefl _)).le]
      exact hordered
    · -- the page reaches down to its last key
      obtain ⟨-, init, last, hitems, hlast⟩ := mem_nextCursor hc
      have hmem : last ∈ page key limit cursor l := by
        rw [hitems]
        exact List.mem_append_right _ (List.mem_singleton_self _)
      have hle : key last ≤ key r := hlast ▸ hnext c hc
      exact @mem_take_of_le ρ κᵒᵈ _ (fun r => OrderDual.toDual (key r)) _
        (orderBy_gt ((List.filter_sublist.map key).nodup hnodup)) _ _ _ hordered hmem hle
  next_mem c hc := by
    obtain ⟨-, init, last, hitems, hlast⟩ := mem_nextCursor hc
    refine ⟨last, ?_, hlast⟩
    rw [hitems]
    exact List.mem_append_right _ (List.mem_singleton_self _)
  next_le c hc r hr := by
    obtain ⟨-, init, last, hitems, hlast⟩ := mem_nextCursor hc
    have hdec := @page_decreasing _ _ _ _ limit cursor _ hnodup
    rw [hitems, List.pairwise_append] at hdec
    rw [hitems, List.mem_append, List.mem_singleton] at hr
    rcases hr with hr | rfl
    · exact hlast ▸ (hdec.2.2 r hr last (List.mem_singleton_self _)).le
    · exact hlast.ge

section Shown

variable {β : Type} {items : List ρ} {shown : List β} {R : ρ → β → Prop} {key' : β → κ}

omit [LinearOrder κ] in
theorem map_key_of_forall₂ (hshown : List.Forall₂ R items shown)
    (hkey : ∀ r x, R r x → key' x = key r) : shown.map key' = items.map key := by
  induction hshown with
  | nil => rfl
  | cons hhead _ ih => rw [List.map_cons, List.map_cons, hkey _ _ hhead, ih]

omit [LinearOrder κ] in
/-- The next cursor is the same for what is shown for the items. -/
theorem nextCursor_of_forall₂ (hshown : List.Forall₂ R items shown)
    (hkey : ∀ r x, R r x → key' x = key r) :
    nextCursor key' limit shown = nextCursor key limit items := by
  unfold nextCursor
  rw [hshown.length_eq, ← List.getLast?_map, ← List.getLast?_map, map_key_of_forall₂ hshown hkey]

/-- A page of what is shown for the items. -/
theorem IsPage.forall₂ {matching : ρ → Prop} {next : Option κ}
    (h : IsPage key matching cursor items next)
    (hshown : List.Forall₂ R items shown) (hkey : ∀ r x, R r x → key' x = key r)
    (hfun : ∀ r x y, R r x → R r y → x = y) :
    IsPage key' (fun x => ∃ r, matching r ∧ R r x) cursor shown next where
  decreasing := by
    have hdec : (items.map key).Pairwise fun a b => b < a := List.pairwise_map.mpr h.decreasing
    rw [← map_key_of_forall₂ hshown hkey] at hdec
    exact List.pairwise_map.mp hdec
  sound x hx := by
    obtain ⟨r, hr, hrx⟩ := exists_of_forall₂ hshown.flip hx
    refine ⟨⟨r, (h.sound r hr).1, hrx⟩, ?_⟩
    rw [hkey r x hrx]
    exact (h.sound r hr).2
  complete x := by
    rintro ⟨r, hr, hrx⟩ hcursor hnext
    rw [hkey r x hrx] at hcursor hnext
    obtain ⟨y, hy, hry⟩ := exists_of_forall₂ hshown (h.complete r hr hcursor hnext)
    rwa [hfun r x y hrx hry]
  next_mem c hc := by
    obtain ⟨r, hr, hrc⟩ := h.next_mem c hc
    obtain ⟨x, hx, hrx⟩ := exists_of_forall₂ hshown hr
    exact ⟨x, hx, (hkey r x hrx).trans hrc⟩
  next_le c hc x hx := by
    obtain ⟨r, hr, hrx⟩ := exists_of_forall₂ hshown.flip hx
    rw [hkey r x hrx]
    exact h.next_le c hc r hr

end Shown

end Page

/-! ### Walks -/

/-- Requests one after another, each with the cursor the one before returned; the pages up to the
first that names none. `none` when that is not among the first `fuel` requests, or a request fails.
-/
def walk (request : ℕ → Option κ → Option (List ρ × Option κ)) : ℕ → ℕ → Option κ →
    Option (List (List ρ))
  | 0, _, _ => none
  | fuel + 1, i, cursor =>
    match request i cursor with
    | none => none
    | some (items, none) => some [items]
    | some (items, some next) => (walk request fuel (i + 1) (some next)).map (items :: ·)

/-- What a walk reads that starts with request `i` below a cursor. -/
structure Listing (key : ρ → κ) (matching : ℕ → ρ → Prop) (i : ℕ) (cursor : Option κ)
    (pages : List (List ρ)) : Prop where
  decreasing : pages.flatten.Pairwise fun a b => key b < key a
  below : ∀ r ∈ pages.flatten, ∀ c ∈ cursor, key r < c
  sound : ∀ j items, pages[j]? = some items → ∀ r ∈ items, matching (i + j) r
  complete : ∀ k, (∀ c ∈ cursor, k < c) →
    (∀ j < pages.length, ∃ r, matching (i + j) r ∧ key r = k) → ∃ r ∈ pages.flatten, key r = k

section Walk

variable {key : ρ → κ} {matching : ℕ → ρ → Prop}
  {request : ℕ → Option κ → Option (List ρ × Option κ)}
variable {fuel i : ℕ} {cursor : Option κ} {pages : List (List ρ)}

theorem Listing.last {items : List ρ} (h : IsPage key (matching i) cursor items none) :
    Listing key matching i cursor [items] where
  decreasing := by simpa using h.decreasing
  below r hr := (h.sound r (by simpa using hr)).2
  sound j items' hj r hr := by
    cases j with
    | zero =>
      cases hj
      exact (h.sound r hr).1
    | succ j => cases hj
  complete k hk hall := by
    obtain ⟨r, hr, rfl⟩ := hall 0 Nat.one_pos
    exact ⟨r, by simpa using h.complete r hr hk (fun c hc => by cases hc), rfl⟩

theorem Listing.cons {items : List ρ} {next : κ}
    (h : IsPage key (matching i) cursor items (some next))
    (hrest : Listing key matching (i + 1) (some next) pages) :
    Listing key matching i cursor (items :: pages) where
  decreasing := by
    rw [List.flatten_cons, List.pairwise_append]
    refine ⟨h.decreasing, hrest.decreasing, fun a ha b hb => ?_⟩
    exact (hrest.below b hb next rfl).trans_le (h.next_le next rfl a ha)
  below r hr c hc := by
    rw [List.flatten_cons, List.mem_append] at hr
    rcases hr with hr | hr
    · exact (h.sound r hr).2 c hc
    · obtain ⟨r', hr', hkey⟩ := h.next_mem next rfl
      exact (hrest.below r hr next rfl).trans (hkey ▸ (h.sound r' hr').2 c hc)
  sound j items' hj r hr := by
    cases j with
    | zero =>
      cases hj
      exact (h.sound r hr).1
    | succ j =>
      have hmatch := hrest.sound j items' hj r hr
      rwa [Nat.add_right_comm, Nat.add_assoc] at hmatch
  complete k hk hall := by
    simp only [List.flatten_cons, List.mem_append]
    obtain ⟨r, hr, rfl⟩ := hall 0 (Nat.succ_pos _)
    by_cases hle : next ≤ key r
    · refine ⟨r, .inl (h.complete r hr hk fun c hc => ?_), rfl⟩
      cases hc
      exact hle
    · -- below the page: it is there at every later request
      have hbelow : ∀ c ∈ some next, key r < c := by
        rintro c ⟨⟩
        exact not_le.mp hle
      obtain ⟨r', hr', hkey⟩ := hrest.complete (key r) hbelow fun j hj => by
        have hlater := hall (j + 1) (Nat.succ_lt_succ hj)
        rwa [← Nat.add_assoc, Nat.add_right_comm] at hlater
      exact ⟨r', .inr hr', hkey⟩

/-- **A walk reads nothing twice and loses nothing**, if each of its requests returns a page. -/
theorem listing_walk (hpage : ∀ i cursor items next, request i cursor = some (items, next) →
      IsPage key (matching i) cursor items next) (h : walk request fuel i cursor = some pages) :
    Listing key matching i cursor pages := by
  induction fuel generalizing i cursor pages with
  | zero => cases h
  | succ fuel ih =>
    rw [walk] at h
    split at h
    · cases h
    · next items hreq =>
      cases h
      exact .last (hpage i cursor items none hreq)
    · next items next hreq =>
      obtain ⟨rest, hrest, rfl⟩ := Option.map_eq_some_iff.mp h
      exact .cons (hpage i cursor items (some next) hreq) (ih hrest)

omit [LinearOrder κ] in
theorem walk_mono {fuel' : ℕ} (hle : fuel ≤ fuel') (h : walk request fuel i cursor = some pages) :
    walk request fuel' i cursor = some pages := by
  induction fuel generalizing fuel' i cursor pages with
  | zero => cases h
  | succ fuel ih =>
    obtain ⟨n, rfl⟩ := Nat.exists_eq_add_one.mpr (Nat.zero_lt_of_lt hle)
    rw [walk] at h ⊢
    split at h
    · cases h
    · exact h
    · obtain ⟨rest, hrest, rfl⟩ := Option.map_eq_some_iff.mp h
      rw [ih (Nat.le_of_succ_le_succ hle) hrest]
      rfl

/-- **A walk ends.** The cursors decrease, so there are no more requests than ranks below a cursor.
-/
theorem isSome_walk (hpage : ∀ i cursor, ∃ items next, request i cursor = some (items, next) ∧
      IsPage key (matching i) cursor items next) {rank : κ → ℕ}
    (hrank : ∀ i r c, matching i r → key r < c → rank (key r) < rank c)
    (h : ∀ r, matching i r → (∀ c ∈ cursor, key r < c) → rank (key r) < fuel) :
    (walk request (fuel + 1) i cursor).isSome := by
  induction fuel generalizing i cursor with
  | zero =>
    obtain ⟨items, next, hreq, hp⟩ := hpage i cursor
    rw [walk, hreq]
    cases next with
    | none => rfl
    | some next =>
      obtain ⟨r, hr, -⟩ := hp.next_mem next rfl
      exact absurd (h r (hp.sound r hr).1 (hp.sound r hr).2) (Nat.not_lt_zero _)
  | succ fuel ih =>
    obtain ⟨items, next, hreq, hp⟩ := hpage i cursor
    rw [walk, hreq]
    cases next with
    | none => rfl
    | some next =>
      obtain ⟨r, hr, rfl⟩ := hp.next_mem next rfl
      have hlast := h r (hp.sound r hr).1 (hp.sound r hr).2
      show (Option.map _ _).isSome
      rw [Option.isSome_map]
      refine ih fun r' hr' hbelow => ?_
      have hlt := hrank (i + 1) r' (key r) hr' (hbelow (key r) rfl)
      omega

/-- **Following the cursors**: with enough fuel the walk returns, and it reads a listing. -/
theorem exists_listing (hpage : ∀ i cursor, ∃ items next, request i cursor = some (items, next) ∧
      IsPage key (matching i) cursor items next) {rank : κ → ℕ}
    (hrank : ∀ i r c, matching i r → key r < c → rank (key r) < rank c)
    (h : ∀ r, matching i r → (∀ c ∈ cursor, key r < c) → rank (key r) < fuel) :
    ∃ pages, (∀ n > fuel, walk request n i cursor = some pages) ∧
    Listing key matching i cursor pages := by
  obtain ⟨pages, hpages⟩ := Option.isSome_iff_exists.mp (isSome_walk hpage hrank h)
  refine ⟨pages, fun n hn => walk_mono hn hpages,
    listing_walk (fun i cursor items next hreq => ?_) hpages⟩
  obtain ⟨items', next', hreq', hp⟩ := hpage i cursor
  rw [hreq, Option.some.injEq, Prod.mk.injEq] at hreq'
  obtain ⟨rfl, rfl⟩ := hreq'
  exact hp

end Walk

end OutboxDispatcher.Lib.Paging
