import Mathlib.Data.List.Nodup
import Mathlib.Data.List.MinMax
import Mathlib.Data.List.Sort
import Mathlib.Tactic.Common

/-! # Tables with a key

A table is a list of rows no two of which have the same key. `modify f` is an `UPDATE` (the row
function `f` leaves the rows it does not match alone), `filter` a `DELETE`, `push` an `INSERT` of a
row with a new key. Each operation has its `get` lemma, the only thing later proofs need of it. -/

namespace OutboxDispatcher.Lib.Tables

variable {ρ κ : Type}

/-- Rows with pairwise different keys. -/
structure Table (key : ρ → κ) where
  rows : List ρ
  nodup : (rows.map key).Nodup

namespace Table

variable {key : ρ → κ}

def empty : Table key := ⟨[], by simp⟩

def get [DecidableEq κ] (t : Table key) (k : κ) : Option ρ := t.rows.find? (key · = k)

/-- Every row is replaced by its image. -/
def modify (t : Table key) (f : ρ → ρ) (hf : ∀ r, key (f r) = key r) : Table key :=
  ⟨t.rows.map f, by
    have : key ∘ f = key := funext hf
    rw [List.map_map, this]; exact t.nodup⟩

def filter (t : Table key) (p : ρ → Bool) : Table key :=
  ⟨t.rows.filter p, (List.Sublist.map key List.filter_sublist).nodup t.nodup⟩

def push (t : Table key) (r : ρ) (h : ∀ r' ∈ t.rows, key r' ≠ key r) : Table key :=
  ⟨t.rows ++ [r], by
    rw [List.map_append]
    refine t.nodup.append (by simp) fun k hk hk' => ?_
    obtain ⟨r', hr', rfl⟩ := List.mem_map.mp hk
    exact h r' hr' (by simpa using hk')⟩

variable {t : Table key} {r r' : ρ} {k : κ}

theorem eq_of_key (hr : r ∈ t.rows) (hr' : r' ∈ t.rows) (h : key r = key r') : r = r' :=
  List.inj_on_of_nodup_map t.nodup hr hr' h

@[simp] theorem rows_empty : (empty : Table key).rows = [] := rfl

@[simp] theorem rows_modify (f : ρ → ρ) (hf : ∀ r, key (f r) = key r) :
    (t.modify f hf).rows = t.rows.map f := rfl

@[simp] theorem rows_filter (p : ρ → Bool) : (t.filter p).rows = t.rows.filter p := rfl

@[simp] theorem rows_push (h : ∀ r' ∈ t.rows, key r' ≠ key r) : (t.push r h).rows = t.rows ++ [r] :=
  rfl

variable [DecidableEq κ]

theorem mem_of_get (h : t.get k = some r) : r ∈ t.rows := List.mem_of_find?_eq_some h

theorem key_of_get (h : t.get k = some r) : key r = k := by simpa using List.find?_some h

theorem get_eq_none_iff : t.get k = none ↔ ∀ r ∈ t.rows, key r ≠ k := by
  simp [get, List.find?_eq_none]

theorem get_of_mem (h : r ∈ t.rows) : t.get (key r) = some r := by
  rcases hg : t.get (key r) with _ | r'
  · exact absurd rfl (get_eq_none_iff.mp hg r h)
  · rw [eq_of_key (mem_of_get hg) h (key_of_get hg)]

theorem get_eq_some_iff : t.get k = some r ↔ r ∈ t.rows ∧ key r = k :=
  ⟨fun h => ⟨mem_of_get h, key_of_get h⟩, fun ⟨h, hk⟩ => hk ▸ get_of_mem h⟩

omit [DecidableEq κ] in
theorem modify_eq_self {f : ρ → ρ} (hf : ∀ r, key (f r) = key r) (h : ∀ r ∈ t.rows, f r = r) :
    t.modify f hf = t := by
  obtain ⟨rows, nodup⟩ := t
  simp only [modify, mk.injEq]
  exact (List.map_congr_left h).trans (List.map_id rows)

/-- **An update** acts on every row by the row function. -/
@[simp] theorem get_modify (f : ρ → ρ) (hf : ∀ r, key (f r) = key r) (k : κ) :
    (t.modify f hf).get k = (t.get k).map f := by
  simp only [get, rows_modify, List.find?_map]
  congr 2
  funext r
  simp [hf]

end Table

theorem countP_not_add_countP (p : ρ → Bool) (l : List ρ) :
    l.countP (!p ·) + l.countP p = l.length := by
  induction l with
  | nil => rfl
  | cons x l ih =>
    simp only [List.countP_cons, List.length_cons]
    cases p x <;> simp <;> omega

/-! ### Rows in an order

`orderBy le l` is `ORDER BY`; `LIMIT n` is `List.take n` of it. -/

def orderBy (le : ρ → ρ → Bool) (l : List ρ) : List ρ := l.insertionSort fun a b => le a b

theorem mem_orderBy {le : ρ → ρ → Bool} {l : List ρ} {r : ρ} : r ∈ orderBy le l ↔ r ∈ l :=
  (List.perm_insertionSort _ l).mem_iff

theorem length_orderBy {le : ρ → ρ → Bool} {l : List ρ} : (orderBy le l).length = l.length :=
  (List.perm_insertionSort _ l).length_eq

/-- By columns without repetitions: the rows come out strictly increasing. -/
theorem orderBy_lt [LinearOrder κ] {f : ρ → κ} {l : List ρ} (h : (l.map f).Nodup) :
    (orderBy (fun a b => f a ≤ f b) l).Pairwise fun a b => f a < f b := by
  have hs : (orderBy (fun a b => f a ≤ f b) l).Pairwise fun a b => f a ≤ f b := by
    have := List.pairwise_insertionSort (fun a b => f a ≤ f b) l
    simpa [orderBy] using this
  have hn : ((orderBy (fun a b => f a ≤ f b) l).map f).Nodup :=
    ((List.perm_insertionSort _ l).map f).nodup_iff.mpr h
  rw [List.Nodup, List.pairwise_map] at hn
  exact (hs.and hn).imp fun ⟨h1, h2⟩ => lt_of_le_of_ne h1 h2

/-- Of some of the rows, the order is the same. -/
theorem orderBy_filter {f : ρ → ℤ} {l : List ρ} (h : (l.map f).Nodup) (p : ρ → Bool) :
    orderBy (fun a b => f a ≤ f b) (l.filter p) = (orderBy (fun a b => f a ≤ f b) l).filter p := by
  refine List.Perm.eq_of_pairwise (fun a b _ _ hab hba => absurd (lt_trans hab hba) (lt_irrefl _))
    (orderBy_lt ((List.Sublist.map f List.filter_sublist).nodup h)) ((orderBy_lt h).filter p) ?_
  exact (List.perm_insertionSort _ _).trans ((List.perm_insertionSort _ l).filter p).symm

theorem orderBy_perm [LinearOrder κ] {f : ρ → κ} {l l' : List ρ} (h : (l.map f).Nodup)
    (hp : l.Perm l') : orderBy (fun a b => f a ≤ f b) l = orderBy (fun a b => f a ≤ f b) l' := by
  refine List.Perm.eq_of_pairwise (fun a b _ _ hab hba => absurd (lt_trans hab hba) (lt_irrefl _))
    (orderBy_lt h) (orderBy_lt ((hp.map f).nodup_iff.mp h)) ?_
  exact ((List.perm_insertionSort _ l).trans hp).trans (List.perm_insertionSort _ l').symm

/-- The first row with a property is before the others that have it. -/
theorem le_of_find? [LinearOrder κ] {f : ρ → κ} {l : List ρ} (hs : l.Pairwise fun a b => f a < f b)
    {p : ρ → Bool} {x y : ρ} (hx : l.find? p = some x) (hy : y ∈ l) (hp : p y) : f x ≤ f y := by
  obtain ⟨-, first, rest, rfl, hfirst⟩ := List.find?_eq_some_iff_append.mp hx
  rw [List.mem_append, List.mem_cons] at hy
  rcases hy with hy | rfl | hy
  · exact absurd hp (by simpa using hfirst y hy)
  · exact le_rfl
  · rw [List.pairwise_append, List.pairwise_cons] at hs
    exact (hs.2.1.1 y hy).le

theorem filter_eq_drop {l : List ρ} {n : ℕ} {p : ρ → Bool} (hfirst : ∀ x ∈ l.take n, p x = false)
    (hrest : ∀ x ∈ l.drop n, p x = true) : l.filter p = l.drop n := by
  have hnone : (l.take n).filter p = [] :=
    List.filter_eq_nil_iff.mpr fun x hx => Bool.eq_false_iff.mp (hfirst x hx)
  have hall : (l.drop n).filter p = l.drop n := List.filter_eq_self.mpr hrest
  conv_lhs => rw [← List.take_append_drop n l, List.filter_append, hnone, hall, List.nil_append]

/-- The rows above the last one of the first `n` are the others. -/
theorem filter_last {f : ρ → ℤ} {l : List ρ} (hs : l.Pairwise fun a b => f a < f b)
    {n : ℕ} {last : ρ}
    (h : (l.take n).getLast? = some last) : l.filter (f last < f ·) = l.drop n := by
  obtain ⟨init, hinit⟩ := List.getLast?_eq_some_iff.mp h
  rw [← List.take_append_drop n l, List.pairwise_append] at hs
  obtain ⟨hfirst, -, hrest⟩ := hs
  refine filter_eq_drop (fun x hx => decide_eq_false (not_lt.mpr ?_)) fun x hx => decide_eq_true ?_
  · rw [hinit, List.pairwise_append] at hfirst
    rw [hinit, List.mem_append, List.mem_singleton] at hx
    rcases hx with hx | rfl
    · exact (hfirst.2.2 x hx last (List.mem_singleton.mpr rfl)).le
    · exact le_rfl
  · exact hrest last (List.mem_of_getLast? h) x hx

theorem filter_not_take {f : ρ → ℤ} {l : List ρ} (hs : l.Pairwise fun a b => f a < f b) (n : ℕ) :
    l.filter (fun x => !(l.take n).any (f · == f x)) = l.drop n := by
  rw [← List.take_append_drop n l, List.pairwise_append] at hs
  refine filter_eq_drop (fun x hx => ?_) fun x hx => ?_
  · rw [Bool.not_eq_false', List.any_eq_true]
    exact ⟨x, hx, beq_self_eq_true _⟩
  · rw [Bool.not_eq_true', List.any_eq_false]
    intro y hy
    rw [beq_iff_eq]
    exact (hs.2.2 y hy x hx).ne

theorem exists_of_forall₂ {β : Type} {R : ρ → β → Prop} {l : List ρ} {l' : List β}
    (h : List.Forall₂ R l l') {x : ρ} (hx : x ∈ l) : ∃ y ∈ l', R x y := by
  induction h with
  | nil => cases hx
  | cons hhead _ ih =>
    rcases List.mem_cons.mp hx with rfl | hx
    · exact ⟨_, List.mem_cons_self, hhead⟩
    · obtain ⟨y, hy, hxy⟩ := ih hx
      exact ⟨y, List.mem_cons_of_mem _ hy, hxy⟩

/-- The rows that a partial function maps are those it is defined on, in their order. -/
theorem forall₂_filterMap {β : Type} {p : ρ → Bool} {f : ρ → Option β} {R : ρ → β → Prop}
    {l : List ρ} (hsome : ∀ x ∈ l, p x = true → ∃ y, f x = some y ∧ R x y)
    (hnone : ∀ x ∈ l, p x = false → f x = none) : List.Forall₂ R (l.filter p) (l.filterMap f) := by
  induction l with
  | nil => exact .nil
  | cons x l ih =>
    have htail := ih (fun y hy => hsome y (List.mem_cons_of_mem _ hy))
      fun y hy => hnone y (List.mem_cons_of_mem _ hy)
    cases hp : p x with
    | true =>
      obtain ⟨y, hy, hxy⟩ := hsome x List.mem_cons_self hp
      rw [List.filter_cons_of_pos hp, List.filterMap_cons_some hy]
      exact .cons hxy htail
    | false =>
      rw [List.filter_cons_of_neg (by simp [hp]),
        List.filterMap_cons_none (hnone x List.mem_cons_self hp)]
      exact htail

theorem nodup_filterMap {β : Type} {f : ρ → Option β} {k : ρ → κ} {k' : β → κ} {l : List ρ}
    (hf : ∀ r x, f r = some x → k' x = k r) (h : (l.map k).Nodup) :
    ((l.filterMap f).map k').Nodup := by
  rw [List.Nodup, List.pairwise_map] at h ⊢
  refine h.filterMap _ fun r r' hne x hx x' hx' => ?_
  rw [hf r x hx, hf r' x' hx']
  exact hne

theorem mapM_forall₂ {β : Type} {f : ρ → Option β} {l : List ρ} (h : ∀ x ∈ l, ∃ y, f x = some y) :
    ∃ l', l.mapM f = some l' ∧ List.Forall₂ (fun x y => f x = some y) l l' := by
  induction l with
  | nil => exact ⟨[], rfl, .nil⟩
  | cons x l ih =>
    obtain ⟨y, hy⟩ := h x List.mem_cons_self
    obtain ⟨l', hl', hall⟩ := ih fun x hx => h x (List.mem_cons_of_mem _ hx)
    refine ⟨y :: l', ?_, .cons hy hall⟩
    rw [List.mapM_cons, hy, hl']
    rfl

/-- The first rows of an increasing list leave no gap. -/
theorem mem_take_of_le [LinearOrder κ] {f : ρ → κ} {l : List ρ}
    (hs : l.Pairwise fun a b => f a < f b) {n : ℕ}
    {x y : ρ} (hx : x ∈ l) (hy : y ∈ l.take n) (h : f x ≤ f y) : x ∈ l.take n := by
  rw [← List.take_append_drop n l, List.mem_append] at hx
  rw [← List.take_append_drop n l, List.pairwise_append] at hs
  rcases hx with hx | hx
  · exact hx
  · exact absurd (hs.2.2 y hy x hx) (not_lt.mpr h)

/-- If a row is not among the first `n`, they are `n`, and all before it. -/
theorem take_of_notMem {R : ρ → ρ → Prop} {l : List ρ} (hs : l.Pairwise R) {n : ℕ}
    {x : ρ} (hx : x ∈ l)
    (hmiss : x ∉ l.take n) : (∀ y ∈ l.take n, R y x) ∧ (l.take n).length = n := by
  rw [← List.take_append_drop n l, List.mem_append] at hx
  rw [← List.take_append_drop n l, List.pairwise_append] at hs
  have hdrop : x ∈ l.drop n := hx.resolve_left hmiss
  refine ⟨fun y hy => hs.2.2 y hy x hdrop, ?_⟩
  have hpos := List.length_pos_of_mem hdrop
  rw [List.length_drop] at hpos
  rw [List.length_take]
  omega

end OutboxDispatcher.Lib.Tables
