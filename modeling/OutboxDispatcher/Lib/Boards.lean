import Mathlib.Algebra.BigOperators.Group.Finset.Piecewise
import Mathlib.Algebra.GroupWithZero.Nat
import OutboxDispatcher.Lib.Tables

/-! # A board that is refreshed

A board shows a value under every key. From time to time it is given a snapshot, values under some
keys. It takes them over, and blanks the keys of the snapshot before that are not in the new one. A
snapshot may be missing; then nothing changes.

It remembers the keys of one snapshot only. That is enough (`shown_run`): a key that was ever in a
snapshot shows what the last one has for it, or the blank. The invariant of the runs is `Fresh`: of
the keys that were in a snapshot, those not in the last one are blank. -/

namespace OutboxDispatcher.Lib.Boards

open OutboxDispatcher.Lib.Tables

variable {κ β : Type} [DecidableEq κ]

/-- Values under some keys. -/
abbrev Snapshot (κ β : Type) := Table (Prod.fst : κ × β → κ)

/-- What a snapshot has under a key, or the blank. -/
def Snapshot.value (t : Snapshot κ β) (blank : β) (k : κ) : β := ((t.get k).map Prod.snd).getD blank

/-- The values shown and the keys of the last snapshot. -/
structure Board (κ β : Type) where
  shown : κ → β
  last : List κ

namespace Board

variable (blank : β)

/-- A snapshot is taken over. -/
def refresh (b : Board κ β) (t : Snapshot κ β) : Board κ β where
  shown k := if (t.get k).isSome ∨ k ∈ b.last then t.value blank k else b.shown k
  last := t.rows.map Prod.fst

/-- A snapshot that may be missing. -/
def tick (b : Board κ β) : Option (Snapshot κ β) → Board κ β
  | none => b
  | some t => b.refresh blank t

end Board

def Listed (ticks : List (Option (Snapshot κ β))) (k : κ) : Prop :=
  ∃ t, some t ∈ ticks ∧ (t.get k).isSome

section Runs

variable {blank : β} {b : Board κ β} {ticks : List (Option (Snapshot κ β))} {t : Snapshot κ β}
  {k : κ}

theorem isSome_get_iff : (t.get k).isSome ↔ k ∈ t.rows.map Prod.fst := by
  rw [List.mem_map]
  constructor
  · intro h
    obtain ⟨p, hp⟩ := Option.isSome_iff_exists.mp h
    exact ⟨p, Table.get_eq_some_iff.mp hp⟩
  · rintro ⟨p, hp⟩
    exact Option.isSome_iff_exists.mpr ⟨p, Table.get_eq_some_iff.mpr hp⟩

/-- A key outside the last snapshot that was in one is blank. -/
def Fresh (blank : β) (seen : κ → Prop) (b : Board κ β) : Prop :=
  ∀ k, seen k → k ∉ b.last → b.shown k = blank

theorem shown_refresh {seen : κ → Prop} (h : Fresh blank seen b) (hk : seen k ∨ (t.get k).isSome) :
    (b.refresh blank t).shown k = t.value blank k := by
  show (if _ then _ else _) = _
  split_ifs with hw
  · rfl
  · push Not at hw
    have habsent : t.get k = none := by simpa using hw.1
    rw [h k (hk.resolve_right hw.1) hw.2, Snapshot.value, habsent]
    rfl

theorem fresh_refresh {seen : κ → Prop} (h : Fresh blank seen b) :
    Fresh blank (fun k => seen k ∨ (t.get k).isSome) (b.refresh blank t) := by
  intro k hk hlast
  have habsent : t.get k = none := by
    have hnone : ¬(t.get k).isSome := fun hs => hlast (isSome_get_iff.mp hs)
    simpa using hnone
  rw [shown_refresh h hk, Snapshot.value, habsent]
  rfl

theorem listed_concat {o : Option (Snapshot κ β)} :
    Listed (ticks ++ [o]) k ↔ Listed ticks k ∨ ∃ t, o = some t ∧ (t.get k).isSome := by
  unfold Listed
  constructor
  · rintro ⟨t, ht, hk⟩
    rcases List.mem_append.mp ht with ht | ht
    · exact .inl ⟨t, ht, hk⟩
    · exact .inr ⟨t, (List.mem_singleton.mp ht).symm, hk⟩
  · rintro (⟨t, ht, hk⟩ | ⟨t, rfl, hk⟩)
    · exact ⟨t, List.mem_append_left _ ht, hk⟩
    · exact ⟨t, List.mem_append_right _ (List.mem_singleton_self _), hk⟩

theorem fresh_run (shown : κ → β) (ticks : List (Option (Snapshot κ β))) :
    Fresh blank (Listed ticks) (ticks.foldl (Board.tick blank) ⟨shown, []⟩) := by
  induction ticks using List.reverseRecOn with
  | nil =>
    rintro k ⟨t, ht, -⟩
    exact absurd ht List.not_mem_nil
  | append_singleton ticks o ih =>
    rw [List.foldl_append]
    intro k hk hlast
    rw [listed_concat] at hk
    cases o with
    | none =>
      refine ih k (hk.resolve_right ?_) hlast
      rintro ⟨t, ht, -⟩
      cases ht
    | some t =>
      refine fresh_refresh ih k (hk.imp_right ?_) hlast
      rintro ⟨t', ht, hk⟩
      cases ht
      exact hk

/-- **Nothing stale is shown.** After a snapshot every key that was ever in one shows what this one
has for it, or the blank. -/
theorem shown_run (shown : κ → β) (hk : Listed (ticks ++ [some t]) k) :
    ((ticks ++ [some t]).foldl (Board.tick blank) ⟨shown, []⟩).shown k = t.value blank k := by
  rw [List.foldl_append]
  refine shown_refresh (fresh_run shown ticks) ((listed_concat.mp hk).imp_right ?_)
  rintro ⟨t', ht, hk⟩
  cases ht
  exact hk

end Runs

/-! ### Counts by key -/

/-- The counts of the rows of each key add up to that of all rows. -/
theorem sum_countP_groups {ρ : Type} (f : ρ → κ) (p : ρ → Bool) {ks : List κ} (hks : ks.Nodup) :
    ∀ {l : List ρ}, (∀ r ∈ l, f r ∈ ks) → (ks.map fun k => (l.filter (f · = k)).countP p).sum =
      l.countP p
  | [], _ => by simp
  | r :: l, h => by
    have ih := sum_countP_groups f p hks fun r' hr' => h r' (List.mem_cons_of_mem _ hr')
    have hcons : ∀ k, ((r :: l).filter (f · = k)).countP p =
        (if f r = k then (if p r then 1 else 0) else 0) + (l.filter (f · = k)).countP p := by
      intro k
      by_cases hk : f r = k
      · simp [hk, List.countP_cons, Nat.add_comm]
      · simp [hk]
    have hone : (ks.map fun k => if f r = k then (if p r then 1 else 0) else 0).sum = if p r then 1
        else 0 := by
      rw [← List.sum_toFinset _ hks, Finset.sum_ite_eq,
        if_pos (List.mem_toFinset.mpr (h r List.mem_cons_self))]
    simp only [hcons]
    rw [List.sum_map_add, hone, ih, List.countP_cons, Nat.add_comm]

end OutboxDispatcher.Lib.Boards
