import Mathlib.Algebra.BigOperators.Group.Finset.Basic
import Mathlib.Algebra.Order.BigOperators.Group.Finset
import Mathlib.Data.List.Nodup

/-! # Bounded concurrency

`buffer_unordered(n)` over a list of items: the items are started in order, at most `n` of them are
in progress at a time, and they may finish in any order. `Buffer` is the state of such a stream. An
item is in it until it has finished (`mem_items_finish`), and as long as `n` is not zero a stream
that is not drained can go on (`exists_start`). -/

namespace OutboxDispatcher.Lib.Buffered

/-- The items that are not started yet, and those in progress. -/
structure Buffer (α : Type) where
  queue : List α
  running : List α
  deriving DecidableEq

namespace Buffer

variable {α : Type}

def items (b : Buffer α) : List α := b.queue ++ b.running

/-- The next item is started, if there is room for it. -/
def start (n : ℕ) (b : Buffer α) : Option (α × Buffer α) :=
  match b.queue with
  | [] => none
  | x :: queue => if b.running.length < n then some (x, ⟨queue, b.running ++ [x]⟩) else none

def finish [DecidableEq α] (b : Buffer α) (x : α) : Buffer α :=
  { b with running := b.running.filter (· ≠ x) }

variable {b b' : Buffer α} {x y : α} {n : ℕ}

theorem start_eq_some (h : b.start n = some (x, b')) :
    b.running.length < n ∧ b.queue = x :: b'.queue ∧ b'.running = b.running ++ [x] := by
  unfold start at h
  split at h
  · cases h
  · next queue hq =>
    split_ifs at h with hn
    cases h
    exact ⟨hn, hq, rfl⟩

theorem perm_start (h : b.start n = some (x, b')) : b'.items.Perm b.items := by
  obtain ⟨-, hq, hr⟩ := start_eq_some h
  unfold items
  rw [hq, hr, ← List.append_assoc]
  exact List.perm_append_singleton x (b'.queue ++ b.running)

/-- **At most `n` items are in progress.** -/
theorem length_running_start (h : b.start n = some (x, b')) : b'.running.length ≤ n := by
  obtain ⟨hn, -, hr⟩ := start_eq_some h
  rw [hr, List.length_append]
  exact hn

theorem exists_start (hn : 0 < n) (hr : b.running = []) (hq : b.queue ≠ []) :
    ∃ x b', b.start n = some (x, b') := by
  unfold start
  obtain ⟨x, queue, hcons⟩ := List.exists_cons_of_ne_nil hq
  rw [hcons, hr]
  exact ⟨x, _, if_pos hn⟩

section Finish

variable [DecidableEq α]

theorem mem_items_finish (h : b.items.Nodup) (hx : x ∈ b.running) :
    y ∈ (b.finish x).items ↔ y ∈ b.items ∧ y ≠ x := by
  unfold items at h ⊢
  have hdisj : ∀ z ∈ b.queue, z ≠ x := fun z hz heq => (List.nodup_append.mp h).2.2 z hz x hx heq
  simp only [finish, List.mem_append, List.mem_filter, decide_eq_true_eq]
  constructor
  · rintro (hy | ⟨hy, hne⟩)
    · exact ⟨.inl hy, hdisj y hy⟩
    · exact ⟨.inr hy, hne⟩
  · rintro ⟨hy | hy, hne⟩
    · exact .inl hy
    · exact .inr ⟨hy, hne⟩

theorem nodup_finish (h : b.items.Nodup) : (b.finish x).items.Nodup :=
  (List.filter_sublist.append_left b.queue).nodup h

theorem length_running_finish (hn : b.running.length ≤ n) : (b.finish x).running.length ≤ n :=
  Nat.le_trans (List.length_filter_le _ _) hn

end Finish

end Buffer

/-! ### Several streams -/

/-- What is counted at all is counted somewhere. -/
theorem countP_le_sum {α ι : Type} (R : Finset ι) {p : α → Bool} {q : ι → α → Bool} :
    ∀ {l : List α}, (∀ x ∈ l, p x → ∃ r ∈ R, q r x) → l.countP p ≤ ∑ r ∈ R, l.countP (q r)
  | [], _ => by simp
  | x :: l, h => by
    have ih := countP_le_sum R fun y hy => h y (List.mem_cons_of_mem _ hy)
    simp only [List.countP_cons, Finset.sum_add_distrib]
    refine Nat.add_le_add ih ?_
    split_ifs with hp
    · obtain ⟨r, hr, hq⟩ := h x (by simp) hp
      calc 1 = if q r x then 1 else 0 := by rw [if_pos hq]
        _ ≤ ∑ r ∈ R, if q r x then 1 else 0 :=
          Finset.single_le_sum (f := fun r => if q r x then 1 else 0) (fun _ _ => Nat.zero_le _) hr
    · exact Nat.zero_le _

end OutboxDispatcher.Lib.Buffered
