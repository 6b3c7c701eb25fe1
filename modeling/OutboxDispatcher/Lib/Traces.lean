import Mathlib.Tactic.Common

/-! # Traces

A trace is a list of observations, the newest first; a step puts its observations in front. `Since P
Q` is the temporal operator: at some time there was a `P`, and there has been no `Q` after it.
`countSince P Q` counts the `P` after the last `Q`. -/

namespace OutboxDispatcher.Lib.Traces

variable {α : Type} {P Q : α → Prop}

/-- Some observation is a `P`, and none after it is a `Q`. -/
def Since (P Q : α → Prop) (trace : List α) : Prop :=
  ∃ l o l', trace = l ++ o :: l' ∧ P o ∧ ∀ o' ∈ l, ¬Q o'

theorem not_since_nil : ¬Since P Q [] := fun ⟨l, o, l', heq, _⟩ => by simp at heq

/-- **One step**: the `P` is new, or it was there before and nothing new is a `Q`. -/
theorem since_append {obs trace : List α} (h : Since P Q (obs ++ trace)) :
    (∃ o ∈ obs, P o) ∨ (Since P Q trace ∧ ∀ o ∈ obs, ¬Q o) := by
  obtain ⟨l, o, l', heq, ho, hl⟩ := h
  rcases List.append_eq_append_iff.mp heq with ⟨m, rfl, hm⟩ | ⟨m, rfl, hm⟩
  · exact .inr ⟨⟨m, o, l', hm, ho, fun o' h' => hl o' (List.mem_append_right _ h')⟩,
      fun o' h' => hl o' (List.mem_append_left _ h')⟩
  · cases m with
    | nil => exact .inr ⟨⟨[], o, l', by simpa using hm.symm, ho, by simp⟩, by simpa using hl⟩
    | cons o' m =>
      rw [List.cons_append, List.cons.injEq] at hm
      exact .inl ⟨o, by simp [hm.1], ho⟩

theorem since_cons {o : α} {trace : List α} :
    Since P Q (o :: trace) ↔ P o ∨ (¬Q o ∧ Since P Q trace) := by
  constructor
  · intro h
    rcases since_append (show Since P Q ([o] ++ trace) from h) with ⟨o', ho', hP⟩ | ⟨hs, hQ⟩
    · exact .inl (List.mem_singleton.mp ho' ▸ hP)
    · exact .inr ⟨hQ o (by simp), hs⟩
  · rintro (hP | ⟨hQ, l, o', l', rfl, ho', hl⟩)
    · exact ⟨[], o, trace, rfl, hP, by simp⟩
    · exact ⟨o :: l, o', l', rfl, ho', by simpa [hQ] using hl⟩

/-- Whether it was so is decided from the newest observation on. -/
def decidableSince [DecidablePred P] [DecidablePred Q] : ∀ trace, Decidable (Since P Q trace)
  | [] => .isFalse not_since_nil
  | o :: trace =>
    have := decidableSince trace
    decidable_of_iff' (P o ∨ (¬Q o ∧ Since P Q trace)) since_cons

instance [DecidablePred P] [DecidablePred Q] : DecidablePred (Since P Q) := decidableSince

/-! ### Counting -/

/-- How many `P` there have been since the last `Q`. -/
def countSince (P Q : α → Bool) (trace : List α) : ℕ := (trace.takeWhile (!Q ·)).countP P

section

variable {P Q : α → Bool} {obs trace : List α}

theorem countSince_cons (o : α) : countSince P Q (o :: trace) =
    if Q o then 0 else (if P o then 1 else 0) + countSince P Q trace := by
  unfold countSince
  by_cases hQ : Q o <;> simp [hQ, List.countP_cons, Nat.add_comm]

theorem countSince_append (h : ∀ o ∈ obs, Q o = false) :
    countSince P Q (obs ++ trace) = obs.countP P + countSince P Q trace := by
  have htake : (obs ++ trace).takeWhile (!Q ·) = obs ++ trace.takeWhile (!Q ·) :=
    List.takeWhile_append_of_pos fun o ho => by simp [h o ho]
  rw [countSince, htake, List.countP_append, countSince]

theorem countSince_append_reset (h : ∃ o ∈ obs, Q o) (hP : ∀ o ∈ obs, P o = false) :
    countSince P Q (obs ++ trace) = 0 := by
  obtain ⟨q, hq, hQ⟩ := h
  rw [countSince, List.countP_eq_zero]
  intro o ho
  obtain ⟨l, l', rfl⟩ := List.append_of_mem hq
  rw [List.append_assoc, List.cons_append] at ho
  have hsub : o ∈ l := by
    rw [List.takeWhile_append] at ho
    split_ifs at ho with hl
    · simpa [hQ] using ho
    · exact (List.takeWhile_prefix _).subset ho
  simp [hP o (List.mem_append_left _ hsub)]

end

end OutboxDispatcher.Lib.Traces
