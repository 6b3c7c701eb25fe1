import Mathlib.Order.Basic
import Mathlib.Tactic.Common

/-! # Runs of a step function

A system is a partial step function `step : σ → α → Option σ`: the action `a` is possible in `s`
when `step s a` is a state. `Run step ok s₀ s` says that `s` is reached from `s₀` by steps that all
satisfy `ok`, a condition on the state before the step, the action, and the state after it. An
assumption on the environment (write-backs are on time, commits come in order) is such an `ok`.

* `Run.invariant`: what holds at first and is kept by every step that satisfies `ok` holds in every
  state reached.
* `exec` runs a list of actions and checks each step on the way; `Run.of_exec` turns such a
  computation into a run.
* `recorded` is the system with a record of its past, which no step reads.
* `Path` is a run of a relation with labels: the runs that a specification allows. -/

namespace OutboxDispatcher.Lib.Runs

variable {σ α : Type}

/-- The states reached from `s₀` by steps that satisfy `ok`. -/
inductive Run (step : σ → α → Option σ) (ok : σ → α → σ → Prop) (s₀ : σ) : σ → Prop
  | refl : Run step ok s₀ s₀
  | tail {s s' : σ} {a : α} (h : Run step ok s₀ s) (hs : step s a = some s') (ho : ok s a s') :
      Run step ok s₀ s'

/-- The condition that every step satisfies. -/
def anyStep : σ → α → σ → Prop := fun _ _ _ => True

instance (s : σ) (a : α) (s' : σ) : Decidable (anyStep s a s') := inferInstanceAs (Decidable True)

variable {step : σ → α → Option σ} {ok ok' : σ → α → σ → Prop} {s₀ s s' : σ}

/-- **Invariants.** What holds at first and is kept by every step holds in every state reached. -/
theorem Run.invariant (I : σ → Prop) (h0 : I s₀)
    (hstep : ∀ s a s', I s → step s a = some s' → ok s a s' → I s') (h : Run step ok s₀ s) :
    I s := by
  induction h with
  | refl => exact h0
  | tail _ hs ho ih => exact hstep _ _ _ ih hs ho

theorem Run.mono (hok : ∀ s a s', ok s a s' → ok' s a s') (h : Run step ok s₀ s) :
    Run step ok' s₀ s := by
  induction h with
  | refl => exact .refl
  | tail _ hs ho ih => exact ih.tail hs (hok _ _ _ ho)

theorem Run.trans {s'' : σ} (h : Run step ok s s') (h' : Run step ok s' s'') :
    Run step ok s s'' := by
  induction h' with
  | refl => exact h
  | tail _ hs ho ih => exact ih.tail hs ho

/-! ### Runs with a record -/

section Recorded

variable {β : Type}

/-- The system with a record of its past, the newest entries first; `entries s a s'` are those of a
step. -/
def recorded (step : σ → α → Option σ) (entries : σ → α → σ → List β) (p : σ × List β) (a : α) :
    Option (σ × List β) :=
  (step p.1 a).map fun s' => (s', entries p.1 a s' ++ p.2)

theorem recorded_eq_some {entries : σ → α → σ → List β} {p p' : σ × List β} {a : α} :
    recorded step entries p a = some p' ↔
      step p.1 a = some p'.1 ∧ p'.2 = entries p.1 a p'.1 ++ p.2 := by
  unfold recorded
  rw [Option.map_eq_some_iff]
  constructor
  · rintro ⟨s', hs, rfl⟩
    exact ⟨hs, rfl⟩
  · rintro ⟨hs, hl⟩
    exact ⟨p'.1, hs, by rw [← hl]⟩

end Recorded

/-! ### Paths

A transition relation with labels; the labels of a path are listed with the newest first. -/

section Paths

variable {β : Type} {next : σ → β → σ → Prop}

/-- A path from `s₀`, with its labels. -/
inductive Path (next : σ → β → σ → Prop) (s₀ : σ) : List β → σ → Prop
  | nil : Path next s₀ [] s₀
  | cons {s s' : σ} {l : List β} {x : β} (h : Path next s₀ l s) (hn : next s x s') :
      Path next s₀ (x :: l) s'

theorem Path.split {s₀ s : σ} {l' : List β} : ∀ {l : List β}, Path next s₀ (l ++ l') s →
    ∃ s₁, Path next s₀ l' s₁ ∧ Path next s₁ l s
  | [], h => ⟨s, h, .nil⟩
  | _ :: l, h => by
    cases h with
    | cons h hn =>
      obtain ⟨s₁, h₁, h₂⟩ := h.split
      exact ⟨s₁, h₁, h₂.cons hn⟩

end Paths

/-! ### Runs given by their actions -/

/-- The state after the actions `as`, if all of them are possible and satisfy `ok`. -/
def exec (step : σ → α → Option σ) (ok : σ → α → σ → Prop) [∀ s a s', Decidable (ok s a s')] :
    List α → σ → Option σ
  | [], s => some s
  | a :: as, s => (step s a).bind fun s' => if ok s a s' then exec step ok as s' else none

variable [∀ s a s', Decidable (ok s a s')]

theorem Run.of_exec : ∀ (as : List α) {s s' : σ}, exec step ok as s = some s' → Run step ok s s'
  | [], s, s', h => by
    cases h; exact .refl
  | a :: as, s, s', h => by
    obtain ⟨s1, hs, h⟩ := Option.bind_eq_some_iff.mp h
    split_ifs at h with ho
    exact (Run.refl.tail hs ho).trans (Run.of_exec as h)

theorem Path.of_exec {l : List α} : ∀ (as : List α) {s s' : σ},
    Path (fun s a s' => step s a = some s' ∧ ok s a s') s₀ l s → exec step ok as s = some s' →
      Path (fun s a s' => step s a = some s' ∧ ok s a s') s₀ (as.reverse ++ l) s'
  | [], s, s', h, he => by
    cases he
    exact h
  | a :: as, s, s', h, he => by
    obtain ⟨s₁, hs, he⟩ := Option.bind_eq_some_iff.mp he
    split_ifs at he with ho
    rw [List.reverse_cons, List.append_assoc]
    exact Path.of_exec as (h.cons ⟨hs, ho⟩) he

/-- A state with the property `P` is reached, by these actions. -/
theorem Run.exists_of_exec {P : σ → Prop} [DecidablePred P] (as : List α)
    (h : (exec step ok as s).any (P ·)) : ∃ s', Run step ok s s' ∧ P s' := by
  rcases hs : exec step ok as s with _ | s'
  · rw [hs] at h; cases h
  · rw [hs] at h
    exact ⟨s', Run.of_exec as hs, by simpa using h⟩

end OutboxDispatcher.Lib.Runs
