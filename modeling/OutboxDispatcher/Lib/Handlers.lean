import OutboxDispatcher.Lib.Runs

/-! # Handlers of several statements

A handler answers a request by statements on a store that others use at the same time. Each
statement is atomic; between two of them, before the first and after the last the others take what
steps they like, and a statement that fails may have been applied or not.

* `Handler.run` is the handler at once, with the store to itself.
* `Served step h s r s'`: the request comes in the state `s`, and the answer `r` is given in the
  state `s'`.
* `AtOnce` says that the others cannot tell: at some moment between the two the handler could have
  run at once, with this answer and this effect. `Linear` allows for failures: a request that failed
  has done nothing, or all that it does at once.

`served_answer` and `served_stmt` take a request apart statement by statement; `linear_of_single`
settles the handlers of one statement. -/

namespace OutboxDispatcher.Lib.Handlers

open OutboxDispatcher.Lib.Runs

/-- A handler on a store of type `σ`, with answers of type `ρ`. A statement changes the store, and
what comes next depends on what it has found. -/
inductive Handler (σ ρ : Type)
  | answer (r : ρ)
  | stmt (failed : ρ) (effect : σ → σ) (next : σ → Handler σ ρ)

variable {σ α ρ : Type}

/-- The store afterwards and the answer, when nobody else is there. -/
def Handler.run : Handler σ ρ → σ → σ × ρ
  | .answer r, s => (s, r)
  | .stmt _ effect next, s => (next s).run (effect s)

/-- A request and its answer among the steps of others. -/
inductive Served (step : σ → α → Option σ) : Handler σ ρ → σ → ρ → σ → Prop
  | answer (r : ρ) (s : σ) : Served step (.answer r) s r s
  | others {h : Handler σ ρ} {s s₁ s' : σ} {a : α} {r : ρ} (hs : step s a = some s₁)
      (hr : Served step h s₁ r s') : Served step h s r s'
  | stmt {failed r : ρ} {effect : σ → σ} {next : σ → Handler σ ρ} {s s' : σ}
      (hr : Served step (next s) (effect s) r s') : Served step (.stmt failed effect next) s r s'
  | lost {failed : ρ} {effect : σ → σ} {next : σ → Handler σ ρ} {s : σ} :
      Served step (.stmt failed effect next) s failed s
  | unacked {failed : ρ} {effect : σ → σ} {next : σ → Handler σ ρ} {s : σ} :
      Served step (.stmt failed effect next) s failed (effect s)

/-- The handler could have run at once, at some moment between the request and the answer. -/
def AtOnce (step : σ → α → Option σ) (h : Handler σ ρ) (s : σ) (r : ρ) (s' : σ) : Prop :=
  ∃ x, Run step anyStep s x ∧ (h.run x).2 = r ∧ Run step anyStep (h.run x).1 s'

/-- It could have run at once, or it has failed, with nothing or all of it done. -/
def Linear (step : σ → α → Option σ) (failed : ρ) (h : Handler σ ρ) (s : σ) (r : ρ) (s' : σ) :
    Prop :=
  AtOnce step h s r s' ∨
    r = failed ∧ (Run step anyStep s s' ∨ ∃ x, Run step anyStep s x ∧
      Run step anyStep (h.run x).1 s')

/-- Every statement is nothing to the store, or a step that others could take. -/
def Handler.Lawful (step : σ → α → Option σ) : Handler σ ρ → Prop
  | .answer _ => True
  | .stmt _ effect next =>
    (∀ s, effect s = s ∨ ∃ a, step s a = some (effect s)) ∧ ∀ s, (next s).Lawful step

variable {step : σ → α → Option σ} {h : Handler σ ρ} {failed r : ρ} {effect : σ → σ}
  {next : σ → Handler σ ρ} {s s₁ s' : σ} {a : α}

theorem run_of_step (hs : step s a = some s₁) (h : Run step anyStep s₁ s') :
    Run step anyStep s s' :=
  (Run.refl.tail hs trivial).trans h

theorem run_of_effect (h : effect s = s ∨ ∃ a, step s a = some (effect s)) :
    Run step anyStep s (effect s) := by
  rcases h with h | ⟨a, h⟩
  · rw [h]
    exact .refl
  · exact Run.refl.tail h trivial

/-! ### Statement by statement -/

theorem served_answer {r₀ : ρ} (h : Served step (.answer r₀) s r s') :
    r = r₀ ∧ Run step anyStep s s' := by
  generalize hh : Handler.answer r₀ = h₀ at h
  induction h with
  | answer r s =>
    cases hh
    exact ⟨rfl, .refl⟩
  | others hs _ ih =>
    obtain ⟨hr, hrun⟩ := ih hh
    exact ⟨hr, run_of_step hs hrun⟩
  | _ => cases hh

/-- The next statement is made in a state `x`, or it fails there. -/
theorem served_stmt (h : Served step (.stmt failed effect next) s r s') :
    ∃ x, Run step anyStep s x ∧
      (Served step (next x) (effect x) r s' ∨ r = failed ∧ (s' = x ∨ s' = effect x)) := by
  generalize hh : Handler.stmt failed effect next = h₀ at h
  induction h with
  | answer => cases hh
  | others hs _ ih =>
    obtain ⟨x, hrun, hx⟩ := ih hh
    exact ⟨x, run_of_step hs hrun, hx⟩
  | stmt hr =>
    cases hh
    exact ⟨_, .refl, .inl hr⟩
  | lost =>
    cases hh
    exact ⟨_, .refl, .inr ⟨rfl, .inl rfl⟩⟩
  | unacked =>
    cases hh
    exact ⟨_, .refl, .inr ⟨rfl, .inr rfl⟩⟩

/-- **A request is a run of the system.** -/
theorem run_of_served (hl : h.Lawful step) (hr : Served step h s r s') : Run step anyStep s s' := by
  induction hr with
  | answer => exact .refl
  | others hs _ ih => exact run_of_step hs (ih hl)
  | stmt _ ih => exact (run_of_effect (hl.1 _)).trans (ih (hl.2 _))
  | lost => exact .refl
  | unacked => exact run_of_effect (hl.1 _)

/-! ### One statement -/

theorem linear_of_answer {r₀ : ρ} (h : Served step (.answer r₀) s r s') :
    Linear step failed (.answer r₀) s r s' := by
  obtain ⟨rfl, hrun⟩ := served_answer h
  exact .inl ⟨s, .refl, rfl, hrun⟩

/-- A handler of one statement runs at once when the statement does. -/
theorem linear_of_single {f : σ → ρ}
    (h : Served step (.stmt failed effect fun s => .answer (f s)) s r s') :
    Linear step failed (.stmt failed effect fun s => .answer (f s)) s r s' := by
  obtain ⟨x, hrun, hnext | ⟨rfl, rfl | rfl⟩⟩ := served_stmt h
  · obtain ⟨rfl, hrun'⟩ := served_answer hnext
    exact .inl ⟨x, hrun, rfl, hrun'⟩
  · exact .inr ⟨rfl, .inl hrun⟩
  · exact .inr ⟨rfl, .inr ⟨x, hrun, .refl⟩⟩

end OutboxDispatcher.Lib.Handlers
