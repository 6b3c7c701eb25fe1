import Mathlib.Tactic.Common

/-! # Checks that may fail

A validator is a chain of checks in `Except`: a value that must be present (`okOr`), a condition
that rejects (`rejectIf`), other validators. The rules below invert such a chain: one that ends in a
value has passed every check, one that fails has failed at one of them. What all errors of a chain
have in common is shown along the chain (`FailsWith`).

Of a list of verdicts, `Sum.inl` for a value and `Sum.inr` for a failure, the values and the
failures are the two parts. -/

namespace OutboxDispatcher.Lib.Checks

variable {ε ε' α β : Type}

/-- `Option::ok_or`. -/
def okOr (x : Option α) (e : ε) : Except ε α := x.elim (.error e) .ok

/-- An early return with the error `e`. -/
def rejectIf (p : Prop) [Decidable p] (e : ε) : Except ε Unit := if p then .error e else .ok ()

@[simp] theorem bind_eq_ok {x : Except ε α} {f : α → Except ε β} {b : β} :
    (x >>= f) = .ok b ↔ ∃ a, x = .ok a ∧ f a = .ok b := by
  cases x with
  | error e => simp [bind, Except.bind]
  | ok a => simp [bind, Except.bind]

/-- A failure of the chain is a failure of the first check or of what follows it. -/
@[simp] theorem bind_eq_error {x : Except ε α} {f : α → Except ε β} {e : ε} :
    (x >>= f) = .error e ↔ x = .error e ∨ ∃ a, x = .ok a ∧ f a = .error e := by
  cases x with
  | error e => simp [bind, Except.bind]
  | ok a => simp [bind, Except.bind]

theorem eq_ok_of_toOption {x : Except ε α} {a : α} (h : x.toOption = some a) : x = .ok a := by
  cases x with
  | ok b => exact congrArg Except.ok (Option.some.inj h)
  | error => cases h

@[simp] theorem map_eq_ok {x : Except ε α} {f : α → β} {b : β} :
    f <$> x = .ok b ↔ ∃ a, x = .ok a ∧ f a = b := by
  cases x with
  | error e => simp [Functor.map, Except.map]
  | ok a => simp [Functor.map, Except.map]

@[simp] theorem mapError_eq_ok {x : Except ε α} {f : ε → ε'} {a : α} :
    x.mapError f = .ok a ↔ x = .ok a := by
  cases x <;> simp [Except.mapError]

@[simp] theorem mapError_eq_error {x : Except ε α} {f : ε → ε'} {e' : ε'} :
    x.mapError f = .error e' ↔ ∃ e, x = .error e ∧ f e = e' := by
  cases x <;> simp [Except.mapError]

@[simp] theorem okOr_eq_ok {x : Option α} {e : ε} {a : α} : okOr x e = .ok a ↔ x = some a := by
  cases x <;> simp [okOr]

@[simp] theorem okOr_eq_error {x : Option α} {e e' : ε} :
    okOr x e = .error e' ↔ x = none ∧ e = e' := by
  cases x <;> simp [okOr]

@[simp] theorem rejectIf_eq_ok {p : Prop} [Decidable p] {e : ε} {u : Unit} :
    rejectIf p e = .ok u ↔ ¬p := by
  by_cases h : p <;> simp [rejectIf, h]

@[simp] theorem rejectIf_eq_error {p : Prop} [Decidable p] {e e' : ε} :
    rejectIf p e = .error e' ↔ p ∧ e = e' := by
  by_cases h : p <;> simp [rejectIf, h]

@[simp] theorem pure_eq_ok {a b : α} : (pure a : Except ε α) = .ok b ↔ a = b := by
  simp [pure, Except.pure]

@[simp] theorem pure_ne_error {a : α} {e : ε} : (pure a : Except ε α) ≠ .error e := by
  simp [pure, Except.pure]

/-- A check of every element that ends well has passed on each, and returns nothing else. -/
theorem mem_of_mapM {f : α → Except ε β} {l : List α} {r : List β} (h : l.mapM f = .ok r) :
    (∀ a ∈ l, ∃ b ∈ r, f a = .ok b) ∧ ∀ b ∈ r, ∃ a ∈ l, f a = .ok b := by
  induction l generalizing r with
  | nil =>
    rw [List.mapM_nil, pure_eq_ok] at h
    subst h
    simp
  | cons a l ih =>
    simp only [List.mapM_cons, bind_eq_ok, pure_eq_ok] at h
    obtain ⟨b, hb, r, hr, rfl⟩ := h
    obtain ⟨hleft, hright⟩ := ih hr
    refine ⟨List.forall_mem_cons.mpr ⟨⟨b, List.mem_cons_self, hb⟩, fun a ha => ?_⟩,
      List.forall_mem_cons.mpr ⟨⟨a, List.mem_cons_self, hb⟩, fun b hb => ?_⟩⟩
    · obtain ⟨b, hb, heq⟩ := hleft a ha
      exact ⟨b, List.mem_cons_of_mem _ hb, heq⟩
    · obtain ⟨a, ha, heq⟩ := hright b hb
      exact ⟨a, List.mem_cons_of_mem _ ha, heq⟩

/-! ### What the errors have in common -/

/-- Every error of the check satisfies `P`. -/
def FailsWith (P : ε → Prop) (x : Except ε α) : Prop := ∀ e, x = .error e → P e

namespace FailsWith

variable {P : ε → Prop} {x : Except ε α} {e : ε}

theorem ok (a : α) : FailsWith P (.ok a : Except ε α) := fun e h => by cases h

theorem error (h : P e) : FailsWith P (.error e : Except ε α) := fun e' he => by
  cases he
  exact h

theorem okOr (o : Option α) (h : P e) : FailsWith P (okOr o e) := by
  cases o with
  | none => exact error h
  | some a => exact ok a

theorem rejectIf (p : Prop) [Decidable p] (h : P e) : FailsWith P (rejectIf p e) := by
  by_cases hp : p
  · rw [Checks.rejectIf, if_pos hp]
    exact error h
  · rw [Checks.rejectIf, if_neg hp]
    exact ok ()

theorem bind {f : α → Except ε β} (hx : FailsWith P x) (hf : ∀ a, FailsWith P (f a)) :
    FailsWith P (x >>= f) := by
  intro e he
  rcases bind_eq_error.mp he with he | ⟨a, -, he⟩
  · exact hx e he
  · exact hf a e he

theorem map {f : α → β} (hx : FailsWith P x) : FailsWith P (f <$> x) := by
  cases x with
  | error e => exact error (hx e rfl)
  | ok a => exact ok (f a)

theorem mapError {P' : ε' → Prop} {f : ε → ε'} (hx : FailsWith (fun e => P' (f e)) x) :
    FailsWith P' (x.mapError f) := by
  intro e' he'
  obtain ⟨e, he, rfl⟩ := mapError_eq_error.mp he'
  exact hx e he

theorem mapM {f : α → Except ε β} (hf : ∀ a, FailsWith P (f a)) (l : List α) :
    FailsWith P (l.mapM f) := by
  induction l with
  | nil => exact ok []
  | cons a l ih =>
    rw [List.mapM_cons]
    exact (hf a).bind fun b => ih.bind fun r => ok (b :: r)

end FailsWith

/-! ### Lists of verdicts -/

section Verdicts

variable {γ : Type}

theorem length_split (l : List (α ⊕ β)) :
    (l.filterMap Sum.getLeft?).length + (l.filterMap Sum.getRight?).length = l.length := by
  induction l with
  | nil => rfl
  | cons x l ih =>
    cases x with
    | inl a =>
      simp only [List.filterMap_cons, Sum.getLeft?_inl, Sum.getRight?_inl, List.length_cons]
      omega
    | inr b =>
      simp only [List.filterMap_cons, Sum.getLeft?_inr, Sum.getRight?_inr, List.length_cons]
      omega

theorem perm_split (f : α → γ) (g : β → γ) (l : List (α ⊕ β)) :
    ((l.filterMap Sum.getLeft?).map f ++ (l.filterMap Sum.getRight?).map g).Perm
      (l.map (Sum.elim f g)) := by
  induction l with
  | nil => exact .nil
  | cons x l ih =>
    cases x with
    | inl a => simpa [List.filterMap_cons] using ih.cons (f a)
    | inr b =>
      have hmid :
          ((l.filterMap Sum.getLeft?).map f ++ g b :: (l.filterMap Sum.getRight?).map g).Perm
          (g b :: ((l.filterMap Sum.getLeft?).map f ++ (l.filterMap Sum.getRight?).map g)) :=
        List.perm_middle
      simpa [List.filterMap_cons] using hmid.trans (ih.cons (g b))

end Verdicts

end OutboxDispatcher.Lib.Checks
