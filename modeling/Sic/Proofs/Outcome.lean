/-!
# Computations that may fail

What a result or an error of a computation says about the steps it was made of.

* `map_eq_ok_iff`, `map_eq_error_iff` and `bind_eq_ok_iff` take single steps apart.
* `exists_foldlM_of_error` and `mapM_eq_error_iff` are about runs over a list: one that fails has
  come to an element that cannot be taken, and has taken all elements before it.
-/

set_option autoImplicit false

namespace Sic

section Step

variable {ε α β : Type}

theorem map_eq_ok_iff {f : α → β} {r : Except ε α} {y : β} :
    r.map f = .ok y ↔ ∃ x, r = .ok x ∧ f x = y := by
  cases r <;> simp [Except.map]

theorem map_eq_error_iff {f : α → β} {r : Except ε α} {e : ε} :
    r.map f = .error e ↔ r = .error e := by
  cases r <;> simp [Except.map]

theorem bind_eq_ok_iff {x : Except ε α} {f : α → Except ε β} {y : β} :
    x >>= f = .ok y ↔ ∃ a, x = .ok a ∧ f a = .ok y := by
  cases x <;> simp [bind, Except.bind]

theorem exists_ok_of_toOption {r : Except ε α} {f : α → β} {y : β}
    (h : r.toOption.map f = some y) : ∃ x, r = .ok x ∧ f x = y := by
  cases r with
  | error e => cases h
  | ok x => exact ⟨x, rfl, Option.some_inj.mp h⟩

end Step

section Run

variable {ε σ α β : Type}

/-- **A pass that fails** has come to an element that cannot be taken in. -/
theorem exists_foldlM_of_error {step : σ → α → Except ε σ} {xs : List α} {a : σ} {e : ε}
    (h : xs.foldlM step a = .error e) :
    ∃ before x behind b, xs = before ++ x :: behind ∧ before.foldlM step a = .ok b ∧
      step b x = .error e := by
  induction xs generalizing a with
  | nil => cases h
  | cons x xs ih =>
    rw [List.foldlM_cons] at h
    cases hstep : step a x with
    | error e' =>
      rw [hstep] at h
      cases h
      exact ⟨[], x, xs, a, rfl, rfl, hstep⟩
    | ok a' =>
      rw [hstep] at h
      obtain ⟨before, y, behind, b, rfl, hbefore, hy⟩ := ih h
      refine ⟨x :: before, y, behind, b, rfl, ?_, hy⟩
      rw [List.foldlM_cons, hstep]
      exact hbefore

/-- Behind elements that have been taken in, a pass goes on from what they lead to. -/
theorem foldlM_append_of_ok {step : σ → α → Except ε σ} {xs : List α} {a b : σ}
    (h : xs.foldlM step a = .ok b) (ys : List α) :
    (xs ++ ys).foldlM step a = ys.foldlM step b := by
  rw [List.foldlM_append, h]
  rfl

theorem mapM_cons_eq_error_iff {f : α → Except ε β} {x : α} {xs : List α} {e : ε} :
    (x :: xs).mapM f = .error e ↔ f x = .error e ∨ (∃ y, f x = .ok y) ∧ xs.mapM f = .error e := by
  rw [List.mapM_cons]
  cases f x with
  | error e' => simp [bind, Except.bind]
  | ok y => cases xs.mapM f <;> simp [bind, Except.bind, pure, Except.pure]

/-- **When mapping fails**: its error is that of the first element that has one. -/
theorem mapM_eq_error_iff {f : α → Except ε β} {xs : List α} {e : ε} :
    xs.mapM f = .error e ↔
      ∃ before x behind, xs = before ++ x :: behind ∧ (∀ y ∈ before, ∃ z, f y = .ok z) ∧
        f x = .error e := by
  constructor
  · intro h
    induction xs with
    | nil => cases h
    | cons x xs ih =>
      rcases mapM_cons_eq_error_iff.mp h with hx | ⟨hx, hxs⟩
      · exact ⟨[], x, xs, rfl, by simp, hx⟩
      · obtain ⟨before, y, behind, rfl, hbefore, hy⟩ := ih hxs
        exact ⟨x :: before, y, behind, rfl, List.forall_mem_cons.mpr ⟨hx, hbefore⟩, hy⟩
  · rintro ⟨before, x, behind, rfl, hbefore, hx⟩
    induction before with
    | nil => exact mapM_cons_eq_error_iff.mpr (Or.inl hx)
    | cons y before ih =>
      obtain ⟨hy, hbefore⟩ := List.forall_mem_cons.mp hbefore
      exact mapM_cons_eq_error_iff.mpr (Or.inr ⟨hy, ih hbefore⟩)

end Run

end Sic
