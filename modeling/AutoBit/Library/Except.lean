import Mathlib.Data.List.Basic

/-!
# Inversion of computations that may raise

A program in `Except` succeeds exactly when each of its steps does. These rules turn a
success into the successes of the parts, so that proofs never unfold a bind.
-/

namespace AutoBit.Library

universe u v

variable {ε : Type u} {α β : Type v}

/-- A sequence of two computations succeeds exactly when both do. -/
@[simp] theorem Except.bind_eq_ok {x : Except ε α} {f : α → Except ε β} {b : β} :
    (x >>= f) = .ok b ↔ ∃ a, x = .ok a ∧ f a = .ok b := by
  cases x <;> simp [Bind.bind, Except.bind]

/-- A sequence of two computations has a result exactly when both have one. -/
theorem Except.exists_bind_eq_ok {x : Except ε α} {f : α → Except ε β} :
    (∃ b, (x >>= f) = .ok b) ↔ ∃ a, x = .ok a ∧ ∃ b, f a = .ok b := by
  cases x <;> simp [Bind.bind, Except.bind]

/-- A sequence of two computations raises what the first one raises, or the second. -/
theorem Except.bind_eq_error {x : Except ε α} {f : α → Except ε β} {e : ε} :
    (x >>= f) = .error e ↔ x = .error e ∨ ∃ a, x = .ok a ∧ f a = .error e := by
  cases x <;> simp [Bind.bind, Except.bind]

/-- What is pure returns its value. -/
@[simp] theorem Except.pure_eq_ok {a b : α} : (pure a : Except ε α) = .ok b ↔ a = b := by
  simp [pure, Except.pure]

/-- A mapped computation returns the image of what the computation returns. -/
@[simp] theorem Except.map_eq_ok {x : Except ε α} {f : α → β} {b : β} :
    (f <$> x) = .ok b ↔ ∃ a, x = .ok a ∧ f a = b := by
  cases x <;> simp [Functor.map, Except.map]

/-- A loop of checks succeeds exactly when every check does. -/
theorem Except.forM_eq_ok {items : List α} {check : α → Except ε PUnit} {u : PUnit} :
    forM items check = .ok u ↔ ∀ x ∈ items, check x = .ok ⟨⟩ := by
  induction items with
  | nil => simp
  | cons x items ih =>
    rw [List.forM_cons, Except.bind_eq_ok]
    simp only [ih, List.forall_mem_cons]
    constructor
    · rintro ⟨⟨⟩, hx, hitems⟩
      exact ⟨hx, hitems⟩
    · rintro ⟨hx, hitems⟩
      exact ⟨⟨⟩, hx, hitems⟩

/-- Raise an error when a condition that must not hold does. -/
def reject (condition : Prop) [Decidable condition] (e : ε) : Except ε Unit :=
  if condition then .error e else .ok ()

/-- A rejection passes exactly when its condition fails. -/
@[simp] theorem reject_eq_ok {condition : Prop} [Decidable condition] {e : ε} {u : Unit} :
    reject condition e = .ok u ↔ ¬condition := by
  unfold reject
  split <;> simp_all

/-- A rejection fails exactly when its condition holds, with its error. -/
theorem reject_eq_error {condition : Prop} [Decidable condition] {e e' : ε} :
    reject condition e = .error e' ↔ condition ∧ e = e' := by
  unfold reject
  split <;> simp_all

/-- The value of an option, or an error when there is none. -/
def require (value : Option α) (e : ε) : Except ε α :=
  match value with
  | some a => .ok a
  | none => .error e

/-- A requirement passes exactly when there is a value. -/
@[simp] theorem require_eq_ok {value : Option α} {e : ε} {a : α} :
    require value e = .ok a ↔ value = some a := by
  cases value <;> simp [require]

/-- A computation with another error returns what it returns. -/
@[simp] theorem Except.mapError_eq_ok {ε' : Type u} {x : Except ε α} {f : ε → ε'} {a : α} :
    x.mapError f = .ok a ↔ x = .ok a := by
  cases x <;> simp [Except.mapError]

/-- A computation with another error fails when it fails. -/
theorem Except.mapError_eq_error {ε' : Type u} {x : Except ε α} {f : ε → ε'} {e : ε'} :
    x.mapError f = .error e ↔ ∃ raised, x = .error raised ∧ f raised = e := by
  cases x <;> simp [Except.mapError]

/-- Two computations that return the same values and raise only one error are equal. -/
theorem Except.eq_of_ok_iff {x y : Except ε α} {e : ε} (hok : ∀ a, x = .ok a ↔ y = .ok a)
    (hx : ∀ raised, x = .error raised → raised = e)
    (hy : ∀ raised, y = .error raised → raised = e) : x = y := by
  cases hresult : y with
  | ok a => exact (hok a).mpr hresult
  | error raised =>
    cases hother : x with
    | ok a =>
      rw [(hok a).mp hother] at hresult
      cases hresult
    | error raised' => rw [hx raised' hother, hy raised hresult]

/-- A computation has a value exactly when it returns it. -/
theorem Except.toOption_eq_some {x : Except ε α} {a : α} : x.toOption = some a ↔ x = .ok a := by
  cases x <;> simp [Except.toOption]

/-- A computation is fine exactly when it returns. -/
theorem Except.isOk_iff {x : Except ε α} : x.isOk = true ↔ ∃ a, x = .ok a := by
  cases x <;> simp [Except.isOk, Except.toBool]

/-! ## What a computation may raise -/

section

variable {errors : List ε}

/-- What a computation raises is among the given errors. -/
def RaisesOnly (errors : List ε) (x : Except ε α) : Prop := ∀ e, x = .error e → e ∈ errors

/-- A value raises nothing. -/
theorem RaisesOnly.pure (a : α) : RaisesOnly errors (Pure.pure a : Except ε α) := nofun

/-- A computation that returns raises nothing. -/
theorem RaisesOnly.of_ok {x : Except ε α} {a : α} (h : x = .ok a) : RaisesOnly errors x := by
  rw [h]
  nofun

/-- A sequence raises what its parts raise. -/
theorem RaisesOnly.bind {x : Except ε α} {f : α → Except ε β} (hx : RaisesOnly errors x)
    (hf : ∀ a, x = .ok a → RaisesOnly errors (f a)) : RaisesOnly errors (x >>= f) := by
  intro e he
  rcases Except.bind_eq_error.mp he with hraised | ⟨a, ha, hraised⟩
  · exact hx e hraised
  · exact hf a ha e hraised

/-- A check raises its error. -/
theorem RaisesOnly.reject {condition : Prop} [Decidable condition] {e : ε}
    (h : condition → e ∈ errors) : RaisesOnly errors (reject condition e) := by
  intro raised hraised
  obtain ⟨hcondition, rfl⟩ := reject_eq_error.mp hraised
  exact h hcondition

/-- A missing value raises its error. -/
theorem RaisesOnly.require {value : Option α} {e : ε} (h : e ∈ errors) :
    RaisesOnly errors (require value e) := by
  intro raised hraised
  cases value with
  | none =>
    cases hraised
    exact h
  | some a => cases hraised

end

end AutoBit.Library
