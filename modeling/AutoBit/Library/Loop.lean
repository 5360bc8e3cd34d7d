import AutoBit.Library.Except
import Mathlib.Data.List.Forall2

/-!
# Loops that may raise

A loop over a growing list: what it does on the list so far is not affected by what comes
later, an invariant of one round is an invariant of the loop, and rounds that agree on
every element give loops that agree.
-/

namespace AutoBit.Library

universe u v

variable {ε : Type u} {α β σ : Type v}

/-- A loop over two lists in a row succeeds exactly when both halves do. -/
theorem foldlM_append_eq_ok {f : σ → α → Except ε σ} {xs ys : List α} {s s' : σ} :
    (xs ++ ys).foldlM f s = .ok s' ↔ ∃ t, xs.foldlM f s = .ok t ∧ ys.foldlM f t = .ok s' := by
  rw [List.foldlM_append, Except.bind_eq_ok]

/-- A loop over a list with one more element succeeds exactly when its last round does. -/
theorem foldlM_snoc_eq_ok {f : σ → α → Except ε σ} {xs : List α} {x : α} {s s' : σ} :
    (xs ++ [x]).foldlM f s = .ok s' ↔ ∃ t, xs.foldlM f s = .ok t ∧ f t x = .ok s' := by
  simp

/-- What every round preserves, the loop preserves. -/
theorem foldlM_invariant {f : σ → α → Except ε σ} (P : σ → Prop) {xs : List α} {s s' : σ}
    (hstep : ∀ t t', ∀ x ∈ xs, P t → f t x = .ok t' → P t') (hstart : P s)
    (h : xs.foldlM f s = .ok s') : P s' := by
  induction xs generalizing s with
  | nil =>
    cases h
    exact hstart
  | cons x xs ih =>
    rw [List.foldlM_cons, Except.bind_eq_ok] at h
    obtain ⟨t, hx, hxs⟩ := h
    have ht := hstep s t x (by simp) hstart hx
    exact ih (fun t t' y hy => hstep t t' y (by simp [hy])) ht hxs

/-- When every round succeeds and preserves an invariant, so does the loop. -/
theorem foldlM_succeeds {f : σ → α → Except ε σ} (P : σ → Prop) {xs : List α} {s : σ}
    (hstep : ∀ t, ∀ x ∈ xs, P t → ∃ t', f t x = .ok t' ∧ P t') (hstart : P s) :
    ∃ s', xs.foldlM f s = .ok s' ∧ P s' := by
  induction xs generalizing s with
  | nil => exact ⟨s, rfl, hstart⟩
  | cons x xs ih =>
    obtain ⟨t, hx, ht⟩ := hstep s x (by simp) hstart
    obtain ⟨s', hxs, hs'⟩ := ih (fun t y hy => hstep t y (by simp [hy])) ht
    exact ⟨s', by rw [List.foldlM_cons, hx]; exact hxs, hs'⟩

/-- A loop raises what its rounds raise. -/
theorem RaisesOnly.foldlM {errors : List ε} {f : σ → α → Except ε σ}
    (h : ∀ s x, RaisesOnly errors (f s x)) {xs : List α} {s : σ} :
    RaisesOnly errors (xs.foldlM f s) := by
  induction xs generalizing s with
  | nil => exact .pure s
  | cons x xs ih =>
    rw [List.foldlM_cons]
    exact .bind (h s x) fun _ _ => ih

/-- A loop that keeps a relation to another one goes wherever the other one goes. -/
theorem foldlM_simulates {τ : Type v} {R : σ → τ → Prop} {f : σ → α → Except ε σ}
    {g : τ → α → Except ε τ}
    (hround : ∀ s t x t', R s t → g t x = .ok t' → ∃ s', f s x = .ok s' ∧ R s' t')
    {xs : List α} {s : σ} {t t' : τ} (hR : R s t) (h : xs.foldlM g t = .ok t') :
    ∃ s', xs.foldlM f s = .ok s' ∧ R s' t' := by
  induction xs generalizing s t with
  | nil =>
    cases h
    exact ⟨s, rfl, hR⟩
  | cons x xs ih =>
    obtain ⟨next, hnext, hrest⟩ := Except.bind_eq_ok.mp h
    obtain ⟨s₁, hs₁, hR₁⟩ := hround s t x next hR hnext
    obtain ⟨s', hs', hR'⟩ := ih hR₁ hrest
    exact ⟨s', Except.bind_eq_ok.mpr ⟨s₁, hs₁, hs'⟩, hR'⟩

/-- Every round of a loop that succeeds does. -/
theorem foldlM_round {f : σ → α → Except ε σ} {xs : List α} {s s' : σ}
    (h : xs.foldlM f s = .ok s') {x : α} (hx : x ∈ xs) : ∃ t t', f t x = .ok t' := by
  obtain ⟨before, after, rfl⟩ := List.append_of_mem hx
  obtain ⟨t, -, hrest⟩ := foldlM_append_eq_ok.mp h
  rw [List.foldlM_cons, Except.bind_eq_ok] at hrest
  obtain ⟨t', hround, -⟩ := hrest
  exact ⟨t, t', hround⟩

/-- When every round that succeeds for one function does for another, so does the loop. -/
theorem foldlM_mono {f g : σ → α → Except ε σ} {xs : List α} {s s' : σ}
    (hround : ∀ x ∈ xs, ∀ t t', f t x = .ok t' → g t x = .ok t')
    (h : xs.foldlM f s = .ok s') : xs.foldlM g s = .ok s' := by
  induction xs generalizing s with
  | nil => exact h
  | cons x xs ih =>
    rw [List.foldlM_cons, Except.bind_eq_ok] at h ⊢
    obtain ⟨t, hx, hxs⟩ := h
    exact ⟨t, hround x (by simp) s t hx, ih (fun y hy => hround y (by simp [hy])) hxs⟩

/-- A list of computations succeeds exactly when each of them does. -/
theorem mapM_eq_ok {f : α → Except ε β} {xs : List α} {ys : List β} :
    xs.mapM f = .ok ys ↔ List.Forall₂ (fun x y => f x = .ok y) xs ys := by
  induction xs generalizing ys with
  | nil =>
    rw [List.mapM_nil, Except.pure_eq_ok, List.forall₂_nil_left_iff]
    exact eq_comm
  | cons x xs ih =>
    rw [List.mapM_cons, Except.bind_eq_ok]
    simp only [Except.bind_eq_ok, Except.pure_eq_ok, ih, List.forall₂_cons_left_iff]
    constructor
    · rintro ⟨y, hy, ys', hys, rfl⟩
      exact ⟨y, ys', hy, hys, rfl⟩
    · rintro ⟨y, ys', hy, hys, rfl⟩
      exact ⟨y, hy, ys', hys, rfl⟩

/-- The error of a traversal is the error of one of its items. -/
theorem mapM_eq_error {f : α → Except ε β} {xs : List α} {e : ε} (h : xs.mapM f = .error e) :
    ∃ x ∈ xs, f x = .error e := by
  induction xs with
  | nil => cases h
  | cons x xs ih =>
    rw [List.mapM_cons] at h
    rcases Except.bind_eq_error.mp h with hx | ⟨y, -, hrest⟩
    · exact ⟨x, List.mem_cons_self, hx⟩
    · rcases Except.bind_eq_error.mp hrest with hxs | ⟨ys, -, hnone⟩
      · obtain ⟨x', hx', herror⟩ := ih hxs
        exact ⟨x', List.mem_cons_of_mem x hx', herror⟩
      · cases hnone

/-- An optional computation succeeds exactly when it is absent or succeeds. -/
theorem optionMapM_eq_ok {f : α → Except ε β} {x : Option α} {y : Option β} :
    x.mapM f = .ok y ↔ x = none ∧ y = none ∨ ∃ a b, x = some a ∧ f a = .ok b ∧ y = some b := by
  cases x with
  | none =>
    have hnone : (none : Option α).mapM f = pure none := rfl
    rw [hnone, Except.pure_eq_ok]
    simp [eq_comm]
  | some a =>
    have hsome : (some a).mapM f = some <$> f a := rfl
    rw [hsome, Except.map_eq_ok]
    simp [eq_comm]

/-- An element of the right list stands against an element of the left one. -/
theorem forall₂_exists_left {R : α → β → Prop} {xs : List α} {ys : List β}
    (h : List.Forall₂ R xs ys) {y : β} (hy : y ∈ ys) : ∃ x ∈ xs, R x y := by
  induction h with
  | nil => cases hy
  | cons hhead _ ih =>
    rcases List.mem_cons.mp hy with rfl | htail
    · exact ⟨_, by simp, hhead⟩
    · obtain ⟨x, hx, hxy⟩ := ih htail
      exact ⟨x, by simp [hx], hxy⟩

/-- Lists whose elements correspond in one way correspond in another that follows. -/
theorem forall₂_imp_mem {R S : α → β → Prop} {xs : List α} {ys : List β}
    (h : List.Forall₂ R xs ys) (himp : ∀ x ∈ xs, ∀ y ∈ ys, R x y → S x y) :
    List.Forall₂ S xs ys := by
  induction h with
  | nil => exact List.Forall₂.nil
  | cons hhead _ ih =>
    exact List.Forall₂.cons (himp _ (by simp) _ (by simp) hhead)
      (ih fun x hx y hy => himp x (by simp [hx]) y (by simp [hy]))

/-- An element of the left list stands against an element of the right one. -/
theorem forall₂_exists_right {R : α → β → Prop} {xs : List α} {ys : List β}
    (h : List.Forall₂ R xs ys) {x : α} (hx : x ∈ xs) : ∃ y ∈ ys, R x y :=
  forall₂_exists_left h.flip hx

/-- Lists whose elements correspond have the same image when corresponding elements do. -/
theorem map_eq_of_forall₂ {γ : Type v} {f : α → γ} {g : β → γ} {xs : List α} {ys : List β}
    (h : List.Forall₂ (fun x y => f x = g y) xs ys) : xs.map f = ys.map g := by
  rw [← List.forall₂_eq_eq_eq, List.forall₂_map_left_iff, List.forall₂_map_right_iff]
  exact h

/-- What stands against a list with one more element has one more element itself. -/
theorem forall₂_snoc_left {R : α → β → Prop} {xs : List α} {x : α} {ys : List β}
    (h : List.Forall₂ R (xs ++ [x]) ys) :
    ∃ ys' y, ys = ys' ++ [y] ∧ List.Forall₂ R xs ys' ∧ R x y := by
  induction xs generalizing ys with
  | nil =>
    obtain ⟨y, rest, hy, hrest, rfl⟩ := List.forall₂_cons_left_iff.mp h
    obtain rfl := List.forall₂_nil_left_iff.mp hrest
    exact ⟨[], y, rfl, List.Forall₂.nil, hy⟩
  | cons first xs ih =>
    obtain ⟨y, rest, hfirst, hrest, rfl⟩ := List.forall₂_cons_left_iff.mp h
    obtain ⟨ys', last, rfl, hinit, hlast⟩ := ih hrest
    exact ⟨y :: ys', last, rfl, List.Forall₂.cons hfirst hinit, hlast⟩

end AutoBit.Library
