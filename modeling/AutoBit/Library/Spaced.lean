import Mathlib.Data.List.Chain
import Mathlib.Data.List.Sort
import Mathlib.Order.Basic

/-!
# Evenly spaced numbers

A list whose items come at one positive distance after the other is sorted and repeats
nothing. The successor of an item is an item too, unless the item is the last one.
-/

namespace AutoBit.Library

variable {step : ℤ} {xs : List ℤ} {x : ℤ}

/-- Each item comes at the distance `step` after the one before it. -/
def Spaced (step : ℤ) (xs : List ℤ) : Prop := xs.IsChain fun before after => after = before + step

/-- The empty list is spaced. -/
theorem spaced_nil : Spaced step [] := List.isChain_nil

/-- One more item at the end. -/
theorem spaced_snoc : Spaced step (xs ++ [x]) ↔
    Spaced step xs ∧ ∀ last ∈ xs.getLast?, x = last + step := by
  simp only [Spaced, List.isChain_append]
  constructor
  · rintro ⟨hchain, -, hlast⟩
    exact ⟨hchain, fun last hmem => hlast last hmem x (by simp)⟩
  · rintro ⟨hchain, hlast⟩
    refine ⟨hchain, List.isChain_singleton x, fun last hmem first hfirst => ?_⟩
    obtain rfl : x = first := by simpa using hfirst
    exact hlast last hmem

/-- The beginning of a spaced list is spaced. -/
theorem Spaced.left {ys : List ℤ} (h : Spaced step (xs ++ ys)) : Spaced step xs :=
  (List.isChain_append.mp h).1

section Positive

variable (hstep : 0 < step) (h : Spaced step xs)
include hstep h

/-- A spaced list increases. -/
theorem Spaced.pairwise : xs.Pairwise (· < ·) := by
  refine List.isChain_iff_pairwise.mp (h.imp ?_)
  intro before after hafter
  omega

/-- A spaced list has no duplicates. -/
theorem Spaced.nodup : xs.Nodup := (h.pairwise hstep).imp fun hlt => ne_of_lt hlt

/-- A spaced list is sorted. -/
theorem Spaced.insertionSort_eq : xs.insertionSort (· ≤ ·) = xs :=
  List.Pairwise.insertionSort_eq ((h.pairwise hstep).imp fun hlt => le_of_lt hlt)

/-- Nothing comes after the last item. -/
theorem Spaced.le_last {last : ℤ} (hlast : last ∈ xs.getLast?) (hx : x ∈ xs) : x ≤ last := by
  obtain ⟨init, rfl⟩ := List.getLast?_eq_some_iff.mp hlast
  rcases List.mem_append.mp hx with hinit | hend
  · exact ((List.pairwise_append.mp (h.pairwise hstep)).2.2 x hinit last (by simp)).le
  · exact (List.mem_singleton.mp hend).le

omit hstep in
/-- An item is the last one, or its successor is an item. -/
theorem Spaced.succ_mem (hx : x ∈ xs) : xs.getLast? = some x ∨ x + step ∈ xs := by
  induction xs with
  | nil => cases hx
  | cons first rest ih =>
    cases rest with
    | nil =>
      rw [List.mem_singleton.mp hx]
      exact Or.inl rfl
    | cons second rest =>
      obtain ⟨rfl, hrest⟩ := List.isChain_cons_cons.mp h
      rcases List.mem_cons.mp hx with rfl | hlater
      · exact Or.inr (by simp)
      · rcases ih hrest hlater with hlast | hmem
        · exact Or.inl (by rw [List.getLast?_cons_cons, hlast])
        · exact Or.inr (List.mem_cons_of_mem _ hmem)

omit hstep in
/-- The distance of each two neighbours. -/
theorem Spaced.zip_tail : ∀ pair ∈ xs.zip xs.tail, pair.2 - pair.1 = step := by
  induction xs with
  | nil => simp
  | cons first rest ih =>
    cases rest with
    | nil => simp
    | cons second rest =>
      obtain ⟨hfirst, hrest⟩ := List.isChain_cons_cons.mp h
      intro pair hpair
      rcases List.mem_cons.mp hpair with rfl | hlater
      · simp only
        omega
      · exact ih hrest pair hlater

end Positive

end AutoBit.Library
