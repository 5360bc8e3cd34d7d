import Mathlib.Algebra.Order.Field.Basic
import Mathlib.Data.List.MinMax
import Mathlib.Order.Bounds.Basic
import Mathlib.Tactic.Linarith

/-!
# Peaks, falls and runs

A scan of a series keeps its peak. A fall leads from a value to a later one, relative to the
first of them; the deepest fall to a new value is the one from the peak. A scan of points keeps
the length of the run that is going on and of the longest one.
-/

namespace AutoBit.Library

universe u

/-! ## Falls -/

section Falls

variable {K : Type u} [Field K] [LinearOrder K]

/-- The falls of a series from a positive value to a later one, with zero among them. -/
def falls (values : List K) : Set K :=
  {fall | fall = 0 ∨ ∃ (i j : ℕ) (earlier later : K), i < j ∧ values[i]? = some earlier ∧
    values[j]? = some later ∧ 0 < earlier ∧ fall = (earlier - later) / earlier}

/-- A fall with one more value is one of before, or leads to the new value. -/
theorem mem_falls_snoc {values : List K} {value fall : K} (h : fall ∈ falls (values ++ [value])) :
    fall ∈ falls values ∨
      ∃ earlier ∈ values, 0 < earlier ∧ fall = (earlier - value) / earlier := by
  rcases h with hzero | ⟨i, j, earlier, later, hij, hi, hj, hpos, hfall⟩
  · exact .inl (.inl hzero)
  have hjlen := (List.getElem?_eq_some_iff.mp hj).1
  rw [List.length_append, List.length_singleton] at hjlen
  rw [List.getElem?_append_left (by omega)] at hi
  by_cases hlast : j < values.length
  · rw [List.getElem?_append_left hlast] at hj
    exact .inl (.inr ⟨i, j, earlier, later, hij, hi, hj, hpos, hfall⟩)
  · have hj' : j = values.length := by omega
    subst hj'
    rw [List.getElem?_concat_length] at hj
    cases hj
    exact .inr ⟨earlier, List.mem_of_getElem? hi, hpos, hfall⟩

/-- A fall stays one when a value is added. -/
theorem falls_subset_snoc (values : List K) (value : K) :
    falls values ⊆ falls (values ++ [value]) := by
  rintro fall (hzero | ⟨i, j, earlier, later, hij, hi, hj, hpos, hfall⟩)
  · exact .inl hzero
  · have hkept : ∀ (k : ℕ) (found : K), values[k]? = some found →
        (values ++ [value])[k]? = some found := fun k found hk =>
      (List.getElem?_append_left (List.getElem?_eq_some_iff.mp hk).1).trans hk
    exact .inr ⟨i, j, earlier, later, hij, hkept i earlier hi, hkept j later hj, hpos, hfall⟩

variable [IsStrictOrderedRing K]

/-- A value that is a peak makes no fall deeper. -/
theorem isGreatest_falls_peak {values : List K} {deepest value : K}
    (h : IsGreatest (falls values) deepest) (hpeak : ∀ earlier ∈ values, earlier ≤ value) :
    IsGreatest (falls (values ++ [value])) deepest := by
  refine ⟨falls_subset_snoc values value h.1, ?_⟩
  intro fall hfall
  rcases mem_falls_snoc hfall with hold | ⟨earlier, hmem, hpos, rfl⟩
  · exact h.2 hold
  · have hzero : (0 : K) ≤ deepest := h.2 (.inl rfl)
    have hrise : earlier - value ≤ 0 := sub_nonpos.mpr (hpeak earlier hmem)
    exact (div_nonpos_of_nonpos_of_nonneg hrise hpos.le).trans hzero

/-- The deepest fall to a value below the peak is the one from the peak. -/
theorem isGreatest_falls_below {values : List K} {deepest peak value : K}
    (h : IsGreatest (falls values) deepest) (hmem : peak ∈ values)
    (hpeak : ∀ earlier ∈ values, earlier ≤ peak) (hnonneg : 0 ≤ value) (hbelow : value < peak) :
    IsGreatest (falls (values ++ [value])) (max deepest ((peak - value) / peak)) := by
  have hpos : 0 < peak := hnonneg.trans_lt hbelow
  constructor
  · rcases max_choice deepest ((peak - value) / peak) with hmax | hmax
    · rw [hmax]
      exact falls_subset_snoc values value h.1
    · rw [hmax]
      obtain ⟨i, hi⟩ := List.mem_iff_getElem?.mp hmem
      have hlt := (List.getElem?_eq_some_iff.mp hi).1
      exact .inr ⟨i, values.length, peak, value, hlt,
        (List.getElem?_append_left hlt).trans hi, List.getElem?_concat_length, hpos, rfl⟩
  · intro fall hfall
    rcases mem_falls_snoc hfall with hold | ⟨earlier, hearlier, hpositive, rfl⟩
    · exact (h.2 hold).trans (le_max_left _ _)
    · refine le_trans ?_ (le_max_right _ _)
      rw [div_le_div_iff₀ hpositive hpos]
      have hle := mul_le_mul_of_nonneg_left (hpeak earlier hearlier) hnonneg
      nlinarith [hle]

end Falls

/-! ## Points below a peak -/

section Below

variable {α : Type u} [LinearOrder α]

/-- The point is strictly below the maximum of the points before it. -/
def Below (values : List α) (j : ℕ) : Prop :=
  ∃ value, values[j]? = some value ∧ (value : WithBot α) < (values.take j).maximum

/-- A point keeps its place below the peak when values are added. -/
theorem below_append {values rest : List α} {j : ℕ} (hj : j < values.length) :
    Below (values ++ rest) j ↔ Below values j := by
  rw [Below, Below, List.getElem?_append_left hj, List.take_append_of_le_length hj.le]

/-- A new point is below the maximum of the others, or it is not. -/
theorem below_snoc {values : List α} {peak value : α} (hpeak : values.maximum = peak) :
    Below (values ++ [value]) values.length ↔ value < peak := by
  rw [Below, List.getElem?_concat_length, List.take_left, hpeak]
  simp

end Below

/-! ## Runs -/

/-- The lengths of the runs of points with a property among the first ones. -/
def runLengths (p : ℕ → Prop) (count : ℕ) : Set ℕ :=
  {n | ∃ start, start + n ≤ count ∧ ∀ j, start ≤ j → j < start + n → p j}

/-- What a scan knows of the first points: the length of the run at their end, and that of the
longest run. -/
structure Runs (p : ℕ → Prop) (count current longest : ℕ) : Prop where
  le : current ≤ count
  trailing : ∀ j, count - current ≤ j → j < count → p j
  maximal : ∀ start ≤ count, (∀ j, start ≤ j → j < count → p j) → count - start ≤ current
  longest : IsGreatest (runLengths p count) longest

/-- Before the first point there is no run. -/
theorem Runs.start (p : ℕ → Prop) : Runs p 0 0 0 := by
  refine ⟨le_rfl, fun j _ hj => absurd hj (Nat.not_lt_zero j), fun start _ _ => by omega, ?_⟩
  refine ⟨⟨0, le_rfl, fun j _ hj => absurd hj (Nat.not_lt_zero j)⟩, ?_⟩
  rintro n ⟨start, hle, -⟩
  omega

/-- A run that ends before the new point is one of before. -/
theorem runLengths_succ {p : ℕ → Prop} {count n : ℕ} (h : n ∈ runLengths p (count + 1)) :
    n ∈ runLengths p count ∨
      ∃ start ≤ count, n = count + 1 - start ∧ ∀ j, start ≤ j → j < count + 1 → p j := by
  obtain ⟨start, hle, hrun⟩ := h
  by_cases hends : start + n ≤ count
  · exact .inl ⟨start, hends, hrun⟩
  · by_cases hempty : n = 0
    · subst hempty
      exact .inl ⟨0, by omega, fun j _ hj => by omega⟩
    · exact .inr ⟨start, by omega, by omega, fun j hj hlt => hrun j hj (by omega)⟩

/-- A point with the property makes the run at the end longer. -/
theorem Runs.hold {p : ℕ → Prop} {count current longest : ℕ} (h : Runs p count current longest)
    (hp : p count) : Runs p (count + 1) (current + 1) (max longest (current + 1)) where
  le := Nat.succ_le_succ h.le
  trailing := by
    intro j hj hlt
    by_cases hlast : j = count
    · exact hlast ▸ hp
    · exact h.trailing j (by omega) (by omega)
  maximal := by
    intro start hstart hrun
    by_cases hlast : start = count + 1
    · omega
    · have hbefore := h.maximal start (by omega) fun j hj hlt => hrun j hj (by omega)
      omega
  longest := by
    have hle := h.le
    constructor
    · rcases max_choice longest (current + 1) with hmax | hmax
      · rw [hmax]
        obtain ⟨start, hbound, hrun⟩ := h.longest.1
        exact ⟨start, by omega, hrun⟩
      · rw [hmax]
        refine ⟨count - current, by omega, fun j hj hlt => ?_⟩
        by_cases hlast : j = count
        · exact hlast ▸ hp
        · exact h.trailing j hj (by omega)
    · intro n hn
      rcases runLengths_succ hn with hold | ⟨start, hstart, rfl, hrun⟩
      · exact (h.longest.2 hold).trans (le_max_left _ _)
      · have hbefore := h.maximal start hstart fun j hj hlt => hrun j hj (by omega)
        exact le_max_of_le_right (by omega)

/-- A point without the property ends the run. -/
theorem Runs.reset {p : ℕ → Prop} {count current longest : ℕ} (h : Runs p count current longest)
    (hp : ¬p count) : Runs p (count + 1) 0 longest where
  le := Nat.zero_le _
  trailing := fun j hj hlt => by omega
  maximal := by
    intro start hstart hrun
    by_cases hlast : start = count + 1
    · omega
    · exact absurd (hrun count (by omega) (Nat.lt_succ_self count)) hp
  longest := by
    constructor
    · obtain ⟨start, hbound, hrun⟩ := h.longest.1
      exact ⟨start, by omega, hrun⟩
    · intro n hn
      rcases runLengths_succ hn with hold | ⟨start, hstart, -, hrun⟩
      · exact h.longest.2 hold
      · exact absurd (hrun count hstart (Nat.lt_succ_self count)) hp

end AutoBit.Library
