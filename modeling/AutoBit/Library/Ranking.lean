import Mathlib.Data.Finset.Card
import Mathlib.Data.Fintype.Card
import Mathlib.Data.Fintype.EquivFin
import Mathlib.Data.Fintype.Lattice
import Mathlib.Data.List.FinRange

/-!
# Rank of an entry in a finite row

How many entries of a row are above, at and below one of them, and which entry is the first
maximum. Both depend on the order of the entries only.
-/

namespace AutoBit.Library

section Counts

variable {ι α β : Type*} [Fintype ι] [LinearOrder α] [LinearOrder β]

/-- The number of entries above the one at `s`. -/
def above (row : ι → α) (s : ι) : ℕ := (Finset.univ.filter fun t => row s < row t).card

/-- The number of entries equal to the one at `s`, itself included. -/
def level (row : ι → α) (s : ι) : ℕ := (Finset.univ.filter fun t => row t = row s).card

/-- The number of entries below the one at `s`. -/
def below (row : ι → α) (s : ι) : ℕ := (Finset.univ.filter fun t => row t < row s).card

/-- Every entry is above, at or below. -/
theorem above_add_level_add_below (row : ι → α) (s : ι) :
    above row s + level row s + below row s = Fintype.card ι := by
  have hrest : (Finset.univ.filter fun t => ¬row s < row t).card = level row s + below row s := by
    classical
    rw [level, below, ← Finset.card_union_of_disjoint]
    · congr 1
      ext t
      simp only [Finset.mem_filter, Finset.mem_univ, true_and, Finset.mem_union, not_lt]
      exact le_iff_eq_or_lt
    · rw [Finset.disjoint_filter]
      intro t _ hlevel hbelow
      exact absurd hlevel hbelow.ne
  have hall := Finset.card_filter_add_card_filter_not (s := Finset.univ) fun t => row s < row t
  rw [hrest, Finset.card_univ] at hall
  unfold above
  omega

/-- What is strictly increasing on the row keeps who is above whom. -/
theorem above_comp {row : ι → α} {f : α → β} (hf : StrictMonoOn f (Set.range row)) (s : ι) :
    above (fun t => f (row t)) s = above row s := by
  unfold above
  congr 1
  ext t
  simp only [Finset.mem_filter, Finset.mem_univ, true_and]
  exact hf.lt_iff_lt (Set.mem_range_self s) (Set.mem_range_self t)

/-- A strictly monotone map keeps how many entries are below one. -/
theorem below_comp {row : ι → α} {f : α → β} (hf : StrictMonoOn f (Set.range row)) (s : ι) :
    below (fun t => f (row t)) s = below row s := by
  unfold below
  congr 1
  ext t
  simp only [Finset.mem_filter, Finset.mem_univ, true_and]
  exact hf.lt_iff_lt (Set.mem_range_self t) (Set.mem_range_self s)

/-- A permutation counts what it is applied to. -/
theorem card_filter_perm (p : ι → Prop) [DecidablePred p] (σ : Equiv.Perm ι) :
    (Finset.univ.filter fun t => p (σ t)).card = (Finset.univ.filter p).card := by
  apply Finset.card_bij (fun t _ => σ t)
  · intro t ht
    simpa using ht
  · intro t _ u _ heq
    exact σ.injective heq
  · intro t ht
    exact ⟨σ.symm t, by simpa using ht, σ.apply_symm_apply t⟩

/-- A permutation of the columns permutes how many entries are above one. -/
theorem above_perm (row : ι → α) (σ : Equiv.Perm ι) (s : ι) :
    above (fun t => row (σ t)) s = above row (σ s) :=
  card_filter_perm (fun t => row (σ s) < row t) σ

/-- A permutation of the columns permutes how many entries are below one. -/
theorem below_perm (row : ι → α) (σ : Equiv.Perm ι) (s : ι) :
    below (fun t => row (σ t)) s = below row (σ s) :=
  card_filter_perm (fun t => row t < row (σ s)) σ

end Counts

section FirstMax

variable {α β : Type*} [LinearOrder α] [LinearOrder β] {n : ℕ}

/-- The first index of the largest entry. -/
def firstMax (row : Fin n → α) : Option (Fin n) :=
  (List.finRange n).find? fun s => decide (∀ t, row t ≤ row s)

/-- The first maximum is the first entry that no other exceeds. -/
theorem firstMax_eq_some {row : Fin n → α} {s : Fin n} :
    firstMax row = some s ↔ (∀ t, row t ≤ row s) ∧ ∀ t < s, ∃ u, row t < row u := by
  rw [firstMax, List.find?_eq_some_iff_getElem]
  simp only [decide_eq_true_eq, List.length_finRange, List.getElem_finRange, Bool.not_eq_eq_eq_not,
    Bool.not_true, decide_eq_false_iff_not, not_forall, not_le]
  constructor
  · rintro ⟨hmax, i, hi, rfl, hfirst⟩
    refine ⟨hmax, ?_⟩
    intro t ht
    exact hfirst t ht
  · rintro ⟨hmax, hfirst⟩
    exact ⟨hmax, s, s.isLt, rfl, fun j hj => hfirst ⟨j, hj.trans s.isLt⟩ hj⟩

/-- A row with an entry has a first maximum. -/
theorem exists_firstMax (hn : 0 < n) (row : Fin n → α) : ∃ s, firstMax row = some s := by
  have : Nonempty (Fin n) := ⟨⟨0, hn⟩⟩
  obtain ⟨s, hs⟩ := Finite.exists_max row
  rw [← Option.isSome_iff_exists, firstMax, List.find?_isSome]
  exact ⟨s, List.mem_finRange s, decide_eq_true hs⟩

/-- What is strictly increasing on the row keeps the first maximum. -/
theorem firstMax_comp {row : Fin n → α} {f : α → β} (hf : StrictMonoOn f (Set.range row)) :
    firstMax (fun t => f (row t)) = firstMax row := by
  unfold firstMax
  congr 1
  funext s
  congr 1
  exact propext (forall_congr' fun t =>
    hf.le_iff_le (Set.mem_range_self t) (Set.mem_range_self s))

/-- A permutation of the row moves a maximum along that is the only one. -/
theorem firstMax_perm {row : Fin n → α} (hunique : ∃! s, ∀ t, row t ≤ row s)
    (σ : Equiv.Perm (Fin n)) :
    firstMax (fun t => row (σ t)) = (firstMax row).map σ.symm := by
  obtain ⟨s, hs, honly⟩ := hunique
  have hrow : firstMax row = some s := by
    refine firstMax_eq_some.mpr ⟨hs, ?_⟩
    intro t ht
    refine ⟨s, lt_of_not_ge fun hle => ht.ne (honly t fun u => (hs u).trans hle)⟩
  rw [hrow, Option.map_some, firstMax_eq_some]
  simp only [Equiv.apply_symm_apply]
  refine ⟨fun t => hs _, ?_⟩
  intro t ht
  refine ⟨σ.symm s, ?_⟩
  rw [Equiv.apply_symm_apply]
  refine lt_of_not_ge fun hle => ht.ne ?_
  rw [← honly (σ t) fun u => (hs u).trans hle, Equiv.symm_apply_apply]

end FirstMax

end AutoBit.Library
