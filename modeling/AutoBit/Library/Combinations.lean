import Mathlib.Data.List.Sort
import Mathlib.Data.List.Sublists
import Mathlib.Order.Lattice

/-!
# Combinations of a list in lexicographic order

The sublists of a given length, those that take an earlier element first. They are the
sublists of that length that Mathlib lists, in another order, so that their number and
their membership are known; the order and the number that hold a given element are new.
-/

namespace AutoBit.Library

universe u

variable {α : Type u}

/-- The combinations of `k` elements of a list, in the order of their positions. -/
def combinations : ℕ → List α → List (List α)
  | 0, _ => [[]]
  | _ + 1, [] => []
  | k + 1, x :: xs => (combinations k xs).map (x :: ·) ++ combinations (k + 1) xs

/-- There is one combination of no elements. -/
@[simp] theorem combinations_zero (xs : List α) : combinations 0 xs = [[]] := by
  cases xs <;> rfl

/-- There are no combinations of elements of the empty list. -/
@[simp] theorem combinations_succ_nil (k : ℕ) : combinations (k + 1) ([] : List α) = [] := rfl

/-- A combination takes the first element or leaves it. -/
@[simp] theorem combinations_succ_cons (k : ℕ) (x : α) (xs : List α) :
    combinations (k + 1) (x :: xs) =
      (combinations k xs).map (x :: ·) ++ combinations (k + 1) xs := rfl

/-- The combinations are the sublists of their length. -/
theorem combinations_perm_sublistsLen (k : ℕ) (xs : List α) :
    (combinations k xs).Perm (xs.sublistsLen k) := by
  induction xs generalizing k with
  | nil => cases k <;> simp
  | cons x xs ih =>
    cases k with
    | zero => simp
    | succ k =>
      rw [combinations_succ_cons, List.sublistsLen_succ_cons]
      exact (((ih k).map _).append (ih (k + 1))).trans List.perm_append_comm

/-- The combinations are the sublists of the given length. -/
theorem mem_combinations {k : ℕ} {xs chosen : List α} :
    chosen ∈ combinations k xs ↔ chosen.Sublist xs ∧ chosen.length = k := by
  rw [(combinations_perm_sublistsLen k xs).mem_iff, List.mem_sublistsLen]

/-- The number of combinations is the binomial coefficient. -/
theorem length_combinations (k : ℕ) (xs : List α) :
    (combinations k xs).length = xs.length.choose k := by
  rw [(combinations_perm_sublistsLen k xs).length_eq, List.length_sublistsLen]

/-- The combinations of an increasing list come in strictly increasing order. -/
theorem combinations_pairwise_lt [LinearOrder α] {k : ℕ} {xs : List α}
    (hsorted : xs.Pairwise (· < ·)) : (combinations k xs).Pairwise (· < ·) := by
  induction xs generalizing k with
  | nil => cases k <;> simp
  | cons x xs ih =>
    obtain ⟨hfirst, hrest⟩ := List.pairwise_cons.mp hsorted
    cases k with
    | zero => simp
    | succ k =>
      rw [combinations_succ_cons, List.pairwise_append]
      refine ⟨?_, ih hrest, ?_⟩
      · rw [List.pairwise_map]
        exact (ih hrest).imp fun hless => List.Lex.cons hless
      · -- a combination without the first element starts with a later one
        intro left hleft right hright
        obtain ⟨tail, -, rfl⟩ := List.mem_map.mp hleft
        obtain ⟨hsublist, hlength⟩ := mem_combinations.mp hright
        cases right with
        | nil => simp at hlength
        | cons y right =>
          have hy : y ∈ xs := hsublist.subset (by simp)
          exact List.Lex.rel (hfirst y hy)

/-- The combinations of an increasing list are the increasing lists of its elements. -/
theorem mem_combinations_of_pairwise [PartialOrder α] {k : ℕ} {xs chosen : List α}
    (hsorted : xs.Pairwise (· < ·)) :
    chosen ∈ combinations k xs ↔
      chosen.Pairwise (· < ·) ∧ chosen.length = k ∧ ∀ a ∈ chosen, a ∈ xs := by
  rw [mem_combinations]
  constructor
  · rintro ⟨hsublist, hlength⟩
    exact ⟨hsorted.sublist hsublist, hlength, fun a ha => hsublist.subset ha⟩
  · rintro ⟨hchosen, hlength, hmem⟩
    have hsubperm : chosen.Subperm xs :=
      List.subperm_of_subset (hchosen.imp fun hless => hless.ne) fun a ha => hmem a ha
    exact ⟨List.sublist_of_subperm_of_pairwise hsubperm hchosen hsorted, hlength⟩

/-- How many combinations hold a given element. -/
theorem countP_mem_combinations [DecidableEq α] {k : ℕ} {xs : List α} (hnodup : xs.Nodup)
    {a : α} (ha : a ∈ xs) :
    (combinations (k + 1) xs).countP (fun chosen => decide (a ∈ chosen)) =
      (xs.length - 1).choose k := by
  induction xs generalizing k with
  | nil => cases ha
  | cons x xs ih =>
    obtain ⟨hx, hrest⟩ := List.nodup_cons.mp hnodup
    rw [combinations_succ_cons, List.countP_append, List.countP_map, List.length_cons,
      Nat.add_sub_cancel]
    rcases List.mem_cons.mp ha with rfl | htail
    · -- all combinations that take the element first, and none of the others
      have hwith : (combinations k xs).countP
          ((fun chosen => decide (a ∈ chosen)) ∘ (a :: ·)) = xs.length.choose k := by
        rw [← length_combinations, List.countP_eq_length]
        simp
      have hwithout : (combinations (k + 1) xs).countP (fun chosen => decide (a ∈ chosen)) = 0 := by
        rw [List.countP_eq_zero]
        intro chosen hchosen
        have hsublist := (mem_combinations.mp hchosen).1
        simpa using fun hmem => hx (hsublist.subset hmem)
      rw [hwith, hwithout, Nat.add_zero]
    · have hne : a ≠ x := fun heq => hx (heq ▸ htail)
      have hcongr : (combinations k xs).countP ((fun chosen => decide (a ∈ chosen)) ∘ (x :: ·)) =
          (combinations k xs).countP (fun chosen => decide (a ∈ chosen)) := by
        apply List.countP_congr
        simp [hne]
      have hpositive := List.length_pos_of_mem htail
      rw [hcongr, ih hrest htail]
      cases k with
      | zero => simp
      | succ k =>
        rw [ih hrest htail]
        obtain ⟨m, hm⟩ : ∃ m, xs.length = m + 1 := ⟨xs.length - 1, by omega⟩
        rw [hm, Nat.add_sub_cancel, Nat.choose_succ_succ]

end AutoBit.Library
