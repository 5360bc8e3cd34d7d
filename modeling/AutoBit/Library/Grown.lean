import Mathlib.Data.List.Infix
import Mathlib.Order.Defs.Unbundled

/-!
# Lists that grow at their end

A list grows by items with a property. Growth composes, keeps the old items, and a weaker
property may be stated of the new ones.
-/

namespace AutoBit.Library

variable {α : Type*} {P Q : α → Prop} {xs ys zs : List α}

/-- A list that has more items at its end, all with a property. -/
def Grown (P : α → Prop) (xs ys : List α) : Prop := ∃ more, ys = xs ++ more ∧ ∀ x ∈ more, P x

/-- A list that stays as it is has grown by nothing. -/
theorem Grown.refl (xs : List α) : Grown P xs xs := ⟨[], by simp, by simp⟩

/-- A list that grows twice grows by both. -/
theorem Grown.trans (h : Grown P xs ys) (h' : Grown P ys zs) : Grown P xs zs := by
  obtain ⟨more, rfl, hmore⟩ := h
  obtain ⟨more', rfl, hmore'⟩ := h'
  refine ⟨more ++ more', List.append_assoc _ _ _, fun x hx => ?_⟩
  rcases List.mem_append.mp hx with hold | hnew
  · exact hmore x hold
  · exact hmore' x hnew

instance : Std.Refl (Grown P) := ⟨Grown.refl⟩

instance : IsTrans (List α) (Grown P) := ⟨fun _ _ _ => Grown.trans⟩

/-- A list that grows by elements of one kind grows by those of a wider one. -/
theorem Grown.mono (h : Grown P xs ys) (hPQ : ∀ x, P x → Q x) : Grown Q xs ys := by
  obtain ⟨more, hys, hmore⟩ := h
  exact ⟨more, hys, fun x hx => hPQ x (hmore x hx)⟩

/-- A list with one more element has grown by it. -/
theorem grown_snoc (xs : List α) {x : α} (hx : P x) : Grown P xs (xs ++ [x]) :=
  ⟨[x], rfl, fun _ hy => List.mem_singleton.mp hy ▸ hx⟩

/-- The elements of a list stay when it grows. -/
theorem Grown.subset (h : Grown P xs ys) : xs ⊆ ys := by
  obtain ⟨more, rfl, -⟩ := h
  exact List.subset_append_left xs more

/-- An item is old, or has the property of the new ones. -/
theorem Grown.mem_cases (h : Grown P xs ys) {x : α} (hx : x ∈ ys) : x ∈ xs ∨ P x := by
  obtain ⟨more, rfl, hmore⟩ := h
  exact (List.mem_append.mp hx).imp_right (hmore x)

end AutoBit.Library
