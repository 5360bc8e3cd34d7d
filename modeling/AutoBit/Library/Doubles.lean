import AutoBit.Library.Rounding
import Mathlib.Algebra.BigOperators.Group.List.Basic

/-!
# The range of doubles

A rational stands for the double nearest to it, and a rational outside the range of doubles for
one that is not finite. Sums and products are exact as long as they stay within the range, and
never come back into it.
-/

namespace AutoBit.Library

/-- The double nearest to a rational is finite. -/
def InRange (q : ℚ) : Prop := |q| < binary64Overflow

instance (q : ℚ) : Decidable (InRange q) := inferInstanceAs (Decidable (_ < _))

/-- The overflow bound is out of the range. -/
theorem not_inRange_overflow : ¬InRange binary64Overflow := by
  simp [InRange, le_abs_self]

/-- The overflow bound is positive. -/
theorem overflow_pos : 0 < binary64Overflow := by decide +kernel

/-- Zero is in the range. -/
@[simp] theorem inRange_zero : InRange 0 := by
  simpa [InRange] using overflow_pos

/-- What lies between two values of the range is in the range. -/
theorem InRange.between {low q high : ℚ} (hlow : InRange low) (hhigh : InRange high)
    (hle : low ≤ q) (hge : q ≤ high) : InRange q :=
  abs_lt.mpr ⟨(abs_lt.mp hlow).1.trans_le hle, hge.trans_lt (abs_lt.mp hhigh).2⟩

/-- The double nearest to a rational. -/
def double (q : ℚ) : ℚ := if q < 0 then -binary64.round (-q) else binary64.round q

/-- Zero is a double. -/
@[simp] theorem double_zero : double 0 = 0 := by
  simp [double]

/-! ## Products, quotients and sums -/

/-- A product that is never in the range when a factor is not. -/
def product (a b : ℚ) : ℚ := if InRange a ∧ InRange b then a * b else binary64Overflow

/-- The product of finite factors is the exact one. -/
theorem product_of_inRange {a b : ℚ} (ha : InRange a) (hb : InRange b) : product a b = a * b :=
  if_pos ⟨ha, hb⟩

/-- A product in the range is the exact one. -/
theorem product_eq {a b : ℚ} (h : InRange (product a b)) :
    product a b = a * b ∧ InRange a ∧ InRange b := by
  unfold product at h ⊢
  split_ifs at h ⊢ with hfactors
  · exact ⟨rfl, hfactors⟩
  · exact absurd h not_inRange_overflow

/-- A product of factors that are not negative is not negative. -/
theorem product_nonneg {a b : ℚ} (ha : 0 ≤ a) (hb : 0 ≤ b) : 0 ≤ product a b := by
  unfold product
  split_ifs
  · exact mul_nonneg ha hb
  · exact overflow_pos.le

/-- A quotient by a finite value, which is never in the range when the dividend is not. -/
def quotient (a b : ℚ) : ℚ := if InRange a then a / b else a

/-- A quotient of values that are not negative is not negative. -/
theorem quotient_nonneg {a b : ℚ} (ha : 0 ≤ a) (hb : 0 ≤ b) : 0 ≤ quotient a b := by
  unfold quotient
  split_ifs
  · exact div_nonneg ha hb
  · exact ha

/-- A sum that is never in the range when a summand is not. -/
def plus (a b : ℚ) : ℚ := if InRange a then if InRange b then a + b else b else a

/-- The sum of finite summands is the exact one. -/
theorem plus_of_inRange {a b : ℚ} (ha : InRange a) (hb : InRange b) : plus a b = a + b := by
  rw [plus, if_pos ha, if_pos hb]

/-- A sum in the range is the exact one. -/
theorem plus_eq {a b : ℚ} (h : InRange (plus a b)) :
    plus a b = a + b ∧ InRange a ∧ InRange b := by
  unfold plus at h ⊢
  split_ifs at h ⊢ with ha hb
  · exact ⟨rfl, ha, hb⟩
  · exact absurd h hb
  · exact absurd h ha

/-- A sum of summands that are not negative is not negative. -/
theorem plus_nonneg {a b : ℚ} (ha : 0 ≤ a) (hb : 0 ≤ b) : 0 ≤ plus a b := by
  unfold plus
  split_ifs
  · exact add_nonneg ha hb
  · exact hb
  · exact ha

/-- The sum of a list, one summand after the other. -/
def total (values : List ℚ) : ℚ := values.foldl plus 0

/-- The sums of a loop over values that are not negative are not negative. -/
theorem foldl_plus_nonneg {values : List ℚ} (h : ∀ value ∈ values, 0 ≤ value) {start : ℚ}
    (hstart : 0 ≤ start) : 0 ≤ values.foldl plus start := by
  induction values generalizing start with
  | nil => exact hstart
  | cons value values ih =>
    exact ih (fun later hlater => h later (List.mem_cons_of_mem _ hlater))
      (plus_nonneg hstart (h value List.mem_cons_self))

/-- The sum of a list of values that are not negative is not negative. -/
theorem total_nonneg {values : List ℚ} (h : ∀ value ∈ values, 0 ≤ value) : 0 ≤ total values :=
  foldl_plus_nonneg h le_rfl

/-- Zeros have the sum zero. -/
theorem total_eq_zero {values : List ℚ} (h : ∀ value ∈ values, value = 0) : total values = 0 := by
  unfold total
  induction values with
  | nil => rfl
  | cons value values ih =>
    have hzero : plus 0 0 = 0 := by
      unfold plus
      split_ifs <;> simp
    rw [List.foldl_cons, h value List.mem_cons_self, hzero]
    exact ih fun later hlater => h later (List.mem_cons_of_mem _ hlater)

/-- One round of `math.fsum`: it raises when a sum of finite values leaves the range, and begins
anew after a value that is not finite. -/
def fsumStep (total value : ℚ) : Option ℚ :=
  if InRange value then if InRange (total + value) then some (total + value) else none
  else some 0

/-- `math.fsum`, with `none` for an `OverflowError`. -/
def fsum (values : List ℚ) : Option ℚ := do
  let total ← values.foldlM fsumStep 0
  return if ∀ value ∈ values, InRange value then total else binary64Overflow

/-! ## Roots -/

/-- The integer part of a root below `2 ^ bits`, bit by bit. -/
def integerRoot (degree bits n : ℕ) : ℕ :=
  (List.range bits).foldr (fun bit root =>
    if (root + 2 ^ bit) ^ degree ≤ n then root + 2 ^ bit else root) 0

/-- The double nearest to a root of a rational that is not negative: the root is computed to 55
bits, and one that is not exact is moved off the midpoints of doubles. -/
def nearestRoot (degree : ℕ) (q : ℚ) : ℚ :=
  let shift := 55 - Int.log 2 q / degree
  let scaled := q * 2 ^ (shift * degree)
  let root : ℚ := integerRoot degree 64 ⌊scaled⌋.toNat
  binary64.round ((if root ^ degree = scaled then root else root + 1 / 2) / 2 ^ shift)

/-! ## The text of a double -/

/-- The two decimals with the given number of digits around a positive rational. -/
def neighbours (digits : ℕ) (q : ℚ) : List ℚ :=
  let quantum := (10 : ℚ) ^ (Int.log 10 q + 1 - digits)
  [⌊q / quantum⌋ * quantum, (⌊q / quantum⌋ + 1) * quantum]

/-- `Decimal(str(x))` of the double nearest to a positive rational: the closest of the decimals
with the fewest digits that are read back as that double, of which 17 are enough. -/
def shortestDecimal (q : ℚ) : ℚ :=
  let x := binary64.round q
  let readBack (digits : ℕ) := (neighbours digits x).filter fun decimal =>
    binary64.round decimal = x
  let closest : List ℚ → Option ℚ
    | [below, above] => some (if above - x < x - below then above else below)
    | candidates => candidates.head?
  (((List.range 17).map (· + 1)).findSome? fun digits => closest (readBack digits)).getD x

example : shortestDecimal (binary64.round (1 / 10)) = 1 / 10 := by decide +kernel

end AutoBit.Library
