import AutoBit.Library.Rounding
import AutoBit.Risk.Policy
import Mathlib.Data.List.Sort

/-!
# Arithmetic of unchecked floats

Frames hold doubles, of which some are missing. Comparisons with NaN are false, the
largest and smallest of a row skip what is missing, and the results of arithmetic are
rounded to the nearest double. A zero has no sign.
-/

namespace AutoBit.Risk.Reading

open Library

/-- `pd.isna`. -/
def isNan : Reading → Bool
  | nan => true
  | _ => false

/-- `math.isfinite`. -/
def isFinite : Reading → Bool
  | number _ => true
  | _ => false

/-- `math.isinf`. -/
def isInfinite : Reading → Bool
  | infinite _ => true
  | _ => false

/-- `a < b`. -/
def lt : Reading → Reading → Bool
  | number a, number b => a < b
  | number _, infinite negative => !negative
  | infinite negative, number _ => negative
  | infinite a, infinite b => a && !b
  | nan, _ => false
  | _, nan => false

/-- `a == b`. -/
def eq : Reading → Reading → Bool
  | nan, _ => false
  | a, b => a = b

/-- `a <= b`. -/
def le (a b : Reading) : Bool := a.lt b || a.eq b

/-- The larger of two values, a missing one giving way. -/
def larger (a b : Reading) : Reading :=
  if a.isNan then b else if a.lt b then b else a

/-- The smaller of two values, a missing one giving way. -/
def smaller (a b : Reading) : Reading :=
  if a.isNan then b else if b.lt a then b else a

/-- `max` of a series, skipping what is missing. -/
def maximum (values : List Reading) : Reading := values.foldl larger nan

/-- `min` of a series, skipping what is missing. -/
def minimum (values : List Reading) : Reading := values.foldl smaller nan

/-- The double nearest to an exact result. -/
def rounded (q : ℚ) : Reading :=
  if |q| < binary64Overflow then
    number (if q < 0 then -binary64.round (-q) else binary64.round q)
  else infinite (q < 0)

/-- `-a`. -/
def neg : Reading → Reading
  | number a => number (-a)
  | infinite negative => infinite (!negative)
  | nan => nan

/-- `a + b`. -/
def add : Reading → Reading → Reading
  | number a, number b => rounded (a + b)
  | number _, infinite negative => infinite negative
  | infinite negative, number _ => infinite negative
  | infinite a, infinite b => if a = b then infinite a else nan
  | nan, _ => nan
  | _, nan => nan

/-- `a - b`. -/
def sub (a b : Reading) : Reading := a.add b.neg

/-- `a / b`, as arrays divide. -/
def div : Reading → Reading → Reading
  | number a, number b =>
    if b = 0 then if a = 0 then nan else infinite (a < 0) else rounded (a / b)
  | number _, infinite _ => number 0
  | infinite negative, number b => infinite (negative != decide (b < 0))
  | infinite _, infinite _ => nan
  | nan, _ => nan
  | _, nan => nan

/-- The middle of a series, skipping what is missing: of an even number of values the mean
of the two in the middle. -/
def median (values : List Reading) : Reading :=
  let sorted := (values.filter (!·.isNan)).insertionSort fun a b => a.le b = true
  let middle := sorted.length / 2
  if sorted.length = 0 then nan
  else if sorted.length % 2 = 1 then sorted[middle]?.getD nan
  else ((sorted[middle]?.getD nan).add (sorted[middle - 1]?.getD nan)).div (number 2)

/-- A number is not nan. -/
@[simp] theorem isNan_number (q : ℚ) : (number q).isNan = false := rfl

/-- A nan is nan. -/
@[simp] theorem isNan_nan : nan.isNan = true := rfl

/-- Zero is rounded to itself. -/
@[simp] theorem rounded_zero : rounded 0 = number 0 := by
  have hpos : (0 : ℚ) < binary64Overflow := by decide +kernel
  simp [rounded, hpos]

/-- What is subtracted from itself leaves nothing. -/
@[simp] theorem sub_self_number (q : ℚ) : (number q).sub (number q) = number 0 := by
  simp [sub, neg, add]

/-- Nothing divided by a price is nothing. -/
theorem zero_div_number {q : ℚ} (hq : q ≠ 0) : (number 0).div (number q) = number 0 := by
  simp [div, hq]

/-- A strict comparison goes one way only. -/
theorem lt_asymm {a b : Reading} (h : a.lt b = true) : b.lt a = false := by
  cases a <;> cases b <;> simp_all [lt, le_of_lt]

/-- A reading equals a number exactly when it is that number. -/
theorem eq_number {a : Reading} {q : ℚ} : a.eq (number q) = true ↔ a = number q := by
  cases a <;> simp [eq]

/-- A value that is neither missing nor infinite is a number. -/
theorem exists_number {a : Reading} (hnan : a.isNan = false) (hinf : a.isInfinite = false) :
    ∃ q, a = number q := by
  cases a with
  | number q => exact ⟨q, rfl⟩
  | infinite negative => cases hinf
  | nan => cases hnan

end AutoBit.Risk.Reading
