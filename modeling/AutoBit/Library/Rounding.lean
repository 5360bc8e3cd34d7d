import Mathlib.Data.Int.Log
import Mathlib.Data.Rat.Floor
import Mathlib.Algebra.Order.Field.Power
import Mathlib.Tactic.Linarith
import Mathlib.Tactic.NormNum
import Mathlib.Tactic.Positivity
import Mathlib.Tactic.FieldSimp
import Mathlib.Tactic.Ring

/-!
# Rounding to a fixed number of significant digits

A floating format keeps a fixed number of digits in some base, down to a smallest
quantum. Rounding is to nearest, ties to even. The results used elsewhere are that
rounding is monotone on nonnegative values and leaves powers of the base alone.
-/

namespace AutoBit.Library

/-- The integer nearest to a rational, choosing the even one of two equally near. -/
def roundHalfEven (q : ℚ) : ℤ :=
  if q - ⌊q⌋ < 1 / 2 then ⌊q⌋
  else if 1 / 2 < q - ⌊q⌋ then ⌊q⌋ + 1
  else if ⌊q⌋ % 2 = 0 then ⌊q⌋ else ⌊q⌋ + 1

/-- Rounding moves to one of the two neighbouring integers. -/
theorem floor_le_roundHalfEven (q : ℚ) : ⌊q⌋ ≤ roundHalfEven q := by
  unfold roundHalfEven
  split_ifs <;> omega

/-- Rounding goes at most to the integer above. -/
theorem roundHalfEven_le_floor_add_one (q : ℚ) : roundHalfEven q ≤ ⌊q⌋ + 1 := by
  unfold roundHalfEven
  split_ifs <;> omega

/-- An integer is rounded to itself. -/
@[simp] theorem roundHalfEven_intCast (n : ℤ) : roundHalfEven n = n := by
  simp [roundHalfEven]

/-- Zero is rounded to itself. -/
@[simp] theorem roundHalfEven_zero : roundHalfEven 0 = 0 := by
  simp [roundHalfEven]

/-- Rounding to the nearest integer preserves the order. -/
theorem roundHalfEven_mono {a b : ℚ} (hab : a ≤ b) : roundHalfEven a ≤ roundHalfEven b := by
  have hfloor : ⌊a⌋ ≤ ⌊b⌋ := Int.floor_le_floor hab
  rcases hfloor.lt_or_eq with hlt | heq
  · have ha := roundHalfEven_le_floor_add_one a
    have hb := floor_le_roundHalfEven b
    omega
  · have hfrac : a - ⌊a⌋ ≤ b - ⌊b⌋ := by rw [heq]; linarith
    unfold roundHalfEven
    rw [← heq] at hfrac ⊢
    split_ifs <;> first | omega | (exfalso; linarith)

/-- A floating format: its base, how many digits it keeps, and the exponent of the
smallest quantum it can represent. -/
structure FloatFormat where
  /-- The radix of the digits. -/
  base : ℕ
  /-- How many significant digits are kept. -/
  precision : ℕ
  /-- The exponent below which digits are dropped whatever the magnitude. -/
  minExponent : ℤ
  /-- A radix has at least two digits. -/
  one_lt_base : 1 < base
  /-- At least one digit is kept. -/
  precision_pos : 0 < precision

namespace FloatFormat

variable (F : FloatFormat)

/-- The exponent of the last digit kept for a value of the given magnitude. -/
def quantumExponent (q : ℚ) : ℤ := max (Int.log F.base q + 1 - F.precision) F.minExponent

/-- The value in the format nearest to a nonnegative rational, ties to even. -/
def round (q : ℚ) : ℚ :=
  roundHalfEven (q / (F.base : ℚ) ^ F.quantumExponent q) * (F.base : ℚ) ^ F.quantumExponent q

/-- The next value of the format above a positive value of the format. -/
def next (q : ℚ) : ℚ := q + (F.base : ℚ) ^ F.quantumExponent q

/-- The base of a format is positive. -/
theorem base_pos : (0 : ℚ) < F.base := by
  have := F.one_lt_base
  exact_mod_cast (by omega : 0 < F.base)

/-- The base of a format is at least one. -/
theorem one_le_base : (1 : ℚ) ≤ F.base := by
  have := F.one_lt_base
  exact_mod_cast (by omega : 1 ≤ F.base)

/-- Zero is rounded to itself. -/
@[simp] theorem round_zero : F.round 0 = 0 := by
  simp [round]

/-- The next value of a format is larger. -/
theorem lt_next (q : ℚ) : q < F.next q := by
  have := zpow_pos F.base_pos (F.quantumExponent q)
  unfold next
  linarith

/-- A quotient of powers of the base is a natural power of it. -/
private theorem zpow_div_zpow {k e : ℤ} (hke : e ≤ k) :
    (F.base : ℚ) ^ k / (F.base : ℚ) ^ e = ((F.base ^ (k - e).toNat : ℕ) : ℤ) := by
  rw [← zpow_sub₀ F.base_pos.ne']
  conv_lhs => rw [← Int.toNat_of_nonneg (by omega : 0 ≤ k - e)]
  push_cast
  rw [zpow_natCast]

/-- Rounding with a fixed quantum exponent preserves the order. -/
private theorem scaled_mono {a b : ℚ} (e : ℤ) (hab : a ≤ b) :
    (roundHalfEven (a / (F.base : ℚ) ^ e) : ℚ) * (F.base : ℚ) ^ e ≤
      roundHalfEven (b / (F.base : ℚ) ^ e) * (F.base : ℚ) ^ e := by
  have hpos : (0 : ℚ) < (F.base : ℚ) ^ e := zpow_pos F.base_pos e
  have hdiv : a / (F.base : ℚ) ^ e ≤ b / (F.base : ℚ) ^ e := by gcongr
  have hround : ((roundHalfEven (a / (F.base : ℚ) ^ e) : ℤ) : ℚ) ≤
      roundHalfEven (b / (F.base : ℚ) ^ e) := by exact_mod_cast roundHalfEven_mono hdiv
  gcongr

/-- A power of the base at or above the quantum is its own rounding. -/
private theorem scaled_zpow {k e : ℤ} (hke : e ≤ k) :
    (roundHalfEven ((F.base : ℚ) ^ k / (F.base : ℚ) ^ e) : ℚ) * (F.base : ℚ) ^ e =
      (F.base : ℚ) ^ k := by
  have hint := F.zpow_div_zpow hke
  rw [hint, roundHalfEven_intCast, ← hint, div_mul_cancel₀ _ (zpow_pos F.base_pos e).ne']

/-- Rounding never leaves the nonnegative values. -/
theorem round_nonneg {q : ℚ} (hq : 0 ≤ q) : 0 ≤ F.round q := by
  have h := F.scaled_mono (F.quantumExponent q) hq
  simpa [round] using h

/-- Rounding to a format preserves the order of nonnegative rationals. Values in
different binades are separated by a power of the base, which both roundings respect. -/
theorem round_mono {a b : ℚ} (ha : 0 ≤ a) (hab : a ≤ b) : F.round a ≤ F.round b := by
  rcases ha.eq_or_lt with rfl | hapos
  · simpa using F.round_nonneg hab
  have hbpos : 0 < b := lt_of_lt_of_le hapos hab
  have hprec := F.precision_pos
  have hlog : Int.log F.base a ≤ Int.log F.base b := Int.log_mono_right hapos hab
  by_cases hsame : F.quantumExponent a = F.quantumExponent b
  · unfold round
    rw [hsame]
    exact F.scaled_mono _ hab
  · have hbelow : a ≤ (F.base : ℚ) ^ Int.log F.base b := by
      have hlt : Int.log F.base a + 1 ≤ Int.log F.base b := by
        unfold quantumExponent at hsame
        omega
      exact (Int.lt_zpow_succ_log_self F.one_lt_base a).le.trans
        (zpow_le_zpow_right₀ F.one_le_base hlt)
    have habove : (F.base : ℚ) ^ Int.log F.base b ≤ b := Int.zpow_log_le_self F.one_lt_base hbpos
    have hexpA : F.quantumExponent a ≤ Int.log F.base b := by
      unfold quantumExponent at hsame ⊢
      omega
    have hexpB : F.quantumExponent b ≤ Int.log F.base b := by
      unfold quantumExponent at hsame ⊢
      omega
    calc F.round a ≤ (F.base : ℚ) ^ Int.log F.base b := by
          rw [← F.scaled_zpow hexpA]
          exact F.scaled_mono _ hbelow
      _ ≤ F.round b := by
          rw [← F.scaled_zpow hexpB]
          exact F.scaled_mono _ habove

/-- A power of the base that the format represents is its own rounding. -/
theorem round_zpow {k : ℤ} (hk : F.minExponent ≤ k) :
    F.round ((F.base : ℚ) ^ k) = (F.base : ℚ) ^ k := by
  have hprec := F.precision_pos
  have hlog : Int.log F.base ((F.base : ℚ) ^ k) = k := Int.log_zpow F.one_lt_base k
  unfold round
  apply F.scaled_zpow
  unfold quantumExponent
  omega

end FloatFormat

/-- IEEE 754 double precision. -/
def binary64 : FloatFormat := ⟨2, 53, -1074, by decide, by decide⟩

/-- The default context of Python's decimal module: 28 digits. -/
def decimal28 : FloatFormat := ⟨10, 28, -1000026, by decide, by decide⟩

/-- A nonnegative double: a finite value, or the overflow to infinity. -/
inductive FloatValue where
  | finite (value : ℚ)
  | infinite
  deriving DecidableEq, Repr

/-- The least magnitude that rounds past the largest finite double: halfway between
that double and the next power of two. -/
def binary64Overflow : ℚ := 2 ^ 1024 - 2 ^ 970

/-- Conversion of a nonnegative decimal to a double. -/
def toFloat (q : ℚ) : FloatValue :=
  if q < binary64Overflow then .finite (binary64.round q) else .infinite

/-- `f <= limit` for a finite limit. -/
def FloatValue.atMost (f : FloatValue) (limit : ℚ) : Bool :=
  match f with
  | .finite value => value ≤ limit
  | .infinite => false

/-- `max` of two doubles. -/
def FloatValue.max (a b : FloatValue) : FloatValue :=
  match a, b with
  | .finite x, .finite y => if x < y then .finite y else .finite x
  | _, _ => .infinite

/-- A double that can be written as a JSON number. -/
def FloatValue.IsFinite (f : FloatValue) : Prop := f ≠ .infinite

instance (f : FloatValue) : Decidable f.IsFinite := inferInstanceAs (Decidable (f ≠ _))

/-- A rational is a finite value. -/
@[simp] theorem FloatValue.isFinite_finite (q : ℚ) : (FloatValue.finite q).IsFinite := by
  simp [FloatValue.IsFinite]

/-- Conversion keeps a decimal at or below a decimal limit at or below the limit's double. -/
theorem toFloat_atMost {q limit : ℚ} (hq : 0 ≤ q) (hle : q ≤ limit)
    (hlimit : limit < binary64Overflow) : (toFloat q).atMost (binary64.round limit) = true := by
  unfold toFloat
  rw [if_pos (lt_of_le_of_lt hle hlimit)]
  simpa [FloatValue.atMost] using binary64.round_mono hq hle

/-- The overflow threshold and the next integer keep 309 decimal digits, of which the
first 28 round down. -/
theorem decimal28_round_overflow : decimal28.round (binary64Overflow + 1) < binary64Overflow := by
  have hpos : 0 < binary64Overflow + 1 := by decide +kernel
  have hlower : (1797693134862315807937289714 : ℚ) ≤ (binary64Overflow + 1) / 10 ^ 281 := by
    decide +kernel
  have hupper : (binary64Overflow + 1) / 10 ^ 281 < 1797693134862315807937289714 + 1 / 2 := by
    decide +kernel
  have hlog : Int.log 10 (binary64Overflow + 1) = 308 := by
    have hle : ((10 : ℕ) : ℚ) ^ (308 : ℤ) ≤ binary64Overflow + 1 := by decide +kernel
    have hlt : binary64Overflow + 1 < ((10 : ℕ) : ℚ) ^ (309 : ℤ) := by decide +kernel
    have := (Int.zpow_le_iff_le_log (by decide) hpos).mp hle
    have := (Int.lt_zpow_iff_log_lt (by decide) hpos).mp hlt
    omega
  have hexp : decimal28.quantumExponent (binary64Overflow + 1) = 281 := by
    simp only [FloatFormat.quantumExponent, decimal28, hlog]
    norm_num
  have hscale : (decimal28.base : ℚ) ^ (281 : ℤ) = 10 ^ 281 := by decide +kernel
  have hfloor : ⌊(binary64Overflow + 1) / (10 : ℚ) ^ 281⌋ = 1797693134862315807937289714 := by
    rw [Int.floor_eq_iff]
    push_cast
    exact ⟨hlower, by linarith⟩
  have hdown : roundHalfEven ((binary64Overflow + 1) / 10 ^ 281) =
      1797693134862315807937289714 := by
    unfold roundHalfEven
    rw [hfloor, if_pos]
    push_cast
    linarith
  unfold FloatFormat.round
  rw [hexp, hscale, hdown]
  decide +kernel

end AutoBit.Library
