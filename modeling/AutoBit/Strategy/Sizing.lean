import AutoBit.Strategy.Engine
import Mathlib.Algebra.Order.Field.Basic

/-!
# What a position size guarantees

A positive size is the smallest of the four limits of a valid input: the fixed and the
volatility-adjusted risk budget, the exposure cap and the cash. Every use of the sizer
rests on this one description of it.
-/

namespace AutoBit.Strategy

/-- The smallest candidate has the smallest quantity. -/
theorem smallest_snd (first : String × ℚ) (rest : List (String × ℚ)) :
    (smallest first rest).2 = rest.foldl (fun least candidate => min least candidate.2) first.2 := by
  induction rest generalizing first with
  | nil => rfl
  | cons candidate rest ih =>
    simp only [smallest, List.foldl_cons] at ih ⊢
    rw [ih]
    congr 1
    split
    · rename_i hless
      exact (min_eq_right hless.le).symm
    · rename_i hleast
      exact (min_eq_left (not_lt.mp hleast)).symm

/-- The risk budget spread over the loss of one unit. -/
def SizeInput.fixed (input : SizeInput) (stop : ℚ) : ℚ :=
  input.equity * input.riskRate / effectiveLoss input.entry stop input.costs

/-- The share of the fixed size that is left when volatility is above its baseline. -/
def SizeInput.volatilityShare (input : SizeInput) (baseline : ℚ) : ℚ :=
  min 1 (baseline / input.currentAtrPct)

/-- The price that the sizer expects a purchase to be filled at. -/
def SizeInput.expectedBuyFill (input : SizeInput) : ℚ := input.entry * (1 + input.costs.slippageRate)

/-- An input that the sizer takes for valid, and the quantity it gets. -/
structure Sized (input : SizeInput) (stop baseline : ℚ) : Prop where
  equity : 0 ≤ input.equity
  cash : 0 ≤ input.cash
  riskRate : 0 ≤ input.riskRate
  stop_pos : 0 < stop
  stop_lt : stop < input.entry
  currentAtrPct : 0 < input.currentAtrPct
  baseline_pos : 0 < baseline
  feeRate : 0 ≤ input.costs.feeRate ∧ input.costs.feeRate < 1
  slippageRate : 0 ≤ input.costs.slippageRate
  loss : 0 < effectiveLoss input.entry stop input.costs
  quantity : (calculateSize input).quantity =
    min (min (input.fixed stop * input.volatilityShare baseline)
        (input.equity * input.exposureCap / input.expectedBuyFill))
      (input.cash / (input.expectedBuyFill * (1 + input.costs.feeRate)))

/-- A positive size comes from a valid input, and no limit is smaller. -/
theorem sized_of_pos {input : SizeInput} (h : 0 < (calculateSize input).quantity) :
    ∃ stop baseline, input.stop = some stop ∧ input.baselineAtrPct = some baseline ∧
      Sized input stop baseline := by
  cases hstop : input.stop with
  | none => simp [calculateSize, hstop, invalidSize] at h
  | some stop =>
    cases hbaseline : input.baselineAtrPct with
    | none => simp [calculateSize, hstop, hbaseline, invalidSize] at h
    | some baseline =>
      refine ⟨stop, baseline, rfl, rfl, ?_⟩
      have hquantity := h
      simp only [calculateSize, hstop, hbaseline] at hquantity
      split_ifs at hquantity with hinput hcosts hloss
      · simp [invalidSize] at hquantity
      · simp [invalidSize] at hquantity
      · have hinvalid := hinput
        simp only [not_or, not_lt, not_le] at hinput
        obtain ⟨hequity, hcash, hrisk, -, hentry, hstop_pos, hatr, hbaseline_pos, hless⟩ := hinput
        have hpositive := not_le.mp hloss
        refine ⟨hequity, hcash, hrisk, hstop_pos, hless, hatr, hbaseline_pos,
          ⟨hcosts.1, hcosts.2.1⟩, hcosts.2.2.1, hpositive, ?_⟩
        have hfixed : 0 ≤ input.fixed stop :=
          div_nonneg (mul_nonneg hequity hrisk) hpositive.le
        have hshare : input.fixed stop * input.volatilityShare baseline ≤ input.fixed stop :=
          mul_le_of_le_one_right hfixed (min_le_left _ _)
        simp only [calculateSize, hstop, hbaseline]
        rw [if_neg hinvalid, if_neg (not_not.mpr hcosts), if_neg hloss]
        simp only [smallest_snd, List.foldl_cons, List.foldl_nil]
        rw [← min_eq_right hshare]
        rfl
      · simp [invalidSize] at hquantity

end AutoBit.Strategy
