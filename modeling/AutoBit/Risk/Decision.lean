import AutoBit.Risk.Delay

/-!
# Decisions as combined rules

A snapshot is either refused as a whole, or it is judged by the rules and their outcomes
are combined. Two snapshots that are refused alike and that the rules judge alike get the
same decision.
-/

namespace AutoBit.Risk

open Library

/-- A decision carries the reasons of all outcomes, whatever they amount to. -/
theorem combine_reasons (rule : (ℚ × ℚ) × RuleOutcome × List String) (outcomes : List RuleOutcome) :
    (combine rule outcomes).reasons =
      rule.2.1.reasons ++ rule.2.2 ++ outcomes.flatMap RuleOutcome.reasons := by
  unfold combine
  dsimp only
  split
  · rfl
  · split <;> rfl

/-- The outcomes of the rules after the drawdown rule. -/
def RiskInput.outcomes (input : RiskInput) (ratio : ℚ) : List RuleOutcome :=
  [dailyRule input.now input.dailyLoss input.dailyHaltStartedAt,
    weeklyRule input.now input.weeklyLoss input.weeklyHaltStartedAt,
    streakRule input.now input.consecutiveLosses input.profitableTradesSinceStreakHalt
      input.streakHaltStartedAt,
    volatilityRule ratio input.volatilityHalted input.volatilityStableBars]

/-- A snapshot that the rules are applied to. -/
structure RiskInput.Judged (input : RiskInput) (drawdown ratio : ℚ) : Prop where
  systemHealthy : input.systemHealthy = true
  drawdown_eq : input.drawdown = some drawdown
  ratio_eq : input.volatilityRatio = .number ratio
  drawdown_nonneg : 0 ≤ drawdown
  dailyLoss : 0 ≤ input.dailyLoss
  weeklyLoss : 0 ≤ input.weeklyLoss
  ratio_nonneg : 0 ≤ ratio
  config : input.config = approvedConfig

/-- A judged snapshot gets what its rules amount to. -/
theorem RiskInput.Judged.decision {input : RiskInput} {drawdown ratio : ℚ}
    (h : input.Judged drawdown ratio) : evaluateRisk input =
      combine (drawdownRule input.now drawdown input.recoveryStartedAt) (input.outcomes ratio) := by
  have hhealthy : ¬input.systemHealthy = false := by simp [h.systemHealthy]
  have hvalid : ¬(drawdown < 0 ∨ input.dailyLoss < 0 ∨ input.weeklyLoss < 0 ∨ ratio < 0) := by
    simp only [not_or, not_lt]
    exact ⟨h.drawdown_nonneg, h.dailyLoss, h.weeklyLoss, h.ratio_nonneg⟩
  simp only [evaluateRisk, h.drawdown_eq, h.ratio_eq]
  rw [if_neg hhealthy, if_neg hvalid, if_neg (not_not.mpr h.config)]
  rfl

/-- The decision on a snapshot that the rules are not applied to. -/
def RiskInput.refusal (input : RiskInput) : RiskDecision :=
  if input.systemHealthy = false then ⟨0, 0, none, ["system_unhealthy"]⟩
  else
    match input.drawdown, input.volatilityRatio with
    | some drawdown, .number ratio =>
      if drawdown < 0 ∨ input.dailyLoss < 0 ∨ input.weeklyLoss < 0 ∨ ratio < 0 then
        invalidDecision
      else invalidConfigDecision
    | _, _ => invalidDecision

/-- Nothing can be bought under a refusal. -/
theorem RiskInput.refusal_closed (input : RiskInput) : input.refusal.Closed := by
  unfold RiskInput.refusal
  split
  · exact ⟨rfl, rfl⟩
  · split
    · split <;> exact ⟨rfl, rfl⟩
    · exact ⟨rfl, rfl⟩

/-- A snapshot is judged or refused. -/
theorem evaluateRisk_judged_or_refused (input : RiskInput) :
    (∃ drawdown ratio, input.Judged drawdown ratio) ∨ evaluateRisk input = input.refusal := by
  by_cases hhealthy : input.systemHealthy = true
  · cases hdrawdown : input.drawdown with
    | none => exact .inr (by simp [evaluateRisk, RiskInput.refusal, hdrawdown])
    | some drawdown =>
      cases hratio : input.volatilityRatio with
      | number ratio =>
        by_cases hvalid : drawdown < 0 ∨ input.dailyLoss < 0 ∨ input.weeklyLoss < 0 ∨ ratio < 0
        · exact .inr (by simp [evaluateRisk, RiskInput.refusal, hdrawdown, hratio, hvalid])
        · by_cases hconfig : input.config = approvedConfig
          · simp only [not_or, not_lt] at hvalid
            exact .inl ⟨drawdown, ratio, hhealthy, hdrawdown, hratio, hvalid.1, hvalid.2.1,
              hvalid.2.2.1, hvalid.2.2.2, hconfig⟩
          · exact .inr (by simp [evaluateRisk, RiskInput.refusal, hdrawdown, hratio, hvalid, hconfig])
      | infinite negative => exact .inr (by simp [evaluateRisk, RiskInput.refusal, hdrawdown, hratio])
      | nan => exact .inr (by simp [evaluateRisk, RiskInput.refusal, hdrawdown, hratio])
  · exact .inr (by simp [evaluateRisk, RiskInput.refusal, hhealthy])

/-- Snapshots with the same facts, whose rules have the same outcomes where they are
applied, get the same decision. -/
theorem evaluateRisk_congr {input input' : RiskInput}
    (hhealthy : input'.systemHealthy = input.systemHealthy)
    (hdrawdown : input'.drawdown = input.drawdown) (hdaily : input'.dailyLoss = input.dailyLoss)
    (hweekly : input'.weeklyLoss = input.weeklyLoss)
    (hratio : input'.volatilityRatio = input.volatilityRatio)
    (hconfig : input'.config = input.config)
    (hrules : ∀ drawdown ratio, input.Judged drawdown ratio →
      drawdownRule input'.now drawdown input'.recoveryStartedAt =
          drawdownRule input.now drawdown input.recoveryStartedAt ∧
        input'.outcomes ratio = input.outcomes ratio) :
    evaluateRisk input' = evaluateRisk input := by
  have hsame (drawdown ratio : ℚ) : input'.Judged drawdown ratio ↔ input.Judged drawdown ratio := by
    constructor <;> intro ⟨h₁, h₂, h₃, h₄, h₅, h₆, h₇, h₈⟩ <;> constructor <;> simp_all
  rcases evaluateRisk_judged_or_refused input with ⟨drawdown, ratio, hjudged⟩ | hrefused
  · obtain ⟨hrule, houtcomes⟩ := hrules drawdown ratio hjudged
    rw [hjudged.decision, ((hsame drawdown ratio).mpr hjudged).decision, hrule, houtcomes]
  · rcases evaluateRisk_judged_or_refused input' with ⟨drawdown, ratio, hjudged'⟩ | hrefused'
    · have hjudged := (hsame drawdown ratio).mp hjudged'
      obtain ⟨hrule, houtcomes⟩ := hrules drawdown ratio hjudged
      rw [hjudged.decision, hjudged'.decision, hrule, houtcomes]
    · rw [hrefused, hrefused']
      simp only [RiskInput.refusal, hhealthy, hdrawdown, hdaily, hweekly, hratio]

end AutoBit.Risk
