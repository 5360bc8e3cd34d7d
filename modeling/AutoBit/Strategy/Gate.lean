import AutoBit.Risk.Antitone
import AutoBit.Strategy.Engine

/-!
# What the risk limits mean for an entry

An entry needs a flat account without a pending order and a decision that leaves something.
Together with the bounds and the order of the limits this is what the policy promises.
-/

namespace AutoBit.Strategy

open Risk

/-- An open position is never added to. -/
theorem decidePosition_not_buy (strategy : StrategyConfig) (s : DecisionInput)
    (position : PositionContext) (reason : String) (quantity : ℚ) :
    (decidePosition strategy s position).action ≠ .buy reason quantity := by
  unfold decidePosition
  dsimp only
  cases forcedExitReason s.risk <;> split_ifs <;> simp

/-- What an entry needs. -/
structure Admitted (s : DecisionInput) : Prop where
  flat : s.position = none
  noPendingOrder : s.hasPendingOrder = false
  haltedUntil : s.risk.haltedUntil = none
  riskRate : 0 < s.risk.riskRate
  exposureCap : 0 < s.risk.exposureCap

/-- The engine buys only what is admitted. -/
theorem admitted_of_buy {strategy : StrategyConfig} {costs : CostConfig} {s : DecisionInput}
    {reason : String} {quantity : ℚ}
    (h : (decide strategy costs s).action = .buy reason quantity) : Admitted s := by
  unfold decide at h
  cases hposition : s.position with
  | some position =>
    rw [hposition] at h
    exact absurd h (decidePosition_not_buy strategy s position reason quantity)
  | none =>
    simp only [hposition, decideEntry] at h
    split at h
    · cases h
    · rename_i hallowed
      simp only [not_or, not_lt, not_le, ne_eq, not_not, Bool.not_eq_true] at hallowed
      obtain ⟨hpending, -, -, hhalted, hrate, hcap, -⟩ := hallowed
      exact ⟨hposition, hpending, hhalted, hrate, hcap⟩

/-- The limits of a decision are bounded and antitone in the danger, and the engine buys only
for a flat account without a pending order, when both limits are positive and nothing halts. -/
theorem risk_gate :
    (∀ input, (0 ≤ (evaluateRisk input).riskRate ∧ (evaluateRisk input).riskRate ≤ 2 / 100) ∧
      0 ≤ (evaluateRisk input).exposureCap ∧ (evaluateRisk input).exposureCap ≤ 70 / 100) ∧
    (∀ input worse : RiskInput, input.Worse worse →
      (evaluateRisk worse).riskRate ≤ (evaluateRisk input).riskRate ∧
        (evaluateRisk worse).exposureCap ≤ (evaluateRisk input).exposureCap) ∧
    ∀ strategy costs s reason quantity,
      (decide strategy costs s).action = .buy reason quantity →
        Admitted s ∧ ∀ input, s.risk = evaluateRisk input →
          ∀ reason ∈ s.risk.reasons, reason ∉ haltReasons := by
  refine ⟨evaluateRisk_bounded, fun _ _ => evaluateRisk_antitone, ?_⟩
  intro strategy costs s reason quantity hbuy
  have hadmitted := admitted_of_buy hbuy
  refine ⟨hadmitted, fun input hrisk => ?_⟩
  have hrate := hadmitted.riskRate
  rw [hrisk] at hrate ⊢
  exact no_halt_of_pos hrate

/-- A healthy snapshot with some drawdown and volatility. -/
def sampleInput (drawdown ratio : ℚ) : RiskInput where
  now := 0
  drawdown := some drawdown
  dailyLoss := 0
  weeklyLoss := 0
  consecutiveLosses := 0
  volatilityRatio := .number ratio
  systemHealthy := true
  config := approvedConfig

/-- Reaching the first drawdown threshold and the reduced volatility at once costs three
quarters of the risk rate. -/
theorem risk_gate_thresholds :
    (evaluateRisk (sampleInput (5 / 100) (21 / 10))).riskRate ≤
        (evaluateRisk (sampleInput 0 2)).riskRate ∧
      (evaluateRisk (sampleInput (5 / 100) (21 / 10))).riskRate = 5 / 1000 ∧
      (evaluateRisk (sampleInput 0 2)).riskRate = 2 / 100 := by
  have hworse : (sampleInput 0 2).Worse (sampleInput (5 / 100) (21 / 10)) :=
    { drawdown := ⟨0, 5 / 100, rfl, rfl, le_rfl, by norm_num⟩
      dailyLoss := ⟨le_rfl, le_rfl⟩
      weeklyLoss := ⟨le_rfl, le_rfl⟩
      consecutiveLosses := le_rfl
      volatilityRatio := ⟨2, 21 / 10, rfl, rfl, by norm_num, by norm_num⟩
      systemHealthy := fun _ => rfl
      stableBars := le_rfl
      profitableTrades := le_rfl
      now := rfl
      config := rfl
      recoveryStartedAt := rfl
      dailyHaltStartedAt := rfl
      weeklyHaltStartedAt := rfl
      streakHaltStartedAt := rfl
      volatilityHalted := rfl }
  exact ⟨(risk_gate.2.1 _ _ hworse).1, by decide +kernel, by decide +kernel⟩

end AutoBit.Strategy
