import AutoBit.Basic
import AutoBit.Library.Except
import Mathlib.Algebra.Order.Field.Rat

/-!
# Risk limits and the accumulated risk state

`evaluateRisk` applies the five rules of the risk policy to one snapshot, and
`advanceRiskState` accumulates the facts of one completed bar before it asks for a
decision. Floats are read as rationals; a drawdown that is not a number is `none`, and the
volatility ratio, which nothing checks before it is used, keeps its non-finite values.
-/

namespace AutoBit.Risk

open Library

/-- `RiskConfig`. -/
structure RiskConfig where
  baseRiskRate : ℚ := 2 / 100
  maxExposure : ℚ := 70 / 100
  hardDrawdown : ℚ := 15 / 100
  dailyLossLimit : ℚ := 4 / 100
  weeklyReduceLimit : ℚ := 5 / 100
  weeklyHaltLimit : ℚ := 7 / 100
  deriving DecidableEq, Repr

/-- `_APPROVED_CONFIG`. -/
def approvedConfig : RiskConfig := {}

/-- `RiskDecision`: the most restrictive risk state active for the supplied snapshot. -/
structure RiskDecision where
  riskRate : ℚ
  exposureCap : ℚ
  haltedUntil : Option ℤ
  reasons : List String
  deriving DecidableEq, Repr

/-- A float that nothing has checked: a number, an infinity of either sign, or no number. -/
inductive Reading where
  | number (value : ℚ)
  | infinite (negative : Bool)
  | nan
  deriving DecidableEq, Repr

/-- `reading <= bound`, which no NaN satisfies. -/
def Reading.AtMost (bound : ℚ) : Reading → Prop
  | .number value => value ≤ bound
  | .infinite negative => negative = true
  | .nan => False

/-- `reading > bound`, which no NaN satisfies. -/
def Reading.Exceeds (bound : ℚ) : Reading → Prop
  | .number value => bound < value
  | .infinite negative => negative = false
  | .nan => False

instance (bound : ℚ) : DecidablePred (Reading.AtMost bound)
  | .number value => inferInstanceAs (Decidable (value ≤ bound))
  | .infinite negative => inferInstanceAs (Decidable (negative = true))
  | .nan => inferInstanceAs (Decidable False)

instance (bound : ℚ) : DecidablePred (Reading.Exceeds bound)
  | .number value => inferInstanceAs (Decidable (bound < value))
  | .infinite negative => inferInstanceAs (Decidable (negative = false))
  | .nan => inferInstanceAs (Decidable False)

/-- The keyword arguments of `evaluate_risk`. -/
structure RiskInput where
  now : ℤ
  drawdown : Option ℚ
  dailyLoss : ℚ
  weeklyLoss : ℚ
  consecutiveLosses : ℕ
  volatilityRatio : Reading
  systemHealthy : Bool
  config : RiskConfig
  recoveryStartedAt : Option ℤ := none
  dailyHaltStartedAt : Option ℤ := none
  weeklyHaltStartedAt : Option ℤ := none
  streakHaltStartedAt : Option ℤ := none
  volatilityHalted : Bool := false
  volatilityStableBars : ℕ := 0
  profitableTradesSinceStreakHalt : ℕ := 0
  deriving DecidableEq, Repr

/-- What one rule of `evaluate_risk` adds to the decision. -/
inductive RuleOutcome where
  | clear
  | halt (reason : String) (until_ : Option ℤ)
  | reduce (reason : String)
  deriving DecidableEq, Repr

/-- The reason that an outcome appends. -/
def RuleOutcome.reasons : RuleOutcome → List String
  | .clear => []
  | .halt reason _ => [reason]
  | .reduce reason => [reason]

/-- The halt that an outcome appends. -/
def RuleOutcome.halts : RuleOutcome → List (Option ℤ)
  | .halt _ until_ => [until_]
  | _ => []

/-- Whether an outcome halves the limits. -/
def RuleOutcome.isReduce : RuleOutcome → Bool
  | .reduce _ => true
  | _ => false

/-- `_drawdown_ladder`. -/
def drawdownLadder (drawdown : ℚ) : ℚ × ℚ :=
  if 10 / 100 ≤ drawdown then (5 / 1000, 30 / 100)
  else if 5 / 100 ≤ drawdown then (1 / 100, 50 / 100)
  else (2 / 100, 70 / 100)

/-- `_recovery_ladder`. -/
def recoveryLadder (drawdown : ℚ) : ℚ × ℚ :=
  if 10 / 100 ≤ drawdown then (25 / 10000, 15 / 100)
  else if 5 / 100 ≤ drawdown then (5 / 1000, 30 / 100)
  else if 0 < drawdown then (1 / 100, 50 / 100)
  else (2 / 100, 70 / 100)

/-- `_invalid_decision`. -/
def invalidDecision : RiskDecision := ⟨0, 0, none, ["invalid_input"]⟩

/-- `_invalid_config_decision`. -/
def invalidConfigDecision : RiskDecision := ⟨0, 0, none, ["invalid_config"]⟩

/-- The drawdown rule: its ladder, its outcome, and whether the account recovers. -/
def drawdownRule (now : ℤ) (drawdown : ℚ) : Option ℤ → (ℚ × ℚ) × RuleOutcome × List String
  | none =>
    (drawdownLadder drawdown,
      if approvedConfig.hardDrawdown ≤ drawdown then .halt "drawdown_halt" (some (now + hours 72))
      else .clear, [])
  | some start =>
    if now < start + hours 72 then
      (drawdownLadder drawdown, .halt "drawdown_halt" (some (start + hours 72)), [])
    else (recoveryLadder drawdown, .clear, if 0 < drawdown then ["recovery"] else [])

/-- The daily-loss rule. -/
def dailyRule (now : ℤ) (loss : ℚ) : Option ℤ → RuleOutcome
  | none =>
    if approvedConfig.dailyLossLimit ≤ loss then .halt "daily_loss_halt" (some (now + hours 24))
    else .clear
  | some start =>
    if now < start + hours 24 then .halt "daily_loss_halt" (some (start + hours 24))
    else if approvedConfig.dailyLossLimit ≤ loss then .reduce "daily_loss_reduced"
    else .clear

/-- The weekly-loss rule. -/
def weeklyRule (now : ℤ) (loss : ℚ) (start : Option ℤ) : RuleOutcome :=
  match start with
  | some start =>
    if now < start + hours 48 then .halt "weekly_loss_halt" (some (start + hours 48))
    else if approvedConfig.weeklyReduceLimit ≤ loss then .reduce "weekly_loss_reduced"
    else .clear
  | none =>
    if approvedConfig.weeklyHaltLimit ≤ loss then .halt "weekly_loss_halt" (some (now + hours 48))
    else if approvedConfig.weeklyReduceLimit ≤ loss then .reduce "weekly_loss_reduced"
    else .clear

/-- The loss-streak rule. -/
def streakRule (now : ℤ) (losses profitableSinceHalt : ℕ) (start : Option ℤ) : RuleOutcome :=
  match start with
  | some start =>
    if now < start + hours 48 then .halt "loss_streak_halt" (some (start + hours 48))
    else if profitableSinceHalt < 2 then .reduce "loss_streak_reduced"
    else .clear
  | none =>
    if 5 ≤ losses then .halt "loss_streak_halt" (some (now + hours 48))
    else if 3 ≤ losses then .reduce "loss_streak_reduced"
    else .clear

/-- The volatility rule. -/
def volatilityRule (ratio : ℚ) (halted : Bool) (stableBars : ℕ) : RuleOutcome :=
  if halted then
    if ratio ≤ 15 / 10 ∧ 3 ≤ stableBars then .clear else .halt "volatility_halt" none
  else if 3 < ratio then .halt "volatility_halt" none
  else if 2 < ratio then .reduce "volatility_reduced"
  else .clear

/-- `evaluate_risk`. The typed arguments leave the checks of types out. -/
def evaluateRisk (input : RiskInput) : RiskDecision :=
  if input.systemHealthy = false then ⟨0, 0, none, ["system_unhealthy"]⟩
  else
    match input.drawdown, input.volatilityRatio with
    | some drawdown, .number ratio =>
      if drawdown < 0 ∨ input.dailyLoss < 0 ∨ input.weeklyLoss < 0 ∨ ratio < 0 then
        invalidDecision
      else if input.config ≠ approvedConfig then invalidConfigDecision
      else
        let (ladder, drawdownOutcome, recovery) :=
          drawdownRule input.now drawdown input.recoveryStartedAt
        let outcomes :=
          [dailyRule input.now input.dailyLoss input.dailyHaltStartedAt,
            weeklyRule input.now input.weeklyLoss input.weeklyHaltStartedAt,
            streakRule input.now input.consecutiveLosses input.profitableTradesSinceStreakHalt
              input.streakHaltStartedAt,
            volatilityRule ratio input.volatilityHalted input.volatilityStableBars]
        let reasons :=
          drawdownOutcome.reasons ++ recovery ++ outcomes.flatMap RuleOutcome.reasons
        let halts := drawdownOutcome.halts ++ outcomes.flatMap RuleOutcome.halts
        if halts ≠ [] then
          ⟨0, 0, if none ∈ halts then none else (halts.filterMap id).max?, reasons⟩
        else if outcomes.any RuleOutcome.isReduce then
          ⟨min ladder.1 (ladder.1 / 2), min ladder.2 (ladder.2 / 2), none, reasons⟩
        else ⟨ladder.1, ladder.2, none, reasons⟩
    | _, _ => invalidDecision

/-- `RiskState`. -/
structure RiskState where
  initialEquity : ℚ := 100
  equityPeak : ℚ := 100
  dailyDate : Option ℤ := none
  dailyBaselineEquity : ℚ := 100
  equityHistory : List (ℤ × ℚ) := []
  riskStartedAt : Option ℤ := none
  lastEquity : ℚ := 100
  lastRiskAt : Option ℤ := none
  consecutiveLosses : ℕ := 0
  processedTradeCount : ℕ := 0
  recoveryStartedAt : Option ℤ := none
  dailyHaltStartedAt : Option ℤ := none
  weeklyHaltStartedAt : Option ℤ := none
  streakHaltStartedAt : Option ℤ := none
  profitableTradesSinceStreakHalt : ℕ := 0
  volatilityHalted : Bool := false
  volatilityStableBars : ℕ := 0
  decision : RiskDecision := ⟨2 / 100, 70 / 100, none, []⟩
  deriving DecidableEq, Repr

/-- `ClosedTradeObservation`. -/
structure ClosedTrade where
  netPnl : ℚ
  exitTime : ℤ
  deriving DecidableEq, Repr

/-- `RiskObservation`. -/
structure RiskObservation where
  now : ℤ
  equity : ℚ
  closedTrades : List ClosedTrade
  volatilityRatio : Reading
  volatilityBarValid : Bool
  systemHealthy : Bool
  deriving DecidableEq, Repr

/-- The chronology of the closed trades, as `_validate_observation` walks through it: no
trade after the bar, none before its predecessor, and no new one before the last bar. -/
def tradesInOrder (prior : RiskState) (now : ℤ) : ℕ → Option ℤ → List ClosedTrade →
    Except Failure Unit
  | _, _, [] => .ok ()
  | index, previous, trade :: trades => do
    reject (now < trade.exitTime ∨ ∃ before ∈ previous, trade.exitTime < before)
      (.value "completed trade chronology is invalid")
    reject (prior.processedTradeCount ≤ index ∧ ∃ last ∈ prior.lastRiskAt, trade.exitTime < last)
      (.value "new trade precedes processed risk history")
    tradesInOrder prior now (index + 1) (some trade.exitTime) trades

/-- `_validate_observation`. -/
def validateObservation (prior : RiskState) (observation : RiskObservation) :
    Except Failure Unit := do
  reject (observation.equity < 0) (.value "mark-to-market equity is invalid")
  reject (prior.initialEquity ≤ 0) (.value "initial equity is invalid")
  reject (observation.closedTrades.length < prior.processedTradeCount)
    (.value "risk trade cursor is ahead of broker history")
  tradesInOrder prior observation.now 0 none observation.closedTrades
  reject (∃ last ∈ prior.lastRiskAt, observation.now < last) (.value "risk timestamp is reversed")
  reject (prior.lastRiskAt = some observation.now ∧ (observation.equity ≠ prior.lastEquity ∨
      observation.closedTrades.length ≠ prior.processedTradeCount))
    (.value "same-bar followup may not change equity or trades")

/-- `_loss_from_baseline`. -/
def lossFromBaseline (equity baseline : ℚ) : ℚ :=
  if 0 < baseline then max 0 (1 - equity / baseline) else 0

/-- Count one new trade into the loss streak and the profitable trades since its halt. -/
def countTrade (streakStart : Option ℤ) (counts : ℕ × ℕ) (trade : ClosedTrade) : ℕ × ℕ :=
  (if trade.netPnl < 0 then counts.1 + 1 else 0,
    if 0 < trade.netPnl ∧ ∃ start ∈ streakStart, start < trade.exitTime then counts.2 + 1
    else counts.2)

/-- `advance_risk_state`. -/
def advanceRiskState (prior : RiskState) (observation : RiskObservation) (config : RiskConfig) :
    Except Failure RiskState := do
  validateObservation prior observation
  let barAt := observation.now
  let equity := observation.equity
  let newBar : Bool := prior.lastRiskAt ≠ some barAt
  let (consecutiveLosses, profitable) :=
    (observation.closedTrades.drop prior.processedTradeCount).foldl
      (countTrade prior.streakHaltStartedAt)
      (prior.consecutiveLosses, prior.profitableTradesSinceStreakHalt)
  let equityPeak := max prior.equityPeak equity
  let drawdown := if 0 < equityPeak then some (max 0 (1 - equity / equityPeak)) else none
  let priorDate := prior.dailyDate.getD (utcDate barAt)
  let dailyBaseline :=
    if utcDate barAt ≠ priorDate then prior.lastEquity else prior.dailyBaselineEquity
  let dailyLoss := lossFromBaseline equity dailyBaseline
  let riskStartedAt := prior.riskStartedAt.getD barAt
  let history := if newBar then prior.equityHistory ++ [(barAt, equity)] else prior.equityHistory
  let recentHistory := history.filter fun item => barAt - hours 168 ≤ item.1
  let weeklyBaseline ←
    if barAt - riskStartedAt < hours 168 then pure prior.initialEquity
    else match recentHistory.head? with
      | some item => pure item.2
      | none => .error (.value "tuple index out of range")
  let weeklyLoss := lossFromBaseline equity weeklyBaseline
  let recoveryStart :=
    if (∃ value ∈ drawdown, config.hardDrawdown ≤ value) ∧ prior.recoveryStartedAt = none then
      some barAt
    else prior.recoveryStartedAt
  let dailyStart :=
    if config.dailyLossLimit ≤ dailyLoss ∧ prior.dailyHaltStartedAt = none then some barAt
    else prior.dailyHaltStartedAt
  let weeklyStart :=
    if config.weeklyHaltLimit ≤ weeklyLoss ∧ prior.weeklyHaltStartedAt = none then some barAt
    else prior.weeklyHaltStartedAt
  let streakBegins : Bool := 5 ≤ consecutiveLosses ∧ prior.streakHaltStartedAt = none
  let streakStart := if streakBegins then some barAt else prior.streakHaltStartedAt
  let profitable := if streakBegins then 0 else profitable
  let ratio := observation.volatilityRatio
  let volatilityBegins : Bool := !prior.volatilityHalted ∧ ratio.Exceeds 3
  let volatilityHalted := prior.volatilityHalted || volatilityBegins
  let stableBars :=
    if prior.volatilityHalted ∧ newBar then
      if observation.volatilityBarValid ∧ ratio.AtMost (15 / 10) then prior.volatilityStableBars + 1
      else 0
    else if volatilityBegins then 0
    else prior.volatilityStableBars
  let decision := evaluateRisk {
    now := barAt
    drawdown, dailyLoss, weeklyLoss, consecutiveLosses
    volatilityRatio := ratio
    systemHealthy := observation.systemHealthy
    config
    recoveryStartedAt := recoveryStart
    dailyHaltStartedAt := dailyStart
    weeklyHaltStartedAt := weeklyStart
    streakHaltStartedAt := streakStart
    volatilityHalted
    volatilityStableBars := stableBars
    profitableTradesSinceStreakHalt := profitable }
  let streakEnds : Bool := (∃ start ∈ streakStart, start + hours 48 ≤ barAt) ∧ 2 ≤ profitable
  let volatilityEnds : Bool :=
    volatilityHalted ∧ observation.volatilityBarValid ∧ ratio.AtMost (15 / 10) ∧ 3 ≤ stableBars
  return {
    initialEquity := prior.initialEquity
    equityPeak
    dailyDate := some (utcDate barAt)
    dailyBaselineEquity := dailyBaseline
    equityHistory := recentHistory
    riskStartedAt := some riskStartedAt
    lastEquity := equity
    lastRiskAt := some barAt
    consecutiveLosses
    processedTradeCount := observation.closedTrades.length
    recoveryStartedAt :=
      if (∃ start ∈ recoveryStart, start + hours 72 ≤ barAt) ∧ drawdown = some 0 then none
      else recoveryStart
    dailyHaltStartedAt :=
      if (∃ start ∈ dailyStart, start + hours 24 ≤ barAt) ∧ dailyLoss < config.dailyLossLimit then
        none
      else dailyStart
    weeklyHaltStartedAt :=
      if (∃ start ∈ weeklyStart, start + hours 48 ≤ barAt) ∧
          weeklyLoss < config.weeklyHaltLimit then none
      else weeklyStart
    streakHaltStartedAt := if streakEnds then none else streakStart
    profitableTradesSinceStreakHalt := if streakEnds then 0 else profitable
    volatilityHalted := volatilityHalted && !volatilityEnds
    volatilityStableBars := if volatilityEnds then 0 else stableBars
    decision }

/-- `apply_health_recovery`. -/
def applyHealthRecovery (decision : RiskDecision) (systemHealthy resumeReduced : Bool) :
    RiskDecision :=
  if systemHealthy = false then ⟨0, 0, none, ["system_unhealthy"]⟩
  else if resumeReduced = false ∨ decision.haltedUntil ≠ none ∨ decision.riskRate ≤ 0 ∨
      decision.exposureCap ≤ 0 then decision
  else ⟨decision.riskRate / 2, decision.exposureCap / 2, decision.haltedUntil,
    decision.reasons ++ ["health_recovery_reduced"]⟩

end AutoBit.Risk
