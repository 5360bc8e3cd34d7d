import AutoBit.Risk.Policy

/-!
# Sizing, stops and the decision of one bar

`decide` is the one pure policy for entries, exit priority, protective stops and sizing.
A value that is missing or not a finite number is `none`; every other float is read as
a rational.
-/

namespace AutoBit.Strategy

open Risk

/-- `CostConfig`. -/
structure CostConfig where
  feeRate : ℚ := 5 / 10000
  slippageRate : ℚ := 5 / 10000
  deriving DecidableEq, Repr

/-- `StrategyConfig`, without the periods that only select indicator columns. -/
structure StrategyConfig where
  initialAtrMult : ℚ := 25 / 10
  profitActivationR : ℚ := 2
  trailingAtrMult : ℚ := 3
  stagnantBars : ℕ := 60
  stagnantMinR : ℚ := 1
  maxHoldingBars : ℕ := 1095
  warmupBars : ℕ := 600
  deriving DecidableEq, Repr

/-- One completed candle with its indicators. -/
structure Row where
  open_ : Option ℚ := none
  high : Option ℚ := none
  low : Option ℚ := none
  close : Option ℚ := none
  volume : Option ℚ := none
  isQuarantined : Bool := false
  isFilled : Bool := false
  ema : Option ℚ := none
  entryHigh : Option ℚ := none
  previousClose : Option ℚ := none
  previousEntryHigh : Option ℚ := none
  exitLow : Option ℚ := none
  atr : Option ℚ := none
  baselineAtrPct : Option ℚ := none
  warmupComplete : Bool := false
  entryDataValid : Bool := false
  deriving DecidableEq, Repr

/-- `SizeDecision`. -/
structure SizeDecision where
  quantity : ℚ
  bindingConstraint : String
  estimatedLoss : ℚ
  deriving DecidableEq, Repr

/-- `_invalid_decision` of the position sizer. -/
def invalidSize : SizeDecision := ⟨0, "invalid_input", 0⟩

/-- The keyword arguments of `calculate_size`. -/
structure SizeInput where
  equity : ℚ
  cash : ℚ
  entry : ℚ
  stop : Option ℚ
  currentAtrPct : ℚ
  baselineAtrPct : Option ℚ
  riskRate : ℚ
  exposureCap : ℚ
  costs : CostConfig
  deriving DecidableEq, Repr

/-- The loss per unit, costs included, when an entry is stopped out. -/
def effectiveLoss (entry stop : ℚ) (costs : CostConfig) : ℚ :=
  let expectedBuyFill := entry * (1 + costs.slippageRate)
  let expectedStopFill := stop * (1 - costs.slippageRate)
  expectedBuyFill - expectedStopFill + expectedBuyFill * costs.feeRate +
    expectedStopFill * costs.feeRate

/-- `min(candidates, key=...)`: the first of the smallest candidates. -/
def smallest (first : String × ℚ) (rest : List (String × ℚ)) : String × ℚ :=
  rest.foldl (fun best candidate => if candidate.2 < best.2 then candidate else best) first

/-- `calculate_size`. -/
def calculateSize (input : SizeInput) : SizeDecision :=
  match input.stop, input.baselineAtrPct with
  | some stop, some baseline =>
    let costs := input.costs
    let loss := effectiveLoss input.entry stop costs
    if input.equity < 0 ∨ input.cash < 0 ∨ input.riskRate < 0 ∨ input.exposureCap < 0 ∨
        input.entry ≤ 0 ∨ stop ≤ 0 ∨ input.currentAtrPct ≤ 0 ∨ baseline ≤ 0 ∨
        input.entry ≤ stop then invalidSize
    else if ¬(0 ≤ costs.feeRate ∧ costs.feeRate < 1 ∧ 0 ≤ costs.slippageRate ∧
        costs.slippageRate < 1) then invalidSize
    else if loss ≤ 0 then invalidSize
    else
      let expectedBuyFill := input.entry * (1 + costs.slippageRate)
      let fixed := input.equity * input.riskRate / loss
      let volatility := fixed * min 1 (baseline / input.currentAtrPct)
      let exposure := input.equity * input.exposureCap / expectedBuyFill
      let cashLimit := input.cash / (expectedBuyFill * (1 + costs.feeRate))
      let chosen := smallest ("fixed", fixed)
        [("volatility", volatility), ("exposure", exposure), ("cash", cashLimit)]
      ⟨chosen.2, chosen.1, chosen.2 * loss⟩
  | _, _ => invalidSize

/-- `initial_stop_price`, with `none` for the result that is not a number. -/
def initialStopPrice (entryPrice entryAtr initialAtrMult : ℚ) : Option ℚ :=
  if entryPrice ≤ 0 ∨ entryAtr ≤ 0 ∨ initialAtrMult ≤ 0 then none
  else some (entryPrice - initialAtrMult * entryAtr)

/-- `evaluate_entry` for a flat account. -/
def evaluateEntry (row : Row) : Bool :=
  row.warmupComplete && row.entryDataValid &&
    match row.close, row.ema, row.entryHigh, row.previousClose, row.previousEntryHigh, row.atr with
    | some close, some ema, some entryHigh, some previousClose, some previousEntryHigh, some _ =>
      decide (entryHigh < close ∧ ema < close ∧ previousClose ≤ previousEntryHigh)
    | _, _, _, _, _, _ => false

/-- `evaluate_close_exit`. -/
def evaluateCloseExit (row : Row) : Bool :=
  match row.close, row.exitLow with
  | some close, some exitLow => decide (close < exitLow)
  | _, _ => false

/-- `PositionContext`. -/
structure PositionContext where
  entryPrice : ℚ
  initialStop : ℚ
  currentStop : ℚ
  highWater : ℚ
  quantity : ℚ
  heldBars : ℤ
  deriving DecidableEq, Repr

/-- `next_stop`. -/
def nextStop (position : PositionContext) (row : Row) (config : StrategyConfig) : ℚ :=
  match row.high with
  | none => position.currentStop
  | some high =>
    let highWater := max position.highWater high
    let riskUnit := position.entryPrice - position.initialStop
    if riskUnit ≤ 0 then position.currentStop
    else if highWater < position.entryPrice + config.profitActivationR * riskUnit then
      position.currentStop
    else
      match row.atr with
      | none => position.currentStop
      | some atr =>
        if atr ≤ 0 then position.currentStop
        else max (max position.currentStop position.entryPrice)
          (highWater - config.trailingAtrMult * atr)

/-- `DecisionInput`. -/
structure DecisionInput where
  row : Row
  cash : ℚ
  equity : ℚ
  position : Option PositionContext
  hasPendingOrder : Bool
  risk : RiskDecision
  deriving DecidableEq, Repr

/-- The action of a decision, with its reason and quantity. -/
inductive Action where
  | hold
  | buy (reason : String) (quantity : ℚ)
  | sell (reason : String) (quantity : ℚ)
  deriving DecidableEq, Repr

/-- `Decision`. -/
structure Decision where
  action : Action
  nextStop : Option ℚ
  risk : RiskDecision
  deriving DecidableEq, Repr

/-- `forced_exit_reason`. -/
def forcedExitReason (risk : RiskDecision) : Option String :=
  if "drawdown_halt" ∈ risk.reasons then some "RISK_EXIT"
  else if ∃ reason ∈ risk.reasons,
      reason ∈ ["system_unhealthy", "invalid_input", "invalid_config"] then some "SYSTEM_EXIT"
  else none

/-- `_valid_position`. -/
def validPosition (position : PositionContext) : Bool :=
  0 < position.entryPrice ∧ 0 < position.initialStop ∧ 0 < position.currentStop ∧
    0 < position.highWater ∧ 0 < position.quantity ∧
    position.initialStop < position.entryPrice ∧ position.initialStop ≤ position.currentStop ∧
    0 ≤ position.heldBars

/-- The running high of a position: `max(position.high_water, row["high"])`. -/
def runningHigh (position : PositionContext) (row : Row) : ℚ :=
  match row.high with
  | some high => if 0 < high then max position.highWater high else position.highWater
  | none => position.highWater

/-- `StrategyEngine.decide` for an open position. -/
def decidePosition (strategy : StrategyConfig) (s : DecisionInput) (position : PositionContext) :
    Decision :=
  let hold : Decision := ⟨.hold, none, s.risk⟩
  let sell (reason : String) : Decision := ⟨.sell reason position.quantity, none, s.risk⟩
  if position.quantity ≤ 0 then hold
  else
    match forcedExitReason s.risk with
    | some reason => sell reason
    | none =>
      if !validPosition position then sell "SYSTEM_EXIT"
      else if s.hasPendingOrder then hold
      else if evaluateCloseExit s.row then sell "CLOSE_EXIT"
      else
        let highWater := runningHigh position s.row
        let riskUnit := position.entryPrice - position.initialStop
        if strategy.stagnantBars ≤ position.heldBars ∧ 0 < riskUnit ∧
            highWater < position.entryPrice + strategy.stagnantMinR * riskUnit then
          sell "STAGNANT_EXIT"
        else if strategy.maxHoldingBars ≤ position.heldBars then sell "MAX_HOLD_EXIT"
        else ⟨.hold, some (nextStop { position with highWater } s.row strategy), s.risk⟩

/-- `StrategyEngine.decide` for a flat account. -/
def decideEntry (strategy : StrategyConfig) (costs : CostConfig) (s : DecisionInput) : Decision :=
  let hold : Decision := ⟨.hold, none, s.risk⟩
  if s.hasPendingOrder ∨ s.cash < 0 ∨ s.equity ≤ 0 ∨ s.risk.haltedUntil ≠ none ∨
      s.risk.riskRate ≤ 0 ∨ s.risk.exposureCap ≤ 0 ∨ evaluateEntry s.row = false then hold
  else
    match s.row.close, s.row.atr with
    | some close, some atr =>
      if close ≤ 0 ∨ atr ≤ 0 then hold
      else
        let stop := initialStopPrice close atr strategy.initialAtrMult
        let size := calculateSize {
          equity := s.equity
          cash := s.cash
          entry := close
          stop
          currentAtrPct := atr / close
          baselineAtrPct := s.row.baselineAtrPct
          riskRate := s.risk.riskRate
          exposureCap := s.risk.exposureCap
          costs }
        if 0 < size.quantity then ⟨.buy "ENTRY" size.quantity, stop, s.risk⟩ else hold
    | _, _ => hold

/-- A sale is one of the whole position. -/
theorem decidePosition_sell {strategy : StrategyConfig} {s : DecisionInput}
    {position : PositionContext} {reason : String} {quantity : ℚ}
    (h : (decidePosition strategy s position).action = .sell reason quantity) :
    quantity = position.quantity := by
  unfold decidePosition at h
  grind

/-- There is no entry while an order is pending. -/
theorem decideEntry_buy {strategy : StrategyConfig} {costs : CostConfig} {s : DecisionInput}
    {reason : String} {quantity : ℚ}
    (h : (decideEntry strategy costs s).action = .buy reason quantity) :
    s.hasPendingOrder = false := by
  unfold decideEntry at h
  grind

/-- `StrategyEngine.decide`. -/
def decide (strategy : StrategyConfig) (costs : CostConfig) (s : DecisionInput) : Decision :=
  match s.position with
  | some position => decidePosition strategy s position
  | none => decideEntry strategy costs s

/-- Every purchase has the same reason. -/
theorem decide_buy_reason {strategy : StrategyConfig} {costs : CostConfig} {s : DecisionInput}
    {reason : String} {quantity : ℚ}
    (h : (decide strategy costs s).action = .buy reason quantity) : reason = "ENTRY" := by
  unfold decide at h
  split at h
  · unfold decidePosition at h
    grind
  · unfold decideEntry at h
    grind

end AutoBit.Strategy
