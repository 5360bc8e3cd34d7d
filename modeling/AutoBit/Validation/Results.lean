import AutoBit.Strategy.Trend
import AutoBit.Validation.OrderReaders
import AutoBit.Validation.Stitching

/-!
# The results that a walk-forward run accepts

`_validate_backtest_result` takes a result of any origin: it checks the equity curve, rebuilds
the fills and the closed trades from the order log, and compares them with the trades and the
totals that the result states. What it accepts ends at the equity that its fills have paid for.
-/

namespace AutoBit.Validation

open Library Backtest Risk Strategy
open Data (QualityRow)
open Store (PositionState)

/-! ## The request -/

/-- `TrialConfig`. -/
structure TrialConfig where
  trialId : String
  emaPeriod : ℕ
  entryPeriod : ℕ
  exitPeriod : ℕ
  atrPeriod : ℕ
  stopAtrMult : ℚ
  deriving DecidableEq, Repr

/-- `CostScenario`. -/
structure CostScenario where
  costId : String
  feeRate : ℚ
  slippageRate : ℚ
  deriving DecidableEq, Repr

/-- `BacktestConfig`. -/
structure BacktestConfig where
  strategy : IndicatorConfig := {}
  risk : RiskConfig := {}
  costs : CostConfig := {}
  initialEquity : ℚ := 100
  entryFillFraction : ℚ := 1
  exitFillFraction : ℚ := 1
  forceLiquidateAtEnd : Bool := false
  deriving DecidableEq, Repr

/-- A row of an execution frame, with `_execution_segment_id`. -/
structure ExecutionRow extends TrendRow where
  executionSegmentId : ℕ
  deriving DecidableEq, Repr

/-- `BacktestRequest`. -/
structure BacktestRequest where
  phase : Phase
  foldId : String
  trialId : String
  trial : TrialConfig
  costId : String
  cost : CostScenario
  frame : List ExecutionRow
  config : BacktestConfig
  initialEquity : ℚ
  initialState : PositionState
  pendingOrders : ℕ
  deriving DecidableEq, Repr

/-- `BacktestRequest.__post_init__`. -/
def BacktestRequest.postInit (request : BacktestRequest) : Except Failure BacktestRequest := do
  reject (request.foldId = "") (.value "fold_id must not be empty")
  reject (request.trialId ≠ request.trial.trialId) (.value "trial_id must match trial")
  reject (request.costId ≠ request.cost.costId) (.value "cost_id must match cost")
  reject (request.initialEquity ≠ 100 ∨ request.config.initialEquity ≠ 100)
    (.value "walk-forward requests must start with equity 100")
  reject (request.initialState ≠ .flat) (.value "walk-forward requests must start FLAT")
  reject (request.pendingOrders ≠ 0) (.value "walk-forward requests must have no pending orders")
  return request

/-- `request.frame.index`, whose nanoseconds are whole microseconds. -/
def BacktestRequest.index (request : BacktestRequest) : List ℤ :=
  request.frame.map fun row => row.time / 1000

/-! ## The checks -/

/-- The variables of the loop of `_validate_backtest_result`; there is no previous equity at the
first point only. -/
structure EquityScan where
  previousEquity : Option ℚ
  timestamps : List ℤ

/-- One round of the loop of `_validate_backtest_result`. -/
def checkEquityPoint (request : BacktestRequest) (scan : EquityScan) (point : EquityPoint) :
    Except Failure EquityScan := do
  reject (¬InRange point.equity ∨ point.equity < 0)
    (.value "backtest equity must be finite and nonnegative")
  reject (scan.previousEquity = none ∧ ¬closeEnough point.equity request.initialEquity)
    (.value "first phase equity must match request initial equity")
  reject (scan.previousEquity = some 0 ∧ 0 < point.equity)
    (.value "zero-equity recovery is not a valid backtest path")
  let timestamp ← phaseTimestamp request.index point.timestamp "backtest equity"
  return { previousEquity := some point.equity, timestamps := scan.timestamps ++ [timestamp] }

/-- The variables of the loop of `_validate_trades`. -/
structure TradeScan where
  previousExit : Option ℤ
  tradeQuantity : ℚ
  tradeFees : ℚ
  realizedNetPnl : ℚ

/-- Whether a trade reconciles with its closed fill cycle. -/
def matchesCycle (trade : TradeRecord) (cycle : ClosedTradeCycle) : Prop :=
  let expectedGrossPnl := cycle.exitNotional - cycle.entryNotional
  trade.entryTime = cycle.entryTime ∧ trade.exitTime = cycle.exitTime ∧
    quantityClose trade.quantity cycle.quantity [] ∧
    closeEnough trade.entryPrice (cycle.entryNotional / cycle.quantity) ∧
    closeEnough trade.exitPrice (cycle.exitNotional / cycle.quantity) ∧
    closeEnough trade.fees cycle.fees ∧ closeEnough trade.grossPnl expectedGrossPnl ∧
    closeEnough trade.netPnl (expectedGrossPnl - cycle.fees)

instance (trade : TradeRecord) (cycle : ClosedTradeCycle) : Decidable (matchesCycle trade cycle) :=
  inferInstanceAs (Decidable (_ ∧ _))

/-- The values of a trade that must be finite. -/
def tradeValues (trade : TradeRecord) : List ℚ :=
  [trade.quantity, trade.entryPrice, trade.exitPrice, trade.grossPnl, trade.netPnl, trade.fees]

/-- One round of the loop of `_validate_trades`. -/
def checkTrade (index : List ℤ) (fills : List FillEvidence) (scan : TradeScan)
    (pair : TradeRecord × ClosedTradeCycle) : Except Failure TradeScan := do
  let (trade, cycle) := pair
  reject (∃ value ∈ tradeValues trade, ¬InRange value)
    (.value "backtest trade values must be finite")
  reject (trade.quantity ≤ 0 ∨ trade.entryPrice ≤ 0 ∨ trade.exitPrice ≤ 0 ∨ trade.fees < 0)
    (.value "backtest trade quantity, prices, and fees must be valid")
  let entryTime ← phaseTimestamp index trade.entryTime "backtest trade entry_time"
  let exitTime ← phaseTimestamp index trade.exitTime "backtest trade exit_time"
  reject (exitTime < entryTime) (.value "backtest trade exit_time must not precede entry_time")
  reject (∃ previousExit ∈ scan.previousExit, entryTime < previousExit)
    (.value "backtest trade chronology must not overlap")
  reject ((¬∃ fill ∈ fills, fill.side = "BUY" ∧ fill.timestamp = entryTime) ∨
      ¬∃ fill ∈ fills, fill.side = "SELL" ∧ fill.timestamp = exitTime)
    (.value "backtest trade times must match order fill evidence")
  reject (¬matchesCycle trade cycle)
    (.value "backtest trade must reconcile with its closed fill cycle")
  let gross := trade.quantity * (trade.exitPrice - trade.entryPrice)
  reject (¬closeEnough trade.grossPnl gross) (.value "backtest trade gross PnL must reconcile")
  reject (¬closeEnough trade.netPnl (trade.grossPnl - trade.fees))
    (.value "backtest trade net PnL must reconcile")
  reject (trade.exitReason = "") (.value "backtest trade exit_reason must be nonempty")
  return {
    previousExit := some exitTime
    tradeQuantity := scan.tradeQuantity + trade.quantity
    tradeFees := scan.tradeFees + trade.fees
    realizedNetPnl := scan.realizedNetPnl + trade.netPnl }

/-- `_validate_trades`. -/
def validateTrades (index : List ℤ) (trades : List TradeRecord) (evidence : OrderEvidence) :
    Except Failure ℚ := do
  reject (trades.length ≠ evidence.cycles.length)
    (.value "backtest trade cycles must match closed fill cycles")
  let scan ← (trades.zip evidence.cycles).foldlM (checkTrade index evidence.fills)
    ⟨none, 0, 0, 0⟩
  reject (¬quantityClose scan.tradeQuantity evidence.sellQuantity [])
    (.value "closed trade quantity must reconcile with sell fills")
  reject (¬closeEnough scan.tradeFees evidence.totalFees)
    (.value "closed trade fees must reconcile with order fills")
  return scan.realizedNetPnl

/-- `_validate_reconciliation`. -/
def validateReconciliation (result : BacktestResult) (evidence : OrderEvidence) :
    Except Failure Unit := do
  reject (¬closeEnough result.totalFees evidence.totalFees)
    (.value "backtest total_fees must reconcile with orders")
  reject (¬closeEnough result.totalSlippage evidence.totalSlippage)
    (.value "backtest total_slippage must reconcile with orders")

/-- The part of `_validate_backtest_result` about the equity curve. -/
def validateEquity (result : BacktestResult) (request : BacktestRequest) : Except Failure Unit := do
  reject (result.equityCurve = []) (.value "backtest result must contain phase equity")
  let scan ← result.equityCurve.foldlM (checkEquityPoint request) ⟨none, []⟩
  reject (∃ pair ∈ scan.timestamps.zip scan.timestamps.tail, pair.2 ≤ pair.1)
    (.value "backtest equity timestamps must be strictly increasing")
  reject (∃ last ∈ result.equityCurve.getLast?, ¬closeEnough last.equity result.finalEquity)
    (.value "backtest final equity must match the final phase equity")

/-- `_validate_backtest_result`, of what is a `BacktestResult`. -/
def validateBacktestResult (result : BacktestResult) (request : BacktestRequest) :
    Except Failure Unit := do
  reject (request.config.forceLiquidateAtEnd = false)
    (.value "walk-forward backtests must force liquidate at phase end")
  reject (∃ value ∈ [result.finalEquity, result.totalFees, result.totalSlippage], ¬InRange value)
    (.value "backtest result values must be finite")
  reject (result.finalEquity < 0 ∨ result.totalFees < 0 ∨ result.totalSlippage < 0)
    (.value "backtest result costs and equity must be nonnegative")
  validateEquity result request
  let evidence ← validateOrders request.index result.orders
  let realizedNetPnl ← validateTrades request.index result.trades evidence
  validateReconciliation result evidence
  reject (¬closeEnough result.finalEquity (request.initialEquity + realizedNetPnl))
    (.value "final phase equity must reconcile with closed trade cycles")

end AutoBit.Validation
