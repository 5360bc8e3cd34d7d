import AutoBit.Backtest.Metrics
import AutoBit.Library.Rounding
import Mathlib.Algebra.BigOperators.Group.List.Basic

/-!
# The metrics of a report

A report discloses the statistics of the closed trades of a cell as rates and averages. Their
trade ledger is recovered from these, and the statistics of a stitched cell are rebuilt from
the ledgers of its folds.
-/

namespace AutoBit.Reporting

open Library Backtest

/-- `MetricSnapshot`. -/
structure MetricSnapshot where
  grossReturn : ℚ
  netReturn : ℚ
  annualizedReturn : ℚ
  sharpe : ℚ
  sortino : ℚ
  calmar : ℚ
  maxDrawdown : ℚ
  maxDrawdownDurationBars : ℕ
  profitFactor : ℚ
  expectancy : ℚ
  winRate : ℚ
  averageWin : ℚ
  averageLoss : ℚ
  averageWinLossRatio : ℚ
  tradeCount : ℕ
  meanHoldingBars : ℚ
  medianHoldingBars : ℚ
  exposure : ℚ
  turnover : ℚ
  totalFees : ℚ
  totalSlippage : ℚ
  cashRatio : ℚ
  deriving DecidableEq, Repr

/-- `_metric_snapshot`. -/
def metricSnapshot (metrics : PerformanceMetrics) (costId : String) (grossReturn : Option ℚ) :
    MetricSnapshot where
  grossReturn := grossReturn.getD (
    if costId ≠ "zero" then
      (100 * (1 + metrics.totalReturn) + metrics.totalFees + metrics.totalSlippage) / 100 - 1
    else metrics.totalReturn)
  netReturn := metrics.totalReturn
  annualizedReturn := metrics.annualizedReturn
  sharpe := metrics.sharpeRatio
  sortino := metrics.sortinoRatio
  calmar := metrics.calmarRatio
  maxDrawdown := metrics.maxDrawdown
  maxDrawdownDurationBars := metrics.maxDrawdownDurationBars
  profitFactor := metrics.profitFactor
  expectancy := metrics.expectancy
  winRate := metrics.winRate
  averageWin := metrics.averageWin
  averageLoss := metrics.averageLoss
  averageWinLossRatio := metrics.averageWinLossRatio
  tradeCount := metrics.tradeCount
  meanHoldingBars := metrics.meanHoldingBars
  medianHoldingBars := metrics.medianHoldingBars
  exposure := metrics.exposure
  turnover := metrics.turnover
  totalFees := metrics.totalFees
  totalSlippage := metrics.totalSlippage
  cashRatio := 1 - metrics.exposure

/-- `_TradeLedger`. -/
structure TradeLedger where
  tradeCount : ℤ
  wins : ℤ
  losses : ℤ
  grossWins : ℚ
  grossLosses : ℚ
  netPnl : ℚ
  deriving DecidableEq, Repr

/-- `_RECONCILIATION_TOLERANCE`. -/
def reconciliationTolerance : ℚ := 1 / 10 ^ 7

/-- `_close`: `math.isclose` with the tolerance for both the relative and the absolute one. -/
def close (left right : ℚ) : Bool :=
  |left - right| ≤
    max (reconciliationTolerance * max |left| |right|) reconciliationTolerance

/-- What a cell without trades must disclose as zero. -/
def zeroTradeFields (metrics : MetricSnapshot) : List (String × ℚ) :=
  [("expectancy", metrics.expectancy), ("win_rate", metrics.winRate),
    ("average_win", metrics.averageWin), ("average_loss", metrics.averageLoss),
    ("profit_factor", metrics.profitFactor),
    ("average_win_loss_ratio", metrics.averageWinLossRatio),
    ("mean_holding_bars", metrics.meanHoldingBars)]

/-- The wins of `_trade_ledger`, from the win rate. -/
def ledgerWins (metrics : MetricSnapshot) (count : ℤ) : Except Failure ℤ := do
  let winsValue := metrics.winRate * count
  let wins := roundHalfEven winsValue
  reject (wins < 0 ∨ wins > count ∨ close winsValue wins = false)
    (.value "trade win count implied by win_rate must be integer-like")
  reject (wins = 0 ∧ metrics.averageWin ≠ 0) (.value "zero wins require average_win=0")
  reject (wins ≠ 0 ∧ metrics.averageWin ≤ 0)
    (.value "positive wins require positive average_win")
  return wins

/-- The losses of `_trade_ledger`, from the profit factor or from the expectancy. -/
def ledgerLosses (metrics : MetricSnapshot) (count wins : ℤ) (grossWins : ℚ) :
    Except Failure (ℤ × ℚ) :=
  if metrics.averageLoss = 0 then return (0, 0)
  else if grossWins > 0 then do
    reject (metrics.profitFactor ≤ 0)
      (.value "trades with wins and losses require positive profit_factor")
    let disclosedGrossLosses := grossWins / metrics.profitFactor
    let lossesValue := disclosedGrossLosses / |metrics.averageLoss|
    let losses := roundHalfEven lossesValue
    reject (losses ≤ 0 ∨ wins + losses > count ∨ close lossesValue losses = false)
      (.value "trade loss count implied by profit_factor must be integer-like")
    let grossLosses := losses * |metrics.averageLoss|
    reject (close disclosedGrossLosses grossLosses = false)
      (.value "profit_factor is inconsistent with average_loss and loss count")
    return (losses, grossLosses)
  else do
    reject (metrics.profitFactor ≠ 0) (.value "zero wins require profit_factor=0")
    let disclosedGrossLosses := -(metrics.expectancy * count)
    let lossesValue := disclosedGrossLosses / |metrics.averageLoss|
    let losses := roundHalfEven lossesValue
    reject (losses ≤ 0 ∨ wins + losses > count ∨ close lossesValue losses = false)
      (.value "trade loss count implied by expectancy must be integer-like")
    return (losses, losses * |metrics.averageLoss|)

/-- Whether a disclosed ratio is the expected one; an expected zero is disclosed exactly. -/
def ratioMatches (disclosed expected : ℚ) : Bool :=
  if expected = 0 then disclosed = 0 else close disclosed expected

/-- `_trade_ledger`. -/
def tradeLedger (metrics : MetricSnapshot) : Except Failure TradeLedger :=
  let count : ℤ := metrics.tradeCount
  if count = 0 then do
    (zeroTradeFields metrics).forM fun field =>
      reject (field.2 ≠ 0) (.value ("zero-trade metrics require " ++ field.1 ++ "=0"))
    return ⟨0, 0, 0, 0, 0, 0⟩
  else do
    let wins ← ledgerWins metrics count
    let grossWins := wins * metrics.averageWin
    let disclosedNetPnl := metrics.expectancy * count
    let (losses, grossLosses) ← ledgerLosses metrics count wins grossWins
    let expectedNetPnl := grossWins - grossLosses
    reject (close expectedNetPnl disclosedNetPnl = false)
      (.value "expectancy is inconsistent with win and loss evidence")
    let expectedProfitFactor := if grossLosses > 0 then grossWins / grossLosses else 0
    let expectedRatio :=
      if metrics.averageLoss < 0 then metrics.averageWin / |metrics.averageLoss| else 0
    reject (ratioMatches metrics.profitFactor expectedProfitFactor = false)
      (.value "profit_factor is inconsistent with trade algebra")
    reject (ratioMatches metrics.averageWinLossRatio expectedRatio = false)
      (.value "average_win_loss_ratio is inconsistent with trade algebra")
    return ⟨count, wins, losses, grossWins, grossLosses, expectedNetPnl⟩

/-- `_compound_returns`. -/
def compoundReturns (returns : List ℚ) : ℚ :=
  returns.foldl (fun result value => result * (1 + value)) 1 - 1

/-- The sums of the ledgers of the folds. -/
def sumLedgers (ledgers : List TradeLedger) : TradeLedger where
  tradeCount := (ledgers.map TradeLedger.tradeCount).sum
  wins := (ledgers.map TradeLedger.wins).sum
  losses := (ledgers.map TradeLedger.losses).sum
  grossWins := (ledgers.map TradeLedger.grossWins).sum
  grossLosses := (ledgers.map TradeLedger.grossLosses).sum
  netPnl := (ledgers.map TradeLedger.netPnl).sum

/-- The statistics that the folds imply for the stitched cell, with what it discloses. -/
def expectedStatistics (folds : List MetricSnapshot) (ledger : TradeLedger)
    (stitched : MetricSnapshot) : List (String × ℚ × ℚ) :=
  let tradeCount := ledger.tradeCount
  let wins := ledger.wins
  let losses := ledger.losses
  [("trade_count", stitched.tradeCount, tradeCount),
    ("expectancy", stitched.expectancy, if tradeCount ≠ 0 then ledger.netPnl / tradeCount else 0),
    ("win_rate", stitched.winRate, if tradeCount ≠ 0 then wins / tradeCount else 0),
    ("average_win", stitched.averageWin, if wins ≠ 0 then ledger.grossWins / wins else 0),
    ("average_loss", stitched.averageLoss, if losses ≠ 0 then -ledger.grossLosses / losses else 0),
    ("profit_factor", stitched.profitFactor,
      if ledger.grossLosses ≠ 0 then ledger.grossWins / ledger.grossLosses else 0),
    ("average_win_loss_ratio", stitched.averageWinLossRatio,
      if wins ≠ 0 ∧ losses ≠ 0 ∧ ledger.grossLosses ≠ 0 then
        (ledger.grossWins / wins) / (ledger.grossLosses / losses)
      else 0),
    ("mean_holding_bars", stitched.meanHoldingBars,
      if tradeCount ≠ 0 then
        (folds.map fun row => row.meanHoldingBars * (row.tradeCount : ℚ)).sum / tradeCount
      else 0)]

/-- `_reconcile_stitched_metrics`. -/
def reconcileStitchedMetrics (folds : List MetricSnapshot) (stitched : MetricSnapshot) :
    Except Failure TradeLedger := do
  reject (close (compoundReturns (folds.map MetricSnapshot.grossReturn)) stitched.grossReturn =
    false) (.value "fold gross_return must compound to stitched gross_return")
  reject (close (compoundReturns (folds.map MetricSnapshot.netReturn)) stitched.netReturn = false)
    (.value "fold net_return must compound to stitched net_return")
  reject (close (folds.map MetricSnapshot.totalFees).sum stitched.totalFees = false)
    (.value "fold total_fees must sum to stitched total_fees")
  reject (close (folds.map MetricSnapshot.totalSlippage).sum stitched.totalSlippage = false)
    (.value "fold total_slippage must sum to stitched total_slippage")
  let ledgers ← folds.mapM tradeLedger
  let ledger := sumLedgers ledgers
  (expectedStatistics folds ledger stitched).forM fun expected =>
    reject (close expected.2.1 expected.2.2 = false)
      (.value ("stitched " ++ expected.1 ++ " must be reconstructed from fold trades"))
  return ledger

end AutoBit.Reporting
