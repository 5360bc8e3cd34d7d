import AutoBit.Backtest.Records
import AutoBit.Library.Doubles
import AutoBit.Library.Loop
import Mathlib.Data.List.GetD
import Mathlib.Data.List.Sort
import Mathlib.Tactic.Linarith
import Mathlib.Tactic.Positivity

/-!
# Performance metrics

`calculate_metrics` reads an equity curve, closed trades and order records. Floats are exact
rationals, and those outside the range of doubles stand for the ones that are not finite, which
it refuses; the square root and the power are parameters.
-/

namespace AutoBit.Backtest

open Library

/-- The two functions of the metrics that leave the rationals; a power that is not finite is an
`OverflowError`. -/
structure Powers where
  sqrt : ℚ → ℚ
  power : ℚ → ℚ → Option ℚ

/-- The nearest doubles. -/
def doublePowers : Powers where
  sqrt := nearestRoot 2
  power base exponent :=
    let value := base ^ exponent.num
    if value < binary64Overflow ^ exponent.den then some (nearestRoot exponent.den value) else none

/-- `PerformanceMetrics`. -/
structure PerformanceMetrics where
  totalReturn : ℚ := 0
  annualizedReturn : ℚ := 0
  sharpeRatio : ℚ := 0
  sortinoRatio : ℚ := 0
  calmarRatio : ℚ := 0
  maxDrawdown : ℚ := 0
  maxDrawdownDurationBars : ℕ := 0
  profitFactor : ℚ := 0
  expectancy : ℚ := 0
  winRate : ℚ := 0
  averageWin : ℚ := 0
  averageLoss : ℚ := 0
  averageWinLossRatio : ℚ := 0
  tradeCount : ℕ := 0
  meanHoldingBars : ℚ := 0
  medianHoldingBars : ℚ := 0
  exposure : ℚ := 0
  turnover : ℚ := 0
  totalFees : ℚ := 0
  totalSlippage : ℚ := 0
  deriving DecidableEq, Repr

/-- `_derived_finite`. -/
def derivedFinite (value : ℚ) : Except Failure ℚ := do
  reject (¬InRange value) (.value "derived metrics must be finite")
  return value

/-- `_ensure_finite`. -/
def ensureFinite (values : List ℚ) (name : String) : Except Failure Unit :=
  reject (∃ value ∈ values, ¬InRange value) (.value (name ++ " values must be finite"))

/-- `_finite_scalar`. -/
def finiteScalar (value : ℚ) (name : String) : Except Failure ℚ := do
  reject (¬InRange value) (.value (name ++ " must be finite"))
  return value

/-- `_finite_scalar(..., nonnegative=True)`. -/
def nonnegativeScalar (value : ℚ) (name : String) : Except Failure ℚ := do
  let value ← finiteScalar value name
  reject (value < 0) (.value (name ++ " must be nonnegative"))
  return value

/-- A scalar is accepted exactly when it is finite and not negative. -/
theorem nonnegativeScalar_eq_ok {value scalar : ℚ} {name : String} :
    nonnegativeScalar value name = .ok scalar ↔ InRange value ∧ 0 ≤ value ∧ value = scalar := by
  simp [nonnegativeScalar, finiteScalar]

/-- `_finite_mean` of values of which there is at least one, if it returns. -/
def finiteMean (values : List ℚ) : ℚ := values.sum / values.length

/-- `_finite_mean` raises when the sum of the values is not finite. -/
def checkMean (values : List ℚ) : Except Failure Unit := do
  let total ← require (fsum values) (.value "derived metrics must be finite")
  reject (¬InRange total) (.value "derived metrics must be finite")

/-- `statistics.median` of values of which there is at least one. -/
def median (values : List ℚ) : ℚ :=
  let sorted := values.insertionSort (· ≤ ·)
  let half := values.length / 2
  if values.length % 2 = 1 then sorted.getD half 0
  else (sorted.getD (half - 1) 0 + sorted.getD half 0) / 2

/-- `_FillEvent`. -/
structure FillEvent where
  timestamp : ℤ
  signedQuantity : ℚ
  notional : ℚ
  deriving DecidableEq, Repr

/-- What the loop of `_order_fill_events` knows of an order: its side, and the quantity and the
notional of its fills so far. -/
structure Cumulative where
  side : String
  quantity : ℚ
  notional : ℚ
  deriving DecidableEq, Repr

/-- The variables of the loop of `_order_fill_events`. -/
structure FillScan where
  cumulative : List (String × Cumulative)
  events : List FillEvent

/-- The quantity below which `_order_fill_events` sees no new fill. -/
def fillEpsilon : ℚ := 1 / 10 ^ 12

/-- One round of the loop of `_order_fill_events`. -/
def scanOrderFill (scan : FillScan) (order : OrderRecord) : Except Failure FillScan := do
  let filled ← nonnegativeScalar order.filledQuantity "order filled_quantity"
  let prior := (scan.cumulative.lookup order.orderId).getD ⟨order.side, 0, 0⟩
  reject (order.side ∉ ["BUY", "SELL"] ∨ order.side ≠ prior.side)
    (.value "order side must remain BUY or SELL")
  reject (filled + fillEpsilon < prior.quantity)
    (.value "order filled_quantity must be cumulative")
  if filled ≤ prior.quantity + fillEpsilon then return scan
  let fillTime ← require order.fillTime (.value "new order fills require fill_time and fill_price")
  let price ← require order.fillPrice (.value "new order fills require fill_time and fill_price")
  let price ← nonnegativeScalar price "order fill_price"
  let cumulativeNotional := product filled price
  let deltaQuantity := filled - prior.quantity
  let deltaNotional := plus cumulativeNotional (-prior.notional)
  reject (deltaNotional < 0 ∨ ¬InRange deltaNotional)
    (.value "order fill notional must be finite and cumulative")
  return {
    cumulative := (order.orderId, ⟨order.side, filled, cumulativeNotional⟩) :: scan.cumulative
    events := scan.events ++ [{
      timestamp := fillTime
      signedQuantity := if order.side = "BUY" then deltaQuantity else -deltaQuantity
      notional := deltaNotional }] }

/-- `sorted(events, key=lambda event: event.timestamp)`. -/
def sortEvents (events : List FillEvent) : List FillEvent :=
  events.mergeSort fun earlier later => earlier.timestamp ≤ later.timestamp

/-- `_order_fill_events`. -/
def orderFillEvents (orders : List OrderRecord) : Except Failure (List FillEvent) := do
  let scan ← orders.foldlM scanOrderFill ⟨[], []⟩
  return sortEvents scan.events

/-- The equity argument of `calculate_metrics`: points or plain numbers. -/
inductive EquityCurve where
  | points (points : List EquityPoint)
  | numbers (values : List ℚ)

/-- `_equity_values`. -/
def equityValues (curve : EquityCurve) : Except Failure (List ℚ × List ℤ) := do
  let (values, times) := match curve with
    | .points points => (points.map EquityPoint.equity, points.map EquityPoint.timestamp)
    | .numbers values => (values, [])
  reject (∃ pair ∈ times.zip times.tail, pair.2 ≤ pair.1)
    (.value "equity curve must be time-ordered")
  ensureFinite values "equity"
  reject ((∃ value ∈ values, value < 0) ∨ ∃ first ∈ values.head?, first ≤ 0)
    (.value "equity values must be nonnegative with a positive initial value")
  return (values, times)

/-- `total_seconds()` of a difference of instants. -/
def totalSeconds (microseconds : ℤ) : ℚ := microseconds / 1000000

/-- `_trade_holding_bars`. -/
def tradeHoldingBars (trades : List TradeRecord) (equityTimes : List ℤ) :
    Except Failure (List ℚ) := do
  if trades = [] then return []
  let barSeconds :=
    if 2 ≤ equityTimes.length then
      median ((equityTimes.zip equityTimes.tail).map fun pair => totalSeconds (pair.2 - pair.1))
    else 4 * 60 * 60
  reject (barSeconds ≤ 0) (.value "equity timestamps must have positive spacing")
  let result := trades.map fun trade => totalSeconds (trade.exitTime - trade.entryTime) / barSeconds
  reject (∃ value ∈ result, value < 0) (.value "trade exit_time must not precede entry_time")
  return result

/-- The variables of the loop of `_order_exposure`: the events that are not yet due are those
from `event_index` on. -/
structure ExposureScan where
  position : ℚ
  pending : List FillEvent
  exposedBars : ℕ

/-- One round of the loop of `_order_exposure`. -/
def exposeBar (scan : ExposureScan) (timestamp : ℤ) : Except Failure ExposureScan := do
  let due := scan.pending.takeWhile fun event => event.timestamp ≤ timestamp
  let position := (due.map FillEvent.signedQuantity).foldl plus scan.position
  reject (position < -(1 / 10 ^ 9)) (.value "sell fills exceed accumulated buy fills")
  return {
    position
    pending := scan.pending.drop due.length
    exposedBars := if position > 1 / 10 ^ 12 then scan.exposedBars + 1 else scan.exposedBars }

/-- `_order_exposure`. -/
def orderExposure (events : List FillEvent) (equityTimes : List ℤ) : Except Failure ℚ := do
  if events = [] ∨ equityTimes = [] then return 0
  let scan ← equityTimes.foldlM exposeBar ⟨0, events, 0⟩
  return scan.exposedBars / equityTimes.length

/-- `_fill_turnover`. -/
def fillTurnover (events : List FillEvent) (equity : List ℚ) : Except Failure ℚ := do
  if events = [] ∨ equity = [] then return 0
  checkMean equity
  if finiteMean equity ≤ 0 then return 0
  derivedFinite (quotient (total (events.map FillEvent.notional)) (finiteMean equity))

/-- `_derived_exposure`. -/
def derivedExposure (holdingBars : List ℚ) (equityCount : ℕ) : ℚ :=
  if equityCount = 0 then 0 else min 1 (quotient (total holdingBars) equityCount)

/-- `_derived_turnover`. -/
def derivedTurnover (trades : List TradeRecord) (equity : List ℚ) : Except Failure ℚ := do
  if trades = [] ∨ equity = [] then return 0
  checkMean equity
  if finiteMean equity ≤ 0 then return 0
  let notionals := trades.map fun trade =>
    product trade.quantity (plus trade.entryPrice trade.exitPrice)
  return quotient (total notionals) (finiteMean equity)

/-- `_period_returns`. -/
def periodReturns (equity : List ℚ) : List ℚ :=
  (equity.zip equity.tail).map fun pair => if pair.1 = 0 then 0 else pair.2 / pair.1 - 1

/-- `_annualized_return`. -/
def annualizedReturn (powers : Powers) (totalReturn : ℚ) (periods : ℕ) (periodsPerYear : ℤ) :
    Except Failure ℚ := do
  if periods = 0 ∨ totalReturn = 0 then return 0
  if totalReturn ≤ -1 then return -1
  let result ← require (powers.power (1 + totalReturn) (periodsPerYear / periods))
    (.value "derived metrics must be finite")
  derivedFinite (result - 1)

/-- `statistics.pstdev` of finite values. -/
def pstdev (powers : Powers) (values : List ℚ) : ℚ :=
  powers.sqrt (finiteMean (values.map fun value => (value - finiteMean values) ^ 2))

/-- The return for each unit of deviation in a year, of `_sharpe` and `_sortino`. -/
def annualRatio (powers : Powers) (returns : List ℚ) (deviation : ℚ) (periodsPerYear : ℤ) :
    Except Failure ℚ := do
  if deviation ≤ 0 then return 0
  checkMean returns
  reject (¬InRange periodsPerYear) (.overflow "int too large to convert to float")
  derivedFinite (product (finiteMean returns / deviation) (powers.sqrt periodsPerYear))

/-- `_sharpe`, where `statistics.pstdev` of values that are not all finite fails. -/
def sharpe (powers : Powers) (returns : List ℚ) (periodsPerYear : ℤ) : Except Failure ℚ := do
  if returns = [] then return 0
  reject (∃ value ∈ returns, ¬InRange value)
    (.attribute "'float' object has no attribute 'numerator'")
  annualRatio powers returns (pstdev powers returns) periodsPerYear

/-- `_sortino`, of returns whose falls have squares of at most one. -/
def sortino (powers : Powers) (returns : List ℚ) (periodsPerYear : ℤ) : Except Failure ℚ := do
  if returns = [] then return 0
  let downside := powers.sqrt (finiteMean (returns.map fun value => min value 0 ^ 2))
  annualRatio powers returns downside periodsPerYear

/-- The variables of the loop of `_drawdown`. -/
structure Underwater where
  peak : ℚ
  maxDrawdown : ℚ
  duration : ℕ
  maxDuration : ℕ
  deriving DecidableEq, Repr

/-- One round of the loop of `_drawdown`. -/
def Underwater.next (scan : Underwater) (value : ℚ) : Underwater :=
  if scan.peak ≤ value then { scan with peak := value, duration := 0 }
  else
    { scan with
      duration := scan.duration + 1
      maxDuration := max scan.maxDuration (scan.duration + 1)
      maxDrawdown := max scan.maxDrawdown ((scan.peak - value) / scan.peak) }

/-- `_drawdown`. -/
def drawdown : List ℚ → ℚ × ℕ
  | [] => (0, 0)
  | first :: rest =>
    let scan := rest.foldl Underwater.next ⟨first, 0, 0, 0⟩
    (scan.maxDrawdown, scan.maxDuration)

/-- The arguments of `calculate_metrics`. -/
structure MetricsInput where
  closedPnls : Option (List ℚ) := none
  equityCurve : EquityCurve := .numbers []
  trades : List TradeRecord := []
  orders : List OrderRecord := []
  holdingBars : Option (List ℚ) := none
  periodsPerYear : ℤ := 2190
  exposure : Option ℚ := none
  turnover : Option ℚ := none
  totalFees : Option ℚ := none
  totalSlippage : ℚ := 0

/-- `pnl_values` of `calculate_metrics`. -/
def MetricsInput.pnlValues (input : MetricsInput) : List ℚ :=
  input.closedPnls.getD (input.trades.map TradeRecord.netPnl)

/-- The statistics of the closed trades that `calculate_metrics` puts among the others. -/
def tradeStatistics (pnlValues : List ℚ) (metrics : PerformanceMetrics) : PerformanceMetrics :=
  let wins := pnlValues.filter (0 < ·)
  let losses := pnlValues.filter (· < 0)
  let grossWins := wins.sum
  let grossLosses := |losses.sum|
  let averageWin := if wins = [] then 0 else finiteMean wins
  let averageLoss := if losses = [] then 0 else finiteMean losses
  { metrics with
    profitFactor := if grossLosses > 0 then grossWins / grossLosses else 0
    expectancy := if pnlValues = [] then 0 else finiteMean pnlValues
    winRate := if pnlValues = [] then 0 else wins.length / pnlValues.length
    averageWin
    averageLoss
    averageWinLossRatio := if averageLoss < 0 then averageWin / |averageLoss| else 0
    tradeCount := pnlValues.length }

/-- The holding bars of `calculate_metrics`. -/
def holdingValues (input : MetricsInput) (equityTimes : List ℤ) : Except Failure (List ℚ) :=
  match input.holdingBars with
  | none => tradeHoldingBars input.trades equityTimes
  | some values => do
    ensureFinite values "holding_bars"
    reject (∃ value ∈ values, value < 0) (.value "holding_bars must be nonnegative")
    return values

/-- The exposure of `calculate_metrics` when the caller gives none. -/
def observedExposure (fillEvents : List FillEvent) (holding equity : List ℚ)
    (equityTimes : List ℤ) : Except Failure ℚ := do
  reject (fillEvents ≠ [] ∧ equityTimes = [])
    (.value "order-derived exposure requires timestamped equity or explicit exposure")
  if fillEvents ≠ [] then orderExposure fillEvents equityTimes
  else return derivedExposure holding equity.length

/-- The exposure of `calculate_metrics`. -/
def exposureValue (input : MetricsInput) (fillEvents : List FillEvent) (holding equity : List ℚ)
    (equityTimes : List ℤ) : Except Failure ℚ := do
  let value ← input.exposure.elim (observedExposure fillEvents holding equity equityTimes)
    fun exposure => finiteScalar exposure "exposure"
  reject (¬(0 ≤ value ∧ value ≤ 1)) (.value "exposure must be in [0, 1]")
  return value

/-- The turnover of `calculate_metrics`. -/
def turnoverValue (input : MetricsInput) (fillEvents : List FillEvent) (equity : List ℚ) :
    Except Failure ℚ := do
  let observed :=
    if fillEvents ≠ [] then fillTurnover fillEvents equity else derivedTurnover input.trades equity
  let value ← input.turnover.elim observed pure
  nonnegativeScalar value "turnover"

/-- Whether all metrics are finite. -/
def PerformanceMetrics.Finite (metrics : PerformanceMetrics) : Prop :=
  ∀ value ∈ [metrics.totalReturn, metrics.annualizedReturn, metrics.sharpeRatio,
    metrics.sortinoRatio, metrics.calmarRatio, metrics.maxDrawdown, metrics.profitFactor,
    metrics.expectancy, metrics.winRate, metrics.averageWin, metrics.averageLoss,
    metrics.averageWinLossRatio, metrics.meanHoldingBars, metrics.medianHoldingBars,
    metrics.exposure, metrics.turnover, metrics.totalFees, metrics.totalSlippage], InRange value

instance (metrics : PerformanceMetrics) : Decidable metrics.Finite :=
  inferInstanceAs (Decidable (∀ value ∈ _, InRange value))

/-- `calculate_metrics`. -/
def calculateMetrics (powers : Powers) (input : MetricsInput) :
    Except Failure PerformanceMetrics := do
  reject (input.periodsPerYear ≤ 0) (.value "periods_per_year must be a positive integer")
  let fillEvents ← orderFillEvents input.orders
  let pnlValues := input.pnlValues
  ensureFinite pnlValues "closed PnL"
  let (equity, equityTimes) ← equityValues input.equityCurve
  let holding ← holdingValues input equityTimes
  let totalFees ← nonnegativeScalar
    (input.totalFees.getD (total (input.trades.map TradeRecord.fees))) "total_fees"
  let totalSlippage ← nonnegativeScalar input.totalSlippage "total_slippage"
  let exposure ← exposureValue input fillEvents holding equity equityTimes
  let turnover ← turnoverValue input fillEvents equity
  checkMean (pnlValues.filter (0 < ·))
  checkMean (pnlValues.filter (· < 0))
  let returns := periodReturns equity
  let totalReturn ← derivedFinite
    (if 2 ≤ equity.length then equity.getLastD 0 / equity.headD 0 - 1 else 0)
  let annualized ← annualizedReturn powers totalReturn returns.length input.periodsPerYear
  let (maxDrawdown, maxDuration) := drawdown equity
  let sharpeRatio ← sharpe powers returns input.periodsPerYear
  let sortinoRatio ← sortino powers returns input.periodsPerYear
  checkMean pnlValues
  checkMean holding
  let metrics := tradeStatistics pnlValues {
    totalReturn
    annualizedReturn := annualized
    sharpeRatio
    sortinoRatio
    calmarRatio := if maxDrawdown > 0 then annualized / maxDrawdown else 0
    maxDrawdown
    maxDrawdownDurationBars := maxDuration
    meanHoldingBars := if holding = [] then 0 else finiteMean holding
    medianHoldingBars := if holding = [] then 0 else median holding
    exposure
    turnover
    totalFees
    totalSlippage }
  reject (¬metrics.Finite) (.value "derived metrics must be finite")
  return metrics

/-- The trade statistics of computed metrics are those of the closed trades, and the mean holding
time is that of the holding times. -/
theorem calculateMetrics_inv {powers : Powers} {input : MetricsInput} {metrics : PerformanceMetrics}
    (h : calculateMetrics powers input = .ok metrics) : ∃ equity times holding others,
      equityValues input.equityCurve = .ok (equity, times) ∧
      holdingValues input times = .ok holding ∧
      metrics = tradeStatistics input.pnlValues others ∧
      others.meanHoldingBars = if holding = [] then 0 else finiteMean holding := by
  simp only [calculateMetrics, Except.bind_eq_ok, Except.pure_eq_ok] at h
  obtain ⟨-, -, events, -, -, -, ⟨equity, times⟩, hequity, holding, hholding, h⟩ := h
  obtain ⟨_, -, _, -, _, -, _, -, -, -, -, -, _, -, _, -, _, -, _, -, -, -, -, -, -, -, heq⟩ := h
  exact ⟨equity, times, holding, _, hequity, hholding, heq.symm, rfl⟩

/-! ## What is not finite -/

/-- The errors of `calculate_metrics` about values that are not finite. -/
def nonfiniteFailures : List Failure :=
  [.value "closed PnL values must be finite", .value "equity values must be finite",
    .value "total_fees must be finite", .value "total_slippage must be finite",
    .value "turnover must be finite", .value "derived metrics must be finite",
    .attribute "'float' object has no attribute 'numerator'"]

/-- A derived value that is not finite is an error of this kind. -/
theorem derived_mem_nonfiniteFailures :
    Failure.value "derived metrics must be finite" ∈ nonfiniteFailures := by
  decide +kernel

/-- A derived value raises only for not being finite. -/
theorem derivedFinite_raises (value : ℚ) : RaisesOnly nonfiniteFailures (derivedFinite value) :=
  .bind (.reject fun _ => derived_mem_nonfiniteFailures) fun _ _ => .pure _

/-- A mean raises only for not being finite. -/
theorem checkMean_raises (values : List ℚ) : RaisesOnly nonfiniteFailures (checkMean values) :=
  .bind (.require derived_mem_nonfiniteFailures) fun _ _ =>
    .reject fun _ => derived_mem_nonfiniteFailures

/-- A scalar that is nonnegative when it is finite can only fail to be finite. -/
theorem nonnegativeScalar_raises {value : ℚ} {name : String} (h : InRange value → 0 ≤ value)
    (hname : Failure.value (name ++ " must be finite") ∈ nonfiniteFailures) :
    RaisesOnly nonfiniteFailures (nonnegativeScalar value name) := by
  refine .bind (.bind (.reject fun _ => hname) fun _ _ => .pure _) fun scalar hscalar => ?_
  obtain ⟨_, hfinite, hsame⟩ := Except.bind_eq_ok.mp hscalar
  obtain rfl := Except.pure_eq_ok.mp hsame
  rw [reject_eq_ok, not_not] at hfinite
  exact .bind (.reject fun hneg => absurd hneg (not_lt.mpr (h hfinite))) fun _ _ => .pure _

/-- The annualized return raises only for not being finite. -/
theorem annualizedReturn_raises (powers : Powers) (totalReturn : ℚ) (periods : ℕ)
    (periodsPerYear : ℤ) :
    RaisesOnly nonfiniteFailures (annualizedReturn powers totalReturn periods periodsPerYear) := by
  unfold annualizedReturn
  split_ifs
  · exact .pure _
  · exact .pure _
  · exact .bind (.require derived_mem_nonfiniteFailures) fun _ _ => derivedFinite_raises _

section

variable {periodsPerYear : ℤ} (hperiods : InRange periodsPerYear)
include hperiods

/-- An annual ratio raises only for not being finite. -/
theorem annualRatio_raises (powers : Powers) (returns : List ℚ) (deviation : ℚ) :
    RaisesOnly nonfiniteFailures (annualRatio powers returns deviation periodsPerYear) := by
  unfold annualRatio
  split_ifs
  · exact .pure _
  · refine .bind (checkMean_raises _) fun _ _ => ?_
    exact .bind (.reject fun hrange => absurd hperiods hrange) fun _ _ => derivedFinite_raises _

/-- The Sharpe ratio raises only for not being finite. -/
theorem sharpe_raises (powers : Powers) (returns : List ℚ) :
    RaisesOnly nonfiniteFailures (sharpe powers returns periodsPerYear) := by
  unfold sharpe
  split_ifs
  · exact .pure _
  · exact .bind (.reject fun _ => by decide +kernel) fun _ _ => annualRatio_raises hperiods _ _ _

/-- The Sortino ratio raises only for not being finite. -/
theorem sortino_raises (powers : Powers) (returns : List ℚ) :
    RaisesOnly nonfiniteFailures (sortino powers returns periodsPerYear) := by
  unfold sortino
  split_ifs
  · exact .pure _
  · exact annualRatio_raises hperiods _ _ _

end

/-! ## A curve with its trades -/

/-- A closed trade whose times are ordered and whose numbers are nonnegative. -/
structure TradeRecord.Valid (trade : TradeRecord) : Prop where
  ordered : trade.entryTime ≤ trade.exitTime
  quantity : 0 ≤ trade.quantity
  entryPrice : 0 ≤ trade.entryPrice
  exitPrice : 0 ≤ trade.exitPrice
  fees : 0 ≤ trade.fees

/-- A chronological equity curve that starts above zero and is never negative. -/
structure ValidCurve (points : List EquityPoint) : Prop where
  ordered : points.Pairwise fun earlier later => earlier.timestamp < later.timestamp
  nonneg : ∀ point ∈ points, 0 ≤ point.equity
  started : ∀ first ∈ points.head?, 0 < first.equity

/-- Consecutive entries of a chain are related. -/
theorem pairwise_zip_tail {α : Type} {R : α → α → Prop} {xs : List α} (h : xs.Pairwise R) :
    ∀ pair ∈ xs.zip xs.tail, R pair.1 pair.2 := by
  induction xs with
  | nil => simp
  | cons first rest ih =>
    cases rest with
    | nil => simp
    | cons second rest =>
      intro pair hpair
      rw [List.tail_cons, List.zip_cons_cons, List.mem_cons] at hpair
      rcases hpair with rfl | hpair
      · exact (List.pairwise_cons.mp h).1 second List.mem_cons_self
      · exact ih (List.pairwise_cons.mp h).2 pair hpair

/-- The median of positive values is positive. -/
theorem median_pos {values : List ℚ} (hne : values ≠ []) (h : ∀ value ∈ values, 0 < value) :
    0 < median values := by
  have hlength := List.length_pos_iff.mpr hne
  have hsorted (i : ℕ) (hi : i < values.length) :
      0 < (values.insertionSort (· ≤ ·)).getD i 0 := by
    rw [List.getD_eq_getElem _ _ (by rwa [List.length_insertionSort])]
    exact h _ ((List.mem_insertionSort _).mp (List.getElem_mem _))
  unfold median
  dsimp only
  split_ifs
  · exact hsorted _ (by omega)
  · have hleft := hsorted (values.length / 2 - 1) (by omega)
    have hright := hsorted (values.length / 2) (by omega)
    positivity

/-- The holding bars of valid trades over a chronological curve are nonnegative. -/
theorem tradeHoldingBars_eq_ok {trades : List TradeRecord} (htrades : ∀ trade ∈ trades, trade.Valid)
    {times : List ℤ} (htimes : times.Pairwise (· < ·)) :
    ∃ bars, tradeHoldingBars trades times = .ok bars ∧ ∀ bar ∈ bars, 0 ≤ bar := by
  unfold tradeHoldingBars
  by_cases hempty : trades = []
  · exact ⟨[], by rw [if_pos hempty]; rfl, by simp⟩
  rw [if_neg hempty]
  have hpositive : 0 < if 2 ≤ times.length then
      median ((times.zip times.tail).map fun pair => totalSeconds (pair.2 - pair.1))
      else 4 * 60 * 60 := by
    split_ifs with hlong
    · apply median_pos
      · rw [ne_eq, List.map_eq_nil_iff, ← List.length_eq_zero_iff, List.length_zip,
          List.length_tail]
        omega
      · intro value hvalue
        obtain ⟨pair, hpair, rfl⟩ := List.mem_map.mp hvalue
        have hlt := pairwise_zip_tail htimes pair hpair
        have hcast : (pair.1 : ℚ) < pair.2 := by exact_mod_cast hlt
        unfold totalSeconds
        push_cast
        apply div_pos <;> linarith
    · norm_num
  have hbars : ∀ value ∈ trades.map fun trade => totalSeconds (trade.exitTime - trade.entryTime) /
      (if 2 ≤ times.length then
        median ((times.zip times.tail).map fun pair => totalSeconds (pair.2 - pair.1))
        else 4 * 60 * 60), 0 ≤ value := by
    intro value hvalue
    obtain ⟨trade, htrade, rfl⟩ := List.mem_map.mp hvalue
    have hle : (trade.entryTime : ℚ) ≤ trade.exitTime := by
      exact_mod_cast (htrades trade htrade).ordered
    apply div_nonneg _ hpositive.le
    unfold totalSeconds
    push_cast
    apply div_nonneg <;> linarith
  refine ⟨_, ?_, hbars⟩
  dsimp only
  rw [Except.bind_eq_ok]
  refine ⟨(), reject_eq_ok.mpr (not_le.mpr hpositive), ?_⟩
  rw [Except.bind_eq_ok]
  refine ⟨(), reject_eq_ok.mpr ?_, rfl⟩
  rintro ⟨value, hvalue, hneg⟩
  exact absurd hneg (not_lt.mpr (hbars value hvalue))

/-- The curve that is read is the given one, and it is finite. -/
theorem equityValues_points_eq_ok {points : List EquityPoint} {values : List ℚ} {times : List ℤ}
    (h : equityValues (.points points) = .ok (values, times)) :
    values = points.map EquityPoint.equity ∧ times = points.map EquityPoint.timestamp ∧
      ∀ point ∈ points, InRange point.equity := by
  simp only [equityValues, ensureFinite, Except.bind_eq_ok, reject_eq_ok, Except.pure_eq_ok,
    Prod.mk.injEq] at h
  obtain ⟨-, -, -, hfinite, -, -, rfl, rfl⟩ := h
  refine ⟨rfl, rfl, fun point hpoint => ?_⟩
  by_contra hrange
  exact hfinite ⟨_, List.mem_map_of_mem hpoint, hrange⟩

/-- The times of a chronological curve are in order. -/
theorem not_unordered {points : List EquityPoint}
    (h : points.Pairwise fun earlier later => earlier.timestamp < later.timestamp) :
    ¬∃ pair ∈ (points.map EquityPoint.timestamp).zip (points.map EquityPoint.timestamp).tail,
      pair.2 ≤ pair.1 := by
  rintro ⟨pair, hpair, hle⟩
  have htimes : (points.map EquityPoint.timestamp).Pairwise (· < ·) := List.pairwise_map.mpr h
  exact absurd hle (not_le.mpr (pairwise_zip_tail htimes pair hpair))

/-- A valid curve can only fail to be finite. -/
theorem equityValues_raises {points : List EquityPoint} (h : ValidCurve points) :
    RaisesOnly nonfiniteFailures (equityValues (.points points)) := by
  unfold equityValues
  refine .bind (.reject fun hunordered => absurd hunordered (not_unordered h.ordered)) fun _ _ => ?_
  refine .bind (.reject fun _ => by decide +kernel) fun _ _ => ?_
  refine .bind (.reject fun hinvalid => absurd hinvalid ?_) fun _ _ => .pure _
  rintro (⟨value, hvalue, hneg⟩ | ⟨first, hfirst, hle⟩)
  · obtain ⟨point, hpoint, rfl⟩ := List.mem_map.mp hvalue
    exact absurd hneg (not_lt.mpr (h.nonneg point hpoint))
  · rw [List.head?_map, Option.mem_def, Option.map_eq_some_iff] at hfirst
    obtain ⟨point, hpoint, rfl⟩ := hfirst
    exact absurd hle (not_le.mpr (h.started point hpoint))

/-- A chronological curve with a point that is not finite is refused. -/
theorem equityValues_nonfinite {points : List EquityPoint}
    (hordered : points.Pairwise fun earlier later => earlier.timestamp < later.timestamp)
    {point : EquityPoint} (hpoint : point ∈ points) (hrange : ¬InRange point.equity) :
    equityValues (.points points) = .error (.value "equity values must be finite") := by
  refine Except.bind_eq_error.mpr (.inr ⟨(), reject_eq_ok.mpr (not_unordered hordered), ?_⟩)
  exact Except.bind_eq_error.mpr (.inl (reject_eq_error.mpr
    ⟨⟨_, List.mem_map_of_mem hpoint, hrange⟩, rfl⟩))

/-- Of no equity there are no values. -/
theorem equityValues_nil : equityValues (.numbers []) = .ok ([], []) := by
  unfold equityValues
  dsimp only
  refine Except.bind_eq_ok.mpr ⟨(), reject_eq_ok.mpr (by simp), ?_⟩
  refine Except.bind_eq_ok.mpr ⟨(), reject_eq_ok.mpr (by simp), ?_⟩
  exact Except.bind_eq_ok.mpr ⟨(), reject_eq_ok.mpr (by simp), rfl⟩

/-- The exposure of holding times that are not negative lies in the unit interval. -/
theorem derivedExposure_mem {bars : List ℚ} (hbars : ∀ bar ∈ bars, 0 ≤ bar) (count : ℕ) :
    0 ≤ derivedExposure bars count ∧ derivedExposure bars count ≤ 1 := by
  unfold derivedExposure
  split_ifs
  · norm_num
  · refine ⟨le_min zero_le_one ?_, min_le_left _ _⟩
    exact quotient_nonneg (total_nonneg hbars) (Nat.cast_nonneg _)

/-- The turnover of valid trades can only fail to be finite. -/
theorem derivedTurnover_raises (trades : List TradeRecord) (equity : List ℚ) :
    RaisesOnly nonfiniteFailures (derivedTurnover trades equity) := by
  unfold derivedTurnover
  split_ifs
  · exact .pure _
  · exact .bind (checkMean_raises _) fun _ _ => .pure _
  · exact .bind (checkMean_raises _) fun _ _ => .pure _

/-- The turnover of valid trades is not negative. -/
theorem derivedTurnover_nonneg {trades : List TradeRecord} (htrades : ∀ trade ∈ trades, trade.Valid)
    {equity : List ℚ} {turnover : ℚ} (h : derivedTurnover trades equity = .ok turnover) :
    0 ≤ turnover := by
  unfold derivedTurnover at h
  split_ifs at h with hempty hmean
  · exact (Except.pure_eq_ok.mp h).le
  · obtain ⟨-, -, h⟩ := Except.bind_eq_ok.mp h
    exact (Except.pure_eq_ok.mp h).le
  · obtain ⟨-, -, h⟩ := Except.bind_eq_ok.mp h
    rw [← Except.pure_eq_ok.mp h]
    refine quotient_nonneg (total_nonneg ?_) (not_le.mp hmean).le
    intro value hvalue
    obtain ⟨trade, htrade, rfl⟩ := List.mem_map.mp hvalue
    have hvalid := htrades trade htrade
    exact product_nonneg hvalid.quantity (plus_nonneg hvalid.entryPrice hvalid.exitPrice)

/-- Of no orders there are no fills. -/
theorem orderFillEvents_nil : orderFillEvents [] = .ok [] := by
  rw [orderFillEvents, Except.bind_eq_ok]
  exact ⟨⟨[], []⟩, rfl, by simp [sortEvents]⟩

/-- The metrics of a valid curve with valid trades can only fail to be finite. -/
theorem calculateMetrics_raises (powers : Powers) {points : List EquityPoint}
    (hpoints : ValidCurve points) {trades : List TradeRecord}
    (htrades : ∀ trade ∈ trades, trade.Valid) {slippage : ℚ} (hslippage : InRange slippage → 0 ≤ slippage) :
    RaisesOnly nonfiniteFailures (calculateMetrics powers
      { equityCurve := .points points, trades, totalSlippage := slippage }) := by
  set input : MetricsInput := { equityCurve := .points points, trades, totalSlippage := slippage }
  have hperiods : InRange (2190 : ℤ) := by decide +kernel
  have hfees : 0 ≤ total (trades.map TradeRecord.fees) := by
    apply total_nonneg
    intro value hvalue
    obtain ⟨trade, htrade, rfl⟩ := List.mem_map.mp hvalue
    exact (htrades trade htrade).fees
  have hturnover (equity : List ℚ) :
      RaisesOnly nonfiniteFailures (turnoverValue input [] equity) := by
    refine .bind (derivedTurnover_raises trades equity) fun turnover hok => ?_
    exact nonnegativeScalar_raises (fun _ => derivedTurnover_nonneg htrades hok) (by decide +kernel)
  unfold calculateMetrics
  refine .bind (.reject fun hnone => absurd hnone (by norm_num [input])) fun _ _ => ?_
  refine .bind (.of_ok orderFillEvents_nil) fun events hevents => ?_
  obtain rfl := Except.ok.inj (orderFillEvents_nil.symm.trans hevents)
  refine .bind (.reject fun _ => by decide +kernel) fun _ _ => ?_
  refine .bind (equityValues_raises hpoints) fun curve hcurve => ?_
  obtain ⟨equity, times⟩ := curve
  obtain ⟨rfl, rfl, -⟩ := equityValues_points_eq_ok hcurve
  obtain ⟨bars, hbars, hnonneg⟩ :=
    tradeHoldingBars_eq_ok htrades (List.pairwise_map.mpr hpoints.ordered)
  refine .bind (.of_ok hbars) fun holding hholding => ?_
  obtain rfl := Except.ok.inj (hbars.symm.trans hholding)
  refine .bind (nonnegativeScalar_raises (fun _ => hfees) (by decide +kernel)) fun _ _ => ?_
  refine .bind (nonnegativeScalar_raises hslippage (by decide +kernel)) fun _ _ => ?_
  refine .bind ?_ fun _ _ => ?_
  · refine .bind (.of_ok rfl) fun exposure hexposure => ?_
    obtain rfl := Except.ok.inj hexposure
    refine .bind (.reject fun hout => absurd (derivedExposure_mem hnonneg _) hout) fun _ _ => .pure _
  refine .bind (hturnover _) fun _ _ => ?_
  refine .bind (checkMean_raises _) fun _ _ => ?_
  refine .bind (checkMean_raises _) fun _ _ => ?_
  refine .bind (derivedFinite_raises _) fun _ _ => ?_
  refine .bind (annualizedReturn_raises _ _ _ _) fun _ _ => ?_
  refine .bind (sharpe_raises hperiods _ _) fun _ _ => ?_
  refine .bind (sortino_raises hperiods _ _) fun _ _ => ?_
  refine .bind (checkMean_raises _) fun _ _ => ?_
  refine .bind (checkMean_raises _) fun _ _ => ?_
  exact .bind (.reject fun _ => derived_mem_nonfiniteFailures) fun _ _ => .pure _

/-- The metrics of a chronological curve with a point that is not finite are refused. -/
theorem calculateMetrics_nonfinite (powers : Powers) {points : List EquityPoint}
    (hordered : points.Pairwise fun earlier later => earlier.timestamp < later.timestamp)
    {point : EquityPoint} (hpoint : point ∈ points) (hrange : ¬InRange point.equity)
    (trades : List TradeRecord) (slippage : ℚ) : ∃ e ∈ nonfiniteFailures, calculateMetrics powers
      { equityCurve := .points points, trades, totalSlippage := slippage } = .error e := by
  set input : MetricsInput := { equityCurve := .points points, trades, totalSlippage := slippage }
  have hperiods : reject (input.periodsPerYear ≤ 0)
      (Failure.value "periods_per_year must be a positive integer") = .ok () :=
    reject_eq_ok.mpr (by norm_num [input])
  by_cases hpnls : ∃ value ∈ input.pnlValues, ¬InRange value
  · refine ⟨.value "closed PnL values must be finite", by decide +kernel, ?_⟩
    refine Except.bind_eq_error.mpr (.inr ⟨(), hperiods, ?_⟩)
    refine Except.bind_eq_error.mpr (.inr ⟨[], orderFillEvents_nil, ?_⟩)
    exact Except.bind_eq_error.mpr (.inl (reject_eq_error.mpr ⟨hpnls, rfl⟩))
  · refine ⟨.value "equity values must be finite", by decide +kernel, ?_⟩
    refine Except.bind_eq_error.mpr (.inr ⟨(), hperiods, ?_⟩)
    refine Except.bind_eq_error.mpr (.inr ⟨[], orderFillEvents_nil, ?_⟩)
    refine Except.bind_eq_error.mpr (.inr ⟨(), reject_eq_ok.mpr hpnls, ?_⟩)
    exact Except.bind_eq_error.mpr (.inl (equityValues_nonfinite hordered hpoint hrange))

/-- The points of a curve whose metrics are computed are finite. -/
theorem calculateMetrics_finite {powers : Powers} {points : List EquityPoint} {input : MetricsInput}
    (hcurve : input.equityCurve = .points points) {metrics : PerformanceMetrics}
    (h : calculateMetrics powers input = .ok metrics) : ∀ point ∈ points, InRange point.equity := by
  obtain ⟨equity, times, _, _, hequity, -⟩ := calculateMetrics_inv h
  rw [hcurve] at hequity
  exact (equityValues_points_eq_ok hequity).2.2

end AutoBit.Backtest
