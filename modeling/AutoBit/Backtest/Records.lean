import AutoBit.Store.Events

/-!
# The records of a backtest

What one simulated phase leaves behind: its equity curve, the lifecycle records of its orders
and its closed trades. Times are instants of timezone-aware datetimes, floats are rationals.
-/

namespace AutoBit.Backtest

open Store (OrderStatus)

/-- `EquityPoint`. -/
structure EquityPoint where
  timestamp : ℤ
  equity : ℚ
  deriving DecidableEq, Repr

/-- `OrderRecord`: one state in the lifecycle of an order, with cumulative quantities. -/
structure OrderRecord where
  orderId : String
  status : OrderStatus
  side : String
  requestedQuantity : ℚ
  filledQuantity : ℚ
  remainderQuantity : ℚ
  occurredAt : ℤ
  signalTime : ℤ
  fillTime : Option ℤ := none
  fillPrice : Option ℚ := none
  fee : ℚ := 0
  slippage : ℚ := 0
  stopPrice : Option ℚ := none
  reason : Option String := none
  deriving DecidableEq, Repr

/-- `TradeRecord`. -/
structure TradeRecord where
  entryTime : ℤ
  exitTime : ℤ
  quantity : ℚ
  entryPrice : ℚ
  exitPrice : ℚ
  grossPnl : ℚ
  netPnl : ℚ
  fees : ℚ
  exitReason : String
  deriving DecidableEq, Repr

/-- `BacktestResult`. -/
structure BacktestResult where
  equityCurve : List EquityPoint
  orders : List OrderRecord
  trades : List TradeRecord
  finalEquity : ℚ
  totalFees : ℚ
  totalSlippage : ℚ
  deriving DecidableEq, Repr

end AutoBit.Backtest
