import AutoBit.Backtest.Metrics

/-!
# The order log of a run

`_validate_orders` checks each record of an order log, then the lifecycle of each order, and
reconstructs the fills from the cumulative quantities. A quantity is new when it exceeds a
tolerance that scales with the quantities around it. The fills, in the order of their records,
must never sell more than was bought, and must end flat. A rational outside the range of doubles
stands for a float that is not finite.
-/

namespace AutoBit.Validation

open Library Backtest
open Store (OrderStatus)

/-- `_RECONCILIATION_TOLERANCE`. -/
def reconciliationTolerance : ℚ := 1 / 10 ^ 10

/-- `_QUANTITY_ABSOLUTE_TOLERANCE`. -/
def quantityAbsoluteTolerance : ℚ := 1 / 10 ^ 18

/-- `_QUANTITY_RELATIVE_TOLERANCE`. -/
def quantityRelativeTolerance : ℚ := 1 / 10 ^ 12

/-- `_QUANTITY_MAX_TOLERANCE`. -/
def quantityMaxTolerance : ℚ := 1 / 10 ^ 12

/-- The scale of a tolerance: the largest of the finite values. -/
def toleranceScale (scale : ℚ) (values : List ℚ) : ℚ :=
  (values.filter fun value => InRange value).foldl (fun scale value => max scale |value|) scale

/-- `_quantity_tolerance`. -/
def quantityTolerance (values : List ℚ) : ℚ :=
  max quantityAbsoluteTolerance
    (min (toleranceScale 0 values * quantityRelativeTolerance) quantityMaxTolerance)

/-- A value in the range may raise the scale of a tolerance. -/
theorem toleranceScale_cons_of_inRange {value : ℚ} (h : InRange value) (scale : ℚ)
    (values : List ℚ) :
    toleranceScale scale (value :: values) = toleranceScale (max scale |value|) values := by
  rw [toleranceScale, List.filter_cons_of_pos (by simpa using h)]
  rfl

/-- A larger scale stays larger. -/
theorem toleranceScale_mono {scale scale' : ℚ} (h : scale ≤ scale') (values : List ℚ) :
    toleranceScale scale values ≤ toleranceScale scale' values := by
  unfold toleranceScale
  induction values.filter fun value => InRange value generalizing scale scale' with
  | nil => exact h
  | cons value values ih => exact ih (max_le_max_right _ h)

/-- The quantity tolerance is relative, between its absolute bounds. -/
theorem quantityTolerance_eq (values : List ℚ) : quantityTolerance values =
    max quantityAbsoluteTolerance
      (min (toleranceScale 0 values * quantityRelativeTolerance) quantityMaxTolerance) := rfl

/-- The quantity tolerance is at least the absolute one. -/
theorem le_quantityTolerance (values : List ℚ) :
    quantityAbsoluteTolerance ≤ quantityTolerance values := le_max_left _ _

/-- A tolerance never exceeds the largest one. -/
theorem quantityTolerance_le (values : List ℚ) :
    quantityTolerance values ≤ quantityMaxTolerance := by
  rw [quantityTolerance_eq]
  apply max_le
  · norm_num [quantityAbsoluteTolerance, quantityMaxTolerance]
  · exact min_le_right _ _

/-- `_quantity_close`. -/
def quantityClose (left right : ℚ) (scaleValues : List ℚ) : Prop :=
  InRange left ∧ InRange right ∧
    |left - right| ≤ quantityTolerance (left :: right :: scaleValues)

instance (left right : ℚ) (scaleValues : List ℚ) :
    Decidable (quantityClose left right scaleValues) :=
  inferInstanceAs (Decidable (_ ∧ _))

/-- `_close_enough`. -/
def closeEnough (left right : ℚ) : Prop :=
  InRange left ∧ InRange right ∧ |left - right| ≤ reconciliationTolerance

instance (left right : ℚ) : Decidable (closeEnough left right) :=
  inferInstanceAs (Decidable (_ ∧ _))

/-- `_ValidatedOrderEvent`. -/
structure ValidatedOrderEvent where
  ordinal : ℕ
  record : OrderRecord
  occurredAt : ℤ
  signalTime : ℤ
  fillTime : Option ℤ
  deriving DecidableEq, Repr

/-- `_FillEvidence`. -/
structure FillEvidence where
  timestamp : ℤ
  side : String
  quantity : ℚ
  price : ℚ
  notional : ℚ
  fee : ℚ
  slippage : ℚ
  deriving DecidableEq, Repr

/-- `_ClosedTradeCycle`. -/
structure ClosedTradeCycle where
  entryTime : ℤ
  exitTime : ℤ
  quantity : ℚ
  entryNotional : ℚ
  exitNotional : ℚ
  fees : ℚ
  slippage : ℚ
  deriving DecidableEq, Repr

/-- `_OrderEvidence`. -/
structure OrderEvidence where
  finalOrders : List OrderRecord
  fills : List FillEvidence
  buyQuantity : ℚ
  sellQuantity : ℚ
  fillFees : ℚ
  fillSlippage : ℚ
  totalFees : ℚ
  totalSlippage : ℚ
  cycles : List ClosedTradeCycle
  deriving DecidableEq, Repr

/-! ## The records -/

/-- `_phase_timestamp`, where the index holds the instants of the rows of the phase. -/
def phaseTimestamp (index : List ℤ) (timestamp : ℤ) (name : String) : Except Failure ℤ := do
  reject (timestamp ∉ index) (.value (name ++ " must remain inside the execution phase"))
  return timestamp

/-- The fill time of a record. -/
def fillTimeOf (index : List ℤ) (order : OrderRecord) (signalTime occurredAt : ℤ) :
    Except Failure (Option ℤ) := do
  if 0 < order.filledQuantity then
    let missing := Failure.value "filled backtest orders require time and price"
    let fillTime ← require order.fillTime missing
    let fillPrice ← require order.fillPrice missing
    let fillTime ← phaseTimestamp index fillTime "backtest order fill_time"
    reject (fillTime < signalTime ∨ occurredAt < fillTime ∨ ¬InRange fillPrice ∨ fillPrice ≤ 0)
      (.value "backtest order fills must be finite and ordered")
    return some fillTime
  else
    reject (order.fillTime ≠ none ∨ order.fillPrice ≠ none)
      (.value "unfilled backtest orders must not have fill data")
    return none

/-- The values that `_finite_order_values` reads. -/
def orderValues (order : OrderRecord) : List ℚ :=
  [order.requestedQuantity, order.filledQuantity, order.remainderQuantity, order.fee,
    order.slippage]

/-- One round of the first loop of `_validate_orders`. -/
def validateRecord (index : List ℤ) (order : OrderRecord) (ordinal : ℕ) :
    Except Failure ValidatedOrderEvent := do
  reject (order.orderId = "") (.value "backtest order IDs must be nonempty strings")
  reject (order.side ∉ ["BUY", "SELL"]) (.value "backtest order side must be BUY or SELL")
  reject (∃ value ∈ orderValues order, ¬InRange value)
    (.value "backtest order values must be finite")
  let requested := order.requestedQuantity
  let filled := order.filledQuantity
  let remainder := order.remainderQuantity
  reject (requested ≤ 0 ∨ filled < 0 ∨ remainder < 0 ∨ order.fee < 0 ∨ order.slippage < 0)
    (.value "backtest order quantities and costs must be nonnegative")
  reject (requested + quantityTolerance [requested, filled, remainder] < filled ∨
      ¬quantityClose requested (filled + remainder) [])
    (.value "backtest order quantities must reconcile")
  let occurredAt ← phaseTimestamp index order.occurredAt "backtest order occurred_at"
  let signalTime ← phaseTimestamp index order.signalTime "backtest order signal_time"
  reject (occurredAt < signalTime)
    (.value "backtest order signal_time must not follow occurred_at")
  let fillTime ← fillTimeOf index order signalTime occurredAt
  reject (∃ stop ∈ order.stopPrice, ¬InRange stop ∨ stop ≤ 0)
    (.value "backtest stop_price must be finite and positive")
  return { ordinal, record := order, occurredAt, signalTime, fillTime }

/-! ## The lifecycle of an order -/

/-- The set `terminal` of `_validate_order_lifecycle`. -/
def isTerminal : OrderStatus → Bool
  | .completed | .canceled | .expired | .insufficientCash | .rejected => true
  | _ => false

/-- Whether the table `transitions` of `_validate_order_lifecycle` allows a transition. -/
def allowsTransition : OrderStatus → OrderStatus → Bool
  | .created, next => next = .submitted || next = .rejected || next = .canceled
  | .submitted, next => next = .accepted || isTerminal next
  | .accepted, next => next = .partial_ || isTerminal next
  | .partial_, next => next = .partial_ || isTerminal next
  | _, _ => false

/-- `_cumulative_order_notional`. -/
def cumulativeOrderNotional (order : OrderRecord) : Except Failure ℚ := do
  if order.filledQuantity ≤ quantityAbsoluteTolerance then return 0
  let price ← require (order.fillPrice.filter fun price => InRange price)
    (.value "filled backtest orders require finite fill notional")
  return order.filledQuantity * price

/-- The variables of the loop of `_validate_order_lifecycle`. -/
structure LifecycleScan where
  previous : ValidatedOrderEvent
  pendingSlippage : ℚ
  fills : List (ℕ × FillEvidence)

/-- The tolerance of a round of the loop of `_validate_order_lifecycle`. -/
def stepTolerance (previous current : OrderRecord) : ℚ :=
  quantityTolerance [current.requestedQuantity, current.filledQuantity, previous.filledQuantity,
    current.remainderQuantity, previous.remainderQuantity]

/-- The checks of a round of the loop of `_validate_order_lifecycle`. -/
def checkStep (previous current : ValidatedOrderEvent) : Except Failure Unit := do
  let before := previous.record
  let after := current.record
  let tolerance := stepTolerance before after
  let delta := after.filledQuantity - before.filledQuantity
  reject (after.side ≠ before.side ∨
      ¬quantityClose after.requestedQuantity before.requestedQuantity [] ∨
      current.signalTime ≠ previous.signalTime)
    (.value "backtest order lifecycle fields must remain stable")
  reject (allowsTransition before.status after.status = false)
    (.value "backtest order lifecycle transition is invalid")
  reject (after.filledQuantity + tolerance < before.filledQuantity ∨
      before.remainderQuantity + tolerance < after.remainderQuantity ∨
      after.fee + reconciliationTolerance < before.fee ∨
      after.slippage + reconciliationTolerance < before.slippage)
    (.value "backtest order lifecycle quantities must be monotonic")
  reject (isTerminal after.status = true ∧ after.status ≠ .completed ∧ tolerance < delta)
    (.value "terminal order states must not add fills")
  reject (after.status ∈ [.created, .submitted, .accepted] ∧ tolerance < delta)
    (.value "unfilled order lifecycle states must not add fills")
  reject (after.status = .partial_ ∧ (delta ≤ tolerance ∨ after.remainderQuantity ≤ tolerance))
    (.value "PARTIAL order states require a proper incremental fill")
  reject (after.status = .completed ∧ (after.filledQuantity ≤ tolerance ∨
      ¬quantityClose after.filledQuantity after.requestedQuantity [] ∨
      ¬quantityClose after.remainderQuantity 0 [after.requestedQuantity] ∨ delta ≤ tolerance))
    (.value "COMPLETED orders must fully settle exactly once")

/-- The fill that a round of the loop of `_validate_order_lifecycle` adds. -/
def stepFill (scan : LifecycleScan) (current : ValidatedOrderEvent) :
    Except Failure FillEvidence := do
  let before := scan.previous.record
  let after := current.record
  let delta := after.filledQuantity - before.filledQuantity
  let fillTime ← require current.fillTime
    (.value "incremental backtest fills require a fill timestamp")
  let previousNotional ← cumulativeOrderNotional before
  let currentNotional ← cumulativeOrderNotional after
  let notional := plus currentNotional (-previousNotional)
  reject (¬InRange notional ∨ notional ≤ reconciliationTolerance)
    (.value "incremental backtest fills require positive notional")
  return {
    timestamp := fillTime
    side := after.side
    quantity := delta
    price := notional / delta
    notional
    fee := max 0 (after.fee - before.fee)
    slippage := scan.pendingSlippage + max 0 (after.slippage - before.slippage) }

/-- One round of the loop of `_validate_order_lifecycle`. -/
def lifecycleStep (scan : LifecycleScan) (current : ValidatedOrderEvent) :
    Except Failure LifecycleScan := do
  let before := scan.previous.record
  let after := current.record
  checkStep scan.previous current
  if after.filledQuantity - before.filledQuantity ≤ stepTolerance before after then
    return { scan with
      previous := current
      pendingSlippage := scan.pendingSlippage + max 0 (after.slippage - before.slippage) }
  else
    let fill ← stepFill scan current
    return {
      previous := current
      pendingSlippage := 0
      fills := scan.fills ++ [(current.ordinal, fill)] }

/-- `_validate_order_lifecycle`. -/
def validateOrderLifecycle (lifecycle : List ValidatedOrderEvent) :
    Except Failure (OrderRecord × List (ℕ × FillEvidence)) := do
  match lifecycle with
  | [] => .error (.value "list index out of range")
  | first :: rest =>
    reject (first.record.status ≠ .created)
      (.value "backtest order lifecycle must begin CREATED")
    reject (¬quantityClose first.record.filledQuantity 0 [first.record.requestedQuantity] ∨
        ¬quantityClose first.record.remainderQuantity first.record.requestedQuantity [] ∨
        ¬closeEnough first.record.fee 0 ∨ ¬closeEnough first.record.slippage 0)
      (.value "backtest CREATED lifecycle state must be unfilled")
    let scan ← rest.foldlM lifecycleStep ⟨first, 0, []⟩
    reject (isTerminal scan.previous.record.status = false)
      (.value "backtest order lifecycle must be terminal")
    reject (reconciliationTolerance < scan.pendingSlippage)
      (.value "backtest order slippage requires a fill increment")
    return (scan.previous.record, scan.fills)

/-! ## The fills -/

/-- The variables of the inventory loop of `_validate_orders`. -/
structure InventoryScan where
  inventory : ℚ
  buyQuantity : ℚ
  sellQuantity : ℚ

/-- One round of the inventory loop of `_validate_orders`. -/
def inventoryStep (scan : InventoryScan) (fill : FillEvidence) : Except Failure InventoryScan := do
  let next : InventoryScan :=
    if fill.side = "BUY" then
      { scan with
        inventory := scan.inventory + fill.quantity
        buyQuantity := scan.buyQuantity + fill.quantity }
    else
      { scan with
        inventory := scan.inventory - fill.quantity
        sellQuantity := scan.sellQuantity + fill.quantity }
  reject (next.inventory < -quantityTolerance [next.buyQuantity, next.sellQuantity])
    (.value "backtest fills must not create negative BTC inventory")
  return next

/-- The variables of the loop of `_reconstruct_closed_trade_cycles`. -/
structure CycleScan where
  inventory : ℚ := 0
  entryTime : Option ℤ := none
  entryQuantity : ℚ := 0
  entryNotional : ℚ := 0
  entryFees : ℚ := 0
  entrySlippage : ℚ := 0
  exitQuantity : ℚ := 0
  exitNotional : ℚ := 0
  exitFees : ℚ := 0
  exitSlippage : ℚ := 0
  cycles : List ClosedTradeCycle := []

/-- One round of the loop of `_reconstruct_closed_trade_cycles`. -/
def cycleStep (scan : CycleScan) (fill : FillEvidence) : Except Failure CycleScan := do
  if fill.side = "BUY" then
    return { scan with
      entryTime := if quantityClose scan.inventory 0 [] then some fill.timestamp else scan.entryTime
      inventory := scan.inventory + fill.quantity
      entryQuantity := scan.entryQuantity + fill.quantity
      entryNotional := scan.entryNotional + fill.notional
      entryFees := scan.entryFees + fill.fee
      entrySlippage := scan.entrySlippage + fill.slippage }
  let sold := { scan with
    inventory := scan.inventory - fill.quantity
    exitQuantity := scan.exitQuantity + fill.quantity
    exitNotional := scan.exitNotional + fill.notional
    exitFees := scan.exitFees + fill.fee
    exitSlippage := scan.exitSlippage + fill.slippage }
  reject (sold.inventory < -quantityTolerance [sold.entryQuantity, sold.exitQuantity])
    (.value "backtest fills must not create negative BTC inventory")
  if ¬quantityClose sold.inventory 0 [sold.entryQuantity, sold.exitQuantity] then return sold
  let unmatched := Failure.value "backtest trade cycles must close matched BTC quantity"
  let entryTime ← require sold.entryTime unmatched
  reject (¬quantityClose sold.entryQuantity sold.exitQuantity []) unmatched
  return { cycles := sold.cycles ++ [{
    entryTime
    exitTime := fill.timestamp
    quantity := sold.entryQuantity
    entryNotional := sold.entryNotional
    exitNotional := sold.exitNotional
    fees := sold.entryFees + sold.exitFees
    slippage := sold.entrySlippage + sold.exitSlippage }] }

/-- `_reconstruct_closed_trade_cycles`. -/
def reconstructClosedTradeCycles (fills : List FillEvidence) :
    Except Failure (List ClosedTradeCycle) := do
  let scan ← fills.foldlM cycleStep {}
  reject (¬quantityClose scan.inventory 0 [])
    (.value "forced-liquidation phase must finish with zero BTC inventory")
  return scan.cycles

/-- The identifiers of the orders, in the order of their first records. -/
def orderIds (events : List ValidatedOrderEvent) : List String :=
  (events.map (·.record.orderId)).eraseDups

/-- `groups[order_id]`. -/
def lifecycleOf (events : List ValidatedOrderEvent) (orderId : String) : List ValidatedOrderEvent :=
  events.filter (·.record.orderId = orderId)

/-- The first loop of `_validate_orders`. -/
def validateRecords (index : List ℤ) (orders : List OrderRecord) :
    Except Failure (List ValidatedOrderEvent) := do
  let events ← orders.zipIdx.mapM fun item => validateRecord index item.1 item.2
  reject (¬(events.map (·.occurredAt)).IsChain (· ≤ ·))
    (.value "backtest order records must be chronologically ordered")
  return events

/-- The second loop of `_validate_orders`: the last records of the orders, and
`fills_by_ordinal`. -/
def validateLifecycles (events : List ValidatedOrderEvent) :
    Except Failure (List OrderRecord × List (ℕ × FillEvidence)) := do
  let results ← (orderIds events).mapM fun orderId =>
    validateOrderLifecycle (lifecycleOf events orderId)
  return (results.map Prod.fst, results.flatMap Prod.snd)

/-- `_validate_orders`. -/
def validateOrders (index : List ℤ) (orders : List OrderRecord) : Except Failure OrderEvidence := do
  let events ← validateRecords index orders
  let (finalOrders, fillsByOrdinal) ← validateLifecycles events
  let fills := events.filterMap fun event => fillsByOrdinal.lookup event.ordinal
  let scan ← fills.foldlM inventoryStep ⟨0, 0, 0⟩
  let totalFees := (finalOrders.map OrderRecord.fee).sum
  let fillFees := (fills.map FillEvidence.fee).sum
  reject (¬closeEnough fillFees totalFees)
    (.value "backtest order fees must reconcile with fill increments")
  let totalSlippage := (finalOrders.map OrderRecord.slippage).sum
  let fillSlippage := (fills.map FillEvidence.slippage).sum
  reject (¬closeEnough fillSlippage totalSlippage)
    (.value "backtest order slippage must reconcile with fill increments")
  let cycles ← reconstructClosedTradeCycles fills
  return {
    finalOrders, fills
    buyQuantity := scan.buyQuantity
    sellQuantity := scan.sellQuantity
    fillFees, fillSlippage, totalFees, totalSlippage, cycles }

end AutoBit.Validation
