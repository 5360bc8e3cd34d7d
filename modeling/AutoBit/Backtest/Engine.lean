import AutoBit.Backtest.NativeOrders
import AutoBit.Backtest.Records
import AutoBit.Library.Except
import AutoBit.Strategy.Engine

/-!
# The strategy of a backtest

`_DonchianBacktestStrategy` answers to the notifications of its orders, to each bar, to a gap in
the data and to the end of the run. Fills reach it in queued notifications and, for a stop of the
same bar or a liquidation, at once. The order log that it also writes is left out: nothing reads
it back.
-/

namespace AutoBit.Backtest

open Library Strategy

/-- The part of `BacktestConfig` that the strategy reads, with the opens of its bars. -/
structure EngineConfig where
  strategy : StrategyConfig
  costs : CostConfig
  forceLiquidateAtEnd : Bool := false
  referenceOpens : List (ℤ × ℚ)
  deriving DecidableEq, Repr

/-- The current bar: its prices, its row of strategy inputs, and the risk decision on it. -/
structure Bar where
  now : ℤ
  open_ : ℚ
  high : ℚ
  low : ℚ
  close : ℚ
  gapBeforeCurrentBar : Bool := false
  isLast : Bool := false
  row : Row
  risk : Risk.RiskDecision
  deriving DecidableEq, Repr

/-- A captured fill: its time, quantity, price and commission. -/
structure FillBit where
  time : ℤ
  quantity : ℚ
  price : ℚ
  comm : ℚ
  deriving DecidableEq, Repr

/-- The fields of `_DonchianBacktestStrategy`. A stop that is not a number is `some none`. -/
structure StrategyState where
  equityPoints : List EquityPoint := []
  tradeRecords : List TradeRecord := []
  totalFees : ℚ := 0
  totalSlippage : ℚ := 0
  seenExecutionBits : ℕ → ℕ := fun _ => 0
  entryFillBits : List FillBit := []
  exitFillBits : List FillBit := []
  entryPartialPending : Bool := false
  exitPartialPending : Bool := false
  entryOrder : Option ℕ := none
  exitOrder : Option ℕ := none
  stopOrder : Option ℕ := none
  initialStop : Option (Option ℚ) := none
  currentStop : Option (Option ℚ) := none
  entryPrice : Option ℚ := none
  highWater : Option ℚ := none
  entrySignalTime : Option ℤ := none
  entryFillBar : Option ℕ := none
  gapHandledCurrentBar : Bool := false
  terminalFinalEquity : Option ℚ := none
  barCount : ℕ := 0

/-- The broker and the strategy of one run. -/
structure World where
  broker : NativeBroker
  strategy : StrategyState := {}

/-! ## Fills -/

/-- `_bit_slippage`. -/
def bitSlippage (config : EngineConfig) (order : NativeOrder) (bit : ExecutionBit) :
    Except Failure ℚ := do
  let referenceOpen ← match order.info.terminalReferencePrice with
    | some reference => .ok reference
    | none => require (config.referenceOpens.lookup bit.dt) (.value "no reference open")
  let reference ← match order.execType with
    | .market => .ok referenceOpen
    | .stop => do
      let trigger ← require order.info.stopPrice (.value "float() argument must be a number")
      .ok (match trigger with
        | some trigger =>
          if order.isBuy then max referenceOpen trigger else min referenceOpen trigger
        | none => referenceOpen)
  return (if order.isBuy then max 0 (bit.price - reference) else max 0 (reference - bit.price)) *
    bit.size

/-- `_record_completed_trade`. -/
def recordCompletedTrade (strategy : StrategyState) (exitReason : String) : StrategyState :=
  let entryQuantity := (strategy.entryFillBits.map FillBit.quantity).sum
  let exitQuantity := (strategy.exitFillBits.map FillBit.quantity).sum
  match strategy.entryFillBits.head?, strategy.exitFillBits.getLast? with
  | some first, some last =>
    if entryQuantity ≤ 0 ∨ exitQuantity ≤ 0 then strategy
    else
      let entryValue := (strategy.entryFillBits.map fun fill => fill.quantity * fill.price).sum
      let exitValue := (strategy.exitFillBits.map fun fill => fill.quantity * fill.price).sum
      let fees := ((strategy.entryFillBits ++ strategy.exitFillBits).map FillBit.comm).sum
      let grossPnl := exitValue - entryValue
      { strategy with
        tradeRecords := strategy.tradeRecords ++ [{
          entryTime := first.time
          exitTime := last.time
          quantity := entryQuantity
          entryPrice := entryValue / entryQuantity
          exitPrice := exitValue / exitQuantity
          grossPnl
          netPnl := grossPnl - fees
          fees
          exitReason }]
        entryFillBits := []
        exitFillBits := [] }
  | _, _ => strategy

/-- `_capture_trade_fill`. -/
def captureTradeFill (strategy : StrategyState) (order : NativeOrder) (bit : ExecutionBit) :
    StrategyState :=
  let fill : FillBit := ⟨bit.dt, bit.size, bit.price, bit.comm⟩
  if order.isBuy then { strategy with entryFillBits := strategy.entryFillBits ++ [fill] }
  else
    let strategy := { strategy with exitFillBits := strategy.exitFillBits ++ [fill] }
    if 1 / 10 ^ 12 < |bit.psize| then strategy
    else recordCompletedTrade strategy order.info.reason

/-- One round of the loop of `_capture_new_fills`. -/
def captureBit (config : EngineConfig) (order : NativeOrder) (strategy : StrategyState)
    (bit : ExecutionBit) : Except Failure StrategyState := do
  let slippage ← bitSlippage config order bit
  return captureTradeFill { strategy with
    totalFees := strategy.totalFees + bit.comm
    totalSlippage := strategy.totalSlippage + slippage } order bit

/-- `self._seen_execution_bits[order.ref] = len(bits)`. -/
def markSeen (strategy : StrategyState) (ref count : ℕ) : StrategyState :=
  { strategy with seenExecutionBits := Function.update strategy.seenExecutionBits ref count }

/-- `_capture_new_fills`. -/
def captureNewFills (config : EngineConfig) (strategy : StrategyState) (ref : ℕ)
    (order : NativeOrder) : Except Failure StrategyState := do
  let seen := strategy.seenExecutionBits ref
  let captured ← (order.exbits.drop seen).foldlM (captureBit config order) strategy
  return markSeen captured ref order.exbits.length

/-! ## Notifications -/

/-- `_reset_position_tracking`. -/
def resetPositionTracking (strategy : StrategyState) : StrategyState :=
  { strategy with
    initialStop := none
    currentStop := none
    entryPrice := none
    highWater := none
    entrySignalTime := none
    entryFillBar := none }

/-- The order of the notification is closed for good. -/
def Notification.isFinal (notification : Notification) : Bool := !notification.status.alive

/-- The part of `notify_order` that concerns the entry order. -/
def notifyEntry (applyEntryFill : World → Except Failure World) (world : World)
    (notification : Notification) : Except Failure World :=
  if world.strategy.entryOrder = some notification.ref then
    match notification.status with
    | .completed => do
      let world ← applyEntryFill world
      return { world with strategy := { world.strategy with entryOrder := none } }
    | .partial_ => do
      let world ← applyEntryFill world
      return { world with strategy := { world.strategy with entryPartialPending := true } }
    | .canceled | .expired | .margin | .rejected =>
      return { world with strategy := { world.strategy with entryOrder := none } }
    | _ => return world
  else return world

/-- The part of `notify_order` that concerns the stop order, the exit order and the end of a
position. -/
def notifyExit (world : World) (notification : Notification) (isSell : Bool) : World :=
  let strategy := world.strategy
  let stopOrder :=
    if strategy.stopOrder = some notification.ref ∧ notification.isFinal then none
    else strategy.stopOrder
  let exitOrder :=
    if strategy.exitOrder = some notification.ref ∧ notification.isFinal then none
    else strategy.exitOrder
  let exitPartialPending := strategy.exitPartialPending || notification.status = .partial_ &&
    (exitOrder = some notification.ref || stopOrder = some notification.ref)
  let strategy := { strategy with stopOrder, exitOrder, exitPartialPending }
  if isSell ∧ notification.status = .completed ∧ world.broker.position = 0 then
    { world with strategy := resetPositionTracking strategy }
  else { world with strategy }

/-- `notify_order`, given what an entry fill leads to. -/
def notifyWith (config : EngineConfig) (applyEntryFill : World → Except Failure World)
    (world : World) (notification : Notification) : Except Failure World := do
  match world.broker.orders[notification.ref]? with
  | none => return world
  | some order =>
    let strategy ← captureNewFills config world.strategy notification.ref order
    let world ← notifyEntry applyEntryFill { world with strategy } notification
    return notifyExit world notification (!order.isBuy)

/-- `_notify_same_bar`: an order that is handed over at once is a sale, which is never the entry
order, so that no entry fill follows. -/
def notifySameBar (config : EngineConfig) (world : World) (ref : ℕ) : Except Failure World :=
  match world.broker.orders[ref]? with
  | none => .ok world
  | some order => notifyWith config .ok world (order.notification ref)

/-- The status of an order. -/
def World.statusOf (world : World) (ref : ℕ) : Option NativeStatus :=
  world.broker.orders[ref]?.map NativeOrder.status

/-- An order is handed over when its status has changed. -/
def notifyIfChanged (config : EngineConfig) (before : Option NativeStatus) (world : World)
    (ref : ℕ) : Except Failure World :=
  if world.statusOf ref = before then .ok world else notifySameBar config world ref

/-- `reconcile_same_bar_stop`, where the current bar may offer an execution. -/
def reconcileSameBarStop (config : EngineConfig) (now : ℤ) (offer : Option Offer) (world : World)
    (ref : ℕ) : Except Failure World :=
  if world.statusOf ref = some .submitted then do
    let world ← notifySameBar config world ref
    let world := { world with broker := world.broker.submitAccept ref }
    let world ← notifySameBar config world ref
    let broker := offer.elim world.broker (world.broker.execute ref now)
    notifyIfChanged config (world.statusOf ref) { world with broker } ref
  else return world

/-- `self.sell(...)`: a quantity of zero places no order. -/
def placeSell (world : World) (execType : ExecType) (size : ℚ) (info : OrderInfo) :
    World × Option ℕ :=
  if size = 0 then (world, none)
  else
    let (broker, ref) := world.broker.sell execType |size| info
    ({ world with broker }, some ref)

/-- `self.buy(...)`: a quantity of zero places no order. -/
def placeBuy (world : World) (size : ℚ) (info : OrderInfo) : World × Option ℕ :=
  if size = 0 then (world, none)
  else
    let (broker, ref) := world.broker.buy |size| info
    ({ world with broker }, some ref)

/-- The order that `_submit_stop` places. -/
def submitStop (world : World) : World :=
  match world.strategy.currentStop, world.strategy.entrySignalTime with
  | some currentStop, some signalTime =>
    let (placed, stopOrder) := placeSell world .stop world.broker.position
      { signalTime, reason := "HARD_STOP", stopPrice := some currentStop }
    { placed with strategy := { placed.strategy with stopOrder } }
  | _, _ => world

/-- `_submit_stop(reconcile_current_bar=True)`. -/
def submitStopNow (config : EngineConfig) (bar : Bar) (offer : Option Offer) (world : World) :
    Except Failure World :=
  match world.strategy.currentStop, world.strategy.entrySignalTime with
  | some currentStop, some _ =>
    let placed := submitStop world
    match placed.strategy.stopOrder with
    | some ref =>
      if ∃ stop ∈ currentStop, bar.low ≤ stop then
        reconcileSameBarStop config bar.now offer placed ref
      else .ok placed
    | none => .ok placed
  | _, _ => .ok world

/-- `_apply_entry_fill`. -/
def applyEntryFill (config : EngineConfig) (bar : Bar) (offer : Option Offer)
    (notification : Notification) (world : World) : Except Failure World :=
  match world.broker.orders[notification.ref]? with
  | none => .ok world
  | some order =>
    let entryPrice := notification.executedPrice
    let initialStop := order.info.executionAtr.bind fun atr =>
      initialStopPrice entryPrice atr order.info.initialAtrMult
    submitStopNow config bar offer { world with strategy := { world.strategy with
      entryPrice := some entryPrice
      initialStop := some initialStop
      currentStop := some initialStop
      highWater := some entryPrice
      entryFillBar := some (world.strategy.entryFillBar.getD world.strategy.barCount) } }

/-- `notify_order` for a queued notification. -/
def notifyOrder (config : EngineConfig) (bar : Bar) (offer : Option Offer) (world : World)
    (notification : Notification) : Except Failure World :=
  notifyWith config (applyEntryFill config bar offer notification) world notification

/-! ## Liquidation -/

/-- `settle_immediate_market_order`, and whether the order was completed. -/
def settleImmediateMarketOrder (config : EngineConfig) (now : ℤ) (price : ℚ) (world : World)
    (ref : ℕ) : Except Failure (World × Bool) :=
  match world.broker.orders[ref]? with
  | none => .ok (world, false)
  | some order =>
    if order.execType = .market ∧ order.status = .submitted then do
      let world ← notifySameBar config world ref
      let world := { world with broker := world.broker.submitAccept ref }
      let world ← notifySameBar config world ref
      let offer : Offer := ⟨order.remsize, price, order.remsize * price * config.costs.feeRate⟩
      let world := { world with broker := world.broker.execute ref now offer }
      let world ← notifySameBar config world ref
      return (world, world.statusOf ref = some .completed)
    else .ok (world, false)

/-- `broker.getvalue()`. -/
def World.value (world : World) (bar : Bar) : ℚ :=
  world.broker.cash + world.broker.position * bar.close

/-- The last equity point of a bar replaces an earlier one of the same bar. -/
def recordEquity (strategy : StrategyState) (now : ℤ) (equity : ℚ) : StrategyState :=
  let earlier := match strategy.equityPoints.getLast? with
    | some point => if point.timestamp = now then strategy.equityPoints.dropLast
      else strategy.equityPoints
    | none => []
  { strategy with equityPoints := earlier ++ [⟨now, equity⟩] }

/-- `_liquidate_at_reference`. -/
def liquidateAtReference (config : EngineConfig) (bar : Bar) (reason : String)
    (referencePrice : ℚ) (terminal : Bool) (world : World) : Except Failure World :=
  let quantity := world.broker.position
  if quantity ≤ 0 ∨ referencePrice ≤ 0 then .ok world
  else do
    let fillPrice := referencePrice * (1 - config.costs.slippageRate)
    reject (fillPrice ≤ 0) (.value "terminal liquidation values must be nonnegative")
    let (placed, exitOrder) := placeSell world .market quantity
      { signalTime := bar.now, reason, terminalReferencePrice := some referencePrice }
    let world := { placed with strategy := { placed.strategy with exitOrder } }
    let ref ← require exitOrder (.value "terminal liquidation could not settle natively")
    let (world, settled) ← settleImmediateMarketOrder config bar.now fillPrice world ref
    reject (settled = false) (.value "terminal liquidation could not settle natively")
    reject (1 / 10 ^ 12 < |world.broker.position| ∨ world.broker.hasOpenOrders)
      (.value "terminal liquidation left open broker state")
    let finalEquity := world.value bar
    reject (finalEquity < 0) (.value "terminal liquidation equity must be finite and nonnegative")
    let strategy := if terminal then
        { world.strategy with terminalFinalEquity := some finalEquity }
      else world.strategy
    return { world with strategy := recordEquity strategy bar.now finalEquity }

/-- Every order that is alive is canceled. -/
def cancelAll (broker : NativeBroker) : NativeBroker :=
  (List.range broker.orders.length).foldl NativeBroker.cancelEndOfData broker

/-- What `_handle_gap_before_current_bar` does with the position. -/
def flattenAtGap (config : EngineConfig) (bar : Bar) (world : World) : Except Failure World :=
  if 0 < world.broker.position then
    liquidateAtReference config bar "FORCED_GAP" bar.open_ false world
  else .ok { world with strategy := { world.strategy with
    entryFillBits := []
    exitFillBits := [] } }

/-- `_handle_gap_before_current_bar`. -/
def handleGapBeforeCurrentBar (config : EngineConfig) (bar : Bar) (world : World) :
    Except Failure World :=
  if bar.gapBeforeCurrentBar then do
    let world ← flattenAtGap config bar {
      broker := cancelAll world.broker
      strategy := { world.strategy with
        gapHandledCurrentBar := true
        entryOrder := none
        exitOrder := none
        stopOrder := none
        entryPartialPending := false
        exitPartialPending := false } }
    let world := { world with strategy := resetPositionTracking world.strategy }
    reject (1 / 10 ^ 12 < |world.broker.position| ∨ world.broker.hasOpenOrders)
      (.value "data-gap boundary left open broker state")
    return world
  else .ok world

/-- `stop`. -/
def stop (config : EngineConfig) (bar : Bar) (world : World) : Except Failure World :=
  let world := { world with broker := cancelAll world.broker }
  if config.forceLiquidateAtEnd ∧ 0 < world.broker.position then
    liquidateAtReference config bar "FORCED_END" bar.close true world
  else .ok world

/-! ## A bar -/

/-- `_cancel_entry_remainder`. -/
def cancelEntryRemainder (world : World) : World :=
  let broker := match world.strategy.entryOrder with
    | some ref => world.broker.cancel ref
    | none => world.broker
  { broker, strategy := { world.strategy with entryPartialPending := false, entryOrder := none } }

/-- `self.cancel(self.stop_order)`, after which there is none. -/
def cancelStop (world : World) : World :=
  match world.strategy.stopOrder with
  | some ref =>
    { broker := world.broker.cancel ref, strategy := { world.strategy with stopOrder := none } }
  | none => world

/-- `_reissue_exit_remainder`. -/
def reissueExitRemainder (bar : Bar) (world : World) : World :=
  let world := { world with strategy := { world.strategy with exitPartialPending := false } }
  match world.strategy.exitOrder.orElse fun _ => world.strategy.stopOrder with
  | none => world
  | some ref =>
    match world.broker.orders[ref]? with
    | none => world
    | some original =>
      let remainder := min |original.remsize| (max 0 world.broker.position)
      let world : World := {
        broker := world.broker.cancel ref
        strategy := { world.strategy with
          stopOrder := if world.strategy.stopOrder = some ref then none
            else world.strategy.stopOrder
          exitOrder := if world.strategy.exitOrder = some ref then none
            else world.strategy.exitOrder } }
      if remainder ≤ 0 ∨ bar.isLast then world
      else
        let (placed, exitOrder) := placeSell world .market remainder
          { original.info with terminalReferencePrice := none }
        { placed with strategy := { placed.strategy with exitOrder } }

/-- `_submit_market_exit`. -/
def submitMarketExit (bar : Bar) (reason : String) (quantity : ℚ) (world : World) : World :=
  let world := cancelStop world
  let (placed, exitOrder) := placeSell world .market quantity { signalTime := bar.now, reason }
  { placed with strategy := { placed.strategy with exitOrder } }

/-- `_update_trailing_stop`. -/
def updateTrailingStop (bar : Bar) (candidate : ℚ) (world : World) : Except Failure World := do
  let currentStop ← require world.strategy.currentStop
    (.value "float() argument must be a number")
  if ∃ current ∈ currentStop, candidate ≤ current then return world
  else
    let world := cancelStop world
    let (placed, stopOrder) := placeSell world .stop world.broker.position
      { signalTime := bar.now, reason := "TRAILING_STOP", stopPrice := some (some candidate) }
    return { placed with strategy := { placed.strategy with
      currentStop := some (some candidate)
      stopOrder } }

/-- `_position_context`. A stop that is not a number makes the context invalid, as `0` does. -/
def positionContext (world : World) : Except Failure (Option PositionContext) :=
  let strategy := world.strategy
  if world.broker.position ≤ 0 then .ok none
  else do
    let missing := Failure.value "float() argument must be a number"
    let entryPrice ← require strategy.entryPrice missing
    let initialStop ← require strategy.initialStop missing
    let currentStop ← require strategy.currentStop missing
    let highWater ← require strategy.highWater missing
    let entryFillBar ← require strategy.entryFillBar missing
    return some {
      entryPrice
      initialStop := initialStop.getD 0
      currentStop := currentStop.getD 0
      highWater
      quantity := world.broker.position
      heldBars := strategy.barCount - entryFillBar }

/-- What `next` does with the action and the stop of a decision on an open position. -/
def applyDecision (bar : Bar) (decision : Decision) (world : World) : Except Failure World :=
  match decision.action with
  | .sell reason quantity =>
    if world.strategy.exitOrder = none then
      .ok (submitMarketExit bar reason quantity (cancelEntryRemainder world))
    else .ok world
  | _ =>
    match decision.nextStop with
    | some candidate =>
      if world.strategy.exitOrder = none then updateTrailingStop bar candidate world
      else .ok world
    | none => .ok world

/-- The stop of an open position that has neither a stop nor an exit. -/
def ensureStop (world : World) : World :=
  if world.strategy.stopOrder = none ∧ world.strategy.exitOrder = none then submitStop world
  else world

/-- What `next` does with a decision on an open position. -/
def managePosition (bar : Bar) (decision : Decision) (world : World) : Except Failure World := do
  let world ← applyDecision bar decision (ensureStop world)
  let highWater ← require world.strategy.highWater (.value "float() argument must be a number")
  return { world with strategy := { world.strategy with
    highWater := some (max highWater bar.high) } }

/-- What `next` does with a decision without a position. -/
def openPosition (config : EngineConfig) (bar : Bar) (decision : Decision) (world : World) :
    World :=
  match decision.action with
  | .buy reason quantity =>
    let strategy := { world.strategy with
      initialStop := some decision.nextStop
      currentStop := some decision.nextStop
      entrySignalTime := some bar.now }
    let (placed, entryOrder) := placeBuy { world with strategy } quantity {
      signalTime := bar.now
      reason
      executionAtr := bar.row.atr
      initialAtrMult := config.strategy.initialAtrMult }
    { placed with strategy := { placed.strategy with entryOrder } }
  | _ => world

/-- The decision of the engine on a bar. -/
def decideBar (config : EngineConfig) (bar : Bar) (world : World)
    (position : Option PositionContext) : Decision :=
  Strategy.decide config.strategy config.costs {
    row := bar.row
    cash := world.broker.cash
    equity := world.value bar
    position
    hasPendingOrder := world.strategy.entryOrder.isSome || world.strategy.exitOrder.isSome
    risk := bar.risk }

/-- `next`. -/
def next (config : EngineConfig) (bar : Bar) (world : World) : Except Failure World :=
  let world := { world with
    strategy := recordEquity world.strategy bar.now (world.value bar) }
  if world.strategy.gapHandledCurrentBar then
    .ok { world with strategy := { world.strategy with gapHandledCurrentBar := false } }
  else
    let world := if world.strategy.entryPartialPending then cancelEntryRemainder world else world
    if world.strategy.exitPartialPending then .ok (reissueExitRemainder bar world)
    else do
      let position ← positionContext world
      let decision := decideBar config bar world position
      match position with
      | some _ => managePosition bar decision world
      | none => .ok (openPosition config bar decision world)

/-! ## Runs -/

/-- What a run does next. -/
inductive Phase where
  | idle
  | matching
  | delivering
  | finished
  deriving DecidableEq, Repr

/-- The state of a run: its phase and bar, the broker and the strategy, the notifications that are
due before `next`, and all that were ever queued. -/
structure RunState where
  phase : Phase
  bar : Bar
  world : World
  due : List Notification := []
  past : List Notification := []

/-- The bars of the strategy are counted. -/
def World.openBar (world : World) : World :=
  { world with strategy := { world.strategy with barCount := world.strategy.barCount + 1 } }

/-- A step of a run. A bar begins with the hook of the broker and goes on with any events of a
matching cycle. The queued notifications then reach the strategy, in any order and some of them
again, before `next`. -/
inductive Step (config : EngineConfig) : RunState → RunState → Prop where
  | openBar {last bar : Bar} {world world' : World} {past : List Notification}
      (h : handleGapBeforeCurrentBar config bar world.openBar = .ok world') :
      Step config ⟨.idle, last, world, [], past⟩ ⟨.matching, bar, world', [], past⟩
  | matched {bar : Bar} {world : World} {past : List Notification} (event : MatchEvent) :
      Step config ⟨.matching, bar, world, [], past⟩
        ⟨.matching, bar, { world with broker := world.broker.matchEvent bar.now event }, [], past⟩
  | closeMatching {bar : Bar} {world : World} {past : List Notification} :
      Step config ⟨.matching, bar, world, [], past⟩
        ⟨.delivering, bar, { world with broker := { world.broker with notifs := [] } },
          world.broker.notifs, past ++ world.broker.notifs⟩
  | deliver {bar : Bar} {world world' : World} {due past : List Notification}
      {notification : Notification} {offer : Option Offer} (hqueued : notification ∈ past)
      (h : notifyOrder config bar offer world notification = .ok world') :
      Step config ⟨.delivering, bar, world, due, past⟩
        ⟨.delivering, bar, world', due.erase notification, past⟩
  | next {bar : Bar} {world world' : World} {past : List Notification}
      (h : next config bar world = .ok world') :
      Step config ⟨.delivering, bar, world, [], past⟩ ⟨.idle, bar, world', [], past⟩
  | stop {bar : Bar} {world world' : World} {past : List Notification}
      (h : stop config bar world = .ok world') :
      Step config ⟨.idle, bar, world, [], past⟩ ⟨.finished, bar, world', [], past⟩

/-- The states that a run with some initial cash reaches. -/
inductive Reaches (config : EngineConfig) (cash : ℚ) : RunState → Prop where
  | start (bar : Bar) : Reaches config cash ⟨.idle, bar, { broker := { cash } }, [], []⟩
  | step {state state' : RunState} (h : Reaches config cash state)
      (hstep : Step config state state') : Reaches config cash state'

end AutoBit.Backtest
