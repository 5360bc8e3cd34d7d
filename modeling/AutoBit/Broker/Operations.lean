import AutoBit.Broker.Ledger

/-!
# The operations of the paper broker

Every operation rebuilds the ledger, checks its request against it and appends evidence,
in one transaction of the store: an operation that raises leaves the database as it was.
The verification at the end of a transaction repeats that of its last mutation.
-/

namespace AutoBit.Broker

open Library Store Strategy

/-- `_text`. -/
def requireText (id : PaperId) (label : String) : Except Failure Unit :=
  reject (id = .external "") (.value (label ++ " must be non-empty"))

/-- `_reason`. -/
def requireReason (reason : String) : Except Failure Unit :=
  reject (isReason reason = false) (.value "reason must be an uppercase code")

/-- `_positive`. -/
def requirePositive (value : ℚ) (label : String) : Except Failure Unit :=
  reject (value ≤ 0) (.value (label ++ " must be finite and positive"))

/-- `_next_boundary`, which refuses an instant that is not a boundary. -/
def requireNextBoundary (instant : ℤ) : Except Failure ℤ := do
  reject (¬IsBoundary instant) (.value "timestamp must be an exact four-hour UTC boundary")
  return nextBoundary instant

/-- `PaperBroker.order`. -/
def orderById (db : Database) (id : PaperId) : Except Failure PaperOrder := do
  requireText id "order id"
  let ledger ← buildLedger db
  require (findPaperOrder ledger.orders id) (.value "unknown order id")

/-- `_assert_same_order`. -/
def assertSameOrder (order : PaperOrder) (key : OrderKey) (side : Side) (reason : String)
    (signalAt : ℤ) (quantity : ℚ) (parent : Option PaperId) : Except Failure Unit :=
  reject (¬(order.idempotencyKey = key ∧ order.side = side ∧ order.reason = reason ∧
      order.signalAtUtc = signalAt ∧ order.requestedQuantity = quantity ∧
      order.parentOrderId = parent))
    (.idempotency "deterministic order identity has conflicting payload")

/-- The keyword arguments of `_submit_order_in_transaction`. -/
structure Submission where
  key : OrderKey
  occurredAt : ℤ
  quantity : ℚ
  parent : Option PaperId
  orderKind : OrderKind
  eligibleOpen : ℤ
  feeRate : ℚ
  slippageRate : ℚ
  deriving DecidableEq, Repr

/-- The metadata that a submission appends. -/
def Submission.metadata (s : Submission) : OrderMetadata where
  idempotencyKey := .order s.key
  eligibleOpenUtc := s.eligibleOpen
  feeRate := s.feeRate
  orderId := s.key.orderId
  orderKind := s.orderKind
  parentOrderId := s.parent
  reason := s.key.reason
  requestedQuantity := s.quantity
  side := s.key.side
  signalAtUtc := s.key.signalAt
  slippageRate := s.slippageRate

/-- `_submit_order_in_transaction`. -/
def submitOrder (db : Database) (s : Submission) : Except Failure (PaperOrder × Database) := do
  let id := s.key.orderId
  let (isNew, db) ← recordOrderOnce db (.order s.key) s.key.side s.quantity id s.occurredAt .created
  if isNew = false then
    let ledger ← buildLedger db
    let existing ← require (findPaperOrder ledger.orders id)
      (.reconciliation "order retry lacks broker metadata")
    return (existing, db)
  let (_, db) ← transitionOrderStatus db id (.status s.key .submitted) .submitted s.occurredAt none
  let (_, db) ← transitionOrderStatus db id (.status s.key .accepted) .accepted s.occurredAt none
  let db ← appendEvent db (.orderMeta id) s.occurredAt (.paperOrder s.metadata)
  return (paperOrder s.metadata s.key 0 .accepted none, db)

/-- `bind_entry_context`. -/
def bindEntryContext (db : Database) (id : PaperId) (context : EntryContext) :
    Except Failure (PaperOrder × Database) := do
  let normalized ← entryContext context
  let order ← orderById db id
  match order.executionContext with
  | some existing => do
    reject (existing ≠ normalized) (.idempotency "entry execution context conflicts")
    return (order, db)
  | none => do
    reject (order.side ≠ .buy ∨ order.status ≠ .accepted)
      (.value "entry context requires an unfilled accepted BUY")
    let snapshot ← replayState db
    let last ← require snapshot.eventEvidence.getLast? (.value "tuple index out of range")
    let db ← appendEvent db (.entryContext id) (max order.signalAtUtc last.occurredAtUtc)
      (.paperEntryContext ⟨id, normalized, 1⟩)
    let order ← orderById db id
    return (order, db)

/-- Bind the context of an entry, if there is one. -/
def bindOptional (db : Database) (order : PaperOrder) (context : Option EntryContext) :
    Except Failure (PaperOrder × Database) :=
  match context with
  | some context => bindEntryContext db order.orderId context
  | none => return (order, db)

/-- `submit_entry`. -/
def submitEntry (costs : CostConfig) (db : Database) (signalAt : ℤ) (quantity : ℚ)
    (reason : String) (context : Option EntryContext) : Except Failure (PaperOrder × Database) := do
  requirePositive quantity "quantity"
  requireReason reason
  let key := orderIdentity signalAt .buy reason none
  let ledger ← buildLedger db
  match findPaperOrder ledger.orders key.orderId with
  | some existing => do
    assertSameOrder existing key .buy reason signalAt quantity none
    bindOptional db existing context
  | none => do
    reject (0 < ledger.snapshot.btcQuantity ∨ ledger.snapshot.pendingOrders ≠ [])
      (.value "entry requires a flat account with no active order")
    let eligibleOpen ← requireNextBoundary signalAt
    let (order, db) ← submitOrder db ⟨key, signalAt, quantity, none, .market, eligibleOpen,
      costs.feeRate, costs.slippageRate⟩
    bindOptional db order context

/-- `submit_exit`. -/
def submitExit (costs : CostConfig) (db : Database) (signalAt : ℤ) (quantity ownedQuantity : ℚ)
    (reason : String) (parent : Option PaperId) : Except Failure (PaperOrder × Database) := do
  requirePositive quantity "quantity"
  reject (ownedQuantity < 0) (.value "owned quantity must be finite and non-negative")
  requireReason reason
  let key := orderIdentity signalAt .sell reason parent
  let ledger ← buildLedger db
  match findPaperOrder ledger.orders key.orderId with
  | some existing => do
    assertSameOrder existing key .sell reason signalAt quantity parent
    return (existing, db)
  | none => do
    reject (parent ≠ none) (.value "remainder child orders are broker-managed")
    reject (ownedQuantity ≠ ledger.snapshot.btcQuantity)
      (.value "owned quantity does not match paper ledger")
    reject (ownedQuantity < quantity) (.value "sell quantity exceeds position")
    reject (ledger.snapshot.pendingOrders ≠ [])
      (.value "an active exit already holds reserved position")
    let eligibleOpen ← requireNextBoundary signalAt
    submitOrder db ⟨key, signalAt, quantity, parent, .market, eligibleOpen, costs.feeRate,
      costs.slippageRate⟩

/-! ## Execution -/

/-- `order.side == "BUY" and order.execution_context is not None`. -/
def PaperOrder.bound (order : PaperOrder) : Option EntryContext :=
  match order.side with
  | .buy => order.executionContext
  | .sell => none

/-- The part of `_process_order_in_transaction` that caps a bound entry: the database, the
quantity to fill and whether it was capped. -/
def capExecution (db : Database) (order : PaperOrder) (candle : ℤ) (reference fillPrice cash : ℚ)
    (quantity : ℚ) : Except Failure (Database × ℚ × Bool) :=
  match order.bound with
  | none => return (db, quantity, false)
  | some context => do
    let db ← appendEvent db (.execution order.orderId) candle
      (.paperExecution ⟨1, order.orderId, reference, quantity⟩)
    let cap := executionQuantity context order.feeRate fillPrice cash
    return (db, min quantity cap, decide (cap < quantity))

/-- The `PaperFill` of an order at a reference price. -/
def fillAt (order : PaperOrder) (candle : ℤ) (reference quantity : ℚ) : PaperFill :=
  let fillPrice := computedFillPrice reference order.slippageRate order.side
  { fillId := .fill order.orderId candle quantity
    orderId := order.orderId
    side := order.side
    reason := order.reason
    quantity
    referencePrice := reference
    fillPrice
    fee := computedFee quantity fillPrice order.feeRate
    slippage := computedSlippage quantity fillPrice reference
    fillTime := candle }

/-- The raw fill that goes with a paper fill. -/
def PaperFill.raw (fill : PaperFill) : RawFill :=
  ⟨fill.orderId, fill.side, fill.quantity, fill.fillPrice, fill.fee⟩

/-- The metadata that goes with a paper fill. -/
def PaperFill.metadata (fill : PaperFill) (order : PaperOrder) : FillMetadata where
  fee := fill.fee
  feeRate := order.feeRate
  fillId := fill.fillId
  fillPrice := fill.fillPrice
  orderId := fill.orderId
  quantity := fill.quantity
  reason := fill.reason
  referencePrice := fill.referencePrice
  side := fill.side
  slippage := fill.slippage
  slippageRate := order.slippageRate

/-- The part of `_process_order_in_transaction` that records a fill, its transition and its
metadata. It returns whether the fill is new. -/
def recordFill (db : Database) (order : PaperOrder) (candle : ℤ) (fill : PaperFill) :
    Except Failure (Bool × Database) := do
  let (isNew, db) ← appendFill db fill.raw candle fill.fillId
  if isNew = false then return (false, db)
  let complete : Bool := fill.quantity = order.remainderQuantity
  let step := if complete then StatusStep.completed candle else .partial_ candle
  let status := if complete then OrderStatus.completed else .partial_
  let (_, db) ← transitionOrderStatus db order.orderId (.status order.idempotencyKey step) status
    candle (some order.reason)
  let db ← appendEvent db (.fillMeta fill.fillId) candle (.paperFill (fill.metadata order))
  return (true, db)

/-- The child order that carries the remainder of a partial exit. -/
def remainderChild (order : PaperOrder) (candle : ℤ) (remaining : ℚ) : Submission where
  key := orderIdentity candle .sell order.reason (some order.orderId)
  occurredAt := candle
  quantity := remaining
  parent := some order.orderId
  orderKind := .market
  eligibleOpen := nextBoundary candle
  feeRate := order.feeRate
  slippageRate := order.slippageRate

/-- The part of `_process_order_in_transaction` that ends a partial fill. -/
def cancelRemainder (db : Database) (order : PaperOrder) (candle : ℤ) (quantity : ℚ)
    (capped : Bool) : Except Failure Database := do
  let reason := if capped then "EXECUTION_CAP" else "PARTIAL_REMAINDER"
  let (_, db) ← transitionOrderStatus db order.orderId
    (.status order.idempotencyKey (.cancelRemainder candle)) .canceled candle (some reason)
  if order.side = .buy then return db
  reject (order.parentOrderId.any PaperId.isOrder = true)
    (.reconciliation "remainder child cannot create another remainder child")
  let remaining := order.remainderQuantity - quantity
  reject (remaining ≤ 0) (.reconciliation "partial sell left no remainder")
  let _ ← requireNextBoundary candle
  let (_, db) ← submitOrder db (remainderChild order candle remaining)
  return db

/-- `_deactivate_stop_in_transaction`. -/
def deactivateStop (db : Database) (stop : PaperStop) (occurredAt : ℤ) (action : StopAction)
    (identity : PaperId) : Except Failure Database :=
  appendEvent db (.stopTerminal action stop.stopId identity) occurredAt
    (.paperStopTerminal ⟨action, identity, stop.stopId⟩)

/-- The last part of `_process_order_in_transaction`: an exit that leaves the account flat
cancels the protective stops. -/
def cancelProtection (db : Database) (order : PaperOrder) (candle : ℤ)
    (protectiveStops : List PaperStop) : Except Failure Database := do
  if order.side = .sell ∧ order.orderKind = .market then
    let snapshot ← replayState db
    if snapshot.btcQuantity = 0 then
      protectiveStops.foldlM (fun db stop => deactivateStop db stop candle .canceled order.orderId)
        db
    else return db
  else return db

/-- `_process_order_in_transaction`. -/
def processOrder (db : Database) (order : PaperOrder) (candle : ℤ) (reference : ℚ)
    (actualQuantity : Option ℚ) (protectiveStops : List PaperStop) :
    Except Failure (Option PaperFill × Database) := do
  let remainder := order.remainderQuantity
  let quantity := actualQuantity.getD remainder
  reject (remainder < quantity) (.value "actual quantity exceeds order remainder")
  let fillPrice := computedFillPrice reference order.slippageRate order.side
  reject (fillPrice ≤ 0) (.value "slippage produces a non-positive fill price")
  let current ← replayState db
  let (db, quantity, capped) ← capExecution db order candle reference fillPrice current.cash quantity
  if order.bound.isSome ∧ quantity ≤ 0 then
    let (_, db) ← transitionOrderStatus db order.orderId
      (.status order.idempotencyKey (.executionCap candle)) .rejected candle (some "EXECUTION_CAP")
    return (none, db)
  let fill := fillAt order candle reference quantity
  if order.side = .buy ∧ current.cash < quantity * fillPrice + fill.fee then
    let (_, db) ← transitionOrderStatus db order.orderId
      (.status order.idempotencyKey (.insufficient candle)) .insufficientCash candle
      (some "INSUFFICIENT_CASH")
    return (none, db)
  reject (order.side = .sell ∧ current.btcQuantity < quantity)
    (.value "sell fill exceeds owned BTC")
  let (isNew, db) ← recordFill db order candle fill
  if isNew = false then return (none, db)
  let db ←
    if quantity = remainder then pure db else cancelRemainder db order candle quantity capped
  let db ← cancelProtection db order candle protectiveStops
  return (some fill, db)

/-- `process_open`. -/
def processOpen (db : Database) (id : PaperId) (candle : ℤ) (openPrice : ℚ)
    (actualQuantity : Option ℚ) : Except Failure (Option PaperFill × Database) := do
  requireText id "order id"
  requirePositive openPrice "open price"
  reject (∃ quantity ∈ actualQuantity, quantity ≤ 0)
    (.value "actual quantity must be finite and positive")
  let ledger ← buildLedger db
  let order ← require (findPaperOrder ledger.orders id) (.value "unknown order id")
  if order.status.isActive = false then return (none, db)
  reject (candle ≤ order.signalAtUtc)
    (.value "market fill candle must be strictly later than signal")
  reject (order.orderKind ≠ .market) (.value "process_open requires a market order")
  reject (candle ≠ order.eligibleOpenUtc)
    (.value "market order is eligible only at the immediately following open")
  reject (order.parentOrderId.any PaperId.isOrder = true ∧
      ∃ quantity ∈ actualQuantity, quantity ≠ order.remainderQuantity)
    (.value "remainder child must fill completely")
  processOrder db order candle openPrice actualQuantity ledger.openStops

/-! ## Stops and positions -/

/-- The price at which a stop triggers in a candle, if it does. -/
def triggerReference (stop : PaperStop) (openPrice lowPrice : ℚ) : Option ℚ :=
  if openPrice ≤ stop.stopPrice then some openPrice
  else if lowPrice ≤ stop.stopPrice then some stop.stopPrice
  else none

/-- The order that a stop submits when it triggers. -/
def stopSubmission (stop : PaperStop) (candle : ℤ) (quantity : ℚ) : Submission where
  key := orderIdentity stop.observedAtUtc .sell stop.reason (some stop.stopId)
  occurredAt := candle
  quantity
  parent := some stop.stopId
  orderKind := .stop
  eligibleOpen := candle
  feeRate := stop.feeRate
  slippageRate := stop.slippageRate

/-- The end of every open stop when one of them triggers. -/
def endStops (db : Database) (openStops : List PaperStop) (candle : ℤ) (triggered identity : PaperId) :
    Except Failure Database :=
  openStops.foldlM (fun db stop => deactivateStop db stop candle
    (if stop.stopId = triggered then .triggered else .canceled) identity) db

/-- `process_intrabar_stop`. -/
def processIntrabarStop (db : Database) (candle : ℤ) (openPrice lowPrice : ℚ) :
    Except Failure (Option PaperFill × Database) := do
  reject (¬IsBoundary candle) (.value "stop candle must be an exact four-hour UTC boundary")
  requirePositive openPrice "open price"
  requirePositive lowPrice "low price"
  reject (openPrice < lowPrice) (.value "low price cannot exceed open price")
  let ledger ← buildLedger db
  match (ledger.openStops.filter (·.activeAfterUtc ≤ candle)).getLast? with
  | none => return (none, db)
  | some stop =>
    match triggerReference stop openPrice lowPrice with
    | none => return (none, db)
    | some reference => do
      reject (ledger.snapshot.btcQuantity ≤ 0) (.reconciliation "active stop has no owned BTC")
      reject (ledger.snapshot.pendingOrders ≠ [])
        (.reconciliation "stop trigger conflicts with an active order")
      let submission := stopSubmission stop candle ledger.snapshot.btcQuantity
      let (order, db) ← submitOrder db submission
      let (fill, db) ← processOrder db order candle reference none []
      let db ← endStops db ledger.openStops candle stop.stopId submission.key.orderId
      return (fill, db)

/-- `_open_entry_identity`. -/
def openEntryIdentity (ledger : Ledger) : Except Failure PaperId := do
  let (position, source) ← (ledger.fills.map PaperFill.raw).foldlM sourceStep (0, none)
  reject (position ≤ 0) (.value "stop requires a filled paper entry")
  require source (.value "stop requires a filled paper entry")

/-- The payload that `set_stop` appends. -/
def PaperStop.payload (stop : PaperStop) : StopSet :=
  ⟨stop.activeAfterUtc, stop.feeRate, stop.reason, stop.sourceId, stop.stopId, stop.stopPrice,
    stop.slippageRate⟩

/-- `_stop_from_event` on an event of any type. -/
def persistedStop (e : StoredEvent) : Except Failure PaperStop :=
  match stamp readStopSet e with
  | some event => stopFromEvent event
  | none => .error (.reconciliation "paper stop metadata fields are invalid")

/-- Whether a persisted stop is the one that a retry asks for. -/
def PaperStop.sameAs (persisted candidate : PaperStop) : Bool :=
  persisted.stopId = candidate.stopId ∧ persisted.stopPrice = candidate.stopPrice ∧
    persisted.reason = candidate.reason ∧ persisted.observedAtUtc = candidate.observedAtUtc ∧
    persisted.activeAfterUtc = candidate.activeAfterUtc ∧ persisted.sourceId = candidate.sourceId

/-- The entry fills of an order. -/
def entryFills (ledger : Ledger) (id : PaperId) : List PaperFill :=
  ledger.fills.filter fun fill => fill.orderId = id ∧ fill.side = .buy

/-- The checks of `set_stop` on a stop that protects the bar of its own entry. -/
def requireBoundaryStop (ledger : Ledger) (stop : PaperStop) : Except Failure Unit :=
  reject (stop.activeAfterUtc = stop.observedAtUtc ∧
      ¬(stop.reason = "HARD_STOP" ∧ ledger.activeStop = none ∧
        ∃ fill ∈ onlyFill (entryFills ledger stop.sourceId), fill.fillTime = stop.observedAtUtc))
    (.value "fill-boundary stop requires the current entry fill and initial hard stop")

/-- `set_stop`. -/
def setStop (costs : CostConfig) (db : Database) (observedAt : ℤ) (stopPrice : ℚ)
    (activeAfter : Option ℤ) (reason : String) (sourceId : Option PaperId) :
    Except Failure (PaperStop × Database) := do
  reject (¬IsBoundary observedAt) (.value "stop observation must be an exact four-hour UTC boundary")
  let activeTime := activeAfter.getD (nextBoundary observedAt)
  reject (activeTime ≠ observedAt ∧ activeTime ≠ nextBoundary observedAt)
    (.value "stop active time must be the fill boundary or next four-hour boundary")
  requirePositive stopPrice "stop price"
  requireReason reason
  reject (sourceId = some (.external "")) (.value "stop source id must be non-empty")
  let ledger ← buildLedger db
  let openEntry ← openEntryIdentity ledger
  let source := sourceId.getD openEntry
  reject (source ≠ openEntry) (.value "stop source must be the currently open paper entry")
  let candidate : PaperStop := ⟨.stop source observedAt reason, stopPrice, reason, observedAt,
    activeTime, source, costs.feeRate, costs.slippageRate⟩
  requireBoundaryStop ledger candidate
  match findEvent ledger.snapshot.eventEvidence (.stopSet candidate.stopId) with
  | some event => do
    let persisted ← persistedStop event
    reject (persisted.sameAs candidate = false)
      (.idempotency "stop identity has conflicting evidence")
    return (persisted, db)
  | none => do
    reject (ledger.snapshot.btcQuantity ≤ 0) (.value "stop requires owned BTC")
    reject (∃ active ∈ ledger.activeStop, stopPrice < active.stopPrice)
      (.value "protective stop cannot loosen")
    match ledger.activeStop.filter (·.stopPrice = stopPrice) with
    | some active => return (active, db)
    | none => do
      let db ← appendEvent db (.stopSet candidate.stopId) observedAt (.paperStopSet candidate.payload)
      return (candidate, db)

/-- `PaperBroker.initial_stop`. -/
def initialStop (ledger : Ledger) (id : PaperId) : Option ℚ :=
  ((view readStopSet ledger.snapshot.eventEvidence).find? fun stop =>
    stop.body.sourceId = id ∧ stop.body.reason = "HARD_STOP").map (·.body.stopPrice)

/-- `observe_position`. -/
def observePosition (db : Database) (id : PaperId) (candleHighs : List (ℤ × ℚ))
    (initialStop : ℚ) : Except Failure Database := do
  let ledger ← buildLedger db
  let prior := latestObservation ledger.positionObservations id
  let fill ← require (ledger.fills.find? (·.orderId = id)) (.value "StopIteration")
  let last ← require candleHighs.getLast? (.value "list index out of range")
  let highest := (candleHighs.map Prod.snd).foldl max last.2
  let highWater := (prior.map fun before => max highest before.body.highWater).getD highest
  let db ← appendEvent db (.position id last.1) last.1 (.paperPosition
    ⟨1, id, fill.fillId, prior.map (·.eventId), initialStop, highWater, candleHighs⟩)
  let _ ← buildLedger db
  return db

end AutoBit.Broker
