import AutoBit.Broker.Evidence

/-!
# The verifier of the paper account

`buildLedger` rebuilds every view of the account from the immutable evidence, and raises
unless the whole log is consistent: order lifecycles, sizing evidence, executions,
ancestry of remainders and stops, balances, projections and position history.
-/

namespace AutoBit.Broker

open Library Store Strategy

/-- `_Ledger`. -/
structure Ledger where
  snapshot : PaperSnapshot
  orders : List PaperOrder
  activeOrders : List PaperOrder
  fills : List PaperFill
  trades : List PaperTrade
  activeStop : Option PaperStop
  openStops : List PaperStop
  totalFees : ℚ
  totalSlippage : ℚ
  positionObservations : List (Stamped PositionObservation)
  deriving DecidableEq, Repr

/-- The event types whose payloads the broker reads. -/
def evidenceTypes : List String :=
  ["ORDER_CREATED", "ORDER_STATUS", "FILL", "PAPER_ORDER", "PAPER_FILL", "PAPER_ENTRY_CONTEXT",
    "PAPER_EXECUTION", "PAPER_STOP", "PAPER_POSITION"]

/-- Whether an event has the type of broker evidence without its fields. -/
def malformed (e : StoredEvent) : Bool :=
  match e.payload with
  | .other eventType _ => eventType ∈ evidenceTypes
  | _ => false

/-- The first loop of `_build_ledger`, apart from the stops: no evidence is repeated. -/
def scanEvidence (log : List StoredEvent) : Except Failure Unit := do
  reject (∃ e ∈ log, malformed e = true) (.reconciliation "paper evidence fields are invalid")
  reject (¬((view readCreated log).map (·.body.orderId)).Nodup)
    (.reconciliation "duplicate order creation evidence")
  reject (∃ t ∈ view readTransition log, ¬∃ c ∈ view readCreated log,
      c.body.orderId = t.body.orderId ∧ c.sequence < t.sequence)
    (.reconciliation "order status lacks creation evidence")
  reject (¬((view readFill log).map (·.eventId)).Nodup)
    (.reconciliation "duplicate fill evidence")
  reject (¬((view readOrderMetadata log).map (·.body.orderId)).Nodup)
    (.reconciliation "duplicate paper order metadata")
  reject (¬((view readFillMetadata log).map (·.body.fillId)).Nodup)
    (.reconciliation "duplicate paper fill metadata")
  reject (¬((view readContext log).map (·.body.orderId)).Nodup)
    (.reconciliation "duplicate entry context")
  reject (¬((view readExecution log).map (·.body.orderId)).Nodup)
    (.reconciliation "duplicate paper execution evidence")

/-- The order that one metadata event stands for. -/
def orderFromMetadata (log : List StoredEvent) (metadata : Stamped OrderMetadata) :
    Except Failure PaperOrder := do
  let id := metadata.body.orderId
  let creation ← require (creationOf log id)
    (.reconciliation "paper order metadata lacks creation evidence")
  let context ← (contextOf log id).mapM (entryContext ·.body.context)
  paperOrderFromEvidence metadata creation (transitionsOf log id) (fillsOf log id)
    (fillMetadataOf log) context

/-- The orders of a log, in the order of their metadata. -/
def ordersFromEvidence (log : List StoredEvent) : Except Failure (List PaperOrder) :=
  (view readOrderMetadata log).mapM (orderFromMetadata log)

/-- Cash and BTC after one fill. -/
def applyFill (account : ℚ × ℚ) (fill : RawFill) : ℚ × ℚ :=
  match fill.side with
  | .buy => (account.1 - (fill.quantity * fill.price + fill.fee), account.2 + fill.quantity)
  | .sell => (account.1 + (fill.quantity * fill.price - fill.fee), account.2 - fill.quantity)

/-- Cash and BTC after the fills of a log. -/
def balance (log : List StoredEvent) : ℚ × ℚ :=
  ((view readFill log).map (·.body)).foldl applyFill (100, 0)

/-- Whether an event is the risk decision that an entry signal was sized by. -/
def isSignalRisk (signalAt : ℤ) (context : EntryContext) (risk : StoredEvent) : Bool :=
  match risk.payload with
  | .breakerState p =>
    p.lastRiskAt = some signalAt ∧ p.decisionRiskRate = some context.riskRate ∧
      p.decisionExposureCap = some context.exposureCap
  | _ => false

/-- `_validate_entry_context_binding`. -/
def validateEntryContextBinding (log : List StoredEvent) (event : Stamped ContextBinding)
    (order : PaperOrder) (metadata : Stamped OrderMetadata) (context : EntryContext) :
    Except Failure Unit := do
  reject (event.body.version ≠ 1 ∨ event.eventId ≠ .entryContext order.orderId ∨
      ¬(order.signalAtUtc ≤ event.occurredAtUtc ∧ event.occurredAtUtc ≤ order.eligibleOpenUtc) ∨
      order.side ≠ .buy ∨ event.sequence ≤ metadata.sequence)
    (.reconciliation "entry context order ancestry is invalid")
  let previous ← require (log.find? (·.sequence = event.sequence - 1))
    (.reconciliation "StopIteration")
  reject (event.occurredAtUtc ≠ max order.signalAtUtc previous.occurredAtUtc)
    (.reconciliation "entry context timestamp is not causal")
  reject (¬∃ risk ∈ findEvent log context.riskEventId, risk.sequence < metadata.sequence ∧
      isSignalRisk order.signalAtUtc context risk = true)
    (.reconciliation "entry context lacks same-signal risk ancestry")
  let (cash, btc) := balance (beforeSequence metadata.sequence log)
  let close := context.signalPrice
  let size := calculateSize {
    equity := cash
    cash
    entry := close
    stop := initialStopPrice close context.entryAtr context.initialAtrMult
    currentAtrPct := context.entryAtr / close
    baselineAtrPct := some context.baselineAtrPct
    riskRate := context.riskRate
    exposureCap := context.exposureCap
    costs := ⟨order.feeRate, order.slippageRate⟩ }
  reject (btc ≠ 0 ∨ size.quantity + 1 / 10 ^ 12 < order.requestedQuantity)
    (.reconciliation "entry context contradicts signal sizing")

/-- One round of the loop over the entry contexts in `_build_ledger`. -/
def validateContextEvent (log : List StoredEvent) (orders : List PaperOrder)
    (event : Stamped ContextBinding) : Except Failure Unit := do
  let missing := Failure.reconciliation "entry context has no paper order"
  let order ← require (findPaperOrder orders event.body.orderId) missing
  let metadata ← require (orderMetadataOf log event.body.orderId) missing
  let context ← require order.executionContext missing
  validateEntryContextBinding log event order metadata context

/-- The loop over the entry contexts in `_build_ledger`. -/
def validateEntryContexts (log : List StoredEvent) (orders : List PaperOrder) :
    Except Failure Unit :=
  forM (view readContext log) (validateContextEvent log orders)

/-- The reason of the last transition of an order. -/
def terminalReason (log : List StoredEvent) (id : PaperId) : Option String :=
  (transitionsOf log id).getLast?.bind (·.body.reason)

/-- The one fill of a list that must have exactly one. -/
def onlyFill {α : Type} : List α → Option α
  | [fill] => some fill
  | _ => none

/-- The checks of `_validate_executions` on one execution. -/
def validateExecution (log : List StoredEvent) (event : Stamped Execution) (order : PaperOrder)
    (binding : Stamped ContextBinding) (context : EntryContext) : Except Failure Unit := do
  let reference := event.body.referencePrice
  let attempted := event.body.attemptedQuantity
  reject (order.side ≠ .buy ∨ event.body.version ≠ 1 ∨ event.eventId ≠ .execution order.orderId ∨
      event.occurredAtUtc ≠ order.eligibleOpenUtc ∨ event.sequence ≤ binding.sequence)
    (.reconciliation "execution ancestry is invalid")
  reject (reference ≤ 0 ∨ ¬(0 < attempted ∧ attempted ≤ order.requestedQuantity))
    (.reconciliation "execution prices or quantities are invalid")
  let (cash, btc) := balance (beforeSequence event.sequence log)
  reject (btc ≠ 0) (.reconciliation "execution must begin flat")
  let price := computedFillPrice reference order.slippageRate .buy
  let cap := executionQuantity context order.feeRate price cash
  let quantity := min attempted cap
  let fills := fillsOf log order.orderId
  let reason := terminalReason log order.orderId
  reject (¬∃ terminal ∈ (transitionsOf log order.orderId).getLast?,
      event.sequence < terminal.sequence)
    (.reconciliation "execution is not before terminal evidence")
  if quantity ≤ 0 then
    reject (fills ≠ [] ∨ order.status ≠ .rejected ∨ reason ≠ some "EXECUTION_CAP")
      (.reconciliation "zero execution cap lacks exact rejection")
  else do
    let fill ← require (onlyFill fills)
      (.reconciliation "execution contradicts actual-open fill")
    reject (fill.sequence ≤ event.sequence ∨ fill.body.quantity ≠ quantity ∨
      fill.body.price ≠ price) (.reconciliation "execution contradicts actual-open fill")
    reject (quantity < order.requestedQuantity ∧
        reason ≠ some (if cap < attempted then "EXECUTION_CAP" else "PARTIAL_REMAINDER"))
      (.reconciliation "execution cap or partial reason is inconsistent")

/-- One round of the loop over the executions in `_validate_executions`. -/
def validateExecutionEvent (log : List StoredEvent) (orders : List PaperOrder)
    (event : Stamped Execution) : Except Failure Unit := do
  let missing := Failure.reconciliation "execution ancestry is invalid"
  let order ← require (findPaperOrder orders event.body.orderId) missing
  let binding ← require (contextOf log event.body.orderId) missing
  let context ← require order.executionContext missing
  validateExecution log event order binding context

/-- `_validate_executions`. -/
def validateExecutions (log : List StoredEvent) (orders : List PaperOrder) :
    Except Failure Unit := do
  forM (view readExecution log) (validateExecutionEvent log orders)
  reject (∃ order ∈ orders, order.executionContext.isSome = true ∧ order.status ≠ .accepted ∧
      executionOf log order.orderId = none)
    (.reconciliation "bound entry terminal lacks execution evidence")

/-- The fills of paper orders. -/
def paperFillIds (log : List StoredEvent) (orders : List PaperOrder) : List EventId :=
  orders.flatMap fun order => (fillsOf log order.orderId).map (·.eventId)

/-- Fill metadata and the fills of paper orders are the same. -/
def validateFillMetadata (log : List StoredEvent) (orders : List PaperOrder) :
    Except Failure Unit :=
  reject (¬((∀ m ∈ view readFillMetadata log, m.body.fillId ∈ paperFillIds log orders) ∧
      ∀ id ∈ paperFillIds log orders, (fillMetadataOf log id).isSome = true))
    (.reconciliation "paper fill metadata does not match paper order fills")

/-! ## Ancestry -/

/-- One round of the loop of `_inventory_before_sequence`. -/
def inventoryStep (inventory : ℚ) (fill : RawFill) : Except Failure ℚ := do
  let inventory := match fill.side with
    | .buy => inventory + fill.quantity
    | .sell => inventory - fill.quantity
  reject (inventory < 0) (.reconciliation "fill history has negative inventory")
  return inventory

/-- `_inventory_before_sequence`. -/
def inventoryBeforeSequence (sequence : ℕ) (log : List StoredEvent) : Except Failure ℚ :=
  ((view readFill (beforeSequence sequence log)).map (·.body)).foldlM inventoryStep 0

/-- The checks on the child that continues a partial exit. -/
def validateChild (log : List StoredEvent) (orders : List PaperOrder) (order : PaperOrder)
    (parentId : PaperId) : Except Failure Unit := do
  let parent ← require (findPaperOrder orders parentId)
    (.reconciliation "remainder child lacks its paper parent")
  reject (parent.parentOrderId.any PaperId.isOrder = true)
    (.reconciliation "remainder order has recursive ancestry")
  reject (parent.side ≠ .sell ∨ order.side ≠ .sell)
    (.reconciliation "remainder ancestry must be SELL orders")
  reject (parent.status ≠ .canceled ∨ parent.filledQuantity ≤ 0)
    (.reconciliation "remainder parent is not a partial canceled exit")
  reject (order.reason ≠ parent.reason) (.reconciliation "remainder child changes exit reason")
  let fill ← require (onlyFill (fillsOf log parentId))
    (.reconciliation "remainder parent fill is ambiguous")
  reject (order.signalAtUtc ≠ fill.occurredAtUtc)
    (.reconciliation "remainder child time is not parent fill time")
  reject (order.requestedQuantity ≠ parent.remainderQuantity)
    (.reconciliation "remainder child quantity is not exact")
  reject (¬(order.feeRate = parent.feeRate ∧ order.slippageRate = parent.slippageRate))
    (.reconciliation "remainder child changes cost binding")

/-- The checks on an order that a stop triggered. -/
def validateStopOrder (log : List StoredEvent) (known : List (Stamped PaperStop))
    (order : PaperOrder) (parentId : PaperId) : Except Failure Unit := do
  reject (order.orderKind ≠ .stop) (.reconciliation "stop order ancestry is invalid")
  let set ← require (known.find? (·.body.stopId = parentId))
    (.reconciliation "stop order ancestry is invalid")
  let stop := set.body
  reject (¬(order.reason = stop.reason ∧ order.signalAtUtc = stop.observedAtUtc ∧
      stop.activeAfterUtc ≤ order.eligibleOpenUtc ∧ order.feeRate = stop.feeRate ∧
      order.slippageRate = stop.slippageRate))
    (.reconciliation "stop order changes persisted stop binding")
  reject (order.status ≠ .completed) (.reconciliation "stop exit must complete in one fill")
  let fill ← require (onlyFill (fillsOf log order.orderId))
    (.reconciliation "stop exit must complete in one fill")
  let before ← inventoryBeforeSequence fill.sequence log
  reject (order.requestedQuantity ≠ before ∨ fill.body.quantity ≠ before)
    (.reconciliation "stop exit does not cover the exact full inventory")
  reject (¬∃ fillMeta ∈ fillMetadataOf log fill.eventId,
      fillMeta.body.referencePrice ≤ stop.stopPrice)
    (.reconciliation "stop exit reference is inconsistent with the stop price")

/-- The loop over the parents of orders. -/
def validateAncestry (log : List StoredEvent) (orders : List PaperOrder)
    (known : List (Stamped PaperStop)) (order : PaperOrder) : Except Failure Unit :=
  match order.parentOrderId with
  | none => .ok ()
  | some parentId =>
    if parentId.isOrder then validateChild log orders order parentId
    else if parentId.isStop then validateStopOrder log known order parentId
    else .error (.reconciliation "paper order has unknown parent identity")

/-- The remainder children of an order. -/
def childrenOf (orders : List PaperOrder) (id : PaperId) : List PaperOrder :=
  orders.filter fun order => order.parentOrderId = some id ∧ id.isOrder

/-- Every partial exit has exactly one remainder child. -/
def validateChildren (orders : List PaperOrder) : Except Failure Unit := do
  reject (∃ order ∈ orders, 1 < (childrenOf orders order.orderId).length)
    (.reconciliation "partial exit has duplicate remainder children")
  reject (∃ order ∈ orders, order.side = .sell ∧ order.status = .canceled ∧
      0 < order.filledQuantity ∧ 0 < order.remainderQuantity ∧
      childrenOf orders order.orderId = [])
    (.reconciliation "partial exit lacks its exact remainder child")

/-! ## Balances and projections -/

/-- The accumulators of the loop over fills in `_build_ledger`. -/
structure FillScan where
  account : ℚ × ℚ := (100, 0)
  totalFees : ℚ := 0
  totalSlippage : ℚ := 0
  fills : List PaperFill := []
  deriving DecidableEq, Repr

/-- The checks of the loop over fills on a fill of a bound entry. -/
def validateBoundFill (log : List StoredEvent) (raw : Stamped RawFill) (order : PaperOrder)
    (context : EntryContext) (account : ℚ × ℚ) : Except Failure Unit := do
  reject (¬(∃ binding ∈ contextOf log order.orderId, binding.sequence < raw.sequence) ∨
      account.2 ≠ 0) (.reconciliation "entry context is not before a flat BUY fill")
  let cap := executionQuantity context order.feeRate raw.body.price account.1
  reject (min order.requestedQuantity cap < raw.body.quantity)
    (.reconciliation "paper fill exceeds actual-open execution cap")
  reject (terminalReason log order.orderId = some "EXECUTION_CAP" ∧
      ¬(cap < order.requestedQuantity ∧ raw.body.quantity = cap))
    (.reconciliation "execution-cap cancellation contradicts fill")

/-- The checks of the loop over fills on the fill of any order. -/
def validateEntryFill (log : List StoredEvent) (raw : Stamped RawFill) (account : ℚ × ℚ)
    (order : Option PaperOrder) : Except Failure Unit :=
  match order with
  | none => .ok ()
  | some order =>
    match order.executionContext with
    | none => .ok ()
    | some context => validateBoundFill log raw order context account

/-- The paper fill of a raw fill, when it belongs to a paper order. -/
def paperFillOf (log : List StoredEvent) (raw : Stamped RawFill) :
    Option PaperOrder → Except Failure (Option PaperFill)
  | none => .ok none
  | some order => do
    let metadata ← require (fillMetadataOf log raw.eventId)
      (.reconciliation "paper fill lacks metadata")
    let fill ← paperFillFromEvidence raw metadata order
    return some fill

/-- One round of the loop over fills in `_build_ledger`. -/
def scanFill (log : List StoredEvent) (orders : List PaperOrder) (scan : FillScan)
    (raw : Stamped RawFill) : Except Failure FillScan := do
  let order := findPaperOrder orders raw.body.orderId
  validateEntryFill log raw scan.account order
  let account := applyFill scan.account raw.body
  reject (account.1 < 0 ∨ account.2 < 0) (.reconciliation "paper ledger has negative balance")
  let fill ← paperFillOf log raw order
  return {
    account
    totalFees := scan.totalFees + (fill.map (·.fee)).getD 0
    totalSlippage := scan.totalSlippage + (fill.map (·.slippage)).getD 0
    fills := scan.fills ++ fill.toList }

/-- The active orders of the ledger. -/
def activeOrders (orders : List PaperOrder) : List PaperOrder :=
  orders.filter (·.status.isActive)

/-- The checks of `_build_ledger` on the balances and on the projection of active orders.
With at most one active order, their sorting is the identity. -/
def validateProjection (snapshot : PaperSnapshot) (orders : List PaperOrder)
    (account : ℚ × ℚ) (activeStop : Option PaperStop) : Except Failure Unit := do
  let active := activeOrders orders
  let projected := snapshot.pendingOrders.filter fun order =>
    (findPaperOrder orders order.orderId).isSome
  reject (account.1 ≠ snapshot.cash)
    (.reconciliation "cash does not reconcile to immutable fills")
  reject (account.2 ≠ snapshot.btcQuantity)
    (.reconciliation "BTC does not reconcile to immutable fills")
  reject (¬((∀ p ∈ projected, ∃ o ∈ active, o.orderId = p.orderId) ∧
      ∀ o ∈ active, ∃ p ∈ projected, p.orderId = o.orderId ∧ p.idempotencyKey = .order o.idempotencyKey ∧
        p.side = o.side ∧ p.status = o.status ∧ p.requestedQuantity = o.requestedQuantity ∧
        p.filledQuantity = o.filledQuantity))
    (.reconciliation "active paper order projection contradicts broker evidence")
  reject (1 < active.length) (.reconciliation "more than one active paper order")
  let reserved := ((active.filter (·.side = .sell)).map (·.remainderQuantity)).sum
  reject (account.2 < reserved) (.reconciliation "active exits reserve more BTC than owned")
  reject ((∃ o ∈ active, o.side = .buy) ∧ 0 < account.2)
    (.reconciliation "active entry would pyramid an existing position")
  reject (activeStop.isSome = true ∧ account.2 ≤ 0)
    (.reconciliation "active stop has no owned BTC")

/-- The accumulators of `_completed_trades`. -/
structure TradeScan where
  entries : List PaperFill := []
  exits : List PaperFill := []
  position : ℚ := 0
  trades : List PaperTrade := []
  deriving DecidableEq, Repr

/-- The value of some fills. -/
def fillValue (fills : List PaperFill) : ℚ := (fills.map fun f => f.quantity * f.fillPrice).sum

/-- The trade that a round trip amounts to. -/
def closedTrade (entries exits : List PaperFill) : Except Failure PaperTrade := do
  let first ← require entries.head? (.reconciliation "list index out of range")
  let last ← require exits.getLast? (.reconciliation "list index out of range")
  let entryQuantity := (entries.map (·.quantity)).sum
  let exitQuantity := (exits.map (·.quantity)).sum
  reject (entryQuantity ≠ exitQuantity)
    (.reconciliation "round-trip fill quantities do not reconcile")
  let fees := ((entries ++ exits).map (·.fee)).sum
  let gross := fillValue exits - fillValue entries
  return ⟨first.fillTime, last.fillTime, entryQuantity, fillValue entries / entryQuantity,
    fillValue exits / exitQuantity, gross, gross - fees, fees, last.reason⟩

/-- One round of the loop of `_completed_trades`. -/
def scanTrade (scan : TradeScan) (fill : PaperFill) : Except Failure TradeScan :=
  match fill.side with
  | .buy => do
    reject (0 < scan.position) (.reconciliation "paper fills contain pyramiding")
    return { scan with
      entries := scan.entries ++ [fill]
      position := scan.position + fill.quantity }
  | .sell => do
    reject (scan.position ≤ 0 ∨ scan.position < fill.quantity)
      (.reconciliation "paper fills contain an unmatched sell")
    let exits := scan.exits ++ [fill]
    if scan.position - fill.quantity ≠ 0 then
      return { scan with exits, position := scan.position - fill.quantity }
    let trade ← closedTrade scan.entries exits
    return { trades := scan.trades ++ [trade] }

/-- `_completed_trades`. -/
def completedTrades (fills : List PaperFill) : Except Failure (List PaperTrade) := do
  let scan ← fills.foldlM scanTrade {}
  return scan.trades

/-- The position state check of `_build_ledger`. -/
def validatePositionState (log : List StoredEvent) (snapshot : PaperSnapshot)
    (orders : List PaperOrder) (btc : ℚ) : Except Failure Unit :=
  let derived : PositionState := match activeOrders orders with
    | order :: _ => match order.side with
      | .buy => .entryPending
      | .sell => .exitPending
    | [] => if 0 < btc then .long else .flat
  let genericEvidence : Prop :=
    (∃ c ∈ view readCreated log, findPaperOrder orders c.body.orderId = none) ∨
      ∃ f ∈ view readFill log, findPaperOrder orders f.body.orderId = none
  reject (¬genericEvidence ∧ snapshot.positionState ≠ .halted ∧ snapshot.positionState ≠ derived)
    (.reconciliation "position state contradicts paper evidence")

/-! ## Stops -/

/-- One round of the loops of `_open_entry_identity` and `_paper_source_at_sequence`. -/
def sourceStep (state : ℚ × Option PaperId) (fill : RawFill) : Except Failure (ℚ × Option PaperId) :=
  match fill.side with
  | .buy => do
    reject (state.1 ≠ 0) (.reconciliation "paper fills contain pyramiding")
    return (fill.quantity, some fill.orderId)
  | .sell => do
    reject (state.1 < fill.quantity) (.reconciliation "paper fills contain an unmatched sell")
    return (state.1 - fill.quantity, if state.1 - fill.quantity = 0 then none else state.2)

/-- `_paper_source_at_sequence`. -/
def paperSourceAtSequence (sequence : ℕ) (log : List StoredEvent) (orders : List PaperOrder) :
    Except Failure (Option PaperId) :=
  Prod.snd <$> (((view readFill (beforeSequence sequence log)).map (·.body)).filter
    fun fill => (findPaperOrder orders fill.orderId).isSome).foldlM sourceStep (0, none)

/-- The checks of `_build_ledger` on a stop that is active from its fill boundary on. -/
def validateBoundaryStop (log : List StoredEvent) (fills : List PaperFill)
    (stop : Stamped PaperStop) : Except Failure Unit := do
  let s := stop.body
  let missing := Failure.reconciliation "fill-boundary stop lacks causal entry fill evidence"
  let fill ← require (onlyFill (fills.filter (·.orderId = s.sourceId))) missing
  let raw ← require (onlyFill (fillsOf log s.sourceId)) missing
  reject (s.reason ≠ "HARD_STOP" ∨ fill.side ≠ .buy ∨ fill.fillTime ≠ s.observedAtUtc ∨
    ¬∃ fillMeta ∈ fillMetadataOf log raw.eventId, fillMeta.sequence < stop.sequence) missing

/-- The checks of `_build_ledger` on the source of one stop. -/
def validateStopSource (log : List StoredEvent) (orders : List PaperOrder)
    (fills : List PaperFill) (stop : Stamped PaperStop) : Except Failure Unit := do
  let s := stop.body
  reject (¬∃ source ∈ findPaperOrder orders s.sourceId, source.side = .buy ∧
      0 < source.filledQuantity) (.reconciliation "paper stop source is not a filled entry")
  let openSource ← paperSourceAtSequence stop.sequence log orders
  reject (openSource ≠ some s.sourceId)
    (.reconciliation "paper stop source was not open when observed")
  if s.activeAfterUtc = s.observedAtUtc then validateBoundaryStop log fills stop else return ()

/-- The stops that could still trigger at a fill, in the order in which they were set. -/
def eligibleVersions (scan : StopScan) (fill : Stamped RawFill) : List PaperId :=
  let ended := (scan.terminals.filter (·.sequence < fill.sequence)).map (·.body.stopId)
  (scan.known.filter fun stop => stop.sequence < fill.sequence ∧ stop.body.stopId ∉ ended ∧
    stop.body.activeAfterUtc ≤ fill.occurredAtUtc).map (·.body.stopId)

/-- The checks of `_build_ledger` on the ancestry of the end of a stop. -/
def validateTerminalAncestry (scan : StopScan) (event : Stamped StopTerminal)
    (related : PaperOrder) (fill : Stamped RawFill) : Except Failure Unit :=
  let stopId := event.body.stopId
  match event.body.action with
  | .triggered => do
    reject (related.parentOrderId ≠ some stopId)
      (.reconciliation "triggered stop exit ancestry is invalid")
    reject ((eligibleVersions scan fill).getLast? ≠ some stopId)
      (.reconciliation "triggered stop is not the latest eligible open version")
  | .canceled =>
    reject (related.parentOrderId = some stopId)
      (.reconciliation "canceled stop is bound to a trigger order")

/-- The checks of `_build_ledger` on the end of one stop. -/
def validateTerminal (log : List StoredEvent) (orders : List PaperOrder) (scan : StopScan)
    (event : Stamped StopTerminal) : Except Failure Unit := do
  let identity := event.body.identity
  let missing := Failure.reconciliation "paper stop terminal lacks its exit order"
  let related ← require (findPaperOrder orders identity) missing
  let metadata ← require (orderMetadataOf log identity) missing
  reject (related.side ≠ .sell) missing
  reject (related.status ≠ .completed)
    (.reconciliation "paper stop terminal exit lifecycle is incomplete")
  let fill ← require (onlyFill (fillsOf log identity))
    (.reconciliation "paper stop terminal exit lifecycle is incomplete")
  reject (¬∃ fillMeta ∈ fillMetadataOf log fill.eventId, metadata.sequence < fill.sequence ∧
      fill.sequence < fillMeta.sequence ∧ fillMeta.sequence < event.sequence)
    (.reconciliation "paper stop terminal sequence is not causal")
  reject (event.occurredAtUtc ≠ fill.occurredAtUtc)
    (.reconciliation "paper stop terminal time is not causal")
  let left ← inventoryBeforeSequence event.sequence log
  reject (left ≠ 0)
    (.reconciliation "paper stop terminal did not leave inventory exactly flat")
  validateTerminalAncestry scan event related fill

/-- Every stop order belongs to a triggered stop, and conversely. -/
def validateTriggers (orders : List PaperOrder) (scan : StopScan) : Except Failure Unit :=
  let triggered : List PaperId := (scan.terminals.filter (·.body.action = .triggered)).map
    (·.body.identity)
  let stopOrders : List PaperId := (orders.filter (·.orderKind = .stop)).map (·.orderId)
  reject (¬(triggered ⊆ stopOrders ∧ stopOrders ⊆ triggered))
    (.reconciliation "stop exit lifecycle lacks exactly one triggered terminal")

/-! ## Positions -/

/-- The latest observation of a position: `observations.get(order_id)`. -/
def latestObservation (observations : List (Stamped PositionObservation)) (id : PaperId) :
    Option (Stamped PositionObservation) :=
  (observations.filter (·.body.orderId = id)).getLast?

/-- The first hard stop of a position before a sequence number: `initial_stops.get`. -/
def initialStopBefore (log : List StoredEvent) (sequence : ℕ) (id : PaperId) : Option ℚ :=
  ((view readStopSet (beforeSequence sequence log)).find? fun stop =>
    stop.body.sourceId = id ∧ stop.body.reason = "HARD_STOP").map (·.body.stopPrice)

/-- Whether the candles of an observation continue each other from a first time on. -/
def contiguousFrom : ℤ → List (ℤ × ℚ) → Bool
  | _, [] => true
  | next, (at_, high) :: rest => at_ = next ∧ 0 < high ∧ contiguousFrom (next + fourHours) rest

/-- The initial stop that an observation must repeat. -/
def expectedInitialStop (log : List StoredEvent) (sequence : ℕ) (order : PaperOrder)
    (fill : PaperFill) : Option ℚ :=
  match order.executionContext with
  | some context => initialStopPrice fill.fillPrice context.entryAtr context.initialAtrMult
  | none => initialStopBefore log sequence order.orderId

/-- One round of the loop of `_validated_position_observations`. -/
def scanPosition (log : List StoredEvent) (orders : List PaperOrder) (fills : List PaperFill)
    (observations : List (Stamped PositionObservation)) (event : Stamped PositionObservation) :
    Except Failure (List (Stamped PositionObservation)) := do
  let p := event.body
  let missing := Failure.reconciliation "position observation ancestry is invalid"
  let fill ← require ((fills.filter (·.side = .buy)).reverse.find? (·.orderId = p.orderId)) missing
  let order ← require (findPaperOrder orders p.orderId) missing
  let source ← paperSourceAtSequence event.sequence log orders
  reject (p.version ≠ 1 ∨ p.fillId ≠ fill.fillId ∨ source ≠ some p.orderId ∨
    event.eventId ≠ .position p.orderId event.occurredAtUtc) missing
  let prior := latestObservation observations p.orderId
  reject (p.previousEventId ≠ prior.map (·.eventId))
    (.reconciliation "position observation chain is invalid")
  reject (expectedInitialStop log event.sequence order fill ≠ some p.initialStop ∨
      p.initialStop ≤ 0 ∨ fill.fillPrice ≤ p.initialStop ∨
      ∃ before ∈ prior, p.initialStop ≠ before.body.initialStop)
    (.reconciliation "position observation changes immutable initial risk")
  reject (p.candleHighs = []) (.reconciliation "position observation has no candle evidence")
  let start := (prior.map (·.occurredAtUtc + fourHours)).getD fill.fillTime
  reject (contiguousFrom start p.candleHighs = false)
    (.reconciliation "position candle history is not contiguous")
  let highWater := p.candleHighs.foldl (fun high item => max high item.2)
    ((prior.map (·.body.highWater)).getD 0)
  reject (start + p.candleHighs.length * fourHours - fourHours ≠ event.occurredAtUtc ∨
      p.highWater ≠ highWater)
    (.reconciliation "position high-water or boundary is inconsistent")
  return observations ++ [event]

/-- `_validated_position_observations`. -/
def validatedPositionObservations (log : List StoredEvent) (orders : List PaperOrder)
    (fills : List PaperFill) : Except Failure (List (Stamped PositionObservation)) :=
  (view readPosition log).foldlM (scanPosition log orders fills) []

/-- `_build_ledger`. The fills already stand in the order of time and sequence. -/
def buildLedger (db : Database) : Except Failure Ledger := do
  let snapshot ← replayState db
  let log := snapshot.eventEvidence
  scanEvidence log
  let stops ← scanStops log
  let orders ← ordersFromEvidence log
  validateEntryContexts log orders
  validateExecutions log orders
  validateFillMetadata log orders
  forM orders (validateAncestry log orders stops.known)
  validateChildren orders
  let scan ← (view readFill log).foldlM (scanFill log orders) {}
  validateProjection snapshot orders scan.account stops.active
  let trades ← completedTrades scan.fills
  validatePositionState log snapshot orders scan.account.2
  forM stops.known (validateStopSource log orders scan.fills)
  forM stops.terminals (validateTerminal log orders stops)
  validateTriggers orders stops
  let positions ← validatedPositionObservations log orders scan.fills
  return {
    snapshot
    orders
    activeOrders := activeOrders orders
    fills := scan.fills
    trades
    activeStop := stops.active
    openStops := stops.open_
    totalFees := scan.totalFees
    totalSlippage := scan.totalSlippage
    positionObservations := positions }

end AutoBit.Broker
