import AutoBit.Store.Operations
import AutoBit.Strategy.Engine

/-!
# The evidence of the paper broker

The broker reads its account off the event log. This module holds the records it builds
(`PaperOrder`, `PaperFill`, `PaperStop`), the views of the log by type of event, and the
reconstruction of one order, one stop and one fill from its own evidence.
-/

namespace AutoBit.Broker

open Library Store Strategy

/-- `PaperOrder`. -/
structure PaperOrder where
  orderId : PaperId
  idempotencyKey : OrderKey
  side : Side
  reason : String
  signalAtUtc : ℤ
  requestedQuantity : ℚ
  filledQuantity : ℚ
  remainderQuantity : ℚ
  status : OrderStatus
  orderKind : OrderKind
  parentOrderId : Option PaperId
  eligibleOpenUtc : ℤ
  feeRate : ℚ
  slippageRate : ℚ
  executionContext : Option EntryContext
  deriving DecidableEq, Repr

/-- `PaperFill`. -/
structure PaperFill where
  fillId : EventId
  orderId : PaperId
  side : Side
  reason : String
  quantity : ℚ
  referencePrice : ℚ
  fillPrice : ℚ
  fee : ℚ
  slippage : ℚ
  fillTime : ℤ
  deriving DecidableEq, Repr

/-- `PaperStop`. -/
structure PaperStop where
  stopId : PaperId
  stopPrice : ℚ
  reason : String
  observedAtUtc : ℤ
  activeAfterUtc : ℤ
  sourceId : PaperId
  feeRate : ℚ
  slippageRate : ℚ
  deriving DecidableEq, Repr

/-- `PaperTrade`. -/
structure PaperTrade where
  entryTime : ℤ
  exitTime : ℤ
  quantity : ℚ
  entryPrice : ℚ
  exitPrice : ℚ
  grossPnl : ℚ
  netPnl : ℚ
  fees : ℚ
  exitReason : String
  deriving DecidableEq, Repr

/-! ## Views of the log -/

/-- The envelope of a stored event around its typed payload. -/
structure Stamped (α : Type) where
  sequence : ℕ
  eventId : EventId
  occurredAtUtc : ℤ
  body : α
  deriving DecidableEq, Repr

/-- A typed payload of an event under the envelope of that event. -/
def stamp {α : Type} (read : Payload → Option α) (e : StoredEvent) : Option (Stamped α) :=
  (read e.payload).map (⟨e.sequence, e.eventId, e.occurredAtUtc, ·⟩)

/-- The events of one type, in order. -/
def view {α : Type} (read : Payload → Option α) (log : List StoredEvent) : List (Stamped α) :=
  log.filterMap (stamp read)

/-- The payload of an order creation. -/
def readCreated : Payload → Option OrderCreated
  | .orderCreated order => some order
  | _ => none

/-- The payload of an order transition. -/
def readTransition : Payload → Option OrderTransition
  | .orderStatus transition => some transition
  | _ => none

/-- The payload of a fill. -/
def readFill : Payload → Option RawFill
  | .fill fill => some fill
  | _ => none

/-- The payload of paper order metadata. -/
def readOrderMetadata : Payload → Option OrderMetadata
  | .paperOrder metadata => some metadata
  | _ => none

/-- The payload of paper fill metadata. -/
def readFillMetadata : Payload → Option FillMetadata
  | .paperFill metadata => some metadata
  | _ => none

/-- The payload of an entry context. -/
def readContext : Payload → Option ContextBinding
  | .paperEntryContext binding => some binding
  | _ => none

/-- The payload of an execution. -/
def readExecution : Payload → Option Execution
  | .paperExecution execution => some execution
  | _ => none

/-- The payload of a stop. -/
def readStopSet : Payload → Option StopSet
  | .paperStopSet stop => some stop
  | _ => none

/-- The payload of the end of a stop. -/
def readStopTerminal : Payload → Option StopTerminal
  | .paperStopTerminal terminal => some terminal
  | _ => none

/-- The payload of a position observation. -/
def readPosition : Payload → Option PositionObservation
  | .paperPosition observation => some observation
  | _ => none

/-- The events before a sequence number, as the loops of the broker break off. -/
def beforeSequence (sequence : ℕ) (log : List StoredEvent) : List StoredEvent :=
  log.takeWhile (·.sequence < sequence)

/-- `created.get(order_id)`. -/
def creationOf (log : List StoredEvent) (id : PaperId) : Option (Stamped OrderCreated) :=
  (view readCreated log).find? (·.body.orderId = id)

/-- `status_events.get(order_id, ())`. -/
def transitionsOf (log : List StoredEvent) (id : PaperId) : List (Stamped OrderTransition) :=
  (view readTransition log).filter (·.body.orderId = id)

/-- `fills_by_order.get(order_id, ())`. -/
def fillsOf (log : List StoredEvent) (id : PaperId) : List (Stamped RawFill) :=
  (view readFill log).filter (·.body.orderId = id)

/-- `order_metadata[order_id]`. -/
def orderMetadataOf (log : List StoredEvent) (id : PaperId) : Option (Stamped OrderMetadata) :=
  (view readOrderMetadata log).find? (·.body.orderId = id)

/-- `fill_metadata.get(fill_id)`. -/
def fillMetadataOf (log : List StoredEvent) (id : EventId) : Option (Stamped FillMetadata) :=
  (view readFillMetadata log).find? (·.body.fillId = id)

/-- `entry_contexts.get(order_id)`. -/
def contextOf (log : List StoredEvent) (id : PaperId) : Option (Stamped ContextBinding) :=
  (view readContext log).find? (·.body.orderId = id)

/-- `executions.get(order_id)`. -/
def executionOf (log : List StoredEvent) (id : PaperId) : Option (Stamped Execution) :=
  (view readExecution log).find? (·.body.orderId = id)

/-- `orders.get(order_id)`. -/
def findPaperOrder (orders : List PaperOrder) (id : PaperId) : Option PaperOrder :=
  orders.find? (·.orderId = id)

/-! ## Costs -/

/-- `_computed_fill_price`. -/
def computedFillPrice (reference slippageRate : ℚ) : Side → ℚ
  | .buy => reference * (1 + slippageRate)
  | .sell => reference * (1 - slippageRate)

/-- `_computed_fee`. -/
def computedFee (quantity fillPrice feeRate : ℚ) : ℚ := quantity * fillPrice * feeRate

/-- `_computed_slippage`. -/
def computedSlippage (quantity fillPrice reference : ℚ) : ℚ :=
  |fillPrice - reference| * quantity

/-- `_require_boundary`, with the error it becomes in evidence. -/
def requireBoundary (instant : ℤ) (label : String) : Except Failure Unit :=
  reject (¬IsBoundary instant) (.reconciliation (label ++ " must be an exact four-hour UTC boundary"))

/-- `_next_boundary` of a boundary. -/
def nextBoundary (instant : ℤ) : ℤ := instant + fourHours

/-- `_execution_quantity`. The loop that steps down to the next smaller float while the
cost exceeds the cash is never entered in exact arithmetic. -/
def executionQuantity (context : EntryContext) (feeRate fillPrice cash : ℚ) : ℚ :=
  (calculateSize {
    equity := cash
    cash
    entry := fillPrice
    stop := initialStopPrice fillPrice context.entryAtr context.initialAtrMult
    currentAtrPct := context.entryAtr / fillPrice
    baselineAtrPct := some context.baselineAtrPct
    riskRate := context.riskRate
    exposureCap := context.exposureCap
    costs := ⟨feeRate, 0⟩ }).quantity

/-! ## One order -/

/-- `_validate_status_identity`. The key of the transition starts with the order key by
construction. -/
def validateStatusIdentity (event : Stamped OrderTransition) (key : OrderKey) (step : StatusStep)
    (reason : Option String) : Except Failure Unit := do
  reject (event.body.idempotencyKey ≠ .status key step)
    (.reconciliation "paper status idempotency key is invalid")
  reject (event.eventId ≠ .orderStatus event.body.idempotencyKey)
    (.reconciliation "paper status event id is invalid")
  reject (event.body.reason ≠ reason) (.reconciliation "paper status reason is invalid")

/-- `_entry_context`: the bounds on the sizing evidence. -/
def entryContext (context : EntryContext) : Except Failure EntryContext := do
  reject (context.signalPrice ≤ 0 ∨ context.entryAtr ≤ 0 ∨ context.initialAtrMult ≤ 0 ∨
      context.baselineAtrPct ≤ 0 ∨ context.riskRate ≤ 0 ∨ context.exposureCap ≤ 0)
    (.reconciliation "entry context values must be positive")
  reject (2 / 100 < context.riskRate ∨ 70 / 100 < context.exposureCap)
    (.reconciliation "entry context exceeds approved risk limits")
  return context

/-- The checks of `_paper_order_from_evidence` that depend on the kind of the order. -/
def validateKind (m : OrderMetadata) : Except Failure Unit :=
  match m.orderKind with
  | .market =>
    reject (m.eligibleOpenUtc ≠ nextBoundary m.signalAtUtc)
      (.reconciliation "market order eligible open is not immediate")
  | .stop => do
    reject (m.side ≠ .sell ∨ m.parentOrderId.any PaperId.isStop = false)
      (.reconciliation "stop order identity is invalid")
    reject (m.eligibleOpenUtc < m.signalAtUtc)
      (.reconciliation "stop order fill predates its observation")

/-- The checks of `_paper_order_from_evidence` on the metadata alone, and the order key
they establish. -/
def validateMetadata (metadata : Stamped OrderMetadata) : Except Failure OrderKey := do
  let m := metadata.body
  reject (metadata.eventId ≠ .orderMeta m.orderId)
    (.reconciliation "paper order metadata id is not deterministic")
  reject (isReason m.reason = false) (.reconciliation "paper order reason is invalid")
  reject (m.requestedQuantity ≤ 0) (.reconciliation "paper order quantity is invalid")
  reject (m.feeRate < 0 ∨ m.slippageRate < 0)
    (.reconciliation "paper order cost binding is invalid")
  reject (m.parentOrderId = some (.external ""))
    (.reconciliation "paper order parent is invalid")
  requireBoundary m.signalAtUtc "paper order signal"
  requireBoundary m.eligibleOpenUtc "paper order eligible open"
  validateKind m
  let key := orderIdentity m.signalAtUtc m.side m.reason m.parentOrderId
  reject (m.idempotencyKey ≠ .order key ∨ m.orderId ≠ key.orderId)
    (.reconciliation "paper order identity is not deterministic")
  return key

/-- When an order must have been created: at its signal, or when its stop triggered. -/
def creationDue (m : OrderMetadata) : ℤ :=
  match m.orderKind with
  | .market => m.signalAtUtc
  | .stop => m.eligibleOpenUtc

/-- The checks of `_paper_order_from_evidence` on the creation. -/
def validateCreation (metadata : Stamped OrderMetadata) (creation : Stamped OrderCreated) :
    Except Failure Unit := do
  let m := metadata.body
  reject (creation.occurredAtUtc ≠ creationDue m) (.reconciliation (match m.orderKind with
    | .market => "market order creation time is not signal time"
    | .stop => "stop order creation is not trigger time"))
  reject (creation.body ≠ ⟨m.idempotencyKey, m.orderId, m.side, m.requestedQuantity, 0, .created⟩)
    (.reconciliation "paper order creation contradicts metadata")
  reject (metadata.occurredAtUtc ≠ creation.occurredAtUtc)
    (.reconciliation "paper order metadata time is not creation time")

/-- The checks of `_paper_order_from_evidence` on the fill. -/
def validateOrderFill (m : OrderMetadata) (fill : Stamped RawFill) : Except Failure Unit := do
  reject (fill.occurredAtUtc < m.signalAtUtc ∨
      m.orderKind = .market ∧ fill.occurredAtUtc = m.signalAtUtc)
    (.reconciliation "paper fill is not strictly after its signal")
  reject (fill.occurredAtUtc ≠ m.eligibleOpenUtc)
    (.reconciliation "paper fill is outside its eligible open")
  reject (m.requestedQuantity < fill.body.quantity)
    (.reconciliation "paper fill exceeds requested quantity")

/-- The checks of `_paper_order_from_evidence` on the first two transitions. -/
def validateAcceptance (key : OrderKey) (metadata : Stamped OrderMetadata)
    (creation : Stamped OrderCreated) (submitted accepted : Stamped OrderTransition) :
    Except Failure Unit := do
  reject (submitted.body.status ≠ .submitted ∨ accepted.body.status ≠ .accepted)
    (.reconciliation "paper order lifecycle must begin CREATED, SUBMITTED, ACCEPTED")
  reject (submitted.occurredAtUtc ≠ creation.occurredAtUtc)
    (.reconciliation "paper order acceptance time is not causal")
  validateStatusIdentity submitted key .submitted none
  reject (accepted.occurredAtUtc ≠ creation.occurredAtUtc)
    (.reconciliation "paper order acceptance time is not causal")
  validateStatusIdentity accepted key .accepted none
  reject (¬(creation.sequence < submitted.sequence ∧ submitted.sequence < accepted.sequence ∧
      accepted.sequence < metadata.sequence))
    (.reconciliation "paper order evidence sequence is not causal")

/-- The checks on the transition that ends an order without a fill. -/
def validateNoFillTerminal (key : OrderKey) (at_ : ℤ) (bound : Bool)
    (terminal : Stamped OrderTransition) : Except Failure Unit :=
  match terminal.body.status with
  | .insufficientCash =>
    validateStatusIdentity terminal key (.insufficient at_) (some "INSUFFICIENT_CASH")
  | .rejected => do
    reject (bound = false) (.reconciliation "paper no-fill lifecycle is invalid")
    validateStatusIdentity terminal key (.executionCap at_) (some "EXECUTION_CAP")
  | _ => .error (.reconciliation "paper no-fill lifecycle is invalid")

/-- The end of an order that was not filled. -/
def validateNoFill (key : OrderKey) (metadata : Stamped OrderMetadata) (bound : Bool)
    (rest : List (Stamped OrderTransition)) : Except Failure OrderStatus :=
  match rest with
  | [] => .ok .accepted
  | [terminal] => do
    let at_ := metadata.body.eligibleOpenUtc
    validateNoFillTerminal key at_ bound terminal
    reject (terminal.occurredAtUtc ≠ at_ ∨ terminal.sequence ≤ metadata.sequence)
      (.reconciliation "paper terminal no-fill time is not causal")
    return terminal.body.status
  | _ => .error (.reconciliation "paper no-fill lifecycle is invalid")

/-- The end of an order that was filled completely. -/
def validateCompleted (key : OrderKey) (metadata : Stamped OrderMetadata) (fill : Stamped RawFill)
    (fillMetadata : Option (Stamped FillMetadata)) (rest : List (Stamped OrderTransition)) :
    Except Failure OrderStatus :=
  match rest with
  | [terminal] => do
    let at_ := metadata.body.eligibleOpenUtc
    reject (terminal.body.status ≠ .completed)
      (.reconciliation "completed paper fill lacks exact lifecycle")
    validateStatusIdentity terminal key (.completed at_) (some metadata.body.reason)
    reject (¬∃ fillMeta ∈ fillMetadata, metadata.sequence < fill.sequence ∧
        fill.sequence < terminal.sequence ∧ terminal.sequence < fillMeta.sequence)
      (.reconciliation "completed paper fill sequence is not causal")
    reject (terminal.occurredAtUtc ≠ at_)
      (.reconciliation "completed paper fill status time is invalid")
    return .completed
  | _ => .error (.reconciliation "completed paper fill lacks exact lifecycle")

/-- The end of an order that was filled in part. -/
def validatePartial (key : OrderKey) (metadata : Stamped OrderMetadata) (bound : Bool)
    (fill : Stamped RawFill) (fillMetadata : Option (Stamped FillMetadata))
    (rest : List (Stamped OrderTransition)) : Except Failure OrderStatus :=
  match rest with
  | [part, canceled] => do
    let at_ := metadata.body.eligibleOpenUtc
    reject (part.body.status ≠ .partial_ ∨ canceled.body.status ≠ .canceled)
      (.reconciliation "partial paper fill lacks exact lifecycle")
    validateStatusIdentity part key (.partial_ at_) (some metadata.body.reason)
    validateStatusIdentity canceled key (.cancelRemainder at_)
      (some (if bound ∧ canceled.body.reason = some "EXECUTION_CAP" then "EXECUTION_CAP"
        else "PARTIAL_REMAINDER"))
    reject (¬∃ fillMeta ∈ fillMetadata, metadata.sequence < fill.sequence ∧
        fill.sequence < part.sequence ∧ part.sequence < fillMeta.sequence ∧
        fillMeta.sequence < canceled.sequence)
      (.reconciliation "partial paper fill sequence is not causal")
    reject (part.occurredAtUtc ≠ at_ ∨ canceled.occurredAtUtc ≠ at_)
      (.reconciliation "partial paper fill status time is invalid")
    return .canceled
  | _ => .error (.reconciliation "partial paper fill lacks exact lifecycle")

/-- The filled quantity and the status that the fills and later transitions of an order
amount to. -/
def orderOutcome (key : OrderKey) (metadata : Stamped OrderMetadata) (bound : Bool)
    (fills : List (Stamped RawFill)) (fillMetadata : EventId → Option (Stamped FillMetadata))
    (rest : List (Stamped OrderTransition)) : Except Failure (ℚ × OrderStatus) :=
  match fills with
  | [] => do
    let status ← validateNoFill key metadata bound rest
    return (0, status)
  | [fill] => do
    validateOrderFill metadata.body fill
    let status ←
      if fill.body.quantity = metadata.body.requestedQuantity then
        validateCompleted key metadata fill (fillMetadata fill.eventId) rest
      else validatePartial key metadata bound fill (fillMetadata fill.eventId) rest
    return (fill.body.quantity, status)
  | _ => .error (.reconciliation "paper order has more than one fill")

/-- The `PaperOrder` that metadata, a filled quantity and a status amount to. -/
def paperOrder (m : OrderMetadata) (key : OrderKey) (filled : ℚ) (status : OrderStatus)
    (context : Option EntryContext) : PaperOrder where
  orderId := m.orderId
  idempotencyKey := key
  side := m.side
  reason := m.reason
  signalAtUtc := m.signalAtUtc
  requestedQuantity := m.requestedQuantity
  filledQuantity := filled
  remainderQuantity := m.requestedQuantity - filled
  status
  orderKind := m.orderKind
  parentOrderId := m.parentOrderId
  eligibleOpenUtc := m.eligibleOpenUtc
  feeRate := m.feeRate
  slippageRate := m.slippageRate
  executionContext := context

/-- `_paper_order_from_evidence`. -/
def paperOrderFromEvidence (metadata : Stamped OrderMetadata) (creation : Stamped OrderCreated)
    (transitions : List (Stamped OrderTransition)) (fills : List (Stamped RawFill))
    (fillMetadata : EventId → Option (Stamped FillMetadata)) (context : Option EntryContext) :
    Except Failure PaperOrder := do
  let key ← validateMetadata metadata
  validateCreation metadata creation
  match transitions with
  | submitted :: accepted :: rest => do
    validateAcceptance key metadata creation submitted accepted
    let (filled, status) ←
      orderOutcome key metadata context.isSome fills fillMetadata rest
    return paperOrder metadata.body key filled status context
  | _ => .error (.reconciliation "paper order lifecycle must begin CREATED, SUBMITTED, ACCEPTED")

/-! ## One stop -/

/-- `_stop_from_event`. -/
def stopFromEvent (event : Stamped StopSet) : Except Failure PaperStop := do
  let p := event.body
  reject (isReason p.reason = false) (.reconciliation "paper stop reason is invalid")
  requireBoundary event.occurredAtUtc "stop observation"
  reject (p.activeAfterUtc ≠ event.occurredAtUtc ∧
      p.activeAfterUtc ≠ nextBoundary event.occurredAtUtc)
    (.reconciliation "stop active time is neither the fill boundary nor next four-hour boundary")
  reject (p.stopId ≠ .stop p.sourceId event.occurredAtUtc p.reason ∨
      event.eventId ≠ .stopSet p.stopId)
    (.reconciliation "paper stop identity is not deterministic")
  reject (p.stopPrice ≤ 0) (.reconciliation "paper stop price is invalid")
  reject (p.feeRate < 0 ∨ p.slippageRate < 0)
    (.reconciliation "paper stop cost binding is invalid")
  return ⟨p.stopId, p.stopPrice, p.reason, event.occurredAtUtc, p.activeAfterUtc, p.sourceId,
    p.feeRate, p.slippageRate⟩

/-- `_validate_stop_terminal`. -/
def validateStopTerminal (event : Stamped StopTerminal) (stop : PaperStop) :
    Except Failure Unit := do
  let p := event.body
  reject (p.stopId ≠ stop.stopId)
    (.reconciliation "paper stop terminal changes stop identity")
  reject (event.eventId ≠ .stopTerminal p.action stop.stopId p.identity)
    (.reconciliation "paper stop terminal identity is not deterministic")
  reject (event.occurredAtUtc < stop.observedAtUtc)
    (.reconciliation "paper stop terminal time is not causal")
  reject (p.action = .triggered ∧ event.occurredAtUtc < stop.activeAfterUtc)
    (.reconciliation "paper stop triggered before it became active")

/-- The stops met so far by the first loop of `_build_ledger`. The active stop is the last
open one. -/
structure StopScan where
  known : List (Stamped PaperStop) := []
  open_ : List PaperStop := []
  terminals : List (Stamped StopTerminal) := []
  deriving DecidableEq, Repr

/-- `active_stop`. -/
def StopScan.active (scan : StopScan) : Option PaperStop := scan.open_.getLast?

/-- The `SET` case of the first loop of `_build_ledger`. -/
def scanStopSet (scan : StopScan) (event : Stamped StopSet) : Except Failure StopScan := do
  let candidate ← stopFromEvent event
  reject (∃ stop ∈ scan.known, stop.body.stopId = candidate.stopId)
    (.reconciliation "duplicate paper stop identity")
  reject (∃ active ∈ scan.active, candidate.sourceId ≠ active.sourceId)
    (.reconciliation "stop update changes position source")
  reject (∃ active ∈ scan.active, candidate.stopPrice ≤ active.stopPrice)
    (.reconciliation "persisted protective stop is not tighter")
  return { scan with
    known := scan.known ++ [⟨event.sequence, event.eventId, event.occurredAtUtc, candidate⟩]
    open_ := scan.open_ ++ [candidate] }

/-- The terminal case of the first loop of `_build_ledger`. -/
def scanStopTerminal (scan : StopScan) (event : Stamped StopTerminal) :
    Except Failure StopScan :=
  match scan.open_.find? (·.stopId = event.body.stopId) with
  | none => .error (.reconciliation "stop terminal event has no active stop")
  | some stop => do
    validateStopTerminal event stop
    return { scan with
      open_ := scan.open_.filter (·.stopId ≠ event.body.stopId)
      terminals := scan.terminals ++ [event] }

/-- The `PAPER_STOP` cases of the first loop of `_build_ledger`. -/
def scanStopEvent (scan : StopScan) (e : StoredEvent) : Except Failure StopScan :=
  match e.payload with
  | .paperStopSet stop => scanStopSet scan ⟨e.sequence, e.eventId, e.occurredAtUtc, stop⟩
  | .paperStopTerminal terminal =>
    scanStopTerminal scan ⟨e.sequence, e.eventId, e.occurredAtUtc, terminal⟩
  | _ => .ok scan

/-- The stops of a log. -/
def scanStops (log : List StoredEvent) : Except Failure StopScan := log.foldlM scanStopEvent {}

/-! ## One fill -/

/-- `_paper_fill_from_evidence`. -/
def paperFillFromEvidence (raw : Stamped RawFill) (metadata : Stamped FillMetadata)
    (order : PaperOrder) : Except Failure PaperFill := do
  let f := raw.body
  let m := metadata.body
  reject (metadata.eventId ≠ .fillMeta raw.eventId)
    (.reconciliation "paper fill metadata id is not deterministic")
  reject (metadata.occurredAtUtc ≠ raw.occurredAtUtc)
    (.reconciliation "paper fill metadata time is inconsistent")
  reject (raw.eventId ≠ .fill f.orderId raw.occurredAtUtc f.quantity)
    (.reconciliation "paper fill id is not deterministic")
  reject (¬(m.fillId = raw.eventId ∧ m.orderId = f.orderId ∧ f.orderId = order.orderId ∧
      m.side = f.side ∧ f.side = order.side ∧ m.reason = order.reason ∧
      m.quantity = f.quantity ∧ m.fillPrice = f.price ∧ m.fee = f.fee ∧
      m.feeRate = order.feeRate ∧ m.slippageRate = order.slippageRate))
    (.reconciliation "paper fill metadata contradicts order or ledger")
  let expectedPrice := computedFillPrice m.referencePrice order.slippageRate f.side
  let expectedSlippage := computedSlippage f.quantity expectedPrice m.referencePrice
  reject (¬(f.price = expectedPrice ∧ f.fee = computedFee f.quantity expectedPrice order.feeRate ∧
      m.slippage = expectedSlippage)) (.reconciliation "paper fill costs are inconsistent")
  return ⟨raw.eventId, f.orderId, f.side, order.reason, f.quantity, m.referencePrice, f.price,
    f.fee, expectedSlippage, raw.occurredAtUtc⟩

end AutoBit.Broker
