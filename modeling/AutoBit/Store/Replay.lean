import AutoBit.Store.Events
import AutoBit.Store.Lease

/-!
# Replay of the event log

The events are authoritative: `rebuildFromEvents` folds them into the ledger of cash, BTC
and orders, and `replayAndVerify` compares the persisted order projection with the
result. Both refuse a log that breaks the order lifecycle or the order of time.
-/

namespace AutoBit.Store

open Library Risk

/-- `StoredOrder`. -/
structure StoredOrder where
  orderId : PaperId
  idempotencyKey : Key
  side : Side
  requestedQuantity : ℚ
  filledQuantity : ℚ
  status : OrderStatus
  updatedAtUtc : ℤ
  deriving DecidableEq, Repr

/-- `_ACTIVE_ORDER_STATUSES`. -/
def OrderStatus.isActive : OrderStatus → Bool
  | .created | .submitted | .accepted | .partial_ => true
  | _ => false

/-- `_ORDER_SEED_STATUSES`. -/
def OrderStatus.isSeed : OrderStatus → Bool
  | .created | .submitted | .accepted => true
  | _ => false

/-- `_LEGAL_ORDER_TRANSITIONS`. -/
def legalOrderTransitions : OrderStatus → List OrderStatus
  | .created => [.submitted, .canceled, .insufficientCash, .rejected]
  | .submitted => [.accepted, .canceled, .expired, .insufficientCash, .rejected]
  | .accepted | .partial_ => [.canceled, .expired, .insufficientCash, .rejected]
  | _ => []

/-- `_validate_order_status_transition`, as a condition. -/
def legalTransition (current target : OrderStatus) (requested filled : ℚ) : Bool :=
  decide (0 ≤ filled ∧ filled ≤ requested) &&
    match target with
    | .created => false
    | .partial_ => decide (current = .partial_ ∧ 0 < filled ∧ filled < requested)
    | .completed => decide (current = .completed ∧ filled = requested)
    | target => decide (target ∈ legalOrderTransitions current)

/-- The accumulators of `_rebuild_from_events`. -/
structure Projection where
  cash : ℚ := 100
  btcQuantity : ℚ := 0
  btcCostBasis : ℚ := 0
  lastPrice : Option ℚ := none
  orders : List StoredOrder := []
  breakerState : Option BreakerPayload := none
  healthState : Option Health.Mapping := none
  previousTimestamp : Option ℤ := none
  lastSequence : ℕ := 0
  deriving DecidableEq, Repr

/-- Look an order up by its identity. -/
def findOrder (orders : List StoredOrder) (id : PaperId) : Option StoredOrder :=
  orders.find? (·.orderId = id)

/-- `orders[order_id] = order` for an identity that is present. -/
def replaceOrder (orders : List StoredOrder) (order : StoredOrder) : List StoredOrder :=
  orders.map fun existing => if existing.orderId = order.orderId then order else existing

/-- `_REASON_PATTERN` and the reason format of the broker. -/
def isReason (text : String) : Bool :=
  match text.toList with
  | [] => false
  | first :: rest =>
    first.isUpper && rest.length ≤ 63 && rest.all fun c => c.isUpper || c.isDigit || c = '_'

/-- Whether a field, when present, satisfies a condition. -/
def fieldOk (payload : Health.Mapping) (key : String) (ok : Health.Json → Bool) : Bool :=
  (payload.lookup key).all ok

/-- `_validate_known_state_payload`, as a condition on a state payload. -/
def knownStatePayload (payload : Health.Mapping) : Bool :=
  (["halt_entries", "ledger_matches", "timestamps_monotonic", "latest_candle_valid"].all fun key =>
    fieldOk payload key fun value => match value with
      | .scalar (.bool _) => true
      | _ => false) &&
  (["api_failures", "api_successes", "unresolved_orders"].all fun key =>
    fieldOk payload key fun value => match value with
      | .scalar (.int n) => decide (0 ≤ n)
      | _ => false) &&
  (fieldOk payload "reasons" fun value => match value with
    | .array items => items.Nodup ∧ items.all fun item => match item with
      | .text reason => isReason reason
      | _ => false
    | _ => false) &&
  (fieldOk payload "fill_deviation" fun value => match value with
    | .scalar (.int n) => decide (0 ≤ n)
    | .scalar (.float (.finite q)) => decide (0 ≤ q)
    | _ => false) &&
  ["last_success_at_utc", "last_failure_at_utc"].all fun key =>
    fieldOk payload key fun value => match value with
      | .scalar .null | .scalar (.utc _) => true
      | _ => false

/-- `_validate_known_state_payload` applied to an event. -/
def Payload.knownState : Payload → Bool
  | .breakerState (.raw payload) => knownStatePayload payload
  | .healthState payload => knownStatePayload payload
  | _ => true

/-- The `ORDER_CREATED` case of `_rebuild_from_events`. -/
def replayOrderCreated (s : Projection) (e : StoredEvent) (order : OrderCreated) :
    Except Failure Projection := do
  reject (order.requestedQuantity ≤ 0) (.corruption "invalid ORDER_CREATED requested quantity")
  reject (order.filledQuantity ≠ 0) (.corruption "ORDER_CREATED must start unfilled")
  reject (order.status.isSeed = false) (.corruption "invalid ORDER_CREATED seed status")
  reject (e.eventId ≠ .orderCreated order.idempotencyKey)
    (.corruption "ORDER_CREATED event id is not deterministic")
  reject (∃ existing ∈ s.orders, existing.orderId = order.orderId ∨
      existing.idempotencyKey = order.idempotencyKey)
    (.corruption "duplicate order identity in event replay")
  return { s with
    orders := s.orders ++ [⟨order.orderId, order.idempotencyKey, order.side,
      order.requestedQuantity, order.filledQuantity, order.status, e.occurredAtUtc⟩] }

/-- The effect of a fill on the order it belongs to. -/
def replayOrderFill (orders : List StoredOrder) (at_ : ℤ) (fill : RawFill) :
    Except Failure (List StoredOrder) :=
  match findOrder orders fill.orderId with
  | none => .ok orders
  | some existing => do
    reject (existing.side ≠ fill.side) (.corruption "fill side conflicts with order replay")
    reject (existing.status.isActive = false) (.corruption "fill follows a terminal order")
    let total := existing.filledQuantity + fill.quantity
    reject (existing.requestedQuantity < total)
      (.corruption "fill exceeds requested quantity in replay")
    return replaceOrder orders { existing with
      filledQuantity := total
      status := if total = existing.requestedQuantity then .completed else .partial_
      updatedAtUtc := at_ }

/-- The effect of a fill on cash, BTC and the cost basis. -/
def replayBalance (s : Projection) (fill : RawFill) : Except Failure Projection :=
  match fill.side with
  | .buy => do
    let value := fill.quantity * fill.price + fill.fee
    reject (s.cash - value < 0) (.corruption "fill replay makes cash negative")
    return { s with
      cash := s.cash - value
      btcQuantity := s.btcQuantity + fill.quantity
      btcCostBasis := s.btcCostBasis + value
      lastPrice := some fill.price }
  | .sell => do
    reject (s.btcQuantity < fill.quantity) (.corruption "fill replay oversells BTC")
    let cash := s.cash + (fill.quantity * fill.price - fill.fee)
    reject (cash < 0) (.corruption "fill replay makes cash negative")
    let basis :=
      if 0 < s.btcQuantity then s.btcCostBasis - s.btcCostBasis * (fill.quantity / s.btcQuantity)
      else s.btcCostBasis
    return { s with
      cash
      btcQuantity := s.btcQuantity - fill.quantity
      btcCostBasis := if s.btcQuantity - fill.quantity = 0 then 0 else basis
      lastPrice := some fill.price }

/-- The `FILL` case of `_rebuild_from_events`. -/
def replayFill (s : Projection) (e : StoredEvent) (fill : RawFill) :
    Except Failure Projection := do
  reject (fill.fee < 0) (.corruption "invalid fill fee")
  reject (fill.price ≤ 0) (.corruption "invalid fill price")
  reject (fill.quantity ≤ 0) (.corruption "invalid fill quantity")
  let balanced ← replayBalance s fill
  let orders ← replayOrderFill s.orders e.occurredAtUtc fill
  return { balanced with orders }

/-- The `ORDER_STATUS` case of `_rebuild_from_events`. -/
def replayOrderStatus (s : Projection) (e : StoredEvent) (transition : OrderTransition) :
    Except Failure Projection := do
  reject (e.eventId ≠ .orderStatus transition.idempotencyKey)
    (.corruption "ORDER_STATUS event id is not deterministic")
  match findOrder s.orders transition.orderId with
  | none => .error (.corruption "ORDER_STATUS references an unknown order")
  | some existing =>
    reject (legalTransition existing.status transition.status existing.requestedQuantity
      existing.filledQuantity = false) (.corruption "illegal order status transition")
    return { s with
      orders := replaceOrder s.orders { existing with
        status := transition.status
        updatedAtUtc := e.occurredAtUtc } }

/-- The effect of one event on the accumulators, once its envelope is checked. -/
def replayPayload (s : Projection) (e : StoredEvent) : Except Failure Projection :=
  match e.payload with
  | .orderCreated order => replayOrderCreated s e order
  | .fill fill => replayFill s e fill
  | .orderStatus transition => replayOrderStatus s e transition
  | .breakerState payload => .ok { s with breakerState := some payload }
  | .healthState payload => .ok { s with healthState := some payload }
  | .other eventType _ => do
    reject (eventType = "ORDER_CREATED") (.corruption "invalid ORDER_CREATED payload")
    reject (eventType = "FILL") (.corruption "invalid FILL payload")
    reject (eventType = "ORDER_STATUS") (.corruption "invalid ORDER_STATUS payload")
    return s
  | _ => .ok s

/-- One round of the loop of `_rebuild_from_events`. -/
def replayEvent (s : Projection) (e : StoredEvent) : Except Failure Projection := do
  reject (e.sequence ≠ s.lastSequence + 1) (.corruption "event sequence history is inconsistent")
  reject (∃ previous ∈ s.previousTimestamp, e.occurredAtUtc < previous)
    (.corruption "event timestamp reversal")
  reject (e.payload.knownState = false) (.corruption "known state payload is invalid")
  let s' ← replayPayload s e
  return { s' with
    previousTimestamp := some e.occurredAtUtc
    lastSequence := e.sequence }

/-- The loop of `_rebuild_from_events`. -/
def rebuildFromEvents (events : List StoredEvent) : Except Failure Projection :=
  events.foldlM replayEvent {}

/-- The events table and the order projection. -/
structure Database where
  events : List StoredEvent := []
  orders : List StoredOrder := []
  deriving DecidableEq, Repr

/-- `PaperSnapshot`, without the market and the initial equity, which are constant. The
pending orders stand in the order of their creation. -/
structure PaperSnapshot where
  cash : ℚ
  btcQuantity : ℚ
  equity : ℚ
  btcCostBasis : ℚ
  averageEntryPrice : Option ℚ
  lastPrice : Option ℚ
  positionState : PositionState
  pendingOrders : List StoredOrder
  lastSequence : ℕ
  breakerState : Option BreakerPayload
  healthState : Option Health.Mapping
  eventEvidence : List StoredEvent
  deriving DecidableEq, Repr

/-- `_position_state`. -/
def positionState (btcQuantity : ℚ) (pendingOrders : List StoredOrder)
    (breakerState : Option BreakerPayload) : PositionState :=
  if breakerState.any BreakerPayload.haltEntries then .halted
  else if pendingOrders.any (·.side = .sell) then .exitPending
  else if 0 < btcQuantity then .long
  else if pendingOrders.any (·.side = .buy) then .entryPending
  else .flat

/-- The active orders of a projection. -/
def Projection.pendingOrders (s : Projection) : List StoredOrder :=
  s.orders.filter (·.status.isActive)

/-- `_snapshot_from_components`. -/
def snapshotFromComponents (s : Projection) (events : List StoredEvent) : PaperSnapshot where
  cash := s.cash
  btcQuantity := s.btcQuantity
  equity := s.cash + (match s.lastPrice with
    | some price => s.btcQuantity * price
    | none => 0)
  btcCostBasis := s.btcCostBasis
  averageEntryPrice := if 0 < s.btcQuantity then some (s.btcCostBasis / s.btcQuantity) else none
  lastPrice := s.lastPrice
  positionState := positionState s.btcQuantity s.pendingOrders s.breakerState
  pendingOrders := s.pendingOrders
  lastSequence := s.lastSequence
  breakerState := s.breakerState
  healthState := s.healthState
  eventEvidence := events

/-- `_replay_and_verify`: the replay, and `_verify_order_projection`. -/
def replayAndVerify (db : Database) : Except Failure PaperSnapshot := do
  let replayed ← rebuildFromEvents db.events
  reject (db.orders ≠ replayed.orders)
    (.corruption "order projection does not match event replay")
  return snapshotFromComponents replayed db.events

/-- `replay_state`. -/
abbrev replayState (db : Database) : Except Failure PaperSnapshot := replayAndVerify db

end AutoBit.Store
