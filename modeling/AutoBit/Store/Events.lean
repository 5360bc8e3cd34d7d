import AutoBit.Health.Snapshot
import AutoBit.Risk.Policy

/-!
# Identities and events of the durable log

The identity of an order, a stop, a fill or an event is the SHA-256 digest of a text that
spells out what it identifies. The digest is read as injective, so that an identity is
modelled by the data spelled out; a text of any other origin is `external`.
-/

namespace AutoBit.Store

open Risk

/-- The side of an order or fill. -/
inductive Side where
  | buy
  | sell
  deriving DecidableEq, Repr

/-- `OrderStatus`. -/
inductive OrderStatus where
  | created
  | submitted
  | accepted
  | partial_
  | completed
  | canceled
  | expired
  | insufficientCash
  | rejected
  deriving DecidableEq, Repr

/-- `PositionState`. -/
inductive PositionState where
  | flat
  | entryPending
  | long
  | exitPending
  | halted
  deriving DecidableEq, Repr

/-- `order_kind` of a paper order. -/
inductive OrderKind where
  | market
  | stop
  deriving DecidableEq, Repr

/-- An order or stop identity: `_order_identity` and the identity material of
`PaperBroker.set_stop`, without the constant market. -/
inductive PaperId where
  | external (text : String)
  | order (signalAt : ℤ) (side : Side) (reason : String) (parent : PaperId)
  | stop (source : PaperId) (observedAt : ℤ) (reason : String)
  deriving DecidableEq, Repr

/-- The order key of `_order_identity`, whose digest is the order identity. -/
structure OrderKey where
  signalAt : ℤ
  side : Side
  reason : String
  parent : PaperId
  deriving DecidableEq, Repr

/-- The order identity that belongs to a key. -/
def OrderKey.orderId (key : OrderKey) : PaperId :=
  .order key.signalAt key.side key.reason key.parent

/-- `parent_order_id or "ROOT"`. -/
def parentIdentity : Option PaperId → PaperId
  | none | some (.external "") => .external "ROOT"
  | some parent => parent

/-- `_order_identity`. -/
def orderIdentity (signalAt : ℤ) (side : Side) (reason : String) (parent : Option PaperId) :
    OrderKey :=
  ⟨signalAt, side, reason, parentIdentity parent⟩

/-- `startswith("paper-order:")`. -/
def PaperId.isOrder : PaperId → Bool
  | .external text => text.startsWith "paper-order:"
  | .order .. => true
  | .stop .. => false

/-- `startswith("paper-stop:")`. -/
def PaperId.isStop : PaperId → Bool
  | .external text => text.startsWith "paper-stop:"
  | .order .. => false
  | .stop .. => true

/-- The suffix that the broker adds to an order key for one status transition. -/
inductive StatusStep where
  | submitted
  | accepted
  | executionCap (at_ : ℤ)
  | insufficient (at_ : ℤ)
  | completed (at_ : ℤ)
  | partial_ (at_ : ℤ)
  | cancelRemainder (at_ : ℤ)
  deriving DecidableEq, Repr

/-- An idempotency key. -/
inductive Key where
  | external (text : String)
  | order (key : OrderKey)
  | status (key : OrderKey) (step : StatusStep)
  deriving DecidableEq, Repr

/-- The actions that end a protective stop. -/
inductive StopAction where
  | canceled
  | triggered
  deriving DecidableEq, Repr

/-- An event identity. -/
inductive EventId where
  | external (text : String)
  | orderCreated (key : Key)
  | orderStatus (key : Key)
  | fill (orderId : PaperId) (at_ : ℤ) (quantity : ℚ)
  | orderMeta (orderId : PaperId)
  | fillMeta (fillId : EventId)
  | entryContext (orderId : PaperId)
  | execution (orderId : PaperId)
  | position (orderId : PaperId) (at_ : ℤ)
  | stopSet (stopId : PaperId)
  | stopTerminal (action : StopAction) (stopId identity : PaperId)
  | cycle (end_ : ℤ)
  | cycleAttempt (end_ : ℤ)
  | risk (barAt : ℤ)
  | riskHealth (barAt : ℤ) (sequence version : ℕ) (health : EventId)
  | healthPublic (end_ observed : ℤ) (outcome : String)
  | healthReconcile (end_ : ℤ) (sequence : ℕ) (source : EventId)
  | healthRecovery (end_ : ℤ)
  | fillRecovery (base : EventId) (eligible : Bool)
  | alertAttempt (source : EventId) (sourceType : String)
  | alertFailure (source : EventId) (sourceType : String)
  deriving DecidableEq, Repr

/-! ## Payloads -/

/-- The payload of `ORDER_CREATED`. -/
structure OrderCreated where
  idempotencyKey : Key
  orderId : PaperId
  side : Side
  requestedQuantity : ℚ
  filledQuantity : ℚ
  status : OrderStatus
  deriving DecidableEq, Repr

/-- The payload of `ORDER_STATUS`. -/
structure OrderTransition where
  idempotencyKey : Key
  orderId : PaperId
  reason : Option String
  status : OrderStatus
  deriving DecidableEq, Repr

/-- The payload of `FILL`. -/
structure RawFill where
  orderId : PaperId
  side : Side
  quantity : ℚ
  price : ℚ
  fee : ℚ
  deriving DecidableEq, Repr

/-- The payload of `PAPER_ORDER`. -/
structure OrderMetadata where
  idempotencyKey : Key
  eligibleOpenUtc : ℤ
  feeRate : ℚ
  orderId : PaperId
  orderKind : OrderKind
  parentOrderId : Option PaperId
  reason : String
  requestedQuantity : ℚ
  side : Side
  signalAtUtc : ℤ
  slippageRate : ℚ
  deriving DecidableEq, Repr

/-- The payload of `PAPER_FILL`. -/
structure FillMetadata where
  fee : ℚ
  feeRate : ℚ
  fillId : EventId
  fillPrice : ℚ
  orderId : PaperId
  quantity : ℚ
  reason : String
  referencePrice : ℚ
  side : Side
  slippage : ℚ
  slippageRate : ℚ
  deriving DecidableEq, Repr

/-- The sizing evidence of an entry. -/
structure EntryContext where
  signalPrice : ℚ
  entryAtr : ℚ
  initialAtrMult : ℚ
  baselineAtrPct : ℚ
  riskRate : ℚ
  exposureCap : ℚ
  riskEventId : EventId
  deriving DecidableEq, Repr

/-- The payload of `PAPER_ENTRY_CONTEXT`. -/
structure ContextBinding where
  orderId : PaperId
  context : EntryContext
  version : ℤ
  deriving DecidableEq, Repr

/-- The payload of `PAPER_EXECUTION`. -/
structure Execution where
  version : ℤ
  orderId : PaperId
  referencePrice : ℚ
  attemptedQuantity : ℚ
  deriving DecidableEq, Repr

/-- The payload of `PAPER_STOP` with the action `SET`. -/
structure StopSet where
  activeAfterUtc : ℤ
  feeRate : ℚ
  reason : String
  sourceId : PaperId
  stopId : PaperId
  stopPrice : ℚ
  slippageRate : ℚ
  deriving DecidableEq, Repr

/-- The payload of `PAPER_STOP` with a terminal action. -/
structure StopTerminal where
  action : StopAction
  identity : PaperId
  stopId : PaperId
  deriving DecidableEq, Repr

/-- The payload of `PAPER_POSITION`. -/
structure PositionObservation where
  version : ℤ
  orderId : PaperId
  fillId : EventId
  previousEventId : Option EventId
  initialStop : ℚ
  highWater : ℚ
  candleHighs : List (ℤ × ℚ)
  deriving DecidableEq, Repr

/-- The payload of `BREAKER_STATE`: one that `_risk_state_from_payload` accepts, with the
state it denotes, or any other mapping. -/
inductive BreakerPayload where
  | valid (version : ℕ) (state : RiskState)
  | raw (payload : Health.Mapping)
  deriving DecidableEq, Repr

/-- `CycleStatus`, as far as it is stored. -/
inductive CycleStatus where
  | processed
  | alreadyProcessed
  | leaseHeld
  | unsafeData
  deriving DecidableEq, Repr

/-- The payload of `PAPER_CYCLE`. -/
structure CycleCompletion where
  createdOrderIds : List PaperId
  endUtc : ℤ
  filledOrderIds : List PaperId
  reasonCodes : List String
  status : CycleStatus
  deriving DecidableEq, Repr

/-- The payload of `PAPER_CYCLE_ATTEMPT`. -/
structure CycleAttempt where
  endUtc : ℤ
  version : ℤ
  deriving DecidableEq, Repr

/-- The payload of `ALERT_ATTEMPT`, and of `ALERT_FAILURE` but for its failure code. -/
structure AlertEvidence where
  sourceEventId : EventId
  sourceEventType : String
  version : ℤ
  deriving DecidableEq, Repr

/-- The payload of an event, with its type. A payload that does not have the fields of its
type, or whose type no one reads, is `other`. -/
inductive Payload where
  | orderCreated (order : OrderCreated)
  | orderStatus (transition : OrderTransition)
  | fill (fill : RawFill)
  | paperOrder (metadata : OrderMetadata)
  | paperFill (metadata : FillMetadata)
  | paperEntryContext (binding : ContextBinding)
  | paperExecution (execution : Execution)
  | paperStopSet (stop : StopSet)
  | paperStopTerminal (terminal : StopTerminal)
  | paperPosition (observation : PositionObservation)
  | breakerState (payload : BreakerPayload)
  | healthState (payload : Health.Mapping)
  | paperCycle (completion : CycleCompletion)
  | paperCycleAttempt (attempt : CycleAttempt)
  | alertAttempt (alert : AlertEvidence)
  | alertFailure (alert : AlertEvidence) (failureCode : String)
  | other (eventType : String) (payload : Health.Mapping)
  deriving DecidableEq, Repr

/-- `event_type`. -/
def Payload.eventType : Payload → String
  | .orderCreated _ => "ORDER_CREATED"
  | .orderStatus _ => "ORDER_STATUS"
  | .fill _ => "FILL"
  | .paperOrder _ => "PAPER_ORDER"
  | .paperFill _ => "PAPER_FILL"
  | .paperEntryContext _ => "PAPER_ENTRY_CONTEXT"
  | .paperExecution _ => "PAPER_EXECUTION"
  | .paperStopSet _ | .paperStopTerminal _ => "PAPER_STOP"
  | .paperPosition _ => "PAPER_POSITION"
  | .breakerState _ => "BREAKER_STATE"
  | .healthState _ => "HEALTH_STATE"
  | .paperCycle _ => "PAPER_CYCLE"
  | .paperCycleAttempt _ => "PAPER_CYCLE_ATTEMPT"
  | .alertAttempt _ => "ALERT_ATTEMPT"
  | .alertFailure .. => "ALERT_FAILURE"
  | .other eventType _ => eventType

/-- `StoredEvent`. -/
structure StoredEvent where
  sequence : ℕ
  eventId : EventId
  occurredAtUtc : ℤ
  payload : Payload
  deriving DecidableEq, Repr

/-- `payload.get("halt_entries") is True`. -/
def BreakerPayload.haltEntries : BreakerPayload → Bool
  | .valid _ state => state.decision.riskRate ≤ 0
  | .raw payload => payload.lookup "halt_entries" = some (.scalar (.bool true))

/-- A field of a payload, when it is a finite number. -/
def numberField (payload : Health.Mapping) (key : String) : Option ℚ :=
  match payload.lookup key with
  | some (.scalar (.float (.finite value))) => some value
  | some (.scalar (.int value)) => some value
  | _ => none

/-- A field of a payload, when it is the text of an instant. -/
def instantField (payload : Health.Mapping) (key : String) : Option ℤ :=
  match payload.lookup key with
  | some (.scalar (.utc instant)) => some instant
  | _ => none

/-- `payload.get("last_risk_at_utc")`. -/
def BreakerPayload.lastRiskAt : BreakerPayload → Option ℤ
  | .valid _ state => state.lastRiskAt
  | .raw payload => instantField payload "last_risk_at_utc"

/-- `payload.get("decision_risk_rate")`. -/
def BreakerPayload.decisionRiskRate : BreakerPayload → Option ℚ
  | .valid _ state => some state.decision.riskRate
  | .raw payload => numberField payload "decision_risk_rate"

/-- `payload.get("decision_exposure_cap")`. -/
def BreakerPayload.decisionExposureCap : BreakerPayload → Option ℚ
  | .valid _ state => some state.decision.exposureCap
  | .raw payload => numberField payload "decision_exposure_cap"

end AutoBit.Store
