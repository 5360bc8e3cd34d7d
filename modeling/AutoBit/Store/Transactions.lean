import AutoBit.Library.Transaction
import AutoBit.Store.Tables

/-!
# The mutations over the tables

Each mutation issues its statements inside a transaction: it inserts the event, updates the
order projection by its own code, replays the log and inserts the snapshot. When a
statement or a check raises, the transaction takes everything back. Transactions nest as
savepoints, and a session is any sequence of mutations in nested transactions.
-/

namespace AutoBit.Store.Sql

open Library

/-- The statements of a connection: the tables change, and any statement may raise. -/
abbrev StoreM (δ α : Type) := Stateful Failure (Tables δ) α

section

variable {δ : Type}

/-- `SELECT ... FROM events WHERE event_id = ?`. -/
def selectEvent (eventId : EventId) : StoreM δ (Option EventRow) := do
  let t ← get
  return t.events.find? (·.eventId = eventId)

/-- `SELECT ... FROM orders WHERE order_id = ?`. -/
def selectOrder (orderId : PaperId) : StoreM δ (Option StoredOrder) := do
  let t ← get
  return findOrder t.orders orderId

/-- `SELECT ... FROM orders WHERE idempotency_key = ?`. -/
def selectOrderByKey (key : Key) : StoreM δ (Option StoredOrder) := do
  let t ← get
  return t.orders.find? (·.idempotencyKey = key)

/-- `INSERT INTO events`: identities are unique, and the counter gives the sequence number. -/
def insertEvent (eventId : EventId) (occurredAt : ℤ) (payload : Payload) : StoreM δ ℤ := do
  let t ← get
  reject (∃ row ∈ t.events, row.eventId = eventId)
    (Failure.store "UNIQUE constraint failed: events.event_id")
  let sequence := t.eventsTail.getD 0 + 1
  modify fun t => { t with
    events := t.events ++ [⟨sequence, eventId, .canonical occurredAt, .canonical payload⟩]
    eventsTail := some sequence }
  return sequence

/-- `INSERT INTO orders`: identities and keys are unique. -/
def insertOrder (order : StoredOrder) : StoreM δ Unit := do
  let t ← get
  reject (∃ row ∈ t.orders, row.orderId = order.orderId ∨
    row.idempotencyKey = order.idempotencyKey) (Failure.store "UNIQUE constraint failed: orders")
  modify fun t => { t with orders := t.orders ++ [order] }

/-- `UPDATE orders ... WHERE order_id = ?`. -/
def updateOrder (order : StoredOrder) : StoreM δ Unit :=
  modify fun t => { t with orders := replaceOrder t.orders order }

/-- The order update of `append_fill`. -/
def fillOrder (fill : RawFill) (occurredAt : ℤ) : StoreM δ Unit := do
  let order ← selectOrder fill.orderId
  match order with
  | none => return
  | some order =>
    reject (order.side ≠ fill.side) (Failure.value "fill side does not match order side")
    reject (order.status.isActive = false) (Failure.value "cannot fill a terminal order")
    let total := order.filledQuantity + fill.quantity
    reject (order.requestedQuantity < total) (Failure.value "fill exceeds requested quantity")
    updateOrder { order with
      filledQuantity := total
      status := if total = order.requestedQuantity then .completed else .partial_
      updatedAtUtc := occurredAt }

/-- `_validate_timestamp_order`. -/
def validateTimestampOrder (occurredAt : ℤ) : StoreM δ Unit := do
  let t ← get
  match t.events.getLast? with
  | none => return
  | some row =>
    let latest ← row.occurredAtUtc.read (.corruption "stored timestamp is not canonical")
    reject (occurredAt < latest) (Failure.value "timestamp reversal is not allowed")

variable (hash : EventHash δ)

/-- `_rebuild_from_events`. -/
def rebuildFromEvents : StoreM δ (Rebuild δ) := do
  let t ← get
  rebuildRows hash t

/-- `_insert_snapshot`, whose sequence number is a primary key. -/
def insertSnapshot (r : Rebuild δ) (createdAt : ℤ) : StoreM δ Unit := do
  let t ← get
  let sequence : ℤ := r.projection.lastSequence
  reject (∃ row ∈ t.snapshots, row.sequence = sequence)
    (Failure.store "UNIQUE constraint failed: snapshots.sequence")
  modify fun t => { t with
    snapshots := t.snapshots ++
      [⟨sequence, .canonical (snapshotMapping r.projection r.digest), .canonical createdAt⟩] }

variable [DecidableEq δ]

/-- `_replay_and_verify`. -/
def replayAndVerify : StoreM δ PaperSnapshot := do
  let t ← get
  verifyTables hash t

/-- `_mutation_transaction`: the body, and the verification of what it leaves. -/
def mutationTransaction {α : Type} (body : StoreM δ α) : StoreM δ α :=
  transaction do
    let result ← body
    let _ ← replayAndVerify hash
    return result

/-- `append_event`. -/
def appendEvent (eventId : EventId) (occurredAt : ℤ) (payload : Payload) : StoreM δ ℤ := do
  reject (eventId.isNonempty = false) (Failure.value "event id must be non-empty")
  reject (isNonemptyText payload.eventType = false) (Failure.value "event type must be non-empty")
  reject (payload.knownState = false) (Failure.value "known state payload is invalid")
  mutationTransaction hash do
    let _ ← replayAndVerify hash
    let existing ← selectEvent eventId
    reject (existing.isSome = true) (Failure.idempotency "event id already exists")
    validateTimestampOrder occurredAt
    let sequence ← insertEvent eventId occurredAt payload
    let replay ← rebuildFromEvents hash
    insertSnapshot replay occurredAt
    return sequence

/-- `record_order_once`. -/
def recordOrderOnce (key : Key) (side : Side) (quantity : ℚ) (orderId : PaperId)
    (occurredAt : ℤ) (status : OrderStatus) : StoreM δ Bool := do
  reject (key.isNonempty = false) (Failure.value "idempotency key must be non-empty")
  reject (orderId.isNonempty = false) (Failure.value "order id must be non-empty")
  reject (quantity ≤ 0) (Failure.value "requested quantity must be finite and positive")
  reject (status.isSeed = false)
    (Failure.value "order seed status must be CREATED, SUBMITTED, or ACCEPTED")
  let payload := Payload.orderCreated ⟨key, orderId, side, quantity, 0, status⟩
  mutationTransaction hash do
    let current ← replayAndVerify hash
    let existing ← selectOrderByKey key
    match existing with
    | some existing =>
      let createdEvent ← selectEvent (.orderCreated key)
      if existing.orderId = orderId ∧ existing.side = side ∧
          |existing.requestedQuantity - quantity| ≤ tolerance ∧
          ∃ created ∈ createdEvent, created.occurredAtUtc = .canonical occurredAt ∧
            created.payloadJson = .canonical payload then
        return false
      else throw (Failure.idempotency "idempotency key has different order payload")
    | none =>
      let sameId ← selectOrder orderId
      reject (sameId.isSome = true) (Failure.idempotency "order id already exists")
      reject (side = .sell ∧ current.btcQuantity < quantity)
        (Failure.value "sell order would exceed BTC inventory")
      validateTimestampOrder occurredAt
      let _ ← insertEvent (.orderCreated key) occurredAt payload
      insertOrder ⟨orderId, key, side, quantity, 0, status, occurredAt⟩
      let replay ← rebuildFromEvents hash
      insertSnapshot replay occurredAt
      return true

/-- `append_fill`. -/
def appendFill (fill : RawFill) (occurredAt : ℤ) (fillId : EventId) : StoreM δ Bool := do
  reject (fill.orderId.isNonempty = false) (Failure.value "order id must be non-empty")
  reject (fill.quantity ≤ 0) (Failure.value "quantity must be finite and positive")
  reject (fill.price ≤ 0) (Failure.value "price must be finite and positive")
  reject (fill.fee < 0) (Failure.value "fee must be finite and non-negative")
  reject (fillId.isNonempty = false) (Failure.value "fill id must be non-empty")
  mutationTransaction hash do
    let current ← replayAndVerify hash
    let existing ← selectEvent fillId
    match existing with
    | some existing =>
      if existing.payloadJson = .canonical (.fill fill) ∧
          existing.occurredAtUtc = .canonical occurredAt then
        return false
      else throw (Failure.idempotency "fill id has different payload")
    | none =>
      validateTimestampOrder occurredAt
      requireBalance current fill
      fillOrder fill occurredAt
      let _ ← insertEvent fillId occurredAt (.fill fill)
      let replay ← rebuildFromEvents hash
      insertSnapshot replay occurredAt
      return true

/-- `transition_order_status`. -/
def transitionOrderStatus (orderId : PaperId) (key : Key) (status : OrderStatus)
    (occurredAt : ℤ) (reason : Option String) : StoreM δ Bool := do
  reject (orderId.isNonempty = false) (Failure.value "order id must be non-empty")
  reject (key.isNonempty = false) (Failure.value "idempotency key must be non-empty")
  reject (∃ text ∈ reason, isNonemptyText text = false)
    (Failure.value "reason must be non-empty")
  let payload := Payload.orderStatus ⟨key, orderId, reason, status⟩
  mutationTransaction hash do
    let _ ← replayAndVerify hash
    let existing ← selectEvent (.orderStatus key)
    match existing with
    | some existing =>
      if existing.payloadJson = .canonical payload ∧
          existing.occurredAtUtc = .canonical occurredAt then
        return false
      else throw (Failure.idempotency "idempotency key has different transition payload")
    | none =>
      let order ← selectOrder orderId
      match order with
      | none => throw (Failure.value "unknown order id")
      | some order =>
        reject (legalTransition order.status status order.requestedQuantity
          order.filledQuantity = false) (Failure.value "illegal order status transition")
        validateTimestampOrder occurredAt
        let _ ← insertEvent (.orderStatus key) occurredAt payload
        updateOrder { order with status, updatedAtUtc := occurredAt }
        let replay ← rebuildFromEvents hash
        insertSnapshot replay occurredAt
        return true

/-- A call of one of the four mutations, with its arguments. -/
inductive Mutation where
  | appendEvent (eventId : EventId) (occurredAt : ℤ) (payload : Payload)
  | recordOrderOnce (key : Key) (side : Side) (quantity : ℚ) (orderId : PaperId) (occurredAt : ℤ)
      (status : OrderStatus)
  | appendFill (fill : RawFill) (occurredAt : ℤ) (fillId : EventId)
  | transitionOrderStatus (orderId : PaperId) (key : Key) (status : OrderStatus) (occurredAt : ℤ)
      (reason : Option String)
  deriving DecidableEq, Repr

/-- What a call does, its result left out. -/
def Mutation.run : Mutation → StoreM δ Unit
  | .appendEvent eventId occurredAt payload => do
    let _ ← Sql.appendEvent hash eventId occurredAt payload
  | .recordOrderOnce key side quantity orderId occurredAt status => do
    let _ ← Sql.recordOrderOnce hash key side quantity orderId occurredAt status
  | .appendFill fill occurredAt fillId => do
    let _ ← Sql.appendFill hash fill occurredAt fillId
  | .transitionOrderStatus orderId key status occurredAt reason => do
    let _ ← Sql.transitionOrderStatus hash orderId key status occurredAt reason

/-- `_create_schema`: no events and no orders, and the initial snapshot. -/
def createSchema : Tables δ where
  events := []
  orders := []
  snapshots := [⟨0, .canonical (snapshotMapping {} hash.empty), .canonical 0⟩]
  eventsTail := none

end

end AutoBit.Store.Sql
