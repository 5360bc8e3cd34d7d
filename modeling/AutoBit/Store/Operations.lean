import AutoBit.Store.Replay

/-!
# The mutations of the store

Each mutation verifies the database, appends one event, updates the order projection and
verifies the result, all in one transaction: when it raises, nothing has changed. What a
success can do is one lemma for each mutation.
-/

namespace AutoBit.Store

open Library

/-- `_nonempty_text` on an order identity. -/
def PaperId.isNonempty : PaperId → Bool
  | .external text => isNonemptyText text
  | _ => true

/-- `_nonempty_text` on an idempotency key. -/
def Key.isNonempty : Key → Bool
  | .external text => isNonemptyText text
  | _ => true

/-- `_nonempty_text` on an event identity. -/
def EventId.isNonempty : EventId → Bool
  | .external text => isNonemptyText text
  | _ => true

/-- `SELECT ... FROM events WHERE event_id = ?`. -/
def findEvent (events : List StoredEvent) (eventId : EventId) : Option StoredEvent :=
  events.find? (·.eventId = eventId)

/-- The event that an insertion into the events table adds. -/
def Database.nextEvent (db : Database) (eventId : EventId) (occurredAt : ℤ) (payload : Payload) :
    StoredEvent :=
  ⟨db.events.length + 1, eventId, occurredAt, payload⟩

/-- `INSERT INTO events`, whose column of identities is unique. -/
def insertEvent (db : Database) (eventId : EventId) (occurredAt : ℤ) (payload : Payload) :
    Except Failure (List StoredEvent) := do
  reject ((findEvent db.events eventId).isSome = true)
    (.store "UNIQUE constraint failed: events.event_id")
  return db.events ++ [db.nextEvent eventId occurredAt payload]

/-- `_validate_timestamp_order`. -/
def validateTimestampOrder (db : Database) (occurredAt : ℤ) : Except Failure Unit :=
  reject (∃ last ∈ db.events.getLast?, occurredAt < last.occurredAtUtc)
    (.value "timestamp reversal is not allowed")

/-- The end of a mutation: the changed database is verified. -/
def commit (db : Database) : Except Failure Database := do
  let _ ← replayAndVerify db
  return db

/-- `append_event`. -/
def appendEvent (db : Database) (eventId : EventId) (occurredAt : ℤ) (payload : Payload) :
    Except Failure Database := do
  reject (eventId.isNonempty = false) (.value "event id must be non-empty")
  reject (isNonemptyText payload.eventType = false) (.value "event type must be non-empty")
  reject (payload.knownState = false) (.value "known state payload is invalid")
  let _ ← replayAndVerify db
  reject ((findEvent db.events eventId).isSome = true) (.idempotency "event id already exists")
  validateTimestampOrder db occurredAt
  let events ← insertEvent db eventId occurredAt payload
  commit { db with events }

/-- `_TOLERANCE`. -/
def tolerance : ℚ := 1 / 10 ^ 10

/-- `record_order_once`: the database, and whether the order is new. -/
def recordOrderOnce (db : Database) (key : Key) (side : Side) (quantity : ℚ) (orderId : PaperId)
    (occurredAt : ℤ) (status : OrderStatus) : Except Failure (Bool × Database) := do
  reject (key.isNonempty = false) (.value "idempotency key must be non-empty")
  reject (orderId.isNonempty = false) (.value "order id must be non-empty")
  reject (quantity ≤ 0) (.value "requested quantity must be finite and positive")
  reject (status.isSeed = false)
    (.value "order seed status must be CREATED, SUBMITTED, or ACCEPTED")
  let payload := Payload.orderCreated ⟨key, orderId, side, quantity, 0, status⟩
  let current ← replayAndVerify db
  match db.orders.find? (·.idempotencyKey = key) with
  | some existing =>
    if existing.orderId = orderId ∧ existing.side = side ∧
        |existing.requestedQuantity - quantity| ≤ tolerance ∧
        ∃ created ∈ findEvent db.events (.orderCreated key),
          created.occurredAtUtc = occurredAt ∧ created.payload = payload then
      return (false, db)
    else .error (.idempotency "idempotency key has different order payload")
  | none =>
    reject ((findOrder db.orders orderId).isSome = true) (.idempotency "order id already exists")
    reject (side = .sell ∧ current.btcQuantity < quantity)
      (.value "sell order would exceed BTC inventory")
    validateTimestampOrder db occurredAt
    let events ← insertEvent db (.orderCreated key) occurredAt payload
    let db' ← commit {
      events
      orders := db.orders ++ [⟨orderId, key, side, quantity, 0, status, occurredAt⟩] }
    return (true, db')

/-- The order update of `append_fill`. -/
def fillOrder (orders : List StoredOrder) (occurredAt : ℤ) (fill : RawFill) :
    Except Failure (List StoredOrder) :=
  match findOrder orders fill.orderId with
  | none => .ok orders
  | some order => do
    reject (order.side ≠ fill.side) (.value "fill side does not match order side")
    reject (order.status.isActive = false) (.value "cannot fill a terminal order")
    let total := order.filledQuantity + fill.quantity
    reject (order.requestedQuantity < total) (.value "fill exceeds requested quantity")
    return replaceOrder orders { order with
      filledQuantity := total
      status := if total = order.requestedQuantity then .completed else .partial_
      updatedAtUtc := occurredAt }

/-- The balance checks of `append_fill`. -/
def requireBalance (current : PaperSnapshot) (fill : RawFill) : Except Failure Unit :=
  match fill.side with
  | .buy =>
    reject (current.cash - (fill.quantity * fill.price + fill.fee) < 0)
      (.value "fill would make cash negative")
  | .sell => do
    reject (current.btcQuantity < fill.quantity) (.value "fill would oversell BTC")
    reject (current.cash + (fill.quantity * fill.price - fill.fee) < 0)
      (.value "fill would make cash negative")

/-- `append_fill`: the database, and whether the fill is new. -/
def appendFill (db : Database) (fill : RawFill) (occurredAt : ℤ) (fillId : EventId) :
    Except Failure (Bool × Database) := do
  reject (fill.orderId.isNonempty = false) (.value "order id must be non-empty")
  reject (fill.quantity ≤ 0) (.value "quantity must be finite and positive")
  reject (fill.price ≤ 0) (.value "price must be finite and positive")
  reject (fill.fee < 0) (.value "fee must be finite and non-negative")
  reject (fillId.isNonempty = false) (.value "fill id must be non-empty")
  let current ← replayAndVerify db
  match findEvent db.events fillId with
  | some existing =>
    if existing.payload = .fill fill ∧ existing.occurredAtUtc = occurredAt then
      return (false, db)
    else .error (.idempotency "fill id has different payload")
  | none =>
    validateTimestampOrder db occurredAt
    requireBalance current fill
    let orders ← fillOrder db.orders occurredAt fill
    let events ← insertEvent db fillId occurredAt (.fill fill)
    let db' ← commit { events, orders }
    return (true, db')

/-- `transition_order_status`: the database, and whether the transition is new. -/
def transitionOrderStatus (db : Database) (orderId : PaperId) (key : Key) (status : OrderStatus)
    (occurredAt : ℤ) (reason : Option String) : Except Failure (Bool × Database) := do
  reject (orderId.isNonempty = false) (.value "order id must be non-empty")
  reject (key.isNonempty = false) (.value "idempotency key must be non-empty")
  reject (∃ text ∈ reason, isNonemptyText text = false) (.value "reason must be non-empty")
  let payload := Payload.orderStatus ⟨key, orderId, reason, status⟩
  let _ ← replayAndVerify db
  match findEvent db.events (.orderStatus key) with
  | some existing =>
    if existing.payload = payload ∧ existing.occurredAtUtc = occurredAt then return (false, db)
    else .error (.idempotency "idempotency key has different transition payload")
  | none =>
    match findOrder db.orders orderId with
    | none => .error (.value "unknown order id")
    | some order =>
      reject (legalTransition order.status status order.requestedQuantity order.filledQuantity =
        false) (.value "illegal order status transition")
      validateTimestampOrder db occurredAt
      let events ← insertEvent db (.orderStatus key) occurredAt payload
      let db' ← commit {
        events
        orders := replaceOrder db.orders { order with status, updatedAtUtc := occurredAt } }
      return (true, db')

/-! ## What a successful mutation does -/

/-- A database that `_replay_and_verify` accepts. -/
def Verified (db : Database) : Prop := ∃ snapshot, replayAndVerify db = .ok snapshot

/-- A verified database that has one more event, with a new identity, not before its last. -/
structure Appended (db : Database) (eventId : EventId) (occurredAt : ℤ) (payload : Payload)
    (db' : Database) : Prop where
  before : Verified db
  after : Verified db'
  events : db'.events = db.events ++ [db.nextEvent eventId occurredAt payload]
  fresh : findEvent db.events eventId = none
  ordered : ∀ last ∈ db.events.getLast?, last.occurredAtUtc ≤ occurredAt

/-- A commit passes exactly the verified databases. -/
theorem commit_eq_ok {db db' : Database} : commit db = .ok db' ↔ Verified db ∧ db' = db := by
  simp only [commit, Except.bind_eq_ok, Except.pure_eq_ok, Verified]
  constructor
  · rintro ⟨snapshot, hsnapshot, rfl⟩
    exact ⟨⟨snapshot, hsnapshot⟩, rfl⟩
  · rintro ⟨⟨snapshot, hsnapshot⟩, rfl⟩
    exact ⟨snapshot, hsnapshot, rfl⟩

/-- An insertion passes exactly when the identifier is new. -/
theorem insertEvent_eq_ok {db : Database} {eventId : EventId} {occurredAt : ℤ}
    {payload : Payload} {events : List StoredEvent} :
    insertEvent db eventId occurredAt payload = .ok events ↔ findEvent db.events eventId = none ∧
      events = db.events ++ [db.nextEvent eventId occurredAt payload] := by
  simp only [insertEvent, Except.bind_eq_ok, reject_eq_ok, Except.pure_eq_ok]
  constructor
  · rintro ⟨_, hfresh, rfl⟩
    exact ⟨by simpa using hfresh, rfl⟩
  · rintro ⟨hfresh, rfl⟩
    exact ⟨⟨⟩, by simp [hfresh], rfl⟩

/-- A timestamp passes exactly when it is not before the last one. -/
theorem validateTimestampOrder_eq_ok {db : Database} {occurredAt : ℤ} {u : Unit} :
    validateTimestampOrder db occurredAt = .ok u ↔
      ∀ last ∈ db.events.getLast?, last.occurredAtUtc ≤ occurredAt := by
  simp [validateTimestampOrder]

/-- `append_event` appends its event. -/
theorem appendEvent_appended {db db' : Database} {eventId : EventId} {occurredAt : ℤ}
    {payload : Payload} (h : appendEvent db eventId occurredAt payload = .ok db') :
    Appended db eventId occurredAt payload db' := by
  simp only [appendEvent, Except.bind_eq_ok, reject_eq_ok, validateTimestampOrder_eq_ok,
    insertEvent_eq_ok, commit_eq_ok] at h
  obtain ⟨_, -, _, -, _, -, snapshot, hbefore, _, -, _, hordered, _, ⟨hfresh, rfl⟩, hafter,
    rfl⟩ := h
  exact ⟨⟨snapshot, hbefore⟩, hafter, rfl, hfresh, hordered⟩

/-- `record_order_once` records a new order, or finds exactly the one it was given. -/
theorem recordOrderOnce_cases {db db' : Database} {key : Key} {side : Side} {quantity : ℚ}
    {orderId : PaperId} {occurredAt : ℤ} {status : OrderStatus} {isNew : Bool}
    (h : recordOrderOnce db key side quantity orderId occurredAt status = .ok (isNew, db')) :
    isNew = false ∧ db' = db ∧
        (∃ existing ∈ db.orders, existing.idempotencyKey = key ∧ existing.orderId = orderId) ∨
    isNew = true ∧ 0 < quantity ∧ findOrder db.orders orderId = none ∧
      Appended db (.orderCreated key) occurredAt
        (.orderCreated ⟨key, orderId, side, quantity, 0, status⟩) db' := by
  simp only [recordOrderOnce, Except.bind_eq_ok, reject_eq_ok] at h
  obtain ⟨_, -, _, -, _, hquantity, _, -, current, hbefore, h⟩ := h
  cases hfound : db.orders.find? (·.idempotencyKey = key) with
  | some existing =>
    simp only [hfound] at h
    split_ifs at h with hsame
    simp only [Except.pure_eq_ok, Prod.mk.injEq] at h
    have hkey := List.find?_some hfound
    exact Or.inl ⟨h.1.symm, h.2.symm, existing, List.mem_of_find?_eq_some hfound,
      by simpa using hkey, hsame.1⟩
  | none =>
    simp only [hfound, Except.bind_eq_ok, reject_eq_ok, validateTimestampOrder_eq_ok,
      insertEvent_eq_ok, commit_eq_ok, Except.pure_eq_ok, Prod.mk.injEq] at h
    obtain ⟨_, hid, _, -, _, hordered, _, ⟨hfresh, rfl⟩, _, ⟨hafter, rfl⟩, rfl, rfl⟩ := h
    exact Or.inr ⟨rfl, not_le.mp hquantity, by simpa using hid,
      ⟨current, hbefore⟩, hafter, rfl, hfresh, hordered⟩

/-- `append_fill` appends its fill, or finds exactly the one it was given. -/
theorem appendFill_cases {db db' : Database} {fill : RawFill} {occurredAt : ℤ}
    {fillId : EventId} {isNew : Bool}
    (h : appendFill db fill occurredAt fillId = .ok (isNew, db')) :
    isNew = false ∧ db' = db ∧ (∃ existing ∈ db.events, existing.eventId = fillId ∧
        existing.payload = .fill fill) ∨
    isNew = true ∧ 0 < fill.quantity ∧ 0 < fill.price ∧ 0 ≤ fill.fee ∧
      Appended db fillId occurredAt (.fill fill) db' := by
  simp only [appendFill, Except.bind_eq_ok, reject_eq_ok] at h
  obtain ⟨_, -, _, hquantity, _, hprice, _, hfee, _, -, current, hbefore, h⟩ := h
  cases hfound : findEvent db.events fillId with
  | some existing =>
    simp only [hfound] at h
    split_ifs at h with hsame
    simp only [Except.pure_eq_ok, Prod.mk.injEq] at h
    have hid := List.find?_some hfound
    exact Or.inl ⟨h.1.symm, h.2.symm, existing, List.mem_of_find?_eq_some hfound,
      by simpa using hid, hsame.1⟩
  | none =>
    simp only [hfound, Except.bind_eq_ok, validateTimestampOrder_eq_ok, insertEvent_eq_ok,
      commit_eq_ok, Except.pure_eq_ok, Prod.mk.injEq] at h
    obtain ⟨_, hordered, _, -, orders, -, _, ⟨-, rfl⟩, _, ⟨hafter, rfl⟩, rfl, rfl⟩ := h
    exact Or.inr ⟨rfl, not_le.mp hquantity, not_le.mp hprice, not_lt.mp hfee,
      ⟨current, hbefore⟩, hafter, rfl, hfound, hordered⟩

/-- `transition_order_status` appends its transition, or finds exactly the one it was
given. -/
theorem transitionOrderStatus_cases {db db' : Database} {orderId : PaperId} {key : Key}
    {status : OrderStatus} {occurredAt : ℤ} {reason : Option String} {isNew : Bool}
    (h : transitionOrderStatus db orderId key status occurredAt reason = .ok (isNew, db')) :
    isNew = false ∧ db' = db ∧ (∃ existing ∈ db.events, existing.eventId = .orderStatus key ∧
        existing.payload = .orderStatus ⟨key, orderId, reason, status⟩) ∨
    isNew = true ∧ Appended db (.orderStatus key) occurredAt
        (.orderStatus ⟨key, orderId, reason, status⟩) db' := by
  simp only [transitionOrderStatus, Except.bind_eq_ok, reject_eq_ok] at h
  obtain ⟨_, -, _, -, _, -, current, hbefore, h⟩ := h
  cases hfound : findEvent db.events (.orderStatus key) with
  | some existing =>
    simp only [hfound] at h
    split_ifs at h with hsame
    simp only [Except.pure_eq_ok, Prod.mk.injEq] at h
    have hid := List.find?_some hfound
    exact Or.inl ⟨h.1.symm, h.2.symm, existing, List.mem_of_find?_eq_some hfound,
      by simpa using hid, hsame.1⟩
  | none =>
    simp only [hfound] at h
    cases horder : findOrder db.orders orderId with
    | none => simp [horder] at h
    | some order =>
      simp only [horder, Except.bind_eq_ok, validateTimestampOrder_eq_ok, insertEvent_eq_ok,
        commit_eq_ok, Except.pure_eq_ok, Prod.mk.injEq] at h
      obtain ⟨_, -, _, hordered, _, ⟨-, rfl⟩, _, ⟨hafter, rfl⟩, rfl, rfl⟩ := h
      exact Or.inr ⟨rfl, ⟨current, hbefore⟩, hafter, rfl, hfound, hordered⟩

end AutoBit.Store
