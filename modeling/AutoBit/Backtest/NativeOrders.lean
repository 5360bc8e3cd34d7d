import AutoBit.Basic
import Mathlib.Algebra.Order.Ring.Rat
import Mathlib.Data.List.Basic

/-!
# The broker of a backtest

`EventBacktestBroker` keeps the native orders of one run. An order is known by its place among
the orders that were created. The native broker is assumed to execute an order in bits, each of
a positive quantity that is still open, to keep after each bit a position that is zero or
exceeds `1e-12`, and to queue a notification of every change of an order. A notification shares
the bits of its order, and repeats the status of the moment.
-/

namespace AutoBit.Backtest

/-- The status of a native order. -/
inductive NativeStatus where
  | created
  | submitted
  | accepted
  | partial_
  | completed
  | canceled
  | expired
  | margin
  | rejected
  deriving DecidableEq, Repr

/-- `order.alive()`. -/
def NativeStatus.alive : NativeStatus → Bool
  | .created | .submitted | .accepted | .partial_ => true
  | _ => false

/-- The order was executed or is closed. -/
def NativeStatus.started : NativeStatus → Bool
  | .created | .submitted | .accepted => false
  | _ => true

/-- The order is in the queue `pending` of the broker. -/
def NativeStatus.isPending (status : NativeStatus) : Bool :=
  status = .accepted || status = .partial_

/-- `order.exectype`. -/
inductive ExecType where
  | market
  | stop
  deriving DecidableEq, Repr

/-- What the engine attaches to an order and reads back. A float that is not a number is `none`. -/
structure OrderInfo where
  signalTime : ℤ
  reason : String
  stopPrice : Option (Option ℚ) := none
  terminalReferencePrice : Option ℚ := none
  executionAtr : Option ℚ := none
  initialAtrMult : ℚ := 0
  deriving DecidableEq, Repr

/-- An execution bit: `size` is absolute, and `psize` is the position after the bit. -/
structure ExecutionBit where
  dt : ℤ
  size : ℚ
  price : ℚ
  comm : ℚ
  psize : ℚ
  deriving DecidableEq, Repr

/-- A native order. -/
structure NativeOrder where
  isBuy : Bool
  execType : ExecType
  size : ℚ
  info : OrderInfo
  status : NativeStatus
  exbits : List ExecutionBit := []
  deriving DecidableEq, Repr

/-- `order.executed.remsize`, as an absolute value. -/
def NativeOrder.remsize (order : NativeOrder) : ℚ :=
  order.size - (order.exbits.map ExecutionBit.size).sum

/-- `order.executed.price`: the average price of the bits. -/
def NativeOrder.executedPrice (order : NativeOrder) : ℚ :=
  (order.exbits.map fun bit => bit.size * bit.price).sum / (order.exbits.map ExecutionBit.size).sum

/-- An order with one more bit. -/
def NativeOrder.withBit (order : NativeOrder) (bit : ExecutionBit) :
    NativeOrder :=
  let executed := { order with exbits := order.exbits ++ [bit] }
  { executed with status := if executed.remsize = 0 then .completed else .partial_ }

/-- A notification of an order: what its clone does not share with it. -/
structure Notification where
  ref : ℕ
  status : NativeStatus
  executedPrice : ℚ
  deriving DecidableEq, Repr

/-- The notification of an order as it is. -/
def NativeOrder.notification (order : NativeOrder) (ref : ℕ) : Notification :=
  ⟨ref, order.status, order.executedPrice⟩

/-- What the market offers to an order: a quantity, a price and the commission on it. -/
structure Offer where
  size : ℚ
  price : ℚ
  comm : ℚ
  deriving DecidableEq, Repr

/-- The native broker: every order created, the position, the cash, and the notifications that
are queued. -/
structure NativeBroker where
  orders : List NativeOrder := []
  position : ℚ := 0
  cash : ℚ
  notifs : List Notification := []
  deriving DecidableEq, Repr

namespace NativeBroker

/-- `_has_live_order`. -/
def hasLiveOrder (broker : NativeBroker) (isBuy : Bool) : Bool :=
  broker.orders.any fun order => order.status.alive && order.isBuy == isBuy

/-- `get_orders_open()` is not empty. -/
def hasOpenOrders (broker : NativeBroker) : Bool :=
  broker.orders.any fun order => order.status.isPending

/-- `self.notify(order)`. -/
def notify (broker : NativeBroker) (ref : ℕ) : NativeBroker :=
  match broker.orders[ref]? with
  | some order => { broker with notifs := broker.notifs ++ [order.notification ref] }
  | none => broker

/-- A notification leaves the orders alone. -/
@[simp] theorem notify_orders (broker : NativeBroker) (ref : ℕ) :
    (broker.notify ref).orders = broker.orders := by
  unfold notify
  split <;> rfl

/-- A notification leaves the position alone. -/
@[simp] theorem notify_position (broker : NativeBroker) (ref : ℕ) :
    (broker.notify ref).position = broker.position := by
  unfold notify
  split <;> rfl

/-- A notification leaves the cash alone. -/
@[simp] theorem notify_cash (broker : NativeBroker) (ref : ℕ) :
    (broker.notify ref).cash = broker.cash := by
  unfold notify
  split <;> rfl

/-- A new order of the run, with the notification of its status. -/
def create (broker : NativeBroker) (order : NativeOrder) : NativeBroker × ℕ :=
  ({ broker with
    orders := broker.orders ++ [order]
    notifs := broker.notifs ++ [order.notification broker.orders.length] }, broker.orders.length)

/-- The status of an order changes, and a notification is queued. -/
def change (broker : NativeBroker) (ref : ℕ) (status : NativeStatus) : NativeBroker :=
  match broker.orders[ref]? with
  | some order =>
    { broker with orders := broker.orders.set ref { order with status } }.notify ref
  | none => broker

/-- `buy`: a duplicate entry is rejected. -/
def buy (broker : NativeBroker) (size : ℚ) (info : OrderInfo) : NativeBroker × ℕ :=
  let order : NativeOrder := { isBuy := true, execType := .market, size, info, status := .submitted }
  if 0 < broker.position ∨ broker.hasLiveOrder true = true then
    broker.create { order with status := .rejected }
  else broker.create order

/-- `sell`: an exit of more than the position and a duplicate exit are rejected. -/
def sell (broker : NativeBroker) (execType : ExecType) (size : ℚ) (info : OrderInfo) :
    NativeBroker × ℕ :=
  let order : NativeOrder := { isBuy := false, execType, size, info, status := .submitted }
  if max 0 broker.position + 1 / 10 ^ 12 < size ∨ broker.hasLiveOrder false = true then
    broker.create { order with status := .rejected }
  else broker.create order

/-- `cancel`: an order that is alive is submitted or pending, and leaves that queue. -/
def cancel (broker : NativeBroker) (ref : ℕ) : NativeBroker :=
  match broker.orders[ref]? with
  | some order => if order.status.alive then broker.change ref .canceled else broker
  | none => broker

/-- `cancel_end_of_data`, which cancels an order from any queue. -/
def cancelEndOfData (broker : NativeBroker) (ref : ℕ) : NativeBroker := broker.cancel ref

/-- The position after a bit of an order. -/
def positionAfter (broker : NativeBroker) (isBuy : Bool) (size : ℚ) : ℚ :=
  if isBuy then broker.position + size else broker.position - size

/-- The cash after a bit of an order. -/
def cashAfter (broker : NativeBroker) (isBuy : Bool) (offer : Offer) : ℚ :=
  if isBuy then broker.cash - offer.size * offer.price - offer.comm
  else broker.cash + offer.size * offer.price - offer.comm

/-- What the native broker can execute of an order. -/
def Executable (broker : NativeBroker) (order : NativeOrder) (offer : Offer) : Prop :=
  order.status.isPending = true ∧ 0 < offer.size ∧ offer.size ≤ order.remsize ∧
    (broker.positionAfter order.isBuy offer.size = 0 ∨
      1 / 10 ^ 12 < broker.positionAfter order.isBuy offer.size)

instance (broker : NativeBroker) (order : NativeOrder) (offer : Offer) :
    Decidable (broker.Executable order offer) :=
  inferInstanceAs (Decidable (_ ∧ _ ∧ _ ∧ (_ ∨ _)))

/-- `_execute`: an offer that the native broker cannot execute is passed over. -/
def execute (broker : NativeBroker) (ref : ℕ) (dt : ℤ) (offer : Offer) : NativeBroker :=
  match broker.orders[ref]? with
  | some order =>
    if broker.Executable order offer then
      let psize := broker.positionAfter order.isBuy offer.size
      let bit : ExecutionBit := ⟨dt, offer.size, offer.price, offer.comm, psize⟩
      { broker with
        orders := broker.orders.set ref (order.withBit bit)
        position := psize
        cash := broker.cashAfter order.isBuy offer }.notify ref
    else broker
  | none => broker

/-- `submit_accept`. -/
def submitAccept (broker : NativeBroker) (ref : ℕ) : NativeBroker := broker.change ref .accepted

end NativeBroker

/-- What the native broker does in one matching cycle, order by order. -/
inductive MatchEvent where
  | accept (ref : ℕ)
  | retire (ref : ℕ) (status : NativeStatus)
  | fill (ref : ℕ) (offer : Offer)
  deriving DecidableEq, Repr

/-- An event of a matching cycle: a submitted order is accepted, an order that is alive expires, is
rejected or lacks the cash, or a pending order is executed. -/
def NativeBroker.matchEvent (broker : NativeBroker) (now : ℤ) : MatchEvent → NativeBroker
  | .accept ref =>
    match broker.orders[ref]? with
    | some order => if order.status = .submitted then broker.submitAccept ref else broker
    | none => broker
  | .retire ref status =>
    match broker.orders[ref]? with
    | some order =>
      if order.status.alive = true ∧ status ∈ [.expired, .margin, .rejected] then
        broker.change ref status
      else broker
    | none => broker
  | .fill ref offer => broker.execute ref now offer

end AutoBit.Backtest
