import AutoBit.Live.Journal
import AutoBit.Health.Monitor
import AutoBit.Library.Doubles

/-!
# Applying the facts of an order

The venue reports totals. What an intent has already recorded is subtracted, and the rest is
booked: a first fill opens the position, a further fill extends it, a sale takes its share of
the cost basis, and a fee goes wherever its fill went. Amounts are exact decimals; the price and
the stop of a fill are rounded to doubles.
-/

namespace AutoBit.Live

open Library Health Risk Strategy

/-- What `_apply_order` books: the cash, the position and the closed trades. -/
structure Book where
  cash : ℚ
  position : Option LivePosition
  closedTrades : List ClosedTrade
  deriving DecidableEq, Repr

/-- The part of a state that orders change. -/
def LiveState.book (state : LiveState) : Book := ⟨state.cash, state.position, state.closedTrades⟩

/-- `created_at.replace(microsecond=0)`. -/
def wholeSecond (instant : ℤ) : ℤ := instant / 1000000 * 1000000

/-- `float(funds/quantity)`, where the quotient has the 28 digits of the decimal context. -/
def averagePrice (funds quantity : ℚ) : ℚ := double (decimal28.round (funds / quantity))

/-- `initial_stop_price` of doubles, with `none` for a result that is not finite. -/
def initialStopPrice (entryPrice entryAtr initialAtrMult : ℚ) : Option ℚ :=
  if ∃ value ∈ [entryPrice, entryAtr, initialAtrMult], ¬InRange value ∨ value ≤ 0 then none
  else
    let distance := double (initialAtrMult * entryAtr)
    let stop := double (entryPrice - distance)
    if InRange distance ∧ InRange stop then some stop else none

/-- A distance below half a unit in the last place of the entry price leaves the stop at it. -/
example : initialStopPrice (10 ^ 8) (double (1 / 10 ^ 9)) (5 / 2) = some (10 ^ 8) := by
  decide +kernel

/-- The facts that contradict an intent, or each other. -/
def checkFacts (intent : LiveIntent) (actual : VenueOrder) (at_ : ℤ) : Except LiveError ℚ := do
  let contradiction := LiveError.response "Contradictory cumulative order facts"
  reject (actual.side ≠ intent.side ∨ actual.identifier ≠ intent.identifier ∨
      actual.createdAt < wholeSecond intent.createdAt ∨ at_ < actual.createdAt ∨
      (∃ uuid ∈ intent.venueUuid, uuid ≠ "" ∧ actual.uuid ≠ uuid)) contradiction
  let executedFunds ← require actual.executedFunds contradiction
  reject (actual.executedVolume < intent.quantity ∨ executedFunds < intent.funds ∨
      actual.paidFee < intent.fee ∨
      (actual.side = .bid ∧ actual.price ≠ some intent.amount) ∨
      (actual.side = .ask ∧ actual.volume ≠ some intent.amount)) contradiction
  let quantity := actual.executedVolume - intent.quantity
  let funds := executedFunds - intent.funds
  reject ((quantity = 0 ∧ funds ≠ 0) ∨
      (0 < quantity ∧ (funds ≤ 0 ∨ actual.lastFillAt.isNone = true)))
    (.response "Contradictory incremental fills")
  reject (∃ fill ∈ actual.lastFillAt, at_ < fill) (.response "Future execution fact")
  reject (actual.side = .bid ∧ 0 < quantity ∧
      ¬∃ first ∈ actual.firstFillAt, actual.createdAt ≤ first ∧
        ∃ last ∈ actual.lastFillAt, first ≤ last)
    (.response "Missing or contradictory first buy execution time")
  return executedFunds

/-- The bid branch of `_apply_order`. -/
def bookBid (book : Book) (intent : LiveIntent) (actual : VenueOrder)
    (executedFunds quantity funds fee : ℚ) : Except LiveError Book := do
  reject (intent.amount < executedFunds) (.response "Buy exceeds durable budget")
  let cash := book.cash - (funds + fee)
  if 0 < quantity then
    match book.position with
    | none =>
      let entry := averagePrice funds quantity
      let invalid := LiveError.response "Actual entry has invalid protection"
      let stop ← require (initialStopPrice entry intent.entryAtr intent.initialAtrMult) invalid
      reject (stop ≤ 0) invalid
      let entryAt ← require actual.firstFillAt
        (.response "Missing or contradictory first buy execution time")
      return ⟨cash, some {
        quantity, entryPrice := entry, entryAtr := intent.entryAtr
        initialAtrMult := intent.initialAtrMult, entryAt
        initialStop := stop, currentStop := stop, highWater := entry, heldBars := 0
        costBasis := funds + fee }, book.closedTrades⟩
    | some position =>
      let entry := averagePrice executedFunds actual.executedVolume
      let stop ← require (initialStopPrice entry position.entryAtr position.initialAtrMult)
        (.value "Out of range float values are not JSON compliant")
      return ⟨cash, some { position with
        quantity := position.quantity + quantity
        entryPrice := entry
        initialStop := stop
        currentStop := max position.currentStop stop
        highWater := max position.highWater entry
        costBasis := position.costBasis + funds + fee }, book.closedTrades⟩
  else
    return { book with
      cash
      position := book.position.map fun position =>
        { position with costBasis := position.costBasis + fee } }

/-- `trades[:-1]+(replace(trades[-1],net_pnl=trades[-1].net_pnl-fee),)`. -/
def chargeLast (trades : List ClosedTrade) (fee : ℚ) : List ClosedTrade :=
  match trades.getLast? with
  | some last => trades.dropLast ++ [{ last with netPnl := last.netPnl - fee }]
  | none => trades

/-- The ask branch of `_apply_order`. -/
def bookAsk (book : Book) (intent : LiveIntent) (actual : VenueOrder) (quantity funds fee : ℚ) :
    Except LiveError Book := do
  let cash := book.cash + (funds - fee)
  if 0 < quantity then
    let excess := LiveError.response "Sell exceeds strategy-owned BTC"
    let position ← require book.position excess
    reject (position.quantity < quantity ∨ intent.amount < actual.executedVolume) excess
    let basis := position.costBasis * quantity / position.quantity
    let pnl := position.realizedPnl + funds - fee - basis
    let remaining := position.quantity - quantity
    if remaining = 0 then
      let exitTime ← require actual.lastFillAt (.response "Contradictory incremental fills")
      return ⟨cash, none, book.closedTrades ++ [⟨pnl, exitTime⟩]⟩
    else
      return ⟨cash, some { position with
        quantity := remaining
        costBasis := position.costBasis - basis
        realizedPnl := pnl }, book.closedTrades⟩
  else
    match book.position with
    | some position =>
      return ⟨cash, some { position with realizedPnl := position.realizedPnl - fee },
        book.closedTrades⟩
    | none => return ⟨cash, none, chargeLast book.closedTrades fee⟩

/-- What `_apply_order` books of an order, without the record of the monitor. -/
def bookOrder (book : Book) (intent : LiveIntent) (actual : VenueOrder) (at_ : ℤ) :
    Except LiveError Book := do
  let executedFunds ← checkFacts intent actual at_
  let quantity := actual.executedVolume - intent.quantity
  let funds := executedFunds - intent.funds
  let fee := actual.paidFee - intent.fee
  let booked ←
    match actual.side with
    | .bid => bookBid book intent actual executedFunds quantity funds fee
    | .ask => bookAsk book intent actual quantity funds fee
  reject (booked.cash < 0) (.response "Execution exceeds journal cash")
  return booked

/-- The intent with the totals of the order. -/
def LiveIntent.settled (intent : LiveIntent) (actual : VenueOrder) : LiveIntent :=
  { intent with
    quantity := actual.executedVolume
    funds := actual.executedFunds.getD intent.funds
    fee := actual.paidFee
    venueUuid := some actual.uuid
    terminal := actual.terminal }

/-- The monitor after the fill of an order is checked against the reference price, which it reads
from the texts of both prices. -/
def fillHealth (health : HealthSnapshot) (intent : LiveIntent) (actual : VenueOrder) (at_ : ℤ) :
    HealthSnapshot :=
  let quantity := actual.executedVolume - intent.quantity
  let funds := actual.executedFunds.getD intent.funds - intent.funds
  if 0 < quantity then
    recordFillCheck health (shortestDecimal intent.referencePrice)
      (shortestDecimal (averagePrice funds quantity)) (some at_)
  else health

/-- `record_fill_check` raises on prices whose doubles are not finite and positive. -/
def checkFillPrices (intent : LiveIntent) (actual : VenueOrder) (executedFunds : ℚ) :
    Except LiveError Unit :=
  let quantity := actual.executedVolume - intent.quantity
  let funds := executedFunds - intent.funds
  reject (0 < quantity ∧ ¬(isPositiveFinite (shortestDecimal intent.referencePrice) ∧
      isPositiveFinite (shortestDecimal (averagePrice funds quantity))))
    (.value "fill prices must be finite and positive")

/-- `_apply_order` up to its save: the state and the intent that are written. -/
def settleOrder (state : LiveState) (intent : LiveIntent) (actual : VenueOrder) (at_ : ℤ) :
    Except LiveError (LiveState × LiveIntent) := do
  let executedFunds ← checkFacts intent actual at_
  checkFillPrices intent actual executedFunds
  let booked ← bookOrder state.book intent actual at_
  return ({ state with
    cash := booked.cash
    position := booked.position
    closedTrades := booked.closedTrades
    health := fillHealth state.health intent actual at_ }, intent.settled actual)

end AutoBit.Live
