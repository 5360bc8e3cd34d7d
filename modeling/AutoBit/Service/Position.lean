import AutoBit.Broker.Operations
import AutoBit.Service.Candles

/-!
# The open position

The service reconstructs the open position from the ledger: its entry is the last buy that
left a flat account, its history is the chain of position observations, and before the
first observation of a bar it is recomputed from the window of candles.
-/

namespace AutoBit.Service

open Library Store Risk Data Strategy Broker

/-- `PaperBroker.reconcile`: the account view is a part of the ledger. -/
abbrev reconcile (db : Database) : Except Failure Ledger := buildLedger db

/-- `PaperBroker.position_observation`. -/
def positionObservation (db : Database) (id : PaperId) :
    Except Failure (Option (Stamped PositionObservation)) := do
  let ledger ← buildLedger db
  return latestObservation ledger.positionObservations id

/-- `PaperBroker.initial_stop`. -/
def brokerInitialStop (db : Database) (id : PaperId) : Except Failure (Option ℚ) := do
  let ledger ← buildLedger db
  return initialStop ledger id

/-- `_mark_to_market`. -/
def markToMarket (account : Ledger) (close : ℚ) : Except Failure ℚ := do
  let value := account.snapshot.cash + account.snapshot.btcQuantity * close
  reject (value < 0) (.service "mark-to-market equity is invalid")
  return value

/-! ## The open entry -/

/-- The accumulators of the loop of `_open_entry`. -/
structure EntryScan where
  inventory : ℚ := 0
  openEntry : Option PaperFill := none
  deriving DecidableEq, Repr

/-- One round of the loop of `_open_entry`. -/
def entryRound (scan : EntryScan) (fill : PaperFill) : Except Failure EntryScan :=
  match fill.side with
  | .buy => do
    reject (scan.inventory ≠ 0) (.service "open position contains pyramiding")
    return ⟨scan.inventory + fill.quantity, some fill⟩
  | .sell => do
    let inventory := scan.inventory - fill.quantity
    reject (inventory < 0) (.service "open position fill history oversells")
    return ⟨inventory, if inventory = 0 then none else scan.openEntry⟩

/-- `_open_entry`. -/
def openEntry (account : Ledger) : Except Failure PaperFill := do
  reject (account.snapshot.btcQuantity ≤ 0) (.service "cannot reconstruct a flat position")
  let scan ← account.fills.foldlM entryRound {}
  let mismatch := Failure.service "open position does not reconcile to paper fills"
  let entry ← require scan.openEntry mismatch
  reject (scan.inventory ≠ account.snapshot.btcQuantity) mismatch
  return entry

/-! ## The reconstruction -/

/-- `_OpenPosition`. -/
structure OpenPosition where
  order : PaperOrder
  entryFill : PaperFill
  entryPrice : ℚ
  initialStop : ℚ
  currentStop : ℚ
  highWater : ℚ
  heldBars : ℤ
  deriving DecidableEq, Repr

/-- `int((bar_at - fill_time) / _FOUR_HOURS)`. -/
def heldBars (barAt fillTime : ℤ) : ℤ := (barAt - fillTime).tdiv fourHours

/-- The stop that protects a position: the active one, or the initial one. -/
def currentStop (account : Ledger) (initial : ℚ) : ℚ :=
  match account.activeStop with
  | some active => active.stopPrice
  | none => initial

/-- The position that an entry fill, an initial stop and a high-water mark amount to. -/
def positionOf (account : Ledger) (order : PaperOrder) (entry : PaperFill) (barAt : ℤ)
    (initial highWater : ℚ) : OpenPosition where
  order
  entryFill := entry
  entryPrice := entry.fillPrice
  initialStop := initial
  currentStop := currentStop account initial
  highWater
  heldBars := heldBars barAt entry.fillTime

/-- The initial stop of an entry that has none in the log: from its sizing evidence, or from
the candle of its signal. -/
def reconstructedStop (config : IndicatorConfig) (enriched : List TrendRow) (order : PaperOrder)
    (entry : PaperFill) : Except Failure (Option ℚ) :=
  match order.executionContext with
  | some context =>
    .ok (initialStopPrice entry.fillPrice context.entryAtr context.initialAtrMult)
  | none => do
    let signal ← require (rowAt enriched order.signalAtUtc)
      (.service "entry signal candle is absent from public history")
    let atr ← positiveFinite signal.atr "entry ATR"
    return initialStopPrice entry.fillPrice atr config.initialAtrMult

/-- The initial stop of the second part of `_open_position`. -/
def recomputedStop (config : IndicatorConfig) (db : Database) (enriched : List TrendRow)
    (order : PaperOrder) (entry : PaperFill) : Except Failure ℚ := do
  let recorded ← brokerInitialStop db order.orderId
  let candidate ← match recorded with
    | some price => .ok (some price)
    | none => reconstructedStop config enriched order entry
  let initial ← require candidate (.service "reconstructed initial stop is invalid")
  reject (initial ≤ 0) (.service "reconstructed initial stop is invalid")
  return initial

/-- The high-water mark of the second part of `_open_position`. A high that is no finite
number leaves the history incomplete. -/
def recomputedHighWater (enriched : List TrendRow) (barAt : ℤ) (entry : PaperFill) :
    Except Failure ℚ := do
  let incomplete := Failure.service "held candle history is incomplete"
  let held := enriched.filter fun row =>
    nanoseconds entry.fillTime ≤ row.time ∧ row.time ≤ nanoseconds barAt
  let highs : List Reading := held.map fun row => row.values.high
  reject (highs = [] ∨ ∃ high ∈ highs, high.isNan = true) incomplete
  require (finite (Reading.maximum highs)) incomplete

/-- `_open_position`. -/
def openPosition (config : IndicatorConfig) (db : Database) (account : Ledger)
    (enriched : List TrendRow) (barAt : ℤ) : Except Failure OpenPosition := do
  let entry ← openEntry account
  let order ← orderById db entry.orderId
  let observation ← positionObservation db order.orderId
  match observation.filter fun observed => observed.occurredAtUtc = barAt with
  | some observed =>
    return positionOf account order entry barAt observed.body.initialStop observed.body.highWater
  | none => do
    let initial ← recomputedStop config db enriched order entry
    let highWater ← recomputedHighWater enriched barAt entry
    return positionOf account order entry barAt initial highWater

/-- `_position_context`. -/
def positionContext (position : OpenPosition) (quantity : ℚ) : PositionContext :=
  ⟨position.entryPrice, position.initialStop, position.currentStop, position.highWater, quantity,
    position.heldBars⟩

/-- The position that the engine is given: none for a flat account. -/
def decisionPosition (config : IndicatorConfig) (db : Database) (account : Ledger)
    (enriched : List TrendRow) (barAt : ℤ) : Except Failure (Option PositionContext) := do
  if 0 < account.snapshot.btcQuantity then
    let position ← openPosition config db account enriched barAt
    return some (positionContext position account.snapshot.btcQuantity)
  else return none

end AutoBit.Service
