import AutoBit.Alerts.Notifier
import AutoBit.Service.Chronology
import AutoBit.Service.Position

/-!
# One paper cycle

`processCompletedCandle` is the cycle of one completed candle: an attempt, the fills of the
bar with their protection, the observation of the position, the risk decision, the decision
of the engine and its order or stop, and a completion. Each is a transaction of its own. A
process may stop before any of them, or find there that its lease is lost: either way the
cycle goes no further, and all that is left of it are the transactions before.
-/

namespace AutoBit.Service

open Library Store Risk Data Strategy Broker Alerts

/-- Where a process may stop, or find its lease lost. -/
inductive CyclePoint where
  | attempt
  | afterAttempt
  | fills
  | initialStop
  | afterOpen
  | position
  | afterPosition
  | risk (point : RunPoint)
  | order
  | afterOrder
  | trailingStop
  | completion
  deriving DecidableEq, Repr

/-- Where the lease is renewed. -/
inductive RenewPoint where
  | loaded
  | backfilled
  | prepared
  deriving DecidableEq, Repr

/-- What a call meets: the clock, its luck with the lease, where it runs on, and the source. -/
structure Chances (Cell : Type) where
  now : ℤ
  acquires : Bool
  renews : RenewPoint → Bool
  runs : CyclePoint → Bool
  source : CandleSource Cell

/-- The configuration of `PaperService`, its broker and its indicators. -/
structure ServiceConfig (Cell : Type) where
  pd : Pandas Cell
  kernels : TrendKernels
  strategy : IndicatorConfig
  risk : RiskConfig
  costs : CostConfig
  brokerCosts : CostConfig

/-- `CycleResult`. -/
structure CycleResult where
  status : CycleStatus
  endUtc : ℤ
  createdOrderIds : List PaperId := []
  filledOrderIds : List PaperId := []
  reasons : List String := []
  equity : Option ℚ := none
  deriving DecidableEq, Repr

/-- What a call returns, and what it handed to the engine. -/
structure Outcome where
  result : CycleResult
  handed : Option DecisionInput := none
  deriving DecidableEq, Repr

/-! ## Transactions -/

section Transactions

variable {α : Type}

/-- `fenced_cycle_transaction` around a body that returns something. -/
def fencedCycle (runs : Bool) (body : Stateful Failure Database α) :
    Stateful Failure Database α :=
  transaction do
    liftM (reject (runs = false) (Failure.leaseLost "paper cycle lease ownership or epoch was lost"))
    body

/-- An operation of the broker in a transaction that is open. -/
def brokerCall (operation : Database → Except Failure (α × Database)) :
    Stateful Failure Database α := do
  let db ← get
  let (result, db') ← liftM (operation db)
  modify fun _ => db'
  return result

/-- An operation of the broker that returns nothing. -/
def brokerUpdate (operation : Database → Except Failure Database) :
    Stateful Failure Database Unit := do
  let db ← get
  let db' ← liftM (operation db)
  modify fun _ => db'

/-- Something that is read off the database. -/
def readDatabase (view : Database → Except Failure α) : Stateful Failure Database α := do
  let db ← get
  liftM (view db)

/-- `_fault`: a hook may raise at a boundary. -/
def fault (runs : Bool) (boundary : String) : Stateful Failure Database Unit :=
  liftM (reject (runs = false) (Failure.service boundary))

end Transactions

/-! ## The evidence before a cycle -/

/-- `_validated_snapshot`. -/
def validatedSnapshot (db : Database) : Except Failure PaperSnapshot := do
  let snapshot ← replayState db
  let _ ← validateHealthAndRiskChain snapshot
  return snapshot

/-- What is read before the lease is taken, and again under it: the completed ends and the
attempted ones. -/
def cycleEvidence (latestMatured : ℤ) (db : Database) : Except Failure (List ℤ × List ℤ) := do
  let snapshot ← validatedSnapshot db
  validateOperationalAlertChain snapshot.eventEvidence
  let _ ← reconcile db
  let completed ← completedCycleEnds db snapshot.eventEvidence latestMatured
  let attempted ← validatedCycleAttempts snapshot.eventEvidence completed latestMatured
  return (completed, attempted)

/-- `_has_completed_cycle` of a validated snapshot. -/
def cycleIsCompleted (end_ : ℤ) (db : Database) : Except Failure Bool := do
  let snapshot ← validatedSnapshot db
  hasCompletedCycle db snapshot.eventEvidence end_

/-- `CycleResult(CycleStatus.ALREADY_PROCESSED, end)`. -/
def alreadyProcessed (end_ : ℤ) : Outcome := ⟨{ status := .alreadyProcessed, endUtc := end_ }, none⟩

/-- `CycleResult(CycleStatus.LEASE_HELD, end)`. -/
def leaseHeld (end_ : ℤ) : Outcome := ⟨{ status := .leaseHeld, endUtc := end_ }, none⟩

/-- `_result_after_lost_lease`. -/
def resultAfterLostLease (end_ : ℤ) : Stateful Failure Database Outcome := do
  let completed ← readDatabase (cycleIsCompleted end_)
  return if completed then alreadyProcessed end_ else leaseHeld end_

section Cycle

variable {Cell : Type} [DecidableEq Cell] (c : ServiceConfig Cell) (chances : Chances Cell)
  (end_ barAt : ℤ) (enriched : List TrendRow) (bar : Ohlcv ℚ)

/-- `_record_attempt`. -/
def recordAttempt (attempted : List ℤ) : Stateful Failure Database Unit :=
  if end_ ∈ attempted then return ()
  else
    fencedCycleTransaction (chances.runs .attempt)
      (recordEvent (.cycleAttempt end_) (end_ - fourHours)
        (.paperCycleAttempt ⟨end_, cycleAttemptVersion⟩))

/-- `_record_completion`. -/
def recordCompletion (result : CycleResult) : Stateful Failure Database Unit :=
  fencedCycleTransaction (chances.runs .completion)
    (recordEvent (.cycle result.endUtc) result.endUtc
      (.paperCycle ⟨result.createdOrderIds, result.endUtc, result.filledOrderIds, result.reasons,
        result.status⟩))

/-! ## Contexts of legacy entries -/

/-- The sizing evidence of a signal row. Where a value is not finite, the binding raises. -/
def signalContext (row : TrendRow) (decision : RiskDecision) (riskEventId : EventId) :
    Except Failure EntryContext := do
  let invalid := fun key => Failure.reconciliation ("paper evidence has invalid " ++ key)
  let signalPrice ← require (finite row.values.close) (invalid "signal_price")
  let entryAtr ← require (finite row.atr) (invalid "entry_atr")
  let baselineAtrPct ← require (finite row.baselineAtrPct) (invalid "baseline_atr_pct")
  return ⟨signalPrice, entryAtr, c.strategy.initialAtrMult, baselineAtrPct, decision.riskRate,
    decision.exposureCap, riskEventId⟩

/-- The risk state that an event of the type `BREAKER_STATE` holds for a signal. -/
def signalRisk (signalAt : ℤ) (event : StoredEvent) : Option (EventId × BreakerPayload) :=
  match event.payload with
  | .breakerState payload =>
    if payload.lastRiskAt = some signalAt then some (event.eventId, payload) else none
  | _ => none

/-- The last row of a complete window that ends at a signal. -/
def signalRow (original : List TrendRow) (signalAt : ℤ) : Option TrendRow :=
  if original.length = c.strategy.warmupBars + 1 then
    original.getLast?.filter fun row => row.time = nanoseconds signalAt
  else none

/-- `_legacy_entry_context`. Binding a context may raise, and does so later. -/
def legacyEntryContext (order : PaperOrder) :
    Stateful Failure Database (Option (Except Failure EntryContext)) := do
  let snapshot ← readDatabase replayState
  match (snapshot.eventEvidence.filterMap (signalRisk order.signalAtUtc)).getLast? with
  | none => return none
  | some (riskEventId, payload) =>
    let risk ← liftM (riskStateFromPayload payload)
    let signalEnd := order.signalAtUtc + fourHours
    let raw ← load (chances.source.loadCompletedCandles signalEnd)
    let quality ← liftM (canonicalizeOhlcv c.pd raw (some (nanoseconds signalEnd))
      defaultSpikeRangeRatio)
    let original := computeTrendIndicators c.kernels c.strategy quality.frame
    let signal ← liftM (require (signalRow c original order.signalAtUtc)
      (Failure.service "legacy entry requires its original complete signal window"))
    return some (signalContext c signal risk.decision riskEventId)

/-- The contexts that were prepared, by order. -/
abbrev PreparedContexts := List (PaperId × Option (Except Failure EntryContext))

/-- One round of the loop of `_prepare_legacy_entry_contexts`. -/
def prepareRound (prepared : PreparedContexts) (order : PaperOrder) :
    Stateful Failure Database PreparedContexts := do
  liftM (reject (order.eligibleOpenUtc < barAt)
    (Failure.service "active market order missed its eligible open"))
  if order.eligibleOpenUtc = barAt ∧ order.side = .buy ∧ order.executionContext = none then
    let context ← legacyEntryContext c chances order
    return prepared ++ [(order.orderId, context)]
  else return prepared

/-- `_prepare_legacy_entry_contexts`. -/
def prepareLegacyEntryContexts : Stateful Failure Database PreparedContexts := do
  let account ← readDatabase reconcile
  account.activeOrders.foldlM (prepareRound c chances barAt) []

/-! ## The fills of a bar -/

/-- What the fills of a bar come to: the filled orders, and whether the last one was an
entry. -/
structure FillProgress where
  filled : List PaperId := []
  entryFilled : Bool := false
  deriving DecidableEq, Repr

/-- One more fill, if there is one. -/
def FillProgress.add (progress : FillProgress) : Option PaperFill → FillProgress
  | none => progress
  | some fill => ⟨progress.filled ++ [fill.orderId], fill.side = .buy⟩

/-- Bind the prepared context of an entry that has none. -/
def bindPrepared (prepared : PreparedContexts) (order : PaperOrder) :
    Stateful Failure Database Unit :=
  if order.side = .buy ∧ order.executionContext = none then do
    let found ← liftM (require (prepared.lookup order.orderId)
      (Failure.service "pending BUY changed during legacy context preparation"))
    match found with
    | none => return ()
    | some context =>
      let context ← liftM context
      let _ ← brokerCall fun db => bindEntryContext db order.orderId context
      return ()
  else return ()

/-- One round of the loop over the active orders. -/
def fillRound (prepared : PreparedContexts) (progress : FillProgress) (order : PaperOrder) :
    Stateful Failure Database FillProgress := do
  liftM (reject (order.eligibleOpenUtc < barAt)
    (Failure.service "active market order missed its eligible open"))
  if order.eligibleOpenUtc = barAt then
    bindPrepared prepared order
    let fill ← brokerCall fun db => processOpen db order.orderId barAt bar.open_ none
    return progress.add fill
  else return progress

/-- `_ensure_stop`. -/
def ensureStop (runs : Bool) (account : Ledger) (activeAfter : Option ℤ)
    (candidate : Option ℚ) : Stateful Failure Database Unit := do
  let position ← readDatabase fun db => openPosition c.strategy db account enriched barAt
  let source := some position.order.orderId
  match account.activeStop with
  | none =>
    let _ ← fencedCycle runs (brokerCall fun db =>
      setStop c.brokerCosts db barAt position.initialStop activeAfter "HARD_STOP" source)
    return ()
  | some active =>
    match candidate.filter fun price => active.stopPrice < price with
    | none => return ()
    | some price =>
      let _ ← fencedCycle runs (brokerCall fun db =>
        setStop c.brokerCosts db barAt price none "TRAILING_STOP" source)
      return ()

/-- The protection of a position that has none. -/
def protectPosition (entryFilled : Bool) : Stateful Failure Database Ledger := do
  let account ← readDatabase reconcile
  if 0 < account.snapshot.btcQuantity ∧ account.activeOrders = [] ∧ account.activeStop = none then
    ensureStop c barAt enriched (chances.runs .initialStop) account
      (if entryFilled then some barAt else none) none
    readDatabase reconcile
  else return account

/-- The stop that may trigger inside the bar. -/
def stopOut (account : Ledger) : Stateful Failure Database (Option PaperFill) :=
  if 0 < account.snapshot.btcQuantity ∧ account.activeOrders = [] then
    brokerCall fun db => processIntrabarStop db barAt bar.open_ bar.low
  else return none

/-- The fills of a bar, once its completion is known to be missing. -/
def fillBar (prepared : PreparedContexts) : Stateful Failure Database (List PaperId) := do
  let account ← readDatabase reconcile
  let progress ← account.activeOrders.foldlM (fillRound barAt bar prepared) {}
  fault (chances.runs .afterOpen || !progress.entryFilled) "after_pending_open"
  let account ← protectPosition c chances barAt enriched progress.entryFilled
  let stopFill ← stopOut barAt bar account
  return (progress.add stopFill).filled

/-- The transaction of the fills: the filled orders, or nothing when the cycle has been
completed meanwhile. -/
def fillTransaction (prepared : PreparedContexts) :
    Stateful Failure Database (Option (List PaperId)) :=
  fencedCycle (chances.runs .fills) do
    let snapshot ← readDatabase validatedSnapshot
    liftM (validateOperationalAlertChain snapshot.eventEvidence)
    let completed ← readDatabase fun db => hasCompletedCycle db snapshot.eventEvidence end_
    if completed then return none
    else some <$> fillBar c chances barAt enriched bar prepared

/-! ## The observation of the position -/

/-- The candles that an observation adds: from the window, or from the position history of
the source. -/
def heldCandles (start : ℤ) : Stateful Failure Database (List QualityRow) := do
  let end_ := barAt + fourHours
  let held := heldRows enriched start end_
  if held.map (fun row => row.time) = fourHourRange start barAt then
    liftM (validatedPositionFrame (enrichedCells c.pd) (heldFrame held) start end_)
  else
    let loader ← liftM (require chances.source.loadPositionCandles
      (Failure.service "public position-history backfill is unavailable"))
    let frame ← load (loader start end_)
    liftM (reject (chances.renews .backfilled = false)
      (Failure.leaseLost "paper cycle lease was lost during position-history backfill"))
    liftM (validatedPositionFrame c.pd frame start end_)

/-- The initial stop that an observation repeats. -/
def observedInitialStop (entry : PaperFill) (observation : Option (Stamped PositionObservation))
    (db : Database) : Except Failure ℚ :=
  match observation with
  | some before => .ok before.body.initialStop
  | none => do
    let recorded ← brokerInitialStop db entry.orderId
    require recorded (.service "position history lacks immutable initial protection")

/-- `_observe_position`. -/
def observeHeldPosition (account : Ledger) : Stateful Failure Database Unit := do
  let entry ← liftM (openEntry account)
  let observation ← readDatabase fun db => positionObservation db entry.orderId
  if ∃ before ∈ observation, barAt ≤ before.occurredAtUtc then
    liftM (reject (∃ before ∈ observation, barAt < before.occurredAtUtc)
      (Failure.service "position observation is ahead of current candle"))
  else
    let start := match observation with
      | some before => before.occurredAtUtc + fourHours
      | none => entry.fillTime
    let held ← heldCandles c chances barAt enriched start
    let initial ← readDatabase (observedInitialStop entry observation)
    fencedCycleTransaction (chances.runs .position)
      (brokerUpdate fun db => observePosition db entry.orderId (candleHighs held) initial)
    fault (chances.runs .afterPosition) "after_position_observation"

/-! ## The decision of a bar -/

/-- `_entry_context`. -/
def submissionContext (row : TrendRow) (decision : RiskDecision) (db : Database) :
    Except Failure EntryContext := do
  let snapshot ← replayState db
  let chain ← validateHealthAndRiskChain snapshot
  let missing := Failure.service "entry sizing lacks same-signal risk evidence"
  let event ← require chain.latestRiskEvent missing
  reject (chain.projection.lastRiskAt ≠ some barAt) missing
  signalContext c row decision event.eventId

/-- What the decision of the engine leads to: the orders that it creates. -/
def carryOut (row : TrendRow) (account : Ledger) (position : Option PositionContext)
    (decision : Decision) : Stateful Failure Database (List PaperId) :=
  match decision.action with
  | .sell reason quantity =>
    if account.activeOrders = [] then do
      let order ← fencedCycle (chances.runs .order) (brokerCall fun db =>
        submitExit c.brokerCosts db barAt quantity account.snapshot.btcQuantity reason none)
      return [order.orderId]
    else return []
  | .buy reason quantity => do
    let order ← fencedCycle (chances.runs .order) do
      let context ← readDatabase (submissionContext c barAt row decision.risk)
      brokerCall fun db => submitEntry c.brokerCosts db barAt quantity reason (some context)
    fault (chances.runs .afterOrder) "after_order_acceptance"
    return [order.orderId]
  | .hold =>
    if position ≠ none ∧ account.activeOrders = [] then do
      ensureStop c barAt enriched (chances.runs .trailingStop) account none decision.nextStop
      return []
    else return []

/-- The trades as the risk policy counts them. -/
def closedTrades (account : Ledger) : List ClosedTrade :=
  account.trades.map fun trade => ⟨trade.netPnl, trade.exitTime⟩

/-- The observation of a position, if there is one. -/
def observeIfHeld (account : Ledger) : Stateful Failure Database Unit :=
  if 0 < account.snapshot.btcQuantity then observeHeldPosition c chances barAt enriched account
  else return ()

/-- The part of the cycle after its fills. -/
def closeBar (row : TrendRow) (filled : List PaperId) : Stateful Failure Database Outcome := do
  let account ← readDatabase reconcile
  observeIfHeld c chances barAt enriched account
  let equity ← liftM (markToMarket account bar.close)
  let risk ← riskDecision c.risk (fun point => chances.runs (.risk point)) barAt
    (riskRow row equity (closedTrades account))
  let account ← readDatabase reconcile
  let position ← readDatabase fun db =>
    decisionPosition c.strategy db account enriched barAt
  let handed : DecisionInput :=
    { row := decisionRow row
      cash := account.snapshot.cash
      equity
      position
      hasPendingOrder := account.activeOrders ≠ []
      risk }
  let decision := Strategy.decide c.strategy.toStrategyConfig c.costs handed
  let created ← carryOut c chances barAt enriched row account position decision
  let result : CycleResult :=
    { status := .processed
      endUtc := end_
      createdOrderIds := created
      filledOrderIds := filled
      reasons := risk.reasons
      equity := some equity }
  recordCompletion chances result
  return ⟨result, some handed⟩

/-! ## The cycle -/

/-- The completion of a cycle whose candle is unsafe, with nothing to execute or protect. -/
def completeUnsafe : Stateful Failure Database Outcome := do
  let account ← readDatabase reconcile
  let snapshot ← readDatabase replayState
  liftM (reject (0 < account.snapshot.btcQuantity ∨ account.activeOrders ≠ [] ∨
      snapshot.pendingOrders ≠ [])
    (Failure.service "unsafe latest candle prevents pending execution or protection obligation"))
  let result : CycleResult :=
    { status := .unsafeData, endUtc := end_, reasons := ["LATEST_CANDLE_UNSAFE"] }
  recordCompletion chances result
  return ⟨result, none⟩

/-- The part of the cycle for a safe candle. -/
def processSafeBar (row : TrendRow) : Stateful Failure Database Outcome := do
  let prepared ← prepareLegacyEntryContexts c chances barAt
  if chances.renews .prepared = false then resultAfterLostLease end_
  else
    let completed ← readDatabase (cycleIsCompleted end_)
    if completed then return alreadyProcessed end_
    else
      let filled ← fillTransaction c chances end_ barAt enriched bar prepared
      match filled with
      | none => return alreadyProcessed end_
      | some filled => closeBar c chances end_ barAt enriched bar row filled

/-- The row of the latest candle, with its values, when it is safe. -/
def latestRow : Option (TrendRow × Ohlcv ℚ) := do
  let row ← rowAt enriched barAt
  let bar ← executionBar row.toQualityRow
  return (row, bar)

/-- The part of the cycle after the window of candles is loaded. -/
def processWindow : Stateful Failure Database Outcome :=
  match latestRow (end_ - fourHours) enriched with
  | none => completeUnsafe chances end_
  | some (row, bar) => processSafeBar c chances end_ (end_ - fourHours) enriched bar row

/-- The part of `process_completed_candle` under the lease. -/
def leasedCycle : Stateful Failure Database Outcome := do
  let (completed, attempted) ← readDatabase (cycleEvidence (latestCompletedEnd chances.now))
  if end_ ∈ completed then return alreadyProcessed end_
  else
    liftM (requireAttemptTarget end_ attempted completed)
    recordAttempt chances end_ attempted
    fault (chances.runs .afterAttempt) "after_cycle_attempt"
    let raw ← load (chances.source.loadCompletedCandles end_)
    let quality ← liftM (canonicalizeOhlcv c.pd raw (some (nanoseconds end_))
      defaultSpikeRangeRatio)
    let enriched := computeTrendIndicators c.kernels c.strategy quality.frame
    if chances.renews .loaded = false then resultAfterLostLease end_
    else
      let completed ← readDatabase (cycleIsCompleted end_)
      if completed then return alreadyProcessed end_
      else processWindow c chances end_ enriched

/-- `except CycleLeaseLostError`. -/
def afterLostLease : Failure → Option (Stateful Failure Database Outcome)
  | .leaseLost _ => some (resultAfterLostLease end_)
  | _ => none

/-- `PaperService.process_completed_candle`. -/
def processCompletedCandle : Stateful Failure Database Outcome := do
  liftM (requireCycleEnd end_)
  liftM (reject (chances.now < end_ + maturityDelay)
    (Failure.value "completed candle must be at least ten minutes old"))
  let (completed, attempted) ← readDatabase (cycleEvidence (latestCompletedEnd chances.now))
  if end_ ∈ completed then return alreadyProcessed end_
  else
    liftM (requireAttemptTarget end_ attempted completed)
    if chances.acquires = false then return leaseHeld end_
    else recover (leasedCycle c chances end_) (afterLostLease end_)

end Cycle

end AutoBit.Service
