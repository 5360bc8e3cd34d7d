import AutoBit.Broker.Orders
import AutoBit.Service.Cycle

/-!
# The oldest unfinished cycle

A scheduler that starts asks the service where to go on. The answer comes from durable
evidence alone: what the evidence observes must lie in the completed cycles or in the next
one, and the oldest end that is observed, owed or attempted without a completion is next.
-/

namespace AutoBit.Service

open Library Store Broker Alerts

/-- `_observed_cycle_end`. -/
def observedCycleEnd (observedAt latestMatured : ℤ) (label : String) : Except Failure ℤ := do
  requireCycleEnd observedAt
  reject (latestMatured < observedAt + fourHours)
    (.corruption (label ++ " is later than latest matured evidence"))
  return observedAt + fourHours

/-- `_future_obligation_end`. -/
def futureObligationEnd (basis latestMatured : ℤ) (label : String) : Except Failure ℤ := do
  requireCycleEnd basis
  reject (¬(basis + fourHours ≤ latestMatured) ∧ basis + fourHours ≠ latestMatured + fourHours)
    (.corruption (label ++ " skips beyond the next cycle"))
  return basis + fourHours

/-- The ends that evidence observes, and those at which something is owed. -/
structure CycleDuties where
  observed : List ℤ := []
  obligations : List ℤ := []
  deriving DecidableEq, Repr

/-- `observed.add`. -/
def CycleDuties.observe (duties : CycleDuties) (end_ : ℤ) : CycleDuties :=
  { duties with observed := duties.observed ++ [end_] }

/-- `obligations.add`. -/
def CycleDuties.owe (duties : CycleDuties) (end_ : ℤ) : CycleDuties :=
  { duties with obligations := duties.obligations ++ [end_] }

/-- `orders[order_id] = order`. -/
def assignOrder (orders : List PaperOrder) (order : PaperOrder) : List PaperOrder :=
  if (findPaperOrder orders order.orderId).isSome then setOrder orders order else orders ++ [order]

/-- One round of the loop that looks up the orders of the evidence. Evidence of the type
`PAPER_ORDER` without its fields does not get past the reconciliation. -/
def namedOrder (db : Database) (orders : List PaperOrder) (metadata : Stamped OrderMetadata) :
    Except Failure (List PaperOrder) := do
  reject (metadata.body.orderId = .external "") (.corruption "paper order identity is invalid")
  let order ← orderById db metadata.body.orderId
  return assignOrder orders order

/-- What one order observes, and owes. -/
def orderDuty (latestMatured : ℤ) (duties : CycleDuties) (order : PaperOrder) :
    Except Failure CycleDuties := do
  let signalCycle ← observedCycleEnd order.signalAtUtc latestMatured "order signal"
  match order.orderKind with
  | .market => do
    reject (order.eligibleOpenUtc ≠ signalCycle)
      (.service "market order timing evidence is contradictory")
    let obligation ← futureObligationEnd order.eligibleOpenUtc latestMatured "order execution"
    return (duties.observe signalCycle).owe obligation
  | .stop => do
    reject (order.side ≠ .sell) (.corruption "stop order side is invalid")
    let trigger ← observedCycleEnd order.eligibleOpenUtc latestMatured "stop order trigger"
    return (duties.observe signalCycle).observe trigger

/-- What one fill observes. -/
def fillDuty (latestMatured : ℤ) (duties : CycleDuties) (fill : PaperFill) :
    Except Failure CycleDuties := do
  let end_ ← observedCycleEnd fill.fillTime latestMatured "fill observation"
  return duties.observe end_

/-- What the active stop observes, and owes. -/
def stopDuty (latestMatured : ℤ) (duties : CycleDuties) : Option PaperStop →
    Except Failure CycleDuties
  | none => .ok duties
  | some stop => do
    let end_ ← observedCycleEnd stop.observedAtUtc latestMatured "stop observation"
    reject (stop.activeAfterUtc ≠ stop.observedAtUtc ∧ stop.activeAfterUtc ≠ end_)
      (.service "stop timing evidence is contradictory")
    let obligation ← futureObligationEnd stop.activeAfterUtc latestMatured "stop activation"
    return (duties.observe end_).owe obligation

/-- What the risk projection observes. -/
def riskDuty (latestMatured : ℤ) (duties : CycleDuties) : Option ℤ → Except Failure CycleDuties
  | none => .ok duties
  | some lastRiskAt => do
    let end_ ← observedCycleEnd lastRiskAt latestMatured "risk observation"
    return duties.observe end_

/-- What completed cycles and unfinished attempts owe. -/
def cycleDuties (completed attempted : List ℤ) : Except Failure CycleDuties := do
  let unfinished := attempted.filter (· ∉ completed)
  if completed = [] then return { obligations := unfinished }
  else
    let next ← firstUncompletedAfterCycleChain completed
    return { obligations := next :: unfinished }

/-- All that evidence observes and owes. -/
def evidencedDuties (db : Database) (log : List StoredEvent) (lastRiskAt : Option ℤ)
    (account : Ledger) (completed attempted : List ℤ) (latestMatured : ℤ) :
    Except Failure CycleDuties := do
  let duties ← cycleDuties completed attempted
  let duties ← riskDuty latestMatured duties lastRiskAt
  let orders ← (view readOrderMetadata log).foldlM (namedOrder db) account.activeOrders
  let duties ← orders.foldlM (orderDuty latestMatured) duties
  let duties ← account.fills.foldlM (fillDuty latestMatured) duties
  stopDuty latestMatured duties account.activeStop

/-- The chronology that direct evidence must keep. -/
def checkDuties (completed : List ℤ) (duties : CycleDuties) : Except Failure Unit :=
  if completed ≠ [] then do
    let next ← firstUncompletedAfterCycleChain completed
    reject (∃ direct ∈ duties.observed, direct ∉ completed ∧ direct ≠ next)
      (.corruption "direct paper evidence contradicts completed cycle chronology")
    reject (∃ obligation ∈ duties.obligations, obligation ∉ completed ∧ obligation < next)
      (.corruption "paper obligation would require a chronological rollback")
  else
    reject (1 < duties.observed.dedup.length)
      (.corruption "direct paper evidence skips an uncompleted cycle chronology")

/-- `operational_only`. -/
def operationalTypes : List String :=
  ["HEALTH_STATE", "ALERT_ATTEMPT", "ALERT_FAILURE", "PAPER_CYCLE_ATTEMPT"]

/-- `sorted(end for end in observed | obligations if end not in completed)`. -/
def unfinishedEnds (completed : List ℤ) (duties : CycleDuties) : List ℤ :=
  sortedInstants ((duties.observed ++ duties.obligations).filter (· ∉ completed))

/-- `PaperService.oldest_required_end`. -/
def oldestRequiredEnd (db : Database) (latestMatured : ℤ) : Except Failure ℤ := do
  requireCycleEnd latestMatured
  let snapshot ← replayState db
  let log := snapshot.eventEvidence
  let riskChain ← validateHealthAndRiskChain snapshot
  validateOperationalAlertChain log
  let account ← reconcile db
  let completed ← completedCycleEnds db log latestMatured
  let attempted ← validatedCycleAttempts log completed latestMatured
  if log = [] then return latestMatured
  else
    let duties ← evidencedDuties db log riskChain.projection.lastRiskAt account completed attempted
      latestMatured
    checkDuties completed duties
    match (unfinishedEnds completed duties).head? with
    | some first => return first
    | none =>
      if log.all fun event => event.payload.eventType ∈ operationalTypes then return latestMatured
      else .error (.service "durable paper evidence has no resolvable cycle cursor")

end AutoBit.Service
