import AutoBit.Live.Service

/-!
# Processing a completed candle

A candle is checked, recorded against the position, and advances the risk state once, when no
intent is pending. Only then may its decision be submitted.
-/

namespace AutoBit.Live

open Library Health Risk Strategy

/-- What the checks of a candle establish. -/
structure CandleCheck where
  valid : Bool
  barAt : Option ℤ
  finish : Option ℤ

/-- The checks of a candle and its times. -/
def checkCandle (candle : Candle) (observedAt at_ : ℤ) : CandleCheck :=
  let finish := candle.timestamp.instant.map (· + fourHours)
  let row := candle.row
  let valid : Bool :=
    match candle.timestamp, row.open_, row.high, row.low, row.close with
    | .aware instant utc, some first, some high, some low, some close =>
      utc ∧ IsBoundary instant ∧ instant + fourHours ≤ observedAt ∧ observedAt ≤ at_ ∧
        (0 < first ∧ 0 < high ∧ 0 < low ∧ 0 < close) ∧ low ≤ min first close ∧
        max first close ≤ high
    | _, _, _, _, _ => false
  ⟨valid, candle.timestamp.instant, finish⟩

/-- The state that the first verified candle opens. -/
def initialState (balances : Account × Account) (close : ℚ) : Except LiveError LiveState := do
  let equity := balances.1.total + balances.2.total * close
  reject (equity ≤ 0) (.journal "No positive actual equity to initialize")
  return {
    cash := balances.1.total
    position := none
    risk := { initialEquity := equity, equityPeak := equity, dailyBaselineEquity := equity,
              lastEquity := equity }
    health := {} }

/-- The monitor after the checks of a candle. -/
def candleHealth (health : HealthSnapshot) (check : CandleCheck) (monotonic : Bool)
    (state : LiveState) (balances : Option (Account × Account)) (at_ : ℤ) :
    Except LiveError HealthSnapshot :=
  let health := recordSchemaCheck health check.valid at_
  let health := recordTimestampCheck health monotonic at_
  let health := recordCandleCheck health (floorFourHours at_) check.finish at_ check.valid
  match balances with
  | some balances => ledgerHealth health state balances at_
  | none => .ok (recordSchemaCheck health false at_)

/-- A position that has seen a completed candle. -/
def completePosition (position : LivePosition) (bar : ℤ) (high : ℚ) (fingerprint : String) :
    LivePosition :=
  let age := max 0 (bar / fourHours - position.entryAt / fourHours)
  { position with
    heldBars := max position.heldBars age.toNat
    highWater := max position.highWater high
    completedBarAt := some bar
    completedBarFingerprint := some fingerprint }

/-- The row of the entry candle, whose extremes may lie before the entry. -/
def entryRow (position : LivePosition) (bar : ℤ) (row : Row) : Row :=
  if bar < position.entryAt then
    { row with high := some (max position.highWater (row.close.getD 0)) }
  else row

section Candle

variable (env : Environment) (settings : Settings)

/-- `self.engine.decide`. -/
def decideLive (row : Row) (cash equity : ℚ) (position : Option LivePosition) (pending : Bool)
    (risk : RiskDecision) : Decision :=
  Strategy.decide settings.strategy settings.costs
    ⟨row, cash, equity, position.map contextOf, pending, risk⟩

/-- The state, opened when there is none yet. -/
def openState (check : CandleCheck) (row : Row) (balances : Option (Account × Account)) :
    Process LiveState := do
  match ← journalState with
  | some state => return state
  | none =>
    let balances ← liftM (require (balances.filter fun _ => check.valid)
      (LiveError.journal "Cannot initialize without verified balances and candle price"))
    let state ← liftM (initialState balances (row.close.getD 0))
    saveState env state
    return state

/-- What is answered to a candle that has been consumed before. -/
def replay (check : CandleCheck) (row : Row) (fingerprint : Option String) (state : LiveState)
    (health : HealthSnapshot) (observation : RiskObservation) (at_ : ℤ) : Process Outcome := do
  let health :=
    if fingerprint ≠ state.candleFingerprint then recordSchemaCheck health false at_ else health
  persistHealth env health
  let current := action health
  let overlay := applyHealthRecovery state.risk.decision
    (observation.systemHealthy && !current.haltEntries) current.resumeReduced
  if check.valid = true ∧ fingerprint = state.candleFingerprint ∧
      ∃ position ∈ state.position, ∃ finish ∈ check.finish, finish ≤ position.entryAt then
    return .deferred overlay
  else
    return .decided
      (decideLive settings row state.cash state.risk.lastEquity state.position true overlay)

/-- The canonical risk state is advanced, and its decision saved and submitted. -/
def advance (bar finish : ℤ) (row : Row) (fingerprint : String) (state : LiveState)
    (equity : ℚ) (healthy : Bool) (health : HealthSnapshot) (observation : RiskObservation)
    (balances : Option (Account × Account)) (at_ : ℤ) : Process Outcome := do
  let result := advanceRiskState state.risk { observation with
    equity, closedTrades := state.closedTrades, systemHealthy := healthy } settings.riskConfig
  modify fun world => { world with handed := world.handed ++
    [⟨state.closedTrades.drop state.risk.processedTradeCount, result.isOk, false⟩] }
  match result with
  | .error _ =>
    persistHealth env (recordSchemaCheck health false at_)
    let overlay := applyHealthRecovery state.risk.decision false false
    return .decided (decideLive settings row 0 equity state.position false overlay)
  | .ok risk =>
    let resumes := (action health).resumeReduced
    let overlay := applyHealthRecovery risk.decision healthy resumes
    let cashAvailable := (balances.map fun balances => min state.cash balances.1.balance).getD 0
    let pending ← journalPending
    let decision := decideLive settings row cashAvailable equity state.position (pending ≠ [])
      overlay
    let position := state.position.map fun position =>
      match decision.nextStop with
      | some stop => { position with pendingStop := some stop, pendingStopAt := some finish }
      | none => position
    let advanced := { state with
      position, risk, completedAt := some bar, decision := some decision
      candleFingerprint := some fingerprint }
    commit env (·.write advanced) fun world => { world with
      handed := world.handed.dropLast ++
        world.handed.getLast?.toList.map fun last => { last with committed := true } }
    match balances, tradeOf decision with
    | some balances, some trade =>
      submit env settings trade (row.close.getD 0) (row.atr.getD 0) at_ balances
    | _, _ => pure ()
    if resumes = true ∧ healthy = true then
      let health ← currentHealth
      persistHealth env (recordRecoveryCycleSuccess health at_)
    return .decided decision

/-- A candle that is valid and new: it is recorded against the position, and advances the risk
state unless an intent is pending. -/
def consume (bar finish : ℤ) (row : Row) (fingerprint : String) (state : LiveState)
    (health : HealthSnapshot) (observation : RiskObservation)
    (balances : Option (Account × Account)) (at_ : ℤ) : Process Outcome := do
  let active := state.position.map fun position => activate position finish
  let row := (active.map fun position => entryRow position bar row).getD row
  let position := active.map fun position =>
    completePosition position bar (row.high.getD 0) fingerprint
  let state := { state with position }
  if position.isSome then
    saveState env state
  let close := row.close.getD 0
  let held := (position.map (·.quantity)).getD 0
  let equity := (balances.map fun balances => balances.1.total + balances.2.total * close).getD
    (state.cash + held * close)
  let healthy := observation.systemHealthy && !(action health).haltEntries && balances.isSome
  let pending ← journalPending
  if pending ≠ [] then
    let cashAvailable := (balances.map fun balances => min state.cash balances.1.balance).getD 0
    let overlay := applyHealthRecovery state.risk.decision false false
    return .decided (decideLive settings row cashAvailable equity position true overlay)
  else
    advance env settings bar finish row fingerprint state equity healthy health observation balances
      at_

/-- A candle that is valid and monotonic, once the monitor is saved. -/
def observeCandle (bar finish : ℤ) (row : Row) (fingerprint : String) (state : LiveState)
    (health : HealthSnapshot) (observation : RiskObservation)
    (balances : Option (Account × Account)) (at_ : ℤ) : Process Outcome := do
  let completed := state.position.bind (·.completedBarAt)
  let older : Bool := ∃ prior ∈ completed, bar < prior
  let changed : Bool := completed = some bar ∧
    state.position.bind (·.completedBarFingerprint) ≠ some fingerprint
  if older || changed then
    let health := if older then recordTimestampCheck health false at_ else health
    let health := if changed then recordSchemaCheck health false at_ else health
    persistHealth env health
    let overlay := applyHealthRecovery state.risk.decision false false
    return .decided
      (decideLive settings row state.cash state.risk.lastEquity state.position true overlay)
  else if ∃ position ∈ state.position, finish ≤ position.entryAt then
    let current := action health
    let overlay := applyHealthRecovery state.risk.decision
      (observation.systemHealthy && !current.haltEntries) current.resumeReduced
    return .deferred overlay
  else
    consume env settings bar finish row fingerprint state health observation balances at_

/-- `LiveService.process_completed_candle`. -/
def processCompletedCandle (candle : Candle) (observation : RiskObservation) : Process Outcome := do
  let world ← get
  let at_ := world.clock
  let check := checkCandle candle observation.now at_
  let balances ← reconcile env at_
  let state ← openState env check candle.row balances
  let stored ← currentHealth
  let monotonic : Bool := check.valid ∧ ∀ completed ∈ state.completedAt, ∃ bar ∈ check.barAt,
    completed ≤ bar
  let health ← liftM (candleHealth stored check monotonic state balances at_)
  let fingerprint := if check.valid then settings.fingerprint check.barAt candle.row else none
  let health :=
    if check.valid = true ∧ fingerprint = none then recordSchemaCheck health false at_ else health
  let check := { check with valid := check.valid && fingerprint.isSome }
  if state.completedAt = check.barAt ∧ state.decision.isSome = true then
    replay env settings check candle.row fingerprint state health observation at_
  else
    persistHealth env health
    let state ← journalState
    let state ← liftM (require state (LiveError.journal "Intent has no live state"))
    match check.valid && monotonic, check.barAt, check.finish, fingerprint with
    | true, some bar, some finish, some fingerprint =>
      observeCandle env settings bar finish candle.row fingerprint state health observation balances
        at_
    | _, _, _, _ =>
      let pending ← journalPending
      let risk := applyHealthRecovery state.risk.decision false false
      return .decided (decideLive settings candle.row state.cash state.risk.lastEquity
        state.position (pending ≠ []) risk)

end Candle

/-- A call of the service. -/
inductive Call where
  | reconcile
  | price (observed : Reading)
  | candle (candle : Candle) (observation : RiskObservation)

/-- A call with the reading of the clock. -/
structure Invocation where
  at_ : ℤ
  call : Call

section Runs

variable (env : Environment) (settings : Settings)

/-- One call, from the reading of the clock on. -/
def perform (invocation : Invocation) : Process Unit := do
  modify fun world => { world with clock := invocation.at_ }
  match invocation.call with
  | .reconcile =>
    let _ ← AutoBit.Live.reconcile env invocation.at_
  | .price observed => onPrice env settings observed
  | .candle candle observation =>
    let _ ← processCompletedCandle env settings candle observation

/-- The world after a call, however it ended. -/
def after (invocation : Invocation) (world : World) : World :=
  (execute (perform env settings invocation) world).2

/-- The world after a run of calls. -/
def run (invocations : List Invocation) (world : World) : World :=
  invocations.foldl (fun world invocation => after env settings invocation world) world

end Runs

end AutoBit.Live
