import AutoBit.Library.Triple
import AutoBit.Service.RiskChain
import Mathlib.Logic.Relation

/-!
# The risk decision of a cycle

`riskDecision` records the base decision of a new bar, and binds the latest health event
to it when that changes the decision. A process may stop between any two of its
transactions, and a rerun of the same bar finds what is there.
-/

namespace AutoBit.Service

open Library Store Risk Health

/-- `append_event` in a transaction that is open. -/
def recordEvent (eventId : EventId) (occurredAt : ℤ) (payload : Payload) :
    Stateful Failure Database Unit := do
  let db ← get
  let db' ← liftM (appendEvent db eventId occurredAt payload)
  modify fun _ => db'

/-- `fenced_cycle_transaction`, which a process enters only if it still runs and holds its
lease. -/
def fencedCycleTransaction (runs : Bool) (body : Stateful Failure Database Unit) :
    Stateful Failure Database Unit :=
  transaction do
    liftM (reject (runs = false) (Failure.leaseLost "paper cycle lease ownership or epoch was lost"))
    body

/-- The time of a follow-up. -/
def followupTime (barAt : ℤ) (events : List StoredEvent) : ℤ :=
  match events.getLast? with
  | some last => max barAt last.occurredAtUtc
  | none => barAt

/-- `_persist_health_risk_followup`. -/
def persistHealthRiskFollowup (barAt : ℤ) (stored : RiskState) (final : RiskDecision)
    (health : HealthGate) : Stateful Failure Database Unit := do
  liftM (reject (health.evidenceEventId = none ∨ health.evidenceSequence = 0)
    (Failure.corruption "changed health decision lacks event evidence"))
  let corrected := { stored with decision := final }
  let db ← get
  let snapshot ← liftM (replayState db)
  let eventId ← liftM (healthRiskFollowupId barAt health)
  match snapshot.eventEvidence.filter (·.eventId = eventId) with
  | [] =>
    recordEvent eventId (followupTime barAt snapshot.eventEvidence)
      (.breakerState (riskStatePayload corrected))
  | [existing] =>
    liftM (match existing.payload with
      | .breakerState payload => do
        let found ← riskStateFromPayload payload
        reject (found ≠ corrected) (.corruption "health risk followup identity conflicts")
      | _ => .error (.corruption "health risk followup identity conflicts") : Except Failure Unit)
  | _ => liftM (.error (.corruption "health risk followup identity is duplicated") :
      Except Failure Unit)

/-- What the row of a bar and the broker give to `_risk_decision`. The ratio is there when
the close, the ATR and its baseline are finite and positive. -/
structure RiskRow where
  equity : ℚ
  completedTrades : List ClosedTrade
  volatilityRatio : Option Reading
  volatilityBarValid : Bool
  deriving DecidableEq, Repr

/-- `_advance_risk_state`. -/
def advanceRow (prior : RiskState) (barAt : ℤ) (row : RiskRow) (config : RiskConfig)
    (systemHealthy : Bool) : Except Failure RiskState := do
  let volatilityRatio ← require row.volatilityRatio (.service "risk row must be positive")
  let observation : RiskObservation :=
    { now := barAt
      equity := row.equity
      closedTrades := row.completedTrades
      volatilityRatio
      volatilityBarValid := row.volatilityBarValid
      systemHealthy }
  (advanceRiskState prior observation config).mapError fun failure => match failure with
    | .value message => .service message
    | failure => failure

/-- Where a process may stop, or find its lease lost. -/
inductive RunPoint where
  | base
  | followup
  | answer
  deriving DecidableEq, Repr

/-- The follow-up of a decision, and the answer. -/
def answerWithFollowup (runs : RunPoint → Bool) (barAt : ℤ) (base : RiskState)
    (final : RiskDecision) (health : HealthGate) : Stateful Failure Database RiskDecision := do
  fencedCycleTransaction (runs .followup) (persistHealthRiskFollowup barAt base final health)
  liftM (reject (runs .answer = false) (Failure.service "after_health_risk_followup"))
  return final

/-- The part of `_risk_decision` for a bar that has its base decision. -/
def redecide (runs : RunPoint → Bool) (barAt : ℤ) (chain : RiskChain) (health : HealthGate) :
    Stateful Failure Database RiskDecision := do
  let base := chain.latestBase
  liftM (reject (base.lastRiskAt ≠ some barAt)
    (Failure.corruption "risk projection lacks its canonical base"))
  let final := applyHealthAction base.decision health.action
  let expected ← liftM (match health.evidenceEventId with
    | none => .ok none
    | some _ => some <$> healthRiskFollowupId barAt health : Except Failure (Option EventId))
  let currentIsBound : Bool := chain.latestRiskEvent ≠ none ∧
    chain.latestRiskEvent.map (·.eventId) = expected ∧ chain.projection.decision = final
  if chain.projection.decision ≠ final ∨ final ≠ base.decision ∧ currentIsBound = false then
    answerWithFollowup runs barAt base final health
  else return final

/-- The part of `_risk_decision` for a new bar. -/
def decideNewBar (config : RiskConfig) (runs : RunPoint → Bool) (barAt : ℤ) (row : RiskRow)
    (chain : RiskChain) (health : HealthGate) : Stateful Failure Database RiskDecision := do
  let base ← liftM (advanceRow chain.projection barAt row config
    (health.action.any (!·.haltEntries)))
  fencedCycleTransaction (runs .base)
    (recordEvent (.risk barAt) barAt (.breakerState (riskStatePayload base)))
  let final := applyHealthAction base.decision health.action
  if final ≠ base.decision then answerWithFollowup runs barAt base final health
  else return final

/-- `PaperService._risk_decision`. -/
def riskDecision (config : RiskConfig) (runs : RunPoint → Bool) (barAt : ℤ) (row : RiskRow) :
    Stateful Failure Database RiskDecision := do
  let db ← get
  let snapshot ← liftM (replayState db)
  let chain ← liftM (validateHealthAndRiskChain snapshot)
  let health ← liftM (healthGateFromSnapshot snapshot)
  liftM (reject (∃ last ∈ chain.projection.lastRiskAt, barAt < last)
    (Failure.service "risk state timestamp is ahead of the current candle"))
  if chain.projection.lastRiskAt = some barAt then redecide runs barAt chain health
  else decideNewBar config runs barAt row chain health

end AutoBit.Service
