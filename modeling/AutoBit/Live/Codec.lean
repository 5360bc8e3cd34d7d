import AutoBit.Live.Journal

/-!
# The texts of the live journal

A state and an intent are written as JSON objects, field by field: decimals, dates and
datetimes as texts, tuples as arrays, absent values as null. The reader converts each field
back by its name, and then checks the facts. What was written is read back with the same
instants and values, whatever the offsets of its datetimes, exactly when its facts are valid.
A datetime that is read has a fixed offset, so it is equal to the written one exactly when the
offset of the written one does not depend on its fold.
-/

namespace AutoBit.Live.Codec

open Library Risk
open Health (HealthSnapshot)

/-! ## The values -/

/-- A JSON value. The texts that `str` makes of a decimal, of an aware datetime and of a date,
and the canonical UTC texts of the monitor, are kept apart from other texts. -/
inductive Json where
  | null
  | bool (value : Bool)
  | int (value : ℤ)
  | float (value : ℚ)
  | text (value : String)
  | decimal (value : ℚ)
  | datetime (instant offset : ℤ)
  | utc (instant : ℤ)
  | date (day : ℤ)
  | array (items : List Json)
  | object (items : List (String × Json))
  deriving Inhabited

/-- What `Decimal` and `fromisoformat` make of other texts. -/
structure Texts where
  decimal : String → Option ℚ
  datetime : String → Option ℤ
  date : String → Option ℤ

/-- What the time zone of a datetime says of it: its offset, and whether the other `fold` would
give it another offset, as in the hours that a change of clocks repeats or skips. -/
structure Zone where
  offset : ℤ := 0
  foldDependent : Bool := false
  deriving DecidableEq, Repr

/-- The zone of each datetime, by the name of its field and its position in a list. -/
abbrev Zones := String → ℕ → Zone

/-- A decision with the fields that the journal writes. -/
structure StoredDecision where
  action : String
  reason : Option String
  quantity : ℚ
  nextStop : Option ℚ
  risk : RiskDecision
  deriving DecidableEq, Repr

/-- `LiveState`, with any decision. -/
structure StoredState where
  cash : ℚ
  position : Option LivePosition
  risk : RiskState
  health : HealthSnapshot
  closedTrades : List ClosedTrade := []
  completedAt : Option ℤ := none
  decision : Option StoredDecision := none
  candleFingerprint : Option String := none
  deriving DecidableEq, Repr

/-- The facts that `_state` checks: all but the decision. -/
def StoredState.facts (state : StoredState) : LiveState where
  cash := state.cash
  position := state.position
  risk := state.risk
  health := state.health
  closedTrades := state.closedTrades
  completedAt := state.completedAt
  candleFingerprint := state.candleFingerprint

/-! ## Writing -/

/-- `None`, or a value. -/
def nullable (value : Option Json) : Json := value.getD .null

/-- A float of the monitor; `json.dumps` refuses one that is not finite. -/
def writeFloat : FloatValue → Except LiveError Json
  | .finite value => .ok (.float value)
  | .infinite => .error (.value "Out of range float values are not JSON compliant")

/-- A scalar of the monitor. -/
def writeScalar : Health.Scalar → Except LiveError Json
  | .null => .ok .null
  | .bool value => .ok (.bool value)
  | .int value => .ok (.int value)
  | .float value => writeFloat value
  | .text value => .ok (.text value)
  | .utc instant => .ok (.utc instant)

/-- A field of the monitor. -/
def writeField : Health.Json → Except LiveError Json
  | .scalar value => writeScalar value
  | .array items => .array <$> items.mapM writeScalar

/-- `dict(state.health)`. -/
def writeHealth (health : Health.Mapping) : Except LiveError Json :=
  .object <$> health.mapM fun item => (item.1, ·) <$> writeField item.2

section Write

variable (zone : Zones)

/-- `str` of a datetime. -/
def stamp (place : String) (index : ℕ) (instant : ℤ) : Json :=
  .datetime instant (zone place index).offset

/-- `str` of a datetime, or `None`. -/
def optionalStamp (place : String) (value : Option ℤ) : Json :=
  nullable (value.map (stamp zone place 0))

/-- `asdict` of a risk decision. -/
def riskDecisionMapping (place : String) (decision : RiskDecision) : Json :=
  .object [
    ("risk_rate", .float decision.riskRate),
    ("exposure_cap", .float decision.exposureCap),
    ("halted_until", optionalStamp zone place decision.haltedUntil),
    ("reasons", .array (decision.reasons.map .text))]

/-- `asdict(state.risk)`. -/
def riskMapping (risk : RiskState) : Json :=
  .object [
    ("equity_peak", .float risk.equityPeak),
    ("daily_date", nullable (risk.dailyDate.map .date)),
    ("daily_baseline_equity", .float risk.dailyBaselineEquity),
    ("equity_history", .array (risk.equityHistory.zipIdx.map fun item =>
      .array [stamp zone "equity_history" item.2 item.1.1, .float item.1.2])),
    ("risk_started_at", optionalStamp zone "risk_started_at" risk.riskStartedAt),
    ("last_equity", .float risk.lastEquity),
    ("last_risk_at", optionalStamp zone "last_risk_at" risk.lastRiskAt),
    ("consecutive_losses", .int risk.consecutiveLosses),
    ("processed_trade_count", .int risk.processedTradeCount),
    ("recovery_started_at", optionalStamp zone "recovery_started_at" risk.recoveryStartedAt),
    ("daily_halt_started_at", optionalStamp zone "daily_halt_started_at" risk.dailyHaltStartedAt),
    ("weekly_halt_started_at",
      optionalStamp zone "weekly_halt_started_at" risk.weeklyHaltStartedAt),
    ("streak_halt_started_at",
      optionalStamp zone "streak_halt_started_at" risk.streakHaltStartedAt),
    ("profitable_trades_since_streak_halt", .int risk.profitableTradesSinceStreakHalt),
    ("volatility_halted", .bool risk.volatilityHalted),
    ("volatility_stable_bars", .int risk.volatilityStableBars),
    ("decision", riskDecisionMapping zone "risk.halted_until" risk.decision),
    ("initial_equity", .float risk.initialEquity)]

/-- `asdict(state.position)`. -/
def positionMapping (position : LivePosition) : Json :=
  .object [
    ("quantity", .decimal position.quantity),
    ("entry_price", .float position.entryPrice),
    ("entry_atr", .float position.entryAtr),
    ("initial_atr_mult", .float position.initialAtrMult),
    ("entry_at", stamp zone "entry_at" 0 position.entryAt),
    ("initial_stop", .float position.initialStop),
    ("current_stop", .float position.currentStop),
    ("high_water", .float position.highWater),
    ("held_bars", .int position.heldBars),
    ("cost_basis", .decimal position.costBasis),
    ("realized_pnl", .decimal position.realizedPnl),
    ("pending_stop", nullable (position.pendingStop.map .float)),
    ("pending_stop_at", optionalStamp zone "pending_stop_at" position.pendingStopAt),
    ("completed_bar_at", optionalStamp zone "completed_bar_at" position.completedBarAt),
    ("completed_bar_fingerprint", nullable (position.completedBarFingerprint.map .text))]

/-- `asdict(state.decision)`. -/
def decisionMapping (decision : StoredDecision) : Json :=
  .object [
    ("action", .text decision.action),
    ("reason", nullable (decision.reason.map .text)),
    ("quantity", .float decision.quantity),
    ("next_stop", nullable (decision.nextStop.map .float)),
    ("risk", riskDecisionMapping zone "decision.halted_until" decision.risk)]

/-- `asdict` of a closed trade. -/
def tradeMapping (item : ClosedTrade × ℕ) : Json :=
  .object [
    ("net_pnl", .float item.1.netPnl),
    ("exit_time", stamp zone "exit_time" item.2 item.1.exitTime)]

/-- `_state_mapping`, as `json.dumps` writes it. -/
def stateMapping (state : StoredState) : Except LiveError Json := do
  let health ← writeHealth state.health.toMapping
  return .object [
    ("cash", .decimal state.cash),
    ("position", nullable (state.position.map (positionMapping zone))),
    ("risk", riskMapping zone state.risk),
    ("health", health),
    ("closed_trades", .array (state.closedTrades.zipIdx.map (tradeMapping zone))),
    ("completed_at", optionalStamp zone "completed_at" state.completedAt),
    ("decision", nullable (state.decision.map (decisionMapping zone))),
    ("candle_fingerprint", nullable (state.candleFingerprint.map .text))]

/-- The text of a side. -/
def sideText : Side → String
  | .bid => "bid"
  | .ask => "ask"

/-- `asdict(intent)`. -/
def intentMapping (intent : LiveIntent) : Json :=
  .object [
    ("identifier", .text intent.identifier),
    ("side", .text (sideText intent.side)),
    ("amount", .decimal intent.amount),
    ("reference_price", .float intent.referencePrice),
    ("entry_atr", .float intent.entryAtr),
    ("initial_atr_mult", .float intent.initialAtrMult),
    ("created_at", stamp zone "created_at" 0 intent.createdAt),
    ("quantity", .decimal intent.quantity),
    ("funds", .decimal intent.funds),
    ("fee", .decimal intent.fee),
    ("venue_uuid", nullable (intent.venueUuid.map .text)),
    ("terminal", .bool intent.terminal),
    ("cancel_requested", .bool intent.cancelRequested)]

end Write

/-! ## Equality -/

section Equality

variable (zone : Zones)

/-- `==` of a datetime and one that was read, which has a fixed offset: they are one instant,
and the offset of the first does not depend on its fold. -/
def datetimeEq (place : String) (index : ℕ) (saved read : ℤ) : Prop :=
  saved = read ∧ (zone place index).foldDependent = false

/-- `==` of optional datetimes. -/
def optionalEq (place : String) (saved read : Option ℤ) : Prop :=
  Option.Rel (datetimeEq zone place 0) saved read

/-- `==` of risk decisions. -/
def riskDecisionEq (place : String) (saved read : RiskDecision) : Prop :=
  optionalEq zone place saved.haltedUntil read.haltedUntil ∧
    { saved with haltedUntil := read.haltedUntil } = read

/-- `==` of risk states. -/
def riskEq (saved read : RiskState) : Prop :=
  List.Forall₂ (fun item other => datetimeEq zone "equity_history" item.2 item.1.1 other.1 ∧
      item.1.2 = other.2) saved.equityHistory.zipIdx read.equityHistory ∧
    optionalEq zone "risk_started_at" saved.riskStartedAt read.riskStartedAt ∧
    optionalEq zone "last_risk_at" saved.lastRiskAt read.lastRiskAt ∧
    optionalEq zone "recovery_started_at" saved.recoveryStartedAt read.recoveryStartedAt ∧
    optionalEq zone "daily_halt_started_at" saved.dailyHaltStartedAt read.dailyHaltStartedAt ∧
    optionalEq zone "weekly_halt_started_at" saved.weeklyHaltStartedAt read.weeklyHaltStartedAt ∧
    optionalEq zone "streak_halt_started_at" saved.streakHaltStartedAt read.streakHaltStartedAt ∧
    riskDecisionEq zone "risk.halted_until" saved.decision read.decision ∧
    { saved with
      equityHistory := read.equityHistory
      riskStartedAt := read.riskStartedAt
      lastRiskAt := read.lastRiskAt
      recoveryStartedAt := read.recoveryStartedAt
      dailyHaltStartedAt := read.dailyHaltStartedAt
      weeklyHaltStartedAt := read.weeklyHaltStartedAt
      streakHaltStartedAt := read.streakHaltStartedAt
      decision := read.decision } = read

/-- `==` of positions. -/
def positionEq (saved read : LivePosition) : Prop :=
  datetimeEq zone "entry_at" 0 saved.entryAt read.entryAt ∧
    optionalEq zone "pending_stop_at" saved.pendingStopAt read.pendingStopAt ∧
    optionalEq zone "completed_bar_at" saved.completedBarAt read.completedBarAt ∧
    { saved with
      entryAt := read.entryAt
      pendingStopAt := read.pendingStopAt
      completedBarAt := read.completedBarAt } = read

/-- `==` of decisions. -/
def decisionEq (saved read : StoredDecision) : Prop :=
  riskDecisionEq zone "decision.halted_until" saved.risk read.risk ∧
    { saved with risk := read.risk } = read

/-- `==` of states. -/
def stateEq (saved read : StoredState) : Prop :=
  Option.Rel (positionEq zone) saved.position read.position ∧
    riskEq zone saved.risk read.risk ∧
    List.Forall₂ (fun item other => item.1.netPnl = other.netPnl ∧
      datetimeEq zone "exit_time" item.2 item.1.exitTime other.exitTime)
      saved.closedTrades.zipIdx read.closedTrades ∧
    optionalEq zone "completed_at" saved.completedAt read.completedAt ∧
    Option.Rel (decisionEq zone) saved.decision read.decision ∧
    { saved with
      position := read.position
      risk := read.risk
      closedTrades := read.closedTrades
      completedAt := read.completedAt
      decision := read.decision } = read

/-- `==` of intents, of which the first was created in the given zone. -/
def intentEq (created : Zone) (saved read : LiveIntent) : Prop :=
  (saved.createdAt = read.createdAt ∧ created.foldDependent = false) ∧
    { saved with createdAt := read.createdAt } = read

end Equality

/-- The place of a datetime that may be absent. -/
def optionalPlace (place : String) (value : Option ℤ) : List (String × ℕ) :=
  (value.map fun _ => (place, 0)).toList

/-- The places of a list of datetimes. -/
def listPlaces {α : Type} (place : String) (values : List α) : List (String × ℕ) :=
  values.zipIdx.map fun item => (place, item.2)

/-- The places of the datetimes of a risk state. -/
def riskPlaces (risk : RiskState) : List (String × ℕ) :=
  listPlaces "equity_history" risk.equityHistory ++
    optionalPlace "risk_started_at" risk.riskStartedAt ++
    optionalPlace "last_risk_at" risk.lastRiskAt ++
    optionalPlace "recovery_started_at" risk.recoveryStartedAt ++
    optionalPlace "daily_halt_started_at" risk.dailyHaltStartedAt ++
    optionalPlace "weekly_halt_started_at" risk.weeklyHaltStartedAt ++
    optionalPlace "streak_halt_started_at" risk.streakHaltStartedAt ++
    optionalPlace "risk.halted_until" risk.decision.haltedUntil

/-- The places of the datetimes of a position. -/
def positionPlaces (position : LivePosition) : List (String × ℕ) :=
  ("entry_at", 0) :: optionalPlace "pending_stop_at" position.pendingStopAt ++
    optionalPlace "completed_bar_at" position.completedBarAt

/-- The places of the datetimes of a state. -/
def statePlaces (state : StoredState) : List (String × ℕ) :=
  (state.position.map positionPlaces).getD [] ++ riskPlaces state.risk ++
    listPlaces "exit_time" state.closedTrades ++ optionalPlace "completed_at" state.completedAt ++
    (state.decision.map fun decision =>
      optionalPlace "decision.halted_until" decision.risk.haltedUntil).getD []

/-- No offset at these places depends on the fold of its datetime. -/
def FixedAt (zone : Zones) (places : List (String × ℕ)) : Prop :=
  ∀ place ∈ places, (zone place.1 place.2).foldDependent = false

section Equality

variable {zone : Zones}

/-- Datetimes are outside of folds and gaps in two stretches when they are in each. -/
@[simp] theorem fixedAt_append (places others : List (String × ℕ)) :
    FixedAt zone (places ++ others) ↔ FixedAt zone places ∧ FixedAt zone others :=
  List.forall_mem_append

/-- A datetime before others is outside of folds and gaps, and so are the others. -/
@[simp] theorem fixedAt_cons (place : String × ℕ) (places : List (String × ℕ)) :
    FixedAt zone (place :: places) ↔
      (zone place.1 place.2).foldDependent = false ∧ FixedAt zone places :=
  List.forall_mem_cons

/-- Where there are no datetimes, none is in a fold or gap. -/
@[simp] theorem fixedAt_nil : FixedAt zone [] := List.forall_mem_nil _

/-- Optional datetimes are equal when they are the same and have a fixed offset. -/
@[simp] theorem optionalEq_iff {place : String} {saved read : Option ℤ} :
    optionalEq zone place saved read ↔ saved = read ∧ FixedAt zone (optionalPlace place saved) := by
  cases saved <;> cases read <;> simp [optionalEq, datetimeEq, optionalPlace]

/-- So are lists of values with a datetime each. -/
theorem forall₂_zipIdx_iff {α : Type} {place : String} {values others : List α} :
    List.Forall₂ (fun item other => item.1 = other ∧ (zone place item.2).foldDependent = false)
        values.zipIdx others ↔
      values = others ∧ FixedAt zone (listPlaces place values) := by
  rw [listPlaces]
  generalize 0 = n
  induction values generalizing others n with
  | nil => cases others <;> simp
  | cons value values ih =>
    cases others with
    | nil => simp
    | cons other others =>
      simp only [List.zipIdx_cons, List.forall₂_cons, ih, List.map_cons, fixedAt_cons,
        List.cons.injEq]
      exact and_and_and_comm

/-- A risk decision equals the one that is read exactly when they are the same and its datetime is
outside of folds and gaps. -/
theorem riskDecisionEq_iff {place : String} {saved read : RiskDecision} :
    riskDecisionEq zone place saved read ↔
      saved = read ∧ FixedAt zone (optionalPlace place saved.haltedUntil) := by
  simp only [riskDecisionEq, optionalEq_iff]
  constructor
  · rintro ⟨⟨hhalted, hfixed⟩, hrest⟩
    rw [← hhalted] at hrest
    exact ⟨hrest, hfixed⟩
  · rintro ⟨rfl, hfixed⟩
    exact ⟨⟨rfl, hfixed⟩, rfl⟩

/-- A risk state equals the one that is read exactly when they are the same and its datetimes are
outside of folds and gaps. -/
theorem riskEq_iff {saved read : RiskState} :
    riskEq zone saved read ↔ saved = read ∧ FixedAt zone (riskPlaces saved) := by
  have hhistory : List.Forall₂ (fun item other =>
      datetimeEq zone "equity_history" item.2 item.1.1 other.1 ∧ item.1.2 = other.2)
      saved.equityHistory.zipIdx read.equityHistory ↔ saved.equityHistory = read.equityHistory ∧
        FixedAt zone (listPlaces "equity_history" saved.equityHistory) := by
    rw [← forall₂_zipIdx_iff]
    simp only [datetimeEq, and_right_comm, Prod.ext_iff]
  simp only [riskEq, hhistory, optionalEq_iff, riskDecisionEq_iff, riskPlaces, fixedAt_append]
  constructor
  · rintro ⟨⟨hequity, h⟩, ⟨hstarted, hs⟩, ⟨hlast, hl⟩, ⟨hrecovery, hr⟩, ⟨hdaily, hd⟩,
      ⟨hweekly, hw⟩, ⟨hstreak, hk⟩, ⟨hdecision, hx⟩, hrest⟩
    rw [← hequity, ← hstarted, ← hlast, ← hrecovery, ← hdaily, ← hweekly, ← hstreak,
      ← hdecision] at hrest
    exact ⟨hrest, ⟨⟨⟨⟨⟨⟨h, hs⟩, hl⟩, hr⟩, hd⟩, hw⟩, hk⟩, hx⟩
  · rintro ⟨rfl, ⟨⟨⟨⟨⟨⟨h, hs⟩, hl⟩, hr⟩, hd⟩, hw⟩, hk⟩, hx⟩
    exact ⟨⟨rfl, h⟩, ⟨rfl, hs⟩, ⟨rfl, hl⟩, ⟨rfl, hr⟩, ⟨rfl, hd⟩, ⟨rfl, hw⟩, ⟨rfl, hk⟩, ⟨rfl, hx⟩,
      rfl⟩

/-- A position equals the one that is read exactly when they are the same and its datetimes are
outside of folds and gaps. -/
theorem positionEq_iff {saved read : LivePosition} :
    positionEq zone saved read ↔ saved = read ∧ FixedAt zone (positionPlaces saved) := by
  simp only [positionEq, datetimeEq, optionalEq_iff, positionPlaces, List.cons_append,
    fixedAt_cons, fixedAt_append]
  constructor
  · rintro ⟨⟨hentry, h⟩, ⟨hpending, hp⟩, ⟨hcompleted, hc⟩, hrest⟩
    rw [← hentry, ← hpending, ← hcompleted] at hrest
    exact ⟨hrest, h, hp, hc⟩
  · rintro ⟨rfl, h, hp, hc⟩
    exact ⟨⟨rfl, h⟩, ⟨rfl, hp⟩, ⟨rfl, hc⟩, rfl⟩

/-- A decision equals the one that is read exactly when they are the same and its datetime is
outside of folds and gaps. -/
theorem decisionEq_iff {saved read : StoredDecision} :
    decisionEq zone saved read ↔ saved = read ∧
      FixedAt zone (optionalPlace "decision.halted_until" saved.risk.haltedUntil) := by
  simp only [decisionEq, riskDecisionEq_iff]
  constructor
  · rintro ⟨⟨hrisk, hfixed⟩, hrest⟩
    rw [← hrisk] at hrest
    exact ⟨hrest, hfixed⟩
  · rintro ⟨rfl, hfixed⟩
    exact ⟨⟨rfl, hfixed⟩, rfl⟩

/-- Two optional values are equal when they are the same and their datetimes have fixed offsets. -/
theorem rel_iff_of_forall {α : Type} {eq : α → α → Prop} {places : α → List (String × ℕ)}
    (h : ∀ saved read, eq saved read ↔ saved = read ∧ FixedAt zone (places saved))
    (saved read : Option α) :
    Option.Rel eq saved read ↔
      saved = read ∧ FixedAt zone ((saved.map places).getD []) := by
  cases saved <;> cases read <;> simp [h]

/-- A state is equal to what was read exactly when both hold the same, and no offset of a
datetime of the first depends on its fold. -/
theorem stateEq_iff {saved read : StoredState} :
    stateEq zone saved read ↔ saved = read ∧ FixedAt zone (statePlaces saved) := by
  have htrade : ∀ trade other : ClosedTrade,
      trade = other ↔ trade.netPnl = other.netPnl ∧ trade.exitTime = other.exitTime := by
    rintro ⟨_, _⟩ ⟨_, _⟩
    simp
  have htrades : List.Forall₂ (fun item other => item.1.netPnl = other.netPnl ∧
      datetimeEq zone "exit_time" item.2 item.1.exitTime other.exitTime)
      saved.closedTrades.zipIdx read.closedTrades ↔ saved.closedTrades = read.closedTrades ∧
        FixedAt zone (listPlaces "exit_time" saved.closedTrades) := by
    rw [← forall₂_zipIdx_iff]
    simp only [datetimeEq, ← and_assoc, htrade]
  have hposition : Option.Rel (positionEq zone) saved.position read.position ↔
      saved.position = read.position ∧
        FixedAt zone ((saved.position.map positionPlaces).getD []) :=
    rel_iff_of_forall (fun _ _ => positionEq_iff) _ _
  have hdecision : Option.Rel (decisionEq zone) saved.decision read.decision ↔
      saved.decision = read.decision ∧ FixedAt zone ((saved.decision.map fun decision =>
        optionalPlace "decision.halted_until" decision.risk.haltedUntil).getD []) :=
    rel_iff_of_forall (fun _ _ => decisionEq_iff) _ _
  simp only [stateEq, hposition, riskEq_iff, htrades, optionalEq_iff, hdecision, statePlaces,
    fixedAt_append]
  constructor
  · rintro ⟨⟨hposition, hp⟩, ⟨hrisk, hr⟩, ⟨htrades, ht⟩, ⟨hcompleted, hc⟩, ⟨hdecision, hd⟩, hrest⟩
    rw [← hposition, ← hrisk, ← htrades, ← hcompleted, ← hdecision] at hrest
    exact ⟨hrest, ⟨⟨⟨hp, hr⟩, ht⟩, hc⟩, hd⟩
  · rintro ⟨rfl, ⟨⟨⟨hp, hr⟩, ht⟩, hc⟩, hd⟩
    exact ⟨⟨rfl, hp⟩, ⟨rfl, hr⟩, ⟨rfl, ht⟩, ⟨rfl, hc⟩, ⟨rfl, hd⟩, rfl⟩

/-- So is an intent. -/
theorem intentEq_iff {created : Zone} {saved read : LiveIntent} :
    intentEq created saved read ↔ saved = read ∧ created.foldDependent = false := by
  rw [intentEq]
  constructor
  · rintro ⟨⟨hcreated, hfixed⟩, hrest⟩
    rw [← hcreated] at hrest
    exact ⟨hrest, hfixed⟩
  · rintro ⟨rfl, hfixed⟩
    exact ⟨⟨rfl, hfixed⟩, rfl⟩

end Equality

/-! ## Reading -/

/-- The items of an object. -/
def items : Json → Except LiveError (List (String × Json))
  | .object items => .ok items
  | _ => .error (.value "TypeError")

/-- The elements of an array. -/
def elements : Json → Except LiveError (List Json)
  | .array items => .ok items
  | _ => .error (.value "TypeError")

/-- `data[key]`. -/
def valueOf (data : List (String × Json)) (key : String) : Except LiveError Json :=
  require (data.lookup key) (.value "KeyError")

/-- The keyword arguments of a dataclass: all the required ones, and no unknown one. -/
def checkKeys (data : List (String × Json)) (required optional : List String) :
    Except LiveError Unit :=
  reject (¬required ⊆ data.map Prod.fst ∨ ¬data.map Prod.fst ⊆ required ++ optional)
    (.value "TypeError")

/-- The truth of a value. -/
def truthy : Json → Bool
  | .null => false
  | .bool value => value
  | .int value => value ≠ 0
  | .float value => value ≠ 0
  | .text value => value ≠ ""
  | .array items => !items.isEmpty
  | .object items => !items.isEmpty
  | _ => true

/-- A number. -/
def number : Json → Except LiveError ℚ
  | .float value => .ok value
  | .int value => .ok value
  | _ => .error (.value "TypeError")

/-- A number, or `None`. -/
def optionalNumber : Json → Except LiveError (Option ℚ)
  | .null => .ok none
  | value => some <$> number value

/-- An integer that must not be negative. -/
def count (e : LiveError) : Json → Except LiveError ℕ
  | .int value => if 0 ≤ value then .ok value.toNat else .error e
  | _ => .error e

/-- A flag. -/
def flag : Json → Except LiveError Bool
  | .bool value => .ok value
  | _ => .error (.value "TypeError")

/-- A text. -/
def text : Json → Except LiveError String
  | .text value => .ok value
  | _ => .error (.value "TypeError")

/-- A text, or `None`. -/
def optionalText : Json → Except LiveError (Option String)
  | .null => .ok none
  | value => some <$> text value

/-- A scalar of the monitor. -/
def readScalar : Json → Except LiveError Health.Scalar
  | .null => .ok .null
  | .bool value => .ok (.bool value)
  | .int value => .ok (.int value)
  | .float value => .ok (.float (.finite value))
  | .text value => .ok (.text value)
  | .utc instant => .ok (.utc instant)
  | _ => .error (.value "health")

/-- A field of the monitor. -/
def readField : Json → Except LiveError Health.Json
  | .array values => .array <$> values.mapM readScalar
  | value => .scalar <$> readScalar value

/-- `HealthSnapshot.from_event_mapping(data['health'])`. -/
def readHealth (value : Json) : Except LiveError HealthSnapshot := do
  let data ← items value
  let mapping ← data.mapM fun item => (item.1, ·) <$> readField item.2
  (HealthSnapshot.fromEventMapping mapping).mapError fun _ => .value "health"

section Read

variable (texts : Texts)

/-- `Decimal(value)`. -/
def toDecimal : Json → Except LiveError ℚ
  | .decimal value => .ok value
  | .int value => .ok value
  | .float value => .ok value
  | .text value => require (texts.decimal value) (.value "InvalidOperation")
  | _ => .error (.value "TypeError")

/-- `datetime.fromisoformat(value)`. -/
def fromisoformat : Json → Except LiveError ℤ
  | .datetime instant _ => .ok instant
  | .utc instant => .ok instant
  | .text value => require (texts.datetime value) (.value "Invalid isoformat string")
  | _ => .error (.value "TypeError")

/-- `datetime.fromisoformat(value) if value else None`. -/
def optionalDatetime (value : Json) : Except LiveError (Option ℤ) :=
  if truthy value then some <$> fromisoformat texts value else .ok none

/-- `datetime.fromisoformat(value)`, if the value is not `None`. -/
def presentDatetime : Json → Except LiveError (Option ℤ)
  | .null => .ok none
  | value => some <$> fromisoformat texts value

/-- `date.fromisoformat(value) if value else None`. -/
def optionalDate (value : Json) : Except LiveError (Option ℤ) :=
  if truthy value then
    match value with
    | .date day => .ok (some day)
    | .text value => some <$> require (texts.date value) (.value "Invalid isoformat string")
    | _ => .error (.value "TypeError")
  else .ok none

/-- `_risk_decision`. -/
def readRiskDecision (value : Json) : Except LiveError RiskDecision := do
  let data ← items value
  let haltedUntil ← optionalDatetime texts (← valueOf data "halted_until")
  let reasons ← (← elements (← valueOf data "reasons")).mapM text
  checkKeys data ["risk_rate", "exposure_cap", "halted_until", "reasons"] []
  return {
    riskRate := ← number (← valueOf data "risk_rate")
    exposureCap := ← number (← valueOf data "exposure_cap")
    haltedUntil, reasons }

/-- One item of the equity history. -/
def readObservation (value : Json) : Except LiveError (ℤ × ℚ) := do
  match ← elements value with
  | [at_, equity] => return (← fromisoformat texts at_, ← number equity)
  | _ => .error (.value "ValueError")

/-- The fields of a risk state. -/
def riskNames : List String :=
  ["equity_peak", "daily_date", "daily_baseline_equity", "equity_history", "risk_started_at",
    "last_equity", "last_risk_at", "consecutive_losses", "processed_trade_count",
    "recovery_started_at", "daily_halt_started_at", "weekly_halt_started_at",
    "streak_halt_started_at", "profitable_trades_since_streak_halt", "volatility_halted",
    "volatility_stable_bars", "decision", "initial_equity"]

/-- `_risk`. -/
def readRisk (value : Json) : Except LiveError RiskState := do
  let data ← items value
  reject (Health.sameKeys (data.map Prod.fst) riskNames = false) (.journal "Invalid risk schema")
  let counter := LiveError.journal "Invalid risk counter"
  let riskStartedAt ← optionalDatetime texts (← valueOf data "risk_started_at")
  let lastRiskAt ← optionalDatetime texts (← valueOf data "last_risk_at")
  let recoveryStartedAt ← optionalDatetime texts (← valueOf data "recovery_started_at")
  let dailyHaltStartedAt ← optionalDatetime texts (← valueOf data "daily_halt_started_at")
  let weeklyHaltStartedAt ← optionalDatetime texts (← valueOf data "weekly_halt_started_at")
  let streakHaltStartedAt ← optionalDatetime texts (← valueOf data "streak_halt_started_at")
  let dailyDate ← optionalDate texts (← valueOf data "daily_date")
  let equityHistory ← (← elements (← valueOf data "equity_history")).mapM (readObservation texts)
  let decision ← readRiskDecision texts (← valueOf data "decision")
  return {
    initialEquity := ← number (← valueOf data "initial_equity")
    equityPeak := ← number (← valueOf data "equity_peak")
    dailyDate
    dailyBaselineEquity := ← number (← valueOf data "daily_baseline_equity")
    equityHistory, riskStartedAt
    lastEquity := ← number (← valueOf data "last_equity")
    lastRiskAt
    consecutiveLosses := ← count counter (← valueOf data "consecutive_losses")
    processedTradeCount := ← count counter (← valueOf data "processed_trade_count")
    recoveryStartedAt, dailyHaltStartedAt, weeklyHaltStartedAt, streakHaltStartedAt
    profitableTradesSinceStreakHalt :=
      ← count counter (← valueOf data "profitable_trades_since_streak_halt")
    volatilityHalted := ← flag (← valueOf data "volatility_halted")
    volatilityStableBars := ← count counter (← valueOf data "volatility_stable_bars")
    decision }

/-- `_position` of a value that is not `None`. -/
def readHeld (value : Json) : Except LiveError LivePosition := do
  let data ← items value
  let quantity ← toDecimal texts (← valueOf data "quantity")
  let costBasis ← toDecimal texts (← valueOf data "cost_basis")
  let realizedPnl ← toDecimal texts (← valueOf data "realized_pnl")
  let entryAt ← optionalDatetime texts (← valueOf data "entry_at")
  let pendingStopAt ← optionalDatetime texts (← valueOf data "pending_stop_at")
  let completedBarAt ← presentDatetime texts ((data.lookup "completed_bar_at").getD .null)
  checkKeys data ["quantity", "entry_price", "entry_atr", "initial_atr_mult", "entry_at",
      "initial_stop", "current_stop", "high_water", "held_bars", "cost_basis"]
    ["realized_pnl", "pending_stop", "pending_stop_at", "completed_bar_at",
      "completed_bar_fingerprint"]
  return {
    quantity
    entryPrice := ← number (← valueOf data "entry_price")
    entryAtr := ← number (← valueOf data "entry_atr")
    initialAtrMult := ← number (← valueOf data "initial_atr_mult")
    entryAt := ← require entryAt (.value "AttributeError")
    initialStop := ← number (← valueOf data "initial_stop")
    currentStop := ← number (← valueOf data "current_stop")
    highWater := ← number (← valueOf data "high_water")
    heldBars := ← count (.journal "Invalid position facts") (← valueOf data "held_bars")
    costBasis, realizedPnl
    pendingStop := ← optionalNumber ((data.lookup "pending_stop").getD .null)
    pendingStopAt, completedBarAt
    completedBarFingerprint :=
      ← optionalText ((data.lookup "completed_bar_fingerprint").getD .null) }

/-- `_position`. -/
def readPosition : Json → Except LiveError (Option LivePosition)
  | .null => .ok none
  | value => some <$> readHeld texts value

/-- A stored decision that is not `None`. -/
def readMade (value : Json) : Except LiveError StoredDecision := do
  let data ← items value
  let risk ← readRiskDecision texts (← valueOf data "risk")
  checkKeys data ["action", "reason", "quantity", "next_stop", "risk"] []
  return {
    action := ← text (← valueOf data "action")
    reason := ← optionalText (← valueOf data "reason")
    quantity := ← number (← valueOf data "quantity")
    nextStop := ← optionalNumber (← valueOf data "next_stop")
    risk }

/-- A stored decision. -/
def readDecision (value : Json) : Except LiveError (Option StoredDecision) :=
  if truthy value then some <$> readMade texts value else .ok none

/-- A closed trade. -/
def readTrade (value : Json) : Except LiveError ClosedTrade := do
  let data ← items value
  return {
    netPnl := ← number (← valueOf data "net_pnl")
    exitTime := ← fromisoformat texts (← valueOf data "exit_time") }

/-- `_state`. -/
def readState (value : Json) : Except LiveError StoredState := do
  let data ← items value
  let cash ← toDecimal texts (← valueOf data "cash")
  let position ← readPosition texts (← valueOf data "position")
  let risk ← readRisk texts (← valueOf data "risk")
  let health ← readHealth (← valueOf data "health")
  let closedTrades ← (← elements (← valueOf data "closed_trades")).mapM (readTrade texts)
  let completedAt ← optionalDatetime texts (← valueOf data "completed_at")
  let decision ← readDecision texts (← valueOf data "decision")
  checkKeys data ["cash", "position", "risk", "health"]
    ["closed_trades", "completed_at", "decision", "candle_fingerprint"]
  let state : StoredState := {
    cash, position, risk, health, closedTrades, completedAt, decision
    candleFingerprint := ← optionalText ((data.lookup "candle_fingerprint").getD .null) }
  validateState state.facts
  return state

/-- The side of a text. -/
def readSide (value : String) : Except LiveError Side :=
  if value = "bid" then .ok .bid
  else if value = "ask" then .ok .ask
  else .error (.journal "Invalid intent facts")

/-- `_intent`. -/
def readIntent (value : Json) : Except LiveError LiveIntent := do
  let data ← items value
  let amount ← toDecimal texts (← valueOf data "amount")
  let quantity ← toDecimal texts (← valueOf data "quantity")
  let funds ← toDecimal texts (← valueOf data "funds")
  let fee ← toDecimal texts (← valueOf data "fee")
  let createdAt ← fromisoformat texts (← valueOf data "created_at")
  checkKeys data ["identifier", "side", "amount", "reference_price", "entry_atr",
      "initial_atr_mult", "created_at"]
    ["quantity", "funds", "fee", "venue_uuid", "terminal", "cancel_requested"]
  let intent : LiveIntent := {
    identifier := ← text (← valueOf data "identifier")
    side := ← readSide (← text (← valueOf data "side"))
    amount
    referencePrice := ← number (← valueOf data "reference_price")
    entryAtr := ← number (← valueOf data "entry_atr")
    initialAtrMult := ← number (← valueOf data "initial_atr_mult")
    createdAt, quantity, funds, fee
    venueUuid := ← optionalText ((data.lookup "venue_uuid").getD .null)
    terminal := ← flag ((data.lookup "terminal").getD (.bool false))
    cancelRequested := ← flag ((data.lookup "cancel_requested").getD (.bool false)) }
  validateIntent intent
  return intent

end Read

/-! ## Reading what was written -/

section Written

variable {zone : Zones} {texts : Texts}

/-- An optional datetime is read as it was written. -/
@[simp] theorem optionalDatetime_written (place : String) (value : Option ℤ) :
    optionalDatetime texts (optionalStamp zone place value) = .ok value := by
  cases value <;> rfl

/-- An optional datetime that may not be empty is read as it was written. -/
@[simp] theorem presentDatetime_written (place : String) (value : Option ℤ) :
    presentDatetime texts (optionalStamp zone place value) = .ok value := by
  cases value <;> rfl

/-- A datetime is read as it was written. -/
@[simp] theorem fromisoformat_written (place : String) (index : ℕ) (instant : ℤ) :
    fromisoformat texts (stamp zone place index instant) = .ok instant := rfl

/-- An optional date is read as it was written. -/
@[simp] theorem optionalDate_written (value : Option ℤ) :
    optionalDate texts (nullable (value.map .date)) = .ok value := by
  cases value <;> rfl

/-- An optional number is read as it was written. -/
@[simp] theorem optionalNumber_written (value : Option ℚ) :
    optionalNumber (nullable (value.map .float)) = .ok value := by
  cases value <;> rfl

/-- An optional text is read as it was written. -/
@[simp] theorem optionalText_written (value : Option String) :
    optionalText (nullable (value.map .text)) = .ok value := by
  cases value <;> rfl

/-- A count is read as it was written. -/
@[simp] theorem count_written (e : LiveError) (n : ℕ) : count e (.int n) = .ok n := by
  simp [count]

/-- A decimal is read as it was written. -/
@[simp] theorem toDecimal_written (value : ℚ) : toDecimal texts (.decimal value) = .ok value := rfl

/-- A number is read as it was written. -/
@[simp] theorem number_written (value : ℚ) : number (.float value) = .ok value := rfl

/-- A flag is read as it was written. -/
@[simp] theorem flag_written (value : Bool) : flag (.bool value) = .ok value := rfl

/-- A text is read as it was written. -/
@[simp] theorem text_written (value : String) : text (.text value) = .ok value := rfl

/-- An object has its items. -/
@[simp] theorem items_object (data : List (String × Json)) : items (.object data) = .ok data := rfl

/-- An array has its elements. -/
@[simp] theorem elements_array (values : List Json) : elements (.array values) = .ok values := rfl

/-- The first item of an object is found under its key. -/
@[simp] theorem valueOf_cons_self (key : String) (value : Json) (data : List (String × Json)) :
    valueOf ((key, value) :: data) key = .ok value := by
  simp [valueOf, require]

/-- A key of another item is looked for after it. -/
theorem valueOf_cons_of_ne {key other : String} (h : key ≠ other) (value : Json)
    (data : List (String × Json)) :
    valueOf ((other, value) :: data) key = valueOf data key := by
  rw [valueOf, valueOf, List.lookup_cons, beq_false_of_ne h]

/-- A list that is written element by element is read back element by element. -/
theorem mapM_written {α β : Type} {write : α → β} {read : β → Except LiveError α}
    (h : ∀ x, read (write x) = .ok x) (xs : List α) : (xs.map write).mapM read = .ok xs := by
  rw [mapM_eq_ok, List.forall₂_map_left_iff]
  exact List.forall₂_same.mpr fun x _ => h x

/-- So is one that is written with the positions of its elements. -/
theorem mapM_zipIdx_written {α β : Type} {write : α × ℕ → β} {read : β → Except LiveError α}
    (h : ∀ item, read (write item) = .ok item.1) (xs : List α) :
    (xs.zipIdx.map write).mapM read = .ok xs := by
  rw [mapM_eq_ok, List.forall₂_map_left_iff]
  generalize 0 = n
  induction xs generalizing n with
  | nil => exact List.Forall₂.nil
  | cons x xs ih => exact List.Forall₂.cons (h (x, n)) (ih (n + 1))

/-- A risk decision is read as it was written. -/
theorem readRiskDecision_written (place : String) (decision : RiskDecision) :
    readRiskDecision texts (riskDecisionMapping zone place decision) = .ok decision := by
  have hreasons : (decision.reasons.map Json.text).mapM text = .ok decision.reasons :=
    mapM_written text_written decision.reasons
  simp [readRiskDecision, riskDecisionMapping, valueOf_cons_of_ne, checkKeys, hreasons]

/-- A risk state is read as it was written. -/
theorem readRisk_written (risk : RiskState) :
    readRisk texts (riskMapping zone risk) = .ok risk := by
  have hhistory : (risk.equityHistory.zipIdx.map fun item =>
      Json.array [stamp zone "equity_history" item.2 item.1.1, .float item.1.2]).mapM
        (readObservation texts) = .ok risk.equityHistory := by
    refine mapM_zipIdx_written (fun item => ?_) risk.equityHistory
    simp [readObservation]
  simp [-Bool.exists_bool, readRisk, riskMapping, valueOf_cons_of_ne, riskNames, Health.sameKeys,
    hhistory, readRiskDecision_written]

/-- A position is read as it was written. -/
theorem readHeld_written (position : LivePosition) :
    readHeld texts (positionMapping zone position) = .ok position := by
  have hentry : optionalDatetime texts (stamp zone "entry_at" 0 position.entryAt) =
      .ok (some position.entryAt) := rfl
  simp [readHeld, positionMapping, valueOf_cons_of_ne, checkKeys, hentry, List.lookup_cons]

/-- An optional position is read as it was written. -/
theorem readPosition_written (position : Option LivePosition) :
    readPosition texts (nullable (position.map (positionMapping zone))) = .ok position := by
  cases position with
  | none => rfl
  | some position =>
    change some <$> readHeld texts (positionMapping zone position) = _
    rw [readHeld_written]
    rfl

/-- An optional decision is read as it was written. -/
theorem readDecision_written (decision : Option StoredDecision) :
    readDecision texts (nullable (decision.map (decisionMapping zone))) = .ok decision := by
  cases decision with
  | none => rfl
  | some decision =>
    have hmade : readMade texts (decisionMapping zone decision) = .ok decision := by
      simp [readMade, decisionMapping, valueOf_cons_of_ne, checkKeys, readRiskDecision_written]
    change some <$> readMade texts (decisionMapping zone decision) = _
    rw [hmade]
    rfl

/-- Closed trades are read as they were written. -/
theorem readTrades_written (trades : List ClosedTrade) :
    (trades.zipIdx.map (tradeMapping zone)).mapM (readTrade texts) = .ok trades := by
  refine mapM_zipIdx_written (fun item => ?_) trades
  simp [readTrade, tradeMapping, valueOf_cons_of_ne]

/-- A field of the monitor that is written is read back. -/
theorem readField_written {field : Health.Json} {value : Json} (h : writeField field = .ok value) :
    readField value = .ok field := by
  have hscalar : ∀ {scalar value}, writeScalar scalar = .ok value →
      readScalar value = .ok scalar ∧ ∀ values, value ≠ .array values := by
    intro scalar value h
    cases scalar with
    | float number =>
      cases number with
      | finite q =>
        cases h
        exact ⟨rfl, nofun⟩
      | infinite => cases h
    | _ =>
      cases h
      exact ⟨rfl, nofun⟩
  cases field with
  | scalar scalar =>
    obtain ⟨hread, hne⟩ := hscalar h
    have hfield : readField value = Health.Json.scalar <$> readScalar value := by
      cases value with
      | array values => exact absurd rfl (hne values)
      | _ => rfl
    rw [hfield, hread]
    rfl
  | array scalars =>
    obtain ⟨values, hvalues, rfl⟩ := Except.map_eq_ok.mp h
    refine Except.map_eq_ok.mpr ⟨scalars, ?_, rfl⟩
    rw [mapM_eq_ok] at hvalues ⊢
    exact (hvalues.imp fun _ _ hone => (hscalar hone).1).flip

/-- The monitor is read back exactly when its snapshot is consistent. -/
theorem readHealth_written {health read : HealthSnapshot} {value : Json}
    (h : writeHealth health.toMapping = .ok value) :
    readHealth value = .ok read ↔
      HealthSnapshot.fromEventMapping health.toMapping = .ok read := by
  obtain ⟨data, hdata, rfl⟩ := Except.map_eq_ok.mp h
  have hmapping : data.mapM (fun item => (item.1, ·) <$> readField item.2) =
      .ok health.toMapping := by
    rw [mapM_eq_ok] at hdata ⊢
    refine (hdata.imp fun item written hone => ?_).flip
    obtain ⟨value, hvalue, rfl⟩ := Except.map_eq_ok.mp hone
    exact Except.map_eq_ok.mpr ⟨item.2, readField_written hvalue, rfl⟩
  simp [readHealth, hmapping]

/-- A monitor that can be read back can be written: its floats are finite. -/
theorem writeHealth_of_consistent {health : HealthSnapshot} (h : Health.Consistent health) :
    ∃ value, writeHealth health.toMapping = .ok value := by
  have hscalars : ∀ scalars : List Health.Scalar,
      (∀ scalar ∈ scalars, ∃ value, writeScalar scalar = .ok value) →
        ∃ values, scalars.mapM writeScalar = .ok values := by
    intro scalars hall
    choose! write hwrite using hall
    refine ⟨scalars.map write, ?_⟩
    rw [mapM_eq_ok, List.forall₂_map_right_iff]
    exact List.forall₂_same.mpr hwrite
  have hfields : ∀ item ∈ health.toMapping, ∃ value, writeField item.2 = .ok value := by
    obtain ⟨cash, _, hcash⟩ := h.fields.cash
    obtain ⟨btc, _, hbtc⟩ := h.fields.btc
    obtain ⟨deviation, _, hdeviation⟩ := h.fields.deviation
    obtain ⟨anomaly, _, hanomaly⟩ := h.fields.anomaly
    have hbool : ∀ value, ∃ written, writeField (.scalar (.bool value)) = .ok written :=
      fun _ => ⟨_, rfl⟩
    have hint : ∀ value, ∃ written, writeField (.scalar (.int value)) = .ok written :=
      fun _ => ⟨_, rfl⟩
    have htext : ∀ value, ∃ written, writeField (.scalar (.text value)) = .ok written :=
      fun _ => ⟨_, rfl⟩
    have hfloat : ∀ value, ∃ written, writeField (.scalar (.float (.finite value))) = .ok written :=
      fun _ => ⟨_, rfl⟩
    have htime : ∀ value, ∃ written, writeField (Health.optionalDatetime value) = .ok written := by
      intro value
      cases value <;> exact ⟨_, rfl⟩
    have hreasons : ∃ written, writeField (.array (health.reasons.map fun reason =>
        .text reason.text)) = .ok written := by
      obtain ⟨values, hvalues⟩ := hscalars (health.reasons.map fun reason => .text reason.text) (by
        intro scalar hscalar
        obtain ⟨reason, _, rfl⟩ := List.mem_map.mp hscalar
        exact ⟨_, rfl⟩)
      exact ⟨.array values, Except.map_eq_ok.mpr ⟨values, hvalues, rfl⟩⟩
    simp [HealthSnapshot.toMapping, HealthSnapshot.sharedItems, htime, hreasons, hcash, hbtc,
      hdeviation, hanomaly, hbool, hint, htext, hfloat]
  choose! write hwrite using hfields
  refine ⟨.object (health.toMapping.map fun item => (item.1, write item)), ?_⟩
  refine Except.map_eq_ok.mpr ⟨_, ?_, rfl⟩
  rw [mapM_eq_ok, List.forall₂_map_right_iff]
  exact List.forall₂_same.mpr fun item hitem =>
    Except.map_eq_ok.mpr ⟨_, hwrite item hitem, rfl⟩

/-- A valid state holds a monitor that is read back as it was. -/
theorem fromEventMapping_of_valid {state : LiveState} (h : validateState state = .ok ()) :
    HealthSnapshot.fromEventMapping state.health.toMapping = .ok state.health := by
  unfold validateState at h
  cases hsnapshot : HealthSnapshot.fromEventMapping state.health.toMapping with
  | error e => simp [hsnapshot] at h
  | ok snapshot => rw [Health.fromEventMapping_toMapping_eq hsnapshot]

/-- So its monitor can be written. -/
theorem writeHealth_of_valid {state : StoredState} (h : validateState state.facts = .ok ()) :
    ∃ value, writeHealth state.health.toMapping = .ok value := by
  have hmapping := fromEventMapping_of_valid h
  simp only [HealthSnapshot.fromEventMapping, Except.bind_eq_ok, Except.mapError_eq_ok] at hmapping
  obtain ⟨_, _, hmapping⟩ := hmapping
  exact writeHealth_of_consistent ((Health.fromMapping_toMapping_iff _).mp hmapping)

/-- A state that was written is read back as it was, exactly when its facts are valid. -/
theorem readState_written {state read : StoredState} {value : Json}
    (h : stateMapping zone state = .ok value) :
    readState texts value = .ok read ↔ validateState state.facts = .ok () ∧ read = state := by
  obtain ⟨health, hhealth, hvalue⟩ := Except.bind_eq_ok.mp h
  rw [Except.pure_eq_ok] at hvalue
  subst hvalue
  have hread : readState texts (.object [("cash", .decimal state.cash),
      ("position", nullable (state.position.map (positionMapping zone))),
      ("risk", riskMapping zone state.risk), ("health", health),
      ("closed_trades", .array (state.closedTrades.zipIdx.map (tradeMapping zone))),
      ("completed_at", optionalStamp zone "completed_at" state.completedAt),
      ("decision", nullable (state.decision.map (decisionMapping zone))),
      ("candle_fingerprint", nullable (state.candleFingerprint.map .text))]) = .ok read ↔
      ∃ snapshot, HealthSnapshot.fromEventMapping state.health.toMapping = .ok snapshot ∧
        (∃ u, validateState { state with health := snapshot }.facts = .ok u) ∧
        { state with health := snapshot } = read := by
    simp [-List.mapM_map, readState, valueOf_cons_of_ne, checkKeys, readPosition_written,
      readRisk_written, readDecision_written, readTrades_written, readHealth_written hhealth,
      List.lookup_cons]
  rw [hread]
  constructor
  · rintro ⟨snapshot, hsnapshot, ⟨_, hvalid⟩, rfl⟩
    obtain rfl := Health.fromEventMapping_toMapping_eq hsnapshot
    exact ⟨hvalid, rfl⟩
  · rintro ⟨hvalid, rfl⟩
    exact ⟨read.health, fromEventMapping_of_valid hvalid, ⟨(), hvalid⟩, rfl⟩

/-- An intent that was written is read back as it was, exactly when its facts are valid. -/
theorem readIntent_written {intent read : LiveIntent} :
    readIntent texts (intentMapping zone intent) = .ok read ↔
      validateIntent intent = .ok () ∧ read = intent := by
  have hside : readSide (sideText intent.side) = .ok intent.side := by
    cases intent.side <;> rfl
  have hread : readIntent texts (intentMapping zone intent) = .ok read ↔
      (∃ u, validateIntent intent = .ok u) ∧ intent = read := by
    simp [-Bool.exists_bool, readIntent, intentMapping, valueOf_cons_of_ne, checkKeys, hside,
      List.lookup_cons]
  rw [hread]
  constructor
  · rintro ⟨⟨_, hvalid⟩, rfl⟩
    exact ⟨hvalid, rfl⟩
  · rintro ⟨hvalid, rfl⟩
    exact ⟨⟨(), hvalid⟩, rfl⟩

end Written

end AutoBit.Live.Codec
