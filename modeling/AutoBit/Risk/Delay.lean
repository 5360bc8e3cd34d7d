import AutoBit.Risk.Accumulation
import Mathlib.Tactic.FieldSimp

/-!
# The reducer under another label and another currency

Nothing in the reducer but the UTC day depends on the label of a bar, and nothing depends
on the unit of money. A state whose instants are moved by a delay and whose money is scaled
by a positive factor advances to a state that is moved and scaled in the same way, as long
as the losses of the day are on the same side of the daily limit.
-/

namespace AutoBit.Risk

open Library

/-! ## The step as a function -/

/-- The equities of the last seven days, with the one of a new bar. -/
def recentHistory (prior : RiskState) (observation : RiskObservation) : List (ℤ × ℚ) :=
  let newBar : Bool := prior.lastRiskAt ≠ some observation.now
  let history := if newBar then prior.equityHistory ++ [(observation.now, observation.equity)]
    else prior.equityHistory
  history.filter fun item => observation.now - hours 168 ≤ item.1

/-- The equity that the weekly loss is measured against. -/
def weeklyBaseline (prior : RiskState) (observation : RiskObservation) : Except Failure ℚ :=
  let barAt := observation.now
  if barAt - prior.riskStartedAt.getD barAt < hours 168 then .ok prior.initialEquity
  else match (recentHistory prior observation).head? with
    | some item => .ok item.2
    | none => .error (.value "tuple index out of range")

/-- The loss streak and the profitable trades since its halt, with the new trades. -/
def tradeCounts (prior : RiskState) (trades : List ClosedTrade) : ℕ × ℕ :=
  (trades.drop prior.processedTradeCount).foldl (countTrade prior.streakHaltStartedAt)
    (prior.consecutiveLosses, prior.profitableTradesSinceStreakHalt)

/-- The snapshot that a step evaluates. -/
def riskInput (prior : RiskState) (observation : RiskObservation) (config : RiskConfig)
    (weekly : ℚ) : RiskInput :=
  let barAt := observation.now
  let drawdown := drawdownFrom (max prior.equityPeak observation.equity) observation.equity
  let dailyLoss := lossFromBaseline observation.equity (dailyBaseline prior barAt)
  let weeklyLoss := lossFromBaseline observation.equity weekly
  let counts := tradeCounts prior observation.closedTrades
  let streakBegins : Bool := 5 ≤ counts.1 ∧ prior.streakHaltStartedAt = none
  let ratio := observation.volatilityRatio
  let newBar : Bool := prior.lastRiskAt ≠ some barAt
  let volatilityBegins : Bool := !prior.volatilityHalted ∧ ratio.Exceeds 3
  { now := barAt
    drawdown, dailyLoss, weeklyLoss
    consecutiveLosses := counts.1
    volatilityRatio := ratio
    systemHealthy := observation.systemHealthy
    config
    recoveryStartedAt := openedStart (∃ value ∈ drawdown, config.hardDrawdown ≤ value) barAt
      prior.recoveryStartedAt
    dailyHaltStartedAt := openedStart (config.dailyLossLimit ≤ dailyLoss) barAt
      prior.dailyHaltStartedAt
    weeklyHaltStartedAt := openedStart (config.weeklyHaltLimit ≤ weeklyLoss) barAt
      prior.weeklyHaltStartedAt
    streakHaltStartedAt := if streakBegins then some barAt else prior.streakHaltStartedAt
    volatilityHalted := prior.volatilityHalted || volatilityBegins
    volatilityStableBars :=
      if prior.volatilityHalted ∧ newBar then
        if observation.volatilityBarValid ∧ ratio.AtMost (15 / 10) then prior.volatilityStableBars + 1
        else 0
      else if volatilityBegins then 0
      else prior.volatilityStableBars
    profitableTradesSinceStreakHalt := if streakBegins then 0 else counts.2 }

/-- The state that a step leaves. -/
def nextState (prior : RiskState) (observation : RiskObservation) (config : RiskConfig)
    (input : RiskInput) : RiskState :=
  let barAt := observation.now
  let streakEnds : Bool := (∃ start ∈ input.streakHaltStartedAt, start + hours 48 ≤ barAt) ∧
    2 ≤ input.profitableTradesSinceStreakHalt
  let volatilityEnds : Bool := input.volatilityHalted ∧ observation.volatilityBarValid ∧
    observation.volatilityRatio.AtMost (15 / 10) ∧ 3 ≤ input.volatilityStableBars
  { initialEquity := prior.initialEquity
    equityPeak := max prior.equityPeak observation.equity
    dailyDate := some (utcDate barAt)
    dailyBaselineEquity := dailyBaseline prior barAt
    equityHistory := recentHistory prior observation
    riskStartedAt := some (prior.riskStartedAt.getD barAt)
    lastEquity := observation.equity
    lastRiskAt := some barAt
    consecutiveLosses := input.consecutiveLosses
    processedTradeCount := observation.closedTrades.length
    recoveryStartedAt :=
      keptStart (input.drawdown = some 0) (hours 72) barAt input.recoveryStartedAt
    dailyHaltStartedAt :=
      keptStart (input.dailyLoss < config.dailyLossLimit) (hours 24) barAt input.dailyHaltStartedAt
    weeklyHaltStartedAt :=
      keptStart (input.weeklyLoss < config.weeklyHaltLimit) (hours 48) barAt
        input.weeklyHaltStartedAt
    streakHaltStartedAt := if streakEnds then none else input.streakHaltStartedAt
    profitableTradesSinceStreakHalt := if streakEnds then 0 else input.profitableTradesSinceStreakHalt
    volatilityHalted := input.volatilityHalted && !volatilityEnds
    volatilityStableBars := if volatilityEnds then 0 else input.volatilityStableBars
    decision := evaluateRisk input }

/-- The step checks its observation, looks up the weekly baseline, and is a function of it. -/
theorem advanceRiskState_eq (prior : RiskState) (observation : RiskObservation)
    (config : RiskConfig) : advanceRiskState prior observation config = (do
      validateObservation prior observation
      let weekly ← weeklyBaseline prior observation
      return nextState prior observation config (riskInput prior observation config weekly)) := by
  unfold advanceRiskState weeklyBaseline recentHistory
  refine bind_congr fun _ => ?_
  dsimp only
  have hstep {built : RiskState} {weekly : ℚ}
      (h : built = nextState prior observation config (riskInput prior observation config weekly)) :
      (pure built : Except Failure RiskState) = pure (nextState prior observation config
        (riskInput prior observation config weekly)) := congrArg pure h
  split
  · refine hstep ?_
    unfold nextState
    congr 1
  · generalize List.head? _ = first
    cases first with
    | some item =>
      refine hstep ?_
      unfold nextState
      congr 1
    | none => rfl

/-! ## Decisions under a delay -/

section

variable {delay : ℤ}

/-- An outcome whose halt lasts longer by a delay. -/
def RuleOutcome.delayed (delay : ℤ) : RuleOutcome → RuleOutcome
  | .halt reason until_ => .halt reason (until_.map (· + delay))
  | .clear => .clear
  | .reduce reason => .reduce reason

/-- A decision whose halt lasts longer by a delay. -/
def RiskDecision.delayed (delay : ℤ) (decision : RiskDecision) : RiskDecision :=
  { decision with haltedUntil := decision.haltedUntil.map (· + delay) }

/-- A delayed outcome has the same reasons. -/
@[simp] theorem RuleOutcome.delayed_reasons (outcome : RuleOutcome) :
    (outcome.delayed delay).reasons = outcome.reasons := by
  cases outcome <;> rfl

/-- A delayed outcome has delayed halts. -/
@[simp] theorem RuleOutcome.delayed_halts (outcome : RuleOutcome) :
    (outcome.delayed delay).halts = outcome.halts.map (Option.map (· + delay)) := by
  cases outcome <;> rfl

/-- A delayed outcome reduces when the outcome does. -/
@[simp] theorem RuleOutcome.delayed_isReduce (outcome : RuleOutcome) :
    (outcome.delayed delay).isReduce = outcome.isReduce := by
  cases outcome <;> rfl

/-- A halt that is counted from a later instant. -/
theorem halt_delayed (reason : String) (start window : ℤ) :
    RuleOutcome.halt reason (some (start + delay + window)) =
      (RuleOutcome.halt reason (some (start + window))).delayed delay := by
  rw [add_right_comm]
  rfl

/-- Whether a window is over does not depend on a common delay. -/
theorem window_delayed (now start window : ℤ) :
    now + delay < start + delay + window ↔ now < start + window := by
  omega

/-- The drawdown rule at a delayed time has a delayed outcome. -/
theorem drawdownRule_delayed (now : ℤ) (drawdown : ℚ) (start : Option ℤ) :
    drawdownRule (now + delay) drawdown (start.map (· + delay)) =
      ((drawdownRule now drawdown start).1, (drawdownRule now drawdown start).2.1.delayed delay,
        (drawdownRule now drawdown start).2.2) := by
  cases start with
  | none =>
    simp only [drawdownRule, Option.map_none, halt_delayed]
    split_ifs <;> rfl
  | some start =>
    simp only [drawdownRule, Option.map_some, halt_delayed, window_delayed]
    split_ifs <;> rfl

/-- The daily rule at a delayed time has a delayed outcome, for losses on the same side of the
limit. -/
theorem dailyRule_delayed (now : ℤ) {loss loss' : ℚ} (start : Option ℤ)
    (hloss : approvedConfig.dailyLossLimit ≤ loss' ↔ approvedConfig.dailyLossLimit ≤ loss) :
    dailyRule (now + delay) loss' (start.map (· + delay)) =
      (dailyRule now loss start).delayed delay := by
  cases start with
  | none =>
    simp only [dailyRule, Option.map_none, hloss, halt_delayed]
    split_ifs <;> rfl
  | some start =>
    simp only [dailyRule, Option.map_some, hloss, halt_delayed, window_delayed]
    split_ifs <;> rfl

/-- The weekly rule at a delayed time has a delayed outcome. -/
theorem weeklyRule_delayed (now : ℤ) (loss : ℚ) (start : Option ℤ) :
    weeklyRule (now + delay) loss (start.map (· + delay)) =
      (weeklyRule now loss start).delayed delay := by
  cases start with
  | none =>
    simp only [weeklyRule, Option.map_none, halt_delayed]
    split_ifs <;> rfl
  | some start =>
    simp only [weeklyRule, Option.map_some, halt_delayed, window_delayed]
    split_ifs <;> rfl

/-- The streak rule at a delayed time has a delayed outcome. -/
theorem streakRule_delayed (now : ℤ) (losses profitable : ℕ) (start : Option ℤ) :
    streakRule (now + delay) losses profitable (start.map (· + delay)) =
      (streakRule now losses profitable start).delayed delay := by
  cases start with
  | none =>
    simp only [streakRule, Option.map_none, halt_delayed]
    split_ifs <;> rfl
  | some start =>
    simp only [streakRule, Option.map_some, halt_delayed, window_delayed]
    split_ifs <;> rfl

/-- The outcome of the volatility rule has no time that a delay moves. -/
theorem volatilityRule_delayed (delay : ℤ) (ratio : ℚ) (halted : Bool) (stableBars : ℕ) :
    volatilityRule ratio halted stableBars = (volatilityRule ratio halted stableBars).delayed delay := by
  unfold volatilityRule
  split_ifs <;> rfl

/-- The latest of some instants is delayed with them. -/
theorem max?_map_add (delay : ℤ) (instants : List ℤ) :
    (instants.map (· + delay)).max? = instants.max?.map (· + delay) := by
  cases instants with
  | nil => rfl
  | cons first rest =>
    simp only [List.map_cons, List.max?_cons', Option.map_some]
    congr 1
    induction rest generalizing first with
    | nil => rfl
    | cons next rest ih =>
      simp only [List.map_cons, List.foldl_cons]
      rw [← ih, max_add_add_right]

/-- The decision that a drawdown rule and the other outcomes amount to. -/
def combine (rule : (ℚ × ℚ) × RuleOutcome × List String) (outcomes : List RuleOutcome) :
    RiskDecision :=
  let reasons := rule.2.1.reasons ++ rule.2.2 ++ outcomes.flatMap RuleOutcome.reasons
  let halts := rule.2.1.halts ++ outcomes.flatMap RuleOutcome.halts
  if halts ≠ [] then
    ⟨0, 0, if none ∈ halts then none else (halts.filterMap id).max?, reasons⟩
  else if outcomes.any RuleOutcome.isReduce then
    ⟨min rule.1.1 (rule.1.1 / 2), min rule.1.2 (rule.1.2 / 2), none, reasons⟩
  else ⟨rule.1.1, rule.1.2, none, reasons⟩

/-- Delayed outcomes combine to a delayed decision. -/
theorem combine_delayed (delay : ℤ) (ladder : ℚ × ℚ) (outcome : RuleOutcome)
    (recovery : List String)
    (outcomes : List RuleOutcome) :
    combine (ladder, outcome.delayed delay, recovery) (outcomes.map (RuleOutcome.delayed delay)) =
      (combine (ladder, outcome, recovery) outcomes).delayed delay := by
  have hreasons : (outcomes.map (RuleOutcome.delayed delay)).flatMap RuleOutcome.reasons =
      outcomes.flatMap RuleOutcome.reasons := by
    simp [List.flatMap_map]
  have hhalts : (outcome.delayed delay).halts ++
      (outcomes.map (RuleOutcome.delayed delay)).flatMap RuleOutcome.halts =
        (outcome.halts ++ outcomes.flatMap RuleOutcome.halts).map (Option.map (· + delay)) := by
    simp [List.flatMap_map, List.map_flatMap]
  have hreduce : (outcomes.map (RuleOutcome.delayed delay)).any RuleOutcome.isReduce =
      outcomes.any RuleOutcome.isReduce := by
    simp [List.any_map, Function.comp_def]
  have hfilter (halts : List (Option ℤ)) : (halts.map (Option.map (· + delay))).filterMap id =
      (halts.filterMap id).map (· + delay) := by
    simp [List.filterMap_map, List.map_filterMap]
  simp only [combine, hreasons, hhalts, hreduce, hfilter, RuleOutcome.delayed_reasons]
  simp only [ne_eq, List.map_eq_nil_iff, List.mem_map, Option.map_eq_none_iff, exists_eq_right,
    max?_map_add]
  split_ifs <;> rfl

/-- A snapshot that says the same at a later label: its losses of the day may differ, but
not in whether they reach the limit. -/
structure SameSnapshot (delay : ℤ) (input input' : RiskInput) : Prop where
  now : input'.now = input.now + delay
  drawdown : input'.drawdown = input.drawdown
  dailyLoss : 0 ≤ input.dailyLoss ∧ 0 ≤ input'.dailyLoss
  dailyLimit : approvedConfig.dailyLossLimit ≤ input'.dailyLoss ↔
    approvedConfig.dailyLossLimit ≤ input.dailyLoss
  weeklyLoss : input'.weeklyLoss = input.weeklyLoss
  consecutiveLosses : input'.consecutiveLosses = input.consecutiveLosses
  volatilityRatio : input'.volatilityRatio = input.volatilityRatio
  systemHealthy : input'.systemHealthy = input.systemHealthy
  config : input'.config = input.config
  recoveryStartedAt : input'.recoveryStartedAt = input.recoveryStartedAt.map (· + delay)
  dailyHaltStartedAt : input'.dailyHaltStartedAt = input.dailyHaltStartedAt.map (· + delay)
  weeklyHaltStartedAt : input'.weeklyHaltStartedAt = input.weeklyHaltStartedAt.map (· + delay)
  streakHaltStartedAt : input'.streakHaltStartedAt = input.streakHaltStartedAt.map (· + delay)
  volatilityHalted : input'.volatilityHalted = input.volatilityHalted
  volatilityStableBars : input'.volatilityStableBars = input.volatilityStableBars
  profitableTrades : input'.profitableTradesSinceStreakHalt = input.profitableTradesSinceStreakHalt

/-- The same facts at a later label get the same decision, halted for longer. -/
theorem SameSnapshot.decision {input input' : RiskInput} (h : SameSnapshot delay input input') :
    evaluateRisk input' = (evaluateRisk input).delayed delay := by
  simp only [evaluateRisk, h.systemHealthy, h.drawdown, h.volatilityRatio, h.config, h.weeklyLoss]
  by_cases hhealthy : input.systemHealthy = false
  · rw [if_pos hhealthy, if_pos hhealthy]
    rfl
  rw [if_neg hhealthy, if_neg hhealthy]
  split
  · rename_i drawdown ratio hdrawdown hratio
    simp only [not_lt.mpr h.dailyLoss.1, not_lt.mpr h.dailyLoss.2]
    by_cases hinvalid : drawdown < 0 ∨ False ∨ input.weeklyLoss < 0 ∨ ratio < 0
    · rw [if_pos hinvalid, if_pos hinvalid]
      rfl
    rw [if_neg hinvalid, if_neg hinvalid]
    by_cases hconfig : input.config ≠ approvedConfig
    · rw [if_pos hconfig, if_pos hconfig]
      rfl
    rw [if_neg hconfig, if_neg hconfig, h.now, h.recoveryStartedAt, h.dailyHaltStartedAt,
      h.weeklyHaltStartedAt, h.streakHaltStartedAt, h.consecutiveLosses, h.profitableTrades,
      h.volatilityHalted, h.volatilityStableBars, drawdownRule_delayed,
      dailyRule_delayed input.now _ h.dailyLimit, weeklyRule_delayed, streakRule_delayed]
    have hcombined := combine_delayed delay
      (drawdownRule input.now drawdown input.recoveryStartedAt).1
      (drawdownRule input.now drawdown input.recoveryStartedAt).2.1
      (drawdownRule input.now drawdown input.recoveryStartedAt).2.2
      [dailyRule input.now input.dailyLoss input.dailyHaltStartedAt,
      weeklyRule input.now input.weeklyLoss input.weeklyHaltStartedAt,
      streakRule input.now input.consecutiveLosses input.profitableTradesSinceStreakHalt
        input.streakHaltStartedAt,
      volatilityRule ratio input.volatilityHalted input.volatilityStableBars]
    rw [List.map_cons, List.map_cons, List.map_cons, List.map_cons, List.map_nil,
      ← volatilityRule_delayed] at hcombined
    exact hcombined
  · rfl

/-! ## States under a delay and a scale -/

/-- A state whose instants are moved by a delay and whose money is scaled, with a UTC day of
its own. -/
@[simps]
def RiskState.moved (delay : ℤ) (scale : ℚ) (day : Option ℤ) (baseline : ℚ) (s : RiskState) :
    RiskState where
  initialEquity := scale * s.initialEquity
  equityPeak := scale * s.equityPeak
  dailyDate := day
  dailyBaselineEquity := baseline
  equityHistory := s.equityHistory.map fun item => (item.1 + delay, scale * item.2)
  riskStartedAt := s.riskStartedAt.map (· + delay)
  lastEquity := scale * s.lastEquity
  lastRiskAt := s.lastRiskAt.map (· + delay)
  consecutiveLosses := s.consecutiveLosses
  processedTradeCount := s.processedTradeCount
  recoveryStartedAt := s.recoveryStartedAt.map (· + delay)
  dailyHaltStartedAt := s.dailyHaltStartedAt.map (· + delay)
  weeklyHaltStartedAt := s.weeklyHaltStartedAt.map (· + delay)
  streakHaltStartedAt := s.streakHaltStartedAt.map (· + delay)
  profitableTradesSinceStreakHalt := s.profitableTradesSinceStreakHalt
  volatilityHalted := s.volatilityHalted
  volatilityStableBars := s.volatilityStableBars
  decision := s.decision.delayed delay

/-- Two observations of one bar, the second at a later label and in another currency, whose
trades are in order for their states and count alike. -/
structure SameBar (delay : ℤ) (scale : ℚ) (prior prior' : RiskState)
    (observation observation' : RiskObservation) : Prop where
  now : observation'.now = observation.now + delay
  equity : observation'.equity = scale * observation.equity
  volatilityRatio : observation'.volatilityRatio = observation.volatilityRatio
  volatilityBarValid : observation'.volatilityBarValid = observation.volatilityBarValid
  systemHealthy : observation'.systemHealthy = observation.systemHealthy
  length : observation'.closedTrades.length = observation.closedTrades.length
  inOrder : tradesInOrder prior observation.now 0 none observation.closedTrades = .ok ()
  inOrder' : tradesInOrder prior' observation'.now 0 none observation'.closedTrades = .ok ()
  counts : tradeCounts prior' observation'.closedTrades =
    tradeCounts prior observation.closedTrades
  dailyLimit : approvedConfig.dailyLossLimit ≤
      lossFromBaseline observation'.equity (dailyBaseline prior' observation'.now) ↔
    approvedConfig.dailyLossLimit ≤
      lossFromBaseline observation.equity (dailyBaseline prior observation.now)

/-- A start that opens at a delayed time is delayed. -/
theorem openedStart_delayed {trigger trigger' : Prop} [Decidable trigger] [Decidable trigger']
    (htrigger : trigger' ↔ trigger) (barAt : ℤ) (recorded : Option ℤ) :
    openedStart trigger' (barAt + delay) (recorded.map (· + delay)) =
      (openedStart trigger barAt recorded).map (· + delay) := by
  unfold openedStart
  simp only [htrigger, Option.map_eq_none_iff]
  split_ifs <;> rfl

/-- A delayed window is over at a delayed time when it was over before. -/
theorem over_delayed (window barAt : ℤ) (start : Option ℤ) :
    (∃ s ∈ start.map (· + delay), s + window ≤ barAt + delay) ↔ ∃ s ∈ start, s + window ≤ barAt := by
  cases start with
  | none => simp
  | some s =>
    simp only [Option.map_some, Option.mem_some_iff, exists_eq_left']
    omega

/-- A start that is kept at a delayed time is delayed. -/
theorem keptStart_delayed {ended ended' : Prop} [Decidable ended] [Decidable ended']
    (hended : ended' ↔ ended) (window barAt : ℤ) (start : Option ℤ) :
    keptStart ended' window (barAt + delay) (start.map (· + delay)) =
      (keptStart ended window barAt start).map (· + delay) := by
  unfold keptStart
  simp only [over_delayed, hended]
  split_ifs <;> rfl

section

variable {scale : ℚ} (hscale : 0 < scale)
include hscale

/-- A loss from a baseline does not depend on the scale. -/
theorem lossFromBaseline_scaled (equity baseline : ℚ) :
    lossFromBaseline (scale * equity) (scale * baseline) = lossFromBaseline equity baseline := by
  simp only [lossFromBaseline, mul_pos_iff_of_pos_left hscale, mul_div_mul_left _ _ hscale.ne']

/-- A maximum scales with its values. -/
theorem max_scaled (a b : ℚ) : max (scale * a) (scale * b) = scale * max a b :=
  (mul_max_of_nonneg a b hscale.le).symm

/-- A drawdown does not depend on the scale. -/
theorem drawdownFrom_scaled (peak equity : ℚ) :
    drawdownFrom (scale * peak) (scale * equity) = drawdownFrom peak equity := by
  simp only [drawdownFrom, mul_pos_iff_of_pos_left hscale, mul_div_mul_left _ _ hscale.ne']

variable {prior : RiskState} {observation observation' : RiskObservation} {day : Option ℤ}
  {baseline : ℚ}
  (h : SameBar delay scale prior (prior.moved delay scale day baseline) observation observation')
include h

omit hscale in
/-- A bar is new under both labels or under none. -/
theorem SameBar.newBar : (prior.moved delay scale day baseline).lastRiskAt = some observation'.now ↔
    prior.lastRiskAt = some observation.now := by
  rw [h.now]
  cases hlast : prior.lastRiskAt with
  | none => simp [RiskState.moved, hlast]
  | some last => simp [RiskState.moved, hlast]

/-- Both observations are accepted, or both are refused for one reason. -/
theorem SameBar.validate :
    validateObservation (prior.moved delay scale day baseline) observation' =
      validateObservation prior observation := by
  have hequity : observation'.equity < 0 ↔ observation.equity < 0 := by
    rw [h.equity]
    simpa using mul_lt_mul_iff_right₀ (b := observation.equity) (c := 0) hscale
  have hinitial : (prior.moved delay scale day baseline).initialEquity ≤ 0 ↔
      prior.initialEquity ≤ 0 := by
    have hsame := mul_le_mul_iff_right₀ (b := prior.initialEquity) (c := 0) hscale
    rwa [mul_zero] at hsame
  have hcursor : (prior.moved delay scale day baseline).processedTradeCount =
    prior.processedTradeCount := rfl
  have hreversed : (∃ last ∈ (prior.moved delay scale day baseline).lastRiskAt,
      observation'.now < last) ↔ ∃ last ∈ prior.lastRiskAt, observation.now < last := by
    rw [h.now]
    cases hlast : prior.lastRiskAt <;> simp [RiskState.moved, hlast]
  have hlast : observation'.equity ≠ (prior.moved delay scale day baseline).lastEquity ↔
      observation.equity ≠ prior.lastEquity := by
    rw [h.equity]
    exact not_congr (mul_right_inj' hscale.ne')
  simp only [validateObservation, hequity, hinitial, hcursor, h.length, h.inOrder, h.inOrder',
    hreversed, h.newBar, hlast]

omit hscale in
/-- The recent equity history is moved and scaled. -/
theorem SameBar.history : recentHistory (prior.moved delay scale day baseline) observation' =
    (recentHistory prior observation).map fun item => (item.1 + delay, scale * item.2) := by
  have hhistory : (if prior.lastRiskAt ≠ some observation.now then
        (prior.moved delay scale day baseline).equityHistory ++
          [(observation'.now, observation'.equity)]
      else (prior.moved delay scale day baseline).equityHistory) =
      (if prior.lastRiskAt ≠ some observation.now then
        prior.equityHistory ++ [(observation.now, observation.equity)]
      else prior.equityHistory).map fun item => (item.1 + delay, scale * item.2) := by
    split
    · simp [RiskState.moved, h.now, h.equity]
    · rfl
  have hrecent : ∀ item : ℤ × ℚ, observation'.now - hours 168 ≤ item.1 + delay ↔
      observation.now - hours 168 ≤ item.1 := by
    intro item
    rw [h.now]
    omega
  simp only [recentHistory, ne_eq, h.newBar, decide_eq_true_eq] at hhistory ⊢
  rw [hhistory, List.filter_map]
  simp only [Function.comp_def, hrecent]

omit hscale in
/-- The weekly baseline is scaled. -/
theorem SameBar.weekly : weeklyBaseline (prior.moved delay scale day baseline) observation' =
    (scale * ·) <$> weeklyBaseline prior observation := by
  have hstarted : observation'.now -
        (prior.moved delay scale day baseline).riskStartedAt.getD observation'.now =
      observation.now - prior.riskStartedAt.getD observation.now := by
    rw [h.now]
    cases hstart : prior.riskStartedAt <;> simp [RiskState.moved, hstart]
  simp only [weeklyBaseline, hstarted, h.history]
  split
  · rfl
  · cases (recentHistory prior observation) <;> rfl

/-- Both steps evaluate the same snapshot. -/
theorem SameBar.snapshot (weekly : ℚ) : SameSnapshot delay
    (riskInput prior observation approvedConfig weekly)
    (riskInput (prior.moved delay scale day baseline) observation' approvedConfig
      (scale * weekly)) := by
  have hdrawdown : drawdownFrom (max (scale * prior.equityPeak) observation'.equity)
      observation'.equity =
      drawdownFrom (max prior.equityPeak observation.equity) observation.equity := by
    rw [h.equity, max_scaled hscale, drawdownFrom_scaled hscale]
  have hweekly : lossFromBaseline observation'.equity (scale * weekly) =
      lossFromBaseline observation.equity weekly := by
    rw [h.equity, lossFromBaseline_scaled hscale]
  refine {
    now := h.now
    drawdown := hdrawdown
    dailyLoss := ⟨lossFromBaseline_nonneg _ _, lossFromBaseline_nonneg _ _⟩
    dailyLimit := h.dailyLimit
    weeklyLoss := hweekly
    consecutiveLosses := congrArg Prod.fst h.counts
    volatilityRatio := h.volatilityRatio
    systemHealthy := h.systemHealthy
    config := rfl
    recoveryStartedAt := ?_
    dailyHaltStartedAt := ?_
    weeklyHaltStartedAt := ?_
    streakHaltStartedAt := ?_
    volatilityHalted := ?_
    volatilityStableBars := ?_
    profitableTrades := ?_ }
  · simp only [riskInput, h.now]
    exact openedStart_delayed (by simp only [RiskState.moved, hdrawdown]) _ _
  · simp only [riskInput, h.now]
    exact openedStart_delayed (by simpa only [h.now] using h.dailyLimit) _ _
  · simp only [riskInput, h.now]
    exact openedStart_delayed (by rw [hweekly]) _ _
  · simp only [riskInput, h.now, h.counts, RiskState.moved_streakHaltStartedAt,
      Option.map_eq_none_iff]
    split_ifs <;> rfl
  · simp only [riskInput, RiskState.moved_volatilityHalted, h.volatilityRatio]
  · simp only [riskInput, ne_eq, h.newBar, h.volatilityRatio, h.volatilityBarValid,
      RiskState.moved_volatilityHalted, RiskState.moved_volatilityStableBars]
  · simp only [riskInput, h.counts, RiskState.moved_streakHaltStartedAt, Option.map_eq_none_iff]

/-- Both steps leave the same state, moved and scaled. -/
theorem SameBar.next {input input' : RiskInput} (hinput : SameSnapshot delay input input') :
    nextState (prior.moved delay scale day baseline) observation' approvedConfig input' =
      (nextState prior observation approvedConfig input).moved delay scale
        (some (utcDate observation'.now))
        (dailyBaseline (prior.moved delay scale day baseline) observation'.now) := by
  have hstarted : some ((prior.riskStartedAt.map (· + delay)).getD observation'.now) =
      (some (prior.riskStartedAt.getD observation.now)).map (· + delay) := by
    rw [h.now]
    cases prior.riskStartedAt <;> rfl
  have hdaily : input'.dailyLoss < approvedConfig.dailyLossLimit ↔
      input.dailyLoss < approvedConfig.dailyLossLimit := by
    rw [← not_le, ← not_le, hinput.dailyLimit]
  simp only [nextState, RiskState.moved, RiskState.mk.injEq]
  refine ⟨trivial, ?_, trivial, trivial, h.history, hstarted, h.equity, ?_,
    hinput.consecutiveLosses, h.length, ?_, ?_, ?_, ?_, ?_, ?_, ?_, hinput.decision⟩
  · rw [h.equity, max_scaled hscale]
  · rw [h.now]
    rfl
  · rw [h.now, hinput.recoveryStartedAt]
    exact keptStart_delayed (by rw [hinput.drawdown]) _ _ _
  · rw [h.now, hinput.dailyHaltStartedAt]
    exact keptStart_delayed hdaily _ _ _
  · rw [h.now, hinput.weeklyHaltStartedAt]
    exact keptStart_delayed (by rw [hinput.weeklyLoss]) _ _ _
  · simp only [hinput.streakHaltStartedAt, hinput.profitableTrades, h.now, over_delayed]
    split_ifs <;> rfl
  · simp only [hinput.streakHaltStartedAt, hinput.profitableTrades, h.now, over_delayed]
  · simp only [hinput.volatilityHalted, hinput.volatilityStableBars, h.volatilityBarValid,
      h.volatilityRatio]
  · simp only [hinput.volatilityHalted, hinput.volatilityStableBars, h.volatilityBarValid,
      h.volatilityRatio]

/-- Two observations of one bar: both are refused for one reason, or both lead to states that
are the same but for the delay, the scale and the UTC day. -/
theorem SameBar.advance :
    advanceRiskState (prior.moved delay scale day baseline) observation' approvedConfig =
      (RiskState.moved delay scale (some (utcDate observation'.now))
        (dailyBaseline (prior.moved delay scale day baseline) observation'.now)) <$>
          advanceRiskState prior observation approvedConfig := by
  rw [advanceRiskState_eq, advanceRiskState_eq, h.validate hscale, h.weekly]
  cases validateObservation prior observation with
  | error e => rfl
  | ok u =>
    cases weeklyBaseline prior observation with
    | error e => rfl
    | ok weekly => exact congrArg Except.ok (h.next hscale (h.snapshot hscale weekly))

end

end

end AutoBit.Risk
