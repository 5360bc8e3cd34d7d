import AutoBit.Risk.Policy
import Mathlib.Tactic.Linarith

/-!
# One step of the risk accumulator

`Advanced` says everything that one accepted observation does: which snapshot is
evaluated, which halt starts are opened before the evaluation and which are dropped after
it. The invariants of whole runs are derived from it, without unfolding the step again.
-/

namespace AutoBit.Risk

open Library

/-- The start under which a halt is evaluated: the recorded one, or this bar when it
triggers the halt. -/
def openedStart (trigger : Prop) [Decidable trigger] (barAt : ℤ) (recorded : Option ℤ) :
    Option ℤ :=
  if trigger ∧ recorded = none then some barAt else recorded

/-- The start that stays recorded after the evaluation: none once the window is over and
the trigger has ended. -/
def keptStart (ended : Prop) [Decidable ended] (window barAt : ℤ) (start : Option ℤ) :
    Option ℤ :=
  if (∃ s ∈ start, s + window ≤ barAt) ∧ ended then none else start

/-- The halts whose starts are recorded. -/
inductive Halt where
  | drawdown
  | daily
  | weekly
  | streak
  deriving DecidableEq, Repr

/-- How long a recorded halt lasts. -/
def Halt.window : Halt → ℤ
  | .drawdown => hours 72
  | .daily => hours 24
  | .weekly => hours 48
  | .streak => hours 48

/-- The start of a halt that a state records. -/
def Halt.recorded : Halt → RiskState → Option ℤ
  | .drawdown => RiskState.recoveryStartedAt
  | .daily => RiskState.dailyHaltStartedAt
  | .weekly => RiskState.weeklyHaltStartedAt
  | .streak => RiskState.streakHaltStartedAt

/-- The start of a halt that a snapshot is evaluated under. -/
def Halt.evaluated : Halt → RiskInput → Option ℤ
  | .drawdown => RiskInput.recoveryStartedAt
  | .daily => RiskInput.dailyHaltStartedAt
  | .weekly => RiskInput.weeklyHaltStartedAt
  | .streak => RiskInput.streakHaltStartedAt

/-- The drawdown of an equity below the highest one, when there is a positive one. -/
def drawdownFrom (peak equity : ℚ) : Option ℚ :=
  if 0 < peak then some (max 0 (1 - equity / peak)) else none

/-- The baseline of the UTC day that a bar belongs to. -/
def dailyBaseline (prior : RiskState) (barAt : ℤ) : ℚ :=
  if utcDate barAt ≠ prior.dailyDate.getD (utcDate barAt) then prior.lastEquity
  else prior.dailyBaselineEquity

/-- Whether a bar is a usable calm bar for the recovery of a volatility halt. -/
def RiskObservation.Calm (observation : RiskObservation) : Prop :=
  observation.volatilityBarValid = true ∧ observation.volatilityRatio.AtMost (15 / 10)

instance (observation : RiskObservation) : Decidable observation.Calm :=
  inferInstanceAs (Decidable (_ ∧ _))

/-- What one accepted observation does to the accumulated state. -/
structure Advanced (prior : RiskState) (observation : RiskObservation) (config : RiskConfig)
    (input : RiskInput) (next : RiskState) : Prop where
  accepted : validateObservation prior observation = .ok ()
  now : input.now = observation.now
  systemHealthy : input.systemHealthy = observation.systemHealthy
  config_eq : input.config = config
  ratio : input.volatilityRatio = observation.volatilityRatio
  drawdown : input.drawdown = drawdownFrom next.equityPeak observation.equity
  dailyLoss : input.dailyLoss =
    lossFromBaseline observation.equity (dailyBaseline prior observation.now)
  weeklyLoss : 0 ≤ input.weeklyLoss
  opened_drawdown : input.recoveryStartedAt =
    openedStart (∃ value ∈ input.drawdown, config.hardDrawdown ≤ value) observation.now
      prior.recoveryStartedAt
  opened_daily : input.dailyHaltStartedAt =
    openedStart (config.dailyLossLimit ≤ input.dailyLoss) observation.now
      prior.dailyHaltStartedAt
  opened_weekly : input.weeklyHaltStartedAt =
    openedStart (config.weeklyHaltLimit ≤ input.weeklyLoss) observation.now
      prior.weeklyHaltStartedAt
  opened_streak : input.streakHaltStartedAt =
    openedStart (5 ≤ input.consecutiveLosses) observation.now prior.streakHaltStartedAt
  kept_drawdown : next.recoveryStartedAt =
    keptStart (input.drawdown = some 0) (hours 72) observation.now input.recoveryStartedAt
  kept_daily : next.dailyHaltStartedAt =
    keptStart (input.dailyLoss < config.dailyLossLimit) (hours 24) observation.now
      input.dailyHaltStartedAt
  kept_weekly : next.weeklyHaltStartedAt =
    keptStart (input.weeklyLoss < config.weeklyHaltLimit) (hours 48) observation.now
      input.weeklyHaltStartedAt
  kept_streak : next.streakHaltStartedAt =
    keptStart (2 ≤ input.profitableTradesSinceStreakHalt) (hours 48) observation.now
      input.streakHaltStartedAt
  halted : input.volatilityHalted = true ↔
    prior.volatilityHalted = true ∨ observation.volatilityRatio.Exceeds 3
  stable_new : prior.volatilityHalted = true → prior.lastRiskAt ≠ some observation.now →
    input.volatilityStableBars =
      if observation.Calm then prior.volatilityStableBars + 1 else 0
  stable_same : prior.volatilityHalted = true → prior.lastRiskAt = some observation.now →
    input.volatilityStableBars = prior.volatilityStableBars
  stable_begin : prior.volatilityHalted = false → observation.volatilityRatio.Exceeds 3 →
    input.volatilityStableBars = 0
  halted_next : next.volatilityHalted = true ↔ input.volatilityHalted = true ∧
    ¬(observation.Calm ∧ 3 ≤ input.volatilityStableBars)
  stable_next : next.volatilityHalted = true →
    next.volatilityStableBars = input.volatilityStableBars
  equityPeak : next.equityPeak = max prior.equityPeak observation.equity
  initialEquity : next.initialEquity = prior.initialEquity
  dailyDate : next.dailyDate = some (utcDate observation.now)
  dailyBaselineEquity : next.dailyBaselineEquity = dailyBaseline prior observation.now
  lastEquity : next.lastEquity = observation.equity
  lastRiskAt : next.lastRiskAt = some observation.now
  decision : next.decision = evaluateRisk input

/-- A loss from a baseline is not negative. -/
theorem lossFromBaseline_nonneg (equity baseline : ℚ) : 0 ≤ lossFromBaseline equity baseline := by
  unfold lossFromBaseline
  split
  · exact le_max_left _ _
  · exact le_rfl

/-- A value chosen in a branch, or by a computation, is one that the rest succeeds with. -/
theorem exists_of_branch {ε : Type} {α β : Type} {condition : Prop} [Decidable condition]
    {first : Except ε α} {rest : α → Except ε β} {other : Except ε β} {b : β}
    (h : (if condition then first >>= rest else other) = .ok b)
    (hother : other = .ok b → ∃ a, rest a = .ok b) : ∃ a, rest a = .ok b := by
  split at h
  · obtain ⟨a, -, ha⟩ := Except.bind_eq_ok.mp h
    exact ⟨a, ha⟩
  · exact hother h

/-- The step is inverted once: an accepted observation does what `Advanced` says. -/
theorem advanced_of_ok {prior next : RiskState} {observation : RiskObservation}
    {config : RiskConfig} (h : advanceRiskState prior observation config = .ok next) :
    ∃ input, Advanced prior observation config input next := by
  unfold advanceRiskState at h
  rw [Except.bind_eq_ok] at h
  obtain ⟨⟨⟩, haccepted, h⟩ := h
  dsimp only at h
  replace h := exists_of_branch h fun hother => by
    split at hother <;> obtain ⟨value, -, hvalue⟩ := Except.bind_eq_ok.mp hother
    · exact ⟨value, hvalue⟩
    · exact ⟨value, hvalue⟩
  obtain ⟨weeklyBaseline, h⟩ := h
  rw [Except.pure_eq_ok] at h
  subst h
  refine ⟨?input, ?step⟩
  case' step => constructor
  case decision => rfl
  case accepted => exact haccepted
  case weeklyLoss => exact lossFromBaseline_nonneg _ _
  case halted => cases prior.volatilityHalted <;> simp
  case stable_new =>
    intro hhalted hnew
    by_cases hcalm : observation.Calm
    · rw [if_pos hcalm]
      simp [hhalted, hnew, hcalm.1, hcalm.2]
    · rw [if_neg hcalm]
      simp only [RiskObservation.Calm] at hcalm
      simp [hhalted, hnew, hcalm]
  case stable_same =>
    intro hhalted hsame
    simp [hhalted, hsame]
  case stable_begin =>
    intro hhalted hratio
    simp [hhalted, hratio]
  case halted_next =>
    simp only [RiskObservation.Calm, Bool.and_eq_true, Bool.not_eq_true', decide_eq_false_iff_not]
    exact ⟨fun ⟨hhalted, hends⟩ => ⟨hhalted, fun ⟨⟨hvalid, hcalm⟩, hstable⟩ =>
        hends ⟨hhalted, hvalid, hcalm, hstable⟩⟩,
      fun ⟨hhalted, hends⟩ => ⟨hhalted, fun ⟨_, hvalid, hcalm, hstable⟩ =>
        hends ⟨⟨hvalid, hcalm⟩, hstable⟩⟩⟩
  case stable_next =>
    simp only [Bool.and_eq_true, Bool.not_eq_true']
    rintro ⟨-, hends⟩
    rw [hends]
    rfl
  case opened_streak => simp [openedStart]
  case kept_streak => simp [keptStart]
  all_goals rfl

section Starts

variable {prior next : RiskState} {observation : RiskObservation} {config : RiskConfig}
  {input : RiskInput}

/-- A start is the recorded one, or the bar when its trigger opens it. -/
theorem openedStart_cases {trigger : Prop} [Decidable trigger] {barAt : ℤ}
    {recorded start : Option ℤ} (hstart : start = openedStart trigger barAt recorded) :
    start = recorded ∨ recorded = none ∧ trigger ∧ start = some barAt := by
  unfold openedStart at hstart
  split at hstart
  · rename_i hopen
    exact Or.inr ⟨hopen.2, hopen.1, hstart⟩
  · exact Or.inl hstart

/-- A start is kept, or cleared after its window when it has ended. -/
theorem keptStart_cases {ended : Prop} [Decidable ended] {window barAt : ℤ}
    {start kept : Option ℤ} (hkept : kept = keptStart ended window barAt start) :
    kept = start ∨ kept = none ∧ ended ∧ ∃ s, start = some s ∧ s + window ≤ barAt := by
  unfold keptStart at hkept
  split at hkept
  · rename_i hover
    obtain ⟨⟨s, hs, hwindow⟩, hended⟩ := hover
    exact Or.inr ⟨hkept, hended, s, hs, hwindow⟩
  · exact Or.inl hkept

/-- A halt is evaluated under its recorded start, or under the bar that triggers it. -/
theorem Advanced.opened (h : Advanced prior observation config input next) (halt : Halt) :
    halt.evaluated input = halt.recorded prior ∨
      halt.recorded prior = none ∧ halt.evaluated input = some observation.now := by
  cases halt with
  | drawdown =>
    exact (openedStart_cases h.opened_drawdown).imp_right fun hopen => ⟨hopen.1, hopen.2.2⟩
  | daily => exact (openedStart_cases h.opened_daily).imp_right fun hopen => ⟨hopen.1, hopen.2.2⟩
  | weekly =>
    exact (openedStart_cases h.opened_weekly).imp_right fun hopen => ⟨hopen.1, hopen.2.2⟩
  | streak =>
    exact (openedStart_cases h.opened_streak).imp_right fun hopen => ⟨hopen.1, hopen.2.2⟩

/-- A halt stays recorded unless its window is over. -/
theorem Advanced.kept (h : Advanced prior observation config input next) (halt : Halt) :
    halt.recorded next = halt.evaluated input ∨
      halt.recorded next = none ∧
        ∃ s, halt.evaluated input = some s ∧ s + halt.window ≤ observation.now := by
  cases halt with
  | drawdown =>
    exact (keptStart_cases h.kept_drawdown).imp_right fun hover => ⟨hover.1, hover.2.2⟩
  | daily => exact (keptStart_cases h.kept_daily).imp_right fun hover => ⟨hover.1, hover.2.2⟩
  | weekly => exact (keptStart_cases h.kept_weekly).imp_right fun hover => ⟨hover.1, hover.2.2⟩
  | streak => exact (keptStart_cases h.kept_streak).imp_right fun hover => ⟨hover.1, hover.2.2⟩

/-- A drawdown halt is only dropped at a bar without a drawdown. -/
theorem Advanced.dropped_drawdown (h : Advanced prior observation config input next)
    (hnone : next.recoveryStartedAt = none) (hsome : input.recoveryStartedAt ≠ none) :
    input.drawdown = some 0 := by
  rcases keptStart_cases h.kept_drawdown with hsame | ⟨-, hzero, -⟩
  · rw [hnone] at hsame
    exact absurd hsame.symm hsome
  · exact hzero

/-- No step goes back in time. -/
theorem Advanced.chronological (h : Advanced prior observation config input next) :
    ∀ last ∈ prior.lastRiskAt, last ≤ observation.now := by
  have haccepted := h.accepted
  simp only [validateObservation, Except.bind_eq_ok, reject_eq_ok] at haccepted
  obtain ⟨-, -, -, -, -, -, -, -, -, hreversed, -⟩ := haccepted
  intro last hlast
  by_contra hlater
  exact hreversed ⟨last, hlast, not_le.mp hlater⟩

/-- An observation is accepted for an account with a positive initial equity only. -/
theorem Advanced.initialEquity_pos (h : Advanced prior observation config input next) :
    0 < prior.initialEquity := by
  have haccepted := h.accepted
  simp only [validateObservation, Except.bind_eq_ok, reject_eq_ok] at haccepted
  obtain ⟨-, -, -, hinitial, -⟩ := haccepted
  exact not_le.mp hinitial

end Starts

/-- A decision that lets no position be entered. -/
def RiskDecision.Closed (decision : RiskDecision) : Prop :=
  decision.riskRate = 0 ∧ decision.exposureCap = 0

/-- A rule that halts closes the decision; whatever else fails does so as well. -/
theorem evaluateRisk_closed {input : RiskInput}
    (hhalt : ∀ drawdown ratio,
      (drawdownRule input.now drawdown input.recoveryStartedAt).2.1.halts ≠ [] ∨
      (dailyRule input.now input.dailyLoss input.dailyHaltStartedAt).halts ≠ [] ∨
      (weeklyRule input.now input.weeklyLoss input.weeklyHaltStartedAt).halts ≠ [] ∨
      (streakRule input.now input.consecutiveLosses input.profitableTradesSinceStreakHalt
        input.streakHaltStartedAt).halts ≠ [] ∨
      (volatilityRule ratio input.volatilityHalted input.volatilityStableBars).halts ≠ []) :
    (evaluateRisk input).Closed := by
  unfold evaluateRisk
  split
  · exact ⟨rfl, rfl⟩
  · split
    · rename_i drawdown ratio _ _
      split
      · exact ⟨rfl, rfl⟩
      · split
        · exact ⟨rfl, rfl⟩
        · dsimp only
          have hhalts := hhalt drawdown ratio
          rw [if_pos]
          · exact ⟨rfl, rfl⟩
          · simp only [List.flatMap_cons, List.flatMap_nil, List.append_nil, ne_eq,
              List.append_eq_nil_iff]
            tauto
    · exact ⟨rfl, rfl⟩

/-- A recorded halt closes every decision before its window is over. -/
theorem evaluateRisk_of_halt {input : RiskInput} (halt : Halt) {start : ℤ}
    (hstart : halt.evaluated input = some start) (hnow : input.now < start + halt.window) :
    (evaluateRisk input).Closed := by
  refine evaluateRisk_closed fun drawdown ratio => ?_
  cases halt with
  | drawdown =>
    left
    have hrecorded : input.recoveryStartedAt = some start := hstart
    simp only [Halt.window] at hnow
    simp [hrecorded, drawdownRule, hnow, RuleOutcome.halts]
  | daily =>
    right; left
    have hrecorded : input.dailyHaltStartedAt = some start := hstart
    simp only [Halt.window] at hnow
    simp [hrecorded, dailyRule, hnow, RuleOutcome.halts]
  | weekly =>
    right; right; left
    have hrecorded : input.weeklyHaltStartedAt = some start := hstart
    simp only [Halt.window] at hnow
    simp [hrecorded, weeklyRule, hnow, RuleOutcome.halts]
  | streak =>
    right; right; right; left
    have hrecorded : input.streakHaltStartedAt = some start := hstart
    simp only [Halt.window] at hnow
    simp [hrecorded, streakRule, hnow, RuleOutcome.halts]

/-- A volatility halt closes every decision before its third calm bar. -/
theorem evaluateRisk_of_volatility {input : RiskInput} (hhalted : input.volatilityHalted = true)
    (hstable : input.volatilityStableBars < 3) : (evaluateRisk input).Closed := by
  refine evaluateRisk_closed fun drawdown ratio => ?_
  right; right; right; right
  have hfew : ¬3 ≤ input.volatilityStableBars := by omega
  simp [volatilityRule, hhalted, hfew, RuleOutcome.halts]

/-- A ratio that `evaluate_risk` accepts: a number that is not negative. -/
def Reading.Valid : Reading → Prop
  | .number value => 0 ≤ value
  | _ => False

/-- A snapshot without a valid ratio is refused, whatever halts it is under. -/
theorem evaluateRisk_of_invalid_ratio {input : RiskInput} (hhealthy : input.systemHealthy = true)
    (hratio : ¬input.volatilityRatio.Valid) : evaluateRisk input = invalidDecision := by
  unfold evaluateRisk
  rw [if_neg (by simp [hhealthy])]
  split
  · rename_i drawdown ratio _ heq
    rw [heq] at hratio
    have hnegative : ratio < 0 := not_le.mp hratio
    rw [if_pos (by simp [hnegative])]
  · rfl

/-- Only the drawdown rule gives the reason of a drawdown halt. -/
theorem drawdown_halt_mem_reasons_iff {input : RiskInput} {drawdown : ℚ}
    (hhealthy : input.systemHealthy = true) (hconfig : input.config = approvedConfig)
    (hdrawdown : input.drawdown = some drawdown) (hnonneg : 0 ≤ drawdown)
    (hdaily : 0 ≤ input.dailyLoss) (hweekly : 0 ≤ input.weeklyLoss)
    (hratio : input.volatilityRatio.Valid) :
    "drawdown_halt" ∈ (evaluateRisk input).reasons ↔
      "drawdown_halt" ∈
        (drawdownRule input.now drawdown input.recoveryStartedAt).2.1.reasons := by
  cases hreading : input.volatilityRatio with
  | infinite negative => rw [hreading] at hratio; cases hratio
  | nan => rw [hreading] at hratio; cases hratio
  | number ratio =>
    rw [hreading] at hratio
    have hratio : 0 ≤ ratio := hratio
    have hrecovery : "drawdown_halt" ∉
        (drawdownRule input.now drawdown input.recoveryStartedAt).2.2 := by
      unfold drawdownRule
      split
      · simp
      · split
        · simp
        · dsimp only
          split <;> simp
    have hdailyRule : "drawdown_halt" ∉
        (dailyRule input.now input.dailyLoss input.dailyHaltStartedAt).reasons := by
      unfold dailyRule
      split <;> split_ifs <;> simp [RuleOutcome.reasons]
    have hweeklyRule : "drawdown_halt" ∉
        (weeklyRule input.now input.weeklyLoss input.weeklyHaltStartedAt).reasons := by
      unfold weeklyRule
      split <;> split_ifs <;> simp [RuleOutcome.reasons]
    have hstreakRule : "drawdown_halt" ∉
        (streakRule input.now input.consecutiveLosses input.profitableTradesSinceStreakHalt
          input.streakHaltStartedAt).reasons := by
      unfold streakRule
      split <;> split_ifs <;> simp [RuleOutcome.reasons]
    have hvolatilityRule : "drawdown_halt" ∉
        (volatilityRule ratio input.volatilityHalted input.volatilityStableBars).reasons := by
      unfold volatilityRule
      split_ifs <;> simp [RuleOutcome.reasons]
    unfold evaluateRisk
    rw [if_neg (by simp [hhealthy]), hdrawdown, hreading]
    dsimp only
    rw [if_neg (by simp [hnonneg, hdaily, hweekly, hratio]), if_neg (by simp [hconfig])]
    split_ifs <;> simp [hrecovery, hdailyRule, hweeklyRule, hstreakRule, hvolatilityRule]

/-- The drawdown rule halts within the window of a start, and only there when a hard
drawdown never comes without a start. -/
theorem drawdownRule_halts_iff {now : ℤ} {drawdown : ℚ} {start : Option ℤ}
    (hopened : start = none → drawdown < approvedConfig.hardDrawdown) :
    "drawdown_halt" ∈ (drawdownRule now drawdown start).2.1.reasons ↔
      ∃ s, start = some s ∧ now < s + hours 72 := by
  cases start with
  | none =>
    have hbelow := not_le.mpr (hopened rfl)
    simp [drawdownRule, hbelow, RuleOutcome.reasons]
  | some s =>
    by_cases hnow : now < s + hours 72
    · simp [drawdownRule, hnow, RuleOutcome.reasons]
    · simp [drawdownRule, hnow, RuleOutcome.reasons]

/-! ## What is stored of a step -/

/-- The reasons that a decision may give. -/
def riskReasons : List String :=
  ["system_unhealthy", "invalid_input", "invalid_config", "drawdown_halt", "recovery",
    "daily_loss_halt", "daily_loss_reduced", "weekly_loss_halt", "weekly_loss_reduced",
    "loss_streak_halt", "loss_streak_reduced", "volatility_halt", "volatility_reduced"]

/-- The rates of the drawdown ladder are not negative. -/
theorem drawdownLadder_nonneg (d : ℚ) : 0 ≤ (drawdownLadder d).1 ∧ 0 ≤ (drawdownLadder d).2 := by
  unfold drawdownLadder
  split_ifs <;> norm_num

/-- The rates of the recovery ladder are not negative. -/
theorem recoveryLadder_nonneg (d : ℚ) : 0 ≤ (recoveryLadder d).1 ∧ 0 ≤ (recoveryLadder d).2 := by
  unfold recoveryLadder
  split_ifs <;> norm_num

/-- The rates of the drawdown rule are not negative. -/
theorem drawdownRule_ladder_nonneg (now : ℤ) (d : ℚ) (start : Option ℤ) :
    0 ≤ (drawdownRule now d start).1.1 ∧ 0 ≤ (drawdownRule now d start).1.2 := by
  unfold drawdownRule
  split
  · exact drawdownLadder_nonneg d
  · split
    · exact drawdownLadder_nonneg d
    · exact recoveryLadder_nonneg d

/-- A decision that the store can hold: nothing negative, and known reasons. -/
structure RiskDecision.WellFormed (decision : RiskDecision) : Prop where
  rate : 0 ≤ decision.riskRate
  cap : 0 ≤ decision.exposureCap
  reasons : ∀ reason ∈ decision.reasons, reason ∈ riskReasons

/-- Each rule gives known reasons. -/
theorem rules_reasons (input : RiskInput) (drawdown ratio : ℚ) :
    ∀ reason ∈ (drawdownRule input.now drawdown input.recoveryStartedAt).2.1.reasons ++
      (drawdownRule input.now drawdown input.recoveryStartedAt).2.2 ++
      [dailyRule input.now input.dailyLoss input.dailyHaltStartedAt,
        weeklyRule input.now input.weeklyLoss input.weeklyHaltStartedAt,
        streakRule input.now input.consecutiveLosses input.profitableTradesSinceStreakHalt
          input.streakHaltStartedAt,
        volatilityRule ratio input.volatilityHalted input.volatilityStableBars].flatMap
        RuleOutcome.reasons, reason ∈ riskReasons := by
  intro reason hreason
  simp only [List.mem_append, List.mem_flatMap, List.mem_cons, List.not_mem_nil, or_false]
    at hreason
  rcases hreason with (hdrawdown | hrecovery) | ⟨rule, rfl | rfl | rfl | rfl, hrule⟩
  · revert hdrawdown
    unfold drawdownRule
    split <;> split_ifs <;> simp +contextual [RuleOutcome.reasons, riskReasons]
  · revert hrecovery
    unfold drawdownRule
    split <;> split_ifs <;> simp +contextual [riskReasons]
  · revert hrule
    unfold dailyRule
    split <;> split_ifs <;> simp +contextual [RuleOutcome.reasons, riskReasons]
  · revert hrule
    unfold weeklyRule
    split <;> split_ifs <;> simp +contextual [RuleOutcome.reasons, riskReasons]
  · revert hrule
    unfold streakRule
    split <;> split_ifs <;> simp +contextual [RuleOutcome.reasons, riskReasons]
  · revert hrule
    unfold volatilityRule
    split_ifs <;> simp +contextual [RuleOutcome.reasons, riskReasons]

/-- Every decision of `evaluate_risk` is well-formed. -/
theorem evaluateRisk_wellFormed (input : RiskInput) : (evaluateRisk input).WellFormed := by
  unfold evaluateRisk
  split
  · exact ⟨le_rfl, le_rfl, by simp [riskReasons]⟩
  · split
    · rename_i drawdown ratio _ _
      have hladder := drawdownRule_ladder_nonneg input.now drawdown input.recoveryStartedAt
      have hreasons := rules_reasons input drawdown ratio
      split
      · exact ⟨le_rfl, le_rfl, by simp [invalidDecision, riskReasons]⟩
      · split
        · exact ⟨le_rfl, le_rfl, by simp [invalidConfigDecision, riskReasons]⟩
        · dsimp only
          split
          · exact ⟨le_rfl, le_rfl, hreasons⟩
          · split
            · exact ⟨le_min hladder.1 (by linarith [hladder.1]),
                le_min hladder.2 (by linarith [hladder.2]), hreasons⟩
            · exact ⟨hladder.1, hladder.2, hreasons⟩
    · exact ⟨le_rfl, le_rfl, by simp [invalidDecision, riskReasons]⟩

/-- The equity history after a step: one more point for a new bar, without the points that are
older than a week. -/
theorem advanceRiskState_history {prior next : RiskState} {observation : RiskObservation}
    {config : RiskConfig} (h : advanceRiskState prior observation config = .ok next) :
    next.equityHistory = ((if prior.lastRiskAt ≠ some observation.now then
      prior.equityHistory ++ [(observation.now, observation.equity)] else prior.equityHistory).filter
        fun item => observation.now - hours 168 ≤ item.1) := by
  unfold advanceRiskState at h
  rw [Except.bind_eq_ok] at h
  obtain ⟨⟨⟩, -, h⟩ := h
  dsimp only at h
  replace h := exists_of_branch h fun hother => by
    split at hother <;> obtain ⟨value, -, hvalue⟩ := Except.bind_eq_ok.mp hother
    · exact ⟨value, hvalue⟩
    · exact ⟨value, hvalue⟩
  obtain ⟨weeklyBaseline, h⟩ := h
  rw [Except.pure_eq_ok] at h
  subst h
  by_cases hnew : prior.lastRiskAt = some observation.now
  · simp [hnew]
  · simp [hnew]

end AutoBit.Risk
