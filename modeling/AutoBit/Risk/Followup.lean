import AutoBit.Risk.Decision
import AutoBit.Risk.Summary
import Mathlib.Algebra.Order.Field.Basic

/-!
# A second call on the same bar

A same-bar call is meant to change the health only. The starts that a bar opens and the
starts that it drops agree with that as long as a dropped start is not triggered again at
once. This holds for three of the four halts; the halt of a loss streak is dropped while
the losses that trigger it may still stand.
-/

namespace AutoBit.Risk

open Library

/-! ## Starts and rules once a start is dropped -/

/-- A reading that is at most a limit does not exceed a higher one. -/
theorem Reading.AtMost.not_exceeds {reading : Reading} {low high : ℚ} (h : reading.AtMost low)
    (hle : low ≤ high) : ¬reading.Exceeds high := by
  cases reading with
  | number value => exact not_lt.mpr (le_trans h hle)
  | infinite negative =>
    have hnegative : negative = true := h
    simp [Reading.Exceeds, hnegative]
  | nan => exact id

/-- The window of a start that this bar opens is not over. -/
theorem over_openedStart {trigger : Prop} [Decidable trigger] {window barAt : ℤ}
    {recorded : Option ℤ} (hwindow : 0 < window) :
    (∃ s ∈ openedStart trigger barAt recorded, s + window ≤ barAt) ↔
      ∃ s ∈ recorded, s + window ≤ barAt := by
  rcases openedStart_cases (rfl : openedStart trigger barAt recorded = _) with hsame | hopen
  · rw [hsame]
  · rw [hopen.2.2, hopen.1]
    simpa using hwindow

/-- A start that is kept is not opened again. -/
theorem openedStart_kept {trigger ended : Prop} [Decidable trigger] [Decidable ended]
    {window barAt : ℤ} {recorded : Option ℤ}
    (hended : (∃ s ∈ recorded, s + window ≤ barAt) → ended → ¬trigger) (hwindow : 0 < window) :
    openedStart trigger barAt
        (keptStart ended window barAt (openedStart trigger barAt recorded)) =
      keptStart ended window barAt (openedStart trigger barAt recorded) := by
  unfold keptStart
  split
  · rename_i hover
    obtain ⟨⟨s, hs, hpassed⟩, hended'⟩ := hover
    rw [openedStart, if_neg]
    rintro ⟨htrigger, -⟩
    exact hended ((over_openedStart hwindow).mp ⟨s, hs, hpassed⟩) hended' htrigger
  · unfold openedStart
    split_ifs <;> simp_all

/-- A start that is kept twice is kept once. -/
theorem keptStart_kept {ended : Prop} [Decidable ended] {window barAt : ℤ} {start : Option ℤ} :
    keptStart ended window barAt (keptStart ended window barAt start) =
      keptStart ended window barAt start := by
  unfold keptStart
  split_ifs <;> simp_all

section

variable (now : ℤ)

/-- A drawdown halt that is over without a drawdown is judged like none. -/
theorem drawdownRule_kept (drawdown : ℚ) (start : Option ℤ) :
    drawdownRule now drawdown (keptStart (drawdown = 0) (hours 72) now start) =
      drawdownRule now drawdown start := by
  unfold keptStart
  split
  · rename_i hover
    obtain ⟨⟨s, hs, hpassed⟩, rfl⟩ := hover
    obtain rfl : start = some s := hs
    have hlater : ¬now < s + hours 72 := by omega
    have hlimit : ¬approvedConfig.hardDrawdown ≤ 0 := by decide +kernel
    have hladder : drawdownLadder 0 = recoveryLadder 0 := by decide +kernel
    simp [drawdownRule, hlater, hlimit, hladder]
  · rfl

/-- A daily halt that is over without its loss is judged like none. -/
theorem dailyRule_kept (loss : ℚ) (start : Option ℤ) :
    dailyRule now loss (keptStart (loss < approvedConfig.dailyLossLimit) (hours 24) now start) =
      dailyRule now loss start := by
  unfold keptStart
  split
  · rename_i hover
    obtain ⟨⟨s, hs, hpassed⟩, hended⟩ := hover
    obtain rfl : start = some s := hs
    have hlater : ¬now < s + hours 24 := by omega
    simp [dailyRule, hlater, not_le.mpr hended]
  · rfl

/-- A weekly halt that is over without its loss is judged like none. -/
theorem weeklyRule_kept (loss : ℚ) (start : Option ℤ) :
    weeklyRule now loss (keptStart (loss < approvedConfig.weeklyHaltLimit) (hours 48) now start) =
      weeklyRule now loss start := by
  unfold keptStart
  split
  · rename_i hover
    obtain ⟨⟨s, hs, hpassed⟩, hended⟩ := hover
    obtain rfl : start = some s := hs
    have hlater : ¬now < s + hours 48 := by omega
    simp [weeklyRule, hlater, not_le.mpr hended]
  · rfl

/-- A streak halt that is over with two profitable trades is judged like none while fewer
than three losses stand in a row. -/
theorem streakRule_kept {losses profitable : ℕ} {start : Option ℤ}
    (hfew : (∃ s ∈ start, s + hours 48 ≤ now) → 2 ≤ profitable → losses < 3) :
    streakRule now losses
        (if (∃ s ∈ start, s + hours 48 ≤ now) ∧ 2 ≤ profitable then 0 else profitable)
        (keptStart (2 ≤ profitable) (hours 48) now start) =
      streakRule now losses profitable start := by
  unfold keptStart
  split
  · rename_i hover
    have hlosses := hfew hover.1 hover.2
    obtain ⟨⟨s, hs, hpassed⟩, hended⟩ := hover
    obtain rfl : start = some s := hs
    have hlater : ¬now < s + hours 48 := by omega
    have hfive : ¬5 ≤ losses := by omega
    simp [streakRule, hlater, hfive, not_le.mpr hlosses, not_lt.mpr hended]
  · rfl

/-- A volatility halt that a third calm bar ends is judged like none. -/
theorem volatilityRule_kept {ratio : ℚ} {halted : Bool} {stableBars : ℕ} (ends : Bool)
    (hends : ends = true → halted = true ∧ ratio ≤ 15 / 10 ∧ 3 ≤ stableBars) :
    volatilityRule ratio (halted && !ends) (if ends then 0 else stableBars) =
      volatilityRule ratio halted stableBars := by
  cases ends with
  | false => simp
  | true =>
    obtain ⟨rfl, hratio, hstable⟩ := hends rfl
    have hthree : ¬3 < ratio := by linarith
    have htwo : ¬2 < ratio := by linarith
    simp [volatilityRule, hratio, hstable, hthree, htwo]

end

/-! ## Halts that are triggered again -/

/-- The losses in a row with the new trades of an observation. -/
def lossesWith (prior : RiskState) (observation : RiskObservation) : ℕ :=
  lossesInRow prior.consecutiveLosses (observation.closedTrades.drop prior.processedTradeCount)

/-- A bar after the window of a recorded streak halt, with two profitable trades since. -/
def EndsStreak (prior : RiskState) (observation : RiskObservation) : Prop :=
  ∃ start ∈ prior.streakHaltStartedAt, start + hours 48 ≤ observation.now ∧
    2 ≤ prior.profitableTradesSinceStreakHalt +
      profitableAfter start (observation.closedTrades.drop prior.processedTradeCount)

/-- A bar after the window of a recorded drawdown halt, at a positive peak. -/
def EndsDrawdown (prior : RiskState) (observation : RiskObservation) : Prop :=
  ∃ start ∈ prior.recoveryStartedAt, start + hours 72 ≤ observation.now ∧
    prior.equityPeak ≤ observation.equity ∧ 0 < observation.equity

/-- A bar whose snapshot the rules are applied to. -/
structure Judges (prior : RiskState) (observation : RiskObservation) (config : RiskConfig) :
    Prop where
  systemHealthy : observation.systemHealthy = true
  positive : 0 < prior.equityPeak ∨ 0 < observation.equity
  ratio : observation.volatilityRatio.Valid
  config_eq : config = approvedConfig

/-- No halt that a bar ends is triggered again by what still stands: five losses in a row
start a new halt, and three already count in the decision. -/
structure NoRelapse (prior : RiskState) (observation : RiskObservation) (config : RiskConfig) :
    Prop where
  halt : EndsStreak prior observation → lossesWith prior observation < 5
  reduction : EndsStreak prior observation → Judges prior observation config →
    lossesWith prior observation < 3
  drawdown : EndsDrawdown prior observation → 0 < config.hardDrawdown

section

variable {prior : RiskState} {observation : RiskObservation} {config : RiskConfig} {weekly : ℚ}

/-- The losses of the input are those with the new trades. -/
theorem riskInput_losses : (riskInput prior observation config weekly).consecutiveLosses =
    lossesWith prior observation := by
  have hcounts : (riskInput prior observation config weekly).consecutiveLosses =
      (tradeCounts prior observation.closedTrades).1 := rfl
  rw [hcounts, tradeCounts_eq]
  rfl

/-- The streak halt of the input opens with its fifth loss. -/
theorem riskInput_streak : (riskInput prior observation config weekly).streakHaltStartedAt =
    openedStart (5 ≤ lossesWith prior observation) observation.now prior.streakHaltStartedAt := by
  have hlosses : (riskInput prior observation config weekly).consecutiveLosses =
      lossesWith prior observation := riskInput_losses
  rw [← hlosses]
  simp [riskInput, openedStart]

/-- The streak halt of the next state is kept until it has ended. -/
theorem nextState_streak (input : RiskInput) :
    (nextState prior observation config input).streakHaltStartedAt =
      keptStart (2 ≤ input.profitableTradesSinceStreakHalt) (hours 48) observation.now
        input.streakHaltStartedAt := by
  simp [nextState, keptStart]

/-- A bar that ends the streak halt is evaluated under its recorded start. -/
theorem endsStreak_iff :
    ((∃ start ∈ (riskInput prior observation config weekly).streakHaltStartedAt,
        start + hours 48 ≤ observation.now) ∧
      2 ≤ (riskInput prior observation config weekly).profitableTradesSinceStreakHalt) ↔
      EndsStreak prior observation := by
  rw [riskInput_streak, over_openedStart (by decide)]
  cases hrecorded : prior.streakHaltStartedAt with
  | none => simp [EndsStreak, hrecorded]
  | some start =>
    have hprofitable :
        (riskInput prior observation config weekly).profitableTradesSinceStreakHalt =
          (tradeCounts prior observation.closedTrades).2 := by
      simp [riskInput, hrecorded]
    rw [hprofitable, tradeCounts_eq, hrecorded]
    simp [EndsStreak, hrecorded]

/-- There is no drawdown exactly at a positive peak. -/
theorem drawdownFrom_eq_zero_iff {peak equity : ℚ} :
    drawdownFrom (max peak equity) equity = some 0 ↔ peak ≤ equity ∧ 0 < equity := by
  unfold drawdownFrom
  constructor
  · intro h
    split at h
    · rename_i hpositive
      have hzero := max_eq_left_iff.mp (Option.some.inj h)
      have hone : 1 ≤ equity / max peak equity := by linarith
      have hle := (one_le_div hpositive).mp hone
      exact ⟨(le_max_left _ _).trans hle, hpositive.trans_le hle⟩
    · cases h
  · rintro ⟨hle, hpositive⟩
    rw [max_eq_right hle, if_pos hpositive, div_self hpositive.ne', sub_self, max_self]

/-- A bar that ends the drawdown halt is evaluated under its recorded start. -/
theorem endsDrawdown_iff :
    ((∃ start ∈ (riskInput prior observation config weekly).recoveryStartedAt,
        start + hours 72 ≤ observation.now) ∧
      (riskInput prior observation config weekly).drawdown = some 0) ↔
      EndsDrawdown prior observation := by
  have hstart : (riskInput prior observation config weekly).recoveryStartedAt =
      openedStart (∃ value ∈ drawdownFrom (max prior.equityPeak observation.equity)
        observation.equity, config.hardDrawdown ≤ value) observation.now
        prior.recoveryStartedAt := rfl
  have hdrawdown : (riskInput prior observation config weekly).drawdown =
      drawdownFrom (max prior.equityPeak observation.equity) observation.equity := rfl
  rw [hstart, hdrawdown, over_openedStart (by decide), drawdownFrom_eq_zero_iff]
  constructor
  · rintro ⟨⟨start, hstart, hpassed⟩, hpeak⟩
    exact ⟨start, hstart, hpassed, hpeak⟩
  · rintro ⟨start, hstart, hpassed, hpeak⟩
    exact ⟨⟨start, hstart, hpassed⟩, hpeak⟩

end

/-! ## The second call -/

/-- The same observation with another health. -/
def RiskObservation.withHealth (observation : RiskObservation) (healthy : Bool) :
    RiskObservation := { observation with systemHealthy := healthy }

section

variable {prior next : RiskState} {observation : RiskObservation} {config : RiskConfig}
  {weekly : ℚ} {healthy : Bool}

/-- The snapshot of the second call: the same facts, under the starts that the first left. -/
def followupInput (input : RiskInput) (next : RiskState) (healthy : Bool) : RiskInput :=
  { input with
    systemHealthy := healthy
    recoveryStartedAt := next.recoveryStartedAt
    dailyHaltStartedAt := next.dailyHaltStartedAt
    weeklyHaltStartedAt := next.weeklyHaltStartedAt
    streakHaltStartedAt := next.streakHaltStartedAt
    volatilityHalted := next.volatilityHalted
    volatilityStableBars := next.volatilityStableBars
    profitableTradesSinceStreakHalt := next.profitableTradesSinceStreakHalt }

/-- Trades that have all been processed are only checked among themselves. -/
theorem tradesInOrder_processed {now : ℤ} {index : ℕ} {previous : Option ℤ}
    {trades : List ClosedTrade} (h : tradesInOrder prior now index previous trades = .ok ())
    (hprocessed : index + trades.length ≤ next.processedTradeCount) :
    tradesInOrder next now index previous trades = .ok () := by
  induction trades generalizing index previous with
  | nil => rfl
  | cons trade trades ih =>
    simp only [tradesInOrder, Except.bind_eq_ok, reject_eq_ok] at h ⊢
    simp only [List.length_cons] at hprocessed
    obtain ⟨-, hchronology, -, -, hrest⟩ := h
    exact ⟨(), hchronology, (), fun hnew => by omega, ih hrest (by omega)⟩

/-- A second call is accepted. -/
theorem followup_accepted {input : RiskInput}
    (hnext : next = nextState prior observation config input)
    (haccepted : validateObservation prior observation = .ok ()) :
    validateObservation next (observation.withHealth healthy) = .ok () := by
  simp only [validateObservation, Except.bind_eq_ok, reject_eq_ok] at haccepted ⊢
  obtain ⟨-, hequity, -, hinitial, -, -, ⟨⟩, htrades, -⟩ := haccepted
  subst hnext
  refine ⟨(), hequity, (), hinitial, (), lt_irrefl _, (), ?_, (), ?_, ?_⟩
  · exact tradesInOrder_processed htrades (by rw [Nat.zero_add]; exact le_rfl)
  · simp [nextState, RiskObservation.withHealth]
  · simp [nextState, RiskObservation.withHealth]

/-- What a second call keeps of the history is what the first call kept. -/
theorem recentHistory_followup {input : RiskInput}
    (hnext : next = nextState prior observation config input) :
    recentHistory next (observation.withHealth healthy) = recentHistory prior observation := by
  have hhistory : next.equityHistory = recentHistory prior observation := by
    rw [hnext]
    rfl
  have hlast : next.lastRiskAt = some observation.now := by
    rw [hnext]
    rfl
  rw [recentHistory, hhistory, hlast]
  simp [RiskObservation.withHealth, recentHistory]

/-- A second call measures the weekly loss against the same equity. -/
theorem weeklyBaseline_followup {input : RiskInput}
    (hnext : next = nextState prior observation config input) :
    weeklyBaseline next (observation.withHealth healthy) = weeklyBaseline prior observation := by
  rw [weeklyBaseline, recentHistory_followup hnext, hnext]
  rfl

/-- The starts that the first call leaves are not opened again by the second. -/
theorem openedStart_followup
    (hhalt : EndsStreak prior observation → lossesWith prior observation < 5)
    (hdrawdown : EndsDrawdown prior observation → 0 < config.hardDrawdown)
    (hnext : next = nextState prior observation config (riskInput prior observation config weekly)) :
    let input := riskInput prior observation config weekly
    openedStart (∃ value ∈ input.drawdown, config.hardDrawdown ≤ value) observation.now
        next.recoveryStartedAt = next.recoveryStartedAt ∧
      openedStart (config.dailyLossLimit ≤ input.dailyLoss) observation.now
        next.dailyHaltStartedAt = next.dailyHaltStartedAt ∧
      openedStart (config.weeklyHaltLimit ≤ input.weeklyLoss) observation.now
        next.weeklyHaltStartedAt = next.weeklyHaltStartedAt ∧
      openedStart (5 ≤ lossesWith prior observation) observation.now next.streakHaltStartedAt =
        next.streakHaltStartedAt := by
  dsimp only
  subst hnext
  refine ⟨openedStart_kept ?_ (by decide), openedStart_kept ?_ (by decide),
    openedStart_kept ?_ (by decide), ?_⟩
  · rintro hover hzero ⟨value, hvalue, hlimit⟩
    rw [hzero] at hvalue
    obtain rfl := Option.some.inj hvalue
    obtain ⟨start, hstart, hpassed⟩ := hover
    have hpeak := drawdownFrom_eq_zero_iff.mp hzero
    exact absurd hlimit (not_le.mpr (hdrawdown ⟨start, hstart, hpassed, hpeak⟩))
  · exact fun _ hended => not_le.mpr hended
  · exact fun _ hended => not_le.mpr hended
  · have hstreak : (nextState prior observation config
        (riskInput prior observation config weekly)).streakHaltStartedAt =
        keptStart (2 ≤ (riskInput prior observation config weekly).profitableTradesSinceStreakHalt)
          (hours 48) observation.now
          (openedStart (5 ≤ lossesWith prior observation) observation.now
            prior.streakHaltStartedAt) := by
      rw [nextState_streak, riskInput_streak]
    rw [hstreak]
    apply openedStart_kept _ (by decide)
    intro hover hended
    have hends : EndsStreak prior observation := by
      refine (@endsStreak_iff prior observation config weekly).mp ?_
      rw [riskInput_streak]
      exact ⟨(over_openedStart (by decide)).mpr hover, hended⟩
    exact not_le.mpr (hhalt hends)

/-- A volatility halt that the first call leaves off is not begun again by the second. -/
theorem not_exceeds_of_not_halted
    (hnext : next = nextState prior observation config (riskInput prior observation config weekly))
    (hoff : next.volatilityHalted = false) : ¬observation.volatilityRatio.Exceeds 3 := by
  intro hexceeds
  have hcalm : ¬observation.volatilityRatio.AtMost (15 / 10) := fun hcalm =>
    hcalm.not_exceeds (by norm_num) hexceeds
  rw [hnext] at hoff
  cases hhalted : prior.volatilityHalted <;>
    simp [nextState, riskInput, hhalted, hexceeds, hcalm] at hoff

/-- Unless a halt is opened again the second call sees what the first call left. -/
theorem riskInput_followup
    (hhalt : EndsStreak prior observation → lossesWith prior observation < 5)
    (hdrawdown : EndsDrawdown prior observation → 0 < config.hardDrawdown)
    (hnext : next = nextState prior observation config (riskInput prior observation config weekly)) :
    riskInput next (observation.withHealth healthy) config weekly =
      followupInput (riskInput prior observation config weekly) next healthy := by
  have hcounts : tradeCounts next observation.closedTrades =
      (next.consecutiveLosses, next.profitableTradesSinceStreakHalt) := by
    have hcursor : next.processedTradeCount = observation.closedTrades.length := by
      rw [hnext]
      rfl
    rw [tradeCounts, hcursor, List.drop_length]
    rfl
  have hlosses : next.consecutiveLosses = lossesWith prior observation := by
    have hcounted : (riskInput prior observation config weekly).consecutiveLosses =
        lossesWith prior observation := riskInput_losses
    rw [hnext, ← hcounted]
    rfl
  have hpeak : max next.equityPeak observation.equity = max prior.equityPeak observation.equity := by
    rw [hnext]
    exact max_eq_left (le_max_right _ _)
  have hbaseline : dailyBaseline next observation.now = dailyBaseline prior observation.now := by
    rw [hnext, dailyBaseline]
    simp [nextState]
  have hlast : next.lastRiskAt = some observation.now := by
    rw [hnext]
    rfl
  obtain ⟨hrecovery, hdaily, hweekly, hstreak⟩ := openedStart_followup hhalt hdrawdown hnext
  have hnone : ¬(5 ≤ lossesWith prior observation ∧ next.streakHaltStartedAt = none) := by
    rintro ⟨hfive, hnone⟩
    rw [openedStart, if_pos ⟨hfive, hnone⟩, hnone] at hstreak
    cases hstreak
  have hbegins : ¬(next.volatilityHalted = false ∧ observation.volatilityRatio.Exceeds 3) := by
    rintro ⟨hoff, hexceeds⟩
    exact not_exceeds_of_not_halted hnext hoff hexceeds
  simp only [riskInput, followupInput, RiskObservation.withHealth, RiskInput.mk.injEq, hcounts,
    hlosses, hpeak, hbaseline, hlast, hnone, true_and, Bool.not_eq_true', hbegins]
  exact ⟨(@riskInput_losses prior observation config weekly).symm, hrecovery, hdaily, hweekly,
    by simp, by simp, by simp, by simp⟩

/-- What the first call leaves of the streak and the volatility halt has not ended. -/
theorem not_ends_followup {input : RiskInput}
    (hnext : next = nextState prior observation config input) :
    ¬((∃ start ∈ next.streakHaltStartedAt, start + hours 48 ≤ observation.now) ∧
        2 ≤ next.profitableTradesSinceStreakHalt) ∧
      ¬(next.volatilityHalted = true ∧ observation.volatilityBarValid = true ∧
        observation.volatilityRatio.AtMost (15 / 10) ∧ 3 ≤ next.volatilityStableBars) := by
  subst hnext
  simp only [nextState]
  constructor
  · by_cases hends : (∃ start ∈ input.streakHaltStartedAt, start + hours 48 ≤ observation.now) ∧
        2 ≤ input.profitableTradesSinceStreakHalt
    · rw [decide_eq_true hends]
      simp
    · simp only [hends, decide_false, Bool.false_eq_true, if_false, not_false_eq_true]
  · by_cases hends : input.volatilityHalted = true ∧ observation.volatilityBarValid = true ∧
        observation.volatilityRatio.AtMost (15 / 10) ∧ 3 ≤ input.volatilityStableBars
    · simp [hends]
    · simp only [hends, decide_false, Bool.false_eq_true, if_false, Bool.not_false, Bool.and_true,
        not_false_eq_true]

/-- The second call drops nothing more, so it leaves the state with a decision of its own. -/
theorem nextState_followup
    (hnext : next = nextState prior observation config (riskInput prior observation config weekly)) :
    nextState next (observation.withHealth healthy) config
        (followupInput (riskInput prior observation config weekly) next healthy) =
      { next with
        decision := evaluateRisk
          (followupInput (riskInput prior observation config weekly) next healthy) } := by
  obtain ⟨hstreak, hvolatility⟩ := not_ends_followup hnext
  have hhistory := @recentHistory_followup prior next observation config healthy _ hnext
  have hpeak : max next.equityPeak observation.equity = next.equityPeak := by
    rw [hnext]
    exact max_eq_left (le_max_right _ _)
  have hbaseline : dailyBaseline next observation.now = next.dailyBaselineEquity := by
    rw [hnext, dailyBaseline]
    simp [nextState]
  have hrecovery : keptStart ((riskInput prior observation config weekly).drawdown = some 0)
      (hours 72) observation.now next.recoveryStartedAt = next.recoveryStartedAt := by
    rw [hnext]
    exact keptStart_kept
  have hdaily : keptStart
      ((riskInput prior observation config weekly).dailyLoss < config.dailyLossLimit) (hours 24)
      observation.now next.dailyHaltStartedAt = next.dailyHaltStartedAt := by
    rw [hnext]
    exact keptStart_kept
  have hweekly : keptStart
      ((riskInput prior observation config weekly).weeklyLoss < config.weeklyHaltLimit) (hours 48)
      observation.now next.weeklyHaltStartedAt = next.weeklyHaltStartedAt := by
    rw [hnext]
    exact keptStart_kept
  have hkept : next.equityHistory = recentHistory prior observation ∧
      next.dailyDate = some (utcDate observation.now) ∧
      next.riskStartedAt = some (next.riskStartedAt.getD observation.now) ∧
      next.lastEquity = observation.equity ∧ next.lastRiskAt = some observation.now ∧
      next.consecutiveLosses = (riskInput prior observation config weekly).consecutiveLosses ∧
      next.processedTradeCount = observation.closedTrades.length := by
    rw [hnext]
    exact ⟨rfl, rfl, rfl, rfl, rfl, rfl, rfl⟩
  obtain ⟨hequities, hdate, hstarted, hequity, hlast, hlosses, hcursor⟩ := hkept
  simp only [nextState, followupInput, RiskObservation.withHealth] at hhistory ⊢
  simp only [hstreak, hvolatility, hhistory, hpeak, hbaseline, decide_false, Bool.false_eq_true,
    if_false, Bool.not_false, Bool.and_true]
  rw [RiskState.mk.injEq]
  exact ⟨rfl, rfl, hdate.symm, rfl, hequities.symm, hstarted.symm, hequity.symm, hlast.symm,
    hlosses.symm, hcursor.symm, hrecovery, hdaily, hweekly, rfl, rfl, rfl, rfl, rfl⟩

/-- The state of an accepted first call, as a function of its weekly baseline. -/
theorem exists_nextState (h : advanceRiskState prior observation config = .ok next) :
    ∃ weekly, validateObservation prior observation = .ok () ∧
      weeklyBaseline prior observation = .ok weekly ∧
      next = nextState prior observation config (riskInput prior observation config weekly) := by
  rw [advanceRiskState_eq] at h
  simp only [Except.bind_eq_ok, Except.pure_eq_ok] at h
  obtain ⟨⟨⟩, haccepted, weekly, hweekly, hnext⟩ := h
  exact ⟨weekly, haccepted, hweekly, hnext.symm⟩

/-- What the second call returns. -/
theorem advance_followup (haccepted : validateObservation prior observation = .ok ())
    (hweekly : weeklyBaseline prior observation = .ok weekly)
    (hnext : next = nextState prior observation config (riskInput prior observation config weekly)) :
    advanceRiskState next (observation.withHealth healthy) config =
      .ok (nextState next (observation.withHealth healthy) config
        (riskInput next (observation.withHealth healthy) config weekly)) := by
  rw [advanceRiskState_eq, followup_accepted hnext haccepted, weeklyBaseline_followup hnext, hweekly]
  rfl

/-- The losses that stand after the first call are all that the second call counts. -/
theorem lossesWith_followup
    (hnext : next = nextState prior observation config (riskInput prior observation config weekly)) :
    lossesWith next (observation.withHealth healthy) = lossesWith prior observation := by
  have hcursor : next.processedTradeCount = observation.closedTrades.length := by
    rw [hnext]
    rfl
  have hlosses : next.consecutiveLosses = lossesWith prior observation := by
    rw [hnext, ← @riskInput_losses prior observation config weekly]
    rfl
  rw [lossesWith, hcursor, hlosses]
  simp [RiskObservation.withHealth, lossesInRow]

/-- Five losses that stand when the streak halt ends open the next halt in the second call. -/
theorem halted_again {second : RiskState} (hends : EndsStreak prior observation)
    (hfive : 5 ≤ lossesWith prior observation)
    (hnext : next = nextState prior observation config (riskInput prior observation config weekly))
    (hsecond : second = nextState next (observation.withHealth healthy) config
      (riskInput next (observation.withHealth healthy) config weekly)) :
    next.streakHaltStartedAt = none ∧ second.streakHaltStartedAt = some observation.now := by
  have hnone : next.streakHaltStartedAt = none := by
    rw [hnext, nextState]
    dsimp only
    rw [if_pos (decide_eq_true (endsStreak_iff.mpr hends))]
  refine ⟨hnone, ?_⟩
  have hstreak : second.streakHaltStartedAt = keptStart
      (2 ≤ (riskInput next (observation.withHealth healthy) config
        weekly).profitableTradesSinceStreakHalt) (hours 48) observation.now
      (openedStart (5 ≤ lossesWith next (observation.withHealth healthy)) observation.now
        next.streakHaltStartedAt) := by
    rw [hsecond, nextState_streak, riskInput_streak]
    rfl
  rw [hstreak, lossesWith_followup hnext, hnone, openedStart, if_pos ⟨hfive, rfl⟩, keptStart, if_neg]
  simp [hours]

/-- A drawdown limit that no equity is below opens the drawdown halt again. -/
theorem drawdown_again {second : RiskState} (hends : EndsDrawdown prior observation)
    (hlimit : config.hardDrawdown ≤ 0)
    (hnext : next = nextState prior observation config (riskInput prior observation config weekly))
    (hsecond : second = nextState next (observation.withHealth healthy) config
      (riskInput next (observation.withHealth healthy) config weekly)) :
    next.recoveryStartedAt = none ∧ second.recoveryStartedAt = some observation.now := by
  obtain ⟨⟨start, hstart, hpassed⟩, hzero⟩ :=
    (@endsDrawdown_iff prior observation config weekly).mpr hends
  have hnone : next.recoveryStartedAt = none := by
    rw [hnext, nextState]
    dsimp only
    rw [keptStart, if_pos ⟨⟨start, hstart, hpassed⟩, hzero⟩]
  refine ⟨hnone, ?_⟩
  have hpeak : max next.equityPeak observation.equity = max prior.equityPeak observation.equity := by
    rw [hnext]
    exact max_eq_left (le_max_right _ _)
  have hdrawdown : drawdownFrom (max next.equityPeak observation.equity) observation.equity =
      some 0 := by
    rw [hpeak]
    exact hzero
  rw [hsecond, nextState, riskInput]
  have hopened : openedStart (∃ value ∈ some (0 : ℚ), config.hardDrawdown ≤ value)
      observation.now none = some observation.now := if_pos ⟨⟨0, rfl, hlimit⟩, rfl⟩
  simp only [RiskObservation.withHealth, hdrawdown, hnone, hopened]
  rw [keptStart, if_neg]
  simp [hours]

/-! ## The decision of the second call -/

/-- The rules are applied to a snapshot exactly when the bar allows it. -/
theorem judges_iff : Judges prior observation config ↔
    ∃ drawdown ratio, (riskInput prior observation config weekly).Judged drawdown ratio := by
  have hdrawdown : (riskInput prior observation config weekly).drawdown =
      drawdownFrom (max prior.equityPeak observation.equity) observation.equity := rfl
  constructor
  · intro ⟨hhealthy, hpositive, hratio, hconfig⟩
    have hpeak : 0 < max prior.equityPeak observation.equity := lt_max_iff.mpr hpositive
    cases hreading : observation.volatilityRatio with
    | number ratio =>
      rw [hreading] at hratio
      exact ⟨_, ratio, hhealthy, hdrawdown.trans (if_pos hpeak), hreading, le_max_left _ _,
        lossFromBaseline_nonneg _ _, lossFromBaseline_nonneg _ _, hratio, hconfig⟩
    | infinite negative => simp [hreading, Reading.Valid] at hratio
    | nan => simp [hreading, Reading.Valid] at hratio
  · rintro ⟨drawdown, ratio, hjudged⟩
    have hsome := hjudged.drawdown_eq
    rw [hdrawdown, drawdownFrom] at hsome
    have hratio : observation.volatilityRatio = .number ratio := hjudged.ratio_eq
    refine ⟨hjudged.systemHealthy, ?_, ?_, hjudged.config⟩
    · split at hsome
      · rename_i hpeak
        exact lt_max_iff.mp hpeak
      · cases hsome
    · rw [hratio]
      exact hjudged.ratio_nonneg

/-- Apart from the streak rule, the rules judge the second snapshot like the first. -/
theorem rules_followup {drawdown ratio : ℚ}
    (hjudged : (riskInput prior observation config weekly).Judged drawdown ratio)
    (hnext : next = nextState prior observation config (riskInput prior observation config weekly)) :
    let input := riskInput prior observation config weekly
    drawdownRule observation.now drawdown next.recoveryStartedAt =
        drawdownRule observation.now drawdown input.recoveryStartedAt ∧
      dailyRule observation.now input.dailyLoss next.dailyHaltStartedAt =
        dailyRule observation.now input.dailyLoss input.dailyHaltStartedAt ∧
      weeklyRule observation.now input.weeklyLoss next.weeklyHaltStartedAt =
        weeklyRule observation.now input.weeklyLoss input.weeklyHaltStartedAt ∧
      volatilityRule ratio next.volatilityHalted next.volatilityStableBars =
        volatilityRule ratio input.volatilityHalted input.volatilityStableBars := by
  dsimp only
  have hconfig : config = approvedConfig := hjudged.config
  have hratio : observation.volatilityRatio = .number ratio := hjudged.ratio_eq
  subst hconfig hnext
  simp only [nextState]
  refine ⟨?_, dailyRule_kept _ _ _, weeklyRule_kept _ _ _, volatilityRule_kept _ ?_⟩
  · simp only [hjudged.drawdown_eq, Option.some.injEq]
    exact drawdownRule_kept _ _ _
  · simp only [hratio, decide_eq_true_eq]
    rintro ⟨hhalted, _, hcalm, hstable⟩
    exact ⟨hhalted, hcalm, hstable⟩

/-- With fewer than three losses the second call decides like the first. -/
theorem decision_followup
    (hfew : EndsStreak prior observation → Judges prior observation config →
      lossesWith prior observation < 3)
    (hnext : next = nextState prior observation config (riskInput prior observation config weekly)) :
    evaluateRisk (followupInput (riskInput prior observation config weekly) next
        observation.systemHealthy) =
      evaluateRisk (riskInput prior observation config weekly) := by
  have hrules (drawdown ratio : ℚ)
      (hjudged : (riskInput prior observation config weekly).Judged drawdown ratio) :
      drawdownRule observation.now drawdown next.recoveryStartedAt =
          drawdownRule observation.now drawdown
            (riskInput prior observation config weekly).recoveryStartedAt ∧
        (followupInput (riskInput prior observation config weekly) next
          observation.systemHealthy).outcomes ratio =
          (riskInput prior observation config weekly).outcomes ratio := by
    obtain ⟨hdrawdown, hdaily, hweekly, hvolatility⟩ := rules_followup hjudged hnext
    refine ⟨hdrawdown, ?_⟩
    have hstreak : streakRule observation.now
        (riskInput prior observation config weekly).consecutiveLosses
        next.profitableTradesSinceStreakHalt next.streakHaltStartedAt =
          streakRule observation.now (riskInput prior observation config weekly).consecutiveLosses
            (riskInput prior observation config weekly).profitableTradesSinceStreakHalt
            (riskInput prior observation config weekly).streakHaltStartedAt := by
      rw [hnext, nextState_streak]
      simp only [nextState, decide_eq_true_eq]
      apply streakRule_kept
      intro hover hended
      rw [riskInput_losses]
      exact hfew (endsStreak_iff.mp ⟨hover, hended⟩) (judges_iff.mpr ⟨drawdown, ratio, hjudged⟩)
    exact congrArg₂ List.cons hdaily (congrArg₂ List.cons hweekly
      (congrArg₂ List.cons hstreak (congrArg₂ List.cons hvolatility rfl)))
  refine evaluateRisk_congr ?_ ?_ ?_ ?_ ?_ ?_ hrules
  all_goals rfl

/-- Three losses that stand when the streak halt ends give the second decision one more
reason. -/
theorem decided_again (hends : EndsStreak prior observation)
    (hjudges : Judges prior observation config) (hthree : 3 ≤ lossesWith prior observation)
    (hfive : lossesWith prior observation < 5)
    (hnext : next = nextState prior observation config (riskInput prior observation config weekly)) :
    evaluateRisk (followupInput (riskInput prior observation config weekly) next
        observation.systemHealthy) ≠
      evaluateRisk (riskInput prior observation config weekly) := by
  obtain ⟨drawdown, ratio, hjudged⟩ := (@judges_iff prior observation config weekly).mp hjudges
  obtain ⟨hdrawdown, hdaily, hweekly, hvolatility⟩ := rules_followup hjudged hnext
  have hjudged' : (followupInput (riskInput prior observation config weekly) next
      observation.systemHealthy).Judged drawdown ratio := by
    obtain ⟨h₁, h₂, h₃, h₄, h₅, h₆, h₇, h₈⟩ := hjudged
    exact ⟨h₁, h₂, h₃, h₄, h₅, h₆, h₇, h₈⟩
  obtain ⟨⟨start, hstart, hpassed⟩, hended⟩ :=
    (@endsStreak_iff prior observation config weekly).mpr hends
  have hnone : next.streakHaltStartedAt = none := by
    rw [hnext, nextState_streak, keptStart, if_pos ⟨⟨start, hstart, hpassed⟩, hended⟩]
  have hfirst : streakRule observation.now
      (riskInput prior observation config weekly).consecutiveLosses
      (riskInput prior observation config weekly).profitableTradesSinceStreakHalt
      (riskInput prior observation config weekly).streakHaltStartedAt = .clear := by
    have hover : ¬observation.now < start + hours 48 := by omega
    rw [Option.mem_def.mp hstart, streakRule]
    simp only [if_neg hover, if_neg (not_lt.mpr hended)]
  have hsecond : streakRule observation.now
      (riskInput prior observation config weekly).consecutiveLosses
      next.profitableTradesSinceStreakHalt next.streakHaltStartedAt =
        .reduce "loss_streak_reduced" := by
    rw [riskInput_losses, hnone, streakRule]
    simp only [if_neg (not_le.mpr hfive), if_pos hthree]
  intro hsame
  have hlength := congrArg (fun decision => decision.reasons.length) hsame
  rw [hjudged.decision, hjudged'.decision] at hlength
  have hnow : (riskInput prior observation config weekly).now = observation.now := rfl
  simp only [combine_reasons, RiskInput.outcomes, followupInput, hnow, hdrawdown, hdaily, hweekly,
    hvolatility, hfirst, hsecond, List.flatMap_cons, List.flatMap_nil, List.length_append,
    RuleOutcome.reasons, List.length_cons, List.length_nil] at hlength
  omega

end

/-! ## The law of the second call -/

/-- Applying an observation again leaves the state as it is, and applying it with another
health changes nothing but the decision. -/
def FollowupLaw (next : RiskState) (observation : RiskObservation) (config : RiskConfig) : Prop :=
  advanceRiskState next observation config = .ok next ∧
    ∀ healthy, ∃ decision, advanceRiskState next (observation.withHealth healthy) config =
      .ok { next with decision }

/-- A second call on the same bar changes the health only, exactly when no halt that the bar
ends is triggered again by what still stands. -/
theorem followup_law_iff {prior next : RiskState} {observation : RiskObservation}
    {config : RiskConfig} (h : advanceRiskState prior observation config = .ok next) :
    FollowupLaw next observation config ↔ NoRelapse prior observation config := by
  obtain ⟨weekly, haccepted, hweekly, hnext⟩ := exists_nextState h
  have hsecond (healthy : Bool) :=
    @advance_followup prior next observation config weekly healthy haccepted hweekly hnext
  have hsame : observation.withHealth observation.systemHealthy = observation := rfl
  constructor
  · rintro ⟨hagain, -⟩
    have hkept := hsecond observation.systemHealthy
    rw [hsame, hagain] at hkept
    have hkept := Except.ok.inj hkept
    have hhalt : EndsStreak prior observation → lossesWith prior observation < 5 := by
      intro hends
      by_contra hfive
      obtain ⟨hnone, hsome⟩ := @halted_again _ _ _ _ _ observation.systemHealthy _ hends
        (not_lt.mp hfive) hnext hkept
      rw [hnone] at hsome
      cases hsome
    have hdrawdown : EndsDrawdown prior observation → 0 < config.hardDrawdown := by
      intro hends
      by_contra hlimit
      obtain ⟨hnone, hsome⟩ := @drawdown_again _ _ _ _ _ observation.systemHealthy _ hends
        (not_lt.mp hlimit) hnext hkept
      rw [hnone] at hsome
      cases hsome
    refine ⟨hhalt, fun hends hjudges => ?_, hdrawdown⟩
    by_contra hthree
    have hinput := @riskInput_followup _ _ _ _ _ observation.systemHealthy hhalt hdrawdown hnext
    rw [hsame] at hinput
    apply decided_again hends hjudges (not_lt.mp hthree) (hhalt hends) hnext
    have hfirst : next.decision = evaluateRisk (riskInput prior observation config weekly) := by
      rw [hnext]
      rfl
    have hagain : next.decision = evaluateRisk (riskInput next observation config weekly) :=
      congrArg RiskState.decision hkept
    rw [← hinput, ← hagain, hfirst]
  · intro hrelapse
    have hresult (healthy : Bool) :
        advanceRiskState next (observation.withHealth healthy) config =
          .ok { next with
            decision := evaluateRisk
              (followupInput (riskInput prior observation config weekly) next healthy) } := by
      rw [hsecond healthy, riskInput_followup hrelapse.halt hrelapse.drawdown hnext,
        nextState_followup hnext]
    refine ⟨?_, fun healthy => ⟨_, hresult healthy⟩⟩
    have hagain := hresult observation.systemHealthy
    have hdecision : next.decision = evaluateRisk (riskInput prior observation config weekly) := by
      rw [hnext]
      rfl
    rw [hsame, decision_followup hrelapse.reduction hnext, ← hdecision] at hagain
    exact hagain

/-- The bar in which an account loses five times in a row. -/
def losingObservation : RiskObservation :=
  ⟨0, 100, List.replicate 5 ⟨-1, 0⟩, .number 1, true, true⟩

/-- Two days later, two profitable trades and again five losses have been closed. -/
def relapseObservation : RiskObservation :=
  ⟨hours 48, 100, List.replicate 5 ⟨-1, 0⟩ ++ List.replicate 2 ⟨1, hours 20⟩ ++
    List.replicate 5 ⟨-1, hours 40⟩, .number 1, true, true⟩

/-- The run over the bar that starts the streak halt. -/
def losingRun : RiskRun approvedConfig :=
  RiskRun.ofObservations approvedConfig 100 (fun _ => losingObservation) 1 (by decide +kernel)

/-- A bar that starts a streak halt may be applied again. -/
theorem followup_law_losing : ∃ next,
    advanceRiskState (RiskState.fresh 100) losingObservation approvedConfig = .ok next ∧
      FollowupLaw next losingObservation approvedConfig := by
  obtain ⟨next, hnext⟩ : ∃ next,
      advanceRiskState (RiskState.fresh 100) losingObservation approvedConfig = .ok next :=
    Except.isOk_iff.mp (by decide +kernel)
  have hstreak : ¬EndsStreak (RiskState.fresh 100) losingObservation := by
    rintro ⟨start, hstart, -⟩
    cases hstart
  have hdrawdown : ¬EndsDrawdown (RiskState.fresh 100) losingObservation := by
    rintro ⟨start, hstart, -⟩
    cases hstart
  exact ⟨next, hnext, (followup_law_iff hnext).mpr
    ⟨fun h => absurd h hstreak, fun h => absurd h hstreak, fun h => absurd h hdrawdown⟩⟩

/-- In a reachable state the bar that ends a streak halt leaves five losses, and applying it
again starts the next halt. -/
theorem not_followup_law : ¬∀ (run : RiskRun approvedConfig) (observation : RiskObservation) next,
    advanceRiskState (run.state run.length) observation approvedConfig = .ok next →
      FollowupLaw next observation approvedConfig := by
  intro hclaim
  obtain ⟨next, hnext⟩ : ∃ next, advanceRiskState (losingRun.state losingRun.length)
      relapseObservation approvedConfig = .ok next := Except.isOk_iff.mp (by decide +kernel)
  have hagain := (hclaim losingRun relapseObservation next hnext).1
  have hfalse : ((advanceRiskState (losingRun.state losingRun.length) relapseObservation
      approvedConfig).bind fun state =>
        advanceRiskState state relapseObservation approvedConfig) ≠
      advanceRiskState (losingRun.state losingRun.length) relapseObservation approvedConfig := by
    decide +kernel
  apply hfalse
  rw [hnext]
  exact hagain

end AutoBit.Risk
