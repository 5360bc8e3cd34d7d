import AutoBit.Risk.Accumulation

/-!
# Cooldown windows over whole runs

A halt is recorded at the bar that triggers it and stays recorded through its window, so
that every decision of the window is closed. The reason of a drawdown halt stands exactly
in the windows of the recorded ones, and a volatility halt lasts until the third of three
calm bars in a row.
-/

namespace AutoBit.Risk

open Library

/-- The state that an account with some equity starts from. -/
def RiskState.fresh (equity : ℚ) : RiskState :=
  { initialEquity := equity
    equityPeak := equity
    dailyBaselineEquity := equity
    lastEquity := equity }

/-- A run of `advance_risk_state` from a fresh account: observation `i` is accepted in
state `i` and leads to state `i + 1`. -/
structure RiskRun (config : RiskConfig) where
  length : ℕ
  equity : ℚ
  state : ℕ → RiskState
  observation : ℕ → RiskObservation
  fresh : state 0 = RiskState.fresh equity
  step : ∀ i < length, advanceRiskState (state i) (observation i) config = .ok (state (i + 1))

namespace RiskRun

variable {config : RiskConfig} (run : RiskRun config)

/-- The states of a run, computed from its observations. -/
def states (config : RiskConfig) (equity : ℚ) (observation : ℕ → RiskObservation) : ℕ → RiskState
  | 0 => RiskState.fresh equity
  | i + 1 =>
    match advanceRiskState (states config equity observation i) (observation i) config with
    | .ok next => next
    | .error _ => states config equity observation i

/-- The run over some observations, all of which are accepted. -/
def ofObservations (config : RiskConfig) (equity : ℚ) (observation : ℕ → RiskObservation)
    (length : ℕ)
    (accepted : ∀ i < length, (advanceRiskState (states config equity observation i)
      (observation i) config).isOk = true) : RiskRun config where
  length := length
  equity := equity
  state := states config equity observation
  observation := observation
  fresh := rfl
  step i hi := by
    have hok := accepted i hi
    rw [states]
    split
    · rename_i next hnext
      exact hnext
    · rename_i failure hfailure
      rw [hfailure] at hok
      cases hok

/-- The bar that an observation is about. -/
def bar (i : ℕ) : ℤ := (run.observation i).now

/-- The decision at an observation. -/
def decision (i : ℕ) : RiskDecision := (run.state (i + 1)).decision

/-- A halt is first recorded at an observation: its start field goes from none to `s`. -/
def Starts (halt : Halt) (i : ℕ) (s : ℤ) : Prop :=
  i < run.length ∧ halt.recorded (run.state i) = none ∧
    halt.recorded (run.state (i + 1)) = some s

/-- An observation without a drawdown: no equity so far was higher. -/
def AtPeak (i : ℕ) : Prop :=
  run.equity ≤ (run.observation i).equity ∧
    ∀ m ≤ i, (run.observation m).equity ≤ (run.observation i).equity

/-- The first observation of a bar; the others are follow-ups on the same bar. -/
def NewBar (i : ℕ) : Prop := ∀ m < i, run.bar m ≠ run.bar i

/-- Two bars in a row. -/
def NextBar (i j : ℕ) : Prop :=
  i < j ∧ run.NewBar j ∧ ∀ m, i < m → m < j → ¬run.NewBar m

/-- An observation is the third of three calm bars in a row after observation `i`. -/
def ThirdCalm (i c : ℕ) : Prop :=
  ∃ a b, i < a ∧ run.NewBar a ∧ run.NextBar a b ∧ run.NextBar b c ∧
    (run.observation a).Calm ∧ (run.observation b).Calm ∧ (run.observation c).Calm

/-- A volatility halt starts at an observation. -/
def VolatilityStarts (i : ℕ) : Prop :=
  i < run.length ∧ (run.state i).volatilityHalted = false ∧
    (run.state (i + 1)).volatilityHalted = true

variable {run} {i j : ℕ} {halt : Halt} {s t : ℤ}

/-- Each observation of a run advances its state. -/
theorem advanced (hi : i < run.length) :
    ∃ input, Advanced (run.state i) (run.observation i) config input (run.state (i + 1)) :=
  advanced_of_ok (run.step i hi)

/-- The last bar of a state is that of its observation. -/
theorem lastRiskAt_succ (hi : i < run.length) :
    (run.state (i + 1)).lastRiskAt = some (run.bar i) := by
  obtain ⟨input, hstep⟩ := advanced hi
  exact hstep.lastRiskAt

/-- The bars of a run never go back. -/
theorem bar_le_succ (hi : i + 1 < run.length) : run.bar i ≤ run.bar (i + 1) := by
  obtain ⟨input, hstep⟩ := advanced hi
  exact hstep.chronological _ (lastRiskAt_succ (by omega))

/-- The bars of a run never go back. -/
theorem bar_mono (hij : i ≤ j) (hj : j < run.length) : run.bar i ≤ run.bar j := by
  induction j, hij using Nat.le_induction with
  | base => exact le_rfl
  | succ j hij ih => exact (ih (by omega)).trans (bar_le_succ hj)

/-- A halt that is recorded after an observation closed the decision there, unless its
window is over. -/
theorem closed_of_recorded (hi : i < run.length)
    (hrecorded : halt.recorded (run.state (i + 1)) = some s)
    (hwindow : run.bar i < s + halt.window) : (run.decision i).Closed := by
  obtain ⟨input, hstep⟩ := advanced hi
  have hevaluated : halt.evaluated input = some s := by
    rcases hstep.kept halt with hsame | ⟨hnone, -⟩
    · rw [← hsame, hrecorded]
    · rw [hrecorded] at hnone
      cases hnone
  have hclosed := evaluateRisk_of_halt halt hevaluated (by rw [hstep.now]; exact hwindow)
  rw [← hstep.decision] at hclosed
  exact hclosed

/-- A halt is recorded with the bar that triggers it. -/
theorem Starts.eq_bar (h : run.Starts halt i s) : s = run.bar i := by
  obtain ⟨hi, hnone, hsome⟩ := h
  obtain ⟨input, hstep⟩ := advanced hi
  rcases hstep.kept halt with hsame | ⟨hdropped, -⟩
  · rw [hsome] at hsame
    rcases hstep.opened halt with hrecorded | ⟨-, hopened⟩
    · rw [hnone, ← hsame] at hrecorded
      cases hrecorded
    · rw [← hsame] at hopened
      exact Option.some.inj hopened
  · rw [hsome] at hdropped
    cases hdropped

/-- One more observation keeps a recorded halt, unless its window is over there. -/
theorem recorded_succ (hi : i < run.length) (hrecorded : halt.recorded (run.state i) = some s) :
    halt.recorded (run.state (i + 1)) = some s ∨
      halt.recorded (run.state (i + 1)) = none ∧ s + halt.window ≤ run.bar i := by
  obtain ⟨input, hstep⟩ := advanced hi
  have hevaluated : halt.evaluated input = some s := by
    rcases hstep.opened halt with hsame | ⟨hnone, -⟩
    · rw [hsame, hrecorded]
    · rw [hrecorded] at hnone
      cases hnone
  rcases hstep.kept halt with hsame | ⟨hnone, start, hstart, hover⟩
  · exact Or.inl (hsame.trans hevaluated)
  · rw [hevaluated] at hstart
    cases hstart
    exact Or.inr ⟨hnone, hover⟩

/-- A recorded halt stays recorded through its window. -/
theorem recorded_of_window (hij : i ≤ j) (hj : j < run.length)
    (hrecorded : halt.recorded (run.state (i + 1)) = some s)
    (hwindow : run.bar j < s + halt.window) : halt.recorded (run.state (j + 1)) = some s := by
  induction j, hij using Nat.le_induction with
  | base => exact hrecorded
  | succ j hij ih =>
    have hbar := bar_le_succ hj
    have hprior := ih (by omega) (by omega)
    rcases recorded_succ hj hprior with hkept | ⟨-, hover⟩
    · exact hkept
    · omega

/-- Every decision in the window of a recorded halt is closed. -/
theorem Starts.closed (h : run.Starts halt i s) (hij : i ≤ j) (hj : j < run.length)
    (hwindow : run.bar j < s + halt.window) : (run.decision j).Closed :=
  closed_of_recorded hj (recorded_of_window hij hj h.2.2 hwindow) hwindow

/-- A recorded start was recorded at some observation before. -/
theorem exists_starts (hj : j ≤ run.length) (hrecorded : halt.recorded (run.state j) = some s) :
    ∃ i < j, run.Starts halt i s := by
  induction j with
  | zero =>
    rw [run.fresh] at hrecorded
    cases halt <;> cases hrecorded
  | succ j ih =>
    cases hprior : halt.recorded (run.state j) with
    | none => exact ⟨j, by omega, by omega, hprior, hrecorded⟩
    | some start =>
      rcases recorded_succ (by omega) hprior with hkept | ⟨hnone, -⟩
      · rw [hrecorded] at hkept
        cases hkept
        obtain ⟨i, hi, hstart⟩ := ih (by omega) hprior
        exact ⟨i, by omega, hstart⟩
      · rw [hrecorded] at hnone
        cases hnone

/-- A recorded halt that is gone later was dropped in between, after its window. -/
theorem exists_dropped (hij : i < j) (hj : j ≤ run.length)
    (hrecorded : halt.recorded (run.state (i + 1)) = some s)
    (hgone : halt.recorded (run.state j) ≠ some s) :
    ∃ k, i < k ∧ k < j ∧ halt.recorded (run.state k) = some s ∧
      halt.recorded (run.state (k + 1)) = none ∧ s + halt.window ≤ run.bar k := by
  induction j, hij using Nat.le_induction with
  | base => exact absurd hrecorded hgone
  | succ j hij ih =>
    by_cases hprior : halt.recorded (run.state j) = some s
    · rcases recorded_succ (by omega) hprior with hkept | ⟨hnone, hover⟩
      · exact absurd hkept hgone
      · exact ⟨j, by omega, by omega, hprior, hnone, hover⟩
    · obtain ⟨k, hik, hkj, hk⟩ := ih (by omega) hprior
      exact ⟨k, hik, by omega, hk⟩

/-- The peak of a state is the highest equity so far. -/
theorem le_equityPeak (hi : i ≤ run.length) : run.equity ≤ (run.state i).equityPeak ∧
    ∀ m < i, (run.observation m).equity ≤ (run.state i).equityPeak := by
  induction i with
  | zero =>
    rw [run.fresh]
    exact ⟨le_rfl, by omega⟩
  | succ i ih =>
    obtain ⟨hfresh, hall⟩ := ih (by omega)
    have hi' : i < run.length := by omega
    obtain ⟨input, hstep⟩ := advanced hi'
    have hpeak := hstep.equityPeak
    refine ⟨hpeak ▸ hfresh.trans (le_max_left _ _), fun m hm => ?_⟩
    rcases Nat.lt_succ_iff_lt_or_eq.mp hm with hearlier | rfl
    · exact hpeak ▸ (hall m hearlier).trans (le_max_left _ _)
    · exact hpeak ▸ le_max_right _ _

/-- The initial equity stays that of the run. -/
theorem initialEquity_eq (hi : i ≤ run.length) :
    (run.state i).initialEquity = run.equity := by
  induction i with
  | zero =>
    rw [run.fresh]
    rfl
  | succ i ih =>
    have hi' : i < run.length := by omega
    obtain ⟨input, hstep⟩ := advanced hi'
    rw [hstep.initialEquity, ih (by omega)]

/-- An account whose observations are accepted has a positive peak, so a drawdown. -/
theorem equityPeak_pos (hi : i < run.length) : 0 < (run.state (i + 1)).equityPeak := by
  obtain ⟨input, hstep⟩ := advanced hi
  have hpos := hstep.initialEquity_pos
  rw [initialEquity_eq (by omega)] at hpos
  exact hpos.trans_le (le_equityPeak (by omega)).1

/-- A drawdown of zero is an equity at its peak. -/
theorem atPeak_of_drawdown (hi : i < run.length)
    (hzero : drawdownFrom (run.state (i + 1)).equityPeak (run.observation i).equity = some 0) :
    run.AtPeak i := by
  have hpos := equityPeak_pos hi
  rw [drawdownFrom, if_pos hpos, Option.some.injEq] at hzero
  have hle : 1 - (run.observation i).equity / (run.state (i + 1)).equityPeak ≤ 0 :=
    hzero ▸ le_max_right _ _
  have hpeak : (run.state (i + 1)).equityPeak ≤ (run.observation i).equity :=
    (one_le_div₀ hpos).mp (by linarith)
  have hi' : i + 1 ≤ run.length := by omega
  obtain ⟨hfresh, hall⟩ := le_equityPeak hi'
  exact ⟨hfresh.trans hpeak, fun m hm => (hall m (by omega)).trans hpeak⟩

/-- Between two recorded drawdown halts, a bar after the first window is at the peak. -/
theorem Starts.exists_atPeak (h : run.Starts .drawdown i s) (hij : i < j)
    (hlater : run.Starts .drawdown j t) :
    ∃ k, i < k ∧ k < j ∧ s + hours 72 ≤ run.bar k ∧ run.AtPeak k := by
  have hgone : Halt.drawdown.recorded (run.state j) ≠ some s := by
    rw [hlater.2.1]
    simp
  obtain ⟨k, hik, hkj, hprior, hnone, hover⟩ :=
    exists_dropped hij (le_of_lt hlater.1) h.2.2 hgone
  have hk : k < run.length := hkj.trans hlater.1
  obtain ⟨input, hstep⟩ := advanced hk
  have hevaluated : input.recoveryStartedAt ≠ none := by
    rcases hstep.opened .drawdown with hsame | ⟨hopened, -⟩
    · rw [hprior] at hsame
      rw [show input.recoveryStartedAt = some s from hsame]
      simp
    · rw [hprior] at hopened
      cases hopened
  have hzero := hstep.dropped_drawdown hnone hevaluated
  rw [hstep.drawdown] at hzero
  exact ⟨k, hik, hkj, hover, atPeak_of_drawdown hk hzero⟩

/-- A halt is evaluated within its window exactly in the windows of the recorded halts. -/
theorem evaluated_iff_starts {input : RiskInput} (hj : j < run.length)
    (hstep : Advanced (run.state j) (run.observation j) config input (run.state (j + 1))) :
    (∃ s, halt.evaluated input = some s ∧ run.bar j < s + halt.window) ↔
      ∃ i ≤ j, ∃ s, run.Starts halt i s ∧ s ≤ run.bar j ∧ run.bar j < s + halt.window := by
  constructor
  · rintro ⟨s, hevaluated, hwindow⟩
    have hrecorded : halt.recorded (run.state (j + 1)) = some s := by
      rcases hstep.kept halt with hsame | ⟨-, start, hstart, hover⟩
      · rw [hsame, hevaluated]
      · rw [hevaluated] at hstart
        cases hstart
        exact absurd hwindow (not_lt.mpr hover)
    obtain ⟨i, hi, hstarts⟩ := exists_starts hj hrecorded
    have hbar := bar_mono (Nat.lt_succ_iff.mp hi) hj
    exact ⟨i, Nat.lt_succ_iff.mp hi, s, hstarts, hstarts.eq_bar ▸ hbar, hwindow⟩
  · rintro ⟨i, hij, s, hstarts, -, hwindow⟩
    have hrecorded := recorded_of_window hij hj hstarts.2.2 hwindow
    rcases hstep.kept halt with hsame | ⟨hnone, -⟩
    · exact ⟨s, hsame.symm.trans hrecorded, hwindow⟩
    · rw [hrecorded] at hnone
      cases hnone

/-- The reason of a drawdown halt stands exactly in the windows of the recorded halts, at
observations whose ratio is a number that is not negative. -/
theorem drawdown_halt_iff (run : RiskRun approvedConfig) (hj : j < run.length)
    (hhealthy : (run.observation j).systemHealthy = true) :
    "drawdown_halt" ∈ (run.decision j).reasons ↔
      (run.observation j).volatilityRatio.Valid ∧
        ∃ i ≤ j, ∃ s, run.Starts .drawdown i s ∧ s ≤ run.bar j ∧ run.bar j < s + hours 72 := by
  obtain ⟨input, hstep⟩ := advanced hj
  have hhealthy' : input.systemHealthy = true := hstep.systemHealthy.trans hhealthy
  rw [decision, hstep.decision, ← hstep.ratio]
  by_cases hratio : input.volatilityRatio.Valid
  · have hpos := equityPeak_pos hj
    have hdrawdown := hstep.drawdown
    rw [drawdownFrom, if_pos hpos] at hdrawdown
    have hdaily : 0 ≤ input.dailyLoss := hstep.dailyLoss ▸ lossFromBaseline_nonneg _ _
    have hwindows : (∃ s, Halt.drawdown.evaluated input = some s ∧
        run.bar j < s + Halt.drawdown.window) ↔ _ := evaluated_iff_starts hj hstep
    rw [drawdown_halt_mem_reasons_iff hhealthy' hstep.config_eq hdrawdown (le_max_left _ _)
      hdaily hstep.weeklyLoss hratio, hstep.now, drawdownRule_halts_iff]
    · exact hwindows.trans (by simp [hratio, Halt.window])
    · intro hnone
      have hopened := hstep.opened_drawdown
      rw [hnone, openedStart] at hopened
      split at hopened
      · cases hopened
      · rename_i hclosed
        refine lt_of_not_ge fun hhard => hclosed ⟨⟨_, hdrawdown, hhard⟩, hopened.symm⟩
  · rw [evaluateRisk_of_invalid_ratio hhealthy' hratio]
    simp [hratio, invalidDecision]

/-- An observation is of a new bar unless the state has already seen that bar. -/
theorem newBar_iff (hi : i < run.length) :
    run.NewBar i ↔ (run.state i).lastRiskAt ≠ some (run.bar i) := by
  cases i with
  | zero =>
    rw [run.fresh]
    simp [NewBar, RiskState.fresh]
  | succ i =>
    rw [lastRiskAt_succ (by omega)]
    constructor
    · intro hnew hsame
      exact hnew i (by omega) (Option.some.inj hsame)
    · intro hlast m hm hsame
      have hle := bar_mono (show m ≤ i by omega) (show i < run.length by omega)
      have hnext := bar_le_succ hi
      exact hlast (congrArg some (by omega))

/-- How the calm bars in a row since observation `i` stand after observation `j`: the
counted ones are the last new bars, and there are fewer than three of them. -/
structure CalmCount (run : RiskRun config) (i j : ℕ) : Prop where
  halted : (run.state (j + 1)).volatilityHalted = true
  few : (run.state (j + 1)).volatilityStableBars < 3
  one : 1 ≤ (run.state (j + 1)).volatilityStableBars → ∃ b, i < b ∧ b ≤ j ∧ run.NewBar b ∧
    (run.observation b).Calm ∧ ∀ m, b < m → m ≤ j → ¬run.NewBar m
  two : 2 ≤ (run.state (j + 1)).volatilityStableBars → ∃ a b, i < a ∧ b ≤ j ∧ run.NewBar a ∧
    run.NextBar a b ∧ (run.observation a).Calm ∧ (run.observation b).Calm ∧
      ∀ m, b < m → m ≤ j → ¬run.NewBar m
  closed : (run.decision j).Closed

/-- A volatility halt starts without calm bars and with a closed decision. -/
theorem VolatilityStarts.calmCount (h : run.VolatilityStarts i) : CalmCount run i i := by
  obtain ⟨hi, hprior, hnext⟩ := h
  obtain ⟨input, hstep⟩ := advanced hi
  obtain ⟨hinput, -⟩ := hstep.halted_next.mp hnext
  have hexceeds : (run.observation i).volatilityRatio.Exceeds 3 := by
    rcases hstep.halted.mp hinput with hhalted | hexceeds
    · rw [hprior] at hhalted
      cases hhalted
    · exact hexceeds
  have hzero := hstep.stable_begin hprior hexceeds
  have hcount : (run.state (i + 1)).volatilityStableBars = 0 :=
    (hstep.stable_next hnext).trans hzero
  refine ⟨hnext, by omega, by omega, by omega, ?_⟩
  rw [decision, hstep.decision]
  exact evaluateRisk_of_volatility hinput (by omega)

/-- One more observation keeps the count, unless it is the third calm bar in a row. -/
theorem CalmCount.succ (h : CalmCount run i j) (hj : j + 1 < run.length) (hij : i ≤ j)
    (hthird : ¬run.ThirdCalm i (j + 1)) : CalmCount run i (j + 1) := by
  obtain ⟨input, hstep⟩ := advanced hj
  have hinput : input.volatilityHalted = true := hstep.halted.mpr (Or.inl h.halted)
  have hfew := h.few
  by_cases hnew : run.NewBar (j + 1)
  · have hcount := hstep.stable_new h.halted ((newBar_iff hj).mp hnew)
    by_cases hcalm : (run.observation (j + 1)).Calm
    · rw [if_pos hcalm] at hcount
      have hbelow : (run.state (j + 1)).volatilityStableBars < 2 := by
        by_contra htwo
        obtain ⟨a, b, hia, hbj, ha, hab, hcalma, hcalmb, hlast⟩ := h.two (by omega)
        exact hthird ⟨a, b, hia, ha, hab, ⟨by omega, hnew, fun m hbm hmj =>
          hlast m hbm (by omega)⟩, hcalma, hcalmb, hcalm⟩
      have hnext := hstep.halted_next.mpr ⟨hinput, fun hends => by omega⟩
      have hstable := hstep.stable_next hnext
      refine ⟨hnext, by omega, fun _ => ?_, fun htwo => ?_, ?_⟩
      · exact ⟨j + 1, by omega, le_rfl, hnew, hcalm, by omega⟩
      · obtain ⟨b, hib, hbj, hb, hcalmb, hlast⟩ := h.one (by omega)
        exact ⟨b, j + 1, hib, le_rfl, hb, ⟨by omega, hnew, fun m hbm hmj =>
          hlast m hbm (by omega)⟩, hcalmb, hcalm, by omega⟩
      · rw [decision, hstep.decision]
        exact evaluateRisk_of_volatility hinput (by omega)
    · rw [if_neg hcalm] at hcount
      have hnext := hstep.halted_next.mpr ⟨hinput, fun hends => hcalm hends.1⟩
      have hstable := hstep.stable_next hnext
      refine ⟨hnext, by omega, by omega, by omega, ?_⟩
      rw [decision, hstep.decision]
      exact evaluateRisk_of_volatility hinput (by omega)
  · have hsame : (run.state (j + 1)).lastRiskAt = some (run.bar (j + 1)) := by
      by_contra hother
      exact hnew ((newBar_iff hj).mpr hother)
    have hcount := hstep.stable_same h.halted hsame
    have hnext := hstep.halted_next.mpr ⟨hinput, fun hends => by omega⟩
    have hstable := hstep.stable_next hnext
    refine ⟨hnext, by omega, fun hone => ?_, fun htwo => ?_, ?_⟩
    · obtain ⟨b, hib, hbj, hb, hcalmb, hlast⟩ := h.one (by omega)
      refine ⟨b, hib, by omega, hb, hcalmb, fun m hbm hmj => ?_⟩
      rcases Nat.le_succ_iff.mp hmj with hearlier | rfl
      · exact hlast m hbm hearlier
      · exact hnew
    · obtain ⟨a, b, hia, hbj, ha, hab, hcalma, hcalmb, hlast⟩ := h.two (by omega)
      refine ⟨a, b, hia, by omega, ha, hab, hcalma, hcalmb, fun m hbm hmj => ?_⟩
      rcases Nat.le_succ_iff.mp hmj with hearlier | rfl
      · exact hlast m hbm hearlier
      · exact hnew
    · rw [decision, hstep.decision]
      exact evaluateRisk_of_volatility hinput (by omega)

/-- A volatility halt lasts, and closes every decision, until the third calm bar. -/
theorem VolatilityStarts.lasts (h : run.VolatilityStarts i) (hij : i ≤ j) (hj : j < run.length)
    (hthird : ∀ c, c ≤ j → ¬run.ThirdCalm i c) : CalmCount run i j := by
  induction j, hij using Nat.le_induction with
  | base => exact h.calmCount
  | succ j hij ih =>
    have hcount := ih (by omega) fun c hc => hthird c (by omega)
    exact hcount.succ hj hij (hthird (j + 1) le_rfl)

end RiskRun

open RiskRun in
/-- The cooldown windows of a healthy run. A recorded halt closes every decision of its
window. The reason of a drawdown halt stands exactly in the windows of the recorded ones,
apart from observations whose ratio is no number or a negative one, which are refused as
invalid. No drawdown halt starts before a bar without a drawdown after the window of the
last one. A volatility halt lasts, with every decision closed, until the third of three
calm bars in a row. -/
theorem cooldown_windows (run : RiskRun approvedConfig)
    (healthy : ∀ i < run.length, (run.observation i).systemHealthy = true) :
    (∀ halt i j s, run.Starts halt i s → i ≤ j → j < run.length →
      run.bar j < s + Halt.window halt →
        s = run.bar i ∧ (run.decision j).riskRate = 0 ∧ (run.decision j).exposureCap = 0) ∧
    (∀ j < run.length, "drawdown_halt" ∈ (run.decision j).reasons ↔
      (run.observation j).volatilityRatio.Valid ∧
        ∃ i ≤ j, ∃ s, run.Starts .drawdown i s ∧ s ≤ run.bar j ∧ run.bar j < s + hours 72) ∧
    (∀ i j s t, run.Starts .drawdown i s → i < j → run.Starts .drawdown j t →
      ∃ k, i < k ∧ k < j ∧ s + hours 72 ≤ run.bar k ∧ run.AtPeak k) ∧
    (∀ i j, run.VolatilityStarts i → i ≤ j → j < run.length →
      (∀ c, c ≤ j → ¬run.ThirdCalm i c) →
        (run.state (j + 1)).volatilityHalted = true ∧
          (run.decision j).riskRate = 0 ∧ (run.decision j).exposureCap = 0) := by
  refine ⟨?_, ?_, ?_, ?_⟩
  · intro halt i j s hstarts hij hj hwindow
    exact ⟨hstarts.eq_bar, hstarts.closed hij hj hwindow⟩
  · intro j hj
    exact drawdown_halt_iff run hj (healthy j hj)
  · intro i j s t hstarts hij hlater
    exact hstarts.exists_atPeak hij hlater
  · intro i j hstarts hij hj hthird
    have hcount := hstarts.lasts hij hj hthird
    exact ⟨hcount.halted, hcount.closed⟩

/-- A bar that loses a fifth of the equity, and a bar without a volatility ratio. -/
def crashObservation : ℕ → RiskObservation
  | 0 => ⟨0, 80, [], .number 1, true, true⟩
  | _ => ⟨fourHours, 80, [], .nan, false, true⟩

/-- The run over the two bars of a crash. -/
def crashRun : RiskRun approvedConfig :=
  RiskRun.ofObservations approvedConfig 100 crashObservation 2 (by decide +kernel)

/-- The second bar is in the window of the drawdown halt, so its decision is closed. -/
theorem cooldown_windows_crash : crashRun.Starts .drawdown 0 0 ∧
    (crashRun.decision 1).riskRate = 0 ∧ (crashRun.decision 1).exposureCap = 0 := by
  have hstarts : crashRun.Starts .drawdown 0 0 := by
    refine ⟨by decide, by decide +kernel, by decide +kernel⟩
  have hwindow : crashRun.bar 1 < 0 + Halt.window .drawdown := by decide
  have hwindows := (cooldown_windows crashRun (by decide)).1
  exact ⟨hstarts, (hwindows .drawdown 0 1 0 hstarts (by decide) (by decide) hwindow).2⟩

/-- Without a volatility ratio the snapshot is refused, so a bar in the window of a drawdown
halt does not always have its reason. -/
theorem not_drawdown_halt_in_every_window : ¬∀ run : RiskRun approvedConfig,
    (∀ i < run.length, (run.observation i).systemHealthy = true) →
      ∀ j < run.length, "drawdown_halt" ∈ (run.decision j).reasons ↔
        ∃ i ≤ j, ∃ s, run.Starts .drawdown i s ∧ s ≤ run.bar j ∧ run.bar j < s + hours 72 := by
  intro hclaim
  have hstarts : crashRun.Starts .drawdown 0 0 :=
    ⟨by decide, by decide +kernel, by decide +kernel⟩
  have hreason := (hclaim crashRun (by decide) 1 (by decide)).mpr
    ⟨0, by decide, 0, hstarts, by decide, by decide⟩
  have hreasons : (crashRun.decision 1).reasons = ["invalid_input"] := by decide +kernel
  rw [hreasons] at hreason
  simp at hreason

end AutoBit.Risk
