import AutoBit.Risk.Cooldown

/-!
# The daily halt over whole runs

The loss of a UTC day is measured against the last equity before it. The start of a daily
halt is one field that an earlier day may still hold, so a losing day has a halt of its own
when the field is free at the first bar that loses the limit.
-/

namespace AutoBit.Risk

namespace RiskRun

variable {config : RiskConfig} (run : RiskRun config)

/-- The last equity before a UTC day among the first observations: the initial equity when
none of them is of an earlier day. -/
def equityBefore (day : ℤ) : ℕ → ℚ
  | 0 => run.equity
  | i + 1 => if utcDate (run.bar i) < day then (run.observation i).equity else equityBefore day i

/-- The loss of an observation's UTC day up to it. -/
def dayLoss (i : ℕ) : ℚ :=
  lossFromBaseline (run.observation i).equity (run.equityBefore (utcDate (run.bar i)) i)

/-- The first observation of a UTC day that loses the daily limit. -/
def FirstLosing (i : ℕ) : Prop :=
  i < run.length ∧ config.dailyLossLimit ≤ run.dayLoss i ∧
    ∀ m < i, utcDate (run.bar m) = utcDate (run.bar i) → run.dayLoss m < config.dailyLossLimit

variable {run} {i b t : ℕ}

/-- The baseline that a step takes is the last equity before the day. -/
theorem dailyBaseline_eq (hi : i < run.length) :
    dailyBaseline (run.state i) (run.bar i) = run.equityBefore (utcDate (run.bar i)) i := by
  induction i with
  | zero =>
    rw [run.fresh]
    simp [dailyBaseline, RiskState.fresh, equityBefore]
  | succ i ih =>
    obtain ⟨input, hstep⟩ := advanced (show i < run.length by omega)
    have hday : utcDate (run.bar i) ≤ utcDate (run.bar (i + 1)) :=
      Int.ediv_le_ediv (by decide) (bar_le_succ hi)
    have hprior := ih (by omega)
    rw [dailyBaseline, hstep.dailyDate, hstep.lastEquity, hstep.dailyBaselineEquity, equityBefore]
    have hbar : (run.observation i).now = run.bar i := rfl
    rw [hbar, hprior, Option.getD_some]
    by_cases hsame : utcDate (run.bar (i + 1)) = utcDate (run.bar i)
    · rw [if_neg (by simp [hsame]), if_neg (by omega), hsame]
    · rw [if_pos hsame, if_pos (by omega)]

/-- The first losing bar of a day records its halt when the field is free. -/
theorem FirstLosing.starts (h : run.FirstLosing b)
    (hfree : (run.state b).dailyHaltStartedAt = none) : run.Starts .daily b (run.bar b) := by
  obtain ⟨hb, hloss, -⟩ := h
  obtain ⟨input, hstep⟩ := advanced hb
  have hinput : input.dailyLoss = run.dayLoss b := by
    rw [hstep.dailyLoss, dayLoss, ← dailyBaseline_eq hb]
    rfl
  have hevaluated : input.dailyHaltStartedAt = some (run.bar b) := by
    rw [hstep.opened_daily, openedStart, if_pos ⟨hinput ▸ hloss, hfree⟩]
    rfl
  refine ⟨hb, hfree, ?_⟩
  rcases hstep.kept .daily with hsame | ⟨-, start, hstart, hover⟩
  · exact hsame.trans hevaluated
  · have hsame : start = run.bar b := Option.some.inj (hstart.symm.trans hevaluated)
    have hbar : (run.observation b).now = run.bar b := rfl
    rw [hsame, hbar] at hover
    simp [Halt.window, hours] at hover

end RiskRun

/-- In a run in which no daily halt is still recorded when a day first loses the limit,
every losing day has its own full halt. -/
theorem daily_halts {config : RiskConfig} (run : RiskRun config)
    (hfree : ∀ b, run.FirstLosing b → (run.state b).dailyHaltStartedAt = none) :
    ∀ b t, run.FirstLosing b → b ≤ t → t < run.length → run.bar t < run.bar b + hours 24 →
      (run.decision t).riskRate = 0 := by
  intro b t hlosing hbt ht hwindow
  have hstarts := hlosing.starts (hfree b hlosing)
  exact (hstarts.closed hbt ht hwindow).1

/-- A losing day, a day without a loss on which its halt ends, and another losing day. -/
def twoCrashes : ℕ → RiskObservation
  | 0 => ⟨hours 12, 90, [], .number 1, true, true⟩
  | 1 => ⟨hours 30, 90, [], .number 1, true, true⟩
  | 2 => ⟨hours 40, 90, [], .number 1, true, true⟩
  | 3 => ⟨hours 60, 80, [], .number 1, true, true⟩
  | _ => ⟨hours 70, 80, [], .number 1, true, true⟩

/-- The run over two losing days with a day between them. -/
def twoCrashesRun : RiskRun approvedConfig :=
  RiskRun.ofObservations approvedConfig 100 twoCrashes 5 (by decide +kernel)

/-- Both losing days have their own halts. -/
theorem daily_halts_crashes :
    (twoCrashesRun.FirstLosing 0 ∧ (twoCrashesRun.decision 1).riskRate = 0) ∧
      twoCrashesRun.FirstLosing 3 ∧ (twoCrashesRun.decision 4).riskRate = 0 := by
  have hfirst : twoCrashesRun.FirstLosing 0 := ⟨by decide, by decide +kernel, by omega⟩
  have hsecond : twoCrashesRun.FirstLosing 3 :=
    ⟨by decide, by decide +kernel, by decide +kernel⟩
  have hfree : ∀ b, twoCrashesRun.FirstLosing b →
      (twoCrashesRun.state b).dailyHaltStartedAt = none := by
    rintro b ⟨hb, hlosing, hnew⟩
    have hlength : twoCrashesRun.length = 5 := rfl
    obtain rfl | rfl | rfl | rfl | rfl : b = 0 ∨ b = 1 ∨ b = 2 ∨ b = 3 ∨ b = 4 := by omega
    · rfl
    · exact absurd hlosing (by decide +kernel)
    · exact absurd hlosing (by decide +kernel)
    · decide +kernel
    · exact absurd (hnew 3 (by decide) (by decide)) (by decide +kernel)
  have hhalts := daily_halts twoCrashesRun hfree
  exact ⟨⟨hfirst, hhalts 0 1 hfirst (by decide) (by decide) (by decide)⟩,
    hsecond, hhalts 3 4 hsecond (by decide) (by decide) (by decide)⟩

/-- A gain, a losing day, and a second losing day twenty hours after the first trigger. -/
def twoLosingDays : ℕ → RiskObservation
  | 0 => ⟨hours 12, 110, [], .number 1, true, true⟩
  | 1 => ⟨hours 36, 105, [], .number 1, true, true⟩
  | 2 => ⟨hours 56, 201 / 2, [], .number 1, true, true⟩
  | _ => ⟨hours 60, 201 / 2, [], .number 1, true, true⟩

/-- The run over two losing days. -/
def twoLosingDaysRun : RiskRun approvedConfig :=
  RiskRun.ofObservations approvedConfig 100 twoLosingDays 4 (by decide +kernel)

/-- The second of two losing days does not always have a full halt: it ends with the first. -/
theorem not_every_losing_day_halts : ¬∀ run : RiskRun approvedConfig,
    (∀ i < run.length, (run.observation i).systemHealthy = true) →
    (∀ i j, i < j → j < run.length → run.bar i < run.bar j) →
      ∀ b t, run.FirstLosing b → b ≤ t → t < run.length → run.bar t < run.bar b + hours 24 →
        (run.decision t).riskRate = 0 := by
  intro hclaim
  have hhealthy : ∀ i < twoLosingDaysRun.length,
      (twoLosingDaysRun.observation i).systemHealthy = true := by decide
  have hincreasing : ∀ i j, i < j → j < twoLosingDaysRun.length →
      twoLosingDaysRun.bar i < twoLosingDaysRun.bar j := by
    intro i j hij hj
    have hall : ∀ j < twoLosingDaysRun.length, ∀ i < j,
        twoLosingDaysRun.bar i < twoLosingDaysRun.bar j := by decide
    exact hall j hj i hij
  have hlosing : twoLosingDaysRun.FirstLosing 2 :=
    ⟨by decide, by decide +kernel, by decide +kernel⟩
  have hreduced : (twoLosingDaysRun.decision 3).riskRate ≠ 0 := by decide +kernel
  exact hreduced (hclaim twoLosingDaysRun hhealthy hincreasing 2 3 hlosing (by decide)
    (by decide) (by decide))

end AutoBit.Risk
