import AutoBit.Risk.DailyHalt
import AutoBit.Risk.Delay
import Mathlib.Data.List.DropRight
import Mathlib.Order.Bounds.Basic

/-!
# What the accumulated state says about the whole history

The state keeps counters, one baseline and the equities of seven days. Over observations
at increasing times these are what the full history of equities and closed trades says:
the peak, the last equity before the day, the first equity of the last seven days, the
losses in a row at the end and the number of trades.
-/

namespace AutoBit.Risk

open Library

/-! ## Closed trades -/

/-- The losses in a row after some trades, when some were in a row before them. -/
def lossesInRow (before : ℕ) (trades : List ClosedTrade) : ℕ :=
  trades.foldl (fun losses trade => if trade.netPnl < 0 then losses + 1 else 0) before

/-- The trades that a streak halt counts towards its recovery. -/
def profitableAfter (start : ℤ) (trades : List ClosedTrade) : ℕ :=
  trades.countP fun trade => 0 < trade.netPnl ∧ start < trade.exitTime

/-- The length of the longest run of losses that the trades end with. -/
def losingSuffix (trades : List ClosedTrade) : ℕ :=
  (trades.rtakeWhile fun trade => trade.netPnl < 0).length

/-- Counting on from the run of losses so far gives the run of losses at the end. -/
theorem lossesInRow_losingSuffix (before trades : List ClosedTrade) :
    lossesInRow (losingSuffix before) trades = losingSuffix (before ++ trades) := by
  induction trades using List.reverseRecOn with
  | nil => rw [List.append_nil]; rfl
  | append_singleton trades trade ih =>
    have hfold : lossesInRow (losingSuffix before) (trades ++ [trade]) =
        if trade.netPnl < 0 then lossesInRow (losingSuffix before) trades + 1 else 0 := by
      simp [lossesInRow]
    rw [hfold, ih, losingSuffix, losingSuffix, ← List.append_assoc, List.rtakeWhile_concat]
    by_cases hloss : trade.netPnl < 0 <;> simp [hloss]

/-- The counts of a step are those of its new trades. -/
theorem tradeCounts_eq (prior : RiskState) (trades : List ClosedTrade) :
    tradeCounts prior trades =
      (lossesInRow prior.consecutiveLosses (trades.drop prior.processedTradeCount),
        prior.profitableTradesSinceStreakHalt + prior.streakHaltStartedAt.elim 0 fun start =>
          profitableAfter start (trades.drop prior.processedTradeCount)) := by
  rw [tradeCounts, lossesInRow]
  generalize trades.drop prior.processedTradeCount = fresh
  generalize prior.consecutiveLosses = losses
  generalize prior.profitableTradesSinceStreakHalt = profitable
  induction fresh generalizing losses profitable with
  | nil => cases prior.streakHaltStartedAt <;> simp [profitableAfter]
  | cons trade fresh ih =>
    rw [List.foldl_cons, List.foldl_cons, countTrade, ih]
    congr 1
    cases prior.streakHaltStartedAt with
    | none => simp
    | some start =>
      simp only [Option.mem_def, Option.some.injEq, exists_eq_left', Option.elim_some,
        profitableAfter, List.countP_cons, decide_eq_true_eq]
      by_cases hcounts : 0 < trade.netPnl ∧ start < trade.exitTime
      · rw [if_pos hcounts, if_pos hcounts]
        omega
      · rw [if_neg hcounts, if_neg hcounts]
        rfl

namespace RiskRun

variable {config : RiskConfig} (run : RiskRun config)

/-- The trades that the first observations reported, each with the ones that the earlier
observations did not have yet. -/
def observedTrades : ℕ → List ClosedTrade
  | 0 => []
  | i + 1 => observedTrades i ++
      (run.observation i).closedTrades.drop (observedTrades i).length

/-- The bars and equities of the first observations. -/
def fullHistory (n : ℕ) : List (ℤ × ℚ) :=
  (List.range n).map fun i => (run.bar i, (run.observation i).equity)

/-- The equity that the weekly loss of an observation is to be measured against: the
initial one in the first seven days, and the earliest of the last seven days after that. -/
def IsWeeklyReference (n : ℕ) (reference : ℚ) : Prop :=
  run.bar n - run.bar 0 < hours 168 ∧ reference = run.equity ∨
    hours 168 ≤ run.bar n - run.bar 0 ∧ ∃ j ≤ n, run.bar n - hours 168 ≤ run.bar j ∧
      (∀ m < j, run.bar m < run.bar n - hours 168) ∧ reference = (run.observation j).equity

variable {run} {n : ℕ}

/-- One step is a function of the weekly baseline. -/
theorem exists_weekly (hn : n < run.length) :
    ∃ weekly, weeklyBaseline (run.state n) (run.observation n) = .ok weekly ∧
      run.state (n + 1) = nextState (run.state n) (run.observation n) config
        (riskInput (run.state n) (run.observation n) config weekly) ∧
      (run.state n).processedTradeCount ≤ (run.observation n).closedTrades.length := by
  have hstep := run.step n hn
  rw [advanceRiskState_eq] at hstep
  simp only [Except.bind_eq_ok, Except.pure_eq_ok] at hstep
  obtain ⟨⟨⟩, haccepted, weekly, hweekly, hnext⟩ := hstep
  simp only [validateObservation, Except.bind_eq_ok, reject_eq_ok] at haccepted
  obtain ⟨-, -, -, -, -, hcursor, -⟩ := haccepted
  exact ⟨weekly, hweekly, hnext.symm, not_lt.mp hcursor⟩

/-- The number of processed trades is that of the observed ones. -/
theorem processedTradeCount_eq (hn : n ≤ run.length) :
    (run.state n).processedTradeCount = (run.observedTrades n).length := by
  induction n with
  | zero => rw [run.fresh]; rfl
  | succ n ih =>
    obtain ⟨weekly, -, hnext, hcursor⟩ := exists_weekly (show n < run.length by omega)
    have hcount := ih (by omega)
    rw [hnext, nextState, observedTrades, List.length_append, List.length_drop]
    dsimp only
    omega

/-- The consecutive losses are those at the end of the observed trades. -/
theorem consecutiveLosses_eq (hn : n ≤ run.length) :
    (run.state n).consecutiveLosses = losingSuffix (run.observedTrades n) := by
  induction n with
  | zero => rw [run.fresh]; rfl
  | succ n ih =>
    obtain ⟨weekly, -, hnext, -⟩ := exists_weekly (show n < run.length by omega)
    have hlosses : (run.state (n + 1)).consecutiveLosses =
        (tradeCounts (run.state n) (run.observation n).closedTrades).1 := by rw [hnext]; rfl
    rw [hlosses, tradeCounts_eq, ih (by omega), processedTradeCount_eq (by omega),
      lossesInRow_losingSuffix, observedTrades]

/-- When no observation rewrites the trades before it, the last one has them all. -/
theorem observedTrades_eq (hn : n < run.length)
    (hgrows : ∀ i < n, (run.observation i).closedTrades <+: (run.observation (i + 1)).closedTrades) :
    run.observedTrades (n + 1) = (run.observation n).closedTrades := by
  induction n with
  | zero => simp [observedTrades]
  | succ n ih =>
    rw [observedTrades, ih (by omega) fun i hi => hgrows i (by omega)]
    exact List.prefix_iff_eq_append.mp (hgrows n (by omega))

/-- The risk state has started at the first bar. -/
theorem riskStartedAt_eq (hn : n < run.length) :
    (run.state (n + 1)).riskStartedAt = some (run.bar 0) := by
  induction n with
  | zero =>
    obtain ⟨weekly, -, hnext, -⟩ := exists_weekly hn
    rw [hnext, nextState, run.fresh]
    rfl
  | succ n ih =>
    obtain ⟨weekly, -, hnext, -⟩ := exists_weekly hn
    rw [hnext, nextState, ih (by omega)]
    rfl

/-- The equity peak is the greatest equity so far. -/
theorem equityPeak_isGreatest (hn : n ≤ run.length) :
    IsGreatest {equity | equity = run.equity ∨ ∃ i < n, equity = (run.observation i).equity}
      (run.state n).equityPeak := by
  induction n with
  | zero =>
    rw [run.fresh]
    refine ⟨.inl rfl, ?_⟩
    rintro equity (rfl | ⟨i, hi, -⟩)
    · exact le_rfl
    · omega
  | succ n ih =>
    obtain ⟨input, hstep⟩ := advanced (show n < run.length by omega)
    obtain ⟨hpeak, hbound⟩ := ih (by omega)
    rw [hstep.equityPeak]
    constructor
    · rcases max_choice (run.state n).equityPeak (run.observation n).equity with hmax | hmax
      · rw [hmax]
        exact hpeak.imp id fun ⟨i, hi, heq⟩ => ⟨i, by omega, heq⟩
      · exact .inr ⟨n, by omega, hmax⟩
    · rintro equity (rfl | ⟨i, hi, rfl⟩)
      · exact (hbound (.inl rfl)).trans (le_max_left _ _)
      · rcases Nat.lt_succ_iff_lt_or_eq.mp hi with hlt | rfl
        · exact (hbound (.inr ⟨i, hlt, rfl⟩)).trans (le_max_left _ _)
        · exact le_max_right _ _

/-- The last equity before a day, or the initial one when the run starts on that day. -/
theorem equityBefore_cases (hn : n < run.length) :
    (∀ m ≤ n, utcDate (run.bar m) = utcDate (run.bar n)) ∧
        run.equityBefore (utcDate (run.bar n)) n = run.equity ∨
      ∃ m < n, utcDate (run.bar m) < utcDate (run.bar n) ∧
        utcDate (run.bar (m + 1)) = utcDate (run.bar n) ∧
        run.equityBefore (utcDate (run.bar n)) n = (run.observation m).equity := by
  have hdays {i j : ℕ} (hij : i ≤ j) (hj : j < run.length) :
      utcDate (run.bar i) ≤ utcDate (run.bar j) :=
    Int.ediv_le_ediv (by decide) (bar_mono hij hj)
  generalize hday : utcDate (run.bar n) = day
  -- the walk back from `k` is over days that are not earlier
  have hwalk (k : ℕ) (hk : k ≤ n) (hafter : ∀ m, k ≤ m → m ≤ n → utcDate (run.bar m) = day) :
      (∀ m ≤ n, utcDate (run.bar m) = day) ∧ run.equityBefore day k = run.equity ∨
        ∃ m < n, utcDate (run.bar m) < day ∧ utcDate (run.bar (m + 1)) = day ∧
          run.equityBefore day k = (run.observation m).equity := by
    induction k with
    | zero => exact .inl ⟨fun m hm => hafter m (by omega) hm, rfl⟩
    | succ k ih =>
      rw [equityBefore]
      split
      · rename_i hearlier
        exact .inr ⟨k, by omega, hearlier, hafter (k + 1) le_rfl hk, rfl⟩
      · rename_i hlater
        have hsame : utcDate (run.bar k) = day := by
          have hle := hdays (show k ≤ n by omega) hn
          omega
        apply ih (by omega)
        intro m hkm hm
        rcases Nat.eq_or_lt_of_le hkm with rfl | hlt
        · exact hsame
        · exact hafter m hlt hm
  apply hwalk n le_rfl
  intro m hnm hm
  rw [Nat.le_antisymm hm hnm, hday]

/-- The history of one more bar ends with its equity. -/
theorem fullHistory_succ (n : ℕ) :
    run.fullHistory (n + 1) = run.fullHistory n ++ [(run.bar n, (run.observation n).equity)] := by
  rw [fullHistory, List.range_succ, List.map_append]
  rfl

/-- A step keeps what its history has of the last seven days. -/
theorem equityHistory_succ (hn : n < run.length) :
    (run.state (n + 1)).equityHistory = recentHistory (run.state n) (run.observation n) := by
  obtain ⟨weekly, -, hnext, -⟩ := exists_weekly hn
  rw [hnext]
  rfl

/-- The kept history is what the full history has of the last seven days. -/
theorem equityHistory_eq (hincreasing : ∀ i, i + 1 < run.length → run.bar i < run.bar (i + 1))
    (hn : n < run.length) : (run.state (n + 1)).equityHistory =
      (run.fullHistory (n + 1)).filter fun item => run.bar n - hours 168 ≤ item.1 := by
  induction n with
  | zero =>
    rw [equityHistory_succ hn, run.fresh]
    rfl
  | succ n ih =>
    have hbefore := hincreasing n hn
    have hnew : (run.state (n + 1)).lastRiskAt ≠ some (run.observation (n + 1)).now := by
      rw [lastRiskAt_succ (by omega)]
      exact fun hsame => hbefore.ne (Option.some.inj hsame)
    have hrecent : recentHistory (run.state (n + 1)) (run.observation (n + 1)) =
        ((run.state (n + 1)).equityHistory ++
          [(run.bar (n + 1), (run.observation (n + 1)).equity)]).filter
            fun item => run.bar (n + 1) - hours 168 ≤ item.1 := by
      rw [recentHistory, if_pos (decide_eq_true hnew)]
      rfl
    rw [equityHistory_succ hn, hrecent, ih (by omega), fullHistory_succ (n + 1), List.filter_append,
      List.filter_append, List.filter_filter]
    congr 1
    apply List.filter_congr
    intro item _
    -- what is recent now was recent one bar ago
    have himp : run.bar (n + 1) - hours 168 ≤ item.1 → run.bar n - hours 168 ≤ item.1 := by omega
    by_cases hrecent : run.bar (n + 1) - hours 168 ≤ item.1 <;> simp [hrecent, himp]

/-- The weekly baseline of a step is the one of the full history. -/
theorem weeklyBaseline_isWeeklyReference
    (hincreasing : ∀ i, i + 1 < run.length → run.bar i < run.bar (i + 1)) (hn : n < run.length)
    {weekly : ℚ} (hweekly : weeklyBaseline (run.state n) (run.observation n) = .ok weekly) :
    run.IsWeeklyReference n weekly := by
  have hstart : (run.state n).riskStartedAt.getD (run.bar n) = run.bar 0 := by
    cases n with
    | zero => rw [run.fresh]; rfl
    | succ n => rw [riskStartedAt_eq (by omega), Option.getD_some]
  have hinitial : (run.state n).initialEquity = run.equity :=
    initialEquity_eq (show n ≤ run.length by omega)
  have hbar : (run.observation n).now = run.bar n := rfl
  rw [weeklyBaseline, hbar, hstart] at hweekly
  split at hweekly
  · rename_i hfirst
    obtain rfl := Except.ok.inj hweekly
    exact .inl ⟨hfirst, hinitial⟩
  · rename_i hlater
    right
    refine ⟨by omega, ?_⟩
    rw [← equityHistory_succ hn, equityHistory_eq hincreasing hn] at hweekly
    split at hweekly
    · rename_i item hitem
      obtain rfl := Except.ok.inj hweekly
      rw [List.head?_filter, fullHistory, List.find?_map, Option.map_eq_some_iff] at hitem
      obtain ⟨j, hfind, rfl⟩ := hitem
      obtain ⟨hrecent, hj, hearlier⟩ := List.find?_range_eq_some.mp hfind
      refine ⟨j, Nat.lt_succ_iff.mp (List.mem_range.mp hj), of_decide_eq_true hrecent, ?_, rfl⟩
      intro m hm
      exact not_le.mp (of_decide_eq_false (Bool.not_eq_true' _ ▸ hearlier m hm))
    · cases hweekly

/-- What the state after an observation says about all observations up to it. -/
structure Accumulates (run : RiskRun config) (n : ℕ) : Prop where
  equityPeak : IsGreatest
    {equity | equity = run.equity ∨ ∃ i < n + 1, equity = (run.observation i).equity}
    (run.state (n + 1)).equityPeak
  dailyBaseline :
    (∀ m ≤ n, utcDate (run.bar m) = utcDate (run.bar n)) ∧
        (run.state (n + 1)).dailyBaselineEquity = run.equity ∨
      ∃ m < n, utcDate (run.bar m) < utcDate (run.bar n) ∧
        utcDate (run.bar (m + 1)) = utcDate (run.bar n) ∧
        (run.state (n + 1)).dailyBaselineEquity = (run.observation m).equity
  weeklyLoss : ∃ reference, run.IsWeeklyReference n reference ∧
    (riskInput (run.state n) (run.observation n) config reference).weeklyLoss =
      lossFromBaseline (run.observation n).equity reference ∧
    (run.state (n + 1)).decision =
      evaluateRisk (riskInput (run.state n) (run.observation n) config reference) ∧
    run.state (n + 1) = nextState (run.state n) (run.observation n) config
      (riskInput (run.state n) (run.observation n) config reference)
  consecutiveLosses : (run.state (n + 1)).consecutiveLosses =
    losingSuffix (run.observedTrades (n + 1))
  processedTradeCount : (run.state (n + 1)).processedTradeCount =
    (run.observedTrades (n + 1)).length
  observedTrades :
    (∀ i < n, (run.observation i).closedTrades <+: (run.observation (i + 1)).closedTrades) →
      run.observedTrades (n + 1) = (run.observation n).closedTrades

end RiskRun

/-- Over observations at increasing times the state is the summary of the whole history
that its names promise. -/
theorem accumulates_history {config : RiskConfig} (run : RiskRun config)
    (hincreasing : ∀ i, i + 1 < run.length → run.bar i < run.bar (i + 1)) {n : ℕ}
    (hn : n < run.length) : run.Accumulates n where
  equityPeak := RiskRun.equityPeak_isGreatest hn
  dailyBaseline := by
    obtain ⟨input, hstep⟩ := RiskRun.advanced hn
    have hbaseline : (run.state (n + 1)).dailyBaselineEquity =
        run.equityBefore (utcDate (run.bar n)) n := by
      rw [hstep.dailyBaselineEquity]
      exact RiskRun.dailyBaseline_eq hn
    rw [hbaseline]
    exact RiskRun.equityBefore_cases hn
  weeklyLoss := by
    obtain ⟨weekly, hweekly, hnext, -⟩ := RiskRun.exists_weekly hn
    have hreference := RiskRun.weeklyBaseline_isWeeklyReference hincreasing hn hweekly
    exact ⟨weekly, hreference, rfl, by rw [hnext]; rfl, hnext⟩
  consecutiveLosses := RiskRun.consecutiveLosses_eq hn
  processedTradeCount := RiskRun.processedTradeCount_eq hn
  observedTrades := RiskRun.observedTrades_eq hn

/-- Two days apart with a losing trade on the second: the baseline of the second day is the
equity of the first. -/
def pausedObservation : ℕ → RiskObservation
  | 0 => ⟨0, 90, [], .number 1, true, true⟩
  | _ => ⟨hours 48, 95, [⟨-1, hours 40⟩], .number 1, true, true⟩

/-- The run over the two bars with a missing day between them. -/
def pausedRun : RiskRun approvedConfig :=
  RiskRun.ofObservations approvedConfig 100 pausedObservation 2 (by decide +kernel)

/-- The state after the missing day has one loss in a row and one processed trade. -/
theorem accumulates_history_paused : pausedRun.Accumulates 1 ∧
    losingSuffix (pausedRun.observedTrades 2) = 1 := by
  have hincreasing : ∀ i, i + 1 < pausedRun.length → pausedRun.bar i < pausedRun.bar (i + 1) := by
    intro i hi
    obtain rfl : i = 0 := by
      have hlength : pausedRun.length = 2 := rfl
      omega
    decide
  exact ⟨accumulates_history pausedRun hincreasing (by decide), by decide +kernel⟩

end AutoBit.Risk
