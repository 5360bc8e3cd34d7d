import AutoBit.Risk.Cooldown
import AutoBit.Risk.Delay
import Mathlib.Tactic.Ring

/-!
# One policy in three environments

Paper and backtest label a bar by its start, live by its end, in its own currency. Both
drive the reducer over the same completed bars. Seven-day cutoffs, halts and streaks are
relative to the label, so they agree; the UTC day of a label is not, and a bar that ends at
midnight belongs to different days.
-/

namespace AutoBit.Risk

open Library

/-- A trade in the bar that first reports it: its result, and how long after the start of the
bar it closed. -/
structure ReportedTrade where
  netPnl : ℚ
  closedAfter : ℤ
  deriving DecidableEq, Repr

/-- The facts of one completed bar. -/
structure BarFacts where
  equity : ℚ
  trades : List ReportedTrade
  volatilityRatio : Reading
  volatilityBarValid : Bool
  systemHealthy : Bool
  deriving DecidableEq, Repr

/-- A contiguous history of completed four-hour bars, each with the trades that close after
its start and not after its end. -/
structure History where
  start : ℤ
  equity : ℚ
  bar : ℕ → BarFacts
  boundary : IsBoundary start
  inBar : ∀ i, ∀ trade ∈ (bar i).trades, 0 < trade.closedAfter ∧ trade.closedAfter ≤ fourHours
  inOrder : ∀ i, (bar i).trades.Pairwise fun first next => first.closedAfter ≤ next.closedAfter

/-- The states of the reducer over some observations, from a fresh account. -/
def reduce (equity : ℚ) (observation : ℕ → RiskObservation) : ℕ → Except Failure RiskState
  | 0 => .ok (RiskState.fresh equity)
  | i + 1 => do
    let state ← reduce equity observation i
    advanceRiskState state (observation i) approvedConfig

namespace History

variable (h : History)

/-- The start of a bar. -/
def label (i : ℕ) : ℤ := h.start + i * fourHours

/-- The trades of the first bars, in the words of one environment. -/
def reported (closed : ℤ → ReportedTrade → ClosedTrade) : ℕ → List ClosedTrade
  | 0 => []
  | i + 1 => reported closed i ++ (h.bar i).trades.map (closed (h.label i))

/-- A trade as paper and backtest see it: closed at the start of the bar that reports it. -/
def paperTrade (label : ℤ) (trade : ReportedTrade) : ClosedTrade := ⟨trade.netPnl, label⟩

/-- A trade as live sees it: closed when it did, in the currency of the account. -/
def liveTrade (scale : ℚ) (label : ℤ) (trade : ReportedTrade) : ClosedTrade :=
  ⟨scale * trade.netPnl, label + trade.closedAfter⟩

/-- What paper and backtest observe of a bar. -/
def paper (i : ℕ) : RiskObservation where
  now := h.label i
  equity := (h.bar i).equity
  closedTrades := h.reported paperTrade (i + 1)
  volatilityRatio := (h.bar i).volatilityRatio
  volatilityBarValid := (h.bar i).volatilityBarValid
  systemHealthy := (h.bar i).systemHealthy

/-- What live observes of a bar. -/
def live (scale : ℚ) (i : ℕ) : RiskObservation where
  now := h.label i + fourHours
  equity := scale * (h.bar i).equity
  closedTrades := h.reported (liveTrade scale) (i + 1)
  volatilityRatio := (h.bar i).volatilityRatio
  volatilityBarValid := (h.bar i).volatilityBarValid
  systemHealthy := (h.bar i).systemHealthy

/-- The state of paper and backtest after some bars. -/
def paperRun (n : ℕ) : Except Failure RiskState := reduce h.equity h.paper n

/-- The state of live after some bars. -/
def liveRun (scale : ℚ) (n : ℕ) : Except Failure RiskState :=
  reduce (scale * h.equity) (h.live scale) n

/-- The last equity before a UTC day among the first bars, when bars are labelled with a
delay. -/
def equityBefore (delay day : ℤ) : ℕ → ℚ
  | 0 => h.equity
  | i + 1 => if utcDate (h.label i + delay) < day then (h.bar i).equity else equityBefore delay day i

/-- The loss of the UTC day of a bar, when bars are labelled with a delay. -/
def dayLoss (delay : ℤ) (i : ℕ) : ℚ :=
  lossFromBaseline (h.bar i).equity (h.equityBefore delay (utcDate (h.label i + delay)) i)

/-- A bar loses the daily limit under both labels or under none. -/
def DailyAgree (i : ℕ) : Prop :=
  approvedConfig.dailyLossLimit ≤ h.dayLoss fourHours i ↔
    approvedConfig.dailyLossLimit ≤ h.dayLoss 0 i

instance (i : ℕ) : Decidable (h.DailyAgree i) := inferInstanceAs (Decidable (_ ↔ _))

end History

/-- One decision in two environments: the same limits and reasons, halted four hours
longer. -/
structure SameDecision (paper live : RiskDecision) : Prop where
  riskRate : live.riskRate = paper.riskRate
  exposureCap : live.exposureCap = paper.exposureCap
  reasons : live.reasons = paper.reasons
  haltedUntil : live.haltedUntil = paper.haltedUntil.map (· + fourHours)

/-- Both environments decide alike, or both raise the same error. -/
def SameOutcome : Except Failure RiskState → Except Failure RiskState → Prop
  | .ok paper, .ok live => SameDecision paper.decision live.decision
  | .error paper, .error live => live = paper
  | _, _ => False

/-! ## Trades -/

/-- Trades that close one after the other, not after the bar, and the new ones not before the
last bar, are in order. -/
theorem tradesInOrder_of_sorted {prior : RiskState} {now : ℤ} {trades : List ClosedTrade}
    {index : ℕ} {previous : Option ℤ}
    (hsorted : trades.Pairwise fun first next => first.exitTime ≤ next.exitTime)
    (hprevious : ∀ before ∈ previous, ∀ trade ∈ trades, before ≤ trade.exitTime)
    (hnow : ∀ trade ∈ trades, trade.exitTime ≤ now)
    (hnew : ∀ last ∈ prior.lastRiskAt, ∀ trade ∈ trades.drop (prior.processedTradeCount - index),
      last ≤ trade.exitTime) :
    tradesInOrder prior now index previous trades = .ok () := by
  induction trades generalizing index previous with
  | nil => rfl
  | cons trade trades ih =>
    obtain ⟨hfirst, hrest⟩ := List.pairwise_cons.mp hsorted
    have htail : tradesInOrder prior now (index + 1) (some trade.exitTime) trades = .ok () := by
      refine ih hrest ?_ (fun next hnext => hnow next (by simp [hnext])) ?_
      · intro before hbefore next hnext
        rw [Option.mem_some_iff] at hbefore
        rw [← hbefore]
        exact hfirst next hnext
      · intro last hlast next hnext
        refine hnew last hlast next ?_
        by_cases hprocessed : prior.processedTradeCount ≤ index
        · rw [Nat.sub_eq_zero_of_le (by omega), List.drop_zero] at hnext
          rw [Nat.sub_eq_zero_of_le hprocessed, List.drop_zero]
          simp [hnext]
        · rw [show prior.processedTradeCount - index =
            (prior.processedTradeCount - (index + 1)) + 1 by omega, List.drop_succ_cons]
          exact hnext
    have hnotBefore : ¬(now < trade.exitTime ∨ ∃ before ∈ previous, trade.exitTime < before) := by
      rintro (hafter | ⟨before, hbefore, hearlier⟩)
      · exact absurd (hnow trade (by simp)) (not_le.mpr hafter)
      · exact absurd (hprevious before hbefore trade (by simp)) (not_le.mpr hearlier)
    have hnotOld : ¬(prior.processedTradeCount ≤ index ∧
        ∃ last ∈ prior.lastRiskAt, trade.exitTime < last) := by
      rintro ⟨hprocessed, last, hlast, hearlier⟩
      refine absurd (hnew last hlast trade ?_) (not_le.mpr hearlier)
      rw [Nat.sub_eq_zero_of_le hprocessed, List.drop_zero]
      simp
    simp only [tradesInOrder, reject, if_neg hnotBefore, if_neg hnotOld]
    exact htail

namespace History

variable {h : History} {closed : ℤ → ReportedTrade → ClosedTrade}

/-- The next bar is labelled four hours later. -/
theorem label_succ (h : History) (i : ℕ) : h.label (i + 1) = h.label i + fourHours := by
  simp only [label]
  push_cast
  ring

/-- An environment that labels bars with a delay closes the trades of a bar in order, between
the start and the label of the bar. -/
structure Timely (h : History) (delay : ℤ) (closed : ℤ → ReportedTrade → ClosedTrade) : Prop where
  span : 0 ≤ delay ∧ delay ≤ fourHours
  inBar : ∀ i, ∀ trade ∈ (h.bar i).trades, h.label i ≤ (closed (h.label i) trade).exitTime ∧
    (closed (h.label i) trade).exitTime ≤ h.label i + delay
  inOrder : ∀ i, ((h.bar i).trades.map (closed (h.label i))).Pairwise fun first next =>
    first.exitTime ≤ next.exitTime

/-- The trades of paper trading are reported in time. -/
theorem paper_timely (h : History) : h.Timely 0 paperTrade := by
  refine ⟨by decide, ?_, ?_⟩
  · intro i trade _
    exact ⟨le_rfl, (add_zero _).ge⟩
  · intro i
    rw [List.pairwise_map]
    exact (h.inOrder i).imp fun _ => le_rfl

/-- The trades of live trading are reported in time. -/
theorem live_timely (h : History) (scale : ℚ) : h.Timely fourHours (liveTrade scale) := by
  refine ⟨by decide, ?_, ?_⟩
  · intro i trade htrade
    obtain ⟨hafter, hbefore⟩ := h.inBar i trade htrade
    exact ⟨le_add_of_nonneg_right hafter.le, (add_le_add_iff_left _).mpr hbefore⟩
  · intro i
    rw [List.pairwise_map]
    exact (h.inOrder i).imp fun hle => (add_le_add_iff_left _).mpr hle

/-- Every environment reports as many trades. -/
theorem reported_length (h : History) (closed closed' : ℤ → ReportedTrade → ClosedTrade) (i : ℕ) :
    (h.reported closed i).length = (h.reported closed' i).length := by
  induction i with
  | zero => rfl
  | succ i ih => simp only [reported, List.length_append, List.length_map, ih]

variable {delay : ℤ}

/-- The trades so far have closed by the start of the next bar. -/
theorem Timely.le_label (ht : h.Timely delay closed) {i : ℕ} :
    ∀ trade ∈ h.reported closed i, trade.exitTime ≤ h.label i := by
  induction i with
  | zero => simp [reported]
  | succ i ih =>
    intro trade htrade
    rw [label_succ]
    rcases List.mem_append.mp htrade with hold | hnew
    · exact (ih trade hold).trans (le_add_of_nonneg_right (by decide))
    · obtain ⟨fact, hfact, rfl⟩ := List.mem_map.mp hnew
      exact (ht.inBar i fact hfact).2.trans ((add_le_add_iff_left _).mpr ht.span.2)

/-- Trades that are reported in time are reported in order. -/
theorem Timely.sorted (ht : h.Timely delay closed) (i : ℕ) :
    (h.reported closed i).Pairwise fun first next => first.exitTime ≤ next.exitTime := by
  induction i with
  | zero => exact List.Pairwise.nil
  | succ i ih =>
    refine List.pairwise_append.mpr ⟨ih, ht.inOrder i, ?_⟩
    intro trade hold next hnew
    obtain ⟨fact, hfact, rfl⟩ := List.mem_map.mp hnew
    exact (ht.le_label trade hold).trans (ht.inBar i fact hfact).1

/-- The trades of an environment are in order for a state that has consumed all but those of
the last bar. -/
theorem Timely.tradesInOrder (ht : h.Timely delay closed) {i : ℕ} {prior : RiskState}
    (hprocessed : prior.processedTradeCount = (h.reported closed i).length)
    (hlast : ∀ last ∈ prior.lastRiskAt, last ≤ h.label i) :
    tradesInOrder prior (h.label i + delay) 0 none (h.reported closed (i + 1)) = .ok () := by
  refine tradesInOrder_of_sorted (ht.sorted (i + 1)) (by simp) ?_ ?_
  · intro trade htrade
    rcases List.mem_append.mp htrade with hold | hnew
    · exact (ht.le_label trade hold).trans (le_add_of_nonneg_right ht.span.1)
    · obtain ⟨fact, hfact, rfl⟩ := List.mem_map.mp hnew
      exact (ht.inBar i fact hfact).2
  · intro last hmem trade htrade
    rw [Nat.sub_zero, hprocessed, reported, List.drop_left] at htrade
    obtain ⟨fact, hfact, rfl⟩ := List.mem_map.mp htrade
    exact (hlast last hmem).trans (ht.inBar i fact hfact).1

/-! ## Runs -/

/-- The baseline of the day is the last equity before it, in the money of an environment that
labels bars with a delay. -/
def DayKept (h : History) (delay : ℤ) (scale : ℚ) (state : RiskState) (i : ℕ) : Prop :=
  ∀ t, h.label i ≤ t → dailyBaseline state (t + delay) =
    scale * h.equityBefore delay (utcDate (t + delay)) i

/-- A fresh state has no day to keep. -/
theorem dayKept_fresh (h : History) (delay : ℤ) (scale : ℚ) :
    h.DayKept delay scale (RiskState.fresh (scale * h.equity)) 0 := by
  intro t _
  simp [dailyBaseline, RiskState.fresh, equityBefore]

/-- A bar keeps the day of the state. -/
theorem DayKept.step {scale : ℚ} {prior next : RiskState} {observation : RiskObservation} {i : ℕ}
    (hday : h.DayKept delay scale prior i) (hnow : observation.now = h.label i + delay)
    (hequity : observation.equity = scale * (h.bar i).equity)
    (hstep : advanceRiskState prior observation approvedConfig = .ok next) :
    h.DayKept delay scale next (i + 1) := by
  obtain ⟨input, hadvanced⟩ := advanced_of_ok hstep
  intro t ht
  have hlabel : h.label i ≤ t := by
    rw [label_succ] at ht
    exact (le_add_of_nonneg_right (by decide)).trans ht
  have hle : utcDate (h.label i + delay) ≤ utcDate (t + delay) :=
    Int.ediv_le_ediv (by decide) ((add_le_add_iff_right _).mpr hlabel)
  rw [dailyBaseline, hadvanced.dailyDate, hadvanced.lastEquity, hadvanced.dailyBaselineEquity,
    Option.getD_some, hnow, hequity, hday (h.label i) le_rfl, equityBefore]
  by_cases hsame : utcDate (t + delay) = utcDate (h.label i + delay)
  · rw [if_neg (by simp [hsame]), if_neg (by omega), hsame]
  · rw [if_pos hsame, if_pos (by omega)]

/-- The states of both environments before a bar: the same but for the delay, the scale and
the UTC day. -/
structure InStep (h : History) (scale : ℚ) (i : ℕ) (paper live : RiskState) : Prop where
  moved : ∃ day baseline, live = paper.moved fourHours scale day baseline
  last : ∀ last ∈ paper.lastRiskAt, last + fourHours ≤ h.label i
  processed : paper.processedTradeCount = (h.reported paperTrade i).length
  streak : ∀ start ∈ paper.streakHaltStartedAt, start + fourHours ≤ h.label i
  paperDay : h.DayKept 0 1 paper i
  liveDay : h.DayKept fourHours scale live i

/-- Fresh states are in step. -/
theorem inStep_fresh (h : History) (scale : ℚ) :
    h.InStep scale 0 (RiskState.fresh h.equity) (RiskState.fresh (scale * h.equity)) := by
  refine ⟨⟨none, scale * h.equity, rfl⟩, by simp [RiskState.fresh], rfl, by simp [RiskState.fresh],
    ?_, dayKept_fresh h fourHours scale⟩
  have hday := dayKept_fresh h 0 1
  rwa [one_mul] at hday

/-- The new trades of a bar count alike: a trade that closes after a halt does so under both
labels. -/
theorem countTrade_alike {scale : ℚ} (hscale : 0 < scale) {label : ℤ} {streak : Option ℤ}
    (hstreak : ∀ start ∈ streak, start + fourHours ≤ label) {trade : ReportedTrade}
    (hafter : 0 < trade.closedAfter) (counts : ℕ × ℕ) :
    countTrade (streak.map (· + fourHours)) counts (liveTrade scale label trade) =
      countTrade streak counts (paperTrade label trade) := by
  have hloss : scale * trade.netPnl < 0 ↔ trade.netPnl < 0 := by
    simpa using mul_lt_mul_iff_right₀ (b := trade.netPnl) (c := 0) hscale
  have hgain : 0 < scale * trade.netPnl ↔ 0 < trade.netPnl := mul_pos_iff_of_pos_left hscale
  have hlater : (∃ start ∈ streak.map (· + fourHours), start < label + trade.closedAfter) ↔
      ∃ start ∈ streak, start < label := by
    cases streak with
    | none => simp
    | some start =>
      have hbefore := hstreak start rfl
      have hspan : (0 : ℤ) < fourHours := by decide
      simp only [Option.map_some, Option.mem_some_iff, exists_eq_left']
      omega
  simp only [countTrade, liveTrade, paperTrade, hloss, hgain, hlater]
  rfl

/-- Both environments see the same bar. -/
theorem InStep.sameBar {scale : ℚ} (hscale : 0 < scale) {i : ℕ} {state : RiskState}
    {day : Option ℤ} {baseline : ℚ}
    (hin : h.InStep scale i state (state.moved fourHours scale day baseline))
    (hdaily : h.DailyAgree i) :
    SameBar fourHours scale state (state.moved fourHours scale day baseline) (h.paper i)
      (h.live scale i) := by
  refine {
    now := rfl
    equity := rfl
    volatilityRatio := rfl
    volatilityBarValid := rfl
    systemHealthy := rfl
    length := reported_length h _ _ (i + 1)
    inOrder := ?_
    inOrder' := ?_
    counts := ?_
    dailyLimit := ?_ }
  · have hspan : (0 : ℤ) ≤ fourHours := by decide
    have horder := (paper_timely h).tradesInOrder hin.processed
      fun last hlast => (le_add_of_nonneg_right hspan).trans (hin.last last hlast)
    rwa [add_zero] at horder
  · refine (live_timely h scale).tradesInOrder ?_ ?_
    · rw [reported_length h (liveTrade scale) paperTrade]
      exact hin.processed
    · intro last hlast
      obtain ⟨before, hbefore, rfl⟩ := Option.map_eq_some_iff.mp hlast
      exact hin.last before hbefore
  · have hpaper : (h.reported paperTrade (i + 1)).drop state.processedTradeCount =
        (h.bar i).trades.map (paperTrade (h.label i)) := by
      rw [hin.processed, reported, List.drop_left]
    have hlive : (h.reported (liveTrade scale) (i + 1)).drop state.processedTradeCount =
        (h.bar i).trades.map (liveTrade scale (h.label i)) := by
      rw [hin.processed, reported_length h paperTrade (liveTrade scale), reported, List.drop_left]
    simp only [tradeCounts, History.paper, History.live, RiskState.moved_processedTradeCount,
      RiskState.moved_streakHaltStartedAt, RiskState.moved_consecutiveLosses,
      RiskState.moved_profitableTradesSinceStreakHalt, hpaper, hlive, List.foldl_map]
    refine List.foldl_ext _ _ _ ?_
    intro counts trade htrade
    exact countTrade_alike hscale hin.streak (h.inBar i trade htrade).1 counts
  · have hpaper := hin.paperDay (h.label i) le_rfl
    have hlive := hin.liveDay (h.label i) le_rfl
    rw [add_zero, one_mul] at hpaper
    have hscaled : lossFromBaseline (h.live scale i).equity
        (scale * h.equityBefore fourHours (utcDate (h.label i + fourHours)) i) =
          h.dayLoss fourHours i := lossFromBaseline_scaled hscale _ _
    simp only [History.live, History.paper] at hscaled ⊢
    rw [hlive, hpaper, hscaled]
    have hagree := hdaily
    simp only [DailyAgree, dayLoss, add_zero] at hagree ⊢
    exact hagree

/-- A streak halt that a step leaves recorded started by the bar. -/
theorem streakStart_le {prior next : RiskState} {observation : RiskObservation} {bound : ℤ}
    (hstep : advanceRiskState prior observation approvedConfig = .ok next)
    (hprior : ∀ start ∈ prior.streakHaltStartedAt, start ≤ bound) (hnow : observation.now ≤ bound) :
    ∀ start ∈ next.streakHaltStartedAt, start ≤ bound := by
  obtain ⟨input, hadvanced⟩ := advanced_of_ok hstep
  intro start hstart
  have hkept : input.streakHaltStartedAt = some start := by
    rcases hadvanced.kept .streak with hsame | ⟨hnone, -⟩
    · exact hsame.symm.trans hstart
    · exact absurd (hnone.symm.trans hstart) (by simp)
  rcases hadvanced.opened .streak with hsame | ⟨-, hopened⟩
  · exact hprior start (hsame.symm.trans hkept)
  · obtain rfl := Option.some.inj (hkept.symm.trans hopened)
    exact hnow

/-- One bar in both environments: both raise the same error, or both decide alike and stay in
step. -/
theorem InStep.step {scale : ℚ} (hscale : 0 < scale) {i : ℕ} {paper live : RiskState}
    (hin : h.InStep scale i paper live) (hdaily : h.DailyAgree i) :
    (∃ e, advanceRiskState paper (h.paper i) approvedConfig = .error e ∧
      advanceRiskState live (h.live scale i) approvedConfig = .error e) ∨
    ∃ paper' live', advanceRiskState paper (h.paper i) approvedConfig = .ok paper' ∧
      advanceRiskState live (h.live scale i) approvedConfig = .ok live' ∧
      SameDecision paper'.decision live'.decision ∧ h.InStep scale (i + 1) paper' live' := by
  obtain ⟨day, baseline, rfl⟩ := hin.moved
  have hadvance := (hin.sameBar hscale hdaily).advance hscale
  cases hpaper : advanceRiskState paper (h.paper i) approvedConfig with
  | error e =>
    rw [hpaper] at hadvance
    exact Or.inl ⟨e, rfl, hadvance⟩
  | ok paper' =>
    rw [hpaper] at hadvance
    obtain ⟨input, hadvanced⟩ := advanced_of_ok hpaper
    refine Or.inr ⟨paper', _, rfl, hadvance, ⟨rfl, rfl, rfl, rfl⟩, ?_⟩
    refine ⟨⟨_, _, rfl⟩, ?_, ?_, ?_, ?_, ?_⟩
    · intro last hlast
      obtain rfl := Option.some.inj (hadvanced.lastRiskAt.symm.trans hlast)
      exact (label_succ h i).ge
    · rw [advanceRiskState_eq] at hpaper
      simp only [Except.bind_eq_ok, Except.pure_eq_ok] at hpaper
      obtain ⟨_, -, _, -, rfl⟩ := hpaper
      rfl
    · intro start hstart
      rw [label_succ, add_le_add_iff_right]
      refine streakStart_le hpaper ?_ le_rfl start hstart
      intro before hbefore
      exact (le_add_of_nonneg_right (by decide)).trans (hin.streak before hbefore)
    · exact hin.paperDay.step (add_zero _).symm (one_mul _).symm hpaper
    · exact hin.liveDay.step rfl rfl hadvance

/-- Both runs raise the same error, or are in step and have decided alike. -/
theorem runs_inStep (h : History) {scale : ℚ} (hscale : 0 < scale) (n : ℕ)
    (hdaily : ∀ i < n, h.DailyAgree i) :
    (∃ e, h.paperRun n = .error e ∧ h.liveRun scale n = .error e) ∨
    ∃ paper live, h.paperRun n = .ok paper ∧ h.liveRun scale n = .ok live ∧
      SameDecision paper.decision live.decision ∧ h.InStep scale n paper live := by
  induction n with
  | zero => exact Or.inr ⟨_, _, rfl, rfl, ⟨rfl, rfl, rfl, rfl⟩, inStep_fresh h scale⟩
  | succ n ih =>
    simp only [paperRun, liveRun, reduce] at ih ⊢
    rcases ih fun i hi => hdaily i (by omega) with ⟨e, hpaper, hlive⟩ |
      ⟨paper, live, hpaper, hlive, -, hin⟩
    · rw [hpaper, hlive]
      exact Or.inl ⟨e, rfl, rfl⟩
    · rw [hpaper, hlive]
      exact hin.step hscale (hdaily n (by omega))

end History

/-- Paper, backtest and live decide alike after every bar of a history whose bars each reach
the daily loss limit under both labels or under none. -/
theorem environments_agree (h : History) {scale : ℚ} (hscale : 0 < scale) (n : ℕ)
    (hdaily : ∀ i < n, h.DailyAgree i) : SameOutcome (h.paperRun n) (h.liveRun scale n) := by
  rcases h.runs_inStep hscale n hdaily with ⟨e, hpaper, hlive⟩ |
    ⟨paper, live, hpaper, hlive, hsame, -⟩
  · rw [hpaper, hlive]
    rfl
  · rw [hpaper, hlive]
    exact hsame

/-- A day of bars whose last two lose one part in forty each. -/
def midnightBar (i : ℕ) : BarFacts where
  equity := if i < 4 then 100 else if i = 4 then 975 / 10 else 95
  trades := if i = 4 then [⟨-5 / 2, hours 1⟩] else []
  volatilityRatio := .number 1
  volatilityBarValid := true
  systemHealthy := true

/-- The history of that day, from midnight on. -/
def midnightHistory : History where
  start := 0
  equity := 100
  bar := midnightBar
  boundary := by decide
  inBar i trade htrade := by
    simp only [midnightBar] at htrade
    split_ifs at htrade
    · rw [List.mem_singleton.mp htrade]
      decide
    · cases htrade
  inOrder i := by
    simp only [midnightBar]
    split_ifs <;> simp

/-- Before the bar that ends at midnight both environments decide alike. -/
theorem environments_agree_before_midnight :
    SameOutcome (midnightHistory.paperRun 5) (midnightHistory.liveRun 2 5) :=
  environments_agree midnightHistory (by decide) 5 (by decide +kernel)

/-- The bar that ends at midnight completes a daily loss of a twentieth for paper and starts
a new day for live. -/
theorem not_environments_agree : ¬∀ (h : History) (scale : ℚ), 0 < scale → ∀ n,
    SameOutcome (h.paperRun n) (h.liveRun scale n) := by
  intro hclaim
  have hrun : (midnightHistory.paperRun 6).toOption.any (fun paper =>
      (midnightHistory.liveRun 1 6).toOption.any fun live =>
        live.decision.riskRate ≠ paper.decision.riskRate) = true := by
    decide +kernel
  obtain ⟨paper, hpaper, hrest⟩ := (Option.any_eq_true _ _).mp hrun
  obtain ⟨live, hlive, hdiffers⟩ := (Option.any_eq_true _ _).mp hrest
  have hsame := hclaim midnightHistory 1 one_pos 6
  rw [Except.toOption_eq_some.mp hpaper, Except.toOption_eq_some.mp hlive] at hsame
  exact of_decide_eq_true hdiffers hsame.riskRate

end AutoBit.Risk
