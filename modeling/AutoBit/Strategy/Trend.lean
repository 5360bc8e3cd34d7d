import AutoBit.Data.Causality
import AutoBit.Strategy.Engine

/-!
# Trend indicators

Each segment of a canonical frame gets its moving average, its true range, its channel and
the count of normal bars before each bar. The moving average and the true range are computed
by an external library, which is a parameter; everything built on them looks back only.
-/

namespace AutoBit.Strategy

open Library Risk Data

/-- `StrategyConfig` with the periods of the indicators. -/
structure IndicatorConfig extends StrategyConfig where
  emaPeriod : ℕ := 200
  entryPeriod : ℕ := 50
  exitPeriod : ℕ := 20
  atrPeriod : ℕ := 14
  deriving DecidableEq, Repr

/-- `segment.ta.ema` and `segment.ta.atr` for a length, which return nothing for a segment that
is too short. -/
structure TrendKernels where
  ema : ℕ → List (Ohlcv Reading) → Option (List Reading)
  atr : ℕ → List (Ohlcv Reading) → Option (List Reading)

/-- The columns that the indicators add to a row. -/
structure Indicators where
  ema : Reading
  atr : Reading
  baselineAtrPct : Reading
  entryHigh : Reading
  exitLow : Reading
  previousClose : Reading
  previousEntryHigh : Reading
  warmupComplete : Bool
  deriving DecidableEq, Repr

/-- A row of the enriched frame. -/
structure TrendRow extends QualityRow, Indicators
  deriving DecidableEq, Repr

/-- `_indicator_series`: nothing stands for a series without values. -/
def indicatorSeries (kernel : List (Ohlcv Reading) → Option (List Reading))
    (bars : List (Ohlcv Reading)) : List Reading :=
  (kernel bars).getD (List.replicate bars.length .nan)

/-- A rolling window takes an infinite value for a missing one. -/
def finiteOrNan (value : Reading) : Reading := if value.isFinite then value else .nan

/-- `rolling(window).max()` and `rolling(window).min()`: every value of a full window must be
there. -/
def rollingExtreme (extreme : List Reading → Reading) (window : ℕ) (values : List Reading) :
    List Reading :=
  rolling window (fun past =>
    if past.length < window ∨ past.any (·.isNan) then .nan else extreme past)
    (values.map finiteOrNan)

/-- `rolling(window, min_periods=1).median()`. -/
def rollingMedian (window : ℕ) (values : List Reading) : List Reading :=
  rolling window Reading.median (values.map finiteOrNan)

/-- `_normal_completed` for a row. -/
def normalCompleted (row : QualityRow) : Bool :=
  row.values.toList.all (·.isFinite) && !row.isFilled && !row.isQuarantined &&
    !row.anomalySpike && !row.anomalyFlat

section Segment

variable (kernels : TrendKernels) (config : IndicatorConfig)

/-- The moving average of a segment. -/
def emaSeries (segment : List QualityRow) : List Reading :=
  indicatorSeries (kernels.ema config.emaPeriod) (segment.map fun row => row.values)

/-- The true range of a segment. -/
def atrSeries (segment : List QualityRow) : List Reading :=
  indicatorSeries (kernels.atr config.atrPeriod) (segment.map fun row => row.values)

/-- `entry_high` of a segment. -/
def entryHighSeries (segment : List QualityRow) : List Reading :=
  rollingExtreme Reading.maximum config.entryPeriod
    (shift .nan (segment.map fun row => row.values.high))

/-- `exit_low` of a segment. -/
def exitLowSeries (segment : List QualityRow) : List Reading :=
  rollingExtreme Reading.minimum config.exitPeriod
    (shift .nan (segment.map fun row => row.values.low))

/-- `baseline_atr_pct` of a segment. -/
def baselineSeries (segment : List QualityRow) : List Reading :=
  rollingMedian 252 (shift .nan
    (List.zipWith Reading.div (atrSeries kernels config segment)
      (segment.map fun row => row.values.close)))

/-- `warmup_complete` of a segment. -/
def warmupSeries (segment : List QualityRow) : List Bool :=
  let normalBefore := shift 0 (cumulative (segment.map fun row => (normalCompleted row).toNat))
  normalBefore.map fun count => config.warmupBars ≤ count

/-- The indicators of one segment. -/
def segmentIndicators (segment : List QualityRow) : List Indicators :=
  let entryHigh := entryHighSeries config segment
  let previousClose := shift .nan (segment.map fun row => row.values.close)
  zipApply (zipApply (zipApply (zipApply (zipApply (zipApply (zipApply
    ((emaSeries kernels config segment).map Indicators.mk)
    (atrSeries kernels config segment))
    (baselineSeries kernels config segment))
    entryHigh)
    (exitLowSeries config segment))
    previousClose)
    (shift .nan entryHigh))
    (warmupSeries config segment)

/-- `compute_trend_indicators` on a canonical frame. -/
def computeTrendIndicators (frame : List QualityRow) : List TrendRow :=
  List.zipWith TrendRow.mk frame
    (transformGroups (fun row : QualityRow => row.segmentId) (segmentIndicators kernels config)
      frame)

/-- An enriched row is a row of the frame with its indicators. -/
theorem mem_of_trend {kernels : TrendKernels} {config : IndicatorConfig} {frame : List QualityRow}
    {row : TrendRow} (h : row ∈ computeTrendIndicators kernels config frame) :
    row.toQualityRow ∈ frame := by
  obtain ⟨i, hi, rfl⟩ := List.getElem_of_mem h
  simp only [computeTrendIndicators, List.getElem_zipWith]
  exact List.getElem_mem _

end Segment

/-- A rolling extreme does not look ahead. -/
theorem rollingExtreme_causal (extreme : List Reading → Reading) (window : ℕ) :
    Causal (rollingExtreme extreme window) :=
  (rolling_causal window _).comp (Causal.map finiteOrNan)

/-- A rolling median does not look ahead. -/
theorem rollingMedian_causal (window : ℕ) : Causal (rollingMedian window) :=
  (rolling_causal window _).comp (Causal.map finiteOrNan)

section Causality

variable {kernels : TrendKernels} {config : IndicatorConfig}

/-- The highs for entries do not look ahead. -/
theorem entryHighSeries_causal : Causal (entryHighSeries config) :=
  (rollingExtreme_causal _ _).comp ((shift_causal _).comp (Causal.map _))

/-- The lows for exits do not look ahead. -/
theorem exitLowSeries_causal : Causal (exitLowSeries config) :=
  (rollingExtreme_causal _ _).comp ((shift_causal _).comp (Causal.map _))

/-- The warm-up does not look ahead. -/
theorem warmupSeries_causal : Causal (warmupSeries config) :=
  (Causal.map _).comp ((shift_causal 0).comp (cumulative_causal.comp (Causal.map _)))

/-- The ATR does not look ahead when its kernel does not. -/
theorem atrSeries_causal (hatr : Causal (indicatorSeries (kernels.atr config.atrPeriod))) :
    Causal (atrSeries kernels config) :=
  hatr.comp (Causal.map _)

/-- The baseline of the ATR does not look ahead when its kernel does not. -/
theorem baselineSeries_causal (hatr : Causal (indicatorSeries (kernels.atr config.atrPeriod))) :
    Causal (baselineSeries kernels config) :=
  (rollingMedian_causal 252).comp
    ((shift_causal _).comp ((atrSeries_causal hatr).zipWith _ (Causal.map _)))

/-- The indicators of a segment look back only when the library's series do. -/
theorem segmentIndicators_causal
    (hema : Causal (indicatorSeries (kernels.ema config.emaPeriod)))
    (hatr : Causal (indicatorSeries (kernels.atr config.atrPeriod))) :
    Causal (segmentIndicators kernels config) := by
  have hclose : Causal fun segment : List QualityRow =>
      shift Reading.nan (segment.map fun row => row.values.close) :=
    (shift_causal _).comp (Causal.map _)
  have hema' : Causal fun segment => (emaSeries kernels config segment).map Indicators.mk :=
    (Causal.map _).comp (hema.comp (Causal.map _))
  exact (((((((hema'.zipApply (atrSeries_causal hatr)).zipApply
    (baselineSeries_causal hatr)).zipApply entryHighSeries_causal).zipApply
    exitLowSeries_causal).zipApply hclose).zipApply
    ((shift_causal _).comp entryHighSeries_causal)).zipApply warmupSeries_causal)

/-- The indicators do not look ahead when their kernels do not. -/
theorem computeTrendIndicators_causal
    (hema : Causal (indicatorSeries (kernels.ema config.emaPeriod)))
    (hatr : Causal (indicatorSeries (kernels.atr config.atrPeriod))) :
    Causal (computeTrendIndicators kernels config) :=
  Causal.id.zipWith _ (transformGroups_causal (segmentIndicators_causal hema hatr))

/-- The rows of the enriched frame are those of the frame. -/
theorem trend_rows (hema : Causal (indicatorSeries (kernels.ema config.emaPeriod)))
    (hatr : Causal (indicatorSeries (kernels.atr config.atrPeriod))) (frame : List QualityRow) :
    (computeTrendIndicators kernels config frame).map (fun row => row.toQualityRow) = frame := by
  have hlength : (transformGroups (fun row : QualityRow => row.segmentId)
      (segmentIndicators kernels config) frame).length = frame.length :=
    (transformGroups_causal (segmentIndicators_causal hema hatr)).length frame
  have hfirst := List.map_fst_zip hlength.ge
  rw [List.zip, List.map_zipWith] at hfirst
  rw [computeTrendIndicators, List.map_zipWith]
  exact hfirst

end Causality

/-- Nothing looks ahead: up to a bar that was observed, canonicalization and the indicators give
the same rows whether or not the later bars are known. -/
theorem no_look_ahead {Cell : Type} [DecidableEq Cell] (pd : Pandas Cell)
    (kernels : TrendKernels) (config : IndicatorConfig) (raw : RawFrame Cell) (ratio : Reading)
    (t now now' : ℤ) (whole start : QualityResult)
    (hema : Causal (indicatorSeries (kernels.ema config.emaPeriod)))
    (hatr : Causal (indicatorSeries (kernels.atr config.atrPeriod)))
    (hobserved : ∃ row ∈ raw.rows, row.1 = .time t)
    (hnow : t + frequency ≤ now) (hnow' : t + frequency ≤ now')
    (hwhole : canonicalizeOhlcv pd raw (some now) ratio = .ok whole)
    (hstart : canonicalizeOhlcv pd (raw.upTo t) (some now') ratio = .ok start) :
    whole.frame.filter (fun row => row.time ≤ t) = start.frame ∧
      (computeTrendIndicators kernels config whole.frame).filter (fun row => row.time ≤ t) =
        computeTrendIndicators kernels config start.frame := by
  obtain ⟨hbeginning, hincreasing, hle, hlast⟩ :=
    canonical_beginning hobserved hnow hnow' hwhole hstart
  have hrows := trend_rows hema hatr
  refine ⟨filter_of_beginning hbeginning hincreasing hle hlast, ?_⟩
  refine filter_of_beginning ((computeTrendIndicators_causal hema hatr).beginning hbeginning)
    ?_ ?_ ?_
  · rw [← hrows whole.frame, List.map_map] at hincreasing
    exact hincreasing
  · intro row hrow
    have hmem := List.mem_map_of_mem (f := fun row : TrendRow => row.toQualityRow) hrow
    rw [hrows] at hmem
    exact hle _ hmem
  · obtain ⟨row, hrow, htime⟩ := hlast
    rw [← hrows start.frame] at hrow
    obtain ⟨trend, htrend, rfl⟩ := List.mem_map.mp hrow
    exact ⟨trend, htrend, htime⟩

/-- A segment too short for any moving average. -/
def noKernels : TrendKernels := ⟨fun _ _ => none, fun _ _ => none⟩

/-- `ema` of length three, which starts with a mean and then halves the distance to the close,
and `atr` of length one, the true range that the first bar has not. -/
def shortKernels : TrendKernels where
  ema := fun _ bars =>
    match bars.map fun bar => bar.close with
    | first :: second :: third :: rest => some (.nan :: .nan :: rest.scanl
        (fun mean close => (mean.add close).div (.number 2))
        (((first.add second).add third).div (.number 3)))
    | _ => none
  atr := fun _ bars => some ((bars.take 1).map (fun _ => .nan) ++
    List.zipWith (fun bar before =>
      (bar.high.larger before.close).sub (bar.low.smaller before.close)) bars.tail bars)

/-- Kernels that compute nothing do not look ahead. -/
theorem noKernels_causal : Causal (indicatorSeries fun _ => none) := by
  refine ⟨by simp [indicatorSeries], ?_⟩
  intro xs ys
  rw [indicatorSeries, indicatorSeries, List.length_append, Option.getD_none, Option.getD_none,
    List.replicate_add]
  exact List.prefix_append _ _

/-- Three bars, of which the one after the second is missing. -/
def threeBars : RawFrame ℤ where
  columns := ["open", "high", "low", "close", "volume"]
  rows := [(.time 0, [30, 40, 20, 30, 1]), (.time frequency, [30, 31, 30, 30, 1]),
    (.time (3 * frequency), [30, 30, 30, 30, 0])]
  aligned := by decide

/-- Three bars, the second of which is missing, and the first of them. -/
theorem no_look_ahead_three_bars :
    ∃ whole start : QualityResult, whole.frame.length = 4 ∧ start.frame.length = 2 ∧
      whole.frame.filter (fun row => row.time ≤ frequency) = start.frame ∧
      (computeTrendIndicators noKernels {} whole.frame).filter (fun row => row.time ≤ frequency) =
        computeTrendIndicators noKernels {} start.frame := by
  have hwhole : (canonicalizeOhlcv wholeNumbers threeBars (some (5 * frequency))
      defaultSpikeRangeRatio).toOption.any (fun result => result.frame.length = 4) = true := by
    decide +kernel
  have hstart : (canonicalizeOhlcv wholeNumbers (threeBars.upTo frequency) (some (2 * frequency))
      defaultSpikeRangeRatio).toOption.any (fun result => result.frame.length = 2) = true := by
    decide +kernel
  obtain ⟨whole, hwhole, hfour⟩ := (Option.any_eq_true _ _).mp hwhole
  obtain ⟨start, hstart, htwo⟩ := (Option.any_eq_true _ _).mp hstart
  exact ⟨whole, start, of_decide_eq_true hfour, of_decide_eq_true htwo,
    no_look_ahead wholeNumbers noKernels {} threeBars defaultSpikeRangeRatio frequency
      (5 * frequency) (2 * frequency) whole start noKernels_causal noKernels_causal
      ⟨_, List.mem_cons_of_mem _ List.mem_cons_self, rfl⟩ (by decide) (by decide)
      (Except.toOption_eq_some.mp hwhole) (Except.toOption_eq_some.mp hstart)⟩

end AutoBit.Strategy
