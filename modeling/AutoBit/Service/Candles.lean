import AutoBit.Service.Chronology
import AutoBit.Service.RiskDecision
import AutoBit.Strategy.Trend

/-!
# The candles of a cycle

The service reads raw candles from a source, canonicalizes them and computes indicators.
Its own instants are microseconds and those of the frames are nanoseconds. A source may
record health events and alerts in the store while it loads.
-/

namespace AutoBit.Service

open Library Store Risk Data Strategy

/-- The nanoseconds of an instant in microseconds. -/
def nanoseconds (instant : ℤ) : ℤ := instant * 1000

/-- The microseconds of an instant in nanoseconds. -/
def microseconds (time : ℤ) : ℤ := time / 1000

/-- A float that is a finite number. -/
def finite : Reading → Option ℚ
  | .number value => some value
  | _ => none

/-- `_positive_finite`. -/
def positiveFinite (value : Reading) (label : String) : Except Failure ℚ := do
  let number ← require (finite value) (.value (label ++ " must be finite and non-negative"))
  reject (number < 0) (.value (label ++ " must be finite and non-negative"))
  reject (number ≤ 0) (.service (label ++ " must be positive"))
  return number

/-! ## Sources -/

/-- Whether an event is a health event or an alert, under an identity of its own. -/
def isOperational (eventId : EventId) : Payload → Bool
  | .healthState _ | .alertAttempt _ | .alertFailure .. =>
    !namesCycle eventId && !namesAttempt eventId
  | _ => false

/-- An event that a source appends to the store, with its time. -/
structure SourceEvent where
  eventId : EventId
  occurredAt : ℤ
  payload : Payload
  operational : isOperational eventId payload = true
  deriving DecidableEq

/-- What one load does: the events it records, and the frame it returns or the error it
raises. -/
structure Feed (Cell : Type) where
  recorded : List SourceEvent
  frame : Except Failure (RawFrame Cell)

/-- `CompletedCandleSource`, which may also have `load_position_candles`. -/
structure CandleSource (Cell : Type) where
  loadCompletedCandles : ℤ → Feed Cell
  loadPositionCandles : Option (ℤ → ℤ → Feed Cell)

variable {Cell : Type} [DecidableEq Cell]

/-- Load a frame: the events of the source are recorded, and then it answers. -/
def load (feed : Feed Cell) : Stateful Failure Database (RawFrame Cell) := do
  forM feed.recorded fun event => recordEvent event.eventId event.occurredAt event.payload
  liftM feed.frame

/-! ## Rows -/

/-- The five values of a bar, when all are finite. -/
def finiteBar (values : Ohlcv Reading) : Option (Ohlcv ℚ) :=
  match finite values.open_, finite values.high, finite values.low, finite values.close,
    finite values.volume with
  | some open_, some high, some low, some close, some volume =>
    some ⟨open_, high, low, close, volume⟩
  | _, _, _, _, _ => none

/-- The comparisons of `_safe_execution_row`. -/
def Executable (bar : Ohlcv ℚ) : Prop :=
  0 < bar.open_ ∧ 0 < bar.high ∧ 0 < bar.low ∧ 0 < bar.close ∧ 0 ≤ bar.volume ∧
    max (max bar.open_ bar.close) bar.low ≤ bar.high ∧
    bar.low ≤ min (min bar.open_ bar.close) bar.high

instance : DecidablePred Executable := fun _ => inferInstanceAs (Decidable (_ ∧ _))

/-- The values of a row that `_safe_execution_row` accepts. -/
def executionBar (row : QualityRow) : Option (Ohlcv ℚ) :=
  (finiteBar row.values).filter fun bar =>
    Executable bar ∧ row.isQuarantined = false ∧ row.isFilled = false

/-- `_safe_execution_row`. -/
def safeExecutionRow (row : QualityRow) : Bool := (executionBar row).isSome

/-- `enriched.loc[at]`, when `at` is in the index. -/
def rowAt (enriched : List TrendRow) (at_ : ℤ) : Option TrendRow :=
  enriched.find? fun row => row.time = nanoseconds at_

/-- The row as the engine reads it. -/
def decisionRow (row : TrendRow) : Row where
  open_ := finite row.values.open_
  high := finite row.values.high
  low := finite row.values.low
  close := finite row.values.close
  volume := finite row.values.volume
  isQuarantined := row.isQuarantined
  isFilled := row.isFilled
  ema := finite row.ema
  entryHigh := finite row.entryHigh
  previousClose := finite row.previousClose
  previousEntryHigh := finite row.previousEntryHigh
  exitLow := finite row.exitLow
  atr := finite row.atr
  baselineAtrPct := finite row.baselineAtrPct
  warmupComplete := row.warmupComplete
  entryDataValid := row.entryDataValid

/-- `(atr / close) / baseline` of a row whose values are finite and positive. -/
def volatilityRatio (row : TrendRow) : Option Reading :=
  match finite row.values.close, finite row.atr, finite row.baselineAtrPct with
  | some close, some atr, some baseline =>
    if 0 < close ∧ 0 < atr ∧ 0 < baseline then some (.number (atr / close / baseline)) else none
  | _, _, _ => none

/-- What a row gives to `_risk_decision`. -/
def riskRow (row : TrendRow) (equity : ℚ) (trades : List ClosedTrade) : RiskRow where
  equity
  completedTrades := trades
  volatilityRatio := volatilityRatio row
  volatilityBarValid := row.warmupComplete && row.entryDataValid

/-! ## The candles of a held position -/

/-- `pd.date_range(start, last, freq="4h")`. -/
def fourHourRange (start last : ℤ) : List ℤ :=
  if last < start then [] else dateRange (nanoseconds start) (nanoseconds last)

/-- `enriched.loc[(enriched.index >= start) & (enriched.index < end)]`. -/
def heldRows (enriched : List TrendRow) (start end_ : ℤ) : List TrendRow :=
  enriched.filter fun row => nanoseconds start ≤ row.time ∧ row.time < nanoseconds end_

/-- The raw columns of some enriched rows. -/
def heldFrame (rows : List TrendRow) : RawFrame Reading where
  columns := ohlcvColumns
  rows := rows.map fun row => (.time row.time, row.values.toList)
  aligned := by
    intro row hrow
    obtain ⟨original, -, rfl⟩ := List.mem_map.mp hrow
    rfl

/-- The cells of an enriched frame. -/
def enrichedCells (pd : Pandas Cell) : Pandas Reading := ⟨id, Reading.isNan, pd.isoformat⟩

/-- `_validated_position_frame`. -/
def validatedPositionFrame (pd : Pandas Cell) (frame : RawFrame Cell) (start end_ : ℤ) :
    Except Failure (List QualityRow) := do
  let expected := fourHourRange start (end_ - fourHours)
  reject (frame.rows.map Prod.fst ≠ expected.map Stamp.time)
    (.service "position history must cover its exact contiguous interval")
  let quality ← canonicalizeOhlcv pd frame (some (nanoseconds end_)) defaultSpikeRangeRatio
  let canonical := quality.frame
  reject (canonical.map (fun row => row.time) ≠ expected ∨
      ∃ row ∈ canonical, safeExecutionRow row = false)
    (.service "position history contains unsafe candle evidence")
  return canonical

/-- The times and highs of validated rows, as an observation holds them. -/
def candleHighs (rows : List QualityRow) : List (ℤ × ℚ) :=
  rows.filterMap fun row => (executionBar row).map fun bar => (microseconds row.time, bar.high)

end AutoBit.Service
