import AutoBit.Data.Readings
import AutoBit.Library.Except
import AutoBit.Library.Series
import AutoBit.Store.Lease
import Mathlib.Data.List.DropRight

/-!
# Canonical four-hour candles

A raw frame is put on the four-hour grid: bars with impossible values are quarantined, a
single missing bar is filled from the close before it, and a longer gap starts a new
segment. Times are nanoseconds since the Unix epoch, and cells are what pandas makes of
them.
-/

namespace AutoBit.Data

open Library Risk

/-- `_OHLCV_COLUMNS`. -/
def ohlcvColumns : List String := ["open", "high", "low", "close", "volume"]

/-- `_FREQUENCY`. -/
def frequency : ℤ := 14400000000000

/-- `_ENTRY_LOOKBACK`. -/
def entryLookback : ℕ := 200

/-- `_DEFAULT_SPIKE_RANGE_RATIO`. -/
def defaultSpikeRangeRatio : Reading := .number (1 / 2)

/-- The five values of a bar. -/
structure Ohlcv (α : Type) where
  open_ : α
  high : α
  low : α
  close : α
  volume : α
  deriving DecidableEq, Repr

namespace Ohlcv

variable {α β : Type}

/-- The columns `open`, `high`, `low` and `close`. -/
def prices (bar : Ohlcv α) : List α := [bar.open_, bar.high, bar.low, bar.close]

/-- All five columns. -/
def toList (bar : Ohlcv α) : List α := bar.prices ++ [bar.volume]

/-- One value for each of the five columns, and no more. -/
def ofList : List α → Option (Ohlcv α)
  | [open_, high, low, close, volume] => some ⟨open_, high, low, close, volume⟩
  | _ => none

def map (f : α → β) (bar : Ohlcv α) : Ohlcv β :=
  ⟨f bar.open_, f bar.high, f bar.low, f bar.close, f bar.volume⟩

/-- A bar of which nothing is known. -/
def unavailable : Ohlcv Reading := ⟨.nan, .nan, .nan, .nan, .nan⟩

/-- The candle that stands for one missing bar: the close before it and no volume. -/
def flat (close : Reading) : Ohlcv Reading := ⟨close, close, close, close, .number 0⟩

/-- `notna().all(axis=1)` over the five columns. -/
def isAvailable (bar : Ohlcv Reading) : Bool := bar.toList.all (!·.isNan)

/-- An unavailable bar has no values. -/
@[simp] theorem isAvailable_unavailable : unavailable.isAvailable = false := rfl

end Ohlcv

/-- An entry of a raw index, as `pd.to_datetime` reads it. -/
inductive Stamp where
  | unreadable (message : String)
  | missing
  | time (nanoseconds : ℤ)
  deriving DecidableEq, Repr

/-- The message of an entry that cannot be read. -/
def Stamp.error? : Stamp → Option String
  | .unreadable message => some message
  | _ => none

/-- The instant of an entry that has one. -/
def Stamp.time? : Stamp → Option ℤ
  | .time nanoseconds => some nanoseconds
  | _ => none

/-- The raw frame: the labels of its columns, and its rows with one cell a column. -/
structure RawFrame (Cell : Type) where
  columns : List String
  rows : List (Stamp × List Cell)
  duplicates : ℕ := 0
  conflictingDuplicates : ℕ := 0
  aligned : ∀ row ∈ rows, row.2.length = columns.length

/-- What pandas does with cells and instants: `pd.to_numeric` with `errors="coerce"`, `isna`
and `Timestamp.isoformat`. -/
structure Pandas (Cell : Type) where
  toNumeric : Cell → Reading
  isNa : Cell → Bool
  isoformat : ℤ → String

/-- Whole numbers as cells. -/
def wholeNumbers : Pandas ℤ := ⟨fun cell => .number cell, fun _ => false, fun _ => ""⟩

/-- A row that was observed, its values cleared when it is quarantined. -/
structure ObservedRow where
  time : ℤ
  values : Ohlcv Reading
  isQuarantined : Bool
  deriving DecidableEq, Repr

/-- A row of the complete grid. -/
structure GridRow extends ObservedRow where
  isFilled : Bool
  segmentId : ℕ
  deriving DecidableEq, Repr

/-- A row with its anomalies. -/
structure FlaggedRow extends GridRow where
  anomalySpike : Bool
  anomalyFlat : Bool
  deriving DecidableEq, Repr

/-- A row of the canonical frame. -/
structure QualityRow extends FlaggedRow where
  entryDataValid : Bool
  deriving DecidableEq, Repr

/-- `QualityReport`. -/
structure QualityReport where
  totalBars : ℕ
  duplicates : ℕ
  conflictingDuplicates : ℕ
  shortGapBars : ℕ
  longGapRegions : ℕ
  impossibleCandles : ℕ
  nonpositivePrices : ℕ
  negativeVolume : ℕ
  zeroVolume : ℕ
  spikeFlags : ℕ
  removedPartialBars : ℕ
  deriving DecidableEq, Repr

/-- `QualityResult`. -/
structure QualityResult where
  frame : List QualityRow
  report : QualityReport
  deriving DecidableEq, Repr

section Reading

variable {Cell : Type} [DecidableEq Cell] (pd : Pandas Cell)

/-- `_validate_spike_range_ratio`. -/
def validateSpikeRangeRatio (value : Reading) : Except Failure Unit :=
  reject (¬(value.isFinite = true ∧ (Reading.number 0).lt value = true))
    (.value "spike_range_ratio must be finite and greater than zero")

/-- `columns.str.lower().str.strip()`. -/
def normalizeColumn (label : String) : String :=
  String.ofList
    (((label.toList.map Char.toLower).dropWhile Store.isSpace).rdropWhile Store.isSpace)

/-- The instants that 64 bits hold, the smallest of which stands for a missing one. -/
def Representable (time : ℤ) : Prop := -2 ^ 63 < time ∧ time < 2 ^ 63

instance : DecidablePred Representable := fun _ => inferInstanceAs (Decidable (_ ∧ _))

/-- `pd.to_datetime` with `errors="raise"`. -/
def raiseUnreadable (stamps : List Stamp) : Except Failure Unit :=
  match stamps.findSome? Stamp.error? with
  | some message => .error (.value message)
  | none => .ok ()

/-- `_as_utc_index`: the rows with their instants. -/
def asUtcIndex (raw : RawFrame Cell) : Except Failure (List (ℤ × List Cell)) := do
  let stamps := raw.rows.map Prod.fst
  raiseUnreadable stamps
  reject (Stamp.missing ∈ stamps) (.value "OHLCV index contains missing timestamps")
  let rows : List (ℤ × List Cell) :=
    raw.rows.filterMap fun row => row.1.time?.map fun time => (time, row.2)
  reject (∃ row ∈ rows, ¬Representable row.1)
    (.value "OHLCV timestamps must be representable at nanosecond resolution")
  return rows

/-- `_validate_four_hour_boundaries`. -/
def validateFourHourBoundaries (rows : List (ℤ × List Cell)) : Except Failure Unit :=
  let offGrid := (rows.map Prod.fst).filter fun time => time % frequency ≠ 0
  let rendered := ", ".intercalate (offGrid.eraseDups.map pd.isoformat)
  reject (offGrid ≠ [])
    (.value ("OHLCV timestamps must align to a UTC 4-hour boundary: " ++ rendered))

/-- `_require_ohlcv_schema`. -/
def requireOhlcvSchema (columns : List String) : Except Failure Unit :=
  let missing := ["close", "high", "low", "open", "volume"].filter (· ∉ columns)
  reject (missing ≠ [])
    (.value ("OHLCV frame is missing required columns: " ++ ", ".intercalate missing))

/-- `frame.loc[:, _OHLCV_COLUMNS]` for one row: every cell whose label is asked for. -/
def selectOhlcv (columns : List String) (cells : List Cell) : List Cell :=
  ohlcvColumns.flatMap fun name =>
    ((columns.zip cells).filter fun cell => cell.1 = name).map Prod.snd

/-- `sort_index()`. -/
def sortIndex {α : Type} (rows : List (ℤ × α)) : List (ℤ × α) :=
  rows.insertionSort fun a b => a.1 ≤ b.1

/-- `~index.duplicated(keep="first")`. -/
def keepFirst {α : Type} : List (ℤ × α) → List (ℤ × α)
  | [] => []
  | row :: rest => row :: (keepFirst rest).filter fun other => other.1 ≠ row.1

/-- `_deduplicate_or_raise`. -/
def deduplicateOrRaise (rows : List (ℤ × List Cell)) : Except Failure (List (ℤ × List Cell)) := do
  reject (∃ a ∈ rows, ∃ b ∈ rows, a.1 = b.1 ∧ a.2 ≠ b.2)
    (.value "conflicting duplicate OHLCV timestamps")
  return keepFirst rows

/-- `_coerce_float64`. Of two columns of one name there is no single series to convert. -/
def coerceFloat64 (columns : List String) (rows : List (ℤ × List Cell)) :
    Except Failure (List (ℤ × Ohlcv Reading)) := do
  let mismatch := Failure.value "arg must be a list, tuple, 1-d array, or Series"
  reject (¬(columns.filter (· ∈ ohlcvColumns)).Nodup) mismatch
  rows.mapM fun row =>
    require ((Ohlcv.ofList row.2).map fun bar => (row.1, bar.map pd.toNumeric)) mismatch

/-- `missing_values` of a bar. -/
def isMissing (bar : Ohlcv Reading) : Bool := bar.prices.any (·.isNan) || bar.volume.isNan

/-- `impossible` for a bar. -/
def isImpossible (bar : Ohlcv Reading) : Bool :=
  bar.high.lt (Reading.maximum [bar.open_, bar.close, bar.low]) ||
    (Reading.minimum [bar.open_, bar.close, bar.high]).lt bar.low || bar.high.lt bar.low

/-- `nonpositive` for a bar. -/
def isNonpositive (bar : Ohlcv Reading) : Bool := bar.prices.any (·.le (.number 0))

/-- `negative_volume` for a bar. -/
def isNegativeVolume (bar : Ohlcv Reading) : Bool := bar.volume.lt (.number 0)

/-- `quarantined` for a bar. -/
def isInvalid (bar : Ohlcv Reading) : Bool :=
  isMissing bar || isImpossible bar || isNonpositive bar || isNegativeVolume bar

/-- `_quarantine_invalid_values` for a row. -/
def quarantineInvalidValues (row : ℤ × Ohlcv Reading) : ObservedRow where
  time := row.1
  values := if isInvalid row.2 then Ohlcv.unavailable else row.2
  isQuarantined := isInvalid row.2

/-- `_drop_unclosed_last_bar`: a naive `now_utc` is `none`. -/
def dropUnclosedLastBar (rows : List ObservedRow) (nowUtc : Option ℤ) :
    Except Failure (List ObservedRow) := do
  let now ← require nowUtc (.value "now_utc must be timezone-aware")
  reject (∃ row ∈ rows, ¬Representable (row.time + frequency))
    (.overflow "Overflow in int64 addition")
  return rows.filter fun row => row.time + frequency ≤ now

/-- `pd.date_range(first, last, freq=frequency)`. -/
def dateRange (first last : ℤ) : List ℤ :=
  (List.range (((last - first) / frequency).toNat + 1)).map fun (k : ℕ) => first + k * frequency

/-- `original.reindex(full_index)`: the instants of the grid with the rows observed there. -/
def reindex (rows : List ObservedRow) (index : List ℤ) : List (ℤ × Option ObservedRow) :=
  index.map fun time => (time, rows.find? fun row => row.time = time)

/-- `inserted` for a row of the grid. -/
def inserted (cell : ℤ × Option ObservedRow) : Bool := cell.2.isNone

/-- What the walk over the gaps makes: the rows, and how many gaps of each kind it met. -/
structure GapFill where
  rows : List GridRow
  shortGapBars : ℕ
  longGapRegions : ℕ

/-- An instant of a long gap. -/
def blankRow (segmentId : ℕ) (cell : ℤ × Option ObservedRow) : GridRow :=
  ⟨⟨cell.1, Ohlcv.unavailable, false⟩, false, segmentId⟩

/-- The close that fills a gap: the one before a gap of one bar, when there is one. -/
def fillingClose (gapSize : ℕ) (priorClose : Option Reading) : Option Reading :=
  if gapSize = 1 then priorClose.filter (!·.isNan) else none

/-- The loop of `_reindex_and_fill_single_gaps`: a run of inserted rows is either filled from
the row before it or left blank, and then the segment ends. -/
def fillSingleGaps :
    List (ℤ × Option ObservedRow) → Option Reading → ℕ → GapFill
  | [], _, _ => ⟨[], 0, 0⟩
  | (_, some row) :: rest, _, segmentId =>
    let tail := fillSingleGaps rest (some row.values.close) segmentId
    ⟨⟨row, false, segmentId⟩ :: tail.rows, tail.shortGapBars, tail.longGapRegions⟩
  | (time, none) :: rest, priorClose, segmentId =>
    let gap := (time, none) :: rest.takeWhile inserted
    match fillingClose gap.length priorClose with
    | some close =>
      let tail := fillSingleGaps rest (some close) segmentId
      ⟨⟨⟨time, Ohlcv.flat close, false⟩, true, segmentId⟩ :: tail.rows,
        tail.shortGapBars + 1, tail.longGapRegions⟩
    | none =>
      let tail := fillSingleGaps (rest.dropWhile inserted) (some .nan) (segmentId + 1)
      ⟨gap.map (blankRow segmentId) ++ tail.rows, tail.shortGapBars, tail.longGapRegions + 1⟩
  termination_by cells => cells.length
  decreasing_by
    · simp
    · simp
    · have := (List.dropWhile_suffix inserted (l := rest)).length_le
      simp only [List.length_cons]
      omega

/-- `_reindex_and_fill_single_gaps`. -/
def reindexAndFillSingleGaps (rows : List ObservedRow) : GapFill :=
  let times := rows.map fun row => row.time
  match times.min?, times.max? with
  | some first, some last => fillSingleGaps (reindex rows (dateRange first last)) none 0
  | _, _ => ⟨[], 0, 0⟩

/-- `_flag_spikes_and_flat_bars` for a row. -/
def flagSpikesAndFlatBars (spikeRangeRatio : Reading) (row : GridRow) : FlaggedRow :=
  let tradable := row.values.prices.all (!·.isNan)
  let priceRange := row.values.high.sub row.values.low
  { toGridRow := row
    anomalySpike := tradable && spikeRangeRatio.lt (priceRange.div row.values.close)
    anomalyFlat := tradable && priceRange.eq (.number 0) && !row.isFilled }

/-- `contamination` of a row. -/
def FlaggedRow.isContaminated (row : FlaggedRow) : Bool :=
  row.isFilled || row.isQuarantined || (row.anomalySpike || row.anomalyFlat)

/-- `recent_contamination`: within each segment, whether any of the last rows is
contaminated. -/
def recentContamination (rows : List FlaggedRow) : List Bool :=
  transformGroups (fun row : FlaggedRow => row.segmentId)
    (fun segment => rolling entryLookback (·.any id) (segment.map FlaggedRow.isContaminated)) rows

/-- `_set_entry_data_valid`. -/
def setEntryDataValid (rows : List FlaggedRow) : List QualityRow :=
  List.zipWith (fun row recent => ⟨row, row.values.isAvailable && !recent⟩) rows
    (recentContamination rows)

/-- `canonicalize_ohlcv`. -/
def canonicalizeOhlcv (raw : RawFrame Cell) (nowUtc : Option ℤ) (spikeRangeRatio : Reading) :
    Except Failure QualityResult := do
  validateSpikeRangeRatio spikeRangeRatio
  let columns := raw.columns.map normalizeColumn
  let timed ← asUtcIndex raw
  validateFourHourBoundaries pd timed
  requireOhlcvSchema columns
  let sorted := sortIndex (timed.map fun row => (row.1, selectOhlcv columns row.2))
  let unique ← deduplicateOrRaise sorted
  let coerced ← coerceFloat64 pd columns unique
  let observed := coerced.map quarantineInvalidValues
  let complete ← dropUnclosedLastBar observed nowUtc
  let filled := reindexAndFillSingleGaps complete
  let frame := setEntryDataValid (filled.rows.map (flagSpikesAndFlatBars spikeRangeRatio))
  return {
    frame := frame
    report := {
      totalBars := frame.length
      duplicates := raw.duplicates + (sorted.length - unique.length)
      conflictingDuplicates := raw.conflictingDuplicates
      shortGapBars := filled.shortGapBars
      longGapRegions := filled.longGapRegions
      impossibleCandles := (coerced.filter fun row => isImpossible row.2).length
      nonpositivePrices := (coerced.filter fun row => isNonpositive row.2).length
      negativeVolume := (coerced.filter fun row => isNegativeVolume row.2).length
      zeroVolume := (frame.filter fun row => row.values.volume.eq (.number 0)).length
      spikeFlags := (frame.filter fun row => row.anomalySpike).length
      removedPartialBars := observed.length - complete.length } }

end Reading

end AutoBit.Data
