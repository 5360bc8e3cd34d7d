import AutoBit.Data.Quality
import AutoBit.Library.Loop
import Mathlib.Data.List.ReduceOption

/-!
# The quality surface of a walk-forward frame

What a frame must satisfy before it is used in a validation run: candles that are available
or unavailable as a whole, and quality flags that agree with the candles around them. The
checks are made on a frame of any origin, whose columns may have any type.
-/

namespace AutoBit.Data

open Library Risk

variable {Cell : Type}

/-- `_QUALITY_BOOLEAN_COLUMNS`. -/
def qualityBooleanColumns : List String :=
  ["is_filled", "is_quarantined", "anomaly_spike", "anomaly_flat", "entry_data_valid"]

/-- `_QUALITY_COLUMNS`. -/
def qualityColumns : List String := qualityBooleanColumns ++ ["segment_id"]

/-- A column of a frame. -/
inductive Column (Cell : Type) where
  | numbers (values : List Reading)
  | integers (values : List ℤ)
  | booleans (values : List Bool)
  | objects (values : List Cell)
  deriving DecidableEq, Repr

/-- The index of a frame: instants in UTC or in another zone, in units of its own, or
something else of a certain length. -/
inductive FrameIndex where
  | other (length : ℕ)
  | datetime (utc : Bool) (asi8 : List (Option ℤ))
  deriving DecidableEq, Repr

/-- The number of instants. -/
def FrameIndex.length : FrameIndex → ℕ
  | other length => length
  | datetime _ asi8 => asi8.length

/-- The number of values in a column. -/
def Column.length : Column Cell → ℕ
  | numbers values => values.length
  | integers values => values.length
  | booleans values => values.length
  | objects values => values.length

/-- A frame: columns of different names, each as long as the index. -/
structure Frame (Cell : Type) where
  index : FrameIndex
  columns : List (String × Column Cell)
  unique : (columns.map Prod.fst).Nodup
  aligned : ∀ column ∈ columns, column.2.length = index.length

/-- `frame[name]`. -/
def Frame.column (frame : Frame Cell) (name : String) : Option (Column Cell) :=
  (frame.columns.find? fun column => column.1 = name).map Prod.snd

section Columns

variable (pd : Pandas Cell)

/-- `pd.to_numeric` with `errors="coerce"`. -/
def Column.numeric : Column Cell → List Reading
  | numbers values => values
  | integers values => values.map fun (value : ℤ) => .number value
  | booleans values => values.map fun value => .number (if value then 1 else 0)
  | objects values => values.map pd.toNumeric

/-- A column has as many numbers as cells. -/
@[simp] theorem Column.length_numeric (column : Column Cell) :
    (column.numeric pd).length = column.length := by
  cases column <;> simp [Column.numeric, Column.length]

/-- Whether a value that is there is not numeric. -/
def Column.coercedMissing : Column Cell → Bool
  | objects values => values.any fun value => !pd.isNa value && (pd.toNumeric value).isNan
  | _ => false

/-- The flags of a column, when its type is that of strict booleans. -/
def Column.flags : Column Cell → Option (List Bool)
  | booleans values => some values
  | _ => none

/-- The numbers in a column of the frame. -/
def Frame.numeric (frame : Frame Cell) (name : String) : List Reading :=
  (frame.column name).elim [] (Column.numeric pd)

/-- The flags in a column of the frame. -/
def Frame.flags (frame : Frame Cell) (name : String) : List Bool :=
  ((frame.column name).bind Column.flags).getD []

/-- The five numeric columns, row by row. -/
def Frame.ohlcv (frame : Frame Cell) : List (Ohlcv Reading) :=
  ((frame.numeric pd "open").zip <| (frame.numeric pd "high").zip <|
    (frame.numeric pd "low").zip <| (frame.numeric pd "close").zip <|
      frame.numeric pd "volume").map fun row =>
    ⟨row.1, row.2.1, row.2.2.1, row.2.2.2.1, row.2.2.2.2⟩

end Columns

/-- `isna().all(axis=1)` over the five columns. -/
def Ohlcv.isUnavailable (bar : Ohlcv Reading) : Bool := bar.toList.all (·.isNan)

/-- `_validated_utc_index`: the instants of an index, in its own units. -/
def validatedUtcIndex (index : FrameIndex) (name : String) : Except Failure (List ℤ) :=
  match index with
  | .other _ => .error (.value (name ++ " must be a pandas DatetimeIndex"))
  | .datetime utc asi8 => do
    reject (utc = false) (.value (name ++ " must use canonical UTC"))
    let values := asi8.reduceOption
    reject (none ∈ asi8 ∨ ¬values.Nodup ∨ ¬values.Pairwise (· ≤ ·))
      (.value (name ++ " must be sorted, unique, and nonmissing"))
    reject (¬values.IsChain fun a b => b - a = frequency)
      (.value (name ++ " must have contiguous four-hour spacing"))
    reject (∃ value ∈ values, value % frequency ≠ 0)
      (.value (name ++ " must align to UTC four-hour boundaries"))
    return values

/-- A list without missing instants is reduced to itself. -/
theorem reduceOption_map_some (times : List ℤ) : (times.map some).reduceOption = times := by
  simp [List.reduceOption, List.filterMap_map]

/-- An index that passes: increasing on the grid, without gaps. -/
theorem validatedUtcIndex_eq_ok {index : FrameIndex} {name : String} {times : List ℤ} :
    validatedUtcIndex index name = .ok times ↔
      index = .datetime true (times.map some) ∧ times.Pairwise (· < ·) ∧
        times.IsChain (fun a b => b - a = frequency) ∧ ∀ value ∈ times, value % frequency = 0 := by
  cases index with
  | other length => simp [validatedUtcIndex]
  | datetime utc asi8 =>
    have hincreasing : ∀ values : List ℤ,
        values.Nodup ∧ values.Pairwise (· ≤ ·) ↔ values.Pairwise (· < ·) := by
      intro values
      rw [List.Nodup, ← List.pairwise_and_iff]
      exact List.Pairwise.iff fun a b => by omega
    simp only [validatedUtcIndex, Except.bind_eq_ok, reject_eq_ok, Except.pure_eq_ok]
    constructor
    · rintro ⟨_, hutc, _, hsorted, _, hspacing, _, haligned, rfl⟩
      obtain ⟨hpresent, hnodup, hle⟩ : none ∉ asi8 ∧ asi8.reduceOption.Nodup ∧
          asi8.reduceOption.Pairwise (· ≤ ·) := by simpa using hsorted
      have hall : asi8.reduceOption.map some = asi8 := by
        rw [List.reduceOption, List.map_filterMap]
        refine (List.filterMap_congr (g := some) ?_).trans List.filterMap_some
        intro value hvalue
        cases value with
        | none => exact absurd hvalue hpresent
        | some instant => rfl
      refine ⟨?_, (hincreasing _).mp ⟨hnodup, hle⟩, not_not.mp hspacing, ?_⟩
      · rw [hall, Bool.not_eq_false _ |>.mp hutc]
      · intro value hvalue
        by_contra hoff
        exact haligned ⟨value, hvalue, hoff⟩
    · rintro ⟨heq, hsorted, hspacing, haligned⟩
      obtain ⟨rfl, rfl⟩ := FrameIndex.datetime.inj heq
      have hvalues := reduceOption_map_some times
      obtain ⟨hnodup, hle⟩ := (hincreasing times).mpr hsorted
      refine ⟨(), by simp, (), ?_, (), ?_, (), ?_, hvalues⟩
      · simp [hvalues, hnodup, hle]
      · rw [hvalues]
        exact not_not.mpr hspacing
      · rintro ⟨value, hvalue, hoff⟩
        rw [hvalues] at hvalue
        exact hoff (haligned value hvalue)

/-- `_validate_available_ohlcv`. -/
def validateAvailableOhlcv (rows : List (Ohlcv Reading)) : Except Failure Unit := do
  reject (∃ bar ∈ rows, ∃ price ∈ bar.prices, price.le (.number 0) = true)
    (.value "available OHLC prices must be positive")
  reject (∃ bar ∈ rows, bar.volume.lt (.number 0) = true)
    (.value "available volume must be nonnegative")
  reject ((∃ bar ∈ rows, bar.high.lt (Reading.maximum [bar.open_, bar.close, bar.low]) = true) ∨
      ∃ bar ∈ rows, (Reading.minimum [bar.open_, bar.close, bar.high]).lt bar.low = true)
    (.value "available OHLC geometry is invalid")

/-- `observed` for a row. -/
def GridRow.isObserved (row : GridRow) : Bool :=
  row.isQuarantined || (row.values.isAvailable && !row.isFilled)

/-- `normal_observed` for a row. -/
def GridRow.isNormalObserved (row : GridRow) : Bool :=
  row.values.isAvailable && !row.isFilled && !row.isQuarantined

/-- `long_gap` for a row. -/
def GridRow.isLongGap (row : GridRow) : Bool := row.values.isUnavailable && !row.isQuarantined

/-- A filled row stands alone between a normal candle, whose close it repeats, and an
observed one. -/
def checkFilledRow (row : GridRow) : Option GridRow → Option GridRow → Except Failure Unit
  | some before, some after => do
    reject (before.isFilled || after.isFilled)
      (.value "filled quality rows must be isolated singletons")
    reject (before.isNormalObserved = false)
      (.value "filled quality row requires a normal observed predecessor")
    reject (after.isObserved = false)
      (.value "filled quality row requires an observed nonfilled successor")
    reject (∃ price ∈ row.values.prices, price.eq before.values.close = false)
      (.value "filled quality row must equal its predecessor close")
    reject (¬(before.segmentId = row.segmentId ∧ row.segmentId = after.segmentId))
      (.value "filled quality row must preserve its surrounding segment")
  | _, _ => .error (.value "filled quality row must be an interior singleton")

/-- The loop over the filled rows, from the row before on. -/
def checkFilledRows : Option GridRow → List GridRow → Except Failure Unit
  | _, [] => .ok ()
  | prior, row :: rest => do
    if row.isFilled then checkFilledRow row prior rest.head?
    checkFilledRows (some row) rest

/-- The loop over the segments: each ends in a run of blank rows between two observed ones,
and the next one is numbered one more. -/
def checkSegments : Option GridRow → ℕ → List GridRow → Except Failure Unit
  | _, _, [] => .ok ()
  | prior, currentSegment, row :: rest => do
    reject (row.segmentId ≠ currentSegment)
      (.value "quality segment_id transition does not follow a long-gap region")
    if row.isLongGap then
      let before ← require (prior.filter (·.isObserved))
        (.value "a long-gap region must have a preceding observed canonical row")
      let gap := row :: rest.takeWhile (·.isLongGap)
      reject (∃ blank ∈ gap, blank.segmentId ≠ currentSegment)
        (.value "quality segment_id must remain stable inside a long-gap region")
      reject (gap.length = 1 ∧ before.isQuarantined = false)
        (.value "a one-row long-gap region requires a quarantined predecessor")
      let after ← require ((rest.dropWhile (·.isLongGap)).head?.filter (·.isObserved))
        (.value "a long-gap region must have a following observed canonical row")
      reject (after.segmentId ≠ currentSegment + 1)
        (.value "quality segment_id transition after a long-gap region must increment once")
      checkSegments gap.getLast? (currentSegment + 1) (rest.dropWhile (·.isLongGap))
    else checkSegments (some row) currentSegment rest
  termination_by _ _ rows => rows.length
  decreasing_by
    · have := (List.dropWhile_suffix (fun row : GridRow => row.isLongGap) (l := rest)).length_le
      simp only [List.length_cons]
      omega
    · simp

/-- A segment number that is a nonnegative integer. -/
def isSegmentNumber : Reading → Bool
  | .number value => 0 ≤ value && value.den = 1
  | _ => false

/-- `int(value)` of a segment number. -/
def segmentNumber : Reading → ℕ
  | .number value => value.num.toNat
  | _ => 0

/-- `expected_entry`. -/
def expectedEntry (rows : List QualityRow) : List Bool :=
  List.zipWith (fun row recent => row.values.isAvailable && !recent) rows
    (transformGroups (fun row : QualityRow => row.segmentId)
      (fun segment => rolling 200 (·.any id) (segment.map fun row =>
        row.isFilled || row.isQuarantined || row.anomalySpike || row.anomalyFlat)) rows)

/-- The checks of `_validate_quality_surface` on rows whose flags have been read. -/
def validateQualityRows (rows : List QualityRow) : Except Failure Unit := do
  let grid := rows.map fun row => row.toGridRow
  reject (∃ row ∈ rows, (row.isFilled && row.isQuarantined) ||
      (row.isFilled && (row.anomalySpike || row.anomalyFlat)) ||
      (row.anomalySpike && row.anomalyFlat))
    (.value "quality flags contain an impossible filled/anomaly combination")
  reject (∃ row ∈ rows, row.values.isUnavailable &&
      (row.isFilled || row.anomalySpike || row.anomalyFlat))
    (.value "unavailable rows cannot be filled or anomalous candles")
  reject (∃ row ∈ rows, row.values.isAvailable && row.isQuarantined)
    (.value "quarantined rows must clear all OHLCV values")
  reject (∃ row ∈ rows, row.isFilled = true ∧
      (row.values.volume.eq (.number 0) && row.values.open_.eq row.values.high &&
        row.values.open_.eq row.values.low && row.values.open_.eq row.values.close) = false)
    (.value "filled quality rows must be flat zero-volume candles")
  checkFilledRows none grid
  reject (∃ row ∈ grid.head?, row.segmentId ≠ 0)
    (.value "quality segment_id must start at zero")
  checkSegments none 0 grid
  reject (rows.map (fun row => row.entryDataValid) ≠ expectedEntry rows)
    (.value "quality entry_data_valid is inconsistent with contamination")

section Validation

variable (pd : Pandas Cell)

/-- The rows of a frame, once its quality columns have the types that they should have. -/
def Frame.qualityRows (frame : Frame Cell) (times : List ℤ) (numeric : List (Ohlcv Reading)) :
    List QualityRow :=
  (times.zip <| numeric.zip <| (frame.flags "is_filled").zip <|
    (frame.flags "is_quarantined").zip <| (frame.flags "anomaly_spike").zip <|
      (frame.flags "anomaly_flat").zip <| (frame.flags "entry_data_valid").zip <|
        frame.numeric pd "segment_id").map fun row =>
    { time := row.1
      values := row.2.1
      isFilled := row.2.2.1
      isQuarantined := row.2.2.2.1
      anomalySpike := row.2.2.2.2.1
      anomalyFlat := row.2.2.2.2.2.1
      entryDataValid := row.2.2.2.2.2.2.1
      segmentId := segmentNumber row.2.2.2.2.2.2.2 }

/-- `_validate_quality_surface`. -/
def validateQualitySurface (frame : Frame Cell) (times : List ℤ)
    (numeric : List (Ohlcv Reading)) : Except Failure Unit := do
  forM qualityBooleanColumns fun name =>
    reject (((frame.column name).bind Column.flags).isNone)
      (.value ("quality flag " ++ name ++ " must contain strict booleans"))
  reject (∃ value ∈ frame.numeric pd "segment_id", isSegmentNumber value = false)
    (.value "quality segment_id must be a nonnegative integer")
  validateQualityRows (frame.qualityRows pd times numeric)

/-- `result.loc[:, _OHLCV_COLUMNS] = numeric` on a copy of the frame. -/
def Frame.withNumeric (frame : Frame Cell) : Frame Cell where
  index := frame.index
  columns := frame.columns.map fun column =>
    (column.1, if column.1 ∈ ohlcvColumns then .numbers (column.2.numeric pd) else column.2)
  unique := by simpa [Function.comp_def] using frame.unique
  aligned := by
    intro column hcolumn
    obtain ⟨original, horiginal, rfl⟩ := List.mem_map.mp hcolumn
    rw [← frame.aligned original horiginal]
    dsimp only
    split_ifs with hname
    · exact original.2.length_numeric pd
    · rfl

/-- `validate_walk_forward_frame`. -/
def validateWalkForwardFrame (frame : Frame Cell) : Except Failure (Frame Cell) := do
  let missing := ohlcvColumns.filter fun name => (frame.column name).isNone
  reject (missing ≠ [])
    (.value ("frame is missing required columns: " ++ ", ".intercalate missing))
  let index ← validatedUtcIndex frame.index "frame"
  reject (index = []) (.value "frame must not be empty")
  reject (∃ column ∈ ohlcvColumns.filterMap frame.column, column.coercedMissing pd = true)
    (.value "frame OHLCV values must be numeric or canonically unavailable")
  let numeric := frame.ohlcv pd
  reject (∃ bar ∈ numeric, ∃ value ∈ bar.toList, value.isInfinite = true)
    (.value "frame OHLCV values must be finite when available")
  reject (∃ bar ∈ numeric, ¬(bar.isAvailable || bar.isUnavailable))
    (.value "frame OHLCV rows cannot be partially unavailable")
  validateAvailableOhlcv (numeric.filter (·.isAvailable))
  let presentQuality := qualityColumns.filter fun name => (frame.column name).isSome
  reject (presentQuality ≠ [] ∧ presentQuality ≠ qualityColumns)
    (.value "frame quality surface must be complete")
  reject ((∃ bar ∈ numeric, bar.isUnavailable = true) ∧ presentQuality = [])
    (.value "unavailable OHLCV rows require canonical quality flags")
  if presentQuality ≠ [] then
    validateQualitySurface pd frame index numeric
  return frame.withNumeric pd

end Validation

/-- The frame that holds canonical rows, with the columns that canonicalization leaves. -/
def frameOf (rows : List QualityRow) : Frame Cell where
  index := .datetime true (rows.map fun row => some row.time)
  columns :=
    [("open", .numbers (rows.map fun row => row.values.open_)),
      ("high", .numbers (rows.map fun row => row.values.high)),
      ("low", .numbers (rows.map fun row => row.values.low)),
      ("close", .numbers (rows.map fun row => row.values.close)),
      ("volume", .numbers (rows.map fun row => row.values.volume)),
      ("is_quarantined", .booleans (rows.map fun row => row.isQuarantined)),
      ("is_filled", .booleans (rows.map fun row => row.isFilled)),
      ("anomaly_spike", .booleans (rows.map fun row => row.anomalySpike)),
      ("anomaly_flat", .booleans (rows.map fun row => row.anomalyFlat)),
      ("segment_id", .integers (rows.map fun row => (row.segmentId : ℤ))),
      ("entry_data_valid", .booleans (rows.map fun row => row.entryDataValid))]
  unique := by
    simp only [List.map_cons, List.map_nil]
    decide
  aligned := by simp [FrameIndex.length, Column.length]

end AutoBit.Data
