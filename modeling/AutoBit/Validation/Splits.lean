import AutoBit.Data.Surface
import AutoBit.Library.Calendar
import AutoBit.Library.While

/-!
# Calendar-accurate, embargoed rolling walk-forward folds

The folds of a contiguous four-hour index: each has a train window of some calendar years, an
embargo of some days after it, and a test window of some calendar months. Timestamps are
nanoseconds since the Unix epoch, and pandas raises where one does not fit into 64 bits.
-/

namespace AutoBit.Validation

open Library
open Data (frequency Representable FrameIndex validatedUtcIndex)

/-- Nanoseconds in a day. -/
def dayLength : ℤ := 86400000000000

/-- `WalkForwardConfig`, whose durations are positive and whose step is the test window. -/
structure WalkForwardConfig where
  trainYears : ℕ := 2
  embargoDays : ℕ := 5
  testMonths : ℕ := 3
  stepMonths : ℕ := 3
  trainYears_pos : 0 < trainYears := by decide
  embargoDays_pos : 0 < embargoDays := by decide
  stepMonths_pos : 0 < stepMonths := by decide
  stepMonths_eq : stepMonths = testMonths := by decide

/-- `FoldWindow`. -/
structure FoldWindow where
  foldId : String
  trainStart : ℤ
  trainEnd : ℤ
  testStart : ℤ
  testEnd : ℤ
  trainIndex : List ℤ
  testIndex : List ℤ
  deriving DecidableEq, Repr

/-- An index as the caller gives it: a `DatetimeIndex` or not, and with a timezone or not.
The instants are those of UTC, with `NaT` where there is none. -/
inductive TimeIndex where
  | other
  | naive
  | aware (instants : List (Option ℤ))
  deriving DecidableEq, Repr

/-- `_validated_utc_copy` and `_validate_canonical_cadence`. -/
def validatedUtcCopy : TimeIndex → Except Failure (List ℤ)
  | .other => .error (.value "index must be a pandas DatetimeIndex")
  | .naive => .error (.value "index timestamps must be timezone-aware")
  | .aware instants => do
    reject (none ∈ instants) (.value "index must not contain NaT")
    let timestamps := instants.reduceOption
    reject (¬timestamps.Nodup) (.value "index timestamps must be unique")
    reject (¬timestamps.Pairwise (· ≤ ·)) (.value "index timestamps must be sorted ascending")
    reject (∃ t ∈ timestamps, ¬Representable t)
      (.value "index timestamps must be UTC-normalizable")
    reject (∃ t ∈ timestamps, t % frequency ≠ 0)
      (.value "index timestamps must align to UTC 4-hour boundaries")
    reject (¬timestamps.IsChain fun a b => b - a = frequency)
      (.value "index timestamps must have exact contiguous 4-hour spacing")
    return timestamps

/-- What pandas raises for an instant that it cannot hold. -/
def outOfBounds : Failure := .value "Out of bounds nanosecond timestamp"

/-- The timestamp of an instant, where there is one. -/
def timestamp (t : ℤ) : Except Failure ℤ := do
  reject (¬Representable t) outOfBounds
  return t

/-- An instant moved by calendar months, at the same time of the day. -/
def shiftMonths (n t : ℤ) : ℤ := addMonths n (t / dayLength) * dayLength + t % dayLength

/-- `value + pd.DateOffset(years=n)`. -/
def offsetYears (n t : ℤ) : Except Failure ℤ := timestamp (shiftMonths (12 * n) t)

/-- `value + pd.DateOffset(days=n)`. -/
def offsetDays (n t : ℤ) : Except Failure ℤ := timestamp (t + n * dayLength)

/-- `value + pd.DateOffset(months=n)`. -/
def offsetMonths (n t : ℤ) : Except Failure ℤ := timestamp (shiftMonths n t)

/-- One round of the loop in `_first_complete_train_end`. -/
def lookbackRound (coverageStart : ℤ) (config : WalkForwardConfig) (trainEnd : ℤ) :
    Except Failure (ℤ ⊕ ℤ) := do
  let lookback ← offsetYears (-config.trainYears) trainEnd
  if lookback < coverageStart then
    let next ← timestamp (trainEnd + frequency)
    return .inl next
  else return .inr trainEnd

/-- `_first_complete_train_end`, with a number of rounds for its loop. -/
def firstCompleteTrainEnd (fuel : ℕ) (coverageStart : ℤ) (config : WalkForwardConfig) :
    ExceptT Failure Option ℤ := do
  let trainEnd ← offsetYears config.trainYears coverageStart
  whileTrue (lookbackRound coverageStart config) fuel trainEnd

/-- `_quarter_boundary`. -/
def quarterBoundary (firstTestStart : ℤ) (ordinal : ℕ) (config : WalkForwardConfig) :
    Except Failure ℤ :=
  offsetMonths (ordinal * config.stepMonths) firstTestStart

/-- `_owned_interval_copy`. -/
def ownedIntervalCopy (timestamps : List ℤ) (start stop : ℤ) : List ℤ :=
  timestamps.filter fun t => start ≤ t ∧ t < stop

/-- The name of a fold: its number with at least three digits. -/
def foldId (number : ℕ) : String :=
  "fold-" ++ String.ofList (List.replicate (3 - (Nat.toDigits 10 number).length) '0' ++
    Nat.toDigits 10 number)

/-- The variables of the loop over the folds. -/
structure RollingState where
  testStart : ℤ
  foldNumber : ℕ
  folds : List FoldWindow

/-- One round of the loop over the folds. -/
def rollingRound (timestamps : List ℤ) (coverageEnd firstTestStart : ℤ)
    (config : WalkForwardConfig) (state : RollingState) :
    Except Failure (RollingState ⊕ List FoldWindow) := do
  let trainEnd ← offsetDays (-config.embargoDays) state.testStart
  let trainStart ← offsetYears (-config.trainYears) trainEnd
  let testEnd ← quarterBoundary firstTestStart (state.foldNumber + 1) config
  if coverageEnd < testEnd then return .inr state.folds
  else
    let trainIndex := ownedIntervalCopy timestamps trainStart trainEnd
    let testIndex := ownedIntervalCopy timestamps state.testStart testEnd
    if trainIndex = [] ∨ testIndex = [] then return .inr state.folds
    else
      return .inl
        { testStart := testEnd
          foldNumber := state.foldNumber + 1
          folds := state.folds ++
            [{ foldId := foldId state.foldNumber, trainStart, trainEnd,
               testStart := state.testStart, testEnd, trainIndex, testIndex }] }

/-- `build_rolling_folds`, with a number of rounds for each of its loops. -/
def buildRollingFolds (fuel : ℕ) (index : TimeIndex) (config : WalkForwardConfig) :
    ExceptT Failure Option (List FoldWindow) := do
  let timestamps ← validatedUtcCopy index
  match timestamps with
  | [] => return []
  | [_] => return []
  | first :: second :: rest =>
    let coverageEnd ← timestamp ((second :: rest).getLastD first + frequency)
    let firstTrainEnd ← firstCompleteTrainEnd fuel first config
    let firstTestStart ← offsetDays config.embargoDays firstTrainEnd
    whileTrue (rollingRound timestamps coverageEnd firstTestStart config) fuel
      ⟨firstTestStart, 0, []⟩

/-- The checks of `_validated_folds` on one fold, with the names and the end of the test
window before. -/
def checkFold (index : List ℤ) (state : List String × Option ℤ) (numbered : FoldWindow × ℕ) :
    Except Failure (List String × Option ℤ) := do
  let (fold, ordinal) := numbered
  reject (fold.foldId ≠ foldId ordinal ∨ fold.foldId ∈ state.1)
    (.value "fold IDs must be known and unique")
  reject (¬(fold.trainStart < fold.trainEnd ∧ fold.trainEnd < fold.testStart ∧
      fold.testStart < fold.testEnd))
    (.value "fold boundaries must be strictly ordered")
  reject (∃ previousTestEnd ∈ state.2, fold.testStart < previousTestEnd)
    (.value "fold OOS windows must not overlap")
  let expectedTrain := ownedIntervalCopy index fold.trainStart fold.trainEnd
  let expectedTest := ownedIntervalCopy index fold.testStart fold.testEnd
  reject (expectedTrain = [] ∨ expectedTest = [])
    (.value "fold intervals must be contained in frame")
  let trainIndex ← validatedUtcIndex (.datetime true (fold.trainIndex.map some)) "fold train_index"
  let testIndex ← validatedUtcIndex (.datetime true (fold.testIndex.map some)) "fold test_index"
  reject (trainIndex ≠ expectedTrain ∨ testIndex ≠ expectedTest)
    (.value "fold indexes must exactly match half-open frame intervals")
  return (fold.foldId :: state.1, some fold.testEnd)

/-- The checks of `_validated_folds` on each fold. -/
def checkFolds (index : List ℤ) (folds : List FoldWindow) : Except Failure Unit := do
  reject (folds = []) (.value "folds must not be empty")
  let _ ← folds.zipIdx.foldlM (checkFold index) ([], none)
  return ()

/-- The comparison of `_validated_folds` with the complete schedule. -/
def checkCanonical (folds canonical : List FoldWindow) : Except Failure (List FoldWindow) := do
  reject (folds ≠ canonical) (.value "folds must match the complete canonical schedule")
  return canonical

/-- `_validated_folds`, on the instants of a frame. -/
def validatedFolds (fuel : ℕ) (index : List ℤ) (folds : List FoldWindow) :
    ExceptT Failure Option (List FoldWindow) := do
  checkFolds index folds
  let canonical ← buildRollingFolds fuel (.aware (index.map some)) {}
  checkCanonical folds canonical

end AutoBit.Validation
