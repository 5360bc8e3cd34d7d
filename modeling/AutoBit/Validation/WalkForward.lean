import AutoBit.Data.Truncation
import AutoBit.Validation.Conserved
import AutoBit.Validation.Folds

/-!
# The walk-forward matrix

Every fold is run for nine trials, four cost scenarios and two phases. Each cell starts flat
with an equity of 100 on the candles of its phase, and sees indicators of the prefix before
the phase end only. The backtest function is an argument of the run: it may raise, return
anything and answer differently from call to call. What it answers is kept as a row, completed
or failed, and the test rows of each trial and cost scenario are stitched.
-/

namespace AutoBit.Validation

open Library Backtest Risk Strategy
open Data (QualityRow Frame Pandas validateWalkForwardFrame Acceptable)

/-! ## The registries -/

/-- `_TRIALS`. -/
def registeredTrials : List TrialConfig :=
  [⟨"baseline", 200, 50, 20, 14, 25 / 10⟩,
    ⟨"ema_150", 150, 50, 20, 14, 25 / 10⟩,
    ⟨"ema_250", 250, 50, 20, 14, 25 / 10⟩,
    ⟨"entry_40", 200, 40, 20, 14, 25 / 10⟩,
    ⟨"entry_60", 200, 60, 20, 14, 25 / 10⟩,
    ⟨"exit_15", 200, 50, 15, 14, 25 / 10⟩,
    ⟨"exit_25", 200, 50, 25, 14, 25 / 10⟩,
    ⟨"stop_2_0", 200, 50, 20, 14, 2⟩,
    ⟨"stop_3_0", 200, 50, 20, 14, 3⟩]

/-- `_COST_SCENARIOS`. -/
def registeredCostScenarios : List CostScenario :=
  [⟨"zero", 0, 0⟩,
    ⟨"baseline", 5 / 10000, 5 / 10000⟩,
    ⟨"stress_10bps", 5 / 10000, 1 / 1000⟩,
    ⟨"stress_20bps", 5 / 10000, 2 / 1000⟩]

/-- `_TRIAL_IDS`. -/
def trialIds : List String :=
  ["baseline", "ema_150", "ema_250", "entry_40", "entry_60", "exit_15", "exit_25", "stop_2_0",
    "stop_3_0"]

/-- `_COST_IDS`. -/
def costIds : List String := ["zero", "baseline", "stress_10bps", "stress_20bps"]

/-- `_validate_registry`. -/
def validateRegistry (trials : List TrialConfig) (costs : List CostScenario) :
    Except Failure Unit := do
  let registeredIds := trials.map TrialConfig.trialId
  let scenarioIds := costs.map CostScenario.costId
  reject (registeredIds ≠ trialIds ∨ ¬registeredIds.Nodup)
    (.value "trial registry contains unknown or duplicate IDs")
  reject (scenarioIds ≠ costIds ∨ ¬scenarioIds.Nodup)
    (.value "cost registry contains unknown or duplicate IDs")
  reject (∃ cost ∈ costs, cost.feeRate < 0 ∨ cost.slippageRate < 0)
    (.value "cost registry values must be finite and nonnegative")

/-- One cell of the matrix. -/
structure MatrixCell where
  fold : FoldWindow
  trial : TrialConfig
  cost : CostScenario
  phase : Phase
  deriving DecidableEq, Repr

/-- The trials with each cost scenario, in the order of the loops. -/
def trialCosts : List (TrialConfig × CostScenario) :=
  registeredTrials.flatMap fun trial => registeredCostScenarios.map fun cost => (trial, cost)

/-- The cells of one fold. -/
def foldCells (fold : FoldWindow) : List MatrixCell :=
  trialCosts.flatMap fun pair => [.train, .oos].map fun phase => ⟨fold, pair.1, pair.2, phase⟩

/-- The cells of all folds, in the order of the loops. -/
def matrixCells (folds : List FoldWindow) : List MatrixCell := folds.flatMap foldCells

namespace MatrixCell

def key (cell : MatrixCell) : RunKey :=
  ⟨cell.fold.foldId, cell.phase, cell.trial.trialId, cell.cost.costId⟩

/-- `phase_index`. -/
def phaseIndex (cell : MatrixCell) : List ℤ :=
  match cell.phase with
  | .train => cell.fold.trainIndex
  | .oos => cell.fold.testIndex

/-- `phase_end`. -/
def phaseEnd (cell : MatrixCell) : ℤ :=
  match cell.phase with
  | .train => cell.fold.trainEnd
  | .oos => cell.fold.testEnd

/-- `strategy`. -/
def strategy (cell : MatrixCell) : IndicatorConfig where
  emaPeriod := cell.trial.emaPeriod
  entryPeriod := cell.trial.entryPeriod
  exitPeriod := cell.trial.exitPeriod
  atrPeriod := cell.trial.atrPeriod
  initialAtrMult := cell.trial.stopAtrMult

end MatrixCell

/-! ## The request of a cell -/

/-- The rows of an accepted frame as the indicators read them: without quality columns they are
one segment, valid for an entry and not flagged. -/
def walkForwardRows {Cell : Type} (pd : Pandas Cell) (frame : Frame Cell) : List QualityRow :=
  if frame.presentQuality = [] then
    (frame.index.values.reduceOption.zip (frame.ohlcv pd)).map fun row =>
      { time := row.1
        values := row.2
        isFilled := false
        isQuarantined := false
        anomalySpike := false
        anomalyFlat := false
        entryDataValid := true
        segmentId := 0 }
  else frame.rows pd

/-- What a backtest function answers to a request: the text of the exception that it raises,
with its type, something that is no `BacktestResult`, or a result. -/
inductive BacktestAnswer where
  | raised (error : String)
  | other
  | result (result : BacktestResult)
  deriving DecidableEq, Repr

/-- `f"{type(error).__name__}: {error}"` for the exceptions of the checks, which are all of the
first kind. -/
def errorText : Failure → String
  | .value message => "ValueError: " ++ message
  | .corruption message => "StoreCorruptionError: " ++ message
  | .store message => "StoreError: " ++ message
  | .leaseLost message => "CycleLeaseLostError: " ++ message
  | .idempotency message => "IdempotencyConflictError: " ++ message
  | .reconciliation message => "PaperReconciliationError: " ++ message
  | .health message => "HealthStateError: " ++ message
  | .service message => "PaperServiceError: " ++ message
  | .source message => "RuntimeError: " ++ message
  | .overflow message => "OverflowError: " ++ message
  | .attribute message => "AttributeError: " ++ message

/-- `WalkForwardResult`. -/
structure WalkForwardResult where
  runs : List WalkForwardRun
  stitchedOos : List StitchedOosResult
  deriving DecidableEq, Repr

section Matrix

variable (kernels : TrendKernels) (powers : Powers) (rows : List QualityRow)

/-- `enriched.reindex(phase_index)`: the candles of a phase with the indicators of the prefix
that ends before the phase end. -/
def reindexedPhase (cell : MatrixCell) : List (Option TrendRow) :=
  let context := rows.filter fun row => row.time < cell.phaseEnd
  let enriched := computeTrendIndicators kernels cell.strategy context
  cell.phaseIndex.map fun t => enriched.find? fun row => row.time = t

/-- `execution`: the available candles of a phase, numbered by the unavailable ones before. -/
def executionRows (cell : MatrixCell) : List ExecutionRow :=
  let execution := reindexedPhase kernels rows cell
  let unavailable := cumulative (execution.map fun row =>
    (!row.any fun row => row.values.isAvailable).toNat)
  (execution.zip unavailable).filterMap fun pair =>
    (pair.1.filter fun row => row.values.isAvailable).map fun row =>
      { row with executionSegmentId := pair.2 }

/-- The `BacktestRequest` of a cell. -/
def phaseRequest (cell : MatrixCell) : BacktestRequest where
  phase := cell.phase
  foldId := cell.fold.foldId
  trialId := cell.trial.trialId
  trial := cell.trial
  costId := cell.cost.costId
  cost := cell.cost
  frame := executionRows kernels rows cell
  config := {
    strategy := cell.strategy
    costs := ⟨cell.cost.feeRate, cell.cost.slippageRate⟩
    initialEquity := 100
    forceLiquidateAtEnd := true }
  initialEquity := 100
  initialState := .flat
  pendingOrders := 0

/-- `_request_for_phase`. -/
def requestForPhase (cell : MatrixCell) : Except Failure BacktestRequest := do
  reject (executionRows kernels rows cell = [])
    (.value "walk-forward phase has no executable quality segment")
  (phaseRequest kernels rows cell).postInit

/-- The `try` block of `_run_request`. -/
def measuredResult (request : BacktestRequest) :
    BacktestAnswer → Except String (BacktestResult × PerformanceMetrics)
  | .raised error => .error error
  | .other => .error (errorText (.value "backtest_fn must return BacktestResult"))
  | .result result => Except.mapError errorText do
    validateBacktestResult result request
    let metrics ← calculateMetrics powers {
      equityCurve := .points result.equityCurve
      trades := result.trades
      orders := result.orders
      totalFees := some result.totalFees
      totalSlippage := result.totalSlippage }
    return (result, metrics)

/-- `_run_request`, with what the backtest function answers. -/
def runRequest (request : BacktestRequest) (answer : BacktestAnswer) : WalkForwardRun :=
  match measuredResult powers request answer with
  | .error error =>
    { phase := request.phase
      foldId := request.foldId
      trialId := request.trialId
      costId := request.costId
      status := .failed
      result := none
      metrics := none
      error := some error }
  | .ok (result, metrics) =>
    { phase := request.phase
      foldId := request.foldId
      trialId := request.trialId
      costId := request.costId
      status := .completed
      result := some result
      metrics := some metrics }

variable (backtestFn : ℕ → BacktestRequest → BacktestAnswer)

/-- One round of the loops of `run_walk_forward`. The function may answer by the number of the
calls before. -/
def runCell (runs : List WalkForwardRun) (cell : MatrixCell) :
    Except Failure (List WalkForwardRun) := do
  let request ← requestForPhase kernels rows cell
  return runs ++ [runRequest powers request (backtestFn runs.length request)]

/-- `run_walk_forward` on the rows of a validated frame and validated folds. -/
def walkForwardMatrix (folds : List FoldWindow) : Except Failure WalkForwardResult := do
  validateRegistry registeredTrials registeredCostScenarios
  let runs ← (matrixCells folds).foldlM (runCell kernels powers rows backtestFn) []
  let stitchedOos ← trialCosts.mapM fun pair =>
    stitchOos powers runs pair.1.trialId pair.2.costId (folds.map FoldWindow.foldId)
  return { runs, stitchedOos }

end Matrix

/-- `run_walk_forward`, with a number of rounds for the loops over the folds. -/
def runWalkForward {Cell : Type} (pd : Pandas Cell) (kernels : TrendKernels) (powers : Powers)
    (fuel : ℕ) (frame : Frame Cell) (folds : List FoldWindow)
    (backtestFn : ℕ → BacktestRequest → BacktestAnswer) :
    ExceptT Failure Option WalkForwardResult := do
  let validatedFrame ← validateWalkForwardFrame pd frame
  let validatedFolds ← validatedFolds fuel validatedFrame.index.values.reduceOption folds
  walkForwardMatrix kernels powers (walkForwardRows pd validatedFrame) backtestFn validatedFolds

/-! ## The folds -/

/-- What the matrix needs of its folds: names of their own, and test windows on the grid that
follow each other. -/
structure SeparateFolds (folds : List FoldWindow) : Prop where
  distinct : (folds.map FoldWindow.foldId).Nodup
  named : ∀ fold ∈ folds, fold.foldId ≠ ""
  inside : ∀ fold ∈ folds, ∀ t ∈ fold.testIndex, fold.testStart ≤ t ∧ t < fold.testEnd
  aligned : ∀ fold ∈ folds, ∀ t ∈ fold.testIndex, t % Data.frequency = 0
  ordered : folds.Pairwise fun fold later => fold.testEnd ≤ later.testStart

/-- The identifier of a fold is not empty. -/
theorem foldId_ne_empty (number : ℕ) : foldId number ≠ "" := by
  intro h
  have htext := congrArg String.toList h
  simp [foldId] at htext

/-- The folds of a schedule are separate. -/
theorem Schedule.separate {config : WalkForwardConfig} {timestamps : List ℤ} {folds : List FoldWindow}
    {coverageStart coverageEnd firstTestStart : ℤ}
    (h : Schedule config timestamps coverageStart coverageEnd firstTestStart folds)
    (haligned : ∀ t ∈ timestamps, t % Data.frequency = 0) : SeparateFolds folds := by
  have hcorrect : ∀ fold ∈ folds, ∃ number,
      fold.Correct config timestamps coverageStart coverageEnd firstTestStart number := by
    intro fold hfold
    obtain ⟨number, hnumber⟩ := List.mem_iff_getElem?.mp hfold
    exact ⟨number, h.correct number fold hnumber⟩
  have hpairwise {R : FoldWindow → FoldWindow → Prop}
      (hR : ∀ earlier later fold next, earlier < later →
        fold.Correct config timestamps coverageStart coverageEnd firstTestStart earlier →
        next.Correct config timestamps coverageStart coverageEnd firstTestStart later →
        R fold next) : folds.Pairwise R := by
    rw [List.pairwise_iff_getElem]
    intro i j hi hj hlt
    exact hR i j _ _ hlt (h.correct i _ (List.getElem?_eq_getElem hi))
      (h.correct j _ (List.getElem?_eq_getElem hj))
  refine ⟨?_, ?_, ?_, ?_, ?_⟩
  · rw [List.Nodup, List.pairwise_map]
    apply hpairwise
    intro earlier later fold next hlt hfold hnext hsame
    rw [hfold.foldId, hnext.foldId] at hsame
    have heq := foldId_injective hsame
    omega
  · intro fold hfold
    obtain ⟨number, hnumber⟩ := hcorrect fold hfold
    rw [hnumber.foldId]
    exact foldId_ne_empty number
  · intro fold hfold t ht
    obtain ⟨number, hnumber⟩ := hcorrect fold hfold
    rw [hnumber.testIndex] at ht
    exact of_decide_eq_true (List.mem_filter.mp ht).2
  · intro fold hfold t ht
    obtain ⟨number, hnumber⟩ := hcorrect fold hfold
    rw [hnumber.testIndex] at ht
    exact haligned t (List.mem_of_mem_filter ht)
  · apply hpairwise
    intro earlier later fold next hlt hfold hnext
    rw [hfold.testEnd, hnext.testStart]
    exact testBoundary_mono hlt

/-- More rounds leave the folds that were built as they are. -/
theorem buildRollingFolds_within {fuel fuel' : ℕ} (h : fuel ≤ fuel') (index : TimeIndex)
    (config : WalkForwardConfig) :
    Within (buildRollingFolds fuel index config) (buildRollingFolds fuel' index config) := by
  unfold buildRollingFolds
  refine (Within.refl _).bind ?_
  rintro (_ | ⟨first, _ | ⟨second, rest⟩⟩)
  · exact Within.refl _
  · exact Within.refl _
  · refine (Within.refl _).bind fun coverageEnd => ?_
    have hfirst : Within (firstCompleteTrainEnd fuel first config)
        (firstCompleteTrainEnd fuel' first config) :=
      (Within.refl _).bind fun trainEnd => Within.whileTrue _ h trainEnd
    refine hfirst.bind fun firstTrainEnd => (Within.refl _).bind fun firstTestStart => ?_
    exact Within.whileTrue _ h _

/-- More rounds leave folds that were accepted as they are. -/
theorem validatedFolds_within {fuel fuel' : ℕ} (h : fuel ≤ fuel') (times : List ℤ)
    (folds : List FoldWindow) :
    Within (validatedFolds fuel times folds) (validatedFolds fuel' times folds) := by
  unfold validatedFolds
  refine (Within.refl _).bind fun _ => ?_
  exact (buildRollingFolds_within h _ _).bind fun _ => Within.refl _

/-- Folds that are accepted are the complete list for the default durations. -/
theorem validatedFolds_schedule {fuel : ℕ} {times : List ℤ} {folds validated : List FoldWindow}
    (h : (validatedFolds fuel times folds).run = some (.ok validated)) :
    validated = folds ∧ ∃ first rest trainEnd, times = first :: rest ∧
      validatedUtcCopy (.aware (times.map some)) = .ok times ∧
      IsFirstTrainEnd {} first trainEnd ∧
      Schedule {} times first (coverageEndOf first rest) (trainEnd + 5 * dayLength) folds := by
  obtain ⟨⟨⟩, hchecks, h⟩ := run_bind_eq_ok.mp h
  obtain ⟨canonical, hbuilt, h⟩ := run_bind_eq_ok.mp h
  have hcanonical := run_lift_eq_ok.mp h
  simp only [checkCanonical, Except.bind_eq_ok, reject_eq_ok, not_not, Except.pure_eq_ok]
    at hcanonical
  obtain ⟨-, rfl, rfl⟩ := hcanonical
  refine ⟨rfl, ?_⟩
  have hcopied : ∃ timestamps, validatedUtcCopy (.aware (times.map some)) = .ok timestamps := by
    obtain ⟨timestamps, hcopy, -⟩ := run_bind_eq_ok.mp hbuilt
    exact ⟨timestamps, run_lift_eq_ok.mp hcopy⟩
  obtain ⟨timestamps, hcopied⟩ := hcopied
  obtain rfl : times = timestamps := by
    simp only [validatedUtcCopy, Except.bind_eq_ok, reject_eq_ok, Except.pure_eq_ok,
      Data.reduceOption_map_some] at hcopied
    obtain ⟨-, -, -, -, -, -, -, -, -, -, -, -, rfl⟩ := hcopied
    rfl
  obtain ⟨-, -, haligned⟩ := validatedUtcCopy_eq_ok hcopied
  cases times with
  | nil =>
    -- no folds are built of an empty index, and none are refused
    have hnone : (buildRollingFolds fuel (.aware ([].map some)) {}).run = some (.ok []) := by
      rw [buildRollingFolds, hcopied]
      rfl
    rw [hbuilt] at hnone
    cases hnone
    have hrefused := run_lift_eq_ok.mp hchecks
    cases hrefused
  | cons first rest =>
    obtain ⟨trainEnd, hfirst, hnear⟩ := exists_first_train_end {} (haligned first (by simp))
    obtain ⟨outcome, hrun, houtcome⟩ := buildRollingFolds_ends hcopied hfirst hnear
      (Nat.le_add_left (7 + (coverageEndOf first rest - first).toNat) fuel)
    have hsame := buildRollingFolds_within
      (Nat.le_add_right fuel (7 + (coverageEndOf first rest - first).toNat))
      (.aware ((first :: rest).map some)) {} _ hbuilt
    rw [hrun] at hsame
    cases hsame
    rcases houtcome with ⟨folds, hfolds, hschedule⟩ | ⟨herror, -⟩
    · cases hfolds
      exact ⟨first, rest, trainEnd, rfl, hcopied, hfirst, hschedule⟩
    · cases herror

/-- The validation of folds ends. -/
theorem validatedFolds_ends (times : List ℤ) (folds : List FoldWindow) : ∃ enough, ∀ fuel,
    enough ≤ fuel → Ends (validatedFolds fuel times folds) fun _ => True := by
  have hbuild : ∃ enough, ∀ fuel, enough ≤ fuel →
      Ends (buildRollingFolds fuel (.aware (times.map some)) {}) fun _ => True := by
    cases hcopied : validatedUtcCopy (.aware (times.map some)) with
    | error e =>
      refine ⟨0, fun fuel _ => ⟨.error e, ?_, trivial⟩⟩
      rw [buildRollingFolds, hcopied]
      rfl
    | ok timestamps =>
      cases timestamps with
      | nil =>
        refine ⟨0, fun fuel _ => ⟨.ok [], ?_, trivial⟩⟩
        rw [buildRollingFolds, hcopied]
        rfl
      | cons first rest =>
        obtain ⟨-, -, haligned⟩ := validatedUtcCopy_eq_ok hcopied
        obtain ⟨trainEnd, hfirst, hnear⟩ := exists_first_train_end {} (haligned first (by simp))
        refine ⟨7 + (coverageEndOf first rest - first).toNat, fun fuel hfuel => ?_⟩
        exact (buildRollingFolds_ends hcopied hfirst hnear hfuel).imp fun _ _ => trivial
  obtain ⟨enough, hbuild⟩ := hbuild
  refine ⟨enough, fun fuel hfuel => ?_⟩
  have hchecks : Ends (liftM (checkFolds times folds) : ExceptT Failure Option Unit)
      fun _ => True := Ends.lift trivial
  refine hchecks.bind (fun _ _ => ?_) fun _ _ => trivial
  refine (hbuild fuel hfuel).bind (fun canonical _ => Ends.lift trivial) fun _ _ => trivial

/-! ## The rows of the matrix -/

section

variable (kernels : TrendKernels) (powers : Powers) (rows : List QualityRow)
  (backtestFn : ℕ → BacktestRequest → BacktestAnswer)

/-- The row of a cell, with what the function answers to the call of that number. -/
def matrixRow (entry : MatrixCell × ℕ) : WalkForwardRun :=
  runRequest powers (phaseRequest kernels rows entry.1)
    (backtestFn entry.2 (phaseRequest kernels rows entry.1))

/-- The rows of all cells. -/
def matrixRuns (folds : List FoldWindow) : List WalkForwardRun :=
  (matrixCells folds).zipIdx.map (matrixRow kernels powers rows backtestFn)

end

section

variable {kernels : TrendKernels} {powers : Powers} {rows : List QualityRow}
  {backtestFn : ℕ → BacktestRequest → BacktestAnswer} {folds : List FoldWindow}

/-- The cells of the matrix are the folds with each trial and cost. -/
theorem mem_matrixCells {cell : MatrixCell} : cell ∈ matrixCells folds ↔
    cell.fold ∈ folds ∧ (cell.trial, cell.cost) ∈ trialCosts := by
  constructor
  · intro h
    obtain ⟨fold, hfold, hcell⟩ := List.mem_flatMap.mp h
    obtain ⟨pair, hpair, hphase⟩ := List.mem_flatMap.mp hcell
    obtain ⟨phase, -, rfl⟩ := List.mem_map.mp hphase
    exact ⟨hfold, hpair⟩
  · rintro ⟨hfold, hpair⟩
    refine List.mem_flatMap.mpr ⟨cell.fold, hfold, List.mem_flatMap.mpr ⟨_, hpair, ?_⟩⟩
    refine List.mem_map.mpr ⟨cell.phase, ?_, rfl⟩
    cases cell.phase <;> simp

/-- The folds of the cells have names. -/
theorem SeparateFolds.cells_named (h : SeparateFolds folds) :
    ∀ cell ∈ matrixCells folds, cell.fold.foldId ≠ "" := by
  intro cell hcell
  exact h.named _ (mem_matrixCells.mp hcell).1

/-- A request of a cell with executable candles passes its own checks. -/
theorem requestForPhase_eq_ok {cell : MatrixCell} (hnamed : cell.fold.foldId ≠ "")
    (hexecutable : executionRows kernels rows cell ≠ []) :
    requestForPhase kernels rows cell = .ok (phaseRequest kernels rows cell) := by
  simp [requestForPhase, BacktestRequest.postInit, phaseRequest, hnamed, hexecutable, reject,
    Except.bind_eq_ok]

/-- A phase without rows has no request. -/
theorem requestForPhase_eq_error {cell : MatrixCell}
    (hempty : executionRows kernels rows cell = []) : requestForPhase kernels rows cell =
      .error (.value "walk-forward phase has no executable quality segment") := by
  rw [requestForPhase, Except.bind_eq_error]
  exact .inl (reject_eq_error.mpr ⟨hempty, rfl⟩)

/-- The loops leave one row for each cell, when every cell has executable candles. -/
theorem foldlM_runCell {cells : List MatrixCell} (done : List WalkForwardRun)
    (hnamed : ∀ cell ∈ cells, cell.fold.foldId ≠ "")
    (hexecutable : ∀ cell ∈ cells, executionRows kernels rows cell ≠ []) :
    cells.foldlM (runCell kernels powers rows backtestFn) done =
      .ok (done ++ (cells.zipIdx done.length).map (matrixRow kernels powers rows backtestFn)) := by
  induction cells generalizing done with
  | nil => simp [pure, Except.pure]
  | cons cell cells ih =>
    have hrequest := requestForPhase_eq_ok (hnamed cell List.mem_cons_self)
      (hexecutable cell List.mem_cons_self)
    rw [List.foldlM_cons, Except.bind_eq_ok]
    refine ⟨_, Except.bind_eq_ok.mpr ⟨_, hrequest, rfl⟩, ?_⟩
    rw [ih _ (fun cell h => hnamed cell (List.mem_cons_of_mem _ h))
      (fun cell h => hexecutable cell (List.mem_cons_of_mem _ h))]
    rw [List.zipIdx_cons, List.map_cons, List.append_assoc, List.length_append]
    rfl

/-- They raise when a cell has none. -/
theorem foldlM_runCell_error {cells : List MatrixCell} (done : List WalkForwardRun)
    (hnamed : ∀ cell ∈ cells, cell.fold.foldId ≠ "") {cell : MatrixCell} (hcell : cell ∈ cells)
    (hempty : executionRows kernels rows cell = []) :
    cells.foldlM (runCell kernels powers rows backtestFn) done =
      .error (.value "walk-forward phase has no executable quality segment") := by
  induction cells generalizing done with
  | nil => cases hcell
  | cons first cells ih =>
    rw [List.foldlM_cons, Except.bind_eq_error]
    by_cases hfirst : executionRows kernels rows first = []
    · exact .inl (Except.bind_eq_error.mpr (.inl (requestForPhase_eq_error hfirst)))
    · have hrequest := requestForPhase_eq_ok (hnamed first List.mem_cons_self) hfirst
      have hlater : cell ∈ cells := by
        rcases List.mem_cons.mp hcell with rfl | hlater
        · exact absurd hempty hfirst
        · exact hlater
      refine .inr ⟨_, Except.bind_eq_ok.mpr ⟨_, hrequest, rfl⟩, ?_⟩
      exact ih _ (fun cell h => hnamed cell (List.mem_cons_of_mem _ h)) hlater

/-- A run has the key of its request. -/
theorem runRequest_key (request : BacktestRequest) (answer : BacktestAnswer) :
    (runRequest powers request answer).key =
      ⟨request.foldId, request.phase, request.trialId, request.costId⟩ := by
  unfold runRequest
  split <;> rfl

/-- A completed row holds the result that the function gave and the checks accepted. -/
theorem runRequest_completed {request : BacktestRequest} {answer : BacktestAnswer}
    (h : (runRequest powers request answer).status = .completed) : ∃ result,
      answer = .result result ∧ validateBacktestResult result request = .ok () ∧
      (runRequest powers request answer).result = some result := by
  unfold runRequest at h ⊢
  split at h
  · cases h
  · next result metrics hmeasured =>
    cases answer with
    | raised error => cases hmeasured
    | other => cases hmeasured
    | result given =>
      obtain ⟨⟨⟩, hvalid, hrest⟩ := Except.bind_eq_ok.mp (Except.mapError_eq_ok.mp hmeasured)
      obtain ⟨_, -, hpair⟩ := Except.bind_eq_ok.mp hrest
      cases hpair
      exact ⟨result, rfl, hvalid, rfl⟩

/-- A failed row holds the text of an exception and no result. -/
theorem runRequest_failed {request : BacktestRequest} {answer : BacktestAnswer}
    (h : (runRequest powers request answer).status ≠ .completed) :
    (runRequest powers request answer).result = none ∧
      (runRequest powers request answer).error.isSome = true := by
  unfold runRequest at h ⊢
  split at h
  · exact ⟨rfl, rfl⟩
  · exact absurd rfl h

/-- A row has the key of its cell. -/
theorem matrixRow_key (entry : MatrixCell × ℕ) :
    (matrixRow kernels powers rows backtestFn entry).key = entry.1.key := runRequest_key _ _

/-- The rows have the keys of the cells in their order. -/
theorem matrixRuns_keys : (matrixRuns kernels powers rows backtestFn folds).map WalkForwardRun.key =
    (matrixCells folds).map MatrixCell.key := by
  have hkeys : WalkForwardRun.key ∘ matrixRow kernels powers rows backtestFn =
      MatrixCell.key ∘ Prod.fst := funext matrixRow_key
  rw [matrixRuns, List.map_map, hkeys, ← List.map_map, List.zipIdx_map_fst]

/-- The phase, trial and cost scenario of each cell of a fold. -/
def cellTags : List (Phase × String × String) :=
  trialCosts.flatMap fun pair => [.train, .oos].map fun phase =>
    (phase, pair.1.trialId, pair.2.costId)

/-- The cells of a fold have its tags. -/
theorem foldCells_keys (fold : FoldWindow) : (foldCells fold).map MatrixCell.key =
    cellTags.map fun tag => ⟨fold.foldId, tag.1, tag.2.1, tag.2.2⟩ := by
  rw [foldCells, cellTags, List.map_flatMap, List.map_flatMap]
  rfl

/-- The tags of the cells are distinct. -/
theorem cellTags_nodup : cellTags.Nodup := by decide +kernel

/-- Separate folds have cells with distinct keys. -/
theorem matrixCells_keys_nodup (h : (folds.map FoldWindow.foldId).Nodup) :
    ((matrixCells folds).map MatrixCell.key).Nodup := by
  rw [matrixCells, List.map_flatMap, List.nodup_flatMap]
  constructor
  · intro fold _
    rw [foldCells_keys]
    refine cellTags_nodup.map ?_
    rintro ⟨_, _, _⟩ ⟨_, _, _⟩ hsame
    cases hsame
    rfl
  · refine (List.pairwise_map.mp h).imp ?_
    intro fold later hne key hkey hlater
    dsimp only at hkey hlater
    rw [foldCells_keys] at hkey hlater
    obtain ⟨_, -, rfl⟩ := List.mem_map.mp hkey
    obtain ⟨_, -, hsame⟩ := List.mem_map.mp hlater
    exact hne (congrArg RunKey.foldId hsame).symm

/-- Of rows with keys of their own every one is kept. -/
theorem keyedRuns_of_nodup {runs : List WalkForwardRun}
    (h : (runs.map WalkForwardRun.key).Nodup) : keyedRuns runs = runs := by
  induction runs with
  | nil => rfl
  | cons run runs ih =>
    obtain ⟨hnew, hrest⟩ := List.nodup_cons.mp h
    rw [keyedRuns, if_neg hnew, ih hrest]

/-- A run is found under its key exactly when it is one of the runs. -/
theorem keyedGet_eq_some {runs : List WalkForwardRun} (h : (runs.map WalkForwardRun.key).Nodup)
    {key : RunKey} {run : WalkForwardRun} :
    keyedGet runs key = some run ↔ run ∈ runs ∧ run.key = key := by
  rw [keyedGet, keyedRuns_of_nodup h]
  constructor
  · intro hfind
    exact ⟨List.mem_of_find?_eq_some hfind, by simpa using List.find?_some hfind⟩
  · rintro ⟨hrun, rfl⟩
    cases hfind : runs.find? fun other => other.key = run.key with
    | none => simpa using List.find?_eq_none.mp hfind run hrun
    | some other =>
      have hother : other.key = run.key := by simpa using List.find?_some hfind
      rw [List.inj_on_of_nodup_map h (List.mem_of_find?_eq_some hfind) hrun hother]

/-- The rows of a cell lie in its phase. -/
theorem executionRows_time {cell : MatrixCell} {row : ExecutionRow}
    (h : row ∈ executionRows kernels rows cell) : row.time ∈ cell.phaseIndex := by
  obtain ⟨⟨found, segment⟩, hpair, hrow⟩ := List.mem_filterMap.mp h
  obtain ⟨trend, htrend, rfl⟩ := Option.map_eq_some_iff.mp hrow
  obtain ⟨hfound, -⟩ := Option.filter_eq_some_iff.mp htrend
  obtain ⟨t, ht, hfind⟩ := List.mem_map.mp (List.of_mem_zip hpair).1
  dsimp only at hfound
  rw [hfound] at hfind
  have htime : trend.time = t := by simpa using List.find?_some hfind
  rwa [← htime] at ht

/-- A phase with an available candle is executable. -/
theorem executionRows_ne_nil {cell : MatrixCell} {row : TrendRow}
    (hrow : some row ∈ reindexedPhase kernels rows cell)
    (havailable : row.values.isAvailable = true) : executionRows kernels rows cell ≠ [] := by
  set execution := reindexedPhase kernels rows cell with hexecution
  set unavailable := cumulative (execution.map fun row =>
    (!row.any fun row => row.values.isAvailable).toNat) with hunavailable
  have hlength : unavailable.length = execution.length := by
    rw [hunavailable, cumulative_causal.length, List.length_map]
  have hmem : some row ∈ (execution.zip unavailable).map Prod.fst := by
    rwa [List.map_fst_zip hlength.ge]
  obtain ⟨⟨_, segment⟩, hpair, rfl⟩ := List.mem_map.mp hmem
  have hexecuted : (⟨row, segment⟩ : ExecutionRow) ∈ executionRows kernels rows cell := by
    refine List.mem_filterMap.mpr ⟨_, hpair, ?_⟩
    dsimp only
    rw [Option.filter_some, if_pos havailable]
    rfl
  exact List.ne_nil_of_mem hexecuted

/-- A candle of a phase, before its end, is reindexed to a row of the frame. -/
theorem exists_mem_reindexedPhase {cell : MatrixCell} {row : QualityRow}
    (hema : Causal (indicatorSeries (kernels.ema cell.strategy.emaPeriod)))
    (hatr : Causal (indicatorSeries (kernels.atr cell.strategy.atrPeriod)))
    (hrow : row ∈ rows) (hphase : row.time ∈ cell.phaseIndex) (hbefore : row.time < cell.phaseEnd) :
    ∃ trend, some trend ∈ reindexedPhase kernels rows cell ∧ trend.toQualityRow ∈ rows := by
  set context := rows.filter fun row => row.time < cell.phaseEnd with hcontext
  have hmem : row ∈ context := List.mem_filter.mpr ⟨hrow, decide_eq_true hbefore⟩
  rw [← trend_rows hema hatr context] at hmem
  obtain ⟨trend, htrend, htime⟩ := List.mem_map.mp hmem
  cases hfind : (computeTrendIndicators kernels cell.strategy context).find?
      fun other => other.time = row.time with
  | none =>
    have hother := List.find?_eq_none.mp hfind trend htrend
    rw [← htime] at hother
    simp at hother
  | some found =>
    have hfound := mem_of_trend (List.mem_of_find?_eq_some hfind)
    exact ⟨found, List.mem_map.mpr ⟨row.time, hphase, hfind⟩, List.mem_of_mem_filter hfound⟩

variable (hfolds : SeparateFolds folds)
include hfolds

/-- The rows have distinct keys. -/
theorem matrixRuns_keys_nodup :
    ((matrixRuns kernels powers rows backtestFn folds).map WalkForwardRun.key).Nodup := by
  rw [matrixRuns_keys]
  exact matrixCells_keys_nodup hfolds.distinct

omit hfolds in
/-- A completed row comes from a cell whose request its result was accepted for. -/
theorem completed_readable {run : WalkForwardRun}
    (hrun : run ∈ matrixRuns kernels powers rows backtestFn folds) (h : run.status = .completed) :
    ∃ cell ∈ matrixCells folds, run.key = cell.key ∧ ∃ result, run.result = some result ∧
      validateBacktestResult result (phaseRequest kernels rows cell) = .ok () ∧
      Readable result (phaseRequest kernels rows cell) := by
  obtain ⟨⟨cell, number⟩, hentry, rfl⟩ := List.mem_map.mp hrun
  obtain ⟨result, -, hvalid, hresult⟩ := runRequest_completed h
  have hcell : cell ∈ matrixCells folds := by
    rw [← List.zipIdx_map_fst 0 (matrixCells folds)]
    exact List.mem_map_of_mem (f := Prod.fst) hentry
  refine ⟨cell, hcell, matrixRow_key _, result, hresult, hvalid, ?_⟩
  refine validateBacktestResult_readable ?_ hvalid
  norm_num [phaseRequest, reconciliationTolerance]

/-- The test result of a fold is readable for a request on the test window of that fold. -/
theorem oosResult_readable {fold : FoldWindow} (hfold : fold ∈ folds) {trialId costId : String}
    {result : BacktestResult}
    (h : oosResult (matrixRuns kernels powers rows backtestFn folds) trialId costId fold.foldId =
      some result) : ∃ cell ∈ matrixCells folds, cell.fold = fold ∧ cell.phase = .oos ∧
      Readable result (phaseRequest kernels rows cell) := by
  obtain ⟨hresult, -⟩ := Option.filter_eq_some_iff.mp h
  obtain ⟨run, hrun, hresult⟩ := Option.bind_eq_some_iff.mp hresult
  obtain ⟨hget, hstatus⟩ := Option.filter_eq_some_iff.mp hrun
  obtain ⟨hmem, hkey⟩ := (keyedGet_eq_some (matrixRuns_keys_nodup hfolds)).mp hget
  obtain ⟨cell, hcell, hsame, given, hgiven, -, hreadable⟩ :=
    completed_readable hmem (of_decide_eq_true hstatus)
  rw [hresult] at hgiven
  cases hgiven
  rw [hkey] at hsame
  have hid : cell.fold.foldId = fold.foldId := (congrArg RunKey.foldId hsame).symm
  have hphase : cell.phase = .oos := (congrArg RunKey.phase hsame).symm
  refine ⟨cell, hcell, ?_, hphase, hreadable⟩
  exact List.inj_on_of_nodup_map hfolds.distinct (mem_matrixCells.mp hcell).1 hfold hid

omit hfolds in
/-- A test curve lies in the test window of its fold. -/
theorem Readable.window {cell : MatrixCell} (hphase : cell.phase = .oos) {result : BacktestResult}
    (h : Readable result (phaseRequest kernels rows cell)) :
    ∀ point ∈ result.equityCurve, ∃ t ∈ cell.fold.testIndex, point.timestamp = t / 1000 := by
  intro point hpoint
  obtain ⟨row, hrow, htime⟩ := List.mem_map.mp (h.inside point hpoint)
  have hmem := executionRows_time hrow
  rw [MatrixCell.phaseIndex, hphase] at hmem
  exact ⟨row.time, hmem, htime.symm⟩

/-- The completed rows of a trial and a cost scenario are fit for stitching, whatever the
backtest function has answered. -/
theorem matrixRuns_evidence (trialId costId : String) : StitchEvidence
    (matrixRuns kernels powers rows backtestFn folds) trialId costId
    (folds.map FoldWindow.foldId) := by
  have hresults : ∀ result ∈ completedResults (matrixRuns kernels powers rows backtestFn folds)
      trialId costId (folds.map FoldWindow.foldId),
      ∃ request, Readable result request := by
    intro result hresult
    obtain ⟨id, hid, hoos⟩ := List.mem_filterMap.mp hresult
    obtain ⟨fold, hfold, rfl⟩ := List.mem_map.mp hid
    obtain ⟨cell, -, -, -, hreadable⟩ := oosResult_readable hfolds hfold hoos
    exact ⟨_, hreadable⟩
  refine ⟨?_, ?_, ?_, ?_⟩
  · intro result hresult
    obtain ⟨request, hreadable⟩ := hresults result hresult
    exact hreadable.curve
  · rw [completedCurves, List.pairwise_flatten]
    constructor
    · intro points hpoints
      obtain ⟨result, hresult, rfl⟩ := List.mem_map.mp hpoints
      obtain ⟨request, hreadable⟩ := hresults result hresult
      exact hreadable.curve.ordered
    · rw [List.pairwise_map, completedResults, List.pairwise_filterMap, List.pairwise_map]
      refine hfolds.ordered.imp_of_mem ?_
      intro fold later hfold hlater hbefore result hresult next hnext point hpoint nextPoint hnextPoint
      obtain ⟨cell, -, rfl, hphase, hreadable⟩ := oosResult_readable hfolds hfold hresult
      obtain ⟨nextCell, -, rfl, hnextPhase, hnextReadable⟩ :=
        oosResult_readable hfolds hlater hnext
      obtain ⟨t, ht, htime⟩ := hreadable.window hphase point hpoint
      obtain ⟨u, hu, hutime⟩ := hnextReadable.window hnextPhase nextPoint hnextPoint
      have hinside := hfolds.inside _ hfold t ht
      have hnextInside := hfolds.inside _ hlater u hu
      have haligned := hfolds.aligned _ hfold t ht
      have hnextAligned := hfolds.aligned _ hlater u hu
      unfold Data.frequency at haligned hnextAligned
      omega
  · intro result hresult
    obtain ⟨request, hreadable⟩ := hresults result hresult
    exact hreadable.trades
  · intro run hrun result hresult
    by_cases hstatus : run.status = .completed
    · obtain ⟨cell, -, -, given, hgiven, -, hreadable⟩ := completed_readable hrun hstatus
      rw [Option.mem_def.mp hresult] at hgiven
      cases hgiven
      exact hreadable.slippage
    · obtain ⟨entry, -, rfl⟩ := List.mem_map.mp hrun
      rw [matrixRow, (runRequest_failed hstatus).1] at hresult
      cases hresult

end

/-! ## The stitched results -/

/-- The test curve of a completed row of a trial and a cost scenario. -/
def testCurve (trialId costId : String) (run : WalkForwardRun) : Option (List EquityPoint) :=
  if run.phase = .oos ∧ run.trialId = trialId ∧ run.costId = costId ∧ run.status = .completed then
    run.result.map BacktestResult.equityCurve
  else none

/-- What a stitched result says of the rows. -/
structure StitchedRows (runs : List WalkForwardRun) (folds : List FoldWindow)
    (pair : TrialConfig × CostScenario) (stitched : StitchedOosResult) : Prop where
  trialId : stitched.trialId = pair.1.trialId
  costId : stitched.costId = pair.2.costId
  complete_iff : stitched.status = .complete ↔ ∀ run ∈ runs, run.trialId = pair.1.trialId →
    run.costId = pair.2.costId → run.status = .completed
  curve : stitched.equityCurve =
    stitchedCurve (runs.filterMap (testCurve pair.1.trialId pair.2.costId))
  returns : stitched.returns =
    (runs.filterMap (testCurve pair.1.trialId pair.2.costId)).flatMap foldReturns
  ordered : stitched.equityCurve.Pairwise fun point later => point.timestamp < later.timestamp
  inside : ∀ point ∈ stitched.equityCurve, ∃ fold ∈ folds, ∃ t ∈ fold.testIndex,
    point.timestamp = t / 1000
  last : ∀ point ∈ stitched.equityCurve.getLast?, point.equity =
    100 * ((runs.filterMap (testCurve pair.1.trialId pair.2.costId)).map growth).prod

section

variable {kernels : TrendKernels} {powers : Powers} {rows : List QualityRow}
  {backtestFn : ℕ → BacktestRequest → BacktestAnswer} {folds : List FoldWindow}

/-- Each registered pair has one tag for its test. -/
theorem cellTags_of_pair : ∀ pair ∈ trialCosts, cellTags.filter (fun tag =>
    tag.1 = .oos ∧ tag.2.1 = pair.1.trialId ∧ tag.2.2 = pair.2.costId) =
      [(.oos, pair.1.trialId, pair.2.costId)] := by
  decide +kernel

/-- The test rows of a registered trial and cost scenario are one for each fold, in order. -/
theorem matrixRuns_of_pair {pair : TrialConfig × CostScenario} (hpair : pair ∈ trialCosts) :
    ((matrixRuns kernels powers rows backtestFn folds).filter fun run =>
      run.phase = .oos ∧ run.trialId = pair.1.trialId ∧ run.costId = pair.2.costId).map
        WalkForwardRun.key =
      folds.map fun fold => ⟨fold.foldId, .oos, pair.1.trialId, pair.2.costId⟩ := by
  have hfilter : ((matrixRuns kernels powers rows backtestFn folds).filter fun run =>
      run.phase = .oos ∧ run.trialId = pair.1.trialId ∧ run.costId = pair.2.costId).map
        WalkForwardRun.key =
      ((matrixRuns kernels powers rows backtestFn folds).map WalkForwardRun.key).filter fun key =>
        key.phase = .oos ∧ key.trialId = pair.1.trialId ∧ key.costId = pair.2.costId := by
    rw [List.filter_map]
    rfl
  rw [hfilter, matrixRuns_keys, matrixCells, List.map_flatMap, List.filter_flatMap,
    List.map_eq_flatMap]
  congr 1
  funext fold
  rw [foldCells_keys, List.filter_map]
  have htags := cellTags_of_pair pair hpair
  simp only [Function.comp_def]
  rw [htags]
  rfl

variable (hfolds : SeparateFolds folds)
include hfolds

/-- The curves that are stitched are those of the completed rows. -/
theorem completedCurves_matrixRuns {pair : TrialConfig × CostScenario} (hpair : pair ∈ trialCosts) :
    completedCurves (matrixRuns kernels powers rows backtestFn folds) pair.1.trialId pair.2.costId
      (folds.map FoldWindow.foldId) =
    (matrixRuns kernels powers rows backtestFn folds).filterMap
      (testCurve pair.1.trialId pair.2.costId) := by
  set runs := matrixRuns kernels powers rows backtestFn folds with hruns
  set testRuns := runs.filter fun run =>
    run.phase = .oos ∧ run.trialId = pair.1.trialId ∧ run.costId = pair.2.costId with htestRuns
  have htestKeys : testRuns.map WalkForwardRun.key =
      folds.map fun fold => ⟨fold.foldId, .oos, pair.1.trialId, pair.2.costId⟩ :=
    matrixRuns_of_pair hpair
  have hids : folds.map FoldWindow.foldId = testRuns.map WalkForwardRun.foldId := by
    have hkeys := congrArg (List.map RunKey.foldId) htestKeys
    rw [List.map_map, List.map_map] at hkeys
    exact hkeys.symm
  have hselected : runs.filterMap (testCurve pair.1.trialId pair.2.costId) =
      testRuns.filterMap (testCurve pair.1.trialId pair.2.costId) := by
    rw [htestRuns, List.filterMap_filter]
    apply List.filterMap_congr
    intro run _
    split_ifs with htest
    · rfl
    · rw [testCurve, if_neg]
      rintro ⟨hphase, htrial, hcost, -⟩
      exact htest (by simp [hphase, htrial, hcost])
  rw [completedCurves, completedResults, hids, hselected, List.filterMap_map, List.map_filterMap]
  apply List.filterMap_congr
  intro run hrun
  obtain ⟨hmem, htest⟩ := List.mem_filter.mp hrun
  obtain ⟨hphase, htrial, hcost⟩ := of_decide_eq_true htest
  have hget : keyedGet runs ⟨run.foldId, .oos, pair.1.trialId, pair.2.costId⟩ = some run := by
    refine (keyedGet_eq_some (matrixRuns_keys_nodup hfolds)).mpr ⟨hmem, ?_⟩
    rw [WalkForwardRun.key, hphase, htrial, hcost]
  rw [Function.comp_apply, oosResult, hget, testCurve]
  by_cases hstatus : run.status = .completed
  · obtain ⟨cell, -, -, result, hresult, -, hreadable⟩ := completed_readable hmem hstatus
    have hcompleted : completedResult (some run) = some result := by
      rw [completedResult, Option.filter_eq_some_iff, Option.bind_eq_some_iff]
      refine ⟨⟨run, ?_, hresult⟩, decide_eq_true hreadable.nonempty⟩
      exact Option.filter_eq_some_iff.mpr ⟨rfl, decide_eq_true hstatus⟩
    rw [if_pos ⟨hphase, htrial, hcost, hstatus⟩, hcompleted, hresult]
  · have hnone : completedResult (some run) = none := by
      rw [completedResult, Option.filter_some, if_neg (by simpa using hstatus)]
      rfl
    rw [if_neg fun h => hstatus h.2.2.2, hnone]
    rfl

/-- A stitched result is complete exactly when all rows of the trial and the cost scenario are. -/
theorem stitched_complete_iff {pair : TrialConfig × CostScenario} (hpair : pair ∈ trialCosts) :
    (stitched (matrixRuns kernels powers rows backtestFn folds) pair.1.trialId pair.2.costId
      (folds.map FoldWindow.foldId)).complete = true ↔
    ∀ run ∈ matrixRuns kernels powers rows backtestFn folds, run.trialId = pair.1.trialId →
      run.costId = pair.2.costId → run.status = .completed := by
  set runs := matrixRuns kernels powers rows backtestFn folds with hruns
  have hnodup : (runs.map WalkForwardRun.key).Nodup := matrixRuns_keys_nodup hfolds
  have hkeys : runs.map WalkForwardRun.key = (matrixCells folds).map MatrixCell.key :=
    matrixRuns_keys
  simp only [stitched, List.all_eq_true, ← completeFold_iff]
  constructor
  · intro hall run hrun htrial hcost
    have hkey : run.key ∈ (matrixCells folds).map MatrixCell.key := by
      rw [← hkeys]
      exact List.mem_map_of_mem hrun
    obtain ⟨cell, hcell, hsame⟩ := List.mem_map.mp hkey
    have hfold : run.foldId ∈ folds.map FoldWindow.foldId := by
      have hid : cell.fold.foldId = run.foldId := congrArg RunKey.foldId hsame
      rw [← hid]
      exact List.mem_map_of_mem (mem_matrixCells.mp hcell).1
    obtain ⟨⟨train, htrain, htrainStatus⟩, oos, result, hoos, hoosStatus, -⟩ := hall _ hfold
    cases hphase : run.phase with
    | train =>
      have hget := (keyedGet_eq_some hnodup).mpr ⟨hrun, rfl⟩
      rw [WalkForwardRun.key, hphase, htrial, hcost, htrain] at hget
      cases hget
      exact htrainStatus
    | oos =>
      have hget := (keyedGet_eq_some hnodup).mpr ⟨hrun, rfl⟩
      rw [WalkForwardRun.key, hphase, htrial, hcost, hoos] at hget
      cases hget
      exact hoosStatus
  · intro hall id hid
    obtain ⟨fold, hfold, rfl⟩ := List.mem_map.mp hid
    have hrow : ∀ phase, ∃ run ∈ runs, keyedGet runs
        ⟨fold.foldId, phase, pair.1.trialId, pair.2.costId⟩ = some run ∧
        run.status = .completed := by
      intro phase
      have hcell : (⟨fold, pair.1, pair.2, phase⟩ : MatrixCell) ∈ matrixCells folds :=
        mem_matrixCells.mpr ⟨hfold, hpair⟩
      have hkey := List.mem_map_of_mem (f := MatrixCell.key) hcell
      rw [← hkeys] at hkey
      obtain ⟨run, hrun, hsame⟩ := List.mem_map.mp hkey
      exact ⟨run, hrun, (keyedGet_eq_some hnodup).mpr ⟨hrun, hsame⟩,
        hall run hrun (congrArg RunKey.trialId hsame) (congrArg RunKey.costId hsame)⟩
    obtain ⟨train, -, htrain, htrainStatus⟩ := hrow .train
    obtain ⟨oos, hrun, hoos, hoosStatus⟩ := hrow .oos
    obtain ⟨cell, -, -, result, hresult, -, hreadable⟩ := completed_readable hrun hoosStatus
    exact ⟨⟨train, htrain, htrainStatus⟩, oos, result, hoos, hoosStatus, hresult,
      hreadable.nonempty⟩

/-- Stitching the rows of a trial and a cost scenario can only fail to be finite. -/
theorem stitchOos_matrixRuns_raises (pair : TrialConfig × CostScenario) :
    RaisesOnly nonfiniteFailures (stitchOos powers (matrixRuns kernels powers rows backtestFn folds)
      pair.1.trialId pair.2.costId (folds.map FoldWindow.foldId)) :=
  stitchOos_raises powers (matrixRuns_evidence hfolds _ _)

/-- What is stitched of a registered trial and cost scenario are its rows. -/
theorem stitchOos_matrixRuns {pair : TrialConfig × CostScenario} (hpair : pair ∈ trialCosts)
    {stitched : StitchedOosResult}
    (h : stitchOos powers (matrixRuns kernels powers rows backtestFn folds) pair.1.trialId
      pair.2.costId (folds.map FoldWindow.foldId) = .ok stitched) :
    StitchedRows (matrixRuns kernels powers rows backtestFn folds) folds pair stitched := by
  set runs := matrixRuns kernels powers rows backtestFn folds with hruns
  have hevidence : StitchEvidence runs pair.1.trialId pair.2.costId
      (folds.map FoldWindow.foldId) := matrixRuns_evidence hfolds _ _
  have hcurves : completedCurves runs pair.1.trialId pair.2.costId
      (folds.map FoldWindow.foldId) = runs.filterMap (testCurve pair.1.trialId pair.2.costId) :=
    completedCurves_matrixRuns hfolds hpair
  have hfoldCurves : ∀ points ∈ completedCurves runs pair.1.trialId pair.2.costId
      (folds.map FoldWindow.foldId), FoldCurve points := by
    intro points hpoints
    obtain ⟨result, hresult, rfl⟩ := List.mem_map.mp hpoints
    exact hevidence.curves result hresult
  have hnonempty : ∀ points ∈ completedCurves runs pair.1.trialId pair.2.costId
      (folds.map FoldWindow.foldId), points ≠ [] := fun _ => completedCurves_ne_nil
  have hvalid := stitchedCurve_valid hfoldCurves hnonempty hevidence.ordered
  obtain ⟨metrics, rfl⟩ := stitchOos_result powers hevidence h
  refine ⟨rfl, rfl, ?_, ?_, ?_, hvalid.ordered, ?_, ?_⟩
  · rw [← stitched_complete_iff hfolds hpair]
    cases (stitched runs pair.1.trialId pair.2.costId (folds.map FoldWindow.foldId)).complete <;>
      simp
  · exact congrArg stitchedCurve hcurves
  · exact congrArg (List.flatMap foldReturns) hcurves
  · intro point hpoint
    have htime := (stitchedCurve_timestamps_sublist hnonempty).subset
      (List.mem_map_of_mem (f := EquityPoint.timestamp) hpoint)
    obtain ⟨source, hsource, hsame⟩ := List.mem_map.mp htime
    obtain ⟨points, hpoints, hmem⟩ := List.mem_flatten.mp hsource
    obtain ⟨result, hresult, rfl⟩ := List.mem_map.mp hpoints
    obtain ⟨id, hid, hoos⟩ := List.mem_filterMap.mp hresult
    obtain ⟨fold, hfold, rfl⟩ := List.mem_map.mp hid
    obtain ⟨cell, -, rfl, hphase, hreadable⟩ := oosResult_readable hfolds hfold hoos
    obtain ⟨t, ht, hinstant⟩ := hreadable.window hphase source hmem
    exact ⟨_, hfold, t, ht, by rw [← hsame, hinstant]⟩
  · rw [← hcurves]
    exact stitchedCurve_last hfoldCurves hnonempty

end

/-! ## The matrix -/

section

variable (kernels : TrendKernels) (powers : Powers) (rows : List QualityRow)
  (backtestFn : ℕ → BacktestRequest → BacktestAnswer) (folds : List FoldWindow)

/-- What a walk-forward result says of the cells: one row for each, completed with a result that
the checks have accepted or failed with the text of an exception, and one stitched result for each
trial and cost scenario. -/
structure MatrixLaw (result : WalkForwardResult) : Prop where
  answered : result.runs = matrixRuns kernels powers rows backtestFn folds
  cells : result.runs.map WalkForwardRun.key = (matrixCells folds).map MatrixCell.key
  distinct : (result.runs.map WalkForwardRun.key).Nodup
  completed : ∀ run ∈ result.runs, run.status = .completed → ∃ cell ∈ matrixCells folds,
    run.key = cell.key ∧ ∃ outcome, run.result = some outcome ∧
      validateBacktestResult outcome (phaseRequest kernels rows cell) = .ok ()
  failed : ∀ run ∈ result.runs, run.status ≠ .completed →
    run.result = none ∧ run.error.isSome = true
  stitched : List.Forall₂ (StitchedRows result.runs folds) trialCosts result.stitchedOos

variable {kernels powers rows backtestFn folds}

/-- The registered trials and costs pass their check. -/
theorem validateRegistry_registered :
    validateRegistry registeredTrials registeredCostScenarios = .ok () := by
  decide +kernel

/-- Without a cell that lacks executable candles, the rows are those of the cells, and the matrix is
what their stitching leaves. -/
theorem walkForwardMatrix_eq (hfolds : SeparateFolds folds)
    (hexecutable : ∀ cell ∈ matrixCells folds, executionRows kernels rows cell ≠ []) :
    walkForwardMatrix kernels powers rows backtestFn folds = do
      let stitched ← trialCosts.mapM fun pair =>
        stitchOos powers (matrixRuns kernels powers rows backtestFn folds) pair.1.trialId
          pair.2.costId (folds.map FoldWindow.foldId)
      return ⟨matrixRuns kernels powers rows backtestFn folds, stitched⟩ := by
  have hruns : (matrixCells folds).foldlM (runCell kernels powers rows backtestFn) [] =
      .ok (matrixRuns kernels powers rows backtestFn folds) :=
    foldlM_runCell [] hfolds.cells_named hexecutable
  rw [walkForwardMatrix, validateRegistry_registered, hruns]
  rfl

/-- A matrix that is stitched obeys the law. -/
theorem walkForwardMatrix_law (hfolds : SeparateFolds folds)
    (hexecutable : ∀ cell ∈ matrixCells folds, executionRows kernels rows cell ≠ [])
    {result : WalkForwardResult}
    (h : walkForwardMatrix kernels powers rows backtestFn folds = .ok result) :
    MatrixLaw kernels powers rows backtestFn folds result := by
  rw [walkForwardMatrix_eq hfolds hexecutable] at h
  obtain ⟨stitched, hstitched, hresult⟩ := Except.bind_eq_ok.mp h
  obtain rfl := Except.pure_eq_ok.mp hresult
  refine ⟨rfl, matrixRuns_keys, matrixRuns_keys_nodup hfolds, ?_, ?_, ?_⟩
  · intro run hrun hstatus
    obtain ⟨cell, hcell, hkey, outcome, hresult, hvalid, -⟩ := completed_readable hrun hstatus
    exact ⟨cell, hcell, hkey, outcome, hresult, hvalid⟩
  · intro run hrun hstatus
    obtain ⟨entry, -, rfl⟩ := List.mem_map.mp hrun
    exact runRequest_failed hstatus
  · exact forall₂_imp_mem (mapM_eq_ok.mp hstitched) fun pair hpair _ _ hstitch =>
      stitchOos_matrixRuns hfolds hpair hstitch

/-- A matrix that is not stitched fails for values that are not finite. -/
theorem walkForwardMatrix_raises (hfolds : SeparateFolds folds)
    (hexecutable : ∀ cell ∈ matrixCells folds, executionRows kernels rows cell ≠ []) :
    ∀ e, walkForwardMatrix kernels powers rows backtestFn folds = .error e →
      e ∈ nonfiniteFailures ∧ ∃ pair ∈ trialCosts,
        stitchOos powers (matrixRuns kernels powers rows backtestFn folds) pair.1.trialId
          pair.2.costId (folds.map FoldWindow.foldId) = .error e := by
  intro e he
  rw [walkForwardMatrix_eq hfolds hexecutable] at he
  rcases Except.bind_eq_error.mp he with hraised | ⟨stitched, -, hraised⟩
  · obtain ⟨pair, hpair, hstitch⟩ := mapM_eq_error hraised
    exact ⟨stitchOos_matrixRuns_raises hfolds pair e hstitch, pair, hpair, hstitch⟩
  · cases hraised

/-- A cell without rows ends the walk-forward with its error. -/
theorem walkForwardMatrix_eq_error (hfolds : SeparateFolds folds) {cell : MatrixCell}
    (hcell : cell ∈ matrixCells folds) (hempty : executionRows kernels rows cell = []) :
    walkForwardMatrix kernels powers rows backtestFn folds =
      .error (.value "walk-forward phase has no executable quality segment") := by
  rw [walkForwardMatrix, Except.bind_eq_error]
  refine .inr ⟨(), validateRegistry_registered, ?_⟩
  rw [Except.bind_eq_error]
  exact .inl (foldlM_runCell_error [] hfolds.cells_named hcell hempty)

end

section

open Data

/-- The bar of a candle without movement. -/
def stillBar : Ohlcv Reading :=
  ⟨.number 100, .number 100, .number 100, .number 100, .number 100⟩

/-- A row without movement. -/
def stillRow (time : ℤ) : QualityRow where
  time
  values := stillBar
  isFilled := false
  isQuarantined := false
  anomalySpike := false
  anomalyFlat := false
  entryDataValid := true
  segmentId := 0

/-- A frame of candles without movement, without quality columns. -/
def stillFrame (days : ℕ) : Frame ℤ where
  index := .datetime true ((candlesFromEpoch days).map some)
  columns := ohlcvColumns.map fun name =>
    (name, .integers ((candlesFromEpoch days).map fun _ => 100))
  unique := by
    rw [List.map_map]
    change (ohlcvColumns.map id).Nodup
    decide
  aligned := by
    intro column hcolumn
    obtain ⟨name, -, rfl⟩ := List.mem_map.mp hcolumn
    simp [Column.length, FrameIndex.length]

/-- The averages of a price without movement, once there are enough bars. -/
def stillKernels : TrendKernels where
  ema := fun period bars =>
    some (bars.mapIdx fun i bar => if i + 1 < period then .nan else bar.close)
  atr := fun period bars =>
    some (bars.mapIdx fun i bar => if i < period then .nan else bar.high.sub bar.low)

/-- What a backtest gives that never trades. -/
def idleResult (first : ℤ) : BacktestResult := ⟨[⟨first, 100⟩], [], [], 100, 0, 0⟩

/-- A backtest that never trades, and does not know one of the trials. -/
def idleBacktest (_ : ℕ) (request : BacktestRequest) : BacktestAnswer :=
  if request.trialId = "entry_60" then .raised "ValueError: unknown trial"
  else request.index.head?.elim .other fun first => .result (idleResult first)

section

variable {days : ℕ}

/-- Every price and volume column is the same. -/
theorem column_stillFrame {name : String} (h : name ∈ ohlcvColumns) :
    (stillFrame days).column name =
      some (.integers ((candlesFromEpoch days).map fun _ => 100)) := by
  simp only [ohlcvColumns, List.mem_cons, List.not_mem_nil, or_false] at h
  rcases h with rfl | rfl | rfl | rfl | rfl
  all_goals simp [Frame.column, stillFrame, ohlcvColumns]

/-- Every bar is without movement. -/
theorem ohlcv_stillFrame :
    (stillFrame days).ohlcv wholeNumbers = (candlesFromEpoch days).map fun _ => stillBar := by
  have hnumeric {name : String} (hname : name ∈ ohlcvColumns) :
      (stillFrame days).numeric wholeNumbers name =
        (candlesFromEpoch days).map fun _ => .number 100 := by
    rw [Frame.numeric, column_stillFrame hname]
    simp [Column.numeric]
  rw [Frame.ohlcv, @hnumeric "open" (by decide), @hnumeric "high" (by decide),
    @hnumeric "low" (by decide), @hnumeric "close" (by decide), @hnumeric "volume" (by decide)]
  simp only [List.zip_map', List.map_map]
  rfl

/-- The frame has no quality columns. -/
theorem presentQuality_stillFrame : (stillFrame days).presentQuality = [] := by
  simp [Frame.presentQuality, qualityColumns, qualityBooleanColumns, Frame.column, stillFrame,
    ohlcvColumns]

/-- The frame is accepted. -/
theorem stillFrame_accepted (hdays : 0 < days) (hheld : days ≤ 100000) :
    validateWalkForwardFrame wholeNumbers (stillFrame days) =
      .ok ((stillFrame days).withNumeric wholeNumbers) := by
  obtain ⟨hincreasing, hspacing, haligned⟩ :=
    validatedUtcCopy_eq_ok (validatedUtcCopy_candlesFromEpoch hheld)
  have hbars : ∀ bar ∈ (stillFrame days).ohlcv wholeNumbers, bar = stillBar := by
    intro bar hbar
    rw [ohlcv_stillFrame] at hbar
    obtain ⟨_, -, rfl⟩ := List.mem_map.mp hbar
    rfl
  refine validateWalkForwardFrame_eq_ok.mpr ⟨rfl, candlesFromEpoch days, ?_⟩
  refine ⟨?_, ?_, ?_, ?_, ?_, ?_, ?_, .inl presentQuality_stillFrame, ?_,
    fun h => absurd presentQuality_stillFrame h⟩
  · intro name hname
    rw [column_stillFrame hname]
    rfl
  · exact validatedUtcIndex_eq_ok.mpr ⟨rfl, hincreasing, hspacing, haligned⟩
  · simp only [candlesFromEpoch, ne_eq, List.map_eq_nil_iff, List.range_eq_nil]
    omega
  · intro name hname column hcolumn
    rw [column_stillFrame hname] at hcolumn
    obtain rfl := Option.some.inj hcolumn
    rfl
  · intro bar hbar
    rw [hbars bar hbar]
    decide
  · intro bar hbar
    rw [hbars bar hbar]
    decide
  · have hall : ((stillFrame days).ohlcv wholeNumbers).filter (·.isAvailable) ⊆ [stillBar] :=
      fun bar hbar => List.mem_singleton.mpr (hbars bar (List.mem_of_mem_filter hbar))
    exact validateAvailableOhlcv_subset hall (by decide +kernel)
  · rintro ⟨bar, hbar, hunavailable⟩
    rw [hbars bar hbar] at hunavailable
    exact absurd hunavailable (by decide)

/-- The instants of the accepted frame. -/
theorem times_stillFrame : ((stillFrame days).withNumeric wholeNumbers).index.values.reduceOption =
    candlesFromEpoch days :=
  reduceOption_map_some _

/-- The rows of the accepted frame. -/
theorem walkForwardRows_stillFrame :
    walkForwardRows wholeNumbers ((stillFrame days).withNumeric wholeNumbers) =
      (candlesFromEpoch days).map stillRow := by
  rw [walkForwardRows, if_pos ((presentQuality_withNumeric _ _).trans presentQuality_stillFrame),
    ohlcv_withNumeric, ohlcv_stillFrame, times_stillFrame]
  conv_lhs => rw [← List.map_id (candlesFromEpoch days), List.map_map]
  rw [List.zip_map', List.map_map]
  rfl

/-- Every phase of its folds is executable. -/
theorem executionRows_still {config : WalkForwardConfig} {folds : List FoldWindow}
    {coverageStart coverageEnd firstTestStart : ℤ}
    (h : Schedule config (candlesFromEpoch days) coverageStart coverageEnd firstTestStart folds) :
    ∀ cell ∈ matrixCells folds,
      executionRows stillKernels ((candlesFromEpoch days).map stillRow) cell ≠ [] := by
  intro cell hcell
  obtain ⟨number, hnumber⟩ := List.mem_iff_getElem?.mp (mem_matrixCells.mp hcell).1
  have hfold := h.correct number _ hnumber
  obtain ⟨t, hphase, hcovered, hbefore⟩ : ∃ t, t ∈ cell.phaseIndex ∧ t ∈ candlesFromEpoch days ∧
      t < cell.phaseEnd := by
    unfold MatrixCell.phaseIndex MatrixCell.phaseEnd
    cases cell.phase with
    | train =>
      obtain ⟨t, ht⟩ := List.exists_mem_of_ne_nil _ hfold.nonempty.1
      obtain ⟨hcovered, hinside⟩ := List.mem_filter.mp (hfold.trainIndex ▸ ht)
      exact ⟨t, ht, hcovered, (of_decide_eq_true hinside).2⟩
    | oos =>
      obtain ⟨t, ht⟩ := List.exists_mem_of_ne_nil _ hfold.nonempty.2
      obtain ⟨hcovered, hinside⟩ := List.mem_filter.mp (hfold.testIndex ▸ ht)
      exact ⟨t, ht, hcovered, (of_decide_eq_true hinside).2⟩
  have hrow : stillRow t ∈ (candlesFromEpoch days).map stillRow := List.mem_map_of_mem hcovered
  have hema : Causal (indicatorSeries (stillKernels.ema cell.strategy.emaPeriod)) :=
    Causal.mapIdx _
  have hatr : Causal (indicatorSeries (stillKernels.atr cell.strategy.atrPeriod)) :=
    Causal.mapIdx _
  obtain ⟨trend, htrend, hmem⟩ := exists_mem_reindexedPhase hema hatr hrow hphase hbefore
  refine executionRows_ne_nil htrend ?_
  obtain ⟨_, -, hsame⟩ := List.mem_map.mp hmem
  rw [← hsame]
  rfl

end

/-- The values of a curve of one point. -/
theorem equityValues_one (t : ℤ) : equityValues (.points [⟨t, 100⟩]) = .ok ([100], [t]) := by
  have hfinite : ensureFinite [100] "equity" = .ok () := by decide +kernel
  simp [equityValues, hfinite, reject]

/-- A curve of one point without trades has no exposure. -/
theorem exposureValue_one (t : ℤ) (totalFees : Option ℚ) : exposureValue {
      equityCurve := .points [⟨t, 100⟩]
      totalFees } [] [] [100] [t] = .ok 0 := by
  have hderived : derivedExposure [] 1 = 0 := by decide +kernel
  simp [exposureValue, observedExposure, reject, hderived]

/-- A curve of one point without trades has metrics. -/
theorem calculateMetrics_one (t : ℤ) (totalFees : Option ℚ) (hfees : totalFees ∈ [none, some 0]) :
    ∃ metrics, calculateMetrics doublePowers {
      equityCurve := .points [⟨t, 100⟩]
      totalFees } = .ok metrics := by
  have hscalar (name : String) : nonnegativeScalar 0 name = .ok 0 :=
    nonnegativeScalar_eq_ok.mpr ⟨by decide +kernel, le_rfl, rfl⟩
  have hmean : checkMean [] = .ok () := by decide +kernel
  have htotal : derivedFinite 0 = .ok 0 := by decide +kernel
  have hannual : annualizedReturn doublePowers 0 0 2190 = .ok 0 := by decide +kernel
  have hsharpe : sharpe doublePowers [] 2190 = .ok 0 := by decide +kernel
  have hsortino : sortino doublePowers [] 2190 = .ok 0 := by decide +kernel
  have hturnover : derivedTurnover [] [100] = .ok 0 := by decide +kernel
  have hfee : totalFees.getD (total []) = 0 := by
    revert totalFees
    decide +kernel
  have hfinite : PerformanceMetrics.Finite (tradeStatistics [] {}) := by decide +kernel
  simp only [calculateMetrics, Except.bind_eq_ok]
  refine ⟨_, (), reject_eq_ok.mpr (by norm_num), [], orderFillEvents_nil, (), ?_, _,
    equityValues_one t, [], rfl, 0, ?_, 0, hscalar _, 0, exposureValue_one t _, 0, ?_, (), hmean,
    (), hmean, 0, htotal, 0, hannual, 0, hsharpe, 0, hsortino, (), hmean, (), hmean, (),
    reject_eq_ok.mpr (not_not.mpr hfinite), rfl⟩
  · exact reject_eq_ok.mpr (by rintro ⟨_, h, -⟩; cases h)
  · change nonnegativeScalar (totalFees.getD (total [])) "total_fees" = _
    rw [hfee]
    exact hscalar _
  · exact Except.bind_eq_ok.mpr ⟨0, hturnover, hscalar _⟩

/-- The idle result passes the checks of a request that starts there. -/
theorem validateBacktestResult_idle {request : BacktestRequest} {t : ℤ}
    (hindex : request.index.head? = some t)
    (hforced : request.config.forceLiquidateAtEnd = true) (hinitial : request.initialEquity = 100) :
    validateBacktestResult (idleResult t) request = .ok () := by
  have hmem : t ∈ request.index := List.mem_of_head? hindex
  have hrange : InRange 100 ∧ InRange 0 := by decide +kernel
  have hclose : closeEnough 100 100 := by decide +kernel
  have hzero : closeEnough 0 0 := by decide +kernel
  have hquantity : quantityClose 0 0 [] := by decide +kernel
  have horders : validateOrders request.index [] = .ok ⟨[], [], 0, 0, 0, 0, 0, 0, []⟩ := by
    have hsame : validateOrders request.index [] = validateOrders [] [] := rfl
    rw [hsame]
    decide +kernel
  have hpoint : phaseTimestamp request.index t "backtest equity" = .ok t :=
    Except.bind_eq_ok.mpr ⟨(), reject_eq_ok.mpr (not_not.mpr hmem), rfl⟩
  have hequity : validateEquity (idleResult t) request = .ok () := by
    simp only [validateEquity, idleResult, Except.bind_eq_ok, reject_eq_ok]
    refine ⟨(), by simp, ⟨some 100, [t]⟩, ?_, (), by simp, by simp [hclose]⟩
    rw [List.foldlM_cons, Except.bind_eq_ok]
    refine ⟨_, ?_, rfl⟩
    simp only [checkEquityPoint, Except.bind_eq_ok, reject_eq_ok, hinitial]
    exact ⟨(), by simp [hrange], (), by simp [hclose], (), by simp, t, hpoint, rfl⟩
  simp only [validateBacktestResult, Except.bind_eq_ok, reject_eq_ok]
  refine ⟨(), by simp [hforced], (), by simp [idleResult, hrange], (), by simp [idleResult], (),
    hequity, _, horders, 0, ?_, (), ?_, by simp [idleResult, hinitial, hclose]⟩
  · simp [validateTrades, idleResult, reject, hquantity, hzero]
  · simp [validateReconciliation, idleResult, reject, hzero]

section

variable {kernels : TrendKernels} {rows : List QualityRow} {folds : List FoldWindow}

/-- A row of the idle backtest is completed except for the trial it does not know. -/
theorem matrixRow_idle {entry : MatrixCell × ℕ} (h : executionRows kernels rows entry.1 ≠ []) :
    (matrixRow kernels doublePowers rows idleBacktest entry).status = .completed ↔
      (matrixRow kernels doublePowers rows idleBacktest entry).trialId ≠ "entry_60" := by
  have htrial : (matrixRow kernels doublePowers rows idleBacktest entry).trialId =
      entry.1.trial.trialId := congrArg RunKey.trialId (matrixRow_key entry)
  obtain ⟨row, hrow⟩ := List.exists_mem_of_ne_nil _ h
  obtain ⟨t, hindex⟩ : ∃ t, (phaseRequest kernels rows entry.1).index.head? = some t := by
    refine ⟨_, List.head?_eq_some_head ?_⟩
    exact List.ne_nil_of_mem (List.mem_map_of_mem hrow)
  rw [htrial]
  by_cases hunknown : entry.1.trial.trialId = "entry_60"
  · have hanswer : idleBacktest entry.2 (phaseRequest kernels rows entry.1) =
        .raised "ValueError: unknown trial" := if_pos hunknown
    rw [matrixRow, hanswer]
    simp [runRequest, measuredResult, hunknown]
  · have hanswer : idleBacktest entry.2 (phaseRequest kernels rows entry.1) =
        .result (idleResult t) := by
      refine (if_neg hunknown).trans ?_
      rw [hindex]
      rfl
    obtain ⟨metrics, hmetrics⟩ := calculateMetrics_one t (some 0) (by simp)
    have hmeasured : measuredResult doublePowers (phaseRequest kernels rows entry.1)
        (.result (idleResult t)) = .ok (idleResult t, metrics) := by
      refine Except.mapError_eq_ok.mpr (Except.bind_eq_ok.mpr ⟨(), ?_, ?_⟩)
      · exact validateBacktestResult_idle hindex rfl rfl
      · exact Except.bind_eq_ok.mpr ⟨metrics, hmetrics, rfl⟩
    rw [matrixRow, hanswer, runRequest, hmeasured]
    simp [hunknown]

/-- A completed row of the idle backtest stays at its start. -/
theorem idleResult_of_completed {run : WalkForwardRun}
    (hrun : run ∈ matrixRuns kernels doublePowers rows idleBacktest folds)
    (hstatus : run.status = .completed) {result : BacktestResult}
    (hresult : run.result = some result) : ∃ first, result = idleResult first := by
  obtain ⟨entry, -, rfl⟩ := List.mem_map.mp hrun
  obtain ⟨given, hanswer, -, hgiven⟩ := runRequest_completed hstatus
  obtain rfl := Option.some.inj (hgiven.symm.trans hresult)
  unfold idleBacktest at hanswer
  split_ifs at hanswer
  cases hindex : (phaseRequest kernels rows entry.1).index.head? with
  | none =>
    rw [hindex] at hanswer
    cases hanswer
  | some first =>
    rw [hindex] at hanswer
    exact ⟨first, (BacktestAnswer.result.inj hanswer).symm⟩

/-- So do the results that are stitched. -/
theorem completedResults_idle {trialId costId : String} {ids : List String}
    {result : BacktestResult} (h : result ∈ completedResults
      (matrixRuns kernels doublePowers rows idleBacktest folds) trialId costId ids) :
    ∃ first, result = idleResult first := by
  obtain ⟨id, -, hoos⟩ := List.mem_filterMap.mp h
  obtain ⟨hresult, -⟩ := Option.filter_eq_some_iff.mp hoos
  obtain ⟨run, hrun, hresult⟩ := Option.bind_eq_some_iff.mp hresult
  obtain ⟨hget, hstatus⟩ := Option.filter_eq_some_iff.mp hrun
  have hmem := mem_of_mem_keyedRuns (List.mem_of_find?_eq_some hget)
  exact idleResult_of_completed hmem (of_decide_eq_true hstatus) hresult

/-- Curves of one point chain to nothing. -/
theorem chained_one {compounded : ℚ} {curves : List (List EquityPoint)}
    (h : ∀ points ∈ curves, ∃ first : ℤ, points = [⟨first, 100⟩]) :
    chained compounded curves = [] := by
  induction curves generalizing compounded with
  | nil => rfl
  | cons points curves ih =>
    obtain ⟨first, rfl⟩ := h points List.mem_cons_self
    rw [chained, ih fun points hpoints => h points (List.mem_cons_of_mem _ hpoints)]
    rfl

/-- Nothing that the idle backtest leaves is out of the range of doubles. -/
theorem finiteStitch_idle (trialId costId : String) (ids : List String) :
    FiniteStitch doublePowers (matrixRuns kernels doublePowers rows idleBacktest folds) trialId
      costId ids := by
  set runs := matrixRuns kernels doublePowers rows idleBacktest folds with hruns
  have hcurves : ∀ points ∈ completedCurves runs trialId costId ids,
      ∃ first : ℤ, points = [⟨first, 100⟩] := by
    intro points hpoints
    obtain ⟨result, hresult, rfl⟩ := List.mem_map.mp hpoints
    obtain ⟨first, rfl⟩ := completedResults_idle hresult
    exact ⟨first, rfl⟩
  have hequity : (stitched runs trialId costId ids).equity =
      startPoint (completedCurves runs trialId costId ids) := by
    change startPoint _ ++ chained 100 _ = _
    rw [chained_one hcurves, List.append_nil]
  have htrades : (stitched runs trialId costId ids).trades = [] := by
    refine List.flatMap_eq_nil_iff.mpr fun result hresult => ?_
    obtain ⟨first, rfl⟩ := completedResults_idle hresult
    rfl
  have hslippage : stitchedSlippage runs trialId costId = 0 := by
    refine total_eq_zero fun value hvalue => ?_
    obtain ⟨run, hrun, hsome⟩ := List.mem_filterMap.mp hvalue
    split_ifs at hsome with hstatus
    obtain ⟨result, hresult, rfl⟩ := Option.map_eq_some_iff.mp hsome
    obtain ⟨first, rfl⟩ :=
      idleResult_of_completed (mem_of_mem_keyedRuns hrun) hstatus.2.2.2 hresult
    rfl
  refine ⟨?_, ?_⟩
  · intro point hpoint
    obtain ⟨points, hpoints, hmem⟩ := List.mem_flatMap.mp hpoint
    obtain ⟨first, rfl⟩ := hcurves points hpoints
    cases hmem
  · rw [stitchedMetrics, hequity, htrades, hslippage]
    cases hall : completedCurves runs trialId costId ids with
    | nil => exact ⟨none, rfl⟩
    | cons points curves =>
      rw [hall] at hcurves
      obtain ⟨first, rfl⟩ := hcurves points List.mem_cons_self
      obtain ⟨metrics, hmetrics⟩ := calculateMetrics_one first none (by simp)
      exact ⟨some metrics, Except.map_eq_ok.mpr ⟨metrics, hmetrics, rfl⟩⟩

end

end

end AutoBit.Validation
