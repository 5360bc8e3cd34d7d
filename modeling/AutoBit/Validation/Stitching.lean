import AutoBit.Backtest.Metrics
import Mathlib.Algebra.BigOperators.Group.List.Basic
import Mathlib.Data.List.Basic
import Mathlib.Tactic.FieldSimp
import Mathlib.Tactic.Ring

/-!
# Stitching the test windows

Every fold restarts at an equity of 100. The stitched curve chains the returns within the
completed test windows, so that it is 100 times the product of the growths of the folds. A growth
that leaves the range of doubles is not finite, and the metrics refuse it.
-/

namespace AutoBit.Validation

open Library Backtest

/-- The phase of a run. -/
inductive Phase where
  | train
  | oos
  deriving DecidableEq, Repr

/-- The status of a run. -/
inductive RunStatus where
  | completed
  | failed
  deriving DecidableEq, Repr

/-- `WalkForwardRun`. -/
structure WalkForwardRun where
  phase : Phase
  foldId : String
  trialId : String
  costId : String
  status : RunStatus
  result : Option BacktestResult
  metrics : Option PerformanceMetrics
  error : Option String := none
  deriving DecidableEq, Repr

/-- The key of a run in the matrix. -/
structure RunKey where
  foldId : String
  phase : Phase
  trialId : String
  costId : String
  deriving DecidableEq, Repr

def WalkForwardRun.key (run : WalkForwardRun) : RunKey :=
  ⟨run.foldId, run.phase, run.trialId, run.costId⟩

/-- `keyed.values()`: of the runs with one key the last one. -/
def keyedRuns : List WalkForwardRun → List WalkForwardRun
  | [] => []
  | run :: runs =>
    if run.key ∈ runs.map WalkForwardRun.key then keyedRuns runs else run :: keyedRuns runs

/-- `keyed.get(key)`. -/
def keyedGet (runs : List WalkForwardRun) (key : RunKey) : Option WalkForwardRun :=
  (keyedRuns runs).find? fun run => run.key = key

/-- `ReturnPoint`. -/
structure ReturnPoint where
  timestamp : ℤ
  value : ℚ
  deriving DecidableEq, Repr

/-- The status of a stitched result. -/
inductive StitchStatus where
  | complete
  | incomplete
  deriving DecidableEq, Repr

/-- `StitchedOOSResult`. -/
structure StitchedOosResult where
  trialId : String
  costId : String
  status : StitchStatus
  returns : List ReturnPoint
  equityCurve : List EquityPoint
  metrics : Option PerformanceMetrics
  deriving DecidableEq, Repr

/-- `_within_fold_return`. -/
def withinFoldReturn (previousEquity currentEquity : ℚ) : Except Failure ℚ :=
  if previousEquity > 0 then .ok (currentEquity / previousEquity - 1)
  else if previousEquity = 0 ∧ currentEquity = 0 then .ok 0
  else .error (.value "zero-equity recovery is not a valid OOS return path")

/-- The variables of the loop of `_stitch_oos`. -/
structure Stitch where
  returns : List ReturnPoint
  equity : List EquityPoint
  trades : List TradeRecord
  complete : Bool
  compoundedEquity : ℚ

/-- One round of the inner loop, over consecutive points, with a multiplication that the code takes
from the floats. -/
def stitchPoint (times : ℚ → ℚ → ℚ) (s : Stitch) (pair : EquityPoint × EquityPoint) :
    Except Failure Stitch := do
  let (previous, current) := pair
  let periodReturn ← withinFoldReturn previous.equity current.equity
  let compoundedEquity := times s.compoundedEquity (1 + periodReturn)
  return { s with
    returns := s.returns ++ [⟨current.timestamp, periodReturn⟩]
    compoundedEquity
    equity := s.equity ++ [⟨current.timestamp, compoundedEquity⟩] }

/-- The result of a completed test run with points. -/
def completedResult (run : Option WalkForwardRun) : Option BacktestResult :=
  ((run.filter fun run => run.status = .completed).bind WalkForwardRun.result).filter fun result =>
    result.equityCurve ≠ []

section

variable (powers : Powers) (times : ℚ → ℚ → ℚ) (runs : List WalkForwardRun)
  (trialId costId : String)

/-- Whether the train run of a fold is completed. -/
def trainCompleted (foldId : String) : Bool :=
  (keyedGet runs ⟨foldId, .train, trialId, costId⟩).any fun run => run.status = .completed

/-- The completed test result of a fold, if it has points. -/
def oosResult (foldId : String) : Option BacktestResult :=
  completedResult (keyedGet runs ⟨foldId, .oos, trialId, costId⟩)

/-- One round of the loop of `_stitch_oos`. -/
def stitchFold (s : Stitch) (foldId : String) : Except Failure Stitch :=
  let s := if trainCompleted runs trialId costId foldId then s else { s with complete := false }
  match oosResult runs trialId costId foldId with
  | none => .ok { s with complete := false }
  | some result =>
    let points := result.equityCurve
    let s := { s with trades := s.trades ++ result.trades }
    let s :=
      if s.equity = [] then
        { s with equity := points.head?.toList.map fun first => ⟨first.timestamp, 100⟩ }
      else s
    (points.zip points.tail).foldlM (stitchPoint times) s

/-- The slippage of the completed test runs of the trial. -/
def stitchedSlippage : ℚ :=
  total ((keyedRuns runs).filterMap fun run =>
    if run.phase = .oos ∧ run.trialId = trialId ∧ run.costId = costId ∧ run.status = .completed then
      run.result.map BacktestResult.totalSlippage
    else none)

/-- The metrics of the stitched curve, if it has points. -/
def stitchedMetrics (s : Stitch) : Except Failure (Option PerformanceMetrics) :=
  if s.equity = [] then .ok none
  else some <$> calculateMetrics powers {
    equityCurve := .points s.equity
    trades := s.trades
    totalSlippage := stitchedSlippage runs trialId costId }

/-- `_stitch_oos`: of the folds it reads the identifiers only. -/
def stitchOos (folds : List String) : Except Failure StitchedOosResult := do
  let s ← folds.foldlM (stitchFold product runs trialId costId) ⟨[], [], [], true, 100⟩
  reject (¬(s.equity.map EquityPoint.timestamp).Nodup)
    (.value "stitched OOS equity timestamps must be unique")
  let metrics ← stitchedMetrics powers runs trialId costId s
  return {
    trialId
    costId
    status := if s.complete then .complete else .incomplete
    returns := s.returns
    equityCurve := s.equity
    metrics }

end

/-! ## One fold -/

/-- A fold curve without recovery from zero. -/
structure FoldCurve (points : List EquityPoint) : Prop extends ValidCurve points where
  absorbed : ∀ pair ∈ points.zip points.tail, pair.1.equity = 0 → pair.2.equity = 0

/-- The return between consecutive points of a fold curve. -/
def foldReturn (previousEquity currentEquity : ℚ) : ℚ :=
  if previousEquity > 0 then currentEquity / previousEquity - 1 else 0

/-- The returns within a curve. -/
def foldReturns (points : List EquityPoint) : List ReturnPoint :=
  (points.zip points.tail).map fun pair =>
    ⟨pair.2.timestamp, foldReturn pair.1.equity pair.2.equity⟩

/-- Final over first equity of a curve. -/
def growth (points : List EquityPoint) : ℚ :=
  (points.getLast?.map EquityPoint.equity).getD 0 / (points.head?.map EquityPoint.equity).getD 0

/-- A return within a fold is that of its points, unless equity rises from zero. -/
theorem withinFoldReturn_eq_ok {previous current : ℚ} (hprevious : 0 ≤ previous)
    (habsorbed : previous = 0 → current = 0) :
    withinFoldReturn previous current = .ok (foldReturn previous current) := by
  unfold withinFoldReturn foldReturn
  split_ifs with hpositive hzero
  · rfl
  · rfl
  · have heq : previous = 0 := le_antisymm (not_lt.mp hpositive) hprevious
    exact absurd ⟨heq, habsorbed heq⟩ hzero

/-- A scaled equity is compounded by the return of the fold. -/
theorem mul_one_add_foldReturn {previous current : ℚ} (hprevious : 0 ≤ previous)
    (habsorbed : previous = 0 → current = 0) (scale : ℚ) :
    scale * previous * (1 + foldReturn previous current) = scale * current := by
  unfold foldReturn
  split_ifs with hpositive
  · field_simp
    ring
  · have heq : previous = 0 := le_antisymm (not_lt.mp hpositive) hprevious
    rw [habsorbed heq, heq]
    ring

/-- One exact round of the inner loop on a curve whose equities are scaled to the compounded one. -/
theorem stitchPoint_eq_ok {s : Stitch} {previous current : EquityPoint} {scale : ℚ}
    (hprevious : 0 ≤ previous.equity) (habsorbed : previous.equity = 0 → current.equity = 0)
    (hscale : s.compoundedEquity = scale * previous.equity) :
    stitchPoint (· * ·) s (previous, current) = .ok { s with
      returns := s.returns ++ [⟨current.timestamp, foldReturn previous.equity current.equity⟩]
      compoundedEquity := scale * current.equity
      equity := s.equity ++ [⟨current.timestamp, scale * current.equity⟩] } := by
  refine Except.bind_eq_ok.mpr ⟨_, withinFoldReturn_eq_ok hprevious habsorbed, ?_⟩
  dsimp only
  rw [hscale, mul_one_add_foldReturn hprevious habsorbed]
  rfl

/-- Points with their equities scaled. -/
def scaled (scale : ℚ) (points : List EquityPoint) : List EquityPoint :=
  points.map fun point => ⟨point.timestamp, scale * point.equity⟩

/-- The exact inner loop appends the rest of the curve, scaled to the compounded equity. -/
theorem foldlM_stitchPoint {first : EquityPoint} {rest : List EquityPoint} {s : Stitch} {scale : ℚ}
    (hnonneg : ∀ point ∈ first :: rest, 0 ≤ point.equity)
    (habsorbed : ∀ pair ∈ (first :: rest).zip rest, pair.1.equity = 0 → pair.2.equity = 0)
    (hscale : s.compoundedEquity = scale * first.equity) :
    ((first :: rest).zip rest).foldlM (stitchPoint (· * ·)) s = .ok { s with
      returns := s.returns ++ foldReturns (first :: rest)
      equity := s.equity ++ scaled scale rest
      compoundedEquity := scale * ((first :: rest).getLast (List.cons_ne_nil _ _)).equity } := by
  induction rest generalizing first s with
  | nil =>
    simp only [List.zip_nil_right, List.foldlM_nil, foldReturns, List.tail_cons, List.map_nil,
      List.append_nil, scaled, List.getLast_singleton, ← hscale]
    rfl
  | cons second rest ih =>
    have hfirst : 0 ≤ first.equity := hnonneg first List.mem_cons_self
    have hzero : first.equity = 0 → second.equity = 0 :=
      habsorbed (first, second) List.mem_cons_self
    rw [List.zip_cons_cons, List.foldlM_cons, Except.bind_eq_ok]
    refine ⟨_, stitchPoint_eq_ok hfirst hzero hscale, ?_⟩
    rw [ih (fun point hpoint => hnonneg point (List.mem_cons_of_mem _ hpoint))
      (fun pair hpair => habsorbed pair (List.mem_cons_of_mem _ hpair)) rfl]
    simp only [foldReturns, scaled, List.tail_cons, List.zip_cons_cons, List.map_cons,
      List.append_assoc, List.singleton_append, List.getLast_cons_cons]

/-! ## The folds -/

/-- The stitched points of fold curves that follow a compounded equity: every curve gives its
points but the first, scaled to the equity that the curves before it have grown to. -/
def chained (compounded : ℚ) : List (List EquityPoint) → List EquityPoint
  | [] => []
  | points :: curves =>
    scaled (compounded / (points.head?.map EquityPoint.equity).getD 0) points.tail ++
      chained (compounded * growth points) curves

/-- The first curve is chained before the others. -/
theorem chained_cons (compounded : ℚ) (points : List EquityPoint)
    (curves : List (List EquityPoint)) : chained compounded (points :: curves) =
      chained compounded [points] ++ chained (compounded * growth points) curves := by
  simp only [chained, List.append_nil]

/-- The point that a stitched curve starts with. -/
def startPoint (curves : List (List EquityPoint)) : List EquityPoint :=
  (curves.head?.bind List.head?).toList.map fun first => ⟨first.timestamp, 100⟩

/-- The curve starts with 100 at the first point. -/
theorem startPoint_cons {points : List EquityPoint} {first : EquityPoint}
    (hfirst : first ∈ points.head?) (curves : List (List EquityPoint)) :
    startPoint (points :: curves) = [⟨first.timestamp, 100⟩] := by
  rw [startPoint, List.head?_cons, Option.bind_some, Option.mem_def.mp hfirst]
  rfl

section

variable {powers : Powers} {runs : List WalkForwardRun} {trialId costId : String}

/-- What a fold leaves in the variables of the exact loop. -/
theorem stitchFold_eq_ok {s : Stitch} {foldId : String} {result : BacktestResult}
    (hresult : oosResult runs trialId costId foldId = some result)
    (hcurve : FoldCurve result.equityCurve) {first : EquityPoint}
    (hfirst : first ∈ result.equityCurve.head?) :
    stitchFold (· * ·) runs trialId costId s foldId = .ok {
      returns := s.returns ++ foldReturns result.equityCurve
      equity := (if s.equity = [] then [⟨first.timestamp, 100⟩] else s.equity) ++
        chained s.compoundedEquity [result.equityCurve]
      trades := s.trades ++ result.trades
      complete := s.complete && trainCompleted runs trialId costId foldId
      compoundedEquity := s.compoundedEquity * growth result.equityCurve } := by
  obtain ⟨rest, hpoints⟩ : ∃ rest, result.equityCurve = first :: rest := by
    cases hcases : result.equityCurve with
    | nil => simp [hcases] at hfirst
    | cons head rest =>
      rw [hcases, List.head?_cons, Option.mem_some_iff] at hfirst
      exact ⟨rest, by rw [hfirst]⟩
  have hstarted := hcurve.started first hfirst
  have hnonneg := hcurve.nonneg
  have habsorbed := hcurve.absorbed
  rw [hpoints] at hnonneg habsorbed
  have hscale : s.compoundedEquity = s.compoundedEquity / first.equity * first.equity := by
    field_simp
  have hgrowth : s.compoundedEquity / first.equity *
      ((first :: rest).getLast (List.cons_ne_nil _ _)).equity =
      s.compoundedEquity * growth (first :: rest) := by
    rw [growth, List.getLast?_eq_some_getLast (List.cons_ne_nil _ _)]
    simp only [Option.map_some, Option.getD_some, List.head?_cons]
    ring
  have hchained : chained s.compoundedEquity [first :: rest] =
      scaled (s.compoundedEquity / first.equity) rest := by
    simp only [chained, List.head?_cons, Option.map_some, Option.getD_some, List.tail_cons,
      List.append_nil]
  unfold stitchFold
  rw [hresult]
  dsimp only
  rw [hpoints, hchained, List.tail_cons, ← hgrowth]
  cases trainCompleted runs trialId costId foldId with
  | false =>
    by_cases hempty : s.equity = []
    · simp only [hempty, Bool.false_eq_true, if_false, if_true, List.head?_cons, Option.toList_some,
        List.map_cons, List.map_nil, Bool.and_false]
      exact foldlM_stitchPoint hnonneg habsorbed hscale
    · simp only [hempty, Bool.false_eq_true, if_false, Bool.and_false]
      exact foldlM_stitchPoint hnonneg habsorbed hscale
  | true =>
    by_cases hempty : s.equity = []
    · simp only [hempty, if_true, List.head?_cons, Option.toList_some, List.map_cons, List.map_nil,
        Bool.and_true]
      exact foldlM_stitchPoint hnonneg habsorbed hscale
    · simp only [hempty, if_true, if_false, Bool.and_true]
      exact foldlM_stitchPoint hnonneg habsorbed hscale

variable (runs trialId costId) in
/-- The completed test results of the folds, in order. -/
def completedResults (folds : List String) : List BacktestResult :=
  folds.filterMap (oosResult runs trialId costId)

variable (runs trialId costId) in
/-- The curves of the completed test results. -/
def completedCurves (folds : List String) : List (List EquityPoint) :=
  (completedResults runs trialId costId folds).map BacktestResult.equityCurve

/-- A result that is read has a first point. -/
theorem oosResult_head {foldId : String} {result : BacktestResult}
    (h : oosResult runs trialId costId foldId = some result) :
    ∃ first, first ∈ result.equityCurve.head? := by
  have hpoints : result.equityCurve ≠ [] := of_decide_eq_true (Option.filter_eq_some_iff.mp h).2
  exact ⟨result.equityCurve.head hpoints, List.head?_eq_some_head hpoints⟩

/-- What the folds leave in the variables of the exact loop. -/
theorem foldlM_stitchFold {folds : List String} (s : Stitch)
    (hcurves : ∀ result ∈ completedResults runs trialId costId folds,
      FoldCurve result.equityCurve) :
    folds.foldlM (stitchFold (· * ·) runs trialId costId) s = .ok {
      returns := s.returns ++ (completedCurves runs trialId costId folds).flatMap foldReturns
      equity := (if s.equity = [] then startPoint (completedCurves runs trialId costId folds)
          else s.equity) ++
        chained s.compoundedEquity (completedCurves runs trialId costId folds)
      trades := s.trades ++
        (completedResults runs trialId costId folds).flatMap BacktestResult.trades
      complete := s.complete && folds.all fun foldId =>
        trainCompleted runs trialId costId foldId && (oosResult runs trialId costId foldId).isSome
      compoundedEquity := s.compoundedEquity *
        ((completedCurves runs trialId costId folds).map growth).prod } := by
  induction folds generalizing s with
  | nil =>
    obtain ⟨returns, equity, trades, complete, compoundedEquity⟩ := s
    by_cases hempty : equity = []
    · simp [completedCurves, completedResults, startPoint, chained, hempty, pure, Except.pure]
    · simp [completedCurves, completedResults, chained, hempty, pure, Except.pure]
  | cons foldId folds ih =>
    rw [List.foldlM_cons, Except.bind_eq_ok]
    cases hresult : oosResult runs trialId costId foldId with
    | none =>
      have hfolds : completedResults runs trialId costId (foldId :: folds) =
          completedResults runs trialId costId folds := by
        rw [completedResults, List.filterMap_cons_none hresult]
        rfl
      refine ⟨{ s with complete := false }, ?_, ?_⟩
      · rw [stitchFold, hresult]
        split_ifs <;> rfl
      · rw [ih _ (hfolds ▸ hcurves)]
        simp only [completedCurves, hfolds, List.all_cons, hresult, Option.isSome_none,
          Bool.and_false, Bool.false_and]
    | some result =>
      have hfolds : completedResults runs trialId costId (foldId :: folds) =
          result :: completedResults runs trialId costId folds :=
        List.filterMap_cons_some hresult
      rw [hfolds] at hcurves
      obtain ⟨first, hfirst⟩ := oosResult_head hresult
      have hcurve := hcurves result List.mem_cons_self
      refine ⟨_, stitchFold_eq_ok hresult hcurve hfirst, ?_⟩
      rw [ih _ fun later hlater => hcurves later (List.mem_cons_of_mem _ hlater)]
      have hstarted : (if s.equity = [] then [⟨first.timestamp, 100⟩] else s.equity) ++
          chained s.compoundedEquity [result.equityCurve] ≠ [] := by
        split_ifs with hempty
        · simp
        · simp [hempty]
      simp only [completedCurves, hfolds, List.all_cons, hresult, Option.isSome_some, Bool.and_true,
        List.map_cons, List.flatMap_cons, List.prod_cons, List.append_assoc, Bool.and_assoc,
        mul_assoc]
      rw [if_neg (by simpa using hstarted)]
      rw [chained_cons _ _ (List.map _ _), startPoint_cons hfirst, List.append_assoc]

end

/-! ## The stitched curve -/

section

variable {curves : List (List EquityPoint)}

/-- The curve that fold curves are stitched to. -/
def stitchedCurve (curves : List (List EquityPoint)) : List EquityPoint :=
  startPoint curves ++ chained 100 curves

/-- The growth of a curve is not negative. -/
theorem growth_nonneg {points : List EquityPoint} (h : FoldCurve points) : 0 ≤ growth points := by
  have hvalue : ∀ value ∈ points.map EquityPoint.equity, 0 ≤ value := by
    intro value hmem
    obtain ⟨point, hpoint, rfl⟩ := List.mem_map.mp hmem
    exact h.nonneg point hpoint
  unfold growth
  rw [← List.getLast?_map, ← List.head?_map]
  apply div_nonneg
  · cases hlast : (points.map EquityPoint.equity).getLast? with
    | none => exact le_refl _
    | some value => exact hvalue value (List.mem_of_getLast? hlast)
  · cases hhead : (points.map EquityPoint.equity).head? with
    | none => exact le_refl _
    | some value => exact hvalue value (List.mem_of_head? hhead)

/-- Every point of a fold but the first gives one stitched point. -/
theorem chained_timestamps (compounded : ℚ) (curves : List (List EquityPoint)) :
    (chained compounded curves).map EquityPoint.timestamp =
      curves.flatMap fun points => points.tail.map EquityPoint.timestamp := by
  induction curves generalizing compounded with
  | nil => rfl
  | cons points curves ih =>
    rw [chained, List.map_append, ih, List.flatMap_cons, scaled, List.map_map]
    rfl

/-- The stitched timestamps are among those of the folds, in their order. -/
theorem stitchedCurve_timestamps_sublist (hnonempty : ∀ points ∈ curves, points ≠ []) :
    ((stitchedCurve curves).map EquityPoint.timestamp).Sublist
      (curves.flatten.map EquityPoint.timestamp) := by
  have htails : ∀ curves : List (List EquityPoint),
      (curves.flatMap fun points => points.tail.map EquityPoint.timestamp).Sublist
        (curves.flatten.map EquityPoint.timestamp) := by
    intro curves
    induction curves with
    | nil => exact List.Sublist.refl _
    | cons points curves ih =>
      rw [List.flatMap_cons, List.flatten_cons, List.map_append]
      exact ((List.tail_sublist points).map _).append ih
  rw [stitchedCurve, List.map_append, chained_timestamps]
  cases curves with
  | nil => exact List.Sublist.refl _
  | cons points curves =>
    cases points with
    | nil => exact absurd rfl (hnonempty [] List.mem_cons_self)
    | cons first rest =>
      rw [@startPoint_cons (first :: rest) first rfl, List.flatMap_cons, List.flatten_cons,
        List.map_append, List.tail_cons]
      exact ((List.Sublist.refl (rest.map EquityPoint.timestamp)).append (htails curves)).cons_cons _

/-- Chained equity is not negative. -/
theorem chained_nonneg {compounded : ℚ} (hcompounded : 0 ≤ compounded)
    (hcurves : ∀ points ∈ curves, FoldCurve points) :
    ∀ point ∈ chained compounded curves, 0 ≤ point.equity := by
  induction curves generalizing compounded with
  | nil => simp [chained]
  | cons points curves ih =>
    have hpoints := hcurves points List.mem_cons_self
    intro point hpoint
    rcases List.mem_append.mp hpoint with hscaled | hlater
    · obtain ⟨source, hsource, rfl⟩ := List.mem_map.mp hscaled
      have hfirst : 0 ≤ (points.head?.map EquityPoint.equity).getD 0 := by
        cases hhead : points.head? with
        | none => exact le_refl _
        | some first => exact hpoints.nonneg first (List.mem_of_head? hhead)
      exact mul_nonneg (div_nonneg hcompounded hfirst)
        (hpoints.nonneg source (List.mem_of_mem_tail hsource))
    · exact ih (mul_nonneg hcompounded (growth_nonneg hpoints))
        (fun points hpoints => hcurves points (List.mem_cons_of_mem _ hpoints)) point hlater

/-- Curves that follow each other in time are stitched to a valid curve. -/
theorem stitchedCurve_valid (hcurves : ∀ points ∈ curves, FoldCurve points)
    (hnonempty : ∀ points ∈ curves, points ≠ [])
    (hordered : curves.flatten.Pairwise fun earlier later => earlier.timestamp < later.timestamp) :
    ValidCurve (stitchedCurve curves) where
  ordered := List.pairwise_map.mp
    ((List.pairwise_map.mpr hordered).sublist (stitchedCurve_timestamps_sublist hnonempty))
  nonneg := by
    intro point hpoint
    rcases List.mem_append.mp hpoint with hstart | hchained
    · obtain ⟨first, -, rfl⟩ := List.mem_map.mp hstart
      norm_num
    · exact chained_nonneg (by norm_num) hcurves point hchained
  started := by
    cases curves with
    | nil => simp [stitchedCurve, startPoint, chained]
    | cons points curves =>
      cases points with
      | nil => exact absurd rfl (hnonempty [] List.mem_cons_self)
      | cons first rest =>
        intro point hpoint
        rw [stitchedCurve, @startPoint_cons (first :: rest) first rfl, List.singleton_append,
          List.head?_cons, Option.mem_some_iff] at hpoint
        rw [← hpoint]
        norm_num

/-- One period of compounding. -/
def compound (equity periodReturn : ℚ) : ℚ := equity * (1 + periodReturn)

/-- The returns of a fold, compounded, give its scaled equities. -/
theorem scanl_foldReturns {first : EquityPoint} {rest : List EquityPoint}
    (hnonneg : ∀ point ∈ first :: rest, 0 ≤ point.equity)
    (habsorbed : ∀ pair ∈ (first :: rest).zip rest, pair.1.equity = 0 → pair.2.equity = 0)
    (scale : ℚ) :
    ((foldReturns (first :: rest)).map ReturnPoint.value).scanl compound (scale * first.equity) =
        scale * first.equity :: (scaled scale rest).map EquityPoint.equity ∧
      ((foldReturns (first :: rest)).map ReturnPoint.value).foldl compound (scale * first.equity) =
        scale * ((first :: rest).getLast (List.cons_ne_nil _ _)).equity := by
  induction rest generalizing first with
  | nil => exact ⟨by simp [foldReturns, scaled], rfl⟩
  | cons second rest ih =>
    have hfirst : 0 ≤ first.equity := hnonneg first List.mem_cons_self
    have hzero : first.equity = 0 → second.equity = 0 :=
      habsorbed (first, second) List.mem_cons_self
    obtain ⟨hscanl, hfoldl⟩ := ih
      (fun point hpoint => hnonneg point (List.mem_cons_of_mem _ hpoint))
      (fun pair hpair => habsorbed pair (List.mem_cons_of_mem _ hpair))
    have hcompound : compound (scale * first.equity) (foldReturn first.equity second.equity) =
        scale * second.equity := mul_one_add_foldReturn hfirst hzero scale
    have hreturns : (foldReturns (first :: second :: rest)).map ReturnPoint.value =
        foldReturn first.equity second.equity ::
          (foldReturns (second :: rest)).map ReturnPoint.value := rfl
    rw [hreturns, List.scanl_cons, List.foldl_cons, hcompound, hscanl, hfoldl,
      List.getLast_cons_cons]
    exact ⟨rfl, rfl⟩

/-- The returns of fold curves, compounded, give the stitched equities. -/
theorem scanl_chained (hcurves : ∀ points ∈ curves, FoldCurve points)
    (hnonempty : ∀ points ∈ curves, points ≠ []) (compounded : ℚ) :
    ((curves.flatMap foldReturns).map ReturnPoint.value).scanl compound compounded =
        compounded :: (chained compounded curves).map EquityPoint.equity ∧
      ((curves.flatMap foldReturns).map ReturnPoint.value).foldl compound compounded =
        compounded * (curves.map growth).prod := by
  induction curves generalizing compounded with
  | nil => simp [chained]
  | cons points curves ih =>
    have hpoints := hcurves points List.mem_cons_self
    obtain ⟨hscanl, hfoldl⟩ := ih (fun points hpoints => hcurves points (List.mem_cons_of_mem _ hpoints))
      (fun points hpoints => hnonempty points (List.mem_cons_of_mem _ hpoints))
      (compounded * growth points)
    obtain ⟨first, rest, rfl⟩ := List.exists_cons_of_ne_nil (hnonempty points List.mem_cons_self)
    have hstarted : 0 < first.equity := hpoints.started first rfl
    have hscale : compounded / first.equity * first.equity = compounded := by
      field_simp
    obtain ⟨hfold, hlast⟩ := scanl_foldReturns hpoints.nonneg hpoints.absorbed
      (compounded / first.equity)
    rw [hscale] at hfold hlast
    have hgrown : ((foldReturns (first :: rest)).map ReturnPoint.value).foldl compound compounded =
        compounded * growth (first :: rest) := by
      rw [hlast, growth, List.getLast?_eq_some_getLast (List.cons_ne_nil _ _)]
      simp only [Option.map_some, Option.getD_some, List.head?_cons]
      ring
    rw [List.flatMap_cons, List.map_append, List.scanl_append, List.foldl_append, hgrown, hfoldl,
      hfold, hscanl, List.map_cons, List.prod_cons]
    refine ⟨?_, by ring⟩
    simp only [chained, List.map_append, List.tail_cons, List.head?_cons, Option.map_some,
      Option.getD_some, List.cons_append]

/-- Curves are chained one stretch after the other. -/
theorem chained_append (compounded : ℚ) (done todo : List (List EquityPoint)) :
    chained compounded (done ++ todo) =
      chained compounded done ++ chained (compounded * (done.map growth).prod) todo := by
  induction done generalizing compounded with
  | nil => simp [chained]
  | cons points done ih =>
    rw [List.cons_append, chained, chained, ih, List.map_cons, List.prod_cons, List.append_assoc,
      mul_assoc]

/-- Nothing comes back after a bankruptcy. -/
theorem chained_zero (curves : List (List EquityPoint)) :
    ∀ point ∈ chained 0 curves, point.equity = 0 := by
  induction curves with
  | nil => simp [chained]
  | cons points curves ih =>
    intro point hpoint
    rw [chained, zero_mul, zero_div] at hpoint
    rcases List.mem_append.mp hpoint with hscaled | hlater
    · obtain ⟨source, -, rfl⟩ := List.mem_map.mp hscaled
      exact zero_mul _
    · exact ih point hlater

/-- The stitched curve starts with 100 and goes on with the chained curves. -/
theorem stitchedCurve_cons {points : List EquityPoint} {first : EquityPoint}
    (hfirst : first ∈ points.head?) (curves : List (List EquityPoint)) :
    stitchedCurve (points :: curves) =
      ⟨first.timestamp, 100⟩ :: chained 100 (points :: curves) := by
  rw [stitchedCurve, startPoint_cons hfirst, List.singleton_append]

/-- The first point of a stitched curve comes before the chained ones. -/
theorem stitchedCurve_eq (hnonempty : ∀ points ∈ curves, points ≠ []) (hne : curves ≠ []) :
    ∃ points first, points ∈ curves.head? ∧ first ∈ points.head? ∧
      stitchedCurve curves = ⟨first.timestamp, 100⟩ :: chained 100 curves := by
  obtain ⟨points, later, rfl⟩ := List.exists_cons_of_ne_nil hne
  obtain ⟨first, rest, hpoints⟩ := List.exists_cons_of_ne_nil (hnonempty points List.mem_cons_self)
  have hfirst : first ∈ points.head? := by rw [hpoints, List.head?_cons, Option.mem_some_iff]
  exact ⟨points, first, rfl, hfirst, stitchedCurve_cons hfirst later⟩

/-- After its start the stitched curve is the chained curves. -/
theorem stitchedCurve_tail (hnonempty : ∀ points ∈ curves, points ≠ []) :
    (stitchedCurve curves).tail = chained 100 curves := by
  by_cases hne : curves = []
  · rw [hne]
    rfl
  · obtain ⟨points, first, -, -, heq⟩ := stitchedCurve_eq hnonempty hne
    rw [heq, List.tail_cons]

/-- The returns of all curves, compounded from 100, give the stitched equities. -/
theorem stitchedCurve_equities (hcurves : ∀ points ∈ curves, FoldCurve points)
    (hnonempty : ∀ points ∈ curves, points ≠ []) (hne : curves ≠ []) :
    (stitchedCurve curves).map EquityPoint.equity =
      ((curves.flatMap foldReturns).map ReturnPoint.value).scanl compound 100 := by
  obtain ⟨points, first, -, -, heq⟩ := stitchedCurve_eq hnonempty hne
  rw [(scanl_chained hcurves hnonempty 100).1, heq, List.map_cons]

/-- The last stitched equity is 100 times the product of the growths. -/
theorem stitchedCurve_last (hcurves : ∀ points ∈ curves, FoldCurve points)
    (hnonempty : ∀ points ∈ curves, points ≠ []) :
    ∀ point ∈ (stitchedCurve curves).getLast?,
      point.equity = 100 * (curves.map growth).prod := by
  intro point hpoint
  by_cases hne : curves = []
  · rw [hne] at hpoint
    cases hpoint
  · have hlast : ((stitchedCurve curves).map EquityPoint.equity).getLast? = some point.equity := by
      rw [List.getLast?_map, Option.mem_def.mp hpoint]
      rfl
    rw [stitchedCurve_equities hcurves hnonempty hne, List.getLast?_scanl,
      (scanl_chained hcurves hnonempty 100).2, Option.some.injEq] at hlast
    exact hlast.symm

/-- After a fold that ends bankrupt every stitched equity is zero. -/
theorem stitchedCurve_bankrupt {done todo : List (List EquityPoint)} {points : List EquityPoint}
    (hbankrupt : ∀ last ∈ points.getLast?, last.equity = 0) : ∃ earlier later,
      stitchedCurve (done ++ points :: todo) = earlier ++ later ∧
      later.map EquityPoint.timestamp =
        (todo.flatMap fun points => points.tail.map EquityPoint.timestamp) ∧
      ∀ point ∈ later, point.equity = 0 := by
  have hgrowth : growth points = 0 := by
    unfold growth
    cases hlast : points.getLast? with
    | none => simp
    | some last => simp [hbankrupt last hlast]
  have hsplit : done ++ points :: todo = (done ++ [points]) ++ todo := by simp
  have hzero : 100 * ((done ++ [points]).map growth).prod = 0 := by
    simp [hgrowth]
  refine ⟨startPoint (done ++ points :: todo) ++ chained 100 (done ++ [points]), chained 0 todo,
    ?_, chained_timestamps 0 todo, chained_zero todo⟩
  rw [stitchedCurve, List.append_assoc, hsplit, chained_append, hzero]

/-- The returns stand at the points after the first of each fold. -/
theorem foldReturns_timestamps (curves : List (List EquityPoint)) :
    (curves.flatMap foldReturns).map ReturnPoint.timestamp =
      curves.flatMap fun points => points.tail.map EquityPoint.timestamp := by
  rw [List.map_flatMap]
  congr 1
  funext points
  have hsnd : (points.zip points.tail).map Prod.snd = points.tail :=
    List.map_snd_zip (by rw [List.length_tail]; omega)
  conv_rhs => rw [← hsnd, List.map_map]
  rw [foldReturns, List.map_map]
  rfl

end

/-! ## The stitched result -/

section

variable (runs : List WalkForwardRun) (trialId costId : String) (folds : List String)

/-- What the walk-forward has checked of the runs that it retains as completed: their curves
start above zero, do not recover from zero and follow each other in time, and their trades and
slippage are valid. -/
structure StitchEvidence : Prop where
  curves : ∀ result ∈ completedResults runs trialId costId folds, FoldCurve result.equityCurve
  ordered : (completedCurves runs trialId costId folds).flatten.Pairwise fun earlier later =>
    earlier.timestamp < later.timestamp
  trades : ∀ result ∈ completedResults runs trialId costId folds, ∀ trade ∈ result.trades,
    trade.Valid
  slippage : ∀ run ∈ runs, ∀ result ∈ run.result, 0 ≤ result.totalSlippage

/-- A fold with a completed train run and a completed test run with points. -/
structure CompleteFold (foldId : String) : Prop where
  train : ∃ run, keyedGet runs ⟨foldId, .train, trialId, costId⟩ = some run ∧
    run.status = .completed
  oos : ∃ run result, keyedGet runs ⟨foldId, .oos, trialId, costId⟩ = some run ∧
    run.status = .completed ∧ run.result = some result ∧ result.equityCurve ≠ []

/-- What a stitched result says about the folds. -/
structure StitchLaw (result : StitchedOosResult) : Prop where
  complete_iff : result.status = .complete ↔
    ∀ foldId ∈ folds, CompleteFold runs trialId costId foldId
  empty : completedCurves runs trialId costId folds = [] →
    result.equityCurve = [] ∧ result.returns = []
  start : ∀ points ∈ (completedCurves runs trialId costId folds).head?, ∀ first ∈ points.head?,
    result.equityCurve.head? = some ⟨first.timestamp, 100⟩
  points : result.equityCurve.tail.map EquityPoint.timestamp =
    (completedCurves runs trialId costId folds).flatMap fun points =>
      points.tail.map EquityPoint.timestamp
  last : ∀ point ∈ result.equityCurve.getLast?,
    point.equity = 100 * ((completedCurves runs trialId costId folds).map growth).prod
  bankrupt : ∀ done points todo,
    completedCurves runs trialId costId folds = done ++ points :: todo →
    (∀ last ∈ points.getLast?, last.equity = 0) → ∃ earlier later,
      result.equityCurve = earlier ++ later ∧
      later.map EquityPoint.timestamp =
        (todo.flatMap fun points => points.tail.map EquityPoint.timestamp) ∧
      ∀ point ∈ later, point.equity = 0
  compounded : result.equityCurve ≠ [] →
    result.equityCurve.map EquityPoint.equity =
      (result.returns.map ReturnPoint.value).scanl compound 100
  periods : result.returns.map ReturnPoint.timestamp =
    result.equityCurve.tail.map EquityPoint.timestamp

variable {runs trialId costId folds}

/-- A fold is complete exactly when its training has completed and its result is read. -/
theorem completeFold_iff {foldId : String} : CompleteFold runs trialId costId foldId ↔
    (trainCompleted runs trialId costId foldId &&
      (oosResult runs trialId costId foldId).isSome) = true := by
  rw [Bool.and_eq_true, trainCompleted, oosResult, completedResult, Option.isSome_filter,
    Option.any_eq_true, Option.any_eq_true]
  simp only [Option.bind_eq_some_iff, Option.filter_eq_some_iff, decide_eq_true_eq]
  constructor
  · rintro ⟨htrain, run, result, hget, hstatus, hresult, hpoints⟩
    exact ⟨htrain, result, ⟨run, ⟨hget, hstatus⟩, hresult⟩, hpoints⟩
  · rintro ⟨htrain, result, ⟨run, ⟨hget, hstatus⟩, hresult⟩, hpoints⟩
    exact ⟨htrain, run, result, hget, hstatus, hresult, hpoints⟩

/-- The keyed runs are among the runs. -/
theorem mem_of_mem_keyedRuns {run : WalkForwardRun} (h : run ∈ keyedRuns runs) : run ∈ runs := by
  induction runs with
  | nil => exact h
  | cons first runs ih =>
    unfold keyedRuns at h
    split_ifs at h
    · exact List.mem_cons_of_mem _ (ih h)
    · rcases List.mem_cons.mp h with rfl | h
      · exact List.mem_cons_self
      · exact List.mem_cons_of_mem _ (ih h)

/-- The slippage of the runs is not negative. -/
theorem stitchedSlippage_nonneg
    (hslippage : ∀ run ∈ runs, ∀ result ∈ run.result, 0 ≤ result.totalSlippage) :
    0 ≤ stitchedSlippage runs trialId costId := by
  apply total_nonneg
  intro value hvalue
  obtain ⟨run, hrun, hsome⟩ := List.mem_filterMap.mp hvalue
  split_ifs at hsome
  obtain ⟨result, hresult, rfl⟩ := Option.map_eq_some_iff.mp hsome
  exact hslippage run (mem_of_mem_keyedRuns hrun) result hresult

/-- A completed curve has points. -/
theorem completedCurves_ne_nil {points : List EquityPoint}
    (h : points ∈ completedCurves runs trialId costId folds) : points ≠ [] := by
  obtain ⟨result, hresult, rfl⟩ := List.mem_map.mp h
  obtain ⟨foldId, -, hoos⟩ := List.mem_filterMap.mp hresult
  exact of_decide_eq_true (Option.filter_eq_some_iff.mp hoos).2

variable (runs trialId costId folds) in
/-- The variables of the exact loop after all folds. -/
def stitched : Stitch where
  returns := (completedCurves runs trialId costId folds).flatMap foldReturns
  equity := stitchedCurve (completedCurves runs trialId costId folds)
  trades := (completedResults runs trialId costId folds).flatMap BacktestResult.trades
  complete := folds.all fun foldId =>
    trainCompleted runs trialId costId foldId && (oosResult runs trialId costId foldId).isSome
  compoundedEquity := 100 * ((completedCurves runs trialId costId folds).map growth).prod

/-- The loop over the folds stitches what is completed. -/
theorem foldlM_stitched (hcurves : ∀ result ∈ completedResults runs trialId costId folds,
    FoldCurve result.equityCurve) :
    folds.foldlM (stitchFold (· * ·) runs trialId costId) ⟨[], [], [], true, 100⟩ =
      .ok (stitched runs trialId costId folds) := by
  rw [foldlM_stitchFold _ hcurves]
  simp only [List.nil_append, if_true, Bool.true_and]
  rfl

end

/-! ## The loop of floats beside the exact one -/

/-- The variables of the loop of floats beside those of the exact one: they differ in the equities
only, and when these are finite not at all. -/
structure Shadows (s exact : Stitch) : Prop where
  returns : s.returns = exact.returns
  trades : s.trades = exact.trades
  complete : s.complete = exact.complete
  timestamps : s.equity.map EquityPoint.timestamp = exact.equity.map EquityPoint.timestamp
  unbroken : (∀ point ∈ s.equity, InRange point.equity) →
    s = exact ∧ ∀ point ∈ exact.returns, InRange (1 + point.value)
  finite : (∀ point ∈ exact.returns, InRange (1 + point.value)) →
    (∀ point ∈ exact.equity, InRange point.equity) → s = exact
  bounded : (∀ point ∈ exact.equity, InRange point.equity) → InRange exact.compoundedEquity

section

variable {s exact exact' : Stitch}

/-- The loops begin together. -/
theorem Shadows.start : Shadows ⟨[], [], [], true, 100⟩ ⟨[], [], [], true, 100⟩ where
  returns := rfl
  trades := rfl
  complete := rfl
  timestamps := rfl
  unbroken _ := ⟨rfl, by simp⟩
  finite _ _ := rfl
  bounded _ := by decide +kernel

/-- What shadows the exact loop still does when a fold is incomplete. -/
theorem Shadows.incomplete (h : Shadows s exact) :
    Shadows { s with complete := false } { exact with complete := false } where
  returns := h.returns
  trades := h.trades
  complete := rfl
  timestamps := h.timestamps
  unbroken hrange := by
    obtain ⟨hsame, hreturns⟩ := h.unbroken hrange
    exact ⟨by rw [hsame], hreturns⟩
  finite hreturns hrange := by rw [h.finite hreturns hrange]
  bounded := h.bounded

/-- A fold adds its trades, and the point that the curve starts with. -/
theorem Shadows.enter (h : Shadows s exact) (trades : List TradeRecord) (points : List EquityPoint) :
    Shadows
      (let s := { s with trades := s.trades ++ trades }
      if s.equity = [] then
        { s with equity := points.head?.toList.map fun first => ⟨first.timestamp, 100⟩ }
      else s)
      (let exact := { exact with trades := exact.trades ++ trades }
      if exact.equity = [] then
        { exact with equity := points.head?.toList.map fun first => ⟨first.timestamp, 100⟩ }
      else exact) := by
  have hempty : s.equity = [] ↔ exact.equity = [] := by
    rw [← List.map_eq_nil_iff, h.timestamps, List.map_eq_nil_iff]
  dsimp only
  by_cases hnone : exact.equity = []
  · rw [if_pos hnone, if_pos (hempty.mpr hnone)]
    have hexact : ∀ point ∈ exact.equity, InRange point.equity := by simp [hnone]
    have hsame : ∀ point ∈ s.equity, InRange point.equity := by simp [hempty.mpr hnone]
    exact {
      returns := h.returns
      trades := congrArg (· ++ trades) h.trades
      complete := h.complete
      timestamps := rfl
      unbroken := fun _ => by
        obtain ⟨hs, hreturns⟩ := h.unbroken hsame
        exact ⟨by rw [hs], hreturns⟩
      finite := fun _ _ => by rw [(h.unbroken hsame).1]
      bounded := fun _ => h.bounded hexact }
  · rw [if_neg hnone, if_neg (mt hempty.mp hnone)]
    exact {
      returns := h.returns
      trades := congrArg (· ++ trades) h.trades
      complete := h.complete
      timestamps := h.timestamps
      unbroken := fun hrange => by
        obtain ⟨hs, hreturns⟩ := h.unbroken hrange
        exact ⟨by rw [hs], hreturns⟩
      finite := fun hreturns hrange => by rw [h.finite hreturns hrange]
      bounded := h.bounded }

/-- A round of the inner loop. -/
theorem Shadows.stitchPoint (h : Shadows s exact) {pair : EquityPoint × EquityPoint}
    (hexact : stitchPoint (· * ·) exact pair = .ok exact') :
    ∃ s', stitchPoint product s pair = .ok s' ∧ Shadows s' exact' := by
  obtain ⟨periodReturn, hreturn, hround⟩ := Except.bind_eq_ok.mp hexact
  obtain rfl := Except.pure_eq_ok.mp hround
  refine ⟨_, Except.bind_eq_ok.mpr ⟨periodReturn, hreturn, rfl⟩, ?_⟩
  exact {
    returns := by simp only [h.returns]
    trades := h.trades
    complete := h.complete
    timestamps := by simp only [List.map_append, h.timestamps, List.map_cons, List.map_nil]
    unbroken := by
      intro hrange
      obtain ⟨rfl, hreturns⟩ := h.unbroken fun point hpoint =>
        hrange point (List.mem_append_left _ hpoint)
      have hlast : InRange (product s.compoundedEquity (1 + periodReturn)) :=
        hrange ⟨pair.2.timestamp, product s.compoundedEquity (1 + periodReturn)⟩ (by simp)
      obtain ⟨hproduct, -, hgrowth⟩ := product_eq hlast
      refine ⟨by simp only [hproduct], fun point hpoint => ?_⟩
      rcases List.mem_append.mp hpoint with hbefore | hlast
      · exact hreturns point hbefore
      · obtain rfl := List.mem_singleton.mp hlast
        exact hgrowth
    finite := by
      intro hreturns hrange
      have hbefore : ∀ point ∈ exact.equity, InRange point.equity := fun point hpoint =>
        hrange point (List.mem_append_left _ hpoint)
      obtain rfl := h.finite (fun point hpoint =>
        hreturns point (List.mem_append_left _ hpoint)) hbefore
      have hgrowth : InRange (1 + periodReturn) :=
        hreturns ⟨pair.2.timestamp, periodReturn⟩ (by simp)
      simp only [product_of_inRange (h.bounded hbefore) hgrowth]
    bounded := fun hrange =>
      hrange ⟨pair.2.timestamp, exact.compoundedEquity * (1 + periodReturn)⟩ (by simp) }

variable {runs : List WalkForwardRun} {trialId costId : String}

/-- A round of the loop over the folds. -/
theorem Shadows.stitchFold (h : Shadows s exact) {foldId : String}
    (hexact : stitchFold (· * ·) runs trialId costId exact foldId = .ok exact') :
    ∃ s', stitchFold product runs trialId costId s foldId = .ok s' ∧ Shadows s' exact' := by
  have htrain : Shadows
      (if trainCompleted runs trialId costId foldId then s else { s with complete := false })
      (if trainCompleted runs trialId costId foldId then exact
        else { exact with complete := false }) := by
    split_ifs
    · exact h
    · exact h.incomplete
  unfold AutoBit.Validation.stitchFold at hexact ⊢
  cases hresult : oosResult runs trialId costId foldId with
  | none =>
    rw [hresult] at hexact
    cases hexact
    exact ⟨_, rfl, htrain.incomplete⟩
  | some result =>
    rw [hresult] at hexact
    exact foldlM_simulates (fun _ _ _ _ hR hround => hR.stitchPoint hround)
      (htrain.enter result.trades result.equityCurve) hexact

end

/-! ## What is stitched -/

section

variable (powers : Powers) {runs : List WalkForwardRun} {trialId costId : String}
  {folds : List String}

variable (runs trialId costId folds) in
/-- No return of the completed folds and no metric of the stitched curve leaves the range of
doubles. -/
structure FiniteStitch : Prop where
  returns : ∀ point ∈ (stitched runs trialId costId folds).returns, InRange (1 + point.value)
  metrics : ∃ metrics, stitchedMetrics powers runs trialId costId
    (stitched runs trialId costId folds) = .ok metrics

variable (h : StitchEvidence runs trialId costId folds)
include h

/-- The completed curves are curves of folds. -/
theorem StitchEvidence.foldCurves :
    ∀ points ∈ completedCurves runs trialId costId folds, FoldCurve points := by
  intro points hpoints
  obtain ⟨result, hresult, rfl⟩ := List.mem_map.mp hpoints
  exact h.curves result hresult

/-- The exact stitched curve is chronological and never negative. -/
theorem StitchEvidence.valid : ValidCurve (stitched runs trialId costId folds).equity :=
  stitchedCurve_valid h.foldCurves (fun _ => completedCurves_ne_nil) h.ordered

/-- The loop of floats goes beside the exact one. -/
theorem StitchEvidence.shadows : ∃ s,
    folds.foldlM (stitchFold product runs trialId costId) ⟨[], [], [], true, 100⟩ = .ok s ∧
      Shadows s (stitched runs trialId costId folds) :=
  foldlM_simulates (fun _ _ _ _ hR hround => hR.stitchFold hround) .start (foldlM_stitched h.curves)

/-- The metrics of the stitched curve can only fail to be finite. -/
theorem StitchEvidence.metrics_raises : RaisesOnly nonfiniteFailures
    (stitchedMetrics powers runs trialId costId (stitched runs trialId costId folds)) := by
  have htrades : ∀ trade ∈ (stitched runs trialId costId folds).trades, trade.Valid := by
    intro trade htrade
    obtain ⟨result, hresult, hmem⟩ := List.mem_flatMap.mp htrade
    exact h.trades result hresult trade hmem
  have hslippage := @stitchedSlippage_nonneg runs trialId costId h.slippage
  unfold stitchedMetrics
  split_ifs
  · exact .pure none
  · exact .bind (calculateMetrics_raises powers h.valid htrades fun _ => hslippage)
      fun _ _ => .pure _

/-- The stitched result, when nothing leaves the range of doubles. -/
theorem stitchOos_eq_ok (hfinite : FiniteStitch powers runs trialId costId folds) :
    ∃ metrics, stitchOos powers runs trialId costId folds = .ok {
      trialId
      costId
      status := if (stitched runs trialId costId folds).complete then .complete else .incomplete
      returns := (stitched runs trialId costId folds).returns
      equityCurve := (stitched runs trialId costId folds).equity
      metrics } := by
  obtain ⟨metrics, hmetrics⟩ := hfinite.metrics
  obtain ⟨s, hloop, hshadows⟩ := h.shadows
  have hrange : ∀ point ∈ (stitched runs trialId costId folds).equity, InRange point.equity := by
    by_cases hempty : (stitched runs trialId costId folds).equity = []
    · simp [hempty]
    · rw [stitchedMetrics, if_neg hempty] at hmetrics
      obtain ⟨computed, hcomputed, -⟩ := Except.map_eq_ok.mp hmetrics
      exact calculateMetrics_finite rfl hcomputed
  obtain rfl := hshadows.finite hfinite.returns hrange
  have hnodup : ((stitched runs trialId costId folds).equity.map EquityPoint.timestamp).Nodup :=
    (List.pairwise_map.mpr h.valid.ordered).imp fun hlt => hlt.ne
  refine ⟨metrics, Except.bind_eq_ok.mpr ⟨_, hloop, ?_⟩⟩
  refine Except.bind_eq_ok.mpr ⟨(), reject_eq_ok.mpr (not_not.mpr hnodup), ?_⟩
  exact Except.bind_eq_ok.mpr ⟨metrics, hmetrics, rfl⟩

/-- When something leaves the range of doubles, stitching raises an error about it. -/
theorem stitchOos_eq_error (hfinite : ¬FiniteStitch powers runs trialId costId folds) :
    ∃ e ∈ nonfiniteFailures, stitchOos powers runs trialId costId folds = .error e := by
  obtain ⟨s, hloop, hshadows⟩ := h.shadows
  have hordered : s.equity.Pairwise fun earlier later => earlier.timestamp < later.timestamp := by
    have htimes := List.pairwise_map.mpr h.valid.ordered
    rw [← hshadows.timestamps] at htimes
    exact List.pairwise_map.mp htimes
  have hnodup : (s.equity.map EquityPoint.timestamp).Nodup :=
    (List.pairwise_map.mpr hordered).imp fun hlt => hlt.ne
  have hraised : ∃ e ∈ nonfiniteFailures,
      stitchedMetrics powers runs trialId costId s = .error e := by
    by_cases hrange : ∀ point ∈ s.equity, InRange point.equity
    · obtain ⟨rfl, hreturns⟩ := hshadows.unbroken hrange
      cases hmetrics : stitchedMetrics powers runs trialId costId
          (stitched runs trialId costId folds) with
      | error e => exact ⟨e, h.metrics_raises powers e hmetrics, rfl⟩
      | ok metrics => exact absurd ⟨hreturns, metrics, hmetrics⟩ hfinite
    · push Not at hrange
      obtain ⟨point, hpoint, hbroken⟩ := hrange
      obtain ⟨e, he, hcomputed⟩ := calculateMetrics_nonfinite powers hordered hpoint hbroken
        s.trades (stitchedSlippage runs trialId costId)
      refine ⟨e, he, ?_⟩
      rw [stitchedMetrics, if_neg (List.ne_nil_of_mem hpoint), hcomputed]
      rfl
  obtain ⟨e, he, hmetrics⟩ := hraised
  refine ⟨e, he, Except.bind_eq_error.mpr (.inr ⟨s, hloop, ?_⟩)⟩
  refine Except.bind_eq_error.mpr (.inr ⟨(), reject_eq_ok.mpr (not_not.mpr hnodup), ?_⟩)
  exact Except.bind_eq_error.mpr (.inl hmetrics)

/-- Stitching can only fail to be finite. -/
theorem stitchOos_raises :
    RaisesOnly nonfiniteFailures (stitchOos powers runs trialId costId folds) := by
  intro e he
  by_cases hfinite : FiniteStitch powers runs trialId costId folds
  · obtain ⟨metrics, hok⟩ := stitchOos_eq_ok powers h hfinite
    cases hok.symm.trans he
  · obtain ⟨raised, hmem, hraised⟩ := stitchOos_eq_error powers h hfinite
    cases hraised.symm.trans he
    exact hmem

/-- What is stitched is finite. -/
theorem stitchOos_finite {result : StitchedOosResult}
    (hresult : stitchOos powers runs trialId costId folds = .ok result) :
    FiniteStitch powers runs trialId costId folds := by
  by_contra hbroken
  obtain ⟨e, -, he⟩ := stitchOos_eq_error powers h hbroken
  cases hresult.symm.trans he

/-- What is stitched are the variables of the exact loop. -/
theorem stitchOos_result {result : StitchedOosResult}
    (hresult : stitchOos powers runs trialId costId folds = .ok result) : ∃ metrics, result = {
      trialId
      costId
      status := if (stitched runs trialId costId folds).complete then .complete else .incomplete
      returns := (stitched runs trialId costId folds).returns
      equityCurve := (stitched runs trialId costId folds).equity
      metrics } := by
  obtain ⟨metrics, hok⟩ := stitchOos_eq_ok powers h (stitchOos_finite powers h hresult)
  exact ⟨metrics, Except.ok.inj (hresult.symm.trans hok)⟩

/-- A stitched result says of the folds what they have gained. -/
theorem stitchOos_stitchLaw {result : StitchedOosResult}
    (hresult : stitchOos powers runs trialId costId folds = .ok result) :
    StitchLaw runs trialId costId folds result := by
  obtain ⟨metrics, rfl⟩ := stitchOos_result powers h hresult
  have hnonempty : ∀ points ∈ completedCurves runs trialId costId folds, points ≠ [] :=
    fun _ => completedCurves_ne_nil
  exact {
    complete_iff := by
      simp only [completeFold_iff, stitched]
      rw [← List.all_eq_true]
      split_ifs with hall
      · simp [hall]
      · simp [hall]
    empty := by
      intro hnone
      simp only [stitched, hnone]
      exact ⟨rfl, rfl⟩
    start := by
      intro points hpoints first hfirst
      obtain ⟨later, hlater⟩ := List.head?_eq_some_iff.mp hpoints
      simp only [stitched, hlater, stitchedCurve_cons hfirst, List.head?_cons]
    points := by
      rw [stitched, stitchedCurve_tail hnonempty, chained_timestamps]
    last := stitchedCurve_last h.foldCurves hnonempty
    bankrupt := by
      intro done points todo hsplit hbankrupt
      simp only [stitched, hsplit]
      exact stitchedCurve_bankrupt hbankrupt
    compounded := by
      intro hsome
      apply stitchedCurve_equities h.foldCurves hnonempty
      intro hnone
      apply hsome
      simp only [stitched, hnone]
      rfl
    periods := by
      simp only [stitched]
      rw [foldReturns_timestamps, stitchedCurve_tail hnonempty, chained_timestamps] }

end

/-- A completed run without trades. -/
def quietRun (foldId : String) (phase : Phase) (equityCurve : List EquityPoint) :
    WalkForwardRun where
  phase
  foldId
  trialId := "baseline"
  costId := "zero"
  status := .completed
  result := some ⟨equityCurve, [], [], 0, 0, 0⟩
  metrics := none

/-- A fold that gains a tenth, one whose train run is missing and that loses all, and one
without runs. -/
def quietRuns : List WalkForwardRun :=
  [quietRun "fold-000" .train [⟨0, 100⟩], quietRun "fold-000" .oos [⟨1, 100⟩, ⟨2, 110⟩],
    quietRun "fold-001" .oos [⟨3, 100⟩, ⟨4, 0⟩]]

/-- The runs of `quietRuns` are what the walk-forward retains. -/
theorem stitchEvidence_quietRuns : StitchEvidence quietRuns "baseline" "zero"
    ["fold-000", "fold-001", "fold-002"] := by
  have hresults : completedResults quietRuns "baseline" "zero"
      ["fold-000", "fold-001", "fold-002"] =
      [⟨[⟨1, 100⟩, ⟨2, 110⟩], [], [], 0, 0, 0⟩, ⟨[⟨3, 100⟩, ⟨4, 0⟩], [], [], 0, 0, 0⟩] := by
    decide +kernel
  refine ⟨?_, ?_, ?_, ?_⟩
  · rw [hresults]
    intro result hresult
    simp only [List.mem_cons, List.not_mem_nil, or_false] at hresult
    rcases hresult with rfl | rfl
    · exact ⟨⟨by decide, by decide +kernel, by decide +kernel⟩, by decide +kernel⟩
    · exact ⟨⟨by decide, by decide +kernel, by decide +kernel⟩, by decide +kernel⟩
  · rw [completedCurves, hresults]
    decide
  · rw [hresults]
    simp
  · intro run hrun result hresult
    simp only [quietRuns, List.mem_cons, List.not_mem_nil, or_false] at hrun
    rcases hrun with rfl | rfl | rfl
    all_goals
      cases hresult
      decide +kernel

/-- A fold that doubles in one bar. -/
def doubledRuns : List WalkForwardRun :=
  [quietRun "fold-000" .train [⟨0, 100⟩], quietRun "fold-000" .oos [⟨1, 100⟩, ⟨2, 200⟩]]

end AutoBit.Validation
