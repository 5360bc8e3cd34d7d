import AutoBit.Backtest.Metrics
import AutoBit.Library.Peaks
import Mathlib.Algebra.Order.Ring.Rat

/-!
# The drawdown of an equity curve

The maximum drawdown is computed in three places: by the metrics of a backtest, by the command
that validates, and by the report. Each scans the curve once and keeps its peak. Floats are exact
rationals, and those outside the range of doubles stand for the ones that are not finite; a power,
a square or a sum of the report that leaves the range raises an `OverflowError`.
-/

namespace AutoBit.Reporting

open Library Backtest

/-! ## The loops -/

/-- The variables of the loop of `_maximum_drawdown`. -/
structure PeakScan where
  peak : ℚ
  maximum : ℚ
  deriving DecidableEq, Repr

/-- One round of the loop of `_maximum_drawdown`. -/
def PeakScan.next (scan : PeakScan) (value : ℚ) : PeakScan :=
  if scan.peak ≤ value then { scan with peak := value }
  else if 0 < scan.peak then
    { scan with maximum := max scan.maximum ((scan.peak - value) / scan.peak) }
  else scan

/-- `_maximum_drawdown`. -/
def maximumDrawdown : List ℚ → ℚ
  | [] => 0
  | first :: rest => (rest.foldl PeakScan.next ⟨first, 0⟩).maximum

/-- `_PathMetrics`. -/
structure PathMetrics where
  totalReturn : ℚ
  annualizedReturn : ℚ
  sharpe : ℚ
  sortino : ℚ
  maxDrawdown : ℚ
  maxDrawdownDurationBars : ℕ
  calmar : ℚ
  deriving DecidableEq, Repr

/-- One round of the loop of `_calculate_path_metrics`. -/
def scanPath (scan : Underwater) (value : ℚ) : Underwater :=
  if scan.peak ≤ value then { scan with peak := value, duration := 0 }
  else
    let duration := scan.duration + 1
    { scan with
      duration
      maxDuration := max scan.maxDuration duration
      maxDrawdown := max scan.maxDrawdown ((scan.peak - value) / scan.peak) }

/-- `OverflowError` of a power, and of `math.fsum`. -/
def powerOverflow : Failure := .overflow "(34, 'Numerical result out of range')"

def sumOverflow : Failure := .overflow "intermediate overflow in fsum"

/-- `annualized` of `_calculate_path_metrics`: a power of an infinite base is infinite. -/
def pathAnnualized (powers : Powers) (totalReturn : ℚ) (returns : List ℚ) : Except Failure ℚ := do
  if returns = [] ∨ totalReturn = 0 then return 0
  if totalReturn ≤ -1 then return -1
  if ¬InRange (1 + totalReturn) then return binary64Overflow
  let result ← require (powers.power (1 + totalReturn) (2190 / returns.length)) powerOverflow
  return result - 1

/-- The mean of `returns` in `_calculate_path_metrics`. -/
def pathMean (returns : List ℚ) : Except Failure ℚ := do
  let total ← require (fsum returns) sumOverflow
  return quotient total returns.length

/-- One round of `math.fsum` over squares: its sum, and whether a square so far is infinite, which
the square of a finite value never is. -/
def squareStep (scan : ℚ × Bool) (value : ℚ) : Except Failure (ℚ × Bool) := do
  if ¬InRange value then return (0, true)
  reject (¬InRange (value ^ 2)) powerOverflow
  let total ← require (fsumStep scan.1 (value ^ 2)) sumOverflow
  return (total, scan.2)

/-- `math.fsum(value ** 2 for value in values)`. -/
def squareSum (values : List ℚ) : Except Failure ℚ := do
  let scan ← values.foldlM squareStep (0, false)
  return if scan.2 then binary64Overflow else scan.1

/-- `sharpe` of `_calculate_path_metrics`. -/
def pathSharpe (powers : Powers) (mean : ℚ) (returns : List ℚ) : Except Failure ℚ := do
  -- an infinite mean leaves no variance: it is NaN, and max(0.0, nan) is 0.0
  if ¬InRange mean then return 0
  let squares ← squareSum (returns.map fun value => value - mean)
  -- a finite mean is nothing beside an infinite deviation
  if ¬InRange squares then return 0
  let deviation := powers.sqrt (max 0 (squares / returns.length))
  return if 0 < deviation then product (mean / deviation) (powers.sqrt 2190) else 0

/-- `sortino` of `_calculate_path_metrics`. -/
def pathSortino (powers : Powers) (mean : ℚ) (returns : List ℚ) : Except Failure ℚ := do
  let squares ← squareSum (returns.map fun value => min value 0)
  let downside := powers.sqrt (squares / returns.length)
  return if 0 < downside then product (quotient mean downside) (powers.sqrt 2190) else 0

/-- `_calculate_path_metrics`, which reads the first and the last equity and divides by the first.
Its returns are those that `_period_returns` computes of a curve, so that none is below minus
one. -/
def calculatePathMetrics (powers : Powers) (equity returns : List ℚ) :
    Except Failure PathMetrics := do
  let last ← require equity.getLast? (.value "list index out of range")
  let first ← require equity.head? (.value "list index out of range")
  reject (first = 0) (.value "float division by zero")
  let totalReturn := last / first - 1
  let annualizedReturn ← pathAnnualized powers totalReturn returns
  let mean ← pathMean returns
  let sharpe ← pathSharpe powers mean returns
  let sortino ← pathSortino powers mean returns
  let scan := equity.tail.foldl scanPath ⟨first, 0, 0, 0⟩
  return {
    totalReturn, annualizedReturn, sharpe, sortino
    maxDrawdown := scan.maxDrawdown
    maxDrawdownDurationBars := scan.maxDuration
    calmar := if 0 < scan.maxDrawdown then quotient annualizedReturn scan.maxDrawdown else 0 }

/-! ## What a scan knows -/

section Scans

variable {equity values rest : List ℚ} {scan : Underwater} {value : ℚ}

/-- A scan of the first values of a curve knows their peak, the deepest fall and the runs of points
below the peak. -/
structure Scanned (equity values : List ℚ) (scan : Underwater) : Prop where
  peak : values.maximum = scan.peak
  deepest : IsGreatest (falls values) scan.maxDrawdown
  runs : Runs (Below equity) values.length scan.duration scan.maxDuration

/-- The scan begins at the first value. -/
theorem Scanned.start (first : ℚ) (rest : List ℚ) :
    Scanned (first :: rest) [first] ⟨first, 0, 0, 0⟩ where
  peak := List.maximum_singleton first
  deepest := by
    refine ⟨.inl rfl, ?_⟩
    rintro fall (hzero | ⟨i, j, earlier, later, hij, hi, hj, -⟩)
    · exact hzero.le
    · have hjlen := (List.getElem?_eq_some_iff.mp hj).1
      rw [List.length_singleton] at hjlen
      omega
  runs := by
    refine (Runs.start _).reset ?_
    rintro ⟨value, -, hbelow⟩
    simp at hbelow

/-- A round of the scan. -/
theorem Scanned.next (h : Scanned (values ++ value :: rest) values scan) (hnonneg : 0 ≤ value) :
    Scanned (values ++ value :: rest) (values ++ [value]) (scan.next value) := by
  obtain ⟨hmem, hpeak⟩ := List.maximum_eq_coe_iff.mp h.peak
  have hbelow : Below (values ++ value :: rest) values.length ↔ value < scan.peak := by
    rw [← below_snoc h.peak, List.append_cons, below_append (by simp)]
  rw [Underwater.next]
  by_cases hrises : scan.peak ≤ value
  · rw [if_pos hrises]
    refine ⟨?_, ?_, ?_⟩
    · rw [List.maximum_concat, h.peak]
      exact max_eq_right (WithBot.coe_le_coe.mpr hrises)
    · exact isGreatest_falls_peak h.deepest fun earlier hearlier =>
        (hpeak earlier hearlier).trans hrises
    · rw [List.length_append, List.length_singleton]
      exact h.runs.reset fun hlow => absurd (hbelow.mp hlow) (not_lt.mpr hrises)
  · rw [if_neg hrises]
    have hfalls := not_le.mp hrises
    refine ⟨?_, ?_, ?_⟩
    · rw [List.maximum_concat, h.peak]
      exact max_eq_left (WithBot.coe_le_coe.mpr hfalls.le)
    · exact isGreatest_falls_below h.deepest hmem hpeak hnonneg hfalls
    · rw [List.length_append, List.length_singleton]
      exact h.runs.hold (hbelow.mpr hfalls)

/-- The rest of the scan. -/
theorem Scanned.foldl (h : Scanned equity values scan) (hequity : equity = values ++ rest)
    (hnonneg : ∀ value ∈ rest, 0 ≤ value) :
    Scanned equity equity (rest.foldl Underwater.next scan) := by
  induction rest generalizing values scan with
  | nil =>
    rw [List.append_nil] at hequity
    subst hequity
    exact h
  | cons value rest ih =>
    subst hequity
    rw [List.foldl_cons]
    refine ih (h.next (hnonneg value List.mem_cons_self)) (List.append_cons _ _ _) ?_
    exact fun later hlater => hnonneg later (List.mem_cons_of_mem value hlater)

/-- `_drawdown` finds the deepest fall and the longest run below the peak. -/
theorem drawdown_isGreatest {first : ℚ} (hnonneg : ∀ value ∈ rest, 0 ≤ value) :
    IsGreatest (falls (first :: rest)) (drawdown (first :: rest)).1 ∧
      IsGreatest (runLengths (Below (first :: rest)) (first :: rest).length)
        (drawdown (first :: rest)).2 := by
  have hscanned := (Scanned.start first rest).foldl rfl hnonneg
  exact ⟨hscanned.deepest, hscanned.runs.longest⟩

/-- A round of `_maximum_drawdown` keeps the peak and the maximum that a round of `_drawdown` does,
and a peak that is positive stays so. -/
theorem peakScan_next (hpeak : 0 < scan.peak) (value : ℚ) :
    PeakScan.next ⟨scan.peak, scan.maxDrawdown⟩ value =
        ⟨(scan.next value).peak, (scan.next value).maxDrawdown⟩ ∧
      0 < (scan.next value).peak := by
  rw [PeakScan.next, Underwater.next]
  by_cases hrises : scan.peak ≤ value
  · rw [if_pos hrises, if_pos hrises]
    exact ⟨rfl, hpeak.trans_le hrises⟩
  · rw [if_neg hrises, if_neg hrises, if_pos hpeak]
    exact ⟨rfl, hpeak⟩

/-- The loop of `_maximum_drawdown` beside that of `_drawdown`. -/
theorem foldl_peakScan (rest : List ℚ) (hpeak : 0 < scan.peak) :
    rest.foldl PeakScan.next ⟨scan.peak, scan.maxDrawdown⟩ =
      ⟨(rest.foldl Underwater.next scan).peak, (rest.foldl Underwater.next scan).maxDrawdown⟩ := by
  induction rest generalizing scan with
  | nil => rfl
  | cons value rest ih =>
    obtain ⟨hround, hkept⟩ := peakScan_next hpeak value
    rw [List.foldl_cons, List.foldl_cons, hround]
    exact ih hkept

/-- The two drawdowns agree on a curve with a positive first value. -/
theorem maximumDrawdown_eq {first : ℚ} (hfirst : 0 < first) (rest : List ℚ) :
    maximumDrawdown (first :: rest) = (drawdown (first :: rest)).1 := by
  have hpeak : 0 < (⟨first, 0, 0, 0⟩ : Underwater).peak := hfirst
  exact congrArg PeakScan.maximum (foldl_peakScan rest hpeak)

/-- The loop of `_calculate_path_metrics` is that of `_drawdown`. -/
theorem scanPath_eq : scanPath = Underwater.next := rfl

/-- The errors of a report whose floats overflow. -/
def overflowFailures : List Failure := [powerOverflow, sumOverflow]

/-- A sum of squares raises only for an overflow. -/
theorem squareSum_raises (values : List ℚ) : RaisesOnly overflowFailures (squareSum values) := by
  refine .bind (.foldlM fun scan value => ?_) fun _ _ => .pure _
  unfold squareStep
  split_ifs
  · refine .bind (.reject fun _ => by simp [overflowFailures]) fun _ _ => ?_
    exact .bind (.require (by simp [overflowFailures])) fun _ _ => .pure _
  · exact .pure _

/-- The annualized return of a path raises only for an overflow. -/
theorem pathAnnualized_raises (powers : Powers) (totalReturn : ℚ) (returns : List ℚ) :
    RaisesOnly overflowFailures (pathAnnualized powers totalReturn returns) := by
  unfold pathAnnualized
  split_ifs
  · exact .pure _
  · exact .pure _
  · exact .bind (.require (by simp [overflowFailures])) fun _ _ => .pure _
  · exact .pure _

/-- The Sharpe ratio of a path raises only for an overflow. -/
theorem pathSharpe_raises (powers : Powers) (mean : ℚ) (returns : List ℚ) :
    RaisesOnly overflowFailures (pathSharpe powers mean returns) := by
  unfold pathSharpe
  split_ifs
  · refine .bind (squareSum_raises _) fun _ _ => ?_
    split_ifs <;> exact .pure _
  · exact .pure _

/-- What `_calculate_path_metrics` computes of the returns of a curve does not overflow: the growth
in a year, the sum of the returns, and the sums of the squares of their distances from the mean and
of the falls. -/
structure NoOverflow (powers : Powers) (equity returns : List ℚ) : Prop where
  growth : ∀ first ∈ equity.head?, ∀ last ∈ equity.getLast?, returns ≠ [] → last ≠ first →
    0 < last → InRange (last / first) →
    (powers.power (last / first) (2190 / returns.length)).isSome = true
  sum : (fsum returns).isSome = true
  squares : ∀ mean, pathMean returns = .ok mean → InRange mean →
    (squareSum (returns.map fun value => value - mean)).isOk = true
  falls : (squareSum (returns.map fun value => min value 0)).isOk = true

/-- The path metrics of a curve with a positive first value have the drawdown of the backtest. -/
theorem calculatePathMetrics_drawdown {powers : Powers} {first : ℚ} {rest returns : List ℚ}
    {metrics : PathMetrics}
    (h : calculatePathMetrics powers (first :: rest) returns = .ok metrics) :
    (metrics.maxDrawdown, metrics.maxDrawdownDurationBars) = drawdown (first :: rest) := by
  simp only [calculatePathMetrics, Except.bind_eq_ok, Except.pure_eq_ok, require_eq_ok,
    List.head?_cons, Option.some.injEq] at h
  obtain ⟨last, -, _, rfl, -, -, annualized, -, mean, -, sharpe, -, sortino, -, rfl⟩ := h
  rw [scanPath_eq]
  rfl

/-- The path metrics of a curve with a positive first value can only overflow. -/
theorem calculatePathMetrics_raises (powers : Powers) {first : ℚ} (hfirst : 0 < first)
    (rest returns : List ℚ) :
    RaisesOnly overflowFailures (calculatePathMetrics powers (first :: rest) returns) := by
  refine .bind (.of_ok (require_eq_ok.mpr (List.getLast?_eq_some_getLast (by simp)))) fun last _ => ?_
  refine .bind (.of_ok (a := first) rfl) fun head hhead => ?_
  obtain rfl := Except.ok.inj hhead
  refine .bind (.reject fun hzero => absurd hzero hfirst.ne') fun _ _ => ?_
  refine .bind (pathAnnualized_raises _ _ _) fun _ _ => ?_
  refine .bind (.bind (.require (by simp [overflowFailures])) fun _ _ => .pure _) fun _ _ => ?_
  refine .bind (pathSharpe_raises _ _ _) fun _ _ => ?_
  exact .bind (.bind (squareSum_raises _) fun _ _ => .pure _) fun _ _ => .pure _

/-- The path metrics of a curve with a positive first value exist exactly when nothing overflows. -/
theorem calculatePathMetrics_iff (powers : Powers) {first : ℚ} (hfirst : 0 < first)
    (rest returns : List ℚ) :
    (∃ metrics, calculatePathMetrics powers (first :: rest) returns = .ok metrics) ↔
      NoOverflow powers (first :: rest) returns := by
  obtain ⟨last, hlast⟩ : ∃ last, (first :: rest).getLast? = some last :=
    ⟨_, List.getLast?_eq_some_getLast (List.cons_ne_nil first rest)⟩
  have hgrowth : 1 + (last / first - 1) = last / first := by ring
  have hlost : last / first - 1 ≤ -1 ↔ last ≤ 0 := by
    rw [sub_le_iff_le_add, neg_add_cancel, div_le_iff₀ hfirst, zero_mul]
  have hsame : last / first - 1 = 0 ↔ last = first := by
    rw [sub_eq_zero, div_eq_one_iff_eq hfirst.ne']
  constructor
  · rintro ⟨metrics, h⟩
    obtain ⟨_, hlast', h⟩ := Except.bind_eq_ok.mp h
    obtain rfl := Option.some.inj (hlast.symm.trans (require_eq_ok.mp hlast'))
    obtain ⟨_, hhead, h⟩ := Except.bind_eq_ok.mp h
    obtain rfl := Option.some.inj (require_eq_ok.mp hhead)
    obtain ⟨-, -, h⟩ := Except.bind_eq_ok.mp h
    obtain ⟨annualized, hannualized, h⟩ := Except.bind_eq_ok.mp h
    obtain ⟨mean, hmean, h⟩ := Except.bind_eq_ok.mp h
    obtain ⟨sharpe, hsharpe, h⟩ := Except.bind_eq_ok.mp h
    obtain ⟨sortino, hsortino, -⟩ := Except.bind_eq_ok.mp h
    refine ⟨?_, ?_, ?_, ?_⟩
    · rintro _ hmem last' hlast' hsome hmoved hpositive hrange
      cases hmem
      obtain rfl := Option.some.inj (hlast.symm.trans hlast')
      rw [pathAnnualized, if_neg (by simp [hsome, hsame, hmoved]),
        if_neg (by rwa [hlost, not_le]), if_neg (by rwa [hgrowth, not_not]), hgrowth] at hannualized
      obtain ⟨result, hpower, -⟩ := Except.bind_eq_ok.mp hannualized
      rw [require_eq_ok.mp hpower]
      rfl
    · obtain ⟨sum, hsum, -⟩ := Except.bind_eq_ok.mp hmean
      rw [require_eq_ok.mp hsum]
      rfl
    · intro mean' hmean' hrange
      obtain rfl := Except.ok.inj (hmean.symm.trans hmean')
      rw [pathSharpe, if_neg (not_not.mpr hrange)] at hsharpe
      obtain ⟨squares, hsquares, -⟩ := Except.bind_eq_ok.mp hsharpe
      rw [hsquares]
      rfl
    · obtain ⟨squares, hsquares, -⟩ := Except.bind_eq_ok.mp hsortino
      rw [hsquares]
      rfl
  · intro h
    obtain ⟨annualized, hannualized⟩ :
        ∃ annualized, pathAnnualized powers (last / first - 1) returns = .ok annualized := by
      unfold pathAnnualized
      split_ifs with hquiet hbankrupt hrange
      · exact ⟨_, rfl⟩
      · exact ⟨_, rfl⟩
      · rw [hsame, not_or] at hquiet
        rw [hlost, not_le] at hbankrupt
        rw [hgrowth] at hrange
        have hpower := h.growth first rfl last hlast hquiet.1 hquiet.2 hbankrupt hrange
        obtain ⟨result, hresult⟩ := Option.isSome_iff_exists.mp hpower
        rw [hgrowth]
        exact ⟨_, Except.bind_eq_ok.mpr ⟨result, require_eq_ok.mpr hresult, rfl⟩⟩
      · exact ⟨_, rfl⟩
    obtain ⟨sum, hsum⟩ := Option.isSome_iff_exists.mp h.sum
    have hmean : pathMean returns = .ok (quotient sum returns.length) :=
      Except.bind_eq_ok.mpr ⟨sum, require_eq_ok.mpr hsum, rfl⟩
    obtain ⟨sharpe, hsharpe⟩ :
        ∃ sharpe, pathSharpe powers (quotient sum returns.length) returns = .ok sharpe := by
      by_cases hrange : InRange (quotient sum returns.length)
      · obtain ⟨squares, hsquares⟩ := Except.isOk_iff.mp (h.squares _ hmean hrange)
        rw [pathSharpe, if_neg (not_not.mpr hrange), Except.exists_bind_eq_ok]
        refine ⟨squares, hsquares, ?_⟩
        split_ifs <;> exact ⟨_, rfl⟩
      · rw [pathSharpe, if_pos hrange]
        exact ⟨0, rfl⟩
    obtain ⟨falls, hfalls⟩ := Except.isOk_iff.mp h.falls
    refine Except.exists_bind_eq_ok.mpr ⟨last, require_eq_ok.mpr hlast, ?_⟩
    refine Except.exists_bind_eq_ok.mpr ⟨first, rfl, ?_⟩
    refine Except.exists_bind_eq_ok.mpr ⟨(), reject_eq_ok.mpr hfirst.ne', ?_⟩
    refine Except.exists_bind_eq_ok.mpr ⟨annualized, hannualized, ?_⟩
    refine Except.exists_bind_eq_ok.mpr ⟨_, hmean, ?_⟩
    refine Except.exists_bind_eq_ok.mpr ⟨sharpe, hsharpe, ?_⟩
    refine Except.exists_bind_eq_ok.mpr ⟨_, Except.bind_eq_ok.mpr ⟨falls, hfalls, rfl⟩, ?_⟩
    exact ⟨_, rfl⟩

end Scans

end AutoBit.Reporting
