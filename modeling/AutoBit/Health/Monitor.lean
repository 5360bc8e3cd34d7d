import AutoBit.Health.Snapshot

/-!
# The health monitor

Each observation replaces the snapshot held by the monitor. The ten recording methods
are written one by one after the source; `observe` dispatches on the observation.
-/

namespace AutoBit.Health

open Library

/-- `_latest_observation`. -/
def latestObservation (current observed : Option ℤ) : Option ℤ :=
  match current, observed with
  | none, observed => observed
  | current, none => current
  | some current, some observed => some (max current observed)

/-- `_finish_observation`: derive the reasons and move the stage. -/
def finishObservation (s : HealthSnapshot) : HealthSnapshot :=
  let reasons := deriveReasons s
  let stage :=
    if reasons ≠ [] then .halted
    else if s.stage = .halted then
      if apiSuccessesRequired ≤ s.apiSuccesses then .reduced else .halted
    else s.stage
  { s with
    stage
    reasons
    retryAttempts := if stage = .halted then s.retryAttempts + 1 else 0 }

/-- Whether an API observation is at or before the last accepted one and so is ignored. -/
def staleApiObservation (s : HealthSnapshot) (observed : ℤ) : Prop :=
  ∃ last ∈ lastApiObservation s, observed ≤ last

instance (s : HealthSnapshot) (observed : ℤ) : Decidable (staleApiObservation s observed) :=
  inferInstanceAs (Decidable (∃ last ∈ lastApiObservation s, observed ≤ last))

/-- `record_api_failure`. -/
def recordApiFailure (s : HealthSnapshot) (observed : ℤ) : HealthSnapshot :=
  if staleApiObservation s observed then s
  else
    let failures := s.apiFailures + 1
    let latched := s.apiFailureLatched || 3 ≤ failures
    let activation :=
      if latched ∧ s.apiLatchActivatedAtUtc = none then some observed
      else s.apiLatchActivatedAtUtc
    finishObservation { s with
      apiFailures := failures
      apiSuccesses := 0
      apiFailureLatched := latched
      apiLatchActivatedAtUtc := activation
      lastFailureAtUtc := some observed
      lastObservationAtUtc := latestObservation s.lastObservationAtUtc (some observed) }

/-- `record_api_success`. -/
def recordApiSuccess (s : HealthSnapshot) (observed : ℤ) : HealthSnapshot :=
  if staleApiObservation s observed then s
  else
    let successes := min apiSuccessesRequired (s.apiSuccesses + 1)
    let latched := s.apiFailureLatched && successes < apiSuccessesRequired
    finishObservation { s with
      apiFailures := 0
      apiSuccesses := successes
      apiFailureLatched := latched
      apiLatchActivatedAtUtc := if latched then s.apiLatchActivatedAtUtc else none
      lastSuccessAtUtc := some observed
      lastObservationAtUtc := latestObservation s.lastObservationAtUtc (some observed) }

/-- `record_candle_check`. -/
def recordCandleCheck (s : HealthSnapshot) (expectedEnd : ℤ) (observedEnd : Option ℤ)
    (checkedAt : ℤ) (structurallyValid : Bool) : HealthSnapshot :=
  let latestValid :=
    if observedEnd = some expectedEnd ∧ structurallyValid then true
    else if expectedEnd + staleAfter ≤ checkedAt then false
    else s.latestCandleValid
  let newlyFaulted := (s.latestCandleValid && !latestValid) || (s.schemaValid && !structurallyValid)
  finishObservation { s with
    latestCandleValid := latestValid
    schemaValid := s.schemaValid && structurallyValid
    apiSuccesses := if newlyFaulted then 0 else s.apiSuccesses
    lastObservationAtUtc := latestObservation s.lastObservationAtUtc (some checkedAt) }

/-- `record_timestamp_check`: `_set_predicate` on `timestamps_monotonic`. -/
def recordTimestampCheck (s : HealthSnapshot) (monotonic : Bool) (observed : ℤ) :
    HealthSnapshot :=
  finishObservation { s with
    timestampsMonotonic := monotonic
    apiSuccesses := if s.timestampsMonotonic && !monotonic then 0 else s.apiSuccesses
    lastObservationAtUtc := latestObservation s.lastObservationAtUtc (some observed) }

/-- `record_schema_check`: `_set_predicate` on `schema_valid`. -/
def recordSchemaCheck (s : HealthSnapshot) (valid : Bool) (observed : ℤ) : HealthSnapshot :=
  finishObservation { s with
    schemaValid := valid
    apiSuccesses := if s.schemaValid && !valid then 0 else s.apiSuccesses
    lastObservationAtUtc := latestObservation s.lastObservationAtUtc (some observed) }

/-- `_fail_schema`: what a recording method does before it raises on a bad argument. -/
def failSchema (s : HealthSnapshot) (observed : Option ℤ) : HealthSnapshot :=
  finishObservation { s with
    schemaValid := false
    apiSuccesses := if s.schemaValid then 0 else s.apiSuccesses
    lastObservationAtUtc := latestObservation s.lastObservationAtUtc observed }

/-- `set_unresolved_orders`. -/
def setUnresolvedOrders (s : HealthSnapshot) (count : ℕ) (observed : Option ℤ) :
    HealthSnapshot :=
  let newlyFaulted := s.unresolvedOrders = 0 ∧ 0 < count
  finishObservation { s with
    unresolvedOrders := count
    apiSuccesses := if newlyFaulted then 0 else s.apiSuccesses
    lastObservationAtUtc := latestObservation s.lastObservationAtUtc observed }

/-- `_nonnegative_number` on the decimal text of an argument: its double is finite and
not negative. A negative decimal that underflows to zero passes. -/
def isNonnegativeNumber (value : ℚ) : Prop :=
  (0 ≤ value ∨ binary64.round (-value) = 0) ∧ value < binary64Overflow

instance (value : ℚ) : Decidable (isNonnegativeNumber value) := inferInstanceAs (Decidable (_ ∧ _))

/-- `_positive_finite` on the decimal text of an argument: its double is finite and
does not underflow to zero. -/
def isPositiveFinite (value : ℚ) : Prop :=
  0 < value ∧ value < binary64Overflow ∧ binary64.round value ≠ 0

instance (value : ℚ) : Decidable (isPositiveFinite value) :=
  inferInstanceAs (Decidable (_ ∧ _ ∧ _))

/-- `float(abs(Decimal(str(left)) - Decimal(str(right))))`. -/
def decimalDifference (left right : ℚ) : FloatValue :=
  toFloat (decimal28.round |left - right|)

/-- `record_ledger_check`. -/
def recordLedgerCheck (s : HealthSnapshot) (storedCash actualCash storedBtc actualBtc : ℚ)
    (observed : Option ℤ) : HealthSnapshot :=
  if isNonnegativeNumber storedCash ∧ isNonnegativeNumber actualCash ∧
      isNonnegativeNumber storedBtc ∧ isNonnegativeNumber actualBtc then
    let cashDifference := decimalDifference storedCash actualCash
    let btcDifference := decimalDifference storedBtc actualBtc
    let ledgerAgrees := cashDifference.atMost ledgerTolerance &&
      btcDifference.atMost ledgerTolerance
    finishObservation { s with
      ledgerMatches := ledgerAgrees
      ledgerCashDifference := cashDifference
      ledgerBtcDifference := btcDifference
      apiSuccesses := if s.ledgerMatches && !ledgerAgrees then 0 else s.apiSuccesses
      lastObservationAtUtc := latestObservation s.lastObservationAtUtc observed }
  else failSchema s observed

/-- The decimal deviation of `record_fill_check`, rounded as the decimal context does. -/
def decimalDeviation (expected actual : ℚ) : ℚ :=
  decimal28.round (decimal28.round |actual - expected| / expected)

/-- The deviation that `record_fill_check` stores: the double nearest to the decimal one,
kept above the limit when the decimal one is. -/
def storedDeviation (decimalDeviation : ℚ) : FloatValue :=
  let deviation := toFloat decimalDeviation
  if fillDeviationLimitDecimal < decimalDeviation ∧ deviation.atMost fillDeviationLimit then
    .finite (binary64.next fillDeviationLimit)
  else deviation

/-- `record_fill_check`. -/
def recordFillCheck (s : HealthSnapshot) (expectedPrice actualPrice : ℚ) (observed : Option ℤ) :
    HealthSnapshot :=
  if isPositiveFinite expectedPrice ∧ isPositiveFinite actualPrice then
    let decimalDeviation := decimalDeviation expectedPrice actualPrice
    let withinLimit : Bool := decimalDeviation ≤ fillDeviationLimitDecimal
    let deviation := storedDeviation decimalDeviation
    let newlyFaulted := s.fillWithinLimit && !withinLimit
    let resolves := withinLimit && !s.fillWithinLimit
    finishObservation { s with
      fillWithinLimit := withinLimit
      fillDeviation := deviation
      fillAnomalyEpisode :=
        if newlyFaulted then s.fillAnomalyEpisode + 1 else s.fillAnomalyEpisode
      fillRecoveryChecks :=
        if !withinLimit then 0
        else if resolves then apiSuccessesRequired else s.fillRecoveryChecks
      fillAnomalyDeviation :=
        if !withinLimit then s.fillAnomalyDeviation.max deviation else s.fillAnomalyDeviation
      fillAnomalyDetectedAtUtc := if newlyFaulted then observed else s.fillAnomalyDetectedAtUtc
      fillAnomalyResolvedAtUtc :=
        if !withinLimit then none else if resolves then observed else s.fillAnomalyResolvedAtUtc
      lastFillRecoveryAtUtc := if !withinLimit then none else s.lastFillRecoveryAtUtc
      apiSuccesses := if newlyFaulted then 0 else s.apiSuccesses
      lastObservationAtUtc := latestObservation s.lastObservationAtUtc observed }
  else failSchema s observed

/-- `record_flat_fill_recovery_check`. -/
def recordFlatFillRecoveryCheck (s : HealthSnapshot) (eligible : Bool) (observed : ℤ) :
    HealthSnapshot :=
  if s.fillWithinLimit then s
  else if ∃ prior ∈ s.lastFillRecoveryAtUtc, observed ≤ prior then s
  else
    let checks := if eligible then min apiSuccessesRequired (s.fillRecoveryChecks + 1) else 0
    let resolved : Bool := eligible && apiSuccessesRequired ≤ checks
    finishObservation { s with
      fillWithinLimit := resolved
      fillDeviation := if resolved then .finite 0 else s.fillDeviation
      fillRecoveryChecks := checks
      fillAnomalyResolvedAtUtc := if resolved then some observed else none
      lastFillRecoveryAtUtc := some observed
      lastObservationAtUtc := latestObservation s.lastObservationAtUtc (some observed) }

/-- `record_recovery_cycle_success`. -/
def recordRecoveryCycleSuccess (s : HealthSnapshot) (observed : ℤ) : HealthSnapshot :=
  let seen := { s with
    lastObservationAtUtc := latestObservation s.lastObservationAtUtc (some observed) }
  if seen.stage = .reduced ∧ deriveReasons seen = [] then
    { seen with stage := .normal, retryAttempts := 0 }
  else finishObservation seen

/-- One call of a recording method. Numbers stand for the decimal value of the text of
the argument; `malformed` is a call whose argument has the wrong type. -/
inductive Observation where
  | apiFailure (observed : ℤ)
  | apiSuccess (observed : ℤ)
  | candleCheck (expectedEnd : ℤ) (observedEnd : Option ℤ) (checkedAt : ℤ)
      (structurallyValid : Bool)
  | timestampCheck (monotonic : Bool) (observed : ℤ)
  | schemaCheck (valid : Bool) (observed : ℤ)
  | unresolvedOrders (count : ℕ) (observed : Option ℤ)
  | ledgerCheck (storedCash actualCash storedBtc actualBtc : ℚ) (observed : Option ℤ)
  | fillCheck (expectedPrice actualPrice : ℚ) (observed : Option ℤ)
  | flatFillRecoveryCheck (eligible : Bool) (observed : ℤ)
  | recoveryCycleSuccess (observed : ℤ)
  | malformed (observed : Option ℤ)
  deriving DecidableEq, Repr

namespace Observation

/-- The observation time that a call records, when it gives one. -/
def time : Observation → Option ℤ
  | apiFailure observed | apiSuccess observed | candleCheck _ _ observed _
  | timestampCheck _ observed | schemaCheck _ observed | flatFillRecoveryCheck _ observed
  | recoveryCycleSuccess observed => some observed
  | unresolvedOrders _ observed | ledgerCheck _ _ _ _ observed | fillCheck _ _ observed
  | malformed observed => observed

/-- Whether a call accepts its arguments, that is, does not raise. -/
def Accepted : Observation → Prop
  | ledgerCheck storedCash actualCash storedBtc actualBtc _ =>
    isNonnegativeNumber storedCash ∧ isNonnegativeNumber actualCash ∧
      isNonnegativeNumber storedBtc ∧ isNonnegativeNumber actualBtc
  | fillCheck expectedPrice actualPrice _ =>
    isPositiveFinite expectedPrice ∧ isPositiveFinite actualPrice
  | malformed _ => False
  | _ => True

end Observation

/-- The snapshot after a call, also when the call raises. -/
def observe (s : HealthSnapshot) : Observation → HealthSnapshot
  | .apiFailure observed => recordApiFailure s observed
  | .apiSuccess observed => recordApiSuccess s observed
  | .candleCheck expectedEnd observedEnd checkedAt structurallyValid =>
    recordCandleCheck s expectedEnd observedEnd checkedAt structurallyValid
  | .timestampCheck monotonic observed => recordTimestampCheck s monotonic observed
  | .schemaCheck valid observed => recordSchemaCheck s valid observed
  | .unresolvedOrders count observed => setUnresolvedOrders s count observed
  | .ledgerCheck storedCash actualCash storedBtc actualBtc observed =>
    recordLedgerCheck s storedCash actualCash storedBtc actualBtc observed
  | .fillCheck expectedPrice actualPrice observed =>
    recordFillCheck s expectedPrice actualPrice observed
  | .flatFillRecoveryCheck eligible observed => recordFlatFillRecoveryCheck s eligible observed
  | .recoveryCycleSuccess observed => recordRecoveryCycleSuccess s observed
  | .malformed observed => failSchema s observed

/-- The snapshot after a sequence of calls. -/
def observeAll (s : HealthSnapshot) (observations : List Observation) : HealthSnapshot :=
  observations.foldl observe s

/-- No calls leave the snapshot as it is. -/
@[simp] theorem observeAll_nil (s : HealthSnapshot) : observeAll s [] = s := rfl

/-- The first of the calls is made first. -/
@[simp] theorem observeAll_cons (s : HealthSnapshot) (o : Observation)
    (observations : List Observation) :
    observeAll s (o :: observations) = observeAll (observe s o) observations := rfl

/-- Calls are made one stretch after the other. -/
theorem observeAll_append (s : HealthSnapshot) (before after : List Observation) :
    observeAll s (before ++ after) = observeAll (observeAll s before) after :=
  List.foldl_append

end AutoBit.Health
