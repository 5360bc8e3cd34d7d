import AutoBit.Library.Except
import AutoBit.Library.Rounding
import AutoBit.Basic

/-!
# Health snapshots and their strict deserialiser

`HealthSnapshot` is the complete restart-safe state of the health monitor. Its mapping
form is what the event log stores, and `HealthSnapshot.fromMapping` accepts a mapping
only when every field and every relationship between fields is consistent.
-/

namespace AutoBit.Health

open Library

/-- `HealthStage`. -/
inductive HealthStage where
  | normal
  | halted
  | reduced
  deriving DecidableEq, Repr

/-- The stored value of a stage. -/
def HealthStage.value : HealthStage → String
  | .normal => "NORMAL"
  | .halted => "HALTED"
  | .reduced => "REDUCED"

/-- The members of `HEALTH_REASON_ORDER`. -/
inductive HealthReason where
  | apiFailures
  | staleCandle
  | timestampReversal
  | schemaError
  | unresolvedOrder
  | ledgerMismatch
  | fillDeviation
  deriving DecidableEq, Repr

/-- The stored text of a reason. -/
def HealthReason.text : HealthReason → String
  | .apiFailures => "API_FAILURES"
  | .staleCandle => "STALE_CANDLE"
  | .timestampReversal => "TIMESTAMP_REVERSAL"
  | .schemaError => "SCHEMA_ERROR"
  | .unresolvedOrder => "UNRESOLVED_ORDER"
  | .ledgerMismatch => "LEDGER_MISMATCH"
  | .fillDeviation => "FILL_DEVIATION"

/-- `HEALTH_REASON_ORDER`. -/
def healthReasonOrder : List HealthReason :=
  [.apiFailures, .staleCandle, .timestampReversal, .schemaError, .unresolvedOrder,
    .ledgerMismatch, .fillDeviation]

/-- `_VERSION`. -/
def snapshotVersion : ℕ := 3

/-- `_LEGACY_VERSION`. -/
def legacyVersion : ℕ := 2

/-- `_API_SUCCESSES_REQUIRED`. -/
def apiSuccessesRequired : ℕ := 3

/-- `_LEDGER_TOLERANCE`, the double nearest to `1e-10`. -/
def ledgerTolerance : ℚ := binary64.round (1 / 10 ^ 10)

/-- `_FILL_DEVIATION_LIMIT`, the double nearest to `0.05`. -/
def fillDeviationLimit : ℚ := binary64.round (1 / 20)

/-- `_FILL_DEVIATION_LIMIT_DECIMAL`. -/
def fillDeviationLimitDecimal : ℚ := 1 / 20

/-- `_STALE_AFTER`. -/
def staleAfter : ℤ := minutes 10

/-- `HealthSnapshot`. -/
structure HealthSnapshot where
  version : ℕ := snapshotVersion
  stage : HealthStage := .normal
  reasons : List HealthReason := []
  apiFailures : ℕ := 0
  apiSuccesses : ℕ := 0
  apiFailureLatched : Bool := false
  apiLatchActivatedAtUtc : Option ℤ := none
  unresolvedOrders : ℕ := 0
  ledgerMatches : Bool := true
  ledgerCashDifference : FloatValue := .finite 0
  ledgerBtcDifference : FloatValue := .finite 0
  timestampsMonotonic : Bool := true
  schemaValid : Bool := true
  latestCandleValid : Bool := true
  fillWithinLimit : Bool := true
  fillDeviation : FloatValue := .finite 0
  fillAnomalyEpisode : ℕ := 0
  fillRecoveryChecks : ℕ := 0
  fillAnomalyDeviation : FloatValue := .finite 0
  fillAnomalyDetectedAtUtc : Option ℤ := none
  fillAnomalyResolvedAtUtc : Option ℤ := none
  lastFillRecoveryAtUtc : Option ℤ := none
  retryAttempts : ℕ := 0
  lastSuccessAtUtc : Option ℤ := none
  lastFailureAtUtc : Option ℤ := none
  lastObservationAtUtc : Option ℤ := none
  deriving DecidableEq, Repr

/-- A JSON scalar. The canonical UTC text of an instant is kept apart from other text,
since the two correspond one to one. -/
inductive Scalar where
  | null
  | bool (value : Bool)
  | int (value : ℤ)
  | float (value : FloatValue)
  | text (value : String)
  | utc (instant : ℤ)
  deriving DecidableEq, Repr

/-- A field of a stored payload. -/
inductive Json where
  | scalar (value : Scalar)
  | array (items : List Scalar)
  deriving DecidableEq, Repr

/-- A stored payload, as its items in order. -/
abbrev Mapping := List (String × Json)

/-- `_SNAPSHOT_V2_KEYS`. -/
def snapshotV2Keys : List String :=
  ["version", "stage", "reasons", "halt_entries", "resume_reduced", "api_failures",
    "api_successes", "api_failure_latched", "api_latch_activated_at_utc", "unresolved_orders",
    "ledger_matches", "ledger_cash_difference", "ledger_btc_difference",
    "timestamps_monotonic", "schema_valid", "latest_candle_valid", "fill_within_limit",
    "fill_deviation", "retry_attempts", "last_success_at_utc", "last_failure_at_utc",
    "last_observation_at_utc"]

/-- The keys that version three adds. -/
def fillRecoveryKeys : List String :=
  ["fill_anomaly_episode", "fill_recovery_checks", "fill_anomaly_deviation",
    "fill_anomaly_detected_at_utc", "fill_anomaly_resolved_at_utc",
    "last_fill_recovery_at_utc"]

/-- `_SNAPSHOT_KEYS`. -/
def snapshotKeys : List String := snapshotV2Keys ++ fillRecoveryKeys

/-- Equality of two collections of keys as sets. -/
def sameKeys (left right : List String) : Bool := left ⊆ right ∧ right ⊆ left

/-- `_derive_reasons`: whether each predicate is in its faulty state. -/
def reasonActive (s : HealthSnapshot) : HealthReason → Bool
  | .apiFailures => s.apiFailureLatched
  | .staleCandle => !s.latestCandleValid
  | .timestampReversal => !s.timestampsMonotonic
  | .schemaError => !s.schemaValid
  | .unresolvedOrder => 0 < s.unresolvedOrders
  | .ledgerMismatch => !s.ledgerMatches
  | .fillDeviation => !s.fillWithinLimit

/-- `_derive_reasons`. -/
def deriveReasons (s : HealthSnapshot) : List HealthReason :=
  healthReasonOrder.filter (reasonActive s)

/-- `_retry_delay`. -/
def retryDelay (attempts : ℕ) : ℕ :=
  if attempts = 0 then 0 else if attempts ≤ 5 then 2 ^ (attempts - 1) else 300

/-- `HealthAction`, with the fields of its `RecoveryProgress`. -/
structure HealthAction where
  haltEntries : Bool
  resumeReduced : Bool
  reason : Option HealthReason
  reasons : List HealthReason
  retryDelaySeconds : ℕ
  stage : HealthStage
  successesObserved : ℕ
  successesRequired : ℕ
  remainingGates : List String
  deriving DecidableEq, Repr

/-- `_action`. -/
def action (s : HealthSnapshot) : HealthAction where
  haltEntries := s.stage = .halted
  resumeReduced := s.stage = .reduced
  reason := (deriveReasons s).head?
  reasons := deriveReasons s
  retryDelaySeconds := if s.stage = .halted then retryDelay s.retryAttempts else 0
  stage := s.stage
  successesObserved := s.apiSuccesses
  successesRequired := apiSuccessesRequired
  remainingGates := (deriveReasons s).map HealthReason.text ++
    if s.stage = .halted ∧ s.apiSuccesses < apiSuccessesRequired then ["API_SUCCESSES"] else []

/-- `_last_api_observation`. -/
def lastApiObservation (s : HealthSnapshot) : Option ℤ :=
  match s.lastSuccessAtUtc, s.lastFailureAtUtc with
  | some success, some failure => some (max success failure)
  | some success, none => some success
  | none, failure => failure

/-- The fill-episode checks of `_validate_snapshot_relationships`. -/
def validateFillEpisode (s : HealthSnapshot) : Except String Unit := do
  reject (s.fillWithinLimit ≠ s.fillDeviation.atMost fillDeviationLimit)
    "fill predicate contradicts deviation"
  reject (apiSuccessesRequired < s.fillRecoveryChecks)
    "fill recovery checks exceed their canonical cap"
  if s.fillAnomalyEpisode = 0 then
    reject (s.fillWithinLimit = false ∨ s.fillRecoveryChecks ≠ 0 ∨
        s.fillAnomalyDeviation ≠ .finite 0 ∨ s.fillAnomalyDetectedAtUtc ≠ none ∨
        s.fillAnomalyResolvedAtUtc ≠ none ∨ s.lastFillRecoveryAtUtc ≠ none)
      "fill anomaly evidence exists without an episode"
  else
    reject (s.fillAnomalyDeviation.atMost fillDeviationLimit = true)
      "fill anomaly episode lacks trigger evidence"
    reject (s.fillWithinLimit = true ∧ s.fillRecoveryChecks ≠ apiSuccessesRequired)
      "resolved fill episode lacks bounded recovery evidence"
    reject (s.fillWithinLimit = false ∧
        (apiSuccessesRequired ≤ s.fillRecoveryChecks ∨ s.fillAnomalyResolvedAtUtc ≠ none))
      "active fill episode contradicts recovery evidence"
    reject (0 < s.fillRecoveryChecks ∧ s.fillRecoveryChecks < apiSuccessesRequired ∧
        s.lastFillRecoveryAtUtc = none) "fill recovery counter lacks observation evidence"
    reject (∃ detected ∈ s.fillAnomalyDetectedAtUtc, ∃ resolved ∈ s.fillAnomalyResolvedAtUtc,
        resolved < detected) "fill anomaly resolution predates detection"
    reject (∃ recovery ∈ s.lastFillRecoveryAtUtc, ∃ resolved ∈ s.fillAnomalyResolvedAtUtc,
        resolved < recovery) "fill recovery cursor postdates resolution"

/-- The API checks of `_validate_snapshot_relationships`. -/
def validateApiLatch (s : HealthSnapshot) : Except String Unit := do
  reject (s.apiFailureLatched ≠ decide (HealthReason.apiFailures ∈ deriveReasons s))
    "API latch contradicts reasons"
  reject (s.apiFailureLatched = true ∧ 3 ≤ s.apiSuccesses)
    "API latch contradicts recovery successes"
  reject (s.apiFailureLatched ≠ s.apiLatchActivatedAtUtc.isSome)
    "API latch lacks activation provenance"
  reject (∃ activation ∈ s.apiLatchActivatedAtUtc, ∀ failure ∈ s.lastFailureAtUtc,
      failure < activation) "API latch activation contradicts failure evidence"
  reject (s.apiFailureLatched = true ∧ s.apiFailures < 3 ∧
      (s.lastSuccessAtUtc = none ∨ s.apiLatchActivatedAtUtc = none ∨
        (∃ success ∈ s.lastSuccessAtUtc, ∃ activation ∈ s.apiLatchActivatedAtUtc,
          success ≤ activation) ∨
        (0 < s.apiFailures ∧ (s.lastFailureAtUtc = none ∨
          ∃ failure ∈ s.lastFailureAtUtc, ∃ success ∈ s.lastSuccessAtUtc,
            failure ≤ success)))) "API latch provenance lacks partial recovery evidence"
  reject (3 ≤ s.apiFailures ∧ s.apiFailureLatched = false) "API failures contradict the API latch"
  reject (0 < s.apiFailures ∧ 0 < s.apiSuccesses) "API failure and success counters contradict"
  reject (0 < s.apiFailures ∧ s.lastFailureAtUtc = none)
    "API failure counter lacks observation evidence"
  reject (0 < s.apiSuccesses ∧ s.lastSuccessAtUtc = none)
    "API success counter lacks observation evidence"
  reject (∃ api ∈ lastApiObservation s, ∀ last ∈ s.lastObservationAtUtc, last < api)
    "last observation predates an API observation cursor"
  reject (∃ activation ∈ s.apiLatchActivatedAtUtc, ∃ last ∈ s.lastObservationAtUtc,
      last < activation) "API latch activation postdates the last observation"

/-- The stage checks of `_validate_snapshot_relationships`. -/
def validateStage (s : HealthSnapshot) : Except String Unit :=
  match s.stage with
  | .normal =>
    reject (deriveReasons s ≠ [] ∨ s.retryAttempts ≠ 0) "NORMAL health state is contradictory"
  | .reduced =>
    reject (deriveReasons s ≠ [] ∨ s.apiSuccesses < 3 ∨ s.retryAttempts ≠ 0)
      "REDUCED health state is contradictory"
  | .halted => do
    reject (s.retryAttempts = 0) "HALTED health state requires retry evidence"
    reject (deriveReasons s = [] ∧ apiSuccessesRequired ≤ s.apiSuccesses)
      "HALTED health state has completed every recovery gate"

/-- `_validate_snapshot_relationships`. -/
def validateSnapshotRelationships (s : HealthSnapshot) (haltEntries resumeReduced : Bool) :
    Except String Unit := do
  reject (s.reasons ≠ deriveReasons s) "health reasons contradict predicates"
  reject (s.ledgerMatches ≠ (s.ledgerCashDifference.atMost ledgerTolerance &&
      s.ledgerBtcDifference.atMost ledgerTolerance)) "ledger predicate contradicts differences"
  validateFillEpisode s
  validateApiLatch s
  validateStage s
  reject (haltEntries ≠ (action s).haltEntries ∨ resumeReduced ≠ (action s).resumeReduced)
    "health action flags contradict stage"

/-- `_strict_int`. -/
def strictInt (value : Json) (label : String) : Except String ℕ :=
  match value with
  | .scalar (.int n) =>
    if 0 ≤ n then .ok n.toNat else .error (label ++ " must be a non-negative integer")
  | _ => .error (label ++ " must be a non-negative integer")

/-- `_strict_bool`. -/
def strictBool (value : Json) (label : String) : Except String Bool :=
  match value with
  | .scalar (.bool b) => .ok b
  | _ => .error (label ++ " must be a bool")

/-- `_nonnegative_finite`. -/
def nonnegativeFinite (value : Json) (label : String) : Except String FloatValue :=
  match value with
  | .scalar (.float (.finite q)) =>
    if 0 ≤ q then .ok (.finite q) else .error (label ++ " must be non-negative")
  | .scalar (.int n) =>
    if n < 0 then .error (label ++ " must be non-negative")
    else match toFloat n with
      | .finite q => .ok (.finite q)
      | .infinite => .error (label ++ " must be finite")
  | .scalar (.float .infinite) => .error (label ++ " must be finite")
  | _ => .error (label ++ " must be an int or float")

/-- `_optional_canonical_datetime`. -/
def optionalCanonicalDatetime (value : Json) (label : String) : Except String (Option ℤ) :=
  match value with
  | .scalar .null => .ok none
  | .scalar (.utc instant) => .ok (some instant)
  | _ => .error (label ++ " must be canonical UTC")

/-- `_strict_stage`. -/
def strictStage (value : Json) : Except String HealthStage :=
  match value with
  | .scalar (.text "NORMAL") => .ok .normal
  | .scalar (.text "HALTED") => .ok .halted
  | .scalar (.text "REDUCED") => .ok .reduced
  | .scalar (.text _) | .scalar (.utc _) => .error "health stage is invalid"
  | _ => .error "health stage must be a string"

/-- `isinstance(value, str)`. -/
def Scalar.isText : Scalar → Bool
  | .text _ | .utc _ => true
  | _ => false

/-- `_strict_reasons`: the reasons listed, provided they are the known ones in order. -/
def strictReasons (value : Json) : Except String (List HealthReason) :=
  match value with
  | .array items =>
    let listed := healthReasonOrder.filter fun reason => .text reason.text ∈ items
    if items.any (!·.isText) then .error "health reason must be a string"
    else if items = listed.map (fun reason => .text reason.text) then .ok listed
    else .error "health reasons are unknown, duplicated, or unordered"
  | _ => .error "health reasons must be a sequence"

/-- `payload[key]`, once the keys have been checked. -/
def item (payload : Mapping) (key : String) : Json := (payload.lookup key).getD (.scalar .null)

/-- The six fields that version three adds, or their migration from version two. -/
structure FillRecoveryFields where
  episode : ℕ
  checks : ℕ
  deviation : FloatValue
  detectedAt : Option ℤ
  resolvedAt : Option ℤ
  lastRecoveryAt : Option ℤ

/-- The fill-recovery part of `HealthSnapshot.from_mapping`. -/
def fillRecoveryFields (payload : Mapping) (legacy fillWithinLimit : Bool)
    (fillDeviation : FloatValue) : Except String FillRecoveryFields := do
  if legacy then
    return ⟨if fillWithinLimit then 0 else 1, 0,
      if fillWithinLimit then .finite 0 else fillDeviation, none, none, none⟩
  let episode ← strictInt (item payload "fill_anomaly_episode") "fill_anomaly_episode"
  let checks ← strictInt (item payload "fill_recovery_checks") "fill_recovery_checks"
  let deviation ← nonnegativeFinite (item payload "fill_anomaly_deviation")
    "fill_anomaly_deviation"
  let detectedAt ← optionalCanonicalDatetime (item payload "fill_anomaly_detected_at_utc")
    "fill_anomaly_detected_at_utc"
  let resolvedAt ← optionalCanonicalDatetime (item payload "fill_anomaly_resolved_at_utc")
    "fill_anomaly_resolved_at_utc"
  let lastRecoveryAt ← optionalCanonicalDatetime (item payload "last_fill_recovery_at_utc")
    "last_fill_recovery_at_utc"
  return ⟨episode, checks, deviation, detectedAt, resolvedAt, lastRecoveryAt⟩

/-- `HealthSnapshot.from_mapping`. -/
def HealthSnapshot.fromMapping (payload : Mapping) : Except String HealthSnapshot := do
  if payload = [] then return {}
  let keys := payload.map Prod.fst
  reject (!sameKeys keys snapshotKeys ∧ !sameKeys keys snapshotV2Keys)
    "health snapshot keys are invalid"
  let version ← strictInt (item payload "version") "version"
  let legacy := sameKeys keys snapshotV2Keys
  reject (version ≠ if legacy then legacyVersion else snapshotVersion)
    "health snapshot version is unsupported"
  let stage ← strictStage (item payload "stage")
  let reasons ← strictReasons (item payload "reasons")
  let apiFailures ← strictInt (item payload "api_failures") "api_failures"
  let apiSuccesses ← strictInt (item payload "api_successes") "api_successes"
  reject (apiSuccessesRequired < apiSuccesses) "api_successes exceeds its canonical cap"
  let apiFailureLatched ← strictBool (item payload "api_failure_latched") "api_failure_latched"
  let apiLatchActivatedAt ← optionalCanonicalDatetime
    (item payload "api_latch_activated_at_utc") "api_latch_activated_at_utc"
  let unresolvedOrders ← strictInt (item payload "unresolved_orders") "unresolved_orders"
  let ledgerMatches ← strictBool (item payload "ledger_matches") "ledger_matches"
  let ledgerCashDifference ← nonnegativeFinite (item payload "ledger_cash_difference")
    "ledger_cash_difference"
  let ledgerBtcDifference ← nonnegativeFinite (item payload "ledger_btc_difference")
    "ledger_btc_difference"
  let timestampsMonotonic ← strictBool (item payload "timestamps_monotonic")
    "timestamps_monotonic"
  let schemaValid ← strictBool (item payload "schema_valid") "schema_valid"
  let latestCandleValid ← strictBool (item payload "latest_candle_valid") "latest_candle_valid"
  let fillWithinLimit ← strictBool (item payload "fill_within_limit") "fill_within_limit"
  let fillDeviation ← nonnegativeFinite (item payload "fill_deviation") "fill_deviation"
  let fill ← fillRecoveryFields payload legacy fillWithinLimit fillDeviation
  let retryAttempts ← strictInt (item payload "retry_attempts") "retry_attempts"
  let lastSuccessAt ← optionalCanonicalDatetime (item payload "last_success_at_utc")
    "last_success_at_utc"
  let lastFailureAt ← optionalCanonicalDatetime (item payload "last_failure_at_utc")
    "last_failure_at_utc"
  let lastObservationAt ← optionalCanonicalDatetime (item payload "last_observation_at_utc")
    "last_observation_at_utc"
  let haltEntries ← strictBool (item payload "halt_entries") "halt_entries"
  let resumeReduced ← strictBool (item payload "resume_reduced") "resume_reduced"
  let snapshot : HealthSnapshot := {
    version := snapshotVersion
    stage, reasons, apiFailures, apiSuccesses, apiFailureLatched
    apiLatchActivatedAtUtc := apiLatchActivatedAt
    unresolvedOrders, ledgerMatches, ledgerCashDifference, ledgerBtcDifference
    timestampsMonotonic, schemaValid, latestCandleValid, fillWithinLimit, fillDeviation
    fillAnomalyEpisode := fill.episode
    fillRecoveryChecks := fill.checks
    fillAnomalyDeviation := fill.deviation
    fillAnomalyDetectedAtUtc := fill.detectedAt
    fillAnomalyResolvedAtUtc := fill.resolvedAt
    lastFillRecoveryAtUtc := fill.lastRecoveryAt
    retryAttempts
    lastSuccessAtUtc := lastSuccessAt
    lastFailureAtUtc := lastFailureAt
    lastObservationAtUtc := lastObservationAt }
  validateSnapshotRelationships snapshot haltEntries resumeReduced
  return snapshot

/-- `_optional_datetime`. -/
def optionalDatetime : Option ℤ → Json
  | none => .scalar .null
  | some instant => .scalar (.utc instant)

/-- The items of `HealthSnapshot.to_mapping` that version two already had. -/
def HealthSnapshot.sharedItems (s : HealthSnapshot) (version : ℕ) : Mapping :=
  [("version", .scalar (.int version)),
    ("stage", .scalar (.text s.stage.value)),
    ("reasons", .array (s.reasons.map fun reason => .text reason.text)),
    ("halt_entries", .scalar (.bool (action s).haltEntries)),
    ("resume_reduced", .scalar (.bool (action s).resumeReduced)),
    ("api_failures", .scalar (.int s.apiFailures)),
    ("api_successes", .scalar (.int s.apiSuccesses)),
    ("api_failure_latched", .scalar (.bool s.apiFailureLatched)),
    ("api_latch_activated_at_utc", optionalDatetime s.apiLatchActivatedAtUtc),
    ("unresolved_orders", .scalar (.int s.unresolvedOrders)),
    ("ledger_matches", .scalar (.bool s.ledgerMatches)),
    ("ledger_cash_difference", .scalar (.float s.ledgerCashDifference)),
    ("ledger_btc_difference", .scalar (.float s.ledgerBtcDifference)),
    ("timestamps_monotonic", .scalar (.bool s.timestampsMonotonic)),
    ("schema_valid", .scalar (.bool s.schemaValid)),
    ("latest_candle_valid", .scalar (.bool s.latestCandleValid)),
    ("fill_within_limit", .scalar (.bool s.fillWithinLimit)),
    ("fill_deviation", .scalar (.float s.fillDeviation)),
    ("retry_attempts", .scalar (.int s.retryAttempts)),
    ("last_success_at_utc", optionalDatetime s.lastSuccessAtUtc),
    ("last_failure_at_utc", optionalDatetime s.lastFailureAtUtc),
    ("last_observation_at_utc", optionalDatetime s.lastObservationAtUtc)]

/-- `HealthSnapshot.to_mapping`. -/
def HealthSnapshot.toMapping (s : HealthSnapshot) : Mapping :=
  s.sharedItems s.version ++
    [("fill_anomaly_episode", .scalar (.int s.fillAnomalyEpisode)),
      ("fill_recovery_checks", .scalar (.int s.fillRecoveryChecks)),
      ("fill_anomaly_deviation", .scalar (.float s.fillAnomalyDeviation)),
      ("fill_anomaly_detected_at_utc", optionalDatetime s.fillAnomalyDetectedAtUtc),
      ("fill_anomaly_resolved_at_utc", optionalDatetime s.fillAnomalyResolvedAtUtc),
      ("last_fill_recovery_at_utc", optionalDatetime s.lastFillRecoveryAtUtc)]

/-- `HealthSnapshot._to_storage_mapping`: the payload that the event log keeps. -/
def HealthSnapshot.toStorageMapping (s : HealthSnapshot) : Mapping := s.sharedItems legacyVersion

end AutoBit.Health
