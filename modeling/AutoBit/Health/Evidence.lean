import AutoBit.Health.Monitor

/-!
# What the deserialiser requires of a snapshot

The relationship checks of `validateSnapshotRelationships` fall into four groups: the
ledger comparison, the fill episode, the API latch, and the stage. A snapshot survives a
round trip through its mapping exactly when it satisfies all four.
-/

namespace AutoBit.Health

open Library

/-- The ledger predicate is the comparison of the two stored differences. -/
structure LedgerEvidence (s : HealthSnapshot) : Prop where
  matches_eq : s.ledgerMatches = (s.ledgerCashDifference.atMost ledgerTolerance &&
    s.ledgerBtcDifference.atMost ledgerTolerance)

/-- The fill predicate agrees with its deviation and with the anomaly episode. -/
structure FillEvidence (s : HealthSnapshot) : Prop where
  withinLimit_eq : s.fillWithinLimit = s.fillDeviation.atMost fillDeviationLimit
  checks_le : s.fillRecoveryChecks ≤ apiSuccessesRequired
  no_episode : s.fillAnomalyEpisode = 0 → s.fillWithinLimit = true ∧
    s.fillRecoveryChecks = 0 ∧ s.fillAnomalyDeviation = .finite 0 ∧
    s.fillAnomalyDetectedAtUtc = none ∧ s.fillAnomalyResolvedAtUtc = none ∧
    s.lastFillRecoveryAtUtc = none
  trigger : s.fillAnomalyEpisode ≠ 0 → s.fillAnomalyDeviation.atMost fillDeviationLimit = false
  resolved : s.fillAnomalyEpisode ≠ 0 → s.fillWithinLimit = true →
    s.fillRecoveryChecks = apiSuccessesRequired
  active : s.fillAnomalyEpisode ≠ 0 → s.fillWithinLimit = false →
    s.fillRecoveryChecks < apiSuccessesRequired ∧ s.fillAnomalyResolvedAtUtc = none
  counter : s.fillAnomalyEpisode ≠ 0 → 0 < s.fillRecoveryChecks →
    s.fillRecoveryChecks < apiSuccessesRequired → s.lastFillRecoveryAtUtc ≠ none
  detection_le : s.fillAnomalyEpisode ≠ 0 → ∀ detected ∈ s.fillAnomalyDetectedAtUtc,
    ∀ resolved ∈ s.fillAnomalyResolvedAtUtc, detected ≤ resolved
  recovery_le : s.fillAnomalyEpisode ≠ 0 → ∀ recovery ∈ s.lastFillRecoveryAtUtc,
    ∀ resolved ∈ s.fillAnomalyResolvedAtUtc, recovery ≤ resolved

/-- An active anomaly has an episode. -/
theorem FillEvidence.episode_ne_zero {s : HealthSnapshot} (h : FillEvidence s)
    (hactive : s.fillWithinLimit = false) : s.fillAnomalyEpisode ≠ 0 := by
  intro hzero
  have hwithin := (h.no_episode hzero).1
  rw [hactive] at hwithin
  cases hwithin

/-- The API latch agrees with the counters and with the times of the observations. -/
structure ApiEvidence (s : HealthSnapshot) : Prop where
  latched_successes : s.apiFailureLatched = true → s.apiSuccesses < 3
  provenance : s.apiFailureLatched = s.apiLatchActivatedAtUtc.isSome
  activation_le : ∀ activation ∈ s.apiLatchActivatedAtUtc, ∃ failure ∈ s.lastFailureAtUtc,
    activation ≤ failure
  interrupted : s.apiFailureLatched = true → s.apiFailures < 3 →
    ∃ success ∈ s.lastSuccessAtUtc, (∀ activation ∈ s.apiLatchActivatedAtUtc,
      activation < success) ∧
      (0 < s.apiFailures → ∃ failure ∈ s.lastFailureAtUtc, success < failure)
  failures_latched : 3 ≤ s.apiFailures → s.apiFailureLatched = true
  exclusive : 0 < s.apiFailures → s.apiSuccesses = 0
  failure_seen : 0 < s.apiFailures → s.lastFailureAtUtc ≠ none
  success_seen : 0 < s.apiSuccesses → s.lastSuccessAtUtc ≠ none
  observation_le : ∀ api ∈ lastApiObservation s, ∃ last ∈ s.lastObservationAtUtc, api ≤ last

/-- The stage agrees with the reasons, the success counter and the retry counter. -/
structure StageEvidence (s : HealthSnapshot) : Prop where
  reasons_eq : s.reasons = deriveReasons s
  normal : s.stage = .normal → deriveReasons s = [] ∧ s.retryAttempts = 0
  reduced : s.stage = .reduced → deriveReasons s = [] ∧ 3 ≤ s.apiSuccesses ∧ s.retryAttempts = 0
  halted : s.stage = .halted → s.retryAttempts ≠ 0 ∧
    (deriveReasons s = [] → s.apiSuccesses < apiSuccessesRequired)

/-- The fields are in the ranges that the strict parsers accept. -/
structure FieldEvidence (s : HealthSnapshot) : Prop where
  version_eq : s.version = snapshotVersion
  successes_le : s.apiSuccesses ≤ apiSuccessesRequired
  cash : ∃ q, 0 ≤ q ∧ s.ledgerCashDifference = .finite q
  btc : ∃ q, 0 ≤ q ∧ s.ledgerBtcDifference = .finite q
  deviation : ∃ q, 0 ≤ q ∧ s.fillDeviation = .finite q
  anomaly : ∃ q, 0 ≤ q ∧ s.fillAnomalyDeviation = .finite q

/-- Everything the strict deserialiser asks of a snapshot. -/
structure Consistent (s : HealthSnapshot) : Prop where
  ledger : LedgerEvidence s
  fill : FillEvidence s
  api : ApiEvidence s
  stage : StageEvidence s
  fields : FieldEvidence s

/-- Failures of the interface are a reason exactly while they are latched. -/
theorem apiFailures_mem_deriveReasons (s : HealthSnapshot) :
    HealthReason.apiFailures ∈ deriveReasons s ↔ s.apiFailureLatched = true := by
  simp [deriveReasons, healthReasonOrder, reasonActive]

/-- No fault is active exactly when every predicate is healthy. -/
theorem deriveReasons_eq_nil {s : HealthSnapshot} :
    deriveReasons s = [] ↔ ∀ reason, reasonActive s reason = false := by
  simp only [deriveReasons, List.filter_eq_nil_iff, Bool.not_eq_true]
  constructor
  · intro h reason
    cases reason <;> exact h _ (by simp [healthReasonOrder])
  · exact fun h reason _ => h reason

/-- The fill-episode checks pass exactly on consistent fill evidence. -/
theorem validateFillEpisode_eq_ok {s : HealthSnapshot} {u : Unit} :
    validateFillEpisode s = .ok u ↔ FillEvidence s := by
  unfold validateFillEpisode
  by_cases hepisode : s.fillAnomalyEpisode = 0
  · simp only [Except.bind_eq_ok, reject_eq_ok, hepisode, if_true]
    constructor
    · rintro ⟨_, hwithin, _, hchecks, hnone⟩
      simp only [not_or, not_not, Bool.not_eq_false] at hnone
      exact ⟨by simpa using hwithin, by omega, fun _ => hnone,
        fun h => absurd hepisode h, fun h => absurd hepisode h, fun h => absurd hepisode h,
        fun h => absurd hepisode h, fun h => absurd hepisode h, fun h => absurd hepisode h⟩
    · intro h
      have hnone := h.no_episode hepisode
      have hchecks := h.checks_le
      exact ⟨(), by simpa using h.withinLimit_eq, (), by omega, by simp [hnone]⟩
  · simp only [Except.bind_eq_ok, reject_eq_ok, hepisode, if_false, not_exists, not_and, not_lt]
    constructor
    · rintro ⟨_, hwithin, _, hchecks, _, htrigger, _, hresolved, _, hactive, _, hcounter, _,
        hdetection, hrecovery⟩
      exact ⟨by simpa using hwithin, by omega, fun h => absurd h hepisode,
        fun _ => by simpa using htrigger, fun _ => by simpa using hresolved,
        fun _ => by simpa using hactive, fun _ => by simpa using hcounter,
        fun _ => hdetection, fun _ => hrecovery⟩
    · intro h
      have hchecks := h.checks_le
      exact ⟨(), by simpa using h.withinLimit_eq, (), by omega, (),
        by simpa using h.trigger hepisode, (), by simpa using h.resolved hepisode, (),
        by simpa using h.active hepisode, (), by simpa using h.counter hepisode, (),
        h.detection_le hepisode, h.recovery_le hepisode⟩

/-- A failure is at or before the last API observation. -/
theorem failure_le_lastApiObservation {s : HealthSnapshot} {failure : ℤ}
    (hfailure : s.lastFailureAtUtc = some failure) :
    ∃ api ∈ lastApiObservation s, failure ≤ api := by
  unfold lastApiObservation
  cases hsuccess : s.lastSuccessAtUtc with
  | none => exact ⟨failure, by simp [hfailure], le_rfl⟩
  | some success => exact ⟨max success failure, by simp [hfailure], le_max_right _ _⟩

/-- The check on an interrupted recovery, read as a condition on the three times. -/
private theorem interrupted_iff (s : HealthSnapshot) :
    (¬(s.apiFailureLatched = true ∧ s.apiFailures < 3 ∧
      (s.lastSuccessAtUtc = none ∨ s.apiLatchActivatedAtUtc = none ∨
        (∃ success ∈ s.lastSuccessAtUtc, ∃ activation ∈ s.apiLatchActivatedAtUtc,
          success ≤ activation) ∨
        (0 < s.apiFailures ∧ (s.lastFailureAtUtc = none ∨
          ∃ failure ∈ s.lastFailureAtUtc, ∃ success ∈ s.lastSuccessAtUtc,
            failure ≤ success))))) ↔
      (s.apiFailureLatched = true → s.apiFailures < 3 → s.apiLatchActivatedAtUtc ≠ none ∧
        ∃ success ∈ s.lastSuccessAtUtc,
          (∀ activation ∈ s.apiLatchActivatedAtUtc, activation < success) ∧
          (0 < s.apiFailures → ∃ failure ∈ s.lastFailureAtUtc, success < failure)) := by
  cases s.lastSuccessAtUtc <;> cases s.apiLatchActivatedAtUtc <;> cases s.lastFailureAtUtc <;>
    simp

/-- The API checks pass exactly on consistent API evidence. -/
theorem validateApiLatch_eq_ok {s : HealthSnapshot} {u : Unit} :
    validateApiLatch s = .ok u ↔ ApiEvidence s := by
  unfold validateApiLatch
  simp only [Except.bind_eq_ok, reject_eq_ok, apiFailures_mem_deriveReasons, interrupted_iff]
  constructor
  · rintro ⟨_, _, _, hsuccesses, _, hprovenance, _, hactivation, _, hinterrupted, _, hfailures, _,
      hexclusive, _, hfailure, _, hsuccess, _, hobservation, _⟩
    exact ⟨by simpa using hsuccesses, by simpa using hprovenance, by simpa using hactivation,
      fun hlatched hless => (hinterrupted hlatched hless).2, by simpa using hfailures,
      by simpa [Nat.pos_iff_ne_zero] using hexclusive, by simpa using hfailure,
      by simpa using hsuccess, by simpa using hobservation⟩
  · intro h
    have hactivation : ∀ activation ∈ s.apiLatchActivatedAtUtc, ∀ last ∈ s.lastObservationAtUtc,
        activation ≤ last := by
      intro activation hmem last hlast
      obtain ⟨failure, hfailure, hle⟩ := h.activation_le activation hmem
      obtain ⟨api, hapi, hle'⟩ := failure_le_lastApiObservation hfailure
      obtain ⟨last', hlast', hle''⟩ := h.observation_le api hapi
      cases hlast.symm.trans hlast'
      omega
    have hpresent : s.apiFailureLatched = true → s.apiLatchActivatedAtUtc ≠ none := by
      intro hlatched hnone
      simp [h.provenance, hnone] at hlatched
    exact ⟨(), by simp, (), by simpa using h.latched_successes, (), by simpa using h.provenance, (),
      by simpa using h.activation_le, (),
      fun hlatched hless => ⟨hpresent hlatched, h.interrupted hlatched hless⟩, (),
      by simpa using h.failures_latched, (), by simpa [Nat.pos_iff_ne_zero] using h.exclusive, (),
      by simpa using h.failure_seen, (), by simpa using h.success_seen, (),
      by simpa using h.observation_le, by simpa using hactivation⟩

/-- The stage checks pass exactly when the stage agrees with the counters. -/
theorem validateStage_eq_ok {s : HealthSnapshot} {u : Unit}
    (hreasons : s.reasons = deriveReasons s) : validateStage s = .ok u ↔ StageEvidence s := by
  unfold validateStage
  cases hstage : s.stage with
  | normal =>
    simp only [reject_eq_ok, not_or, not_not]
    exact ⟨fun h => ⟨hreasons, fun _ => h, by simp [hstage], by simp [hstage]⟩,
      fun h => h.normal hstage⟩
  | reduced =>
    simp only [reject_eq_ok, not_or, not_not, not_lt]
    exact ⟨fun h => ⟨hreasons, by simp [hstage], fun _ => h, by simp [hstage]⟩,
      fun h => h.reduced hstage⟩
  | halted =>
    simp only [Except.bind_eq_ok, reject_eq_ok, not_and, not_le]
    constructor
    · rintro ⟨_, hattempts, hrecovered⟩
      exact ⟨hreasons, by simp [hstage], by simp [hstage], fun _ => ⟨hattempts, hrecovered⟩⟩
    · intro h
      obtain ⟨hattempts, hrecovered⟩ := h.halted hstage
      exact ⟨(), hattempts, hrecovered⟩

/-- The fields of a mapping parse back to natural numbers. -/
@[simp] theorem strictInt_natCast (n : ℕ) (label : String) :
    strictInt (.scalar (.int n)) label = .ok n := by
  simp [strictInt]

/-- A flag is read as it was written. -/
@[simp] theorem strictBool_bool (b : Bool) (label : String) :
    strictBool (.scalar (.bool b)) label = .ok b := rfl

/-- An optional datetime is read as it was written. -/
@[simp] theorem optionalCanonicalDatetime_optionalDatetime (t : Option ℤ) (label : String) :
    optionalCanonicalDatetime (optionalDatetime t) label = .ok t := by
  cases t <;> rfl

/-- A stage is read as it was written. -/
@[simp] theorem strictStage_value (stage : HealthStage) :
    strictStage (.scalar (.text stage.value)) = .ok stage := by
  cases stage <;> rfl

/-- A stored difference parses back exactly when it is finite and not negative. -/
@[simp] theorem nonnegativeFinite_eq_ok {f g : FloatValue} {label : String} :
    nonnegativeFinite (.scalar (.float f)) label = .ok g ↔
      f = g ∧ ∃ q, 0 ≤ q ∧ f = .finite q := by
  cases f with
  | infinite => simp [nonnegativeFinite]
  | finite q =>
    by_cases hq : 0 ≤ q
    · simp [nonnegativeFinite, hq]
    · simp [nonnegativeFinite, hq]

/-- Different reasons have different texts. -/
theorem HealthReason.text_injective : Function.Injective HealthReason.text := by
  intro a b h
  cases a <;> cases b <;> simp_all [HealthReason.text]

/-- Reasons in canonical order parse back to themselves. -/
theorem strictReasons_deriveReasons (s : HealthSnapshot) :
    strictReasons (.array ((deriveReasons s).map fun reason => .text reason.text)) =
      .ok (deriveReasons s) := by
  have hlisted : (healthReasonOrder.filter fun reason =>
      decide (∃ a ∈ deriveReasons s, a.text = reason.text)) = deriveReasons s := by
    unfold deriveReasons
    apply List.filter_congr
    intro reason hmem
    simp [HealthReason.text_injective.eq_iff, hmem]
  simp [strictReasons, hlisted, Scalar.isText]

/-- A mapping has the keys of a snapshot. -/
@[simp] theorem sameKeys_toMapping (s : HealthSnapshot) :
    sameKeys (s.toMapping.map Prod.fst) snapshotKeys = true := by
  have h : s.toMapping.map Prod.fst = ({} : HealthSnapshot).toMapping.map Prod.fst := by
    simp [HealthSnapshot.toMapping, HealthSnapshot.sharedItems]
  rw [h]
  decide

/-- A mapping has other keys than one of the second version. -/
@[simp] theorem sameKeys_toMapping_v2 (s : HealthSnapshot) :
    sameKeys (s.toMapping.map Prod.fst) snapshotV2Keys = false := by
  have h : s.toMapping.map Prod.fst = ({} : HealthSnapshot).toMapping.map Prod.fst := by
    simp [HealthSnapshot.toMapping, HealthSnapshot.sharedItems]
  rw [h]
  decide

/-- A mapping is not empty. -/
theorem HealthSnapshot.toMapping_ne_nil (s : HealthSnapshot) : s.toMapping ≠ [] := by
  simp [HealthSnapshot.toMapping, HealthSnapshot.sharedItems]

/-- The relationship checks pass exactly on the four kinds of consistent evidence. -/
theorem validateSnapshotRelationships_eq_ok {s : HealthSnapshot} {u : Unit} :
    validateSnapshotRelationships s (action s).haltEntries (action s).resumeReduced = .ok u ↔
      LedgerEvidence s ∧ FillEvidence s ∧ ApiEvidence s ∧ StageEvidence s := by
  unfold validateSnapshotRelationships
  simp only [Except.bind_eq_ok, reject_eq_ok, not_not, validateFillEpisode_eq_ok,
    validateApiLatch_eq_ok]
  constructor
  · rintro ⟨_, hreasons, _, hledger, _, hfill, _, hapi, _, hstage, _⟩
    exact ⟨⟨hledger⟩, hfill, hapi, (validateStage_eq_ok hreasons).mp hstage⟩
  · rintro ⟨hledger, hfill, hapi, hstage⟩
    exact ⟨(), hstage.reasons_eq, (), hledger.matches_eq, (), hfill, (), hapi, (),
      (validateStage_eq_ok hstage.reasons_eq).mpr hstage, by simp⟩

/-- The snapshot rebuilt by the deserialiser from the parsed fields. -/
private theorem rebuilt_eq {s : HealthSnapshot} (reasons : List HealthReason)
    (hversion : s.version = snapshotVersion) :
    ({ s with version := snapshotVersion, reasons := reasons } : HealthSnapshot) = s ↔
      reasons = s.reasons := by
  cases s
  simp_all

/-- A snapshot survives a round trip through its mapping exactly when it is consistent. -/
theorem fromMapping_toMapping_iff (s : HealthSnapshot) :
    HealthSnapshot.fromMapping s.toMapping = .ok s ↔ Consistent s := by
  unfold HealthSnapshot.fromMapping
  rw [if_neg s.toMapping_ne_nil]
  simp only [Except.bind_eq_ok, reject_eq_ok, sameKeys_toMapping, sameKeys_toMapping_v2]
  simp [item, fillRecoveryFields, HealthSnapshot.toMapping, HealthSnapshot.sharedItems,
    List.lookup_cons]
  constructor
  · rintro ⟨hversion, reasons, hreasons, hsuccesses, hcash, hbtc, hdeviation, hanomaly,
      ⟨_, hvalid⟩, hrebuilt⟩
    rw [hrebuilt] at hvalid
    obtain ⟨hledger, hfill, hapi, hstage⟩ := validateSnapshotRelationships_eq_ok.mp hvalid
    exact ⟨hledger, hfill, hapi, hstage, hversion, hsuccesses, hcash, hbtc, hdeviation, hanomaly⟩
  · rintro ⟨hledger, hfill, hapi, hstage, hversion, hsuccesses, hcash, hbtc, hdeviation, hanomaly⟩
    have hrebuilt := (rebuilt_eq s.reasons hversion).mpr rfl
    refine ⟨hversion, s.reasons, ?_, hsuccesses, hcash, hbtc, hdeviation, hanomaly, ⟨(), ?_⟩,
      hrebuilt⟩
    · rw [hstage.reasons_eq]
      exact strictReasons_deriveReasons s
    · rw [hrebuilt]
      exact validateSnapshotRelationships_eq_ok.mpr ⟨hledger, hfill, hapi, hstage⟩

end AutoBit.Health
