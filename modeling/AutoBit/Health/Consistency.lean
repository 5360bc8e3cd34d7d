import AutoBit.Health.Evidence

/-!
# What each recording method keeps

Every recording method keeps the snapshot consistent, with two exceptions: an API failure
recorded while the stage is REDUCED clears the success counter but leaves the stage, and a
fill whose deviation exceeds the range of doubles stores an infinite deviation.
-/

namespace AutoBit.Health

open Library

/-- The stored times of a fill episode are not after the last observation. -/
structure TimeEvidence (s : HealthSnapshot) : Prop where
  detected_le : ∀ detected ∈ s.fillAnomalyDetectedAtUtc,
    ∃ last ∈ s.lastObservationAtUtc, detected ≤ last
  recovery_le : ∀ recovery ∈ s.lastFillRecoveryAtUtc,
    ∃ last ∈ s.lastObservationAtUtc, recovery ≤ last

/-- The next observation is not before the last one recorded. -/
def Follows (s : HealthSnapshot) (observed : Option ℤ) : Prop :=
  ∀ time ∈ observed, ∀ last ∈ s.lastObservationAtUtc, last ≤ time

/-! ## The last observation -/

/-- What is not after the current observation is not after the latest. -/
theorem le_latestObservation {current observed : Option ℤ} {time : ℤ}
    (h : ∃ last ∈ current, time ≤ last) :
    ∃ last ∈ latestObservation current observed, time ≤ last := by
  obtain ⟨last, hlast, hle⟩ := h
  cases hlast
  cases observed with
  | none => exact ⟨last, rfl, hle⟩
  | some observed => exact ⟨max last observed, rfl, hle.trans (le_max_left _ _)⟩

/-- What is observed is not after the latest observation. -/
theorem observed_le_latestObservation {current observed : Option ℤ} :
    ∀ time ∈ observed, ∃ last ∈ latestObservation current observed, time ≤ last := by
  rintro time ⟨⟩
  cases current with
  | none => exact ⟨time, rfl, le_rfl⟩
  | some current => exact ⟨max current time, rfl, le_max_right _ _⟩

/-- The latest observation is not after what neither of the two is after. -/
theorem latestObservation_le {current observed : Option ℤ} {time : ℤ}
    (hcurrent : ∀ last ∈ current, last ≤ time) (hobserved : ∀ last ∈ observed, last ≤ time) :
    ∀ last ∈ latestObservation current observed, last ≤ time := by
  cases current with
  | none => exact hobserved
  | some current =>
    cases observed with
    | none => exact hcurrent
    | some observed =>
      rintro last ⟨⟩
      exact max_le (hcurrent _ rfl) (hobserved _ rfl)

/-- A time up to the last observation is not after the next one. -/
theorem Follows.le {s : HealthSnapshot} {observed : Option ℤ} (h : Follows s observed)
    {time : ℤ} (hle : ∃ last ∈ s.lastObservationAtUtc, time ≤ last) :
    ∀ next ∈ observed, time ≤ next := by
  intro next hnext
  obtain ⟨last, hlast, hle⟩ := hle
  exact hle.trans (h next hnext last hlast)

/-! ## Moving the stage -/

/-- The stage that `finishObservation` moves to. -/
theorem finishObservation_stage (t : HealthSnapshot) :
    (finishObservation t).stage =
      if deriveReasons t ≠ [] then .halted
      else if t.stage = .halted then
        if apiSuccessesRequired ≤ t.apiSuccesses then .reduced else .halted
      else t.stage := rfl

/-- The stage agrees with the counters after a move, provided that a REDUCED stage
without faults still has its three successes. -/
theorem finishObservation_stageEvidence {t : HealthSnapshot}
    (hreduced : t.stage = .reduced → deriveReasons t = [] → 3 ≤ t.apiSuccesses) :
    StageEvidence (finishObservation t) := by
  have hreasons : deriveReasons (finishObservation t) = deriveReasons t := rfl
  have hsuccesses : (finishObservation t).apiSuccesses = t.apiSuccesses := rfl
  have hretry : (finishObservation t).retryAttempts =
      if (finishObservation t).stage = .halted then t.retryAttempts + 1 else 0 := rfl
  refine ⟨rfl, fun hstage => ?_, fun hstage => ?_, fun hstage => ?_⟩ <;>
    simp only [hreasons, hsuccesses, hretry, hstage] <;>
    rw [finishObservation_stage] at hstage
  · by_cases hnone : deriveReasons t = []
    · exact ⟨hnone, rfl⟩
    · simp [hnone] at hstage
  · by_cases hnone : deriveReasons t = []
    · refine ⟨hnone, ?_, rfl⟩
      by_cases hhalted : t.stage = .halted
      · by_contra hless
        simp [hnone, hhalted, apiSuccessesRequired, hless] at hstage
      · simp only [hnone, hhalted, ne_eq, not_true_eq_false, if_false] at hstage
        exact hreduced hstage hnone
    · simp [hnone] at hstage
  · refine ⟨by simp, fun hnone => ?_⟩
    by_contra hless
    by_cases hhalted : t.stage = .halted <;> simp_all

/-- Moving the stage makes a snapshot consistent as soon as its evidence is. -/
theorem finishObservation_consistent {t : HealthSnapshot} (hledger : LedgerEvidence t)
    (hfill : FillEvidence t) (hapi : ApiEvidence t) (hfields : FieldEvidence t)
    (hreduced : t.stage = .reduced → deriveReasons t = [] → 3 ≤ t.apiSuccesses) :
    Consistent (finishObservation t) :=
  ⟨⟨hledger.1⟩, ⟨hfill.1, hfill.2, hfill.3, hfill.4, hfill.5, hfill.6, hfill.7, hfill.8, hfill.9⟩,
    ⟨hapi.1, hapi.2, hapi.3, hapi.4, hapi.5, hapi.6, hapi.7, hapi.8, hapi.9⟩,
    finishObservation_stageEvidence hreduced,
    ⟨hfields.1, hfields.2, hfields.3, hfields.4, hfields.5, hfields.6⟩⟩

/-! ## Observations of the predicates -/

/-- An active reason is derived. -/
theorem deriveReasons_ne_nil {s : HealthSnapshot} (reason : HealthReason)
    (h : reasonActive s reason = true) : deriveReasons s ≠ [] := by
  intro hnil
  simp [deriveReasons_eq_nil.mp hnil reason] at h

/-- The fields that only the two API methods change. -/
def apiCursor (s : HealthSnapshot) : ℕ × Bool × Option ℤ × Option ℤ × Option ℤ :=
  (s.apiFailures, s.apiFailureLatched, s.apiLatchActivatedAtUtc, s.lastSuccessAtUtc,
    s.lastFailureAtUtc)

/-- Clearing the success counter and observing later keeps the API evidence. -/
theorem ApiEvidence.reset {s t : HealthSnapshot} (h : ApiEvidence s) (newlyFaulted : Prop)
    [Decidable newlyFaulted] (observed : Option ℤ) (hcursor : apiCursor t = apiCursor s)
    (hsuccesses : t.apiSuccesses = if newlyFaulted then 0 else s.apiSuccesses)
    (hobserved : t.lastObservationAtUtc = latestObservation s.lastObservationAtUtc observed) :
    ApiEvidence t := by
  simp only [apiCursor, Prod.mk.injEq] at hcursor
  obtain ⟨hfailures, hlatched, hactivated, hsuccess, hfailure⟩ := hcursor
  have hle : t.apiSuccesses ≤ s.apiSuccesses := by
    rw [hsuccesses]
    split <;> omega
  have hlast : lastApiObservation t = lastApiObservation s := by
    simp only [lastApiObservation, hsuccess, hfailure]
  constructor <;> simp only [hfailures, hlatched, hactivated, hsuccess, hfailure, hlast]
  · exact fun hlatched => hle.trans_lt (h.latched_successes hlatched)
  · exact h.provenance
  · exact h.activation_le
  · exact h.interrupted
  · exact h.failures_latched
  · intro hpos
    have := h.exclusive hpos
    omega
  · exact h.failure_seen
  · exact fun hpos => h.success_seen (hpos.trans_le hle)
  · intro api hapi
    rw [hobserved]
    exact le_latestObservation (h.observation_le api hapi)

/-- An observation that clears the success counter only together with a fault keeps the
three successes of a REDUCED stage without faults. -/
theorem StageEvidence.reduced_of_reset {s t : HealthSnapshot} (h : StageEvidence s)
    (newlyFaulted : Prop) [Decidable newlyFaulted] (hstage : t.stage = s.stage)
    (hsuccesses : t.apiSuccesses = if newlyFaulted then 0 else s.apiSuccesses)
    (hfaulted : newlyFaulted → deriveReasons t ≠ []) :
    t.stage = .reduced → deriveReasons t = [] → 3 ≤ t.apiSuccesses := by
  intro hreduced hnone
  rw [hsuccesses, if_neg fun hnew => hfaulted hnew hnone]
  exact (h.reduced (hstage ▸ hreduced)).2.1

/-- A counter that is reset does not increase. -/
theorem reset_le {newlyFaulted : Prop} [Decidable newlyFaulted] (n : ℕ) :
    (if newlyFaulted then 0 else n) ≤ n := by
  split <;> omega

/-- The snapshot in which an observation of a predicate leaves the monitor: four
predicates carry no evidence beyond themselves. -/
theorem predicate_consistent {s : HealthSnapshot} (hs : Consistent s) (unresolved : ℕ)
    (monotonic schema candle : Bool) (newlyFaulted : Prop) [Decidable newlyFaulted]
    (observed : Option ℤ)
    (hfaulted : newlyFaulted →
      0 < unresolved ∨ monotonic = false ∨ schema = false ∨ candle = false) :
    Consistent (finishObservation { s with
      unresolvedOrders := unresolved
      timestampsMonotonic := monotonic
      schemaValid := schema
      latestCandleValid := candle
      apiSuccesses := if newlyFaulted then 0 else s.apiSuccesses
      lastObservationAtUtc := latestObservation s.lastObservationAtUtc observed }) := by
  obtain ⟨hledger, hfill, hapi, hstage, hfields⟩ := hs
  apply finishObservation_consistent
  · exact ⟨hledger.1⟩
  · exact ⟨hfill.1, hfill.2, hfill.3, hfill.4, hfill.5, hfill.6, hfill.7, hfill.8, hfill.9⟩
  · exact hapi.reset newlyFaulted observed rfl rfl rfl
  · exact ⟨hfields.1, (reset_le _).trans hfields.2, hfields.3, hfields.4, hfields.5, hfields.6⟩
  · refine hstage.reduced_of_reset newlyFaulted rfl rfl ?_
    intro hnew
    rcases hfaulted hnew with h | h | h | h
    · exact deriveReasons_ne_nil .unresolvedOrder (by simpa [reasonActive] using h)
    · exact deriveReasons_ne_nil .timestampReversal (by simp [reasonActive, h])
    · exact deriveReasons_ne_nil .schemaError (by simp [reasonActive, h])
    · exact deriveReasons_ne_nil .staleCandle (by simp [reasonActive, h])

/-- A candle check keeps the snapshot consistent. -/
theorem recordCandleCheck_consistent {s : HealthSnapshot} (hs : Consistent s) (expectedEnd : ℤ)
    (observedEnd : Option ℤ) (checkedAt : ℤ) (structurallyValid : Bool) :
    Consistent (recordCandleCheck s expectedEnd observedEnd checkedAt structurallyValid) := by
  apply predicate_consistent hs s.unresolvedOrders s.timestampsMonotonic
  simp only [Bool.or_eq_true, Bool.and_eq_true, Bool.not_eq_true', Bool.and_eq_false_iff]
  grind

/-- A timestamp check keeps the snapshot consistent. -/
theorem recordTimestampCheck_consistent {s : HealthSnapshot} (hs : Consistent s)
    (monotonic : Bool) (observed : ℤ) : Consistent (recordTimestampCheck s monotonic observed) := by
  apply predicate_consistent hs s.unresolvedOrders monotonic s.schemaValid s.latestCandleValid
  simp +contextual

/-- A schema check keeps the snapshot consistent. -/
theorem recordSchemaCheck_consistent {s : HealthSnapshot} (hs : Consistent s) (valid : Bool)
    (observed : ℤ) : Consistent (recordSchemaCheck s valid observed) := by
  apply predicate_consistent hs s.unresolvedOrders s.timestampsMonotonic valid s.latestCandleValid
  simp +contextual

/-- A failed schema keeps the snapshot consistent. -/
theorem failSchema_consistent {s : HealthSnapshot} (hs : Consistent s) (observed : Option ℤ) :
    Consistent (failSchema s observed) := by
  apply predicate_consistent hs s.unresolvedOrders s.timestampsMonotonic false s.latestCandleValid
  simp

/-- The number of unresolved orders keeps the snapshot consistent. -/
theorem setUnresolvedOrders_consistent {s : HealthSnapshot} (hs : Consistent s) (count : ℕ)
    (observed : Option ℤ) : Consistent (setUnresolvedOrders s count observed) := by
  apply predicate_consistent hs count s.timestampsMonotonic s.schemaValid s.latestCandleValid
  simp +contextual

/-! ## Ledger checks -/

/-- A double is at least minus one half when its rounding is not negative. -/
theorem neg_one_le_of_underflow {value : ℚ} (h : binary64.round (-value) = 0) : -1 < value := by
  by_contra hle
  have hone : binary64.round 1 = 1 := by
    simpa using binary64.round_zpow (k := 0) (by decide)
  have := binary64.round_mono zero_le_one (by linarith : (1 : ℚ) ≤ -value)
  rw [h, hone] at this
  linarith

/-- The difference of two accepted amounts is a finite double that is not negative. -/
theorem decimalDifference_finite {left right : ℚ} (hleft : isNonnegativeNumber left)
    (hright : isNonnegativeNumber right) :
    ∃ q, 0 ≤ q ∧ decimalDifference left right = .finite q := by
  have hlower : ∀ {value : ℚ}, isNonnegativeNumber value → -1 < value := by
    rintro value ⟨hnonneg | hunderflow, -⟩
    · linarith
    · exact neg_one_le_of_underflow hunderflow
  have hbound : |left - right| ≤ binary64Overflow + 1 := by
    rw [abs_le]
    constructor <;> linarith [hlower hleft, hlower hright, hleft.2, hright.2]
  have hround := decimal28.round_mono (abs_nonneg (left - right)) hbound
  refine ⟨binary64.round (decimal28.round |left - right|),
    binary64.round_nonneg (decimal28.round_nonneg (abs_nonneg _)), ?_⟩
  unfold decimalDifference toFloat
  exact if_pos (hround.trans_lt decimal28_round_overflow)

/-- The snapshot that a ledger check with the given differences finishes. -/
def afterLedgerCheck (s : HealthSnapshot) (cashDifference btcDifference : FloatValue)
    (observed : Option ℤ) : HealthSnapshot :=
  let ledgerAgrees := cashDifference.atMost ledgerTolerance && btcDifference.atMost ledgerTolerance
  { s with
    ledgerMatches := ledgerAgrees
    ledgerCashDifference := cashDifference
    ledgerBtcDifference := btcDifference
    apiSuccesses := if s.ledgerMatches && !ledgerAgrees then 0 else s.apiSuccesses
    lastObservationAtUtc := latestObservation s.lastObservationAtUtc observed }

/-- A ledger check compares its amounts, or fails the schema when it refuses one. -/
theorem recordLedgerCheck_cases (s : HealthSnapshot) (storedCash actualCash storedBtc actualBtc : ℚ)
    (observed : Option ℤ) :
    (Observation.ledgerCheck storedCash actualCash storedBtc actualBtc observed).Accepted ∧
      recordLedgerCheck s storedCash actualCash storedBtc actualBtc observed =
        finishObservation (afterLedgerCheck s (decimalDifference storedCash actualCash)
          (decimalDifference storedBtc actualBtc) observed) ∨
    recordLedgerCheck s storedCash actualCash storedBtc actualBtc observed =
      failSchema s observed := by
  by_cases haccepted :
      (Observation.ledgerCheck storedCash actualCash storedBtc actualBtc observed).Accepted
  · exact Or.inl ⟨haccepted, if_pos haccepted⟩
  · exact Or.inr (if_neg haccepted)

/-- A ledger check keeps the snapshot consistent. -/
theorem recordLedgerCheck_consistent {s : HealthSnapshot} (hs : Consistent s)
    (storedCash actualCash storedBtc actualBtc : ℚ) (observed : Option ℤ) :
    Consistent (recordLedgerCheck s storedCash actualCash storedBtc actualBtc observed) := by
  rcases recordLedgerCheck_cases s storedCash actualCash storedBtc actualBtc observed with
    ⟨haccepted, hchecked⟩ | hfailed
  · rw [hchecked]
    obtain ⟨hledger, hfill, hapi, hstage, hfields⟩ := hs
    obtain ⟨hstoredCash, hactualCash, hstoredBtc, hactualBtc⟩ := haccepted
    apply finishObservation_consistent
    · exact ⟨rfl⟩
    · exact ⟨hfill.1, hfill.2, hfill.3, hfill.4, hfill.5, hfill.6, hfill.7, hfill.8, hfill.9⟩
    · exact hapi.reset _ observed rfl rfl rfl
    · exact ⟨hfields.1, (reset_le _).trans hfields.2,
        decimalDifference_finite hstoredCash hactualCash,
        decimalDifference_finite hstoredBtc hactualBtc, hfields.5, hfields.6⟩
    · refine hstage.reduced_of_reset _ rfl rfl ?_
      intro hnew
      rw [Bool.and_eq_true, Bool.not_eq_true'] at hnew
      exact deriveReasons_ne_nil .ledgerMismatch
        (by simp only [reasonActive, afterLedgerCheck, hnew.2, Bool.not_false])
  · rw [hfailed]
    exact failSchema_consistent hs observed

/-! ## Fill checks -/

/-- The comparison of a stored deviation with the limit agrees with the decimal one. -/
theorem storedDeviation_atMost {deviation : ℚ} (hnonneg : 0 ≤ deviation) :
    (storedDeviation deviation).atMost fillDeviationLimit =
      decide (deviation ≤ fillDeviationLimitDecimal) := by
  have hlimit : fillDeviationLimitDecimal < binary64Overflow := by decide +kernel
  unfold storedDeviation
  by_cases hwithin : deviation ≤ fillDeviationLimitDecimal
  · have hle := toFloat_atMost hnonneg hwithin hlimit
    simp only [not_lt.mpr hwithin, false_and, if_false, hwithin, decide_true]
    exact hle
  · simp only [not_le.mp hwithin, true_and, hwithin, decide_false]
    split_ifs with hround
    · simp only [FloatValue.atMost, decide_eq_false_iff_not, not_le]
      exact binary64.lt_next _
    · simpa using hround

/-- A stored deviation is finite exactly below the range of doubles. -/
theorem storedDeviation_finite {deviation : ℚ} (hnonneg : 0 ≤ deviation)
    (hless : deviation < binary64Overflow) :
    ∃ q, 0 ≤ q ∧ storedDeviation deviation = .finite q := by
  have hlimit : 0 ≤ fillDeviationLimit := binary64.round_nonneg (by norm_num)
  unfold storedDeviation toFloat
  rw [if_pos hless]
  dsimp only
  split_ifs
  · exact ⟨_, hlimit.trans (binary64.lt_next _).le, rfl⟩
  · exact ⟨_, binary64.round_nonneg hnonneg, rfl⟩

/-- A deviation out of the range is stored as infinite. -/
theorem storedDeviation_infinite {deviation : ℚ} (h : binary64Overflow ≤ deviation) :
    storedDeviation deviation = .infinite := by
  unfold storedDeviation toFloat
  rw [if_neg (not_lt.mpr h)]
  simp [FloatValue.atMost]

/-- A deviation is not negative. -/
theorem decimalDeviation_nonneg {expectedPrice actualPrice : ℚ} (h : 0 < expectedPrice) :
    0 ≤ decimalDeviation expectedPrice actualPrice :=
  decimal28.round_nonneg (div_nonneg (decimal28.round_nonneg (abs_nonneg _)) h.le)

/-- The larger of two finite doubles is finite, and above a limit when one of them is. -/
theorem FloatValue.max_finite {a b : FloatValue} (ha : ∃ q, 0 ≤ q ∧ a = .finite q)
    (hb : ∃ q, 0 ≤ q ∧ b = .finite q) : ∃ q, 0 ≤ q ∧ a.max b = .finite q := by
  obtain ⟨x, hx, rfl⟩ := ha
  obtain ⟨y, hy, rfl⟩ := hb
  simp only [FloatValue.max]
  split_ifs
  · exact ⟨y, hy, rfl⟩
  · exact ⟨x, hx, rfl⟩

/-- A maximum exceeds a limit that the second value exceeds. -/
theorem FloatValue.max_atMost {a b : FloatValue} {limit : ℚ} (hb : b.atMost limit = false) :
    (a.max b).atMost limit = false := by
  cases a <;> cases b <;> simp_all [FloatValue.atMost, FloatValue.max]
  split_ifs <;> simp_all
  linarith

/-- The snapshot that a fill check with the given result and deviation finishes. -/
def afterFillCheck (s : HealthSnapshot) (withinLimit : Bool) (deviation : FloatValue)
    (observed : Option ℤ) : HealthSnapshot :=
  { s with
    fillWithinLimit := withinLimit
    fillDeviation := deviation
    fillAnomalyEpisode :=
      if s.fillWithinLimit && !withinLimit then s.fillAnomalyEpisode + 1
      else s.fillAnomalyEpisode
    fillRecoveryChecks :=
      if !withinLimit then 0
      else if withinLimit && !s.fillWithinLimit then apiSuccessesRequired
      else s.fillRecoveryChecks
    fillAnomalyDeviation :=
      if !withinLimit then s.fillAnomalyDeviation.max deviation else s.fillAnomalyDeviation
    fillAnomalyDetectedAtUtc :=
      if s.fillWithinLimit && !withinLimit then observed else s.fillAnomalyDetectedAtUtc
    fillAnomalyResolvedAtUtc :=
      if !withinLimit then none
      else if withinLimit && !s.fillWithinLimit then observed else s.fillAnomalyResolvedAtUtc
    lastFillRecoveryAtUtc := if !withinLimit then none else s.lastFillRecoveryAtUtc
    apiSuccesses := if s.fillWithinLimit && !withinLimit then 0 else s.apiSuccesses
    lastObservationAtUtc := latestObservation s.lastObservationAtUtc observed }

/-- A fill check compares its prices, or fails the schema when it refuses one. -/
theorem recordFillCheck_cases (s : HealthSnapshot) (expectedPrice actualPrice : ℚ)
    (observed : Option ℤ) :
    (Observation.fillCheck expectedPrice actualPrice observed).Accepted ∧
      recordFillCheck s expectedPrice actualPrice observed = finishObservation (afterFillCheck s
        (decide (decimalDeviation expectedPrice actualPrice ≤ fillDeviationLimitDecimal))
        (storedDeviation (decimalDeviation expectedPrice actualPrice)) observed) ∨
    ¬(Observation.fillCheck expectedPrice actualPrice observed).Accepted ∧
      recordFillCheck s expectedPrice actualPrice observed = failSchema s observed := by
  by_cases haccepted : (Observation.fillCheck expectedPrice actualPrice observed).Accepted
  · exact Or.inl ⟨haccepted, if_pos haccepted⟩
  · exact Or.inr ⟨haccepted, if_neg haccepted⟩

/-- The time at which an episode is resolved is not before the times that it recorded. -/
def ResolvesAt (s : HealthSnapshot) (observed : Option ℤ) : Prop :=
  ∀ resolved ∈ observed, (∀ detected ∈ s.fillAnomalyDetectedAtUtc, detected ≤ resolved) ∧
    ∀ recovery ∈ s.lastFillRecoveryAtUtc, recovery ≤ resolved

instance (s : HealthSnapshot) (observed : Option ℤ) : Decidable (ResolvesAt s observed) :=
  inferInstanceAs (Decidable (∀ _ ∈ observed, _))

/-- An observation that follows the snapshot may resolve its episode. -/
theorem Follows.resolvesAt {s : HealthSnapshot} {observed : Option ℤ} (h : Follows s observed)
    (htimes : TimeEvidence s) : ResolvesAt s observed := by
  intro resolved hresolved
  constructor
  · intro detected hdetected
    exact h.le (htimes.detected_le _ hdetected) _ hresolved
  · intro recovery hrecovery
    exact h.le (htimes.recovery_le _ hrecovery) _ hresolved

/-- A check opens an episode, keeps it open, resolves it, or changes nothing. -/
theorem FillEvidence.afterCheck {s : HealthSnapshot} (h : FillEvidence s) {observed : Option ℤ}
    {withinLimit : Bool}
    (hresolves : s.fillWithinLimit = false → withinLimit = true → ResolvesAt s observed)
    {deviation : FloatValue} (hatMost : deviation.atMost fillDeviationLimit = withinLimit) :
    FillEvidence (afterFillCheck s withinLimit deviation observed) := by
  have hepisode := h.episode_ne_zero
  cases hwithin : withinLimit with
  | false =>
    rw [hwithin] at hatMost
    have htrigger := FloatValue.max_atMost (a := s.fillAnomalyDeviation) hatMost
    cases hactive : s.fillWithinLimit with
    | true => constructor <;> simp [afterFillCheck, hactive, hatMost, htrigger, apiSuccessesRequired]
    | false =>
      constructor <;>
        simp [afterFillCheck, hactive, hatMost, htrigger, apiSuccessesRequired, hepisode hactive]
  | true =>
    rw [hwithin] at hatMost
    cases hactive : s.fillWithinLimit with
    | true =>
      obtain ⟨_, hchecks, hnone, htrigger, hresolved, _, hcounter, hdetection, hrecovery⟩ := h
      constructor <;> simp only [afterFillCheck, hactive, hatMost] <;> simp_all
    | false =>
      have hopen := hepisode hactive
      constructor <;> simp [afterFillCheck, hactive, hatMost, hopen]
      · simpa using h.trigger hopen
      · intro detected hdetected resolved hresolved
        exact (hresolves hactive hwithin resolved hresolved).1 detected hdetected
      · intro recovery hrecovery resolved hresolved
        exact (hresolves hactive hwithin resolved hresolved).2 recovery hrecovery

/-- A fill check keeps the snapshot consistent unless its deviation overflows, or it resolves
an episode at a time before those of the episode. -/
theorem recordFillCheck_consistent {s : HealthSnapshot} (hs : Consistent s)
    {expectedPrice actualPrice : ℚ} {observed : Option ℤ}
    (hresolves : s.fillWithinLimit = false →
      decimalDeviation expectedPrice actualPrice ≤ fillDeviationLimitDecimal → ResolvesAt s observed)
    (hless : decimalDeviation expectedPrice actualPrice < binary64Overflow) :
    Consistent (recordFillCheck s expectedPrice actualPrice observed) := by
  rcases recordFillCheck_cases s expectedPrice actualPrice observed with
    ⟨haccepted, hchecked⟩ | ⟨-, hfailed⟩
  · rw [hchecked]
    obtain ⟨hledger, hfill, hapi, hstage, hfields⟩ := hs
    have hnonneg : 0 ≤ decimalDeviation expectedPrice actualPrice :=
      decimalDeviation_nonneg haccepted.1.1
    have hatMost := storedDeviation_atMost hnonneg
    have hfinite := storedDeviation_finite hnonneg hless
    apply finishObservation_consistent
    · exact ⟨hledger.1⟩
    · exact hfill.afterCheck (fun hactive hwithin => hresolves hactive (of_decide_eq_true hwithin))
        hatMost
    · exact hapi.reset _ observed rfl rfl rfl
    · refine ⟨hfields.1, (reset_le _).trans hfields.2, hfields.3, hfields.4, hfinite, ?_⟩
      dsimp only [afterFillCheck]
      split_ifs
      · exact FloatValue.max_finite hfields.6 hfinite
      · exact hfields.6
    · refine hstage.reduced_of_reset _ rfl rfl ?_
      intro hnew
      rw [Bool.and_eq_true, Bool.not_eq_true'] at hnew
      exact deriveReasons_ne_nil .fillDeviation
        (by simp only [reasonActive, afterFillCheck, hnew.2, Bool.not_false])
  · rw [hfailed]
    exact failSchema_consistent hs observed

/-- An infinite deviation is refused. -/
theorem recordFillCheck_not_consistent {s : HealthSnapshot} {expectedPrice actualPrice : ℚ}
    {observed : Option ℤ}
    (haccepted : (Observation.fillCheck expectedPrice actualPrice observed).Accepted)
    (hle : binary64Overflow ≤ decimalDeviation expectedPrice actualPrice) :
    ¬Consistent (recordFillCheck s expectedPrice actualPrice observed) := by
  intro h
  obtain ⟨q, -, hfinite⟩ := h.fields.deviation
  rcases recordFillCheck_cases s expectedPrice actualPrice observed with
    ⟨-, hchecked⟩ | ⟨hrefused, -⟩
  · rw [hchecked] at hfinite
    exact absurd ((storedDeviation_infinite hle).symm.trans hfinite) (by simp)
  · exact absurd haccepted hrefused

/-- A fill check that accepts its prices keeps the snapshot consistent exactly when its deviation
is a double and it resolves no episode before its times. -/
theorem recordFillCheck_consistent_iff {s : HealthSnapshot} (hs : Consistent s)
    {expectedPrice actualPrice : ℚ} {observed : Option ℤ}
    (haccepted : (Observation.fillCheck expectedPrice actualPrice observed).Accepted) :
    Consistent (recordFillCheck s expectedPrice actualPrice observed) ↔
      decimalDeviation expectedPrice actualPrice < binary64Overflow ∧
        (s.fillWithinLimit = false →
          decimalDeviation expectedPrice actualPrice ≤ fillDeviationLimitDecimal →
            ResolvesAt s observed) := by
  refine ⟨fun h => ⟨?_, ?_⟩, fun ⟨hless, hresolves⟩ => recordFillCheck_consistent hs hresolves hless⟩
  · by_contra hle
    exact recordFillCheck_not_consistent haccepted (not_lt.mp hle) h
  · intro hactive hwithin resolved hresolved
    rcases recordFillCheck_cases s expectedPrice actualPrice observed with
      ⟨-, hchecked⟩ | ⟨hrefused, -⟩
    · rw [hchecked, decide_eq_true hwithin] at h
      have hepisode := hs.fill.episode_ne_zero hactive
      have hopen : (finishObservation (afterFillCheck s true
          (storedDeviation (decimalDeviation expectedPrice actualPrice))
          observed)).fillAnomalyEpisode ≠ 0 := by
        simpa [finishObservation, afterFillCheck] using hepisode
      constructor
      · intro detected hdetected
        exact h.fill.detection_le hopen detected
          (by simpa [finishObservation, afterFillCheck] using hdetected) resolved
          (by simpa [finishObservation, afterFillCheck, hactive] using hresolved)
      · intro recovery hrecovery
        exact h.fill.recovery_le hopen recovery
          (by simpa [finishObservation, afterFillCheck] using hrecovery) resolved
          (by simpa [finishObservation, afterFillCheck, hactive] using hresolved)
    · exact absurd haccepted hrefused

/-- The snapshot that a recovery check of an open episode finishes. -/
def afterRecoveryCheck (s : HealthSnapshot) (resolved : Bool) (checks : ℕ) (observed : ℤ) :
    HealthSnapshot :=
  { s with
    fillWithinLimit := resolved
    fillDeviation := if resolved then .finite 0 else s.fillDeviation
    fillRecoveryChecks := checks
    fillAnomalyResolvedAtUtc := if resolved then some observed else none
    lastFillRecoveryAtUtc := some observed
    lastObservationAtUtc := latestObservation s.lastObservationAtUtc (some observed) }

/-- A recovery check is ignored without an open episode or when it is not the newest;
otherwise the third check in a row resolves the episode. -/
theorem recordFlatFillRecoveryCheck_cases (s : HealthSnapshot) (eligible : Bool) (observed : ℤ) :
    recordFlatFillRecoveryCheck s eligible observed = s ∨ s.fillWithinLimit = false ∧
      ∃ resolved checks, (if resolved then checks = apiSuccessesRequired
          else checks < apiSuccessesRequired) ∧
        recordFlatFillRecoveryCheck s eligible observed =
          finishObservation (afterRecoveryCheck s resolved checks observed) := by
  unfold recordFlatFillRecoveryCheck
  by_cases hwithin : s.fillWithinLimit
  · exact Or.inl (if_pos hwithin)
  · by_cases hstale : ∃ prior ∈ s.lastFillRecoveryAtUtc, observed ≤ prior
    · exact Or.inl (by rw [if_neg hwithin, if_pos hstale])
    · rw [if_neg hwithin, if_neg hstale]
      refine Or.inr ⟨by simpa using hwithin, _, _, ?_, rfl⟩
      cases eligible
      · simp [apiSuccessesRequired]
      · by_cases hthird : apiSuccessesRequired ≤ s.fillRecoveryChecks + 1
        · simp [hthird]
        · simp [hthird]

/-- A recovery check counts, restarts the count, or resolves the episode. -/
theorem FillEvidence.afterRecoveryCheck {s : HealthSnapshot} (h : FillEvidence s)
    (htimes : TimeEvidence s) {observed : ℤ} (hfollows : Follows s (some observed))
    (hactive : s.fillWithinLimit = false) {resolved : Bool} {checks : ℕ}
    (hchecks : if resolved then checks = apiSuccessesRequired else checks < apiSuccessesRequired) :
    FillEvidence (afterRecoveryCheck s resolved checks observed) := by
  have hopen := h.episode_ne_zero hactive
  have hzero : (FloatValue.finite 0).atMost fillDeviationLimit = true := by
    have hlimit : 0 ≤ fillDeviationLimit := binary64.round_nonneg (by norm_num)
    simpa [FloatValue.atMost] using hlimit
  have hdeviation : s.fillDeviation.atMost fillDeviationLimit = false :=
    h.withinLimit_eq.symm.trans hactive
  have htrigger := h.trigger hopen
  have hdetected : ∀ detected, s.fillAnomalyDetectedAtUtc = some detected → detected ≤ observed :=
    fun _ hmem => hfollows.le (htimes.detected_le _ hmem) _ rfl
  cases resolved with
  | true =>
    simp only [if_true] at hchecks
    constructor <;> simp [Health.afterRecoveryCheck, hchecks, hopen, hzero, htrigger]
    exact hdetected
  | false =>
    simp only [Bool.false_eq_true, if_false] at hchecks
    constructor <;>
      simp [Health.afterRecoveryCheck, hchecks, hchecks.le, hopen, hdeviation, htrigger]

/-- A recovery check keeps the snapshot consistent. -/
theorem recordFlatFillRecoveryCheck_consistent {s : HealthSnapshot} (hs : Consistent s)
    (htimes : TimeEvidence s) (eligible : Bool) {observed : ℤ}
    (hfollows : Follows s (some observed)) :
    Consistent (recordFlatFillRecoveryCheck s eligible observed) := by
  rcases recordFlatFillRecoveryCheck_cases s eligible observed with
    hsame | ⟨hactive, resolved, checks, hchecks, hchecked⟩
  · rwa [hsame]
  · rw [hchecked]
    obtain ⟨hledger, hfill, hapi, hstage, hfields⟩ := hs
    apply finishObservation_consistent
    · exact ⟨hledger.1⟩
    · exact hfill.afterRecoveryCheck htimes hfollows hactive hchecks
    · exact hapi.reset False (some observed) rfl rfl rfl
    · refine ⟨hfields.1, hfields.2, hfields.3, hfields.4, ?_, hfields.6⟩
      dsimp only [afterRecoveryCheck]
      split_ifs
      · exact ⟨0, le_rfl, rfl⟩
      · exact hfields.5
    · intro hreduced _
      exact (hstage.reduced hreduced).2.1

/-! ## API observations -/

/-- The last success is not after the last observation of the interface. -/
theorem success_le_lastApiObservation {s : HealthSnapshot} {success : ℤ}
    (hsuccess : s.lastSuccessAtUtc = some success) :
    ∃ api ∈ lastApiObservation s, success ≤ api := by
  unfold lastApiObservation
  cases hfailure : s.lastFailureAtUtc with
  | none => exact ⟨success, by simp [hsuccess], le_rfl⟩
  | some failure => exact ⟨max success failure, by simp [hsuccess], le_max_left _ _⟩

/-- The last API observation is one of the two stored times. -/
theorem lastApiObservation_mem {s : HealthSnapshot} {api : ℤ} (h : api ∈ lastApiObservation s) :
    api ∈ s.lastSuccessAtUtc ∨ api ∈ s.lastFailureAtUtc := by
  unfold lastApiObservation at h
  cases hsuccess : s.lastSuccessAtUtc with
  | none => exact Or.inr (by simpa [hsuccess] using h)
  | some success =>
    cases hfailure : s.lastFailureAtUtc with
    | none => exact Or.inl (by simpa [hsuccess, hfailure] using h)
    | some failure =>
      rcases max_choice success failure with hmax | hmax
      · exact Or.inl (by simpa [hsuccess, hfailure, hmax] using h)
      · exact Or.inr (by simpa [hsuccess, hfailure, hmax] using h)

/-- An observation that is not stale is after every API observation so far. -/
theorem lastApi_lt {s : HealthSnapshot} {observed : ℤ} (h : ¬staleApiObservation s observed) :
    (∀ success ∈ s.lastSuccessAtUtc, success < observed) ∧
      ∀ failure ∈ s.lastFailureAtUtc, failure < observed := by
  constructor <;> intro time htime <;> by_contra hle
  · obtain ⟨api, hapi, hbound⟩ := success_le_lastApiObservation htime
    exact h ⟨api, hapi, by omega⟩
  · obtain ⟨api, hapi, hbound⟩ := failure_le_lastApiObservation htime
    exact h ⟨api, hapi, by omega⟩

/-- The snapshot that an accepted failure finishes. -/
def afterApiFailure (s : HealthSnapshot) (observed : ℤ) : HealthSnapshot :=
  let latched := s.apiFailureLatched || 3 ≤ s.apiFailures + 1
  { s with
    apiFailures := s.apiFailures + 1
    apiSuccesses := 0
    apiFailureLatched := latched
    apiLatchActivatedAtUtc :=
      if latched ∧ s.apiLatchActivatedAtUtc = none then some observed
      else s.apiLatchActivatedAtUtc
    lastFailureAtUtc := some observed
    lastObservationAtUtc := latestObservation s.lastObservationAtUtc (some observed) }

/-- A failure that is not stale is recorded. -/
theorem recordApiFailure_of_not_stale {s : HealthSnapshot} {observed : ℤ}
    (h : ¬staleApiObservation s observed) :
    recordApiFailure s observed = finishObservation (afterApiFailure s observed) :=
  if_neg h

/-- The snapshot that an accepted success finishes. -/
def afterApiSuccess (s : HealthSnapshot) (observed : ℤ) : HealthSnapshot :=
  let successes := min apiSuccessesRequired (s.apiSuccesses + 1)
  let latched := s.apiFailureLatched && successes < apiSuccessesRequired
  { s with
    apiFailures := 0
    apiSuccesses := successes
    apiFailureLatched := latched
    apiLatchActivatedAtUtc := if latched then s.apiLatchActivatedAtUtc else none
    lastSuccessAtUtc := some observed
    lastObservationAtUtc := latestObservation s.lastObservationAtUtc (some observed) }

/-- A success that is not stale is recorded. -/
theorem recordApiSuccess_of_not_stale {s : HealthSnapshot} {observed : ℤ}
    (h : ¬staleApiObservation s observed) :
    recordApiSuccess s observed = finishObservation (afterApiSuccess s observed) :=
  if_neg h

/-- After an accepted API observation every API time is at or before the last one. -/
theorem api_le_observed {s t : HealthSnapshot} {observed : ℤ}
    (hsuccess : ∀ success ∈ t.lastSuccessAtUtc, success ≤ observed)
    (hfailure : ∀ failure ∈ t.lastFailureAtUtc, failure ≤ observed)
    (hlast : t.lastObservationAtUtc = latestObservation s.lastObservationAtUtc (some observed)) :
    ∀ api ∈ lastApiObservation t, ∃ last ∈ t.lastObservationAtUtc, api ≤ last := by
  intro api hapi
  obtain ⟨last, hmem, hle⟩ : ∃ last ∈ latestObservation s.lastObservationAtUtc (some observed),
      observed ≤ last := observed_le_latestObservation observed rfl
  rw [hlast]
  rcases lastApiObservation_mem hapi with h | h
  · exact ⟨last, hmem, (hsuccess api h).trans hle⟩
  · exact ⟨last, hmem, (hfailure api h).trans hle⟩

/-- A failure counts, and sets the latch at the third in a row. -/
theorem ApiEvidence.afterFailure {s : HealthSnapshot} (h : ApiEvidence s) {observed : ℤ}
    (hstale : ¬staleApiObservation s observed) : ApiEvidence (afterApiFailure s observed) := by
  obtain ⟨hsuccess, hfailure⟩ := lastApi_lt hstale
  have hprovenance := h.provenance
  constructor
  · simp [afterApiFailure]
  · simp only [afterApiFailure]
    cases hactivation : s.apiLatchActivatedAtUtc with
    | none =>
      have hclear : s.apiFailureLatched = false := by simpa [hactivation] using hprovenance
      by_cases hthird : 3 ≤ s.apiFailures + 1 <;> simp [hclear, hthird]
    | some activation => simp [hprovenance, hactivation]
  · intro activation hmem
    refine ⟨observed, rfl, ?_⟩
    simp only [afterApiFailure] at hmem
    split_ifs at hmem with hlatched
    · cases hmem
      exact le_rfl
    · obtain ⟨failure, hmem', hle⟩ := h.activation_le activation hmem
      exact hle.trans (hfailure failure hmem').le
  · intro hlatched hless
    simp only [afterApiFailure, Bool.or_eq_true, decide_eq_true_eq] at hlatched hless ⊢
    have hbefore : s.apiFailureLatched = true := hlatched.resolve_right (by omega)
    obtain ⟨success, hmem, hafter, -⟩ := h.interrupted hbefore (by omega)
    refine ⟨success, hmem, fun activation hactivation => ?_, fun _ => ⟨observed, rfl, ?_⟩⟩
    · rw [if_neg (by rintro ⟨-, hnone⟩; simp [hprovenance, hnone] at hbefore)] at hactivation
      exact hafter activation hactivation
    · exact hsuccess success hmem
  · simp +contextual [afterApiFailure]
  · simp [afterApiFailure]
  · simp [afterApiFailure]
  · simp [afterApiFailure]
  · exact api_le_observed (fun success hmem => (hsuccess success hmem).le)
      (by simp [afterApiFailure]) rfl

/-- A success counts, and clears the latch at the third in a row. -/
theorem ApiEvidence.afterSuccess {s : HealthSnapshot} (h : ApiEvidence s) {observed : ℤ}
    (hstale : ¬staleApiObservation s observed) : ApiEvidence (afterApiSuccess s observed) := by
  obtain ⟨hsuccess, hfailure⟩ := lastApi_lt hstale
  have hprovenance := h.provenance
  constructor
  · simp [afterApiSuccess, apiSuccessesRequired]
  · simp only [afterApiSuccess]
    split_ifs with hlatched <;> simp_all
  · intro activation hmem
    simp only [afterApiSuccess] at hmem
    split_ifs at hmem
    · exact h.activation_le activation hmem
    · cases hmem
  · intro hlatched _
    refine ⟨observed, rfl, fun activation hmem => ?_, by simp [afterApiSuccess]⟩
    simp only [afterApiSuccess] at hmem
    split_ifs at hmem
    · obtain ⟨failure, hmem', hle⟩ := h.activation_le activation hmem
      exact hle.trans_lt (hfailure failure hmem')
    · cases hmem
  · simp [afterApiSuccess]
  · simp [afterApiSuccess]
  · simp [afterApiSuccess]
  · simp [afterApiSuccess]
  · exact api_le_observed (by simp [afterApiSuccess])
      (fun failure hmem => (hfailure failure hmem).le) rfl

/-- A failure outside REDUCED keeps the snapshot consistent. -/
theorem recordApiFailure_consistent {s : HealthSnapshot} (hs : Consistent s) {observed : ℤ}
    (hsafe : ¬(s.stage = .reduced ∧ ¬staleApiObservation s observed)) :
    Consistent (recordApiFailure s observed) := by
  by_cases hstale : staleApiObservation s observed
  · have hsame : recordApiFailure s observed = s := if_pos hstale
    rwa [hsame]
  · rw [recordApiFailure_of_not_stale hstale]
    obtain ⟨hledger, hfill, hapi, hstage, hfields⟩ := hs
    apply finishObservation_consistent
    · exact ⟨hledger.1⟩
    · exact ⟨hfill.1, hfill.2, hfill.3, hfill.4, hfill.5, hfill.6, hfill.7, hfill.8, hfill.9⟩
    · exact hapi.afterFailure hstale
    · exact ⟨hfields.1, Nat.zero_le _, hfields.3, hfields.4, hfields.5, hfields.6⟩
    · exact fun hreduced => absurd ⟨hreduced, hstale⟩ hsafe

/-- A failure accepted while REDUCED clears the successes that the stage rests on. -/
theorem recordApiFailure_not_consistent {s : HealthSnapshot} (hs : Consistent s) {observed : ℤ}
    (hreduced : s.stage = .reduced) (hstale : ¬staleApiObservation s observed) :
    ¬Consistent (recordApiFailure s observed) := by
  intro h
  obtain ⟨hnone, hsuccesses, -⟩ := hs.stage.reduced hreduced
  have hzero : s.apiFailures = 0 := by
    by_contra hpos
    have := hs.api.exclusive (Nat.pos_of_ne_zero hpos)
    omega
  have hhealthy : deriveReasons (afterApiFailure s observed) = [] := by
    rw [deriveReasons_eq_nil] at hnone ⊢
    intro reason
    have := hnone reason
    cases reason <;> simp_all [reasonActive, afterApiFailure]
  rw [recordApiFailure_of_not_stale hstale] at h
  have hstage : (finishObservation (afterApiFailure s observed)).stage = .reduced := by
    rw [finishObservation_stage, hhealthy]
    simp [afterApiFailure, hreduced]
  have := (h.stage.reduced hstage).2.1
  simp [finishObservation, afterApiFailure] at this

/-- A success keeps the snapshot consistent. -/
theorem recordApiSuccess_consistent {s : HealthSnapshot} (hs : Consistent s) (observed : ℤ) :
    Consistent (recordApiSuccess s observed) := by
  by_cases hstale : staleApiObservation s observed
  · have hsame : recordApiSuccess s observed = s := if_pos hstale
    rwa [hsame]
  · rw [recordApiSuccess_of_not_stale hstale]
    obtain ⟨hledger, hfill, hapi, hstage, hfields⟩ := hs
    apply finishObservation_consistent
    · exact ⟨hledger.1⟩
    · exact ⟨hfill.1, hfill.2, hfill.3, hfill.4, hfill.5, hfill.6, hfill.7, hfill.8, hfill.9⟩
    · exact hapi.afterSuccess hstale
    · exact ⟨hfields.1, min_le_left _ _, hfields.3, hfields.4, hfields.5, hfields.6⟩
    · intro hreduced _
      have := (hstage.reduced hreduced).2.1
      simp only [afterApiSuccess, apiSuccessesRequired]
      omega

/-- The end of a recovery cycle keeps the snapshot consistent. -/
theorem recordRecoveryCycleSuccess_consistent {s : HealthSnapshot} (hs : Consistent s)
    (observed : ℤ) : Consistent (recordRecoveryCycleSuccess s observed) := by
  obtain ⟨hledger, hfill, hapi, hstage, hfields⟩ := hs
  have hseen := hapi.reset (t := { s with
    lastObservationAtUtc := latestObservation s.lastObservationAtUtc (some observed) })
    False (some observed) rfl rfl rfl
  unfold recordRecoveryCycleSuccess
  dsimp only
  split_ifs with hrecovered
  · obtain ⟨hreduced, hnone⟩ := hrecovered
    exact ⟨⟨hledger.1⟩,
      ⟨hfill.1, hfill.2, hfill.3, hfill.4, hfill.5, hfill.6, hfill.7, hfill.8, hfill.9⟩,
      ⟨hseen.1, hseen.2, hseen.3, hseen.4, hseen.5, hseen.6, hseen.7, hseen.8, hseen.9⟩,
      ⟨hstage.reasons_eq, fun _ => ⟨hnone, rfl⟩, nofun, nofun⟩,
      ⟨hfields.1, hfields.2, hfields.3, hfields.4, hfields.5, hfields.6⟩⟩
  · apply finishObservation_consistent
    · exact ⟨hledger.1⟩
    · exact ⟨hfill.1, hfill.2, hfill.3, hfill.4, hfill.5, hfill.6, hfill.7, hfill.8, hfill.9⟩
    · exact hseen
    · exact ⟨hfields.1, hfields.2, hfields.3, hfields.4, hfields.5, hfields.6⟩
    · intro hreduced _
      exact (hstage.reduced hreduced).2.1

end AutoBit.Health
