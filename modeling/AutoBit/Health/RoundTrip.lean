import AutoBit.Health.Consistency

/-!
# Which observation sequences keep the snapshot restorable

A run of observations keeps every snapshot restorable exactly when none of its steps is
one of the two that the recording methods get wrong.
-/

namespace AutoBit.Health

open Library

/-- `HealthSnapshot.from_mapping(s.to_mapping())` succeeds and equals `s`. -/
def RoundTrips (s : HealthSnapshot) : Prop := HealthSnapshot.fromMapping s.toMapping = .ok s

instance (s : HealthSnapshot) : Decidable (RoundTrips s) := inferInstanceAs (Decidable (_ = _))

/-- The observation times of a sequence of calls never decrease. -/
def Nondecreasing (observations : List Observation) : Prop :=
  (observations.filterMap Observation.time).Pairwise (· ≤ ·)

instance (observations : List Observation) : Decidable (Nondecreasing observations) :=
  inferInstanceAs (Decidable (List.Pairwise _ _))

/-- The two observations that leave a snapshot its own deserialiser refuses. -/
def Defective (s : HealthSnapshot) : Observation → Prop
  | .apiFailure observed => s.stage = .reduced ∧ ¬staleApiObservation s observed
  | .fillCheck expectedPrice actualPrice _ =>
    binary64Overflow ≤ decimalDeviation expectedPrice actualPrice
  | _ => False

/-- Every snapshot that a fresh monitor holds during a sequence of calls round-trips. -/
def AlwaysRoundTrips (observations : List Observation) : Prop :=
  ∀ before, before <+: observations → RoundTrips (observeAll {} before)

/-! ## The times of the fill episode -/

/-- The fields of a step that the time evidence reads. -/
private theorem TimeEvidence.step {s t : HealthSnapshot} (h : TimeEvidence s)
    {observed : Option ℤ}
    (hlast : t.lastObservationAtUtc = latestObservation s.lastObservationAtUtc observed)
    (hdetected : ∀ time ∈ t.fillAnomalyDetectedAtUtc,
      time ∈ s.fillAnomalyDetectedAtUtc ∨ time ∈ observed)
    (hrecovery : ∀ time ∈ t.lastFillRecoveryAtUtc,
      time ∈ s.lastFillRecoveryAtUtc ∨ time ∈ observed) : TimeEvidence t := by
  constructor <;> intro time hmem <;> rw [hlast]
  · rcases hdetected time hmem with hold | hnew
    · exact le_latestObservation (h.detected_le time hold)
    · exact observed_le_latestObservation time hnew
  · rcases hrecovery time hmem with hold | hnew
    · exact le_latestObservation (h.recovery_le time hold)
    · exact observed_le_latestObservation time hnew

/-- What every call does to the observation cursor and the fill times. -/
theorem observe_times (s : HealthSnapshot) (o : Observation) :
    observe s o = s ∨
      (observe s o).lastObservationAtUtc = latestObservation s.lastObservationAtUtc o.time ∧
      (∀ time ∈ (observe s o).fillAnomalyDetectedAtUtc,
        time ∈ s.fillAnomalyDetectedAtUtc ∨ time ∈ o.time) ∧
      ∀ time ∈ (observe s o).lastFillRecoveryAtUtc,
        time ∈ s.lastFillRecoveryAtUtc ∨ time ∈ o.time := by
  cases o with
  | apiFailure observed =>
    by_cases hstale : staleApiObservation s observed
    · exact Or.inl (if_pos hstale)
    · simp only [observe, recordApiFailure_of_not_stale hstale]
      exact Or.inr ⟨rfl, fun _ => Or.inl, fun _ => Or.inl⟩
  | apiSuccess observed =>
    by_cases hstale : staleApiObservation s observed
    · exact Or.inl (if_pos hstale)
    · simp only [observe, recordApiSuccess_of_not_stale hstale]
      exact Or.inr ⟨rfl, fun _ => Or.inl, fun _ => Or.inl⟩
  | candleCheck | timestampCheck | schemaCheck | unresolvedOrders | malformed =>
    exact Or.inr ⟨rfl, fun _ => Or.inl, fun _ => Or.inl⟩
  | ledgerCheck storedCash actualCash storedBtc actualBtc observed =>
    rcases recordLedgerCheck_cases s storedCash actualCash storedBtc actualBtc observed with
      ⟨-, hchecked⟩ | hfailed
    · simp only [observe, hchecked]
      exact Or.inr ⟨rfl, fun _ => Or.inl, fun _ => Or.inl⟩
    · simp only [observe, hfailed]
      exact Or.inr ⟨rfl, fun _ => Or.inl, fun _ => Or.inl⟩
  | fillCheck expectedPrice actualPrice observed =>
    rcases recordFillCheck_cases s expectedPrice actualPrice observed with
      ⟨-, hchecked⟩ | ⟨-, hfailed⟩
    · simp only [observe, hchecked]
      refine Or.inr ⟨rfl, fun time hmem => ?_, fun time hmem => ?_⟩ <;>
        simp only [finishObservation, afterFillCheck] at hmem
      · split_ifs at hmem
        · exact Or.inr hmem
        · exact Or.inl hmem
      · split_ifs at hmem
        · cases hmem
        · exact Or.inl hmem
    · simp only [observe, hfailed]
      exact Or.inr ⟨rfl, fun _ => Or.inl, fun _ => Or.inl⟩
  | flatFillRecoveryCheck eligible observed =>
    rcases recordFlatFillRecoveryCheck_cases s eligible observed with
      hsame | ⟨-, resolved, checks, -, hchecked⟩
    · exact Or.inl hsame
    · simp only [observe, hchecked]
      exact Or.inr ⟨rfl, fun _ => Or.inl, fun _ => Or.inr⟩
  | recoveryCycleSuccess observed =>
    simp only [observe, recordRecoveryCycleSuccess]
    split_ifs <;> exact Or.inr ⟨rfl, fun _ => Or.inl, fun _ => Or.inl⟩

/-- A call keeps the evidence of the times. -/
theorem observe_timeEvidence {s : HealthSnapshot} (h : TimeEvidence s) (o : Observation) :
    TimeEvidence (observe s o) := by
  rcases observe_times s o with hsame | ⟨hlast, hdetected, hrecovery⟩
  · rwa [hsame]
  · exact h.step hlast hdetected hrecovery

/-- The observation cursor stays at or below any time that bounds the calls so far. -/
theorem observe_last_le {s : HealthSnapshot} {o : Observation} {time : ℤ}
    (hs : ∀ last ∈ s.lastObservationAtUtc, last ≤ time) (ho : ∀ last ∈ o.time, last ≤ time) :
    ∀ last ∈ (observe s o).lastObservationAtUtc, last ≤ time := by
  rcases observe_times s o with hsame | ⟨hlast, -, -⟩
  · rwa [hsame]
  · rw [hlast]
    exact latestObservation_le hs ho

/-! ## One step -/

/-- A step keeps the snapshot consistent exactly when it is not defective. -/
theorem observe_consistent_iff {s : HealthSnapshot} (hs : Consistent s) (htimes : TimeEvidence s)
    {o : Observation} (haccepted : o.Accepted) (hfollows : Follows s o.time) :
    Consistent (observe s o) ↔ ¬Defective s o := by
  cases o with
  | apiFailure observed =>
    refine ⟨fun h hdefective => ?_, recordApiFailure_consistent hs⟩
    exact recordApiFailure_not_consistent hs hdefective.1 hdefective.2 h
  | fillCheck expectedPrice actualPrice observed =>
    refine ⟨fun h hdefective => recordFillCheck_not_consistent haccepted hdefective h, fun h => ?_⟩
    exact recordFillCheck_consistent hs (fun _ _ => hfollows.resolvesAt htimes) (not_le.mp h)
  | apiSuccess => exact iff_of_true (recordApiSuccess_consistent hs _) id
  | candleCheck => exact iff_of_true (recordCandleCheck_consistent hs _ _ _ _) id
  | timestampCheck => exact iff_of_true (recordTimestampCheck_consistent hs _ _) id
  | schemaCheck => exact iff_of_true (recordSchemaCheck_consistent hs _ _) id
  | unresolvedOrders => exact iff_of_true (setUnresolvedOrders_consistent hs _ _) id
  | ledgerCheck => exact iff_of_true (recordLedgerCheck_consistent hs _ _ _ _ _) id
  | flatFillRecoveryCheck =>
    exact iff_of_true (recordFlatFillRecoveryCheck_consistent hs htimes _ hfollows) id
  | recoveryCycleSuccess => exact iff_of_true (recordRecoveryCycleSuccess_consistent hs _) id
  | malformed => exact absurd haccepted id

/-! ## Runs -/

/-- No call of a run is defective in the snapshot that the calls before it left. -/
def NeverDefective (s : HealthSnapshot) (observations : List Observation) : Prop :=
  ∀ before o, before ++ [o] <+: observations → ¬Defective (observeAll s before) o

/-- No call is defective exactly when the first is not and none after it is. -/
theorem neverDefective_cons {s : HealthSnapshot} {o : Observation}
    {observations : List Observation} :
    NeverDefective s (o :: observations) ↔
      ¬Defective s o ∧ NeverDefective (observe s o) observations := by
  constructor
  · intro h
    refine ⟨h [] o (by simp), fun before next hprefix => ?_⟩
    exact h (o :: before) next (by simpa using hprefix)
  · rintro ⟨hfirst, hrest⟩ before next hprefix
    cases before with
    | nil =>
      obtain ⟨rfl, -⟩ := List.cons_prefix_cons.mp hprefix
      exact hfirst
    | cons first before =>
      obtain ⟨rfl, htail⟩ := List.cons_prefix_cons.mp hprefix
      exact hrest before next htail

/-- What holds after every beginning holds at the start and after every beginning of the rest. -/
theorem forall_prefix_cons {P : HealthSnapshot → Prop} {s : HealthSnapshot} {o : Observation}
    {observations : List Observation} :
    (∀ before, before <+: o :: observations → P (observeAll s before)) ↔
      P s ∧ ∀ before, before <+: observations → P (observeAll (observe s o) before) := by
  constructor
  · intro h
    refine ⟨h [] (List.nil_prefix), fun before hprefix => ?_⟩
    exact h (o :: before) (by simpa using hprefix)
  · rintro ⟨hfirst, hrest⟩ before hprefix
    cases before with
    | nil => exact hfirst
    | cons first before =>
      obtain ⟨rfl, htail⟩ := List.cons_prefix_cons.mp hprefix
      exact hrest before htail

/-- Calls in order have the later ones in order, none of them before the first. -/
theorem nondecreasing_cons {o : Observation} {observations : List Observation}
    (h : Nondecreasing (o :: observations)) :
    Nondecreasing observations ∧
      ∀ time ∈ o.time, ∀ next ∈ observations.filterMap Observation.time, time ≤ next := by
  unfold Nondecreasing at h
  cases htime : o.time with
  | none =>
    rw [List.filterMap_cons_none htime] at h
    exact ⟨h, by simp⟩
  | some time =>
    rw [List.filterMap_cons_some htime, List.pairwise_cons] at h
    exact ⟨h.2, by simpa using h.1⟩

/-- From a consistent snapshot, all snapshots of a run are consistent exactly when no call
of the run is defective. -/
theorem observeAll_consistent_iff {observations : List Observation} :
    ∀ {s : HealthSnapshot}, Consistent s → TimeEvidence s →
      (∀ o ∈ observations, o.Accepted) → Nondecreasing observations →
      (∀ next ∈ observations.filterMap Observation.time, ∀ last ∈ s.lastObservationAtUtc,
        last ≤ next) →
      ((∀ before, before <+: observations → Consistent (observeAll s before)) ↔
        NeverDefective s observations) := by
  induction observations with
  | nil =>
    intro s hs _ _ _ _
    simp [NeverDefective, hs]
  | cons o observations ih =>
    intro s hs htimes haccepted htime hlast
    obtain ⟨hrest, hnext⟩ := nondecreasing_cons htime
    have hfollows : Follows s o.time := fun time hmem last hcurrent => by
      refine hlast time ?_ last hcurrent
      rw [List.filterMap_cons_some hmem]
      exact List.mem_cons_self
    have hstep := observe_consistent_iff hs htimes (haccepted o List.mem_cons_self) hfollows
    have hlater : ∀ next ∈ observations.filterMap Observation.time,
        ∀ last ∈ (observe s o).lastObservationAtUtc, last ≤ next := by
      intro next hmem
      refine observe_last_le (fun last hcurrent => hlast next ?_ last hcurrent)
        (fun time htime => hnext time htime next hmem)
      exact ((List.sublist_cons_self o observations).filterMap Observation.time).subset hmem
    rw [forall_prefix_cons, neverDefective_cons, ← hstep]
    constructor
    · rintro ⟨-, hall⟩
      have hafter : Consistent (observe s o) := hall [] List.nil_prefix
      refine ⟨hafter, ?_⟩
      exact (ih hafter (observe_timeEvidence htimes o)
        (fun next hmem => haccepted next (List.mem_cons_of_mem o hmem)) hrest hlater).mp hall
    · rintro ⟨hafter, hnever⟩
      exact ⟨hs, (ih hafter (observe_timeEvidence htimes o)
        (fun next hmem => haccepted next (List.mem_cons_of_mem o hmem)) hrest hlater).mpr hnever⟩

/-- A new snapshot is consistent. -/
theorem initial_consistent : Consistent {} :=
  (fromMapping_toMapping_iff {}).mp (by decide +kernel)

/-- Every snapshot that a fresh monitor holds round-trips exactly when no API failure is
accepted while the stage is REDUCED and no fill deviation exceeds the range of doubles. -/
theorem alwaysRoundTrips_iff (observations : List Observation)
    (haccepted : ∀ o ∈ observations, o.Accepted) (htimes : Nondecreasing observations) :
    AlwaysRoundTrips observations ↔ NeverDefective {} observations := by
  have hinitial : TimeEvidence {} := ⟨nofun, nofun⟩
  have hrun := observeAll_consistent_iff initial_consistent hinitial haccepted htimes
    (fun _ _ last hlast => nomatch hlast)
  rw [← hrun]
  exact forall₂_congr fun before _ => fromMapping_toMapping_iff (observeAll {} before)

/-- Three failures, which halt the monitor, and four successes, the third of which reduces it. -/
def recoveringRun : List Observation :=
  [.apiFailure 1, .apiFailure 2, .apiFailure 3, .apiSuccess 4, .apiSuccess 5, .apiSuccess 6,
    .apiSuccess 7]

/-- A run through HALTED and REDUCED meets the condition. -/
theorem alwaysRoundTrips_recovering : AlwaysRoundTrips recoveringRun ∧
    (observeAll {} (recoveringRun.take 3)).stage = .halted ∧
    (observeAll {} (recoveringRun.take 6)).stage = .reduced := by
  have haccepted : ∀ o ∈ recoveringRun, o.Accepted := by
    simp [recoveringRun, Observation.Accepted]
  refine ⟨(alwaysRoundTrips_iff _ haccepted (by decide)).mpr ?_, by decide, by decide⟩
  simp only [recoveringRun, neverDefective_cons]
  exact ⟨fun h => absurd h.1 (by decide), fun h => absurd h.1 (by decide),
    fun h => absurd h.1 (by decide), id, id, id, id, by simp [NeverDefective]⟩

/-- Three failures, three successes, and one failure while the stage is REDUCED. -/
def reducedFailureRun : List Observation :=
  [.apiFailure 1, .apiFailure 2, .apiFailure 3, .apiSuccess 4, .apiSuccess 5, .apiSuccess 6,
    .apiFailure 7]

/-- A run of accepted calls with increasing times can leave a snapshot that is refused. -/
theorem not_alwaysRoundTrips_of_accepted :
    ¬∀ observations : List Observation, (∀ o ∈ observations, o.Accepted) →
      Nondecreasing observations → AlwaysRoundTrips observations := by
  intro h
  have hround := h reducedFailureRun (by simp [reducedFailureRun, Observation.Accepted])
    (by decide) reducedFailureRun List.prefix_rfl
  have hstage := ((fromMapping_toMapping_iff _).mp hround).stage
  exact absurd (hstage.reduced (by decide)).2.1 (by decide)

end AutoBit.Health
