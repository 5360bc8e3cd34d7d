import AutoBit.Health.Consistency

/-!
# Recovery safety of the health monitor

The success counter never exceeds the number of API successes accepted since the last
reset, which is an accepted failure or a predicate turning faulty. Leaving HALTED needs
three of them, so it needs three accepted successes after the last reset.
-/

namespace AutoBit.Health

open Library

/-! ## Resets and accepted successes -/

/-- Whether a call is an accepted API failure. -/
def acceptedFailure (s : HealthSnapshot) : Observation → Bool
  | .apiFailure observed => !decide (staleApiObservation s observed)
  | _ => false

/-- The time of a call that is an accepted API success. -/
def acceptedSuccess (s : HealthSnapshot) : Observation → Option ℤ
  | .apiSuccess observed => if staleApiObservation s observed then none else some observed
  | _ => none

/-- Whether a call turns a healthy predicate faulty. -/
def turnsFaulty (s : HealthSnapshot) (o : Observation) (reason : HealthReason) : Bool :=
  !reasonActive s reason && reasonActive (observe s o) reason

/-- Whether recovery starts afresh at a call. -/
def resets (s : HealthSnapshot) (o : Observation) : Bool :=
  acceptedFailure s o || healthReasonOrder.any (turnsFaulty s o)

/-- A run, each call with the snapshot that it found. -/
def history (s : HealthSnapshot) : List Observation → List (HealthSnapshot × Observation)
  | [] => []
  | o :: observations => (s, o) :: history (observe s o) observations

/-- The calls of a run after its last reset, newest first. -/
def sinceReset (observations : List Observation) : List (HealthSnapshot × Observation) :=
  (history {} observations).reverse.takeWhile fun step => !resets step.1 step.2

/-- The times of the API successes accepted after the last reset, oldest first. -/
def recentSuccesses (observations : List Observation) : List ℤ :=
  (sinceReset observations).reverse.filterMap fun step => acceptedSuccess step.1 step.2

/-- The last of the calls is made last. -/
theorem observeAll_snoc (s : HealthSnapshot) (observations : List Observation) (o : Observation) :
    observeAll s (observations ++ [o]) = observe (observeAll s observations) o := by
  rw [observeAll_append]
  rfl

/-- The history of one more call ends with it. -/
theorem history_snoc (s : HealthSnapshot) (observations : List Observation) (o : Observation) :
    history s (observations ++ [o]) = history s observations ++ [(observeAll s observations, o)] := by
  induction observations generalizing s with
  | nil => rfl
  | cons first observations ih => simp [history, ih]

/-- The successes since the last reset, after one more call. -/
theorem recentSuccesses_snoc (observations : List Observation) (o : Observation) :
    recentSuccesses (observations ++ [o]) =
      if resets (observeAll {} observations) o then []
      else recentSuccesses observations ++
        (acceptedSuccess (observeAll {} observations) o).toList := by
  unfold recentSuccesses sinceReset
  rw [history_snoc, List.reverse_append, List.reverse_singleton, List.singleton_append,
    List.takeWhile_cons]
  cases resets (observeAll {} observations) o with
  | true => simp
  | false =>
    cases hsuccess : acceptedSuccess (observeAll {} observations) o <;> simp [hsuccess]

/-! ## One step -/

/-- The end of an observation leaves the active reasons alone. -/
@[simp] theorem reasonActive_finishObservation (t : HealthSnapshot) (reason : HealthReason) :
    reasonActive (finishObservation t) reason = reasonActive t reason := by
  cases reason <;> rfl

/-- Every call leaves the snapshot alone, ends a recovery cycle, or moves the stage of a
snapshot that differs from the old one in the observed fields only. -/
theorem observe_cases (s : HealthSnapshot) (o : Observation) :
    observe s o = s ∨
      ((∃ observed, o = .recoveryCycleSuccess observed) ∧ s.stage = .reduced ∧
        deriveReasons s = [] ∧ (observe s o).stage = .normal ∧
        ∀ reason, reasonActive (observe s o) reason = reasonActive s reason) ∨
      ∃ t : HealthSnapshot, observe s o = finishObservation t ∧ t.stage = s.stage := by
  cases o with
  | apiFailure observed =>
    by_cases hstale : staleApiObservation s observed
    · exact Or.inl (if_pos hstale)
    · exact Or.inr (Or.inr ⟨_, recordApiFailure_of_not_stale hstale, rfl⟩)
  | apiSuccess observed =>
    by_cases hstale : staleApiObservation s observed
    · exact Or.inl (if_pos hstale)
    · exact Or.inr (Or.inr ⟨_, recordApiSuccess_of_not_stale hstale, rfl⟩)
  | candleCheck | timestampCheck | schemaCheck | unresolvedOrders | malformed =>
    exact Or.inr (Or.inr ⟨_, rfl, rfl⟩)
  | ledgerCheck storedCash actualCash storedBtc actualBtc observed =>
    rcases recordLedgerCheck_cases s storedCash actualCash storedBtc actualBtc observed with
      ⟨-, hchecked⟩ | hfailed
    · exact Or.inr (Or.inr ⟨_, hchecked, rfl⟩)
    · exact Or.inr (Or.inr ⟨_, hfailed, rfl⟩)
  | fillCheck expectedPrice actualPrice observed =>
    rcases recordFillCheck_cases s expectedPrice actualPrice observed with
      ⟨-, hchecked⟩ | ⟨-, hfailed⟩
    · exact Or.inr (Or.inr ⟨_, hchecked, rfl⟩)
    · exact Or.inr (Or.inr ⟨_, hfailed, rfl⟩)
  | flatFillRecoveryCheck eligible observed =>
    rcases recordFlatFillRecoveryCheck_cases s eligible observed with
      hsame | ⟨-, resolved, checks, -, hchecked⟩
    · exact Or.inl hsame
    · exact Or.inr (Or.inr ⟨_, hchecked, rfl⟩)
  | recoveryCycleSuccess observed =>
    simp only [observe, recordRecoveryCycleSuccess]
    split_ifs with hrecovered
    · refine Or.inr (Or.inl ⟨⟨observed, rfl⟩, hrecovered.1, hrecovered.2, rfl, ?_⟩)
      intro reason
      cases reason <;> rfl
    · exact Or.inr (Or.inr ⟨_, rfl, rfl⟩)

/-- A call resets the count when it is a failure or raises a reason. -/
theorem resets_eq_true {s : HealthSnapshot} {o : Observation} :
    resets s o = true ↔ acceptedFailure s o = true ∨ ∃ reason, reasonActive s reason = false ∧
      reasonActive (observe s o) reason = true := by
  simp only [resets, Bool.or_eq_true, List.any_eq_true, turnsFaulty, Bool.and_eq_true,
    Bool.not_eq_true']
  constructor
  · rintro (h | ⟨reason, -, h⟩)
    · exact Or.inl h
    · exact Or.inr ⟨reason, h⟩
  · rintro (h | ⟨reason, h⟩)
    · exact Or.inl h
    · exact Or.inr ⟨reason, by cases reason <;> simp [healthReasonOrder], h⟩

/-- A failed schema check clears the successes when it is the first. -/
theorem apiSuccesses_failSchema {s : HealthSnapshot} {observed : Option ℤ} {reason : HealthReason}
    (hbefore : reasonActive s reason = false)
    (hafter : reasonActive (failSchema s observed) reason = true) :
    (failSchema s observed).apiSuccesses = 0 := by
  simp only [failSchema, reasonActive_finishObservation] at hafter
  simp only [failSchema, finishObservation]
  cases reason <;> simp_all [reasonActive]

/-- A ledger check changes one predicate, and clears the successes when the check fails it. -/
theorem apiSuccesses_afterLedgerCheck {s : HealthSnapshot} {cashDifference btcDifference : FloatValue}
    {observed : Option ℤ} {reason : HealthReason} (hbefore : reasonActive s reason = false)
    (hafter : reasonActive (afterLedgerCheck s cashDifference btcDifference observed) reason = true) :
    (afterLedgerCheck s cashDifference btcDifference observed).apiSuccesses = 0 := by
  cases reason with
  | ledgerMismatch =>
    have hmatches : s.ledgerMatches = true := by simpa [reasonActive] using hbefore
    have hfails : (cashDifference.atMost ledgerTolerance && btcDifference.atMost ledgerTolerance)
        = false := by
      simpa only [reasonActive, afterLedgerCheck, Bool.not_eq_true'] using hafter
    simp only [afterLedgerCheck, hmatches, hfails, Bool.not_false, Bool.and_self, if_true]
  | apiFailures | staleCandle | timestampReversal | schemaError | unresolvedOrder | fillDeviation =>
    exact absurd (hbefore.symm.trans hafter) (by decide)

/-- A fill check changes one predicate, and clears the successes when the check fails it. -/
theorem apiSuccesses_afterFillCheck {s : HealthSnapshot} {withinLimit : Bool}
    {deviation : FloatValue} {observed : Option ℤ} {reason : HealthReason}
    (hbefore : reasonActive s reason = false)
    (hafter : reasonActive (afterFillCheck s withinLimit deviation observed) reason = true) :
    (afterFillCheck s withinLimit deviation observed).apiSuccesses = 0 := by
  cases reason with
  | fillDeviation =>
    have hwithin : s.fillWithinLimit = true := by simpa [reasonActive] using hbefore
    have hfails : withinLimit = false := by simpa [reasonActive, afterFillCheck] using hafter
    simp only [afterFillCheck, hwithin, hfails, Bool.not_false, Bool.and_self, if_true]
  | apiFailures | staleCandle | timestampReversal | schemaError | unresolvedOrder | ledgerMismatch =>
    exact absurd (hbefore.symm.trans hafter) (by decide)

/-- A reset leaves no success counted. -/
theorem apiSuccesses_of_resets {s : HealthSnapshot} {o : Observation} (h : resets s o = true) :
    (observe s o).apiSuccesses = 0 := by
  rcases resets_eq_true.mp h with hfailure | ⟨reason, hbefore, hafter⟩
  · cases o <;> simp only [acceptedFailure, Bool.false_eq_true, Bool.not_eq_true',
      decide_eq_false_iff_not] at hfailure
    simp only [observe, recordApiFailure_of_not_stale hfailure]
    rfl
  · cases o with
    | apiFailure observed =>
      by_cases hstale : staleApiObservation s observed
      · have hsame : observe s (.apiFailure observed) = s := if_pos hstale
        simp_all
      · simp only [observe, recordApiFailure_of_not_stale hstale]
        rfl
    | apiSuccess observed =>
      by_cases hstale : staleApiObservation s observed
      · have hsame : observe s (.apiSuccess observed) = s := if_pos hstale
        simp_all
      · simp only [observe, recordApiSuccess_of_not_stale hstale,
          reasonActive_finishObservation] at hafter
        cases reason <;> simp_all [reasonActive, afterApiSuccess]
    | candleCheck =>
      simp only [observe, recordCandleCheck, reasonActive_finishObservation] at hafter ⊢
      cases reason <;> simp_all [reasonActive, finishObservation]
    | timestampCheck =>
      simp only [observe, recordTimestampCheck, reasonActive_finishObservation] at hafter ⊢
      cases reason <;> simp_all [reasonActive, finishObservation]
    | schemaCheck =>
      simp only [observe, recordSchemaCheck, reasonActive_finishObservation] at hafter ⊢
      cases reason <;> simp_all [reasonActive, finishObservation]
    | unresolvedOrders =>
      simp only [observe, setUnresolvedOrders, reasonActive_finishObservation] at hafter ⊢
      cases reason <;> simp_all [reasonActive, finishObservation]
    | ledgerCheck storedCash actualCash storedBtc actualBtc observed =>
      rcases recordLedgerCheck_cases s storedCash actualCash storedBtc actualBtc observed with
        ⟨-, hchecked⟩ | hfailed
      · simp only [observe, hchecked, reasonActive_finishObservation] at hafter ⊢
        exact apiSuccesses_afterLedgerCheck hbefore hafter
      · simp only [observe, hfailed] at hafter ⊢
        exact apiSuccesses_failSchema hbefore hafter
    | fillCheck expectedPrice actualPrice observed =>
      rcases recordFillCheck_cases s expectedPrice actualPrice observed with
        ⟨-, hchecked⟩ | ⟨-, hfailed⟩
      · simp only [observe, hchecked, reasonActive_finishObservation] at hafter ⊢
        exact apiSuccesses_afterFillCheck hbefore hafter
      · simp only [observe, hfailed] at hafter ⊢
        exact apiSuccesses_failSchema hbefore hafter
    | flatFillRecoveryCheck eligible observed =>
      rcases recordFlatFillRecoveryCheck_cases s eligible observed with
        hsame | ⟨hactive, resolved, checks, -, hchecked⟩
      · simp_all [observe]
      · simp only [observe, hchecked, reasonActive_finishObservation] at hafter
        cases reason <;> simp_all [reasonActive, afterRecoveryCheck]
    | recoveryCycleSuccess observed =>
      have hsame : reasonActive (observe s (.recoveryCycleSuccess observed)) reason =
          reasonActive s reason := by
        simp only [observe, recordRecoveryCycleSuccess]
        split_ifs <;> cases reason <;> rfl
      simp_all
    | malformed observed => exact apiSuccesses_failSchema hbefore hafter

/-- A call counts at most the success that it accepts. -/
theorem apiSuccesses_le (s : HealthSnapshot) (o : Observation) :
    (observe s o).apiSuccesses ≤ s.apiSuccesses + (acceptedSuccess s o).toList.length := by
  cases o with
  | apiFailure observed =>
    by_cases hstale : staleApiObservation s observed
    · have hsame : observe s (.apiFailure observed) = s := if_pos hstale
      simp [hsame]
    · simp only [observe, recordApiFailure_of_not_stale hstale]
      exact Nat.zero_le _
  | apiSuccess observed =>
    by_cases hstale : staleApiObservation s observed
    · have hsame : observe s (.apiSuccess observed) = s := if_pos hstale
      simp [hsame]
    · simp only [observe, recordApiSuccess_of_not_stale hstale, acceptedSuccess, hstale, if_false]
      exact min_le_right _ _
  | candleCheck | timestampCheck | schemaCheck | unresolvedOrders | malformed =>
    exact reset_le _
  | ledgerCheck storedCash actualCash storedBtc actualBtc observed =>
    rcases recordLedgerCheck_cases s storedCash actualCash storedBtc actualBtc observed with
      ⟨-, hchecked⟩ | hfailed
    · simp only [observe, hchecked]
      exact reset_le _
    · simp only [observe, hfailed]
      exact reset_le _
  | fillCheck expectedPrice actualPrice observed =>
    rcases recordFillCheck_cases s expectedPrice actualPrice observed with
      ⟨-, hchecked⟩ | ⟨-, hfailed⟩
    · simp only [observe, hchecked]
      exact reset_le _
    · simp only [observe, hfailed]
      exact reset_le _
  | flatFillRecoveryCheck eligible observed =>
    rcases recordFlatFillRecoveryCheck_cases s eligible observed with
      hsame | ⟨-, resolved, checks, -, hchecked⟩
    · simp [observe, hsame]
    · simp only [observe, hchecked]
      exact Nat.le_add_right _ _
  | recoveryCycleSuccess observed =>
    simp only [observe, recordRecoveryCycleSuccess]
    split_ifs <;> exact Nat.le_add_right _ _

/-- An accepted success is after the last one and becomes the last one. -/
theorem lastSuccess_observe (s : HealthSnapshot) (o : Observation) :
    (acceptedSuccess s o = none ∧ (observe s o).lastSuccessAtUtc = s.lastSuccessAtUtc) ∨
      ∃ observed, acceptedSuccess s o = some observed ∧
        (observe s o).lastSuccessAtUtc = some observed ∧
        ∀ success ∈ s.lastSuccessAtUtc, success < observed := by
  cases o with
  | apiFailure observed =>
    by_cases hstale : staleApiObservation s observed
    · have hsame : observe s (.apiFailure observed) = s := if_pos hstale
      exact Or.inl ⟨rfl, by rw [hsame]⟩
    · simp only [observe, recordApiFailure_of_not_stale hstale]
      exact Or.inl ⟨rfl, rfl⟩
  | apiSuccess observed =>
    by_cases hstale : staleApiObservation s observed
    · have hsame : observe s (.apiSuccess observed) = s := if_pos hstale
      exact Or.inl ⟨if_pos hstale, by rw [hsame]⟩
    · simp only [observe, recordApiSuccess_of_not_stale hstale]
      exact Or.inr ⟨observed, if_neg hstale, rfl, (lastApi_lt hstale).1⟩
  | candleCheck | timestampCheck | schemaCheck | unresolvedOrders | malformed =>
    exact Or.inl ⟨rfl, rfl⟩
  | ledgerCheck storedCash actualCash storedBtc actualBtc observed =>
    rcases recordLedgerCheck_cases s storedCash actualCash storedBtc actualBtc observed with
      ⟨-, hchecked⟩ | hfailed
    · simp only [observe, hchecked]
      exact Or.inl ⟨rfl, rfl⟩
    · simp only [observe, hfailed]
      exact Or.inl ⟨rfl, rfl⟩
  | fillCheck expectedPrice actualPrice observed =>
    rcases recordFillCheck_cases s expectedPrice actualPrice observed with
      ⟨-, hchecked⟩ | ⟨-, hfailed⟩
    · simp only [observe, hchecked]
      exact Or.inl ⟨rfl, rfl⟩
    · simp only [observe, hfailed]
      exact Or.inl ⟨rfl, rfl⟩
  | flatFillRecoveryCheck eligible observed =>
    rcases recordFlatFillRecoveryCheck_cases s eligible observed with
      hsame | ⟨-, resolved, checks, -, hchecked⟩
    · exact Or.inl ⟨rfl, by rw [observe, hsame]⟩
    · simp only [observe, hchecked]
      exact Or.inl ⟨rfl, rfl⟩
  | recoveryCycleSuccess observed =>
    simp only [observe, recordRecoveryCycleSuccess]
    split_ifs <;> exact Or.inl ⟨rfl, rfl⟩

/-! ## Runs -/

/-- The given success times bound the counter, increase strictly, and are not after the
last success. -/
structure Counted (s : HealthSnapshot) (successes : List ℤ) : Prop where
  counter_le : s.apiSuccesses ≤ successes.length
  increasing : successes.Pairwise (· < ·)
  le_last : ∀ time ∈ successes, ∃ last ∈ s.lastSuccessAtUtc, time ≤ last

/-- A call keeps the count, adds a success to it, or starts it afresh. -/
theorem Counted.observe {s : HealthSnapshot} {successes : List ℤ} (h : Counted s successes)
    (o : Observation) :
    Counted (observe s o)
      (if resets s o then [] else successes ++ (acceptedSuccess s o).toList) := by
  obtain ⟨hcounter, hincreasing, hlast⟩ := h
  by_cases hreset : resets s o = true
  · rw [if_pos hreset]
    exact ⟨by simp [apiSuccesses_of_resets hreset], List.Pairwise.nil, by simp⟩
  rw [if_neg hreset]
  have hle := apiSuccesses_le s o
  rcases lastSuccess_observe s o with ⟨hnone, hsame⟩ | ⟨observed, hsome, hnew, hlater⟩
  · simp only [hnone, Option.toList_none, List.length_nil, List.append_nil] at hle ⊢
    exact ⟨by omega, hincreasing, by rwa [hsame]⟩
  · simp only [hsome, Option.toList_some, List.length_singleton] at hle ⊢
    have hbefore : ∀ time ∈ successes, time < observed := by
      intro time htime
      obtain ⟨last, hmem, hbound⟩ := hlast time htime
      exact hbound.trans_lt (hlater last hmem)
    refine ⟨by simp only [List.length_append, List.length_singleton]; omega, ?_, ?_⟩
    · exact List.pairwise_append.mpr ⟨hincreasing, List.pairwise_singleton _ _, by simpa⟩
    · intro time htime
      refine ⟨observed, hnew, ?_⟩
      rcases List.mem_append.mp htime with hold | hnow
      · exact (hbefore time hold).le
      · exact (List.mem_singleton.mp hnow).le

/-- The successes since the last reset are counted in every run. -/
theorem observeAll_counted (observations : List Observation) :
    Counted (observeAll {} observations) (recentSuccesses observations) := by
  induction observations using List.reverseRecOn with
  | nil => exact ⟨Nat.zero_le _, List.Pairwise.nil, nofun⟩
  | append_singleton observations o ih =>
    rw [recentSuccesses_snoc, observeAll_snoc]
    exact ih.observe o

/-- A fault halts: a call keeps the stage HALTED as long as a predicate is faulty. -/
theorem halted_of_reasonActive (observations : List Observation) {reason : HealthReason}
    (hactive : reasonActive (observeAll {} observations) reason = true) :
    (observeAll {} observations).stage = .halted := by
  induction observations using List.reverseRecOn generalizing reason with
  | nil => cases reason <;> cases hactive
  | append_singleton observations o ih =>
    rw [observeAll_snoc] at hactive ⊢
    rcases observe_cases (observeAll {} observations) o with
      hsame | ⟨-, -, hnone, -, hreasons⟩ | ⟨t, hmoved, -⟩
    · rw [hsame] at hactive ⊢
      exact ih hactive
    · rw [hreasons, deriveReasons_eq_nil.mp hnone reason] at hactive
      cases hactive
    · rw [hmoved, reasonActive_finishObservation] at hactive
      rw [hmoved, finishObservation_stage, if_pos (deriveReasons_ne_nil reason hactive)]

/-- A HALTED stage is left for REDUCED only, without faults and with three successes. -/
theorem stage_of_halted {s : HealthSnapshot} {o : Observation} (hhalted : s.stage = .halted) :
    (observe s o).stage = .halted ∨ (observe s o).stage = .reduced ∧
      (∀ reason, reasonActive (observe s o) reason = false) ∧ 3 ≤ (observe s o).apiSuccesses := by
  rcases observe_cases s o with hsame | ⟨-, hreduced, -⟩ | ⟨t, hmoved, hstage⟩
  · exact Or.inl (by rwa [hsame])
  · simp [hhalted] at hreduced
  · rw [hmoved, finishObservation_stage]
    by_cases hnone : deriveReasons t = []
    · by_cases hthree : apiSuccessesRequired ≤ t.apiSuccesses
      · refine Or.inr ⟨by simp [hnone, hstage, hhalted, hthree], fun reason => ?_, hthree⟩
        rw [reasonActive_finishObservation]
        exact deriveReasons_eq_nil.mp hnone reason
      · exact Or.inl (by simp [hnone, hstage, hhalted, hthree])
    · exact Or.inl (if_pos hnone)

/-- A REDUCED stage becomes NORMAL only at the end of a recovery cycle without faults. -/
theorem recoveryCycleSuccess_of_normal {s : HealthSnapshot} {o : Observation}
    (hreduced : s.stage = .reduced) (hnormal : (observe s o).stage = .normal) :
    (∃ observed, o = .recoveryCycleSuccess observed) ∧
      ∀ reason, reasonActive s reason = false := by
  rcases observe_cases s o with hsame | ⟨hcycle, -, hnone, -⟩ | ⟨t, hmoved, hstage⟩
  · simp [hsame, hreduced] at hnormal
  · exact ⟨hcycle, deriveReasons_eq_nil.mp hnone⟩
  · rw [hmoved, finishObservation_stage, hstage, hreduced] at hnormal
    split_ifs at hnormal

/-- The recovery law over every run of a fresh monitor: a fault halts; HALTED is left for
REDUCED only without faults and after three strictly later and later API successes since
the last reset; REDUCED becomes NORMAL only at the end of a recovery cycle without faults;
and HALTED never becomes NORMAL in one step. -/
theorem recovery_safety (observations : List Observation) (o : Observation) :
    (∀ reason, reasonActive (observeAll {} observations) reason = true →
      (observeAll {} observations).stage = .halted) ∧
    ((observeAll {} observations).stage = .halted →
      (observeAll {} (observations ++ [o])).stage = .reduced →
      (∀ reason, reasonActive (observeAll {} (observations ++ [o])) reason = false) ∧
        3 ≤ (recentSuccesses (observations ++ [o])).length ∧
        (recentSuccesses (observations ++ [o])).Pairwise (· < ·)) ∧
    ((observeAll {} observations).stage = .reduced →
      (observeAll {} (observations ++ [o])).stage = .normal →
      (∃ observed, o = .recoveryCycleSuccess observed) ∧
        ∀ reason, reasonActive (observeAll {} observations) reason = false) ∧
    ((observeAll {} observations).stage = .halted →
      (observeAll {} (observations ++ [o])).stage ≠ .normal) := by
  have hcounted := observeAll_counted (observations ++ [o])
  have hsnoc := observeAll_snoc {} observations o
  refine ⟨fun _ => halted_of_reasonActive observations, fun hhalted hleft => ?_,
    fun hreduced hnormal => ?_, fun hhalted hnormal => ?_⟩
  · rw [hsnoc] at hleft hcounted ⊢
    rcases stage_of_halted (o := o) hhalted with hstill | ⟨-, hhealthy, hthree⟩
    · simp [hstill] at hleft
    · exact ⟨hhealthy, hthree.trans hcounted.counter_le, hcounted.increasing⟩
  · rw [hsnoc] at hnormal
    exact recoveryCycleSuccess_of_normal hreduced hnormal
  · rw [hsnoc] at hnormal
    rcases stage_of_halted (o := o) hhalted with hstill | ⟨hleft, -⟩
    · simp [hstill] at hnormal
    · simp [hleft] at hnormal

end AutoBit.Health
