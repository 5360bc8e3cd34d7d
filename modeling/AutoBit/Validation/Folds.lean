import AutoBit.Validation.Splits

/-!
# The rolling folds

The boundaries of the test windows are the months after the first one, and every train
window is found backward from its own. Moving a date back does not always undo moving it
forward, so the first boundary is the earliest from which the lookback fits; that it fits
from all later ones, and that no window lacks candles, follows from the calendar.
-/

namespace AutoBit.Validation

open Library
open Data (frequency Representable FrameIndex validatedUtcIndex)

section Shifts

variable (n : ℤ) (t : ℤ)

/-- A shift by months moves the day. -/
theorem shiftMonths_day : shiftMonths n t / dayLength = addMonths n (t / dayLength) := by
  unfold shiftMonths dayLength
  omega

/-- A shift by months keeps the time of the day. -/
theorem shiftMonths_time : shiftMonths n t % dayLength = t % dayLength := by
  unfold shiftMonths dayLength
  omega

/-- A shift by no months moves nothing. -/
theorem shiftMonths_zero : shiftMonths 0 t = t := by
  rw [shiftMonths, addMonths_zero]
  unfold dayLength
  omega

variable {n t}

/-- A move by months stays on the grid. -/
theorem shiftMonths_aligned (h : t % frequency = 0) : shiftMonths n t % frequency = 0 := by
  unfold shiftMonths dayLength
  unfold frequency at *
  omega

/-- A move by months keeps the order of instants at one time of the day. -/
theorem shiftMonths_mono {later : ℤ} (hle : t ≤ later) (htime : t % dayLength = later % dayLength) :
    shiftMonths n t ≤ shiftMonths n later := by
  have hdays : t / dayLength ≤ later / dayLength := Int.ediv_le_ediv (by decide) hle
  have hmoved := addMonths_mono n hdays
  unfold shiftMonths
  rw [htime]
  unfold dayLength at *
  omega

/-- A move by more months leads at least one day further. -/
theorem shiftMonths_lt {m : ℤ} (h : n < m) : shiftMonths n t + dayLength ≤ shiftMonths m t := by
  have hdays := addMonths_lt h (t / dayLength)
  unfold shiftMonths dayLength at *
  omega

/-- One day after a move, moving back is no longer too early. -/
theorem le_shiftMonths_back : t ≤ shiftMonths (-n) (shiftMonths n t + dayLength) := by
  have hday : (shiftMonths n t + dayLength) / dayLength = addMonths n (t / dayLength) + 1 := by
    rw [← shiftMonths_day]
    unfold dayLength
    omega
  have htime : (shiftMonths n t + dayLength) % dayLength = t % dayLength := by
    rw [← shiftMonths_time n t]
    unfold dayLength
    omega
  have hback := le_addMonths_back_succ n (t / dayLength)
  rw [shiftMonths, hday, htime]
  unfold dayLength at *
  omega

/-- Moving back leads at most a month before the start. -/
theorem month_before_le_shiftMonths_back {later : ℤ} (hle : shiftMonths n t ≤ later) :
    t - 31 * dayLength ≤ shiftMonths (-n) later := by
  have hdays : addMonths n (t / dayLength) ≤ later / dayLength := by
    rw [← shiftMonths_day]
    exact Int.ediv_le_ediv (by decide) hle
  have hback := addMonths_mono (-n) hdays
  have hmonth := addMonths_back n (t / dayLength)
  have hstart := start_add_dayOf (t / dayLength)
  have hlow := dayOf_nonneg (t / dayLength)
  have hshort := dayOf_le (t / dayLength)
  have hlength := monthLength_pos (monthOf (t / dayLength) + n)
  unfold shiftMonths
  unfold dayLength at *
  omega

end Shifts

/-- The earliest end on the grid, not before the coverage start and the train years, from
which the lookback lies in the coverage. -/
structure IsFirstTrainEnd (config : WalkForwardConfig) (coverageStart trainEnd : ℤ) : Prop where
  aligned : trainEnd % frequency = 0
  after : shiftMonths (12 * config.trainYears) coverageStart ≤ trainEnd
  lookback : coverageStart ≤ shiftMonths (12 * -config.trainYears) trainEnd
  earliest : ∀ other, other % frequency = 0 →
    shiftMonths (12 * config.trainYears) coverageStart ≤ other →
    coverageStart ≤ shiftMonths (12 * -config.trainYears) other → trainEnd ≤ other

section FirstTrainEnd

variable {config : WalkForwardConfig} {coverageStart : ℤ}

/-- There is such an end, within a day. -/
theorem exists_first_train_end (config : WalkForwardConfig)
    (haligned : coverageStart % frequency = 0) :
    ∃ trainEnd, IsFirstTrainEnd config coverageStart trainEnd ∧
      trainEnd ≤ shiftMonths (12 * config.trainYears) coverageStart + dayLength := by
  set anchor := shiftMonths (12 * config.trainYears) coverageStart with hanchor
  have hgrid : anchor % frequency = 0 := shiftMonths_aligned haligned
  have hday : coverageStart ≤ shiftMonths (12 * -config.trainYears) (anchor + (6 : ℕ) * frequency) := by
    have hback := le_shiftMonths_back (n := 12 * config.trainYears) (t := coverageStart)
    have hneg : -(12 * (config.trainYears : ℤ)) = 12 * -config.trainYears := by omega
    rwa [hneg, ← hanchor] at hback
  have hexists : ∃ rounds : ℕ, coverageStart ≤
      shiftMonths (12 * -config.trainYears) (anchor + rounds * frequency) := ⟨6, hday⟩
  obtain ⟨least, hleast, hmin⟩ : ∃ least : ℕ,
      coverageStart ≤ shiftMonths (12 * -config.trainYears) (anchor + least * frequency) ∧
      ∀ rounds : ℕ, coverageStart ≤
        shiftMonths (12 * -config.trainYears) (anchor + rounds * frequency) → least ≤ rounds :=
    ⟨Nat.find hexists, Nat.find_spec hexists, fun _ h => Nat.find_min' hexists h⟩
  have hbound := hmin 6 hday
  refine ⟨anchor + least * frequency, ⟨?_, ?_, hleast, ?_⟩, ?_⟩
  · unfold frequency at *
    omega
  · unfold frequency
    omega
  · intro other hother hafter hlookback
    obtain ⟨rounds, hrounds⟩ : ∃ rounds : ℕ, other = anchor + rounds * frequency := by
      refine ⟨((other - anchor) / frequency).toNat, ?_⟩
      unfold frequency at *
      omega
    rw [hrounds] at hlookback
    have hle := hmin rounds hlookback
    unfold frequency at *
    omega
  · unfold dayLength frequency
    omega

/-- What asking for a timestamp gives. -/
theorem timestamp_eq_ok {t u : ℤ} : timestamp t = .ok u ↔ Representable t ∧ t = u := by
  simp [timestamp]

/-- An instant is refused exactly when it cannot be held. -/
theorem timestamp_eq_error {t : ℤ} {e : Failure} :
    timestamp t = .error e ↔ ¬Representable t ∧ e = outOfBounds := by
  simp only [timestamp, Except.bind_eq_error, reject_eq_error, reject_eq_ok]
  constructor
  · rintro (⟨hout, rfl⟩ | ⟨_, _, hpure⟩)
    · exact ⟨hout, rfl⟩
    · cases hpure
  · rintro ⟨hout, rfl⟩
    exact .inl ⟨hout, rfl⟩

/-- An instant that can be held is a timestamp. -/
theorem timestamp_of_held {t : ℤ} (h : Representable t) : timestamp t = .ok t :=
  timestamp_eq_ok.mpr ⟨h, rfl⟩

/-- An instant that cannot be held is out of bounds. -/
theorem timestamp_of_unheld {t : ℤ} (h : ¬Representable t) : timestamp t = .error outOfBounds :=
  timestamp_eq_error.mpr ⟨h, rfl⟩

/-- The loop ends with the first train end, unless an instant before it cannot be held. -/
theorem firstCompleteTrainEnd_ends {trainEnd : ℤ} (haligned : coverageStart % frequency = 0)
    (hfirst : IsFirstTrainEnd config coverageStart trainEnd)
    (hnear : trainEnd ≤ shiftMonths (12 * config.trainYears) coverageStart + dayLength)
    {fuel : ℕ} (hfuel : 6 < fuel) :
    Ends (firstCompleteTrainEnd fuel coverageStart config) fun outcome =>
      outcome = .ok trainEnd ∨ outcome = .error outOfBounds ∧
        ∃ t, coverageStart - 31 * dayLength ≤ t ∧ t ≤ trainEnd ∧ ¬Representable t := by
  set anchor := shiftMonths (12 * config.trainYears) coverageStart with hanchor
  have hgrid : anchor % frequency = 0 := shiftMonths_aligned haligned
  have hafter : coverageStart + dayLength ≤ anchor := by
    have hlt := shiftMonths_lt (t := coverageStart) (n := 0) (m := 12 * config.trainYears)
      (by have := config.trainYears_pos; omega)
    rwa [shiftMonths_zero] at hlt
  have hstart := hfirst.after
  have hback : ∀ end_, shiftMonths (12 * -config.trainYears) end_ ≤ end_ := by
    intro end_
    have hlt := shiftMonths_lt (t := end_) (n := 12 * -config.trainYears) (m := 0)
      (by have := config.trainYears_pos; omega)
    rw [shiftMonths_zero] at hlt
    unfold dayLength at hlt
    omega
  have hmonth : ∀ {end_}, anchor ≤ end_ →
      coverageStart - 31 * dayLength ≤ shiftMonths (12 * -config.trainYears) end_ := by
    intro end_ hlow
    have hneg : -(12 * (config.trainYears : ℤ)) = 12 * -config.trainYears := by omega
    rw [← hneg]
    exact month_before_le_shiftMonths_back hlow
  -- while the lookback does not fit, the first train end is still ahead
  have hnotYet : ∀ {end_}, end_ % frequency = 0 → end_ ≤ trainEnd →
      shiftMonths (12 * -config.trainYears) end_ < coverageStart → end_ + frequency ≤ trainEnd := by
    intro end_ hend hhigh hearly
    have hne : end_ ≠ trainEnd := by
      rintro rfl
      exact absurd hfirst.lookback (not_le.mpr hearly)
    have haligned' := hfirst.aligned
    unfold frequency at *
    omega
  unfold firstCompleteTrainEnd
  have hanchorEnds : Ends (liftM (offsetYears config.trainYears coverageStart) :
      ExceptT Failure Option ℤ) (· = offsetYears config.trainYears coverageStart) := Ends.lift rfl
  refine hanchorEnds.bind ?_ ?_
  · intro begin hbegin
    obtain ⟨_, rfl⟩ := timestamp_eq_ok.mp hbegin.symm
    refine Ends.whileTrue
      (fun end_ => end_ % frequency = 0 ∧ anchor ≤ end_ ∧ end_ ≤ trainEnd)
      (fun end_ => ((trainEnd - end_) / frequency).toNat) ?_ ?_ ?_ ⟨hgrid, le_rfl, hstart⟩ ?_
    · rintro end_ e ⟨hend, hlow, hhigh⟩ hround
      refine .inr ?_
      rcases Except.bind_eq_error.mp hround with hlookback | ⟨lookback, hlookback, hrest⟩
      · obtain ⟨hout, rfl⟩ := timestamp_eq_error.mp hlookback
        exact ⟨rfl, _, hmonth hlow, (hback end_).trans hhigh, hout⟩
      · obtain ⟨_, rfl⟩ := timestamp_eq_ok.mp hlookback
        split at hrest
        · next hearly =>
          rcases Except.bind_eq_error.mp hrest with hnext | ⟨_, _, hpure⟩
          · obtain ⟨hout, rfl⟩ := timestamp_eq_error.mp hnext
            have hbefore := hnotYet hend hhigh hearly
            refine ⟨rfl, _, ?_, hbefore, hout⟩
            unfold dayLength frequency at *
            omega
          · cases hpure
        · cases hrest
    · rintro end_ result ⟨hend, hlow, hhigh⟩ hround
      refine .inl ?_
      obtain ⟨lookback, hlookback, hrest⟩ := Except.bind_eq_ok.mp hround
      obtain ⟨_, rfl⟩ := timestamp_eq_ok.mp hlookback
      split at hrest
      · obtain ⟨_, _, hpure⟩ := Except.bind_eq_ok.mp hrest
        cases hpure
      · next hfull =>
        cases hrest
        have hle := hfirst.earliest end_ hend hlow (not_lt.mp hfull)
        rw [le_antisymm hle hhigh]
    · rintro end_ next ⟨hend, hlow, hhigh⟩ hround
      obtain ⟨lookback, hlookback, hrest⟩ := Except.bind_eq_ok.mp hround
      obtain ⟨_, rfl⟩ := timestamp_eq_ok.mp hlookback
      split at hrest
      · next hearly =>
        obtain ⟨_, hnext, hpure⟩ := Except.bind_eq_ok.mp hrest
        obtain ⟨_, rfl⟩ := timestamp_eq_ok.mp hnext
        cases hpure
        have hbefore := hnotYet hend hhigh hearly
        unfold frequency at *
        omega
      · cases hrest
    · unfold dayLength frequency at *
      omega
  · intro e herror
    obtain ⟨hout, rfl⟩ := timestamp_eq_error.mp herror.symm
    refine .inr ⟨rfl, anchor, ?_, hstart, hout⟩
    unfold dayLength at *
    omega

end FirstTrainEnd

section Windows

/-- The first test start, moved by a number of steps. -/
def testBoundary (config : WalkForwardConfig) (firstTestStart : ℤ) (ordinal : ℕ) : ℤ :=
  shiftMonths (ordinal * config.stepMonths) firstTestStart

/-- A fold that is right for its number: calendar durations, an embargo of whole days, windows
inside the coverage, and all candles of the windows in its indexes. -/
structure FoldWindow.Correct (config : WalkForwardConfig) (timestamps : List ℤ)
    (coverageStart coverageEnd firstTestStart : ℤ) (number : ℕ) (fold : FoldWindow) : Prop where
  foldId : fold.foldId = Validation.foldId number
  testStart : fold.testStart = testBoundary config firstTestStart number
  testEnd : fold.testEnd = testBoundary config firstTestStart (number + 1)
  trainEnd : fold.trainEnd = fold.testStart - config.embargoDays * dayLength
  trainStart : fold.trainStart = shiftMonths (12 * -config.trainYears) fold.trainEnd
  ordered : fold.trainStart < fold.trainEnd ∧ fold.trainEnd < fold.testStart ∧
    fold.testStart < fold.testEnd
  covered : coverageStart ≤ fold.trainStart ∧ fold.testEnd ≤ coverageEnd
  trainIndex : fold.trainIndex = timestamps.filter fun t => fold.trainStart ≤ t ∧ t < fold.trainEnd
  testIndex : fold.testIndex = timestamps.filter fun t => fold.testStart ≤ t ∧ t < fold.testEnd
  nonempty : fold.trainIndex ≠ [] ∧ fold.testIndex ≠ []
  complete : ∀ t, t % frequency = 0 →
    (fold.trainStart ≤ t → t < fold.trainEnd → t ∈ fold.trainIndex) ∧
      (fold.testStart ≤ t → t < fold.testEnd → t ∈ fold.testIndex)

/-- The complete list of folds: each is right, adjacent test windows meet, test windows have
no candle in common, and one more fold would exceed the coverage. -/
structure Schedule (config : WalkForwardConfig) (timestamps : List ℤ)
    (coverageStart coverageEnd firstTestStart : ℤ) (folds : List FoldWindow) : Prop where
  correct : ∀ (number : ℕ) (fold : FoldWindow), folds[number]? = some fold →
    fold.Correct config timestamps coverageStart coverageEnd firstTestStart number
  consecutive : ∀ number fold next, folds[number]? = some fold → folds[number + 1]? = some next →
    next.testStart = fold.testEnd
  disjoint : folds.Pairwise fun fold later => ∀ t ∈ fold.testIndex, t ∉ later.testIndex
  maximal : coverageEnd < testBoundary config firstTestStart (folds.length + 1)

/-- An instant that pandas cannot hold, from a month before the coverage to the first test
boundary after it. -/
def Unheld (config : WalkForwardConfig) (coverageStart coverageEnd firstTestStart : ℤ) : Prop :=
  ∃ t ordinal, ¬Representable t ∧ coverageStart - 31 * dayLength ≤ t ∧
    t ≤ max coverageEnd (testBoundary config firstTestStart (ordinal + 1)) ∧
    (ordinal = 0 ∨ testBoundary config firstTestStart ordinal ≤ coverageEnd)

variable {config : WalkForwardConfig} {coverageStart coverageEnd firstTestStart : ℤ}
  {timestamps : List ℤ}

/-- The first test begins at its start. -/
theorem testBoundary_zero : testBoundary config firstTestStart 0 = firstTestStart := by
  simp [testBoundary, shiftMonths_zero]

/-- A later test begins at least a day later. -/
theorem testBoundary_lt (config : WalkForwardConfig) (firstTestStart : ℤ) {m n : ℕ} (h : m < n) :
    testBoundary config firstTestStart m + dayLength ≤ testBoundary config firstTestStart n := by
  refine shiftMonths_lt ?_
  have hstep : (0 : ℤ) < config.stepMonths := by exact_mod_cast config.stepMonths_pos
  exact mul_lt_mul_of_pos_right (by exact_mod_cast h) hstep

/-- The tests begin in order. -/
theorem testBoundary_mono {m n : ℕ} (h : m ≤ n) :
    testBoundary config firstTestStart m ≤ testBoundary config firstTestStart n := by
  rcases h.eq_or_lt with rfl | hlt
  · exact le_rfl
  · have hle := testBoundary_lt config firstTestStart hlt
    unfold dayLength at hle
    omega

/-- Contiguous candles are all that lie on the grid between them. -/
theorem mem_of_contiguous {first t : ℤ} {rest : List ℤ}
    (hspacing : (first :: rest).IsChain fun a b => b - a = frequency)
    (hfirst : first % frequency = 0) (ht : t % frequency = 0) (hle : first ≤ t)
    (hlt : t < rest.getLastD first + frequency) : t ∈ first :: rest := by
  induction rest generalizing first with
  | nil =>
    simp only [List.getLastD_nil] at hlt
    have : t = first := by
      unfold frequency at *
      omega
    simp [this]
  | cons next rest ih =>
    obtain ⟨hstep, htail⟩ := List.isChain_cons_cons.mp hspacing
    rcases hle.eq_or_lt with rfl | hafter
    · simp
    · refine List.mem_cons_of_mem _ (ih htail ?_ ?_ (by rwa [List.getLastD_cons] at hlt))
      · unfold frequency at *
        omega
      · unfold frequency at *
        omega

/-- The fold of a number. -/
def foldAt (config : WalkForwardConfig) (timestamps : List ℤ) (firstTestStart : ℤ) (number : ℕ) :
    FoldWindow :=
  let testStart := testBoundary config firstTestStart number
  let testEnd := testBoundary config firstTestStart (number + 1)
  let trainEnd := testStart - config.embargoDays * dayLength
  let trainStart := shiftMonths (12 * -config.trainYears) trainEnd
  { foldId := foldId number, trainStart, trainEnd, testStart, testEnd,
    trainIndex := ownedIntervalCopy timestamps trainStart trainEnd,
    testIndex := ownedIntervalCopy timestamps testStart testEnd }

/-- What the index and its coverage are to the folds. -/
structure Coverage (config : WalkForwardConfig) (timestamps : List ℤ)
    (coverageStart coverageEnd firstTestStart : ℤ) : Prop where
  grid : ∀ t, t % frequency = 0 → coverageStart ≤ t → t < coverageEnd → t ∈ timestamps
  trainEnd : IsFirstTrainEnd config coverageStart (firstTestStart - config.embargoDays * dayLength)

/-- The boundaries of a fold are in order. -/
theorem foldAt_ordered (number : ℕ) :
    (foldAt config timestamps firstTestStart number).trainStart <
        (foldAt config timestamps firstTestStart number).trainEnd ∧
      (foldAt config timestamps firstTestStart number).trainEnd <
        (foldAt config timestamps firstTestStart number).testStart ∧
      (foldAt config timestamps firstTestStart number).testStart <
        (foldAt config timestamps firstTestStart number).testEnd := by
  have hyears := config.trainYears_pos
  have hdays := config.embargoDays_pos
  have hback := shiftMonths_lt (n := 12 * -config.trainYears) (m := 0)
    (t := (foldAt config timestamps firstTestStart number).trainEnd) (by omega)
  rw [shiftMonths_zero] at hback
  have hnext := testBoundary_lt config firstTestStart
    (Nat.lt_add_one number)
  simp only [foldAt] at hback ⊢
  unfold dayLength at *
  omega

/-- The instants that a round asks for lie between the coverage and the next boundary. -/
theorem unheld_of_round {number : ℕ} {t : ℤ} (hout : ¬Representable t)
    (hinside : number = 0 ∨ testBoundary config firstTestStart number ≤ coverageEnd)
    (hlow : coverageStart ≤ t) (hhigh : t ≤ testBoundary config firstTestStart (number + 1)) :
    Unheld config coverageStart coverageEnd firstTestStart := by
  refine ⟨t, number, hout, ?_, hhigh.trans (le_max_right _ _), hinside⟩
  unfold dayLength
  omega

variable (h : Coverage config timestamps coverageStart coverageEnd firstTestStart)
include h

/-- The first test starts at a boundary. -/
theorem firstTestStart_aligned : firstTestStart % frequency = 0 := by
  have haligned := h.trainEnd.aligned
  unfold dayLength frequency at *
  omega

/-- The lookback of every fold lies in the coverage, as that of the first does. -/
theorem trainStart_covered (number : ℕ) :
    coverageStart ≤ (foldAt config timestamps firstTestStart number).trainStart := by
  have hlater : firstTestStart ≤ testBoundary config firstTestStart number := by
    calc firstTestStart = testBoundary config firstTestStart 0 := testBoundary_zero.symm
      _ ≤ testBoundary config firstTestStart number := testBoundary_mono (Nat.zero_le _)
  have htime : testBoundary config firstTestStart number % dayLength = firstTestStart % dayLength :=
    shiftMonths_time _ _
  refine h.trainEnd.lookback.trans (shiftMonths_mono ?_ ?_)
  · omega
  · unfold dayLength at *
    omega

/-- The candles of a fold that ends in the coverage are all there. -/
theorem foldAt_complete {number : ℕ}
    (hend : testBoundary config firstTestStart (number + 1) ≤ coverageEnd) {t : ℤ}
    (ht : t % frequency = 0) :
    ((foldAt config timestamps firstTestStart number).trainStart ≤ t →
        t < (foldAt config timestamps firstTestStart number).trainEnd →
        t ∈ (foldAt config timestamps firstTestStart number).trainIndex) ∧
      ((foldAt config timestamps firstTestStart number).testStart ≤ t →
        t < (foldAt config timestamps firstTestStart number).testEnd →
        t ∈ (foldAt config timestamps firstTestStart number).testIndex) := by
  have hstart := trainStart_covered h number
  obtain ⟨htrain, hembargo, htest⟩ := @foldAt_ordered config firstTestStart timestamps number
  have hlast : (foldAt config timestamps firstTestStart number).testEnd ≤ coverageEnd := hend
  constructor
  · intro hlow hhigh
    have hmem := h.grid t ht (by omega) (by omega)
    exact List.mem_filter.mpr ⟨hmem, decide_eq_true ⟨hlow, hhigh⟩⟩
  · intro hlow hhigh
    have hmem := h.grid t ht (by omega) (by omega)
    exact List.mem_filter.mpr ⟨hmem, decide_eq_true ⟨hlow, hhigh⟩⟩

/-- A fold that ends in the coverage is right. -/
theorem foldAt_correct {number : ℕ}
    (hend : testBoundary config firstTestStart (number + 1) ≤ coverageEnd) :
    (foldAt config timestamps firstTestStart number).Correct config timestamps coverageStart
      coverageEnd firstTestStart number := by
  have hordered := @foldAt_ordered config firstTestStart timestamps number
  have hgrid := firstTestStart_aligned h
  have htest : (foldAt config timestamps firstTestStart number).testStart % frequency = 0 :=
    shiftMonths_aligned hgrid
  have htrainEnd : (testBoundary config firstTestStart number -
      config.embargoDays * dayLength) % frequency = 0 := by
    have htest' : testBoundary config firstTestStart number % frequency = 0 := htest
    unfold dayLength frequency at *
    omega
  have htrain : (foldAt config timestamps firstTestStart number).trainStart % frequency = 0 :=
    shiftMonths_aligned htrainEnd
  refine ⟨rfl, rfl, rfl, rfl, rfl, hordered, ⟨trainStart_covered h number, hend⟩, rfl, rfl,
    ⟨?_, ?_⟩, fun t ht => foldAt_complete h hend ht⟩
  · exact List.ne_nil_of_mem ((foldAt_complete h hend htrain).1 le_rfl hordered.1)
  · exact List.ne_nil_of_mem ((foldAt_complete h hend htest).2 le_rfl hordered.2.2)

/-- What the loop over the folds has found after a number of rounds. -/
structure Found (config : WalkForwardConfig) (timestamps : List ℤ)
    (coverageEnd firstTestStart : ℤ) (state : RollingState) : Prop where
  testStart : state.testStart = testBoundary config firstTestStart state.foldNumber
  folds : state.folds = (List.range state.foldNumber).map (foldAt config timestamps firstTestStart)
  inside : state.foldNumber = 0 ∨
    testBoundary config firstTestStart state.foldNumber ≤ coverageEnd

/-- A round raises for an instant that pandas cannot hold, breaks when one more fold would
exceed the coverage, and otherwise adds that fold. -/
theorem rollingRound_cases {state : RollingState}
    (hfound : Found config timestamps coverageEnd firstTestStart state) :
    (∃ e, rollingRound timestamps coverageEnd firstTestStart config state = .error e ∧
        e = outOfBounds ∧ Unheld config coverageStart coverageEnd firstTestStart) ∨
      (rollingRound timestamps coverageEnd firstTestStart config state = .ok (.inr state.folds) ∧
        coverageEnd < testBoundary config firstTestStart (state.foldNumber + 1)) ∨
      ∃ next, rollingRound timestamps coverageEnd firstTestStart config state = .ok (.inl next) ∧
        next.foldNumber = state.foldNumber + 1 ∧
        Found config timestamps coverageEnd firstTestStart next := by
  obtain ⟨testStart, number, folds⟩ := state
  obtain ⟨htestStart, hfolds, hinside⟩ := hfound
  dsimp only at htestStart hfolds hinside ⊢
  obtain ⟨hback, hembargo, htest⟩ := @foldAt_ordered config firstTestStart timestamps number
  have hcovered := trainStart_covered h number
  set fold := foldAt config timestamps firstTestStart number with hfold
  have htrainEnd : offsetDays (-config.embargoDays) testStart = timestamp fold.trainEnd := by
    rw [offsetDays, htestStart, neg_mul, ← sub_eq_add_neg]
    rfl
  have htrainStart : offsetYears (-config.trainYears) fold.trainEnd = timestamp fold.trainStart := rfl
  have htestEnd : quarterBoundary firstTestStart (number + 1) config = timestamp fold.testEnd := rfl
  have hboundary : fold.testEnd = testBoundary config firstTestStart (number + 1) := rfl
  by_cases hheldEnd : Representable fold.trainEnd
  · by_cases hheldStart : Representable fold.trainStart
    · by_cases hheldTest : Representable fold.testEnd
      · have hround : rollingRound timestamps coverageEnd firstTestStart config
            ⟨testStart, number, folds⟩ =
            if coverageEnd < fold.testEnd then .ok (.inr folds)
            else if fold.trainIndex = [] ∨ fold.testIndex = [] then .ok (.inr folds)
            else .ok (.inl ⟨fold.testEnd, number + 1, folds ++ [fold]⟩) := by
          rw [rollingRound, htrainEnd, timestamp_of_held hheldEnd]
          change (offsetYears _ fold.trainEnd >>= _) = _
          rw [htrainStart, timestamp_of_held hheldStart]
          change (quarterBoundary _ (number + 1) _ >>= _) = _
          rw [htestEnd, timestamp_of_held hheldTest, htestStart]
          rfl
        rw [hround]
        by_cases hbeyond : coverageEnd < fold.testEnd
        · rw [if_pos hbeyond]
          exact .inr (.inl ⟨rfl, hbeyond⟩)
        · have hend : testBoundary config firstTestStart (number + 1) ≤ coverageEnd :=
            not_lt.mp hbeyond
          obtain ⟨htrain, htestIndex⟩ := (foldAt_correct h hend).nonempty
          rw [if_neg hbeyond, if_neg (not_or.mpr ⟨htrain, htestIndex⟩)]
          refine .inr (.inr ⟨_, rfl, rfl, hboundary, ?_, .inr hend⟩)
          rw [hfolds, List.range_succ, List.map_append]
          rfl
      · refine .inl ⟨outOfBounds, ?_, rfl,
          unheld_of_round hheldTest hinside (by omega) hboundary.le⟩
        rw [rollingRound, htrainEnd, timestamp_of_held hheldEnd]
        change (offsetYears _ fold.trainEnd >>= _) = _
        rw [htrainStart, timestamp_of_held hheldStart]
        change (quarterBoundary _ (number + 1) _ >>= _) = _
        rw [htestEnd, timestamp_of_unheld hheldTest]
        rfl
    · refine .inl ⟨outOfBounds, ?_, rfl, unheld_of_round hheldStart hinside hcovered (by omega)⟩
      rw [rollingRound, htrainEnd, timestamp_of_held hheldEnd]
      change (offsetYears _ fold.trainEnd >>= _) = _
      rw [htrainStart, timestamp_of_unheld hheldStart]
      rfl
  · refine .inl ⟨outOfBounds, ?_, rfl, unheld_of_round hheldEnd hinside (by omega) (by omega)⟩
    rw [rollingRound, htrainEnd, timestamp_of_unheld hheldEnd]
    rfl

/-- What is found when one more fold would exceed the coverage is the complete list. -/
theorem Found.schedule {state : RollingState}
    (hfound : Found config timestamps coverageEnd firstTestStart state)
    (hbeyond : coverageEnd < testBoundary config firstTestStart (state.foldNumber + 1)) :
    Schedule config timestamps coverageStart coverageEnd firstTestStart state.folds := by
  have hget : ∀ (number : ℕ) (fold : FoldWindow), state.folds[number]? = some fold →
      number < state.foldNumber ∧ fold = foldAt config timestamps firstTestStart number := by
    intro number fold hfold
    rw [hfound.folds, List.getElem?_map, Option.map_eq_some_iff] at hfold
    obtain ⟨rank, hrank, rfl⟩ := hfold
    obtain ⟨hlt, hvalue⟩ := List.getElem?_eq_some_iff.mp hrank
    rw [List.length_range] at hlt
    rw [List.getElem_range] at hvalue
    exact ⟨hlt, by rw [hvalue]⟩
  refine ⟨?_, ?_, ?_, ?_⟩
  · intro number fold hfold
    obtain ⟨hlt, rfl⟩ := hget number fold hfold
    refine foldAt_correct h ?_
    rcases hfound.inside with hzero | hinside
    · omega
    · exact (testBoundary_mono (by omega)).trans hinside
  · intro number fold next hfold hnext
    obtain ⟨_, rfl⟩ := hget number fold hfold
    obtain ⟨_, rfl⟩ := hget (number + 1) next hnext
    rfl
  · rw [hfound.folds, List.pairwise_map]
    refine List.pairwise_lt_range.imp ?_
    intro number later hlt t ht hlater
    obtain ⟨_, hinterval⟩ := List.mem_filter.mp ht
    obtain ⟨_, hnext⟩ := List.mem_filter.mp hlater
    simp only [decide_eq_true_eq] at hinterval hnext
    have hle : testBoundary config firstTestStart (number + 1) ≤
        testBoundary config firstTestStart later := testBoundary_mono hlt
    omega
  · rw [hfound.folds, List.length_map, List.length_range]
    exact hbeyond

/-- The loop over the folds ends with the complete list, unless pandas cannot hold an instant
that it asks for. -/
theorem rolling_ends {fuel : ℕ} (hfuel : (coverageEnd - firstTestStart).toNat < fuel) :
    Ends (whileTrue (rollingRound timestamps coverageEnd firstTestStart config) fuel
      ⟨firstTestStart, 0, []⟩) fun outcome =>
      (∃ folds, outcome = .ok folds ∧
        Schedule config timestamps coverageStart coverageEnd firstTestStart folds) ∨
      outcome = .error outOfBounds ∧ Unheld config coverageStart coverageEnd firstTestStart := by
  refine Ends.whileTrue (Found config timestamps coverageEnd firstTestStart)
    (fun state => (coverageEnd - state.testStart).toNat) ?_ ?_ ?_
    ⟨testBoundary_zero.symm, rfl, .inl rfl⟩ hfuel
  · intro state e hfound hround
    rcases rollingRound_cases h hfound with ⟨_, herror, rfl, hunheld⟩ | ⟨hok, _⟩ | ⟨_, hok, _⟩
    · cases herror.symm.trans hround
      exact .inr ⟨rfl, hunheld⟩
    · cases hok.symm.trans hround
    · cases hok.symm.trans hround
  · intro state folds hfound hround
    rcases rollingRound_cases h hfound with ⟨_, herror, _⟩ | ⟨hok, hbeyond⟩ | ⟨_, hok, _⟩
    · cases herror.symm.trans hround
    · cases hok.symm.trans hround
      exact .inl ⟨_, rfl, hfound.schedule h hbeyond⟩
    · cases hok.symm.trans hround
  · intro state next hfound hround
    rcases rollingRound_cases h hfound with ⟨_, herror, _⟩ | ⟨hok, _⟩ | ⟨_, hok, hnumber, hnext⟩
    · cases herror.symm.trans hround
    · cases hok.symm.trans hround
    · cases hok.symm.trans hround
      refine ⟨hnext, ?_⟩
      have hend : next.testStart ≤ coverageEnd := by
        rw [hnext.testStart]
        rcases hnext.inside with hzero | hinside
        · omega
        · exact hinside
      have hlater : state.testStart < next.testStart := by
        have hlt := testBoundary_lt config firstTestStart
          (Nat.lt_add_one state.foldNumber)
        rw [hfound.testStart, hnext.testStart, hnumber]
        unfold dayLength at hlt
        omega
      omega

end Windows

section Acceptance

/-- Different folds have different identifiers. -/
theorem foldId_injective : Function.Injective foldId := by
  intro m n h
  have hdigits := congrArg String.toList h
  simp only [foldId, String.toList_append, String.toList_ofList, List.append_cancel_left_eq] at hdigits
  have hvalue := congrArg (fun digits => Nat.ofDigitChars 10 digits 0) hdigits
  simpa [Nat.ofDigitChars_append, Nat.ofDigitChars_replicate_zero, Nat.ofDigitChars_ten_toDigits]
    using hvalue

variable {config : WalkForwardConfig} {coverageStart coverageEnd firstTestStart : ℤ}
  {timestamps : List ℤ}

/-- The candles of an interval follow each other without a gap. -/
theorem ownedIntervalCopy_isChain {start stop : ℤ} {timestamps : List ℤ}
    (hincreasing : timestamps.Pairwise (· < ·))
    (hspacing : timestamps.IsChain fun a b => b - a = frequency) :
    (ownedIntervalCopy timestamps start stop).IsChain fun a b => b - a = frequency := by
  induction timestamps with
  | nil => exact List.IsChain.nil
  | cons a rest ih =>
    obtain ⟨hbefore, hrest⟩ := List.pairwise_cons.mp hincreasing
    have htail := ih hrest hspacing.tail
    unfold ownedIntervalCopy at htail ⊢
    rw [List.filter_cons]
    split
    · next hinside =>
      simp only [decide_eq_true_eq] at hinside
      match rest, hspacing, hbefore, htail with
      | [], _, _, _ => exact List.IsChain.singleton a
      | b :: rest, hspacing, hbefore, htail =>
        by_cases hb : b < stop
        · have hab := hbefore b (by simp)
          have hkept : (b :: rest).filter (fun t => decide (start ≤ t ∧ t < stop)) =
              b :: rest.filter fun t => decide (start ≤ t ∧ t < stop) :=
            List.filter_cons_of_pos (decide_eq_true ⟨by omega, hb⟩)
          rw [hkept] at htail ⊢
          exact List.isChain_cons_cons.mpr ⟨(List.isChain_cons_cons.mp hspacing).1, htail⟩
        · have hlater := (List.pairwise_cons.mp hrest).1
          have hnone : (b :: rest).filter (fun t => decide (start ≤ t ∧ t < stop)) = [] := by
            rw [List.filter_eq_nil_iff]
            intro t ht hinterval
            simp only [decide_eq_true_eq] at hinterval
            rcases List.mem_cons.mp ht with rfl | hmem
            · exact hb hinterval.2
            · have hbt := hlater t hmem
              omega
          rw [hnone]
          exact List.IsChain.singleton a
    · exact htail

/-- An interval of a contiguous index is a valid index. -/
theorem validatedUtcIndex_interval {timestamps : List ℤ} (start stop : ℤ) (name : String)
    (hincreasing : timestamps.Pairwise (· < ·))
    (hspacing : timestamps.IsChain fun a b => b - a = frequency)
    (haligned : ∀ t ∈ timestamps, t % frequency = 0) :
    validatedUtcIndex (.datetime true ((ownedIntervalCopy timestamps start stop).map some)) name =
      .ok (ownedIntervalCopy timestamps start stop) :=
  Data.validatedUtcIndex_eq_ok.mpr ⟨rfl, hincreasing.filter _,
    ownedIntervalCopy_isChain hincreasing hspacing, fun t ht => haligned t (List.mem_of_mem_filter ht)⟩

variable (hincreasing : timestamps.Pairwise (· < ·))
  (hspacing : timestamps.IsChain fun a b => b - a = frequency)
  (haligned : ∀ t ∈ timestamps, t % frequency = 0)
include hincreasing hspacing haligned

/-- A right fold passes the checks, after folds with other names that end before it. -/
theorem checkFold_correct {number : ℕ} {fold : FoldWindow} {ids : List String} {before : Option ℤ}
    (hfold : fold.Correct config timestamps coverageStart coverageEnd firstTestStart number)
    (hids : ∀ id ∈ ids, ∃ earlier < number, id = foldId earlier)
    (hbefore : ∀ t ∈ before, t ≤ testBoundary config firstTestStart number) :
    checkFold timestamps (ids, before) (fold, number) =
      .ok (fold.foldId :: ids, some fold.testEnd) := by
  have hnew : fold.foldId ∉ ids := by
    intro hmem
    obtain ⟨earlier, hlt, heq⟩ := hids _ hmem
    have hsame := foldId_injective (hfold.foldId.symm.trans heq)
    omega
  have htrain : ownedIntervalCopy timestamps fold.trainStart fold.trainEnd = fold.trainIndex :=
    hfold.trainIndex.symm
  have htest : ownedIntervalCopy timestamps fold.testStart fold.testEnd = fold.testIndex :=
    hfold.testIndex.symm
  have htrainIndex := validatedUtcIndex_interval fold.trainStart fold.trainEnd "fold train_index"
    hincreasing hspacing haligned
  have htestIndex := validatedUtcIndex_interval fold.testStart fold.testEnd "fold test_index"
    hincreasing hspacing haligned
  rw [htrain] at htrainIndex
  rw [htest] at htestIndex
  simp only [checkFold, Except.bind_eq_ok, reject_eq_ok, Except.pure_eq_ok, htrain, htest]
  refine ⟨(), ?_, (), ?_, (), ?_, (), ?_, _, htrainIndex, _, htestIndex, (), by simp, trivial⟩
  · exact not_or.mpr ⟨not_not.mpr hfold.foldId, hnew⟩
  · exact not_not.mpr hfold.ordered
  · rintro ⟨t, ht, hlt⟩
    have hle := hbefore t ht
    rw [hfold.testStart] at hlt
    omega
  · exact not_or.mpr hfold.nonempty

/-- So do right folds in a row. -/
theorem checkFold_loop {folds : List FoldWindow} {start : ℕ} {ids : List String}
    {before : Option ℤ}
    (hfolds : ∀ (rank : ℕ) (fold : FoldWindow), folds[rank]? = some fold →
      fold.Correct config timestamps coverageStart coverageEnd firstTestStart (start + rank))
    (hids : ∀ id ∈ ids, ∃ earlier < start, id = foldId earlier)
    (hbefore : ∀ t ∈ before, t ≤ testBoundary config firstTestStart start) :
    ∃ state, (folds.zipIdx start).foldlM (checkFold timestamps) (ids, before) = .ok state := by
  induction folds generalizing start ids before with
  | nil => exact ⟨_, rfl⟩
  | cons fold folds ih =>
    have hfold := hfolds 0 fold rfl
    have hstep := checkFold_correct hincreasing hspacing haligned hfold hids hbefore
    rw [List.zipIdx_cons, List.foldlM_cons]
    have hrest := @ih (start + 1) (fold.foldId :: ids) (some fold.testEnd) ?_ ?_ ?_
    · obtain ⟨state, hstate⟩ := hrest
      exact ⟨state, Except.bind_eq_ok.mpr ⟨_, hstep, hstate⟩⟩
    · intro rank later hlater
      have hcorrect := hfolds (rank + 1) later hlater
      rwa [show start + (rank + 1) = start + 1 + rank by omega] at hcorrect
    · intro id hid
      rcases List.mem_cons.mp hid with rfl | hmem
      · exact ⟨start, by omega, hfold.foldId⟩
      · obtain ⟨earlier, hlt, heq⟩ := hids id hmem
        exact ⟨earlier, by omega, heq⟩
    · intro t ht
      rw [← Option.some.inj ht, hfold.testEnd]

/-- The checks accept the folds of a schedule, unless there are none. -/
theorem Schedule.checkFolds {folds : List FoldWindow}
    (h : Schedule config timestamps coverageStart coverageEnd firstTestStart folds)
    (hne : folds ≠ []) : checkFolds timestamps folds = .ok () := by
  have hloop := @checkFold_loop config coverageStart coverageEnd firstTestStart timestamps
    hincreasing hspacing haligned folds 0 [] none (by simpa using h.correct) (by simp) (by simp)
  obtain ⟨state, hstate⟩ := hloop
  simp only [Validation.checkFolds, Except.bind_eq_ok, reject_eq_ok, Except.pure_eq_ok]
  exact ⟨(), hne, state, hstate, trivial⟩

end Acceptance

/-- A valid index that is not empty: increasing on the grid without gaps. -/
theorem validatedUtcCopy_eq_ok {index : TimeIndex} {timestamps : List ℤ}
    (h : validatedUtcCopy index = .ok timestamps) :
    timestamps.Pairwise (· < ·) ∧ (timestamps.IsChain fun a b => b - a = frequency) ∧
      ∀ t ∈ timestamps, t % frequency = 0 := by
  cases index with
  | other | naive => cases h
  | aware instants =>
    simp only [validatedUtcCopy, Except.bind_eq_ok, reject_eq_ok, Except.pure_eq_ok, not_not] at h
    obtain ⟨_, _, _, hnodup, _, hsorted, _, _, _, haligned, _, hspacing, rfl⟩ := h
    refine ⟨?_, hspacing, ?_⟩
    · exact (List.pairwise_and_iff.mpr ⟨hnodup, hsorted⟩).imp fun h => by omega
    · intro t ht
      by_contra hoff
      exact haligned ⟨t, ht, hoff⟩

/-- An index that passes as it is passes again. -/
theorem validatedUtcCopy_again {index : TimeIndex} {timestamps : List ℤ}
    (h : validatedUtcCopy index = .ok timestamps) :
    validatedUtcCopy (.aware (timestamps.map some)) = .ok timestamps := by
  cases index with
  | other | naive => cases h
  | aware instants =>
    simp only [validatedUtcCopy, Except.bind_eq_ok, reject_eq_ok, Except.pure_eq_ok,
      Data.reduceOption_map_some] at h ⊢
    obtain ⟨_, _, _, hnodup, _, hsorted, _, hheld, _, haligned, _, hspacing, rfl⟩ := h
    exact ⟨(), by simp, (), hnodup, (), hsorted, (), hheld, (), haligned, (), hspacing, trivial⟩

section Build

variable {config : WalkForwardConfig} {index : TimeIndex} {first trainEnd : ℤ} {rest : List ℤ}

/-- The end of the last candle. -/
def coverageEndOf (first : ℤ) (rest : List ℤ) : ℤ := rest.getLastD first + frequency

/-- The first test start is at least a day after the coverage start and the train years. -/
theorem firstTestStart_after (hfirst : IsFirstTrainEnd config first trainEnd) :
    first + dayLength ≤ trainEnd + config.embargoDays * dayLength := by
  have hyears := config.trainYears_pos
  have hshift := shiftMonths_lt (t := first) (n := 0) (m := 12 * config.trainYears) (by omega)
  rw [shiftMonths_zero] at hshift
  have hafter := hfirst.after
  unfold dayLength at *
  omega

/-- A valid index with a first training window is covered. -/
theorem coverage_of_valid (hindex : validatedUtcCopy index = .ok (first :: rest))
    (hfirst : IsFirstTrainEnd config first trainEnd) :
    Coverage config (first :: rest) first (coverageEndOf first rest)
      (trainEnd + config.embargoDays * dayLength) := by
  obtain ⟨_, hspacing, haligned⟩ := validatedUtcCopy_eq_ok hindex
  refine ⟨?_, ?_⟩
  · intro t ht hlow hhigh
    exact mem_of_contiguous hspacing (haligned first (by simp)) ht hlow hhigh
  · rwa [add_sub_cancel_right]

/-- The last candle does not come before the first. -/
theorem le_coverageEndOf (hincreasing : (first :: rest).Pairwise (· < ·)) :
    first + frequency ≤ coverageEndOf first rest := by
  unfold coverageEndOf
  cases hlast : rest.getLast? with
  | none => simp [List.getLastD_eq_getLast?, hlast]
  | some last =>
    have hlt := (List.pairwise_cons.mp hincreasing).1 last (List.mem_of_getLast? hlast)
    simp only [List.getLastD_eq_getLast?, hlast, Option.getD_some]
    omega

/-- Building the folds of an index that is not empty ends with the complete list, unless pandas
cannot hold an instant that is needed. -/
theorem buildRollingFolds_ends (hindex : validatedUtcCopy index = .ok (first :: rest))
    (hfirst : IsFirstTrainEnd config first trainEnd)
    (hnear : trainEnd ≤ shiftMonths (12 * config.trainYears) first + dayLength) {fuel : ℕ}
    (hfuel : 7 + (coverageEndOf first rest - first).toNat ≤ fuel) :
    Ends (buildRollingFolds fuel index config) fun outcome =>
      (∃ folds, outcome = .ok folds ∧ Schedule config (first :: rest) first
        (coverageEndOf first rest) (trainEnd + config.embargoDays * dayLength) folds) ∨
      outcome = .error outOfBounds ∧ Unheld config first (coverageEndOf first rest)
        (trainEnd + config.embargoDays * dayLength) := by
  obtain ⟨hincreasing, hspacing, haligned⟩ := validatedUtcCopy_eq_ok hindex
  have hcoverage := coverage_of_valid hindex hfirst
  have hlater := firstTestStart_after hfirst
  have hlast := le_coverageEndOf hincreasing
  set firstTestStart := trainEnd + config.embargoDays * dayLength with hfirstTestStart
  have hzero : testBoundary config firstTestStart 0 = firstTestStart := testBoundary_zero
  have hone : testBoundary config firstTestStart 0 + dayLength ≤
      testBoundary config firstTestStart (0 + 1) := testBoundary_lt _ _ (by omega)
  have hembargo := config.embargoDays_pos
  have hcopy : Ends (liftM (validatedUtcCopy index) : ExceptT Failure Option (List ℤ))
      (· = .ok (first :: rest)) := Ends.lift hindex
  unfold buildRollingFolds
  refine hcopy.bind ?_ (fun e h => by cases h)
  intro timestamps htimestamps
  obtain rfl := Except.ok.inj htimestamps
  cases rest with
  | nil =>
    -- one candle is shorter than any train window
    refine Ends.pure (.inl ⟨[], rfl, ?_⟩)
    have hfound : Found config [first] (coverageEndOf first []) firstTestStart
        ⟨firstTestStart, 0, []⟩ := ⟨hzero.symm, rfl, .inl rfl⟩
    refine hfound.schedule hcoverage ?_
    have hshort : coverageEndOf first [] = first + frequency := rfl
    change coverageEndOf first [] < testBoundary config firstTestStart (0 + 1)
    rw [hshort]
    unfold dayLength frequency at *
    omega
  | cons second rest =>
    have hend : Ends (liftM (timestamp (coverageEndOf first (second :: rest))) :
        ExceptT Failure Option ℤ) (· = timestamp (coverageEndOf first (second :: rest))) :=
      Ends.lift rfl
    refine hend.bind ?_ ?_
    · intro coverageEnd hheld
      obtain ⟨_, rfl⟩ := timestamp_eq_ok.mp hheld.symm
      refine (firstCompleteTrainEnd_ends (haligned first (by simp)) hfirst hnear
        (by omega : 6 < fuel)).bind ?_ ?_
      · rintro found (hfound | ⟨herror, _⟩)
        · obtain rfl := Except.ok.inj hfound
          have hstart : Ends (liftM (offsetDays config.embargoDays found) :
              ExceptT Failure Option ℤ) (· = timestamp firstTestStart) := Ends.lift rfl
          refine hstart.bind ?_ ?_
          · intro start hheld
            obtain ⟨_, rfl⟩ := timestamp_eq_ok.mp hheld.symm
            refine rolling_ends hcoverage ?_
            unfold dayLength frequency at *
            omega
          · intro e herror
            obtain ⟨hout, rfl⟩ := timestamp_eq_error.mp herror.symm
            refine .inr ⟨rfl, unheld_of_round hout (.inl rfl) ?_ ?_⟩
            · unfold dayLength at *
              omega
            · unfold dayLength at *
              omega
        · cases herror
      · rintro e (herror | ⟨herror, t, hlow, hhigh, hout⟩)
        · cases herror
        · obtain rfl := Except.error.inj herror
          refine .inr ⟨rfl, t, 0, hout, hlow, ?_, .inl rfl⟩
          refine le_max_of_le_right ?_
          unfold dayLength at *
          omega
    · intro e herror
      obtain ⟨hout, rfl⟩ := timestamp_eq_error.mp herror.symm
      refine .inr ⟨rfl, _, 0, hout, ?_, le_max_left _ _, .inl rfl⟩
      unfold dayLength frequency at *
      omega

/-- For the default durations the validation of the folds accepts what was built, unless that
is nothing. -/
theorem validatedFolds_built {fuel : ℕ} {folds : List FoldWindow} {coverageEnd firstTestStart : ℤ}
    {timestamps : List ℤ} (hindex : validatedUtcCopy index = .ok timestamps)
    (hbuilt : (buildRollingFolds fuel index {}).run = some (.ok folds))
    (hschedule : Schedule {} timestamps first coverageEnd firstTestStart folds)
    (hne : folds ≠ []) : (validatedFolds fuel timestamps folds).run = some (.ok folds) := by
  obtain ⟨hincreasing, hspacing, haligned⟩ := validatedUtcCopy_eq_ok hindex
  have hchecks := hschedule.checkFolds hincreasing hspacing haligned hne
  have hagain : (buildRollingFolds fuel (.aware (timestamps.map some)) {}).run =
      some (.ok folds) := by
    rw [← hbuilt, buildRollingFolds, buildRollingFolds, hindex, validatedUtcCopy_again hindex]
  have hcanonical : checkCanonical folds folds = .ok folds := by
    simp [checkCanonical]
  rw [validatedFolds, hchecks]
  change (buildRollingFolds fuel (.aware (timestamps.map some)) {} >>= fun canonical =>
    liftM (checkCanonical folds canonical)).run = _
  rw [ExceptT.run_bind, hagain]
  exact congrArg some hcanonical

end Build

/-- For every contiguous four-hour index and all durations, the search for the first train end
gives the earliest one with a full lookback, and the folds are the complete list of right ones,
which the validation accepts for the default durations when there is one. Both end, and raise
only for an instant between the coverage and the next boundary that pandas cannot hold. -/
theorem rolling_folds_correct (config : WalkForwardConfig) (index : TimeIndex)
    (timestamps : List ℤ) (hindex : validatedUtcCopy index = .ok timestamps) :
    (timestamps = [] → ∀ fuel, (buildRollingFolds fuel index config).run = some (.ok [])) ∧
    ∀ first rest, timestamps = first :: rest →
      ∃ firstTrainEnd enough, IsFirstTrainEnd config first firstTrainEnd ∧
        ∀ fuel, enough ≤ fuel →
          Ends (firstCompleteTrainEnd fuel first config) (fun outcome =>
            outcome = .ok firstTrainEnd ∨ outcome = .error outOfBounds ∧
              Unheld config first (coverageEndOf first rest)
                (firstTrainEnd + config.embargoDays * dayLength)) ∧
          Ends (buildRollingFolds fuel index config) (fun outcome =>
            (∃ folds, outcome = .ok folds ∧
              Schedule config timestamps first (coverageEndOf first rest)
                (firstTrainEnd + config.embargoDays * dayLength) folds ∧
              (config = {} → folds ≠ [] →
                (validatedFolds fuel timestamps folds).run = some (.ok folds))) ∨
            outcome = .error outOfBounds ∧ Unheld config first (coverageEndOf first rest)
              (firstTrainEnd + config.embargoDays * dayLength)) := by
  constructor
  · rintro rfl fuel
    rw [buildRollingFolds, hindex]
    rfl
  · rintro first rest rfl
    obtain ⟨_, _, haligned⟩ := validatedUtcCopy_eq_ok hindex
    have hfirstAligned := haligned first (by simp)
    obtain ⟨firstTrainEnd, hfirst, hnear⟩ := exists_first_train_end config hfirstAligned
    refine ⟨firstTrainEnd, 7 + (coverageEndOf first rest - first).toNat, hfirst, ?_⟩
    intro fuel hfuel
    constructor
    · refine (firstCompleteTrainEnd_ends hfirstAligned hfirst hnear (by omega)).imp ?_
      rintro outcome (hfound | ⟨herror, t, hlow, hhigh, hout⟩)
      · exact .inl hfound
      · refine .inr ⟨herror, t, 0, hout, hlow, le_max_of_le_right ?_, .inl rfl⟩
        have hboundary : firstTrainEnd + config.embargoDays * dayLength ≤
            testBoundary config (firstTrainEnd + config.embargoDays * dayLength) (0 + 1) := by
          calc _ = testBoundary config (firstTrainEnd + config.embargoDays * dayLength) 0 :=
              testBoundary_zero.symm
            _ ≤ _ := testBoundary_mono (Nat.zero_le _)
        have hembargo := config.embargoDays_pos
        unfold dayLength at *
        omega
    · obtain ⟨outcome, hrun, hcases⟩ := buildRollingFolds_ends hindex hfirst hnear hfuel
      refine ⟨outcome, hrun, ?_⟩
      rcases hcases with ⟨folds, rfl, hschedule⟩ | herror
      · refine .inl ⟨folds, rfl, hschedule, ?_⟩
        rintro rfl hne
        exact validatedFolds_built hindex hrun hschedule hne
      · exact .inr herror

/-- The candles of the first days of 1970. -/
def candlesFromEpoch (days : ℕ) : List ℤ :=
  (List.range (6 * days)).map fun n : ℕ => (n : ℤ) * frequency

/-- They are a contiguous index, as long as pandas can hold them. -/
theorem validatedUtcCopy_candlesFromEpoch {days : ℕ} (hdays : days ≤ 100000) :
    validatedUtcCopy (.aware ((candlesFromEpoch days).map some)) = .ok (candlesFromEpoch days) := by
  have hmem : ∀ t ∈ candlesFromEpoch days, ∃ n : ℕ, n < 6 * days ∧ t = n * frequency := by
    intro t ht
    obtain ⟨n, hn, rfl⟩ := List.mem_map.mp ht
    exact ⟨n, List.mem_range.mp hn, rfl⟩
  have hincreasing : (candlesFromEpoch days).Pairwise (· < ·) := by
    refine List.pairwise_map.mpr (List.pairwise_lt_range.imp fun hlt => ?_)
    unfold frequency
    omega
  have hchain : (candlesFromEpoch days).IsChain fun a b => b - a = frequency := by
    refine (List.isChain_map _).mpr ?_
    cases 6 * days with
    | zero => exact .nil
    | succ count =>
      refine (List.isChain_range_succ _ _).mpr fun n _ => ?_
      push_cast
      ring
  have hinstants : ((candlesFromEpoch days).map some).reduceOption = candlesFromEpoch days :=
    by simp [List.reduceOption]
  simp only [validatedUtcCopy, Except.bind_eq_ok, reject_eq_ok, Except.pure_eq_ok, hinstants,
    not_not, not_exists, not_and]
  refine ⟨⟨⟩, by simp, ⟨⟩, hincreasing.imp fun h => h.ne, ⟨⟩, hincreasing.imp fun h => h.le, ⟨⟩, ?_,
    ⟨⟩, ?_, ⟨⟩, hchain, trivial⟩
  · intro t ht
    obtain ⟨n, hn, rfl⟩ := hmem t ht
    unfold Representable frequency
    omega
  · intro t ht
    obtain ⟨n, -, rfl⟩ := hmem t ht
    exact Int.mul_emod_left _ _

/-- The candles of 917 days. -/
theorem candlesFromEpoch_days : ∃ rest, candlesFromEpoch 917 = 0 :: rest ∧
    coverageEndOf 0 rest = 917 * dayLength := by
  refine ⟨(List.range 5501).map fun n => ((n + 1 : ℕ) : ℤ) * frequency, ?_, ?_⟩
  · rw [candlesFromEpoch, show 6 * 917 = 5501 + 1 from rfl, List.range_succ_eq_map]
    simp
  · rw [coverageEndOf, List.getLastD_eq_getLast?, List.getLast?_map, List.getLast?_range]
    decide

/-- The first two years from the epoch have no leap day. -/
theorem IsFirstTrainEnd.eq_of_epoch {trainEnd : ℤ} (h : IsFirstTrainEnd {} 0 trainEnd) :
    trainEnd = 730 * dayLength :=
  le_antisymm (h.earliest _ (by decide) (by decide) (by decide)) (h.after.trans' (by decide))

/-- Pandas can hold what the folds of the 917 days need. -/
theorem not_unheld_of_epoch : ¬Unheld {} 0 (917 * dayLength) (735 * dayLength) := by
  rintro ⟨t, ordinal, hout, hlow, hhigh, hordinal⟩
  have hthree : testBoundary {} (735 * dayLength) 3 = 1009 * dayLength := by decide
  have hbefore : ordinal + 1 ≤ 3 := by
    by_contra hlate
    rcases hordinal with hzero | hinside
    · omega
    · have hlater := @testBoundary_mono {} (735 * dayLength) 3 ordinal (by omega)
      rw [hthree] at hlater
      unfold dayLength at *
      omega
  have hboundary := @testBoundary_mono {} (735 * dayLength) _ _ hbefore
  rw [hthree] at hboundary
  refine hout ?_
  unfold Representable dayLength at *
  omega

/-- The 917 days hold two folds of the default durations. -/
theorem Schedule.length_of_epoch {timestamps : List ℤ} {folds : List FoldWindow}
    (h : Schedule {} timestamps 0 (917 * dayLength) (735 * dayLength) folds) :
    folds.length = 2 := by
  have htwo : testBoundary {} (735 * dayLength) 2 = 917 * dayLength := by decide
  have hthree : testBoundary {} (735 * dayLength) 3 = 1009 * dayLength := by decide
  have hmaximal := h.maximal
  by_contra hother
  rcases Nat.lt_or_ge folds.length 2 with hfew | hmany
  · have hboundary := @testBoundary_mono {} (735 * dayLength) (folds.length + 1) 2 (by omega)
    rw [htwo] at hboundary
    exact absurd hmaximal (not_lt.mpr hboundary)
  · obtain ⟨fold, hfold⟩ : ∃ fold, folds[2]? = some fold :=
      ⟨_, List.getElem?_eq_getElem (by omega)⟩
    have hcorrect := h.correct 2 fold hfold
    have hcovered := hcorrect.covered.2
    rw [hcorrect.testEnd, hthree] at hcovered
    unfold dayLength at hcovered
    omega

/-- The candles of the 917 days up to the sixth of July 1972 give two folds of the default
durations, which the validation accepts. -/
theorem rolling_folds_correct_two_folds :
    ∃ fuel folds, (buildRollingFolds fuel (.aware ((candlesFromEpoch 917).map some)) {}).run =
        some (.ok folds) ∧ folds.length = 2 ∧
      Schedule {} (candlesFromEpoch 917) 0 (917 * dayLength) (735 * dayLength) folds ∧
      (validatedFolds fuel (candlesFromEpoch 917) folds).run = some (.ok folds) := by
  obtain ⟨rest, hcandles, hend⟩ := candlesFromEpoch_days
  obtain ⟨trainEnd, enough, hfirst, hends⟩ := (rolling_folds_correct {} _ _
    (validatedUtcCopy_candlesFromEpoch (by decide : 917 ≤ 100000))).2 0 rest hcandles
  have hstart : trainEnd + ((({} : WalkForwardConfig).embargoDays : ℕ) : ℤ) * dayLength =
      735 * dayLength := by
    rw [hfirst.eq_of_epoch]
    decide
  obtain ⟨outcome, hrun, hcases⟩ := (hends enough le_rfl).2
  rw [hstart, hend] at hcases
  rcases hcases with ⟨folds, rfl, hschedule, haccepted⟩ | ⟨-, hunheld⟩
  · have hlength := hschedule.length_of_epoch
    refine ⟨enough, folds, hrun, hlength, hschedule, haccepted rfl ?_⟩
    rintro rfl
    cases hlength
  · exact absurd hunheld not_unheld_of_epoch

/-- The validation accepts the two folds that are built of the 917 days. -/
theorem exists_folds_of_epoch : ∃ fuel folds, folds.length = 2 ∧
    Schedule {} (candlesFromEpoch 917) 0 (917 * dayLength) (735 * dayLength) folds ∧
    (validatedFolds fuel (candlesFromEpoch 917) folds).run = some (.ok folds) := by
  obtain ⟨rest, hcandles, hend⟩ := candlesFromEpoch_days
  have hindex := validatedUtcCopy_candlesFromEpoch (by decide : 917 ≤ 100000)
  obtain ⟨-, -, haligned⟩ := validatedUtcCopy_eq_ok hindex
  obtain ⟨trainEnd, hfirst, hnear⟩ := exists_first_train_end {}
    (haligned 0 (by rw [hcandles]; exact List.mem_cons_self))
  have hstart : trainEnd + ((({} : WalkForwardConfig).embargoDays : ℕ) : ℤ) * dayLength =
      735 * dayLength := by
    rw [hfirst.eq_of_epoch]
    decide
  rw [hcandles] at hindex ⊢
  obtain ⟨outcome, hrun, hcases⟩ := buildRollingFolds_ends hindex hfirst hnear le_rfl
  rw [hstart, hend] at hcases
  rcases hcases with ⟨folds, rfl, hschedule⟩ | ⟨-, hunheld⟩
  · have hlength := hschedule.length_of_epoch
    have hne : folds ≠ [] := by
      rintro rfl
      cases hlength
    exact ⟨_, folds, hlength, hschedule, validatedFolds_built hindex hrun hschedule hne⟩
  · exact absurd hunheld not_unheld_of_epoch

/-- Two candles are too few for a fold, and the validation refuses an empty list. Durations of
three hundred years lead out of the range of pandas. -/
theorem not_every_schedule_accepted :
    validatedUtcCopy (.aware [some 0, some frequency]) = .ok [0, frequency] ∧
      (buildRollingFolds 10 (.aware [some 0, some frequency]) {}).run = some (.ok []) ∧
      (validatedFolds 10 [0, frequency] []).run =
        some (.error (.value "folds must not be empty")) ∧
      (buildRollingFolds 10 (.aware [some 0, some frequency]) { trainYears := 300 }).run =
        some (.error outOfBounds) := by
  decide +kernel

end AutoBit.Validation
