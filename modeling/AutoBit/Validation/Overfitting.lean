import AutoBit.Library.Loop
import AutoBit.Library.Ranking
import AutoBit.Validation.Overfit
import Mathlib.Analysis.SpecialFunctions.Log.Basic

/-!
# The probability of backtest overfitting

Each path selects the first trial with the largest score in sample and ranks it out of sample
by average ranks. The reported probability is the fraction of paths whose clipped rank has a
positive logit: of those whose selected trial has more trials above it than below it.
-/

namespace AutoBit.Validation

open Library

/-- A rectangular array of finite scores, one row for each path. -/
structure ScoreMatrix where
  paths : ℕ
  trials : ℕ
  score : Fin paths → Fin trials → ℚ

/-- `_finite_real_array` in two dimensions. A value that is not finite is `none`. -/
def finiteRealArray (values : List (List (Option ℚ))) (name : String) :
    Except SplitError ScoreMatrix := do
  let first ← require values.head? (.value (name ++ " must be 2-dimensional"))
  if hshape : ∀ row ∈ values, row.length = first.length then
    reject (∃ row ∈ values, none ∈ row) (.value (name ++ " must contain only finite values"))
    return {
      paths := values.length
      trials := first.length
      score := fun path trial =>
        ((values.get path).get (trial.cast (hshape _ (List.get_mem _ _)).symm)).getD 0 }
  else
    throw (.value (name ++ " must be a rectangular real numeric array"))

/-- `np.finfo(np.float64).eps`. -/
def rankClip : ℚ := 1 / 2 ^ 52

/-- `np.clip`. -/
def clip (value lower upper : ℚ) : ℚ := min (max value lower) upper

/-- Whether `math.log(ratio) > 0.0`. -/
def logPositive (ratio : ℚ) : Bool := 1 < ratio

/-- The average zero-based rank of a score among its row, from best `0` to worst `1`. -/
def relativeRank {trials : ℕ} (row : Fin trials → ℚ) (selected : Fin trials) : ℚ :=
  let betterCount := above row selected
  let tiedOthers : ℤ := (level row selected : ℤ) - 1
  let averageZeroBasedRank : ℚ := betterCount + tiedOthers / 2
  averageZeroBasedRank / (trials - 1)

/-- One round of the loop over the paths: whether the logit of the selected trial is positive. -/
def positiveLogit {trials : ℕ} (inSample outOfSample : Fin trials → ℚ) :
    Except SplitError Bool := do
  let selected ← require (firstMax inSample)
    (.value "attempt to get argmax of an empty sequence")
  let clippedRank := clip (relativeRank outOfSample selected) rankClip (1 - rankClip)
  return logPositive (clippedRank / (1 - clippedRank))

/-- `probability_of_backtest_overfitting`. -/
def probabilityOfBacktestOverfitting (inSampleScores outOfSampleScores : List (List (Option ℚ))) :
    Except SplitError ℚ := do
  let inSample ← finiteRealArray inSampleScores "in-sample score matrix"
  let outOfSample ← finiteRealArray outOfSampleScores "out-of-sample score matrix"
  if hshape : inSample.paths = outOfSample.paths ∧ inSample.trials = outOfSample.trials then
    reject (inSample.paths < 1) (.value "score matrices must contain at least one path")
    reject (inSample.trials < 2) (.value "score matrices must contain at least two trials")
    let positiveLogits ← (List.finRange inSample.paths).foldlM (fun (count : ℕ) path => do
      let positive ← positiveLogit (inSample.score path) fun trial =>
        outOfSample.score (path.cast hshape.1) (trial.cast hshape.2)
      return count + positive.toNat) 0
    return positiveLogits / inSample.paths
  else
    throw (.value "score matrices must have identical shapes")

/-! ## The logit of a path -/

/-- The test of the model is the test of the logarithm. -/
theorem logPositive_iff {ratio : ℚ} (h : 0 < ratio) :
    logPositive ratio = true ↔ 0 < Real.log ratio := by
  rw [logPositive, decide_eq_true_eq, Real.log_pos_iff (by exact_mod_cast h.le)]
  exact_mod_cast Iff.rfl

/-- The trial selected in sample has more trials above it than below it out of sample. -/
def Overfits {trials : ℕ} (inSample outOfSample : Fin trials → ℚ) : Prop :=
  ∃ selected ∈ firstMax inSample, below outOfSample selected < above outOfSample selected

instance {trials : ℕ} (inSample outOfSample : Fin trials → ℚ) :
    Decidable (Overfits inSample outOfSample) :=
  inferInstanceAs (Decidable (∃ selected ∈ firstMax inSample, _))

/-- The average rank is past the middle when more trials are above than below. -/
theorem half_lt_relativeRank_iff {trials : ℕ} (htrials : 2 ≤ trials) (row : Fin trials → ℚ)
    (selected : Fin trials) :
    1 / 2 < relativeRank row selected ↔ below row selected < above row selected := by
  have hall := above_add_level_add_below row selected
  rw [Fintype.card_fin] at hall
  have hcast : (above row selected : ℚ) + level row selected + below row selected = trials := by
    exact_mod_cast hall
  have hpositive : (0 : ℚ) < trials - 1 := by
    have : (2 : ℚ) ≤ trials := by exact_mod_cast htrials
    linarith
  unfold relativeRank
  dsimp only
  rw [lt_div_iff₀ hpositive, ← Nat.cast_lt (α := ℚ)]
  push_cast
  constructor
  · intro h
    linarith
  · intro h
    linarith

/-- The logit of the clipped rank is positive when the rank is past the middle. -/
theorem logPositive_clip_iff (rank : ℚ) :
    logPositive (clip rank rankClip (1 - rankClip) / (1 - clip rank rankClip (1 - rankClip))) = true
      ↔ 1 / 2 < rank := by
  have hclip : rankClip < 1 / 2 := by norm_num [rankClip]
  have hpositive : 0 < rankClip := by norm_num [rankClip]
  have hupper : clip rank rankClip (1 - rankClip) ≤ 1 - rankClip := min_le_right _ _
  have hhalf : 1 / 2 < clip rank rankClip (1 - rankClip) ↔ 1 / 2 < rank := by
    rw [clip, lt_min_iff, lt_max_iff]
    constructor
    · rintro ⟨hrank | hlow, -⟩
      · exact hrank
      · linarith
    · intro hrank
      exact ⟨.inl hrank, by linarith⟩
  rw [logPositive, decide_eq_true_eq, one_lt_div (by linarith), ← hhalf]
  constructor
  · intro h
    linarith
  · intro h
    linarith

/-- A path counts when its selected trial is overfitted. -/
theorem positiveLogit_eq {trials : ℕ} (htrials : 2 ≤ trials)
    (inSample outOfSample : Fin trials → ℚ) :
    positiveLogit inSample outOfSample = .ok (Overfits inSample outOfSample) := by
  obtain ⟨selected, hselected⟩ := exists_firstMax (by omega) inSample
  have hlogit : logPositive (clip (relativeRank outOfSample selected) rankClip (1 - rankClip) /
      (1 - clip (relativeRank outOfSample selected) rankClip (1 - rankClip))) =
      decide (Overfits inSample outOfSample) := by
    rw [Bool.eq_iff_iff, logPositive_clip_iff, half_lt_relativeRank_iff htrials, decide_eq_true_eq,
      Overfits, hselected]
    simp
  rw [positiveLogit, hselected, ← hlogit]
  rfl

/-! ## The matrices -/

section

variable {paths trials : ℕ}

/-- The nested lists of a matrix of finite scores. -/
def rawScores (score : Fin paths → Fin trials → ℚ) : List (List (Option ℚ)) :=
  List.ofFn fun path => List.ofFn fun trial => some (score path trial)

/-- Two matrices with the same shape and the same scores are the same. -/
theorem ScoreMatrix.ext_cast {m m' : ScoreMatrix} (hpaths : m.paths = m'.paths)
    (htrials : m.trials = m'.trials)
    (hscore : ∀ path trial, m.score path trial = m'.score (path.cast hpaths) (trial.cast htrials)) :
    m = m' := by
  obtain ⟨paths, trials, score⟩ := m
  obtain ⟨paths', trials', score'⟩ := m'
  obtain rfl : paths = paths' := hpaths
  obtain rfl : trials = trials' := htrials
  congr 1
  funext path trial
  exact hscore path trial

/-- A matrix of finite scores with a path is read as it is. -/
theorem finiteRealArray_rawScores (hpaths : 0 < paths) (score : Fin paths → Fin trials → ℚ)
    (name : String) : finiteRealArray (rawScores score) name = .ok ⟨paths, trials, score⟩ := by
  have hhead : (rawScores score).head? =
      some (List.ofFn fun trial => some (score ⟨0, hpaths⟩ trial)) := by
    obtain ⟨count, rfl⟩ := Nat.exists_eq_succ_of_ne_zero hpaths.ne'
    rw [rawScores, List.ofFn_succ, List.head?_cons]
    rfl
  have hshape : ∀ row ∈ rawScores score,
      row.length = (List.ofFn fun trial => some (score ⟨0, hpaths⟩ trial)).length := by
    intro row hrow
    obtain ⟨path, rfl⟩ := List.mem_ofFn.mp hrow
    rw [List.length_ofFn, List.length_ofFn]
  have hfinite : ¬∃ row ∈ rawScores score, none ∈ row := by
    rintro ⟨row, hrow, hnone⟩
    obtain ⟨path, rfl⟩ := List.mem_ofFn.mp hrow
    obtain ⟨trial, htrial⟩ := List.mem_ofFn.mp hnone
    cases htrial
  rw [finiteRealArray, Except.bind_eq_ok]
  refine ⟨_, require_eq_ok.mpr hhead, ?_⟩
  rw [dif_pos hshape, Except.bind_eq_ok]
  refine ⟨(), reject_eq_ok.mpr hfinite, ?_⟩
  rw [Except.pure_eq_ok]
  refine ScoreMatrix.ext_cast (by simp [rawScores]) (by simp) ?_
  intro path trial
  have hrow : (rawScores score).get path =
      List.ofFn fun trial => some (score (path.cast List.length_ofFn) trial) :=
    List.get_ofFn _ path
  dsimp only
  rw [List.get_of_eq hrow, List.get_ofFn]
  rfl

/-- The loop over the paths counts those whose selected trial is overfitted. -/
theorem foldlM_positiveLogit (htrials : 2 ≤ trials)
    (inSample outOfSample : Fin paths → Fin trials → ℚ)
    (todo : List (Fin paths)) (count : ℕ) :
    todo.foldlM (fun (count : ℕ) path => do
      let positive ← positiveLogit (inSample path) (outOfSample path)
      return count + positive.toNat) count =
    Except.ok (count + todo.countP fun path => Overfits (inSample path) (outOfSample path)) := by
  induction todo generalizing count with
  | nil => rfl
  | cons path todo ih =>
    rw [List.foldlM_cons, positiveLogit_eq htrials]
    change todo.foldlM _ (count + _) = _
    rw [ih, List.countP_cons]
    congr 1
    by_cases hpath : Overfits (inSample path) (outOfSample path)
    · simp [hpath]
      omega
    · simp [hpath]

/-- A count over the paths is the size of a filtered set. -/
theorem countP_finRange (p : Fin paths → Prop) [DecidablePred p] :
    (List.finRange paths).countP (fun path => p path) = (Finset.univ.filter p).card := by
  rw [List.countP_eq_length_filter]
  rfl

/-- The reported probability is the fraction of paths whose selected trial is overfitted. -/
theorem probabilityOfBacktestOverfitting_eq (hpaths : 0 < paths) (htrials : 2 ≤ trials)
    (inSample outOfSample : Fin paths → Fin trials → ℚ) :
    probabilityOfBacktestOverfitting (rawScores inSample) (rawScores outOfSample) =
      .ok ((Finset.univ.filter fun path => Overfits (inSample path) (outOfSample path)).card /
        paths) := by
  rw [probabilityOfBacktestOverfitting, Except.bind_eq_ok]
  refine ⟨_, finiteRealArray_rawScores hpaths inSample _, ?_⟩
  rw [Except.bind_eq_ok]
  refine ⟨_, finiteRealArray_rawScores hpaths outOfSample _, ?_⟩
  rw [dif_pos ⟨rfl, rfl⟩, Except.bind_eq_ok]
  refine ⟨(), reject_eq_ok.mpr (Nat.not_lt.mpr hpaths), ?_⟩
  rw [Except.bind_eq_ok]
  refine ⟨(), reject_eq_ok.mpr (Nat.not_lt.mpr htrials), ?_⟩
  rw [Except.bind_eq_ok]
  refine ⟨_, foldlM_positiveLogit htrials inSample outOfSample _ 0, ?_⟩
  rw [Except.pure_eq_ok, Nat.zero_add, countP_finRange]

/-- Without a path there is nothing to report. -/
theorem probabilityOfBacktestOverfitting_no_paths (hpaths : paths = 0)
    (inSample outOfSample : Fin paths → Fin trials → ℚ) :
    probabilityOfBacktestOverfitting (rawScores inSample) (rawScores outOfSample) =
      .error (.value "in-sample score matrix must be 2-dimensional") := by
  subst hpaths
  rfl

/-! ## Invariance -/

/-- Whether a trial is overfitted depends on the order of the scores in each row only. -/
theorem overfits_comp {inSample outOfSample : Fin trials → ℚ} {f g : ℚ → ℚ}
    (hf : StrictMonoOn f (Set.range inSample)) (hg : StrictMonoOn g (Set.range outOfSample)) :
    Overfits (fun trial => f (inSample trial)) (fun trial => g (outOfSample trial)) ↔
      Overfits inSample outOfSample := by
  unfold Overfits
  rw [firstMax_comp hf]
  simp only [above_comp hg, below_comp hg]

/-- When the maximum in sample is the only one, the order of the trials does not matter. -/
theorem overfits_perm {inSample outOfSample : Fin trials → ℚ}
    (hunique : ∃! selected, ∀ trial, inSample trial ≤ inSample selected)
    (σ : Equiv.Perm (Fin trials)) :
    Overfits (fun trial => inSample (σ trial)) (fun trial => outOfSample (σ trial)) ↔
      Overfits inSample outOfSample := by
  unfold Overfits
  rw [firstMax_perm hunique]
  simp only [above_perm, below_perm, Option.mem_def, Option.map_eq_some_iff]
  constructor
  · rintro ⟨_, ⟨selected, hselected, rfl⟩, hbelow⟩
    rw [Equiv.apply_symm_apply] at hbelow
    exact ⟨selected, hselected, hbelow⟩
  · rintro ⟨selected, hselected, hbelow⟩
    refine ⟨σ.symm selected, ⟨selected, hselected, rfl⟩, ?_⟩
    rw [Equiv.apply_symm_apply]
    exact hbelow

/-- Matrices with the same overfitted paths have the same reported probability. -/
theorem probabilityOfBacktestOverfitting_congr (htrials : 2 ≤ trials)
    {inSample outOfSample inSample' outOfSample' : Fin paths → Fin trials → ℚ}
    (π : Equiv.Perm (Fin paths)) (h : ∀ path,
      Overfits (inSample' path) (outOfSample' path) ↔
        Overfits (inSample (π path)) (outOfSample (π path))) :
    probabilityOfBacktestOverfitting (rawScores inSample') (rawScores outOfSample') =
      probabilityOfBacktestOverfitting (rawScores inSample) (rawScores outOfSample) := by
  rcases Nat.eq_zero_or_pos paths with hpaths | hpaths
  · rw [probabilityOfBacktestOverfitting_no_paths hpaths,
      probabilityOfBacktestOverfitting_no_paths hpaths]
  · rw [probabilityOfBacktestOverfitting_eq hpaths htrials,
      probabilityOfBacktestOverfitting_eq hpaths htrials]
    have hcount : (Finset.univ.filter fun path => Overfits (inSample' path) (outOfSample' path)).card
        = (Finset.univ.filter fun path => Overfits (inSample path) (outOfSample path)).card := by
      rw [← card_filter_perm (fun path => Overfits (inSample path) (outOfSample path)) π]
      simp only [h]
    rw [hcount]

/-- The reported probability is the fraction of paths whose first maximum in sample has more
trials strictly above than strictly below it out of sample. Strictly increasing functions of
the rows and the order of the paths do not change it, nor does the order of the trials when the
maxima in sample are unique. -/
theorem probabilityOfBacktestOverfitting_law (htrials : 2 ≤ trials)
    (inSample outOfSample : Fin paths → Fin trials → ℚ) :
    (0 < paths → probabilityOfBacktestOverfitting (rawScores inSample) (rawScores outOfSample) =
      .ok ((Finset.univ.filter fun path => Overfits (inSample path) (outOfSample path)).card /
        paths)) ∧
    (∀ f g : Fin paths → ℚ → ℚ, (∀ path, StrictMonoOn (f path) (Set.range (inSample path))) →
      (∀ path, StrictMonoOn (g path) (Set.range (outOfSample path))) →
      probabilityOfBacktestOverfitting
          (rawScores fun path trial => f path (inSample path trial))
          (rawScores fun path trial => g path (outOfSample path trial)) =
        probabilityOfBacktestOverfitting (rawScores inSample) (rawScores outOfSample)) ∧
    (∀ π : Equiv.Perm (Fin paths),
      probabilityOfBacktestOverfitting (rawScores fun path => inSample (π path))
          (rawScores fun path => outOfSample (π path)) =
        probabilityOfBacktestOverfitting (rawScores inSample) (rawScores outOfSample)) ∧
    ((∀ path, ∃! selected, ∀ trial, inSample path trial ≤ inSample path selected) →
      ∀ σ : Equiv.Perm (Fin trials),
        probabilityOfBacktestOverfitting (rawScores fun path trial => inSample path (σ trial))
            (rawScores fun path trial => outOfSample path (σ trial)) =
          probabilityOfBacktestOverfitting (rawScores inSample) (rawScores outOfSample)) := by
  refine ⟨?_, ?_, ?_, ?_⟩
  · intro hpaths
    exact probabilityOfBacktestOverfitting_eq hpaths htrials inSample outOfSample
  · intro f g hf hg
    apply probabilityOfBacktestOverfitting_congr htrials (Equiv.refl _)
    intro path
    exact overfits_comp (hf path) (hg path)
  · intro π
    apply probabilityOfBacktestOverfitting_congr htrials π
    intro path
    exact Iff.rfl
  · intro hunique σ
    apply probabilityOfBacktestOverfitting_congr htrials (Equiv.refl _)
    intro path
    exact overfits_perm (hunique path) σ

/-- Two paths of three trials: the winner of the first stays the best, that of the second becomes
the worst. -/
theorem probabilityOfBacktestOverfitting_law_half :
    probabilityOfBacktestOverfitting (rawScores ![![3, 2, 1], ![1, 3, 2]])
      (rawScores ![![3, 2, 1], ![2, 1, 3]]) = .ok (1 / 2) := by
  rw [(probabilityOfBacktestOverfitting_law (by decide) _ _).1 (by decide)]
  decide +kernel

end

end AutoBit.Validation
