import AutoBit.Risk.Decision
import Mathlib.Algebra.Order.Field.Basic
import Mathlib.Tactic.Ring

/-!
# The limits of a decision never grow with the danger

A rule leaves all of a limit, half of it or nothing, and a decision leaves the least of
what its rules leave of the drawdown ladder. Every ladder and every rule is antitone in
what it measures, so the decision is antitone in all of it together.
-/

namespace AutoBit.Risk

/-! ## Shares -/

/-- The share of a limit that an outcome leaves. -/
def RuleOutcome.share : RuleOutcome → ℚ
  | .clear => 1
  | .reduce _ => 1 / 2
  | .halt _ _ => 0

/-- The least share that some outcomes leave. -/
def leastShare (outcomes : List RuleOutcome) : ℚ :=
  outcomes.foldr (fun outcome least => min outcome.share least) 1

/-- Without outcomes the share is whole. -/
@[simp] theorem leastShare_nil : leastShare [] = 1 := rfl

/-- The least share is that of the first outcome or of the rest. -/
@[simp] theorem leastShare_cons (outcome : RuleOutcome) (outcomes : List RuleOutcome) :
    leastShare (outcome :: outcomes) = min outcome.share (leastShare outcomes) := rfl

/-- The share of an outcome is not negative. -/
theorem RuleOutcome.share_nonneg (outcome : RuleOutcome) : 0 ≤ outcome.share := by
  cases outcome <;> norm_num [RuleOutcome.share]

/-- The least share lies between zero and one. -/
theorem leastShare_bounds (outcomes : List RuleOutcome) :
    0 ≤ leastShare outcomes ∧ leastShare outcomes ≤ 1 := by
  induction outcomes with
  | nil => norm_num
  | cons outcome outcomes ih =>
    rw [leastShare_cons]
    exact ⟨le_min outcome.share_nonneg ih.1, (min_le_right _ _).trans ih.2⟩

/-- Outcomes that each leave less leave less together. -/
theorem leastShare_antitone {outcomes worse : List RuleOutcome}
    (h : List.Forall₂ (fun outcome worse => worse.share ≤ outcome.share) outcomes worse) :
    leastShare worse ≤ leastShare outcomes := by
  induction h with
  | nil => exact le_rfl
  | cons hhead _ ih => exact min_le_min hhead ih

/-- Nothing is left where an outcome halts, and half where one reduces. -/
theorem leastShare_eq (outcomes : List RuleOutcome) : leastShare outcomes =
    if outcomes.flatMap RuleOutcome.halts ≠ [] then 0
    else if outcomes.any RuleOutcome.isReduce then 1 / 2
    else 1 := by
  induction outcomes with
  | nil => simp
  | cons outcome outcomes ih =>
    have hbounds := leastShare_bounds outcomes
    rw [leastShare_cons, List.flatMap_cons, List.any_cons]
    cases outcome with
    | clear =>
      have hshare : RuleOutcome.clear.share = 1 := rfl
      rw [hshare, min_eq_right hbounds.2, ih]
      rfl
    | halt reason until_ =>
      have hshare : (RuleOutcome.halt reason until_).share = 0 := rfl
      rw [hshare, min_eq_left hbounds.1, if_pos (by simp [RuleOutcome.halts])]
    | reduce reason =>
      have hhalts : (RuleOutcome.reduce reason).halts = [] := rfl
      have hreduce : (RuleOutcome.reduce reason).isReduce = true := rfl
      have hshare : (RuleOutcome.reduce reason).share = 1 / 2 := rfl
      rw [hhalts, hreduce, hshare, List.nil_append, ih, Bool.true_or, if_pos rfl]
      split_ifs <;> norm_num

/-- Both limits of a decision are what the outcomes leave of the ladder. -/
theorem combine_limits {rule : (ℚ × ℚ) × RuleOutcome × List String} (outcomes : List RuleOutcome)
    (hrate : 0 ≤ rule.1.1) (hcap : 0 ≤ rule.1.2) (hrule : rule.2.1.isReduce = false) :
    (combine rule outcomes).riskRate = rule.1.1 * leastShare (rule.2.1 :: outcomes) ∧
      (combine rule outcomes).exposureCap = rule.1.2 * leastShare (rule.2.1 :: outcomes) := by
  rw [leastShare_eq, List.flatMap_cons, List.any_cons, hrule, Bool.false_or]
  unfold combine
  dsimp only
  by_cases hhalts : rule.2.1.halts ++ outcomes.flatMap RuleOutcome.halts ≠ []
  · simp only [if_pos hhalts, mul_zero, and_self]
  · simp only [if_neg hhalts]
    by_cases hreduce : outcomes.any RuleOutcome.isReduce = true
    · simp only [if_pos hreduce]
      rw [min_eq_right (half_le_self hrate), min_eq_right (half_le_self hcap)]
      constructor <;> ring
    · simp only [if_neg hreduce, mul_one, and_self]

/-! ## Rules -/

/-- The drawdown rule never asks to reduce. -/
theorem drawdownRule_isReduce (now : ℤ) (drawdown : ℚ) (start : Option ℤ) :
    (drawdownRule now drawdown start).2.1.isReduce = false := by
  cases start with
  | none =>
    simp only [drawdownRule]
    split <;> rfl
  | some start =>
    simp only [drawdownRule]
    split <;> rfl

/-- A deeper drawdown never has higher rates on the drawdown ladder. -/
theorem drawdownLadder_antitone {d d' : ℚ} (h : d ≤ d') :
    (drawdownLadder d').1 ≤ (drawdownLadder d).1 ∧
      (drawdownLadder d').2 ≤ (drawdownLadder d).2 := by
  unfold drawdownLadder
  split_ifs <;> constructor <;> dsimp only <;> linarith

/-- A deeper drawdown never has higher rates on the recovery ladder. -/
theorem recoveryLadder_antitone {d d' : ℚ} (h : d ≤ d') :
    (recoveryLadder d').1 ≤ (recoveryLadder d).1 ∧
      (recoveryLadder d').2 ≤ (recoveryLadder d).2 := by
  unfold recoveryLadder
  split_ifs <;> constructor <;> dsimp only <;> linarith

/-- A deeper drawdown never allows more. -/
theorem drawdownRule_antitone (now : ℤ) {d d' : ℚ} (start : Option ℤ) (h : d ≤ d') :
    (drawdownRule now d' start).1.1 ≤ (drawdownRule now d start).1.1 ∧
      (drawdownRule now d' start).1.2 ≤ (drawdownRule now d start).1.2 ∧
      (drawdownRule now d' start).2.1.share ≤ (drawdownRule now d start).2.1.share := by
  cases start with
  | none =>
    obtain ⟨hrate, hcap⟩ := drawdownLadder_antitone h
    refine ⟨hrate, hcap, ?_⟩
    simp only [drawdownRule]
    by_cases hworse : approvedConfig.hardDrawdown ≤ d'
    · rw [if_pos hworse]
      exact RuleOutcome.share_nonneg _
    · have hlimit : ¬approvedConfig.hardDrawdown ≤ d := fun hlimit => hworse (hlimit.trans h)
      rw [if_neg hworse, if_neg hlimit]
  | some start =>
    simp only [drawdownRule]
    split
    · obtain ⟨hrate, hcap⟩ := drawdownLadder_antitone h
      exact ⟨hrate, hcap, le_rfl⟩
    · obtain ⟨hrate, hcap⟩ := recoveryLadder_antitone h
      exact ⟨hrate, hcap, le_rfl⟩

/-- A larger daily loss never allows more. -/
theorem dailyRule_antitone (now : ℤ) {loss loss' : ℚ} (start : Option ℤ) (h : loss ≤ loss') :
    (dailyRule now loss' start).share ≤ (dailyRule now loss start).share := by
  cases start <;> simp only [dailyRule] <;> split_ifs <;> simp only [RuleOutcome.share] <;> linarith

/-- A larger weekly loss never allows more. -/
theorem weeklyRule_antitone (now : ℤ) {loss loss' : ℚ} (start : Option ℤ) (h : loss ≤ loss') :
    (weeklyRule now loss' start).share ≤ (weeklyRule now loss start).share := by
  have horder : approvedConfig.weeklyReduceLimit ≤ approvedConfig.weeklyHaltLimit := by
    decide +kernel
  cases start <;> simp only [weeklyRule] <;> split_ifs <;> simp only [RuleOutcome.share] <;> linarith

/-- More losses, or fewer profitable trades after them, never allow more. -/
theorem streakRule_antitone (now : ℤ) {losses losses' profitable profitable' : ℕ}
    (start : Option ℤ) (hlosses : losses ≤ losses') (hprofitable : profitable' ≤ profitable) :
    (streakRule now losses' profitable' start).share ≤
      (streakRule now losses profitable start).share := by
  cases start <;> simp only [streakRule] <;> split_ifs <;> simp only [RuleOutcome.share] <;>
    first | omega | norm_num

/-- More volatility, or fewer stable bars, never allow more. -/
theorem volatilityRule_antitone {ratio ratio' : ℚ} (halted : Bool) {stable stable' : ℕ}
    (hratio : ratio ≤ ratio') (hstable : stable' ≤ stable) :
    (volatilityRule ratio' halted stable').share ≤ (volatilityRule ratio halted stable).share := by
  cases halted with
  | true =>
    simp only [volatilityRule, if_true]
    by_cases hworse : ratio' ≤ 15 / 10 ∧ 3 ≤ stable'
    · have hcalm : ratio ≤ 15 / 10 ∧ 3 ≤ stable := ⟨hratio.trans hworse.1, by omega⟩
      rw [if_pos hworse, if_pos hcalm]
    · rw [if_neg hworse]
      exact RuleOutcome.share_nonneg _
  | false =>
    simp only [volatilityRule, Bool.false_eq_true, if_false]
    split_ifs <;> simp only [RuleOutcome.share] <;> linarith

/-! ## Decisions -/

/-- A valid snapshot at least as dangerous as another one, under the same config, starts and
flags at the same instant. -/
structure RiskInput.Worse (input worse : RiskInput) : Prop where
  drawdown : ∃ d d', input.drawdown = some d ∧ worse.drawdown = some d' ∧ 0 ≤ d ∧ d ≤ d'
  dailyLoss : 0 ≤ input.dailyLoss ∧ input.dailyLoss ≤ worse.dailyLoss
  weeklyLoss : 0 ≤ input.weeklyLoss ∧ input.weeklyLoss ≤ worse.weeklyLoss
  consecutiveLosses : input.consecutiveLosses ≤ worse.consecutiveLosses
  volatilityRatio : ∃ ratio ratio', input.volatilityRatio = .number ratio ∧
    worse.volatilityRatio = .number ratio' ∧ 0 ≤ ratio ∧ ratio ≤ ratio'
  systemHealthy : worse.systemHealthy = true → input.systemHealthy = true
  stableBars : worse.volatilityStableBars ≤ input.volatilityStableBars
  profitableTrades :
    worse.profitableTradesSinceStreakHalt ≤ input.profitableTradesSinceStreakHalt
  now : worse.now = input.now
  config : worse.config = input.config
  recoveryStartedAt : worse.recoveryStartedAt = input.recoveryStartedAt
  dailyHaltStartedAt : worse.dailyHaltStartedAt = input.dailyHaltStartedAt
  weeklyHaltStartedAt : worse.weeklyHaltStartedAt = input.weeklyHaltStartedAt
  streakHaltStartedAt : worse.streakHaltStartedAt = input.streakHaltStartedAt
  volatilityHalted : worse.volatilityHalted = input.volatilityHalted

/-- The limits of a judged snapshot, as shares of its ladder. -/
theorem RiskInput.Judged.limits {input : RiskInput} {drawdown ratio : ℚ}
    (h : input.Judged drawdown ratio) :
    let rule := drawdownRule input.now drawdown input.recoveryStartedAt
    (evaluateRisk input).riskRate = rule.1.1 * leastShare (rule.2.1 :: input.outcomes ratio) ∧
      (evaluateRisk input).exposureCap =
        rule.1.2 * leastShare (rule.2.1 :: input.outcomes ratio) := by
  obtain ⟨hrate, hcap⟩ := drawdownRule_ladder_nonneg input.now drawdown input.recoveryStartedAt
  rw [h.decision]
  exact combine_limits _ hrate hcap (drawdownRule_isReduce _ _ _)

/-- The rates of the drawdown rule are at most those without a drawdown. -/
theorem drawdownRule_ladder_le (now : ℤ) (drawdown : ℚ) (start : Option ℤ) :
    (drawdownRule now drawdown start).1.1 ≤ 2 / 100 ∧
      (drawdownRule now drawdown start).1.2 ≤ 70 / 100 := by
  have hladder : (drawdownLadder drawdown).1 ≤ 2 / 100 ∧ (drawdownLadder drawdown).2 ≤ 70 / 100 := by
    unfold drawdownLadder
    split_ifs <;> norm_num
  have hrecovery : (recoveryLadder drawdown).1 ≤ 2 / 100 ∧ (recoveryLadder drawdown).2 ≤ 70 / 100 := by
    unfold recoveryLadder
    split_ifs <;> norm_num
  cases start with
  | none => exact hladder
  | some start =>
    simp only [drawdownRule]
    split
    · exact hladder
    · exact hrecovery

/-- Every decision is within the approved limits. -/
theorem evaluateRisk_bounded (input : RiskInput) :
    (0 ≤ (evaluateRisk input).riskRate ∧ (evaluateRisk input).riskRate ≤ 2 / 100) ∧
      0 ≤ (evaluateRisk input).exposureCap ∧ (evaluateRisk input).exposureCap ≤ 70 / 100 := by
  rcases evaluateRisk_judged_or_refused input with ⟨drawdown, ratio, hjudged⟩ | hrefused
  · obtain ⟨hrate, hcap⟩ := hjudged.limits
    obtain ⟨hrate_nonneg, hcap_nonneg⟩ :=
      drawdownRule_ladder_nonneg input.now drawdown input.recoveryStartedAt
    obtain ⟨hrate_le, hcap_le⟩ := drawdownRule_ladder_le input.now drawdown input.recoveryStartedAt
    obtain ⟨hshare_nonneg, hshare_le⟩ := leastShare_bounds
      ((drawdownRule input.now drawdown input.recoveryStartedAt).2.1 :: input.outcomes ratio)
    rw [hrate, hcap]
    exact ⟨⟨mul_nonneg hrate_nonneg hshare_nonneg,
        (mul_le_of_le_one_right hrate_nonneg hshare_le).trans hrate_le⟩,
      mul_nonneg hcap_nonneg hshare_nonneg,
        (mul_le_of_le_one_right hcap_nonneg hshare_le).trans hcap_le⟩
  · obtain ⟨hrate, hcap⟩ := input.refusal_closed
    rw [hrefused, hrate, hcap]
    norm_num

/-- A worse snapshot never gets a higher limit. -/
theorem evaluateRisk_antitone {input worse : RiskInput} (h : input.Worse worse) :
    (evaluateRisk worse).riskRate ≤ (evaluateRisk input).riskRate ∧
      (evaluateRisk worse).exposureCap ≤ (evaluateRisk input).exposureCap := by
  obtain ⟨⟨hrate, -⟩, hcap, -⟩ := evaluateRisk_bounded input
  obtain ⟨d, d', hd, hd', hd_nonneg, hd_le⟩ := h.drawdown
  obtain ⟨ratio, ratio', hratio, hratio', hratio_nonneg, hratio_le⟩ := h.volatilityRatio
  rcases evaluateRisk_judged_or_refused worse with ⟨value, reading, hjudged'⟩ | hrefused
  · obtain rfl : value = d' := Option.some.inj (hjudged'.drawdown_eq.symm.trans hd')
    obtain rfl : reading = ratio' := Reading.number.inj (hjudged'.ratio_eq.symm.trans hratio')
    have hjudged : input.Judged d ratio :=
      ⟨h.systemHealthy hjudged'.systemHealthy, hd, hratio, hd_nonneg, h.dailyLoss.1,
        h.weeklyLoss.1, hratio_nonneg, h.config.symm.trans hjudged'.config⟩
    obtain ⟨hrate_le, hcap_le, hshare⟩ :=
      drawdownRule_antitone input.now input.recoveryStartedAt hd_le
    have houtcomes : List.Forall₂ (fun outcome worse => worse.share ≤ outcome.share)
        (input.outcomes ratio) (worse.outcomes reading) := by
      simp only [RiskInput.outcomes, h.now, h.dailyHaltStartedAt, h.weeklyHaltStartedAt,
        h.streakHaltStartedAt, h.volatilityHalted]
      exact .cons (dailyRule_antitone _ _ h.dailyLoss.2)
        (.cons (weeklyRule_antitone _ _ h.weeklyLoss.2)
          (.cons (streakRule_antitone _ _ h.consecutiveLosses h.profitableTrades)
            (.cons (volatilityRule_antitone _ hratio_le h.stableBars) .nil)))
    have hleast := leastShare_antitone (List.Forall₂.cons hshare houtcomes)
    have hleast_nonneg := (leastShare_bounds
      ((drawdownRule input.now value input.recoveryStartedAt).2.1 :: worse.outcomes reading)).1
    obtain ⟨hrate_nonneg, hcap_nonneg⟩ :=
      drawdownRule_ladder_nonneg input.now d input.recoveryStartedAt
    obtain ⟨hrate_eq, hcap_eq⟩ := hjudged.limits
    obtain ⟨hrate_eq', hcap_eq'⟩ := hjudged'.limits
    rw [h.now, h.recoveryStartedAt] at hrate_eq' hcap_eq'
    rw [hrate_eq, hcap_eq, hrate_eq', hcap_eq']
    exact ⟨mul_le_mul hrate_le hleast hleast_nonneg hrate_nonneg,
      mul_le_mul hcap_le hleast hleast_nonneg hcap_nonneg⟩
  · obtain ⟨hrate', hcap'⟩ := worse.refusal_closed
    rw [hrefused, hrate', hcap']
    exact ⟨hrate, hcap⟩

/-- The reasons that halts give. -/
def haltReasons : List String :=
  ["drawdown_halt", "daily_loss_halt", "weekly_loss_halt", "loss_streak_halt", "volatility_halt"]

/-- Rules that do not halt give no reason of a halt. -/
theorem outcomes_reasons {input : RiskInput} {drawdown ratio : ℚ} {outcome : RuleOutcome}
    (houtcome : outcome ∈ (drawdownRule input.now drawdown input.recoveryStartedAt).2.1 ::
      input.outcomes ratio) (hhalts : outcome.halts = []) :
    ∀ reason ∈ outcome.reasons, reason ∉ haltReasons := by
  simp only [RiskInput.outcomes, List.mem_cons, List.not_mem_nil, or_false] at houtcome
  rcases houtcome with rfl | rfl | rfl | rfl | rfl
  · revert hhalts
    unfold drawdownRule
    split <;> split_ifs <;> simp [RuleOutcome.halts, RuleOutcome.reasons]
  · revert hhalts
    unfold dailyRule
    split <;> split_ifs <;> simp [RuleOutcome.halts, RuleOutcome.reasons, haltReasons]
  · revert hhalts
    unfold weeklyRule
    split <;> split_ifs <;> simp [RuleOutcome.halts, RuleOutcome.reasons, haltReasons]
  · revert hhalts
    unfold streakRule
    split <;> split_ifs <;> simp [RuleOutcome.halts, RuleOutcome.reasons, haltReasons]
  · revert hhalts
    unfold volatilityRule
    split_ifs <;> simp [RuleOutcome.halts, RuleOutcome.reasons, haltReasons]

/-- The reasons of a recovery are no reasons to halt. -/
theorem recovery_reasons (now : ℤ) (drawdown : ℚ) (start : Option ℤ) :
    ∀ reason ∈ (drawdownRule now drawdown start).2.2, reason ∉ haltReasons := by
  unfold drawdownRule
  split <;> split_ifs <;> simp [haltReasons]

/-- A decision that leaves something has no halt among its reasons. -/
theorem no_halt_of_pos {input : RiskInput} (hrate : 0 < (evaluateRisk input).riskRate) :
    ∀ reason ∈ (evaluateRisk input).reasons, reason ∉ haltReasons := by
  rcases evaluateRisk_judged_or_refused input with ⟨drawdown, ratio, hjudged⟩ | hrefused
  · have hlimit := hjudged.limits.1
    have hleast : leastShare ((drawdownRule input.now drawdown input.recoveryStartedAt).2.1 ::
        input.outcomes ratio) ≠ 0 := by
      intro hzero
      rw [hzero, mul_zero] at hlimit
      exact hrate.ne' hlimit
    rw [leastShare_eq] at hleast
    have hnone : ((drawdownRule input.now drawdown input.recoveryStartedAt).2.1 ::
        input.outcomes ratio).flatMap RuleOutcome.halts = [] := by
      by_contra hsome
      rw [if_pos hsome] at hleast
      exact hleast rfl
    rw [List.flatMap_eq_nil_iff] at hnone
    rw [hjudged.decision, combine_reasons]
    intro reason hreason
    rw [List.append_assoc, List.mem_append, List.mem_append, List.mem_flatMap] at hreason
    rcases hreason with hrule | hrecovery | ⟨outcome, houtcome, hrule⟩
    · have hmem : (drawdownRule input.now drawdown input.recoveryStartedAt).2.1 ∈
          (drawdownRule input.now drawdown input.recoveryStartedAt).2.1 :: input.outcomes ratio :=
        List.mem_cons_self
      exact outcomes_reasons hmem (hnone _ hmem) reason hrule
    · exact recovery_reasons _ _ _ reason hrecovery
    · have hmem := List.mem_cons_of_mem
        (drawdownRule input.now drawdown input.recoveryStartedAt).2.1 houtcome
      exact outcomes_reasons hmem (hnone outcome hmem) reason hrule
  · rw [hrefused, input.refusal_closed.1] at hrate
    exact absurd hrate (lt_irrefl 0)

end AutoBit.Risk
