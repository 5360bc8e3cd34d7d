import AutoBit.Reporting.Metrics
import Mathlib.Algebra.Order.BigOperators.Group.List
import Mathlib.Tactic.FieldSimp
import Mathlib.Tactic.Ring

/-!
# Inverting the trade statistics

The statistics that a backtest computes from the closed trades determine their ledger: the
report recovers it exactly, also when there are no wins, no losses or trades without profit.
The ledgers of the parts of a trade list add up to that of the whole.
-/

namespace AutoBit.Reporting

open Library Backtest

/-! ## The ledger of a list -/

section

variable (pnls : List ℚ)

/-- The gains among the profits and losses. -/
def gains : List ℚ := pnls.filter (0 < ·)

/-- The losses among the profits and losses. -/
def lossesOf : List ℚ := pnls.filter (· < 0)

/-- The trade ledger of a list of profits and losses. -/
def ledgerOf : TradeLedger where
  tradeCount := pnls.length
  wins := (gains pnls).length
  losses := (lossesOf pnls).length
  grossWins := (gains pnls).sum
  grossLosses := -(lossesOf pnls).sum
  netPnl := pnls.sum

variable {pnls}

/-- Gains have a positive sum. -/
theorem sum_gains_pos (h : gains pnls ≠ []) : 0 < (gains pnls).sum :=
  List.sum_pos _ (fun _ hvalue => of_decide_eq_true (List.mem_filter.mp hvalue).2) h

/-- Losses have a negative sum. -/
theorem sum_losses_neg (h : lossesOf pnls ≠ []) : (lossesOf pnls).sum < 0 := by
  have hpositive : 0 < ((lossesOf pnls).map Neg.neg).sum := by
    apply List.sum_pos
    · intro value hvalue
      obtain ⟨loss, hloss, rfl⟩ := List.mem_map.mp hvalue
      exact neg_pos.mpr (of_decide_eq_true (List.mem_filter.mp hloss).2)
    · simpa using h
  have hsum : ((lossesOf pnls).map Neg.neg).sum = -(lossesOf pnls).sum := by
    induction lossesOf pnls with
    | nil => simp
    | cons loss losses ih =>
      rw [List.map_cons, List.sum_cons, ih, List.sum_cons]
      ring
  linarith

variable (pnls) in
/-- Trades without profit or loss count for neither. -/
theorem gains_add_losses : (gains pnls).sum + (lossesOf pnls).sum = pnls.sum ∧
    (gains pnls).length + (lossesOf pnls).length ≤ pnls.length := by
  induction pnls with
  | nil => simp [gains, lossesOf]
  | cons value pnls ih =>
    obtain ⟨hsum, hlength⟩ := ih
    rcases lt_trichotomy value 0 with hneg | rfl | hpos
    · have hgains : gains (value :: pnls) = gains pnls :=
        List.filter_cons_of_neg (by simpa using hneg.le)
      have hlosses : lossesOf (value :: pnls) = value :: lossesOf pnls :=
        List.filter_cons_of_pos (by simpa using hneg)
      rw [hgains, hlosses, List.sum_cons, List.sum_cons, List.length_cons, List.length_cons]
      exact ⟨by linarith, by omega⟩
    · have hgains : gains (0 :: pnls) = gains pnls := List.filter_cons_of_neg (by simp)
      have hlosses : lossesOf (0 :: pnls) = lossesOf pnls := List.filter_cons_of_neg (by simp)
      rw [hgains, hlosses, List.sum_cons, List.length_cons]
      exact ⟨by linarith, by omega⟩
    · have hgains : gains (value :: pnls) = value :: gains pnls :=
        List.filter_cons_of_pos (by simpa using hpos)
      have hlosses : lossesOf (value :: pnls) = lossesOf pnls :=
        List.filter_cons_of_neg (by simpa using hpos.le)
      rw [hgains, hlosses, List.sum_cons, List.sum_cons, List.length_cons, List.length_cons]
      exact ⟨by linarith, by omega⟩

end

/-! ## Recovering it -/

/-- A snapshot whose trade statistics are those of a list of profits and losses. -/
structure Discloses (pnls : List ℚ) (metrics : MetricSnapshot) : Prop where
  tradeCount : metrics.tradeCount = pnls.length
  winRate : metrics.winRate * pnls.length = (gains pnls).length
  expectancy : metrics.expectancy * pnls.length = pnls.sum
  averageWin : (gains pnls = [] ∧ metrics.averageWin = 0) ∨
    (gains pnls ≠ [] ∧ metrics.averageWin = (gains pnls).sum / (gains pnls).length)
  averageLoss : (lossesOf pnls = [] ∧ metrics.averageLoss = 0) ∨
    (lossesOf pnls ≠ [] ∧ metrics.averageLoss = (lossesOf pnls).sum / (lossesOf pnls).length)
  profitFactor : metrics.profitFactor =
    if 0 < -(lossesOf pnls).sum then (gains pnls).sum / -(lossesOf pnls).sum else 0
  averageWinLossRatio : metrics.averageWinLossRatio =
    if metrics.averageLoss < 0 then metrics.averageWin / |metrics.averageLoss| else 0
  idle : pnls = [] → metrics.winRate = 0 ∧ metrics.expectancy = 0

/-- A mean times the number of values is their sum. -/
theorem finiteMean_mul_length {values : List ℚ} (h : values ≠ []) :
    finiteMean values * values.length = values.sum := by
  have hlength : (values.length : ℚ) ≠ 0 := by
    exact_mod_cast (List.length_pos_iff.mpr h).ne'
  unfold finiteMean
  field_simp

/-- The statistics of a list are disclosed by every snapshot of the metrics that contain them. -/
theorem discloses_tradeStatistics (pnls : List ℚ) (metrics : PerformanceMetrics) (costId : String)
    (grossReturn : Option ℚ) :
    Discloses pnls (metricSnapshot (tradeStatistics pnls metrics) costId grossReturn) where
  tradeCount := rfl
  winRate := by
    change (if pnls = [] then (0 : ℚ) else (gains pnls).length / pnls.length) * pnls.length = _
    split_ifs with hempty
    · rw [hempty]
      simp [gains]
    · have hlength : (pnls.length : ℚ) ≠ 0 := by
        exact_mod_cast (List.length_pos_iff.mpr hempty).ne'
      field_simp
  expectancy := by
    change (if pnls = [] then 0 else finiteMean pnls) * pnls.length = _
    split_ifs with hempty
    · rw [hempty]
      simp
    · exact finiteMean_mul_length hempty
  averageWin := by
    change (gains pnls = [] ∧ (if gains pnls = [] then 0 else finiteMean (gains pnls)) = 0) ∨ _ ∧
      (if gains pnls = [] then 0 else finiteMean (gains pnls)) = _
    by_cases hempty : gains pnls = []
    · exact .inl ⟨hempty, if_pos hempty⟩
    · exact .inr ⟨hempty, if_neg hempty⟩
  averageLoss := by
    change (lossesOf pnls = [] ∧ (if lossesOf pnls = [] then 0 else finiteMean (lossesOf pnls)) = 0)
      ∨ _ ∧ (if lossesOf pnls = [] then 0 else finiteMean (lossesOf pnls)) = _
    by_cases hempty : lossesOf pnls = []
    · exact .inl ⟨hempty, if_pos hempty⟩
    · exact .inr ⟨hempty, if_neg hempty⟩
  profitFactor := by
    have hsum : |(lossesOf pnls).sum| = -(lossesOf pnls).sum := by
      by_cases hempty : lossesOf pnls = []
      · simp [hempty]
      · exact abs_of_neg (sum_losses_neg hempty)
    change (if |(lossesOf pnls).sum| > 0 then (gains pnls).sum / |(lossesOf pnls).sum| else 0) = _
    rw [hsum]
  averageWinLossRatio := rfl
  idle := by
    rintro rfl
    exact ⟨rfl, rfl⟩

/-- A value is close to itself. -/
theorem close_self (value : ℚ) : close value value = true := by
  have htolerance : 0 ≤ reconciliationTolerance := by norm_num [reconciliationTolerance]
  rw [close, decide_eq_true_eq, sub_self, abs_zero]
  exact htolerance.trans (le_max_right _ _)

/-- A ratio matches itself. -/
theorem ratioMatches_self (value : ℚ) : ratioMatches value value = true := by
  unfold ratioMatches
  split_ifs with hzero
  · exact decide_eq_true hzero
  · exact close_self value

section

variable {pnls : List ℚ} {metrics : MetricSnapshot} (h : Discloses pnls metrics)
include h

/-- Gross gains are the wins times their average. -/
theorem Discloses.grossWins :
    ((gains pnls).length : ℚ) * metrics.averageWin = (gains pnls).sum := by
  rcases h.averageWin with ⟨hempty, hzero⟩ | ⟨hsome, hmean⟩
  · rw [hempty]
    simp
  · rw [hmean, mul_comm]
    exact finiteMean_mul_length hsome

/-- Gross losses are the losses times their average. -/
theorem Discloses.grossLosses :
    ((lossesOf pnls).length : ℚ) * |metrics.averageLoss| = -(lossesOf pnls).sum := by
  rcases h.averageLoss with ⟨hempty, hzero⟩ | ⟨hsome, hmean⟩
  · rw [hempty, hzero]
    simp
  · have hnegative : metrics.averageLoss < 0 := by
      rw [hmean]
      apply div_neg_of_neg_of_pos (sum_losses_neg hsome)
      exact_mod_cast List.length_pos_iff.mpr hsome
    rw [abs_of_neg hnegative, hmean, mul_neg, mul_comm]
    congr 1
    exact finiteMean_mul_length hsome

/-- The wins of the ledger are the gains of the trades. -/
theorem Discloses.ledgerWins_eq : ledgerWins metrics pnls.length = .ok (gains pnls).length := by
  have hvalue : metrics.winRate * ((pnls.length : ℤ) : ℚ) = ((gains pnls).length : ℤ) := by
    exact_mod_cast h.winRate
  have hle : (gains pnls).length ≤ pnls.length := List.length_filter_le _ _
  unfold ledgerWins
  dsimp only
  rw [hvalue, roundHalfEven_intCast]
  refine Except.bind_eq_ok.mpr ⟨(), reject_eq_ok.mpr ?_, ?_⟩
  · rintro (hneg | hmany | hfar)
    · omega
    · omega
    · rw [close_self] at hfar
      cases hfar
  refine Except.bind_eq_ok.mpr ⟨(), reject_eq_ok.mpr ?_, ?_⟩
  · rintro ⟨hnone, haverage⟩
    rcases h.averageWin with ⟨-, hzero⟩ | ⟨hsome, -⟩
    · exact haverage hzero
    · have := List.length_pos_iff.mpr hsome
      omega
  refine Except.bind_eq_ok.mpr ⟨(), reject_eq_ok.mpr ?_, rfl⟩
  rintro ⟨hwins, haverage⟩
  rcases h.averageWin with ⟨hempty, -⟩ | ⟨hsome, hmean⟩
  · rw [hempty] at hwins
    exact hwins rfl
  · have hpositive : 0 < metrics.averageWin := by
      rw [hmean]
      apply div_pos (sum_gains_pos hsome)
      exact_mod_cast List.length_pos_iff.mpr hsome
    exact absurd haverage (not_le.mpr hpositive)

/-- The losses of the ledger are those of the trades, with their sum. -/
theorem Discloses.ledgerLosses_eq : ledgerLosses metrics pnls.length (gains pnls).length
    (gains pnls).sum = .ok ((lossesOf pnls).length, -(lossesOf pnls).sum) := by
  obtain ⟨hsum, hlength⟩ := gains_add_losses pnls
  have hgross := h.grossLosses
  unfold ledgerLosses
  rcases h.averageLoss with ⟨hempty, hzero⟩ | ⟨hsome, hmean⟩
  · rw [if_pos hzero, hempty]
    simp
  have hlossCount : (0 : ℚ) < (lossesOf pnls).length := by
    exact_mod_cast List.length_pos_iff.mpr hsome
  have hnegative := sum_losses_neg hsome
  have haverage : metrics.averageLoss ≠ 0 := by
    intro hzero
    rw [hzero, abs_zero, mul_zero] at hgross
    linarith
  have hvalue : -(lossesOf pnls).sum / |metrics.averageLoss| = ((lossesOf pnls).length : ℤ) := by
    rw [← hgross, mul_div_assoc, div_self (abs_ne_zero.mpr haverage), mul_one]
    rfl
  have hcount : ¬(((lossesOf pnls).length : ℤ) ≤ 0 ∨
      ((gains pnls).length : ℤ) + (lossesOf pnls).length > pnls.length ∨
      close (((lossesOf pnls).length : ℤ) : ℚ) ((lossesOf pnls).length : ℤ) = false) := by
    have hpositive := List.length_pos_iff.mpr hsome
    rw [close_self]
    rintro (hnone | hmany | hfar)
    · omega
    · omega
    · cases hfar
  rw [if_neg haverage]
  split_ifs with hwins
  · have hfactor : metrics.profitFactor = (gains pnls).sum / -(lossesOf pnls).sum := by
      rw [h.profitFactor, if_pos (by linarith)]
    have hpositive : 0 < metrics.profitFactor := by
      rw [hfactor]
      exact div_pos hwins (by linarith)
    have hdisclosed : (gains pnls).sum / metrics.profitFactor = -(lossesOf pnls).sum := by
      rw [hfactor]
      field_simp
    dsimp only
    rw [hdisclosed, hvalue, roundHalfEven_intCast]
    refine Except.bind_eq_ok.mpr ⟨(), reject_eq_ok.mpr (not_le.mpr hpositive), ?_⟩
    refine Except.bind_eq_ok.mpr ⟨(), reject_eq_ok.mpr hcount, ?_⟩
    refine Except.bind_eq_ok.mpr ⟨(), reject_eq_ok.mpr ?_, ?_⟩
    · rw [Int.cast_natCast, hgross, close_self]
      decide
    · rw [Except.pure_eq_ok, Int.cast_natCast, hgross]
  · have hnone : (gains pnls).sum = 0 := by
      by_contra hne
      have hsomeGain : gains pnls ≠ [] := by
        intro hempty
        rw [hempty] at hne
        exact hne rfl
      exact hwins (sum_gains_pos hsomeGain)
    have hfactor : metrics.profitFactor = 0 := by
      rw [h.profitFactor, hnone, zero_div, ite_self]
    have hdisclosed : -(metrics.expectancy * ((pnls.length : ℤ) : ℚ)) = -(lossesOf pnls).sum := by
      rw [Int.cast_natCast, h.expectancy]
      linarith
    dsimp only
    rw [hdisclosed, hvalue, roundHalfEven_intCast]
    refine Except.bind_eq_ok.mpr ⟨(), reject_eq_ok.mpr (not_not.mpr hfactor), ?_⟩
    refine Except.bind_eq_ok.mpr ⟨(), reject_eq_ok.mpr hcount, ?_⟩
    rw [Except.pure_eq_ok, Int.cast_natCast, hgross]

/-- The ledger of the list is recovered. A cell without trades must not disclose holding times. -/
theorem Discloses.tradeLedger_eq (hholding : pnls = [] → metrics.meanHoldingBars = 0) :
    tradeLedger metrics = .ok (ledgerOf pnls) := by
  unfold tradeLedger
  dsimp only
  rw [h.tradeCount]
  by_cases hempty : pnls = []
  · obtain ⟨hrate, hexpectancy⟩ := h.idle hempty
    have hwin : metrics.averageWin = 0 := by
      rcases h.averageWin with ⟨-, hzero⟩ | ⟨hsome, -⟩
      · exact hzero
      · exact absurd (by rw [hempty]; rfl) hsome
    have hloss : metrics.averageLoss = 0 := by
      rcases h.averageLoss with ⟨-, hzero⟩ | ⟨hsome, -⟩
      · exact hzero
      · exact absurd (by rw [hempty]; rfl) hsome
    have hfactor : metrics.profitFactor = 0 := by
      rw [h.profitFactor, hempty]
      simp [lossesOf]
    have hratio : metrics.averageWinLossRatio = 0 := by
      rw [h.averageWinLossRatio, hloss, if_neg (lt_irrefl _)]
    rw [if_pos (by rw [hempty]; rfl)]
    refine Except.bind_eq_ok.mpr ⟨⟨⟩, Except.forM_eq_ok.mpr ?_, ?_⟩
    · intro field hfield
      simp only [zeroTradeFields, List.mem_cons, List.not_mem_nil, or_false] at hfield
      rw [reject_eq_ok, not_not]
      rcases hfield with rfl | rfl | rfl | rfl | rfl | rfl | rfl
      · exact hexpectancy
      · exact hrate
      · exact hwin
      · exact hloss
      · exact hfactor
      · exact hratio
      · exact hholding hempty
    · rw [hempty]
      simp [ledgerOf, gains, lossesOf]
  · have hlength := List.length_pos_iff.mpr hempty
    obtain ⟨hsum, -⟩ := gains_add_losses pnls
    have hnet : metrics.expectancy * ((pnls.length : ℤ) : ℚ) = pnls.sum := by
      rw [Int.cast_natCast, h.expectancy]
    have hgrossWins : (((gains pnls).length : ℤ) : ℚ) * metrics.averageWin = (gains pnls).sum := by
      rw [Int.cast_natCast, h.grossWins]
    have hdifference : (gains pnls).sum - -(lossesOf pnls).sum = pnls.sum := by
      linarith
    rw [if_neg (by omega)]
    refine Except.bind_eq_ok.mpr ⟨_, h.ledgerWins_eq, ?_⟩
    rw [hgrossWins]
    refine Except.bind_eq_ok.mpr ⟨_, h.ledgerLosses_eq, ?_⟩
    dsimp only
    rw [hdifference, hnet]
    refine Except.bind_eq_ok.mpr ⟨(), reject_eq_ok.mpr ?_, ?_⟩
    · rw [close_self]
      decide
    refine Except.bind_eq_ok.mpr ⟨(), reject_eq_ok.mpr ?_, ?_⟩
    · rw [← h.profitFactor, ratioMatches_self]
      decide
    refine Except.bind_eq_ok.mpr ⟨(), reject_eq_ok.mpr ?_, rfl⟩
    rw [← h.averageWinLossRatio, ratioMatches_self]
    decide

end

/-! ## Parts of a trade list -/

/-- Closed trades: their profits and losses, and a holding time for each of them unless none is
known. -/
structure ClosedTrades where
  pnls : List ℚ
  holding : List ℚ
  timed : holding = [] ∨ holding.length = pnls.length

/-- A snapshot of metrics that are computed from closed trades and any other evidence. -/
def SnapshotOf (powers : Powers) (closed : ClosedTrades) (snapshot : MetricSnapshot) : Prop :=
  ∃ input equity times metrics costId grossReturn, input.pnlValues = closed.pnls ∧
    equityValues input.equityCurve = .ok (equity, times) ∧
    holdingValues input times = .ok closed.holding ∧
    calculateMetrics powers input = .ok metrics ∧
    snapshot = metricSnapshot metrics costId grossReturn

variable {powers : Powers} {closed : ClosedTrades} {snapshot : MetricSnapshot}

/-- Such a snapshot discloses the statistics of the trades and their mean holding time. -/
theorem SnapshotOf.discloses (h : SnapshotOf powers closed snapshot) :
    Discloses closed.pnls snapshot ∧ snapshot.meanHoldingBars =
      if closed.holding = [] then 0 else finiteMean closed.holding := by
  obtain ⟨input, equity, times, metrics, costId, grossReturn, hpnls, hequity, hholding, hmetrics,
    rfl⟩ := h
  obtain ⟨equity', times', holding, others, hequity', hholding', rfl, hmean⟩ :=
    calculateMetrics_inv hmetrics
  rw [hequity, Except.ok.injEq, Prod.mk.injEq] at hequity'
  obtain ⟨-, rfl⟩ := hequity'
  rw [hholding, Except.ok.injEq] at hholding'
  subst hholding'
  rw [hpnls]
  exact ⟨discloses_tradeStatistics _ _ _ _, hmean⟩

/-- The ledger of a snapshot is that of its trades. -/
theorem SnapshotOf.tradeLedger_eq (h : SnapshotOf powers closed snapshot) :
    tradeLedger snapshot = .ok (ledgerOf closed.pnls) := by
  obtain ⟨hdiscloses, hmean⟩ := h.discloses
  apply hdiscloses.tradeLedger_eq
  intro hempty
  have hholding : closed.holding = [] := by
    rcases closed.timed with hnone | hlength
    · exact hnone
    · rw [hempty, List.length_nil] at hlength
      exact List.length_eq_zero_iff.mp hlength
  rw [hmean, if_pos hholding]

/-- The mean holding time times the number of trades is the sum of the holding times. -/
theorem SnapshotOf.holding_eq (h : SnapshotOf powers closed snapshot) :
    snapshot.meanHoldingBars * snapshot.tradeCount = closed.holding.sum := by
  obtain ⟨hdiscloses, hmean⟩ := h.discloses
  rw [hmean, hdiscloses.tradeCount]
  by_cases hempty : closed.holding = []
  · rw [if_pos hempty, hempty]
    simp
  · rw [if_neg hempty, ← closed.timed.resolve_left hempty]
    exact finiteMean_mul_length hempty

/-- The ledger of a list does not depend on its order, -/
theorem ledgerOf_perm {pnls pnls' : List ℚ} (h : pnls.Perm pnls') :
    ledgerOf pnls = ledgerOf pnls' := by
  have hgains : (gains pnls).Perm (gains pnls') := h.filter _
  have hlosses : (lossesOf pnls).Perm (lossesOf pnls') := h.filter _
  simp only [ledgerOf, h.length_eq, hgains.length_eq, hlosses.length_eq, hgains.sum_eq,
    hlosses.sum_eq, h.sum_eq]

/-- and the ledgers of its parts add up to it. -/
theorem sumLedgers_ledgerOf (parts : List (List ℚ)) :
    sumLedgers (parts.map ledgerOf) = ledgerOf parts.flatten := by
  induction parts with
  | nil => simp [sumLedgers, ledgerOf, gains, lossesOf]
  | cons part parts ih =>
    simp only [sumLedgers, ledgerOf, TradeLedger.mk.injEq, List.map_map] at ih ⊢
    obtain ⟨hcount, hwins, hlosses, hgrossWins, hgrossLosses, hnet⟩ := ih
    simp only [List.map_cons, List.sum_cons, hcount, hwins, hlosses, hgrossWins, hgrossLosses,
      hnet, List.flatten_cons, gains, lossesOf, List.filter_append, List.length_append,
      List.sum_append, Function.comp_apply, Nat.cast_add]
    refine ⟨rfl, rfl, rfl, rfl, ?_, rfl⟩
    change -(part.filter (· < 0)).sum + _ = _
    ring

/-- What a stitched cell discloses next to its trade statistics agrees with the folds. -/
structure Reconciled (folds : List MetricSnapshot) (stitched : MetricSnapshot) : Prop where
  grossReturn : close (compoundReturns (folds.map MetricSnapshot.grossReturn))
    stitched.grossReturn = true
  netReturn : close (compoundReturns (folds.map MetricSnapshot.netReturn))
    stitched.netReturn = true
  totalFees : close (folds.map MetricSnapshot.totalFees).sum stitched.totalFees = true
  totalSlippage : close (folds.map MetricSnapshot.totalSlippage).sum stitched.totalSlippage = true

/-- A mean as the report writes it. -/
theorem eq_ite_div {n : ℕ} {mean sum : ℚ} (hmul : mean * n = sum) (hzero : n = 0 → mean = 0) :
    mean = if (n : ℤ) ≠ 0 then sum / (n : ℤ) else 0 := by
  split_ifs with hn
  · rw [Int.cast_natCast, eq_div_iff (by exact_mod_cast hn)]
    exact hmul
  · exact hzero (by omega)

section

variable {pnls : List ℚ} {stitched : MetricSnapshot} (h : Discloses pnls stitched)
include h

/-- The average win times the number of gains is their sum. -/
theorem Discloses.averageWin_mul :
    stitched.averageWin * (gains pnls).length = (gains pnls).sum ∧
      ((gains pnls).length = 0 → stitched.averageWin = 0) := by
  refine ⟨by rw [mul_comm, h.grossWins], ?_⟩
  intro hzero
  rcases h.averageWin with ⟨-, haverage⟩ | ⟨hsome, -⟩
  · exact haverage
  · exact absurd (List.length_eq_zero_iff.mp hzero) hsome

/-- The average loss times the number of losses is their sum. -/
theorem Discloses.averageLoss_mul :
    stitched.averageLoss * (lossesOf pnls).length = (lossesOf pnls).sum ∧
      ((lossesOf pnls).length = 0 → stitched.averageLoss = 0) := by
  rcases h.averageLoss with ⟨hempty, haverage⟩ | ⟨hsome, haverage⟩
  · refine ⟨?_, fun _ => haverage⟩
    rw [hempty, haverage]
    simp
  · refine ⟨?_, fun hzero => absurd (List.length_eq_zero_iff.mp hzero) hsome⟩
    rw [haverage]
    exact finiteMean_mul_length hsome

/-- The profit factor is the gains for each unit of loss. -/
theorem Discloses.profitFactor_eq : stitched.profitFactor =
    if -(lossesOf pnls).sum ≠ 0 then (gains pnls).sum / -(lossesOf pnls).sum else 0 := by
  rw [h.profitFactor]
  by_cases hempty : lossesOf pnls = []
  · simp [hempty]
  · have hnegative := sum_losses_neg hempty
    rw [if_pos (by linarith), if_pos (by linarith)]

/-- The ratio of wins and losses is that of their averages. -/
theorem Discloses.averageWinLossRatio_eq : stitched.averageWinLossRatio =
    if ((gains pnls).length : ℤ) ≠ 0 ∧ ((lossesOf pnls).length : ℤ) ≠ 0 ∧
        -(lossesOf pnls).sum ≠ 0 then
      ((gains pnls).sum / ((gains pnls).length : ℤ)) /
        (-(lossesOf pnls).sum / ((lossesOf pnls).length : ℤ))
    else 0 := by
  rw [h.averageWinLossRatio]
  rcases h.averageLoss with ⟨hempty, haverage⟩ | ⟨hsome, haverage⟩
  · rw [haverage, if_neg (lt_irrefl _), if_neg (by simp [hempty])]
  · have hnegative := sum_losses_neg hsome
    have hlength := List.length_pos_iff.mpr hsome
    have hloss : stitched.averageLoss < 0 := by
      rw [haverage]
      exact div_neg_of_neg_of_pos hnegative (by exact_mod_cast hlength)
    rw [if_pos hloss, abs_of_neg hloss, haverage, ← neg_div]
    rcases h.averageWin with ⟨hnone, hwin⟩ | ⟨hgains, hwin⟩
    · rw [hwin, zero_div, if_neg (by simp [hnone])]
    · have hwins := List.length_pos_iff.mpr hgains
      rw [if_pos ⟨by omega, by omega, by linarith⟩, hwin]
      rfl

/-- The statistics of the whole list are those that its ledger and the mean holding times of
its parts imply. -/
theorem Discloses.expectedStatistics_eq {folds : List MetricSnapshot}
    (hmean : stitched.meanHoldingBars = if (pnls.length : ℤ) ≠ 0 then
      (folds.map fun row => row.meanHoldingBars * (row.tradeCount : ℚ)).sum / (pnls.length : ℤ)
      else 0) :
    ∀ expected ∈ expectedStatistics folds (ledgerOf pnls) stitched,
      expected.2.1 = expected.2.2 := by
  have hidle : pnls.length = 0 → stitched.winRate = 0 ∧ stitched.expectancy = 0 :=
    fun hzero => h.idle (List.length_eq_zero_iff.mp hzero)
  intro expected hexpected
  simp only [expectedStatistics, List.mem_cons, List.not_mem_nil, or_false] at hexpected
  rcases hexpected with rfl | rfl | rfl | rfl | rfl | rfl | rfl | rfl
  · change (stitched.tradeCount : ℚ) = ((pnls.length : ℤ) : ℚ)
    rw [h.tradeCount, Int.cast_natCast]
  · exact eq_ite_div h.expectancy fun hzero => (hidle hzero).2
  · refine eq_ite_div ?_ fun hzero => (hidle hzero).1
    rw [h.winRate]
    exact (Int.cast_natCast _).symm
  · exact eq_ite_div h.averageWin_mul.1 h.averageWin_mul.2
  · refine eq_ite_div ?_ h.averageLoss_mul.2
    rw [h.averageLoss_mul.1]
    exact (neg_neg _).symm
  · exact h.profitFactor_eq
  · exact h.averageWinLossRatio_eq
  · exact hmean

end

/-- The holding times of the parts add up to those of the whole. -/
theorem meanHoldingBars_eq {parts : List (ClosedTrades × MetricSnapshot)} {whole : ClosedTrades}
    {stitched : MetricSnapshot} (hparts : ∀ part ∈ parts, SnapshotOf powers part.1 part.2)
    (hstitched : SnapshotOf powers whole stitched)
    (hholding : whole.holding.Perm (parts.flatMap fun part => part.1.holding)) :
    stitched.meanHoldingBars = if (whole.pnls.length : ℤ) ≠ 0 then
      ((parts.map Prod.snd).map fun row => row.meanHoldingBars * (row.tradeCount : ℚ)).sum /
        (whole.pnls.length : ℤ) else 0 := by
  have hsum : ((parts.map Prod.snd).map fun row => row.meanHoldingBars * (row.tradeCount : ℚ)).sum =
      whole.holding.sum := by
    rw [hholding.sum_eq]
    clear hholding
    induction parts with
    | nil => rfl
    | cons part parts ih =>
      rw [List.map_cons, List.map_cons, List.sum_cons, List.flatMap_cons, List.sum_append,
        (hparts part List.mem_cons_self).holding_eq,
        ih fun later hlater => hparts later (List.mem_cons_of_mem _ hlater)]
  have htimes := hstitched.holding_eq
  obtain ⟨hdiscloses, hmean⟩ := hstitched.discloses
  rw [hdiscloses.tradeCount] at htimes
  rw [hsum]
  apply eq_ite_div htimes
  intro hzero
  have hempty : whole.holding = [] := by
    rcases whole.timed with hnone | hlength
    · exact hnone
    · exact List.length_eq_zero_iff.mp (hlength.trans hzero)
  rw [hmean, if_pos hempty]

/-- The report recovers the ledger of the closed trades from their statistics. For the parts of
a trade list, in any order, it accepts the statistics of the whole list and returns the sums of
the ledgers of the parts, which are the ledger of the whole. -/
theorem trade_statistics_inverted (powers : Powers) :
    (∀ closed snapshot, SnapshotOf powers closed snapshot →
      tradeLedger snapshot = .ok (ledgerOf closed.pnls)) ∧
    ∀ (parts : List (ClosedTrades × MetricSnapshot)) whole stitched,
      (∀ part ∈ parts, SnapshotOf powers part.1 part.2) → SnapshotOf powers whole stitched →
      whole.pnls.Perm (parts.flatMap fun part => part.1.pnls) →
      whole.holding.Perm (parts.flatMap fun part => part.1.holding) →
      Reconciled (parts.map Prod.snd) stitched →
      reconcileStitchedMetrics (parts.map Prod.snd) stitched =
        .ok (sumLedgers (parts.map fun part => ledgerOf part.1.pnls)) ∧
      sumLedgers (parts.map fun part => ledgerOf part.1.pnls) = ledgerOf whole.pnls := by
  refine ⟨fun closed snapshot h => h.tradeLedger_eq, ?_⟩
  intro parts whole stitched hparts hstitched hpnls hholding hreconciled
  have hsums : sumLedgers (parts.map fun part => ledgerOf part.1.pnls) = ledgerOf whole.pnls := by
    have hparts := sumLedgers_ledgerOf (parts.map fun part => part.1.pnls)
    rw [List.map_map] at hparts
    rw [ledgerOf_perm hpnls, List.flatMap_def]
    exact hparts
  refine ⟨?_, hsums⟩
  have hledgers : (parts.map Prod.snd).mapM tradeLedger =
      .ok (parts.map fun part => ledgerOf part.1.pnls) := by
    rw [mapM_eq_ok, List.forall₂_map_left_iff, List.forall₂_map_right_iff, List.forall₂_same]
    exact fun part hpart => (hparts part hpart).tradeLedger_eq
  have hclose {left right : ℚ} (h : close left right = true) : ¬close left right = false := by
    rw [h]
    decide
  refine Except.bind_eq_ok.mpr ⟨(), reject_eq_ok.mpr (hclose hreconciled.grossReturn), ?_⟩
  refine Except.bind_eq_ok.mpr ⟨(), reject_eq_ok.mpr (hclose hreconciled.netReturn), ?_⟩
  refine Except.bind_eq_ok.mpr ⟨(), reject_eq_ok.mpr (hclose hreconciled.totalFees), ?_⟩
  refine Except.bind_eq_ok.mpr ⟨(), reject_eq_ok.mpr (hclose hreconciled.totalSlippage), ?_⟩
  refine Except.bind_eq_ok.mpr ⟨_, hledgers, ?_⟩
  refine Except.bind_eq_ok.mpr ⟨⟨⟩, Except.forM_eq_ok.mpr ?_, rfl⟩
  intro expected hexpected
  rw [hsums] at hexpected
  have heq := hstitched.discloses.1.expectedStatistics_eq
    (meanHoldingBars_eq hparts hstitched hholding) expected hexpected
  rw [reject_eq_ok, heq]
  exact hclose (close_self _)

/-- A day with a gain, a trade without profit and a loss, and a day with one gain. -/
def twoDays : List ClosedTrades := [⟨[3, 0, -1], [2, 1, 6], .inr rfl⟩, ⟨[2], [4], .inr rfl⟩]

/-- The trades of both days, latest first. -/
def bothDays : ClosedTrades := ⟨[2, -1, 0, 3], [4, 6, 1, 2], .inr rfl⟩

/-- The snapshot of closed trades without costs. -/
def tradesSnapshot (closed : ClosedTrades) : MetricSnapshot :=
  ((calculateMetrics doublePowers
    { closedPnls := some closed.pnls, holdingBars := some closed.holding }).toOption.map
      fun metrics => metricSnapshot metrics "zero" none).getD
    (metricSnapshot {} "zero" none)

/-- The snapshot of trades is the one that its metrics are computed of. -/
theorem snapshotOf_tradesSnapshot {closed : ClosedTrades}
    (hok : (calculateMetrics doublePowers
      { closedPnls := some closed.pnls, holdingBars := some closed.holding }).isOk = true)
    (hbars : ∀ bar ∈ closed.holding, InRange bar ∧ 0 ≤ bar) :
    SnapshotOf doublePowers closed (tradesSnapshot closed) := by
  obtain ⟨metrics, hmetrics⟩ := Except.isOk_iff.mp hok
  refine ⟨_, [], [], metrics, "zero", none, rfl, equityValues_nil, ?_, hmetrics, ?_⟩
  · refine Except.bind_eq_ok.mpr ⟨(), reject_eq_ok.mpr ?_, ?_⟩
    · rintro ⟨bar, hbar, hrange⟩
      exact hrange (hbars bar hbar).1
    · refine Except.bind_eq_ok.mpr ⟨(), reject_eq_ok.mpr ?_, rfl⟩
      rintro ⟨bar, hbar, hneg⟩
      exact absurd hneg (not_lt.mpr (hbars bar hbar).2)
  · rw [tradesSnapshot, hmetrics]
    rfl

/-- Two days of trades have the ledger of both together. -/
theorem trade_statistics_inverted_days :
    tradeLedger (tradesSnapshot bothDays) = .ok ⟨4, 2, 1, 5, 1, 4⟩ ∧
      reconcileStitchedMetrics (twoDays.map tradesSnapshot) (tradesSnapshot bothDays) =
        .ok ⟨4, 2, 1, 5, 1, 4⟩ := by
  have hparts : ∀ part ∈ twoDays.map fun closed => (closed, tradesSnapshot closed),
      SnapshotOf doublePowers part.1 part.2 := by
    intro part hpart
    simp only [twoDays, List.map_cons, List.map_nil, List.mem_cons, List.not_mem_nil,
      or_false] at hpart
    rcases hpart with rfl | rfl
    · exact snapshotOf_tradesSnapshot (by decide +kernel) (by decide +kernel)
    · exact snapshotOf_tradesSnapshot (by decide +kernel) (by decide +kernel)
  have hboth : SnapshotOf doublePowers bothDays (tradesSnapshot bothDays) :=
    snapshotOf_tradesSnapshot (by decide +kernel) (by decide +kernel)
  obtain ⟨hresult, -⟩ := (trade_statistics_inverted _).2 _ bothDays (tradesSnapshot bothDays) hparts
    hboth (by decide +kernel) (by decide +kernel)
    ⟨by decide +kernel, by decide +kernel, by decide +kernel, by decide +kernel⟩
  refine ⟨?_, hresult.trans (by decide +kernel)⟩
  exact ((trade_statistics_inverted _).1 _ _ hboth).trans (by decide +kernel)

end AutoBit.Reporting
