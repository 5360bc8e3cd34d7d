import AutoBit.Validation.Results
import Mathlib.Algebra.BigOperators.Group.List.Basic
import Mathlib.Tactic.Linarith
import Mathlib.Tactic.NormNum

/-!
# What an accepted result conserves

The closed trades are rebuilt from the fills, and the realized profit is that of the trades.
Every fill belongs to one closed trade, so that the final equity of an accepted result is the
first one and what its fills have paid, up to the tolerance of each comparison.
-/

namespace AutoBit.Validation

open Library Backtest
open Risk (Reading)

/-! ## Tolerances -/

/-- More values only raise a tolerance. -/
theorem quantityTolerance_cons_le (value : ℚ) (values : List ℚ) :
    quantityTolerance values ≤ quantityTolerance (value :: values) := by
  have hscale : toleranceScale 0 values ≤ toleranceScale 0 (value :: values) := by
    by_cases hrange : InRange value
    · rw [toleranceScale_cons_of_inRange hrange]
      exact toleranceScale_mono (le_max_left _ _) values
    · rw [toleranceScale, toleranceScale, List.filter_cons_of_neg (by simpa using hrange)]
  have hrelative : (0 : ℚ) ≤ quantityRelativeTolerance := by norm_num [quantityRelativeTolerance]
  rw [quantityTolerance_eq, quantityTolerance_eq]
  exact max_le_max_left _ (min_le_min_right _ (mul_le_mul_of_nonneg_right hscale hrelative))

/-- A quantity above the absolute tolerance is not close to zero. -/
theorem not_quantityClose_zero {quantity : ℚ} (h : quantityAbsoluteTolerance < quantity) :
    ¬quantityClose quantity 0 [] := by
  rintro ⟨hrange, -, hclose⟩
  have hpositive : (0 : ℚ) < quantityAbsoluteTolerance := by norm_num [quantityAbsoluteTolerance]
  have hscale : toleranceScale 0 [quantity, 0] = quantity := by
    rw [toleranceScale_cons_of_inRange hrange, toleranceScale_cons_of_inRange inRange_zero,
      abs_zero, abs_of_pos (hpositive.trans h), max_eq_right (hpositive.trans h).le,
      max_eq_left (hpositive.trans h).le]
    rfl
  have hrelative : quantity * quantityRelativeTolerance < quantity := by
    have hsmall : quantityRelativeTolerance < 1 := by norm_num [quantityRelativeTolerance]
    exact mul_lt_of_lt_one_right (hpositive.trans h) hsmall
  rw [sub_zero, quantityTolerance_eq, hscale, abs_of_pos (hpositive.trans h)] at hclose
  exact absurd hclose (not_le.mpr (max_lt h ((min_le_left _ _).trans_lt hrelative)))

/-- A quantity that is not close to zero exceeds the tolerance. -/
theorem lt_abs_of_not_quantityClose {quantity : ℚ} {scaleValues : List ℚ}
    (h : ¬quantityClose quantity 0 scaleValues) :
    quantityTolerance (quantity :: 0 :: scaleValues) < |quantity| := by
  by_cases hrange : InRange quantity
  · rw [quantityClose, sub_zero] at h
    exact not_le.mp fun hle => h ⟨hrange, inRange_zero, hle⟩
  · have hmax : quantityMaxTolerance < binary64Overflow := by decide +kernel
    exact (quantityTolerance_le _).trans_lt (hmax.trans_le (not_lt.mp hrange))

/-! ## The fills -/

/-- What a fill pays. -/
def FillEvidence.cashFlow (fill : FillEvidence) : ℚ :=
  (if fill.side = "BUY" then -fill.notional else fill.notional) - fill.fee

/-- The quantity that a fill adds to the inventory. -/
def FillEvidence.signedQuantity (fill : FillEvidence) : ℚ :=
  if fill.side = "BUY" then fill.quantity else -fill.quantity

/-- The fills of a lifecycle exceed the absolute tolerance. -/
theorem validateOrderLifecycle_quantity {lifecycle : List ValidatedOrderEvent} {last : OrderRecord}
    {fills : List (ℕ × FillEvidence)} (h : validateOrderLifecycle lifecycle = .ok (last, fills)) :
    ∀ entry ∈ fills, quantityAbsoluteTolerance < entry.2.quantity := by
  cases lifecycle with
  | nil => cases h
  | cons first rest =>
    obtain ⟨-, -, scan, hscan, rfl⟩ := validateOrderLifecycle_cons h
    refine foldlM_invariant
      (fun scan : LifecycleScan => ∀ entry ∈ scan.fills, quantityAbsoluteTolerance < entry.2.quantity)
      ?_ (by simp) hscan
    · intro scan scan' current _ hall hstep entry hentry
      obtain ⟨⟨⟩, -, hstep⟩ := Except.bind_eq_ok.mp hstep
      split at hstep
      · cases hstep
        exact hall entry hentry
      · rename_i hdelta
        obtain ⟨fill, hfill, hstep⟩ := Except.bind_eq_ok.mp hstep
        cases hstep
        rcases List.mem_append.mp hentry with hold | hnew
        · exact hall entry hold
        · obtain rfl := List.mem_singleton.mp hnew
          obtain ⟨_, -, hfill⟩ := Except.bind_eq_ok.mp hfill
          obtain ⟨_, -, hfill⟩ := Except.bind_eq_ok.mp hfill
          obtain ⟨_, -, hfill⟩ := Except.bind_eq_ok.mp hfill
          obtain ⟨⟨⟩, -, hfill⟩ := Except.bind_eq_ok.mp hfill
          cases hfill
          exact (le_quantityTolerance _).trans_lt (not_le.mp hdelta)

/-- What is looked up is one of the entries. -/
theorem mem_of_lookup {entries : List (ℕ × FillEvidence)} {ordinal : ℕ} {fill : FillEvidence}
    (h : entries.lookup ordinal = some fill) : (ordinal, fill) ∈ entries := by
  obtain ⟨before, after, rfl, -⟩ := List.lookup_eq_some_iff.mp h
  simp

/-- What an accepted order log says of its fills and of the cycles rebuilt from them. -/
structure Evidenced (evidence : OrderEvidence) : Prop where
  quantity : ∀ fill ∈ evidence.fills, quantityAbsoluteTolerance < fill.quantity
  covered : ∀ done, done <+: evidence.fills →
    -quantityMaxTolerance ≤ (done.map FillEvidence.signedQuantity).sum
  fees : closeEnough (evidence.fills.map FillEvidence.fee).sum evidence.totalFees
  slippage : closeEnough (evidence.fills.map FillEvidence.slippage).sum evidence.totalSlippage
  cycles : reconstructClosedTradeCycles evidence.fills = .ok evidence.cycles

/-- The inventory of the loop is what its fills have added, and it is never short. -/
theorem foldlM_inventoryStep {fills : List FillEvidence} {scan : InventoryScan}
    (h : fills.foldlM inventoryStep ⟨0, 0, 0⟩ = .ok scan) :
    scan.inventory = (fills.map FillEvidence.signedQuantity).sum ∧
      -quantityMaxTolerance ≤ scan.inventory := by
  induction fills using List.reverseRecOn generalizing scan with
  | nil =>
    cases h
    exact ⟨rfl, by norm_num [quantityMaxTolerance]⟩
  | append_singleton fills fill ih =>
    obtain ⟨before, hbefore, hlast⟩ := foldlM_snoc_eq_ok.mp h
    obtain ⟨hsum, -⟩ := ih hbefore
    obtain ⟨⟨⟩, hshort, hlast⟩ := Except.bind_eq_ok.mp hlast
    cases hlast
    rw [reject_eq_ok, not_lt] at hshort
    constructor
    · rw [List.map_append, List.sum_append, ← hsum]
      simp only [List.map_cons, List.map_nil, List.sum_cons, List.sum_nil, add_zero,
        FillEvidence.signedQuantity]
      split_ifs <;> ring
    · exact (neg_le_neg (quantityTolerance_le _)).trans hshort

/-- Orders that are accepted have their evidence. -/
theorem validateOrders_evidenced {index : List ℤ} {orders : List OrderRecord}
    {evidence : OrderEvidence} (h : validateOrders index orders = .ok evidence) :
    Evidenced evidence := by
  simp only [validateOrders, Except.bind_eq_ok, reject_eq_ok, not_not, Except.pure_eq_ok] at h
  obtain ⟨events, -, ⟨finalOrders, fillsByOrdinal⟩, hlifecycles, scan, hscan, -, hfees, -,
    hslippage, cycles, hcycles, rfl⟩ := h
  obtain ⟨results, hresults, hflat⟩ := Except.bind_eq_ok.mp hlifecycles
  cases hflat
  refine ⟨?_, ?_, hfees, hslippage, hcycles⟩
  · intro fill hfill
    obtain ⟨event, -, hlookup⟩ := List.mem_filterMap.mp hfill
    obtain ⟨result, hresult, hentry⟩ := List.mem_flatMap.mp (mem_of_lookup hlookup)
    obtain ⟨orderId, -, hlifecycle⟩ := forall₂_exists_left (mapM_eq_ok.mp hresults) hresult
    exact validateOrderLifecycle_quantity hlifecycle _ hentry
  · rintro done ⟨rest, hdone⟩
    have hsplit : (done ++ rest).foldlM inventoryStep ⟨0, 0, 0⟩ = .ok scan := by
      rw [hdone]
      exact hscan
    obtain ⟨before, hbefore, -⟩ := foldlM_append_eq_ok.mp hsplit
    obtain ⟨hsum, hcovered⟩ := foldlM_inventoryStep hbefore
    rwa [hsum] at hcovered

/-! ## The cycles -/

/-- What a closed trade has gained. -/
def ClosedTradeCycle.net (cycle : ClosedTradeCycle) : ℚ :=
  cycle.exitNotional - cycle.entryNotional - cycle.fees

/-- What the fills of the open trade have paid. -/
def CycleScan.openFlow (scan : CycleScan) : ℚ :=
  scan.exitNotional - scan.entryNotional - (scan.entryFees + scan.exitFees)

/-- What the loop over the fills has rebuilt of those it has seen: they have paid what the closed
and the open trade have gained, the quantities of the closed trades match up to the tolerance,
and the open trade holds more than nothing. -/
structure Rebuilt (done : List FillEvidence) (scan : CycleScan) : Prop where
  flow : (scan.cycles.map ClosedTradeCycle.net).sum + scan.openFlow =
    (done.map FillEvidence.cashFlow).sum
  inventory : |(done.map FillEvidence.signedQuantity).sum - scan.inventory| ≤
    scan.cycles.length * quantityMaxTolerance
  holds : (scan.inventory = 0 ∧ scan.openFlow = 0) ∨ quantityAbsoluteTolerance < scan.inventory

/-- One fill is rebuilt. -/
theorem Rebuilt.step {done : List FillEvidence} {fill : FillEvidence} {scan scan' : CycleScan}
    (h : Rebuilt done scan) (hquantity : quantityAbsoluteTolerance < fill.quantity)
    (hstep : cycleStep scan fill = .ok scan') : Rebuilt (done ++ [fill]) scan' := by
  have hpositive : (0 : ℚ) < quantityAbsoluteTolerance := by norm_num [quantityAbsoluteTolerance]
  have hflow : ((done ++ [fill]).map FillEvidence.cashFlow).sum =
      (done.map FillEvidence.cashFlow).sum + fill.cashFlow := by simp
  have hadded : ((done ++ [fill]).map FillEvidence.signedQuantity).sum =
      (done.map FillEvidence.signedQuantity).sum + fill.signedQuantity := by simp
  have hinventory : 0 ≤ scan.inventory := by
    rcases h.holds with ⟨hzero, -⟩ | hheld <;> linarith
  unfold cycleStep at hstep
  split at hstep
  · rename_i hbuy
    cases hstep
    refine ⟨?_, ?_, ?_⟩
    · rw [hflow, ← h.flow, FillEvidence.cashFlow, if_pos hbuy]
      simp only [CycleScan.openFlow]
      ring
    · rw [hadded, FillEvidence.signedQuantity, if_pos hbuy]
      simpa using h.inventory
    · right
      dsimp only
      linarith
  · rename_i hsell
    simp only [Except.bind_eq_ok, reject_eq_ok, not_lt] at hstep
    obtain ⟨-, hshort, hstep⟩ := hstep
    split at hstep
    · -- the trade stays open
      rename_i hopen
      cases hstep
      refine ⟨?_, ?_, ?_⟩
      · rw [hflow, ← h.flow, FillEvidence.cashFlow, if_neg hsell]
        simp only [CycleScan.openFlow]
        ring
      · rw [hadded, FillEvidence.signedQuantity, if_neg hsell]
        simpa [sub_eq_add_neg, add_assoc, add_comm, add_left_comm] using h.inventory
      · right
        dsimp only at hopen hshort ⊢
        have hopen := lt_abs_of_not_quantityClose hopen
        have hmore := (quantityTolerance_cons_le 0 [scan.entryQuantity,
          scan.exitQuantity + fill.quantity]).trans (quantityTolerance_cons_le
            (scan.inventory - fill.quantity) _)
        have hbound := le_quantityTolerance [scan.entryQuantity,
          scan.exitQuantity + fill.quantity]
        rcases lt_abs.mp hopen with hlong | hlacking <;> linarith
    · rename_i hclosed
      rw [not_not] at hclosed
      simp only [Except.bind_eq_ok, require_eq_ok, reject_eq_ok, not_not, Except.pure_eq_ok] at hstep
      obtain ⟨entryTime, -, -, -, rfl⟩ := hstep
      have hlevel : |scan.inventory - fill.quantity| ≤ quantityMaxTolerance := by
        have hclose := hclosed.2.2
        rw [sub_zero] at hclose
        exact hclose.trans (quantityTolerance_le _)
      refine ⟨?_, ?_, .inl ⟨rfl, ?_⟩⟩
      · rw [hflow, ← h.flow, FillEvidence.cashFlow, if_neg hsell]
        simp only [CycleScan.openFlow, List.map_append, List.sum_append, List.map_cons,
          List.map_nil, List.sum_cons, List.sum_nil, ClosedTradeCycle.net]
        ring
      · rw [hadded, FillEvidence.signedQuantity, if_neg hsell, List.length_append,
          List.length_singleton]
        have hsum := abs_add_le ((done.map FillEvidence.signedQuantity).sum - scan.inventory)
          (scan.inventory - fill.quantity)
        have hbefore := h.inventory
        push_cast
        have hsame : (done.map FillEvidence.signedQuantity).sum + -fill.quantity - 0 =
            (done.map FillEvidence.signedQuantity).sum - scan.inventory +
              (scan.inventory - fill.quantity) := by ring
        rw [hsame]
        linarith
      · simp [CycleScan.openFlow]

/-- The closed trades have gained what all fills have paid, and their quantities match. -/
theorem reconstructClosedTradeCycles_flow {fills : List FillEvidence}
    {cycles : List ClosedTradeCycle}
    (hquantity : ∀ fill ∈ fills, quantityAbsoluteTolerance < fill.quantity)
    (h : reconstructClosedTradeCycles fills = .ok cycles) :
    (cycles.map ClosedTradeCycle.net).sum = (fills.map FillEvidence.cashFlow).sum ∧
      |(fills.map FillEvidence.signedQuantity).sum| ≤ cycles.length * quantityMaxTolerance := by
  simp only [reconstructClosedTradeCycles, Except.bind_eq_ok, reject_eq_ok, not_not,
    Except.pure_eq_ok] at h
  obtain ⟨scan, hscan, -, hclosed, rfl⟩ := h
  have hrebuilt : Rebuilt fills scan := by
    clear hclosed
    induction fills using List.reverseRecOn generalizing scan with
    | nil =>
      cases hscan
      exact ⟨by simp [CycleScan.openFlow], by simp, .inl ⟨rfl, by simp [CycleScan.openFlow]⟩⟩
    | append_singleton fills fill ih =>
      obtain ⟨before, hbefore, hlast⟩ := foldlM_snoc_eq_ok.mp hscan
      have hdone := ih (fun f hf => hquantity f (List.mem_append_left _ hf)) before hbefore
      exact hdone.step (hquantity fill (by simp)) hlast
  rcases hrebuilt.holds with ⟨hzero, hnothing⟩ | hheld
  · refine ⟨?_, ?_⟩
    · rw [← hrebuilt.flow, hnothing, add_zero]
    · have hinventory := hrebuilt.inventory
      rwa [hzero, sub_zero] at hinventory
  · exact absurd hclosed (not_quantityClose_zero hheld)

/-! ## The stated trades -/

/-- What the checks say of a trade and its cycle. -/
structure Stated (index : List ℤ) (fills : List FillEvidence) (trade : TradeRecord)
    (cycle : ClosedTradeCycle) : Prop where
  valid : trade.Valid
  bought : trade.entryTime ∈ index ∧ ∃ fill ∈ fills, fill.side = "BUY" ∧
    fill.timestamp = trade.entryTime
  sold : trade.exitTime ∈ index ∧ ∃ fill ∈ fills, fill.side = "SELL" ∧
    fill.timestamp = trade.exitTime
  net : closeEnough trade.netPnl cycle.net

/-- A timestamp is accepted exactly when it is one of the phase. -/
theorem phaseTimestamp_eq_ok {index : List ℤ} {time time' : ℤ} {name : String} :
    phaseTimestamp index time name = .ok time' ↔ time ∈ index ∧ time = time' := by
  simp [phaseTimestamp]

/-- A trade is accepted when it states its cycle and comes after the one before. -/
theorem checkTrade_eq_ok {index : List ℤ} {fills : List FillEvidence} {scan scan' : TradeScan}
    {pair : TradeRecord × ClosedTradeCycle} (h : checkTrade index fills scan pair = .ok scan') :
    Stated index fills pair.1 pair.2 ∧
      (∀ previousExit ∈ scan.previousExit, previousExit ≤ pair.1.entryTime) ∧
      scan'.previousExit = some pair.1.exitTime ∧
      scan'.realizedNetPnl = scan.realizedNetPnl + pair.1.netPnl := by
  obtain ⟨trade, cycle⟩ := pair
  simp only [checkTrade, Except.bind_eq_ok, reject_eq_ok, phaseTimestamp_eq_ok, not_or, not_not,
    not_le, not_lt, Except.pure_eq_ok] at h
  obtain ⟨-, -, -, ⟨hquantity, hentryPrice, hexitPrice, hfees⟩, entryTime, ⟨hentry, rfl⟩, exitTime,
    ⟨hexit, rfl⟩, -, hordered, -, hlater, -, ⟨hbought, hsold⟩, -, hcycle, -, -, -, -, -, -, rfl⟩ := h
  refine ⟨⟨⟨hordered, hquantity.le, hentryPrice.le, hexitPrice.le, hfees⟩, ⟨hentry, hbought⟩,
    ⟨hexit, hsold⟩, hcycle.2.2.2.2.2.2.2⟩, ?_, rfl, rfl⟩
  intro previousExit hprevious
  by_contra hoverlap
  exact hlater ⟨previousExit, hprevious, not_le.mp hoverlap⟩

/-- The loop over the trades adds up what each states, and they follow each other. -/
theorem foldlM_checkTrade {index : List ℤ} {fills : List FillEvidence}
    {pairs : List (TradeRecord × ClosedTradeCycle)} {scan : TradeScan}
    (h : pairs.foldlM (checkTrade index fills) ⟨none, 0, 0, 0⟩ = .ok scan) :
    (∀ pair ∈ pairs, Stated index fills pair.1 pair.2) ∧
      (pairs.map Prod.fst).IsChain (fun earlier later => earlier.exitTime ≤ later.entryTime) ∧
      scan.previousExit = (pairs.map Prod.fst).getLast?.map TradeRecord.exitTime ∧
      scan.realizedNetPnl = (pairs.map fun pair => pair.1.netPnl).sum := by
  induction pairs using List.reverseRecOn generalizing scan with
  | nil =>
    cases h
    simp
  | append_singleton pairs pair ih =>
    obtain ⟨before, hbefore, hlast⟩ := foldlM_snoc_eq_ok.mp h
    obtain ⟨hstated, hchain, hprevious, hsum⟩ := ih hbefore
    obtain ⟨hpair, hlater, hexit, hadded⟩ := checkTrade_eq_ok hlast
    refine ⟨?_, ?_, ?_, ?_⟩
    · intro other hother
      rcases List.mem_append.mp hother with hold | hnew
      · exact hstated other hold
      · obtain rfl := List.mem_singleton.mp hnew
        exact hpair
    · rw [List.map_append, List.isChain_append]
      refine ⟨hchain, by simp, ?_⟩
      intro earlier hearlier later hlater'
      obtain rfl : pair.1 = later := by simpa using hlater'
      apply hlater
      rw [hprevious, Option.mem_def.mp hearlier]
      rfl
    · rw [hexit]
      simp
    · rw [hadded, hsum]
      simp

/-- Accepted trades are one for each cycle, and their profits make up the realized one. -/
theorem validateTrades_eq_ok {index : List ℤ} {trades : List TradeRecord}
    {evidence : OrderEvidence} {realized : ℚ}
    (h : validateTrades index trades evidence = .ok realized) :
    trades.length = evidence.cycles.length ∧
      (∀ pair ∈ trades.zip evidence.cycles, Stated index evidence.fills pair.1 pair.2) ∧
      (trades.IsChain fun earlier later => earlier.exitTime ≤ later.entryTime) ∧
      realized = ((trades.zip evidence.cycles).map fun pair => pair.1.netPnl).sum := by
  simp only [validateTrades, Except.bind_eq_ok, reject_eq_ok, not_not, Except.pure_eq_ok] at h
  obtain ⟨-, hlength, scan, hscan, -, -, -, -, rfl⟩ := h
  obtain ⟨hstated, hchain, -, hpnl⟩ := foldlM_checkTrade hscan
  rw [List.map_fst_zip hlength.le] at hchain
  exact ⟨hlength, hstated, hchain, hpnl⟩

/-- Sums of close numbers differ by no more than the tolerance of each. -/
theorem sum_closeEnough {α : Type} {xs : List α} {f g : α → ℚ}
    (h : ∀ x ∈ xs, closeEnough (f x) (g x)) :
    |(xs.map f).sum - (xs.map g).sum| ≤ xs.length * reconciliationTolerance := by
  induction xs with
  | nil => simp
  | cons x xs ih =>
    have hhead : |f x - g x| ≤ reconciliationTolerance := (h x List.mem_cons_self).2.2
    have htail := ih fun y hy => h y (List.mem_cons_of_mem x hy)
    have hsum := abs_add_le (f x - g x) ((xs.map f).sum - (xs.map g).sum)
    simp only [List.map_cons, List.sum_cons, List.length_cons]
    push_cast
    have hsame : f x + (xs.map f).sum - (g x + (xs.map g).sum) =
        f x - g x + ((xs.map f).sum - (xs.map g).sum) := by ring
    rw [hsame]
    linarith

/-- Two values that are close to a third are within twice the tolerance. -/
theorem closeEnough.trans {a b c : ℚ} (hab : closeEnough a b) (hbc : closeEnough c b) :
    |a - c| ≤ 2 * reconciliationTolerance := by
  have hsum := abs_sub_le a b c
  have hleft := hab.2.2
  have hright := hbc.2.2
  rw [abs_sub_comm b c] at hsum
  linarith

/-! ## The equity curve -/

/-- The loop over the points: they are never negative, in the phase and without recovery. -/
theorem foldlM_checkEquityPoint {request : BacktestRequest} {points : List EquityPoint}
    {scan scan' : EquityScan} (h : points.foldlM (checkEquityPoint request) scan = .ok scan') :
    scan'.timestamps = scan.timestamps ++ points.map EquityPoint.timestamp ∧
      (∀ point ∈ points, 0 ≤ point.equity ∧ point.timestamp ∈ request.index) ∧
      (scan.previousEquity = none →
        ∀ first ∈ points.head?, closeEnough first.equity request.initialEquity) ∧
      (scan.previousEquity = some 0 → ∀ first ∈ points.head?, first.equity = 0) ∧
      ∀ pair ∈ points.zip points.tail, pair.1.equity = 0 → pair.2.equity = 0 := by
  induction points generalizing scan with
  | nil =>
    cases h
    simp
  | cons point points ih =>
    rw [List.foldlM_cons, Except.bind_eq_ok] at h
    obtain ⟨next, hpoint, hrest⟩ := h
    simp only [checkEquityPoint, Except.bind_eq_ok, reject_eq_ok, phaseTimestamp_eq_ok, not_or,
      not_lt, Except.pure_eq_ok] at hpoint
    obtain ⟨-, ⟨-, hnonneg⟩, -, hstarted, -, habsorbed, timestamp, ⟨hinside, rfl⟩, rfl⟩ := hpoint
    obtain ⟨htimes, hall, -, hzero, hpairs⟩ := ih hrest
    refine ⟨by simp [htimes], ?_, ?_, ?_, ?_⟩
    · intro other hother
      rcases List.mem_cons.mp hother with rfl | hlater
      · exact ⟨hnonneg, hinside⟩
      · exact hall other hlater
    · intro hnone first hfirst
      obtain rfl : point = first := by simpa using hfirst
      by_contra hfar
      exact hstarted ⟨hnone, hfar⟩
    · intro hbankrupt first hfirst
      obtain rfl : point = first := by simpa using hfirst
      by_contra hrecovered
      exact habsorbed ⟨hbankrupt, lt_of_le_of_ne hnonneg (Ne.symm hrecovered)⟩
    · cases points with
      | nil => simp
      | cons second points =>
        intro pair hpair hbankrupt
        rw [List.tail_cons, List.zip_cons_cons] at hpair
        rcases List.mem_cons.mp hpair with rfl | hlater
        · exact hzero (congrArg some hbankrupt) second (by simp)
        · exact hpairs pair hlater hbankrupt

/-- Steps that all go forward make an increasing row. -/
theorem pairwise_of_zip_tail {times : List ℤ}
    (h : ∀ pair ∈ times.zip times.tail, pair.1 < pair.2) : times.Pairwise (· < ·) := by
  rw [← List.isChain_iff_pairwise]
  induction times with
  | nil => exact List.IsChain.nil
  | cons first rest ih =>
    cases rest with
    | nil => exact List.IsChain.singleton first
    | cons second rest =>
      rw [List.tail_cons, List.zip_cons_cons] at h
      refine List.IsChain.cons_cons (h (first, second) List.mem_cons_self) (ih ?_)
      exact fun pair hpair => h pair (List.mem_cons_of_mem _ hpair)

/-- An accepted curve is a fold curve in its phase, and it ends at the final equity. -/
theorem validateEquity_eq_ok {result : BacktestResult} {request : BacktestRequest}
    (hinitial : 0 < request.initialEquity - reconciliationTolerance)
    (h : validateEquity result request = .ok ()) :
    FoldCurve result.equityCurve ∧ result.equityCurve ≠ [] ∧
      (∀ point ∈ result.equityCurve, point.timestamp ∈ request.index) ∧
      ∀ last ∈ result.equityCurve.getLast?, closeEnough last.equity result.finalEquity := by
  simp only [validateEquity, Except.bind_eq_ok, reject_eq_ok] at h
  obtain ⟨-, hnonempty, scan, hscan, -, hincreasing, hlast⟩ := h
  obtain ⟨htimes, hall, hstarted, -, habsorbed⟩ := foldlM_checkEquityPoint hscan
  rw [List.nil_append] at htimes
  rw [htimes] at hincreasing
  refine ⟨⟨⟨?_, fun point hpoint => (hall point hpoint).1, ?_⟩, habsorbed⟩, hnonempty,
    fun point hpoint => (hall point hpoint).2, ?_⟩
  · rw [← List.pairwise_map]
    apply pairwise_of_zip_tail
    intro pair hpair
    by_contra hback
    exact hincreasing ⟨pair, hpair, not_lt.mp hback⟩
  · intro first hfirst
    have hclose := (abs_le.mp (hstarted rfl first hfirst).2.2).1
    linarith
  · intro last hmem
    by_contra hfar
    exact hlast ⟨last, hmem, hfar⟩

/-! ## An accepted result -/

/-- What a later reader of an accepted result relies on: its curve is a fold curve in the phase,
its trades are valid and its slippage is nonnegative. -/
structure Readable (result : BacktestResult) (request : BacktestRequest) : Prop where
  curve : FoldCurve result.equityCurve
  nonempty : result.equityCurve ≠ []
  inside : ∀ point ∈ result.equityCurve, point.timestamp ∈ request.index
  trades : ∀ trade ∈ result.trades, trade.Valid
  slippage : 0 ≤ result.totalSlippage

/-- An accepted result is readable. -/
theorem validateBacktestResult_readable {result : BacktestResult} {request : BacktestRequest}
    (hinitial : 0 < request.initialEquity - reconciliationTolerance)
    (h : validateBacktestResult result request = .ok ()) : Readable result request := by
  simp only [validateBacktestResult, Except.bind_eq_ok, reject_eq_ok, not_or, not_lt] at h
  obtain ⟨-, -, -, -, -, ⟨-, -, hslippage⟩, ⟨⟩, hequity, evidence, -, realized, htrades, -⟩ := h
  obtain ⟨hcurve, hnonempty, hinside, -⟩ := validateEquity_eq_ok hinitial hequity
  obtain ⟨hlength, hstated, -, -⟩ := validateTrades_eq_ok htrades
  refine ⟨hcurve, hnonempty, hinside, ?_, hslippage⟩
  intro trade htrade
  rw [← List.map_fst_zip hlength.le] at htrade
  obtain ⟨pair, hpair, rfl⟩ := List.mem_map.mp htrade
  exact (hstated pair hpair).valid

/-- What an accepted result conserves, by the evidence of its order log. -/
structure Conserves (result : BacktestResult) (request : BacktestRequest)
    (evidence : OrderEvidence) : Prop where
  cash : |result.finalEquity -
      (request.initialEquity + (evidence.fills.map FillEvidence.cashFlow).sum)| ≤
    (result.trades.length + 1) * reconciliationTolerance
  bitcoin : |(evidence.fills.map FillEvidence.signedQuantity).sum| ≤
    result.trades.length * quantityMaxTolerance
  covered : ∀ done, done <+: evidence.fills →
    -quantityMaxTolerance ≤ (done.map FillEvidence.signedQuantity).sum
  fees : |result.totalFees - (evidence.fills.map FillEvidence.fee).sum| ≤
    2 * reconciliationTolerance
  slippage : |result.totalSlippage - (evidence.fills.map FillEvidence.slippage).sum| ≤
    2 * reconciliationTolerance
  ordered : result.trades.IsChain fun earlier later => earlier.exitTime ≤ later.entryTime
  trades : ∀ trade ∈ result.trades, ∃ cycle ∈ evidence.cycles,
    Stated request.index evidence.fills trade cycle

/-- What `_validate_backtest_result` accepts conserves cash and bitcoin. Up to the tolerance of
one comparison for each trade and one more, the final equity is the first one and what the fills
of the order log have paid; as much is sold as was bought and never more; the stated fees and
slippage are those of the fills, and the stated trades follow each other from a purchase to a
sale of the log. -/
theorem accepted_result_conserves {result : BacktestResult} {request : BacktestRequest}
    (h : validateBacktestResult result request = .ok ()) :
    ∃ evidence, validateOrders request.index result.orders = .ok evidence ∧
      Conserves result request evidence := by
  simp only [validateBacktestResult, Except.bind_eq_ok, reject_eq_ok, not_not] at h
  obtain ⟨-, -, -, -, -, -, -, -, evidence, hevidence, realized, htrades, ⟨⟩, hreconciled, hfinal⟩ := h
  obtain ⟨hlength, hstated, hchain, rfl⟩ := validateTrades_eq_ok htrades
  simp only [validateReconciliation, Except.bind_eq_ok, reject_eq_ok, not_not] at hreconciled
  obtain ⟨-, hfees, hslippage⟩ := hreconciled
  have hevidenced := validateOrders_evidenced hevidence
  obtain ⟨hflow, hbitcoin⟩ :=
    reconstructClosedTradeCycles_flow hevidenced.quantity hevidenced.cycles
  have hfirst : (result.trades.zip evidence.cycles).map Prod.fst = result.trades :=
    List.map_fst_zip hlength.le
  have hsecond : (result.trades.zip evidence.cycles).map Prod.snd = evidence.cycles :=
    List.map_snd_zip hlength.ge
  have hcount : (result.trades.zip evidence.cycles).length = result.trades.length := by
    rw [List.length_zip, ← hlength, min_self]
  refine ⟨evidence, hevidence, ?_, ?_, hevidenced.covered, ?_, ?_, hchain, ?_⟩
  · -- each stated profit is close to that of its cycle
    have hsum := sum_closeEnough fun pair hpair => (hstated pair hpair).net
    have hnet : ((result.trades.zip evidence.cycles).map fun pair => pair.2.net).sum =
        (evidence.fills.map FillEvidence.cashFlow).sum := by
      rw [← hflow, ← hsecond, List.map_map]
      simp only [Function.comp_def, hsecond]
    rw [hnet, hcount] at hsum
    have hclose := abs_sub_le result.finalEquity
      (request.initialEquity +
        ((result.trades.zip evidence.cycles).map fun pair => pair.1.netPnl).sum)
      (request.initialEquity + (evidence.fills.map FillEvidence.cashFlow).sum)
    have hfinal := hfinal.2.2
    rw [add_sub_add_left_eq_sub] at hclose
    linarith
  · rwa [hlength]
  · exact hfees.trans hevidenced.fees
  · exact hslippage.trans hevidenced.slippage
  · intro trade htrade
    rw [← hfirst] at htrade
    obtain ⟨pair, hpair, rfl⟩ := List.mem_map.mp htrade
    exact ⟨pair.2, (List.of_mem_zip hpair).2, hstated pair hpair⟩

/-- A row with one price. -/
def flatRow (time : ℤ) (price : ℚ) : ExecutionRow where
  time := time
  values := ⟨.number price, .number price, .number price, .number price, .number 1⟩
  isQuarantined := false
  isFilled := false
  segmentId := 0
  anomalySpike := false
  anomalyFlat := true
  entryDataValid := false
  ema := .nan
  atr := .nan
  baselineAtrPct := .nan
  entryHigh := .nan
  exitLow := .nan
  previousClose := .nan
  previousEntryHigh := .nan
  warmupComplete := false
  executionSegmentId := 0

/-- A request over four rows. -/
def fourRows : BacktestRequest where
  phase := .oos
  foldId := "fold-000"
  trialId := "baseline"
  trial := ⟨"baseline", 200, 50, 20, 14, 25 / 10⟩
  costId := "zero"
  cost := ⟨"zero", 0, 0⟩
  frame := [flatRow 0 50, flatRow 1000 50, flatRow 2000 60, flatRow 3000 60]
  config := { forceLiquidateAtEnd := true }
  initialEquity := 100
  initialState := .flat
  pendingOrders := 0

/-- A purchase at 50 and a sale at 60. -/
def oneTrade : BacktestResult where
  equityCurve := [⟨0, 100⟩, ⟨1, 100⟩, ⟨2, 110⟩, ⟨3, 110⟩]
  orders := marketOrder "1" "BUY" 1 50 0 1 ++ marketOrder "2" "SELL" 1 60 2 3
  trades := [⟨1, 3, 1, 50, 60, 10, 10, 0, "TIME_EXIT"⟩]
  finalEquity := 110
  totalFees := 0
  totalSlippage := 0

/-- The result with one trade is conserved. -/
theorem accepted_result_conserves_one_trade :
    ∃ evidence, validateOrders fourRows.index oneTrade.orders = .ok evidence ∧
      Conserves oneTrade fourRows evidence := by
  have haccepted : (validateBacktestResult oneTrade fourRows).toOption = some () := by
    decide +kernel
  exact accepted_result_conserves (Except.toOption_eq_some.mp haccepted)

end AutoBit.Validation
