import AutoBit.Strategy.Engine
import Mathlib.Data.List.Induction

/-!
# The trailing stop of one position

A position is carried over its completed bars: the stop that a decision returns becomes the
current stop, and the high water is the running maximum of the highs. The exits and the
volatility term may change from bar to bar; the stop only rises.
-/

namespace AutoBit.Strategy

open Risk

/-- What one completed bar presents to the engine next to the prices of the position. -/
structure PositionBar where
  row : Row
  cash : ℚ
  equity : ℚ
  quantity : ℚ
  heldBars : ℤ
  hasPendingOrder : Bool
  risk : RiskDecision

/-- The position that the engine sees on a bar. -/
def PositionContext.on (position : PositionContext) (bar : PositionBar) : PositionContext :=
  { position with quantity := bar.quantity, heldBars := bar.heldBars }

/-- `StrategyEngine.decide` for the position on a bar. -/
def decideBar (strategy : StrategyConfig) (costs : CostConfig) (position : PositionContext)
    (bar : PositionBar) : Decision :=
  decide strategy costs ⟨bar.row, bar.cash, bar.equity, some (position.on bar),
    bar.hasPendingOrder, bar.risk⟩

/-- The position after a bar: the returned stop is adopted and the high water is raised. -/
def adopt (strategy : StrategyConfig) (costs : CostConfig) (position : PositionContext)
    (bar : PositionBar) : PositionContext :=
  { position.on bar with
    currentStop := (decideBar strategy costs position bar).nextStop.getD position.currentStop
    highWater := runningHigh position bar.row }

/-- The position after the first `n` bars. -/
def held (strategy : StrategyConfig) (costs : CostConfig) (opened : PositionContext)
    (bars : List PositionBar) (n : ℕ) : PositionContext :=
  (bars.take n).foldl (adopt strategy costs) opened

/-- The running high that activates the trailing stop. -/
def activation (strategy : StrategyConfig) (position : PositionContext) : ℚ :=
  position.entryPrice + strategy.profitActivationR * (position.entryPrice - position.initialStop)

variable {strategy : StrategyConfig} {costs : CostConfig} {position opened : PositionContext}
  {bar : PositionBar} {bars : List PositionBar} {n m : ℕ}

/-! ## One decision -/

/-- A decision for a position sells the whole of it, holds it as it is, or returns a stop for
a valid position without a pending order. -/
theorem decidePosition_cases (strategy : StrategyConfig) (s : DecisionInput)
    (position : PositionContext) :
    (∃ reason, decidePosition strategy s position =
      ⟨.sell reason position.quantity, none, s.risk⟩) ∨
    (decidePosition strategy s position = ⟨.hold, none, s.risk⟩ ∧
      (position.quantity ≤ 0 ∨ s.hasPendingOrder = true)) ∨
    (decidePosition strategy s position = ⟨.hold, some (nextStop
        { position with highWater := runningHigh position s.row } s.row strategy), s.risk⟩ ∧
      validPosition position = true ∧ s.hasPendingOrder = false) := by
  unfold decidePosition
  dsimp only
  by_cases hquantity : position.quantity ≤ 0
  · rw [if_pos hquantity]
    exact .inr (.inl ⟨rfl, .inl hquantity⟩)
  rw [if_neg hquantity]
  cases forcedExitReason s.risk with
  | some reason => exact .inl ⟨reason, rfl⟩
  | none =>
    dsimp only
    by_cases hvalid : validPosition position = true
    · rw [if_neg (by simp [hvalid])]
      by_cases hpending : s.hasPendingOrder = true
      · rw [if_pos hpending]
        exact .inr (.inl ⟨rfl, .inr hpending⟩)
      · rw [if_neg hpending]
        split_ifs
        · exact .inl ⟨_, rfl⟩
        · exact .inl ⟨_, rfl⟩
        · exact .inl ⟨_, rfl⟩
        · exact .inr (.inr ⟨rfl, hvalid, Bool.eq_false_of_not_eq_true hpending⟩)
    · rw [if_pos (by simp [hvalid])]
      exact .inl ⟨_, rfl⟩

/-- The running high never falls. -/
theorem highWater_le_runningHigh (position : PositionContext) (row : Row) :
    position.highWater ≤ runningHigh position row := by
  unfold runningHigh
  split
  · split_ifs
    · exact le_max_left _ _
    · exact le_refl _
  · exact le_refl _

/-- The next stop is never below the current one. -/
theorem currentStop_le_nextStop (position : PositionContext) (row : Row)
    (strategy : StrategyConfig) : position.currentStop ≤ nextStop position row strategy := by
  unfold nextStop
  split
  · exact le_refl _
  · dsimp only
    split_ifs
    · exact le_refl _
    · exact le_refl _
    · split
      · exact le_refl _
      · split_ifs
        · exact le_refl _
        · exact (le_max_left _ _).trans (le_max_left _ _)

/-- Below the activation the stop stays. -/
theorem nextStop_of_lt {row : Row}
    (h : ∀ high ∈ row.high, max position.highWater high < activation strategy position) :
    nextStop position row strategy = position.currentStop := by
  unfold nextStop
  split
  · rfl
  · rename_i high hhigh
    dsimp only
    split_ifs with hunit hlt
    · rfl
    · rfl
    · exact absurd (h high hhigh) hlt

/-- From the activation on the stop covers the entry. -/
theorem entryPrice_le_nextStop {row : Row} {high atr : ℚ} (hhigh : row.high = some high)
    (hatr : row.atr = some atr) (hpositive : 0 < atr)
    (hrisk : position.initialStop < position.entryPrice)
    (h : activation strategy position ≤ max position.highWater high) :
    position.entryPrice ≤ nextStop position row strategy := by
  have hunit : ¬position.entryPrice - position.initialStop ≤ 0 := by
    rw [not_le, sub_pos]
    exact hrisk
  unfold activation at h
  unfold nextStop
  rw [hhigh]
  dsimp only
  rw [if_neg hunit, if_neg (not_lt.mpr h), hatr]
  dsimp only
  rw [if_neg (not_le.mpr hpositive)]
  exact (le_max_right _ _).trans (le_max_left _ _)

/-- The running high takes in every high of a position with a positive high water. -/
theorem max_runningHigh {row : Row} {high : ℚ} (hhigh : row.high = some high)
    (hwater : 0 < position.highWater) :
    max (runningHigh position row) high = runningHigh position row := by
  unfold runningHigh
  rw [hhigh]
  dsimp only
  split_ifs with hpositive
  · exact max_eq_left (le_max_right _ _)
  · exact max_eq_left ((not_lt.mp hpositive).trans hwater.le)

/-! ## One bar -/

/-- What the stop of a bar is, by what the decision says. -/
theorem adopt_cases (strategy : StrategyConfig) (costs : CostConfig) (position : PositionContext)
    (bar : PositionBar) :
    ((adopt strategy costs position bar).currentStop = position.currentStop ∧
      ((decideBar strategy costs position bar).action = .hold →
        bar.quantity ≤ 0 ∨ bar.hasPendingOrder = true)) ∨
    ((adopt strategy costs position bar).currentStop = nextStop
        { position.on bar with highWater := runningHigh position bar.row } bar.row strategy ∧
      validPosition (position.on bar) = true) := by
  have hcases := decidePosition_cases strategy ⟨bar.row, bar.cash, bar.equity,
    some (position.on bar), bar.hasPendingOrder, bar.risk⟩ (position.on bar)
  rcases hcases with ⟨reason, hsell⟩ | ⟨hhold, hwhy⟩ | ⟨hstop, hvalid, -⟩
  · refine .inl ⟨?_, ?_⟩
    · simp only [adopt, decideBar, decide, hsell, Option.getD_none]
    · intro haction
      simp only [decideBar, decide, hsell] at haction
      cases haction
  · refine .inl ⟨?_, fun _ => hwhy⟩
    simp only [adopt, decideBar, decide, hhold, Option.getD_none]
  · refine .inr ⟨?_, hvalid⟩
    simp only [adopt, decideBar, decide, hstop, Option.getD_some]
    rfl

/-- A bar never lowers the stop. -/
theorem currentStop_le_adopt (strategy : StrategyConfig) (costs : CostConfig)
    (position : PositionContext) (bar : PositionBar) :
    position.currentStop ≤ (adopt strategy costs position bar).currentStop := by
  rcases adopt_cases strategy costs position bar with ⟨hkept, -⟩ | ⟨hset, -⟩
  · exact hkept.ge
  · rw [hset]
    exact currentStop_le_nextStop
      { position.on bar with highWater := runningHigh position bar.row } bar.row strategy

/-- A bar keeps the stop as long as the running high does not activate it. -/
theorem adopt_dormant
    (h : (adopt strategy costs position bar).highWater < activation strategy position) :
    (adopt strategy costs position bar).currentStop = position.currentStop := by
  rcases adopt_cases strategy costs position bar with ⟨hkept, -⟩ | ⟨hset, hvalid⟩
  · exact hkept
  · obtain ⟨-, -, -, hwater, -, -, -, -⟩ := of_decide_eq_true hvalid
    rw [hset]
    apply nextStop_of_lt
    intro high hhigh
    have hmax : max (runningHigh position bar.row) high = runningHigh position bar.row :=
      max_runningHigh hhigh hwater
    exact hmax.trans_lt h

/-- A bar that settles the stop of an active position: the engine holds it without a pending
order, on a high and a positive ATR. -/
structure PositionBar.Settles (strategy : StrategyConfig) (costs : CostConfig)
    (position : PositionContext) (bar : PositionBar) : Prop where
  holds : (decideBar strategy costs position bar).action = .hold
  quantity : 0 < bar.quantity
  noPendingOrder : bar.hasPendingOrder = false
  high : bar.row.high.isSome = true
  atr : ∃ atr ∈ bar.row.atr, 0 < atr

/-- Such a bar lifts the stop of an active position to the entry price. -/
theorem entryPrice_le_adopt (hbar : bar.Settles strategy costs position)
    (h : activation strategy position ≤ (adopt strategy costs position bar).highWater) :
    position.entryPrice ≤ (adopt strategy costs position bar).currentStop := by
  rcases adopt_cases strategy costs position bar with ⟨-, hwhy⟩ | ⟨hset, hvalid⟩
  · rcases hwhy hbar.holds with hquantity | hpending
    · exact absurd hbar.quantity (not_lt.mpr hquantity)
    · rw [hbar.noPendingOrder] at hpending
      cases hpending
  · obtain ⟨-, -, -, hwater, -, hrisk, -, -⟩ := of_decide_eq_true hvalid
    obtain ⟨high, hhigh⟩ := Option.isSome_iff_exists.mp hbar.high
    obtain ⟨atr, hatr, hpositive⟩ := hbar.atr
    have hmax : max (runningHigh position bar.row) high = runningHigh position bar.row :=
      max_runningHigh hhigh hwater
    rw [hset]
    exact entryPrice_le_nextStop hhigh hatr hpositive hrisk (h.trans_eq hmax.symm)

/-! ## The bars of a position -/

/-- The position after one more bar adopts that bar. -/
theorem held_succ (hbar : bars[n]? = some bar) :
    held strategy costs opened bars (n + 1) =
      adopt strategy costs (held strategy costs opened bars n) bar := by
  rw [held, List.take_add_one, hbar, List.foldl_append]
  rfl

/-- After the last bar the position stays. -/
theorem held_of_length_le (h : bars.length ≤ n) :
    held strategy costs opened bars (n + 1) = held strategy costs opened bars n := by
  rw [held, held, List.take_of_length_le h, List.take_of_length_le (h.trans (Nat.le_succ n))]

/-- What every bar preserves, the whole run preserves. -/
theorem held_induction {P : PositionContext → Prop} (hopened : P opened)
    (hstep : ∀ position bar, P position → P (adopt strategy costs position bar)) (n : ℕ) :
    P (held strategy costs opened bars n) := by
  unfold held
  induction bars.take n using List.reverseRecOn with
  | nil => exact hopened
  | append_singleton done bar ih =>
    rw [List.foldl_concat]
    exact hstep _ bar ih

section

variable (strategy : StrategyConfig) (costs : CostConfig) (opened : PositionContext)
  (bars : List PositionBar)

/-- The entry of the position is never rewritten. -/
theorem held_entry (n : ℕ) : (held strategy costs opened bars n).entryPrice = opened.entryPrice ∧
    (held strategy costs opened bars n).initialStop = opened.initialStop := by
  refine held_induction (P := fun position => position.entryPrice = opened.entryPrice ∧
    position.initialStop = opened.initialStop) ⟨rfl, rfl⟩ ?_ n
  exact fun position bar h => h

/-- The activation of a held position is that of the opened one. -/
theorem held_activation (n : ℕ) :
    activation strategy (held strategy costs opened bars n) = activation strategy opened := by
  rw [activation, (held_entry strategy costs opened bars n).1,
    (held_entry strategy costs opened bars n).2, activation]

variable {strategy costs} in
/-- What rises from bar to bar rises over the run. -/
theorem held_monotone {value : PositionContext → ℚ}
    (hstep : ∀ position bar, value position ≤ value (adopt strategy costs position bar)) :
    Monotone fun n => value (held strategy costs opened bars n) := by
  apply monotone_nat_of_le_succ
  intro n
  rcases lt_or_ge n bars.length with hlt | hge
  · rw [held_succ (List.getElem?_eq_getElem hlt)]
    exact hstep _ _
  · rw [held_of_length_le hge]

end

/-- A sell is for the whole quantity and leaves the stop alone. -/
theorem adopt_of_sell {reason : String} {quantity : ℚ}
    (h : (decideBar strategy costs position bar).action = .sell reason quantity) :
    quantity = bar.quantity ∧ (decideBar strategy costs position bar).nextStop = none ∧
      (adopt strategy costs position bar).currentStop = position.currentStop := by
  have hcases := decidePosition_cases strategy ⟨bar.row, bar.cash, bar.equity,
    some (position.on bar), bar.hasPendingOrder, bar.risk⟩ (position.on bar)
  rcases hcases with ⟨_, hsell⟩ | ⟨hhold, -⟩ | ⟨hstop, -⟩
  · simp only [decideBar, decide, hsell, Action.sell.injEq] at h
    refine ⟨h.2.symm, ?_, ?_⟩
    · simp only [decideBar, decide, hsell]
    · simp only [adopt, decideBar, decide, hsell, Option.getD_none]
  · simp only [decideBar, decide, hhold] at h
    cases h
  · simp only [decideBar, decide, hstop] at h
    cases h

/-- The law of a trailing stop over the bars of one position, with the bars that must lift an
active stop to the entry price. -/
structure TrailingLaw (strategy : StrategyConfig) (costs : CostConfig) (opened : PositionContext)
    (bars : List PositionBar) (lifts : PositionContext → PositionBar → Prop) : Prop where
  rises : Monotone fun n => (held strategy costs opened bars n).currentStop
  floor : ∀ n, opened.initialStop ≤ (held strategy costs opened bars n).currentStop
  dormant : ∀ n, (held strategy costs opened bars n).highWater < activation strategy opened →
    (held strategy costs opened bars n).currentStop = opened.currentStop
  covered : ∀ i j bar, activation strategy opened ≤
      (held strategy costs opened bars (i + 1)).highWater → i ≤ j → bars[j]? = some bar →
    lifts (held strategy costs opened bars j) bar →
    ∀ n, j < n → opened.entryPrice ≤ (held strategy costs opened bars n).currentStop
  sells : ∀ j bar reason quantity, bars[j]? = some bar →
    (decideBar strategy costs (held strategy costs opened bars j) bar).action =
      .sell reason quantity →
    quantity = bar.quantity ∧
      (decideBar strategy costs (held strategy costs opened bars j) bar).nextStop = none ∧
      (held strategy costs opened bars (j + 1)).currentStop =
        (held strategy costs opened bars j).currentStop

/-- As long as the running high stays below the activation the stop is the first one. -/
theorem held_dormant
    (h : (held strategy costs opened bars n).highWater < activation strategy opened) :
    (held strategy costs opened bars n).currentStop = opened.currentStop := by
  induction n with
  | zero => rfl
  | succ n ih =>
    rcases lt_or_ge n bars.length with hlt | hge
    · rw [held_succ (List.getElem?_eq_getElem hlt)] at h ⊢
      rw [adopt_dormant (by rwa [held_activation])]
      exact ih ((highWater_le_runningHigh _ _).trans_lt h)
    · rw [held_of_length_le hge] at h ⊢
      exact ih h

/-- Over the bars of a position the stop is monotone: it rises from its floor, first when the
running high activates it, and then to the entry price, and no sell moves it. -/
theorem trailing_law (hopened : opened.initialStop ≤ opened.currentStop) :
    TrailingLaw strategy costs opened bars (fun position bar => bar.Settles strategy costs position)
    where
  rises := held_monotone opened bars (currentStop_le_adopt strategy costs)
  floor n := hopened.trans
    (held_monotone opened bars (currentStop_le_adopt strategy costs) (Nat.zero_le n))
  dormant _ h := held_dormant h
  covered i j bar hactive hle hbar hsettles n hlt := by
    have hhigh : activation strategy opened ≤ (held strategy costs opened bars (j + 1)).highWater :=
      hactive.trans (held_monotone opened bars
        (fun position bar => highWater_le_runningHigh position bar.row)
        (Nat.add_le_add_right hle 1))
    have hlifted : opened.entryPrice ≤ (held strategy costs opened bars (j + 1)).currentStop := by
      rw [held_succ hbar] at hhigh ⊢
      rw [← held_activation strategy costs opened bars j] at hhigh
      rw [← (held_entry strategy costs opened bars j).1]
      exact entryPrice_le_adopt hsettles hhigh
    exact hlifted.trans (held_monotone opened bars (currentStop_le_adopt strategy costs) hlt)
  sells j bar reason quantity hbar hsell := by
    rw [held_succ hbar]
    exact adopt_of_sell hsell

/-- A position that is entered at 100 with its stop at 90. -/
def trailed : PositionContext where
  entryPrice := 100
  initialStop := 90
  currentStop := 90
  highWater := 100
  quantity := 1
  heldBars := 0

/-- A bar that rises to 130 with an ATR of 2. -/
def risen (hasPendingOrder : Bool) : PositionBar where
  row := { high := some 130, close := some 125, atr := some 2 }
  cash := 0
  equity := 125
  quantity := 1
  heldBars := 1
  hasPendingOrder
  risk := ⟨1 / 100, 1 / 2, none, []⟩

/-- A position that is trailed over two bars. -/
theorem trailing_law_trailed : TrailingLaw {} {} trailed [risen true, risen false]
    (fun position bar => bar.Settles {} {} position) :=
  trailing_law (by decide +kernel)

/-- While an order is pending the engine holds a position without moving its stop, also on a
bar with a valid high and a positive ATR. -/
theorem not_trailing_law_of_pending : ¬∀ strategy costs (opened : PositionContext) bars,
    opened.initialStop ≤ opened.currentStop → TrailingLaw strategy costs opened bars
      (fun position bar => (decideBar strategy costs position bar).action = .hold ∧
        bar.row.high.isSome = true ∧ ∃ atr ∈ bar.row.atr, 0 < atr) := by
  intro hall
  have hlaw := hall {} {} trailed [risen true] (by decide +kernel)
  have hcovered := hlaw.covered 0 0 (risen true) (by decide +kernel) (le_refl _) rfl
    (by decide +kernel) 1 (by decide)
  exact absurd hcovered (by decide +kernel)

end AutoBit.Strategy
