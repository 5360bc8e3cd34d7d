import AutoBit.Backtest.Sales

/-!
# Between the bars of a backtest

Between bars every bit is captured, the entry order, if there is one, has not begun, and what is
noted as the stop and the exit are sales. A gap leaves a run so, and `next` makes it so again when
the entry order is partial at most: what remains of it is canceled, an exit is for no more than
the position, and an entry is the only purchase that is alive.
-/

namespace AutoBit.Backtest

open Library

section Steps

variable {config : EngineConfig} {cash : ℚ} {past : List Notification} {focus ref : ℕ}
  {world world' : World}

/-- The entry order has not begun. -/
def EntryIdle (world : World) : Prop :=
  ∀ ref order, world.strategy.entryOrder = some ref → world.broker.orders[ref]? = some order →
    order.status.started = false

/-- When the entry order has begun, it is partial and the strategy knows, or the notification of
its status is due. -/
def EntryDue (world : World) (due : List Notification) : Prop :=
  ∀ ref order, world.strategy.entryOrder = some ref → world.broker.orders[ref]? = some order →
    order.status.started = true →
      order.status = .partial_ ∧ world.strategy.entryPartialPending = true ∨
        ∃ notification ∈ due, notification.ref = ref ∧ notification.status = order.status

/-! ## Gaps and the end of the run -/

/-- The orders that are alive after some were canceled. -/
theorem foldl_cancel_alive (refs : List ℕ) {broker : NativeBroker} {other : ℕ}
    {found : NativeOrder}
    (hfound : (refs.foldl NativeBroker.cancelEndOfData broker).orders[other]? = some found)
    (halive : found.status.alive = true) : other ∉ refs ∧ broker.orders[other]? = some found := by
  induction refs generalizing broker with
  | nil => exact ⟨by simp, hfound⟩
  | cons ref refs ih =>
    obtain ⟨hnot, hmid⟩ := ih hfound
    rw [NativeBroker.cancelEndOfData, NativeBroker.cancel] at hmid
    cases horder : broker.orders[ref]? with
    | none =>
      simp only [horder] at hmid
      refine ⟨?_, hmid⟩
      rintro hmem
      rcases List.mem_cons.mp hmem with rfl | htail
      · cases horder.symm.trans hmid
      · exact hnot htail
    | some order =>
      simp only [horder] at hmid
      split at hmid
      · rw [NativeBroker.change_eq horder] at hmid
        rcases getElem?_set_cases horder hmid with ⟨-, rfl⟩ | ⟨hne, hold⟩
        · cases halive
        · exact ⟨List.not_mem_cons_of_ne_of_not_mem hne hnot, hold⟩
      · rename_i hclosed
        refine ⟨List.not_mem_cons_of_ne_of_not_mem ?_ hnot, hmid⟩
        rintro rfl
        cases horder.symm.trans hmid
        exact hclosed halive

/-- Canceling creates no order. -/
theorem foldl_cancel_length (refs : List ℕ) (broker : NativeBroker) :
    (refs.foldl NativeBroker.cancelEndOfData broker).orders.length = broker.orders.length := by
  induction refs generalizing broker with
  | nil => rfl
  | cons ref refs ih =>
    rw [List.foldl_cons, ih, NativeBroker.cancelEndOfData, NativeBroker.cancel]
    cases horder : broker.orders[ref]? with
    | none => rfl
    | some order =>
      simp only
      split
      · rw [NativeBroker.change_eq horder]
        simp
      · rfl

/-- Canceling every order leaves none alive. -/
theorem cancelAll_closed {broker : NativeBroker} {other : ℕ} {found : NativeOrder}
    (hfound : (cancelAll broker).orders[other]? = some found) : found.status.alive = false := by
  cases halive : found.status.alive with
  | false => rfl
  | true =>
    have hlength := (List.getElem?_eq_some_iff.mp hfound).1
    rw [cancelAll, foldl_cancel_length] at hlength
    exact absurd (List.mem_range.mpr hlength) (foldl_cancel_alive _ hfound halive).1

/-- Without an order that is alive there need be no entry order. -/
theorem Control.of_closed {orders : List NativeOrder} {position : ℚ}
    (h : ∀ (ref : ℕ) order, orders[ref]? = some order → order.status.alive = false) :
    Control orders position none where
  single := fun ref _ order _ horder _ halive => by
    rw [h ref order horder] at halive
    cases halive
  sale := fun ref order horder halive => by
    rw [h ref order horder] at halive
    cases halive
  purchase := fun ref order horder halive => by
    rw [h ref order horder] at halive
    cases halive
  entry := fun _ hnone => by cases hnone

/-- Without a position nothing is open in the books. -/
theorem Quiet.flat (h : Quiet config cash past world) (hflat : world.broker.position = 0) :
    world.strategy.entryFillBits = [] ∧ world.strategy.exitFillBits = [] := by
  obtain ⟨focus, hstanding, hnone⟩ := h
  obtain ⟨closed, open_, hledger⟩ := hstanding.ledger
  have hopen := hledger.flat hnone hflat
  rw [hledger.books.entry, hledger.books.exit, hopen]
  exact ⟨rfl, rfl⟩

/-- The end of a run keeps it in order. -/
theorem Quiet.stop (h : Quiet config cash past world) {bar : Bar}
    (hstop : stop config bar world = .ok world') : Quiet config cash past world' := by
  have hclosed : Quiet config cash past { world with broker := cancelAll world.broker } :=
    h.cancelMany _
  simp only [Backtest.stop] at hstop
  split at hstop
  · exact (hclosed.liquidateAtReference hstop).1
  · cases hstop
    exact hclosed

/-! ## A bar -/

/-- A canceled order is closed, and the others are what they were. -/
theorem cancel_cases {broker : NativeBroker} {other : ℕ} {found : NativeOrder}
    (hfound : (broker.cancel ref).orders[other]? = some found) :
    other = ref ∧ found.status.alive = false ∨
      other ≠ ref ∧ broker.orders[other]? = some found := by
  rw [NativeBroker.cancel] at hfound
  cases horder : broker.orders[ref]? with
  | none =>
    simp only [horder] at hfound
    refine .inr ⟨?_, hfound⟩
    rintro rfl
    cases horder.symm.trans hfound
  | some order =>
    simp only [horder] at hfound
    split at hfound
    · rw [NativeBroker.change_eq horder] at hfound
      rcases getElem?_set_cases horder hfound with ⟨rfl, rfl⟩ | ⟨hne, hold⟩
      · exact .inl ⟨rfl, rfl⟩
      · exact .inr ⟨hne, hold⟩
    · rename_i hclosed
      by_cases heq : other = ref
      · subst heq
        cases horder.symm.trans hfound
        exact .inl ⟨rfl, Bool.eq_false_iff.mpr hclosed⟩
      · exact .inr ⟨heq, hfound⟩

/-- A cancellation leaves the position alone. -/
@[simp] theorem cancel_position (broker : NativeBroker) (ref : ℕ) :
    (broker.cancel ref).position = broker.position := by
  rw [NativeBroker.cancel]
  cases horder : broker.orders[ref]? with
  | none => rfl
  | some order =>
    simp only
    split
    · rw [NativeBroker.change_eq horder]
    · rfl

/-- Without a purchase that is alive there need be no entry order. -/
theorem Control.clear {orders : List NativeOrder} {position : ℚ} {entryOrder : Option ℕ}
    (h : Control orders position entryOrder)
    (hnone : ∀ (ref : ℕ) order, orders[ref]? = some order → order.status.alive = true →
      order.isBuy = false) : Control orders position none where
  single := h.single
  sale := h.sale
  purchase := fun ref order horder halive hside => by
    rw [hnone ref order horder halive] at hside
    cases hside
  entry := fun _ hentry => by cases hentry

/-- An entry order that is closed may be forgotten. -/
theorem Standing.clearEntry (h : Standing config cash past focus world)
    {strategy : StrategyState} (hsame : SameBooks world { world with strategy })
    (hentry : strategy.entryOrder = none)
    (hclosed : ∀ ref order, world.strategy.entryOrder = some ref →
      world.broker.orders[ref]? = some order → order.status.alive = false) :
    Standing config cash past focus { world with strategy } ∧
      pendingFills { world with strategy } focus = pendingFills world focus := by
  refine ⟨h.of_sameBooks hsame ?_ (Later.refl _) (fun _ => .inl) fun _ => hentry,
    hsame.pendingFills_eq focus⟩
  rw [hentry]
  refine h.control.clear fun ref order horder halive => ?_
  cases hside : order.isBuy with
  | false => rfl
  | true =>
    obtain ⟨howned, -⟩ := h.control.purchase ref order horder halive hside
    rw [hclosed ref order howned horder] at halive
    cases halive

/-- Canceling an order keeps its side. -/
theorem Noted.cancel (h : Noted world) (ref : ℕ) :
    Noted { world with broker := world.broker.cancel ref } := by
  rw [NativeBroker.cancel]
  cases horder : world.broker.orders[ref]? with
  | none => exact h
  | some order =>
    simp only
    split
    · rw [NativeBroker.change_eq horder]
      exact h.set horder (by rfl)
    · exact h

/-- Canceling a sale. -/
theorem SalesOnly.cancel {order : NativeOrder} (horder : world.broker.orders[ref]? = some order)
    (hside : order.isBuy = false) :
    SalesOnly world { world with broker := world.broker.cancel ref } := by
  refine ⟨fun hnoted => hnoted.cancel ref, ?_, rfl, rfl, rfl⟩
  intro other found hfound hbuy
  have hne : other ≠ ref := by
    rintro rfl
    cases horder.symm.trans hfound
    rw [hside] at hbuy
    cases hbuy
  simp only [NativeBroker.cancel, horder]
  split
  · rw [NativeBroker.change_eq horder]
    exact (List.getElem?_set_ne (Ne.symm hne)).trans hfound
  · exact hfound

/-- A run between bars: it is in order, every bit is captured, the entry order has not begun, and
what is noted as the stop and the exit are sales. -/
structure Between (config : EngineConfig) (cash : ℚ) (past : List Notification) (world : World) :
    Prop where
  quiet : Quiet config cash past world
  idle : EntryIdle world
  noted : Noted world

/-- Sales leave the entry order as it is. -/
theorem Between.of_salesOnly (h : Between config cash past world)
    (hquiet : Quiet config cash past world') (hsales : SalesOnly world world') :
    Between config cash past world' where
  quiet := hquiet
  idle := by
    intro ref order hentry horder
    obtain ⟨focus, hstanding, -⟩ := h.quiet
    rw [hsales.entryOrder] at hentry
    obtain ⟨found, hfound, hside⟩ := hstanding.control.entry ref hentry
    cases horder.symm.trans (hsales.buys ref found hfound hside)
    exact h.idle ref order hentry hfound
  noted := hsales.noted h.noted

/-- The strategy forgets orders that it noted, and changes nothing else that the run rests on. -/
theorem Between.setStrategy (h : Between config cash past world) {strategy : StrategyState}
    (hsame : SameBooks world { world with strategy })
    (hentry : strategy.entryOrder = world.strategy.entryOrder)
    (hgap : strategy.gapHandledCurrentBar = world.strategy.gapHandledCurrentBar)
    (hrefs : ∀ ref, strategy.stopOrder = some ref ∨ strategy.exitOrder = some ref →
      world.strategy.stopOrder = some ref ∨ world.strategy.exitOrder = some ref) :
    Between config cash past { world with strategy } where
  quiet := h.quiet.setStrategy hsame hentry hgap
  idle := fun ref order howned => h.idle ref order (hentry.symm.trans howned)
  noted := fun ref href => h.noted ref (hrefs ref href)

/-- Canceling the stop or the exit. -/
theorem Between.cancelSale (h : Between config cash past world)
    (href : world.strategy.stopOrder = some ref ∨ world.strategy.exitOrder = some ref) :
    Between config cash past { world with broker := world.broker.cancel ref } := by
  obtain ⟨order, horder, hside⟩ := h.noted ref href
  exact h.of_salesOnly (h.quiet.cancel ref) (SalesOnly.cancel horder hside)

/-- What remains of the entry is canceled, and there is no entry order any more. -/
theorem Quiet.cancelEntryRemainder (h : Quiet config cash past world) (hnoted : Noted world) :
    Between config cash past (cancelEntryRemainder world) ∧
      (Backtest.cancelEntryRemainder world).broker.position = world.broker.position := by
  have hnone : ∀ broker : NativeBroker, EntryIdle { broker, strategy := { world.strategy with
      entryPartialPending := false, entryOrder := none } } := by
    intro broker ref order howned
    cases howned
  rw [Backtest.cancelEntryRemainder]
  cases hentry : world.strategy.entryOrder with
  | none =>
    refine ⟨⟨?_, hnone _, hnoted⟩, rfl⟩
    exact h.setStrategy (SameBooks.of_strategy rfl rfl rfl rfl rfl rfl) hentry.symm rfl
  | some ref =>
    refine ⟨⟨?_, hnone _, hnoted.cancel ref⟩, cancel_position _ _⟩
    obtain ⟨focus, hstanding, hquiet⟩ := h.cancel ref
    have hsame : SameBooks { world with broker := world.broker.cancel ref } {
        broker := world.broker.cancel ref
        strategy := { world.strategy with entryPartialPending := false, entryOrder := none } } :=
      SameBooks.of_strategy rfl rfl rfl rfl rfl rfl
    obtain ⟨hcleared, hpending⟩ := hstanding.clearEntry hsame rfl fun other order howned horder => by
      cases hentry.symm.trans howned
      rcases cancel_cases horder with ⟨-, hclosed⟩ | ⟨hne, -⟩
      · exact hclosed
      · exact absurd rfl hne
    exact ⟨focus, hcleared, hpending.trans hquiet⟩

/-- A gap leaves a run as it is between bars. -/
theorem Between.handleGap (h : Between config cash past world) {bar : Bar}
    (hgap : handleGapBeforeCurrentBar config bar world = .ok world') :
    Between config cash past world' := by
  rw [handleGapBeforeCurrentBar] at hgap
  split at hgap
  case isFalse =>
    cases hgap
    exact h
  obtain ⟨mid, hflatten, hgap⟩ := Except.bind_eq_ok.mp hgap
  obtain ⟨⟨⟩, -, hgap⟩ := Except.bind_eq_ok.mp hgap
  cases hgap
  have hclosed : Between config cash past {
      broker := cancelAll world.broker
      strategy := { world.strategy with
        gapHandledCurrentBar := true
        entryOrder := none
        exitOrder := none
        stopOrder := none
        entryPartialPending := false
        exitPartialPending := false } } := by
    refine ⟨(h.quiet.cancelMany _).of_sameBooks (SameBooks.of_strategy rfl rfl rfl rfl rfl rfl)
      (Control.of_closed fun _ _ => cancelAll_closed) (Later.refl _) (fun _ => .inl) fun _ => rfl,
      ?_, ?_⟩
    · intro ref order hentry
      cases hentry
    · rintro ref (hstop | hexit)
      · cases hstop
      · cases hexit
  have hmid : Between config cash past mid := by
    rw [flattenAtGap] at hflatten
    split at hflatten
    · obtain ⟨hquiet, hsales⟩ := hclosed.quiet.liquidateAtReference hflatten
      exact hclosed.of_salesOnly hquiet hsales
    · rename_i hposition
      cases hflatten
      have hflat := hclosed.quiet.flat
        (le_antisymm (not_lt.mp hposition) hclosed.quiet.position_nonneg)
      exact hclosed.setStrategy (SameBooks.of_strategy rfl rfl rfl rfl hflat.1.symm hflat.2.symm)
        rfl rfl fun _ => id
  exact hmid.setStrategy (SameBooks.of_strategy rfl rfl rfl rfl rfl rfl) rfl rfl fun _ => id

/-- Placing a sale of no more than the position, and noting it as the stop or the exit. -/
theorem Between.placeAndNote (h : Between config cash past world) (execType : ExecType) {size : ℚ}
    (info : OrderInfo) (hnonneg : 0 ≤ size) (hsize : size ≤ world.broker.position)
    (note : StrategyState → Option ℕ → StrategyState)
    (hnote : ∀ placed, SameBooks world { world with strategy := note world.strategy placed } ∧
      (note world.strategy placed).entryOrder = world.strategy.entryOrder ∧
      (note world.strategy placed).entryPartialPending = world.strategy.entryPartialPending ∧
      (note world.strategy placed).gapHandledCurrentBar = world.strategy.gapHandledCurrentBar ∧
      ∀ ref, (note world.strategy placed).stopOrder = some ref ∨
          (note world.strategy placed).exitOrder = some ref →
        (world.strategy.stopOrder = some ref ∨ world.strategy.exitOrder = some ref) ∨
          placed = some ref) :
    ∃ broker placed, placeSell world execType size info = ({ world with broker }, placed) ∧
      Between config cash past { broker, strategy := note world.strategy placed } := by
  obtain ⟨broker, placed, heq, hquiet, hsales, -⟩ :=
    h.quiet.placeAndNote execType info hnonneg hsize note hnote
  exact ⟨broker, placed, heq, h.of_salesOnly hquiet hsales⟩

/-- The stop is canceled. -/
theorem Between.cancelStop (h : Between config cash past world) :
    Between config cash past (Backtest.cancelStop world) ∧
      (Backtest.cancelStop world).broker.position = world.broker.position := by
  rw [Backtest.cancelStop]
  cases hstop : world.strategy.stopOrder with
  | none => exact ⟨h, rfl⟩
  | some ref =>
    refine ⟨?_, cancel_position _ _⟩
    refine (h.cancelSale (.inl hstop)).setStrategy (SameBooks.of_strategy rfl rfl rfl rfl rfl rfl)
      rfl rfl ?_
    rintro other (hnone | hexit)
    · cases hnone
    · exact .inr hexit

/-- A market exit of the position. -/
theorem Between.submitMarketExit (h : Between config cash past world) (bar : Bar)
    (reason : String) {quantity : ℚ} (hnonneg : 0 ≤ quantity)
    (hquantity : quantity ≤ world.broker.position) :
    Between config cash past (submitMarketExit bar reason quantity world) := by
  obtain ⟨hcanceled, hposition⟩ := h.cancelStop
  obtain ⟨broker, placed, heq, hbetween⟩ :=
    hcanceled.placeAndNote .market { signalTime := bar.now, reason } hnonneg
      (hposition ▸ hquantity) (fun strategy exitOrder => { strategy with exitOrder })
      fun placed => ⟨SameBooks.of_strategy rfl rfl rfl rfl rfl rfl, rfl, rfl, rfl,
        fun ref href => href.imp .inl id⟩
  simp only [Backtest.submitMarketExit, heq]
  exact hbetween

/-- A trailing stop takes the place of the stop. -/
theorem Between.updateTrailingStop (h : Between config cash past world) {bar : Bar}
    {candidate : ℚ} (hupdate : updateTrailingStop bar candidate world = .ok world') :
    Between config cash past world' := by
  obtain ⟨currentStop, -, hupdate⟩ := Except.bind_eq_ok.mp hupdate
  split at hupdate
  · cases hupdate
    exact h
  obtain ⟨hcanceled, -⟩ := h.cancelStop
  obtain ⟨broker, placed, heq, hbetween⟩ := hcanceled.placeAndNote .stop
    { signalTime := bar.now, reason := "TRAILING_STOP", stopPrice := some (some candidate) }
    hcanceled.quiet.position_nonneg (le_refl _)
    (fun strategy stopOrder => { strategy with currentStop := some (some candidate), stopOrder })
    fun placed => ⟨SameBooks.of_strategy rfl rfl rfl rfl rfl rfl, rfl, rfl, rfl,
      fun ref href => href.symm.imp .inr id⟩
  simp only [heq] at hupdate
  cases hupdate
  exact hbetween

/-- What remains of an exit is sold at the market. -/
theorem Between.reissueExitRemainder (h : Between config cash past world) (bar : Bar) :
    Between config cash past (reissueExitRemainder bar world) := by
  have hcleared : Between config cash past
      { world with strategy := { world.strategy with exitPartialPending := false } } :=
    h.setStrategy (SameBooks.of_strategy rfl rfl rfl rfl rfl rfl) rfl rfl fun _ => id
  simp only [Backtest.reissueExitRemainder]
  split
  · exact hcleared
  rename_i ref href
  have hnoted : world.strategy.stopOrder = some ref ∨ world.strategy.exitOrder = some ref := by
    cases hexit : world.strategy.exitOrder with
    | none =>
      rw [hexit] at href
      exact .inl href
    | some other =>
      rw [hexit] at href
      exact .inr href
  split
  · exact hcleared
  rename_i original horiginal
  have hcanceled : Between config cash past {
      broker := world.broker.cancel ref
      strategy := { world.strategy with
        exitPartialPending := false
        stopOrder := if world.strategy.stopOrder = some ref then none
          else world.strategy.stopOrder
        exitOrder := if world.strategy.exitOrder = some ref then none
          else world.strategy.exitOrder } } := by
    refine (h.cancelSale hnoted).setStrategy (SameBooks.of_strategy rfl rfl rfl rfl rfl rfl)
      rfl rfl ?_
    intro other hother
    refine hother.imp (fun hstop => ?_) fun hexit => ?_
    · by_cases hsame : world.strategy.stopOrder = some ref
      · simp [hsame] at hstop
      · simpa [hsame] using hstop
    · by_cases hsame : world.strategy.exitOrder = some ref
      · simp [hsame] at hexit
      · simpa [hsame] using hexit
  split
  · exact hcanceled
  rename_i hremainder
  have hnonneg : 0 ≤ min |original.remsize| (max 0 world.broker.position) :=
    le_min (abs_nonneg _) (le_max_left _ _)
  have hbound : min |original.remsize| (max 0 world.broker.position) ≤
      (world.broker.cancel ref).position := by
    rw [cancel_position, max_eq_right h.quiet.position_nonneg]
    exact min_le_right _ _
  obtain ⟨broker, placed, heq, hbetween⟩ := hcanceled.placeAndNote .market
    { original.info with terminalReferencePrice := none } hnonneg hbound
    (fun strategy exitOrder => { strategy with exitOrder })
    fun placed => ⟨SameBooks.of_strategy rfl rfl rfl rfl rfl rfl, rfl, rfl, rfl,
      fun ref href => href.imp .inl id⟩
  simp only [heq]
  exact hbetween

/-- What is done with a decision on an open position: a sale is one of the position. -/
theorem Between.applyDecision (h : Between config cash past world) {bar : Bar}
    {decision : Strategy.Decision}
    (hsale : ∀ reason quantity, decision.action = .sell reason quantity →
      quantity = world.broker.position)
    (happly : applyDecision bar decision world = .ok world') :
    Between config cash past world' := by
  rw [Backtest.applyDecision] at happly
  split at happly
  · rename_i reason quantity haction
    split at happly
    · cases happly
      obtain ⟨hcanceled, hsame⟩ := h.quiet.cancelEntryRemainder h.noted
      refine hcanceled.submitMarketExit bar reason ?_ ?_
      · rw [hsale reason quantity haction]
        exact h.quiet.position_nonneg
      · rw [hsale reason quantity haction, hsame]
    · cases happly
      exact h
  · split at happly
    · split at happly
      · exact h.updateTrailingStop happly
      · cases happly
        exact h
    · cases happly
      exact h

/-- A position has a stop or an exit before the decision on it. -/
theorem Between.ensureStop (h : Between config cash past world) :
    Between config cash past (Backtest.ensureStop world) ∧
      (Backtest.ensureStop world).broker.position = world.broker.position := by
  obtain ⟨hquiet, hsales, hposition, -⟩ := h.quiet.submitStop
  rw [Backtest.ensureStop]
  split
  · exact ⟨h.of_salesOnly hquiet hsales, hposition⟩
  · exact ⟨h, rfl⟩

/-- A bar with an open position. -/
theorem Between.managePosition (h : Between config cash past world) {bar : Bar}
    {decision : Strategy.Decision}
    (hsale : ∀ reason quantity, decision.action = .sell reason quantity →
      quantity = world.broker.position)
    (hmanage : managePosition bar decision world = .ok world') :
    Between config cash past world' := by
  obtain ⟨mid, hmid, hmanage⟩ := Except.bind_eq_ok.mp hmanage
  obtain ⟨highWater, -, hmanage⟩ := Except.bind_eq_ok.mp hmanage
  cases hmanage
  obtain ⟨hstopped, hposition⟩ := h.ensureStop
  have hbetween : Between config cash past mid :=
    hstopped.applyDecision (fun reason quantity haction =>
      (hsale reason quantity haction).trans hposition.symm) hmid
  exact hbetween.setStrategy (SameBooks.of_strategy rfl rfl rfl rfl rfl rfl) rfl rfl fun _ => id

/-- What is done with a decision without a position: an entry is the only purchase that is
alive. -/
theorem Between.openPosition (h : Between config cash past world) {bar : Bar}
    {decision : Strategy.Decision} (hflat : world.broker.position = 0)
    (hgap : world.strategy.gapHandledCurrentBar = false)
    (hfree : ∀ reason quantity, decision.action = .buy reason quantity →
      world.strategy.entryOrder = none) :
    Between config cash past (openPosition config bar decision world) := by
  rw [Backtest.openPosition]
  split
  case h_2 => exact h
  rename_i reason quantity haction
  have hnone := hfree reason quantity haction
  by_cases hzero : quantity = 0
  · simp only [placeBuy, if_pos hzero]
    exact h.setStrategy (SameBooks.of_strategy rfl rfl rfl rfl rfl rfl) hnone.symm rfl fun _ => id
  obtain ⟨focus, hstanding, -⟩ := h.quiet
  have hbuys : ∀ found ∈ world.broker.orders, found.status.alive = true → found.isBuy ≠ true := by
    intro found hfound halive hbuy
    obtain ⟨ref, href⟩ := List.mem_iff_getElem?.mp hfound
    cases hnone.symm.trans (hstanding.control.purchase ref found href halive hbuy).1
  have hguard : ¬(0 < world.broker.position ∨ world.broker.hasLiveOrder true = true) := by
    rintro (hpos | hlive)
    · exact hpos.ne' hflat
    · obtain ⟨found, hfound, hboth⟩ := List.any_eq_true.mp hlive
      rw [Bool.and_eq_true] at hboth
      exact hbuys found hfound hboth.1 (eq_of_beq hboth.2)
  simp only [placeBuy, if_neg hzero, NativeBroker.buy, if_neg hguard]
  refine ⟨?_, ?_, ?_⟩
  · refine h.quiet.create rfl (SameBooks.of_strategy rfl rfl rfl rfl rfl rfl)
      (hstanding.control.buy rfl hbuys hflat) fun htrue => ?_
    exact absurd (hgap.symm.trans htrue) (by decide)
  · rintro ref order ⟨⟩ horder
    rcases getElem?_snoc_cases horder with ⟨-, rfl⟩ | hold
    · rfl
    · exact absurd (List.getElem?_eq_some_iff.mp hold).1 (lt_irrefl _)
  · intro ref href
    obtain ⟨found, hfound, hside⟩ := h.noted ref href
    exact ⟨found, (List.getElem?_append_left (List.getElem?_eq_some_iff.mp hfound).1).trans hfound,
      hside⟩

/-- The context of a position is that of the position of the broker, and there is none on a flat
account. -/
theorem positionContext_eq_ok {position : Option Strategy.PositionContext}
    (h : positionContext world = .ok position) :
    position = none ∧ world.broker.position ≤ 0 ∨
      ∃ context, position = some context ∧ context.quantity = world.broker.position := by
  simp only [positionContext] at h
  split at h
  · rename_i hflat
    cases h
    exact .inl ⟨rfl, hflat⟩
  · obtain ⟨entryPrice, -, h⟩ := Except.bind_eq_ok.mp h
    obtain ⟨initialStop, -, h⟩ := Except.bind_eq_ok.mp h
    obtain ⟨currentStop, -, h⟩ := Except.bind_eq_ok.mp h
    obtain ⟨highWater, -, h⟩ := Except.bind_eq_ok.mp h
    obtain ⟨entryFillBar, -, h⟩ := Except.bind_eq_ok.mp h
    cases h
    exact .inr ⟨_, rfl, rfl⟩

/-- `next` takes a run, whose entry order is partial if it has begun, to one between bars. -/
theorem Quiet.next (h : Quiet config cash past world) (hdue : EntryDue world [])
    (hnoted : Noted world) {bar : Bar} (hnext : next config bar world = .ok world') :
    Between config cash past world' := by
  have hrecorded : Quiet config cash past { world with
      strategy := recordEquity world.strategy bar.now (world.value bar) } :=
    h.setStrategy (SameBooks.of_strategy rfl rfl rfl rfl rfl rfl) rfl rfl
  simp only [Backtest.next] at hnext
  split at hnext
  · rename_i hgap
    cases hnext
    obtain ⟨focus, hstanding, -⟩ := h
    have hnone : world.strategy.entryOrder = none := hstanding.gap hgap
    refine ⟨?_, ?_, hnoted⟩
    · exact hrecorded.of_sameBooks (SameBooks.of_strategy rfl rfl rfl rfl rfl rfl)
        hstanding.control (Later.refl _) (fun _ => .inl) fun hfalse => by cases hfalse
    · intro ref order hentry
      cases hnone.symm.trans hentry
  rename_i hgap
  have hfalse : world.strategy.gapHandledCurrentBar = false := Bool.eq_false_iff.mpr hgap
  generalize hcancelled : (if (recordEquity world.strategy bar.now
      (world.value bar)).entryPartialPending = true then Backtest.cancelEntryRemainder _
      else _) = mid at hnext
  obtain ⟨hmid, hfree⟩ : Between config cash past mid ∧
      mid.strategy.gapHandledCurrentBar = false := by
    split at hcancelled
    · subst hcancelled
      exact ⟨(hrecorded.cancelEntryRemainder hnoted).1, hfalse⟩
    · rename_i hflag
      subst hcancelled
      refine ⟨⟨hrecorded, ?_, hnoted⟩, hfalse⟩
      intro ref order hentry horder
      refine Bool.eq_false_iff.mpr fun hstarted => ?_
      rcases hdue ref order hentry horder hstarted with ⟨-, hset⟩ | ⟨notification, hmem, -⟩
      · exact hflag hset
      · cases hmem
  split at hnext
  · cases hnext
    exact hmid.reissueExitRemainder bar
  obtain ⟨position, hposition, hnext⟩ := Except.bind_eq_ok.mp hnext
  rcases positionContext_eq_ok hposition with ⟨rfl, hflat⟩ | ⟨context, rfl, hquantity⟩
  · cases hnext
    refine hmid.openPosition (le_antisymm hflat hmid.quiet.position_nonneg) hfree ?_
    intro reason quantity hbuy
    have hpending := Strategy.decideEntry_buy hbuy
    simpa using (Bool.or_eq_false_iff.mp hpending).1
  · refine hmid.managePosition (fun reason quantity hsell => ?_) hnext
    rw [Strategy.decidePosition_sell hsell, hquantity]

end Steps

end AutoBit.Backtest
