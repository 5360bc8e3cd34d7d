import AutoBit.Backtest.Control

/-!
# Sales of a backtest

A stop that is placed on an entry fill and executed on the same bar, and a liquidation, are
handed over at once: their bits are captured before anything else is executed. Neither they nor
any other sale touch a purchase.
-/

namespace AutoBit.Backtest

open Library

/-- The stop order and the exit order are sales. -/
def Noted (world : World) : Prop :=
  ∀ ref, world.strategy.stopOrder = some ref ∨ world.strategy.exitOrder = some ref →
    ∃ order, world.broker.orders[ref]? = some order ∧ order.isBuy = false

/-- An order that goes on keeps its side. -/
theorem Noted.set {world : World} (h : Noted world) {ref : ℕ} {order new : NativeOrder}
    (horder : world.broker.orders[ref]? = some order) (hside : new.isBuy = order.isBuy)
    {position cash : ℚ} {notifs : List Notification} :
    Noted { world with
      broker := { orders := world.broker.orders.set ref new, position, cash, notifs } } := by
  intro other hother
  obtain ⟨found, hfound, hsale⟩ := h other hother
  by_cases heq : other = ref
  · subst heq
    cases horder.symm.trans hfound
    exact ⟨new, List.getElem?_set_self (List.getElem?_eq_some_iff.mp horder).1, hside.trans hsale⟩
  · exact ⟨found, (List.getElem?_set_ne (Ne.symm heq)).trans hfound, hsale⟩

/-- Only sales are placed, changed and executed. -/
structure SalesOnly (world world' : World) : Prop where
  noted : Noted world → Noted world'
  buys : ∀ (ref : ℕ) order, world.broker.orders[ref]? = some order → order.isBuy = true →
    world'.broker.orders[ref]? = some order
  entryOrder : world'.strategy.entryOrder = world.strategy.entryOrder
  entryPartialPending : world'.strategy.entryPartialPending = world.strategy.entryPartialPending
  gapHandled : world'.strategy.gapHandledCurrentBar = world.strategy.gapHandledCurrentBar

/-- A world that stays as it is has sales only. -/
theorem SalesOnly.refl (world : World) : SalesOnly world world :=
  ⟨id, fun _ _ horder _ => horder, rfl, rfl, rfl⟩

/-- Two stretches of sales only are one. -/
theorem SalesOnly.trans {world mid world' : World} (h : SalesOnly world mid)
    (h' : SalesOnly mid world') : SalesOnly world world' where
  noted := fun hnoted => h'.noted (h.noted hnoted)
  buys := fun ref order horder hside => h'.buys ref order (h.buys ref order horder hside) hside
  entryOrder := h'.entryOrder.trans h.entryOrder
  entryPartialPending := h'.entryPartialPending.trans h.entryPartialPending
  gapHandled := h'.gapHandled.trans h.gapHandled

section Steps

variable {config : EngineConfig} {cash : ℚ} {past : List Notification} {focus ref : ℕ}
  {world world' : World}

/-- The strategy changes neither its books nor its entry order. -/
theorem Quiet.setStrategy (h : Quiet config cash past world) {strategy : StrategyState}
    (hsame : SameBooks world { world with strategy })
    (hentry : strategy.entryOrder = world.strategy.entryOrder)
    (hgap : strategy.gapHandledCurrentBar = world.strategy.gapHandledCurrentBar) :
    Quiet config cash past { world with strategy } := by
  obtain ⟨focus, hstanding, -⟩ := id h
  refine h.of_sameBooks hsame ?_ (Later.refl _) (fun _ => .inl) ?_
  · simpa only [hentry] using hstanding.control
  · simpa only [hentry, hgap] using hstanding.gap

/-- Capturing the bits of an order keeps a run in order. -/
theorem Standing.capture (h : Standing config cash past focus world) {order : NativeOrder}
    (horder : world.broker.orders[ref]? = some order) {strategy : StrategyState}
    (hcapture : captureNewFills config world.strategy ref order = .ok strategy) :
    Standing config cash past focus { world with strategy } ∧
      (ref = focus ∨ pendingFills world focus = [] →
        pendingFills { world with strategy } focus = []) ∧
      SalesOnly world { world with strategy } := by
  obtain ⟨closed, open_, hledger⟩ := h.ledger
  obtain ⟨closed', open', hledger', hnone, hentry, hflag, hgap, hstop, hexit⟩ :=
    hledger.capture horder hcapture
  refine ⟨⟨⟨closed', open', hledger'⟩, ?_, h.told, ?_⟩, hnone, ?_, fun _ _ horder _ => horder,
    hentry, hflag, hgap⟩
  · simpa only [hentry] using h.control
  · simpa only [hentry, hgap] using h.gap
  · intro hnoted other hother
    exact hnoted other (by simpa only [hstop, hexit] using hother)

/-- A notification of an order: its bits are captured, and the strategy goes on. -/
theorem notifyWith_eq_ok {applyEntryFill : World → Except Failure World}
    {notification : Notification} {order : NativeOrder}
    (horder : world.broker.orders[notification.ref]? = some order)
    (h : notifyWith config applyEntryFill world notification = .ok world') :
    ∃ strategy mid, captureNewFills config world.strategy notification.ref order = .ok strategy ∧
      notifyEntry applyEntryFill { world with strategy } notification = .ok mid ∧
      world' = notifyExit mid notification (!order.isBuy) := by
  simp only [notifyWith, horder] at h
  obtain ⟨strategy, hcapture, h⟩ := Except.bind_eq_ok.mp h
  obtain ⟨mid, hentry, h⟩ := Except.bind_eq_ok.mp h
  cases h
  exact ⟨strategy, mid, hcapture, hentry, rfl⟩

/-- A notification of another order does not concern the entry order. -/
theorem notifyEntry_of_ne {applyEntryFill : World → Except Failure World}
    {notification : Notification} (h : world.strategy.entryOrder ≠ some notification.ref) :
    notifyEntry applyEntryFill world notification = .ok world := by
  rw [notifyEntry, if_neg h]
  rfl

/-- The last part of a notification changes neither the books nor the entry order. -/
theorem notifyExit_eq (world : World) (notification : Notification) (isSell : Bool) :
    ∃ strategy, notifyExit world notification isSell = { world with strategy } ∧
      SameBooks world { world with strategy } ∧
      strategy.entryOrder = world.strategy.entryOrder ∧
      strategy.entryPartialPending = world.strategy.entryPartialPending ∧
      strategy.gapHandledCurrentBar = world.strategy.gapHandledCurrentBar ∧
      ∀ ref, strategy.stopOrder = some ref ∨ strategy.exitOrder = some ref →
        world.strategy.stopOrder = some ref ∨ world.strategy.exitOrder = some ref := by
  have hkept : ∀ (noted : Option ℕ) (p : Prop) [Decidable p] (ref : ℕ),
      (if p then none else noted) = some ref → noted = some ref := by
    intro noted p _ ref h
    split at h
    · cases h
    · exact h
  unfold notifyExit
  split
  · exact ⟨_, rfl, SameBooks.of_strategy rfl rfl rfl rfl rfl rfl, rfl, rfl, rfl,
      fun ref => Or.imp (hkept _ _ ref) (hkept _ _ ref)⟩
  · exact ⟨_, rfl, SameBooks.of_strategy rfl rfl rfl rfl rfl rfl, rfl, rfl, rfl,
      fun ref => Or.imp (hkept _ _ ref) (hkept _ _ ref)⟩

/-- The last part of a notification keeps a run in order. -/
theorem Quiet.notifyExit (h : Quiet config cash past world) (notification : Notification)
    (isSell : Bool) : Quiet config cash past (notifyExit world notification isSell) ∧
      SalesOnly world (Backtest.notifyExit world notification isSell) ∧
      (Backtest.notifyExit world notification isSell).broker = world.broker := by
  obtain ⟨strategy, heq, hsame, hentry, hflag, hgap, hrefs⟩ :=
    notifyExit_eq world notification isSell
  rw [heq]
  exact ⟨h.setStrategy hsame hentry hgap, ⟨fun hnoted ref href => hnoted ref (hrefs ref href),
    fun _ _ horder _ => horder, hentry, hflag, hgap⟩, rfl⟩

/-- A sale that is handed over at once is captured. -/
theorem Standing.notifySameBar (h : Standing config cash past ref world) {order : NativeOrder}
    (horder : world.broker.orders[ref]? = some order) (hside : order.isBuy = false)
    (hnotify : notifySameBar config world ref = .ok world') :
    Quiet config cash past world' ∧ SalesOnly world world' ∧ world'.broker = world.broker := by
  simp only [Backtest.notifySameBar, horder] at hnotify
  obtain ⟨strategy, mid, hcapture, hentry, rfl⟩ := notifyWith_eq_ok horder hnotify
  obtain ⟨hstanding, hnone, hsales⟩ := h.capture horder hcapture
  have hother : strategy.entryOrder ≠ some ref := by
    intro heq
    obtain ⟨found, hfound, hbuy⟩ := hstanding.control.entry ref heq
    cases horder.symm.trans hfound
    rw [hside] at hbuy
    cases hbuy
  rw [notifyEntry_of_ne hother] at hentry
  cases hentry
  have hquiet : Quiet config cash past { world with strategy } := ⟨ref, hstanding, hnone (.inl rfl)⟩
  obtain ⟨hquiet', hsales', hbroker⟩ := hquiet.notifyExit (order.notification ref) (!order.isBuy)
  exact ⟨hquiet', hsales.trans hsales', hbroker⟩

/-- A sale that is accepted. -/
theorem Quiet.submitAccept (h : Quiet config cash past world) {order : NativeOrder}
    (horder : world.broker.orders[ref]? = some order) (hside : order.isBuy = false)
    (hsubmitted : order.status = .submitted) :
    Quiet config cash past { world with broker := world.broker.submitAccept ref } ∧
      SalesOnly world { world with broker := world.broker.submitAccept ref } ∧
      (world.broker.submitAccept ref).orders[ref]? = some { order with status := .accepted } := by
  have halive : order.status.alive = true ∧ order.status.started = false := by
    rw [hsubmitted]
    exact ⟨rfl, rfl⟩
  refine ⟨h.change horder fun _ => halive, ⟨?_, ?_, rfl, rfl, rfl⟩, ?_⟩
  · intro hnoted
    rw [NativeBroker.submitAccept, NativeBroker.change_eq horder]
    exact hnoted.set horder (by rfl)
  · intro other found hfound hbuy
    rw [NativeBroker.submitAccept, NativeBroker.change_eq horder]
    by_cases heq : other = ref
    · subst heq
      cases horder.symm.trans hfound
      rw [hside] at hbuy
      cases hbuy
    · exact (List.getElem?_set_ne (Ne.symm heq)).trans hfound
  · rw [NativeBroker.submitAccept, NativeBroker.change_eq horder]
    exact List.getElem?_set_self (List.getElem?_eq_some_iff.mp horder).1

/-- A sale that may be executed: its bit is pending. -/
theorem Standing.executeSale (h : Standing config cash past ref world) {order : NativeOrder}
    (horder : world.broker.orders[ref]? = some order) (hside : order.isBuy = false) (now : ℤ)
    (offer : Offer) :
    Standing config cash past ref { world with broker := world.broker.execute ref now offer } ∧
      SalesOnly world { world with broker := world.broker.execute ref now offer } ∧
      (world.broker.execute ref now offer = world.broker ∨
        ∃ bit, (world.broker.execute ref now offer).orders[ref]? = some (order.withBit bit)) := by
  refine ⟨h.execute now offer, ?_⟩
  by_cases hexecutable : world.broker.Executable order offer
  · rw [NativeBroker.execute_eq horder hexecutable]
    refine ⟨⟨fun hnoted => hnoted.set horder (by rfl), ?_, rfl, rfl, rfl⟩, .inr ⟨_,
      List.getElem?_set_self (List.getElem?_eq_some_iff.mp horder).1⟩⟩
    intro other found hfound hbuy
    by_cases heq : other = ref
    · subst heq
      cases horder.symm.trans hfound
      rw [hside] at hbuy
      cases hbuy
    · exact (List.getElem?_set_ne (Ne.symm heq)).trans hfound
  · have hsame : world.broker.execute ref now offer = world.broker := by
      simp [NativeBroker.execute, horder, if_neg hexecutable]
    rw [hsame]
    exact ⟨SalesOnly.refl _, .inl rfl⟩

/-- A stop of the current bar is accepted, may be executed, and is captured at once. -/
theorem Quiet.reconcileSameBarStop (h : Quiet config cash past world) {order : NativeOrder}
    (horder : world.broker.orders[ref]? = some order) (hside : order.isBuy = false) {now : ℤ}
    {offer : Option Offer}
    (hreconcile : reconcileSameBarStop config now offer world ref = .ok world') :
    Quiet config cash past world' ∧ SalesOnly world world' := by
  rw [Backtest.reconcileSameBarStop] at hreconcile
  split at hreconcile
  case isFalse =>
    cases hreconcile
    exact ⟨h, SalesOnly.refl _⟩
  rename_i hsubmitted
  obtain ⟨first, hfirst, hreconcile⟩ := Except.bind_eq_ok.mp hreconcile
  obtain ⟨second, hsecond, hreconcile⟩ := Except.bind_eq_ok.mp hreconcile
  obtain ⟨hquiet₁, hsales₁, hbroker₁⟩ :=
    (h.standing ref).1.notifySameBar horder hside hfirst
  have hstatus : order.status = .submitted := by simpa [World.statusOf, horder] using hsubmitted
  obtain ⟨hquiet₂, hsales₂, horder₂⟩ :=
    hquiet₁.submitAccept (hbroker₁ ▸ horder) hside hstatus
  obtain ⟨hquiet₃, hsales₃, hbroker₃⟩ :=
    (hquiet₂.standing ref).1.notifySameBar horder₂ hside hsecond
  have horder₃ : second.broker.orders[ref]? = some { order with status := .accepted } := by
    rw [hbroker₃]
    exact horder₂
  have hsales := (hsales₁.trans hsales₂).trans hsales₃
  cases offer with
  | none =>
    rw [Option.elim_none, notifyIfChanged, if_pos rfl] at hreconcile
    cases hreconcile
    exact ⟨hquiet₃, hsales⟩
  | some offer =>
    obtain ⟨hstanding, hsales₄, hcases⟩ :=
      (hquiet₃.standing ref).1.executeSale horder₃ hside now offer
    rcases hcases with hsame | ⟨bit, hbit⟩
    · rw [Option.elim_some, hsame, notifyIfChanged, if_pos rfl] at hreconcile
      cases hreconcile
      exact ⟨hquiet₃, hsales⟩
    · have hchanged : ({ second with broker := second.broker.execute ref now offer } :
          World).statusOf ref ≠ second.statusOf ref := by
        simp only [World.statusOf, hbit, horder₃, Option.map_some]
        rcases NativeOrder.withBit_status { order with status := .accepted } bit with hdone | ⟨hpart, -⟩
        · simp [hdone]
        · simp [hpart]
      rw [Option.elim_some, notifyIfChanged, if_neg hchanged] at hreconcile
      obtain ⟨hquiet₅, hsales₅, -⟩ := hstanding.notifySameBar hbit hside hreconcile
      exact ⟨hquiet₅, (hsales.trans hsales₄).trans hsales₅⟩

/-- A sale is created: it is rejected, or it is submitted and no other sale is alive. -/
theorem placeSell_eq (world : World) (execType : ExecType) {size : ℚ} (info : OrderInfo)
    (hpos : 0 < size) :
    ∃ order : NativeOrder, order.isBuy = false ∧ order.exbits = [] ∧
      placeSell world execType size info =
        ({ world with broker := (world.broker.create order).1 }, some world.broker.orders.length) ∧
      (order.status = .rejected ∨ order.status = .submitted ∧ order.size = size ∧
        ∀ found ∈ world.broker.orders, found.status.alive = true → found.isBuy ≠ false) := by
  rw [Backtest.placeSell, if_neg hpos.ne', abs_of_pos hpos, NativeBroker.sell]
  by_cases hguard : max 0 world.broker.position + 1 / 10 ^ 12 < size ∨
      world.broker.hasLiveOrder false = true
  · simp only [if_pos hguard]
    exact ⟨_, rfl, rfl, rfl, .inl rfl⟩
  · simp only [if_neg hguard]
    refine ⟨_, rfl, rfl, rfl, .inr ⟨rfl, rfl, ?_⟩⟩
    intro found hfound halive hsale
    refine hguard (.inr (List.any_eq_true.mpr ⟨found, hfound, ?_⟩))
    simp [halive, hsale]

/-- Placing a sale of no more than the position keeps a run in order. -/
theorem Quiet.placeSell (h : Quiet config cash past world) (execType : ExecType) {size : ℚ}
    (info : OrderInfo) (hnonneg : 0 ≤ size) (hsize : size ≤ world.broker.position) :
    ∃ broker placed, Backtest.placeSell world execType size info = ({ world with broker }, placed) ∧
      Quiet config cash past { world with broker } ∧ SalesOnly world { world with broker } ∧
      broker.position = world.broker.position ∧
      ∀ ref, placed = some ref → ∃ order, broker.orders[ref]? = some order ∧
        order.isBuy = false := by
  by_cases hzero : size = 0
  · refine ⟨world.broker, none, ?_, h, SalesOnly.refl _, rfl, fun _ hnone => by cases hnone⟩
    rw [Backtest.placeSell, if_pos hzero]
  · obtain ⟨focus, hstanding, -⟩ := id h
    have hpos : 0 < size := lt_of_le_of_ne hnonneg (Ne.symm hzero)
    obtain ⟨order, hside, hbits, heq, hstatus⟩ :=
      placeSell_eq world execType info hpos
    have hcontrol : Control (world.broker.orders ++ [order]) world.broker.position
        world.strategy.entryOrder := by
      rcases hstatus with hrejected | ⟨hsubmitted, hsame, hnone⟩
      · exact hstanding.control.reject (by rw [hrejected]; rfl)
      · refine hstanding.control.sell hside hnone ?_
        simpa [NativeOrder.remsize, hbits, hsame] using ⟨hpos, hsize⟩
    refine ⟨_, _, heq, h.create hbits (SameBooks.of_strategy rfl rfl rfl rfl rfl rfl)
      hcontrol hstanding.gap, ⟨?_, ?_, rfl, rfl, rfl⟩, rfl, ?_⟩
    · intro hnoted ref href
      obtain ⟨found, hfound, hsale⟩ := hnoted ref href
      exact ⟨found, (List.getElem?_append_left (List.getElem?_eq_some_iff.mp hfound).1).trans hfound,
        hsale⟩
    · intro other found hfound _
      exact (List.getElem?_append_left (List.getElem?_eq_some_iff.mp hfound).1).trans hfound
    · rintro ref ⟨⟩
      exact ⟨order, by simp [NativeBroker.create], hside⟩

/-- The position is zero, or exceeds `1e-12`. -/
theorem Quiet.position_cases (h : Quiet config cash past world) :
    world.broker.position = 0 ∨ 1 / 10 ^ 12 < world.broker.position := by
  obtain ⟨focus, hstanding, -⟩ := h
  obtain ⟨closed, open_, hledger⟩ := hstanding.ledger
  exact hledger.nonneg

/-- The position of a quiet world is not negative. -/
theorem Quiet.position_nonneg (h : Quiet config cash past world) : 0 ≤ world.broker.position := by
  rcases h.position_cases with hzero | hpos <;> linarith

/-- Placing a sale of no more than the position, and noting it as the stop or the exit, keeps a run
in order. -/
theorem Quiet.placeAndNote (h : Quiet config cash past world) (execType : ExecType) {size : ℚ}
    (info : OrderInfo) (hnonneg : 0 ≤ size) (hsize : size ≤ world.broker.position)
    (note : StrategyState → Option ℕ → StrategyState)
    (hnote : ∀ placed, SameBooks world { world with strategy := note world.strategy placed } ∧
      (note world.strategy placed).entryOrder = world.strategy.entryOrder ∧
      (note world.strategy placed).entryPartialPending = world.strategy.entryPartialPending ∧
      (note world.strategy placed).gapHandledCurrentBar = world.strategy.gapHandledCurrentBar ∧
      ∀ ref, (note world.strategy placed).stopOrder = some ref ∨
          (note world.strategy placed).exitOrder = some ref →
        (world.strategy.stopOrder = some ref ∨ world.strategy.exitOrder = some ref) ∨
          placed = some ref) :
    ∃ broker placed, Backtest.placeSell world execType size info = ({ world with broker }, placed) ∧
      Quiet config cash past { broker, strategy := note world.strategy placed } ∧
      SalesOnly world { broker, strategy := note world.strategy placed } ∧
      broker.position = world.broker.position ∧
      ∀ ref, placed = some ref → ∃ order, broker.orders[ref]? = some order ∧
        order.isBuy = false := by
  obtain ⟨broker, placed, heq, hquiet, hsales, hposition, hplaced⟩ :=
    h.placeSell execType info hnonneg hsize
  obtain ⟨hsame, hentry, hflag, hgap, hrefs⟩ := hnote placed
  refine ⟨broker, placed, heq, ?_, ⟨?_, hsales.buys, hentry, hflag, hgap⟩, hposition, hplaced⟩
  · exact hquiet.setStrategy (SameBooks.of_strategy hsame.totalFees hsame.totalSlippage
      hsame.tradeRecords hsame.seen hsame.entryFillBits hsame.exitFillBits) hentry hgap
  · intro hnoted ref href
    rcases hrefs ref href with hold | hnew
    · exact hsales.noted hnoted ref hold
    · exact hplaced ref hnew

/-- Placing a stop keeps a run in order. -/
theorem Quiet.submitStop (h : Quiet config cash past world) :
    Quiet config cash past (submitStop world) ∧ SalesOnly world (Backtest.submitStop world) ∧
      (Backtest.submitStop world).broker.position = world.broker.position ∧
      (world.strategy.currentStop ≠ none → world.strategy.entrySignalTime ≠ none →
        ∀ ref, (Backtest.submitStop world).strategy.stopOrder = some ref →
          ∃ order, (Backtest.submitStop world).broker.orders[ref]? = some order ∧
            order.isBuy = false) := by
  cases hstop : world.strategy.currentStop with
  | none =>
    have hsubmit : Backtest.submitStop world = world := by simp only [Backtest.submitStop, hstop]
    rw [hsubmit]
    exact ⟨h, SalesOnly.refl _, rfl, fun hnone => absurd rfl hnone⟩
  | some currentStop =>
    cases htime : world.strategy.entrySignalTime with
    | none =>
      have hsubmit : Backtest.submitStop world = world := by
        simp only [Backtest.submitStop, hstop, htime]
      rw [hsubmit]
      exact ⟨h, SalesOnly.refl _, rfl, fun _ hnone => absurd rfl hnone⟩
    | some signalTime =>
      obtain ⟨broker, placed, heq, hquiet, hsales, hposition, hplaced⟩ :=
        h.placeAndNote .stop { signalTime, reason := "HARD_STOP", stopPrice := some currentStop }
          h.position_nonneg (le_refl _) (fun strategy stopOrder => { strategy with stopOrder })
          fun placed => ⟨SameBooks.of_strategy rfl rfl rfl rfl rfl rfl, rfl, rfl, rfl,
            fun ref href => href.symm.imp .inr id⟩
      have hsubmit : Backtest.submitStop world =
          { broker, strategy := { world.strategy with stopOrder := placed } } := by
        simp only [Backtest.submitStop, hstop, htime, heq]
      rw [hsubmit]
      exact ⟨hquiet, hsales, hposition, fun _ _ => hplaced⟩

/-- Placing a stop on an entry fill, which the current bar may execute, keeps a run in order. -/
theorem Quiet.submitStopNow (h : Quiet config cash past world) {bar : Bar} {offer : Option Offer}
    (hsubmit : submitStopNow config bar offer world = .ok world') :
    Quiet config cash past world' ∧ SalesOnly world world' := by
  obtain ⟨hquiet, hsales, -, hplaced⟩ := h.submitStop
  simp only [Backtest.submitStopNow] at hsubmit
  cases hstop : world.strategy.currentStop with
  | none =>
    simp only [hstop] at hsubmit
    cases hsubmit
    exact ⟨h, SalesOnly.refl _⟩
  | some currentStop =>
    cases htime : world.strategy.entrySignalTime with
    | none =>
      simp only [hstop, htime] at hsubmit
      cases hsubmit
      exact ⟨h, SalesOnly.refl _⟩
    | some signalTime =>
      simp only [hstop, htime] at hsubmit
      cases hstopOrder : (Backtest.submitStop world).strategy.stopOrder with
      | none =>
        simp only [hstopOrder] at hsubmit
        cases hsubmit
        exact ⟨hquiet, hsales⟩
      | some ref =>
        simp only [hstopOrder] at hsubmit
        split at hsubmit
        · obtain ⟨order, horder, hside⟩ := hplaced (by simp [hstop]) (by simp [htime]) ref hstopOrder
          obtain ⟨hquiet', hsales'⟩ := hquiet.reconcileSameBarStop horder hside hsubmit
          exact ⟨hquiet', hsales.trans hsales'⟩
        · cases hsubmit
          exact ⟨hquiet, hsales⟩

/-- An entry fill keeps a run in order. -/
theorem Quiet.applyEntryFill (h : Quiet config cash past world) {bar : Bar}
    {offer : Option Offer} {notification : Notification}
    (happly : applyEntryFill config bar offer notification world = .ok world') :
    Quiet config cash past world' ∧ SalesOnly world world' := by
  simp only [Backtest.applyEntryFill] at happly
  split at happly
  · cases happly
    exact ⟨h, SalesOnly.refl _⟩
  · obtain ⟨hquiet, hsales⟩ := Quiet.submitStopNow (by
      exact h.setStrategy (SameBooks.of_strategy rfl rfl rfl rfl rfl rfl) rfl rfl) happly
    exact ⟨hquiet, hsales.noted, hsales.buys, hsales.entryOrder, hsales.entryPartialPending,
      hsales.gapHandled⟩

/-- A liquidation that is settled at once is captured. -/
theorem Quiet.settleImmediateMarketOrder (h : Quiet config cash past world) {order : NativeOrder}
    (horder : world.broker.orders[ref]? = some order) (hside : order.isBuy = false) {now : ℤ}
    {price : ℚ} {settled : Bool}
    (hsettle : settleImmediateMarketOrder config now price world ref = .ok (world', settled)) :
    Quiet config cash past world' ∧ SalesOnly world world' := by
  simp only [Backtest.settleImmediateMarketOrder, horder] at hsettle
  split at hsettle
  case isFalse =>
    cases hsettle
    exact ⟨h, SalesOnly.refl _⟩
  rename_i hmarket
  obtain ⟨first, hfirst, hsettle⟩ := Except.bind_eq_ok.mp hsettle
  obtain ⟨second, hsecond, hsettle⟩ := Except.bind_eq_ok.mp hsettle
  obtain ⟨third, hthird, hsettle⟩ := Except.bind_eq_ok.mp hsettle
  cases hsettle
  obtain ⟨hquiet₁, hsales₁, hbroker₁⟩ := (h.standing ref).1.notifySameBar horder hside hfirst
  obtain ⟨hquiet₂, hsales₂, horder₂⟩ :=
    hquiet₁.submitAccept (hbroker₁ ▸ horder) hside hmarket.2
  obtain ⟨hquiet₃, hsales₃, hbroker₃⟩ :=
    (hquiet₂.standing ref).1.notifySameBar horder₂ hside hsecond
  have horder₃ : second.broker.orders[ref]? = some { order with status := .accepted } := by
    rw [hbroker₃]
    exact horder₂
  obtain ⟨hstanding, hsales₄, hcases⟩ := (hquiet₃.standing ref).1.executeSale horder₃ hside now
    ⟨order.remsize, price, order.remsize * price * config.costs.feeRate⟩
  have horder₄ : ∃ found, (second.broker.execute ref now
      ⟨order.remsize, price, order.remsize * price * config.costs.feeRate⟩).orders[ref]? =
        some found ∧ found.isBuy = false := by
    rcases hcases with hsame | ⟨bit, hbit⟩
    · rw [hsame]
      exact ⟨_, horder₃, hside⟩
    · exact ⟨_, hbit, hside⟩
  obtain ⟨found, hfound, hsale⟩ := horder₄
  obtain ⟨hquiet₅, hsales₅, -⟩ := hstanding.notifySameBar hfound hsale hthird
  exact ⟨hquiet₅, (((hsales₁.trans hsales₂).trans hsales₃).trans hsales₄).trans hsales₅⟩

/-- A liquidation keeps a run in order. -/
theorem Quiet.liquidateAtReference (h : Quiet config cash past world) {bar : Bar}
    {reason : String} {referencePrice : ℚ} {terminal : Bool}
    (hliquidate : liquidateAtReference config bar reason referencePrice terminal world =
      .ok world') : Quiet config cash past world' ∧ SalesOnly world world' := by
  simp only [Backtest.liquidateAtReference] at hliquidate
  split at hliquidate
  case isTrue =>
    cases hliquidate
    exact ⟨h, SalesOnly.refl _⟩
  obtain ⟨⟨⟩, -, hliquidate⟩ := Except.bind_eq_ok.mp hliquidate
  obtain ⟨broker, placed, heq, hquiet, hsales, -, hplaced⟩ :=
    h.placeAndNote .market
      { signalTime := bar.now, reason, terminalReferencePrice := some referencePrice }
      h.position_nonneg (le_refl _) (fun strategy exitOrder => { strategy with exitOrder })
      fun placed => ⟨SameBooks.of_strategy rfl rfl rfl rfl rfl rfl, rfl, rfl, rfl,
        fun ref href => href.imp .inl id⟩
  simp only [heq] at hliquidate
  obtain ⟨ref, href, hliquidate⟩ := Except.bind_eq_ok.mp hliquidate
  obtain ⟨⟨mid, settled⟩, hsettle, hliquidate⟩ := Except.bind_eq_ok.mp hliquidate
  obtain ⟨⟨⟩, -, hliquidate⟩ := Except.bind_eq_ok.mp hliquidate
  obtain ⟨⟨⟩, -, hliquidate⟩ := Except.bind_eq_ok.mp hliquidate
  obtain ⟨⟨⟩, -, hliquidate⟩ := Except.bind_eq_ok.mp hliquidate
  cases hliquidate
  obtain ⟨order, horder, hside⟩ := hplaced ref (require_eq_ok.mp href)
  obtain ⟨hquiet', hsales'⟩ := hquiet.settleImmediateMarketOrder horder hside hsettle
  have hnoted := hsales.trans hsales'
  split
  · refine ⟨?_, hnoted.noted, hnoted.buys, hnoted.entryOrder, hnoted.entryPartialPending,
      hnoted.gapHandled⟩
    exact hquiet'.setStrategy (SameBooks.of_strategy rfl rfl rfl rfl rfl rfl) rfl rfl
  · refine ⟨?_, hnoted.noted, hnoted.buys, hnoted.entryOrder, hnoted.entryPartialPending,
      hnoted.gapHandled⟩
    exact hquiet'.setStrategy (SameBooks.of_strategy rfl rfl rfl rfl rfl rfl) rfl rfl

/-- Canceling orders one after the other keeps a run in order, and the position. -/
theorem Quiet.cancelMany (h : Quiet config cash past world) (refs : List ℕ) :
    Quiet config cash past
      { world with broker := refs.foldl NativeBroker.cancelEndOfData world.broker } := by
  induction refs generalizing world with
  | nil => exact h
  | cons ref refs ih => exact ih (h.cancel ref)

end Steps

end AutoBit.Backtest
