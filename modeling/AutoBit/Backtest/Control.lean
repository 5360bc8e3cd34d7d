import AutoBit.Backtest.Capture

/-!
# The orders of a backtest

At most one purchase and one sale are alive at a time. A sale never exceeds the position, and a
purchase without a fill is alive on a flat account only, so that no matching cycle can execute
both. Every order that has bits is captured before the next cycle, and what remains of an entry is
canceled before it.
-/

namespace AutoBit.Backtest

open Library

/-- The orders that are alive: at most one on each side. A sale does not exceed the position, and
a purchase is the entry order, and is partial unless the account is flat. -/
structure Control (orders : List NativeOrder) (position : ℚ) (entryOrder : Option ℕ) : Prop where
  single : ∀ (ref ref' : ℕ) order order', orders[ref]? = some order → orders[ref']? = some order' →
    order.status.alive = true → order'.status.alive = true → order.isBuy = order'.isBuy →
    ref = ref'
  sale : ∀ (ref : ℕ) order, orders[ref]? = some order → order.status.alive = true →
    order.isBuy = false → 0 < order.remsize ∧ order.remsize ≤ position
  purchase : ∀ (ref : ℕ) order, orders[ref]? = some order → order.status.alive = true →
    order.isBuy = true → entryOrder = some ref ∧ (order.status.started = false → position = 0)
  entry : ∀ ref, entryOrder = some ref → ∃ order, orders[ref]? = some order ∧ order.isBuy = true

/-- No more orders are alive than before. -/
theorem Control.of_fewer {orders orders' : List NativeOrder} {position : ℚ}
    {entryOrder : Option ℕ} (h : Control orders position entryOrder)
    (hfewer : ∀ (ref : ℕ) order', orders'[ref]? = some order' → order'.status.alive = true →
      ∃ order, orders[ref]? = some order ∧ order.status.alive = true ∧
        order'.isBuy = order.isBuy ∧ order'.size = order.size ∧ order'.exbits = order.exbits ∧
        (order'.status.started = false → order.status.started = false))
    (hkept : ∀ (ref : ℕ) order, orders[ref]? = some order →
      ∃ order', orders'[ref]? = some order' ∧ order'.isBuy = order.isBuy) :
    Control orders' position entryOrder where
  single := by
    intro ref ref' order₁ order₂ horder₁ horder₂ halive₁ halive₂ hside
    obtain ⟨before₁, hbefore₁, hlive₁, hside₁, -⟩ := hfewer ref order₁ horder₁ halive₁
    obtain ⟨before₂, hbefore₂, hlive₂, hside₂, -⟩ := hfewer ref' order₂ horder₂ halive₂
    exact h.single ref ref' before₁ before₂ hbefore₁ hbefore₂ hlive₁ hlive₂
      (hside₁.symm.trans (hside.trans hside₂))
  sale := by
    intro ref order' horder' halive hside
    obtain ⟨order, horder, hlive, hsame, hsize, hbits, -⟩ := hfewer ref order' horder' halive
    have hsale := h.sale ref order horder hlive (hsame.symm.trans hside)
    rwa [NativeOrder.remsize, hsize, hbits]
  purchase := by
    intro ref order' horder' halive hside
    obtain ⟨order, horder, hlive, hsame, -, -, hfresh⟩ := hfewer ref order' horder' halive
    obtain ⟨hentry, hflat⟩ := h.purchase ref order horder hlive (hsame.symm.trans hside)
    exact ⟨hentry, fun hnone => hflat (hfresh hnone)⟩
  entry := by
    intro ref hentry
    obtain ⟨order, horder, hside⟩ := h.entry ref hentry
    obtain ⟨order', horder', hsame⟩ := hkept ref order horder
    exact ⟨order', horder', hsame.trans hside⟩

/-- What a notification says stays true: an order that was closed stays closed, and one that was
executed does not begin again. -/
def Told (orders : List NativeOrder) (notification : Notification) : Prop :=
  ∃ order, orders[notification.ref]? = some order ∧
    (notification.status.alive = false → order.status.alive = false) ∧
    (notification.status.started = true → order.status.started = true)

/-- Orders go on: they are never reopened and never begin again. -/
def Later (orders orders' : List NativeOrder) : Prop :=
  ∀ (ref : ℕ) order, orders[ref]? = some order → ∃ order', orders'[ref]? = some order' ∧
    (order.status.alive = false → order'.status.alive = false) ∧
    (order.status.started = true → order'.status.started = true)

/-- What was told of orders still holds when they go on. -/
theorem Told.mono {orders orders' : List NativeOrder} {notification : Notification}
    (h : Told orders notification) (hlater : Later orders orders') : Told orders' notification := by
  obtain ⟨order, horder, hclosed, hexecuted⟩ := h
  obtain ⟨order', horder', hstays, hkeeps⟩ := hlater notification.ref order horder
  exact ⟨order', horder', fun hfinal => hstays (hclosed hfinal), fun hfill => hkeeps (hexecuted hfill)⟩

/-- A closed order has begun. -/
theorem NativeStatus.started_of_closed {status : NativeStatus} (h : status.alive = false) :
    status.started = true := by
  cases status <;> simp_all [NativeStatus.alive, NativeStatus.started]

/-! ## What the broker does to the orders -/

/-- An order after a change of its status. -/
theorem NativeBroker.change_eq {broker : NativeBroker} {ref : ℕ} {order : NativeOrder}
    (horder : broker.orders[ref]? = some order) (status : NativeStatus) :
    broker.change ref status = { broker with
      orders := broker.orders.set ref { order with status }
      notifs := broker.notifs ++ [({ order with status } : NativeOrder).notification ref] } := by
  have hlength := (List.getElem?_eq_some_iff.mp horder).1
  simp [NativeBroker.change, horder, NativeBroker.notify, List.getElem?_set_self hlength]

/-- An order after an execution. -/
theorem NativeBroker.execute_eq {broker : NativeBroker} {ref : ℕ} {order : NativeOrder}
    {offer : Offer} (horder : broker.orders[ref]? = some order)
    (hexecutable : broker.Executable order offer) (now : ℤ) :
    broker.execute ref now offer =
      let psize := broker.positionAfter order.isBuy offer.size
      let executed := order.withBit ⟨now, offer.size, offer.price, offer.comm, psize⟩
      { orders := broker.orders.set ref executed
        position := psize
        cash := broker.cashAfter order.isBuy offer
        notifs := broker.notifs ++ [executed.notification ref] } := by
  have hlength := (List.getElem?_eq_some_iff.mp horder).1
  simp [NativeBroker.execute, horder, if_pos hexecutable, NativeBroker.notify,
    List.getElem?_set_self hlength]

/-- An order of a list in which one was replaced. -/
theorem getElem?_set_cases {orders : List NativeOrder} {ref other : ℕ}
    {order new found : NativeOrder}
    (horder : orders[ref]? = some order) (h : (orders.set ref new)[other]? = some found) :
    other = ref ∧ found = new ∨ other ≠ ref ∧ orders[other]? = some found := by
  by_cases heq : other = ref
  · subst heq
    rw [List.getElem?_set_self (List.getElem?_eq_some_iff.mp horder).1] at h
    exact .inl ⟨rfl, (Option.some.inj h).symm⟩
  · rw [List.getElem?_set_ne (Ne.symm heq)] at h
    exact .inr ⟨heq, h⟩

/-- An order of a list to which one was added. -/
theorem getElem?_snoc_cases {orders : List NativeOrder} {other : ℕ} {new found : NativeOrder}
    (h : (orders ++ [new])[other]? = some found) :
    other = orders.length ∧ found = new ∨ orders[other]? = some found := by
  rcases Nat.lt_trichotomy other orders.length with hlt | heq | hgt
  · rw [List.getElem?_append_left hlt] at h
    exact .inr h
  · subst heq
    exact .inl ⟨rfl, by simpa using h.symm⟩
  · rw [List.getElem?_eq_none_iff.mpr (by simp; omega)] at h
    cases h

/-- The orders are what they were. -/
theorem Extends.refl (orders : List NativeOrder) : Extends orders orders where
  kept := fun _ order horder => ⟨order, horder, ⟨rfl, rfl, rfl⟩, rfl⟩
  new := fun _ _ horder hnone => by cases horder.symm.trans hnone

/-- An order changes its status. -/
theorem Extends.set {orders : List NativeOrder} {ref : ℕ} {order new : NativeOrder}
    (horder : orders[ref]? = some order) (hterms : SameTerms order new)
    (hbits : new.exbits = order.exbits) : Extends orders (orders.set ref new) where
  kept := by
    intro other found hfound
    by_cases heq : other = ref
    · subst heq
      cases horder.symm.trans hfound
      exact ⟨new, List.getElem?_set_self (List.getElem?_eq_some_iff.mp horder).1, hterms, hbits⟩
    · exact ⟨found, (List.getElem?_set_ne (Ne.symm heq)).trans hfound, ⟨rfl, rfl, rfl⟩, rfl⟩
  new := by
    intro other found hfound hnone
    rcases getElem?_set_cases horder hfound with ⟨rfl, -⟩ | ⟨-, hold⟩
    · cases horder.symm.trans hnone
    · cases hold.symm.trans hnone

/-- An order is created. -/
theorem Extends.snoc {orders : List NativeOrder} {new : NativeOrder} (hbits : new.exbits = []) :
    Extends orders (orders ++ [new]) where
  kept := by
    intro other found hfound
    have hlength := (List.getElem?_eq_some_iff.mp hfound).1
    exact ⟨found, (List.getElem?_append_left hlength).trans hfound, ⟨rfl, rfl, rfl⟩, rfl⟩
  new := by
    intro other found hfound hnone
    rcases getElem?_snoc_cases hfound with ⟨-, rfl⟩ | hold
    · exact hbits
    · cases hold.symm.trans hnone

/-- Orders may stay as they are. -/
theorem Later.refl (orders : List NativeOrder) : Later orders orders :=
  fun _ order horder => ⟨order, horder, id, id⟩

/-- An order goes on. -/
theorem Later.set {orders : List NativeOrder} {ref : ℕ} {order new : NativeOrder}
    (horder : orders[ref]? = some order)
    (hclosed : order.status.alive = false → new.status.alive = false)
    (hstarted : order.status.started = true → new.status.started = true) :
    Later orders (orders.set ref new) := by
  intro other found hfound
  by_cases heq : other = ref
  · subst heq
    cases horder.symm.trans hfound
    exact ⟨new, List.getElem?_set_self (List.getElem?_eq_some_iff.mp horder).1, hclosed, hstarted⟩
  · exact ⟨found, (List.getElem?_set_ne (Ne.symm heq)).trans hfound, id, id⟩

/-- An order is created. -/
theorem Later.snoc (orders : List NativeOrder) (new : NativeOrder) :
    Later orders (orders ++ [new]) :=
  fun _ found hfound => ⟨found,
    (List.getElem?_append_left (List.getElem?_eq_some_iff.mp hfound).1).trans hfound, id, id⟩

/-! ## The state of a run -/

/-- The ledger, the orders and the notifications of a run are in order. -/
structure Standing (config : EngineConfig) (cash : ℚ) (past : List Notification) (focus : ℕ)
    (world : World) : Prop where
  ledger : ∃ closed open_, Ledger config cash world focus closed open_
  control : Control world.broker.orders world.broker.position world.strategy.entryOrder
  told : ∀ notification ∈ past ++ world.broker.notifs, Told world.broker.orders notification
  gap : world.strategy.gapHandledCurrentBar = true → world.strategy.entryOrder = none

/-- A run is in order and every bit is captured. -/
def Quiet (config : EngineConfig) (cash : ℚ) (past : List Notification) (world : World) : Prop :=
  ∃ focus, Standing config cash past focus world ∧ pendingFills world focus = []

section Steps

variable {config : EngineConfig} {cash : ℚ} {past : List Notification} {focus ref : ℕ}
  {world world' : World}

/-- A step without an execution keeps a run in order when it keeps the orders so. -/
theorem Standing.of_sameBooks (h : Standing config cash past focus world)
    (hsame : SameBooks world world')
    (hcontrol : Control world'.broker.orders world'.broker.position world'.strategy.entryOrder)
    (hlater : Later world.broker.orders world'.broker.orders)
    (hnotifs : ∀ notification ∈ world'.broker.notifs, notification ∈ world.broker.notifs ∨
      Told world'.broker.orders notification)
    (hgap : world'.strategy.gapHandledCurrentBar = true → world'.strategy.entryOrder = none) :
    Standing config cash past focus world' where
  ledger := by
    obtain ⟨closed, open_, hledger⟩ := h.ledger
    exact ⟨closed, open_, hledger.of_sameBooks hsame⟩
  control := hcontrol
  told := by
    intro notification hmem
    rcases List.mem_append.mp hmem with hpast | hqueued
    · exact (h.told notification (List.mem_append_left _ hpast)).mono hlater
    · rcases hnotifs notification hqueued with hold | hnew
      · exact (h.told notification (List.mem_append_right _ hold)).mono hlater
      · exact hnew
  gap := hgap

/-- The same when every bit is captured. -/
theorem Quiet.of_sameBooks (h : Quiet config cash past world) (hsame : SameBooks world world')
    (hcontrol : Control world'.broker.orders world'.broker.position world'.strategy.entryOrder)
    (hlater : Later world.broker.orders world'.broker.orders)
    (hnotifs : ∀ notification ∈ world'.broker.notifs, notification ∈ world.broker.notifs ∨
      Told world'.broker.orders notification)
    (hgap : world'.strategy.gapHandledCurrentBar = true → world'.strategy.entryOrder = none) :
    Quiet config cash past world' := by
  obtain ⟨focus, hstanding, hnone⟩ := h
  exact ⟨focus, hstanding.of_sameBooks hsame hcontrol hlater hnotifs hgap,
    (hsame.pendingFills_eq focus).trans hnone⟩

/-- When every bit is captured, any order may be the next to be executed. -/
theorem Quiet.standing (h : Quiet config cash past world) (ref : ℕ) :
    Standing config cash past ref world ∧ pendingFills world ref = [] := by
  obtain ⟨focus, hstanding, hnone⟩ := h
  obtain ⟨closed, open_, hledger⟩ := hstanding.ledger
  obtain ⟨hrefocused, hpending⟩ := hledger.refocus hnone ref
  exact ⟨⟨⟨closed, open_, hrefocused⟩, hstanding.control, hstanding.told, hstanding.gap⟩, hpending⟩

/-- A step that changes the strategy only, and neither its books nor its entry order. -/
theorem SameBooks.of_strategy {strategy : StrategyState}
    (hfees : strategy.totalFees = world.strategy.totalFees)
    (hslippage : strategy.totalSlippage = world.strategy.totalSlippage)
    (htrades : strategy.tradeRecords = world.strategy.tradeRecords)
    (hseen : strategy.seenExecutionBits = world.strategy.seenExecutionBits)
    (hentry : strategy.entryFillBits = world.strategy.entryFillBits)
    (hexit : strategy.exitFillBits = world.strategy.exitFillBits) :
    SameBooks world { world with strategy } :=
  ⟨hfees, hslippage, htrades, hseen, hentry, hexit, rfl, rfl, Extends.refl _⟩

/-- A change of a status executes nothing. -/
theorem SameBooks.change {order : NativeOrder} (horder : world.broker.orders[ref]? = some order)
    (status : NativeStatus) :
    SameBooks world { world with broker := world.broker.change ref status } := by
  rw [NativeBroker.change_eq horder]
  exact ⟨rfl, rfl, rfl, rfl, rfl, rfl, rfl, rfl, Extends.set horder ⟨rfl, rfl, rfl⟩ rfl⟩

/-- A change of a status that closes an order, or accepts one. -/
theorem Standing.change (h : Standing config cash past focus world) {order : NativeOrder}
    (horder : world.broker.orders[ref]? = some order) {status : NativeStatus}
    (halive : status.alive = true → order.status.alive = true ∧ order.status.started = false) :
    Standing config cash past focus { world with broker := world.broker.change ref status } := by
  refine h.of_sameBooks (SameBooks.change horder status) ?_ ?_ ?_ h.gap
  · rw [NativeBroker.change_eq horder]
    refine h.control.of_fewer ?_ ?_
    · intro other found hfound hlive
      rcases getElem?_set_cases horder hfound with ⟨rfl, rfl⟩ | ⟨-, hold⟩
      · obtain ⟨hbefore, hfresh⟩ := halive hlive
        exact ⟨order, horder, hbefore, rfl, rfl, rfl, fun _ => hfresh⟩
      · exact ⟨found, hold, hlive, rfl, rfl, rfl, id⟩
    · intro other found hfound
      have hextends : Extends world.broker.orders
          (world.broker.orders.set ref { order with status }) :=
        Extends.set horder ⟨rfl, rfl, rfl⟩ rfl
      obtain ⟨found', hfound', hterms, -⟩ := hextends.kept other found hfound
      exact ⟨found', hfound', hterms.isBuy⟩
  · rw [NativeBroker.change_eq horder]
    refine Later.set horder (fun hclosed => ?_) fun hstarted => ?_
    · exact Bool.eq_false_iff.mpr fun hlive => Bool.eq_false_iff.mp hclosed (halive hlive).1
    · cases hlive : status.alive with
      | false => exact NativeStatus.started_of_closed hlive
      | true =>
        rw [(halive hlive).2] at hstarted
        cases hstarted
  · rw [NativeBroker.change_eq horder]
    intro notification hmem
    rcases List.mem_append.mp hmem with hold | hnew
    · exact .inl hold
    · rw [List.mem_singleton] at hnew
      subst hnew
      have hself : (world.broker.orders.set ref { order with status })[ref]? =
          some { order with status } :=
        List.getElem?_set_self (List.getElem?_eq_some_iff.mp horder).1
      exact .inr ⟨{ order with status }, hself, id, id⟩

/-- The same when every bit is captured. -/
theorem Quiet.change (h : Quiet config cash past world) {order : NativeOrder}
    (horder : world.broker.orders[ref]? = some order) {status : NativeStatus}
    (halive : status.alive = true → order.status.alive = true ∧ order.status.started = false) :
    Quiet config cash past { world with broker := world.broker.change ref status } := by
  obtain ⟨focus, hstanding, hnone⟩ := h
  exact ⟨focus, hstanding.change horder halive,
    ((SameBooks.change horder status).pendingFills_eq focus).trans hnone⟩

/-- Canceling an order keeps a run in order. -/
theorem Quiet.cancel (h : Quiet config cash past world) (ref : ℕ) :
    Quiet config cash past { world with broker := world.broker.cancel ref } := by
  unfold NativeBroker.cancel
  cases horder : world.broker.orders[ref]? with
  | none => exact h
  | some order =>
    by_cases halive : order.status.alive = true
    · simp only [if_pos halive]
      exact h.change horder (by simp [NativeStatus.alive])
    · simp only [if_neg halive]
      exact h

/-- An order that is created keeps a run in order when it keeps the orders so. -/
theorem Quiet.create (h : Quiet config cash past world) {order : NativeOrder}
    {strategy : StrategyState} (hbits : order.exbits = [])
    (hsame : SameBooks world { world with strategy })
    (hcontrol : Control (world.broker.orders ++ [order]) world.broker.position strategy.entryOrder)
    (hgap : strategy.gapHandledCurrentBar = true → strategy.entryOrder = none) :
    Quiet config cash past { broker := (world.broker.create order).1, strategy } := by
  refine h.of_sameBooks ?_ hcontrol (Later.snoc _ _) ?_ hgap
  · exact ⟨hsame.totalFees, hsame.totalSlippage, hsame.tradeRecords, hsame.seen,
      hsame.entryFillBits, hsame.exitFillBits, rfl, rfl, Extends.snoc hbits⟩
  · intro notification hmem
    rcases List.mem_append.mp hmem with hold | hnew
    · exact .inl hold
    · rw [List.mem_singleton] at hnew
      subst hnew
      exact .inr ⟨order, by simp [NativeBroker.create, NativeOrder.notification], id, id⟩

/-- An order that is rejected at once leaves the orders that are alive. -/
theorem Control.reject {orders : List NativeOrder} {position : ℚ} {entryOrder : Option ℕ}
    (h : Control orders position entryOrder) {order : NativeOrder}
    (hclosed : order.status.alive = false) : Control (orders ++ [order]) position entryOrder := by
  refine h.of_fewer ?_ ?_
  · intro other found hfound hlive
    rcases getElem?_snoc_cases hfound with ⟨-, rfl⟩ | hold
    · rw [hclosed] at hlive
      cases hlive
    · exact ⟨found, hold, hlive, rfl, rfl, rfl, id⟩
  · intro other found hfound
    exact ⟨found,
      (List.getElem?_append_left (List.getElem?_eq_some_iff.mp hfound).1).trans hfound, rfl⟩

/-- An order of a side on which none is alive leaves at most one alive on each side. -/
theorem Control.single_snoc {orders : List NativeOrder} {position : ℚ} {entryOrder : Option ℕ}
    (h : Control orders position entryOrder) {new : NativeOrder}
    (hnone : ∀ found ∈ orders, found.status.alive = true → found.isBuy ≠ new.isBuy)
    (ref ref' : ℕ) (order order' : NativeOrder) (horder : (orders ++ [new])[ref]? = some order)
    (horder' : (orders ++ [new])[ref']? = some order') (halive : order.status.alive = true)
    (halive' : order'.status.alive = true) (hsame : order.isBuy = order'.isBuy) : ref = ref' := by
  rcases getElem?_snoc_cases horder with ⟨rfl, rfl⟩ | hold
  · rcases getElem?_snoc_cases horder' with ⟨rfl, -⟩ | hold'
    · rfl
    · exact absurd hsame.symm (hnone order' (List.mem_of_getElem? hold') halive')
  · rcases getElem?_snoc_cases horder' with ⟨rfl, rfl⟩ | hold'
    · exact absurd hsame (hnone order (List.mem_of_getElem? hold) halive)
    · exact h.single ref ref' order order' hold hold' halive halive' hsame

/-- A sale of no more than the position is alive when no other sale is. -/
theorem Control.sell {orders : List NativeOrder} {position : ℚ} {entryOrder : Option ℕ}
    (h : Control orders position entryOrder) {order : NativeOrder} (hside : order.isBuy = false)
    (hnone : ∀ found ∈ orders, found.status.alive = true → found.isBuy ≠ false)
    (hsize : 0 < order.remsize ∧ order.remsize ≤ position) :
    Control (orders ++ [order]) position entryOrder where
  single := h.single_snoc (by rwa [hside])
  sale := by
    intro ref found hfound hlive hsale
    rcases getElem?_snoc_cases hfound with ⟨rfl, rfl⟩ | hold
    · exact hsize
    · exact h.sale ref found hold hlive hsale
  purchase := by
    intro ref found hfound hlive hbuy
    rcases getElem?_snoc_cases hfound with ⟨rfl, rfl⟩ | hold
    · rw [hside] at hbuy
      cases hbuy
    · exact h.purchase ref found hold hlive hbuy
  entry := by
    intro ref hentry
    obtain ⟨found, hfound, hbuy⟩ := h.entry ref hentry
    exact ⟨found,
      (List.getElem?_append_left (List.getElem?_eq_some_iff.mp hfound).1).trans hfound, hbuy⟩

/-- A purchase is alive on a flat account when no other purchase is, as the entry order. -/
theorem Control.buy {orders : List NativeOrder} {position : ℚ} {entryOrder : Option ℕ}
    (h : Control orders position entryOrder) {order : NativeOrder} (hside : order.isBuy = true)
    (hnone : ∀ found ∈ orders, found.status.alive = true → found.isBuy ≠ true)
    (hflat : position = 0) :
    Control (orders ++ [order]) position (some orders.length) where
  single := h.single_snoc (by rwa [hside])
  sale := by
    intro ref found hfound hlive hsale
    rcases getElem?_snoc_cases hfound with ⟨rfl, rfl⟩ | hold
    · rw [hside] at hsale
      cases hsale
    · exact h.sale ref found hold hlive hsale
  purchase := by
    intro ref found hfound hlive hbuy
    rcases getElem?_snoc_cases hfound with ⟨rfl, rfl⟩ | hold
    · exact ⟨rfl, fun _ => hflat⟩
    · exact absurd hbuy (hnone found (List.mem_of_getElem? hold) hlive)
  entry := by
    intro ref hentry
    cases hentry
    exact ⟨order, by simp, hside⟩

/-- What is left of an order after one more bit. -/
theorem NativeOrder.remsize_withBit (order : NativeOrder) (bit : ExecutionBit) :
    (order.withBit bit).remsize = order.remsize - bit.size := by
  simp [NativeOrder.withBit, NativeOrder.remsize]
  ring

/-- An order with one more bit is completed, or it is partial and something of it is left. -/
theorem NativeOrder.withBit_status (order : NativeOrder) (bit : ExecutionBit) :
    (order.withBit bit).status = .completed ∨
      (order.withBit bit).status = .partial_ ∧ order.remsize ≠ bit.size := by
  have hrem : ({ order with exbits := order.exbits ++ [bit] } : NativeOrder).remsize =
      order.remsize - bit.size := by
    simp [NativeOrder.remsize]
    ring
  by_cases hdone : ({ order with exbits := order.exbits ++ [bit] } : NativeOrder).remsize = 0
  · exact .inl (if_pos hdone)
  · exact .inr ⟨if_neg hdone, fun heq => hdone (hrem.trans (sub_eq_zero.mpr heq))⟩

/-- An order with a bit was executed. -/
theorem NativeOrder.withBit_started (order : NativeOrder) (bit : ExecutionBit) :
    (order.withBit bit).status.started = true := by
  rcases order.withBit_status bit with hdone | ⟨hpart, -⟩
  · rw [hdone]
    rfl
  · rw [hpart]
    rfl

/-- The orders after an execution: what is sold was in the position, and a purchase is not alive
beside it. -/
theorem Control.execute {orders : List NativeOrder} {position position' : ℚ}
    {entryOrder : Option ℕ} (h : Control orders position entryOrder) {order : NativeOrder}
    {bit : ExecutionBit} (horder : orders[ref]? = some order) (halive : order.status.alive = true)
    (hsize : 0 < bit.size) (hrest : bit.size ≤ order.remsize)
    (hposition : position' = position + if order.isBuy then bit.size else -bit.size) :
    Control (orders.set ref (order.withBit bit)) position' entryOrder where
  single := by
    intro ref₁ ref₂ order₁ order₂ horder₁ horder₂ halive₁ halive₂ hsame
    have hold : ∀ (other : ℕ) found, (orders.set ref (order.withBit bit))[other]? = some found →
        found.status.alive = true → ∃ before, orders[other]? = some before ∧
          before.status.alive = true ∧ before.isBuy = found.isBuy := by
      intro other found hfound hlive
      rcases getElem?_set_cases horder hfound with ⟨rfl, rfl⟩ | ⟨-, hbefore⟩
      · exact ⟨order, horder, halive, rfl⟩
      · exact ⟨found, hbefore, hlive, rfl⟩
    obtain ⟨before₁, hbefore₁, hlive₁, hside₁⟩ := hold ref₁ order₁ horder₁ halive₁
    obtain ⟨before₂, hbefore₂, hlive₂, hside₂⟩ := hold ref₂ order₂ horder₂ halive₂
    exact h.single ref₁ ref₂ before₁ before₂ hbefore₁ hbefore₂ hlive₁ hlive₂
      (hside₁.trans (hsame.trans hside₂.symm))
  sale := by
    intro other found hfound hlive hsale
    rcases getElem?_set_cases horder hfound with ⟨rfl, rfl⟩ | ⟨hne, hbefore⟩
    · have hside : order.isBuy = false := hsale
      obtain ⟨-, hbound⟩ := h.sale other order horder halive hside
      rw [NativeOrder.remsize_withBit, hposition, hside]
      rcases order.withBit_status bit with hdone | ⟨-, hleft⟩
      · rw [hdone] at hlive
        cases hlive
      · refine ⟨sub_pos.mpr (lt_of_le_of_ne hrest (Ne.symm hleft)), ?_⟩
        simp only [Bool.false_eq_true, if_false]
        linarith
    · obtain ⟨hpos, hbound⟩ := h.sale other found hbefore hlive hsale
      cases hside : order.isBuy with
      | true =>
        rw [hposition, hside]
        exact ⟨hpos, by simp only [if_true]; linarith⟩
      | false =>
        exact absurd (h.single other ref found order hbefore horder hlive halive
          (hsale.trans hside.symm)) hne
  purchase := by
    intro other found hfound hlive hbuy
    rcases getElem?_set_cases horder hfound with ⟨rfl, rfl⟩ | ⟨hne, hbefore⟩
    · obtain ⟨hentry, -⟩ := h.purchase other order horder halive hbuy
      refine ⟨hentry, fun hfresh => ?_⟩
      rw [NativeOrder.withBit_started] at hfresh
      cases hfresh
    · obtain ⟨hentry, hflat⟩ := h.purchase other found hbefore hlive hbuy
      refine ⟨hentry, fun hnone => ?_⟩
      cases hside : order.isBuy with
      | true =>
        exact absurd (h.single other ref found order hbefore horder hlive halive
          (hbuy.trans hside.symm)) hne
      | false =>
        -- a sale is alive on a position only, and this purchase on a flat account
        obtain ⟨hpos, hbound⟩ := h.sale ref order horder halive hside
        linarith [hflat hnone]
  entry := by
    intro other hentry
    obtain ⟨found, hfound, hbuy⟩ := h.entry other hentry
    by_cases heq : other = ref
    · subst heq
      cases horder.symm.trans hfound
      exact ⟨_, List.getElem?_set_self (List.getElem?_eq_some_iff.mp horder).1, hbuy⟩
    · exact ⟨found, (List.getElem?_set_ne (Ne.symm heq)).trans hfound, hbuy⟩

/-- A pending order is alive. -/
theorem NativeStatus.alive_of_isPending {status : NativeStatus} (h : status.isPending = true) :
    status.alive = true := by
  cases status <;> simp_all [NativeStatus.isPending, NativeStatus.alive]

/-- An execution of the order on which bits may be pending keeps a run in order. -/
theorem Standing.execute (h : Standing config cash past ref world) (now : ℤ) (offer : Offer) :
    Standing config cash past ref
      { world with broker := world.broker.execute ref now offer } := by
  obtain ⟨closed, open_, hledger⟩ := h.ledger
  have hledger' := hledger.execute now offer
  cases horder : world.broker.orders[ref]? with
  | none =>
    have hsame : world.broker.execute ref now offer = world.broker := by
      simp [NativeBroker.execute, horder]
    rw [hsame]
    exact h
  | some order =>
    by_cases hexecutable : world.broker.Executable order offer
    · have halive := NativeStatus.alive_of_isPending hexecutable.1
      rw [NativeBroker.execute_eq horder hexecutable] at hledger' ⊢
      obtain ⟨-, hsize, hrest, -⟩ := hexecutable
      refine ⟨⟨closed, open_, hledger'⟩, ?_, ?_, h.gap⟩
      · refine h.control.execute horder halive hsize hrest ?_
        cases hside : order.isBuy <;> simp [NativeBroker.positionAfter, sub_eq_add_neg]
      · have hlater : Later world.broker.orders (world.broker.orders.set ref (order.withBit ⟨now,
            offer.size, offer.price, offer.comm,
            world.broker.positionAfter order.isBuy offer.size⟩)) :=
          Later.set horder (fun hclosed => by rw [hclosed] at halive; cases halive)
            fun _ => order.withBit_started _
        intro notification hmem
        rw [← List.append_assoc] at hmem
        rcases List.mem_append.mp hmem with hold | hnew
        · exact (h.told notification hold).mono hlater
        · rw [List.mem_singleton] at hnew
          subst hnew
          exact ⟨_, List.getElem?_set_self (List.getElem?_eq_some_iff.mp horder).1, id, id⟩
    · have hsame : world.broker.execute ref now offer = world.broker := by
        simp [NativeBroker.execute, horder, if_neg hexecutable]
      rw [hsame]
      exact h

end Steps

end AutoBit.Backtest
