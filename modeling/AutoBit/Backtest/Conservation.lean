import AutoBit.Backtest.Bars

/-!
# The fills of a backtest are conserved

In a matching cycle one order at most is alive. Its bits are captured on the first notification
of it, before anything that this leads to, and the notifications that are due come before `next`.
So every trade record closes what was bought, and no bit is lost or counted twice.
-/

namespace AutoBit.Backtest

open Library

section Steps

variable {config : EngineConfig} {cash : ℚ} {past due : List Notification} {focus ref : ℕ}
  {world world' : World}

/-- A run in a matching cycle. The order that is alive is the one on which bits may be pending, and
a notification of it is queued when some are. -/
structure Matching (config : EngineConfig) (cash : ℚ) (past : List Notification) (focus : ℕ)
    (world : World) : Prop where
  standing : Standing config cash past focus world
  alone : ∀ (ref : ℕ) order, world.broker.orders[ref]? = some order → order.status.alive = true →
    ref = focus
  announced : pendingFills world focus ≠ [] →
    ∃ notification ∈ world.broker.notifs, notification.ref = focus
  entry : ∀ ref order, world.strategy.entryOrder = some ref →
    world.broker.orders[ref]? = some order → order.status.started = true → ref = focus
  due : EntryDue world world.broker.notifs
  noted : Noted world

/-- A purchase that has not begun is alive on a flat account only, so that a sale is not alive
beside it. -/
theorem Between.alone (h : Between config cash past world) {ref ref' : ℕ}
    {order order' : NativeOrder} (horder : world.broker.orders[ref]? = some order)
    (horder' : world.broker.orders[ref']? = some order') (halive : order.status.alive = true)
    (halive' : order'.status.alive = true) : ref = ref' := by
  obtain ⟨focus, hstanding, -⟩ := h.quiet
  have hcontrol := hstanding.control
  have hboth : ∀ (sale buy : ℕ) sold bought, world.broker.orders[sale]? = some sold →
      world.broker.orders[buy]? = some bought → sold.status.alive = true →
      bought.status.alive = true → sold.isBuy = false → bought.isBuy = true → False := by
    intro sale buy sold bought hsold hbought hsoldAlive hboughtAlive hsale hbuy
    obtain ⟨howned, hflat⟩ := hcontrol.purchase buy bought hbought hboughtAlive hbuy
    obtain ⟨hpos, hbound⟩ := hcontrol.sale sale sold hsold hsoldAlive hsale
    have hposition := hflat (h.idle buy bought howned hbought)
    linarith
  cases hside : order.isBuy <;> cases hside' : order'.isBuy
  · exact hcontrol.single ref ref' order order' horder horder' halive halive'
      (hside.trans hside'.symm)
  · exact (hboth ref ref' order order' horder horder' halive halive' hside hside').elim
  · exact (hboth ref' ref order' order horder' horder halive' halive hside' hside).elim
  · exact hcontrol.single ref ref' order order' horder horder' halive halive'
      (hside.trans hside'.symm)

/-- A run between bars may begin a matching cycle. -/
theorem Between.matching (h : Between config cash past world) :
    ∃ focus, Matching config cash past focus world := by
  obtain ⟨focus, hfocus⟩ : ∃ focus, ∀ (ref : ℕ) order, world.broker.orders[ref]? = some order →
      order.status.alive = true → ref = focus := by
    by_cases hlive : ∃ (ref : ℕ) (order : NativeOrder), world.broker.orders[ref]? = some order ∧
        order.status.alive = true
    · obtain ⟨focus, order, horder, halive⟩ := hlive
      exact ⟨focus, fun ref order' horder' halive' => h.alone horder' horder halive' halive⟩
    · exact ⟨0, fun ref order horder halive => absurd ⟨ref, order, horder, halive⟩ hlive⟩
  obtain ⟨hstanding, hnone⟩ := h.quiet.standing focus
  refine ⟨focus, hstanding, hfocus, fun hsome => absurd hnone hsome, ?_, ?_, h.noted⟩
  · intro ref order howned horder hstarted
    rw [h.idle ref order howned horder] at hstarted
    cases hstarted
  · intro ref order howned horder hstarted
    rw [h.idle ref order howned horder] at hstarted
    cases hstarted

/-- The order that is alive goes on, and a notification of it is queued. -/
theorem Matching.replace (h : Matching config cash past focus world) {order new : NativeOrder}
    (horder : world.broker.orders[ref]? = some order) (halive : order.status.alive = true)
    (hside : new.isBuy = order.isBuy) {position cash' : ℚ}
    (hstanding : Standing config cash past focus { world with broker := {
      orders := world.broker.orders.set ref new
      position
      cash := cash'
      notifs := world.broker.notifs ++ [new.notification ref] } }) :
    Matching config cash past focus { world with broker := {
      orders := world.broker.orders.set ref new
      position
      cash := cash'
      notifs := world.broker.notifs ++ [new.notification ref] } } := by
  have href := h.alone ref order horder halive
  refine ⟨hstanding, ?_, ?_, ?_, ?_, h.noted.set horder hside⟩
  · intro other found hfound hlive
    rcases getElem?_set_cases horder hfound with ⟨rfl, -⟩ | ⟨-, hold⟩
    · exact href
    · exact h.alone other found hold hlive
  · exact fun _ => ⟨new.notification ref, by simp, href⟩
  · intro other found howned hfound hstarted
    rcases getElem?_set_cases horder hfound with ⟨rfl, -⟩ | ⟨-, hold⟩
    · exact href
    · exact h.entry other found howned hold hstarted
  · intro other found howned hfound hstarted
    rcases getElem?_set_cases horder hfound with ⟨rfl, rfl⟩ | ⟨-, hold⟩
    · exact .inr ⟨found.notification other, by simp, rfl, rfl⟩
    · refine (h.due other found howned hold hstarted).imp_right ?_
      rintro ⟨notification, hmem, hboth⟩
      exact ⟨notification, List.mem_append_left _ hmem, hboth⟩

/-- The status of the order that is alive changes. -/
theorem Matching.change (h : Matching config cash past focus world) {order : NativeOrder}
    (horder : world.broker.orders[ref]? = some order) (halive : order.status.alive = true)
    {status : NativeStatus} (hfresh : status.alive = true → order.status.started = false) :
    Matching config cash past focus { world with broker := world.broker.change ref status } := by
  have hstanding := h.standing.change horder fun hlive => ⟨halive, hfresh hlive⟩
  rw [NativeBroker.change_eq horder] at hstanding ⊢
  exact h.replace horder halive (by rfl) hstanding

/-- An event of a matching cycle. -/
theorem Matching.matchEvent (h : Matching config cash past focus world) (now : ℤ)
    (event : MatchEvent) :
    Matching config cash past focus { world with broker := world.broker.matchEvent now event } := by
  cases event with
  | accept ref =>
    simp only [NativeBroker.matchEvent]
    cases horder : world.broker.orders[ref]? with
    | none => exact h
    | some order =>
      by_cases hsubmitted : order.status = .submitted
      · simp only [if_pos hsubmitted]
        exact h.change horder (by rw [hsubmitted]; rfl) fun _ => by rw [hsubmitted]; rfl
      · simp only [if_neg hsubmitted]
        exact h
  | retire ref status =>
    simp only [NativeBroker.matchEvent]
    cases horder : world.broker.orders[ref]? with
    | none => exact h
    | some order =>
      by_cases hretired : order.status.alive = true ∧ status ∈ [.expired, .margin, .rejected]
      · simp only [if_pos hretired]
        refine h.change horder hretired.1 fun hlive => ?_
        have hcases := hretired.2
        simp only [List.mem_cons, List.not_mem_nil, or_false] at hcases
        rcases hcases with rfl | rfl | rfl <;> cases hlive
      · simp only [if_neg hretired]
        exact h
  | fill ref offer =>
    simp only [NativeBroker.matchEvent]
    cases horder : world.broker.orders[ref]? with
    | none =>
      have hsame : world.broker.execute ref now offer = world.broker := by
        simp [NativeBroker.execute, horder]
      rw [hsame]
      exact h
    | some order =>
      by_cases hexecutable : world.broker.Executable order offer
      · have halive := NativeStatus.alive_of_isPending hexecutable.1
        obtain rfl := h.alone ref order horder halive
        have hstanding := h.standing.execute now offer
        rw [NativeBroker.execute_eq horder hexecutable] at hstanding ⊢
        exact h.replace horder halive (by rfl) hstanding
      · have hsame : world.broker.execute ref now offer = world.broker := by
          simp [NativeBroker.execute, horder, if_neg hexecutable]
        rw [hsame]
        exact h

/-- A run in which notifications are due before `next`. While bits are pending, a notification of
their order is due, and no other entry order has begun. -/
structure Delivering (config : EngineConfig) (cash : ℚ) (past due : List Notification)
    (world : World) : Prop where
  standing : ∃ focus, Standing config cash past focus world ∧
    (pendingFills world focus ≠ [] → (∃ notification ∈ due, notification.ref = focus) ∧
      ∀ ref order, world.strategy.entryOrder = some ref →
        world.broker.orders[ref]? = some order → order.status.started = true → ref = focus)
  due : EntryDue world due
  noted : Noted world

/-- When the cycle ends, what it queued is due. -/
theorem Matching.close (h : Matching config cash past focus world) :
    Delivering config cash (past ++ world.broker.notifs) world.broker.notifs
      { world with broker := { world.broker with notifs := [] } } where
  standing := by
    obtain ⟨closed, open_, hledger⟩ := h.standing.ledger
    have hsame : SameBooks world { world with broker := { world.broker with notifs := [] } } :=
      ⟨rfl, rfl, rfl, rfl, rfl, rfl, rfl, rfl, Extends.refl _⟩
    refine ⟨focus, ⟨⟨closed, open_, hledger.of_sameBooks hsame⟩, h.standing.control, ?_,
      h.standing.gap⟩, fun hsome => ⟨h.announced hsome, h.entry⟩⟩
    intro notification hmem
    exact h.standing.told notification (by simpa using hmem)
  due := h.due
  noted := h.noted

/-- When every bit is captured, only the entry order waits for what is due. -/
theorem Quiet.delivering (h : Quiet config cash past world) (hdue : EntryDue world due)
    (hnoted : Noted world) : Delivering config cash past due world := by
  obtain ⟨focus, hstanding, hnone⟩ := h
  exact ⟨⟨focus, hstanding, fun hsome => absurd hnone hsome⟩, hdue, hnoted⟩

/-- Without a notification that is due, every bit is captured. -/
theorem Delivering.quiet (h : Delivering config cash past [] world) :
    Quiet config cash past world := by
  obtain ⟨focus, hstanding, hpending⟩ := h.standing
  refine ⟨focus, hstanding, ?_⟩
  by_contra hsome
  obtain ⟨⟨notification, hmem, -⟩, -⟩ := hpending hsome
  cases hmem

/-- The last part of a notification leaves what is due. -/
theorem Delivering.notifyExit (h : Delivering config cash past due world)
    (notification : Notification) (isSell : Bool) :
    Delivering config cash past due (Backtest.notifyExit world notification isSell) := by
  obtain ⟨strategy, heq, hsame, hentry, hflag, hgap, hrefs⟩ :=
    notifyExit_eq world notification isSell
  rw [heq]
  obtain ⟨focus, hstanding, hpending⟩ := h.standing
  refine ⟨⟨focus, hstanding.of_sameBooks hsame ?_ (Later.refl _) (fun _ => .inl) ?_, ?_⟩, ?_, ?_⟩
  · simpa only [hentry] using hstanding.control
  · simpa only [hentry, hgap] using hstanding.gap
  · rw [hsame.pendingFills_eq]
    simpa only [hentry] using hpending
  · simpa only [EntryDue, hentry, hflag] using h.due
  · exact fun ref href => h.noted ref (hrefs ref href)

/-- A notification that is due stays so when another is delivered. -/
theorem mem_erase_of_field {notification other : Notification} (hmem : other ∈ due)
    (hne : other.ref ≠ notification.ref ∨ other.status ≠ notification.status) :
    other ∈ due.erase notification := by
  refine (List.mem_erase_of_ne ?_).mpr hmem
  rintro rfl
  rcases hne with hne | hne <;> exact hne rfl

/-- Capturing the bits of the order of a notification leaves less due, unless the notification
tells of the entry order that it has begun. -/
theorem Delivering.capture (h : Delivering config cash past due world)
    {notification : Notification} {order : NativeOrder}
    (horder : world.broker.orders[notification.ref]? = some order) {strategy : StrategyState}
    (hcapture : captureNewFills config world.strategy notification.ref order = .ok strategy)
    (hother : world.strategy.entryOrder ≠ some notification.ref ∨
      notification.status.started = false) :
    Delivering config cash past (due.erase notification) { world with strategy } := by
  obtain ⟨focus, hstanding, hpending⟩ := h.standing
  obtain ⟨hcaptured, hnone, hsales⟩ := hstanding.capture horder hcapture
  refine ⟨⟨focus, hcaptured, fun hsome => ?_⟩, ?_, hsales.noted h.noted⟩
  · have hmissed : ¬(notification.ref = focus ∨ pendingFills world focus = []) :=
      fun hdone => hsome (hnone hdone)
    rw [not_or] at hmissed
    obtain ⟨⟨announcement, hmem, href⟩, hentry⟩ := hpending hmissed.2
    refine ⟨⟨announcement, mem_erase_of_field hmem (.inl ?_), href⟩, ?_⟩
    · rw [href]
      exact Ne.symm hmissed.1
    · intro ref found howned
      exact hentry ref found (hsales.entryOrder.symm.trans howned)
  · intro ref found howned hfound hstarted
    have howned' : world.strategy.entryOrder = some ref := hsales.entryOrder.symm.trans howned
    refine (h.due ref found howned' hfound hstarted).imp (fun hset => ?_) ?_
    · exact ⟨hset.1, hsales.entryPartialPending.trans hset.2⟩
    · rintro ⟨announcement, hmem, href, hstatus⟩
      refine ⟨announcement, mem_erase_of_field hmem ?_, href, hstatus⟩
      rcases hother with hne | hfresh
      · refine .inl fun heq => hne ?_
        rw [howned', ← href, heq]
      · refine .inr fun heq => ?_
        rw [← hstatus, heq, hfresh] at hstarted
        cases hstarted

/-- An entry order that is closed may be forgotten when every bit is captured. -/
theorem Quiet.forgetEntry (h : Quiet config cash past world) (hnoted : Noted world)
    (hclosed : ∀ ref order, world.strategy.entryOrder = some ref →
      world.broker.orders[ref]? = some order → order.status.alive = false) :
    Delivering config cash past due
      { world with strategy := { world.strategy with entryOrder := none } } := by
  obtain ⟨focus, hstanding, hnone⟩ := h
  have hsame : SameBooks world
      { world with strategy := { world.strategy with entryOrder := none } } :=
    SameBooks.of_strategy rfl rfl rfl rfl rfl rfl
  obtain ⟨hcleared, hpending⟩ := hstanding.clearEntry hsame rfl hclosed
  refine Quiet.delivering ⟨focus, hcleared, hpending.trans hnone⟩ ?_ hnoted
  intro ref order howned
  cases howned

/-- A notification that the entry order has begun is the first one of its bits. -/
theorem Delivering.notifyStarted (h : Delivering config cash past due world)
    {notification : Notification} {order : NativeOrder}
    (horder : world.broker.orders[notification.ref]? = some order) {strategy : StrategyState}
    (hcapture : captureNewFills config world.strategy notification.ref order = .ok strategy)
    (howned : world.strategy.entryOrder = some notification.ref)
    (hstarted : order.status.started = true) :
    Quiet config cash past { world with strategy } ∧ SalesOnly world { world with strategy } := by
  obtain ⟨focus, hstanding, hpending⟩ := h.standing
  obtain ⟨hcaptured, hnone, hsales⟩ := hstanding.capture horder hcapture
  refine ⟨⟨focus, hcaptured, hnone ?_⟩, hsales⟩
  by_cases hdone : pendingFills world focus = []
  · exact .inr hdone
  · exact .inl ((hpending hdone).2 notification.ref order howned horder hstarted)

/-- The part of a notification that concerns the entry order. -/
theorem Delivering.notifyEntry (h : Delivering config cash past due world) {bar : Bar}
    {offer : Option Offer} {notification : Notification} {order : NativeOrder}
    (horder : world.broker.orders[notification.ref]? = some order)
    (htold : Told world.broker.orders notification) {strategy : StrategyState}
    (hcapture : captureNewFills config world.strategy notification.ref order = .ok strategy)
    (hnotify : notifyEntry (applyEntryFill config bar offer notification) { world with strategy }
      notification = .ok world') :
    Delivering config cash past (due.erase notification) world' := by
  obtain ⟨focus, hstanding, -⟩ := h.standing
  obtain ⟨-, -, hsales⟩ := hstanding.capture horder hcapture
  by_cases howned : world.strategy.entryOrder = some notification.ref
  case neg =>
    rw [notifyEntry_of_ne (by rwa [hsales.entryOrder])] at hnotify
    cases hnotify
    exact h.capture horder hcapture (.inl howned)
  obtain ⟨found, hfound, hclosed, hbegun⟩ := htold
  cases horder.symm.trans hfound
  have hentry : strategy.entryOrder = some notification.ref := hsales.entryOrder.trans howned
  rw [Backtest.notifyEntry, if_pos hentry] at hnotify
  have hclosedAfter : ∀ {after : World}, SalesOnly world after →
      notification.status.alive = false → ∀ ref found, after.strategy.entryOrder = some ref →
      after.broker.orders[ref]? = some found → found.status.alive = false := by
    intro after hafter hfinal ref found href hlater
    obtain ⟨bought, hbought, hside⟩ := hstanding.control.entry notification.ref howned
    cases horder.symm.trans hbought
    cases (hafter.entryOrder.trans howned).symm.trans href
    cases hlater.symm.trans (hafter.buys notification.ref order horder hside)
    exact hclosed hfinal
  -- a notification that the entry was executed or closed comes when nothing else is pending
  have hquiet := h.notifyStarted horder hcapture howned
  cases hstatus : notification.status with
  | created | submitted | accepted =>
    simp only [hstatus] at hnotify
    cases hnotify
    exact h.capture horder hcapture (.inr (by rw [hstatus]; rfl))
  | canceled | expired | margin | rejected =>
    simp only [hstatus] at hnotify
    cases hnotify
    obtain ⟨hdone, -⟩ := hquiet (hbegun (by rw [hstatus]; rfl))
    exact hdone.forgetEntry (hsales.noted h.noted)
      (hclosedAfter hsales (by rw [hstatus]; rfl))
  | completed =>
    simp only [hstatus] at hnotify
    obtain ⟨mid, happly, hnotify⟩ := Except.bind_eq_ok.mp hnotify
    cases hnotify
    obtain ⟨hdone, -⟩ := hquiet (hbegun (by rw [hstatus]; rfl))
    obtain ⟨hmid, hsales'⟩ := hdone.applyEntryFill happly
    have hall := hsales.trans hsales'
    exact hmid.forgetEntry (hall.noted h.noted) (hclosedAfter hall (by rw [hstatus]; rfl))
  | partial_ =>
    simp only [hstatus] at hnotify
    obtain ⟨mid, happly, hnotify⟩ := Except.bind_eq_ok.mp hnotify
    cases hnotify
    obtain ⟨hdone, -⟩ := hquiet (hbegun (by rw [hstatus]; rfl))
    obtain ⟨hmid, hsales'⟩ := hdone.applyEntryFill happly
    have hall := hsales.trans hsales'
    refine Quiet.delivering (hmid.setStrategy (SameBooks.of_strategy rfl rfl rfl rfl rfl rfl)
      rfl rfl) ?_ (hall.noted h.noted)
    intro ref found href hlater hstarted
    obtain ⟨bought, hbought, hside⟩ := hstanding.control.entry notification.ref howned
    cases horder.symm.trans hbought
    cases (hall.entryOrder.trans howned).symm.trans href
    cases hlater.symm.trans (hall.buys notification.ref order horder hside)
    by_cases hpart : order.status = .partial_
    · exact .inl ⟨hpart, rfl⟩
    · rcases h.due notification.ref order howned horder hstarted with ⟨heq, -⟩ | hannounced
      · exact absurd heq hpart
      · obtain ⟨announcement, hmem, hsame, heq⟩ := hannounced
        refine .inr ⟨announcement, mem_erase_of_field hmem (.inr ?_), hsame, heq⟩
        rwa [heq, hstatus]

/-- A notification is delivered. -/
theorem Delivering.deliver (h : Delivering config cash past due world) {bar : Bar}
    {offer : Option Offer} {notification : Notification} (hqueued : notification ∈ past)
    (hnotify : notifyOrder config bar offer world notification = .ok world') :
    Delivering config cash past (due.erase notification) world' := by
  obtain ⟨focus, hstanding, -⟩ := h.standing
  have htold := hstanding.told notification (List.mem_append_left _ hqueued)
  obtain ⟨order, horder, -⟩ := id htold
  obtain ⟨strategy, mid, hcapture, hentry, rfl⟩ := notifyWith_eq_ok horder hnotify
  exact (h.notifyEntry horder htold hcapture hentry).notifyExit notification _

/-! ## Runs -/

/-- The ledger of a new run. -/
theorem Ledger.start (config : EngineConfig) (cash : ℚ) :
    Ledger config cash { broker := { cash } } 0 [] [] where
  books := ⟨rfl, rfl, List.Forall₂.nil, rfl, rfl, by simp, by simp⟩
  once := fun ref order horder => by simp at horder
  seen_le := fun ref order horder => by simp at horder
  settled := fun ref order _ horder => by simp at horder
  fresh := fun _ _ => rfl
  position := by simp [pendingFills]
  cash := by simp [pendingFills]
  chained := by
    intro fill after hsuffix
    simp [pendingFills] at hsuffix
  flat := fun _ _ => rfl
  nonneg := .inl rfl

/-- A new run is in order. -/
theorem Between.start (config : EngineConfig) (cash : ℚ) :
    Between config cash [] { broker := { cash } } := by
  refine ⟨⟨0, ⟨⟨[], [], Ledger.start config cash⟩, ?_, ?_, fun hfalse => by cases hfalse⟩, rfl⟩, ?_, ?_⟩
  · exact Control.of_closed fun ref order horder => by simp at horder
  · intro notification hmem
    cases hmem
  · intro ref order howned
    cases howned
  · rintro ref (hstop | hexit)
    · cases hstop
    · cases hexit

/-- What holds of a run in each of its phases. -/
def Ordered (config : EngineConfig) (cash : ℚ) (state : RunState) : Prop :=
  match state.phase with
  | .idle => Between config cash state.past state.world
  | .matching => ∃ focus, Matching config cash state.past focus state.world
  | .delivering => Delivering config cash state.past state.due state.world
  | .finished => Quiet config cash state.past state.world

/-- A step of a run keeps it in order. -/
theorem Ordered.step {state state' : RunState} (h : Ordered config cash state)
    (hstep : Step config state state') : Ordered config cash state' := by
  cases hstep with
  | @openBar last bar world world' past hgap =>
    have hbetween : Between config cash past world := h
    have hopened : Between config cash past world.openBar :=
      hbetween.setStrategy (SameBooks.of_strategy rfl rfl rfl rfl rfl rfl) rfl rfl fun _ => id
    exact (hopened.handleGap hgap).matching
  | @matched bar world past event =>
    obtain ⟨focus, hmatching⟩ : ∃ focus, Matching config cash past focus world := h
    exact ⟨focus, hmatching.matchEvent bar.now event⟩
  | @closeMatching bar world past =>
    obtain ⟨focus, hmatching⟩ : ∃ focus, Matching config cash past focus world := h
    exact hmatching.close
  | @deliver bar world world' due past notification offer hqueued hnotify =>
    have hdelivering : Delivering config cash past due world := h
    exact hdelivering.deliver hqueued hnotify
  | @next bar world world' past hnext =>
    have hdelivering : Delivering config cash past [] world := h
    exact hdelivering.quiet.next hdelivering.due hdelivering.noted hnext
  | @stop bar world world' past hstop =>
    have hbetween : Between config cash past world := h
    exact hbetween.quiet.stop hstop

/-- Every state that a run reaches is in order. -/
theorem Reaches.ordered {state : RunState} (h : Reaches config cash state) :
    Ordered config cash state := by
  induction h with
  | start bar => exact Between.start config cash
  | step _ hstep ih => exact ih.step hstep

/-- Between bars, and when no notification is due, every bit is captured. -/
theorem Ordered.quiet {state : RunState} (h : Ordered config cash state)
    (hphase : state.phase ≠ .matching) (hdue : state.due = []) :
    Quiet config cash state.past state.world := by
  rcases state with ⟨phase, bar, world, due, past⟩
  subst hdue
  cases phase with
  | idle =>
    have hbetween : Between config cash past world := h
    exact hbetween.quiet
  | matching => exact absurd rfl hphase
  | delivering =>
    have hdelivering : Delivering config cash past [] world := h
    exact hdelivering.quiet
  | finished => exact h

/-- In every phase the run stands. -/
theorem Ordered.standing {state : RunState} (h : Ordered config cash state) :
    ∃ focus, Standing config cash state.past focus state.world := by
  rcases state with ⟨phase, bar, world, due, past⟩
  cases phase with
  | idle =>
    have hbetween : Between config cash past world := h
    obtain ⟨focus, hstanding, -⟩ := hbetween.quiet
    exact ⟨focus, hstanding⟩
  | matching =>
    obtain ⟨focus, hmatching⟩ : ∃ focus, Matching config cash past focus world := h
    exact ⟨focus, hmatching.standing⟩
  | delivering =>
    have hdelivering : Delivering config cash past due world := h
    obtain ⟨focus, hstanding, -⟩ := hdelivering.standing
    exact ⟨focus, hstanding⟩
  | finished =>
    have hquiet : Quiet config cash past world := h
    obtain ⟨focus, hstanding, -⟩ := hquiet
    exact ⟨focus, hstanding⟩

/-- Every execution so far has been notified. -/
def World.AllNotified (world : World) : Prop :=
  ∀ (ref : ℕ) order, world.broker.orders[ref]? = some order →
    world.strategy.seenExecutionBits ref = order.exbits.length

/-- When every bit is captured, every execution has been notified. -/
theorem Quiet.allNotified (h : Quiet config cash past world) : world.AllNotified := by
  intro ref order horder
  obtain ⟨⟨⟨closed, open_, hledger⟩, -⟩, -⟩ := h.standing (ref + 1)
  exact le_antisymm (hledger.seen_le ref order horder)
    (hledger.settled ref order (Nat.lt_succ_self ref).ne horder)

/-- When every execution has been notified, the books make the cash. -/
theorem Ledger.cash_eq {closed : List (List Fill)} {open_ : List Fill}
    (h : Ledger config cash world focus closed open_) (hall : world.AllNotified) :
    world.broker.cash - cash = (world.strategy.tradeRecords.map TradeRecord.netPnl).sum -
      (valueOf world.strategy.entryFillBits + feesOf world.strategy.entryFillBits) +
      (valueOf world.strategy.exitFillBits - feesOf world.strategy.exitFillBits) := by
  have hnone : pendingFills world focus = [] := by
    rw [pendingFills]
    split
    · rename_i order horder
      rw [hall focus order horder, List.drop_length]
      rfl
    · rfl
  have hcash := h.cash
  rw [hnone, List.append_nil, netFlow_append, netFlow_eq open_, ← h.books.entry, ← h.books.exit,
    ← sum_netPnl h.books.trades] at hcash
  rw [hcash]
  ring

end Steps

/-- The trade ledger of a backtest conserves every fill. In every state that a run reaches there
are the fills of the trade records, `closed`, and those of the open position, `open_`. Those of an
order are its bits that have been notified, each once; their fees and slippage are the totals; and
each trade record has what its fills bought and sold, the same quantity. When no notification is
due, every bit has been notified. When every bit has been notified, the cash has changed by the
net profit of the trades, less the cost of the open purchases, plus the proceeds of the open
sales. -/
theorem fills_conserved {config : EngineConfig} {cash : ℚ} {state : RunState}
    (h : Reaches config cash state) :
    ∃ (closed : List (List Fill)) (open_ : List Fill),
      (∀ (ref : ℕ) order, state.world.broker.orders[ref]? = some order →
        ((closed.flatten ++ open_).filter (·.ref = ref)).map Fill.bit =
          order.exbits.take (state.world.strategy.seenExecutionBits ref)) ∧
      (∀ fill ∈ closed.flatten ++ open_, ∃ order,
        state.world.broker.orders[fill.ref]? = some order ∧ fill.isBuy = order.isBuy ∧
          bitSlippage config order fill.bit = .ok fill.slippage) ∧
      state.world.strategy.totalFees =
        ((closed.flatten ++ open_).map fun fill => fill.bit.comm).sum ∧
      state.world.strategy.totalSlippage = ((closed.flatten ++ open_).map Fill.slippage).sum ∧
      List.Forall₂ Closes closed state.world.strategy.tradeRecords ∧
      state.world.strategy.entryFillBits = entryBits open_ ∧
      state.world.strategy.exitFillBits = exitBits open_ ∧
      (state.phase ≠ .matching → state.due = [] → state.world.AllNotified) ∧
      (state.world.AllNotified → state.world.broker.cash - cash =
        (state.world.strategy.tradeRecords.map TradeRecord.netPnl).sum -
          (valueOf state.world.strategy.entryFillBits +
            feesOf state.world.strategy.entryFillBits) +
          (valueOf state.world.strategy.exitFillBits -
            feesOf state.world.strategy.exitFillBits)) := by
  obtain ⟨focus, hstanding⟩ := h.ordered.standing
  obtain ⟨closed, open_, hledger⟩ := hstanding.ledger
  have hbooks := hledger.books
  exact ⟨closed, open_, hledger.once, hbooks.known, hbooks.fees, hbooks.slippage, hbooks.trades,
    hbooks.entry, hbooks.exit, fun hphase hdue => (h.ordered.quiet hphase hdue).allNotified,
    hledger.cash_eq⟩

/-- A bar that closes above its channel. -/
def breakoutBar : Bar where
  now := 0
  open_ := 99
  high := 100
  low := 98
  close := 100
  row := {
    close := some 100
    high := some 100
    ema := some 90
    entryHigh := some 99
    previousClose := some 98
    previousEntryHigh := some 99
    atr := some 2
    baselineAtrPct := some (1 / 50)
    warmupComplete := true
    entryDataValid := true }
  risk := ⟨1 / 100, 1, none, []⟩

/-- The bar after it, which falls below the stop. -/
def fallingBar : Bar := { breakoutBar with now := 1, open_ := 100, low := 90, close := 91 }

/-- The default strategy, and the open of the second bar. -/
def fallingConfig : EngineConfig where
  strategy := {}
  costs := {}
  referenceOpens := [(1, 100)]

/-- One unit of the entry is bought, which the stop of the same bar sells: the trade record closes
both fills. -/
theorem fills_conserved_same_bar_stop :
    ∃ state, Reaches fallingConfig 1000 state ∧
      (state.world.strategy.tradeRecords.map TradeRecord.netPnl) = [-7] ∧
      ∃ closed, List.Forall₂ Closes closed state.world.strategy.tradeRecords := by
  have hreach : ∀ {result : Except Failure World} (world : World), result.isOk = true →
      result = .ok (result.toOption.getD world) := by
    intro result world hok
    cases result with
    | error failure => cases hok
    | ok after => rfl
  let opening : World := { broker := { cash := 1000 } }
  let decided := (next fallingConfig breakoutBar opening.openBar).toOption.getD opening
  have hnext : next fallingConfig breakoutBar opening.openBar = .ok decided :=
    hreach opening (by decide +kernel)
  have hopened : Reaches fallingConfig 1000
      ⟨.matching, breakoutBar, opening.openBar, [], []⟩ :=
    .step (.start breakoutBar) (.openBar rfl)
  have hready : Reaches fallingConfig 1000 ⟨.delivering, breakoutBar, opening.openBar, [], []⟩ :=
    .step hopened .closeMatching
  have hdecided : Reaches fallingConfig 1000 ⟨.idle, breakoutBar, decided, [], []⟩ :=
    .step hready (.next hnext)
  let filled := (decided.broker.matchEvent 1 (.accept 0)).matchEvent 1 (.fill 0 ⟨1, 100, 1⟩)
  have hfilled : Reaches fallingConfig 1000
      ⟨.matching, fallingBar, { decided.openBar with broker := filled }, [], []⟩ := by
    have hnewBar : Reaches fallingConfig 1000 ⟨.matching, fallingBar, decided.openBar, [], []⟩ :=
      .step hdecided (.openBar rfl)
    exact .step (.step hnewBar (.matched (.accept 0))) (.matched (.fill 0 ⟨1, 100, 1⟩))
  let matched : World := { decided.openBar with broker := { filled with notifs := [] } }
  have hmatched : Reaches fallingConfig 1000
      ⟨.delivering, fallingBar, matched, filled.notifs, filled.notifs⟩ :=
    .step hfilled .closeMatching
  let notified := notifyOrder fallingConfig fallingBar (some ⟨1, 95, 1⟩) matched ⟨0, .partial_, 100⟩
  have hnotify : notified = .ok (notified.toOption.getD matched) :=
    hreach matched (by decide +kernel)
  have hdelivered := Reaches.step hmatched (.deliver (by decide +kernel) hnotify)
  obtain ⟨closed, open_, -, -, -, -, hcloses, -⟩ := fills_conserved hdelivered
  exact ⟨_, hdelivered, by decide +kernel, closed, hcloses⟩

end AutoBit.Backtest
