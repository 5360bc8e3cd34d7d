import AutoBit.Broker.Settling

/-!
# The requests of the broker

Each operation starts from the ledger of its database. A successful one leaves the database
as it was or takes its account to one that owes nothing again.
-/

namespace AutoBit.Broker

open Library Store Strategy

section

variable {db db' : Database} {a : Account} (h : Sound db a)
include h

/-- Without pending orders no order is active. -/
theorem Sound.idle (hpending : a.projection.pendingOrders = []) : activeOrders a.orders = [] := by
  have hagrees := h.coherent.pending
  rw [hpending] at hagrees
  exact List.forall₂_nil_left_iff.mp hagrees

/-- A flat account has no open stop. -/
theorem Sound.unprotected (hflat : a.projection.btcQuantity = 0) : a.stops.open_ = [] := by
  by_contra hopen
  exact (h.settled.stops hopen).ne' hflat

/-! ## Orders -/

/-- The submission of a new market order without a parent. -/
theorem Sound.submitRoot {s : Submission} {order : PaperOrder} (hvalid : 0 < s.quantity → s.Valid)
    (hkind : s.orderKind = .market) (hparent : s.parent = none)
    (hnew : findPaperOrder a.orders s.key.orderId = none) (hidle : activeOrders a.orders = [])
    (hfunded : Funded a.projection.btcQuantity s.order)
    (hok : submitOrder db s = .ok (order, db')) :
    ∃ a', Sound db' a' ∧ a'.stops = a.stops ∧ order ∈ a'.orders := by
  obtain ⟨rfl, hquantity, hsubmitted⟩ := h.coherent.submitOrder h.verified hnew hok
  obtain ⟨p, hreplay, -⟩ := hsubmitted.rebuild
  have hids := hsubmitted.ids h.coherent.ids
  rw [hsubmitted.events] at hids
  have hcoherent := h.coherent.submit (hvalid hquantity) hreplay hids hidle hfunded
    (by simp [hparent]) (by simp [hparent])
  rw [← hsubmitted.events] at hcoherent
  refine ⟨_, ⟨hcoherent, ?_, hsubmitted.after⟩, rfl, List.mem_append_right _ (List.mem_singleton_self _)⟩
  obtain ⟨-, -, -, hbtc⟩ := rebuild_submission h.coherent.replay hreplay
  refine ⟨?_, ?_, ?_⟩
  · intro x hx hside hcanceled hfilled hremaining
    rw [childrenOf_append]
    rcases List.mem_append.mp hx with hold | hlast
    · have hchild := h.settled.children x hold hside hcanceled hfilled hremaining
      simp [hchild]
    · rw [List.mem_singleton.mp hlast] at hcanceled
      cases hcanceled
  · intro hopen
    change 0 < p.btcQuantity
    rw [hbtc]
    exact h.settled.stops hopen
  · intro x hx hstop
    rcases List.mem_append.mp hx with hold | hlast
    · exact h.settled.triggers x hold hstop
    · rw [List.mem_singleton.mp hlast] at hstop
      change s.orderKind = .stop at hstop
      rw [hkind] at hstop
      cases hstop

/-- `order` finds an order of the account. -/
theorem Sound.orderById_eq_ok {id : PaperId} {order : PaperOrder} :
    orderById db id = .ok order ↔ id ≠ .external "" ∧ findPaperOrder a.orders id = some order := by
  simp only [orderById, requireText, Except.bind_eq_ok, reject_eq_ok, require_eq_ok, h.ledger,
    Except.ok.injEq]
  constructor
  · rintro ⟨_, hid, ledger, rfl, hfound⟩
    exact ⟨hid, hfound⟩
  · rintro ⟨hid, hfound⟩
    exact ⟨⟨⟩, hid, _, rfl, hfound⟩

/-- `bind_entry_context` binds sizing evidence that the verifier accepts, once. -/
theorem Sound.bindEntryContext {id : PaperId} {context : EntryContext} {order : PaperOrder}
    (hok : Broker.bindEntryContext db id context = .ok (order, db')) :
    ∃ a', Sound db' a' ∧ a'.stops = a.stops := by
  simp only [Broker.bindEntryContext, Except.bind_eq_ok, h.orderById_eq_ok] at hok
  obtain ⟨normalized, hnormalized, found, ⟨-, hfound⟩, hok⟩ := hok
  cases hcontext : found.executionContext with
  | some existing =>
    simp only [hcontext, Except.bind_eq_ok, Except.pure_eq_ok, Prod.mk.injEq] at hok
    obtain ⟨_, -, -, rfl⟩ := hok
    exact ⟨a, h, rfl⟩
  | none =>
    simp only [hcontext, Except.bind_eq_ok, Except.pure_eq_ok, Prod.mk.injEq, reject_eq_ok, not_or,
      not_not] at hok
    obtain ⟨_, ⟨hside, haccepted⟩, snapshot, -, last, -, db₁, happended, bound, hbound, rfl,
      rfl⟩ := hok
    obtain ⟨horder, hid⟩ := findPaperOrder_some hfound
    have hvalid : entryContext normalized = .ok normalized := by
      have hsame := hnormalized
      simp only [entryContext, Except.bind_eq_ok, Except.pure_eq_ok] at hsame
      obtain ⟨_, -, _, -, rfl⟩ := hsame
      exact hnormalized
    have happends := (appendEvent_appended happended).appends
    obtain ⟨p, hreplay, -⟩ := happends.rebuild
    have hids := happends.ids h.coherent.ids
    have hevents := happends.events
    rw [← happends.events] at hreplay
    obtain ⟨ledger, hledger⟩ : ∃ ledger, buildLedger db₁ = .ok ledger := by
      simp only [orderById, Except.bind_eq_ok] at hbound
      obtain ⟨_, -, ledger, hledger, -⟩ := hbound
      exact ⟨ledger, hledger⟩
    rw [← hid] at hevents
    have hcoherent := h.coherent.bind horder haccepted hcontext hvalid hevents hreplay hids hledger
    refine ⟨_, ⟨hcoherent, ?_, happends.after⟩, rfl⟩
    have hcont : Continues found { found with executionContext := some normalized } :=
      ⟨_, _, _, _, rfl, Or.inl hcontext⟩
    have hmarket : found.orderKind = .market := by
      cases hkind : found.orderKind with
      | market => rfl
      | stop =>
        have hsell := ((h.coherent.terms horder).stop hkind).1
        rw [hside] at hsell
        cases hsell
    refine h.settled.after h.coherent horder hcont hmarket (List.append_nil _).symm (by simp) ?_ ?_
      (fun _ hid => hid)
    · intro hsell
      change found.side = .sell at hsell
      rw [hside] at hsell
      cases hsell
    · intro hopen
      change 0 < p.btcQuantity
      have hview : view readFill [db.nextEvent (.entryContext id)
          (max found.signalAtUtc last.occurredAtUtc) (.paperEntryContext ⟨id, normalized, 1⟩)] = [] :=
        rfl
      rw [happends.events] at hreplay
      rw [btc_of_no_fill h.coherent.replay hreplay hview]
      exact h.settled.stops hopen

/-- An optional entry context leaves the database sound, and its stops alone. -/
theorem Sound.bindOptional {order order' : PaperOrder} {context : Option EntryContext}
    (hok : Broker.bindOptional db order context = .ok (order', db')) :
    ∃ a', Sound db' a' ∧ a'.stops = a.stops := by
  cases context with
  | none =>
    simp only [Broker.bindOptional, Except.pure_eq_ok, Prod.mk.injEq] at hok
    obtain ⟨-, rfl⟩ := hok
    exact ⟨a, h, rfl⟩
  | some context => exact h.bindEntryContext hok

/-- `submit_entry` submits an entry of a flat account, or finds the one it is asked for. -/
theorem Sound.submitEntry {costs : CostConfig} (hfee : 0 ≤ costs.feeRate)
    (hslippage : 0 ≤ costs.slippageRate) {signalAt : ℤ} {quantity : ℚ} {reason : String}
    {context : Option EntryContext} {order : PaperOrder}
    (hok : Broker.submitEntry costs db signalAt quantity reason context = .ok (order, db')) :
    ∃ a', Sound db' a' ∧ a'.stops = a.stops := by
  simp only [Broker.submitEntry, requireReason, Except.bind_eq_ok, reject_eq_ok,
    Bool.not_eq_false, h.ledger, Except.ok.injEq] at hok
  obtain ⟨_, -, _, hreason, ledger, rfl, hok⟩ := hok
  cases hfound : findPaperOrder a.orders (orderIdentity signalAt .buy reason none).orderId with
  | some existing =>
    simp only [Account.ledger, hfound, Except.bind_eq_ok] at hok
    obtain ⟨_, -, hok⟩ := hok
    exact h.bindOptional hok
  | none =>
    simp only [Account.ledger, hfound, Except.bind_eq_ok, reject_eq_ok, not_not,
      requireNextBoundary, Except.pure_eq_ok, snapshotFromComponents] at hok
    obtain ⟨_, hidle, _, ⟨_, hboundary, rfl⟩, ⟨new, db₁⟩, hsubmitted, hok⟩ := hok
    obtain ⟨hflat, hpending⟩ := not_or.mp (reject_eq_ok.mp hidle)
    rw [not_not] at hpending
    have hflat : a.projection.btcQuantity = 0 :=
      le_antisymm (not_lt.mp hflat) h.coherent.envelopes.btc
    have hfunded : Funded a.projection.btcQuantity (Submission.order ⟨orderIdentity signalAt .buy
        reason none, signalAt, quantity, none, .market, nextBoundary signalAt, costs.feeRate,
        costs.slippageRate⟩) := hflat
    obtain ⟨a₁, hsound, hstops, -⟩ := h.submitRoot (fun hquantity => ⟨hreason, hquantity, hfee,
      hslippage, by simp, hboundary, IsBoundary.add_fourHours hboundary,
      (validateKind_market rfl).mpr rfl, rfl, rfl⟩) rfl rfl hfound (h.idle hpending) hfunded
      hsubmitted
    obtain ⟨a₂, hsound₂, hstops₂⟩ := hsound.bindOptional hok
    exact ⟨a₂, hsound₂, hstops₂.trans hstops⟩

/-- `submit_exit` submits an exit of what the account owns, or finds the one it is asked for. -/
theorem Sound.submitExit {costs : CostConfig} (hfee : 0 ≤ costs.feeRate)
    (hslippage : 0 ≤ costs.slippageRate) {signalAt : ℤ} {quantity ownedQuantity : ℚ}
    {reason : String} {parent : Option PaperId} {order : PaperOrder}
    (hok : Broker.submitExit costs db signalAt quantity ownedQuantity reason parent =
      .ok (order, db')) : ∃ a', Sound db' a' ∧ a'.stops = a.stops := by
  simp only [Broker.submitExit, requireReason, Except.bind_eq_ok, reject_eq_ok,
    Bool.not_eq_false, h.ledger, Except.ok.injEq] at hok
  obtain ⟨_, -, _, -, _, hreason, ledger, rfl, hok⟩ := hok
  cases hfound : findPaperOrder a.orders (orderIdentity signalAt .sell reason parent).orderId with
  | some existing =>
    simp only [Account.ledger, hfound, Except.bind_eq_ok, Except.pure_eq_ok, Prod.mk.injEq] at hok
    obtain ⟨_, -, -, rfl⟩ := hok
    exact ⟨a, h, rfl⟩
  | none =>
    simp only [Account.ledger, hfound, Except.bind_eq_ok, reject_eq_ok, not_lt, not_not,
      requireNextBoundary, Except.pure_eq_ok, snapshotFromComponents] at hok
    obtain ⟨_, rfl, _, howned, _, hcovered, _, hpending, _, ⟨_, hboundary, rfl⟩, hsubmitted⟩ := hok
    have howned := not_not.mp (reject_eq_ok.mp howned)
    have hpending := not_not.mp (reject_eq_ok.mp hpending)
    have hfunded : Funded a.projection.btcQuantity (Submission.order ⟨orderIdentity signalAt .sell
        reason none, signalAt, quantity, none, .market, nextBoundary signalAt, costs.feeRate,
        costs.slippageRate⟩) := by
      simp only [Funded, Submission.order, paperOrder, Submission.metadata, orderIdentity, sub_zero]
      rw [← howned]
      exact hcovered
    obtain ⟨a₁, hsound, hstops, -⟩ := h.submitRoot (fun hquantity => ⟨hreason, hquantity, hfee,
      hslippage, by simp, hboundary, IsBoundary.add_fourHours hboundary,
      (validateKind_market rfl).mpr rfl, rfl, rfl⟩) rfl rfl hfound (h.idle hpending) hfunded
      hsubmitted
    exact ⟨a₁, hsound, hstops⟩

/-- An order of the account that is active is accepted. -/
theorem Sound.accepted_of_active {order : PaperOrder} (horder : order ∈ a.orders)
    (hactive : order.status.isActive = true) : order.status = .accepted := by
  obtain ⟨m, -, hm, -⟩ := h.coherent.metadata horder
  obtain ⟨_, _, _, _, _, _, _, status, -, -, -, -, -, -, houtcome, rfl⟩ :=
    orderFromMetadata_eq_ok.mp hm
  change status.isActive = true at hactive
  change status = .accepted
  rcases orderOutcome_cases houtcome with ⟨-, -, -, hstatus⟩ | ⟨-, -, hended⟩ | ⟨_, -, -, hended⟩
  · exact hstatus
  · rcases hended with rfl | rfl <;> cases hactive
  · rcases hended with rfl | rfl <;> cases hactive

/-- What `process_open` attempts to execute, if anything. -/
theorem Sound.attempt_of_open {order : PaperOrder} (horder : order ∈ a.orders)
    (haccepted : order.status = .accepted) {openPrice : ℚ} {actual : Option ℚ}
    (hprice : 0 < openPrice) (hactual : ¬∃ quantity ∈ actual, quantity ≤ 0)
    (hle : actual.getD order.remainderQuantity ≤ order.remainderQuantity) :
    Attempt db.events a order openPrice (actual.getD order.remainderQuantity) := by
  obtain ⟨-, hremaining, hrequested, -⟩ := h.coherent.accepted_terms horder haccepted
  refine ⟨h.coherent, horder, haccepted, hprice, ?_, hle, ?_⟩
  · cases hsome : actual with
    | none => simpa [hremaining] using hrequested
    | some quantity =>
      rw [Option.getD_some]
      exact not_le.mp fun hnone => hactual ⟨quantity, by simp [hsome], hnone⟩
  · intro hside
    have hfunded := h.coherent.funded order
      (List.mem_filter.mpr ⟨horder, by rw [haccepted]; rfl⟩)
    simp only [Funded, hside] at hfunded
    exact h.unprotected hfunded

/-- `process_open` executes an accepted market order at its eligible open. -/
theorem Sound.processOpen_cases {id : PaperId} {candle : ℤ} {openPrice : ℚ} {actual : Option ℚ}
    (hdistinct : ∀ order, findPaperOrder a.orders id = some order → order.status = .accepted →
      Distinguishable order (allowed order
        (computedFillPrice openPrice order.slippageRate order.side) a.projection.cash
        (actual.getD order.remainderQuantity)).1)
    {result : Option PaperFill}
    (hok : Broker.processOpen db id candle openPrice actual = .ok (result, db')) :
    db' = db ∨ ∃ order, findPaperOrder a.orders id = some order ∧ order.status = .accepted ∧
      ∃ a', Sound db' a' ∧ Executes a a' order := by
  simp only [Broker.processOpen, requirePositive, Except.bind_eq_ok, reject_eq_ok, require_eq_ok,
    not_le, h.ledger, Except.ok.injEq] at hok
  obtain ⟨_, -, _, hprice, _, hactual, ledger, rfl, order, hfound, hok⟩ := hok
  simp only [Account.ledger] at hfound hok
  split at hok
  · simp only [Except.pure_eq_ok, Prod.mk.injEq] at hok
    exact Or.inl hok.2.symm
  · rename_i hactive
    simp only [Except.bind_eq_ok, reject_eq_ok, not_not, not_le] at hok
    obtain ⟨_, -, _, hmarket, _, rfl, _, -, hok⟩ := hok
    obtain ⟨horder, -⟩ := findPaperOrder_some hfound
    have haccepted := h.accepted_of_active horder (by simpa using hactive)
    obtain ⟨hle, -⟩ := h.coherent.processOrder_executed h.verified horder haccepted hok
    exact Or.inr ⟨order, hfound, haccepted,
      h.processOrder (h.attempt_of_open horder haccepted hprice hactual hle) hmarket rfl
        (hdistinct order hfound haccepted) hok⟩

/-! ## Stops and positions -/

/-- The open entry is that of the account. -/
theorem Sound.openEntryIdentity_iff {id : PaperId} :
    openEntryIdentity (a.ledger db.events) = .ok id ↔
      0 < a.projection.btcQuantity ∧ a.source = some id := by
  have hsame : (a.scan.fills.map PaperFill.raw) = (view readFill db.events).map (·.body) := by
    have hraws := h.coherent.raws
    generalize view readFill db.events = raws at hraws
    generalize a.scan.fills = fills at hraws
    induction hraws with
    | nil => rfl
    | cons hhead _ ih =>
      rw [List.map_cons, List.map_cons, ih, hhead.1]
  simp only [openEntryIdentity, Account.ledger, hsame, h.coherent.source, Except.bind_eq_ok,
    Except.ok.injEq, reject_eq_ok, require_eq_ok, not_le]
  constructor
  · rintro ⟨⟨position, source⟩, hstate, _, hheld, hsource⟩
    cases hstate
    exact ⟨hheld, hsource⟩
  · rintro ⟨hheld, hsource⟩
    exact ⟨_, rfl, ⟨⟩, hheld, hsource⟩

omit h in
/-- The stops of a coherent account are well formed. -/
theorem Coherent.stop_valid {log : List StoredEvent} (h : Coherent log a) {stop : PaperStop}
    (hstop : stop ∈ a.stops.open_) : stop.Valid := by
  have hscanned := scanned_of_scanStops h.stops
  obtain ⟨known, hknown, rfl, -⟩ := hscanned.mem_open hstop
  obtain ⟨set, -, hfrom, -⟩ := hscanned.stop_of_known hknown
  simp only [stopFromEvent, requireBoundary, Except.bind_eq_ok, Except.pure_eq_ok, reject_eq_ok,
    not_or, not_not, not_and, not_lt, not_le, Bool.not_eq_false] at hfrom
  obtain ⟨_, hreason, _, hobserved, _, hactive, _, ⟨hid, -⟩, _, hprice, _, ⟨hfee, hslippage⟩,
    hbody⟩ := hfrom
  rw [← hbody]
  refine ⟨hid, hreason, hobserved, ?_, hprice, hfee, hslippage⟩
  by_cases hsame : set.body.activeAfterUtc = set.occurredAtUtc
  · exact Or.inl hsame
  · exact Or.inr (hactive hsame)

/-- A stop that `set_stop` adds becomes active no earlier than the open ones. -/
theorem Sound.later_stop {stop : PaperStop} {eventId : EventId} {payload : Payload}
    (hvalid : stop.Valid) (happended : Appended db eventId stop.observedAtUtc payload db')
    (hboundary : stop.activeAfterUtc = stop.observedAtUtc → a.stops.active = none) :
    ∀ active ∈ a.stops.open_, active.activeAfterUtc ≤ stop.activeAfterUtc := by
  intro active hactive
  obtain ⟨e, he, htime⟩ := (scanned_of_scanStops h.coherent.stops).set_of_open hactive
  have hobserved : active.observedAtUtc ≤ stop.observedAtUtc := by
    obtain ⟨p, hreplay, -⟩ := happended.appends.rebuild
    have htimes := (List.pairwise_append.mp (envelopes_of_rebuild hreplay).times).2.2 e he _
      (List.mem_singleton_self _)
    rw [← htime]
    exact htimes
  have hspan : (0 : ℤ) < fourHours := by decide
  rcases hvalid.active with hsame | hnext
  · have hnone := hboundary hsame
    rw [StopScan.active, List.getLast?_eq_none_iff] at hnone
    rw [hnone] at hactive
    cases hactive
  · rw [hnext]
    rcases (h.coherent.stop_valid hactive).active with hold | hold <;> rw [hold]
    · unfold nextBoundary
      omega
    · unfold nextBoundary
      omega

/-- A stop is added to those of an account, and becomes active no earlier than they do. -/
structure Adds (a a' : Account) (stop : PaperStop) : Prop where
  known : ∃ known, known.body = stop ∧ a'.stops.known = a.stops.known ++ [known]
  open_ : a'.stops.open_ = a.stops.open_ ++ [stop]
  later : ∀ active ∈ a.stops.open_, active.activeAfterUtc ≤ stop.activeAfterUtc
  btc : a'.projection.btcQuantity = a.projection.btcQuantity
  source : a'.source = a.source

omit h in
/-- A stop that is added becomes active no earlier than the open ones. -/
theorem Adds.protection {a' : Account} {stop : PaperStop} (h : Adds a a' stop) :
    Protection a.stops.open_ a'.stops.open_ := h.open_ ▸ .set h.later

/-- The evidence of a new and tighter stop of the open entry. -/
theorem Sound.addStop {stop : PaperStop} (hvalid : stop.Valid)
    (hheld : 0 < a.projection.btcQuantity) (hsource : a.source = some stop.sourceId)
    (hnotLooser : ¬∃ active ∈ a.stops.active, stop.stopPrice < active.stopPrice)
    (hnew : a.stops.active.filter (·.stopPrice = stop.stopPrice) = none) {u : Unit}
    (hboundary : requireBoundaryStop (a.ledger db.events) stop = .ok u)
    (hok : appendEvent db (.stopSet stop.stopId) stop.observedAtUtc (.paperStopSet stop.payload) =
      .ok db') : ∃ a', Sound db' a' ∧ Adds a a' stop := by
  have happended := appendEvent_appended hok
  obtain ⟨p, hreplay, -⟩ := happended.appends.rebuild
  have hids := happended.appends.ids h.coherent.ids
  rw [happended.events] at hids
  have htighter : ∀ active ∈ a.stops.active, active.stopPrice < stop.stopPrice := by
    intro active hactive
    have hle : active.stopPrice ≤ stop.stopPrice :=
      not_lt.mp fun hlt => hnotLooser ⟨active, hactive, hlt⟩
    refine lt_of_le_of_ne hle fun hsame => ?_
    rw [Option.filter_eq_none_iff] at hnew
    exact hnew active hactive (decide_eq_true hsame)
  have hinitial : stop.activeAfterUtc = stop.observedAtUtc → stop.reason = "HARD_STOP" ∧
      a.stops.active = none ∧ ∃ fill, onlyFill (a.scan.fills.filter fun fill =>
        fill.orderId = stop.sourceId ∧ fill.side = .buy) = some fill ∧
        fill.fillTime = stop.observedAtUtc := by
    intro hactive
    rw [requireBoundaryStop, reject_eq_ok] at hboundary
    by_contra hmissing
    exact hboundary ⟨hactive, hmissing⟩
  have hcoherent := h.coherent.setStop hvalid hsource htighter
    (fun hactive => ⟨(hinitial hactive).1, (hinitial hactive).2.2⟩) hreplay hids
  have hbtc : p.btcQuantity = a.projection.btcQuantity :=
    btc_of_no_fill h.coherent.replay hreplay rfl
  have hevents : db'.events = db.events ++ [stopEvent db.events.length stop] := happended.events
  rw [← hevents] at hcoherent
  refine ⟨_, ⟨hcoherent, ⟨h.settled.children, ?_, h.settled.triggers⟩, happended.after⟩,
    ⟨_, rfl, rfl⟩, rfl, h.later_stop hvalid happended fun hactive => (hinitial hactive).2.1, hbtc,
    rfl⟩
  intro _
  change 0 < p.btcQuantity
  rw [hbtc]
  exact hheld

/-- A stop that was persisted is a known one. -/
theorem Sound.known_of_persisted {eventId : EventId} {e : StoredEvent} {stop : PaperStop}
    (hfound : findEvent db.events eventId = some e) (hpersisted : persistedStop e = .ok stop) :
    ∃ known ∈ a.stops.known, known.body = stop := by
  unfold persistedStop at hpersisted
  split at hpersisted
  · rename_i set hset
    have hmem : set ∈ view readStopSet db.events :=
      List.mem_filterMap.mpr ⟨e, List.mem_of_find?_eq_some hfound, hset⟩
    obtain ⟨known, hknown, hfrom, -⟩ :=
      forall₂_exists_right (scanned_of_scanStops h.coherent.stops).known hmem
    exact ⟨known, hknown, Except.ok.inj (hfrom.symm.trans hpersisted)⟩
  · cases hpersisted

/-- `set_stop` finds the stop as it was set before, or an active one that is as tight, or adds
a tighter stop of the open entry. -/
theorem Sound.setStop_cases {costs : CostConfig} (hfee : 0 ≤ costs.feeRate)
    (hslippage : 0 ≤ costs.slippageRate) {observedAt : ℤ} {stopPrice : ℚ} {activeAfter : Option ℤ}
    {reason : String} {sourceId : Option PaperId} {stop : PaperStop}
    (hok : Broker.setStop costs db observedAt stopPrice activeAfter reason sourceId =
      .ok (stop, db')) : 0 < a.projection.btcQuantity ∧
        (db' = db ∧ (∃ known ∈ a.stops.known, known.body = stop ∧ a.source = some stop.sourceId) ∨
          db' = db ∧ a.stops.active = some stop ∨
          stop.reason = reason ∧ ∃ a', Sound db' a' ∧ Adds a a' stop) := by
  simp only [Broker.setStop, requirePositive, requireReason, Except.bind_eq_ok, reject_eq_ok,
    not_not, not_and, not_le, Bool.not_eq_false, h.ledger, Except.ok.injEq] at hok
  obtain ⟨_, hobserved, _, hactive, _, hprice, _, hreason, _, -, ledger, rfl, openEntry, hentry, _,
    hsource, _, hboundary, hok⟩ := hok
  obtain ⟨hheld, hopen⟩ := h.openEntryIdentity_iff.mp hentry
  rw [hsource] at hok hboundary
  refine ⟨hheld, ?_⟩
  split at hok
  · rename_i e hfound
    simp only [Except.bind_eq_ok, Except.pure_eq_ok, Prod.mk.injEq, reject_eq_ok] at hok
    obtain ⟨persisted, hpersisted, _, hsame, rfl, rfl⟩ := hok
    obtain ⟨known, hknown, hbody⟩ := h.known_of_persisted hfound hpersisted
    have hsameSource : persisted.sourceId = openEntry := by
      simp only [PaperStop.sameAs, Bool.not_eq_false, decide_eq_true_eq] at hsame
      exact hsame.2.2.2.2.2
    exact Or.inl ⟨rfl, known, hknown, hbody, hsameSource ▸ hopen⟩
  · simp only [Except.bind_eq_ok, reject_eq_ok] at hok
    obtain ⟨_, -, _, htighter, hok⟩ := hok
    split at hok
    · rename_i active hsame
      simp only [Except.pure_eq_ok, Prod.mk.injEq] at hok
      obtain ⟨rfl, rfl⟩ := hok
      exact Or.inr (Or.inl ⟨rfl, (Option.filter_eq_some_iff.mp hsame).1⟩)
    · rename_i hnew
      simp only [Except.bind_eq_ok, Except.pure_eq_ok, Prod.mk.injEq] at hok
      obtain ⟨db₁, happended, rfl, rfl⟩ := hok
      have hvalid : PaperStop.Valid ⟨.stop openEntry observedAt reason, stopPrice, reason, observedAt,
          activeAfter.getD (nextBoundary observedAt), openEntry, costs.feeRate,
          costs.slippageRate⟩ := by
        refine ⟨rfl, hreason, hobserved, ?_, hprice, hfee, hslippage⟩
        by_cases hsame : activeAfter.getD (nextBoundary observedAt) = observedAt
        · exact Or.inl hsame
        · exact Or.inr (hactive hsame)
      exact Or.inr (Or.inr ⟨rfl, h.addStop hvalid hheld hopen htighter hnew hboundary happended⟩)

/-- `observe_position` adds an observation that the verifier accepts. -/
theorem Sound.observePosition {id : PaperId} {candleHighs : List (ℤ × ℚ)} {initialStop : ℚ}
    (hok : Broker.observePosition db id candleHighs initialStop = .ok db') :
    ∃ a', Sound db' a' ∧ a'.stops = a.stops := by
  simp only [Broker.observePosition, Except.bind_eq_ok, Except.pure_eq_ok] at hok
  obtain ⟨_, -, fill, -, last, -, db₁, happended, ledger, hledger, rfl⟩ := hok
  have happends := (appendEvent_appended happended).appends
  obtain ⟨p, hreplay, -⟩ := happends.rebuild
  have hids := happends.ids h.coherent.ids
  have hbtc := btc_of_no_fill h.coherent.replay hreplay rfl
  rw [← happends.events] at hreplay
  have hcoherent := h.coherent.observe rfl happends.events hreplay hids hledger
  refine ⟨_, ⟨hcoherent, ⟨h.settled.children, ?_, h.settled.triggers⟩, happends.after⟩, rfl⟩
  intro hopen
  change 0 < p.btcQuantity
  rw [hbtc]
  exact h.settled.stops hopen

/-- An event of another component moves nothing. -/
theorem Sound.foreign {eventId : EventId} {at_ : ℤ} {payload : Payload}
    (hforeign : isForeign payload = true) (hok : appendEvent db eventId at_ payload = .ok db') :
    ∃ a', Sound db' a' ∧ a'.stops = a.stops := by
  have happends := (appendEvent_appended hok).appends
  obtain ⟨p, hreplay, -⟩ := happends.rebuild
  have hids := happends.ids h.coherent.ids
  have hview : view readFill [db.nextEvent eventId at_ payload] = [] := by
    refine view_singleton_none ?_
    cases payload <;> simp_all [isForeign, Database.nextEvent, readFill]
  have hbtc := btc_of_no_fill h.coherent.replay hreplay hview
  rw [happends.events] at hids
  have hcoherent := h.coherent.foreign hforeign hreplay hids
  rw [← happends.events] at hcoherent
  refine ⟨_, ⟨hcoherent, ⟨h.settled.children, ?_, h.settled.triggers⟩, happends.after⟩, rfl⟩
  intro hopen
  change 0 < p.btcQuantity
  rw [hbtc]
  exact h.settled.stops hopen

end

end AutoBit.Broker
