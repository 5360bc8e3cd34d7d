import AutoBit.Broker.Writing

/-!
# Attempts to execute an order

The operations check what they attempt to execute. The events that an attempt then leaves,
with a fill or without one, keep the account coherent, unless a completed entry cannot be
told from one that its execution cap cut.
-/

namespace AutoBit.Broker

open Library Store Strategy

/-! ## The terms of an order -/

/-- What the verifier has checked about the terms of every order. -/
structure Terms (order : PaperOrder) : Prop where
  orderId : order.orderId = order.idempotencyKey.orderId
  key : order.idempotencyKey =
    orderIdentity order.signalAtUtc order.side order.reason order.parentOrderId
  reason : isReason order.reason = true
  quantity : 0 < order.requestedQuantity
  feeRate : 0 ≤ order.feeRate
  slippageRate : 0 ≤ order.slippageRate
  signal : IsBoundary order.signalAtUtc
  eligible : IsBoundary order.eligibleOpenUtc
  stop : order.orderKind = .stop → order.side = .sell ∧
    order.parentOrderId.any PaperId.isStop = true

section

variable {log : List StoredEvent} {a : Account} (h : Coherent log a)
include h

/-- The orders of a coherent account have their terms. -/
theorem Coherent.terms {order : PaperOrder} (horder : order ∈ a.orders) : Terms order := by
  obtain ⟨m, -, hm, -⟩ := h.metadata horder
  obtain ⟨_, _, key, _, _, _, _, _, -, -, hvalid, -, -, -, -, rfl⟩ := orderFromMetadata_eq_ok.mp hm
  simp only [validateMetadata, requireBoundary, Except.bind_eq_ok, Except.pure_eq_ok, reject_eq_ok,
    not_not, not_le, not_or, not_lt, Bool.not_eq_false] at hvalid
  obtain ⟨_, -, _, hreason, _, hquantity, _, ⟨hfee, hslippage⟩, _, -, _, hsignal, _, heligible, _,
    hkind, _, ⟨-, hid⟩, rfl⟩ := hvalid
  refine ⟨hid, rfl, hreason, hquantity, hfee, hslippage, hsignal, heligible, ?_⟩
  intro hstop
  exact ((validateKind_stop hstop).mp hkind).1

/-- An order that names a parent order rests on a canceled one. -/
theorem Coherent.parent_of_child {order : PaperOrder} (horder : order ∈ a.orders) {id : PaperId}
    (hparent : order.parentOrderId = some id) (hid : id.isOrder = true)
    (hnotStop : id.isStop = false) :
    ∃ parent, findPaperOrder a.orders id = some parent ∧ parent.status = .canceled := by
  have hopen : ¬(order.orderKind = .stop ∧ order.status = .accepted) := by
    rintro ⟨hkind, -⟩
    have hstop := ((h.terms horder).stop hkind).2
    simp [hparent, hnotStop] at hstop
  have hancestry := h.ancestry order horder hopen
  simp only [validateAncestry, hparent, hid, if_true, validateChild, Except.bind_eq_ok,
    require_eq_ok, reject_eq_ok, not_or, not_not] at hancestry
  obtain ⟨parent, hfound, _, -, _, -, _, ⟨hcanceled, -⟩, -⟩ := hancestry
  exact ⟨parent, hfound, hcanceled⟩

/-- An accepted order has no fill. -/
theorem Coherent.accepted_fills {order : PaperOrder} (horder : order ∈ a.orders)
    (haccepted : order.status = .accepted) : fillsOf log order.orderId = [] := by
  obtain ⟨m, -, hm, -⟩ := h.metadata horder
  obtain ⟨_, _, _, -, -, -, -, -, -, hfills, -⟩ := accepted_evidence haccepted hm
  exact hfills

/-- No order continues an accepted one. -/
theorem Coherent.no_child {order child : PaperOrder} (horder : order ∈ a.orders)
    (haccepted : order.status = .accepted) (hchild : child ∈ a.orders) :
    child.parentOrderId ≠ some order.orderId := by
  intro hparent
  have hid := (h.terms horder).orderId
  obtain ⟨parent, hfound, hcanceled⟩ := h.parent_of_child hchild hparent (by rw [hid]; rfl)
    (by rw [hid]; rfl)
  rw [findPaperOrder_of_mem h.nodup horder, Option.some.injEq] at hfound
  rw [← hfound, haccepted] at hcanceled
  cases hcanceled

/-- An accepted order has no children. -/
theorem Coherent.childrenOf_accepted {order : PaperOrder} (horder : order ∈ a.orders)
    (haccepted : order.status = .accepted) : childrenOf a.orders order.orderId = [] := by
  rw [childrenOf, List.filter_eq_nil_iff]
  intro child hchild hparent
  simp only [decide_eq_true_eq] at hparent
  exact h.no_child horder haccepted hchild hparent.1

/-- The child of an accepted order is new. -/
theorem Coherent.remainder_new {order : PaperOrder} (horder : order ∈ a.orders)
    (haccepted : order.status = .accepted) (candle : ℤ) (remaining : ℚ) :
    findPaperOrder a.orders (remainderChild order candle remaining).key.orderId = none := by
  rw [findPaperOrder, List.find?_eq_none]
  intro child hchild hid
  have hterms := h.terms hchild
  have hsame : child.idempotencyKey.orderId = (remainderChild order candle remaining).key.orderId := by
    rw [← hterms.orderId]
    simpa using hid
  rw [hterms.key] at hsame
  simp only [OrderKey.orderId, orderIdentity, remainderChild, PaperId.order.injEq] at hsame
  apply h.no_child horder haccepted hchild
  have hparent := hsame.2.2.2
  rw [(h.terms horder).orderId] at hparent ⊢
  simp only [parentIdentity, OrderKey.orderId] at hparent ⊢
  split at hparent <;> simp_all

end

/-! ## One execution -/

/-- Whether a fill of this quantity can be told from one that the execution cap cut: the
last transition of a completed entry repeats the reason of the entry. -/
def Distinguishable (order : PaperOrder) (quantity : ℚ) : Prop :=
  order.bound.isSome = true → order.reason = "EXECUTION_CAP" → quantity ≠ order.requestedQuantity

/-- An order without a context is not bound. -/
theorem bound_eq_none {order : PaperOrder} (h : order.executionContext = none) :
    order.bound = none := by
  unfold PaperOrder.bound
  split
  · exact h
  · rfl

/-- The events of an execution that a zero cap rejects. -/
def rejection (n : ℕ) (order : PaperOrder) (reference attempted : ℚ) : List StoredEvent :=
  [executionEvent n order reference attempted,
    statusEvent (n + 1) order order.eligibleOpenUtc (.executionCap order.eligibleOpenUtc) .rejected
      "EXECUTION_CAP"]

/-- The transition that ends a rejected order, as the verifier meets it. -/
def rejectionStamp (n : ℕ) (order : PaperOrder) : Stamped OrderTransition :=
  ⟨n + 2, .orderStatus (.status order.idempotencyKey (.executionCap order.eligibleOpenUtc)),
    order.eligibleOpenUtc, ⟨.status order.idempotencyKey (.executionCap order.eligibleOpenUtc),
      order.orderId, some "EXECUTION_CAP", .rejected⟩⟩

/-- A rejection adds one transition of its order. -/
theorem rejection_transitions (n : ℕ) (order : PaperOrder) (reference attempted : ℚ) :
    transitionsOf (rejection n order reference attempted) order.orderId =
      [rejectionStamp n order] := by
  have hview : view readTransition (rejection n order reference attempted) =
      [rejectionStamp n order] := rfl
  rw [transitionsOf, hview]
  simp [rejectionStamp]

/-- An attempt to execute an accepted order, with what the operations check about it. -/
structure Attempt (log : List StoredEvent) (a : Account) (order : PaperOrder)
    (reference attempted : ℚ) : Prop where
  coherent : Coherent log a
  member : order ∈ a.orders
  accepted : order.status = .accepted
  reference_pos : 0 < reference
  attempted_pos : 0 < attempted
  attempted_le : attempted ≤ order.remainderQuantity
  opened : order.side = .buy → a.stops.open_ = []

section

variable {db db₁ db₂ : Database} {a : Account} {order : PaperOrder} {reference attempted : ℚ}
  (h : Attempt db.events a order reference attempted)
include h

/-- A bound order is an entry with its context. -/
theorem Attempt.bound {context : EntryContext} (hcontext : order.executionContext = some context) :
    order.bound = some context := by
  have hside := (h.coherent.buy_of_context h.member hcontext).1
  unfold PaperOrder.bound
  rw [hside]
  exact hcontext

/-- The events that an execution with a fill appends are a filling. -/
theorem Attempt.filling {quantity : ℚ} {capped : Bool}
    (hallowed : allowed order (computedFillPrice reference order.slippageRate order.side)
      a.projection.cash attempted = (quantity, capped))
    (hdistinct : Distinguishable order quantity)
    (hbefore : Appends db (attemptEvents db.events.length order reference attempted) db₁)
    (hblock : Appends db₁ (fillBlock db₁.events.length order
      (fillAt order order.eligibleOpenUtc reference quantity)
      (decide (quantity = order.remainderQuantity)) (remainderReason capped)) db₂)
    (hancestry : order.orderKind = .stop → validateAncestry db₂.events
      (setOrder a.orders (filledOrder order (fillAt order order.eligibleOpenUtc reference quantity)
        (decide (quantity = order.remainderQuantity)))) a.stops.known
      (filledOrder order (fillAt order order.eligibleOpenUtc reference quantity)
        (decide (quantity = order.remainderQuantity))) = .ok ()) :
    ∃ p, db₂.events = db.events ++ (attemptEvents db.events.length order reference attempted ++
        fillBlock (db.events.length +
            (attemptEvents db.events.length order reference attempted).length) order
          (fillAt order order.eligibleOpenUtc reference quantity)
          (decide (quantity = order.remainderQuantity)) (remainderReason capped)) ∧
      Filling db.events a order (attemptEvents db.events.length order reference attempted)
        (fillAt order order.eligibleOpenUtc reference quantity)
        (decide (quantity = order.remainderQuantity)) (remainderReason capped) p := by
  obtain ⟨-, hremaining, -⟩ := h.coherent.accepted_terms h.member h.accepted
  have hall := hbefore.trans hblock
  rw [hbefore.events, List.length_append] at hall
  obtain ⟨p, hreplay, -⟩ := hall.rebuild
  have hids := hall.ids h.coherent.ids
  have hevents := hall.events
  rw [hevents] at hids hancestry
  refine ⟨p, hevents, {
    member := h.member
    accepted := h.accepted
    executions := attemptEvents_executionsOf _ _ _ _
    priced := ⟨reference, rfl⟩
    complete_eq := by rw [hremaining]; rfl
    replay := hreplay
    ids := hids
    opened := h.opened
    unbound := ?_
    bound := ?_
    ancestry := hancestry }⟩
  · intro hnone
    have hunbound := bound_eq_none hnone
    simp only [allowed, hunbound, Prod.mk.injEq] at hallowed
    obtain ⟨-, rfl⟩ := hallowed
    refine ⟨?_, rfl⟩
    simp only [attemptEvents, hunbound]
  · intro context hcontext
    have hbound := h.bound hcontext
    obtain ⟨hside, -⟩ := bound_eq_some hbound
    simp only [allowed, hbound, Prod.mk.injEq] at hallowed
    obtain ⟨hquantity, hcut⟩ := hallowed
    refine ⟨reference, attempted, ?_, h.reference_pos, h.attempted_pos, ?_, ?_, ?_, ?_, ?_⟩
    · simp only [attemptEvents, hbound]
    · rw [← hremaining]
      exact h.attempted_le
    · simp only [fillAt, hside]
    · exact hquantity.symm
    · intro _
      rw [← hcut]
      by_cases hlt : executionQuantity context order.feeRate
          (computedFillPrice reference order.slippageRate order.side) a.projection.cash < attempted
      · simp [remainderReason, fillAt, hlt]
      · simp [remainderReason, fillAt, hlt]
    · intro hcomplete hreason
      have hwhole : quantity = order.requestedQuantity := by
        rw [← hremaining]
        exact of_decide_eq_true hcomplete
      exact hdistinct (by rw [hbound]; rfl) hreason hwhole

/-- The attempt that a zero cap rejects is evidence of the rejection. -/
theorem Attempt.zero_cap {context : EntryContext} (hbound : order.bound = some context)
    (hzero : min attempted (executionQuantity context order.feeRate
      (computedFillPrice reference order.slippageRate .buy) a.projection.cash) ≤ 0) {p : Projection}
    (hreplay : rebuildFromEvents (db.events ++ rejection db.events.length order reference attempted) = .ok p) :
    validateExecutionEvent (db.events ++ rejection db.events.length order reference attempted)
      (setOrder a.orders { order with status := .rejected })
      ⟨db.events.length + 1, .execution order.orderId, order.eligibleOpenUtc,
        ⟨1, order.orderId, reference, attempted⟩⟩ = .ok () := by
  obtain ⟨hside, hcontext⟩ := bound_eq_some hbound
  obtain ⟨-, binding, hbindingMem, hbinding, -⟩ := h.coherent.buy_of_context h.member hcontext
  have hsequence := (view_sequence h.coherent.envelopes hbindingMem).2
  obtain ⟨-, hremaining, -⟩ := h.coherent.accepted_terms h.member h.accepted
  have hflat : a.projection.btcQuantity = 0 := by
    have hfunded := h.coherent.funded order
      (List.mem_filter.mpr ⟨h.member, by rw [h.accepted]; rfl⟩)
    simpa only [Funded, hside] using hfunded
  have hbalance : balance (beforeSequence (db.events.length + 1)
    (db.events ++ rejection db.events.length order reference attempted)) =
      (a.projection.cash, a.projection.btcQuantity) := by
    have hbefore := beforeSequence_block (envelopes_of_rebuild hreplay) 0
    simp only [Nat.add_zero, List.take_zero, List.append_nil] at hbefore
    rw [← balance_eq h.coherent.replay, hbefore]
  have hfound : findPaperOrder (setOrder a.orders { order with status := .rejected })
      order.orderId = some { order with status := .rejected } := by
    have hold : findPaperOrder a.orders { order with status := OrderStatus.rejected }.orderId =
        some order := findPaperOrder_of_mem h.coherent.nodup h.member
    exact find_setOrder_self hold
  obtain ⟨m, -, hm, -⟩ := h.coherent.metadata h.member
  obtain ⟨_, submitted, accepted, -, -, -, -, htransitions, -, hfills, -⟩ :=
    accepted_evidence h.accepted hm
  have hnoFill : fillsOf (db.events ++ rejection db.events.length order reference attempted)
    order.orderId = [] := by
    rw [fillsOf_append_block, hfills]
    rfl
  have hlast : (transitionsOf (db.events ++ rejection db.events.length order reference attempted)
      order.orderId).getLast? = some (rejectionStamp db.events.length order) := by
    rw [transitionsOf_append_block, htransitions, rejection_transitions]
    rfl
  have hreason : terminalReason (db.events ++ rejection db.events.length order reference attempted)
    order.orderId =
        some "EXECUTION_CAP" := by
    rw [terminalReason, hlast]
    rfl
  simp only [validateExecutionEvent, Except.bind_eq_ok, require_eq_ok]
  refine ⟨_, hfound, binding, ?_, context, hcontext, ?_⟩
  · rw [contextOf, view_append]
    rw [contextOf] at hbinding
    rw [List.find?_append, hbinding, Option.some_or]
  · simp only [validateExecution, Except.bind_eq_ok, reject_eq_ok, hbalance, hnoFill, hreason,
      hlast, if_pos hzero]
    refine ⟨⟨⟩, ?_, ⟨⟩, ?_, ⟨⟩, not_not.mpr hflat, ⟨⟩, not_not.mpr ⟨_, rfl, Nat.lt_succ_self _⟩, ?_⟩
    · simp only [hside, ne_eq, not_true_eq_false, false_or, not_le]
      omega
    · rw [not_or, not_not, not_le]
      exact ⟨h.reference_pos, h.attempted_pos, hremaining ▸ h.attempted_le⟩
    · simp

end

/-- An attempt without a fill is evidence of nothing but itself and its transition. -/
theorem attemptEvents_views {m n : ℕ} {step : StatusStep} {status : OrderStatus}
    {reason : String} {order : PaperOrder} {reference attempted : ℚ} {α : Type}
    {read : Payload → Option α}
    (hexecution : ∀ x, read (.paperExecution x) = none)
    (hstatus : ∀ x, read (.orderStatus x) = none) :
    view read (attemptEvents m order reference attempted ++
      [statusEvent n order order.eligibleOpenUtc step status reason]) = [] := by
  rw [view_append, (attemptEvents_executionsOf _ _ _ _).view_eq_nil hexecution, List.nil_append]
  exact view_singleton_none (hstatus _)

/-- A block without a fill leaves the balances alone. -/
theorem btc_of_no_fill {log block : List StoredEvent} {p p' : Projection}
    (hp : rebuildFromEvents log = .ok p) (hp' : rebuildFromEvents (log ++ block) = .ok p')
    (hfill : view readFill block = []) : p'.btcQuantity = p.btcQuantity := by
  have hbefore := balance_eq hp
  have hafter := balance_eq hp'
  rw [balance, view_append, hfill, List.append_nil, ← balance, hbefore] at hafter
  exact (Prod.mk.inj hafter).2.symm

section

variable {db db₁ db₂ : Database} {a : Account} {order : PaperOrder} {reference attempted : ℚ}
  (h : Attempt db.events a order reference attempted)
include h

/-- An attempt without a fill ends its order and moves no balance. -/
theorem Attempt.unfilled {step : StatusStep} {status : OrderStatus} {reason : String}
    (hmarket : order.orderKind = .market)
    (hbefore : Appends db (attemptEvents db.events.length order reference attempted) db₁)
    (hended : Appends db₁ [statusEvent db₁.events.length order order.eligibleOpenUtc step status
      reason] db₂)
    (hterminal : ∀ n, validateNoFillTerminal order.idempotencyKey order.eligibleOpenUtc
      order.executionContext.isSome ⟨n, .orderStatus (.status order.idempotencyKey step),
        order.eligibleOpenUtc, ⟨.status order.idempotencyKey step, order.orderId, some reason,
          status⟩⟩ = .ok ())
    (hrejected : ∀ context, order.bound = some context → min attempted
        (executionQuantity context order.feeRate
          (computedFillPrice reference order.slippageRate .buy) a.projection.cash) ≤ 0 ∧
      step = .executionCap order.eligibleOpenUtc ∧ status = .rejected ∧ reason = "EXECUTION_CAP") :
    ∃ p, Coherent db₂.events { a with
        projection := p
        orders := setOrder a.orders { order with status } } ∧
      p.btcQuantity = a.projection.btcQuantity := by
  have hall := hbefore.trans hended
  rw [hbefore.events, List.length_append] at hall
  obtain ⟨p, hreplay, -⟩ := hall.rebuild
  have hids := hall.ids h.coherent.ids
  have hevents := hall.events
  rw [hevents] at hids ⊢
  refine ⟨p, h.coherent.unfilled h.member h.accepted hmarket
    (attemptEvents_executionsOf _ _ _ _) hreplay hids (hterminal _) ?_ ?_, ?_⟩
  · intro event hevent
    cases hbound : order.bound with
    | none =>
      simp only [attemptEvents, hbound] at hevent
      cases hevent
    | some context =>
      obtain ⟨hzero, rfl, rfl, rfl⟩ := hrejected context hbound
      simp only [attemptEvents, hbound] at hevent hreplay ⊢
      obtain rfl := List.mem_singleton.mp hevent
      exact h.zero_cap hbound hzero hreplay
  · intro hsome hnone
    obtain ⟨context, hcontext⟩ := Option.isSome_iff_exists.mp hsome
    simp only [attemptEvents, h.bound hcontext] at hnone
    cases hnone
  · exact btc_of_no_fill h.coherent.replay hreplay
      (attemptEvents_views (fun _ => rfl) (fun _ => rfl))

end

end AutoBit.Broker
