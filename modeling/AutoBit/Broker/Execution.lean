import AutoBit.Broker.Submission

/-!
# Executing an order

What an execution appends ends an accepted order: without a fill, with a complete fill,
or with a partial fill whose remainder is canceled. A bound entry is preceded by the
evidence of its execution.
-/

namespace AutoBit.Broker

open Library Store Strategy

/-- A market order is eligible at the boundary after its signal. -/
theorem validateKind_market {m : OrderMetadata} {u : Unit} (hkind : m.orderKind = .market) :
    validateKind m = .ok u ↔ m.eligibleOpenUtc = nextBoundary m.signalAtUtc := by
  unfold validateKind
  rw [hkind]
  simp

/-- A stop order sells for its stop, not before its signal. -/
theorem validateKind_stop {m : OrderMetadata} {u : Unit} (hkind : m.orderKind = .stop) :
    validateKind m = .ok u ↔ (m.side = .sell ∧ m.parentOrderId.any PaperId.isStop = true) ∧
      m.signalAtUtc ≤ m.eligibleOpenUtc := by
  unfold validateKind
  rw [hkind]
  simp

/-- The evidence of an accepted order: it was accepted and nothing more. -/
theorem accepted_evidence {log : List StoredEvent} {order : PaperOrder}
    (hstatus : order.status = .accepted)
    {m : Stamped OrderMetadata} (hm : orderFromMetadata log m = .ok order) :
    ∃ creation submitted accepted, creationOf log order.orderId = some creation ∧
      (contextOf log order.orderId).mapM (entryContext ·.body.context) =
        .ok order.executionContext ∧
      validateMetadata m = .ok order.idempotencyKey ∧ validateCreation m creation = .ok () ∧
      transitionsOf log order.orderId = [submitted, accepted] ∧
      validateAcceptance order.idempotencyKey m creation submitted accepted = .ok () ∧
      fillsOf log order.orderId = [] ∧
      order = paperOrder m.body order.idempotencyKey 0 .accepted order.executionContext := by
  obtain ⟨creation, context, key, submitted, accepted, rest, filled, status, hcreation, hcontext,
    hkey, hvalid, htransitions, haccepted, houtcome, rfl⟩ := orderFromMetadata_eq_ok.mp hm
  simp only [paperOrder] at hstatus
  rcases orderOutcome_cases houtcome with ⟨hfills, rfl, rfl, -⟩ | ⟨-, -, hended⟩ | ⟨_, -, -, hended⟩
  · subst hstatus
    exact ⟨creation, submitted, accepted, hcreation, hcontext, hkey, hvalid, htransitions, haccepted,
      hfills, rfl⟩
  · rcases hended with rfl | rfl <;> cases hstatus
  · rcases hended with rfl | rfl <;> cases hstatus

section

variable {log : List StoredEvent} {a : Account} (h : Coherent log a)
include h

/-- The terms of an accepted order. -/
theorem Coherent.accepted_terms {order : PaperOrder} (horder : order ∈ a.orders)
    (hstatus : order.status = .accepted) : order.filledQuantity = 0 ∧
      order.remainderQuantity = order.requestedQuantity ∧ 0 < order.requestedQuantity ∧
      order.signalAtUtc ≤ order.eligibleOpenUtc ∧
      (order.orderKind = .market → order.signalAtUtc < order.eligibleOpenUtc) ∧
      isReason order.reason = true := by
  obtain ⟨m, -, hm, -⟩ := h.metadata horder
  obtain ⟨_, _, _, -, -, hkey, -, -, -, -, heq⟩ := accepted_evidence hstatus hm
  simp only [validateMetadata, Except.bind_eq_ok, reject_eq_ok, not_le, Bool.not_eq_false] at hkey
  obtain ⟨_, -, _, hreason, _, hquantity, _, -, _, -, _, -, _, -, _, hkind, -⟩ := hkey
  rw [heq]
  simp only [paperOrder, sub_zero]
  have hspan : (0 : ℤ) < fourHours := by decide
  refine ⟨trivial, trivial, hquantity, ?_, ?_, hreason⟩
  · cases hk : m.body.orderKind with
    | market =>
      have hnext := (validateKind_market hk).mp hkind
      unfold nextBoundary at hnext
      omega
    | stop => exact ((validateKind_stop hk).mp hkind).2
  · intro hk
    have hnext := (validateKind_market hk).mp hkind
    unfold nextBoundary at hnext
    omega

omit h in
/-- The order that an accepted one becomes, by what a block says about it. -/
theorem advance {block : List StoredEvent} {order : PaperOrder}
    (hstatus : order.status = .accepted) {m : Stamped OrderMetadata}
    (hm : orderFromMetadata log m = .ok order) (hcontexts : view readContext block = [])
    {filled : ℚ} {status : OrderStatus}
    (houtcome : orderOutcome order.idempotencyKey m order.executionContext.isSome
      (fillsOf block order.orderId) (fillMetadataOf (log ++ block))
      (transitionsOf block order.orderId) = .ok (filled, status)) :
    orderFromMetadata (log ++ block) m = .ok { order with
      filledQuantity := filled
      remainderQuantity := order.requestedQuantity - filled
      status } := by
  obtain ⟨creation, submitted, accepted, hcreation, hcontext, hkey, hvalid, htransitions, haccepted,
    hfills, heq⟩ := accepted_evidence hstatus hm
  have hid := orderFromMetadata_orderId hm
  rw [orderFromMetadata_eq_ok, ← hid]
  refine ⟨creation, order.executionContext, order.idempotencyKey, submitted, accepted,
    transitionsOf block order.orderId, filled, status, find_append_of_some hcreation, ?_, hkey,
    hvalid, ?_, haccepted, ?_, ?_⟩
  · rw [contextOf, view_append, hcontexts, List.append_nil]
    exact hcontext
  · rw [transitionsOf, view_append, List.filter_append]
    rw [transitionsOf] at htransitions
    rw [htransitions]
    rfl
  · rw [fillsOf, view_append, List.filter_append]
    rw [fillsOf] at hfills
    rw [hfills]
    exact houtcome
  · conv_lhs => rw [heq]
    rfl

/-- The stored row of an order. -/
theorem Coherent.row {order : PaperOrder} (horder : order ∈ a.orders) :
    ∃ row, findOrder a.projection.orders order.orderId = some row ∧ Agrees row order := by
  obtain ⟨row, hrow, hagrees⟩ := forall₂_exists_left h.stored horder
  refine ⟨row, ?_, hagrees⟩
  cases hfound : findOrder a.projection.orders order.orderId with
  | none =>
    have hnone := List.find?_eq_none.mp hfound row hrow
    simp [hagrees.orderId] at hnone
  | some found =>
    obtain ⟨hmem, hid⟩ := findOrder_some hfound
    rw [List.inj_on_of_nodup_map (orders_nodup h.replay) hmem hrow (by rw [hid, hagrees.orderId])]

end

/-! ## The events of an execution -/

/-- Execution evidence of one order. -/
def ExecutionsOf (id : PaperId) (pre : List StoredEvent) : Prop :=
  ∀ e ∈ pre, Named e ∧ ∃ execution, e.payload = .paperExecution execution ∧ execution.orderId = id

/-- A transition of an order, appended after a log of the given length. -/
def statusEvent (n : ℕ) (order : PaperOrder) (candle : ℤ) (step : StatusStep)
    (status : OrderStatus) (reason : String) : StoredEvent :=
  ⟨n + 1, .orderStatus (.status order.idempotencyKey step), candle,
    .orderStatus ⟨.status order.idempotencyKey step, order.orderId, some reason, status⟩⟩

section

variable {id : PaperId} {pre : List StoredEvent} (hpre : ExecutionsOf id pre)
include hpre

/-- Executions show nothing but themselves. -/
theorem ExecutionsOf.view_eq_nil {α : Type} {read : Payload → Option α}
    (hread : ∀ execution, read (.paperExecution execution) = none) : view read pre = [] := by
  rw [view, List.filterMap_eq_nil_iff]
  intro e he
  obtain ⟨-, execution, hpayload, -⟩ := hpre e he
  simp [stamp, hpayload, hread]

/-- Executions of an order say nothing of other orders. -/
theorem ExecutionsOf.silent {other : PaperId} (hne : other ≠ id) : Silent pre other := by
  intro e he
  obtain ⟨-, execution, hpayload, rfl⟩ := hpre e he
  simpa [mentions, hpayload] using hne.symm

/-- Execution evidence is found. -/
theorem ExecutionsOf.executed {log block : List StoredEvent} (hne : pre ≠ []) :
    executionOf (log ++ (pre ++ block)) id ≠ none := by
  obtain ⟨e, he⟩ := List.exists_mem_of_ne_nil pre hne
  obtain ⟨-, execution, hpayload, hid⟩ := hpre e he
  intro hnone
  have hmem : ⟨e.sequence, e.eventId, e.occurredAtUtc, execution⟩ ∈
      view readExecution (log ++ (pre ++ block)) :=
    mem_view.mpr ⟨e, by simp [he], by simp [hpayload, readExecution], rfl, rfl, rfl⟩
  have hmiss := List.find?_eq_none.mp hnone _ hmem
  simp [hid] at hmiss

/-- Execution evidence moves neither orders nor balances. -/
theorem ExecutionsOf.replay {s s' : Projection} (h : pre.foldlM replayEvent s = .ok s') :
    s'.orders = s.orders ∧ s'.cash = s.cash ∧ s'.btcQuantity = s.btcQuantity := by
  induction pre generalizing s with
  | nil =>
    cases h
    exact ⟨rfl, rfl, rfl⟩
  | cons e pre ih =>
    rw [List.foldlM_cons, Except.bind_eq_ok] at h
    obtain ⟨t, he, hrest⟩ := h
    obtain ⟨-, execution, hpayload, -⟩ := hpre e (by simp)
    obtain ⟨horders, hcash, hbtc⟩ := replayEvent_neutral (by simp [hpayload, Payload.isNeutral]) he
    obtain ⟨horders', hcash', hbtc'⟩ := ih (fun x hx => hpre x (by simp [hx])) hrest
    exact ⟨horders'.trans horders, hcash'.trans hcash, hbtc'.trans hbtc⟩

end

/-- Two silent stretches are silent together. -/
theorem silent_append {xs ys : List StoredEvent} {id : PaperId} (hxs : Silent xs id)
    (hys : Silent ys id) : Silent (xs ++ ys) id := by
  intro e he
  rcases List.mem_append.mp he with hx | hy
  · exact hxs e hx
  · exact hys e hy

section

variable {log : List StoredEvent} {a : Account} (h : Coherent log a)
include h

/-- A bound order is an entry. -/
theorem Coherent.buy_of_context {order : PaperOrder} (horder : order ∈ a.orders)
    {context : EntryContext} (hcontext : order.executionContext = some context) :
    order.side = .buy ∧ ∃ binding ∈ view readContext log, contextOf log order.orderId = some binding ∧
      entryContext binding.body.context = .ok context := by
  obtain ⟨m, -, hm, -⟩ := h.metadata horder
  obtain ⟨_, bound, key, _, _, _, _, _, -, hbound, -, -, -, -, -, rfl⟩ := orderFromMetadata_eq_ok.mp hm
  simp only [paperOrder] at hcontext
  subst hcontext
  rcases optionMapM_eq_ok.mp hbound with ⟨-, hnone⟩ | ⟨binding, context', hbinding, hvalid, hsame⟩
  · cases hnone
  · cases hsame
    have hmem : binding ∈ view readContext log := List.mem_of_find?_eq_some hbinding
    have hcheck := h.contexts binding hmem
    have hbindingId : binding.body.orderId = m.body.orderId := by
      simpa using List.find?_some hbinding
    simp only [validateContextEvent, Except.bind_eq_ok, require_eq_ok, hbindingId] at hcheck
    obtain ⟨found, hfound, _, -, _, -, hcheck⟩ := hcheck
    have hself := findPaperOrder_of_mem h.nodup horder
    simp only [paperOrder] at hself
    rw [hself, Option.some.injEq] at hfound
    subst hfound
    simp only [validateEntryContextBinding, Except.bind_eq_ok, reject_eq_ok, not_or,
      not_not] at hcheck
    obtain ⟨_, ⟨-, -, -, hside, -⟩, -⟩ := hcheck
    exact ⟨hside, binding, hmem, hbinding, hvalid⟩

/-- An order that ends without a fill leaves the account coherent. -/
theorem Coherent.unfilled {order : PaperOrder} (horder : order ∈ a.orders)
    (haccepted : order.status = .accepted) (hnotStop : order.orderKind = .market)
    {pre : List StoredEvent} (hpre : ExecutionsOf order.orderId pre) {step : StatusStep}
    {status : OrderStatus} {reason : String} {p : Projection}
    (hreplay : rebuildFromEvents (log ++ (pre ++ [statusEvent (log.length + pre.length) order
      order.eligibleOpenUtc step status reason])) = .ok p)
    (hids : ((log ++ (pre ++ [statusEvent (log.length + pre.length) order
      order.eligibleOpenUtc step status reason])).map (·.eventId)).Nodup)
    (hterminal : validateNoFillTerminal order.idempotencyKey order.eligibleOpenUtc
      order.executionContext.isSome ⟨log.length + pre.length + 1,
        .orderStatus (.status order.idempotencyKey step), order.eligibleOpenUtc,
        ⟨.status order.idempotencyKey step, order.orderId, some reason, status⟩⟩ = .ok ())
    (hexecutions : ∀ event ∈ view readExecution pre, validateExecutionEvent
      (log ++ (pre ++ [statusEvent (log.length + pre.length) order order.eligibleOpenUtc step status
        reason])) (setOrder a.orders { order with status }) event = .ok ())
    (hexecuted : order.executionContext.isSome = true → pre ≠ []) :
    Coherent (log ++ (pre ++ [statusEvent (log.length + pre.length) order order.eligibleOpenUtc step
        status reason]))
      { a with projection := p, orders := setOrder a.orders { order with status } } := by
  obtain ⟨hfilled, hremaining, -⟩ := h.accepted_terms horder haccepted
  have hview : ∀ {α : Type} (read : Payload → Option α), (∀ x, read (.paperExecution x) = none) →
      (∀ x, read (.orderStatus x) = none) → view read (pre ++ [statusEvent (log.length + pre.length)
        order order.eligibleOpenUtc step status reason]) = [] := by
    intro α read hexecution htransition
    rw [view_append, hpre.view_eq_nil hexecution, List.nil_append]
    exact view_singleton_none (htransition _)
  have hfill := hview readFill (fun _ => rfl) (fun _ => rfl)
  have hmeta := hview readFillMetadata (fun _ => rfl) (fun _ => rfl)
  have hcontexts := hview readContext (fun _ => rfl) (fun _ => rfl)
  have hactive : status.isActive = false := by
    unfold validateNoFillTerminal at hterminal
    split at hterminal
    · rename_i heq
      simp only at heq
      rw [heq]
      rfl
    · rename_i heq
      simp only at heq
      rw [heq]
      rfl
    · cases hterminal
  -- the projection: only the status of the row changes
  obtain ⟨p₀, hp₀, hblock⟩ := rebuild_append.mp hreplay
  rw [h.replay] at hp₀
  cases hp₀
  obtain ⟨p₁, hp₁, hlast⟩ := foldlM_snoc_eq_ok.mp hblock
  obtain ⟨horders₁, hcash₁, hbtc₁⟩ := hpre.replay hp₁
  obtain ⟨row, hrow, hagrees⟩ := h.row horder
  obtain ⟨existing, hfound, horders, hcash, hbtc⟩ := replayEvent_status rfl hlast
  rw [horders₁] at hfound
  rw [hrow, Option.some.injEq] at hfound
  subst hfound
  refine h.update (?_ : Update log _ a order { order with status } p a.scan a.trade a.source)
  refine {
    member := horder
    accepted := haccepted
    continues := ⟨_, _, _, _, rfl, Or.inr rfl⟩
    silent := ?_
    replay := hreplay
    ids := hids
    named := ?_
    noMetadata := hview readOrderMetadata (fun _ => rfl) (fun _ => rfl)
    noStopSet := hview readStopSet (fun _ => rfl) (fun _ => rfl)
    noStopTerminal := hview readStopTerminal (fun _ => rfl) (fun _ => rfl)
    noPosition := hview readPosition (fun _ => rfl) (fun _ => rfl)
    outcome := ?_
    contexts := by simp [hcontexts]
    executions := ?_
    executed := ?_
    described := by simp [hfill]
    real := by simp [hmeta]
    ancestry := fun hstop => by rw [hnotStop] at hstop; cases hstop
    scanned := by simp [hfill]
    fills := ⟨[], by simp, by simp, rfl⟩
    held := by simpa [hbtc, hbtc₁] using h.held
    sourced := by simp [hfill, hbtc, hbtc₁]
    filled := by simp [hfill]
    stored := ?_
    funded := fun hstatus => by rw [hactive] at hstatus; cases hstatus
    openSource := h.openSource }
  · intro id hne
    refine silent_append (hpre.silent hne) ?_
    intro e he
    rw [List.mem_singleton.mp he]
    simpa [statusEvent, mentions] using hne.symm
  · intro e he
    rcases List.mem_append.mp he with hold | hlast
    · exact (hpre e hold).1
    · rw [List.mem_singleton.mp hlast]
      rfl
  · intro m hmem hm
    have hbound := (view_sequence h.envelopes hmem).2
    obtain ⟨_, _, _, -, -, -, -, -, -, -, heq⟩ := accepted_evidence haccepted hm
    have heligible : order.eligibleOpenUtc = m.body.eligibleOpenUtc := by rw [heq]; rfl
    have hfills : fillsOf (pre ++ [statusEvent (log.length + pre.length) order
        order.eligibleOpenUtc step status reason]) order.orderId = [] := by
      rw [fillsOf, hfill, List.filter_nil]
    have htransitions : transitionsOf (pre ++ [statusEvent (log.length + pre.length) order
        order.eligibleOpenUtc step status reason]) order.orderId = [⟨log.length + pre.length + 1,
          .orderStatus (.status order.idempotencyKey step), order.eligibleOpenUtc,
          ⟨.status order.idempotencyKey step, order.orderId, some reason, status⟩⟩] := by
      rw [transitionsOf, view_append, hpre.view_eq_nil (fun _ => rfl), List.nil_append]
      simp [view, stamp, statusEvent, readTransition]
    have houtcome : orderOutcome order.idempotencyKey m order.executionContext.isSome
        (fillsOf (pre ++ [statusEvent (log.length + pre.length) order order.eligibleOpenUtc step
          status reason]) order.orderId)
        (fillMetadataOf (log ++ (pre ++ [statusEvent (log.length + pre.length) order
          order.eligibleOpenUtc step status reason])))
        (transitionsOf (pre ++ [statusEvent (log.length + pre.length) order order.eligibleOpenUtc
          step status reason]) order.orderId) = .ok (0, status) := by
      rw [hfills, htransitions]
      simp only [orderOutcome, validateNoFill, Except.bind_eq_ok, Except.pure_eq_ok, reject_eq_ok,
        not_or, not_not, not_le, Prod.mk.injEq, true_and, exists_eq_right]
      refine ⟨⟨⟩, ?_, ⟨⟩, ⟨heligible, by omega⟩, trivial⟩
      rw [← heligible]
      exact hterminal
    rw [advance haccepted hm hcontexts houtcome, hfilled, hremaining, sub_zero]
  · intro event hevent
    rw [view_append, view_singleton_none (by rfl), List.append_nil] at hevent
    exact hexecutions event hevent
  · intro hbound _
    exact hpre.executed (hexecuted hbound)
  · rw [horders, horders₁]
    exact agrees_setOrder h.stored ⟨hagrees.orderId, hagrees.idempotencyKey, hagrees.side, rfl,
      hagrees.requestedQuantity, hagrees.filledQuantity⟩

end

end AutoBit.Broker
