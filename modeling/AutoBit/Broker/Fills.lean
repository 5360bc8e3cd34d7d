import AutoBit.Broker.Execution

/-!
# Filling an order

A fill completes an accepted order or ends it with a canceled remainder. The round trip
under way and the open entry follow the fill.
-/

namespace AutoBit.Broker

open Library Store Strategy

/-! ## Round trips -/

/-- The fill of an entry from a flat account starts a round trip. -/
theorem Held.buy {trade : TradeScan} (h : Held trade 0) {fill : PaperFill}
    (hside : fill.side = .buy) :
    ∃ trade', scanTrade trade fill = .ok trade' ∧ Held trade' fill.quantity := by
  refine ⟨{ trade with
    entries := trade.entries ++ [fill]
    position := trade.position + fill.quantity }, ?_, ?_⟩
  · have hflat : reject (0 < trade.position)
        (Failure.reconciliation "paper fills contain pyramiding") = .ok () := by
      rw [reject_eq_ok, h.position]
      exact lt_irrefl _
    simp only [scanTrade, hside, Except.bind_eq_ok, Except.pure_eq_ok]
    exact ⟨⟨⟩, hflat, trivial⟩
  · constructor
    · rw [h.position, zero_add]
    · have hbalanced := h.balanced
      simp only [List.map_append, List.sum_append, List.map_cons, List.map_nil, List.sum_cons,
        List.sum_nil]
      linarith
    · intro _
      simp

/-- The fill of an exit reduces the round trip, and closes it when nothing is left. -/
theorem Held.sell {trade : TradeScan} {btc : ℚ} (h : Held trade btc) {fill : PaperFill}
    (hside : fill.side = .sell) (hpos : 0 < fill.quantity) (hle : fill.quantity ≤ btc) :
    ∃ trade', scanTrade trade fill = .ok trade' ∧ Held trade' (btc - fill.quantity) := by
  have hbtc : 0 < btc := lt_of_lt_of_le hpos hle
  have hbalanced := h.balanced
  have howned : reject (trade.position ≤ 0 ∨ trade.position < fill.quantity)
      (Failure.reconciliation "paper fills contain an unmatched sell") = .ok () := by
    rw [reject_eq_ok, h.position]
    rintro (hnone | hshort) <;> linarith
  by_cases hleft : btc - fill.quantity = 0
  · obtain ⟨first, rest, hentries⟩ := List.exists_cons_of_ne_nil (h.entered hbtc.ne')
    have hsums : (trade.entries.map (·.quantity)).sum =
        ((trade.exits ++ [fill]).map (·.quantity)).sum := by
      simp only [List.map_append, List.sum_append, List.map_cons, List.map_nil, List.sum_cons,
        List.sum_nil]
      linarith
    obtain ⟨closed, hclosed⟩ : ∃ closed,
        closedTrade trade.entries (trade.exits ++ [fill]) = .ok closed := by
      simp only [closedTrade, Except.bind_eq_ok, Except.pure_eq_ok, require_eq_ok, reject_eq_ok,
        hsums, not_not]
      exact ⟨_, first, by simp [hentries], fill, by simp, ⟨⟩, trivial, rfl⟩
    refine ⟨{ trades := trade.trades ++ [closed] }, ?_, ?_⟩
    · simp only [scanTrade, hside, Except.bind_eq_ok]
      refine ⟨⟨⟩, howned, ?_⟩
      rw [h.position, if_neg (not_not.mpr hleft), Except.bind_eq_ok]
      exact ⟨closed, hclosed, rfl⟩
    · rw [hleft]
      exact ⟨rfl, by simp, fun hne => absurd rfl hne⟩
  · refine ⟨{ trade with
      exits := trade.exits ++ [fill]
      position := trade.position - fill.quantity }, ?_, ?_⟩
    · simp only [scanTrade, hside, Except.bind_eq_ok]
      refine ⟨⟨⟩, howned, ?_⟩
      rw [if_pos (by rw [h.position]; exact hleft)]
      rfl
    · constructor
      · rw [h.position]
      · simp only [List.map_append, List.sum_append, List.map_cons, List.map_nil, List.sum_cons,
          List.sum_nil]
        linarith
      · intro _
        exact h.entered hbtc.ne'

/-- A round trip and the open entry follow a fill that the account can carry. -/
theorem Held.fill {trade : TradeScan} {account : ℚ × ℚ} (h : Held trade account.2)
    {fill : PaperFill} (hpos : 0 < fill.quantity) (hbuy : fill.side = .buy → account.2 = 0)
    (hsell : fill.side = .sell → fill.quantity ≤ account.2) (source : Option PaperId) :
    (∃ trade', scanTrade trade fill = .ok trade' ∧ Held trade' (applyFill account fill.raw).2) ∧
      ∃ source', sourceStep (account.2, source) fill.raw =
          .ok ((applyFill account fill.raw).2, source') ∧
        (fill.side = .buy → source' = some fill.orderId) ∧
        (fill.side = .sell → source' = if account.2 - fill.quantity = 0 then none else source) := by
  cases hside : fill.side with
  | buy =>
    have hflat := hbuy hside
    rw [hflat] at h
    constructor
    · obtain ⟨trade', hok, hheld⟩ := h.buy hside
      refine ⟨trade', hok, ?_⟩
      simpa [applyFill, PaperFill.raw, hside, hflat] using hheld
    · refine ⟨some fill.orderId, ?_, fun _ => rfl, by simp⟩
      simp [sourceStep, applyFill, PaperFill.raw, hside, hflat]
  | sell =>
    have hle := hsell hside
    constructor
    · obtain ⟨trade', hok, hheld⟩ := h.sell hside hpos hle
      refine ⟨trade', hok, ?_⟩
      simpa [applyFill, PaperFill.raw, hside] using hheld
    · refine ⟨_, ?_, by simp, fun _ => rfl⟩
      simp [sourceStep, applyFill, PaperFill.raw, hside, not_lt.mpr hle]

/-! ## The events of a fill -/

/-- The status that a fill gives its order for good. -/
def finalStatus (complete : Bool) : OrderStatus := if complete then .completed else .canceled

/-- The transition that goes with a fill. -/
def fillStatusEvent (n : ℕ) (order : PaperOrder) (fill : PaperFill) : Bool → StoredEvent
  | true => statusEvent n order fill.fillTime (.completed fill.fillTime) .completed order.reason
  | false => statusEvent n order fill.fillTime (.partial_ fill.fillTime) .partial_ order.reason

/-- The transition that ends an order with a remainder. -/
def remainderEvents (n : ℕ) (order : PaperOrder) (fill : PaperFill) (reason : String) :
    Bool → List StoredEvent
  | true => []
  | false => [statusEvent n order fill.fillTime (.cancelRemainder fill.fillTime) .canceled reason]

/-- The events that a fill appends after a log of the given length. -/
def fillBlock (n : ℕ) (order : PaperOrder) (fill : PaperFill) (complete : Bool) (reason : String) :
    List StoredEvent :=
  [⟨n + 1, fill.fillId, fill.fillTime, .fill fill.raw⟩,
    fillStatusEvent (n + 1) order fill complete,
    ⟨n + 3, .fillMeta fill.fillId, fill.fillTime, .paperFill (fill.metadata order)⟩] ++
  remainderEvents (n + 3) order fill reason complete

/-- The order after a fill. -/
def filledOrder (order : PaperOrder) (fill : PaperFill) (complete : Bool) : PaperOrder :=
  { order with
    filledQuantity := fill.quantity
    remainderQuantity := order.requestedQuantity - fill.quantity
    status := finalStatus complete }

section

variable (n : ℕ) (order : PaperOrder) (fill : PaperFill) (complete : Bool) (reason : String)

/-- The block of a fill holds the fill itself. -/
@[simp] theorem fillBlock_fill : view readFill (fillBlock n order fill complete reason) =
    [⟨n + 1, fill.fillId, fill.fillTime, fill.raw⟩] := by
  cases complete <;> rfl

/-- The block of a fill holds its metadata. -/
@[simp] theorem fillBlock_fillMetadata :
    view readFillMetadata (fillBlock n order fill complete reason) =
      [⟨n + 3, .fillMeta fill.fillId, fill.fillTime, fill.metadata order⟩] := by
  cases complete <;> rfl

/-- A payload that is neither a fill nor a transition nor fill metadata is not in the block. -/
theorem fillBlock_other {α : Type} {read : Payload → Option α} (hfill : ∀ x, read (.fill x) = none)
    (hstatus : ∀ x, read (.orderStatus x) = none) (hmeta : ∀ x, read (.paperFill x) = none) :
    view read (fillBlock n order fill complete reason) = [] := by
  rw [view, List.filterMap_eq_nil_iff]
  intro e he
  cases complete <;>
    simp only [fillBlock, remainderEvents, List.append_nil, List.cons_append, List.nil_append,
      List.mem_cons, List.not_mem_nil, or_false] at he
  · rcases he with rfl | rfl | rfl | rfl <;>
      simp [stamp, fillStatusEvent, statusEvent, hfill, hstatus, hmeta]
  · rcases he with rfl | rfl | rfl <;>
      simp [stamp, fillStatusEvent, statusEvent, hfill, hstatus, hmeta]

/-- The block of a fill says nothing of other orders. -/
theorem fillBlock_silent {id : PaperId} (hid : fill.orderId = order.orderId)
    (hne : id ≠ order.orderId) : Silent (fillBlock n order fill complete reason) id := by
  intro e he
  cases complete <;>
    simp only [fillBlock, remainderEvents, List.append_nil, List.cons_append, List.nil_append,
      List.mem_cons, List.not_mem_nil, or_false] at he
  · rcases he with rfl | rfl | rfl | rfl <;>
      simp [mentions, fillStatusEvent, statusEvent, PaperFill.raw, hid, hne.symm]
  · rcases he with rfl | rfl | rfl <;>
      simp [mentions, fillStatusEvent, statusEvent, PaperFill.raw, hid, hne.symm]

/-- The events of the block of a fill are named. -/
theorem fillBlock_named : ∀ e ∈ fillBlock n order fill complete reason, Named e := by
  intro e he
  cases complete <;>
    simp only [fillBlock, remainderEvents, List.append_nil, List.cons_append, List.nil_append,
      List.mem_cons, List.not_mem_nil, or_false] at he
  · rcases he with rfl | rfl | rfl | rfl <;> rfl
  · rcases he with rfl | rfl | rfl <;> rfl

/-- The transitions of a fill. -/
def fillTransitions : List (Stamped OrderTransition) := match complete with
    | true => [⟨n + 2, .orderStatus (.status order.idempotencyKey (.completed fill.fillTime)),
        fill.fillTime, ⟨.status order.idempotencyKey (.completed fill.fillTime), order.orderId,
          some order.reason, .completed⟩⟩]
    | false => [⟨n + 2, .orderStatus (.status order.idempotencyKey (.partial_ fill.fillTime)),
        fill.fillTime, ⟨.status order.idempotencyKey (.partial_ fill.fillTime), order.orderId,
          some order.reason, .partial_⟩⟩,
      ⟨n + 4, .orderStatus (.status order.idempotencyKey (.cancelRemainder fill.fillTime)),
        fill.fillTime, ⟨.status order.idempotencyKey (.cancelRemainder fill.fillTime),
          order.orderId, some reason, .canceled⟩⟩]

/-- The transitions in the block of a fill are those of its order. -/
theorem fillBlock_transitions : transitionsOf (fillBlock n order fill complete reason)
    order.orderId = fillTransitions n order fill complete reason := by
  have hview : view readTransition (fillBlock n order fill complete reason) =
      fillTransitions n order fill complete reason := by
    cases complete <;> rfl
  rw [transitionsOf, hview, List.filter_eq_self]
  intro t ht
  cases complete <;> simp only [fillTransitions, List.mem_cons, List.not_mem_nil, or_false] at ht
  · rcases ht with rfl | rfl <;> simp
  · simp [ht]

end

/-- The effect of a fill on the projection, given the row of its order. -/
theorem replay_fillBlock {s s' : Projection} {n : ℕ} {order : PaperOrder} {fill : PaperFill}
    {complete : Bool} {reason : String} {row : StoredOrder} (hid : fill.orderId = order.orderId)
    (hrow : findOrder s.orders order.orderId = some row) (hrowId : row.orderId = order.orderId)
    (h : (fillBlock n order fill complete reason).foldlM replayEvent s = .ok s') :
    0 < fill.quantity ∧ row.filledQuantity + fill.quantity ≤ row.requestedQuantity ∧
      ∃ at_, s'.orders = replaceOrder s.orders { row with
        filledQuantity := row.filledQuantity + fill.quantity
        status := finalStatus complete
        updatedAtUtc := at_ } := by
  rw [fillBlock, List.cons_append, List.foldlM_cons, Except.bind_eq_ok] at h
  obtain ⟨s₁, h₁, h⟩ := h
  rw [List.cons_append, List.foldlM_cons, Except.bind_eq_ok] at h
  obtain ⟨s₂, h₂, h⟩ := h
  rw [List.cons_append, List.foldlM_cons, Except.bind_eq_ok] at h
  obtain ⟨s₃, h₃, h⟩ := h
  rw [← hid] at hrow
  obtain ⟨hpos, hle, horders₁⟩ := replayEvent_fill rfl hrow h₁
  obtain ⟨horders₃, -, -⟩ := replayEvent_neutral rfl h₃
  rw [hid, ← hrowId] at hrow
  refine ⟨hpos, hle, fill.fillTime, ?_⟩
  cases complete with
  | true =>
    have horders₂ := replayEvent_status_replaced rfl horders₁ hrow hrowId.symm h₂
    cases h
    rw [horders₃, horders₂]
    rfl
  | false =>
    have horders₂ := replayEvent_status_replaced rfl horders₁ hrow hrowId.symm h₂
    rw [← horders₃] at horders₂
    simp only [remainderEvents, List.nil_append, List.foldlM_cons, List.foldlM_nil,
      Except.bind_eq_ok, Except.pure_eq_ok] at h
    obtain ⟨s₄, h₄, rfl⟩ := h
    exact replayEvent_status_replaced rfl horders₂ hrow hrowId.symm h₄

/-! ## Filling -/

/-- The evidence of the execution of a bound entry, after a log of the given length. -/
def executionEvent (n : ℕ) (order : PaperOrder) (reference attempted : ℚ) : StoredEvent :=
  ⟨n + 1, .execution order.orderId, order.eligibleOpenUtc,
    .paperExecution ⟨1, order.orderId, reference, attempted⟩⟩

/-- The reason of the last transition of an order that a fill ends. -/
def endReason (order : PaperOrder) (reason : String) (complete : Bool) : String :=
  if complete then order.reason else reason

/-- The fill of a bound entry respects the cap of its sizing evidence. -/
structure Capped (cash : ℚ) (n : ℕ) (order : PaperOrder) (context : EntryContext)
    (pre : List StoredEvent) (fill : PaperFill) (complete : Bool) (reason : String)
    (reference attempted : ℚ) : Prop where
  evidence : pre = [executionEvent n order reference attempted]
  reference_pos : 0 < reference
  attempted_pos : 0 < attempted
  requested : attempted ≤ order.requestedQuantity
  price : fill.fillPrice = computedFillPrice reference order.slippageRate .buy
  quantity : fill.quantity =
    min attempted (executionQuantity context order.feeRate fill.fillPrice cash)
  remainder : complete = false → reason =
    if executionQuantity context order.feeRate fill.fillPrice cash < attempted then "EXECUTION_CAP"
    else "PARTIAL_REMAINDER"
  -- the last transition of a completed entry carries the reason of the order
  completed : complete = true → order.reason ≠ "EXECUTION_CAP"

/-- What has to be checked about a fill of an accepted order. -/
structure Filling (log : List StoredEvent) (a : Account) (order : PaperOrder)
    (pre : List StoredEvent) (fill : PaperFill) (complete : Bool) (reason : String)
    (p : Projection) : Prop where
  member : order ∈ a.orders
  accepted : order.status = .accepted
  executions : ExecutionsOf order.orderId pre
  priced : ∃ reference, fill = fillAt order order.eligibleOpenUtc reference fill.quantity
  complete_eq : complete = decide (fill.quantity = order.requestedQuantity)
  replay : rebuildFromEvents (log ++ (pre ++
    fillBlock (log.length + pre.length) order fill complete reason)) = .ok p
  ids : ((log ++ (pre ++ fillBlock (log.length + pre.length) order fill complete reason)).map
    (·.eventId)).Nodup
  opened : order.side = .buy → a.stops.open_ = []
  unbound : order.executionContext = none → pre = [] ∧ reason = "PARTIAL_REMAINDER"
  bound : ∀ context, order.executionContext = some context → ∃ reference attempted,
    Capped a.projection.cash log.length order context pre fill complete reason reference attempted
  ancestry : order.orderKind = .stop → validateAncestry
    (log ++ (pre ++ fillBlock (log.length + pre.length) order fill complete reason))
    (setOrder a.orders (filledOrder order fill complete)) a.stops.known
    (filledOrder order fill complete) = .ok ()

/-- The metadata of a fill whose identity is new. -/
theorem Coherent.fillMetadataOf_block {log : List StoredEvent} {a : Account} (h : Coherent log a)
    {order : PaperOrder} {pre : List StoredEvent} (hpre : ExecutionsOf order.orderId pre) {n : ℕ}
    {fill : PaperFill} {complete : Bool} {reason : String}
    (hids : ((log ++ (pre ++ fillBlock n order fill complete reason)).map (·.eventId)).Nodup) :
    fillMetadataOf (log ++ (pre ++ fillBlock n order fill complete reason)) fill.fillId =
      some ⟨n + 3, .fillMeta fill.fillId, fill.fillTime, fill.metadata order⟩ := by
  have hnone : (view readFillMetadata log).find? (·.body.fillId = fill.fillId) = none := by
    rw [List.find?_eq_none]
    intro metadata hmetadata hid
    obtain ⟨raw, hraw, hsame⟩ := h.matched.real metadata hmetadata
    obtain ⟨e, he, -, -, heid, -⟩ := mem_view.mp hraw
    rw [List.map_append, List.nodup_append] at hids
    refine hids.2.2 e.eventId (List.mem_map_of_mem he) fill.fillId ?_ ?_
    · simp [fillBlock]
    · rw [heid, hsame]
      simpa using hid
  rw [Broker.fillMetadataOf, view_append, List.find?_append, hnone, Option.none_or, view_append,
    hpre.view_eq_nil (fun _ => rfl), fillBlock_fillMetadata, List.nil_append]
  simp [PaperFill.metadata]

section

variable {log : List StoredEvent} {a : Account} {order : PaperOrder} {pre : List StoredEvent}
  {fill : PaperFill} {complete : Bool} {reason : String} {p : Projection} (h : Coherent log a)
  (hf : Filling log a order pre fill complete reason p)
include hf

omit hf in
/-- The transitions of an order in a longer log are those of its parts. -/
theorem transitionsOf_append_block (log block : List StoredEvent) (id : PaperId) :
    transitionsOf (log ++ block) id = transitionsOf log id ++ transitionsOf block id := by
  rw [transitionsOf, view_append, List.filter_append]
  rfl

omit hf in
/-- The fills of an order in a longer log are those of its parts. -/
theorem fillsOf_append_block (log block : List StoredEvent) (id : PaperId) :
    fillsOf (log ++ block) id = fillsOf log id ++ fillsOf block id := by
  rw [fillsOf, view_append, List.filter_append]
  rfl

/-- A fill has the terms of the order that it fills. -/
theorem Filling.terms : fill.orderId = order.orderId ∧ fill.side = order.side ∧
    fill.reason = order.reason ∧ fill.fillTime = order.eligibleOpenUtc ∧
    fill.fillId = .fill order.orderId order.eligibleOpenUtc fill.quantity := by
  obtain ⟨reference, hprice⟩ := hf.priced
  rw [hprice]
  exact ⟨rfl, rfl, rfl, rfl, rfl⟩

/-- What is appended for a fill holds the fill itself. -/
theorem Filling.view_fill : view readFill (pre ++ fillBlock (log.length + pre.length) order fill
    complete reason) = [⟨log.length + pre.length + 1, fill.fillId, fill.fillTime, fill.raw⟩] := by
  rw [view_append, hf.executions.view_eq_nil (fun _ => rfl), fillBlock_fill, List.nil_append]

/-- What is appended for a fill holds its metadata. -/
theorem Filling.view_fillMetadata : view readFillMetadata (pre ++
    fillBlock (log.length + pre.length) order fill complete reason) =
      [⟨log.length + pre.length + 3, .fillMeta fill.fillId, fill.fillTime,
        fill.metadata order⟩] := by
  rw [view_append, hf.executions.view_eq_nil (fun _ => rfl), fillBlock_fillMetadata,
    List.nil_append]

/-- What is appended for a fill shows nothing else. -/
theorem Filling.view_other {α : Type} {read : Payload → Option α}
    (hexecution : ∀ x, read (.paperExecution x) = none) (hfill : ∀ x, read (.fill x) = none)
    (hstatus : ∀ x, read (.orderStatus x) = none) (hmeta : ∀ x, read (.paperFill x) = none) :
    view read (pre ++ fillBlock (log.length + pre.length) order fill complete reason) = [] := by
  rw [view_append, hf.executions.view_eq_nil hexecution, fillBlock_other _ _ _ _ _ hfill hstatus
    hmeta, List.nil_append]

/-- The transitions that are appended for a fill are those of its order. -/
theorem Filling.transitions : transitionsOf (pre ++ fillBlock (log.length + pre.length) order fill
    complete reason) order.orderId =
      fillTransitions (log.length + pre.length) order fill complete reason := by
  rw [transitionsOf_append_block, transitionsOf, hf.executions.view_eq_nil (fun _ => rfl),
    List.filter_nil, fillBlock_transitions, List.nil_append]

/-- The fill that is appended is the only one of its order. -/
theorem Filling.fills : fillsOf (pre ++ fillBlock (log.length + pre.length) order fill
    complete reason) order.orderId =
      [⟨log.length + pre.length + 1, fill.fillId, fill.fillTime, fill.raw⟩] := by
  rw [fillsOf, hf.view_fill, List.filter_cons_of_pos, List.filter_nil]
  exact decide_eq_true hf.terms.1

/-- The last transition of the order is that of the fill. -/
theorem Filling.last_transition : ∃ terminal,
    (transitionsOf (log ++ (pre ++ fillBlock (log.length + pre.length) order fill complete reason))
      order.orderId).getLast? = some terminal ∧ log.length + pre.length + 1 < terminal.sequence ∧
      terminal.body.reason = some (endReason order reason complete) := by
  rw [transitionsOf_append_block, hf.transitions, List.getLast?_append]
  cases complete with
  | true =>
    refine ⟨_, rfl, ?_, rfl⟩
    change log.length + pre.length + 1 < log.length + pre.length + 2
    omega
  | false =>
    refine ⟨_, rfl, ?_, rfl⟩
    change log.length + pre.length + 1 < log.length + pre.length + 4
    omega

/-- The terminal reason of a filled order is the one that its fill ends it with. -/
theorem Filling.terminalReason : terminalReason (log ++ (pre ++
    fillBlock (log.length + pre.length) order fill complete reason)) order.orderId =
      some (endReason order reason complete) := by
  obtain ⟨terminal, hlast, -, hreason⟩ := hf.last_transition
  rw [Broker.terminalReason, hlast, Option.bind_some, hreason]

/-- The remainder of a bound entry is canceled for one of two reasons. -/
theorem Filling.remainder_reason (hpart : complete = false) : reason =
    if order.executionContext.isSome = true ∧ reason = "EXECUTION_CAP" then "EXECUTION_CAP"
    else "PARTIAL_REMAINDER" := by
  cases hcontext : order.executionContext with
  | none => simp [(hf.unbound hcontext).2]
  | some context =>
    obtain ⟨reference, attempted, hcap⟩ := hf.bound context hcontext
    rw [hcap.remainder hpart]
    split <;> simp

include h

/-- The metadata of the fill is found under its new identity. -/
theorem Filling.fillMetadataOf : fillMetadataOf (log ++ (pre ++
    fillBlock (log.length + pre.length) order fill complete reason)) fill.fillId =
      some ⟨log.length + pre.length + 3, .fillMeta fill.fillId, fill.fillTime,
        fill.metadata order⟩ :=
  h.fillMetadataOf_block hf.executions hf.ids

/-- The effect of the fill on the projection. -/
theorem Filling.projection : 0 < fill.quantity ∧ fill.quantity ≤ order.requestedQuantity ∧
    applyFill (a.projection.cash, a.projection.btcQuantity) fill.raw = (p.cash, p.btcQuantity) ∧
    List.Forall₂ Agrees p.orders (setOrder a.orders (filledOrder order fill complete)) := by
  obtain ⟨p₀, hp₀, hblock⟩ := rebuild_append.mp hf.replay
  rw [h.replay] at hp₀
  cases hp₀
  obtain ⟨p₁, hp₁, hblock⟩ := foldlM_append_eq_ok.mp hblock
  obtain ⟨horders₁, -, -⟩ := hf.executions.replay hp₁
  obtain ⟨row, hrow, hagrees⟩ := h.row hf.member
  rw [← horders₁] at hrow
  obtain ⟨hpos, hle, at_, horders⟩ := replay_fillBlock hf.terms.1 hrow hagrees.orderId hblock
  have hfilled : row.filledQuantity = 0 := by
    rw [hagrees.filledQuantity, (h.accepted_terms hf.member hf.accepted).1]
  rw [hfilled, zero_add] at hle horders
  refine ⟨hpos, by rw [← hagrees.requestedQuantity]; exact hle, ?_, ?_⟩
  · rw [← balance_eq h.replay, ← balance_eq hf.replay, balance, balance, view_append,
      List.map_append, List.foldl_append, hf.view_fill]
    rfl
  · rw [horders, horders₁]
    exact agrees_setOrder h.stored ⟨hagrees.orderId, hagrees.idempotencyKey, hagrees.side, rfl,
      hagrees.requestedQuantity, rfl⟩

/-- What the account owns when the order is filled. -/
theorem Filling.owned : (order.side = .buy → a.projection.btcQuantity = 0) ∧
    (order.side = .sell → order.requestedQuantity ≤ a.projection.btcQuantity) := by
  have hactive : order ∈ activeOrders a.orders :=
    List.mem_filter.mpr ⟨hf.member, by rw [hf.accepted]; rfl⟩
  have hfunded := h.funded order hactive
  have hremaining := (h.accepted_terms hf.member hf.accepted).2.1
  constructor <;> intro hside <;> simp only [Funded, hside] at hfunded
  · exact hfunded
  · rw [← hremaining]
    exact hfunded

/-- The filled order is found in place of the order. -/
theorem Filling.find : findPaperOrder (setOrder a.orders (filledOrder order fill complete))
    order.orderId = some (filledOrder order fill complete) := by
  have hfound : findPaperOrder a.orders (filledOrder order fill complete).orderId = some order :=
    findPaperOrder_of_mem h.nodup hf.member
  exact find_setOrder_self hfound

/-- The execution of a bound entry agrees with the fill. -/
theorem Filling.execution : ∀ event ∈ view readExecution (pre ++
      fillBlock (log.length + pre.length) order fill complete reason),
    validateExecutionEvent (log ++ (pre ++
        fillBlock (log.length + pre.length) order fill complete reason))
      (setOrder a.orders (filledOrder order fill complete)) event = .ok () := by
  intro event hevent
  rw [view_append, fillBlock_other _ _ _ _ _ (fun _ => rfl) (fun _ => rfl) (fun _ => rfl),
    List.append_nil] at hevent
  cases hcontext : order.executionContext with
  | none =>
    rw [(hf.unbound hcontext).1] at hevent
    cases hevent
  | some context =>
    obtain ⟨reference, attempted, hcap⟩ := hf.bound context hcontext
    obtain ⟨hside, binding, hbindingMem, hbinding, -⟩ := h.buy_of_context hf.member hcontext
    obtain ⟨hpos, -, -, -⟩ := hf.projection h
    obtain ⟨terminal, hlast, hsequence, hreason⟩ := hf.last_transition
    have hbound := (view_sequence h.envelopes hbindingMem).2
    have hflat := (hf.owned h).1 hside
    rw [hcap.evidence] at hevent
    obtain rfl : event = ⟨log.length + 1, .execution order.orderId, order.eligibleOpenUtc,
        ⟨1, order.orderId, reference, attempted⟩⟩ := List.mem_singleton.mp hevent
    have hbalance : balance (beforeSequence (log.length + 1) (log ++ (pre ++
        fillBlock (log.length + pre.length) order fill complete reason))) =
        (a.projection.cash, a.projection.btcQuantity) := by
      have hbefore := beforeSequence_block (envelopes_of_rebuild hf.replay) 0
      simp only [Nat.add_zero, List.take_zero, List.append_nil] at hbefore
      rw [← balance_eq h.replay, hbefore]
    have hquantity : ¬min attempted (executionQuantity context order.feeRate fill.fillPrice
        a.projection.cash) ≤ 0 := by
      rw [← hcap.quantity]
      exact not_le.mpr hpos
    have hfills : fillsOf (log ++ (pre ++ fillBlock (log.length + pre.length) order fill complete
        reason)) order.orderId =
          [⟨log.length + pre.length + 1, fill.fillId, fill.fillTime, fill.raw⟩] := by
      rw [fillsOf_append_block, hf.fills]
      obtain ⟨m, -, hm, -⟩ := h.metadata hf.member
      obtain ⟨_, _, _, -, -, -, -, -, -, hnone, -⟩ := accepted_evidence hf.accepted hm
      rw [hnone, List.nil_append]
    simp only [validateExecutionEvent, Except.bind_eq_ok, require_eq_ok]
    refine ⟨_, hf.find h, binding, ?_, context, hcontext, ?_⟩
    · rw [contextOf, view_append, hf.view_other (fun _ => rfl) (fun _ => rfl) (fun _ => rfl)
        (fun _ => rfl), List.append_nil]
      exact hbinding
    · simp only [validateExecution, filledOrder, Except.bind_eq_ok, reject_eq_ok, hbalance, hfills,
        hf.terminalReason, hlast, ← hcap.price, if_neg hquantity, require_eq_ok]
      have hlength : pre.length = 1 := by
        rw [hcap.evidence]
        rfl
      refine ⟨⟨⟩, ?_, ⟨⟩, ?_, ⟨⟩, not_not.mpr hflat, ⟨⟩, not_not.mpr ⟨terminal, rfl, by omega⟩, _, rfl,
        ⟨⟩, ?_, ?_⟩
      · refine reject_eq_ok.mpr ?_
        simp only [hside, ne_eq, not_true_eq_false, false_or, not_le]
        omega
      · refine reject_eq_ok.mpr ?_
        rw [not_or, not_not]
        exact ⟨not_le.mpr hcap.reference_pos, hcap.attempted_pos, hcap.requested⟩
      · rw [not_or, not_or]
        exact ⟨by simp only [not_le]; omega, not_not.mpr hcap.quantity, not_not.mpr rfl⟩
      · rintro ⟨hlt, hne⟩
        rw [← hcap.quantity] at hlt
        have hpart : complete = false := by
          rw [hf.complete_eq]
          exact decide_eq_false hlt.ne
        rw [hcap.remainder hpart, hpart] at hne
        exact hne rfl

/-- How the order stands after the fill. -/
theorem Filling.outcome {m : Stamped OrderMetadata} (hm : m ∈ view readOrderMetadata log)
    (hok : orderFromMetadata log m = .ok order) :
    orderFromMetadata (log ++ (pre ++
      fillBlock (log.length + pre.length) order fill complete reason)) m =
      .ok (filledOrder order fill complete) := by
  have hbound := (view_sequence h.envelopes hm).2
  obtain ⟨-, -, -, hsignal, hmarket, -⟩ := h.accepted_terms hf.member hf.accepted
  obtain ⟨-, -, -, htime, -⟩ := hf.terms
  obtain ⟨-, hle, -, -⟩ := hf.projection h
  obtain ⟨_, _, _, -, -, -, -, -, -, -, heq⟩ := accepted_evidence hf.accepted hok
  have heligible : m.body.eligibleOpenUtc = order.eligibleOpenUtc := by rw [heq]; rfl
  have hreason : m.body.reason = order.reason := by rw [heq]; rfl
  have hrequested : m.body.requestedQuantity = order.requestedQuantity := by rw [heq]; rfl
  have hsignalAt : m.body.signalAtUtc = order.signalAtUtc := by rw [heq]; rfl
  have hkind : m.body.orderKind = order.orderKind := by rw [heq]; rfl
  have hvalid : validateOrderFill m.body
      ⟨log.length + pre.length + 1, fill.fillId, fill.fillTime, fill.raw⟩ = .ok () := by
    simp only [validateOrderFill, Except.bind_eq_ok, reject_eq_ok, not_or, not_not, not_lt,
      heligible, hrequested, hsignalAt, hkind, htime]
    refine ⟨⟨⟩, ⟨hsignal, ?_⟩, ⟨⟩, trivial, hle⟩
    rintro ⟨hk, hsame⟩
    have hlt := hmarket hk
    omega
  refine advance hf.accepted hok (hf.view_other (fun _ => rfl) (fun _ => rfl) (fun _ => rfl)
    (fun _ => rfl)) ?_
  rw [hf.fills, hf.transitions, orderOutcome, Except.bind_eq_ok]
  refine ⟨⟨⟩, hvalid, ?_⟩
  have hmetadata := hf.fillMetadataOf h
  have hcomplete := hf.complete_eq
  cases complete with
  | true =>
    have hquantity : fill.raw.quantity = m.body.requestedQuantity := by
      rw [hrequested]
      exact of_decide_eq_true hcomplete.symm
    rw [if_pos hquantity, Except.bind_eq_ok]
    refine ⟨.completed, ?_, rfl⟩
    simp only [fillTransitions, validateCompleted, validateStatusIdentity, hmetadata,
      Except.bind_eq_ok, Except.pure_eq_ok, reject_eq_ok, not_not, htime, heligible, hreason,
      Option.mem_some_iff, exists_eq_left']
    exact ⟨⟨⟩, trivial, ⟨⟩, ⟨⟨⟩, trivial, ⟨⟩, trivial, trivial⟩, ⟨⟩, by omega, ⟨⟩, trivial, trivial⟩
  | false =>
    have hquantity : ¬fill.raw.quantity = m.body.requestedQuantity := by
      rw [hrequested]
      exact of_decide_eq_false hcomplete.symm
    rw [if_neg hquantity, Except.bind_eq_ok]
    refine ⟨.canceled, ?_, rfl⟩
    have hcanceled := hf.remainder_reason rfl
    simp only [fillTransitions, validatePartial, validateStatusIdentity, hmetadata,
      Except.bind_eq_ok, Except.pure_eq_ok, reject_eq_ok, not_not, not_or, htime, heligible,
      hreason, Option.mem_some_iff, exists_eq_left', Option.some.injEq]
    exact ⟨⟨⟩, ⟨trivial, trivial⟩, ⟨⟩, ⟨⟨⟩, trivial, ⟨⟩, trivial, trivial⟩, ⟨⟩,
      ⟨⟨⟩, trivial, ⟨⟩, trivial, hcanceled⟩, ⟨⟩, by omega, ⟨⟩, ⟨trivial, trivial⟩, trivial⟩

/-- The fill of a bound entry passes the checks of the scan. -/
theorem Filling.boundFill {context : EntryContext}
    (hcontext : order.executionContext = some context) :
    validateBoundFill (log ++ (pre ++
        fillBlock (log.length + pre.length) order fill complete reason))
      ⟨log.length + pre.length + 1, fill.fillId, fill.fillTime, fill.raw⟩
      (filledOrder order fill complete) context a.scan.account = .ok () := by
  obtain ⟨reference, attempted, hcap⟩ := hf.bound context hcontext
  obtain ⟨hside, binding, hbindingMem, hbinding, -⟩ := h.buy_of_context hf.member hcontext
  have hbound := (view_sequence h.envelopes hbindingMem).2
  have hflat := (hf.owned h).1 hside
  have hquantity := hcap.quantity
  have hrequested := hcap.requested
  have hbindingOf : contextOf (log ++ (pre ++
      fillBlock (log.length + pre.length) order fill complete reason)) order.orderId =
        some binding := by
    rw [contextOf, view_append, hf.view_other (fun _ => rfl) (fun _ => rfl) (fun _ => rfl)
      (fun _ => rfl), List.append_nil]
    exact hbinding
  simp only [validateBoundFill, Except.bind_eq_ok, reject_eq_ok]
  refine ⟨⟨⟩, ?_, ⟨⟩, ?_, ?_⟩
  · rw [not_or, not_not, not_not]
    refine ⟨⟨binding, hbindingOf, ?_⟩, by rw [h.account]; exact hflat⟩
    omega
  · rw [h.account, not_lt]
    change fill.quantity ≤ _
    rw [hquantity]
    exact min_le_min_right _ hrequested
  · rintro ⟨hreason, hneither⟩
    apply hneither
    change Broker.terminalReason _ order.orderId = _ at hreason
    rw [hf.terminalReason, Option.some.injEq] at hreason
    rw [h.account]
    change _ < order.requestedQuantity ∧ fill.quantity = _
    cases hcomplete : complete with
    | true =>
      rw [hcomplete] at hreason
      exact absurd hreason (hcap.completed hcomplete)
    | false =>
      rw [hcomplete] at hreason
      have hremainder := hcap.remainder hcomplete
      rw [show reason = "EXECUTION_CAP" from hreason] at hremainder
      split at hremainder
      · rename_i hlt
        refine ⟨lt_of_lt_of_le hlt hrequested, ?_⟩
        rw [hquantity]
        exact min_eq_right hlt.le
      · exact absurd hremainder (by decide)

/-- The fill is scanned into the account. -/
theorem Filling.scan : ∃ scan, (view readFill (pre ++
      fillBlock (log.length + pre.length) order fill complete reason)).foldlM
    (scanFill (log ++ (pre ++ fillBlock (log.length + pre.length) order fill complete reason))
      (setOrder a.orders (filledOrder order fill complete))) a.scan = .ok scan ∧
    scan.fills = a.scan.fills ++ [fill] := by
  obtain ⟨horderId, hside, hreason, htime, hid⟩ := hf.terms
  obtain ⟨hpos, hle, haccount, -⟩ := hf.projection h
  have hnonneg := envelopes_of_rebuild hf.replay
  have hfind := hf.find h
  have hmetadata := hf.fillMetadataOf h
  have hentry : validateEntryFill (log ++ (pre ++
      fillBlock (log.length + pre.length) order fill complete reason))
      ⟨log.length + pre.length + 1, fill.fillId, fill.fillTime, fill.raw⟩ a.scan.account
      (some (filledOrder order fill complete)) = .ok () := by
    cases hcontext : order.executionContext with
    | none => simp only [validateEntryFill, filledOrder, hcontext]
    | some context =>
      simp only [validateEntryFill, filledOrder, hcontext]
      exact hf.boundFill h hcontext
  have hpaper : paperFillFromEvidence
      ⟨log.length + pre.length + 1, fill.fillId, fill.fillTime, fill.raw⟩
      ⟨log.length + pre.length + 3, .fillMeta fill.fillId, fill.fillTime, fill.metadata order⟩
      (filledOrder order fill complete) = .ok fill := by
    obtain ⟨reference, hprice⟩ := hf.priced
    rw [hprice]
    simp [paperFillFromEvidence, fillAt, PaperFill.raw, PaperFill.metadata, filledOrder]
  refine ⟨{ account := applyFill a.scan.account fill.raw
            totalFees := a.scan.totalFees + fill.fee
            totalSlippage := a.scan.totalSlippage + fill.slippage
            fills := a.scan.fills ++ [fill] }, ?_, rfl⟩
  rw [hf.view_fill, List.foldlM_cons, Except.bind_eq_ok]
  refine ⟨_, ?_, rfl⟩
  have hfound : findPaperOrder (setOrder a.orders (filledOrder order fill complete))
      fill.raw.orderId = some (filledOrder order fill complete) := by
    rw [← hfind]
    exact congrArg _ horderId
  simp only [scanFill, hfound, paperFillOf, hmetadata, Except.bind_eq_ok, Except.pure_eq_ok,
    reject_eq_ok, require_eq_ok]
  refine ⟨⟨⟩, hentry, ⟨⟩, ?_, some fill, ⟨_, rfl, fill, hpaper, rfl⟩, rfl⟩
  rw [h.account, haccount, not_or, not_lt, not_lt]
  exact ⟨hnonneg.cash, hnonneg.btc⟩

omit hf in
/-- A fill of an accepted order keeps the account coherent. -/
theorem Coherent.fillOrder (hf : Filling log a order pre fill complete reason p) :
    ∃ scan trade source, Coherent (log ++ (pre ++
        fillBlock (log.length + pre.length) order fill complete reason))
      { a with
        projection := p
        orders := setOrder a.orders (filledOrder order fill complete)
        scan, trade, source } ∧
      scan.fills = a.scan.fills ++ [fill] ∧
      (fill.side = .buy → source = some order.orderId) ∧
      (fill.side = .sell → source = if p.btcQuantity = 0 then none else a.source) := by
  obtain ⟨horderId, hside, hreason, htime, hid⟩ := hf.terms
  obtain ⟨hpos, hle, haccount, hstored⟩ := hf.projection h
  obtain ⟨hbuy, hsell⟩ := hf.owned h
  obtain ⟨scan, hscan, hfills⟩ := hf.scan h
  have hbtc : (applyFill (a.projection.cash, a.projection.btcQuantity) fill.raw).2 =
      p.btcQuantity := by rw [haccount]
  have hheldBefore : Held a.trade (a.projection.cash, a.projection.btcQuantity).2 := h.held
  obtain ⟨⟨trade, htrade, hheld⟩, source, hsource, hsourceBuy, hsourceSell⟩ :=
    hheldBefore.fill hpos (fun hbought => hbuy (by rw [← hside, hbought]))
      (fun hsold => hle.trans (hsell (by rw [← hside, hsold]))) a.source
  rw [hbtc] at hheld hsource
  have hleft : fill.side = .sell → a.projection.btcQuantity - fill.quantity = p.btcQuantity := by
    intro hsold
    rw [← hbtc]
    simp [applyFill, PaperFill.raw, hsold]
  refine ⟨scan, trade, source, ?_, hfills, fun hbought => by rw [hsourceBuy hbought, horderId],
    fun hsold => by rw [hsourceSell hsold, ← hleft hsold]⟩
  refine h.update (?_ : Update log _ a order (filledOrder order fill complete) p scan trade source)
  refine {
    member := hf.member
    accepted := hf.accepted
    continues := ⟨_, _, _, _, rfl, Or.inr rfl⟩
    silent := fun id hne => silent_append (hf.executions.silent hne)
      (fillBlock_silent _ _ _ _ _ horderId hne)
    replay := hf.replay
    ids := hf.ids
    named := ?_
    noMetadata := hf.view_other (fun _ => rfl) (fun _ => rfl) (fun _ => rfl) (fun _ => rfl)
    noStopSet := hf.view_other (fun _ => rfl) (fun _ => rfl) (fun _ => rfl) (fun _ => rfl)
    noStopTerminal := hf.view_other (fun _ => rfl) (fun _ => rfl) (fun _ => rfl) (fun _ => rfl)
    noPosition := hf.view_other (fun _ => rfl) (fun _ => rfl) (fun _ => rfl) (fun _ => rfl)
    outcome := fun m hm hok => hf.outcome h hm hok
    contexts := ?_
    executions := hf.execution h
    executed := ?_
    described := ?_
    real := ?_
    ancestry := fun hstop _ => hf.ancestry hstop
    scanned := hscan
    fills := ⟨[fill], hfills, ?_, ?_⟩
    held := hheld
    sourced := ?_
    filled := ?_
    stored := hstored
    funded := ?_
    openSource := ?_ }
  · intro e he
    rcases List.mem_append.mp he with hpre | hblock
    · exact (hf.executions e hpre).1
    · exact fillBlock_named _ _ _ _ _ e hblock
  · rw [hf.view_other (fun _ => rfl) (fun _ => rfl) (fun _ => rfl) (fun _ => rfl)]
    simp
  · intro hbound _
    obtain ⟨context, hcontext⟩ := Option.isSome_iff_exists.mp hbound
    obtain ⟨reference, attempted, hcap⟩ := hf.bound context hcontext
    apply hf.executions.executed
    rw [hcap.evidence]
    simp
  · intro raw hraw
    rw [hf.view_fill] at hraw
    rw [List.mem_singleton.mp hraw, hf.fillMetadataOf h]
    rfl
  · intro metadata hmetadata
    rw [hf.view_fillMetadata] at hmetadata
    rw [hf.view_fill]
    refine ⟨_, List.mem_singleton.mpr rfl, ?_⟩
    rw [List.mem_singleton.mp hmetadata]
    rfl
  · intro other hother
    rw [List.mem_singleton.mp hother, horderId]
  · rw [List.foldlM_cons, htrade]
    rfl
  · rw [hf.view_fill, List.map_cons, List.map_nil, List.foldlM_cons, hsource]
    rfl
  · intro raw hraw
    rw [hf.view_fill] at hraw
    rw [List.mem_singleton.mp hraw]
    exact ⟨horderId.symm, hside.symm, hpos⟩
  · intro hactive
    cases complete <;> cases hactive
  · intro stop hstop id hopen
    cases hs : fill.side with
    | buy =>
      rw [hf.opened (by rw [← hside, hs])] at hstop
      cases hstop
    | sell =>
      rw [hsourceSell hs] at hopen
      split at hopen
      · cases hopen
      · exact h.openSource stop hstop id hopen

end

end AutoBit.Broker
