import AutoBit.Store.Log

/-!
# The order lifecycle

What the replay of any log guarantees about its orders: the filled quantity is between zero
and the requested one and agrees with the status, and an order in a terminal status keeps
it. A completed order can be confirmed as completed again, which moves the time of its last
update.
-/

namespace AutoBit.Store

open Library

/-- The filled quantity of an order and its status agree. -/
structure StoredOrder.Lifecycle (order : StoredOrder) : Prop where
  requested_pos : 0 < order.requestedQuantity
  filled_nonneg : 0 ≤ order.filledQuantity
  filled_le : order.filledQuantity ≤ order.requestedQuantity
  completed_iff : order.status = .completed ↔ order.filledQuantity = order.requestedQuantity
  partial_filled : order.status = .partial_ →
    0 < order.filledQuantity ∧ order.filledQuantity < order.requestedQuantity
  seed_unfilled : order.status.isSeed = true → order.filledQuantity = 0

/-- An order after another state of it: the same, or completed and confirmed again. -/
def StoredOrder.Settled (before after : StoredOrder) : Prop :=
  after = before ∨
    before.status = .completed ∧ ∃ at_, after = { before with updatedAtUtc := at_ }

/-- An active order is not filled yet. -/
theorem StoredOrder.Lifecycle.filled_lt {order : StoredOrder} (h : order.Lifecycle)
    (hactive : order.status.isActive = true) : order.filledQuantity < order.requestedQuantity := by
  refine lt_of_le_of_ne h.filled_le fun hfilled => ?_
  rw [h.completed_iff.mpr hfilled] at hactive
  cases hactive

/-- A legal transition confirms a status, or moves on from an active one; only a seed leads
to a seed. -/
theorem legalTransition_cases {current target : OrderStatus} {requested filled : ℚ}
    (h : legalTransition current target requested filled = true) :
    target = .partial_ ∧ current = .partial_ ∨ target = .completed ∧ current = .completed ∨
      target ≠ .partial_ ∧ target ≠ .completed ∧ current.isActive = true ∧
        (target.isSeed = true → current.isSeed = true) := by
  cases target <;> cases current <;>
    simp_all [legalTransition, legalOrderTransitions, OrderStatus.isActive, OrderStatus.isSeed]

/-- A legal transition keeps the lifecycle. -/
theorem StoredOrder.Lifecycle.transition {order : StoredOrder} {target : OrderStatus} {at_ : ℤ}
    (h : order.Lifecycle) (hlegal : legalTransition order.status target order.requestedQuantity
      order.filledQuantity = true) :
    ({ order with status := target, updatedAtUtc := at_ } : StoredOrder).Lifecycle := by
  rcases legalTransition_cases hlegal with ⟨rfl, hstatus⟩ | ⟨rfl, hstatus⟩ |
    ⟨hpart, hcompleted, hactive, hseed⟩
  · exact ⟨h.requested_pos, h.filled_nonneg, h.filled_le, hstatus ▸ h.completed_iff,
      fun _ => h.partial_filled hstatus, fun hseed => by cases hseed⟩
  · exact ⟨h.requested_pos, h.filled_nonneg, h.filled_le, hstatus ▸ h.completed_iff,
      fun hpart => (by cases hpart), fun hseed => by cases hseed⟩
  · have hlt := h.filled_lt hactive
    refine ⟨h.requested_pos, h.filled_nonneg, h.filled_le, ?_, fun hsame => ?_, fun htarget => ?_⟩
    · exact ⟨fun hsame => absurd hsame hcompleted, fun hfilled => absurd hfilled hlt.ne⟩
    · exact absurd hsame hpart
    · exact h.seed_unfilled (hseed htarget)

/-- A fill within the requested quantity keeps the lifecycle. -/
theorem StoredOrder.Lifecycle.fill {order : StoredOrder} {quantity : ℚ} {at_ : ℤ}
    (h : order.Lifecycle) (hquantity : 0 < quantity)
    (htotal : order.filledQuantity + quantity ≤ order.requestedQuantity) :
    ({ order with
      filledQuantity := order.filledQuantity + quantity
      status := if order.filledQuantity + quantity = order.requestedQuantity then .completed
        else .partial_
      updatedAtUtc := at_ } : StoredOrder).Lifecycle := by
  have hnonneg := h.filled_nonneg
  have hpos : 0 < order.filledQuantity + quantity := by linarith
  by_cases hcomplete : order.filledQuantity + quantity = order.requestedQuantity
  · rw [if_pos hcomplete]
    exact ⟨h.requested_pos, hpos.le, htotal, ⟨fun _ => hcomplete, fun _ => rfl⟩,
      fun hpart => (by cases hpart), fun hseed => by cases hseed⟩
  · rw [if_neg hcomplete]
    exact ⟨h.requested_pos, hpos.le, htotal,
      ⟨fun hcompleted => (by cases hcompleted), fun hfilled => absurd hfilled hcomplete⟩,
      fun _ => ⟨hpos, lt_of_le_of_ne htotal hcomplete⟩, fun hseed => by cases hseed⟩

/-- A created order starts its lifecycle. -/
theorem replayOrderCreated_lifecycle {s t : Projection} {e : StoredEvent} {order : OrderCreated}
    (h : replayOrderCreated s e order = .ok t) (hall : ∀ row ∈ s.orders, row.Lifecycle) :
    ∀ row ∈ t.orders, row.Lifecycle := by
  simp only [replayOrderCreated, Except.bind_eq_ok, reject_eq_ok, Except.pure_eq_ok] at h
  obtain ⟨_, hrequested, _, hfilled, _, hseed, _, -, _, -, rfl⟩ := h
  rw [not_not] at hfilled
  have hpos : 0 < order.requestedQuantity := not_le.mp hrequested
  intro row hrow
  rcases List.mem_append.mp hrow with hold | hnew
  · exact hall row hold
  · obtain rfl := List.mem_singleton.mp hnew
    refine ⟨hpos, hfilled.ge, hfilled.trans_le hpos.le, ?_, ?_, fun _ => hfilled⟩
    · constructor
      · intro hcompleted
        have hcompleted : order.status = .completed := hcompleted
        rw [hcompleted] at hseed
        exact absurd rfl hseed
      · intro hsame
        have hsame : order.filledQuantity = order.requestedQuantity := hsame
        rw [hfilled] at hsame
        exact absurd hsame hpos.ne
    · intro hpart
      have hpart : order.status = .partial_ := hpart
      rw [hpart] at hseed
      exact absurd rfl hseed

/-- A row that replaces another one of a list, or stands in it. -/
theorem mem_replaceOrder {orders : List StoredOrder} {order row : StoredOrder}
    (h : row ∈ replaceOrder orders order) : row = order ∨ row ∈ orders := by
  obtain ⟨existing, hexisting, hrow⟩ := List.mem_map.mp h
  by_cases hid : existing.orderId = order.orderId
  · rw [if_pos hid] at hrow
    exact Or.inl hrow.symm
  · rw [if_neg hid] at hrow
    exact Or.inr (hrow ▸ hexisting)

/-- Every event keeps the lifecycle of every order. -/
theorem replayPayload_lifecycle {s t : Projection} {e : StoredEvent}
    (h : replayPayload s e = .ok t) (hall : ∀ row ∈ s.orders, row.Lifecycle) :
    ∀ row ∈ t.orders, row.Lifecycle := by
  cases hpayload : e.payload with
  | orderCreated order =>
    simp only [replayPayload, hpayload] at h
    exact replayOrderCreated_lifecycle h hall
  | orderStatus transition =>
    simp only [replayPayload, hpayload] at h
    obtain ⟨existing, hfound, hlegal, rfl⟩ := replayOrderStatus_eq_ok h
    intro row hrow
    rcases mem_replaceOrder hrow with rfl | hold
    · exact (hall existing (findOrder_some hfound).1).transition hlegal
    · exact hall row hold
  | fill fill =>
    simp only [replayPayload, hpayload] at h
    obtain ⟨hquantity, -, -, ⟨-, horders⟩ | ⟨existing, hfound, -, -, htotal, horders⟩⟩ :=
      replayFill_eq_ok h
    · rw [horders]
      exact hall
    · rw [horders]
      intro row hrow
      rcases mem_replaceOrder hrow with rfl | hold
      · exact (hall existing (findOrder_some hfound).1).fill hquantity htotal
      · exact hall row hold
  | _ =>
    obtain ⟨horders, -, -⟩ := replayPayload_neutral (by simp [hpayload, Payload.isNeutral]) h
    rw [horders]
    exact hall

/-- Every order of a log that replays keeps its lifecycle. -/
theorem lifecycle_of_rebuild {log : List StoredEvent} {s : Projection}
    (h : rebuildFromEvents log = .ok s) : ∀ row ∈ s.orders, row.Lifecycle := by
  refine foldlM_invariant (fun s : Projection => ∀ row ∈ s.orders, row.Lifecycle) ?_ ?_ h
  · intro s t e _ hall hround
    obtain ⟨-, -, -, u, hu, rfl⟩ := replayEvent_eq_ok.mp hround
    have horders := replayPayload_lifecycle hu hall
    exact horders
  · intro row hrow
    cases hrow

/-- A replaced row leaves the terminal ones as they are, or confirms a completed one. -/
theorem settled_replaceOrder {orders : List StoredOrder} {order row found : StoredOrder}
    (hnodup : (orders.map (·.orderId)).Nodup) (hrow : row ∈ orders)
    (hfound : findOrder orders order.orderId = some found)
    (hsettled : row = found → row.Settled order) :
    ∃ after ∈ replaceOrder orders order, row.Settled after := by
  obtain ⟨hmem, hid⟩ := findOrder_some hfound
  by_cases hsame : row.orderId = order.orderId
  · have hrowFound : row = found :=
      List.inj_on_of_nodup_map hnodup hrow hmem (hsame.trans hid.symm)
    refine ⟨order, List.mem_map.mpr ⟨row, hrow, if_pos hsame⟩, hsettled hrowFound⟩
  · exact ⟨row, List.mem_map.mpr ⟨row, hrow, if_neg hsame⟩, Or.inl rfl⟩

/-- No event changes an order in a terminal status, other than to confirm it. -/
theorem replayPayload_settled {s t : Projection} {e : StoredEvent}
    (h : replayPayload s e = .ok t) (hnodup : (s.orders.map (·.orderId)).Nodup)
    {row : StoredOrder} (hrow : row ∈ s.orders) (hterminal : row.status.isActive = false) :
    ∃ after ∈ t.orders, row.Settled after := by
  cases hpayload : e.payload with
  | orderCreated order =>
    simp only [replayPayload, hpayload] at h
    obtain ⟨-, rfl⟩ := replayOrderCreated_eq_ok h
    exact ⟨row, List.mem_append_left _ hrow, Or.inl rfl⟩
  | orderStatus transition =>
    simp only [replayPayload, hpayload] at h
    obtain ⟨existing, hfound, hlegal, rfl⟩ := replayOrderStatus_eq_ok h
    have hid := (findOrder_some hfound).2
    refine settled_replaceOrder hnodup hrow (by simpa [hid] using hfound) fun hsame => ?_
    subst hsame
    rcases legalTransition_cases hlegal with ⟨-, hstatus⟩ | ⟨htarget, hstatus⟩ |
      ⟨-, -, hactive, -⟩
    · rw [hstatus] at hterminal
      cases hterminal
    · refine Or.inr ⟨hstatus, e.occurredAtUtc, ?_⟩
      rw [htarget, ← hstatus]
    · rw [hterminal] at hactive
      cases hactive
  | fill fill =>
    simp only [replayPayload, hpayload] at h
    obtain ⟨-, -, -, ⟨-, horders⟩ | ⟨existing, hfound, -, hactive, -, horders⟩⟩ :=
      replayFill_eq_ok h
    · exact ⟨row, horders ▸ hrow, Or.inl rfl⟩
    · rw [horders]
      have hid := (findOrder_some hfound).2
      refine settled_replaceOrder hnodup hrow (by simpa [hid] using hfound) fun hsame => ?_
      rw [hsame, hactive] at hterminal
      cases hterminal
  | _ =>
    obtain ⟨horders, -, -⟩ := replayPayload_neutral (by simp [hpayload, Payload.isNeutral]) h
    exact ⟨row, horders ▸ hrow, Or.inl rfl⟩

/-- An order that settles twice has settled. -/
theorem StoredOrder.Settled.trans {before between after : StoredOrder}
    (h : before.Settled between) (h' : between.Settled after) : before.Settled after := by
  rcases h with rfl | ⟨hstatus, at_, rfl⟩
  · exact h'
  · rcases h' with rfl | ⟨-, later, rfl⟩
    · exact Or.inr ⟨hstatus, at_, rfl⟩
    · exact Or.inr ⟨hstatus, later, rfl⟩

/-- An order that has settled keeps its status. -/
theorem StoredOrder.Settled.status_eq {before after : StoredOrder} (h : before.Settled after) :
    after.status = before.status := by
  rcases h with rfl | ⟨-, at_, rfl⟩ <;> rfl

/-- An order in a terminal status keeps everything but the time of its confirmation in every
longer log. -/
theorem settled_of_append {log more : List StoredEvent} {s t : Projection}
    (hs : rebuildFromEvents log = .ok s) (ht : rebuildFromEvents (log ++ more) = .ok t)
    {row : StoredOrder} (hrow : row ∈ s.orders) (hterminal : row.status.isActive = false) :
    ∃ after ∈ t.orders, row.Settled after := by
  induction more using List.reverseRecOn generalizing t with
  | nil =>
    rw [List.append_nil, hs] at ht
    cases ht
    exact ⟨row, hrow, Or.inl rfl⟩
  | append_singleton more e ih =>
    rw [← List.append_assoc] at ht
    obtain ⟨u, hu, he⟩ := rebuild_snoc.mp ht
    obtain ⟨between, hbetween, hsettled⟩ := ih hu
    obtain ⟨-, -, -, v, hv, rfl⟩ := replayEvent_eq_ok.mp he
    have hstatus : between.status.isActive = false := by rw [hsettled.status_eq, hterminal]
    obtain ⟨after, hafter, hlater⟩ := replayPayload_settled hv (orders_nodup hu) hbetween hstatus
    exact ⟨after, hafter, hsettled.trans hlater⟩

end AutoBit.Store
