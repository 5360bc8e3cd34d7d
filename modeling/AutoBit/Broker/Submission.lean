import AutoBit.Broker.Orders

/-!
# Submitting an order

The four events of a submission add one accepted order to the account.
-/

namespace AutoBit.Broker

open Library Store

/-- The events that a submission appends after a log of the given length. -/
def Submission.block (s : Submission) (n : ℕ) : List StoredEvent :=
  [⟨n + 1, .orderCreated (.order s.key), s.occurredAt,
      .orderCreated ⟨.order s.key, s.key.orderId, s.key.side, s.quantity, 0, .created⟩⟩,
    ⟨n + 2, .orderStatus (.status s.key .submitted), s.occurredAt,
      .orderStatus ⟨.status s.key .submitted, s.key.orderId, none, .submitted⟩⟩,
    ⟨n + 3, .orderStatus (.status s.key .accepted), s.occurredAt,
      .orderStatus ⟨.status s.key .accepted, s.key.orderId, none, .accepted⟩⟩,
    ⟨n + 4, .orderMeta s.key.orderId, s.occurredAt, .paperOrder s.metadata⟩]

section

variable (s : Submission) (n : ℕ)

/-- The block of a submission holds the creation of its order. -/
@[simp] theorem Submission.view_created : view readCreated (s.block n) =
    [⟨n + 1, .orderCreated (.order s.key), s.occurredAt,
      ⟨.order s.key, s.key.orderId, s.key.side, s.quantity, 0, .created⟩⟩] := rfl

/-- The block of a submission holds the transitions to SUBMITTED and to ACCEPTED. -/
@[simp] theorem Submission.view_transition : view readTransition (s.block n) =
    [⟨n + 2, .orderStatus (.status s.key .submitted), s.occurredAt,
        ⟨.status s.key .submitted, s.key.orderId, none, .submitted⟩⟩,
      ⟨n + 3, .orderStatus (.status s.key .accepted), s.occurredAt,
        ⟨.status s.key .accepted, s.key.orderId, none, .accepted⟩⟩] := rfl

/-- The block of a submission holds the metadata of its order. -/
@[simp] theorem Submission.view_metadata : view readOrderMetadata (s.block n) =
    [⟨n + 4, .orderMeta s.key.orderId, s.occurredAt, s.metadata⟩] := rfl

/-- The block of a submission shows nothing else. -/
@[simp] theorem Submission.view_fill : view readFill (s.block n) = [] := rfl

@[simp] theorem Submission.view_fillMetadata : view readFillMetadata (s.block n) = [] := rfl

@[simp] theorem Submission.view_context : view readContext (s.block n) = [] := rfl

@[simp] theorem Submission.view_execution : view readExecution (s.block n) = [] := rfl

@[simp] theorem Submission.view_stopSet : view readStopSet (s.block n) = [] := rfl

@[simp] theorem Submission.view_stopTerminal : view readStopTerminal (s.block n) = [] := rfl

@[simp] theorem Submission.view_position : view readPosition (s.block n) = [] := rfl

end

/-- The order that a submission adds. -/
def Submission.order (s : Submission) : PaperOrder := paperOrder s.metadata s.key 0 .accepted none

/-- A submission whose metadata the verifier accepts. -/
structure Submission.Valid (s : Submission) : Prop where
  reason : isReason s.key.reason = true
  quantity : 0 < s.quantity
  feeRate : 0 ≤ s.feeRate
  slippageRate : 0 ≤ s.slippageRate
  parent : s.parent ≠ some (.external "")
  signal : IsBoundary s.key.signalAt
  eligible : IsBoundary s.eligibleOpen
  kind : validateKind s.metadata = .ok ()
  key : s.key = orderIdentity s.key.signalAt s.key.side s.key.reason s.parent
  due : s.occurredAt = creationDue s.metadata

/-- The metadata of a valid submission pass their check. -/
theorem Submission.Valid.metadata {s : Submission} (h : s.Valid) (n : ℕ) :
    validateMetadata ⟨n, .orderMeta s.key.orderId, s.occurredAt, s.metadata⟩ = .ok s.key := by
  have hkey := h.key
  simp only [validateMetadata, requireBoundary, Except.bind_eq_ok, Except.pure_eq_ok, reject_eq_ok,
    not_not, not_le, not_or, not_lt, Bool.not_eq_false]
  refine ⟨⟨⟩, rfl, ⟨⟩, h.reason, ⟨⟩, h.quantity, ⟨⟩, ⟨h.feeRate, h.slippageRate⟩, ⟨⟩, h.parent, ⟨⟩,
    h.signal, ⟨⟩, h.eligible, ⟨⟩, h.kind, ⟨⟩, ?_, hkey.symm⟩
  exact ⟨congrArg Key.order hkey, congrArg OrderKey.orderId hkey⟩

/-! ## The projection -/

section

variable {orders : List StoredOrder} {row row' : StoredOrder}
  (hfresh : ∀ existing ∈ orders, existing.orderId ≠ row.orderId)
include hfresh

/-- An order with a new identity is found as it was added. -/
theorem findOrder_new : findOrder (orders ++ [row]) row.orderId = some row := by
  have hnone : orders.find? (·.orderId = row.orderId) = none := by
    rw [List.find?_eq_none]
    intro existing hmem
    simpa using hfresh existing hmem
  rw [findOrder, List.find?_append, hnone, Option.none_or, List.find?_cons_of_pos (by simp)]

/-- An order with a new identity is replaced where it was added. -/
theorem replaceOrder_new (hid : row'.orderId = row.orderId) :
    replaceOrder (orders ++ [row]) row' = orders ++ [row'] := by
  unfold replaceOrder
  rw [List.map_append, List.map_congr_left (g := id), List.map_id]
  · simp [hid]
  · intro existing hmem
    rw [if_neg (by rw [hid]; exact hfresh existing hmem)]
    rfl

end

/-- A transition of the newest order. -/
theorem replayEvent_status_new {orders : List StoredOrder} {row : StoredOrder} {p p' : Projection}
    {e : StoredEvent} {transition : OrderTransition} (he : e.payload = .orderStatus transition)
    (hfresh : ∀ existing ∈ orders, existing.orderId ≠ row.orderId)
    (horders : p.orders = orders ++ [row]) (hid : transition.orderId = row.orderId)
    (h : replayEvent p e = .ok p') :
    p'.orders = orders ++ [{ row with
      status := transition.status
      updatedAtUtc := e.occurredAtUtc }] ∧ p'.cash = p.cash ∧ p'.btcQuantity = p.btcQuantity := by
  obtain ⟨existing, hfound, horders', hcash, hbtc⟩ := replayEvent_status he h
  simp only [horders, hid, findOrder_new hfresh, Option.some.injEq] at hfound
  subst hfound
  refine ⟨?_, hcash, hbtc⟩
  rw [horders', horders]
  exact replaceOrder_new hfresh rfl

/-- The effect of a submission on the projection. -/
theorem rebuild_submission {log : List StoredEvent} {p p' : Projection} {s : Submission} {n : ℕ}
    (hp : rebuildFromEvents log = .ok p) (hp' : rebuildFromEvents (log ++ s.block n) = .ok p') :
    (∀ existing ∈ p.orders, existing.orderId ≠ s.key.orderId) ∧ p'.orders = p.orders ++
    [⟨s.key.orderId, .order s.key, s.key.side, s.quantity, 0, .accepted,
      s.occurredAt⟩] ∧ p'.cash = p.cash ∧ p'.btcQuantity = p.btcQuantity := by
  obtain ⟨p₀, hp₀, hblock⟩ := rebuild_append.mp hp'
  rw [hp] at hp₀
  cases hp₀
  simp only [Submission.block, List.foldlM_cons, List.foldlM_nil, Except.bind_eq_ok,
    Except.pure_eq_ok] at hblock
  obtain ⟨p₁, h₁, p₂, h₂, p₃, h₃, p₄, h₄, rfl⟩ := hblock
  obtain ⟨hfresh, horders₁, hcash₁, hbtc₁⟩ := replayEvent_created rfl h₁
  obtain ⟨horders₂, hcash₂, hbtc₂⟩ := replayEvent_status_new rfl hfresh horders₁ rfl h₂
  obtain ⟨horders₃, hcash₃, hbtc₃⟩ := replayEvent_status_new rfl hfresh horders₂ rfl h₃
  obtain ⟨horders₄, hcash₄, hbtc₄⟩ := replayEvent_neutral rfl h₄
  exact ⟨hfresh, horders₄.trans horders₃, hcash₄.trans (hcash₃.trans (hcash₂.trans hcash₁)),
    hbtc₄.trans (hbtc₃.trans (hbtc₂.trans hbtc₁))⟩

/-! ## The account -/

section

variable {log : List StoredEvent} {a : Account} (h : Coherent log a)
include h

/-- An unknown order has no children. -/
theorem Coherent.childrenOf_new {id : PaperId} (hid : id.isOrder = true)
    (hnotStop : id.isStop = false)
    (hnew : findPaperOrder a.orders id = none) : childrenOf a.orders id = [] := by
  rw [childrenOf, List.filter_eq_nil_iff]
  intro x hx hchild
  obtain ⟨hparent, -⟩ : x.parentOrderId = some id ∧ id.isOrder = true := by simpa using hchild
  have hopen : ¬(x.orderKind = .stop ∧ x.status = .accepted) := by
    rintro ⟨hkind, -⟩
    obtain ⟨m, -, hm, -⟩ := h.metadata hx
    obtain ⟨_, _, key, _, _, _, _, _, -, -, hvalid, -, -, -, -, rfl⟩ := orderFromMetadata_eq_ok.mp hm
    simp only [paperOrder] at hparent hkind
    simp only [validateMetadata, Except.bind_eq_ok] at hvalid
    obtain ⟨_, -, _, -, _, -, _, -, _, -, _, -, _, -, _, hvalid, -⟩ := hvalid
    simp only [validateKind, hkind, Except.bind_eq_ok, reject_eq_ok, hparent, Option.any_some,
      hnotStop, or_true, not_true_eq_false, false_and, exists_false] at hvalid
  have hancestry := h.ancestry x hx hopen
  simp only [validateAncestry, hparent, hid, if_true] at hancestry
  simp only [validateChild, hnew, Except.bind_eq_ok, require_eq_ok] at hancestry
  obtain ⟨parent, hfound, -⟩ := hancestry
  cases hfound

/-- An unknown order has no evidence. -/
theorem Coherent.unmentioned {id : PaperId} (hnew : findPaperOrder a.orders id = none) :
    creationOf log id = none ∧ transitionsOf log id = [] ∧ fillsOf log id = [] ∧
      contextOf log id = none := by
  have hcreated : ∀ c ∈ view readCreated log, c.body.orderId ≠ id := by
    intro c hc hid
    have hmem : id ∈ (view readCreated log).map (·.body.orderId) := by
      rw [← hid]
      exact List.mem_map_of_mem hc
    rw [created_orderIds h.replay] at hmem
    obtain ⟨row, hrow, hrowId⟩ := List.mem_map.mp hmem
    obtain ⟨x, hx, hagrees⟩ := forall₂_exists_right h.stored hrow
    have hne := List.find?_eq_none.mp hnew x hx
    simp [← hagrees.orderId, hrowId] at hne
  refine ⟨?_, ?_, ?_, ?_⟩
  · rw [creationOf, List.find?_eq_none]
    intro c hc
    simpa using hcreated c hc
  · rw [transitionsOf, List.filter_eq_nil_iff]
    intro t ht hid
    obtain ⟨c, hc, hsame, -⟩ := transition_created h.replay ht
    exact hcreated c hc (by rw [hsame]; simpa using hid)
  · rw [fillsOf, List.filter_eq_nil_iff]
    intro fill hfill hid
    obtain ⟨order, hfound, -⟩ := h.order_of_fill hfill
    have hsame : fill.body.orderId = id := by simpa using hid
    rw [hsame, hnew] at hfound
    cases hfound
  · rw [contextOf, List.find?_eq_none]
    intro event hevent hid
    have hvalid := h.contexts event hevent
    simp only [validateContextEvent, Except.bind_eq_ok, require_eq_ok] at hvalid
    obtain ⟨order, hfound, -⟩ := hvalid
    have hsame : event.body.orderId = id := by simpa using hid
    rw [hsame, hnew] at hfound
    cases hfound

omit h in
/-- The order that the evidence of a submission amounts to. -/
theorem Submission.Valid.orderFromMetadata {s : Submission} (hvalid : s.Valid)
    (hcreation : creationOf log s.key.orderId = none)
    (htransitions : transitionsOf log s.key.orderId = []) (hfills : fillsOf log s.key.orderId = [])
    (hcontext : contextOf log s.key.orderId = none) (n : ℕ) :
    orderFromMetadata (log ++ s.block n)
      ⟨n + 4, .orderMeta s.key.orderId, s.occurredAt, s.metadata⟩ = .ok s.order := by
  rw [orderFromMetadata_eq_ok]
  refine ⟨⟨n + 1, .orderCreated (.order s.key), s.occurredAt,
      ⟨.order s.key, s.key.orderId, s.key.side, s.quantity, 0, .created⟩⟩, none, s.key,
    ⟨n + 2, .orderStatus (.status s.key .submitted), s.occurredAt,
      ⟨.status s.key .submitted, s.key.orderId, none, .submitted⟩⟩,
    ⟨n + 3, .orderStatus (.status s.key .accepted), s.occurredAt,
      ⟨.status s.key .accepted, s.key.orderId, none, .accepted⟩⟩, [], 0, .accepted, ?_, ?_,
    hvalid.metadata (n + 4), ?_, ?_, ?_, ?_, rfl⟩
  · rw [creationOf] at hcreation
    change (view readCreated (log ++ s.block n)).find? (·.body.orderId = s.key.orderId) = _
    rw [view_append, List.find?_append, hcreation, Submission.view_created]
    simp
  · have hnone : contextOf (log ++ s.block n) s.key.orderId = none := by
      rw [contextOf, view_append, List.find?_append]
      rw [contextOf] at hcontext
      simp [hcontext]
    simp only [Submission.metadata, hnone]
    rfl
  · have hdue := hvalid.due
    simp [validateCreation, hdue, Submission.metadata]
  · rw [transitionsOf] at htransitions
    change (view readTransition (log ++ s.block n)).filter (·.body.orderId = s.key.orderId) = _
    rw [view_append, List.filter_append, htransitions, Submission.view_transition]
    simp
  · simp [validateAcceptance, validateStatusIdentity]
  · have hnone : fillsOf (log ++ s.block n) s.key.orderId = [] := by
      rw [fillsOf] at hfills
      rw [fillsOf, view_append, List.filter_append, hfills, Submission.view_fill]
      simp
    simp only [Submission.metadata, hnone]
    rfl

/-- A valid submission of a new order keeps the account coherent. -/
theorem Coherent.submit {s : Submission} (hvalid : s.Valid) {p : Projection}
    (hreplay : rebuildFromEvents (log ++ s.block log.length) = .ok p)
    (hids : ((log ++ s.block log.length).map (·.eventId)).Nodup)
    (hidle : activeOrders a.orders = []) (hfunded : Funded a.projection.btcQuantity s.order)
    (hstop : ∀ parent ∈ s.parent, s.orderKind = .stop → parent.isOrder = false)
    (hparent : ∀ parent ∈ s.parent, s.orderKind = .market → parent.isOrder = true ∧
      childrenOf a.orders parent = [] ∧ validateChild log a.orders s.order parent = .ok ()) :
    Coherent (log ++ s.block log.length)
      { a with projection := p, orders := a.orders ++ [s.order] } := by
  obtain ⟨hfresh, horders, hcash, hbtc⟩ := rebuild_submission h.replay hreplay
  have hunknown : ∀ x ∈ a.orders, x.orderId ≠ s.key.orderId := by
    intro x hx
    obtain ⟨row, hrow, hagrees⟩ := forall₂_exists_left h.stored hx
    rw [← hagrees.orderId]
    exact hfresh row hrow
  have hnew : findPaperOrder a.orders s.key.orderId = none := by
    rw [findPaperOrder, List.find?_eq_none]
    intro x hx
    simpa using hunknown x hx
  obtain ⟨hcreation, htransitions, hfills, hcontext⟩ := h.unmentioned hnew
  have hsilent : ∀ id, id ≠ s.key.orderId → Silent (s.block log.length) id := by
    intro id hne e he hmentions
    apply hne
    simp only [Submission.block, List.mem_cons, List.not_mem_nil, or_false] at he
    rcases he with rfl | rfl | rfl | rfl <;> exact (Option.some.inj hmentions).symm
  have hframe : Frame (s.block log.length) a.orders (a.orders ++ [s.order])
      (some s.key.orderId) := by
    have hnone : findPaperOrder a.orders s.order.orderId = none := hnew
    exact frame_submit hnone hsilent
  have hself : ∀ x ∈ a.orders ++ [s.order], some x.orderId = some s.key.orderId → x = s.order := by
    intro x hx hid
    rcases List.mem_append.mp hx with hold | hlast
    · exact absurd (Option.some.inj hid) (hunknown x hold)
    · exact List.mem_singleton.mp hlast
  refine h.extend (?_ : Extension log (s.block log.length) a _ (some s.key.orderId))
  refine {
    frame := hframe
    replay := hreplay
    ids := hids
    named := ?_
    orders := ?_
    contexts := by simp
    executions := by simp
    executed := ?_
    matched := ?_
    ancestry := ?_
    children := ?_
    stops := scanStops_append h.stops (by simp)
      (by simp)
    known := ⟨[], by simp, by simp⟩
    terminals := ⟨[], by simp, by simp⟩
    scan := by simp
    fills := ⟨[], by simp, by simp, rfl⟩
    held := by simpa [hbtc] using h.held
    source := by simp [hbtc]
    positions := by simp
    filled := by simp
    stored := ?_
    active := ?_
    funded := ?_
    openSource := h.openSource }
  · intro e he
    simp only [Submission.block, List.mem_cons, List.not_mem_nil, or_false] at he
    rcases he with rfl | rfl | rfl | rfl <;> rfl
  · rw [view_append, Submission.view_metadata]
    refine List.rel_append (forall₂_imp_mem h.orders ?_) (List.Forall₂.cons
      (hvalid.orderFromMetadata hcreation htransitions hfills hcontext _) List.Forall₂.nil)
    intro m _ x hx hok
    apply orderFromMetadata_append (hsilent _ _) hok
    rw [← orderFromMetadata_orderId hok]
    exact hunknown x hx
  · intro x hx hid hbound
    rw [hself x hx hid] at hbound
    cases hbound
  · constructor
    · intro fill hfill
      rw [view_append, Submission.view_fill, List.append_nil] at hfill
      obtain ⟨x, hx⟩ := Option.isSome_iff_exists.mp (h.matched.described fill hfill)
      rw [fillMetadataOf_append hx]
      rfl
    · intro metadata hmetadata
      rw [view_append, Submission.view_fillMetadata, List.append_nil] at hmetadata
      rw [view_append, Submission.view_fill, List.append_nil]
      exact h.matched.real metadata hmetadata
  · intro x hx hid hopen
    rw [hself x hx hid] at hopen ⊢
    have hmarket : s.orderKind = .market := by
      cases hkind : s.orderKind with
      | market => rfl
      | stop => exact absurd ⟨hkind, rfl⟩ hopen
    have hparentId : s.order.parentOrderId = s.parent := rfl
    unfold validateAncestry
    rw [hparentId]
    split
    · rfl
    · rename_i parent hsome
      obtain ⟨horder, -, hchild⟩ := hparent parent hsome hmarket
      rw [if_pos horder]
      exact hframe.child hchild (Continues.refl _)
  · intro x hx
    have hsplit : childrenOf (a.orders ++ [s.order]) x.orderId =
        childrenOf a.orders x.orderId ++ childrenOf [s.order] x.orderId := List.filter_append _ _
    have hone : (childrenOf [s.order] x.orderId).length ≤ 1 := List.length_filter_le _ _
    rw [hsplit, List.length_append]
    rcases List.mem_append.mp hx with hold | hlast
    · by_cases hchild : s.parent = some x.orderId ∧ x.orderId.isOrder = true
      · obtain ⟨hparentId, horder⟩ := hchild
        have hmarket : s.orderKind = .market := by
          cases hkind : s.orderKind with
          | market => rfl
          | stop =>
            rw [hstop _ hparentId hkind] at horder
            cases horder
        rw [(hparent _ hparentId hmarket).2.1]
        simpa using hone
      · have hnil : childrenOf [s.order] x.orderId = [] := by
          rw [childrenOf, List.filter_cons_of_neg, List.filter_nil]
          simpa using fun hparentId => by simpa using fun horder => hchild ⟨hparentId, horder⟩
        rw [hnil, List.length_nil, Nat.add_zero]
        exact h.children x hold
    · rw [List.mem_singleton.mp hlast] at hone ⊢
      have hnil : childrenOf a.orders s.order.orderId = [] := h.childrenOf_new rfl rfl hnew
      rw [hnil]
      simpa using hone
  · simp only [horders]
    exact List.rel_append h.stored
      (List.Forall₂.cons ⟨rfl, rfl, rfl, rfl, rfl, rfl⟩ List.Forall₂.nil)
  · have hactive : activeOrders (a.orders ++ [s.order]) = activeOrders a.orders ++ [s.order] :=
      List.filter_append _ _
    simp [hactive, hidle]
  · intro x hx
    have hactive : activeOrders (a.orders ++ [s.order]) = activeOrders a.orders ++ [s.order] :=
      List.filter_append _ _
    rw [hactive, hidle] at hx
    obtain rfl : x = s.order := by simpa using hx
    simpa [hbtc] using hfunded

end

end AutoBit.Broker
