import AutoBit.Broker.Extension

/-!
# Blocks that concern one order

A block either submits a new order or moves an accepted one on. In both cases all other
orders, the stops and the positions stand as they were.
-/

namespace AutoBit.Broker

open Library Store

/-- `orders[order_id] = order` for an identity that is present. -/
def setOrder (orders : List PaperOrder) (order : PaperOrder) : List PaperOrder :=
  orders.map fun existing => if existing.orderId = order.orderId then order else existing

section

variable {orders : List PaperOrder} {order : PaperOrder}

/-- What is in updated orders is the update or another order. -/
theorem mem_setOrder {x : PaperOrder} (h : x ∈ setOrder orders order) :
    x = order ∨ x ∈ orders ∧ x.orderId ≠ order.orderId := by
  obtain ⟨existing, hmem, rfl⟩ := List.mem_map.mp h
  by_cases hid : existing.orderId = order.orderId
  · simp [hid]
  · simp [hid, hmem]

/-- An update keeps the identities of the orders. -/
@[simp] theorem setOrder_ids : (setOrder orders order).map (·.orderId) = orders.map (·.orderId) := by
  unfold setOrder
  rw [List.map_map]
  apply List.map_congr_left
  intro existing _
  by_cases hid : existing.orderId = order.orderId <;> simp [hid]

/-- An update leaves other orders where they are found. -/
theorem find_setOrder_ne {id : PaperId} (hne : id ≠ order.orderId) :
    findPaperOrder (setOrder orders order) id = findPaperOrder orders id := by
  induction orders with
  | nil => rfl
  | cons x orders ih =>
    simp only [findPaperOrder, setOrder, List.map_cons] at ih ⊢
    by_cases hid : x.orderId = order.orderId
    · rw [if_pos hid, List.find?_cons_of_neg (by simpa using hne.symm),
        List.find?_cons_of_neg (by simpa [hid] using hne.symm)]
      exact ih
    · rw [if_neg hid]
      by_cases hx : x.orderId = id
      · rw [List.find?_cons_of_pos (by simpa using hx), List.find?_cons_of_pos (by simpa using hx)]
      · rw [List.find?_cons_of_neg (by simpa using hx), List.find?_cons_of_neg (by simpa using hx)]
        exact ih

/-- An updated order is found as it was updated. -/
theorem find_setOrder_self {old : PaperOrder}
    (hfound : findPaperOrder orders order.orderId = some old) :
    findPaperOrder (setOrder orders order) order.orderId = some order := by
  induction orders with
  | nil => cases hfound
  | cons x orders ih =>
    simp only [findPaperOrder, setOrder, List.map_cons] at hfound ih ⊢
    by_cases hid : x.orderId = order.orderId
    · rw [if_pos hid, List.find?_cons_of_pos (by simp)]
    · rw [if_neg hid, List.find?_cons_of_neg (by simpa using hid)]
      rw [List.find?_cons_of_neg (by simpa using hid)] at hfound
      exact ih hfound

/-- The children of an order are as many as before when no parent changes. -/
theorem childrenOf_setOrder (hparent : ∀ x ∈ orders, x.orderId = order.orderId →
      x.parentOrderId = order.parentOrderId) (id : PaperId) :
    (childrenOf (setOrder orders order) id).length = (childrenOf orders id).length := by
  unfold childrenOf setOrder
  rw [List.filter_map, List.length_map]
  congr 1
  apply List.filter_congr
  intro x hx
  by_cases hid : x.orderId = order.orderId
  · simp [hid, hparent x hx hid]
  · simp [hid]

/-- No more orders are active than before. -/
theorem activeOrders_setOrder (hactive : ∀ x ∈ orders, x.orderId = order.orderId →
      x.status.isActive = true) :
    (activeOrders (setOrder orders order)).length ≤ (activeOrders orders).length := by
  unfold activeOrders setOrder
  rw [← List.countP_eq_length_filter, ← List.countP_eq_length_filter, List.countP_map]
  apply List.countP_mono_left
  intro x hx hx'
  by_cases hid : x.orderId = order.orderId
  · exact hactive x hx hid
  · simpa [hid] using hx'

/-- The stored order and the paper order with one identity change together. -/
theorem agrees_setOrder {stored : List StoredOrder} {row : StoredOrder}
    (h : List.Forall₂ Agrees stored orders) (hrow : Agrees row order) :
    List.Forall₂ Agrees (replaceOrder stored row) (setOrder orders order) := by
  induction h with
  | nil => exact List.Forall₂.nil
  | @cons x y _ _ hhead _ ih =>
    refine List.Forall₂.cons ?_ ih
    simp only
    by_cases hid : y.orderId = order.orderId
    · rw [if_pos (by rw [hhead.orderId, hid, hrow.orderId]), if_pos hid]
      exact hrow
    · rw [if_neg (by rw [hhead.orderId, hrow.orderId]; exact hid), if_neg hid]
      exact hhead

end

/-- A block that moves one accepted order on. -/
theorem frame_update {block : List StoredEvent} {orders : List PaperOrder}
    {order order' : PaperOrder} (hfound : findPaperOrder orders order.orderId = some order)
    (hstatus : order.status = .accepted) (hcont : Continues order order')
    (hsilent : ∀ id, id ≠ order.orderId → Silent block id) :
    Frame block orders (setOrder orders order') (some order.orderId) := by
  have hid : order'.orderId = order.orderId := by
    obtain ⟨_, _, _, _, rfl, -⟩ := hcont
    rfl
  refine ⟨?_, ?_, ?_, ?_⟩
  · intro id hne
    exact hsilent id fun heq => hne (by rw [heq])
  · intro id hne
    exact find_setOrder_ne fun heq => hne (by rw [heq, hid])
  · intro id x hsubject hx
    rw [Option.some.injEq] at hsubject
    rw [hsubject, hfound, Option.some.injEq] at hx
    rw [← hx, hstatus]
  · intro id x hsubject hx
    rw [Option.some.injEq] at hsubject
    rw [hsubject, hfound, Option.some.injEq] at hx
    refine ⟨order', ?_, by rw [← hx]; exact hcont⟩
    rw [hsubject, ← hid]
    rw [← hid] at hfound
    exact find_setOrder_self hfound

/-- A block that submits one new order. -/
theorem frame_submit {block : List StoredEvent} {orders : List PaperOrder} {order : PaperOrder}
    (hnew : findPaperOrder orders order.orderId = none)
    (hsilent : ∀ id, id ≠ order.orderId → Silent block id) :
    Frame block orders (orders ++ [order]) (some order.orderId) := by
  refine ⟨?_, ?_, ?_, ?_⟩
  · intro id hne
    exact hsilent id fun heq => hne (by rw [heq])
  · intro id hne
    unfold findPaperOrder
    rw [List.find?_append, List.find?_cons_of_neg, List.find?_nil, Option.or_none]
    simpa using fun heq : order.orderId = id => hne (by rw [heq])
  · intro id x hsubject hx
    rw [Option.some.injEq] at hsubject
    rw [hsubject, hnew] at hx
    cases hx
  · intro id x hsubject hx
    rw [Option.some.injEq] at hsubject
    rw [hsubject, hnew] at hx
    cases hx

/-- The metadata of the log names the same orders, but for the one that moved on. -/
theorem orders_update {log block : List StoredEvent} {metas : List (Stamped OrderMetadata)}
    {orders : List PaperOrder} {order : PaperOrder}
    (h : List.Forall₂ (fun m o => orderFromMetadata log m = .ok o) metas orders)
    (hsilent : ∀ id, id ≠ order.orderId → Silent block id)
    (hmoved : ∀ m ∈ metas, ∀ x ∈ orders, orderFromMetadata log m = .ok x →
      x.orderId = order.orderId → orderFromMetadata (log ++ block) m = .ok order) :
    List.Forall₂ (fun m o => orderFromMetadata (log ++ block) m = .ok o) metas
      (setOrder orders order) := by
  induction h with
  | nil => exact List.Forall₂.nil
  | @cons m x _ _ hhead _ ih =>
    refine List.Forall₂.cons ?_ (ih fun m hm y hy => hmoved m (by simp [hm]) y (by simp [hy]))
    simp only
    by_cases hid : x.orderId = order.orderId
    · rw [if_pos hid]
      exact hmoved m (by simp) x (by simp) hhead hid
    · rw [if_neg hid]
      exact orderFromMetadata_append (hsilent _ (by rwa [← orderFromMetadata_orderId hhead])) hhead

/-- What has to be checked about a block that moves one accepted order on. -/
structure Update (log block : List StoredEvent) (a : Account) (order order' : PaperOrder)
    (s : Projection) (scan : FillScan) (trade : TradeScan) (source : Option PaperId) : Prop where
  member : order ∈ a.orders
  accepted : order.status = .accepted
  continues : Continues order order'
  silent : ∀ id, id ≠ order.orderId → Silent block id
  replay : rebuildFromEvents (log ++ block) = .ok s
  ids : ((log ++ block).map (·.eventId)).Nodup
  named : ∀ e ∈ block, Named e
  noMetadata : view readOrderMetadata block = []
  noStopSet : view readStopSet block = []
  noStopTerminal : view readStopTerminal block = []
  noPosition : view readPosition block = []
  outcome : ∀ m ∈ view readOrderMetadata log, orderFromMetadata log m = .ok order →
    orderFromMetadata (log ++ block) m = .ok order'
  contexts : ∀ event ∈ view readContext block,
    validateContextEvent (log ++ block) (setOrder a.orders order') event = .ok ()
  executions : ∀ event ∈ view readExecution block,
    validateExecutionEvent (log ++ block) (setOrder a.orders order') event = .ok ()
  executed : order'.executionContext.isSome = true → order'.status ≠ .accepted →
    executionOf (log ++ block) order.orderId ≠ none
  described : ∀ fill ∈ view readFill block,
    (fillMetadataOf (log ++ block) fill.eventId).isSome = true
  real : ∀ metadata ∈ view readFillMetadata block, ∃ fill ∈ view readFill block,
    fill.eventId = metadata.body.fillId
  ancestry : order.orderKind = .stop → order'.status ≠ .accepted →
    validateAncestry (log ++ block) (setOrder a.orders order') a.stops.known order' = .ok ()
  scanned : (view readFill block).foldlM (scanFill (log ++ block) (setOrder a.orders order')) a.scan =
    .ok scan
  fills : ∃ more, scan.fills = a.scan.fills ++ more ∧
    (∀ fill ∈ more, fill.orderId = order.orderId) ∧ more.foldlM scanTrade a.trade = .ok trade
  held : Held trade s.btcQuantity
  sourced : ((view readFill block).map (·.body)).foldlM sourceStep
    (a.projection.btcQuantity, a.source) = .ok (s.btcQuantity, source)
  filled : ∀ fill ∈ view readFill block, order'.orderId = fill.body.orderId ∧
    order'.side = fill.body.side ∧ 0 < order'.filledQuantity
  stored : List.Forall₂ Agrees s.orders (setOrder a.orders order')
  funded : order'.status.isActive = true → Funded s.btcQuantity order'
  openSource : ∀ stop ∈ a.stops.open_, ∀ id ∈ source, stop.sourceId = id

/-- The only active order of an account. -/
theorem Coherent.only_active {log : List StoredEvent} {a : Account} (h : Coherent log a)
    {order : PaperOrder} (horder : order ∈ a.orders) (hactive : order.status.isActive = true) :
    activeOrders a.orders = [order] := by
  have hmem : order ∈ activeOrders a.orders := List.mem_filter.mpr ⟨horder, hactive⟩
  rcases activeOrders_cases h.active with hnil | ⟨only, hone⟩
  · simp [hnil] at hmem
  · rw [hone, List.mem_singleton] at hmem
    rw [hone, hmem]

/-- No order is active once the only active one has ended. -/
theorem Coherent.idle_of_ended {log : List StoredEvent} {a : Account} (h : Coherent log a)
    {order order' : PaperOrder} (horder : order ∈ a.orders) (hactive : order.status.isActive = true)
    (hid : order'.orderId = order.orderId) (hended : order'.status.isActive = false) :
    activeOrders (setOrder a.orders order') = [] := by
  have honly := h.only_active horder hactive
  rw [activeOrders, List.filter_eq_nil_iff]
  intro x hx hxactive
  rcases mem_setOrder hx with rfl | ⟨hold, hxne⟩
  · rw [hended] at hxactive
    cases hxactive
  · have hmem : x ∈ activeOrders a.orders := List.mem_filter.mpr ⟨hold, hxactive⟩
    rw [honly, List.mem_singleton] at hmem
    exact hxne (by rw [hmem, hid])

/-- A valid update keeps the account coherent. -/
theorem Coherent.update {log block : List StoredEvent} {a : Account} (h : Coherent log a)
    {order order' : PaperOrder} {s : Projection} {scan : FillScan} {trade : TradeScan}
    {source : Option PaperId} (hup : Update log block a order order' s scan trade source) :
    Coherent (log ++ block) { a with
      projection := s, orders := setOrder a.orders order', scan, trade, source } := by
  have hfound := findPaperOrder_of_mem h.nodup hup.member
  have hframe := frame_update hfound hup.accepted hup.continues hup.silent
  obtain ⟨hid, hparent, hkind⟩ : order'.orderId = order.orderId ∧
      order'.parentOrderId = order.parentOrderId ∧ order'.orderKind = order.orderKind := by
    obtain ⟨_, _, _, _, rfl, -⟩ := hup.continues
    exact ⟨rfl, rfl, rfl⟩
  -- the order is the only one with its identity
  have honly : ∀ x ∈ a.orders, x.orderId = order'.orderId → x = order := by
    intro x hx hxid
    exact List.inj_on_of_nodup_map h.nodup hx hup.member (by rw [hxid, hid])
  have hactive : order.status.isActive = true := by
    rw [hup.accepted]
    rfl
  have hset : ∀ x ∈ setOrder a.orders order', x.orderId = order.orderId → x = order' := by
    intro x hx hxid
    rcases mem_setOrder hx with heq | ⟨-, hne⟩
    · exact heq
    · exact absurd hxid (by rw [← hid]; exact hne)
  refine h.extend (?_ : Extension log block a _ (some order.orderId))
  refine {
    frame := hframe
    replay := hup.replay
    ids := hup.ids
    named := hup.named
    orders := ?_
    contexts := hup.contexts
    executions := hup.executions
    executed := ?_
    matched := ?_
    ancestry := ?_
    children := ?_
    stops := scanStops_append h.stops hup.noStopSet hup.noStopTerminal
    known := ⟨[], by simp, by simp⟩
    terminals := ⟨[], by simp, by simp⟩
    scan := hup.scanned
    fills := ?_
    held := hup.held
    source := hup.sourced
    positions := by simp [hup.noPosition]
    filled := ?_
    stored := hup.stored
    active := ?_
    funded := ?_
    openSource := hup.openSource }
  · rw [view_append, hup.noMetadata, List.append_nil]
    refine orders_update h.orders (by rw [hid]; exact hup.silent) ?_
    intro m hm x hx hok hxid
    rw [honly x hx hxid] at hok
    exact hup.outcome m hm hok
  · intro x hx hsubject
    rw [hset x hx (Option.some.inj hsubject), hid]
    exact hup.executed
  · constructor
    · intro fill hfill
      rcases mem_view_append.mp hfill with hlog | hblock
      · obtain ⟨x, hx⟩ := Option.isSome_iff_exists.mp (h.matched.described fill hlog)
        rw [fillMetadataOf_append hx]
        rfl
      · exact hup.described fill hblock
    · intro metadata hmetadata
      rcases mem_view_append.mp hmetadata with hlog | hblock
      · obtain ⟨fill, hfill, hsame⟩ := h.matched.real metadata hlog
        exact ⟨fill, mem_view_append.mpr (Or.inl hfill), hsame⟩
      · obtain ⟨fill, hfill, hsame⟩ := hup.real metadata hblock
        exact ⟨fill, mem_view_append.mpr (Or.inr hfill), hsame⟩
  · intro x hx hsubject hopen
    obtain rfl := hset x hx (Option.some.inj hsubject)
    by_cases hstop : order.orderKind = .stop
    · exact hup.ancestry hstop fun hstatus => hopen ⟨by rw [hkind, hstop], hstatus⟩
    · have hframed := h.ancestry_frame hup.replay hframe hup.member (fun hboth => hstop hboth.1)
        hup.continues (fun hne => absurd hup.accepted hne) []
      rwa [List.append_nil] at hframed
  · intro x hx
    rw [childrenOf_setOrder]
    · rcases mem_setOrder hx with rfl | ⟨hold, -⟩
      · rw [hid]
        exact h.children order hup.member
      · exact h.children x hold
    · intro y hy hyid
      rw [honly y hy hyid, hparent]
  · obtain ⟨more, hmore, hsubject, htrade⟩ := hup.fills
    exact ⟨more, hmore, fun fill hfill => by rw [hsubject fill hfill], htrade⟩
  · intro fill hfill
    refine ⟨order', ?_, hup.filled fill hfill⟩
    rw [← hid] at hfound
    exact (findPaperOrder_some (find_setOrder_self hfound)).1
  · refine (activeOrders_setOrder ?_).trans h.active
    intro x hx hxid
    rw [honly x hx hxid]
    exact hactive
  · intro x hx
    obtain ⟨hmem, hxactive⟩ := List.mem_filter.mp hx
    rcases mem_setOrder hmem with rfl | ⟨hold, hne⟩
    · exact hup.funded hxactive
    · have hxmem : x ∈ activeOrders a.orders := List.mem_filter.mpr ⟨hold, hxactive⟩
      rw [h.only_active hup.member hactive, List.mem_singleton] at hxmem
      exact absurd (by rw [hxmem, hid]) hne

end AutoBit.Broker
