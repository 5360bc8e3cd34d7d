import AutoBit.Broker.Operations
import AutoBit.Broker.Stops

/-!
# Coherent accounts

An `Account` is what a log amounts to, and `Coherent` says that every piece of evidence in
the log is consistent with it. A coherent account may still owe something: the child of a
partial exit, the end of the stops of a closed position, the end of the stop that
triggered. Once it owes nothing, the verifier accepts the log.
-/

namespace AutoBit.Broker

open Library Store

/-- What a log amounts to. -/
structure Account where
  projection : Projection
  orders : List PaperOrder
  stops : StopScan
  scan : FillScan
  trade : TradeScan
  source : Option PaperId
  positions : List (Stamped PositionObservation)

/-- A stored order and a paper order that agree. -/
structure Agrees (stored : StoredOrder) (order : PaperOrder) : Prop where
  orderId : stored.orderId = order.orderId
  idempotencyKey : stored.idempotencyKey = .order order.idempotencyKey
  side : stored.side = order.side
  status : stored.status = order.status
  requestedQuantity : stored.requestedQuantity = order.requestedQuantity
  filledQuantity : stored.filledQuantity = order.filledQuantity

/-- The exit orders of the stops that have triggered. -/
def triggeredOrders (stops : StopScan) : List PaperId :=
  (stops.terminals.filter (·.body.action = .triggered)).map (·.body.identity)

/-- The round trip under way holds the BTC of the account. -/
structure Held (trade : TradeScan) (btc : ℚ) : Prop where
  position : trade.position = btc
  balanced : (trade.entries.map (·.quantity)).sum - (trade.exits.map (·.quantity)).sum = btc
  entered : btc ≠ 0 → trade.entries ≠ []

/-- Whether an event of the broker is named after what it is evidence of. -/
def Named (e : StoredEvent) : Prop :=
  match e.payload with
  | .paperOrder metadata => e.eventId = .orderMeta metadata.orderId
  | .paperFill metadata => e.eventId = .fillMeta metadata.fillId
  | .paperEntryContext binding => e.eventId = .entryContext binding.orderId
  | .paperExecution execution => e.eventId = .execution execution.orderId
  | _ => malformed e = false

/-- Every fill has metadata, and all metadata has a fill. -/
structure Matched (log : List StoredEvent) : Prop where
  described : ∀ fill ∈ view readFill log, (fillMetadataOf log fill.eventId).isSome = true
  real : ∀ metadata ∈ view readFillMetadata log, ∃ fill ∈ view readFill log,
    fill.eventId = metadata.body.fillId

/-- What the account must own for an active order. -/
def Funded (btc : ℚ) (order : PaperOrder) : Prop :=
  match order.side with
  | .buy => btc = 0
  | .sell => order.remainderQuantity ≤ btc

/-- The log is consistent with the account, apart from what the account still owes. -/
structure Coherent (log : List StoredEvent) (a : Account) : Prop where
  replay : rebuildFromEvents log = .ok a.projection
  ids : (log.map (·.eventId)).Nodup
  named : ∀ e ∈ log, Named e
  stops : scanStops log = .ok a.stops
  orders : List.Forall₂ (fun m o => orderFromMetadata log m = .ok o)
    (view readOrderMetadata log) a.orders
  contexts : ∀ event ∈ view readContext log, validateContextEvent log a.orders event = .ok ()
  executions : ∀ event ∈ view readExecution log,
    validateExecutionEvent log a.orders event = .ok ()
  executed : ∀ order ∈ a.orders, order.executionContext.isSome = true →
    order.status ≠ .accepted → executionOf log order.orderId ≠ none
  matched : Matched log
  ancestry : ∀ order ∈ a.orders, ¬(order.orderKind = .stop ∧ order.status = .accepted) →
    validateAncestry log a.orders a.stops.known order = .ok ()
  children : ∀ order ∈ a.orders, (childrenOf a.orders order.orderId).length ≤ 1
  scan : (view readFill log).foldlM (scanFill log a.orders) {} = .ok a.scan
  trade : a.scan.fills.foldlM scanTrade {} = .ok a.trade
  held : Held a.trade a.projection.btcQuantity
  source : ((view readFill log).map (·.body)).foldlM sourceStep (0, none) =
    .ok (a.projection.btcQuantity, a.source)
  stopSources : ∀ stop ∈ a.stops.known,
    validateStopSource log a.orders a.scan.fills stop = .ok ()
  terminals : ∀ terminal ∈ a.stops.terminals,
    validateTerminal log a.orders a.stops terminal = .ok ()
  triggers : ∀ id ∈ triggeredOrders a.stops, ∃ order ∈ a.orders, order.orderKind = .stop ∧
    order.orderId = id
  positions : validatedPositionObservations log a.orders a.scan.fills = .ok a.positions
  filled : ∀ fill ∈ view readFill log, ∃ order ∈ a.orders, order.orderId = fill.body.orderId ∧
    order.side = fill.body.side ∧ 0 < order.filledQuantity
  stored : List.Forall₂ Agrees a.projection.orders a.orders
  active : (activeOrders a.orders).length ≤ 1
  funded : ∀ order ∈ activeOrders a.orders, Funded a.projection.btcQuantity order
  openSource : ∀ stop ∈ a.stops.open_, ∀ id ∈ a.source, stop.sourceId = id

/-- The account owes nothing. -/
structure Settled (a : Account) : Prop where
  children : ∀ order ∈ a.orders, order.side = .sell → order.status = .canceled →
    0 < order.filledQuantity → 0 < order.remainderQuantity → childrenOf a.orders order.orderId ≠ []
  stops : a.stops.open_ ≠ [] → 0 < a.projection.btcQuantity
  triggers : ∀ order ∈ a.orders, order.orderKind = .stop → order.orderId ∈ triggeredOrders a.stops

/-- The ledger that the verifier returns for an account. -/
def Account.ledger (a : Account) (log : List StoredEvent) : Ledger where
  snapshot := snapshotFromComponents a.projection log
  orders := a.orders
  activeOrders := activeOrders a.orders
  fills := a.scan.fills
  trades := a.trade.trades
  activeStop := a.stops.active
  openStops := a.stops.open_
  totalFees := a.scan.totalFees
  totalSlippage := a.scan.totalSlippage
  positionObservations := a.positions

/-! ## Looking orders up -/

/-- An order that is found is one of the orders and has the identity looked for. -/
theorem findPaperOrder_some {orders : List PaperOrder} {id : PaperId} {order : PaperOrder}
    (h : findPaperOrder orders id = some order) : order ∈ orders ∧ order.orderId = id :=
  ⟨List.mem_of_find?_eq_some h, by simpa using List.find?_some h⟩

/-- Every one of the orders is found under its identity. -/
theorem findPaperOrder_isSome {orders : List PaperOrder} {order : PaperOrder}
    (h : order ∈ orders) : ∃ found, findPaperOrder orders order.orderId = some found := by
  cases hfound : findPaperOrder orders order.orderId with
  | none =>
    have hnone := List.find?_eq_none.mp hfound order h
    simp at hnone
  | some found => exact ⟨found, rfl⟩

/-- With distinct identities, an order is found under its own. -/
theorem findPaperOrder_of_mem {orders : List PaperOrder} (hnodup : (orders.map (·.orderId)).Nodup)
    {order : PaperOrder} (h : order ∈ orders) :
    findPaperOrder orders order.orderId = some order := by
  obtain ⟨found, hfound⟩ := findPaperOrder_isSome h
  obtain ⟨hmem, hid⟩ := findPaperOrder_some hfound
  rw [hfound, List.inj_on_of_nodup_map hnodup hmem h hid]

/-- What it takes for the log to name an order. -/
theorem orderFromMetadata_eq_ok {log : List StoredEvent} {m : Stamped OrderMetadata}
    {order : PaperOrder} : orderFromMetadata log m = .ok order ↔
      ∃ creation context key submitted accepted rest filled status,
        creationOf log m.body.orderId = some creation ∧
        (contextOf log m.body.orderId).mapM (entryContext ·.body.context) = .ok context ∧
        validateMetadata m = .ok key ∧ validateCreation m creation = .ok () ∧
        transitionsOf log m.body.orderId = submitted :: accepted :: rest ∧
        validateAcceptance key m creation submitted accepted = .ok () ∧
        orderOutcome key m context.isSome (fillsOf log m.body.orderId) (fillMetadataOf log) rest =
          .ok (filled, status) ∧
        order = paperOrder m.body key filled status context := by
  simp only [orderFromMetadata, paperOrderFromEvidence, Except.bind_eq_ok, require_eq_ok]
  constructor
  · rintro ⟨creation, hcreation, context, hcontext, key, hkey, u, hvalid, h⟩
    split at h
    · rename_i submitted accepted rest htransitions
      simp only [Except.bind_eq_ok, Except.pure_eq_ok] at h
      obtain ⟨v, haccepted, ⟨filled, status⟩, houtcome, rfl⟩ := h
      exact ⟨creation, context, key, submitted, accepted, rest, filled, status, hcreation,
        hcontext, hkey, hvalid, htransitions, haccepted, houtcome, rfl⟩
    · cases h
  · rintro ⟨creation, context, key, submitted, accepted, rest, filled, status, hcreation,
      hcontext, hkey, hvalid, htransitions, haccepted, houtcome, rfl⟩
    refine ⟨creation, hcreation, context, hcontext, key, hkey, ⟨⟩, hvalid, ?_⟩
    rw [htransitions]
    simp only [Except.bind_eq_ok, Except.pure_eq_ok]
    exact ⟨⟨⟩, haccepted, (filled, status), houtcome, rfl⟩

/-- The order that is rebuilt from metadata has their identity. -/
theorem orderFromMetadata_orderId {log : List StoredEvent} {m : Stamped OrderMetadata}
    {order : PaperOrder} (h : orderFromMetadata log m = .ok order) :
    order.orderId = m.body.orderId := by
  obtain ⟨_, _, _, _, _, _, _, _, _, _, _, _, _, _, _, rfl⟩ := orderFromMetadata_eq_ok.mp h
  rfl

/-- The orders that are rebuilt from metadata have their identities in the same order. -/
theorem orderIds_of_metadata {log : List StoredEvent} {metas : List (Stamped OrderMetadata)}
    {orders : List PaperOrder}
    (h : List.Forall₂ (fun m o => orderFromMetadata log m = .ok o) metas orders) :
    orders.map (·.orderId) = metas.map (·.body.orderId) := by
  induction h with
  | nil => rfl
  | cons hhead _ ih => rw [List.map_cons, List.map_cons, ih, orderFromMetadata_orderId hhead]

/-- The evidence scan accepts exactly the logs without malformed events whose views name each record
once and after the record that it is about. -/
theorem scanEvidence_eq_ok {log : List StoredEvent} {u : Unit} : scanEvidence log = .ok u ↔
    (∀ e ∈ log, malformed e = false) ∧ ((view readCreated log).map (·.body.orderId)).Nodup ∧
    (∀ t ∈ view readTransition log, ∃ c ∈ view readCreated log,
      c.body.orderId = t.body.orderId ∧ c.sequence < t.sequence) ∧
    ((view readFill log).map (·.eventId)).Nodup ∧
    ((view readOrderMetadata log).map (·.body.orderId)).Nodup ∧
    ((view readFillMetadata log).map (·.body.fillId)).Nodup ∧
    ((view readContext log).map (·.body.orderId)).Nodup ∧
    ((view readExecution log).map (·.body.orderId)).Nodup := by
  simp only [scanEvidence, Except.bind_eq_ok, reject_eq_ok, not_not]
  constructor
  · rintro ⟨_, hform, _, hcreated, _, hstatus, _, hfill, _, hmetadata, _, hfillMeta, _, hcontext,
      hexecution⟩
    refine ⟨by simpa using hform, hcreated, ?_, hfill, hmetadata, hfillMeta, hcontext, hexecution⟩
    intro t ht
    by_contra hmissing
    exact hstatus ⟨t, ht, hmissing⟩
  · rintro ⟨hform, hcreated, hstatus, hfill, hmetadata, hfillMeta, hcontext, hexecution⟩
    refine ⟨⟨⟩, by simpa using hform, ⟨⟩, hcreated, ⟨⟩, ?_, ⟨⟩, hfill, ⟨⟩, hmetadata, ⟨⟩,
      hfillMeta, ⟨⟩, hcontext, hexecution⟩
    rintro ⟨t, ht, hmissing⟩
    exact hmissing (hstatus t ht)

/-- Evidence of one type under its names. -/
theorem view_named {α : Type} (read : Payload → Option α) (name : α → EventId)
    {log : List StoredEvent} (hnamed : ∀ e ∈ log, Named e)
    (hname : ∀ e a, Named e → read e.payload = some a → e.eventId = name a) :
    ∀ x ∈ view read log, x.eventId = name x.body := by
  intro x hx
  obtain ⟨e, he, hread, -, hid, -⟩ := mem_view.mp hx
  rw [← hid]
  exact hname e x.body (hnamed e he) hread

/-- In a log of named events every order metadata has the identifier of its order. -/
theorem metadata_named {log : List StoredEvent} (hnamed : ∀ e ∈ log, Named e) :
    ∀ x ∈ view readOrderMetadata log, x.eventId = .orderMeta x.body.orderId := by
  refine view_named readOrderMetadata (fun m => .orderMeta m.orderId) hnamed ?_
  intro e a h hread
  cases hp : e.payload <;> simp_all [readOrderMetadata, Named]

/-- In a log of named events every fill metadata has the identifier of its fill. -/
theorem fillMetadata_named {log : List StoredEvent} (hnamed : ∀ e ∈ log, Named e) :
    ∀ x ∈ view readFillMetadata log, x.eventId = .fillMeta x.body.fillId := by
  refine view_named readFillMetadata (fun m => .fillMeta m.fillId) hnamed ?_
  intro e a h hread
  cases hp : e.payload <;> simp_all [readFillMetadata, Named]

/-- In a log of named events every entry context has the identifier of its order. -/
theorem context_named {log : List StoredEvent} (hnamed : ∀ e ∈ log, Named e) :
    ∀ x ∈ view readContext log, x.eventId = .entryContext x.body.orderId := by
  refine view_named readContext (fun b => .entryContext b.orderId) hnamed ?_
  intro e a h hread
  cases hp : e.payload <;> simp_all [readContext, Named]

/-- In a log of named events every execution has the identifier of its order. -/
theorem execution_named {log : List StoredEvent} (hnamed : ∀ e ∈ log, Named e) :
    ∀ x ∈ view readExecution log, x.eventId = .execution x.body.orderId := by
  refine view_named readExecution (fun x => .execution x.orderId) hnamed ?_
  intro e a h hread
  cases hp : e.payload <;> simp_all [readExecution, Named]

/-- A named event is not malformed. -/
theorem not_malformed {e : StoredEvent} (h : Named e) : malformed e = false := by
  cases hp : e.payload <;> simp_all [malformed, Named]

section

variable {log : List StoredEvent} {a : Account} (h : Coherent log a)
include h

/-- No evidence of a coherent account is repeated. -/
theorem Coherent.evidence : scanEvidence log = .ok () := by
  rw [scanEvidence_eq_ok]
  refine ⟨fun e he => not_malformed (h.named e he), ?_, fun t ht => transition_created h.replay ht,
    view_ids_nodup readFill h.ids,
    nodup_of_ids OrderMetadata.orderId EventId.orderMeta h.ids (metadata_named h.named),
    nodup_of_ids FillMetadata.fillId EventId.fillMeta h.ids (fillMetadata_named h.named),
    nodup_of_ids ContextBinding.orderId EventId.entryContext h.ids (context_named h.named),
    nodup_of_ids Execution.orderId EventId.execution h.ids (execution_named h.named)⟩
  rw [created_orderIds h.replay]
  exact orders_nodup h.replay

/-- A coherent log has one metadata for each order. -/
theorem Coherent.metadata_nodup : ((view readOrderMetadata log).map (·.body.orderId)).Nodup :=
  nodup_of_ids OrderMetadata.orderId EventId.orderMeta h.ids (metadata_named h.named)

/-- A coherent account has one order for each identity. -/
theorem Coherent.nodup : (a.orders.map (·.orderId)).Nodup := by
  rw [orderIds_of_metadata h.orders]
  exact h.metadata_nodup

/-- An order of a coherent account comes from the metadata under its identity. -/
theorem Coherent.metadata {order : PaperOrder} (horder : order ∈ a.orders) :
    ∃ m ∈ view readOrderMetadata log, orderFromMetadata log m = .ok order ∧
      orderMetadataOf log order.orderId = some m := by
  obtain ⟨m, hm, hok⟩ : ∃ m ∈ view readOrderMetadata log, orderFromMetadata log m = .ok order := by
    exact forall₂_exists_left h.orders horder
  refine ⟨m, hm, hok, ?_⟩
  cases hfound : orderMetadataOf log order.orderId with
  | none =>
    have hnone := List.find?_eq_none.mp hfound m hm
    simp [orderFromMetadata_orderId hok] at hnone
  | some found =>
    have hid : found.body.orderId = order.orderId := by simpa using List.find?_some hfound
    have hsame : found.body.orderId = m.body.orderId := by rw [hid, orderFromMetadata_orderId hok]
    rw [List.inj_on_of_nodup_map h.metadata_nodup (List.mem_of_find?_eq_some hfound) hm hsame]

end

/-- What it takes for a stop to have ended. -/
theorem validateTerminal_eq_ok {log : List StoredEvent} {orders : List PaperOrder} {scan : StopScan}
    {event : Stamped StopTerminal} {u : Unit} : validateTerminal log orders scan event = .ok u ↔
      ∃ related metadata fill, findPaperOrder orders event.body.identity = some related ∧
        orderMetadataOf log event.body.identity = some metadata ∧ related.side = .sell ∧
        related.status = .completed ∧ onlyFill (fillsOf log event.body.identity) = some fill ∧
        (∃ fillMeta ∈ fillMetadataOf log fill.eventId, metadata.sequence < fill.sequence ∧
          fill.sequence < fillMeta.sequence ∧ fillMeta.sequence < event.sequence) ∧
        event.occurredAtUtc = fill.occurredAtUtc ∧
        inventoryBeforeSequence event.sequence log = .ok 0 ∧
        validateTerminalAncestry scan event related fill = .ok () := by
  simp only [validateTerminal, Except.bind_eq_ok, require_eq_ok, reject_eq_ok, not_not]
  constructor
  · rintro ⟨related, hrelated, metadata, hmetadata, _, hside, _, hstatus, fill, hfill, _, hcausal,
      _, htime, left, hleft, _, rfl, hancestry⟩
    exact ⟨related, metadata, fill, hrelated, hmetadata, hside, hstatus, hfill, hcausal, htime,
      hleft, hancestry⟩
  · rintro ⟨related, metadata, fill, hrelated, hmetadata, hside, hstatus, hfill, hcausal, htime,
      hleft, hancestry⟩
    exact ⟨related, hrelated, metadata, hmetadata, ⟨⟩, hside, ⟨⟩, hstatus, fill, hfill, ⟨⟩,
      hcausal, ⟨⟩, htime, 0, hleft, ⟨⟩, rfl, hancestry⟩

/-- An order whose stop has triggered is no longer open. -/
theorem Coherent.not_accepted_of_triggered {log : List StoredEvent} {a : Account}
    (h : Coherent log a) {order : PaperOrder} (htriggered : order.orderId ∈ triggeredOrders a.stops)
    (horder : order ∈ a.orders) : order.status ≠ .accepted := by
  obtain ⟨terminal, hmem, hid⟩ := List.mem_map.mp htriggered
  have hterminal := h.terminals terminal (List.mem_filter.mp hmem).1
  obtain ⟨related, -, -, hrelated, -, -, hstatus, -⟩ := validateTerminal_eq_ok.mp hterminal
  rw [hid, findPaperOrder_of_mem h.nodup horder, Option.some.injEq] at hrelated
  rw [hrelated, hstatus]
  decide

/-! ## The projection of active orders -/

section

variable {stored : List StoredOrder} {orders : List PaperOrder}

/-- Of stored and rebuilt orders that agree, the active ones agree. -/
theorem pending_of_agrees (h : List.Forall₂ Agrees stored orders) :
    List.Forall₂ Agrees (stored.filter (·.status.isActive)) (activeOrders orders) := by
  induction h with
  | nil => exact List.Forall₂.nil
  | cons hhead _ ih =>
    unfold activeOrders
    rw [List.filter_cons, List.filter_cons, hhead.status]
    split
    · exact List.Forall₂.cons hhead ih
    · exact ih

end

/-- The pending orders of the projection are the active ones of the account. -/
theorem Coherent.pending {log : List StoredEvent} {a : Account} (h : Coherent log a) :
    List.Forall₂ Agrees a.projection.pendingOrders (activeOrders a.orders) :=
  pending_of_agrees h.stored

/-- A coherent log has the envelopes of its projection. -/
theorem Coherent.envelopes {log : List StoredEvent} {a : Account} (h : Coherent log a) :
    Envelopes log a.projection :=
  envelopes_of_rebuild h.replay

/-! ## Acceptance -/

/-- One round over the fills moves the balances. -/
theorem scanFill_account {log : List StoredEvent} {orders : List PaperOrder} {scan scan' : FillScan}
    {raw : Stamped RawFill} (h : scanFill log orders scan raw = .ok scan') :
    scan'.account = applyFill scan.account raw.body := by
  simp only [scanFill, Except.bind_eq_ok, Except.pure_eq_ok] at h
  obtain ⟨_, -, _, -, _, -, rfl⟩ := h
  rfl

/-- The scan of the fills computes the account that the fills amount to. -/
theorem scanFills_account {log : List StoredEvent} {orders : List PaperOrder}
    {raws : List (Stamped RawFill)} {scan scan' : FillScan}
    (h : raws.foldlM (scanFill log orders) scan = .ok scan') :
    scan'.account = (raws.map (·.body)).foldl applyFill scan.account := by
  induction raws generalizing scan with
  | nil =>
    cases h
    rfl
  | cons raw raws ih =>
    rw [List.foldlM_cons, Except.bind_eq_ok] at h
    obtain ⟨mid, hraw, hraws⟩ := h
    rw [ih hraws, scanFill_account hraw]
    rfl

/-- The balances of the verifier are those of the replay. -/
theorem Coherent.account {log : List StoredEvent} {a : Account} (h : Coherent log a) :
    a.scan.account = (a.projection.cash, a.projection.btcQuantity) := by
  rw [scanFills_account h.scan, ← balance_eq h.replay]
  rfl

/-- The first active order, if any, is the only one. -/
theorem activeOrders_cases {orders : List PaperOrder} (h : (activeOrders orders).length ≤ 1) :
    activeOrders orders = [] ∨ ∃ order, activeOrders orders = [order] := by
  match hactive : activeOrders orders with
  | [] => exact Or.inl rfl
  | [order] => exact Or.inr ⟨order, rfl⟩
  | _ :: _ :: _ => simp [hactive] at h

section

variable {log : List StoredEvent} {a : Account} (h : Coherent log a) (hsettled : Settled a)
include h

/-- A coherent account that protects nothing it does not hold passes the check of its projection. -/
theorem Coherent.projection_eq_ok (hstops : a.stops.open_ ≠ [] → 0 < a.projection.btcQuantity) :
    validateProjection (snapshotFromComponents a.projection log) a.orders a.scan.account
      a.stops.active = .ok () := by
  have hpending := h.pending
  have hbtc := h.envelopes.btc
  simp only [validateProjection, Except.bind_eq_ok, reject_eq_ok, h.account]
  refine ⟨⟨⟩, by simp [snapshotFromComponents], ⟨⟩, by simp [snapshotFromComponents], ⟨⟩, ?_, ⟨⟩,
    not_lt.mpr h.active, ⟨⟩, ?_, ⟨⟩, ?_, ?_⟩
  · rw [not_not]
    constructor
    · intro p hp
      obtain ⟨hp, -⟩ := List.mem_filter.mp hp
      obtain ⟨o, ho, hagrees⟩ := forall₂_exists_right hpending hp
      exact ⟨o, ho, hagrees.orderId.symm⟩
    · intro o ho
      obtain ⟨p, hp, hagrees⟩ := forall₂_exists_left hpending ho
      have hfound := findPaperOrder_isSome (List.mem_filter.mp ho).1
      refine ⟨p, List.mem_filter.mpr ⟨hp, ?_⟩, hagrees.orderId, hagrees.idempotencyKey,
        hagrees.side, hagrees.status, hagrees.requestedQuantity, hagrees.filledQuantity⟩
      rw [hagrees.orderId]
      exact Option.isSome_iff_exists.mpr hfound
  · rw [not_lt]
    rcases activeOrders_cases h.active with hnil | ⟨order, hone⟩
    · simpa [hnil] using hbtc
    · have hfunded := h.funded order (by simp [hone])
      cases hside : order.side with
      | buy => simpa [hone, hside] using hbtc
      | sell => simpa [hone, hside, Funded] using hfunded
  · rintro ⟨⟨order, horder, hside⟩, hpos⟩
    have hfunded := h.funded order horder
    simp only [Funded, hside] at hfunded
    simp [hfunded] at hpos
  · rintro ⟨hactive, hflat⟩
    have hopen : a.stops.open_ ≠ [] := by
      intro hnil
      simp [StopScan.active, hnil] at hactive
    exact absurd (hstops hopen) (not_lt.mpr hflat)

/-- A coherent account passes the check of its position. -/
theorem Coherent.positionState_eq_ok :
    validatePositionState log (snapshotFromComponents a.projection log) a.orders
      a.scan.account.2 = .ok () := by
  have hpending := h.pending
  simp only [validatePositionState, reject_eq_ok, h.account]
  rintro ⟨-, hhalted, hderived⟩
  apply hderived
  simp only [snapshotFromComponents, positionState] at hhalted ⊢
  rcases activeOrders_cases h.active with hnil | ⟨order, hone⟩
  · rw [hnil, List.forall₂_nil_right_iff] at hpending
    simp only [hpending] at hhalted ⊢
    split at hhalted
    · exact absurd rfl hhalted
    · rename_i hbreaker
      simp [hnil, hbreaker]
  · rw [hone] at hpending
    obtain ⟨stored, rest, hagrees, hrest, heq⟩ := List.forall₂_cons_right_iff.mp hpending
    rw [List.forall₂_nil_right_iff] at hrest
    subst hrest
    simp only [heq] at hhalted ⊢
    split at hhalted
    · exact absurd rfl hhalted
    · rename_i hbreaker
      have hfunded := h.funded order (by simp [hone])
      cases hside : order.side <;> simp_all [Funded, hagrees.side]

include hsettled

/-- The verifier accepts the log of an account that owes nothing. -/
theorem Coherent.buildLedger_eq {db : Database} (hlog : db.events = log) (hverified : Verified db) :
    buildLedger db = .ok (a.ledger log) := by
  obtain ⟨s, hs, hprojection⟩ := hverified.rebuild
  have hsame : s = a.projection := by
    rw [hlog, h.replay] at hs
    exact (Except.ok.inj hs).symm
  have hreplay : replayState db = .ok (snapshotFromComponents a.projection log) := by
    rw [replayAndVerify_eq_ok]
    exact ⟨a.projection, by rw [hlog, h.replay], by rw [hprojection, hsame], by rw [hlog]⟩
  have hchildren : validateChildren a.orders = .ok () := by
    simp only [validateChildren, Except.bind_eq_ok, reject_eq_ok]
    refine ⟨⟨⟩, ?_, ?_⟩
    · rintro ⟨order, horder, hmany⟩
      exact absurd (h.children order horder) (not_le.mpr hmany)
    · rintro ⟨order, horder, hside, hstatus, hfilled, hremaining, hnone⟩
      exact hsettled.children order horder hside hstatus hfilled hremaining hnone
  have hexecutions : validateExecutions log a.orders = .ok () := by
    simp only [validateExecutions, Except.bind_eq_ok, reject_eq_ok, Except.forM_eq_ok]
    refine ⟨⟨⟩, h.executions, ?_⟩
    rintro ⟨order, horder, hbound, hstatus, hnone⟩
    exact h.executed order horder hbound hstatus hnone
  have htrades : completedTrades a.scan.fills = .ok a.trade.trades := by
    simp only [completedTrades, Except.bind_eq_ok, Except.pure_eq_ok]
    exact ⟨a.trade, h.trade, rfl⟩
  have hancestry : ∀ order ∈ a.orders,
      validateAncestry log a.orders a.stops.known order = .ok () := by
    intro order horder
    refine h.ancestry order horder ?_
    rintro ⟨hkind, haccepted⟩
    exact h.not_accepted_of_triggered (hsettled.triggers order horder hkind) horder haccepted
  have hmatched : validateFillMetadata log a.orders = .ok () := by
    simp only [validateFillMetadata, reject_eq_ok, not_not]
    constructor
    · intro metadata hmetadata
      obtain ⟨fill, hfill, hid⟩ := h.matched.real metadata hmetadata
      obtain ⟨order, horder, horderId, -⟩ := h.filled fill hfill
      rw [← hid]
      exact List.mem_flatMap.mpr ⟨order, horder, List.mem_map_of_mem
        (List.mem_filter.mpr ⟨hfill, by simpa using horderId.symm⟩)⟩
    · intro id hid
      obtain ⟨order, -, hmem⟩ := List.mem_flatMap.mp hid
      obtain ⟨fill, hfill, rfl⟩ := List.mem_map.mp hmem
      exact h.matched.described fill (List.mem_filter.mp hfill).1
  have htriggers : validateTriggers a.orders a.stops = .ok () := by
    simp only [validateTriggers, reject_eq_ok, not_not]
    constructor
    · intro id hid
      obtain ⟨order, horder, hkind, rfl⟩ := h.triggers id hid
      exact List.mem_map_of_mem (List.mem_filter.mpr ⟨horder, by simpa using hkind⟩)
    · intro id hid
      obtain ⟨order, horder, rfl⟩ := List.mem_map.mp hid
      obtain ⟨horder, hkind⟩ := List.mem_filter.mp horder
      exact hsettled.triggers order horder (by simpa using hkind)
  simp only [buildLedger, Except.bind_eq_ok, Except.pure_eq_ok]
  exact ⟨_, hreplay, ⟨⟩, h.evidence, _, h.stops, _, mapM_eq_ok.mpr h.orders, ⟨⟩,
    Except.forM_eq_ok.mpr h.contexts, ⟨⟩, hexecutions, ⟨⟩, hmatched, ⟨⟩,
    Except.forM_eq_ok.mpr hancestry, ⟨⟩, hchildren, _, h.scan, ⟨⟩,
    h.projection_eq_ok hsettled.stops, _, htrades, ⟨⟩, h.positionState_eq_ok, ⟨⟩,
    Except.forM_eq_ok.mpr h.stopSources, ⟨⟩, Except.forM_eq_ok.mpr h.terminals, ⟨⟩, htriggers, _,
    h.positions, rfl⟩

end

end AutoBit.Broker
