import AutoBit.Library.Loop
import AutoBit.Store.Operations

/-!
# Verified logs

What the replay of a log guarantees about the log: its sequence numbers count from one,
its times do not decrease, each of its prefixes replays too, and no balance is negative.
-/

namespace AutoBit.Store

open Library

/-- The replay of a longer log continues the replay of its beginning. -/
theorem rebuild_append {xs ys : List StoredEvent} {s' : Projection} :
    rebuildFromEvents (xs ++ ys) = .ok s' ↔
      ∃ s, rebuildFromEvents xs = .ok s ∧ ys.foldlM replayEvent s = .ok s' :=
  foldlM_append_eq_ok

/-- A log with one more event replays to what the event makes of the projection before. -/
theorem rebuild_snoc {xs : List StoredEvent} {e : StoredEvent} {s' : Projection} :
    rebuildFromEvents (xs ++ [e]) = .ok s' ↔
      ∃ s, rebuildFromEvents xs = .ok s ∧ replayEvent s e = .ok s' :=
  foldlM_snoc_eq_ok

/-- One round checks the envelope of its event and then applies the payload. -/
theorem replayEvent_eq_ok {s s' : Projection} {e : StoredEvent} :
    replayEvent s e = .ok s' ↔ e.sequence = s.lastSequence + 1 ∧
      (∀ previous ∈ s.previousTimestamp, previous ≤ e.occurredAtUtc) ∧
      e.payload.knownState = true ∧ ∃ t, replayPayload s e = .ok t ∧
        s' = { t with previousTimestamp := some e.occurredAtUtc, lastSequence := e.sequence } := by
  simp only [replayEvent, Except.bind_eq_ok, reject_eq_ok, Except.pure_eq_ok, not_not, not_exists,
    not_and, not_lt, Bool.not_eq_false]
  constructor
  · rintro ⟨_, hsequence, _, htime, _, hknown, t, ht, rfl⟩
    exact ⟨hsequence, htime, hknown, t, ht, rfl⟩
  · rintro ⟨hsequence, htime, hknown, t, ht, rfl⟩
    exact ⟨⟨⟩, hsequence, ⟨⟩, htime, ⟨⟩, hknown, t, ht, rfl⟩

/-- An accepted database replays, and its projection holds the replayed orders. -/
theorem replayAndVerify_eq_ok {db : Database} {snapshot : PaperSnapshot} :
    replayAndVerify db = .ok snapshot ↔ ∃ s, rebuildFromEvents db.events = .ok s ∧
      db.orders = s.orders ∧ snapshot = snapshotFromComponents s db.events := by
  simp only [replayAndVerify, Except.bind_eq_ok, reject_eq_ok, Except.pure_eq_ok, not_not]
  constructor
  · rintro ⟨s, hs, _, horders, rfl⟩
    exact ⟨s, hs, horders, rfl⟩
  · rintro ⟨s, hs, horders, rfl⟩
    exact ⟨s, hs, ⟨⟩, horders, rfl⟩

/-- A verified database replays to its orders. -/
theorem Verified.rebuild {db : Database} (h : Verified db) :
    ∃ s, rebuildFromEvents db.events = .ok s ∧ db.orders = s.orders := by
  obtain ⟨snapshot, hsnapshot⟩ := h
  obtain ⟨s, hs, horders, -⟩ := replayAndVerify_eq_ok.mp hsnapshot
  exact ⟨s, hs, horders⟩

/-- Two verified databases with the same log are the same. -/
theorem Verified.ext {db db' : Database} (h : Verified db) (h' : Verified db')
    (hevents : db.events = db'.events) : db = db' := by
  obtain ⟨s, hs, horders⟩ := h.rebuild
  obtain ⟨s', hs', horders'⟩ := h'.rebuild
  rw [hevents, hs'] at hs
  cases hs
  cases db
  cases db'
  simp_all

/-! ## The effect of one event on the orders -/

/-- An update keeps the identities of the orders. -/
@[simp] theorem replaceOrder_ids (orders : List StoredOrder) (order : StoredOrder) :
    (replaceOrder orders order).map (·.orderId) = orders.map (·.orderId) := by
  unfold replaceOrder
  rw [List.map_map]
  apply List.map_congr_left
  intro existing _
  by_cases hid : existing.orderId = order.orderId <;> simp [hid]

/-- A replaced order is replaced again. -/
theorem replaceOrder_replaceOrder (orders : List StoredOrder) {row row' : StoredOrder}
    (hid : row.orderId = row'.orderId) :
    replaceOrder (replaceOrder orders row) row' = replaceOrder orders row' := by
  unfold replaceOrder
  rw [List.map_map]
  apply List.map_congr_left
  intro existing _
  by_cases hexisting : existing.orderId = row'.orderId
  · simp [hid, hexisting]
  · simp [hid, hexisting]

/-- A replaced order is the one that is found. -/
theorem findOrder_replaceOrder {orders : List StoredOrder} {row old : StoredOrder}
    (hfound : findOrder orders row.orderId = some old) :
    findOrder (replaceOrder orders row) row.orderId = some row := by
  induction orders with
  | nil => cases hfound
  | cons x orders ih =>
    simp only [findOrder, replaceOrder, List.map_cons] at hfound ih ⊢
    by_cases hid : x.orderId = row.orderId
    · rw [if_pos hid, List.find?_cons_of_pos (by simp)]
    · rw [if_neg hid, List.find?_cons_of_neg (by simpa using hid)]
      rw [List.find?_cons_of_neg (by simpa using hid)] at hfound
      exact ih hfound

/-- An order that is found is one of the orders and has the identity looked for. -/
theorem findOrder_some {orders : List StoredOrder} {id : PaperId} {order : StoredOrder}
    (h : findOrder orders id = some order) : order ∈ orders ∧ order.orderId = id :=
  ⟨List.mem_of_find?_eq_some h, by simpa using List.find?_some h⟩

/-- An order creation adds its order, whose identity and key are new. -/
theorem replayOrderCreated_eq_ok {s t : Projection} {e : StoredEvent} {order : OrderCreated}
    (h : replayOrderCreated s e order = .ok t) :
    (∀ existing ∈ s.orders, existing.orderId ≠ order.orderId) ∧ t = { s with
      orders := s.orders ++ [⟨order.orderId, order.idempotencyKey, order.side,
        order.requestedQuantity, order.filledQuantity, order.status, e.occurredAtUtc⟩] } := by
  simp only [replayOrderCreated, Except.bind_eq_ok, reject_eq_ok, Except.pure_eq_ok] at h
  obtain ⟨_, -, _, -, _, -, _, -, _, hfresh, rfl⟩ := h
  refine ⟨?_, rfl⟩
  intro existing hmem hid
  exact hfresh ⟨existing, hmem, Or.inl hid⟩

/-- A transition changes the status of its order, which is known. -/
theorem replayOrderStatus_eq_ok {s t : Projection} {e : StoredEvent} {transition : OrderTransition}
    (h : replayOrderStatus s e transition = .ok t) : ∃ existing,
      findOrder s.orders transition.orderId = some existing ∧
      legalTransition existing.status transition.status existing.requestedQuantity
        existing.filledQuantity = true ∧
      t = { s with orders := replaceOrder s.orders { existing with
        status := transition.status
        updatedAtUtc := e.occurredAtUtc } } := by
  simp only [replayOrderStatus, Except.bind_eq_ok, reject_eq_ok] at h
  obtain ⟨_, -, h⟩ := h
  split at h
  · cases h
  · rename_i existing hfound
    simp only [Except.bind_eq_ok, reject_eq_ok, Except.pure_eq_ok, Bool.not_eq_false] at h
    obtain ⟨_, hlegal, rfl⟩ := h
    exact ⟨existing, hfound, hlegal, rfl⟩

/-- A fill is positive, and completes its order, if it has one, or leaves it partial. -/
theorem replayFill_eq_ok {s t : Projection} {e : StoredEvent} {fill : RawFill}
    (h : replayFill s e fill = .ok t) : 0 < fill.quantity ∧ 0 < fill.price ∧ 0 ≤ fill.fee ∧
      (findOrder s.orders fill.orderId = none ∧ t.orders = s.orders ∨
        ∃ existing, findOrder s.orders fill.orderId = some existing ∧ existing.side = fill.side ∧
          existing.status.isActive = true ∧
          existing.filledQuantity + fill.quantity ≤ existing.requestedQuantity ∧
          t.orders = replaceOrder s.orders { existing with
            filledQuantity := existing.filledQuantity + fill.quantity
            status := if existing.filledQuantity + fill.quantity = existing.requestedQuantity
              then .completed else .partial_
            updatedAtUtc := e.occurredAtUtc }) := by
  simp only [replayFill, Except.bind_eq_ok, reject_eq_ok, Except.pure_eq_ok] at h
  obtain ⟨_, hfee, _, hprice, _, hquantity, balanced, -, orders, horders, rfl⟩ := h
  refine ⟨not_le.mp hquantity, not_le.mp hprice, not_lt.mp hfee, ?_⟩
  unfold replayOrderFill at horders
  split at horders
  · rename_i hfound
    exact Or.inl ⟨hfound, (Except.ok.inj horders).symm⟩
  · rename_i existing hfound
    simp only [Except.bind_eq_ok, reject_eq_ok, Except.pure_eq_ok, not_not, not_lt,
      Bool.not_eq_false] at horders
    obtain ⟨_, hside, _, hactive, _, htotal, rfl⟩ := horders
    exact Or.inr ⟨existing, hfound, hside, hactive, htotal, rfl⟩

/-- Whether an event concerns the orders or the balances. -/
def Payload.isNeutral : Payload → Bool
  | .orderCreated _ | .orderStatus _ | .fill _ => false
  | _ => true

/-- Any other event leaves the orders and the balances alone. -/
theorem replayPayload_neutral {s t : Projection} {e : StoredEvent}
    (hneutral : e.payload.isNeutral = true) (h : replayPayload s e = .ok t) :
    t.orders = s.orders ∧ t.cash = s.cash ∧ t.btcQuantity = s.btcQuantity := by
  unfold replayPayload at h
  split at h <;> rename_i hpayload
  · simp [hpayload, Payload.isNeutral] at hneutral
  · simp [hpayload, Payload.isNeutral] at hneutral
  · simp [hpayload, Payload.isNeutral] at hneutral
  · cases h
    exact ⟨rfl, rfl, rfl⟩
  · cases h
    exact ⟨rfl, rfl, rfl⟩
  · simp only [Except.bind_eq_ok, Except.pure_eq_ok] at h
    obtain ⟨_, -, _, -, _, -, rfl⟩ := h
    exact ⟨rfl, rfl, rfl⟩
  · cases h
    exact ⟨rfl, rfl, rfl⟩

/-- The identities of the orders after an event. -/
theorem replayPayload_orderIds {s t : Projection} {e : StoredEvent}
    (h : replayPayload s e = .ok t) :
    t.orders.map (·.orderId) = s.orders.map (·.orderId) ++ (match e.payload with
      | .orderCreated order => [order.orderId]
      | _ => []) := by
  cases hpayload : e.payload with
  | orderCreated order =>
    simp only [replayPayload, hpayload] at h
    obtain ⟨-, rfl⟩ := replayOrderCreated_eq_ok h
    simp
  | orderStatus transition =>
    simp only [replayPayload, hpayload] at h
    obtain ⟨existing, -, -, rfl⟩ := replayOrderStatus_eq_ok h
    simp
  | fill fill =>
    simp only [replayPayload, hpayload] at h
    obtain ⟨-, -, -, ⟨-, horders⟩ | ⟨existing, -, -, -, -, horders⟩⟩ := replayFill_eq_ok h
    · simp [horders]
    · simp [horders]
  | _ =>
    obtain ⟨horders, -, -⟩ := replayPayload_neutral (by simp [hpayload, Payload.isNeutral]) h
    simp [horders]

/-- The replay refuses to create an order twice. -/
theorem orders_nodup {log : List StoredEvent} {s : Projection}
    (h : rebuildFromEvents log = .ok s) : (s.orders.map (·.orderId)).Nodup := by
  induction log using List.reverseRecOn generalizing s with
  | nil =>
    cases h
    exact List.nodup_nil
  | append_singleton log e ih =>
    obtain ⟨t, ht, he⟩ := rebuild_snoc.mp h
    obtain ⟨-, -, -, u, hu, rfl⟩ := replayEvent_eq_ok.mp he
    have hids := replayPayload_orderIds hu
    cases hpayload : e.payload with
    | orderCreated order =>
      simp only [replayPayload, hpayload] at hu
      obtain ⟨hfresh, rfl⟩ := replayOrderCreated_eq_ok hu
      simp only [List.map_append, List.nodup_append]
      refine ⟨ih ht, List.nodup_singleton _, ?_⟩
      intro id hid other hother
      obtain ⟨existing, hexisting, rfl⟩ := List.mem_map.mp hid
      have heq : other = order.orderId := by simpa using hother
      rw [heq]
      exact hfresh existing hexisting
    | _ =>
      simp only [hpayload, List.append_nil] at hids
      simpa [hids] using ih ht

section

variable {s s' : Projection} {e : StoredEvent}

/-- The creation of an order, as a round of the replay. -/
theorem replayEvent_created {order : OrderCreated} (he : e.payload = .orderCreated order)
    (h : replayEvent s e = .ok s') : (∀ existing ∈ s.orders, existing.orderId ≠ order.orderId) ∧
      s'.orders = s.orders ++ [⟨order.orderId, order.idempotencyKey, order.side,
        order.requestedQuantity, order.filledQuantity, order.status, e.occurredAtUtc⟩] ∧
      s'.cash = s.cash ∧ s'.btcQuantity = s.btcQuantity := by
  obtain ⟨-, -, -, t, ht, rfl⟩ := replayEvent_eq_ok.mp h
  simp only [replayPayload, he] at ht
  obtain ⟨hfresh, rfl⟩ := replayOrderCreated_eq_ok ht
  exact ⟨hfresh, rfl, rfl, rfl⟩

/-- A transition, as a round of the replay. -/
theorem replayEvent_status {transition : OrderTransition} (he : e.payload = .orderStatus transition)
    (h : replayEvent s e = .ok s') : ∃ existing,
      findOrder s.orders transition.orderId = some existing ∧
      s'.orders = replaceOrder s.orders { existing with
        status := transition.status
        updatedAtUtc := e.occurredAtUtc } ∧
      s'.cash = s.cash ∧ s'.btcQuantity = s.btcQuantity := by
  obtain ⟨-, -, -, t, ht, rfl⟩ := replayEvent_eq_ok.mp h
  simp only [replayPayload, he] at ht
  obtain ⟨existing, hfound, -, rfl⟩ := replayOrderStatus_eq_ok ht
  exact ⟨existing, hfound, rfl, rfl, rfl⟩

/-- A transition of an order whose row was replaced before. -/
theorem replayEvent_status_replaced {transition : OrderTransition} {orders : List StoredOrder}
    {row old : StoredOrder} (he : e.payload = .orderStatus transition)
    (horders : s.orders = replaceOrder orders row)
    (hfound : findOrder orders row.orderId = some old)
    (hid : transition.orderId = row.orderId) (h : replayEvent s e = .ok s') :
    s'.orders = replaceOrder orders { row with
      status := transition.status
      updatedAtUtc := e.occurredAtUtc } := by
  obtain ⟨existing, hexisting, horders', -, -⟩ := replayEvent_status he h
  rw [horders, hid, findOrder_replaceOrder hfound, Option.some.injEq] at hexisting
  rw [horders', horders, ← hexisting]
  exact replaceOrder_replaceOrder _ rfl

/-- A fill of a known order, as a round of the replay. -/
theorem replayEvent_fill {fill : RawFill} (he : e.payload = .fill fill) {row : StoredOrder}
    (hrow : findOrder s.orders fill.orderId = some row) (h : replayEvent s e = .ok s') :
    0 < fill.quantity ∧ row.filledQuantity + fill.quantity ≤ row.requestedQuantity ∧
      s'.orders = replaceOrder s.orders { row with
        filledQuantity := row.filledQuantity + fill.quantity
        status := if row.filledQuantity + fill.quantity = row.requestedQuantity
          then .completed else .partial_
        updatedAtUtc := e.occurredAtUtc } := by
  obtain ⟨-, -, -, t, ht, rfl⟩ := replayEvent_eq_ok.mp h
  simp only [replayPayload, he] at ht
  obtain ⟨hquantity, -, -, ⟨hnone, -⟩ | ⟨existing, hfound, -, -, htotal, horders⟩⟩ :=
    replayFill_eq_ok ht
  · rw [hrow] at hnone
    cases hnone
  · rw [hrow, Option.some.injEq] at hfound
    subst hfound
    exact ⟨hquantity, htotal, horders⟩

/-- An event that concerns neither orders nor balances, as a round of the replay. -/
theorem replayEvent_neutral (hneutral : e.payload.isNeutral = true) (h : replayEvent s e = .ok s') :
    s'.orders = s.orders ∧ s'.cash = s.cash ∧ s'.btcQuantity = s.btcQuantity := by
  obtain ⟨-, -, -, t, ht, rfl⟩ := replayEvent_eq_ok.mp h
  obtain ⟨horders, hcash, hbtc⟩ := replayPayload_neutral hneutral ht
  exact ⟨horders, hcash, hbtc⟩

end

/-! ## Envelopes -/

/-- What a replay knows about the envelopes of its log. -/
structure Envelopes (log : List StoredEvent) (s : Projection) : Prop where
  sequences : log.map (·.sequence) = List.range' 1 log.length
  lastSequence : s.lastSequence = log.length
  times : log.Pairwise fun a b => a.occurredAtUtc ≤ b.occurredAtUtc
  lastTime : s.previousTimestamp = log.getLast?.map (·.occurredAtUtc)
  cash : 0 ≤ s.cash
  btc : 0 ≤ s.btcQuantity

/-- A payload cannot make a balance negative. -/
theorem replayPayload_nonneg {s t : Projection} {e : StoredEvent}
    (h : replayPayload s e = .ok t) (hcash : 0 ≤ s.cash) (hbtc : 0 ≤ s.btcQuantity) :
    0 ≤ t.cash ∧ 0 ≤ t.btcQuantity := by
  unfold replayPayload at h
  split at h
  · simp only [replayOrderCreated, Except.bind_eq_ok, Except.pure_eq_ok] at h
    obtain ⟨_, -, _, -, _, -, _, -, _, -, rfl⟩ := h
    exact ⟨hcash, hbtc⟩
  · rename_i fill hfill
    simp only [replayFill, Except.bind_eq_ok, Except.pure_eq_ok, reject_eq_ok] at h
    obtain ⟨_, -, _, -, _, hquantity, balanced, hbalance, _, -, rfl⟩ := h
    unfold replayBalance at hbalance
    split at hbalance
    · simp only [Except.bind_eq_ok, Except.pure_eq_ok, reject_eq_ok] at hbalance
      obtain ⟨_, hspend, rfl⟩ := hbalance
      constructor
      · exact not_lt.mp hspend
      · change 0 ≤ s.btcQuantity + fill.quantity
        linarith
    · simp only [Except.bind_eq_ok, Except.pure_eq_ok, reject_eq_ok] at hbalance
      obtain ⟨_, howned, _, hearn, rfl⟩ := hbalance
      constructor
      · exact not_lt.mp hearn
      · change 0 ≤ s.btcQuantity - fill.quantity
        linarith
  · simp only [replayOrderStatus, Except.bind_eq_ok, reject_eq_ok] at h
    obtain ⟨_, -, h⟩ := h
    split at h
    · cases h
    · simp only [Except.bind_eq_ok, Except.pure_eq_ok] at h
      obtain ⟨_, -, rfl⟩ := h
      exact ⟨hcash, hbtc⟩
  · cases h
    exact ⟨hcash, hbtc⟩
  · cases h
    exact ⟨hcash, hbtc⟩
  · simp only [Except.bind_eq_ok, Except.pure_eq_ok] at h
    obtain ⟨_, -, _, -, _, -, rfl⟩ := h
    exact ⟨hcash, hbtc⟩
  · cases h
    exact ⟨hcash, hbtc⟩

/-- Every log that replays has well-formed envelopes. -/
theorem envelopes_of_rebuild {log : List StoredEvent} {s : Projection}
    (h : rebuildFromEvents log = .ok s) : Envelopes log s := by
  induction log using List.reverseRecOn generalizing s with
  | nil =>
    cases h
    exact ⟨rfl, rfl, List.Pairwise.nil, rfl, by decide, by decide⟩
  | append_singleton log e ih =>
    obtain ⟨t, ht, he⟩ := rebuild_snoc.mp h
    have hlog := ih ht
    obtain ⟨hsequence, htime, -, u, hu, rfl⟩ := replayEvent_eq_ok.mp he
    have hnonneg := replayPayload_nonneg hu hlog.cash hlog.btc
    have hnumber : e.sequence = log.length + 1 := by rw [hsequence, hlog.lastSequence]
    refine ⟨?_, ?_, ?_, ?_, hnonneg.1, hnonneg.2⟩
    · rw [List.map_append, hlog.sequences, List.length_append, List.length_singleton,
        List.range'_concat]
      simp [hnumber, Nat.add_comm]
    · simp [hnumber]
    · rw [List.pairwise_append]
      refine ⟨hlog.times, List.pairwise_singleton _ _, ?_⟩
      intro a ha b hb
      obtain rfl := List.mem_singleton.mp hb
      obtain ⟨last, hlast⟩ : ∃ last, log.getLast? = some last :=
        ⟨_, List.getLast?_eq_some_getLast (List.ne_nil_of_mem ha)⟩
      have hle : last.occurredAtUtc ≤ b.occurredAtUtc := by
        apply htime
        simp [hlog.lastTime, hlast]
      obtain ⟨init, rfl⟩ := List.getLast?_eq_some_iff.mp hlast
      rcases List.mem_append.mp ha with hinit | hsame
      · have hpair := (List.pairwise_append.mp hlog.times).2.2 a hinit last (by simp)
        exact hpair.trans hle
      · obtain rfl := List.mem_singleton.mp hsame
        exact hle
    · simp

/-- The sequence numbers of a log lie between one and its length. -/
theorem Envelopes.sequence_le {log : List StoredEvent} {s : Projection} (h : Envelopes log s)
    {e : StoredEvent} (he : e ∈ log) : 1 ≤ e.sequence ∧ e.sequence ≤ log.length := by
  have hmem : e.sequence ∈ log.map (·.sequence) := List.mem_map_of_mem he
  rw [h.sequences, List.mem_range'_1] at hmem
  omega

/-- The event with a sequence number is where it should be. -/
theorem Envelopes.sequence_getElem {log : List StoredEvent} {s : Projection}
    (h : Envelopes log s) {i : ℕ} (hi : i < log.length) : log[i].sequence = i + 1 := by
  have hnumbered : (log.map (·.sequence))[i]? = (List.range' 1 log.length)[i]? := by
    rw [h.sequences]
  rw [List.getElem?_map, List.getElem?_eq_getElem hi, List.getElem?_range' hi] at hnumbered
  have hsequence : log[i].sequence = 1 + 1 * i := Option.some.inj hnumbered
  omega

/-! ## Several mutations -/

/-- A verified database that has a block of events more, with new identities. -/
structure Appends (db : Database) (block : List StoredEvent) (db' : Database) : Prop where
  events : db'.events = db.events ++ block
  after : Verified db'
  ids : (db.events.map (·.eventId)).Nodup → (db'.events.map (·.eventId)).Nodup

/-- A verified database appends nothing to itself. -/
theorem Appends.refl {db : Database} (h : Verified db) : Appends db [] db :=
  ⟨(List.append_nil _).symm, h, id⟩

/-- Two stretches that append their events append both. -/
theorem Appends.trans {db₁ db₂ db₃ : Database} {block more : List StoredEvent}
    (h₁ : Appends db₁ block db₂) (h₂ : Appends db₂ more db₃) : Appends db₁ (block ++ more) db₃ where
  events := by rw [h₂.events, h₁.events, List.append_assoc]
  after := h₂.after
  ids := fun hnodup => h₂.ids (h₁.ids hnodup)

/-- One mutation. -/
theorem Appended.appends {db db' : Database} {eventId : EventId} {occurredAt : ℤ}
    {payload : Payload} (h : Appended db eventId occurredAt payload db') :
    Appends db [db.nextEvent eventId occurredAt payload] db' where
  events := h.events
  after := h.after
  ids := by
    intro hnodup
    rw [h.events, List.map_append, List.nodup_append]
    refine ⟨hnodup, List.nodup_singleton _, ?_⟩
    intro existing hexisting new hnew
    obtain ⟨e, he, rfl⟩ := List.mem_map.mp hexisting
    obtain rfl : new = eventId := by simpa [Database.nextEvent] using hnew
    simpa using List.find?_eq_none.mp h.fresh e he

/-- The projection after a block. -/
theorem Appends.rebuild {db db' : Database} {block : List StoredEvent} (h : Appends db block db') :
    ∃ s, rebuildFromEvents (db.events ++ block) = .ok s ∧ db'.orders = s.orders := by
  obtain ⟨s, hs, horders⟩ := h.after.rebuild
  exact ⟨s, by rw [← h.events, hs], horders⟩

/-! ## Other writers -/

/-- A mutation of the store by another writer, who appends only admitted payloads by
`append_event`. -/
inductive Foreign (admits : Payload → Prop) (db : Database) : Database → Prop where
  | appendEvent {eventId : EventId} {occurredAt : ℤ} {payload : Payload} {db' : Database} :
      admits payload → Store.appendEvent db eventId occurredAt payload = .ok db' →
      Foreign admits db db'
  | recordOrderOnce {key : Key} {side : Side} {quantity : ℚ} {orderId : PaperId} {occurredAt : ℤ}
      {status : OrderStatus} {isNew : Bool} {db' : Database} :
      Store.recordOrderOnce db key side quantity orderId occurredAt status = .ok (isNew, db') →
      Foreign admits db db'
  | appendFill {fill : RawFill} {occurredAt : ℤ} {fillId : EventId} {isNew : Bool}
      {db' : Database} :
      Store.appendFill db fill occurredAt fillId = .ok (isNew, db') → Foreign admits db db'
  | transitionOrderStatus {orderId : PaperId} {key : Key} {status : OrderStatus} {occurredAt : ℤ}
      {reason : Option String} {isNew : Bool} {db' : Database} :
      Store.transitionOrderStatus db orderId key status occurredAt reason = .ok (isNew, db') →
      Foreign admits db db'

/-- Another writer leaves the log as it is, or appends an event that it may append. -/
theorem Foreign.appended {admits : Payload → Prop} {db db' : Database} (h : Foreign admits db db') :
    db' = db ∨
    ∃ eventId occurredAt payload, Appended db eventId occurredAt payload db' ∧
      (admits payload ∨ payload.isNeutral = false) := by
  cases h with
  | appendEvent hadmits happend =>
    exact Or.inr ⟨_, _, _, appendEvent_appended happend, Or.inl hadmits⟩
  | recordOrderOnce hrecord =>
    rcases recordOrderOnce_cases hrecord with ⟨-, hsame, -⟩ | ⟨-, -, -, happended⟩
    · exact Or.inl hsame
    · exact Or.inr ⟨_, _, _, happended, Or.inr rfl⟩
  | appendFill hfill =>
    rcases appendFill_cases hfill with ⟨-, hsame, -⟩ | ⟨-, -, -, -, happended⟩
    · exact Or.inl hsame
    · exact Or.inr ⟨_, _, _, happended, Or.inr rfl⟩
  | transitionOrderStatus htransition =>
    rcases transitionOrderStatus_cases htransition with ⟨-, hsame, -⟩ | ⟨-, happended⟩
    · exact Or.inl hsame
    · exact Or.inr ⟨_, _, _, happended, Or.inr rfl⟩

end AutoBit.Store
