import AutoBit.Broker.Requests

/-!
# When the evidence was written

The orders, fills and stops of a sound account stand for events of its log, at the times
that they name: a market order is there from its signal on, a stop order from its trigger
on, and the metadata of a fill has the time of the fill.
-/

namespace AutoBit.Broker

open Library Store

section

variable {log : List StoredEvent} {a : Account} (h : Coherent log a)
include h

/-- A market order is recorded at its signal and eligible at the next boundary, and a stop order
is recorded when it is eligible. -/
theorem Coherent.order_recorded {order : PaperOrder} (horder : order ∈ a.orders) :
    ∃ m ∈ view readOrderMetadata log, m.body.orderId = order.orderId ∧
      (order.orderKind = .market → order.eligibleOpenUtc = nextBoundary order.signalAtUtc ∧
        m.occurredAtUtc = order.signalAtUtc) ∧
      (order.orderKind = .stop → order.side = .sell ∧ m.occurredAtUtc = order.eligibleOpenUtc ∧
        ∃ id, order.parentOrderId = some id ∧ id.isStop = true) := by
  obtain ⟨m, hm, hfrom, -⟩ := h.metadata horder
  obtain ⟨creation, _, _, _, _, _, _, _, -, -, hvalid, hcreation, -, -, -, rfl⟩ :=
    orderFromMetadata_eq_ok.mp hfrom
  simp only [validateMetadata, Except.bind_eq_ok] at hvalid
  obtain ⟨_, -, _, -, _, -, _, -, _, -, _, -, _, -, _, hkind, -⟩ := hvalid
  simp only [validateCreation, Except.bind_eq_ok, reject_eq_ok, not_not] at hcreation
  obtain ⟨_, hdue, _, -, hsame⟩ := hcreation
  refine ⟨m, hm, rfl, fun hmarket => ?_, fun hstop => ?_⟩
  · change m.body.orderKind = .market at hmarket
    simp only [validateKind, hmarket, reject_eq_ok, not_not] at hkind
    simp only [creationDue, hmarket] at hdue
    exact ⟨hkind, hsame.trans hdue⟩
  · change m.body.orderKind = .stop at hstop
    simp only [validateKind, hstop, Except.bind_eq_ok, reject_eq_ok, not_or, not_not,
      Bool.not_eq_false] at hkind
    obtain ⟨_, ⟨hside, hparent⟩, -⟩ := hkind
    simp only [creationDue, hstop] at hdue
    exact ⟨hside, hsame.trans hdue, (Option.any_eq_true _ _).mp hparent⟩

/-- An open stop is recorded when it is observed, and active from then on or from the next
boundary on. -/
theorem Coherent.stop_recorded {stop : PaperStop} (hstop : stop ∈ a.stops.open_) :
    (∃ set ∈ view readStopSet log, set.occurredAtUtc = stop.observedAtUtc) ∧
      (stop.activeAfterUtc = stop.observedAtUtc ∨
        stop.activeAfterUtc = nextBoundary stop.observedAtUtc) := by
  refine ⟨?_, (h.stop_valid hstop).active⟩
  have hscanned := scanned_of_scanStops h.stops
  obtain ⟨known, hknown, rfl, -⟩ := hscanned.mem_open hstop
  obtain ⟨set, hset, hfrom, -⟩ := hscanned.stop_of_known hknown
  simp only [stopFromEvent, Except.bind_eq_ok, Except.pure_eq_ok] at hfrom
  obtain ⟨_, -, _, -, _, -, _, -, _, -, _, -, hbody⟩ := hfrom
  exact ⟨set, hset, by rw [← hbody]⟩

/-- The identity of an order is that of its key. -/
theorem Coherent.orderId_of_key {order : PaperOrder} (horder : order ∈ a.orders) :
    order.orderId = order.idempotencyKey.orderId := by
  obtain ⟨m, -, hfrom, -⟩ := h.metadata horder
  obtain ⟨_, _, _, _, _, _, _, _, -, -, hvalid, -, -, -, -, rfl⟩ := orderFromMetadata_eq_ok.mp hfrom
  simp only [validateMetadata, Except.bind_eq_ok, Except.pure_eq_ok, reject_eq_ok, not_or,
    not_not] at hvalid
  obtain ⟨_, -, _, -, _, -, _, -, _, -, _, -, _, -, _, -, _, ⟨-, hid⟩, rfl⟩ := hvalid
  exact hid

/-- The orders of a coherent account have an identity. -/
theorem Coherent.orderId_ne_empty {order : PaperOrder} (horder : order ∈ a.orders) :
    order.orderId ≠ .external "" := by
  rw [h.orderId_of_key horder]
  simp [OrderKey.orderId]

/-- A stop order is signalled when its stop was recorded. -/
theorem Coherent.stopOrder_signal (hsettled : Settled a) {order : PaperOrder}
    (horder : order ∈ a.orders) (hkind : order.orderKind = .stop) :
    ∃ set ∈ view readStopSet log, set.occurredAtUtc = order.signalAtUtc := by
  have hended := h.not_accepted_of_triggered (hsettled.triggers order horder hkind) horder
  have hancestry := h.ancestry order horder fun hboth => hended hboth.2
  obtain ⟨_, -, -, -, hstop⟩ := h.order_recorded horder
  obtain ⟨-, -, id, hparent, hid⟩ := hstop hkind
  simp only [validateAncestry, hparent] at hancestry
  split at hancestry
  · -- an order is no parent of a stop order
    simp only [validateChild, Except.bind_eq_ok, require_eq_ok] at hancestry
    obtain ⟨parent, hfound, -⟩ := hancestry
    obtain ⟨hmem, rfl⟩ := findPaperOrder_some hfound
    rw [h.orderId_of_key hmem] at hid
    cases hid
  · simp only [validateStopOrder, Except.bind_eq_ok, require_eq_ok, reject_eq_ok,
      not_not] at hancestry
    obtain ⟨_, -, known, hknown, _, ⟨-, hsignal, -⟩, -⟩ := hancestry
    have hscanned := scanned_of_scanStops h.stops
    obtain ⟨set, hset, hfrom, -⟩ := hscanned.stop_of_known (List.mem_of_find?_eq_some hknown)
    simp only [stopFromEvent, Except.bind_eq_ok, Except.pure_eq_ok] at hfrom
    obtain ⟨_, -, _, -, _, -, _, -, _, -, _, -, hbody⟩ := hfrom
    exact ⟨set, hset, by rw [hsignal, ← hbody]⟩

/-- The raw fill of a paper fill. -/
theorem Coherent.fill_recorded {fill : PaperFill} (hfill : fill ∈ a.scan.fills) :
    ∃ raw ∈ view readFill log, raw.body.orderId = fill.orderId ∧
      raw.occurredAtUtc = fill.fillTime := by
  obtain ⟨raw, hraw, hbody, -, htime⟩ := forall₂_exists_left h.raws hfill
  exact ⟨raw, hraw, by rw [← hbody]; rfl, htime.symm⟩

/-- An order has one fill at most. -/
theorem Coherent.raw_unique {raw raw' : Stamped RawFill} (hraw : raw ∈ view readFill log)
    (hraw' : raw' ∈ view readFill log) (hid : raw.body.orderId = raw'.body.orderId) :
    raw = raw' := by
  obtain ⟨order, horder, hsame, -⟩ := h.filled raw hraw
  have hmem : raw ∈ fillsOf log order.orderId := List.mem_filter.mpr ⟨hraw, by simp [hsame]⟩
  have hmem' : raw' ∈ fillsOf log order.orderId :=
    List.mem_filter.mpr ⟨hraw', by simp [hsame, hid]⟩
  rcases h.outcome horder with ⟨hnone, -⟩ | ⟨only, honly, -⟩
  · simp [hnone] at hmem
  · rw [honly, List.mem_singleton] at hmem hmem'
    rw [hmem, hmem']

/-- The metadata of a fill names its order and has its time. -/
theorem Coherent.fill_described {raw : Stamped RawFill} (hraw : raw ∈ view readFill log) :
    ∃ metadata, fillMetadataOf log raw.eventId = some metadata ∧
      metadata.body.orderId = raw.body.orderId ∧ metadata.occurredAtUtc = raw.occurredAtUtc := by
  obtain ⟨order, hfound, -⟩ := h.order_of_fill hraw
  obtain ⟨scan, scan', hround⟩ := foldlM_round h.scan hraw
  simp only [scanFill, hfound, paperFillOf, Except.bind_eq_ok, require_eq_ok] at hround
  obtain ⟨_, -, _, -, _, ⟨metadata, hmetadata, fill, hfill, -⟩, -⟩ := hround
  simp only [paperFillFromEvidence, Except.bind_eq_ok, reject_eq_ok, not_not] at hfill
  obtain ⟨_, -, _, htime, _, -, _, ⟨-, hid, -⟩, -⟩ := hfill
  exact ⟨metadata, hmetadata, hid, htime⟩

/-- The fill that metadata belongs to. -/
theorem Coherent.raw_of_metadata {metadata : Stamped FillMetadata}
    (hmetadata : metadata ∈ view readFillMetadata log) : ∃ raw ∈ view readFill log,
      raw.eventId = metadata.body.fillId ∧ raw.body.orderId = metadata.body.orderId ∧
        raw.occurredAtUtc = metadata.occurredAtUtc := by
  have hnodup := (scanEvidence_eq_ok.mp h.evidence).2.2.2.2.2.1
  obtain ⟨raw, hraw, hfillId⟩ := h.matched.real metadata hmetadata
  obtain ⟨found, hfound, horderId, htime⟩ := h.fill_described hraw
  have hsame : found.body.fillId = raw.eventId := by simpa using List.find?_some hfound
  obtain rfl := List.inj_on_of_nodup_map hnodup (List.mem_of_find?_eq_some hfound) hmetadata
    (hsame.trans hfillId)
  exact ⟨raw, hraw, hfillId, horderId.symm, htime.symm⟩

/-- The metadata of the fill of an order is the only one that names the order. -/
theorem Coherent.fillMetadata_unique {metadata metadata' : Stamped FillMetadata}
    (hmetadata : metadata ∈ view readFillMetadata log)
    (hmetadata' : metadata' ∈ view readFillMetadata log)
    (hid : metadata.body.orderId = metadata'.body.orderId) : metadata = metadata' := by
  have hnodup := (scanEvidence_eq_ok.mp h.evidence).2.2.2.2.2.1
  obtain ⟨raw, hraw, hfillId, horderId, -⟩ := h.raw_of_metadata hmetadata
  obtain ⟨raw', hraw', hfillId', horderId', -⟩ := h.raw_of_metadata hmetadata'
  obtain rfl := h.raw_unique hraw hraw' (by rw [horderId, horderId', hid])
  exact List.inj_on_of_nodup_map hnodup hmetadata hmetadata' (hfillId.symm.trans hfillId')

/-- The fills of an account have identities of their own. -/
theorem Coherent.fills_nodup : (a.scan.fills.map (·.fillId)).Nodup := by
  have hsame : (view readFill log).map (·.eventId) = a.scan.fills.map (·.fillId) :=
    map_eq_of_forall₂ (h.raws.imp fun _ _ hraw => hraw.2.1.symm)
  rw [← hsame]
  exact view_ids_nodup readFill h.ids

/-- An order has one paper fill at most. -/
theorem Coherent.paperFill_unique {fill fill' : PaperFill} (hfill : fill ∈ a.scan.fills)
    (hfill' : fill' ∈ a.scan.fills) (hid : fill.orderId = fill'.orderId) : fill = fill' := by
  obtain ⟨raw, hraw, hbody, hfillId, -⟩ := forall₂_exists_left h.raws hfill
  obtain ⟨raw', hraw', hbody', hfillId', -⟩ := forall₂_exists_left h.raws hfill'
  obtain rfl := h.raw_unique hraw hraw' (by rw [← hbody, ← hbody']; exact hid)
  exact List.inj_on_of_nodup_map h.fills_nodup hfill hfill' (hfillId.trans hfillId'.symm)

end

end AutoBit.Broker
