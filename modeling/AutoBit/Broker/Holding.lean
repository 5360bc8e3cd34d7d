import AutoBit.Broker.ExecutionCap
import AutoBit.Broker.Growth

/-!
# Accepted ledgers of a growing log

The fills of a ledger stay what they are while no fill is appended, so the open position
does. What the ledger accepts as observations of a position is the whole history of that
position: one chain whose candles continue each other from the entry on.
-/

namespace AutoBit.Broker

open Library Store Strategy

/-! ## The parts of an accepted ledger -/

/-- The evidence of an accepted ledger is not repeated. -/
theorem evidence_of_ledger {db : Database} {ledger : Ledger} (h : buildLedger db = .ok ledger) :
    scanEvidence db.events = .ok () := by
  simp only [buildLedger, Except.bind_eq_ok, Except.pure_eq_ok] at h
  obtain ⟨snapshot, hsnapshot, _, hevidence, -⟩ := h
  obtain ⟨s, -, -, rfl⟩ := replayAndVerify_eq_ok.mp hsnapshot
  exact hevidence

/-- The snapshot of an accepted ledger is the replay of its database. -/
theorem replay_of_ledger {db : Database} {ledger : Ledger} (h : buildLedger db = .ok ledger) :
    replayState db = .ok ledger.snapshot := by
  obtain ⟨snapshot, hsnapshot⟩ : ∃ snapshot, replayState db = .ok snapshot := by
    simp only [buildLedger, Except.bind_eq_ok] at h
    obtain ⟨snapshot, hsnapshot, -⟩ := h
    exact ⟨snapshot, hsnapshot⟩
  rw [← snapshot_of_ledger h hsnapshot]
  exact hsnapshot

/-- The evidence of a ledger is the log. -/
theorem events_of_ledger {db : Database} {ledger : Ledger} (h : buildLedger db = .ok ledger) :
    ledger.snapshot.eventEvidence = db.events := by
  obtain ⟨s, -, -, hsnapshot⟩ := replayAndVerify_eq_ok.mp (replay_of_ledger h)
  rw [hsnapshot]
  rfl

/-- The BTC of an accepted ledger is what the fills of its log leave. -/
theorem btc_of_ledger {db : Database} {ledger : Ledger} (h : buildLedger db = .ok ledger) :
    ledger.snapshot.btcQuantity = (balance db.events).2 := by
  obtain ⟨s, hs, -, hsnapshot⟩ := replayAndVerify_eq_ok.mp (replay_of_ledger h)
  rw [hsnapshot, balance_eq hs]
  rfl

/-- The log of a ledger has envelopes. -/
theorem envelopes_of_ledger {db : Database} {ledger : Ledger} (h : buildLedger db = .ok ledger) :
    ∃ s, Envelopes db.events s := by
  obtain ⟨s, hs, -, -⟩ := replayAndVerify_eq_ok.mp (replay_of_ledger h)
  exact ⟨s, envelopes_of_rebuild hs⟩

/-- The order of an accepted ledger that a piece of metadata stands for. -/
theorem order_of_metadata {db : Database} {ledger : Ledger} (h : buildLedger db = .ok ledger)
    {m : Stamped OrderMetadata} (hm : m ∈ view readOrderMetadata db.events) :
    ∃ order ∈ ledger.orders, order.orderId = m.body.orderId := by
  obtain ⟨_, horders, -⟩ := buildLedger_inv h
  obtain ⟨order, horder, hfrom⟩ := forall₂_exists_right (mapM_eq_ok.mp horders) hm
  exact ⟨order, horder, orderFromMetadata_orderId hfrom⟩

/-- The events that are appended have the numbers that follow. -/
theorem sequence_of_block {log block : List StoredEvent} {s : Projection}
    (h : Envelopes (log ++ block) s) {e : StoredEvent} (he : e ∈ block) :
    log.length < e.sequence := by
  obtain ⟨j, hj, rfl⟩ := List.getElem_of_mem he
  have hindex : log.length + j < (log ++ block).length := by
    rw [List.length_append]
    omega
  have hsequence := h.sequence_getElem hindex
  rw [List.getElem_append_right (Nat.le_add_right _ _)] at hsequence
  simp only [Nat.add_sub_cancel_left] at hsequence
  omega

/-! ## The fills of a growing log -/

/-- The paper fills of a scan, one raw fill after the other. -/
theorem scanFills_found {log : List StoredEvent} {orders : List PaperOrder}
    {raws : List (Stamped RawFill)} {scan scan' : FillScan}
    (h : raws.foldlM (scanFill log orders) scan = .ok scan') :
    ∃ found, List.Forall₂ (fun raw fill => paperFillOf log raw
        (findPaperOrder orders raw.body.orderId) = .ok fill) raws found ∧
      scan'.fills = scan.fills ++ found.flatMap Option.toList := by
  induction raws generalizing scan with
  | nil =>
    cases h
    exact ⟨[], List.Forall₂.nil, by simp⟩
  | cons raw raws ih =>
    rw [List.foldlM_cons, Except.bind_eq_ok] at h
    obtain ⟨middle, hraw, hraws⟩ := h
    simp only [scanFill, Except.bind_eq_ok, reject_eq_ok, Except.pure_eq_ok] at hraw
    obtain ⟨_, -, _, -, fill, hfill, rfl⟩ := hraw
    obtain ⟨found, hfound, hfills⟩ := ih hraws
    exact ⟨fill :: found, List.Forall₂.cons hfill hfound,
      by rw [hfills, List.flatMap_cons, ← List.append_assoc]⟩

/-- A fill of an order comes after the metadata of the order. -/
theorem metadata_before_fill {key : OrderKey} {m : Stamped OrderMetadata} {bound : Bool}
    {fill : Stamped RawFill} {fillMetadata : EventId → Option (Stamped FillMetadata)}
    {rest : List (Stamped OrderTransition)} {outcome : ℚ × OrderStatus}
    (h : orderOutcome key m bound [fill] fillMetadata rest = .ok outcome) :
    m.sequence < fill.sequence := by
  simp only [orderOutcome, Except.bind_eq_ok] at h
  obtain ⟨_, -, h⟩ := h
  split at h <;> rw [Except.bind_eq_ok] at h <;> obtain ⟨status, hstatus, -⟩ := h
  · unfold validateCompleted at hstatus
    split at hstatus
    · simp only [Except.bind_eq_ok, reject_eq_ok, not_not] at hstatus
      obtain ⟨_, -, _, -, _, ⟨_, -, hbefore, -⟩, -⟩ := hstatus
      exact hbefore
    · cases hstatus
  · unfold validatePartial at hstatus
    split at hstatus
    · simp only [Except.bind_eq_ok, reject_eq_ok, not_not] at hstatus
      obtain ⟨_, -, _, -, _, -, _, ⟨_, -, hbefore, -⟩, -⟩ := hstatus
      exact hbefore
    · cases hstatus

section Grown

variable {db db' : Database} {ledger ledger' : Ledger} (hledger : buildLedger db = .ok ledger)
  (hledger' : buildLedger db' = .ok ledger') {block : List StoredEvent}
  (hevents : db'.events = db.events ++ block)
include hledger hledger' hevents

/-- An order of the longer log with a fill in the shorter one is an order of the shorter. -/
theorem metadata_of_filled {raw : Stamped RawFill} (hraw : raw ∈ view readFill db.events)
    {m : Stamped OrderMetadata} (hm : m ∈ view readOrderMetadata db'.events)
    (hid : m.body.orderId = raw.body.orderId) {order : PaperOrder}
    (horder : orderFromMetadata db'.events m = .ok order) :
    m ∈ view readOrderMetadata db.events := by
  rw [hevents, view_append] at hm
  rcases List.mem_append.mp hm with hold | hnew
  · exact hold
  exfalso
  obtain ⟨_, henvelopes'⟩ := envelopes_of_ledger hledger'
  obtain ⟨_, henvelopes⟩ := envelopes_of_ledger hledger
  rw [hevents] at henvelopes'
  obtain ⟨e, he, -, hsequence, -⟩ := mem_view.mp hnew
  have hlate := sequence_of_block henvelopes' he
  obtain ⟨old, hold, -, hearly, -⟩ := mem_view.mp hraw
  have hbound := (henvelopes.sequence_le hold).2
  -- the order has one fill, which is after its metadata
  obtain ⟨_, _, _, _, _, _, _, _, -, -, -, -, -, -, houtcome, -⟩ := orderFromMetadata_eq_ok.mp horder
  have hmem : raw ∈ fillsOf db'.events m.body.orderId := by
    refine List.mem_filter.mpr ⟨?_, by simp [hid]⟩
    rw [hevents, view_append]
    exact List.mem_append_left _ hraw
  have honly : fillsOf db'.events m.body.orderId = [raw] := by
    rcases orderOutcome_cases houtcome with ⟨hnone, -⟩ | ⟨hnone, -⟩ | ⟨fill, hfill, -⟩
    · simp [hnone] at hmem
    · simp [hnone] at hmem
    · rw [hfill, List.mem_singleton] at hmem
      rw [hfill, hmem]
  rw [honly] at houtcome
  have hafter := metadata_before_fill houtcome
  omega

/-- The paper fill of a raw fill does not change. -/
theorem paperFill_grown {raw : Stamped RawFill} (hraw : raw ∈ view readFill db.events)
    {fill fill' : Option PaperFill}
    (hfill : paperFillOf db.events raw (findPaperOrder ledger.orders raw.body.orderId) = .ok fill)
    (hfill' : paperFillOf db'.events raw (findPaperOrder ledger'.orders raw.body.orderId) =
      .ok fill') : fill = fill' := by
  have hsame : ∀ m ∈ view readOrderMetadata db.events, m ∈ view readOrderMetadata db'.events := by
    intro m hm
    rw [hevents, view_append]
    exact List.mem_append_left _ hm
  cases horder : findPaperOrder ledger.orders raw.body.orderId with
  | none =>
    have hnone : findPaperOrder ledger'.orders raw.body.orderId = none := by
      cases horder' : findPaperOrder ledger'.orders raw.body.orderId with
      | none => rfl
      | some order' =>
        obtain ⟨m, hm, hfrom, hid⟩ := metadata_of_ledger hledger' horder'
        rw [orderFromMetadata_orderId hfrom] at hid
        have hold := metadata_of_filled hledger hledger' hevents hraw hm hid hfrom
        obtain ⟨order, hmem, hsameId⟩ := order_of_metadata hledger hold
        obtain ⟨found, hfound⟩ := findPaperOrder_isSome hmem
        rw [hsameId, hid, horder] at hfound
        cases hfound
    rw [horder] at hfill
    rw [hnone] at hfill'
    cases hfill
    cases hfill'
    rfl
  | some order =>
    obtain ⟨m, hm, hfrom, hid⟩ := metadata_of_ledger hledger horder
    obtain ⟨order', hmem', hid'⟩ := order_of_metadata hledger' (hsame m hm)
    obtain ⟨found', hfound'⟩ := findPaperOrder_isSome hmem'
    have hidm := orderFromMetadata_orderId hfrom
    rw [hid', ← hidm, hid] at hfound'
    obtain ⟨m', hm', hfrom', hidFound⟩ := metadata_of_ledger hledger' hfound'
    -- both orders come from the same metadata
    have hnodup := (scanEvidence_eq_ok.mp (evidence_of_ledger hledger')).2.2.2.2.1
    have hmeta : m = m' := by
      refine List.inj_on_of_nodup_map hnodup (hsame m hm) hm' ?_
      rw [← orderFromMetadata_orderId hfrom', hidFound, ← hidm, hid]
    subst hmeta
    obtain ⟨_, _, _, _, _, _, _, _, -, -, -, -, -, -, -, rfl⟩ := orderFromMetadata_eq_ok.mp hfrom
    obtain ⟨_, _, _, _, _, _, _, _, -, -, -, -, -, -, -, rfl⟩ := orderFromMetadata_eq_ok.mp hfrom'
    simp only [horder, paperFillOf, Except.bind_eq_ok, require_eq_ok, Except.pure_eq_ok] at hfill
    simp only [hfound', paperFillOf, Except.bind_eq_ok, require_eq_ok, Except.pure_eq_ok] at hfill'
    obtain ⟨md, hmd, paper, hpaper, rfl⟩ := hfill
    obtain ⟨md', hmd', paper', hpaper', rfl⟩ := hfill'
    have hdescribed : fillMetadataOf db'.events raw.eventId = some md := by
      rw [hevents]
      exact fillMetadataOf_append hmd
    cases hdescribed.symm.trans hmd'
    simp only [paperFillFromEvidence, Except.bind_eq_ok, Except.pure_eq_ok] at hpaper hpaper'
    obtain ⟨_, -, _, -, _, -, _, -, _, -, rfl⟩ := hpaper
    obtain ⟨_, -, _, -, _, -, _, -, _, -, rfl⟩ := hpaper'
    rfl

/-- While no fill is appended, the fills and the BTC of the ledger stay. -/
theorem fills_grown (hquiet : view readFill block = []) :
    ledger'.fills = ledger.fills ∧
      ledger'.snapshot.btcQuantity = ledger.snapshot.btcQuantity := by
  have hview : view readFill db'.events = view readFill db.events := by
    rw [hevents, view_append, hquiet, List.append_nil]
  constructor
  · obtain ⟨scan, -, -, hscan, hfills, -⟩ := buildLedger_inv hledger
    obtain ⟨scan', -, -, hscan', hfills', -⟩ := buildLedger_inv hledger'
    rw [hview] at hscan'
    obtain ⟨found, hfound, hsame⟩ := scanFills_found hscan
    obtain ⟨found', hfound', hsame'⟩ := scanFills_found hscan'
    have hall : found = found' := by
      refine List.forall₂_eq_eq_eq ▸ ?_
      refine List.forall₂_iff_get.mpr ⟨hfound.length_eq.symm.trans hfound'.length_eq, ?_⟩
      intro i hi hi'
      have hraw : i < (view readFill db.events).length := hfound.length_eq ▸ hi
      exact paperFill_grown hledger hledger' hevents (List.get_mem _ ⟨i, hraw⟩)
        (hfound.get hraw hi) (hfound'.get hraw hi')
    rw [hfills, hfills', hsame, hsame', hall]
  · rw [btc_of_ledger hledger, btc_of_ledger hledger', balance, balance, hview]

end Grown

end AutoBit.Broker
