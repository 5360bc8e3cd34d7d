import AutoBit.Broker.Fills

/-!
# Contexts, stops and positions

The remaining evidence that the broker appends is one event at a time: the sizing evidence
of an accepted entry, a stop, the end of a stop, and the observation of a position.
-/

namespace AutoBit.Broker

open Library Store Strategy

/-- What the verifier establishes on the way to a ledger. -/
theorem buildLedger_inv {db : Database} {ledger : Ledger} (h : buildLedger db = .ok ledger) :
    ∃ scan, ordersFromEvidence db.events = .ok ledger.orders ∧
      validateEntryContexts db.events ledger.orders = .ok () ∧
      (view readFill db.events).foldlM (scanFill db.events ledger.orders) {} = .ok scan ∧
      ledger.fills = scan.fills ∧ validatedPositionObservations db.events ledger.orders scan.fills =
        .ok ledger.positionObservations := by
  simp only [buildLedger, Except.bind_eq_ok, Except.pure_eq_ok] at h
  obtain ⟨snapshot, hsnapshot, _, -, stops, -, orders, horders, _, hcontexts, _, -, _, -, _, -, _, -,
    scan, hscan, _, -, _, -, _, -, _, -, _, -, _, -, positions, hpositions, rfl⟩ := h
  obtain ⟨s, -, -, rfl⟩ := replayAndVerify_eq_ok.mp hsnapshot
  exact ⟨scan, horders, hcontexts, hscan, rfl, hpositions⟩

section

variable {log : List StoredEvent} {a : Account} (h : Coherent log a)
include h

/-! ## Contexts -/

/-- The event that binds sizing evidence to an entry. -/
def contextEvent (n : ℕ) (id : PaperId) (at_ : ℤ) (context : EntryContext) : StoredEvent :=
  ⟨n + 1, .entryContext id, at_, .paperEntryContext ⟨id, context, 1⟩⟩

omit h in
/-- An order without sizing evidence has no context in the log. -/
theorem contextOf_eq_none {order : PaperOrder} (haccepted : order.status = .accepted)
    (hnone : order.executionContext = none) {m : Stamped OrderMetadata}
    (hm : orderFromMetadata log m = .ok order) : contextOf log order.orderId = none := by
  obtain ⟨_, _, _, -, hcontext, -⟩ := accepted_evidence haccepted hm
  rw [hnone] at hcontext
  rcases optionMapM_eq_ok.mp hcontext with ⟨hlog, -⟩ | ⟨_, _, -, -, hsome⟩
  · exact hlog
  · cases hsome

omit h in
/-- An accepted order with newly bound sizing evidence. -/
theorem orderFromMetadata_bind {order : PaperOrder} (haccepted : order.status = .accepted)
    (hnone : order.executionContext = none) {context : EntryContext}
    (hcontext : entryContext context = .ok context) {n : ℕ} {at_ : ℤ} {m : Stamped OrderMetadata}
    (hm : orderFromMetadata log m = .ok order) :
    orderFromMetadata (log ++ [contextEvent n order.orderId at_ context]) m =
      .ok { order with executionContext := some context } := by
  obtain ⟨creation, submitted, accepted, hcreation, -, hkey, hvalid, htransitions, hacceptance,
    hfills, heq⟩ := accepted_evidence haccepted hm
  have hid := orderFromMetadata_orderId hm
  have hlog := contextOf_eq_none haccepted hnone hm
  rw [orderFromMetadata_eq_ok, ← hid]
  refine ⟨creation, some context, order.idempotencyKey, submitted, accepted, [], 0, .accepted,
    find_append_of_some hcreation, ?_, hkey, hvalid, ?_, hacceptance, ?_, ?_⟩
  · have hnew : contextOf (log ++ [contextEvent n order.orderId at_ context]) order.orderId =
        some ⟨n + 1, .entryContext order.orderId, at_, ⟨order.orderId, context, 1⟩⟩ := by
      rw [contextOf] at hlog
      rw [contextOf, view_append, List.find?_append, hlog]
      simp [view, stamp, contextEvent, readContext]
    rw [hnew]
    exact optionMapM_eq_ok.mpr (Or.inr ⟨_, context, rfl, hcontext, rfl⟩)
  · rw [transitionsOf_append_block, htransitions]
    rfl
  · rw [fillsOf_append_block, hfills]
    rfl
  · conv_lhs => rw [heq]
    rfl

/-- Binding valid sizing evidence to an accepted entry keeps the account coherent. -/
theorem Coherent.bind {order : PaperOrder} (horder : order ∈ a.orders)
    (haccepted : order.status = .accepted) (hnone : order.executionContext = none)
    {context : EntryContext} (hcontext : entryContext context = .ok context) {at_ : ℤ}
    {p : Projection} {db : Database} {ledger : Ledger}
    (hevents : db.events = log ++ [contextEvent log.length order.orderId at_ context])
    (hreplay : rebuildFromEvents db.events = .ok p) (hids : (db.events.map (·.eventId)).Nodup)
    (hledger : buildLedger db = .ok ledger) :
    Coherent db.events { a with
      projection := p
      orders := setOrder a.orders { order with executionContext := some context } } := by
  rw [hevents] at hreplay hids
  have hview : ∀ {α : Type} (read : Payload → Option α), (∀ x, read (.paperEntryContext x) = none) →
      view read [contextEvent log.length order.orderId at_ context] = [] := by
    intro α read hread
    exact view_singleton_none (hread _)
  have hmeta := hview readOrderMetadata fun _ => rfl
  have hfill := hview readFill fun _ => rfl
  have hfillMeta := hview readFillMetadata fun _ => rfl
  have hexecution := hview readExecution fun _ => rfl
  have hsilent : ∀ id, id ≠ order.orderId →
      Silent [contextEvent log.length order.orderId at_ context] id := by
    intro id hne e he
    rw [List.mem_singleton.mp he]
    simpa [contextEvent, mentions] using hne.symm
  have honly : ∀ x ∈ a.orders, x.orderId = order.orderId → x = order := fun x hx hid =>
    List.inj_on_of_nodup_map h.nodup hx horder hid
  -- the verifier met the very orders of the extended account
  obtain ⟨_, horders, hcontexts, -⟩ := buildLedger_inv hledger
  have hsame : ledger.orders =
      setOrder a.orders { order with executionContext := some context } := by
    have hextended : List.Forall₂ (fun m o => orderFromMetadata
        (log ++ [contextEvent log.length order.orderId at_ context]) m = .ok o)
        (view readOrderMetadata log)
        (setOrder a.orders { order with executionContext := some context }) := by
      refine orders_update h.orders hsilent ?_
      intro m _ x hx hok hid
      rw [honly x hx hid] at hok
      exact orderFromMetadata_bind haccepted hnone hcontext hok
    have hmapM := mapM_eq_ok.mpr hextended
    rw [ordersFromEvidence, hevents, view_append, hmeta, List.append_nil, hmapM] at horders
    exact (Except.ok.inj horders).symm
  rw [hsame, hevents] at hcontexts
  have hunmoved := unmoved_of_neutral rfl h.replay hreplay
  rw [hevents]
  refine h.update (?_ : Update log _ a order { order with executionContext := some context } p a.scan
    a.trade a.source)
  refine {
    member := horder
    accepted := haccepted
    continues := ⟨_, _, _, _, rfl, Or.inl hnone⟩
    silent := hsilent
    replay := hreplay
    ids := hids
    named := by simp [contextEvent, Named]
    noMetadata := hmeta
    noStopSet := hview readStopSet fun _ => rfl
    noStopTerminal := hview readStopTerminal fun _ => rfl
    noPosition := hview readPosition fun _ => rfl
    outcome := fun m _ hok => orderFromMetadata_bind haccepted hnone hcontext hok
    contexts := fun event hevent => Except.forM_eq_ok.mp hcontexts event
      (mem_view_append.mpr (Or.inr hevent))
    executions := by simp [hexecution]
    executed := fun _ hstatus => absurd haccepted hstatus
    described := by simp [hfill]
    real := by simp [hfillMeta]
    ancestry := fun _ hstatus => absurd haccepted hstatus
    scanned := by simp [hfill]
    fills := ⟨[], by simp, by simp, rfl⟩
    held := by simpa [hunmoved.btcQuantity] using h.held
    sourced := by simp [hfill, hunmoved.btcQuantity]
    filled := by simp [hfill]
    stored := ?_
    funded := ?_
    openSource := h.openSource }
  · rw [hunmoved.orders]
    refine List.forall₂_map_right_iff.mpr (forall₂_imp_mem h.stored ?_)
    intro row _ x hx hagrees
    by_cases hid : x.orderId = order.orderId
    · rw [honly x hx hid] at hagrees ⊢
      rw [if_pos rfl]
      exact ⟨hagrees.orderId, hagrees.idempotencyKey, hagrees.side, hagrees.status,
        hagrees.requestedQuantity, hagrees.filledQuantity⟩
    · rw [if_neg hid]
      exact hagrees
  · intro _
    have hfunded := h.funded order (List.mem_filter.mpr ⟨horder, by rw [haccepted]; rfl⟩)
    rw [hunmoved.btcQuantity]
    exact hfunded

/-! ## Positions -/

/-- An observation that the verifier accepts keeps the account coherent. -/
theorem Coherent.observe {e : StoredEvent} {observation : PositionObservation}
    (he : e.payload = .paperPosition observation) {p : Projection} {db : Database} {ledger : Ledger}
    (hevents : db.events = log ++ [e]) (hreplay : rebuildFromEvents db.events = .ok p)
    (hids : (db.events.map (·.eventId)).Nodup) (hledger : buildLedger db = .ok ledger) :
    Coherent db.events { a with projection := p, positions := ledger.positionObservations } := by
  rw [hevents] at hreplay hids ⊢
  have hquiet : isQuiet e.payload = true := by rw [he]; rfl
  obtain ⟨hfill, hmeta, -⟩ := reads_of_quiet hquiet
  have hframe : Frame [e] a.orders a.orders none :=
    ⟨fun id _ => silent_of_quiet hquiet id, fun _ _ => rfl, by simp, by simp⟩
  obtain ⟨scan, horders, -, hscan, hfills, hpositions⟩ := buildLedger_inv hledger
  rw [hevents] at horders hscan hpositions
  have hsame : ledger.orders = a.orders := by
    have hextended : List.Forall₂ (fun m o => orderFromMetadata (log ++ [e]) m = .ok o)
        (view readOrderMetadata log) a.orders :=
      h.orders.imp fun m order hok => orderFromMetadata_append (silent_of_quiet hquiet _) hok
    have hmapM := mapM_eq_ok.mpr hextended
    rw [ordersFromEvidence, view_append, view_singleton_none hmeta, List.append_nil, hmapM] at horders
    exact (Except.ok.inj horders).symm
  have hsameScan : scan = a.scan := by
    have hframed := h.scan_frame hframe
    rw [hsame, view_append, view_singleton_none hfill, List.append_nil, hframed] at hscan
    exact (Except.ok.inj hscan).symm
  rw [hsame, hsameScan, validatedPositionObservations, view_append, foldlM_append_eq_ok] at hpositions
  obtain ⟨before, hbefore, hnew⟩ := hpositions
  have hsamePositions : before = a.positions := by
    have hframed : (view readPosition log).foldlM
        (scanPosition (log ++ [e]) a.orders (a.scan.fills ++ [])) [] = .ok a.positions :=
      h.positions_frame hreplay hframe (by simp)
    rw [List.append_nil] at hframed
    rw [hframed] at hbefore
    exact (Except.ok.inj hbefore).symm
  rw [hsamePositions] at hnew
  have hstops : scanStops (log ++ [e]) = .ok a.stops :=
    scanStops_append h.stops (view_singleton_none (by rw [he]; rfl))
      (view_singleton_none (by rw [he]; rfl))
  exact h.quiet hquiet hreplay hids (by simp [Named, he, malformed]) hstops ⟨[], by simp, by simp⟩
    ⟨[], by simp, by simp⟩ hnew h.openSource

/-! ## Stops -/

/-- The event that sets a stop. -/
def stopEvent (n : ℕ) (stop : PaperStop) : StoredEvent :=
  ⟨n + 1, .stopSet stop.stopId, stop.observedAtUtc, .paperStopSet stop.payload⟩

/-- A stop whose evidence is well formed. -/
structure PaperStop.Valid (stop : PaperStop) : Prop where
  stopId : stop.stopId = .stop stop.sourceId stop.observedAtUtc stop.reason
  reason : isReason stop.reason = true
  observed : IsBoundary stop.observedAtUtc
  active : stop.activeAfterUtc = stop.observedAtUtc ∨
    stop.activeAfterUtc = nextBoundary stop.observedAtUtc
  price : 0 < stop.stopPrice
  feeRate : 0 ≤ stop.feeRate
  slippageRate : 0 ≤ stop.slippageRate

omit h in
/-- A valid stop is read from its event. -/
theorem stopFromEvent_of_valid {stop : PaperStop} (hvalid : stop.Valid) (n : ℕ) :
    stopFromEvent ⟨n, .stopSet stop.stopId, stop.observedAtUtc, stop.payload⟩ = .ok stop := by
  simp only [stopFromEvent, requireBoundary, Except.bind_eq_ok, Except.pure_eq_ok, reject_eq_ok,
    not_not, not_or, not_and, not_lt, not_le, Bool.not_eq_false]
  refine ⟨⟨⟩, hvalid.reason, ⟨⟩, hvalid.observed, ⟨⟩, ?_, ⟨⟩, ⟨hvalid.stopId, rfl⟩, ⟨⟩, hvalid.price,
    ⟨⟩, ⟨hvalid.feeRate, hvalid.slippageRate⟩, rfl⟩
  intro hne
  exact hvalid.active.resolve_left hne

/-- The open entry is a filled entry order. -/
theorem Coherent.order_of_source {id : PaperId} (hsource : a.source = some id) :
    ∃ order, findPaperOrder a.orders id = some order ∧ order.side = .buy ∧
      0 < order.filledQuantity ∧ order.status ≠ .accepted := by
  have hinv : ∀ state : ℚ × Option PaperId, ((view readFill log).map (·.body)).foldlM sourceStep
      (0, none) = .ok state → ∀ other ∈ state.2, ∃ fill ∈ (view readFill log).map (·.body),
        fill.side = .buy ∧ fill.orderId = other := by
    intro state hok
    refine foldlM_invariant (fun state : ℚ × Option PaperId => ∀ other ∈ state.2,
      ∃ fill ∈ (view readFill log).map (·.body), fill.side = .buy ∧ fill.orderId = other) ?_
      (by simp) hok
    intro t t' fill hfill ht hround other hother
    unfold sourceStep at hround
    split at hround <;> rename_i hside <;>
      simp only [Except.bind_eq_ok, Except.pure_eq_ok] at hround
    · obtain ⟨_, -, rfl⟩ := hround
      exact ⟨fill, hfill, hside, by simpa using hother⟩
    · obtain ⟨_, -, rfl⟩ := hround
      simp only [Option.mem_def] at hother
      split at hother
      · cases hother
      · exact ht other hother
  obtain ⟨fill, hfill, hside, rfl⟩ := hinv _ h.source id hsource
  obtain ⟨raw, hraw, rfl⟩ := List.mem_map.mp hfill
  obtain ⟨order, hfound, hsame, hpos, hstatus⟩ := h.order_of_fill hraw
  exact ⟨order, hfound, by rw [hsame, hside], hpos, hstatus⟩

/-- A new stop of the open entry keeps the account coherent. -/
theorem Coherent.setStop {stop : PaperStop} (hvalid : stop.Valid)
    (hsource : a.source = some stop.sourceId)
    (htighter : ∀ active ∈ a.stops.active, active.stopPrice < stop.stopPrice)
    (hboundary : stop.activeAfterUtc = stop.observedAtUtc → stop.reason = "HARD_STOP" ∧
      ∃ fill, onlyFill (a.scan.fills.filter fun fill =>
        fill.orderId = stop.sourceId ∧ fill.side = .buy) = some fill ∧
        fill.fillTime = stop.observedAtUtc)
    {p : Projection} (hreplay : rebuildFromEvents (log ++ [stopEvent log.length stop]) = .ok p)
    (hids : ((log ++ [stopEvent log.length stop]).map (·.eventId)).Nodup) :
    Coherent (log ++ [stopEvent log.length stop]) { a with
      projection := p
      stops := { a.stops with
        known := a.stops.known ++
          [⟨log.length + 1, .stopSet stop.stopId, stop.observedAtUtc, stop⟩]
        open_ := a.stops.open_ ++ [stop] } } := by
  have hscanned := scanned_of_scanStops h.stops
  have hactiveOpen : ∀ active ∈ a.stops.active, active ∈ a.stops.open_ := fun active hactive =>
    List.mem_of_getLast? hactive
  have hfreshId : ∀ known ∈ a.stops.known, known.body.stopId ≠ stop.stopId := by
    intro known hknown hsame
    obtain ⟨set, hset, hfrom, -, -, -⟩ := hscanned.stop_of_known hknown
    obtain ⟨e, he, -, -, heid, -⟩ := mem_view.mp hset
    simp only [stopFromEvent, Except.bind_eq_ok, Except.pure_eq_ok, reject_eq_ok, not_or,
      not_not] at hfrom
    obtain ⟨_, -, _, -, _, -, _, ⟨-, hsetId⟩, _, -, _, -, hbody⟩ := hfrom
    have hbodyId : set.body.stopId = stop.stopId := by rw [← hsame, ← hbody]
    rw [List.map_append, List.nodup_append] at hids
    exact hids.2.2 e.eventId (List.mem_map_of_mem he) (.stopSet stop.stopId) (by simp [stopEvent])
      (by rw [heid, hsetId, hbodyId])
  have hstops : scanStops (log ++ [stopEvent log.length stop]) = .ok { a.stops with
      known := a.stops.known ++ [⟨log.length + 1, .stopSet stop.stopId, stop.observedAtUtc, stop⟩]
      open_ := a.stops.open_ ++ [stop] } := by
    refine foldlM_snoc_eq_ok.mpr ⟨a.stops, h.stops, ?_⟩
    refine scanStopSet_eq_ok.mpr ⟨stop, stopFromEvent_of_valid hvalid _, hfreshId, ?_, htighter, rfl⟩
    intro active hactive
    exact (h.openSource active (hactiveOpen active hactive) stop.sourceId hsource).symm
  obtain ⟨order, hfound, hside, hpos, hstatus⟩ := h.order_of_source hsource
  have hopenSource : paperSourceAtSequence (log.length + 1) (log ++ [stopEvent log.length stop])
      a.orders = .ok (some stop.sourceId) := by
    have hbefore := beforeSequence_block (envelopes_of_rebuild hreplay) 0
    simp only [Nat.add_zero, List.take_zero, List.append_nil] at hbefore
    have hall : ((view readFill log).map (·.body)).filter
        (fun fill => (findPaperOrder a.orders fill.orderId).isSome) =
        (view readFill log).map (·.body) := by
      rw [List.filter_eq_self]
      intro fill hfill
      obtain ⟨raw, hraw, rfl⟩ := List.mem_map.mp hfill
      obtain ⟨found, hknown, -⟩ := h.order_of_fill hraw
      rw [hknown]
      rfl
    rw [paperSourceAtSequence, hbefore, hall, h.source, Except.map_eq_ok]
    exact ⟨_, rfl, hsource⟩
  have hvalidSource : validateStopSource (log ++ [stopEvent log.length stop]) a.orders a.scan.fills
      ⟨log.length + 1, .stopSet stop.stopId, stop.observedAtUtc, stop⟩ = .ok () := by
    simp only [validateStopSource, Except.bind_eq_ok, reject_eq_ok, not_not, hopenSource]
    refine ⟨⟨⟩, ⟨order, hfound, hside, hpos⟩, _, rfl, ⟨⟩, rfl, ?_⟩
    split
    · rename_i hactive
      obtain ⟨hreason, fill, hfill, htime⟩ := hboundary hactive
      have hsameFilter : a.scan.fills.filter (fun fill => fill.orderId = stop.sourceId ∧
          fill.side = .buy) = a.scan.fills.filter (·.orderId = stop.sourceId) := by
        apply List.filter_congr
        intro other hother
        rw [Bool.eq_iff_iff]
        simp only [decide_eq_true_eq, and_iff_left_iff_imp]
        intro hid
        obtain ⟨otherOrder, hotherFound, hotherSide, -⟩ := h.order_of_paperFill hother
        rw [hid, hfound, Option.some.injEq] at hotherFound
        rw [← hotherSide, ← hotherFound, hside]
      rw [hsameFilter] at hfill
      have hmem : fill ∈ a.scan.fills.filter (·.orderId = stop.sourceId) := by
        rw [onlyFill_eq_some.mp hfill]
        simp
      obtain ⟨hmem, hid⟩ := List.mem_filter.mp hmem
      obtain ⟨fillOrder, hfillFound, hfillSide, -⟩ := h.order_of_paperFill hmem
      have hfillBuy : fill.side = .buy := by
        rw [show fill.orderId = stop.sourceId by simpa using hid, hfound,
          Option.some.injEq] at hfillFound
        rw [← hfillSide, ← hfillFound, hside]
      obtain ⟨horderMem, horderId⟩ := findPaperOrder_some hfound
      rcases h.outcome horderMem with ⟨-, hzero, -⟩ | ⟨raw, hraw, -, -⟩
      · rw [hzero] at hpos
        exact absurd hpos (lt_irrefl _)
      · rw [horderId] at hraw
        have hrawMem : raw ∈ view readFill log :=
          mem_of_onlyFill (by rw [hraw]; rfl)
        obtain ⟨metadata, hmetadata⟩ := Option.isSome_iff_exists.mp
          (h.matched.described raw hrawMem)
        have hle := (view_sequence h.envelopes (List.mem_of_find?_eq_some hmetadata)).2
        have hrawFills : fillsOf (log ++ [stopEvent log.length stop]) stop.sourceId = [raw] := by
          rw [fillsOf_append_block, hraw]
          rfl
        simp only [validateBoundaryStop, Except.bind_eq_ok, require_eq_ok, reject_eq_ok, hrawFills,
          not_or, not_not]
        exact ⟨fill, hfill, raw, rfl, hreason, hfillBuy, htime, metadata,
          fillMetadataOf_append hmetadata, by omega⟩
    · rfl
  refine h.quiet rfl hreplay hids (by simp [Named, stopEvent, malformed]) hstops
    ⟨_, rfl, ?_⟩ ⟨[], by simp, by simp⟩ rfl ?_
  · intro new hnew
    rw [List.mem_singleton.mp hnew]
    exact ⟨Nat.lt_succ_self _, hvalidSource⟩
  · intro other hother id hid
    rcases List.mem_append.mp hother with hold | hnew
    · exact h.openSource other hold id hid
    · rw [List.mem_singleton.mp hnew]
      rw [hsource] at hid
      exact Option.some.inj hid

/-! ## Events of others -/

/-- Whether a payload is no evidence of the broker. -/
def isForeign : Payload → Bool
  | .breakerState _ | .healthState _ | .paperCycle _ | .paperCycleAttempt _ | .alertAttempt _
  | .alertFailure .. => true
  | .other eventType _ => eventType ∉ evidenceTypes
  | _ => false

/-- An event of another component keeps the account coherent. -/
theorem Coherent.foreign {e : StoredEvent} (hforeign : isForeign e.payload = true) {p : Projection}
    (hreplay : rebuildFromEvents (log ++ [e]) = .ok p)
    (hids : ((log ++ [e]).map (·.eventId)).Nodup) :
    Coherent (log ++ [e]) { a with projection := p } := by
  have hquiet : isQuiet e.payload = true := by
    cases hpayload : e.payload <;> simp_all [isForeign, isQuiet]
  have hnone : readStopSet e.payload = none ∧ readStopTerminal e.payload = none ∧
      readPosition e.payload = none := by
    cases hpayload : e.payload <;>
      simp_all [isForeign, readStopSet, readStopTerminal, readPosition]
  have hnamed : Named e := by
    cases hpayload : e.payload <;> simp_all [isForeign, Named, malformed]
  have hstops : scanStops (log ++ [e]) = .ok a.stops :=
    scanStops_append h.stops (view_singleton_none hnone.1) (view_singleton_none hnone.2.1)
  exact h.quiet hquiet hreplay hids hnamed hstops ⟨[], by simp, by simp⟩ ⟨[], by simp, by simp⟩
    (by rw [view_singleton_none hnone.2.2]; rfl) h.openSource

end

end AutoBit.Broker
