import AutoBit.Broker.Frame

/-!
# Extending a coherent account

A block of evidence about one order at most keeps an account coherent as soon as what the
block itself says is valid: everything else is framed. The kinds of blocks that the broker
appends are built on this.
-/

namespace AutoBit.Broker

open Library Store

/-- What has to be checked about a block that takes one account to another. -/
structure Extension (log block : List StoredEvent) (a a' : Account) (subject : Option PaperId) :
    Prop where
  frame : Frame block a.orders a'.orders subject
  replay : rebuildFromEvents (log ++ block) = .ok a'.projection
  ids : ((log ++ block).map (·.eventId)).Nodup
  named : ∀ e ∈ block, Named e
  orders : List.Forall₂ (fun m o => orderFromMetadata (log ++ block) m = .ok o)
    (view readOrderMetadata (log ++ block)) a'.orders
  contexts : ∀ event ∈ view readContext block,
    validateContextEvent (log ++ block) a'.orders event = .ok ()
  executions : ∀ event ∈ view readExecution block,
    validateExecutionEvent (log ++ block) a'.orders event = .ok ()
  executed : ∀ order ∈ a'.orders, some order.orderId = subject →
    order.executionContext.isSome = true → order.status ≠ .accepted →
    executionOf (log ++ block) order.orderId ≠ none
  matched : Matched (log ++ block)
  ancestry : ∀ order ∈ a'.orders, some order.orderId = subject →
    ¬(order.orderKind = .stop ∧ order.status = .accepted) →
    validateAncestry (log ++ block) a'.orders a'.stops.known order = .ok ()
  children : ∀ order ∈ a'.orders, (childrenOf a'.orders order.orderId).length ≤ 1
  stops : scanStops (log ++ block) = .ok a'.stops
  known : ∃ more, a'.stops.known = a.stops.known ++ more ∧ ∀ stop ∈ more,
    log.length < stop.sequence ∧
      validateStopSource (log ++ block) a'.orders a'.scan.fills stop = .ok ()
  terminals : ∃ more, a'.stops.terminals = a.stops.terminals ++ more ∧ ∀ terminal ∈ more,
    log.length < terminal.sequence ∧
      validateTerminal (log ++ block) a'.orders a'.stops terminal = .ok () ∧
      (terminal.body.action = .triggered → ∃ order ∈ a'.orders, order.orderKind = .stop ∧
        order.orderId = terminal.body.identity)
  scan : (view readFill block).foldlM (scanFill (log ++ block) a'.orders) a.scan = .ok a'.scan
  fills : ∃ more, a'.scan.fills = a.scan.fills ++ more ∧
    (∀ fill ∈ more, some fill.orderId = subject) ∧ more.foldlM scanTrade a.trade = .ok a'.trade
  held : Held a'.trade a'.projection.btcQuantity
  source : ((view readFill block).map (·.body)).foldlM sourceStep
    (a.projection.btcQuantity, a.source) = .ok (a'.projection.btcQuantity, a'.source)
  positions : (view readPosition block).foldlM
    (scanPosition (log ++ block) a'.orders a'.scan.fills) a.positions = .ok a'.positions
  filled : ∀ fill ∈ view readFill block, ∃ order ∈ a'.orders,
    order.orderId = fill.body.orderId ∧ order.side = fill.body.side ∧ 0 < order.filledQuantity
  stored : List.Forall₂ Agrees a'.projection.orders a'.orders
  active : (activeOrders a'.orders).length ≤ 1
  funded : ∀ order ∈ activeOrders a'.orders, Funded a'.projection.btcQuantity order
  openSource : ∀ stop ∈ a'.stops.open_, ∀ id ∈ a'.source, stop.sourceId = id

/-- What a longer log shows is shown by one of its parts. -/
theorem mem_view_append {α : Type} {read : Payload → Option α} {log block : List StoredEvent}
    {x : Stamped α} : x ∈ view read (log ++ block) ↔ x ∈ view read log ∨ x ∈ view read block := by
  rw [view_append, List.mem_append]

/-- A view shows nothing of an event that it does not read. -/
theorem view_singleton_none {α : Type} {read : Payload → Option α} {e : StoredEvent}
    (h : read e.payload = none) : view read [e] = [] := by
  simp [view, stamp, h]

/-- The paper orders of a well-named log have distinct identities. -/
theorem orders_nodup_of_named {log : List StoredEvent} {orders : List PaperOrder}
    (hids : (log.map (·.eventId)).Nodup) (hnamed : ∀ e ∈ log, Named e)
    (horders : List.Forall₂ (fun m o => orderFromMetadata log m = .ok o)
      (view readOrderMetadata log) orders) : (orders.map (·.orderId)).Nodup := by
  rw [orderIds_of_metadata horders]
  exact nodup_of_ids OrderMetadata.orderId EventId.orderMeta hids (metadata_named hnamed)

/-- A valid block keeps the account coherent. -/
theorem Coherent.extend {log block : List StoredEvent} {a a' : Account} {subject : Option PaperId}
    (h : Coherent log a) (hext : Extension log block a a' subject) :
    Coherent (log ++ block) a' := by
  have hnamed : ∀ e ∈ log ++ block, Named e := by
    intro e he
    rcases List.mem_append.mp he with hlog | hblock
    · exact h.named e hlog
    · exact hext.named e hblock
  have hnodup := orders_nodup_of_named hext.ids hnamed hext.orders
  -- an order that the block is not about stood in the account before
  have hother : ∀ order ∈ a'.orders, some order.orderId ≠ subject → order ∈ a.orders := by
    intro order horder hsubject
    have hfound := findPaperOrder_of_mem hnodup horder
    rw [hext.frame.others _ hsubject] at hfound
    exact (findPaperOrder_some hfound).1
  obtain ⟨known, hknown, hknownValid⟩ := hext.known
  obtain ⟨terminals, hterminals, hterminalsValid⟩ := hext.terminals
  obtain ⟨fills, hfills, hfillsSubject, htrade⟩ := hext.fills
  have hstops : a'.stops = ⟨a.stops.known ++ known, a'.stops.open_,
      a.stops.terminals ++ terminals⟩ := by
    rw [← hknown, ← hterminals]
  refine ⟨hext.replay, hext.ids, hnamed, hext.stops, hext.orders, ?_, ?_, ?_, hext.matched, ?_,
    hext.children, ?_, ?_, hext.held, ?_, ?_, ?_, ?_, ?_, ?_, hext.stored, hext.active,
    hext.funded, hext.openSource⟩
  · intro event hevent
    rcases mem_view_append.mp hevent with hlog | hblock
    · exact h.context_frame hext.replay hext.frame hlog
    · exact hext.contexts event hblock
  · intro event hevent
    rcases mem_view_append.mp hevent with hlog | hblock
    · exact h.execution_frame hext.replay hext.frame hlog
    · exact hext.executions event hblock
  · intro order horder hbound hstatus
    by_cases hsubject : some order.orderId = subject
    · exact hext.executed order horder hsubject hbound hstatus
    · rw [executionOf_append (hext.frame.silent _ hsubject)]
      exact h.executed order (hother order horder hsubject) hbound hstatus
  · intro order horder hopen
    by_cases hsubject : some order.orderId = subject
    · exact hext.ancestry order horder hsubject hopen
    · rw [hknown]
      exact h.ancestry_frame hext.replay hext.frame (hother order horder hsubject) hopen
        (Continues.refl order) (fun _ => rfl) known
  · rw [view_append, foldlM_append_eq_ok]
    exact ⟨a.scan, h.scan_frame hext.frame, hext.scan⟩
  · rw [hfills, foldlM_append_eq_ok]
    exact ⟨a.trade, h.trade, htrade⟩
  · rw [view_append, List.map_append, foldlM_append_eq_ok]
    exact ⟨_, h.source, hext.source⟩
  · intro stop hstop
    rw [hknown, List.mem_append] at hstop
    rcases hstop with hold | hnew
    · rw [hfills]
      exact h.stopSource_frame hext.replay hext.frame hold hfillsSubject
    · exact (hknownValid stop hnew).2
  · intro terminal hterminal
    rw [hterminals, List.mem_append] at hterminal
    rcases hterminal with hold | hnew
    · rw [hstops]
      exact h.terminal_frame hext.replay hext.frame hold (fun stop hstop => (hknownValid stop hstop).1)
        fun other hother => (hterminalsValid other hother).1
    · exact (hterminalsValid terminal hnew).2.1
  · intro id hid
    obtain ⟨terminal, hmem, rfl⟩ := List.mem_map.mp hid
    obtain ⟨hmem, haction⟩ := List.mem_filter.mp hmem
    rw [hterminals, List.mem_append] at hmem
    rcases hmem with hold | hnew
    · obtain ⟨order, horder, hkind, horderId⟩ := h.triggers terminal.body.identity
        (List.mem_map_of_mem (List.mem_filter.mpr ⟨hold, haction⟩))
      obtain ⟨order', hfound, _, _, _, _, rfl, -⟩ :=
        hext.frame.find_continues (findPaperOrder_of_mem h.nodup horder)
      exact ⟨_, (findPaperOrder_some hfound).1, hkind, horderId⟩
    · exact (hterminalsValid terminal hnew).2.2 (by simpa using haction)
  · rw [validatedPositionObservations, view_append, foldlM_append_eq_ok]
    refine ⟨a.positions, ?_, hext.positions⟩
    rw [hfills]
    exact h.positions_frame hext.replay hext.frame hfillsSubject
  · intro fill hfill
    rcases mem_view_append.mp hfill with hlog | hblock
    · obtain ⟨order, hfound, hside, hpos, hstatus⟩ := h.order_of_fill hlog
      have hfound' := hext.frame.find_settled hfound hstatus
      exact ⟨order, (findPaperOrder_some hfound').1, (findPaperOrder_some hfound').2, hside, hpos⟩
    · exact hext.filled fill hblock

/-! ## Orders under a growing log -/

/-- More fill metadata does not change how an order stands. -/
theorem orderOutcome_mono {key : OrderKey} {m : Stamped OrderMetadata} {bound : Bool}
    {fills : List (Stamped RawFill)} {fm fm' : EventId → Option (Stamped FillMetadata)}
    {rest : List (Stamped OrderTransition)} {r : ℚ × OrderStatus}
    (hmono : ∀ id x, fm id = some x → fm' id = some x)
    (h : orderOutcome key m bound fills fm rest = .ok r) :
    orderOutcome key m bound fills fm' rest = .ok r := by
  unfold orderOutcome at h ⊢
  split at h
  · exact h
  · rename_i fill
    rw [Except.bind_eq_ok] at h ⊢
    obtain ⟨u, hvalid, h⟩ := h
    refine ⟨u, hvalid, ?_⟩
    split at h
    · rename_i hcomplete
      rw [if_pos hcomplete]
      rw [Except.bind_eq_ok] at h ⊢
      obtain ⟨status, hstatus, h⟩ := h
      refine ⟨status, ?_, h⟩
      unfold validateCompleted at hstatus ⊢
      split at hstatus
      · simp only [Except.bind_eq_ok, Except.pure_eq_ok, reject_eq_ok, not_not] at hstatus ⊢
        obtain ⟨_, hkind, _, hid, _, ⟨x, hx, hcausal⟩, hrest⟩ := hstatus
        exact ⟨⟨⟩, hkind, ⟨⟩, hid, ⟨⟩, ⟨x, hmono _ x hx, hcausal⟩, hrest⟩
      · cases hstatus
    · rename_i hpart
      rw [if_neg hpart]
      rw [Except.bind_eq_ok] at h ⊢
      obtain ⟨status, hstatus, h⟩ := h
      refine ⟨status, ?_, h⟩
      unfold validatePartial at hstatus ⊢
      split at hstatus
      · simp only [Except.bind_eq_ok, Except.pure_eq_ok, reject_eq_ok, not_not] at hstatus ⊢
        obtain ⟨_, hkind, _, hfirst, _, hsecond, _, ⟨x, hx, hcausal⟩, hrest⟩ := hstatus
        exact ⟨⟨⟩, hkind, ⟨⟩, hfirst, ⟨⟩, hsecond, ⟨⟩, ⟨x, hmono _ x hx, hcausal⟩, hrest⟩
      · cases hstatus
  · cases h

/-- A block that does not mention an order leaves it as it is. -/
theorem orderFromMetadata_append {log block : List StoredEvent} {m : Stamped OrderMetadata}
    {order : PaperOrder} (hsilent : Silent block m.body.orderId)
    (h : orderFromMetadata log m = .ok order) : orderFromMetadata (log ++ block) m = .ok order := by
  rw [orderFromMetadata_eq_ok] at h ⊢
  rw [creationOf_append hsilent, contextOf_append hsilent, transitionsOf_append hsilent,
    fillsOf_append hsilent]
  obtain ⟨creation, context, key, submitted, accepted, rest, filled, status, hcreation, hcontext,
    hkey, hvalid, htransitions, haccepted, houtcome, rfl⟩ := h
  exact ⟨creation, context, key, submitted, accepted, rest, filled, status, hcreation, hcontext,
    hkey, hvalid, htransitions, haccepted,
    orderOutcome_mono (fun _ _ => fillMetadataOf_append) houtcome, rfl⟩

/-! ## Blocks that concern no order -/

/-- Whether a payload concerns no order. -/
def isQuiet : Payload → Bool
  | .orderCreated _ | .orderStatus _ | .fill _ | .paperOrder _ | .paperFill _
  | .paperEntryContext _ | .paperExecution _ => false
  | _ => true

/-- A quiet payload is read by none of the views of orders. -/
theorem reads_of_quiet {payload : Payload} (h : isQuiet payload = true) :
    readFill payload = none ∧ readOrderMetadata payload = none ∧
      readFillMetadata payload = none ∧ readContext payload = none ∧
      readExecution payload = none ∧ payload.isNeutral = true := by
  cases payload <;> first | exact ⟨rfl, rfl, rfl, rfl, rfl, rfl⟩ | cases h

/-- A quiet event mentions no order. -/
theorem silent_of_quiet {e : StoredEvent} (h : isQuiet e.payload = true) (id : PaperId) :
    Silent [e] id := by
  intro other hother
  obtain rfl := List.mem_singleton.mp hother
  cases hpayload : other.payload <;> simp [hpayload, isQuiet] at h <;> simp [mentions, hpayload]

/-- The projection after a quiet event. -/
structure Unmoved (s s' : Projection) : Prop where
  orders : s'.orders = s.orders
  cash : s'.cash = s.cash
  btcQuantity : s'.btcQuantity = s.btcQuantity

/-- A neutral event leaves the projection unmoved. -/
theorem unmoved_of_neutral {log : List StoredEvent} {e : StoredEvent} {s s' : Projection}
    (hneutral : e.payload.isNeutral = true) (hs : rebuildFromEvents log = .ok s)
    (hs' : rebuildFromEvents (log ++ [e]) = .ok s') : Unmoved s s' := by
  obtain ⟨t, ht, he⟩ := rebuild_snoc.mp hs'
  rw [hs] at ht
  cases ht
  obtain ⟨-, -, -, u, hu, rfl⟩ := replayEvent_eq_ok.mp he
  obtain ⟨horders, hcash, hbtc⟩ := replayPayload_neutral hneutral hu
  exact ⟨horders, hcash, hbtc⟩

/-- A quiet event keeps the account coherent when its stop or position evidence is valid. -/
theorem Coherent.quiet {log : List StoredEvent} {a : Account} (h : Coherent log a)
    {e : StoredEvent} (hquiet : isQuiet e.payload = true) {s : Projection}
    (hreplay : rebuildFromEvents (log ++ [e]) = .ok s)
    (hids : ((log ++ [e]).map (·.eventId)).Nodup) (hnamed : Named e) {stops : StopScan}
    (hstops : scanStops (log ++ [e]) = .ok stops)
    (hknown : ∃ more, stops.known = a.stops.known ++ more ∧ ∀ stop ∈ more,
      log.length < stop.sequence ∧
        validateStopSource (log ++ [e]) a.orders a.scan.fills stop = .ok ())
    (hterminals : ∃ more, stops.terminals = a.stops.terminals ++ more ∧ ∀ terminal ∈ more,
      log.length < terminal.sequence ∧
        validateTerminal (log ++ [e]) a.orders stops terminal = .ok () ∧
        (terminal.body.action = .triggered → ∃ order ∈ a.orders, order.orderKind = .stop ∧
          order.orderId = terminal.body.identity))
    {positions : List (Stamped PositionObservation)}
    (hpositions : (view readPosition [e]).foldlM
      (scanPosition (log ++ [e]) a.orders a.scan.fills) a.positions = .ok positions)
    (hsource : ∀ stop ∈ stops.open_, ∀ id ∈ a.source, stop.sourceId = id) :
    Coherent (log ++ [e]) { a with projection := s, stops, positions } := by
  have hsilent := silent_of_quiet hquiet
  obtain ⟨hfill, hmetadata, hfillMetadata, hcontext, hexecution, hneutral⟩ := reads_of_quiet hquiet
  replace hfill := view_singleton_none hfill
  replace hmetadata := view_singleton_none hmetadata
  replace hfillMetadata := view_singleton_none hfillMetadata
  replace hcontext := view_singleton_none hcontext
  replace hexecution := view_singleton_none hexecution
  have hunmoved := unmoved_of_neutral hneutral h.replay hreplay
  refine h.extend (?_ : Extension log [e] a { a with projection := s, stops, positions } none)
  refine {
    frame := ⟨fun id _ => hsilent id, fun _ _ => rfl, by simp, by simp⟩
    replay := hreplay
    ids := hids
    named := by simpa using hnamed
    orders := ?_
    contexts := by simp [hcontext]
    executions := by simp [hexecution]
    executed := by simp
    matched := ?_
    ancestry := by simp
    children := h.children
    stops := hstops
    known := hknown
    terminals := hterminals
    scan := by simp [hfill]
    fills := ⟨[], by simp, by simp, rfl⟩
    held := by simpa [hunmoved.btcQuantity] using h.held
    source := by simp [hfill, hunmoved.btcQuantity]
    positions := hpositions
    filled := by simp [hfill]
    stored := by simpa [hunmoved.orders] using h.stored
    active := h.active
    funded := by simpa [hunmoved.btcQuantity] using h.funded
    openSource := hsource }
  · rw [view_append, hmetadata, List.append_nil]
    exact h.orders.imp fun m order hok => orderFromMetadata_append (hsilent _) hok
  · constructor
    · intro fill hmem
      rw [view_append, hfill, List.append_nil] at hmem
      obtain ⟨x, hx⟩ := Option.isSome_iff_exists.mp (h.matched.described fill hmem)
      rw [fillMetadataOf_append hx]
      rfl
    · intro metadata hmem
      rw [view_append, hfillMetadata, List.append_nil] at hmem
      rw [view_append, hfill, List.append_nil]
      exact h.matched.real metadata hmem

end AutoBit.Broker
