import AutoBit.Broker.Protection

/-!
# The ends of stops

An exit that leaves the account flat ends every open stop, one event after the other, in the
order in which the stops were set. A stop that triggers is the last one that could.
-/

namespace AutoBit.Broker

open Library Store

/-- The event that ends a stop. -/
def endEvent (n : ℕ) (action : StopAction) (stop : PaperStop) (identity : PaperId) (at_ : ℤ) :
    StoredEvent :=
  ⟨n + 1, .stopTerminal action stop.stopId identity, at_,
    .paperStopTerminal ⟨action, identity, stop.stopId⟩⟩

/-- The same end, as the scan of the stops meets it. -/
def endStamp (n : ℕ) (action : StopAction) (stop : PaperStop) (identity : PaperId) (at_ : ℤ) :
    Stamped StopTerminal :=
  ⟨n + 1, .stopTerminal action stop.stopId identity, at_, ⟨action, identity, stop.stopId⟩⟩

/-- The stops after the end of one of them. -/
def StopScan.ended (scan : StopScan) (event : Stamped StopTerminal) : StopScan :=
  { scan with
    open_ := scan.open_.filter (·.stopId ≠ event.body.stopId)
    terminals := scan.terminals ++ [event] }

/-- An exit that has left the account flat, with its only fill. -/
structure Flattened (log : List StoredEvent) (a : Account) (order : PaperOrder)
    (fill : Stamped RawFill) : Prop where
  found : findPaperOrder a.orders order.orderId = some order
  side : order.side = .sell
  completed : order.status = .completed
  filled : fillsOf log order.orderId = [fill]
  described : ∃ metadata fillMeta, orderMetadataOf log order.orderId = some metadata ∧
    fillMetadataOf log fill.eventId = some fillMeta ∧ metadata.sequence < fill.sequence ∧
    fill.sequence < fillMeta.sequence
  flat : a.projection.btcQuantity = 0

/-- Whether an exit may end a stop in this way. -/
def EndsBy (scan : StopScan) (order : PaperOrder) (fill : Stamped RawFill) (stop : PaperStop) :
    StopAction → Prop
  | .triggered => order.orderKind = .stop ∧ order.parentOrderId = some stop.stopId ∧
      stop.activeAfterUtc ≤ fill.occurredAtUtc ∧
      (eligibleVersions scan fill).getLast? = some stop.stopId
  | .canceled => order.parentOrderId ≠ some stop.stopId

/-- The verifier accepts such an end, as long as the same stops were eligible. -/
theorem ancestry_of_endsBy {scan scan' : StopScan} {order : PaperOrder} {fill : Stamped RawFill}
    {stop : PaperStop} {action : StopAction}
    (hsame : eligibleVersions scan' fill = eligibleVersions scan fill)
    (hends : EndsBy scan order fill stop action) (n : ℕ) (identity : PaperId) (at_ : ℤ) :
    validateTerminalAncestry scan' (endStamp n action stop identity at_) order fill = .ok () := by
  cases action with
  | triggered =>
    obtain ⟨-, hparent, -, hlatest⟩ := hends
    rw [← hsame] at hlatest
    exact Except.bind_eq_ok.mpr ⟨⟨⟩, reject_eq_ok.mpr (not_not.mpr hparent),
      reject_eq_ok.mpr (not_not.mpr hlatest)⟩
  | canceled => exact reject_eq_ok.mpr hends

/-- The same stops are eligible at a fill after one more end. -/
theorem eligibleVersions_ended {scan : StopScan} {fill : Stamped RawFill}
    {terminal : Stamped StopTerminal} (hlater : fill.sequence ≤ terminal.sequence) :
    eligibleVersions (scan.ended terminal) fill = eligibleVersions scan fill := by
  have hsame := @eligibleVersions_append scan [] [terminal] fill (by simp) (by simpa using hlater)
    (scan.ended terminal).open_
  rwa [List.append_nil] at hsame

/-! ## Open stops -/

section

variable {log : List StoredEvent} {scan : StopScan} (h : Scanned log scan)
include h

/-- Open stops have distinct identities. -/
theorem Scanned.open_nodup : (scan.open_.map (·.stopId)).Nodup := by
  have hsub : (scan.open_.map (·.stopId)).Sublist (scan.known.map (·.body.stopId)) := by
    rw [h.open_, show scan.known.map (·.body.stopId) =
      (scan.known.map (·.body)).map (·.stopId) by rw [List.map_map]; rfl]
    exact List.filter_sublist.map _
  exact h.ids.sublist hsub

/-- An open stop is found by its identity. -/
theorem Scanned.find_open {stop : PaperStop} (hstop : stop ∈ scan.open_) :
    scan.open_.find? (·.stopId = stop.stopId) = some stop := by
  have hsome : (scan.open_.find? (·.stopId = stop.stopId)).isSome = true :=
    List.find?_isSome.mpr ⟨stop, hstop, by simp⟩
  obtain ⟨found, hfound⟩ := Option.isSome_iff_exists.mp hsome
  have hid : found.stopId = stop.stopId := by simpa using List.find?_some hfound
  rw [hfound, List.inj_on_of_nodup_map h.open_nodup (List.mem_of_find?_eq_some hfound) hstop hid]

/-- An open stop is a known one that has not ended. -/
theorem Scanned.mem_open {stop : PaperStop} (hstop : stop ∈ scan.open_) :
    ∃ known ∈ scan.known, known.body = stop ∧
      stop.stopId ∉ scan.terminals.map (·.body.stopId) := by
  rw [h.open_] at hstop
  obtain ⟨hknown, hopen⟩ := List.mem_filter.mp hstop
  obtain ⟨known, hmem, rfl⟩ := List.mem_map.mp hknown
  exact ⟨known, hmem, rfl, of_decide_eq_true hopen⟩

/-- The evidence of an open stop. -/
theorem Scanned.set_of_open {stop : PaperStop} (hstop : stop ∈ scan.open_) :
    ∃ e ∈ log, e.occurredAtUtc = stop.observedAtUtc := by
  obtain ⟨known, hknown, rfl, -⟩ := h.mem_open hstop
  obtain ⟨set, hset, hfrom, -⟩ := h.stop_of_known hknown
  obtain ⟨e, he, -, -, -, htime⟩ := mem_view.mp hset
  simp only [stopFromEvent, Except.bind_eq_ok, Except.pure_eq_ok] at hfrom
  obtain ⟨_, -, _, -, _, -, _, -, _, -, _, -, hbody⟩ := hfrom
  refine ⟨e, he, ?_⟩
  rw [htime, ← hbody]

end

/-! ## One end -/

section

variable {log : List StoredEvent} {a : Account} (h : Coherent log a) {order : PaperOrder}
  {fill : Stamped RawFill} (hflat : Flattened log a order fill)
include h hflat

/-- The end of an open stop by an exit that left the account flat keeps the account coherent. -/
theorem Coherent.endStop {stop : PaperStop} (hstop : stop ∈ a.stops.open_) {action : StopAction}
    (hends : EndsBy a.stops order fill stop action) {p : Projection}
    (hreplay : rebuildFromEvents
      (log ++ [endEvent log.length action stop order.orderId fill.occurredAtUtc]) = .ok p)
    (hids : ((log ++ [endEvent log.length action stop order.orderId fill.occurredAtUtc]).map
      (·.eventId)).Nodup) :
    Coherent (log ++ [endEvent log.length action stop order.orderId fill.occurredAtUtc])
      { a with
        projection := p
        stops := a.stops.ended (endStamp log.length action stop order.orderId
          fill.occurredAtUtc) } := by
  have hscanned := scanned_of_scanStops h.stops
  have hquiet : isQuiet (endEvent log.length action stop order.orderId
      fill.occurredAtUtc).payload = true := rfl
  have hraw : fill ∈ view readFill log :=
    (mem_of_fillsOf (hflat.filled ▸ List.mem_singleton_self fill)).1
  have hle := (view_sequence h.envelopes hraw).2
  -- the stop was observed before its end
  obtain ⟨set, hset, hobserved⟩ := hscanned.set_of_open hstop
  have htimes := (envelopes_of_rebuild hreplay).times
  have hcausal : stop.observedAtUtc ≤ fill.occurredAtUtc := by
    rw [← hobserved]
    exact (List.pairwise_append.mp htimes).2.2 set hset _ (List.mem_singleton_self _)
  have hvalid : validateStopTerminal (endStamp log.length action stop order.orderId
      fill.occurredAtUtc) stop = .ok () := by
    simp only [validateStopTerminal, Except.bind_eq_ok, reject_eq_ok, not_not, not_lt, not_and]
    refine ⟨⟨⟩, rfl, ⟨⟩, rfl, ⟨⟩, hcausal, ?_⟩
    rintro rfl
    exact hends.2.2.1
  have hstops : scanStops (log ++ [endEvent log.length action stop order.orderId
      fill.occurredAtUtc]) = .ok (a.stops.ended (endStamp log.length action stop order.orderId
        fill.occurredAtUtc)) :=
    foldlM_snoc_eq_ok.mpr ⟨a.stops, h.stops,
      scanStopTerminal_eq_ok.mpr ⟨stop, hscanned.find_open hstop, hvalid, rfl⟩⟩
  have heligible : eligibleVersions (a.stops.ended (endStamp log.length action stop order.orderId
      fill.occurredAtUtc)) fill = eligibleVersions a.stops fill :=
    eligibleVersions_ended (hle.trans (Nat.le_succ _))
  have hterminal : validateTerminal (log ++ [endEvent log.length action stop order.orderId
      fill.occurredAtUtc]) a.orders (a.stops.ended (endStamp log.length action stop order.orderId
        fill.occurredAtUtc)) (endStamp log.length action stop order.orderId
        fill.occurredAtUtc) = .ok () := by
    obtain ⟨metadata, fillMeta, hmetadata, hfillMeta, hbefore, hafter⟩ := hflat.described
    have hmetaLe := (view_sequence h.envelopes (List.mem_of_find?_eq_some hfillMeta)).2
    have hwhole := beforeSequence_block (envelopes_of_rebuild hreplay) 0
    simp only [Nat.add_zero, List.take_zero, List.append_nil] at hwhole
    have hfills : onlyFill (fillsOf (log ++ [endEvent log.length action stop order.orderId
        fill.occurredAtUtc]) order.orderId) = some fill := by
      rw [fillsOf_append (silent_of_quiet hquiet _), hflat.filled]
      rfl
    have hleft : inventoryBeforeSequence (log.length + 1) (log ++ [endEvent log.length action stop
        order.orderId fill.occurredAtUtc]) = .ok 0 := by
      rw [inventoryBeforeSequence_eq hreplay, hwhole, balance_eq h.replay, hflat.flat]
    refine validateTerminal_eq_ok.mpr ⟨order, metadata, fill, hflat.found,
      orderMetadataOf_append_some hmetadata, hflat.side, hflat.completed, hfills,
      ⟨fillMeta, fillMetadataOf_append hfillMeta, hbefore, hafter, Nat.lt_succ_of_le hmetaLe⟩, rfl,
      hleft, ?_⟩
    exact ancestry_of_endsBy heligible hends _ _ _
  refine h.quiet hquiet hreplay hids (by simp [Named, endEvent, malformed]) hstops
    ⟨[], by simp [StopScan.ended], by simp⟩ ⟨_, rfl, ?_⟩ (by rfl) ?_
  · intro terminal hmem
    rw [List.mem_singleton.mp hmem]
    refine ⟨Nat.lt_succ_self _, hterminal, ?_⟩
    rintro rfl
    exact ⟨order, (findPaperOrder_some hflat.found).1, hends.1, rfl⟩
  · intro other hother id hid
    exact h.openSource other (List.mem_filter.mp hother).1 id hid

/-- The exit is still what left the account flat. -/
theorem Flattened.quiet {e : StoredEvent} (hquiet : isQuiet e.payload = true) {a' : Account}
    (hreplay : rebuildFromEvents (log ++ [e]) = .ok a'.projection)
    (horders : a'.orders = a.orders) : Flattened (log ++ [e]) a' order fill := by
  obtain ⟨metadata, fillMeta, hmetadata, hfillMeta, hbefore, hafter⟩ := hflat.described
  have hneutral := (reads_of_quiet hquiet).2.2.2.2.2
  refine ⟨by rw [horders, hflat.found], hflat.side, hflat.completed, ?_,
    ⟨metadata, fillMeta, orderMetadataOf_append_some hmetadata, fillMetadataOf_append hfillMeta,
      hbefore, hafter⟩, ?_⟩
  · rw [fillsOf_append (silent_of_quiet hquiet _), hflat.filled]
  · rw [(unmoved_of_neutral hneutral h.replay hreplay).btcQuantity, hflat.flat]

end

/-! ## Every end -/

/-- Ending every open stop, each in its way, leaves none open. -/
theorem Coherent.endStops {db db' : Database} {a : Account} (h : Coherent db.events a)
    (hverified : Verified db) {order : PaperOrder} {fill : Stamped RawFill}
    (hflat : Flattened db.events a order fill) {choose : PaperStop → StopAction}
    (hends : ∀ stop ∈ a.stops.open_, EndsBy a.stops order fill stop (choose stop))
    (hok : a.stops.open_.foldlM (fun db stop => deactivateStop db stop fill.occurredAtUtc
      (choose stop) order.orderId) db = .ok db') :
    ∃ p more, Coherent db'.events { a with
        projection := p
        stops := ⟨a.stops.known, [], a.stops.terminals ++ more⟩ } ∧
      Verified db' ∧ p.btcQuantity = 0 ∧
      more.map (·.body) = a.stops.open_.map fun stop =>
        ⟨choose stop, order.orderId, stop.stopId⟩ := by
  generalize hstops : a.stops.open_ = stops at hends hok ⊢
  induction stops generalizing db a with
  | nil =>
    cases hok
    refine ⟨a.projection, [], ?_, hverified, hflat.flat, rfl⟩
    rw [List.append_nil, ← hstops]
    exact h
  | cons stop stops ih =>
    rw [List.foldlM_cons, Except.bind_eq_ok] at hok
    obtain ⟨db₁, hended, hok⟩ := hok
    have happends : Appends db [endEvent db.events.length (choose stop) stop order.orderId
        fill.occurredAtUtc] db₁ := (appendEvent_appended hended).appends
    obtain ⟨p, hreplay, -⟩ := happends.rebuild
    have hids := happends.ids h.ids
    have hmem : stop ∈ a.stops.open_ := by
      rw [hstops]
      exact List.mem_cons_self
    have hscanned := scanned_of_scanStops h.stops
    rw [happends.events] at hids
    have hnext := h.endStop hflat hmem (hends stop List.mem_cons_self) hreplay hids
    have hleft : (a.stops.ended (endStamp db.events.length (choose stop) stop
        order.orderId fill.occurredAtUtc)).open_ = stops := by
      have hnodup := hscanned.open_nodup
      rw [hstops, List.map_cons, List.nodup_cons] at hnodup
      simp only [StopScan.ended, hstops]
      rw [List.filter_cons_of_neg (by simp [endStamp]), List.filter_eq_self]
      intro other hother
      have hne : other.stopId ≠ stop.stopId := by
        intro hsame
        exact hnodup.1 (hsame ▸ List.mem_map_of_mem hother)
      simp [endStamp, hne]
    have hraw : fill ∈ view readFill db.events :=
      (mem_of_fillsOf (hflat.filled ▸ List.mem_singleton_self fill)).1
    have hle := (view_sequence h.envelopes hraw).2
    rw [← happends.events] at hnext
    have hlater : ∀ other ∈ stops, EndsBy (a.stops.ended (endStamp db.events.length (choose stop)
        stop order.orderId fill.occurredAtUtc)) order fill other (choose other) := by
      intro other hother
      have hsame := @eligibleVersions_ended a.stops fill (endStamp db.events.length (choose stop)
        stop order.orderId fill.occurredAtUtc) (hle.trans (Nat.le_succ _))
      have hold := hends other (List.mem_cons_of_mem _ hother)
      unfold EndsBy at hold ⊢
      split at hold
      · rw [hsame]
        exact hold
      · exact hold
    have hflat' : Flattened db₁.events { a with
        projection := p
        stops := a.stops.ended (endStamp db.events.length (choose stop) stop order.orderId
          fill.occurredAtUtc) } order fill := by
      rw [happends.events]
      exact hflat.quiet h rfl hreplay rfl
    obtain ⟨p', more, hcoherent, hverified', hzero, hmore⟩ :=
      ih hnext happends.after hflat' hleft hlater hok
    refine ⟨p', endStamp db.events.length (choose stop) stop order.orderId fill.occurredAtUtc :: more,
      ?_, hverified', hzero, ?_⟩
    · have heq : a.stops.terminals ++ [endStamp db.events.length (choose stop) stop order.orderId
          fill.occurredAtUtc] ++ more = _ := List.append_assoc _ _ _
      simp only [StopScan.ended, heq] at hcoherent
      exact hcoherent
    · rw [List.map_cons, List.map_cons, hmore]
      rfl

end AutoBit.Broker
