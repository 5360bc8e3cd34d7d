import AutoBit.Broker.Requests

/-!
# The trigger of a stop

A stop that triggers submits an order for the whole inventory, fills it within the candle,
and ends every open stop. Until the last of these ends the account owes the verifier the end
of the stop that triggered.
-/

namespace AutoBit.Broker

open Library Store Strategy

section

variable {log : List StoredEvent} {a : Account} (h : Coherent log a)
include h

/-- A stop that was still open could trigger at the next fill. -/
theorem Coherent.eligibleVersions_eq {fill : Stamped RawFill}
    (hlater : log.length < fill.sequence) :
    eligibleVersions a.stops fill =
      (a.stops.open_.filter (·.activeAfterUtc ≤ fill.occurredAtUtc)).map (·.stopId) := by
  have hscanned := scanned_of_scanStops h.stops
  have hended : a.stops.terminals.filter (·.sequence < fill.sequence) = a.stops.terminals := by
    rw [List.filter_eq_self]
    intro terminal hterminal
    rw [hscanned.terminals] at hterminal
    have hle := (view_sequence h.envelopes hterminal).2
    exact decide_eq_true (by omega)
  have hset : ∀ stop ∈ a.stops.known, stop.sequence < fill.sequence := by
    intro stop hstop
    obtain ⟨set, hmem, -, hsequence, -⟩ := hscanned.stop_of_known hstop
    have hle := (view_sequence h.envelopes hmem).2
    omega
  rw [eligibleVersions, hended, hscanned.open_, List.filter_filter, List.filter_map, List.map_map]
  congr 1
  apply List.filter_congr
  intro stop hstop
  rw [Bool.eq_iff_iff]
  simp only [decide_eq_true_eq, Function.comp_apply, Bool.and_eq_true]
  constructor
  · rintro ⟨-, hopen, hactive⟩
    exact ⟨hactive, hopen⟩
  · rintro ⟨hactive, hopen⟩
    exact ⟨hset stop hstop, hopen, hactive⟩

/-- No order of the account came from an open stop. -/
theorem Coherent.trigger_new (hsettled : Settled a) {stop : PaperStop}
    (hstop : stop ∈ a.stops.open_)
    (candle : ℤ) (quantity : ℚ) :
    findPaperOrder a.orders (stopSubmission stop candle quantity).key.orderId = none := by
  rw [findPaperOrder, List.find?_eq_none]
  intro order horder hid
  have hterms := h.terms horder
  have hstopId := (h.stop_valid hstop).stopId
  have hparent : order.parentOrderId = some stop.stopId := by
    have hsame : order.idempotencyKey.orderId = (stopSubmission stop candle quantity).key.orderId := by
      rw [← hterms.orderId]
      simpa using hid
    rw [hterms.key] at hsame
    simp only [OrderKey.orderId, orderIdentity, stopSubmission, PaperId.order.injEq] at hsame
    have hparent := hsame.2.2.2
    rw [hstopId] at hparent ⊢
    simp only [parentIdentity] at hparent ⊢
    split at hparent <;> simp_all
  have hkind : order.orderKind = .stop := by
    cases hkind : order.orderKind with
    | stop => rfl
    | market => exact absurd hparent (h.parent_ne_stop horder hkind hstop)
  obtain ⟨terminal, hterminal, hidentity⟩ :=
    List.mem_map.mp (hsettled.triggers order horder hkind)
  obtain ⟨hmem, htriggered⟩ := List.mem_filter.mp hterminal
  obtain ⟨related, _, fill, hrelated, -, -, -, -, -, -, -, hancestry⟩ :=
    validateTerminal_eq_ok.mp (h.terminals terminal hmem)
  rw [hidentity, findPaperOrder_of_mem h.nodup horder, Option.some.injEq] at hrelated
  have htriggered : terminal.body.action = .triggered := by simpa using htriggered
  simp only [validateTerminalAncestry, htriggered, Except.bind_eq_ok, reject_eq_ok,
    not_not] at hancestry
  obtain ⟨_, hsame, -⟩ := hancestry
  rw [← hrelated, hparent, Option.some.injEq] at hsame
  obtain ⟨-, -, -, hopen⟩ := (scanned_of_scanStops h.stops).mem_open hstop
  exact hopen (List.mem_map.mpr ⟨terminal, hmem, hsame.symm⟩)

end

/-- The submission of a stop that may trigger is valid. -/
theorem stopSubmission_valid {stop : PaperStop} (hvalid : stop.Valid) {candle : ℤ} {quantity : ℚ}
    (hcandle : IsBoundary candle) (hactive : stop.activeAfterUtc ≤ candle)
    (hquantity : 0 < quantity) :
    (stopSubmission stop candle quantity).Valid := by
  have hspan : (0 : ℤ) < fourHours := by decide
  have hobserved : stop.observedAtUtc ≤ candle := by
    rcases hvalid.active with hsame | hnext
    · omega
    · unfold nextBoundary at hnext
      omega
  refine ⟨hvalid.reason, hquantity, hvalid.feeRate, hvalid.slippageRate, ?_, hvalid.observed, hcandle,
    (validateKind_stop rfl).mpr ⟨⟨rfl, ?_⟩, hobserved⟩, rfl, rfl⟩
  · change some stop.stopId ≠ _
    rw [hvalid.stopId]
    simp
  · change (some stop.stopId).any PaperId.isStop = true
    rw [hvalid.stopId]
    rfl

/-- The order that a stop submits when it triggers. -/
def triggerOrder (stop : PaperStop) (candle : ℤ) (quantity : ℚ) : PaperOrder :=
  (stopSubmission stop candle quantity).order

/-- The fill of a stop that triggers. -/
def triggerFill (stop : PaperStop) (candle : ℤ) (reference quantity : ℚ) : PaperFill :=
  fillAt (triggerOrder stop candle quantity) candle reference quantity

/-- The events of the fill of a stop that triggers. -/
def triggerBlock (n : ℕ) (stop : PaperStop) (candle : ℤ) (reference quantity : ℚ) :
    List StoredEvent :=
  fillBlock n (triggerOrder stop candle quantity) (triggerFill stop candle reference quantity) true
    (remainderReason false)

/-- The order of a stop that has triggered, when it is filled. -/
def triggered (stop : PaperStop) (candle : ℤ) (reference quantity : ℚ) : PaperOrder :=
  filledOrder (triggerOrder stop candle quantity) (triggerFill stop candle reference quantity) true

section

variable {log : List StoredEvent} {a : Account} (h : Coherent log a) {stop : PaperStop}
  (hstop : stop ∈ a.stops.open_) {candle : ℤ} {reference : ℚ}
include h hstop

/-- The verifier recognises the order of a stop that triggered on the whole inventory. -/
theorem Coherent.trigger_ancestry (hactive : stop.activeAfterUtc ≤ candle)
    (hreference : reference ≤ stop.stopPrice)
    (horder : triggerOrder stop candle a.projection.btcQuantity ∈ a.orders) {p : Projection}
    (hreplay : rebuildFromEvents
      (log ++ triggerBlock log.length stop candle reference a.projection.btcQuantity) = .ok p)
    (hids : ((log ++ triggerBlock log.length stop candle reference
      a.projection.btcQuantity).map (·.eventId)).Nodup) (orders : List PaperOrder) :
    validateAncestry (log ++ triggerBlock log.length stop candle reference
        a.projection.btcQuantity) orders a.stops.known
      (triggered stop candle reference a.projection.btcQuantity) = .ok () := by
  have hstopId := (h.stop_valid hstop).stopId
  obtain ⟨known, hknown, rfl, -⟩ := (scanned_of_scanStops h.stops).mem_open hstop
  have hfound : a.stops.known.find? (·.body.stopId = known.body.stopId) = some known := by
    have hsome : (a.stops.known.find? (·.body.stopId = known.body.stopId)).isSome = true :=
      List.find?_isSome.mpr ⟨known, hknown, by simp⟩
    obtain ⟨found, hfound⟩ := Option.isSome_iff_exists.mp hsome
    have hid : found.body.stopId = known.body.stopId := by simpa using List.find?_some hfound
    rw [hfound, List.inj_on_of_nodup_map (scanned_of_scanStops h.stops).ids
      (List.mem_of_find?_eq_some hfound) hknown hid]
  have hfills : fillsOf (log ++ triggerBlock log.length known.body candle reference
      a.projection.btcQuantity) (triggerOrder known.body candle a.projection.btcQuantity).orderId =
        [fillStamp log.length (triggerFill known.body candle reference
          a.projection.btcQuantity)] := by
    rw [fillsOf_append_block, h.accepted_fills horder rfl, fillsOf, triggerBlock, fillBlock_fill,
      List.filter_cons_of_pos, List.filter_nil]
    · rfl
    · exact decide_eq_true rfl
  have hbefore : inventoryBeforeSequence (log.length + 1) (log ++ triggerBlock log.length known.body
      candle reference a.projection.btcQuantity) = .ok a.projection.btcQuantity := by
    have hprefix := beforeSequence_block (envelopes_of_rebuild hreplay) 0
    simp only [Nat.add_zero, List.take_zero, List.append_nil] at hprefix
    rw [inventoryBeforeSequence_eq hreplay, hprefix, balance_eq h.replay]
  have hmetadata : fillMetadataOf (log ++ triggerBlock log.length known.body candle reference
      a.projection.btcQuantity) (triggerFill known.body candle reference
        a.projection.btcQuantity).fillId = some ⟨log.length + 3, .fillMeta (triggerFill known.body
          candle reference a.projection.btcQuantity).fillId, candle, (triggerFill known.body candle
          reference a.projection.btcQuantity).metadata (triggerOrder known.body candle
            a.projection.btcQuantity)⟩ := by
    have hnone : ExecutionsOf (triggerOrder known.body candle
        a.projection.btcQuantity).orderId [] := by
      intro e he
      cases he
    exact h.fillMetadataOf_block hnone hids
  have hparent : (triggered known.body candle reference a.projection.btcQuantity).parentOrderId =
      some known.body.stopId := rfl
  have hneither : known.body.stopId.isOrder = false ∧ known.body.stopId.isStop = true := by
    rw [hstopId]
    exact ⟨rfl, rfl⟩
  simp only [validateAncestry, hparent, hneither, Bool.false_eq_true, if_false, if_true,
    validateStopOrder, Except.bind_eq_ok, require_eq_ok, reject_eq_ok, not_not]
  exact ⟨⟨⟩, rfl, known, hfound, ⟨⟩, ⟨rfl, rfl, hactive, rfl, rfl⟩, ⟨⟩, rfl, _,
    by rw [← onlyFill_eq_some] at hfills; exact hfills, _, hbefore, ⟨⟩,
    by simp [triggered, filledOrder, triggerOrder, Submission.order, paperOrder,
      Submission.metadata, stopSubmission, fillStamp, triggerFill, fillAt, PaperFill.raw],
    _, hmetadata, hreference⟩

end

/-- What the trigger of a stop leaves: no open stop, no inventory, and the end of every stop that
was open. -/
structure Closed (a a' : Account) (stop : PaperStop) (identity : PaperId) : Prop where
  known : a'.stops.known = a.stops.known
  open_ : a'.stops.open_ = []
  flat : a'.projection.btcQuantity = 0
  terminals : ∃ more, a'.stops.terminals = a.stops.terminals ++ more ∧
    more.map (·.body) = a.stops.open_.map fun other =>
      ⟨if other.stopId = stop.stopId then .triggered else .canceled, identity, other.stopId⟩

section

variable {db db₁ db₂ db' : Database} {a : Account} {stop : PaperStop} {candle : ℤ} {reference : ℚ}

/-- The execution of the order of a stop fills it completely. -/
theorem Coherent.execute_trigger (h : Coherent db.events a) (hverified : Verified db)
    (hstop : stop ∈ a.stops.open_) (hactive : stop.activeAfterUtc ≤ candle) (hpos : 0 < reference)
    (hreference : reference ≤ stop.stopPrice) (hheld : 0 < a.projection.btcQuantity)
    (horder : triggerOrder stop candle a.projection.btcQuantity ∈ a.orders)
    {result : Option PaperFill}
    (hok : processOrder db (triggerOrder stop candle a.projection.btcQuantity) candle reference none
      [] = .ok (result, db')) :
    result = some (triggerFill stop candle reference a.projection.btcQuantity) ∧
      ∃ p scan trade source, Coherent db'.events { a with
          projection := p
          orders := setOrder a.orders
            (triggered stop candle reference a.projection.btcQuantity)
          scan, trade, source } ∧ Verified db' ∧ p.btcQuantity = 0 ∧
        Flattened db'.events { a with
            projection := p
            orders := setOrder a.orders
              (triggered stop candle reference a.projection.btcQuantity)
            scan, trade, source }
          (triggered stop candle reference a.projection.btcQuantity)
          (fillStamp db.events.length (triggerFill stop candle reference
            a.projection.btcQuantity)) := by
  have hremaining : (triggerOrder stop candle a.projection.btcQuantity).remainderQuantity =
      a.projection.btcQuantity := sub_zero _
  obtain ⟨-, -, db₁, hbefore, hexecuted⟩ := h.processOrder_executed hverified horder rfl hok
  rw [Option.getD_none, hremaining] at hbefore hexecuted
  cases hexecuted with
  | rejected hbound => cases hbound
  | insufficient _ hside => cases hside
  | @filled db₂ db₃ _ _ _ hblock hcontinued hprotected =>
    have hsame : db₂ = db' := by
      cases hcontinued with
      | whole =>
        simp only [cancelProtection, triggerOrder, Submission.order, paperOrder,
          Submission.metadata, stopSubmission, reduceCtorEq, and_false, if_false,
          Except.pure_eq_ok] at hprotected
        exact hprotected
      | child hpart => exact absurd hremaining.symm hpart
    subst hsame
    have hattempt : Attempt db.events a (triggerOrder stop candle a.projection.btcQuantity)
        reference a.projection.btcQuantity :=
      ⟨h, horder, rfl, hpos, hheld, hremaining.ge, fun hbuy => by cases hbuy⟩
    have hcomplete : decide (a.projection.btcQuantity =
        (triggerOrder stop candle a.projection.btcQuantity).remainderQuantity) = true :=
      decide_eq_true hremaining.symm
    have hevents : db₂.events = db.events ++
        triggerBlock db.events.length stop candle reference a.projection.btcQuantity := by
      have hall := (hbefore.trans hblock).events
      rw [hbefore.events] at hall
      have hnone : attemptEvents db.events.length (triggerOrder stop candle
          a.projection.btcQuantity) reference a.projection.btcQuantity = [] := rfl
      rw [hnone, List.append_nil, List.nil_append] at hall
      rw [hall]
      congr 1
      change fillBlock _ _ _ (decide (a.projection.btcQuantity = _)) _ = _
      rw [hcomplete]
      rfl
    have hids := (hbefore.trans hblock).ids h.ids
    obtain ⟨p₀, hreplay, -⟩ := hblock.after.rebuild
    rw [hevents] at hids hreplay
    have hancestry := h.trigger_ancestry hstop hactive hreference horder hreplay hids
    have hdistinct : Distinguishable (triggerOrder stop candle a.projection.btcQuantity)
        a.projection.btcQuantity := fun hbound => by cases hbound
    obtain ⟨p, -, hfilling⟩ := hattempt.filling rfl hdistinct hbefore hblock (by
      intro _
      rw [hevents]
      rw [hcomplete]
      exact hancestry _)
    have hf : Filling db.events a (triggerOrder stop candle a.projection.btcQuantity) []
        (triggerFill stop candle reference a.projection.btcQuantity) true (remainderReason false)
        p := by
      rw [← hcomplete]
      exact hfilling
    obtain ⟨scan, trade, source, hcoherent, -⟩ := h.fillOrder hf
    obtain ⟨-, -, haccount, -⟩ := hf.projection h
    have hflat : p.btcQuantity = 0 := by
      have hsold := congrArg Prod.snd haccount
      change a.projection.btcQuantity - a.projection.btcQuantity = p.btcQuantity at hsold
      rw [← hsold, sub_self]
    have hflattened := hf.flattened h rfl rfl { a with
      projection := p
      orders := setOrder a.orders (triggered stop candle reference a.projection.btcQuantity)
      scan, trade, source } rfl hflat
    refine ⟨rfl, p, scan, trade, source, ?_, hblock.after, hflat, ?_⟩
    · rw [hevents]
      exact hcoherent
    · rw [hevents]
      exact hflattened

/-- A stop that triggers sells the whole inventory and ends every open stop. -/
theorem Sound.trigger (h : Sound db a) (hlast : (a.stops.open_.filter
      (·.activeAfterUtc ≤ candle)).getLast? = some stop) (hcandle : IsBoundary candle)
    (hpos : 0 < reference) (hreference : reference ≤ stop.stopPrice)
    (hheld : 0 < a.projection.btcQuantity) (hpending : a.projection.pendingOrders = [])
    {order : PaperOrder} (hsubmitted : submitOrder db
      (stopSubmission stop candle a.projection.btcQuantity) = .ok (order, db₁))
    {result : Option PaperFill}
    (hexecuted : Broker.processOrder db₁ order candle reference none [] = .ok (result, db₂))
    (hended : endStops db₂ a.stops.open_ candle stop.stopId
      (stopSubmission stop candle a.projection.btcQuantity).key.orderId = .ok db') :
    result = some (triggerFill stop candle reference a.projection.btcQuantity) ∧
      ∃ a', Sound db' a' ∧ Closed a a' stop
        (triggerOrder stop candle a.projection.btcQuantity).orderId := by
  obtain ⟨hstop, hactive⟩ : stop ∈ a.stops.open_ ∧ stop.activeAfterUtc ≤ candle := by
    simpa using List.mem_filter.mp (List.mem_of_getLast? hlast)
  have hvalid := stopSubmission_valid (h.coherent.stop_valid hstop) hcandle hactive hheld
  -- the order of the stop
  obtain ⟨rfl, -, happends⟩ := h.coherent.submitOrder h.verified
    (h.coherent.trigger_new h.settled hstop candle _) hsubmitted
  obtain ⟨p₁, hreplay, -⟩ := happends.rebuild
  have hids := happends.ids h.coherent.ids
  rw [happends.events] at hids
  obtain ⟨-, -, -, hbtc⟩ := rebuild_submission h.coherent.replay hreplay
  have hstopId := (h.coherent.stop_valid hstop).stopId
  have hcoherent₁ := h.coherent.submit hvalid hreplay hids (h.idle hpending)
    (by
      change a.projection.btcQuantity - 0 ≤ a.projection.btcQuantity
      rw [sub_zero])
    (fun parent hparent _ => by
      obtain rfl : stop.stopId = parent := Option.some.inj hparent
      rw [hstopId]
      rfl)
    (fun _ _ hkind => by cases hkind)
  rw [← happends.events] at hcoherent₁
  -- its fill
  have hexecution := hcoherent₁.execute_trigger happends.after hstop hactive hpos hreference
    (by rw [hbtc]; exact hheld) (by
      rw [hbtc]
      exact List.mem_append_right _ (List.mem_singleton_self _)) (by rw [hbtc]; exact hexecuted)
  simp only [hbtc] at hexecution
  obtain ⟨hresult, p₂, scan, trade, source, hcoherent₂, hverified₂, hflat, hflattened⟩ := hexecution
  -- the end of every stop
  have hends : ∀ other ∈ a.stops.open_, EndsBy a.stops
      (triggered stop candle reference a.projection.btcQuantity)
      (fillStamp db₁.events.length (triggerFill stop candle reference a.projection.btcQuantity))
      other (if other.stopId = stop.stopId then .triggered else .canceled) := by
    intro other hother
    split
    · rename_i hsame
      have hscanned := scanned_of_scanStops h.coherent.stops
      obtain rfl : other = stop :=
        List.inj_on_of_nodup_map hscanned.open_nodup hother hstop hsame
      refine ⟨rfl, rfl, hactive, ?_⟩
      have hlater : db.events.length < (fillStamp db₁.events.length
          (triggerFill other candle reference a.projection.btcQuantity)).sequence := by
        change db.events.length < db₁.events.length + 1
        rw [happends.events, List.length_append]
        omega
      rw [h.coherent.eligibleVersions_eq hlater, List.getLast?_map]
      change Option.map _ (a.stops.open_.filter (·.activeAfterUtc ≤ candle)).getLast? = _
      rw [hlast]
      rfl
    · rename_i hne
      intro hparent
      exact hne (Option.some.inj hparent).symm
  obtain ⟨p₃, more, hcoherent₃, hverified₃, hzero, hmore⟩ :=
    hcoherent₂.endStops hverified₂ hflattened hends hended
  refine ⟨hresult, _, ⟨hcoherent₃, ?_, hverified₃⟩, rfl, rfl, hzero, more, rfl, hmore⟩
  have hnew := h.coherent.trigger_new h.settled hstop candle a.projection.btcQuantity
  have hsameParent : ∀ x ∈ a.orders ++ [triggerOrder stop candle a.projection.btcQuantity],
      x.orderId = (triggered stop candle reference a.projection.btcQuantity).orderId →
        x.parentOrderId = (triggered stop candle reference
          a.projection.btcQuantity).parentOrderId := by
    intro x hx hid
    rcases List.mem_append.mp hx with hold | hlast
    · have hother : ¬x.orderId =
          (stopSubmission stop candle a.projection.btcQuantity).key.orderId := by
        simpa using List.find?_eq_none.mp hnew x hold
      exact absurd hid hother
    · rw [List.mem_singleton.mp hlast]
      rfl
  refine ⟨?_, fun hopen => absurd rfl hopen, ?_⟩
  · intro x hx hside hcanceled hfilled hremaining
    rcases mem_setOrder hx with rfl | ⟨hold, hne⟩
    · cases hcanceled
    · rcases List.mem_append.mp hold with hold | hlast
      · have hchild := h.settled.children x hold hside hcanceled hfilled hremaining
        intro hnil
        have hlength := (childrenOf_setOrder hsameParent x.orderId).symm.trans
          (congrArg List.length hnil)
        rw [childrenOf_append, List.length_append, List.length_nil] at hlength
        exact hchild (List.length_eq_zero_iff.mp (by omega))
      · rw [List.mem_singleton.mp hlast] at hne
        exact absurd rfl hne
  · intro x hx hkind
    rcases mem_setOrder hx with rfl | ⟨hold, hne⟩
    · -- the stop itself has triggered
      have hbody : (⟨.triggered, (triggerOrder stop candle a.projection.btcQuantity).orderId,
          stop.stopId⟩ : StopTerminal) ∈ more.map (·.body) := by
        rw [hmore]
        refine List.mem_map.mpr ⟨stop, hstop, ?_⟩
        rw [if_pos rfl]
        rfl
      obtain ⟨terminal, hterminal, hsame⟩ := List.mem_map.mp hbody
      refine List.mem_map.mpr ⟨terminal, List.mem_filter.mpr
        ⟨List.mem_append_right _ hterminal, ?_⟩, ?_⟩
      · simp [hsame]
      · simp only [hsame]
        rfl
    · rcases List.mem_append.mp hold with hold | hlast
      · obtain ⟨terminal, hterminal, hid⟩ := List.mem_map.mp (h.settled.triggers x hold hkind)
        obtain ⟨hmem, htriggered⟩ := List.mem_filter.mp hterminal
        exact List.mem_map.mpr ⟨terminal, List.mem_filter.mpr
          ⟨List.mem_append_left _ hmem, htriggered⟩, hid⟩
      · rw [List.mem_singleton.mp hlast] at hne
        exact absurd rfl hne

end

/-- A stop triggers in a candle that reaches down to it, at the lower of the open and its price. -/
theorem triggerReference_eq {stop : PaperStop} {openPrice lowPrice : ℚ} (h : lowPrice ≤ openPrice) :
    triggerReference stop openPrice lowPrice =
      if lowPrice ≤ stop.stopPrice then some (min openPrice stop.stopPrice) else none := by
  unfold triggerReference
  by_cases hopen : openPrice ≤ stop.stopPrice
  · rw [if_pos hopen, if_pos (h.trans hopen), min_eq_left hopen]
  · rw [if_neg hopen, min_eq_right (not_le.mp hopen).le]

/-- The stop that could trigger in a candle: the last open one that is active by then. -/
def eligibleStop (stops : List PaperStop) (candle : ℤ) : Option PaperStop :=
  (stops.filter (·.activeAfterUtc ≤ candle)).getLast?

/-- `process_intrabar_stop` leaves everything as it was when the candle stays above the stop that
could trigger, and lets this stop trigger otherwise. -/
theorem Sound.processIntrabarStop_cases {db db' : Database} {a : Account} (h : Sound db a)
    {candle : ℤ} {openPrice lowPrice : ℚ} {result : Option PaperFill}
    (hok : processIntrabarStop db candle openPrice lowPrice = .ok (result, db')) :
    (IsBoundary candle ∧ 0 < lowPrice ∧ lowPrice ≤ openPrice) ∧
      ((result = none ∧ db' = db ∧
          ∀ stop ∈ eligibleStop a.stops.open_ candle, stop.stopPrice < lowPrice) ∨
        ∃ stop ∈ eligibleStop a.stops.open_ candle, lowPrice ≤ stop.stopPrice ∧
          a.projection.pendingOrders = [] ∧ 0 < a.projection.btcQuantity ∧
          result = some (triggerFill stop candle (min openPrice stop.stopPrice)
            a.projection.btcQuantity) ∧
          ∃ a', Sound db' a' ∧ Closed a a' stop
            (triggerOrder stop candle a.projection.btcQuantity).orderId) := by
  simp only [processIntrabarStop, requirePositive, Except.bind_eq_ok, reject_eq_ok, not_not,
    not_le, not_lt, h.ledger, Except.ok.injEq] at hok
  obtain ⟨_, hcandle, _, hopen, _, hlow, _, hle, ledger, rfl, hok⟩ := hok
  refine ⟨⟨hcandle, hlow, hle⟩, ?_⟩
  have hlast : ((a.ledger db.events).openStops.filter (·.activeAfterUtc ≤ candle)).getLast? =
      eligibleStop a.stops.open_ candle := rfl
  rw [hlast] at hok
  cases heligible : eligibleStop a.stops.open_ candle with
  | none =>
    rw [heligible] at hok
    cases hok
    exact Or.inl ⟨rfl, rfl, by simp⟩
  | some stop =>
    simp only [heligible, triggerReference_eq hle] at hok
    by_cases hreach : lowPrice ≤ stop.stopPrice
    · rw [if_pos hreach] at hok
      simp only [Except.bind_eq_ok] at hok
      obtain ⟨_, hheld, _, hpending, ⟨order, db₁⟩, hsubmitted, ⟨fill, db₂⟩, hexecuted, db₃, hended,
        hok⟩ := hok
      have hheld := not_le.mp (reject_eq_ok.mp hheld)
      have hpending := not_not.mp (reject_eq_ok.mp hpending)
      simp only [Except.pure_eq_ok, Prod.mk.injEq] at hok
      obtain ⟨rfl, rfl⟩ := hok
      have hpos : 0 < min openPrice stop.stopPrice :=
        lt_min (hlow.trans_le hle) (hlow.trans_le hreach)
      obtain ⟨hresult, a', hsound, hclosed⟩ := h.trigger heligible hcandle hpos (min_le_right _ _)
        hheld hpending hsubmitted hexecuted hended
      exact Or.inr ⟨stop, rfl, hreach, hpending, hheld, hresult, a', hsound, hclosed⟩
    · rw [if_neg hreach] at hok
      cases hok
      refine Or.inl ⟨rfl, rfl, ?_⟩
      intro other hother
      cases hother
      exact not_le.mp hreach

end AutoBit.Broker
