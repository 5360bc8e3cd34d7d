import AutoBit.Broker.Attempts

/-!
# What an execution settles

An execution ends an accepted order without a fill, with a complete fill, or with a partial
fill whose remainder is canceled. The remainder of an exit goes on in a child order, and an
exit that leaves the account flat ends the protective stops. Afterwards the account owes
nothing again.
-/

namespace AutoBit.Broker

open Library Store Strategy

/-- The stamp of the raw fill that a filling appends. -/
def fillStamp (n : ℕ) (fill : PaperFill) : Stamped RawFill :=
  ⟨n + 1, fill.fillId, fill.fillTime, fill.raw⟩

section

variable {log : List StoredEvent} {a : Account} {order : PaperOrder} {pre : List StoredEvent}
  {fill : PaperFill} {complete : Bool} {reason : String} {p : Projection} (h : Coherent log a)
  (hf : Filling log a order pre fill complete reason p)
include h hf

/-- The only fill of the order is the new one. -/
theorem Filling.fillsOf : fillsOf (log ++ (pre ++
    fillBlock (log.length + pre.length) order fill complete reason)) order.orderId =
      [fillStamp (log.length + pre.length) fill] := by
  rw [fillsOf_append_block, hf.fills, (h.accepted_fills hf.member hf.accepted)]
  rfl

/-- An exit that fills completely and leaves nothing flattens the account. -/
theorem Filling.flattened (hside : order.side = .sell) (hcomplete : complete = true) (a' : Account)
    (horders : a'.orders = setOrder a.orders (filledOrder order fill complete))
    (hbtc : a'.projection.btcQuantity = 0) :
    Flattened (log ++ (pre ++ fillBlock (log.length + pre.length) order fill complete reason)) a'
      (filledOrder order fill complete) (fillStamp (log.length + pre.length) fill) := by
  obtain ⟨m, hmem, -, hmetadata⟩ := h.metadata hf.member
  have hbound := (view_sequence h.envelopes hmem).2
  refine ⟨by rw [horders]; exact hf.find h, hside, ?_, hf.fillsOf h, ⟨m, _,
    orderMetadataOf_append_some hmetadata, hf.fillMetadataOf h, ?_, ?_⟩, hbtc⟩
  · rw [hcomplete]
    rfl
  · change m.sequence < log.length + pre.length + 1
    omega
  · change log.length + pre.length + 1 < log.length + pre.length + 3
    omega

/-- The child of a partial exit is valid, new and funded by what is left. -/
theorem Filling.remainder (hside : order.side = .sell) (hpart : complete = false)
    (hparent : order.parentOrderId.any PaperId.isOrder = false) :
    (remainderChild order order.eligibleOpenUtc
        (order.requestedQuantity - fill.quantity)).Valid ∧
      findPaperOrder (setOrder a.orders (filledOrder order fill complete))
        (remainderChild order order.eligibleOpenUtc
          (order.requestedQuantity - fill.quantity)).key.orderId = none ∧
      activeOrders (setOrder a.orders (filledOrder order fill complete)) = [] ∧
      childrenOf (setOrder a.orders (filledOrder order fill complete)) order.orderId = [] ∧
      Funded p.btcQuantity (remainderChild order order.eligibleOpenUtc
        (order.requestedQuantity - fill.quantity)).order ∧
      validateChild (log ++ (pre ++
          fillBlock (log.length + pre.length) order fill complete reason))
        (setOrder a.orders (filledOrder order fill complete))
        (remainderChild order order.eligibleOpenUtc
          (order.requestedQuantity - fill.quantity)).order order.orderId = .ok () := by
  have hterms := h.terms hf.member
  obtain ⟨hpos, hle, haccount, -⟩ := hf.projection h
  obtain ⟨horderId, hfillSide, -, htime, -⟩ := hf.terms
  have hne : fill.quantity ≠ order.requestedQuantity :=
    of_decide_eq_false (by rw [← hf.complete_eq, hpart])
  have hlt : fill.quantity < order.requestedQuantity := lt_of_le_of_ne hle hne
  have hactive : order.status.isActive = true := by
    rw [hf.accepted]
    rfl
  have hnew := h.remainder_new hf.member hf.accepted order.eligibleOpenUtc
    (order.requestedQuantity - fill.quantity)
  refine ⟨?_, ?_, ?_, ?_, ?_, ?_⟩
  · refine ⟨hterms.reason, sub_pos.mpr hlt, hterms.feeRate, hterms.slippageRate, ?_, hterms.eligible,
      ?_, ?_, rfl, rfl⟩
    · change some order.orderId ≠ _
      rw [hterms.orderId]
      simp [OrderKey.orderId]
    · exact IsBoundary.add_fourHours hterms.eligible
    · exact (validateKind_market rfl).mpr rfl
  · rw [find_setOrder_ne ?_]
    · exact hnew
    · intro hsame
      have hfound := findPaperOrder_of_mem h.nodup hf.member
      change _ = order.orderId at hsame
      rw [hsame, hfound] at hnew
      cases hnew
  · refine h.idle_of_ended hf.member hactive rfl ?_
    rw [hpart]
    rfl
  · have hsame : ∀ x ∈ a.orders, x.orderId = (filledOrder order fill complete).orderId →
        x.parentOrderId = (filledOrder order fill complete).parentOrderId := by
      intro x hx hxid
      rw [List.inj_on_of_nodup_map h.nodup hx hf.member hxid]
      rfl
    have hlength := childrenOf_setOrder hsame order.orderId
    rw [h.childrenOf_accepted hf.member hf.accepted] at hlength
    exact List.length_eq_zero_iff.mp hlength
  · have howned := (hf.owned h).2 hside
    have hbtc : p.btcQuantity = a.projection.btcQuantity - fill.quantity := by
      have hsold := congrArg Prod.snd haccount
      simpa [applyFill, PaperFill.raw, hfillSide, hside] using hsold.symm
    simp only [Funded, Submission.order, paperOrder, Submission.metadata, remainderChild,
      orderIdentity, sub_zero, hbtc]
    linarith
  · simp only [validateChild, Except.bind_eq_ok, require_eq_ok, reject_eq_ok, not_or, not_not,
      not_le, Bool.not_eq_true]
    refine ⟨filledOrder order fill complete, hf.find h, ⟨⟩, hparent, ⟨⟩, ⟨hside, rfl⟩, ⟨⟩, ⟨?_, hpos⟩,
      ⟨⟩, rfl, fillStamp (log.length + pre.length) fill, ?_, ⟨⟩, htime.symm, ⟨⟩, rfl, rfl, rfl⟩
    · rw [hpart]
      rfl
    · rw [hf.fillsOf h]
      rfl

end

/-- The children of an order in an account that gains some orders. -/
theorem childrenOf_append (orders more : List PaperOrder) (id : PaperId) :
    childrenOf (orders ++ more) id = childrenOf orders id ++ childrenOf more id :=
  List.filter_append _ _

/-- An account that owed nothing owes nothing after one of its orders has moved on, as long as
the remainder of a partial exit goes on and no stop protects a flat account. -/
theorem Settled.after {log : List StoredEvent} {a a' : Account} (h : Settled a)
    (hcoherent : Coherent log a) {order order' : PaperOrder} {more : List PaperOrder}
    (horder : order ∈ a.orders) (hcont : Continues order order')
    (hmarket : order.orderKind = .market) (horders : a'.orders = setOrder a.orders order' ++ more)
    (hmore : ∀ child ∈ more, child.orderKind = .market ∧ child.status = .accepted)
    (hpartly : order'.side = .sell → order'.status = .canceled → 0 < order'.filledQuantity →
      0 < order'.remainderQuantity → childrenOf more order.orderId ≠ [])
    (hstops : a'.stops.open_ ≠ [] → 0 < a'.projection.btcQuantity)
    (htriggers : triggeredOrders a.stops ⊆ triggeredOrders a'.stops) : Settled a' := by
  obtain ⟨hid, hparent, hkind⟩ : order'.orderId = order.orderId ∧
      order'.parentOrderId = order.parentOrderId ∧ order'.orderKind = order.orderKind := by
    obtain ⟨_, _, _, _, rfl, -⟩ := hcont
    exact ⟨rfl, rfl, rfl⟩
  have honly : ∀ x ∈ a.orders, x.orderId = order'.orderId →
      x.parentOrderId = order'.parentOrderId := by
    intro x hx hxid
    rw [List.inj_on_of_nodup_map hcoherent.nodup hx horder (by rw [hxid, hid]), hparent]
  refine ⟨?_, hstops, ?_⟩
  · intro x hx hside hcanceled hfilled hremaining
    rw [horders, childrenOf_append]
    rw [horders] at hx
    rcases List.mem_append.mp hx with hold | hnew
    · rcases mem_setOrder hold with rfl | ⟨hold, -⟩
      · rw [hid]
        have hchild := hpartly hside hcanceled hfilled hremaining
        intro hnil
        exact hchild (List.append_eq_nil_iff.mp hnil).2
      · have hchild := h.children x hold hside hcanceled hfilled hremaining
        have hlength := childrenOf_setOrder honly x.orderId
        intro hnil
        rw [(List.append_eq_nil_iff.mp hnil).1, List.length_nil] at hlength
        exact hchild (List.length_eq_zero_iff.mp hlength.symm)
    · rw [(hmore x hnew).2] at hcanceled
      cases hcanceled
  · intro x hx hstop
    rw [horders] at hx
    apply htriggers
    rcases List.mem_append.mp hx with hold | hnew
    · rcases mem_setOrder hold with rfl | ⟨hold, -⟩
      · rw [hkind, hmarket] at hstop
        cases hstop
      · exact h.triggers x hold hstop
    · rw [(hmore x hnew).1] at hstop
      cases hstop

/-- How a step of the broker can change the open stops: not at all, by ending all of them, or by
adding one that becomes active no earlier than the others. -/
inductive Protection (open_ : List PaperStop) : List PaperStop → Prop where
  | kept : Protection open_ open_
  | ended : Protection open_ []
  | set {stop : PaperStop} : (∀ active ∈ open_, active.activeAfterUtc ≤ stop.activeAfterUtc) →
      Protection open_ (open_ ++ [stop])

/-- A market order does not have a stop for its parent. -/
theorem Coherent.parent_ne_stop {log : List StoredEvent} {a : Account} (h : Coherent log a)
    {order : PaperOrder} (horder : order ∈ a.orders) (hmarket : order.orderKind = .market)
    {stop : PaperStop} (hstop : stop ∈ a.stops.open_) : order.parentOrderId ≠ some stop.stopId := by
  intro hparent
  obtain ⟨known, hknown, rfl, -⟩ := (scanned_of_scanStops h.stops).mem_open hstop
  obtain ⟨set, -, hfrom, -⟩ := (scanned_of_scanStops h.stops).stop_of_known hknown
  simp only [stopFromEvent, Except.bind_eq_ok, Except.pure_eq_ok, reject_eq_ok, not_or,
    not_not] at hfrom
  obtain ⟨_, -, _, -, _, -, _, ⟨hid, -⟩, _, -, _, -, hbody⟩ := hfrom
  have hstopId : known.body.stopId = .stop set.body.sourceId set.occurredAtUtc set.body.reason := by
    rw [← hbody]
    exact hid
  have hancestry := h.ancestry order horder (by simp [hmarket])
  simp [validateAncestry, hparent, hstopId, PaperId.isOrder, PaperId.isStop, validateStopOrder,
    hmarket, Except.bind_eq_ok] at hancestry

/-- An exit that leaves the account flat cancels the protective stops, and no other does. -/
theorem cancelProtection_cases {db db' : Database} {order : PaperOrder} {candle : ℤ}
    {stops : List PaperStop} {snapshot : PaperSnapshot} (hmarket : order.orderKind = .market)
    (hreplay : replayState db = .ok snapshot)
    (h : cancelProtection db order candle stops = .ok db') :
    (order.side = .sell ∧ snapshot.btcQuantity = 0 ∧ stops.foldlM (fun db stop =>
        deactivateStop db stop candle .canceled order.orderId) db = .ok db') ∨
      ((order.side = .buy ∨ snapshot.btcQuantity ≠ 0) ∧ db = db') := by
  unfold cancelProtection at h
  split at h
  · rename_i hexit
    rw [Except.bind_eq_ok] at h
    obtain ⟨found, hfound, h⟩ := h
    rw [hreplay, Except.ok.injEq] at hfound
    subst hfound
    split at h
    · rename_i hflat
      exact Or.inl ⟨hexit.1, hflat, h⟩
    · rename_i hheld
      exact Or.inr ⟨Or.inr hheld, Except.pure_eq_ok.mp h⟩
  · rename_i hentry
    refine Or.inr ⟨Or.inl ?_, Except.pure_eq_ok.mp h⟩
    cases hside : order.side with
    | buy => rfl
    | sell => exact absurd ⟨hside, hmarket⟩ hentry

/-- What the execution of a market order leaves of the protection of its account. -/
structure Executes (a a' : Account) (order : PaperOrder) : Prop where
  known : a'.stops.known = a.stops.known
  open_ : a'.stops.open_ = a.stops.open_ ∨ a'.stops.open_ = [] ∧ a'.projection.btcQuantity = 0
  idle : order.side = .buy → activeOrders a'.orders = []
  source : a'.projection.btcQuantity = 0 ∨ order.side = .sell ∧ a'.source = a.source ∨
    order.side = .buy ∧ a'.source = some order.orderId

/-- An execution changes the stops as a step of the broker may. -/
theorem Executes.protection {a a' : Account} {order : PaperOrder} (h : Executes a a' order) :
    Protection a.stops.open_ a'.stops.open_ := by
  rcases h.open_ with hkept | ⟨hended, -⟩
  · exact hkept ▸ .kept
  · exact hended ▸ .ended

section

variable {db db' : Database} {a : Account} (h : Sound db a) {order : PaperOrder}
  {reference attempted : ℚ} (hattempt : Attempt db.events a order reference attempted)
include h hattempt

/-- An attempt without a fill leaves the account owing nothing. -/
theorem Sound.unfilled {db₁ : Database} {step : StatusStep} {status : OrderStatus}
    {reason : String} (hmarket : order.orderKind = .market)
    (hstatus : status = .rejected ∨ status = .insufficientCash)
    (hbefore : Appends db (attemptEvents db.events.length order reference attempted) db₁)
    (hended : Appends db₁ [statusEvent db₁.events.length order order.eligibleOpenUtc step status
      reason] db')
    (hterminal : ∀ n, validateNoFillTerminal order.idempotencyKey order.eligibleOpenUtc
      order.executionContext.isSome ⟨n, .orderStatus (.status order.idempotencyKey step),
        order.eligibleOpenUtc, ⟨.status order.idempotencyKey step, order.orderId, some reason,
          status⟩⟩ = .ok ())
    (hrejected : ∀ context, order.bound = some context → min attempted
        (executionQuantity context order.feeRate
          (computedFillPrice reference order.slippageRate .buy) a.projection.cash) ≤ 0 ∧
      step = .executionCap order.eligibleOpenUtc ∧ status = .rejected ∧ reason = "EXECUTION_CAP") :
    ∃ a', Sound db' a' ∧ Executes a a' order := by
  obtain ⟨p, hcoherent, hbtc⟩ := hattempt.unfilled hmarket hbefore hended hterminal hrejected
  have hended' : status.isActive = false ∧ status ≠ .canceled := by
    rcases hstatus with rfl | rfl <;> exact ⟨rfl, by simp⟩
  have hactive : order.status.isActive = true := by
    rw [hattempt.accepted]
    rfl
  have hidle : activeOrders (setOrder a.orders { order with status }) = [] :=
    h.coherent.idle_of_ended hattempt.member hactive rfl hended'.1
  have hsourced : p.btcQuantity = 0 ∨ order.side = .sell ∧ a.source = a.source ∨
      order.side = .buy ∧ a.source = some order.orderId := by
    have hfunded := h.coherent.funded order (List.mem_filter.mpr ⟨hattempt.member, hactive⟩)
    unfold Funded at hfunded
    cases hside : order.side with
    | buy =>
      rw [hside] at hfunded
      exact Or.inl (hbtc.trans hfunded)
    | sell => exact Or.inr (Or.inl ⟨rfl, rfl⟩)
  refine ⟨_, ⟨hcoherent, ?_, hended.after⟩, rfl, Or.inl rfl, fun _ => hidle, hsourced⟩
  have hcont : Continues order { order with status } := ⟨_, _, _, _, rfl, Or.inr rfl⟩
  refine h.settled.after h.coherent hattempt.member hcont hmarket (List.append_nil _).symm (by simp)
    (fun _ hcanceled => absurd hcanceled hended'.2) ?_ (fun _ hid => hid)
  intro hopen
  change 0 < p.btcQuantity
  rw [hbtc]
  exact h.settled.stops hopen

/-- A fill that is not the first part of an exit leaves the account owing nothing, once the
protective stops of a flat account have ended. -/
theorem Sound.filled_whole {db₁ db₂ : Database} (hmarket : order.orderKind = .market)
    {quantity : ℚ} {capped : Bool} (hallowed : allowed order
      (computedFillPrice reference order.slippageRate order.side) a.projection.cash attempted =
        (quantity, capped)) (hdistinct : Distinguishable order quantity)
    (hbefore : Appends db (attemptEvents db.events.length order reference attempted) db₁)
    (hblock : Appends db₁ (fillBlock db₁.events.length order
      (fillAt order order.eligibleOpenUtc reference quantity)
      (decide (quantity = order.remainderQuantity)) (remainderReason capped)) db₂)
    (hwhole : quantity = order.remainderQuantity ∨ order.side = .buy)
    (hprotected : cancelProtection db₂ order order.eligibleOpenUtc a.stops.open_ = .ok db') :
    ∃ a', Sound db' a' ∧ Executes a a' order := by
  have hnotStop : order.orderKind ≠ .stop := by simp [hmarket]
  obtain ⟨p, hevents, hf⟩ := hattempt.filling hallowed hdistinct hbefore hblock
    (fun hstop => absurd hstop hnotStop)
  obtain ⟨scan, trade, source, hcoherent, -, hbought, hsold⟩ := h.coherent.fillOrder hf
  rw [← hevents] at hcoherent
  have hidle : activeOrders (setOrder a.orders (filledOrder order
      (fillAt order order.eligibleOpenUtc reference quantity)
      (decide (quantity = order.remainderQuantity)))) = [] := by
    refine h.coherent.idle_of_ended hattempt.member (by rw [hattempt.accepted]; rfl) rfl ?_
    change (finalStatus _).isActive = false
    cases decide (quantity = order.remainderQuantity) <;> rfl
  have hcont : Continues order (filledOrder order
      (fillAt order order.eligibleOpenUtc reference quantity)
      (decide (quantity = order.remainderQuantity))) := ⟨_, _, _, _, rfl, Or.inr rfl⟩
  have hpartly : (filledOrder order (fillAt order order.eligibleOpenUtc reference quantity)
        (decide (quantity = order.remainderQuantity))).side = .sell →
      (filledOrder order (fillAt order order.eligibleOpenUtc reference quantity)
        (decide (quantity = order.remainderQuantity))).status ≠ .canceled := by
    intro hsell
    rcases hwhole with hall | hbuy
    · rw [decide_eq_true hall]
      simp [filledOrder, finalStatus]
    · change order.side = .sell at hsell
      rw [hbuy] at hsell
      cases hsell
  rcases cancelProtection_cases hmarket (hcoherent.replayState_eq hblock.after) hprotected with
    ⟨hsell, hflat, hended⟩ | ⟨hheld, rfl⟩
  · -- the exit has left nothing: every stop is canceled
    have hall : quantity = order.remainderQuantity := by
      rcases hwhole with hall | hbuy
      · exact hall
      · rw [hsell] at hbuy
        cases hbuy
    have hflattened := hf.flattened h.coherent hsell (decide_eq_true hall) { a with
      projection := p
      orders := setOrder a.orders (filledOrder order
        (fillAt order order.eligibleOpenUtc reference quantity)
        (decide (quantity = order.remainderQuantity)))
      scan, trade, source } rfl hflat
    rw [← hevents] at hflattened
    have hends : ∀ stop ∈ a.stops.open_, EndsBy a.stops (filledOrder order
        (fillAt order order.eligibleOpenUtc reference quantity)
        (decide (quantity = order.remainderQuantity))) (fillStamp (db.events.length +
          (attemptEvents db.events.length order reference attempted).length)
          (fillAt order order.eligibleOpenUtc reference quantity)) stop .canceled :=
      fun stop hstop => h.coherent.parent_ne_stop hattempt.member hmarket hstop
    obtain ⟨p', more, hfinal, hverified, hzero, hmore⟩ :=
      hcoherent.endStops hblock.after hflattened hends hended
    refine ⟨_, ⟨hfinal, ?_, hverified⟩, rfl, Or.inr ⟨rfl, hzero⟩, fun _ => hidle,
      Or.inl hzero⟩
    refine h.settled.after h.coherent hattempt.member hcont hmarket (List.append_nil _).symm
      (by simp) (fun hside hcanceled => absurd hcanceled (hpartly hside)) (by simp) ?_
    intro id hid
    obtain ⟨terminal, hterminal, rfl⟩ := List.mem_map.mp hid
    obtain ⟨hmem, htriggered⟩ := List.mem_filter.mp hterminal
    exact List.mem_map_of_mem (List.mem_filter.mpr ⟨List.mem_append_left _ hmem, htriggered⟩)
  · have hsourced : order.side = .sell ∧ source = a.source ∨
        order.side = .buy ∧ source = some order.orderId := by
      cases hside : order.side with
      | buy => exact Or.inr ⟨rfl, hbought hside⟩
      | sell =>
        have hnotFlat : p.btcQuantity ≠ 0 := hheld.resolve_left (by simp [hside])
        exact Or.inl ⟨rfl, (hsold hside).trans (if_neg hnotFlat)⟩
    refine ⟨_, ⟨hcoherent, ?_, hblock.after⟩, rfl, Or.inl rfl, fun _ => hidle, Or.inr hsourced⟩
    refine h.settled.after h.coherent hattempt.member hcont hmarket (List.append_nil _).symm
      (by simp) (fun hside hcanceled => absurd hcanceled (hpartly hside)) ?_ (fun _ hid => hid)
    intro hopen
    rcases hheld with hbuy | hheld
    · exact absurd (hattempt.opened hbuy) hopen
    · exact lt_of_le_of_ne hcoherent.envelopes.btc (Ne.symm hheld)

/-- The first part of an exit goes on in a child order, and owes nothing else. -/
theorem Sound.filled_child {db₁ db₂ db₃ : Database} {child : PaperOrder}
    (hmarket : order.orderKind = .market) {quantity : ℚ} {capped : Bool}
    (hallowed : allowed order (computedFillPrice reference order.slippageRate order.side)
      a.projection.cash attempted = (quantity, capped)) (hdistinct : Distinguishable order quantity)
    (hbefore : Appends db (attemptEvents db.events.length order reference attempted) db₁)
    (hblock : Appends db₁ (fillBlock db₁.events.length order
      (fillAt order order.eligibleOpenUtc reference quantity)
      (decide (quantity = order.remainderQuantity)) (remainderReason capped)) db₂)
    (hpart : quantity ≠ order.remainderQuantity) (hsell : order.side = .sell)
    (hparent : order.parentOrderId.any PaperId.isOrder = false)
    (hchild : submitOrder db₂ (remainderChild order order.eligibleOpenUtc
      (order.remainderQuantity - quantity)) = .ok (child, db₃))
    (hprotected : cancelProtection db₃ order order.eligibleOpenUtc a.stops.open_ = .ok db') :
    ∃ a', Sound db' a' ∧ Executes a a' order := by
  have hnotStop : order.orderKind ≠ .stop := by simp [hmarket]
  obtain ⟨hordered, hremaining, -⟩ := h.coherent.accepted_terms hattempt.member hattempt.accepted
  obtain ⟨p, hevents, hf⟩ := hattempt.filling hallowed hdistinct hbefore hblock
    (fun hstop => absurd hstop hnotStop)
  obtain ⟨scan, trade, source, hcoherent, -, -, hsold⟩ := h.coherent.fillOrder hf
  obtain ⟨hvalid, hnew, hidle, hnone, hfunded, hvalidChild⟩ :=
    hf.remainder h.coherent hsell (decide_eq_false hpart) hparent
  rw [← hevents] at hcoherent hvalidChild
  have hquantity : order.remainderQuantity - quantity = order.requestedQuantity -
      (fillAt order order.eligibleOpenUtc reference quantity).quantity := by
    rw [hremaining]
    rfl
  rw [hquantity] at hchild
  obtain ⟨rfl, -, hsubmitted⟩ := hcoherent.submitOrder hblock.after hnew hchild
  obtain ⟨p', hreplay, -⟩ := hsubmitted.rebuild
  have hids := hsubmitted.ids hcoherent.ids
  rw [hsubmitted.events] at hids
  have hfinal := hcoherent.submit hvalid hreplay hids hidle hfunded
    (fun _ _ hkind => by cases hkind) (by
      intro parent hsome _
      obtain rfl : order.orderId = parent := Option.some.inj hsome
      have hid := (h.coherent.terms hattempt.member).orderId
      exact ⟨by rw [hid]; rfl, hnone, hvalidChild⟩)
  rw [← hsubmitted.events] at hfinal
  -- what is left of the inventory is what the child sells
  have hpositive := hvalid.quantity
  simp only [Funded, Submission.order, paperOrder, Submission.metadata, remainderChild,
    orderIdentity, sub_zero] at hfunded hpositive
  have hheld : 0 < p.btcQuantity := lt_of_lt_of_le hpositive hfunded
  have hleft : 0 < p'.btcQuantity := by
    have hfunds := hfinal.funded _ (List.mem_filter.mpr ⟨List.mem_append_right _
      (List.mem_singleton_self _), rfl⟩)
    simp only [Funded, Submission.order, paperOrder, Submission.metadata, remainderChild,
      orderIdentity, sub_zero] at hfunds
    exact lt_of_lt_of_le hpositive hfunds
  rcases cancelProtection_cases hmarket (hfinal.replayState_eq hsubmitted.after) hprotected with
    ⟨-, hflat, -⟩ | ⟨-, rfl⟩
  · exact absurd hflat hleft.ne'
  · have hnotBuy : order.side ≠ .buy := by simp [hsell]
    refine ⟨_, ⟨hfinal, ?_, hsubmitted.after⟩, rfl, Or.inl rfl, fun hbuy => absurd hbuy hnotBuy,
      Or.inr (Or.inl ⟨hsell, (hsold hsell).trans (if_neg hheld.ne')⟩)⟩
    have hcont : Continues order (filledOrder order
        (fillAt order order.eligibleOpenUtc reference quantity)
        (decide (quantity = order.remainderQuantity))) := ⟨_, _, _, _, rfl, Or.inr rfl⟩
    refine h.settled.after h.coherent hattempt.member hcont hmarket rfl ?_ ?_ (fun _ => hleft)
      (fun _ hid => hid)
    · intro x hx
      rw [List.mem_singleton.mp hx]
      exact ⟨rfl, rfl⟩
    · intro _ _ _ _
      have hid := (h.coherent.terms hattempt.member).orderId
      rw [childrenOf, List.filter_cons_of_pos]
      · simp
      · simp only [decide_eq_true_eq]
        exact ⟨rfl, by rw [hid]; rfl⟩

/-- `_process_order_in_transaction` on an accepted market order leaves an account that the
verifier accepts. -/
theorem Sound.processOrder (hmarket : order.orderKind = .market) {actual : Option ℚ}
    (hactual : attempted = actual.getD order.remainderQuantity)
    (hdistinct : Distinguishable order (allowed order
      (computedFillPrice reference order.slippageRate order.side) a.projection.cash attempted).1)
    {result : Option PaperFill}
    (hok : Broker.processOrder db order order.eligibleOpenUtc reference actual a.stops.open_ =
      .ok (result, db')) : ∃ a', Sound db' a' ∧ Executes a a' order := by
  obtain ⟨-, hprice, db₁, hbefore, hexecuted⟩ := h.coherent.processOrder_executed h.verified
    hattempt.member hattempt.accepted hok
  rw [← hactual] at hbefore hexecuted
  cases hexecuted with
  | rejected hbound hzero hended =>
    obtain ⟨context, hcontext⟩ := Option.isSome_iff_exists.mp hbound
    obtain ⟨hside, hcontextOf⟩ := bound_eq_some hcontext
    refine h.unfilled hattempt hmarket (by simp) hbefore hended ?_ ?_
    · intro n
      simp [validateNoFillTerminal, validateStatusIdentity, hcontextOf, reject, bind,
        Except.bind]
    · intro other hother
      simp only [allowed, hother, hside] at hzero
      exact ⟨hzero, rfl, rfl, rfl⟩
  | insufficient hpositive hside hpoor hended =>
    cases hbound : order.bound with
    | none =>
      refine h.unfilled hattempt hmarket (by simp) hbefore hended ?_ ?_
      · intro n
        simp [validateNoFillTerminal, validateStatusIdentity, reject, bind, Except.bind]
      · intro other hother
        rw [hbound] at hother
        cases hother
    | some context =>
      -- what the cap allows is always paid for
      simp only [hbound, Option.isSome_some, true_and, not_le, allowed] at hpositive hpoor
      have hcost := (cappedAt_of_pos (hpositive.trans_le (min_le_right _ _))).cost
        (min_le_right attempted _)
      exact absurd hpoor (not_lt.mpr hcost)
  | filled hpositive howned hblock hcontinued hprotected =>
    cases hcontinued with
    | whole hwhole =>
      exact h.filled_whole hattempt hmarket rfl hdistinct hbefore hblock hwhole hprotected
    | child hpart hsell hparent hboundary hchild =>
      exact h.filled_child hattempt hmarket rfl hdistinct hbefore hblock hpart hsell hparent hchild
        hprotected

end

end AutoBit.Broker
