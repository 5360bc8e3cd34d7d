import AutoBit.Broker.Ends
import AutoBit.Broker.ExecutionCap

/-!
# What the broker writes

The mutations of the store are idempotent, so a step of an operation could find its evidence
already there. From a coherent account it does not: a new order, a fill of an accepted order
and the transitions after it append exactly the blocks that the account is extended by.
-/

namespace AutoBit.Broker

open Library Store

/-- A database whose evidence is consistent with an account, which owes nothing. -/
structure Sound (db : Database) (a : Account) : Prop where
  coherent : Coherent db.events a
  settled : Settled a
  verified : Verified db

/-- The ledger of a sound database. -/
theorem Sound.ledger {db : Database} {a : Account} (h : Sound db a) :
    buildLedger db = .ok (a.ledger db.events) :=
  h.coherent.buildLedger_eq h.settled rfl h.verified

section

variable {db : Database} {a : Account} (h : Coherent db.events a) (hverified : Verified db)
include h hverified

/-- The rows of the order table are those of the account. -/
theorem Coherent.rows : db.orders = a.projection.orders := by
  obtain ⟨s, hs, horders⟩ := hverified.rebuild
  rw [h.replay, Except.ok.injEq] at hs
  rw [horders, hs]

/-- The snapshot of the account. -/
theorem Coherent.replayState_eq :
    replayState db = .ok (snapshotFromComponents a.projection db.events) :=
  replayAndVerify_eq_ok.mpr ⟨a.projection, h.replay, h.rows hverified, rfl⟩

end

/-! ## Transitions -/

/-- A transition to a status that the order never had is appended. -/
theorem transition_new {db db' : Database} {id : PaperId} {key : Key} {status : OrderStatus}
    {at_ : ℤ} {reason : Option String} {isNew : Bool}
    (hnone : ∀ t ∈ transitionsOf db.events id, t.body.status ≠ status)
    (h : transitionOrderStatus db id key status at_ reason = .ok (isNew, db')) :
    Appends db [⟨db.events.length + 1, .orderStatus key, at_,
      .orderStatus ⟨key, id, reason, status⟩⟩] db' := by
  rcases transitionOrderStatus_cases h with ⟨-, -, e, he, -, hpayload⟩ | ⟨-, happended⟩
  · have hmem : (⟨e.sequence, e.eventId, e.occurredAtUtc, ⟨key, id, reason, status⟩⟩ :
        Stamped OrderTransition) ∈ transitionsOf db.events id := by
      refine List.mem_filter.mpr ⟨mem_view.mpr ⟨e, he, ?_, rfl, rfl, rfl⟩, by simp⟩
      rw [hpayload]
      rfl
    exact absurd rfl (hnone _ hmem)
  · exact happended.appends

/-- Of a status event of its own. -/
theorem transitionsOf_status {n : ℕ} {key : Key} {at_ : ℤ} {id : PaperId} {reason : Option String}
    {status : OrderStatus} : transitionsOf [⟨n, .orderStatus key, at_,
      .orderStatus ⟨key, id, reason, status⟩⟩] id =
        [⟨n, .orderStatus key, at_, ⟨key, id, reason, status⟩⟩] := by
  simp [transitionsOf, view, stamp, readTransition]

/-! ## Submissions -/

/-- The submission of a new order appends its four events. -/
theorem Coherent.submitOrder {db db' : Database} {a : Account} (h : Coherent db.events a)
    (hverified : Verified db) {s : Submission} {order : PaperOrder}
    (hnew : findPaperOrder a.orders s.key.orderId = none)
    (hok : submitOrder db s = .ok (order, db')) :
    order = s.order ∧ 0 < s.quantity ∧ Appends db (s.block db.events.length) db' := by
  simp only [Broker.submitOrder, Except.bind_eq_ok] at hok
  obtain ⟨⟨isNew, db₁⟩, hrecorded, hok⟩ := hok
  rcases recordOrderOnce_cases hrecorded with ⟨-, -, row, hrow, -, hid⟩ | ⟨rfl, hquantity, -,
    hcreated⟩
  · rw [h.rows hverified] at hrow
    obtain ⟨x, hx, hagrees⟩ := forall₂_exists_right h.stored hrow
    have hne := List.find?_eq_none.mp hnew x hx
    simp [← hagrees.orderId, hid] at hne
  · simp only [Bool.true_eq_false, if_false, Except.bind_eq_ok, Except.pure_eq_ok,
      Prod.mk.injEq] at hok
    obtain ⟨⟨_, db₂⟩, hsubmitted, ⟨_, db₃⟩, haccepted, db₄, hmetadata, rfl, rfl⟩ := hok
    obtain ⟨-, hnone, -, -⟩ := h.unmentioned hnew
    have hcreated := hcreated.appends
    have hnone₁ : transitionsOf db₁.events s.key.orderId = [] := by
      rw [hcreated.events, transitionsOf_append_block, hnone]
      rfl
    have hsubmitted := transition_new (by simp [hnone₁]) hsubmitted
    have hnone₂ : ∀ t ∈ transitionsOf db₂.events s.key.orderId, t.body.status ≠ .accepted := by
      rw [hsubmitted.events, transitionsOf_append_block, hnone₁, transitionsOf_status]
      simp
    have haccepted := transition_new hnone₂ haccepted
    have hmetadata := (appendEvent_appended hmetadata).appends
    refine ⟨rfl, hquantity, ?_⟩
    have hall := ((hcreated.trans hsubmitted).trans haccepted).trans hmetadata
    simpa [Submission.block, Database.nextEvent, hcreated.events, hsubmitted.events,
      haccepted.events] using hall

/-! ## Fills -/

/-- The first three events of a fill: the fill, its transition and its metadata. -/
theorem recordFill_appends {db db' : Database} {order : PaperOrder} (fill : PaperFill)
    {isNew : Bool} (hid : fill.orderId = order.orderId)
    (hfills : fillsOf db.events order.orderId = [])
    (htransitions : ∀ t ∈ transitionsOf db.events order.orderId,
      t.body.status = .submitted ∨ t.body.status = .accepted)
    (hok : recordFill db order fill.fillTime fill = .ok (isNew, db')) :
    isNew = true ∧ Appends db [⟨db.events.length + 1, fill.fillId, fill.fillTime, .fill fill.raw⟩,
      fillStatusEvent (db.events.length + 1) order fill
        (decide (fill.quantity = order.remainderQuantity)),
      ⟨db.events.length + 3, .fillMeta fill.fillId, fill.fillTime,
        .paperFill (fill.metadata order)⟩] db' := by
  simp only [recordFill, Except.bind_eq_ok] at hok
  obtain ⟨⟨appended, db₁⟩, hfill, hok⟩ := hok
  rcases appendFill_cases hfill with ⟨-, -, e, he, -, hpayload⟩ | ⟨rfl, -, -, -, hfilled⟩
  · have hmem : (⟨e.sequence, e.eventId, e.occurredAtUtc, fill.raw⟩ : Stamped RawFill) ∈
        fillsOf db.events order.orderId := by
      refine List.mem_filter.mpr ⟨mem_view.mpr ⟨e, he, ?_, rfl, rfl, rfl⟩, by simp [PaperFill.raw, hid]⟩
      rw [hpayload]
      rfl
    rw [hfills] at hmem
    cases hmem
  · have hfilled := hfilled.appends
    have hsame : transitionsOf db₁.events order.orderId = transitionsOf db.events order.orderId := by
      rw [hfilled.events, transitionsOf_append_block]
      exact List.append_nil _
    have hnever : ∀ status, status = .completed ∨ status = .partial_ →
        ∀ t ∈ transitionsOf db₁.events order.orderId, t.body.status ≠ status := by
      intro status hstatus t ht hsame'
      rw [hsame] at ht
      rcases htransitions t ht with hold | hold <;> rcases hstatus with rfl | rfl <;>
        rw [hsame'] at hold <;> cases hold
    simp only [Bool.true_eq_false, if_false, Except.bind_eq_ok, Except.pure_eq_ok,
      Prod.mk.injEq] at hok
    obtain ⟨⟨_, db₂⟩, htransition, db₃, hmetadata, rfl, rfl⟩ := hok
    refine ⟨rfl, ?_⟩
    by_cases hcomplete : fill.quantity = order.remainderQuantity
    · simp only [hcomplete, decide_true, if_true] at htransition ⊢
      have hmoved := transition_new (hnever _ (Or.inl rfl)) htransition
      have hall := (hfilled.trans hmoved).trans (appendEvent_appended hmetadata).appends
      simpa [fillStatusEvent, statusEvent, Database.nextEvent, hfilled.events, hmoved.events]
        using hall
    · simp only [hcomplete, decide_false, Bool.false_eq_true, if_false] at htransition ⊢
      have hmoved := transition_new (hnever _ (Or.inr rfl)) htransition
      have hall := (hfilled.trans hmoved).trans (appendEvent_appended hmetadata).appends
      simpa [fillStatusEvent, statusEvent, Database.nextEvent, hfilled.events, hmoved.events]
        using hall

/-- An accepted order has been submitted and accepted, and has no fill. -/
theorem Coherent.accepted_log {db : Database} {a : Account} (h : Coherent db.events a)
    {order : PaperOrder} (horder : order ∈ a.orders) (haccepted : order.status = .accepted) :
    fillsOf db.events order.orderId = [] ∧ ∀ t ∈ transitionsOf db.events order.orderId,
      t.body.status = .submitted ∨ t.body.status = .accepted := by
  obtain ⟨m, -, hm, -⟩ := h.metadata horder
  obtain ⟨_, submitted, accepted, -, -, -, -, htransitions, hacceptance, hfills, -⟩ :=
    accepted_evidence haccepted hm
  simp only [validateAcceptance, Except.bind_eq_ok, reject_eq_ok, not_or, not_not] at hacceptance
  obtain ⟨_, ⟨hsubmitted, haccepted'⟩, -⟩ := hacceptance
  refine ⟨hfills, ?_⟩
  intro t ht
  rw [htransitions] at ht
  rcases List.mem_cons.mp ht with rfl | ht
  · exact Or.inl hsubmitted
  · rw [List.mem_singleton.mp ht]
    exact Or.inr haccepted'

/-! ## Executions -/

/-- What an order may fill of what is attempted, and whether its sizing evidence cut it. -/
def allowed (order : PaperOrder) (fillPrice cash attempted : ℚ) : ℚ × Bool :=
  match order.bound with
  | none => (attempted, false)
  | some context =>
    (min attempted (executionQuantity context order.feeRate fillPrice cash),
      decide (executionQuantity context order.feeRate fillPrice cash < attempted))

/-- The evidence that an attempt leaves. -/
def attemptEvents (n : ℕ) (order : PaperOrder) (reference attempted : ℚ) : List StoredEvent :=
  match order.bound with
  | none => []
  | some _ => [executionEvent n order reference attempted]

/-- An attempt writes executions of its order only. -/
theorem attemptEvents_executionsOf (n : ℕ) (order : PaperOrder) (reference attempted : ℚ) :
    ExecutionsOf order.orderId (attemptEvents n order reference attempted) := by
  intro e he
  unfold attemptEvents at he
  split at he
  · cases he
  · rw [List.mem_singleton.mp he]
    exact ⟨rfl, _, rfl, rfl⟩

/-- A capped execution appends its attempt. -/
theorem capExecution_appends {db db' : Database} (hverified : Verified db) {order : PaperOrder}
    {reference fillPrice cash attempted : ℚ} {allowance : ℚ × Bool}
    (h : capExecution db order order.eligibleOpenUtc reference fillPrice cash attempted =
      .ok (db', allowance)) :
    Appends db (attemptEvents db.events.length order reference attempted) db' ∧
      allowance = allowed order fillPrice cash attempted := by
  unfold capExecution at h
  unfold attemptEvents allowed
  cases hbound : order.bound with
  | none =>
    simp only [hbound, Except.pure_eq_ok, Prod.mk.injEq] at h
    obtain ⟨rfl, rfl⟩ := h
    exact ⟨Appends.refl hverified, rfl⟩
  | some context =>
    simp only [hbound, Except.bind_eq_ok, Except.pure_eq_ok, Prod.mk.injEq] at h
    obtain ⟨db₁, happended, rfl, rfl⟩ := h
    exact ⟨(appendEvent_appended happended).appends, rfl⟩

/-- Why the remainder of an order is canceled. -/
def remainderReason (capped : Bool) : String :=
  if capped then "EXECUTION_CAP" else "PARTIAL_REMAINDER"

/-- What follows a fill: nothing, or the child that carries the remainder of an exit. -/
inductive Continued (order : PaperOrder) (candle : ℤ) (quantity : ℚ) (db : Database) :
    Database → Prop where
  | whole : quantity = order.remainderQuantity ∨ order.side = .buy →
      Continued order candle quantity db db
  | child {child : PaperOrder} {db' : Database} : quantity ≠ order.remainderQuantity →
      order.side = .sell → order.parentOrderId.any PaperId.isOrder = false → IsBoundary candle →
      submitOrder db (remainderChild order candle (order.remainderQuantity - quantity)) =
        .ok (child, db') → Continued order candle quantity db db'

/-- How an execution of an accepted order ends, from the evidence of the attempt on. -/
inductive Executed (order : PaperOrder) (reference quantity : ℚ) (capped : Bool) (cash btc : ℚ)
    (stops : List PaperStop) (db : Database) : Option PaperFill → Database → Prop where
  | rejected {db' : Database} : order.bound.isSome = true → quantity ≤ 0 →
      Appends db [statusEvent db.events.length order order.eligibleOpenUtc
        (.executionCap order.eligibleOpenUtc) .rejected "EXECUTION_CAP"] db' →
      Executed order reference quantity capped cash btc stops db none db'
  | insufficient {db' : Database} : ¬(order.bound.isSome = true ∧ quantity ≤ 0) →
      order.side = .buy →
      cash < quantity * computedFillPrice reference order.slippageRate order.side +
        (fillAt order order.eligibleOpenUtc reference quantity).fee →
      Appends db [statusEvent db.events.length order order.eligibleOpenUtc
        (.insufficient order.eligibleOpenUtc) .insufficientCash "INSUFFICIENT_CASH"] db' →
      Executed order reference quantity capped cash btc stops db none db'
  | filled {db₁ db₂ db' : Database} : ¬(order.bound.isSome = true ∧ quantity ≤ 0) →
      (order.side = .sell → quantity ≤ btc) →
      Appends db (fillBlock db.events.length order
        (fillAt order order.eligibleOpenUtc reference quantity)
        (decide (quantity = order.remainderQuantity)) (remainderReason capped)) db₁ →
      Continued order order.eligibleOpenUtc quantity db₁ db₂ →
      cancelProtection db₂ order order.eligibleOpenUtc stops = .ok db' →
      Executed order reference quantity capped cash btc stops db
        (some (fillAt order order.eligibleOpenUtc reference quantity)) db'

/-- The events of a partial fill, up to the end of its order. -/
theorem cancelRemainder_continued {db db' : Database} {order : PaperOrder} (fill : PaperFill)
    {capped : Bool} (hpart : fill.quantity ≠ order.remainderQuantity)
    (hnever : ∀ t ∈ transitionsOf db.events order.orderId, t.body.status ≠ .canceled)
    (h : cancelRemainder db order fill.fillTime fill.quantity capped = .ok db') :
    ∃ db₁, Appends db (remainderEvents db.events.length order fill (remainderReason capped) false)
        db₁ ∧ Continued order fill.fillTime fill.quantity db₁ db' := by
  simp only [cancelRemainder, Except.bind_eq_ok] at h
  obtain ⟨⟨_, db₁⟩, hcanceled, h⟩ := h
  refine ⟨db₁, transition_new hnever hcanceled, ?_⟩
  split at h
  · rename_i hbuy
    rw [Except.pure_eq_ok] at h
    subst h
    exact .whole (Or.inr hbuy)
  · rename_i hsell
    simp only [Except.bind_eq_ok, reject_eq_ok, Bool.not_eq_true, requireNextBoundary,
      Except.pure_eq_ok, not_not] at h
    obtain ⟨_, hparent, _, -, _, ⟨_, hboundary, -⟩, ⟨child, db₂⟩, hchild, rfl⟩ := h
    refine .child hpart ?_ hparent hboundary hchild
    cases hside : order.side with
    | buy => exact absurd hside hsell
    | sell => rfl

/-- Executing an accepted order leaves the evidence of the attempt and of how it ended. -/
theorem Coherent.processOrder_executed {db db' : Database} {a : Account}
    (h : Coherent db.events a) (hverified : Verified db) {order : PaperOrder}
    (horder : order ∈ a.orders) (haccepted : order.status = .accepted) {reference : ℚ}
    {actual : Option ℚ} {stops : List PaperStop} {result : Option PaperFill}
    (hok : processOrder db order order.eligibleOpenUtc reference actual stops =
      .ok (result, db')) :
    actual.getD order.remainderQuantity ≤ order.remainderQuantity ∧
      0 < computedFillPrice reference order.slippageRate order.side ∧
      ∃ db₁, Appends db (attemptEvents db.events.length order reference
          (actual.getD order.remainderQuantity)) db₁ ∧
        Executed order reference
          (allowed order (computedFillPrice reference order.slippageRate order.side)
            a.projection.cash (actual.getD order.remainderQuantity)).1
          (allowed order (computedFillPrice reference order.slippageRate order.side)
            a.projection.cash (actual.getD order.remainderQuantity)).2
          a.projection.cash a.projection.btcQuantity stops db₁ result db' := by
  obtain ⟨hfills, htransitions⟩ := h.accepted_log horder haccepted
  simp only [processOrder, Except.bind_eq_ok, reject_eq_ok, not_lt, not_le,
    h.replayState_eq hverified, Except.ok.injEq] at hok
  obtain ⟨_, hle, _, hprice, snapshot, rfl, ⟨db₁, quantity, capped⟩, hattempt, hok⟩ := hok
  obtain ⟨happends, hallowed⟩ := capExecution_appends hverified hattempt
  refine ⟨hle, hprice, db₁, happends, ?_⟩
  simp only [snapshotFromComponents] at hallowed hok
  rw [← hallowed]
  -- the evidence of the attempt moves neither fills nor transitions
  have hpre := attemptEvents_executionsOf db.events.length order reference
    (actual.getD order.remainderQuantity)
  have hfills₁ : fillsOf db₁.events order.orderId = [] := by
    rw [happends.events, fillsOf_append_block, hfills, fillsOf, hpre.view_eq_nil fun _ => rfl]
    rfl
  have htransitions₁ : transitionsOf db₁.events order.orderId =
      transitionsOf db.events order.orderId := by
    rw [happends.events, transitionsOf_append_block, transitionsOf, transitionsOf,
      hpre.view_eq_nil fun _ => rfl]
    exact List.append_nil _
  have hnever : ∀ status, status ≠ .submitted → status ≠ .accepted →
      ∀ t ∈ transitionsOf db₁.events order.orderId, t.body.status ≠ status := by
    intro status hsubmitted haccepted' t ht hsame
    rw [htransitions₁] at ht
    rcases htransitions t ht with hold | hold
    · exact hsubmitted (hsame.symm.trans hold)
    · exact haccepted' (hsame.symm.trans hold)
  split at hok
  · rename_i hcut
    simp only [Except.bind_eq_ok, Except.pure_eq_ok, Prod.mk.injEq] at hok
    obtain ⟨⟨_, db₂⟩, hrejected, rfl, rfl⟩ := hok
    exact .rejected hcut.1 hcut.2 (transition_new (hnever _ (by simp) (by simp)) hrejected)
  · rename_i hcut
    split at hok
    · rename_i hpoor
      simp only [Except.bind_eq_ok, Except.pure_eq_ok, Prod.mk.injEq] at hok
      obtain ⟨⟨_, db₂⟩, hended, rfl, rfl⟩ := hok
      exact .insufficient hcut hpoor.1 hpoor.2
        (transition_new (hnever _ (by simp) (by simp)) hended)
    · rw [Except.bind_eq_ok] at hok
      obtain ⟨_, howned, hok⟩ := hok
      rw [Except.bind_eq_ok] at hok
      obtain ⟨⟨isNew, db₂⟩, hrecorded, hok⟩ := hok
      have howned : order.side = .sell → quantity ≤ a.projection.btcQuantity := by
        intro hsell
        exact not_lt.mp fun hmore => reject_eq_ok.mp howned ⟨hsell, hmore⟩
      obtain ⟨rfl, hthree⟩ := recordFill_appends (fillAt order order.eligibleOpenUtc
        reference quantity) rfl hfills₁ (by rw [htransitions₁]; exact htransitions) hrecorded
      have hquantity : (fillAt order order.eligibleOpenUtc reference quantity).quantity =
          quantity := rfl
      rw [hquantity] at hthree
      simp only [Bool.true_eq_false, if_false] at hok
      split at hok
      · rename_i hcomplete
        simp only [Except.bind_eq_ok, Except.pure_eq_ok, Prod.mk.injEq] at hok
        obtain ⟨db₃, rfl, db₄, hprotected, rfl, rfl⟩ := hok
        refine .filled hcut howned ?_ (.whole (Or.inl hcomplete)) hprotected
        simpa [fillBlock, remainderEvents, hcomplete] using hthree
      · rename_i hcomplete
        simp only [Except.bind_eq_ok, Except.pure_eq_ok, Prod.mk.injEq] at hok
        obtain ⟨db₃, hcontinued, db₄, hprotected, rfl, rfl⟩ := hok
        have huncanceled : ∀ t ∈ transitionsOf db₂.events order.orderId,
            t.body.status ≠ .canceled := by
          rw [hthree.events, transitionsOf_append_block]
          intro t ht
          rcases List.mem_append.mp ht with hold | hnew
          · exact hnever _ (by simp) (by simp) t hold
          · simp only [hcomplete, decide_false] at hnew
            obtain ⟨hview, -⟩ := List.mem_filter.mp hnew
            simp only [view, stamp, fillStatusEvent, statusEvent, readTransition,
              List.filterMap_cons, Option.map_none, Option.map_some, List.filterMap_nil,
              List.mem_singleton] at hview
            rw [hview]
            simp
        obtain ⟨db₅, hcanceled, hchild⟩ := cancelRemainder_continued
          (fillAt order order.eligibleOpenUtc reference quantity) hcomplete huncanceled
          hcontinued
        refine .filled hcut howned ?_ hchild hprotected
        have hall := hthree.trans hcanceled
        simpa [fillBlock, hcomplete, hthree.events] using hall

end AutoBit.Broker
