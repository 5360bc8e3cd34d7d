import AutoBit.Broker.Protection
import AutoBit.Strategy.Sizing

/-!
# The execution cap at the open

A bound entry is sized a second time when it fills: the smaller of the attempted quantity
and of `_execution_quantity` at the actual price wins. The exposure and the cost of the
fill are then within their limits. Its loss when stopped out is not, in general: the second
sizing leaves the slippage of the exit out.
-/

namespace AutoBit.Broker

open Library Store Strategy

/-- The stop of an entry that fills at a price. -/
def entryStop (context : EntryContext) (price : ℚ) : ℚ :=
  price - context.initialAtrMult * context.entryAtr

/-- What one unit bought at a price loses when it is stopped out exactly at a stop, with the
slippage of the exit and the fees of both sides. -/
def stoppedOutUnitLoss (order : PaperOrder) (price stop : ℚ) : ℚ :=
  let exitPrice := computedFillPrice stop order.slippageRate .sell
  price + computedFee 1 price order.feeRate - (exitPrice - computedFee 1 exitPrice order.feeRate)

/-- What a fill loses when its position is stopped out exactly at a stop. -/
def stoppedOutLoss (order : PaperOrder) (fill : PaperFill) (stop : ℚ) : ℚ :=
  let exitPrice := computedFillPrice stop order.slippageRate .sell
  fill.quantity * fill.fillPrice + fill.fee -
    (fill.quantity * exitPrice - computedFee fill.quantity exitPrice order.feeRate)

/-- The limits on what a fill of a bound entry takes up. -/
structure Affordable (context : EntryContext) (fill : PaperFill) (cash : ℚ) : Prop where
  exposure : fill.quantity * fill.fillPrice ≤ context.exposureCap * cash
  cost : fill.quantity * fill.fillPrice + fill.fee ≤ cash

/-- The limits of section 8 of the design on a fill of a bound entry. -/
structure WithinBudget (order : PaperOrder) (context : EntryContext) (fill : PaperFill)
    (cash : ℚ) : Prop extends Affordable context fill cash where
  risk : stoppedOutLoss order fill (entryStop context fill.fillPrice) ≤ context.riskRate * cash

/-- One of the limits on the quantity covers the slippage of the exit: the attempted
quantity, the volatility-adjusted budget, the exposure cap or the cash. -/
def RiskCovered (order : PaperOrder) (context : EntryContext) (attempted price cash : ℚ) : Prop :=
  let stop := entryStop context price
  let loss := stoppedOutUnitLoss order price stop
  attempted * loss ≤ context.riskRate * cash ∨
    min 1 (context.baselineAtrPct / (context.entryAtr / price)) * loss ≤
      effectiveLoss price stop ⟨order.feeRate, 0⟩ ∨
    context.exposureCap * loss ≤ context.riskRate * price ∨
    loss ≤ context.riskRate * (price * (1 + order.feeRate))

/-- Whether a payload says that an order ended for want of cash. -/
def isInsufficient : Payload → Bool
  | .orderStatus transition => transition.status = .insufficientCash
  | _ => false

/-- No order has ended for want of cash between two databases. -/
def KeepsSolvent (db db' : Database) : Prop :=
  ∀ e ∈ db'.events, e ∈ db.events ∨ isInsufficient e.payload = false

/-- No transition of an order ended it for want of cash. -/
def NeverInsufficient (log : List StoredEvent) (id : PaperId) : Prop :=
  ∀ transition ∈ transitionsOf log id, transition.body.status ≠ .insufficientCash

/-! ## The cap -/

/-- The loss of a stopped out fill is that of each unit times the quantity. -/
theorem stoppedOutLoss_eq (order : PaperOrder) (candle : ℤ) (reference quantity stop : ℚ) :
    stoppedOutLoss order (fillAt order candle reference quantity) stop = quantity *
      stoppedOutUnitLoss order (computedFillPrice reference order.slippageRate order.side) stop := by
  simp only [stoppedOutLoss, stoppedOutUnitLoss, fillAt, computedFee]
  ring

/-- One unit that is stopped out loses something. -/
theorem stoppedOutUnitLoss_pos {order : PaperOrder} {price stop : ℚ}
    (hslippage : 0 ≤ order.slippageRate)
    (hfee : 0 ≤ order.feeRate ∧ order.feeRate < 1) (hstop : 0 < stop) (hless : stop < price) :
    0 < stoppedOutUnitLoss order price stop := by
  have hfees : 0 ≤ price * order.feeRate := mul_nonneg (hstop.trans hless).le hfee.1
  have hexit : stop * ((1 - order.slippageRate) * (1 - order.feeRate)) ≤ stop := by
    refine mul_le_of_le_one_right hstop.le ?_
    nlinarith [mul_nonneg hslippage (sub_pos.mpr hfee.2).le, hfee.1]
  have hsplit : stoppedOutUnitLoss order price stop = price + price * order.feeRate -
      stop * ((1 - order.slippageRate) * (1 - order.feeRate)) := by
    simp only [stoppedOutUnitLoss, computedFillPrice, computedFee]
    ring
  rw [hsplit]
  linarith

/-- A limit that is a minimum holds when one of its parts does. -/
theorem min_mul_le_iff {a b loss budget : ℚ} (hloss : 0 ≤ loss) :
    min a b * loss ≤ budget ↔ a * loss ≤ budget ∨ b * loss ≤ budget := by
  rw [min_mul_of_nonneg _ _ hloss, min_le_iff]

/-- What a positive execution cap is the minimum of. -/
structure CappedAt (context : EntryContext) (feeRate price cash : ℚ) : Prop where
  price_pos : 0 < price
  cash_pos : 0 < cash
  stop_pos : 0 < entryStop context price
  stop_lt : entryStop context price < price
  fees : 0 ≤ feeRate ∧ feeRate < 1
  loss : 0 < effectiveLoss price (entryStop context price) ⟨feeRate, 0⟩
  riskRate : 0 < context.riskRate
  quantity : executionQuantity context feeRate price cash =
    min (min (cash * context.riskRate /
          effectiveLoss price (entryStop context price) ⟨feeRate, 0⟩ *
        min 1 (context.baselineAtrPct / (context.entryAtr / price)))
      (cash * context.exposureCap / price)) (cash / (price * (1 + feeRate)))

/-- The execution cap of an entry that may fill. -/
theorem cappedAt_of_pos {context : EntryContext} {feeRate price cash : ℚ}
    (h : 0 < executionQuantity context feeRate price cash) :
    CappedAt context feeRate price cash := by
  unfold executionQuantity at h
  obtain ⟨stop, baseline, hstop, hbaseline, hsized⟩ := sized_of_pos h
  obtain rfl := Option.some.inj hbaseline
  have hstop : stop = entryStop context price := by
    unfold initialStopPrice at hstop
    split_ifs at hstop
    exact (Option.some.inj hstop).symm
  subst hstop
  have hquantity := hsized.quantity
  simp only [SizeInput.fixed, SizeInput.volatilityShare, SizeInput.expectedBuyFill, add_zero,
    mul_one] at hquantity
  rw [hquantity] at h
  have hprice : 0 < price := hsized.stop_pos.trans hsized.stop_lt
  have hcash : 0 < cash := by
    refine lt_of_le_of_ne hsized.cash ?_
    rintro rfl
    simp at h
  have hrisk : 0 < context.riskRate := by
    refine lt_of_le_of_ne hsized.riskRate ?_
    intro hzero
    rw [← hzero] at h
    simp at h
  exact ⟨hprice, hcash, hsized.stop_pos, hsized.stop_lt, hsized.feeRate, hsized.loss, hrisk,
    hquantity⟩

section

variable {context : EntryContext} {feeRate price cash : ℚ} (h : CappedAt context feeRate price cash)
include h

/-- A quantity within the cap stays within the exposure cap. -/
theorem CappedAt.exposure {quantity : ℚ}
    (hquantity : quantity ≤ executionQuantity context feeRate price cash) :
    quantity * price ≤ context.exposureCap * cash := by
  have hlimit : quantity ≤ cash * context.exposureCap / price := by
    rw [h.quantity] at hquantity
    exact hquantity.trans ((min_le_left _ _).trans (min_le_right _ _))
  calc quantity * price ≤ cash * context.exposureCap := (le_div_iff₀ h.price_pos).mp hlimit
    _ = context.exposureCap * cash := mul_comm _ _

/-- A quantity within the cap is paid for with its fee. -/
theorem CappedAt.cost {quantity : ℚ}
    (hquantity : quantity ≤ executionQuantity context feeRate price cash) :
    quantity * price + computedFee quantity price feeRate ≤ cash := by
  have hpositive : 0 < price * (1 + feeRate) := mul_pos h.price_pos (by linarith [h.fees.1])
  have hlimit : quantity ≤ cash / (price * (1 + feeRate)) := by
    rw [h.quantity] at hquantity
    exact hquantity.trans (min_le_right _ _)
  calc quantity * price + computedFee quantity price feeRate
      = quantity * (price * (1 + feeRate)) := by simp only [computedFee]; ring
    _ ≤ cash := (le_div_iff₀ hpositive).mp hlimit

/-- The quantity that fills stays within the risk budget exactly when one of the limits on
it does. -/
theorem CappedAt.risk_iff {order : PaperOrder} (hfee : order.feeRate = feeRate)
    (hslippage : 0 ≤ order.slippageRate) (attempted : ℚ) :
    min attempted (executionQuantity context feeRate price cash) *
        stoppedOutUnitLoss order price (entryStop context price) ≤ context.riskRate * cash ↔
      RiskCovered order context attempted price cash := by
  subst hfee
  have hloss := (stoppedOutUnitLoss_pos hslippage h.fees h.stop_pos h.stop_lt).le
  have hbudget : 0 < cash * context.riskRate := mul_pos h.cash_pos h.riskRate
  have hfees : 0 < price * (1 + order.feeRate) := mul_pos h.price_pos (by linarith [h.fees.1])
  have hvolatility (share loss : ℚ) : cash * context.riskRate /
        effectiveLoss price (entryStop context price) ⟨order.feeRate, 0⟩ * share * loss ≤
          context.riskRate * cash ↔
      share * loss ≤ effectiveLoss price (entryStop context price) ⟨order.feeRate, 0⟩ := by
    rw [mul_comm context.riskRate cash, mul_assoc, div_mul_eq_mul_div, div_le_iff₀ h.loss,
      mul_le_mul_iff_right₀ hbudget]
  have hexposure (loss : ℚ) : cash * context.exposureCap / price * loss ≤
      context.riskRate * cash ↔ context.exposureCap * loss ≤ context.riskRate * price := by
    rw [div_mul_eq_mul_div, div_le_iff₀ h.price_pos, mul_assoc, mul_comm context.riskRate cash,
      mul_assoc, mul_le_mul_iff_right₀ h.cash_pos]
  have hcash (loss : ℚ) : cash / (price * (1 + order.feeRate)) * loss ≤ context.riskRate * cash ↔
      loss ≤ context.riskRate * (price * (1 + order.feeRate)) := by
    rw [div_mul_eq_mul_div, div_le_iff₀ hfees, mul_comm context.riskRate cash, mul_assoc,
      mul_le_mul_iff_right₀ h.cash_pos]
  rw [h.quantity, min_mul_le_iff hloss, min_mul_le_iff hloss, min_mul_le_iff hloss, hvolatility,
    hexposure, hcash, or_assoc]
  rfl

end

/-! ## Executing a bound entry -/

/-- A database that stays as it is keeps solvent. -/
theorem KeepsSolvent.refl (db : Database) : KeepsSolvent db db := fun _ he => Or.inl he

/-- Two stretches that keep solvent do so together. -/
theorem KeepsSolvent.trans {db₁ db₂ db₃ : Database} (h₁ : KeepsSolvent db₁ db₂)
    (h₂ : KeepsSolvent db₂ db₃) : KeepsSolvent db₁ db₃ := by
  intro e he
  rcases h₂ e he with hold | hnew
  · exact h₁ e hold
  · exact Or.inr hnew

/-- An appended event that is no lack of cash keeps solvent. -/
theorem keepsSolvent_of_appended {db db' : Database} {id : EventId} {at_ : ℤ} {payload : Payload}
    (h : Appended db id at_ payload db') (hpayload : isInsufficient payload = false) :
    KeepsSolvent db db' := by
  intro e he
  rw [h.events, List.mem_append, List.mem_singleton] at he
  rcases he with hold | rfl
  · exact Or.inl hold
  · exact Or.inr hpayload

/-- A transition that is no lack of cash keeps solvent. -/
theorem keepsSolvent_of_transition {db db' : Database} {id : PaperId} {key : Key}
    {status : OrderStatus} {at_ : ℤ} {reason : Option String} {isNew : Bool}
    (hstatus : status ≠ .insufficientCash)
    (h : transitionOrderStatus db id key status at_ reason = .ok (isNew, db')) :
    KeepsSolvent db db' := by
  rcases transitionOrderStatus_cases h with ⟨-, rfl, -⟩ | ⟨-, happended⟩
  · exact KeepsSolvent.refl _
  · exact keepsSolvent_of_appended happended (by simpa [isInsufficient] using hstatus)

/-- The evidence of a fill is not a want of cash. -/
theorem keepsSolvent_of_recordFill {db db' : Database} {order : PaperOrder} {candle : ℤ}
    {fill : PaperFill} {isNew : Bool} (h : recordFill db order candle fill = .ok (isNew, db')) :
    KeepsSolvent db db' := by
  simp only [recordFill, Except.bind_eq_ok] at h
  obtain ⟨⟨appended, db₁⟩, hfill, h⟩ := h
  have hfilled : KeepsSolvent db db₁ := by
    rcases appendFill_cases hfill with ⟨-, rfl, -⟩ | ⟨-, -, -, -, happended⟩
    · exact KeepsSolvent.refl _
    · exact keepsSolvent_of_appended happended rfl
  split_ifs at h with hretry hcomplete
  · simp only [Except.pure_eq_ok, Prod.mk.injEq] at h
    obtain ⟨-, rfl⟩ := h
    exact hfilled
  all_goals
    simp only [Except.bind_eq_ok, Except.pure_eq_ok, Prod.mk.injEq] at h
    obtain ⟨⟨_, db₂⟩, htransition, db₃, hmetadata, -, rfl⟩ := h
    refine (hfilled.trans (keepsSolvent_of_transition ?_ htransition)).trans
      (keepsSolvent_of_appended (appendEvent_appended hmetadata) rfl)
    simp

/-- The remainder of a purchase is canceled without a child. -/
theorem keepsSolvent_of_cancelRemainder {db db' : Database} {order : PaperOrder} {candle : ℤ}
    {quantity : ℚ} {capped : Bool} (hside : order.side = .buy)
    (h : cancelRemainder db order candle quantity capped = .ok db') : KeepsSolvent db db' := by
  simp only [cancelRemainder, hside, if_true, Except.bind_eq_ok, Except.pure_eq_ok] at h
  obtain ⟨⟨_, db₁⟩, hcanceled, rfl⟩ := h
  exact keepsSolvent_of_transition (by simp) hcanceled

/-- A buy cancels no protection. -/
theorem cancelProtection_buy {db db' : Database} {order : PaperOrder} {candle : ℤ}
    {stops : List PaperStop} (hside : order.side = .buy)
    (h : cancelProtection db order candle stops = .ok db') : db' = db := by
  simp only [cancelProtection, hside, reduceCtorEq, false_and, if_false, Except.pure_eq_ok] at h
  exact h.symm

/-- A bound order is a purchase with its context. -/
theorem bound_eq_some {order : PaperOrder} {context : EntryContext}
    (h : order.bound = some context) :
    order.side = .buy ∧ order.executionContext = some context := by
  unfold PaperOrder.bound at h
  split at h
  · rename_i hside
    exact ⟨hside, h⟩
  · cases h

/-- What a bound entry fills: the attempted quantity within its execution cap. -/
def cappedQuantity (order : PaperOrder) (context : EntryContext) (reference cash : ℚ)
    (actual : Option ℚ) : ℚ :=
  min (actual.getD order.remainderQuantity) (executionQuantity context order.feeRate
    (computedFillPrice reference order.slippageRate order.side) cash)

/-- A positive quantity within the cap comes from a positive cap. -/
theorem cappedAt_of_quantity {order : PaperOrder} {context : EntryContext} {reference cash : ℚ}
    {actual : Option ℚ} (h : 0 < cappedQuantity order context reference cash actual) :
    CappedAt context order.feeRate (computedFillPrice reference order.slippageRate order.side)
      cash :=
  cappedAt_of_pos (h.trans_le (min_le_right _ _))

/-- `_process_order_in_transaction` on a bound entry fills the capped quantity, if anything,
and never ends the order for want of cash. -/
theorem processOrder_bound {db db' : Database} {order : PaperOrder} {context : EntryContext}
    (hbound : order.bound = some context) {candle : ℤ} {reference : ℚ} {actual : Option ℚ}
    {stops : List PaperStop} {result : Option PaperFill}
    (h : processOrder db order candle reference actual stops = .ok (result, db')) :
    ∃ snapshot, replayState db = .ok snapshot ∧ KeepsSolvent db db' ∧ ∀ fill ∈ result,
      0 < cappedQuantity order context reference snapshot.cash actual ∧
        fill = fillAt order candle reference
          (cappedQuantity order context reference snapshot.cash actual) := by
  obtain ⟨hside, -⟩ := bound_eq_some hbound
  simp only [processOrder, capExecution, hbound, Except.bind_eq_ok] at h
  obtain ⟨_, -, _, -, snapshot, hsnapshot, ⟨db₁, quantity, capped⟩, ⟨executed, hexecuted, hcap⟩, h⟩ := h
  simp only [Except.pure_eq_ok, Prod.mk.injEq] at hcap
  obtain ⟨rfl, hquantity, -⟩ := hcap
  have hquantity : quantity = cappedQuantity order context reference snapshot.cash actual :=
    hquantity.symm
  subst hquantity
  have hstart : KeepsSolvent db executed :=
    keepsSolvent_of_appended (appendEvent_appended hexecuted) rfl
  refine ⟨snapshot, hsnapshot, ?_⟩
  simp only [Option.isSome_some, true_and] at h
  by_cases hnone : cappedQuantity order context reference snapshot.cash actual ≤ 0
  · simp only [if_pos hnone, Except.bind_eq_ok, Except.pure_eq_ok, Prod.mk.injEq] at h
    obtain ⟨⟨_, db₂⟩, hrejected, rfl, rfl⟩ := h
    exact ⟨hstart.trans (keepsSolvent_of_transition (by simp) hrejected), by simp⟩
  -- the cap leaves room for the cost
  have hpositive := not_le.mp hnone
  have hcost := (cappedAt_of_quantity hpositive).cost
    (min_le_right (actual.getD order.remainderQuantity) _)
  have hpaid : ¬(order.side = .buy ∧ snapshot.cash <
      cappedQuantity order context reference snapshot.cash actual *
        computedFillPrice reference order.slippageRate order.side +
      (fillAt order candle reference
        (cappedQuantity order context reference snapshot.cash actual)).fee) := by
    rintro ⟨-, hpoor⟩
    exact absurd hpoor (not_lt.mpr hcost)
  rw [if_neg hnone, if_neg hpaid] at h
  simp only [Except.bind_eq_ok] at h
  obtain ⟨_, -, ⟨isNew, db₂⟩, hrecorded, h⟩ := h
  have hfilled := hstart.trans (keepsSolvent_of_recordFill hrecorded)
  have hfinish : ∀ db₃, KeepsSolvent db₂ db₃ → (do
        let db ← cancelProtection db₃ order candle stops
        return (some (fillAt order candle reference
          (cappedQuantity order context reference snapshot.cash actual)), db)) =
            (.ok (result, db') : Except Failure _) →
      KeepsSolvent db db' ∧ ∀ fill ∈ result,
        0 < cappedQuantity order context reference snapshot.cash actual ∧ fill = fillAt order candle
          reference (cappedQuantity order context reference snapshot.cash actual) := by
    intro db₃ hended hlast
    simp only [Except.bind_eq_ok, Except.pure_eq_ok, Prod.mk.injEq] at hlast
    obtain ⟨db₄, hprotected, rfl, rfl⟩ := hlast
    obtain rfl := cancelProtection_buy hside hprotected
    exact ⟨hfilled.trans hended, by simp [hpositive, eq_comm]⟩
  split_ifs at h with hretry hfull
  · simp only [Except.pure_eq_ok, Prod.mk.injEq] at h
    obtain ⟨rfl, rfl⟩ := h
    exact ⟨hfilled, by simp⟩
  · rw [Except.bind_eq_ok] at h
    obtain ⟨db₃, hsame, h⟩ := h
    rw [Except.pure_eq_ok] at hsame
    exact hfinish db₃ (hsame ▸ KeepsSolvent.refl _) h
  · rw [Except.bind_eq_ok] at h
    obtain ⟨db₃, hcanceled, h⟩ := h
    exact hfinish db₃ (keepsSolvent_of_cancelRemainder hside hcanceled) h

/-! ## Bound entries of a ledger -/

/-- The metadata that an order of an accepted ledger comes from. -/
theorem metadata_of_ledger {db : Database} {ledger : Ledger} (hledger : buildLedger db = .ok ledger)
    {id : PaperId} {order : PaperOrder} (horder : findPaperOrder ledger.orders id = some order) :
    ∃ m ∈ view readOrderMetadata db.events, orderFromMetadata db.events m = .ok order ∧
      order.orderId = id := by
  obtain ⟨_, horders, -⟩ := buildLedger_inv hledger
  obtain ⟨hmem, hid⟩ := findPaperOrder_some horder
  obtain ⟨m, hm, hfrom⟩ := forall₂_exists_left (mapM_eq_ok.mp horders) hmem
  exact ⟨m, hm, hfrom, hid⟩

/-- The slippage rate of a rebuilt order is not negative. -/
theorem slippageRate_nonneg {log : List StoredEvent} {m : Stamped OrderMetadata}
    {order : PaperOrder}
    (h : orderFromMetadata log m = .ok order) : 0 ≤ order.slippageRate := by
  obtain ⟨_, _, key, _, _, _, _, _, -, -, hkey, -, -, -, -, rfl⟩ := orderFromMetadata_eq_ok.mp h
  simp only [validateMetadata, Except.bind_eq_ok, reject_eq_ok, not_or, not_lt] at hkey
  obtain ⟨_, -, _, -, _, -, _, ⟨-, hslippage⟩, -⟩ := hkey
  exact hslippage

/-- An order with a context in an accepted ledger is a bound purchase. -/
theorem bound_of_ledger {db : Database} {ledger : Ledger} (hledger : buildLedger db = .ok ledger)
    {id : PaperId} {order : PaperOrder} (horder : findPaperOrder ledger.orders id = some order)
    {context : EntryContext} (hcontext : order.executionContext = some context) :
    order.bound = some context := by
  obtain ⟨m, -, hm, hid⟩ := metadata_of_ledger hledger horder
  obtain ⟨_, bound, _, _, _, _, _, _, -, hbound, -, -, -, -, -, heq⟩ := orderFromMetadata_eq_ok.mp hm
  obtain ⟨_, -, hcontexts, -⟩ := buildLedger_inv hledger
  have hsame : bound = some context := by
    rw [heq] at hcontext
    exact hcontext
  rcases optionMapM_eq_ok.mp hbound with ⟨-, hnone⟩ | ⟨binding, _, hbinding, -, -⟩
  · rw [hnone] at hsame
    cases hsame
  · have hmem : binding ∈ view readContext db.events := List.mem_of_find?_eq_some hbinding
    have hcheck := Except.forM_eq_ok.mp hcontexts binding hmem
    have hbindingId : binding.body.orderId = id := by
      rw [← hid, heq]
      simpa [paperOrder] using List.find?_some hbinding
    simp only [validateContextEvent, Except.bind_eq_ok, require_eq_ok, hbindingId, horder,
      Option.some.injEq] at hcheck
    obtain ⟨_, rfl, _, -, _, -, hcheck⟩ := hcheck
    simp only [validateEntryContextBinding, Except.bind_eq_ok, reject_eq_ok, not_or,
      not_not] at hcheck
    obtain ⟨_, ⟨-, -, -, hside, -⟩, -⟩ := hcheck
    unfold PaperOrder.bound
    rw [hside]
    exact hcontext

/-- An order that did not end for want of cash has no transition that says so. -/
theorem orderOutcome_solvent {key : OrderKey} {m : Stamped OrderMetadata} {bound : Bool}
    {fills : List (Stamped RawFill)} {fillMetadata : EventId → Option (Stamped FillMetadata)}
    {rest : List (Stamped OrderTransition)} {filled : ℚ} {status : OrderStatus}
    (h : orderOutcome key m bound fills fillMetadata rest = .ok (filled, status))
    (hstatus : status ≠ .insufficientCash) :
    ∀ transition ∈ rest, transition.body.status ≠ .insufficientCash := by
  unfold orderOutcome at h
  split at h
  · simp only [Except.bind_eq_ok, Except.pure_eq_ok, Prod.mk.injEq] at h
    obtain ⟨found, hfound, -, rfl⟩ := h
    unfold validateNoFill at hfound
    split at hfound
    · simp
    · simp only [Except.bind_eq_ok, Except.pure_eq_ok] at hfound
      obtain ⟨_, -, _, -, rfl⟩ := hfound
      simpa using hstatus
    · cases hfound
  · rw [Except.bind_eq_ok] at h
    obtain ⟨_, -, h⟩ := h
    split at h <;> simp only [Except.bind_eq_ok, Except.pure_eq_ok, Prod.mk.injEq] at h <;>
      obtain ⟨found, hfound, -, rfl⟩ := h
    · unfold validateCompleted at hfound
      split at hfound
      · simp only [Except.bind_eq_ok, reject_eq_ok, not_not] at hfound
        obtain ⟨_, hcompleted, -⟩ := hfound
        simp [hcompleted]
      · cases hfound
    · unfold validatePartial at hfound
      split at hfound
      · simp only [Except.bind_eq_ok, reject_eq_ok, not_or, not_not] at hfound
        obtain ⟨_, ⟨hpart, hcanceled⟩, -⟩ := hfound
        simp [hpart, hcanceled]
      · cases hfound
  · cases h

/-- The executions of an accepted ledger are valid. -/
theorem executions_of_ledger {db : Database} {ledger : Ledger}
    (hledger : buildLedger db = .ok ledger) :
    validateExecutions db.events ledger.orders = .ok () := by
  simp only [buildLedger, Except.bind_eq_ok, Except.pure_eq_ok] at hledger
  obtain ⟨snapshot, hsnapshot, _, -, stops, -, orders, -, _, -, _, hexecutions, _, -, _, -, _, -,
    scan, -, _, -, _, -, _, -, _, -, _, -, _, -, positions, -, rfl⟩ := hledger
  obtain ⟨s, -, -, rfl⟩ := replayAndVerify_eq_ok.mp hsnapshot
  exact hexecutions

/-- The snapshot of a ledger is the replay of its database. -/
theorem snapshot_of_ledger {db : Database} {ledger : Ledger} (hledger : buildLedger db = .ok ledger)
    {snapshot : PaperSnapshot} (hsnapshot : replayState db = .ok snapshot) :
    snapshot = ledger.snapshot := by
  simp only [buildLedger, hsnapshot, Except.bind_eq_ok, Except.pure_eq_ok, Except.ok.injEq] at hledger
  obtain ⟨_, rfl, _, -, stops, -, orders, -, _, -, _, -, _, -, _, -, _, -, scan, -, _, -, _, -, _, -,
    _, -, _, -, _, -, positions, -, rfl⟩ := hledger
  rfl

/-- An execution that was cut to nothing rejected its order, and any other filled it. -/
theorem validateExecution_ends {log : List StoredEvent} {event : Stamped Execution}
    {order : PaperOrder} {binding : Stamped ContextBinding} {context : EntryContext}
    (h : validateExecution log event order binding context = .ok ()) :
    order.status = .rejected ∨ ∃ fill, fillsOf log order.orderId = [fill] := by
  simp only [validateExecution, Except.bind_eq_ok] at h
  obtain ⟨_, -, _, -, _, -, _, -, h⟩ := h
  split at h
  · rw [reject_eq_ok, not_or, not_or, not_not, not_not] at h
    exact Or.inl h.2.1
  · rw [Except.bind_eq_ok] at h
    obtain ⟨fill, hfill, -⟩ := h
    rw [require_eq_ok, onlyFill_eq_some] at hfill
    exact Or.inr ⟨fill, hfill⟩

/-- A bound entry of an accepted ledger did not end for want of cash: its execution says how
it ended. -/
theorem bound_status_ne {db : Database} {ledger : Ledger} (hledger : buildLedger db = .ok ledger)
    {id : PaperId} {order : PaperOrder} (horder : findPaperOrder ledger.orders id = some order)
    (hbound : order.executionContext.isSome = true) : order.status ≠ .insufficientCash := by
  intro hpoor
  have hexecutions := executions_of_ledger hledger
  simp only [validateExecutions, Except.bind_eq_ok, reject_eq_ok] at hexecutions
  obtain ⟨_, hevents, hexecuted⟩ := hexecutions
  obtain ⟨hmem, hid⟩ := findPaperOrder_some horder
  have hexecution : executionOf db.events id ≠ none := by
    intro hnone
    exact hexecuted ⟨order, hmem, hbound, by simp [hpoor], by rw [hid, hnone]⟩
  obtain ⟨event, hevent⟩ := Option.ne_none_iff_exists'.mp hexecution
  have hcheck := Except.forM_eq_ok.mp hevents event (List.mem_of_find?_eq_some hevent)
  have heventId : event.body.orderId = id := by simpa using List.find?_some hevent
  simp only [validateExecutionEvent, Except.bind_eq_ok, require_eq_ok, heventId, horder,
    Option.some.injEq] at hcheck
  obtain ⟨_, rfl, _, -, _, -, hcheck⟩ := hcheck
  rcases validateExecution_ends hcheck with hrejected | ⟨fill, hfill⟩
  · rw [hpoor] at hrejected
    cases hrejected
  · obtain ⟨m, -, hm, -⟩ := metadata_of_ledger hledger horder
    obtain ⟨_, _, _, _, _, _, _, status, -, -, -, -, -, -, houtcome, heq⟩ :=
      orderFromMetadata_eq_ok.mp hm
    have hstatus : order.status = status := congrArg PaperOrder.status heq
    have hfills : fillsOf db.events m.body.orderId = [fill] := by
      rw [← hfill, heq]
      rfl
    rcases orderOutcome_cases houtcome with ⟨hnone, -⟩ | ⟨hnone, -⟩ | ⟨_, -, -, hended⟩
    · simp [hnone] at hfills
    · simp [hnone] at hfills
    · rw [← hstatus, hpoor] at hended
      rcases hended with hended | hended <;> cases hended

/-- No transition of a bound entry in an accepted ledger is for want of cash. -/
theorem neverInsufficient_of_ledger {db : Database} {ledger : Ledger}
    (hledger : buildLedger db = .ok ledger) {id : PaperId} {order : PaperOrder}
    (horder : findPaperOrder ledger.orders id = some order)
    (hbound : order.executionContext.isSome = true) : NeverInsufficient db.events id := by
  have hstatus := bound_status_ne hledger horder hbound
  obtain ⟨m, -, hm, hid⟩ := metadata_of_ledger hledger horder
  obtain ⟨_, _, _, submitted, accepted, rest, _, _, -, -, -, -, htransitions, hacceptance, houtcome,
    heq⟩ := orderFromMetadata_eq_ok.mp hm
  rw [heq] at hstatus hid
  have hrest := orderOutcome_solvent houtcome hstatus
  simp only [validateAcceptance, Except.bind_eq_ok, reject_eq_ok, not_or, not_not] at hacceptance
  obtain ⟨_, ⟨hsubmitted, haccepted⟩, -⟩ := hacceptance
  have hid : m.body.orderId = id := hid
  intro transition hmem
  rw [← hid, htransitions] at hmem
  rcases List.mem_cons.mp hmem with rfl | hmem
  · simp [hsubmitted]
  rcases List.mem_cons.mp hmem with rfl | hmem
  · simp [haccepted]
  · exact hrest transition hmem

/-- What has no want of cash keeps none. -/
theorem NeverInsufficient.keep {db db' : Database} {id : PaperId}
    (h : NeverInsufficient db.events id) (hkeeps : KeepsSolvent db db') :
    NeverInsufficient db'.events id := by
  intro transition hmem
  obtain ⟨hview, hid⟩ := List.mem_filter.mp hmem
  obtain ⟨e, he, hread, hstamp⟩ := mem_view.mp hview
  rcases hkeeps e he with hold | hnew
  · exact h transition (List.mem_filter.mpr ⟨mem_view.mpr ⟨e, hold, hread, hstamp⟩, hid⟩)
  · cases hpayload : e.payload <;> simp only [hpayload, readTransition, reduceCtorEq] at hread
    cases hread
    simpa [isInsufficient, hpayload] using hnew

/-- `process_open` leaves an order that is not active alone, and executes any other. -/
theorem processOpen_cases {db db' : Database} {ledger : Ledger}
    (hledger : buildLedger db = .ok ledger)
    {id : PaperId} {order : PaperOrder} (horder : findPaperOrder ledger.orders id = some order)
    {candle : ℤ} {openPrice : ℚ} {actual : Option ℚ} {result : Option PaperFill}
    (h : processOpen db id candle openPrice actual = .ok (result, db')) :
    result = none ∧ db' = db ∨
      processOrder db order candle openPrice actual ledger.openStops = .ok (result, db') := by
  simp only [processOpen, Except.bind_eq_ok, require_eq_ok, hledger, Except.ok.injEq] at h
  obtain ⟨_, -, _, -, _, -, _, rfl, found, hfound, h⟩ := h
  rw [horder, Option.some.injEq] at hfound
  subst hfound
  split_ifs at h with hinactive
  · simp only [Except.pure_eq_ok, Prod.mk.injEq] at h
    exact Or.inl ⟨h.1.symm, h.2.symm⟩
  · simp only [Except.bind_eq_ok] at h
    obtain ⟨_, -, _, -, _, -, _, -, h⟩ := h
    exact Or.inr h

/-- The execution cap at the open: a bound entry of an accepted ledger never ends for want of
cash, and a fill of it is within the exposure cap and the cash. It stays within the risk
budget, with the slippage of the exit, exactly when one of the limits on its quantity covers
that slippage. -/
theorem open_within_budget_iff {db db' : Database} {ledger : Ledger}
    (hledger : buildLedger db = .ok ledger) {id : PaperId} {order : PaperOrder}
    (horder : findPaperOrder ledger.orders id = some order) {context : EntryContext}
    (hcontext : order.executionContext = some context) {candle : ℤ} {openPrice : ℚ}
    {actual : Option ℚ} {result : Option PaperFill}
    (hopen : processOpen db id candle openPrice actual = .ok (result, db')) :
    NeverInsufficient db'.events id ∧ ∀ fill ∈ result,
      Affordable context fill ledger.snapshot.cash ∧
      (WithinBudget order context fill ledger.snapshot.cash ↔
        RiskCovered order context (actual.getD order.remainderQuantity)
          (computedFillPrice openPrice order.slippageRate order.side) ledger.snapshot.cash) := by
  have hsolvent := neverInsufficient_of_ledger hledger horder (by simp [hcontext])
  rcases processOpen_cases hledger horder hopen with ⟨rfl, rfl⟩ | hprocessed
  · exact ⟨hsolvent, by simp⟩
  obtain ⟨snapshot, hsnapshot, hkeeps, hfills⟩ :=
    processOrder_bound (bound_of_ledger hledger horder hcontext) hprocessed
  have hcash : snapshot = ledger.snapshot := snapshot_of_ledger hledger hsnapshot
  subst hcash
  refine ⟨hsolvent.keep hkeeps, ?_⟩
  intro fill hfill
  obtain ⟨hpositive, rfl⟩ := hfills fill hfill
  obtain ⟨m, -, hm, -⟩ := metadata_of_ledger hledger horder
  have hcapped := cappedAt_of_quantity hpositive
  have hwithin := min_le_right (actual.getD order.remainderQuantity)
    (executionQuantity context order.feeRate
      (computedFillPrice openPrice order.slippageRate order.side) ledger.snapshot.cash)
  have haffordable : Affordable context (fillAt order candle openPrice
      (cappedQuantity order context openPrice ledger.snapshot.cash actual)) ledger.snapshot.cash :=
    ⟨hcapped.exposure hwithin, hcapped.cost hwithin⟩
  have hrisk := hcapped.risk_iff rfl (slippageRate_nonneg hm) (actual.getD order.remainderQuantity)
  refine ⟨haffordable, ?_⟩
  rw [← hrisk, show min _ _ = cappedQuantity order context openPrice ledger.snapshot.cash actual
    from rfl, ← stoppedOutLoss_eq order candle openPrice]
  constructor
  · intro hbudget
    exact hbudget.risk
  · intro hloss
    exact ⟨haffordable, hloss⟩

/-- The sizing evidence of an entry at a price of 100 with an ATR of 2. -/
def gapContext : EntryContext where
  signalPrice := 100
  entryAtr := 2
  initialAtrMult := 25 / 10
  baselineAtrPct := 2 / 100
  riskRate := 2 / 100
  exposureCap := 70 / 100
  riskEventId := .risk 0

/-- The order of the entry. -/
def gapOrderId : PaperId := (orderIdentity 0 .buy "ENTRY" none).orderId

/-- An entry that is accepted at its signal with its sizing evidence. -/
def acceptGap : Except Failure Database := do
  let db ← appendEvent {} (.risk 0) 0 (.breakerState (.valid 1 { lastRiskAt := some 0 }))
  let (_, db) ← submitEntry {} db 0 (3849 / 10000) "ENTRY" (some gapContext)
  return db

/-- The database after the entry is accepted. -/
def gapAccepted : Database := (acceptGap.toOption).getD {}

/-- The ledger before the entry opens, its order, and what opening it gives. -/
def openGap (openPrice : ℚ) : Except Failure (Ledger × PaperOrder × Option PaperFill × Database) := do
  let ledger ← buildLedger gapAccepted
  let order ← require (findPaperOrder ledger.orders gapOrderId) (.value "unknown order id")
  let (fill, db) ← processOpen gapAccepted gapOrderId fourHours openPrice none
  return (ledger, order, fill, db)

/-- The opening of the gap returns the ledger, its order and what processing it gives. -/
theorem openGap_eq_ok {openPrice : ℚ} {ledger : Ledger} {order : PaperOrder}
    {fill : Option PaperFill} {db : Database} :
    openGap openPrice = .ok (ledger, order, fill, db) ↔ buildLedger gapAccepted = .ok ledger ∧
      findPaperOrder ledger.orders gapOrderId = some order ∧
      processOpen gapAccepted gapOrderId fourHours openPrice none = .ok (fill, db) := by
  simp only [openGap, Except.bind_eq_ok, require_eq_ok, Except.pure_eq_ok, Prod.mk.injEq]
  constructor
  · rintro ⟨_, hledger, _, horder, ⟨_, _⟩, hopen, rfl, rfl, rfl, rfl⟩
    exact ⟨hledger, horder, hopen⟩
  · rintro ⟨hledger, horder, hopen⟩
    exact ⟨ledger, hledger, order, horder, (fill, db), hopen, rfl, rfl, rfl, rfl⟩

/-- An entry that opens with a gap to 150 fills a quantity that can lose more than the risk
budget. -/
theorem not_withinBudget_of_gap : ∃ ledger order fill db, buildLedger gapAccepted = .ok ledger ∧
    findPaperOrder ledger.orders gapOrderId = some order ∧
    order.executionContext = some gapContext ∧
    processOpen gapAccepted gapOrderId fourHours 150 none = .ok (some fill, db) ∧
    ¬WithinBudget order gapContext fill ledger.snapshot.cash := by
  have hrun : (openGap 150).toOption.any (fun opened =>
      opened.2.1.executionContext = some gapContext ∧ ∃ fill ∈ opened.2.2.1,
        gapContext.riskRate * opened.1.snapshot.cash <
          stoppedOutLoss opened.2.1 fill (entryStop gapContext fill.fillPrice)) = true := by
    decide +kernel
  obtain ⟨⟨ledger, order, result, db⟩, hopened, hholds⟩ := (Option.any_eq_true _ _).mp hrun
  obtain ⟨hcontext, fill, hfill, hloss⟩ := of_decide_eq_true hholds
  obtain ⟨hledger, horder, hopen⟩ := openGap_eq_ok.mp (Except.toOption_eq_some.mp hopened)
  rw [Option.mem_def] at hfill
  subst hfill
  exact ⟨ledger, order, fill, db, hledger, horder, hcontext, hopen,
    fun hbudget => absurd hbudget.risk (not_le.mpr hloss)⟩

/-- An entry that opens at its signal price stays within the budget. -/
theorem open_within_budget_iff_unchanged : ∃ ledger order fill db,
    buildLedger gapAccepted = .ok ledger ∧
    processOpen gapAccepted gapOrderId fourHours 100 none = .ok (some fill, db) ∧
    NeverInsufficient db.events gapOrderId ∧
    WithinBudget order gapContext fill ledger.snapshot.cash := by
  have hrun : (openGap 100).toOption.any (fun opened =>
      opened.2.1.executionContext = some gapContext ∧ opened.2.2.1.isSome = true ∧
        opened.2.1.remainderQuantity * stoppedOutUnitLoss opened.2.1
            (computedFillPrice 100 opened.2.1.slippageRate opened.2.1.side)
            (entryStop gapContext
              (computedFillPrice 100 opened.2.1.slippageRate opened.2.1.side)) ≤
          gapContext.riskRate * opened.1.snapshot.cash) = true := by
    decide +kernel
  obtain ⟨⟨ledger, order, result, db⟩, hopened, hholds⟩ := (Option.any_eq_true _ _).mp hrun
  obtain ⟨hcontext, hsome, hloss⟩ := of_decide_eq_true hholds
  obtain ⟨hledger, horder, hopen⟩ := openGap_eq_ok.mp (Except.toOption_eq_some.mp hopened)
  obtain ⟨fill, rfl⟩ := Option.isSome_iff_exists.mp hsome
  obtain ⟨hsolvent, hfills⟩ := open_within_budget_iff hledger horder hcontext hopen
  exact ⟨ledger, order, fill, db, hledger, hopen, hsolvent,
    (hfills fill (Option.mem_some_self fill)).2.mpr (Or.inl hloss)⟩

end AutoBit.Broker
