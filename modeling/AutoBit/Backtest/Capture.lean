import AutoBit.Backtest.Engine
import AutoBit.Library.Loop
import Mathlib.Algebra.BigOperators.Group.List.Basic
import Mathlib.Data.List.Infix
import Mathlib.Tactic.Linarith
import Mathlib.Tactic.Ring

/-!
# The trade ledger of a backtest

The strategy reads the bits of an order once, from where it left off. Every captured fill goes to
the open position, and when a sale leaves no position the open fills become one trade record. The
ledger keeps in step with the broker as long as at most one order has bits that are not captured.
-/

namespace AutoBit.Backtest

open Library

/-- A bit of an order, as the ledger sees it. -/
structure Fill where
  ref : ℕ
  isBuy : Bool
  bit : ExecutionBit
  slippage : ℚ
  deriving DecidableEq, Repr

/-- The captured form of a fill. -/
def Fill.captured (fill : Fill) : FillBit :=
  ⟨fill.bit.dt, fill.bit.size, fill.bit.price, fill.bit.comm⟩

/-- What a fill adds to the position. -/
def Fill.signed (fill : Fill) : ℚ := if fill.isBuy then fill.bit.size else -fill.bit.size

/-- What a fill adds to the cash. -/
def Fill.flow (fill : Fill) : ℚ :=
  if fill.isBuy then -(fill.bit.size * fill.bit.price) - fill.bit.comm
  else fill.bit.size * fill.bit.price - fill.bit.comm

/-- What fills add to the position. -/
def netQuantity (fills : List Fill) : ℚ := (fills.map Fill.signed).sum

/-- What fills add to the cash. -/
def netFlow (fills : List Fill) : ℚ := (fills.map Fill.flow).sum

/-- No fills have no net quantity. -/
@[simp] theorem netQuantity_nil : netQuantity [] = 0 := rfl

/-- The net quantity counts the first fill with its sign. -/
@[simp] theorem netQuantity_cons (fill : Fill) (fills : List Fill) :
    netQuantity (fill :: fills) = fill.signed + netQuantity fills := by
  simp [netQuantity]

/-- The net quantity of two lists of fills is the sum of theirs. -/
@[simp] theorem netQuantity_append (fills fills' : List Fill) :
    netQuantity (fills ++ fills') = netQuantity fills + netQuantity fills' := by
  simp [netQuantity]

/-- No fills have no net flow. -/
@[simp] theorem netFlow_nil : netFlow [] = 0 := rfl

/-- The net flow counts the flow of the first fill. -/
@[simp] theorem netFlow_cons (fill : Fill) (fills : List Fill) :
    netFlow (fill :: fills) = fill.flow + netFlow fills := by
  simp [netFlow]

/-- The net flow of two lists of fills is the sum of theirs. -/
@[simp] theorem netFlow_append (fills fills' : List Fill) :
    netFlow (fills ++ fills') = netFlow fills + netFlow fills' := by
  simp [netFlow]

/-- The captured purchases. -/
def entryBits (fills : List Fill) : List FillBit := (fills.filter (·.isBuy)).map Fill.captured

/-- The captured sales. -/
def exitBits (fills : List Fill) : List FillBit := (fills.filter (!·.isBuy)).map Fill.captured

/-- The quantity of captured fills. -/
def quantityOf (bits : List FillBit) : ℚ := (bits.map FillBit.quantity).sum

/-- The value of captured fills. -/
def valueOf (bits : List FillBit) : ℚ := (bits.map fun fill => fill.quantity * fill.price).sum

/-- The fees of captured fills. -/
def feesOf (bits : List FillBit) : ℚ := (bits.map FillBit.comm).sum

/-- The position is what was bought less what was sold. -/
theorem netQuantity_eq (fills : List Fill) :
    netQuantity fills = quantityOf (entryBits fills) - quantityOf (exitBits fills) := by
  induction fills with
  | nil => simp [quantityOf, entryBits, exitBits]
  | cons fill fills ih =>
    cases hbuy : fill.isBuy <;>
      simp [netQuantity, quantityOf, entryBits, exitBits, Fill.signed, Fill.captured, hbuy] at ih ⊢ <;>
      linarith

/-- The cash is what the sales brought less what the purchases cost, fees included. -/
theorem netFlow_eq (fills : List Fill) :
    netFlow fills = (valueOf (exitBits fills) - feesOf (exitBits fills)) -
      (valueOf (entryBits fills) + feesOf (entryBits fills)) := by
  induction fills with
  | nil => simp [valueOf, feesOf, entryBits, exitBits]
  | cons fill fills ih =>
    cases hbuy : fill.isBuy <;>
      simp [netFlow, valueOf, feesOf, entryBits, exitBits, Fill.flow, Fill.captured, hbuy]
        at ih ⊢ <;>
      linarith

/-- A trade record accounts for a group of fills: what was bought was sold, and the net profit is
what the sales brought less what the purchases cost, fees included. -/
structure Closes (fills : List Fill) (trade : TradeRecord) : Prop where
  entry : quantityOf (entryBits fills) = trade.quantity
  exit : quantityOf (exitBits fills) = trade.quantity
  gross : trade.grossPnl = valueOf (exitBits fills) - valueOf (entryBits fills)
  fees : trade.fees = feesOf (entryBits fills) + feesOf (exitBits fills)
  net : trade.netPnl = trade.grossPnl - trade.fees

/-- The net profit of a trade is the cash of its fills. -/
theorem Closes.netPnl_eq {fills : List Fill} {trade : TradeRecord} (h : Closes fills trade) :
    trade.netPnl = netFlow fills := by
  rw [h.net, h.gross, h.fees, netFlow_eq]
  ring

/-- The net profits of trades are the cash of their fills. -/
theorem sum_netPnl {closed : List (List Fill)} {trades : List TradeRecord}
    (h : List.Forall₂ Closes closed trades) :
    (trades.map TradeRecord.netPnl).sum = netFlow closed.flatten := by
  induction h with
  | nil => rfl
  | cons hhead _ ih =>
    rw [List.map_cons, List.sum_cons, ih, hhead.netPnl_eq, List.flatten_cons, netFlow_append]

/-! ## The books of the strategy -/

/-- The books of the strategy account for the captured fills: those of the trades, and those of
the open position. -/
structure Books (config : EngineConfig) (orders : List NativeOrder) (strategy : StrategyState)
    (closed : List (List Fill)) (open_ : List Fill) : Prop where
  fees : strategy.totalFees = ((closed.flatten ++ open_).map fun fill => fill.bit.comm).sum
  slippage : strategy.totalSlippage = ((closed.flatten ++ open_).map Fill.slippage).sum
  trades : List.Forall₂ Closes closed strategy.tradeRecords
  entry : strategy.entryFillBits = entryBits open_
  exit : strategy.exitFillBits = exitBits open_
  known : ∀ fill ∈ closed.flatten ++ open_, ∃ order, orders[fill.ref]? = some order ∧
    fill.isBuy = order.isBuy ∧ bitSlippage config order fill.bit = .ok fill.slippage
  sizes : ∀ fill ∈ open_, 0 < fill.bit.size

/-- Bits that are not yet captured: each leaves a position, and the last one leaves the position
of the broker. -/
def Chained (position : ℚ) (pending : List Fill) : Prop :=
  ∀ fill after, fill :: after <:+ pending → 0 < fill.bit.size ∧
    fill.bit.psize + netQuantity after = position ∧
    (fill.bit.psize = 0 ∨ 1 / 10 ^ 12 < fill.bit.psize) ∧ (fill.isBuy = true → 0 < fill.bit.psize)

/-- What the notifications and the bars decide on is left as it is. -/
structure SameControl (strategy strategy' : StrategyState) : Prop where
  entryOrder : strategy'.entryOrder = strategy.entryOrder
  entryPartialPending : strategy'.entryPartialPending = strategy.entryPartialPending
  gapHandled : strategy'.gapHandledCurrentBar = strategy.gapHandledCurrentBar
  stopOrder : strategy'.stopOrder = strategy.stopOrder
  exitOrder : strategy'.exitOrder = strategy.exitOrder
  seen : strategy'.seenExecutionBits = strategy.seenExecutionBits

/-- A strategy has the same control as itself. -/
theorem SameControl.refl (strategy : StrategyState) : SameControl strategy strategy :=
  ⟨rfl, rfl, rfl, rfl, rfl, rfl⟩

/-- Sales of which each has a positive quantity have one together. -/
theorem quantityOf_exitBits_pos {fills : List Fill} {fill : Fill} (hfill : fill ∈ fills)
    (hsale : fill.isBuy = false) (hsizes : ∀ fill ∈ fills, 0 < fill.bit.size) :
    0 < quantityOf (exitBits fills) := by
  refine List.sum_pos _ ?_ ?_
  · intro quantity hquantity
    obtain ⟨bit, hbit, rfl⟩ := List.mem_map.mp hquantity
    obtain ⟨sale, hsale, rfl⟩ := List.mem_map.mp hbit
    exact hsizes sale (List.mem_of_mem_filter hsale)
  · intro hnil
    have hmem : fill ∈ fills.filter (!·.isBuy) := List.mem_filter.mpr ⟨hfill, by simp [hsale]⟩
    simp only [exitBits, List.map_eq_nil_iff] at hnil
    rw [hnil] at hmem
    cases hmem

/-- A trade record is written when fills that leave no position include a sale. -/
theorem recordCompletedTrade_books {config : EngineConfig} {orders : List NativeOrder}
    {strategy : StrategyState} {closed : List (List Fill)} {open_ : List Fill} {fill : Fill}
    (exitReason : String) (h : Books config orders strategy closed open_) (hfill : fill ∈ open_)
    (hsale : fill.isBuy = false) (hflat : netQuantity open_ = 0) :
    Books config orders (recordCompletedTrade strategy exitReason) (closed ++ [open_]) [] ∧
      SameControl strategy (recordCompletedTrade strategy exitReason) := by
  have hexit := quantityOf_exitBits_pos hfill hsale h.sizes
  have hentry : quantityOf (entryBits open_) = quantityOf (exitBits open_) := by
    rw [netQuantity_eq] at hflat
    linarith
  obtain ⟨first, hfirst⟩ : ∃ first, strategy.entryFillBits.head? = some first := by
    cases hbits : strategy.entryFillBits with
    | nil =>
      rw [← h.entry, hbits] at hentry
      simp only [quantityOf, List.map_nil, List.sum_nil] at hentry hexit
      linarith
    | cons first entries => exact ⟨first, rfl⟩
  obtain ⟨last, hlast⟩ : ∃ last, strategy.exitFillBits.getLast? = some last := by
    cases hbits : strategy.exitFillBits.getLast? with
    | none =>
      rw [← h.exit, List.getLast?_eq_none_iff.mp hbits] at hexit
      simp [quantityOf] at hexit
    | some last => exact ⟨last, rfl⟩
  have hentryBits := h.entry
  have hexitBits := h.exit
  have hpositive : ¬((strategy.entryFillBits.map FillBit.quantity).sum ≤ 0 ∨
      (strategy.exitFillBits.map FillBit.quantity).sum ≤ 0) := by
    rw [hentryBits, hexitBits, not_or, not_le, not_le]
    exact ⟨by rw [quantityOf] at hentry; linarith, hexit⟩
  simp only [recordCompletedTrade, hfirst, hlast, if_neg hpositive]
  refine ⟨⟨?_, ?_, ?_, rfl, rfl, ?_, by simp⟩, rfl, rfl, rfl, rfl, rfl, rfl⟩
  · simpa using h.fees
  · simpa using h.slippage
  · refine List.rel_append h.trades (List.Forall₂.cons ⟨?_, ?_, ?_, ?_, rfl⟩ List.Forall₂.nil)
    · rw [← hentryBits]
      rfl
    · rw [← hentry, ← hentryBits]
      rfl
    · rw [← hentryBits, ← hexitBits]
      rfl
    · rw [← hentryBits, ← hexitBits]
      simp [feesOf]
  · intro fill hfill
    exact h.known fill (by simpa using hfill)

/-- One more captured fill, before any trade record is written. -/
theorem Books.push {config : EngineConfig} {orders : List NativeOrder}
    {strategy strategy' : StrategyState} {closed : List (List Fill)} {open_ : List Fill}
    {order : NativeOrder} {ref : ℕ} {bit : ExecutionBit} {slippage : ℚ}
    (h : Books config orders strategy closed open_) (horder : orders[ref]? = some order)
    (hslippage : bitSlippage config order bit = .ok slippage) (hsize : 0 < bit.size)
    (hfees : strategy'.totalFees = strategy.totalFees + bit.comm)
    (htotal : strategy'.totalSlippage = strategy.totalSlippage + slippage)
    (htrades : strategy'.tradeRecords = strategy.tradeRecords)
    (hentry : strategy'.entryFillBits = strategy.entryFillBits ++
      entryBits [⟨ref, order.isBuy, bit, slippage⟩])
    (hexit : strategy'.exitFillBits = strategy.exitFillBits ++
      exitBits [⟨ref, order.isBuy, bit, slippage⟩]) :
    Books config orders strategy' closed (open_ ++ [⟨ref, order.isBuy, bit, slippage⟩]) where
  fees := by simp [hfees, h.fees, add_assoc]
  slippage := by simp [htotal, h.slippage, add_assoc]
  trades := by rw [htrades]; exact h.trades
  entry := by rw [hentry, h.entry]; simp [entryBits]
  exit := by rw [hexit, h.exit]; simp [exitBits]
  known := by
    intro fill hfill
    rw [← List.append_assoc, List.mem_append, List.mem_singleton] at hfill
    rcases hfill with hold | rfl
    · exact h.known fill hold
    · exact ⟨order, horder, rfl, hslippage⟩
  sizes := by
    intro fill hfill
    rcases List.mem_append.mp hfill with hold | hnew
    · exact h.sizes fill hold
    · rw [List.mem_singleton.mp hnew]
      exact hsize

/-- The fills of bits of an order that are not yet captured. -/
def pendingOf (ref : ℕ) (order : NativeOrder) (bits : List ExecutionBit) : List Fill :=
  bits.map fun bit => ⟨ref, order.isBuy, bit, 0⟩

/-- A round of the capture loop books its bit, and closes the trade when a sale leaves no
position. -/
theorem captureBit_books {config : EngineConfig} {orders : List NativeOrder}
    {strategy strategy' : StrategyState} {closed : List (List Fill)} {open_ : List Fill}
    {order : NativeOrder} {ref : ℕ} {bit : ExecutionBit}
    (h : Books config orders strategy closed open_) (horder : orders[ref]? = some order)
    (hsize : 0 < bit.size) (hpsize : bit.psize = 0 ∨ 1 / 10 ^ 12 < bit.psize)
    (hposition : bit.psize = netQuantity (open_ ++ pendingOf ref order [bit]))
    (hbuy : order.isBuy = true → 0 < bit.psize)
    (hcapture : captureBit config order strategy bit = .ok strategy') :
    ∃ slippage closed' open', Books config orders strategy' closed' open' ∧
      closed'.flatten ++ open' = closed.flatten ++ open_ ++ [⟨ref, order.isBuy, bit, slippage⟩] ∧
      netQuantity open' = bit.psize ∧ (bit.psize = 0 → open' = []) ∧
      SameControl strategy strategy' := by
  obtain ⟨slippage, hslippage, hcapture⟩ := Except.bind_eq_ok.mp hcapture
  cases hcapture
  have hnet : netQuantity (open_ ++ [⟨ref, order.isBuy, bit, slippage⟩]) = bit.psize := by
    rw [hposition]
    simp [pendingOf, Fill.signed]
  cases hside : order.isBuy with
  | true =>
    refine ⟨slippage, closed, open_ ++ [⟨ref, true, bit, slippage⟩], ?_, by simp, hside ▸ hnet,
      fun hflat => absurd hflat (hbuy hside).ne', ?_⟩
    · rw [← hside]
      exact h.push horder hslippage hsize (by simp [captureTradeFill, hside])
        (by simp [captureTradeFill, hside]) (by simp [captureTradeFill, hside])
        (by simp [captureTradeFill, hside, entryBits, Fill.captured])
        (by simp [captureTradeFill, hside, exitBits])
    · simp only [captureTradeFill, hside, if_true]
      exact ⟨rfl, rfl, rfl, rfl, rfl, rfl⟩
  | false =>
    let booked : StrategyState := { strategy with
      totalFees := strategy.totalFees + bit.comm
      totalSlippage := strategy.totalSlippage + slippage
      exitFillBits := strategy.exitFillBits ++ [⟨bit.dt, bit.size, bit.price, bit.comm⟩] }
    have hpushed : Books config orders booked closed
        (open_ ++ [⟨ref, order.isBuy, bit, slippage⟩]) :=
      h.push horder hslippage hsize rfl rfl rfl (by simp [booked, hside, entryBits])
        (by simp [booked, hside, exitBits, Fill.captured])
    rw [hside] at hpushed hnet
    simp only [captureTradeFill, hside, Bool.false_eq_true, if_false]
    by_cases hlarge : 1 / 10 ^ 12 < |bit.psize|
    · rw [if_pos hlarge]
      refine ⟨slippage, closed, _, hpushed, by simp, hnet, fun hflat => ?_, rfl, rfl, rfl, rfl,
        rfl, rfl⟩
      rw [hflat] at hlarge
      norm_num at hlarge
    · rw [if_neg hlarge]
      have hflat : bit.psize = 0 := by
        refine hpsize.resolve_right fun hpos => hlarge (hpos.trans_le (le_abs_self _))
      rw [hflat] at hnet
      obtain ⟨hbooks, hsame⟩ :=
        recordCompletedTrade_books order.info.reason hpushed
          (List.mem_append_right _ (List.mem_singleton_self _)) rfl hnet
      refine ⟨slippage, _, [], hbooks, by simp, by simp [hflat], fun _ => rfl, ?_⟩
      exact ⟨hsame.entryOrder, hsame.entryPartialPending, hsame.gapHandled, hsame.stopOrder,
        hsame.exitOrder, hsame.seen⟩

/-- The capture loop books the bits of an order, each once. When it ends, the open fills make the
position, and without a position no fill is open. -/
theorem foldlM_captureBit_books {config : EngineConfig} {orders : List NativeOrder}
    {strategy strategy' : StrategyState} {closed : List (List Fill)} {open_ : List Fill}
    {order : NativeOrder} {ref : ℕ} {bits : List ExecutionBit} {position : ℚ}
    (h : Books config orders strategy closed open_) (horder : orders[ref]? = some order)
    (hposition : position = netQuantity (open_ ++ pendingOf ref order bits))
    (hchained : Chained position (pendingOf ref order bits))
    (hflat : bits = [] → position = 0 → open_ = [])
    (hcapture : bits.foldlM (captureBit config order) strategy = .ok strategy') :
    ∃ fills closed' open', Books config orders strategy' closed' open' ∧
      closed'.flatten ++ open' = closed.flatten ++ open_ ++ fills ∧
      fills.map Fill.bit = bits ∧ (∀ fill ∈ fills, fill.ref = ref ∧ fill.isBuy = order.isBuy) ∧
      netQuantity open' = position ∧ (position = 0 → open' = []) ∧
      SameControl strategy strategy' := by
  induction bits generalizing strategy closed open_ with
  | nil =>
    cases hcapture
    refine ⟨[], closed, open_, h, by simp, rfl, by simp, ?_, hflat rfl, SameControl.refl _⟩
    rw [hposition]
    simp [pendingOf]
  | cons bit bits ih =>
    rw [List.foldlM_cons, Except.bind_eq_ok] at hcapture
    obtain ⟨mid, hbit, hbits⟩ := hcapture
    obtain ⟨hsize, hleaves, hpsize, hbuy⟩ := hchained ⟨ref, order.isBuy, bit, 0⟩
      (pendingOf ref order bits) (List.suffix_refl _)
    have hnet : bit.psize = netQuantity (open_ ++ pendingOf ref order [bit]) := by
      simp only [pendingOf, List.map_cons, netQuantity_append, netQuantity_cons, List.map_nil,
        netQuantity_nil] at hposition hleaves ⊢
      linarith
    obtain ⟨slippage, closed₁, open₁, hbooks, hfills, hopen, hnone, hsame⟩ :=
      captureBit_books h horder hsize hpsize hnet hbuy hbit
    have hrest : Chained position (pendingOf ref order bits) := fun fill after hsuffix =>
      hchained fill after (hsuffix.trans (List.suffix_cons _ _))
    have hposition₁ : position = netQuantity (open₁ ++ pendingOf ref order bits) := by
      rw [netQuantity_append, hopen, hleaves]
    have hflat₁ : bits = [] → position = 0 → open₁ = [] := by
      intro hnil hzero
      subst hnil
      refine hnone ?_
      rw [← hzero, ← hleaves]
      simp [pendingOf]
    obtain ⟨fills, closed₂, open₂, hbooks₂, hfills₂, hmap, hrefs, hopen₂, hnone₂, hsame₂⟩ :=
      ih hbooks hposition₁ hrest hflat₁ hbits
    refine ⟨⟨ref, order.isBuy, bit, slippage⟩ :: fills, closed₂, open₂, hbooks₂, ?_, by simp [hmap],
      ?_, hopen₂, hnone₂, ?_⟩
    · rw [hfills₂, hfills]
      simp
    · intro fill hfill
      rcases List.mem_cons.mp hfill with rfl | htail
      · exact ⟨rfl, rfl⟩
      · exact hrefs fill htail
    · exact ⟨hsame₂.entryOrder.trans hsame.entryOrder,
        hsame₂.entryPartialPending.trans hsame.entryPartialPending,
        hsame₂.gapHandled.trans hsame.gapHandled, hsame₂.stopOrder.trans hsame.stopOrder,
        hsame₂.exitOrder.trans hsame.exitOrder, hsame₂.seen.trans hsame.seen⟩

/-! ## The ledger of a run -/

/-- The bits of an order that are not captured. -/
def pendingFills (world : World) (ref : ℕ) : List Fill :=
  match world.broker.orders[ref]? with
  | some order => pendingOf ref order (order.exbits.drop (world.strategy.seenExecutionBits ref))
  | none => []

/-- The ledger of a run in which at most one order, the focus, has bits that are not captured:
every other bit is in the books once, and with the pending bits the books make the position and
the cash of the broker. -/
structure Ledger (config : EngineConfig) (cash : ℚ) (world : World) (focus : ℕ)
    (closed : List (List Fill)) (open_ : List Fill) : Prop where
  books : Books config world.broker.orders world.strategy closed open_
  once : ∀ ref order, world.broker.orders[ref]? = some order →
    ((closed.flatten ++ open_).filter (·.ref = ref)).map Fill.bit =
      order.exbits.take (world.strategy.seenExecutionBits ref)
  seen_le : ∀ ref order, world.broker.orders[ref]? = some order →
    world.strategy.seenExecutionBits ref ≤ order.exbits.length
  settled : ∀ ref order, ref ≠ focus → world.broker.orders[ref]? = some order →
    order.exbits.length ≤ world.strategy.seenExecutionBits ref
  fresh : ∀ ref, world.broker.orders.length ≤ ref → world.strategy.seenExecutionBits ref = 0
  position : world.broker.position = netQuantity (open_ ++ pendingFills world focus)
  cash : world.broker.cash =
    cash + netFlow (closed.flatten ++ open_ ++ pendingFills world focus)
  chained : Chained world.broker.position (pendingFills world focus)
  flat : pendingFills world focus = [] → world.broker.position = 0 → open_ = []
  nonneg : world.broker.position = 0 ∨ 1 / 10 ^ 12 < world.broker.position

/-- The terms of an order, which never change. -/
structure SameTerms (order order' : NativeOrder) : Prop where
  isBuy : order'.isBuy = order.isBuy
  execType : order'.execType = order.execType
  info : order'.info = order.info

/-- The slippage of a bit depends on the terms of its order. -/
theorem SameTerms.bitSlippage_eq {order order' : NativeOrder} (h : SameTerms order order')
    (config : EngineConfig) (bit : ExecutionBit) :
    bitSlippage config order' bit = bitSlippage config order bit := by
  rw [bitSlippage, bitSlippage, h.isBuy, h.execType, h.info]

/-- The books stand when the orders keep their terms. -/
theorem Books.of_sameTerms {config : EngineConfig} {orders orders' : List NativeOrder}
    {strategy : StrategyState} {closed : List (List Fill)} {open_ : List Fill}
    (h : Books config orders strategy closed open_)
    (hkept : ∀ (ref : ℕ) order, orders[ref]? = some order →
      ∃ order', orders'[ref]? = some order' ∧ SameTerms order order') :
    Books config orders' strategy closed open_ where
  fees := h.fees
  slippage := h.slippage
  trades := h.trades
  entry := h.entry
  exit := h.exit
  known := by
    intro fill hfill
    obtain ⟨order, horder, hside, hslippage⟩ := h.known fill hfill
    obtain ⟨order', horder', hterms⟩ := hkept fill.ref order horder
    exact ⟨order', horder', hside.trans hterms.isBuy.symm,
      (hterms.bitSlippage_eq config fill.bit).trans hslippage⟩
  sizes := h.sizes

/-- Orders are changed without an execution, and new ones have none. -/
structure Extends (orders orders' : List NativeOrder) : Prop where
  kept : ∀ (ref : ℕ) order, orders[ref]? = some order →
    ∃ order', orders'[ref]? = some order' ∧ SameTerms order order' ∧ order'.exbits = order.exbits
  new : ∀ (ref : ℕ) order', orders'[ref]? = some order' → orders[ref]? = none → order'.exbits = []

/-- A step of a run leaves the books, the position and the cash, and executes nothing. -/
structure SameBooks (world world' : World) : Prop where
  totalFees : world'.strategy.totalFees = world.strategy.totalFees
  totalSlippage : world'.strategy.totalSlippage = world.strategy.totalSlippage
  tradeRecords : world'.strategy.tradeRecords = world.strategy.tradeRecords
  seen : world'.strategy.seenExecutionBits = world.strategy.seenExecutionBits
  entryFillBits : world'.strategy.entryFillBits = world.strategy.entryFillBits
  exitFillBits : world'.strategy.exitFillBits = world.strategy.exitFillBits
  position : world'.broker.position = world.broker.position
  cash : world'.broker.cash = world.broker.cash
  orders : Extends world.broker.orders world'.broker.orders

/-- Nothing executed, nothing is pending that was not. -/
theorem SameBooks.pendingFills_eq {world world' : World} (h : SameBooks world world') (ref : ℕ) :
    pendingFills world' ref = pendingFills world ref := by
  rw [pendingFills, pendingFills, h.seen]
  cases horder : world.broker.orders[ref]? with
  | some order =>
    obtain ⟨order', horder', hterms, hbits⟩ := h.orders.kept ref order horder
    rw [horder']
    simp only [pendingOf, hbits, hterms.isBuy]
  | none =>
    cases horder' : world'.broker.orders[ref]? with
    | none => rfl
    | some order' => simp [pendingOf, h.orders.new ref order' horder' horder]

/-- The ledger stands when the books, the position and the cash do and nothing is executed. -/
theorem Ledger.of_sameBooks {config : EngineConfig} {cash : ℚ} {world world' : World} {focus : ℕ}
    {closed : List (List Fill)} {open_ : List Fill}
    (h : Ledger config cash world focus closed open_) (hsame : SameBooks world world') :
    Ledger config cash world' focus closed open_ := by
  have hpending := hsame.pendingFills_eq focus
  have hbooks := h.books.of_sameTerms fun ref order horder =>
    (hsame.orders.kept ref order horder).imp fun _ hkept => ⟨hkept.1, hkept.2.1⟩
  have hfresh : ∀ ref, world.broker.orders[ref]? = none → world.strategy.seenExecutionBits ref = 0 :=
    fun ref hnone => h.fresh ref (List.getElem?_eq_none_iff.mp hnone)
  refine ⟨⟨?_, ?_, ?_, ?_, ?_, hbooks.known, hbooks.sizes⟩, ?_, ?_, ?_, ?_, ?_, ?_, ?_, ?_, ?_⟩
  · rw [hsame.totalFees, hbooks.fees]
  · rw [hsame.totalSlippage, hbooks.slippage]
  · rw [hsame.tradeRecords]
    exact hbooks.trades
  · rw [hsame.entryFillBits, hbooks.entry]
  · rw [hsame.exitFillBits, hbooks.exit]
  · intro ref order' horder'
    rw [hsame.seen]
    cases horder : world.broker.orders[ref]? with
    | some order =>
      obtain ⟨order'', horder'', -, hbits⟩ := hsame.orders.kept ref order horder
      cases horder'.symm.trans horder''
      rw [h.once ref order horder, hbits]
    | none =>
      rw [hfresh ref horder, List.take_zero, List.map_eq_nil_iff, List.filter_eq_nil_iff]
      intro fill hfill heq
      obtain ⟨order, hknown, -⟩ := h.books.known fill hfill
      rw [of_decide_eq_true heq, horder] at hknown
      cases hknown
  · intro ref order' horder'
    rw [hsame.seen]
    cases horder : world.broker.orders[ref]? with
    | some order =>
      obtain ⟨order'', horder'', -, hbits⟩ := hsame.orders.kept ref order horder
      cases horder'.symm.trans horder''
      rw [hbits]
      exact h.seen_le ref order horder
    | none =>
      rw [hfresh ref horder]
      exact Nat.zero_le _
  · intro ref order' hne horder'
    rw [hsame.seen]
    cases horder : world.broker.orders[ref]? with
    | some order =>
      obtain ⟨order'', horder'', -, hbits⟩ := hsame.orders.kept ref order horder
      cases horder'.symm.trans horder''
      rw [hbits]
      exact h.settled ref order hne horder
    | none =>
      rw [hsame.orders.new ref order' horder' horder]
      exact Nat.zero_le _
  · intro ref hlength
    rw [hsame.seen]
    refine hfresh ref ?_
    cases horder : world.broker.orders[ref]? with
    | none => rfl
    | some order =>
      obtain ⟨order', horder', -⟩ := hsame.orders.kept ref order horder
      rw [List.getElem?_eq_none_iff.mpr hlength] at horder'
      cases horder'
  · rw [hsame.position, hpending, h.position]
  · rw [hsame.cash, hpending, h.cash]
  · rw [hsame.position, hpending]
    exact h.chained
  · rw [hsame.position, hpending]
    exact h.flat
  · rw [hsame.position]
    exact h.nonneg

/-- When nothing is pending, any order may have the next bits. -/
theorem Ledger.refocus {config : EngineConfig} {cash : ℚ} {world : World} {focus : ℕ}
    {closed : List (List Fill)} {open_ : List Fill}
    (h : Ledger config cash world focus closed open_) (hnone : pendingFills world focus = [])
    (ref : ℕ) : Ledger config cash world ref closed open_ ∧ pendingFills world ref = [] := by
  have hsettled : ∀ ref order, world.broker.orders[ref]? = some order →
      order.exbits.length ≤ world.strategy.seenExecutionBits ref := by
    intro ref order horder
    by_cases heq : ref = focus
    · subst heq
      simpa [pendingFills, horder, pendingOf] using hnone
    · exact h.settled ref order heq horder
  have hpending : pendingFills world ref = [] := by
    cases horder : world.broker.orders[ref]? with
    | none => simp [pendingFills, horder]
    | some order => simp [pendingFills, horder, pendingOf, hsettled ref order horder]
  refine ⟨⟨h.books, h.once, h.seen_le, fun ref order _ => hsettled ref order, h.fresh, ?_, ?_, ?_, ?_,
    h.nonneg⟩, hpending⟩
  · rw [hpending, ← hnone]
    exact h.position
  · rw [hpending, ← hnone]
    exact h.cash
  · rw [hpending, ← hnone]
    exact h.chained
  · exact fun _ => h.flat hnone

/-- Fills that differ from pending ones in their slippage only add the same to the cash. -/
theorem netFlow_pendingOf {ref : ℕ} {order : NativeOrder} {fills : List Fill}
    (h : ∀ fill ∈ fills, fill.ref = ref ∧ fill.isBuy = order.isBuy) :
    netFlow (pendingOf ref order (fills.map Fill.bit)) = netFlow fills := by
  induction fills with
  | nil => rfl
  | cons fill fills ih =>
    have htail := ih fun later hlater => h later (List.mem_cons_of_mem fill hlater)
    simp only [pendingOf, List.map_map] at htail
    simp [pendingOf, Fill.flow, (h fill (by simp)).2, htail]

/-- Capturing the bits of an order books those that are pending, each once, and leaves nothing of
that order pending. -/
theorem Ledger.capture {config : EngineConfig} {cash : ℚ} {world : World} {focus : ℕ}
    {closed : List (List Fill)} {open_ : List Fill}
    (h : Ledger config cash world focus closed open_) {ref : ℕ} {order : NativeOrder}
    (horder : world.broker.orders[ref]? = some order) {strategy : StrategyState}
    (hcapture : captureNewFills config world.strategy ref order = .ok strategy) :
    ∃ closed' open', Ledger config cash { world with strategy } focus closed' open' ∧
      (ref = focus ∨ pendingFills world focus = [] →
        pendingFills { world with strategy } focus = []) ∧
      strategy.entryOrder = world.strategy.entryOrder ∧
      strategy.entryPartialPending = world.strategy.entryPartialPending ∧
      strategy.gapHandledCurrentBar = world.strategy.gapHandledCurrentBar ∧
      strategy.stopOrder = world.strategy.stopOrder ∧
      strategy.exitOrder = world.strategy.exitOrder := by
  obtain ⟨captured, hfold, hstrategy⟩ := Except.bind_eq_ok.mp hcapture
  cases hstrategy
  by_cases hfocus : ref = focus
  · subst hfocus
    have hpending : pendingFills world ref =
        pendingOf ref order (order.exbits.drop (world.strategy.seenExecutionBits ref)) := by
      simp [pendingFills, horder]
    obtain ⟨fills, closed', open', hbooks, hall, hbits, hrefs, hopen, hflat, hsame⟩ :=
      foldlM_captureBit_books h.books horder (hpending ▸ h.position) (hpending ▸ h.chained)
        (fun hnil => h.flat (by rw [hpending, hnil]; rfl)) hfold
    have hdone : pendingFills { world with strategy := markSeen captured ref order.exbits.length }
        ref = [] := by
      simp [pendingFills, horder, pendingOf, markSeen]
    refine ⟨closed', open', ⟨⟨hbooks.fees, hbooks.slippage, hbooks.trades, hbooks.entry, hbooks.exit,
      hbooks.known, hbooks.sizes⟩, ?_, ?_, ?_, ?_, ?_, ?_, ?_, fun _ => hflat, h.nonneg⟩,
      fun _ => hdone, hsame.entryOrder, hsame.entryPartialPending, hsame.gapHandled,
      hsame.stopOrder, hsame.exitOrder⟩
    · intro other order' horder'
      rw [hall, List.filter_append, List.map_append, h.once other order' horder']
      by_cases hother : other = ref
      · subst hother
        cases horder.symm.trans horder'
        have hown : fills.filter (·.ref = other) = fills :=
          List.filter_eq_self.mpr fun fill hfill => decide_eq_true (hrefs fill hfill).1
        rw [hown, hbits, List.take_append_drop]
        simp [markSeen]
      · have hnone : fills.filter (·.ref = other) = [] :=
          List.filter_eq_nil_iff.mpr fun fill hfill heq =>
            hother ((of_decide_eq_true heq).symm.trans (hrefs fill hfill).1)
        rw [hnone]
        simp [markSeen, Function.update_of_ne hother, hsame.seen]
    · intro other order' horder'
      by_cases hother : other = ref
      · subst hother
        cases horder.symm.trans horder'
        simp [markSeen]
      · simpa [markSeen, Function.update_of_ne hother, hsame.seen] using h.seen_le other order' horder'
    · intro other order' hother horder'
      simpa [markSeen, Function.update_of_ne hother, hsame.seen] using h.settled other order' hother
        horder'
    · intro other hlength
      have hother : other ≠ ref := by
        rintro rfl
        rw [List.getElem?_eq_none_iff.mpr hlength] at horder
        cases horder
      simpa [markSeen, Function.update_of_ne hother, hsame.seen] using h.fresh other hlength
    · rw [hdone, List.append_nil]
      exact hopen.symm
    · have hcash := h.cash
      rw [hpending, ← hbits, netFlow_append, netFlow_pendingOf hrefs] at hcash
      rw [hdone, List.append_nil, hall, netFlow_append]
      exact hcash
    · rw [hdone]
      intro fill after hsuffix
      simp at hsuffix
  · have hseen : world.strategy.seenExecutionBits ref = order.exbits.length :=
      le_antisymm (h.seen_le ref order horder) (h.settled ref order hfocus horder)
    rw [hseen, List.drop_length] at hfold
    cases hfold
    have hsame : markSeen world.strategy ref order.exbits.length = world.strategy := by
      rw [markSeen, ← hseen, Function.update_eq_self]
    rw [hsame]
    exact ⟨closed, open_, h, fun hnone => hnone.resolve_left hfocus, rfl, rfl, rfl, rfl,
      rfl⟩

/-- The ledger with one more pending bit of the order that is executed. -/
theorem Ledger.addBit {config : EngineConfig} {cash : ℚ} {world : World} {ref : ℕ}
    {closed : List (List Fill)} {open_ : List Fill}
    (h : Ledger config cash world ref closed open_) {order order' : NativeOrder}
    {bit : ExecutionBit} {broker : NativeBroker}
    (horder : world.broker.orders[ref]? = some order) (hterms : SameTerms order order')
    (hbits : order'.exbits = order.exbits ++ [bit])
    (horders : broker.orders = world.broker.orders.set ref order')
    (hposition : broker.position = world.broker.position + Fill.signed ⟨ref, order.isBuy, bit, 0⟩)
    (hcash : broker.cash = world.broker.cash + Fill.flow ⟨ref, order.isBuy, bit, 0⟩)
    (hpsize : bit.psize = broker.position) (hsize : 0 < bit.size)
    (hnonneg : broker.position = 0 ∨ 1 / 10 ^ 12 < broker.position) :
    Ledger config cash { world with broker } ref closed open_ := by
  have hlength : ref < world.broker.orders.length := (List.getElem?_eq_some_iff.mp horder).1
  have hown : broker.orders[ref]? = some order' := by
    rw [horders, List.getElem?_set_self hlength]
  have hother : ∀ other, other ≠ ref → broker.orders[other]? = world.broker.orders[other]? := by
    intro other hne
    rw [horders, List.getElem?_set_ne (Ne.symm hne)]
  have hseen := h.seen_le ref order horder
  have hpending : pendingFills { world with broker } ref =
      pendingFills world ref ++ [⟨ref, order.isBuy, bit, 0⟩] := by
    simp only [pendingFills, hown, horder, hbits, hterms.isBuy, pendingOf,
      List.drop_append_of_le_length hseen, List.map_append, List.map_singleton]
  have hbuy : order.isBuy = true → 0 < broker.position := by
    intro hside
    have hprevious : 0 ≤ world.broker.position := by
      rcases h.nonneg with hzero | hpos <;> linarith
    rw [hposition]
    simp only [Fill.signed, hside, if_true]
    linarith
  refine ⟨h.books.of_sameTerms ?_, ?_, ?_, ?_, ?_, ?_, ?_, ?_, ?_, hnonneg⟩
  · intro other order₁ horder₁
    by_cases heq : other = ref
    · subst heq
      cases horder.symm.trans horder₁
      exact ⟨order', hown, hterms⟩
    · exact ⟨order₁, (hother other heq).trans horder₁, rfl, rfl, rfl⟩
  · intro other order₁ horder₁
    by_cases heq : other = ref
    · subst heq
      cases hown.symm.trans horder₁
      rw [h.once other order horder, hbits, List.take_append_of_le_length hseen]
    · exact h.once other order₁ ((hother other heq).symm.trans horder₁)
  · intro other order₁ horder₁
    by_cases heq : other = ref
    · subst heq
      cases hown.symm.trans horder₁
      rw [hbits, List.length_append]
      exact Nat.le_add_right_of_le hseen
    · exact h.seen_le other order₁ ((hother other heq).symm.trans horder₁)
  · intro other order₁ hne horder₁
    exact h.settled other order₁ hne ((hother other hne).symm.trans horder₁)
  · intro other hge
    refine h.fresh other ?_
    simpa [horders] using hge
  · rw [hpending, hposition, h.position]
    simp only [netQuantity_append, netQuantity_cons, netQuantity_nil]
    ring
  · rw [hpending, hcash, h.cash]
    simp only [netFlow_append, netFlow_cons, netFlow_nil]
    ring
  · rw [hpending]
    intro fill after hsuffix
    rcases List.suffix_concat_iff.mp hsuffix with hnil | ⟨earlier, hconcat, hold⟩
    · cases hnil
    · cases earlier with
      | nil =>
        cases hconcat
        refine ⟨hsize, ?_, ?_, fun hside => ?_⟩
        · rw [netQuantity_nil, add_zero]
          exact hpsize
        · rw [hpsize]
          exact hnonneg
        · rw [hpsize]
          exact hbuy hside
      | cons head earlier =>
        rw [List.cons_append, List.cons.injEq] at hconcat
        obtain ⟨rfl, rfl⟩ := hconcat
        obtain ⟨hpos, hleaves, hrest⟩ := h.chained fill earlier hold
        refine ⟨hpos, ?_, hrest⟩
        rw [netQuantity_append, netQuantity_cons, netQuantity_nil, add_zero, ← add_assoc, hleaves]
        exact hposition.symm
  · rw [hpending]
    intro hnil
    simp at hnil

/-- A bit of an order is pending once it is executed. -/
theorem Ledger.execute {config : EngineConfig} {cash : ℚ} {world : World} {ref : ℕ}
    {closed : List (List Fill)} {open_ : List Fill}
    (h : Ledger config cash world ref closed open_) (now : ℤ) (offer : Offer) :
    Ledger config cash { world with broker := world.broker.execute ref now offer } ref closed
      open_ := by
  rw [NativeBroker.execute]
  cases horder : world.broker.orders[ref]? with
  | none => exact h
  | some order =>
    by_cases hexecutable : world.broker.Executable order offer
    · simp only [if_pos hexecutable]
      obtain ⟨-, hsize, -, hposition⟩ := hexecutable
      refine h.addBit horder (⟨rfl, rfl, rfl⟩ : SameTerms order (order.withBit _)) rfl
        (NativeBroker.notify_orders _ _) ?_ ?_ ?_ hsize ?_
      · rw [NativeBroker.notify_position]
        cases hside : order.isBuy <;>
          simp [NativeBroker.positionAfter, Fill.signed, sub_eq_add_neg]
      · rw [NativeBroker.notify_cash]
        cases hside : order.isBuy <;> simp [NativeBroker.cashAfter, Fill.flow] <;> ring
      · rw [NativeBroker.notify_position]
      · rw [NativeBroker.notify_position]
        exact hposition
    · simp only [if_neg hexecutable]
      exact h

end AutoBit.Backtest
