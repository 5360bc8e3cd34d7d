import AutoBit.Broker.Protection
import Mathlib.Tactic.FieldSimp
import Mathlib.Tactic.Ring

/-!
# Conservation of the paper ledger

Three folds run over the same fills: the replay with its proportional cost basis, the
broker's cash and inventory, and the grouping of fills into trades. `Books` says how they
stand to each other after any number of fills; each fill keeps it.
-/

namespace AutoBit.Broker

open Library Store

/-- What a purchase costs. -/
def PaperFill.cost (fill : PaperFill) : ℚ := fill.quantity * fill.fillPrice + fill.fee

/-- What a sale brings in. -/
def PaperFill.proceeds (fill : PaperFill) : ℚ := fill.quantity * fill.fillPrice - fill.fee

/-- The costs of fills are their value and their fees together. -/
theorem sum_cost (fills : List PaperFill) :
    (fills.map PaperFill.cost).sum = fillValue fills + (fills.map (·.fee)).sum := by
  induction fills with
  | nil => simp [fillValue]
  | cons fill fills ih =>
    simp only [fillValue, List.map_cons, List.sum_cons, PaperFill.cost] at ih ⊢
    linarith

/-- The proceeds of fills are their value without their fees. -/
theorem sum_proceeds (fills : List PaperFill) :
    (fills.map PaperFill.proceeds).sum = fillValue fills - (fills.map (·.fee)).sum := by
  induction fills with
  | nil => simp [fillValue]
  | cons fill fills ih =>
    simp only [fillValue, List.map_cons, List.sum_cons, PaperFill.proceeds] at ih ⊢
    linarith

/-- How the replay, the fills so far and the grouping of trades stand to each other. -/
structure Books (s : Projection) (fills : List PaperFill) (scan : TradeScan) : Prop where
  position : scan.position = s.btcQuantity
  cash : s.cash - 100 = (scan.trades.map (·.netPnl)).sum - (scan.entries.map PaperFill.cost).sum +
    (scan.exits.map PaperFill.proceeds).sum
  fees : (fills.map (·.fee)).sum =
    (scan.trades.map (·.fees)).sum + ((scan.entries ++ scan.exits).map (·.fee)).sum
  held : scan.entries = [] ∧ scan.exits = [] ∧ s.btcQuantity = 0 ∧ s.btcCostBasis = 0 ∨
    ∃ entry, scan.entries = [entry] ∧ 0 < s.btcQuantity ∧ 0 < entry.quantity ∧ 0 < entry.cost ∧
      s.btcCostBasis = entry.cost * (s.btcQuantity / entry.quantity)

/-- A closed trade nets what its exits bring in over what its entries cost. -/
theorem closedTrade_eq_ok {entries exits : List PaperFill} {trade : PaperTrade}
    (h : closedTrade entries exits = .ok trade) :
    trade.netPnl = (exits.map PaperFill.proceeds).sum - (entries.map PaperFill.cost).sum ∧
      trade.fees = ((entries ++ exits).map (·.fee)).sum := by
  simp only [closedTrade, Except.bind_eq_ok, Except.pure_eq_ok] at h
  obtain ⟨first, -, last, -, _, -, rfl⟩ := h
  refine ⟨?_, rfl⟩
  rw [sum_cost, sum_proceeds, List.map_append, List.sum_append]
  ring

/-- A payload without a fill leaves the balances and the cost basis alone. -/
theorem replayPayload_basis {s t : Projection} {e : StoredEvent}
    (hread : readFill e.payload = none) (h : replayPayload s e = .ok t) :
    t.cash = s.cash ∧ t.btcQuantity = s.btcQuantity ∧ t.btcCostBasis = s.btcCostBasis := by
  cases hpayload : e.payload with
  | fill fill =>
    rw [hpayload] at hread
    cases hread
  | orderCreated order =>
    simp only [replayPayload, hpayload] at h
    obtain ⟨-, rfl⟩ := replayOrderCreated_eq_ok h
    exact ⟨rfl, rfl, rfl⟩
  | orderStatus transition =>
    simp only [replayPayload, hpayload] at h
    obtain ⟨existing, -, -, rfl⟩ := replayOrderStatus_eq_ok h
    exact ⟨rfl, rfl, rfl⟩
  | other eventType payload =>
    simp only [replayPayload, hpayload, Except.bind_eq_ok, Except.pure_eq_ok] at h
    obtain ⟨_, -, _, -, _, -, rfl⟩ := h
    exact ⟨rfl, rfl, rfl⟩
  | _ =>
    simp only [replayPayload, hpayload] at h
    cases h
    exact ⟨rfl, rfl, rfl⟩

/-- The balances and the cost basis after a purchase. -/
theorem replayFill_buy {s t : Projection} {e : StoredEvent} {fill : PaperFill}
    (hside : fill.side = .buy) (h : replayFill s e fill.raw = .ok t) :
    0 < fill.quantity ∧ 0 < fill.cost ∧ t.cash = s.cash - fill.cost ∧
      t.btcQuantity = s.btcQuantity + fill.quantity ∧
      t.btcCostBasis = s.btcCostBasis + fill.cost := by
  simp only [replayFill, PaperFill.raw, Except.bind_eq_ok, reject_eq_ok, Except.pure_eq_ok,
    replayBalance, hside] at h
  obtain ⟨_, hfee, _, hprice, _, hquantity, balanced, ⟨_, -, rfl⟩, _, -, rfl⟩ := h
  have hvalue := mul_pos (not_le.mp hquantity) (not_le.mp hprice)
  refine ⟨not_le.mp hquantity, ?_, rfl, rfl, rfl⟩
  exact add_pos_of_pos_of_nonneg hvalue (not_lt.mp hfee)

/-- The balances and the cost basis after a sale. -/
theorem replayFill_sell {s t : Projection} {e : StoredEvent} {fill : PaperFill}
    (hside : fill.side = .sell) (hheld : 0 < s.btcQuantity)
    (h : replayFill s e fill.raw = .ok t) :
    fill.quantity ≤ s.btcQuantity ∧ t.cash = s.cash + fill.proceeds ∧
      t.btcQuantity = s.btcQuantity - fill.quantity ∧
      t.btcCostBasis = if s.btcQuantity - fill.quantity = 0 then 0
        else s.btcCostBasis - s.btcCostBasis * (fill.quantity / s.btcQuantity) := by
  simp only [replayFill, PaperFill.raw, Except.bind_eq_ok, reject_eq_ok, Except.pure_eq_ok,
    replayBalance, hside] at h
  obtain ⟨_, -, _, -, _, -, balanced, ⟨_, hshort, _, -, rfl⟩, _, -, rfl⟩ := h
  refine ⟨not_lt.mp hshort, rfl, rfl, ?_⟩
  simp only [if_pos hheld]

/-- A purchase opens the books of a new position. -/
theorem Books.buy {s t : Projection} {fills : List PaperFill} {scan scan' : TradeScan}
    {fill : PaperFill} {e : StoredEvent} (h : Books s fills scan) (hside : fill.side = .buy)
    (hreplay : replayFill s e fill.raw = .ok t) (hscan : scanTrade scan fill = .ok scan') :
    Books t (fills ++ [fill]) scan' := by
  obtain ⟨hquantity, hcost, hcash, hbtc, hbasis⟩ := replayFill_buy hside hreplay
  simp only [scanTrade, hside, Except.bind_eq_ok, reject_eq_ok, Except.pure_eq_ok] at hscan
  obtain ⟨_, hflat, rfl⟩ := hscan
  have hposition := h.position
  obtain ⟨hentries, hexits, hnone, hzero⟩ : scan.entries = [] ∧ scan.exits = [] ∧
      s.btcQuantity = 0 ∧ s.btcCostBasis = 0 := by
    rcases h.held with hheld | ⟨entry, -, hpos, -⟩
    · exact hheld
    · rw [hposition] at hflat
      exact absurd hpos hflat
  have hcashBefore := h.cash
  have hfees := h.fees
  simp only [hentries, hexits, List.map_nil, List.sum_nil, List.append_nil] at hcashBefore hfees
  refine ⟨?_, ?_, ?_, Or.inr ⟨fill, ?_, ?_, hquantity, hcost, ?_⟩⟩
  · rw [hbtc, hposition]
  · simp only [hentries, hexits, List.nil_append, List.map_cons, List.map_nil, List.sum_cons,
      List.sum_nil]
    linarith
  · simp only [hentries, hexits, List.nil_append, List.append_nil, List.map_append, List.map_cons,
      List.map_nil, List.sum_append, List.sum_cons, List.sum_nil]
    linarith
  · rw [hentries, List.nil_append]
  · rw [hbtc, hnone, zero_add]
    exact hquantity
  · rw [hbasis, hbtc, hzero, hnone, zero_add, zero_add, div_self hquantity.ne', mul_one]

/-- A sale reduces the open position, or closes it as a trade. -/
theorem Books.sell {s t : Projection} {fills : List PaperFill} {scan scan' : TradeScan}
    {fill : PaperFill} {e : StoredEvent} (h : Books s fills scan) (hside : fill.side = .sell)
    (hreplay : replayFill s e fill.raw = .ok t) (hscan : scanTrade scan fill = .ok scan') :
    Books t (fills ++ [fill]) scan' := by
  simp only [scanTrade, hside, Except.bind_eq_ok, reject_eq_ok, not_or, not_le, not_lt] at hscan
  obtain ⟨_, ⟨hheld, -⟩, hscan⟩ := hscan
  have hposition := h.position
  rw [hposition] at hheld hscan
  obtain ⟨hle, hcash, hbtc, hbasis⟩ := replayFill_sell hside hheld hreplay
  obtain ⟨entry, hentries, -, hentry, hcost, hcostBasis⟩ : ∃ entry, scan.entries = [entry] ∧
      0 < s.btcQuantity ∧ 0 < entry.quantity ∧ 0 < entry.cost ∧
      s.btcCostBasis = entry.cost * (s.btcQuantity / entry.quantity) := by
    rcases h.held with ⟨-, -, hnone, -⟩ | hopen
    · exact absurd hnone hheld.ne'
    · exact hopen
  have hcashBefore := h.cash
  have hfees := h.fees
  by_cases hleft : s.btcQuantity - fill.quantity = 0
  · rw [if_neg (not_not.mpr hleft), Except.bind_eq_ok] at hscan
    obtain ⟨trade, htrade, hscan⟩ := hscan
    rw [Except.pure_eq_ok] at hscan
    subst hscan
    obtain ⟨hnet, htradeFees⟩ := closedTrade_eq_ok htrade
    refine ⟨?_, ?_, ?_, Or.inl ⟨rfl, rfl, hbtc.trans hleft, ?_⟩⟩
    · exact (hbtc.trans hleft).symm
    · simp only [List.map_append, List.map_cons, List.map_nil, List.sum_append, List.sum_cons,
        List.sum_nil] at hnet ⊢
      linarith
    · simp only [List.map_append, List.map_cons, List.map_nil, List.sum_append, List.sum_cons,
        List.sum_nil, List.append_nil] at hfees htradeFees ⊢
      linarith
    · rw [hbasis, if_pos hleft]
  · rw [if_pos hleft, Except.pure_eq_ok] at hscan
    subst hscan
    have hpos : 0 < s.btcQuantity - fill.quantity :=
      lt_of_le_of_ne (by linarith) (Ne.symm hleft)
    refine ⟨?_, ?_, ?_, Or.inr ⟨entry, hentries, hbtc ▸ hpos, hentry, hcost, ?_⟩⟩
    · exact hbtc.symm
    · simp only [List.map_append, List.map_cons, List.map_nil, List.sum_append, List.sum_cons,
        List.sum_nil]
      linarith
    · simp only [List.map_append, List.map_cons, List.map_nil, List.sum_append, List.sum_cons,
        List.sum_nil] at hfees ⊢
      linarith
    · rw [hbasis, if_neg hleft, hcostBasis, hbtc]
      field_simp

/-- The books stand after every log whose fills are paper fills. -/
theorem books_of_log {log : List StoredEvent} {s : Projection} {fills : List PaperFill}
    {scan : TradeScan} (hreplay : rebuildFromEvents log = .ok s)
    (hraws : List.Forall₂ (fun raw fill => fill.raw = raw.body) (view readFill log) fills)
    (hscan : fills.foldlM scanTrade {} = .ok scan) : Books s fills scan := by
  induction log using List.reverseRecOn generalizing s fills scan with
  | nil =>
    cases hreplay
    obtain rfl := List.forall₂_nil_left_iff.mp hraws
    cases hscan
    exact ⟨rfl, by simp, by simp, Or.inl ⟨rfl, rfl, rfl, rfl⟩⟩
  | append_singleton log e ih =>
    obtain ⟨t, ht, he⟩ := rebuild_snoc.mp hreplay
    obtain ⟨-, -, -, u, hu, rfl⟩ := replayEvent_eq_ok.mp he
    rw [view_append] at hraws
    cases hread : readFill e.payload with
    | none =>
      rw [view_singleton_none hread, List.append_nil] at hraws
      have hbooks := ih ht hraws hscan
      obtain ⟨hcash, hbtc, hbasis⟩ := replayPayload_basis hread hu
      refine ⟨hbooks.position.trans hbtc.symm, ?_, hbooks.fees, ?_⟩
      · rw [← hbooks.cash]
        exact congrArg (· - 100) hcash
      · have hheld := hbooks.held
        rw [← hbtc, ← hbasis] at hheld
        exact hheld
    | some raw =>
      have hview : view readFill [e] = [⟨e.sequence, e.eventId, e.occurredAtUtc, raw⟩] := by
        simp [view, stamp, hread]
      rw [hview] at hraws
      obtain ⟨init, fill, rfl, hinit, hraw⟩ := forall₂_snoc_left hraws
      obtain ⟨scanned, hscanned, hround⟩ := foldlM_snoc_eq_ok.mp hscan
      have hbooks := ih ht hinit hscanned
      have hfill : replayFill t e fill.raw = .ok u := by
        cases hpayload : e.payload <;> simp only [hpayload, readFill, reduceCtorEq] at hread
        cases hread
        simp only [replayPayload, hpayload] at hu
        rw [hraw]
        exact hu
      have hnext : Books u (init ++ [fill]) scan := by
        cases hside : fill.side with
        | buy => exact hbooks.buy hside hfill hround
        | sell => exact hbooks.sell hside hfill hround
      exact ⟨hnext.position, hnext.cash, hnext.fees, hnext.held⟩

/-! ## Conservation -/

/-- The conservation law at one point of a ledger: the balances, the cost basis and the fees
against the completed trades and the open entry with its partial exits. -/
structure Conserved (cash btc basis totalFees : ℚ) (scan : TradeScan) : Prop where
  cash_nonneg : 0 ≤ cash
  btc_nonneg : 0 ≤ btc
  flat : btc = 0 → cash - 100 = (scan.trades.map (·.netPnl)).sum ∧
    totalFees = (scan.trades.map (·.fees)).sum
  held : 0 < btc → ∃ entry, scan.entries = [entry] ∧ cash - 100 =
    (scan.trades.map (·.netPnl)).sum - entry.cost + (scan.exits.map PaperFill.proceeds).sum ∧
      basis = entry.cost * (btc / entry.quantity)
  basis_zero_iff : basis = 0 ↔ btc = 0

/-- Books that balance conserve. -/
theorem Books.conserved {s : Projection} {fills : List PaperFill} {scan : TradeScan}
    (h : Books s fills scan) (hcash : 0 ≤ s.cash) (hbtc : 0 ≤ s.btcQuantity) :
    Conserved s.cash s.btcQuantity s.btcCostBasis (fills.map (·.fee)).sum scan := by
  have hbooks := h.cash
  have hfees := h.fees
  rcases h.held with ⟨hentries, hexits, hflat, hbasis⟩ |
    ⟨entry, hentries, hheld, hquantity, hcost, hbasis⟩
  · refine ⟨hcash, hbtc, fun _ => ⟨?_, ?_⟩, fun hpos => ?_, by simp [hflat, hbasis]⟩
    · simpa [hentries, hexits] using hbooks
    · simpa [hentries, hexits] using hfees
    · exact absurd hflat hpos.ne'
  · refine ⟨hcash, hbtc, fun hflat => ?_, fun _ => ⟨entry, hentries, ?_, hbasis⟩, ?_⟩
    · exact absurd hflat hheld.ne'
    · simpa [hentries] using hbooks
    · have hpos : 0 < s.btcCostBasis := hbasis ▸ mul_pos hcost (div_pos hheld hquantity)
      exact ⟨fun hzero => absurd hzero hpos.ne', fun hzero => absurd hzero hheld.ne'⟩

/-- The total fees are those of the paper fills. -/
theorem scanFills_totalFees {log : List StoredEvent} {orders : List PaperOrder}
    {raws : List (Stamped RawFill)} {scan : FillScan}
    (h : raws.foldlM (scanFill log orders) {} = .ok scan) :
    scan.totalFees = (scan.fills.map (·.fee)).sum := by
  refine foldlM_invariant (fun scan : FillScan => scan.totalFees = (scan.fills.map (·.fee)).sum)
    ?_ rfl h
  intro scan scan' raw _ hfees hround
  simp only [scanFill, Except.bind_eq_ok, Except.pure_eq_ok] at hround
  obtain ⟨_, -, _, -, fill, -, rfl⟩ := hround
  cases fill with
  | none => simpa using hfees
  | some fill =>
    simp only [Option.map_some, Option.getD_some, Option.toList_some, List.map_append,
      List.map_cons, List.map_nil, List.sum_append, List.sum_cons, List.sum_nil]
    linarith

/-- The paper fills of the first events of a log: one for each of their fills. -/
def fillsBefore (log : List StoredEvent) (fills : List PaperFill) (n : ℕ) : List PaperFill :=
  fills.take (view readFill (log.take n)).length

/-- Accounting conservation: in an accepted ledger whose fills are all paper fills, the
balances and the cost basis of every prefix of the log stand to its trades and its open
entry as they should, and so do those of the ledger. -/
theorem ledger_conservation {db : Database} {ledger : Ledger} (h : buildLedger db = .ok ledger)
    (hpaper : ∀ raw ∈ view readFill db.events,
      (findPaperOrder ledger.orders raw.body.orderId).isSome = true) :
    (∀ n, ∃ s scan, rebuildFromEvents (db.events.take n) = .ok s ∧
      (fillsBefore db.events ledger.fills n).foldlM scanTrade {} = .ok scan ∧
      balance (db.events.take n) = (s.cash, s.btcQuantity) ∧
      Conserved s.cash s.btcQuantity s.btcCostBasis
        ((fillsBefore db.events ledger.fills n).map (·.fee)).sum scan) ∧
    ∃ scan, ledger.fills.foldlM scanTrade {} = .ok scan ∧ scan.trades = ledger.trades ∧
      Conserved ledger.snapshot.cash ledger.snapshot.btcQuantity ledger.snapshot.btcCostBasis
        ledger.totalFees scan := by
  simp only [buildLedger, Except.bind_eq_ok, Except.pure_eq_ok] at h
  obtain ⟨snapshot, hsnapshot, _, -, stops, -, orders, -, _, -, _, -, _, -, _, -, _, -, scan, hscan,
    _, -, trades, htrades, _, -, _, -, _, -, _, -, positions, -, rfl⟩ := h
  obtain ⟨s, hreplay, -, rfl⟩ := replayAndVerify_eq_ok.mp hsnapshot
  have hscan : (view readFill db.events).foldlM (scanFill db.events orders) {} = .ok scan := hscan
  obtain ⟨fills, hfills, hraws⟩ := scanFills_raws hscan hpaper
  have hfills : scan.fills = fills := hfills
  have hbodies : List.Forall₂ (fun raw fill => fill.raw = raw.body) (view readFill db.events)
      scan.fills := by
    rw [hfills]
    exact forall₂_imp_mem hraws fun raw _ fill _ hsame => hsame.1
  simp only [completedTrades, Except.bind_eq_ok, Except.pure_eq_ok] at htrades
  obtain ⟨grouped, hgrouped, rfl⟩ := htrades
  constructor
  · intro n
    obtain ⟨t, ht⟩ := rebuild_take hreplay n
    have hview : view readFill (db.events.take n) =
        (view readFill db.events).take (view readFill (db.events.take n)).length := by
      conv_rhs => rw [← List.take_append_drop n db.events, view_append]
      simp
    have hprefix := List.forall₂_take (view readFill (db.events.take n)).length hbodies
    rw [← hview] at hprefix
    have hgroup := hgrouped
    rw [← List.take_append_drop (view readFill (db.events.take n)).length scan.fills,
      foldlM_append_eq_ok] at hgroup
    obtain ⟨part, hpart, -⟩ := hgroup
    have henvelopes := envelopes_of_rebuild ht
    exact ⟨t, part, ht, hpart, balance_eq ht,
      (books_of_log ht hprefix hpart).conserved henvelopes.cash henvelopes.btc⟩
  · have henvelopes := envelopes_of_rebuild hreplay
    refine ⟨grouped, hgrouped, rfl, ?_⟩
    have hconserved := (books_of_log hreplay hbodies hgrouped).conserved henvelopes.cash
      henvelopes.btc
    rw [← scanFills_totalFees hscan] at hconserved
    exact hconserved

/-- An entry that fills, and the exit from half of it. -/
def sellHalf : Except Failure Database := do
  let (order, db) ← submitEntry {} {} 0 (1 / 1000) "ENTRY" none
  let (_, db) ← processOpen db order.orderId fourHours 1000 none
  let (order, db) ← submitExit {} db fourHours (1 / 2000) (1 / 1000) "EXIT" none
  let (_, db) ← processOpen db order.orderId (2 * fourHours) 1100 none
  return db

/-- The database after half of an entry is sold. -/
def halfSold : Database := (sellHalf.toOption).getD {}

/-- After half of an entry is sold, half of what it cost remains as the cost basis. -/
theorem ledger_conservation_half_sold : ∃ ledger, buildLedger halfSold = .ok ledger ∧
    0 < ledger.snapshot.btcQuantity ∧ ∃ scan, ledger.fills.foldlM scanTrade {} = .ok scan ∧
      Conserved ledger.snapshot.cash ledger.snapshot.btcQuantity ledger.snapshot.btcCostBasis
        ledger.totalFees scan := by
  have haccepted : (buildLedger halfSold).toOption.any (fun ledger =>
      0 < ledger.snapshot.btcQuantity ∧ ∀ raw ∈ view readFill halfSold.events,
        (findPaperOrder ledger.orders raw.body.orderId).isSome = true) = true := by
    decide +kernel
  obtain ⟨ledger, hledger, hholds⟩ := (Option.any_eq_true _ _).mp haccepted
  obtain ⟨hheld, hpaper⟩ := of_decide_eq_true hholds
  have hledger : buildLedger halfSold = .ok ledger := by
    cases hbuilt : buildLedger halfSold <;> simp_all [Except.toOption]
  obtain ⟨-, scan, hscan, -, hconserved⟩ := ledger_conservation hledger hpaper
  exact ⟨ledger, hledger, hheld, scan, hscan, hconserved⟩

end AutoBit.Broker
