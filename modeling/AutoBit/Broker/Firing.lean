import AutoBit.Broker.Guard

/-!
# The stop that fires

The open stops of an account all belong to its open entry and get tighter as they get newer,
so the newest one that is active by a candle is the tightest of those. It is the only one
that a candle can trigger, and what it triggers leaves neither inventory nor stops.
-/

namespace AutoBit.Broker

open Library Store Strategy

/-- What holds of the open stops of a ledger. -/
structure Ordered (ledger : Ledger) : Prop where
  tightening : Tightening ledger.openStops
  inOrder : InOrder ledger.openStops
  source : ∀ stop ∈ ledger.openStops, openEntryIdentity ledger = .ok stop.sourceId
  valid : ∀ stop ∈ ledger.openStops, 0 < stop.stopPrice
  flat : ledger.snapshot.btcQuantity = 0 → ledger.openStops = []

/-- The stops of a ledger that are active by a candle and within its reach. -/
def Reached (ledger : Ledger) (candle : ℤ) (lowPrice : ℚ) (stop : PaperStop) : Prop :=
  stop ∈ ledger.openStops ∧ stop.activeAfterUtc ≤ candle ∧ lowPrice ≤ stop.stopPrice

/-- What a stop that fires does to its ledger. -/
structure Fires (ledger : Ledger) (candle : ℤ) (openPrice lowPrice : ℚ) (stop : PaperStop)
    (fill : PaperFill) (ledger' : Ledger) : Prop where
  reached : Reached ledger candle lowPrice stop
  tightest : ∀ other, Reached ledger candle lowPrice other → other.stopPrice ≤ stop.stopPrice
  reference : fill.referencePrice = min openPrice stop.stopPrice
  quantity : fill.quantity = ledger.snapshot.btcQuantity
  side : fill.side = .sell
  reason : fill.reason = stop.reason
  time : fill.fillTime = candle
  flat : ledger'.snapshot.btcQuantity = 0
  closed : ledger'.openStops = []

/-- Replayed fills are positive. -/
theorem fill_positive {log : List StoredEvent} {p : Projection}
    (h : rebuildFromEvents log = .ok p) {raw : Stamped RawFill} (hraw : raw ∈ view readFill log) :
    0 < raw.body.quantity := by
  obtain ⟨e, he, hread, -⟩ := mem_view.mp hraw
  obtain ⟨s, s', hround⟩ := foldlM_round h he
  simp only [replayEvent, Except.bind_eq_ok] at hround
  obtain ⟨_, -, _, -, _, -, t, hpayload, -⟩ := hround
  cases hfill : e.payload with
  | fill fill =>
    rw [hfill] at hread
    obtain rfl : fill = raw.body := by simpa [readFill] using hread
    simp only [replayPayload, hfill] at hpayload
    exact (replayFill_eq_ok hpayload).1
  | _ => simp [hfill, readFill] at hread

/-- A position has an entry. -/
theorem entry_of_position {fills : List RawFill} (hpos : ∀ fill ∈ fills, 0 < fill.quantity)
    {position : ℚ} {source : Option PaperId}
    (h : fills.foldlM sourceStep (0, none) = .ok (position, source)) (hheld : position ≠ 0) :
    ∃ id, source = some id := by
  have hopen : position ≠ 0 → source.isSome = true := by
    refine foldlM_invariant (fun state : ℚ × Option PaperId => state.1 ≠ 0 → state.2.isSome = true)
      ?_ (fun hne => absurd rfl hne) h
    intro state state' fill hfill hbefore hround hne
    unfold sourceStep at hround
    split at hround <;> simp only [Except.bind_eq_ok, Except.pure_eq_ok, reject_eq_ok,
      not_lt] at hround
    · obtain ⟨_, -, rfl⟩ := hround
      rfl
    · obtain ⟨_, hle, rfl⟩ := hround
      change state.1 - fill.quantity ≠ 0 at hne
      simp only [if_neg hne]
      exact hbefore ((hpos fill hfill).trans_le hle).ne'
  exact Option.isSome_iff_exists.mp (hopen hheld)

section

variable {db db' : Database} {a : Account} (h : Sound db a)
include h

/-- The open stops of a sound account are in order. -/
theorem Sound.ordered (horder : InOrder a.stops.open_) : Ordered (a.ledger db.events) := by
  refine ⟨tightening_of_scanStops h.coherent.stops, horder, fun stop hstop => ?_,
    fun stop hstop => (h.coherent.stop_valid hstop).price, h.unprotected⟩
  have hheld := h.settled.stops (List.ne_nil_of_mem hstop)
  have hpos : ∀ fill ∈ (view readFill db.events).map (·.body), 0 < fill.quantity := by
    intro fill hfill
    obtain ⟨raw, hraw, rfl⟩ := List.mem_map.mp hfill
    exact fill_positive h.coherent.replay hraw
  obtain ⟨id, hsource⟩ := entry_of_position hpos h.coherent.source hheld.ne'
  rw [h.coherent.openSource stop hstop id hsource]
  exact h.openEntryIdentity_iff.mpr ⟨hheld, hsource⟩

/-- A candle triggers the tightest of the stops within its reach, and leaves everything as it was
when there are none. -/
theorem Sound.fires {candle : ℤ} {openPrice lowPrice : ℚ} {result : Option PaperFill}
    (hok : processIntrabarStop db candle openPrice lowPrice = .ok (result, db')) :
    (result = none ∧ db' = db ∧ ∀ stop, ¬Reached (a.ledger db.events) candle lowPrice stop) ∨
      ∃ stop fill ledger', result = some fill ∧ buildLedger db' = .ok ledger' ∧
        Fires (a.ledger db.events) candle openPrice lowPrice stop fill ledger' := by
  have htighter : ∀ {stop other : PaperStop}, stop ∈ eligibleStop a.stops.open_ candle →
      Reached (a.ledger db.events) candle lowPrice other → other.stopPrice ≤ stop.stopPrice := by
    rintro stop other hlast ⟨hother, hactive, -⟩
    have htightening : Tightening (a.stops.open_.filter (·.activeAfterUtc ≤ candle)) :=
      List.Pairwise.filter _ (tightening_of_scanStops h.coherent.stops)
    exact htightening.le_last hlast (List.mem_filter.mpr ⟨hother, decide_eq_true hactive⟩)
  obtain ⟨-, ⟨rfl, rfl, habove⟩ | ⟨stop, hlast, hreach, -, -, rfl, a', hsound, hclosed⟩⟩ :=
    h.processIntrabarStop_cases hok
  · refine Or.inl ⟨rfl, rfl, fun other hother => ?_⟩
    cases hlast : eligibleStop a.stops.open_ candle with
    | none =>
      have hnone := List.getLast?_eq_none_iff.mp hlast
      have hmem : other ∈ a.stops.open_.filter (·.activeAfterUtc ≤ candle) :=
        List.mem_filter.mpr ⟨hother.1, decide_eq_true hother.2.1⟩
      rw [hnone] at hmem
      cases hmem
    | some stop =>
      have hle := htighter hlast hother
      exact absurd (hother.2.2.trans hle) (not_le.mpr (habove stop hlast))
  · obtain ⟨hstop, hactive⟩ := List.mem_filter.mp (List.mem_of_getLast? hlast)
    exact Or.inr ⟨stop, _, _, rfl, hsound.ledger, ⟨hstop, of_decide_eq_true hactive, hreach⟩,
      fun other hother => htighter hlast hother, rfl, rfl, rfl, rfl, rfl, hclosed.flat,
      hclosed.open_⟩

end

/-- In every ledger that broker calls lead to, the open stops belong to the open entry and get
tighter, none stays open without a position, and a candle triggers the tightest one in its reach,
which leaves neither inventory nor stops. -/
theorem tightest_stop_fires {db : Database} (h : Run (fun db call => call.Distinct db) db) :
    ∃ ledger, buildLedger db = .ok ledger ∧ Ordered ledger ∧
      ∀ (candle : ℤ) (openPrice lowPrice : ℚ) (result : Option PaperFill) (db' : Database),
        processIntrabarStop db candle openPrice lowPrice = .ok (result, db') →
        (result = none ∧ db' = db ∧ ∀ stop, ¬Reached ledger candle lowPrice stop) ∨
          ∃ stop fill ledger', result = some fill ∧ buildLedger db' = .ok ledger' ∧
            Fires ledger candle openPrice lowPrice stop fill ledger' := by
  obtain ⟨a, hsound, horder⟩ := h.sound
  exact ⟨_, hsound.ledger, hsound.ordered horder, fun _ _ _ _ _ hok => hsound.fires hok⟩

/-- An entry without evidence of its size. -/
def accepted : Database :=
  Call.apply {} {} (.submitEntry 0 (1 / 2) "ENTRY" none)

/-- The opening of that entry, the initial stop of its position, and a trailing stop from the next
candle on. -/
def stopped : Database :=
  Call.apply {} (Call.apply {} (Call.apply {} accepted
      (.processOpen (orderIdentity 0 .buy "ENTRY" none).orderId fourHours 100 none))
    (.setStop fourHours 90 (some fourHours) "HARD_STOP" none))
    (.setStop fourHours 95 (some (2 * fourHours)) "TRAILING_STOP" none)

/-- The next bar reaches both stops, and the trailing one fires. -/
theorem tightest_stop_fires_stopped : ∃ ledger stop fill ledger', buildLedger stopped = .ok ledger ∧
    (ledger.openStops.filter fun other => 85 ≤ other.stopPrice).length = 2 ∧
    fill.referencePrice = 95 ∧ Fires ledger (2 * fourHours) 97 85 stop fill ledger' := by
  have hfee : 0 ≤ ({} : CostConfig).feeRate := by decide +kernel
  have hslippage : 0 ≤ ({} : CostConfig).slippageRate := by decide +kernel
  have hrun : Run (fun db call => call.Distinct db) stopped := by
    refine .call (.call (.call (.call .start hfee hslippage trivial) hfee hslippage ?_) hfee
      hslippage trivial) hfee hslippage trivial
    intro ledger hledger order horder _ _ hreason
    have hreasons : (buildLedger accepted).toOption.all (fun ledger =>
        ledger.orders.all fun order => order.reason = "ENTRY") = true := by
      decide +kernel
    have hbuilt : buildLedger accepted = .ok ledger := hledger
    rw [hbuilt] at hreasons
    have hentry := List.all_eq_true.mp hreasons order (findPaperOrder_some horder).1
    rw [of_decide_eq_true hentry] at hreason
    exact absurd hreason (by decide)
  obtain ⟨ledger, hledger, -, hfires⟩ := tightest_stop_fires hrun
  have hfill : (processIntrabarStop stopped (2 * fourHours) 97 85).toOption.any (fun outcome =>
      outcome.1.any (·.referencePrice = 95)) = true ∧
      (buildLedger stopped).toOption.all (fun ledger =>
        (ledger.openStops.filter fun other => 85 ≤ other.stopPrice).length = 2) = true := by
    decide +kernel
  obtain ⟨⟨result, db'⟩, hok, hfilled⟩ := (Option.any_eq_true _ _).mp hfill.1
  obtain ⟨fill, hresult, hreference⟩ := (Option.any_eq_true _ _).mp hfilled
  have htwo := hfill.2
  rw [hledger] at htwo
  rcases hfires (2 * fourHours) 97 85 result db' (Except.toOption_eq_some.mp hok) with
    ⟨hnone, -⟩ | ⟨stop, fired, ledger', hsome, -, hfired⟩
  · cases hnone.symm.trans hresult
  · obtain rfl := Option.some.inj (hsome.symm.trans hresult)
    exact ⟨ledger, stop, fired, ledger', hledger, of_decide_eq_true htwo,
      of_decide_eq_true hreference, hfired⟩

end AutoBit.Broker
