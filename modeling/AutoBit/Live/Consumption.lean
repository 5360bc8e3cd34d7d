import AutoBit.Live.Conservation
import AutoBit.Risk.Delay

/-!
# The reducer consumes every closed trade once

While no intent is pending, every closed trade is final: a late fee can only go to a trade
that the pending intent itself has closed, and the cursor of the reducer does not move while
one is pending. So what was handed to the reducer is never changed afterwards, and what it is
handed next continues where its stored result ends.
-/

namespace AutoBit.Live

open Library Health Risk Strategy Relation

/-! ## What was handed over -/

/-- The trades that the reducer consumed: its result was stored. -/
def storedTrades (handed : List Handing) : List ClosedTrade :=
  (handed.filter (·.committed)).flatMap (·.trades)

/-- What was handed over against the closed trades: the first `processed` of them were consumed,
and the first `final` of them are never changed. -/
structure Consumption (handed : List Handing) (trades : List ClosedTrade) (processed final : ℕ) :
    Prop where
  accepted : ∀ handing ∈ handed, handing.accepted = true
  stored : storedTrades handed = trades.take processed
  continues : ∀ before handing rest, handed = before ++ handing :: rest →
    storedTrades before ++ handing.trades <+: trades.take final
  cursor : processed ≤ final
  length : final ≤ trades.length

section Handings

variable {handed : List Handing} {trades trades' : List ClosedTrade} {processed final : ℕ}

/-- Nothing is consumed of no trades. -/
theorem Consumption.nil : Consumption [] [] 0 0 :=
  ⟨by simp, by simp [storedTrades], by simp, le_refl _, le_refl _⟩

/-- Later trades, and changes of later trades, do not matter. -/
theorem Consumption.of_take (h : Consumption handed trades processed final)
    (htake : trades'.take final = trades.take final) (hlength : final ≤ trades'.length) :
    Consumption handed trades' processed final := by
  refine ⟨h.accepted, ?_, ?_, h.cursor, hlength⟩
  · rw [h.stored, ← min_eq_left h.cursor, ← List.take_take, ← htake, List.take_take]
  · rw [htake]
    exact h.continues

/-- The last of the slices is what was handed over last. -/
theorem Consumption.continues_concat (h : Consumption handed trades processed final)
    {handing : Handing} (hslice : handing.trades = trades.drop processed) :
    ∀ before next rest, handed ++ [handing] = before ++ next :: rest →
      storedTrades before ++ next.trades <+: trades.take trades.length := by
  intro before next rest hsplit
  rw [List.take_length]
  rcases List.eq_nil_or_concat rest with rfl | ⟨rest', last, rfl⟩
  · obtain ⟨rfl, hnext⟩ := List.append_inj' hsplit rfl
    obtain rfl : handing = next := by simpa using hnext
    rw [h.stored, hslice, List.take_append_drop]
  · rw [List.concat_eq_append, ← List.cons_append, ← List.append_assoc] at hsplit
    obtain ⟨hinit, _⟩ := List.append_inj' hsplit rfl
    exact (h.continues before next rest' hinit).trans (List.take_prefix _ _)

/-- The new trades are handed over, and the result is lost. -/
theorem Consumption.hands (h : Consumption handed trades processed final) :
    Consumption (handed ++ [⟨trades.drop processed, true, false⟩]) trades processed
      trades.length := by
  refine ⟨?_, ?_, h.continues_concat rfl, h.cursor.trans h.length, le_refl _⟩
  · intro handing hmem
    rcases List.mem_append.mp hmem with hmem | hmem
    · exact h.accepted handing hmem
    · rw [List.mem_singleton.mp hmem]
  · rw [← h.stored]
    simp [storedTrades]

/-- The new trades are handed over, and the result is stored. -/
theorem Consumption.stores (h : Consumption handed trades processed final) :
    Consumption (handed ++ [⟨trades.drop processed, true, true⟩]) trades trades.length
      trades.length := by
  refine ⟨?_, ?_, h.continues_concat rfl, le_refl _, le_refl _⟩
  · intro handing hmem
    rcases List.mem_append.mp hmem with hmem | hmem
    · exact h.accepted handing hmem
    · rw [List.mem_singleton.mp hmem]
  · have hstored := h.stored
    simp only [storedTrades] at hstored
    simp [storedTrades, hstored]

end Handings

/-! ## What the reducer accepts -/

/-- The chronology of trades that lie in order, before the bar and, when they are new, after
the last bar. -/
theorem tradesInOrder_eq_ok {prior : RiskState} {now : ℤ} {trades : List ClosedTrade} (index : ℕ)
    (previous : Option ℤ) (hpast : ∀ trade ∈ trades, trade.exitTime ≤ now)
    (hchain : trades.IsChain fun a b => a.exitTime ≤ b.exitTime)
    (hprevious : ∀ before ∈ previous, ∀ trade ∈ trades.head?, before ≤ trade.exitTime)
    (hnew : ∀ trade ∈ trades.drop (prior.processedTradeCount - index),
      ∀ last ∈ prior.lastRiskAt, last ≤ trade.exitTime) :
    tradesInOrder prior now index previous trades = .ok () := by
  induction trades generalizing index previous with
  | nil => rfl
  | cons trade trades ih =>
    simp only [tradesInOrder, Except.bind_eq_ok, reject_eq_ok, not_or, not_and, not_exists, not_lt]
    refine ⟨⟨⟩, ⟨hpast trade (by simp), fun before hbefore => ?_⟩, ⟨⟩, fun hindex last hlast => ?_,
      ih (index + 1) (some trade.exitTime) (fun found hfound => hpast found (by simp [hfound]))
        (List.isChain_of_isChain_cons hchain) ?_ ?_⟩
    · exact hprevious before hbefore trade rfl
    · rw [Nat.sub_eq_zero_of_le hindex, List.drop_zero] at hnew
      exact hnew trade (by simp) last hlast
    · rintro _ ⟨⟩ next hnext
      exact (List.isChain_cons.mp hchain).1 next hnext
    · intro found hfound
      refine hnew found ?_
      rcases Nat.eq_zero_or_pos (prior.processedTradeCount - index) with hzero | hpositive
      · rw [hzero, List.drop_zero]
        exact List.mem_cons_of_mem _ (List.mem_of_mem_drop hfound)
      · have hsucc : prior.processedTradeCount - index =
            prior.processedTradeCount - (index + 1) + 1 := by omega
        rw [hsucc, List.drop_succ_cons]
        exact hfound

/-- A new bar with the trades in order is accepted. -/
theorem advanceRiskState_accepts {prior : RiskState} {observation : RiskObservation}
    (config : RiskConfig) (hequity : 0 ≤ observation.equity) (hinitial : 0 < prior.initialEquity)
    (hcursor : prior.processedTradeCount ≤ observation.closedTrades.length)
    (hpast : ∀ trade ∈ observation.closedTrades, trade.exitTime ≤ observation.now)
    (hchain : observation.closedTrades.IsChain fun a b => a.exitTime ≤ b.exitTime)
    (hnew : ∀ trade ∈ observation.closedTrades.drop prior.processedTradeCount,
      ∀ last ∈ prior.lastRiskAt, last ≤ trade.exitTime)
    (hlater : ∀ last ∈ prior.lastRiskAt, last < observation.now) :
    ∃ risk, advanceRiskState prior observation config = .ok risk := by
  have hnow : prior.lastRiskAt ≠ some observation.now := fun h =>
    absurd (hlater observation.now h) (lt_irrefl _)
  have hvalid : validateObservation prior observation = .ok () := by
    simp only [validateObservation, Except.bind_eq_ok, reject_eq_ok, not_lt, not_le, not_exists,
      not_and]
    exact ⟨⟨⟩, hequity, ⟨⟩, hinitial, ⟨⟩, hcursor, ⟨⟩,
      tradesInOrder_eq_ok 0 none hpast hchain (by simp) (by simpa using hnew), ⟨⟩,
      fun last hlast => (hlater last hlast).le, fun h => absurd h hnow⟩
  have hweekly : ∃ weekly, weeklyBaseline prior observation = .ok weekly := by
    have hmem : (observation.now, observation.equity) ∈ recentHistory prior observation := by
      refine List.mem_filter.mpr ⟨?_, by simp [hours]⟩
      simp [hnow]
    unfold weeklyBaseline
    cases hhead : (recentHistory prior observation).head? with
    | none =>
      rw [List.head?_eq_none_iff.mp hhead] at hmem
      cases hmem
    | some item =>
      dsimp only
      split <;> exact ⟨_, rfl⟩
  obtain ⟨weekly, hweekly⟩ := hweekly
  refine ⟨nextState prior observation config (riskInput prior observation config weekly), ?_⟩
  rw [advanceRiskState_eq]
  exact Except.bind_eq_ok.mpr ⟨⟨⟩, hvalid, Except.bind_eq_ok.mpr ⟨weekly, hweekly, rfl⟩⟩

/-- The cursor after an accepted observation is at the end of its trades. -/
theorem advanceRiskState_cursor {prior risk : RiskState} {observation : RiskObservation}
    {config : RiskConfig} (h : advanceRiskState prior observation config = .ok risk) :
    risk.processedTradeCount = observation.closedTrades.length ∧
      risk.lastRiskAt = some observation.now ∧ risk.initialEquity = prior.initialEquity := by
  rw [advanceRiskState_eq] at h
  obtain ⟨_, _, h⟩ := Except.bind_eq_ok.mp h
  obtain ⟨weekly, _, h⟩ := Except.bind_eq_ok.mp h
  rw [Except.pure_eq_ok] at h
  subst h
  exact ⟨rfl, rfl, rfl⟩

/-! ## The trades that an order books -/

section Booking

variable {book booked : Book} {intent : LiveIntent} {actual : VenueOrder} {funds : ℚ}
  {a : Increment ℚ}

/-- An order leaves the closed trades alone, closes one more at its last fill, or charges a
fee to the last one. -/
theorem bookSide_trades (h : bookSide book intent actual funds a = .ok booked) :
    booked.closedTrades = book.closedTrades ∨
      (∃ pnl, ∃ fill ∈ actual.lastFillAt,
        booked.closedTrades = book.closedTrades ++ [⟨pnl, fill⟩]) ∨
      (intent.side = .ask ∧ book.position = none ∧
        booked.closedTrades = chargeLast book.closedTrades a.fee) := by
  unfold bookSide at h
  split at h
  · left
    simp only [bookBid, Except.bind_eq_ok, reject_eq_ok] at h
    obtain ⟨_, _, h⟩ := h
    split at h
    · split at h
      · simp only [Except.bind_eq_ok, require_eq_ok, reject_eq_ok, Except.pure_eq_ok] at h
        obtain ⟨_, _, _, _, _, _, rfl⟩ := h
        rfl
      · simp only [Except.bind_eq_ok, require_eq_ok, Except.pure_eq_ok] at h
        obtain ⟨_, _, rfl⟩ := h
        rfl
    · rw [Except.pure_eq_ok] at h
      subst h
      rfl
  · next hside =>
    unfold bookAsk at h
    split at h
    · simp only [Except.bind_eq_ok, require_eq_ok, reject_eq_ok] at h
      obtain ⟨position, _, _, _, h⟩ := h
      split at h
      · simp only [Except.bind_eq_ok, require_eq_ok, Except.pure_eq_ok] at h
        obtain ⟨fill, hfill, rfl⟩ := h
        exact .inr (.inl ⟨_, fill, hfill, rfl⟩)
      · rw [Except.pure_eq_ok] at h
        subst h
        exact .inl rfl
    · split at h
      · rw [Except.pure_eq_ok] at h
        subst h
        exact .inl rfl
      · next hnone =>
        rw [Except.pure_eq_ok] at h
        subst h
        exact .inr (.inr ⟨hside, hnone, rfl⟩)

/-- A charge to the last trade leaves the trades before it. -/
theorem chargeLast_take {trades : List ClosedTrade} {n : ℕ} (h : n < trades.length) (fee : ℚ) :
    (chargeLast trades fee).take n = trades.take n ∧
      (chargeLast trades fee).length = trades.length := by
  rcases List.eq_nil_or_concat trades with rfl | ⟨init, last, rfl⟩
  · cases h
  · rw [List.concat_eq_append, List.length_append, List.length_singleton] at h
    have hle : n ≤ init.length := Nat.le_of_lt_succ h
    simp [chargeLast, List.take_append_of_le_length hle]

/-- A charge to the last trade leaves the exit times. -/
theorem chargeLast_exits (trades : List ClosedTrade) (fee : ℚ) :
    (chargeLast trades fee).map (·.exitTime) = trades.map (·.exitTime) := by
  rcases List.eq_nil_or_concat trades with rfl | ⟨init, last, rfl⟩
  · rfl
  · simp [chargeLast]

/-- A charge of nothing changes nothing. -/
theorem chargeLast_zero (trades : List ClosedTrade) : chargeLast trades 0 = trades := by
  rcases List.eq_nil_or_concat trades with rfl | ⟨init, last, rfl⟩
  · rfl
  · simp [chargeLast]

end Booking

end AutoBit.Live
