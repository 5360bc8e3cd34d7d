import AutoBit.Live.Sends

/-!
# What an order books depends on its last facts

The venue reports an order as totals, and the service books increments. What is booked of a
sequence of facts is what the ledger of average costs books of their sum, so that only the
last facts count. No step of a run changes the balance of the ledger but the opening of it.
-/

namespace AutoBit.Live

open Library Health Risk Strategy Relation

/-- The ledger of a book. -/
def Book.ledger (book : Book) : Ledger ℚ :=
  ⟨book.cash, book.position.map (·.holding), book.closedTrades.map (·.netPnl)⟩

/-- What an order adds to what an intent has recorded. -/
def LiveIntent.increment (intent : LiveIntent) (actual : VenueOrder) (funds : ℚ) : Increment ℚ :=
  ⟨actual.executedVolume - intent.quantity, funds - intent.funds, actual.paidFee - intent.fee⟩

/-- The ledger after an increment of an order. -/
def settleLedger (side : Side) (ledger : Ledger ℚ) (entry : ℚ) (a : Increment ℚ) : Ledger ℚ :=
  match side with
  | .bid => ledger.buy entry a
  | .ask => ledger.sell a

/-- Which increments an order may have. -/
def Settles (side : Side) (ledger : Ledger ℚ) (a : Increment ℚ) : Prop :=
  match side with
  | .bid => ledger.Buys a
  | .ask => ledger.Sells a

/-- Two increments that settle are settled as one. -/
theorem settleLedger_add {side : Side} {ledger : Ledger ℚ} {entry entry' : ℚ} {a b : Increment ℚ}
    (ha : Settles side ledger a) (hb : Settles side (settleLedger side ledger entry a) b)
    (hentry : b.quantity = 0 → entry = entry') :
    settleLedger side (settleLedger side ledger entry a) entry' b =
        settleLedger side ledger entry' (a + b) ∧ Settles side ledger (a + b) := by
  cases side with
  | bid => exact Ledger.buy_buy ha hb hentry
  | ask => exact Ledger.sell_sell ha hb

/-- A settled increment leaves the balance of the ledger. -/
theorem settleLedger_balance {side : Side} {ledger : Ledger ℚ} {entry : ℚ} {a : Increment ℚ}
    (h : Settles side ledger a) : (settleLedger side ledger entry a).balance = ledger.balance := by
  cases side with
  | bid => exact Ledger.balance_buy h
  | ask => exact Ledger.balance_sell h

/-- A charge to the last trade is one to the last result. -/
theorem chargeLast_map (trades : List ClosedTrade) (fee : ℚ) :
    (chargeLast trades fee).map (·.netPnl) = Library.chargeLast (trades.map (·.netPnl)) fee := by
  rcases List.eq_nil_or_concat trades with rfl | ⟨init, last, rfl⟩
  · rfl
  · simp [chargeLast]

/-- An intent has recorded nothing, or its fills are in the ledger: in the holding, or in a
profit after the first `settled` ones. -/
def Recorded (settled : ℕ) (intent : LiveIntent) (ledger : Ledger ℚ) : Prop :=
  (intent.quantity = 0 ∧ intent.funds = 0 ∧ intent.fee = 0) ∨ ledger.holding.isSome = true ∨
    (intent.side = .ask ∧ settled < ledger.closed.length)

section Booking

variable {book booked : Book} {intent : LiveIntent} {actual : VenueOrder} {at_ : ℤ} {funds : ℚ}

/-- The booking of a bid is a buy. -/
theorem bookBid_ledger {a : Increment ℚ} (hnonneg : 0 ≤ a.quantity)
    (hunfunded : a.quantity = 0 → a.funds = 0)
    (hentry : book.position = none → 0 < a.quantity →
      averagePrice a.funds a.quantity = averagePrice funds actual.executedVolume)
    (h : bookBid book intent actual funds a.quantity a.funds a.fee = .ok booked) :
    booked.ledger = book.ledger.buy (averagePrice funds actual.executedVolume) a := by
  simp only [bookBid, Except.bind_eq_ok, reject_eq_ok, not_lt] at h
  obtain ⟨_, _, h⟩ := h
  split at h
  · next hfilled =>
    cases hposition : book.position with
    | none =>
      simp only [hposition, Except.bind_eq_ok, require_eq_ok, reject_eq_ok, Except.pure_eq_ok] at h
      obtain ⟨stop, _, _, _, entryAt, _, rfl⟩ := h
      simp [Book.ledger, Ledger.buy, hposition, hfilled, LivePosition.holding,
        hentry hposition hfilled]
    | some position =>
      simp only [hposition, Except.bind_eq_ok, require_eq_ok, Except.pure_eq_ok] at h
      obtain ⟨stop, _, rfl⟩ := h
      simp [Book.ledger, Ledger.buy, hposition, hfilled, LivePosition.holding]
  · next hfilled =>
    rw [Except.pure_eq_ok] at h
    subst h
    have hnone : a.quantity = 0 := le_antisymm (not_lt.mp hfilled) hnonneg
    cases hposition : book.position with
    | none => simp [Book.ledger, Ledger.buy, hposition, hnone]
    | some position =>
      simp [Book.ledger, Ledger.buy, hposition, hnone, hunfunded hnone, LivePosition.holding]

/-- The booking of an ask is a sale. -/
theorem bookAsk_ledger {a : Increment ℚ} (hnonneg : 0 ≤ a.quantity)
    (hunfunded : a.quantity = 0 → a.funds = 0)
    (h : bookAsk book intent actual a.quantity a.funds a.fee = .ok booked) :
    booked.ledger = book.ledger.sell a ∧
      (∀ held ∈ book.ledger.holding, 0 < a.quantity → a.quantity ≤ held.quantity) ∧
      (book.ledger.holding = none → a.quantity = 0) := by
  unfold bookAsk at h
  split at h
  · next hfilled =>
    simp only [Except.bind_eq_ok, require_eq_ok, reject_eq_ok, not_or, not_lt] at h
    obtain ⟨position, hposition, _, ⟨hheld, _⟩, h⟩ := h
    refine ⟨?_, ?_, by simp [Book.ledger, hposition]⟩
    · split at h
      · next hremaining =>
        simp only [Except.bind_eq_ok, require_eq_ok, Except.pure_eq_ok] at h
        obtain ⟨exitTime, _, rfl⟩ := h
        have hall : a.quantity = position.quantity := (sub_eq_zero.mp hremaining).symm
        simp [Book.ledger, Ledger.sell, hposition, LivePosition.holding, Ledger.profit,
          Ledger.share, ← hall, hfilled]
      · next hremaining =>
        rw [Except.pure_eq_ok] at h
        subst h
        have hrest : a.quantity ≠ position.quantity := fun hall =>
          hremaining (sub_eq_zero.mpr hall.symm)
        simp [Book.ledger, Ledger.sell, hposition, LivePosition.holding, Ledger.profit,
          Ledger.share, hrest]
    · intro held hmem _
      obtain rfl : position.holding = held := by simpa [Book.ledger, hposition] using hmem
      exact hheld
  · next hfilled =>
    have hnone : a.quantity = 0 := le_antisymm (not_lt.mp hfilled) hnonneg
    have hfunds := hunfunded hnone
    refine ⟨?_, fun _ _ hpositive => absurd hnone hpositive.ne', fun _ => hnone⟩
    cases hposition : book.position with
    | none =>
      simp only [hposition, Except.pure_eq_ok] at h
      subst h
      simp [Book.ledger, Ledger.sell, hposition, hfunds, chargeLast_map]
    | some position =>
      simp only [hposition, Except.pure_eq_ok] at h
      subst h
      simp [Book.ledger, Ledger.sell, hposition, hfunds, hnone, LivePosition.holding,
        Ledger.profit, Ledger.share]

/-- The side of an order decides how its increment is booked. -/
def bookSide (book : Book) (intent : LiveIntent) (actual : VenueOrder) (funds : ℚ)
    (a : Increment ℚ) : Except LiveError Book :=
  match intent.side with
  | .bid => bookBid book intent actual funds a.quantity a.funds a.fee
  | .ask => bookAsk book intent actual a.quantity a.funds a.fee

/-- An order is booked exactly when its facts are accepted, its side is, and the cash suffices. -/
theorem bookOrder_iff : bookOrder book intent actual at_ = .ok booked ↔
    ∃ funds, Accepted intent actual at_ funds ∧
      bookSide book intent actual funds (intent.increment actual funds) = .ok booked ∧
      0 ≤ booked.cash := by
  have hside : ∀ funds, Accepted intent actual at_ funds →
      (match actual.side with
        | .bid => bookBid book intent actual funds (actual.executedVolume - intent.quantity)
          (funds - intent.funds) (actual.paidFee - intent.fee)
        | .ask => bookAsk book intent actual (actual.executedVolume - intent.quantity)
          (funds - intent.funds) (actual.paidFee - intent.fee)) =
      bookSide book intent actual funds (intent.increment actual funds) := by
    intro funds haccepted
    rw [haccepted.side]
    rfl
  rw [bookOrder, Except.bind_eq_ok]
  constructor
  · rintro ⟨funds, hfacts, h⟩
    have haccepted := checkFacts_iff.mp hfacts
    have hbooked := hside funds haccepted
    refine ⟨funds, haccepted, ?_⟩
    rw [← hbooked]
    cases hactual : actual.side <;>
      simp only [hactual, Except.bind_eq_ok, reject_eq_ok, Except.pure_eq_ok, not_lt] at h ⊢ <;>
      obtain ⟨_, hfound, _, hcash, rfl⟩ := h <;> exact ⟨hfound, hcash⟩
  · rintro ⟨funds, haccepted, h, hcash⟩
    rw [← hside funds haccepted] at h
    refine ⟨funds, checkFacts_iff.mpr haccepted, ?_⟩
    cases hactual : actual.side <;>
      simp only [hactual, Except.bind_eq_ok, reject_eq_ok, Except.pure_eq_ok, not_lt] at h ⊢ <;>
      exact ⟨booked, h, ⟨⟩, hcash, rfl⟩

/-- What is booked of an order is an increment of the ledger. -/
theorem bookSide_ledger {settled : ℕ} (hsettled : settled ≤ book.ledger.closed.length)
    (hconsistent : actual.Consistent) (hrecorded : Recorded settled intent book.ledger)
    (haccepted : Accepted intent actual at_ funds)
    (h : bookSide book intent actual funds (intent.increment actual funds) = .ok booked) :
    Settles intent.side book.ledger (intent.increment actual funds) ∧
      booked.ledger = settleLedger intent.side book.ledger (averagePrice funds actual.executedVolume)
        (intent.increment actual funds) ∧
      Recorded settled (intent.settled actual) booked.ledger := by
  have hfunds := haccepted.executed
  set a := intent.increment actual funds with ha
  have hnonneg : 0 ≤ a.quantity := sub_nonneg.mpr haccepted.volume
  have hunfunded : a.quantity = 0 → a.funds = 0 := fun hzero =>
    sub_eq_zero.mpr (haccepted.still (sub_eq_zero.mp hzero))
  -- an order of which nothing is recorded and nothing is filled costs nothing
  have hfree : intent.quantity = 0 ∧ intent.funds = 0 ∧ intent.fee = 0 → a.quantity = 0 →
      (intent.settled actual).quantity = 0 ∧ (intent.settled actual).funds = 0 ∧
        (intent.settled actual).fee = 0 ∧ a.fee = 0 := by
    rintro ⟨hquantity, hintentFunds, hintentFee⟩ hzero
    have hexecuted : actual.executedVolume = 0 := by
      rw [← hquantity]
      exact sub_eq_zero.mp hzero
    have hpaidFee := hconsistent.feeless hexecuted
    refine ⟨hexecuted, ?_, hpaidFee, by simp [ha, LiveIntent.increment, hpaidFee, hintentFee]⟩
    simp only [LiveIntent.settled, hfunds, Option.getD_some]
    exact hconsistent.unfilled funds hfunds hexecuted
  cases hbid : intent.side with
  | bid =>
    simp only [bookSide, hbid] at h
    have hzero : book.ledger.holding = none →
        intent.quantity = 0 ∧ intent.funds = 0 ∧ intent.fee = 0 := by
      intro hnone
      rcases hrecorded with hzero | hheld | ⟨hask, _⟩
      · exact hzero
      · rw [hnone] at hheld
        cases hheld
      · rw [hbid] at hask
        cases hask
    have hledger := bookBid_ledger (a := a) hnonneg hunfunded (fun hnone _ => by
      obtain ⟨hquantity, hintentFunds, _⟩ := hzero (by simp [Book.ledger, hnone])
      simp [ha, LiveIntent.increment, hquantity, hintentFunds]) h
    refine ⟨⟨hnonneg, hunfunded, fun hnone h => (hfree (hzero hnone) h).2.2.2⟩, hledger, ?_⟩
    rw [hledger]
    cases hholding : book.ledger.holding with
    | some held => exact .inr (.inl (by simp [Ledger.buy, hholding]))
    | none =>
      rcases hnonneg.eq_or_lt with hnone | hsome
      · obtain ⟨hquantity, hsettledFunds, hsettledFee, _⟩ := hfree (hzero hholding) hnone.symm
        exact .inl ⟨hquantity, hsettledFunds, hsettledFee⟩
      · exact .inr (.inl (by simp [Ledger.buy, hholding, hsome]))
  | ask =>
    simp only [bookSide, hbid] at h
    obtain ⟨hledger, hheld, hunheld⟩ := bookAsk_ledger (a := a) hnonneg hunfunded h
    have hclosed : book.ledger.holding = none →
        (intent.quantity = 0 ∧ intent.funds = 0 ∧ intent.fee = 0) ∨
          settled < book.ledger.closed.length := by
      intro hnone
      rcases hrecorded with hzero | hsome | ⟨_, hclosed⟩
      · exact .inl hzero
      · rw [hnone] at hsome
        cases hsome
      · exact .inr hclosed
    refine ⟨⟨hnonneg, hunfunded, hheld, fun hnone => ⟨hunheld hnone, ?_⟩⟩, hledger, ?_⟩
    · exact (hclosed hnone).imp (fun hzero => (hfree hzero (hunheld hnone)).2.2.2)
        fun hclosed => List.ne_nil_of_length_pos (Nat.zero_lt_of_lt hclosed)
    rw [hledger]
    cases hholding : book.ledger.holding with
    | none =>
      rcases hclosed hholding with hzero | hclosed
      · obtain ⟨hquantity, hsettledFunds, hsettledFee, _⟩ := hfree hzero (hunheld hholding)
        exact .inl ⟨hquantity, hsettledFunds, hsettledFee⟩
      · refine .inr (.inr ⟨hbid, ?_⟩)
        simpa [Ledger.sell, hholding] using hclosed
    | some held =>
      by_cases hcloses : 0 < a.quantity ∧ a.quantity = held.quantity
      · refine .inr (.inr ⟨hbid, ?_⟩)
        simp [Ledger.sell, hholding, if_pos hcloses, Nat.lt_succ_of_le hsettled]
      · refine .inr (.inl ?_)
        simp only [Ledger.sell, hholding, if_neg hcloses, Option.isSome_some]

end Booking

end AutoBit.Live
