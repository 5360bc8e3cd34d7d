import AutoBit.Live.Settlement

/-!
# Facts in a row

Whatever facts of an order were accepted before, the last ones would have been accepted alone,
and would have booked the same. No run gains or loses money against its ledger.
-/

namespace AutoBit.Live

open Library Health Risk Strategy Relation

/-! ## What a booking is accepted for -/

/-- The ATR and its multiple that the stop of a bid is set with. -/
def Book.protection (book : Book) (intent : LiveIntent) : ℚ × ℚ :=
  (book.position.map fun position => (position.entryAtr, position.initialAtrMult)).getD
    (intent.entryAtr, intent.initialAtrMult)

/-- The initial stop of the position of a book. -/
def Book.initialStop (book : Book) : Option ℚ := book.position.map (·.initialStop)

/-- A book has an initial stop exactly when something is held. -/
theorem Book.initialStop_isSome (book : Book) :
    book.initialStop.isSome = book.ledger.holding.isSome := by
  simp [Book.initialStop, Book.ledger]

section Booking

variable {book booked : Book} {intent : LiveIntent} {actual : VenueOrder} {funds : ℚ}
  {a : Increment ℚ}

/-- What a bid that fills is accepted for, and the stop that it sets. -/
theorem bookBid_filled (hfilled : 0 < a.quantity)
    (hentry : book.position = none →
      averagePrice a.funds a.quantity = averagePrice funds actual.executedVolume)
    (h : bookBid book intent actual funds a.quantity a.funds a.fee = .ok booked) :
    funds ≤ intent.amount ∧ booked.protection intent = book.protection intent ∧
      booked.initialStop.isSome = true ∧
      initialStopPrice (averagePrice funds actual.executedVolume) (book.protection intent).1
        (book.protection intent).2 = booked.initialStop ∧
      (book.position = none → ∀ stop ∈ booked.initialStop, 0 < stop) := by
  simp only [bookBid, Except.bind_eq_ok, reject_eq_ok, not_lt, if_pos hfilled] at h
  obtain ⟨_, hbudget, h⟩ := h
  cases hposition : book.position with
  | none =>
    simp only [hposition, Except.bind_eq_ok, require_eq_ok, reject_eq_ok, Except.pure_eq_ok,
      not_le, hentry hposition] at h
    obtain ⟨stop, hstop, _, hpositive, entryAt, _, rfl⟩ := h
    simp [Book.protection, Book.initialStop, hposition, hstop, hbudget, hpositive]
  | some position =>
    simp only [hposition, Except.bind_eq_ok, require_eq_ok, Except.pure_eq_ok] at h
    obtain ⟨stop, hstop, rfl⟩ := h
    simp [Book.protection, Book.initialStop, hposition, hstop, hbudget]

/-- A bid that fills nothing leaves the protection alone. -/
theorem bookBid_unfilled (hunfilled : ¬0 < a.quantity)
    (h : bookBid book intent actual funds a.quantity a.funds a.fee = .ok booked) :
    funds ≤ intent.amount ∧ booked.protection intent = book.protection intent ∧
      booked.initialStop = book.initialStop := by
  simp only [bookBid, Except.bind_eq_ok, reject_eq_ok, not_lt, if_neg hunfilled,
    Except.pure_eq_ok] at h
  obtain ⟨_, hbudget, rfl⟩ := h
  refine ⟨hbudget, ?_, ?_⟩
  · cases hposition : book.position <;> simp [Book.protection, hposition]
  · cases hposition : book.position <;> simp [Book.initialStop, hposition]

/-- A bid within its budget, with a stop if it fills, is booked. -/
theorem bookBid_accepts (hbudget : funds ≤ intent.amount)
    (hentry : book.position = none →
      averagePrice a.funds a.quantity = averagePrice funds actual.executedVolume)
    (hstop : 0 < a.quantity → ∃ stop, initialStopPrice (averagePrice funds actual.executedVolume)
      (book.protection intent).1 (book.protection intent).2 = some stop ∧
      (book.position = none → 0 < stop ∧ actual.firstFillAt.isSome = true)) :
    ∃ booked, bookBid book intent actual funds a.quantity a.funds a.fee = .ok booked := by
  simp only [bookBid, Except.bind_eq_ok, reject_eq_ok, not_lt]
  by_cases hfilled : 0 < a.quantity
  · obtain ⟨stop, hprice, hfresh⟩ := hstop hfilled
    simp only [if_pos hfilled]
    cases hposition : book.position with
    | none =>
      obtain ⟨hpositive, hfirst⟩ := hfresh hposition
      obtain ⟨first, hfirst⟩ := Option.isSome_iff_exists.mp hfirst
      simp only [Book.protection, hposition, Option.map_none, Option.getD_none] at hprice
      simp only [hentry hposition, Except.bind_eq_ok, require_eq_ok, reject_eq_ok,
        Except.pure_eq_ok, not_le]
      exact ⟨_, ⟨⟩, hbudget, stop, hprice, ⟨⟩, hpositive, first, hfirst, rfl⟩
    | some position =>
      simp only [Book.protection, hposition, Option.map_some, Option.getD_some] at hprice
      simp only [Except.bind_eq_ok, require_eq_ok, Except.pure_eq_ok]
      exact ⟨_, ⟨⟩, hbudget, stop, hprice, rfl⟩
  · simp only [if_neg hfilled, Except.pure_eq_ok]
    exact ⟨_, ⟨⟩, hbudget, rfl⟩

/-- What an ask is accepted for, and the stop that it keeps. -/
theorem bookAsk_eq_ok
    (h : bookAsk book intent actual a.quantity a.funds a.fee = .ok booked) :
    (0 < a.quantity → actual.executedVolume ≤ intent.amount) ∧
      ∀ stop ∈ booked.initialStop, book.initialStop = some stop := by
  unfold bookAsk at h
  split at h
  · simp only [Except.bind_eq_ok, require_eq_ok, reject_eq_ok, not_or, not_lt] at h
    obtain ⟨position, hposition, _, ⟨_, hordered⟩, h⟩ := h
    refine ⟨fun _ => hordered, ?_⟩
    split at h
    · simp only [Except.bind_eq_ok, require_eq_ok, Except.pure_eq_ok] at h
      obtain ⟨exitTime, _, rfl⟩ := h
      simp [Book.initialStop]
    · rw [Except.pure_eq_ok] at h
      subst h
      simp [Book.initialStop, hposition]
  · next hfilled =>
    refine ⟨fun h => absurd h hfilled, ?_⟩
    cases hposition : book.position with
    | none =>
      simp only [hposition, Except.pure_eq_ok] at h
      subst h
      simp [Book.initialStop]
    | some position =>
      simp only [hposition, Except.pure_eq_ok] at h
      subst h
      simp [Book.initialStop, hposition]

/-- An ask of what is held is booked. -/
theorem bookAsk_accepts (hsells : book.ledger.Sells a)
    (hordered : 0 < a.quantity → actual.executedVolume ≤ intent.amount)
    (hlast : 0 < a.quantity → actual.lastFillAt.isSome = true) :
    ∃ booked, bookAsk book intent actual a.quantity a.funds a.fee = .ok booked := by
  unfold bookAsk
  by_cases hfilled : 0 < a.quantity
  · rw [if_pos hfilled]
    cases hposition : book.position with
    | none =>
      have hnone : book.ledger.holding = none := by simp [Book.ledger, hposition]
      exact absurd (hsells.closed hnone).1 hfilled.ne'
    | some position =>
      have hheld : a.quantity ≤ position.quantity :=
        hsells.held position.holding (by simp [Book.ledger, hposition]) hfilled
      obtain ⟨last, hlast⟩ := Option.isSome_iff_exists.mp (hlast hfilled)
      have hordered := hordered hfilled
      simp only [Except.bind_eq_ok, require_eq_ok, reject_eq_ok, not_or, not_lt]
      by_cases hremaining : position.quantity - a.quantity = 0
      · simp [hremaining, hheld, hordered, hlast]
      · simp [hremaining, hheld, hordered]
  · rw [if_neg hfilled]
    cases book.position with
    | none => exact ⟨_, rfl⟩
    | some position => exact ⟨_, rfl⟩

end Booking

/-! ## Two facts -/

section TwoFacts

variable {book middle booked : Book} {intent : LiveIntent} {first second : VenueOrder}
  {at₁ at₂ : ℤ} {funds₁ funds₂ : ℚ}

/-- Facts that are accepted after others are accepted without them. -/
theorem Accepted.skip (hfirst : first.Consistent) (hsecond : second.Consistent)
    (hquantity : 0 ≤ intent.quantity) (h₁ : Accepted intent first at₁ funds₁)
    (h₂ : Accepted (intent.settled first) second at₂ funds₂) :
    Accepted intent second at₂ funds₂ := by
  have hfunds : (intent.settled first).funds = funds₁ := by
    simp [LiveIntent.settled, h₁.executed]
  have hpaid : funds₁ ≤ funds₂ := hfunds ▸ h₂.paid
  have hvolume : first.executedVolume ≤ second.executedVolume := h₂.volume
  have hsameFunds : second.executedVolume = first.executedVolume → funds₂ = funds₁ := fun h =>
    (h₂.still h).trans hfunds
  refine ⟨h₂.side, h₂.identifier, h₂.created, ?_, h₂.executed, h₁.volume.trans hvolume,
    h₁.paid.trans hpaid, h₁.fee.trans h₂.fee, h₂.price, h₂.ordered, ?_, ?_, h₂.past, ?_⟩
  · intro uuid huuid hne
    exact (h₂.uuid first.uuid rfl hfirst.named).trans (h₁.uuid uuid huuid hne)
  · intro hstill
    have hsame : first.executedVolume = intent.quantity :=
      le_antisymm (hvolume.trans hstill.le) h₁.volume
    exact (hsameFunds (hstill.trans hsame.symm)).trans (h₁.still hsame)
  · intro hfilled
    obtain ⟨_, fill, last, _, hlast, _⟩ :=
      hsecond.filled funds₂ h₂.executed (hquantity.trans_lt hfilled)
    refine ⟨?_, by rw [hlast]; rfl⟩
    rcases hvolume.eq_or_lt with hsame | hmore
    · rw [hsameFunds hsame.symm]
      exact (h₁.filled (hsame ▸ hfilled)).1
    · exact h₁.paid.trans_lt (hfunds ▸ (h₂.filled hmore).1)
  · intro _ hfilled
    obtain ⟨_, fill, last, hfill, hlast, hcreated, hordered⟩ :=
      hsecond.filled funds₂ h₂.executed (hquantity.trans_lt hfilled)
    exact ⟨fill, hfill, hcreated, last, hlast, hordered⟩

/-- The increments of two facts in a row add up to the increment of the second alone. -/
theorem increment_add (h₁ : Accepted intent first at₁ funds₁) :
    intent.increment first funds₁ + (intent.settled first).increment second funds₂ =
      intent.increment second funds₂ := by
  have hfunds : (intent.settled first).funds = funds₁ := by
    simp [LiveIntent.settled, h₁.executed]
  have hquantity : (intent.settled first).quantity = first.executedVolume := rfl
  have hfee : (intent.settled first).fee = first.paidFee := rfl
  ext
  · simp [LiveIntent.increment, hquantity]
  · simp [LiveIntent.increment, hfunds]
  · simp [LiveIntent.increment, hfee]

/-- The price that an order is filled at, when it is filled no further. -/
theorem Accepted.same_price (h₁ : Accepted intent first at₁ funds₁)
    (h₂ : Accepted (intent.settled first) second at₂ funds₂)
    (hstill : ((intent.settled first).increment second funds₂).quantity = 0) :
    averagePrice funds₁ first.executedVolume = averagePrice funds₂ second.executedVolume := by
  have hsame : second.executedVolume = first.executedVolume := sub_eq_zero.mp hstill
  have hfunds : funds₂ = funds₁ := by simpa [LiveIntent.settled, h₁.executed] using h₂.still hsame
  rw [hsame, hfunds]

/-- A bid without a position has recorded nothing. -/
theorem Recorded.unheld (hrecorded : Recorded 0 intent book.ledger) (hbid : intent.side = .bid)
    (hnone : book.position = none) : intent.quantity = 0 ∧ intent.funds = 0 ∧ intent.fee = 0 := by
  rcases hrecorded with hzero | hheld | ⟨hask, _⟩
  · exact hzero
  · simp [Book.ledger, hnone] at hheld
  · rw [hbid] at hask
    cases hask

/-- The first fill of a bid that has recorded nothing is at its price. -/
theorem Recorded.entry (hrecorded : Recorded 0 intent book.ledger) (hbid : intent.side = .bid)
    (hnone : book.position = none) :
    averagePrice (intent.increment second funds₂).funds (intent.increment second funds₂).quantity =
      averagePrice funds₂ second.executedVolume := by
  obtain ⟨hquantity, hfunds, _⟩ := hrecorded.unheld hbid hnone
  simp [LiveIntent.increment, hquantity, hfunds]

/-- The second of two bids is booked alone, with the stop that it sets after the first. -/
theorem bookBid_skip (hbid : intent.side = .bid) (hrecorded : Recorded 0 intent book.ledger)
    (hrecorded' : Recorded 0 (intent.settled first) middle.ledger)
    (h₁ : Accepted intent first at₁ funds₁)
    (h₂ : Accepted (intent.settled first) second at₂ funds₂)
    (h : Accepted intent second at₂ funds₂)
    (hfirst : bookSide book intent first funds₁ (intent.increment first funds₁) = .ok middle)
    (hsecond : bookSide middle (intent.settled first) second funds₂
      ((intent.settled first).increment second funds₂) = .ok booked)
    (hstop : ∀ stop ∈ booked.initialStop, 0 < stop) :
    ∃ alone, bookSide book intent second funds₂ (intent.increment second funds₂) = .ok alone ∧
      alone.initialStop = booked.initialStop := by
  have hbid' : (intent.settled first).side = .bid := hbid
  have hprotection : ∀ book : Book, book.protection (intent.settled first) =
      book.protection intent := fun _ => rfl
  simp only [bookSide, hbid, hbid'] at hfirst hsecond ⊢
  set a := intent.increment first funds₁ with ha
  set b := (intent.settled first).increment second funds₂ with hb
  have hsum : (intent.increment second funds₂).quantity = a.quantity + b.quantity := by
    rw [← increment_add h₁]
    rfl
  have haNonneg : 0 ≤ a.quantity := sub_nonneg.mpr h₁.volume
  have hbNonneg : 0 ≤ b.quantity := sub_nonneg.mpr h₂.volume
  have hfill : 0 < (intent.increment second funds₂).quantity → second.firstFillAt.isSome = true := by
    intro hfilled
    obtain ⟨fill, hfill, _⟩ := h.bought (h.side.trans hbid) (sub_pos.mp hfilled)
    rw [Option.mem_def.mp hfill]
    rfl
  -- the stop that the whole increment sets, if it fills anything
  have hset : 0 < a.quantity + b.quantity →
      initialStopPrice (averagePrice funds₂ second.executedVolume) (book.protection intent).1
        (book.protection intent).2 = booked.initialStop ∧ booked.initialStop.isSome = true := by
    intro hfilled
    by_cases hagain : 0 < b.quantity
    · obtain ⟨_, _, hsome, hprice, _⟩ := bookBid_filled hagain
        (fun hnone => hrecorded'.entry hbid' hnone) hsecond
      have hkept : middle.protection intent = book.protection intent := by
        by_cases hbefore : 0 < a.quantity
        · exact (bookBid_filled hbefore (fun hnone => hrecorded.entry hbid hnone) hfirst).2.1
        · exact (bookBid_unfilled hbefore hfirst).2.1
      rw [hprotection, hkept] at hprice
      exact ⟨hprice, hsome⟩
    · have hnone : b.quantity = 0 := le_antisymm (not_lt.mp hagain) hbNonneg
      rw [hnone, add_zero] at hfilled
      obtain ⟨_, _, hsome, hprice, _⟩ := bookBid_filled hfilled
        (fun hnone => hrecorded.entry hbid hnone) hfirst
      rw [(bookBid_unfilled hagain hsecond).2.2, ← h₁.same_price h₂ hnone]
      exact ⟨hprice, hsome⟩
  have hbudget : funds₂ ≤ intent.amount := by
    by_cases hagain : 0 < b.quantity
    · exact (bookBid_filled hagain (fun hnone => hrecorded'.entry hbid' hnone) hsecond).1
    · exact (bookBid_unfilled hagain hsecond).1
  have halone : ∃ alone, bookBid book intent second funds₂ (intent.increment second funds₂).quantity
      (intent.increment second funds₂).funds (intent.increment second funds₂).fee = .ok alone := by
    refine bookBid_accepts hbudget (fun hnone => hrecorded.entry hbid hnone) fun hfilled => ?_
    obtain ⟨hprice, hsome⟩ := hset (hsum ▸ hfilled)
    obtain ⟨stop, hsome⟩ := Option.isSome_iff_exists.mp hsome
    exact ⟨stop, hprice.trans hsome, fun _ => ⟨hstop stop hsome, hfill hfilled⟩⟩
  obtain ⟨alone, halone⟩ := halone
  refine ⟨alone, halone, ?_⟩
  by_cases hfilled : 0 < (intent.increment second funds₂).quantity
  · obtain ⟨_, _, _, hprice, _⟩ := bookBid_filled hfilled
      (fun hnone => hrecorded.entry hbid hnone) halone
    rw [← hprice, (hset (hsum ▸ hfilled)).1]
  · have hzero : a.quantity = 0 ∧ b.quantity = 0 :=
      (add_eq_zero_iff_of_nonneg haNonneg hbNonneg).mp
        (le_antisymm (hsum ▸ not_lt.mp hfilled) (add_nonneg haNonneg hbNonneg))
    rw [(bookBid_unfilled hfilled halone).2.2, (bookBid_unfilled hzero.2.not_gt hsecond).2.2,
      (bookBid_unfilled hzero.1.not_gt hfirst).2.2]

/-- The second of two asks is booked alone. -/
theorem bookAsk_skip (hask : intent.side = .ask)
    (h₂ : Accepted (intent.settled first) second at₂ funds₂)
    (h : Accepted intent second at₂ funds₂)
    (hsells : book.ledger.Sells (intent.increment second funds₂))
    (hfirst : bookSide book intent first funds₁ (intent.increment first funds₁) = .ok middle)
    (hsecond : bookSide middle (intent.settled first) second funds₂
      ((intent.settled first).increment second funds₂) = .ok booked) :
    ∃ alone, bookSide book intent second funds₂ (intent.increment second funds₂) = .ok alone := by
  have hask' : (intent.settled first).side = .ask := hask
  simp only [bookSide, hask, hask'] at hfirst hsecond ⊢
  have hordered := (bookAsk_eq_ok hfirst).1
  have hordered' := (bookAsk_eq_ok hsecond).1
  refine bookAsk_accepts hsells (fun hfilled => ?_) fun hfilled => ?_
  · rcases h₂.volume.eq_or_lt with hsame | hmore
    · have hsame : first.executedVolume = second.executedVolume := hsame
      rw [← hsame]
      refine hordered (sub_pos.mpr ?_)
      rw [hsame]
      exact sub_pos.mp hfilled
    · exact hordered' (sub_pos.mpr hmore)
  · exact (h.filled (sub_pos.mp hfilled)).2

/-- The second of two facts is booked alone, as it was after the first. -/
theorem bookOrder_skip (hfirst : first.Consistent) (hsecond : second.Consistent)
    (hquantity : 0 ≤ intent.quantity) (hrecorded : Recorded 0 intent book.ledger)
    (h₁ : bookOrder book intent first at₁ = .ok middle)
    (h₂ : bookOrder middle (intent.settled first) second at₂ = .ok booked)
    (hstop : ∀ stop ∈ booked.initialStop, 0 < stop) :
    ∃ alone, bookOrder book intent second at₂ = .ok alone ∧ alone.ledger = booked.ledger ∧
      alone.initialStop = booked.initialStop := by
  obtain ⟨funds₁, haccepted₁, hside₁, _⟩ := bookOrder_iff.mp h₁
  obtain ⟨funds₂, haccepted₂, hside₂, hcash⟩ := bookOrder_iff.mp h₂
  have haccepted := Accepted.skip hfirst hsecond hquantity haccepted₁ haccepted₂
  obtain ⟨hsettles₁, hledger₁, hrecorded₁⟩ := bookSide_ledger (Nat.zero_le _) hfirst hrecorded
    haccepted₁ hside₁
  obtain ⟨hsettles₂, hledger₂, _⟩ := bookSide_ledger (Nat.zero_le _) hsecond hrecorded₁ haccepted₂ hside₂
  rw [hledger₁] at hsettles₂ hledger₂
  obtain ⟨hsum, hsettles⟩ := settleLedger_add hsettles₁ hsettles₂
    fun hstill => haccepted₁.same_price haccepted₂ hstill
  rw [increment_add haccepted₁] at hsum hsettles
  have hledger : ∀ alone, bookSide book intent second funds₂ (intent.increment second funds₂) =
      .ok alone → alone.ledger = booked.ledger := fun alone halone =>
    (bookSide_ledger (Nat.zero_le _) hsecond hrecorded haccepted halone).2.1.trans
    (hsum.symm.trans hledger₂.symm)
  have hfinish : ∀ alone, bookSide book intent second funds₂ (intent.increment second funds₂) =
      .ok alone → bookOrder book intent second at₂ = .ok alone := fun alone halone =>
    bookOrder_iff.mpr ⟨funds₂, haccepted, halone, by
      rwa [show alone.cash = booked.cash from congrArg Ledger.cash (hledger alone halone)]⟩
  cases hintent : intent.side with
  | bid =>
    obtain ⟨alone, halone, hstops⟩ := bookBid_skip hintent hrecorded hrecorded₁ haccepted₁
      haccepted₂ haccepted hside₁ hside₂ hstop
    exact ⟨alone, hfinish alone halone, hledger alone halone, hstops⟩
  | ask =>
    rw [hintent] at hsettles
    obtain ⟨alone, halone⟩ := bookAsk_skip hintent haccepted₂ haccepted hsettles hside₁ hside₂
    have hsame := hledger alone halone
    refine ⟨alone, hfinish alone halone, hsame, ?_⟩
    have hintent' : (intent.settled first).side = .ask := hintent
    simp only [bookSide, hintent, hintent'] at hside₁ hside₂ halone
    have hisSome : alone.initialStop.isSome = booked.initialStop.isSome := by
      rw [alone.initialStop_isSome, booked.initialStop_isSome, hsame]
    cases hstop₂ : booked.initialStop with
    | none =>
      rw [hstop₂] at hisSome
      exact Option.isNone_iff_eq_none.mp (by simpa using hisSome)
    | some stop =>
      rw [hstop₂] at hisSome
      obtain ⟨found, hfound⟩ := Option.isSome_iff_exists.mp hisSome
      have hmiddle := (bookAsk_eq_ok hside₂).2 stop hstop₂
      rw [hfound, ← (bookAsk_eq_ok halone).2 found hfound, (bookAsk_eq_ok hside₁).2 stop hmiddle]

end TwoFacts

end AutoBit.Live
