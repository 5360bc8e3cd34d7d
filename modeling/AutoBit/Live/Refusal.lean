import AutoBit.Live.Conservation

/-!
# When the journal refuses a further fill of a buy

A further fill moves the average price of the entry, and the stop with it. The first fill of a
buy is refused as a response when its stop is not positive; a further fill is not, so that it
is the journal that refuses it, with an error that no reconciliation handles. The journal
accepts a further fill exactly when the stop of the new average, in doubles, is positive, below
that average and not above a pending stop, and the monitor can record the fill.
-/

namespace AutoBit.Live

open Library Health Risk Strategy

/-! ## What the journal accepts -/

/-- The relations between the facts of a position. -/
structure LivePosition.Valid (position : LivePosition) : Prop where
  quantity : 0 < position.quantity
  costBasis : 0 ≤ position.costBasis
  entryPrice : 0 < position.entryPrice
  entryAtr : 0 < position.entryAtr
  initialAtrMult : 0 < position.initialAtrMult
  initialStop : 0 < position.initialStop
  highWater : position.entryPrice ≤ position.highWater
  below : position.initialStop < position.entryPrice
  raised : position.initialStop ≤ position.currentStop
  pendingStop : position.pendingStop.isNone = position.pendingStopAt.isNone
  pending_le : ∀ stop ∈ position.pendingStop, position.currentStop ≤ stop
  completedBar : position.completedBarAt.isNone = position.completedBarFingerprint.isNone
  fingerprint : ∀ text ∈ position.completedBarFingerprint, isFingerprint text = true

/-- The check of a position accepts exactly the valid ones. -/
theorem validatePosition_iff {position : LivePosition} :
    validatePosition position = .ok () ↔ position.Valid := by
  simp only [validatePosition, Except.bind_eq_ok, reject_eq_ok, not_or, not_le, not_lt, not_exists,
    not_and, ne_eq, not_not, Bool.not_eq_false]
  constructor
  · rintro ⟨_, ⟨hquantity, hcost, ⟨hentry, hatr, hmult, hinitial, _, _⟩, hbelow, hraised, hhigh,
      hpending, hle⟩, hbar, htext⟩
    exact ⟨hquantity, hcost, hentry, hatr, hmult, hinitial, hhigh, hbelow, hraised, hpending, hle,
      hbar, htext⟩
  · intro h
    have hcurrent := h.initialStop.trans_le h.raised
    have hhigh := h.entryPrice.trans_le h.highWater
    exact ⟨(), ⟨h.quantity, h.costBasis, ⟨h.entryPrice, h.entryAtr, h.initialAtrMult, h.initialStop,
      hcurrent, hhigh⟩, h.below, h.raised, h.highWater, h.pendingStop, h.pending_le⟩,
      h.completedBar, h.fingerprint⟩

/-- The snapshot of a state is read back exactly when it is consistent. -/
theorem exists_fromEventMapping_iff {health : HealthSnapshot} :
    (∃ s, HealthSnapshot.fromEventMapping health.toMapping = .ok s) ↔ Consistent health := by
  simp only [HealthSnapshot.fromEventMapping, Except.bind_eq_ok, reject_eq_ok,
    Except.mapError_eq_ok]
  constructor
  · rintro ⟨s, _, _, h⟩
    obtain rfl := fromMapping_toMapping_eq h
    exact (fromMapping_toMapping_iff _).mp h
  · intro h
    exact ⟨health, (), health.toMapping_ne_nil, (fromMapping_toMapping_iff health).mpr h⟩

/-- What `_state` checks, part by part. -/
theorem validateState_iff {state : LiveState} : validateState state = .ok () ↔
    Consistent state.health ∧ 0 ≤ state.cash ∧
      validateRisk state.risk state.closedTrades = .ok () ∧
      ∀ position ∈ state.position, position.Valid := by
  rw [← exists_fromEventMapping_iff, validateState]
  cases hhealth : HealthSnapshot.fromEventMapping state.health.toMapping with
  | error e => simp
  | ok s =>
    simp only [Except.bind_eq_ok, reject_eq_ok, not_lt]
    constructor
    · rintro ⟨_, _, _, hcash, _, hrisk, hposition⟩
      refine ⟨⟨s, rfl⟩, hcash, hrisk, fun position hmem => ?_⟩
      rw [Option.mem_def] at hmem
      rw [hmem] at hposition
      exact validatePosition_iff.mp hposition
    · rintro ⟨_, hcash, hrisk, hposition⟩
      refine ⟨⟨⟩, trivial, ⟨⟩, hcash, ⟨⟩, hrisk, ?_⟩
      cases hfound : state.position with
      | none => rfl
      | some position => exact validatePosition_iff.mpr (hposition position hfound)

/-- No check of the journal raises a response error. -/
theorem Journal.update_raises {journal : Journal} {state : LiveState} {intent : LiveIntent}
    {e : LiveError} (h : journal.update state intent = .error e) : e.isResponse = false := by
  have hposition : ∀ {position}, validatePosition position = .error e → e.isResponse = false := by
    intro position h
    simp only [validatePosition, Except.bind_eq_error, reject_eq_error] at h
    rcases h with ⟨_, rfl⟩ | ⟨_, _, _, rfl⟩ <;> rfl
  have hrisk : validateRisk state.risk state.closedTrades = .error e → e.isResponse = false := by
    intro h
    simp only [validateRisk, Except.bind_eq_error, reject_eq_error] at h
    rcases h with ⟨_, rfl⟩ | ⟨_, _, ⟨_, rfl⟩ | ⟨_, _, ⟨_, rfl⟩ | ⟨_, _, ⟨_, rfl⟩ |
      ⟨_, _, ⟨_, rfl⟩ | ⟨_, _, ⟨_, rfl⟩ | ⟨_, _, _, rfl⟩⟩⟩⟩⟩⟩ <;> rfl
  have hstate : validateState state = .error e → e.isResponse = false := by
    intro h
    unfold validateState at h
    rcases hhealth : HealthSnapshot.fromEventMapping state.health.toMapping with _ | s
    · simp only [hhealth, Except.bind_eq_error] at h
      rcases h with h | ⟨_, h, _⟩
      · cases h
        rfl
      · cases h
    · simp only [hhealth, Except.bind_eq_error, reject_eq_error] at h
      rcases h with h | ⟨_, _, ⟨_, rfl⟩ | ⟨_, _, h | ⟨_, _, h⟩⟩⟩
      · cases h
      · rfl
      · exact hrisk h
      · cases hfound : state.position with
        | none =>
          rw [hfound] at h
          cases h
        | some position =>
          rw [hfound] at h
          exact hposition h
  simp only [Journal.update, Except.bind_eq_error, validateIntent, reject_eq_error] at h
  rcases h with h | ⟨_, _, ⟨_, rfl⟩ | ⟨_, _, ⟨_, rfl⟩ | ⟨_, _, h⟩⟩⟩
  · exact hstate h
  · rfl
  · rfl
  · cases h

/-! ## What is written -/

section Writing

variable (env : Environment)

/-- The result of a transaction. -/
theorem execute_commit (change : Journal → Except LiveError Journal) (record : World → World)
    (world : World) : execute (commit env change record) world =
      match change world.journal with
      | .error e => (.error e, world)
      | .ok journal =>
        ((env.fates world.accesses).outcome,
          if (env.fates world.accesses).isDurable then
            record { world with accesses := world.accesses + 1, journal }
          else { world with accesses := world.accesses + 1 }) := by
  cases h : change world.journal with
  | error e =>
    simp only [commit, execute_bind, execute_get, execute_lift, h]
  | ok journal =>
    simp only [commit, execute_bind, execute_get, execute_lift, h, access, execute_modify,
      execute_pure]

/-- `_apply_order` settles the facts, and writes what they leave. -/
theorem execute_applyOrder (intent : LiveIntent) (actual : VenueOrder) (at_ : ℤ) {world : World}
    {state : LiveState} (hstate : world.journal.state = some state) :
    execute (applyOrder env intent actual at_) world =
      match settleOrder state intent actual at_ with
      | .error e => (.error e, world)
      | .ok settled => execute (saveIntent env settled.1 settled.2) world := by
  simp only [applyOrder, execute_bind, execute_journalState, execute_lift, hstate, require]
  cases settleOrder state intent actual at_ <;> rfl

/-- `_apply_order` writes the state and the intent in one transaction, or raises a response error
and leaves the journal as it is. -/
def WritesOrResponds (world : World) (intent : LiveIntent) (actual : VenueOrder) (at_ : ℤ) : Prop :=
  (∃ message, execute (applyOrder env intent actual at_) world =
    (.error (.response message), world)) ∨
  ∃ state settled, world.journal.state = some state ∧
    settleOrder state intent actual at_ = .ok settled ∧
    execute (applyOrder env intent actual at_) world =
      ((env.fates world.accesses).outcome, { world with
        accesses := world.accesses + 1
        journal := if (env.fates world.accesses).isDurable
          then ⟨some settled.1, world.journal.replaced settled.2⟩ else world.journal })

variable {env} {world : World} {intent : LiveIntent} {actual : VenueOrder} {at_ : ℤ}

/-- Anything else that is raised before the transaction is neither. -/
theorem not_writesOrResponds {e : LiveError} (he : e.isResponse = false)
    (h : execute (applyOrder env intent actual at_) world = (.error e, world)) :
    ¬WritesOrResponds env world intent actual at_ := by
  rintro (⟨message, hresult⟩ | ⟨state, settled, _, _, hresult⟩)
  · rw [h] at hresult
    cases hresult
    cases he
  · have haccesses := congrArg (fun result => result.2.accesses) (h.symm.trans hresult)
    exact absurd haccesses (Nat.ne_add_one _)

variable {state : LiveState} {settled : LiveState × LiveIntent}

/-- Once the facts are settled, everything is up to the checks of the journal. -/
theorem writesOrResponds_iff (hstate : world.journal.state = some state)
    (hsettled : settleOrder state intent actual at_ = .ok settled) :
    WritesOrResponds env world intent actual at_ ↔
      ∃ journal, world.journal.update settled.1 settled.2 = .ok journal := by
  have hresult := execute_applyOrder env intent actual at_ hstate
  rw [hsettled] at hresult
  change _ = execute (commit env (·.update settled.1 settled.2) id) world at hresult
  rw [execute_commit] at hresult
  cases hupdate : world.journal.update settled.1 settled.2 with
  | error e =>
    rw [hupdate] at hresult
    refine iff_of_false (not_writesOrResponds (Journal.update_raises hupdate) hresult) ?_
    rintro ⟨journal, ⟨⟩⟩
  | ok journal =>
    rw [hupdate] at hresult
    refine iff_of_true (.inr ⟨state, settled, hstate, hsettled, ?_⟩) ⟨journal, rfl⟩
    obtain ⟨_, _, _, rfl⟩ := Journal.update_eq_ok hupdate
    rw [hresult]
    cases hdurable : (env.fates world.accesses).isDurable <;> simp

end Writing

/-! ## A further fill -/

section Further

variable {state : LiveState} {position : LivePosition} {intent : LiveIntent} {actual : VenueOrder}
  {at_ : ℤ} {funds : ℚ}

/-- The stop that a further fill of its buy gives a position, computed in doubles from the average
price; `none` when it is not finite. -/
def LivePosition.nextStop (position : LivePosition) (actual : VenueOrder) (funds : ℚ) : Option ℚ :=
  initialStopPrice (averagePrice funds actual.executedVolume) position.entryAtr
    position.initialAtrMult

/-- The position after a further fill of its buy, with the stop that it gives. -/
def LivePosition.extended (position : LivePosition) (intent : LiveIntent) (actual : VenueOrder)
    (funds stop : ℚ) : LivePosition :=
  let entry := averagePrice funds actual.executedVolume
  { position with
    quantity := position.quantity + (actual.executedVolume - intent.quantity)
    entryPrice := entry
    initialStop := stop
    currentStop := max position.currentStop stop
    highWater := max position.highWater entry
    costBasis := position.costBasis + (funds - intent.funds) + (actual.paidFee - intent.fee) }

/-- The position after a report of its buy, which may only add a fee. -/
def LivePosition.reported (position : LivePosition) (intent : LiveIntent) (actual : VenueOrder)
    (funds stop : ℚ) : LivePosition :=
  if intent.quantity < actual.executedVolume then position.extended intent actual funds stop
  else { position with costBasis := position.costBasis + (actual.paidFee - intent.fee) }

/-- A buy with a pending intent and a valid position, and a further report of it that passes the
checks of `_apply_order`. -/
structure FurtherFacts (state : LiveState) (position : LivePosition) (intent : LiveIntent)
    (actual : VenueOrder) (at_ : ℤ) (funds : ℚ) : Prop where
  valid : validateState state = .ok ()
  held : state.position = some position
  checked : validateIntent intent = .ok ()
  bid : intent.side = .bid
  accepted : Accepted intent actual at_ funds
  budget : funds ≤ intent.amount
  cash : funds - intent.funds + (actual.paidFee - intent.fee) ≤ state.cash

/-- A position with a further report is valid. -/
theorem FurtherFacts.position_valid (h : FurtherFacts state position intent actual at_ funds) :
    position.Valid :=
  (validateState_iff.mp h.valid).2.2.2 position h.held

/-- The checks of an intent, for one that buys. -/
theorem validateIntent_iff (hbid : intent.side = .bid) : validateIntent intent = .ok () ↔
    isIdentifier intent.identifier = true ∧ 0 ≤ intent.quantity ∧ 0 ≤ intent.funds ∧
      0 ≤ intent.fee ∧ 0 < intent.amount ∧ 0 < intent.referencePrice ∧
      intent.funds ≤ intent.amount := by
  simp only [validateIntent, reject_eq_ok, not_or, not_lt, not_le, hbid, Bool.not_eq_false,
    true_and, reduceCtorEq, false_and, not_false_eq_true]
  constructor
  · rintro ⟨hid, ⟨hamount, hquantity, hfunds, hfee⟩, hne, hprice, hle⟩
    exact ⟨hid, hquantity, hfunds, hfee, lt_of_le_of_ne hamount (Ne.symm hne), hprice, hle⟩
  · rintro ⟨hid, hquantity, hfunds, hfee, hamount, hprice, hle⟩
    exact ⟨hid, ⟨hamount.le, hquantity, hfunds, hfee⟩, hamount.ne', hprice, hle⟩

/-- The settled intent passes its checks. -/
theorem FurtherFacts.settled_valid (h : FurtherFacts state position intent actual at_ funds) :
    validateIntent (intent.settled actual) = .ok () := by
  obtain ⟨hid, hquantity, hfunds, hfee, hamount, hprice, _⟩ :=
    (validateIntent_iff h.bid).mp h.checked
  have hsettled : (intent.settled actual).funds = funds := by
    simp [LiveIntent.settled, h.accepted.executed]
  have hbid : (intent.settled actual).side = .bid := h.bid
  refine (validateIntent_iff hbid).mpr ⟨hid, ?_, ?_, ?_, hamount, hprice, ?_⟩
  · exact hquantity.trans h.accepted.volume
  · rw [hsettled]
    exact hfunds.trans h.accepted.paid
  · exact hfee.trans h.accepted.fee
  · rw [hsettled]
    exact h.budget

/-- What is booked of a further report, whose fill has a finite stop. -/
theorem FurtherFacts.bookOrder_eq (h : FurtherFacts state position intent actual at_ funds)
    {stop : ℚ} (hstop : intent.quantity < actual.executedVolume →
      position.nextStop actual funds = some stop) :
    bookOrder state.book intent actual at_ =
      .ok ⟨state.cash - (funds - intent.funds + (actual.paidFee - intent.fee)),
        some (position.reported intent actual funds stop), state.closedTrades⟩ := by
  have hposition : state.book.position = some position := h.held
  refine bookOrder_iff.mpr ⟨funds, h.accepted, ?_, sub_nonneg.mpr h.cash⟩
  simp only [bookSide, h.bid, bookBid, LiveIntent.increment, sub_pos, LivePosition.reported]
  refine Except.bind_eq_ok.mpr ⟨(), reject_eq_ok.mpr (not_lt.mpr h.budget), ?_⟩
  split
  · next hfilled =>
    simp only [hposition]
    exact Except.bind_eq_ok.mpr ⟨stop, require_eq_ok.mpr (hstop hfilled), rfl⟩
  · rw [hposition]
    rfl

/-- The state that a further report leaves. -/
def LiveState.reported (state : LiveState) (position : LivePosition) (intent : LiveIntent)
    (actual : VenueOrder) (at_ : ℤ) (funds stop : ℚ) : LiveState :=
  { state with
    cash := state.cash - (funds - intent.funds + (actual.paidFee - intent.fee))
    position := some (position.reported intent actual funds stop)
    health := fillHealth state.health intent actual at_ }

/-- What is settled of a further report. -/
theorem FurtherFacts.settleOrder_eq (h : FurtherFacts state position intent actual at_ funds)
    (hprices : checkFillPrices intent actual funds = .ok ()) {stop : ℚ}
    (hstop : intent.quantity < actual.executedVolume →
      position.nextStop actual funds = some stop) :
    settleOrder state intent actual at_ =
      .ok (state.reported position intent actual at_ funds stop, intent.settled actual) := by
  refine Except.bind_eq_ok.mpr ⟨funds, checkFacts_iff.mpr h.accepted, ?_⟩
  refine Except.bind_eq_ok.mpr ⟨(), hprices, ?_⟩
  exact Except.bind_eq_ok.mpr ⟨_, h.bookOrder_eq hstop, rfl⟩

/-- A further fill without a finite stop is not settled, and what it raises is no response error. -/
theorem FurtherFacts.settleOrder_unprotected
    (h : FurtherFacts state position intent actual at_ funds)
    (hprices : checkFillPrices intent actual funds = .ok ())
    (hfilled : intent.quantity < actual.executedVolume)
    (hstop : position.nextStop actual funds = none) :
    settleOrder state intent actual at_ =
      .error (.value "Out of range float values are not JSON compliant") := by
  have hposition : state.book.position = some position := h.held
  have hvolume : 0 < actual.executedVolume - intent.quantity := sub_pos.mpr hfilled
  have hside : actual.side = .bid := h.accepted.side.trans h.bid
  have hbooked : bookBid state.book intent actual funds (actual.executedVolume - intent.quantity)
      (funds - intent.funds) (actual.paidFee - intent.fee) =
      .error (.value "Out of range float values are not JSON compliant") := by
    refine Except.bind_eq_error.mpr (.inr ⟨(), reject_eq_ok.mpr (not_lt.mpr h.budget), ?_⟩)
    simp only [if_pos hvolume, hposition]
    refine Except.bind_eq_error.mpr (.inl ?_)
    rw [show initialStopPrice (averagePrice funds actual.executedVolume) position.entryAtr
      position.initialAtrMult = none from hstop]
    rfl
  have hfacts := checkFacts_iff.mpr h.accepted
  refine Except.bind_eq_error.mpr (.inr ⟨funds, hfacts, ?_⟩)
  refine Except.bind_eq_error.mpr (.inr ⟨(), hprices, ?_⟩)
  refine Except.bind_eq_error.mpr (.inl ?_)
  refine Except.bind_eq_error.mpr (.inr ⟨funds, hfacts, ?_⟩)
  simp only [hside]
  exact Except.bind_eq_error.mpr (.inl hbooked)

/-- How far the price of a fill deviates from the reference price of its intent. -/
def LiveIntent.deviation (intent : LiveIntent) (actual : VenueOrder) (funds : ℚ) : ℚ :=
  decimalDeviation (shortestDecimal intent.referencePrice)
    (shortestDecimal (averagePrice (funds - intent.funds)
      (actual.executedVolume - intent.quantity)))

/-- The condition on a further fill: its prices are doubles, the monitor can record it, and the
stop that the new average gives, in doubles, is positive, below that average and not above a
pending stop. -/
structure Sustains (health : HealthSnapshot) (position : LivePosition) (intent : LiveIntent)
    (actual : VenueOrder) (at_ : ℤ) (funds : ℚ) : Prop where
  priced : checkFillPrices intent actual funds = .ok ()
  finite : intent.deviation actual funds < binary64Overflow
  resolves : health.fillWithinLimit = false →
    intent.deviation actual funds ≤ fillDeviationLimitDecimal → ResolvesAt health (some at_)
  protects : ∃ stop ∈ position.nextStop actual funds, 0 < stop ∧
    stop < averagePrice funds actual.executedVolume ∧ ∀ pending ∈ position.pendingStop, stop ≤ pending

/-- A position stays valid under a further fill exactly when its stop does. -/
theorem FurtherFacts.extended_valid_iff (h : FurtherFacts state position intent actual at_ funds)
    (hfilled : intent.quantity < actual.executedVolume) {stop : ℚ} :
    (position.extended intent actual funds stop).Valid ↔
      0 < stop ∧ stop < averagePrice funds actual.executedVolume ∧
        ∀ pending ∈ position.pendingStop, stop ≤ pending := by
  have hvalid := h.position_valid
  constructor
  · intro hextended
    refine ⟨hextended.initialStop, hextended.below, fun pending hpending => ?_⟩
    exact (le_max_right _ _).trans (hextended.pending_le pending hpending)
  · rintro ⟨hpositive, hbelow, hpending⟩
    have hfunds := (h.accepted.filled hfilled).1
    have hfee := h.accepted.fee
    have hcost := hvalid.costBasis
    refine ⟨?_, ?_, hpositive.trans hbelow, hvalid.entryAtr, hvalid.initialAtrMult, hpositive,
      le_max_right _ _, hbelow, le_max_right _ _, hvalid.pendingStop, ?_, hvalid.completedBar,
      hvalid.fingerprint⟩
    · exact add_pos hvalid.quantity (sub_pos.mpr hfilled)
    · simp only [LivePosition.extended]
      linarith
    · intro pending hmem
      exact max_le (hvalid.pending_le pending hmem) (hpending pending hmem)

/-- The state after a further report is accepted exactly when its monitor and its position are. -/
theorem FurtherFacts.reported_valid_iff (h : FurtherFacts state position intent actual at_ funds)
    {stop : ℚ} :
    validateState (state.reported position intent actual at_ funds stop) = .ok () ↔
      Consistent (fillHealth state.health intent actual at_) ∧
        (position.reported intent actual funds stop).Valid := by
  obtain ⟨_, _, hrisk, _⟩ := validateState_iff.mp h.valid
  rw [validateState_iff]
  constructor
  · rintro ⟨hhealth, _, _, hposition⟩
    exact ⟨hhealth, hposition _ rfl⟩
  · rintro ⟨hhealth, hposition⟩
    refine ⟨hhealth, sub_nonneg.mpr h.cash, hrisk, ?_⟩
    rintro _ ⟨⟩
    exact hposition

/-- A report without a fill leaves the monitor and the stops alone. -/
theorem FurtherFacts.unfilled (h : FurtherFacts state position intent actual at_ funds)
    (hunfilled : ¬intent.quantity < actual.executedVolume) (stop : ℚ) :
    checkFillPrices intent actual funds = .ok () ∧
      validateState (state.reported position intent actual at_ funds stop) = .ok () := by
  have hvalid := h.position_valid
  have hfee := h.accepted.fee
  constructor
  · exact reject_eq_ok.mpr fun hprices => hunfilled (sub_pos.mp hprices.1)
  · refine h.reported_valid_iff.mpr ⟨?_, ?_⟩
    · rw [fillHealth, if_neg (by rwa [sub_pos])]
      exact (validateState_iff.mp h.valid).1
    · rw [LivePosition.reported, if_neg hunfilled]
      exact { hvalid with costBasis := add_nonneg hvalid.costBasis (sub_nonneg.mpr hfee) }

/-- A fill with acceptable prices and a finite stop can be written exactly when its condition
holds. -/
theorem FurtherFacts.filled_iff (h : FurtherFacts state position intent actual at_ funds)
    (hfilled : intent.quantity < actual.executedVolume)
    (hprices : checkFillPrices intent actual funds = .ok ()) {stop : ℚ}
    (hstop : position.nextStop actual funds = some stop) :
    validateState (state.reported position intent actual at_ funds stop) = .ok () ↔
      Sustains state.health position intent actual at_ funds := by
  have hhealth := (validateState_iff.mp h.valid).1
  have haccepted : (Observation.fillCheck (shortestDecimal intent.referencePrice)
      (shortestDecimal (averagePrice (funds - intent.funds)
        (actual.executedVolume - intent.quantity))) (some at_)).Accepted := by
    by_contra hrefused
    exact reject_eq_ok.mp hprices ⟨sub_pos.mpr hfilled, hrefused⟩
  have hrecorded : fillHealth state.health intent actual at_ = recordFillCheck state.health
      (shortestDecimal intent.referencePrice)
      (shortestDecimal (averagePrice (funds - intent.funds)
        (actual.executedVolume - intent.quantity))) (some at_) := by
    rw [fillHealth, h.accepted.executed, Option.getD_some, if_pos (sub_pos.mpr hfilled)]
  rw [h.reported_valid_iff, hrecorded, recordFillCheck_consistent_iff hhealth haccepted,
    LivePosition.reported, if_pos hfilled, h.extended_valid_iff hfilled]
  constructor
  · rintro ⟨⟨hfinite, hresolves⟩, hprotects⟩
    exact ⟨hprices, hfinite, hresolves, stop, hstop, hprotects⟩
  · intro hsustains
    obtain ⟨stop', hstop', hprotects⟩ := hsustains.protects
    obtain rfl : stop = stop' := Option.some.inj (hstop.symm.trans hstop')
    exact ⟨⟨hsustains.finite, hsustains.resolves⟩, hprotects⟩

end Further

/-- The journal holds one row for each identifier, and the intent is pending in it. -/
structure Pending (journal : Journal) (intent : LiveIntent) : Prop where
  keyed : (journal.intents.map (·.identifier)).Nodup
  pending : journal.pending = .ok [intent]

/-- A pending intent has one row. -/
theorem Pending.one {journal : Journal} {intent : LiveIntent} (h : Pending journal intent) :
    (journal.intents.filter fun other => other.identifier = intent.identifier).length = 1 := by
  have hmem : intent ∈ journal.unresolved := by
    rw [← (Journal.pending_eq_ok h.pending).1]
    exact List.mem_singleton.mpr rfl
  have hcount := List.count_eq_one_of_mem h.keyed
    (List.mem_map_of_mem (f := (·.identifier)) (List.mem_filter.mp hmem).1)
  rwa [List.count_eq_countP, List.countP_map, List.countP_eq_length_filter] at hcount

section Refusal

variable {world : World} {state : LiveState} {position : LivePosition} {intent : LiveIntent}
  {actual : VenueOrder} {at_ : ℤ} {funds : ℚ}

/-- The journal accepts what it is given of a further report exactly when it accepts the state. -/
theorem FurtherFacts.update_iff (h : FurtherFacts state position intent actual at_ funds)
    (hpending : Pending world.journal intent) {stop : ℚ} :
    (∃ journal, world.journal.update (state.reported position intent actual at_ funds stop)
        (intent.settled actual) = .ok journal) ↔
      validateState (state.reported position intent actual at_ funds stop) = .ok () := by
  constructor
  · rintro ⟨journal, hupdate⟩
    exact (Journal.update_eq_ok hupdate).1
  · intro hvalid
    have hone : ¬(world.journal.intents.filter fun other =>
        other.identifier = (intent.settled actual).identifier).length ≠ 1 :=
      not_not.mpr hpending.one
    refine ⟨⟨some (state.reported position intent actual at_ funds stop),
      world.journal.replaced (intent.settled actual)⟩, ?_⟩
    refine Except.bind_eq_ok.mpr ⟨(), hvalid, ?_⟩
    refine Except.bind_eq_ok.mpr ⟨(), h.settled_valid, ?_⟩
    exact Except.bind_eq_ok.mpr ⟨(), reject_eq_ok.mpr hone, rfl⟩

/-- What is raised before anything is settled is neither a write nor a response, unless it is a
response error. -/
theorem not_writesOrResponds_of_error {env : Environment} {e : LiveError}
    (hstate : world.journal.state = some state)
    (hraised : settleOrder state intent actual at_ = .error e) (he : e.isResponse = false) :
    ¬WritesOrResponds env world intent actual at_ := by
  have hresult := execute_applyOrder env intent actual at_ hstate
  rw [hraised] at hresult
  exact not_writesOrResponds he hresult

/-- A further report of a buy is written, or answered by a response error, exactly when it fills
nothing or its fill meets the condition. -/
theorem applyOrder_writes_iff (env : Environment) (hstate : world.journal.state = some state)
    (hpending : Pending world.journal intent)
    (h : FurtherFacts state position intent actual at_ funds) :
    WritesOrResponds env world intent actual at_ ↔
      (intent.quantity < actual.executedVolume →
        Sustains state.health position intent actual at_ funds) := by
  by_cases hfilled : intent.quantity < actual.executedVolume
  · rw [imp_iff_right hfilled]
    by_cases hprices : checkFillPrices intent actual funds = .ok ()
    · cases hstop : position.nextStop actual funds with
      | some stop =>
        rw [writesOrResponds_iff hstate (h.settleOrder_eq hprices fun _ => hstop),
          h.update_iff hpending, h.filled_iff hfilled hprices hstop]
      | none =>
        have hraised := h.settleOrder_unprotected hprices hfilled hstop
        refine iff_of_false (not_writesOrResponds_of_error hstate hraised rfl) fun hsustains => ?_
        obtain ⟨stop, hsome, _⟩ := hsustains.protects
        rw [hstop] at hsome
        cases hsome
    · have hraised : settleOrder state intent actual at_ =
          .error (.value "fill prices must be finite and positive") := by
        rw [settleOrder, checkFacts_iff.mpr h.accepted]
        simp only [checkFillPrices, reject_eq_ok, not_not] at hprices
        simp [checkFillPrices, reject, hprices, bind, Except.bind]
      exact iff_of_false (not_writesOrResponds_of_error hstate hraised rfl)
        fun hsustains => hprices hsustains.priced
  · obtain ⟨hprices, hvalid⟩ := h.unfilled hfilled 0
    rw [writesOrResponds_iff hstate
      (h.settleOrder_eq hprices fun hmore => absurd hmore hfilled), h.update_iff hpending]
    exact iff_of_true hvalid fun hmore => absurd hmore hfilled

end Refusal

/-- The journal after a first fill of the intent to buy, of 1 BTC at 100 KRW. -/
def partlyFilled : World :=
  (execute (applyOrder committing bidIntent (reportedBid .wait 1 100 (1 / 10)) 5) pendingBid).2

/-- The state in it, and the position. -/
def partlyHeld : LiveState := partlyFilled.journal.state.get (by decide +kernel)

def partlyBought : LivePosition := partlyHeld.position.get (by decide +kernel)

/-- The intent in it. -/
def partlySettled : LiveIntent := bidIntent.settled (reportedBid .wait 1 100 (1 / 10))

/-- The journal of a partly filled buy has its state. -/
theorem partlyFilled_state : partlyFilled.journal.state = some partlyHeld :=
  (Option.some_get _).symm

/-- The intent of a partly filled buy is pending. -/
theorem partlyFilled_pending : Pending partlyFilled.journal partlySettled :=
  ⟨by decide +kernel, by decide +kernel⟩

/-- Facts that pass the checks are a further report of the partly filled buy. -/
theorem partlyFilled_further {actual : VenueOrder} {funds : ℚ}
    (hfacts : checkFacts partlySettled actual 7 = .ok funds)
    (hbudget : funds ≤ partlySettled.amount)
    (hcash : funds - partlySettled.funds + (actual.paidFee - partlySettled.fee) ≤ partlyHeld.cash) :
    FurtherFacts partlyHeld partlyBought partlySettled actual 7 funds where
  valid := by decide +kernel
  held := (Option.some_get _).symm
  checked := by decide +kernel
  bid := rfl
  accepted := checkFacts_iff.mp hfacts
  budget := hbudget
  cash := hcash

/-- A second fill near the first one is written. -/
theorem applyOrder_writes_second_fill :
    WritesOrResponds committing partlyFilled partlySettled
      (reportedBid .done 2 210 (2 / 10)) 7 := by
  have hfurther : FurtherFacts partlyHeld partlyBought partlySettled
      (reportedBid .done 2 210 (2 / 10)) 7 210 :=
    partlyFilled_further (by decide +kernel) (by decide +kernel) (by decide +kernel)
  refine (applyOrder_writes_iff committing partlyFilled_state partlyFilled_pending hfurther).mpr ?_
  refine fun _ => ⟨by decide +kernel, by decide +kernel, by decide +kernel, 85, by decide +kernel,
    by decide +kernel, by decide +kernel, ?_⟩
  have hnone : partlyBought.pendingStop = none := by decide +kernel
  rw [hnone]
  rintro _ ⟨⟩

/-- An environment in which the venue reports a second fill of 9 BTC for 10 KRW. -/
def fallingAverage : Environment :=
  { committing with orders := fun _ => .answer (filledBid .done 10 110 (2 / 10)) }

/-- A second fill far below the first one is neither written nor answered by a response error, and
the reconciliation that reads it raises the error of the journal. -/
theorem not_writes_of_falling_average :
    (∃ state position intent actual at_ funds, partlyFilled.journal.state = some state ∧
      Pending partlyFilled.journal intent ∧
      FurtherFacts state position intent actual at_ funds ∧
      ¬WritesOrResponds fallingAverage partlyFilled intent actual at_) ∧
    (execute (reconcile fallingAverage 7) partlyFilled).1 =
      .error (.journal "Invalid position facts") := by
  constructor
  · refine ⟨partlyHeld, partlyBought, partlySettled, reportedBid .done 10 110 (2 / 10), 7, 110,
      partlyFilled_state, partlyFilled_pending, ?_, ?_⟩
    · exact partlyFilled_further (by decide +kernel) (by decide +kernel) (by decide +kernel)
    · have hraised : (execute (applyOrder fallingAverage partlySettled
          (reportedBid .done 10 110 (2 / 10)) 7) partlyFilled).1 =
          .error (.journal "Invalid position facts") := by decide +kernel
      refine not_writesOrResponds rfl (Prod.ext hraised ?_)
      rw [execute_applyOrder fallingAverage _ _ _ partlyFilled_state] at hraised ⊢
      split
      · rfl
      · next settled hsettled =>
        rw [hsettled] at hraised
        change (execute (commit fallingAverage (·.update settled.1 settled.2) id) _).1 = _
          at hraised
        change (execute (commit fallingAverage (·.update settled.1 settled.2) id) _).2 = _
        rw [execute_commit] at hraised ⊢
        split
        · rfl
        · next journal hupdate =>
          rw [hupdate] at hraised
          cases hraised
  · decide +kernel

end AutoBit.Live
