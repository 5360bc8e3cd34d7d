import AutoBit.Live.Conservation
import Mathlib.Tactic.Ring

/-!
# What the facts of a position rest on

The high of a position, its stop and its age are raised by fills, by prices and by candles, and
each has its evidence: an average price of a reported fill, a price that was observed, or a
candle that ended after the entry. A stop that is computed from a candle comes into force in a
later call only.
-/

namespace AutoBit.Live

open Library Health Risk Strategy

/-- The position of a journal. -/
def Journal.position (journal : Journal) : Option LivePosition := journal.state.bind (·.position)

/-! ## Evidence -/

/-- The double of an average price that a reported bid was filled at. -/
def Filled (reports : List VenueOrder) (price : ℚ) : Prop :=
  ∃ actual ∈ reports, ∃ funds, actual.side = .bid ∧ actual.executedFunds = some funds ∧
    0 < actual.executedVolume ∧ price = averagePrice funds actual.executedVolume

/-- A candle that one of the calls processed after it had ended, and that ended after the entry. -/
structure Processed (since : List Invocation) (entryAt bar : ℤ) (row : Row) : Prop where
  supplied : ∃ invocation ∈ since, ∃ candle observation,
    invocation.call = .candle candle observation ∧ candle.timestamp = .aware bar true ∧
      candle.row = row ∧ bar + fourHours ≤ invocation.at_
  boundary : IsBoundary bar
  after : entryAt < bar + fourHours

/-- The price of a candle after the entry: its close when the entry lies within it, its high
when it began no earlier. -/
def barPrice (entryAt bar : ℤ) (row : Row) : ℚ :=
  if bar < entryAt then row.close.getD 0 else row.high.getD 0

/-- A price that the calls saw after the entry. -/
inductive Seen (since : List Invocation) (reports : List VenueOrder) (entryAt : ℤ) : ℚ → Prop
  | filled {price : ℚ} (hfilled : Filled reports price) : Seen since reports entryAt price
  | observed {invocation : Invocation} {price : ℚ} (hmem : invocation ∈ since)
      (hcall : invocation.call = .price (.number price)) (hpositive : 0 < price) :
      Seen since reports entryAt price
  | processed {bar : ℤ} {row : Row} (hbar : Processed since entryAt bar row) :
      Seen since reports entryAt (barPrice entryAt bar row)

/-- A stop that was computed from a candle: the average entry price, or a multiple of the ATR of
the candle below a price that was seen. -/
inductive Raised (settings : Settings) (since : List Invocation) (reports : List VenueOrder)
    (entryAt finish : ℤ) : ℚ → Prop
  | even {bar : ℤ} {row : Row} {price : ℚ} (hbar : Processed since entryAt bar row)
      (hfinish : finish = bar + fourHours) (hfilled : Filled reports price) :
      Raised settings since reports entryAt finish price
  | trailing {bar : ℤ} {row : Row} {high atr : ℚ} (hbar : Processed since entryAt bar row)
      (hfinish : finish = bar + fourHours) (hseen : Seen since reports entryAt high)
      (hatr : row.atr = some atr) (hpositive : 0 < atr) :
      Raised settings since reports entryAt finish (high - settings.strategy.trailingAtrMult * atr)

/-- A stop that is in force: the initial stop of an average entry price, or one that an earlier
call computed from a candle, which ended before a later call. -/
inductive InForce (settings : Settings) (since : List Invocation) (reports : List VenueOrder)
    (position : LivePosition) : ℚ → Prop
  | initial {price stop : ℚ} (hfilled : Filled reports price)
      (hstop : initialStopPrice price position.entryAtr position.initialAtrMult = some stop) :
      InForce settings since reports position stop
  | raised {earlier later : List Invocation} {finish : ℤ} {stop : ℚ} {invocation : Invocation}
      (hsince : since = earlier ++ later)
      (hraised : Raised settings earlier reports position.entryAt finish stop)
      (hmem : invocation ∈ later) (hended : finish ≤ invocation.at_) :
      InForce settings since reports position stop

/-- The facts of a position have their evidence in the calls `since` it was opened; its pending
stop was computed in the `past` ones. -/
structure Evident (settings : Settings) (past since : List Invocation) (reports : List VenueOrder)
    (position : LivePosition) : Prop where
  entered : ∃ actual ∈ reports, actual.side = .bid ∧ actual.firstFillAt = some position.entryAt
  entry : Filled reports position.entryPrice
  initial : initialStopPrice position.entryPrice position.entryAtr position.initialAtrMult =
    some position.initialStop
  high : Seen since reports position.entryAt position.highWater
  aboveEntry : position.entryPrice ≤ position.highWater
  current : InForce settings since reports position position.currentStop
  aboveInitial : position.initialStop ≤ position.currentStop
  pending : ∀ stop ∈ position.pendingStop, ∀ finish ∈ position.pendingStopAt,
    InForce settings since reports position stop ∨
      Raised settings past reports position.entryAt finish stop
  fresh : position.completedBarAt = none → position.heldBars = 0
  held : ∀ bar ∈ position.completedBarAt,
    (position.heldBars : ℤ) = bar / fourHours - position.entryAt / fourHours ∧
      ∃ row, Processed since position.entryAt bar row ∧
        barPrice position.entryAt bar row ≤ position.highWater

/-- The facts that a position keeps, and those that never decrease. -/
structure Grown (before after : LivePosition) : Prop where
  entryAt : after.entryAt = before.entryAt
  entryAtr : after.entryAtr = before.entryAtr
  initialAtrMult : after.initialAtrMult = before.initialAtrMult
  high : before.highWater ≤ after.highWater
  stop : before.currentStop ≤ after.currentStop
  held : before.heldBars ≤ after.heldBars

/-- A position that stays as it is has grown. -/
@[refl] theorem Grown.refl (position : LivePosition) : Grown position position :=
  ⟨rfl, rfl, rfl, le_refl _, le_refl _, le_refl _⟩

/-- A position that has grown twice has grown. -/
@[trans] theorem Grown.trans {before middle after : LivePosition} (h : Grown before middle)
    (hrest : Grown middle after) : Grown before after where
  entryAt := hrest.entryAt.trans h.entryAt
  entryAtr := hrest.entryAtr.trans h.entryAtr
  initialAtrMult := hrest.initialAtrMult.trans h.initialAtrMult
  high := h.high.trans hrest.high
  stop := h.stop.trans hrest.stop
  held := h.held.trans hrest.held

section More

variable {settings : Settings} {past past' since since' : List Invocation}
  {reports reports' : List VenueOrder} {position : LivePosition} {entryAt bar finish : ℤ}
  {row : Row} {price stop : ℚ}

/-- A fill stays reported when more is reported. -/
theorem Filled.more (h : Filled reports price) (hreports : reports ⊆ reports') :
    Filled reports' price := by
  obtain ⟨actual, hmem, hactual⟩ := h
  exact ⟨actual, hreports hmem, hactual⟩

/-- A candle stays processed when more calls follow. -/
theorem Processed.more (h : Processed since entryAt bar row) (hsince : since ⊆ since') :
    Processed since' entryAt bar row := by
  obtain ⟨invocation, hmem, hcandle⟩ := h.supplied
  exact ⟨⟨invocation, hsince hmem, hcandle⟩, h.boundary, h.after⟩

/-- A price stays seen when more is called and reported. -/
theorem Seen.more (h : Seen since reports entryAt price) (hsince : since ⊆ since')
    (hreports : reports ⊆ reports') : Seen since' reports' entryAt price := by
  cases h with
  | filled hfilled => exact .filled (hfilled.more hreports)
  | observed hmem hcall hpositive => exact .observed (hsince hmem) hcall hpositive
  | processed hbar => exact .processed (hbar.more hsince)

/-- A stop stays computed when more is called and reported. -/
theorem Raised.more (h : Raised settings since reports entryAt finish stop)
    (hsince : since ⊆ since') (hreports : reports ⊆ reports') :
    Raised settings since' reports' entryAt finish stop := by
  cases h with
  | even hbar hfinish hfilled => exact .even (hbar.more hsince) hfinish (hfilled.more hreports)
  | trailing hbar hfinish hseen hatr hpositive =>
    exact .trailing (hbar.more hsince) hfinish (hseen.more hsince hreports) hatr hpositive

/-- A stop stays in force when more is called and reported. -/
theorem InForce.more (h : InForce settings since reports position stop) (hsince : since <+: since')
    (hreports : reports ⊆ reports') : InForce settings since' reports' position stop := by
  cases h with
  | initial hfilled hstop => exact .initial (hfilled.more hreports) hstop
  | @raised earlier later _ _ _ hearlier hraised hmem hended =>
    obtain ⟨rest, rfl⟩ := hsince
    subst hearlier
    exact .raised (List.append_assoc earlier later rest)
      (hraised.more (List.Subset.refl _) hreports) (List.mem_append_left rest hmem) hended

/-- A stop in force is in force for a position with the same entry. -/
theorem InForce.same {other : LivePosition} (h : InForce settings since reports position stop)
    (hentryAt : other.entryAt = position.entryAt) (hentryAtr : other.entryAtr = position.entryAtr)
    (hmult : other.initialAtrMult = position.initialAtrMult) :
    InForce settings since reports other stop := by
  cases h with
  | initial hfilled hstop => exact .initial hfilled (by rw [hentryAtr, hmult, hstop])
  | raised hsince hraised hmem hended =>
    exact .raised hsince (by rw [hentryAt]; exact hraised) hmem hended

/-- Evidence is not lost in later calls. -/
theorem Evident.more (h : Evident settings past since reports position) (hpast : past ⊆ past')
    (hsince : since <+: since') (hreports : reports ⊆ reports') :
    Evident settings past' since' reports' position where
  entered := by
    obtain ⟨actual, hmem, hactual⟩ := h.entered
    exact ⟨actual, hreports hmem, hactual⟩
  entry := h.entry.more hreports
  initial := h.initial
  high := h.high.more hsince.subset hreports
  aboveEntry := h.aboveEntry
  current := h.current.more hsince hreports
  aboveInitial := h.aboveInitial
  pending := by
    intro stop hstop finish hfinish
    exact (h.pending stop hstop finish hfinish).imp (fun hforce => hforce.more hsince hreports)
      fun hraised => hraised.more hpast hreports
  fresh := h.fresh
  held := by
    intro bar hbar
    obtain ⟨hage, row, hprocessed, hprice⟩ := h.held bar hbar
    exact ⟨hage, row, hprocessed.more hsince.subset, hprice⟩

end More

/-! ## What is done to a position -/

section Position

variable {settings : Settings} {past since : List Invocation} {invocation : Invocation}
  {reports : List VenueOrder} {position : LivePosition} {instant bar finish : ℤ} {price stop : ℚ}

/-- The higher of two stops that are in force is in force. -/
theorem InForce.max {other : ℚ} (h : InForce settings since reports position price)
    (hother : InForce settings since reports position other) :
    InForce settings since reports position (max price other) := by
  rcases max_choice price other with hmax | hmax
  · rwa [hmax]
  · rwa [hmax]

/-- The higher of two prices that were seen was seen. -/
theorem Seen.max {entryAt : ℤ} {other : ℚ} (h : Seen since reports entryAt price)
    (hother : Seen since reports entryAt other) : Seen since reports entryAt (max price other) := by
  rcases max_choice price other with hmax | hmax
  · rwa [hmax]
  · rwa [hmax]

/-- A position whose stop is activated has grown. -/
theorem activate_grown (position : LivePosition) (instant : ℤ) :
    Grown position (activate position instant) := by
  unfold activate
  split
  · split
    · exact ⟨rfl, rfl, rfl, le_refl _, le_max_left _ _, le_refl _⟩
    · exact Grown.refl position
  · exact Grown.refl position

/-- An activated stop leaves the last completed bar alone. -/
@[simp] theorem activate_completedBarAt (position : LivePosition) (instant : ℤ) :
    (activate position instant).completedBarAt = position.completedBarAt := by
  unfold activate
  split
  · split <;> rfl
  · rfl

/-- An activated stop leaves the time of entry alone. -/
@[simp] theorem activate_entryAt (position : LivePosition) (instant : ℤ) :
    (activate position instant).entryAt = position.entryAt :=
  (activate_grown position instant).entryAt

/-- A pending stop that an earlier call computed comes into force after the end of its candle. -/
theorem Evident.activate (h : Evident settings past (past ++ [invocation]) reports position)
    (hinstant : instant ≤ invocation.at_) :
    Evident settings past (past ++ [invocation]) reports (activate position instant) := by
  unfold Live.activate
  split
  · next stop since hstop hsince =>
    split
    · next hdue =>
      have hforce : InForce settings (past ++ [invocation]) reports position stop := by
        rcases h.pending stop hstop since hsince with hforce | hraised
        · exact hforce
        · exact .raised rfl hraised (List.mem_singleton.mpr rfl) (hdue.trans hinstant)
      exact { h with
        current := (h.current.max hforce).same rfl rfl rfl
        aboveInitial := h.aboveInitial.trans (le_max_left _ _)
        pending := by simp }
    · exact h
  · exact h

/-- A price that was seen raises the high. -/
theorem Evident.observe (h : Evident settings past since reports position)
    (hseen : Seen since reports position.entryAt price) :
    Evident settings past since reports
      { position with highWater := max position.highWater price } where
  entered := h.entered
  entry := h.entry
  initial := h.initial
  high := h.high.max hseen
  aboveEntry := h.aboveEntry.trans (le_max_left _ _)
  current := h.current.same rfl rfl rfl
  aboveInitial := h.aboveInitial
  pending := by
    intro stop hstop finish hfinish
    exact (h.pending stop hstop finish hfinish).imp_left fun hforce => hforce.same rfl rfl rfl
  fresh := h.fresh
  held := by
    intro bar hbar
    obtain ⟨hage, row, hprocessed, hprice⟩ := h.held bar hbar
    exact ⟨hage, row, hprocessed, hprice.trans (le_max_left _ _)⟩

/-- The age of a position in whole candles, for a candle that ended after the entry. -/
theorem age_nonneg {entryAt : ℤ} (hboundary : IsBoundary bar) (hafter : entryAt < bar + fourHours) :
    entryAt / fourHours ≤ bar / fourHours := by
  have hpos : (0 : ℤ) < fourHours := by decide
  have hbar : bar = bar / fourHours * fourHours := by
    have hdivision := Int.ediv_mul_add_emod bar fourHours
    rw [IsBoundary] at hboundary
    omega
  have hentry : entryAt / fourHours < bar / fourHours + 1 := by
    rw [Int.ediv_lt_iff_lt_mul hpos, add_mul, one_mul, ← hbar]
    exact hafter
  omega

/-- A position that has seen a completed candle has grown. -/
theorem completePosition_grown (position : LivePosition) (bar : ℤ) (high : ℚ)
    (fingerprint : String) : Grown position (completePosition position bar high fingerprint) :=
  ⟨rfl, rfl, rfl, le_max_left _ _, le_refl _, le_max_left _ _⟩

/-- A candle that is no older than the last one sets the age and raises the high. -/
theorem Evident.complete {row : Row} {fingerprint : String}
    (h : Evident settings past since reports position)
    (hprocessed : Processed since position.entryAt bar row)
    (horder : ∀ prior ∈ position.completedBarAt, prior ≤ bar)
    (hhigh : max position.highWater price =
      max position.highWater (barPrice position.entryAt bar row)) :
    Evident settings past since reports (completePosition position bar price fingerprint) where
  entered := h.entered
  entry := h.entry
  initial := h.initial
  high := by
    simp only [completePosition, hhigh]
    exact h.high.max (.processed hprocessed)
  aboveEntry := h.aboveEntry.trans (le_max_left _ _)
  current := h.current.same rfl rfl rfl
  aboveInitial := h.aboveInitial
  pending := by
    intro stop hstop finish hfinish
    exact (h.pending stop hstop finish hfinish).imp_left fun hforce => hforce.same rfl rfl rfl
  fresh := by simp [completePosition]
  held := by
    intro other hother
    obtain rfl : bar = other := by simpa [completePosition] using hother
    have hage := age_nonneg hprocessed.boundary hprocessed.after
    refine ⟨?_, row, hprocessed, ?_⟩
    · have hpast : (position.heldBars : ℤ) ≤ bar / fourHours - position.entryAt / fourHours := by
        cases hcompleted : position.completedBarAt with
        | none =>
          rw [h.fresh hcompleted]
          omega
        | some prior =>
          rw [(h.held prior hcompleted).1]
          have := Int.ediv_le_ediv (by decide : (0 : ℤ) < fourHours) (horder prior hcompleted)
          omega
      simp only [completePosition]
      omega
    · simp only [completePosition, hhigh]
      exact le_max_right _ _

/-- A stop that was computed now is pending. -/
theorem Evident.schedule (h : Evident settings past since reports position)
    (hstop : InForce settings since reports position stop ∨
      Raised settings past reports position.entryAt finish stop) :
    Evident settings past since reports
      { position with pendingStop := some stop, pendingStopAt := some finish } where
  entered := h.entered
  entry := h.entry
  initial := h.initial
  high := h.high
  aboveEntry := h.aboveEntry
  current := h.current.same rfl rfl rfl
  aboveInitial := h.aboveInitial
  pending := by
    rintro _ ⟨⟩ _ ⟨⟩
    exact hstop.imp_left fun hforce => hforce.same rfl rfl rfl
  fresh := h.fresh
  held := h.held

/-- The stop of a decision is the stop in force, or is computed from its candle. -/
theorem Evident.decides {row supplied : Row} {cash equity : ℚ} {pending : Bool}
    {risk : RiskDecision}
    (h : Evident settings past since reports position)
    (hprocessed : Processed since position.entryAt bar supplied) (hatr : row.atr = supplied.atr)
    (hhigh : ∀ high ∈ row.high, high ≤ position.highWater)
    (hstop : (decideLive settings row cash equity (some position) pending risk).nextStop =
      some stop) :
    InForce settings since reports position stop ∨
      Raised settings since reports position.entryAt (bar + fourHours) stop := by
  simp only [decideLive, Strategy.decide, Option.map_some] at hstop
  set context := contextOf position with hcontext
  have hset : stop = nextStop { context with highWater := runningHigh context row } row
      settings.strategy := by
    unfold decidePosition at hstop
    grind
  subst hset
  have hcurrent : context.currentStop = position.currentStop := rfl
  have hentry : context.entryPrice = position.entryPrice := rfl
  unfold nextStop
  cases hrow : row.high with
  | none => exact .inl h.current
  | some high =>
    have hwater : max (runningHigh context row) high = position.highWater := by
      have hbelow := hhigh high hrow
      have hrunning : runningHigh context row = position.highWater := by
        simp only [runningHigh, hrow]
        split
        · exact max_eq_left hbelow
        · rfl
      rw [hrunning, max_eq_left hbelow]
    simp only [hwater, hcurrent, hentry]
    split
    · exact .inl h.current
    · split
      · exact .inl h.current
      · cases hrowAtr : row.atr with
        | none => exact .inl h.current
        | some atr =>
          simp only
          split
          · exact .inl h.current
          · next hpositive =>
            have htrailing : Raised settings since reports position.entryAt (bar + fourHours)
                (position.highWater - settings.strategy.trailingAtrMult * atr) :=
              .trailing hprocessed rfl h.high (hatr ▸ hrowAtr) (not_le.mp hpositive)
            -- the greatest of the stop in force, the entry and the trailing stop
            rcases max_choice (max position.currentStop position.entryPrice)
              (position.highWater - settings.strategy.trailingAtrMult * atr) with hmax | hmax <;>
              rw [hmax]
            · rcases max_choice position.currentStop position.entryPrice with hmax | hmax <;>
                rw [hmax]
              · exact .inl h.current
              · exact .inr (.even hprocessed rfl h.entry)
            · exact .inr htrailing

end Position

/-! ## What an order does to a position -/

/-- A purchase never closes the position, a sale never opens one, and neither loses what is
recorded. -/
def Carried (side : Side) (before after : Option LivePosition) : Prop :=
  match side with
  | .bid => ∀ held ∈ before, ∃ kept ∈ after, Grown held kept
  | .ask => ∀ kept ∈ after, ∃ held ∈ before, Grown held kept

/-- A position that stays as it is is carried. -/
theorem Carried.refl (side : Side) (position : Option LivePosition) :
    Carried side position position := by
  cases side with
  | bid => exact fun held hheld => ⟨held, hheld, Grown.refl held⟩
  | ask => exact fun held hheld => ⟨held, hheld, Grown.refl held⟩

/-- A position that is carried twice is carried. -/
theorem Carried.trans {side : Side} {before middle after : Option LivePosition}
    (h : Carried side before middle) (hrest : Carried side middle after) :
    Carried side before after := by
  cases side with
  | bid =>
    intro held hheld
    obtain ⟨kept, hkept, hgrown⟩ := h held hheld
    obtain ⟨last, hlast, hmore⟩ := hrest kept hkept
    exact ⟨last, hlast, hgrown.trans hmore⟩
  | ask =>
    intro last hlast
    obtain ⟨kept, hkept, hmore⟩ := hrest last hlast
    obtain ⟨held, hheld, hgrown⟩ := h kept hkept
    exact ⟨held, hheld, hgrown.trans hmore⟩

/-- A position that is held before and after has grown. -/
theorem Carried.grown {side : Side} {before after : LivePosition}
    (h : Carried side (some before) (some after)) : Grown before after := by
  cases side with
  | bid =>
    obtain ⟨kept, hkept, hgrown⟩ := h before rfl
    rwa [← Option.some.inj hkept] at hgrown
  | ask =>
    obtain ⟨held, hheld, hgrown⟩ := h after rfl
    rwa [← Option.some.inj hheld] at hgrown

section Booking

variable {settings : Settings} {past since : List Invocation} {reports : List VenueOrder}
  {book booked : Book} {intent : LiveIntent} {actual : VenueOrder} {at_ : ℤ} {funds : ℚ}

/-- The quantity and the costs of a position are no evidence. -/
theorem Evident.books {position : LivePosition}
    (h : Evident settings past since reports position) (quantity costBasis realizedPnl : ℚ) :
    Evident settings past since reports { position with quantity, costBasis, realizedPnl } ∧
      Grown position { position with quantity, costBasis, realizedPnl } := by
  refine ⟨?_, rfl, rfl, rfl, le_refl _, le_refl _, le_refl _⟩
  exact { h with
    current := h.current.same rfl rfl rfl
    pending := by
      intro stop hstop finish hfinish
      exact (h.pending stop hstop finish hfinish).imp_left fun hforce => hforce.same rfl rfl rfl }

/-- A bid opens the position at the average price of its order, or moves it there. -/
theorem bookBid_evident (hreported : actual ∈ reports) (hbid : intent.side = .bid)
    (haccepted : Accepted intent actual at_ funds) (hquantity : 0 ≤ intent.quantity)
    (hrecorded : Recorded 0 intent book.ledger)
    (hevident : ∀ position ∈ book.position, Evident settings past since reports position)
    (h : bookSide book intent actual funds (intent.increment actual funds) = .ok booked) :
    (∀ position ∈ booked.position, Evident settings past since reports position) ∧
      Carried .bid book.position booked.position := by
  simp only [bookSide, hbid, bookBid, Except.bind_eq_ok, reject_eq_ok] at h
  obtain ⟨_, _, h⟩ := h
  split at h
  · next hfilled =>
    have hmore : intent.quantity < actual.executedVolume := sub_pos.mp hfilled
    have hprice : Filled reports (averagePrice funds actual.executedVolume) :=
      ⟨actual, hreported, funds, haccepted.side.trans hbid, haccepted.executed,
        hquantity.trans_lt hmore, rfl⟩
    cases hposition : book.position with
    | none =>
      simp only [hposition, Except.bind_eq_ok, require_eq_ok, reject_eq_ok, Except.pure_eq_ok] at h
      obtain ⟨stop, hstop, _, _, entryAt, hentryAt, rfl⟩ := h
      refine ⟨?_, fun held hheld => by cases hheld⟩
      rintro _ ⟨⟩
      rw [hrecorded.entry hbid hposition] at hstop ⊢
      exact {
        entered := ⟨actual, hreported, haccepted.side.trans hbid, hentryAt⟩
        entry := hprice
        initial := hstop
        high := .filled hprice
        aboveEntry := le_refl _
        current := .initial hprice hstop
        aboveInitial := le_refl _
        pending := by simp
        fresh := fun _ => rfl
        held := by simp }
    | some position =>
      simp only [hposition, Except.bind_eq_ok, require_eq_ok, Except.pure_eq_ok] at h
      obtain ⟨stop, hstop, rfl⟩ := h
      have hheld := hevident position hposition
      refine ⟨?_, ?_⟩
      · rintro _ ⟨⟩
        exact {
          entered := hheld.entered
          entry := hprice
          initial := hstop
          high := hheld.high.max (.filled hprice)
          aboveEntry := le_max_right _ _
          current := (hheld.current.max (.initial hprice hstop)).same rfl rfl rfl
          aboveInitial := le_max_right _ _
          pending := by
            intro stop hstop finish hfinish
            exact (hheld.pending stop hstop finish hfinish).imp_left
              fun hforce => hforce.same rfl rfl rfl
          fresh := hheld.fresh
          held := by
            intro bar hbar
            obtain ⟨hage, row, hprocessed, hbelow⟩ := hheld.held bar hbar
            exact ⟨hage, row, hprocessed, hbelow.trans (le_max_left _ _)⟩ }
      · rintro _ ⟨⟩
        exact ⟨_, rfl, rfl, rfl, rfl, le_max_left _ _, le_max_left _ _, le_refl _⟩
  · rw [Except.pure_eq_ok] at h
    subst h
    cases hposition : book.position with
    | none => exact ⟨by simp, fun held hheld => by cases hheld⟩
    | some position =>
      obtain ⟨hsame, hgrown⟩ := (hevident position hposition).books position.quantity
        (position.costBasis + (intent.increment actual funds).fee) position.realizedPnl
      refine ⟨?_, ?_⟩
      · rintro _ ⟨⟩
        exact hsame
      · rintro _ ⟨⟩
        exact ⟨_, rfl, hgrown⟩

/-- An ask takes from the position, or closes it. -/
theorem bookAsk_evident (hask : intent.side = .ask)
    (hevident : ∀ position ∈ book.position, Evident settings past since reports position)
    (h : bookSide book intent actual funds (intent.increment actual funds) = .ok booked) :
    (∀ position ∈ booked.position, Evident settings past since reports position) ∧
      Carried .ask book.position booked.position := by
  simp only [bookSide, hask, bookAsk] at h
  split at h
  · simp only [Except.bind_eq_ok, require_eq_ok, reject_eq_ok] at h
    obtain ⟨position, hposition, _, _, h⟩ := h
    split at h
    · simp only [Except.bind_eq_ok, require_eq_ok, Except.pure_eq_ok] at h
      obtain ⟨_, _, rfl⟩ := h
      exact ⟨by simp, fun kept hkept => by cases hkept⟩
    · rw [Except.pure_eq_ok] at h
      subst h
      have hbooks := (hevident position hposition).books
      refine ⟨?_, ?_⟩
      · rintro _ ⟨⟩
        exact (hbooks _ _ _).1
      · rintro _ ⟨⟩
        exact ⟨position, hposition, (hbooks _ _ _).2⟩
  · cases hposition : book.position with
    | none =>
      simp only [hposition, Except.pure_eq_ok] at h
      subst h
      exact ⟨by simp, fun kept hkept => by cases hkept⟩
    | some position =>
      simp only [hposition, Except.pure_eq_ok] at h
      subst h
      have hbooks := (hevident position hposition).books
      refine ⟨?_, ?_⟩
      · rintro _ ⟨⟩
        exact (hbooks _ _ _).1
      · rintro _ ⟨⟩
        exact ⟨position, rfl, (hbooks _ _ _).2⟩

end Booking

end AutoBit.Live
