import AutoBit.Live.Consumption

/-!
# The chronology of a run

As long as the clock does not go back and the venue dates no fill before its intent, every
closed trade lies between the last bar of the reducer and the clock. So the reducer accepts
every bar, and consumes every trade once.
-/

namespace AutoBit.Live

open Library Health Risk Strategy Relation

/-- A state in time: its trades lie before the clock, the new ones after the last bar, and an
intent that is pending was created after the last bar. -/
structure Timely (clock : ℤ) (earlier : List ℤ) (handed : List Handing)
    (pending : List LiveIntent) (state : LiveState) : Prop where
  valid : validateState state = .ok ()
  initial : 0 < state.risk.initialEquity
  exits : ∀ exit ∈ state.closedTrades.map (·.exitTime), exit ≤ clock
  unconsumed : ∀ last ∈ state.risk.lastRiskAt,
    ∀ exit ∈ (state.closedTrades.map (·.exitTime)).drop state.risk.processedTradeCount, last ≤ exit
  risk : ∀ last ∈ state.risk.lastRiskAt, last ∈ earlier ∧ last ≤ clock
  consumption : ∃ final, Consumption handed state.closedTrades state.risk.processedTradeCount final ∧
    ∀ intent ∈ pending, Recorded final intent state.book.ledger
  created : ∀ intent ∈ pending, intent.createdAt ≤ clock ∧
    ∀ last ∈ state.risk.lastRiskAt, last ≤ intent.createdAt

/-- A world in time. -/
structure Chronicle (clock : ℤ) (earlier : List ℤ) (world : World) : Prop where
  fresh : world.journal.state = none → world.handed = [] ∧ world.journal.unresolved = []
  timely : ∀ state, world.journal.state = some state →
    Timely clock earlier world.handed world.journal.unresolved state

/-- The venue dates no fill before the intent was created. -/
def World.Honest (world : World) : Prop :=
  ∀ actual ∈ world.reports, ∀ key ∈ world.journal.intents.map (·.key),
    key.1 = actual.identifier → ∀ fill ∈ actual.lastFillAt, key.2 ≤ fill

section Steps

variable {clock : ℤ} {earlier : List ℤ} {handed : List Handing} {pending : List LiveIntent}
  {state other : LiveState} {world next : World}

/-- The monitor and the protection do not matter. -/
theorem Timely.agrees (h : Timely clock earlier handed pending state) (hagrees : state.Agrees other)
    (hvalid : validateState other = .ok ()) : Timely clock earlier handed pending other := by
  have hledger := hagrees.ledger
  obtain ⟨_, _, htrades, hrisk, _, _⟩ := hagrees
  refine ⟨hvalid, ?_, ?_, ?_, ?_, ?_, ?_⟩
  · rw [hrisk]
    exact h.initial
  · rw [htrades]
    exact h.exits
  · rw [hrisk, htrades]
    exact h.unconsumed
  · rw [hrisk]
    exact h.risk
  · rw [hrisk, htrades, hledger]
    exact h.consumption
  · rw [hrisk]
    exact h.created

/-- The clock goes on. -/
theorem Timely.later {clock' : ℤ} {earlier' : List ℤ}
    (h : Timely clock earlier handed pending state)
    (hclock : clock ≤ clock') (hearlier : earlier ⊆ earlier') :
    Timely clock' earlier' handed pending state := by
  refine ⟨h.valid, h.initial, fun exit hexit => (h.exits exit hexit).trans hclock, h.unconsumed,
    fun last hlast => ?_, h.consumption, fun intent hintent => ?_⟩
  · exact ⟨hearlier (h.risk last hlast).1, (h.risk last hlast).2.trans hclock⟩
  · exact ⟨(h.created intent hintent).1.trans hclock, (h.created intent hintent).2⟩

/-- An order that is settled keeps the state in time, when its fills come after its intent. -/
theorem Timely.settles {intent : LiveIntent} {actual : VenueOrder}
    {settled : LiveState × LiveIntent} (h : Timely clock earlier handed [intent] state)
    (hconsistent : actual.Consistent)
    (hsettled : settleOrder state intent actual clock = .ok settled)
    (hvalid : validateState settled.1 = .ok ())
    (hfills : ∀ fill ∈ actual.lastFillAt, intent.createdAt ≤ fill) :
    Timely clock earlier handed [intent.settled actual] settled.1 := by
  obtain ⟨booked, _, hbooked, _, _, hstate⟩ := settleOrder_eq_ok hsettled
  obtain ⟨funds, haccepted, hside, _⟩ := bookOrder_iff.mp hbooked
  obtain ⟨final, hconsumption, hrecorded⟩ := h.consumption
  have hrecorded := hrecorded intent (List.mem_singleton.mpr rfl)
  obtain ⟨hcreated, hafter⟩ := h.created intent (List.mem_singleton.mpr rfl)
  have hfinal : final ≤ state.book.ledger.closed.length := by
    simpa [LiveState.book, Book.ledger] using hconsumption.length
  obtain ⟨hsettles, hledger, hrecorded'⟩ := bookSide_ledger hfinal hconsistent hrecorded haccepted
    hside
  have htrades : settled.1.closedTrades = booked.closedTrades := by rw [hstate]
  have hrisk : settled.1.risk = state.risk := by rw [hstate]
  have hbook : settled.1.book = booked := by rw [hstate]; rfl
  -- either a trade is closed, or the exits stay and the final trades are unchanged
  have hcases : (∃ pnl, ∃ fill ∈ actual.lastFillAt,
      booked.closedTrades = state.closedTrades ++ [⟨pnl, fill⟩]) ∨
      (booked.closedTrades.map (·.exitTime) = state.closedTrades.map (·.exitTime) ∧
        booked.closedTrades.take final = state.closedTrades.take final ∧
        booked.closedTrades.length = state.closedTrades.length) := by
    rcases bookSide_trades hside with hsame | hclosed | ⟨hask, hnone, hcharged⟩
    · have hsame : booked.closedTrades = state.closedTrades := hsame
      right
      rw [hsame]
      exact ⟨rfl, rfl, rfl⟩
    · exact .inl hclosed
    · right
      have hcharged : booked.closedTrades = chargeLast state.closedTrades
          (intent.increment actual funds).fee := hcharged
      rw [hcharged, chargeLast_exits]
      rcases hrecorded with hzero | hheld | ⟨_, hlater⟩
      · have hholding : state.book.ledger.holding = none := by simp [Book.ledger, hnone]
        rw [hask] at hsettles
        obtain ⟨hquantity, hfee⟩ := hsettles.closed hholding
        have hexecuted : actual.executedVolume = 0 := by
          rw [← hzero.1]
          exact sub_eq_zero.mp hquantity
        have hfree : (intent.increment actual funds).fee = 0 := by
          simp [LiveIntent.increment, hconsistent.feeless hexecuted, hzero.2.2]
        rw [hfree, chargeLast_zero]
        exact ⟨rfl, rfl, rfl⟩
      · simp [Book.ledger, hnone] at hheld
      · have hlater : final < state.closedTrades.length := by
          simpa [LiveState.book, Book.ledger] using hlater
        exact ⟨rfl, chargeLast_take hlater _⟩
  have hexits : ∀ exit ∈ booked.closedTrades.map (·.exitTime),
      exit ∈ state.closedTrades.map (·.exitTime) ∨ exit ∈ actual.lastFillAt := by
    intro exit hexit
    rcases hcases with ⟨pnl, fill, hfill, hclosed⟩ | ⟨hsame, _⟩
    · rw [hclosed, List.map_append, List.mem_append, List.map_singleton,
        List.mem_singleton] at hexit
      rcases hexit with hold | rfl
      · exact .inl hold
      · exact .inr hfill
    · exact .inl (hsame ▸ hexit)
  refine ⟨hvalid, hrisk ▸ h.initial, ?_, ?_, hrisk ▸ h.risk, ?_, ?_⟩
  · rw [htrades]
    intro exit hexit
    rcases hexits exit hexit with hold | hfill
    · exact h.exits exit hold
    · exact haccepted.past exit hfill
  · rw [htrades, hrisk]
    intro last hlast exit hexit
    rcases hcases with ⟨pnl, fill, hfill, hclosed⟩ | ⟨hsame, _⟩
    · rw [hclosed, List.map_append] at hexit
      rcases List.mem_append.mp (List.drop_append ▸ hexit) with hold | hnew
      · exact h.unconsumed last hlast exit hold
      · obtain rfl : exit = fill := by simpa using List.mem_of_mem_drop hnew
        exact (hafter last hlast).trans (hfills exit hfill)
    · rw [hsame] at hexit
      exact h.unconsumed last hlast exit hexit
  · refine ⟨final, ?_, ?_⟩
    · rw [htrades, hrisk]
      rcases hcases with ⟨pnl, fill, _, hclosed⟩ | ⟨_, htake, hlength⟩
      · refine hconsumption.of_take ?_ ?_
        · rw [hclosed, List.take_append_of_le_length hconsumption.length]
        · rw [hclosed, List.length_append]
          exact hconsumption.length.trans (Nat.le_add_right _ _)
      · exact hconsumption.of_take htake (hlength ▸ hconsumption.length)
    · intro other hother
      rw [List.mem_singleton.mp hother, hbook]
      exact hrecorded'
  · rw [hrisk]
    intro other hother
    rw [List.mem_singleton.mp hother]
    exact ⟨hcreated, hafter⟩

/-- Fewer intents may be pending. -/
theorem Timely.fewer {pending' : List LiveIntent} (h : Timely clock earlier handed pending state)
    (hpending : pending' ⊆ pending) : Timely clock earlier handed pending' state := by
  obtain ⟨final, hconsumption, hrecorded⟩ := h.consumption
  exact ⟨h.valid, h.initial, h.exits, h.unconsumed, h.risk,
    ⟨final, hconsumption, fun intent hintent => hrecorded intent (hpending hintent)⟩,
    fun intent hintent => h.created intent (hpending hintent)⟩

/-- What is reported of an order and created for it only grows. -/
theorem World.Honest.of_later (h : next.Honest) (hreports : world.reports ⊆ next.reports)
    (hkeys : world.journal.intents.map (·.key) ⊆ next.journal.intents.map (·.key)) :
    world.Honest :=
  fun actual hactual key hkey => h actual (hreports hactual) key (hkeys hkey)

/-- A venue that is honest after a quiet step was honest before it. -/
theorem Quiet.honest (hstep : Quiet world next) (h : next.Honest) : world.Honest :=
  h.of_later hstep.reports.subset (by rw [hstep.keys]; exact fun _ h => h)

/-- A quiet step keeps the world in time. -/
theorem Chronicle.quiet (h : Chronicle clock earlier world) (hclock : world.clock = clock)
    (hhonest : next.Honest) (hstep : Quiet world next) : Chronicle clock earlier next := by
  have hbefore := hstep.honest hhonest
  rcases hstep.journal with hsame | hjournal
  · refine ⟨?_, ?_⟩
    · rw [hsame, hstep.handed]
      exact h.fresh
    · rw [hsame, hstep.handed]
      exact h.timely
  subst hclock
  obtain ⟨state', hstate', _⟩ := hjournal.state
  refine ⟨fun hnone => (by rw [hstate'] at hnone; cases hnone), fun found hfound => ?_⟩
  rw [hstep.handed]
  generalize hafter : next.journal = after at hjournal hfound
  cases hjournal with
  | @observed state other hstate hagrees hvalid =>
    obtain rfl : other = found := Option.some.inj hfound
    exact (h.timely state hstate).agrees hagrees hvalid
  | @opened _ _ state hnone hopen hvalid =>
    obtain rfl : state = found := Option.some.inj hfound
    obtain ⟨hhanded, hpending⟩ := h.fresh hnone
    obtain ⟨hinitial, _, htrades, hcursor, hrisk, _⟩ := initialState_eq_ok hopen
    have hpending' : ({ world.journal with state := some state } : Journal).unresolved = [] :=
      hpending
    rw [hhanded, hpending']
    refine ⟨hvalid, hinitial, by simp [htrades], by simp [hrisk], by simp [hrisk],
      ⟨0, ?_, by simp⟩, by simp⟩
    rw [htrades, hcursor]
    exact Consumption.nil
  | @settled state intent actual settled _ hstate hpending hreported hconsistent hsettled hupdate =>
    obtain ⟨hbooked, hintent⟩ := settleOrder_book hsettled
    obtain ⟨funds, haccepted, _, _⟩ := bookOrder_iff.mp hbooked
    have hvalid := (Journal.update_eq_ok hupdate).1
    obtain rfl : settled.1 = found := by
      rw [(Journal.update_eq_ok hupdate).2.2.2] at hfound
      exact Option.some.inj hfound
    rw [hintent] at hupdate
    have htimely := h.timely state hstate
    rw [hpending] at htimely
    have hmem : intent ∈ world.journal.intents := by
      have : intent ∈ world.journal.unresolved := by
        rw [hpending]
        exact List.mem_singleton.mpr rfl
      exact (List.mem_filter.mp this).1
    refine (htimely.settles hconsistent hsettled hvalid fun fill hfill => ?_).fewer ?_
    · exact hbefore actual hreported intent.key (List.mem_map_of_mem hmem)
        haccepted.identifier.symm fill hfill
    · rw [Journal.unresolved_updated hpending hupdate rfl]
      split <;> simp
  | @marked state intent uuid cancelled _ hstate hpending hupdate =>
    obtain rfl : state = found := by
      rw [(Journal.update_eq_ok hupdate).2.2.2] at hfound
      exact Option.some.inj hfound
    have htimely := h.timely state hstate
    rw [hpending] at htimely
    rw [Journal.unresolved_updated hpending hupdate rfl]
    obtain ⟨final, hconsumption, hrecorded⟩ := htimely.consumption
    have hmark : Timely world.clock earlier world.handed [{ intent with
        venueUuid := uuid, cancelRequested := cancelled }] state := by
      refine ⟨htimely.valid, htimely.initial, htimely.exits, htimely.unconsumed, htimely.risk,
        ⟨final, hconsumption, fun other hother => ?_⟩, fun other hother => ?_⟩
      · rw [List.mem_singleton.mp hother]
        exact hrecorded intent (List.mem_singleton.mpr rfl)
      · rw [List.mem_singleton.mp hother]
        exact htimely.created intent (List.mem_singleton.mpr rfl)
    refine hmark.fewer ?_
    split <;> simp

/-- Quiet steps keep the world in time. -/
theorem Chronicle.reaches (h : Chronicle clock earlier world) (hclock : world.clock = clock)
    (hhonest : next.Honest) (hreaches : Reaches world next) :
    Chronicle clock earlier next := by
  induction hreaches with
  | refl => exact h
  | @tail middle last hfirst hstep ih =>
    have hmiddle : middle.clock = clock := (Reaches.clock hfirst).trans hclock
    exact (ih (hstep.honest hhonest)).quiet hmiddle hhonest hstep

/-- A venue that is honest after quiet steps was honest before them. -/
theorem Reaches.honest (hreaches : Reaches world next) (h : next.Honest) : world.Honest :=
  h.of_later hreaches.reports.subset (by rw [hreaches.keys]; exact fun _ h => h)

/-- A new intent is created at the clock, after every bar of the reducer. -/
theorem Chronicle.submits (h : Chronicle clock earlier world) (hclock : world.clock = clock)
    (hstep : Submits world next) : Chronicle clock earlier next := by
  obtain ⟨state, other, identifier, side, amount, price, entryAtr, mult, hstate, hagrees, hinsert,
    _⟩ := hstep.inserted
  obtain ⟨hvalid, _, hnone, _, hjournal⟩ := Journal.insert_eq_ok hinsert
  have htimely := (h.timely state hstate).agrees hagrees hvalid
  refine ⟨fun hfresh => (by rw [hjournal] at hfresh; cases hfresh), fun found hfound => ?_⟩
  obtain rfl : other = found := by
    rw [hjournal] at hfound
    exact Option.some.inj hfound
  rw [hstep.handed]
  obtain ⟨final, hconsumption, _⟩ := htimely.consumption
  have hpending : ∀ intent ∈ next.journal.unresolved, intent.createdAt = clock ∧
      intent.quantity = 0 ∧ intent.funds = 0 ∧ intent.fee = 0 := by
    intro intent hintent
    simp only [Journal.unresolved] at hnone
    simp only [Journal.unresolved, hjournal, List.filter_append, hnone, List.nil_append] at hintent
    rw [List.mem_singleton.mp (List.mem_filter.mp hintent).1]
    exact ⟨hclock, rfl, rfl, rfl⟩
  refine ⟨hvalid, htimely.initial, htimely.exits, htimely.unconsumed, htimely.risk,
    ⟨final, hconsumption, fun intent hintent => .inl (hpending intent hintent).2⟩,
    fun intent hintent => ?_⟩
  rw [(hpending intent hintent).1]
  exact ⟨le_refl _, fun last hlast => (htimely.risk last hlast).2⟩

/-! ## The bar of a candle -/

/-- The reducer accepts the bar of a later candle. -/
theorem Timely.accepts (h : Timely clock earlier handed pending state)
    {observation : RiskObservation} (config : RiskConfig) (hnow : observation.now = clock)
    (hlater : ∀ bar ∈ earlier, bar < clock)
    (htrades : observation.closedTrades = state.closedTrades)
    (hequity : 0 ≤ observation.equity) :
    ∃ risk, advanceRiskState state.risk observation config = .ok risk := by
  obtain ⟨final, hconsumption, _⟩ := h.consumption
  have hrisk := (validateState_sound h.valid).2.2
  simp only [validateRisk, Except.bind_eq_ok, reject_eq_ok, not_not] at hrisk
  obtain ⟨_, _, _, _, _, _, _, hchain, _⟩ := hrisk
  refine advanceRiskState_accepts config hequity h.initial ?_ ?_ (htrades ▸ hchain) ?_ ?_
  · rw [htrades]
    exact hconsumption.cursor.trans hconsumption.length
  · rw [htrades, hnow]
    exact fun trade htrade => h.exits _ (List.mem_map_of_mem htrade)
  · rw [htrades]
    intro trade htrade last hlast
    refine h.unconsumed last hlast _ ?_
    rw [← List.map_drop]
    exact List.mem_map_of_mem htrade
  · rw [hnow]
    exact fun last hlast => hlater last (h.risk last hlast).1

/-- A bar whose result is lost. -/
theorem Chronicle.hands {config : RiskConfig} {now : ℤ} (h : Chronicle clock earlier world)
    (hnow : now = clock) (hlater : ∀ bar ∈ earlier, bar < clock)
    (hstep : Hands config now world next) : Chronicle clock earlier next := by
  obtain ⟨state, observation, hstate, hpending, hobserved, htrades, hequity, hhanded⟩ := hstep.handed
  have htimely := h.timely state hstate
  obtain ⟨risk, hrisk⟩ := htimely.accepts config (hobserved.trans hnow) hlater htrades
    (hequity htimely.valid)
  refine ⟨fun hfresh => ?_, fun found hfound => ?_⟩
  · rw [hstep.journal, hstate] at hfresh
    cases hfresh
  · obtain rfl : state = found := by
      rw [hstep.journal, hstate] at hfound
      exact Option.some.inj hfound
    obtain ⟨final, hconsumption, _⟩ := htimely.consumption
    rw [hhanded, hstep.journal, hpending, hrisk]
    exact ⟨htimely.valid, htimely.initial, htimely.exits, htimely.unconsumed, htimely.risk,
      ⟨_, hconsumption.hands, by simp⟩, by simp⟩

/-- A bar whose result is stored. -/
theorem Chronicle.stores {config : RiskConfig} {bar now : ℤ} (h : Chronicle clock earlier world)
    (hnow : now = clock) (hstep : Stores config bar now world next) :
    Chronicle clock (earlier ++ [clock]) next := by
  obtain ⟨state, observation, risk, decision, advanced, hstate, hpending, hobserved, htrades, _,
    hrisk, hagrees, hvalid, hhanded, hjournal⟩ := hstep.stored
  have htimely := h.timely state hstate
  obtain ⟨hcursor, hlast, hinitial⟩ := advanceRiskState_cursor hrisk
  have hpending' : ({ world.journal with state := some advanced } : Journal).unresolved = [] :=
    hpending
  have hadvanced : advanced.risk = risk := hagrees.risk
  have hclosed : advanced.closedTrades = state.closedTrades := hagrees.closedTrades
  refine ⟨fun hfresh => (by rw [hjournal] at hfresh; cases hfresh), fun found hfound => ?_⟩
  obtain rfl : advanced = found := by
    rw [hjournal] at hfound
    exact Option.some.inj hfound
  obtain ⟨final, hconsumption, _⟩ := htimely.consumption
  rw [hhanded, hjournal, hpending']
  have hbar : risk.lastRiskAt = some clock := by rw [hlast, hobserved, hnow]
  have hall : risk.processedTradeCount = state.closedTrades.length := by rw [hcursor, htrades]
  refine ⟨hvalid, ?_, ?_, ?_, ?_, ⟨state.closedTrades.length, ?_, by simp⟩, by simp⟩
  · rw [hadvanced, hinitial]
    exact htimely.initial
  · rw [hclosed]
    exact htimely.exits
  · rw [hadvanced, hclosed, hall, List.drop_eq_nil_of_le (by simp)]
    simp
  · rw [hadvanced, hbar]
    rintro _ ⟨⟩
    exact ⟨by simp, le_refl _⟩
  · rw [hadvanced, hclosed, hall]
    exact hconsumption.stores

end Steps

/-! ## A run in time -/

section Runs

variable (env : Environment) (settings : Settings)

/-- The time of a candle. -/
def Invocation.candleAt (invocation : Invocation) : Option ℤ :=
  match invocation.call with
  | .candle _ _ => some invocation.at_
  | _ => none

/-- A venue that is honest after a submission among quiet steps was honest before them. -/
theorem Submitted.honest {world next : World} (h : Submitted world next) (hhonest : next.Honest) :
    world.Honest := by
  cases h with
  | quiet h => exact h.honest hhonest
  | submitted hfirst hsubmits hlast =>
    refine hfirst.honest ((hlast.honest hhonest).of_later (by rw [hsubmits.reports]; simp) ?_)
    obtain ⟨_, _, _, _, _, _, _, _, _, _, hinsert, _⟩ := hsubmits.inserted
    obtain ⟨_, _, _, _, hjournal⟩ := Journal.insert_eq_ok hinsert
    rw [hjournal]
    simp

/-- A venue that is honest after a submission was honest before it. -/
theorem Submits.honest {world next : World} (h : Submits world next) (hhonest : next.Honest) :
    world.Honest :=
  (Submitted.single h).honest hhonest

/-- A venue that is honest after a stored risk decision was honest before it. -/
theorem Stores.honest {config : RiskConfig} {bar now : ℤ} {world next : World}
    (h : Stores config bar now world next) (hhonest : next.Honest) : world.Honest := by
  obtain ⟨_, _, _, _, _, _, _, _, _, _, _, _, _, _, hjournal⟩ := h.stored
  exact hhonest.of_later (by rw [h.reports]; simp) (by rw [hjournal]; simp)

/-- A venue that is honest after trades were handed over was honest before it. -/
theorem Hands.honest {config : RiskConfig} {now : ℤ} {world next : World}
    (h : Hands config now world next) (hhonest : next.Honest) : world.Honest :=
  hhonest.of_later (by rw [h.reports]; simp) (by rw [h.journal]; simp)

section Calls

variable {clock : ℤ} {earlier : List ℤ} {world next : World}

/-- Quiet steps with at most one submission keep the world in time. -/
theorem Chronicle.submitted (h : Chronicle clock earlier world) (hclock : world.clock = clock)
    (hhonest : next.Honest) (hsteps : Submitted world next) : Chronicle clock earlier next := by
  cases hsteps with
  | quiet hsteps => exact h.reaches hclock hhonest hsteps
  | submitted hfirst hsubmits hlast =>
    have hsecond := hlast.honest hhonest
    have hmiddle := h.reaches hclock (hsubmits.honest hsecond) hfirst
    refine (hmiddle.submits (hfirst.clock.trans hclock) hsubmits).reaches ?_ hhonest hlast
    rw [hsubmits.clock, hfirst.clock, hclock]

/-- A world in time stays in time when the clock and the calls go on. -/
theorem Chronicle.grow (h : Chronicle clock earlier world) {clock' : ℤ} {earlier' : List ℤ}
    (hclock : clock ≤ clock') (hearlier : earlier ⊆ earlier') : Chronicle clock' earlier' world :=
  ⟨h.fresh, fun state hstate => (h.timely state hstate).later hclock hearlier⟩

/-- A call keeps the world in time, when its candle is later than the ones before. -/
theorem Chronicle.call {settings : Settings} {call : Call} (h : Chronicle clock earlier world)
    (hclock : world.clock = clock) (hhonest : next.Honest)
    (hobserved : ∀ supplied observation, call = .candle supplied observation →
      observation.now = clock ∧ ∀ bar ∈ earlier, bar < clock)
    (hsteps : call.Steps settings world next) :
    Chronicle clock (earlier ++ (match call with
      | .candle _ _ => [clock]
      | _ => [])) next := by
  cases call with
  | reconcile =>
    rw [List.append_nil]
    exact h.reaches hclock hhonest hsteps
  | price observed =>
    rw [List.append_nil]
    exact h.submitted hclock hhonest hsteps
  | candle supplied observation =>
    obtain ⟨hnow, hlater⟩ := hobserved supplied observation rfl
    cases hsteps with
    | quiet hsteps =>
      exact (h.reaches hclock hhonest hsteps).grow (le_refl _) (List.subset_append_left _ _)
    | handed hfirst hhands hlast =>
      have hsecond := hlast.honest hhonest
      have hmiddle := h.reaches hclock (hhands.honest hsecond) hfirst
      refine Chronicle.grow ((hmiddle.hands hnow hlater hhands).reaches ?_ hhonest hlast)
        (le_refl _) (List.subset_append_left _ _)
      rw [hhands.clock, hfirst.clock, hclock]
    | stored _ hfirst hstores hlast =>
      have hsecond := hlast.honest hhonest
      have hmiddle := h.reaches hclock (hstores.honest hsecond) hfirst
      refine (hmiddle.stores hnow hstores).submitted ?_ hhonest hlast
      rw [hstores.clock, hfirst.clock, hclock]

end Calls

/-- A venue that is honest after a call was honest before it. -/
theorem Call.Steps.honest {settings : Settings} {call : Call} {world next : World}
    (h : call.Steps settings world next) (hhonest : next.Honest) : world.Honest := by
  cases call with
  | reconcile => exact Reaches.honest h hhonest
  | price observed => exact Submitted.honest h hhonest
  | candle supplied observation =>
    cases h with
    | quiet h => exact h.honest hhonest
    | handed hfirst hhands hlast => exact hfirst.honest (hhands.honest (hlast.honest hhonest))
    | stored _ hfirst hstores hlast =>
      exact hfirst.honest (hstores.honest (hlast.honest hhonest))

/-- A venue that is honest after a run was honest before it. -/
theorem run_honest (invocations : List Invocation) {world : World}
    (h : (run env settings invocations world).Honest) : world.Honest := by
  induction invocations generalizing world with
  | nil => exact h
  | cons invocation invocations ih =>
    exact (after_steps env settings invocation world).honest (ih h)

/-- A run of calls at times that do not go back, with candles at increasing times. -/
theorem run_chronicle (invocations : List Invocation) {clock : ℤ} {earlier : List ℤ} {world : World}
    (hworld : Chronicle clock earlier world)
    (hclock : (clock :: invocations.map (·.at_)).IsChain (· ≤ ·))
    (hcandles : (earlier ++ invocations.filterMap (·.candleAt)).Pairwise (· < ·))
    (hobserved : ∀ invocation ∈ invocations, ∀ supplied observation,
      invocation.call = .candle supplied observation → observation.now = invocation.at_)
    (hhonest : (run env settings invocations world).Honest) :
    ∃ clock' earlier', Chronicle clock' earlier' (run env settings invocations world) := by
  induction invocations generalizing clock earlier world with
  | nil => exact ⟨clock, earlier, hworld⟩
  | cons invocation invocations ih =>
    rw [List.map_cons, List.isChain_cons_cons] at hclock
    have hgrown := hworld.grow hclock.1 (List.Subset.refl earlier)
    have hticked : Chronicle invocation.at_ earlier { world with clock := invocation.at_ } :=
      ⟨hgrown.fresh, hgrown.timely⟩
    have hnext := run_honest env settings invocations hhonest
    have hcall := hticked.call rfl hnext (fun supplied observation hcandle => by
      refine ⟨hobserved invocation (by simp) supplied observation hcandle, fun bar hbar => ?_⟩
      have hat : invocation.candleAt = some invocation.at_ := by
        simp [Invocation.candleAt, hcandle]
      rw [List.filterMap_cons_some hat] at hcandles
      exact (List.pairwise_append.mp hcandles).2.2 bar hbar _ (by simp))
      (after_steps env settings invocation world)
    refine ih hcall hclock.2 ?_ (fun found hfound => hobserved found (by simp [hfound])) hhonest
    rw [List.append_assoc]
    convert hcandles using 2
    rcases invocation with ⟨at_, call⟩
    cases call <;> rfl

/-- In every run whose clock does not go back, whose candles are observed at increasing readings
of it, and whose venue dates no fill before its intent: the reducer accepts whatever it is
handed; the trades whose consumption was stored are the first closed trades, in order, with
their final profits; and each slice continues where those stored before it end. -/
theorem trades_consumed_once (invocations : List Invocation)
    (hclock : (invocations.map (·.at_)).IsChain (· ≤ ·))
    (hcandles : (invocations.filterMap (·.candleAt)).Pairwise (· < ·))
    (hobserved : ∀ invocation ∈ invocations, ∀ supplied observation,
      invocation.call = .candle supplied observation → observation.now = invocation.at_)
    (hhonest : (run env settings invocations {}).Honest) :
    (∀ handing ∈ (run env settings invocations {}).handed, handing.accepted = true) ∧
      ∀ trades, trades = ((run env settings invocations {}).journal.state.map
          (·.closedTrades)).getD [] →
        storedTrades (run env settings invocations {}).handed <+: trades ∧
        (∀ before handing rest,
          (run env settings invocations {}).handed = before ++ handing :: rest →
            storedTrades before ++ handing.trades <+: trades) ∧
        ∀ state ∈ (run env settings invocations {}).journal.state,
          storedTrades (run env settings invocations {}).handed =
            trades.take state.risk.processedTradeCount := by
  have hempty : ∀ clock earlier, Chronicle clock earlier {} := fun clock earlier =>
    ⟨fun _ => ⟨rfl, rfl⟩, fun state hstate => by cases hstate⟩
  have hrun : ∃ clock earlier, Chronicle clock earlier (run env settings invocations {}) := by
    cases invocations with
    | nil => exact ⟨0, [], hempty 0 []⟩
    | cons invocation invocations =>
      refine run_chronicle env settings _ (hempty invocation.at_ []) ?_ hcandles hobserved hhonest
      exact List.isChain_cons_cons.mpr ⟨le_refl _, hclock⟩
  obtain ⟨clock, earlier, h⟩ := hrun
  generalize run env settings invocations {} = world at h
  cases hstate : world.journal.state with
  | none =>
    obtain ⟨hhanded, _⟩ := h.fresh hstate
    rw [hhanded]
    refine ⟨by simp, ?_⟩
    rintro _ rfl
    exact ⟨by simp [storedTrades], by simp, by simp⟩
  | some state =>
    obtain ⟨final, hconsumption, _⟩ := (h.timely state hstate).consumption
    refine ⟨hconsumption.accepted, ?_⟩
    rintro _ rfl
    refine ⟨?_, fun before handing rest hsplit => ?_, ?_⟩
    · rw [hconsumption.stored]
      exact List.take_prefix _ _
    · exact (hconsumption.continues before handing rest hsplit).trans (List.take_prefix _ _)
    · rintro _ ⟨⟩
      exact hconsumption.stored

end Runs

/-- A market order as the venue reports it, filled at one price when it was created. -/
def reportedOrder (identifier : String) (side : Side) (state : OrderState)
    (ordered filled price fee : ℚ) (createdAt : ℤ) : RawOrder where
  identifier := some identifier
  market := some "KRW-BTC"
  side := some side
  state := some state
  uuid := some "venue"
  ordType := some (if side = .bid then "price" else "market")
  volume := if side = .bid then .absent else .value ordered
  remainingVolume := if side = .bid then .absent else .value (ordered - filled)
  price := if side = .bid then .value ordered else .absent
  executedVolume := .value filled
  paidFee := .value fee
  locked := .value 0
  reservedFee := .value 0
  remainingFee := .value 0
  createdAt := .value createdAt
  trades := .value (if filled = 0 then [] else [{
    market := some "KRW-BTC", side := some side, uuid := some "fill", volume := .value filled
    price := .value price, funds := .value (filled * price), createdAt := .value createdAt }])
  tradesCount := some (if filled = 0 then 0 else 1)

/-- The two accounts of the market. -/
def heldAccount (currency : String) (balance : ℚ) : RawAccount :=
  ⟨some currency, .value balance, .value 0⟩

/-- What the venue answers from an access on: what the account holds and the pending order. -/
structure VenueState where
  since : ℕ
  krw : ℚ
  btc : ℚ
  order : RawOrder

/-- A venue in which every transaction commits and each answer is that of the last state reached. -/
def scriptedVenue (states : List VenueState) : Environment :=
  let at_ (n : ℕ) (read : VenueState → RawOrder) : Response RawOrder :=
    match states.reverse.find? fun state => state.since ≤ n with
    | some state => .answer (read state)
    | none => .crash
  let held (n : ℕ) : RawAccount × RawAccount :=
    match states.reverse.find? fun state => state.since ≤ n with
    | some state => (heldAccount "KRW" state.krw, heldAccount "BTC" state.btc)
    | none => (heldAccount "KRW" 0, heldAccount "BTC" 0)
  { orders := fun n => at_ n (·.order)
    placements := fun n => at_ n (·.order)
    cancels := fun _ => .crash
    accounts := fun n => .answer [(held n).1, (held n).2]
    chances := fun n => .answer {
      supported := true, bidFee := .value 0, askFee := .value 0, bidMinTotal := .value 5000
      askMinTotal := .value 5000, maxTotal := .value 1000000
      bidAccount := (held n).1, askAccount := (held n).2 }
    fates := fun _ => .committed
    uuid4 := fun n => if n < 10 then "buy-1" else if n < 20 then "sell-1" else if n < 45 then "buy-2"
      else "sell-2" }

/-- Two round trips: each sale closes its trade while its order is still open, and a fee follows
when the order is done. -/
def tradingVenue : Environment := scriptedVenue [
  ⟨0, 100000, 0, reportedOrder "buy-1" .bid .wait 38498 0 0 0 (hours 5)⟩,
  ⟨9, 61483, 384.98, reportedOrder "buy-1" .bid .done 38498 384.98 100 19 (hours 5)⟩,
  ⟨16, 61483, 384.98, reportedOrder "sell-1" .ask .wait 384.98 0 0 0 (hours 7)⟩,
  ⟨20, 96121.2, 0, reportedOrder "sell-1" .ask .wait 384.98 384.98 90 10 (hours 7)⟩,
  ⟨25, 96113.2, 0, reportedOrder "sell-1" .ask .done 384.98 384.98 90 18 (hours 7)⟩,
  ⟨41, 96113.2, 0, reportedOrder "buy-2" .bid .wait 37002 0 0 0 (hours 21)⟩,
  ⟨45, 59093.2, 370.02, reportedOrder "buy-2" .bid .done 37002 370.02 100 18 (hours 21)⟩,
  ⟨52, 59093.2, 370.02, reportedOrder "sell-2" .ask .wait 370.02 0 0 0 (hours 22)⟩,
  ⟨56, 92385, 0, reportedOrder "sell-2" .ask .wait 370.02 370.02 90 10 (hours 22)⟩,
  ⟨61, 92378, 0, reportedOrder "sell-2" .ask .done 370.02 370.02 90 17 (hours 22)⟩]

/-- A completed candle, observed ten minutes after its end, that may signal an entry. -/
def observedCandle (bar : ℤ) (signals : Bool) : Invocation where
  at_ := bar + fourHours + 600000000
  call := .candle ⟨.aware bar true, {
      open_ := some 100, high := some 100, low := some 100, close := some 100, volume := some 1
      ema := some 90, entryHigh := some 99, previousClose := some 98, previousEntryHigh := some 99
      atr := some 2, baselineAtrPct := some (1 / 50), warmupComplete := true
      entryDataValid := signals }⟩ {
    now := bar + fourHours + 600000000
    equity := 0
    closedTrades := []
    volatilityRatio := .number 1
    volatilityBarValid := true
    systemHealthy := true }

/-- The calls of the two round trips. -/
def roundTrips : List Invocation := [
  observedCandle 0 true, ⟨hours 6, .price (.number 100)⟩, ⟨hours 7, .price (.number 90)⟩,
  observedCandle (hours 4) false, observedCandle (hours 8) false, observedCandle (hours 12) false,
  observedCandle (hours 16) true, ⟨hours 21, .price (.number 100)⟩, ⟨hours 22, .price (.number 90)⟩,
  observedCandle (hours 20) false, observedCandle (hours 24) false]

/-- A configuration in which every candle has the same fingerprint. -/
def oneFingerprint : Settings where
  fingerprint _ _ := some "0000000000000000000000000000000000000000000000000000000000000000"

/-- What the two round trips hand over and leave behind. -/
theorem run_roundTrips :
    (run tradingVenue oneFingerprint roundTrips {}).handed =
        [⟨[], true, true⟩, ⟨[⟨-3886.8, hours 7⟩], true, true⟩, ⟨[], true, true⟩, ⟨[], true, true⟩,
          ⟨[⟨-3735.2, hours 22⟩], true, true⟩] ∧
      ((run tradingVenue oneFingerprint roundTrips {}).journal.state.map (·.closedTrades)).getD [] =
        [⟨-3886.8, hours 7⟩, ⟨-3735.2, hours 22⟩] ∧
      (run tradingVenue oneFingerprint roundTrips {}).Honest := by
  unfold World.Honest
  decide +kernel

/-- The first trade is consumed with the fee that came after its closing fill, and the second one
does not change it when its own fee comes late. -/
theorem trades_consumed_once_round_trips :
    (run tradingVenue oneFingerprint roundTrips {}).handed =
        [⟨[], true, true⟩, ⟨[⟨-3886.8, hours 7⟩], true, true⟩, ⟨[], true, true⟩, ⟨[], true, true⟩,
          ⟨[⟨-3735.2, hours 22⟩], true, true⟩] ∧
      storedTrades (run tradingVenue oneFingerprint roundTrips {}).handed <+:
        [⟨-3886.8, hours 7⟩, ⟨-3735.2, hours 22⟩] := by
  obtain ⟨hhanded, htrades, hhonest⟩ := run_roundTrips
  refine ⟨hhanded, ?_⟩
  refine ((trades_consumed_once tradingVenue oneFingerprint roundTrips (by decide) (by decide) ?_
    hhonest).2 _ htrades.symm).1
  intro invocation hmem supplied observation hcall
  simp only [roundTrips, List.mem_cons, List.not_mem_nil, or_false] at hmem
  rcases hmem with rfl | rfl | rfl | rfl | rfl | rfl | rfl | rfl | rfl | rfl | rfl <;>
    cases hcall <;> rfl

end AutoBit.Live
