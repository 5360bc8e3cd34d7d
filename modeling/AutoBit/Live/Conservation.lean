import AutoBit.Live.Composition

/-!
# The ledger over a run

An intent that is pending has recorded nothing, or its fills are in the book. So its facts
book what the last of them books alone, and the balance of the ledger never changes.
-/

namespace AutoBit.Live

open Library Health Risk Strategy Relation

/-! ## Facts that are applied one after the other -/

section Facts

variable (env : Environment)

/-- The facts of one intent, each applied to what the journal holds of the intent by then. -/
def applyFacts (identifier : String) : List (VenueOrder × ℤ) → Process Unit
  | [] => pure ()
  | (actual, at_) :: facts => do
    let world ← get
    let intent ← liftM (require
      (world.journal.intents.find? fun intent => intent.identifier = identifier)
      (LiveError.journal "Missing durable intent"))
    applyOrder env intent actual at_
    applyFacts identifier facts

variable {env} {world next : World} {intent : LiveIntent} {actual : VenueOrder} {at_ : ℤ}
  {state : LiveState} {identifier : String}

/-- What an accepted order leaves in the journal. -/
theorem applyOrder_eq_ok (h : execute (applyOrder env intent actual at_) world = (.ok (), next)) :
    ∃ state settled, world.journal.state = some state ∧
      settleOrder state intent actual at_ = .ok settled ∧
      world.journal.update settled.1 settled.2 = .ok next.journal := by
  have hfollows : Follows (fun _ _ => True) (applyOrder env intent actual at_)
      (fun _ next => ∃ state settled, world.journal.state = some state ∧
        settleOrder state intent actual at_ = .ok settled ∧
        world.journal.update settled.1 settled.2 = .ok next.journal) world := by
    refine Follows.read_bind (execute_journalState world) trivial fun _ h => ?_
    cases h
    refine Follows.read_bind (execute_lift _ _) trivial fun state hstate => ?_
    rw [require_eq_ok] at hstate
    refine Follows.read_bind (execute_lift _ _) trivial fun settled hsettled => ?_
    refine (commit_follows env (R := fun _ _ => True) (fun _ => trivial)
      fun _ _ _ => trivial).weaken (fun _ _ => trivial) ?_
    rintro _ _ _ ⟨journal, n, hupdate, rfl⟩
    exact ⟨state, settled, hstate, hsettled, hupdate⟩
  exact ((follows_iff.mp hfollows).1 () next h).2

/-- An update is what is found under the identifier. -/
theorem Journal.find_updated {journal journal' : Journal} {other : LiveIntent}
    (hfound : (journal.intents.find? fun item => item.identifier = identifier) = some intent)
    (hidentifier : other.identifier = identifier)
    (h : journal.update state other = .ok journal') :
    (journal'.intents.find? fun item => item.identifier = identifier) = some other := by
  subst hidentifier
  obtain ⟨_, _, _, rfl⟩ := Journal.update_eq_ok h
  have hsame : intent.identifier = other.identifier := by simpa using List.find?_some hfound
  have hkept : (fun item : LiveIntent => decide
      ((if item.identifier = other.identifier then other else item).identifier =
        other.identifier)) = fun item => decide (item.identifier = other.identifier) := by
    funext item
    by_cases h : item.identifier = other.identifier <;> simp [h]
  rw [Journal.replaced, List.find?_map, Function.comp_def, hkept, hfound, Option.map_some,
    if_pos hsame]

/-- A settled order is booked, and its intent records what was settled. -/
theorem settleOrder_book {settled : LiveState × LiveIntent}
    (h : settleOrder state intent actual at_ = .ok settled) :
    bookOrder state.book intent actual at_ = .ok settled.1.book ∧
      settled.2 = intent.settled actual := by
  obtain ⟨booked, _, hbooked, _, hintent, hstate⟩ := settleOrder_eq_ok h
  refine ⟨?_, hintent⟩
  rw [hstate]
  exact hbooked

/-- A state that was saved has a positive stop. -/
theorem initialStop_pos (h : validateState state = .ok ()) :
    ∀ stop ∈ state.book.initialStop, 0 < stop := by
  intro stop hstop
  obtain ⟨position, hposition, rfl⟩ := Option.map_eq_some_iff.mp hstop
  have hposition : state.position = some position := hposition
  unfold validateState at h
  cases hhealth : HealthSnapshot.fromEventMapping state.health.toMapping with
  | error e => simp [hhealth] at h
  | ok health =>
    simp only [hhealth, hposition, validatePosition, Except.bind_eq_ok, reject_eq_ok, not_or,
      not_le] at h
    obtain ⟨_, _, _, _, _, _, _, hvalid, _⟩ := h
    exact hvalid.2.2.1.2.2.2.1

/-- One fact after the other: what the first leaves to the rest. -/
theorem applyFacts_cons {fact : VenueOrder × ℤ} {facts : List (VenueOrder × ℤ)}
    (h : execute (applyFacts env identifier (fact :: facts)) world = (.ok (), next)) :
    ∃ intent state state' middle,
      (world.journal.intents.find? fun item => item.identifier = identifier) = some intent ∧
      world.journal.state = some state ∧
      (world.journal.intents.filter fun item => item.identifier = identifier).length = 1 ∧
      bookOrder state.book intent fact.1 fact.2 = .ok state'.book ∧
      execute (applyFacts env identifier facts) middle = (.ok (), next) ∧
      (middle.journal.intents.find? fun item => item.identifier = identifier) =
        some (intent.settled fact.1) ∧
      middle.journal.state = some state' ∧ validateState state' = .ok () := by
  obtain ⟨actual, at_⟩ := fact
  simp only [applyFacts] at h
  obtain ⟨read, first, hread, h⟩ := execute_bind_eq_ok.mp h
  cases hread
  obtain ⟨intent, second, hrequire, h⟩ := execute_bind_eq_ok.mp h
  rw [execute_lift, Prod.mk.injEq, require_eq_ok] at hrequire
  obtain ⟨hfound, rfl⟩ := hrequire
  obtain ⟨_, middle, happly, hrest⟩ := execute_bind_eq_ok.mp h
  obtain ⟨state, settled, hstate, hsettled, hupdate⟩ := applyOrder_eq_ok happly
  obtain ⟨hbooked, hintent⟩ := settleOrder_book hsettled
  have hsame : intent.identifier = identifier := by simpa using List.find?_some hfound
  rw [hintent] at hupdate
  obtain ⟨hvalid, _, hone, hjournal⟩ := Journal.update_eq_ok hupdate
  have hidentifier : (intent.settled actual).identifier = identifier := hsame
  rw [hidentifier] at hone
  exact ⟨intent, state, settled.1, middle, hfound, hstate, hone, hbooked, hrest,
    Journal.find_updated hfound hidentifier hupdate, by rw [hjournal], hvalid⟩

/-- Facts that are accepted are those of the only intent with their identifier. -/
theorem applyFacts_found {facts : List (VenueOrder × ℤ)} (hne : facts ≠ [])
    (h : execute (applyFacts env identifier facts) world = (.ok (), next))
    (hmem : intent ∈ world.journal.intents) (hidentifier : intent.identifier = identifier) :
    ∃ state, (world.journal.intents.find? fun item => item.identifier = identifier) = some intent ∧
      world.journal.state = some state := by
  obtain ⟨fact, rest, rfl⟩ := List.exists_cons_of_ne_nil hne
  obtain ⟨found, state, _, _, hfound, hstate, hone, _⟩ := applyFacts_cons h
  obtain ⟨only, honly⟩ := List.length_eq_one_iff.mp hone
  have hsame : ∀ item ∈ world.journal.intents, item.identifier = identifier → item = only := by
    intro item hitem hnamed
    have hfiltered : item ∈ world.journal.intents.filter fun item => item.identifier = identifier :=
      List.mem_filter.mpr ⟨hitem, decide_eq_true hnamed⟩
    rwa [honly, List.mem_singleton] at hfiltered
  have hnamed : found.identifier = identifier := by simpa using List.find?_some hfound
  rw [hsame intent hmem hidentifier, ← hsame found (List.mem_of_find?_eq_some hfound) hnamed]
  exact ⟨state, hfound, hstate⟩

/-- The book after a sequence of facts is the book after the last of them alone. -/
theorem applyFacts_last {facts : List (VenueOrder × ℤ)} {last : VenueOrder × ℤ}
    (hfound : (world.journal.intents.find? fun item => item.identifier = identifier) = some intent)
    (hstate : world.journal.state = some state) (hquantity : 0 ≤ intent.quantity)
    (hrecorded : Recorded 0 intent state.book.ledger)
    (hconsistent : ∀ fact ∈ facts ++ [last], fact.1.Consistent)
    (h : execute (applyFacts env identifier (facts ++ [last])) world = (.ok (), next)) :
    ∃ state' alone, next.journal.state = some state' ∧ validateState state' = .ok () ∧
      bookOrder state.book intent last.1 last.2 = .ok alone ∧
      alone.ledger = state'.book.ledger ∧ alone.initialStop = state'.book.initialStop := by
  induction facts generalizing world intent state with
  | nil =>
    obtain ⟨found, stored, state', middle, hfound', hstored, _, hbooked, hrest, _, hstate', hvalid⟩ :=
      applyFacts_cons h
    obtain rfl : found = intent := Option.some.inj (hfound'.symm.trans hfound)
    obtain rfl : stored = state := Option.some.inj (hstored.symm.trans hstate)
    cases hrest
    exact ⟨state', state'.book, hstate', hvalid, hbooked, rfl, rfl⟩
  | cons fact facts ih =>
    obtain ⟨found, stored, state', middle, hfound', hstored, _, hbooked, hrest, hfound'', hstate',
      _⟩ := applyFacts_cons h
    obtain rfl : found = intent := Option.some.inj (hfound'.symm.trans hfound)
    obtain rfl : stored = state := Option.some.inj (hstored.symm.trans hstate)
    have hfirst := hconsistent fact (by simp)
    obtain ⟨funds, haccepted, hside, _⟩ := bookOrder_iff.mp hbooked
    obtain ⟨_, _, hrecorded'⟩ := bookSide_ledger (Nat.zero_le _) hfirst hrecorded haccepted hside
    obtain ⟨final, alone, hfinal, hvalid, halone, hledger, hstop⟩ := ih hfound'' hstate'
      hfirst.volume_nonneg hrecorded' (fun found hmem => hconsistent found (by
        rw [List.cons_append]
        exact List.mem_cons_of_mem _ hmem)) hrest
    obtain ⟨skipped, hskipped, hskippedLedger, hskippedStop⟩ := bookOrder_skip hfirst
      (hconsistent last (by simp)) hquantity hrecorded hbooked halone
      (by rw [hstop]; exact initialStop_pos hvalid)
    exact ⟨final, skipped, hfinal, hvalid, hskipped, hskippedLedger.trans hledger,
      hskippedStop.trans hstop⟩

end Facts

/-! ## What every run keeps -/

/-- Nothing is held, and nothing that is pending has been filled. -/
def Journal.Flat (journal : Journal) : Prop :=
  (∀ state ∈ journal.state, state.position = none) ∧
    ∀ intent ∈ journal.unresolved, intent.quantity = 0 ∧ intent.funds = 0 ∧ intent.fee = 0

/-- The ledger of a journal, empty before there is a state. -/
def Journal.ledger (journal : Journal) : Ledger ℚ :=
  (journal.state.map (·.book.ledger)).getD ⟨0, none, []⟩

/-- A journal whose pending intent has recorded nothing or whose fills are in the ledger, and
whose ledger has the balance that it started with. -/
structure Sound (start journal : Journal) : Prop where
  recorded : ∀ intent ∈ journal.unresolved, 0 ≤ intent.quantity ∧
    Recorded 0 intent journal.ledger
  balance : ∀ state ∈ start.state, journal.state.isSome = true ∧
    journal.ledger.balance = state.book.ledger.balance

/-- States that agree have the same ledger. -/
theorem LiveState.Agrees.ledger {state other : LiveState} (h : state.Agrees other) :
    other.book.ledger = state.book.ledger := by
  simp only [LiveState.book, Book.ledger, h.cash, h.holding, h.closedTrades]

/-- The ledger of a journal is that of its state. -/
theorem ledger_of_state {journal : Journal} {state : LiveState} (h : journal.state = some state) :
    journal.ledger = state.book.ledger := by
  simp [Journal.ledger, h]

/-- A state with the same ledger. -/
theorem Sound.agrees {start journal journal' : Journal} {state other : LiveState}
    (h : Sound start journal) (hstate : journal.state = some state)
    (hother : journal'.state = some other)
    (hledger : other.book.ledger = state.book.ledger)
    (hpending : ∀ intent ∈ journal'.unresolved, intent ∈ journal.unresolved ∨
      intent.quantity = 0 ∧ intent.funds = 0 ∧ intent.fee = 0) : Sound start journal' := by
  have hsame : journal'.ledger = journal.ledger := by
    rw [ledger_of_state hother, ledger_of_state hstate, hledger]
  refine ⟨fun intent hintent => ?_, fun found hfound => ⟨by rw [hother]; rfl, ?_⟩⟩
  · rw [hsame]
    rcases hpending intent hintent with hold | hzero
    · exact h.recorded intent hold
    · exact ⟨hzero.1.ge, .inl hzero⟩
  · rw [hsame]
    exact (h.balance found hfound).2

/-- A step of the journal keeps it sound. -/
theorem Sound.step {start journal journal' : Journal} {reports : List VenueOrder} {clock : ℤ}
    (h : Sound start journal) (hstep : JournalStep reports clock journal journal') :
    Sound start journal' := by
  cases hstep with
  | observed hstate hagrees _ =>
    exact h.agrees hstate rfl hagrees.ledger fun intent hintent => .inl hintent
  | @opened _ _ state hnone hopen _ =>
    obtain ⟨_, hposition, htrades, _⟩ := initialState_eq_ok hopen
    refine ⟨fun intent hintent => ?_, fun found hfound => ?_⟩
    · obtain ⟨hquantity, hrecorded⟩ := h.recorded intent hintent
      refine ⟨hquantity, .inl ?_⟩
      simpa [Recorded, Journal.ledger, hnone] using hrecorded
    · have := (h.balance found hfound).1
      rw [hnone] at this
      cases this
  | @settled state intent actual settled _ hstate hpending _ hconsistent hsettled hupdate =>
    obtain ⟨hbooked, hintent⟩ := settleOrder_book hsettled
    obtain ⟨funds, haccepted, hside, _⟩ := bookOrder_iff.mp hbooked
    have hmem : intent ∈ journal.unresolved := by rw [hpending]; exact List.mem_singleton.mpr rfl
    have hrecorded := (h.recorded intent hmem).2
    rw [ledger_of_state hstate] at hrecorded
    obtain ⟨hsettles, hledger, hrecorded'⟩ := bookSide_ledger (Nat.zero_le _) hconsistent hrecorded
      haccepted hside
    rw [hintent] at hupdate
    have hunresolved := Journal.unresolved_updated hpending hupdate rfl
    have hstate' : journal'.state = some settled.1 := by rw [(Journal.update_eq_ok hupdate).2.2.2]
    refine ⟨fun other hother => ?_, fun found hfound => ⟨by rw [hstate']; rfl, ?_⟩⟩
    · have hother : other = intent.settled actual := by
        rw [hunresolved] at hother
        split at hother
        · cases hother
        · exact List.mem_singleton.mp hother
      rw [hother, ledger_of_state hstate']
      exact ⟨hconsistent.volume_nonneg, hrecorded'⟩
    · rw [ledger_of_state hstate', hledger, settleLedger_balance hsettles,
        ← ledger_of_state hstate]
      exact (h.balance found hfound).2
  | @marked state intent uuid cancelled _ hstate hpending hupdate =>
    have hmem : intent ∈ journal.unresolved := by rw [hpending]; exact List.mem_singleton.mpr rfl
    have hunresolved := Journal.unresolved_updated hpending hupdate rfl
    have hstate' : journal'.state = some state := by rw [(Journal.update_eq_ok hupdate).2.2.2]
    have hsame : journal'.ledger = journal.ledger := by
      rw [ledger_of_state hstate', ledger_of_state hstate]
    refine ⟨fun other hother => ?_, fun found hfound => ⟨by rw [hstate']; rfl, ?_⟩⟩
    · rw [hunresolved] at hother
      split at hother
      · cases hother
      · rw [List.mem_singleton.mp hother, hsame]
        exact h.recorded intent hmem
    · rw [hsame]
      exact (h.balance found hfound).2

/-- Every run from a journal without holdings keeps it sound. -/
theorem run_sound (env : Environment) (settings : Settings) {start : World}
    (hflat : start.journal.Flat) (invocations : List Invocation) :
    Sound start.journal (run env settings invocations start).journal := by
  refine run_induction (P := fun world => Sound start.journal world.journal) env settings invocations
    ?_ (fun _ _ h => h) ?_ ?_ ?_ ?_
  · refine ⟨fun intent hintent => ?_, fun state hstate => ?_⟩
    · exact ⟨(hflat.2 intent hintent).1.ge, .inl (hflat.2 intent hintent)⟩
    · have hstate : start.journal.state = some state := hstate
      exact ⟨by rw [hstate]; rfl, by rw [ledger_of_state hstate]⟩
  · intro world next h hquiet
    rcases hquiet.journal with hsame | hstep
    · rwa [hsame]
    · exact h.step hstep
  · intro now world next h hhands
    rwa [hhands.journal]
  · intro bar now world next h hstores
    obtain ⟨state, _, risk, decision, advanced, hstate, hpending, _, _, _, _, hagrees, _, _,
      hjournal⟩ := hstores.stored
    rw [hjournal]
    refine h.agrees hstate rfl ?_ fun intent hintent => .inl hintent
    exact hagrees.ledger
  · intro world next h hsubmits
    obtain ⟨state, other, identifier, side, amount, price, entryAtr, mult, hstate, hagrees, hinsert,
      _⟩ := hsubmits.inserted
    obtain ⟨_, _, hnone, _, hjournal⟩ := Journal.insert_eq_ok hinsert
    refine h.agrees hstate (by rw [hjournal]) hagrees.ledger fun intent hintent => .inr ?_
    simp only [Journal.unresolved] at hnone
    simp only [Journal.unresolved, hjournal, List.filter_append, hnone, List.nil_append] at hintent
    obtain ⟨hintent, _⟩ := List.mem_filter.mp hintent
    rw [List.mem_singleton.mp hintent]
    exact ⟨rfl, rfl, rfl⟩

/-- In every run from a flat journal: facts of the pending intent that are accepted one after
the other book what the last of them books alone, whatever came before; and what the cash
lost is in the cost of the position, or was realized. -/
theorem application_conserves (env : Environment) (settings : Settings) {start : World}
    (hflat : start.journal.Flat) (invocations : List Invocation) :
    (∀ (intent : LiveIntent) (facts : List (VenueOrder × ℤ)) (last : VenueOrder × ℤ) (next : World),
        (run env settings invocations start).journal.pending = .ok [intent] →
        (∀ fact ∈ facts ++ [last], ∃ data expected detail,
          order data intent.identifier expected detail = .ok fact.1) →
        execute (applyFacts env intent.identifier (facts ++ [last]))
          (run env settings invocations start) = (.ok (), next) →
        ∃ state state' alone, (run env settings invocations start).journal.state = some state ∧
          next.journal.state = some state' ∧
          bookOrder state.book intent last.1 last.2 = .ok alone ∧
          state'.cash = alone.cash ∧
          state'.position.map (·.holding) = alone.position.map (·.holding) ∧
          state'.closedTrades.map (·.netPnl) = alone.closedTrades.map (·.netPnl)) ∧
    ∀ before ∈ start.journal.state,
      ∃ state, (run env settings invocations start).journal.state = some state ∧
        state.cash - before.cash + (state.position.map (·.costBasis)).getD 0 =
          (state.closedTrades.map (·.netPnl)).sum - (before.closedTrades.map (·.netPnl)).sum +
            (state.position.map (·.realizedPnl)).getD 0 := by
  have hsound := run_sound env settings hflat invocations
  generalize run env settings invocations start = world at hsound
  refine ⟨fun intent facts last next hpending hfacts h => ?_, fun before hbefore => ?_⟩
  · have hunresolved := (Journal.pending_eq_ok hpending).1
    have hmem : intent ∈ world.journal.unresolved := by
      rw [← hunresolved]
      exact List.mem_singleton.mpr rfl
    obtain ⟨hquantity, hrecorded⟩ := hsound.recorded intent hmem
    obtain ⟨state, hfound, hstate⟩ :=
      applyFacts_found (List.append_ne_nil_of_right_ne_nil facts (List.cons_ne_nil last [])) h
        (List.mem_filter.mp hmem).1 rfl
    rw [ledger_of_state hstate] at hrecorded
    obtain ⟨state', alone, hstate', _, halone, hledger, _⟩ := applyFacts_last hfound hstate
      hquantity hrecorded (fun fact hfact => by
        obtain ⟨data, expected, detail, horder⟩ := hfacts fact hfact
        exact (order_consistent horder).2) h
    exact ⟨state, state', alone, hstate, hstate', halone, (congrArg Ledger.cash hledger).symm,
      (congrArg Ledger.holding hledger).symm, (congrArg Ledger.closed hledger).symm⟩
  · obtain ⟨hsome, hbalance⟩ := hsound.balance before hbefore
    obtain ⟨state, hstate⟩ := Option.isSome_iff_exists.mp hsome
    have hnone : before.position = none := hflat.1 before hbefore
    refine ⟨state, hstate, ?_⟩
    rw [ledger_of_state hstate] at hbalance
    simp only [Ledger.balance, LiveState.book, Book.ledger, hnone, Option.map_none,
      Option.elim_none] at hbalance
    cases hposition : state.position with
    | none =>
      simp only [hposition, Option.map_none, Option.elim_none, Option.getD_none] at hbalance ⊢
      linarith
    | some position =>
      simp only [hposition, Option.map_some, Option.elim_some, Option.getD_some,
        LivePosition.holding] at hbalance ⊢
      linarith

/-- An order to buy for 300 KRW as the venue reports it after a fill. -/
def filledBid (state : OrderState) (volume funds fee : ℚ) : RawOrder where
  identifier := some "order-1"
  market := some "KRW-BTC"
  side := some .bid
  state := some state
  uuid := some "venue-1"
  ordType := some "price"
  volume := .absent
  remainingVolume := .absent
  price := .value 300
  executedVolume := .value volume
  paidFee := .value fee
  locked := .value 0
  reservedFee := .value 0
  remainingFee := .value 0
  createdAt := .value 0
  trades := .value [{
    market := some "KRW-BTC", side := some .bid, uuid := some "fill", volume := .value volume
    price := .value (funds / volume), funds := .value funds, createdAt := .value 1 }]
  tradesCount := some 1

/-- An intent to buy for 300 KRW. -/
def bidIntent : LiveIntent where
  identifier := "order-1"
  side := .bid
  amount := 300
  referencePrice := 100
  entryAtr := 10
  initialAtrMult := 2
  createdAt := 0

/-- A journal with 1000 KRW in which that intent is pending. -/
def pendingBid : World where
  journal := {
    state := some {
      cash := 1000
      position := none
      risk := { initialEquity := 1000, equityPeak := 1000, dailyBaselineEquity := 1000,
                lastEquity := 1000 }
      health := {} }
    intents := [bidIntent] }

/-- An environment in which every transaction commits. -/
def committing : Environment where
  orders _ := .crash
  placements _ := .crash
  cancels _ := .crash
  accounts _ := .crash
  chances _ := .crash
  fates _ := .committed
  uuid4 _ := ""

/-- What the client reads of it. -/
def reportedBid (state : OrderState) (volume funds fee : ℚ) : VenueOrder where
  identifier := "order-1"
  uuid := "venue-1"
  side := .bid
  state := state
  executedVolume := volume
  executedFunds := some funds
  paidFee := fee
  volume := none
  remainingVolume := none
  price := some 300
  createdAt := 0
  lastFillAt := some 1
  firstFillAt := some 1

/-- Two reports of a bid book what its last report alone books. -/
theorem application_conserves_two_fills :
    ∃ state alone, (execute (applyFacts committing "order-1"
        [(reportedBid .wait 1 100 (1 / 10), 5), (reportedBid .done 2 210 (2 / 10), 7)])
          pendingBid).2.journal.state = some state ∧
      bookOrder ⟨1000, none, []⟩ bidIntent (reportedBid .done 2 210 (2 / 10)) 7 = .ok alone ∧
      state.cash = alone.cash ∧
      state.position.map (·.holding) = alone.position.map (·.holding) ∧
      state.closedTrades.map (·.netPnl) = alone.closedTrades.map (·.netPnl) := by
  have hflat : pendingBid.journal.Flat := by
    refine ⟨?_, ?_⟩
    · rintro state ⟨⟩
      rfl
    · intro intent hintent
      obtain rfl := List.mem_singleton.mp (List.mem_filter.mp hintent).1
      exact ⟨rfl, rfl, rfl⟩
  have hfirst : order (filledBid .wait 1 100 (1 / 10)) "order-1" none true =
      .ok (reportedBid .wait 1 100 (1 / 10)) := by decide +kernel
  have hlast : order (filledBid .done 2 210 (2 / 10)) "order-1" none true =
      .ok (reportedBid .done 2 210 (2 / 10)) := by decide +kernel
  have hok : (execute (applyFacts committing "order-1"
      [(reportedBid .wait 1 100 (1 / 10), 5), (reportedBid .done 2 210 (2 / 10), 7)])
        pendingBid).1 = .ok () := by decide +kernel
  obtain ⟨state, state', alone, hstate, hstate', halone, hcash, hholding, htrades⟩ :=
    (application_conserves committing { fingerprint := fun _ _ => none } hflat []).1 _
    [(reportedBid .wait 1 100 (1 / 10), 5)]
      (reportedBid .done 2 210 (2 / 10), 7) _ rfl (by
        intro fact hfact
        rcases List.mem_cons.mp hfact with rfl | hfact
        · exact ⟨_, _, _, hfirst⟩
        · rw [List.mem_singleton.mp hfact]
          exact ⟨_, _, _, hlast⟩) (Prod.ext hok rfl)
  obtain rfl := Option.some.inj hstate
  exact ⟨state', alone, hstate', halone, hcash, hholding, htrades⟩

end AutoBit.Live
