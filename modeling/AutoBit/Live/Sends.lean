import AutoBit.Live.CandleSteps

/-!
# Orders are sent at most once

An order is sent only right after its intent was committed, when no other intent is pending.
An intent ends only when the venue reports its order as ended, and its identifier is never
used again. A candle that was consumed creates no further intent.
-/

namespace AutoBit.Live

open Library Health Risk Strategy Relation

/-! ## The facts of an order -/

/-- The facts of an order agree with its intent and with each other. -/
structure Accepted (intent : LiveIntent) (actual : VenueOrder) (at_ : ℤ) (funds : ℚ) : Prop where
  side : actual.side = intent.side
  identifier : actual.identifier = intent.identifier
  created : wholeSecond intent.createdAt ≤ actual.createdAt ∧ actual.createdAt ≤ at_
  uuid : ∀ uuid ∈ intent.venueUuid, uuid ≠ "" → actual.uuid = uuid
  executed : actual.executedFunds = some funds
  volume : intent.quantity ≤ actual.executedVolume
  paid : intent.funds ≤ funds
  fee : intent.fee ≤ actual.paidFee
  price : actual.side = .bid → actual.price = some intent.amount
  ordered : actual.side = .ask → actual.volume = some intent.amount
  still : actual.executedVolume = intent.quantity → funds = intent.funds
  filled : intent.quantity < actual.executedVolume →
    intent.funds < funds ∧ actual.lastFillAt.isSome = true
  past : ∀ fill ∈ actual.lastFillAt, fill ≤ at_
  bought : actual.side = .bid → intent.quantity < actual.executedVolume →
    ∃ first ∈ actual.firstFillAt, actual.createdAt ≤ first ∧
      ∃ last ∈ actual.lastFillAt, first ≤ last

/-- The checks of an order accept exactly the facts that agree with its intent. -/
theorem checkFacts_iff {intent : LiveIntent} {actual : VenueOrder} {at_ : ℤ} {funds : ℚ} :
    checkFacts intent actual at_ = .ok funds ↔ Accepted intent actual at_ funds := by
  simp only [checkFacts, Except.bind_eq_ok, reject_eq_ok, require_eq_ok, Except.pure_eq_ok,
    not_or, not_and, not_not, not_lt, not_exists, sub_eq_zero, sub_pos, sub_nonpos, not_le]
  constructor
  · rintro ⟨_, ⟨hside, hidentifier, hcreated, hpast, huuid⟩, found, hfound, _, ⟨hvolume, hpaid,
      hfee, hprice, hordered⟩, _, ⟨hstill, hfilled⟩, _, hfill, _, hbought, rfl⟩
    refine ⟨hside, hidentifier, ⟨hcreated, hpast⟩, huuid, hfound, hvolume, hpaid, hfee, hprice,
      hordered, hstill, fun h => ?_, hfill, fun hbid h => ?_⟩
    · obtain ⟨hfunds, hlast⟩ := hfilled h
      exact ⟨hfunds, Option.isSome_iff_ne_none.mpr (by simpa using hlast)⟩
    · by_contra hnone
      push Not at hnone
      exact hbought hbid h fun first hfirst hafter last hlast =>
        hnone first hfirst hafter last hlast
  · intro h
    refine ⟨⟨⟩, ⟨h.side, h.identifier, h.created.1, h.created.2, h.uuid⟩, funds, h.executed, ⟨⟩,
      ⟨h.volume, h.paid, h.fee, h.price, h.ordered⟩, ⟨⟩, ⟨h.still, fun hlt => ?_⟩, ⟨⟩, h.past, ⟨⟩,
      fun hbid hlt hnone => ?_, rfl⟩
    · obtain ⟨hfunds, hlast⟩ := h.filled hlt
      exact ⟨hfunds, by simpa [Option.isSome_iff_ne_none] using hlast⟩
    · obtain ⟨first, hfirst, hafter, last, hlast, hle⟩ := h.bought hbid hlt
      exact absurd hle (not_le.mpr (hnone first hfirst hafter last hlast))

/-- What is settled was booked from the checked facts. -/
theorem settleOrder_eq_ok {state : LiveState} {intent : LiveIntent} {actual : VenueOrder} {at_ : ℤ}
    {settled : LiveState × LiveIntent} (h : settleOrder state intent actual at_ = .ok settled) :
    ∃ booked funds, bookOrder state.book intent actual at_ = .ok booked ∧
      checkFacts intent actual at_ = .ok funds ∧ settled.2 = intent.settled actual ∧
      settled.1 = { state with
        cash := booked.cash, position := booked.position, closedTrades := booked.closedTrades
        health := fillHealth state.health intent actual at_ } := by
  simp only [settleOrder, Except.bind_eq_ok, Except.pure_eq_ok] at h
  obtain ⟨funds, hfunds, _, _, booked, hbooked, rfl⟩ := h
  exact ⟨booked, funds, hbooked, hfunds, rfl, rfl⟩

/-! ## The intents -/

/-- One pending intent is revised, and ends only when its order is reported as ended. -/
structure Revised (reports : List VenueOrder) (journal journal' : Journal)
    (intent other : LiveIntent)
    (before rest : List LiveIntent) : Prop where
  intents : journal.intents = before ++ intent :: rest
  revised : journal'.intents = before ++ other :: rest
  key : other.key = intent.key
  pending : journal.unresolved = [intent]
  unresolved : journal'.unresolved = if other.terminal then [] else [other]
  ended : other.terminal = true →
    ∃ actual ∈ reports, actual.identifier = intent.identifier ∧ actual.terminal = true

/-- A step of the journal leaves the intents alone, or revises the pending one. -/
theorem JournalStep.intents {reports : List VenueOrder} {clock : ℤ} {journal journal' : Journal}
    (h : JournalStep reports clock journal journal') :
    journal'.intents = journal.intents ∨
      ∃ intent other before rest, Revised reports journal journal' intent other before rest := by
  have hrevised : ∀ {state intent other}, journal.unresolved = [intent] →
      journal.update state other = .ok journal' → other.key = intent.key →
      (other.terminal = true →
        ∃ actual ∈ reports, actual.identifier = intent.identifier ∧ actual.terminal = true) →
      ∃ before rest, Revised reports journal journal' intent other before rest := by
    intro state intent other hpending hupdate hkey hended
    have hidentifier : other.identifier = intent.identifier := congrArg Prod.fst hkey
    have hunresolved := Journal.unresolved_updated hpending hupdate hidentifier
    obtain ⟨_, _, hone, rfl⟩ := Journal.update_eq_ok hupdate
    obtain ⟨before, rest, hintents, hreplaced, _⟩ := Journal.replaced_eq hpending hidentifier hone
    exact ⟨before, rest, hintents, hreplaced, hkey, hpending, hunresolved, hended⟩
  cases h with
  | observed => exact .inl rfl
  | opened => exact .inl rfl
  | settled hstate hpending hreported hconsistent hsettled hupdate =>
    obtain ⟨booked, funds, _, hfacts, hsettledIntent, _⟩ := settleOrder_eq_ok hsettled
    rw [hsettledIntent] at hupdate
    obtain ⟨before, rest, h⟩ := hrevised hpending hupdate rfl fun hterminal =>
      ⟨_, hreported, (checkFacts_iff.mp hfacts).identifier, hterminal⟩
    exact .inr ⟨_, _, before, rest, h⟩
  | @marked _ intent _ _ _ _ hpending hupdate =>
    have hmem : intent ∈ journal.unresolved := by rw [hpending]; exact List.mem_singleton.mpr rfl
    have hactive : intent.terminal = false := by simpa using (List.mem_filter.mp hmem).2
    obtain ⟨before, rest, h⟩ := hrevised hpending hupdate rfl fun hterminal => by
      rw [hactive] at hterminal
      cases hterminal
    exact .inr ⟨_, _, before, rest, h⟩

/-- A revised intent keeps its key. -/
theorem Revised.keys {reports : List VenueOrder} {journal journal' : Journal}
    {intent other : LiveIntent} {before rest : List LiveIntent}
    (h : Revised reports journal journal' intent other before rest) :
    journal'.intents.map (·.key) = journal.intents.map (·.key) := by
  simp [h.intents, h.revised, h.key]

/-- A quiet step keeps the identifiers and the times of creation. -/
theorem Quiet.keys {world next : World} (h : Quiet world next) :
    next.journal.intents.map (·.key) = world.journal.intents.map (·.key) := by
  rcases h.journal with hsame | hstep
  · rw [hsame]
  · rcases hstep.intents with hintents | ⟨_, _, _, _, hrevised⟩
    · rw [hintents]
    · exact hrevised.keys

/-- Quiet steps keep the keys of the intents. -/
theorem Reaches.keys {world next : World} (h : Reaches world next) :
    next.journal.intents.map (·.key) = world.journal.intents.map (·.key) := by
  induction h with
  | refl => rfl
  | tail _ hstep ih => exact hstep.keys.trans ih

/-! ## What every run keeps -/

/-- An order of the program that the venue has not reported as ended. -/
def World.InFlight (world : World) (identifier : String) : Prop :=
  ¬∃ actual ∈ world.reports, actual.identifier = identifier ∧ actual.terminal = true

/-- The sends of a world, and the intents that cover them. -/
structure Covered (world : World) : Prop where
  nodup : (world.sends.map (·.identifier)).Nodup
  sent : ∀ send ∈ world.sends, send.identifier ∈ world.journal.intents.map (·.identifier)
  covered : ∀ send ∈ world.sends, ∃ intent, send.journal.unresolved = [intent] ∧
    intent.identifier = send.identifier ∧ intent.side = send.side ∧ intent.amount = send.amount
  single : world.journal.unresolved.length ≤ 1
  ended : ∀ intent ∈ world.journal.intents, intent.terminal = true →
    ∃ actual ∈ world.reports, actual.identifier = intent.identifier ∧ actual.terminal = true

/-- Intents with the same keys have the same identifiers. -/
theorem identifiers_of_keys {journal journal' : Journal}
    (h : journal'.intents.map (·.key) = journal.intents.map (·.key)) :
    journal'.intents.map (·.identifier) = journal.intents.map (·.identifier) := by
  have hfirst := congrArg (List.map Prod.fst) h
  simpa only [List.map_map, Function.comp_def, LiveIntent.key] using hfirst

/-- A quiet step leaves the sends covered. -/
theorem Covered.quiet {world next : World} (h : Covered world) (hstep : Quiet world next) :
    Covered next := by
  have hidentifiers := identifiers_of_keys hstep.keys
  have hreports : ∀ actual ∈ world.reports, actual ∈ next.reports := hstep.reports.subset
  refine ⟨?_, ?_, ?_, ?_, ?_⟩
  · rw [hstep.sends]
    exact h.nodup
  · rw [hstep.sends, hidentifiers]
    exact h.sent
  · rw [hstep.sends]
    exact h.covered
  · rcases hstep.journal with hsame | hjournal
    · rw [hsame]
      exact h.single
    · rcases hjournal.intents with hintents | ⟨_, other, _, _, hrevised⟩
      · rw [Journal.unresolved, hintents]
        exact h.single
      · rw [hrevised.unresolved]
        split <;> simp
  · intro intent hintent hterminal
    have hkept : intent ∈ world.journal.intents →
        ∃ actual ∈ next.reports, actual.identifier = intent.identifier ∧
          actual.terminal = true := by
      intro hmem
      obtain ⟨actual, hactual, hended⟩ := h.ended intent hmem hterminal
      exact ⟨actual, hreports actual hactual, hended⟩
    rcases hstep.journal with hsame | hjournal
    · exact hkept (hsame ▸ hintent)
    · rcases hjournal.intents with hintents | ⟨_, other, before, rest, hrevised⟩
      · exact hkept (hintents ▸ hintent)
      · rw [hrevised.revised, List.mem_append, List.mem_cons] at hintent
        rcases hintent with hmem | rfl | hmem
        · exact hkept (hrevised.intents ▸ List.mem_append_left _ hmem)
        · obtain ⟨actual, hactual, hidentifier, hended⟩ := hrevised.ended hterminal
          exact ⟨actual, hreports actual hactual,
            hidentifier.trans (congrArg Prod.fst hrevised.key).symm, hended⟩
        · exact hkept (hrevised.intents ▸
            List.mem_append_right _ (List.mem_cons_of_mem _ hmem))

/-- A submission leaves the sends covered. -/
theorem Covered.submits {world next : World} (h : Covered world) (hstep : Submits world next) :
    Covered next := by
  obtain ⟨state, other, identifier, side, amount, price, entryAtr, mult, _, _, hinsert, hsends⟩ :=
    hstep.inserted
  obtain ⟨_, _, hnone, hfresh, hjournal⟩ := Journal.insert_eq_ok hinsert
  set intent : LiveIntent := {
    identifier, side, amount, referencePrice := price, entryAtr, initialAtrMult := mult
    createdAt := world.clock }
  have hpending : next.journal.unresolved = [intent] := by
    simp only [Journal.unresolved] at hnone
    simp [hjournal, Journal.unresolved, hnone, intent]
  have hkept : ∀ found ∈ world.journal.intents.map (·.identifier),
      found ∈ next.journal.intents.map (·.identifier) := by
    intro found hfound
    rw [hjournal, List.map_append]
    exact List.mem_append_left _ hfound
  have hunsent : identifier ∉ world.sends.map (·.identifier) := by
    intro hmem
    obtain ⟨send, hsend, rfl⟩ := List.mem_map.mp hmem
    obtain ⟨found, hfound, hsame⟩ := List.mem_map.mp (h.sent send hsend)
    exact hfresh found hfound hsame
  refine ⟨?_, ?_, ?_, ?_, ?_⟩
  · rcases hsends with hsends | hsends
    · rw [hsends]
      exact h.nodup
    · rw [hsends, List.map_append, List.nodup_append]
      refine ⟨h.nodup, List.nodup_singleton _, ?_⟩
      rintro found hfound last hlast rfl
      obtain rfl : found = identifier := by simpa using hlast
      exact hunsent hfound
  · have hold : ∀ send ∈ world.sends,
        send.identifier ∈ next.journal.intents.map (·.identifier) :=
      fun send hsend => hkept _ (h.sent send hsend)
    rcases hsends with hsends | hsends
    · rwa [hsends]
    · rw [hsends]
      intro send hsend
      rcases List.mem_append.mp hsend with hsend | hsend
      · exact hold send hsend
      · rw [List.mem_singleton.mp hsend, hjournal]
        simp [intent]
  · rcases hsends with hsends | hsends
    · rw [hsends]
      exact h.covered
    · rw [hsends]
      intro send hsend
      rcases List.mem_append.mp hsend with hsend | hsend
      · exact h.covered send hsend
      · rw [List.mem_singleton.mp hsend]
        exact ⟨intent, hpending, rfl, rfl, rfl⟩
  · rw [hpending]
    exact le_refl _
  · intro found hfound hterminal
    rw [hjournal, List.mem_append, List.mem_singleton] at hfound
    rw [hstep.reports]
    rcases hfound with hfound | rfl
    · exact h.ended found hfound hterminal
    · cases hterminal

/-- A step that leaves the intents, the sends and the reports alone. -/
theorem Covered.same {world next : World} (h : Covered world)
    (hintents : next.journal.intents = world.journal.intents) (hsends : next.sends = world.sends)
    (hreports : next.reports = world.reports) : Covered next := by
  refine ⟨?_, ?_, ?_, ?_, ?_⟩
  · exact hsends ▸ h.nodup
  · rw [hsends, hintents]
    exact h.sent
  · exact hsends ▸ h.covered
  · rw [Journal.unresolved, hintents]
    exact h.single
  · rw [hintents, hreports]
    exact h.ended

/-- Every run of a new world covers its sends. -/
theorem run_covered (env : Environment) (settings : Settings) (invocations : List Invocation) :
    Covered (run env settings invocations {}) := by
  refine run_induction env settings invocations ?_ ?_ ?_ ?_ ?_ ?_
  · exact ⟨List.nodup_nil, by simp, by simp, by simp [Journal.unresolved], by simp⟩
  · exact fun world at_ h => h.same rfl rfl rfl
  · exact fun world next h hstep => h.quiet hstep
  · exact fun now world next h hstep => h.same (by rw [hstep.journal]) hstep.sends hstep.reports
  · intro bar now world next h hstep
    obtain ⟨_, _, _, _, _, _, _, _, _, _, _, _, _, _, hjournal⟩ := hstep.stored
    exact h.same (by rw [hjournal]) hstep.sends hstep.reports
  · exact fun world next h hstep => h.submits hstep

/-! ## One intent for each candle -/

/-- A step of the journal leaves a valid state, with the risk and the progress it had. -/
theorem JournalStep.state {reports : List VenueOrder} {clock : ℤ} {journal journal' : Journal}
    (h : JournalStep reports clock journal journal') :
    ∃ state', journal'.state = some state' ∧ validateState state' = .ok () ∧
      ((journal.state = none ∧ ∃ balances close, initialState balances close = .ok state') ∨
        ∃ state, journal.state = some state ∧ state'.risk = state.risk ∧
          state'.completedAt = state.completedAt ∧ state'.decision = state.decision) := by
  cases h with
  | observed hstate hagrees hvalid =>
    exact ⟨_, rfl, hvalid, .inr ⟨_, hstate, hagrees.risk, hagrees.completedAt, hagrees.decision⟩⟩
  | opened hnone hopen hvalid => exact ⟨_, rfl, hvalid, .inl ⟨hnone, _, _, hopen⟩⟩
  | settled hstate _ _ _ hsettled hupdate =>
    obtain ⟨_, _, _, _, _, hsettledState⟩ := settleOrder_eq_ok hsettled
    obtain ⟨hvalid, _, _, rfl⟩ := Journal.update_eq_ok hupdate
    refine ⟨_, rfl, hvalid, .inr ⟨_, hstate, ?_⟩⟩
    rw [hsettledState]
    exact ⟨rfl, rfl, rfl⟩
  | marked hstate _ hupdate =>
    obtain ⟨hvalid, _, _, rfl⟩ := Journal.update_eq_ok hupdate
    exact ⟨_, rfl, hvalid, .inr ⟨_, hstate, rfl, rfl, rfl⟩⟩

/-- The candle that was consumed last. -/
def Journal.completed (journal : Journal) : Option ℤ := journal.state.bind (·.completedAt)

/-- A candle that was consumed has a decision. -/
def Journal.Decided (journal : Journal) : Prop :=
  ∀ state ∈ journal.state, state.completedAt.isSome = true → state.decision.isSome = true

/-- A step of the journal keeps the completed candle and the decision. -/
theorem JournalStep.progress {reports : List VenueOrder} {clock : ℤ} {journal journal' : Journal}
    (h : JournalStep reports clock journal journal') :
    journal'.completed = journal.completed ∧ (journal.Decided → journal'.Decided) := by
  obtain ⟨state', hstate', _, ⟨hnone, balances, close, hopen⟩ | ⟨state, hstate, _, hcompleted,
    hdecision⟩⟩ := h.state
  · have hfresh := (initialState_eq_ok hopen).2.2.2.2.2
    refine ⟨by simp [Journal.completed, hstate', hnone, hfresh], fun _ found hfound => ?_⟩
    obtain rfl : state' = found := by simpa [hstate'] using hfound
    simp [hfresh]
  · refine ⟨by simp [Journal.completed, hstate', hstate, hcompleted], fun hdecided found hfound => ?_⟩
    obtain rfl : state' = found := by simpa [hstate'] using hfound
    rw [hcompleted, hdecision]
    exact hdecided state hstate

/-- Quiet steps keep the completed candle and the decision. -/
theorem Reaches.progress {world next : World} (h : Reaches world next) :
    next.journal.completed = world.journal.completed ∧
      (world.journal.Decided → next.journal.Decided) := by
  induction h with
  | refl => exact ⟨rfl, id⟩
  | tail _ hstep ih =>
    rcases hstep.journal with hsame | hjournal
    · rw [hsame]
      exact ih
    · exact ⟨hjournal.progress.1.trans ih.1, fun hdecided => hjournal.progress.2 (ih.2 hdecided)⟩

/-- Quiet steps create no intents. -/
theorem Reaches.created {world next : World} (h : Reaches world next) :
    next.journal.intents.length = world.journal.intents.length := by
  simpa using congrArg List.length h.keys

/-- A submission creates one intent. -/
theorem Submits.created {world next : World} (h : Submits world next) :
    next.journal.intents.length = world.journal.intents.length + 1 ∧
      next.journal.completed = world.journal.completed ∧
      (world.journal.Decided → next.journal.Decided) := by
  obtain ⟨state, other, _, _, _, _, _, _, hstate, hagrees, hinsert, _⟩ := h.inserted
  obtain ⟨_, _, _, _, hjournal⟩ := Journal.insert_eq_ok hinsert
  rw [hjournal]
  refine ⟨by simp, by simp [Journal.completed, hstate, hagrees.completedAt], ?_⟩
  rintro hdecided _ ⟨⟩
  rw [hagrees.completedAt, hagrees.decision]
  exact hdecided state hstate

/-- Quiet steps with at most one submission create at most one intent. -/
theorem Submitted.created {world next : World} (h : Submitted world next) :
    (next.journal.intents.length = world.journal.intents.length ∨
      next.journal.intents.length = world.journal.intents.length + 1) ∧
      next.journal.completed = world.journal.completed ∧
      (world.journal.Decided → next.journal.Decided) := by
  cases h with
  | quiet h => exact ⟨.inl h.created, h.progress⟩
  | submitted hfirst hsubmits hlast =>
    obtain ⟨hcreated, hcompleted, hdecided⟩ := hsubmits.created
    refine ⟨.inr ?_, ?_, fun h => hlast.progress.2 (hdecided (hfirst.progress.2 h))⟩
    · rw [hlast.created, hcreated, hfirst.created]
    · rw [hlast.progress.1, hcompleted, hfirst.progress.1]

/-- The result of the reducer is stored for a later candle than the one before. -/
theorem Stores.progress {config : RiskConfig} {bar now : ℤ} {world next : World}
    (h : Stores config bar now world next) (hdecided : world.journal.Decided) :
    next.journal.intents = world.journal.intents ∧ next.journal.completed = some bar ∧
      next.journal.Decided ∧ ∀ completed ∈ world.journal.completed, completed < bar := by
  obtain ⟨state, _, risk, decision, advanced, hstate, _, _, _, hbar, _, hagrees, _, _, hjournal⟩ :=
    h.stored
  rw [hjournal]
  refine ⟨rfl, by simp [Journal.completed, hagrees.completedAt], ?_, ?_⟩
  · rintro _ ⟨⟩ _
    rw [hagrees.decision]
    rfl
  · intro completed hcompleted
    have hmem : completed ∈ state.completedAt := by
      simpa [Journal.completed, hstate] using hcompleted
    obtain ⟨hle, hsame⟩ := hbar completed hmem
    refine lt_of_le_of_ne hle fun heq => ?_
    have hsome := hdecided state hstate (by rw [Option.mem_def.mp hmem]; rfl)
    rw [hsame heq] at hsome
    cases hsome

/-- The candle of a call. -/
def Call.bar : Call → Option ℤ
  | .candle supplied _ => supplied.timestamp.instant
  | _ => none

/-- The progress of a call: the candle consumed last never gets earlier, and a candle that
creates an intent is consumed by it. -/
theorem steps_progress {settings : Settings} {call : Call} {world next : World}
    (h : call.Steps settings world next) (hdecided : world.journal.Decided) :
    next.journal.Decided ∧
      (∀ completed ∈ world.journal.completed,
        ∃ later ∈ next.journal.completed, completed ≤ later) ∧
      (next.journal.intents.length = world.journal.intents.length ∨
        next.journal.intents.length = world.journal.intents.length + 1 ∧
          ∀ bar ∈ call.bar, bar ∈ next.journal.completed ∧
            ∀ completed ∈ world.journal.completed, completed < bar) := by
  have hquiet : Reaches world next → next.journal.Decided ∧
      (∀ completed ∈ world.journal.completed,
        ∃ later ∈ next.journal.completed, completed ≤ later) := fun h =>
    ⟨h.progress.2 hdecided, fun completed hmem =>
      ⟨completed, by rw [h.progress.1]; exact hmem, le_refl _⟩⟩
  cases call with
  | reconcile => exact ⟨(hquiet h).1, (hquiet h).2, .inl (Reaches.created h)⟩
  | price observed =>
    obtain ⟨hcreated, hcompleted, hkept⟩ := Submitted.created h
    refine ⟨hkept hdecided, fun completed hmem =>
      ⟨completed, by rw [hcompleted]; exact hmem, le_refl _⟩, hcreated.imp_right fun h => ⟨h, ?_⟩⟩
    rintro _ ⟨⟩
  | candle supplied observation =>
    cases h with
    | quiet h => exact ⟨(hquiet h).1, (hquiet h).2, .inl h.created⟩
    | handed hfirst hhands hlast =>
      refine ⟨hlast.progress.2 ?_, fun completed hmem => ⟨completed, ?_, le_refl _⟩, .inl ?_⟩
      · rw [hhands.journal]
        exact hfirst.progress.2 hdecided
      · rw [hlast.progress.1, hhands.journal, hfirst.progress.1]
        exact hmem
      · rw [hlast.created, hhands.journal, hfirst.created]
    | @stored _ _ bar hbar hfirst hstores hlast =>
      obtain ⟨hintents, hconsumed, hkept, hearlier⟩ :=
        hstores.progress (hfirst.progress.2 hdecided)
      obtain ⟨hcreated, hcompleted, hlastDecided⟩ := hlast.created
      have hlater : next.journal.completed = some bar := hcompleted.trans hconsumed
      have hbefore : ∀ completed ∈ world.journal.completed, completed < bar := by
        rw [← hfirst.progress.1]
        exact hearlier
      rw [hintents, hfirst.created] at hcreated
      refine ⟨hlastDecided hkept, fun completed hmem =>
        ⟨bar, hlater, (hbefore completed hmem).le⟩, hcreated.imp_right fun h => ⟨h, ?_⟩⟩
      intro named hnamed
      obtain rfl : bar = named := Option.some.inj (hbar.symm.trans hnamed)
      exact ⟨hlater, hbefore⟩

section Created

variable (env : Environment) (settings : Settings)

/-- The intents that the calls with a candle created. -/
def created (bar : ℤ) : List Invocation → World → List LiveIntent
  | [], _ => []
  | invocation :: invocations, world =>
    let next := after env settings invocation world
    (if invocation.call.bar = some bar then
      next.journal.intents.drop world.journal.intents.length else []) ++
        created bar invocations next

/-- Once a candle was consumed, it creates nothing; before, it creates one intent at most. -/
theorem created_length (bar : ℤ) (invocations : List Invocation) {world : World}
    (hdecided : world.journal.Decided) :
    (created env settings bar invocations world).length ≤ 1 ∧
      ((∃ completed ∈ world.journal.completed, bar ≤ completed) →
        created env settings bar invocations world = []) := by
  induction invocations generalizing world with
  | nil => simp [created]
  | cons invocation invocations ih =>
    obtain ⟨hkept, hlater, hgrowth⟩ := steps_progress
      (after_steps env settings invocation world) hdecided
    obtain ⟨hone, hnone⟩ := ih hkept
    simp only [created]
    have hcontinues : (∃ completed ∈ world.journal.completed, bar ≤ completed) →
        created env settings bar invocations (after env settings invocation world) = [] := by
      rintro ⟨completed, hmem, hle⟩
      obtain ⟨later, hmem', hle'⟩ := hlater completed hmem
      exact hnone ⟨later, hmem', hle.trans hle'⟩
    split
    · next hbar =>
      rcases hgrowth with hsame | ⟨hgrown, hconsumes⟩
      · rw [List.drop_eq_nil_of_le hsame.le, List.nil_append]
        exact ⟨hone, hcontinues⟩
      · obtain ⟨hconsumed, hearlier⟩ := hconsumes bar hbar
        have hempty := hnone ⟨bar, hconsumed, le_refl _⟩
        refine ⟨?_, ?_⟩
        · rw [hempty, List.append_nil, List.length_drop, hgrown]
          simp
        · rintro ⟨completed, hmem, hle⟩
          exact absurd (hearlier completed hmem) (not_lt.mpr hle)
    · rw [List.nil_append]
      exact ⟨hone, hcontinues⟩

/-- In every run, whatever the venue answers and wherever a call ends: no identifier is sent
twice; an order is sent only when the journal holds its intent, and no other one pending; at
most one order that was sent has not been reported as ended; and the calls with one candle
create one intent at most. -/
theorem sends_at_most_once (invocations : List Invocation) :
    ((run env settings invocations {}).sends.map (·.identifier)).Nodup ∧
      (∀ send ∈ (run env settings invocations {}).sends, ∃ intent,
        send.journal.unresolved = [intent] ∧ intent.identifier = send.identifier ∧
          intent.side = send.side ∧ intent.amount = send.amount) ∧
      (∀ send ∈ (run env settings invocations {}).sends,
        ∀ other ∈ (run env settings invocations {}).sends,
          (run env settings invocations {}).InFlight send.identifier →
          (run env settings invocations {}).InFlight other.identifier →
            send.identifier = other.identifier) ∧
      ∀ bar, (created env settings bar invocations {}).length ≤ 1 := by
  have h := run_covered env settings invocations
  have hpending : ∀ send ∈ (run env settings invocations {}).sends,
      (run env settings invocations {}).InFlight send.identifier →
        ∃ intent ∈ (run env settings invocations {}).journal.unresolved,
          intent.identifier = send.identifier := by
    intro send hsend hflight
    obtain ⟨intent, hintent, hsame⟩ := List.mem_map.mp (h.sent send hsend)
    refine ⟨intent, List.mem_filter.mpr ⟨hintent, ?_⟩, hsame⟩
    by_contra hended
    obtain ⟨actual, hactual, hidentifier, hterminal⟩ := h.ended intent hintent (by simpa using hended)
    exact hflight ⟨actual, hactual, hidentifier.trans hsame, hterminal⟩
  refine ⟨h.nodup, h.covered, ?_, fun bar => (created_length env settings bar invocations ?_).1⟩
  · intro send hsend other hother hflight hflight'
    obtain ⟨intent, hintent, hsame⟩ := hpending send hsend hflight
    obtain ⟨intent', hintent', hsame'⟩ := hpending other hother hflight'
    obtain ⟨only, honly⟩ := List.length_eq_one_iff.mp
      (le_antisymm h.single (List.length_pos_of_mem hintent))
    rw [honly, List.mem_singleton] at hintent hintent'
    rw [← hsame, ← hsame', hintent, hintent']
  · rintro _ ⟨⟩

end Created

end AutoBit.Live
