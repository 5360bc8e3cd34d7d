import AutoBit.Live.Simulation

/-!
# A candle follows the steps

A candle hands the new trades to the reducer at most once, only when no intent is pending and
only when it is later than the candle consumed before. It submits only after the result of
the reducer is in the journal.
-/

namespace AutoBit.Live

open Library Health Risk Strategy Relation

/-! ## What stays within a call -/

/-- The state that the first candle opens has positive equity and nothing else. -/
theorem initialState_eq_ok {balances : Account × Account} {close : ℚ} {state : LiveState}
    (h : initialState balances close = .ok state) :
    0 < state.risk.initialEquity ∧ state.position = none ∧ state.closedTrades = [] ∧
      state.risk.processedTradeCount = 0 ∧ state.risk.lastRiskAt = none ∧
      state.completedAt = none := by
  simp only [initialState, Except.bind_eq_ok, reject_eq_ok, Except.pure_eq_ok, not_le] at h
  obtain ⟨_, hpositive, rfl⟩ := h
  exact ⟨hpositive, rfl, rfl, rfl, rfl, rfl⟩

/-- A completed candle leaves the holding of a position alone. -/
@[simp] theorem completePosition_holding (position : LivePosition) (bar : ℤ) (high : ℚ)
    (fingerprint : String) :
    (completePosition position bar high fingerprint).holding = position.holding := rfl

section Candle

variable (env : Environment) (settings : Settings) {world : World} {at_ bar finish : ℤ}

/-- The state is opened by quiet steps. -/
theorem openState_follows (check : CandleCheck) (row : Row)
    (balances : Option (Account × Account)) (world : World) :
    Follows Reaches (openState env check row balances)
      (fun state next => next.journal.state = some state) world := by
  refine Follows.read_bind (execute_journalState world) (refl_of Reaches _) fun _ h => ?_
  cases h
  cases hstate : world.journal.state with
  | some state => exact Follows.pure (refl_of Reaches _) hstate
  | none =>
    refine Follows.read_bind (execute_lift _ _) (refl_of Reaches _) fun verified _ => ?_
    refine Follows.read_bind (execute_lift _ _) (refl_of Reaches _) fun state hopen => ?_
    refine Follows.trans_bind (journal_follows env fun journal h => ?_) fun _ opened _ h => ?_
    · obtain ⟨hvalid, rfl⟩ := Journal.write_eq_ok h
      exact .opened hstate hopen hvalid
    · refine Follows.pure (refl_of Reaches _) ?_
      rw [(Journal.write_eq_ok h).2]

/-- A state of the candle that is read again after the monitor is saved. -/
theorem persisted {state : LiveState} {health : HealthSnapshot}
    (hstate : world.journal.state = some state) :
    Follows Reaches (persistHealth env health) (fun _ next =>
      validateState { state with health } = .ok () ∧
        next.journal = { world.journal with state := some { state with health } }) world := by
  refine (persistHealth_follows env health world).weaken (fun _ h => h) fun _ _ _ h => ?_
  simpa only [hstate] using h

/-- A candle that has been consumed before takes quiet steps. -/
theorem replay_follows (check : CandleCheck) (row : Row) (fingerprint : Option String)
    (state : LiveState) (health : HealthSnapshot) (observation : RiskObservation) (world : World) :
    Follows Reaches (replay env settings check row fingerprint state health observation at_)
      (fun _ _ => True) world := by
  refine Follows.trans_bind (persistHealth_follows env _ world) fun _ next _ _ => ?_
  simp only
  split
  · exact Follows.pure (refl_of Reaches _) trivial
  · exact Follows.pure (refl_of Reaches _) trivial

/-- The result of the reducer is stored before anything is submitted. -/
theorem advance_follows {row : Row} {fingerprint : String} {state : LiveState} {equity : ℚ}
    {healthy : Bool} {health : HealthSnapshot} {observation : RiskObservation}
    {balances : Option (Account × Account)} (hclock : world.clock = at_)
    (hstate : world.journal.state = some state) (hpending : world.journal.unresolved = [])
    (hequity : validateState state = .ok () → 0 ≤ equity)
    (hbar : ∀ completed ∈ state.completedAt, completed ≤ bar ∧
      (completed = bar → state.decision.isSome = false)) :
    Follows (Observed settings.riskConfig (some bar) observation.now)
      (advance env settings bar finish row fingerprint state equity healthy health observation
        balances at_) (fun _ _ => True) world := by
  unfold advance
  extract_lets result
  set consumed : RiskObservation := { observation with
    equity, closedTrades := state.closedTrades, systemHealthy := healthy } with hconsumed
  set handed : World := { world with handed := world.handed ++
    [⟨state.closedTrades.drop state.risk.processedTradeCount, result.isOk, false⟩] } with hhanded
  have hhands : Hands settings.riskConfig observation.now world handed :=
    ⟨⟨state, consumed, hstate, hpending, rfl, rfl, hequity, rfl⟩, rfl, rfl, rfl, rfl⟩
  have hlost : ∀ {next}, Reaches handed next →
      Observed settings.riskConfig (some bar) observation.now world next :=
    fun h => .handed (refl_of Reaches _) hhands h
  refine Follows.bind (S := fun _ => Observed settings.riskConfig (some bar) observation.now world)
    (T := fun _ => Observed settings.riskConfig (some bar) observation.now world)
    (M := fun _ next => next = handed) ?_ (fun _ h => h) (fun _ _ _ h => h) ?_
  · refine follows_iff.mpr ⟨?_, fun e next h => by cases h⟩
    rintro _ _ h
    cases h
    exact ⟨hlost (refl_of Reaches _), rfl⟩
  rintro _ _ _ rfl
  cases hresult : result with
  | error e =>
    refine Follows.weaken (S := Reaches) (P := fun _ _ => True) ?_ (fun _ h => hlost h)
      fun _ _ _ _ => trivial
    refine Follows.trans_bind (persistHealth_follows env _ handed) fun _ _ _ _ => ?_
    exact Follows.pure (refl_of Reaches _) trivial
  | ok risk =>
    dsimp -zeta only
    extract_lets
    refine Follows.read_bind (execute_journalPending handed) (hlost (refl_of Reaches _))
      fun pending _ => ?_
    extract_lets decision position advanced returned recovered
    have hagrees : ({ state with risk, completedAt := some bar, decision := some decision }
        : LiveState).Agrees advanced := by
      refine ⟨rfl, ?_, rfl, rfl, rfl, rfl⟩
      simp only [advanced, position, Option.map_map]
      congr 1
      funext held
      simp only [Function.comp]
      split <;> rfl
    have hstores : ∀ n, validateState advanced = .ok () → ∀ journal,
        journal = { world.journal with state := some advanced } →
        Stores settings.riskConfig bar observation.now world { handed with
          accesses := n, journal, handed := handed.handed.dropLast ++
            handed.handed.getLast?.toList.map fun last => { last with committed := true } } := by
      rintro n hvalid _ rfl
      refine ⟨⟨state, consumed, risk, decision, advanced, hstate, hpending, rfl, rfl, hbar, hresult,
        hagrees, hvalid, ?_, rfl⟩, rfl, rfl, rfl⟩
      simp [handed, hresult, Except.isOk, Except.toBool]
    refine Follows.bind (commit_follows env (R := fun _ =>
        Observed settings.riskConfig (some bar) observation.now world)
        (fun n => hlost (reaches_accessed handed n)) fun journal n h => ?_)
      (fun _ h => h) (fun _ _ _ h => h) ?_
    · obtain ⟨hvalid, hjournal⟩ := Journal.write_eq_ok h
      exact .stored rfl (refl_of Reaches _) (hstores n hvalid journal hjournal)
        (.quiet (refl_of Reaches _))
    rintro _ stored _ ⟨journal, n, h, hworld⟩
    obtain ⟨hvalid, hjournal⟩ := Journal.write_eq_ok h
    have hstored := hstores n hvalid journal hjournal
    have hsame : stored = { handed with accesses := n, journal, handed := handed.handed.dropLast ++
        handed.handed.getLast?.toList.map fun last => { last with committed := true } } := hworld
    rw [← hsame] at hstored
    refine Follows.weaken (S := Submitted) (P := fun _ _ => True) ?_
      (fun _ h => .stored rfl (refl_of Reaches _) hstored h) fun _ _ _ _ => trivial
    have hrecovered : ∀ next, Follows Reaches (recovered ⟨⟩) (fun _ _ => True) next := by
      intro next
      simp only [recovered, returned]
      split
      · refine Follows.read_bind (execute_currentHealth next) (refl_of Reaches _) fun _ _ => ?_
        refine Follows.trans_bind (persistHealth_follows env _ next) fun _ _ _ _ => ?_
        exact Follows.pure (refl_of Reaches _) trivial
      · exact Follows.pure (refl_of Reaches _) trivial
    split
    · refine Follows.bind (T := Reaches) (submit_follows env settings ?_) (fun _ h => h)
        (fun _ _ h hlast => h.after hlast) fun _ submitted _ _ => hrecovered submitted
      exact hstored.clock.trans hclock
    · exact (hrecovered stored).weaken (fun _ h => .quiet h) fun _ _ _ _ => trivial

/-- A state that can be saved has no negative cash and no empty position. -/
theorem validateState_sound {state : LiveState} (h : validateState state = .ok ()) :
    0 ≤ state.cash ∧ (∀ position ∈ state.position, 0 < position.quantity) ∧
      validateRisk state.risk state.closedTrades = .ok () := by
  unfold validateState at h
  cases hhealth : HealthSnapshot.fromEventMapping state.health.toMapping with
  | error e => simp [hhealth] at h
  | ok health =>
  simp only [hhealth, Except.bind_eq_ok, reject_eq_ok, not_lt] at h
  obtain ⟨_, _, _, hcash, _, hrisk, hposition⟩ := h
  refine ⟨hcash, ?_, hrisk⟩
  intro position hmem
  rw [Option.mem_def.mp hmem] at hposition
  simp only [validatePosition, Except.bind_eq_ok, reject_eq_ok, not_or, not_le] at hposition
  exact hposition.choose_spec.1.1

/-- A candle that is consumed takes the steps of a candle. -/
theorem consume_follows {row : Row} {fingerprint : String} {state : LiveState}
    {health : HealthSnapshot} {observation : RiskObservation}
    {balances : Option (Account × Account)} (hclock : world.clock = at_)
    (hstate : world.journal.state = some state)
    (hbalances : ∀ found ∈ balances, found.1.Sound ∧ found.2.Sound)
    (hclose : 0 ≤ row.close.getD 0)
    (hbar : ∀ completed ∈ state.completedAt, completed ≤ bar ∧
      (completed = bar → state.decision.isSome = false)) :
    Follows (Observed settings.riskConfig (some bar) observation.now)
      (consume env settings bar finish row fingerprint state health observation balances at_)
      (fun _ _ => True) world := by
  unfold consume
  extract_lets active entry position held close quantity equity healthy cashAvailable overlay rest
  have hcloseEntry : entry.close = row.close := by
    simp only [entry]
    cases active with
    | none => rfl
    | some owned =>
      simp only [Option.map_some, Option.getD_some, entryRow]
      split <;> rfl
  have hholding : position.map (·.holding) = state.position.map (·.holding) := by
    simp only [position, active, Option.map_map]
    congr 1
    funext owned
    simp
  have hrest : ∀ {middle : World}, middle.clock = at_ → middle.journal.state = some held →
      Library.Follows (Observed settings.riskConfig (some bar) observation.now) (rest ⟨⟩)
        (fun _ _ => True) middle := by
    intro middle hmiddle hheld
    simp only [rest]
    have hstay : Observed settings.riskConfig (some bar) observation.now middle middle :=
      .quiet (refl_of Reaches middle)
    refine Follows.read_bind (execute_journalPending middle) hstay fun pending hpending => ?_
    obtain ⟨rfl, _⟩ := Journal.pending_eq_ok hpending
    split
    · exact Follows.pure hstay trivial
    · next hnone =>
      refine advance_follows env settings hmiddle hheld (not_not.mp hnone) ?_ hbar
      intro hvalid
      obtain ⟨hcash, hquantity, _⟩ := validateState_sound hvalid
      have hprice : 0 ≤ close := by simpa only [close, hcloseEntry] using hclose
      simp only [equity, quantity]
      cases hfound : balances with
      | some found =>
        obtain ⟨⟨_, hkrw⟩, _, hbtc⟩ := hbalances found hfound
        exact add_nonneg hkrw (mul_nonneg hbtc hprice)
      | none =>
        refine add_nonneg hcash (mul_nonneg ?_ hprice)
        cases hposition : position with
        | none => exact le_refl _
        | some owned => exact (hquantity owned hposition).le
  split
  · refine Follows.bind (S := Reaches)
      (T := Observed settings.riskConfig (some bar) observation.now)
      (saveState_follows env hstate ?_) (fun _ h => .quiet h)
      (fun _ _ h hlast => hlast.before h) ?_
    · exact ⟨rfl, hholding, rfl, rfl, rfl, rfl⟩
    · rintro _ saved hsaved ⟨_, hjournal⟩
      exact hrest (hsaved.clock.trans hclock) (by rw [hjournal])
  · next hnone =>
    have hposition : position = none := by simpa using hnone
    have hnoPosition : state.position = none := by
      rw [hposition] at hholding
      simpa using hholding.symm
    refine hrest hclock ?_
    rw [hstate]
    simp only [held, hposition, ← hnoPosition]

/-- A valid candle takes the steps of a candle. -/
theorem observeCandle_follows {row : Row} {fingerprint : String} {state : LiveState}
    {health : HealthSnapshot} {observation : RiskObservation}
    {balances : Option (Account × Account)} (hclock : world.clock = at_)
    (hstate : world.journal.state = some state)
    (hbalances : ∀ found ∈ balances, found.1.Sound ∧ found.2.Sound)
    (hclose : 0 ≤ row.close.getD 0)
    (hbar : ∀ completed ∈ state.completedAt, completed ≤ bar ∧
      (completed = bar → state.decision.isSome = false)) :
    Follows (Observed settings.riskConfig (some bar) observation.now)
      (observeCandle env settings bar finish row fingerprint state health observation balances at_)
      (fun _ _ => True) world := by
  have hstay : Observed settings.riskConfig (some bar) observation.now world world :=
    .quiet (refl_of Reaches world)
  unfold observeCandle
  extract_lets completed older changed
  split
  · refine Follows.weaken (S := Reaches) (P := fun _ _ => True) ?_ (fun _ h => .quiet h)
      fun _ _ _ _ => trivial
    refine Follows.trans_bind (persistHealth_follows env _ world) fun _ _ _ _ => ?_
    exact Follows.pure (refl_of Reaches _) trivial
  · split
    · exact Follows.pure hstay trivial
    · exact consume_follows env settings hclock hstate hbalances hclose hbar

/-- A candle that passes its checks has a price. -/
theorem checkCandle_close {candle : Candle} {observedAt : ℤ}
    (h : (checkCandle candle observedAt at_).valid = true) : 0 ≤ candle.row.close.getD 0 := by
  simp only [checkCandle] at h
  split at h
  · next hclose =>
    rw [hclose]
    exact (of_decide_eq_true h).2.2.2.2.1.2.2.2.le
  · cases h

/-- Every candle takes the steps of a candle. -/
theorem processCompletedCandle_follows (candle : Candle) (observation : RiskObservation)
    (world : World) :
    Follows (Observed settings.riskConfig candle.timestamp.instant observation.now)
      (processCompletedCandle env settings candle observation) (fun _ _ => True) world := by
  have hstay : ∀ middle, Observed settings.riskConfig candle.timestamp.instant observation.now
      middle middle := fun middle => .quiet (refl_of Reaches middle)
  unfold processCompletedCandle
  refine Follows.read_bind (execute_get world) (hstay world) fun _ h => ?_
  cases h
  extract_lets at_ check fingerprint checked
  refine Follows.bind (S := Reaches)
    (T := Observed settings.riskConfig candle.timestamp.instant observation.now)
    (reconcile_follows env rfl) (fun _ h => .quiet h) (fun _ _ h hlast => hlast.before h)
    fun balances reconciled hreconciled hbalances => ?_
  refine Follows.bind (S := Reaches)
    (T := Observed settings.riskConfig candle.timestamp.instant observation.now)
    (openState_follows env check candle.row balances reconciled) (fun _ h => .quiet h)
    (fun _ _ h hlast => hlast.before h) fun state opened hopened hstate => ?_
  refine Follows.read_bind (execute_currentHealth opened) (hstay opened) fun stored _ => ?_
  extract_lets monotonic
  refine Follows.read_bind (execute_lift _ _) (hstay opened) fun health _ => ?_
  extract_lets recorded
  split
  · refine Follows.weaken (replay_follows env settings _ _ _ _ _ _ opened) (fun _ h => .quiet h)
      fun _ _ _ _ => trivial
  next hreplay =>
  refine Follows.bind (S := Reaches)
    (T := Observed settings.riskConfig candle.timestamp.instant observation.now)
    (persisted env hstate) (fun _ h => .quiet h) (fun _ _ h hlast => hlast.before h) ?_
  rintro _ saved hsaved ⟨_, hjournal⟩
  refine Follows.read_bind (execute_journalState saved) (hstay saved) fun _ h => ?_
  cases h
  refine Follows.read_bind (execute_lift _ _) (hstay saved) fun current hcurrent => ?_
  rw [require_eq_ok, hjournal] at hcurrent
  obtain rfl := Option.some.inj hcurrent
  split
  · next bar finish fingerprint' hvalid hbarAt _ _ =>
    rw [Bool.and_eq_true, Bool.and_eq_true] at hvalid
    have hinstant : candle.timestamp.instant = some bar := hbarAt
    rw [hinstant]
    refine observeCandle_follows env settings ?_ (by rw [hjournal]) hbalances
      (checkCandle_close hvalid.1.1) ?_
    · rw [hsaved.clock, hopened.clock, hreconciled.clock]
    · intro completed hcompleted
      obtain ⟨_, hordered⟩ := of_decide_eq_true hvalid.2
      obtain ⟨instant, hmem, hle⟩ := hordered completed hcompleted
      obtain rfl : instant = bar := Option.some.inj (hmem.symm.trans hinstant)
      refine ⟨hle, fun hsame => ?_⟩
      by_contra hdecided
      refine hreplay ⟨?_, eq_true_of_ne_false hdecided⟩
      rw [Option.mem_def.mp hcompleted, hsame]
      exact hinstant.symm
  · refine Follows.read_bind (execute_journalPending saved) (hstay saved) fun pending _ => ?_
    exact Follows.pure (hstay saved) trivial

end Candle

/-! ## A run -/

section Runs

variable (env : Environment) (settings : Settings)

/-- The steps that a call may take. -/
def Call.Steps (settings : Settings) : Call → World → World → Prop
  | .reconcile => Reaches
  | .price _ => Submitted
  | .candle supplied observation =>
    Observed settings.riskConfig supplied.timestamp.instant observation.now

/-- A call may leave the world as it is. -/
theorem Call.Steps.refl (call : Call) (world : World) : call.Steps settings world world := by
  cases call with
  | reconcile => exact refl_of Reaches world
  | price observed => exact Submitted.quiet (refl_of Reaches world)
  | candle supplied observation => exact Observed.quiet (refl_of Reaches world)

/-- A call follows its steps, from the reading of the clock on. -/
theorem after_steps (invocation : Invocation) (world : World) :
    invocation.call.Steps settings { world with clock := invocation.at_ }
      (after env settings invocation world) := by
  refine Follows.leaves (R := fun _ => invocation.call.Steps settings
    { world with clock := invocation.at_ }) (P := fun _ _ => True) ?_
  refine Follows.bind (S := fun _ => (· = { world with clock := invocation.at_ }))
    (T := invocation.call.Steps settings) (M := fun _ _ => True) ?_ ?_ (fun _ _ h => h ▸ id) ?_
  · refine follows_iff.mpr ⟨?_, fun e next h => by cases h⟩
    rintro _ _ h
    cases h
    exact ⟨rfl, trivial⟩
  · rintro _ rfl
    exact Call.Steps.refl settings invocation.call _
  rintro _ _ rfl _
  split
  · next hcall =>
    rw [hcall]
    refine Follows.trans_bind (R := Reaches) (reconcile_follows env rfl) fun _ _ _ _ => ?_
    exact Follows.pure (refl_of Reaches _) trivial
  · next observed hcall =>
    rw [hcall]
    exact onPrice_follows env settings observed _
  · next candle observation hcall =>
    rw [hcall]
    refine Follows.bind (R := (Call.candle candle observation).Steps settings)
      (T := fun middle next => next = middle)
      (processCompletedCandle_follows env settings candle observation _) (fun _ h => h)
      (fun _ _ h hsame => hsame ▸ h) fun _ middle _ _ => Follows.pure rfl trivial

/-- A run of two stretches is the second after the first. -/
theorem run_append (first rest : List Invocation) (world : World) :
    run env settings (first ++ rest) world =
      run env settings rest (run env settings first world) :=
  List.foldl_append

/-- What holds at first, whatever the clock reads, and is kept by the steps of every call,
holds of every world that a run reaches. -/
theorem run_induction {P : World → Prop} {world : World} (invocations : List Invocation)
    (hstart : P world) (htick : ∀ world at_, P world → P { world with clock := at_ })
    (hquiet : ∀ world next, P world → Quiet world next → P next)
    (hhands : ∀ now world next, P world → Hands settings.riskConfig now world next → P next)
    (hstores : ∀ bar now world next, P world →
      Stores settings.riskConfig bar now world next → P next)
    (hsubmits : ∀ world next, P world → Submits world next → P next) :
    P (run env settings invocations world) := by
  have hreaches : ∀ {world next}, P world → Reaches world next → P next := by
    intro world next hworld h
    induction h with
    | refl => exact hworld
    | tail _ hstep ih => exact hquiet _ _ ih hstep
  have hsubmitted : ∀ {world next}, P world → Submitted world next → P next := by
    intro world next hworld h
    cases h with
    | quiet h => exact hreaches hworld h
    | submitted hfirst h hlast =>
      exact hreaches (hsubmits _ _ (hreaches hworld hfirst) h) hlast
  induction invocations generalizing world with
  | nil => exact hstart
  | cons invocation invocations ih =>
    refine ih ?_
    have hticked := htick world invocation.at_ hstart
    have hsteps := after_steps env settings invocation world
    cases hcall : invocation.call with
    | reconcile =>
      rw [hcall] at hsteps
      exact hreaches hticked hsteps
    | price observed =>
      rw [hcall] at hsteps
      exact hsubmitted hticked hsteps
    | candle candle observation =>
      rw [hcall] at hsteps
      cases hsteps with
      | quiet h => exact hreaches hticked h
      | handed hfirst h hlast => exact hreaches (hhands _ _ _ (hreaches hticked hfirst) h) hlast
      | stored _ hfirst h hlast =>
        exact hsubmitted (hstores _ _ _ _ (hreaches hticked hfirst) h) hlast

end Runs

end AutoBit.Live
