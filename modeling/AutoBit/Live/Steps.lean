import AutoBit.Library.CostBasis
import AutoBit.Live.Candle
import Mathlib.Logic.Relation

/-!
# The steps of a run

Whatever a call does to the world is one of four steps. A quiet step changes the journal by
what the venue reported or what protects the position, or not at all. A candle hands the new
trades to the risk reducer, whose result is stored or lost. A submission commits a new intent
and sends it at most once. The shape of a call says in which order its steps come.
-/

namespace AutoBit.Live

open Library Health Risk Strategy

/-! ## The journal -/

section Journal

variable {journal journal' : Journal} {state : LiveState} {intent other : LiveIntent}

/-- A pending intent is the only one. -/
theorem Journal.pending_eq_ok {pending : List LiveIntent} (h : journal.pending = .ok pending) :
    pending = journal.unresolved ∧ pending.length ≤ 1 := by
  simp only [Journal.pending, Except.bind_eq_ok, reject_eq_ok, Except.pure_eq_ok, not_lt] at h
  obtain ⟨_, hlength, rfl⟩ := h
  exact ⟨rfl, hlength⟩

/-- What is written of an intent keeps its identity and the time of its creation. -/
def LiveIntent.key (intent : LiveIntent) : String × ℤ := (intent.identifier, intent.createdAt)

/-- An update succeeds with a valid state and intent, one row of which it replaces. -/
theorem Journal.update_eq_ok (h : journal.update state intent = .ok journal') :
    validateState state = .ok () ∧ validateIntent intent = .ok () ∧
      (journal.intents.filter fun other => other.identifier = intent.identifier).length = 1 ∧
      journal' = ⟨some state, journal.replaced intent⟩ := by
  simp only [Journal.update, Except.bind_eq_ok, reject_eq_ok, Except.pure_eq_ok, not_not] at h
  obtain ⟨_, hstate, _, hintent, _, hone, rfl⟩ := h
  exact ⟨hstate, hintent, hone, rfl⟩

/-- A write succeeds with a valid state, which it replaces. -/
theorem Journal.write_eq_ok (h : journal.write state = .ok journal') :
    validateState state = .ok () ∧ journal' = { journal with state := some state } := by
  simp only [Journal.write, Except.bind_eq_ok, Except.pure_eq_ok] at h
  obtain ⟨_, hstate, rfl⟩ := h
  exact ⟨hstate, rfl⟩

/-- An insertion succeeds with a valid state and intent when nothing is pending. -/
theorem Journal.insert_eq_ok (h : journal.insert state intent = .ok journal') :
    validateState state = .ok () ∧ validateIntent intent = .ok () ∧ journal.unresolved = [] ∧
      (∀ other ∈ journal.intents, other.identifier ≠ intent.identifier) ∧
      journal' = ⟨some state, journal.intents ++ [intent]⟩ := by
  simp only [Journal.insert, Except.bind_eq_ok, reject_eq_ok, Except.pure_eq_ok, not_not,
    not_exists, not_and] at h
  obtain ⟨_, hstate, _, hintent, pending, hpending, _, rfl, _, hfresh, rfl⟩ := h
  exact ⟨hstate, hintent, (Journal.pending_eq_ok hpending).1.symm, hfresh, rfl⟩

/-- The intents around the only pending one are terminal, and have other identifiers when only
one has its identifier. -/
theorem Journal.around (hpending : journal.unresolved = [intent])
    (hone : (journal.intents.filter fun item => item.identifier = intent.identifier).length = 1) :
    ∃ before rest, journal.intents = before ++ intent :: rest ∧ intent.terminal = false ∧
      ∀ item ∈ before ++ rest, item.terminal = true ∧ item.identifier ≠ intent.identifier := by
  obtain ⟨before, rest, hintents, hbefore, hintent, hrest⟩ :=
    List.filter_eq_cons_iff.mp hpending
  have hlast := List.filter_eq_nil_iff.mp hrest
  refine ⟨before, rest, hintents, by simpa using hintent, ?_⟩
  rw [hintents, List.filter_append, List.filter_cons_of_pos (by simp), List.length_append,
    List.length_cons] at hone
  have hnone : (before ++ rest).filter (fun item => item.identifier = intent.identifier) = [] := by
    rw [← List.length_eq_zero_iff, List.filter_append, List.length_append]
    omega
  intro item hitem
  refine ⟨?_, by simpa using List.filter_eq_nil_iff.mp hnone item hitem⟩
  rcases List.mem_append.mp hitem with hmem | hmem
  · simpa using hbefore item hmem
  · simpa using hlast item hmem

/-- An update of the pending intent replaces it, and nothing else. -/
theorem Journal.replaced_eq (hpending : journal.unresolved = [intent])
    (hidentifier : other.identifier = intent.identifier)
    (hone : (journal.intents.filter fun item => item.identifier = other.identifier).length = 1) :
    ∃ before rest, journal.intents = before ++ intent :: rest ∧
      journal.replaced other = before ++ other :: rest ∧
      ∀ item ∈ before ++ rest, item.terminal = true := by
  rw [hidentifier] at hone
  obtain ⟨before, rest, hintents, _, haround⟩ := Journal.around hpending hone
  refine ⟨before, rest, hintents, ?_, fun item hitem => (haround item hitem).1⟩
  have hkept : ∀ items ⊆ before ++ rest,
      items.map (fun item => if item.identifier = other.identifier then other else item) =
        items := by
    intro items hitems
    refine (List.map_congr_left fun item hitem => ?_).trans (List.map_id _)
    rw [if_neg (by rw [hidentifier]; exact (haround item (hitems hitem)).2), id]
  rw [Journal.replaced, hintents, List.map_append, List.map_cons, if_pos hidentifier.symm,
    hkept before (List.subset_append_left _ _), hkept rest (List.subset_append_right _ _)]

/-- After an update of the pending intent, it is pending exactly when it is not terminal. -/
theorem Journal.unresolved_updated (hpending : journal.unresolved = [intent])
    (h : journal.update state other = .ok journal')
    (hidentifier : other.identifier = intent.identifier) :
    journal'.unresolved = if other.terminal then [] else [other] := by
  obtain ⟨_, _, hone, rfl⟩ := Journal.update_eq_ok h
  obtain ⟨before, rest, _, hreplaced, haround⟩ := Journal.replaced_eq hpending hidentifier hone
  have hnone : ∀ items ⊆ before ++ rest,
      items.filter (fun intent : LiveIntent => !intent.terminal) = [] := by
    intro items hitems
    exact List.filter_eq_nil_iff.mpr fun item hitem => by simp [haround item (hitems hitem)]
  simp only [Journal.unresolved, hreplaced, List.filter_append, List.filter_cons,
    hnone before (List.subset_append_left _ _), hnone rest (List.subset_append_right _ _)]
  cases other.terminal <;> simp

end Journal

/-! ## The steps -/

/-- What a position holds and has earned, without its protection. -/
def LivePosition.holding (position : LivePosition) : Holding ℚ :=
  ⟨position.quantity, position.entryPrice, position.costBasis, position.realizedPnl⟩

/-- Two states that differ at most in the monitor and in the protection of the position. -/
structure LiveState.Agrees (state other : LiveState) : Prop where
  cash : other.cash = state.cash
  holding : other.position.map (·.holding) = state.position.map (·.holding)
  closedTrades : other.closedTrades = state.closedTrades
  risk : other.risk = state.risk
  completedAt : other.completedAt = state.completedAt
  decision : other.decision = state.decision

/-- A change of the journal by what was reported or observed. -/
inductive JournalStep (reports : List VenueOrder) (clock : ℤ) (journal : Journal) : Journal → Prop
  | observed {state other : LiveState} (hstate : journal.state = some state)
      (hagrees : state.Agrees other) (hvalid : validateState other = .ok ()) :
      JournalStep reports clock journal { journal with state := some other }
  | opened {balances : Account × Account} {close : ℚ} {state : LiveState}
      (hnone : journal.state = none) (hopen : initialState balances close = .ok state)
      (hvalid : validateState state = .ok ()) :
      JournalStep reports clock journal { journal with state := some state }
  | settled {state : LiveState} {intent : LiveIntent} {actual : VenueOrder}
      {settled : LiveState × LiveIntent} {journal' : Journal} (hstate : journal.state = some state)
      (hpending : journal.unresolved = [intent]) (hreported : actual ∈ reports)
      (hconsistent : actual.Consistent)
      (hsettled : settleOrder state intent actual clock = .ok settled)
      (hupdate : journal.update settled.1 settled.2 = .ok journal') :
      JournalStep reports clock journal journal'
  | marked {state : LiveState} {intent : LiveIntent} {uuid : Option String} {cancelled : Bool}
      {journal' : Journal} (hstate : journal.state = some state)
      (hpending : journal.unresolved = [intent])
      (hupdate : journal.update state { intent with
        venueUuid := uuid, cancelRequested := cancelled } = .ok journal') :
      JournalStep reports clock journal journal'

/-- A step that sends nothing and hands nothing to the reducer. -/
structure Quiet (world next : World) : Prop where
  journal : next.journal = world.journal ∨
    JournalStep world.reports world.clock world.journal next.journal
  clock : next.clock = world.clock
  sends : next.sends = world.sends
  reports : world.reports <+: next.reports
  handed : next.handed = world.handed

/-- Any number of quiet steps. -/
def Reaches : World → World → Prop := Relation.ReflTransGen Quiet

instance : Std.Refl Reaches := ⟨fun _ => .refl⟩

instance : IsTrans World Reaches := ⟨fun _ _ _ => Relation.ReflTransGen.trans⟩

/-- A candle hands the new trades to the reducer, and its result is not stored. -/
structure Hands (config : RiskConfig) (now : ℤ) (world next : World) : Prop where
  handed : ∃ state observation, world.journal.state = some state ∧
    world.journal.unresolved = [] ∧ observation.now = now ∧
    observation.closedTrades = state.closedTrades ∧
    (validateState state = .ok () → 0 ≤ observation.equity) ∧
    next.handed = world.handed ++ [⟨state.closedTrades.drop state.risk.processedTradeCount,
      (advanceRiskState state.risk observation config).isOk, false⟩]
  journal : next.journal = world.journal
  clock : next.clock = world.clock
  sends : next.sends = world.sends
  reports : next.reports = world.reports

/-- A candle hands the new trades to the reducer, and its result is stored. -/
structure Stores (config : RiskConfig) (bar now : ℤ) (world next : World) : Prop where
  stored : ∃ state observation risk decision advanced, world.journal.state = some state ∧
    world.journal.unresolved = [] ∧ observation.now = now ∧
    observation.closedTrades = state.closedTrades ∧
    (∀ completed ∈ state.completedAt, completed ≤ bar ∧
      (completed = bar → state.decision.isSome = false)) ∧
    advanceRiskState state.risk observation config = .ok risk ∧
    ({ state with risk, completedAt := some bar, decision := some decision }).Agrees advanced ∧
    validateState advanced = .ok () ∧
    next.handed = world.handed ++
      [⟨state.closedTrades.drop state.risk.processedTradeCount, true, true⟩] ∧
    next.journal = { world.journal with state := some advanced }
  clock : next.clock = world.clock
  sends : next.sends = world.sends
  reports : next.reports = world.reports

/-- A new intent is committed, and sent at most once. -/
structure Submits (world next : World) : Prop where
  inserted : ∃ state other identifier side amount referencePrice entryAtr initialAtrMult,
    let intent : LiveIntent := {
      identifier, side, amount, referencePrice, entryAtr, initialAtrMult
      createdAt := world.clock }
    world.journal.state = some state ∧ state.Agrees other ∧
    world.journal.insert other intent = .ok next.journal ∧
    (next.sends = world.sends ∨
      next.sends = world.sends ++ [⟨identifier, side, amount, next.journal⟩])
  clock : next.clock = world.clock
  reports : next.reports = world.reports
  handed : next.handed = world.handed

/-! ## The shape of a call -/

/-- Quiet steps with at most one submission among them. -/
inductive Submitted (world next : World) : Prop
  | quiet (h : Reaches world next)
  | submitted {first second : World} (hfirst : Reaches world first)
      (hsubmits : Submits first second) (hlast : Reaches second next)

/-- What a candle does: it consumes the new trades at most once, and submits only after the
result of the reducer is stored. -/
inductive Observed (config : RiskConfig) (bar : Option ℤ) (now : ℤ) (world next : World) : Prop
  | quiet (h : Reaches world next)
  | handed {first second : World} (hfirst : Reaches world first)
      (hhands : Hands config now first second) (hlast : Reaches second next)
  | stored {first second : World} {instant : ℤ} (hbar : bar = some instant)
      (hfirst : Reaches world first) (hstores : Stores config instant now first second)
      (hlast : Submitted second next)

/-- Quiet steps may come before a submission. -/
theorem Submitted.before {world middle next : World} (h : Reaches world middle)
    (hrest : Submitted middle next) : Submitted world next := by
  cases hrest with
  | quiet hlast => exact .quiet (h.trans hlast)
  | submitted hfirst hsubmits hlast => exact .submitted (h.trans hfirst) hsubmits hlast

/-- Quiet steps may come after a submission. -/
theorem Submitted.after {world middle next : World} (h : Submitted world middle)
    (hrest : Reaches middle next) : Submitted world next := by
  cases h with
  | quiet hfirst => exact .quiet (hfirst.trans hrest)
  | submitted hfirst hsubmits hlast => exact .submitted hfirst hsubmits (hlast.trans hrest)

/-- Quiet steps may come before the steps of a candle. -/
theorem Observed.before {config : RiskConfig} {bar : Option ℤ} {now : ℤ}
    {world middle next : World} (h : Reaches world middle)
    (hrest : Observed config bar now middle next) : Observed config bar now world next := by
  cases hrest with
  | quiet hlast => exact .quiet (h.trans hlast)
  | handed hfirst hhands hlast => exact .handed (h.trans hfirst) hhands hlast
  | stored hbar hfirst hstores hlast => exact .stored hbar (h.trans hfirst) hstores hlast

end AutoBit.Live
