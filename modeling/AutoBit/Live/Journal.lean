import AutoBit.Health.Persistence
import AutoBit.Live.Client
import AutoBit.Risk.Policy
import AutoBit.Strategy.Engine

/-!
# The live journal

One row holds the live state, and one row for each intent what the venue has confirmed of it.
Both are validated before they are written, in one transaction. What is read back is what
was written.
-/

namespace AutoBit.Live

open Library Health Risk Strategy

/-- `LivePosition`. -/
structure LivePosition where
  quantity : ℚ
  entryPrice : ℚ
  entryAtr : ℚ
  initialAtrMult : ℚ
  entryAt : ℤ
  initialStop : ℚ
  currentStop : ℚ
  highWater : ℚ
  heldBars : ℕ
  costBasis : ℚ
  realizedPnl : ℚ := 0
  pendingStop : Option ℚ := none
  pendingStopAt : Option ℤ := none
  completedBarAt : Option ℤ := none
  completedBarFingerprint : Option String := none
  deriving DecidableEq, Repr

/-- `LiveIntent`. -/
structure LiveIntent where
  identifier : String
  side : Side
  amount : ℚ
  referencePrice : ℚ
  entryAtr : ℚ
  initialAtrMult : ℚ
  createdAt : ℤ
  quantity : ℚ := 0
  funds : ℚ := 0
  fee : ℚ := 0
  venueUuid : Option String := none
  terminal : Bool := false
  cancelRequested : Bool := false
  deriving DecidableEq, Repr

/-- `LiveState`. -/
structure LiveState where
  cash : ℚ
  position : Option LivePosition
  risk : RiskState
  health : HealthSnapshot
  closedTrades : List ClosedTrade := []
  completedAt : Option ℤ := none
  decision : Option Decision := none
  candleFingerprint : Option String := none
  deriving DecidableEq, Repr

/-- `[A-Za-z0-9_-]{1,64}`. -/
def isIdentifier (text : String) : Bool :=
  0 < text.length && text.length ≤ 64 && text.toList.all fun c =>
    ('A' ≤ c && c ≤ 'Z') || ('a' ≤ c && c ≤ 'z') || ('0' ≤ c && c ≤ '9') || c = '_' || c = '-'

/-- `[0-9a-f]{64}`. -/
def isFingerprint (text : String) : Bool :=
  text.length = 64 && text.toList.all fun c => ('0' ≤ c && c ≤ '9') || ('a' ≤ c && c ≤ 'f')

/-- The checks of `_intent`. -/
def validateIntent (intent : LiveIntent) : Except LiveError Unit :=
  reject (isIdentifier intent.identifier = false ∨
      (intent.amount < 0 ∨ intent.quantity < 0 ∨ intent.funds < 0 ∨ intent.fee < 0) ∨
      intent.amount = 0 ∨ intent.referencePrice ≤ 0 ∨
      (intent.side = .ask ∧ intent.amount < intent.quantity) ∨
      (intent.side = .bid ∧ intent.amount < intent.funds))
    (.journal "Invalid intent facts")

/-- The checks of `_state` on its risk state and its trades. -/
def validateRisk (risk : RiskState) (closedTrades : List ClosedTrade) : Except LiveError Unit := do
  reject (risk.initialEquity < 0 ∨ risk.equityPeak < 0 ∨ risk.dailyBaselineEquity < 0 ∨
      risk.lastEquity < 0) (.journal "Invalid risk baseline")
  reject (risk.equityPeak < max risk.initialEquity risk.lastEquity)
    (.journal "Risk peak contradicts equity facts")
  reject (closedTrades.length < risk.processedTradeCount)
    (.journal "Risk cursor exceeds factual trades")
  reject (¬closedTrades.IsChain fun a b => a.exitTime ≤ b.exitTime)
    (.journal "Reversed factual trades")
  reject (∃ item ∈ risk.equityHistory, item.2 < 0) (.journal "Invalid equity history")
  reject (¬risk.equityHistory.IsChain fun a b => a.1 < b.1) (.journal "Reversed equity history")
  reject (∃ item ∈ risk.equityHistory.getLast?,
      some item.1 ≠ risk.lastRiskAt ∨ item.2 ≠ risk.lastEquity)
    (.journal "Contradictory last risk observation")

/-- The checks of `_state` on a position. -/
def validatePosition (position : LivePosition) : Except LiveError Unit := do
  reject (position.quantity ≤ 0 ∨ position.costBasis < 0 ∨
      (position.entryPrice ≤ 0 ∨ position.entryAtr ≤ 0 ∨ position.initialAtrMult ≤ 0 ∨
        position.initialStop ≤ 0 ∨ position.currentStop ≤ 0 ∨ position.highWater ≤ 0) ∨
      position.entryPrice ≤ position.initialStop ∨ position.currentStop < position.initialStop ∨
      position.highWater < position.entryPrice ∨
      (position.pendingStop.isNone ≠ position.pendingStopAt.isNone) ∨
      ∃ stop ∈ position.pendingStop, stop < position.currentStop)
    (.journal "Invalid position facts")
  reject (position.completedBarAt.isNone ≠ position.completedBarFingerprint.isNone ∨
      ∃ text ∈ position.completedBarFingerprint, isFingerprint text = false)
    (.journal "Invalid position candle provenance")

/-- The checks of `_state`. -/
def validateState (state : LiveState) : Except LiveError Unit := do
  match HealthSnapshot.fromEventMapping state.health.toMapping with
  | .ok _ => .ok ()
  | .error _ => .error (.value "health")
  reject (state.cash < 0) (.journal "Invalid live cash")
  validateRisk state.risk state.closedTrades
  match state.position with
  | some position => validatePosition position
  | none => .ok ()

/-- The two tables of the journal. -/
structure Journal where
  state : Option LiveState := none
  intents : List LiveIntent := []

/-- `LiveJournal.pending` before its check that there is at most one. -/
def Journal.unresolved (journal : Journal) : List LiveIntent :=
  journal.intents.filter fun intent => !intent.terminal

/-- `LiveJournal.pending`. -/
def Journal.pending (journal : Journal) : Except LiveError (List LiveIntent) := do
  reject (1 < journal.unresolved.length) (.journal "Multiple unresolved intents")
  return journal.unresolved

/-- `UPDATE live_intents ... WHERE identifier=?`. -/
def Journal.replaced (journal : Journal) (intent : LiveIntent) : List LiveIntent :=
  journal.intents.map fun other => if other.identifier = intent.identifier then intent else other

/-- The transaction of `LiveJournal.save` that inserts a new intent. -/
def Journal.insert (journal : Journal) (state : LiveState) (intent : LiveIntent) :
    Except LiveError Journal := do
  validateState state
  validateIntent intent
  reject ((← journal.pending) ≠ []) (.journal "An unresolved intent already exists")
  reject (∃ other ∈ journal.intents, other.identifier = intent.identifier)
    (.storage "UNIQUE constraint failed: live_intents.identifier")
  return ⟨some state, journal.intents ++ [intent]⟩

/-- The transaction of `LiveJournal.save` that updates an intent. -/
def Journal.update (journal : Journal) (state : LiveState) (intent : LiveIntent) :
    Except LiveError Journal := do
  validateState state
  validateIntent intent
  reject ((journal.intents.filter fun other => other.identifier = intent.identifier).length ≠ 1)
    (.journal "Missing durable intent")
  return ⟨some state, journal.replaced intent⟩

/-- `LiveJournal.save` without an intent. -/
def Journal.write (journal : Journal) (state : LiveState) : Except LiveError Journal := do
  validateState state
  return { journal with state := some state }

end AutoBit.Live
