import AutoBit.Library.Triple
import AutoBit.Live.Orders

/-!
# The live service

The service reconciles its pending intent with the venue, processes completed candles and
protects its position on observed prices. What the venue answers, whether a transaction
commits and when the process dies is up to the environment, one answer for each access. The
world records, beside the journal, the orders that were sent, the facts that the venue
reported and the trades that were handed to the risk reducer.
-/

namespace AutoBit.Live

open Library Health Risk Strategy

/-- The answer of the venue to a request. -/
inductive Response (α : Type) where
  | answer (a : α)
  | failed (message : String)
  | crash

/-- What the caller of a request sees. -/
def Response.outcome {α : Type} : Response α → Except LiveError α
  | answer a => .ok a
  | failed message => .error (.request message)
  | crash => .error .crash

/-- What becomes of a transaction. -/
inductive Fate where
  | committed
  | refused (message : String)
  | crashedBefore
  | crashedAfter
  deriving DecidableEq, Repr

/-- Whether the writes of the transaction are in the file. -/
def Fate.isDurable : Fate → Bool
  | committed | crashedAfter => true
  | _ => false

/-- What the caller of the transaction sees. -/
def Fate.outcome : Fate → Except LiveError Unit
  | committed => .ok ()
  | refused message => .error (.storage message)
  | _ => .error .crash

/-- The answers of everything outside the process, by the number of the access. -/
structure Environment where
  orders : ℕ → Response RawOrder
  placements : ℕ → Response RawOrder
  cancels : ℕ → Response RawOrder
  accounts : ℕ → Response (List RawAccount)
  chances : ℕ → Response RawChance
  fates : ℕ → Fate
  uuid4 : ℕ → String

/-- An order that was sent, with the journal at the time. -/
structure Send where
  identifier : String
  side : Side
  amount : ℚ
  journal : Journal

/-- Trades handed to the risk reducer, whether it accepted them, and whether its result was
committed. -/
structure Handing where
  trades : List ClosedTrade
  accepted : Bool
  committed : Bool
  deriving DecidableEq, Repr

/-- The journal, the clock, the number of accesses so far, and what was sent, reported and
handed over. -/
structure World where
  journal : Journal := {}
  clock : ℤ := 0
  accesses : ℕ := 0
  sends : List Send := []
  reports : List VenueOrder := []
  handed : List Handing := []

/-- A computation of the service. -/
abbrev Process := Stateful LiveError World

/-- What the service is configured with: the strategy and its costs, the period of the risk
limits, and the digest of a candle, which some rows do not have. -/
structure Settings where
  strategy : StrategyConfig := {}
  costs : CostConfig := {}
  riskConfig : RiskConfig := {}
  fingerprint : Option ℤ → Row → Option String

/-- The timestamp of a row. -/
inductive BarTime where
  | absent
  | naive
  | aware (instant : ℤ) (utc : Bool)
  deriving DecidableEq, Repr

/-- The instant of an aware timestamp. -/
def BarTime.instant : BarTime → Option ℤ
  | aware instant _ => some instant
  | _ => none

/-- A completed candle as the caller supplies it. -/
structure Candle where
  timestamp : BarTime
  row : Row
  deriving DecidableEq, Repr

/-- A decision, or the deferral of a candle that ended before the entry. -/
inductive Outcome where
  | decided (decision : Decision)
  | deferred (risk : RiskDecision)
  deriving DecidableEq, Repr

/-- The number of the next access. -/
def access : Process ℕ := do
  let world ← get
  modify fun world => { world with accesses := world.accesses + 1 }
  return world.accesses

/-- A request to the venue. -/
def request {α : Type} (answers : ℕ → Response α) : Process α := do
  let n ← access
  liftM (answers n).outcome

/-- `self.journal.state()`. -/
def journalState : Process (Option LiveState) := do
  let world ← get
  return world.journal.state

/-- `self.journal.pending()`. -/
def journalPending : Process (List LiveIntent) := do
  let world ← get
  liftM world.journal.pending

/-- `self.journal.pending()[0]`. -/
def firstPending : Process LiveIntent := do
  let pending ← journalPending
  liftM (require pending.head? (LiveError.value "tuple index out of range"))

/-- `LiveService._health`. -/
def currentHealth : Process HealthSnapshot := do
  let state ← journalState
  return (state.map (·.health)).getD {}

section Transactions

variable (env : Environment)

/-- A transaction of the journal, and what else is recorded with it. -/
def commit (change : Journal → Except LiveError Journal) (record : World → World) : Process Unit := do
  let world ← get
  let journal ← liftM (change world.journal)
  let n ← access
  modify fun world =>
    if (env.fates n).isDurable then record { world with journal } else world
  liftM (env.fates n).outcome

/-- `self.journal.save(state)`. -/
def saveState (state : LiveState) : Process Unit := commit env (·.write state) id

/-- `self.journal.save(state, intent)`. -/
def saveIntent (state : LiveState) (intent : LiveIntent) : Process Unit :=
  commit env (·.update state intent) id

/-- `self.journal.save(state, intent, new_intent=True)`. -/
def saveNewIntent (state : LiveState) (intent : LiveIntent) : Process Unit :=
  commit env (·.insert state intent) id

/-- `LiveService._persist_health`. -/
def persistHealth (health : HealthSnapshot) : Process Unit := do
  match ← journalState with
  | some state => saveState env { state with health }
  | none => pure ()

/-- `LiveService._failure`. -/
def failure (error : LiveError) (at_ : ℤ) : Process Unit := do
  let health := recordApiFailure (← currentHealth) at_
  let health := if error.isResponse then recordSchemaCheck health false at_ else health
  let pending ← journalPending
  persistHealth env (setUnresolvedOrders health pending.length (some at_))

end Transactions

section Reconciliation

variable (env : Environment)

/-- `LiveClient.get_order`. -/
def getOrder (identifier : String) : Process VenueOrder := do
  let data ← request env.orders
  let actual ← liftM (order data identifier none true)
  modify fun world => { world with reports := world.reports ++ [actual] }
  return actual

/-- `LiveClient.cancel_order`. -/
def cancelOrder (identifier : String) : Process VenueOrder := do
  let data ← request env.cancels
  liftM (order data identifier none false)

/-- `LiveService._apply_order`. -/
def applyOrder (intent : LiveIntent) (actual : VenueOrder) (at_ : ℤ) : Process Unit := do
  let state ← journalState
  let state ← liftM (require state (LiveError.journal "Intent has no live state"))
  let settled ← liftM (settleOrder state intent actual at_)
  saveIntent env settled.1 settled.2

/-- The cancellation of a bid that is filled in part. -/
def cancelRemainder (identifier : String) (at_ : ℤ) : Process Unit := do
  let updated ← firstPending
  let state ← journalState
  let state ← liftM (require state (LiveError.journal "Intent has no live state"))
  saveIntent env state { updated with cancelRequested := true }
  let _ ← cancelOrder env identifier
  let current ← firstPending
  let actual ← getOrder env identifier
  applyOrder env current actual at_

/-- One round of the loop of `_reconcile`. -/
def reconcileIntent (at_ : ℤ) (intent : LiveIntent) : Process Unit := do
  let actual ← getOrder env intent.identifier
  applyOrder env intent actual at_
  if actual.terminal = false ∧ actual.side = .bid ∧ 0 < actual.executedVolume then
    cancelRemainder env intent.identifier at_

/-- `_balances`. -/
def balancesOf (accounts : List Account) : Account × Account :=
  let balance (currency : String) :=
    (accounts.find? fun account => account.currency = currency).getD ⟨currency, 0, 0⟩
  (balance "KRW", balance "BTC")

/-- What an account holds, locked or not. -/
def Account.total (account : Account) : ℚ := account.balance + account.locked

/-- `_nonnegative_number` of a ledger value. -/
def ledgerValue (value : ℚ) : Except LiveError Unit := do
  reject (¬InRange value) (.value "ledger values must be finite")
  reject (¬isNonnegativeNumber value) (.value "ledger values must be non-negative")

/-- `record_ledger_check` of the service. What it raises for a value that is not finite or
negative is no request error, so the monitor is not saved with it. -/
def ledgerHealth (health : HealthSnapshot) (state : LiveState) (balances : Account × Account)
    (at_ : ℤ) : Except LiveError HealthSnapshot := do
  let storedBtc := (state.position.map (·.quantity)).getD 0
  [state.cash, balances.1.total, storedBtc, balances.2.total].forM ledgerValue
  return recordLedgerCheck health state.cash balances.1.total storedBtc balances.2.total (some at_)

/-- The body of `_reconcile`. -/
def reconcileBody (at_ : ℤ) : Process (Option (Account × Account)) := do
  let pending ← journalPending
  pending.forM (reconcileIntent env at_)
  let data ← request env.accounts
  let accounts ← liftM (readAccounts data)
  let balances := balancesOf accounts
  let health := recordApiSuccess (← currentHealth) at_
  let pending ← journalPending
  let health := setUnresolvedOrders health pending.length (some at_)
  match ← journalState with
  | some state => persistHealth env (← liftM (ledgerHealth health state balances at_))
  | none => pure ()
  return some balances

/-- `LiveService._reconcile`. -/
def reconcile (at_ : ℤ) : Process (Option (Account × Account)) :=
  recover (reconcileBody env at_) fun error =>
    if error.isRequest then some do
      failure env error at_
      return none
    else none

end Reconciliation

section Submission

variable (env : Environment) (settings : Settings)

/-- `LiveClient.place_market_buy` and `LiveClient.place_market_sell`. -/
def placeMarket (intent : LiveIntent) : Process VenueOrder := do
  modify fun world => { world with
    sends := world.sends ++ [⟨intent.identifier, intent.side, intent.amount, world.journal⟩] }
  liftM (reject (isIdentifier intent.identifier = false)
    (LiveError.value "Invalid client identifier"))
  liftM (reject (intent.amount ≤ 0)
    (LiveError.value "Order amount must be a positive finite Decimal"))
  let data ← request env.placements
  let result ← liftM (order data intent.identifier (some intent.side) false)
  match intent.side with
  | .bid => liftM (reject (result.price ≠ some intent.amount)
      (LiveError.response "Mismatched buy amount"))
  | .ask => liftM (reject (result.volume ≠ some intent.amount)
      (LiveError.response "Mismatched sell volume"))
  return result

/-- A decision to trade: the side and the quantity. -/
structure Trade where
  side : Side
  quantity : ℚ
  deriving DecidableEq, Repr

/-- The trade of a decision to buy or to sell. -/
def tradeOf (decision : Decision) : Option Trade :=
  match decision.action with
  | .hold => none
  | .buy _ quantity => some ⟨.bid, quantity⟩
  | .sell _ quantity => some ⟨.ask, quantity⟩

/-- The amount of an order, when `_submit` does not return before it has one. -/
def orderAmount (state : LiveState) (trade : Trade) (price entryAtr : ℚ) (chance : OrderChance)
    (balances : Account × Account) : Option ℚ :=
  match trade.side, state.position with
  | .bid, some _ => none
  | .bid, none =>
    if (action state.health).haltEntries then none
    else
      let budget := min (trade.quantity * price)
        (min (balances.1.balance / (1 + chance.bidFee)) chance.maxTotal)
      let amount : ℚ := ⌊budget⌋
      if amount < chance.bidMinTotal ∨ entryAtr ≤ 0 then none else some amount
  | .ask, none => none
  | .ask, some position =>
    let volume := min (min trade.quantity position.quantity) balances.2.balance
    let amount : ℚ := ⌊volume * 100000000⌋ / 100000000
    if amount * price < chance.askMinTotal ∨ chance.maxTotal < amount * price then none
    else some amount

/-- The body of `_submit` once there is an amount: the intent is committed, then sent once. -/
def sendIntent (state : LiveState) (intent : LiveIntent) (at_ : ℤ) : Process Unit := do
  let health := setUnresolvedOrders state.health 1 (some at_)
  saveNewIntent env { state with health } intent
  let acknowledgement ← placeMarket env intent
  let state ← journalState
  let state ← liftM (require state (LiveError.journal "Intent has no live state"))
  saveIntent env state { intent with venueUuid := some acknowledgement.uuid }

/-- The body of `_submit`. -/
def submitBody (state : LiveState) (trade : Trade) (price entryAtr : ℚ) (at_ : ℤ)
    (balances : Account × Account) : Process Unit := do
  let data ← request env.chances
  let chance ← liftM (readChance data)
  liftM (reject (chance.bidAccount ≠ balances.1 ∨ chance.askAccount ≠ balances.2)
    (LiveError.response "Order chance balance changed; reconcile before submission"))
  match orderAmount state trade price entryAtr chance balances with
  | none => pure ()
  | some amount =>
    let n ← access
    sendIntent env state {
      identifier := env.uuid4 n
      side := trade.side
      amount
      referencePrice := price
      entryAtr
      initialAtrMult := settings.strategy.initialAtrMult
      createdAt := at_ } at_

/-- `LiveService._submit`. -/
def submit (trade : Trade) (price entryAtr : ℚ) (at_ : ℤ) (balances : Account × Account) :
    Process Unit := do
  let pending ← journalPending
  let state ← journalState
  match state with
  | none => pure ()
  | some state =>
    if pending ≠ [] ∨ price ≤ 0 ∨ trade.quantity ≤ 0 then pure ()
    else
      recover (submitBody env settings state trade price entryAtr at_ balances) fun error =>
        if error.isRequest then some (failure env error at_) else none

end Submission

/-- `_context`. -/
def contextOf (position : LivePosition) : PositionContext where
  entryPrice := position.entryPrice
  initialStop := position.initialStop
  currentStop := position.currentStop
  highWater := position.highWater
  quantity := position.quantity
  heldBars := position.heldBars

/-- `LiveService._activate` for a position. -/
def activate (position : LivePosition) (at_ : ℤ) : LivePosition :=
  match position.pendingStop, position.pendingStopAt with
  | some stop, some since =>
    if since ≤ at_ then
      { position with
        currentStop := max position.currentStop stop
        pendingStop := none
        pendingStopAt := none }
    else position
  | _, _ => position

/-- `StrategyEngine.protect`. -/
def protect (position : PositionContext) (observedPrice : ℚ) : Bool :=
  !validPosition position || observedPrice ≤ 0 || observedPrice ≤ position.currentStop

section Prices

variable (env : Environment) (settings : Settings)

/-- `LiveService.on_price` once the price is a price. -/
def protectAt (state : LiveState) (observedPrice : ℚ) (at_ : ℤ)
    (balances : Option (Account × Account)) : Process Unit := do
  let position := state.position.map fun position =>
    let active := activate position at_
    { active with highWater := max active.highWater observedPrice }
  if position ≠ state.position then
    saveState env { state with position }
  match position, balances with
  | some position, some balances =>
    if protect (contextOf position) observedPrice then
      submit env settings ⟨.ask, position.quantity⟩ observedPrice position.entryAtr at_ balances
  | _, _ => pure ()

/-- `LiveService.on_price`. -/
def onPrice (observedPrice : Reading) : Process Unit := do
  let world ← get
  let at_ := world.clock
  let balances ← reconcile env at_
  match ← journalState with
  | none => pure ()
  | some state =>
    match observedPrice with
    | .number price =>
      if 0 < price then protectAt env settings state price at_ balances
      else persistHealth env (recordSchemaCheck state.health false at_)
    | _ => persistHealth env (recordSchemaCheck state.health false at_)

end Prices

end AutoBit.Live
