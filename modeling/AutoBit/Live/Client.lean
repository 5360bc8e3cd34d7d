import AutoBit.Library.Loop
import Mathlib.Algebra.Order.Ring.Rat
import Mathlib.Data.List.Nodup
import Mathlib.Tactic.Linarith

/-!
# Facts of the venue

The client accepts an answer of the venue only when it is consistent in itself: the fills add
up to the executed volume, none precedes the order, and nothing is paid for what was not
filled. Decimals and floats are exact rationals.
-/

namespace AutoBit.Live

open Library

/-- The exceptions that the live subsystem raises, and the end of the process. -/
inductive LiveError where
  | request (message : String)
  | response (message : String)
  | journal (message : String)
  | value (message : String)
  | storage (message : String)
  | crash
  deriving DecidableEq, Repr

/-- `isinstance(error, LiveRequestError)`: a rejected request or an invalid response. -/
def LiveError.isRequest : LiveError → Bool
  | request _ | response _ => true
  | _ => false

/-- `isinstance(error, LiveResponseError)`. -/
def LiveError.isResponse : LiveError → Bool
  | response _ => true
  | _ => false

/-- The side of an order. -/
inductive Side where
  | bid
  | ask
  deriving DecidableEq, Repr

/-- A field of a JSON object: absent or null, of the wrong form, or a value. -/
inductive Field (α : Type) where
  | absent
  | malformed
  | value (a : α)
  deriving DecidableEq, Repr

/-- `_decimal`. -/
def decimal (field : Field ℚ) (positive : Bool) : Except LiveError ℚ :=
  match field with
  | .value result => do
    reject (result < 0 ∨ positive = true ∧ result = 0) (.response "Invalid numeric venue field")
    return result
  | _ => .error (.response "Invalid numeric venue field")

/-- `_decimal(field) if field is not None else None`. -/
def optionalDecimal (field : Field ℚ) (positive : Bool) : Except LiveError (Option ℚ) :=
  match field with
  | .absent => .ok none
  | field => do return some (← decimal field positive)

/-- `_time`. -/
def time (field : Field ℤ) : Except LiveError ℤ :=
  match field with
  | .value result => .ok result
  | _ => .error (.response "Invalid venue timestamp")

/-- `Account`. -/
structure Account where
  currency : String
  balance : ℚ
  locked : ℚ
  deriving DecidableEq, Repr

/-- An account as the venue sends it. -/
structure RawAccount where
  currency : Option String
  balance : Field ℚ
  locked : Field ℚ
  deriving DecidableEq, Repr

/-- `[A-Z0-9]{1,20}`. -/
def isCurrency (text : String) : Bool :=
  0 < text.length && text.length ≤ 20 &&
    text.toList.all fun c => ('A' ≤ c && c ≤ 'Z') || ('0' ≤ c && c ≤ '9')

/-- `_account`. -/
def account (data : RawAccount) (expected : Option String) : Except LiveError Account := do
  let currency ← require data.currency (.response "Invalid account schema")
  reject (isCurrency currency = false ∨ ∃ other ∈ expected, currency ≠ other)
    (.response "Invalid account currency")
  return ⟨currency, ← decimal data.balance false, ← decimal data.locked false⟩

/-- `LiveClient.accounts` on what the venue answered. -/
def readAccounts (data : List RawAccount) : Except LiveError (List Account) := do
  let accounts ← data.mapM fun item => account item none
  reject (¬(accounts.map (·.currency)).Nodup) (.response "Duplicate account currency")
  return accounts

/-- `OrderChance`. -/
structure OrderChance where
  bidFee : ℚ
  askFee : ℚ
  bidMinTotal : ℚ
  askMinTotal : ℚ
  maxTotal : ℚ
  bidAccount : Account
  askAccount : Account
  deriving DecidableEq, Repr

/-- The constraints of the market as the venue sends them: whether the market is the active
one with both sides and order types, and its numbers. -/
structure RawChance where
  supported : Bool
  bidFee : Field ℚ
  askFee : Field ℚ
  bidMinTotal : Field ℚ
  askMinTotal : Field ℚ
  maxTotal : Field ℚ
  bidAccount : RawAccount
  askAccount : RawAccount
  deriving DecidableEq, Repr

/-- `LiveClient.order_chance` on what the venue answered. -/
def readChance (data : RawChance) : Except LiveError OrderChance := do
  reject (data.supported = false) (.response "Unsupported market constraints")
  let result : OrderChance := {
    bidFee := ← decimal data.bidFee false
    askFee := ← decimal data.askFee false
    bidMinTotal := ← decimal data.bidMinTotal true
    askMinTotal := ← decimal data.askMinTotal true
    maxTotal := ← decimal data.maxTotal true
    bidAccount := ← account data.bidAccount (some "KRW")
    askAccount := ← account data.askAccount (some "BTC") }
  reject (1 ≤ result.bidFee ∨ 1 ≤ result.askFee ∨
      result.maxTotal < max result.bidMinTotal result.askMinTotal)
    (.response "Invalid market constraints")
  return result

/-- The state of an order at the venue. -/
inductive OrderState where
  | wait
  | watch
  | done
  | cancel
  deriving DecidableEq, Repr

/-- `VenueOrder`. -/
structure VenueOrder where
  identifier : String
  uuid : String
  side : Side
  state : OrderState
  executedVolume : ℚ
  executedFunds : Option ℚ
  paidFee : ℚ
  volume : Option ℚ
  remainingVolume : Option ℚ
  price : Option ℚ
  createdAt : ℤ
  lastFillAt : Option ℤ
  firstFillAt : Option ℤ
  deriving DecidableEq, Repr

/-- `VenueOrder.terminal`. -/
def VenueOrder.terminal (order : VenueOrder) : Bool := order.state = .done ∨ order.state = .cancel

/-- A fill as the venue sends it. -/
structure RawTrade where
  market : Option String
  side : Option Side
  uuid : Option String
  volume : Field ℚ
  price : Field ℚ
  funds : Field ℚ
  createdAt : Field ℤ
  deriving DecidableEq, Repr

/-- An order as the venue sends it. -/
structure RawOrder where
  identifier : Option String
  market : Option String
  side : Option Side
  state : Option OrderState
  uuid : Option String
  ordType : Option String
  volume : Field ℚ
  remainingVolume : Field ℚ
  price : Field ℚ
  executedVolume : Field ℚ
  paidFee : Field ℚ
  locked : Field ℚ
  reservedFee : Field ℚ
  remainingFee : Field ℚ
  createdAt : Field ℤ
  trades : Field (List RawTrade)
  tradesCount : Option ℕ
  deriving DecidableEq, Repr

/-- What the loop over the fills accumulates. -/
structure Fills where
  total : ℚ := 0
  funds : ℚ := 0
  tradeIds : List String := []
  firstFill : Option ℤ := none
  lastFill : Option ℤ := none

/-- One round of the loop over the fills. -/
def addTrade (side : Side) (created : ℤ) (fills : Fills) (trade : RawTrade) :
    Except LiveError Fills := do
  reject (trade.market ≠ some "KRW-BTC" ∨ trade.side ≠ some side)
    (.response "Invalid trade identity")
  let uuid ← require (trade.uuid.filter fun uuid => uuid ≠ "" ∧ uuid ∉ fills.tradeIds)
    (.response "Invalid trade identity")
  let quantity ← decimal trade.volume true
  let tradePrice ← decimal trade.price true
  let tradeFunds ← decimal trade.funds true
  reject (1 / 100000000 < |quantity * tradePrice - tradeFunds|)
    (.response "Contradictory trade funds")
  let instant ← time trade.createdAt
  reject (instant < created) (.response "Trade precedes order")
  return {
    total := fills.total + quantity
    funds := fills.funds + tradeFunds
    tradeIds := uuid :: fills.tradeIds
    firstFill := some ((fills.firstFill.map (min · instant)).getD instant)
    lastFill := some ((fills.lastFill.map (max · instant)).getD instant) }

/-- The fills of an order that reports them, which add up to the executed volume. -/
def readTrades (data : RawOrder) (side : Side) (created : ℤ) (executed : ℚ) :
    Except LiveError (Option Fills) :=
  match data.trades with
  | .absent => .ok none
  | .malformed => .error (.response "Incomplete trade facts")
  | .value trades => do
    reject (data.tradesCount ≠ some trades.length) (.response "Incomplete trade facts")
    let fills ← trades.foldlM (addTrade side created) {}
    reject (fills.total ≠ executed) (.response "Incomplete cumulative fills")
    return some fills

/-- `_order`. -/
def order (data : RawOrder) (identifier : String) (expected : Option Side) (detail : Bool) :
    Except LiveError VenueOrder := do
  let mismatch := LiveError.response "Mismatched order identity or state"
  reject (data.identifier ≠ some identifier ∨ data.market ≠ some "KRW-BTC") mismatch
  let side ← require (data.side.filter fun side => expected.all (· = side)) mismatch
  let state ← require data.state mismatch
  let uuid ← require (data.uuid.filter (· ≠ "")) mismatch
  reject (data.ordType ≠ some (if side = .bid then "price" else "market"))
    (.response "Unexpected order type")
  let volume ← optionalDecimal data.volume false
  let remaining ← optionalDecimal data.remainingVolume false
  let price ← optionalDecimal data.price true
  let executed ← decimal data.executedVolume false
  let fee ← decimal data.paidFee false
  let _ ← decimal data.locked false
  let _ ← decimal data.reservedFee false
  let _ ← decimal data.remainingFee false
  reject (∃ ordered ∈ volume, ordered < executed ∨
      ¬∃ left ∈ remaining, executed + left ≤ ordered)
    (.response "Contradictory order volumes")
  let created ← time data.createdAt
  let fills ← readTrades data side created executed
  reject (detail = true ∧ 0 < executed ∧ fills.isNone = true)
    (.response "Missing actual fill facts")
  reject (executed = 0 ∧ fee ≠ 0) (.response "Fee without a fill")
  return {
    identifier, uuid, side, state
    executedVolume := executed
    executedFunds := fills.map (·.funds)
    paidFee := fee
    volume
    remainingVolume := remaining
    price
    createdAt := created
    lastFillAt := fills.bind (·.lastFill)
    firstFillAt := fills.bind (·.firstFill) }

/-- What an accepted order says about itself. -/
structure VenueOrder.Consistent (order : VenueOrder) : Prop where
  named : order.uuid ≠ ""
  volume_nonneg : 0 ≤ order.executedVolume
  fee_nonneg : 0 ≤ order.paidFee
  feeless : order.executedVolume = 0 → order.paidFee = 0
  unfilled : ∀ funds ∈ order.executedFunds, order.executedVolume = 0 → funds = 0
  filled : ∀ funds ∈ order.executedFunds, 0 < order.executedVolume → 0 < funds ∧
    ∃ first last, order.firstFillAt = some first ∧ order.lastFillAt = some last ∧
      order.createdAt ≤ first ∧ first ≤ last

/-- A decimal that is read is not negative, and positive where it must be. -/
theorem decimal_eq_ok {field : Field ℚ} {positive : Bool} {q : ℚ}
    (h : decimal field positive = .ok q) : 0 ≤ q ∧ (positive = true → 0 < q) := by
  cases field with
  | value result =>
    simp only [decimal, Except.bind_eq_ok, reject_eq_ok, Except.pure_eq_ok, not_or, not_and,
      not_lt] at h
    obtain ⟨_, ⟨hnonneg, hzero⟩, rfl⟩ := h
    exact ⟨hnonneg, fun hpositive => lt_of_le_of_ne hnonneg (Ne.symm (hzero hpositive))⟩
  | absent => cases h
  | malformed => cases h

/-- What the loop over the fills keeps: as long as nothing was filled nothing was paid, and the
fills lie between the first and the last. -/
structure Fills.Sound (created : ℤ) (fills : Fills) : Prop where
  nonneg : 0 ≤ fills.total ∧ 0 ≤ fills.funds
  empty : fills.total = 0 → fills.funds = 0 ∧ fills.firstFill = none ∧ fills.lastFill = none
  between : 0 < fills.total → 0 < fills.funds ∧ ∃ first last, fills.firstFill = some first ∧
    fills.lastFill = some last ∧ created ≤ first ∧ first ≤ last

/-- A trade that is added leaves the fills sound. -/
theorem addTrade_sound {side : Side} {created : ℤ} {fills fills' : Fills} {trade : RawTrade}
    (hfills : fills.Sound created) (h : addTrade side created fills trade = .ok fills') :
    fills'.Sound created := by
  simp only [addTrade, Except.bind_eq_ok, reject_eq_ok, require_eq_ok, Except.pure_eq_ok,
    not_lt] at h
  obtain ⟨_, _, uuid, _, quantity, hquantity, _, _, funds, hfunds, _, _, instant, _, _, hcreated,
    rfl⟩ := h
  have hq := (decimal_eq_ok hquantity).2 rfl
  have hf := (decimal_eq_ok hfunds).2 rfl
  have hnonneg := hfills.nonneg
  refine ⟨⟨by linarith, by linarith⟩, fun hzero => by linarith, fun _ => ⟨by linarith, ?_⟩⟩
  rcases hnonneg.1.eq_or_lt with hzero | hpositive
  · obtain ⟨_, hfirst, hlast⟩ := hfills.empty hzero.symm
    exact ⟨instant, instant, by simp [hfirst], by simp [hlast], hcreated, le_refl _⟩
  · obtain ⟨_, first, last, hfirst, hlast, hafter, hordered⟩ := hfills.between hpositive
    refine ⟨min first instant, max last instant, by simp [hfirst], by simp [hlast], ?_, ?_⟩
    · exact le_min hafter hcreated
    · exact (min_le_left _ _).trans (hordered.trans (le_max_left _ _))

/-- An order that the client returns is consistent. -/
theorem order_consistent {data : RawOrder} {identifier : String} {expected : Option Side}
    {detail : Bool} {venueOrder : VenueOrder}
    (h : order data identifier expected detail = .ok venueOrder) :
    venueOrder.identifier = identifier ∧ venueOrder.Consistent := by
  simp only [order, Except.bind_eq_ok, reject_eq_ok, require_eq_ok, Except.pure_eq_ok] at h
  obtain ⟨_, _, side, _, state, _, uuid, huuid, _, _, volume, _, remaining, _, price, _, executed,
    hexecuted, fee, hfee, _, _, _, _, _, _, _, _, created, _, fills, hfills, _, _, _, hfeeless,
    rfl⟩ := h
  have hsound : ∀ found ∈ fills, found.Sound created ∧ found.total = executed := by
    intro found hfound
    obtain rfl : fills = some found := hfound
    unfold readTrades at hfills
    split at hfills
    · cases hfills
    · cases hfills
    · simp only [Except.bind_eq_ok, reject_eq_ok, Except.pure_eq_ok, Option.some.injEq,
        not_not] at hfills
      obtain ⟨_, _, _, hfold, _, htotal, rfl⟩ := hfills
      refine ⟨foldlM_invariant (fun fills => fills.Sound created) ?_ ?_ hfold, htotal⟩
      · exact fun fills fills' trade _ => addTrade_sound
      · exact ⟨⟨le_refl _, le_refl _⟩, fun _ => ⟨rfl, rfl, rfl⟩, fun h => absurd h (lt_irrefl _)⟩
  refine ⟨rfl, ?_, (decimal_eq_ok hexecuted).1, (decimal_eq_ok hfee).1, ?_, ?_, ?_⟩
  · simpa using (Option.filter_eq_some_iff.mp huuid).2
  · intro hzero
    by_contra hne
    exact hfeeless ⟨hzero, hne⟩
  · intro funds hfunds hzero
    obtain ⟨found, hfound, rfl⟩ := Option.map_eq_some_iff.mp hfunds
    obtain ⟨hfound, htotal⟩ := hsound found hfound
    exact (hfound.empty (htotal.trans hzero)).1
  · intro funds hfunds hpositive
    obtain ⟨found, hsome, rfl⟩ := Option.map_eq_some_iff.mp hfunds
    obtain ⟨hfound, htotal⟩ := hsound found hsome
    obtain ⟨hpaid, first, last, hfirst, hlast, hafter, hordered⟩ :=
      hfound.between (htotal ▸ hpositive)
    exact ⟨hpaid, first, last, by simp [hsome, hfirst], by simp [hsome, hlast], hafter, hordered⟩

end AutoBit.Live
