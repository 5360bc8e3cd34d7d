import Mathlib.Algebra.BigOperators.Group.List.Basic
import Mathlib.Algebra.Order.Field.Basic
import Mathlib.Tactic.FieldSimp
import Mathlib.Tactic.Linarith
import Mathlib.Tactic.Ring

/-!
# Average cost accounting

A ledger keeps its cash, at most one holding at its cost, and the profits of the holdings that
were closed. A buy adds to the cost, and a sale takes its share of the cost. Two increments in
a row book what their sum books, and no increment changes the balance: what was paid is in the
holding or in the profits.
-/

namespace AutoBit.Library

/-- What is held: how much, at which price it was entered, what it cost, and what was realized
on it so far. -/
structure Holding (K : Type*) where
  quantity : K
  entryPrice : K
  costBasis : K
  realizedPnl : K
  deriving DecidableEq, Repr

/-- The cash, the holding and the profits of the holdings that were closed. -/
structure Ledger (K : Type*) where
  cash : K
  holding : Option (Holding K)
  closed : List K
  deriving DecidableEq, Repr

/-- What an order adds to what was booked of it before. -/
@[ext] structure Increment (K : Type*) where
  quantity : K
  funds : K
  fee : K
  deriving DecidableEq, Repr

section Increments

variable {K : Type*} [Field K]

/-- Two increments in a row. -/
instance : Add (Increment K) := ⟨fun a b => ⟨a.quantity + b.quantity, a.funds + b.funds, a.fee + b.fee⟩⟩

/-- The quantity of two increments is the sum of theirs. -/
@[simp] theorem Increment.add_quantity (a b : Increment K) :
    (a + b).quantity = a.quantity + b.quantity := rfl

/-- The funds of two increments are the sum of theirs. -/
@[simp] theorem Increment.add_funds (a b : Increment K) : (a + b).funds = a.funds + b.funds := rfl

/-- The fee of two increments is the sum of theirs. -/
@[simp] theorem Increment.add_fee (a b : Increment K) : (a + b).fee = a.fee + b.fee := rfl

/-- A fee that comes after the holding was closed. -/
def chargeLast (closed : List K) (fee : K) : List K :=
  match closed.getLast? with
  | some last => closed.dropLast ++ [last - fee]
  | none => closed

/-- The last result is charged. -/
@[simp] theorem chargeLast_concat (closed : List K) (last fee : K) :
    chargeLast (closed ++ [last]) fee = closed ++ [last - fee] := by
  simp [chargeLast]

/-- Without results nothing is charged. -/
@[simp] theorem chargeLast_nil (fee : K) : chargeLast ([] : List K) fee = [] := rfl

/-- A charge leaves the number of results. -/
@[simp] theorem chargeLast_length (closed : List K) (fee : K) :
    (chargeLast closed fee).length = closed.length := by
  rcases List.eq_nil_or_concat closed with rfl | ⟨init, last, rfl⟩
  · simp
  · simp

end Increments

namespace Ledger

variable {K : Type*} [Field K] [LinearOrder K]

/-- A buy at an average price. -/
def buy (ledger : Ledger K) (entry : K) (a : Increment K) : Ledger K where
  cash := ledger.cash - (a.funds + a.fee)
  holding := match ledger.holding with
    | none => if 0 < a.quantity then some ⟨a.quantity, entry, a.funds + a.fee, 0⟩ else none
    | some held => some {
        quantity := held.quantity + a.quantity
        entryPrice := if 0 < a.quantity then entry else held.entryPrice
        costBasis := held.costBasis + a.funds + a.fee
        realizedPnl := held.realizedPnl }
  closed := ledger.closed

/-- The share of the cost that a sale takes. -/
def share (held : Holding K) (a : Increment K) : K := held.costBasis * a.quantity / held.quantity

/-- What a holding has realized after a sale. -/
def profit (held : Holding K) (a : Increment K) : K :=
  held.realizedPnl + a.funds - a.fee - share held a

/-- A sale. -/
def sell (ledger : Ledger K) (a : Increment K) : Ledger K :=
  let cash := ledger.cash + (a.funds - a.fee)
  match ledger.holding with
  | none => ⟨cash, none, chargeLast ledger.closed a.fee⟩
  | some held =>
    if 0 < a.quantity ∧ a.quantity = held.quantity then
      ⟨cash, none, ledger.closed ++ [profit held a]⟩
    else
      ⟨cash, some {
        quantity := held.quantity - a.quantity
        entryPrice := held.entryPrice
        costBasis := held.costBasis - share held a
        realizedPnl := profit held a }, ledger.closed⟩

/-- What is paid is paid for something, and a fee comes with a fill. -/
structure Buys (ledger : Ledger K) (a : Increment K) : Prop where
  nonneg : 0 ≤ a.quantity
  unfunded : a.quantity = 0 → a.funds = 0
  feeless : ledger.holding = none → a.quantity = 0 → a.fee = 0

/-- No more is sold than is held, and a fee without a fill has a holding to go to. -/
structure Sells (ledger : Ledger K) (a : Increment K) : Prop where
  nonneg : 0 ≤ a.quantity
  unfunded : a.quantity = 0 → a.funds = 0
  held : ∀ held ∈ ledger.holding, 0 < a.quantity → a.quantity ≤ held.quantity
  closed : ledger.holding = none → a.quantity = 0 ∧ (a.fee = 0 ∨ ledger.closed ≠ [])

variable {ledger : Ledger K} {a b : Increment K} {entry entry' : K}

section Ordered

variable [IsStrictOrderedRing K]

/-- Two buys in a row are one. -/
theorem buy_buy (ha : ledger.Buys a) (hb : (ledger.buy entry a).Buys b)
    (hentry : b.quantity = 0 → entry = entry') :
    (ledger.buy entry a).buy entry' b = ledger.buy entry' (a + b) ∧ ledger.Buys (a + b) := by
  have hcash : ledger.cash - (a.funds + a.fee) - (b.funds + b.fee) =
      ledger.cash - (a.funds + b.funds + (a.fee + b.fee)) := by ring
  have hzero : a.quantity + b.quantity = 0 → a.quantity = 0 ∧ b.quantity = 0 := fun h =>
    (add_eq_zero_iff_of_nonneg ha.nonneg hb.nonneg).mp h
  refine ⟨?_, add_nonneg ha.nonneg hb.nonneg, ?_, ?_⟩
  · rcases hholding : ledger.holding with _ | held
    · rcases ha.nonneg.eq_or_lt with hnone | hsome
      · have hfunds := ha.unfunded hnone.symm
        have hfee := ha.feeless hholding hnone.symm
        simp [buy, hholding, ← hnone, hfunds, hfee]
      · have hsum : 0 < a.quantity + b.quantity := add_pos_of_pos_of_nonneg hsome hb.nonneg
        have hprice : (if 0 < b.quantity then entry' else entry) = entry' := by
          split
          · rfl
          · next h => exact hentry (le_antisymm (not_lt.mp h) hb.nonneg)
        simp only [buy, hholding, hsome, if_true, Increment.add_quantity, Increment.add_funds,
          Increment.add_fee, hsum, hprice, hcash]
        congr 3
        ring
    · have hprice : (if 0 < b.quantity then entry' else
          if 0 < a.quantity then entry else held.entryPrice) =
          if 0 < a.quantity + b.quantity then entry' else held.entryPrice := by
        rcases hb.nonneg.eq_or_lt with hnone | hsome
        · simp [← hnone, hentry hnone.symm]
        · simp [hsome, add_pos_of_nonneg_of_pos ha.nonneg hsome]
      simp only [buy, hholding, Increment.add_quantity, Increment.add_funds, Increment.add_fee,
        hprice, hcash]
      congr 3
      · ring
      · ring
  · intro h
    obtain ⟨ha0, hb0⟩ := hzero h
    simp [ha.unfunded ha0, hb.unfunded hb0]
  · intro hholding h
    obtain ⟨ha0, hb0⟩ := hzero h
    have hnone : (ledger.buy entry a).holding = none := by simp [buy, hholding, ha0]
    simp [ha.feeless hholding ha0, hb.feeless hnone hb0]

/-- Two sales in a row are one. -/
theorem sell_sell (ha : ledger.Sells a) (hb : (ledger.sell a).Sells b) :
    (ledger.sell a).sell b = ledger.sell (a + b) ∧ ledger.Sells (a + b) := by
  have hcash : ledger.cash + (a.funds - a.fee) + (b.funds - b.fee) =
      ledger.cash + (a.funds + b.funds - (a.fee + b.fee)) := by ring
  have hzero : a.quantity + b.quantity = 0 → a.quantity = 0 ∧ b.quantity = 0 := fun h =>
    (add_eq_zero_iff_of_nonneg ha.nonneg hb.nonneg).mp h
  have hunfunded : a.quantity + b.quantity = 0 → a.funds + b.funds = 0 := fun h => by
    rw [ha.unfunded (hzero h).1, hb.unfunded (hzero h).2, add_zero]
  rcases hholding : ledger.holding with _ | held
  · -- nothing is held, so that both are fees
    obtain ⟨ha0, hafee⟩ := ha.closed hholding
    have hnone : (ledger.sell a).holding = none := by simp [sell, hholding]
    obtain ⟨hb0, hbfee⟩ := hb.closed hnone
    have hkept : (ledger.sell a).closed = [] ↔ ledger.closed = [] := by
      simp [sell, hholding, ← List.length_eq_zero_iff]
    refine ⟨?_, add_nonneg ha.nonneg hb.nonneg, hunfunded, by simp [hholding], fun _ => ⟨?_, ?_⟩⟩
    · simp only [sell, hholding, hcash, Increment.add_funds, Increment.add_fee, mk.injEq, true_and]
      rcases List.eq_nil_or_concat ledger.closed with hnil | ⟨init, last, hlast⟩
      · simp [hnil]
      · rw [hlast, List.concat_eq_append, chargeLast_concat, chargeLast_concat, chargeLast_concat]
        congr 2
        ring
    · simp [ha0, hb0]
    · by_cases hnil : ledger.closed = []
      · left
        have hafee0 : a.fee = 0 := hafee.resolve_right (not_not.mpr hnil)
        have hbfee0 : b.fee = 0 := hbfee.resolve_right (not_not.mpr (hkept.mpr hnil))
        simp [hafee0, hbfee0]
      · exact .inr hnil
  by_cases hcloses : 0 < a.quantity ∧ a.quantity = held.quantity
  · -- the first sale closes the holding, so that the second is a fee
    have hnone : (ledger.sell a).holding = none := by simp only [sell, hholding, if_pos hcloses]
    obtain ⟨hb0, _⟩ := hb.closed hnone
    have hbfunds := hb.unfunded hb0
    have hsum : 0 < a.quantity + b.quantity ∧ a.quantity + b.quantity = held.quantity := by
      rwa [hb0, add_zero]
    refine ⟨?_, add_nonneg ha.nonneg hb.nonneg, hunfunded, ?_, by simp [hholding]⟩
    · simp only [sell, hholding, if_pos hcloses, Increment.add_quantity, if_pos hsum, hcash,
        Increment.add_funds, Increment.add_fee, chargeLast_concat, mk.injEq, true_and]
      congr 2
      simp only [profit, share, Increment.add_funds, Increment.add_fee, Increment.add_quantity, hb0,
        hbfunds]
      ring
    · intro found hfound
      obtain rfl : held = found := by simpa [hholding] using hfound
      exact fun _ => hsum.2.le
  · -- the first sale leaves a holding
    have hsome : (ledger.sell a).holding = some {
        quantity := held.quantity - a.quantity
        entryPrice := held.entryPrice
        costBasis := held.costBasis - share held a
        realizedPnl := profit held a } := by
      simp only [sell, hholding, if_neg hcloses]
    have hrest : 0 < b.quantity → b.quantity ≤ held.quantity - a.quantity := hb.held _ hsome
    -- the shares of the two sales add up to the share of both
    have hshare : share held a + share { held with
        quantity := held.quantity - a.quantity
        costBasis := held.costBasis - share held a
        realizedPnl := profit held a } b = share held (a + b) := by
      rcases ha.nonneg.eq_or_lt with ha0 | hapos
      · simp [share, ← ha0]
      · have hlt : a.quantity < held.quantity :=
          lt_of_le_of_ne (ha.held held hholding hapos) fun h => hcloses ⟨hapos, h⟩
        have hheld : held.quantity ≠ 0 := (hapos.trans hlt).ne'
        have hleft : held.quantity - a.quantity ≠ 0 := (sub_pos.mpr hlt).ne'
        simp only [share, Increment.add_quantity]
        field_simp
    have hprofit : profit { held with
        quantity := held.quantity - a.quantity
        costBasis := held.costBasis - share held a
        realizedPnl := profit held a } b = profit held (a + b) := by
      simp only [profit, ← hshare, Increment.add_funds, Increment.add_fee]
      ring
    refine ⟨?_, add_nonneg ha.nonneg hb.nonneg, hunfunded, ?_, by simp [hholding]⟩
    · have hfirst : ledger.sell a = ⟨ledger.cash + (a.funds - a.fee), some { held with
          quantity := held.quantity - a.quantity
          costBasis := held.costBasis - share held a
          realizedPnl := profit held a }, ledger.closed⟩ := by
        simp only [sell, hholding, if_neg hcloses]
      have hsame : (0 < b.quantity ∧ b.quantity = held.quantity - a.quantity) ↔
          (0 < a.quantity + b.quantity ∧ a.quantity + b.quantity = held.quantity) := by
        constructor
        · rintro ⟨hbpos, hb⟩
          exact ⟨add_pos_of_nonneg_of_pos ha.nonneg hbpos, by rw [hb]; ring⟩
        · rintro ⟨hsum, hall⟩
          refine ⟨lt_of_le_of_ne hb.nonneg fun hb0 => ?_, by rw [← hall]; ring⟩
          rw [← hb0, add_zero] at hsum hall
          exact hcloses ⟨hsum, hall⟩
      rw [hfirst]
      simp only [sell, hholding, Increment.add_quantity, hsame, hcash, hprofit,
        Increment.add_funds, Increment.add_fee]
      split
      · rfl
      · simp only [mk.injEq, Option.some.injEq, Holding.mk.injEq, true_and, and_true]
        exact ⟨by ring, by rw [← hshare]; ring⟩
    · intro found hfound
      obtain rfl : held = found := by simpa [hholding] using hfound
      intro hsum
      rw [Increment.add_quantity] at hsum ⊢
      rcases hb.nonneg.eq_or_lt with hb0 | hbpos
      · rw [← hb0, add_zero] at hsum ⊢
        exact ha.held held hholding hsum
      · linarith [hrest hbpos]

end Ordered

/-! ## Conservation -/

/-- The cash and the cost of the holding, less what was earned. -/
def balance (ledger : Ledger K) : K :=
  ledger.cash + (ledger.holding.elim 0 fun held => held.costBasis - held.realizedPnl) -
    ledger.closed.sum

/-- A buy earns nothing. -/
theorem balance_buy (h : ledger.Buys a) : (ledger.buy entry a).balance = ledger.balance := by
  rcases hholding : ledger.holding with _ | held
  · rcases h.nonneg.eq_or_lt with hnone | hsome
    · simp [balance, buy, hholding, ← hnone, h.unfunded hnone.symm, h.feeless hholding hnone.symm]
    · simp only [balance, buy, hholding, hsome, if_true, Option.elim_some, Option.elim_none]
      ring
  · simp only [balance, buy, hholding, Option.elim_some]
    ring

/-- What a sale earns is in the cash. -/
theorem balance_sell (h : ledger.Sells a) : (ledger.sell a).balance = ledger.balance := by
  rcases hholding : ledger.holding with _ | held
  · obtain ⟨hnone, hfee⟩ := h.closed hholding
    have hfunds := h.unfunded hnone
    rcases List.eq_nil_or_concat ledger.closed with hnil | ⟨init, last, hlast⟩
    · have hfeeless : a.fee = 0 := hfee.resolve_right (not_not.mpr hnil)
      simp [balance, sell, hholding, hfunds, hfeeless, hnil]
    · simp only [balance, sell, hholding, hfunds, hlast, List.concat_eq_append, chargeLast_concat,
        List.sum_append, List.sum_singleton, Option.elim_none]
      ring
  · by_cases hcloses : 0 < a.quantity ∧ a.quantity = held.quantity
    · have hheld : held.quantity ≠ 0 := (hcloses.2 ▸ hcloses.1).ne'
      have hshare : share held a = held.costBasis := by
        rw [share, hcloses.2, mul_div_assoc, div_self hheld, mul_one]
      simp only [balance, sell, hholding, if_pos hcloses, Option.elim_some, Option.elim_none,
        List.sum_append, List.sum_singleton, profit, hshare]
      ring
    · simp only [balance, sell, hholding, if_neg hcloses, Option.elim_some, profit]
      ring

end Ledger

end AutoBit.Library
