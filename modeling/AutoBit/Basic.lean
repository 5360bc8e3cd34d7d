import Mathlib.Data.Int.ModEq
import Mathlib.Tactic.Linarith

/-!
# Instants, four-hour boundaries and errors

A timezone-aware `datetime` is modelled by the integer number of microseconds since the
Unix epoch in UTC. Candles close on exact four-hour boundaries and are old enough to
process ten minutes later.
-/

namespace AutoBit

/-- The exceptions that the paper subsystem raises, with their texts. -/
inductive Failure where
  | value (message : String)
  | corruption (message : String)
  | store (message : String)
  | leaseLost (message : String)
  | idempotency (message : String)
  | reconciliation (message : String)
  | health (message : String)
  | service (message : String)
  | source (message : String)
  | overflow (message : String)
  | attribute (message : String)
  deriving DecidableEq, Repr

/-- Whether an instant of a list is missing. -/
instance decidableNoneMem (instants : List (Option ℤ)) : Decidable (none ∈ instants) :=
  decidable_of_iff (instants.any Option.isNone = true) (by simp)

/-- `timedelta(minutes=1)`. -/
def minutes (n : ℤ) : ℤ := n * 60000000

/-- `timedelta(hours=1)`. -/
def hours (n : ℤ) : ℤ := n * 3600000000

/-- `_FOUR_HOURS`. -/
def fourHours : ℤ := hours 4

/-- `_MATURITY_DELAY`. -/
def maturityDelay : ℤ := minutes 10

/-- Four hours in microseconds. -/
@[simp] theorem fourHours_eq : fourHours = 14400000000 := rfl

/-- Ten minutes in microseconds. -/
@[simp] theorem maturityDelay_eq : maturityDelay = 600000000 := rfl

/-- `_require_boundary` and `_require_cycle_end`: an exact four-hour UTC boundary. -/
def IsBoundary (instant : ℤ) : Prop := instant % fourHours = 0

instance (instant : ℤ) : Decidable (IsBoundary instant) := inferInstanceAs (Decidable (_ = _))

/-- `_floor_four_hours`: the last boundary not after an instant. -/
def floorFourHours (value : ℤ) : ℤ := value / fourHours * fourHours

/-- `_latest_matured_end` and `latest_completed_end`: the latest close that is at least
ten minutes old. -/
def latestCompletedEnd (now : ℤ) : ℤ := floorFourHours (now - maturityDelay)

/-- The instant four hours after a boundary is a boundary. -/
theorem IsBoundary.add_fourHours {t : ℤ} (h : IsBoundary t) :
    IsBoundary (t + fourHours) := by
  simp only [IsBoundary, fourHours_eq] at h ⊢
  omega

/-- The instant four hours before a boundary is a boundary. -/
theorem IsBoundary.sub_fourHours {t : ℤ} (h : IsBoundary t) :
    IsBoundary (t - fourHours) := by
  simp only [IsBoundary, fourHours_eq] at h ⊢
  omega

/-- The latest completed end is a boundary. -/
theorem latestCompletedEnd_isBoundary (now : ℤ) : IsBoundary (latestCompletedEnd now) := by
  simp [IsBoundary, latestCompletedEnd, floorFourHours]

/-- A boundary has matured exactly when it is not after the latest completed end. -/
theorem le_latestCompletedEnd_iff {t now : ℤ} (h : IsBoundary t) :
    t ≤ latestCompletedEnd now ↔ t + maturityDelay ≤ now := by
  simp only [IsBoundary, latestCompletedEnd, floorFourHours, fourHours_eq, maturityDelay_eq] at *
  omega

/-- `datetime.date`: the number of the UTC day. -/
def utcDate (instant : ℤ) : ℤ := instant / hours 24

end AutoBit
