import Mathlib.Data.Int.ConditionallyCompleteOrder
import Mathlib.Tactic.IntervalCases

/-!
# The Gregorian calendar

Days are numbered from the first of January 1970 and months from January of the year 0. A
date is moved by months as calendars do it: the day of the month stays, or becomes the last
one of a shorter month. Such a move is monotone in the date and strictly monotone in the
number of months, but moving back does not always undo it.
-/

namespace AutoBit.Library

/-- A year with a 29th of February. -/
def IsLeapYear (year : ℤ) : Prop := year % 4 = 0 ∧ (year % 100 ≠ 0 ∨ year % 400 = 0)

instance (year : ℤ) : Decidable (IsLeapYear year) := inferInstanceAs (Decidable (_ ∧ _))

/-- The number of days of a month. -/
def monthLength (month : ℤ) : ℤ :=
  if month % 12 = 1 then if IsLeapYear (month / 12) then 29 else 28
  else if month % 12 = 3 ∨ month % 12 = 5 ∨ month % 12 = 8 ∨ month % 12 = 10 then 30 else 31

/-- The days from the first of March of the year 0 to that of another year. -/
def daysBeforeMarch (year : ℤ) : ℤ := 365 * year + year / 4 - year / 100 + year / 400

/-- The first day of a month, with years that begin in March. -/
def monthStart (month : ℤ) : ℤ :=
  daysBeforeMarch ((month - 2) / 12) + (153 * ((month - 2) % 12) + 2) / 5 - 719468

example : monthStart (12 * 1970) = 0 := by decide

/-- A month has at least 28 days. -/
theorem monthLength_pos (month : ℤ) : 28 ≤ monthLength month := by
  unfold monthLength
  split_ifs <;> omega

/-- A month has at most 31 days. -/
theorem monthLength_le (month : ℤ) : monthLength month ≤ 31 := by
  unfold monthLength
  split_ifs <;> omega

/-- A year from March on has one day more when it ends in a leap February. -/
theorem daysBeforeMarch_succ (year : ℤ) :
    daysBeforeMarch (year + 1) =
      daysBeforeMarch year + 365 + if IsLeapYear (year + 1) then 1 else 0 := by
  unfold daysBeforeMarch IsLeapYear
  split_ifs <;> omega

/-- The start of a month, counted from March, is the closed formula of its year and rank. -/
theorem monthStart_eq {year rank : ℤ} (hlow : 0 ≤ rank) (hhigh : rank < 12) :
    monthStart (12 * year + rank + 2) =
      daysBeforeMarch year + (153 * rank + 2) / 5 - 719468 := by
  have hyear : (12 * year + rank + 2 - 2) / 12 = year := by omega
  have hrank : (12 * year + rank + 2 - 2) % 12 = rank := by omega
  rw [monthStart, hyear, hrank]

/-- The lengths of the months from March to January. -/
theorem monthLength_eq {year rank : ℤ} (hlow : 0 ≤ rank) (hhigh : rank < 11) :
    monthLength (12 * year + rank + 2) =
      (153 * (rank + 1) + 2) / 5 - (153 * rank + 2) / 5 := by
  have hmod : (12 * year + rank + 2) % 12 = (rank + 2) % 12 := by omega
  rw [monthLength, hmod]
  interval_cases rank <;> rfl

/-- The length of February. -/
theorem monthLength_february (year : ℤ) :
    monthLength (12 * year + 11 + 2) = if IsLeapYear (year + 1) then 29 else 28 := by
  have hmod : (12 * year + 11 + 2) % 12 = 1 := by omega
  have hdiv : (12 * year + 11 + 2) / 12 = year + 1 := by omega
  rw [monthLength, if_pos hmod, hdiv]

/-- A month begins when the month before ends. -/
theorem monthStart_succ (month : ℤ) :
    monthStart (month + 1) = monthStart month + monthLength month := by
  obtain ⟨year, rank, hmonth, hlow, hhigh⟩ :
      ∃ year rank : ℤ, month = 12 * year + rank + 2 ∧ 0 ≤ rank ∧ rank < 12 :=
    ⟨(month - 2) / 12, (month - 2) % 12, by omega, by omega, by omega⟩
  subst hmonth
  rcases eq_or_lt_of_le (Int.lt_add_one_iff.mp hhigh : rank ≤ 11) with rfl | hbefore
  · have hnext : 12 * year + 11 + 2 + 1 = 12 * (year + 1) + 0 + 2 := by omega
    rw [hnext, monthStart_eq le_rfl (by omega), monthStart_eq (by omega) (by omega),
      daysBeforeMarch_succ, monthLength_february]
    split_ifs <;> omega
  · have hnext : 12 * year + rank + 2 + 1 = 12 * year + (rank + 1) + 2 := by omega
    rw [hnext, monthStart_eq (by omega) (by omega), monthStart_eq hlow hhigh,
      monthLength_eq hlow hbefore]
    omega

/-- The year, from March on, in which a day lies. -/
def marchYear (day : ℤ) : ℤ :=
  let guess := 400 * day / 146097
  if day < daysBeforeMarch guess then guess - 1
  else if daysBeforeMarch (guess + 1) ≤ day then guess + 1 else guess

/-- A day lies in its year from March to March. -/
theorem marchYear_spec (day : ℤ) :
    daysBeforeMarch (marchYear day) ≤ day ∧ day < daysBeforeMarch (marchYear day + 1) := by
  unfold marchYear
  dsimp only
  split_ifs with hlow hhigh
  · unfold daysBeforeMarch at *
    omega
  · unfold daysBeforeMarch at *
    omega
  · unfold daysBeforeMarch at *
    omega

/-- The month in which a day lies. -/
def monthOf (day : ℤ) : ℤ :=
  let year := marchYear (day + 719468)
  12 * year + (5 * (day + 719468 - daysBeforeMarch year) + 2) / 153 + 2

/-- A day lies in its month. -/
theorem monthOf_spec (day : ℤ) :
    monthStart (monthOf day) ≤ day ∧ day < monthStart (monthOf day + 1) := by
  obtain ⟨hlow, hhigh⟩ := marchYear_spec (day + 719468)
  set year := marchYear (day + 719468) with hyear
  have hlength : daysBeforeMarch (year + 1) ≤ daysBeforeMarch year + 366 := by
    rw [daysBeforeMarch_succ]
    split_ifs <;> omega
  obtain ⟨rank, hrank⟩ : ∃ rank, rank = (5 * (day + 719468 - daysBeforeMarch year) + 2) / 153 :=
    ⟨_, rfl⟩
  have hmonth : monthOf day = 12 * year + rank + 2 := by rw [hrank]; rfl
  have hstart : monthStart (monthOf day) ≤ day := by
    rw [hmonth, monthStart_eq (by omega) (by omega)]
    omega
  refine ⟨hstart, ?_⟩
  rcases eq_or_lt_of_le (by omega : rank ≤ 11) with hlast | hbefore
  · have hnext : 12 * year + rank + 2 + 1 = 12 * (year + 1) + 0 + 2 := by omega
    rw [hmonth, hnext, monthStart_eq le_rfl (by omega)]
    omega
  · have hnext : 12 * year + rank + 2 + 1 = 12 * year + (rank + 1) + 2 := by omega
    rw [hmonth, hnext, monthStart_eq (by omega) (by omega)]
    omega

/-- Later months start later. -/
theorem monthStart_strictMono : StrictMono monthStart := by
  refine strictMono_int_of_lt_succ fun month => ?_
  rw [monthStart_succ]
  have := monthLength_pos month
  omega

/-- The month of a day is the only one that has it. -/
theorem monthOf_eq {month day : ℤ} (hlow : monthStart month ≤ day)
    (hhigh : day < monthStart (month + 1)) : monthOf day = month := by
  obtain ⟨hfirst, hlast⟩ := monthOf_spec day
  have hle := monthStart_strictMono.lt_iff_lt.mp (hlow.trans_lt hlast)
  have hge := monthStart_strictMono.lt_iff_lt.mp (hfirst.trans_lt hhigh)
  omega

/-- Days before a day of the month, from 0 on. -/
def dayOf (day : ℤ) : ℤ := day - monthStart (monthOf day)

/-- The day of a month is counted from zero. -/
theorem dayOf_nonneg (day : ℤ) : 0 ≤ dayOf day := by
  have := (monthOf_spec day).1
  unfold dayOf
  omega

/-- The day of a month is less than the length of the month. -/
theorem dayOf_lt (day : ℤ) : dayOf day < monthLength (monthOf day) := by
  have hlast := (monthOf_spec day).2
  rw [monthStart_succ] at hlast
  unfold dayOf
  omega

/-- The day of a month is at most the thirty-first. -/
theorem dayOf_le (day : ℤ) : dayOf day ≤ 30 := by
  have hlt := dayOf_lt day
  have hlength := monthLength_le (monthOf day)
  omega

/-- A day is the start of its month and the day of the month together. -/
theorem start_add_dayOf (day : ℤ) : monthStart (monthOf day) + dayOf day = day := by
  unfold dayOf
  omega

/-- A date moved by months: the day of the month stays, if there is one. -/
def addMonths (n day : ℤ) : ℤ :=
  monthStart (monthOf day + n) + min (dayOf day) (monthLength (monthOf day + n) - 1)

/-- A day some months on lies in the month that many months on. -/
theorem addMonths_bounds (n day : ℤ) :
    monthStart (monthOf day + n) ≤ addMonths n day ∧
      addMonths n day < monthStart (monthOf day + n + 1) := by
  have hnonneg := dayOf_nonneg day
  have hlength := monthLength_pos (monthOf day + n)
  rw [monthStart_succ]
  unfold addMonths
  omega

/-- The month of a day some months on is that many months on. -/
@[simp] theorem monthOf_addMonths (n day : ℤ) : monthOf (addMonths n day) = monthOf day + n :=
  monthOf_eq (addMonths_bounds n day).1 (addMonths_bounds n day).2

/-- The day of the month stays, unless the month is too short for it. -/
theorem dayOf_addMonths (n day : ℤ) :
    dayOf (addMonths n day) = min (dayOf day) (monthLength (monthOf day + n) - 1) := by
  rw [dayOf, monthOf_addMonths, addMonths]
  omega

/-- A day no months on is the day itself. -/
@[simp] theorem addMonths_zero (day : ℤ) : addMonths 0 day = day := by
  have hlt := dayOf_lt day
  have hday := start_add_dayOf day
  rw [addMonths, add_zero]
  omega

/-- A move by months keeps the order of dates. -/
theorem addMonths_mono (n : ℤ) : Monotone (addMonths n) := by
  intro day later hle
  rcases lt_trichotomy (monthOf day) (monthOf later) with hlt | heq | hgt
  · have hnext : monthStart (monthOf day + n + 1) ≤ monthStart (monthOf later + n) :=
      monthStart_strictMono.monotone (by omega)
    have hday := (addMonths_bounds n day).2
    have hlater := (addMonths_bounds n later).1
    omega
  · have hdays : dayOf day ≤ dayOf later := by
      unfold dayOf
      rw [heq]
      omega
    unfold addMonths
    rw [heq]
    omega
  · have hnext : monthStart (monthOf later + 1) ≤ monthStart (monthOf day) :=
      monthStart_strictMono.monotone (by omega)
    have hday := (monthOf_spec day).1
    have hlater := (monthOf_spec later).2
    omega

/-- A move by more months leads to a later date. -/
theorem addMonths_lt {n m : ℤ} (h : n < m) (day : ℤ) : addMonths n day < addMonths m day := by
  have hnext : monthStart (monthOf day + n + 1) ≤ monthStart (monthOf day + m) :=
    monthStart_strictMono.monotone (by omega)
  have hfirst := (addMonths_bounds n day).2
  have hsecond := (addMonths_bounds m day).1
  omega

/-- Moving there and back leads to the same day of the month, or to an earlier one when the
month between is shorter. -/
theorem addMonths_back (n day : ℤ) :
    addMonths (-n) (addMonths n day) =
      monthStart (monthOf day) + min (dayOf day) (monthLength (monthOf day + n) - 1) := by
  have hlt := dayOf_lt day
  rw [addMonths, monthOf_addMonths, dayOf_addMonths, add_neg_cancel_right]
  omega

/-- One day later, moving back is no longer too early. -/
theorem le_addMonths_back_succ (n day : ℤ) : day ≤ addMonths (-n) (addMonths n day + 1) := by
  have hday := start_add_dayOf day
  by_cases hshort : dayOf day < monthLength (monthOf day + n)
  · have hsame : addMonths (-n) (addMonths n day) = day := by
      rw [addMonths_back]
      omega
    calc day = addMonths (-n) (addMonths n day) := hsame.symm
      _ ≤ addMonths (-n) (addMonths n day + 1) := addMonths_mono _ (by omega)
  · -- the day is the last one of a shorter month, so the next is the first of a month
    have hnext : addMonths n day + 1 = monthStart (monthOf day + n + 1) := by
      rw [monthStart_succ, addMonths]
      omega
    have hmonth : monthOf (addMonths n day + 1) = monthOf day + n + 1 := by
      refine monthOf_eq hnext.ge ?_
      rw [hnext]
      exact monthStart_strictMono (by omega)
    have hback := (addMonths_bounds (-n) (addMonths n day + 1)).1
    rw [hmonth] at hback
    have hlast := (monthOf_spec day).2
    have heq : monthOf day + n + 1 + -n = monthOf day + 1 := by omega
    rw [heq] at hback
    omega

end AutoBit.Library
