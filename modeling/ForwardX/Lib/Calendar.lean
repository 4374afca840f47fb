/-
The proleptic Gregorian calendar over day numbers, day 0 being 1 January 1970.
-/
import Mathlib.Data.Int.ConditionallyCompleteOrder
import Mathlib.Tactic.IntervalCases

namespace ForwardX.Calendar

/-! ## Years -/

def leap (y : ℤ) : Bool := y % 4 = 0 ∧ (y % 100 ≠ 0 ∨ y % 400 = 0)

def yearLength (y : ℤ) : ℤ := if leap y then 366 else 365

/-- The number of 1 January of year `y`. -/
def dayFromYear (y : ℤ) : ℤ :=
  365 * (y - 1970) + (y - 1969) / 4 - (y - 1901) / 100 + (y - 1601) / 400

theorem dayFromYear_succ (y : ℤ) : dayFromYear (y + 1) = dayFromYear y + yearLength y := by
  unfold dayFromYear yearLength leap
  split
  · rename_i h
    simp only [decide_eq_true_eq] at h
    omega
  · rename_i h
    simp only [decide_eq_true_eq] at h
    omega

variable (d : ℤ)

/-- The year of a day: the average year length is 146097 / 400 days, and the
quotient is off by one year at most. -/
def yearFromDay : ℤ :=
  let y := d * 400 / 146097 + 1970
  if d < dayFromYear y then y - 1 else if dayFromYear (y + 1) ≤ d then y + 1 else y

theorem yearFromDay_spec : dayFromYear (yearFromDay d) ≤ d ∧ d < dayFromYear (yearFromDay d + 1) := by
  have hlow : dayFromYear (d * 400 / 146097 + 1970 - 1) ≤ d := by
    unfold dayFromYear
    omega
  have hhigh : d < dayFromYear (d * 400 / 146097 + 1970 + 1 + 1) := by
    unfold dayFromYear
    omega
  unfold yearFromDay
  simp only
  split
  · rename_i h
    rw [sub_add_cancel]
    exact ⟨hlow, h⟩
  · rename_i h
    split
    · rename_i h'
      exact ⟨h', hhigh⟩
    · rename_i h'
      exact ⟨by omega, by omega⟩

/-! ## Months -/

def daysInMonth (y m : ℤ) : ℤ :=
  if m = 2 then if leap y then 29 else 28
  else if m = 4 ∨ m = 6 ∨ m = 9 ∨ m = 11 then 30
  else 31

def daysBeforeMonth (y m : ℤ) : ℤ :=
  (367 * m - 362) / 12 - if m ≤ 2 then 0 else if leap y then 1 else 2

/-- The month of the `k`-th day of the year, from 0. -/
def monthFromDay (y k : ℤ) : ℤ :=
  (12 * (k + if k < daysBeforeMonth y 3 then 0 else if leap y then 1 else 2) + 373) / 367

theorem daysInMonth_ge (y m : ℤ) : 28 ≤ daysInMonth y m := by
  unfold daysInMonth
  split
  · split <;> omega
  · split <;> omega

theorem daysBeforeMonth_succ {y m : ℤ} (hm : 1 ≤ m ∧ m ≤ 12) :
    daysBeforeMonth y (m + 1) = daysBeforeMonth y m + daysInMonth y m := by
  obtain ⟨hlow, hhigh⟩ := hm
  unfold daysBeforeMonth daysInMonth
  interval_cases m <;> cases leap y <;> rfl

theorem daysBeforeMonth_one (y : ℤ) : daysBeforeMonth y 1 = 0 := by
  simp [daysBeforeMonth]

theorem daysBeforeMonth_thirteen (y : ℤ) : daysBeforeMonth y 13 = yearLength y := by
  unfold daysBeforeMonth yearLength
  split_ifs <;> omega

theorem monthFromDay_spec {y k : ℤ} (hk : 0 ≤ k ∧ k < yearLength y) :
    (1 ≤ monthFromDay y k ∧ monthFromDay y k ≤ 12) ∧
      daysBeforeMonth y (monthFromDay y k) ≤ k ∧
      k < daysBeforeMonth y (monthFromDay y k + 1) := by
  unfold monthFromDay
  unfold yearLength at hk
  unfold daysBeforeMonth
  split_ifs at * <;> omega

/-! ## Dates -/

structure Date where
  year : ℤ
  month : ℤ
  day : ℤ
  month_range : 1 ≤ month ∧ month ≤ 12
  day_range : 1 ≤ day ∧ day ≤ daysInMonth year month
  deriving Repr

def Date.toDay (c : Date) : ℤ := dayFromYear c.year + daysBeforeMonth c.year c.month + (c.day - 1)

def Date.monthIndex (c : Date) : ℤ := c.year * 12 + c.month - 1

/-- The first day of the month with index `i`. -/
def monthStart (i : ℤ) : ℤ := dayFromYear (i / 12) + daysBeforeMonth (i / 12) (i % 12 + 1)

/-- The length of the month with index `i`. -/
def monthLength (i : ℤ) : ℤ := daysInMonth (i / 12) (i % 12 + 1)

theorem monthLength_ge (i : ℤ) : 28 ≤ monthLength i := daysInMonth_ge _ _

theorem monthStart_succ (i : ℤ) : monthStart (i + 1) = monthStart i + monthLength i := by
  unfold monthStart monthLength
  by_cases hlast : i % 12 = 11
  · -- December: the next month begins a year
    have hdiv : (i + 1) / 12 = i / 12 + 1 := by omega
    have hmod : (i + 1) % 12 = 0 := by omega
    have hyear := daysBeforeMonth_succ (y := i / 12) (m := 12) (by omega)
    rw [show (12 : ℤ) + 1 = 13 from rfl, daysBeforeMonth_thirteen] at hyear
    rw [hdiv, hmod, hlast, zero_add, daysBeforeMonth_one, dayFromYear_succ]
    simp only [show (11 : ℤ) + 1 = 12 from rfl]
    omega
  · have hdiv : (i + 1) / 12 = i / 12 := by omega
    have hmod : (i + 1) % 12 = i % 12 + 1 := by omega
    rw [hdiv, hmod, daysBeforeMonth_succ (by omega)]
    omega

theorem monthStart_strictMono : StrictMono monthStart := by
  apply strictMono_int_of_lt_succ
  intro i
  have hlen := monthLength_ge i
  have hsucc := monthStart_succ i
  omega

theorem Date.toDay_eq (c : Date) : c.toDay = monthStart c.monthIndex + (c.day - 1) := by
  have hm := c.month_range
  have hdiv : c.monthIndex / 12 = c.year := by unfold Date.monthIndex; omega
  have hmod : c.monthIndex % 12 + 1 = c.month := by unfold Date.monthIndex; omega
  unfold Date.toDay monthStart
  rw [hdiv, hmod]

theorem Date.day_le_monthLength (c : Date) : c.day ≤ monthLength c.monthIndex := by
  have hm := c.month_range
  have hdiv : c.monthIndex / 12 = c.year := by unfold Date.monthIndex; omega
  have hmod : c.monthIndex % 12 + 1 = c.month := by unfold Date.monthIndex; omega
  unfold monthLength
  rw [hdiv, hmod]
  exact c.day_range.2

def dayWithinYear : ℤ := d - dayFromYear (yearFromDay d)

theorem dayWithinYear_range : 0 ≤ dayWithinYear d ∧ dayWithinYear d < yearLength (yearFromDay d) := by
  have hspec := yearFromDay_spec d
  have hsucc := dayFromYear_succ (yearFromDay d)
  unfold dayWithinYear
  omega

def ofDay : Date where
  year := yearFromDay d
  month := monthFromDay (yearFromDay d) (dayWithinYear d)
  day := dayWithinYear d -
    daysBeforeMonth (yearFromDay d) (monthFromDay (yearFromDay d) (dayWithinYear d)) + 1
  month_range := (monthFromDay_spec (dayWithinYear_range d)).1
  day_range := by
    have hm := monthFromDay_spec (dayWithinYear_range d)
    have hsucc := daysBeforeMonth_succ (y := yearFromDay d) hm.1
    omega

@[simp] theorem toDay_ofDay : (ofDay d).toDay = d := by
  simp only [Date.toDay, ofDay, dayWithinYear]
  omega

theorem monthStart_le :
    monthStart (ofDay d).monthIndex ≤ d ∧ d < monthStart ((ofDay d).monthIndex + 1) := by
  have hday := (ofDay d).toDay_eq
  have hlen := (ofDay d).day_le_monthLength
  have hpos := (ofDay d).day_range.1
  have hsucc := monthStart_succ (ofDay d).monthIndex
  rw [toDay_ofDay] at hday
  omega

theorem day_ofDay : (ofDay d).day = d - monthStart (ofDay d).monthIndex + 1 := by
  have hday := (ofDay d).toDay_eq
  rw [toDay_ofDay] at hday
  omega

def Date.ofMonthIndex (i day : ℤ) (hday : 1 ≤ day ∧ day ≤ monthLength i) : Date where
  year := i / 12
  month := i % 12 + 1
  day := day
  month_range := by omega
  day_range := hday

theorem Date.toDay_ofMonthIndex {i day : ℤ} (hday : 1 ≤ day ∧ day ≤ monthLength i) :
    (Date.ofMonthIndex i day hday).toDay = monthStart i + (day - 1) := rfl

end ForwardX.Calendar
