/-! # The Gregorian calendar

Dates of the proleptic Gregorian calendar and their day numbers, counted from 1 January of year 1. Main
statements: `dayNumber_succ_month`, by which the first of the next month is `monthLength` days away. -/

namespace Stencil.Calendar

/-- A year, a month from 1 to 12, and a day from 1. -/
structure Date where
  year : Int
  month : Nat
  day : Nat
  deriving DecidableEq, Repr

/-- Whether February has 29 days by the Gregorian rule. -/
def isLeap (year : Int) : Bool := year % 4 == 0 && (year % 100 != 0 || year % 400 == 0)

def monthLength (year : Int) (month : Nat) : Nat :=
  if month = 2 then if isLeap year then 29 else 28
  else if month = 4 ∨ month = 6 ∨ month = 9 ∨ month = 11 then 30
  else 31

/-- The years in which dates exist. -/
def firstYear : Int := -262143

def lastYear : Int := 262142

/-- The date, if the calendar has it in a year in which dates exist. -/
def Date.ofParts? (year : Int) (month day : Nat) : Option Date :=
  if firstYear ≤ year ∧ year ≤ lastYear ∧ 1 ≤ month ∧ month ≤ 12 ∧ 1 ≤ day ∧
      day ≤ monthLength year month then
    some ⟨year, month, day⟩
  else none

/-- The days of the years before `year`, from year 1 on. -/
def daysBeforeYear (year : Int) : Int :=
  let y := year - 1
  365 * y + y / 4 - y / 100 + y / 400

/-- The days of the months before `month` in `year`. -/
def daysBeforeMonth (year : Int) : (month : Nat) → Nat
  | 0 | 1 => 0
  | month + 2 => daysBeforeMonth year (month + 1) + monthLength year (month + 1)

namespace Date

/-- The day of the year, counted from zero. -/
def ordinal (d : Date) : Nat := daysBeforeMonth d.year d.month + d.day - 1

/-- The days since 1 January of year 1. -/
def dayNumber (d : Date) : Int := daysBeforeYear d.year + d.ordinal

/-- The date at a place in its year: the month is found by its length. -/
def inYear (year : Int) (ordinal : Nat) : Date :=
  go 1 11 ordinal
where
  /-- `more` months may follow `month`, in which `left` days have passed. -/
  go (month : Nat) : (more left : Nat) → Date
  | 0, left => ⟨year, month, left + 1⟩
  | more + 1, left =>
    if left < monthLength year month then ⟨year, month, left + 1⟩
    else go (month + 1) more (left - monthLength year month)

/-- The date with a day number: whole cycles of 400, 100, 4 and 1 years go off first. -/
def ofDayNumber (n : Int) : Date :=
  let cycles := n / 146097
  let n := (n % 146097).toNat
  let centuries := min (n / 36524) 3
  let n := n - centuries * 36524
  let fours := n / 1461
  let n := n - fours * 1461
  let years := min (n / 365) 3
  inYear (400 * cycles + 100 * centuries + 4 * fours + years + 1) (n - years * 365)

/-- The day of the week, Monday being zero. -/
def weekday (d : Date) : Nat := (d.dayNumber % 7).toNat

/-- The year and the number of the week of a date: a week belongs to the year of its Thursday. -/
def week (d : Date) : Int × Nat :=
  let thursday := ofDayNumber (d.dayNumber + 3 - d.weekday)
  (thursday.year, thursday.ordinal / 7 + 1)

end Date

/-- The number of days from the first of a month to the first of the next one; 30 where one of the
two dates does not exist. -/
def daysInMonth (year : Int) (month : Nat) : Int :=
  let (nextYear, nextMonth) := if month = 12 then (year + 1, 1) else (year, month + 1)
  match Date.ofParts? year month 1, Date.ofParts? nextYear nextMonth 1 with
  | some first, some next => next.dayNumber - first.dayNumber
  | _, _ => 30

/-- Whether the year has a 29 February. -/
def hasLeapDay (year : Int) : Bool := (Date.ofParts? year 2 29).isSome

theorem daysBeforeYear_succ (year : Int) :
    daysBeforeYear (year + 1) = daysBeforeYear year + if isLeap year then 366 else 365 := by
  simp only [daysBeforeYear, isLeap, Bool.and_eq_true, Bool.or_eq_true, beq_iff_eq, bne_iff_ne]
  split <;> omega

theorem daysBeforeMonth_thirteen (year : Int) :
    daysBeforeMonth year 12 + monthLength year 12 = if isLeap year then 366 else 365 := by
  cases h : isLeap year <;> simp [daysBeforeMonth, monthLength, h]

theorem dayNumber_succ_month (year : Int) (month : Nat) (h : 1 ≤ month) :
    (Date.mk year (month + 1) 1).dayNumber = (Date.mk year month 1).dayNumber + monthLength year month := by
  obtain ⟨m, rfl⟩ : ∃ m, month = m + 1 := ⟨month - 1, by omega⟩
  simp only [Date.dayNumber, Date.ordinal, daysBeforeMonth, Nat.add_sub_cancel]
  omega

theorem dayNumber_succ_year (year : Int) :
    (Date.mk (year + 1) 1 1).dayNumber = (Date.mk year 12 1).dayNumber + monthLength year 12 := by
  have h₁ := daysBeforeYear_succ year
  have h₂ := daysBeforeMonth_thirteen year
  simp only [Date.dayNumber, Date.ordinal, Nat.add_sub_cancel, h₁]
  simp only [daysBeforeMonth] at *
  split at h₁ <;> simp_all <;> omega

end Stencil.Calendar
