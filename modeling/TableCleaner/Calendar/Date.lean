/-!
# Calendar dates

Dates of the Gregorian calendar, carried back before its start; the year 0 comes before the year 1.
The day number counts the days from 1 January 1970.
-/

namespace TableCleaner

def isLeapYear (year : Int) : Bool := year % 4 == 0 && (year % 100 != 0 || year % 400 == 0)

/-- The number of days of a month, which counts from 1. -/
def daysInMonth (year : Int) (month : Nat) : Nat :=
  if month = 2 then (if isLeapYear year then 29 else 28)
  else if month = 4 ∨ month = 6 ∨ month = 9 ∨ month = 11 then 30
  else 31

/-- The years that dates are kept for. -/
def firstYear : Int := -262143
def lastYear : Int := 262142

/-- The numbers name a day of the calendar. -/
def IsDate (year : Int) (month day : Nat) : Prop :=
  (firstYear ≤ year ∧ year ≤ lastYear) ∧ (1 ≤ month ∧ month ≤ 12) ∧
    (1 ≤ day ∧ day ≤ daysInMonth year month)

instance (year : Int) (month day : Nat) : Decidable (IsDate year month day) :=
  inferInstanceAs (Decidable (_ ∧ _))

structure Date where
  year : Int
  month : Nat
  day : Nat
  isDate : IsDate year month day
deriving DecidableEq

namespace Date

/-- The date with given numbers, if there is such a day. -/
def of? (year : Int) (month day : Nat) : Option Date :=
  if h : IsDate year month day then some ⟨year, month, day, h⟩ else none

/-- The days of the years 0 to `year - 1`. -/
def daysBeforeYear (year : Nat) : Nat :=
  365 * year + (year + 3) / 4 - (year + 99) / 100 + (year + 399) / 400

/-- The days of a cycle of 400 years. -/
def cycleDays : Nat := 146097

/-- The day number of 1 January of the year 0. -/
def yearZero : Int := -719528

/-- The days of a year before a date. -/
def daysBefore (d : Date) : Nat :=
  (List.range (d.month - 1)).foldl (fun n i => n + daysInMonth d.year (i + 1)) (d.day - 1)

def dayNumber (d : Date) : Int :=
  yearZero + cycleDays * (d.year / 400) + daysBeforeYear (d.year % 400).toNat + d.daysBefore

/-- The year within a cycle, for a day of the cycle. -/
def yearInCycle (r : Nat) : Nat :=
  if daysBeforeYear (r / 365) ≤ r then r / 365 else r / 365 - 1

/-- The month and the day of the month, for a day counted from the start of some month. -/
def monthFrom (year : Int) (month r : Nat) : (months : Nat) → Nat × Nat
  | 0 => (month, r + 1)
  | n + 1 =>
    if r < daysInMonth year month then (month, r + 1)
    else monthFrom year (month + 1) (r - daysInMonth year month) n

/-- The date with a given day number. -/
def ofDayNumber? (n : Int) : Option Date :=
  let cycle := (n - yearZero) / cycleDays
  let r := ((n - yearZero) % cycleDays).toNat
  let y := yearInCycle r
  let year := 400 * cycle + y
  let (month, day) := monthFrom year 1 (r - daysBeforeYear y) 11
  of? year month day

end Date

end TableCleaner
