import TableCleaner.Calendar.Date

/-!
# Dates with a time of day

A time of day has whole seconds and a fraction in nanoseconds. A leap second follows the second 59;
it is the second 59 with a fraction of one second or more.
-/

namespace TableCleaner

/-- The nanoseconds of a second. -/
def nanosPerSecond : Nat := 1000000000

/-- The numbers name a time of day. -/
def IsTime (hour minute second nanos : Nat) : Prop :=
  hour < 24 ∧ minute < 60 ∧ second < 60 ∧
    (nanos < nanosPerSecond ∨ (second = 59 ∧ nanos < 2 * nanosPerSecond))

instance (hour minute second nanos : Nat) : Decidable (IsTime hour minute second nanos) :=
  inferInstanceAs (Decidable (_ ∧ _))

structure TimeOfDay where
  hour : Nat
  minute : Nat
  second : Nat
  nanos : Nat
  isTime : IsTime hour minute second nanos
deriving DecidableEq

namespace TimeOfDay

def of? (hour minute second nanos : Nat) : Option TimeOfDay :=
  if h : IsTime hour minute second nanos then some ⟨hour, minute, second, nanos, h⟩ else none

def midnight : TimeOfDay := ⟨0, 0, 0, 0, by decide⟩

/-- The time a number of nanoseconds after midnight. -/
def ofNanos? (n : Nat) : Option TimeOfDay :=
  let s := n / nanosPerSecond
  of? (s / 3600) (s / 60 % 60) (s % 60) (n % nanosPerSecond)

end TimeOfDay

structure DateTime where
  date : Date
  time : TimeOfDay
deriving DecidableEq

namespace DateTime

def atMidnight (date : Date) : DateTime := ⟨date, .midnight⟩

/-- The moment a number of units after the start of 1970, with `perSecond` units in a second. -/
def ofUnits? (perSecond : Nat) (n : Int) : Option DateTime := do
  let perDay : Int := 86400 * perSecond
  let date ← Date.ofDayNumber? (n / perDay)
  let time ← TimeOfDay.ofNanos? ((n % perDay).toNat * (nanosPerSecond / perSecond))
  return ⟨date, time⟩

/-- The whole microseconds from the start of 1970. -/
def micros (t : DateTime) : Int :=
  (t.date.dayNumber * 86400 + (t.time.hour * 3600 + t.time.minute * 60 + t.time.second : Nat)) *
    1000000 + (t.time.nanos / 1000 : Nat)

end DateTime

end TableCleaner
