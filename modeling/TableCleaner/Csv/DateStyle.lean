import TableCleaner.Calendar.Aligned
import TableCleaner.Calendar.Reading
import TableCleaner.Text.Shape

/-!
# Dates in comma separated values

A date belongs to a style: the day first or the year first, alone or with a time, or with an offset
from universal time. The first value of a chunk fixes its style, and the layout of a value is tried
on the next one place by place before all layouts of the style are.
-/

namespace TableCleaner.Csv

inductive DateStyle where
  | dayFirst
  | yearFirst
  | time
  | dayFirstMoment
  | yearFirstMoment
  | instant
deriving DecidableEq, Repr

namespace DateStyle

open LayoutItem

/-! ## Layouts -/

def dayFirstDate (mark : Char) : Layout := [day, fixed mark, month, fixed mark, year]

def yearFirstDate (mark : Char) : Layout := [year, fixed mark, month, fixed mark, day]

/-- A point and a number of digits. -/
def exactFraction (count : Nat) : Layout := [fixed '.', fractionDigits count]

/-- The layouts of a time after a date with the year first. -/
def times : List Layout :=
  let clocks : List Layout := [Layout.clock, [hour, minute, second]]
  clocks ++ [[hour, fixed ':', minute], [hour, minute]] ++
    clocks.flatMap fun clock => [9, 6, 3].map fun count => clock ++ exactFraction count

/-- The year first, with a time. -/
def timed : List Layout :=
  [fixed 'T', blank].flatMap fun mark =>
    times.flatMap fun time =>
      ['/', '-', '.'].map fun separator => yearFirstDate separator ++ mark :: time

/-- A timestamp with blanks before its marks. -/
def spacedTimestamp : Layout :=
  [year, blank, fixed '-', month, blank, fixed '-', day, timeMark, hour, blank, fixed ':', minute,
    blank, fixed ':', second, fraction, zone]

/-- The layouts of a style, in the order in which they are tried. -/
def layouts : DateStyle → List Layout
  | dayFirst => ['-', '/', '.'].map dayFirstDate
  | yearFirst => ['/', '-', '.'].map yearFirstDate
  | time => [Layout.clock ++ [fraction]]
  | dayFirstMoment =>
    [dayFirstDate '/' ++ blank :: Layout.clock,
      dayFirstDate '-' ++ [blank, hour, fixed ':', minute],
      dayFirstDate '-' ++ blank :: Layout.clock,
      dayFirstDate '-' ++ blank :: Layout.clock ++ [fraction],
      dayFirstDate '-']
  | yearFirstMoment =>
    timed ++ ['/', '-', '.'].map yearFirstDate ++
      [yearFirstDate '-' ++ fixed 'T' :: Layout.clock ++ [fraction]]
  | instant => timed.map (· ++ [offset]) ++ [spacedTimestamp]

/-- The styles in the order in which they are tried. -/
def all : List DateStyle := [dayFirst, yearFirst, time, dayFirstMoment, yearFirstMoment, instant]

/-- Some layout of the style fits the text. -/
def fits (style : DateStyle) (s : List Char) : Bool :=
  style.layouts.any fun layout =>
    match layout.readFields? {} s with
    | some f => if style = time then f.time?.isSome else f.dateTime?.isSome
    | none => false

/-- The style of a text. -/
def of? (s : List Char) : Option DateStyle := all.find? (·.fits s)

/-! ## Shapes -/

open Text.Shape in
/-- The shape that a value of the style has, unless it fits the first layout. Dates alone may have
any shape. -/
def hasShape (style : DateStyle) (s : List Char) : Bool :=
  let mark := oneOf ['-', '/', '.']
  let month := [maybe (oneOf ['0', '1']), digits 1 0]
  let colon := maybe (oneOf [':'])
  let fraction := maybe (sequence [oneOf ['.'], digits 1 8])
  let time := maybe (sequence [oneOf ['T', ' '], digits 1 1, colon, digits 1 1,
    maybe (sequence [colon, digits 1 1, fraction])])
  let offset := either (oneOf ['Z']) (sequence [oneOf ['+', '-'], digits 2 0, colon, digits 2 0])
  let dayFirstDate := [digits 1 1, mark] ++ month ++ [mark, digits 4 s.length]
  let yearFirstDate := [digits 4 s.length, mark] ++ month ++ [mark, digits 1 1]
  match style with
  | dayFirst | yearFirst | DateStyle.time => true
  | dayFirstMoment => (sequence (dayFirstDate ++ [time])).fits s
  | yearFirstMoment => (sequence (yearFirstDate ++ [time])).fits s
  | instant =>
    (sequence (yearFirstDate ++ [oneOf ['T', ' '], digits 2 0, colon, digits 2 0,
      maybe (sequence [colon, digits 2 0, fraction]), offset])).fits s

/-- The microseconds of a text in some layout, at universal time. -/
def micros? (layout : Layout) (s : List Char) : Option Int := do
  let f ← layout.readFields? {} s
  let t ← f.dateTime?
  let offset := f.offset.getD 0
  if offset.natAbs < 86400 then some (t.micros - offset * 1000000) else none

/-- The microseconds of a value of the style, and the layout that it has. -/
def read? (style : DateStyle) (s : List Char) : Option (Int × Layout) :=
  let reading (layout : Layout) : Option (Int × Layout) := (micros? layout s).map (·, layout)
  (style.layouts.head?.bind reading).or <|
    if style.hasShape s then style.layouts.findSome? reading else none

end DateStyle

/-- What a value tells about the values after it. -/
structure DateHint where
  style : DateStyle
  layout : Layout

namespace DateHint

/-- Reads a text with all its fields in their places. -/
def readAligned? (h : DateHint) (s : List Char) : Option Int :=
  match h.layout.width? with
  | none => none
  | some width =>
    h.style.layouts.findSome? fun layout =>
      if layout.width? = some width then (layout.readAligned? s).map DateTime.micros else none

end DateHint

/-- Reads the values of a chunk in a row, where `none` is a missing one. The style of the first is
among those allowed. -/
def readDates? (allowed : List DateStyle) (hint : Option DateHint) :
    List (Option (List Char)) → Option (List (Option Int))
  | [] => some []
  | none :: rest => do return none :: (← readDates? allowed hint rest)
  | some s :: rest =>
    match hint.bind (·.readAligned? s) with
    | some n => do return some n :: (← readDates? allowed hint rest)
    | none => do
      let style ← (hint.map DateHint.style).or (DateStyle.of? s)
      if allowed.contains style then
        let (n, layout) ← style.read? s
        return some n :: (← readDates? allowed (some ⟨style, layout⟩) rest)
      else none

end TableCleaner.Csv
