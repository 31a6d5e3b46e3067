import TableCleaner.Calendar.Layout

/-!
# Aligned dates

In an aligned text every field takes all the characters of its width, so each item of the layout
has its place. A number that ends before its place does is taken as it is.
-/

namespace TableCleaner

/-- The characters that an item takes; none for an item without a width of its own. -/
def LayoutItem.width? : LayoutItem → Option Nat
  | .year => some 4
  | .month | .day | .hour | .minute | .second => some 2
  | .fractionDigits count => some count
  | .blank | .fixed _ => some 1
  | .fraction | .monthName | .shortMonthName | .timeMark | .offset | .zone => none

namespace Layout

/-- The characters that a layout takes, if each of its items has a width. -/
def width? : Layout → Option Nat
  | [] => some 0
  | item :: layout => do return (← item.width?) + (← width? layout)

/-- The number at the front of a place. -/
def placedNumber? (place : List Char) : Option Nat :=
  let ds := place.takeWhile Decimal.isDigit
  if ds.isEmpty then none else some (Decimal.digitsValue ds)

/-- The fields with one more from its place. -/
def readPlace? (f : DateFields) (place : List Char) : LayoutItem → Option DateFields
  | .year => (placedNumber? place).map fun n => { f with year := n }
  | .month => (placedNumber? place).map fun n => { f with month := n }
  | .day => (placedNumber? place).map fun n => { f with day := n }
  | .hour => (placedNumber? place).map fun n => { f with hour := n }
  | .minute => (placedNumber? place).map fun n => { f with minute := n }
  | .second => (placedNumber? place).map fun n => { f with second := n }
  | .fractionDigits count =>
    (placedNumber? place).map fun n => { f with nanos := n * Nat.pow 10 (9 - count) }
  | .blank => if place = [' '] then some f else none
  | .fixed c => if place = [c] then some f else none
  | .fraction | .monthName | .shortMonthName | .timeMark | .offset | .zone => none

/-- Reads the items, each from its place. -/
def readPlaces? : Layout → DateFields → List Char → Option DateFields
  | [], f, s => if s.isEmpty then some f else none
  | item :: layout, f, s => do
    let width ← item.width?
    readPlaces? layout (← readPlace? f (s.take width) item) (s.drop width)

/-- Reads an aligned text. A minus sign may stand before a year at the front. -/
def readAligned? (layout : Layout) (s : List Char) : Option DateTime := do
  let isNegative := s.head? = some '-' && layout.head? = some .year
  let body := if isNegative then s.drop 1 else s
  if layout.width? = some body.length && s.all (·.toNat < 128) then
    let f ← readPlaces? layout {} body
    let year := if isNegative then -f.year else f.year
    return ⟨← Date.of? year f.month f.day, ← TimeOfDay.of? f.hour f.minute f.second f.nanos⟩
  else none

end Layout

end TableCleaner
