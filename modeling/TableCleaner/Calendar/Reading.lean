import TableCleaner.Calendar.Timestamp

/-!
# Dates in free text

A text is read as a timestamp with an offset, then by the layouts of a date with a time, then by
those of a date alone, which is taken at midnight. The first that fits the whole text wins.
-/

namespace TableCleaner

namespace Layout

open LayoutItem

/-- `2024-03-09` -/
def yearFirst : Layout := [year, fixed '-', month, fixed '-', day]

/-- `08:30:00` -/
def clock : Layout := [hour, fixed ':', minute, fixed ':', second]

/-- `2024-03-09 08:30:00` -/
def dateAndClock : Layout := yearFirst ++ [blank] ++ clock

/-- The layouts of a date with a time, in the order in which they are tried. -/
def dateTimeLayouts : List Layout :=
  [dateAndClock ++ [fraction],
    yearFirst ++ [fixed 'T'] ++ clock ++ [fraction],
    [year, fixed '/', month, fixed '/', day, blank] ++ clock]

/-- The layouts of a date, in the order in which they are tried. -/
def dateLayouts : List Layout :=
  [yearFirst,
    [year, fixed '/', month, fixed '/', day],
    [month, fixed '/', day, fixed '/', year],
    [day, fixed '-', month, fixed '-', year],
    [day, fixed '.', month, fixed '.', year],
    [monthName, blank, day, fixed ',', blank, year],
    [shortMonthName, blank, day, fixed ',', blank, year],
    [day, blank, monthName, blank, year]]

end Layout

namespace DateTime

/-- Reads a text that holds a date and nothing else but blanks around it. -/
def readChars? (s : List Char) : Option DateTime :=
  let s := Text.trim s
  if s.isEmpty then none
  else
    (Timestamp.read? s).or <|
      (Layout.dateTimeLayouts.findSome? (·.readDateTime? s)).or <|
        (Layout.dateLayouts.findSome? (·.readDate? s)).map atMidnight

def read? (s : String) : Option DateTime := readChars? s.toList

/-- The date alone at midnight, else the date and the whole seconds. -/
def writeChars (t : DateTime) : List Char :=
  if t.time = .midnight then Layout.yearFirst.writeChars t
  else Layout.dateAndClock.writeChars t

end DateTime

end TableCleaner
