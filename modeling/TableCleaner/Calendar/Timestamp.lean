import TableCleaner.Calendar.Layout

/-!
# Timestamps with an offset

The strict form of a date and time with an offset from universal time: four digits for the year,
two for every other field, `T` or a blank between date and time, and `Z` or an offset at the end.
The offset is checked and dropped, so the reading is the time on the clock of the writer.
-/

namespace TableCleaner.Timestamp

/-- One character of a set. -/
def oneOf? (cs : List Char) : List Char → Option (List Char)
  | c :: r => if cs.contains c then some r else none
  | [] => none

/-- `Z`, or a sign and an offset of less than a day. -/
def isOffset (s : List Char) : Bool :=
  if s = ['Z'] || s = ['z'] then true
  else
    let ends : Option Bool := do
      let s ← oneOf? ['+', '-', '−'] s
      let (hour, s) ← Layout.readExactly? 2 s
      let s ← oneOf? [':'] s
      let (minute, s) ← Layout.readExactly? 2 s
      return hour < 24 && minute < 60 && s.isEmpty
    ends.getD false

def read? (s : List Char) : Option DateTime := do
  let (year, s) ← Layout.readExactly? 4 s
  let s ← oneOf? ['-'] s
  let (month, s) ← Layout.readExactly? 2 s
  let s ← oneOf? ['-'] s
  let (day, s) ← Layout.readExactly? 2 s
  let s ← oneOf? ['T', 't', ' '] s
  let (hour, s) ← Layout.readExactly? 2 s
  let s ← oneOf? [':'] s
  let (minute, s) ← Layout.readExactly? 2 s
  let s ← oneOf? [':'] s
  let (second, s) ← Layout.readExactly? 2 s
  let (nanos, s) ← Layout.readFraction? s
  if isOffset s then
    DateFields.dateTime? ⟨year, month, day, hour, minute, second, nanos, none⟩
  else none

end TableCleaner.Timestamp
