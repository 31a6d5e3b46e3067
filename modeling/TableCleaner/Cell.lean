import TableCleaner.Calendar.Reading
import TableCleaner.Json.Printer
import TableCleaner.Json.Record

/-!
# Cells

A cell is one value of a column. Cells of different kinds stand side by side, so two cells hold the
same value when their keys are equal: the key is the shown text, and an empty cell has none.
-/

namespace TableCleaner

inductive Cell where
  | null
  | number (x : Float)
  | int (i : Int64)
  | text (s : String)
  | bool (b : Bool)
  | dateTime (t : DateTime)
deriving DecidableEq

namespace Cell

def isNull : Cell → Bool
  | null => true
  | _ => false

/-- A number, or an empty cell for infinity and the undefined number. -/
def ofFloat (x : Float) : Cell := if x.isFinite then number x else null

/-- The shown text. Both zeros are shown without a sign. -/
def shownChars : Cell → List Char
  | null => []
  | number x => Decimal.plainStyle.chars (if x == 0.0 then 0.0 else x)
  | int i => Json.intChars i.toInt
  | text s => s.toList
  | bool b => Json.boolChars b
  | dateTime t => t.writeChars

def shown : Cell → String
  | text s => s
  | c => String.ofList c.shownChars

/-- What tells one value from another. -/
def key : Cell → Option String
  | null => none
  | c => some c.shown

/-- Equal as values: a number is compared as a number, so the undefined one differs from itself. -/
def same : Cell → Cell → Bool
  | number x, number y => x == y
  | a, b => a == b

/-! ## JSON -/

/-- The integer as a cell, when it fits. -/
def int64? (i : Int) : Option Int64 :=
  if -0x8000000000000000 ≤ i ∧ i < 0x8000000000000000 then some (Int64.ofInt i) else none

/-- The cell that a JSON value stands for. An array or an object is taken as its compact text. -/
def ofJson : Json → Cell
  | .null => null
  | .bool b => bool b
  | .int i =>
    match int64? i with
    | some i => int i
    | none => ofFloat (Decimal.ofInt i)
  | .float x => ofFloat x
  | .text s => text s
  | v => text v.compact

/-- The cell in a record: a date is its text, and a number without a JSON form is `null`. -/
def toJson : Cell → Json
  | null => .null
  | number x => if x.isFinite then .float x else .null
  | int i => .int i.toInt
  | text s => .text s
  | bool b => .bool b
  | dateTime t => .text (String.ofList t.writeChars)

/-! ## Readings -/

/-- The marks that group digits. -/
def isGroupMark (c : Char) : Bool :=
  c = ',' || c = '\'' || c = '_' || c = '\u00A0' || c = '\u202F'

/-- The finite number that a text holds, read without group marks and blanks around it. -/
def numberOfChars? (s : List Char) : Option Float :=
  (Decimal.readFloat? ((Text.trim s).filter (!isGroupMark ·))).filter (·.isFinite)

/-- The cell read as a number. A truth value counts 1 or 0; a date is no number. -/
def number? : Cell → Option Float
  | null | dateTime _ => none
  | number x => if x.isFinite then some x else none
  | int i => some (Decimal.ofInt i.toInt)
  | bool b => some (if b then 1.0 else 0.0)
  | text s => numberOfChars? s.toList

/-- The cell read as a date. Only dates and texts are. -/
def dateTime? : Cell → Option DateTime
  | dateTime t => some t
  | text s => DateTime.read? s
  | _ => none

end Cell

end TableCleaner
