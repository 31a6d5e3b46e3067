import TableCleaner.Table.Basic

/-!
# Frames

A frame is a table whose columns have a type each. A table becomes a frame by giving every column
the narrowest type that holds all its cells, and a frame becomes a table again cell by cell.
-/

namespace TableCleaner

/-- An integer type of a series. -/
structure IntType where
  isSigned : Bool
  bits : Nat
deriving DecidableEq, Repr

def IntType.int64 : IntType := ⟨true, 64⟩

/-- The units of a second that moments are counted in. -/
inductive TimeUnit where
  | milliseconds
  | microseconds
  | nanoseconds
deriving DecidableEq, Repr

/-- The digits of the fraction of a second. -/
def TimeUnit.digits : TimeUnit → Nat
  | milliseconds => 3
  | microseconds => 6
  | nanoseconds => 9

def TimeUnit.perSecond (unit : TimeUnit) : Nat := Nat.pow 10 unit.digits

/-- `2024-03-09 08:30:00.000`, with all digits of the unit. -/
def TimeUnit.layout (unit : TimeUnit) : Layout :=
  Layout.dateAndClock ++ [.fixed '.', .fractionDigits unit.digits]

/-- A column of one type, with `none` for a missing value. -/
inductive Series where
  | bool (values : List (Option Bool))
  | int (type : IntType) (values : List (Option Int))
  | float32 (values : List (Option Float32))
  | float64 (values : List (Option Float))
  | text (values : List (Option String))
  /-- Days from the start of 1970. -/
  | date (values : List (Option Int))
  /-- Units from the start of 1970. -/
  | dateTime (unit : TimeUnit) (values : List (Option Int))
  /-- Nanoseconds from midnight. -/
  | time (values : List (Option Int))
  | duration (unit : TimeUnit) (values : List (Option Int))
  /-- Missing values only. -/
  | empty (length : Nat)

structure NamedSeries where
  name : String
  series : Series

abbrev Frame := List NamedSeries

/-- Why series make no frame, or a frame no table. -/
inductive FrameError where
  | duplicate (name : String)
  | unequalLengths
  /-- A span of time is no value of a table. -/
  | duration (name : String)
  | malformed (e : TableError)
  /-- Frames that shall follow one another differ in their columns. -/
  | otherColumns
deriving DecidableEq, Repr

def FrameError.message : FrameError → String
  | duplicate name => s!"column with name '{name}' has more than one occurrence"
  | unequalLengths => "could not create a frame: the columns differ in length"
  | duration name => s!"column '{name}' holds durations"
  | malformed e => e.message
  | otherColumns => "the columns of the frames differ"

namespace Series

def length : Series → Nat
  | bool vs => vs.length
  | int _ vs => vs.length
  | float32 vs => vs.length
  | float64 vs => vs.length
  | text vs => vs.length
  | date vs => vs.length
  | dateTime _ vs => vs.length
  | time vs => vs.length
  | duration _ vs => vs.length
  | empty n => n

/-- The name of the type. -/
def typeName : Series → String
  | bool _ => "bool"
  | int t _ => (if t.isSigned then "i" else "u") ++ String.ofList (Nat.toDigits 10 t.bits)
  | float32 _ => "f32"
  | float64 _ => "f64"
  | text _ => "str"
  | date _ => "date"
  | dateTime .. => "datetime"
  | time _ => "time"
  | duration .. => "duration"
  | empty _ => "null"

/-- Two series of one type, one after the other. -/
def append? : Series → Series → Option Series
  | bool vs, bool ws => some (bool (vs ++ ws))
  | int t vs, int u ws => if t = u then some (int t (vs ++ ws)) else none
  | float32 vs, float32 ws => some (float32 (vs ++ ws))
  | float64 vs, float64 ws => some (float64 (vs ++ ws))
  | text vs, text ws => some (text (vs ++ ws))
  | date vs, date ws => some (date (vs ++ ws))
  | dateTime t vs, dateTime u ws => if t = u then some (dateTime t (vs ++ ws)) else none
  | time vs, time ws => some (time (vs ++ ws))
  | duration t vs, duration u ws => if t = u then some (duration t (vs ++ ws)) else none
  | empty m, empty n => some (empty (m + n))
  | _, _ => none

/-! ## From series to cells -/

/-- The cell of a value, or an empty cell. -/
def cellOf {α : Type} (f : α → Cell) (v : Option α) : Cell := (v.map f).getD .null

/-- An integer that does not fit a cell is lost. -/
def intCell (i : Int) : Cell := cellOf .int (Cell.int64? i)

/-- The time of day that a series holds as a number. -/
def timeOf? (nanos : Int) : Option TimeOfDay :=
  if nanos < 0 then none else TimeOfDay.ofNanos? nanos.toNat

/-- A time of day is shown in whole seconds, as a text. -/
def timeCell (nanos : Int) : Cell :=
  cellOf (fun t => .text (String.ofList (Layout.clock.writeChars ⟨⟨1970, 1, 1, by decide⟩, t⟩)))
    (timeOf? nanos)

/-- The text of a day that a series holds as a number. -/
def dayChars? (n : Int) : Option (List Char) :=
  (Date.ofDayNumber? n).map fun d => Layout.yearFirst.writeChars (DateTime.atMidnight d)

/-- The text of a moment that a series holds as a number. -/
def momentChars? (unit : TimeUnit) (n : Int) : Option (List Char) :=
  (DateTime.ofUnits? unit.perSecond n).map unit.layout.writeChars

/-- A day or a moment is read from its text. -/
def readCell (s : List Char) : Cell := cellOf .dateTime (DateTime.readChars? s)

/-- The cells of a series. A series of durations has none, unless all its values are missing. -/
def cells? : Series → Option (List Cell)
  | bool vs => some (vs.map (cellOf .bool))
  | int _ vs => some (vs.map (cellOf intCell))
  | float32 vs => some (vs.map (cellOf fun x => Cell.ofFloat x.toFloat))
  | float64 vs => some (vs.map (cellOf Cell.ofFloat))
  | text vs => some (vs.map (cellOf .text))
  | date vs => some (vs.map (cellOf fun n => cellOf readCell (dayChars? n)))
  | dateTime unit vs => some (vs.map (cellOf fun n => cellOf readCell (momentChars? unit n)))
  | time vs => some (vs.map (cellOf timeCell))
  | duration _ vs => if vs.all (·.isNone) then some (vs.map fun _ => .null) else none
  | empty n => some (List.replicate n .null)

/-! ## From cells to series -/

def isInt : Cell → Bool
  | .int _ => true
  | _ => false

def isNumber : Cell → Bool
  | .int _ | .number _ => true
  | _ => false

def isBool : Cell → Bool
  | .bool _ => true
  | _ => false

def intValue? : Cell → Option Int
  | .int i => some i.toInt
  | _ => none

def floatValue? : Cell → Option Float
  | .int i => some (Decimal.ofInt i.toInt)
  | .number x => some x
  | _ => none

def boolValue? : Cell → Option Bool
  | .bool b => some b
  | _ => none

/-- The series of a column: integers, numbers or truth values if all cells are such, else their
texts. A column of empty cells only counts as integers. -/
def ofCells (cells : List Cell) : Series :=
  let present := cells.filter (!·.isNull)
  if present.all isInt then .int .int64 (cells.map intValue?)
  else if present.all isNumber then .float64 (cells.map floatValue?)
  else if present.all isBool then .bool (cells.map boolValue?)
  else .text (cells.map Cell.key)

end Series

namespace Frame

/-- The frame of some series, if their names differ and their lengths agree. -/
def ofSeries? (series : List NamedSeries) : Except FrameError Frame :=
  let height := (series.head?.map (·.series.length)).getD 0
  if series.any (·.series.length != height) then .error .unequalLengths
  else
    match (series.zipIdx).find? fun p => (series.take p.2).any (·.name == p.1.name) with
    | some p => .error (.duplicate p.1.name)
    | none => .ok series

/-- The rows of two frames with equal columns, one after the other. -/
def append? : Frame → Frame → Except FrameError Frame
  | [], [] => .ok []
  | s :: f, t :: g =>
    match if s.name = t.name then s.series.append? t.series else none with
    | some series => (append? f g).map (⟨s.name, series⟩ :: ·)
    | none => .error .otherColumns
  | _, _ => .error .otherColumns

/-- The rows of some frames after those of a first one. -/
def appendAll? (f : Frame) (frames : List Frame) : Except FrameError Frame :=
  frames.foldlM append? f

def ofTable (t : Table) : Frame := t.columns.map fun c => ⟨c.name, Series.ofCells c.cells⟩

/-- The columns of a frame, up to the first that has no cells. -/
def columns? : Frame → Except FrameError (List Column)
  | [] => .ok []
  | s :: rest =>
    match s.series.cells? with
    | none => .error (.duration s.name)
    | some cells => (columns? rest).map (⟨s.name, cells⟩ :: ·)

def toTable? (f : Frame) : Except FrameError Table :=
  match columns? f with
  | .error e => .error e
  | .ok columns =>
    match Table.ofColumns? columns with
    | .error e => .error (.malformed e)
    | .ok t => .ok t

end Frame

end TableCleaner
