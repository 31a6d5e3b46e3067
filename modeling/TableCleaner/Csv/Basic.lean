import TableCleaner.Csv.Chunk
import TableCleaner.Csv.Column

/-!
# Comma separated values

The first record names the columns. Each column has one type, written in the shortest form that
shows it, and inferred again from the first records when the text is read.
-/

namespace TableCleaner.Csv

/-! ## Writing -/

/-- A value as a field; a missing value is an empty field. -/
def writeValue {α : Type} (f : α → List Char) (v : Option α) : List Char := (v.map f).getD []

/-- A date and a clock time with a fraction. -/
def momentLayout : Layout :=
  Layout.yearFirst ++ LayoutItem.fixed 'T' :: Layout.clock ++ [.fraction]

/-- The moment of a count of units. -/
def writeMoment (unit : TimeUnit) (n : Int) : List Char :=
  ((DateTime.ofUnits? unit.perSecond n).map momentLayout.writeChars).getD []

/-- The fields of a series. -/
def writeSeries : Series → List (List Char)
  | .bool vs => vs.map (writeValue Json.boolChars)
  | .int _ vs => vs.map (writeValue Json.intChars)
  | .float32 vs => vs.map (writeValue fun x => Decimal.csvStyle.chars x.toFloat)
  | .float64 vs => vs.map (writeValue Decimal.csvStyle.chars)
  | .text vs => vs.map (writeValue fun s => writeText s.toList)
  | .date vs => vs.map (writeValue fun n => (Series.dayChars? n).getD [])
  | .dateTime unit vs => vs.map (writeValue (writeMoment unit))
  | .time vs => vs.map (writeValue fun n => (Series.timeCell n).shownChars)
  | .duration _ vs => vs.map (writeValue Json.intChars)
  | .empty n => List.replicate n []

/-- The rows of a list of columns. -/
def rowsOf {α : Type} (height : Nat) (columns : List (List α)) : List (List α) :=
  columns.foldr (List.zipWith (· :: ·)) (List.replicate height [])

/-- A frame as a text: the names of its columns, and a line for each row. -/
def writeChars (f : Frame) : List Char :=
  let height := (f.head?.map (·.series.length)).getD 0
  let header := f.map fun s => writeText s.name.toList
  (header :: rowsOf height (f.map fun s => writeSeries s.series)).flatMap writeRecord

def write (f : Frame) : String := String.ofList (writeChars f)

/-! ## Reading -/

/-- Why a text holds no frame. -/
inductive ReadError where
  | noData
  | tooManyFields
  /-- The records of a chunk are not its lines. -/
  | malformed
  /-- A value does not have the type of its column. -/
  | badValue (column : String)
  /-- Texts that shall be read together differ in the names of their columns. -/
  | otherNames
  /-- No type holds the values of two texts that shall be read together. -/
  | noCommonType (column : String)
  | frame (e : FrameError)
deriving DecidableEq, Repr

def ReadError.message : ReadError → String
  | noData => "empty CSV"
  | tooManyFields => "found more fields than columns"
  | malformed => "a part of the text holds another number of records than of lines"
  | badValue column => s!"could not parse a value of column '{column}' as its type"
  | otherNames => "the files differ in the names of their columns"
  | noCommonType column => s!"the types of column '{column}' have no common type"
  | frame e => e.message

/-- The names of the columns with their types. -/
abbrev Schema := List (String × ColumnType)

/-- Without the mark that some writers put in front of a text. -/
def dropMark (s : List Char) : List Char :=
  match s with
  | '\uFEFF' :: r => r
  | _ => s

/-- Without the line ends in front of a text. -/
def dropLineEnds (s : List Char) : List Char := s.dropWhile fun c => c = '\n' || c = '\r'

/-! ### Types of the columns -/

/-- Gives every repetition of a name a number. -/
def uniqueNames (names : List String) : List String :=
  (names.zipIdx).map fun (name, i) =>
    let n := (names.take i).count name
    if n = 0 then name else name ++ "_duplicated_" ++ String.ofList (Nat.toDigits 10 (n - 1))

/-- A line without the carriage return of its end. A carriage return alone is a text. -/
def trimLine (line : List Char) : List Char :=
  if 1 < byteCount line then Field.trimReturn line else line

/-- The fields of each column, for records of one width. -/
def columnsOf (width : Nat) (records : List (List Field)) : List (List Field) :=
  records.foldr (List.zipWith (· :: ·)) (List.replicate width [])

/-- A record with some number of fields; those that are not there are empty. -/
def fitTo (width : Nat) (r : List Field) : List Field :=
  r.take width ++ List.replicate (width - r.length) []

/-- The names and types of the columns, from the first line and some lines after it, or all of them
when the count is zero. -/
def inferSchema (inferRows : Nat) (s : List Char) : Except ReadError Schema :=
  let (whole, rest) := lines (dropLineEnds (dropMark s))
  if byteCount s < 2 then .error .noData
  else
    match whole ++ if rest.isEmpty then [] else [rest] with
    | [] => .error .noData
    | header :: body =>
      let names := uniqueNames
        ((firstRecord (trimLine header)).map fun f => String.ofList f.content)
      let sample := if inferRows = 0 then body else body.take inferRows
      let records := sample.map fun line => fitTo names.length (firstRecord (trimLine line))
      .ok (names.zip ((columnsOf names.length records).map ColumnType.infer))

/-- The types of the columns of two texts together. -/
def Schema.join (a b : Schema) : Except ReadError Schema :=
  if a.map Prod.fst = b.map Prod.fst then
    (a.zip b).mapM fun (x, y) =>
      match x.2.join? y.2 with
      | some t => .ok (x.1, t)
      | none => .error (.noCommonType x.1)
  else .error .otherNames

/-! ### Rows -/

/-- The text after the first line. Line ends in front of the first line are skipped, unless there is
one column only. -/
def bodyOf (width : Nat) (s : List Char) : List Char :=
  let s := dropMark s
  let s := if width = 1 then s else dropLineEnds s
  match (lines s).1 with
  | [] => []
  | header :: _ => s.drop (header.length + 1)

/-- The rows of a chunk, one for each line. -/
def rowsOfChunk (width : Nat) (c : Chunk) : Except ReadError (List (List Field)) :=
  let records := split c.text
  if records.any (width < ·.length) then .error .tooManyFields
  else if records.length ≠ c.lineCount then .error .malformed
  else .ok (records.map fun r => (fitTo width r).map Field.trimReturn)

/-- The frame of a text whose columns have known types. -/
def readAs (schema : Schema) (s : List Char) : Except ReadError Frame := do
  let width := schema.length
  let parts ← (chunks (bodyOf width s)).mapM (rowsOfChunk width)
  let columns := parts.map (columnsOf width)
  let series ← (schema.zipIdx).mapM fun ((name, type), i) =>
    match type.series? (columns.map (·.getD i [])) with
    | some series => .ok (⟨name, series⟩ : NamedSeries)
    | none => .error (ReadError.badValue name)
  (Frame.ofSeries? series).mapError .frame

/-- Reads texts one after another, with types that hold the values of all. -/
def readAll (inferRows : Nat) (first : String) (rest : List String) : Except ReadError Frame := do
  let schemas ← rest.mapM fun s => inferSchema inferRows s.toList
  let schema ← schemas.foldlM Schema.join (← inferSchema inferRows first.toList)
  let frames ← rest.mapM fun s => readAs schema s.toList
  (Frame.appendAll? (← readAs schema first.toList) frames).mapError .frame

end TableCleaner.Csv
