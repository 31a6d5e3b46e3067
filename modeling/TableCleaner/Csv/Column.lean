import TableCleaner.Csv.DateStyle
import TableCleaner.Csv.Field
import TableCleaner.Frame.Basic
import TableCleaner.Text.Digit

/-!
# Types of comma separated values

The type of a column is inferred from its first values. Whole numbers and other numbers together
are numbers, any other mixture is text. A later value that does not have the type is an error.
-/

namespace TableCleaner.Csv

inductive ColumnType where
  | int
  | float
  | bool
  | date
  | time
  | dateTime
  /-- A date and a time with an offset from universal time. -/
  | instant
  | text
deriving DecidableEq, Repr

namespace ColumnType

/-! ## Types of texts -/

/-- Digits of any script after an optional minus sign. -/
def isIntText (s : List Char) : Bool :=
  let ds := match s with
    | '-' :: r => r
    | _ => s
  !ds.isEmpty && ds.all Text.isDigit

def dropSign (s : List Char) : List Char :=
  match s with
  | '-' :: r | '+' :: r => r
  | _ => s

/-- The letter of an exponent, an optional sign and digits. -/
def isExponentText (s : List Char) : Bool :=
  match s with
  | 'e' :: r | 'E' :: r => !(dropSign r).isEmpty && (dropSign r).all Text.isDigit
  | _ => false

/-- A number with a point or an exponent after an optional sign, or a name of a number that is not
finite. A point at the end has no exponent after it. -/
def isFloatText (s : List Char) : Bool :=
  let body := dropSign s
  let whole := body.takeWhile Text.isDigit
  if body = ['i', 'n', 'f'] || body = ['N', 'a', 'N'] then true
  else
    match body.dropWhile Text.isDigit with
    | '.' :: r =>
      let rest := r.dropWhile Text.isDigit
      if r.length = rest.length then !whole.isEmpty && rest.isEmpty
      else rest.isEmpty || isExponentText rest
    | rest => !whole.isEmpty && isExponentText rest

/-- `true` or `false` in any case. -/
def boolOf? (s : List Char) : Option Bool :=
  let s := s.map Char.toLower
  if s = ['t', 'r', 'u', 'e'] then some true
  else if s = ['f', 'a', 'l', 's', 'e'] then some false
  else none

/-- The long s counts as the letter s of lower case. -/
def isBoolText (s : List Char) : Bool :=
  (boolOf? (s.map fun c => if c = 'ſ' then 's' else c)).isSome

def ofStyle : DateStyle → ColumnType
  | .dayFirst | .yearFirst => date
  | .time => time
  | .dayFirstMoment | .yearFirstMoment => dateTime
  | .instant => instant

/-- The type that a text shows. Between two quotes only dates are looked for. -/
def ofText (s : List Char) : ColumnType :=
  if 1 < s.length && s.head? = some '"' && s.getLast? = some '"' then
    ((DateStyle.of? (s.drop 1).dropLast).map ofStyle).getD text
  else if isBoolText s then bool
  else if isFloatText s then float
  else if isIntText s then int
  else ((DateStyle.of? s).map ofStyle).getD text

/-- The type of a column of which some values show some types. -/
def ofTypes (types : List ColumnType) : ColumnType :=
  match types with
  | [] => text
  | t :: rest =>
    if rest.all (· = t) then t
    else if types.all fun t => t = int || t = float then float
    else text

/-- The type of a column from its first fields. -/
def infer (fields : List Field) : ColumnType :=
  ofTypes ((fields.filter (!·.isEmpty)).map fun f => ofText f.content)

/-- The type that holds the values of both types, if there is one. -/
def join? (a b : ColumnType) : Option ColumnType :=
  match a, b with
  | text, _ | _, text => some text
  | float, _ | _, float => some float
  | int, _ | _, int => some int
  | date, dateTime | dateTime, date => some dateTime
  | date, instant | instant, date => some instant
  | _, _ => if a = b then some a else none

/-! ## Values -/

/-- The values of fields. It fails on the first field that is no value. -/
def values? {α : Type} (f : Field → Option (Option α)) : List Field → Option (List (Option α))
  | [] => some []
  | field :: rest => do return (← f field) :: (← values? f rest)

/-- A space or a tabulator. -/
def isGap (c : Char) : Bool := c = ' ' || c = '\t'

/-- A number after gaps; nothing but gaps is a missing value. -/
def number? {α : Type} (read? : List Char → Option α) (f : Field) : Option (Option α) :=
  let s := f.content.dropWhile isGap
  if s.isEmpty then some none else (read? s).map some

/-- Digits after an optional sign. -/
def intOf? (s : List Char) : Option Int :=
  let ds := dropSign s
  if ds.isEmpty || !ds.all Decimal.isDigit then none
  else
    let n := Decimal.digitsValue ds
    (Cell.int64? (if s.head? = some '-' then -n else n)).map Int64.toInt

/-- A value that is missing when there is nothing between its quotes. -/
def bare? {α : Type} (read? : List Char → Option α) (f : Field) : Option (Option α) :=
  if f.content.isEmpty then some none else (read? f.content).map some

/-- The texts of fields that dates are read from. -/
def dateTexts (fields : List Field) : List (Option (List Char)) :=
  fields.map fun f => if f.content.isEmpty then none else some f.content

/-- The days of a column of dates. -/
def days? (fields : List Field) : Option (List (Option Int)) :=
  (readDates? [.dayFirst, .yearFirst] none (dateTexts fields)).map fun ns =>
    ns.map (·.map (· / 86400000000))

/-- The microseconds of a column of dates with a time. -/
def moments? (fields : List Field) : Option (List (Option Int)) :=
  readDates? [.dayFirstMoment, .yearFirstMoment, .instant] none (dateTexts fields)

/-- A universal moment is lost outside the years 0 to 9999. -/
def instant? (n : Int) : Option Int :=
  match DateTime.ofUnits? 1000000 n with
  | some t => if 0 ≤ t.date.year && t.date.year ≤ 9999 then some n else none
  | none => none

def timeOf? (s : List Char) : Option Int := do
  let f ← Layout.readFields? (Layout.clock ++ [LayoutItem.fraction]) {} s
  let t ← f.time?
  return ((t.hour * 3600 + t.minute * 60 + t.second) * nanosPerSecond + t.nanos : Nat)

/-- The times of a column, which are read from texts. There has to be one at least. -/
def times? (fields : List Field) : Option (List (Option Int)) := do
  let texts ← values? Field.text? fields
  if texts.all (·.isNone) then none
  else texts.mapM fun s =>
    match s with
    | some s => (timeOf? s).map some
    | none => some none

/-- The values of all chunks, one after another. -/
def overChunks? {α : Type} (f : List Field → Option (List (Option α)))
    (chunks : List (List Field)) : Option (List (Option α)) :=
  (chunks.mapM f).map List.flatten

/-- The series of a column of a given type, from its fields in each chunk. -/
def series? (type : ColumnType) (chunks : List (List Field)) : Option Series :=
  match type with
  | int => (overChunks? (values? (number? intOf?)) chunks).map (.int .int64)
  | float => (overChunks? (values? (number? Decimal.readFloat?)) chunks).map .float64
  | bool => (overChunks? (values? (bare? boolOf?)) chunks).map .bool
  | date => (overChunks? days? chunks).map .date
  | time => (overChunks? times? chunks).map .time
  | dateTime => (overChunks? moments? chunks).map (.dateTime .microseconds)
  | instant =>
    (overChunks? moments? chunks).map fun ns => .dateTime .microseconds (ns.map (·.bind instant?))
  | text =>
    (overChunks? (values? fun f => f.text?.map (·.map String.ofList)) chunks).map .text

end ColumnType

end TableCleaner.Csv
