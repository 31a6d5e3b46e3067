/-!
# Fields of comma separated values

A record is a line of fields with commas between them. A field in quotes may hold commas, line
breaks and doubled quotes. An empty field is a missing value; the empty text is written in quotes.
-/

namespace TableCleaner.Csv

/-! ## Writing -/

def needsQuotes (s : List Char) : Bool :=
  s.isEmpty || s.any fun c => c = ',' || c = '"' || c = '\n' || c = '\r'

/-- A text as a field. A quote inside quotes is doubled. -/
def writeText (s : List Char) : List Char :=
  if needsQuotes s then '"' :: s.flatMap (fun c => if c = '"' then ['"', '"'] else [c]) ++ ['"']
  else s

/-- Fields with commas between them, and a line break. -/
def writeRecord : List (List Char) → List Char
  | [] => ['\n']
  | [f] => f ++ ['\n']
  | f :: rest => f ++ ',' :: writeRecord rest

/-! ## Fields as they are read -/

/-- The characters of a field as they stand in a text, with its quotes. -/
abbrev Field := List Char

namespace Field

/-- The field begins with a quote. -/
def isQuoted (f : Field) : Bool := f.head? = some '"'

/-- Without the last byte: a character of several bytes leaves the mark of a damaged one. -/
def dropLastByte (s : List Char) : List Char :=
  match s.getLast? with
  | some c => s.dropLast ++ if c.toNat < 128 then [] else ['\uFFFD']
  | none => []

/-- The field without its quotes. A quoted field loses its first and its last byte, whatever the
last one is; doubled quotes stay as they are. -/
def content (f : Field) : List Char :=
  match f with
  | '"' :: c :: s => dropLastByte (c :: s)
  | _ => f

/-- The text inside quotes: of two quotes in a row the second stays, and a lone one goes. -/
def unquote (afterQuote : Bool) : List Char → List Char
  | [] => []
  | c :: s =>
    if c = '"' then if afterQuote then c :: unquote false s else unquote true s
    else c :: unquote false s

/-- The text of a field, which is missing when the field is empty. A quoted field has to end with a
quote. -/
def text? (f : Field) : Option (Option (List Char)) :=
  if f.isEmpty then some none
  else if !f.isQuoted then some (some f)
  else if 1 < f.length && f.getLast? = some '"' then
    some (some (unquote false (f.drop 1).dropLast))
  else none

/-- Without the carriage return of a line end. -/
def trimReturn (f : Field) : Field := if f.getLast? = some '\r' then f.dropLast else f

end Field

end TableCleaner.Csv
