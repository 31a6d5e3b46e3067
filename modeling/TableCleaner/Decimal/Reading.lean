import TableCleaner.Decimal.Nearest

/-!
# Read numbers

A number is written as an optional sign, digits with at most one point and at least one digit, and
an optional exponent. Infinity and the undefined number have names of their own, in any case.
-/

namespace TableCleaner.Decimal

/-- What a written number stands for. -/
inductive Reading where
  | number (negative : Bool) (value : Decimal)
  | infinite (negative : Bool)
  | undefined
deriving DecidableEq, Repr

def isDigit (c : Char) : Bool := '0' ≤ c && c ≤ '9'

/-- The value of a run of digits. -/
def digitsValue (ds : List Char) : Nat := ds.foldl (fun n c => 10 * n + (c.toNat - '0'.toNat)) 0

/-- An integer with an optional sign and at least one digit, and nothing else. -/
def readExponent? (s : List Char) : Option Int :=
  let (negative, ds) := match s with
    | '-' :: r => (true, r)
    | '+' :: r => (false, r)
    | _ => (false, s)
  if ds.isEmpty || !ds.all isDigit then none
  else some (if negative then -(digitsValue ds : Int) else digitsValue ds)

/-- Digits with at most one point, and an optional exponent. -/
def readUnsigned? (s : List Char) : Option Decimal :=
  let whole := s.takeWhile isDigit
  let rest := s.dropWhile isDigit
  let (fraction, rest) := match rest with
    | '.' :: r => (r.takeWhile isDigit, r.dropWhile isDigit)
    | _ => ([], rest)
  if whole.isEmpty && fraction.isEmpty then none
  else
    let digits := digitsValue (whole ++ fraction)
    let exponent := -(fraction.length : Int)
    match rest with
    | [] => some ⟨digits, exponent⟩
    | c :: r =>
      if c = 'e' || c = 'E' then (readExponent? r).map fun e => ⟨digits, exponent + e⟩ else none

/-- Reads a whole text as a number. -/
def read? (s : List Char) : Option Reading :=
  let (negative, body) := match s with
    | '-' :: r => (true, r)
    | '+' :: r => (false, r)
    | _ => (false, s)
  match String.ofList (body.map Char.toLower) with
  | "inf" | "infinity" => some (.infinite negative)
  | "nan" => some .undefined
  | _ => (readUnsigned? body).map (.number negative)

/-- The floating-point number nearest to what was read. -/
def Reading.toFloat : Reading → Float
  | .number negative d => d.toFloat negative
  | .infinite negative => Binary.ofMagnitude negative Binary.infinityBits
  | .undefined => Float.ofBits 0x7FF8000000000000

/-- Reads a text as a floating-point number. -/
def readFloat? (s : List Char) : Option Float := (read? s).map Reading.toFloat

end TableCleaner.Decimal
