import TableCleaner.Decimal.Reading
import TableCleaner.Json.Record

/-!
# The JSON reader

A strict reader: one value, with blanks around its parts, and nothing after it. Arrays and objects
nest at most 127 deep. The keys of an object are put in order, and the last of two equal keys wins.
-/

namespace TableCleaner.Json

def isSpace (c : Char) : Bool := c = ' ' || c = '\t' || c = '\n' || c = '\r'

def skipSpace (s : List Char) : List Char := s.dropWhile isSpace

/-- What is left of a text after at least one character of it. -/
abbrev Rest (s : List Char) := { r : List Char // r.length < s.length }

theorem skipSpace_length_le (s : List Char) : (skipSpace s).length ≤ s.length :=
  (List.dropWhile_suffix _).length_le

/-! ## Strings -/

def hexValue? (c : Char) : Option Nat :=
  if '0' ≤ c && c ≤ '9' then some (c.toNat - 48)
  else if 'a' ≤ c && c ≤ 'f' then some (c.toNat - 87)
  else if 'A' ≤ c && c ≤ 'F' then some (c.toNat - 55)
  else none

/-- The number that four hexadecimal digits write. -/
def hex4? (a b c d : Char) : Option Nat := do
  return (((← hexValue? a) * 16 + (← hexValue? b)) * 16 + (← hexValue? c)) * 16 + (← hexValue? d)

/-- The character that a letter after a backslash stands for. -/
def escaped? (c : Char) : Option Char :=
  match c with
  | '"' => some '"'
  | '\\' => some '\\'
  | '/' => some '/'
  | 'b' => some '\x08'
  | 'f' => some '\x0c'
  | 'n' => some '\n'
  | 'r' => some '\r'
  | 't' => some '\t'
  | _ => none

/-- The character of a pair of surrogates. -/
def joinSurrogates (high low : Nat) : Char :=
  Char.ofNat (0x10000 + (high - 0xD800) * 0x400 + (low - 0xDC00))

def isHighSurrogate (n : Nat) : Bool := 0xD800 ≤ n && n < 0xDC00

def isLowSurrogate (n : Nat) : Bool := 0xDC00 ≤ n && n < 0xE000

/-- The rest of a string after its opening quote, and what follows the closing one. -/
def readString? : List Char → Option (List Char × List Char)
  | [] => none
  | '"' :: rest => some ([], rest)
  | '\\' :: 'u' :: a :: b :: c :: d :: rest =>
    match hex4? a b c d with
    | none => none
    | some n =>
      if isLowSurrogate n then none
      else if isHighSurrogate n then
        match rest with
        | '\\' :: 'u' :: e :: f :: g :: h :: rest =>
          match hex4? e f g h with
          | none => none
          | some m =>
            if isLowSurrogate m then
              (readString? rest).map fun p => (joinSurrogates n m :: p.1, p.2)
            else none
        | _ => none
      else (readString? rest).map fun p => (Char.ofNat n :: p.1, p.2)
  | '\\' :: c :: rest =>
    match escaped? c with
    | none => none
    | some d => (readString? rest).map fun p => (d :: p.1, p.2)
  | c :: rest =>
    if c.toNat < 0x20 then none else (readString? rest).map fun p => (c :: p.1, p.2)

theorem readString?_length {s t r : List Char} (h : readString? s = some (t, r)) :
    r.length < s.length := by
  fun_induction readString? s generalizing t r <;> simp_all <;> grind

/-! ## Numbers -/

/-- A number's text cut into its parts: sign, whole digits, fraction digits and exponent. -/
structure NumberText where
  negative : Bool
  whole : List Char
  fraction : Option (List Char)
  exponent : Option Int

/-- The value of a number. An integer outside the kept range is a floating-point number; zero with
a minus sign is one too. A decimal is taken for the floating-point number nearest to it, so that what
is printed reads back. A number that overflows has no value. -/
def NumberText.value? (t : NumberText) : Option Json :=
  let asFloat (d : Decimal) : Option Json :=
    let x := d.toFloat t.negative
    if x.isFinite then some (.float x) else none
  match t.fraction, t.exponent with
  | none, none =>
    let n := Decimal.digitsValue t.whole
    let i : Int := if t.negative then -n else n
    if t.negative && n = 0 then asFloat ⟨0, 0⟩
    else if leastInt ≤ i && i ≤ greatestInt then some (.int i)
    else asFloat ⟨n, 0⟩
  | fraction, exponent =>
    let f := fraction.getD []
    asFloat ⟨Decimal.digitsValue (t.whole ++ f), exponent.getD 0 - f.length⟩

/-- An optional sign and at least one digit. -/
def readExponent? (s : List Char) : Option (Int × List Char) :=
  let (negative, s) := match s with
    | '-' :: r => (true, r)
    | '+' :: r => (false, r)
    | _ => (false, s)
  let ds := s.takeWhile Decimal.isDigit
  if ds.isEmpty then none
  else
    let n := Decimal.digitsValue ds
    some (if negative then -(n : Int) else n, s.dropWhile Decimal.isDigit)

/-- The exponent after the digits of a number, if there is one. -/
def readTail? (negative : Bool) (whole : List Char) (fraction : Option (List Char))
    (s : List Char) : Option (NumberText × List Char) :=
  match s with
  | [] => some (⟨negative, whole, fraction, none⟩, [])
  | c :: r =>
    if c = 'e' || c = 'E' then
      (readExponent? r).map fun p => (⟨negative, whole, fraction, some p.1⟩, p.2)
    else some (⟨negative, whole, fraction, none⟩, s)

/-- The digits after an optional minus sign: no zero stands before another digit, and a point is
followed by a digit. -/
def readDigits? (negative : Bool) (s : List Char) : Option (NumberText × List Char) :=
  let whole := s.takeWhile Decimal.isDigit
  let rest := s.dropWhile Decimal.isDigit
  if whole.isEmpty || (whole.head? = some '0' && whole.length ≠ 1) then none
  else
    match rest with
    | '.' :: r =>
      let fraction := r.takeWhile Decimal.isDigit
      if fraction.isEmpty then none
      else readTail? negative whole (some fraction) (r.dropWhile Decimal.isDigit)
    | _ => readTail? negative whole none rest

def readNumber? (s : List Char) : Option (NumberText × List Char) :=
  match s with
  | '-' :: r => readDigits? true r
  | _ => readDigits? false s

/-! ## Values -/

/-- A reader takes a value off the front of a text. -/
abbrev Reader (α : Type) := (s : List Char) → Option (α × Rest s)

/-- Keeps a result whose rest is shorter than the text. -/
def shorter? {α : Type} (s : List Char) (p : Option (α × List Char)) : Option (α × Rest s) :=
  match p with
  | none => none
  | some (v, r) => if h : r.length < s.length then some (v, ⟨r, h⟩) else none

/-- Items up to the closing bracket, after the first item is known to follow. -/
def readItems? (item : Reader Json) (s : List Char) : Option (List Json × List Char) :=
  match item (skipSpace s) with
  | none => none
  | some (v, ⟨r, _h⟩) =>
    match _hr : skipSpace r with
    | ',' :: r' => (readItems? item r').map fun p => (v :: p.1, p.2)
    | ']' :: r' => some ([v], r')
    | _ => none
termination_by s.length
decreasing_by
  have h₁ := skipSpace_length_le s
  have h₂ := skipSpace_length_le r
  simp_all
  omega

/-- Entries up to the closing brace, after the first entry is known to follow. -/
def readEntries? (item : Reader Json) (s : List Char) :
    Option (List (String × Json) × List Char) :=
  match _hs : skipSpace s with
  | '"' :: t =>
    match _hk : readString? t with
    | none => none
    | some (key, r) =>
      match _hc : skipSpace r with
      | ':' :: r' =>
        match item (skipSpace r') with
        | none => none
        | some (v, ⟨q, _h⟩) =>
          match _hq : skipSpace q with
          | ',' :: q' => (readEntries? item q').map fun p => ((String.ofList key, v) :: p.1, p.2)
          | '}' :: q' => some ([(String.ofList key, v)], q')
          | _ => none
      | _ => none
  | _ => none
termination_by s.length
decreasing_by
  have h₁ := skipSpace_length_le s
  have h₂ := readString?_length _hk
  have h₃ := skipSpace_length_le r
  have h₄ := skipSpace_length_le r'
  have h₅ := skipSpace_length_le q
  simp_all
  omega

/-- Takes a word off the front of a text. -/
def dropWord? (word : List Char) (s : List Char) : Option (List Char) :=
  if word.isPrefixOf s then some (s.drop word.length) else none

/-- Reads one value, its arrays and objects nested at most `depth` deep. -/
def readValue? (depth : Nat) : Reader Json := fun s =>
  match s with
  | [] => none
  | c :: t =>
    shorter? (c :: t) <|
      if c = '"' then (readString? t).map fun p => (.text (String.ofList p.1), p.2)
      else if c = 'n' then (dropWord? ['u', 'l', 'l'] t).map (.null, ·)
      else if c = 't' then (dropWord? ['r', 'u', 'e'] t).map (.bool true, ·)
      else if c = 'f' then (dropWord? ['a', 'l', 's', 'e'] t).map (.bool false, ·)
      else if c = '[' then
        match depth with
        | 0 => none
        | depth + 1 =>
          match skipSpace t with
          | ']' :: r => some (.array [], r)
          | _ => (readItems? (readValue? depth) t).map fun p => (.array p.1, p.2)
      else if c = '{' then
        match depth with
        | 0 => none
        | depth + 1 =>
          match skipSpace t with
          | '}' :: r => some (.object [], r)
          | _ => (readEntries? (readValue? depth) t).map fun p =>
              ((Record.ofEntries p.1).toJson, p.2)
      else (readNumber? (c :: t)).bind fun p => p.1.value?.map (·, p.2)

/-- The deepest nesting that is read. -/
def maxDepth : Nat := 127

/-- Reads a whole text as one value. -/
def readChars? (s : List Char) : Option Json :=
  match readValue? maxDepth (skipSpace s) with
  | some (v, ⟨r, _⟩) => if (skipSpace r).isEmpty then some v else none
  | none => none

def read? (s : String) : Option Json := readChars? s.toList

end TableCleaner.Json
