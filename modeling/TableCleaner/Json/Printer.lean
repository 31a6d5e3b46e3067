import TableCleaner.Decimal.Style
import TableCleaner.Json.Value

/-!
# Printed JSON

The compact form has no blanks. The pretty form puts each item of an array and each entry of an
object on a line of its own, two blanks further in than its brackets; empty ones stay closed.
-/

namespace TableCleaner.Json

/-! ## Strings -/

def hexDigit (n : Nat) : Char := if n < 10 then Char.ofNat (48 + n) else Char.ofNat (87 + n)

/-- A quote, a backslash and the control characters are escaped, and nothing else. -/
def escape (c : Char) : List Char :=
  if c = '"' then ['\\', '"']
  else if c = '\\' then ['\\', '\\']
  else if c = '\n' then ['\\', 'n']
  else if c = '\r' then ['\\', 'r']
  else if c = '\t' then ['\\', 't']
  else if c = '\x08' then ['\\', 'b']
  else if c = '\x0c' then ['\\', 'f']
  else if c.toNat < 0x20 then
    ['\\', 'u', '0', '0', hexDigit (c.toNat / 16), hexDigit (c.toNat % 16)]
  else [c]

def quoted (s : String) : List Char := '"' :: s.toList.flatMap escape ++ ['"']

/-! ## Values -/

/-- A number, a string or a word; a number that is not finite has no form and becomes `null`. -/
def floatChars (x : Float) : List Char :=
  if x.isFinite then Decimal.jsonStyle.chars x else ['n', 'u', 'l', 'l']

def intChars (i : Int) : List Char :=
  if i < 0 then '-' :: Nat.toDigits 10 i.natAbs else Nat.toDigits 10 i.natAbs

def boolChars (b : Bool) : List Char :=
  if b then ['t', 'r', 'u', 'e'] else ['f', 'a', 'l', 's', 'e']

mutual

def compactChars : Json → List Char
  | null => ['n', 'u', 'l', 'l']
  | bool b => boolChars b
  | int i => intChars i
  | float x => floatChars x
  | text s => quoted s
  | array items => '[' :: compactItems items ++ [']']
  | object entries => '{' :: compactEntries entries ++ ['}']

def compactItems : List Json → List Char
  | [] => []
  | [v] => compactChars v
  | v :: w :: rest => compactChars v ++ ',' :: compactItems (w :: rest)

def compactEntries : List (String × Json) → List Char
  | [] => []
  | [(k, v)] => quoted k ++ ':' :: compactChars v
  | (k, v) :: e :: rest => quoted k ++ ':' :: compactChars v ++ ',' :: compactEntries (e :: rest)

end

/-- A new line with `depth` steps of indentation. -/
def newline (depth : Nat) : List Char := '\n' :: List.replicate (2 * depth) ' '

mutual

def prettyChars (depth : Nat) : Json → List Char
  | null => ['n', 'u', 'l', 'l']
  | bool b => boolChars b
  | int i => intChars i
  | float x => floatChars x
  | text s => quoted s
  | array items =>
    if items.isEmpty then ['[', ']']
    else '[' :: newline (depth + 1) ++ prettyItems (depth + 1) items ++ newline depth ++ [']']
  | object entries =>
    if entries.isEmpty then ['{', '}']
    else '{' :: newline (depth + 1) ++ prettyEntries (depth + 1) entries ++ newline depth ++ ['}']

def prettyItems (depth : Nat) : List Json → List Char
  | [] => []
  | [v] => prettyChars depth v
  | v :: w :: rest => prettyChars depth v ++ ',' :: newline depth ++ prettyItems depth (w :: rest)

def prettyEntries (depth : Nat) : List (String × Json) → List Char
  | [] => []
  | [(k, v)] => quoted k ++ ':' :: ' ' :: prettyChars depth v
  | (k, v) :: e :: rest =>
    quoted k ++ ':' :: ' ' :: prettyChars depth v ++ ',' :: newline depth ++
      prettyEntries depth (e :: rest)

end

def compact (v : Json) : String := String.ofList (compactChars v)

def pretty (v : Json) : String := String.ofList (prettyChars 0 v)

end TableCleaner.Json
