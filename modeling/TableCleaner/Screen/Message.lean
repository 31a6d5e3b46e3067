import TableCleaner.File.Path

/-!
# Messages

The lines that a command prints besides tables: its banner, the card of a run, headings and notes.
-/

namespace TableCleaner.Screen

def shownNat (n : Nat) : String := String.ofList (Nat.toDigits 10 n)

/-- A character as often as a line is long. -/
def ruled (c : Char) : String := String.ofList (List.replicate 50 c)

/-- The text in its column, with blanks up to a number of characters. -/
def padRight (n : Nat) (s : String) : String :=
  s ++ String.ofList (List.replicate (n - s.length) ' ')

/-- The end of a text that is longer than a number of characters, after three points. The points
stand for at least three characters, also when they alone are longer than allowed. -/
def truncated (limit : Nat) (s : String) : String :=
  let n := s.toList.length
  if n ≤ limit then s else "..." ++ String.ofList (s.toList.drop (n + 3 - limit))

def plural (n : Nat) : String := if n = 1 then "" else "s"

/-! ## Notes -/

def success (message : String) : List String := ["    ✓ " ++ message]

def info (message : String) : List String := ["    ℹ️   " ++ message]

def warning (message : String) : List String := ["    ! " ++ message]

/-! ## Headings -/

def banner (version : String) : List String :=
  ["", "    clyra step-based dataset cleaning", "    v" ++ version, "    " ++ ruled '━', ""]

def stepHeader (number : Nat) (title : String) : List String :=
  ["", "    STEP " ++ shownNat number ++ " │ " ++ title, "    " ++ ruled '─']

def completion (files : Nat) : List String :=
  ["", "    🚀  Cleaned " ++ shownNat files ++ " file" ++ plural files, ""]

/-! ## The card of a run -/

/-- The characters between the sides of a card. -/
def cardWidth : Nat := 54

def cardRule (left right : Char) : String :=
  "    " ++ String.ofList (left :: List.replicate cardWidth '─' ++ [right])

/-- A line of the card for a path, whose end is shown when it is long. -/
def cardPath (label : String) (p : Path) : String :=
  "    │  " ++ label ++ padRight 38 (truncated 38 p.text) ++ "│"

/-- What a run of a single table works on. -/
def runCard (input pipeline output : Path) (steps : Nat) : List String :=
  [cardRule '┌' '┐', "    │ " ++ padRight 53 "Configuration" ++ "│", cardRule '├' '┤',
    cardPath "📂 Input:    " input, cardPath "📜 Pipeline: " pipeline,
    cardPath "💾 Output:   " output, cardRule '├' '┤',
    "    │  Steps: " ++ padRight 46 (shownNat steps) ++ "│", cardRule '└' '┘', ""]

end TableCleaner.Screen
