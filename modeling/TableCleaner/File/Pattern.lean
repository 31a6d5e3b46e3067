/-!
# Name patterns

A name pattern stands for the names that fit it: `*` for any characters, `?` for one character, and
a set in brackets for one of its characters, or for one of all others after an exclamation mark.
-/

namespace TableCleaner

inductive PatternItem where
  | char (c : Char)
  | any
  | run
  | set (isNegated : Bool) (ranges : List (Char × Char))
deriving DecidableEq, Repr

abbrev NamePattern := List PatternItem

namespace NamePattern

/-- Where the reader of a pattern stands. -/
inductive Mode where
  | plain
  /-- After the bracket that opens a set. -/
  | opened
  /-- In a set, with its characters in reverse. -/
  | within (isNegated : Bool) (chars : List Char)

/-- The ranges of the characters of a set. A hyphen between two characters makes a range. -/
def rangesOf : List Char → List (Char × Char)
  | a :: '-' :: b :: rest => (a, b) :: rangesOf rest
  | a :: rest => (a, a) :: rangesOf rest
  | [] => []

/-- Reads a pattern. Two stars in a row are no pattern, nor is an open set. The first character of a
set belongs to it even if it is the bracket that closes. -/
def readFrom? : Mode → List Char → Option NamePattern
  | .plain, [] => some []
  | .opened, [] | .within .., [] => none
  | .plain, c :: s =>
    if c = '[' then readFrom? .opened s
    else if c = '*' then if s.head? = some '*' then none else (readFrom? .plain s).map (.run :: ·)
    else (readFrom? .plain s).map ((if c = '?' then .any else .char c) :: ·)
  | .opened, c :: s =>
    if c = '!' then readFrom? (.within true []) s else readFrom? (.within false [c]) s
  | .within isNegated chars, c :: s =>
    if c = ']' && !chars.isEmpty then
      (readFrom? .plain s).map (.set isNegated (rangesOf chars.reverse) :: ·)
    else readFrom? (.within isNegated (c :: chars)) s

def read? (s : List Char) : Option NamePattern := readFrom? .plain s

end NamePattern

/-- The item fits one character. -/
def PatternItem.fits (c : Char) : PatternItem → Bool
  | char d => c = d
  | any | run => true
  | set isNegated ranges => ranges.any (fun r => r.1 ≤ c && c ≤ r.2) != isNegated

/-- The pattern fits a name. -/
def NamePattern.fits : NamePattern → List Char → Bool
  | [], s => s.isEmpty
  | .run :: p, [] => fits p []
  | .run :: p, c :: s => fits p (c :: s) || fits (.run :: p) s
  | _ :: _, [] => false
  | item :: p, c :: s => item.fits c && fits p s
termination_by p s => (p.length, s.length)

/-- The text has a character that makes it a pattern. -/
def isPattern (s : List Char) : Bool := s.any fun c => c = '*' || c = '?' || c = '['

/-- A part of a path that may be a pattern. -/
inductive PatternPart where
  | exact (name : List Char)
  | names (p : NamePattern)
  /-- Two stars: any number of directories, or none. -/
  | directories

namespace PatternPart

def read? (s : List Char) : Option PatternPart :=
  if !isPattern s then some (exact s)
  else if s = ['*', '*'] then some directories
  else (NamePattern.read? s).map names

/-- The part fits a name in a directory. -/
def fits (name : List Char) : PatternPart → Bool
  | exact s => name = s
  | names p => p.fits name
  | directories => false

end PatternPart

end TableCleaner
