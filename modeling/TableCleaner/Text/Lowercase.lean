import TableCleaner.Text.CaseData
import TableCleaner.Text.Range

/-!
# Lower case

Each character is lowered by itself, but for two: the capital I with a dot becomes two characters,
and a capital sigma that ends a word becomes the final sigma. A sigma ends a word when, leaving out
the characters that casing ignores, a cased character stands before it and none after it.
-/

namespace TableCleaner.Text

def CaseRun.holds (r : CaseRun) (n : Nat) : Bool :=
  r.first ≤ n && n ≤ r.last && (n - r.first) % r.step == 0

/-- The lower-case form of one character, when it is one character. -/
def lowerChar (c : Char) : Char :=
  match lowerRuns.find? (·.holds c.toNat) with
  | some r => Char.ofNat (c.toNat + r.offset).toNat
  | none => c

/-- The first character that casing does not ignore is cased. -/
def meetsCased : List Char → Bool
  | [] => false
  | c :: s => if inRanges caseIgnorableRanges c then meetsCased s else inRanges casedRanges c

/-- The lower-case form of a text, given the characters before it, the nearest first. -/
def lowerAfter (before : List Char) : List Char → List Char
  | [] => []
  | c :: s =>
    let low :=
      if c = 'Σ' then [if meetsCased before && !meetsCased s then 'ς' else 'σ']
      else if c = 'İ' then ['i', '\u0307']
      else if c.toNat < 0x80 then [c.toLower]
      else [lowerChar c]
    low ++ lowerAfter (c :: before) s

def lower (s : List Char) : List Char := lowerAfter [] s

/-- The lower-case form of a text. -/
def lowercase (s : String) : String := String.ofList (lower s.toList)

/-- Lowers the ASCII letters only. -/
def asciiLower (s : List Char) : List Char := s.map Char.toLower

end TableCleaner.Text
