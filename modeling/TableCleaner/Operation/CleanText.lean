import TableCleaner.Operation.Basic
import TableCleaner.Text.Word

/-!
# Cleaned text

Text cleaning trims, lowers, removes special characters and makes every run of blanks one space, in
this order and each only when asked for.
-/

namespace TableCleaner.Text

/-- Neither a word character, nor a blank, nor a hyphen. -/
def isSpecial (c : Char) : Bool := !(isWord c || isBlank c || c = '-')

/-- Every run of blanks becomes one space. `inRun` says that the run has been written. -/
def collapseFrom (inRun : Bool) : List Char → List Char
  | [] => []
  | c :: s =>
    if isBlank c then (if inRun then collapseFrom true s else ' ' :: collapseFrom true s)
    else c :: collapseFrom false s

def collapse (s : List Char) : List Char := collapseFrom false s

def clean (flags : CleanFlags) (s : List Char) : List Char :=
  let s := if flags.trim then trim s else s
  let s := if flags.lowercase then lower s else s
  let s := if flags.removeSpecial then s.filter (!isSpecial ·) else s
  if flags.collapseSpaces then collapse s else s

/-- Cleans a text. -/
def cleanText (flags : CleanFlags) (s : String) : String := String.ofList (clean flags s.toList)

end TableCleaner.Text
