import TableCleaner.Text.Lowercase
import TableCleaner.Text.Pieces

/-!
# Paths

A path is a text with slashes. Its steps are the parts between the slashes; an empty step and `.`
lead nowhere, except that a path may begin at the root or at the current directory.
-/

namespace TableCleaner

structure Path where
  text : String
deriving DecidableEq, Repr

/-- A step of a path. -/
inductive PathStep where
  | root
  | current
  | parent
  | name (s : List Char)
deriving DecidableEq, Repr

namespace Path

/-! ## Steps -/

def dot : List Char := ['.']

def dots : List Char := ['.', '.']

/-- The part is no step, unless the path begins with it. -/
def isIdle (s : List Char) : Bool := s.isEmpty || s = dot

def stepOf (s : List Char) : PathStep :=
  if s = dot then .current else if s = dots then .parent else .name s

/-- The parts between the slashes. -/
def parts (p : Path) : List (List Char) := Text.pieces '/' p.text.toList

/-- The step that the first part of a path is, if it is one. -/
def firstStep? (part : List Char) (isOnly : Bool) : Option PathStep :=
  if part.isEmpty then (if isOnly then none else some .root) else some (stepOf part)

/-- The steps of a path. Paths with equal steps lead to the same place. -/
def steps (p : Path) : List PathStep :=
  match p.parts with
  | [] => []
  | first :: rest =>
    (firstStep? first rest.isEmpty).toList ++ (rest.filter (!isIdle ·)).map stepOf

/-! ## Names -/

/-- The last step, when it is a name. -/
def fileName? (p : Path) : Option (List Char) :=
  match p.steps.getLast? with
  | some (.name s) => some s
  | _ => none

/-- What stands before the last dot of a name and what stands after it. A dot at the start of the
name does not count. -/
def splitName (name : List Char) : List Char × Option (List Char) :=
  let after := (name.reverse.takeWhile (· ≠ '.')).reverse
  let before := name.take (name.length - after.length - 1)
  if after.length = name.length || before.isEmpty then (name, none) else (before, some after)

def stem? (p : Path) : Option (List Char) := p.fileName?.map fun name => (splitName name).1

def extension? (p : Path) : Option (List Char) := p.fileName?.bind fun name => (splitName name).2

/-- The extension in lower case; no extension counts as an empty one. -/
def formatName (p : Path) : String := String.ofList (Text.lower (p.extension?.getD []))

/-! ## Directories -/

/-- Without the idle parts at the end. -/
def trimIdle (parts : List (List Char)) : List (List Char) :=
  (parts.reverse.dropWhile isIdle).reverse

/-- The path without its last step. The root has no parent, and no more has the empty path. -/
def parent? (p : Path) : Option Path :=
  match p.parts with
  | [] => none
  | first :: rest =>
    let below := trimIdle rest
    if below.isEmpty then
      if first.isEmpty then none else some ⟨""⟩
    else
      let above := trimIdle below.dropLast
      if above.isEmpty && first.isEmpty then some ⟨"/"⟩
      else some ⟨String.ofList (Text.join '/' (first :: above))⟩

/-- The path to a name in the directory of a path. -/
def child (p : Path) (name : List Char) : Path :=
  let s := p.text.toList
  let gap := if s.isEmpty || s.getLast? = some '/' then [] else ['/']
  ⟨String.ofList (s ++ gap ++ name)⟩

/-- Where a cleaned table goes by default: beside its source, under the name of its source with
`_cleaned` after the stem. -/
def cleaned (p : Path) : Path :=
  let stem := p.stem?.getD "output".toList
  let extension := p.extension?.getD "csv".toList
  (p.parent?.getD ⟨"."⟩).child (stem ++ "_cleaned.".toList ++ extension)

end Path

end TableCleaner
