import TableCleaner.File.Pattern
import TableCleaner.File.Store

/-!
# Sources

The source of a table is a file, or several files that are read one after another: those in a
directory and below it, or those whose paths fit a pattern.
-/

namespace TableCleaner

/-- Why a path stands for no files. -/
inductive SourceError where
  | file (e : FileError)
  | badPattern
  | noFile
  /-- The files of a directory differ in their extensions. -/
  | mixedExtensions
deriving DecidableEq, Repr

def SourceError.message : SourceError → String
  | file e => e.message
  | badPattern => "the path is no valid pattern"
  | noFile => "no file fits the path"
  | mixedExtensions => "the directory holds files with different extensions"

def Content.isEmpty : Content → Bool
  | text s => s.isEmpty
  | frame _ | unknown => false

namespace Store

/-! ## Directories -/

/-- The names in a directory in ascending order. -/
def names (s : Store) (l : Location) : List (List Char) :=
  let below := (s.directories ++ s.files.map Prod.fst).filter fun k => k.length = l.length + 1 &&
    l.isPrefixOf k
  ((below.filterMap List.getLast?).eraseDups).mergeSort fun a b =>
    !decide (String.ofList b < String.ofList a)

/-- The files and directories in a directory. -/
def entries (s : Store) (l : Location) : List Location := (s.names l).map fun name => l ++ [name]

/-- A file that is not empty. -/
def isFilled (s : Store) (l : Location) : Bool :=
  !s.isDirectory l && ((s.content? l).map (!·.isEmpty)).getD false

/-- The names on the way to the deepest file or directory. -/
def depth (s : Store) : Nat :=
  (s.directories ++ s.files.map Prod.fst).foldl (fun n l => max n l.length) 0

/-- The filled files in some directories, and then those in the directories below them, down to some
depth. -/
def filesBelow (s : Store) : (depth : Nat) → List Location → List Location
  | 0, _ => []
  | n + 1, directories =>
    let entries := directories.flatMap s.entries
    entries.filter s.isFilled ++ filesBelow s n (entries.filter s.isDirectory)

/-! ## Patterns -/

/-- The entries below a directory down to some depth, each before those below it. -/
def treeBelow (s : Store) : (depth : Nat) → Location → List Location
  | 0, _ => []
  | n + 1, l =>
    (if s.isDirectory l then s.entries l else []).flatMap fun e => e :: treeBelow s n e

/-- What stands in a directory under the names that a pattern fits. A pattern that begins with a dot
may fit the directory above and the directory itself too, which come first. -/
def named (s : Store) (p : NamePattern) (l : Location) : List Location :=
  let dots := if p.head? = some (.char '.') then [(Path.dots, l.dropLast), (Path.dot, l)] else []
  (dots ++ (s.names l).map fun name => (name, l ++ [name])).filterMap fun (name, below) =>
    if p.fits name then some below else none

/-- Where the parts of a pattern lead from a location. -/
def matchesFrom (s : Store) : List PatternPart → Location → List Location
  | [], l => [l]
  | .exact name :: rest, l =>
    if !s.isDirectory l then []
    else if Path.isIdle name then matchesFrom s rest l
    else if name = Path.dots then matchesFrom s rest l.dropLast
    else if s.isDirectory (l ++ [name]) || (s.content? (l ++ [name])).isSome then
      matchesFrom s rest (l ++ [name])
    else []
  | .names p :: rest, l =>
    if !s.isDirectory l then []
    else (s.named p l).flatMap (matchesFrom s rest)
  | .directories :: .directories :: rest, l => matchesFrom s (.directories :: rest) l
  | .directories :: [], l => (s.treeBelow s.depth l).filter s.isDirectory
  | .directories :: part :: rest, l =>
    (s.treeBelow s.depth l).flatMap fun e =>
      if part.fits (e.getLastD []) then matchesFrom s rest e else []

/-- The locations that fit a path with patterns. -/
def expand? (s : Store) (p : Path) : Option (List Location) :=
  let parts := if p.text.toList.head? = some '/' then p.parts.drop 1 else p.parts
  (parts.mapM PatternPart.read?).map fun parts => s.matchesFrom parts (s.start p)

/-! ## Files of a path -/

def extensionAt (l : Location) : Option (List Char) := (Path.splitName (l.getLastD [])).2

/-- The files that a path stands for. -/
def sources (s : Store) (p : Path) : Except SourceError (List Location) :=
  match s.locate p with
  | .error e => .error (.file e)
  | .ok l =>
    if s.isDirectory l then
      match s.filesBelow (s.depth + 1) [l] with
      | [] => .error .noFile
      | first :: rest =>
        if rest.all (extensionAt · = extensionAt first) then .ok (first :: rest)
        else .error .mixedExtensions
    else if isPattern p.text.toList then
      match s.expand? p with
      | none => .error .badPattern
      | some ls =>
        match ls.filter s.isFilled with
        | [] => .error .noFile
        | files => .ok files
    else .ok [l]

end Store

end TableCleaner
