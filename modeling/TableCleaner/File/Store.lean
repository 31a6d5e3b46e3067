import TableCleaner.File.Path
import TableCleaner.Frame.Basic

/-!
# Stores

A store is the part of a file system that a command sees: its current directory, the directories and
the files. A path is followed step by step; only a directory can be stepped from.
-/

namespace TableCleaner

/-- The names from the root to a file or a directory. -/
abbrev Location := List (List Char)

/-- What a file holds: a text, a frame with the types of its columns, or something else. -/
inductive Content where
  | text (s : String)
  | frame (f : Frame)
  | unknown

structure Store where
  current : Location
  /-- The directories besides the root. -/
  directories : List Location
  files : List (Location × Content)

/-- Why a file cannot be read or written. -/
inductive FileError where
  | notFound
  | notADirectory
  | isADirectory
  | notText
  | nameTooLong
  /-- No name holds the character zero. -/
  | zeroInName
deriving DecidableEq, Repr

def FileError.message : FileError → String
  | notFound => "No such file or directory (os error 2)"
  | notADirectory => "Not a directory (os error 20)"
  | isADirectory => "Is a directory (os error 21)"
  | notText => "stream did not contain valid UTF-8"
  | nameTooLong => "File name too long (os error 36)"
  | zeroInName => "file name contained an unexpected NUL byte"

namespace Store

/-! ## Looking -/

def isDirectory (s : Store) (l : Location) : Bool := l.isEmpty || s.directories.contains l

def content? (s : Store) (l : Location) : Option Content := (s.files.find? (·.1 == l)).map (·.2)

/-- The bytes of a name, at most. -/
def nameBytes : Nat := 255

/-- The bytes of a path, at most. -/
def pathBytes : Nat := 4095

/-- Where one part of a path leads from a location. -/
def advance (s : Store) (l : Location) (part : List Char) : Except FileError Location :=
  if s.isDirectory l then
    if Path.isIdle part then .ok l
    else if part = Path.dots then .ok l.dropLast
    else if nameBytes < (String.ofList part).utf8ByteSize then .error .nameTooLong
    else .ok (l ++ [part])
  else if (s.content? l).isSome then .error .notADirectory
  else .error .notFound

/-- Where parts of a path lead from a location. -/
def follow (s : Store) (l : Location) : List (List Char) → Except FileError Location
  | [] => .ok l
  | part :: rest =>
    match s.advance l part with
    | .ok next => follow s next rest
    | .error e => .error e

/-- Where a path starts. -/
def start (s : Store) (p : Path) : Location :=
  if p.text.toList.head? = some '/' then [] else s.current

/-- Where the parts of a path lead, unless the path is no path at all. -/
def followParts (s : Store) (p : Path) (parts : List (List Char)) : Except FileError Location :=
  if p.text.isEmpty then .error .notFound
  else if p.text.toList.contains '\x00' then .error .zeroInName
  else if pathBytes < p.text.utf8ByteSize then .error .nameTooLong
  else s.follow (s.start p) parts

/-- Where a path leads. There need not be anything yet. -/
def locate (s : Store) (p : Path) : Except FileError Location := s.followParts p p.parts

/-- A file or a directory is at the end of the path. -/
def holds (s : Store) (p : Path) : Bool :=
  match s.locate p with
  | .ok l => s.isDirectory l || (s.content? l).isSome
  | .error _ => false

/-- Where a path leads that shall name a file to write. A slash at the end names a directory. -/
def target (s : Store) (p : Path) : Except FileError Location :=
  let named := (p.parts.reverse.dropWhile List.isEmpty).reverse
  match s.followParts p named with
  | .error e => .error e
  | .ok l =>
    if named.length < p.parts.length || s.isDirectory l then .error .isADirectory else .ok l

/-! ## Reading and writing -/

/-- What the file at a location holds. -/
def readAt (s : Store) (l : Location) : Except FileError Content :=
  if s.isDirectory l then .error .isADirectory
  else
    match s.content? l with
    | some c => .ok c
    | none => .error .notFound

/-- What the file at a path holds. -/
def read (s : Store) (p : Path) : Except FileError Content :=
  match s.locate p with
  | .error e => .error e
  | .ok l => s.readAt l

/-- The text that the file at a location holds. -/
def readTextAt (s : Store) (l : Location) : Except FileError String :=
  match s.readAt l with
  | .error e => .error e
  | .ok (.text t) => .ok t
  | .ok _ => .error .notText

/-- The text that the file at a path holds. -/
def readText (s : Store) (p : Path) : Except FileError String :=
  match s.locate p with
  | .error e => .error e
  | .ok l => s.readTextAt l

/-- Puts a content at a location, in place of an older one. -/
def put (s : Store) (l : Location) (c : Content) : Store :=
  if s.files.any (·.1 == l) then
    { s with files := s.files.map fun f => if f.1 == l then (l, c) else f }
  else { s with files := s.files ++ [(l, c)] }

/-- Writes the file at a path, which may be new. Its directory has to be there. -/
def write (s : Store) (p : Path) (c : Content) : Except FileError Store :=
  match s.target p with
  | .error e => .error e
  | .ok l => .ok (s.put l c)

end Store

end TableCleaner
