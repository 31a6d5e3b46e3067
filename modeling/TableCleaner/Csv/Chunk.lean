import TableCleaner.Csv.Field

/-!
# Records, lines and chunks

A text is read as records, in which a quote counts at the start of a field only, and as lines, in
which every quote counts. It is read in chunks of lines, and in each chunk there shall be as many
records as lines.
-/

namespace TableCleaner.Csv

/-! ## Records -/

/-- Where the reader stands in a field. -/
inductive State where
  | start
  | plain
  /-- Inside the quotes of a quoted field. -/
  | inside
  /-- In a quoted field after a quote that closes. -/
  | outside
deriving DecidableEq, Repr

def State.next (state : State) (c : Char) : State :=
  match state with
  | start => if c = '"' then inside else plain
  | plain => plain
  | inside => if c = '"' then outside else inside
  | outside => if c = '"' then inside else outside

/-- Splits a text into records. The characters of the current field and the fields of the current
record are collected in reverse. A comma or a line break at the end of the text starts nothing. -/
def splitFrom (state : State) (field : Field) (fields : List Field) :
    List Char → List (List Field)
  | [] =>
    let fields := if field.isEmpty then fields else field.reverse :: fields
    if fields.isEmpty then [] else [fields.reverse]
  | c :: s =>
    if state = .inside || !(c = ',' || c = '\n') then
      splitFrom (state.next c) (c :: field) fields s
    else if c = ',' then splitFrom .start [] (field.reverse :: fields) s
    else (field.reverse :: fields).reverse :: splitFrom .start [] [] s

/-- The records of a text. -/
def split (s : List Char) : List (List Field) := splitFrom .start [] [] s

/-- The fields of the first record of a text, of which there is one at least. -/
def firstRecordFrom (state : State) (field : Field) : List Char → List Field
  | [] => [field.reverse]
  | c :: s =>
    if state = .inside || !(c = ',' || c = '\n') then firstRecordFrom (state.next c) (c :: field) s
    else field.reverse :: if c = ',' then firstRecordFrom .start [] s else []

def firstRecord (s : List Char) : List Field := firstRecordFrom .start [] s

/-! ## Lines -/

/-- Splits a text at the line breaks that are not between quotes. The last part is what follows the
last of them. -/
def linesFrom (isInside : Bool) (line : List Char) : List Char → List (List Char) × List Char
  | [] => ([], line.reverse)
  | c :: s =>
    if c = '\n' && !isInside then
      let (lines, rest) := linesFrom false [] s
      (line.reverse :: lines, rest)
    else linesFrom (isInside != decide (c = '"')) (c :: line) s

/-- The lines of a text that end with a line break, and the text after them. -/
def lines (s : List Char) : List (List Char) × List Char := linesFrom false [] s

/-- The bytes of a text. -/
def byteCount (s : List Char) : Nat := s.foldl (fun n c => n + c.utf8Size) 0

/-- The window, doubled until it holds some bytes. -/
def widen (window bytes : Nat) : Nat :=
  if bytes ≤ window || window = 0 then window else widen (2 * window) bytes
termination_by bytes - window
decreasing_by
  rename_i h
  simp only [Bool.or_eq_true, decide_eq_true_eq] at h
  omega

/-- Groups lines into chunks that fit a window of some bytes. A window that is too small for one
line is doubled, and stays so. The lines of the current chunk are collected in reverse. -/
def chunksFrom (window used : Nat) (chunk : List (List Char)) :
    List (List Char) → List (List (List Char))
  | [] => if chunk.isEmpty then [] else [chunk.reverse]
  | line :: rest =>
    let bytes := byteCount line + 1
    if chunk.isEmpty then chunksFrom (widen window bytes) bytes [line] rest
    else if used + bytes ≤ window then chunksFrom window (used + bytes) (line :: chunk) rest
    else chunk.reverse :: chunksFrom (widen window bytes) bytes [line] rest

/-- The bytes of the first window. -/
def firstWindow : Nat := 64

/-- A part of a text that is read on its own. -/
structure Chunk where
  text : List Char
  lineCount : Nat

/-- The chunks of a text. What follows the last line is a chunk of one line. -/
def chunks (s : List Char) : List Chunk :=
  let (whole, rest) := lines s
  let groups := chunksFrom firstWindow 0 [] whole
  (groups.map fun ls => ⟨ls.flatMap (· ++ ['\n']), ls.length⟩) ++
    if rest.isEmpty then [] else [⟨rest, 1⟩]

end TableCleaner.Csv
