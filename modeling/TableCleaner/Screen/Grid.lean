import TableCleaner.Text.Pieces
import TableCleaner.Text.Width

/-!
# Grids

A grid is a framed table of texts with a header. Every column is as wide as its widest line and at
least one cell wide, with a blank on both sides. A line break in a text starts a new line of its
row.
-/

namespace TableCleaner

structure Grid where
  header : List String
  rows : List (List String)
deriving DecidableEq, Repr

namespace Grid

/-- The lines of a text in a grid. -/
def textLines (s : String) : List (List Char) := Text.pieces '\n' s.toList

def greatest (ns : List Nat) : Nat := ns.foldr max 0

def textWidth (s : String) : Nat := greatest ((textLines s).map Text.width)

def columnWidths (g : Grid) : List Nat :=
  (g.header :: g.rows).foldr (fun row => List.zipWith max (row.map textWidth))
    (g.header.map fun _ => 1)

/-! ## Lines -/

/-- The characters of a horizontal line. -/
structure Rule where
  left : Char
  fill : Char
  between : Char
  right : Char

def top : Rule := ⟨'┌', '─', '┬', '┐'⟩
def underHeader : Rule := ⟨'╞', '═', '╪', '╡'⟩
def bottom : Rule := ⟨'└', '─', '┴', '┘'⟩

def Rule.line (r : Rule) (widths : List Nat) : List Char :=
  r.left :: [r.between].intercalate (widths.map fun w => List.replicate (w + 2) r.fill) ++ [r.right]

/-- A line of a text between blanks, in a column of some width. -/
def padded (width : Nat) (line : List Char) : List Char :=
  ' ' :: line ++ List.replicate (width - Text.width line) ' ' ++ [' ']

/-- The lines of a row, as many as its longest text has. -/
def rowLines (widths : List Nat) (row : List String) : List (List Char) :=
  let cells := row.map textLines
  (List.range (greatest (cells.map List.length))).map fun i =>
    let parts := List.zipWith (fun w cell => padded w (cell.getD i [])) widths cells
    '│' :: ['┆'].intercalate parts ++
      ['│']

def lines (g : Grid) : List String :=
  let widths := g.columnWidths
  let chars := top.line widths :: rowLines widths g.header ++
    underHeader.line widths :: g.rows.flatMap (rowLines widths) ++ [bottom.line widths]
  chars.map String.ofList

/-- The lines with breaks between them. -/
def text (g : Grid) : String := "\n".intercalate g.lines

/-- The lines as they stand below a heading. -/
def indented (g : Grid) : List String := g.lines.map ("    " ++ ·)

end Grid

end TableCleaner
