import TableCleaner.Screen.RunSummary

/-!
# Previews on the screen

A preview is shown as two tables, before and after the step. Only their first rows are printed.
-/

namespace TableCleaner

/-- The text of a cell in a grid. -/
def Cell.gridText : Cell → String
  | null => "null"
  | c => c.shown

/-- The first rows of a table. -/
def Table.grid (t : Table) (rows : Nat) : Grid where
  header := t.names
  rows := (List.range (min t.height rows)).map fun i =>
    t.columns.map fun c => (c.cells.getD i .null).gridText

namespace Preview

open Screen

/-- The rows that are printed of each table. -/
def shownRows : Nat := 10

/-- A table under a label, with its shape. -/
def tableLines (label : String) (t : Table) : List String :=
  let more := t.height - shownRows
  let shape := shownNat t.height ++ " rows × " ++ shownNat t.width ++ " columns"
  ["", "      " ++ label ++ " (" ++ shape ++ ")"] ++
  (t.grid shownRows).indented ++
  (if more = 0 then [] else ["      … " ++ shownNat more ++ " more rows"])

/-- The note under the title of a step that does nothing. -/
def unsupportedNote : String := "      Unsupported operation, dataset passes through unchanged"

def lines (p : Preview) : List String :=
  let op := p.step.operation
  ["", "    🔍 PREVIEW " ++ kindLabel op.kindName, "    " ++ ruled '─'] ++
  (if op.isSupported then [] else [unsupportedNote]) ++
  tableLines "Before" p.before ++ tableLines "After" p.after

end Preview

end TableCleaner
