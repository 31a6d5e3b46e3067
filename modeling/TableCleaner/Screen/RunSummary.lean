import TableCleaner.Decimal.Nearest
import TableCleaner.Pipeline.Run
import TableCleaner.Screen.Grid
import TableCleaner.Screen.Message

/-!
# Reports of runs

What a run did, as tables of shapes: one for the whole run and one line for each step.
-/

namespace TableCleaner

/-- A run over a table in a file. -/
structure RunSummary where
  input : Path
  output : Path
  report : RunReport
deriving DecidableEq, Repr

namespace Screen

/-- The name of a kind in a list of kinds. -/
def kindLabel (kind : String) : String := if kind.isEmpty then "<missing op>" else kind

/-! ## Time -/

/-- A floating-point number with two places; a half goes to the even neighbour. -/
def twoPlaces (x : Float) : String :=
  let b := Binary.ofBits (Binary.magnitudeBits x)
  let numerator := 100 * b.mantissa * Nat.pow 2 b.scale.toNat
  let hundredths := Decimal.roundHalfEven numerator (Nat.pow 2 (-b.scale).toNat)
  let places := hundredths % 100
  shownNat (hundredths / 100) ++ "." ++ (if places < 10 then "0" else "") ++ shownNat places

/-- A span of time in seconds. -/
def seconds (nanos : Nat) : String :=
  let second := 1000000000
  twoPlaces (Decimal.ofInt (nanos / second) + Decimal.ofInt (nanos % second) / 1000000000.0) ++ "s"

end Screen

namespace RunReport

open Screen

def change (before after : Nat) : String := shownNat before ++ " → " ++ shownNat after

/-- The shape of the table before and after the run, and how many steps were applied. -/
def overview (r : RunReport) : Grid where
  header := ["Metric", "Before", "After"]
  rows :=
    [["Rows", shownNat r.before.rows, shownNat r.after.rows],
      ["Columns", shownNat r.before.columns, shownNat r.after.columns],
      ["Steps applied", shownNat r.outcomes.length, shownNat r.appliedCount]]

/-- The change of shape in every step. -/
def stepGrid (r : RunReport) : Grid where
  header := ["#", "Operation", "Rows", "Columns"]
  rows := r.outcomes.map fun o =>
    [shownNat (o.index + 1), if o.isSupported then o.kind else o.kind ++ " (skipped)",
      change o.before.rows o.after.rows, change o.before.columns o.after.columns]

/-- The kinds of the steps that were passed over, if there are any. -/
def skippedLines (r : RunReport) : List String :=
  let kinds := r.unsupported
  if kinds.isEmpty then []
  else
    ["", "      Skipped unsupported operations (" ++ shownNat kinds.length ++ "):"] ++
      kinds.map ("        • " ++ kindLabel ·)

end RunReport

/-- The report of a run, with the time that it took. -/
def RunSummary.lines (s : RunSummary) (time : String) : List String :=
  ["", "    📋 RUN SUMMARY", "    " ++ Screen.ruled '─', "      Input:  " ++ s.input.text,
    "      Output: " ++ s.output.text, "      Time:   " ++ time, ""] ++
  s.report.overview.indented ++
  (if s.report.outcomes.isEmpty then [] else "" :: s.report.stepGrid.indented) ++
  s.report.skippedLines

end TableCleaner
