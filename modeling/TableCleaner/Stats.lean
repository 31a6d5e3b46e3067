import TableCleaner.Cell

/-!
# Statistics of a column

A column is read as numbers, cell by cell; cells that are no numbers are left out. Sums run from
the first row to the last, so their rounding is fixed by the order of the rows.
-/

namespace TableCleaner.Stats

/-- The numeric reading of each cell. -/
def view (cells : List Cell) : List (Option Float) := cells.map Cell.number?

/-- The numbers of a view. -/
def present (view : List (Option Float)) : List Float := view.filterMap id

/-- The sum from left to right. It starts from the zero that changes no other zero. -/
def sum (values : List Float) : Float := values.foldl (· + ·) (-0.0)

def average (values : List Float) : Float := sum values / values.length.toUInt64.toFloat

def mean? (view : List (Option Float)) : Option Float :=
  let values := present view
  if values.isEmpty then none else some (average values)

/-- The place of a quantile among `n` sorted values, from 0; `q` is brought into 0 to 1. -/
def rank (n : Nat) (q : Float) : Float :=
  let q := if q < 0.0 then 0.0 else if q > 1.0 then 1.0 else q
  (n - 1).toUInt64.toFloat * q

/-- The quantile on the straight line between the two values around its place. -/
def quantile? (view : List (Option Float)) (q : Float) : Option Float := do
  let values := (present view).mergeSort fun a b => decide (a ≤ b)
  let place := rank values.length q
  let below := place.toUInt64
  let lower := below.toNat
  let upper := if below.toFloat < place then lower + 1 else lower
  let low ← values[lower]?
  let high ← values[upper]?
  return low + (high - low) * (place - below.toFloat)

def median? (view : List (Option Float)) : Option Float := quantile? view 0.5

/-- The standard deviation of a sample, for two values at least. -/
def sampleDeviation? (view : List (Option Float)) : Option Float :=
  let values := present view
  if values.length < 2 then none
  else
    let m := average values
    let squares := values.map fun v => (v - m) * (v - m)
    some (sum squares / (values.length - 1).toUInt64.toFloat).sqrt

/-- The first of the least values. -/
def min? (view : List (Option Float)) : Option Float :=
  match present view with
  | [] => none
  | v :: rest => some (rest.foldl (fun m w => if w < m then w else m) v)

/-- The first of the greatest values. -/
def max? (view : List (Option Float)) : Option Float :=
  match present view with
  | [] => none
  | v :: rest => some (rest.foldl (fun m w => if m < w then w else m) v)

end TableCleaner.Stats
