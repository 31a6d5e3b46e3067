import TableCleaner.Operation.CleanText
import TableCleaner.Stats
import TableCleaner.Table.Basic

/-!
# Applied operations

Every operation takes a table to a table. A name that is empty or that no column has changes
nothing, and a cell that cannot be read becomes empty.
-/

namespace TableCleaner

namespace Table

/-- The cells of a named column. The empty name names none. -/
def cells? (t : Table) (name : String) : Option (List Cell) :=
  if name.isEmpty then none else (t.column? name).map (·.cells)

theorem length_of_cells? {t : Table} {name : String} {cells : List Cell}
    (h : t.cells? name = some cells) : cells.length = t.height := by
  unfold cells? at h
  split at h
  · simp at h
  · obtain ⟨c, hc, rfl⟩ := Option.map_eq_some_iff.1 h
    exact t.length_cells c (List.mem_of_find?_eq_some hc)

/-- Sets a column computed from the cells of another, with a cell for each of them. -/
def derive (t : Table) (source target : String) (f : List Cell → List Cell)
    (hf : ∀ cells, (f cells).length = cells.length) : Table :=
  match h : t.cells? source with
  | none => t
  | some cells => t.setColumn ⟨target, f cells⟩ ((hf cells).trans (length_of_cells? h))

/-! ## Types -/

def convertCell : TargetType → Cell → Cell
  | .numeric, .int i => .int i
  | .numeric, c => (c.number?.map Cell.number).getD .null
  | .string, .null => .null
  | .string, c => .text c.shown
  | .boolean, c => .bool (["1", "true", "yes"].contains (Text.lowercase c.shown))
  | .datetime, c => (c.dateTime?.map Cell.dateTime).getD .null

def changeType (t : Table) (column : String) (toType : Option TargetType) : Table :=
  match toType, t.cells? column with
  | some type, some _ => t.mapCells column (convertCell type)
  | _, _ => t

/-! ## Duplicate rows -/

/-- The keys of each row in some columns, given by their positions. -/
def rowKeys (t : Table) (positions : List Nat) : List (List (Option String)) :=
  (List.range t.height).map fun row =>
    positions.map fun i => ((t.columns[i]?.bind (·.cells[row]?)).getD .null).key

/-- True for each item that no earlier item and no item of `seen` equals. -/
def firstFlags {α : Type} [BEq α] : (seen : List α) → List α → List Bool
  | _, [] => []
  | seen, a :: rest => (!seen.contains a) :: firstFlags (a :: seen) rest

theorem length_firstFlags {α : Type} [BEq α] (seen l : List α) :
    (firstFlags seen l).length = l.length := by
  induction l generalizing seen with
  | nil => rfl
  | cons a l ih => simp [firstFlags, ih]

/-- The positions of named columns, if all are there; the empty list stands for all columns. -/
def comparedPositions? (t : Table) (subset : List String) : Option (List Nat) :=
  if subset.isEmpty then some (List.range t.width) else subset.mapM t.position?

/-- Keeps the first of the rows with equal keys in the compared columns. -/
def removeDuplicateRows (t : Table) (subset : List String) : Table :=
  match t.comparedPositions? subset with
  | none => t
  | some positions =>
    t.keepRows (firstFlags [] (t.rowKeys positions)) (by simp [length_firstFlags, rowKeys])

/-! ## Empty cells and replaced values -/

/-- The items without repetitions, each where it is met first. -/
def distinct (keys : List String) : List String :=
  keys.foldl (fun seen k => if seen.contains k then seen else seen ++ [k]) []

/-- The keys of the cells that are not empty. -/
def presentKeys (cells : List Cell) : List String := cells.filterMap Cell.key

/-- The key that is met most often; of several the one that is met first. -/
def mostFrequent? (keys : List String) : Option String :=
  (distinct keys).foldl (fun best k =>
    match best with
    | none => some k
    | some b => if keys.count b < keys.count k then some k else some b) none

/-- The first cell with the most frequent key. -/
def mode? (cells : List Cell) : Option Cell :=
  (mostFrequent? (presentKeys cells)).bind fun k => cells.find? (·.key == some k)

/-- The value for the empty cells of a column. -/
def fill? (cells : List Cell) (value : Option Json) : ImputeStrategy → Option Cell
  | .mean => (Stats.mean? (Stats.view cells)).map Cell.ofFloat
  | .median => (Stats.median? (Stats.view cells)).map Cell.ofFloat
  | .mode => mode? cells
  | .custom => value.map Cell.ofJson

def impute (t : Table) (column : String) (strategy : Option ImputeStrategy)
    (value : Option Json) : Table :=
  match strategy, t.cells? column with
  | some strategy, some cells =>
    match fill? cells value strategy with
    | some fill =>
      if fill.isNull then t else t.mapCells column fun c => if c.isNull then fill else c
    | none => t
  | _, _ => t

/-- Puts one value in the place of every cell that has the key of another. -/
def replaceValues (t : Table) (column : String) (matching replacement : Option Json) : Table :=
  match matching, replacement, t.cells? column with
  | some matching, some replacement, some _ =>
    let key := (Cell.ofJson matching).key
    let cell := Cell.ofJson replacement
    t.mapCells column fun c => if c.key = key then cell else c
  | _, _, _ => t

/-! ## Encodings -/

/-- Sets one column of truth values for each key of a list. -/
def setIndicators (t : Table) (column : String) (keys : List (Option String))
    (h : keys.length = t.height) : List String → Table
  | [] => t
  | k :: rest =>
    let c : Column := ⟨column ++ "_" ++ k, keys.map fun key => .bool (key == some k)⟩
    (t.setColumn c (by simpa [c] using h)).setIndicators column keys h rest

/-- Puts a column of truth values for each of its keys in the place of a column. -/
def oneHotEncode (t : Table) (column : String) : Table :=
  match h : t.cells? column with
  | none => t
  | some cells =>
    (t.dropColumn column).setIndicators column (cells.map Cell.key)
      (by simpa [dropColumn] using length_of_cells? h) (distinct (presentKeys cells))

/-- The place of a cell's key among distinct keys; an empty cell has none and gets -1. -/
def labelCell (keys : List String) (c : Cell) : Cell :=
  match c.key.bind fun k => keys.findIdx? (· == k) with
  | some i => .int (Int64.ofNat i)
  | none => .int (-1)

def labelCells (cells : List Cell) : List Cell :=
  let keys := distinct (presentKeys cells)
  cells.map (labelCell keys)

def labelEncode (t : Table) (column : String) : Table :=
  t.derive column (column ++ "_label") labelCells fun _ => by simp [labelCells]

/-! ## Scales -/

/-- A divisor that is not zero. -/
def divisor (x : Float) : Float := if x == 0.0 then 1.0 else x

/-- What is taken from each number and what it is divided by. -/
def scale? (view : List (Option Float)) : Scaler → Option (Float × Float)
  | .minMax => do
    let low ← Stats.min? view
    let high ← Stats.max? view
    if low < high then some (low, high - low) else none
  | .standard => do return (← Stats.mean? view, divisor (← Stats.sampleDeviation? view))
  | .robust => do
    let low ← Stats.quantile? view 0.25
    let high ← Stats.quantile? view 0.75
    return (← Stats.median? view, divisor (high - low))

def scaledCell (center unit : Float) (c : Cell) : Cell :=
  match c.number? with
  | some x => Cell.ofFloat ((x - center) / unit)
  | none => .null

def scaledCells (scaler : Scaler) (cells : List Cell) : List Cell :=
  match scale? (Stats.view cells) scaler with
  | some (center, unit) => cells.map (scaledCell center unit)
  | none => cells.map fun _ => .null

def scale (t : Table) (scaler : Scaler) (column : String) : Table :=
  t.derive column (column ++ scaler.suffix) (scaledCells scaler) fun _ => by
    unfold scaledCells; split <;> simp

/-! ## Texts and dates -/

def cleanCell (flags : CleanFlags) : Cell → Cell
  | .null => .null
  | c => .text (Text.cleanText flags c.shown)

def textClean (t : Table) (column : String) (flags : CleanFlags) : Table :=
  match t.cells? column with
  | some _ => t.mapCells column (cleanCell flags)
  | none => t

def datePart (part : DatePart) (d : Date) : Int64 :=
  match part with
  | .year => Int64.ofInt d.year
  | .month => Int64.ofNat d.month
  | .day => Int64.ofNat d.day

def datePartCell (part : DatePart) (c : Cell) : Cell :=
  match c.dateTime? with
  | some t => .int (datePart part t.date)
  | none => .null

def extractDatePart (t : Table) (column : String) (part : Option DatePart) : Table :=
  match part with
  | some part =>
    t.derive column (column ++ "_" ++ part.name) (·.map (datePartCell part)) fun _ => by simp
  | none => t

end Table

/-- Applies an operation to a table. -/
def Operation.apply (t : Table) : Operation → Table
  | dropColumn column => if column.isEmpty then t else t.dropColumn column
  | renameColumn source target =>
    if source.isEmpty || target.isEmpty then t else t.renameColumn source target
  | changeType column toType => t.changeType column toType
  | removeDuplicateRows subset => t.removeDuplicateRows subset
  | impute column strategy value => t.impute column strategy value
  | replaceValues column matching replacement => t.replaceValues column matching replacement
  | oneHotEncode column => t.oneHotEncode column
  | labelEncode column => t.labelEncode column
  | scale scaler column => t.scale scaler column
  | textClean column flags => t.textClean column flags
  | extractDatePart column part => t.extractDatePart column part
  | unsupported _ => t

end TableCleaner
