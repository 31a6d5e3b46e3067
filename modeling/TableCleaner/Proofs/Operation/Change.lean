import TableCleaner.Operation.Apply

/-!
# What operations come down to

The operations have many parameters but few ways to change a table. Every operation is read here
as one such change, so that a law of all operations is proved once for each way and not once for
each operation.
-/

namespace TableCleaner

/-- A way to change a table, with the parameters of the operation settled. -/
inductive Change where
  | keep
  | drop (column : String)
  | rename (source target : String)
  /-- Changes the cells of a column one by one. The column as a whole says how. -/
  | map (column : String) (f : List Cell → Cell → Cell)
  /-- Sets a column to cells computed from another column. -/
  | derive (source target : String) (f : List Cell → List Cell)
      (hf : ∀ cells, (f cells).length = cells.length)
  /-- Puts columns of truth values in the place of a column. -/
  | encode (column : String)
  /-- Keeps the first of equal rows. -/
  | select (subset : List String)

namespace Table

def mapColumn (t : Table) (column : String) (f : List Cell → Cell → Cell) : Table :=
  match t.cells? column with
  | some cells => t.mapCells column (f cells)
  | none => t

end Table

namespace Change

def apply (t : Table) : Change → Table
  | keep => t
  | drop column => if column.isEmpty then t else t.dropColumn column
  | rename source target =>
    if source.isEmpty || target.isEmpty then t else t.renameColumn source target
  | map column f => t.mapColumn column f
  | derive source target f hf => t.derive source target f hf
  | encode column => t.oneHotEncode column
  | select subset => t.removeDuplicateRows subset

end Change

/-! ## The change of an operation -/

theorem Table.length_labelCells (cells : List Cell) :
    (Table.labelCells cells).length = cells.length :=
  List.length_map ..

theorem Table.length_datePartCells (part : DatePart) (cells : List Cell) :
    (cells.map (Table.datePartCell part)).length = cells.length :=
  List.length_map ..

theorem Table.length_scaledCells (scaler : Scaler) (cells : List Cell) :
    (Table.scaledCells scaler cells).length = cells.length := by
  unfold Table.scaledCells
  split <;> exact List.length_map ..

namespace Operation

/-- How an imputation changes one cell of a column. -/
def fillCell (strategy : Option ImputeStrategy) (value : Option Json) (cells : List Cell) :
    Cell → Cell :=
  match strategy.bind (Table.fill? cells value) with
  | some fill => if fill.isNull then id else fun c => if c.isNull then fill else c
  | none => id

/-- How a replacement changes one cell. -/
def replaceCell (matching replacement : Option Json) : Cell → Cell :=
  match matching, replacement with
  | some m, some r => fun c => if c.key = (Cell.ofJson m).key then Cell.ofJson r else c
  | _, _ => id

/-- How a change of type changes one cell. -/
def retypeCell (toType : Option TargetType) : Cell → Cell :=
  match toType with
  | some type => Table.convertCell type
  | none => id

def change : Operation → Change
  | dropColumn column => .drop column
  | renameColumn source target => .rename source target
  | changeType column toType => .map column fun _ => retypeCell toType
  | removeDuplicateRows subset => .select subset
  | impute column strategy value => .map column (fillCell strategy value)
  | replaceValues column matching replacement =>
    .map column fun _ => replaceCell matching replacement
  | oneHotEncode column => .encode column
  | labelEncode column =>
    .derive column (column ++ "_label") Table.labelCells Table.length_labelCells
  | scale scaler column =>
    .derive column (column ++ scaler.suffix) (Table.scaledCells scaler)
      (Table.length_scaledCells scaler)
  | textClean column flags => .map column fun _ => Table.cleanCell flags
  | extractDatePart column part =>
    match part with
    | some part =>
      .derive column (column ++ "_" ++ part.name) (·.map (Table.datePartCell part))
        (Table.length_datePartCells part)
    | none => .keep
  | unsupported _ => .keep

end Operation

/-! ## Applying the change -/

namespace Table

theorem mapCells_id (t : Table) (column : String) : t.mapCells column id = t := by
  apply ext
  · unfold mapCells
    simp
  · rfl

theorem mapColumn_id (t : Table) (column : String) : t.mapColumn column (fun _ => id) = t := by
  unfold mapColumn
  split
  · exact t.mapCells_id column
  · rfl

theorem changeType_eq (t : Table) (column : String) (toType : Option TargetType) :
    t.changeType column toType = t.mapColumn column fun _ => Operation.retypeCell toType := by
  cases toType with
  | none => exact (t.mapColumn_id column).symm
  | some type =>
    unfold changeType mapColumn
    cases t.cells? column <;> rfl

theorem impute_eq (t : Table) (column : String) (strategy : Option ImputeStrategy)
    (value : Option Json) :
    t.impute column strategy value = t.mapColumn column (Operation.fillCell strategy value) := by
  cases strategy with
  | none => exact (t.mapColumn_id column).symm
  | some strategy =>
    unfold impute mapColumn
    cases t.cells? column with
    | none => rfl
    | some cells =>
      simp only [Operation.fillCell, Option.bind_some]
      cases fill? cells value strategy with
      | none => exact (t.mapCells_id column).symm
      | some fill =>
        simp only
        split
        · exact (t.mapCells_id column).symm
        · rfl

theorem replaceValues_eq (t : Table) (column : String) (matching replacement : Option Json) :
    t.replaceValues column matching replacement =
      t.mapColumn column fun _ => Operation.replaceCell matching replacement := by
  match matching, replacement with
  | none, _ => exact (t.mapColumn_id column).symm
  | some _, none => exact (t.mapColumn_id column).symm
  | some m, some r =>
    unfold replaceValues mapColumn
    cases t.cells? column <;> rfl

theorem textClean_eq (t : Table) (column : String) (flags : CleanFlags) :
    t.textClean column flags = t.mapColumn column fun _ => cleanCell flags := by
  unfold textClean mapColumn
  cases t.cells? column <;> rfl

end Table

theorem Operation.apply_eq (t : Table) (op : Operation) : op.apply t = op.change.apply t := by
  cases op with
  | changeType column toType => exact t.changeType_eq column toType
  | impute column strategy value => exact t.impute_eq column strategy value
  | replaceValues column matching replacement => exact t.replaceValues_eq column matching replacement
  | textClean column flags => exact t.textClean_eq column flags
  | extractDatePart column part => cases part <;> rfl
  | dropColumn | renameColumn | removeDuplicateRows | oneHotEncode | labelEncode | scale
  | unsupported => rfl

end TableCleaner
