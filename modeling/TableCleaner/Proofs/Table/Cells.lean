import TableCleaner.Operation.Apply

/-!
# Cells by name and row

What stands where after a change of a table: a column is looked up by its name, and a cell by the
name of its column and its row.
-/

namespace TableCleaner

namespace Table

/-- The cell of a named column in a row. -/
def cell? (t : Table) (name : String) (row : Nat) : Option Cell :=
  (t.column? name).bind (·.cells[row]?)

/-- The table of some rows, one after another. -/
def rowsAt (t : Table) (rows : List (Fin t.height)) : Table where
  columns := t.columns.map fun c => { c with cells := rows.map fun i : Fin _ => c.cells.getD i .null }
  height := rows.length
  names_nodup := by simpa [Function.comp_def] using t.names_nodup
  length_cells := by
    intro c hc
    obtain ⟨d, -, rfl⟩ := List.mem_map.mp hc
    simp

/-! ## Columns -/

theorem find?_map_name {columns : List Column} {f : Column → Column} {name : String}
    (hf : ∀ c ∈ columns, (f c).name = c.name) :
    (columns.map f).find? (·.name == name) = (columns.find? (·.name == name)).map f := by
  induction columns with
  | nil => rfl
  | cons c rest ih =>
    rw [List.map_cons, List.find?_cons, List.find?_cons, hf c List.mem_cons_self,
      ih fun d hd => hf d (List.mem_cons_of_mem c hd)]
    split <;> rfl

variable {t : Table} {name : String}

theorem name_of_column? {c : Column} (h : t.column? name = some c) : c.name = name := by
  simpa using List.find?_some h

theorem column?_isSome_iff : (t.column? name).isSome ↔ name ∈ t.names := by
  simp [column?, names]

theorem column?_of_mem {c : Column} (h : c ∈ t.columns) : t.column? c.name = some c := by
  have hnames := t.names_nodup
  unfold column?
  generalize t.columns = columns at h hnames
  induction columns with
  | nil => simp at h
  | cons d rest ih =>
    obtain ⟨hd, hrest⟩ := List.nodup_cons.mp hnames
    rcases List.mem_cons.mp h with rfl | h
    · simp
    · have hne : d.name ≠ c.name := by
        intro he
        exact hd (List.mem_map.mpr ⟨c, h, he.symm⟩)
      rw [List.find?_cons_of_neg (by simpa using hne), ih h hrest]

theorem exists_position? {c : Column} (h : t.column? name = some c) :
    ∃ p, t.position? name = some p ∧ t.columns[p]? = some c := by
  obtain ⟨hc, p, hp, rfl, hbefore⟩ := List.find?_eq_some_iff_getElem.mp h
  refine ⟨p, ?_, List.getElem?_eq_getElem hp⟩
  rw [position?, List.findIdx?_eq_some_iff_getElem]
  exact ⟨hp, hc, fun j hj => by simpa using hbefore j hj⟩

theorem cells?_eq (h : name ≠ "") : t.cells? name = (t.column? name).map (·.cells) := by
  simp [cells?, h]

theorem cells?_of_mem {c : Column} (hc : c ∈ t.columns) (hname : c.name ≠ "") :
    t.cells? c.name = some c.cells := by
  rw [cells?_eq hname, column?_of_mem hc, Option.map_some]

theorem column?_mapCells (f : Cell → Cell) :
    (t.mapCells name f).column? name =
      (t.column? name).map fun c => { c with cells := c.cells.map f } := by
  have hnames : ∀ c ∈ t.columns,
      (if c.name = name then { c with cells := c.cells.map f } else c).name = c.name := by
    intro c _
    split <;> rfl
  rw [column?, mapCells, find?_map_name hnames]
  apply Option.map_congr
  intro c hc
  rw [if_pos (name_of_column? hc)]

theorem column?_rowsAt (rows : List (Fin t.height)) :
    (t.rowsAt rows).column? name =
      (t.column? name).map fun c => { c with cells := rows.map fun i : Fin _ => c.cells.getD i .null } :=
  find?_map_name fun _ _ => rfl

theorem column?_setColumn_self {c : Column} (h : c.cells.length = t.height) :
    (t.setColumn c h).column? c.name = some c := by
  unfold setColumn
  rw [column?]
  simp only
  split
  · rename_i hmem
    obtain ⟨d, hd⟩ := Option.isSome_iff_exists.mp (column?_isSome_iff.mpr hmem)
    rw [find?_map_name]
    · rw [← column?, hd, Option.map_some, if_pos (name_of_column? hd)]
    · intro d _
      split <;> simp_all
  · rename_i hmem
    rw [← column?_isSome_iff, Option.not_isSome_iff_eq_none, column?] at hmem
    simp [List.find?_append, hmem]

theorem column?_setColumn_of_ne {c : Column} (h : c.cells.length = t.height)
    (hne : name ≠ c.name) : (t.setColumn c h).column? name = t.column? name := by
  unfold setColumn
  rw [column?]
  simp only
  split
  · rw [find?_map_name]
    · rw [← column?]
      cases hd : t.column? name with
      | none => rfl
      | some d => rw [Option.map_some, if_neg (by rwa [name_of_column? hd])]
    · intro d _
      split <;> simp_all
  · simp [column?, List.find?_append, hne.symm]

end Table

end TableCleaner
