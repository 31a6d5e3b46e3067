import TableCleaner.Proofs.Operation.Fill

/-!
# Replaced values

A replacement takes the cells with the key of one value and puts another value in their place. The
empty value finds the empty cells, so its replacement is an imputation. A value that the column did
not have can be replaced back.
-/

namespace TableCleaner

namespace Table

variable {t : Table} {c : Column} {m r : Json}

/-- The cells with the key of a value have given way to another value, and nothing else is changed.
-/
structure IsReplaced (t : Table) (name : String) (m r : Json) (s : Table) : Prop where
  height : s.height = t.height
  columns : s.columns = t.columns.map
    (Column.mapCells name fun d => if d.key = (Cell.ofJson m).key then Cell.ofJson r else d)
  gone : (Cell.ofJson r).key ≠ (Cell.ofJson m).key →
    ∀ c ∈ s.columns, c.name = name → ∀ d ∈ c.cells, d.key ≠ (Cell.ofJson m).key

end Table

namespace Operation

variable {t : Table} {c : Column} {m r w : Json} {d : Cell}

/-! ## One cell -/

theorem replaceCell_of_eq (h : d.key = (Cell.ofJson m).key) :
    replaceCell (some m) (some r) d = Cell.ofJson r :=
  if_pos h

theorem replaceCell_of_ne (h : d.key ≠ (Cell.ofJson m).key) :
    replaceCell (some m) (some r) d = d :=
  if_neg h

theorem key_replaceCell_ne (hkey : (Cell.ofJson r).key ≠ (Cell.ofJson m).key) (d : Cell) :
    (replaceCell (some m) (some r) d).key ≠ (Cell.ofJson m).key := by
  by_cases hd : d.key = (Cell.ofJson m).key
  · rwa [replaceCell_of_eq hd]
  · rwa [replaceCell_of_ne hd]

theorem key_replaceCell_back (hd : d.key ≠ (Cell.ofJson w).key) :
    (replaceCell (some w) (some m) (replaceCell (some m) (some w) d)).key = d.key := by
  by_cases hm : d.key = (Cell.ofJson m).key
  · rw [replaceCell_of_eq hm, replaceCell_of_eq rfl, hm]
  · rw [replaceCell_of_ne hm, replaceCell_of_ne hd]

theorem key_eq_key_ofJson_null_iff : d.key = (Cell.ofJson .null).key ↔ d = .null :=
  Cell.key_eq_none_iff

theorem replaceCell_null (v : Json) (cells : List Cell) :
    replaceCell (some .null) (some v) = fillCell (some .custom) (some v) cells := by
  have hfill : Table.fill? cells (some v) .custom = some (Cell.ofJson v) := rfl
  funext d
  simp only [fillCell, Option.bind_some, hfill, Cell.isNull_iff]
  by_cases hd : d = .null
  · rw [replaceCell_of_eq (key_eq_key_ofJson_null_iff.mpr hd)]
    split <;> simp_all
  · rw [replaceCell_of_ne (mt key_eq_key_ofJson_null_iff.mp hd)]
    split <;> simp [hd]

/-! ## One column -/

theorem apply_replaceValues (hc : c ∈ t.columns) (hname : c.name ≠ "") (m r : Json) :
    (replaceValues c.name (some m) (some r)).apply t =
      t.mapCells c.name (replaceCell (some m) (some r)) := by
  rw [apply, t.replaceValues_eq, Table.mapColumn_of_mem hc hname]

theorem replaceValues_isReplaced (hc : c ∈ t.columns) (hname : c.name ≠ "") (m r : Json) :
    t.IsReplaced c.name m r ((replaceValues c.name (some m) (some r)).apply t) := by
  rw [apply_replaceValues hc hname]
  refine ⟨rfl, rfl, fun hkey d hd hdname e he => ?_⟩
  obtain ⟨b, rfl⟩ := Table.exists_of_mem_mapCells hd hdname he
  exact key_replaceCell_ne hkey b

theorem replaceValues_back (hc : c ∈ t.columns) (hname : c.name ≠ "")
    (hw : ∀ d ∈ c.cells, d.key ≠ (Cell.ofJson w).key) :
    (((replaceValues c.name (some w) (some m)).apply
      ((replaceValues c.name (some m) (some w)).apply t)).column? c.name).map
        (fun d => d.cells.map Cell.key) = some (c.cells.map Cell.key) := by
  have hmem : c.mapCells c.name (replaceCell (some m) (some w)) ∈
      (t.mapCells c.name (replaceCell (some m) (some w))).columns := List.mem_map_of_mem hc
  have hagain := apply_replaceValues hmem (by rwa [Column.name_mapCells]) w m
  rw [Column.name_mapCells] at hagain
  rw [apply_replaceValues hc hname, hagain, Table.column?_mapCells, Table.column?_mapCells,
    Table.column?_of_mem hc]
  simp only [Option.map_some, List.map_map, Option.some_inj]
  exact List.map_congr_left fun d hd => key_replaceCell_back (hw d hd)

theorem replaceValues_null (t : Table) (name : String) (v : Json) :
    (replaceValues name (some .null) (some v)).apply t =
      (impute name (some .custom) (some v)).apply t := by
  rw [apply, apply, t.replaceValues_eq, t.impute_eq, Table.mapColumn, Table.mapColumn]
  cases t.cells? name with
  | none => rfl
  | some cells => exact congrArg (t.mapCells name) (replaceCell_null v cells)

/-- **A replacement takes the cells of one key.** The cells of its column that have the key of the
first value become the second, all others stay, and the key is gone unless the second value has it.
The empty value is the key of the empty cells, and to replace it is to impute the second value. When
no cell had the second value, replacing it by the first brings back the key of every row. -/
theorem replaceValues_replaces (t : Table) (name : String) (m r : Json) :
    (∀ d : Cell, d.key = (Cell.ofJson .null).key ↔ d = .null) ∧
    (replaceValues name (some .null) (some r)).apply t =
      (impute name (some .custom) (some r)).apply t ∧
    ∀ c ∈ t.columns, c.name = name → name ≠ "" →
      t.IsReplaced name m r ((replaceValues name (some m) (some r)).apply t) ∧
      ((∀ d ∈ c.cells, d.key ≠ (Cell.ofJson r).key) →
        (((replaceValues name (some r) (some m)).apply
          ((replaceValues name (some m) (some r)).apply t)).column? name).map
            (fun d => d.cells.map Cell.key) = some (c.cells.map Cell.key)) := by
  refine ⟨fun d => key_eq_key_ofJson_null_iff, replaceValues_null t name r, ?_⟩
  rintro c hc rfl hname
  exact ⟨replaceValues_isReplaced hc hname m r, replaceValues_back hc hname⟩

theorem replaceValues_replaces_mixed :
    let c : Column := ⟨"c", [.int 1, .text "1", .null, .number 0.5]⟩
    let t : Table := ⟨[c], 4, by decide, by decide⟩
    let s := (replaceValues "c" (some (.int 1)) (some (.array []))).apply t
    let u := (replaceValues "c" (some (.array [])) (some (.int 1))).apply s
    c ∈ t.columns ∧ "c" ≠ "" ∧ (∀ d ∈ c.cells, d.key ≠ (Cell.ofJson (.array [])).key) ∧
      t.IsReplaced "c" (.int 1) (.array []) s ∧
      s.columns = [⟨"c", [.text "[]", .text "[]", .null, .number 0.5]⟩] ∧
      (u.column? "c").map (fun d => d.cells.map Cell.key) = some (c.cells.map Cell.key) ∧
      u.columns = [⟨"c", [.int 1, .int 1, .null, .number 0.5]⟩] := by
  intro c t s u
  have hnew : ∀ d ∈ c.cells, d.key ≠ (Cell.ofJson (.array [])).key := by decide +kernel
  obtain ⟨-, -, hcolumn⟩ := replaceValues_replaces t "c" (.int 1) (.array [])
  obtain ⟨hreplaced, hback⟩ := hcolumn c List.mem_cons_self rfl (by decide)
  exact ⟨List.mem_cons_self, by decide, hnew, hreplaced, by decide +kernel, hback hnew,
    by decide +kernel⟩

/-- The empty name names no column, so the empty cell of a column with this name is not replaced. -/
theorem replaceValues_empty_name :
    let c : Column := ⟨"", [.text "x", .null]⟩
    let t : Table := ⟨[c], 2, by decide, by decide⟩
    c ∈ t.columns ∧ (replaceValues c.name (some .null) (some (.text "y"))).apply t = t ∧
      ¬t.IsReplaced c.name .null (.text "y")
        ((replaceValues c.name (some .null) (some (.text "y"))).apply t) := by
  intro c t
  have hsame : (replaceValues c.name (some .null) (some (.text "y"))).apply t = t := by decide
  refine ⟨List.mem_cons_self, hsame, fun h => ?_⟩
  rw [hsame] at h
  exact absurd h.columns (by decide)

end Operation

end TableCleaner
