import TableCleaner.Proofs.Cell.Reading
import TableCleaner.Proofs.Operation.Commute

/-!
# Numbers that keep their values

Statistics, fills and scales see a column through its numeric reading. A column of another type has
the same reading: as numbers every cell is what it was read as, and as a text every cell but a truth
value is read as before.
-/

namespace TableCleaner

/-! ## Converted cells -/

namespace Cell

variable {c : Cell}

theorem number?_convertCell_string (hbool : ∀ b, c ≠ .bool b) (hzero : c ≠ .number (-0.0)) :
    (Table.convertCell .string c).number? = c.number? := by
  have hshown := number?_text_shown hbool hzero
  cases c with
  | null => rfl
  | number | int | text | bool | dateTime => exact hshown

theorem isFinite_number? {x : Float} (h : c.number? = some x) : x.isFinite = true := by
  by_cases hint : ∃ i, c = .int i
  · obtain ⟨i, rfl⟩ := hint
    obtain rfl := Option.some.inj h
    exact isFinite_ofInt i
  · exact isFinite_of_number? h fun i hi => hint ⟨i, hi⟩

theorem beq_number?_self (c : Cell) : (c.number? == c.number?) = true := by
  cases h : c.number? with
  | none => rfl
  | some x => exact Binary.beq_self_of_isFinite (isFinite_number? h)

theorem beq_number?_convertCell_string (hbool : ∀ b, c ≠ .bool b) :
    ((Table.convertCell .string c).number? == c.number?) = true := by
  by_cases hzero : c = .number (-0.0)
  · rw [hzero]
    decide +kernel
  · rw [number?_convertCell_string hbool hzero]
    exact beq_number?_self c

theorem number?_convertCell_numeric (c : Cell) :
    (Table.convertCell .numeric c).number? = c.number? := by
  by_cases hint : ∃ i, c = .int i
  · obtain ⟨i, rfl⟩ := hint
    rfl
  · rw [Table.convertCell_numeric fun i hi => hint ⟨i, hi⟩]
    cases h : c.number? with
    | none => rfl
    | some x =>
      rw [Option.map_some, Option.getD_some, number?, if_pos (isFinite_number? h)]

end Cell

/-! ## Columns of numbers -/

namespace Table

theorem view_convertCell (cells : List Cell) :
    Stats.view (cells.map (convertCell .numeric)) = Stats.view cells := by
  unfold Stats.view
  rw [List.map_map]
  exact List.map_congr_left fun c _ => c.number?_convertCell_numeric

theorem fill?_convertCell (cells : List Cell) (value : Option Json) {strategy : ImputeStrategy}
    (h : strategy = .mean ∨ strategy = .median) :
    fill? (cells.map (convertCell .numeric)) value strategy = fill? cells value strategy := by
  rcases h with rfl | rfl
  · simp only [fill?, view_convertCell]
  · simp only [fill?, view_convertCell]

theorem scaledCells_convertCell (scaler : Scaler) (cells : List Cell) :
    scaledCells scaler (cells.map (convertCell .numeric)) = scaledCells scaler cells := by
  unfold scaledCells
  rw [view_convertCell]
  split
  · rw [List.map_map]
    apply List.map_congr_left
    intro c _
    simp only [Function.comp_apply, scaledCell, Cell.number?_convertCell_numeric]
  · rw [List.map_map]
    rfl

variable {t : Table} {name : String}

theorem column?_mapColumn (f : List Cell → Cell → Cell) :
    (t.mapColumn name f).column? name =
      (t.column? name).map fun c =>
        if name = "" then c else { c with cells := c.cells.map (f c.cells) } := by
  unfold mapColumn
  by_cases hname : name = ""
  · simp [cells?, hname]
  · rw [cells?_eq hname]
    cases h : t.column? name with
    | none => simp [h]
    | some c => simp [column?_mapCells, h, hname]

theorem column?_scale {scaler : Scaler} {cells : List Cell} (h : t.cells? name = some cells) :
    (t.scale scaler name).column? (name ++ scaler.suffix) =
      some ⟨name ++ scaler.suffix, scaledCells scaler cells⟩ := by
  rw [scale, column?_derive, if_pos rfl, h]
  rfl

theorem cell?_mapColumn (f : List Cell → Cell → Cell) (row : Nat) :
    (t.mapColumn name f).cell? name row =
      (t.column? name).bind fun c =>
        c.cells[row]?.map (if name = "" then id else f c.cells) := by
  rw [cell?, column?_mapColumn, Option.bind_map]
  congr
  ext c
  by_cases hname : name = "" <;> simp [hname]

end Table

namespace Operation

theorem fillCell_convertCell (cells : List Cell) (value : Option Json) {strategy : ImputeStrategy}
    (h : strategy = .mean ∨ strategy = .median) :
    fillCell (some strategy) value (cells.map (Table.convertCell .numeric)) =
      fillCell (some strategy) value cells := by
  unfold fillCell
  simp only [Option.bind_some, Table.fill?_convertCell cells value h]

section Retyped

variable (t : Table) {name : String}

theorem apply_changeType (name : String) (type : TargetType) :
    (changeType name (some type)).apply t = t.mapColumn name fun _ => Table.convertCell type :=
  apply_eq t _

theorem view_changeType (name : String) :
    (((changeType name (some .numeric)).apply t).column? name).map (Stats.view ·.cells) =
      (t.column? name).map (Stats.view ·.cells) := by
  rw [apply_changeType, Table.column?_mapColumn, Option.map_map]
  apply Option.map_congr
  intro c _
  by_cases hname : name = "" <;> simp [hname, Table.view_convertCell]

theorem cell?_impute_changeType {strategy : ImputeStrategy} (value : Option Json) {row : Nat}
    (hstrategy : strategy = .mean ∨ strategy = .median) (hnull : t.cell? name row = some .null) :
    ((impute name (some strategy) value).apply
      ((changeType name (some .numeric)).apply t)).cell? name row =
        ((impute name (some strategy) value).apply t).cell? name row := by
  obtain ⟨c, hc, hrow⟩ := Option.bind_eq_some_iff.mp hnull
  rw [apply_changeType, apply_eq, apply_eq]
  change (Table.mapColumn _ name _).cell? name row = (Table.mapColumn _ name _).cell? name row
  rw [Table.cell?_mapColumn, Table.cell?_mapColumn, Table.column?_mapColumn, hc]
  by_cases hname : name = ""
  · simp [hname]
  · have hsame : Table.convertCell .numeric .null = .null := rfl
    simp [hname, hrow, hsame, fillCell_convertCell c.cells value hstrategy]

theorem column?_scale_changeType (name : String) (scaler : Scaler) :
    ((scale scaler name).apply
      ((changeType name (some .numeric)).apply t)).column? (name ++ scaler.suffix) =
        ((scale scaler name).apply t).column? (name ++ scaler.suffix) := by
  rw [apply_changeType]
  unfold Table.mapColumn
  cases hcells : t.cells? name with
  | none => rfl
  | some cells =>
    have hconverted := Table.cells?_mapCells t name (Table.convertCell .numeric)
    rw [hcells, Option.map_some] at hconverted
    simp only [apply]
    rw [Table.column?_scale hcells, Table.column?_scale hconverted,
      Table.scaledCells_convertCell]

theorem cell?_changeType_string {row : Nat} {c : Cell} (hc : t.cell? name row = some c)
    (hbool : ∀ b, c ≠ .bool b) :
    ∃ d, ((changeType name (some .string)).apply t).cell? name row = some d ∧
      (d.number? == c.number?) = true ∧ (c ≠ .number (-0.0) → d.number? = c.number?) := by
  obtain ⟨column, hcolumn, hrow⟩ := Option.bind_eq_some_iff.mp hc
  rw [apply_changeType, Table.cell?_mapColumn, hcolumn, Option.bind_some, hrow]
  by_cases hname : name = ""
  · simp [hname, Cell.beq_number?_self]
  · refine ⟨Table.convertCell .string c, by simp [hname], ?_, ?_⟩
    · exact Cell.beq_number?_convertCell_string hbool
    · exact Cell.number?_convertCell_string hbool

end Retyped

/-- **Types do not touch readings.** A column that is turned into numbers has the numeric reading
that it had. So what statistics fill its empty cells with, and the scaled columns made from it, do
not depend on whether it was turned into numbers first. A column that is turned into texts has the
same reading too, but for truth values, as numbers are compared; only a negative zero comes back as
the positive one. -/
theorem changeType_keeps_readings (t : Table) (name : String) :
    (((changeType name (some .numeric)).apply t).column? name).map (Stats.view ·.cells) =
      (t.column? name).map (Stats.view ·.cells) ∧
    (∀ strategy value row, strategy = .mean ∨ strategy = .median →
      t.cell? name row = some .null →
      ((impute name (some strategy) value).apply
        ((changeType name (some .numeric)).apply t)).cell? name row =
          ((impute name (some strategy) value).apply t).cell? name row) ∧
    (∀ scaler, ((scale scaler name).apply
      ((changeType name (some .numeric)).apply t)).column? (name ++ scaler.suffix) =
        ((scale scaler name).apply t).column? (name ++ scaler.suffix)) ∧
    ∀ row c, t.cell? name row = some c → (∀ b, c ≠ .bool b) →
      ∃ d, ((changeType name (some .string)).apply t).cell? name row = some d ∧
        (d.number? == c.number?) = true ∧ (c ≠ .number (-0.0) → d.number? = c.number?) := by
  exact ⟨view_changeType t name,
    fun _ value _ hstrategy hnull => cell?_impute_changeType t value hstrategy hnull,
    column?_scale_changeType t name, fun _ _ hc hbool => cell?_changeType_string t hc hbool⟩

theorem changeType_keeps_readings_grouped :
    ∃ t : Table, t.columns = [⟨"x", [.text "1,000", .null, .number (-0.0), .int 2]⟩] ∧
      ((changeType "x" (some .numeric)).apply t).columns =
        [⟨"x", [.number 1000.0, .null, .number (-0.0), .int 2]⟩] ∧
      ((impute "x" (some .mean) none).apply t).cell? "x" 1 = some (.number 334.0) ∧
      ((impute "x" (some .mean) none).apply
        ((changeType "x" (some .numeric)).apply t)).cell? "x" 1 = some (.number 334.0) ∧
      ((changeType "x" (some .string)).apply t).columns =
        [⟨"x", [.text "1,000", .null, .text "0", .text "2"]⟩] ∧
      ∃ d, ((changeType "x" (some .string)).apply t).cell? "x" 2 = some d ∧
        (d.number? == (Cell.number (-0.0)).number?) = true := by
  let t : Table := ⟨[⟨"x", [.text "1,000", .null, .number (-0.0), .int 2]⟩], 4, by decide, by decide⟩
  obtain ⟨-, hfill, -, htext⟩ := changeType_keeps_readings t "x"
  have hmean : ((impute "x" (some .mean) none).apply t).cell? "x" 1 = some (.number 334.0) := by
    decide +kernel
  obtain ⟨d, hd, hbeq, -⟩ := htext 2 (.number (-0.0)) (by decide +kernel) (by simp)
  refine ⟨t, rfl, by decide +kernel, hmean, ?_, by decide +kernel, d, hd, hbeq⟩
  rw [hfill .mean none 1 (.inl rfl) (by decide +kernel), hmean]

end Operation

end TableCleaner
